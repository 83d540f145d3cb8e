/-!
# Sources of random numbers

Nothing that is done with random numbers depends on where they come from. A source is a type of
states with a next number in each of them; who asks for a segmentation chooses the source, and gets
back the state that it is left in.
-/

namespace Watershed

/-- In every state of a source there is a next 64-bit number, and a state after it. -/
class RandomSource (γ : Type) where
  nextLong : γ → UInt64 × γ

namespace RandomSource

variable {γ : Type} [RandomSource γ]

/--
A decision that is positive with the given probability: the next number lies below that part of its
range. A certain decision takes no number from the source.
-/
def nextDecision (probability : Float) (state : γ) : Bool × γ :=
  if probability == 1.0 then
    (true, state)
  else
    match nextLong state with
    | (number, state) => (number < (probability * 18446744073709551616.0).toUInt64, state)

/-- Decisions of one probability, taken one after another and appended to earlier ones. -/
def nextDecisions (probability : Float) : Nat → Array Bool → γ → Array Bool × γ
  | 0, decisions, state => (decisions, state)
  | count + 1, decisions, state =>
      match nextDecision probability state with
      | (decision, state) => nextDecisions probability count (decisions.push decision) state

end RandomSource

end Watershed
