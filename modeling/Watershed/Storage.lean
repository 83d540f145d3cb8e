import Watershed.Error

/-!
# Storage

The elements of a list lie side by side in one block of memory, and a block has fewer bytes than
half of the address range. Lists, tensors and partitions are defined at every size; where the size
of a new one is asked for from outside, it is first checked that there can be a block for it.
-/

namespace Watershed.Storage

/-- No block of memory has as many bytes as this. -/
def limit : Nat := UInt64.size / 2

/-- The bytes of a 64-bit number. -/
def wordBytes : Nat := 8

/-- The bytes of a 32-bit number. -/
def halfWordBytes : Nat := 4

/-- There can be a block for `count` elements of `bytes` bytes each. -/
def check (count bytes : Nat) : Except Error Unit :=
  if count * bytes < limit then .ok () else .error .capacity

end Watershed.Storage
