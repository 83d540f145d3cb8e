import Watershed.Tool.Picture

/-!
# Pictures as PNG files

The bytes of a PNG file with eight bits for each of the three colour channels. The rows are stored
without compression, in blocks of the deflate format.
-/

namespace Watershed.Tool.Png

/-- The bytes of a 32-bit number, the highest first. -/
def bigEndian (value : UInt32) : List UInt8 :=
  [(value >>> 24).toUInt8, (value >>> 16).toUInt8, (value >>> 8).toUInt8, value.toUInt8]

/-- The two bytes of a 16-bit number, the low one first. -/
def littleEndian (value : Nat) : List UInt8 :=
  [value.toUInt8, (value / 256).toUInt8]

/-- One step of the cyclic redundancy check on a single bit. -/
def checkBit (rest : UInt32) : UInt32 :=
  if rest &&& 1 = 1 then (rest >>> 1) ^^^ 0xedb88320 else rest >>> 1

/-- One step of the cyclic redundancy check on a byte. -/
def checkByte (rest : UInt32) (byte : UInt8) : UInt32 :=
  (List.range 8).foldl (fun rest _ => checkBit rest) (rest ^^^ byte.toUInt32)

/-- The cyclic redundancy check of bytes. -/
def checksum (bytes : List UInt8) : UInt32 :=
  bytes.foldl checkByte 0xffffffff ^^^ 0xffffffff

/-- A chunk of a file: its length, its name, its bytes and their check. -/
def chunk (name : String) (bytes : List UInt8) : List UInt8 :=
  let body := name.toUTF8.toList ++ bytes
  bigEndian bytes.length.toUInt32 ++ body ++ bigEndian (checksum body)

/-- The two sums that end a compressed stream, as one number. -/
def adler (bytes : List UInt8) : UInt32 :=
  let (low, high) := bytes.foldl (fun (low, high) byte =>
    let low := (low + byte.toNat) % 65521
    (low, (high + low) % 65521)) (1, 0)
  (high * 65536 + low).toUInt32

/-- The largest number of bytes in a stored block. -/
def blockSize : Nat := 65535

/-- Bytes in stored blocks, the last of which is marked. -/
def storedBlocks : Nat → List UInt8 → List UInt8
  | 0, _ => []
  | bound + 1, bytes =>
      let block := bytes.take blockSize
      let rest := bytes.drop blockSize
      let header := (if rest.isEmpty then 1 else 0) ::
        (littleEndian block.length ++ littleEndian (blockSize - block.length))
      header ++ block ++ if rest.isEmpty then [] else storedBlocks bound rest

/-- The rows of a picture, each after the mark that it is not filtered. -/
def rows (picture : Picture) : List UInt8 :=
  (List.range picture.height).flatMap fun row =>
    0 :: (picture.pixels.extract (row * picture.width) ((row + 1) * picture.width)).toList.flatMap
      Color.channels

/-- The bytes of the file of a picture. -/
def encode (picture : Picture) : List UInt8 :=
  let content := rows picture
  let header := bigEndian picture.width.toUInt32 ++ bigEndian picture.height.toUInt32 ++
    [8, 2, 0, 0, 0]
  let stream := [0x78, 0x01] ++ storedBlocks (content.length + 1) content ++
    bigEndian (adler content)
  [0x89, 0x50, 0x4e, 0x47, 0x0d, 0x0a, 0x1a, 0x0a] ++ chunk "IHDR" header ++
    chunk "IDAT" stream ++ chunk "IEND" []

end Watershed.Tool.Png
