import ShaderChannels.Disk.Entry

/-!
# Picture headers

Format and size of a picture stand at the front of its file, in places that depend on the format.
`Picture.ofBytes?` finds them; nothing of the picture itself is decoded.
-/

namespace ShaderChannels

/-- The number written by bytes, most significant one first. -/
def bigEndian (bs : List UInt8) : Nat := bs.foldl (fun n b ↦ 256 * n + b.toNat) 0

/-- The number written by bytes, least significant one first. -/
def littleEndian (bs : List UInt8) : Nat := bs.foldr (fun b n ↦ 256 * n + b.toNat) 0

/-- Bytes in the other order mean the same in the other reading. -/
@[simp] theorem littleEndian_reverse (bs : List UInt8) :
    littleEndian bs.reverse = bigEndian bs := by
  simp [littleEndian, bigEndian, List.foldr_reverse]

namespace Picture

/-- A number of `n` bytes that start at `place`, if they are all there. -/
def field? (number : List UInt8 → Nat) (bs : List UInt8) (place n : Nat) : Option Nat :=
  let field := (bs.drop place).take n
  if field.length = n then some (number field) else none

/-- A picture with sides that are not zero. -/
def sized? (format : PictureFormat) (width height : Nat) : Option Picture :=
  if width = 0 ∨ height = 0 then none
  else some ⟨format, UInt32.ofNat width, UInt32.ofNat height⟩

/-- What a PNG starts with: its mark, then the length and name of its first chunk. -/
def pngStart : List UInt8 :=
  [0x89, 0x50, 0x4e, 0x47, 0x0d, 0x0a, 0x1a, 0x0a, 0, 0, 0, 13, 0x49, 0x48, 0x44, 0x52]

/-- A PNG: its first chunk starts with the size. -/
def ofPng? (bs : List UInt8) : Option Picture := do
  guard (pngStart.isPrefixOf bs)
  sized? .png (← field? bigEndian bs 16 4) (← field? bigEndian bs 20 4)

/-- What a GIF starts with, in each of its two versions. -/
def gifStarts : List (List UInt8) :=
  [[0x47, 0x49, 0x46, 0x38, 0x37, 0x61], [0x47, 0x49, 0x46, 0x38, 0x39, 0x61]]

/-- A GIF: the size comes first. -/
def ofGif? (bs : List UInt8) : Option Picture := do
  guard (gifStarts.any (·.isPrefixOf bs))
  sized? .gif (← field? littleEndian bs 6 2) (← field? littleEndian bs 8 2)

/-- The size of a bitmap side, which is negative when its rows run the other way. -/
def side (n : Nat) : Nat := if 2 * n < UInt32.size then n else UInt32.size - n

/-- A BMP: the length of its second header, at offset 14, tells how wide the numbers are. -/
def ofBmp? (bs : List UInt8) : Option Picture := do
  guard ([0x42, 0x4d].isPrefixOf bs)
  if (← field? littleEndian bs 14 4) = 12 then
    sized? .bmp (← field? littleEndian bs 18 2) (← field? littleEndian bs 20 2)
  else sized? .bmp (← field? littleEndian bs 18 4) (side (← field? littleEndian bs 22 4))

/-- Marks of JPEG segments that start a frame. -/
def isFrame (mark : UInt8) : Bool :=
  0xc0 ≤ mark && mark ≤ 0xcf && mark != 0xc4 && mark != 0xc8 && mark != 0xcc

/-- Looks through the segments of a JPEG for a frame.  Its height stands before its width, both
after the length of the segment and the number of bits of a sample. -/
def jpegFrame? (bs : List UInt8) : Option Picture :=
  match bs with
  | 0xff :: 0xff :: r => jpegFrame? (0xff :: r)
  | 0xff :: mark :: r =>
    if isFrame mark then do
      sized? .jpeg (← field? bigEndian r 5 2) (← field? bigEndian r 3 2)
    else match field? bigEndian r 0 2 with
      | some length => jpegFrame? (r.drop length)
      | none => none
  | _ => none
termination_by bs.length
decreasing_by
  · simp
  · simp only [List.length_drop, List.length_cons]
    omega

/-- A JPEG: after its mark come segments. -/
def ofJpeg? (bs : List UInt8) : Option Picture :=
  match bs with
  | 0xff :: 0xd8 :: r => jpegFrame? r
  | _ => none

/-- The picture a file holds, if it holds one. -/
def ofBytes? (bs : List UInt8) : Option Picture :=
  (ofPng? bs).or ((ofJpeg? bs).or ((ofBmp? bs).or (ofGif? bs)))

end Picture

/-- What matters of a file that holds these bytes. -/
def Content.ofBytes (bytes : ByteArray) : Content :=
  ⟨String.fromUTF8? bytes, Picture.ofBytes? bytes.data.toList⟩

end ShaderChannels
