/-
Bytes read as UTF-8.

A text that is not UTF-8 throughout is still read: every character is given as itself, and
every byte that is part of no character as `none`, so that whoever reads the text
decides where such a byte matters.
-/
namespace CompileCommands.Text

/-- The characters of the bytes from an offset on, behind those that were read before (the
last one first). -/
def decodeFrom (bytes : ByteArray) (offset : Nat) (before : List (Option Char)) :
    List (Option Char) :=
  if offset < bytes.size then
    match bytes.utf8DecodeChar? offset with
    | some c => decodeFrom bytes (offset + c.utf8Size) (some c :: before)
    | none => decodeFrom bytes (offset + 1) (none :: before)
  else before.reverse
termination_by bytes.size - offset
decreasing_by
  · have := c.utf8Size_pos
    omega
  · omega

/-- The characters of some bytes, with `none` for each byte that is part of no character. -/
def decode (bytes : ByteArray) : List (Option Char) := decodeFrom bytes 0 []

/-- The number of bytes that a character, or a byte of its own, takes. -/
def byteSize : Option Char → Nat
  | some c => c.utf8Size
  | none => 1

end CompileCommands.Text
