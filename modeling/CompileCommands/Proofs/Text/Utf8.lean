/-
Encoded text is read back.

The reader of UTF-8 goes through the bytes by their offset.  In the encoding of a text every
offset it comes to splits the text in two, so the fact to prove by induction is about both
parts: from the end of the first part on, the reader gives the characters of the second.
-/
import CompileCommands.Text.Utf8

namespace CompileCommands.Text

private theorem size_utf8Encode_singleton (c : Char) : [c].utf8Encode.size = c.utf8Size := by
  rw [List.utf8Encode_singleton, List.size_toByteArray, String.length_utf8EncodeChar]

theorem decodeFrom_utf8Encode (back : List Char) :
    ∀ (front : List Char) (before : List (Option Char)),
      decodeFrom (front.utf8Encode ++ back.utf8Encode) front.utf8Encode.size before
        = before.reverse ++ back.map some := by
  induction back with
  | nil =>
    intro front before
    rw [decodeFrom, if_neg (by simp [List.utf8Encode])]
    simp
  | cons c back ih =>
    intro front before
    have hsize : (front.utf8Encode ++ (c :: back).utf8Encode).size
        = front.utf8Encode.size + c.utf8Size + back.utf8Encode.size := by
      rw [List.utf8Encode_cons, ByteArray.size_append, ByteArray.size_append,
        size_utf8Encode_singleton, Nat.add_assoc]
    have hchar : (front.utf8Encode ++ (c :: back).utf8Encode).utf8DecodeChar?
        front.utf8Encode.size = some c := by
      rw [ByteArray.utf8DecodeChar?_eq_utf8DecodeChar?_extract,
        ByteArray.extract_append_eq_right rfl ByteArray.size_append,
        List.utf8DecodeChar?_utf8Encode_cons]
    have hlt : front.utf8Encode.size < (front.utf8Encode ++ (c :: back).utf8Encode).size := by
      have := c.utf8Size_pos
      omega
    -- The text is split one character further on.
    have hstep := ih (front ++ [c]) (some c :: before)
    rw [List.utf8Encode_append, ByteArray.size_append, size_utf8Encode_singleton,
      ByteArray.append_assoc, ← List.utf8Encode_cons] at hstep
    rw [decodeFrom, if_pos hlt, hchar]
    show decodeFrom _ (front.utf8Encode.size + c.utf8Size) (some c :: before) = _
    rw [hstep]
    simp

/-- The characters of an encoded text are those of the text. -/
theorem decode_toUTF8 (text : String) : decode text.toUTF8 = text.toList.map some := by
  have hread := decodeFrom_utf8Encode text.toList [] []
  rw [String.utf8Encode_toList] at hread
  simpa [decode] using hread

end CompileCommands.Text
