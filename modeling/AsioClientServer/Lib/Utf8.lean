import AsioClientServer.Lib.Varint

/-!
# UTF-8 text as bytes

`ValidUtf8 bs`: the byte string is the UTF-8 encoding of a sequence of Unicode scalar values. It
is the validity predicate of Lean's own strings, which is decidable.
-/

/-- The bytes are text. The generated parsers check this of every `string` field; the generated
writers do not. -/
def ValidUtf8 (bs : Bytes) : Prop :=
  bs.toByteArray.IsValidUTF8

instance (bs : Bytes) : Decidable (ValidUtf8 bs) :=
  inferInstanceAs (Decidable bs.toByteArray.IsValidUTF8)

/-- Valid byte strings are the encodings of lists of characters. -/
theorem validUtf8_iff {bs : Bytes} :
    ValidUtf8 bs ↔ ∃ cs : List Char, bs = cs.flatMap String.utf8EncodeChar := by
  constructor
  · rintro ⟨cs, h⟩
    have hdata := congrArg (fun a : ByteArray => a.data.toList) h
    simp only [List.utf8Encode, List.data_toByteArray] at hdata
    exact ⟨cs, hdata⟩
  · rintro ⟨cs, rfl⟩
    exact ⟨cs, rfl⟩

theorem validUtf8_nil : ValidUtf8 [] :=
  validUtf8_iff.mpr ⟨[], rfl⟩

/-- A string literal of the C++ sources, whose files are UTF-8. -/
def utf8 (s : String) : Bytes :=
  s.toByteArray.data.toList

theorem validUtf8_utf8 (s : String) : ValidUtf8 (utf8 s) := by
  have h : (utf8 s).toByteArray = s.toByteArray := by
    apply ByteArray.ext
    simp [utf8]
  rw [ValidUtf8, h]
  exact s.isValidUTF8
