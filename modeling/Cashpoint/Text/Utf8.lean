/-
# Text as bytes

The plaintext of a message and the lines of a console are UTF-8. Writing and then
reading gives the text back (`decode?_encode`).
-/

namespace Cashpoint
namespace Utf8

/-- The bytes of a text. -/
def encode (text : String) : List UInt8 := text.toUTF8.data.toList

/-- The text whose bytes these are, if they are well-formed UTF-8. -/
def decode? (bytes : List UInt8) : Option String := String.fromUTF8? ⟨bytes.toArray⟩

/-- A text is read back from its bytes. -/
theorem decode?_encode (text : String) : decode? (encode text) = some text := by
  have h : (⟨(encode text).toArray⟩ : ByteArray) = text.toByteArray := by
    simp [encode, String.toUTF8]
  simp only [decode?, h, String.fromUTF8?]
  rw [dif_pos text.isValidUTF8]
  rfl

end Utf8
end Cashpoint
