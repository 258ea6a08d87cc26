import ChainLedger.Bytes

/-!
# Text as UTF-8 bytes

Every text has one byte form, and a byte string is the form of at most one text:
`bytesOf` and `ofBytes?` are inverse to each other.
-/

namespace ChainLedger.Text

/-- The UTF-8 bytes of a text. -/
def bytesOf (text : String) : Bytes := text.toByteArray.data.toList

/-- The text whose UTF-8 bytes these are, if they are well formed. -/
def ofBytes? (bytes : Bytes) : Option String := String.fromUTF8? ⟨bytes.toArray⟩

@[simp] theorem ofBytes?_bytesOf (text : String) : ofBytes? (bytesOf text) = some text := by
  have valid := text.isValidUTF8
  simp only [ofBytes?, bytesOf, Array.toArray_toList, String.fromUTF8?]
  exact dif_pos valid

theorem bytesOf_of_ofBytes? {bytes : Bytes} {text : String} (read : ofBytes? bytes = some text) :
    bytesOf text = bytes := by
  simp only [ofBytes?, String.fromUTF8?] at read
  split at read
  · cases read; rfl
  · cases read

theorem ofBytes?_eq_some_iff {bytes : Bytes} {text : String} :
    ofBytes? bytes = some text ↔ bytes = bytesOf text :=
  ⟨fun read => (bytesOf_of_ofBytes? read).symm, fun h => h ▸ ofBytes?_bytesOf text⟩

/-- The number of bytes a text takes. -/
def size (text : String) : Nat := text.utf8ByteSize

end ChainLedger.Text
