/-!
# What depends on the Java platform

Two behaviours of the Java library that its documentation leaves open, and that programs
nevertheless use: how malformed UTF-8 is replaced when bytes are decoded to a string, and the order
in which a `HashSet` is iterated. A `Platform` is one choice of both.
-/

namespace Java

/-- `s.getBytes(UTF_8)`. -/
def utf8Bytes (s : String) : List UInt8 := s.toUTF8.data.toList

/-- The platform-dependent behaviours. -/
structure Platform where
  /-- `new String(bytes, UTF_8)`. Malformed input is replaced, by a rule that differs between
  releases; well-formed input is decoded. -/
  decodeUtf8 : List UInt8 → String
  decode_encode : ∀ s, decodeUtf8 (utf8Bytes s) = s
  /-- The order in which a `HashSet` with the given elements is iterated. -/
  iterate : {α : Type} → List α → List α
  iterate_perm : ∀ {α : Type} (xs : List α), (iterate xs).Perm xs

/-- Strings with the same bytes are the same. -/
theorem Platform.utf8Bytes_injective (p : Platform) {s t : String}
    (h : utf8Bytes s = utf8Bytes t) : s = t := by
  rw [← p.decode_encode s, h, p.decode_encode]

/-- The platform that decodes malformed input to the replacement character and iterates in the order
of insertion. -/
def Platform.standard : Platform where
  decodeUtf8 bs := (String.fromUTF8? ⟨bs.toArray⟩).getD "\uFFFD"
  decode_encode s := by
    have h : (⟨(utf8Bytes s).toArray⟩ : ByteArray) = s.toUTF8 := by
      simp [utf8Bytes]
    have hd : String.fromUTF8? s.toUTF8 = some s := dif_pos s.isValidUTF8
    rw [h, hd]
    rfl
  iterate xs := xs
  iterate_perm _ := .refl _

end Java
