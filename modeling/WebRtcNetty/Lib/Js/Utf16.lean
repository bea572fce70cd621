import Mathlib.Data.Nat.Basic

/-!
# Strings of ECMAScript

A script sees a string as its UTF-16 code units: one for a character below 0x10000, and a surrogate
pair for another.
-/

namespace Js

/-- The code units of a character. -/
def utf16Char (c : Char) : List UInt16 :=
  if c.toNat < 0x10000 then [.ofNat c.toNat]
  else [.ofNat (0xD800 + (c.toNat - 0x10000) / 0x400),
    .ofNat (0xDC00 + (c.toNat - 0x10000) % 0x400)]

/-- The code units of a string. -/
def utf16 (s : String) : List UInt16 := s.toList.flatMap utf16Char

end Js
