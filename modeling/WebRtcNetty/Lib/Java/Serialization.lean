/-!
# Object serialization

What `ObjectOutputStream.writeObject` writes for a string: the stream's header, a tag, and the
string's length and bytes in modified UTF-8.
-/

namespace Java

/-- The `n` bytes of a number, the most significant one first. -/
def bigEndian : Nat → Nat → List UInt8
  | 0, _ => []
  | n + 1, v => bigEndian n (v / 256) ++ [UInt8.ofNat v]

/-- The UTF-16 code units of a character. -/
def utf16 (c : Char) : List Nat :=
  if c.toNat < 0x10000 then [c.toNat]
  else [0xD800 + (c.toNat - 0x10000) / 0x400, 0xDC00 + (c.toNat - 0x10000) % 0x400]

/-- The modified UTF-8 encoding of a code unit. -/
def modifiedUtf8Unit (u : Nat) : List UInt8 :=
  if 0 < u ∧ u < 0x80 then [UInt8.ofNat u]
  else if u < 0x800 then [UInt8.ofNat (0xC0 + u / 0x40), UInt8.ofNat (0x80 + u % 0x40)]
  else [UInt8.ofNat (0xE0 + u / 0x1000), UInt8.ofNat (0x80 + u / 0x40 % 0x40),
    UInt8.ofNat (0x80 + u % 0x40)]

/-- The modified UTF-8 encoding of a string. -/
def modifiedUtf8 (s : String) : List UInt8 :=
  s.toList.flatMap fun c => (utf16 c).flatMap modifiedUtf8Unit

/-- The bytes that a new `ObjectOutputStream` writes for a string. -/
def serialize (s : String) : List UInt8 :=
  let bytes := modifiedUtf8 s
  [0xAC, 0xED, 0x00, 0x05] ++
    if bytes.length ≤ 0xFFFF then 0x74 :: bigEndian 2 bytes.length ++ bytes
    else 0x7C :: bigEndian 8 bytes.length ++ bytes

/-- Every stream starts with its magic number. -/
theorem serialize_header (s : String) : ∃ rest, serialize s = 0xAC :: 0xED :: 0x00 :: rest :=
  ⟨_, rfl⟩

end Java
