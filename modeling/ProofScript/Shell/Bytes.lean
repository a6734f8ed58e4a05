import ProofScript.Text.Bytes

/-!
# Texts of bytes

A shell works on bytes. Its texts are texts of which each character stands for one byte, so that
they can hold any bytes; the characters of a file name are decoded where a file is looked for.
-/

namespace ProofScript.Shell

/-- The bytes of a text of bytes. -/
def toBytes (s : String) : List UInt8 := s.toList.map fun c => c.toNat.toUInt8

/-- The text of some bytes. -/
def ofBytes (bytes : List UInt8) : String :=
  String.ofList (bytes.map fun b => Char.ofNat b.toNat)

/-- The text of the bytes of a text of characters. -/
def encode (s : String) : String := ofBytes (Text.toBytes s)

/-- The text of characters that a text of bytes encodes. -/
def decode (s : String) : String := Text.ofBytes (toBytes s)

end ProofScript.Shell
