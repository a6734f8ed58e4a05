/-!
# Bytes of a text

Reading bytes as UTF-8. Where the bytes are no UTF-8, the longest start of a character that stands
there, or else a single byte, becomes one replacement character.
-/

namespace ProofScript.Text

/-- The character that stands for bytes that are no UTF-8. -/
def replacement : Char := '\ufffd'

/-- The start of a character of several bytes. -/
structure PartialChar where
  /-- The bits read so far. -/
  value : Nat
  /-- The number of bytes to come; at least one. -/
  missing : Nat
  /-- The least value of the next byte. -/
  low : UInt8
  /-- The greatest value of the next byte. -/
  high : UInt8

/-- Reads the first byte of a character: the characters that are complete, and the start of the next
one. The bounds of the second byte exclude overlong forms, surrogates and numbers that are too
large. -/
def firstByte (b : UInt8) : List Char × Option PartialChar :=
  let n := b.toNat
  if n < 0x80 then ([Char.ofNat n], none)
  else if 0xc2 ≤ n && n ≤ 0xdf then ([], some ⟨n - 0xc0, 1, 0x80, 0xbf⟩)
  else if n == 0xe0 then ([], some ⟨0, 2, 0xa0, 0xbf⟩)
  else if n == 0xed then ([], some ⟨0xd, 2, 0x80, 0x9f⟩)
  else if 0xe1 ≤ n && n ≤ 0xef then ([], some ⟨n - 0xe0, 2, 0x80, 0xbf⟩)
  else if n == 0xf0 then ([], some ⟨0, 3, 0x90, 0xbf⟩)
  else if 0xf1 ≤ n && n ≤ 0xf3 then ([], some ⟨n - 0xf0, 3, 0x80, 0xbf⟩)
  else if n == 0xf4 then ([], some ⟨4, 3, 0x80, 0x8f⟩)
  else ([replacement], none)

/-- Reads a byte behind the start of a character, if there is one. -/
def nextByte (start : Option PartialChar) (b : UInt8) : List Char × Option PartialChar :=
  match start with
  | none => firstByte b
  | some p =>
    if p.low ≤ b && b ≤ p.high then
      let value := 64 * p.value + b.toNat % 64
      if p.missing ≤ 1 then ([Char.ofNat value], none)
      else ([], some ⟨value, p.missing - 1, 0x80, 0xbf⟩)
    else
      let (cs, start) := firstByte b
      (replacement :: cs, start)

/-- The characters of bytes behind the start of a character. -/
def charsOfBytes : Option PartialChar → List UInt8 → List Char
  | none, [] => []
  | some _, [] => [replacement]
  | start, b :: bs =>
    let (cs, start) := nextByte start b
    cs ++ charsOfBytes start bs

/-- The text of bytes. -/
def ofBytes (bytes : List UInt8) : String := String.ofList (charsOfBytes none bytes)

/-- The bytes of a text. -/
def toBytes (s : String) : List UInt8 := s.toUTF8.toList

/-- The text of bytes that are UTF-8; nothing for other bytes. -/
def ofBytes? (bytes : List UInt8) : Option String :=
  if toBytes (ofBytes bytes) = bytes then some (ofBytes bytes) else none

/-- Bytes that are a text are the bytes of that text. -/
theorem toBytes_of_ofBytes? {bytes : List UInt8} {s : String} (h : ofBytes? bytes = some s) :
    toBytes s = bytes := by
  unfold ofBytes? at h
  split at h
  · rename_i hs
    obtain rfl : ofBytes bytes = s := by simpa using h
    exact hs
  · simp at h

end ProofScript.Text
