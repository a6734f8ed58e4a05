/-!
# Letter case

Only the case of ASCII letters is ever ignored.
-/

namespace ProofScript.Text

/-- The lower-case form of an ASCII letter; every other character is itself. -/
def lowerChar (c : Char) : Char :=
  if 'A' ≤ c && c ≤ 'Z' then Char.ofNat (c.toNat + 32) else c

/-- A text with its ASCII letters in lower case. -/
def lower (s : String) : String := String.ofList (s.toList.map lowerChar)

end ProofScript.Text
