/-!
# Escaping characters

A text in which single characters are replaced by short texts.
-/

namespace ProofScript.Text

/-- Replaces every character by the characters that `f` gives for it. -/
def escapeWith (f : Char → List Char) (s : String) : String := String.ofList (s.toList.flatMap f)

/-- Doubles every occurrence of the character `c`. -/
def double (c : Char) : String → String := escapeWith fun d => if d = c then [c, c] else [d]

end ProofScript.Text
