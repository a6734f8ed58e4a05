import ProofScript.Text.Decimal

/-!
# Names

A name starts with an ASCII letter or an underscore and goes on with letters, digits and
underscores. The names of a script and the placeholders of a template follow the same rule.
-/

namespace ProofScript.Text

/-- Whether a name may start with `c`. -/
def isNameStart (c : Char) : Bool :=
  ('a' ≤ c && c ≤ 'z') || ('A' ≤ c && c ≤ 'Z') || c == '_'

/-- Whether a name may go on with `c`. -/
def isNameChar (c : Char) : Bool := isNameStart c || isDigit c

/-- Whether a list of characters is a name. -/
def isName : List Char → Bool
  | [] => false
  | c :: cs => isNameStart c && cs.all isNameChar

/-- The longest name at the start of a list of characters; empty when there is none. -/
def takeName : List Char → List Char
  | [] => []
  | c :: cs => if isNameStart c then c :: cs.takeWhile isNameChar else []

/-- What a list of characters holds behind the name at its start. -/
def dropName : List Char → List Char
  | [] => []
  | c :: cs => if isNameStart c then cs.dropWhile isNameChar else c :: cs

/-- The name at the start and what is behind it are the whole list. -/
theorem takeName_append_dropName (cs : List Char) : takeName cs ++ dropName cs = cs := by
  cases cs with
  | nil => rfl
  | cons c cs => by_cases h : isNameStart c <;> simp [takeName, dropName, h]

end ProofScript.Text
