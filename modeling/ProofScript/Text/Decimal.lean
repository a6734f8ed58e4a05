/-!
# Decimal numbers

Reading and writing the signed 64-bit integers. A number is written with the fewest digits and a
minus sign when it is negative. Reading accepts either sign, leading zeros, and refuses a number
outside the 64-bit range.
-/

namespace ProofScript.Text

/-- Whether `c` is one of the ten ASCII digits. -/
def isDigit (c : Char) : Bool := '0' ≤ c && c ≤ '9'

/-- The value of an ASCII digit. -/
def digitValue (c : Char) : Nat := c.toNat - '0'.toNat

/-- The number that a list of digits denotes in base ten, most significant digit first. -/
def digitsValue (ds : List Char) : Nat := ds.foldl (fun n d => n * 10 + digitValue d) 0

/-- The largest signed 64-bit integer. -/
def maxInt64 : Nat := 9223372036854775807

/-- Reads a non-empty list of digits; nothing when some character is no digit. -/
def digits? (ds : List Char) : Option Nat :=
  if ds.isEmpty || !ds.all isDigit then none else some (digitsValue ds)

/-- Reads an optional sign and a list of digits as an integer. -/
def integer? : List Char → Option Int
  | '-' :: ds => (digits? ds).map fun n => -(n : Int)
  | '+' :: ds => (digits? ds).map fun n => (n : Int)
  | ds => (digits? ds).map fun n => (n : Int)

/-- Reads a signed 64-bit integer; nothing when the text is no integer or lies out of range. -/
def int64? (s : String) : Option Int64 :=
  match integer? s.toList with
  | some n => if -(maxInt64 : Int) - 1 ≤ n ∧ n ≤ maxInt64 then some (Int64.ofInt n) else none
  | none => none

/-- The decimal text of a signed 64-bit integer. -/
def decimal (n : Int64) : String := n.toInt.repr

end ProofScript.Text
