import ProofScript.Text.Decimal

/-!
# Dates and times

The words of a manifest that are moments: a date, a time of day, or both with an optional offset.
-/

namespace ProofScript.Toml

/-- The number that exactly `n` digits denote. -/
def fixedDigits? (n : Nat) (cs : List Char) : Option Nat :=
  if cs.length = n then Text.digits? cs else none

/-- The number that two digits denote, if it lies between `low` and `high`. -/
def twoDigits? (low high : Nat) (p q : Char) : Option Nat :=
  (fixedDigits? 2 [p, q]).bind fun n => if low ≤ n ∧ n ≤ high then some n else none

/-- Whether a year has a leap day. -/
def isLeapYear (year : Nat) : Bool := year % 4 == 0 && (year % 100 != 0 || year % 400 == 0)

/-- The number of days of a month. -/
def daysOfMonth (year month : Nat) : Nat :=
  if month = 2 then if isLeapYear year then 29 else 28
  else if month = 4 ∨ month = 6 ∨ month = 9 ∨ month = 11 then 30
  else 31

/-- Whether year, month and day form a date. -/
def isDate (year month day : List Char) : Bool :=
  match fixedDigits? 4 year, month, day with
  | some y, [a, b], [c, d] =>
    match twoDigits? 1 12 a b with
    | some m => (twoDigits? 1 (daysOfMonth y m) c d).isSome
    | none => false
  | _, _, _ => false

/-- Whether a text is an offset from universal time. -/
def isOffset : List Char → Bool
  | ['Z'] | ['z'] => true
  | [sign, a, b, ':', c, d] =>
    (sign == '+' || sign == '-') && (twoDigits? 0 23 a b).isSome && (twoDigits? 0 59 c d).isSome
  | _ => false

/-- What follows the digits of a fraction of a second; nothing when a point is followed by no
digit. -/
def dropFraction? : List Char → Option (List Char)
  | '.' :: cs => if (cs.head?.map Text.isDigit).getD false then some (cs.dropWhile Text.isDigit)
    else none
  | cs => some cs

/-- What follows a time of day at the start of a word. A minute may have a leap second. -/
def dropTime? : List Char → Option (List Char)
  | a :: b :: ':' :: c :: d :: ':' :: e :: f :: cs =>
    if (twoDigits? 0 23 a b).isSome && (twoDigits? 0 59 c d).isSome && (twoDigits? 0 60 e f).isSome
    then dropFraction? cs
    else none
  | _ => none

/-- Whether a word is a time of day. -/
def isTime (cs : List Char) : Bool := dropTime? cs == some []

/-- Whether a word is a time of day with an optional offset. -/
def isZonedTime (cs : List Char) : Bool :=
  match dropTime? cs with
  | some rest => rest.isEmpty || isOffset rest
  | none => false

/-- What follows a date at the start of a word. -/
def dropDate? : List Char → Option (List Char)
  | a :: b :: c :: d :: '-' :: e :: f :: '-' :: g :: h :: cs =>
    if isDate [a, b, c, d] [e, f] [g, h] then some cs else none
  | _ => none

/-- Whether a word is a moment. -/
def isMoment (cs : List Char) : Bool :=
  isTime cs ||
    match dropDate? cs with
    | some [] => true
    | some (c :: rest) => (c == 'T' || c == 't') && isZonedTime rest
    | none => false

end ProofScript.Toml
