import ProofScript.Text.Decimal

/-!
# Fractions

Numbers with a fractional part, as they are read from a text and written with a number of places. A
number is read to 53 binary places, and written by its exact value; a half goes to the even
neighbour.
-/

namespace ProofScript.Shell

/-- A number: whether it has a minus sign, and its numerator and denominator. -/
structure Fraction where
  /-- Whether it has a minus sign. -/
  negative : Bool
  /-- The numerator. -/
  num : Nat
  /-- The denominator, which is not zero. -/
  den : Nat
  deriving DecidableEq, Repr

/-- The number nearest to a quotient; a half goes to the even neighbour. -/
def roundDiv (num den : Nat) : Nat :=
  let q := num / den
  let r := num % den
  if den < 2 * r || (2 * r = den && q % 2 = 1) then q + 1 else q

namespace Fraction

/-- A number without a fractional part. -/
def ofInt (n : Int) : Fraction := ⟨n < 0, n.natAbs, 1⟩

/-- The fraction with 53 binary places that is nearest. -/
def rounded (f : Fraction) : Fraction :=
  if f.num = 0 || f.den = 0 then { f with num := 0, den := 1 }
  else
    -- The exponent of the last place; the smallest one is -1074.
    let guess : Int := (Nat.log2 f.num : Int) - Nat.log2 f.den - 53
    let scaled (e : Int) : Nat × Nat :=
      if e < 0 then (f.num * Nat.pow 2 e.natAbs, f.den) else (f.num, f.den * Nat.pow 2 e.natAbs)
    let fits (e : Int) : Bool := let (n, d) := scaled e; n / d < Nat.pow 2 53
    let e := if fits guess then guess else guess + 1
    let e := if e < -1074 then -1074 else e
    let (n, d) := scaled e
    let m := roundDiv n d
    if e < 0 then ⟨f.negative, m, Nat.pow 2 e.natAbs⟩
    else ⟨f.negative, m * Nat.pow 2 e.natAbs, 1⟩

/-- Reads the exponent behind a number, if there is one. -/
def readExponent (cs : List Char) : Int × List Char :=
  let signed (sign : Int) (ds rest : List Char) : Int × List Char :=
    let digits := ds.takeWhile Text.isDigit
    if digits.isEmpty then (0, rest)
    else (sign * Text.digitsValue (digits.take 6), ds.drop digits.length)
  match cs with
  | 'e' :: '-' :: ds | 'E' :: '-' :: ds => signed (-1) ds cs
  | 'e' :: '+' :: ds | 'E' :: '+' :: ds => signed 1 ds cs
  | 'e' :: ds | 'E' :: ds => signed 1 ds cs
  | cs => (0, cs)

/-- Reads a number without rounding it; nothing when a text does not start with one. -/
def read? (cs : List Char) : Option (Fraction × List Char) :=
  let (negative, cs) := match cs with
    | '-' :: cs => (true, cs)
    | '+' :: cs => (false, cs)
    | cs => (false, cs)
  let whole := cs.takeWhile Text.isDigit
  let (places, behind) := match cs.drop whole.length with
    | '.' :: ds => (ds.takeWhile Text.isDigit, ds.dropWhile Text.isDigit)
    | rest => ([], rest)
  if whole.isEmpty && places.isEmpty then none
  else
    let (exponent, rest) := readExponent behind
    let digits := Text.digitsValue (whole ++ places)
    let scale : Int := exponent - places.length
    some (if scale < 0 then ⟨negative, digits, Nat.pow 10 scale.natAbs⟩
      else ⟨negative, digits * Nat.pow 10 scale.natAbs, 1⟩, rest)

/-- The digits of a number with so many places. -/
def fixed (f : Fraction) (places : Nat) : String :=
  let n := roundDiv (f.num * Nat.pow 10 places) f.den
  let digits := (Nat.repr n).toList
  let digits := List.replicate (places + 1 - digits.length) '0' ++ digits
  let whole := digits.take (digits.length - places)
  String.ofList (if places = 0 then whole else whole ++ '.' :: digits.drop whole.length)

/-- The exponent of the first digit, where at most `fuel` places are tried in each direction. -/
def exponentFrom (f : Fraction) (fuel : Nat) (x : Int) : Int :=
  let reaches (x : Int) : Bool :=
    if x < 0 then f.den ≤ f.num * Nat.pow 10 x.natAbs else f.den * Nat.pow 10 x.natAbs ≤ f.num
  match fuel with
  | 0 => x
  | fuel + 1 =>
    if !reaches x then exponentFrom f fuel (x - 1)
    else if reaches (x + 1) then exponentFrom f fuel (x + 1)
    else x

/-- The first digits of a number, one and so many places, and the exponent of the first one. -/
def leading (f : Fraction) (places : Nat) : Nat × Int :=
  if f.num = 0 then (0, 0)
  else
    let guess : Int := (Nat.repr f.num).length - (Nat.repr f.den).length
    let x := f.exponentFrom 4 guess
    let shift : Int := places - x
    let n := if shift < 0 then roundDiv f.num (f.den * Nat.pow 10 shift.natAbs)
      else roundDiv (f.num * Nat.pow 10 shift.natAbs) f.den
    if n < Nat.pow 10 (places + 1) then (n, x) else (n / 10, x + 1)

/-- The digits of a number with an exponent behind them, which has at least two digits. -/
def scientific (f : Fraction) (places : Nat) : String :=
  let (n, x) := f.leading places
  let digits := (Nat.repr n).toList
  let digits := digits ++ List.replicate (places + 1 - digits.length) '0'
  let exponent := (Nat.repr x.natAbs).toList
  String.ofList (digits.take 1 ++ (if places = 0 then [] else '.' :: digits.drop 1)
    ++ 'e' :: (if x < 0 then '-' else '+')
    :: (List.replicate (2 - exponent.length) '0' ++ exponent))

/-- Drops zeros at the end of the places of a number. -/
def trimZeros (s : String) : String :=
  let cs := s.toList
  let number := cs.takeWhile (· != 'e')
  if number.contains '.' then
    let kept := (number.reverse.dropWhile (· == '0')).dropWhile (· == '.')
    String.ofList (kept.reverse ++ cs.drop number.length)
  else s

/-- The shorter one of both ways to write so many digits. Unless `keeps`, zeros at the end are
dropped. -/
def general (f : Fraction) (digits : Nat) (keeps : Bool) : String :=
  let digits := if digits = 0 then 1 else digits
  let (_, x) := f.leading (digits - 1)
  let s := if -4 ≤ x && x < digits then f.fixed ((digits : Int) - 1 - x).toNat
    else f.scientific (digits - 1)
  if keeps then s else trimZeros s

end Fraction

end ProofScript.Shell
