import ProofScript.Text.Decimal
import ProofScript.Toml.Quoted

/-!
# Numbers

The words of a manifest that are numbers. Digits can be grouped by underscores. An integer fits in
64 bits; a number with a fraction or an exponent must not exceed the largest double.
-/

namespace ProofScript.Toml

/-- The digits of a word in which single underscores may stand between digits. -/
def ungroup? (isDigit : Char → Bool) : List Char → Option (List Char)
  | [] => none
  | c :: cs =>
    if isDigit c then
      match cs with
      | [] => some [c]
      | '_' :: rest => (ungroup? isDigit rest).map (c :: ·)
      | d :: rest => (ungroup? isDigit (d :: rest)).map (c :: ·)
    else none

/-- Splits off a sign; the answer tells whether it is a minus sign. -/
def splitSign : List Char → Bool × List Char
  | '-' :: cs => (true, cs)
  | '+' :: cs => (false, cs)
  | cs => (false, cs)

/-- The digits of an integer without sign, which has no leading zeros. -/
def integerDigits? (cs : List Char) : Option (List Char) :=
  if cs.head? == some '0' && cs.length != 1 then none else ungroup? Text.isDigit cs

/-- The value of a digit in a base of up to sixteen. -/
def digitBelow (base : Nat) (c : Char) : Bool :=
  match hexValue? c with
  | some n => n < base
  | none => false

/-- The number that grouped digits of a base denote. -/
def based? (base : Nat) (cs : List Char) : Option Nat :=
  (ungroup? (digitBelow base) cs).map fun ds =>
    ds.foldl (fun n d => base * n + (hexValue? d).getD 0) 0

/-- An integer, if it fits in 64 bits. -/
def bounded? (negative : Bool) (n : Nat) : Option Int :=
  if negative then if n ≤ Text.maxInt64 + 1 then some (-(n : Int)) else none
  else if n ≤ Text.maxInt64 then some n else none

/-- The integer that a word spells: a decimal one with an optional sign, or one in base sixteen,
eight or two behind its mark. -/
def integer? : List Char → Option Int
  | '0' :: 'x' :: cs => (based? 16 cs).bind (bounded? false)
  | '0' :: 'o' :: cs => (based? 8 cs).bind (bounded? false)
  | '0' :: 'b' :: cs => (based? 2 cs).bind (bounded? false)
  | cs =>
    let (negative, cs) := splitSign cs
    (integerDigits? cs).bind fun ds => bounded? negative (Text.digitsValue ds)

/-! ## Fractions and exponents -/

/-- The least number that rounds to infinity rather than to a double. -/
def firstInfinite : Nat := Nat.pow 2 1024 - Nat.pow 2 970

/-- Whether the number `digits * 10 ^ exponent` rounds to infinity. The number of its digits settles
this for all but the numbers of 309 digits. -/
def overflows (digits : List Char) (exponent : Int) : Bool :=
  let ds := digits.dropWhile (· == '0')
  let size := ds.length + exponent
  if ds.isEmpty || size < 309 then false
  else if size > 309 then true
  else if 0 ≤ exponent then firstInfinite ≤ Text.digitsValue ds * Nat.pow 10 exponent.toNat
  else firstInfinite * Nat.pow 10 (-exponent).toNat ≤ Text.digitsValue ds

/-- The exponent at the end of a word; the empty word has none. -/
def exponent? : List Char → Option Int
  | [] => some 0
  | c :: cs =>
    if c == 'e' || c == 'E' then
      let (negative, cs) := splitSign cs
      (ungroup? Text.isDigit cs).map fun ds =>
        if negative then -(Text.digitsValue ds : Int) else Text.digitsValue ds
    else none

/-- Whether `c` starts an exponent. -/
def isExponentMark (c : Char) : Bool := c == 'e' || c == 'E'

/-- The digits of the fraction at the start of a word, and the exponent behind it. One of both must
be there. -/
def fraction? : List Char → Option (List Char × Int)
  | [] => none
  | '.' :: cs => do
    let ds ← ungroup? Text.isDigit (cs.takeWhile fun c => !isExponentMark c)
    return (ds, ← exponent? (cs.dropWhile fun c => !isExponentMark c))
  | cs => (exponent? cs).map fun e => ([], e)

/-- Whether a word spells a number with a fraction or an exponent, infinity or no number. Only
infinity itself may be written as such: a positive number that rounds to it is refused. -/
def isFloat (cs : List Char) : Bool :=
  let (negative, word) := splitSign cs
  if word == ['i', 'n', 'f'] || word == ['n', 'a', 'n'] then true
  else
    let ends := fun c => !(c == '.' || isExponentMark c)
    match integerDigits? (word.takeWhile ends), fraction? (word.dropWhile ends) with
    | some whole, some (part, exponent) =>
      negative || !overflows (whole ++ part) (exponent - part.length)
    | _, _ => false

end ProofScript.Toml
