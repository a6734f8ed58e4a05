import ProofScript.Shell.Options
import ProofScript.Shell.Pattern

/-!
# Expressions of several arguments

The utility that evaluates an expression whose operands and operators are arguments of their own. A
value is a text, which counts as a number where it spells one.
-/

namespace ProofScript.Shell

/-- Why an expression has no value. -/
inductive ExprFault where
  /-- An argument is missing at the end. -/
  | missing (before : String)
  /-- There is an argument too many. -/
  | unexpected (argument : String)
  /-- A parenthesis is not closed behind an argument. -/
  | notClosed (before : String)
  /-- A text is no number. -/
  | noInteger
  /-- Something is divided by zero. -/
  | division
  deriving DecidableEq, Repr

/-- The wording of a fault. -/
def ExprFault.message : ExprFault → String
  | missing before => "syntax error: missing argument after '" ++ before ++ "'"
  | unexpected argument => "syntax error: unexpected argument '" ++ argument ++ "'"
  | notClosed before => "syntax error: expecting ')' after '" ++ before ++ "'"
  | noInteger => "non-integer argument"
  | division => "division by zero"

/-- The number that a text spells, with a minus sign perhaps. -/
def exprNumber? (text : String) : Option Int :=
  match text.toList with
  | '+' :: _ => none
  | cs => Text.integer? cs

/-- Whether a value counts as nothing. -/
def isNull (value : String) : Bool := value.isEmpty || exprNumber? value == some 0

/-- The value of a comparison: by numbers if both values are some, and else by texts. -/
def compareValues (a b : String) (f : Ordering → Bool) : String :=
  let order := match exprNumber? a, exprNumber? b with
    | some m, some n => compare m n
    | _, _ => compare a b
  if f order then "1" else "0"

/-- The match of a pattern at the start of a text: its first group, or the number of its
characters. -/
def matchedStart (text pattern : String) : String :=
  let r := Regex.ofText false pattern
  match r.matchAt? (Spot.start text.toList) with
  | some found =>
    if (Text.cut? ['\\', '('] pattern.toList).isSome then
      String.ofList ((found.groups.lookup 1).getD [])
    else found.spot.offset.repr
  | none => if (Text.cut? ['\\', '('] pattern.toList).isSome then "" else "0"

/-- The value of an operator on numbers. -/
def calculated (operator a b : String) : Except ExprFault String :=
  match exprNumber? a, exprNumber? b with
  | some m, some n =>
    match operator with
    | "+" => .ok (m + n).repr
    | "-" => .ok (m - n).repr
    | "*" => .ok (m * n).repr
    | "/" => if n = 0 then .error .division else .ok (m.tdiv n).repr
    | _ => if n = 0 then .error .division else .ok (m.tmod n).repr
  | _, _ => .error .noInteger

/-- The operators of each level, from the loosest one on. -/
def exprLevels : List (List String) :=
  [["|"], ["&"], ["<", "<=", "=", "==", "!=", ">=", ">"], ["+", "-"], ["*", "/", "%"], [":"]]

/-- The value of an operator. -/
def exprOperator (operator a b : String) : Except ExprFault String :=
  match operator with
  | "|" => .ok (if !isNull a then a else if isNull b then "0" else b)
  | "&" => .ok (if isNull a || isNull b then "0" else a)
  | "<" => .ok (compareValues a b (· == .lt))
  | "<=" => .ok (compareValues a b (· != .gt))
  | "=" | "==" => .ok (compareValues a b (· == .eq))
  | "!=" => .ok (compareValues a b (· != .eq))
  | ">=" => .ok (compareValues a b (· != .lt))
  | ">" => .ok (compareValues a b (· == .gt))
  | ":" => .ok (matchedStart a b)
  | operator => calculated operator a b

mutual

/-- Reads an expression of some levels of operators behind the argument `before`. -/
def readExpr (fuel : Nat) (levels : List (List String)) (before : String) (words : List String) :
    Except ExprFault (String × String × List String) :=
  match fuel with
  | 0 => .error (.missing before)
  | fuel + 1 =>
    match levels with
    | [] => readExprOperand fuel before words
    | own :: inner => do
      let (a, before, words) ← readExpr fuel inner before words
      readExprMore fuel own inner a before words

/-- Reads the operators of a level behind a first operand. -/
def readExprMore (fuel : Nat) (own : List String) (inner : List (List String))
    (a before : String) (words : List String) :
    Except ExprFault (String × String × List String) :=
  match fuel, words with
  | fuel + 1, operator :: rest =>
    if own.contains operator then do
      let (b, before, words) ← readExpr fuel inner operator rest
      readExprMore fuel own inner (← exprOperator operator a b) before words
    else .ok (a, before, words)
  | _, words => .ok (a, before, words)

/-- Reads an operand. -/
def readExprOperand (fuel : Nat) (before : String) (words : List String) :
    Except ExprFault (String × String × List String) :=
  match fuel, words with
  | 0, _ => .error (.missing before)
  | _, [] => .error (.missing before)
  | fuel + 1, word :: rest =>
    let operand (before : String) (words : List String) := readExprOperand fuel before words
    match word with
    | "(" => do
      let (a, before, words) ← readExpr fuel exprLevels word rest
      match words with
      | ")" :: rest => return (a, ")", rest)
      | _ => throw (.notClosed before)
    | ")" => .error (.unexpected ")")
    | "+" =>
      match rest with
      | text :: rest => .ok (text, text, rest)
      | [] => .error (.missing word)
    | "length" => do
      let (a, before, words) ← operand word rest
      return (a.length.repr, before, words)
    | "match" => do
      let (a, before, words) ← operand word rest
      let (b, before, words) ← operand before words
      return (matchedStart a b, before, words)
    | "index" => do
      let (a, before, words) ← operand word rest
      let (b, before, words) ← operand before words
      let n := a.toList.findIdx b.toList.contains
      return ((if n < a.length then n + 1 else 0).repr, before, words)
    | "substr" => do
      let (a, before, words) ← operand word rest
      let (b, before, words) ← operand before words
      let (c, before, words) ← operand before words
      let text := match exprNumber? b, exprNumber? c with
        | some m, some n =>
          if m < 1 || n < 1 then "" else String.ofList ((a.toList.drop (m.toNat - 1)).take n.toNat)
        | _, _ => ""
      return (text, before, words)
    | word => .ok (word, word, rest)

end

/-- Writes the value of an expression. -/
def expr : Utility := fun s arguments =>
  let table := { OptionTable.plain "" "" with status := 2 }
  let words := if arguments.head? == some "--" then arguments.tail else arguments
  if words.isEmpty then table.refuse s "missing operand"
  else
    match readExpr (16 * words.length + 16) exprLevels "" words with
    | .error fault => .blame s 2 fault.message
    | .ok (_, _, extra :: _) => .blame s 2 (ExprFault.unexpected extra).message
    | .ok (value, _, []) =>
      { Effect.printLine s value with status := if isNull value then 1 else 0 }

end ProofScript.Shell
