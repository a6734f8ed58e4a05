import ProofScript.NameMap
import ProofScript.Text.Decimal
import ProofScript.Text.Name

/-!
# Arithmetic of shell scripts

The value of an arithmetic expression. Numbers have 64 bits and wrap around, division is truncated,
a comparison is one when it holds and zero otherwise, and variables can be given values on the way.
-/

namespace ProofScript.Shell

/-! ## Expressions -/

/-- An operator with two operands. -/
inductive BinaryOp where
  | times | divide | remainder | plus | minus | shiftLeft | shiftRight
  | less | lessEqual | greater | greaterEqual | equal | unequal | bitAnd | bitXor | bitOr
  deriving DecidableEq, Repr

/-- An operator with one operand. -/
inductive UnaryOp where
  | negate | not | complement
  deriving DecidableEq, Repr

/-- An expression. -/
inductive Arith where
  /-- A number. -/
  | number (n : Int64)
  /-- The value of a variable. -/
  | named (name : String)
  /-- An operator with one operand. -/
  | unary (op : UnaryOp) (a : Arith)
  /-- An operator with two operands. -/
  | binary (op : BinaryOp) (a b : Arith)
  /-- Whether both hold; the second one does not count when the first one does not hold. -/
  | both (a b : Arith)
  /-- Whether one of them holds; the second one does not count when the first one holds. -/
  | either (a b : Arith)
  /-- The second one or the third one, as the first one holds or not. -/
  | choice (condition a b : Arith)
  /-- Gives a variable a value, which is combined with its old one by an operator. -/
  | assign (name : String) (op : Option BinaryOp) (a : Arith)
  deriving DecidableEq, Repr

/-- Why an expression has no value. -/
inductive ArithFault where
  /-- The expression does not follow the grammar. -/
  | malformed (expecting : String)
  /-- Something is divided by zero. -/
  | division
  /-- The value of a variable is no number. -/
  | noNumber (text : String)
  deriving DecidableEq, Repr

/-- The wording of a fault in the expression `source`. -/
def ArithFault.message (source : String) : ArithFault → String
  | malformed expecting =>
    "arithmetic expression: expecting " ++ expecting ++ ": \"" ++ source ++ "\""
  | division => "arithmetic expression: division by zero: \"" ++ source ++ "\""
  | noNumber text => "Illegal number: " ++ text

/-! ## Numbers -/

/-- The number nearest to `n` that has 64 bits. -/
def saturated (n : Int) : Int64 :=
  if (Text.maxInt64 : Int) < n then Int64.ofNat Text.maxInt64
  else if n < -(Text.maxInt64 : Int) - 1 then Int64.ofInt (-(Text.maxInt64 : Int) - 1)
  else Int64.ofInt n

/-- The value of a digit in a base up to sixteen. -/
def baseDigit? (base : Nat) (c : Char) : Option Nat :=
  let value :=
    if Text.isDigit c then some (Text.digitValue c)
    else if 'a' ≤ c && c ≤ 'f' then some (c.toNat - 'a'.toNat + 10)
    else if 'A' ≤ c && c ≤ 'F' then some (c.toNat - 'A'.toNat + 10)
    else none
  value.bind fun n => if n < base then some n else none

/-- The number that digits of a base spell at the start of a text, and the rest. -/
def readDigits (base : Nat) (cs : List Char) : Nat × List Char :=
  let digits := cs.takeWhile fun c => (baseDigit? base c).isSome
  (digits.foldl (fun n c => base * n + (baseDigit? base c).getD 0) 0, cs.drop digits.length)

/-- Reads a number without a sign: hexadecimal behind `0x`, octal behind a zero, and decimal
otherwise. -/
def readNumber (cs : List Char) : Nat × List Char :=
  match cs with
  | '0' :: 'x' :: c :: rest | '0' :: 'X' :: c :: rest =>
    if (baseDigit? 16 c).isSome then readDigits 16 (c :: rest) else (0, cs.drop 1)
  | '0' :: _ => readDigits 8 cs
  | cs => readDigits 10 cs

/-- Whether a character is a blank. -/
def isBlank (c : Char) : Bool := c == ' ' || ('\t' ≤ c && c ≤ '\r')

/-- The number that a whole text spells, with blanks around it and a sign. -/
def spelledNumber? (text : String) : Option Int :=
  let cs := ((text.toList.dropWhile isBlank).reverse.dropWhile isBlank).reverse
  let (negative, ds) := match cs with
    | '-' :: ds => (true, ds)
    | '+' :: ds => (false, ds)
    | ds => (false, ds)
  if (ds.head?).any Text.isDigit then
    match readNumber ds with
    | (n, []) => some (if negative then -(n : Int) else n)
    | _ => none
  else none

/-! ## Tokens -/

/-- A token of an expression. -/
inductive ArithToken where
  /-- A number. -/
  | number (n : Int64)
  /-- A variable. -/
  | named (name : String)
  /-- An operator or a parenthesis. -/
  | operator (s : String)
  deriving DecidableEq, Repr

/-- The operators of several characters, longer ones first. -/
def wideOperators : List String :=
  ["<<=", ">>=", "||", "&&", "==", "!=", "<=", ">=", "<<", ">>", "+=", "-=", "*=", "/=", "%=", "&=",
    "|=", "^="]

/-- The tokens of an expression. -/
def arithTokens (fuel : Nat) (cs : List Char) : List ArithToken :=
  match fuel, cs with
  | 0, _ => []
  | _, [] => []
  | fuel + 1, c :: rest =>
    if c == ' ' || c == '\t' || c == '\n' then arithTokens fuel rest
    else if Text.isNameStart c then
      .named (String.ofList (Text.takeName cs)) :: arithTokens fuel (Text.dropName cs)
    else if Text.isDigit c then
      let (n, rest) := readNumber cs
      .number (saturated n) :: arithTokens fuel rest
    else
      match wideOperators.find? fun op => op.toList.isPrefixOf cs with
      | some op => .operator op :: arithTokens fuel (cs.drop op.length)
      | none => .operator (String.singleton c) :: arithTokens fuel rest

/-! ## Reading -/

/-- The operators with two operands and their levels; an operator of a lower level binds more. -/
def binaryOps : List (String × BinaryOp × Nat) :=
  [("*", .times, 0), ("/", .divide, 0), ("%", .remainder, 0), ("+", .plus, 1), ("-", .minus, 1),
    ("<<", .shiftLeft, 2), (">>", .shiftRight, 2), ("<", .less, 3), ("<=", .lessEqual, 3),
    (">", .greater, 3), (">=", .greaterEqual, 3), ("==", .equal, 4), ("!=", .unequal, 4),
    ("&", .bitAnd, 5), ("^", .bitXor, 6), ("|", .bitOr, 7)]

/-- The highest level of an operator. -/
def looseLevel : Nat := 7

/-- The operator that combines the old value with the new one in an assignment; nothing when the
text is no assignment. -/
def assignment (s : String) : Option (Option BinaryOp) :=
  if s == "=" then some none
  else
    let op := String.ofList (s.toList.take (s.length - 1))
    let isComparison := ["==", "!=", "<=", ">="].contains s
    if s.toList.getLast? == some '=' && 1 < s.length && !isComparison then
      (binaryOps.find? fun e => e.1 == op).map fun e => some e.2.1
    else none

mutual

/-- Reads an expression. -/
def readArith (fuel : Nat) (ts : List ArithToken) :
    Except ArithFault (Arith × List ArithToken) :=
  match fuel, ts with
  | 0, _ => .error (.malformed "primary")
  | fuel + 1, .named name :: .operator s :: rest =>
    match assignment s with
    | some op => do
      let (a, ts) ← readArith fuel rest
      return (.assign name op a, ts)
    | none => readArithChoice fuel ts
  | fuel + 1, ts => readArithChoice fuel ts

/-- Reads a condition and what it chooses from. -/
def readArithChoice (fuel : Nat) (ts : List ArithToken) :
    Except ArithFault (Arith × List ArithToken) :=
  match fuel with
  | 0 => .error (.malformed "primary")
  | fuel + 1 => do
    let (condition, ts) ← readEither fuel ts
    match ts with
    | .operator "?" :: rest =>
      match ← readArith fuel rest with
      | (a, .operator ":" :: rest) => do
        let (b, ts) ← readArithChoice fuel rest
        return (.choice condition a b, ts)
      | _ => throw (.malformed "':'")
    | ts => return (condition, ts)

/-- Reads expressions of which one has to hold. -/
def readEither (fuel : Nat) (ts : List ArithToken) :
    Except ArithFault (Arith × List ArithToken) :=
  match fuel with
  | 0 => .error (.malformed "primary")
  | fuel + 1 => do
    let (a, ts) ← readBoth fuel ts
    match ts with
    | .operator "||" :: rest => do
      let (b, ts) ← readEither fuel rest
      return (.either a b, ts)
    | ts => return (a, ts)

/-- Reads expressions which all have to hold. -/
def readBoth (fuel : Nat) (ts : List ArithToken) :
    Except ArithFault (Arith × List ArithToken) :=
  match fuel with
  | 0 => .error (.malformed "primary")
  | fuel + 1 => do
    let (a, ts) ← readOperand fuel ts
    let (a, ts) ← readOperators fuel looseLevel a ts
    match ts with
    | .operator "&&" :: rest => do
      let (b, ts) ← readBoth fuel rest
      return (.both a b, ts)
    | ts => return (a, ts)

/-- Reads the operators of a level and of those that bind more, behind a first operand. -/
def readOperators (fuel level : Nat) (a : Arith) (ts : List ArithToken) :
    Except ArithFault (Arith × List ArithToken) :=
  match fuel, ts with
  | 0, _ => .error (.malformed "primary")
  | fuel + 1, .operator s :: rest =>
    match binaryOps.find? fun e => e.1 == s with
    | some (_, op, own) =>
      if own ≤ level then do
        let (b, ts) ← readOperand fuel rest
        let (b, ts) ← if own = 0 then pure (b, ts) else readOperators fuel (own - 1) b ts
        readOperators fuel level (.binary op a b) ts
      else .ok (a, ts)
    | none => .ok (a, ts)
  | _, ts => .ok (a, ts)

/-- Reads an operand. -/
def readOperand (fuel : Nat) (ts : List ArithToken) :
    Except ArithFault (Arith × List ArithToken) :=
  match fuel, ts with
  | 0, _ => .error (.malformed "primary")
  | _, .number n :: rest => .ok (.number n, rest)
  | _, .named name :: rest => .ok (.named name, rest)
  | fuel + 1, .operator s :: rest =>
    let unary (op : UnaryOp) := do
      let (a, ts) ← readOperand fuel rest
      return (Arith.unary op a, ts)
    match s with
    | "-" => unary .negate
    | "+" => readOperand fuel rest
    | "!" => unary .not
    | "~" => unary .complement
    | "(" => do
      match ← readArith fuel rest with
      | (a, .operator ")" :: ts) => return (a, ts)
      | _ => throw (.malformed "')'")
    | _ => .error (.malformed "primary")
  | _, [] => .error (.malformed "primary")

end

/-- Reads a whole expression. -/
def Arith.ofText (source : String) : Except ArithFault Arith := do
  let ts := arithTokens (source.length + 1) source.toList
  match ← readArith (8 * ts.length + 16) ts with
  | (a, []) => return a
  | _ => throw (.malformed "EOF")

/-! ## Values -/

/-- One for a condition that holds, and zero otherwise. -/
def truth (b : Bool) : Int64 := if b then 1 else 0

/-- The value of an operator with two operands. -/
def BinaryOp.apply (op : BinaryOp) (a b : Int64) : Except ArithFault Int64 :=
  match op with
  | times => .ok (a * b)
  | divide => if b = 0 then .error .division else .ok (a / b)
  | remainder => if b = 0 then .error .division else .ok (a % b)
  | plus => .ok (a + b)
  | minus => .ok (a - b)
  | shiftLeft => .ok (a <<< b)
  | shiftRight => .ok (a >>> b)
  | less => .ok (truth (a < b))
  | lessEqual => .ok (truth (a ≤ b))
  | greater => .ok (truth (b < a))
  | greaterEqual => .ok (truth (b ≤ a))
  | equal => .ok (truth (a == b))
  | unequal => .ok (truth (a != b))
  | bitAnd => .ok (a &&& b)
  | bitXor => .ok (a ^^^ b)
  | bitOr => .ok (a ||| b)

/-- The value of a variable, which is zero when there is none. -/
def variableValue (bindings : NameMap String) (name : String) : Except ArithFault Int64 :=
  match bindings.get? name with
  | none => .ok 0
  | some text =>
    if text.isEmpty then .ok 0
    else
      match spelledNumber? text with
      | some n => .ok (saturated n)
      | none => .error (.noNumber text)

/-- The value of an expression, and the variables behind it. -/
def Arith.eval : Arith → NameMap String → Except ArithFault (Int64 × NameMap String)
  | number n, bindings => .ok (n, bindings)
  | named name, bindings => do return (← variableValue bindings name, bindings)
  | unary op a, bindings => do
    let (n, bindings) ← a.eval bindings
    return (match op with
      | .negate => -n
      | .not => truth (n == 0)
      | .complement => ~~~n, bindings)
  | binary op a b, bindings => do
    let (m, bindings) ← a.eval bindings
    let (n, bindings) ← b.eval bindings
    return (← op.apply m n, bindings)
  | both a b, bindings => do
    let (m, bindings) ← a.eval bindings
    if m = 0 then return (0, bindings)
    let (n, bindings) ← b.eval bindings
    return (truth (n != 0), bindings)
  | either a b, bindings => do
    let (m, bindings) ← a.eval bindings
    if m ≠ 0 then return (1, bindings)
    let (n, bindings) ← b.eval bindings
    return (truth (n != 0), bindings)
  | choice condition a b, bindings => do
    let (n, bindings) ← condition.eval bindings
    if n ≠ 0 then a.eval bindings else b.eval bindings
  | assign name op a, bindings => do
    let (n, bindings) ← a.eval bindings
    let n ← match op with
      | some op => op.apply (← variableValue bindings name) n
      | none => pure n
    return (n, bindings.insert name (Text.decimal n))

/-- The value of the text of an expression, and the variables behind it. -/
def arithmetic (bindings : NameMap String) (source : String) :
    Except ArithFault (Int64 × NameMap String) := do (← Arith.ofText source).eval bindings

end ProofScript.Shell
