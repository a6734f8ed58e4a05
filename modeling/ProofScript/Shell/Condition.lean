import ProofScript.Shell.Arithmetic
import ProofScript.Shell.Effect

/-!
# Conditions

Conditions on texts, numbers and files. A condition is read from left to right: `-o` binds less than
`-a`, and that less than a negation. Up to four words are told apart by their number first, so that
an operator can also be a text.
-/

namespace ProofScript.Shell

/-- Why a condition has no value. -/
inductive ConditionFault where
  /-- A text is no number. -/
  | noNumber (text : String)
  /-- There is more behind a condition. -/
  | unexpected (word : String)
  /-- An operator has nothing to work on. -/
  | noArgument (operator : String)
  /-- A parenthesis is not closed. -/
  | notClosed
  /-- The closing bracket is missing. -/
  | noBracket
  deriving DecidableEq, Repr

/-- The wording of a fault. -/
def ConditionFault.message : ConditionFault → String
  | noNumber text => "Illegal number: " ++ text
  | unexpected word => word ++ ": unexpected operator"
  | noArgument operator => operator ++ ": argument expected"
  | notClosed => "closing paren expected"
  | noBracket => "missing ]"

/-- The number that a text spells, with blanks around it. -/
def conditionNumber (text : String) : Except ConditionFault Int :=
  let digits := ((text.toList.dropWhile isBlank).reverse.dropWhile isBlank).reverse
  match Text.integer? digits with
  | some n => if (Text.int64? (String.ofList digits)).isSome then .ok n else .error (.noNumber text)
  | none => .error (.noNumber text)

/-! ## Operators -/

/-- The operators on one text. -/
def unaryOperators : List String :=
  ["-r", "-w", "-x", "-e", "-f", "-d", "-c", "-b", "-p", "-u", "-g", "-k", "-s", "-t", "-z", "-n",
    "-h", "-O", "-G", "-L", "-S"]

/-- The operators on two texts. -/
def binaryOperators : List String :=
  ["=", "!=", "<", ">", "-eq", "-ne", "-ge", "-gt", "-le", "-lt", "-nt", "-ot", "-ef"]

/-- The operators on conditions. -/
def joiningOperators : List String := ["!", "-a", "-o", "(", ")"]

/-- Whether a condition on one text holds. -/
def unaryHolds (s : Scene) (operator text : String) : Except ConditionFault Bool :=
  let found := (s.find text).toOption.map Prod.snd
  match operator with
  | "-n" => .ok !text.isEmpty
  | "-z" => .ok text.isEmpty
  | "-e" | "-r" | "-w" | "-O" | "-G" => .ok found.isSome
  | "-f" => .ok (s.files.isFile (decode text))
  | "-d" => .ok (found == some .directory)
  | "-s" => .ok (found.any fun e => e ≠ .null && (s.read text).toOption != some "")
  | "-x" => .ok (found.any fun e => match e with
    | .file _ executable => executable
    | .null => false
    | _ => true)
  | "-c" => .ok (found == some .null)
  | "-h" | "-L" => .ok (match s.files.findLink (decode text) with
    | .ok (_, .link _) => true
    | _ => false)
  | "-t" => do
    let _ ← conditionNumber text
    return false
  | _ => .ok false

/-- Whether a condition on two texts holds. -/
def binaryHolds (s : Scene) (left operator right : String) : Except ConditionFault Bool :=
  let numbers (f : Int → Int → Bool) : Except ConditionFault Bool := do
    return f (← conditionNumber left) (← conditionNumber right)
  match operator with
  | "=" => .ok (left == right)
  | "!=" => .ok (left != right)
  | "<" => .ok (left < right)
  | ">" => .ok (right < left)
  | "-eq" => numbers fun a b => a == b
  | "-ne" => numbers fun a b => a != b
  | "-lt" => numbers fun a b => a < b
  | "-le" => numbers fun a b => a ≤ b
  | "-gt" => numbers fun a b => b < a
  | "-ge" => numbers fun a b => b ≤ a
  | "-ef" => .ok (match s.find left, s.find right with
    | .ok (p, _), .ok (q, _) => p == q
    | _, _ => false)
  | _ => .ok false

/-! ## Reading conditions -/

/-- What the first word of a condition is. -/
inductive ConditionWord where
  /-- There is none. -/
  | finish
  /-- An operator on one text. -/
  | unary
  /-- An operator on two texts. -/
  | binary
  /-- An operator on conditions. -/
  | joining (operator : String)
  /-- A text. -/
  | text
  deriving DecidableEq, Repr

/-- What the first word of a condition is, which depends on what follows it. -/
def ConditionWord.ofWords : List String → ConditionWord
  | [] => .finish
  | word :: rest =>
    if unaryOperators.contains word then
      match rest with
      | [] => .text
      | [_] => .unary
      | _ :: next :: _ => if binaryOperators.contains next then .text else .unary
    else if binaryOperators.contains word then .binary
    else if joiningOperators.contains word then
      if word == "(" && rest.isEmpty then .text else .joining word
    else .text

/-- The value of a condition, and the words whose first one ends it. -/
abbrev ConditionResult := Except ConditionFault (Bool × List String)

mutual

/-- Reads conditions of which one has to hold. All of them are read. -/
def readSomeOf (s : Scene) (fuel : Nat) (words : List String) : ConditionResult :=
  match fuel with
  | 0 => .error .notClosed
  | fuel + 1 => do
    let (a, words) ← readAllOf s fuel words
    if ConditionWord.ofWords words.tail = .joining "-o" then
      let (b, words) ← readSomeOf s fuel (words.drop 2)
      return (a || b, words)
    else return (a, words)

/-- Reads conditions which all have to hold. -/
def readAllOf (s : Scene) (fuel : Nat) (words : List String) : ConditionResult :=
  match fuel with
  | 0 => .error .notClosed
  | fuel + 1 => do
    let (a, words) ← readNegated s fuel words
    if ConditionWord.ofWords words.tail = .joining "-a" then
      let (b, words) ← readAllOf s fuel (words.drop 2)
      return (a && b, words)
    else return (a, words)

/-- Reads a condition that can be negated. -/
def readNegated (s : Scene) (fuel : Nat) (words : List String) : ConditionResult :=
  match fuel with
  | 0 => .error .notClosed
  | fuel + 1 =>
    if ConditionWord.ofWords words = .joining "!" then do
      let (a, words) ← readNegated s fuel (if words.tail.isEmpty then words else words.tail)
      return (!a, words)
    else readSingle s fuel words

/-- Reads a condition without operators on conditions. -/
def readSingle (s : Scene) (fuel : Nat) (words : List String) : ConditionResult :=
  match fuel, words with
  | 0, _ => .error .notClosed
  | _, [] => .ok (false, [])
  | fuel + 1, word :: rest =>
    match ConditionWord.ofWords words with
    | .joining "(" =>
      if ConditionWord.ofWords rest = .joining ")" then .ok (false, rest)
      else do
        let (a, words) ← readSomeOf s fuel rest
        if ConditionWord.ofWords words.tail = .joining ")" then return (a, words.tail)
        else throw .notClosed
    | .unary =>
      match rest with
      | [] => .error (.noArgument word)
      | text :: _ => do return (← unaryHolds s word text, rest)
    | _ =>
      if ConditionWord.ofWords rest = .binary then
        match rest with
        | operator :: right :: more => do
          return (← binaryHolds s word operator right, right :: more)
        | operator :: _ => .error (.noArgument operator)
        | [] => .ok (false, words)
      else .ok (!word.isEmpty, words)

end

/-- The value of a condition whose words are read from left to right. -/
def readCondition (s : Scene) (words : List String) : Except ConditionFault Bool := do
  let (b, rest) ← readSomeOf s (4 * words.length + 4) words
  match rest with
  | word :: _ :: _ => throw (.unexpected word)
  | _ => return b

/-- The value of a condition. -/
def condition (s : Scene) (words : List String) : Except ConditionFault Bool :=
  match words with
  | [] => .ok false
  | [left, operator, right] =>
    if binaryOperators.contains operator then binaryHolds s left operator right
    else if left == "(" && right == ")" then readCondition s [operator]
    else if left == "!" then (condition s [operator, right]).map not
    else readCondition s words
  | "!" :: a :: b :: [c] => (condition s [a, b, c]).map not
  | "(" :: a :: b :: [")"] => readCondition s [a, b]
  | words => readCondition s words

/-! ## The utilities -/

/-- The status and the message for a condition. -/
def evaluate (s : Scene) (words : List String) : Effect :=
  match condition s words with
  | .ok b => .silent s (if b then 0 else 1)
  | .error fault => .refuse s 2 fault.message

/-- Evaluates a condition that stands between brackets. -/
def bracket (s : Scene) (arguments : List String) : Effect :=
  if arguments.getLast? == some "]" then evaluate s arguments.dropLast
  else .refuse s 2 ConditionFault.noBracket.message

end ProofScript.Shell
