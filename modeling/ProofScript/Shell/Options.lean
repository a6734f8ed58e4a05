import ProofScript.Shell.Effect

/-!
# Options

The options of a utility: letters behind a dash, which can be joined, and long names behind two
dashes. A letter can have a value, which follows it in the same argument or is the next one. Options
can stand between the other arguments, up to two dashes that stand alone.
-/

namespace ProofScript.Shell

/-- The options that a utility knows. -/
structure OptionTable where
  /-- The letters of options without a value. -/
  flags : String
  /-- The letters of options with a value. -/
  valued : String
  /-- The long names of some letters. -/
  names : List (String × Char)
  /-- The status when an option is not known. -/
  status : Nat
  /-- Whether options can stand behind other arguments. -/
  anywhere : Bool
  /-- How the utility is used, as it is told when an option is not known. -/
  usage : String

/-- The options and the other arguments of a utility. -/
structure Options where
  /-- The letters that were given, in order, with their values. -/
  given : List (Char × String)
  /-- The other arguments. -/
  operands : List String

/-- Why options cannot be read. -/
inductive OptionFault where
  /-- There is no option of this letter. -/
  | unknownLetter (c : Char)
  /-- The option of this letter needs a value. -/
  | valueMissing (c : Char)
  /-- There is no option of this name. -/
  | unknownName (name : String)
  deriving DecidableEq, Repr

/-- The wording of a fault. -/
def OptionFault.message : OptionFault → String
  | unknownLetter c => "invalid option -- '" ++ String.singleton c ++ "'"
  | valueMissing c => "option requires an argument -- '" ++ String.singleton c ++ "'"
  | unknownName name => "unrecognized option '--" ++ name ++ "'"

namespace Options

/-- Whether an option was given. -/
def has (o : Options) (c : Char) : Bool := o.given.any fun g => g.1 == c

/-- The last value that was given for an option. -/
def value? (o : Options) (c : Char) : Option String := o.given.reverse.lookup c

/-- All values that were given for an option, in order. -/
def values (o : Options) (c : Char) : List String :=
  (o.given.filter fun g => g.1 == c).map Prod.snd

/-- The last of some options that was given. -/
def last? (o : Options) (cs : String) : Option Char :=
  (o.given.reverse.find? fun g => cs.toList.contains g.1).map Prod.fst

end Options

namespace OptionTable

/-- A table of options without long names. -/
def plain (flags valued : String) : OptionTable := ⟨flags, valued, [], 1, true, ""⟩

/-- The letter of a long name, which can be cut short. -/
def letter? (t : OptionTable) (name : String) : Option Char :=
  match t.names.lookup name with
  | some c => some c
  | none => (t.names.find? fun n => name.toList.isPrefixOf n.1.toList).map Prod.snd

/-- Reads joined letters: the options, and the letter whose value is the next argument. -/
def readLetters (t : OptionTable) : List Char →
    Except OptionFault (List (Char × String) × Option Char)
  | [] => .ok ([], none)
  | c :: cs =>
    if t.valued.toList.contains c then
      if cs.isEmpty then .ok ([], some c) else .ok ([(c, String.ofList cs)], none)
    else if t.flags.toList.contains c then do
      let (given, waiting) ← readLetters t cs
      return ((c, "") :: given, waiting)
    else .error (.unknownLetter c)

/-- Reads arguments, where `waiting` is the letter that the first one is the value of. -/
def readFrom (t : OptionTable) : (waiting : Option Char) → List String →
    Except OptionFault Options
  | none, [] => .ok ⟨[], []⟩
  | some c, [] => .error (.valueMissing c)
  | some c, a :: rest => do
    let o ← readFrom t none rest
    return { o with given := (c, a) :: o.given }
  | none, a :: rest =>
    match a.toList with
    | ['-', '-'] => .ok ⟨[], rest⟩
    | '-' :: '-' :: cs =>
      let name := String.ofList (cs.takeWhile (· != '='))
      match t.letter? name with
      | none => .error (.unknownName name)
      | some c =>
        if t.valued.toList.contains c && !cs.contains '=' then readFrom t (some c) rest
        else do
          let o ← readFrom t none rest
          return { o with
            given := (c, String.ofList ((cs.dropWhile (· != '=')).drop 1)) :: o.given }
    | '-' :: c :: cs => do
      let (given, waiting) ← t.readLetters (c :: cs)
      let o ← readFrom t waiting rest
      return { o with given := given ++ o.given }
    | _ =>
      if t.anywhere then do
        let o ← readFrom t none rest
        return { o with operands := a :: o.operands }
      else .ok ⟨[], a :: rest⟩

/-- Reads arguments. -/
def read (t : OptionTable) (arguments : List String) : Except OptionFault Options :=
  t.readFrom none arguments

/-- How the utility is used. -/
def explain (t : OptionTable) (s : Scene) : String :=
  t.usage ++ "Try '" ++ s.called ++ " --help' for more information."

/-- A message about arguments, and how the utility is used. -/
def refuse (t : OptionTable) (s : Scene) (message : String) : Effect :=
  .blame s t.status (message ++ "\n" ++ t.explain s)

/-- A utility that works with options of a table. -/
def utility (t : OptionTable) (f : Scene → Options → Effect) : Utility := fun s arguments =>
  match t.read arguments with
  | .ok o => f s o
  | .error fault => t.refuse s fault.message

/-- A utility that needs another argument at least. -/
def needing (t : OptionTable) (f : Scene → Options → Effect) : Utility :=
  t.utility fun s o => if o.operands.isEmpty then t.refuse s "missing operand" else f s o

end OptionTable

end ProofScript.Shell
