import ProofScript.Shell.Options
import ProofScript.Shell.Signal
import ProofScript.Text.Name

/-!
# Declarations of variables

What is said about variables of a script: that utilities are given them, that they must not change,
that they belong to a function, or that they are gone.
-/

namespace ProofScript.Shell

/-- The variable that a text sets or just names, and its value. -/
def declared (a : String) : String × Option String :=
  let name := a.toList.takeWhile (· != '=')
  (String.ofList name,
    if name.length < a.length then some (String.ofList (a.toList.drop (name.length + 1))) else none)

namespace Process

/-- Goes on with the options of a utility of the shell. -/
def withOptions (p : Process) (flags valued : String) (arguments : List String)
    (f : Options → Process) : Process :=
  match (OptionTable.mk flags valued [] 2 false "").read arguments with
  | .ok o => f o
  | .error (.unknownLetter c) => p.fail ("Illegal option -" ++ String.singleton c)
  | .error (.valueMissing c) => p.fail ("No arg for -" ++ String.singleton c ++ " option")
  | .error (.unknownName _) => p.fail "Illegal option --"

/-- Goes on with each of some variables that arguments set or name, until one fails. -/
def eachDeclared (f : Process → (name : String) → (value : Option String) → Process) :
    List String → Process → Process
  | [], p => p
  | a :: rest, p =>
    if p.flow != .onward then p
    else
      let (name, value) := declared a
      if Text.isName name.toList then eachDeclared f rest (f p name value)
      else p.fail (name ++ ": bad variable name")

/-- Gives a variable a value, if there is one. -/
def assignSome (p : Process) (name : String) (value : Option String) : Process :=
  value.elim p fun v => p.assign name v

/-- The lines that declare variables again. -/
def declarations (p : Process) (verb : String) (names : List String) : String :=
  String.join (names.map fun name => verb ++ name ++
    ((p.bindings.get? name).elim "" fun v => "=" ++ singleQuoted v) ++ "\n")

/-- Makes variables such that utilities are given them. -/
def makeExported (p : Process) (arguments : List String) : Process :=
  p.withOptions "p" "" arguments fun o =>
    if o.operands.isEmpty then p.succeed.writeTo 1 (p.declarations "export " p.exported.names)
    else eachDeclared (fun p name value =>
      let p := p.assignSome name value
      { p with exported := p.exported.add name }) o.operands p.succeed

/-- Makes variables such that they must not change. -/
def makeFixed (p : Process) (arguments : List String) : Process :=
  p.withOptions "p" "" arguments fun o =>
    if o.operands.isEmpty then p.succeed.writeTo 1 (p.declarations "readonly " p.fixed.names)
    else eachDeclared (fun p name value =>
      let p := p.assignSome name value
      if p.flow != .onward then p else { p with fixed := p.fixed.add name }) o.operands p.succeed

/-- Removes a variable. -/
def unsetVariable (p : Process) (name : String) : Process :=
  if p.fixed.contains name then p.fail (name ++ ": is read only")
  else { p with bindings := p.bindings.erase name, exported := p.exported.erase name }

/-- Removes variables or functions. -/
def unset (p : Process) (arguments : List String) : Process :=
  p.withOptions "vf" "" arguments fun o =>
    if o.last? "vf" == some 'f' then
      { p.succeed with functions := o.operands.foldl NameMap.erase p.functions }
    else eachDeclared (fun p name _ => p.unsetVariable name) o.operands p.succeed

/-! ## Variables of functions -/

/-- A variable as it is. -/
def saved (p : Process) (name : String) : Saved :=
  ⟨name, p.bindings.get? name, p.exported.contains name⟩

/-- Makes a variable again what it was. -/
def restore (p : Process) (s : Saved) : Process :=
  { p with
    bindings := match s.value with
      | some value => p.bindings.insert s.name value
      | none => p.bindings.erase s.name
    exported := if s.exported then p.exported.add s.name else p.exported.erase s.name }

/-- Makes variables again what they were before the active function made them its own. -/
def leaveFrame (p : Process) : Process :=
  match p.frames with
  | [] => p
  | frame :: frames => { frame.foldl restore p with frames := frames }

/-- Makes variables such that they belong to the active function. -/
def makeOwn (p : Process) (arguments : List String) : Process :=
  match p.frames with
  | [] => p.fail "not in a function"
  | _ => eachDeclared (fun p name value =>
      match p.frames with
      | frame :: frames =>
        let known := frame.any fun s => s.name == name
        let frame := if known then frame else p.saved name :: frame
        { p with frames := frame :: frames }.assignSome name value
      | [] => p) arguments p.succeed

end Process

end ProofScript.Shell
