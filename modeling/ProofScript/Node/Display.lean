import ProofScript.Node
import ProofScript.Text.Blank

/-!
# Trees as text

Error messages show a tree as a compact symbolic expression on one line: parentheses around a
keyword and the children, angle brackets around tuples, and square brackets around the fields of an
allocation and the formals of a method. The text of a tree is computed layer by layer: `Shape.text`
gives the text of one layer from the texts of its children.
-/

namespace ProofScript

/-- The text of a literal. -/
def Value.text : Value → String
  | int n => n.toInt.repr
  | nil => "nil"

namespace VarType

mutual

/-- The text of a type, as it is written in a script. -/
def text : VarType → String
  | value => "*"
  | tuple items => "<" ++ ", ".intercalate (texts items) ++ ">"

/-- The texts of a list of types. -/
def texts : List VarType → List String
  | [] => []
  | t :: ts => text t :: texts ts

end

end VarType

namespace Shape

/-- A list of texts, each after a blank. -/
def spaced (items : List String) : String := String.join (items.map (" " ++ ·))

/-- A verbatim text between braces; nothing when the text is empty. -/
def verbatimText (v : String) : String :=
  if v.isEmpty then "" else "\x7b\x7b\x7b" ++ Text.trim v ++ "\x7d\x7d\x7d"

/-- The text of a proof chain after its keyword. An arrow shows the hint and the verbatim text of
the term before it; the slots of the last term are not shown. -/
def chainText : List String → List (Option String) → List String → String
  | [], _, _ => ""
  | [term], _, _ => " " ++ term
  | term :: terms, hints, verbatims =>
    let hint := match hints.head? with
      | some (some h) => "[" ++ h ++ "]"
      | _ => ""
    " " ++ term ++ " ~" ++ hint ++ verbatimText (verbatims.head?.getD "")
      ++ chainText terms hints.tail verbatims.tail

/-- The text of one layer, from the texts of its children. -/
def text : Shape String → String
  | const v => v.text
  | var name none => name
  | var name (some type) => name ++ ":" ++ type.text
  | tuple items => "<" ++ ", ".intercalate items ++ ">"
  | seq a b => "(seq " ++ a ++ " " ++ b ++ ")"
  | compound object name index => "(cvar " ++ object ++ " " ++ name ++ " " ++ index ++ ")"
  | init name value immutable =>
    "(init " ++ name ++ " " ++ value ++ (if immutable then " imm)" else " mut)")
  | new fields body => "(new [" ++ " ".intercalate fields ++ "] " ++ body ++ ")"
  | method name formals body =>
    "(method " ++ name ++ " [" ++ " ".intercalate formals ++ "] " ++ body ++ ")"
  | assign target value => "(= " ++ target ++ " " ++ value ++ ")"
  | call receiver name args => "(call " ++ receiver ++ " " ++ name ++ spaced args ++ ")"
  | ite c p n => "(if " ++ c ++ " " ++ p ++ " " ++ n ++ ")"
  | nop => "nop"
  | script items => "(top" ++ spaced items ++ ")"
  | proof terms hints verbatims => "(proof" ++ chainText terms hints verbatims ++ ")"
  | assert condition => "(assert " ++ condition ++ ")"
  | assume chain => "(assume " ++ chain ++ ")"

end Shape

/-- The text of a tree. -/
def Node.text (n : Node) : String := n.fold fun _ s => s.text

/-- The text of a tree is the text of its root layer over the texts of its children. -/
theorem Node.text_mk (id : NodeId) (span : Span) (s : Shape Node) :
    (Node.mk id span s).text = (s.map Node.text).text :=
  Node.fold_mk _ id span s

end ProofScript
