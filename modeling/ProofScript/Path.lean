/-!
# Paths

Paths are texts with slashes between their parts. Joining is textual: it neither resolves parent
directories nor removes repeated slashes. An empty part stands for nothing, and so does a single
dot, except that a dot at the start of a relative path is a part of its own.
-/

namespace ProofScript.Path

/-- Whether a path starts at the root. -/
def isAbsolute (p : String) : Bool := p.toList.head? == some '/'

/-- The path `p` taken relative to the directory `dir`. An absolute path stands for itself. -/
def join (dir p : String) : String :=
  if isAbsolute p || dir.isEmpty then p
  else if dir.toList.getLast? == some '/' then dir ++ p
  else dir ++ "/" ++ p

/-! ## Parts -/

/-- The texts between the slashes of a text. -/
def splitSlash : List Char → List (List Char)
  | [] => [[]]
  | c :: cs =>
    if c == '/' then [] :: splitSlash cs
    else
      match splitSlash cs with
      | [] => [[c]]
      | part :: parts => (c :: part) :: parts

/-- The parts of a path, without the slash that makes it absolute. -/
def parts (p : String) : List String :=
  let cs := p.toList
  (splitSlash (if isAbsolute p then cs.drop 1 else cs)).map String.ofList

/-- Whether a part stands for nothing, where `back` holds the parts before it. -/
def isFiller (absolute : Bool) (part : String) (back : List String) : Bool :=
  part.isEmpty || (part == "." && (absolute || !back.isEmpty))

/-- Drops the parts that stand for nothing from the end of a path. Like the next functions, it takes
the parts of the path last one first. -/
def dropFiller (absolute : Bool) : List String → List String
  | [] => []
  | part :: back => if isFiller absolute part back then dropFiller absolute back else part :: back

/-- The path with the given parts. -/
def ofBack (absolute : Bool) (back : List String) : String :=
  (if absolute then "/" else "") ++ "/".intercalate back.reverse

/-- The paths that are left when parts are dropped one after the other from the end of a path. -/
def parentsOfBack (absolute : Bool) : List String → List String
  | [] => []
  | part :: back =>
    if isFiller absolute part back then parentsOfBack absolute back
    else ofBack absolute (dropFiller absolute back) :: parentsOfBack absolute back

/-- The directories that a path lies in, as far as its text names them, the nearest first. -/
def parents (p : String) : List String := parentsOfBack (isAbsolute p) (parts p).reverse

/-- The directory that a path lies in. The root and the empty path have none. -/
def parent? (p : String) : Option String := (parents p).head?

/-- The number of components of a path; the root counts as one. -/
def componentCount (p : String) : Nat := (parents p).length + if isAbsolute p then 1 else 0

end ProofScript.Path
