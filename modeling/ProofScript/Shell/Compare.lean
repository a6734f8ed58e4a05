import ProofScript.Shell.Digits
import ProofScript.Shell.Files

/-!
# Comparing files

Utilities that tell where two files differ, byte by byte or line by line.
-/

namespace ProofScript.Shell

/-! ## Bytes -/

/-- The number of the first byte in which two texts differ, and of its line; or the number of bytes
of the shorter one when that is all. -/
def firstDifference (byte line : Nat) : List Char → List Char → Option (Nat × Nat × Bool)
  | [], [] => none
  | a :: as, b :: bs =>
    if a == b then firstDifference (byte + 1) (if a == '\n' then line + 1 else line) as bs
    else some (byte, line, true)
  | _, _ => some (byte, line, false)

/-- Tells the first byte in which two files differ. -/
def cmp : Utility := fun s arguments =>
  let table := { OptionTable.plain "sbl" "ni" with status := 2 }
  table.utility (fun s o =>
    let name := o.operands.headD ""
    let other := (o.operands[1]?).getD "-"
    if o.operands.isEmpty then table.refuse s "missing operand after 'cmp'"
    else
      match sources s [name, other] with
      | [⟨_, .error fault⟩, _] => .blame s 2 (namedFault name (faultText fault))
      | [_, ⟨_, .error fault⟩] => .blame s 2 (namedFault other (faultText fault))
      | [⟨_, .ok x⟩, ⟨_, .ok y⟩] =>
        let most := ((o.value? 'n').bind fun v => Text.digits? v.toList).getD
          (x.length + y.length)
        let (xs, ys) := (x.toList.take most, y.toList.take most)
        let e : Effect := match firstDifference 1 1 xs ys with
          | none => .silent s 0
          | some (byte, line, true) =>
            if o.has 's' then .silent s 1
            else { Effect.printLine s (name ++ " " ++ other ++ " differ: char " ++ byte.repr
              ++ ", line " ++ line.repr) with status := 1 }
          | some (byte, line, false) =>
            let short := if xs.length < ys.length then name else other
            let inside := ((xs.take (byte - 1)).getLast?).any (· != '\n')
            if o.has 's' then .silent s 1
            else .blame s 1 ("EOF on " ++ short ++ if byte = 1 then " which is empty"
              else " after byte " ++ (byte - 1).repr ++ ", " ++ (if inside then "in " else "")
                ++ "line " ++ (if inside then line else line - 1).repr)
        if usesInput [⟨name, .ok ""⟩, ⟨other, .ok ""⟩] then e.drained else e
      | _ => .silent s 2) s arguments

/-! ## Lines -/

/-- A line in two texts. -/
inductive LineChange where
  /-- It is in both. -/
  | same (line : List Char)
  /-- It is in the first one only. -/
  | gone (line : List Char)
  /-- It is in the second one only. -/
  | new (line : List Char)

/-- The lengths of the longest common parts of one list with each end of another one. -/
def commonLengths (y : List (List Char)) : List (List Char) → List (List Nat)
  | [] => [List.replicate (y.length + 1) 0]
  | a :: as =>
    let rest := commonLengths y as
    let below := rest.headD []
    let row := ((y.zip (below.zip (below.drop 1))).reverse).foldl
      (fun (row : List Nat) (b, down, diagonal) =>
        (if a == b then diagonal + 1 else max down (row.headD 0)) :: row) [0]
    row :: rest

/-- How one list of lines becomes another one with the fewest changes. -/
def changesOf : List (List Char) → List (List Char) → List (List Nat) → List LineChange
  | [], ys, _ => ys.map .new
  | x :: xs, ys, table =>
    let below := (table.drop 1).headD []
    let rec go (row below : List Nat) : List (List Char) → List LineChange
      | [] => .gone x :: changesOf xs [] ((table.drop 1).map fun r => r.drop (r.length - 1))
      | y :: rest =>
        if x == y then .same x ::
          changesOf xs rest ((table.drop 1).map fun r => r.drop (r.length - rest.length - 1))
        else if (row.drop 1).headD 0 ≤ below.headD 0 then
          .gone x :: changesOf xs (y :: rest)
            ((table.drop 1).map fun r => r.drop (r.length - rest.length - 2))
        else .new y :: go (row.drop 1) (below.drop 1) rest
    go (table.headD []) below ys

/-- Changes that stand together: the numbers of lines in front of them in both texts, the lines that
are gone and those that are new. -/
structure Hunk where
  /-- The number of lines in front of it in the first text. -/
  before : Nat
  /-- The number of lines in front of it in the second text. -/
  beforeNew : Nat
  /-- The lines that are gone. -/
  gone : List (List Char)
  /-- The lines that are new. -/
  new : List (List Char)

/-- Groups changes. -/
def hunksOf (m n : Nat) (current : Option Hunk) : List LineChange → List Hunk
  | [] => current.toList
  | .same _ :: rest => current.toList ++ hunksOf (m + 1) (n + 1) none rest
  | .gone line :: rest =>
    let h := current.getD ⟨m, n, [], []⟩
    hunksOf (m + 1) n (some { h with gone := h.gone ++ [line] }) rest
  | .new line :: rest =>
    let h := current.getD ⟨m, n, [], []⟩
    hunksOf m (n + 1) (some { h with new := h.new ++ [line] }) rest

/-- A line of a comparison behind a mark. -/
def marked (mark : String) (line : List Char) : String :=
  mark ++ String.ofList (ended line) ++
    if line.getLast? == some '\n' then "" else "\\ No newline at end of file\n"

/-- The numbers of lines in a heading. -/
def lineNumbers (before count : Nat) : String :=
  if count = 0 then before.repr
  else if count = 1 then (before + 1).repr
  else (before + 1).repr ++ "," ++ (before + count).repr

/-- The text of changes that stand together. -/
def Hunk.text (h : Hunk) : String :=
  let letter := if h.new.isEmpty then "d" else if h.gone.isEmpty then "a" else "c"
  lineNumbers h.before h.gone.length ++ letter ++ lineNumbers h.beforeNew h.new.length ++ "\n"
    ++ String.join (h.gone.map (marked "< "))
    ++ (if h.gone.isEmpty || h.new.isEmpty then "" else "---\n")
    ++ String.join (h.new.map (marked "> "))

/-- The options for comparing. -/
def diffTable : OptionTable :=
  { flags := "qsribwBuNa", valued := "U", status := 2, anywhere := true, usage := ""
    names := [("brief", 'q'), ("report-identical-files", 's'), ("ignore-case", 'i')] }

/-- Tells in which lines two files differ. -/
def diff : Utility := fun s arguments =>
  let table := diffTable
  table.utility (fun s o =>
    match o.operands with
    | [name, other] =>
      let other := if s.files.isDirectory (decode other) then below other (lastPart name) else other
      match sources s [name, other] with
      | [⟨_, .error fault⟩, _] => .blame s 2 (namedFault name (faultText fault))
      | [_, ⟨_, .error fault⟩] => .blame s 2 (namedFault other (faultText fault))
      | [⟨_, .ok x⟩, ⟨_, .ok y⟩] =>
        let (xs, ys) := (linesOf x.toList, linesOf y.toList)
        let hunks := hunksOf 0 0 none (changesOf xs ys (commonLengths ys xs))
        let e : Effect :=
          if hunks.isEmpty then
            if o.has 's' then .printLine s ("Files " ++ name ++ " and " ++ other
              ++ " are identical") else .silent s 0
          else if o.has 'q' then
            { Effect.printLine s ("Files " ++ name ++ " and " ++ other ++ " differ") with
              status := 1 }
          else { Effect.print s (String.join (hunks.map Hunk.text)) with status := 1 }
        if usesInput [⟨name, .ok ""⟩, ⟨other, .ok ""⟩] then e.drained else e
      | _ => .silent s 2
    | operands =>
      let what := match operands with
        | _ :: _ :: extra :: _ => "extra operand '" ++ extra ++ "'"
        | _ => "missing operand after '" ++ operands.headD s.called ++ "'"
      .complain s 2 (s.called ++ ": " ++ what ++ "\n" ++ s.called ++ ": Try '" ++ s.called
        ++ " --help' for more information.")) s arguments

end ProofScript.Shell
