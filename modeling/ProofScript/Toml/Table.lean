import ProofScript.Toml.Value

/-!
# Building tables

A document adds its values to tables one by one. No value is named twice, no table has two headers,
and a dotted key adds to no table but those that dotted keys made.
-/

namespace ProofScript.Toml

namespace Entries

/-- The value of a name. -/
def get? (t : Entries) (key : String) : Option Value := (t.find? fun e => e.1 == key).map Prod.snd

/-- Gives a value to a name: in its place when the table has the name, and at the end otherwise. -/
def put (t : Entries) (key : String) (v : Value) : Entries :=
  match t with
  | [] => [(key, v)]
  | (k, old) :: rest => if k == key then (k, v) :: rest else (k, old) :: put rest key v

end Entries

/-- Whether keys of a kind can lead through a table. -/
def Origin.isOpen (viaDots : Bool) : Origin → Bool
  | .header => !viaDots
  | .implied | .dotted => true
  | .closed => false

/-- Changes the table that a path of keys leads to, where `viaDots` tells whether the path is part
of a dotted key or of a header. A list of tables leads to its last table, and a missing table is
made. The change is also told how the table came to be. -/
def Entries.within (viaDots : Bool) (change : Origin → Entries → Option Entries) :
    List String → Origin → Entries → Option Entries
  | [], origin, t => change origin t
  | key :: keys, _, t =>
    match Entries.get? t key with
    | none =>
      let origin := if viaDots then Origin.dotted else Origin.implied
      (within viaDots change keys origin []).map fun u => Entries.put t key (.table origin u)
    | some (.table origin u) =>
      if origin.isOpen viaDots then
        (within viaDots change keys origin u).map fun u => Entries.put t key (.table origin u)
      else none
    | some (.rows last earlier) =>
      (within viaDots change keys .header last).map fun last =>
        Entries.put t key (.rows last earlier)
    | some _ => none

namespace Entries

/-- Adds a value under a key that may be dotted. -/
def add (t : Entries) (path : List String × String) (v : Value) : Option Entries :=
  within true (fun origin u =>
    if (path.1.isEmpty || origin == .dotted) && (get? u path.2).isNone then some (put u path.2 v)
    else none) path.1 .header t

/-- Adds a table with a header. It may be there already when longer headers named it. -/
def addHeader (t : Entries) (path : List String × String) : Option Entries :=
  within false (fun _ u =>
    match get? u path.2 with
    | none => some (put u path.2 (.table .header []))
    | some (.table .implied entries) => some (put u path.2 (.table .header entries))
    | some _ => none) path.1 .header t

/-- Adds a table to a list of tables. -/
def addRow (t : Entries) (path : List String × String) : Option Entries :=
  within false (fun _ u =>
    match get? u path.2 with
    | none => some (put u path.2 (.rows [] []))
    | some (.rows last earlier) => some (put u path.2 (.rows [] (last :: earlier)))
    | some _ => none) path.1 .header t

/-- Adds a value below the header that was read last. -/
def addBelow (header : List String) (t : Entries) (path : List String × String) (v : Value) :
    Option Entries :=
  within false (fun _ u => add u path v) header .header t

/-- The table of a list of keys and values, none of them named twice. -/
def ofPairs (pairs : List ((List String × String) × Value)) : Option Entries :=
  pairs.foldlM (fun t pair => add t pair.1 pair.2) []

end Entries

end ProofScript.Toml
