/-!
# Values of a manifest

A manifest is a TOML document: a table of named values. A table also remembers how it came to be,
since that decides what may still be added to it.
-/

namespace ProofScript.Toml

/-- How a table came to be. -/
inductive Origin where
  /-- It has a header of its own. -/
  | header
  /-- A longer header names it on its way. -/
  | implied
  /-- A dotted key names it on its way. -/
  | dotted
  /-- It is written between braces, and nothing can be added to it. -/
  | closed
  deriving DecidableEq, Repr

/-- A value. -/
inductive Value where
  /-- A text. -/
  | text (s : String)
  /-- An integer. -/
  | integer (n : Int)
  /-- A number with a fraction or an exponent, as it is spelled. -/
  | float (spelling : String)
  /-- A truth value. -/
  | boolean (b : Bool)
  /-- A date, a time or both, as it is spelled. -/
  | moment (spelling : String)
  /-- A list of values. -/
  | list (items : List Value)
  /-- A table: its names and their values, in the order in which they were first named. -/
  | table (origin : Origin) (entries : List (String × Value))
  /-- A list of tables that is written with one header for each table, last one first. -/
  | rows (last : List (String × Value)) (earlier : List (List (String × Value)))

/-- The names and values of a table. -/
abbrev Entries := List (String × Value)

/-- A reader of a prefix of a text: what it read and the rest, or nothing. -/
abbrev Reader (α : Type) := List Char → Option (α × List Char)

end ProofScript.Toml
