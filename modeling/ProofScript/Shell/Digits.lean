import ProofScript.Digest
import ProofScript.Shell.Options
import ProofScript.Shell.Portion

/-!
# Bytes as digits

Utilities that write the bytes of files as digits or letters: dumps, the base of 64 letters, and
digests.
-/

namespace ProofScript.Shell

/-! ## Dumps -/

/-- How bytes are written in a dump. -/
structure DumpStyle where
  /-- The letter of the notation. -/
  letter : Char
  /-- The number of bytes that are written together. -/
  size : Nat

/-- The digits of a number in a base, with zeros in front. -/
def zeroDigits (base width n : Nat) : String :=
  let digits := String.ofList (Nat.toDigits base n)
  String.ofList (List.replicate (width - digits.length) '0') ++ digits

/-- A text behind blanks that fill a width. -/
def padText (width : Nat) (s : String) : String :=
  String.ofList (List.replicate (width - s.length) ' ') ++ s

namespace DumpStyle

/-- The style that a text names. -/
def ofText? (text : String) : Option DumpStyle :=
  match text.toList with
  | letter :: rest =>
    let size := ((rest.takeWhile Text.isDigit).head?).elim (if letter == 'c' || letter == 'a'
      then 1 else 4) Text.digitValue
    if "acdoux".toList.contains letter then some ⟨letter, size⟩ else none
  | [] => none

/-- The name of a byte as a character. -/
def character (c : Char) : String :=
  match c with
  | '\x00' => "\\0"
  | '\x07' => "\\a"
  | '\x08' => "\\b"
  | '\t' => "\\t"
  | '\n' => "\\n"
  | '\x0b' => "\\v"
  | '\x0c' => "\\f"
  | '\r' => "\\r"
  | c => if ' ' ≤ c && c ≤ '~' then String.singleton c else zeroDigits 8 3 c.toNat

/-- The number of characters that a unit of a size can take. -/
def width (k : DumpStyle) : Nat :=
  let wide (one two four : Nat) : Nat :=
    if k.size = 1 then one else if k.size = 2 then two else four
  match k.letter with
  | 'x' => 2 * k.size
  | 'o' => wide 3 6 11
  | 'u' => wide 3 5 10
  | 'd' => wide 4 6 11
  | _ => 3

/-- Writes bytes that belong together. -/
def unit (k : DumpStyle) (cs : List Char) : String :=
  let n := cs.foldr (fun c n => 256 * n + c.toNat) 0
  let most := Nat.pow 256 k.size
  " " ++ match k.letter with
    | 'x' => zeroDigits 16 k.width n
    | 'o' => zeroDigits 8 k.width n
    | 'u' => padText k.width n.repr
    | 'd' => padText k.width (if 2 * n < most then n.repr else "-" ++ (most - n).repr)
    | _ => padText k.width (character (cs.headD ' '))

end DumpStyle

/-- Splits a list into pieces of the same length. -/
def chunksOf {α : Type} (n : Nat) (fuel : Nat) (xs : List α) : List (List α) :=
  match fuel, xs with
  | 0, _ => []
  | _, [] => []
  | fuel + 1, xs => xs.take n :: chunksOf n fuel (xs.drop n)

/-- The options for dumps. -/
def odTable : OptionTable :=
  { flags := "bcdxovs", valued := "AtNjw", status := 1, anywhere := true, usage := ""
    names := [("address-radix", 'A'), ("format", 't'), ("read-bytes", 'N'), ("skip-bytes", 'j')] }

/-- The lines of a dump, where `last` is the row in front. Rows that repeat it become one star. -/
def dumpRows (o : Options) (styles : List DumpStyle) (address : Nat → String) (offset : Nat)
    (last : Option (List Char)) (starred : Bool) : List (List Char) → String
  | [] => ""
  | row :: rows =>
    let next (starred : Bool) :=
      dumpRows o styles address (offset + row.length) (some row) starred rows
    if last == some row && !o.has 'v' then
      (if starred then "" else "*\n") ++ next true
    else
      let lines := styles.map fun k =>
        String.join ((chunksOf k.size row.length row).map k.unit)
      let lines := ((List.range lines.length).zip lines).map fun (i, line) =>
        (if i = 0 then address offset else padText (address offset).length "") ++ line ++ "\n"
      String.join lines ++ next false

/-- Writes the bytes of files as digits. -/
def od : Utility := odTable.utility fun s o =>
  let number (c : Char) : Option Nat := (o.value? c).bind fun v => Text.digits? v.toList
  let styles := o.given.filterMap fun (c, v) =>
    match c with
    | 'b' => some (DumpStyle.mk 'o' 1)
    | 'c' => some ⟨'c', 1⟩
    | 'x' => some ⟨'x', 2⟩
    | 'd' => some ⟨'u', 2⟩
    | 'o' => some ⟨'o', 2⟩
    | 't' => DumpStyle.ofText? v
    | _ => none
  let styles := if styles.isEmpty then [⟨'o', 2⟩] else styles
  let address (n : Nat) : String := match o.value? 'A' with
    | some "n" => ""
    | some "x" => zeroDigits 16 6 n
    | some "d" => zeroDigits 10 7 n
    | _ => zeroDigits 8 7 n
  joining s namedFault o.operands fun text =>
    let skipped := (number 'j').getD 0
    let cs := text.toList.drop skipped
    let cs := match number 'N' with
      | some n => cs.take n
      | none => cs
    let rows := chunksOf (max ((number 'w').getD 16) 1) cs.length cs
    let closing := address (skipped + cs.length)
    dumpRows o styles address skipped none false rows
      ++ if closing.isEmpty then "" else closing ++ "\n"

/-! ## The base of 64 letters -/

/-- The letters, in order. -/
def base64Letters : List Char :=
  charsFrom 'A' 26 ++ charsFrom 'a' 26 ++ charsFrom '0' 10 ++ ['+', '/']
where
  /-- So many characters from one on. -/
  charsFrom (c : Char) (n : Nat) : List Char := (List.range n).map fun i => Char.ofNat (c.toNat + i)

/-- Up to three bytes as four letters. -/
def base64Group (cs : List Char) : List Char :=
  let n := (cs ++ List.replicate (3 - cs.length) '\x00').foldl (fun n c => 256 * n + c.toNat) 0
  let letters := [n / 262144, n / 4096 % 64, n / 64 % 64, n % 64].map fun i =>
    (base64Letters[i]?).getD '='
  letters.take (cs.length + 1) ++ List.replicate (3 - cs.length) '='

/-- The bytes that four letters stand for. -/
def base64Bytes (cs : List Char) : List Char :=
  let kept := cs.filter (· != '=')
  let n := (kept ++ List.replicate (4 - kept.length) 'A').foldl
    (fun n c => 64 * n + base64Letters.idxOf c) 0
  ([n / 65536, n / 256 % 256, n % 256].map Char.ofNat).take (kept.length - 1)

/-- Writes bytes in the base of 64 letters, or reads them. -/
def base64 : Utility := fun s arguments =>
  let table := { OptionTable.plain "di" "w" with names := [("decode", 'd'), ("wrap", 'w')] }
  table.utility (fun s o =>
    if o.has 'd' then
      let e := joining s namedFault o.operands fun text =>
        let cs := text.toList.filter fun c => base64Letters.contains c || c == '='
        String.ofList ((chunksOf 4 cs.length cs).flatMap base64Bytes)
      let isValid (c : Char) : Bool := base64Letters.contains c || c == '=' || c == '\n'
      let valid := (sources s o.operands).all fun source =>
        ((source.text.toOption).getD "").toList.all isValid
      if valid then e
      else { e with chunks := [⟨true, s.called ++ ": invalid input\n"⟩], status := 1 }
    else
      let width := ((o.value? 'w').bind fun v => Text.digits? v.toList).getD 76
      joining s namedFault o.operands fun text =>
        let letters := (chunksOf 3 text.length text.toList).flatMap base64Group
        if width = 0 then String.ofList letters
        else String.ofList ((chunksOf width letters.length letters).flatMap (· ++ ['\n'])))
    s arguments

/-! ## Digests -/

/-- Writes the digests of files, with two blanks and their names behind them. -/
def sha256sum : Utility := fun s arguments =>
  let table := { OptionTable.plain "bt" "" with names := [("binary", 'b'), ("text", 't')] }
  table.utility (fun s o =>
    filtering s namedFault (sources s o.operands) fun source text =>
      ProofScript.Digest.ofBytes (toBytes text) ++ "  " ++ source.name ++ "\n") s arguments

end ProofScript.Shell
