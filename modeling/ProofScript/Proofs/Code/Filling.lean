import ProofScript.Code.Template
import ProofScript.Proofs.Action

/-!
# Filling in snippets

A snippet is written line by line. A line has some parts, each a text and the placeholder behind it,
and ends in a text. When no text has a dollar sign and every placeholder ends where its name ends,
the pieces of the snippet are those that were written (`Snippet.hasLines`); it is filled in line by
line when all placeholders have values (`Snippet.substitute_lines`).
-/

namespace ProofScript.Snippet

/-! ## Reading pieces -/

theorem piecesOf_cons {c : Char} {cs : List Char} (h : c ≠ '$') :
    piecesOf (c :: cs) = .char c :: piecesOf cs := by
  rw [piecesOf]
  · exact fun _ hc => absurd hc h
  · exact fun _ hc => absurd hc h
  · exact fun _ _ hc => absurd hc h
  · exact fun hc _ => absurd hc h

theorem piecesOf_text {text cs : List Char} (h : ∀ c ∈ text, c ≠ '$') :
    piecesOf (text ++ cs) = text.map .char ++ piecesOf cs := by
  induction text with
  | nil => rfl
  | cons c text ih =>
    obtain ⟨hc, htext⟩ := List.forall_mem_cons.1 h
    rw [List.cons_append, piecesOf_cons hc, ih htext]
    rfl

/-- A placeholder is read as far as its name goes. -/
theorem piecesOf_key {key rest : List Char} (hkey : Text.isName key = true)
    (hrest : ∀ c ∈ rest.head?, Text.isNameChar c = false) :
    piecesOf ('$' :: (key ++ rest)) = .key (String.ofList key) :: piecesOf rest := by
  cases key with
  | nil => cases hkey
  | cons c cs =>
    obtain ⟨hstart, hcs⟩ := Bool.and_eq_true_iff.1 hkey
    have hall : ∀ c ∈ cs, Text.isNameChar c = true := List.all_eq_true.1 hcs
    have hstop : rest.takeWhile Text.isNameChar = [] ∧ rest.dropWhile Text.isNameChar = rest := by
      cases rest with
      | nil => exact ⟨rfl, rfl⟩
      | cons d rest =>
        have hd := hrest d rfl
        exact ⟨List.takeWhile_cons_of_neg (by simp [hd]), List.dropWhile_cons_of_neg (by simp [hd])⟩
    rw [List.cons_append, piecesOf, if_pos hstart, List.takeWhile_append_of_pos hall,
      List.dropWhile_append_of_pos hall, hstop.1, hstop.2, List.append_nil]
    -- A name starts with neither a dollar sign nor a brace.
    · rintro rfl
      exact absurd hstart (by decide)
    · rintro rfl
      exact absurd hstart (by decide)

/-! ## Filling in pieces -/

variable {values : List (String × String)} {s : Snippet}

/-- A placeholder that is listed has a value. -/
theorem lookup_of_known {name : String} (h : (values.map Prod.fst).contains name = true) :
    ∃ value, values.lookup name = some value := by
  induction values with
  | nil => cases h
  | cons entry rest ih =>
    obtain ⟨key, value⟩ := entry
    rw [List.lookup_cons]
    by_cases hkey : name = key
    · rw [beq_iff_eq.2 hkey]
      exact ⟨value, rfl⟩
    · have hrest : (rest.map Prod.fst).contains name = true := by
        simpa [hkey] using h
      obtain ⟨found, hfound⟩ := ih hrest
      rw [beq_eq_false_iff_ne.2 hkey]
      exact ⟨found, hfound⟩

/-- Pieces are filled in one after the other. -/
theorem fill_append {ps qs : List Piece} {cs ds : List Char} (hp : fill values ps = .ok cs)
    (hq : fill values qs = .ok ds) : fill values (ps ++ qs) = .ok (cs ++ ds) := by
  induction ps generalizing cs with
  | nil =>
    obtain rfl : cs = [] := (Except.ok.inj hp).symm
    exact hq
  | cons p ps ih =>
    cases p with
    | char c =>
      obtain ⟨rest, hrest, hcs⟩ := ok_of_bind hp
      obtain rfl : cs = c :: rest := (Except.ok.inj hcs).symm
      exact bind_of_ok (ih hrest) rfl
    | broken fault => cases hp
    | key name =>
      rw [List.cons_append]
      simp only [fill] at hp ⊢
      split at hp
      · cases hp
      · next value hvalue =>
        obtain ⟨rest, hrest, hcs⟩ := ok_of_bind hp
        obtain rfl : cs = value.toList ++ rest := (Except.ok.inj hcs).symm
        exact bind_of_ok (ih hrest) (by rw [List.append_assoc]; rfl)

theorem fill_chars (values : List (String × String)) (cs : List Char) :
    fill values (cs.map Piece.char) = .ok cs := by
  induction cs with
  | nil => rfl
  | cons c cs ih => exact bind_of_ok ih rfl

/-! ## Lines -/

/-- Part of a line: a text and the placeholder behind it. -/
abbrev Part := String × String

/-- A line: its parts and the text at its end. -/
abbrev Line := List Part × String

/-- How a line is written: a placeholder is a name behind a dollar sign. -/
def written (parts : List Part) (last : String) : List Char :=
  parts.foldr (fun (text, key) rest => text.toList ++ '$' :: (key.toList ++ rest)) last.toList

/-- The pieces of a line. -/
def lineOf (parts : List Part) (last : String) : List Piece :=
  parts.flatMap (fun (text, key) => text.toList.map .char ++ [.key key]) ++ last.toList.map .char

/-- The text of a line whose placeholders are filled in. -/
def filledLine (values : List (String × String)) (parts : List Part) (last : String) : String :=
  parts.foldr (fun (text, key) rest => text ++ ((values.lookup key).getD "" ++ rest)) last

/-- The texts of a line have no dollar sign, and every placeholder ends where its name ends. -/
def readable : List Part → String → Bool
  | [], last => last.toList.all (· != '$')
  | (text, key) :: rest, last =>
    text.toList.all (· != '$') && Text.isName key.toList &&
      (written rest last).head?.all (fun c => !Text.isNameChar c) && readable rest last

theorem piecesOf_written {parts : List Part} {last : String} (h : readable parts last = true)
    (behind : List Char) (hbehind : ∀ c ∈ behind.head?, Text.isNameChar c = false) :
    piecesOf (written parts last ++ behind) = lineOf parts last ++ piecesOf behind := by
  induction parts with
  | nil =>
    have hlast : ∀ c ∈ last.toList, c ≠ '$' := by simpa [readable] using h
    exact piecesOf_text hlast
  | cons part parts ih =>
    obtain ⟨text, key⟩ := part
    simp only [readable, Bool.and_eq_true] at h
    obtain ⟨⟨⟨htext, hkey⟩, hnext⟩, hrest⟩ := h
    have hplain : ∀ c ∈ text.toList, c ≠ '$' := by simpa using htext
    have hends : ∀ c ∈ (written parts last ++ behind).head?, Text.isNameChar c = false := by
      cases hw : written parts last with
      | nil => simpa using hbehind
      | cons d ds => simpa [hw] using hnext
    show piecesOf ((text.toList ++ '$' :: (key.toList ++ written parts last)) ++ behind) = _
    rw [List.append_assoc, piecesOf_text hplain, List.cons_append, List.append_assoc,
      piecesOf_key hkey hends, ih hrest, String.ofList_toList]
    simp [lineOf]

theorem fill_lineOf {parts : List Part} (last : String)
    (h : ∀ part ∈ parts, (values.map Prod.fst).contains part.2 = true) :
    fill values (lineOf parts last) = .ok (filledLine values parts last).toList := by
  induction parts with
  | nil => exact fill_chars values last.toList
  | cons part parts ih =>
    obtain ⟨text, key⟩ := part
    obtain ⟨hkey, hrest⟩ := List.forall_mem_cons.1 h
    obtain ⟨value, hvalue⟩ := lookup_of_known hkey
    have hbehind : fill values (.key key :: lineOf parts last) =
        .ok (value.toList ++ (filledLine values parts last).toList) := by
      simp only [fill, hvalue]
      exact bind_of_ok (ih hrest) rfl
    have hall := fill_append (fill_chars values text.toList) hbehind
    simpa [lineOf, filledLine, hvalue] using hall

/-- The pieces of a snippet are those of the given lines, with placeholders among `keys`. -/
structure HasLines (s : Snippet) (keys : List String) (lines : List Line) : Prop where
  pieces : s.pieces = [.char '\n'].intercalate (lines.map fun line => lineOf line.1 line.2)
  keys : ∀ line ∈ lines, ∀ part ∈ line.1, keys.contains part.2 = true

/-- The snippet that is written with some lines has these lines. -/
theorem hasLines {keys : List String} {lines : List Line}
    (h : ∀ line ∈ lines, readable line.1 line.2 = true ∧
      ∀ part ∈ line.1, keys.contains part.2 = true) :
    (ofLines (lines.map fun line => String.ofList (written line.1 line.2))).HasLines keys lines := by
  refine ⟨?_, fun line hline => (h line hline).2⟩
  have htext : ∀ lines : List Line,
      (ofLines (lines.map fun line => String.ofList (written line.1 line.2))).text.toList =
        ['\n'].intercalate (lines.map fun line => written line.1 line.2) := by
    intro lines
    simp [ofLines, Function.comp_def]
  rw [pieces, htext]
  induction lines with
  | nil => exact piecesOf.eq_1
  | cons line rest ih =>
    obtain ⟨⟨hline, -⟩, hrest⟩ := List.forall_mem_cons.1 h
    cases rest with
    | nil => simpa [piecesOf.eq_1] using piecesOf_written hline [] (by simp)
    | cons next rest =>
      have hbreak : ∀ cs : List Char, ∀ c ∈ ('\n' :: cs).head?, Text.isNameChar c = false := by
        rintro cs c hc
        obtain rfl : '\n' = c := by simpa using hc
        decide
      have hall := piecesOf_written hline _ (hbreak
        (['\n'].intercalate ((next :: rest).map fun line => written line.1 line.2)))
      rw [piecesOf_cons (by decide), ih hrest] at hall
      simpa [List.intercalate_cons_cons] using hall

/-- A snippet is filled in line by line. -/
theorem substitute_lines {lines : List Line} (values : List (String × String))
    (h : s.HasLines (values.map Prod.fst) lines) :
    s.substitute values =
      .ok ("\n".intercalate (lines.map fun line => filledLine values line.1 line.2)) := by
  have hkeys := h.keys
  suffices hfill : fill values
      ([.char '\n'].intercalate (lines.map fun line => lineOf line.1 line.2)) =
      .ok ("\n".intercalate (lines.map fun line => filledLine values line.1 line.2)).toList by
    rw [substitute, h.pieces]
    exact bind_of_ok hfill (by rw [String.ofList_toList]; rfl)
  clear h
  induction lines with
  | nil => rfl
  | cons line rest ih =>
    obtain ⟨hline, hrest⟩ := List.forall_mem_cons.1 hkeys
    have hfirst := fill_lineOf line.2 hline
    cases rest with
    | nil => simpa using hfirst
    | cons next rest =>
      have hbehind := fill_append (fill_chars values ['\n']) (ih hrest)
      have hall := fill_append hfirst hbehind
      simpa [List.intercalate_cons_cons, String.intercalate_cons_cons] using hall

end ProofScript.Snippet
