import Mathlib.Data.List.Basic
import ProofScript.Dialect.Dafny

/-!
# String literals of Dafny

A string literal escapes the quotation marks and backslashes of a text, so that it stands for the
text whatever it is. How Dafny reads literals is left open as far as possible (`LiteralReader`):
which characters may stand for themselves, and what else may stand behind a backslash. Every reader
reads an escaped text back, and a text that is not escaped just when there is nothing to escape.
-/

namespace ProofScript

namespace Dafny

/-! ## Characters to escape -/

/-- Whether a character does not stand for itself in a literal that has been escaped. -/
def isSpecial (c : Char) : Bool := c == '"' || c == '\\'

variable {c : Char} {cs s rest : List Char}

theorem isSpecial_eq_false (hquote : c ≠ '"') (hback : c ≠ '\\') : isSpecial c = false := by
  rw [isSpecial, beq_false_of_ne hquote, beq_false_of_ne hback, Bool.or_false]

theorem escape_of_special (h : isSpecial c = true) : escape c = ['\\', c] := by
  rw [isSpecial, Bool.or_eq_true, beq_iff_eq, beq_iff_eq] at h
  rcases h with rfl | rfl
  · rfl
  · rfl

theorem escape_of_not_special (h : isSpecial c = false) : escape c = [c] := by
  rw [isSpecial, Bool.or_eq_false_iff, beq_eq_false_iff_ne, beq_eq_false_iff_ne] at h
  rw [escape, if_neg h.2, if_neg h.1]

theorem length_le_flatMap_escape (cs : List Char) : cs.length ≤ (cs.flatMap escape).length := by
  induction cs with
  | nil => exact Nat.le_refl 0
  | cons c cs ih =>
    rw [List.flatMap_cons, List.length_append, List.length_cons]
    cases hc : isSpecial c with
    | true =>
      rw [escape_of_special hc, List.length_cons, List.length_singleton]
      omega
    | false =>
      rw [escape_of_not_special hc, List.length_singleton]
      omega

/-- Escaping leaves a text as it is just when there is nothing to escape. -/
theorem flatMap_escape_eq_self_iff :
    cs.flatMap escape = cs ↔ ∀ c ∈ cs, isSpecial c = false := by
  induction cs with
  | nil => simp
  | cons c cs ih =>
    rw [List.flatMap_cons, List.forall_mem_cons]
    cases hc : isSpecial c with
    | true =>
      -- An escaped character makes the text longer.
      refine iff_of_false (fun heq => ?_) (fun h => Bool.noConfusion h.1)
      have hlength := congrArg List.length heq
      have hle := length_le_flatMap_escape cs
      simp only [escape_of_special hc, List.length_append, List.length_cons] at hlength
      omega
    | false =>
      rw [escape_of_not_special hc, List.singleton_append, List.cons_inj_right, ih,
        and_iff_right rfl]

theorem toList_quote (s : String) (rest : List Char) :
    (quote s).toList ++ rest = '"' :: (s.toList.flatMap escape ++ '"' :: rest) := by
  simp [quote, Text.escapeWith, String.toList_append]

/-! ## Reading literals -/

/-- How string literals are read, apart from what a quotation mark and a backslash mean. -/
structure LiteralReader where
  /-- Whether a character may stand for itself. -/
  plain : Char → Bool
  /-- What else may stand behind a backslash: the character that is meant, and how many more
  characters belong to it, from the first character and those behind it. -/
  other : Char → List Char → Option (Char × Nat)

namespace LiteralReader

/-- What stands behind a backslash. A quotation mark or another backslash is meant itself. -/
def meaning (reader : LiteralReader) (c : Char) (cs : List Char) : Option (Char × Nat) :=
  if isSpecial c then some (c, 0) else reader.other c cs

/-- Reads a literal behind its opening quotation mark: the text that it stands for, and what stands
behind the closing one. -/
def text? (reader : LiteralReader) : List Char → Option (List Char × List Char)
  | '"' :: cs => some ([], cs)
  | '\\' :: c :: cs =>
    match reader.meaning c cs with
    | some (d, n) => (reader.text? (cs.drop n)).map (Prod.map (d :: ·) id)
    | none => none
  | c :: cs =>
    if c ≠ '\\' ∧ reader.plain c = true then (reader.text? cs).map (Prod.map (c :: ·) id) else none
  | [] => none
termination_by cs => cs.length
decreasing_by
  all_goals simp only [List.length_cons, List.length_drop]; omega

/-- Reads a literal: the text that it stands for, and what stands behind it. -/
def literal? (reader : LiteralReader) : List Char → Option (List Char × List Char)
  | '"' :: cs => reader.text? cs
  | _ => none

variable {reader : LiteralReader}

theorem text?_close : reader.text? ('"' :: cs) = some ([], cs) := by
  rw [text?]

theorem text?_escaped (h : isSpecial c = true) :
    reader.text? ('\\' :: c :: cs) = (reader.text? cs).map (Prod.map (c :: ·) id) := by
  have hmeaning : reader.meaning c cs = some (c, 0) := if_pos h
  rw [text?, hmeaning]
  rfl

theorem text?_plain (h : isSpecial c = false) (hplain : reader.plain c = true) :
    reader.text? (c :: cs) = (reader.text? cs).map (Prod.map (c :: ·) id) := by
  rw [isSpecial, Bool.or_eq_false_iff, beq_eq_false_iff_ne, beq_eq_false_iff_ne] at h
  rw [text?]
  · exact if_pos ⟨h.2, hplain⟩
  · exact fun heq => absurd heq h.1
  · exact fun _ _ heq _ => absurd heq h.2

/-- An escaped text is read back, whatever comes behind the literal. -/
theorem text?_escape (h : ∀ c ∈ s, isSpecial c = false → reader.plain c = true) :
    reader.text? (s.flatMap escape ++ '"' :: rest) = some (s, rest) := by
  induction s with
  | nil => exact text?_close
  | cons c s ih =>
    obtain ⟨hc, hs⟩ := List.forall_mem_cons.1 h
    rw [List.flatMap_cons, List.append_assoc]
    cases hspecial : isSpecial c with
    | true =>
      rw [escape_of_special hspecial, List.cons_append, List.singleton_append,
        text?_escaped hspecial, ih hs]
      rfl
    | false =>
      rw [escape_of_not_special hspecial, List.singleton_append,
        text?_plain hspecial (hc hspecial), ih hs]
      rfl

theorem exists_of_map_cons {found : Option (List Char × List Char)}
    (h : found.map (Prod.map (c :: ·) id) = some (s, rest)) :
    ∃ t, s = c :: t ∧ found = some (t, rest) := by
  obtain ⟨⟨t, r⟩, rfl, heq⟩ := Option.map_eq_some_iff.1 h
  obtain ⟨rfl, rfl⟩ := Prod.mk.inj heq
  exact ⟨t, rfl, rfl⟩

/-- A literal is at least as long as the text that it stands for, and longer if it holds anything
that would be escaped. -/
theorem exists_read_of_text? (h : reader.text? cs = some (s, rest)) :
    ∃ read, cs = read ++ '"' :: rest ∧ s.length ≤ read.length ∧
      (read.length ≤ s.length → ∀ c ∈ read, isSpecial c = false) := by
  fun_induction text? reader cs generalizing s with
  | case1 cs =>
    obtain ⟨rfl, rfl⟩ := Prod.mk.inj (Option.some.inj h)
    exact ⟨[], rfl, Nat.le_refl 0, fun _ _ hc => nomatch hc⟩
  | case2 c cs d n _ ih =>
    obtain ⟨t, rfl, htext⟩ := exists_of_map_cons h
    obtain ⟨read, hread, hle, -⟩ := ih htext
    have hlength : (cs.take n ++ read).length = (cs.take n).length + read.length :=
      List.length_append
    refine ⟨'\\' :: c :: (cs.take n ++ read), ?_, ?_, fun hlong => ?_⟩
    · rw [List.cons_append, List.cons_append, List.append_assoc, ← hread, List.take_append_drop]
    · simp only [List.length_cons]
      omega
    · simp only [List.length_cons] at hlong
      omega
  | case4 c cs hquote _ hplain ih =>
    obtain ⟨t, rfl, htext⟩ := exists_of_map_cons h
    obtain ⟨read, rfl, hle, hall⟩ := ih htext
    refine ⟨c :: read, rfl, Nat.succ_le_succ hle, fun hlong => ?_⟩
    exact List.forall_mem_cons.2
      ⟨isSpecial_eq_false hquote hplain.1, hall (Nat.le_of_succ_le_succ hlong)⟩
  | case3 | case5 | case6 => cases h

/-- A text that has not been escaped is read back just when there is nothing to escape. -/
theorem text?_eq_self_iff (h : ∀ c ∈ s, isSpecial c = false → reader.plain c = true) :
    reader.text? (s ++ '"' :: rest) = some (s, rest) ↔ ∀ c ∈ s, isSpecial c = false := by
  constructor
  · intro htext
    obtain ⟨read, hread, -, hall⟩ := exists_read_of_text? htext
    obtain rfl := List.append_cancel_right hread
    exact hall (Nat.le_refl _)
  · intro hall
    have htext : reader.text? (s.flatMap escape ++ '"' :: rest) = some (s, rest) := text?_escape h
    rwa [flatMap_escape_eq_self_iff.2 hall] at htext

end LiteralReader

/-- A string literal ends at the first quotation mark that is not escaped. -/
theorem escaped_inj {ds r : List Char}
    (h : s.flatMap escape ++ '"' :: rest = ds.flatMap escape ++ '"' :: r) : s = ds ∧ rest = r := by
  let reader : LiteralReader := ⟨fun _ => true, fun _ _ => none⟩
  have hs : reader.text? (s.flatMap escape ++ '"' :: rest) = some (s, rest) :=
    LiteralReader.text?_escape fun _ _ _ => rfl
  have hds : reader.text? (ds.flatMap escape ++ '"' :: r) = some (ds, r) :=
    LiteralReader.text?_escape fun _ _ _ => rfl
  rw [h, hds] at hs
  obtain ⟨rfl, rfl⟩ := Prod.mk.inj (Option.some.inj hs)
  exact ⟨rfl, rfl⟩

end Dafny

end ProofScript
