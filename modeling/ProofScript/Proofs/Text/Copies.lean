import Mathlib.Data.List.Basic
import ProofScript.Text.Blank
import ProofScript.Text.Lines

/-!
# Copied lines

Lines are copied into a text when each of them is a line of the text, up to blanks in front of it,
in the same order and with only blank lines between them. Every text copies its own lines, without
the blank ones (`Copies.of_text`); what a part of a text copies, the whole text does
(`Copied.of_part`).
-/

namespace ProofScript

/-- The characters are the given lines, each behind blanks, with blank lines between them. A line
ends with a line feed, and a carriage return may stand before it. -/
inductive Copies : List String → List Char → Prop where
  | nil : Copies [] []
  | blank {lines : List String} {blanks text : List Char}
    (hblanks : ∀ c ∈ blanks, Text.isBlank c = true) (h : Copies lines text) :
    Copies lines (blanks ++ '\n' :: text)
  | line {line : String} {lines : List String} {indent ending text : List Char}
    (hindent : ∀ c ∈ indent, Text.isBlank c = true) (hending : ending = [] ∨ ending = ['\r'])
    (h : Copies lines text) :
    Copies (line :: lines) (indent ++ line.toList ++ ending ++ '\n' :: text)

/-- Somewhere in the text, at the start of a line, the given lines are copied. -/
def Copied (lines : List String) (text : String) : Prop :=
  ∃ before block after, text.toList = before ++ '\n' :: (block ++ after) ∧ Copies lines block

/-- The lines of a text that are not blank. -/
def Text.content (s : String) : List String := (Text.lines s).filter fun line => !Text.allBlank line

variable {lines : List String} {text : String}

namespace Copies

/-- A character of a copied line occurs in the text. -/
theorem mem {cs : List Char} (h : Copies lines cs) {line : String} (hline : line ∈ lines) {c : Char}
    (hc : c ∈ line.toList) : c ∈ cs := by
  induction h with
  | nil => cases hline
  | blank _ _ ih =>
    have := ih hline
    simp [this]
  | line _ _ _ ih =>
    rcases List.mem_cons.1 hline with rfl | hline
    · simp [hc]
    · have := ih hline
      simp [this]

/-- Lines with the same indentation. -/
theorem indented {indent : List Char} (hindent : ∀ c ∈ indent, Text.isBlank c = true)
    (lines : List String) :
    Copies lines (lines.flatMap fun line => indent ++ line.toList ++ ['\n']) := by
  induction lines with
  | nil => exact .nil
  | cons line lines ih =>
    have hfirst : Copies (line :: lines) (indent ++ line.toList ++ [] ++ '\n' :: _) :=
      .line hindent (.inl rfl) ih
    simpa using hfirst

/-- One more line, which does not count when it is blank. -/
theorem cons {read ending cs : List Char} (hending : ending = [] ∨ ending = ['\r'])
    (h : Copies (lines.filter fun line => !Text.allBlank line) cs) :
    Copies ((String.ofList read :: lines).filter fun line => !Text.allBlank line)
      (read ++ ending ++ '\n' :: cs) := by
  by_cases hblank : Text.allBlank (String.ofList read) = true
  · rw [List.filter_cons_of_neg (by simp [hblank])]
    refine .blank (fun c hc => ?_) h
    rcases List.mem_append.1 hc with hc | hc
    · rw [Text.allBlank, String.toList_ofList] at hblank
      exact List.all_eq_true.1 hblank c hc
    · rcases hending with rfl | rfl
      · cases hc
      · obtain rfl := List.mem_singleton.1 hc
        decide
  · rw [List.filter_cons_of_pos (by simp [hblank])]
    have hline : Copies (String.ofList read :: _)
        ([] ++ (String.ofList read).toList ++ ending ++ '\n' :: cs) :=
      .line (List.forall_mem_nil _) hending h
    simpa using hline

theorem reverse_dropReturn (read : List Char) :
    ∃ ending, (ending = [] ∨ ending = ['\r']) ∧
      read.reverse = (Text.dropReturn read).reverse ++ ending := by
  unfold Text.dropReturn
  split
  · exact ⟨['\r'], .inr rfl, List.reverse_cons⟩
  · exact ⟨[], .inl rfl, (List.append_nil _).symm⟩

/-- The characters that have been read of a line are held in reverse order. -/
theorem of_linesFrom (read cs : List Char) :
    Copies ((Text.linesFrom read cs).filter fun line => !Text.allBlank line)
      (read.reverse ++ cs ++ ['\n']) := by
  induction cs generalizing read with
  | nil =>
    rw [List.append_nil, Text.linesFrom]
    cases read with
    | nil => exact .blank (List.forall_mem_nil _) .nil
    | cons c read =>
      have hlast : Copies ((String.ofList (c :: read).reverse :: []).filter fun line =>
          !Text.allBlank line) ((c :: read).reverse ++ [] ++ '\n' :: []) := .cons (.inl rfl) .nil
      rwa [List.append_nil] at hlast
  | cons c cs ih =>
    by_cases hc : c = '\n'
    · subst hc
      obtain ⟨ending, hending, hread⟩ := reverse_dropReturn read
      rw [Text.linesFrom, hread, List.append_assoc, List.cons_append]
      exact .cons hending (ih [])
    · have hnext := ih (c :: read)
      rw [List.reverse_cons, List.append_assoc read.reverse] at hnext
      rwa [Text.linesFrom]
      exact hc

/-- A text copies its own lines. -/
theorem of_text (s : String) : Copies (Text.content s) (s.toList ++ ['\n']) :=
  of_linesFrom [] s.toList

end Copies

namespace Copied

theorem append (h : Copied lines text) (before after : String) :
    Copied lines (before ++ text ++ after) := by
  obtain ⟨front, block, rest, htext, hblock⟩ := h
  refine ⟨before.toList ++ front, block, rest ++ after.toList, ?_, hblock⟩
  rw [String.toList_append, String.toList_append, htext]
  simp

/-- A text that is one of the parts of a longer one. -/
theorem of_part {parts : List String} (h : Copied lines text) (hpart : text ∈ parts)
    (separator : String) : Copied lines (separator.intercalate parts) := by
  induction parts with
  | nil => cases hpart
  | cons first rest ih =>
    cases rest with
    | nil =>
      obtain rfl := List.mem_singleton.1 hpart
      simpa using h
    | cons next rest =>
      rw [String.intercalate_cons_cons]
      rcases List.mem_cons.1 hpart with rfl | hpart
      · have hfirst := h.append "" (separator ++ separator.intercalate (next :: rest))
        rwa [String.empty_append, ← String.append_assoc] at hfirst
      · have hrest := (ih hpart).append (first ++ separator) ""
        rwa [String.append_empty] at hrest

/-- The lines of a text stand between others. -/
theorem of_between (before after : List String) (hbefore : before ≠ []) (hafter : after ≠ [])
    (s : String) : Copied (Text.content s) ("\n".intercalate (before ++ s :: after)) := by
  have hbreak : "\n".intercalate (before ++ s :: after) =
      "\n".intercalate before ++ "\n" ++ (s ++ "\n" ++ "\n".intercalate after) := by
    rw [String.intercalate_append_of_ne_nil hbefore (List.cons_ne_nil _ _),
      String.intercalate_cons_of_ne_nil hafter]
  refine ⟨("\n".intercalate before).toList, s.toList ++ ['\n'], ("\n".intercalate after).toList, ?_,
    Copies.of_text s⟩
  rw [hbreak]
  simp

/-- The first lines of a text, each with its line feed. -/
theorem intercalate_append_join (lines : List String) {after : List String} (hafter : after ≠ []) :
    "\n".intercalate (lines ++ after) =
      String.join (lines.map (· ++ "\n")) ++ "\n".intercalate after := by
  induction lines with
  | nil => simp
  | cons line lines ih =>
    have hrest : lines ++ after ≠ [] := List.append_ne_nil_of_right_ne_nil _ hafter
    rw [List.cons_append, String.intercalate_cons_of_ne_nil hrest, ih, List.map_cons,
      String.join_cons, String.append_assoc, String.append_assoc, String.append_assoc]

/-- Lines that are indented stand between others. -/
theorem of_indented {before after : List String} {indent : String}
    (hindent : ∀ c ∈ indent.toList, Text.isBlank c = true) (hbefore : before ≠ [])
    (hafter : after ≠ []) (lines : List String) :
    Copied lines ("\n".intercalate ((before ++ lines ++ after).map (indent ++ ·))) := by
  have hfront : before.map (indent ++ ·) ≠ [] := by simpa using hbefore
  have hback : after.map (indent ++ ·) ≠ [] := by simpa using hafter
  have hrest : lines.map (indent ++ ·) ++ after.map (indent ++ ·) ≠ [] :=
    List.append_ne_nil_of_right_ne_nil _ hback
  rw [List.map_append, List.map_append, List.append_assoc,
    String.intercalate_append_of_ne_nil hfront hrest, intercalate_append_join _ hback]
  refine ⟨("\n".intercalate (before.map (indent ++ ·))).toList, _,
    ("\n".intercalate (after.map (indent ++ ·))).toList, ?_, Copies.indented hindent lines⟩
  simp [List.flatMap_map]

end Copied

end ProofScript
