import ProofScript.Code.Template
import ProofScript.Proofs.Action
import ProofScript.Proofs.Code.Heading
import ProofScript.Proofs.NameMap
import ProofScript.Proofs.Text.Blank
import ProofScript.Proofs.Text.Lines

/-!
# Template files are read back

`Written delims entries file` says which files hold the given snippets: the blocks of the snippets
one after the other, with comment lines anywhere and with lines of no meaning between the blocks.
Such a file is read as the snippets that it was written for (`ofText_written`), in whatever order
the blocks stand. The reader goes line by line, so each kind of line has its own lemma for one step;
inside a block the invariant is the text collected so far, outside the map built so far.
-/

namespace ProofScript

/-! ## Delimiters -/

namespace Delimiters

variable {d : Delimiters} {line name : String}

/-- A comment line. -/
def IsComment (d : Delimiters) (line : String) : Prop := d.comment.toList <+: line.toList

/-- A line that starts with neither delimiter. -/
def IsPlain (d : Delimiters) (line : String) : Prop :=
  ¬d.comment.toList <+: line.toList ∧ ¬d.snippet.toList <+: line.toList

/-- The line that starts or ends the block of a snippet, as the word says. -/
def markerLine (d : Delimiters) (word name : String) : String :=
  d.snippet ++ " " ++ word ++ " " ++ name

/-- Delimiters that can be told apart, each on a line of its own. Neither is a start of the other,
so neither is empty. -/
structure Apart (d : Delimiters) : Prop where
  /-- No delimiter goes on to a further line. -/
  unbroken : ∀ c ∈ d.comment.toList ++ d.snippet.toList, c ≠ '\n' ∧ c ≠ '\r'
  /-- A delimiter line is no comment line. -/
  comment : ¬d.comment.toList <+: d.snippet.toList
  /-- A comment line is no delimiter line. -/
  snippet : ¬d.snippet.toList <+: d.comment.toList

/-- A snippet that a file can hold: its name is one, and each row of its text starts with neither
delimiter and does not end with a carriage return. -/
def CanHold (d : Delimiters) (entry : String × Snippet) : Prop :=
  Text.isName entry.1.toList = true ∧
    ∀ row ∈ Text.rows entry.2.text, d.IsPlain row ∧ row.toList.getLast? ≠ some '\r'

theorem Apart.notMem_comment (h : d.Apart) {c : Char} (hc : c = '\n' ∨ c = '\r') :
    c ∉ d.comment.toList := by
  intro hmem
  obtain ⟨hnewline, hreturn⟩ := h.unbroken c (List.mem_append_left _ hmem)
  exact hc.elim hnewline hreturn

theorem Apart.notMem_snippet (h : d.Apart) {c : Char} (hc : c = '\n' ∨ c = '\r') :
    c ∉ d.snippet.toList := by
  intro hmem
  obtain ⟨hnewline, hreturn⟩ := h.unbroken c (List.mem_append_right _ hmem)
  exact hc.elim hnewline hreturn

/-- What starts with the snippet delimiter is no comment line. -/
theorem Apart.not_isComment (h : d.Apart) {cs : List Char}
    (hline : line.toList = d.snippet.toList ++ cs) : ¬d.IsComment line := by
  intro hcomment
  have hsnippet : d.snippet.toList <+: line.toList := ⟨cs, hline.symm⟩
  rcases List.prefix_or_prefix_of_prefix hcomment hsnippet with hle | hle
  · exact h.comment hle
  · exact h.snippet hle

theorem Apart.isComment_chomped (h : d.Apart) :
    d.IsComment (Text.chomped line) ↔ d.IsComment line :=
  Text.prefix_chomped_iff (h.notMem_comment (.inr rfl))

theorem Apart.isPlain_chomped (h : d.Apart) : d.IsPlain (Text.chomped line) ↔ d.IsPlain line := by
  unfold IsPlain
  rw [Text.prefix_chomped_iff (h.notMem_comment (.inr rfl)),
    Text.prefix_chomped_iff (h.notMem_snippet (.inr rfl))]

/-- The rows with which a snippet is written, also those of an empty text with no line. -/
theorem CanHold.rows {entry : String × Snippet} {text : List String} (h : d.CanHold entry)
    (htext : text = Text.rows entry.2.text ∨ entry.2.text = "" ∧ text = []) :
    ∀ row ∈ text, d.IsPlain row ∧ row.toList.getLast? ≠ some '\r' := by
  rcases htext with rfl | ⟨-, rfl⟩
  · exact h.2
  · exact List.forall_mem_nil _

end Delimiters

namespace Templates

variable {d : Delimiters} {line name : String} {cs rest : List Char} {text body file : List String}
  {entries : List (String × Snippet)} {r : Reading}

/-! ## What a line is -/

theorem behind?_eq_some {delimiter : List Char} :
    behind? delimiter cs = some rest ↔ cs = delimiter ++ rest := by
  induction delimiter generalizing cs with
  | nil => simp [behind?, eq_comm]
  | cons b bs ih =>
    cases cs with
    | nil => simp [behind?]
    | cons c cs =>
      rw [behind?, List.cons_append, List.cons.injEq]
      split
      · next hbc => simp [ih, hbc]
      · next hbc => simp [Ne.symm hbc]

theorem behind?_isSome {delimiter : List Char} :
    (behind? delimiter cs).isSome = true ↔ delimiter <+: cs := by
  rw [Option.isSome_iff_exists]
  exact exists_congr fun rest => behind?_eq_some.trans eq_comm

theorem classify_comment (h : d.IsComment line) : Line.classify d line = .comment :=
  if_pos (behind?_isSome.2 h)

theorem classify_plain (h : d.IsPlain line) : Line.classify d line = .text := by
  have hnone : behind? d.snippet.toList line.toList = none := by
    rw [← Option.not_isSome_iff_eq_none, behind?_isSome]
    exact h.2
  unfold Line.classify
  dsimp only
  rw [if_neg (mt behind?_isSome.1 h.1), hnone]

/-- A line with the snippet delimiter, a word and a name. -/
theorem classify_markerLine (hd : d.Apart) {word : String} (hword : ∀ c ∈ word.toList, c ≠ ' ')
    (hname : Text.isName name.toList = true) :
    Line.classify d (d.markerLine word name) =
      if word = "START" then .start name else if word = "END" then .stop name else .bad := by
  have hline : (d.markerLine word name).toList =
      d.snippet.toList ++ ' ' :: (word.toList ++ ' ' :: name.toList) := by
    simp [Delimiters.markerLine]
  have hinside : ∀ c ∈ word.toList, (c != ' ') = true := fun c hc => bne_iff_ne.2 (hword c hc)
  have hdrop : (word.toList ++ ' ' :: name.toList).dropWhile (· != ' ') = ' ' :: name.toList :=
    dropWhile_stop hinside (by decide)
  have htake : (word.toList ++ ' ' :: name.toList).takeWhile (· != ' ') = word.toList :=
    takeWhile_stop hinside (by decide)
  unfold Line.classify
  dsimp only
  rw [if_neg (mt behind?_isSome.1 (hd.not_isComment hline)), behind?_eq_some.2 hline]
  simp only [Line.ofMarker, hdrop, htake, Text.trimEnd_of_isName hname, hname, String.ofList_toList,
    Bool.not_true, Bool.false_eq_true, if_false]

/-! ## Files -/

/-- The rows of a text, with comment lines between them. -/
inductive Commented (d : Delimiters) : List String → List String → Prop where
  | nil : Commented d [] []
  /-- A comment line. -/
  | comment {line : String} {text body : List String} (here : d.IsComment line)
      (single : '\n' ∉ line.toList) (behind : Commented d text body) :
      Commented d text (line :: body)
  /-- A row of the text. -/
  | row {line : String} {text body : List String} (behind : Commented d text body) :
      Commented d (line :: text) (line :: body)

/-- The rows of a file with the given snippets, in the order in which they stand. -/
inductive Written (d : Delimiters) : List (String × Snippet) → List String → Prop where
  | nil : Written d [] []
  /-- A comment line. -/
  | comment {line : String} {entries : List (String × Snippet)} {file : List String}
      (here : d.IsComment line) (single : '\n' ∉ line.toList) (behind : Written d entries file) :
      Written d entries (line :: file)
  /-- A line of no meaning. -/
  | plain {line : String} {entries : List (String × Snippet)} {file : List String}
      (here : d.IsPlain line) (single : '\n' ∉ line.toList) (behind : Written d entries file) :
      Written d entries (line :: file)
  /-- The block of a snippet. An empty text may be written with one empty line, or with none. -/
  | block {entry : String × Snippet} {text body : List String}
      {entries : List (String × Snippet)} {file : List String}
      (rows : text = Text.rows entry.2.text ∨ entry.2.text = "" ∧ text = [])
      (inside : Commented d text body) (behind : Written d entries file) :
      Written d (entry :: entries)
        (d.markerLine "START" entry.1 :: (body ++ d.markerLine "END" entry.1 :: file))

/-! ## Reading a file -/

theorem step_comment (h : d.IsComment line) :
    Reading.step d r line = .ok { r with number := r.number + 1 } := by
  simp only [Reading.step, classify_comment h]

theorem step_plain (h : d.IsPlain line) (hr : r.current = none) :
    Reading.step d r line = .ok { r with number := r.number + 1 } := by
  simp only [Reading.step, classify_plain h, hr]

theorem step_row {lines : List String} (h : d.IsPlain line) (hr : r.current = some (name, lines)) :
    Reading.step d r line =
      .ok { r with number := r.number + 1, current := some (name, line :: lines) } := by
  simp only [Reading.step, classify_plain h, hr]

theorem step_start (hd : d.Apart) (hname : Text.isName name.toList = true) (hr : r.current = none) :
    Reading.step d r (d.markerLine "START" name) =
      .ok { r with number := r.number + 1, current := some (name, []) } := by
  have hline : Line.classify d (d.markerLine "START" name) = .start name :=
    (classify_markerLine hd (by simp) hname).trans (if_pos rfl)
  simp only [Reading.step, hline, hr]

theorem step_stop {lines : List String} (hd : d.Apart) (hname : Text.isName name.toList = true)
    (hr : r.current = some (name, lines)) :
    Reading.step d r (d.markerLine "END" name) =
      .ok { number := r.number + 1, done := r.done.insert name (Snippet.ofLines lines.reverse),
            current := none } := by
  have hline : Line.classify d (d.markerLine "END" name) = .stop name :=
    (classify_markerLine hd (by simp) hname).trans ((if_neg (by decide)).trans (if_pos rfl))
  simp only [Reading.step, hline, hr, if_true]

/-- Inside a block the rows of the text are collected, the last one first. -/
theorem foldlM_commented (hd : d.Apart) {lines : List String}
    (hrows : ∀ row ∈ text, d.IsPlain row ∧ row.toList.getLast? ≠ some '\r')
    (h : Commented d text body) (hr : r.current = some (name, lines)) :
    ∃ number, (body.map Text.chomped).foldlM (Reading.step d) r =
      .ok { number := number, done := r.done, current := some (name, text.reverse ++ lines) } := by
  induction h generalizing r lines with
  | nil => exact ⟨r.number, by rw [List.reverse_nil, List.nil_append, ← hr]; rfl⟩
  | comment here _ _ ih =>
    rw [List.map_cons, List.foldlM_cons, step_comment (hd.isComment_chomped.2 here)]
    exact ih hrows hr
  | @row line text body _ ih =>
    obtain ⟨⟨hplain, hends⟩, hrows⟩ := List.forall_mem_cons.1 hrows
    rw [List.map_cons, List.foldlM_cons, Text.chomped_eq_self hends, step_row hplain hr,
      List.reverse_cons, List.append_assoc]
    exact ih hrows rfl

/-- A line that changes nothing is passed over, also as the last line of the file. -/
theorem foldlM_shown_cons {next : Reading}
    (hline : Reading.step d r line = .ok next)
    (hchomped : Reading.step d r (Text.chomped line) = .ok next)
    (hdone : next.done = r.done) (hcurrent : next.current = r.current) :
    ∃ r', r'.done = r.done ∧ r'.current = r.current ∧
      (Text.shown (line :: file)).foldlM (Reading.step d) r =
        (Text.shown file).foldlM (Reading.step d) r' := by
  cases file with
  | nil =>
    unfold Text.shown
    split
    · exact ⟨r, rfl, rfl, rfl⟩
    · exact ⟨next, hdone, hcurrent, by rw [List.foldlM_cons, hline]; rfl⟩
  | cons other rest =>
    exact ⟨next, hdone, hcurrent, by rw [Text.shown, List.foldlM_cons, hchomped]; rfl⟩

theorem chomped_markerLine {word : String} (hname : Text.isName name.toList = true) :
    Text.chomped (d.markerLine word name) = d.markerLine word name := by
  obtain ⟨front, c, hlast, hc⟩ := Text.exists_last_of_isName hname
  have hline : (d.markerLine word name).toList =
      (d.snippet ++ " " ++ word ++ " ").toList ++ front ++ [c] := by
    rw [Delimiters.markerLine, String.toList_append, hlast, List.append_assoc]
  refine Text.chomped_eq_self ?_
  rw [hline, List.getLast?_concat, ne_eq, Option.some.injEq]
  rintro rfl
  exact absurd hc (by decide)

theorem shown_markerLine {word : String} (hname : Text.isName name.toList = true)
    (file : List String) :
    Text.shown (d.markerLine word name :: file) = d.markerLine word name :: Text.shown file := by
  cases file with
  | nil =>
    refine if_neg fun hempty => ?_
    have hlength := congrArg String.length hempty
    simp [Delimiters.markerLine] at hlength
  | cons line file => rw [Text.shown, chomped_markerLine hname]

/-- The text of a snippet is made of the rows with which it is written. -/
theorem ofLines_of_rows {s : Snippet} (h : text = Text.rows s.text ∨ s.text = "" ∧ text = []) :
    Snippet.ofLines text = s := by
  obtain ⟨content⟩ := s
  rcases h with rfl | ⟨rfl, rfl⟩
  · exact congrArg Snippet.mk (Text.intercalate_rows content)
  · rfl

/-- Between the blocks of a file the snippets that have been read are in the map. -/
theorem foldlM_written (hd : d.Apart) (hheld : ∀ entry ∈ entries, d.CanHold entry)
    (h : Written d entries file) (hr : r.current = none) :
    ∃ number, (Text.shown file).foldlM (Reading.step d) r =
      .ok { number := number
            done := entries.foldl (fun m entry => m.insert entry.1 entry.2) r.done
            current := none } := by
  induction h generalizing r with
  | nil => exact ⟨r.number, by rw [← hr]; rfl⟩
  | comment here _ _ ih =>
    obtain ⟨r', hdone, hcurrent, hfold⟩ := foldlM_shown_cons (step_comment here)
      (step_comment (hd.isComment_chomped.2 here)) rfl rfl
    rw [hfold, ← hdone]
    exact ih hheld (hcurrent.trans hr)
  | plain here _ _ ih =>
    obtain ⟨r', hdone, hcurrent, hfold⟩ := foldlM_shown_cons (step_plain here hr)
      (step_plain (hd.isPlain_chomped.2 here) hr) rfl rfl
    rw [hfold, ← hdone]
    exact ih hheld (hcurrent.trans hr)
  | @block entry text body entries file htext inside _ ih =>
    obtain ⟨hentry, hheld⟩ := List.forall_mem_cons.1 hheld
    have hname := hentry.1
    obtain ⟨number, hbody⟩ := foldlM_commented hd
      (r := { r with number := r.number + 1, current := some (entry.1, []) })
      (hentry.rows htext) inside rfl
    obtain ⟨last, hrest⟩ := ih (r := ⟨number + 1, r.done.insert entry.1 entry.2, none⟩) hheld rfl
    have hlines : Snippet.ofLines (text.reverse ++ []).reverse = entry.2 := by
      rw [List.append_nil, List.reverse_reverse]
      exact ofLines_of_rows htext
    rw [shown_markerLine hname, Text.shown_append body (List.cons_ne_nil _ _),
      shown_markerLine hname, List.foldlM_cons]
    refine ⟨last, bind_of_ok (step_start hd hname hr) ?_⟩
    rw [List.foldlM_append]
    refine bind_of_ok hbody ?_
    rw [List.foldlM_cons]
    refine bind_of_ok (step_stop hd hname rfl) ?_
    rw [hlines]
    exact hrest

theorem notMem_markerLine (hd : d.Apart) {word : String} (hword : '\n' ∉ word.toList)
    (hname : Text.isName name.toList = true) : '\n' ∉ (d.markerLine word name).toList := by
  have hnot : '\n' ∉ name.toList := fun hmem =>
    absurd (Text.isNameChar_of_mem hname hmem) (by decide)
  simp [Delimiters.markerLine, hd.notMem_snippet (.inl rfl), hword, hnot]

/-- No row of a file goes on to a further line. -/
theorem Written.notMem (hd : d.Apart) (hheld : ∀ entry ∈ entries, d.CanHold entry)
    (h : Written d entries file) : ∀ line ∈ file, '\n' ∉ line.toList := by
  induction h with
  | nil => exact List.forall_mem_nil _
  | comment _ single _ ih | plain _ single _ ih => exact List.forall_mem_cons.2 ⟨single, ih hheld⟩
  | @block entry text body entries file htext inside _ ih =>
    obtain ⟨hentry, hheld⟩ := List.forall_mem_cons.1 hheld
    have hrows : ∀ row ∈ text, '\n' ∉ row.toList := by
      rcases htext with rfl | ⟨-, rfl⟩
      · exact fun row => Text.notMem_of_mem_rows
      · exact List.forall_mem_nil _
    have hbody : ∀ line ∈ body, '\n' ∉ line.toList := by
      clear htext
      induction inside with
      | nil => exact List.forall_mem_nil _
      | comment _ single _ ih => exact List.forall_mem_cons.2 ⟨single, ih hrows⟩
      | row _ ih =>
        obtain ⟨hline, hrows⟩ := List.forall_mem_cons.1 hrows
        exact List.forall_mem_cons.2 ⟨hline, ih hrows⟩
    refine List.forall_mem_cons.2 ⟨notMem_markerLine hd (by decide) hentry.1, ?_⟩
    refine List.forall_mem_append.2 ⟨hbody, ?_⟩
    exact List.forall_mem_cons.2 ⟨notMem_markerLine hd (by decide) hentry.1, ih hheld⟩

/-- A file that is written for some snippets, in any order, is read as exactly these. The rows are
separated by line feeds; a line feed at the end of the file is an empty last row. -/
theorem ofText_written (hd : d.Apart) {t : Templates} (ht : ∀ entry ∈ t.entries, d.CanHold entry)
    (horder : entries.Perm t.entries) (h : Written d entries file) :
    ofText ("\n".intercalate file) d = .ok t := by
  have hheld : ∀ entry ∈ entries, d.CanHold entry := fun entry hmem =>
    ht entry (horder.mem_iff.1 hmem)
  obtain ⟨number, hread⟩ := foldlM_written hd hheld h (r := Reading.start) rfl
  rw [ofText, Text.lines_intercalate (h.notMem hd hheld)]
  refine bind_of_ok hread ?_
  exact congrArg Except.ok (NameMap.foldl_insert_entries horder)

/-- Two snippets in the other order than that of their names, one of them with an empty first and an
empty last row and a comment inside. -/
theorem ofText_written_greeting :
    ofText ("\n".intercalate ["//// greetings", "not read", "///< START greet", "", "hello $who",
        "//// the last row is empty", "", "///< END greet", "///< START empty", "///< END empty",
        ""]) .slashes =
      .ok ((NameMap.empty.insert "empty" ⟨""⟩).insert "greet" ⟨"\nhello $who\n"⟩) := by
  have horder : List.Perm [("greet", (⟨"\nhello $who\n"⟩ : Snippet)), ("empty", ⟨""⟩)]
      [("empty", ⟨""⟩), ("greet", ⟨"\nhello $who\n"⟩)] := List.Perm.swap _ _ _
  have greet : Commented .slashes (Text.rows "\nhello $who\n")
      ["", "hello $who", "//// the last row is empty", ""] := by
    refine .row (.row (.comment (by unfold Delimiters.IsComment; decide) (by decide) ?_))
    exact .row .nil
  refine ofText_written ⟨by simp [Delimiters.slashes], by decide, by decide⟩ ?_ horder ?_
  · unfold Delimiters.CanHold Delimiters.IsPlain
    decide +kernel
  · refine .comment (by unfold Delimiters.IsComment; decide) (by decide) ?_
    refine .plain (by unfold Delimiters.IsPlain; decide) (by decide) ?_
    refine @Written.block _ ("greet", _) _ _ _ _ (.inl rfl) greet ?_
    refine @Written.block _ ("empty", _) [] [] _ _ (.inr ⟨rfl, rfl⟩) .nil ?_
    exact .plain (by unfold Delimiters.IsPlain; decide) (by decide) .nil

end Templates

end ProofScript
