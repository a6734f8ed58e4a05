import ProofScript.Proofs.Text.Copies
import ProofScript.Text.Split

/-!
# Lines put together and taken apart

A text has two kinds of lines. Its rows stand between its line feeds, so that the text is its rows
put together again (`intercalate_rows`); its lines are what a reader of files sees, for whom a
carriage return belongs to the ending of a line and an empty last line does not count.
`lines_intercalate` says which lines a file has that is put together from rows, and `mem_lines_iff`
where a line stands in its text.
-/

namespace ProofScript.Text

variable {cs : List Char} {s line : String} {file : List String}

/-! ## Rows -/

/-- The parts of a text between its line feeds. -/
def rows (s : String) : List String := (pieces (· == '\n') s.toList).map String.ofList

theorem pieces_ne_nil (cs : List Char) : pieces (· == '\n') cs ≠ [] := by
  cases cs with
  | nil => exact List.cons_ne_nil _ _
  | cons c cs =>
    unfold pieces
    split
    · exact List.cons_ne_nil _ _
    · split <;> exact List.cons_ne_nil _ _

/-- A text is its rows with line feeds between them. -/
theorem intercalate_rows (s : String) : "\n".intercalate (rows s) = s := by
  suffices general : ∀ cs : List Char,
      "\n".intercalate ((pieces (· == '\n') cs).map String.ofList) = String.ofList cs by
    rw [rows, general, String.ofList_toList]
  intro cs
  induction cs with
  | nil => rfl
  | cons c cs ih =>
    obtain ⟨row, rest, hpieces⟩ := List.exists_cons_of_ne_nil (pieces_ne_nil cs)
    rw [hpieces, List.map_cons] at ih
    unfold pieces
    split
    · next hc =>
      obtain rfl : c = '\n' := by simpa using hc
      rw [hpieces, List.map_cons, List.map_cons, String.intercalate_cons_cons, ih]
      exact String.toList_injective (by simp)
    · rw [hpieces]
      cases rest with
      | nil =>
        obtain rfl : row = cs := String.ofList_injective (by simpa using ih)
        rfl
      | cons next rest =>
        rw [List.map_cons, String.intercalate_cons_cons] at ih
        show "\n".intercalate (String.ofList (c :: row) :: String.ofList next :: _) = _
        rw [String.intercalate_cons_cons]
        have hcs := congrArg String.toList ih
        refine String.toList_injective ?_
        simpa using hcs

theorem notMem_of_mem_rows (h : line ∈ rows s) : '\n' ∉ line.toList := by
  suffices general : ∀ cs : List Char, ∀ row ∈ pieces (· == '\n') cs, '\n' ∉ row by
    obtain ⟨row, hrow, rfl⟩ := List.mem_map.1 h
    rw [String.toList_ofList]
    exact general _ row hrow
  intro cs
  induction cs with
  | nil => simp [pieces]
  | cons c cs ih =>
    obtain ⟨first, rest, hpieces⟩ := List.exists_cons_of_ne_nil (pieces_ne_nil cs)
    rw [hpieces] at ih
    obtain ⟨hfirst, hrest⟩ := List.forall_mem_cons.1 ih
    unfold pieces
    split
    · rw [hpieces]
      exact List.forall_mem_cons.2 ⟨List.not_mem_nil, ih⟩
    · next hc =>
      rw [hpieces]
      refine List.forall_mem_cons.2 ⟨?_, hrest⟩
      have hne : '\n' ≠ c := by
        rintro rfl
        exact hc rfl
      exact List.not_mem_cons_of_ne_of_not_mem hne hfirst

/-! ## Lines -/

/-- A line without the carriage return that belongs to its ending. -/
def chomped (line : String) : String := String.ofList (dropReturn line.toList.reverse).reverse

/-- A line is cut by a carriage return or not at all. -/
theorem exists_chomped (line : String) :
    ∃ ending, (ending = [] ∨ ending = ['\r']) ∧ line.toList = (chomped line).toList ++ ending := by
  obtain ⟨ending, hending, hline⟩ := Copies.reverse_dropReturn line.toList.reverse
  rw [List.reverse_reverse] at hline
  exact ⟨ending, hending, by rw [chomped, String.toList_ofList, ← hline]⟩

theorem chomped_eq_self (h : line.toList.getLast? ≠ some '\r') : chomped line = line := by
  obtain ⟨ending, rfl | rfl, hline⟩ := exists_chomped line
  · exact String.toList_injective (by simp [hline])
  · rw [hline] at h
    simp at h

/-- Without its carriage return a line starts as before, up to a carriage return. -/
theorem prefix_chomped_iff (h : '\r' ∉ cs) : cs <+: (chomped line).toList ↔ cs <+: line.toList := by
  obtain ⟨ending, rfl | rfl, hline⟩ := exists_chomped line
  · rw [hline, List.append_nil]
  · rw [hline, List.prefix_concat_iff]
    refine ⟨.inr, fun hcs => hcs.resolve_left ?_⟩
    rintro rfl
    simp at h

/-- What a reader of files sees of the rows of a file. -/
def shown : List String → List String
  | [] => []
  | [line] => if line = "" then [] else [line]
  | line :: next :: rest => chomped line :: shown (next :: rest)

theorem shown_append (before : List String) {after : List String} (h : after ≠ []) :
    shown (before ++ after) = before.map chomped ++ shown after := by
  induction before with
  | nil => rfl
  | cons line before ih =>
    obtain ⟨next, rest, hrest⟩ :=
      List.exists_cons_of_ne_nil (List.append_ne_nil_of_right_ne_nil before h)
    rw [List.cons_append, List.map_cons, List.cons_append, ← ih, hrest]
    rfl

theorem linesFrom_newline {read rest : List Char} (h : '\n' ∉ cs) :
    linesFrom read (cs ++ '\n' :: rest) =
      String.ofList (dropReturn (cs.reverse ++ read)).reverse :: linesFrom [] rest := by
  induction cs generalizing read with
  | nil => rfl
  | cons c cs ih =>
    rw [List.mem_cons, not_or] at h
    rw [List.cons_append, linesFrom, ih h.2, List.reverse_cons, List.append_assoc]
    · rfl
    · exact Ne.symm h.1

theorem linesFrom_last {read : List Char} (h : '\n' ∉ cs) :
    linesFrom read cs =
      if read.reverse ++ cs = [] then [] else [String.ofList (read.reverse ++ cs)] := by
  induction cs generalizing read with
  | nil =>
    rw [linesFrom, List.append_nil]
    cases read <;> simp
  | cons c cs ih =>
    rw [List.mem_cons, not_or] at h
    rw [linesFrom, ih h.2, List.reverse_cons, List.append_assoc]
    · rfl
    · exact Ne.symm h.1

/-- The lines of a file that is put together from rows. -/
theorem lines_intercalate (h : ∀ line ∈ file, '\n' ∉ line.toList) :
    lines ("\n".intercalate file) = shown file := by
  induction file with
  | nil => rfl
  | cons line file ih =>
    obtain ⟨hline, hfile⟩ := List.forall_mem_cons.1 h
    cases file with
    | nil =>
      rw [String.intercalate_singleton, lines, linesFrom_last hline]
      by_cases hempty : line = "" <;> simp [shown, hempty]
    | cons next rest =>
      have htext : ("\n".intercalate (line :: next :: rest)).toList =
          line.toList ++ '\n' :: ("\n".intercalate (next :: rest)).toList := by
        rw [String.intercalate_cons_cons]
        simp
      rw [lines, htext, linesFrom_newline hline, List.append_nil, shown, ← ih hfile]
      rfl

/-! ## Where a line stands -/

/-- A line starts behind the given characters: at the start of the text or behind a line feed. -/
def LineStarts (before : List Char) : Prop := before = [] ∨ before.getLast? = some '\n'

/-- A line ends in front of the given characters. -/
inductive LineEnds (line : List Char) : List Char → Prop where
  /-- It ends at a line feed. -/
  | feed {behind : List Char} (h : line.getLast? ≠ some '\r') : LineEnds line ('\n' :: behind)
  /-- It ends at a carriage return and a line feed. -/
  | returnFeed {behind : List Char} : LineEnds line ('\r' :: '\n' :: behind)
  /-- It ends with the text; an empty line does not count there. -/
  | text (h : line ≠ []) : LineEnds line []

/-- A line stands behind the characters `before` of a text. -/
structure LineAt (text before : List Char) (line : String) : Prop where
  /-- A line starts there. -/
  starts : LineStarts before
  /-- It is a single line. -/
  whole : '\n' ∉ line.toList
  /-- It goes on to where it ends. -/
  ends : ∃ behind, text = before ++ (line.toList ++ behind) ∧ LineEnds line.toList behind

theorem LineStarts.of_append {front before : List Char} (h : LineStarts (front ++ before)) :
    LineStarts before := by
  cases hlast : before.getLast? with
  | none => exact .inl (List.getLast?_eq_none_iff.1 hlast)
  | some c =>
    refine .inr (hlast.trans ?_)
    rcases h with hnil | hnewline
    · simp [(List.append_eq_nil_iff.1 hnil).2] at hlast
    · rwa [List.getLast?_append, hlast] at hnewline

theorem LineStarts.append {before : List Char} (h : LineStarts before) (front : List Char) :
    LineStarts (front ++ '\n' :: before) := by
  refine .inr ?_
  rw [List.getLast?_append, List.getLast?_cons]
  rcases h with rfl | hnewline
  · rfl
  · rw [hnewline]
    rfl

/-- A line ends with a carriage return or it is not cut. -/
theorem chomped_cases (line : String) :
    (line.toList.getLast? ≠ some '\r' ∧ chomped line = line) ∨
      line.toList = (chomped line).toList ++ ['\r'] := by
  by_cases hlast : line.toList.getLast? = some '\r'
  · obtain ⟨front, hfront⟩ := List.getLast?_eq_some_iff.1 hlast
    refine .inr ?_
    rw [chomped, hfront, String.toList_ofList, List.reverse_append, List.reverse_singleton,
      List.singleton_append, dropReturn, List.reverse_reverse]
  · exact .inl ⟨hlast, chomped_eq_self hlast⟩

/-- A character of a text in two parts stands in the first part or in the second one. -/
theorem cut_first_or_second {first second before behind : List Char} {c : Char}
    (h : first ++ second = before ++ c :: behind) :
    (∃ part, first = before ++ c :: part) ∨
      ∃ part, before = first ++ part ∧ second = part ++ c :: behind := by
  rcases List.append_eq_append_iff.1 h with hsecond | ⟨part, rfl, hpart⟩
  · exact .inr hsecond
  · cases part with
    | nil => exact .inr ⟨[], by simp, hpart.symm⟩
    | cons d part =>
      obtain ⟨rfl, -⟩ := List.cons.inj hpart
      exact .inl ⟨part, rfl⟩

theorem append_newline_inj {front front' rest rest' : List Char} (h : '\n' ∉ front)
    (h' : '\n' ∉ front') (heq : front ++ '\n' :: rest = front' ++ '\n' :: rest') :
    front = front' ∧ rest = rest' := by
  rcases cut_first_or_second heq with ⟨part, rfl⟩ | ⟨part, rfl, hrest⟩
  · simp at h
  · cases part with
    | nil => exact ⟨by simp, (List.cons.inj hrest).2⟩
    | cons c part =>
      obtain ⟨rfl, -⟩ := List.cons.inj hrest
      simp at h'

namespace LineAt

variable {text before : List Char}

/-- A line at the start of a text is its first row without the carriage return. -/
theorem eq_chomped {row rest behind : List Char} (h : '\n' ∉ row) (hwhole : '\n' ∉ line.toList)
    (htext : row ++ '\n' :: rest = line.toList ++ behind) (hends : LineEnds line.toList behind) :
    line = chomped (String.ofList row) := by
  cases hends with
  | feed hreturn =>
    obtain ⟨rfl, -⟩ := append_newline_inj h hwhole htext
    rw [String.ofList_toList, chomped_eq_self hreturn]
  | @returnFeed behind =>
    have hwhole' : '\n' ∉ line.toList ++ ['\r'] := by simpa using hwhole
    have hsplit : row ++ '\n' :: rest = line.toList ++ ['\r'] ++ '\n' :: behind := by
      simpa using htext
    obtain ⟨rfl, -⟩ := append_newline_inj h hwhole' hsplit
    simp [chomped, dropReturn]
  | text =>
    rw [List.append_nil] at htext
    simp [← htext] at hwhole

theorem first {row : List Char} (h : '\n' ∉ row) (rest : List Char) :
    LineAt (row ++ '\n' :: rest) [] (chomped (String.ofList row)) := by
  rcases chomped_cases (String.ofList row) with ⟨hreturn, hline⟩ | hline
  · rw [hline]
    exact ⟨.inl rfl, by simpa using h, '\n' :: rest, by simp, .feed hreturn⟩
  · rw [String.toList_ofList] at hline
    have hwhole : '\n' ∉ (chomped (String.ofList row)).toList := by
      intro hmem
      rw [hline] at h
      exact h (List.mem_append_left _ hmem)
    refine ⟨.inl rfl, hwhole, '\r' :: '\n' :: rest, ?_, .returnFeed⟩
    conv_lhs => rw [hline]
    simp

/-- The lines of a text that has a line feed: the first one, and those behind the line feed. -/
theorem iff_of_feed {row rest : List Char} (h : '\n' ∉ row) :
    LineAt (row ++ '\n' :: rest) before line ↔
      (before = [] ∧ line = chomped (String.ofList row)) ∨
        ∃ before', before = row ++ '\n' :: before' ∧ LineAt rest before' line := by
  constructor
  · rintro ⟨rfl | hlast, hwhole, behind, htext, hends⟩
    · exact .inl ⟨rfl, eq_chomped h hwhole htext hends⟩
    · refine .inr ?_
      obtain ⟨front, before', rfl, hfront⟩ :=
        List.eq_append_cons_of_mem (List.mem_of_getLast? hlast)
      rw [List.append_assoc, List.cons_append] at htext
      obtain ⟨rfl, rfl⟩ := append_newline_inj h hfront htext
      have hstarts : LineStarts ((row ++ ['\n']) ++ before') := .inr (by simpa using hlast)
      exact ⟨before', rfl, hstarts.of_append, hwhole, behind, rfl, hends⟩
  · rintro (⟨rfl, rfl⟩ | ⟨before', rfl, hstarts, hwhole, behind, rfl, hends⟩)
    · exact first h rest
    · exact ⟨hstarts.append row, hwhole, behind, by simp, hends⟩

/-- The line of a text without a line feed. -/
theorem iff_of_last (h : '\n' ∉ text) :
    LineAt text before line ↔ before = [] ∧ line.toList = text ∧ text ≠ [] := by
  constructor
  · rintro ⟨hstarts, -, behind, rfl, hends⟩
    rw [List.mem_append, List.mem_append, not_or, not_or] at h
    obtain rfl : before = [] := hstarts.resolve_right fun hlast => h.1 (List.mem_of_getLast? hlast)
    cases hends with
    | feed | returnFeed => simp at h
    | text hne => simpa using hne
  · rintro ⟨rfl, rfl, hne⟩
    exact ⟨.inl rfl, h, [], by simp, .text hne⟩

end LineAt

/-- The lines of a text are those that stand somewhere in it. -/
theorem mem_lines_iff : line ∈ lines s ↔ ∃ before, LineAt s.toList before line := by
  suffices general : ∀ (size : Nat) (cs : List Char), cs.length = size →
      (line ∈ linesFrom [] cs ↔ ∃ before, LineAt cs before line) from
    general _ s.toList rfl
  intro size
  induction size using Nat.strongRecOn with
  | ind size ih =>
    rintro cs rfl
    by_cases hcs : '\n' ∈ cs
    · obtain ⟨row, rest, rfl, hrow⟩ := List.eq_append_cons_of_mem hcs
      have hrest := ih rest.length (by simp; omega) rest rfl
      rw [linesFrom_newline hrow, List.append_nil, List.mem_cons, hrest]
      simp only [LineAt.iff_of_feed hrow, chomped, String.toList_ofList]
      constructor
      · rintro (rfl | ⟨before, hline⟩)
        · exact ⟨[], .inl ⟨rfl, rfl⟩⟩
        · exact ⟨_, .inr ⟨before, rfl, hline⟩⟩
      · rintro ⟨before, ⟨-, rfl⟩ | ⟨before', -, hline⟩⟩
        · exact .inl rfl
        · exact .inr ⟨before', hline⟩
    · rw [linesFrom_last hcs]
      simp only [LineAt.iff_of_last hcs]
      constructor
      · intro h
        split at h
        · cases h
        · next hne =>
          obtain rfl := List.mem_singleton.1 h
          exact ⟨[], rfl, by simp, hne⟩
      · rintro ⟨before, -, rfl, hne⟩
        rw [List.reverse_nil, List.nil_append, if_neg hne, String.ofList_toList]
        exact List.mem_singleton_self line

end ProofScript.Text
