import ProofScript.Proofs.Token.Verbatim

/-!
# Printed tokens

Tokens of every kind are written with single blanks between them and scanned back
(`scan_written`). A verbatim block stands between its braces, and what it holds is kept character by
character when its own braces are well nested.
-/

namespace ProofScript.Token

/-! ## Verbatim blocks -/

variable {cs r : List Char} {k : Kind} {ks : List Kind}

/-- A well nested text is the body of a verbatim block, whatever comes behind the block. -/
theorem verbatimBody?_of_wellNested (h : WellNested cs) :
    verbatimBody? 3 [] (cs ++ (verbatimClose ++ r)) = some (cs, r) := by
  rw [← List.append_assoc]
  exact verbatimBody?_eq_some_iff.2 (.of_wellNested h r)

theorem cutsOff_verbatim {text : String} (h : WellNested text.toList) :
    CutsOff (.verbatim text) (verbatimOpen ++ text.toList ++ verbatimClose) := by
  intro rest hrest
  have hlex := lexeme?_of_starts (.verbatim (verbatimBody?_of_wellNested (r := rest) h))
  refine ⟨'{', _, _, ?_, by decide, hlex, ?_, rfl⟩
  · simp [verbatimOpen]
  · simp

/-! ## Written tokens -/

/-- How a token is written, a verbatim block with its braces. -/
def Kind.written : Kind → String
  | verbatim text => String.ofList (verbatimOpen ++ text.toList ++ verbatimClose)
  | k => k.spelling

/-- Whether a token can be written: a name is no keyword, a number has no sign, and the braces in a
verbatim block are well nested. The end of a text is not written. -/
def Kind.isWritable : Kind → Bool
  | verbatim text => decide (WellNested text.toList)
  | k => k.isPlain

theorem cutsOff_of_isWritable (h : k.isWritable = true) : CutsOff k k.written.toList := by
  cases k with
  | verbatim text =>
    rw [Kind.written, String.toList_ofList]
    exact cutsOff_verbatim (of_decide_eq_true h)
  | keyword | symbol | name | number | eof => exact cutsOff_of_isPlain h

/-- A token that has been cut off in front of a blank is scanned in front of any such text. -/
theorem Scans.cutOff (h : Scans r ks) (hk : CutsOff k cs) (hr : AtBlank r) :
    Scans (cs ++ r) (k :: ks) := by
  obtain ⟨c, tail, l, htext, -, hl, hkind, hrest⟩ := hk r hr
  subst hrest
  have hall := Scans.lexeme (starts_of_lexeme? hl) h
  rwa [hkind, ← htext] at hall

/-- Tokens that are written with blanks between them are scanned back, however they are written. -/
theorem scans_separated {write : Kind → List Char} (h : ∀ k ∈ ks, CutsOff k (write k)) :
    Scans ([' '].intercalate (ks.map write)) (ks ++ [.eof]) := by
  induction ks with
  | nil => exact .ended
  | cons k ks ih =>
    obtain ⟨hk, hks⟩ := List.forall_mem_cons.1 h
    cases ks with
    | nil =>
      have hlast := Scans.ended.cutOff hk (.inl rfl)
      simpa using hlast
    | cons next ks =>
      have hrest := (ih hks).space (s := ' ') rfl
      have hall := hrest.cutOff hk (.inr ⟨_, rfl⟩)
      simpa using hall

theorem scan_separated {write : Kind → String} (h : ∀ k ∈ ks, CutsOff k (write k).toList) :
    ∃ ts, scan (" ".intercalate (ks.map write)) = .ok ts ∧ ts.map Token.kind = ks ++ [.eof] := by
  have htext : (" ".intercalate (ks.map write)).toList =
      [' '].intercalate (ks.map fun k => (write k).toList) := by
    simp [Function.comp_def]
  rw [scan, htext]
  exact (scans_separated h).scanFrom 0

/-- The scan of a text of plain tokens. -/
theorem scan_spellings (h : ∀ k ∈ ks, k.isPlain = true) :
    ∃ ts, scan (" ".intercalate (ks.map Kind.spelling)) = .ok ts ∧
      ts.map Token.kind = ks ++ [.eof] :=
  scan_separated fun k hk => cutsOff_of_isPlain (h k hk)

/-- Tokens that are written with blanks between them are scanned back, and what a verbatim block
holds is kept as it is. -/
theorem scan_written (h : ∀ k ∈ ks, k.isWritable = true) :
    ∃ ts, scan (" ".intercalate (ks.map Kind.written)) = .ok ts ∧
      ts.map Token.kind = ks ++ [.eof] :=
  scan_separated fun k hk => cutsOff_of_isWritable (h k hk)

/-- The text of the block begins and ends with braces, and holds what would be a comment. -/
theorem scan_written_braces :
    let ks : List Kind := [.keyword .new, .name "newer", .symbol .assign, .symbol .equal,
      .verbatim "\x7b\x7d // \"é\" \x7b\x7b ~\x7d\x7d", .symbol .openBrace, .number 0]
    (∀ k ∈ ks, k.isWritable = true) ∧
      ∃ ts, scan (" ".intercalate (ks.map Kind.written)) = .ok ts ∧
        ts.map Token.kind = ks ++ [.eof] := by
  intro ks
  have hks : ∀ k ∈ ks, k.isWritable = true := by decide +kernel +zetaReduce
  exact ⟨hks, scan_written hks⟩

end ProofScript.Token
