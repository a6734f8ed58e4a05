import ProofScript.Proofs.Token.Scans

/-!
# Layout

The tokens of a text leave gaps, which hold blanks and comments. `Relaid` relates a text to those
that are made from it by replacing gaps. The tokens of such a text are of the same kinds
(`Relaid.scans`): a new gap starts with a blank, so that it neither joins the token in front of it
nor opens a comment with it, and it ends where a token may start.
-/

namespace ProofScript.Token

/-- Blanks, and comments that are ended by a new line. -/
inductive Layout : List Char → Prop where
  /-- Nothing more. -/
  | nothing : Layout []
  /-- A blank. -/
  | blank {c : Char} {cs : List Char} (here : isSpace c = true) (behind : Layout cs) :
      Layout (c :: cs)
  /-- A comment and the new line that ends it. -/
  | comment {line cs : List Char} (here : '\n' ∉ line) (behind : Layout cs) :
      Layout ('/' :: '/' :: (line ++ '\n' :: cs))

/-- A gap is left as it is, or replaced by a layout that starts with a blank. -/
def Respaced (gap gap' : List Char) : Prop :=
  gap' = gap ∨ ∃ c cs, isSpace c = true ∧ Layout cs ∧ gap' = c :: cs

/-- The text that starts at `offset` and has the given tokens, and a text with the same tokens where
gaps have been replaced. -/
inductive Relaid : Nat → List Token → List Char → List Char → Prop where
  /-- In front of the end of the text there is a last gap. -/
  | ends {offset : Nat} {t : Token} {gap gap' : List Char} (here : Respaced gap gap') :
      Relaid offset [t] gap gap'
  /-- In front of any other token there is a gap, too. -/
  | token {offset : Nat} {t : Token} {ts : List Token} {gap gap' text rest rest' : List Char}
      (here : Respaced gap gap') (place : t.span = ⟨offset + width gap, width text⟩)
      (behind : Relaid (offset + width gap + width text) ts rest rest') :
      Relaid offset (t :: ts) (gap ++ (text ++ rest)) (gap' ++ (text ++ rest'))

variable {offset : Nat} {t : Token} {ts : List Token} {c : Char}
  {cs ds as bs gap gap' text rest r : List Char} {ks : List Kind}

/-! ## Gaps -/

theorem Layout.scans (h : Layout cs) (hr : Scans r ks) : Scans (cs ++ r) ks := by
  induction h with
  | nothing => exact hr
  | blank hc _ ih => exact ih.space hc
  | comment hline _ ih =>
    have hcomment := (ih.space (s := '\n') rfl).comment hline (by simp)
    simpa using hcomment

theorem Respaced.scans (h : Respaced gap gap') (hgap : Scans (gap ++ r) ks) (hr : Scans r ks) :
    Scans (gap' ++ r) ks := by
  rcases h with rfl | ⟨c, cs, hc, hlayout, rfl⟩
  · exact hgap
  · exact (hlayout.scans hr).space hc

theorem Relaid.resembles (h : Relaid offset ts cs ds) : Resembles cs ds := by
  induction h with
  | ends hgap =>
    rcases hgap with rfl | ⟨c, cs, hc, -, rfl⟩
    · exact .inl rfl
    · exact .inr ⟨[], c, cs, List.nil_prefix, hc, rfl⟩
  | @token offset t ts gap gap' text rest rest' hgap _ _ ih =>
    rcases hgap with rfl | ⟨c, cs, hc, -, rfl⟩
    · rcases ih with rfl | ⟨front, s, after, hfront, hs, rfl⟩
      · exact .inl rfl
      · refine .inr ⟨gap' ++ (text ++ front), s, after, ?_, hs, by simp only [List.append_assoc]⟩
        rwa [List.prefix_append_right_inj, List.prefix_append_right_inj]
    · exact .inr ⟨[], c, _, List.nil_prefix, hc, rfl⟩

/-! ## Where a token stands -/

theorem width_nil : width [] = 0 := rfl

theorem width_cons (c : Char) (cs : List Char) : width (c :: cs) = c.utf8Size + width cs := by
  have hfold : ∀ size, cs.foldl (fun size c => size + c.utf8Size) size =
      size + cs.foldl (fun size c => size + c.utf8Size) 0 := by
    induction cs with
    | nil => exact fun size => rfl
    | cons d cs ih =>
      intro size
      rw [List.foldl_cons, List.foldl_cons, ih, ih (0 + d.utf8Size), Nat.zero_add, Nat.add_assoc]
  rw [width, List.foldl_cons, hfold, Nat.zero_add, width]

theorem width_append (as bs : List Char) : width (as ++ bs) = width as + width bs := by
  induction as with
  | nil => rw [List.nil_append, width_nil, Nat.zero_add]
  | cons a as ih => rw [List.cons_append, width_cons, width_cons, ih, Nat.add_assoc]

/-- A place in a text is found by its offset. -/
theorem append_inj_of_width (h : as ++ cs = bs ++ ds) (hwidth : width as = width bs) :
    as = bs ∧ cs = ds := by
  have hpos : ∀ (x : Char) (xs : List Char), width (x :: xs) ≠ width [] := by
    intro x xs
    have hx := x.utf8Size_pos
    rw [width_cons, width_nil]
    omega
  induction as generalizing bs with
  | nil =>
    cases bs with
    | nil => exact ⟨rfl, h⟩
    | cons b bs => exact absurd hwidth.symm (hpos b bs)
  | cons a as ih =>
    cases bs with
    | nil => exact absurd hwidth (hpos a as)
    | cons b bs =>
      obtain ⟨rfl, hrest⟩ := List.cons.inj h
      rw [width_cons, width_cons, Nat.add_left_cancel_iff] at hwidth
      obtain ⟨rfl, hbehind⟩ := ih hrest hwidth
      exact ⟨rfl, hbehind⟩

/-- The first token of a text: the gap in front of it, its text, and the rest. -/
structure First (offset : Nat) (cs : List Char) (t : Token) (ts : List Token)
    (gap text rest : List Char) : Prop where
  /-- The parts are the text. -/
  split : cs = gap ++ (text ++ rest)
  /-- The token stands behind the gap. -/
  place : t.span = ⟨offset + width gap, width text⟩
  /-- The token has a text. -/
  nonempty : text ≠ []
  /-- The other tokens are those of the rest. -/
  behind : scanFrom (offset + width gap + width text) rest = .ok ts
  /-- The token stays the same when the rest changes behind a blank. -/
  token : ∀ {r ks}, Resembles rest r → Scans r ks → Scans (text ++ r) (t.kind :: ks)
  /-- The gap stays a gap. -/
  gap : ∀ {r ks}, Scans (text ++ r) ks → Scans (gap ++ (text ++ r)) ks

theorem exists_first (h : scanFrom offset cs = .ok (t :: ts)) (hts : ts ≠ []) :
    ∃ gap text rest, First offset cs t ts gap text rest := by
  refine scanFrom_induct (motive := fun offset cs us => us = t :: ts →
    ∃ gap text rest, First offset cs t ts gap text rest) (fun offset hall => ?_) ?_ h rfl
  · exact absurd (List.cons.inj hall).2.symm hts
  intro offset c cs l us here hus ih hall
  have htext := lexeme?_text_ne_nil (lexeme?_of_starts here)
  cases hk : l.kind with
  | some k =>
    rw [hk] at hall
    obtain ⟨rfl, rfl⟩ := List.cons.inj hall
    exact ⟨[], l.text, l.rest, here.append.symm, rfl, htext, hus,
      fun hr hs => hs.token here hk hr, fun hs => hs⟩
  | none =>
    rw [hk] at hall
    obtain ⟨gap, text, rest, first⟩ := ih hall
    refine ⟨l.text ++ gap, text, rest, ?_, ?_, first.nonempty, ?_, first.token, ?_⟩
    · rw [← here.append, first.split, List.append_assoc]
    · rw [first.place, width_append, Nat.add_assoc]
    · rw [width_append, ← Nat.add_assoc]
      exact first.behind
    · intro r ks hs
      rw [List.append_assoc]
      refine (first.gap hs).skipped here hk (.inl ?_)
      obtain ⟨x, text', rfl⟩ := List.exists_cons_of_ne_nil first.nonempty
      rw [first.split]
      cases gap <;> rfl

/-! ## The whole text -/

/-- Every gap may be left as it is. -/
theorem relaid_self (h : scanFrom offset cs = .ok ts) : Relaid offset ts cs cs := by
  induction ts generalizing offset cs with
  | nil =>
    obtain ⟨front, hkinds, -⟩ := (scans_of_scanFrom h).kinds
    simp at hkinds
  | cons t ts ih =>
    by_cases hts : ts = []
    · subst hts
      exact .ends (.inl rfl)
    · obtain ⟨gap, text, rest, first⟩ := exists_first h hts
      obtain rfl := first.split
      exact .token (.inl rfl) first.place (ih first.behind)

/-- A text with other gaps has the same tokens. -/
theorem Relaid.scans (h : Relaid offset ts cs ds) (hscan : scanFrom offset cs = .ok ts) :
    Scans ds (ts.map Token.kind) := by
  induction h with
  | @ends offset t gap gap' hgap =>
    have hall := scans_of_scanFrom hscan
    obtain ⟨front, hkinds, -⟩ := hall.kinds
    have hend : t.kind = .eof := by simpa using congrArg List.getLast? hkinds
    rw [List.map_singleton, hend] at hall ⊢
    rw [← List.append_nil gap] at hall
    have hnew := hgap.scans hall .ended
    rwa [List.append_nil] at hnew
  | @token offset t ts gap gap' text rest rest' hgap hplace hbehind ih =>
    have hts : ts ≠ [] := by
      rintro rfl
      cases hbehind
    obtain ⟨gap₁, text₁, rest₁, first⟩ := exists_first hscan hts
    obtain ⟨hgapWidth, htextWidth⟩ := Span.mk.inj (hplace.symm.trans first.place)
    obtain ⟨rfl, hsplit⟩ := append_inj_of_width first.split (Nat.add_left_cancel hgapWidth)
    obtain ⟨rfl, rfl⟩ := append_inj_of_width hsplit htextWidth
    have hnew := first.token hbehind.resembles (ih first.behind)
    exact hgap.scans (first.gap hnew) hnew

end ProofScript.Token
