import ProofScript.Proofs.Grammar.Soundness
import ProofScript.Proofs.Token.Coverage

/-!
# Positions in a token list

The places that a reader has still in front of it are those of the tokens, one behind the other
(`Cursor.Placed`). A reader only goes on (`Grammar.behind_of_reads`), so what it reads stands behind
the position where it started and in front of the one where it stopped. What is read is put together
by joining spans, and the ends of a joined span are ends of its parts (`Span.Stands`).
-/

namespace ProofScript

/-! ## Spans between tokens -/

namespace Span

/-- A span starts where one of the spans `ss` does, and stops where one of them does. -/
def Bounded (ss : List Span) (s : Span) : Prop :=
  (∃ a ∈ ss, s.offset = a.offset) ∧ ∃ b ∈ ss, s.stop = b.stop

/-- A span covers another one. -/
def Contains (s t : Span) : Prop := s.offset ≤ t.offset ∧ t.stop ≤ s.stop

/-- A span with the ends of some spans `ss` lies between two offsets. -/
structure Stands (ss : List Span) (lo hi : Nat) (s : Span) : Prop where
  bounded : s.Bounded ss
  lo_le : lo ≤ s.offset
  le_hi : s.stop ≤ hi

variable {ss : List Span} {a b s t : Span} {lo lo' mid mid' hi hi' : Nat}

theorem offset_le_stop (s : Span) : s.offset ≤ s.stop := Nat.le_add_right _ _

theorem bounded_of_mem (h : s ∈ ss) : s.Bounded ss := ⟨⟨s, h, rfl⟩, s, h, rfl⟩

theorem Bounded.join (ha : a.Bounded ss) (hb : b.Bounded ss) : (a.join b).Bounded ss := by
  constructor
  · rw [join_offset]
    rcases min_choice a.offset b.offset with h | h
    · rw [h]
      exact ha.1
    · rw [h]
      exact hb.1
  · rw [join_stop]
    rcases max_choice a.stop b.stop with h | h
    · rw [h]
      exact ha.2
    · rw [h]
      exact hb.2

theorem contains_refl (s : Span) : s.Contains s := ⟨Nat.le_refl _, Nat.le_refl _⟩

theorem Contains.trans (h : s.Contains t) (ht : t.Contains a) : s.Contains a :=
  ⟨Nat.le_trans h.1 ht.1, Nat.le_trans ht.2 h.2⟩

theorem contains_join_left (a b : Span) : (a.join b).Contains a := by
  rw [Contains, join_offset, join_stop]
  omega

theorem contains_join_right (a b : Span) : (a.join b).Contains b := by
  rw [Contains, join_offset, join_stop]
  omega

/-- A joined span covers what stands between its two parts. -/
theorem contains_join (ha : a.offset ≤ t.offset) (hb : t.stop ≤ b.stop) :
    (a.join b).Contains t := by
  rw [Contains, join_offset, join_stop]
  omega

namespace Stands

theorem mono (h : s.Stands ss lo hi) (hlo : lo' ≤ lo) (hhi : hi ≤ hi') : s.Stands ss lo' hi' where
  bounded := h.bounded
  lo_le := Nat.le_trans hlo h.lo_le
  le_hi := Nat.le_trans h.le_hi hhi

theorem join (ha : a.Stands ss lo hi) (hb : b.Stands ss lo hi) : (a.join b).Stands ss lo hi where
  bounded := ha.bounded.join hb.bounded
  lo_le := by
    rw [join_offset]
    exact le_min ha.lo_le hb.lo_le
  le_hi := by
    rw [join_stop]
    exact max_le ha.le_hi hb.le_hi

theorem offset_le_hi (h : s.Stands ss lo hi) : s.offset ≤ hi := s.offset_le_stop.trans h.le_hi

/-- What stands between two offsets leaves room between them. -/
theorem le (h : s.Stands ss lo hi) : lo ≤ hi := h.lo_le.trans h.offset_le_hi

/-- A span and a later one. -/
theorem join_of_le (ha : a.Stands ss lo mid) (hb : b.Stands ss mid' hi) (h : mid ≤ mid') :
    (a.join b).Stands ss lo hi :=
  (ha.mono (Nat.le_refl _) (h.trans hb.le)).join (hb.mono (ha.le.trans h) (Nat.le_refl _))

end Stands

end Span

/-! ## Positions -/

namespace Cursor

/-- The places that are left at a position: those of the tokens, and the end of the text. -/
def places (c : Cursor) : List Span := c.tokens.map Token.span ++ [c.stop]

/-- The places that are left at a position are among the spans `ss`, one behind the other. -/
structure Placed (ss : List Span) (c : Cursor) : Prop where
  known : c.places ⊆ ss
  ordered : c.places.Pairwise fun s t => s.stop ≤ t.offset

variable {ss : List Span} {c c' : Cursor} {k : Token.Kind}

/-- A position further on in the same token list. -/
def Behind (c' c : Cursor) : Prop := c'.tokens <:+ c.tokens ∧ c'.stop = c.stop

theorem Behind.refl (c : Cursor) : c.Behind c := ⟨List.suffix_refl _, rfl⟩

theorem Behind.trans {c'' : Cursor} (h' : c''.Behind c') (h : c'.Behind c) : c''.Behind c :=
  ⟨h'.1.trans h.1, h'.2.trans h.2⟩

theorem behind_advance (c : Cursor) : c.advance.Behind c := ⟨List.tail_suffix _, rfl⟩

theorem behind_skipSemicolons (c : Cursor) : c.skipSemicolons.Behind c :=
  ⟨List.dropWhile_suffix _, rfl⟩

theorem Behind.places (h : c'.Behind c) : c'.places <:+ c.places := by
  rw [Cursor.places, Cursor.places, h.2]
  exact List.suffix_append_self_iff.2 (h.1.map _)

theorem places_advance (c : Cursor) : c.advance.places <:+ c.places := c.behind_advance.places

theorem places_skipSemicolons (c : Cursor) : c.skipSemicolons.places <:+ c.places :=
  c.behind_skipSemicolons.places

theorem span_mem_places (c : Cursor) : c.span ∈ c.places := by
  unfold span places
  cases c.tokens <;> simp

/-- The place of a token that is there comes first. -/
theorem places_of_kind (h : c.kind? = some k) : c.places = c.span :: c.advance.places := by
  unfold kind? at h
  unfold span places advance
  cases ht : c.tokens with
  | nil => simp [ht] at h
  | cons t ts => simp

namespace Placed

theorem span_mem (hc : c.Placed ss) : c.span ∈ ss := hc.known c.span_mem_places

theorem after (hc : c.Placed ss) (h : c'.places <:+ c.places) : c'.Placed ss where
  known := fun _ hs => hc.known (h.subset hs)
  ordered := hc.ordered.sublist h.sublist

theorem advance (hc : c.Placed ss) : c.advance.Placed ss := hc.after c.places_advance

/-- Building nodes changes no places. -/
theorem build {α : Type} (hc : c.Placed ss) {m : Numbering α} : (c.build m).2.Placed ss :=
  ⟨hc.known, hc.ordered⟩

/-- The next token stands in front of what is behind it. -/
theorem token (hc : c.Placed ss) (h : c.kind? = some k) :
    c.span.Stands ss c.span.offset c.advance.span.offset where
  bounded := Span.bounded_of_mem hc.span_mem
  lo_le := Nat.le_refl _
  le_hi := by
    have hordered := hc.ordered
    rw [places_of_kind h] at hordered
    exact (List.pairwise_cons.1 hordered).1 _ c.advance.span_mem_places

/-- A later position is further to the right. -/
theorem offset_le (hc : c.Placed ss) (h : c'.places <:+ c.places) :
    c.span.offset ≤ c'.span.offset := by
  have hmem : c'.span ∈ c.places := h.subset c'.span_mem_places
  cases hk : c.kind? with
  | none =>
    have htokens : c.tokens = [] := by simpa [kind?] using hk
    have hplaces : c.places = [c.span] := by simp [places, span, htokens]
    rw [hplaces, List.mem_singleton] at hmem
    rw [hmem]
  | some k =>
    have hordered := hc.ordered
    rw [places_of_kind hk] at hmem hordered
    rcases List.mem_cons.1 hmem with hsame | hlater
    · rw [hsame]
    · exact Nat.le_trans c.span.offset_le_stop ((List.pairwise_cons.1 hordered).1 _ hlater)

end Placed

end Cursor

/-- A reader starts with the places of all tokens. The end of the text is the last of them; it takes
no room, so that its place may be counted twice. -/
theorem Token.placed_start {source : String} {ts : List Token} (h : scan source = .ok ts) :
    (Cursor.start ts).Placed (ts.map Token.span) := by
  have hcovering := covering_of_scan h
  obtain ⟨front, hts, -⟩ := hcovering.ended
  let last : Token := ⟨.eof, ⟨source.utf8ByteSize, 0⟩⟩
  have hplaces : (Cursor.start ts).places = ts.map Token.span ++ [last.span] := by
    simp [Cursor.places, Cursor.start, hts, last]
  have hlast : last ∈ ts := by simp [hts, last]
  have hordered : ts.Pairwise fun t u => t.span.stop ≤ u.span.offset :=
    hcovering.ordered.imp And.right
  constructor
  · rw [hplaces]
    exact List.append_subset.2 ⟨List.Subset.refl _, by simpa using ⟨last, hlast, rfl⟩⟩
  · rw [hplaces, List.pairwise_append, List.pairwise_map]
    refine ⟨hordered, List.pairwise_singleton _ _, ?_⟩
    rw [List.forall_mem_map]
    intro t ht s hs
    obtain rfl := List.mem_singleton.1 hs
    rw [hts] at ht hordered
    rcases List.mem_append.1 ht with ht | ht
    · exact (List.pairwise_append.1 hordered).2.2 t ht last List.mem_cons_self
    · obtain rfl := List.mem_singleton.1 ht
      exact Nat.le_refl _

namespace Grammar

/-! ## Readers only go on -/

theorem behind_of_iterate {c c' : Cursor} (h : ∃ k, c' = Cursor.advance^[k] c) : c'.Behind c := by
  obtain ⟨k, rfl⟩ := h
  induction k with
  | zero => exact .refl _
  | succ k ih =>
    rw [Function.iterate_succ_apply']
    exact (Cursor.behind_advance _).trans ih

theorem places_of_iterate {c c' : Cursor} (h : ∃ k, c' = Cursor.advance^[k] c) :
    c'.places <:+ c.places :=
  (behind_of_iterate h).places

theorem places_type {c : Cursor} {t : Parsed c.size VarType} (h : type c = .ok t) :
    t.rest.places <:+ c.places :=
  places_of_iterate (advances_type h)

theorem behind_of_reads {p : Phrase} {c c' : Cursor} (h : Reads p c c') : c'.Behind c := by
  have hadvance := Cursor.behind_advance
  -- Building nodes moves no position, so only the tokens that are gone behind matter.
  induction h with
  | operands _ _ _ first rest => exact rest.trans first
  | noOperator _ => exact .refl _
  | operator _ _ _ operand rest => exact rest.trans (operand.trans (hadvance _))
  | unassigned _ _ target => exact target
  | assigned _ _ _ _ _ left right => exact right.trans ((hadvance _).trans left)
  | uncompared _ _ sum => exact sum
  | compared _ _ _ _ first second => exact second.trans ((hadvance _).trans first)
  | unsigned _ _ postfixed => exact postfixed
  | signed _ _ operand => exact operand.trans (hadvance _)
  | postfixed _ _ primary accessors => exact accessors.trans primary
  | noAccessor _ _ _ => exact .refl _
  | field _ _ _ rest => exact rest.trans ((hadvance _).trans (hadvance _))
  | index _ _ _ _ _ inner rest =>
    exact rest.trans ((hadvance _).trans (inner.trans (hadvance _)))
  | memberCall _ _ _ _ _ inner rest => exact rest.trans (inner.trans (hadvance _))
  | number _ => exact hadvance _
  | name _ _ => exact hadvance _
  | call _ _ _ _ inner => exact inner.trans ((hadvance _).trans (hadvance _))
  | method _ _ _ _ _ _ inner block =>
    exact block.trans (inner.trans ((hadvance _).trans (hadvance _)))
  | allocation _ _ _ _ inner block =>
    exact block.trans (inner.trans ((hadvance _).trans (hadvance _)))
  | conditional _ _ _ _ test first second =>
    exact second.trans (first.trans (test.trans (hadvance _)))
  | parenthesised _ _ _ inner => exact (hadvance _).trans (inner.trans (hadvance _))
  | tuple _ _ _ inner rest => exact rest.trans (inner.trans (hadvance _))
  | endComponents _ => exact hadvance _
  | component _ _ _ one rest => exact rest.trans (one.trans (hadvance _))
  | typedFormal _ _ type =>
    exact (behind_of_iterate (advances_type type)).trans ((hadvance _).trans (hadvance _))
  | argument _ _ expr => exact expr
  | endArguments _ => exact hadvance _
  | lastArgument _ _ _ one => exact (hadvance _).trans one
  | nextArgument _ _ _ _ one rest => exact rest.trans ((hadvance _).trans one)
  | endStatements _ => exact (hadvance _).trans (Cursor.behind_skipSemicolons _)
  | statement _ _ _ one rest => exact rest.trans (one.trans (Cursor.behind_skipSemicolons _))
  | block _ _ inner => exact inner.trans (hadvance _)
  | noValue _ => exact .refl _
  | value _ _ expr => exact expr.trans (hadvance _)
  | endInitialisers _ => exact hadvance _
  | lastInitialiser _ _ _ initial => exact (hadvance _).trans (initial.trans (hadvance _))
  | nextInitialiser _ _ _ _ initial rest =>
    exact rest.trans ((hadvance _).trans (initial.trans (hadvance _)))
  | noOtherwise _ => exact .refl _
  | otherwise _ _ block => exact block.trans (hadvance _)

theorem places_of_reads {p : Phrase} {c c' : Cursor} (h : Reads p c c') :
    c'.places <:+ c.places :=
  (behind_of_reads h).places

end Grammar

end ProofScript
