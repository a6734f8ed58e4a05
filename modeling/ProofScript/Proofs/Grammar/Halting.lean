import ProofScript.Proofs.Grammar.Completeness
import ProofScript.Proofs.Grammar.Descent

/-!
# Procedures that end

`Halts tokens m c d Q` says that the procedure `m` ends from every state that is at the cursor `c`
with the flag `d`. It has then gone on in the token list and not beyond it, the flag is what it was,
and the outcome and the cursor behind it satisfy `Q`. There is one rule for putting procedures
together and one for each step.

`Tracks tokens m c d x` is the case where `Q` says that `m` does what the reading `x` says.
-/

namespace ProofScript.Grammar.Descent

/-! ## States and cursors -/

/-- The cursor that a state stands for. -/
def State.cursor (tokens : List Token) (s : State) : Cursor :=
  { tokens := tokens.drop s.position, nextId := s.nextId, stop := stop tokens }

/-- A state in a token list is at a cursor and has a flag. -/
structure State.At (tokens : List Token) (c : Cursor) (d : Bool) (s : State) : Prop where
  cursor : s.cursor tokens = c
  position_le : s.position ≤ tokens.length
  decls : s.decls = d

/-- On the way from a state to another one the position never goes back. -/
def State.Ascends (s : State) (path : List State) (s' : State) : Prop :=
  (s :: path ++ [s']).Pairwise fun t u => t.position ≤ u.position

/-- The position has gone on in the token list, and the flag is what it was. -/
structure State.Onward (tokens : List Token) (s : State) (path : List State) (s' : State) :
    Prop where
  ascends : s.Ascends path s'
  position_le_length : s'.position ≤ tokens.length
  decls : s'.decls = s.decls

variable {tokens : List Token} {α β : Type} {n k : Nat} {c c₁ : Cursor} {d : Bool}
  {s s₁ s' : State} {path path' : List State}

namespace State

theorem at_cursor (h : s.position ≤ tokens.length) : s.At tokens (s.cursor tokens) s.decls :=
  ⟨rfl, h, rfl⟩

theorem ascends_nil (h : s.position ≤ s'.position) : s.Ascends [] s' := by
  simpa [Ascends] using h

theorem ascends_single (h : s.position ≤ s'.position) : s.Ascends [s'] s' := by
  simpa [Ascends] using h

theorem Ascends.position_le (h : s.Ascends path s') : s.position ≤ s'.position :=
  (List.pairwise_cons.1 h).1 s' (by simp)

theorem Ascends.trans (h : s.Ascends path s₁) (h' : s₁.Ascends path' s') :
    s.Ascends (path ++ path') s' := by
  obtain ⟨hpath, -, hle⟩ := List.pairwise_append.1 h
  obtain ⟨hge, hpath'⟩ := List.pairwise_cons.1 h'
  have hsplit : s :: (path ++ path') ++ [s'] = (s :: path) ++ (path' ++ [s']) := by simp
  rw [Ascends, hsplit, List.pairwise_append]
  exact ⟨hpath, hpath', fun t ht u hu => Nat.le_trans (hle t ht s₁ (by simp)) (hge u hu)⟩

theorem At.onward (h : s.At tokens c d) : s.Onward tokens [] s :=
  ⟨ascends_nil (Nat.le_refl _), h.position_le, rfl⟩

theorem At.onward_single (h : s.At tokens c d) : s.Onward tokens [s] s :=
  ⟨ascends_single (Nat.le_refl _), h.position_le, rfl⟩

theorem At.after (h : s.At tokens c d) (hs : s.Onward tokens path s') :
    s'.At tokens (s'.cursor tokens) d :=
  ⟨rfl, hs.position_le_length, hs.decls.trans h.decls⟩

/-- On the way the position is never beyond the token list. -/
theorem Onward.inside (h : s.Onward tokens path s') :
    ∀ t ∈ path ++ [s'], t.position ≤ tokens.length := by
  obtain ⟨-, -, hle⟩ := List.pairwise_append.1 h.ascends
  intro t ht
  rcases List.mem_append.1 ht with hpath | hlast
  · exact Nat.le_trans (hle t (List.mem_cons_of_mem _ hpath) s' (by simp)) h.position_le_length
  · obtain rfl := List.mem_singleton.1 hlast
    exact h.position_le_length

theorem Onward.trans (h : s.Onward tokens path s₁) (h' : s₁.Onward tokens path' s') :
    s.Onward tokens (path ++ path') s' where
  ascends := h.ascends.trans h'.ascends
  position_le_length := h'.position_le_length
  decls := h'.decls.trans h.decls

/-- The tokens that are used up and those that are left are all tokens. -/
theorem size_cursor (h : s.position ≤ tokens.length) :
    s.position + (s.cursor tokens).size = tokens.length := by
  rw [cursor, Cursor.size, List.length_drop]
  omega

/-- The next token in the list is the first of the cursor. -/
theorem At.getElem? (h : s.At tokens c d) : tokens[s.position]? = c.tokens.head? := by
  obtain ⟨rfl, -, -⟩ := h
  rw [State.cursor, List.head?_drop]

theorem At.stop (h : s.At tokens c d) : Descent.stop tokens = c.stop := by
  obtain ⟨rfl, -, -⟩ := h
  rfl

end State

/-! ## Procedures that end -/

/-- From every state at the cursor `c` with the flag `d`, the procedure `m` ends. The position has
then gone on, the flag is what it was, and the outcome and the new cursor satisfy `Q`. -/
def Halts (tokens : List Token) (m : Procedure α) (c : Cursor) (d : Bool)
    (Q : Except ParseError α → Cursor → Prop) : Prop :=
  ∀ s : State, s.At tokens c d →
    ∃ path out s', Evaluates tokens m s path out s' ∧ s.Onward tokens path s' ∧
      Q out (s'.cursor tokens)

/-- The procedure `m` ends with the value `a` and at the cursor `c₁`. -/
def Steps (tokens : List Token) (m : Procedure α) (c : Cursor) (d : Bool) (a : α) (c₁ : Cursor) :
    Prop :=
  Halts tokens m c d fun out c' => out = .ok a ∧ c' = c₁

section Rules

variable {m : Procedure α} {f : α → Procedure β} {Q R : Except ParseError α → Cursor → Prop}
  {Q' : Except ParseError β → Cursor → Prop} {a : α}

theorem Evaluates.bind_ok {out : Except ParseError β} (hm : Evaluates tokens m s path (.ok a) s₁)
    (hf : Evaluates tokens (f a) s₁ path' out s') :
    Evaluates tokens (m >>= f) s (path ++ path') out s' := by
  generalize hout : (.ok a : Except ParseError α) = out₁ at hm
  induction hm with
  | pure a' s =>
    obtain rfl := Except.ok.inj hout
    exact hf
  | throw e s => cases hout
  | step _ ih => exact .step (ih hf hout)
  | call inner _ _ ih =>
    rw [List.append_assoc]
    exact .call inner (ih hf hout)

theorem Evaluates.bind_error {e : ParseError} (hm : Evaluates tokens m s path (.error e) s') :
    Evaluates tokens (m >>= f) s path (.error e) s' := by
  generalize hout : (.error e : Except ParseError α) = out at hm
  induction hm with
  | pure a s => cases hout
  | throw e' s =>
    obtain rfl := Except.error.inj hout
    exact .throw e s
  | step _ ih => exact .step (ih hout)
  | call inner _ _ ih => exact .call inner (ih hout)

theorem evaluates_ofExcept (out : Except ParseError α) (s : State) :
    Evaluates tokens (.ofExcept out) s [] out s := by
  cases out with
  | ok a => exact .pure a s
  | error e => exact .throw e s

/-- Running a routine is doing what the routine does. -/
theorem evaluates_run {r : Routine α} {out : Except ParseError α} :
    Evaluates tokens (run r) s path out s' ↔ Evaluates tokens (body tokens r) s path out s' := by
  constructor
  · intro h
    cases h with
    | call inner rest =>
      obtain ⟨rfl, rfl, rfl⟩ := (evaluates_ofExcept _ _).unique rest
      rwa [List.append_nil]
  · intro h
    have hcall := Evaluates.call h (evaluates_ofExcept out s')
    rwa [List.append_nil] at hcall

theorem Halts.mono (h : Halts tokens m c d Q) (hQ : ∀ out c', Q out c' → R out c') :
    Halts tokens m c d R := by
  intro s hs
  obtain ⟨path, out, s', hm, honward, hq⟩ := h s hs
  exact ⟨path, out, s', hm, honward, hQ _ _ hq⟩

theorem Halts.pure (h : Q (.ok a) c) : Halts tokens (Pure.pure a) c d Q :=
  fun s hs => ⟨[], .ok a, s, .pure a s, hs.onward, by rwa [hs.cursor]⟩

theorem Halts.throw {e : ParseError} (h : Q (.error e) c) :
    Halts tokens (.throw e : Procedure α) c d Q :=
  fun s hs => ⟨[], .error e, s, .throw e s, hs.onward, by rwa [hs.cursor]⟩

theorem Halts.of_body {r : Routine α} (h : Halts tokens (body tokens r) c d Q) :
    Halts tokens (run r) c d Q := by
  intro s hs
  obtain ⟨path, out, s', hm, honward, hq⟩ := h s hs
  exact ⟨path, out, s', evaluates_run.2 hm, honward, hq⟩

/-- What follows a procedure runs where the procedure has ended, unless it has failed. -/
theorem Halts.bind (h : Halts tokens m c d Q)
    (hok : ∀ a c', Q (.ok a) c' → Halts tokens (f a) c' d Q')
    (herror : ∀ e c', Q (.error e) c' → Q' (.error e) c') : Halts tokens (m >>= f) c d Q' := by
  intro s hs
  obtain ⟨path, out, s₁, hm, honward, hq⟩ := h s hs
  cases out with
  | error e => exact ⟨path, .error e, s₁, hm.bind_error, honward, herror _ _ hq⟩
  | ok a =>
    obtain ⟨path', out', s', hf, honward', hq'⟩ := hok a _ hq s₁ (hs.after honward)
    exact ⟨path ++ path', out', s', hm.bind_ok hf, honward.trans honward', hq'⟩

theorem Steps.bind (h : Steps tokens m c d a c₁) (hf : Halts tokens (f a) c₁ d Q') :
    Halts tokens (m >>= f) c d Q' := by
  refine Halts.bind h ?_ ?_
  · rintro _ _ ⟨⟨⟩, rfl⟩
    exact hf
  · rintro _ _ ⟨⟨⟩, -⟩

/-- A routine with a flag of its own ends as it does without, and the flag is put back. -/
theorem Halts.within {r : Routine α} {decls : Bool} (h : Halts tokens (run r) c decls Q) :
    Halts tokens (run (.within decls r)) c d Q := by
  refine Halts.of_body fun s hs => ?_
  let inside : State := { s with decls := decls }
  obtain ⟨path, out, s₁, hm, honward, hq⟩ := h inside ⟨hs.cursor, hs.position_le, rfl⟩
  let s' : State := { s₁ with decls := s.decls }
  have hinside : s.Ascends [s, inside] inside :=
    (State.ascends_single (Nat.le_refl _)).trans (State.ascends_single (Nat.le_refl _))
  have hback : s₁.Ascends [s'] s' := State.ascends_single (Nat.le_refl _)
  have hrun : Evaluates tokens (body tokens (.within decls r)) s
      (s :: inside :: (path ++ [s'])) out s' :=
    .step (.step (.call (evaluates_run.1 hm) (.step (evaluates_ofExcept out s'))))
  exact ⟨_, out, s', hrun,
    ⟨hinside.trans (honward.ascends.trans hback), honward.position_le_length, rfl⟩, hq⟩

end Rules

/-! ## Steps -/

theorem steps_peek : Steps tokens (peek tokens) c d c.tokens.head? c :=
  fun s hs => ⟨_, _, s, .step (.pure _ s), hs.onward_single, by rw [hs.getElem?], hs.cursor⟩

theorem steps_kind? : Steps tokens (kind? tokens) c d c.kind? c :=
  steps_peek.bind (.pure ⟨rfl, rfl⟩)

/-! ### Branches

The condition of a branch is about the kind of the next token, which is looked up and stays where it
is. -/

section Branches

variable {P : Option Token.Kind → Prop} [DecidablePred P] {m m' : Procedure α}
  {Q : Except ParseError α → Cursor → Prop}

theorem halts_if_pos (hc : P c.kind?) (h : Halts tokens m c d Q) :
    Halts tokens (do if P (← kind? tokens) then m else m') c d Q := by
  refine steps_kind?.bind ?_
  rw [if_pos hc]
  exact h

theorem halts_if_neg (hc : ¬P c.kind?) (h : Halts tokens m' c d Q) :
    Halts tokens (do if P (← kind? tokens) then m else m') c d Q := by
  refine steps_kind?.bind ?_
  rw [if_neg hc]
  exact h

end Branches

/-! ### Tokens and nodes -/

/-- A token of a known kind. -/
theorem head?_of_kind {kind : Token.Kind} (h : c.kind? = some kind) :
    c.tokens.head? = some ⟨kind, c.span⟩ := by
  unfold Cursor.kind? at h
  unfold Cursor.span
  cases ht : c.tokens with
  | nil => simp [ht] at h
  | cons t ts =>
    obtain rfl : t.kind = kind := by simpa [ht] using h
    rfl

theorem steps_placeOr (otherwise : Span) :
    Steps tokens (placeOr tokens otherwise) c d
      ((c.tokens.head?.map Token.span).getD otherwise) c :=
  steps_peek.bind (.pure ⟨rfl, rfl⟩)

theorem steps_placeOr_of_kind {kind : Token.Kind} (h : c.kind? = some kind) (otherwise : Span) :
    Steps tokens (placeOr tokens otherwise) c d c.span c := by
  refine steps_peek.bind (.pure ⟨?_, rfl⟩)
  rw [head?_of_kind h]
  rfl

theorem steps_place : Steps tokens (placeOr tokens (stop tokens)) c d c.span c := by
  intro s hs
  refine ⟨_, _, s, .step (.pure _ s), hs.onward_single, ?_, hs.cursor⟩
  rw [hs.getElem?, hs.stop]
  rfl

theorem steps_secondKind? : Steps tokens (secondKind? tokens) c d c.advance.kind? c := by
  intro s hs
  refine ⟨_, _, s, .step (.pure _ s), hs.onward_single, ?_, hs.cursor⟩
  obtain ⟨rfl, -, -⟩ := hs
  rw [Cursor.advance, Cursor.kind?, State.cursor, List.tail_drop, List.head?_drop]

theorem steps_atTypedFormal? : Steps tokens (atTypedFormal? tokens) c d (atTypedFormal c) c := by
  refine steps_kind?.bind ?_
  unfold atTypedFormal
  cases c.kind? with
  | none => exact .pure ⟨rfl, rfl⟩
  | some kind =>
    cases kind with
    | name => exact steps_secondKind?.bind (.pure ⟨rfl, rfl⟩)
    | keyword | symbol | number | verbatim | eof => exact .pure ⟨rfl, rfl⟩

/-- Behind the next token the position has gone on by one. -/
theorem steps_next {kind : Token.Kind} (h : c.kind? = some kind) :
    Steps tokens (next tokens) c d (some ⟨kind, c.span⟩) c.advance := by
  refine steps_peek.bind ?_
  rw [head?_of_kind h]
  rintro s ⟨rfl, hle, rfl⟩
  refine ⟨_, _, { s with position := s.position + 1 }, .step (.pure _ _),
    ⟨State.ascends_single (Nat.le_succ _), ?_, rfl⟩, rfl, ?_⟩
  · have hlt := Cursor.size_advance_lt h
    have hsize := State.size_cursor hle
    change s.position + 1 ≤ tokens.length
    omega
  · rw [State.cursor, Cursor.advance, State.cursor, List.tail_drop]

theorem steps_anyToken {kind : Token.Kind} (h : c.kind? = some kind) :
    Steps tokens (anyToken tokens) c d ⟨kind, c.span⟩ c.advance :=
  (steps_next h).bind (.pure ⟨rfl, rfl⟩)

theorem steps_verbatim :
    Steps tokens (verbatim tokens) c d c.verbatim.value c.verbatim.rest := by
  refine steps_kind?.bind ?_
  unfold Cursor.verbatim
  split
  · rename_i text hk
    split
    · rename_i text' hk'
      obtain rfl : text' = text := by simpa [hk] using hk'.symm
      exact (steps_next hk).bind (.pure ⟨rfl, rfl⟩)
    · rename_i hne
      exact absurd hk (hne text)
  · rename_i hne
    split
    · rename_i text hk
      exact absurd hk (hne text)
    · exact .pure ⟨rfl, rfl⟩

theorem steps_build (m : Numbering α) :
    Steps tokens (build m) c d (c.build m).1 (c.build m).2 := by
  rintro s ⟨rfl, hle, rfl⟩
  exact ⟨_, _, { s with nextId := (m.run s.nextId).2 }, .step (.pure _ _),
    ⟨State.ascends_single (Nat.le_refl _), hle, rfl⟩, rfl, rfl⟩

theorem steps_ofExcept (a : α) : Steps tokens (.ofExcept (.ok a)) c d a c := .pure ⟨rfl, rfl⟩

theorem halts_state {Q : Except ParseError α → Cursor → Prop} {f : State → Procedure α}
    (h : ∀ s : State, s.decls = d → Halts tokens (f s) c d Q) :
    Halts tokens (do let s ← state; f s) c d Q := by
  intro s hs
  obtain ⟨path, out, s', hm, honward, hq⟩ := h s hs.decls s hs
  exact ⟨_, out, s', .step hm, hs.onward_single.trans honward, hq⟩

/-! ## Failures -/

theorem halts_unexpected {Q : Except ParseError α → Cursor → Prop} {wanted : Wanted}
    (h : Q (.error (c.unexpected wanted)) c) : Halts tokens (unexpected tokens wanted) c d Q :=
  steps_kind?.bind (steps_place.bind (.throw h))

theorem halts_ofExcept {f : α → Procedure β} {e : ParseError}
    {Q : Except ParseError β → Cursor → Prop} (h : Q (.error e) c) :
    Halts tokens (do let a ← .ofExcept (.error e); f a) c d Q := by
  have hfail : Halts tokens (.ofExcept (.error e : Except ParseError α)) c d
      fun out c' => out = .error e ∧ c' = c := .throw ⟨rfl, rfl⟩
  refine hfail.bind ?_ ?_
  · rintro _ _ ⟨⟨⟩, -⟩
  · rintro _ _ ⟨⟨⟩, rfl⟩
    exact h

/-! ## Following a reading -/

/-- An outcome and the cursor behind it are those of a reading. After an error the cursor does not
matter. -/
inductive Matches : Except ParseError (Parsed n α) → Except ParseError α → Cursor → Prop where
  /-- A value and the cursor behind it. -/
  | ok (p : Parsed n α) : Matches (.ok p) (.ok p.value) p.rest
  /-- An error. -/
  | error (e : ParseError) (c : Cursor) : Matches (.error e) (.error e) c

/-- The procedure `m` does what the reading `x` says. -/
def Tracks (tokens : List Token) (m : Procedure α) (c : Cursor) (d : Bool)
    (x : Except ParseError (Parsed n α)) : Prop :=
  Halts tokens m c d (Matches x)

section Following

variable {m : Procedure α} {f : α → Procedure β} {x : Except ParseError (Parsed n α)}
  {g : Parsed n α → Except ParseError (Parsed k β)} {Q : Except ParseError β → Cursor → Prop}

theorem Tracks.then {p : Parsed n α} (h : Tracks tokens m c d x) (hx : x = .ok p)
    (hf : Halts tokens (f p.value) p.rest d Q) : Halts tokens (m >>= f) c d Q := by
  subst hx
  refine Halts.bind h ?_ ?_
  · rintro _ _ ⟨⟩
    exact hf
  · rintro _ _ ⟨⟩

theorem Tracks.fails {e : ParseError} (h : Tracks tokens m c d x) (hx : x = .error e)
    (hQ : ∀ c', Q (.error e) c') : Halts tokens (m >>= f) c d Q := by
  subst hx
  refine Halts.bind h ?_ ?_
  · rintro _ _ ⟨⟩
  · rintro _ _ ⟨⟩
    exact hQ _

/-- A reading that ends as another one does. -/
theorem Tracks.ok {p : Parsed n α} {h : p.rest.size < k} (hm : Tracks tokens m c d x)
    (hx : x = .ok p) : Tracks tokens m c d (.ok ⟨p.value, p.rest, h⟩ : Except _ (Parsed k α)) := by
  subst hx
  refine Halts.mono hm ?_
  rintro _ _ ⟨⟩
  exact .ok (⟨p.value, p.rest, h⟩ : Parsed k α)

/-- A reading that fails as another one does. -/
theorem Tracks.error {e : ParseError} (hm : Tracks tokens m c d x) (hx : x = .error e) :
    Tracks tokens m c d (.error e : Except _ (Parsed k α)) := by
  subst hx
  refine Halts.mono hm ?_
  rintro _ _ ⟨⟩
  exact .error e _

theorem Tracks.bind (h : Tracks tokens m c d x)
    (hf : ∀ p, x = .ok p → Tracks tokens (f p.value) p.rest d (g p)) :
    Tracks tokens (m >>= f) c d (x >>= g) := by
  cases x with
  | error e => exact h.fails rfl (.error e)
  | ok p => exact h.then rfl (hf p rfl)

/-- A reading that only looks at the last one from further away. -/
theorem Tracks.relay {g : Parsed n α → Except ParseError (Parsed k α)}
    (h : Tracks tokens m c d x)
    (hg : ∀ p, x = .ok p → Tracks tokens (Pure.pure p.value) p.rest d (g p)) :
    Tracks tokens m c d (x >>= g) := by
  rw [← bind_pure m]
  exact h.bind hg

theorem Tracks.within {r : Routine α} {decls : Bool} (h : Tracks tokens (run r) c decls x) :
    Tracks tokens (run (.within decls r)) c d x :=
  Halts.within h

end Following

theorem tracks_pure {a : α} {h : c.size < n} :
    Tracks tokens (pure a) c d (.ok ⟨a, c, h⟩) :=
  .pure (.ok ⟨a, c, h⟩)

theorem tracks_build {m : Numbering α} {h : c.size < n} :
    Tracks tokens (build m) c d (.ok ⟨(c.build m).1, (c.build m).2, h⟩) := by
  refine (steps_build m).mono ?_
  rintro _ _ ⟨rfl, rfl⟩
  exact .ok (⟨(c.build m).1, (c.build m).2, h⟩ : Parsed n α)

theorem tracks_throw {e : ParseError} :
    Tracks tokens (.throw e : Procedure α) c d (.error e : Except ParseError (Parsed n α)) :=
  .throw (.error e c)

theorem tracks_unexpected (wanted : Wanted) :
    Tracks tokens (unexpected tokens wanted) c d
      (.error (c.unexpected wanted) : Except ParseError (Parsed n α)) :=
  halts_unexpected (.error _ _)

/-! ### Tokens -/

theorem tracks_symbol (s : Symbol) : Tracks tokens (symbol tokens s) c d (c.symbol s) := by
  unfold Cursor.symbol
  split
  · rename_i h
    exact halts_if_pos h ((steps_anyToken h).bind tracks_pure)
  · rename_i h
    exact halts_if_neg h (tracks_unexpected _)

theorem tracks_keyword (k : Keyword) : Tracks tokens (keyword tokens k) c d (c.keyword k) := by
  unfold Cursor.keyword
  split
  · rename_i h
    exact halts_if_pos h ((steps_anyToken h).bind tracks_pure)
  · rename_i h
    exact halts_if_neg h (tracks_unexpected _)

/-- Behind the last token there is none to read. -/
theorem tracks_anyToken_of_none (h : c.kind? = none) :
    Tracks tokens (anyToken tokens) c d
      (.error { fault := .outOfTokens, span := c.span } : Except ParseError (Parsed n Token)) := by
  have hnone : c.tokens.head? = none := Option.map_eq_none_iff.1 h
  have hspan : c.span = c.stop := by
    rw [Cursor.span, hnone]
    rfl
  have hnext : Steps tokens (next tokens) c d none c := by
    refine steps_peek.bind ?_
    rw [hnone]
    exact .pure ⟨rfl, rfl⟩
  refine hnext.bind fun s hs => ?_
  rw [hspan, ← hs.stop]
  exact Halts.throw (.error _ _) s hs

theorem tracks_name : Tracks tokens (name tokens) c d c.name := by
  unfold Cursor.name
  split
  · rename_i text h
    exact (steps_anyToken h).bind tracks_pure
  · rename_i kind hne h
    refine (steps_anyToken h).bind ?_
    rw [Cursor.unexpected, h]
    cases kind with
    | name text => exact absurd rfl (hne text)
    | keyword | symbol | number | verbatim | eof => exact .throw (.error _ _)
  · rename_i h
    exact (tracks_anyToken_of_none (n := c.size) h).fails rfl (.error _)

/-! ### Separators -/

theorem steps_separator (h : c.kind? = some (.symbol .closeParen)) :
    Steps tokens (separator tokens) c d () c :=
  halts_if_pos h (.pure ⟨rfl, rfl⟩)

/-- In front of anything else than a closing parenthesis a separator is a comma. -/
theorem halts_separator {m : Procedure α} {Q : Except ParseError α → Cursor → Prop}
    (hne : c.kind? ≠ some (.symbol .closeParen))
    (h : Halts tokens (do let _ ← symbol tokens .comma; m) c d Q) :
    Halts tokens (do separator tokens; m) c d Q := by
  unfold separator
  rw [bind_assoc]
  refine steps_kind?.bind ?_
  rw [if_neg hne, bind_assoc]
  exact h

/-! ### In front of a closing symbol -/

/-- An outcome is that of a reading which also reads the symbol `close` behind it. -/
inductive Closes (close : Symbol) (f : α → Span → β) :
    Except ParseError (Parsed n β) → Except ParseError α → Cursor → Prop where
  /-- The symbol comes next. -/
  | ok {p : Parsed n β} {a : α} {c : Cursor} (here : c.kind? = some (.symbol close))
      (value : p.value = f a c.span) (rest : p.rest = c.advance) : Closes close f (.ok p) (.ok a) c
  /-- Something else comes next. -/
  | unclosed {a : α} {c : Cursor} (missing : c.kind? ≠ some (.symbol close)) :
      Closes close f (.error (c.unexpected (.symbol close))) (.ok a) c
  /-- An error in front of the symbol. -/
  | error (e : ParseError) (c : Cursor) : Closes close f (.error e) (.error e) c

section Closing

variable {γ : Type} {close : Symbol} {f : α → Span → β} {m : Procedure α}
  {x : Except ParseError (Parsed n β)} {next : α → Span → Procedure γ}
  {Q : Except ParseError γ → Cursor → Prop}

theorem symbol_of_ne {s : Symbol} (h : c.kind? ≠ some (.symbol s)) :
    c.symbol s = .error (c.unexpected (.symbol s)) := by
  rw [Cursor.symbol, dif_neg h]

theorem Halts.closeThen {p : Parsed n β} (h : Halts tokens m c d (Closes close f x))
    (hx : x = .ok p)
    (hnext : ∀ a place, p.value = f a place → Halts tokens (next a place) p.rest d Q) :
    Halts tokens (do let a ← m; let place ← symbol tokens close; next a place) c d Q := by
  subst hx
  refine Halts.bind h ?_ ?_
  · rintro a c' ⟨here, hvalue, hrest⟩
    have hrun := hnext a _ hvalue
    rw [hrest] at hrun
    exact (tracks_symbol close).then (Cursor.symbol_of_kind here) hrun
  · rintro _ _ ⟨⟩

theorem Halts.closeFails {e : ParseError} (h : Halts tokens m c d (Closes close f x))
    (hx : x = .error e) (hQ : ∀ c', Q (.error e) c') :
    Halts tokens (do let a ← m; let place ← symbol tokens close; next a place) c d Q := by
  subst hx
  refine Halts.bind h ?_ ?_
  · rintro a c' ⟨⟩
    exact (tracks_symbol close).fails (symbol_of_ne ‹_›) hQ
  · rintro _ _ ⟨⟩
    exact hQ _

theorem Halts.closed {g : Parsed n β → Except ParseError (Parsed k γ)}
    (h : Halts tokens m c d (Closes close f x))
    (hnext : ∀ p a place, x = .ok p → p.value = f a place →
      Tracks tokens (next a place) p.rest d (g p)) :
    Tracks tokens (do let a ← m; let place ← symbol tokens close; next a place) c d (x >>= g) := by
  cases x with
  | error e => exact h.closeFails rfl (.error e)
  | ok p => exact h.closeThen rfl fun a place => hnext p a place rfl

/-- A reading that returns the place of the closing symbol. -/
theorem Halts.placedThen {x : Except ParseError (Parsed n (α × Span))} {p : Parsed n (α × Span)}
    (h : Halts tokens m c d (Closes close Prod.mk x)) (hx : x = .ok p)
    (hnext : Halts tokens (next p.value.1 p.value.2) p.rest d Q) :
    Halts tokens (do let a ← m; let place ← symbol tokens close; next a place) c d Q := by
  refine h.closeThen hx fun a place hvalue => ?_
  rw [hvalue] at hnext
  exact hnext

theorem Halts.placed {x : Except ParseError (Parsed n (α × Span))}
    {g : Parsed n (α × Span) → Except ParseError (Parsed k γ)}
    (h : Halts tokens m c d (Closes close Prod.mk x))
    (hnext : ∀ p, x = .ok p → Tracks tokens (next p.value.1 p.value.2) p.rest d (g p)) :
    Tracks tokens (do let a ← m; let place ← symbol tokens close; next a place) c d (x >>= g) := by
  cases x with
  | error e => exact h.closeFails rfl (.error e)
  | ok p => exact h.placedThen rfl (hnext p rfl)

/-- A reading that ends as another one does. -/
theorem Halts.closes_ok {p : Parsed n β} {hp : p.rest.size < k}
    (h : Halts tokens m c d (Closes close f x)) (hx : x = .ok p) :
    Halts tokens m c d
      (Closes close f (.ok ⟨p.value, p.rest, hp⟩ : Except _ (Parsed k β))) := by
  subst hx
  refine h.mono ?_
  rintro _ _ ⟨here, hvalue, hrest⟩
  exact .ok here hvalue hrest

/-- A reading that fails as another one does. -/
theorem Halts.closes_error {e : ParseError} (h : Halts tokens m c d (Closes close f x))
    (hx : x = .error e) :
    Halts tokens m c d (Closes close f (.error e : Except _ (Parsed k β))) := by
  subst hx
  refine h.mono ?_
  rintro _ _ ⟨⟩
  · exact .unclosed ‹_›
  · exact .error e _

/-- A value that is complete in front of the closing symbol. -/
theorem closes_symbol {a : α} {g : Parsed c.size Span → Parsed k β}
    (hvalue : ∀ q, (g q).value = f a q.value) (hrest : ∀ q, (g q).rest = q.rest) :
    Closes close f (do let q ← c.symbol close; return g q) (.ok a) c := by
  by_cases hk : c.kind? = some (.symbol close)
  · rw [Cursor.symbol_of_kind hk]
    exact .ok hk (hvalue _) (hrest _)
  · rw [symbol_of_ne hk]
    exact .unclosed hk

/-- What stands in front of a closing symbol, with the symbol. -/
theorem Tracks.closed {y : Except ParseError (Parsed n α)}
    {g : (p : Parsed n α) → Parsed p.rest.size Span → Parsed k β} (h : Tracks tokens m c d y)
    (hvalue : ∀ p q, (g p q).value = f p.value q.value) (hrest : ∀ p q, (g p q).rest = q.rest) :
    Halts tokens m c d
      (Closes close f (do let p ← y; let q ← p.rest.symbol close; return g p q)) := by
  refine Halts.mono h ?_
  rintro _ _ ⟨p⟩
  · exact closes_symbol (hvalue p) (hrest p)
  · exact .error _ _

end Closing

end ProofScript.Grammar.Descent
