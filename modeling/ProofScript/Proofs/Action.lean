import Mathlib.Data.List.Forall2
import Mathlib.Data.List.Induction

/-!
# How actions end

A reader and a compilation step can fail; a walk and a builder also carry a state along. The first
part says when a computation that can fail has a result. In the second, `Ends m post fails s` says
how the action `m` ends when it starts in the state `s`: it succeeds with a result and a state that
satisfy `post`, or it fails with an error that satisfies `fails`. The rules compute it step by step.
An action that is claimed to succeed is one whose `fails` holds of nothing. What holds of the state
after a failure too is the matter of the third part, `Keeps`, and what a failure leaves behind that
of the fourth, `Leaves`.
-/

namespace ProofScript

/-! ## Computations that can fail -/

section Except

variable {ε α β γ : Type} {a : α} {b : β} {x : Except ε α} {f : α → Except ε β}

/-- A computation in two steps succeeds only when both steps do. -/
theorem ok_of_bind (h : (x >>= f) = .ok b) : ∃ a, x = .ok a ∧ f a = .ok b := by
  cases x with
  | error e => cases h
  | ok a => exact ⟨a, rfl, h⟩

/-- The first of two steps is known to succeed. -/
theorem bind_of_ok {r : Except ε β} (hx : x = .ok a) (hf : f a = r) : (x >>= f) = r := by
  subst hx
  exact hf

theorem ok_of_mapError {ε' : Type} {describe : ε → ε'} (h : x.mapError describe = .ok a) :
    x = .ok a := by
  cases x with
  | error e => cases h
  | ok b => exact congrArg Except.ok (Except.ok.inj h)

theorem ok_of_map {g : α → β} (h : x.map g = .ok b) : ∃ a, x = .ok a ∧ g a = b := by
  cases x with
  | error e => cases h
  | ok a => exact ⟨a, rfl, Except.ok.inj h⟩

theorem ok_of_any {p : α → Bool} (h : x.toOption.any p = true) : ∃ a, x = .ok a ∧ p a = true := by
  cases x with
  | error e => cases h
  | ok a => exact ⟨a, rfl, h⟩

/-- A loop that succeeds at every member of a list has a result. -/
theorem mapM_ok {p : α → β → Prop} {xs : List α} (h : ∀ x ∈ xs, ∃ b, f x = .ok b ∧ p x b) :
    ∃ bs, xs.mapM f = .ok bs ∧ List.Forall₂ p xs bs := by
  induction xs with
  | nil => exact ⟨[], rfl, .nil⟩
  | cons x xs ih =>
    obtain ⟨b, hb, hp⟩ := h x List.mem_cons_self
    obtain ⟨bs, hbs, hps⟩ := ih fun y hy => h y (List.mem_cons_of_mem _ hy)
    rw [List.mapM_cons]
    exact ⟨b :: bs, bind_of_ok hb (bind_of_ok hbs rfl), .cons hp hps⟩

/-- A loop has a result only when it has one at every member of the list. -/
theorem forall₂_of_mapM {xs : List α} {bs : List β} (h : xs.mapM f = .ok bs) :
    List.Forall₂ (fun x b => f x = .ok b) xs bs := by
  induction xs generalizing bs with
  | nil =>
    cases h
    exact .nil
  | cons x xs ih =>
    rw [List.mapM_cons] at h
    obtain ⟨b, hb, h⟩ := ok_of_bind h
    obtain ⟨cs, hcs, h⟩ := ok_of_bind h
    cases h
    exact .cons hb (ih hcs)

/-- What follows a loop is given the results of the loop. -/
theorem mapM_bind_ok {p : α → β → Prop} {q : γ → Prop} {g : List β → Except ε γ} {xs : List α}
    (h : ∀ x ∈ xs, ∃ b, f x = .ok b ∧ p x b)
    (hg : ∀ bs, List.Forall₂ p xs bs → ∃ c, g bs = .ok c ∧ q c) :
    ∃ c, (xs.mapM f >>= g) = .ok c ∧ q c := by
  obtain ⟨bs, hbs, hps⟩ := mapM_ok h
  obtain ⟨c, hc, hq⟩ := hg bs hps
  exact ⟨c, bind_of_ok hbs hc, hq⟩

/-- A loop that carries a value along keeps an invariant of the members that are done. -/
theorem foldlM_ok {g : β → α → Except ε β} (inv : List α → β → Prop) {xs : List α}
    (step : ∀ done b x, x ∈ xs → inv done b → ∃ b', g b x = .ok b' ∧ inv (done ++ [x]) b')
    {b : β} (start : inv [] b) : ∃ b', xs.foldlM g b = .ok b' ∧ inv xs b' := by
  suffices general : ∀ (rest done : List α) (b : β), (∀ x ∈ rest, x ∈ xs) → inv done b →
      ∃ b', rest.foldlM g b = .ok b' ∧ inv (done ++ rest) b' from
    general xs [] b (fun _ h => h) start
  intro rest
  induction rest with
  | nil => exact fun done b _ h => ⟨b, rfl, by simpa using h⟩
  | cons x rest ih =>
    intro done b hmem h
    obtain ⟨b', hb, hinv⟩ := step done b x (hmem x List.mem_cons_self) h
    obtain ⟨b'', hb', hinv'⟩ := ih _ b' (fun y hy => hmem y (List.mem_cons_of_mem _ hy)) hinv
    rw [List.foldlM_cons]
    exact ⟨b'', bind_of_ok hb hb', by simpa using hinv'⟩

/-- A loop that succeeds has kept every invariant that its rounds keep. -/
theorem foldlM_inv {g : β → α → Except ε β} (inv : List α → β → Prop) {xs : List α} {b b' : β}
    (h : xs.foldlM g b = .ok b') (start : inv [] b)
    (step : ∀ done c x c', inv done c → g c x = .ok c' → inv (done ++ [x]) c') : inv xs b' := by
  induction xs using List.reverseRecOn generalizing b' with
  | nil =>
    cases h
    exact start
  | append_singleton xs x ih =>
    rw [List.foldlM_append] at h
    obtain ⟨c, hc, h⟩ := ok_of_bind h
    rw [List.foldlM_cons] at h
    obtain ⟨c', hc', h⟩ := ok_of_bind h
    cases h
    exact step xs c x _ (ih hc) hc'

end Except

/-! ## Loops -/

/-- What comes after a loop may be changed on lists that the loop does not return. -/
theorem mapM_bind_congr {m : Type → Type} [Monad m] [LawfulMonad m] {α β γ : Type} {f : α → m β}
    {g g' : List β → m γ} {xs : List α} (h : ∀ bs, bs.length = xs.length → g bs = g' bs) :
    (xs.mapM f >>= g) = (xs.mapM f >>= g') := by
  induction xs generalizing g g' with
  | nil => simpa using h [] rfl
  | cons x xs ih =>
    simp only [List.mapM_cons, bind_assoc, pure_bind]
    refine bind_congr fun b => ih fun bs hbs => ?_
    have hlength : (b :: bs).length = (x :: xs).length := by simp [hbs]
    exact h (b :: bs) hlength

/-! ## Actions with a state -/

section Run

variable {ε σ α β : Type} {x : ExceptT ε (StateM σ) α} {f : α → ExceptT ε (StateM σ) β} {s t : σ}

theorem run_bind_of_ok {a : α} (h : x.run.run s = (.ok a, t)) :
    (x >>= f).run.run s = (f a).run.run t := by
  rw [ExceptT.run_bind, StateT.run_bind, h]
  rfl

theorem run_bind_of_error {e : ε} (h : x.run.run s = (.error e, t)) :
    (x >>= f).run.run s = (.error e, t) := by
  rw [ExceptT.run_bind, StateT.run_bind, h]
  rfl

theorem run_get_bind {g : σ → ExceptT ε (StateM σ) β} :
    (get >>= g).run.run s = (g s).run.run s := rfl

theorem run_modify_bind {change : σ → σ} {g : PUnit → ExceptT ε (StateM σ) β} :
    (modify change >>= g).run.run s = (g ⟨⟩).run.run (change s) := rfl

theorem run_tryCatch_of_ok {a : α} {handle : ε → ExceptT ε (StateM σ) α}
    (h : x.run.run s = (.ok a, t)) : (tryCatch x handle).run.run s = (.ok a, t) := by
  show (x.run >>= fun r => match r with
    | .ok a => pure (.ok a)
    | .error e => (handle e).run : StateM σ (Except ε α)).run s = _
  rw [StateT.run_bind, h]
  rfl

theorem run_map_liftM {r : Except ε α} {g : α → β} :
    (g <$> (liftM r : ExceptT ε (StateM σ) α)).run.run s = (r.map g, s) := by
  cases r <;> rfl

end Run

section Ends

variable {ε σ α β : Type}

/-- An action that starts in the state `s` ends with a result and a state that satisfy `post`, or
with an error that satisfies `fails`. -/
def Ends (m : ExceptT ε (StateM σ) α) (post : α → σ → Prop) (fails : ε → Prop) (s : σ) : Prop :=
  match m.run.run s with
  | (.ok a, t) => post a t
  | (.error e, _) => fails e

variable {m : ExceptT ε (StateM σ) α} {f : α → ExceptT ε (StateM σ) β} {post : α → σ → Prop}
  {after : β → σ → Prop} {fails : ε → Prop} {s : σ}

@[simp] theorem ends_pure {a : α} : Ends (pure a) post fails s ↔ post a s := Iff.rfl

@[simp] theorem ends_throw {e : ε} :
    Ends (throw e : ExceptT ε (StateM σ) α) post fails s ↔ fails e := Iff.rfl

@[simp] theorem ends_bind :
    Ends (m >>= f) after fails s ↔ Ends m (fun a t => Ends (f a) after fails t) fails s := by
  unfold Ends
  rcases hrun : m.run.run s with ⟨r, t⟩
  cases r with
  | ok a => rw [run_bind_of_ok hrun]
  | error e => rw [run_bind_of_error hrun]

@[simp] theorem ends_map {g : α → β} :
    Ends (g <$> m) after fails s ↔ Ends m (fun a t => after (g a) t) fails s := by
  rw [map_eq_pure_bind, ends_bind]
  rfl

@[simp] theorem ends_get {post : σ → σ → Prop} :
    Ends (get : ExceptT ε (StateM σ) σ) post fails s ↔ post s s := Iff.rfl

@[simp] theorem ends_set {t : σ} {post : PUnit → σ → Prop} :
    Ends (set t : ExceptT ε (StateM σ) PUnit) post fails s ↔ post ⟨⟩ t := Iff.rfl

@[simp] theorem ends_modify {g : σ → σ} {post : PUnit → σ → Prop} :
    Ends (modify g : ExceptT ε (StateM σ) PUnit) post fails s ↔ post ⟨⟩ (g s) := Iff.rfl

@[simp] theorem ends_liftM_ok {a : α} :
    Ends (liftM (Except.ok a : Except ε α) : ExceptT ε (StateM σ) α) post fails s ↔ post a s :=
  Iff.rfl

@[simp] theorem ends_liftM_error {e : ε} :
    Ends (liftM (Except.error e : Except ε α) : ExceptT ε (StateM σ) α) post fails s ↔ fails e :=
  Iff.rfl

theorem ends_true (m : ExceptT ε (StateM σ) α) :
    Ends m (fun _ _ => True) (fun _ => True) s := by
  unfold Ends
  split <;> trivial

/-- What an action ends with may be weakened. -/
theorem Ends.imp {post' : α → σ → Prop} {fails' : ε → Prop} (h : Ends m post fails s)
    (hpost : ∀ a t, post a t → post' a t) (hfails : ∀ e, fails e → fails' e) :
    Ends m post' fails' s := by
  unfold Ends at *
  rcases hm : m.run.run s with ⟨r, t⟩
  rw [hm] at h
  cases r with
  | ok a => exact hpost a t h
  | error e => exact hfails e h

/-- What an action succeeds with may be weakened alone. -/
theorem Ends.mono {post' : α → σ → Prop} (h : Ends m post fails s)
    (hpost : ∀ a t, post a t → post' a t) : Ends m post' fails s :=
  h.imp hpost fun _ he => he

/-- Two actions one after the other, by what the first one ends with. -/
theorem Ends.bind {mid : α → σ → Prop} (hm : Ends m mid fails s)
    (hf : ∀ a t, mid a t → Ends (f a) after fails t) : Ends (m >>= f) after fails s :=
  ends_bind.2 (hm.mono hf)

/-- An action that cannot fail has a result. -/
theorem Ends.ok (h : Ends m post (fun _ => False) s) :
    ∃ a t, m.run.run s = (.ok a, t) ∧ post a t := by
  unfold Ends at h
  rcases hm : m.run.run s with ⟨r, t⟩
  rw [hm] at h
  cases r with
  | ok a => exact ⟨a, t, rfl, h⟩
  | error e => exact h.elim

/-- What is known of how an action ends holds of an end that is known. -/
theorem Ends.of_run {a : α} {t : σ} (h : Ends m post fails s) (hrun : m.run.run s = (.ok a, t)) :
    post a t := by
  unfold Ends at h
  rwa [hrun] at h

/-- A loop over a list keeps an invariant that speaks of the members done and to come. -/
theorem ends_mapM {γ : Type} {g : γ → ExceptT ε (StateM σ) α} {fails : ε → Prop}
    (inv : List γ → List α → σ → Prop) {xs : List γ}
    (step : ∀ done as x t, x ∈ xs → inv done as t →
      Ends (g x) (fun a t' => inv (done ++ [x]) (as ++ [a]) t') fails t)
    {s : σ} (start : inv [] [] s) : Ends (xs.mapM g) (fun as t => inv xs as t) fails s := by
  suffices general : ∀ (rest done : List γ) (as : List α) (t : σ), (∀ x ∈ rest, x ∈ xs) →
      inv done as t →
      Ends (rest.mapM g) (fun bs t' => inv (done ++ rest) (as ++ bs) t') fails t by
    simpa using general xs [] [] s (fun _ h => h) start
  intro rest
  induction rest with
  | nil => intro done as t _ h; simpa using h
  | cons x rest ih =>
    intro done as t hmem h
    rw [List.mapM_cons]
    refine (step done as x t (hmem x List.mem_cons_self) h).bind fun a t' ha => ?_
    refine (ih _ _ _ (fun y hy => hmem y (List.mem_cons_of_mem _ hy)) ha).bind fun bs t'' hb => ?_
    simpa using hb

/-- A loop relates each member of a list to its result, when every round does and keeps what the
next round needs of the state. -/
theorem ends_mapM_forall₂ {γ : Type} {g : γ → ExceptT ε (StateM σ) α} {q : γ → α → Prop}
    {inv : σ → Prop} {xs : List γ}
    (h : ∀ x ∈ xs, ∀ t, inv t → Ends (g x) (fun a t' => q x a ∧ inv t') fails t) (hs : inv s) :
    Ends (xs.mapM g) (fun as t => List.Forall₂ q xs as ∧ inv t) fails s := by
  induction xs generalizing s with
  | nil => exact ⟨.nil, hs⟩
  | cons x xs ih =>
    rw [List.mapM_cons]
    refine (h x List.mem_cons_self s hs).bind fun a t ⟨ha, ht⟩ => ?_
    have hrest := ih (fun y hy => h y (List.mem_cons_of_mem _ hy)) ht
    exact hrest.bind fun as t' ⟨has, ht'⟩ => ⟨.cons ha has, ht'⟩

/-- A loop over a list that returns nothing keeps an invariant. -/
theorem ends_forM {γ : Type} {g : γ → ExceptT ε (StateM σ) PUnit} {fails : ε → Prop}
    (inv : List γ → σ → Prop) {xs : List γ}
    (step : ∀ done x t, x ∈ xs → inv done t → Ends (g x) (fun _ t' => inv (done ++ [x]) t') fails t)
    {s : σ} (start : inv [] s) : Ends (xs.forM g) (fun _ t => inv xs t) fails s := by
  suffices general : ∀ (rest done : List γ) (t : σ), (∀ x ∈ rest, x ∈ xs) → inv done t →
      Ends (rest.forM g) (fun _ t' => inv (done ++ rest) t') fails t by
    simpa using general xs [] s (fun _ h => h) start
  intro rest
  induction rest with
  | nil => intro done t _ h; simpa using h
  | cons x rest ih =>
    intro done t hmem h
    rw [List.forM]
    refine (step done x t (hmem x List.mem_cons_self) h).bind fun _ t' ha => ?_
    simpa using ih _ _ (fun y hy => hmem y (List.mem_cons_of_mem _ hy)) ha

end Ends

/-! ## Invariants of the state -/

section Keeps

variable {ε σ α β γ : Type} {inv : σ → Prop} {m : ExceptT ε (StateM σ) α}
  {f : α → ExceptT ε (StateM σ) β} {x : Except ε α}

/-- An action keeps a property of the state, whether it succeeds or fails. -/
def Keeps (inv : σ → Prop) (m : ExceptT ε (StateM σ) α) : Prop :=
  ∀ s, inv s → inv (m.run.run s).2

theorem keeps_pure {a : α} : Keeps inv (pure a : ExceptT ε (StateM σ) α) := fun _ hs => hs

theorem keeps_throw {e : ε} : Keeps inv (throw e : ExceptT ε (StateM σ) α) := fun _ hs => hs

theorem keeps_liftM : Keeps inv (liftM x : ExceptT ε (StateM σ) α) := by
  intro s hs
  cases x with
  | ok a => exact hs
  | error e => exact hs

theorem keeps_get : Keeps inv (get : ExceptT ε (StateM σ) σ) := fun _ hs => hs

theorem Keeps.bind (hm : Keeps inv m) (hf : ∀ a, Keeps inv (f a)) : Keeps inv (m >>= f) := by
  intro s hs
  have hmid := hm s hs
  rcases hrun : m.run.run s with ⟨r, t⟩
  rw [hrun] at hmid
  cases r with
  | ok a =>
    rw [run_bind_of_ok hrun]
    exact hf a t hmid
  | error e =>
    rw [run_bind_of_error hrun]
    exact hmid

theorem Keeps.map (hm : Keeps inv m) (g : α → β) : Keeps inv (g <$> m) := by
  rw [map_eq_pure_bind]
  exact hm.bind fun _ => keeps_pure

/-- What an action keeps may be added to what it ends with. -/
theorem Ends.and_keeps {post : α → σ → Prop} {fails : ε → Prop} {s : σ} (h : Ends m post fails s)
    (hm : Keeps inv m) (hs : inv s) : Ends m (fun a t => post a t ∧ inv t) fails s := by
  have hinv := hm s hs
  unfold Ends at *
  rcases hrun : m.run.run s with ⟨r, t⟩
  rw [hrun] at h hinv
  cases r with
  | ok a => exact ⟨h, hinv⟩
  | error e => exact h

theorem keeps_mapM {g : γ → ExceptT ε (StateM σ) α} {xs : List γ}
    (h : ∀ x ∈ xs, Keeps inv (g x)) : Keeps inv (xs.mapM g) := by
  induction xs with
  | nil => exact keeps_pure
  | cons x xs ih =>
    rw [List.mapM_cons]
    refine (h x List.mem_cons_self).bind fun a => ?_
    exact (ih fun y hy => h y (List.mem_cons_of_mem _ hy)).bind fun _ => keeps_pure

end Keeps

/-! ## What a failure leaves behind -/

section Leaves

variable {ε σ α β : Type} {m : ExceptT ε (StateM σ) α} {f : α → ExceptT ε (StateM σ) β}
  {post : α → σ → Prop} {after : β → σ → Prop} {rest inv : σ → Prop} {s : σ}

/-- An action that starts in the state `s` leaves a state that satisfies `post` with the result when
it succeeds, and one that satisfies `rest` when it fails. -/
def Leaves (m : ExceptT ε (StateM σ) α) (post : α → σ → Prop) (rest : σ → Prop) (s : σ) : Prop :=
  match m.run.run s with
  | (.ok a, t) => post a t
  | (.error _, t) => rest t

theorem leaves_pure {a : α} (h : post a s) :
    Leaves (pure a : ExceptT ε (StateM σ) α) post rest s := h

theorem leaves_bind_of_run {a : α} {t : σ} (hrun : m.run.run s = (.ok a, t)) :
    Leaves (m >>= f) after rest s ↔ Leaves (f a) after rest t := by
  unfold Leaves
  rw [run_bind_of_ok hrun]

/-- Two actions one after the other, by what the first one leaves. -/
theorem Leaves.bind {mid : α → σ → Prop} (hm : Leaves m mid rest s)
    (hf : ∀ a t, mid a t → Leaves (f a) after rest t) : Leaves (m >>= f) after rest s := by
  unfold Leaves at hm
  rcases hrun : m.run.run s with ⟨r, t⟩
  rw [hrun] at hm
  cases r with
  | ok a => exact (leaves_bind_of_run hrun).2 (hf a t hm)
  | error e =>
    unfold Leaves
    rwa [run_bind_of_error hrun]

/-- A computation without a state comes first. -/
theorem leaves_liftM {x : Except ε α} (hrest : ∀ e, x = .error e → rest s)
    (hf : ∀ a, x = .ok a → Leaves (f a) after rest s) :
    Leaves ((liftM x : ExceptT ε (StateM σ) α) >>= f) after rest s := by
  cases x with
  | ok a => exact hf a rfl
  | error e => exact hrest e rfl

/-- What an action leaves may be weakened. -/
theorem Leaves.imp {post' : α → σ → Prop} {rest' : σ → Prop} (h : Leaves m post rest s)
    (hpost : ∀ a t, post a t → post' a t) (hrest : ∀ t, rest t → rest' t) :
    Leaves m post' rest' s := by
  unfold Leaves at *
  rcases hrun : m.run.run s with ⟨r, t⟩
  rw [hrun] at h
  cases r with
  | ok a => exact hpost a t h
  | error e => exact hrest t h

/-- What is left by an action is known of an end that is known. -/
theorem Leaves.of_run {a : α} {t : σ} (h : Leaves m post rest s)
    (hrun : m.run.run s = (.ok a, t)) : post a t := by
  unfold Leaves at h
  rwa [hrun] at h

/-- An action that cannot fail leaves nothing behind. -/
theorem Ends.leaves (h : Ends m post (fun _ => False) s) : Leaves m post rest s := by
  obtain ⟨a, t, hrun, ha⟩ := h.ok
  unfold Leaves
  rwa [hrun]

theorem keeps_iff_leaves :
    Keeps inv m ↔ ∀ s, inv s → Leaves m (fun _ t => inv t) inv s := by
  unfold Keeps Leaves
  refine forall_congr' fun s => imp_congr_right fun _ => ?_
  rcases m.run.run s with ⟨r, t⟩
  cases r <;> exact Iff.rfl

end Leaves

end ProofScript
