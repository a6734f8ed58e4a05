import ProofScript.Proofs.Code.Growth
import ProofScript.Proofs.Dialect.Invariants

/-!
# Obligations that fail

Emitters do not clean up. An obligation that fails inside its own definition leaves it open, and as
at most one definition is open at a time, no later obligation succeeds. All other failures leave
nothing behind but the invariants that have been emitted, so emitting can go on. In neither case
does the program run anything that has not succeeded (`Backend.failures_contained`).
-/

namespace ProofScript

variable {stem : String} {s t : Builder}

/-! ## Inside a definition -/

/-- Since `s` the definition of a claim has been opened, and nothing has been finished. -/
structure Pending (stem : String) (s t : Builder) : Prop where
  current : ∃ n lines, t.current = some ⟨.method, Claim.numbered stem n, [], none, lines⟩
  items : t.items = s.items
  run : t.run = s.run

/-- Since `s` the program runs one more name, which is that of a claim. -/
structure Scheduled (stem : String) (s t : Builder) : Prop where
  closed : t.current = none
  run : ∃ n, t.run = s.run ++ [Claim.numbered stem n]

/-- Where the definition of a claim is open, it stays open, and nothing is finished. -/
def Still {α : Type} (m : Building α) : Prop := ∀ stem s, Keeps (Pending stem s) m

section Still

variable {α β : Type} {m : Building α} {f : α → Building β}

theorem Still.bind (hm : Still m) (hf : ∀ a, Still (f a)) : Still (m >>= f) :=
  fun stem s => Keeps.bind (hm stem s) fun a => hf a stem s

theorem still_pure (a : α) : Still (pure a : Building α) := fun _ _ => keeps_pure

theorem still_mapM {γ : Type} {g : γ → Building α} {xs : List γ} (h : ∀ x, Still (g x)) :
    Still (xs.mapM g) :=
  fun stem s => keeps_mapM fun x _ => h x stem s

theorem still_ofTerm (r : Except CodeFault α) : Still (Building.ofTerm r) :=
  fun _ _ => keeps_liftM

theorem still_fresh (other : String) : Still (Building.fresh other) :=
  fun _ _ _ h => ⟨h.current, h.items, h.run⟩

theorem still_emit (lines : List String) : Still (Building.emit lines) := by
  intro stem s
  refine keeps_iff_leaves.2 fun t h => ?_
  obtain ⟨n, before, hcurrent⟩ := h.current
  exact ((ends_emit hcurrent).2 ⟨⟨n, before ++ lines, rfl⟩, h.items, h.run⟩).leaves

end Still

/-- Inside the definition of a claim, the action settles the claim, or it leaves the definition
open. -/
def Within (stem : String) (m : Building Unit) : Prop :=
  ∀ s t, Pending stem s t → Leaves m (fun _ u => Scheduled stem s u) (Pending stem s) t

theorem Still.within {α : Type} {m : Building α} {f : α → Building Unit} (hm : Still m)
    (hf : ∀ a, Within stem (f a)) : Within stem (m >>= f) := by
  intro s t h
  have hfirst := keeps_iff_leaves.1 (hm stem s) t h
  exact hfirst.bind fun a u hu => hf a s u hu

/-- Only the end of the definition schedules it. -/
theorem within_close : Within stem (Building.close true >>= fun _ => pure ()) := by
  intro s t h
  obtain ⟨n, lines, hcurrent⟩ := h.current
  have hclosed : Ends (Building.close true) (fun _ u => Scheduled stem s u) (fun _ => False) t := by
    refine (ends_close hcurrent fun _ => rfl).2 ⟨rfl, n, ?_⟩
    rw [if_pos rfl, h.run]
  exact hclosed.leaves.bind fun _ _ hu => leaves_pure hu

/-! ## Claims with a definition of their own -/

theorem leaves_openDef_of_open {α : Type} {kind : DefKind} {params : List Param}
    {returns : Option String} {f : String → Building α} (hs : s.current ≠ none) :
    Leaves (Building.openDef kind stem params returns >>= f) (fun _ _ => False) (Appends [] s)
      s := by
  obtain ⟨other, hother⟩ := Option.ne_none_iff_exists'.1 hs
  have hfails : (Building.openDef kind stem params returns).run.run s =
      (.error (.alreadyOpen kind other.name), s) := by
    simp only [Building.openDef]
    rw [run_bind_of_ok (rfl : (get : Building Builder).run.run s = (.ok s, s)), hother]
    rfl
  unfold Leaves
  rw [run_bind_of_error hfails]
  exact .refl s

/-- The action settles a claim by a definition of its own. It fails inside this definition, or,
where another one is open, before it has changed anything but names. -/
structure Defines (stem : String) (m : Building Unit) : Prop where
  closed : ∀ s : Builder, s.current = none →
    Leaves m (fun _ t => Scheduled stem s t) (Pending stem s) s
  blocked : ∀ s : Builder, s.current ≠ none → Leaves m (fun _ _ => False) (Appends [] s) s

theorem defines_openDef {f : String → Building Unit} (hf : ∀ name, Within stem (f name)) :
    Defines stem (Building.openDef .method stem [] none >>= f) where
  closed s hs := by
    have hopened : Ends (Building.openDef .method stem [] none) (fun _ t => Pending stem s t)
        (fun _ => False) s :=
      (ends_openDef hs).2 ⟨⟨_, [], rfl⟩, rfl, rfl⟩
    exact hopened.leaves.bind fun name t h => hf name s t h
  blocked s hs := leaves_openDef_of_open hs

theorem defines_fresh {other : String} {f : String → Building Unit}
    (hf : ∀ name, Defines stem (f name)) : Defines stem (Building.fresh other >>= f) where
  closed s hs := by
    refine leaves_fresh.bind ?_
    rintro name _ ⟨-, rfl⟩
    refine ((hf name).closed (s.draw other) hs).imp ?_ ?_
    · exact fun _ t h => ⟨h.closed, h.run⟩
    · exact fun t h => ⟨h.current, h.items, h.run⟩
  blocked s hs := by
    refine leaves_fresh.bind ?_
    rintro name _ ⟨-, rfl⟩
    have hdrawn := (Appends.refl s).draw other
    exact ((hf name).blocked (s.draw other) hs).imp (fun _ _ h => h) fun _ h => hdrawn.trans h

namespace Emit

variable {d : Dialect}

theorem assertion_defines (program condition : Node) :
    Defines "assertion" (assertion d program condition) := by
  refine defines_fresh fun _ => defines_fresh fun _ => defines_fresh fun _ =>
    defines_fresh fun _ => defines_openDef fun _ => ?_
  exact (still_ofTerm _).within fun _ => (still_ofTerm _).within fun _ =>
    (still_emit _).within fun _ => within_close

theorem concede_defines (lhs rhs context : Node) :
    Defines "admitted" (concede d lhs rhs context) := by
  refine defines_openDef fun _ => (still_fresh _).within fun _ => (still_fresh _).within fun _ => ?_
  refine (still_ofTerm _).within fun _ => (still_ofTerm _).within fun _ => ?_
  exact (still_emit _).within fun _ => (still_emit _).within fun _ => within_close

theorem still_pairTerms (pairs : List (Node × Node)) : Still (pairTerms d pairs) :=
  still_mapM fun _ => (still_ofTerm _).bind fun _ => (still_ofTerm _).bind fun _ => still_pure _

theorem replacement_defines (lhs rhs context old new : Node) (assumptions : List (Node × Node)) :
    Defines "validrewrite" (replacement d lhs rhs context old new assumptions) := by
  refine defines_openDef fun _ => (still_fresh _).within fun _ => (still_fresh _).within fun _ => ?_
  refine (still_fresh _).within fun _ => (still_fresh _).within fun _ => ?_
  refine (still_pairTerms _).within fun _ => (still_pairTerms _).within fun _ => ?_
  refine (still_ofTerm _).within fun _ => (still_ofTerm _).within fun _ => ?_
  refine (still_ofTerm _).within fun _ => (still_ofTerm _).within fun _ => ?_
  exact (still_ofTerm _).within fun _ => (still_emit _).within fun _ => within_close

theorem still_evaluations (ctx : String) (last : Option String) (terms : List Node) :
    Still (evaluations d ctx last terms) := by
  induction terms generalizing ctx last with
  | nil => exact still_pure _
  | cons term terms ih =>
    refine (still_fresh _).bind fun _ => (still_fresh _).bind fun _ => (still_fresh _).bind ?_
    intro next
    refine (still_ofTerm _).bind fun _ => (still_emit _).bind fun _ => (still_emit _).bind ?_
    exact fun _ => ih _ _

theorem run_defines (terms : List Node) (seed : Option Seed) (expect : Option Expectation) :
    Defines "run" (run d terms seed expect) := by
  refine defines_openDef fun _ => (still_fresh _).within fun _ => (still_emit _).within fun _ => ?_
  exact (still_evaluations _ _ _).within fun _ => (still_emit _).within fun _ => within_close

theorem wholeObject_defines (check : String → String → String → List String → List String)
    (lhs rhs context : Node) (verbatim : String) (names : List String) :
    Defines "equivalent" (wholeObject d check lhs rhs context verbatim names) := by
  refine defines_openDef fun _ => (still_fresh _).within fun _ => (still_fresh _).within fun _ => ?_
  refine (still_fresh _).within fun _ => (still_ofTerm _).within fun _ => ?_
  refine (still_ofTerm _).within fun _ => (still_ofTerm _).within fun _ => ?_
  exact (still_emit _).within fun _ => (still_emit _).within fun _ => (still_emit _).within fun _ =>
    within_close

end Emit

/-! ## What is left of an obligation -/

/-- What the invariants of a dialect leave alone: the open definition and the names that the program
runs. Where equivalences are proved by lemmas, an invariant fails while a definition is open. -/
structure Dialect.Careful (d : Dialect) : Prop where
  invariant : ∀ inv current run,
    Keeps (fun b : Builder => b.current = current ∧ b.run = run) (d.invariant inv)
  blocked : ∀ {l : LemmaNotation}, d.style = .methodLemmas l → ∀ inv (s : Builder),
    s.current ≠ none → Leaves (d.invariant inv) (fun _ _ => False) (Appends [] s) s

namespace Emit

variable {d : Dialect}

/-- All that can fail comes before anything is added. -/
theorem methodLemmas_leaves {l : LemmaNotation} (hl : l.Sound d) (lhs rhs context : Node)
    (verbatim : String) (names : List String) (hs : s.current = none) :
    Leaves (methodLemmas d l lhs rhs context verbatim names)
      (fun _ t => Scheduled "equivalent" s t) (Appends [] s) s := by
  refine leaves_liftM (fun _ _ => .refl s) fun objects _ => ?_
  refine leaves_fresh.bind ?_
  rintro proof _ ⟨hproof, rfl⟩
  have hdrawn : Appends [] s (s.draw "equivalent") := (Appends.refl s).draw _
  refine leaves_liftM (fun _ _ => hdrawn) fun contextText _ => ?_
  refine leaves_liftM (fun _ _ => hdrawn) fun lhsText _ => ?_
  refine leaves_liftM (fun _ _ => hdrawn) fun rhsText _ => ?_
  have hidle : Idle d ["equivalent"] s (s.draw "equivalent") :=
    ⟨hs, (Since.refl d s).drawClaim "equivalent"⟩
  have hscheduled : ∀ t, Settled d "equivalent" s t → Scheduled "equivalent" s t :=
    fun t h => ⟨h.closed, _, h.run⟩
  refine Leaves.imp (Ends.leaves ?_) (fun _ => hscheduled) fun _ h => h
  dsimp only
  split
  · exact lemmas_settle hl hproof verbatim _ hidle
  · exact (hl.conjunction names hidle).bind fun _ _ h => lemmas_settle hl hproof verbatim _ h

/-- The invariants that are emitted in front of an obligation. -/
def invariantsOf (d : Dialect) : Obligation → Building (List String)
  | .equivalence _ _ _ invariants _ =>
    (if invariants.isEmpty then [Invariant.always] else invariants).mapM d.invariant
  | _ => pure []

/-- Whether the terms of an obligation are rendered inside its own definition. -/
def opens (d : Dialect) : Obligation → Bool
  | .equivalence .. =>
    match d.style with
    | .methodLemmas _ => false
    | .wholeObject _ => true
  | _ => true

/-- The obligation comes as far as its own definition. -/
def Reaches (d : Dialect) (o : Obligation) (s : Builder) : Prop :=
  opens d o = true ∧ ((invariantsOf d o).run.run s).1.isOk = true

/-- What an obligation leaves behind when it fails. -/
structure Remains (d : Dialect) (o : Obligation) (s t : Builder) : Prop where
  run : t.run = s.run
  /-- Only its invariants have been finished. -/
  items : t.items = ((invariantsOf d o).run.run s).2.items
  /-- A definition that is open stays open. -/
  kept : s.current ≠ none → t.current = s.current
  /-- Its own definition stays open. -/
  opened : s.current = none → Reaches d o s →
    ∃ n lines, t.current = some ⟨.method, Claim.numbered o.claim.stem n, [], none, lines⟩
  closed : s.current = none → ¬Reaches d o s → t.current = none

variable {o : Obligation} {u : Builder} {names : List String} {m : Building Unit}

/-- Whatever is open has been open before, and the own definition has not been reached. -/
theorem Remains.of_kept (hrun : t.run = s.run)
    (hitems : t.items = ((invariantsOf d o).run.run s).2.items) (hcurrent : t.current = s.current)
    (hnot : s.current = none → ¬Reaches d o s) : Remains d o s t where
  run := hrun
  items := hitems
  kept _ := hcurrent
  opened hs hreaches := absurd hreaches (hnot hs)
  closed hs _ := hcurrent.trans hs

/-- An obligation with a definition of its own, after its invariants. -/
theorem leaves_of_defines (h : Defines o.claim.stem m) (ho : opens d o = true)
    (hinvs : (invariantsOf d o).run.run s = (.ok names, u))
    (hu : u.current = s.current ∧ u.run = s.run) :
    Leaves m (fun _ t => s.current = none ∧ Scheduled o.claim.stem s t) (Remains d o s) u := by
  obtain ⟨hcurrent, hrun⟩ := hu
  have hreaches : Reaches d o s := ⟨ho, by rw [hinvs]; rfl⟩
  by_cases hs : s.current = none
  · refine (h.closed u (hcurrent.trans hs)).imp ?_ ?_
    · rintro _ t ⟨hclosed, n, hscheduled⟩
      exact ⟨hs, hclosed, n, by rw [hscheduled, hrun]⟩
    · intro t hpending
      exact {
        run := hpending.run.trans hrun
        items := by rw [hinvs, hpending.items]
        kept := fun hne => absurd hs hne
        opened := fun _ _ => hpending.current
        closed := fun _ hnot => absurd hreaches hnot }
  · refine (h.blocked u (hcurrent ▸ hs)).imp (fun _ _ hfalse => hfalse.elim) ?_
    intro t hsame
    have hitems : t.items = ((invariantsOf d o).run.run s).2.items := by
      rw [hinvs, hsame.items, List.append_nil]
    exact .of_kept (hsame.run.trans hrun) hitems (hsame.current.trans hcurrent)
      fun hnone => absurd hnone hs

theorem invariantsOf_keeps (hd : d.Careful) (o : Obligation) (s : Builder) :
    ((invariantsOf d o).run.run s).2.current = s.current ∧
      ((invariantsOf d o).run.run s).2.run = s.run := by
  have hkeeps : Keeps (fun b : Builder => b.current = s.current ∧ b.run = s.run)
      (invariantsOf d o) := by
    cases o with
    | equivalence => exact keeps_mapM fun inv _ => hd.invariant inv _ _
    | _ => exact keeps_pure
  exact hkeeps s ⟨rfl, rfl⟩

/-- There is at least one invariant. -/
theorem invariantsOf_blocked (hd : d.Careful) {l : LemmaNotation} (hl : d.style = .methodLemmas l)
    (lhs rhs context : Node) (invariants : List Invariant) (verbatim : String)
    (hs : s.current ≠ none) :
    Leaves (invariantsOf d (.equivalence lhs rhs context invariants verbatim))
      (fun _ _ => False) (Appends [] s) s := by
  obtain ⟨inv, rest, hused⟩ : ∃ inv rest,
      (if invariants.isEmpty then [Invariant.always] else invariants) = inv :: rest := by
    cases invariants with
    | nil => exact ⟨_, _, rfl⟩
    | cons inv rest => exact ⟨inv, rest, rfl⟩
  rw [invariantsOf, hused, List.mapM_cons]
  exact (hd.blocked hl inv s hs).bind fun _ _ hfalse => hfalse.elim

/-- An equivalence fails with its invariants or after them. -/
theorem equivalence_leaves (hd : d.Sound) (hc : d.Careful) (lhs rhs context : Node)
    (invariants : List Invariant) (verbatim : String) (s : Builder) :
    Leaves (equivalence d lhs rhs context invariants verbatim)
      (fun _ t => s.current = none ∧ Scheduled "equivalent" s t)
      (Remains d (.equivalence lhs rhs context invariants verbatim) s) s := by
  let o : Obligation := .equivalence lhs rhs context invariants verbatim
  have hkeeps := invariantsOf_keeps hc o s
  show Leaves (invariantsOf d o >>= _) _ (Remains d o s) s
  rcases hrun : (invariantsOf d o).run.run s with ⟨answer, u⟩
  rw [hrun] at hkeeps
  obtain ⟨hcurrent, hnames⟩ := hkeeps
  cases answer with
  | error e =>
    have hnot : ¬Reaches d o s := by
      rintro ⟨-, hok⟩
      rw [hrun] at hok
      cases hok
    unfold Leaves
    rw [run_bind_of_error hrun]
    exact .of_kept hnames (by rw [hrun]) hcurrent fun _ => hnot
  | ok names =>
    rw [leaves_bind_of_run hrun]
    cases hstyle : d.style with
    | wholeObject check =>
      have hopens : opens d o = true := by simp only [o, opens, hstyle]
      have hdefines : Defines o.claim.stem (wholeObject d check lhs rhs context verbatim names) :=
        wholeObject_defines check lhs rhs context verbatim names
      exact leaves_of_defines hdefines hopens hrun ⟨hcurrent, hnames⟩
    | methodLemmas l =>
      have hs : s.current = none := by
        by_contra hopen
        exact (invariantsOf_blocked hc hstyle lhs rhs context invariants verbatim hopen).of_run hrun
      have hnot : ¬Reaches d o s := by
        rintro ⟨hopens, -⟩
        simp only [o, opens, hstyle] at hopens
        cases hopens
      have hleaves := methodLemmas_leaves (hd.lemmas hstyle) lhs rhs context verbatim names
        (hcurrent.trans hs)
      refine hleaves.imp ?_ ?_
      · rintro _ t ⟨hclosed, n, hscheduled⟩
        exact ⟨hs, hclosed, n, by rw [hscheduled, hnames]⟩
      · intro t hsame
        have hitems : t.items = ((invariantsOf d o).run.run s).2.items := by
          rw [hrun, hsame.items, List.append_nil]
        exact .of_kept (hsame.run.trans hnames) hitems (hsame.current.trans hcurrent) fun _ => hnot

/-- An obligation that succeeds has found no definition open and leaves none. -/
theorem obligation_leaves (hd : d.Sound) (hc : d.Careful) (o : Obligation) (s : Builder) :
    Leaves (obligation d o) (fun _ t => s.current = none ∧ Scheduled o.claim.stem s t)
      (Remains d o s) s := by
  have plain : ∀ {o : Obligation} {m : Building Unit}, Defines o.claim.stem m →
      opens d o = true → (invariantsOf d o).run.run s = (.ok [], s) →
      Leaves m (fun _ t => s.current = none ∧ Scheduled o.claim.stem s t) (Remains d o s) s :=
    fun hm ho hinvs => leaves_of_defines hm ho hinvs ⟨rfl, rfl⟩
  cases o with
  | assertion => exact plain (assertion_defines _ _) rfl rfl
  | equivalence => exact equivalence_leaves hd hc _ _ _ _ _ s
  | concede => exact plain (concede_defines _ _ _) rfl rfl
  | replacement => exact plain (replacement_defines _ _ _ _ _ _) rfl rfl
  | run => exact plain (run_defines _ _ _) rfl rfl

end Emit

/-! ## Obligations one after the other -/

/-- An obligation that has been emitted, with the builder before and after it. -/
structure Attempt where
  obligation : Obligation
  before : Builder
  answer : Except CodeFault Unit
  after : Builder

namespace Attempt

/-- The obligation has been emitted without an error. -/
def succeeded (a : Attempt) : Bool := a.answer.isOk

/-- An obligation succeeds only where no definition is open, and schedules its claim. What one that
fails leaves behind is known. -/
def Contained (d : Dialect) (a : Attempt) : Prop :=
  match a.answer with
  | .ok _ => a.before.current = none ∧ Scheduled a.obligation.claim.stem a.before a.after
  | .error _ => Emit.Remains d a.obligation a.before a.after

/-- The obligation succeeds, or it does not come as far as its own definition. -/
def Closes (d : Dialect) (a : Attempt) : Prop :=
  a.succeeded = true ∨ ¬Emit.Reaches d a.obligation a.before

variable {d : Dialect} {a : Attempt}

theorem Contained.closed_iff (h : a.Contained d) :
    a.after.current = none ↔ a.before.current = none ∧ a.Closes d := by
  unfold Contained at h
  unfold Closes succeeded
  split at h
  · next hanswer =>
    obtain ⟨hbefore, hscheduled⟩ := h
    simp [hbefore, hscheduled.closed, hanswer, Except.isOk, Except.toBool]
  · next e hanswer =>
    have hfailed : ¬(a.answer.isOk = true) := by simp [hanswer, Except.isOk, Except.toBool]
    rw [or_iff_right hfailed]
    by_cases hbefore : a.before.current = none
    · rw [and_iff_right hbefore]
      refine ⟨fun hnone hreaches => ?_, fun hnot => h.closed hbefore hnot⟩
      obtain ⟨n, lines, hopen⟩ := h.opened hbefore hreaches
      rw [hnone] at hopen
      cases hopen
    · rw [h.kept hbefore]
      exact iff_of_false hbefore fun hboth => hbefore hboth.1

/-- The name that the program runs for an obligation. -/
def Names (a : Attempt) (name : String) : Prop :=
  ∃ n, name = Claim.numbered a.obligation.claim.stem n

theorem Contained.exists_run (h : a.Contained d) :
    ∃ names, a.after.run = a.before.run ++ names ∧
      List.Forall₂ Names ([a].filter succeeded) names := by
  unfold Contained at h
  split at h
  · next hanswer =>
    obtain ⟨-, -, n, hrun⟩ := h
    have hsucceeded : a.succeeded = true := by rw [succeeded, hanswer]; rfl
    rw [List.filter_cons_of_pos hsucceeded]
    exact ⟨_, hrun, .cons ⟨n, rfl⟩ .nil⟩
  · next e hanswer =>
    have hfailed : ¬a.succeeded = true := by rw [succeeded, hanswer]; exact Bool.false_ne_true
    rw [List.filter_cons_of_neg hfailed]
    exact ⟨[], by rw [h.run, List.append_nil], .nil⟩

end Attempt

namespace Emit

/-- Emits an obligation. -/
def attempt (d : Dialect) (b : Builder) (o : Obligation) : Attempt where
  obligation := o
  before := b
  answer := ((obligation d o).run.run b).1
  after := ((obligation d o).run.run b).2

/-- Emits obligations one after the other, and goes on after those that fail. -/
def attempts (d : Dialect) : Builder → List Obligation → List Attempt
  | _, [] => []
  | b, o :: os => attempt d b o :: attempts d (attempt d b o).after os

variable {d : Dialect}

theorem attempt_contained (hd : d.Sound) (hc : d.Careful) (b : Builder) (o : Obligation) :
    (attempt d b o).Contained d := by
  have hleaves := obligation_leaves hd hc o b
  unfold Leaves at hleaves
  unfold Attempt.Contained attempt
  rcases hrun : (obligation d o).run.run b with ⟨answer, t⟩
  rw [hrun] at hleaves
  cases answer <;> exact hleaves

theorem attempts_contained (hd : d.Sound) (hc : d.Careful) (b : Builder) (os : List Obligation) :
    ∀ a ∈ attempts d b os, a.Contained d := by
  induction os generalizing b with
  | nil => exact List.forall_mem_nil _
  | cons o os ih => exact List.forall_mem_cons.2 ⟨attempt_contained hd hc b o, ih _⟩

/-- Nothing is open at the end when nothing was left open. -/
theorem closed_after_iff (hd : d.Sound) (hc : d.Careful) (b : Builder) (os : List Obligation) :
    (after d b os).current = none ↔
      b.current = none ∧ ∀ a ∈ attempts d b os, a.Closes d := by
  induction os generalizing b with
  | nil => simp [after, attempts]
  | cons o os ih =>
    have hfirst := (attempt_contained hd hc b o).closed_iff
    calc (after d b (o :: os)).current = none
        ↔ (after d (attempt d b o).after os).current = none := Iff.rfl
      _ ↔ (attempt d b o).after.current = none ∧
            ∀ a ∈ attempts d (attempt d b o).after os, a.Closes d := ih _
      _ ↔ b.current = none ∧ ∀ a ∈ attempts d b (o :: os), a.Closes d := by
        rw [hfirst, attempts, List.forall_mem_cons, and_assoc]
        exact Iff.rfl

theorem run_after (hd : d.Sound) (hc : d.Careful) (b : Builder) (os : List Obligation) :
    ∃ names, (after d b os).run = b.run ++ names ∧
      List.Forall₂ Attempt.Names ((attempts d b os).filter Attempt.succeeded) names := by
  induction os generalizing b with
  | nil => exact ⟨[], (List.append_nil _).symm, .nil⟩
  | cons o os ih =>
    obtain ⟨first, hfirst, hnames⟩ := (attempt_contained hd hc b o).exists_run
    obtain ⟨rest, hrest, hnames'⟩ := ih (attempt d b o).after
    refine ⟨first ++ rest, ?_, ?_⟩
    · show (after d (attempt d b o).after os).run = b.run ++ (first ++ rest)
      rw [hrest, hfirst, List.append_assoc]
      rfl
    · rw [attempts, ← List.singleton_append, List.filter_append]
      exact List.rel_append hnames hnames'

end Emit

/-! ## Both notations -/

theorem Dafny.careful (root : String) : (dialect root).Careful := by
  have hblocked : ∀ inv (s : Builder), s.current ≠ none →
      Leaves (invariant inv) (fun _ _ => False) (Appends [] s) s :=
    fun inv s hs => leaves_liftM (fun _ _ => .refl s) fun lines _ => leaves_openDef_of_open hs
  refine ⟨fun inv current run => keeps_iff_leaves.2 fun s hs => ?_, fun _ => hblocked⟩
  obtain ⟨rfl, rfl⟩ := hs
  by_cases hclosed : s.current = none
  · refine (leaves_invariant inv hclosed).imp ?_ ?_
    · rintro _ t ⟨lines, -, ht⟩
      exact ⟨ht.current, ht.run⟩
    · rintro _ rfl
      exact ⟨rfl, rfl⟩
  · exact (hblocked inv s hclosed).imp (fun _ _ hfalse => hfalse.elim)
      fun t ht => ⟨ht.current, ht.run⟩

theorem Rosette.careful (root : String) : (dialect root).Careful := by
  refine ⟨fun inv current run => keeps_iff_leaves.2 fun s hs => ?_, fun hl => nomatch hl⟩
  obtain ⟨rfl, rfl⟩ := hs
  refine (leaves_invariant inv s).imp ?_ ?_
  · rintro _ t ⟨text, -, ht⟩
    exact ⟨ht.current, ht.run⟩
  · rintro t ⟨ht, -⟩
    exact ⟨ht.current, ht.run⟩

theorem Backend.careful (backend : Backend) (root : String) : (backend.dialect root).Careful := by
  cases backend with
  | dafny => exact Dafny.careful root
  | rosette => exact Rosette.careful root

/-- Obligations are emitted one after the other, whichever of them fail. Each leaves behind what is
known of it. The program runs one name for each that succeeds, in order. It can be assembled exactly
when no failure has left a definition open. -/
theorem Backend.failures_contained (backend : Backend) (root : String) (os : List Obligation) :
    let d := backend.dialect root
    let attempts := Emit.attempts d Builder.start os
    let b := Emit.after d Builder.start os
    (∀ a ∈ attempts, a.Contained d) ∧
      List.Forall₂ Attempt.Names (attempts.filter Attempt.succeeded) b.run ∧
      ((∃ text, b.assemble d = .ok text) ↔ ∀ a ∈ attempts, a.Closes d) := by
  intro d attempts b
  have hd : d.Sound := backend.dialect_sound root
  have hc : d.Careful := backend.careful root
  refine ⟨Emit.attempts_contained hd hc _ os, ?_, ?_⟩
  · obtain ⟨names, hrun, hnames⟩ := Emit.run_after hd hc Builder.start os
    have hall : b.run = names := hrun
    rwa [hall]
  · rw [Builder.exists_assemble_iff, Emit.closed_after_iff hd hc Builder.start os]
    exact and_iff_right rfl

/-- A check is no expression. An assertion leaves its definition open, so that there is no program,
and an equivalence leaves the function for its invariant behind. -/
theorem Dafny.failures_leave_parts :
    let d := dialect "lib"
    let check : Node := .detached (.assert (.var "a"))
    let stated : Obligation := .assertion .nop check
    let equated : Obligation := .equivalence check (.var "b") .nop [.always] ""
    ((Emit.after d Builder.start [stated]).current ≠ none ∧
        ((Emit.after d Builder.start [stated]).assemble d).isOk = false) ∧
      (Emit.attempt d Builder.start equated).succeeded = false ∧
      (Emit.after d Builder.start [equated]).items.length = 1 :=
  ⟨⟨nofun, rfl⟩, rfl, rfl⟩

end ProofScript
