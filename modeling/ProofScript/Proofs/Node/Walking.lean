import ProofScript.Node.Walk
import ProofScript.Proofs.Action
import ProofScript.Proofs.Node.Marks
import ProofScript.Proofs.Node.Rebuilding

/-!
# Walks that succeed

What a walk returns is related to what it was given as soon as one visit keeps the relation
(`Pass.ends_walkIn_of_visit`). A pass that never refuses a node and replaces at most the mark of a
field initialiser (`Pass.Gentle`) gets through every tree whose nodes stand where their parents
accept them, and the tree that it returns is the old one up to marks.
-/

namespace ProofScript

/-! ## Positions -/

/-- Every child of a shape is accepted by its position. -/
def Shape.Fits (s : Shape Node) : Prop := ∀ p ∈ s.slotted, p.1.accepts p.2 = true

/-- What the positions of a construct ask, construct by construct. -/
def Shape.Seats : Shape Node → Prop
  | .new fields _ => ∀ f ∈ fields, f.tag = .init
  | .method _ formals _ => ∀ f ∈ formals, f.tag = .var
  | .assign target _ => target.tag = .var ∨ target.tag = .compound
  | .seq first second => first.isSurface = false ∧ second.isSurface = false
  | .assume chain => ∃ a b hints verbatims, chain.shape = .proof [a, b] hints verbatims
  | _ => True

/-- The chain of an assumption is a proof chain of two terms. -/
theorem Slot.accepts_assumedProof {n : Node} :
    Slot.assumedProof.accepts n = true ↔
      ∃ a b hints verbatims, n.shape = .proof [a, b] hints verbatims := by
  unfold accepts
  cases n.shape with
  | proof terms hints verbatims => simp [List.length_eq_two]
  | _ => simp

/-- The positions ask what is spelled out for each construct. -/
theorem Shape.fits_iff {s : Shape Node} : s.Fits ↔ s.Seats := by
  unfold Fits
  cases s with
  | new | method | assign | seq => simp [slotted, Seats, Slot.accepts, or_imp, forall_and]
  | assume => simp [slotted, Seats, Slot.accepts_assumedProof]
  | _ => simp [slotted, Seats, Slot.accepts, or_imp, forall_and]

/-- A well-formed layer has every child where it belongs. -/
theorem Shape.WellFormed.fits {s : Shape Node} (h : s.WellFormed) : s.Fits := by
  rw [fits_iff]
  cases s with
  | seq => exact ⟨h.1, h.2.1⟩
  | new | method | assign | assume => exact h
  | _ => trivial

@[simp] theorem Shape.slotted_unmarked (s : Shape Node) : s.unmarked.slotted = s.slotted := by
  cases s <;> rfl

/-- The marks of initialisers do not matter to a position. -/
theorem Slot.accepts_unmarked (slot : Slot) (id : NodeId) (span : Span) (s : Shape Node) :
    slot.accepts (Node.mk id span s.unmarked) = slot.accepts (Node.mk id span s) := by
  cases s <;> rfl

theorem Slot.accepts_congr {slot : Slot} {n m : Node} (h : n.shape.unmarked = m.shape.unmarked) :
    slot.accepts n = slot.accepts m := by
  obtain ⟨id, span, s⟩ := n
  obtain ⟨id', span', t⟩ := m
  have hs : s.unmarked = t.unmarked := h
  rw [← accepts_unmarked, hs, ← accepts_unmarked slot id' span' t]
  rfl

/-- Every node of a tree stands where its parent accepts it. -/
def Node.Fits (n : Node) : Prop := n.Everywhere fun m => m.shape.Fits

theorem Node.Regular.fits {n : Node} (h : n.Regular) : n.Fits := h.imp fun _ hm => hm.1.fits

/-! ## Rebuilding a shape -/

section Traverse

variable {σ α β γ : Type} {fails : TreeError → Prop} {w : WalkState σ}

/-- A shape is refilled with results that are related to its children, when the action on every
child gives a related result and keeps what the next one needs of the state. -/
theorem ends_traverse {f : Slot → α → Walk σ β} {q : Slot × α → β → Prop}
    {inv : WalkState σ → Prop} {s : Shape α}
    (h : ∀ p ∈ s.slotted, ∀ w, inv w → Ends (f p.1 p.2) (fun b t => q p b ∧ inv t) fails w)
    (hw : inv w) :
    Ends (s.traverse f)
      (fun t w => (∃ bs, List.Forall₂ q s.slotted bs ∧ t = s.refill bs) ∧ inv w) fails w := by
  rw [Shape.traverse_eq, ends_map]
  refine (ends_mapM_forall₂ h hw).mono fun bs t ⟨hbs, ht⟩ => ?_
  exact ⟨⟨bs, hbs, rfl⟩, ht⟩

theorem Shape.length_of_forall₂ {q : Slot × α → β → Prop} {s : Shape α} {bs : List β}
    (h : List.Forall₂ q s.slotted bs) : bs.length = s.children.length := by
  rw [← h.length_eq, ← s.map_slotted, List.length_map]

/-- Results that agree with the children under `g` make up a shape that does. -/
theorem Shape.map_refill_of_forall₂ {g : α → γ} {g' : β → γ} {s : Shape α} {bs : List β}
    (h : List.Forall₂ (fun p b => g' b = g p.2) s.slotted bs) :
    (s.refill bs).map g' = s.map g := by
  have hmap : bs.map g' = s.children.map g := by
    rw [← s.map_slotted, List.map_map]
    generalize s.slotted = ps at h
    induction h with
    | nil => rfl
    | cons hb _ ih => simp [hb, ih]
  rw [map_refill, hmap, refill_map]

end Traverse

/-! ## Gentle passes -/

section Gentle

variable {σ : Type}

@[simp] theorem ends_restoring {α : Type} {act : Walk σ α} {post : α → WalkState σ → Prop}
    {fails : TreeError → Prop} {w : WalkState σ} :
    Ends (Walk.restoring act) post fails w ↔
      Ends act (fun a t =>
        post a { t with context := Walk.truncate w.context.length t.context }) fails w := by
  unfold Ends
  rw [Walk.run_restoring]
  rcases act.run.run w with ⟨r, t⟩
  cases r <;> rfl

/-- A position accepts what it is checked for. -/
theorem Place.check_eq_ok {place : Option Place} {n : Node} :
    check place n = .ok () ↔ ∀ p ∈ place, p.slot.accepts n = true := by
  cases place with
  | none => simp [check]
  | some p => simp [check]

/-- How what a successful walk returns is related to what it was given, when `v` is something
that a walk leaves as it found it. It is enough to go through one visit: the children of the
replacement may be taken to be walked already. -/
theorem Pass.ends_walkIn_of_visit {pass : Pass σ} {γ : Type} {v : WalkState σ → γ}
    (hview : ∀ limit place n c, Keeps (fun w => v w = c) (pass.walkIn limit place n))
    {q : γ → Option Place → Node → Node → Prop}
    (hvisit : ∀ place n w, Ends (pass.visit n)
      (fun m t => Place.check place m = .ok () → ∀ ks,
        List.Forall₂ (fun p k => q (v t) (some ⟨p.1, m.tag⟩) p.2 k) m.shape.slotted ks →
        q (v w) place n (m.withShape (m.shape.refill ks))) (fun _ => True) w)
    (limit : Nat) (place : Option Place) (n : Node) (w : WalkState σ) :
    Ends (pass.walkIn limit place n) (fun k _ => q (v w) place n k) (fun _ => True) w := by
  induction limit generalizing place n w with
  | zero => trivial
  | succ limit ih =>
    rw [Pass.walkIn, ends_restoring]
    refine (hvisit place n w).bind fun m t hm => ?_
    cases hcheck : Place.check place m with
    | error e => trivial
    | ok =>
      rw [ends_bind, ends_liftM_ok]
      have hbelow : ∀ p ∈ m.shape.slotted, ∀ u : WalkState σ, v u = v t →
          Ends (pass.walkIn limit (some { slot := p.1, parent := m.tag }) p.2)
            (fun k u => q (v t) (some ⟨p.1, m.tag⟩) p.2 k ∧ v u = v t)
            (fun _ => True) u := by
        intro p _ u hu
        rw [← hu]
        exact (ih _ p.2 u).and_keeps (hview limit _ p.2 (v u)) rfl
      have hloop := ends_traverse (f := fun slot child =>
        pass.walkIn limit (some { slot := slot, parent := m.tag }) child) hbelow rfl
      refine hloop.bind fun s _ ⟨⟨ks, hks, hs⟩, _⟩ => ?_
      rw [hs]
      exact hm hcheck ks hks

/-- A tree in which a walk to a depth of at most `limit` nodes meets no fault of its own. -/
structure Node.Passable (n : Node) (limit : Nat) (place : Option Place) : Prop where
  /-- The nodes of the tree are where they belong. -/
  fits : n.Fits
  /-- The tree itself is where it belongs. -/
  accepted : ∀ p ∈ place, p.slot.accepts n = true
  /-- The tree is not too deep. -/
  height_le : n.height ≤ limit

theorem Node.Fits.passable {n : Node} (h : n.Fits) : n.Passable n.height none where
  fits := h
  accepted := fun _ hp => absurd hp (Option.not_mem_none _)
  height_le := Nat.le_refl _

theorem Node.Passable.pos {n : Node} {limit : Nat} {place : Option Place}
    (h : n.Passable limit place) : 0 < limit :=
  Nat.lt_of_lt_of_le n.height_pos h.height_le

theorem Node.Passable.child {n : Node} {limit : Nat} {place : Option Place}
    (h : n.Passable (limit + 1) place) {p : Slot × Node} (hp : p ∈ n.shape.slotted) (parent : Tag) :
    p.2.Passable limit (some { slot := p.1, parent := parent }) where
  fits := h.fits.child (n.shape.mem_children_of_slotted hp)
  accepted := by
    intro place hplace
    obtain rfl := Option.mem_some.1 hplace
    have hroot : n.shape.Fits := h.fits.root
    exact hroot p hp
  height_le := by
    have hlower : p.2.height < n.height := by
      cases n
      exact Node.height_lt_of_mem (Shape.mem_children_of_slotted _ hp)
    have hheight := h.height_le
    omega

theorem Pass.walk_of_run {pass : Pass σ} {start s : σ} {n m : Node}
    (h : pass.run start n = .ok (m, s)) :
    ∃ t, (pass.walk n.height n).run.run { context := [], state := start } = (.ok m, t) ∧
      t.state = s := by
  unfold run at h
  split at h
  · rename_i k t hrun
    cases h
    exact ⟨t, hrun, rfl⟩
  · cases h

/-- A pass that refuses no node and replaces at most the mark of a field initialiser. -/
def Pass.Gentle (pass : Pass σ) : Prop :=
  ∀ n w, Ends (pass.visit n)
    (fun m _ => m.id = n.id ∧ m.span = n.span ∧ m.shape.unmarked = n.shape.unmarked)
    (fun _ => False) w

/-- A gentle pass gets through a tree whose nodes are where they belong, and the result is the tree
up to marks. -/
theorem Pass.Gentle.walkIn {pass : Pass σ} (hp : pass.Gentle) (limit : Nat) (place : Option Place)
    (n : Node) (w : WalkState σ) (hn : n.Passable limit place) :
    Ends (pass.walkIn limit place n) (fun m _ => m.unmarked = n.unmarked) (fun _ => False) w := by
  induction limit generalizing place n w with
  | zero => exact absurd hn.pos (Nat.lt_irrefl 0)
  | succ limit ih =>
    rw [Pass.walkIn, ends_restoring]
    refine (hp n w).bind fun m w ⟨hid, hspan, hshape⟩ => ?_
    have hcheck : Place.check place m = .ok () := by
      rw [Place.check_eq_ok]
      intro p hplace
      rw [Slot.accepts_congr hshape]
      exact hn.accepted p hplace
    have hslots : m.shape.slotted = n.shape.slotted := by
      rw [← Shape.slotted_unmarked, hshape, Shape.slotted_unmarked]
    rw [hcheck, ends_bind, ends_liftM_ok]
    have hbelow : ∀ p ∈ m.shape.slotted, ∀ w : WalkState σ, True →
        Ends (pass.walkIn limit (some { slot := p.1, parent := m.tag }) p.2)
          (fun k _ => k.unmarked = p.2.unmarked ∧ True) (fun _ => False) w := by
      intro p hp w _
      rw [hslots] at hp
      exact (ih _ p.2 w (hn.child hp m.tag)).mono fun k _ hk => ⟨hk, trivial⟩
    refine (ends_traverse hbelow trivial).bind fun s _ ⟨⟨bs, hbs, hs⟩, _⟩ => ?_
    have hs : s.map Node.unmarked = m.shape.map Node.unmarked := by
      rw [hs, Shape.map_refill_of_forall₂ hbs]
    show (Node.mk m.id m.span s).unmarked = n.unmarked
    obtain ⟨id, span, t⟩ := n
    rw [Node.unmarked_mk, Node.unmarked_mk, hs, ← Shape.unmarked_map, hid, hspan, hshape,
      Shape.unmarked_map]
    rfl

/-- A gentle pass that makes no tree higher runs to its end. -/
theorem Pass.Gentle.run {pass : Pass σ} (hp : pass.Gentle) {n : Node} (hn : n.Fits) (start : σ) :
    ∃ m t, pass.run start n = .ok (m, t) ∧ m.unmarked = n.unmarked := by
  obtain ⟨m, t, hrun, hm⟩ :=
    (hp.walkIn n.height none n { context := [], state := start } hn.passable).ok
  refine ⟨m, t.state, ?_, hm⟩
  simp only [Pass.run, Pass.walk, hrun]

end Gentle

end ProofScript
