import ProofScript.Node.Policy
import ProofScript.Proofs.Node.Walking

/-!
# What a walk returns

Whatever a pass does to the nodes that it visits, a walk that succeeds returns a tree in which every
node stands where its parent accepts it. The walk checks a replacement before it goes on into the
children of the replacement. Rewriting the children cannot undo the check, because no position looks
at more of a node than its construct and the number of its children.

The check is about children only. That a proof chain has a slot for each of its terms is not part of
it (`Pass.keep_structured`).
-/

namespace ProofScript

/-- The nodes put back into a shape are as their positions ask. -/
theorem Shape.forall_slotted_refill {α β : Type} {q : Slot → β → Prop} {s : Shape α} {bs : List β}
    (h : List.Forall₂ (fun p b => q p.1 b) s.slotted bs) :
    ∀ p ∈ (s.refill bs).slotted, q p.1 p.2 := by
  have hslots : List.Forall₂ q (s.slotted.map Prod.fst) bs := List.forall₂_map_left_iff.2 h
  rw [slotted_refill (length_of_forall₂ h)]
  intro p hp
  exact (List.forall₂_iff_zip.1 hslots).2 hp

theorem Shape.forall_children_refill {α β : Type} {q : β → Prop} {s : Shape α} {bs : List β}
    (h : List.Forall₂ (fun _ b => q b) s.slotted bs) : ∀ k ∈ (s.refill bs).children, q k := by
  rw [← (s.refill bs).map_slotted, List.forall_mem_map]
  exact forall_slotted_refill (q := fun _ b => q b) h

/-- The number of terms of a proof chain. -/
def Shape.termCount? {α : Type} : Shape α → Option Nat
  | .proof terms _ _ => some terms.length
  | _ => none

theorem Shape.termCount?_map {α β : Type} (f : α → β) (s : Shape α) :
    (s.map f).termCount? = s.termCount? := by
  cases s with
  | proof terms => exact congrArg some (List.length_map f)
  | _ => rfl

theorem Slot.accepts_assumedProof_eq (n : Node) :
    assumedProof.accepts n = (n.shape.termCount? == some 2) := by
  unfold accepts
  cases n.shape <;> rfl

theorem Slot.accepts_of_frame {slot : Slot} {n m : Node}
    (h : n.shape.map (fun _ => ()) = m.shape.map fun _ => ()) :
    slot.accepts n = slot.accepts m := by
  have htag : n.tag = m.tag := Shape.tag_of_frame h
  cases slot with
  | any => rfl
  | statement => simp only [accepts, Node.isSurface, htag]
  | field | formal | assignTarget => simp only [accepts, htag]
  | assumedProof =>
    rw [accepts_assumedProof_eq, accepts_assumedProof_eq, ← Shape.termCount?_map (fun _ => ()),
      h, Shape.termCount?_map]

variable {σ : Type}

theorem Pass.ends_walkIn_fits (pass : Pass σ) (limit : Nat) (place : Option Place) (n : Node)
    (w : WalkState σ) :
    Ends (pass.walkIn limit place n)
      (fun m _ => m.Fits ∧ ∀ p ∈ place, p.slot.accepts m = true) (fun _ => True) w := by
  refine pass.ends_walkIn_of_visit (v := fun _ => ()) (fun _ _ _ _ _ _ => rfl)
    (q := fun _ place _ m => m.Fits ∧ ∀ p ∈ place, p.slot.accepts m = true)
    (fun place n w => (ends_true _).mono fun m t _ hcheck ks hks => ?_) limit place n w
  have hslots : ∀ p ∈ (m.shape.refill ks).slotted, p.2.Fits ∧ p.1.accepts p.2 = true := by
    refine Shape.forall_slotted_refill (q := fun slot k => k.Fits ∧ slot.accepts k = true) ?_
    exact hks.imp fun p k hk => ⟨hk.1, hk.2 _ rfl⟩
  have hframe : (m.withShape (m.shape.refill ks)).shape.map (fun _ => ()) =
      m.shape.map fun _ => () := Shape.frame_refill (Shape.length_of_forall₂ hks)
  refine ⟨Node.everywhere_mk.2 ⟨fun p hp => (hslots p hp).2, fun k hk => ?_⟩, fun p hp => ?_⟩
  · rw [← (m.shape.refill ks).map_slotted] at hk
    obtain ⟨p, hp, rfl⟩ := List.mem_map.1 hk
    exact (hslots p hp).1
  · rw [Slot.accepts_of_frame hframe]
    exact Place.check_eq_ok.1 hcheck p hp

/-- A walk that succeeds returns a tree in which the children of every node are what the node asks
for, whatever the tree was and whatever its nodes were replaced by. -/
theorem Pass.seats_of_walk {pass : Pass σ} {limit : Nat} {n m : Node} {w t : WalkState σ}
    (h : (pass.walk limit n).run.run w = (.ok m, t)) :
    m.Everywhere fun k => k.shape.Seats := by
  have hfits : m.Fits := ((pass.ends_walkIn_fits limit none n w).of_run h).1
  exact hfits.imp fun _ hk => Shape.fits_iff.1 hk

/-- An allocation whose field is no initialiser, and a pass that puts one there. -/
theorem Pass.seats_of_walk_repaired :
    let n := Node.detached (.new [Node.int 1] Node.nop)
    let m := Node.detached (.new [Node.detached (.init "x" (Node.var "y") false)] Node.nop)
    let rule : Rule := { tag := .const, shape := .init "x" (Node.var "y") false, times := 1 }
    let policy : Policy := { push := [], refuse := [], rules := [rule] }
    let w : WalkState PolicyState := { context := [], state := { rules := [rule], seen := [] } }
    ¬n.shape.Seats ∧ ∃ t, (policy.pass.walk 3 n).run.run w = (.ok m, t) ∧
      m.Everywhere fun k => k.shape.Seats := by
  intro n m rule policy w
  constructor
  · intro h
    have hfield := h (Node.int 1) List.mem_cons_self
    cases hfield
  · have hrun : ∃ t, (policy.pass.walk 3 n).run.run w = (.ok m, t) := ⟨_, rfl⟩
    obtain ⟨t, hrun⟩ := hrun
    exact ⟨t, hrun, seats_of_walk hrun⟩

/-! ## Trees that can be walked -/

/-- A pass that keeps every node returns the tree. -/
theorem Pass.ends_walkIn_same {pass : Pass σ}
    (hpass : ∀ n w, Ends (pass.visit n) (fun m _ => m = n) (fun _ => True) w) (limit : Nat)
    (place : Option Place) (n : Node) (w : WalkState σ) :
    Ends (pass.walkIn limit place n) (fun m _ => m = n) (fun _ => True) w := by
  refine Pass.ends_walkIn_of_visit (v := fun _ => ()) (fun _ _ _ _ _ _ => rfl)
    (q := fun _ _ n m => m = n) (fun place n w => (hpass n w).mono ?_) limit place n w
  rintro m _ rfl _ ks hks
  have hids : (m.shape.refill ks).map id = m.shape.map id := Shape.map_refill_of_forall₂ hks
  rw [Shape.map_id, Shape.map_id] at hids
  rw [hids]
  cases m
  rfl

theorem Node.eq_of_run {pass : Pass σ}
    (hpass : ∀ n w, Ends (pass.visit n) (fun m _ => m = n) (fun _ => True) w) {n m : Node}
    {start s : σ} (h : pass.run start n = .ok (m, s)) : m = n := by
  obtain ⟨t, hrun, -⟩ := Pass.walk_of_run h
  exact (Pass.ends_walkIn_same hpass _ none n _).of_run hrun

/-- A tree that a pass that keeps every node gets through has its nodes where they belong. -/
theorem Node.fits_of_run {pass : Pass σ}
    (hpass : ∀ n w, Ends (pass.visit n) (fun m _ => m = n) (fun _ => True) w) {n m : Node}
    {start s : σ} (h : pass.run start n = .ok (m, s)) : n.Fits := by
  obtain rfl : m = n := Node.eq_of_run hpass h
  obtain ⟨t, hrun, -⟩ := Pass.walk_of_run h
  exact ((Pass.ends_walkIn_fits _ _ none m _).of_run hrun).1

theorem Node.fits_of_keep {n kept : Node} (h : (Pass.keep : Pass Unit).run () n = .ok (kept, ())) :
    n.Fits := by
  refine fits_of_run ?_ h
  exact fun _ _ => rfl

/-! ## The structural invariants -/

/-- A proof chain has two terms or more, and a slot for a hint and one for a verbatim text for each
of its terms. -/
def Shape.ChainSlots : Shape Node → Prop
  | .proof terms hints verbatims =>
    2 ≤ terms.length ∧ hints.length = terms.length ∧ verbatims.length = terms.length
  | _ => True

/-- The structural invariants of the language, construct by construct. -/
def Shape.Structured : Shape Node → Prop
  | .new fields _ => ∀ f ∈ fields, f.tag = .init
  | .method _ formals _ => ∀ f ∈ formals, f.tag = .var
  | .assign target _ => target.tag = .var ∨ target.tag = .compound
  | .assume chain => ∃ a b hints verbatims, chain.shape = .proof [a, b] hints verbatims
  | .proof terms hints verbatims =>
    2 ≤ terms.length ∧ hints.length = terms.length ∧ verbatims.length = terms.length
  | .seq first second => first.isSurface = false ∧ second.isSurface = false
  | _ => True

/-- All invariants but the one of a proof chain are about the places of children. -/
theorem Shape.structured_iff {s : Shape Node} : s.Structured ↔ s.Seats ∧ s.ChainSlots := by
  cases s <;> simp [Structured, Seats, ChainSlots]

theorem Pass.gentle_keep : (Pass.keep : Pass σ).Gentle :=
  fun _ _ => ⟨rfl, rfl, rfl⟩

/-- A walk without changes gets through the trees that are seated, and through no other. -/
theorem Node.exists_keep_iff {n : Node} :
    (∃ m, (Pass.keep : Pass Unit).run () n = .ok (m, ())) ↔
      n.Everywhere fun k => k.shape.Seats := by
  constructor
  · rintro ⟨m, h⟩
    exact (fits_of_keep h).imp fun _ hk => Shape.fits_iff.1 hk
  · intro h
    have hfits : n.Fits := h.imp fun _ hk => Shape.fits_iff.2 hk
    obtain ⟨m, ⟨⟩, hrun, -⟩ := Pass.gentle_keep.run hfits ()
    exact ⟨m, hrun⟩

/-- A walk without changes returns the tree that it is given, and it returns it exactly when every
child stands where its parent accepts it. The structural invariants ask for that and for the slots
of proof chains, which no walk looks at. -/
theorem Pass.keep_structured (n : Node) :
    (∀ m, (Pass.keep : Pass Unit).run () n = .ok (m, ()) → m = n) ∧
      ((∃ m, (Pass.keep : Pass Unit).run () n = .ok (m, ())) ↔
        n.Everywhere fun k => k.shape.Seats) ∧
      ((n.Everywhere fun k => k.shape.Structured) ↔
        (∃ m, (Pass.keep : Pass Unit).run () n = .ok (m, ())) ∧
          n.Everywhere fun k => k.shape.ChainSlots) := by
  refine ⟨fun m h => Node.eq_of_run ?_ h, Node.exists_keep_iff, ?_⟩
  · exact fun _ _ => rfl
  · rw [Node.exists_keep_iff]
    constructor
    · intro h
      exact ⟨h.imp fun _ hk => (Shape.structured_iff.1 hk).1,
        h.imp fun _ hk => (Shape.structured_iff.1 hk).2⟩
    · rintro ⟨hseats, hslots⟩
      exact (hseats.and hslots).imp fun _ hk => Shape.structured_iff.2 hk

/-- A chain of a single term is walked, although it relates nothing. -/
theorem Pass.keep_shortChain :
    let n := Node.detached (.proof [Node.var "p"] [none] [""])
    (Pass.keep : Pass Unit).run () n = .ok (n, ()) ∧
      ¬n.Everywhere fun k => k.shape.Structured := by
  intro n
  refine ⟨rfl, fun h => ?_⟩
  have hterms : 2 ≤ 1 := h.root.1
  omega

end ProofScript
