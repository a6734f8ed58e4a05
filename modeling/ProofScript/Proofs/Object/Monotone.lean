import ProofScript.Proofs.Node.Positions
import ProofScript.Proofs.Object.Immutability

/-!
# More assignments leave fewer marks

An assignment that is put in front of some node of a tree can only take marks away. Every node of
the old tree stands in the new one, as a node of the same construct with the same allocation around
it, so whatever assigned a field before does so afterwards; `behind` says where the node went. The
new assignment has the allocation of the node that it was put in front of.
-/

namespace ProofScript

/-! ## The allocation around a node -/

/-- The identity of the innermost allocation among some nodes. -/
def allocationAmong (above : List Node) : Option NodeId :=
  (above.find? fun a => a.tag == .new).map Node.id

theorem allocationAmong_congr {n m : Node} {above above' : List Node} (htag : n.tag = m.tag)
    (hid : n.id = m.id) (h : allocationAmong above = allocationAmong above') :
    allocationAmong (n :: above) = allocationAmong (m :: above') := by
  unfold allocationAmong at h ⊢
  rw [List.find?_cons, List.find?_cons, htag]
  split
  · exact congrArg some hid
  · exact h

theorem allocationAmong_cons {n : Node} {above : List Node} (h : n.tag ≠ .new) :
    allocationAmong (n :: above) = allocationAmong above := by
  rw [allocationAmong, List.find?_cons_of_neg (by simpa using h)]
  rfl

/-! ## Nodes that are alike -/

namespace Occurrence

variable {o o' : Occurrence} {id : Option NodeId} {field : String}

/-- Two nodes differ in their children alone, or in what stands below the target when they are
assignments, and they belong to the same allocation. -/
structure Like (o o' : Occurrence) : Prop where
  /-- The allocations around the nodes are the same. -/
  allocation : o.allocation.map Node.id = o'.allocation.map Node.id
  /-- The nodes are the same but for their children. -/
  frame : o.node.shape.map (fun _ => ()) = o'.node.shape.map fun _ => ()
  /-- So are the targets of assignments. -/
  target : ∀ target value, o.node.shape = .assign target value →
    ∃ target' value', o'.node.shape = .assign target' value' ∧
      target.shape.map (fun _ => ()) = target'.shape.map fun _ => ()

theorem Like.of_shape (hshape : o.node.shape = o'.node.shape)
    (h : o.allocation.map Node.id = o'.allocation.map Node.id) : o.Like o' where
  allocation := h
  frame := by rw [hshape]
  target := fun target value htarget => ⟨target, value, hshape ▸ htarget, rfl⟩

theorem reaches_iff_allocation : o.Reaches id field ↔
    o.node.AssignsThrough field ∨
      o.node.AssignsPlainly field ∧ id.isSome = true ∧ o.allocation.map Node.id = id := by
  unfold Reaches
  cases o.allocation with
  | none => cases id <;> simp
  | some a => cases id <;> simp [eq_comm]

/-- A node that is like another one assigns the same field of the same allocation. -/
theorem Like.reaches (h : o.Like o') (ho : o.Reaches id field) : o'.Reaches id field := by
  rw [reaches_iff_allocation] at ho ⊢
  rcases ho with ⟨target, value, object, index, hassign, htarget⟩ | ⟨⟨target, value, type, hassign,
    htarget⟩, hid, hallocation⟩
  · obtain ⟨target', value', hassign', hframe⟩ := h.target target value hassign
    left
    rw [htarget] at hframe
    cases htarget' : target'.shape with
    | compound object' name index' =>
      rw [htarget'] at hframe
      obtain ⟨-, rfl, -⟩ := Shape.compound.inj hframe
      exact ⟨target', value', object', index', hassign', htarget'⟩
    | _ => rw [htarget'] at hframe; cases hframe
  · obtain ⟨target', value', hassign', hframe⟩ := h.target target value hassign
    refine .inr ⟨?_, hid, h.allocation ▸ hallocation⟩
    rw [htarget] at hframe
    cases htarget' : target'.shape with
    | var name type' =>
      rw [htarget'] at hframe
      obtain ⟨rfl, -⟩ := Shape.var.inj hframe
      exact ⟨target', value', _, hassign', htarget'⟩
    | _ => rw [htarget'] at hframe; cases hframe

end Occurrence

namespace Node

variable {n m : Node} {above above' : List Node} {slot slot' s : Slot} {o pt : Occurrence}
  {path p : List Nat} {f : Node → Node}

/-! ## The same path in two trees -/

/-- Related trees have the same construct and identity at the root, and related children. -/
def SameLayers (R : Node → Node → Prop) : Prop :=
  ∀ n m, R n m → n.tag = m.tag ∧ n.id = m.id ∧
    List.Forall₂ (fun p q => R p.2 q.2) n.shape.slotted m.shape.slotted

theorem sameLayers_eq : SameLayers Eq := by
  rintro n _ rfl
  exact ⟨rfl, rfl, List.forall₂_same.2 fun _ _ => rfl⟩

theorem sameLayers_unmarked : SameLayers fun n m => n.unmarked = m.unmarked := by
  intro n m h
  refine ⟨by rw [← tag_unmarked, h, tag_unmarked], by rw [← id_unmarked, h, id_unmarked], ?_⟩
  have hchildren : n.shape.children.map unmarked = m.shape.children.map unmarked := by
    have := congrArg children h
    rwa [children_unmarked, children_unmarked] at this
  rw [← Shape.map_slotted, ← Shape.map_slotted, List.map_map, List.map_map,
    ← List.forall₂_eq_eq_eq, List.forall₂_map_left_iff, List.forall₂_map_right_iff] at hchildren
  exact hchildren

/-- A path leads to related nodes in related trees, with the same allocation around them. -/
theorem locate_of_sameLayers {R : Node → Node → Prop} (hR : SameLayers R) (hnm : R n m)
    (hallocation : allocationAmong above = allocationAmong above') (slot' : Slot)
    (h : n.locate slot above path = some (s, o)) :
    ∃ s' o', m.locate slot' above' path = some (s', o') ∧ R o.node o'.node ∧
      o.allocation.map id = o'.allocation.map id := by
  induction path generalizing n m above above' slot slot' with
  | nil =>
    obtain ⟨rfl, rfl⟩ := Prod.mk.inj (Option.some.inj h)
    exact ⟨slot', ⟨m, above'⟩, rfl, hnm, hallocation⟩
  | cons i path ih =>
    obtain ⟨q, hq, hbelow⟩ := locate_cons.1 h
    obtain ⟨htag, hid, hslotted⟩ := hR n m hnm
    obtain ⟨hlength, hrelated⟩ := List.forall₂_iff_get.1 hslotted
    obtain ⟨hi, rfl⟩ := List.getElem?_eq_some_iff.1 hq
    obtain ⟨s', o', hlocate, hrest⟩ := ih (hrelated i hi (hlength ▸ hi))
      (allocationAmong_congr htag hid hallocation) _ hbelow
    exact ⟨s', o', locate_cons.2 ⟨_, List.getElem?_eq_getElem (hlength ▸ hi), hlocate⟩, hrest⟩

/-! ## Putting a node in front of another one -/

/-- Where a node goes when a node is put in front of the one at a path. The node at the path becomes
the second of two statements. -/
def behind : List Nat → List Nat → List Nat
  | [], p => 1 :: p
  | _ :: _, [] => []
  | i :: path, j :: p => if j = i then i :: behind path p else j :: p

/-- The target of an assignment above a changed node is the same but for its children, unless it is
the changed node. -/
theorem target_modifyAt {i : Nat} (h : n.locate slot above (i :: path) = some (s, pt))
    (hs : s ≠ .assignTarget) {target value : Node} (hn : n.shape = .assign target value) :
    ∃ target' value', (n.modifyAt f (i :: path)).shape = .assign target' value' ∧
      target.shape.map (fun _ => ()) = target'.shape.map fun _ => () := by
  obtain ⟨id, span, shape⟩ := n
  obtain rfl : shape = .assign target value := hn
  obtain ⟨q, hq, hbelow⟩ := locate_cons.1 h
  match i, path with
  | 0, [] =>
    obtain rfl : (Slot.assignTarget, target) = q := Option.some.inj hq
    exact absurd (Prod.mk.inj (Option.some.inj hbelow)).1.symm hs
  | 0, j :: path => exact ⟨_, value, rfl, frame_modifyAt.symm⟩
  | 1, path => exact ⟨target, _, rfl, rfl⟩
  | i + 2, path => cases hq

/-- What stands in a tree stands in the tree with a node put in front of some other one, and is like
it was. -/
theorem exists_like (a : Node) (newId : NodeId) (span : Span)
    (hpt : n.locate slot above path = some (s, pt)) (hs : s ≠ .assignTarget)
    (hallocation : allocationAmong above = allocationAmong above')
    (ho : n.locate slot above p = some (slot', o)) :
    ∃ s' o', (n.modifyAt (fun k => mk newId span (.seq a k)) path).locate slot above'
      (behind path p) = some (s', o') ∧ o.Like o' := by
  induction path generalizing n above above' slot p with
  | nil =>
    let k := mk newId span (.seq a n)
    have hk : allocationAmong above = allocationAmong (k :: above') :=
      hallocation.trans (allocationAmong_cons (by simp [k, tag, shape, Shape.tag])).symm
    obtain ⟨s', o', hlocate, hnode, hid⟩ := locate_of_sameLayers sameLayers_eq rfl hk .statement ho
    exact ⟨s', o', locate_cons.2 ⟨(.statement, n), rfl, hlocate⟩, .of_shape (hnode ▸ rfl) hid⟩
  | cons i path ih =>
    let n' := n.modifyAt (fun k => mk newId span (.seq a k)) (i :: path)
    have htag : n.tag = n'.tag := tag_modifyAt.symm
    have hid : n.id = n'.id := rfl
    have hnext := allocationAmong_congr htag hid hallocation
    cases p with
    | nil =>
      obtain ⟨rfl, rfl⟩ := Prod.mk.inj (Option.some.inj ho)
      refine ⟨slot, ⟨n', above'⟩, rfl, hallocation, frame_modifyAt.symm, fun target value hn => ?_⟩
      exact target_modifyAt hpt hs hn
    | cons j p =>
      obtain ⟨q, hq, hbelow⟩ := locate_cons.1 ho
      by_cases hji : j = i
      · subst hji
        obtain ⟨r, hr, hpt⟩ := locate_cons.1 hpt
        obtain rfl := Option.some.inj (hq.symm.trans hr)
        obtain ⟨s', o', hlocate, hlike⟩ := ih hpt hnext hbelow
        refine ⟨s', o', ?_, hlike⟩
        rw [behind, if_pos rfl]
        exact locate_cons.2 ⟨_, slotted_modifyAt_self hq, hlocate⟩
      · obtain ⟨s', o', hlocate, hnode, hid⟩ :=
          locate_of_sameLayers sameLayers_eq rfl hnext q.1 hbelow
        refine ⟨s', o', ?_, .of_shape (hnode ▸ rfl) hid⟩
        rw [behind, if_neg hji]
        exact locate_cons.2 ⟨q, (slotted_modifyAt_of_ne hji).trans hq, hlocate⟩

/-- The new node stands in the new tree, and has the allocation of the node that it was put in front
of. -/
theorem exists_in_front (a : Node) (newId : NodeId) (span : Span)
    (hpt : n.locate slot above path = some (s, pt))
    (hallocation : allocationAmong above = allocationAmong above') :
    ∃ o ∈ (n.modifyAt (fun k => mk newId span (.seq a k)) path).occurrencesBelow above',
      o.node = a ∧ o.allocation.map id = pt.allocation.map id := by
  induction path generalizing n above above' slot with
  | nil =>
    obtain ⟨rfl, rfl⟩ := Prod.mk.inj (Option.some.inj hpt)
    let k := mk newId span (.seq a n)
    have hk : allocationAmong (k :: above') = allocationAmong above' :=
      allocationAmong_cons (by simp [k, tag, shape, Shape.tag])
    refine ⟨⟨a, k :: above'⟩, ?_, rfl, hk.trans hallocation.symm⟩
    exact mem_occurrencesBelow.2 (.inr ⟨a, List.mem_cons_self, mem_occurrencesBelow.2 (.inl rfl)⟩)
  | cons i path ih =>
    obtain ⟨q, hq, hbelow⟩ := locate_cons.1 hpt
    let n' := n.modifyAt (fun k => mk newId span (.seq a k)) (i :: path)
    have htag : n.tag = n'.tag := tag_modifyAt.symm
    obtain ⟨o, ho, hrest⟩ := ih hbelow (allocationAmong_congr htag rfl hallocation)
    have hchild : _ ∈ n'.children :=
      n'.shape.mem_children_of_slotted (List.mem_of_getElem? (slotted_modifyAt_self hq))
    exact ⟨o, mem_occurrencesBelow.2 (.inr ⟨_, hchild, ho⟩), hrest⟩

/-! ## Initialisers -/

/-- The field that is initialised at a position, and whether it is marked. -/
def initialiserAt? (n : Node) (path : List Nat) : Option (String × Bool) :=
  (n.at? path).bind fun p =>
    match p.2.node.shape with
    | .init field _ mark => some (field, mark)
    | _ => none

variable {field : String} {mark : Bool}

theorem initialiserAt?_eq_some : n.initialiserAt? path = some (field, mark) ↔
    ∃ s o, n.at? path = some (s, o) ∧ ∃ value, o.node.shape = .init field value mark := by
  unfold initialiserAt?
  cases n.at? path with
  | none => simp
  | some q =>
    obtain ⟨s, o⟩ := q
    cases hshape : o.node.shape with
    | init => simp [hshape, and_comm]
    | _ => simp [hshape]

/-- Trees that are equal up to marks have their initialisers at the same positions. -/
theorem exists_initialiser_of_unmarked (h : n.unmarked = m.unmarked)
    (ho : n.at? path = some (s, o)) {value : Node} (hinit : o.node.shape = .init field value mark) :
    ∃ s' o' value' mark', m.at? path = some (s', o') ∧
      o'.node.shape = .init field value' mark' ∧ o.allocation.map id = o'.allocation.map id := by
  obtain ⟨s', o', hlocate, hunmarked, hid⟩ := locate_of_sameLayers sameLayers_unmarked h rfl .any ho
  have hshape := congrArg shape hunmarked
  rw [shape_unmarked, shape_unmarked, hinit] at hshape
  cases hinit' : o'.node.shape with
  | init field' value' mark' =>
    rw [hinit'] at hshape
    obtain ⟨rfl, -⟩ := Shape.init.inj hshape
    exact ⟨s', o', value', mark', hlocate, hinit', hid⟩
  | _ => rw [hinit'] at hshape; cases hshape

/-- A node that is like an initialiser initialises the same field. -/
theorem exists_init_of_like {o o' : Occurrence} (h : o.Like o') {value : Node}
    (hinit : o.node.shape = .init field value mark) :
    ∃ value', o'.node.shape = .init field value' mark := by
  have hframe := h.frame
  rw [hinit] at hframe
  cases hinit' : o'.node.shape with
  | init field' value' mark' =>
    rw [hinit'] at hframe
    obtain ⟨rfl, -, rfl⟩ := Shape.init.inj hframe
    exact ⟨value', rfl⟩
  | _ => rw [hinit'] at hframe; cases hframe

/-! ## The marks -/

theorem fits_of_annotateImmutable (h : n.annotateImmutable = .ok m) : n.Fits := by
  obtain ⟨mutations, hmutations, -⟩ := annotateImmutable_cases h
  obtain ⟨⟨k, collected⟩, hcollect, -⟩ := ok_of_bind hmutations
  exact fits_of_run Mutations.collect_observes.ends_visit hcollect

/-- An initialiser stays without a mark exactly when some assignment of the tree reaches its
field. -/
theorem mark_eq_false_iff (h : n.annotateImmutable = .ok m) (ho : o ∈ m.occurrences) {value : Node}
    (hinit : o.node.shape = .init field value mark) :
    mark = false ↔ ∃ a ∈ n.occurrences, a.Reaches (o.allocation.map id) field := by
  obtain ⟨mutations, hmutations, hmark⟩ := annotateImmutable_cases h
  obtain ⟨t, hrun, -⟩ := Pass.walk_of_run hmark
  have hsettles : mutations.Settles [] m := (mutations.ends_walkIn_mark _ none n _).of_run hrun
  have hcollect : Mutations.ofNode n =
      .ok (observe (· == .new) Mutations.note Mutations.none n.occurrences) := by
    rw [Mutations.ofNode, Mutations.collect_observes.run (fits_of_annotateImmutable h)]
    rfl
  obtain rfl : _ = mutations := Except.ok.inj (hcollect.symm.trans hmutations)
  rw [hsettles [] rfl o ho field value mark hinit, Bool.not_eq_false', Mutations.isMutable_observe,
    Mutations.isMutable_none]
  simp only [Bool.false_eq_true, false_or]

/-- What reaches a field in a tree is found again with a node put in front of some other one, and
still reaches the field. -/
theorem exists_reaches (a : Node) (newId : NodeId) (span : Span) (hpt : n.at? path = some (s, pt))
    (hs : s ≠ .assignTarget) {allocation : Option NodeId} :
    (∃ b ∈ n.occurrences, b.Reaches allocation field) →
      ∃ b ∈ (n.modifyAt (fun k => mk newId span (.seq a k)) path).occurrences,
        b.Reaches allocation field := by
  rintro ⟨b, hb, hreaches⟩
  obtain ⟨p, r, hp⟩ := exists_locate .any hb
  obtain ⟨r', b', hb', hlike⟩ := exists_like a newId span hpt hs rfl hp
  exact ⟨b', mem_occurrencesBelow_of_locate hb', hlike.reaches hreaches⟩

/-- A program in front of a program stands wherever a program may stand. -/
theorem fits_seq {a : Node} (ha : a.Fits) (hn : n.Fits) (hasurface : a.isSurface = false)
    (hsurface : n.isSurface = false) (id : NodeId) (span : Span) :
    (mk id span (.seq a n)).Fits := by
  refine everywhere_mk.2 ⟨?_, ?_⟩
  · rw [Shape.fits_iff]
    exact ⟨hasurface, hsurface⟩
  · simpa [Shape.children] using ⟨ha, hn⟩

/-- Marking the initialisers is monotone. When an assignment is put in front of a node of a program,
in a position that asks for no particular node, the tree can still be marked. Every initialiser is
found again in the new tree, where it is marked only if it was marked before. And no initialiser of
a field that the new assignment assigns is marked: wherever it stands when the assignment goes
through an object or an index, and with the same innermost allocation around it when the assignment
goes to a plain name. -/
theorem annotateImmutable_antitone {t m a n : Node} {above : List Node} {slot : Slot}
    {path : List Nat} (ht : t.annotateImmutable = .ok m)
    (hn : t.at? path = some (slot, ⟨n, above⟩)) (hsurface : n.isSurface = false)
    (hslot : ∀ k : Node, k.isSurface = false → slot.accepts k = true) (hassign : a.tag = .assign)
    (ha : a.Fits) (id : NodeId) (span : Span) :
    ∃ m', (t.modifyAt (fun k => mk id span (.seq a k)) path).annotateImmutable = .ok m' ∧
      (∀ p field old, t.initialiserAt? p = some (field, old) →
        ∃ mark mark', m.initialiserAt? p = some (field, mark) ∧
          m'.initialiserAt? (behind path p) = some (field, mark') ∧
          (mark' = true → mark = true)) ∧
      ∀ o ∈ m'.occurrences, ∀ field value mark, o.node.shape = .init field value mark →
        a.AssignsThrough field ∨ a.AssignsPlainly field ∧ o.SharesAllocation ⟨n, above⟩ →
        mark = false := by
  let f := fun k => mk id span (.seq a k)
  have hfits := fits_of_annotateImmutable ht
  have hasurface : a.isSurface = false := by rw [isSurface, hassign]; rfl
  have hseq : (f n).Fits := fits_seq ha (hfits.locate hn) hasurface hsurface id span
  obtain ⟨hfits', -⟩ := hfits.modifyAt hn hseq (hslot _ rfl) rfl
  obtain ⟨m', hm', hunmarked'⟩ := annotateImmutable_ok hfits'
  obtain ⟨k, hk, hunmarked⟩ := annotateImmutable_ok hfits
  obtain rfl : k = m := Except.ok.inj (hk.symm.trans ht)
  have htarget : slot ≠ .assignTarget := by
    rintro rfl
    exact absurd (hslot nop rfl) (by decide)
  refine ⟨m', hm', fun p field old hold => ?_, fun o ho field value mark hinit hassigns => ?_⟩
  · obtain ⟨s, o, ho, value, hinit⟩ := initialiserAt?_eq_some.1 hold
    obtain ⟨s₁, o₁, value₁, mark, ho₁, hinit₁, hid₁⟩ :=
      exists_initialiser_of_unmarked hunmarked.symm ho hinit
    obtain ⟨s₂, o₂, ho₂, hlike⟩ := exists_like a id span hn htarget rfl ho
    obtain ⟨value₂, hinit₂⟩ := exists_init_of_like hlike hinit
    obtain ⟨s₃, o₃, value₃, mark', ho₃, hinit₃, hid₃⟩ :=
      exists_initialiser_of_unmarked hunmarked'.symm ho₂ hinit₂
    refine ⟨mark, mark', initialiserAt?_eq_some.2 ⟨s₁, o₁, ho₁, value₁, hinit₁⟩,
      initialiserAt?_eq_some.2 ⟨s₃, o₃, ho₃, value₃, hinit₃⟩, ?_⟩
    have hallocation : o₁.allocation.map Node.id = o₃.allocation.map Node.id :=
      hid₁.symm.trans (hlike.allocation.trans hid₃)
    have hold := mark_eq_false_iff ht (mem_occurrencesBelow_of_locate ho₁) hinit₁
    have hnew := mark_eq_false_iff hm' (mem_occurrencesBelow_of_locate ho₃) hinit₃
    rw [← hallocation] at hnew
    rw [← not_imp_not, Bool.not_eq_true, Bool.not_eq_true, hold, hnew]
    exact exists_reaches a id span hn htarget
  · obtain ⟨b, hb, rfl, hid⟩ := exists_in_front a id span hn rfl
    refine (mark_eq_false_iff hm' ho hinit).2 ⟨b, hb, Occurrence.reaches_iff.2 ?_⟩
    refine hassigns.imp_right ?_
    rintro ⟨hplain, x, y, hx, hy, hxy⟩
    refine ⟨hplain, ?_⟩
    rw [hy] at hid
    obtain ⟨z, hz, hzy⟩ := Option.map_eq_some_iff.1 hid
    exact ⟨z, x, hz, hx, hzy.trans hxy.symm⟩

/-- An object with two fields, one of which is assigned in front of the body of its method. -/
theorem annotateImmutable_antitone_method :
    let init (name : String) := detached (.init name (int 0) true)
    let n := var "x"
    let set := detached (.method "set" [] n)
    let new := mk (.numbered 1) Span.none (.new [init "x", init "y"] set)
    let t := detached (.script [new])
    let a := detached (.assign (var "x") (int 1))
    let path := [0, 2, 0]
    let t' := t.modifyAt (fun k => mk .detached Span.none (.seq a k)) path
    t.at? path = some (.any, ⟨n, [set, new, t]⟩) ∧
    t.initialiserAt? [0, 0] = some ("x", true) ∧ t.initialiserAt? [0, 1] = some ("y", true) ∧
    (∀ k : Node, k.isSurface = false → Slot.any.accepts k = true) ∧ a.Fits ∧
    (t.annotateImmutable.map fun m => [[0, 0], [0, 1]].map m.initialiserAt?).toOption =
      some [some ("x", true), some ("y", true)] ∧
    (t'.annotateImmutable.map fun m => [[0, 0], [0, 1]].map m.initialiserAt?).toOption =
      some [some ("x", false), some ("y", true)] ∧
    ∃ m m', t.annotateImmutable = .ok m ∧ t'.annotateImmutable = .ok m' ∧
      (∀ p field old, t.initialiserAt? p = some (field, old) →
        ∃ mark mark', m.initialiserAt? p = some (field, mark) ∧
          m'.initialiserAt? (behind path p) = some (field, mark') ∧
          (mark' = true → mark = true)) ∧
      ∀ o ∈ m'.occurrences, ∀ field value mark, o.node.shape = .init field value mark →
        a.AssignsThrough field ∨
          a.AssignsPlainly field ∧ o.SharesAllocation ⟨n, [set, new, t]⟩ →
        mark = false := by
  intro init n set new t a path t'
  have hslot : ∀ k : Node, k.isSurface = false → Slot.any.accepts k = true := fun _ _ => rfl
  have hkeep : (Pass.keep : Pass Unit).run () a = .ok (a, ()) := rfl
  have ha : a.Fits := fits_of_keep hkeep
  have hn : t.at? path = some (.any, ⟨n, [set, new, t]⟩) := rfl
  have hmarks : (t.annotateImmutable.map fun m => [[0, 0], [0, 1]].map m.initialiserAt?).toOption =
      some [some ("x", true), some ("y", true)] := by decide +kernel +zetaReduce
  have hmarks' :
      (t'.annotateImmutable.map fun m => [[0, 0], [0, 1]].map m.initialiserAt?).toOption =
        some [some ("x", false), some ("y", true)] := by decide +kernel +zetaReduce
  refine ⟨hn, rfl, rfl, hslot, ha, hmarks, hmarks', ?_⟩
  cases ht : t.annotateImmutable with
  | error e =>
    rw [ht] at hmarks
    cases hmarks
  | ok m =>
    obtain ⟨m', hm', hrest⟩ :=
      annotateImmutable_antitone ht hn rfl hslot rfl ha .detached Span.none
    exact ⟨m, m', rfl, hm', hrest⟩

end Node

end ProofScript
