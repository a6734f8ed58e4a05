import ProofScript.Object.Immutability
import ProofScript.Proofs.Analyses
import ProofScript.Proofs.Node.Occurrences
import ProofScript.Proofs.Node.Slots

/-!
# Which initialisers are marked

An initialiser is marked exactly when no assignment of the whole tree can reach its field. The
assignments are collected by one walk and the marks are set by another, so both have to find the
same allocation around a node. Both are compared with the innermost allocation among the ancestors
of an occurrence, which is read off the tree.
-/

namespace ProofScript

/-! ## Assignments -/

/-- A node assigns the field `field` of some object, or an element of it. -/
def Node.AssignsThrough (n : Node) (field : String) : Prop :=
  ∃ target value object index,
    n.shape = .assign target value ∧ target.shape = .compound object field index

/-- A node assigns the plain name `name`. -/
def Node.AssignsPlainly (n : Node) (name : String) : Prop :=
  ∃ target value type, n.shape = .assign target value ∧ target.shape = .var name type

namespace Occurrence

/-- The innermost allocation that a node stands below. -/
def allocation (o : Occurrence) : Option Node := o.ancestors.find? fun a => a.tag == .new

/-- The innermost allocations around two nodes are there, and have the same identity. -/
def SharesAllocation (o p : Occurrence) : Prop :=
  ∃ a b, o.allocation = some a ∧ p.allocation = some b ∧ a.id = b.id

/-- An assignment reaches the field `field` of the allocation `id`. -/
def Reaches (o : Occurrence) (id : Option NodeId) (field : String) : Prop :=
  o.node.AssignsThrough field ∨
    o.node.AssignsPlainly field ∧ ∃ a, o.allocation = some a ∧ id = some a.id

end Occurrence

/-- The frames of the allocations among some nodes. -/
abbrev allocationFrames : List Node → List Frame := framesOf fun tag => tag == .new

theorem Occurrence.head?_allocationFrames (o : Occurrence) :
    (allocationFrames o.ancestors).head? = o.allocation.map Frame.ofNode := by
  rw [allocationFrames, framesOf, List.head?_map, List.head?_filter]
  rfl

/-! ## What is collected -/

namespace NameSet

theorem contains_empty (name : String) : NameMap.contains (NameMap.empty : NameSet) name = false :=
  rfl

theorem contains_add {s : NameSet} {name other : String} :
    (s.add name).contains other = true ↔ s.contains other = true ∨ name = other := by
  unfold add NameMap.contains
  rw [NameMap.get?_insert]
  by_cases h : other = name
  · simp [h]
  · simp [h, Ne.symm h]

end NameSet

namespace Mutations

variable {m : Mutations} {id : NodeId} {allocation : Option NodeId} {name field : String}

theorem lookup_addTo (id other : NodeId) (name : String) (direct : List (NodeId × NameSet)) :
    (addTo id name direct).lookup other =
      if other = id then some (((direct.lookup id).getD NameMap.empty).add name)
      else direct.lookup other :=
  lookup_of_change (addTo id name) (NameSet.add · name) rfl (fun _ _ => rfl) other direct

theorem isMutable_iff : m.isMutable allocation field = true ↔
    m.anywhere.contains field = true ∨
      ∃ id fields, allocation = some id ∧ m.directly? id = some fields ∧
        fields.contains field = true := by
  unfold isMutable
  cases allocation with
  | none => simp
  | some id => cases h : m.directly? id <;> simp [h]

theorem isMutable_addAnywhere :
    (m.addAnywhere name).isMutable allocation field = true ↔
      m.isMutable allocation field = true ∨ name = field := by
  rw [isMutable_iff, isMutable_iff]
  simp only [addAnywhere, NameSet.contains_add, directly?]
  rw [or_right_comm]

theorem isMutable_addDirect :
    (m.addDirect id name).isMutable allocation field = true ↔
      m.isMutable allocation field = true ∨ name = field ∧ allocation = some id := by
  rw [isMutable_iff, isMutable_iff]
  simp only [addDirect, directly?, lookup_addTo]
  cases allocation with
  | none => simp
  | some other =>
    by_cases h : other = id
    · subst h
      cases hlookup : m.direct.lookup other with
      | none => simp [NameSet.contains_add, hlookup, NameSet.contains_empty]
      | some fields => simp [NameSet.contains_add, hlookup, or_assoc]
    · simp [h]

/-- A node adds to the assignments what it assigns itself. -/
theorem isMutable_note {n : Node} {context : List Frame} :
    (note n context m).isMutable allocation field = true ↔
      m.isMutable allocation field = true ∨ n.AssignsThrough field ∨
        n.AssignsPlainly field ∧
          ∃ frame, context.head? = some frame ∧ allocation = some frame.id := by
  unfold note Node.AssignsThrough Node.AssignsPlainly
  cases n.shape with
  | assign target value =>
    cases htarget : target.shape with
    | var name type =>
      cases hcontext : context.head? with
      | none => simp [htarget]
      | some frame => simp [htarget, isMutable_addDirect]
    | compound object name index => simp [htarget, isMutable_addAnywhere]
    | _ => simp [htarget]
  | _ => simp

theorem isMutable_observe {os : List Occurrence} :
    (observe (· == .new) note m os).isMutable allocation field = true ↔
      m.isMutable allocation field = true ∨ ∃ o ∈ os, o.Reaches allocation field := by
  induction os generalizing m with
  | nil => simp [observe]
  | cons o os ih =>
    have hstep : observe (· == .new) note m (o :: os) =
        observe (· == .new) note (note o.node (allocationFrames o.ancestors) m) os := rfl
    have hreaches : (∃ frame, (allocationFrames o.ancestors).head? = some frame ∧
        allocation = some frame.id) ↔ ∃ a, o.allocation = some a ∧ allocation = some a.id := by
      rw [o.head?_allocationFrames]
      cases o.allocation with
      | none => simp
      | some a => simp [Frame.ofNode]
    rw [hstep, ih, isMutable_note, hreaches, List.exists_mem_cons_iff, or_assoc]
    rfl

/-- The pass that collects assignments only looks. -/
theorem collect_observes : collect.Observes (· == .new) note := by
  intro n w
  by_cases h : n.tag = .new
  · have hframes : framesOf (· == .new) [n] = [Frame.ofNode n] := by simp [framesOf, h]
    have hnote : ∀ context s, note n context s = s := by
      intro context s
      obtain ⟨id, span, shape⟩ := n
      cases shape with
      | new => rfl
      | _ => cases h
    let context := Frame.ofNode n :: w.context
    have hrun : (collect.visit n).run.run w =
        (.ok n, { context := context, state := note n context w.state }) := by
      simp only [collect, if_pos h]
      rfl
    rw [hrun, hframes, hnote, hnote]
    rfl
  · have hframes : framesOf (· == .new) [n] = [] := by simp [framesOf, h]
    rw [hframes]
    simp only [collect, if_neg h]
    rfl

/-! ## What is marked -/

/-- An initialiser is marked as the assignments `m` say. -/
def Marked (m : Mutations) (o : Occurrence) : Prop :=
  ∀ field value immutable, o.node.shape = .init field value immutable →
    immutable = !m.isMutable (o.allocation.map Node.id) field

/-- A visit of the marking pass settles the mark of the node, and leaves the frame of an
allocation. -/
theorem ends_visit_mark (m : Mutations) (n : Node) (w : WalkState Unit) :
    Ends (m.mark.visit n)
      (fun k t => t.context = allocationFrames [k] ++ w.context ∧
        ∀ above, allocationFrames above = w.context → m.Marked ⟨k, above⟩)
      (fun _ => False) w := by
  obtain ⟨id, span, shape⟩ := n
  cases shape with
  | init name value immutable =>
    refine ⟨rfl, fun above habove field value' immutable' hshape => ?_⟩
    obtain ⟨rfl, -, rfl⟩ := Shape.init.inj hshape
    let n := Node.mk id span (.init name value immutable)
    have hhead := Occurrence.head?_allocationFrames ⟨n, above⟩
    show (!m.isMutable (w.context.head?.map Frame.id) name) = _
    rw [← habove, hhead, Option.map_map]
    rfl
  | new => exact ⟨rfl, fun _ _ _ _ _ hshape => by cases hshape⟩
  | _ => exact ⟨rfl, fun _ _ _ _ _ hshape => by cases hshape⟩

theorem onlyPushes_mark (m : Mutations) : m.mark.OnlyPushes := by
  intro n w
  obtain ⟨k, t, hrun, hcontext, -⟩ := (m.ends_visit_mark n w).ok
  rw [hrun, hcontext]
  exact List.suffix_append _ _

/-- The mark of a node does not depend on its children. -/
theorem Marked.withShape {m : Mutations} {n : Node} {above : List Node} {s : Shape Node}
    (h : m.Marked ⟨n, above⟩) (hs : s.map (fun _ => ()) = n.shape.map fun _ => ()) :
    m.Marked ⟨n.withShape s, above⟩ := by
  intro field value immutable hshape
  obtain rfl : s = .init field value immutable := hshape
  obtain ⟨id, span, t⟩ := n
  cases t with
  | init name value' immutable' =>
    obtain ⟨rfl, -, rfl⟩ := Shape.init.inj hs
    exact h _ value' _ rfl
  | _ => cases hs

/-- All initialisers of a tree are marked as the assignments `m` say, when the tree stands below
nodes whose allocations leave the frames `context`. -/
def Settles (m : Mutations) (context : List Frame) (n : Node) : Prop :=
  ∀ above, allocationFrames above = context → ∀ o ∈ n.occurrencesBelow above, m.Marked o

theorem ends_walkIn_mark (m : Mutations) (limit : Nat) (place : Option Place) (n : Node)
    (w : WalkState Unit) :
    Ends (m.mark.walkIn limit place n) (fun k _ => m.Settles w.context k) (fun _ => True) w := by
  refine Pass.ends_walkIn_of_visit m.onlyPushes_mark.keeps_walkIn
    (q := fun context _ _ k => m.Settles context k) (fun place n w => ?_) limit place n w
  refine (m.ends_visit_mark n w).imp ?_ fun _ h => h.elim
  intro k t ⟨hcontext, hmarked⟩ _ ks hks above habove o ho
  have hframe : (k.shape.refill ks).map (fun _ => ()) = k.shape.map fun _ => () :=
    Shape.frame_refill (Shape.length_of_forall₂ hks)
  have hchildren : ∀ j ∈ (k.shape.refill ks).children, m.Settles t.context j :=
    Shape.forall_children_refill hks
  rcases Node.mem_occurrencesBelow.1 ho with rfl | ⟨j, hj, ho⟩
  · exact (hmarked above habove).withShape hframe
  · refine hchildren j hj _ ?_ o ho
    rw [hcontext, ← habove, allocationFrames, framesOf_cons, framesOf_withShape hframe]

end Mutations

/-! ## The marks -/

theorem Occurrence.reaches_iff {a o : Occurrence} {field : String} :
    a.Reaches (o.allocation.map Node.id) field ↔
      a.node.AssignsThrough field ∨ a.node.AssignsPlainly field ∧ a.SharesAllocation o := by
  have hshares : (∃ p, a.allocation = some p ∧ o.allocation.map Node.id = some p.id) ↔
      a.SharesAllocation o := by
    unfold SharesAllocation
    cases o.allocation with
    | none => simp
    | some q => simp [eq_comm]
  rw [Reaches, hshares]

theorem Mutations.isMutable_none {allocation : Option NodeId} {field : String} :
    Mutations.none.isMutable allocation field = false := by
  cases allocation <;> rfl

theorem Node.annotateImmutable_cases {n m : Node} (h : n.annotateImmutable = .ok m) :
    ∃ mutations, Mutations.ofNode n = .ok mutations ∧ mutations.mark.run () n = .ok (m, ()) := by
  obtain ⟨mutations, hmutations, h⟩ := ok_of_bind h
  obtain ⟨⟨k, _⟩, hrun, h⟩ := ok_of_bind h
  cases h
  exact ⟨mutations, hmutations, hrun⟩

/-- Marking the initialisers is exact. On every tree that a walk without changes gets through it
succeeds and leaves the tree as it is up to marks. An initialiser is then marked if and only if its
field is assigned through no object and no index in the whole tree, and not by plain name with the
same innermost allocation around. -/
theorem Node.annotateImmutable_exact {n kept : Node}
    (h : (Pass.keep : Pass Unit).run () n = .ok (kept, ())) :
    ∃ m, n.annotateImmutable = .ok m ∧ m.unmarked = n.unmarked ∧
      ∀ o ∈ m.occurrences, ∀ field value immutable, o.node.shape = .init field value immutable →
        (immutable = true ↔
          (n.Everywhere fun k => ¬k.AssignsThrough field) ∧
          ∀ a ∈ n.occurrences, a.node.AssignsPlainly field → ¬a.SharesAllocation o) := by
  have hfits := fits_of_keep h
  obtain ⟨m, hannotate, hm⟩ := annotateImmutable_ok hfits
  obtain ⟨mutations, hmutations, hmark⟩ := annotateImmutable_cases hannotate
  obtain ⟨t, hrun, -⟩ := Pass.walk_of_run hmark
  have hsettles : mutations.Settles [] m := (mutations.ends_walkIn_mark _ none n _).of_run hrun
  have hcollect : Mutations.ofNode n =
      .ok (observe (· == .new) Mutations.note Mutations.none n.occurrences) := by
    rw [Mutations.ofNode, Mutations.collect_observes.run hfits]
    rfl
  obtain rfl : _ = mutations := Except.ok.inj (hcollect.symm.trans hmutations)
  refine ⟨m, hannotate, hm, fun o ho field value immutable hshape => ?_⟩
  rw [hsettles [] rfl o ho field value immutable hshape, Bool.not_eq_true', ← Bool.not_eq_true,
    Mutations.isMutable_observe, Mutations.isMutable_none, everywhere_iff_occurrences]
  simp only [Occurrence.reaches_iff, Bool.false_eq_true, false_or, not_exists, not_and, not_or]
  exact forall₂_and

/-- Two allocations with a field `x`, of which the first assigns it, and an assignment to `o.z`
after them. All marks are wrong at first. -/
theorem Node.annotateImmutable_exact_allocations :
    let init (name : String) (mark : Bool) := Node.detached (.init name (Node.int 0) mark)
    let assign (target : Node) := Node.detached (.assign target (Node.var "v"))
    let set := Node.detached (.method "set" [Node.var "v"] (assign (Node.var "x")))
    let n := Node.detached (.script [
      .mk (.numbered 1) Span.none (.new [init "x" true, init "y" false] set),
      .mk (.numbered 2) Span.none (.new [init "x" false, init "z" true] Node.nop),
      assign (Node.field (Node.var "o") "z")])
    let marks (m : Node) := m.preorder.filterMap fun k =>
      match k.shape with
      | .init name _ immutable => some (name, immutable)
      | _ => none
    (∃ kept, (Pass.keep : Pass Unit).run () n = .ok (kept, ())) ∧
    (n.annotateImmutable.map marks).toOption =
      some [("x", false), ("y", true), ("x", true), ("z", false)] ∧
    ∃ m, n.annotateImmutable = .ok m ∧ m.unmarked = n.unmarked ∧
      ∀ o ∈ m.occurrences, ∀ field value immutable, o.node.shape = .init field value immutable →
        (immutable = true ↔
          (n.Everywhere fun k => ¬k.AssignsThrough field) ∧
          ∀ a ∈ n.occurrences, a.node.AssignsPlainly field → ¬a.SharesAllocation o) := by
  intro init assign set n marks
  have hkeep : ((Pass.keep : Pass Unit).run () n).isOk = true := by decide +kernel +zetaReduce
  have hmarks : (n.annotateImmutable.map marks).toOption =
      some [("x", false), ("y", true), ("x", true), ("z", false)] := by
    decide +kernel +zetaReduce
  cases hrun : (Pass.keep : Pass Unit).run () n with
  | error e =>
    rw [hrun] at hkeep
    cases hkeep
  | ok r => exact ⟨⟨r.1, rfl⟩, hmarks, annotateImmutable_exact hrun⟩

end ProofScript
