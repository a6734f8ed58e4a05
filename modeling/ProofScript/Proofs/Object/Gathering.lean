import ProofScript.Proofs.Analyses
import ProofScript.Proofs.Node.Occurrences
import ProofScript.Proofs.Node.Program
import ProofScript.Proofs.Node.Slots

/-!
# What is known about the objects of a program

The objects are collected by a walk that knows where it is from a stack of frames, and changes one
record after the other. What comes out is told by the tree alone (`Objects.ofNodes_exact`): the
object that an allocation belongs to is given by the innermost allocation or method around it, the
last allocation of an object gives the fields, and the last method of a name that stands directly in
an allocation of the object is the method of that name. So it does not matter how statements are
grouped into programs.
-/

namespace ProofScript

/-! ## Owners -/

/-- The constructs that tell whose object an allocation is. -/
def Tag.opensScope (t : Tag) : Bool := t == .new || t == .method

/-- The innermost allocation or method among some nodes, the innermost node first. -/
def scopeAmong : List Node → Option Occurrence
  | [] => none
  | a :: above => if a.tag.opensScope then some ⟨a, above⟩ else scopeAmong above

namespace Occurrence

/-- The innermost allocation or method that a node stands below. -/
def scope? (o : Occurrence) : Option Occurrence := scopeAmong o.ancestors

/-- The object that an allocation belongs to: the one that a method builds when the allocation
stands directly in the method, and an object of its own otherwise. -/
def owner (o : Occurrence) : ObjectKey :=
  match o.scope?.bind fun a => a.node.shape.methodName? with
  | some name => .named name
  | none => .anonymous o.node.id

/-- An allocation that belongs to the object `key`. -/
def Allocates (o : Occurrence) (key : ObjectKey) : Prop := o.node.tag = .new ∧ o.owner = key

/-- A method named `name` that stands directly in an allocation of the object `key`. -/
def Declares (o : Occurrence) (key : ObjectKey) (name : String) : Prop :=
  o.node.shape.methodName? = some name ∧ ∃ a ∈ o.scope?, a.Allocates key

instance (o : Occurrence) (key : ObjectKey) : Decidable (o.Allocates key) :=
  inferInstanceAs (Decidable (_ ∧ _))

instance (o : Occurrence) (key : ObjectKey) (name : String) : Decidable (o.Declares key name) :=
  inferInstanceAs (Decidable (_ ∧ _))

end Occurrence

/-- The frames of the allocations and methods among some nodes. -/
abbrev scopeFrames : List Node → List Frame := framesOf Tag.opensScope

theorem scopeFrames_eq (above : List Node) :
    scopeFrames above =
      match scopeAmong above with
      | some a => Frame.ofNode a.node :: scopeFrames a.ancestors
      | none => [] := by
  induction above with
  | nil => rfl
  | cons a above ih =>
    rw [scopeFrames, framesOf_cons, scopeAmong]
    by_cases h : a.tag.opensScope = true
    · simp [framesOf, h]
    · rw [if_neg h, ← ih]
      simp [framesOf, h]

theorem suffix_of_scopeAmong {above : List Node} {a : Occurrence}
    (h : scopeAmong above = some a) : (a.node :: a.ancestors) <:+ above := by
  induction above with
  | nil => cases h
  | cons b above ih =>
    rw [scopeAmong] at h
    split at h
    · obtain rfl := Option.some.inj h
      exact List.suffix_refl _
    · exact (ih h).trans (List.suffix_cons _ _)

/-- The nodes that an occurrence in a tree stands below occur in the tree themselves, up to those
that the tree stands below. -/
theorem Node.mem_occurrencesBelow_of_suffix {n a : Node} {above rest : List Node} {o : Occurrence}
    (ho : o ∈ n.occurrencesBelow above) (ha : (a :: rest) <:+ o.ancestors) :
    (a :: rest) <:+ above ∨ ⟨a, rest⟩ ∈ n.occurrencesBelow above := by
  induction n using induct generalizing above with
  | step id span s ih =>
    rcases mem_occurrencesBelow.1 ho with rfl | ⟨k, hk, ho⟩
    · exact .inl ha
    · rcases ih k hk ho with hsuffix | hmem
      · rcases List.suffix_cons_iff.1 hsuffix with heq | hsuffix
        · obtain ⟨rfl, rfl⟩ := List.cons.inj heq
          exact .inr (mem_occurrencesBelow.2 (.inl rfl))
        · exact .inl hsuffix
      · exact .inr (mem_occurrencesBelow.2 (.inr ⟨k, hk, hmem⟩))

/-- The innermost allocation or method around a node occurs in the same trees. -/
theorem Occurrence.scope?_mem {roots : List Node} {o a : Occurrence}
    (ho : o ∈ roots.flatMap Node.occurrences) (ha : a ∈ o.scope?) :
    a ∈ roots.flatMap Node.occurrences := by
  obtain ⟨root, hroot, ho⟩ := List.mem_flatMap.1 ho
  rcases Node.mem_occurrencesBelow_of_suffix ho (suffix_of_scopeAmong ha) with hsuffix | hmem
  · cases List.suffix_nil.1 hsuffix
  · exact List.mem_flatMap.2 ⟨root, hroot, hmem⟩

theorem Shape.methodName?_isSome {s : Shape Node} :
    s.methodName?.isSome = true ↔ s.tag = .method := by
  cases s <;> simp [methodName?, tag]

theorem Occurrence.not_declares_of_new {o : Occurrence} (h : o.node.tag = .new) (key : ObjectKey)
    (name : String) : ¬o.Declares key name := by
  rintro ⟨hname, -⟩
  have hmethod := Shape.methodName?_isSome.1 (Option.isSome_of_eq_some hname)
  exact absurd (h.symm.trans hmethod) (by decide)

theorem Occurrence.Declares.unique {o : Occurrence} {key key' : ObjectKey} {name name' : String}
    (h : o.Declares key name) (h' : o.Declares key' name') : key' = key ∧ name' = name := by
  obtain ⟨hname, a, ha, -, rfl⟩ := h
  obtain ⟨hname', b, hb, -, rfl⟩ := h'
  obtain rfl : a = b := Option.some.inj (ha.symm.trans hb)
  exact ⟨rfl, Option.some.inj (hname'.symm.trans hname)⟩

namespace Objects

/-- The stack on which an allocation has left its frame tells the object that the allocation belongs
to. -/
theorem keyOf_allocation {o : Occurrence} (h : o.node.tag = .new) :
    keyOf (Frame.ofNode o.node :: scopeFrames o.ancestors) = some o.owner := by
  have htag : (Frame.ofNode o.node).tag = .new := h
  rw [keyOf, if_pos htag, scopeFrames_eq, Occurrence.owner, Occurrence.scope?]
  cases hscope : scopeAmong o.ancestors with
  | none => rfl
  | some a =>
    have hname : (Frame.ofNode a.node).name = a.node.shape.methodName? := Frame.name_ofNode _
    have hmethod : (Frame.ofNode a.node).tag = .method ↔ a.node.shape.methodName?.isSome = true :=
      Shape.methodName?_isSome.symm
    simp only [List.head?_cons, Option.bind_some, hmethod, hname]
    cases a.node.shape.methodName? <;> rfl

/-- The stack that a method finds tells the object of the allocation that it stands directly in. -/
theorem keyOf_scopeFrames (o : Occurrence) {key : ObjectKey} :
    keyOf (scopeFrames o.ancestors) = some key ↔ ∃ a ∈ o.scope?, a.Allocates key := by
  rw [scopeFrames_eq, Occurrence.scope?]
  cases hscope : scopeAmong o.ancestors with
  | none => simp [keyOf]
  | some a =>
    by_cases htag : a.node.tag = .new
    · simp only [keyOf_allocation htag]
      simp [Occurrence.Allocates, htag]
    · have hframe : (Frame.ofNode a.node).tag ≠ .new := htag
      simp [keyOf, hframe, Occurrence.Allocates, htag]

/-! ## What one node changes -/

/-- The record of an object, empty when nothing is known about it. -/
def recordAt (objects : Objects) (key : ObjectKey) : ObjectRecord :=
  (objects.get? key).getD ObjectRecord.empty

/-- What a node adds to the objects, given the stack that it finds. -/
def note (n : Node) (context : List Frame) (objects : Objects) : Objects :=
  match n.shape with
  | .new fields _ =>
    match keyOf (Frame.ofNode n :: context) with
    | some key => objects.change key fun r => { r with fields := initNames fields }
    | none => objects
  | .method name _ _ =>
    match keyOf context with
    | some key => objects.change key fun r => { r with methods := r.methods.insert name n }
    | none => objects
  | _ => objects

theorem ends_visit_collect (n : Node) (w : WalkState Objects) :
    Ends (collect.visit n)
      (fun m t => m = n ∧ t.context = scopeFrames [n] ++ w.context ∧
        t.state = note n w.context w.state)
      (fun _ => False) w := by
  obtain ⟨id, span, s⟩ := n
  cases s with
  | new fields body =>
    cases hkey : keyOf (Frame.ofNode (.mk id span (.new fields body)) :: w.context) with
    | some key | none =>
      simp only [collect, note, Node.shape, ends_bind, ends_push, ends_context, hkey]
      exact ⟨rfl, rfl, rfl⟩
  | method name formals body =>
    cases hkey : keyOf w.context with
    | some key | none =>
      simp only [collect, note, Node.shape, ends_bind, ends_context, hkey]
      exact ⟨rfl, rfl, rfl⟩
  | _ => exact ⟨rfl, rfl, rfl⟩

/-- The pass that collects objects only looks. -/
theorem collect_observes : collect.Observes Tag.opensScope note := by
  intro n w
  obtain ⟨m, ⟨context, state⟩, hrun, rfl, rfl, rfl⟩ := (ends_visit_collect n w).ok
  exact hrun

variable {objects : Objects} {key other : ObjectKey} {f : ObjectRecord → ObjectRecord}

theorem lookup_changeAt (id other : NodeId) (f : ObjectRecord → ObjectRecord)
    (entries : List (NodeId × ObjectRecord)) :
    (changeAt id f entries).lookup other =
      if other = id then some (f ((entries.lookup id).getD .empty)) else entries.lookup other :=
  lookup_of_change (changeAt id f) f rfl (fun _ _ => rfl) other entries

/-- A change is a change of one object. -/
theorem get?_change : (objects.change key f).get? other =
    if other = key then some (f (objects.recordAt key)) else objects.get? other := by
  cases key with
  | named name =>
    cases other with
    | named other => simp [change, get?, NameMap.get?_insert, recordAt]
    | anonymous other => simp [change, get?]
  | anonymous id =>
    cases other with
    | named other => simp [change, get?]
    | anonymous other => simp [change, get?, lookup_changeAt, recordAt]

/-! ## What some nodes add up to -/

/-- The names of the fields that a node initialises when it is an allocation. -/
def fieldNames (n : Node) : List String :=
  match n.shape with
  | .new fields _ => initNames fields
  | _ => []

theorem get?_note_allocation {o : Occurrence} (h : o.Allocates key) (objects : Objects)
    (other : ObjectKey) :
    (note o.node (scopeFrames o.ancestors) objects).get? other =
      if other = key then some { objects.recordAt key with fields := fieldNames o.node }
      else objects.get? other := by
  obtain ⟨htag, rfl⟩ := h
  have hkey := keyOf_allocation htag
  unfold note fieldNames
  cases hs : o.node.shape with
  | new fields body => simp only [hkey, get?_change]
  | _ => simp [Node.tag, hs, Shape.tag] at htag

theorem get?_note_method {o : Occurrence} {name : String} (h : o.Declares key name)
    (objects : Objects) (other : ObjectKey) :
    (note o.node (scopeFrames o.ancestors) objects).get? other =
      if other = key then
        some { objects.recordAt key with
          methods := (objects.recordAt key).methods.insert name o.node }
      else objects.get? other := by
  obtain ⟨hname, hscope⟩ := h
  have hkey := (keyOf_scopeFrames o).2 hscope
  unfold note
  cases hs : o.node.shape with
  | method declared formals body =>
    obtain rfl : declared = name := by simpa [hs, Shape.methodName?] using hname
    simp only [hkey, get?_change]
  | _ => simp [hs, Shape.methodName?] at hname

/-- A node that is no allocation, and no method that stands directly in one, adds nothing. -/
theorem note_other {o : Occurrence} (hnew : o.node.tag ≠ .new)
    (hmethod : ∀ key name, ¬o.Declares key name) :
    note o.node (scopeFrames o.ancestors) objects = objects := by
  unfold note
  cases hs : o.node.shape with
  | new => exact absurd (by rw [Node.tag, hs]; rfl) hnew
  | method name formals body =>
    cases hkey : keyOf (scopeFrames o.ancestors) with
    | none => rfl
    | some key =>
      have hname : o.node.shape.methodName? = some name := by rw [hs]; rfl
      exact absurd ⟨hname, (keyOf_scopeFrames o).1 hkey⟩ (hmethod key name)
  | _ => rfl

/-- What some nodes tell about the object `key`. -/
structure Tells (objects : Objects) (os : List Occurrence) (key : ObjectKey) : Prop where
  /-- There is a record for an object that one of the nodes is about. -/
  known : (objects.get? key).isSome = true ↔
    ∃ o ∈ os, o.Allocates key ∨ ∃ name, o.Declares key name
  /-- The fields are those of the last allocation. -/
  fields : (objects.recordAt key).fields =
    ((os.filter fun o => o.Allocates key).getLast?.map fun o => fieldNames o.node).getD []
  /-- A name has the last method of that name. -/
  methods : ∀ name, (objects.recordAt key).methods.get? name =
    (os.filter fun o => o.Declares key name).getLast?.map Occurrence.node

theorem tells_nothing (key : ObjectKey) : empty.Tells [] key := by
  have hnone : empty.get? key = none := by cases key <;> rfl
  refine ⟨by simp [hnone], ?_, fun name => ?_⟩
  · simp [recordAt, hnone, ObjectRecord.empty]
  · simp [recordAt, hnone, ObjectRecord.empty]

/-- The last member that has a property, of a list that is one member longer. -/
theorem getLast?_filter_snoc {α : Type} (p : α → Bool) (xs : List α) (x : α) :
    ((xs ++ [x]).filter p).getLast? = if p x then some x else (xs.filter p).getLast? := by
  rw [List.filter_append]
  by_cases h : p x = true
  · simp [h]
  · simp [h]

theorem recordAt_of_get? {r : ObjectRecord} (h : objects.get? key = some r) :
    objects.recordAt key = r := by
  rw [recordAt, h, Option.getD_some]

section Snoc

variable {objects' : Objects} {os : List Occurrence} {o : Occurrence}

/-- Nothing new is told about an object that a node is not about. -/
theorem Tells.unchanged (h : objects.Tells os key) (hget : objects'.get? key = objects.get? key)
    (hnew : ¬o.Allocates key) (hmethod : ∀ name, ¬o.Declares key name) :
    objects'.Tells (os ++ [o]) key := by
  have hrecord : objects'.recordAt key = objects.recordAt key := by rw [recordAt, hget, recordAt]
  refine ⟨?_, ?_, fun name => ?_⟩
  · rw [hget, h.known]
    simp [or_and_right, exists_or, hnew, hmethod]
  · rw [hrecord, h.fields, getLast?_filter_snoc, if_neg (by simpa using hnew)]
  · rw [hrecord, h.methods, getLast?_filter_snoc, if_neg (by simpa using hmethod name)]

theorem Tells.allocation (h : objects.Tells os key) (ho : o.Allocates key)
    (hget : objects'.get? key =
      some { objects.recordAt key with fields := fieldNames o.node }) :
    objects'.Tells (os ++ [o]) key := by
  refine ⟨?_, ?_, fun name => ?_⟩
  · rw [hget]
    exact iff_of_true rfl ⟨o, by simp, .inl ho⟩
  · rw [recordAt_of_get? hget, getLast?_filter_snoc, if_pos (by simpa using ho)]
    rfl
  · have hdeclares := Occurrence.not_declares_of_new ho.1 key name
    rw [recordAt_of_get? hget, getLast?_filter_snoc, if_neg (by simpa using hdeclares)]
    exact h.methods name

theorem Tells.method {declared : String} (h : objects.Tells os key) (ho : o.Declares key declared)
    (hget : objects'.get? key =
      some { objects.recordAt key with
        methods := (objects.recordAt key).methods.insert declared o.node }) :
    objects'.Tells (os ++ [o]) key := by
  refine ⟨?_, ?_, fun name => ?_⟩
  · rw [hget]
    exact iff_of_true rfl ⟨o, by simp, .inr ⟨declared, ho⟩⟩
  · have hnew : ¬o.Allocates key := fun ha =>
      Occurrence.not_declares_of_new ha.1 key declared ho
    rw [recordAt_of_get? hget, getLast?_filter_snoc, if_neg (by simpa using hnew)]
    exact h.fields
  · have hname : o.Declares key name ↔ name = declared := by
      constructor
      · exact fun h' => (ho.unique h').2
      · rintro rfl
        exact ho
    rw [recordAt_of_get? hget, getLast?_filter_snoc, NameMap.get?_insert]
    by_cases heq : name = declared
    · rw [if_pos heq, if_pos (by simpa using hname.2 heq), Option.map_some]
    · rw [if_neg heq, if_neg (by simpa using mt hname.1 heq), h.methods]

/-- One node more tells what it adds. -/
theorem Tells.snoc (h : ∀ key, objects.Tells os key) (key : ObjectKey) :
    (note o.node (scopeFrames o.ancestors) objects).Tells (os ++ [o]) key := by
  by_cases hnew : o.node.tag = .new
  · have ho : o.Allocates o.owner := ⟨hnew, rfl⟩
    have hget := get?_note_allocation ho objects key
    by_cases heq : key = o.owner
    · rw [if_pos heq] at hget
      subst heq
      exact (h o.owner).allocation ho hget
    · rw [if_neg heq] at hget
      exact (h key).unchanged hget (fun ha => heq ha.2.symm)
        (Occurrence.not_declares_of_new hnew key)
  · by_cases hmethod : ∃ owner name, o.Declares owner name
    · obtain ⟨owner, name, ho⟩ := hmethod
      have hget := get?_note_method ho objects key
      by_cases heq : key = owner
      · rw [if_pos heq] at hget
        subst heq
        exact (h key).method ho hget
      · rw [if_neg heq] at hget
        exact (h key).unchanged hget (fun ha => hnew ha.1) fun _ ho' => heq (ho.unique ho').1
    · have hmethod : ∀ key name, ¬o.Declares key name := fun key name ho => hmethod ⟨key, name, ho⟩
      rw [note_other hnew hmethod]
      exact (h key).unchanged rfl (fun ha => hnew ha.1) (hmethod key)

end Snoc

/-- What is observed at some nodes is what they tell. -/
theorem tells_observe (os : List Occurrence) (key : ObjectKey) :
    (observe Tag.opensScope note empty os).Tells os key := by
  induction os using List.reverseRecOn generalizing key with
  | nil => exact tells_nothing key
  | append_singleton os o ih =>
    rw [observe, List.foldl_append]
    exact Tells.snoc ih key

/-! ## Programs that are grouped in different ways -/

/-- What is observed at some nodes, one after the other, when objects are collected. -/
abbrev gather (objects : Objects) (os : List Occurrence) : Objects :=
  observe Tag.opensScope note objects os

theorem gather_append (os ps : List Occurrence) :
    gather objects (os ++ ps) = gather (gather objects os) ps := by
  rw [gather, observe, List.foldl_append]
  rfl

theorem gather_flatMap_congr {ks : List Node} {f g : Node → List Occurrence}
    (h : ∀ k ∈ ks, ∀ objects, gather objects (f k) = gather objects (g k)) :
    gather objects (ks.flatMap f) = gather objects (ks.flatMap g) := by
  induction ks generalizing objects with
  | nil => rfl
  | cons k ks ih =>
    have hhead := h k List.mem_cons_self objects
    rw [List.flatMap_cons, List.flatMap_cons, gather_append, gather_append, hhead]
    exact ih fun j hj => h j (List.mem_cons_of_mem _ hj)

/-- What is gathered in a tree depends on what it stands below through the allocations and methods
alone. -/
theorem gather_below {above above' : List Node} (h : scopeFrames above = scopeFrames above')
    (n : Node) :
    gather objects (n.occurrencesBelow above) = gather objects (n.occurrencesBelow above') := by
  induction n using Node.induct generalizing above above' objects with
  | step id span s ih =>
    have hbelow : scopeFrames (Node.mk id span s :: above) =
        scopeFrames (Node.mk id span s :: above') := by
      rw [scopeFrames, framesOf_cons, framesOf_cons _ _ above']
      exact congrArg _ h
    rw [Node.occurrencesBelow_eq, Node.occurrencesBelow_eq _ above']
    show gather (note _ (scopeFrames above) objects) _ =
      gather (note _ (scopeFrames above') objects) _
    rw [h]
    exact gather_flatMap_congr fun k hk _ => ih k hk hbelow

/-- A node that neither allocates nor is a method adds nothing but what stands below it. -/
theorem gather_plain {n : Node} (h : n.tag.opensScope = false) :
    gather objects n.occurrences = gather objects (n.children.flatMap Node.occurrences) := by
  have hnote : note n [] objects = objects := by
    unfold note
    cases hs : n.shape with
    | new | method => simp [Node.tag, hs, Shape.tag, Tag.opensScope] at h
    | _ => rfl
  have hframes : scopeFrames [n] = scopeFrames [] := by simp [framesOf, h]
  rw [Node.occurrences, Node.occurrencesBelow_eq]
  show gather (note n [] objects) _ = _
  rw [hnote]
  exact gather_flatMap_congr fun k _ _ => gather_below hframes k

theorem gather_andThen (n next : Node) :
    gather objects (n.andThen next).occurrences =
      gather objects (n.occurrences ++ next.occurrences) := by
  unfold Node.andThen
  split
  · next hnop =>
    have hshape : n.shape = .nop := by
      unfold Node.isNop at hnop
      split at hnop
      · assumption
      · cases hnop
    have htag : n.tag.opensScope = false := by rw [Node.tag, hshape]; rfl
    rw [gather_append, gather_plain htag, Node.children, hshape]
    rfl
  · have hseq : (Node.seq n next).children = [n, next] := rfl
    rw [gather_plain rfl, hseq, List.flatMap_cons, List.flatMap_singleton]

theorem gather_foldl_andThen (roots : List Node) (n : Node) :
    gather objects (roots.foldl Node.andThen n).occurrences =
      gather objects (n.occurrences ++ roots.flatMap Node.occurrences) := by
  induction roots generalizing n with
  | nil => rw [List.flatMap_nil, List.append_nil]; rfl
  | cons root roots ih =>
    rw [List.foldl_cons, ih, gather_append, gather_andThen, List.flatMap_cons,
      ← List.append_assoc, gather_append _ (roots.flatMap Node.occurrences)]

theorem ofNodes_eq {roots : List Node} (h : ∀ root ∈ roots, root.Fits) :
    ofNodes roots = .ok (gather empty (roots.flatMap Node.occurrences)) := by
  have step : ∀ done objects root, root ∈ roots →
      objects = gather empty (done.flatMap Node.occurrences) →
      ∃ next, (do return (← collect.run objects root).2 : Except TreeError Objects) = .ok next ∧
        next = gather empty ((done ++ [root]).flatMap Node.occurrences) := by
    rintro done _ root hroot rfl
    have hrun := collect_observes.run (h root hroot) (gather empty (done.flatMap Node.occurrences))
    refine ⟨_, bind_of_ok hrun rfl, ?_⟩
    rw [List.flatMap_append, gather_append, List.flatMap_singleton]
  obtain ⟨objects, hobjects, rfl⟩ := foldlM_ok _ step rfl
  exact hobjects

/-- An object is known when it is allocated. -/
theorem known_iff_allocated (roots : List Node) (key : ObjectKey) :
    (∃ r, (gather empty (roots.flatMap Node.occurrences)).get? key = some r) ↔
      ∃ o ∈ roots.flatMap Node.occurrences, o.Allocates key := by
  rw [← Option.isSome_iff_exists, (tells_observe _ key).known]
  constructor
  · rintro ⟨o, ho, hnew | ⟨name, -, a, ha, hnew⟩⟩
    · exact ⟨o, ho, hnew⟩
    · exact ⟨a, o.scope?_mem ho ha, hnew⟩
  · rintro ⟨o, ho, hnew⟩
    exact ⟨o, ho, .inl hnew⟩

/-- Objects are collected from programs whose nodes stand where they belong. -/
theorem fits_of_ofNodes {roots : List Node} (h : ofNodes roots = .ok objects) :
    ∀ root ∈ roots, root.Fits := by
  have hstep : ∀ (done : List Node) (known : Objects) (root : Node) (next : Objects),
      (∀ k ∈ done, k.Fits) →
      (do return (← collect.run known root).2 : Except TreeError Objects) = .ok next →
      ∀ k ∈ done ++ [root], k.Fits := by
    intro done known root next hdone hroot k hk
    rcases List.mem_append.1 hk with hk | hk
    · exact hdone k hk
    · obtain rfl := List.mem_singleton.1 hk
      obtain ⟨⟨m, after⟩, hrun, -⟩ := ok_of_bind hroot
      exact Node.fits_of_run collect_observes.ends_visit hrun
  exact foldlM_inv (fun done _ => ∀ k ∈ done, k.Fits) h (by simp) hstep

/-- The methods of an object are listed under their names. -/
theorem shape_of_methodsOf? {roots : List Node} (h : ofNodes roots = .ok objects)
    {n declaration : Node} {methods : NameMap Node} {name : String}
    (hn : objects.methodsOf? n = some methods) (hname : methods.get? name = some declaration) :
    ∃ formals body, declaration.shape = .method name formals body := by
  obtain ⟨r, hr, rfl⟩ := Option.map_eq_some_iff.1 hn
  obtain ⟨key, hkey⟩ : ∃ key, objects.get? key = some r := by
    unfold recordOf? at hr
    split at hr
    · exact ⟨_, hr⟩
    · split at hr
      · exact ⟨_, hr⟩
      · cases hr
    · cases hr
  obtain rfl := Except.ok.inj ((ofNodes_eq (fits_of_ofNodes h)).symm.trans h)
  have htold := (tells_observe (roots.flatMap Node.occurrences) key).methods name
  rw [recordAt_of_get? hkey, hname] at htold
  obtain ⟨o, ho, rfl⟩ := Option.map_eq_some_iff.1 htold.symm
  have hdeclares := of_decide_eq_true (List.mem_filter.1 (List.mem_of_getLast? ho)).2
  have hmethod := hdeclares.1
  cases hs : o.node.shape with
  | method declared formals body =>
    obtain rfl : declared = name := by simpa [hs, Shape.methodName?] using hmethod
    exact ⟨formals, body, rfl⟩
  | _ => simp [hs, Shape.methodName?] at hmethod

end Objects

namespace Node

theorem fits_script {roots : List Node} (h : ∀ root ∈ roots, root.Fits) (id : NodeId)
    (span : Span) : (mk id span (.script roots)).Fits := by
  refine everywhere_mk.2 ⟨?_, h⟩
  simp [Shape.Fits, Shape.slotted, Slot.accepts, shape]

/-- Statements that are put in sequence stand where they belong. -/
theorem fits_foldl_andThen {roots : List Node}
    (h : ∀ root ∈ roots, root.Fits ∧ root.isSurface = false) {n : Node} (hn : n.Fits)
    (hsurface : n.isSurface = false) : (roots.foldl andThen n).Fits := by
  induction roots generalizing n with
  | nil => exact hn
  | cons root roots ih =>
    obtain ⟨hroot, hplain⟩ := h root List.mem_cons_self
    have hrest : ∀ k ∈ roots, k.Fits ∧ k.isSurface = false :=
      fun k hk => h k (List.mem_cons_of_mem _ hk)
    rw [List.foldl_cons]
    unfold andThen
    split
    · exact ih hrest hroot hplain
    · refine ih hrest (everywhere_mk.2 ⟨?_, ?_⟩) rfl
      · simp [Shape.Fits, Shape.slotted, Slot.accepts, shape, hsurface, hplain]
      · simpa [Shape.children] using ⟨hn, hroot⟩

end Node

/-! ## What is known of an object -/

/-- What is known of the object `key` is what the nodes say: the fields are those of its last
allocation, in the order of their initialisers, and every name has the last method of that name that
stands directly in an allocation of the object. -/
structure ObjectRecord.Summarises (r : ObjectRecord) (os : List Occurrence) (key : ObjectKey) :
    Prop where
  fields : ∃ o fields body, (os.filter fun o => o.Allocates key).getLast? = some o ∧
    o.node.shape = .new fields body ∧
    List.Forall₂ (fun f name => ∃ value immutable, f.shape = .init name value immutable)
      fields r.fields
  methods : ∀ name, r.methods.get? name =
    (os.filter fun o => o.Declares key name).getLast?.map Occurrence.node

theorem Objects.forall₂_initNames {fields : List Node} (h : ∀ f ∈ fields, f.tag = .init) :
    List.Forall₂ (fun f name => ∃ value immutable, f.shape = .init name value immutable)
      fields (initNames fields) := by
  induction fields with
  | nil => exact .nil
  | cons f fields ih =>
    have htag := h f List.mem_cons_self
    have hrest := ih fun k hk => h k (List.mem_cons_of_mem _ hk)
    unfold initNames
    rw [List.filterMap_cons]
    cases hs : f.shape with
    | init name value immutable => exact .cons ⟨value, immutable, hs⟩ hrest
    | _ => simp [Node.tag, hs, Shape.tag] at htag

theorem Objects.Tells.summarises {objects : Objects} {os : List Occurrence} {key : ObjectKey}
    {r : ObjectRecord} (h : objects.Tells os key) (hr : objects.get? key = some r)
    (hallocated : ∃ o ∈ os, o.Allocates key) (hfits : ∀ o ∈ os, o.node.shape.Fits) :
    r.Summarises os key := by
  obtain ⟨a, ha, hallocates⟩ := hallocated
  have hmem : a ∈ os.filter fun o => o.Allocates key :=
    List.mem_filter.2 ⟨ha, decide_eq_true hallocates⟩
  have hlast := List.getLast?_eq_some_getLast (List.ne_nil_of_mem hmem)
  obtain ⟨hin, hlastAllocates⟩ := List.mem_filter.1 (List.mem_of_getLast? hlast)
  generalize (os.filter fun o => o.Allocates key).getLast _ = o at hlast hin hlastAllocates
  have hnew : o.node.tag = .new := (of_decide_eq_true hlastAllocates).1
  obtain ⟨fields, body, hshape⟩ : ∃ fields body, o.node.shape = .new fields body := by
    cases hs : o.node.shape with
    | new fields body => exact ⟨fields, body, rfl⟩
    | _ => simp [Node.tag, hs, Shape.tag] at hnew
  have hinits : ∀ f ∈ fields, f.tag = .init := by
    have hseats := Shape.fits_iff.1 (hfits o hin)
    rwa [hshape] at hseats
  have hfields : r.fields = initNames fields := by
    have htold := h.fields
    rw [recordAt_of_get? hr, hlast] at htold
    simpa [fieldNames, hshape] using htold
  refine ⟨⟨o, fields, body, hlast, hshape, ?_⟩, fun name => ?_⟩
  · rw [hfields]
    exact forall₂_initNames hinits
  · rw [← h.methods, recordAt_of_get? hr]

/-- Collecting objects is exact. On programs that a walk gets through, an object is known if and
only if it is allocated, and what is known of it is what its allocations and the methods in them
say. How statements are grouped into programs does not matter. -/
theorem Objects.ofNodes_exact {roots : List Node}
    (h : ∀ root ∈ roots, ∃ kept, (Pass.keep : Pass Unit).run () root = .ok (kept, ())) :
    ∃ objects, ofNodes roots = .ok objects ∧
      (∀ key, (∃ r, objects.get? key = some r) ↔
        ∃ o ∈ roots.flatMap Node.occurrences, o.Allocates key) ∧
      (∀ key r, objects.get? key = some r →
        r.Summarises (roots.flatMap Node.occurrences) key) ∧
      ((∀ root ∈ roots, root.isSurface = false) →
        (∀ id span, ofNodes [.mk id span (.script roots)] = .ok objects) ∧
        ofNodes [roots.foldl Node.andThen Node.nop] = .ok objects) := by
  have hfits : ∀ root ∈ roots, root.Fits := by
    intro root hroot
    obtain ⟨kept, hkept⟩ := h root hroot
    exact Node.fits_of_keep hkept
  have htells := tells_observe (roots.flatMap Node.occurrences)
  have hknown := known_iff_allocated roots
  refine ⟨_, ofNodes_eq hfits, hknown, fun key r hr => ?_, fun hplain => ⟨fun id span => ?_, ?_⟩⟩
  · refine (htells key).summarises hr ((hknown key).1 ⟨r, hr⟩) fun o ho => ?_
    obtain ⟨root, hroot, ho⟩ := List.mem_flatMap.1 ho
    exact Node.everywhere_iff_occurrences.1 (hfits root hroot) o ho
  · have hscript : ∀ root ∈ [Node.mk id span (.script roots)], root.Fits := by
      simpa using Node.fits_script hfits id span
    rw [ofNodes_eq hscript, List.flatMap_singleton, gather_plain rfl]
    rfl
  · have hfold : ∀ root ∈ [roots.foldl Node.andThen Node.nop], root.Fits := by
      simpa using Node.fits_foldl_andThen (fun root hroot => ⟨hfits root hroot, hplain root hroot⟩)
        Node.isProgram_nop.fits rfl
    rw [ofNodes_eq hfold, List.flatMap_singleton, gather_foldl_andThen, gather_append,
      gather_plain rfl]
    rfl

/-- Two methods `K` that allocate, an allocation in the second of them that has a method `b` of its
own, and an initialiser that allocates as well. -/
theorem Objects.ofNodes_exact_constructors :
    let init (name : String) (value : Node) := Node.detached (.init name value false)
    let method (name : String) (body : Node) := Node.detached (.method name [] body)
    let new (id : Nat) (fields : List Node) (body : Node) :=
      Node.mk (.numbered id) Span.none (.new fields body)
    let first := new 1 [init "x" Node.nil] (method "a" Node.nop)
    let inner := new 2 [init "z" Node.nil] (method "b" (Node.var "z"))
    let second := new 3 [init "y" (new 4 [] Node.nop), init "w" Node.nil]
      (Node.seq (method "b" Node.nop) inner)
    let roots := [method "K" first, method "K" second]
    let known (r : ObjectRecord) := (r.fields, r.methods.entries.map fun e => (e.1, e.2.text))
    (∀ root ∈ roots, ∃ kept, (Pass.keep : Pass Unit).run () root = .ok (kept, ())) ∧
    (∀ root ∈ roots, root.isSurface = false) ∧
    (ofNodes roots).toOption.map (fun objects =>
      ([ObjectKey.named "K", .anonymous (.numbered 1), .anonymous (.numbered 2),
        .anonymous (.numbered 3), .anonymous (.numbered 4)].map fun key =>
          (objects.get? key).map known)) =
      some [
        some (["y", "w"], [("a", "(method a [] nop)"), ("b", "(method b [] nop)")]), none,
        some (["z"], [("b", "(method b [] z)")]), none, some ([], [])] ∧
    ∃ objects, ofNodes roots = .ok objects ∧
      (∀ key, (∃ r, objects.get? key = some r) ↔
        ∃ o ∈ roots.flatMap Node.occurrences, o.Allocates key) ∧
      (∀ key r, objects.get? key = some r →
        r.Summarises (roots.flatMap Node.occurrences) key) ∧
      ((∀ root ∈ roots, root.isSurface = false) →
        (∀ id span, ofNodes [.mk id span (.script roots)] = .ok objects) ∧
        ofNodes [roots.foldl Node.andThen Node.nop] = .ok objects) := by
  intro init method new first inner second roots known
  have hkeep : ∀ root ∈ roots, ∃ kept, (Pass.keep : Pass Unit).run () root = .ok (kept, ()) := by
    intro root hroot
    rcases List.mem_cons.1 hroot with rfl | hroot
    · exact ⟨_, rfl⟩
    · obtain rfl := List.mem_singleton.1 hroot
      exact ⟨_, rfl⟩
  refine ⟨hkeep, by decide, ?_, ofNodes_exact hkeep⟩
  decide +kernel +zetaReduce

end ProofScript
