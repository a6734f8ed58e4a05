import ProofScript.Proofs.Grammar.WellFormed
import ProofScript.Proofs.Object.Gathering

/-!
# The object that a constructor builds

A call of `K` stands for the object that the last declaration of `K` builds, as long as nothing
after the allocation in that declaration allocates for a method `K` once more. The fields of the
call are then those of the allocation. Its methods are those that stand directly in the allocation,
but a method that only an earlier object of the same name has is still there
(`Objects.methodsOf?_redeclared`).
-/

namespace ProofScript

namespace Node

/-- The methods that are declared in a tree, but not within a method or an allocation of it. -/
def methodsWithin (n : Node) : List Node :=
  fold (fun n s =>
    match n.tag with
    | .method => [n]
    | .new => []
    | _ => s.children.flatten) n

theorem methodsWithin_eq (n : Node) :
    n.methodsWithin =
      match n.tag with
      | .method => [n]
      | .new => []
      | _ => n.children.flatMap methodsWithin := by
  cases n
  rw [methodsWithin, fold_mk, Shape.children_map]
  rfl

/-- The methods named `name` that are declared directly in an allocation. -/
def methodsNamed (a : Node) (name : String) : List Node :=
  (a.children.flatMap methodsWithin).filter fun m => m.shape.methodName? = some name

end Node

namespace Occurrence

variable {n : Node} {above : List Node} {key : ObjectKey} {name : String} {s : Occurrence}

/-- The nodes of a tree in which an object is not allocated declare no method of the object, unless
the tree stands directly in an allocation of it. -/
theorem not_declares_below (hscope : ∀ s, scopeAmong above = some s → ¬s.Allocates key)
    (hno : ∀ o ∈ n.occurrencesBelow above, ¬o.Allocates key) :
    ∀ o ∈ n.occurrencesBelow above, ¬o.Declares key name := by
  induction n using Node.induct generalizing above with
  | step id span shape ih =>
    intro o ho
    rcases Node.mem_occurrencesBelow.1 ho with rfl | ⟨k, hk, ho⟩
    · rintro ⟨-, s, hs, hallocates⟩
      exact hscope s hs hallocates
    · refine ih k hk (fun s hs => ?_) (fun o ho => ?_) o ho
      · rw [scopeAmong] at hs
        split at hs
        · obtain rfl := Option.some.inj hs
          exact hno _ (Node.mem_occurrencesBelow.2 (.inl rfl))
        · exact hscope s hs
      · exact hno o (Node.mem_occurrencesBelow.2 (.inr ⟨k, hk, ho⟩))

theorem filter_declares_cons (hs : scopeAmong above = some s) (hallocates : s.Allocates key)
    (os : List Occurrence) :
    ((⟨n, above⟩ :: os).filter fun o => o.Declares key name).map node =
      [n].filter (fun m => m.shape.methodName? = some name) ++
        (os.filter fun o => o.Declares key name).map node := by
  have hroot : Occurrence.Declares ⟨n, above⟩ key name ↔ n.shape.methodName? = some name :=
    and_iff_left ⟨s, hs, hallocates⟩
  rw [List.filter_cons]
  by_cases hname : n.shape.methodName? = some name
  · simp [hroot, hname]
  · simp [hroot, hname]

/-- A method and an allocation of another object are the scope of what stands below them. -/
theorem filter_declares_children (hopens : n.tag.opensScope = true)
    (hno : ∀ o ∈ n.occurrencesBelow above, ¬o.Allocates key) :
    (n.children.flatMap fun k => k.occurrencesBelow (n :: above)).filter
      (fun o => o.Declares key name) = [] := by
  refine List.filter_eq_nil_iff.2 fun o ho => ?_
  obtain ⟨k, hk, ho⟩ := List.mem_flatMap.1 ho
  have hnot : ¬o.Declares key name := by
    refine not_declares_below (fun t ht => ?_) (fun o ho => ?_) o ho
    · rw [scopeAmong, if_pos hopens] at ht
      obtain rfl := Option.some.inj ht
      exact hno _ (Node.mem_occurrencesBelow.2 (.inl rfl))
    · exact hno o (Node.mem_occurrencesBelow.2 (.inr ⟨k, hk, ho⟩))
  simpa using hnot

/-- What a tree that stands directly in an allocation of an object declares of the object. -/
theorem declared_below (hs : scopeAmong above = some s) (hallocates : s.Allocates key)
    (hno : ∀ o ∈ n.occurrencesBelow above, ¬o.Allocates key) :
    ((n.occurrencesBelow above).filter fun o => o.Declares key name).map node =
      n.methodsWithin.filter fun m => m.shape.methodName? = some name := by
  induction n using Node.induct generalizing above with
  | step id span shape ih =>
    generalize hn : Node.mk id span shape = n at hno ⊢
    have hshape : n.shape = shape := by rw [← hn]; rfl
    rw [Node.occurrencesBelow_eq, filter_declares_cons hs hallocates, Node.methodsWithin_eq]
    by_cases hopens : n.tag.opensScope = true
    · rw [filter_declares_children hopens hno, List.map_nil, List.append_nil]
      cases hs' : n.shape with
      | new => simp [Node.tag, hs', Shape.tag, Shape.methodName?]
      | method => simp [Node.tag, hs', Shape.tag]
      | _ => simp [Node.tag, hs', Shape.tag, Tag.opensScope] at hopens
    · have hscope : scopeAmong (n :: above) = some s := by rw [scopeAmong, if_neg hopens, hs]
      have hself : [n].filter (fun m => m.shape.methodName? = some name) = [] := by
        rw [List.filter_eq_nil_iff]
        intro m hm hname
        obtain rfl := List.mem_singleton.1 hm
        have hmethod : m.tag = .method :=
          Shape.methodName?_isSome.1 (Option.isSome_of_eq_some (of_decide_eq_true hname))
        simp [hmethod, Tag.opensScope] at hopens
      have hchildren : ∀ k ∈ n.children,
          ((k.occurrencesBelow (n :: above)).filter fun o => o.Declares key name).map node =
            k.methodsWithin.filter fun m => m.shape.methodName? = some name := by
        intro k hk
        rw [Node.children, hshape] at hk
        refine ih k hk hscope fun o ho => hno o (Node.mem_occurrencesBelow.2 (.inr ⟨k, ?_, ho⟩))
        rwa [Node.children, hshape]
      split
      · next h => simp [h, Tag.opensScope] at hopens
      · next h => simp [h, Tag.opensScope] at hopens
      · rw [hself, List.nil_append, List.filter_flatMap, List.map_flatMap, List.filter_flatMap]
        exact List.flatMap_congr hchildren

/-- An allocation of an object declares of it the methods that are declared directly in it. -/
theorem declared_in_allocation {a : Node} (ha : a.tag = .new)
    (hallocates : Occurrence.Allocates ⟨a, above⟩ key)
    (hno : ∀ o ∈ a.children.flatMap fun k => k.occurrencesBelow (a :: above),
      ¬o.Allocates key) :
    ((a.children.flatMap fun k => k.occurrencesBelow (a :: above)).filter
      fun o => o.Declares key name).map node = a.methodsNamed name := by
  have hscope : scopeAmong (a :: above) = some ⟨a, above⟩ := if_pos (by rw [ha]; rfl)
  rw [Node.methodsNamed, List.filter_flatMap, List.map_flatMap, List.filter_flatMap]
  refine List.flatMap_congr fun k hk => declared_below hscope hallocates fun o ho => ?_
  exact hno o (List.mem_flatMap.2 ⟨k, hk, ho⟩)

end Occurrence

/-! ## The last declaration of a constructor -/

theorem getLast?_filter_of_last {α : Type} {p : α → Bool} {xs ys : List α} {x : α}
    (hx : p x = true) (hys : ∀ y ∈ ys, ¬p y = true) :
    ((xs ++ x :: ys).filter p).getLast? = some x := by
  have hnil : ys.filter p = [] := List.filter_eq_nil_iff.2 hys
  rw [List.filter_append, List.filter_cons_of_pos hx, hnil, List.getLast?_concat]

section Declaration

variable {d a body : Node} {K name : String} {before after formals fields : List Node}

/-- What occurs in a script around the allocation of a constructor. -/
theorem Node.occurrences_constructor (hd : d.shape = .method K formals a) :
    (before ++ d :: after).flatMap occurrences =
      (before.flatMap occurrences ++ ⟨d, []⟩ :: formals.flatMap fun f => f.occurrencesBelow [d]) ++
        ⟨a, [d]⟩ :: ((a.children.flatMap fun k => k.occurrencesBelow [a, d]) ++
          after.flatMap occurrences) := by
  have hchildren : d.children = formals ++ [a] := by rw [children, hd]; rfl
  rw [List.flatMap_append, List.flatMap_cons, occurrences, occurrencesBelow_eq, hchildren,
    List.flatMap_append, List.flatMap_singleton, occurrencesBelow_eq a]
  simp

theorem Node.allocates_constructor (hd : d.shape = .method K formals a)
    (ha : a.shape = .new fields body) : Occurrence.Allocates ⟨a, [d]⟩ (.named K) := by
  have htag : d.tag.opensScope = true := by rw [tag, hd]; rfl
  have hscope : Occurrence.scope? ⟨a, [d]⟩ = some ⟨d, []⟩ := if_pos htag
  refine ⟨by rw [tag, ha]; rfl, ?_⟩
  rw [Occurrence.owner, hscope, Option.bind_some, hd]
  rfl

/-- A constructor declares no method before its allocation. -/
theorem Node.filter_declares_head (hd : d.shape = .method K formals a) (hfits : d.Fits)
    {key : ObjectKey} :
    (⟨d, []⟩ :: formals.flatMap fun f => f.occurrencesBelow [d]).filter
      (fun o => o.Declares key name) = [] := by
  refine List.filter_eq_nil_iff.2 fun o ho hdeclares => ?_
  obtain ⟨hname, hscope⟩ := of_decide_eq_true hdeclares
  rcases List.mem_cons.1 ho with rfl | ho
  · obtain ⟨s, hs, -⟩ := hscope
    cases hs
  · obtain ⟨f, hf, ho⟩ := List.mem_flatMap.1 ho
    have hseats := Shape.fits_iff.1 hfits.root
    rw [hd] at hseats
    have hvar : f.tag = .var := hseats f hf
    rcases mem_occurrencesBelow.1 ho with rfl | ⟨k, hk, -⟩
    · have hmethod : f.tag = .method :=
        Shape.methodName?_isSome.1 (Option.isSome_of_eq_some hname)
      rw [hvar] at hmethod
      cases hmethod
    · have hleaf : f.children = [] := by
        cases hs : f.shape with
        | var => rw [children, hs]; rfl
        | _ => simp [tag, hs, Shape.tag] at hvar
      simp [hleaf] at hk

section Last

variable (hd : d.shape = .method K formals a) (ha : a.shape = .new fields body)
  (hlast : ∀ o ∈ (a.children.flatMap fun k => k.occurrencesBelow [a, d]) ++
    after.flatMap Node.occurrences, ¬o.Allocates (.named K))

include hd ha hlast

theorem Node.last_allocation_constructor :
    (((before ++ d :: after).flatMap occurrences).filter
      fun o => o.Allocates (.named K)).getLast? = some ⟨a, [d]⟩ := by
  rw [occurrences_constructor hd]
  refine getLast?_filter_of_last ?_ fun o ho => ?_
  · simpa using allocates_constructor hd ha
  · simpa using hlast o ho

theorem Node.declared_constructor (hfits : d.Fits) :
    (((before ++ d :: after).flatMap occurrences).filter
        fun o => o.Declares (.named K) name).map Occurrence.node =
      ((before.flatMap occurrences).filter fun o => o.Declares (.named K) name).map
        Occurrence.node ++ a.methodsNamed name := by
  have hafter : (after.flatMap occurrences).filter (fun o => o.Declares (.named K) name) = [] := by
    refine List.filter_eq_nil_iff.2 fun o ho hdeclares => ?_
    obtain ⟨item, hitem, ho⟩ := List.mem_flatMap.1 ho
    refine Occurrence.not_declares_below (fun _ h => by cases h) (fun p hp => ?_) o ho
      (of_decide_eq_true hdeclares)
    exact hlast p (List.mem_append_right _ (List.mem_flatMap.2 ⟨item, hitem, hp⟩))
  have hnew : a.tag = .new := by rw [tag, ha]; rfl
  have hself : ¬Occurrence.Declares ⟨a, [d]⟩ (.named K) name :=
    Occurrence.not_declares_of_new hnew _ _
  have hinside : ((a.children.flatMap fun k => k.occurrencesBelow [a, d]).filter
      fun o => o.Declares (.named K) name).map Occurrence.node = a.methodsNamed name :=
    Occurrence.declared_in_allocation hnew (allocates_constructor hd ha) fun o ho =>
      hlast o (List.mem_append_left _ ho)
  rw [occurrences_constructor hd, List.filter_append, List.filter_append,
    filter_declares_head hd hfits, List.append_nil, List.filter_cons_of_neg (by simpa using hself),
    List.filter_append, hafter, List.append_nil, List.map_append, hinside]

end Last

end Declaration

/-- A call of a constructor stands for the object of that name. -/
theorem Objects.recordOf?_freeCall {objects : Objects} {call : Node} {K : String} {args : List Node}
    (h : call.freeCall? = some (K, args)) : objects.recordOf? call = objects.get? (.named K) := by
  unfold Node.freeCall? at h
  unfold recordOf?
  cases hs : call.shape with
  | call receiver name args =>
    simp only [hs] at h ⊢
    split at h
    · next hnil =>
      obtain ⟨rfl, -⟩ := Prod.mk.inj (Option.some.inj h)
      rw [if_pos hnil]
    · cases h
  | _ => simp [hs] at h

/-- A call of a constructor stands for the object that its last declaration builds. When `d` is a
method `K` of a script whose body is the allocation `a`, and nothing after `a` and nothing in it
allocates for a method `K` once more, the fields of a call of `K` are those that `a` initialises, in
their order, and the methods are those that are declared directly in `a`. A name that no such method
has keeps the method that an object of the name `K` had before. -/
theorem Objects.ofNodes_constructor {source K : String} {n d a body call : Node}
    {before after formals fields args : List Node} (hread : Node.ofScript source = .ok n)
    (hitems : n.shape = .script (before ++ d :: after)) (hd : d.shape = .method K formals a)
    (ha : a.shape = .new fields body)
    (hlast : ∀ o ∈ (a.children.flatMap fun k => k.occurrencesBelow [a, d]) ++
      after.flatMap Node.occurrences, ¬o.Allocates (.named K))
    (hcall : call.freeCall? = some (K, args)) :
    ∃ objects methods, ofNodes (before ++ d :: after) = .ok objects ∧
      List.Forall₂ (fun f name => ∃ value immutable, f.shape = .init name value immutable)
        fields (objects.fieldsOf call) ∧
      objects.methodsOf? call = some methods ∧
      ∀ name, methods.get? name = (a.methodsNamed name).getLast?.or
        (((before.flatMap Node.occurrences).filter fun o => o.Declares (.named K) name).getLast?.map
          Occurrence.node) := by
  have hfits : ∀ item ∈ before ++ d :: after, item.Fits := by
    have hwellFormed := (Node.wellFormed_of_ofScript hread).1.layers
    intro item hitem
    refine (hwellFormed.child (k := item) ?_).imp fun _ hm => hm.fits
    rwa [Node.children, hitems]
  have hdfits : d.Fits := hfits d (by simp)
  have hlayer : ∀ f ∈ fields, f.tag = .init := by
    have hafits : a.Fits := hdfits.child (by rw [Node.children, hd]; simp [Shape.children])
    have hseats := Shape.fits_iff.1 hafits.root
    rwa [ha] at hseats
  have htells := tells_observe ((before ++ d :: after).flatMap Node.occurrences) (.named K)
  have halloc : (((before ++ d :: after).flatMap Node.occurrences).filter
      fun o => o.Allocates (.named K)).getLast? = some ⟨a, [d]⟩ :=
    Node.last_allocation_constructor hd ha hlast
  have hmem := List.mem_filter.1 (List.mem_of_getLast? halloc)
  obtain ⟨r, hr⟩ := Option.isSome_iff_exists.1 (htells.known.2
    ⟨_, hmem.1, .inl (of_decide_eq_true hmem.2)⟩)
  have hrecord := recordAt_of_get? hr
  have hcalled : (gather empty ((before ++ d :: after).flatMap Node.occurrences)).recordOf? call =
      some r := (recordOf?_freeCall hcall).trans hr
  refine ⟨_, r.methods, ofNodes_eq hfits, ?_, ?_, fun name => ?_⟩
  · have hfields : r.fields = initNames fields := by
      rw [← hrecord, htells.fields, halloc, Option.map_some, Option.getD_some, fieldNames, ha]
    rw [fieldsOf, hcalled, Option.map_some, Option.getD_some, hfields]
    exact forall₂_initNames hlayer
  · rw [methodsOf?, hcalled, Option.map_some]
  · rw [← hrecord, htells.methods, ← List.getLast?_map,
      Node.declared_constructor hd ha hlast hdfits, List.getLast?_append, List.getLast?_map]

/-- The name, the formals, the initialisers and the body of a method declaration whose body is an
allocation. -/
def Node.constructor? (d : Node) : Option (String × List Node × List Node × Node) :=
  match d.shape with
  | .method K formals a =>
    match a.shape with
    | .new fields body => some (K, formals, fields, body)
    | _ => none
  | _ => none

theorem Node.of_constructor? {d : Node} {K : String} {formals fields : List Node} {body : Node}
    (h : d.constructor? = some (K, formals, fields, body)) :
    ∃ a, d.shape = .method K formals a ∧ a.shape = .new fields body := by
  unfold constructor? at h
  split at h
  · next a hd =>
    split at h
    · next ha =>
      cases h
      exact ⟨a, hd, ha⟩
    · cases h
  · cases h

/-- A method `a` that only the first object has, and a nested allocation with a method `c` of its
own. -/
theorem Objects.ofNodes_constructor_again :
    let source := "K() { new(x) { a() { x } } }
K(u) { new(y = u, z) { b() { new(w) { c() { w } } } } }
K(1)"
    ∃ n before d a after formals fields body call,
      Node.ofScript source = .ok n ∧ n.shape = .script (before ++ d :: after) ∧
      d.shape = .method "K" formals a ∧ a.shape = .new fields body ∧
      (∀ o ∈ (a.children.flatMap fun k => k.occurrencesBelow [a, d]) ++
        after.flatMap Node.occurrences, ¬o.Allocates (.named "K")) ∧
      (∃ args, call.freeCall? = some ("K", args)) ∧
      ∃ objects methods, ofNodes (before ++ d :: after) = .ok objects ∧
        List.Forall₂ (fun f name => ∃ value immutable, f.shape = .init name value immutable)
          fields (objects.fieldsOf call) ∧
        objects.methodsOf? call = some methods ∧
        ∀ name, methods.get? name = (a.methodsNamed name).getLast?.or
          (((before.flatMap Node.occurrences).filter
            fun o => o.Declares (.named "K") name).getLast?.map Occurrence.node) := by
  intro source
  have hread : (Node.ofScript source).toOption.any (fun n =>
      n.children.length = 3 ∧ n.children[1]?.any (fun d =>
        d.constructor?.map Prod.fst = some "K" ∧ n.children[2]?.any fun call =>
          call.freeCall?.map Prod.fst = some "K" ∧
            ∀ a ∈ d.children.getLast?,
              ∀ o ∈ (a.children.flatMap fun k => k.occurrencesBelow [a, d]) ++
                [call].flatMap Node.occurrences, ¬o.Allocates (.named "K"))) = true := by
    decide +kernel
  obtain ⟨n, hn, hread⟩ := ok_of_any hread
  obtain ⟨hlength, hread⟩ := of_decide_eq_true hread
  obtain ⟨items, hitems, -⟩ := Node.script_of_ofScript hn
  have hchildren : n.children = items := by rw [Node.children, hitems]; rfl
  obtain ⟨first, d, call, rfl⟩ := List.length_eq_three.1 (hchildren ▸ hlength)
  rw [hchildren] at hread
  obtain ⟨hparts, hread⟩ := of_decide_eq_true hread
  obtain ⟨hcall, hlast⟩ := of_decide_eq_true hread
  obtain ⟨⟨K, formals, fields, body⟩, hd, rfl⟩ := Option.map_eq_some_iff.1 hparts
  obtain ⟨a, hd, ha⟩ := Node.of_constructor? hd
  obtain ⟨⟨_, args⟩, hcall, rfl⟩ := Option.map_eq_some_iff.1 hcall
  have halloc : a ∈ d.children.getLast? := by
    rw [Node.children, hd]
    exact List.getLast?_concat
  exact ⟨n, [first], d, a, [call], formals, fields, body, call, hn, hitems, hd, ha, hlast a halloc,
    ⟨args, hcall⟩, ofNodes_constructor hn hitems hd ha (hlast a halloc) hcall⟩

/-- The object that a call of `K` stands for has a method that its constructor does not declare: the
second declaration has replaced the fields of the first, but not its methods. -/
theorem Objects.methodsOf?_redeclared :
    let source := "K() { new(x) { a() { x } } }
K() { new(y) { b() { y } } }
K()"
    (do
      let n ← (Node.ofScript source).toOption
      let objects ← (ofNodes n.children).toOption
      let last ← n.children[1]?
      let call ← n.children[2]?
      let methods ← objects.methodsOf? call
      return (last.text, call.text, objects.fieldsOf call, methods.entries.map Prod.fst)) =
        some ("(method K [] (new [(init y nil mut)] (method b [] y)))", "(call nil K)", ["y"],
          ["a", "b"]) := by
  intro source
  decide +kernel +zetaReduce

end ProofScript
