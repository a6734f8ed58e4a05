import Mathlib.Data.List.Sort
import ProofScript.Proofs.NameMap
import ProofScript.Proofs.Object.Constructors
import ProofScript.Script.Invariant

/-!
# The default invariants

The default invariants of two objects say that the fields of the same name are equal, one for each
name, in the order of the names. When no object is allocated twice, the fields of a side are those
of the allocation that the side is, or that a call of a constructor makes (`Node.Makes`). Then it
does not matter which of the objects comes first (`Invariant.defaults_exact`).
-/

namespace ProofScript

/-- The node `n` is the allocation `a`, or it calls a constructor, without a receiver, whose
allocation `a` occurs in `os`. -/
inductive Node.Makes (os : List Occurrence) : Node → Node → Prop where
  | allocation {a : Node} (h : a.tag = .new) : Makes os a a
  | call {n : Node} {K : String} {args : List Node} {o : Occurrence}
    (h : n.freeCall? = some (K, args)) (ho : o ∈ os) (ha : o.Allocates (.named K)) :
    Makes os n o.node

/-- The fields of a side are those that its allocation initialises, in their order. A side that
makes no object has none. -/
structure Node.HasFields (os : List Occurrence) (n : Node) (names : List String) : Prop where
  made : ∀ a, n.Makes os a → ∃ fields body, a.shape = .new fields body ∧
    List.Forall₂ (fun f name => ∃ value immutable, f.shape = .init name value immutable)
      fields names
  other : (∀ a, ¬n.Makes os a) → names = []

/-- No object has two different allocations. -/
def AllocatedOnce (os : List Occurrence) : Prop :=
  ∀ key, ∀ o ∈ os, ∀ o' ∈ os, o.Allocates key → o'.Allocates key → o'.node = o.node

theorem allocatedOnce_of_nodup {os : List Occurrence}
    (h : ((os.filter fun o => o.node.tag = .new).map Occurrence.owner).Nodup) :
    AllocatedOnce os := by
  rintro key o ho o' ho' ⟨hnew, howner⟩ ⟨hnew', howner'⟩
  have hmem : o ∈ os.filter fun o => o.node.tag = .new := List.mem_filter.2 ⟨ho, by simpa⟩
  have hmem' : o' ∈ os.filter fun o => o.node.tag = .new := List.mem_filter.2 ⟨ho', by simpa⟩
  rw [List.inj_on_of_nodup_map h hmem' hmem (howner'.trans howner.symm)]

theorem Node.makes_congr {os ps : List Occurrence} (h : ∀ o, o ∈ os ↔ o ∈ ps) {n a : Node} :
    n.Makes os a ↔ n.Makes ps a := by
  constructor
  · rintro (ha | ⟨hcall, ho, ha⟩)
    · exact .allocation ha
    · exact .call hcall ((h _).1 ho) ha
  · rintro (ha | ⟨hcall, ho, ha⟩)
    · exact .allocation ha
    · exact .call hcall ((h _).2 ho) ha

namespace Objects

variable {roots : List Node} {n a : Node} {objects : Objects} {key : ObjectKey}

theorem recordOf?_allocation (h : n.tag = .new) :
    objects.recordOf? n = objects.get? (.anonymous n.id) := by
  unfold recordOf?
  cases hs : n.shape with
  | new => rfl
  | _ => simp [Node.tag, hs, Shape.tag] at h

/-- What makes an allocation stands for the object of that allocation. -/
theorem recordOf?_of_makes (hn : n ∈ roots) (h : n.Makes (roots.flatMap Node.occurrences) a) :
    ∃ key, (∀ objects : Objects, objects.recordOf? n = objects.get? key) ∧
      ∃ o ∈ roots.flatMap Node.occurrences, o.Allocates key ∧ o.node = a := by
  cases h with
  | allocation ha =>
    -- Nothing stands above a root, so the object is known by the allocation itself.
    have hroot : (⟨n, []⟩ : Occurrence) ∈ roots.flatMap Node.occurrences :=
      List.mem_flatMap.2 ⟨n, hn, Node.mem_occurrencesBelow.2 (.inl rfl)⟩
    exact ⟨.anonymous n.id, fun _ => recordOf?_allocation ha, ⟨n, []⟩, hroot, ⟨ha, rfl⟩, rfl⟩
  | call hcall ho ha =>
    exact ⟨.named _, fun _ => recordOf?_freeCall hcall, _, ho, ha, rfl⟩

/-- What makes no allocation stands for no known object. -/
theorem recordOf?_of_not_makes (h : ∀ a, ¬n.Makes (roots.flatMap Node.occurrences) a) :
    (gather empty (roots.flatMap Node.occurrences)).recordOf? n = none := by
  cases hs : n.shape with
  | new fields body =>
    have htag : n.tag = .new := by rw [Node.tag, hs]; rfl
    exact absurd (.allocation htag) (h n)
  | call receiver K args =>
    by_cases hnil : receiver.isNil = true
    · have hcall : n.freeCall? = some (K, args) := by
        unfold Node.freeCall?
        simp [hs, hnil]
      rw [recordOf?_freeCall hcall]
      refine Option.eq_none_iff_forall_ne_some.2 fun r hr => ?_
      obtain ⟨o, ho, ha⟩ := (known_iff_allocated roots (.named K)).1 ⟨r, hr⟩
      exact h o.node (.call hcall ho ha)
    · unfold recordOf?
      simp [hs, hnil]
  | _ =>
    unfold recordOf?
    simp [hs]

theorem fieldsOf_eq_recordAt (h : objects.recordOf? n = objects.get? key) :
    objects.fieldsOf n = (objects.recordAt key).fields := by
  rw [fieldsOf, h, recordAt]
  cases objects.get? key <;> rfl

/-- When no object is allocated twice, the fields of what makes an allocation are those of the
allocation. -/
theorem fieldsOf_of_makes (honce : AllocatedOnce (roots.flatMap Node.occurrences)) (hn : n ∈ roots)
    (h : n.Makes (roots.flatMap Node.occurrences) a) :
    (gather empty (roots.flatMap Node.occurrences)).fieldsOf n = fieldNames a := by
  obtain ⟨key, hrecord, o, ho, hallocates, rfl⟩ := recordOf?_of_makes hn h
  have hmem : o ∈ (roots.flatMap Node.occurrences).filter fun o => o.Allocates key :=
    List.mem_filter.2 ⟨ho, decide_eq_true hallocates⟩
  have hlast := List.getLast?_eq_some_getLast (List.ne_nil_of_mem hmem)
  obtain ⟨hin, hlastAllocates⟩ := List.mem_filter.1 (List.mem_of_getLast? hlast)
  have hsame := honce key o ho _ hin hallocates (of_decide_eq_true hlastAllocates)
  rw [fieldsOf_eq_recordAt (hrecord _), (tells_observe _ key).fields, hlast, Option.map_some,
    Option.getD_some, hsame]

theorem hasFields_fieldsOf (hfits : ∀ root ∈ roots, root.Fits)
    (honce : AllocatedOnce (roots.flatMap Node.occurrences)) (hn : n ∈ roots) :
    n.HasFields (roots.flatMap Node.occurrences)
      ((gather empty (roots.flatMap Node.occurrences)).fieldsOf n) := by
  constructor
  · intro a ha
    rw [fieldsOf_of_makes honce hn ha]
    obtain ⟨key, -, o, ho, ⟨htag, -⟩, rfl⟩ := recordOf?_of_makes hn ha
    obtain ⟨root, hroot, ho⟩ := List.mem_flatMap.1 ho
    have hseats := Shape.fits_iff.1
      (Node.everywhere_iff_occurrences.1 (hfits root hroot) o ho)
    unfold fieldNames
    cases hs : o.node.shape with
    | new fields body =>
      rw [hs] at hseats
      exact ⟨fields, body, rfl, forall₂_initNames hseats⟩
    | _ => simp [Node.tag, hs, Shape.tag] at htag
  · intro hno
    rw [fieldsOf, recordOf?_of_not_makes hno]
    rfl

/-- The order of the programs does not matter for the fields when no object is allocated twice. -/
theorem fieldsOf_perm {roots' : List Node} (hperm : roots.Perm roots')
    (honce : AllocatedOnce (roots.flatMap Node.occurrences)) (hn : n ∈ roots) :
    (gather empty (roots'.flatMap Node.occurrences)).fieldsOf n =
      (gather empty (roots.flatMap Node.occurrences)).fieldsOf n := by
  have hsame : ∀ o, o ∈ roots.flatMap Node.occurrences ↔ o ∈ roots'.flatMap Node.occurrences := by
    intro o
    simp only [List.mem_flatMap, hperm.mem_iff]
  have honce' : AllocatedOnce (roots'.flatMap Node.occurrences) := by
    intro key o ho o' ho'
    exact honce key o ((hsame o).2 ho) o' ((hsame o').2 ho')
  by_cases hmakes : ∃ a, n.Makes (roots.flatMap Node.occurrences) a
  · obtain ⟨a, ha⟩ := hmakes
    rw [fieldsOf_of_makes honce hn ha,
      fieldsOf_of_makes honce' (hperm.mem_iff.1 hn) ((Node.makes_congr hsame).1 ha)]
  · have hno : ∀ a, ¬n.Makes (roots.flatMap Node.occurrences) a := fun a ha => hmakes ⟨a, ha⟩
    have hno' : ∀ a, ¬n.Makes (roots'.flatMap Node.occurrences) a :=
      fun a ha => hno a ((Node.makes_congr hsame).2 ha)
    rw [fieldsOf, fieldsOf, recordOf?_of_not_makes hno, recordOf?_of_not_makes hno']

end Objects

namespace Invariant

variable {context lhs rhs : Node} {objects : Objects}

/-- The field `name` has the same value in both objects. -/
def equates (name : String) : Invariant :=
  .equal (.field (.var "_lhs") name) (.field (.var "_rhs") name)

/-- The names of the fields that both sides have. -/
def sharedFields (objects : Objects) (lhs rhs : Node) : List String :=
  (NameMap.names (NameSet.ofList (objects.fieldsOf lhs))).filter fun field =>
    NameMap.contains (NameSet.ofList (objects.fieldsOf rhs)) field

theorem defaults_eq (h : Objects.ofNodes [context, lhs, rhs] = .ok objects) :
    defaults context lhs rhs = .ok ((sharedFields objects lhs rhs).map equates) :=
  bind_of_ok h rfl

theorem sharedFields_ascend (objects : Objects) (lhs rhs : Node) :
    (sharedFields objects lhs rhs).Pairwise (· < ·) :=
  (NameMap.names_ascend _).filter _

theorem mem_sharedFields {name : String} :
    name ∈ sharedFields objects lhs rhs ↔
      name ∈ objects.fieldsOf lhs ∧ name ∈ objects.fieldsOf rhs := by
  rw [sharedFields, List.mem_filter, NameMap.mem_names, NameSet.contains_ofList,
    NameSet.contains_ofList]

/-- Only the members of the two lists of fields matter, and not which list comes first. -/
theorem sharedFields_congr {objects' : Objects} {lhs' rhs' : Node}
    (h : ∀ name, (name ∈ objects'.fieldsOf lhs' ∧ name ∈ objects'.fieldsOf rhs') ↔
      (name ∈ objects.fieldsOf lhs ∧ name ∈ objects.fieldsOf rhs)) :
    sharedFields objects' lhs' rhs' = sharedFields objects lhs rhs := by
  refine (sharedFields_ascend _ _ _).eq_of_mem_iff (sharedFields_ascend _ _ _) fun name => ?_
  rw [mem_sharedFields, mem_sharedFields, h]

/-- The default invariants are exactly the fields that both sides have: one for each name, in the
order of the names. So only the members of the two lists of fields matter. When no object of the
three programs has two allocations, the fields of a side are those that its allocation initialises,
and the two sides may be exchanged. -/
theorem defaults_exact {context lhs rhs : Node}
    (h : ∀ root ∈ [context, lhs, rhs], ∃ kept,
      (Pass.keep : Pass Unit).run () root = .ok (kept, ())) :
    ∃ objects, ∃ names : List String, Objects.ofNodes [context, lhs, rhs] = .ok objects ∧
      defaults context lhs rhs = .ok (names.map fun name =>
        .equal (.field (.var "_lhs") name) (.field (.var "_rhs") name)) ∧
      names.Pairwise (· < ·) ∧
      (∀ name, name ∈ names ↔ name ∈ objects.fieldsOf lhs ∧ name ∈ objects.fieldsOf rhs) ∧
      (∀ context' lhs' rhs' objects', Objects.ofNodes [context', lhs', rhs'] = .ok objects' →
        (∀ name, name ∈ objects'.fieldsOf lhs' ↔ name ∈ objects.fieldsOf lhs) →
        (∀ name, name ∈ objects'.fieldsOf rhs' ↔ name ∈ objects.fieldsOf rhs) →
        defaults context' lhs' rhs' = defaults context lhs rhs) ∧
      (AllocatedOnce ([context, lhs, rhs].flatMap Node.occurrences) →
        (∀ side ∈ [lhs, rhs], side.HasFields ([context, lhs, rhs].flatMap Node.occurrences)
          (objects.fieldsOf side)) ∧
        defaults context rhs lhs = defaults context lhs rhs) := by
  have hfits : ∀ root ∈ [context, lhs, rhs], root.Fits := by
    intro root hroot
    obtain ⟨kept, hkept⟩ := h root hroot
    exact Node.fits_of_keep hkept
  have hobjects := Objects.ofNodes_eq hfits
  refine ⟨_, sharedFields _ lhs rhs, hobjects, defaults_eq hobjects, sharedFields_ascend _ _ _,
    fun _ => mem_sharedFields, ?_, fun honce => ⟨?_, ?_⟩⟩
  · intro context' lhs' rhs' objects' hobjects' hleft hright
    rw [defaults_eq hobjects, defaults_eq hobjects']
    exact congrArg (fun names => Except.ok (names.map equates))
      (sharedFields_congr fun name => and_congr (hleft name) (hright name))
  · intro side hside
    exact Objects.hasFields_fieldsOf hfits honce (List.mem_cons_of_mem _ hside)
  · have hperm : [context, lhs, rhs].Perm [context, rhs, lhs] := .cons _ (.swap _ _ _)
    have hswapped := Objects.ofNodes_eq fun root hroot => hfits root (hperm.mem_iff.2 hroot)
    rw [defaults_eq hobjects, defaults_eq hswapped]
    refine congrArg (fun names => Except.ok (names.map equates)) (sharedFields_congr fun name => ?_)
    rw [Objects.fieldsOf_perm hperm honce (by simp), Objects.fieldsOf_perm hperm honce (by simp)]
    exact and_comm

/-- Two constructors whose fields come in different orders, one of them with a field that is
initialised twice. -/
theorem defaults_exact_constructors :
    let init (name : String) := Node.detached (.init name Node.nil false)
    let maker (K : String) (fields : List String) :=
      Node.detached (.method K [] (.detached (.new (fields.map init) .nop)))
    let call (K : String) := Node.detached (.call .nil K [])
    let context := Node.seq (maker "A" ["z", "x", "y"]) (maker "B" ["y", "q", "x", "y"])
    let os := [context, call "A", call "B"].flatMap Node.occurrences
    (∀ root ∈ [context, call "A", call "B"], ∃ kept,
        (Pass.keep : Pass Unit).run () root = .ok (kept, ())) ∧
      AllocatedOnce os ∧
      (∃ objects, Objects.ofNodes [context, call "A", call "B"] = .ok objects ∧
        ∀ side ∈ [call "A", call "B"], side.HasFields os (objects.fieldsOf side)) ∧
      defaults context (call "A") (call "B") = .ok [equates "x", equates "y"] ∧
      defaults context (call "B") (call "A") = .ok [equates "x", equates "y"] := by
  intro init maker call context os
  have hok : ∀ root ∈ [context, call "A", call "B"],
      ((Pass.keep : Pass Unit).run () root).toOption.any (fun _ => true) = true := by
    decide +kernel +zetaReduce
  have hkeep : ∀ root ∈ [context, call "A", call "B"], ∃ kept,
      (Pass.keep : Pass Unit).run () root = .ok (kept, ()) := by
    intro root hroot
    obtain ⟨⟨kept, _⟩, hrun, -⟩ := ok_of_any (hok root hroot)
    exact ⟨kept, hrun⟩
  have honce : AllocatedOnce os := allocatedOnce_of_nodup (by decide +kernel +zetaReduce)
  have hlists : (Objects.ofNodes [context, call "A", call "B"]).toOption.map (fun objects =>
      (objects.fieldsOf (call "A"), objects.fieldsOf (call "B"))) =
        some (["z", "x", "y"], ["y", "q", "x", "y"]) := by
    decide +kernel +zetaReduce
  obtain ⟨objects, names, hobjects, hdefaults, hascend, hmem, -, hsides⟩ := defaults_exact hkeep
  obtain ⟨hfields, hswapped⟩ := hsides honce
  rw [hobjects] at hlists
  obtain ⟨hleft, hright⟩ := Prod.mk.inj (Option.some.inj hlists)
  obtain rfl : names = ["x", "y"] := by
    refine hascend.eq_of_mem_iff (by decide) fun name => ?_
    rw [hmem, hleft, hright]
    simp only [List.mem_cons, List.not_mem_nil, or_false]
    constructor
    · rintro ⟨rfl | rfl | rfl, h⟩
      · exact absurd h (by decide)
      · exact .inl rfl
      · exact .inr rfl
    · rintro (rfl | rfl) <;> decide
  exact ⟨hkeep, honce, ⟨objects, hobjects, hfields⟩, hdefaults, hswapped.trans hdefaults⟩

end Invariant

end ProofScript
