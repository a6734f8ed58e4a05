import Mathlib.Data.List.Range
import ProofScript.Proofs.Code.Hygiene
import ProofScript.Proofs.Dialect.LemmaTexts
import ProofScript.Proofs.NameMap
import ProofScript.Proofs.Object.Gathering

/-!
# The lemmas of an equivalence

What Dafny is given for an equivalence: the functions that state its invariants, a lemma for each
method that both objects declare with the same number of parameters, and the proof that uses each of
these lemmas once (`Dafny.lemmas_of_equivalence`). Numbers are drawn for the parameters one after
the other, so no two lemmas have a parameter in common.
-/

namespace ProofScript

/-! ## Names with consecutive numbers -/

/-- The names with the given stem and the `k` numbers from `start` on. -/
def numberedFrom (stem : String) (start k : Nat) : List String :=
  (List.range' start k).map (Claim.numbered stem)

@[simp] theorem length_numberedFrom (stem : String) (start k : Nat) :
    (numberedFrom stem start k).length = k := by
  rw [numberedFrom, List.length_map, List.length_range']

theorem numberedFrom_append (stem : String) (start k j : Nat) :
    numberedFrom stem start k ++ numberedFrom stem (start + k) j =
      numberedFrom stem start (k + j) := by
  rw [numberedFrom, numberedFrom, numberedFrom, ← List.map_append, List.range'_append_1]

theorem numberedFrom_succ (stem : String) (start k : Nat) :
    numberedFrom stem start (k + 1) =
      Claim.numbered stem start :: numberedFrom stem (start + 1) k := by
  rw [numberedFrom, List.range'_succ, List.map_cons, numberedFrom]

theorem nodup_numberedFrom {stem : String} (h : IsStem stem) (start k : Nat) :
    (numberedFrom stem start k).Nodup := by
  refine List.Nodup.map ?_ List.nodup_range'
  intro n m hnm
  exact (Claim.numbered_inj h h hnm).2

/-! ## Parts that are added -/

/-- Between two states of a builder without an open definition, the given parts have been added, and
`k` names have been drawn for `stem`. -/
structure Added (stem : String) (k : Nat) (parts : List Item) (s t : Builder) : Prop where
  closed : t.current = none
  run : t.run = s.run
  items : t.items = s.items ++ parts
  count : t.names.count stem = s.names.count stem + k

namespace Added

variable {stem : String} {k j : Nat} {parts more : List Item} {s t u : Builder}

theorem refl (stem : String) (h : s.current = none) : Added stem 0 [] s s :=
  ⟨h, rfl, by simp, rfl⟩

theorem trans (h : Added stem k parts s t) (h' : Added stem j more t u) :
    Added stem (k + j) (parts ++ more) s u := by
  refine ⟨h'.closed, h'.run.trans h.run, ?_, ?_⟩
  · rw [h'.items, h.items, List.append_assoc]
  · have := h.count
    have := h'.count
    omega

theorem draw (h : s.current = none) : Added stem 1 [] s (s.draw stem) := by
  refine ⟨h, rfl, by simp [Builder.draw], ?_⟩
  rw [Builder.draw, FreshNames.count_fresh, if_pos rfl]

/-- Names with other stems do not count. -/
theorem drawOther {other : String} (h : Added stem k parts s t) (hother : stem ≠ other) :
    Added stem k parts s (t.draw other) := by
  refine ⟨h.closed, h.run, h.items, ?_⟩
  rw [Builder.draw, FreshNames.count_fresh, if_neg hother, h.count]

theorem yields_global (h : Added stem k parts s t) (text : String) :
    Yields (Building.global text none)
      (fun _ u => Added stem k (parts ++ [.global text]) s u) t := by
  refine ends_global.2 ⟨h.closed, ?_, ?_, h.count⟩
  · rw [← h.run]
    exact List.append_nil _
  · rw [← List.append_assoc, ← h.items]

end Added

/-- Names that are drawn one after the other have consecutive numbers. -/
theorem yields_replicate_fresh {stem : String} {s : Builder} (hs : s.current = none) (k : Nat) :
    Yields ((List.replicate k stem).mapM Building.fresh)
      (fun names u => names = numberedFrom stem (s.names.count stem) k ∧ Added stem k [] s u)
      s := by
  induction k generalizing s with
  | zero => exact ends_pure.2 ⟨rfl, .refl stem hs⟩
  | succ k ih =>
    rw [List.replicate_succ, List.mapM_cons]
    refine ends_bind.2 (ends_fresh.2 ?_)
    have hdrawn : Added stem 1 [] s (s.draw stem) := .draw hs
    refine (ih hdrawn.closed).bind ?_
    rintro names u ⟨rfl, hu⟩
    refine ends_pure.2 ⟨?_, ?_⟩
    · rw [numberedFrom_succ, hdrawn.count]
      rfl
    · have hall := hdrawn.trans hu
      rwa [Nat.add_comm] at hall

/-- The object that `n` stands for declares the method `name` with the given number of formal
parameters. -/
def Objects.DeclaresMethod (objects : Objects) (n : Node) (name : String) (arity : Nat) : Prop :=
  ∃ methods declaration formals body, objects.methodsOf? n = some methods ∧
    methods.get? name = some declaration ∧ declaration.shape = .method name formals body ∧
    formals.length = arity

namespace Dafny

/-! ## Invariants -/

/-- A function for an invariant. -/
def predicate (name : String) (lines : List String) : Definition :=
  ⟨.function, name, invariantParams, some "bool", lines⟩

/-- The functions state the invariants, in the same order. -/
def States : List Invariant → List Definition → Prop :=
  List.Forall₂ fun inv def? =>
    ∃ lines, invariantLines inv = .ok lines ∧ def? = predicate def?.name lines

/-- The functions state the invariants. The one that is named states all of them: it is the only
one, or it is behind the others and calls them in order. -/
inductive StatesAll : List Invariant → List Definition → String → Prop where
  | single {inv : Invariant} {def? : Definition} (h : States [inv] [def?]) :
    StatesAll [inv] [def?] def?.name
  | conjunction {invariants : List Invariant} {defs : List Definition} {name : String}
    (hmany : invariants.length ≠ 1) (h : States invariants defs) :
    StatesAll invariants
      (defs ++ [predicate name [" && ".intercalate
        (defs.map fun def? => def?.name ++ "(ctx1, ctx2, addr1, addr2)")]])
      name

variable {s : Builder}

theorem ends_invariantFunction {fails : CodeFault → Prop} (hs : s.current = none)
    (lines : List String) :
    Ends (invariantFunction lines)
      (fun name u => name = Claim.numbered "invariant" (s.names.count "invariant") ∧
        Added "invariant" 1 [.definition (predicate name lines)] s u) fails s := by
  refine ends_bind.2 ((ends_openDef hs).2 ?_)
  refine ends_bind.2 ((ends_emit rfl).2 ?_)
  refine Iff.mpr (ends_close rfl (fun hrun => nomatch hrun)) ⟨rfl, rfl, rfl, rfl, ?_⟩
  exact (Added.draw hs).count

/-- The invariants are declared one after the other. -/
theorem yields_invariants (hs : s.current = none) (invariants : List Invariant) :
    Yields (invariants.mapM invariant)
      (fun names u => ∃ defs, States invariants defs ∧ names = defs.map Definition.name ∧
        names = numberedFrom "invariant" (s.names.count "invariant") defs.length ∧
        Added "invariant" defs.length (defs.map .definition) s u) s := by
  induction invariants generalizing s with
  | nil => exact ends_pure.2 ⟨[], .nil, rfl, rfl, .refl _ hs⟩
  | cons inv invariants ih =>
    rw [List.mapM_cons]
    have hfirst : Yields (invariant inv)
        (fun name u => ∃ lines, invariantLines inv = .ok lines ∧
          name = Claim.numbered "invariant" (s.names.count "invariant") ∧
          Added "invariant" 1 [.definition (predicate name lines)] s u) s := by
      refine (yields_ofTerm _).bind ?_
      rintro lines _ ⟨hlines, rfl⟩
      exact (ends_invariantFunction hs lines).mono fun name u hu => ⟨lines, hlines, hu⟩
    refine hfirst.bind ?_
    rintro name t ⟨lines, hlines, hname, ht⟩
    refine (ih ht.closed).bind ?_
    rintro names u ⟨defs, hdefs, hnames, hnumbers, hu⟩
    refine ends_pure.2 ⟨predicate name lines :: defs, ?_, ?_, ?_, ?_⟩
    · exact .cons ⟨lines, hlines, rfl⟩ hdefs
    · rw [hnames]
      rfl
    · rw [List.length_cons, numberedFrom_succ, hnumbers, hname, ht.count]
    · have hall := ht.trans hu
      rwa [Nat.add_comm] at hall

/-- A function is added that calls those for the invariants. -/
theorem yields_conjunction {t : Builder} {invariants : List Invariant} {defs : List Definition}
    (hdefs : States invariants defs) (hmany : invariants.length ≠ 1)
    (hnames : defs.map Definition.name =
      numberedFrom "invariant" (s.names.count "invariant") defs.length)
    (h : Added "invariant" defs.length (defs.map .definition) s t) :
    Yields (conjunction (defs.map Definition.name))
      (fun name u => ∃ all, StatesAll invariants all name ∧
        all.map Definition.name =
          numberedFrom "invariant" (s.names.count "invariant") all.length ∧
        Added "invariant" all.length (all.map .definition) s u) t := by
  refine (ends_invariantFunction h.closed _).mono ?_
  rintro name u ⟨hname, hu⟩
  rw [List.map_map] at hu
  refine ⟨_, .conjunction hmany hdefs, ?_, ?_⟩
  · have hlast : [name] = numberedFrom "invariant" (t.names.count "invariant") 1 := by
      rw [hname]
      rfl
    rw [List.map_append, hnames, List.length_append, ← numberedFrom_append, ← h.count]
    exact congrArg _ hlast
  · have hall := h.trans hu
    rw [List.map_append, List.length_append]
    exact hall

/-! ## Lemmas -/

variable {e : Emit.Equated} {verbatim : String}

/-- A lemma is added, and its use is returned. -/
theorem yields_methodLemma (hs : s.current = none) (method : String) (arity : Nat) :
    Yields (Emit.methodLemma lemmas e verbatim method arity)
      (fun use u => ∃ l : MethodLemma, l.method = method ∧
        l.values = numberedFrom "v" (s.names.count "v") arity ∧ use = l.use e ∧
        Added "v" arity [.global (l.text e verbatim)] s u) s := by
  refine (yields_replicate_fresh hs arity).bind ?_
  rintro values t ⟨rfl, ht⟩
  have htext :=
    substitute_methodProof e ⟨method, numberedFrom "v" (s.names.count "v") arity⟩ verbatim
  refine ends_bind.2 ((ends_ofTemplate htext).2 ?_)
  refine (ht.yields_global _).bind fun _ u hu => ?_
  have huse := substitute_use e ⟨method, numberedFrom "v" (s.names.count "v") arity⟩
  exact (ends_ofTemplate huse).2 ⟨_, rfl, rfl, rfl, hu⟩

/-- There is one lemma for each method, in the same order. -/
theorem yields_methodLemmas (hs : s.current = none) (shared : List (String × Nat)) :
    Yields (shared.mapM fun (method, arity) => Emit.methodLemma lemmas e verbatim method arity)
      (fun uses u => ∃ (ls : List MethodLemma) (k : Nat),
        ls.map (fun l => (l.method, l.values.length)) = shared ∧
        ls.flatMap MethodLemma.values = numberedFrom "v" (s.names.count "v") k ∧
        uses = ls.map (MethodLemma.use · e) ∧
        Added "v" k (ls.map fun l => .global (l.text e verbatim)) s u) s := by
  induction shared generalizing s with
  | nil => exact ends_pure.2 ⟨[], 0, rfl, rfl, rfl, .refl _ hs⟩
  | cons first rest ih =>
    obtain ⟨method, arity⟩ := first
    rw [List.mapM_cons]
    refine (yields_methodLemma hs method arity).bind ?_
    rintro use t ⟨l, rfl, hvalues, rfl, ht⟩
    refine (ih ht.closed).bind ?_
    rintro uses u ⟨ls, k, hshared, hall, rfl, hu⟩
    refine ends_pure.2 ⟨l :: ls, arity + k, ?_, ?_, rfl, ht.trans hu⟩
    · rw [List.map_cons, hshared, hvalues, length_numberedFrom]
    · rw [List.flatMap_cons, hvalues, hall, ht.count, numberedFrom_append]

/-! ## Shared methods -/

theorem mem_sharedMethods {objects : Objects} {roots : List Node}
    (h : Objects.ofNodes roots = .ok objects) {lhs rhs : Node} {name : String} {arity : Nat} :
    (name, arity) ∈ Emit.sharedMethods (objects.methodsOf? lhs) (objects.methodsOf? rhs) ↔
      objects.DeclaresMethod lhs name arity ∧ objects.DeclaresMethod rhs name arity := by
  have harity : ∀ {n declaration : Node} {methods : NameMap Node} {name : String},
      objects.methodsOf? n = some methods → methods.get? name = some declaration →
      objects.DeclaresMethod n name (Emit.arity declaration) := by
    intro n declaration methods name hn hname
    obtain ⟨formals, body, hshape⟩ := Objects.shape_of_methodsOf? h hn hname
    exact ⟨methods, declaration, formals, body, hn, hname, hshape, by rw [Emit.arity, hshape]⟩
  constructor
  · intro hmem
    cases hl : objects.methodsOf? lhs with
    | none => simp [hl, Emit.sharedMethods] at hmem
    | some left =>
      cases hr : objects.methodsOf? rhs with
      | none => simp [hl, hr, Emit.sharedMethods] at hmem
      | some right =>
        rw [hl, hr, Emit.sharedMethods, List.mem_filterMap] at hmem
        obtain ⟨⟨method, declaration⟩, hentry, hshared⟩ := hmem
        dsimp only at hshared
        split at hshared
        · next hright =>
          obtain ⟨rfl, rfl⟩ := Prod.mk.inj (Option.some.inj hshared)
          obtain ⟨other, hother, hsame⟩ := Option.map_eq_some_iff.1 hright
          refine ⟨harity hl (NameMap.get?_eq_some_iff.2 hentry), ?_⟩
          rw [← hsame]
          exact harity hr hother
        · cases hshared
  · rintro ⟨⟨left, declaration, formals, body, hl, hname, hshape, rfl⟩,
      right, other, formals', body', hr, hother, hshape', hsame⟩
    rw [hl, hr, Emit.sharedMethods, List.mem_filterMap]
    refine ⟨(name, declaration), NameMap.get?_eq_some_iff.1 hname, ?_⟩
    have hleft : Emit.arity declaration = formals.length := by rw [Emit.arity, hshape]
    have hright : Emit.arity other = formals.length := by rw [← hsame, Emit.arity, hshape']
    simp [hother, hleft, hright]

/-! ## Equivalences -/

/-- The lemmas are those for the methods that both sides declare with the same number of parameters,
one for each, in the order of their names. All their parameters have different names. -/
structure Covers (objects : Objects) (lhs rhs : Node) (ls : List MethodLemma) : Prop where
  ascend : (ls.map MethodLemma.method).Pairwise (· < ·)
  shared : ∀ name arity, (∃ l ∈ ls, l.method = name ∧ l.values.length = arity) ↔
    objects.DeclaresMethod lhs name arity ∧ objects.DeclaresMethod rhs name arity
  unknown : objects.recordOf? lhs = none ∨ objects.recordOf? rhs = none → ls = []
  distinct : (invariantParams.map Param.name ++ ls.flatMap MethodLemma.values).Nodup

/-- What is added for an equivalence: functions that state its invariants, lemmas, and the proof
that uses them, which the program runs. -/
structure AddedProof (e : Emit.Equated) (verbatim : String) (defs : List Definition)
    (ls : List MethodLemma) (s t : Builder) : Prop where
  closed : t.current = none
  items : t.items = s.items ++ defs.map .definition ++
    ls.map (fun l => .global (l.text e verbatim)) ++
    [.global (lemmasProof e (ls.map (MethodLemma.use · e)))]
  run : t.run = s.run ++ [e.proof]
  apart : (defs.map Definition.name).Nodup

theorem covers_of_shared {objects : Objects} {roots : List Node}
    (h : Objects.ofNodes roots = .ok objects) {lhs rhs : Node} {ls : List MethodLemma}
    (hls : ls.map (fun l => (l.method, l.values.length)) =
      Emit.sharedMethods (objects.methodsOf? lhs) (objects.methodsOf? rhs))
    {start k : Nat} (hvalues : ls.flatMap MethodLemma.values = numberedFrom "v" start k) :
    Covers objects lhs rhs ls where
  ascend := by
    have hascend := Emit.sharedMethods_ascend (objects.methodsOf? lhs) (objects.methodsOf? rhs)
    rwa [← hls, List.map_map] at hascend
  shared name arity := by
    rw [← mem_sharedMethods h, ← hls, List.mem_map]
    constructor
    · rintro ⟨l, hl, rfl, rfl⟩
      exact ⟨l, hl, rfl⟩
    · rintro ⟨l, hl, hpair⟩
      obtain ⟨rfl, rfl⟩ := Prod.mk.inj hpair
      exact ⟨l, hl, rfl, rfl⟩
  unknown hnone := by
    have hempty : Emit.sharedMethods (objects.methodsOf? lhs) (objects.methodsOf? rhs) = [] := by
      unfold Objects.methodsOf?
      rcases hnone with hnone | hnone
      · rw [hnone]
        rfl
      · rw [hnone]
        cases objects.recordOf? lhs <;> rfl
    rw [hempty] at hls
    exact List.map_eq_nil_iff.1 hls
  distinct := by
    rw [hvalues]
    refine List.nodup_append.2 ⟨by decide, nodup_numberedFrom (by decide) start k, ?_⟩
    rintro x hx _ hy rfl
    obtain ⟨n, -, rfl⟩ := List.mem_map.1 hy
    -- The parameters of an invariant start with other letters.
    have hfirst : ∀ x ∈ invariantParams.map Param.name, x.toList.head? ≠ some 'v' := by
      decide +kernel
    refine hfirst _ hx ?_
    rw [Claim.toList_numbered]
    rfl

/-- The lemmas and the proof are added behind the functions for the invariants. -/
theorem yields_lemmasProof (e : Emit.Equated) (verbatim : String) {objects : Objects}
    {roots : List Node} {lhs rhs : Node} {defs : List Definition} {t : Builder}
    (hobjects : Objects.ofNodes roots = .ok objects)
    (hnames : defs.map Definition.name =
      numberedFrom "invariant" (s.names.count "invariant") defs.length)
    (h : Added "invariant" defs.length (defs.map .definition) s t) :
    Yields (do
        let uses ← (Emit.sharedMethods (objects.methodsOf? lhs) (objects.methodsOf? rhs)).mapM
          fun (method, arity) => Emit.methodLemma lemmas e verbatim method arity
        let text ← Building.ofTemplate
          (lemmas.equivalenceProof.substitute (Emit.proofValues e uses))
        Building.global text (some e.proof))
      (fun _ u => ∃ ls, Covers objects lhs rhs ls ∧ AddedProof e verbatim defs ls s u) t := by
  refine (yields_methodLemmas h.closed _).bind ?_
  rintro _ u ⟨ls, k, hls, hvalues, rfl, hu⟩
  refine ends_bind.2 ((ends_ofTemplate (substitute_equivalenceProof e _)).2 (ends_global.2 ?_))
  refine ⟨ls, covers_of_shared hobjects hls hvalues, hu.closed, ?_, ?_, ?_⟩
  · rw [hu.items, h.items]
  · rw [hu.run, h.run]
    rfl
  · rw [hnames]
    exact nodup_numberedFrom (by decide) _ _

/-- Programs can be proved equivalent under any ready invariants but those over all arguments. -/
theorem equivalence_ok (root : String) {b : Builder} {lhs rhs context : Node}
    {invariants : List Invariant} (hl : lhs.IsProgram) (hr : rhs.IsProgram)
    (hc : context.IsProgram) (hinvs : ∀ inv ∈ invariants, inv.Ready ∧ inv.isUniversal = false)
    (verbatim : String) (hb : b.current = none) :
    ∃ b', (Emit.obligation (dialect root)
      (.equivalence lhs rhs context invariants verbatim)).run.run b = (.ok (), b') := by
  have hsettles := Emit.equivalence_settles (dialect_sound root) hl hr hc
    (fun inv hinv => (hinvs inv hinv).1) verbatim hb
  have hnever : invariants.any Invariant.isUniversal = true → False := by
    intro hany
    obtain ⟨inv, hinv, huniversal⟩ := List.any_eq_true.1 hany
    exact absurd ((hinvs inv hinv).2.symm.trans huniversal) (by decide)
  obtain ⟨_, b', hrun, -⟩ := (hsettles.imp (fun _ _ h => h) fun e he => hnever he.2.1).ok
  exact ⟨b', hrun⟩

/-- The emitter proves an equivalence by exactly the lemmas that it needs. There is one for each
method that both objects declare with the same number of parameters, in the order of the names, and
the proof behind them uses each of them once. All of them are about one function, which states all
invariants. -/
theorem lemmas_of_equivalence {root : String} {b b' : Builder} {lhs rhs context : Node}
    {invariants : List Invariant} {verbatim : String} (hb : b.current = none)
    (h : (Emit.obligation (dialect root)
      (.equivalence lhs rhs context invariants verbatim)).run.run b = (.ok (), b')) :
    ∃ objects e defs ls, Objects.ofNodes [context, lhs, rhs] = .ok objects ∧
      term context = .ok e.context ∧ term lhs = .ok e.lhs ∧ term rhs = .ok e.rhs ∧
      StatesAll (if invariants.isEmpty then [.always] else invariants) defs e.invariant ∧
      Covers objects lhs rhs ls ∧ AddedProof e verbatim defs ls b b' := by
  suffices hall : Yields (Emit.equivalence (dialect root) lhs rhs context invariants verbatim)
      (fun _ u => ∃ objects e defs ls, Objects.ofNodes [context, lhs, rhs] = .ok objects ∧
        term context = .ok e.context ∧ term lhs = .ok e.lhs ∧ term rhs = .ok e.rhs ∧
        StatesAll (if invariants.isEmpty then [.always] else invariants) defs e.invariant ∧
        Covers objects lhs rhs ls ∧ AddedProof e verbatim defs ls b u) b from hall.of_run h
  refine (yields_invariants hb _).bind ?_
  rintro names s ⟨defs, hdefs, rfl, hnumbers, hs⟩
  show Yields (Emit.methodLemmas (dialect root) lemmas lhs rhs context verbatim _) _ s
  refine (yields_ofTree _).bind ?_
  rintro objects s ⟨hobjects, rfl⟩
  refine ends_bind.2 (ends_fresh.2 ?_)
  have hdrawn := hs.drawOther (by decide : "invariant" ≠ "equivalent")
  refine (yields_ofTerm _).bind ?_
  rintro contextText _ ⟨hcontext, rfl⟩
  refine (yields_ofTerm _).bind ?_
  rintro lhsText _ ⟨hlhs, rfl⟩
  refine (yields_ofTerm _).bind ?_
  rintro rhsText _ ⟨hrhs, rfl⟩
  dsimp only
  split
  · next name hname =>
    obtain ⟨def?, rfl, rfl⟩ := List.map_eq_singleton_iff.1 hname
    have hsingle : StatesAll (if invariants.isEmpty then [.always] else invariants) [def?]
        def?.name := by
      obtain ⟨inv, hinv⟩ := List.length_eq_one_iff.1 hdefs.length_eq
      rw [hinv] at hdefs ⊢
      exact .single hdefs
    let e : Emit.Equated := ⟨s.nextName "equivalent", contextText, lhsText, rhsText, def?.name⟩
    refine Ends.mono (yields_lemmasProof e verbatim hobjects hnumbers hdrawn) ?_
    rintro _ u ⟨ls, hcovers, hadded⟩
    exact ⟨objects, e, [def?], ls, hobjects, hcontext, hlhs, hrhs, hsingle, hcovers, hadded⟩
  · next hmany =>
    have hlength : (if invariants.isEmpty then [Invariant.always] else invariants).length ≠ 1 := by
      intro hone
      obtain ⟨def?, rfl⟩ := List.length_eq_one_iff.1 (hdefs.length_eq.symm.trans hone)
      exact hmany def?.name rfl
    refine (yields_conjunction hdefs hlength hnumbers hdrawn).bind ?_
    rintro name t ⟨all, hstates, hall, ht⟩
    let e : Emit.Equated := ⟨s.nextName "equivalent", contextText, lhsText, rhsText, name⟩
    refine Ends.mono (yields_lemmasProof e verbatim hobjects hall ht) ?_
    rintro _ u ⟨ls, hcovers, hadded⟩
    exact ⟨objects, e, all, ls, hobjects, hcontext, hlhs, hrhs, hstates, hcovers, hadded⟩

/-- Two objects with a method `put` of two parameters, under two invariants. The methods `get` have
different numbers of parameters, so there is no lemma for them. -/
theorem lemmas_of_equivalence_put :
    let method (name : String) (formals : List Node) : Node :=
      .detached (.method name formals .nil)
    let object (id : Nat) (formals : List Node) : Node :=
      .mk (.numbered id) Span.none
        (.new [] (.seq (method "put" [.var "x", .var "y"]) (method "get" formals)))
    let o : Obligation :=
      .equivalence (object 1 []) (object 2 [.var "z"]) .nop [.always, .never] "// by hand"
    Builder.start.current = none ∧
    ∃ b', (Emit.obligation (dialect "lib") o).run.run Builder.start = (.ok (), b') ∧
      ∃ objects e defs ls, Objects.ofNodes [.nop, object 1 [], object 2 [.var "z"]] = .ok objects ∧
        StatesAll [.always, .never] defs e.invariant ∧
        Covers objects (object 1 []) (object 2 [.var "z"]) ls ∧
        AddedProof e "// by hand" defs ls Builder.start b' ∧
        (∃ l ∈ ls, l.method = "put" ∧ l.values.length = 2) ∧ ∀ l ∈ ls, l.method ≠ "get" := by
  intro method object o
  have hvar : ∀ name, (Node.var name).IsProgram ∧ (Node.var name).tag = .var :=
    fun name => ⟨Node.isProgram_var name, rfl⟩
  have hobject : ∀ id formals, (∀ f ∈ formals, f.IsProgram ∧ f.tag = .var) →
      (object id formals).IsProgram := by
    intro id formals hformals
    have hput : (method "put" [.var "x", .var "y"]).IsProgram :=
      .method (by simp [hvar]) Node.isProgram_nil
    have hget : (method "get" formals).IsProgram := .method hformals Node.isProgram_nil
    exact (hput.seq hget).allocation
  have hleft : (object 1 []).IsProgram := hobject 1 [] (by simp)
  have hright : (object 2 [.var "z"]).IsProgram := hobject 2 _ (by simp [hvar])
  have hinvs : ∀ inv ∈ [Invariant.always, .never], inv.Ready ∧ inv.isUniversal = false := by
    simp [Invariant.Ready, Invariant.isUniversal]
  have hidle : Builder.start.current = none := rfl
  obtain ⟨b', hrun⟩ :=
    equivalence_ok "lib" hleft hright Node.isProgram_nop hinvs "// by hand" hidle
  obtain ⟨objects, e, defs, ls, hobjects, -, -, -, hstates, hcovers, hadded⟩ :=
    lemmas_of_equivalence hidle hrun
  have hevaluated : (Objects.ofNodes [.nop, object 1 [], object 2 [.var "z"]]).toOption.map
      (fun objects => Emit.sharedMethods (objects.methodsOf? (object 1 []))
        (objects.methodsOf? (object 2 [.var "z"]))) = some [("put", 2)] := by
    decide +kernel +zetaReduce
  rw [hobjects] at hevaluated
  have hmethods := Option.some.inj hevaluated
  dsimp only at hmethods
  have hshared : ∀ name arity, (∃ l ∈ ls, l.method = name ∧ l.values.length = arity) ↔
      (name, arity) = ("put", 2) := by
    intro name arity
    rw [hcovers.shared, ← mem_sharedMethods hobjects, hmethods, List.mem_singleton]
  refine ⟨hidle, b', hrun, objects, e, defs, ls, hobjects, hstates, hcovers, hadded, ?_, ?_⟩
  · exact (hshared "put" 2).2 rfl
  · rintro l hl hget
    have hpair := (hshared "get" l.values.length).1 ⟨l, hl, hget, rfl⟩
    simp at hpair

end Dafny

end ProofScript
