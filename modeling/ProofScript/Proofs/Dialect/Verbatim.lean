import ProofScript.Proofs.Code.Growth
import ProofScript.Proofs.Dialect.MethodLemmas
import ProofScript.Proofs.Text.Copies

/-!
# Verbatim text

What becomes of the text that a script gives for the proof of an equivalence. In Rosette its lines
stand in the definition that checks the equivalence, and in Dafny in the lemma for each method that
both objects have. Where there is no such method, Dafny drops the text (`Backend.copied_verbatim`).
-/

namespace ProofScript

/-- The program in front makes both sides objects, and they have a method with the same name and the
same number of parameters. -/
def Objects.ShareMethod (context lhs rhs : Node) : Prop :=
  ∃ objects name arity, Objects.ofNodes [context, lhs, rhs] = .ok objects ∧
    objects.DeclaresMethod lhs name arity ∧ objects.DeclaresMethod rhs name arity

theorem Objects.shareMethod_iff {context lhs rhs : Node} :
    Objects.ShareMethod context lhs rhs ↔ ∃ objects,
      Objects.ofNodes [context, lhs, rhs] = .ok objects ∧
        Emit.sharedMethods (objects.methodsOf? lhs) (objects.methodsOf? rhs) ≠ [] := by
  constructor
  · rintro ⟨objects, name, arity, hobjects, hshared⟩
    exact ⟨objects, hobjects, List.ne_nil_of_mem ((Dafny.mem_sharedMethods hobjects).2 hshared)⟩
  · rintro ⟨objects, hobjects, hne⟩
    obtain ⟨⟨name, arity⟩, hmem⟩ := List.exists_mem_of_ne_nil _ hne
    exact ⟨objects, name, arity, hobjects, (Dafny.mem_sharedMethods hobjects).1 hmem⟩

/-! ## Where the text goes -/

namespace Emit

variable {d : Dialect} {l : LemmaNotation} {p : Item → Prop} {lhs rhs context : Node}
  {verbatim : String}

/-- The lines stand between those that make the objects and those that check them. -/
theorem wholeObject_adds {check : String → String → String → List String → List String}
    (hcheck : ∀ ctx l r names, check ctx l r names ≠ [])
    (hp : ∀ name before after, before ≠ [] → after ≠ [] →
      p (.definition ⟨.method, name, [], none, before ++ Text.content verbatim ++ after⟩))
    (names : List String) : Adds p (wholeObject d check lhs rhs context verbatim names) := by
  intro s
  cases hs : s.current with
  | some opened =>
    -- A definition cannot begin while another one is open, so there is no result.
    refine ends_bind.2 (ends_bind.2 (ends_get.2 ?_))
    rw [hs]
    trivial
  | none =>
    refine ends_bind.2 ((ends_openDef hs).2 ?_)
    refine ends_bind.2 (ends_fresh.2 (ends_bind.2 (ends_fresh.2 (ends_bind.2 (ends_fresh.2 ?_)))))
    refine (yields_ofTerm _).bind ?_
    rintro contextText _ ⟨-, rfl⟩
    refine (yields_ofTerm _).bind ?_
    rintro lhsText _ ⟨-, rfl⟩
    refine (yields_ofTerm _).bind ?_
    rintro rhsText _ ⟨-, rfl⟩
    refine ends_bind.2 ((ends_emit rfl).2 (ends_bind.2 ((ends_emit rfl).2 ?_)))
    refine ends_bind.2 ((ends_emit rfl).2 (ends_bind.2 ((ends_close rfl fun _ => rfl).2 ?_)))
    refine ends_pure.2 ⟨_, List.mem_append_right _ List.mem_cons_self, ?_⟩
    exact hp _ _ _ (List.cons_ne_nil _ _) (hcheck _ _ _ _)

/-- The text is in the lemma for each method. -/
theorem methodLemma_adds {e : Equated} {method : String}
    (hp : ∀ vars text, l.methodProof.substitute (methodValues l e verbatim method vars) = .ok text →
      p (.global text)) (arity : Nat) : Adds p (methodLemma l e verbatim method arity) := by
  refine Adds.last fun vars => Adds.ofTemplate fun text htext => ?_
  exact (Adds.global (hp vars text htext) none).first fun _ => grows_ofTemplate _

theorem lemmasProof_adds {e : Equated} {shared : List (String × Nat)}
    {values : List String → List (String × String)}
    (hp : ∀ method vars text,
      l.methodProof.substitute (methodValues l e verbatim method vars) = .ok text →
      p (.global text)) (hshared : shared ≠ []) :
    Adds p (do
      let uses ← shared.mapM fun (method, arity) => methodLemma l e verbatim method arity
      let text ← Building.ofTemplate (l.equivalenceProof.substitute (values uses))
      Building.global text (some e.proof)) := by
  obtain ⟨⟨method, arity⟩, hmem⟩ := List.exists_mem_of_ne_nil _ hshared
  have hlemma : Adds p (methodLemma l e verbatim method arity) := methodLemma_adds (hp method) arity
  have hloop : Adds p
      (shared.mapM fun (method, arity) => methodLemma l e verbatim method arity) :=
    .mapM (fun _ _ => methodLemma_grows _ _ _ _ _) hmem hlemma
  exact hloop.first fun _ => (grows_ofTemplate _).bind fun _ => grows_global _ _

theorem methodLemmas_adds
    (hp : ∀ e method vars text,
      l.methodProof.substitute (methodValues l e verbatim method vars) = .ok text →
      p (.global text))
    (h : Objects.ShareMethod context lhs rhs) (names : List String) :
    Adds p (methodLemmas d l lhs rhs context verbatim names) := by
  obtain ⟨objects, hobjects, hshared⟩ := Objects.shareMethod_iff.1 h
  refine Adds.ofTree fun found hfound => ?_
  obtain rfl := Except.ok.inj (hobjects.symm.trans hfound)
  refine Adds.last fun proof => Adds.last fun contextText => Adds.last fun lhsText =>
    Adds.last fun rhsText => ?_
  -- A single invariant is used by its name; several are first made one.
  dsimp only
  split
  · exact Adds.last fun name => lemmasProof_adds (hp ⟨_, _, _, _, name⟩) hshared
  · exact Adds.last fun name => lemmasProof_adds (hp ⟨_, _, _, _, name⟩) hshared

/-- What follows an analysis may be changed where the analysis has no such result. -/
theorem ofTree_bind_congr {α β : Type} {r : Except TreeError α} {f g : α → Building β}
    (h : ∀ a, r = .ok a → f a = g a) : (Building.ofTree r >>= f) = (Building.ofTree r >>= g) := by
  cases r with
  | error e => rfl
  | ok a => exact h a rfl

/-- Without a method that both objects have, the text is not used. -/
theorem methodLemmas_congr (h : ¬Objects.ShareMethod context lhs rhs) (other : String)
    (names : List String) :
    methodLemmas d l lhs rhs context verbatim names =
      methodLemmas d l lhs rhs context other names := by
  refine ofTree_bind_congr fun objects hobjects => ?_
  have hnone : sharedMethods (objects.methodsOf? lhs) (objects.methodsOf? rhs) = [] := by
    by_contra hne
    exact h (Objects.shareMethod_iff.2 ⟨objects, hobjects, hne⟩)
  simp only [hnone, List.mapM_nil]

end Emit

/-! ## Dialects -/

namespace Dafny

theorem onlyAdds (root : String) : (dialect root).OnlyAdds := by
  have hfunction : ∀ lines, Grows (invariantFunction lines) := fun lines =>
    (grows_openDef _ _ _ _).bind fun _ => (grows_emit _).bind fun _ => grows_close _
  refine ⟨fun inv => (grows_ofTerm _).bind fun lines => hfunction lines, ?_⟩
  intro l hl names
  obtain rfl := EquivalenceStyle.methodLemmas.inj hl
  exact hfunction _

/-- The lemma for each method has the text. -/
theorem copied_text (l : MethodLemma) (e : Emit.Equated) (verbatim : String) :
    Copied (Text.content verbatim) (l.text e verbatim) :=
  .of_between [_, _, _, _, _, _, _] [_] (List.cons_ne_nil _ _) (List.cons_ne_nil _ _) verbatim

/-- Where the objects have a method in common, its lemma has the text. -/
theorem equivalence_copies (root : String) {lhs rhs context : Node}
    (h : Objects.ShareMethod context lhs rhs) (invariants : List Invariant) (verbatim : String) :
    Adds (fun item => Copied (Text.content verbatim) ((dialect root).itemText item))
      (Emit.equivalence (dialect root) lhs rhs context invariants verbatim) := by
  refine Adds.last fun names => Emit.methodLemmas_adds ?_ h names
  intro e method vars text htext
  have hwritten := substitute_methodProof e ⟨method, vars⟩ verbatim
  obtain rfl := Except.ok.inj (hwritten.symm.trans htext)
  exact copied_text ⟨method, vars⟩ e verbatim

/-- Where the objects have no method in common, the text is not used. -/
theorem equivalence_congr (root : String) {lhs rhs context : Node}
    (h : ¬Objects.ShareMethod context lhs rhs) (invariants : List Invariant)
    (verbatim other : String) :
    Emit.equivalence (dialect root) lhs rhs context invariants verbatim =
      Emit.equivalence (dialect root) lhs rhs context invariants other :=
  bind_congr fun names => Emit.methodLemmas_congr h other names

end Dafny

namespace Rosette

theorem onlyAdds (root : String) : (dialect root).OnlyAdds := by
  have hvalue : ∀ stem lines, Grows (invariantGlobal stem lines) := fun stem lines =>
    (grows_fresh _).bind fun _ => (grows_global _ _).bind fun _ => grows_pure _
  refine ⟨fun inv => ?_, fun hl => nomatch hl⟩
  show Grows (invariant inv)
  cases inv with
  | always => exact hvalue _ _
  | never => exact hvalue _ _
  | equal => exact (grows_ofTerm _).bind fun _ => hvalue _ _
  | valid => exact (grows_ofTerm _).bind fun _ => hvalue _ _
  | ref => exact (grows_ofTerm _).bind fun _ => hvalue _ _
  | int => exact (grows_ofTerm _).bind fun _ => hvalue _ _
  | universal =>
    refine (grows_ofTerm _).bind fun _ => (grows_fresh _).bind fun _ =>
      (grows_fresh _).bind fun _ => ?_
    exact (grows_global _ _).bind fun _ => (grows_global _ _).bind fun _ =>
      (grows_ofTerm _).bind fun _ => hvalue _ _

/-- The lines of a definition are indented. -/
theorem copied_frame (name : String) {before after : List String} (hbefore : before ≠ [])
    (hafter : after ≠ []) (lines : List String) :
    Copied lines (frame ⟨.method, name, [], none, before ++ lines ++ after⟩) := by
  have hindent : ∀ c ∈ "  ".toList, Text.isBlank c = true := by
    intro c hc
    have hblank : c = ' ' := by simpa using hc
    rw [hblank]
    decide
  exact (Copied.of_indented hindent hbefore hafter lines).append _ _

/-- The definition that checks the objects has the lines of the text. -/
theorem equivalence_copies (root : String) (lhs rhs context : Node) (invariants : List Invariant)
    (verbatim : String) :
    Adds (fun item => Copied (Text.content verbatim) ((dialect root).itemText item))
      (Emit.equivalence (dialect root) lhs rhs context invariants verbatim) := by
  refine Adds.last fun names => Emit.wholeObject_adds ?_ ?_ names
  · exact fun ctx l r names => List.cons_ne_nil _ _
  · exact fun name before after hbefore hafter => copied_frame name hbefore hafter _

end Rosette

/-! ## Programs -/

theorem Backend.onlyAdds (backend : Backend) (root : String) : (backend.dialect root).OnlyAdds := by
  cases backend with
  | dafny => exact Dafny.onlyAdds root
  | rosette => exact Rosette.onlyAdds root

/-- The text of a program has the lines that its parts have. -/
theorem Builder.copied_assemble {b : Builder} {d : Dialect} {lines : List String} {item : Item}
    {text : String} (hitem : item ∈ b.items) (h : Copied lines (d.itemText item))
    (htext : b.assemble d = .ok text) : Copied lines text := by
  have hclosed : b.current = none := Builder.exists_assemble_iff.1 ⟨text, htext⟩
  rw [Builder.assemble_of_closed d hclosed] at htext
  obtain rfl := Except.ok.inj htext
  refine h.of_part ?_ _
  exact List.mem_cons_of_mem _ (List.mem_append_left _ (List.mem_map_of_mem hitem))

/-- The text that a script gives with an equivalence, in a program that is finished after other
obligations, which may fail. In Rosette, and in Dafny when both objects have a method in common, the
lines of the text that are not blank stand in the program, one after the other. Without such a
method Dafny does not use the text, so any other one gives the same program. -/
theorem Backend.copied_verbatim {backend : Backend} {root text : String} {b b' : Builder}
    {lhs rhs context : Node} {invariants : List Invariant} {verbatim : String}
    (h : (Emit.obligation (backend.dialect root)
      (.equivalence lhs rhs context invariants verbatim)).run.run b = (.ok (), b'))
    (later : List Obligation)
    (htext : (Emit.after (backend.dialect root) b' later).assemble (backend.dialect root) =
      .ok text) :
    (backend = .rosette ∨ Objects.ShareMethod context lhs rhs →
      Copied (Text.content verbatim) text) ∧
    (backend = .dafny → ¬Objects.ShareMethod context lhs rhs → ∀ other,
      (Emit.obligation (backend.dialect root)
        (.equivalence lhs rhs context invariants other)).run.run b = (.ok (), b')) := by
  constructor
  · intro hused
    have hadds : Adds
        (fun item => Copied (Text.content verbatim) ((backend.dialect root).itemText item))
        (Emit.equivalence (backend.dialect root) lhs rhs context invariants verbatim) := by
      cases backend with
      | rosette => exact Rosette.equivalence_copies root lhs rhs context invariants verbatim
      | dafny =>
        have hshare : Objects.ShareMethod context lhs rhs := by
          rcases hused with hrosette | hshare
          · cases hrosette
          · exact hshare
        exact Dafny.equivalence_copies root hshare invariants verbatim
    obtain ⟨item, hitem, hcopied⟩ := (hadds b).of_run h
    have hlater := Emit.prefix_after (backend.onlyAdds root) b' later
    exact Builder.copied_assemble (hlater.subset hitem) hcopied htext
  · rintro rfl hnone other
    -- Not only the results are the same: the emitters are the same action.
    have hsame : Emit.equivalence (Backend.dafny.dialect root) lhs rhs context invariants verbatim =
        Emit.equivalence (Backend.dafny.dialect root) lhs rhs context invariants other :=
      Dafny.equivalence_congr root hnone invariants verbatim other
    rw [Emit.obligation] at h ⊢
    rwa [← hsame]

/-- Two objects with a method in common. A goal that is left unproved comes later. -/
theorem Backend.copied_verbatim_get :
    let object (id : Nat) : Node :=
      .mk (.numbered id) Span.none (.new [] (.detached (.method "get" [] .nil)))
    let verbatim := "  by hand\n\n// done"
    let d := Backend.dafny.dialect "lib"
    ∃ b text,
      (Emit.obligation d (.equivalence (object 1) (object 2) .nop [] verbatim)).run.run
        Builder.start = (.ok (), b) ∧
      (Emit.after d b [.concede (.var "p") (.var "q") .nop]).assemble d = .ok text ∧
      Objects.ShareMethod .nop (object 1) (object 2) ∧
      Text.content verbatim = ["  by hand", "// done"] ∧ Copied (Text.content verbatim) text := by
  intro object verbatim d
  have hmethod : (Node.detached (.method "get" [] .nil)).IsProgram :=
    .method (List.forall_mem_nil _) Node.isProgram_nil
  have hobject : ∀ id, (object id).IsProgram := fun id => hmethod.allocation
  have hshare : Objects.ShareMethod .nop (object 1) (object 2) := by
    refine Objects.shareMethod_iff.2 ⟨_, rfl, ?_⟩
    decide +kernel
  obtain ⟨b, hrun⟩ : ∃ b, (Emit.obligation d
      (.equivalence (object 1) (object 2) .nop [] verbatim)).run.run Builder.start = (.ok (), b) :=
    Dafny.equivalence_ok "lib" (hobject 1) (hobject 2) Node.isProgram_nop (List.forall_mem_nil _)
      verbatim rfl
  have hsettled := Emit.equivalence_settles (Dafny.dialect_sound "lib") (hobject 1) (hobject 2)
    Node.isProgram_nop (List.forall_mem_nil _) verbatim (rfl : Builder.start.current = none)
  have hconceded : Ends (Emit.concede d (.var "p") (.var "q") .nop)
      (fun _ u => Settled d "admitted" b u) (fun _ => False) b :=
    Emit.concede_settles (Dafny.dialect_sound "lib") (Node.isProgram_var "p")
      (Node.isProgram_var "q") Node.isProgram_nop (hsettled.of_run hrun).1.closed
  obtain ⟨_, b', hlater, hafter⟩ := hconceded.ok
  have hlast : Emit.after d b [.concede (.var "p") (.var "q") .nop] = b' :=
    congrArg Prod.snd hlater
  have htext := Builder.assemble_of_closed d hafter.closed
  rw [← hlast] at htext
  refine ⟨b, _, hrun, htext, hshare, by decide +kernel, ?_⟩
  exact (Backend.copied_verbatim hrun _ htext).1 (.inr hshare)

namespace Dafny

/-- A character that is in no part and not between them. -/
theorem notMem_intercalate {separator : String} {parts : List String} {c : Char}
    (hseparator : c ∉ separator.toList) (hparts : ∀ part ∈ parts, c ∉ part.toList) :
    c ∉ (separator.intercalate parts).toList := by
  induction parts with
  | nil => simp
  | cons first rest ih =>
    have hrest := ih fun part hpart => hparts part (List.mem_cons_of_mem _ hpart)
    cases rest with
    | nil => simpa using hparts first List.mem_cons_self
    | cons next rest =>
      have hfirst := hparts first List.mem_cons_self
      rw [String.intercalate_cons_cons, String.toList_append, String.toList_append]
      simp only [List.mem_append, hfirst, hseparator, hrest, or_self, not_false_eq_true]

/-- The texts of a proof that compares two variables. -/
def equatedVars : Emit.Equated where
  proof := Claim.numbered "equivalent" 0
  context := "ENop()"
  lhs := "EVar(" ++ quote "p" ++ ")"
  rhs := "EVar(" ++ quote "q" ++ ")"
  invariant := Claim.numbered "invariant" 0

/-- The parts of a program that compares two variables. -/
theorem yields_variables (verbatim : String) :
    Yields (Emit.obligation (dialect "lib") (.equivalence (.var "p") (.var "q") .nop [.always] verbatim))
      (fun _ u => u.current = none ∧ u.run = [equatedVars.proof] ∧
        u.items = [.definition (predicate equatedVars.invariant ["true"]),
          .global (lemmasProof equatedVars [])])
      Builder.start := by
  obtain ⟨objects, hobjects, hnone⟩ : ∃ objects,
      Objects.ofNodes [.nop, .var "p", .var "q"] = .ok objects ∧
        Emit.sharedMethods (objects.methodsOf? (.var "p")) (objects.methodsOf? (.var "q")) = [] :=
    ⟨_, rfl, rfl⟩
  show Ends ([Invariant.always].mapM invariant >>= _) _ _ _
  rw [List.mapM_cons, List.mapM_nil]
  refine ends_bind.2 (ends_bind.2 (ends_bind.2 ((ends_ofTerm rfl).2 ?_)))
  refine ends_bind.2 ((ends_openDef rfl).2 (ends_bind.2 ((ends_emit rfl).2 ?_)))
  refine Iff.mpr (ends_close rfl fun hrun => nomatch hrun) ?_
  refine ends_bind.2 (ends_pure.2 (ends_pure.2 ?_))
  refine ends_bind.2 ((ends_ofTree hobjects).2 (ends_bind.2 (ends_fresh.2 ?_)))
  refine ends_bind.2 ((ends_ofTerm rfl).2 (ends_bind.2 ((ends_ofTerm rfl).2 ?_)))
  refine ends_bind.2 ((ends_ofTerm rfl).2 (ends_bind.2 (ends_pure.2 ?_)))
  rw [hnone]
  refine ends_bind.2 (ends_pure.2 ?_)
  refine ends_bind.2 ((ends_ofTemplate (substitute_equivalenceProof equatedVars [])).2 ?_)
  exact ⟨rfl, rfl, rfl⟩

/-- Two variables have no method in common, so the text is dropped. -/
theorem verbatim_dropped :
    ∃ b text,
      (Emit.obligation (dialect "lib") (.equivalence (.var "p") (.var "q") .nop [.always]
        " assert 1 <= 2; ")).run.run Builder.start = (.ok (), b) ∧
      b.assemble (dialect "lib") = .ok text ∧
      Text.content " assert 1 <= 2; " = [" assert 1 <= 2; "] ∧
      ¬Copied (Text.content " assert 1 <= 2; ") text := by
  have halways : ∀ inv ∈ [Invariant.always], inv.Ready ∧ inv.isUniversal = false := by
    simp [Invariant.Ready, Invariant.isUniversal]
  obtain ⟨b, hrun⟩ := equivalence_ok "lib" (Node.isProgram_var "p") (Node.isProgram_var "q")
    Node.isProgram_nop halways " assert 1 <= 2; " (rfl : Builder.start.current = none)
  obtain ⟨hclosed, hnames, hitems⟩ := (yields_variables _).of_run hrun
  have hcontent : Text.content " assert 1 <= 2; " = [" assert 1 <= 2; "] := by decide +kernel
  refine ⟨b, _, hrun, Builder.assemble_of_closed _ hclosed, hcontent, ?_⟩
  rw [hcontent, hnames, hitems]
  -- No part of the program has the sign `<`, which the line does.
  have hproof : '<' ∉ (lemmasProof equatedVars []).toList :=
    notMem_intercalate (by decide +kernel) (by decide +kernel)
  have hparts : ∀ part ∈ prelude "lib" :: frame (predicate equatedVars.invariant ["true"]) ::
      lemmasProof equatedVars [] :: entryPoint [equatedVars.proof], '<' ∉ part.toList :=
    List.forall_mem_cons.2 ⟨by decide +kernel, List.forall_mem_cons.2 ⟨by decide +kernel,
      List.forall_mem_cons.2 ⟨hproof, by decide +kernel⟩⟩⟩
  rintro ⟨before, block, after, htext, hcopies⟩
  have hblock : '<' ∈ block := hcopies.mem List.mem_cons_self (by decide +kernel)
  have hmem : '<' ∈ before ++ '\n' :: (block ++ after) := by simp [hblock]
  rw [← htext] at hmem
  exact notMem_intercalate (by decide +kernel) hparts hmem

end Dafny

end ProofScript
