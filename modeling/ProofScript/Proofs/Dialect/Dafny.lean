import ProofScript.Proofs.Code.Emission
import ProofScript.Proofs.Code.Terms
import ProofScript.Proofs.Dialect.LemmaTexts

/-!
# The notation of Dafny is sound

Dafny has no invariants over all arguments. Every other invariant becomes a function, and an
equivalence is proved by lemmas; no function and no lemma is named like a claim.
-/

namespace ProofScript.Dafny

variable {root stem : String} {drawn : List String} {s t : Builder} {fails : CodeFault → Prop}

/-! ## Definitions -/

/-- The definition of a claim declares its name. -/
theorem heading_frame (hstem : stem ∈ Claim.stems) (n : Nat) (lines : List String) :
    heading (frame ⟨.method, Claim.numbered stem n, [], none, lines⟩) =
      Heading.closed (Claim.numbered stem n) := by
  have hname : ∀ c ∈ (Claim.numbered stem n).toList, c ≠ '(' := by
    rintro c hc rfl
    exact absurd (Claim.isAlphanum_of_mem hstem hc) (by decide)
  have hword : ∀ c ∈ "method".toList, c ≠ ' ' := by simp
  have hparams : ∀ c ∈ "".toList, c ≠ ')' := by simp
  have htext : (frame ⟨.method, Claim.numbered stem n, [], none, lines⟩).toList =
      "method".toList ++ ' ' :: ((Claim.numbered stem n).toList ++ '(' :: ("".toList ++ ')' ::
        ("\n\x7b\n" ++ "\n".intercalate (lines.map ("  " ++ ·)) ++ "\n\x7d").toList)) := by
    simp [frame, DefKind.keyword]
  exact heading_eq hword hname hparams htext

/-- A function for an invariant declares its name. -/
theorem heading_function (n : Nat) (lines : List String) :
    (heading (frame
      ⟨.function, Claim.numbered "invariant" n, invariantParams, some "bool", lines⟩)).name =
        Claim.numbered "invariant" n := by
  have hword : ∀ c ∈ "function".toList, c ≠ ' ' := by simp
  have hdigit : ∀ c : Char, c.isDigit = true → c ≠ '(' := by
    rintro c hc rfl
    exact absurd hc (by decide)
  have hname : ∀ c ∈ (Claim.numbered "invariant" n).toList, c ≠ '(' :=
    Claim.forall_mem_numbered (by simp) hdigit n
  have htext : (frame ⟨.function, Claim.numbered "invariant" n, invariantParams, some "bool",
      lines⟩).toList = "function".toList ++ ' ' :: ((Claim.numbered "invariant" n).toList ++
        '(' :: (", ".intercalate (invariantParams.map param) ++ ")" ++ (": " ++ "bool") ++
          "\n\x7b\n" ++ "\n".intercalate (lines.map ("  " ++ ·)) ++ "\n\x7d").toList) := by
    simp [frame, DefKind.keyword]
  have hheading := heading_starts hword hname htext
  rw [List.takeWhile_cons_of_neg (by decide), List.append_nil] at hheading
  exact String.toList_injective hheading

/-- A function for an invariant is not named like a claim. -/
theorem isName_function (n : Nat) (lines : List String) :
    Claim.isName (heading (frame
      ⟨.function, Claim.numbered "invariant" n, invariantParams, some "bool", lines⟩)).name =
        false := by
  have hforeign : Claim.IsForeign "invariant" := by decide
  refine Claim.isName_of_isForeign hforeign ?_
  rw [heading_function, Claim.toList_numbered]
  exact List.prefix_append _ _

/-! ## Invariants -/

/-- Emitting a function for an invariant settles nothing. -/
theorem invariantFunction_idle (lines : List String) (h : Idle (dialect root) drawn s t) :
    Ends (invariantFunction lines) (fun _ u => Idle (dialect root) drawn s u) fails t := by
  refine ends_bind.2 ((ends_openDef h.closed).2 ?_)
  refine ends_bind.2 ((ends_emit rfl).2 ?_)
  have hitem : Claim.isName ((dialect root).backend.heading ((dialect root).itemText
      (.definition ⟨.function, t.nextName "invariant", invariantParams, some "bool",
        [] ++ lines⟩))).name = false := isName_function _ _
  have hsince := (h.since.draw (by decide : "invariant" ∉ Claim.stems)).withItem hitem
  refine Iff.mpr (ends_close rfl (fun hrun => nomatch hrun)) ⟨rfl, ?_⟩
  exact ⟨hsince.run, hsince.counts, hsince.headings⟩

/-- A ready invariant that is not over all arguments has a body. -/
theorem invariantLines_ok {inv : Invariant} (hinv : inv.Ready) (hall : inv.isUniversal = false) :
    ∃ lines, invariantLines inv = .ok lines := by
  have hcheck : ∀ (side : Side) {expr : Node} (test : String), expr.IsProgram →
      ∃ lines, sideCheck side expr test = .ok lines := by
    intro side expr test hexpr
    obtain ⟨text, htext⟩ := term_ok hexpr
    exact ⟨_, bind_of_ok htext rfl⟩
  cases inv with
  | always | never => exact ⟨_, rfl⟩
  | equal lhs rhs =>
    obtain ⟨left, hleft⟩ := term_ok hinv.1
    obtain ⟨right, hright⟩ := term_ok hinv.2
    exact ⟨_, bind_of_ok hleft (bind_of_ok hright rfl)⟩
  | valid side expr => exact hcheck side _ hinv
  | ref side expr => exact hcheck side _ hinv
  | int side expr => exact hcheck side _ hinv
  | universal args body => cases hall

/-- Emitting a ready invariant settles nothing, and fails only for those over all arguments. -/
theorem invariant_idle {inv : Invariant} (hinv : inv.Ready) (h : Idle (dialect root) [] s t) :
    Ends (invariant inv)
      (fun _ u => Idle (dialect root) [] s u ∧
        (inv.isUniversal = true → (dialect root).backend = .rosette))
      (fun e => e = .universal ∧ inv.isUniversal = true ∧ (dialect root).backend = .dafny) t := by
  cases hall : inv.isUniversal with
  | false =>
    obtain ⟨lines, hlines⟩ := invariantLines_ok hinv hall
    refine ends_bind.2 ((ends_ofTerm hlines).2 ?_)
    exact (invariantFunction_idle lines h).mono fun _ _ h => ⟨h, fun h => nomatch h⟩
  | true =>
    cases inv with
    | universal args body => exact ⟨rfl, rfl, rfl⟩
    | _ => cases hall

/-! ## Lemmas -/

/-- The lemma for a method has a text, which is not named like a claim. -/
theorem methodProof_ok {e : Emit.Equated} {n : Nat} (he : e.proof = Claim.numbered "equivalent" n)
    (verbatim method : String) (vars : List String) :
    ∃ text, methodProof.substitute (Emit.methodValues lemmas e verbatim method vars) = .ok text ∧
      Claim.isName (heading text).name = false := by
  refine ⟨_, substitute_methodProof e ⟨method, vars⟩ verbatim, ?_⟩
  -- The name of the lemma goes on behind the name of the proof with an underscore.
  have hword : ∀ c ∈ "lemma".toList, c ≠ ' ' := by simp
  have hname : ∀ c ∈ (Claim.numbered "equivalent" n).toList, c ≠ '(' := by
    rintro c hc rfl
    exact absurd (Claim.isAlphanum_of_mem (by decide) hc) (by decide)
  obtain ⟨rest, htext⟩ := text_starts e ⟨method, vars⟩ verbatim
  have hstart : (MethodLemma.text ⟨method, vars⟩ e verbatim).toList = "lemma".toList ++ ' ' ::
      ((Claim.numbered "equivalent" n).toList ++ '_' :: (method.toList ++ rest.toList)) := by
    rw [htext, MethodLemma.name, derived, he]
    simp
  have hheading := heading_starts hword hname hstart
  rw [List.takeWhile_cons_of_pos (by decide)] at hheading
  exact Claim.isName_underscore (by decide) hheading

/-- The proof that uses all lemmas has a text, which declares the name of the proof. -/
theorem equivalenceProof_ok {e : Emit.Equated} {n : Nat}
    (he : e.proof = Claim.numbered "equivalent" n) (uses : List String) :
    ∃ text, equivalenceProof.substitute (Emit.proofValues e uses) = .ok text ∧
      heading text = Heading.closed e.proof := by
  refine ⟨_, substitute_equivalenceProof e uses, ?_⟩
  have hword : ∀ c ∈ "method".toList, c ≠ ' ' := by simp
  have hname : ∀ c ∈ e.proof.toList, c ≠ '(' := by
    rw [he]
    rintro c hc rfl
    exact absurd (Claim.isAlphanum_of_mem (by decide) hc) (by decide)
  have hparams : ∀ c ∈ "".toList, c ≠ ')' := by simp
  obtain ⟨rest, htext⟩ := lemmasProof_starts e uses
  have hstart : (lemmasProof e uses).toList =
      "method".toList ++ ' ' :: (e.proof.toList ++ '(' :: ("".toList ++ ')' :: rest.toList)) := by
    rw [htext]
    simp
  exact heading_eq hword hname hparams hstart

/-- The uses of a lemma have texts. -/
theorem uses_ok (e : Emit.Equated) (method : String) (vars : List String) :
    (∃ text, useWithoutArgs.substitute (Emit.useValues lemmas e method vars) = .ok text) ∧
      ∃ text, useWithArgs.substitute (Emit.useValues lemmas e method vars) = .ok text :=
  ⟨⟨_, Snippet.substitute_lines (Emit.useValues ..) useWithoutArgs_lines⟩,
    ⟨_, Snippet.substitute_lines (Emit.useValues ..) useWithArgs_lines⟩⟩

/-- The notation for lemmas can be filled in, and only the proof that uses the lemmas is named like
a claim. -/
theorem lemmas_sound : lemmas.Sound (dialect root) where
  methodProof _ _ verbatim method vars he := methodProof_ok he verbatim method vars
  useWithoutArgs e method vars := (uses_ok e method vars).1
  useWithArgs e method vars := (uses_ok e method vars).2
  equivalenceProof _ _ uses he := equivalenceProof_ok he uses
  conjunction _ h := invariantFunction_idle _ h

/-- The notation of Dafny, with its library in any directory. -/
theorem dialect_sound (root : String) : (dialect root).Sound where
  term := term_ok
  frame := heading_frame
  invariant := invariant_idle
  lemmas := by
    rintro l hl
    obtain rfl : lemmas = l := EquivalenceStyle.methodLemmas.inj hl
    exact lemmas_sound

end ProofScript.Dafny
