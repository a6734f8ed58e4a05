import ProofScript.Proofs.Code.Emission
import ProofScript.Proofs.Code.Terms

/-!
# The notation of Rosette is sound

Every invariant becomes a value, and one over all arguments comes with two more values. An
equivalence is proved by one check. No value is named like a claim.
-/

namespace ProofScript.Rosette

variable {root stem : String} {drawn : List String} {s t : Builder} {fails : CodeFault → Prop}

/-! ## Definitions and values -/

/-- The definition of a claim declares its name. -/
theorem heading_frame (hstem : stem ∈ Claim.stems) (n : Nat) (lines : List String) :
    heading (frame ⟨.method, Claim.numbered stem n, [], none, lines⟩) =
      Heading.closed (Claim.numbered stem n) := by
  have hname : ∀ c ∈ (Claim.numbered stem n).toList, c ≠ ' ' ∧ c ≠ ')' := by
    intro c hc
    have halnum := Claim.isAlphanum_of_mem hstem hc
    constructor
    · rintro rfl
      exact absurd halnum (by decide)
    · rintro rfl
      exact absurd halnum (by decide)
  have htext : (frame ⟨.method, Claim.numbered stem n, [], none, lines⟩).toList =
      "(define (".toList ++ ((Claim.numbered stem n).toList ++ ')' ::
        ("\n" ++ "\n".intercalate (lines.map ("  " ++ ·)) ++ ")").toList) := by
    simp [frame]
  exact heading_eq hname htext

/-- The stems of values: letters and underscores. No claim is named like them. -/
def valueStems : List String :=
  ["true_invariant", "false_invariant", "equal_invariant", "valid_invariant", "ref_invariant",
    "int_invariant", "invariant", "args", "scope"]

theorem isForeign_of_mem (h : stem ∈ valueStems) : Claim.IsForeign stem := by
  have hall : ∀ stem ∈ valueStems, Claim.IsForeign stem := by decide
  exact hall stem h

/-- A value is not named like a claim. -/
theorem isName_value {text : String} {n : Nat} (hstem : stem ∈ valueStems)
    (htext : ("(define " ++ Claim.numbered stem n).toList <+: text.toList) :
    Claim.isName (heading text).name = false := by
  refine Claim.isName_of_isForeign (isForeign_of_mem hstem) ?_
  have hname : ∀ stem ∈ valueStems, ∀ c ∈ stem.toList, c ≠ '(' ∧ c ≠ ' ' ∧ c ≠ '\n' := by
    simp [valueStems]
  obtain ⟨rest, hrest⟩ := htext
  have hlist : text.toList = "(define ".toList ++ (stem.toList ++ (n.repr.toList ++ rest)) := by
    rw [← hrest]
    simp [Claim.numbered]
  exact heading_starts (hname stem hstem) hlist

/-- Drawing the name of a value settles nothing. -/
theorem fresh_idle (hstem : stem ∈ valueStems) (h : Idle (dialect root) drawn s t) :
    Ends (Building.fresh stem)
      (fun name u => (∃ n, name = Claim.numbered stem n) ∧ Idle (dialect root) drawn s u)
      fails t := by
  have hdisjoint : ∀ stem ∈ valueStems, stem ∉ Claim.stems := by decide
  exact ends_fresh.2 ⟨⟨_, rfl⟩, h.closed, h.since.draw (hdisjoint stem hstem)⟩

/-- Adding a value settles nothing. -/
theorem global_idle {name text : String} (hstem : stem ∈ valueStems)
    (hname : ∃ n, name = Claim.numbered stem n)
    (htext : ("(define " ++ name).toList <+: text.toList) (h : Idle (dialect root) drawn s t) :
    Ends (Building.global text none) (fun _ u => Idle (dialect root) drawn s u) fails t := by
  obtain ⟨n, rfl⟩ := hname
  exact h.global (isName_value hstem htext)

/-! ## Invariants -/

theorem define_starts (name a b c : String) :
    ("(define " ++ name).toList <+: ("(define " ++ name ++ a ++ b ++ c).toList := by
  simp only [String.toList_append, List.append_assoc]
  exact (List.prefix_append_right_inj _).2 (List.prefix_append _ _)

theorem invariantGlobal_idle (hstem : stem ∈ valueStems) (lines : List String)
    (h : Idle (dialect root) drawn s t) :
    Ends (invariantGlobal stem lines) (fun _ u => Idle (dialect root) drawn s u) fails t := by
  refine (fresh_idle hstem h).bind ?_
  rintro name _ ⟨hname, h⟩
  exact (global_idle hstem hname (define_starts _ _ _ _) h).bind fun _ _ h => ends_pure.2 h

/-- Emitting an invariant over all arguments settles nothing. -/
theorem universal_idle {args : List Node} {body : Node} (hargs : ∀ a ∈ args, a.IsProgram)
    (hbody : body.IsProgram) (h : Idle (dialect root) drawn s t) :
    Ends (universal args body) (fun _ u => Idle (dialect root) drawn s u) fails t := by
  have hterms : ∀ a ∈ args, ∃ t, term a = .ok t ∧ True := by
    intro a ha
    obtain ⟨text, htext⟩ := term_ok (hargs a ha)
    exact ⟨text, htext, trivial⟩
  obtain ⟨formals, hformals, -⟩ := mapM_ok hterms
  obtain ⟨bodyText, hbodyText⟩ := term_ok hbody
  refine ends_bind.2 ((ends_ofTerm hformals).2 ?_)
  refine (fresh_idle (by decide) h).bind ?_
  rintro params _ ⟨hparams, h⟩
  refine (fresh_idle (by decide) h).bind ?_
  rintro scope _ ⟨hscope, h⟩
  refine (global_idle (by decide) hparams (define_starts _ _ _ _) h).bind fun _ _ h => ?_
  refine (global_idle (by decide) hscope (define_starts _ _ _ _) h).bind fun _ _ h => ?_
  refine ends_bind.2 ((ends_ofTerm hbodyText).2 ?_)
  exact invariantGlobal_idle (by decide) _ h

/-- The body of an invariant that speaks of one term. -/
theorem sideCheck_ok {expr : Node} (side : Side) (test : String) (h : expr.IsProgram) :
    ∃ lines, sideCheck side expr test = .ok lines := by
  obtain ⟨text, htext⟩ := term_ok h
  exact ⟨_, bind_of_ok htext rfl⟩

/-- Emitting a ready invariant settles nothing. -/
theorem invariant_idle {inv : Invariant} (hinv : inv.Ready) (h : Idle (dialect root) drawn s t) :
    Ends (invariant inv) (fun _ u => Idle (dialect root) drawn s u) fails t := by
  have lifted : ∀ {stem : String} {r : Except CodeFault (List String)}, stem ∈ valueStems →
      (∃ lines, r = .ok lines) →
      Ends (do invariantGlobal stem (← Building.ofTerm r))
        (fun _ u => Idle (dialect root) drawn s u) fails t := by
    rintro stem r hstem ⟨lines, hlines⟩
    exact ends_bind.2 ((ends_ofTerm hlines).2 (invariantGlobal_idle hstem lines h))
  cases inv with
  | always => exact invariantGlobal_idle (by decide) _ h
  | never => exact invariantGlobal_idle (by decide) _ h
  | equal lhs rhs =>
    obtain ⟨left, hleft⟩ := term_ok hinv.1
    obtain ⟨right, hright⟩ := term_ok hinv.2
    exact lifted (by decide) ⟨_, bind_of_ok hleft (bind_of_ok hright rfl)⟩
  | valid side expr => exact lifted (by decide) (sideCheck_ok side _ hinv)
  | ref side expr => exact lifted (by decide) (sideCheck_ok side _ hinv)
  | int side expr => exact lifted (by decide) (sideCheck_ok side _ hinv)
  | universal args body => exact universal_idle hinv.1 hinv.2 h

/-- The notation of Rosette, with its library in any directory. -/
theorem dialect_sound (root : String) : (dialect root).Sound where
  term := term_ok
  frame := heading_frame
  invariant hinv h := (invariant_idle hinv h).mono fun _ _ h => ⟨h, fun _ => rfl⟩
  lemmas := by
    rintro l hl
    cases hl

end ProofScript.Rosette
