import ProofScript.Proofs.Code.History

/-!
# Calls that fail

A call of a builder looks at its conditions first, so that it can fail without a trace. One call does
not: closing takes the open definition before it looks at the parameters. A definition that takes
parameters and is to be run is therefore lost, where the call should have left it open.
-/

namespace ProofScript.Builder

variable {b b' : Builder} {c : Call} {fault : CodeFault}

/-- The call runs the open definition, which takes parameters. -/
def Call.Drops (b : Builder) (c : Call) : Prop :=
  c = .close true ∧ ∃ d, b.current = some d ∧ d.params ≠ []

/-- How a call fails: what is wrong, and the builder that is left. -/
inductive Call.Fails (b : Builder) : Call → CodeFault → Builder → Prop where
  | openDef {kind : DefKind} {stem : String} {params : List Param} {returns : Option String}
    {d : Definition} (h : b.current = some d) :
    Fails b (.openDef kind stem params returns) (.alreadyOpen kind d.name) b
  | emit {lines : List String} (h : b.current = none) : Fails b (.emit lines) .emitOutside b
  | close {run : Bool} (h : b.current = none) : Fails b (.close run) .endOutside b
  | drop {d : Definition} (h : b.current = some d) (hparams : d.params ≠ []) :
    Fails b (.close true) (.runWithParams d.name) { b with current := none }

/-- These are the ways to fail. -/
theorem perform_error_iff : c.perform.run.run b = (.error fault, b') ↔ c.Fails b fault b' := by
  constructor
  · intro h
    cases c with
    | fresh stem => cases h
    | global text run => cases h
    | openDef kind stem params returns =>
      cases hb : b.current with
      | none =>
        rw [perform_openDef hb] at h
        cases h
      | some d =>
        rw [perform_openDef_of_open hb] at h
        cases h
        exact .openDef hb
    | emit lines =>
      cases hb : b.current with
      | none =>
        rw [perform_emit_of_closed hb] at h
        cases h
        exact .emit hb
      | some d =>
        rw [perform_emit hb] at h
        cases h
    | close run =>
      cases hb : b.current with
      | none =>
        rw [perform_close_of_closed hb] at h
        cases h
        exact .close hb
      | some d =>
        by_cases hrun : run = true → d.params = []
        · rw [perform_close hb hrun] at h
          cases h
        · obtain ⟨rfl, hparams⟩ := Classical.not_imp.1 hrun
          rw [perform_close_of_params hb hparams] at h
          cases h
          exact .drop hb hparams
  · intro h
    cases h with
    | openDef hb => exact perform_openDef_of_open hb
    | emit hb => exact perform_emit_of_closed hb
    | close hb => exact perform_close_of_closed hb
    | drop hb hparams => exact perform_close_of_params hb hparams

/-- A call that fails leaves the builder exactly as it was, unless it runs an open definition that
takes parameters. That one is lost, and all else stays. -/
theorem unchanged_of_failure (h : c.perform.run.run b = (.error fault, b')) :
    (¬c.Drops b → b' = b) ∧ (c.Drops b → b' = { b with current := none }) := by
  have hfails := perform_error_iff.1 h
  cases hfails with
  | openDef => exact ⟨fun _ => rfl, fun hdrops => nomatch hdrops.1⟩
  | emit => exact ⟨fun _ => rfl, fun hdrops => nomatch hdrops.1⟩
  | close hb =>
    refine ⟨fun _ => rfl, ?_⟩
    rintro ⟨-, d, hd, -⟩
    rw [hb] at hd
    cases hd
  | drop hb hparams =>
    refine ⟨fun hnot => ?_, fun _ => rfl⟩
    exact absurd ⟨rfl, _, hb, hparams⟩ hnot

/-- A second definition cannot be opened, and the first one stays open with its lines. -/
theorem unchanged_of_failure_open :
    let b := (history [.openDef .method "run" [] none, .emit ["x"]]).2
    ∃ fault b', (Call.openDef .method "run" [] none).perform.run.run b = (.error fault, b') ∧
      b'.current = some ⟨.method, "run0", [], none, ["x"]⟩ ∧ b' = b := by
  intro b
  have hopen : b.current = some ⟨.method, "run0", [], none, ["x"]⟩ := by decide
  have hfails : (Call.openDef .method "run" [] none).perform.run.run b =
      (.error (.alreadyOpen .method "run0"), b) := perform_openDef_of_open hopen
  have hnot : ¬(Call.openDef .method "run" [] none).Drops b := fun h => nomatch h.1
  exact ⟨_, _, hfails, hopen, (unchanged_of_failure hfails).1 hnot⟩

/-- A predicate that is to be run by mistake is no longer open afterwards, so that it cannot be
closed in another way. -/
theorem perform_drops_definition :
    let b := (history [.openDef .function "invariant" invariantParams (some "bool"),
      .emit ["true"]]).2
    ∃ b', (Call.close true).perform.run.run b = (.error (.runWithParams "invariant0"), b') ∧
      b' ≠ b ∧ ((Call.close false).perform.run.run b').1.isOk = false ∧
      ((Call.close false).perform.run.run b).1.isOk = true := by
  intro b
  have hopen : b.current =
      some ⟨.function, "invariant0", invariantParams, some "bool", ["true"]⟩ := by decide
  refine ⟨{ b with current := none }, ?_, ?_, ?_, ?_⟩
  · exact perform_close_of_params hopen (by decide)
  · intro heq
    have hcurrent := congrArg Builder.current heq
    rw [hopen] at hcurrent
    cases hcurrent
  · rw [perform_close_of_closed rfl]
    rfl
  · have hplain : false = true →
        (⟨.function, "invariant0", invariantParams, some "bool", ["true"]⟩ : Definition).params =
          [] := nofun
    rw [perform_close hopen hplain]
    rfl

end ProofScript.Builder
