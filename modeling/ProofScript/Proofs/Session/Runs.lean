import ProofScript.Proofs.Action
import ProofScript.Proofs.Script.Modes
import ProofScript.Session

/-!
# What a run is asked for

A run starts from a seed and may have to end with an expected result. Each can be given as an option
and as a directive of the script. For the seed the option wins: the directive is not even read. For
the expectation it wins as long as it expects something; an option that expects nothing is as good
as none (`perform_of_run`).
-/

namespace ProofScript

/-- The expected result of a run, from the text of an option, if it is given, and the directives. -/
def Directives.wanted (d : Directives) : Option String → Option Expectation
  | none => d.expectation?
  | some text => (Expectation.ofText? text).or d.expectation?

/-- The option decides alone unless it expects nothing and a directive expects something. -/
theorem Directives.wanted_eq_iff (d : Directives) (expect : Option String) :
    d.wanted expect = (expect.or (NameMap.get? d "EXPECT")).bind Expectation.ofText? ↔
      ¬∃ text, expect = some text ∧ Expectation.ofText? text = none ∧ d.expectation?.isSome := by
  cases expect with
  | none => simp [wanted, expectation?]
  | some text =>
    cases hasked : Expectation.ofText? text with
    | some e => simp [wanted, hasked]
    | none => cases hdirected : d.expectation? <;> simp [wanted, hasked, hdirected]

/-! ## Seeds -/

theorem Seed.read_of_ok {text : String} {s : Seed} (h : Seed.ofText text = .ok s) :
    Seed.read text = .ok s := by
  rw [Seed.read, h]
  rfl

theorem Seed.read_of_error {text : String} {fault : SeedFault}
    (h : Seed.ofText text = .error fault) :
    Seed.read text = .error ⟨.seed text fault, ⟨0, text.utf8ByteSize⟩⟩ := by
  rw [Seed.read, h]
  rfl

theorem Directives.seed_eq (d : Directives) : d.seed = d.seedText?.mapM Seed.read := by
  unfold Directives.seed
  cases d.seedText? <;> rfl

theorem Directives.seed_of_ok {d : Directives} {value : Option Seed}
    (h : d.seedText?.mapM Seed.ofText = .ok value) : d.seed = .ok value := by
  rw [seed_eq]
  cases htext : d.seedText? with
  | none =>
    rw [htext] at h
    obtain rfl : none = value := Except.ok.inj h
    rfl
  | some text =>
    rw [htext] at h
    obtain ⟨s, hs, hvalue⟩ := ok_of_bind h
    obtain rfl : some s = value := Except.ok.inj hvalue
    exact bind_of_ok (Seed.read_of_ok hs) rfl

/-! ## What is run -/

namespace Script

/-- No item of a script is run on its own. -/
theorem filter_isRun_evalStep {p : Progress} (item : Node)
    (h : p.obligations.filter Obligation.isRun = []) :
    (evalStep p item).obligations.filter Obligation.isRun = [] := by
  unfold evalStep
  split
  · rw [List.filter_append, h]
    rfl
  · split <;> exact h

/-- A script is run once, whatever else is checked. -/
theorem filter_isRun_runObligations (s : Script) :
    s.runObligations.filter Obligation.isRun = [.run s.statements s.seed s.expect] := by
  have hchecks :
      (s.items.foldl evalStep Progress.start).obligations.filter Obligation.isRun = [] := by
    induction s.items using List.reverseRecOn with
    | nil => rfl
    | append_singleton items item ih =>
      rw [List.foldl_append]
      exact filter_isRun_evalStep item ih
  rw [runObligations, List.filter_append, hchecks]
  rfl

/-- The script to run, when it is settled where the seed comes from. -/
theorem toRun_of_seed {source : String} {seed value : Option Seed} {expect : Option Expectation}
    (h : seed = value ∧ seed.isSome ∨
      seed = none ∧ (Directives.ofSource source).seed = .ok value) :
    toRun source seed expect = (ofSource source).map fun s =>
      { s with seed := value, expect := expect.or (Directives.ofSource source).expectation? } := by
  rcases h with ⟨rfl, hsome⟩ | ⟨rfl, hvalue⟩
  · obtain ⟨s, rfl⟩ := Option.isSome_iff_exists.1 hsome
    simp only [toRun, pure_bind, Option.orElse_eq_orElse, Option.orElse_eq_or]
    rfl
  · simp only [toRun, hvalue, Option.orElse_eq_orElse, Option.orElse_eq_or]
    rfl

end Script

/-! ## Sessions -/

namespace Session

variable {run : Runner} {r : Request} {stdin : String} {st st' : SessionState} {l : Loaded}
  {expect seed : Option String}

/-- What a session does with the program of a script. -/
def conclude (run : Runner) (r : Request) (l : Loaded) (program : String) : Session Bool := do
  let verifier := l.settings.verifier l.backend r.options.searchPaths r.options.keep
  let outcome ← check verifier run program
  match r.command with
  | .prove => writeProof r.options program outcome
  | .run _ _ => writeRun r.options l.backend program outcome
  let verdict := Verdict.ofSource l.source l.backend outcome.answer.accepted
  writeVerdict verdict
  return verdict.isGood

/-- A script that is given as the argument itself is loaded with its settings. -/
theorem load_literal {source : String} {settings : Settings}
    (hsource : ScriptSource.ofArgument st.workspace r.options.script = .literal source)
    (hsettings : r.settings st.workspace = .ok settings) :
    (load r stdin).run.run st = (.ok {
      source := source
      settings := settings
      backend := r.options.backend.getD settings.backend }, st) := by
  unfold load
  rw [run_get_bind]
  dsimp only
  rw [hsource, hsettings]
  rfl

/-- A script that is not skipped is compiled, and the session goes on with its program. -/
theorem perform_of_load (hload : (load r stdin).run.run st = (.ok l, st'))
    (hskip : l.backend.isSkippedBy l.source = false) :
    (perform run r stdin).run.run st = (compile l r.command >>= conclude run r l).run.run st' := by
  have hperform : perform run r stdin = (load r stdin >>= fun l =>
      if l.backend.isSkippedBy l.source then do
        writeLine ("Skipped (" ++ l.backend.name ++ " is excluded by the script)")
        return true
      else compile l r.command >>= conclude run r l) := rfl
  rw [hperform, run_bind_of_ok hload, hskip]
  rfl

/-- A seed that cannot be read ends the compilation. -/
theorem compile_run_of_fault {text : String} {fault : SeedFault}
    (htext : seed.or (Directives.ofSource l.source).seedText? = some text)
    (hfault : Seed.ofText text = .error fault) :
    let e : ProofError := ⟨.seed text fault, ⟨0, text.utf8ByteSize⟩⟩
    compile l (.run expect seed) =
      throw (if seed.isSome then .seed e else .program (.script (.proof e))) := by
  intro e
  have hread : Seed.read text = .error e := Seed.read_of_error hfault
  cases seed with
  | some asked =>
    obtain rfl : asked = text := Option.some.inj htext
    rw [compile, hread]
    rfl
  | none =>
    have hdirected : (Directives.ofSource l.source).seed = .error e := by
      rw [Option.none_or] at htext
      rw [Directives.seed_eq, htext, Option.mapM_some, hread]
      rfl
    have hscript : Script.toRun l.source none (expect.bind Expectation.ofText?) =
        .error (.proof e) := by
      simp only [Script.toRun, hdirected]
      rfl
    have hprogram : l.settings.runProgram l.backend l.source none
        (expect.bind Expectation.ofText?) = .error (.script (.proof e)) := by
      simp only [Settings.runProgram, hscript]
      rfl
    show attempt .program (l.settings.runProgram l.backend l.source none _) = _
    rw [hprogram]
    rfl

/-- With the seed, a script is compiled to be run against the expected result. -/
theorem compile_run_of_seed {value : Option Seed}
    (h : (seed.or (Directives.ofSource l.source).seedText?).mapM Seed.ofText = .ok value) :
    compile l (.run expect seed) = attempt .program (do
      let s ← (Script.ofSource l.source).mapError .script
      let asked : Script :=
        { s with seed := value, expect := (Directives.ofSource l.source).wanted expect }
      l.settings.program l.backend asked.runObligations) := by
  have hwanted : (Directives.ofSource l.source).wanted expect =
      (expect.bind Expectation.ofText?).or (Directives.ofSource l.source).expectation? := by
    cases expect with
    | none => rw [Directives.wanted, Option.bind_none, Option.none_or]
    | some text => rw [Directives.wanted, Option.bind_some]
  -- Whichever text the seed is read from, the program is the one for this seed.
  have hprogram {asked : Option Seed} (hasked : asked = value ∧ asked.isSome ∨
      asked = none ∧ (Directives.ofSource l.source).seed = .ok value) :
      attempt .program
        (l.settings.runProgram l.backend l.source asked (expect.bind Expectation.ofText?)) =
      attempt .program (do
        let s ← (Script.ofSource l.source).mapError .script
        let asked : Script :=
          { s with seed := value, expect := (Directives.ofSource l.source).wanted expect }
        l.settings.program l.backend asked.runObligations) := by
    rw [Settings.runProgram, Script.toRun_of_seed hasked, hwanted]
    cases Script.ofSource l.source <;> rfl
  cases seed with
  | some text =>
    obtain ⟨s, hs, hvalue⟩ := ok_of_bind h
    obtain rfl : some s = value := Except.ok.inj hvalue
    rw [compile, Seed.read_of_ok hs]
    exact hprogram (.inl ⟨rfl, rfl⟩)
  | none => exact hprogram (.inr ⟨rfl, Directives.seed_of_ok h⟩)

/-- The seed and the expectation of a run. The text of the option, or else that of the directive, is
read as the seed, and when it cannot be read the session ends there. The script is then run from the
seed against what the option expects, or else against what the directive expects. -/
theorem perform_of_run (hload : (load r stdin).run.run st = (.ok l, st'))
    (hskip : l.backend.isSkippedBy l.source = false) (hcommand : r.command = .run expect seed) :
    let d := Directives.ofSource l.source
    let result := (perform run r stdin).run.run st
    (∀ text fault, seed.or d.seedText? = some text → Seed.ofText text = .error fault →
      let e : ProofError := ⟨.seed text fault, ⟨0, text.utf8ByteSize⟩⟩
      result = (.error (if seed.isSome then .seed e else .program (.script (.proof e))), st')) ∧
    (∀ value, (seed.or d.seedText?).mapM Seed.ofText = .ok value →
      (∀ e, Script.ofSource l.source = .error e → result = (.error (.program (.script e)), st')) ∧
      ∀ s, Script.ofSource l.source = .ok s →
        let asked : Script := { s with seed := value, expect := d.wanted expect }
        asked.runObligations.filter Obligation.isRun =
            [.run s.statements value (d.wanted expect)] ∧
          result = (attempt .program (l.settings.program l.backend asked.runObligations) >>=
            conclude run r l).run.run st') ∧
    (d.wanted expect = (expect.or (NameMap.get? d "EXPECT")).bind Expectation.ofText? ↔
      ¬∃ text, expect = some text ∧ Expectation.ofText? text = none ∧ d.expectation?.isSome) := by
  intro d result
  have hresult : result = (compile l (.run expect seed) >>= conclude run r l).run.run st' := by
    rw [← hcommand]
    exact perform_of_load hload hskip
  refine ⟨fun text fault htext hfault => ?_, fun value hvalue => ⟨fun e he => ?_,
    fun s hs => ⟨Script.filter_isRun_runObligations _, ?_⟩⟩, d.wanted_eq_iff expect⟩
  · rw [hresult, compile_run_of_fault htext hfault]
    rfl
  · rw [hresult, compile_run_of_seed hvalue, he]
    rfl
  · rw [hresult, compile_run_of_seed hvalue, hs]
    rfl

/-- Both options are given, and neither directive matters: one of them is no seed. -/
theorem perform_of_run_given :
    let source := "// EXPECT: 11\n// CONTEXT: k\nk + 1"
    let r : Request := {
      command := .run (some "12") (some "k = 5")
      options := { script := source, keep := false, showProgram := false, backend := some .dafny,
                   searchPaths := [] }
      manifest := none }
    let run : Runner := fun _ _ => throw .missing
    let st : SessionState := { workspace := Workspace.empty, printed := "" }
    let l : Loaded := { source := source, settings := Settings.defaults "/", backend := .dafny }
    (load r "").run.run st = (.ok l, st) ∧ l.backend.isSkippedBy l.source = false ∧
      ∃ s, Script.ofSource source = .ok s ∧
        let asked : Script := { s with seed := some ⟨"k", 5⟩, expect := some (.int 12) }
        asked.runObligations.filter Obligation.isRun =
            [.run s.statements (some ⟨"k", 5⟩) (some (.int 12))] ∧
          (perform run r "").run.run st =
            (attempt .program (l.settings.program l.backend asked.runObligations) >>=
              conclude run r l).run.run st := by
  intro source r run st l
  have hload : (load r "").run.run st = (.ok l, st) := by
    have hliteral : ScriptSource.ofArgument st.workspace source = .literal source := by
      decide +kernel +zetaReduce
    have hdefaults : st.workspace.loadSettings "/" = .ok (Settings.defaults "/") := by
      decide +kernel +zetaReduce
    have hsettings : r.settings st.workspace = .ok (Settings.defaults "/") := by
      show (((ScriptSource.ofArgument st.workspace source).start st.workspace).mapError _ >>= _) = _
      rw [hliteral]
      show (st.workspace.loadSettings "/").mapError SessionError.settings = _
      rw [hdefaults]
      rfl
    exact load_literal hliteral hsettings
  have hskip : l.backend.isSkippedBy l.source = false := by decide +kernel
  have hread : (Script.ofSource source).isOk = true := by decide +kernel
  cases hs : Script.ofSource source with
  | error e => simp [hs, Except.isOk, Except.toBool] at hread
  | ok s =>
    obtain ⟨-, hseed, -⟩ := @perform_of_run run r "" st st l _ _ hload hskip rfl
    obtain ⟨-, hscript⟩ := hseed (some ⟨"k", 5⟩) (by decide +kernel)
    exact ⟨hload, hskip, s, rfl, hscript s hs⟩

/-- The option expects nothing, and the result is checked against the directive all the same. -/
theorem compile_run_expecting_nothing :
    let l : Loaded := {
      source := "// EXPECT: 11\n5 + 6", settings := Settings.defaults "/", backend := .dafny }
    Expectation.ofText? "None" = none ∧
      ∃ s, Script.ofSource l.source = .ok s ∧
        let asked : Script := { s with seed := none, expect := some (.int 11) }
        compile l (.run (some "None") none) =
            attempt .program (l.settings.program l.backend asked.runObligations) ∧
          asked.runObligations.filter Obligation.isRun =
            [.run s.statements none (some (.int 11))] := by
  intro l
  have hread : (Script.ofSource l.source).isOk = true := by decide +kernel
  have hseed : (Directives.ofSource l.source).seedText? = none := by decide +kernel
  have hwanted : (Directives.ofSource l.source).wanted (some "None") = some (.int 11) := by
    decide +kernel
  cases hs : Script.ofSource l.source with
  | error e => simp [hs, Except.isOk, Except.toBool] at hread
  | ok s =>
    refine ⟨by decide +kernel, s, rfl, ?_, Script.filter_isRun_runObligations _⟩
    have hvalue : (none.or (Directives.ofSource l.source).seedText?).mapM Seed.ofText =
        .ok none := by rw [hseed]; rfl
    rw [compile_run_of_seed hvalue, hwanted, hs]
    rfl

end Session

end ProofScript
