import ProofScript.Program
import ProofScript.Proofs.Code.Checking
import ProofScript.Proofs.Grammar.WellFormed

/-!
# Every script compiles

A script that can be read gives a program for each backend, whatever the settings are. The one
exception is an invariant over all arguments, which Dafny does not have.
-/

namespace ProofScript

/-- Whether some arrow of a script asks for an invariant over all arguments: its annotation is
neither a replacement nor an admission, and an operand of the conjunction in it declares a method of
the name `invariant`. -/
def Node.asksForAll (n : Node) : Bool := n.claims.any Claim.universal

variable {source : String} {n : Node}

/-- What a source text that can be read gives: a script, and obligations that check its claims. -/
theorem Script.ofSource_ok (h : Node.ofScript source = .ok n) :
    ∃ s, Script.ofSource source = .ok s ∧ (∀ item ∈ s.items, item.ReadyItem) ∧
      s.items.flatMap Node.itemClaims = n.claims := by
  obtain ⟨hwf, htag⟩ := Node.wellFormed_of_ofScript h
  obtain ⟨s, hs, hitems, hclaims⟩ := Script.ofNode_ok hwf htag
  refine ⟨s, ?_, hitems, hclaims⟩
  simp only [Script.ofSource, h, hs]
  rfl

/-- The obligations of a source text that can be read. -/
theorem Script.obligations_ok (h : Node.ofScript source = .ok n) :
    ∃ s os, Script.ofSource source = .ok s ∧ s.proofObligations = .ok os ∧ (∀ o ∈ os, o.Ready) ∧
      os.map Obligation.claim = n.claims := by
  obtain ⟨s, hs, hitems, hclaims⟩ := Script.ofSource_ok h
  obtain ⟨os, hos, hready, hmap⟩ := Script.proofObligations_ok hitems
  exact ⟨s, os, hs, hos, hready, hmap.trans hclaims⟩

/-- The program that proves the claims of a script is the one of its obligations. -/
theorem Settings.proofProgram_eq {s : Script} {os : List Obligation} (settings : Settings)
    (backend : Backend) (hs : Script.ofSource source = .ok s) (hos : s.proofObligations = .ok os) :
    settings.proofProgram backend source = settings.program backend os := by
  have hscript : (Script.ofSource source).mapError ProgramError.script = .ok s := by rw [hs]; rfl
  refine bind_of_ok hscript (bind_of_ok ?_ rfl)
  rw [hos]
  rfl

/-- The script to run can be made when there is no need for the seed in the directives, or when it
can be read. -/
theorem Script.toRun_ok {s : Script} {seed : Option Seed} (expect : Option Expectation)
    (hs : Script.ofSource source = .ok s)
    (hseed : seed.isSome ∨ ∀ text, (Directives.ofSource source).seedText? = some text →
      ∃ value, Seed.ofText text = .ok value) :
    ∃ r, Script.toRun source seed expect = .ok r ∧ r.items = s.items := by
  cases seed with
  | some seed => exact ⟨_, bind_of_ok rfl (bind_of_ok hs rfl), rfl⟩
  | none =>
    have hdirective := hseed.resolve_left (by simp)
    obtain ⟨value, hvalue⟩ : ∃ value, (Directives.ofSource source).seed = .ok value := by
      unfold Directives.seed
      cases htext : (Directives.ofSource source).seedText? with
      | none => exact ⟨none, rfl⟩
      | some text =>
        obtain ⟨value, hvalue⟩ := hdirective text htext
        exact ⟨some value, by simp only [Seed.read, hvalue]; rfl⟩
    have hlifted : (Directives.ofSource source).seed.mapError ScriptError.proof = .ok value := by
      rw [hvalue]
      rfl
    exact ⟨_, bind_of_ok hlifted (bind_of_ok hs rfl), rfl⟩

/-- Ready obligations have a program, unless Dafny is asked for an invariant over all arguments. -/
theorem Settings.program_ok {os : List Obligation} (settings : Settings) (backend : Backend)
    (hos : ∀ o ∈ os, o.Ready) :
    if backend = .dafny ∧ Obligation.anyUniversal os = true then
      settings.program backend os = .error (.code .universal)
    else ∃ text, settings.program backend os = .ok text := by
  have hd := backend.dialect_sound (settings.libraryRoot backend)
  have hbackend := backend.backend_dialect (settings.libraryRoot backend)
  unfold Settings.program
  rw [Dialect.program_eq]
  rcases Dialect.builder_cases hd hos with ⟨huniversal, hdafny, herror⟩ | ⟨hnot, b, hb, hchecks⟩
  · rw [if_pos ⟨hbackend.symm.trans hdafny, huniversal⟩, herror]
    rfl
  · rw [if_neg fun h => hnot ⟨h.2, hbackend.trans h.1⟩, bind_of_ok hb hchecks.assemble]
    exact ⟨_, rfl⟩

/-- A script that can be read has obligations, and a program for each backend: one that proves its
claims, except that Dafny refuses invariants over all arguments, and one that runs it whenever a
seed is given or the directives name none or one that can be read. -/
theorem Settings.program_of_read (h : Node.ofScript source = .ok n) (settings : Settings) :
    (∃ s os, Script.ofSource source = .ok s ∧ s.proofObligations = .ok os) ∧
    (∃ text, settings.proofProgram .rosette source = .ok text) ∧
    (if n.asksForAll then settings.proofProgram .dafny source = .error (.code .universal)
      else ∃ text, settings.proofProgram .dafny source = .ok text) ∧
    ∀ (backend : Backend) (seed : Option Seed) (expect : Option Expectation),
      (seed.isSome ∨ ∀ text, (Directives.ofSource source).seedText? = some text →
        ∃ value, Seed.ofText text = .ok value) →
      ∃ text, settings.runProgram backend source seed expect = .ok text := by
  obtain ⟨s, os, hs, hos, hready, hclaims⟩ := Script.obligations_ok h
  have hany : Obligation.anyUniversal os = n.asksForAll := by
    rw [Node.asksForAll, ← hclaims, List.any_map]
    rfl
  refine ⟨⟨s, os, hs, hos⟩, ?_, ?_, ?_⟩
  · rw [settings.proofProgram_eq .rosette hs hos]
    simpa using settings.program_ok .rosette hready
  · rw [settings.proofProgram_eq .dafny hs hos]
    simpa [hany] using settings.program_ok .dafny hready
  · intro backend seed expect hseed
    obtain ⟨s, hs, hitems, -⟩ := Script.ofSource_ok h
    obtain ⟨r, hr, hsame⟩ := Script.toRun_ok expect hs hseed
    have hrun := Script.runObligations_ready (s := r) (by rwa [hsame])
    have hnone : Obligation.anyUniversal r.runObligations = false :=
      List.any_eq_false.2 fun o ho => by simp [(hrun o ho).2]
    have hprogram := settings.program_ok backend fun o ho => (hrun o ho).1
    rw [if_neg (by simp [hnone])] at hprogram
    obtain ⟨text, htext⟩ := hprogram
    have hlifted : (Script.toRun source seed expect).mapError ProgramError.script = .ok r := by
      rw [hr]
      rfl
    exact ⟨text, bind_of_ok hlifted htext⟩

theorem Settings.program_of_read_forAll :
    let source :=
      "new (f = 1) { g() { f } } ~ [invariant(y : *) { y } & g()] new (f = 1) { g() { 1 } }"
    (∃ n, Node.ofScript source = .ok n) ∧
      (∃ text, (Settings.defaults "project").proofProgram .rosette source = .ok text) ∧
      (Settings.defaults "project").proofProgram .dafny source = .error (.code .universal) ∧
      ∃ text, (Settings.defaults "project").runProgram .dafny source none none = .ok text := by
  intro source
  have hread : (Node.ofScript source).toOption.map Node.asksForAll = some true := by decide +kernel
  have hseed : (Directives.ofSource source).seedText? = none := by decide +kernel
  cases hn : Node.ofScript source with
  | error e => simp [hn, Except.toOption] at hread
  | ok n =>
    have hall : n.asksForAll = true := by simpa [hn, Except.toOption] using hread
    obtain ⟨-, hrosette, hdafny, hrun⟩ := program_of_read hn (Settings.defaults "project")
    rw [if_pos hall] at hdafny
    have hrun := hrun .dafny none none (.inr fun text h => by simp [hseed] at h)
    exact ⟨⟨n, rfl⟩, hrosette, hdafny, hrun⟩

end ProofScript
