import ProofScript.Proofs.Action
import ProofScript.Proofs.Text.Blank
import ProofScript.Proofs.Text.Split
import ProofScript.Verifier

/-!
# What a verifier reports

An executable can answer anything. Its answer is reported as it is, except when Dafny accepts a
program and runs it: then only what the program printed is reported, which stands behind the first
marker. A program that prints the marker itself loses what it prints from there on
(`Verifier.check_of_answer`).
-/

namespace ProofScript

variable {a : Answer} {backend : Backend} {before behind printed rest : List Char}

/-! ## Answers -/

/-- The answer of Dafny to a program that it has accepted and run. -/
structure Answer.Ran (a : Answer) (backend : Backend) : Prop where
  dafny : backend = .dafny
  accepted : a.accepted = true
  marked : runMarker.toList <:+: a.out.toList

namespace Answer

theorem programOutput?_eq_none_iff {out : String} :
    programOutput? out = none ↔ ¬runMarker.toList <:+: out.toList := by
  rw [programOutput?, Option.map_eq_none_iff, Text.cut?_eq_none_iff]

theorem report_of_not_ran (h : ¬a.Ran backend) : a.report backend = a.out ++ a.err := by
  unfold report
  split
  · rename_i haccepted
    rw [programOutput?_eq_none_iff.2 fun hmarked => h ⟨rfl, haccepted, hmarked⟩]
    rfl
  · rfl

theorem report_of_ran (h : a.Ran backend) :
    a.report backend = (programOutput? a.out).getD (a.out ++ a.err) := by
  obtain ⟨rfl, haccepted, -⟩ := h
  simp only [report, haccepted]

/-- The text behind the first marker is reported when it holds no other one. -/
theorem trims_of_once (h : a.Ran backend)
    (hcut : Text.FirstCut runMarker.toList a.out.toList before behind)
    (honce : ¬runMarker.toList <:+: behind) : Text.Trims behind (a.report backend).toList := by
  have hreport : a.report backend = Text.trim (String.ofList behind) := by
    simp only [report_of_ran h, programOutput?, Text.cut?_eq_some_iff.2 hcut, Option.map_some,
      Text.cut?_eq_none_iff.2 honce, Option.getD_some]
  have htrims := Text.trims_trim (String.ofList behind)
  rwa [← hreport, String.toList_ofList] at htrims

/-- The text between the first two markers is reported when there are two. -/
theorem trims_of_again (h : a.Ran backend)
    (hcut : Text.FirstCut runMarker.toList a.out.toList before behind)
    (hagain : Text.FirstCut runMarker.toList behind printed rest) :
    Text.Trims printed (a.report backend).toList := by
  have hreport : a.report backend = Text.trim (String.ofList printed) := by
    simp only [report_of_ran h, programOutput?, Text.cut?_eq_some_iff.2 hcut, Option.map_some,
      Text.cut?_eq_some_iff.2 hagain, Option.getD_some]
  have htrims := Text.trims_trim (String.ofList printed)
  rwa [← hreport, String.toList_ofList] at htrims

theorem isBlank_of_mem_runMarker {c : Char} (h : c ∈ runMarker.toList) :
    Text.isBlank c = false := by
  have hmarker : (runMarker.toList.all fun c => !Text.isBlank c) = true := by decide
  simpa using List.all_eq_true.1 hmarker c h

/-- All that the program printed is reported just when it has not printed the marker. -/
theorem trims_behind_iff (h : a.Ran backend)
    (hcut : Text.FirstCut runMarker.toList a.out.toList before behind) :
    Text.Trims behind (a.report backend).toList ↔ ¬runMarker.toList <:+: behind := by
  refine ⟨fun hwhole hmarked => ?_, trims_of_once h hcut⟩
  obtain ⟨printed, rest, hagain⟩ := Text.exists_firstCut hmarked
  -- The whole report would hold the marker, and what is reported stands before it.
  have hpart := trims_of_again h hcut hagain
  rw [← hwhole.infix_iff fun _ => isBlank_of_mem_runMarker,
    hpart.infix_iff fun _ => isBlank_of_mem_runMarker] at hmarked
  exact hagain.not_infix_before (by decide) hmarked

end Answer

/-! ## Checking -/

namespace Verifier

variable {v : Verifier} {run : Runner} {program file exe : String} {w w₁ w₂ : Workspace}
  {kept : Option String}

/-- How a program is handed to a verifier: as a file of the directory in which programs are kept, or
else as a scratch file. The file is there before the executable runs. -/
inductive Places (v : Verifier) (program : String) (w : Workspace) :
    Workspace → String → Option String → Prop where
  | kept {dir path : String} {w₁ w₂ : Workspace} (hdir : v.keepDir = some dir)
    (hpath : Path.join dir (programFileName program v.backend.extension) = path)
    (hmake : w.makeDirectories dir = .ok w₁) (hwrite : w₁.write path program = .ok w₂) :
    Places v program w w₂ path (some path)
  | scratch (hdir : v.keepDir = none) :
    Places v program w (w.install (scratch v.backend) (.ofText program false))
      (Verifier.scratch v.backend).path none

theorem run_change {describe : FileFault → VerifierError}
    {f : Workspace → Except FileFault Workspace} (h : f w = .ok w₁) :
    (Checking.change describe f).run.run w = (.ok ⟨⟩, w₁) := by
  unfold Checking.change
  rw [run_get_bind, h]
  rfl

/-- An executable that is found and answers gives its answer, and what it does to the workspace
stays. -/
theorem runOn_of_answer (hexe : w₁.executable? v.executable v.searchPaths = some exe)
    (hrun : (run exe (v.backend.arguments file)).run.run w₁ = (.ok a, w₂)) :
    (v.runOn run file).run.run w₁ = (.ok a, w₂) := by
  unfold runOn
  rw [run_get_bind, hexe]
  unfold Checking.running
  rw [run_get_bind]
  have hanswer : (run exe (v.backend.arguments file)).run w₁ = (.ok a, w₂) := hrun
  rw [hanswer]
  rfl

theorem check_of_runOn (hplaces : v.Places program w w₁ file kept)
    (hrun : (v.runOn run file).run.run w₁ = (.ok a, w₂)) :
    ∃ w', (v.check run program).run.run w = (.ok ⟨a, kept⟩, w') := by
  unfold check
  cases hplaces with
  | kept hdir hpath hmake hwrite =>
    rw [hdir]
    dsimp only
    -- The name of the file is a digest of the program; from here on it is any path.
    rw [hpath]
    refine ⟨w₂, (run_bind_of_ok (run_change (f := fun w => w.makeDirectories _) hmake)).trans ?_⟩
    refine (run_bind_of_ok (run_change (f := fun w => w.write _ program) hwrite)).trans ?_
    exact (run_bind_of_ok hrun).trans rfl
  | scratch hdir =>
    rw [hdir]
    refine ⟨w₂.remove (scratch v.backend), run_modify_bind.trans ?_⟩
    exact (run_bind_of_ok (run_tryCatch_of_ok hrun)).trans rfl

/-- Whatever the executable answers, the check gives this answer. An answer of Rosette, a refusal
and an answer without the marker are reported whole. When Dafny has run the program, the text behind
the first marker is reported, without the blanks around it, as long as the marker does not stand in
it again; otherwise only the text up to there is reported, which is not all. -/
theorem check_of_answer (hplaces : v.Places program w w₁ file kept)
    (hexe : w₁.executable? v.executable v.searchPaths = some exe)
    (hrun : (run exe (v.backend.arguments file)).run.run w₁ = (.ok a, w₂)) :
    (∃ w', (v.check run program).run.run w = (.ok ⟨a, kept⟩, w')) ∧
    (¬a.Ran v.backend → a.report v.backend = a.out ++ a.err) ∧
    (a.Ran v.backend → ∃ before behind,
      Text.FirstCut runMarker.toList a.out.toList before behind ∧
      (Text.Trims behind (a.report v.backend).toList ↔ ¬runMarker.toList <:+: behind) ∧
      ∀ printed rest, Text.FirstCut runMarker.toList behind printed rest →
        Text.Trims printed (a.report v.backend).toList) := by
  refine ⟨check_of_runOn hplaces (runOn_of_answer hexe hrun), Answer.report_of_not_ran,
    fun hran => ?_⟩
  obtain ⟨before, behind, hcut⟩ := Text.exists_firstCut hran.marked
  exact ⟨before, behind, hcut, Answer.trims_behind_iff hran hcut,
    fun printed rest => Answer.trims_of_again hran hcut⟩

/-- Dafny is found in a search path, and the program prints two lines. -/
theorem check_of_answer_scratch :
    let v : Verifier := {
      backend := .dafny, executable := "dafny", searchPaths := ["/bin"], keepDir := none }
    let a : Answer := {
      accepted := true, out := "1 verified, 0 errors\nRunning...\n\none\ntwo\n", err := "" }
    let run : Runner := fun _ _ => pure a
    let w := Workspace.empty.install ["dafny", "bin"] (.ofText "" true)
    let w₁ := w.install (scratch .dafny) (.ofText "method Main() \x7b\x7d" false)
    let file := (scratch .dafny).path
    v.Places "method Main() \x7b\x7d" w w₁ file none ∧
      w₁.executable? "dafny" ["/bin"] = some "/bin/dafny" ∧
      (run "/bin/dafny" (Backend.dafny.arguments file)).run.run w₁ = (.ok a, w₁) ∧
      (∃ w', (v.check run "method Main() \x7b\x7d").run.run w = (.ok ⟨a, none⟩, w')) ∧
      a.report .dafny = "one\ntwo" ∧
      Text.Trims "\n\none\ntwo\n".toList (a.report .dafny).toList := by
  intro v a run w w₁ file
  have hplaces : v.Places "method Main() \x7b\x7d" w w₁ file none := .scratch rfl
  have hexe : w₁.executable? "dafny" ["/bin"] = some "/bin/dafny" := by decide +kernel
  have hrun : (run "/bin/dafny" (Backend.dafny.arguments file)).run.run w₁ = (.ok a, w₁) := rfl
  obtain ⟨hcheck, -, hreport⟩ := check_of_answer hplaces hexe hrun
  have hran : a.Ran .dafny := ⟨rfl, rfl, by decide +kernel⟩
  obtain ⟨before, behind, hcut, hwhole, -⟩ := hreport hran
  have hprinted : Text.FirstCut runMarker.toList a.out.toList
      "1 verified, 0 errors\n".toList "\n\none\ntwo\n".toList :=
    Text.firstCut_of_cut? (by decide +kernel)
  obtain ⟨rfl, rfl⟩ := hcut.unique hprinted
  exact ⟨hplaces, hexe, hrun, hcheck, by decide +kernel, hwhole.2 (by decide +kernel)⟩

/-- A program that prints the marker between two lines: the second line is lost. -/
theorem report_of_printed_marker :
    let a : Answer := {
      accepted := true, out := "Running...\none\nRunning...\ntwo\n", err := "" }
    Text.FirstCut runMarker.toList a.out.toList [] "\none\nRunning...\ntwo\n".toList ∧
      a.report .dafny = "one" ∧
      Text.Trims "\none\nRunning...\ntwo\n".toList "one\nRunning...\ntwo".toList := by
  intro a
  have hcut : Text.cut? runMarker.toList a.out.toList =
      some ([], "\none\nRunning...\ntwo\n".toList) := by decide +kernel
  have htrim : Text.trim "\none\nRunning...\ntwo\n" = "one\nRunning...\ntwo" := by
    decide +kernel
  exact ⟨Text.firstCut_of_cut? hcut, by decide +kernel, htrim ▸ Text.trims_trim _⟩

end Verifier

end ProofScript
