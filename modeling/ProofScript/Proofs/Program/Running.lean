import ProofScript.Proofs.Program.Compiling

/-!
# What a program runs

The program that proves a script runs one name for each claim of the script, in order, and declares
each of these names once. What it runs is read off the script alone, so the backends agree.
-/

namespace ProofScript

variable {source : String} {n : Node} {backend : Backend}

/-- What is built to prove the claims of a script. -/
def Settings.proofBuilder (s : Settings) (backend : Backend) (source : String) :
    Except ProgramError Builder := do
  let script ← (Script.ofSource source).mapError .script
  let obligations ← script.proofObligations.mapError fun e => .script (.proof e)
  ((backend.dialect (s.libraryRoot backend)).builder obligations).mapError .code

/-- How many claims an item makes: one for an assertion, and one for each arrow of a proof chain. -/
def Node.claimCount (item : Node) : Nat :=
  match item.shape with
  | .assert _ => 1
  | .proof terms _ _ => terms.length - 1
  | _ => 0

/-- The names of the claims of a script. -/
def Node.claimNames (n : Node) : List String := Claim.names (n.claims.map Claim.stem)

/-- Every arrow of an item makes a claim. -/
theorem Node.length_itemClaims {item : Node} (h : item.shape.WellFormed) :
    item.itemClaims.length = item.claimCount := by
  unfold itemClaims claimCount
  cases hs : item.shape with
  | proof terms hints verbatims =>
    rw [hs] at h
    obtain ⟨-, hhints, -⟩ := h
    simp only [List.length_map, List.length_take, hhints]
    omega
  | _ => rfl

/-- What is built to prove a script that can be read is what its obligations give. -/
theorem Settings.proofBuilder_eq {s : Script} {os : List Obligation} (settings : Settings)
    (hs : Script.ofSource source = .ok s) (hos : s.proofObligations = .ok os) :
    settings.proofBuilder backend source =
      ((backend.dialect (settings.libraryRoot backend)).builder os).mapError .code := by
  have hscript : (Script.ofSource source).mapError ProgramError.script = .ok s := by rw [hs]; rfl
  refine bind_of_ok hscript (bind_of_ok ?_ rfl)
  rw [hos]
  rfl

/-- What is built to prove a script that can be read checks its claims. -/
theorem Settings.checks_of_proofBuilder {b : Builder} (h : Node.ofScript source = .ok n)
    (settings : Settings) (hb : settings.proofBuilder backend source = .ok b) :
    b.Checks (backend.dialect (settings.libraryRoot backend)) (n.claims.map Claim.stem) := by
  obtain ⟨s, os, hs, hos, hready, hclaims⟩ := Script.obligations_ok h
  have hd := backend.dialect_sound (settings.libraryRoot backend)
  have hstems : Obligation.stems os = n.claims.map Claim.stem := by
    rw [← hclaims, List.map_map]
    rfl
  rw [settings.proofBuilder_eq hs hos] at hb
  rcases Dialect.builder_cases hd hready with ⟨-, -, herror⟩ | ⟨-, c, hc, hchecks⟩
  · rw [herror] at hb
    cases hb
  · rw [hc] at hb
    obtain rfl : c = b := Except.ok.inj hb
    rwa [← hstems]

/-- The program that proves a script runs one name for each of its claims, in order. Each of them is
declared once, without parameters, and the names are the same whatever the backend and the settings
are. -/
theorem Settings.run_of_proofProgram {text : String} (h : Node.ofScript source = .ok n)
    (settings : Settings) (hp : settings.proofProgram backend source = .ok text) :
    let d := backend.dialect (settings.libraryRoot backend)
    ∃ b, settings.proofBuilder backend source = .ok b ∧
      text = "\n\n".intercalate (d.prelude :: b.items.map d.itemText ++ d.entryPoint b.run) ∧
      b.run = n.claimNames ∧
      (∀ item ∈ n.children, item.itemClaims.length = item.claimCount) ∧
      (∀ name ∈ b.run, d.declarations b.items name = [Heading.closed name]) ∧
      ∀ (others : Settings) (other : Backend) (c : Builder),
        others.proofBuilder other source = .ok c → c.run = b.run := by
  intro d
  obtain ⟨s, os, hs, hos, hready, hclaims⟩ := Script.obligations_ok h
  have hd : d.Sound := backend.dialect_sound (settings.libraryRoot backend)
  -- The program is assembled from what is built.
  rw [settings.proofProgram_eq backend hs hos, Settings.program, Dialect.program_eq] at hp
  rcases Dialect.builder_cases hd hready with ⟨-, -, herror⟩ | ⟨-, b, hb, -⟩
  · rw [herror] at hp
    cases hp
  have hbuilder : settings.proofBuilder backend source = .ok b := by
    rw [settings.proofBuilder_eq hs hos, hb]
    rfl
  have hchecks := settings.checks_of_proofBuilder h hbuilder
  have htext : text =
      "\n\n".intercalate (d.prelude :: b.items.map d.itemText ++ d.entryPoint b.run) := by
    rw [bind_of_ok hb hchecks.assemble] at hp
    exact (Except.ok.inj hp).symm
  have hstems : ∀ stem ∈ n.claims.map Claim.stem, stem ∈ Claim.stems := by
    rw [← hclaims, List.map_map]
    intro stem hstem
    obtain ⟨o, -, rfl⟩ := List.mem_map.1 hstem
    exact o.stem_mem
  refine ⟨b, hbuilder, htext, hchecks.run, ?_, ?_, ?_⟩
  · intro item hitem
    obtain ⟨hwf, -⟩ := Node.wellFormed_of_ofScript h
    exact Node.length_itemClaims (hwf.layers.child hitem).root
  · intro name hname
    rw [hchecks.run] at hname
    exact hchecks.declarations hstems hname
  · intro others other c hc
    rw [(others.checks_of_proofBuilder h hc).run, hchecks.run]

theorem Settings.run_of_proofProgram_chain :
    let source := "assert 1; a ~ [Rewrite(a, b)] b ~ [Admit] c ~ d; assert 2"
    ∃ n b, Node.ofScript source = .ok n ∧
      (Settings.defaults "project").proofBuilder .rosette source = .ok b ∧
      b.run = ["assertion0", "validrewrite0", "admitted0", "equivalent0", "assertion1"] := by
  intro source
  have hread : (Node.ofScript source).toOption.map Node.claimNames =
      some ["assertion0", "validrewrite0", "admitted0", "equivalent0", "assertion1"] := by
    decide +kernel
  have hprogram : ((Settings.defaults "project").proofProgram .rosette source).isOk = true := by
    decide +kernel
  cases hn : Node.ofScript source with
  | error e => simp [hn, Except.toOption] at hread
  | ok n =>
    have hnames : n.claimNames =
        ["assertion0", "validrewrite0", "admitted0", "equivalent0", "assertion1"] := by
      simpa [hn, Except.toOption] using hread
    cases hp : (Settings.defaults "project").proofProgram .rosette source with
    | error e => simp [hp, Except.isOk, Except.toBool] at hprogram
    | ok text =>
      obtain ⟨b, hb, -, hrun, -⟩ := run_of_proofProgram hn (Settings.defaults "project") hp
      exact ⟨n, b, rfl, hb, hrun.trans hnames⟩

end ProofScript
