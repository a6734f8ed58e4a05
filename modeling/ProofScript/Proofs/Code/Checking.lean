import Mathlib.Data.List.Nodup
import ProofScript.Proofs.Dialect.Dafny
import ProofScript.Proofs.Dialect.Rosette

/-!
# Programs check their claims

What a builder holds once some claims are settled (`Builder.Checks`): the program runs their names,
and exactly these are declared. Every obligation adds its claim, so the program of a list of
obligations checks all of them, in order. Its text names the parts one by one.
-/

namespace ProofScript

variable {d : Dialect} {done : List String} {stem : String} {s t : Builder}

/-- What has been built once the claims with the given stems are settled. -/
structure Builder.Checks (d : Dialect) (stems : List String) (b : Builder) : Prop where
  /-- No definition is open. -/
  closed : b.current = none
  /-- The program runs the names of the claims. -/
  run : b.run = Claim.names stems
  /-- The names that have been drawn for claims. -/
  counts : ∀ stem ∈ Claim.stems, b.names.count stem = stems.count stem
  /-- The claims are declared, without parameters, and nothing else is named like a claim. -/
  headings : d.claimHeadings b.items = (Claim.names stems).map Heading.closed

namespace Builder.Checks

theorem start (d : Dialect) : Builder.start.Checks d [] := ⟨rfl, rfl, fun _ _ => rfl, rfl⟩

/-- One more claim is settled. -/
theorem settle (h : s.Checks d done) (hstem : stem ∈ Claim.stems) (ht : Settled d stem s t) :
    t.Checks d (done ++ [stem]) := by
  have hname : s.nextName stem = Claim.numbered stem (done.count stem) := by
    rw [Builder.nextName, h.counts stem hstem]
  refine ⟨ht.closed, ?_, ?_, ?_⟩
  · rw [ht.run, h.run, hname, Claim.names_snoc]
  · intro other hother
    rw [ht.counts other hother, h.counts other hother, List.count_append]
  · rw [ht.headings, h.headings, hname, Claim.names_snoc, List.map_append, List.map_singleton]

end Builder.Checks

/-! ## The claims of obligations -/

namespace Obligation

/-- The stems of the claims of obligations. -/
def stems (os : List Obligation) : List String := os.map fun o => o.claim.stem

/-- Whether some claim speaks of an invariant over all arguments. -/
def anyUniversal (os : List Obligation) : Bool := os.any fun o => o.claim.universal

theorem stem_mem (o : Obligation) : o.claim.stem ∈ Claim.stems := by
  cases o <;> simp [claim, Claim.assertion, Claim.run, Claim.stems]

end Obligation

/-- The obligations of a program are settled one after the other. -/
theorem obligations_settle {os : List Obligation} (hd : d.Sound) (hos : ∀ o ∈ os, o.Ready) :
    Ends (os.forM (Emit.obligation d))
      (fun _ b => b.Checks d (Obligation.stems os) ∧
        (Obligation.anyUniversal os = true → d.backend = .rosette))
      (fun e => e = .universal ∧ Obligation.anyUniversal os = true ∧ d.backend = .dafny)
      Builder.start := by
  refine ends_forM (fun done b => Builder.Checks d (Obligation.stems done) b ∧
    (Obligation.anyUniversal done = true → d.backend = .rosette)) ?_
    ⟨Builder.Checks.start d, fun h => nomatch h⟩
  rintro done o b ho ⟨hb, hdone⟩
  refine (Emit.obligation_settles hd (hos o ho) hb.closed).imp ?_ ?_
  · rintro _ b' ⟨hsettled, huniversal⟩
    refine ⟨?_, fun hany => ?_⟩
    · rw [Obligation.stems, List.map_append]
      exact hb.settle o.stem_mem hsettled
    · rw [Obligation.anyUniversal, List.any_append, Bool.or_eq_true] at hany
      rcases hany with hany | hany
      · exact hdone hany
      · exact huniversal (by simpa using hany)
  · rintro e ⟨he, huniversal, hbackend⟩
    exact ⟨he, List.any_eq_true.2 ⟨o, ho, huniversal⟩, hbackend⟩

/-! ## Programs -/

/-- What is built for a list of obligations. -/
def Dialect.builder (d : Dialect) (obligations : List Obligation) : Except CodeFault Builder :=
  match (obligations.forM (Emit.obligation d)).run.run Builder.start with
  | (.ok _, b) => .ok b
  | (.error fault, _) => .error fault

/-- The text of a program is assembled from what is built. -/
theorem Dialect.program_eq (d : Dialect) (obligations : List Obligation) :
    d.program obligations = d.builder obligations >>= fun b => b.assemble d := by
  unfold Dialect.program Dialect.builder
  rcases (obligations.forM (Emit.obligation d)).run.run Builder.start with ⟨r, b⟩
  cases r <;> rfl

/-- Building fails for an invariant over all arguments where the backend has none, and for nothing
else. What is built checks the claims of the obligations. -/
theorem Dialect.builder_cases {os : List Obligation} (hd : d.Sound) (hos : ∀ o ∈ os, o.Ready) :
    (Obligation.anyUniversal os = true ∧ d.backend = .dafny ∧ d.builder os = .error .universal) ∨
      (¬(Obligation.anyUniversal os = true ∧ d.backend = .dafny) ∧
        ∃ b, d.builder os = .ok b ∧ b.Checks d (Obligation.stems os)) := by
  have hends := obligations_settle hd hos
  unfold Ends at hends
  unfold Dialect.builder
  rcases hrun : (os.forM (Emit.obligation d)).run.run Builder.start with ⟨r, b⟩
  rw [hrun] at hends
  cases r with
  | error e =>
    obtain ⟨he, huniversal, hbackend⟩ := hends
    exact .inl ⟨huniversal, hbackend, congrArg Except.error he⟩
  | ok _ =>
    obtain ⟨hchecks, huniversal⟩ := hends
    refine .inr ⟨?_, b, rfl, hchecks⟩
    rintro ⟨hany, hdafny⟩
    have hrosette := huniversal hany
    rw [hdafny] at hrosette
    cases hrosette

/-- The text of what checks some claims: the prelude, the parts and the entry point, which runs the
names of the claims. -/
theorem Builder.Checks.assemble {b : Builder} {stems : List String} (h : b.Checks d stems) :
    b.assemble d =
      .ok ("\n\n".intercalate (d.prelude :: b.items.map d.itemText ++ d.entryPoint b.run)) :=
  b.assemble_of_closed d h.closed

/-- The headings of the parts that declare a name. -/
def Dialect.declarations (d : Dialect) (items : List Item) (name : String) : List Heading :=
  (items.map fun item => d.backend.heading (d.itemText item)).filter fun h => h.name = name

/-- The name of a claim is declared once, without parameters. -/
theorem Builder.Checks.declarations {b : Builder} {stems : List String} {name : String}
    (h : b.Checks d stems) (hstems : ∀ stem ∈ stems, stem ∈ Claim.stems)
    (hname : name ∈ Claim.names stems) : d.declarations b.items name = [Heading.closed name] := by
  obtain ⟨stem, hstem, n, -, rfl⟩ := Claim.mem_names hname
  have hclaim := Claim.isName_numbered (hstems stem hstem) n
  -- Looking among the headings that are named like claims is enough.
  have hnarrow : d.declarations b.items (Claim.numbered stem n) =
      (d.claimHeadings b.items).filter fun h => h.name = Claim.numbered stem n := by
    rw [Dialect.claimHeadings, List.filter_filter, Dialect.declarations]
    refine List.filter_congr fun heading _ => ?_
    by_cases hsame : heading.name = Claim.numbered stem n
    · simp [hsame, hclaim]
    · simp [hsame]
  have honce := List.count_eq_one_of_mem (Claim.nodup_names hstems) hname
  have hfilter : (Claim.names stems).filter (fun other => other = Claim.numbered stem n) =
      [Claim.numbered stem n] := by
    rw [List.filter_eq, honce]
    rfl
  rw [hnarrow, h.headings, List.filter_map]
  exact congrArg (List.map Heading.closed) hfilter

theorem Backend.dialect_sound (backend : Backend) (root : String) :
    (backend.dialect root).Sound := by
  cases backend with
  | dafny => exact Dafny.dialect_sound root
  | rosette => exact Rosette.dialect_sound root

theorem Backend.backend_dialect (backend : Backend) (root : String) :
    (backend.dialect root).backend = backend := by
  cases backend <;> rfl

end ProofScript
