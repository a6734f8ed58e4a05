import ProofScript.Proofs.Action
import ProofScript.Proofs.Code.Heading

/-!
# What building leaves behind

`Since d drawn s t` says what has happened between two states of a builder: names have been drawn
for the claims in `drawn` and for no others, no name has been added to those that the program runs,
and nothing that is named like a claim has been declared. Every step of an emitter keeps this
relation. When a claim is settled (`Settled`) the program runs one more name, and one more thing is
declared under it, which takes no parameters.
-/

namespace ProofScript

/-! ## Steps of a builder -/

namespace Builder

/-- The builder after a name has been drawn. -/
def draw (b : Builder) (stem : String) : Builder := { b with names := (b.names.fresh stem).2 }

/-- The name that is drawn next. -/
def nextName (b : Builder) (stem : String) : String := Claim.numbered stem (b.names.count stem)

end Builder

section Steps

variable {α : Type} {s : Builder} {fails : CodeFault → Prop} {post : α → Builder → Prop}

@[simp] theorem ends_fresh {stem : String} {post : String → Builder → Prop} :
    Ends (Building.fresh stem) post fails s ↔ post (s.nextName stem) (s.draw stem) := Iff.rfl

theorem ends_openDef {kind : DefKind} {stem : String} {params : List Param}
    {returns : Option String} {post : String → Builder → Prop} (hs : s.current = none) :
    Ends (Building.openDef kind stem params returns) post fails s ↔
      post (s.nextName stem) { s.draw stem with
        current := some ⟨kind, s.nextName stem, params, returns, []⟩ } := by
  simp only [Building.openDef, ends_bind, ends_get, hs, ends_fresh, ends_modify, ends_pure]

theorem ends_emit {lines : List String} {post : Unit → Builder → Prop} {def? : Definition}
    (hs : s.current = some def?) :
    Ends (Building.emit lines) post fails s ↔
      post () { s with current := some { def? with lines := def?.lines ++ lines } } := by
  simp only [Building.emit, ends_bind, ends_get, hs, ends_modify]

theorem ends_close {run : Bool} {post : String → Builder → Prop} {def? : Definition}
    (hs : s.current = some def?) (hrun : run = true → def?.params = []) :
    Ends (Building.close run) post fails s ↔
      post def?.name { s with
        current := none
        items := s.items ++ [.definition def?]
        run := if run then s.run ++ [def?.name] else s.run } := by
  have hparams : ¬((run && !def?.params.isEmpty) = true) := by
    cases run with
    | false => simp
    | true => simp [hrun rfl]
  simp only [Building.close, ends_bind, ends_get, hs, ends_modify]
  rw [if_neg hparams]
  simp only [ends_pure, ends_bind, ends_modify]

@[simp] theorem ends_global {text : String} {run : Option String} {post : Unit → Builder → Prop} :
    Ends (Building.global text run) post fails s ↔
      post () { s with items := s.items ++ [.global text], run := s.run ++ run.toList } := Iff.rfl

theorem ends_ofTerm {r : Except CodeFault α} {a : α} (h : r = .ok a) :
    Ends (Building.ofTerm r) post fails s ↔ post a s := by
  subst h
  exact ends_liftM_ok

theorem ends_ofTree {r : Except TreeError α} {a : α} (h : r = .ok a) :
    Ends (Building.ofTree r) post fails s ↔ post a s := by
  subst h
  exact ends_liftM_ok

theorem ends_ofTemplate {r : Except TemplateFault α} {a : α} (h : r = .ok a) :
    Ends (Building.ofTemplate r) post fails s ↔ post a s := by
  subst h
  exact ends_liftM_ok

end Steps

/-! ## What has happened -/

variable {d : Dialect} {drawn : List String} {stem : String} {s t : Builder}

/-- Between two states of a builder, names have been drawn for the claims in `drawn`, and nothing
has been settled. -/
structure Since (d : Dialect) (drawn : List String) (s t : Builder) : Prop where
  /-- The program runs the same names. -/
  run : t.run = s.run
  /-- The names that have been drawn for claims. -/
  counts : ∀ stem ∈ Claim.stems, t.names.count stem = s.names.count stem + drawn.count stem
  /-- Nothing named like a claim has been declared. -/
  headings : d.claimHeadings t.items = d.claimHeadings s.items

namespace Since

theorem refl (d : Dialect) (s : Builder) : Since d [] s s := ⟨rfl, fun _ _ => rfl, rfl⟩

theorem trans {u : Builder} (h : Since d drawn s t) (h' : Since d [] t u) : Since d drawn s u where
  run := h'.run.trans h.run
  counts stem hstem := by rw [h'.counts stem hstem, h.counts stem hstem]; rfl
  headings := h'.headings.trans h.headings

/-- A name that is drawn for no claim does not count. -/
theorem draw {aux : String} (haux : aux ∉ Claim.stems) (h : Since d drawn s t) :
    Since d drawn s (t.draw aux) where
  run := h.run
  counts stem hstem := by
    have hne : stem ≠ aux := fun he => haux (he ▸ hstem)
    rw [Builder.draw, FreshNames.count_fresh, if_neg hne]
    exact h.counts stem hstem
  headings := h.headings

/-- A name is drawn for a claim. -/
theorem drawClaim (h : Since d [] s t) (stem : String) : Since d [stem] s (t.draw stem) where
  run := h.run
  counts other hother := by
    rw [Builder.draw, FreshNames.count_fresh]
    split
    · next he => rw [he, h.counts stem (he ▸ hother)]; simp
    · next he => rw [h.counts other hother]; simp [Ne.symm he]
  headings := h.headings

/-- The open definition does not count. -/
theorem withCurrent (h : Since d drawn s t) (current : Option Definition) :
    Since d drawn s { t with current := current } := ⟨h.run, h.counts, h.headings⟩

/-- A part that is not named like a claim does not count. -/
theorem withItem {item : Item} (h : Since d drawn s t)
    (hitem : Claim.isName (d.backend.heading (d.itemText item)).name = false) :
    Since d drawn s { t with items := t.items ++ [item] } where
  run := h.run
  counts := h.counts
  headings := by
    rw [← h.headings]
    simp [Dialect.claimHeadings, hitem]

end Since

/-- Nothing is open, and nothing has been settled. -/
structure Idle (d : Dialect) (drawn : List String) (s t : Builder) : Prop where
  /-- No definition is open. -/
  closed : t.current = none
  /-- Nothing has been settled. -/
  since : Since d drawn s t

/-- The definition of a claim is open, and nothing else has been settled. -/
structure Opened (d : Dialect) (stem : String) (s t : Builder) : Prop where
  /-- The open definition takes no parameters and has the next name of the claim. -/
  current : ∃ lines, t.current = some ⟨.method, s.nextName stem, [], none, lines⟩
  /-- Nothing else has been settled. -/
  since : Since d [stem] s t

/-- A claim has been settled: the program runs one more name, and one more thing is declared that is
named like a claim, under that name and without parameters. -/
structure Settled (d : Dialect) (stem : String) (s t : Builder) : Prop where
  /-- No definition is open. -/
  closed : t.current = none
  /-- The program runs the name of the claim. -/
  run : t.run = s.run ++ [s.nextName stem]
  /-- One more name has been drawn for the stem. -/
  counts : ∀ other ∈ Claim.stems,
    t.names.count other = s.names.count other + [stem].count other
  /-- The claim is declared. -/
  headings : d.claimHeadings t.items =
    d.claimHeadings s.items ++ [Heading.closed (s.nextName stem)]

variable {fails : CodeFault → Prop} {aux : String}

namespace Idle

theorem start (hs : s.current = none) : Idle d [] s s := ⟨hs, Since.refl d s⟩

theorem fresh (h : Idle d drawn s t) (haux : aux ∉ Claim.stems) :
    Ends (Building.fresh aux) (fun _ u => Idle d drawn s u) fails t :=
  ends_fresh.2 ⟨h.closed, h.since.draw haux⟩

/-- The name of a claim is drawn. -/
theorem freshClaim (h : Idle d [] s t) (hstem : stem ∈ Claim.stems) :
    Ends (Building.fresh stem) (fun name u => name = s.nextName stem ∧ Idle d [stem] s u) fails t :=
  ends_fresh.2 ⟨by rw [Builder.nextName, h.since.counts stem hstem]; rfl,
    h.closed, h.since.drawClaim stem⟩

/-- The definition of a claim is opened. -/
theorem openDef (h : Idle d [] s t) (hstem : stem ∈ Claim.stems) :
    Ends (Building.openDef .method stem [] none) (fun _ u => Opened d stem s u) fails t := by
  have hname : t.nextName stem = s.nextName stem := by
    rw [Builder.nextName, h.since.counts stem hstem]
    rfl
  exact (ends_openDef h.closed).2 ⟨⟨[], by rw [hname]⟩, (h.since.drawClaim stem).withCurrent _⟩

/-- Text is added that is not named like a claim. -/
theorem global {text : String} (h : Idle d drawn s t)
    (htext : Claim.isName (d.backend.heading text).name = false) :
    Ends (Building.global text none) (fun _ u => Idle d drawn s u) fails t := by
  have hitem : Claim.isName (d.backend.heading (d.itemText (.global text))).name = false := htext
  have hsince := h.since.withItem hitem
  exact ends_global.2 ⟨h.closed, by simpa using hsince.run, hsince.counts, hsince.headings⟩

end Idle

namespace Opened

theorem fresh (h : Opened d stem s t) (haux : aux ∉ Claim.stems) :
    Ends (Building.fresh aux) (fun _ u => Opened d stem s u) fails t :=
  ends_fresh.2 ⟨h.current, h.since.draw haux⟩

theorem emit {lines : List String} (h : Opened d stem s t) :
    Ends (Building.emit lines) (fun _ u => Opened d stem s u) fails t := by
  obtain ⟨before, hcurrent⟩ := h.current
  exact (ends_emit hcurrent).2 ⟨⟨before ++ lines, rfl⟩, h.since.withCurrent _⟩

end Opened

end ProofScript
