import ProofScript.Proofs.Code.History

/-!
# Names that collide

A fresh name is a stem with a number behind it, and nothing stands between the two. Each stem
counts for itself, so no name is drawn twice for one stem. Digits at the end of a stem cannot be
told from those of the number, though: the eleventh name for `a` is the first one for `a1`. Names
collide in no other way (`Claim.numbered_cases`), hence the names that are drawn for a list of stems
are all different just when no stem is drawn more often than the digits of another one allow
(`Claim.Apart`).
-/

namespace ProofScript

/-! ## Digits -/

/-- Some first digits of a number, but not all of them, are the digits of a positive number. It is
at most a tenth of the whole. -/
theorem Text.exists_lead {n : Nat} {ds es : List Char} (h : Nat.toDigits 10 n = ds ++ es)
    (hds : ds ≠ []) (hes : es ≠ []) :
    ∃ lead, 0 < lead ∧ ds = Nat.toDigits 10 lead ∧ 10 * lead ≤ n := by
  induction es using List.reverseRecOn generalizing n with
  | nil => exact absurd rfl hes
  | append_singleton es last ih =>
    have hten : 10 ≤ n := by
      refine Nat.le_of_not_lt fun hlt => ?_
      have hlength := congrArg List.length h
      have hpos := List.length_pos_iff.2 hds
      simp only [Nat.toDigits_of_lt_base hlt, List.length_append, List.length_singleton] at hlength
      omega
    rw [Nat.toDigits_of_base_le (by decide) hten, ← List.append_assoc] at h
    obtain ⟨hfront, -⟩ := List.append_inj' h rfl
    by_cases hnone : es = []
    · subst hnone
      exact ⟨n / 10, by omega, by rw [hfront, List.append_nil], by omega⟩
    · obtain ⟨lead, hpos, hlead, hle⟩ := ih hfront hnone
      exact ⟨lead, hpos, hlead, by omega⟩

namespace Claim

variable {stem other : String} {n m : Nat} {l : List String}

/-! ## Two names -/

/-- When a name is one of a longer stem, the longer stem is itself a name of the shorter one. -/
theorem exists_lead_of_numbered (h : numbered stem n = numbered other m)
    (hlength : stem.toList.length < other.toList.length) :
    ∃ lead, 0 < lead ∧ other = numbered stem lead ∧ 10 * lead ≤ n := by
  have hchars := congrArg String.toList h
  rw [toList_numbered, toList_numbered] at hchars
  have hstem : stem.toList <+: stem.toList ++ Nat.toDigits 10 n := List.prefix_append _ _
  have hother : other.toList <+: stem.toList ++ Nat.toDigits 10 n :=
    hchars ▸ List.prefix_append _ _
  obtain ⟨ds, hds⟩ := List.prefix_of_prefix_length_le hstem hother (Nat.le_of_lt hlength)
  have hne : ds ≠ [] := by
    rintro rfl
    rw [← hds, List.append_nil] at hlength
    exact Nat.lt_irrefl _ hlength
  rw [← hds, List.append_assoc, List.append_cancel_left_eq] at hchars
  obtain ⟨lead, hpos, rfl, hle⟩ := Text.exists_lead hchars hne Nat.toDigits_ne_nil
  exact ⟨lead, hpos, String.toList_injective (by rw [toList_numbered, hds]), hle⟩

/-- Two names are the same when stem and number are, or when one stem is a name of the other. -/
theorem numbered_cases (h : numbered stem n = numbered other m) :
    (stem = other ∧ n = m) ∨ (∃ lead, 0 < lead ∧ other = numbered stem lead ∧ 10 * lead ≤ n) ∨
      ∃ lead, 0 < lead ∧ stem = numbered other lead ∧ 10 * lead ≤ m := by
  rcases Nat.lt_trichotomy stem.toList.length other.toList.length with hlt | heq | hgt
  · exact .inr (.inl (exists_lead_of_numbered h hlt))
  · refine .inl ?_
    have hchars := congrArg String.toList h
    rw [toList_numbered, toList_numbered] at hchars
    obtain ⟨hstem, hnumber⟩ := List.append_inj hchars heq
    exact ⟨String.toList_injective hstem, Text.toDigits_injective hnumber⟩
  · exact .inr (.inr (exists_lead_of_numbered h.symm hgt))

/-- A stem with the digits of a positive number has the same first name as the stem alone has with
ten times that number. -/
theorem numbered_zero (stem : String) (h : 0 < n) :
    numbered (numbered stem n) 0 = numbered stem (10 * n) := by
  have hdigits := Nat.toDigits_append_toDigits (b := 10) (d := 0) (by decide) h (by decide)
  refine String.toList_injective ?_
  rw [toList_numbered, toList_numbered, toList_numbered, List.append_assoc, hdigits, Nat.add_zero]

/-! ## The names of a list of stems -/

/-- No stem occurs so often that its names run into those of a stem that has the same start and goes
on with digits. -/
def Apart (l : List String) : Prop :=
  ∀ stem lead, 0 < lead → numbered stem lead ∈ l → l.count stem ≤ 10 * lead

/-- The names for a list of stems are all different just when the stems are apart. -/
theorem nodup_names_iff : (names l).Nodup ↔ Apart l := by
  rw [names_eq_map, List.nodup_map_iff_inj_on (nodup_draws l)]
  constructor
  · intro hinj stem lead hpos hmem
    refine Nat.le_of_not_lt fun hlt => ?_
    have hfirst : (numbered stem lead, 0) ∈ draws l := mem_draws.2 (List.count_pos_iff.2 hmem)
    have hlate : (stem, 10 * lead) ∈ draws l := mem_draws.2 hlt
    obtain ⟨-, hzero⟩ := Prod.mk.inj (hinj _ hfirst _ hlate (numbered_zero stem hpos))
    omega
  · rintro hapart ⟨stem, n⟩ hn ⟨other, m⟩ hm hname
    rw [mem_draws] at hn hm
    rcases numbered_cases hname with ⟨rfl, rfl⟩ | ⟨lead, hpos, rfl, hle⟩ | ⟨lead, hpos, rfl, hle⟩
    · rfl
    · have := hapart stem lead hpos (List.count_pos_iff.1 (Nat.zero_lt_of_lt hm))
      omega
    · have := hapart other lead hpos (List.count_pos_iff.1 (Nat.zero_lt_of_lt hn))
      omega

/-- Stems that end in no digit are apart. -/
theorem apart_of_ends (h : ∀ stem ∈ l, ∀ c ∈ stem.toList.getLast?, c.isDigit = false) :
    Apart l := by
  intro stem lead _ hmem
  have hlast := List.getLast?_eq_getLast_of_ne_nil (Nat.toDigits_ne_nil (n := lead) (b := 10))
  have hend := h _ hmem ((Nat.toDigits 10 lead).getLast Nat.toDigits_ne_nil) (by
    rw [toList_numbered, List.getLast?_append, hlast]
    rfl)
  rw [Text.isDigit_of_mem_toDigits (List.getLast_mem _)] at hend
  cases hend

end Claim

/-! ## Drawing names -/

namespace FreshNames

theorem freshAll_append (names : FreshNames) (stems more : List String) :
    names.freshAll (stems ++ more) =
      ((names.freshAll stems).1 ++ ((names.freshAll stems).2.freshAll more).1,
        ((names.freshAll stems).2.freshAll more).2) := by
  induction stems generalizing names with
  | nil => rfl
  | cons stem stems ih => simp only [List.cons_append, freshAll, ih]

theorem freshAll_singleton (names : FreshNames) (stem : String) :
    names.freshAll [stem] = ([Claim.numbered stem (names.count stem)], (names.fresh stem).2) := rfl

/-- Each stem has been counted once for each name. -/
theorem count_freshAll (stems : List String) (stem : String) :
    (start.freshAll stems).2.count stem = stems.count stem := by
  induction stems using List.reverseRecOn with
  | nil => rfl
  | append_singleton stems last ih =>
    rw [freshAll_append, freshAll_singleton, count_fresh, List.count_append]
    by_cases hlast : stem = last
    · subst hlast
      rw [if_pos rfl, ih, List.count_singleton_self]
    · rw [if_neg hlast, ih, List.count_singleton, if_neg (by simpa using Ne.symm hlast)]
      rfl

/-- The names are the stems with numbers that count up. -/
theorem freshAll_eq_names (stems : List String) : (start.freshAll stems).1 = Claim.names stems := by
  induction stems using List.reverseRecOn with
  | nil => rfl
  | append_singleton stems last ih =>
    rw [freshAll_append, freshAll_singleton, ih, count_freshAll, Claim.names_snoc]

end FreshNames

/-! ## Calls of a builder -/

namespace Builder

/-- The stem for which an event draws a name. -/
def Event.drawnFor : Event → List String
  | ⟨.fresh stem, .ok _⟩ => [stem]
  | ⟨.openDef _ stem _ _, .ok _⟩ => [stem]
  | _ => []

/-- The name that an event draws. -/
def Event.drawn : Event → List String
  | ⟨.fresh _, .ok name⟩ => name.toList
  | ⟨.openDef .., .ok name⟩ => name.toList
  | _ => []

/-- A call draws a name when it asks for one and succeeds. -/
theorem drawn_perform (b : Builder) (c : Call) :
    let e : Event := ⟨c, (c.perform.run.run b).1⟩
    (e.drawn, (c.perform.run.run b).2.names) = b.names.freshAll e.drawnFor := by
  cases c with
  | fresh stem => rfl
  | global text run => rfl
  | openDef kind stem params returns =>
    cases hb : b.current with
    | none => rw [perform_openDef hb]; rfl
    | some opened => rw [perform_openDef_of_open hb]; rfl
  | emit lines =>
    cases hb : b.current with
    | none => rw [perform_emit_of_closed hb]; rfl
    | some opened => rw [perform_emit hb]; rfl
  | close run =>
    cases hb : b.current with
    | none => rw [perform_close_of_closed hb]; rfl
    | some opened =>
      by_cases hrun : run = true → opened.params = []
      · rw [perform_close hb hrun]
        rfl
      · obtain ⟨rfl, hparams⟩ := Classical.not_imp.1 hrun
        rw [perform_close_of_params hb hparams]
        rfl

/-- The names that the calls of a new builder draw are those for the list of their stems. -/
theorem drawn_history (calls : List Call) :
    ((history calls).1.flatMap Event.drawn, (history calls).2.names) =
      FreshNames.start.freshAll ((history calls).1.flatMap Event.drawnFor) := by
  induction calls using List.reverseRecOn with
  | nil => rfl
  | append_singleton calls c ih =>
    have hnext := drawn_perform (history calls).2 c
    have hstep : call (history calls) c =
        ((history calls).1 ++ [⟨c, (c.perform.run.run (history calls).2).1⟩],
          (c.perform.run.run (history calls).2).2) := rfl
    rw [history_snoc, hstep, List.flatMap_append, List.flatMap_append, List.flatMap_singleton,
      List.flatMap_singleton, FreshNames.freshAll_append, ← ih, ← hnext]

end Builder

namespace FreshNames

/-- Fresh names are stems with numbers, which count up for each stem. The names are all different
just when the stems are apart, and stems are apart that end in no digit. The names that a builder
draws while calls are made on it are such names, whichever of the calls fail. -/
theorem nodup_freshAll_iff (stems : List String) (calls : List Builder.Call) :
    (start.freshAll stems).1 =
        stems.mapIdx (fun i stem => stem ++ ((stems.take i).count stem).repr) ∧
      (∀ stem, (start.freshAll stems).2.count stem = stems.count stem) ∧
      ((start.freshAll stems).1.Nodup ↔ Claim.Apart stems) ∧
      ((∀ stem ∈ stems, ∀ c ∈ stem.toList.getLast?, c.isDigit = false) →
        (start.freshAll stems).1.Nodup) ∧
      let events := (Builder.history calls).1
      events.flatMap Builder.Event.drawn =
          (start.freshAll (events.flatMap Builder.Event.drawnFor)).1 ∧
        ((events.flatMap Builder.Event.drawn).Nodup ↔
          Claim.Apart (events.flatMap Builder.Event.drawnFor)) := by
  have hnodup : ∀ stems, (start.freshAll stems).1.Nodup ↔ Claim.Apart stems := by
    intro stems
    rw [freshAll_eq_names, Claim.nodup_names_iff]
  have hdrawn := congrArg Prod.fst (Builder.drawn_history calls)
  refine ⟨freshAll_eq_names stems, count_freshAll stems, hnodup stems, fun hends => ?_, hdrawn, ?_⟩
  · exact (hnodup stems).2 (Claim.apart_of_ends hends)
  · rw [← hnodup, ← hdrawn]

/-- The eleventh name for `a` is the first one for `a1`, whether a definition is opened for it or it
is only drawn. -/
theorem freshAll_collides :
    let stems := List.replicate 11 "a" ++ ["a1"]
    let calls : List Builder.Call :=
      List.replicate 11 (.fresh "a") ++ [.openDef .method "a1" [] none]
    (∀ stem, stems.count stem < UInt32.size) ∧ ¬(start.freshAll stems).1.Nodup ∧
      ¬((Builder.history calls).1.flatMap Builder.Event.drawn).Nodup := by
  intro stems calls
  have hclash : ¬Claim.Apart stems := by
    intro hapart
    exact absurd (hapart "a" 1 (by decide) (by decide)) (by decide)
  have hcollides : ¬(start.freshAll stems).1.Nodup := by
    rwa [freshAll_eq_names, Claim.nodup_names_iff]
  have hstems : (Builder.history calls).1.flatMap Builder.Event.drawnFor = stems := by decide
  have hdrawn : (Builder.history calls).1.flatMap Builder.Event.drawn =
      (start.freshAll stems).1 := by
    rw [← hstems]
    exact congrArg Prod.fst (Builder.drawn_history calls)
  refine ⟨fun stem => ?_, hcollides, by rwa [hdrawn]⟩
  exact Nat.lt_of_le_of_lt List.count_le_length (by decide)

end FreshNames

end ProofScript
