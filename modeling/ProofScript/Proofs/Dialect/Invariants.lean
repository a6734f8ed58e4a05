import ProofScript.Proofs.Dialect.MethodLemmas

/-!
# What an invariant leaves behind

The terms of an invariant are rendered before anything is added, so an invariant without a rendering
leaves a builder as it was. There is one exception: in Rosette, an invariant over all arguments
needs two more values, and they are added before its body is rendered. They stay when the body has
no rendering (`Backend.invariant_leaves_helpers`).
-/

namespace ProofScript

/-! ## Parts that are added -/

/-- Between two states of a builder, the given parts have been added. Nothing else has changed but
the names that are drawn next. -/
structure Appends (parts : List Item) (s t : Builder) : Prop where
  current : t.current = s.current
  run : t.run = s.run
  items : t.items = s.items ++ parts

namespace Appends

variable {parts more : List Item} {s t u : Builder}

theorem refl (s : Builder) : Appends [] s s := ⟨rfl, rfl, (List.append_nil _).symm⟩

theorem trans (h : Appends parts s t) (h' : Appends more t u) : Appends (parts ++ more) s u where
  current := h'.current.trans h.current
  run := h'.run.trans h.run
  items := by rw [h'.items, h.items, List.append_assoc]

theorem draw (h : Appends parts s t) (stem : String) : Appends parts s (t.draw stem) :=
  ⟨h.current, h.run, h.items⟩

theorem leaves_global {rest : Builder → Prop} (h : Appends parts s t) (text : String) :
    Leaves (Building.global text none) (fun _ u => Appends (parts ++ [.global text]) s u) rest
      t := by
  have hadded : Appends [.global text] t
      { t with items := t.items ++ [.global text], run := t.run ++ [] } :=
    ⟨rfl, List.append_nil _, rfl⟩
  exact h.trans hadded

end Appends

section Steps

variable {b : Builder} {rest : Builder → Prop} {stem other : String}

theorem leaves_fresh :
    Leaves (Building.fresh stem) (fun name t => name = b.nextName stem ∧ t = b.draw stem) rest b :=
  ⟨rfl, rfl⟩

theorem Builder.nextName_draw (h : stem ≠ other) :
    (b.draw other).nextName stem = b.nextName stem := by
  rw [nextName, nextName, draw, FreshNames.count_fresh, if_neg h]

end Steps

variable {b : Builder}

/-! ## Dafny -/

namespace Dafny

/-- An invariant becomes a function when it has a body; otherwise nothing happens. -/
theorem leaves_invariant (inv : Invariant) (hb : b.current = none) :
    Leaves (invariant inv)
      (fun name t => ∃ lines, name = Claim.numbered "invariant" (b.names.count "invariant") ∧
        Appends [.definition (predicate name lines)] b t)
      (fun t => t = b) b := by
  refine leaves_liftM (fun _ _ => rfl) fun lines _ => ?_
  refine (ends_invariantFunction hb lines).leaves.imp ?_ fun _ h => h
  rintro name t ⟨hname, ht⟩
  exact ⟨lines, hname, ht.closed.trans hb.symm, ht.run, ht.items⟩

end Dafny

/-! ## Rosette -/

namespace Rosette

/-- The stems of the values that an invariant over all arguments needs. -/
def helperStems : List String := ["args", "scope"]

/-- These values: the list of the arguments, and the scope that binds them. -/
def helpers (b : Builder) : Invariant → List Item
  | .universal args _ =>
    match args.mapM term with
    | .ok formals =>
      [.global ("(define " ++ b.nextName "args" ++ " " ++ list formals ++ ")"),
        .global ("(define " ++ b.nextName "scope" ++ " (for/list ([v " ++ b.nextName "args"
          ++ "]) (cons (EVar-name v) (HavocArg v))))")]
    | .error _ => []
  | _ => []

/-- The text declares a value under the name, which no helper has. -/
structure Declares (name text : String) : Prop where
  stem : ∃ stem ∈ valueStems, stem ∉ helperStems ∧ ∃ n, name = Claim.numbered stem n
  heading : Rosette.heading text = { name := name, params := none }

variable {stem : String}

/-- What follows the name of a value ends it. -/
theorem heading_numbered {text : String} {n : Nat} {c : Char} {cs : List Char}
    (hstem : stem ∈ valueStems) (hc : c = ' ' ∨ c = '\n')
    (h : text.toList = "(define ".toList ++ ((Claim.numbered stem n).toList ++ c :: cs)) :
    heading text = { name := Claim.numbered stem n, params := none } := by
  have hstems : ∀ stem ∈ valueStems, ∀ c ∈ stem.toList, c ≠ '(' ∧ c ≠ ' ' ∧ c ≠ '\n' := by
    simp [valueStems]
  have hdigit : ∀ c : Char, c.isDigit = true → c ≠ '(' ∧ c ≠ ' ' ∧ c ≠ '\n' := by
    intro c hc
    refine ⟨?_, ?_, ?_⟩
    all_goals
      rintro rfl
      exact absurd hc (by decide)
  exact heading_value (Claim.forall_mem_numbered (hstems stem hstem) hdigit n) hc h

/-- The helpers are declared under their own stems. -/
theorem heading_helper {inv : Invariant} {item : Item} (root : String)
    (h : item ∈ helpers b inv) :
    ∃ stem ∈ helperStems, ∃ n,
      (heading ((dialect root).itemText item)).name = Claim.numbered stem n := by
  cases inv with
  | universal args body =>
    rw [helpers] at h
    split at h
    · next formals _ =>
      rcases List.mem_pair.1 h with rfl | rfl
      · have htext : ("(define " ++ b.nextName "args" ++ " " ++ list formals ++ ")").toList =
            "(define ".toList ++ ((Claim.numbered "args" (b.names.count "args")).toList ++
              ' ' :: (list formals ++ ")").toList) := by
          simp [Builder.nextName]
        have hheading := heading_numbered (by decide) (.inl rfl) htext
        exact ⟨"args", by decide, _, congrArg Heading.name hheading⟩
      · have htext : ("(define " ++ b.nextName "scope" ++ " (for/list ([v " ++ b.nextName "args"
            ++ "]) (cons (EVar-name v) (HavocArg v))))").toList =
            "(define ".toList ++ ((Claim.numbered "scope" (b.names.count "scope")).toList ++
              ' ' :: ("(for/list ([v " ++ b.nextName "args"
                ++ "]) (cons (EVar-name v) (HavocArg v))))").toList) := by
          simp [Builder.nextName]
        have hheading := heading_numbered (by decide) (.inl rfl) htext
        exact ⟨"scope", by decide, _, congrArg Heading.name hheading⟩
    · cases h
  | _ => cases h

theorem leaves_invariantGlobal {parts : List Item} {t : Builder} {rest : Builder → Prop}
    (hstem : stem ∈ valueStems) (hhelper : stem ∉ helperStems) (lines : List String)
    (h : Appends parts b t) :
    Leaves (invariantGlobal stem lines)
      (fun name u => ∃ text, Declares name text ∧ Appends (parts ++ [.global text]) b u)
      rest t := by
  refine leaves_fresh.bind ?_
  rintro _ _ ⟨rfl, rfl⟩
  refine ((h.draw stem).leaves_global _).bind fun _ u hu => ?_
  have htext : ("(define " ++ t.nextName stem
      ++ "\n  (EquivalenceInvariant (lambda (ctx1 ctx2 addr1 addr2)\n"
      ++ "\n".intercalate (lines.map ("    " ++ ·)) ++ ")))").toList =
      "(define ".toList ++ ((Claim.numbered stem (t.names.count stem)).toList ++
        '\n' :: ("  (EquivalenceInvariant (lambda (ctx1 ctx2 addr1 addr2)\n"
          ++ "\n".intercalate (lines.map ("    " ++ ·)) ++ ")))").toList) := by
    simp [Builder.nextName]
  have hheading := heading_numbered hstem (.inr rfl) htext
  exact leaves_pure ⟨_, ⟨⟨stem, hstem, hhelper, _, rfl⟩, hheading⟩, hu⟩

/-- An invariant over all arguments has added its helpers before its body is rendered. -/
theorem leaves_universal (args : List Node) (body : Node) (b : Builder) :
    Leaves (universal args body)
      (fun name t => ∃ text, Declares name text ∧
        Appends (helpers b (.universal args body) ++ [.global text]) b t)
      (fun t => Appends (helpers b (.universal args body)) b t ∧
        (helpers b (.universal args body) = [] → t = b)) b := by
  refine leaves_liftM ?_ fun formals hformals => ?_
  · intro e he
    have hnone : helpers b (.universal args body) = [] := by simp only [helpers, he]
    rw [hnone]
    exact ⟨.refl b, fun _ => rfl⟩
  · simp only [helpers, hformals]
    refine leaves_fresh.bind ?_
    rintro _ _ ⟨rfl, rfl⟩
    refine leaves_fresh.bind ?_
    rintro _ _ ⟨rfl, rfl⟩
    rw [Builder.nextName_draw (by decide : "scope" ≠ "args")]
    have hdrawn := ((Appends.refl b).draw "args").draw "scope"
    refine (hdrawn.leaves_global _).bind fun _ _ h => ?_
    refine (h.leaves_global _).bind fun _ _ h => ?_
    refine leaves_liftM (fun _ _ => ⟨h, nofun⟩) fun bodyText _ => ?_
    exact leaves_invariantGlobal (by decide) (by decide) _ h

/-- It does not matter whether a definition is open. -/
theorem leaves_invariant (inv : Invariant) (b : Builder) :
    Leaves (invariant inv)
      (fun name t => ∃ text, Declares name text ∧ Appends (helpers b inv ++ [.global text]) b t)
      (fun t => Appends (helpers b inv) b t ∧ (helpers b inv = [] → t = b)) b := by
  have rendered : ∀ {stem : String} {r : Except CodeFault (List String)}, stem ∈ valueStems →
      stem ∉ helperStems → Leaves (do invariantGlobal stem (← Building.ofTerm r))
        (fun name t => ∃ text, Declares name text ∧ Appends ([] ++ [.global text]) b t)
        (fun t => Appends [] b t ∧ (([] : List Item) = [] → t = b)) b := by
    intro stem r hstem hhelper
    refine leaves_liftM (fun _ _ => ⟨.refl b, fun _ => rfl⟩) fun lines _ => ?_
    exact leaves_invariantGlobal hstem hhelper lines (.refl b)
  cases inv with
  | always => exact leaves_invariantGlobal (by decide) (by decide) _ (.refl b)
  | never => exact leaves_invariantGlobal (by decide) (by decide) _ (.refl b)
  | equal lhs rhs => exact rendered (by decide) (by decide)
  | valid side expr => exact rendered (by decide) (by decide)
  | ref side expr => exact rendered (by decide) (by decide)
  | int side expr => exact rendered (by decide) (by decide)
  | universal args body => exact leaves_universal args body b

/-- Only the last part declares the name. -/
theorem declarations_helpers (root : String) {inv : Invariant} {name text : String}
    (h : Declares name text) :
    (dialect root).declarations (helpers b inv ++ [.global text]) name = [heading text] := by
  obtain ⟨stem, hstem, hhelper, n, rfl⟩ := h.stem
  have hothers : (dialect root).declarations (helpers b inv) (Claim.numbered stem n) = [] := by
    rw [Dialect.declarations, List.filter_eq_nil_iff]
    intro declared hmem
    obtain ⟨item, hitem, rfl⟩ := List.mem_map.1 hmem
    obtain ⟨other, hother, m, hname⟩ := heading_helper root hitem
    have hstems : ∀ stem ∈ valueStems, IsStem stem := by decide
    have hvalues : ∀ stem ∈ helperStems, stem ∈ valueStems := by decide
    have hne : Claim.numbered other m ≠ Claim.numbered stem n := by
      intro heq
      obtain ⟨rfl, -⟩ := Claim.numbered_inj (hstems other (hvalues other hother))
        (hstems stem hstem) heq
      exact hhelper hother
    rw [← hname] at hne
    exact fun heq => hne (of_decide_eq_true heq)
  have hlast : (dialect root).declarations [.global text] (Claim.numbered stem n) =
      [heading text] := by
    refine List.filter_eq_self.2 ?_
    intro declared hmem
    obtain rfl := List.mem_singleton.1 hmem
    exact decide_eq_true (congrArg Heading.name h.heading)
  rw [Dialect.declarations, List.map_append, List.filter_append]
  exact congrArg₂ (· ++ ·) hothers hlast

end Rosette

/-! ## Both notations -/

/-- What an invariant adds in front of the part that declares its name. -/
def Backend.helpers : Backend → Builder → Invariant → List Item
  | .dafny, _, _ => []
  | .rosette, b, inv => Rosette.helpers b inv

/-- An invariant that succeeds adds one part that declares its name, behind its helpers. One that
fails leaves its helpers behind and nothing else; where it has none, nothing changes at all. -/
theorem Backend.invariant_leaves_helpers (backend : Backend) (root : String) (inv : Invariant)
    (hb : b.current = none) :
    let d := backend.dialect root
    let helpers := backend.helpers b inv
    Leaves (d.invariant inv)
      (fun name t => t.current = none ∧ ∃ item, Appends (helpers ++ [item]) b t ∧
        d.declarations (helpers ++ [item]) name = [d.backend.heading (d.itemText item)])
      (fun t => t.current = none ∧ Appends helpers b t ∧ (helpers = [] → t = b)) b := by
  intro d helpers
  cases backend with
  | dafny =>
    refine (Dafny.leaves_invariant inv hb).imp ?_ ?_
    · rintro _ t ⟨lines, rfl, ht⟩
      have hname := Dafny.heading_function (b.names.count "invariant") lines
      refine ⟨ht.current.trans hb, _, ht, ?_⟩
      exact List.filter_cons_of_pos (decide_eq_true hname)
    · rintro _ rfl
      exact ⟨hb, .refl _, fun _ => rfl⟩
  | rosette =>
    refine (Rosette.leaves_invariant inv b).imp ?_ ?_
    · rintro name t ⟨text, hdeclares, ht⟩
      exact ⟨ht.current.trans hb, _, ht, Rosette.declarations_helpers root hdeclares⟩
    · rintro t ⟨ht, hsame⟩
      exact ⟨ht.current.trans hb, ht, hsame⟩

/-- An invariant over one argument has two helpers. -/
theorem Backend.invariant_leaves_helpers_argument :
    let d := Backend.rosette.dialect "lib"
    let inv := Invariant.universal [.var "a"] (.var "a")
    Builder.start.current = none ∧ ∃ t,
      (d.invariant inv).run.run Builder.start = (.ok "invariant0", t) ∧
      t.items.length = 3 ∧ (d.declarations t.items "invariant0").length = 1 := by
  intro d inv
  have hrun : ∃ t, (d.invariant inv).run.run Builder.start = (.ok "invariant0", t) ∧
      t.items.length = 3 := ⟨_, rfl, rfl⟩
  obtain ⟨t, hrun, hlength⟩ := hrun
  have hleaves := Backend.invariant_leaves_helpers .rosette "lib" inv
    (rfl : Builder.start.current = none)
  obtain ⟨-, item, hadded, hdeclared⟩ := hleaves.of_run hrun
  have hitems : t.items = Backend.rosette.helpers Builder.start inv ++ [item] := hadded.items
  refine ⟨rfl, t, hrun, hlength, ?_⟩
  rw [hitems]
  exact congrArg List.length hdeclared

/-- The body is a check, which is no expression. The two helpers stay. -/
theorem Rosette.invariant_leaves_arguments :
    let inv := Invariant.universal [.var "a"] (.detached (.assert (.var "a")))
    ∃ fault t, ((dialect "lib").invariant inv).run.run Builder.start = (.error fault, t) ∧
      t.items ≠ Builder.start.items ∧ t.items.length = 2 :=
  ⟨_, _, rfl, List.cons_ne_nil _ _, rfl⟩

end ProofScript
