import Mathlib.Data.List.Basic
import ProofScript.Node.Walk
import ProofScript.Proofs.Action

/-!
# Rebuilding a shape

`Shape.traverse` acts on the children of a shape construct by construct. The construct does not
matter to what the action does: it acts on the list of the children with their positions, and
`Shape.refill` puts the results in the places of the children (`traverse_eq`). So what a loop over a
list does tells what rebuilding a shape does, and no later proof goes through the constructs again.
-/

namespace ProofScript

namespace Shape

variable {α β γ : Type}

/-- Puts new children in the places of the hints that are present. -/
def refillHints : List (Option α) → List β → List (Option β)
  | [], _ => []
  | none :: hints, ks => none :: refillHints hints ks
  | some _ :: hints, k :: ks => some k :: refillHints hints ks
  | some _ :: _, [] => []

/-- Puts new children in the places of the old ones, from left to right. There must be as many of
them; otherwise what comes out means nothing. -/
def refill : Shape α → List β → Shape β
  | const v, _ => const v
  | var name type, _ => var name type
  | tuple _, ks => tuple ks
  | seq _ _, [a, b] => seq a b
  | compound _ name _, [object, index] => compound object name index
  | init name _ immutable, [value] => init name value immutable
  | new _ _, ks =>
    match ks.getLast? with
    | some body => new ks.dropLast body
    | none => nop
  | method name _ _, ks =>
    match ks.getLast? with
    | some body => method name ks.dropLast body
    | none => nop
  | assign _ _, [target, value] => assign target value
  | call _ name _, receiver :: args => call receiver name args
  | ite _ _ _, [c, p, n] => ite c p n
  | script _, ks => script ks
  | proof terms hints verbatims, ks =>
    proof (ks.take terms.length) (refillHints hints (ks.drop terms.length)) verbatims
  | assert _, [a] => assert a
  | assume _, [a] => assume a
  | _, _ => nop

/-! ## Refilling and mapping -/

theorem refillHints_map (g : α → β) (hints : List (Option α)) :
    refillHints hints ((hints.filterMap id).map g) = hints.map (Option.map g) := by
  induction hints with
  | nil => rfl
  | cons hint hints ih =>
    cases hint with
    | none => simpa [refillHints] using ih
    | some => simpa [refillHints] using ih

theorem map_refillHints (g : β → γ) (hints : List (Option α)) (ks : List β) :
    (refillHints hints ks).map (Option.map g) = refillHints hints (ks.map g) := by
  induction hints generalizing ks with
  | nil => rfl
  | cons hint hints ih =>
    cases hint with
    | none => simp [refillHints, ih]
    | some => cases ks <;> simp [refillHints, ih]

theorem present_refillHints {hints : List (Option α)} {ks : List β}
    (h : ks.length = (hints.filterMap id).length) : (refillHints hints ks).filterMap id = ks := by
  induction hints generalizing ks with
  | nil => simpa [refillHints, eq_comm] using h
  | cons hint hints ih =>
    cases hint with
    | none => simpa [refillHints] using ih h
    | some =>
      cases ks with
      | nil => simp at h
      | cons k ks => simpa [refillHints] using ih (by simpa using h)

/-- A shape that is refilled with the images of its children is mapped. -/
theorem refill_map (g : α → β) (s : Shape α) : s.refill (s.children.map g) = s.map g := by
  cases s with
  | new | method => simp [children, refill, map]
  | proof terms hints verbatims =>
    have hhints := refillHints_map g hints
    simpa [children, refill, map] using hhints
  | _ => rfl

theorem map_refill (g : β → γ) (s : Shape α) (ks : List β) :
    (s.refill ks).map g = s.refill (ks.map g) := by
  cases s with
  | const | var | nop | tuple | script => rfl
  | new | method =>
    simp only [refill, List.getLast?_map]
    cases ks.getLast? <;> simp [map, List.map_dropLast]
  | proof => simp [refill, map, map_refillHints]
  | _ =>
    -- The other constructs have at most three children.
    rcases ks with _ | ⟨a, _ | ⟨b, _ | ⟨c, _ | ⟨d, ks⟩⟩⟩⟩ <;> rfl

/-- Only the values at the children matter to a mapped shape. -/
theorem map_congr {f g : α → β} {s : Shape α} (h : ∀ k ∈ s.children, f k = g k) :
    s.map f = s.map g := by
  rw [← refill_map, ← refill_map, List.map_congr_left h]

theorem map_id (s : Shape α) : s.map id = s := by
  cases s <;> simp [map]

/-- A shape that is refilled with its own children is the same. -/
theorem refill_children (s : Shape α) : s.refill s.children = s := by
  have hrefill := refill_map id s
  rwa [List.map_id, map_id] at hrefill

theorem children_refill {s : Shape α} {ks : List β} (h : ks.length = s.children.length) :
    (s.refill ks).children = ks := by
  cases s with
  | const | var | nop => exact (List.length_eq_zero_iff.1 h).symm
  | tuple | script => rfl
  | init | assert | assume =>
    obtain ⟨k, rfl⟩ := List.length_eq_one_iff.1 h
    rfl
  | seq | compound | assign =>
    obtain ⟨k, l, rfl⟩ := List.length_eq_two.1 h
    rfl
  | ite =>
    obtain ⟨k, l, o, rfl⟩ := List.length_eq_three.1 h
    rfl
  | call =>
    cases ks with
    | nil => cases h
    | cons => rfl
  | new | method =>
    rcases List.eq_nil_or_concat ks with rfl | ⟨ks, k, rfl⟩
    · simp [children] at h
    · simp [refill, children]
  | proof terms hints verbatims =>
    rw [children, List.length_append] at h
    have hdrop : (ks.drop terms.length).length = (hints.filterMap id).length := by
      rw [List.length_drop]
      omega
    rw [refill, children, present_refillHints hdrop, List.take_append_drop]

/-! ## Traversing -/

section Traverse

variable {m : Type → Type} [Monad m] [LawfulMonad m]

theorem mapM_hints {f : α → m β} {hints : List (Option α)} :
    (hints.mapM fun hint =>
      match hint with
      | none => pure none
      | some h => do return some (← f h)) =
      refillHints hints <$> (hints.filterMap fun h => h).mapM f := by
  induction hints with
  | nil => simp [refillHints]
  | cons hint hints ih =>
    rw [List.mapM_cons, ih]
    cases hint with
    | none => simp [refillHints]
    | some => simp [refillHints]

/-- To rebuild a shape is to act on the list of its children and to refill it with the results. -/
theorem traverse_eq {f : Slot → α → m β} (s : Shape α) :
    s.traverse f = s.refill <$> s.slotted.mapM fun p => f p.1 p.2 := by
  cases s with
  | new | method => simp [traverse, slotted, refill, List.mapM_map, Function.comp_def]
  | tuple | script =>
    simp only [traverse, slotted, List.mapM_map, bind_pure_comp]
    rfl
  | proof terms hints verbatims =>
    have hrefill : ∀ ts : List β, ts.length = terms.length →
        (refillHints hints <$> (hints.filterMap fun h => h).mapM (f .any) >>= fun hs =>
          pure (proof ts hs verbatims)) =
        (hints.filterMap fun h => h).mapM (f .any) >>= fun ks =>
          pure ((proof terms hints verbatims).refill (ts ++ ks)) := by
      intro ts hts
      rw [bind_map_left]
      refine bind_congr fun ks => ?_
      rw [refill, List.take_left' hts, List.drop_left' hts]
    calc (proof terms hints verbatims).traverse f
        = (terms.mapM (f .any) >>= fun ts =>
            refillHints hints <$> (hints.filterMap fun h => h).mapM (f .any) >>= fun hs =>
              pure (proof ts hs verbatims)) :=
          bind_congr fun ts => congrArg (· >>= _) mapM_hints
      _ = (terms.mapM (f .any) >>= fun ts =>
            (hints.filterMap fun h => h).mapM (f .any) >>= fun ks =>
              pure ((proof terms hints verbatims).refill (ts ++ ks))) := mapM_bind_congr hrefill
      _ = _ := by simp [slotted, List.mapM_map, Function.comp_def]
  | _ => simp [traverse, slotted, refill, List.mapM_map, Function.comp_def]

end Traverse

/-! ## The positions of the children -/

theorem map_slotted (s : Shape α) : s.slotted.map Prod.snd = s.children := by
  cases s <;> simp [slotted, children, Function.comp_def]

theorem mem_children_of_slotted (s : Shape α) {slot : Slot} {k : α}
    (h : (slot, k) ∈ s.slotted) : k ∈ s.children := by
  rw [← s.map_slotted]
  exact List.mem_map_of_mem h

theorem slotted_map (f : α → β) (s : Shape α) :
    (s.map f).slotted = s.slotted.map fun p => (p.1, f p.2) := by
  cases s <;> simp [map, slotted, Function.comp_def, List.filterMap_map, List.map_filterMap]

theorem slots_map (f : α → β) (s : Shape α) :
    (s.map f).slotted.map Prod.fst = s.slotted.map Prod.fst := by
  rw [slotted_map, List.map_map]
  rfl

/-- What is left of a shape without its children does not change when it is refilled. -/
theorem frame_refill {s : Shape α} {ks : List β} (h : ks.length = s.children.length) :
    (s.refill ks).map (fun _ => ()) = s.map fun _ => () := by
  have hunits : ks.map (fun _ => ()) = s.children.map fun _ => () := by simp [h]
  rw [map_refill, hunits, refill_map]

theorem tag_of_frame {s : Shape α} {t : Shape β}
    (h : s.map (fun _ => ()) = t.map fun _ => ()) : s.tag = t.tag := by
  rw [← tag_map (fun _ => ()) s, h, tag_map]

/-- A refilled shape has the new children in the positions of the old ones. -/
theorem slotted_refill {s : Shape α} {ks : List β} (h : ks.length = s.children.length) :
    (s.refill ks).slotted = (s.slotted.map Prod.fst).zip ks := by
  have hslots : (s.refill ks).slotted.map Prod.fst = s.slotted.map Prod.fst := by
    rw [← slots_map (fun _ => ()), frame_refill h, slots_map]
  have hchildren : (s.refill ks).slotted.map Prod.snd = ks := by
    rw [map_slotted, children_refill h]
  exact List.zip_of_prod hslots hchildren

end Shape

end ProofScript
