import ProofScript.Node
import ProofScript.Proofs.Text.Aligned

/-!
# The constructors of the language model

Both notations write a construct with the same constructor of the language model. The constructors
are told apart at the start of a text, so a text shows which construct it was written for.

Both notations also write a literal value in the same way, as a number behind an opening of its own.
-/

namespace ProofScript

namespace Tag

/-- The constructors of the language model. What directs a proof has none. -/
def constructors : List (Tag × String) :=
  [(const, "EConst"), (var, "EVar"), (tuple, "ETuple"), (seq, "ESeq"), (compound, "ECVar"),
    (init, "Init"), (new, "ENew"), (method, "EMethod"), (assign, "EAssign"), (call, "ECall"),
    (ite, "EITE"), (nop, "ENop")]

/-- A text opens with the constructor of a construct, behind some fixed characters. -/
def Opens (tag : Tag) (lead : List Char) (text : String) : Prop :=
  ∃ name, (tag, name) ∈ constructors ∧ lead ++ name.toList <+: text.toList

/-- No constructor starts like another one. -/
theorem eq_of_starts : ∀ a ∈ constructors, ∀ b ∈ constructors,
    a.2.toList <+: b.2.toList → a.1 = b.1 := by
  decide

/-- The texts of different constructs are told apart. -/
theorem Opens.aligned {t u : Tag} {lead : List Char} {x y : String} {p : Prop}
    (hx : t.Opens lead x) (hy : u.Opens lead y) (hne : t ≠ u) : Text.Aligned x y p := by
  obtain ⟨v, hv, hvx⟩ := hx
  obtain ⟨w, hw, hwy⟩ := hy
  intro r s heq
  -- Both constructors stand at the start of the common text.
  have hleft : lead ++ v.toList <+: x.toList ++ r := hvx.trans (List.prefix_append _ _)
  have hright : lead ++ w.toList <+: x.toList ++ r := by
    rw [heq]
    exact hwy.trans (List.prefix_append _ _)
  rcases List.prefix_or_prefix_of_prefix hleft hright with h | h
  · exact absurd (eq_of_starts _ hv _ hw ((List.prefix_append_right_inj _).1 h)) hne
  · exact absurd (eq_of_starts _ hw _ hv ((List.prefix_append_right_inj _).1 h)).symm hne

/-- The results of a computation open with the constructor of a construct. -/
def Leads {ε : Type} (tag : Tag) (lead : List Char) (x : Except ε String) : Prop :=
  ∀ text, x = .ok text → tag.Opens lead text

variable {ε α : Type} {tag : Tag} {lead : List Char} {text name : String}

theorem leads_ok (hname : (tag, name) ∈ constructors) (h : lead ++ name.toList <+: text.toList) :
    tag.Leads lead (.ok text : Except ε String) := by
  intro text' htext
  cases htext
  exact ⟨name, hname, h⟩

theorem leads_error {e : ε} : tag.Leads lead (.error e) := by
  intro _ h
  cases h

theorem leads_bind {m : Except ε α} {f : α → Except ε String} (h : ∀ a, tag.Leads lead (f a)) :
    tag.Leads lead (m >>= f) := by
  intro text htext
  obtain ⟨a, -, ha⟩ := ok_of_bind htext
  exact h a text ha

end Tag

/-! ## Literal values -/

/-- A notation for literal values shows the value, when it tells the numbers from nil. -/
theorem Value.aligned {text : Value → String} (opening : String)
    (hint : ∀ n, text (.int n) = opening ++ Text.decimal n ++ ")")
    (hne : ∀ n, Text.Aligned (text (.int n)) (text .nil) False) (v w : Value) :
    Text.Aligned (text v) (text w) (v = w) := by
  cases v with
  | int n =>
    cases w with
    | int m =>
      rw [hint, hint]
      refine ((Text.Aligned.self opening).word ")"
        (fun _ => Text.isNumeral_of_mem_decimal) (fun _ => Text.isNumeral_of_mem_decimal)
        rfl (by decide)).imp ?_
      rintro ⟨-, h⟩
      rw [Text.decimal_injective h]
    | nil => exact (hne n).imp False.elim
  | nil =>
    cases w with
    | int m => exact (hne m).symm.imp False.elim
    | nil => exact (Text.Aligned.self _).imp fun _ => rfl

end ProofScript
