import ProofScript.Proofs.Action
import ProofScript.Text.Decimal
import ProofScript.Text.Escape

/-!
# Texts that can be read back

A notation can be read back when a text determines what it was written for, and also where it ends
inside a longer text. `Text.Aligned x y p` compares two texts in this way: wherever both start the
same text, `p` holds and they end at the same place. Texts that are put together from aligned texts
are aligned, so a notation is compared constructor by constructor.
-/

namespace ProofScript.Text

/-- Where `x` and `y` start the same text, `p` holds and they end at the same place. -/
def Aligned (x y : String) (p : Prop) : Prop :=
  ∀ r s : List Char, x.toList ++ r = y.toList ++ s → p ∧ r = s

variable {x y x' y' : String} {p q : Prop}

namespace Aligned

/-- Equal texts are compared as a whole. -/
theorem of_eq (h : Aligned x y p) (hxy : x = y) : p := by
  have hsame : x.toList ++ [] = y.toList ++ [] := by rw [hxy]
  exact (h [] [] hsame).1

theorem imp (h : Aligned x y p) (hpq : p → q) : Aligned x y q := by
  intro r s heq
  obtain ⟨hp, hrest⟩ := h r s heq
  exact ⟨hpq hp, hrest⟩

theorem symm (h : Aligned x y p) : Aligned y x p := by
  intro r s heq
  obtain ⟨hp, hrest⟩ := h s r heq.symm
  exact ⟨hp, hrest.symm⟩

theorem self (x : String) : Aligned x x True := by
  intro r s heq
  exact ⟨trivial, List.append_cancel_left heq⟩

/-- One text comes behind another. -/
theorem append (h : Aligned x y p) (h' : Aligned x' y' q) :
    Aligned (x ++ x') (y ++ y') (p ∧ q) := by
  intro r s heq
  rw [String.toList_append, String.toList_append, List.append_assoc, List.append_assoc] at heq
  obtain ⟨hp, hrest⟩ := h _ _ heq
  obtain ⟨hq, hend⟩ := h' _ _ hrest
  exact ⟨⟨hp, hq⟩, hend⟩

/-- The same text stands in front of both. -/
theorem behind (h : Aligned x y p) (w : String) : Aligned (w ++ x) (w ++ y) p :=
  ((self w).append h).imp And.right

/-- Nothing behind the second text lets the first one start the same text. -/
theorem apart (h : Aligned x y False) (w : String) : Aligned x (y ++ w) p := by
  intro r s heq
  rw [String.toList_append, List.append_assoc] at heq
  exact (h _ _ heq).1.elim

/-- The same text stands behind both. -/
theorem followed (h : Aligned x y p) (w : String) : Aligned (x ++ w) (y ++ w) p :=
  (h.append (self w)).imp And.left

end Aligned

/-- Texts that differ behind the same characters start no common text. -/
theorem aligned_of_ne_behind {c d : Char} {cs ds : List Char} (lead : List Char)
    (hx : x.toList = lead ++ c :: cs) (hy : y.toList = lead ++ d :: ds) (hne : c ≠ d) :
    Aligned x y p := by
  intro r s heq
  rw [hx, hy, List.append_assoc, List.append_assoc] at heq
  exact absurd (List.cons.inj (List.append_cancel_left heq)).1 hne

/-- Texts that start differently start no common text. -/
theorem aligned_of_ne {c d : Char} {cs ds : List Char} (hx : x.toList = c :: cs)
    (hy : y.toList = d :: ds) (hne : c ≠ d) : Aligned x y p :=
  aligned_of_ne_behind [] hx hy hne

/-! ## Words -/

/-- A word is read up to the first character that is no part of words. -/
theorem word_inj {part : Char → Bool} {xs ys r s : List Char} {c d : Char}
    (hxs : ∀ a ∈ xs, part a = true) (hys : ∀ a ∈ ys, part a = true) (hc : part c = false)
    (hd : part d = false) (h : xs ++ c :: r = ys ++ d :: s) : xs = ys ∧ c = d ∧ r = s := by
  induction xs generalizing ys with
  | nil =>
    cases ys with
    | nil =>
      obtain ⟨hcd, hrs⟩ := List.cons.inj h
      exact ⟨rfl, hcd, hrs⟩
    | cons b ys =>
      obtain ⟨rfl, -⟩ := List.cons.inj h
      rw [hys _ List.mem_cons_self] at hc
      cases hc
  | cons a xs ih =>
    obtain ⟨ha, hxs⟩ := List.forall_mem_cons.1 hxs
    cases ys with
    | nil =>
      obtain ⟨rfl, -⟩ := List.cons.inj h
      rw [ha] at hd
      cases hd
    | cons b ys =>
      obtain ⟨rfl, hrest⟩ := List.cons.inj h
      obtain ⟨rfl, hend⟩ := ih hxs (List.forall_mem_cons.1 hys).2 hrest
      exact ⟨rfl, hend⟩

/-- A word stands in front of texts that start with no part of words. -/
theorem Aligned.word_then {part : Char → Bool} {v w x' y' : String} {c d : Char} {cs ds : List Char}
    (h : Aligned x y p) (hv : ∀ a ∈ v.toList, part a = true) (hw : ∀ a ∈ w.toList, part a = true)
    (hx' : x'.toList = c :: cs) (hy' : y'.toList = d :: ds) (hc : part c = false)
    (hd : part d = false) (h' : Aligned x' y' q) :
    Aligned (x ++ v ++ x') (y ++ w ++ y') ((p ∧ v = w) ∧ q) := by
  intro r s heq
  have hparts : x.toList ++ (v.toList ++ c :: (cs ++ r)) =
      y.toList ++ (w.toList ++ d :: (ds ++ s)) := by
    simpa only [String.toList_append, hx', hy', List.append_assoc, List.cons_append] using heq
  obtain ⟨hp, hwords⟩ := h _ _ hparts
  obtain ⟨hvw, hcd, hrest⟩ := word_inj hv hw hc hd hwords
  have hbehind : x'.toList ++ r = y'.toList ++ s := by
    rw [hx', hy', List.cons_append, List.cons_append, hcd, hrest]
  obtain ⟨hq, hend⟩ := h' _ _ hbehind
  exact ⟨⟨⟨hp, String.toList_injective hvw⟩, hq⟩, hend⟩

/-- A word stands in front of a character that is no part of words. -/
theorem Aligned.word {part : Char → Bool} {v w : String} {c : Char} {cs : List Char}
    (h : Aligned x y p) (rest : String) (hv : ∀ a ∈ v.toList, part a = true)
    (hw : ∀ a ∈ w.toList, part a = true) (hrest : rest.toList = c :: cs) (hc : part c = false) :
    Aligned (x ++ v ++ rest) (y ++ w ++ rest) (p ∧ v = w) :=
  (h.word_then hv hw hrest hrest hc hc (Aligned.self rest)).imp And.left

/-! ## Numbers -/

/-- The characters of a number. -/
def isNumeral (c : Char) : Bool := c.isDigit || c == '-'

theorem isDigit_of_mem_toDigits {n : Nat} {c : Char} (h : c ∈ Nat.toDigits 10 n) :
    c.isDigit = true :=
  Nat.isDigit_of_mem_toDigits (by decide) (by decide) h

theorem toDigits_injective {n m : Nat} (h : Nat.toDigits 10 n = Nat.toDigits 10 m) : n = m := by
  have hvalue := congrArg (fun ds => Nat.ofDigitChars 10 ds 0) h
  simpa [Nat.ofDigitChars_ten_toDigits] using hvalue

theorem toList_decimal (n : Int64) : (decimal n).toList =
    if n.toInt < 0 then '-' :: Nat.toDigits 10 n.toInt.natAbs
    else Nat.toDigits 10 n.toInt.natAbs := by
  unfold decimal
  cases n.toInt with
  | ofNat m => simp [Int.repr, Nat.toList_repr]
  | negSucc m => simp [Int.repr, Nat.toList_repr, Int.negSucc_lt_zero]

theorem isNumeral_of_mem_decimal {n : Int64} {c : Char} (h : c ∈ (decimal n).toList) :
    isNumeral c = true := by
  rw [toList_decimal] at h
  split at h
  · rcases List.mem_cons.1 h with rfl | h
    · rfl
    · rw [isNumeral, isDigit_of_mem_toDigits h, Bool.true_or]
  · rw [isNumeral, isDigit_of_mem_toDigits h, Bool.true_or]

/-- A number is determined by its digits and its sign. -/
theorem decimal_injective {n m : Int64} (h : decimal n = decimal m) : n = m := by
  have hlist := congrArg String.toList h
  have minus : ∀ (k : Nat) (ds : List Char), Nat.toDigits 10 k ≠ '-' :: ds := by
    intro k ds heq
    have hmem : '-' ∈ Nat.toDigits 10 k := by simp [heq]
    exact absurd (isDigit_of_mem_toDigits hmem) (by decide)
  rw [toList_decimal, toList_decimal] at hlist
  split at hlist <;> split at hlist
  · next hn hm =>
    have habs := toDigits_injective (List.cons.inj hlist).2
    exact Int64.toInt_inj.1 (by omega)
  · exact absurd hlist.symm (minus _ _)
  · exact absurd hlist (minus _ _)
  · next hn hm =>
    have habs := toDigits_injective hlist
    exact Int64.toInt_inj.1 (by omega)

/-! ## Computations of texts -/

/-- Wherever both computations have results, the results are aligned. -/
def AlignedResults {ε : Type} (x y : Except ε String) (p : Prop) : Prop :=
  ∀ t u, x = .ok t → y = .ok u → Aligned t u p

variable {ε α β : Type}

theorem alignedResults_ok (h : Aligned x y p) :
    AlignedResults (.ok x : Except ε String) (.ok y) p := by
  intro t u ht hu
  cases ht
  cases hu
  exact h

/-- The first steps are known to have had results. -/
theorem alignedResults_bind {m n : Except ε α} {f g : α → Except ε String}
    (h : ∀ a b, m = .ok a → n = .ok b → AlignedResults (f a) (g b) p) :
    AlignedResults (m >>= f) (n >>= g) p := by
  intro t u ht hu
  obtain ⟨a, ha, hfa⟩ := ok_of_bind ht
  obtain ⟨b, hb, hgb⟩ := ok_of_bind hu
  exact h a b ha hb t u hfa hgb

/-- The results of the first steps are aligned. -/
theorem AlignedResults.bind {m n : Except ε String} {f g : String → Except ε String}
    (h : AlignedResults m n p) (hfg : ∀ a b, Aligned a b p → AlignedResults (f a) (g b) q) :
    AlignedResults (m >>= f) (n >>= g) q :=
  alignedResults_bind fun a b ha hb => hfg a b (h a b ha hb)

/-- Lists are aligned when their members are, if the text of a list is put together member by member
and tells where the list ends. What is compared of a member is told by `key`. -/
theorem aligned_mapM {f : α → Except ε String} (key : α → β) {text : List String → String}
    (link : String → String → String)
    (hend : ∀ x xs, Aligned (text []) (text (x :: xs)) False)
    (hcons : ∀ x xs, text (x :: xs) = link x (text xs))
    (hlink : ∀ {x y xs ys : String} {p q : Prop}, Aligned x y p → Aligned xs ys q →
      Aligned (link x xs) (link y ys) (p ∧ q))
    {as bs : List α} {xs ys : List String}
    (h : ∀ a ∈ as, ∀ b ∈ bs, AlignedResults (f a) (f b) (key a = key b))
    (hxs : (as.map f).mapM id = .ok xs) (hys : (bs.map f).mapM id = .ok ys) :
    Aligned (text xs) (text ys) (as.map key = bs.map key) := by
  rw [List.mapM_map] at hxs hys
  replace hxs := forall₂_of_mapM hxs
  replace hys := forall₂_of_mapM hys
  induction hxs generalizing bs ys with
  | nil =>
    cases hys with
    | nil => exact (Aligned.self _).imp fun _ => rfl
    | cons hy hys => exact (hend _ _).imp False.elim
  | @cons a x as xs hx hxs ih =>
    cases hys with
    | nil => exact (hend _ _).symm.imp False.elim
    | @cons b y bs ys hy hys =>
      have hhead := h a List.mem_cons_self b List.mem_cons_self x y hx hy
      have htail := ih (fun a' ha b' hb =>
        h a' (List.mem_cons_of_mem _ ha) b' (List.mem_cons_of_mem _ hb)) hys
      rw [hcons, hcons]
      refine (hlink hhead htail).imp ?_
      rintro ⟨hkey, hkeys⟩
      rw [List.map_cons, List.map_cons, hkey, hkeys]

end ProofScript.Text
