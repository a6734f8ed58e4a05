import Mathlib.Data.List.Induction
import Mathlib.Data.List.Nodup
import ProofScript.Code.Fresh
import ProofScript.Proofs.Script.Claims
import ProofScript.Proofs.Text.Aligned

/-!
# The names of claims

Every claim is checked under a name that is made of a stem and a number, where the claims with the
same stem are numbered from zero in the order of the script. The names of the claims of a script are
all different, and they differ from every other name that is drawn.
-/

namespace ProofScript

/-! ## Fresh names -/

namespace FreshNames

/-- Drawing a name counts for its own stem only. -/
theorem count_fresh (names : FreshNames) (stem other : String) :
    (names.fresh stem).2.count other =
      if other = stem then names.count stem + 1 else names.count other := by
  simp only [fresh, count, NameMap.get?_insert]
  split <;> rfl

end FreshNames

namespace Claim

/-- The stems of claims. -/
def stems : List String := ["assertion", "equivalent", "admitted", "validrewrite", "run"]

/-- The name of the claim that comes after `n` others with the same stem. -/
def numbered (stem : String) (n : Nat) : String := stem ++ n.repr

/-- The names of claims with the given stems, in order. -/
def names (stems : List String) : List String :=
  stems.mapIdx fun i stem => numbered stem ((stems.take i).count stem)

/-- Whether a name is the stem of a claim with a number. -/
def isName (name : String) : Bool :=
  stems.any fun stem =>
    stem.toList.isPrefixOf name.toList && (name.toList.drop stem.toList.length).all Char.isDigit

theorem toList_numbered (stem : String) (n : Nat) :
    (numbered stem n).toList = stem.toList ++ Nat.toDigits 10 n := by
  simp [numbered, Nat.toList_repr]

/-- A property of digits, and of the characters of the stem. -/
theorem forall_mem_numbered {p : Char → Prop} {stem : String} (hstem : ∀ c ∈ stem.toList, p c)
    (hdigit : ∀ c : Char, c.isDigit = true → p c) (n : Nat) :
    ∀ c ∈ (numbered stem n).toList, p c := by
  intro c hc
  rw [toList_numbered] at hc
  rcases List.mem_append.1 hc with hc | hc
  · exact hstem c hc
  · exact hdigit c (Text.isDigit_of_mem_toDigits hc)

/-- The name of a claim has only letters and digits. -/
theorem isAlphanum_of_mem {stem : String} {n : Nat} {c : Char} (h : stem ∈ stems)
    (hc : c ∈ (numbered stem n).toList) : c.isAlphanum = true := by
  have plain : ∀ stem ∈ stems, ∀ c ∈ stem.toList, c.isAlphanum = true := by simp [stems]
  have hdigit : ∀ c : Char, c.isDigit = true → c.isAlphanum = true := by
    intro c hc
    rw [Char.isAlphanum, hc, Bool.or_true]
  exact forall_mem_numbered (plain stem h) hdigit n c hc

theorem isName_numbered {stem : String} (h : stem ∈ stems) (n : Nat) :
    isName (numbered stem n) = true := by
  refine List.any_eq_true.2 ⟨stem, h, ?_⟩
  rw [toList_numbered]
  simp only [Bool.and_eq_true, List.isPrefixOf_iff_prefix, List.prefix_append, true_and,
    List.drop_left, List.all_eq_true]
  exact fun c hc => Text.isDigit_of_mem_toDigits hc

/-- No stem of a claim starts with `text`, and `text` starts with none. -/
def IsForeign (text : String) : Prop :=
  ∀ stem ∈ stems, ¬stem.toList <+: text.toList ∧ ¬text.toList <+: stem.toList

/-- A name that starts differently from all stems is no name of a claim. -/
theorem isName_of_isForeign {text : String} (h : IsForeign text) {name : String}
    (hname : text.toList <+: name.toList) : isName name = false := by
  refine List.any_eq_false.2 fun stem hstem => ?_
  obtain ⟨hleft, hright⟩ := h stem hstem
  simp only [Bool.and_eq_true, List.isPrefixOf_iff_prefix, not_and]
  intro hprefix
  rcases List.prefix_or_prefix_of_prefix hprefix hname with h | h
  · exact absurd h hleft
  · exact absurd h hright

instance (text : String) : Decidable (IsForeign text) := by
  unfold IsForeign
  infer_instance

/-- The name of a claim with an underscore behind it is no longer one. -/
theorem isName_underscore {stem : String} {n : Nat} {name : String} {rest : List Char}
    (hstem : stem ∈ stems) (hname : name.toList = (numbered stem n).toList ++ '_' :: rest) :
    isName name = false := by
  refine List.any_eq_false.2 fun other hother => ?_
  rw [hname, toList_numbered]
  simp only [Bool.and_eq_true, List.isPrefixOf_iff_prefix, not_and]
  intro hprefix
  have incomparable : ∀ a ∈ stems, ∀ b ∈ stems, a.toList <+: b.toList → a = b := by decide
  have heq : other = stem := by
    rw [List.append_assoc] at hprefix
    rcases List.prefix_or_prefix_of_prefix hprefix (List.prefix_append _ _) with h | h
    · exact incomparable other hother stem hstem h
    · exact (incomparable stem hstem other hother h).symm
  subst heq
  simp [List.append_assoc]

/-! ## Different claims have different names -/

/-- The stem, the number and what is behind it can be told from a text, when the stem has no digits
and no digit is behind the number. -/
theorem numbered_append_inj {stem other : String} {n m : Nat} {r s : List Char}
    (hstem : ∀ c ∈ stem.toList, c.isDigit = false) (hother : ∀ c ∈ other.toList, c.isDigit = false)
    (hr : ∀ c ∈ r.head?, c.isDigit = false) (hs : ∀ c ∈ s.head?, c.isDigit = false)
    (h : (numbered stem n).toList ++ r = (numbered other m).toList ++ s) :
    stem = other ∧ n = m ∧ r = s := by
  rw [toList_numbered, toList_numbered, List.append_assoc, List.append_assoc] at h
  have cutStem : ∀ (text : String) (k : Nat) (rest : List Char),
      (∀ c ∈ text.toList, c.isDigit = false) →
      (text.toList ++ (Nat.toDigits 10 k ++ rest)).takeWhile (fun c => !c.isDigit) =
        text.toList := by
    intro text k rest htext
    rw [List.takeWhile_append_of_pos (by simpa using htext)]
    cases hd : Nat.toDigits 10 k with
    | nil => simp at hd
    | cons d ds =>
      have hdigit : d.isDigit = true := Text.isDigit_of_mem_toDigits (n := k) (by simp [hd])
      simp [hdigit]
  have cutNumber : ∀ (k : Nat) (rest : List Char), (∀ c ∈ rest.head?, c.isDigit = false) →
      (Nat.toDigits 10 k ++ rest).takeWhile Char.isDigit = Nat.toDigits 10 k := by
    intro k rest hrest
    rw [List.takeWhile_append_of_pos fun c hc => Text.isDigit_of_mem_toDigits hc]
    cases rest with
    | nil => simp
    | cons c cs => simp [hrest c rfl]
  have hstems : stem.toList = other.toList := by
    rw [← cutStem stem n r hstem, h, cutStem other m s hother]
  rw [hstems, List.append_cancel_left_eq] at h
  have hnumbers : Nat.toDigits 10 n = Nat.toDigits 10 m := by
    rw [← cutNumber n r hr, h, cutNumber m s hs]
  rw [hnumbers, List.append_cancel_left_eq] at h
  exact ⟨String.toList_injective hstems, Text.toDigits_injective hnumbers, h⟩

theorem numbered_inj {stem other : String} {n m : Nat} (hs : ∀ c ∈ stem.toList, c.isDigit = false)
    (ho : ∀ c ∈ other.toList, c.isDigit = false) (h : numbered stem n = numbered other m) :
    stem = other ∧ n = m := by
  have hlist : (numbered stem n).toList ++ [] = (numbered other m).toList ++ [] := by rw [h]
  obtain ⟨hstem, hnumber, -⟩ := numbered_append_inj hs ho (by simp) (by simp) hlist
  exact ⟨hstem, hnumber⟩

/-- The stems of a list, each with its number. -/
def draws (l : List String) : List (String × Nat) :=
  l.mapIdx fun i stem => (stem, (l.take i).count stem)

theorem draws_snoc (l : List String) (stem : String) :
    draws (l ++ [stem]) = draws l ++ [(stem, l.count stem)] := by
  have same : l.mapIdx (fun i s => (s, ((l ++ [stem]).take i).count s)) = draws l := by
    refine List.mapIdx_eq_mapIdx_iff.2 fun i hi => ?_
    rw [List.take_append_of_le_length (Nat.le_of_lt hi)]
  rw [draws, List.mapIdx_concat, same, List.take_left]

theorem names_eq_map (l : List String) :
    names l = (draws l).map fun draw => numbered draw.1 draw.2 := by
  rw [names, draws, List.mapIdx_eq_zipIdx_map, List.mapIdx_eq_zipIdx_map, List.map_map]
  rfl

theorem names_snoc (l : List String) (stem : String) :
    names (l ++ [stem]) = names l ++ [numbered stem (l.count stem)] := by
  rw [names_eq_map, draws_snoc, List.map_append, names_eq_map]
  rfl

/-- The numbers of a stem are those below the number of times it occurs. -/
theorem mem_draws {l : List String} {stem : String} {n : Nat} :
    (stem, n) ∈ draws l ↔ n < l.count stem := by
  induction l using List.reverseRecOn with
  | nil => simp [draws]
  | append_singleton l last ih =>
    rw [draws_snoc, List.mem_append, ih, List.mem_singleton, Prod.mk.injEq, List.count_append]
    by_cases hlast : stem = last
    · subst hlast
      simp only [true_and, List.count_singleton_self]
      omega
    · simp [hlast, Ne.symm hlast]

theorem nodup_draws (l : List String) : (draws l).Nodup := by
  induction l using List.reverseRecOn with
  | nil => exact List.nodup_nil
  | append_singleton l last ih =>
    rw [draws_snoc]
    refine List.nodup_append.2 ⟨ih, List.pairwise_singleton _ _, ?_⟩
    rintro draw hdraw _ hnew rfl
    rw [List.mem_singleton.1 hnew, mem_draws] at hdraw
    exact Nat.lt_irrefl _ hdraw

/-- A name has the stem of a claim, and a number below the number of claims with that stem. -/
theorem mem_names {l : List String} {name : String} (h : name ∈ names l) :
    ∃ stem ∈ l, ∃ n < l.count stem, name = numbered stem n := by
  rw [names_eq_map] at h
  obtain ⟨⟨stem, n⟩, hdraw, rfl⟩ := List.mem_map.1 h
  have hn := mem_draws.1 hdraw
  exact ⟨stem, List.count_pos_iff.1 (Nat.zero_lt_of_lt hn), n, hn, rfl⟩

/-- No two claims have the same name. -/
theorem nodup_names {l : List String} (h : ∀ stem ∈ l, stem ∈ stems) : (names l).Nodup := by
  have plain : ∀ stem ∈ stems, ∀ c ∈ stem.toList, c.isDigit = false := by simp [stems]
  have known : ∀ draw ∈ draws l, draw.1 ∈ stems := by
    rintro ⟨stem, n⟩ hdraw
    exact h stem (List.count_pos_iff.1 (Nat.zero_lt_of_lt (mem_draws.1 hdraw)))
  rw [names_eq_map]
  refine List.Nodup.map_on ?_ (nodup_draws l)
  rintro ⟨stem, n⟩ hdraw ⟨other, m⟩ hother hname
  have hstem := plain stem (known _ hdraw)
  obtain ⟨rfl, rfl⟩ := numbered_inj hstem (plain other (known _ hother)) hname
  rfl

end Claim

end ProofScript
