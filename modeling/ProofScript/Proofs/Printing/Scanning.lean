import ProofScript.Proofs.Code.Heading
import ProofScript.Proofs.Printing.Expr

/-!
# Scanning printed tokens

A token that is written on its own ends where a blank begins (`cutsOff_of_isPlain`).
-/

namespace ProofScript.Token

namespace Kind

/-- Whether a token can be written on its own. -/
def isPlain : Kind → Bool
  | keyword _ | symbol _ => true
  | name text => isIdentifier text
  | number n => decide (0 ≤ n)
  | verbatim _ | eof => false

end Kind

/-- The text ends, or a blank comes next. -/
def AtBlank (cs : List Char) : Prop := cs = [] ∨ ∃ rest, cs = ' ' :: rest

/-- The text of a token has been cut off in front of a blank. -/
def CutsOff (k : Kind) (cs : List Char) : Prop :=
  ∀ rest, AtBlank rest → ∃ c tail l, cs ++ rest = c :: tail ∧ isSpace c = false ∧
    lexeme? c tail = .ok l ∧ l.kind = some k ∧ l.rest = rest

/-- A run of characters ends in front of a blank. -/
theorem run_ends {p : Char → Bool} {cs rest : List Char} (hp : p ' ' = false)
    (hcs : ∀ c ∈ cs, p c = true) (hrest : AtBlank rest) :
    (cs ++ rest).takeWhile p = cs ∧ (cs ++ rest).dropWhile p = rest := by
  rcases hrest with rfl | ⟨after, rfl⟩
  · rw [List.takeWhile_append_of_pos hcs, List.dropWhile_append_of_pos hcs]
    exact ⟨List.append_nil cs, rfl⟩
  · exact ⟨takeWhile_stop hcs hp, dropWhile_stop hcs hp⟩

theorem cutsOff_symbol (s : Symbol) : CutsOff (.symbol s) s.spelling.toList := by
  intro rest hrest
  rcases hrest with rfl | ⟨after, rfl⟩
  · cases s <;> exact ⟨_, _, _, rfl, by decide, rfl, rfl, rfl⟩
  · cases s <;> exact ⟨_, _, _, rfl, by decide, rfl, rfl, rfl⟩

/-- A character that belongs to a word or a number is no blank. -/
theorem isSpace_of_isNameChar {c : Char} (h : Text.isNameChar c = true) : isSpace c = false := by
  have hblanks : ∀ b ∈ [' ', '\t', '\r', '\n', '\x0c'], Text.isNameChar b = false := by
    simp [Text.isNameChar, Text.isNameStart, Text.isDigit]
  cases hc : isSpace c with
  | false => rfl
  | true =>
    have hmem : c ∈ [' ', '\t', '\r', '\n', '\x0c'] := by
      simpa [isSpace, or_assoc] using hc
    rw [hblanks c hmem] at h
    cases h

/-- A word is a keyword or a name. -/
theorem cutsOff_word {text : String} (h : Text.isName text.toList = true) :
    CutsOff (Kind.ofWord text) text.toList := by
  intro rest hrest
  cases hlist : text.toList with
  | nil => simp [hlist, Text.isName] at h
  | cons c cs =>
    rw [hlist, Text.isName, Bool.and_eq_true] at h
    obtain ⟨hstart, hchars⟩ := h
    have hspace : isSpace c = false :=
      isSpace_of_isNameChar (by rw [Text.isNameChar, hstart, Bool.true_or])
    obtain ⟨htake, hdrop⟩ := run_ends (by decide) (List.all_eq_true.1 hchars) hrest
    have hlex : lexeme? c (cs ++ rest) = .ok (run Text.isNameChar
        (fun text => some (Kind.ofWord (String.ofList text))) c (cs ++ rest)) := by
      unfold lexeme?
      rw [if_neg (by simp [hspace]), if_pos hstart]
    refine ⟨c, cs ++ rest, _, rfl, hspace, hlex, ?_, hdrop⟩
    show some (Kind.ofWord (String.ofList (c :: (cs ++ rest).takeWhile Text.isNameChar))) = _
    rw [htake, ← hlist, String.ofList_toList]

theorem isNameStart_of_isDigit {c : Char} (h : Text.isDigit c = true) :
    Text.isNameStart c = false := by
  simp only [Text.isDigit, Bool.and_eq_true, decide_eq_true_eq, Char.le_def,
    UInt32.le_iff_toNat_le] at h
  have hblank : c ≠ '_' := by
    rintro rfl
    exact absurd h.2 (by decide)
  simp only [Text.isNameStart, Bool.or_eq_false_iff, Bool.and_eq_false_iff, decide_eq_false_iff_not,
    Char.le_def, UInt32.le_iff_toNat_le, beq_eq_false_iff_ne]
  have h9 : '9'.val.toNat = 57 := rfl
  have ha : 'a'.val.toNat = 97 := rfl
  have hA : 'A'.val.toNat = 65 := rfl
  exact ⟨⟨.inl (by omega), .inl (by omega)⟩, hblank⟩

/-- The digits of a number have its value. -/
theorem digitsValue_toDigits (n : Nat) : Text.digitsValue (Nat.toDigits 10 n) = n := by
  have h := Nat.ofDigitChars_ten_toDigits (n := n)
  rw [Nat.ofDigitChars_eq_foldl] at h
  rw [Text.digitsValue]
  simpa only [Text.digitValue, Nat.mul_comm] using h

/-- A number is the run of its digits. -/
theorem cutsOff_number {n : Int64} (h : 0 ≤ n) : CutsOff (.number n) (Text.decimal n).toList := by
  intro rest hrest
  have hnonneg : 0 ≤ n.toInt := by simpa using Int64.le_iff_toInt_le.1 h
  obtain ⟨m, hm⟩ := Int.eq_ofNat_of_zero_le hnonneg
  have hbound : m < 2 ^ 63 := by
    have := n.toInt_lt
    omega
  have htext : (Text.decimal n).toList = Nat.toDigits 10 m := by
    rw [Text.decimal, hm]
    exact Nat.toList_repr
  have hdigits : ∀ c ∈ Nat.toDigits 10 m, Text.isDigit c = true := fun c hc =>
    Nat.isDigit_of_mem_toDigits (by decide) (by decide) hc
  have hvalue := digitsValue_toDigits m
  rw [htext]
  cases hlist : Nat.toDigits 10 m with
  | nil => exact absurd hlist Nat.toDigits_ne_nil
  | cons c cs =>
    rw [hlist] at hdigits hvalue
    obtain ⟨hc, hcs⟩ := List.forall_mem_cons.1 hdigits
    have hspace : isSpace c = false :=
      isSpace_of_isNameChar (by rw [Text.isNameChar, hc, Bool.or_true])
    have hstart := isNameStart_of_isDigit hc
    obtain ⟨htake, hdrop⟩ := run_ends (by decide) hcs hrest
    have hlex : lexeme? c (cs ++ rest) = .ok
        { kind := some (.number n), text := c :: cs, rest := rest } := by
      unfold lexeme?
      rw [if_neg (by simp [hspace]), if_neg (by simp [hstart]), if_pos hc]
      simp only [htake, hdrop, hvalue]
      rw [if_pos (by unfold Text.maxInt64; omega)]
      have hn : Int64.ofNat m = n := by
        rw [← Int64.toInt_inj, Int64.toInt_ofNat_of_lt hbound, hm]
      rw [hn]
    exact ⟨c, cs ++ rest, _, rfl, hspace, hlex, rfl, rfl⟩

/-- Plain tokens are cut off in front of a blank. -/
theorem cutsOff_of_isPlain {k : Kind} (h : k.isPlain = true) : CutsOff k k.spelling.toList := by
  cases k with
  | keyword word =>
    have hword : ∀ word : Keyword, Text.isName word.spelling.toList = true ∧
        Kind.ofWord word.spelling = .keyword word := by
      intro word
      cases word <;> decide
    have hcut := cutsOff_word (hword word).1
    rwa [(hword word).2] at hcut
  | symbol s => exact cutsOff_symbol s
  | name text =>
    simp only [Kind.isPlain, isIdentifier, Bool.and_eq_true] at h
    have hcut := cutsOff_word h.1
    rwa [Kind.ofWord, Option.isNone_iff_eq_none.1 h.2] at hcut
  | number n => exact cutsOff_number (of_decide_eq_true h)
  | verbatim _ | eof => cases h

end ProofScript.Token
