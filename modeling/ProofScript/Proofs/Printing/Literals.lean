import Mathlib.Algebra.Group.Int.Defs
import ProofScript.Proofs.Printing.RoundTrip
import ProofScript.Proofs.Text.Blank
import ProofScript.Seed

/-!
# Signed literals

A number can stand behind any number of signs. The signs become part of the number, so the text is
read as one constant (`reads_signs`). The range of a number is checked when the text is cut into
tokens, before any sign is seen: what counts is the number itself, and not its value behind the
signs (`refused_signs`). The two differ for the least 64-bit integer, which no literal denotes.
-/

namespace ProofScript

open Grammar (Reads Opens)
open Token (Kind Lexeme Starts Scans)

/-- A sign in front of an expression. -/
inductive Sign where
  /-- `+`. -/
  | plus
  /-- `-`. -/
  | minus
  deriving DecidableEq, Repr

namespace Sign

/-- The symbol of a sign. -/
def symbol : Sign → Symbol
  | plus => .plus
  | minus => .minus

/-- The character of a sign. -/
def char : Sign → Char
  | plus => '+'
  | minus => '-'

/-- The integer that a sign makes of an integer. -/
def apply : Sign → Int → Int
  | plus, v => v
  | minus, v => -v

/-- Signs in front of a text, each with the number of spaces behind it. -/
def write : List (Sign × Nat) → List Char → List Char
  | [], cs => cs
  | (sign, spaces) :: signs, cs => sign.char :: (List.replicate spaces ' ' ++ write signs cs)

/-- The integer that signs make of an integer. -/
def applyAll (signs : List (Sign × Nat)) (v : Int) : Int :=
  signs.foldr (fun sign v => sign.1.apply v) v

theorem prefixOperator?_symbol (sign : Sign) :
    Grammar.prefixOperator? (.symbol sign.symbol) = some sign.symbol := by
  cases sign with
  | plus | minus => rfl

theorem natAbs_applyAll (signs : List (Sign × Nat)) (v : Int) :
    (applyAll signs v).natAbs = v.natAbs := by
  induction signs with
  | nil => rfl
  | cons sign signs ih =>
    obtain ⟨sign, spaces⟩ := sign
    rw [← ih]
    cases sign with
    | plus => rfl
    | minus => exact Int.natAbs_neg _

end Sign

/-- A decimal number behind signs. -/
structure SignedLiteral where
  /-- The signs, each with the number of spaces behind it. -/
  signs : List (Sign × Nat)
  /-- The digits of the number. -/
  digits : List Char
  /-- There is a digit. -/
  nonempty : digits ≠ []
  /-- There is nothing else than digits. -/
  decimal : ∀ c ∈ digits, Text.isDigit c = true

namespace SignedLiteral

/-- How a literal is written. -/
def text (l : SignedLiteral) : String := String.ofList (Sign.write l.signs l.digits)

/-- The value of a literal, of any size. -/
def value (l : SignedLiteral) : Int := Sign.applyAll l.signs (Text.digitsValue l.digits)

theorem natAbs_value (l : SignedLiteral) : l.value.natAbs = Text.digitsValue l.digits :=
  Sign.natAbs_applyAll _ _

end SignedLiteral

/-! ## Scanning -/

namespace Token

variable {c : Char} {cs ds : List Char} {l : Lexeme} {fault : ScanFault} {ks : List Kind}

/-- The scan of a text fails. -/
def Refused (fault : ScanFault) (cs : List Char) : Prop :=
  ∀ offset, ∃ span, scanFrom offset cs = .error { fault := fault, span := span }

/-- A scan fails where a later lexeme does. -/
theorem Refused.lexeme (h : Refused fault l.rest) (here : Starts c cs l) :
    Refused fault (c :: cs) := by
  intro offset
  obtain ⟨span, hrest⟩ := h (offset + width l.text)
  refine ⟨span, ?_⟩
  rw [scanFrom]
  split
  · next fault hfault =>
    rw [lexeme?_of_starts here] at hfault
    cases hfault
  · next l' hl =>
    obtain rfl : l = l' := Except.ok.inj ((lexeme?_of_starts here).symm.trans hl)
    simp only [hrest]

theorem refused_of_lexeme? (h : lexeme? c cs = .error fault) : Refused fault (c :: cs) := by
  intro offset
  refine ⟨ScanFault.span offset c cs fault, ?_⟩
  rw [scanFrom]
  split
  · next fault' hfault =>
    obtain rfl : fault = fault' := Except.error.inj (h.symm.trans hfault)
    rfl
  · next l hl =>
    rw [h] at hl
    cases hl

/-- Blanks in front of a text that starts with none. -/
theorem Refused.spaces (h : Refused fault cs) (hcs : ∀ c ∈ cs.head?, isSpace c = false) (n : Nat) :
    Refused fault (List.replicate n ' ' ++ cs) := by
  cases n with
  | zero => exact h
  | succ n =>
    have hspaces : (List.replicate n ' ').takeWhile isSpace = List.replicate n ' ' :=
      List.takeWhile_eq_self_iff.2 fun x hx => (List.eq_of_mem_replicate hx).symm ▸ rfl
    have hrun := run_takeWhile (p := isSpace) (fun _ => none) ' ' (List.replicate n ' ') hcs
    rw [hspaces] at hrun
    have hblank : Starts ' ' (List.replicate n ' ' ++ cs) _ := .blank rfl
    rw [hrun] at hblank
    exact h.lexeme hblank

theorem starts_sign (sign : Sign) (cs : List Char) :
    Starts sign.char cs
      { kind := some (.symbol sign.symbol), text := [sign.char], rest := cs } := by
  cases sign with
  | plus | minus => exact .symbol rfl (by simp [longer, verbatimOpen, Sign.char])

/-- Digits up to the end of the text are one number, or out of range. -/
theorem run_digits (h : ∀ c ∈ cs, Text.isDigit c = true) (kind : List Char → Option Kind)
    (c : Char) :
    run Text.isDigit kind c cs = { kind := kind (c :: cs), text := c :: cs, rest := [] } := by
  rw [run, List.takeWhile_eq_self_iff.2 h, List.dropWhile_eq_nil_iff.2 h]

theorem scans_digits (hne : ds ≠ []) (h : ∀ c ∈ ds, Text.isDigit c = true)
    (hfits : Text.digitsValue ds ≤ Text.maxInt64) :
    Scans ds [.number (Int64.ofNat (Text.digitsValue ds)), .eof] := by
  obtain ⟨c, cs, rfl⟩ := List.exists_cons_of_ne_nil hne
  obtain ⟨hc, hcs⟩ := List.forall_mem_cons.1 h
  have hrun := run_digits hcs numberOf c
  have hstarts : Starts c cs (run Text.isDigit numberOf c cs) := .number hc (by rwa [hrun])
  rw [hrun] at hstarts
  exact .lexeme hstarts .ended

theorem refused_digits (hne : ds ≠ []) (h : ∀ c ∈ ds, Text.isDigit c = true)
    (hlarge : Text.maxInt64 < Text.digitsValue ds) : Refused .numberOutOfRange ds := by
  obtain ⟨c, cs, rfl⟩ := List.exists_cons_of_ne_nil hne
  obtain ⟨hc, hcs⟩ := List.forall_mem_cons.1 h
  refine refused_of_lexeme? ?_
  unfold lexeme?
  rw [if_neg (by simp [isSpace_of_isDigit hc]), if_neg (by simp [isNameStart_of_isDigit hc]),
    if_pos hc]
  simp only [List.takeWhile_eq_self_iff.2 hcs]
  exact if_neg (Nat.not_le.2 hlarge)

/-- Each sign is a token of its own. -/
theorem scans_signs (signs : List (Sign × Nat)) (h : Scans cs ks) :
    Scans (Sign.write signs cs) (signs.map (fun sign => .symbol sign.1.symbol) ++ ks) := by
  induction signs with
  | nil => exact h
  | cons sign signs ih =>
    have hspaces : Scans (List.replicate sign.2 ' ' ++ Sign.write signs cs) _ :=
      ih.spaces fun c hc => (List.eq_of_mem_replicate hc).symm ▸ rfl
    exact .lexeme (starts_sign sign.1 _) hspaces

theorem refused_signs (signs : List (Sign × Nat)) (h : Refused fault cs)
    (hcs : ∀ c ∈ cs.head?, isSpace c = false) : Refused fault (Sign.write signs cs) := by
  induction signs with
  | nil => exact h
  | cons sign signs ih =>
    have hhead : ∀ c ∈ (Sign.write signs cs).head?, isSpace c = false := by
      cases signs with
      | nil => exact hcs
      | cons next signs =>
        intro c hc
        obtain rfl : next.1.char = c := Option.some.inj hc
        cases next.1 with
        | plus | minus => rfl
    exact Refused.lexeme (ih.spaces hhead sign.2) (starts_sign sign.1 _)

end Token

/-! ## Reading -/

section Reading

variable {c : Cursor} {k : Int64} {ks : List Kind}

/-- A sign in front of a constant becomes part of it. -/
theorem unary_sign {n : Node} (sign : Sign) (hn : n.shape = .const (.int k))
    (hk : -2 ^ 63 < k.toInt) (c : Cursor) (span : Span) :
    ∃ m, (c.build (Numbering.unary sign.symbol span n)).1.shape = .const (.int m) ∧
      m.toInt = sign.apply k.toInt := by
  cases sign with
  | plus =>
    refine ⟨k, ?_, rfl⟩
    simp only [Numbering.unary, Sign.symbol, hn]
    rfl
  | minus =>
    refine ⟨-k, ?_, ?_⟩
    · simp only [Numbering.unary, Sign.symbol, hn]
      rfl
    · have hlt := k.toInt_lt
      rw [Int64.toInt_neg, Int.bmod_eq_of_le (by omega) (by omega)]
      rfl

/-- A signed number is read as the constant with its value, when the number itself is in range. -/
theorem reads_signs (signs : List (Sign × Nat)) (hk : 0 ≤ k.toInt)
    (hc : c.kinds = signs.map (fun sign => .symbol sign.1.symbol) ++ [.number k, .eof]) :
    ∃ n c' m, Reads (.level .signed true n) c c' ∧ c'.kinds = [.eof] ∧
      n.shape = .const (.int m) ∧ m.toInt = Sign.applyAll signs k.toInt := by
  induction signs generalizing c with
  | nil =>
    have hnumber := Cursor.kind?_of_kinds hc
    have hrest := Cursor.kinds_advance hc
    have hreads := (Expr.opens_number (d := true) hnumber).reads (by
      rw [Cursor.kind?_eq, Cursor.kinds_build, hrest]
      rfl)
    have hsign : c.kind?.bind Grammar.prefixOperator? = none := by
      rw [hnumber]
      rfl
    exact ⟨_, _, k, .unsigned hsign hreads, hrest, rfl, rfl⟩
  | cons sign signs ih =>
    have hop : c.kind?.bind Grammar.prefixOperator? = some sign.1.symbol := by
      rw [Cursor.kind?_of_kinds hc]
      exact Sign.prefixOperator?_symbol sign.1
    obtain ⟨n, c', m, hreads, hrest, hshape, hm⟩ := ih (Cursor.kinds_advance hc)
    -- The signs do not change the size of the number, so no negation wraps around.
    have hsize := Sign.natAbs_applyAll signs k.toInt
    have hlt := k.toInt_lt
    obtain ⟨m', hshape', hm'⟩ := unary_sign sign.1 hshape (by omega) c' c.span
    refine ⟨_, _, m', .signed hop hreads, hrest, hshape', ?_⟩
    rw [hm', hm]
    rfl

/-- The tokens of a signed number are an expression. -/
theorem soleExpr_signs {ts : List Token} (signs : List (Sign × Nat)) (hk : 0 ≤ k.toInt)
    (hts : ts.map Token.kind = signs.map (fun sign => .symbol sign.1.symbol) ++ [.number k, .eof]) :
    ∃ n m, Grammar.soleExpr ts = .ok n ∧ n.shape = .const (.int m) ∧
      m.toInt = Sign.applyAll signs k.toInt := by
  have heof : Grammar.Ending (some Kind.eof) := by simp [Grammar.Ending]
  obtain ⟨n, c, m, hsigned, hrest, hshape, hm⟩ := reads_signs (c := Cursor.start ts) signs hk hts
  have hnext : c.kind? = some .eof := Cursor.kind?_of_kinds hrest
  have hopens : Opens .logic true (Cursor.start ts) n c :=
    (Grammar.opens_of_reads rfl (by decide) fun _ => hsigned).lift (Nat.zero_le _)
      (fun l _ => hnext ▸ heof.stops l) (by simp)
  obtain ⟨hs, hexpr⟩ := Grammar.expr_of_reads (hopens.reads (hnext ▸ heof.stops _))
  exact ⟨n, m, bind_of_ok hexpr (if_pos hnext), hshape, hm⟩

end Reading

/-! ## Decimal texts -/

namespace Text

theorem digits?_toDigits (m : Nat) : digits? (Nat.toDigits 10 m) = some m := by
  have hdigits : ∀ c ∈ Nat.toDigits 10 m, isDigit c = true := fun c => isDigit_of_mem_toDigits
  rw [digits?, if_neg, Token.digitsValue_toDigits]
  simp [Nat.toDigits_ne_nil, List.all_eq_true.2 hdigits]

/-- A text that starts with no sign is read as a number without one. -/
theorem integer?_digits {ds : List Char} (h : ∀ c ∈ ds, isDigit c = true) :
    integer? ds = (digits? ds).map fun n => (n : Int) := by
  unfold integer?
  split
  · exact absurd (h '-' List.mem_cons_self) (by decide)
  · exact absurd (h '+' List.mem_cons_self) (by decide)
  · rfl

/-- The decimal text of a number is read as the number. -/
theorem int64?_decimal (n : Int64) : int64? (decimal n) = some n := by
  have hinteger : integer? (decimal n).toList = some n.toInt := by
    rw [toList_decimal]
    split
    · rw [integer?, digits?_toDigits]
      exact congrArg some (show -(n.toInt.natAbs : Int) = n.toInt by omega)
    · rw [integer?_digits fun c => isDigit_of_mem_toDigits, digits?_toDigits]
      exact congrArg some (show (n.toInt.natAbs : Int) = n.toInt by omega)
  have hmax : (maxInt64 : Int) = 2 ^ 63 - 1 := rfl
  have hle : -2 ^ 63 ≤ n.toInt := n.minValue_le_toInt
  have hlt := n.toInt_lt
  rw [int64?, hinteger]
  dsimp only
  rw [if_pos (by omega), Int64.ofInt_toInt]

theorem isBlank_of_mem_decimal {n : Int64} {c : Char} (h : c ∈ (decimal n).toList) :
    isBlank c = false := by
  have hnumeral := isNumeral_of_mem_decimal h
  rw [isNumeral, Bool.or_eq_true, beq_iff_eq] at hnumeral
  rcases hnumeral with hdigit | rfl
  · refine isBlank_of_isNameChar ?_
    rw [isNameChar, show isDigit c = true from hdigit, Bool.or_true]
  · rfl

theorem decimal_ne_empty (n : Int64) : (decimal n).isEmpty = false := by
  have hne : (decimal n).toList ≠ [] := by
    rw [toList_decimal]
    split
    · exact List.cons_ne_nil _ _
    · exact Nat.toDigits_ne_nil
  simpa using hne

end Text

/-- An expected integer is written in decimal. -/
theorem Expectation.ofText?_decimal (n : Int64) :
    Expectation.ofText? (Text.decimal n) = some (.int n) := by
  have htrim : Text.trim (Text.decimal n) = Text.decimal n :=
    Text.trim_eq_self fun c => Text.isBlank_of_mem_decimal
  have hnone : Text.decimal n ≠ "None" := by
    intro h
    have hmem : 'N' ∈ (Text.decimal n).toList := by simp [h]
    exact absurd (Text.isNumeral_of_mem_decimal hmem) (by decide)
  have hint : ¬((Text.decimal n).isEmpty || Text.decimal n == "None") = true := by
    simp [Text.decimal_ne_empty, hnone]
  rw [Expectation.ofText?, htrim, if_neg hint, Text.int64?_decimal]

/-- The value of a seed is written in decimal. -/
theorem Seed.ofText_decimal {name : String} (hname : Text.isName name.toList = true) (n : Int64) :
    Seed.ofText (name ++ "=" ++ Text.decimal n) = .ok { name := name, value := n } := by
  have hinside : ∀ c ∈ name.toList, (c != '=') = true := by
    intro c hc
    rw [bne_iff_ne]
    rintro rfl
    exact absurd (Text.isNameChar_of_mem hname hc) (by decide)
  have htext : (name ++ "=" ++ Text.decimal n).toList =
      name.toList ++ '=' :: (Text.decimal n).toList := by simp
  have hempty : ¬name.isEmpty = true := by
    intro hempty
    obtain rfl : name = "" := by simpa using hempty
    cases hname
  have htrim : Text.trim (String.ofList name.toList) = name := by
    rw [String.ofList_toList]
    exact Text.trim_eq_self fun c hc => Text.isBlank_of_isNameChar (Text.isNameChar_of_mem hname hc)
  have hvalue : Text.trim (String.ofList (Text.decimal n).toList) = Text.decimal n := by
    rw [String.ofList_toList]
    exact Text.trim_eq_self fun c => Text.isBlank_of_mem_decimal
  rw [Seed.ofText]
  simp only [htext, dropWhile_stop hinside (show ('=' != '=') = false from rfl),
    takeWhile_stop hinside (show ('=' != '=') = false from rfl), htrim, if_neg hempty, hvalue,
    Text.int64?_decimal]

/-! ## Literals are read back -/

namespace SignedLiteral

/-- The decimal text of an integer is a signed literal. -/
theorem exists_decimal (n : Int64) :
    ∃ l : SignedLiteral, l.text = Text.decimal n ∧ l.value = n.toInt := by
  have hdigits : ∀ c ∈ Nat.toDigits 10 n.toInt.natAbs, Text.isDigit c = true := fun c =>
    Text.isDigit_of_mem_toDigits
  have hvalue := Token.digitsValue_toDigits n.toInt.natAbs
  by_cases hn : n.toInt < 0
  · refine ⟨⟨[(.minus, 0)], _, Nat.toDigits_ne_nil, hdigits⟩, ?_, ?_⟩
    · refine String.toList_injective ?_
      rw [Text.toList_decimal, if_pos hn]
      exact String.toList_ofList
    · show -(Text.digitsValue (Nat.toDigits 10 n.toInt.natAbs) : Int) = _
      omega
  · refine ⟨⟨[], _, Nat.toDigits_ne_nil, hdigits⟩, ?_, ?_⟩
    · refine String.toList_injective ?_
      rw [Text.toList_decimal, if_neg hn]
      exact String.toList_ofList
    · show (Text.digitsValue (Nat.toDigits 10 n.toInt.natAbs) : Int) = _
      omega

variable {l : SignedLiteral}

/-- A literal is read as the constant with its value when its number is in range. -/
theorem ofExpr_of_le (h : Text.digitsValue l.digits ≤ Text.maxInt64) :
    ∃ n k, Node.ofExpr l.text = .ok n ∧ n.shape = .const (.int k) ∧ k.toInt = l.value := by
  have hscan := Token.scans_signs l.signs (Token.scans_digits l.nonempty l.decimal h)
  have hmax : Text.maxInt64 = 2 ^ 63 - 1 := rfl
  have hnumber : (Int64.ofNat (Text.digitsValue l.digits)).toInt = Text.digitsValue l.digits :=
    Int64.toInt_ofNat_of_lt (by omega)
  obtain ⟨ts, hts, hkinds⟩ := hscan.scanFrom 0
  obtain ⟨n, k, hread, hshape, hk⟩ := soleExpr_signs l.signs (by omega) hkinds
  refine ⟨n, k, ?_, hshape, by rw [hk, hnumber, value]⟩
  rw [Node.ofExpr, Node.readWith, Token.scan, text, String.toList_ofList, hts]
  simp only [hread]

/-- A literal whose number is out of range is refused, whatever its value is. -/
theorem ofExpr_of_lt (h : Text.maxInt64 < Text.digitsValue l.digits) :
    ∃ span, Node.ofExpr l.text =
      .error (.scan { fault := .numberOutOfRange, span := span }) := by
  have hdigit : ∀ c ∈ l.digits.head?, Token.isSpace c = false := fun c hc =>
    Token.isSpace_of_isDigit (l.decimal c (List.mem_of_mem_head? hc))
  have hrefused := Token.refused_digits l.nonempty l.decimal h
  obtain ⟨span, hspan⟩ := Token.refused_signs l.signs hrefused hdigit 0
  refine ⟨span, ?_⟩
  rw [Node.ofExpr, Node.readWith, Token.scan, text, String.toList_ofList, hspan]

/-- A literal is read as the constant with its value if the value is a 64-bit integer other than the
least one, and it is refused otherwise. So every other integer is read back from its decimal text,
as seeds and expectations read all of them. -/
theorem ofExpr_signed (l : SignedLiteral) (k : Int64) :
    (if -2 ^ 63 < l.value ∧ l.value < 2 ^ 63 then
        ∃ n m, Node.ofExpr l.text = .ok n ∧ n.shape = .const (.int m) ∧ m.toInt = l.value
      else ∃ span, Node.ofExpr l.text =
        .error (.scan { fault := .numberOutOfRange, span := span })) ∧
    (if k = Int64.minValue then ∃ span, Node.ofExpr (Value.int k).text =
        .error (.scan { fault := .numberOutOfRange, span := span })
      else ∃ n, Node.ofExpr (Value.int k).text = .ok n ∧ n.shape = .const (.int k)) ∧
    Expectation.ofText? (Value.int k).text = some (.int k) ∧
    ∀ name, Text.isName name.toList = true →
      Seed.ofText (name ++ "=" ++ (Value.int k).text) = .ok { name := name, value := k } := by
  have hmax : Text.maxInt64 = 2 ^ 63 - 1 := rfl
  refine ⟨?_, ?_, Expectation.ofText?_decimal k, fun name hname => Seed.ofText_decimal hname k⟩
  · have hsize := l.natAbs_value
    split
    · exact ofExpr_of_le (by omega)
    · exact ofExpr_of_lt (by omega)
  · obtain ⟨l, htext, hvalue⟩ := exists_decimal k
    have hsize := l.natAbs_value
    rw [show (Value.int k).text = l.text from htext.symm]
    split
    · next hk =>
      have hmin : k.toInt = -2 ^ 63 := congrArg Int64.toInt hk
      exact ofExpr_of_lt (by omega)
    · next hk =>
      have hlt := k.toInt_lt
      have hle : -2 ^ 63 ≤ k.toInt := k.minValue_le_toInt
      have hne : k.toInt ≠ -2 ^ 63 := fun h => hk (Int64.toInt_inj.1 h)
      obtain ⟨n, m, hread, hshape, hm⟩ := ofExpr_of_le (l := l) (by omega)
      obtain rfl : m = k := Int64.toInt_inj.1 (hm.trans hvalue)
      exact ⟨n, hread, hshape⟩

/-- Three signs in front of a number, and a seed with the least integer. -/
theorem ofExpr_signed_twice :
    (∃ n k, Node.ofExpr "- +-07" = .ok n ∧ n.shape = .const (.int k) ∧ k.toInt = 7) ∧
      Seed.ofText "seed=-9223372036854775808" =
        .ok { name := "seed", value := Int64.minValue } := by
  obtain ⟨hread, -, -, hseed⟩ := ofExpr_signed
    ⟨[(.minus, 1), (.plus, 0), (.minus, 0)], ['0', '7'], by decide, List.all_eq_true.1 rfl⟩
    Int64.minValue
  rw [if_pos (by decide)] at hread
  exact ⟨hread, hseed "seed" (by decide)⟩

/-- The least 64-bit integer is shown and expected as a text that is no expression. -/
theorem ofExpr_least :
    (Value.int Int64.minValue).text = "-9223372036854775808" ∧
      Expectation.ofText? "-9223372036854775808" = some (.int Int64.minValue) ∧
      ∃ span, Node.ofExpr "-9223372036854775808" =
        .error (.scan { fault := .numberOutOfRange, span := span }) := by
  have htext : (Value.int Int64.minValue).text = "-9223372036854775808" := rfl
  let l : SignedLiteral :=
    ⟨[(.minus, 0)], "9223372036854775808".toList, by decide, List.all_eq_true.1 rfl⟩
  have hread : ∃ span, Node.ofExpr l.text =
      .error (.scan { fault := .numberOutOfRange, span := span }) := ofExpr_of_lt (by decide)
  exact ⟨htext, htext ▸ Expectation.ofText?_decimal _, hread⟩

end SignedLiteral

end ProofScript
