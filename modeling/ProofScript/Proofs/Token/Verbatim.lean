import Mathlib.Data.List.Infix
import ProofScript.Proofs.Text.Bytes
import ProofScript.Proofs.Token.Layout

/-!
# Verbatim blocks

The reader of verbatim blocks counts the braces that are open, beginning with three, and stops at
the brace that closes the last of them. A text either leaves some brace open at every place
(`StaysOpen`), or it has a first place at which none is open any more (`staysOpen_or_closes`). In
the second case the block ends there if three closing braces stand in a row, and there is no block
otherwise. So a block is found exactly when the text can be split as `IsBlock` says.

The count can be kept byte by byte (`verbatimBytes?`). It never falls below zero, and the bytes that
are used up are those of the block.
-/

namespace ProofScript.Token

/-! ## Counting braces -/

/-- The braces in a text are well nested: as many are closed as are opened, and up to no place are
more closed than opened. -/
def WellNested (cs : List Char) : Prop :=
  cs.count '{' = cs.count '}' ∧ ∀ front, front <+: cs → front.count '}' ≤ front.count '{'

instance (cs : List Char) : Decidable (WellNested cs) :=
  decidable_of_iff
    (cs.count '{' = cs.count '}' ∧ ∀ front ∈ cs.inits, front.count '}' ≤ front.count '{')
    (by simp only [WellNested, List.mem_inits])

/-- Behind `depth` open braces, some brace is open at every place of a text. -/
def StaysOpen (depth : Nat) (cs : List Char) : Prop :=
  ∀ front, front <+: cs → front.count '}' < depth + front.count '{'

variable {depth : Nat} {read cs r inner body rest : List Char} {c : Char}

namespace StaysOpen

theorem nil (h : 0 < depth) : StaysOpen depth [] := by
  intro front hfront
  obtain rfl := List.prefix_nil.1 hfront
  exact h

theorem pos (h : StaysOpen depth cs) : 0 < depth := by
  simpa using h [] List.nil_prefix

end StaysOpen

theorem staysOpen_cons : StaysOpen depth (c :: cs) ↔
    0 < depth ∧ ∀ front, front <+: cs →
      (c :: front).count '}' < depth + (c :: front).count '{' := by
  refine ⟨fun h => ⟨h.pos, fun front hfront => h _ (List.cons_prefix_cons.2 ⟨rfl, hfront⟩)⟩, ?_⟩
  rintro ⟨hdepth, hbehind⟩ front hfront
  rcases List.prefix_cons_iff.1 hfront with rfl | ⟨front, rfl, hfront⟩
  · exact hdepth
  · exact hbehind front (List.cons_prefix_cons.1 hfront).2

theorem staysOpen_openBrace (h : 0 < depth) :
    StaysOpen depth ('{' :: cs) ↔ StaysOpen (depth + 1) cs := by
  rw [staysOpen_cons, and_iff_right h]
  refine forall₂_congr fun front _ => ?_
  rw [List.count_cons_self, List.count_cons_of_ne (by decide)]
  omega

theorem staysOpen_closeBrace : StaysOpen (depth + 1) ('}' :: cs) ↔ StaysOpen depth cs := by
  rw [staysOpen_cons, and_iff_right (Nat.succ_pos depth)]
  refine forall₂_congr fun front _ => ?_
  rw [List.count_cons_self, List.count_cons_of_ne (by decide)]
  omega

theorem staysOpen_plain (hopen : c ≠ '{') (hclose : c ≠ '}') :
    StaysOpen depth (c :: cs) ↔ StaysOpen depth cs := by
  simp only [staysOpen_cons, List.count_cons_of_ne hopen, List.count_cons_of_ne hclose]
  exact ⟨And.right, fun h => ⟨StaysOpen.pos h, h⟩⟩

/-- Induction over a text that stays open: each character leaves some brace open behind it. -/
@[elab_as_elim]
theorem StaysOpen.induct {motive : ∀ depth cs, StaysOpen depth cs → Prop}
    (nil : ∀ depth h, motive depth [] h)
    (openBrace : ∀ depth cs h (hcs : StaysOpen (depth + 1) cs), motive (depth + 1) cs hcs →
      motive depth ('{' :: cs) h)
    (closeBrace : ∀ depth cs h (hcs : StaysOpen depth cs), motive depth cs hcs →
      motive (depth + 1) ('}' :: cs) h)
    (plain : ∀ depth c cs h (_ : c ≠ '{') (_ : c ≠ '}') (hcs : StaysOpen depth cs),
      motive depth cs hcs → motive depth (c :: cs) h)
    (h : StaysOpen depth cs) : motive depth cs h := by
  induction cs generalizing depth with
  | nil => exact nil depth h
  | cons c cs ih =>
    by_cases hopen : c = '{'
    · subst hopen
      have hbehind := (staysOpen_openBrace h.pos).1 h
      exact openBrace depth cs h hbehind (ih hbehind)
    · by_cases hclose : c = '}'
      · subst hclose
        obtain ⟨depth, rfl⟩ := Nat.exists_eq_succ_of_ne_zero (Nat.ne_of_gt h.pos)
        have hbehind := staysOpen_closeBrace.1 h
        exact closeBrace depth cs h hbehind (ih hbehind)
      · have hbehind := (staysOpen_plain hopen hclose).1 h
        exact plain depth c cs h hopen hclose hbehind (ih hbehind)

/-- How many braces are open behind a text when `depth` are open in front of it. -/
def openAfter (depth : Nat) (cs : List Char) : Nat := depth + cs.count '{' - cs.count '}'

theorem openAfter_openBrace : openAfter depth ('{' :: cs) = openAfter (depth + 1) cs := by
  rw [openAfter, openAfter, List.count_cons_self, List.count_cons_of_ne (by decide)]
  omega

theorem openAfter_closeBrace : openAfter (depth + 1) ('}' :: cs) = openAfter depth cs := by
  rw [openAfter, openAfter, List.count_cons_self, List.count_cons_of_ne (by decide)]
  omega

theorem openAfter_plain (hopen : c ≠ '{') (hclose : c ≠ '}') :
    openAfter depth (c :: cs) = openAfter depth cs := by
  rw [openAfter, openAfter, List.count_cons_of_ne hopen, List.count_cons_of_ne hclose]

/-- A text that leaves no brace open closes the last one somewhere, for the first time. -/
theorem staysOpen_or_closes (h : 0 < depth) (cs : List Char) : StaysOpen depth cs ∨
    ∃ inner r, cs = inner ++ '}' :: r ∧ StaysOpen depth inner ∧ openAfter depth inner = 1 := by
  induction cs generalizing depth with
  | nil => exact .inl (.nil h)
  | cons c cs ih =>
    by_cases hopen : c = '{'
    · subst hopen
      rcases ih (Nat.succ_pos depth) with hstays | ⟨inner, r, rfl, hinner, hlast⟩
      · exact .inl ((staysOpen_openBrace h).2 hstays)
      · have hone : openAfter depth ('{' :: inner) = 1 := openAfter_openBrace.trans hlast
        exact .inr ⟨_, r, rfl, (staysOpen_openBrace h).2 hinner, hone⟩
    · by_cases hclose : c = '}'
      · subst hclose
        obtain ⟨depth, rfl⟩ := Nat.exists_eq_succ_of_ne_zero (Nat.ne_of_gt h)
        rcases Nat.eq_zero_or_pos depth with rfl | hpos
        · exact .inr ⟨[], cs, rfl, .nil h, rfl⟩
        · rcases ih hpos with hstays | ⟨inner, r, rfl, hinner, hlast⟩
          · exact .inl (staysOpen_closeBrace.2 hstays)
          · have hone : openAfter (depth + 1) ('}' :: inner) = 1 := openAfter_closeBrace.trans hlast
            exact .inr ⟨_, r, rfl, staysOpen_closeBrace.2 hinner, hone⟩
      · rcases ih h with hstays | ⟨inner, r, rfl, hinner, hlast⟩
        · exact .inl ((staysOpen_plain hopen hclose).2 hstays)
        · have hone : openAfter depth (c :: inner) = 1 := (openAfter_plain hopen hclose).trans hlast
          exact .inr ⟨_, r, rfl, (staysOpen_plain hopen hclose).2 hinner, hone⟩

/-! ## The reader of blocks -/

theorem verbatimBody?_openBrace :
    verbatimBody? depth read ('{' :: cs) = verbatimBody? (depth + 1) ('{' :: read) cs := rfl

theorem verbatimBody?_closeBrace (h : 0 < depth) :
    verbatimBody? (depth + 1) read ('}' :: cs) = verbatimBody? depth ('}' :: read) cs :=
  if_neg (Nat.not_le_of_lt (Nat.succ_lt_succ h))

theorem verbatimBody?_plain (hopen : c ≠ '{') (hclose : c ≠ '}') :
    verbatimBody? depth read (c :: cs) = verbatimBody? depth (c :: read) cs := by
  rw [verbatimBody?]
  · exact fun h => absurd h hopen
  · exact fun h => absurd h hclose

/-- A text that stays open is read as a part of the body. -/
theorem verbatimBody?_of_open (h : StaysOpen depth cs) (read r : List Char) :
    verbatimBody? depth read (cs ++ r) =
      verbatimBody? (openAfter depth cs) (cs.reverse ++ read) r := by
  induction h using StaysOpen.induct generalizing read with
  | nil depth h => rfl
  | openBrace depth cs _ _ ih =>
    rw [List.cons_append, List.reverse_cons, List.append_assoc, verbatimBody?_openBrace, ih,
      openAfter_openBrace]
    rfl
  | closeBrace depth cs _ hcs ih =>
    rw [List.cons_append, List.reverse_cons, List.append_assoc, verbatimBody?_closeBrace hcs.pos,
      ih, openAfter_closeBrace]
    rfl
  | plain depth c cs _ hopen hclose _ ih =>
    rw [List.cons_append, List.reverse_cons, List.append_assoc, verbatimBody?_plain hopen hclose,
      ih, openAfter_plain hopen hclose]
    rfl

theorem verbatimBody?_of_staysOpen (h : StaysOpen depth cs) :
    verbatimBody? depth read cs = none := by
  have hread := verbatimBody?_of_open h read []
  rwa [List.append_nil] at hread

/-- The brace that closes the last one ends a block if it is the third one in a row. -/
theorem verbatimBody?_of_ends (h : StaysOpen 3 (body ++ ['}', '}']))
    (hlast : openAfter 3 (body ++ ['}', '}']) = 1) :
    verbatimBody? 3 [] (body ++ ['}', '}'] ++ '}' :: rest) = some (body, rest) := by
  have hread : (body ++ ['}', '}']).reverse ++ [] = '}' :: '}' :: body.reverse := by simp
  rw [verbatimBody?_of_open h, hlast, hread]
  exact congrArg (fun read => some (read, rest)) body.reverse_reverse

/-- The brace that closes the last one ends no block if it is not the third one in a row. -/
theorem verbatimBody?_of_not_ends (h : StaysOpen 3 inner) (hlast : openAfter 3 inner = 1)
    (hends : ¬∃ body, inner = body ++ ['}', '}']) :
    verbatimBody? 3 [] (inner ++ '}' :: rest) = none := by
  rw [verbatimBody?_of_open h, hlast, List.append_nil, verbatimBody?, if_pos (Nat.le_refl 1)]
  intro read hread
  refine hends ⟨read.reverse, ?_⟩
  rw [← List.reverse_reverse inner, hread]
  simp

/-! ## Blocks -/

/-- A text begins with the body of a verbatim block and the braces that close the block. -/
structure IsBlock (cs body rest : List Char) : Prop where
  /-- Three closing braces stand behind the body. -/
  split : cs = body ++ verbatimClose ++ rest
  /-- The body closes as many braces as it opens. -/
  balanced : body.count '{' = body.count '}'
  /-- Up to no place of the body are more than two braces closed that it has not opened. -/
  reach : ∀ front, front <+: body → front.count '}' ≤ front.count '{' + 2

theorem IsBlock.of_wellNested (h : WellNested body) (rest : List Char) :
    IsBlock (body ++ verbatimClose ++ rest) body rest :=
  ⟨rfl, h.1, fun front hfront => Nat.le_add_right_of_le (h.2 front hfront)⟩

theorem IsBlock.of_closes (h : StaysOpen 3 (body ++ ['}', '}']))
    (hlast : openAfter 3 (body ++ ['}', '}']) = 1) :
    IsBlock (body ++ ['}', '}'] ++ '}' :: rest) body rest where
  split := by simp [verbatimClose]
  balanced := by
    rw [openAfter, List.count_append, List.count_append] at hlast
    have hopen : ['}', '}'].count '{' = 0 := rfl
    have hclose : ['}', '}'].count '}' = 2 := rfl
    omega
  reach front hfront := by
    have := h front (hfront.trans (List.prefix_append _ _))
    omega

/-- A block is found exactly where there is one. -/
theorem verbatimBody?_eq_some_iff :
    verbatimBody? 3 [] cs = some (body, rest) ↔ IsBlock cs body rest := by
  constructor
  · intro h
    rcases staysOpen_or_closes (Nat.succ_pos 2) cs with hstays | ⟨inner, r, rfl, hinner, hlast⟩
    · rw [verbatimBody?_of_staysOpen hstays] at h
      cases h
    · by_cases hends : ∃ body, inner = body ++ ['}', '}']
      · obtain ⟨found, rfl⟩ := hends
        rw [verbatimBody?_of_ends hinner hlast] at h
        obtain ⟨rfl, rfl⟩ := Prod.mk.inj (Option.some.inj h)
        exact .of_closes hinner hlast
      · rw [verbatimBody?_of_not_ends hinner hlast hends] at h
        cases h
  · rintro ⟨rfl, hbalanced, hreach⟩
    have hstays : StaysOpen 3 body := by
      intro front hfront
      have := hreach front hfront
      omega
    have hthree : openAfter 3 body = 3 := by
      rw [openAfter]
      omega
    have hends : verbatimBody? 3 body.reverse (verbatimClose ++ rest) =
        some (body.reverse.reverse, rest) := rfl
    rw [List.append_assoc, verbatimBody?_of_open hstays, hthree, List.append_nil, hends,
      List.reverse_reverse]

/-- The body may close two braces in front of those that it opens, and a fourth brace is not a part
of the block. -/
example : verbatimBody? 3 [] "\x7d\x7dé\x7b\x7b\x7d\x7d\x7d\x7d".toList =
    some ("\x7d\x7dé\x7b\x7b".toList, ['}']) := by
  decide

/-! ## Byte by byte -/

/-- A count of braces can be refused. -/
inductive CountFault where
  /-- It would fall below zero. -/
  | belowZero
  deriving DecidableEq, Repr

/-- The byte of an opening brace. -/
def openByte : UInt8 := 0x7b

/-- The byte of a closing brace. -/
def closeByte : UInt8 := 0x7d

/-- The place of the closing brace with which no brace is open any more, if there is one. `depth`
braces are open in front of the bytes, and `place` bytes have been read. -/
def closingPlace? (depth place : Nat) : List UInt8 → Except CountFault (Option Nat)
  | [] => .ok none
  | b :: bs =>
    if b = openByte then closingPlace? (depth + 1) (place + 1) bs
    else if b = closeByte then
      match depth with
      | 0 => .error .belowZero
      | 1 => .ok (some place)
      | depth + 2 => closingPlace? (depth + 1) (place + 1) bs
    else closingPlace? depth (place + 1) bs

/-- Reads a verbatim block behind its opening braces: the bytes of the body, and how many bytes are
used up. The brace at which no brace is open any more has to be the last of three. -/
def verbatimBytes? (bytes : List UInt8) : Except CountFault (Option (List UInt8 × Nat)) := do
  match ← closingPlace? 3 0 bytes with
  | none => return none
  | some place =>
    if 2 ≤ place ∧ (bytes.drop (place - 2)).take 3 = [closeByte, closeByte, closeByte] then
      return some (bytes.take (place - 2), place + 1)
    else return none

variable {place : Nat} {bs xs : List UInt8}

theorem closingPlace?_openByte :
    closingPlace? depth place (openByte :: bs) = closingPlace? (depth + 1) (place + 1) bs := rfl

theorem closingPlace?_closeByte (h : 0 < depth) :
    closingPlace? (depth + 1) place (closeByte :: bs) = closingPlace? depth (place + 1) bs := by
  obtain ⟨depth, rfl⟩ := Nat.exists_eq_succ_of_ne_zero (Nat.ne_of_gt h)
  rfl

theorem closingPlace?_other {b : UInt8} (hopen : b ≠ openByte) (hclose : b ≠ closeByte) :
    closingPlace? depth place (b :: bs) = closingPlace? depth (place + 1) bs :=
  (if_neg hopen).trans (if_neg hclose)

theorem closingPlace?_others (h : ∀ b ∈ xs, b ≠ openByte ∧ b ≠ closeByte) :
    closingPlace? depth place (xs ++ bs) = closingPlace? depth (place + xs.length) bs := by
  induction xs generalizing place with
  | nil => rfl
  | cons b xs ih =>
    obtain ⟨⟨hopen, hclose⟩, hxs⟩ := List.forall_mem_cons.1 h
    have hplace : place + 1 + xs.length = place + (xs.length + 1) := by omega
    rw [List.cons_append, closingPlace?_other hopen hclose, ih hxs, List.length_cons, hplace]

theorem length_flatMap_encode (cs : List Char) :
    (cs.flatMap String.utf8EncodeChar).length = width cs := by
  induction cs with
  | nil => rfl
  | cons c cs ih =>
    rw [List.flatMap_cons, List.length_append, String.length_utf8EncodeChar, ih, width_cons]

/-- A character that is no brace has no byte of one. -/
theorem ne_brace_of_mem_encode {b : UInt8} (h : b ∈ String.utf8EncodeChar c) (hopen : c ≠ '{')
    (hclose : c ≠ '}') : b ≠ openByte ∧ b ≠ closeByte := by
  constructor
  · rintro rfl
    exact hopen (Text.eq_of_mem_encode (d := '{') h (by decide))
  · rintro rfl
    exact hclose (Text.eq_of_mem_encode (d := '}') h (by decide))

/-- In a text that stays open the count goes on. -/
theorem closingPlace?_of_open (h : StaysOpen depth cs) (place : Nat) (bs : List UInt8) :
    closingPlace? depth place (cs.flatMap String.utf8EncodeChar ++ bs) =
      closingPlace? (openAfter depth cs) (place + width cs) bs := by
  induction h using StaysOpen.induct generalizing place with
  | nil depth h => rfl
  | openBrace depth cs _ _ ih =>
    have hbyte : String.utf8EncodeChar '{' = [openByte] := rfl
    have hplace : place + ('{'.utf8Size + width cs) = place + 1 + width cs :=
      (Nat.add_assoc ..).symm
    rw [List.flatMap_cons, hbyte, List.append_assoc, List.singleton_append, closingPlace?_openByte,
      ih, openAfter_openBrace, width_cons, hplace]
  | closeBrace depth cs _ hcs ih =>
    have hbyte : String.utf8EncodeChar '}' = [closeByte] := rfl
    have hplace : place + ('}'.utf8Size + width cs) = place + 1 + width cs :=
      (Nat.add_assoc ..).symm
    rw [List.flatMap_cons, hbyte, List.append_assoc, List.singleton_append,
      closingPlace?_closeByte hcs.pos, ih, openAfter_closeBrace, width_cons, hplace]
  | plain depth c cs _ hopen hclose _ ih =>
    rw [List.flatMap_cons, List.append_assoc,
      closingPlace?_others fun b hb => ne_brace_of_mem_encode hb hopen hclose, ih,
      openAfter_plain hopen hclose, String.length_utf8EncodeChar, width_cons, Nat.add_assoc]

/-- A closing byte at the end is the last character. -/
theorem exists_of_encode_snoc (h : cs.flatMap String.utf8EncodeChar = xs ++ [closeByte]) :
    ∃ front, cs = front ++ ['}'] ∧ front.flatMap String.utf8EncodeChar = xs := by
  rcases List.eq_nil_or_concat cs with rfl | ⟨front, c, rfl⟩
  · exact absurd h.symm (List.append_ne_nil_of_right_ne_nil xs (List.cons_ne_nil _ _))
  · rw [List.concat_eq_append, List.flatMap_append, List.flatMap_singleton] at h
    have hlast : closeByte ∈ String.utf8EncodeChar c := by
      have hne : String.utf8EncodeChar c ≠ [] := by
        rw [Ne, ← List.length_eq_zero_iff, String.length_utf8EncodeChar]
        exact Nat.ne_of_gt c.utf8Size_pos
      have hends := congrArg List.getLast? h
      rw [List.getLast?_append_of_ne_nil _ hne, List.getLast?_concat] at hends
      exact List.mem_of_getLast? hends
    obtain rfl := Text.eq_of_mem_encode (d := '}') hlast (by decide)
    exact ⟨front, List.concat_eq_append, List.append_inj_left' h rfl⟩

/-- Looking back from the brace that closes the last one finds two more exactly if what is in front
of it ends in two. -/
theorem lookBack_iff (xs bs : List UInt8) : (2 ≤ xs.length ∧
      ((xs ++ closeByte :: bs).drop (xs.length - 2)).take 3 = [closeByte, closeByte, closeByte]) ↔
    ∃ front, xs = front ++ [closeByte, closeByte] := by
  constructor
  · rintro ⟨hlong, htake⟩
    refine ⟨xs.take (xs.length - 2), ?_⟩
    have hlength : (xs.drop (xs.length - 2)).length = 2 := by
      rw [List.length_drop]
      omega
    rw [List.drop_append_of_le_length (Nat.sub_le ..), List.take_append, hlength,
      List.take_of_length_le (by omega)] at htake
    have hends : xs.drop (xs.length - 2) = [closeByte, closeByte] :=
      List.append_inj_left'
        (htake : _ ++ [closeByte] = [closeByte, closeByte] ++ [closeByte]) rfl
    rw [← hends, List.take_append_drop]
  · rintro ⟨front, rfl⟩
    have hlength : (front ++ [closeByte, closeByte]).length - 2 = front.length := by simp
    refine ⟨by simp, ?_⟩
    rw [hlength, List.append_assoc, List.drop_left]
    rfl

theorem verbatimBytes?_of_staysOpen (h : StaysOpen 3 cs) :
    verbatimBytes? (cs.flatMap String.utf8EncodeChar) = .ok none := by
  have hplace := closingPlace?_of_open h 0 []
  rw [List.append_nil] at hplace
  rw [verbatimBytes?, hplace]
  rfl

theorem verbatimBytes?_of_ends
    (h : closingPlace? 3 0 (xs ++ [closeByte, closeByte] ++ closeByte :: bs) =
      .ok (some (xs.length + 2))) :
    verbatimBytes? (xs ++ [closeByte, closeByte] ++ closeByte :: bs) =
      .ok (some (xs, xs.length + 3)) := by
  have htake : (xs ++ [closeByte, closeByte] ++ closeByte :: bs).take xs.length = xs := by
    rw [List.append_assoc, List.take_left]
  have hends := (lookBack_iff _ bs).2 ⟨xs, rfl⟩
  rw [List.length_append] at hends
  rw [verbatimBytes?, h]
  refine (if_pos hends).trans ?_
  rw [Nat.add_sub_cancel, htake]
  rfl

theorem verbatimBytes?_of_not_ends
    (h : closingPlace? 3 0 (xs ++ closeByte :: bs) = .ok (some xs.length))
    (hends : ¬∃ front, xs = front ++ [closeByte, closeByte]) :
    verbatimBytes? (xs ++ closeByte :: bs) = .ok none := by
  rw [verbatimBytes?, h]
  exact if_neg (mt (lookBack_iff xs bs).1 hends)

theorem closingPlace?_of_closes (h : StaysOpen 3 inner) (hlast : openAfter 3 inner = 1) :
    closingPlace? 3 0 (inner.flatMap String.utf8EncodeChar ++ closeByte :: bs) =
      .ok (some (inner.flatMap String.utf8EncodeChar).length) := by
  rw [closingPlace?_of_open h, hlast, length_flatMap_encode, Nat.zero_add]
  rfl

/-- The bytes are read like the characters: the count never falls below zero, a block is found where
the reader of characters finds one, and it takes the bytes of its body and three more. -/
theorem verbatimBytes?_encode (cs : List Char) :
    verbatimBytes? (cs.flatMap String.utf8EncodeChar) =
      .ok ((verbatimBody? 3 [] cs).map fun block =>
        (block.1.flatMap String.utf8EncodeChar, width block.1 + 3)) := by
  rcases staysOpen_or_closes (Nat.succ_pos 2) cs with hstays | ⟨inner, r, rfl, hinner, hlast⟩
  · rw [verbatimBody?_of_staysOpen hstays, verbatimBytes?_of_staysOpen hstays]
    rfl
  · have hplace : closingPlace? 3 0 (inner.flatMap String.utf8EncodeChar ++
        closeByte :: r.flatMap String.utf8EncodeChar) = _ := closingPlace?_of_closes hinner hlast
    have hbytes : (inner ++ '}' :: r).flatMap String.utf8EncodeChar =
        inner.flatMap String.utf8EncodeChar ++ closeByte :: r.flatMap String.utf8EncodeChar :=
      List.flatMap_append
    rw [hbytes]
    by_cases hends : ∃ body, inner = body ++ ['}', '}']
    · obtain ⟨body, rfl⟩ := hends
      have hfront : (body ++ ['}', '}']).flatMap String.utf8EncodeChar =
          body.flatMap String.utf8EncodeChar ++ [closeByte, closeByte] := List.flatMap_append
      rw [hfront] at hplace ⊢
      rw [List.length_append] at hplace
      rw [verbatimBody?_of_ends hinner hlast, verbatimBytes?_of_ends hplace, length_flatMap_encode]
      rfl
    · have hbytesEnd : ¬∃ front,
          inner.flatMap String.utf8EncodeChar = front ++ [closeByte, closeByte] := by
        rintro ⟨front, hfront⟩
        have hlast : inner.flatMap String.utf8EncodeChar = front ++ [closeByte] ++ [closeByte] := by
          rw [hfront, List.append_assoc]
          rfl
        obtain ⟨_, rfl, hone⟩ := exists_of_encode_snoc hlast
        obtain ⟨body, rfl, -⟩ := exists_of_encode_snoc hone
        exact hends ⟨body, List.append_assoc ..⟩
      rw [verbatimBody?_of_not_ends hinner hlast hends,
        verbatimBytes?_of_not_ends hplace hbytesEnd]
      rfl

/-! ## The lexeme -/

/-- The lexeme of a verbatim block in front of `rest`. -/
def Lexeme.ofBlock (body rest : List Char) : Lexeme where
  kind := some (.verbatim (String.ofList body))
  text := verbatimOpen ++ body ++ verbatimClose
  rest := rest

theorem lexeme?_openBraces (r : List Char) : lexeme? '{' ('{' :: '{' :: r) =
    match verbatimBody? 3 [] r with
    | some (body, rest) => .ok (.ofBlock body rest)
    | none => .error .unterminatedVerbatim := rfl

theorem ofBlock_inj {body' rest' : List Char}
    (h : Lexeme.ofBlock body rest = .ofBlock body' rest') : body = body' ∧ rest = rest' := by
  obtain ⟨hkind, -, hrest⟩ := Lexeme.mk.inj h
  exact ⟨String.ofList_inj.1 (Kind.verbatim.inj (Option.some.inj hkind)), hrest⟩

theorem lexeme?_eq_ok_iff :
    lexeme? '{' ('{' :: '{' :: r) = .ok (.ofBlock body rest) ↔ IsBlock r body rest := by
  rw [← verbatimBody?_eq_some_iff, lexeme?_openBraces]
  constructor
  · intro h
    split at h
    · next hfound =>
      obtain ⟨rfl, rfl⟩ := ofBlock_inj (Except.ok.inj h)
      exact hfound
    · cases h
  · intro h
    rw [h]

theorem lexeme?_eq_error_iff : lexeme? '{' ('{' :: '{' :: r) = .error .unterminatedVerbatim ↔
    ∀ body rest, ¬IsBlock r body rest := by
  simp only [← verbatimBody?_eq_some_iff, lexeme?_openBraces]
  constructor
  · intro h body rest hfound
    rw [hfound] at h
    cases h
  · intro h
    split
    · next hfound => exact absurd hfound (h _ _)
    · rfl

/-- Behind three opening braces, a verbatim block is found exactly where the text begins with a body
and three closing braces, the body opens as many braces as it closes, and nowhere in it are more
than two braces closed that it has not opened; where there is no such body, the text is refused.
There is at most one. Byte by byte, the count of the open braces never falls below zero, and the
bytes of the body and three more are used up. A body whose braces are well nested is found as it is,
whatever comes behind it. -/
theorem verbatim_exact (r : List Char) :
    (∀ body rest,
      lexeme? '{' ('{' :: '{' :: r) = .ok (.ofBlock body rest) ↔ IsBlock r body rest) ∧
    (lexeme? '{' ('{' :: '{' :: r) = .error .unterminatedVerbatim ↔
      ∀ body rest, ¬IsBlock r body rest) ∧
    (∀ body rest body' rest', IsBlock r body rest → IsBlock r body' rest' →
      body = body' ∧ rest = rest') ∧
    (∃ found, verbatimBytes? (Text.toBytes (String.ofList r)) = .ok found ∧
      ∀ bytes used, found = some (bytes, used) ↔ ∃ body rest, IsBlock r body rest ∧
        bytes = Text.toBytes (String.ofList body) ∧ used = bytes.length + 3) ∧
    ∀ body, WellNested body → lexeme? '{' ('{' :: '{' :: (body ++ verbatimClose ++ r)) =
      .ok (.ofBlock body r) := by
  refine ⟨fun body rest => lexeme?_eq_ok_iff, lexeme?_eq_error_iff, ?unique, ?bytes, ?nested⟩
  case unique =>
    intro body rest body' rest' h h'
    have hsame := (lexeme?_eq_ok_iff.2 h).symm.trans (lexeme?_eq_ok_iff.2 h')
    exact ofBlock_inj (Except.ok.inj hsame)
  case bytes =>
    simp only [Text.toBytes_ofList]
    refine ⟨_, verbatimBytes?_encode r, fun bytes used => ?_⟩
    rw [Option.map_eq_some_iff]
    constructor
    · rintro ⟨⟨body, rest⟩, hfound, hbytes⟩
      obtain ⟨rfl, rfl⟩ := Prod.mk.inj hbytes
      refine ⟨body, rest, verbatimBody?_eq_some_iff.1 hfound, rfl, ?_⟩
      rw [length_flatMap_encode]
    · rintro ⟨body, rest, hblock, rfl, rfl⟩
      refine ⟨(body, rest), verbatimBody?_eq_some_iff.2 hblock, ?_⟩
      rw [length_flatMap_encode]
  case nested => exact fun body h => lexeme?_eq_ok_iff.2 (.of_wellNested h r)

end ProofScript.Token
