import ProofScript.Seed
import ProofScript.Proofs.Code.Terms
import ProofScript.Proofs.Dialect.Literals
import ProofScript.Proofs.Text.Blank

/-!
# The name of a seed in Dafny

A name becomes a string literal in two places. A term escapes the name. The context of a seed puts
quotation marks around the name and escapes nothing (`bare`). The two literals are the same just for
the names that have nothing to escape, and only for these does the literal of a seed stand for its
name: at a quotation mark it ends too early, and what is left of the name becomes a part of the
program.
-/

namespace ProofScript

namespace Dafny

/-! ## Two literals -/

/-- A text between quotation marks, as it is. -/
def bare (s : String) : String := "\"" ++ s ++ "\""

theorem toList_bare (s : String) (rest : List Char) :
    (bare s).toList ++ rest = '"' :: (s.toList ++ '"' :: rest) := by
  simp [bare, String.toList_append]

theorem bare_eq_quote_iff {s : String} :
    bare s = quote s ↔ ∀ c ∈ s.toList, isSpecial c = false := by
  rw [← flatMap_escape_eq_self_iff, ← String.toList_inj]
  have hbare := toList_bare s []
  have hquote := toList_quote s []
  rw [List.append_nil] at hbare hquote
  rw [hbare, hquote, List.cons_inj_right, List.append_cancel_right_eq, eq_comm]

/-! ## Seeds -/

/-- Blanks need not be escaped, so trimming takes nothing away that has to. -/
theorem forall_not_special_iff_of_trims {whole inner : List Char} (h : Text.Trims whole inner) :
    (∀ c ∈ inner, isSpecial c = false) ↔ ∀ c ∈ whole, isSpecial c = false := by
  have hblank : ∀ c, Text.isBlank c = true → isSpecial c = false := by
    intro c hc
    refine isSpecial_eq_false ?_ ?_
    · rintro rfl
      cases hc
    · rintro rfl
      cases hc
  obtain ⟨front, back, rfl, hfront, hback⟩ := h.around
  simp only [List.forall_mem_append]
  exact ⟨fun hinner => ⟨⟨fun c hc => hblank c (hfront c hc), hinner⟩,
    fun c hc => hblank c (hback c hc)⟩, fun hall => hall.1.2⟩

variable {text : String} {seed : Seed}

/-- The name of a seed stands in front of the first equals sign, without the blanks around it. -/
theorem trims_of_ofText (h : Seed.ofText text = .ok seed) :
    Text.Trims (text.toList.takeWhile (· != '=')) seed.name.toList := by
  have hname : seed.name = Text.trim (String.ofList (text.toList.takeWhile (· != '='))) := by
    unfold Seed.ofText at h
    dsimp only at h
    split at h
    · cases h
    split at h
    · cases h
    split at h
    · obtain rfl := Except.ok.inj h
      rfl
    · cases h
  have htrims := Text.trims_trim (String.ofList (text.toList.takeWhile (· != '=')))
  rwa [String.toList_ofList, ← hname] at htrims

/-- The context of a seed in front of the literal for its name. -/
def seedOpening : String :=
  "EmptyContext().(objs := AssocSet(EmptyContext().objs, 0, Object(Cons(Pair("

/-- The context of a seed behind the literal for its name. -/
def seedClosing (n : Int64) : String := ", Int(" ++ Text.decimal n ++ ")), LNil))))"

theorem seededContext_eq (seed : Seed) :
    seededContext seed = seedOpening ++ bare seed.name ++ seedClosing seed.value := by
  have hopening :
      "EmptyContext().(objs := AssocSet(EmptyContext().objs, 0, Object(Cons(Pair(\"" =
        seedOpening ++ "\"" := by decide +kernel
  have hclosing : "\", Int(" = "\"" ++ ", Int(" := by decide +kernel
  unfold seededContext bare seedClosing
  -- `rw` would go on to compare the two texts character by character.
  rewrite [hopening, hclosing]
  simp only [String.append_assoc]

/-- For every text that is accepted as a seed: the context puts quotation marks around the name, and
a term of that name escapes it. The two literals are the same just when there is no quotation mark
and no backslash in front of the first equals sign of the text. However literals are read, the one
of the term stands for the name and ends where it should, and the one of the context does so just
when the two are the same; at the first quotation mark of a name it ends too early, and what is left
of the name gets into the program. -/
theorem seededContext_literal (h : Seed.ofText text = .ok seed) :
    seededContext seed = seedOpening ++ bare seed.name ++ seedClosing seed.value ∧
    (∀ id span type,
      term (.mk id span (.var seed.name type)) = .ok ("EVar(" ++ quote seed.name ++ ")")) ∧
    (bare seed.name = quote seed.name ↔
      ∀ c ∈ text.toList.takeWhile (· != '='), isSpecial c = false) ∧
    ∀ reader : LiteralReader,
      (∀ c ∈ seed.name.toList, isSpecial c = false → reader.plain c = true) → ∀ rest,
      reader.literal? ((quote seed.name).toList ++ rest) = some (seed.name.toList, rest) ∧
      (reader.literal? ((bare seed.name).toList ++ rest) = some (seed.name.toList, rest) ↔
        bare seed.name = quote seed.name) ∧
      ∀ front back, seed.name.toList = front ++ '"' :: back →
        (∀ c ∈ front, isSpecial c = false) →
        reader.literal? ((bare seed.name).toList ++ rest) = some (front, back ++ '"' :: rest) := by
  refine ⟨seededContext_eq seed, fun id span type => term_mk _ _ _, ?same, ?read⟩
  case same =>
    rw [bare_eq_quote_iff, forall_not_special_iff_of_trims (trims_of_ofText h)]
  case read =>
    intro reader hplain rest
    rw [toList_quote, toList_bare, bare_eq_quote_iff]
    refine ⟨LiteralReader.text?_escape hplain, LiteralReader.text?_eq_self_iff hplain, ?_⟩
    intro front back hname hfront
    rw [hname, List.append_assoc]
    refine (LiteralReader.text?_eq_self_iff fun c hc => hplain c ?_).2 hfront
    rw [hname]
    exact List.mem_append_left _ hc

/-- Literals in which line breaks have to be escaped, and single characters stand for blanks. -/
def lineReader : LiteralReader where
  plain c := c != '\n' && c != '\r'
  other
    | 'n', _ => some ('\n', 0)
    | 'r', _ => some ('\r', 0)
    | 't', _ => some ('\t', 0)
    | _, _ => none

/-- The name is `a"\`. Its literal in a term is read back, and the one in the context ends behind
`a`. -/
theorem seededContext_literal_quoted :
    Seed.ofText "a\"\\ = -7" = .ok ⟨"a\"\\", -7⟩ ∧
    lineReader.literal? ((quote "a\"\\").toList ++ (seedClosing (-7)).toList) =
      some (['a', '"', '\\'], (seedClosing (-7)).toList) ∧
    lineReader.literal? ((bare "a\"\\").toList ++ (seedClosing (-7)).toList) =
      some (['a'], '\\' :: '"' :: (seedClosing (-7)).toList) := by
  have hseed : Seed.ofText "a\"\\ = -7" = .ok ⟨"a\"\\", -7⟩ := by rfl
  obtain ⟨-, -, -, hread⟩ := seededContext_literal hseed
  have hplain : ∀ c ∈ "a\"\\".toList, isSpecial c = false → lineReader.plain c = true := by
    simp [lineReader]
  obtain ⟨hquote, -, hearly⟩ := hread lineReader hplain (seedClosing (-7)).toList
  exact ⟨hseed, hquote, hearly ['a'] ['\\'] rfl (List.forall_mem_singleton.2 rfl)⟩

/-- The name closes the literal and the context, and makes a comment of what comes then. The context
is that of another seed, and differs from the one with the literal of a term. -/
theorem seededContext_escapes :
    let name := "k\", Int(1)), LNil)))); //"
    Seed.ofText (name ++ " = 5") = .ok ⟨name, 5⟩ ∧
    seededContext ⟨name, 5⟩ = seededContext ⟨"k", 1⟩ ++ "; //\", Int(5)), LNil))))" ∧
    bare name ≠ quote name ∧
    seededContext ⟨name, 5⟩ ≠ seedOpening ++ quote name ++ seedClosing 5 := by
  decide +kernel +zetaReduce

end Dafny

end ProofScript
