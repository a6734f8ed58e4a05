import ProofScript.Code.Dialect
import ProofScript.Proofs.Code.Naming

/-!
# Headings

What a piece of a program declares can be read off its first line: the name, and the parameter list
of what can be called. In Dafny a declaration starts with a word, in Rosette with an open
parenthesis and the word `define`; there a name in a further parenthesis can be called, and a bare
name is a value.
-/

namespace ProofScript

/-- What a piece of a program declares. -/
structure Heading where
  /-- The name. -/
  name : String
  /-- The text of the parameter list; a value has none. -/
  params : Option String
  deriving DecidableEq, Repr

/-- The characters behind the first blank. -/
def behindBlank (text : String) : List Char := (text.toList.dropWhile (· != ' ')).tail

/-- The heading of a declaration in Dafny. -/
def Dafny.heading (text : String) : Heading :=
  let cs := behindBlank text
  { name := String.ofList (cs.takeWhile (· != '('))
    params := some (String.ofList ((cs.dropWhile (· != '(')).tail.takeWhile (· != ')'))) }

/-- The heading of a declaration in Rosette. -/
def Rosette.heading (text : String) : Heading :=
  match behindBlank text with
  | '(' :: cs =>
    let isNamePart c := c != ' ' && c != ')'
    { name := String.ofList (cs.takeWhile isNamePart)
      params := some (String.ofList ((cs.dropWhile isNamePart).takeWhile (· != ')'))) }
  | cs =>
    { name := String.ofList (cs.takeWhile fun c => c != ' ' && c != '\n')
      params := none }

/-- The heading of a declaration in the notation of a backend. -/
def Backend.heading : Backend → String → Heading
  | .dafny => Dafny.heading
  | .rosette => Rosette.heading

/-- The text of a part of a program. -/
def Dialect.itemText (d : Dialect) : Item → String
  | .definition definition => d.frame definition
  | .global text => text

/-- The program text of a builder on which no definition is open. -/
theorem Builder.assemble_of_closed {b : Builder} (d : Dialect) (hb : b.current = none) :
    b.assemble d =
      .ok ("\n\n".intercalate (d.prelude :: b.items.map d.itemText ++ d.entryPoint b.run)) := by
  simp only [Builder.assemble, hb]
  rfl

/-- There is a program text when no definition is open. -/
theorem Builder.exists_assemble_iff {b : Builder} {d : Dialect} :
    (∃ text, b.assemble d = .ok text) ↔ b.current = none := by
  constructor
  · rintro ⟨text, htext⟩
    cases hb : b.current with
    | none => rfl
    | some opened => simp [assemble, hb] at htext
  · intro hb
    exact ⟨_, assemble_of_closed d hb⟩

/-- The headings of the parts of a program that are named like claims. -/
def Dialect.claimHeadings (d : Dialect) (items : List Item) : List Heading :=
  (items.map fun item => d.backend.heading (d.itemText item)).filter fun h => Claim.isName h.name

/-- The heading of a definition without parameters. -/
def Heading.closed (name : String) : Heading := { name := name, params := some "" }

/-! ## Reading headings -/

section Reading

variable {p : Char → Bool} {xs ys : List Char} {c : Char}

theorem takeWhile_stop (hxs : ∀ x ∈ xs, p x = true) (hc : p c = false) :
    (xs ++ c :: ys).takeWhile p = xs := by
  rw [List.takeWhile_append_of_pos hxs, List.takeWhile_cons_of_neg (by simp [hc]),
    List.append_nil]

theorem dropWhile_stop (hxs : ∀ x ∈ xs, p x = true) (hc : p c = false) :
    (xs ++ c :: ys).dropWhile p = c :: ys := by
  rw [List.dropWhile_append_of_pos hxs, List.dropWhile_cons_of_neg (by simp [hc])]

variable {text word name params : String} {cs : List Char}

theorem behindBlank_append (hword : ∀ c ∈ word.toList, c ≠ ' ')
    (h : text.toList = word.toList ++ ' ' :: cs) : behindBlank text = cs := by
  rw [behindBlank, h, dropWhile_stop (by simpa using hword) (by decide)]
  rfl

/-- A declaration of `name` in Dafny that takes `params`. -/
theorem Dafny.heading_eq (hword : ∀ c ∈ word.toList, c ≠ ' ') (hname : ∀ c ∈ name.toList, c ≠ '(')
    (hparams : ∀ c ∈ params.toList, c ≠ ')')
    (h : text.toList =
      word.toList ++ ' ' :: (name.toList ++ '(' :: (params.toList ++ ')' :: cs))) :
    Dafny.heading text = { name := name, params := some params } := by
  rw [Dafny.heading, behindBlank_append hword h,
    takeWhile_stop (by simpa using hname) (by decide),
    dropWhile_stop (by simpa using hname) (by decide), List.tail_cons,
    takeWhile_stop (by simpa using hparams) (by decide)]
  simp

/-- The name that is declared in Dafny starts with the first characters behind the keyword. -/
theorem Dafny.heading_starts (hword : ∀ c ∈ word.toList, c ≠ ' ')
    (hname : ∀ c ∈ name.toList, c ≠ '(')
    (h : text.toList = word.toList ++ ' ' :: (name.toList ++ cs)) :
    (Dafny.heading text).name.toList = name.toList ++ cs.takeWhile (· != '(') := by
  rw [Dafny.heading, behindBlank_append hword h, String.toList_ofList,
    List.takeWhile_append_of_pos (by simpa using hname)]

/-- A declaration of `name` in Rosette that takes `params`. -/
theorem Rosette.heading_eq (hname : ∀ c ∈ name.toList, c ≠ ' ' ∧ c ≠ ')')
    (h : text.toList = "(define (".toList ++ (name.toList ++ ')' :: cs)) :
    Rosette.heading text = Heading.closed name := by
  have hbehind : behindBlank text = '(' :: (name.toList ++ ')' :: cs) :=
    behindBlank_append (by simp : ∀ c ∈ "(define".toList, c ≠ ' ') h
  have hpart : ∀ c ∈ name.toList, (c != ' ' && c != ')') = true := by simpa using hname
  rw [Rosette.heading, hbehind]
  simp only [takeWhile_stop hpart (by decide : (')' != ' ' && ')' != ')') = false),
    dropWhile_stop hpart (by decide : (')' != ' ' && ')' != ')') = false)]
  simp [Heading.closed]

/-- The name of a value in Rosette starts with the first characters behind the keyword. -/
theorem Rosette.heading_starts (hname : ∀ c ∈ name.toList, c ≠ '(' ∧ c ≠ ' ' ∧ c ≠ '\n')
    (h : text.toList = "(define ".toList ++ (name.toList ++ cs)) :
    name.toList <+: (Rosette.heading text).name.toList := by
  have hbehind : behindBlank text = name.toList ++ cs :=
    behindBlank_append (by simp : ∀ c ∈ "(define".toList, c ≠ ' ') h
  rw [Rosette.heading, hbehind]
  cases hlist : name.toList with
  | nil => exact List.nil_prefix
  | cons c rest =>
    have hpart : ∀ d ∈ c :: rest, (d != ' ' && d != '\n') = true := by
      intro d hd
      obtain ⟨-, hblank, hline⟩ := hname d (hlist ▸ hd)
      simp [hblank, hline]
    have hc : c ≠ '(' := (hname c (by simp [hlist])).1
    split
    · next heq => exact absurd (List.cons.inj heq).1 hc
    · rw [String.toList_ofList, List.takeWhile_append_of_pos hpart]
      exact List.prefix_append _ _

/-- A declaration of the value `name` in Rosette. -/
theorem Rosette.heading_value {c : Char} (hname : ∀ c ∈ name.toList, c ≠ '(' ∧ c ≠ ' ' ∧ c ≠ '\n')
    (hc : c = ' ' ∨ c = '\n') (h : text.toList = "(define ".toList ++ (name.toList ++ c :: cs)) :
    Rosette.heading text = { name := name, params := none } := by
  have hbehind : behindBlank text = name.toList ++ c :: cs :=
    behindBlank_append (by simp : ∀ c ∈ "(define".toList, c ≠ ' ') h
  have hpart : ∀ c ∈ name.toList, (c != ' ' && c != '\n') = true := by
    intro c hmem
    obtain ⟨-, hblank, hline⟩ := hname c hmem
    simp [hblank, hline]
  have hstop : (c != ' ' && c != '\n') = false := by
    rcases hc with rfl | rfl <;> decide
  rw [Rosette.heading, hbehind]
  split
  · next rest heq =>
    -- Nothing starts with a parenthesis here: neither the name nor what is behind it.
    have hparen : '(' ∈ name.toList ∨ '(' = c := by
      cases hlist : name.toList with
      | nil => exact .inr (by simpa [hlist] using (congrArg List.head? heq).symm)
      | cons d ds => exact .inl (by simp [hlist] at heq; simp [heq.1])
    rcases hparen with hmem | rfl
    · exact absurd rfl (hname _ hmem).1
    · rcases hc with hc | hc <;> exact absurd hc (by decide)
  · rw [takeWhile_stop hpart hstop, String.ofList_toList]

end Reading

end ProofScript
