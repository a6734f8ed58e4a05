import ProofScript.Proofs.Text.Lines
import ProofScript.Proofs.Token.Coverage

/-!
# Where comments stand

The scanner takes a text lexeme by lexeme (`Reaches`). A comment is a lexeme that is skipped, so no
token covers a part of it (`Reaches.apart`). Two slashes at the start of a line start a comment
unless they stand inside a verbatim block, which is the only token that goes over a line
(`comment_or_startsLine`).
-/

namespace ProofScript

/-- Two spans have no byte in common. -/
def Span.Apart (s t : Span) : Prop := s.stop ≤ t.offset ∨ t.stop ≤ s.offset

namespace Token

/-- Reading lexeme by lexeme from an offset, in front of some characters, the scanner comes to the
offset `place`, in front of the characters `rest`. -/
inductive Reaches (place : Nat) (rest : List Char) : Nat → List Char → Prop where
  /-- It is there. -/
  | here : Reaches place rest place rest
  /-- It comes there behind the lexeme that it reads first. -/
  | behind {offset : Nat} {c : Char} {cs : List Char} {l : Lexeme} (first : Starts c cs l)
      (further : Reaches place rest (offset + width l.text) l.rest) :
      Reaches place rest offset (c :: cs)

/-- At an offset of a source text the scanner skips a comment. -/
def SkipsComment (source : String) (place : Nat) : Prop :=
  ∃ c cs l, Reaches place (c :: cs) 0 source.toList ∧ Starts c cs l ∧ l.kind = none ∧
    ['/', '/'] <+: l.text

/-- A line of a verbatim block, other than its first one, starts at an offset. -/
def StartsLine (t : Token) (place : Nat) : Prop :=
  ∃ front line, t.kind = .verbatim (String.ofList (front ++ '\n' :: line)) ∧
    place = t.span.offset + width (verbatimOpen ++ (front ++ ['\n']))

variable {offset place : Nat} {c : Char} {cs rest front line : List Char} {l : Lexeme}
  {ts : List Token} {source : String}

/-! ## Comments and tokens -/

theorem Reaches.le (h : Reaches place rest offset cs) : offset ≤ place := by
  induction h with
  | here => exact le_rfl
  | behind _ _ ih => omega

/-- No token covers a part of what is skipped. -/
theorem Reaches.apart (h : Reaches place (c :: rest) offset cs) (hskip : Starts c rest l)
    (hk : l.kind = none) (hts : scanFrom offset cs = .ok ts) :
    ∀ t ∈ ts, t.span.Apart ⟨place, width l.text⟩ := by
  induction h generalizing ts with
  | here =>
    obtain ⟨l', us, hl', hus, rfl⟩ := of_scanFrom_cons hts
    obtain rfl : l = l' :=
      Except.ok.inj ((lexeme?_of_starts hskip).symm.trans (lexeme?_of_starts hl'))
    rw [hk]
    exact fun t ht => .inr ((covers_of_scanFrom hus).le_offset t ht)
  | @behind offset c cs l first further ih =>
    obtain ⟨l', us, hl', hus, rfl⟩ := of_scanFrom_cons hts
    obtain rfl : l = l' :=
      Except.ok.inj ((lexeme?_of_starts first).symm.trans (lexeme?_of_starts hl'))
    intro t ht
    rcases List.mem_append.1 ht with ht | ht
    · obtain ⟨k, -, rfl⟩ := by simpa using ht
      exact .inl further.le
    · exact ih hus t ht

theorem SkipsComment.apart (h : SkipsComment source place) (hts : scan source = .ok ts) :
    ∀ t ∈ ts, t.span.Apart ⟨place, 2⟩ := by
  obtain ⟨c, cs, l, hreaches, hstarts, hk, after, hafter⟩ := h
  intro t ht
  have hwidth : 2 ≤ width l.text := by
    rw [← hafter, width_append]
    exact Nat.le_add_right 2 _
  rcases hreaches.apart hstarts hk hts t ht with hle | hle
  · exact .inl hle
  · simp only [Span.Apart, Span.stop] at hle ⊢
    omega

/-- A line of a verbatim block starts within the token. -/
theorem StartsLine.not_apart {t : Token} (h : t.StartsLine place) (hts : scan source = .ok ts)
    (ht : t ∈ ts) (size : Nat) : ¬t.span.Apart ⟨place, size⟩ := by
  obtain ⟨front, line, hk, rfl⟩ := h
  have hcovers : Covers 0 source.toList ts := covers_of_scanFrom hts
  have hsource : source.toList = [] ++ source.toList := rfl
  obtain ⟨before, text, behind, hcuts, hspells⟩ := hcovers.spelled hsource rfl t ht
  rw [hk, Kind.Spells, String.toList_ofList] at hspells
  have hlength : t.span.length = width text := by rw [hcuts.place]
  have hopen : 0 < width verbatimOpen := by decide
  have hclose : 0 < width verbatimClose := by decide
  simp only [Span.Apart, Span.stop, hlength, hspells, width_append, width_cons, width_nil]
  omega

/-! ## Lines that start with two slashes -/

theorem mem_run {p : Char → Bool} {kind : List Char → Option Kind} {x : Char} (hc : p c = true)
    (hx : x ∈ (run p kind c cs).text) : p x = true := by
  rcases List.mem_cons.1 hx with rfl | hx
  · exact hc
  · exact List.mem_takeWhile_imp hx

/-- A character that is no brace stands in the body of a verbatim block. -/
theorem exists_body {body tail : List Char} {x : Char}
    (h : verbatimOpen ++ (body ++ verbatimClose) = front ++ x :: tail) (hopen : x ∉ verbatimOpen)
    (hclose : x ∉ verbatimClose) :
    ∃ inner after, front = verbatimOpen ++ inner ∧ body = inner ++ x :: after := by
  rcases Text.cut_first_or_second h with ⟨part, hpart⟩ | ⟨inner, hfront, hrest⟩
  · exact absurd (by simp [hpart]) hopen
  · rcases Text.cut_first_or_second hrest with ⟨after, hbody⟩ | ⟨part, -, hpart⟩
    · exact ⟨inner, after, hfront, hbody⟩
    · exact absurd (by simp [hpart]) hclose

/-- Only a verbatim block goes over a line feed and a slash behind it. -/
theorem Starts.verbatim_of_newline {tail : List Char} (h : Starts c cs l)
    (htext : l.text = front ++ '\n' :: '/' :: tail) :
    ∃ inner after, front = verbatimOpen ++ inner ∧
      l.kind = some (.verbatim (String.ofList (inner ++ '\n' :: after))) := by
  have hnewline : '\n' ∈ l.text := by simp [htext]
  have hslash : '/' ∈ l.text := by simp [htext]
  cases h with
  | blank hc => exact absurd (mem_run hc hslash) (by decide)
  | comment => exact absurd (mem_run (p := (· != '\n')) rfl hnewline) (by decide)
  | word hc =>
    have hfirst : Text.isNameChar c = true := by rw [Text.isNameChar, hc, Bool.true_or]
    exact absurd (mem_run hfirst hnewline) (by decide)
  | number hc => exact absurd (mem_run hc hnewline) (by decide)
  | equal => simp at hnewline
  | symbol =>
    obtain rfl := List.mem_singleton.1 hnewline
    simp at hslash
  | @verbatim cs body rest hinner =>
    rw [List.append_assoc] at htext
    obtain ⟨inner, after, hfront, rfl⟩ := exists_body htext (by decide) (by decide)
    exact ⟨inner, after, hfront, rfl⟩

/-- A place in a text lies in front of the end of the first lexeme or behind it. -/
theorem Starts.cut {before : List Char} {x : Char} {tail : List Char} (h : Starts c cs l)
    (hcs : c :: cs = before ++ x :: tail) :
    (∃ before', before = l.text ++ before' ∧ l.rest = before' ++ x :: tail) ∨
      ∃ part, l.text = before ++ x :: part := by
  rw [← h.append] at hcs
  exact (Text.cut_first_or_second hcs).symm

/-- Two slashes at the start of a line start a comment, or the line stands in a verbatim block. -/
theorem comment_or_startsLine {before : List Char} (h : scanFrom offset cs = .ok ts)
    (hcs : cs = before ++ '/' :: '/' :: rest) (hstarts : Text.LineStarts before) :
    Reaches (offset + width before) ('/' :: '/' :: rest) offset cs ∨
      ∃ t ∈ ts, t.StartsLine (offset + width before) := by
  refine scanFrom_induct (motive := fun offset cs ts => ∀ before,
    cs = before ++ '/' :: '/' :: rest → Text.LineStarts before →
      Reaches (offset + width before) ('/' :: '/' :: rest) offset cs ∨
        ∃ t ∈ ts, t.StartsLine (offset + width before)) ?_ ?_ h before hcs hstarts
  · intro offset before hcs _
    simp at hcs
  · intro offset c cs l us here _ ih before hcs hstarts
    rcases here.cut hcs with ⟨before', rfl, hrest⟩ | ⟨part, htext⟩
    · -- The line starts behind the lexeme.
      rw [width_append, ← Nat.add_assoc]
      rcases ih before' hrest hstarts.of_append with hreaches | ⟨t, ht, hline⟩
      · exact .inl (.behind here hreaches)
      · exact .inr ⟨t, List.mem_append_right _ ht, hline⟩
    · rcases hstarts with rfl | hlast
      · rw [hcs]
        exact .inl .here
      · obtain ⟨front, rfl⟩ := List.getLast?_eq_some_iff.1 hlast
        rw [List.append_assoc, List.singleton_append] at htext
        obtain ⟨inner, after, rfl, hk⟩ := here.verbatim_of_newline htext
        rw [hk]
        exact .inr ⟨_, List.mem_cons_self, inner, after, rfl, by simp⟩

end Token

end ProofScript
