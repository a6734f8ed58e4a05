import Mathlib.Data.String.Basic
import ProofScript.Proofs.Token.Layout

/-!
# Nothing is lost

The tokens of a source text and the gaps between them are the whole text (`covering_of_scan`). Every
token stands over the characters that spell it, and a gap holds only blanks and comments.

`Covers` says this of the characters behind some offset, where the scanner goes on. What it says of
the source text follows, since a span cuts the text in three parts (`Span.Cuts`).
-/

namespace ProofScript

/-! ## Ranges of a source text -/

namespace Span

/-- The part of a source text that a span covers. -/
def textIn (s : Span) (source : String) : String :=
  String.Pos.Raw.extract source ⟨s.offset⟩ ⟨s.stop⟩

/-- The part of a source text behind a span. -/
def textBehind (s : Span) (source : String) : String :=
  (between s.stop source.utf8ByteSize).textIn source

/-- Neither end of a span splits a character. -/
def OnBoundaries (s : Span) (source : String) : Prop :=
  String.Pos.Raw.IsValid source ⟨s.offset⟩ ∧ String.Pos.Raw.IsValid source ⟨s.stop⟩

/-- What is left between `start` and the last of some spans when these are taken out. -/
def uncovered : Nat → List Span → List Span
  | _, [] => []
  | start, s :: ss => between start s.offset :: uncovered s.stop ss

/-- A span cuts a source text into what is before it, what it covers and what is behind it. -/
structure Cuts (s : Span) (source : String) (before text behind : List Char) : Prop where
  /-- The parts are the text. -/
  split : source.toList = before ++ (text ++ behind)
  /-- The span is the part in the middle. -/
  place : s = ⟨Token.width before, Token.width text⟩

end Span

namespace Token

theorem width_eq_utf8Len (cs : List Char) : width cs = String.utf8Len cs := by
  induction cs with
  | nil => rfl
  | cons c cs ih => rw [width_cons, String.utf8Len_cons, ih, Nat.add_comm]

theorem utf8ByteSize_eq_width (source : String) : source.utf8ByteSize = width source.toList := by
  rw [width_eq_utf8Len, ← String.utf8ByteSize_ofList, String.ofList_toList]

end Token

namespace Span.Cuts

open Token (width width_eq_utf8Len width_append utf8ByteSize_eq_width)

variable {before text behind : List Char} {s : Span} {source : String}

theorem stop_eq (h : s.Cuts source before text behind) : s.stop = width (before ++ text) := by
  rw [h.place, width_append]
  rfl

theorem textIn (h : s.Cuts source before text behind) : s.textIn source = String.ofList text := by
  have hsource : source = String.ofList (before ++ text ++ behind) := by
    rw [← String.ofList_toList (s := source), h.split, List.append_assoc]
  have hextract := String.extract_of_valid before text behind
  rw [← hsource] at hextract
  rw [Span.textIn, Span.stop, h.place, width_eq_utf8Len, width_eq_utf8Len]
  exact hextract

theorem onBoundaries (h : s.Cuts source before text behind) : s.OnBoundaries source := by
  have hvalid : ∀ as bs, source.toList = as ++ bs →
      String.Pos.Raw.IsValid source ⟨width as⟩ := by
    intro as bs hsplit
    refine String.Pos.Raw.isValid_iff_exists_append.2 ⟨String.ofList as, String.ofList bs, ?_, ?_⟩
    · rw [← String.ofList_append, ← hsplit, String.ofList_toList]
    · rw [String.rawEndPos_ofList, width_eq_utf8Len]
  constructor
  · rw [h.place]
    exact hvalid before _ h.split
  · rw [h.stop_eq]
    exact hvalid _ behind (by rw [h.split, List.append_assoc])

theorem textBehind (h : s.Cuts source before text behind) :
    s.textBehind source = String.ofList behind := by
  have hbehind : (between s.stop source.utf8ByteSize).Cuts source (before ++ text) behind [] := by
    refine ⟨by rw [h.split, List.append_nil, List.append_assoc], ?_⟩
    have hwhole : source.utf8ByteSize = width (before ++ text) + width behind := by
      rw [utf8ByteSize_eq_width, h.split, ← List.append_assoc, width_append]
    rw [between, h.stop_eq, hwhole, Nat.add_sub_cancel_left]
  exact hbehind.textIn

end Span.Cuts

namespace Token

variable {offset : Nat} {c : Char} {cs gap rest before : List Char} {k : Kind} {ts : List Token}
  {l : Lexeme} {source : String}

/-! ## What a text says -/

/-- Blanks and comments. A comment goes on to the end of its line, which may be the end of the
text; `rest` is the text behind the gap. -/
inductive Gap (rest : List Char) : List Char → Prop where
  /-- Nothing more. -/
  | nothing : Gap rest []
  /-- A blank. -/
  | blank {c : Char} {cs : List Char} (here : isSpace c = true) (behind : Gap rest cs) :
      Gap rest (c :: cs)
  /-- A comment, which takes the rest of its line. -/
  | comment {line cs : List Char} (here : '\n' ∉ line) (stops : ∀ x ∈ (cs ++ rest).head?, x = '\n')
      (behind : Gap rest cs) : Gap rest ('/' :: '/' :: (line ++ cs))

/-- A text spells a token. -/
def Kind.Spells : Kind → List Char → Prop
  | keyword word, cs => cs = word.spelling.toList
  | symbol s, cs => cs = s.spelling.toList
  | name text, cs => cs = text.toList ∧ isIdentifier text = true
  | number n, cs => ∃ value, Text.digits? cs = some value ∧ n.toInt = value
  | verbatim body, cs => cs = verbatimOpen ++ body.toList ++ verbatimClose
  | eof, cs => cs = []

theorem Kind.Spells.ne_nil (h : k.Spells cs) (hk : k ≠ .eof) : cs ≠ [] := by
  cases k with
  | keyword word =>
    obtain rfl : cs = _ := h
    cases word <;> decide
  | symbol s =>
    obtain rfl : cs = _ := h
    cases s <;> decide
  | name text =>
    obtain ⟨rfl, hname⟩ := h
    intro hnil
    simp [isIdentifier, hnil, Text.isName] at hname
  | number n =>
    obtain ⟨value, hdigits, -⟩ := h
    rintro rfl
    cases hdigits
  | verbatim body =>
    obtain rfl : cs = _ := h
    simp [verbatimOpen]
  | eof => exact absurd rfl hk

theorem spells_ofWord (h : Text.isName cs = true) : (Kind.ofWord (String.ofList cs)).Spells cs := by
  rw [Kind.ofWord]
  split
  · next word hword =>
    have hspelling : word.spelling = String.ofList cs := by
      simpa using List.find?_some hword
    rw [Kind.Spells, hspelling, String.toList_ofList]
  · next hword =>
    refine ⟨String.toList_ofList.symm, ?_⟩
    rw [isIdentifier, String.toList_ofList, h, hword]
    rfl

namespace Starts

/-- The characters of a token spell it. -/
theorem spells (h : Starts c cs l) (hk : l.kind = some k) : k.Spells l.text := by
  cases h with
  | blank | comment => cases hk
  | word hc =>
    obtain rfl := Option.some.inj hk
    refine spells_ofWord ?_
    rw [Text.isName, hc, Bool.true_and, List.all_eq_true]
    exact fun x hx => List.mem_takeWhile_imp hx
  | number hc hfits =>
    obtain rfl := Option.some.inj hk
    have hall : (c :: cs.takeWhile Text.isDigit).all Text.isDigit = true := by
      rw [List.all_cons, hc, Bool.true_and, List.all_eq_true]
      exact fun x hx => List.mem_takeWhile_imp hx
    refine ⟨Text.digitsValue (c :: cs.takeWhile Text.isDigit), ?_, ?_⟩
    · simp [run, Text.digits?, hall]
    · refine Int64.toInt_ofNat_of_lt (Nat.lt_succ_of_le hfits)
  | verbatim hinner =>
    obtain rfl := Option.some.inj hk
    rw [Kind.Spells, String.toList_ofList]
  | equal =>
    obtain rfl := Option.some.inj hk
    rfl
  | @symbol c cs s hc hshort =>
    obtain rfl := Option.some.inj hk
    unfold Symbol.ofChar? at hc
    split at hc
    all_goals first | (obtain rfl := Option.some.inj hc; rfl) | cases hc

/-- Skipped characters belong to the gap that follows them. -/
theorem gap_append (h : Starts c cs l) (hk : l.kind = none) (hrest : l.rest = gap ++ rest)
    (hgap : Gap rest gap) : Gap rest (l.text ++ gap) := by
  cases h with
  | word | number | verbatim | equal | symbol => cases hk
  | blank hc =>
    have hblanks : ∀ bs, (∀ b ∈ bs, isSpace b = true) → Gap rest (bs ++ gap) := by
      intro bs hbs
      induction bs with
      | nil => exact hgap
      | cons b bs ih =>
        obtain ⟨hb, hbs⟩ := List.forall_mem_cons.1 hbs
        exact .blank hb (ih hbs)
    exact .blank hc (hblanks _ fun x hx => List.mem_takeWhile_imp hx)
  | @comment cs =>
    refine .comment (fun hmem => ?_) ?_ hgap
    · simpa using List.mem_takeWhile_imp hmem
    · intro x hx
      rw [← hrest] at hx
      simpa using head?_dropWhile x hx

end Starts

/-! ## The tokens behind an offset -/

/-- The characters that start at `offset` are the given tokens and the gaps in front of them. -/
inductive Covers : Nat → List Char → List Token → Prop where
  /-- In front of the end of the text there is a last gap. -/
  | ended {offset : Nat} {gap : List Char} (here : Gap [] gap) :
      Covers offset gap [⟨.eof, ⟨offset + width gap, 0⟩⟩]
  /-- In front of any other token there is a gap, too. -/
  | token {offset : Nat} {gap text rest : List Char} {k : Kind} {ts : List Token}
      (here : Gap (text ++ rest) gap) (spelled : k.Spells text) (proper : k ≠ .eof)
      (behind : Covers (offset + width gap + width text) rest ts) :
      Covers offset (gap ++ (text ++ rest)) (⟨k, ⟨offset + width gap, width text⟩⟩ :: ts)

theorem Covers.skip (h : Covers (offset + width l.text) l.rest ts) (here : Starts c cs l)
    (hk : l.kind = none) : Covers offset (l.text ++ l.rest) ts := by
  generalize hrest : l.rest = behind at h
  cases h with
  | ended hgap =>
    have hall := here.gap_append hk (by rw [hrest, List.append_nil]) hgap
    rw [Nat.add_assoc, ← width_append]
    exact .ended hall
  | @token _ gap text rest k ts hgap hspelled hproper hbehind =>
    have hall := here.gap_append hk hrest hgap
    rw [Nat.add_assoc offset, ← width_append] at hbehind ⊢
    rw [← List.append_assoc]
    exact .token hall hspelled hproper hbehind

theorem covers_of_scanFrom (h : scanFrom offset cs = .ok ts) : Covers offset cs ts := by
  refine scanFrom_induct (motive := Covers) (fun _ => .ended .nothing) ?_ h
  intro offset c cs l us here _ behind
  rw [← here.append]
  cases hk : l.kind with
  | none => exact behind.skip here hk
  | some k =>
    have hproper : k ≠ .eof := by
      rintro rfl
      exact here.kind_ne_eof hk
    exact .token .nothing (here.spells hk) hproper behind

namespace Covers

theorem le_offset (h : Covers offset cs ts) : ∀ t ∈ ts, offset ≤ t.span.offset := by
  induction h with
  | ended => exact List.forall_mem_singleton.2 (Nat.le_add_right _ _)
  | token _ _ _ _ ih =>
    refine List.forall_mem_cons.2 ⟨Nat.le_add_right _ _, fun t ht => ?_⟩
    have := ih t ht
    omega

theorem ordered (h : Covers offset cs ts) :
    ts.Pairwise fun t u => t.span.offset < u.span.offset ∧ t.span.stop ≤ u.span.offset := by
  induction h with
  | ended => exact List.pairwise_singleton _ _
  | @token offset gap text rest k ts _ hspelled hproper hbehind ih =>
    refine List.pairwise_cons.2 ⟨fun u hu => ?_, ih⟩
    have hle := hbehind.le_offset u hu
    have hpos : 0 < width text := by
      obtain ⟨x, xs, rfl⟩ := List.exists_cons_of_ne_nil (hspelled.ne_nil hproper)
      rw [width_cons]
      exact Nat.add_pos_left x.utf8Size_pos _
    constructor
    · show offset + width gap < u.span.offset
      omega
    · exact hle

theorem ended_by_eof (h : Covers offset cs ts) :
    ∃ front, ts = front ++ [⟨.eof, ⟨offset + width cs, 0⟩⟩] ∧ ∀ t ∈ front, t.kind ≠ .eof := by
  induction h with
  | ended => exact ⟨[], rfl, by simp⟩
  | @token offset gap text rest k ts _ _ hproper _ ih =>
    obtain ⟨front, rfl, hfront⟩ := ih
    have hwidth : offset + width (gap ++ (text ++ rest)) =
        offset + width gap + width text + width rest := by
      rw [width_append, width_append]
      omega
    rw [hwidth]
    exact ⟨_ :: front, rfl, List.forall_mem_cons.2 ⟨hproper, hfront⟩⟩

theorem spelled (h : Covers offset cs ts) (hsource : source.toList = before ++ cs)
    (hoffset : offset = width before) :
    ∀ t ∈ ts, ∃ before text behind, t.span.Cuts source before text behind ∧ t.kind.Spells text := by
  induction h generalizing before with
  | @ended offset gap _ =>
    refine List.forall_mem_singleton.2 ⟨before ++ gap, [], [], ⟨?_, ?_⟩, rfl⟩
    · simpa using hsource
    · rw [width_append, hoffset]
      rfl
  | @token offset gap text rest k ts _ hspelled _ _ ih =>
    refine List.forall_mem_cons.2 ⟨⟨before ++ gap, text, rest, ⟨?_, ?_⟩, hspelled⟩, ?_⟩
    · rw [hsource, List.append_assoc]
    · rw [width_append, hoffset]
    · have hbehind : source.toList = before ++ gap ++ text ++ rest := by
        rw [hsource, List.append_assoc, List.append_assoc]
      exact ih hbehind (by rw [width_append, width_append, hoffset])

theorem skipped (h : Covers offset cs ts) (hsource : source.toList = before ++ cs)
    (hoffset : offset = width before) :
    ∀ s ∈ Span.uncovered offset (ts.map Token.span),
      ∃ before text behind, s.Cuts source before text behind ∧ Gap behind text := by
  induction h generalizing before with
  | @ended offset gap hgap =>
    refine List.forall_mem_singleton.2 ⟨before, gap, [], ⟨?_, ?_⟩, hgap⟩
    · rw [hsource, List.append_nil]
    · rw [Span.between, Nat.add_sub_cancel_left, hoffset]
  | @token offset gap text rest k ts hgap _ _ _ ih =>
    refine List.forall_mem_cons.2 ⟨⟨before, gap, text ++ rest, ⟨hsource, ?_⟩, hgap⟩, ?_⟩
    · rw [Span.between, Nat.add_sub_cancel_left, hoffset]
    · have hbehind : source.toList = before ++ gap ++ text ++ rest := by
        rw [hsource, List.append_assoc, List.append_assoc]
      exact ih hbehind (by rw [width_append, width_append, hoffset])

end Covers

/-! ## A whole text -/

/-- The tokens `ts` lose nothing of a source text. -/
structure Covering (source : String) (ts : List Token) : Prop where
  /-- The end of the text is the last token, and no other. -/
  ended : ∃ front, ts = front ++ [⟨.eof, ⟨source.utf8ByteSize, 0⟩⟩] ∧ ∀ t ∈ front, t.kind ≠ .eof
  /-- Tokens stand one behind the other. -/
  ordered : ts.Pairwise fun t u => t.span.offset < u.span.offset ∧ t.span.stop ≤ u.span.offset
  /-- No token splits a character. -/
  whole : ∀ t ∈ ts, t.span.OnBoundaries source
  /-- The text of a token spells it. -/
  spelled : ∀ t ∈ ts, t.kind.Spells (t.span.textIn source).toList
  /-- Between the tokens there are only blanks and comments. -/
  skipped : ∀ s ∈ Span.uncovered 0 (ts.map Token.span),
    s.OnBoundaries source ∧ Gap (s.textBehind source).toList (s.textIn source).toList

/-- The scanner loses nothing. -/
theorem covering_of_scan (h : scan source = .ok ts) : Covering source ts := by
  have hcovers : Covers 0 source.toList ts := covers_of_scanFrom h
  have hsource : source.toList = [] ++ source.toList := rfl
  refine ⟨?_, hcovers.ordered, ?_, ?_, ?_⟩
  · rw [utf8ByteSize_eq_width]
    simpa using hcovers.ended_by_eof
  · intro t ht
    obtain ⟨before, text, behind, hcuts, -⟩ := hcovers.spelled hsource rfl t ht
    exact hcuts.onBoundaries
  · intro t ht
    obtain ⟨before, text, behind, hcuts, hspells⟩ := hcovers.spelled hsource rfl t ht
    rwa [hcuts.textIn, String.toList_ofList]
  · intro s hs
    obtain ⟨before, text, behind, hcuts, hgap⟩ := hcovers.skipped hsource rfl s hs
    rw [hcuts.textIn, hcuts.textBehind, String.toList_ofList, String.toList_ofList]
    exact ⟨hcuts.onBoundaries, hgap⟩

/-- Comments, symbols that start alike, and characters of several bytes. -/
theorem covering_of_scan_comments :
    let source := "//é\nx==007 =\x7b\x7b\x7b\x7bé\x7d\x7d\x7d\x7dnewer//"
    let ts : List Token := [⟨.name "x", ⟨5, 1⟩⟩, ⟨.symbol .equal, ⟨6, 2⟩⟩, ⟨.number 7, ⟨8, 3⟩⟩,
      ⟨.symbol .assign, ⟨12, 1⟩⟩, ⟨.verbatim "\x7bé\x7d", ⟨13, 10⟩⟩, ⟨.name "newer", ⟨23, 5⟩⟩,
      ⟨.eof, ⟨30, 0⟩⟩]
    scan source = .ok ts ∧ Covering source ts := by
  intro source ts
  have hscan : scan source = .ok ts := by decide +kernel +zetaReduce
  exact ⟨hscan, covering_of_scan hscan⟩

end Token

end ProofScript
