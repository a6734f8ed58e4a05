import Mathlib.Data.List.TakeWhile
import ProofScript.Proofs.Printing.Scanning

/-!
# How a text is scanned

The scanner takes one lexeme after the other. `Starts` says which lexeme a text starts with, and
`Scans` which tokens a text has, regardless of where they stand.

The lexeme of a token is decided by its own characters and by a few that follow it. It stays the
same in front of any text that goes on in the same way up to a blank (`Resembles`).
-/

namespace ProofScript.Token

/-! ## One lexeme -/

/-- The openings of lexemes that start like a symbol and are longer. -/
def longer : List (List Char) := [['/', '/'], verbatimOpen, ['=', '=']]

/-- The token of a run of name characters. -/
def wordOf (text : List Char) : Option Kind := some (Kind.ofWord (String.ofList text))

/-- The token of a run of digits. -/
def numberOf (text : List Char) : Option Kind :=
  some (.number (Int64.ofNat (Text.digitsValue text)))

/-- The text `c :: cs` starts with the lexeme `l`. -/
inductive Starts : Char → List Char → Lexeme → Prop where
  /-- A run of blanks. -/
  | blank {c cs} (here : isSpace c = true) : Starts c cs (run isSpace (fun _ => none) c cs)
  /-- A comment, which goes on to the end of the line. -/
  | comment {cs} : Starts '/' ('/' :: cs) (run (· != '\n') (fun _ => none) '/' ('/' :: cs))
  /-- A name or a keyword. -/
  | word {c cs} (here : Text.isNameStart c = true) : Starts c cs (run Text.isNameChar wordOf c cs)
  /-- A number. -/
  | number {c cs} (here : Text.isDigit c = true)
      (fits : Text.digitsValue (run Text.isDigit numberOf c cs).text ≤ Text.maxInt64) :
      Starts c cs (run Text.isDigit numberOf c cs)
  /-- A verbatim block. -/
  | verbatim {cs body rest} (inner : verbatimBody? 3 [] cs = some (body, rest)) :
      Starts '{' ('{' :: '{' :: cs)
        { kind := some (.verbatim (String.ofList body)),
          text := verbatimOpen ++ body ++ verbatimClose, rest := rest }
  /-- The symbol of two characters. -/
  | equal {cs} : Starts '=' ('=' :: cs)
      { kind := some (.symbol .equal), text := ['=', '='], rest := cs }
  /-- A symbol of one character. -/
  | symbol {c cs s} (here : Symbol.ofChar? c = some s) (short : ∀ u ∈ longer, ¬u <+: c :: cs) :
      Starts c cs { kind := some (.symbol s), text := [c], rest := cs }

variable {c s : Char} {cs ds u r : List Char} {l : Lexeme} {k : Kind} {ks : List Kind}

/-- A symbol starts no other lexeme than the longer ones. -/
theorem classes_of_ofChar? {s : Symbol} (h : Symbol.ofChar? c = some s) :
    isSpace c = false ∧ Text.isNameStart c = false ∧ Text.isDigit c = false := by
  unfold Symbol.ofChar? at h
  split at h
  all_goals first | contradiction | decide

theorem isSpace_of_isNameStart (h : Text.isNameStart c = true) : isSpace c = false :=
  isSpace_of_isNameChar (by rw [Text.isNameChar, h, Bool.true_or])

theorem isSpace_of_isDigit (h : Text.isDigit c = true) : isSpace c = false :=
  isSpace_of_isNameChar (by rw [Text.isNameChar, h, Bool.or_true])

theorem starts_of_lexeme? (h : lexeme? c cs = .ok l) : Starts c cs l := by
  unfold lexeme? at h
  split at h
  · cases h
    exact .blank ‹_›
  split at h
  · cases h
    exact .word ‹_›
  split at h
  · dsimp only at h
    split at h
    · cases h
      exact .number ‹_› ‹_›
    · cases h
  split at h
  · cases h
    exact .comment
  · split at h
    · cases h
      exact .verbatim ‹_›
    · cases h
  · cases h
    exact .equal
  · next hcomment hverbatim hequal =>
    split at h
    · cases h
      refine .symbol ‹_› fun u hu hlonger => ?_
      simp only [longer, verbatimOpen, List.mem_cons, List.not_mem_nil, or_false] at hu
      obtain ⟨after, hafter⟩ := hlonger
      rcases hu with rfl | rfl | rfl
      all_goals
        obtain ⟨rfl, rfl⟩ := List.cons.inj hafter
      · exact hcomment _ rfl rfl
      · exact hverbatim _ rfl rfl
      · exact hequal _ rfl rfl
    · cases h

theorem lexeme?_of_starts (h : Starts c cs l) : lexeme? c cs = .ok l := by
  unfold lexeme?
  cases h with
  | blank hc => rw [if_pos hc]
  | comment => rfl
  | word hc =>
    rw [if_neg (by simp [isSpace_of_isNameStart hc]), if_pos hc]
    rfl
  | number hc hfits =>
    rw [if_neg (by simp [isSpace_of_isDigit hc]), if_neg (by simp [isNameStart_of_isDigit hc]),
      if_pos hc]
    exact if_pos hfits
  | verbatim hinner =>
    rw [if_neg (by decide), if_neg (by decide), if_neg (by decide)]
    simp only [hinner]
  | equal => rfl
  | symbol hc hshort =>
    obtain ⟨hspace, hstart, hdigit⟩ := classes_of_ofChar? hc
    rw [if_neg (by simp [hspace]), if_neg (by simp [hstart]), if_neg (by simp [hdigit])]
    split
    · exact absurd ⟨_, rfl⟩ (hshort ['/', '/'] (by simp [longer]))
    · exact absurd ⟨_, rfl⟩ (hshort verbatimOpen (by simp [longer]))
    · exact absurd ⟨_, rfl⟩ (hshort ['=', '='] (by simp [longer]))
    · simp only [hc]

namespace Starts

theorem append (h : Starts c cs l) : l.text ++ l.rest = c :: cs :=
  lexeme?_append (lexeme?_of_starts h)

/-- No lexeme is the end of the text. -/
theorem kind_ne_eof (h : Starts c cs l) : l.kind ≠ some .eof := by
  cases h with
  | blank | comment | verbatim | equal | symbol => simp [run]
  | number => simp [run, numberOf]
  | word =>
    simp only [run, wordOf, Kind.ofWord]
    split <;> simp

theorem eq_run (h : Starts c cs l) (hc : isSpace c = true) :
    l = run isSpace (fun _ => none) c cs :=
  Except.ok.inj ((lexeme?_of_starts h).symm.trans (lexeme?_of_starts (.blank hc)))

end Starts

/-! ## What follows a lexeme -/

/-- The text `ds` goes on like `cs` up to a blank. -/
def Resembles (cs ds : List Char) : Prop :=
  ds = cs ∨ ∃ front s after, front <+: cs ∧ isSpace s = true ∧ ds = front ++ s :: after

theorem Resembles.front (h : Resembles cs ds) (hu : ∀ x ∈ u, isSpace x = false) (hds : u <+: ds) :
    u <+: cs := by
  rcases h with rfl | ⟨front, s, after, hfront, hs, rfl⟩
  · exact hds
  · have hfront' : front <+: front ++ s :: after := List.prefix_append _ _
    rcases List.prefix_or_prefix_of_prefix hds hfront' with hle | hle
    · exact hle.trans hfront
    · -- What is left of `u` behind `front` would start with the blank.
      obtain ⟨left, rfl⟩ := hle
      rw [List.prefix_append_right_inj] at hds
      cases left with
      | nil => simpa using hfront
      | cons x left =>
        obtain ⟨rfl, -⟩ := List.cons_prefix_cons.1 hds
        rw [hu x (by simp)] at hs
        cases hs

/-- A class of characters without blanks is left together with the old text. -/
theorem Resembles.head {p : Char → Bool} (h : Resembles cs ds)
    (hp : ∀ x, p x = true → isSpace x = false) (hcs : ∀ x ∈ cs.head?, p x = false) :
    ∀ x ∈ ds.head?, p x = false := by
  intro x hx
  by_contra hpx
  rw [Bool.not_eq_false] at hpx
  obtain ⟨after, rfl⟩ : ∃ after, ds = x :: after := List.head?_eq_some_iff.1 hx
  obtain ⟨rest, rfl⟩ := h.front (u := [x]) (by simpa using hp x hpx) ⟨after, rfl⟩
  rw [hcs x rfl] at hpx
  cases hpx

/-- A run of characters is read again in front of a text with which it does not go on. -/
theorem run_takeWhile {p : Char → Bool} (kind : List Char → Option Kind) (c : Char)
    (cs : List Char) (hr : ∀ x ∈ r.head?, p x = false) :
    run p kind c (cs.takeWhile p ++ r) = { run p kind c cs with rest := r } := by
  have hall : ∀ x ∈ cs.takeWhile p, p x = true := fun x hx => List.mem_takeWhile_imp hx
  have hends : r.takeWhile p = [] ∧ r.dropWhile p = r := by
    cases r with
    | nil => exact ⟨rfl, rfl⟩
    | cons x r =>
      have hx := hr x rfl
      exact ⟨List.takeWhile_cons_of_neg (by simp [hx]), List.dropWhile_cons_of_neg (by simp [hx])⟩
  rw [run, run, List.takeWhile_append_of_pos hall, List.dropWhile_append_of_pos hall, hends.1,
    hends.2, List.append_nil]

theorem head?_dropWhile {p : Char → Bool} : ∀ x ∈ (cs.dropWhile p).head?, p x = false := by
  intro x hx
  have hnot := List.head?_dropWhile_not p cs
  rw [Option.mem_def.1 hx] at hnot
  simpa using hnot

/-- A verbatim block ends where its own characters end. -/
theorem verbatimBody?_local {depth : Nat} {read body rest : List Char}
    (h : verbatimBody? depth read cs = some (body, rest)) (r : List Char) :
    ∃ inner, cs = inner ++ rest ∧ verbatimBody? depth read (inner ++ r) = some (body, r) := by
  induction cs generalizing depth read with
  | nil => cases h
  | cons c cs ih =>
    unfold verbatimBody? at h
    split at h
    · next heq => cases heq
    · next heq =>
      obtain ⟨rfl, rfl⟩ := List.cons.inj heq
      obtain ⟨inner, rfl, hinner⟩ := ih h
      exact ⟨'{' :: inner, rfl, hinner⟩
    · next heq =>
      obtain ⟨rfl, rfl⟩ := List.cons.inj heq
      split at h
      · next hdepth =>
        split at h
        · obtain ⟨rfl, rfl⟩ := Prod.mk.inj (Option.some.inj h)
          exact ⟨['}'], rfl, if_pos hdepth⟩
        · cases h
      · next hdepth =>
        obtain ⟨inner, rfl, hinner⟩ := ih h
        exact ⟨'}' :: inner, rfl, (if_neg hdepth).trans hinner⟩
    · next hopen hclose heq =>
      obtain ⟨rfl, rfl⟩ := List.cons.inj heq
      obtain ⟨inner, rfl, hinner⟩ := ih h
      refine ⟨_ :: inner, rfl, ?_⟩
      rw [List.cons_append, verbatimBody?]
      · exact hinner
      · exact hopen
      · exact hclose

theorem longer_cons (h : u ∈ longer) :
    ∃ x tail, u = x :: tail ∧ ∀ y ∈ tail, isSpace y = false := by
  simp only [longer, verbatimOpen, List.mem_cons, List.not_mem_nil, or_false] at h
  rcases h with rfl | rfl | rfl
  all_goals exact ⟨_, _, rfl, by simp [isSpace]⟩

namespace Starts

/-- The lexeme of a token stays the same in front of a text that resembles the old one. -/
theorem token (h : Starts c cs l) (hk : l.kind = some k) (hr : Resembles l.rest r) :
    ∃ tail, l.text = c :: tail ∧ Starts c (tail ++ r) { l with rest := r } := by
  cases h with
  | blank | comment => cases hk
  | word hc =>
    refine ⟨_, rfl, ?_⟩
    rw [← run_takeWhile wordOf c cs (hr.head (fun x => isSpace_of_isNameChar) head?_dropWhile)]
    exact .word hc
  | number hc hfits =>
    have hstop := hr.head (p := Text.isDigit) (fun x => isSpace_of_isDigit) head?_dropWhile
    have hrun := run_takeWhile numberOf c cs hstop
    refine ⟨_, rfl, ?_⟩
    rw [← hrun]
    refine .number hc ?_
    rw [hrun]
    exact hfits
  | verbatim hinner =>
    obtain ⟨inner, rfl, hagain⟩ := verbatimBody?_local hinner r
    have htext := verbatimBody?_append hinner
    rw [List.reverse_nil, List.nil_append, List.append_cancel_right_eq] at htext
    refine ⟨_, rfl, ?_⟩
    rw [← htext] at hagain
    exact .verbatim hagain
  | equal => exact ⟨_, rfl, .equal⟩
  | symbol hc hshort =>
    refine ⟨[], rfl, .symbol hc fun u hu hlonger => hshort u hu ?_⟩
    obtain ⟨x, tail, rfl, htail⟩ := longer_cons hu
    obtain ⟨rfl, hprefix⟩ := List.cons_prefix_cons.1 hlonger
    exact List.cons_prefix_cons.2 ⟨rfl, hr.front htail hprefix⟩

end Starts

/-! ## A whole text -/

/-- The text `cs` has tokens of the kinds `ks`. -/
inductive Scans : List Char → List Kind → Prop where
  /-- The end of the text. -/
  | ended : Scans [] [.eof]
  /-- A lexeme and what is behind it. -/
  | lexeme {c : Char} {cs : List Char} {l : Lexeme} {ks : List Kind} (here : Starts c cs l)
      (behind : Scans l.rest ks) : Scans (c :: cs) (l.kind.toList ++ ks)

/-- A scan of a text that has not ended is a lexeme and the scan of what is behind it. -/
theorem of_scanFrom_cons {offset : Nat} {ts : List Token} (h : scanFrom offset (c :: cs) = .ok ts) :
    ∃ l us, Starts c cs l ∧ scanFrom (offset + width l.text) l.rest = .ok us ∧
      ts = (l.kind.map fun k => ⟨k, ⟨offset, width l.text⟩⟩).toList ++ us := by
  rw [scanFrom] at h
  split at h
  · cases h
  · next l hl =>
    dsimp only at h
    split at h
    · cases h
    · next us hus =>
      obtain rfl := Except.ok.inj h
      refine ⟨l, us, starts_of_lexeme? hl, hus, ?_⟩
      cases l.kind with
      | none | some => rfl

/-- A lexeme and the tokens behind it are the tokens of a text. -/
theorem scanFrom_cons {offset : Nat} {c : Char} {cs : List Char} {l : Lexeme} {ts : List Token}
    (hl : lexeme? c cs = .ok l) (hts : scanFrom (offset + width l.text) l.rest = .ok ts) :
    ∃ us, scanFrom offset (c :: cs) = .ok us ∧
      us.map Token.kind = l.kind.toList ++ ts.map Token.kind := by
  rw [scanFrom]
  split
  · next fault hfault =>
    rw [hl] at hfault
    cases hfault
  · next l' hl' =>
    obtain rfl : l = l' := Except.ok.inj (hl.symm.trans hl')
    simp only [hts]
    cases hkind : l.kind with
    | none => exact ⟨_, rfl, rfl⟩
    | some kind => exact ⟨_, rfl, rfl⟩

/-- An induction over a scan that succeeds, one lexeme at a time. -/
theorem scanFrom_induct {motive : Nat → List Char → List Token → Prop}
    (ended : ∀ offset, motive offset [] [⟨.eof, ⟨offset, 0⟩⟩])
    (lexeme : ∀ {offset c cs l us}, Starts c cs l →
      scanFrom (offset + width l.text) l.rest = .ok us → motive (offset + width l.text) l.rest us →
      motive offset (c :: cs) ((l.kind.map fun k => ⟨k, ⟨offset, width l.text⟩⟩).toList ++ us))
    {offset : Nat} {ts : List Token} (h : scanFrom offset cs = .ok ts) : motive offset cs ts := by
  induction hsize : cs.length using Nat.strongRecOn generalizing offset cs ts with
  | ind size ih =>
    subst hsize
    cases cs with
    | nil =>
      rw [scanFrom] at h
      obtain rfl := Except.ok.inj h
      exact ended offset
    | cons c cs =>
      obtain ⟨l, us, here, hus, rfl⟩ := of_scanFrom_cons h
      exact lexeme here hus (ih _ (lexeme?_rest_lt (lexeme?_of_starts here)) hus rfl)

theorem scans_of_scanFrom {offset : Nat} {ts : List Token} (h : scanFrom offset cs = .ok ts) :
    Scans cs (ts.map Token.kind) := by
  refine scanFrom_induct (motive := fun _ cs ts => Scans cs (ts.map Token.kind))
    (fun _ => .ended) ?_ h
  intro offset c cs l us here _ behind
  have hall := Scans.lexeme here behind
  cases hkind : l.kind with
  | none | some => rwa [hkind] at hall

theorem scans_of_scan {source : String} {ts : List Token} (h : scan source = .ok ts) :
    Scans source.toList (ts.map Token.kind) :=
  scans_of_scanFrom h

namespace Scans

theorem scanFrom (h : Scans cs ks) (offset : Nat) :
    ∃ ts, Token.scanFrom offset cs = .ok ts ∧ ts.map Token.kind = ks := by
  induction h generalizing offset with
  | ended => exact ⟨_, by rw [Token.scanFrom], rfl⟩
  | lexeme here _ ih =>
    obtain ⟨ts, hts, rfl⟩ := ih _
    exact scanFrom_cons (lexeme?_of_starts here) hts

/-- The end of the text is the last token, and no other. -/
theorem kinds (h : Scans cs ks) : ∃ front, ks = front ++ [.eof] ∧ Kind.eof ∉ front := by
  induction h with
  | ended => exact ⟨[], rfl, List.not_mem_nil⟩
  | @lexeme c cs l ks here _ ih =>
    obtain ⟨front, rfl, hfront⟩ := ih
    refine ⟨l.kind.toList ++ front, (List.append_assoc _ _ _).symm, ?_⟩
    rw [List.mem_append, Option.mem_toList]
    exact not_or_intro here.kind_ne_eof hfront

/-! ## Blanks and comments -/

theorem space (h : Scans cs ks) (hs : isSpace s = true) : Scans (s :: cs) ks := by
  -- A blank is read together with the blanks behind it.
  refine lexeme (.blank hs) ?_
  cases h with
  | ended => exact .ended
  | @lexeme c cs l ks here behind =>
    cases hc : isSpace c with
    | true =>
      obtain rfl := here.eq_run hc
      rwa [run, List.dropWhile_cons_of_pos hc]
    | false =>
      rw [run, List.dropWhile_cons_of_neg (by simp [hc])]
      exact .lexeme here behind

theorem spaces (h : Scans r ks) (hcs : ∀ c ∈ cs, isSpace c = true) : Scans (cs ++ r) ks := by
  induction cs with
  | nil => exact h
  | cons c cs ih =>
    obtain ⟨hc, hcs⟩ := List.forall_mem_cons.1 hcs
    exact (ih hcs).space hc

/-- A comment goes on to the end of the line. -/
theorem comment (h : Scans r ks) (hcs : '\n' ∉ cs) (hr : ∀ x ∈ r.head?, x = '\n') :
    Scans ('/' :: '/' :: (cs ++ r)) ks := by
  have hline : ('/' :: cs).takeWhile (· != '\n') = '/' :: cs := by
    refine List.takeWhile_eq_self_iff.2 fun x hx => bne_iff_ne.2 ?_
    rintro rfl
    simp [hcs] at hx
  have hstop : ∀ x ∈ r.head?, (x != '\n') = false := fun x hx => by simpa using hr x hx
  have hrun : (run (· != '\n') (fun _ => none) '/' ('/' :: (cs ++ r))).rest = r := by
    have hall := run_takeWhile (p := (· != '\n')) (fun _ => none) '/' ('/' :: cs) hstop
    rw [hline, List.cons_append] at hall
    rw [hall]
  refine lexeme .comment ?_
  rwa [hrun]

/-- Skipped text stays skipped in front of a text that starts like the old one, or with a new
line. -/
theorem skipped (hr : Scans r ks) (h : Starts c cs l) (hk : l.kind = none)
    (hhead : r.head? = l.rest.head? ∨ r.head? = some '\n') : Scans (l.text ++ r) ks := by
  cases h with
  | word | number | verbatim | equal | symbol => cases hk
  | blank hc =>
    refine hr.spaces (List.forall_mem_cons.2 ⟨hc, fun x hx => ?_⟩)
    exact List.mem_takeWhile_imp hx
  | @comment cs =>
    have hline : '\n' ∉ cs.takeWhile (· != '\n') := fun hmem => by
      simpa using List.mem_takeWhile_imp hmem
    refine hr.comment hline fun x hx => ?_
    rcases hhead with hsame | hnewline
    · rw [hsame] at hx
      simpa using head?_dropWhile x hx
    · exact Option.some.inj (hx.symm.trans hnewline)

theorem token (hr : Scans r ks) (h : Starts c cs l) (hk : l.kind = some k)
    (hrest : Resembles l.rest r) : Scans (l.text ++ r) (k :: ks) := by
  obtain ⟨tail, htext, hstarts⟩ := h.token hk hrest
  rw [htext]
  have hall := Scans.lexeme hstarts hr
  rwa [hk] at hall

/-- Behind a semicolon on a line of its own a text is scanned like at the start. -/
theorem followed {ds : List Char} {ks us : List Kind} (h : Scans cs ks) (hd : Scans ds us) :
    Scans (cs ++ '\n' :: ';' :: '\n' :: ds) (ks.dropLast ++ .symbol .semicolon :: us) := by
  have hnewline : Scans ('\n' :: ds) us := hd.space rfl
  have hsemicolon : Scans (';' :: '\n' :: ds) (.symbol .semicolon :: us) :=
    .lexeme (.symbol rfl (by simp [longer, verbatimOpen])) hnewline
  have hseam := hsemicolon.space (s := '\n') rfl
  induction h with
  | ended => exact hseam
  | @lexeme c cs l ks here behind ih =>
    have hks : ks ≠ [] := by
      obtain ⟨front, rfl, -⟩ := behind.kinds
      exact List.append_ne_nil_of_right_ne_nil _ (List.cons_ne_nil _ _)
    rw [← here.append, List.append_assoc, List.dropLast_append_of_ne_nil hks, List.append_assoc]
    cases hk : l.kind with
    | none =>
      refine ih.skipped here hk ?_
      cases l.rest with
      | nil => exact .inr rfl
      | cons x rest => exact .inl rfl
    | some k =>
      exact ih.token here hk (.inr ⟨l.rest, '\n', _, List.prefix_rfl, rfl, rfl⟩)

end Scans

end ProofScript.Token
