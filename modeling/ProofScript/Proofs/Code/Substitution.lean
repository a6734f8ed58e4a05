import ProofScript.Proofs.Code.Filling
import ProofScript.Proofs.Code.Heading

/-!
# Substitution is one reading from left to right

How a snippet is meant to be read is said here without the scanner. `Reads text segments` cuts a
text into characters that are copied, doubled dollar signs and placeholders; a plain placeholder
goes on as long as its name does. A text has at most one such reading, and the scanner finds it
(`Reads.pieces`, `exists_reads`). Substitution succeeds exactly when there is a reading and every
placeholder has a value, and its result is what the segments stand for, one after the other
(`substitute_exact`). So no inserted value is part of a text that is read.
-/

namespace ProofScript.Snippet

/-! ## Readings -/

/-- What a text with placeholders is cut into. -/
inductive Segment where
  /-- A character that stands for itself. -/
  | copied (c : Char)
  /-- Two dollar signs. -/
  | dollar
  /-- A dollar sign and a name. -/
  | plain (name : String)
  /-- A dollar sign and a name in braces. -/
  | braced (name : String)

/-- The name of a placeholder. -/
def Segment.name? : Segment → Option String
  | copied _ | dollar => none
  | plain name | braced name => some name

/-- From left to right, the text is made of the segments. -/
inductive Reads : List Char → List Segment → Prop where
  | nil : Reads [] []
  | copied {c : Char} {cs : List Char} {segments : List Segment} (hc : c ≠ '$')
    (h : Reads cs segments) : Reads (c :: cs) (.copied c :: segments)
  | dollar {cs : List Char} {segments : List Segment} (h : Reads cs segments) :
    Reads ('$' :: '$' :: cs) (.dollar :: segments)
  -- The name is the longest one: it cannot go on with the character behind it.
  | plain {name : String} {cs : List Char} {segments : List Segment}
    (hname : Text.isName name.toList = true) (hends : ∀ c ∈ cs.head?, Text.isNameChar c = false)
    (h : Reads cs segments) : Reads ('$' :: (name.toList ++ cs)) (.plain name :: segments)
  | braced {name : String} {cs : List Char} {segments : List Segment}
    (hname : Text.isName name.toList = true) (h : Reads cs segments) :
    Reads ('$' :: '{' :: (name.toList ++ '}' :: cs)) (.braced name :: segments)

/-- The first value that is listed for a name. -/
def FirstValue (values : List (String × String)) (name value : String) : Prop :=
  ∃ before after, values = before ++ (name, value) :: after ∧ ∀ entry ∈ before, entry.1 ≠ name

/-- What a segment stands for. -/
inductive Segment.Gives (values : List (String × String)) : Segment → List Char → Prop where
  | copied (c : Char) : Gives values (.copied c) [c]
  | dollar : Gives values .dollar ['$']
  | placeholder {segment : Segment} {name value : String} (hname : segment.name? = some name)
    (hvalue : FirstValue values name value) : Gives values segment value.toList

variable {values : List (String × String)} {text : List Char} {segments : List Segment}

theorem lookup_eq_some_iff {name value : String} :
    values.lookup name = some value ↔ FirstValue values name value := by
  have hcomm : ∀ entry : String × String, (name != entry.1) = true ↔ entry.1 ≠ name := by
    intro entry
    rw [bne_iff_ne, ne_comm]
  simp only [List.lookup_eq_some_iff, FirstValue, hcomm]

/-! ## The scanner finds the reading -/

/-- The piece of a segment. -/
def Segment.piece : Segment → Piece
  | copied c => .char c
  | dollar => .char '$'
  | plain name | braced name => .key name

/-- No character of a name ends a placeholder in braces. -/
theorem ne_brace_of_mem {name : List Char} (hname : Text.isName name = true) {c : Char}
    (hc : c ∈ name) : c ≠ '}' := by
  rintro rfl
  cases name with
  | nil => cases hc
  | cons d ds =>
    obtain ⟨hd, hds⟩ := Bool.and_eq_true_iff.1 hname
    rcases List.mem_cons.1 hc with rfl | hc
    · exact absurd hd (by decide)
    · exact absurd (List.all_eq_true.1 hds _ hc) (by decide)

theorem piecesOf_braced {key rest : List Char} (hkey : Text.isName key = true) :
    piecesOf ('$' :: '{' :: (key ++ '}' :: rest)) = .key (String.ofList key) :: piecesOf rest := by
  have hinside : ∀ c ∈ key, (c != '}') = true := by
    intro c hc
    simpa using ne_brace_of_mem hkey hc
  have hdrop : (key ++ '}' :: rest).dropWhile (· != '}') = '}' :: rest :=
    dropWhile_stop hinside (by decide)
  have htake : (key ++ '}' :: rest).takeWhile (· != '}') = key :=
    takeWhile_stop hinside (by decide)
  rw [piecesOf]
  split
  · next heq =>
    rw [hdrop] at heq
    cases heq
  · next after heq =>
    rw [hdrop] at heq
    obtain ⟨-, rfl⟩ := List.cons.inj heq
    simp only [htake, hkey, if_true]

/-- The pieces of a text are those of its segments. -/
theorem Reads.pieces (h : Reads text segments) : piecesOf text = segments.map Segment.piece := by
  induction h with
  | nil => exact piecesOf.eq_1
  | copied hc _ ih => rw [piecesOf_cons hc, ih, List.map_cons, Segment.piece]
  | dollar _ ih => rw [piecesOf.eq_2, ih, List.map_cons, Segment.piece]
  | plain hname hends _ ih =>
    rw [piecesOf_key hname hends, ih, String.ofList_toList, List.map_cons, Segment.piece]
  | braced hname _ ih =>
    rw [piecesOf_braced hname, ih, String.ofList_toList, List.map_cons, Segment.piece]

/-- A text has a reading unless the scanner stops at a dollar sign that starts no placeholder. -/
theorem exists_reads (h : ∀ fault, Piece.broken fault ∉ piecesOf text) :
    ∃ segments, Reads text segments := by
  have behind : ∀ {piece : Piece} {rest : List Char},
      (∀ fault, Piece.broken fault ∉ piece :: piecesOf rest) →
      ∀ fault, Piece.broken fault ∉ piecesOf rest :=
    fun h fault hmem => h fault (List.mem_cons_of_mem _ hmem)
  induction text using piecesOf.induct with
  | case1 => exact ⟨[], .nil⟩
  | case2 rest ih =>
    rw [piecesOf.eq_2] at h
    obtain ⟨segments, hreads⟩ := ih (behind h)
    exact ⟨_, .dollar hreads⟩
  | case3 rest hnone =>
    refine absurd ?_ (h .unclosedBrace)
    rw [piecesOf]
    split
    · exact List.mem_singleton_self _
    · next heq =>
      rw [hnone] at heq
      cases heq
  | case4 rest brace after hafter _ key hkey ih =>
    have hbrace : brace = '}' := by
      have hstop := List.head?_dropWhile_not (· != '}') rest
      simpa [hafter] using hstop
    have hsplit : rest = key ++ '}' :: after := by
      rw [← hbrace, ← hafter]
      exact (List.takeWhile_append_dropWhile).symm
    rw [hsplit, piecesOf_braced hkey] at h
    obtain ⟨segments, hreads⟩ := ih (behind h)
    have hname : Text.isName (String.ofList key).toList = true := by rwa [String.toList_ofList]
    have hall := Reads.braced hname hreads
    rw [String.toList_ofList, ← hsplit] at hall
    exact ⟨_, hall⟩
  | case5 rest brace after hafter _ key hkey =>
    refine absurd ?_ (h (.badKey (String.ofList key)))
    rw [piecesOf]
    split
    · next heq =>
      rw [hafter] at heq
      cases heq
    · rw [if_neg hkey]
      exact List.mem_singleton_self _
  | case6 c rest hdollar hbrace hstart _ ih =>
    rw [piecesOf.eq_4 c rest hdollar hbrace, if_pos hstart] at h
    obtain ⟨segments, hreads⟩ := ih (behind h)
    have hname :
        Text.isName (String.ofList (c :: rest.takeWhile Text.isNameChar)).toList = true := by
      simp [Text.isName, hstart]
    have hends : ∀ x ∈ (rest.dropWhile Text.isNameChar).head?, Text.isNameChar x = false := by
      intro x hx
      have hstop := List.head?_dropWhile_not Text.isNameChar rest
      simpa [Option.mem_def.1 hx] using hstop
    have hall := Reads.plain hname hends hreads
    rw [String.toList_ofList, List.cons_append, List.takeWhile_append_dropWhile] at hall
    exact ⟨_, hall⟩
  | case7 c rest hdollar hbrace hstart =>
    rw [piecesOf.eq_4 c rest hdollar hbrace, if_neg hstart] at h
    exact absurd (List.mem_singleton_self _) (h .bareDollar)
  | case8 =>
    rw [piecesOf] at h
    exact absurd (List.mem_singleton_self _) (h .bareDollar)
  | case9 c rest hdollar hbrace hname hlone ih =>
    have hc : c ≠ '$' := by
      rintro rfl
      cases rest with
      | nil => exact hlone rfl rfl
      | cons d rest => exact hname d rest rfl rfl
    rw [piecesOf_cons hc] at h
    obtain ⟨segments, hreads⟩ := ih (behind h)
    exact ⟨_, .copied hc hreads⟩

/-! ## There is one reading -/

/-- Two names that go as far as they can in the same text are the same. -/
theorem name_unique {name other : String} {cs ds : List Char}
    (hname : Text.isName name.toList = true) (hother : Text.isName other.toList = true)
    (hcs : ∀ c ∈ cs.head?, Text.isNameChar c = false)
    (hds : ∀ c ∈ ds.head?, Text.isNameChar c = false)
    (h : name.toList ++ cs = other.toList ++ ds) : name = other ∧ cs = ds := by
  have hpieces := piecesOf_key hname hcs
  rw [h, piecesOf_key hother hds, String.ofList_toList, String.ofList_toList] at hpieces
  obtain ⟨hkey, -⟩ := List.cons.inj hpieces
  obtain rfl := Piece.key.inj hkey
  exact ⟨rfl, List.append_cancel_left h⟩

/-- Two names in braces at the same place are the same. -/
theorem braced_unique {name other : String} {cs ds : List Char}
    (hname : Text.isName name.toList = true) (hother : Text.isName other.toList = true)
    (h : name.toList ++ '}' :: cs = other.toList ++ '}' :: ds) : name = other ∧ cs = ds := by
  have hpieces : piecesOf ('$' :: '{' :: (name.toList ++ '}' :: cs)) =
      .key (String.ofList name.toList) :: piecesOf cs := piecesOf_braced hname
  rw [h, piecesOf_braced hother, String.ofList_toList, String.ofList_toList] at hpieces
  obtain ⟨hkey, -⟩ := List.cons.inj hpieces
  obtain rfl := Piece.key.inj hkey
  exact ⟨rfl, (List.cons.inj (List.append_cancel_left h)).2⟩

/-- A name starts with neither a dollar sign nor a brace. -/
theorem isNameStart_of_isName {name cs ds : List Char} {c : Char} (hname : Text.isName name = true)
    (h : name ++ cs = c :: ds) : Text.isNameStart c = true := by
  cases name with
  | nil => cases hname
  | cons d rest =>
    obtain ⟨hd, -⟩ := Bool.and_eq_true_iff.1 hname
    obtain ⟨rfl, -⟩ := List.cons.inj h
    exact hd

/-- What can stand behind a dollar sign. -/
theorem Reads.of_dollar (h : Reads ('$' :: text) segments) :
    (∃ cs rest, text = '$' :: cs ∧ segments = .dollar :: rest ∧ Reads cs rest) ∨
      (∃ name cs rest, Text.isName name.toList = true ∧
        (∀ c ∈ cs.head?, Text.isNameChar c = false) ∧ text = name.toList ++ cs ∧
        segments = .plain name :: rest ∧ Reads cs rest) ∨
      ∃ name cs rest, Text.isName name.toList = true ∧ text = '{' :: (name.toList ++ '}' :: cs) ∧
        segments = .braced name :: rest ∧ Reads cs rest := by
  generalize hall : '$' :: text = all at h
  cases h with
  | nil => cases hall
  | copied hc _ => exact absurd (List.cons.inj hall).1.symm hc
  | dollar h => exact .inl ⟨_, _, (List.cons.inj hall).2, rfl, h⟩
  | plain hname hends h => exact .inr (.inl ⟨_, _, _, hname, hends, (List.cons.inj hall).2, rfl, h⟩)
  | braced hname h => exact .inr (.inr ⟨_, _, _, hname, (List.cons.inj hall).2, rfl, h⟩)

/-- A text has at most one reading. -/
theorem Reads.unique {others : List Segment} (h : Reads text segments) (h' : Reads text others) :
    segments = others := by
  have hnoDollar : ¬Text.isNameStart '$' = true := by decide
  have hnoBrace : ¬Text.isNameStart '{' = true := by decide
  induction h generalizing others with
  | nil =>
    cases h'
    rfl
  | copied hc _ ih =>
    cases h' with
    | copied _ h' => rw [ih h']
    | dollar | plain | braced => exact absurd rfl hc
  | dollar _ ih =>
    rcases h'.of_dollar with ⟨cs, rest, htext, rfl, h'⟩ | ⟨name, cs, rest, hname, -, htext, -⟩ |
      ⟨name, cs, rest, -, htext, -⟩
    · obtain rfl := (List.cons.inj htext).2
      rw [ih h']
    · exact absurd (isNameStart_of_isName hname htext.symm) hnoDollar
    · exact absurd (List.cons.inj htext).1 (by decide)
  | plain hname hends _ ih =>
    rcases h'.of_dollar with ⟨cs, rest, htext, -⟩ |
      ⟨other, cs, rest, hother, hends', htext, rfl, h'⟩ | ⟨other, cs, rest, -, htext, -⟩
    · exact absurd (isNameStart_of_isName hname htext) hnoDollar
    · obtain ⟨rfl, rfl⟩ := name_unique hname hother hends hends' htext
      rw [ih h']
    · exact absurd (isNameStart_of_isName hname htext) hnoBrace
  | braced hname _ ih =>
    rcases h'.of_dollar with ⟨cs, rest, htext, -⟩ | ⟨other, cs, rest, hother, -, htext, -⟩ |
      ⟨other, cs, rest, hother, htext, rfl, h'⟩
    · exact absurd (List.cons.inj htext).1 (by decide)
    · exact absurd (isNameStart_of_isName hother htext.symm) hnoBrace
    · obtain ⟨rfl, rfl⟩ := braced_unique hname hother (List.cons.inj htext).2
      rw [ih h']

/-! ## Filling in a reading -/

theorem fill_char_ok {c : Char} {ps : List Piece} {out : List Char} :
    fill values (.char c :: ps) = .ok out ↔
      ∃ rest, fill values ps = .ok rest ∧ out = c :: rest := by
  constructor
  · intro h
    obtain ⟨rest, hrest, hout⟩ := ok_of_bind h
    exact ⟨rest, hrest, (Except.ok.inj hout).symm⟩
  · rintro ⟨rest, hrest, rfl⟩
    exact bind_of_ok hrest rfl

theorem fill_key_ok {name : String} {ps : List Piece} {out : List Char} :
    fill values (.key name :: ps) = .ok out ↔
      ∃ value rest, FirstValue values name value ∧ fill values ps = .ok rest ∧
        out = value.toList ++ rest := by
  constructor
  · intro h
    cases hvalue : values.lookup name with
    | none => simp [fill, hvalue] at h
    | some value =>
      simp only [fill, hvalue] at h
      obtain ⟨rest, hrest, hout⟩ := ok_of_bind h
      exact ⟨value, rest, lookup_eq_some_iff.1 hvalue, hrest, (Except.ok.inj hout).symm⟩
  · rintro ⟨value, rest, hvalue, hrest, rfl⟩
    simp only [fill, lookup_eq_some_iff.2 hvalue]
    exact bind_of_ok hrest rfl

theorem not_broken_of_fill {ps : List Piece} {out : List Char} (h : fill values ps = .ok out)
    (fault : TemplateFault) : Piece.broken fault ∉ ps := by
  induction ps generalizing out with
  | nil => exact List.not_mem_nil
  | cons p ps ih =>
    intro hmem
    cases p with
    | broken other => cases h
    | char c =>
      obtain ⟨rest, hrest, -⟩ := fill_char_ok.1 h
      exact ih hrest (by simpa using hmem)
    | key name =>
      obtain ⟨value, rest, -, hrest, -⟩ := fill_key_ok.1 h
      exact ih hrest (by simpa using hmem)

/-- A placeholder stands for the first value of its name. -/
theorem Segment.gives_iff {segment : Segment} {name : String} (hname : segment.name? = some name)
    {output : List Char} :
    segment.Gives values output ↔
      ∃ value, FirstValue values name value ∧ output = value.toList := by
  constructor
  · intro h
    cases h with
    | copied | dollar => cases hname
    | placeholder hother hvalue =>
      obtain rfl := Option.some.inj (hname.symm.trans hother)
      exact ⟨_, hvalue, rfl⟩
  · rintro ⟨value, hvalue, rfl⟩
    exact .placeholder hname hvalue

/-- Any other segment stands for one character. -/
theorem Segment.exists_char (values : List (String × String)) {segment : Segment}
    (hname : segment.name? = none) :
    ∃ c, segment.piece = .char c ∧ ∀ output, segment.Gives values output ↔ output = [c] := by
  have only : ∀ {c : Char}, segment.Gives values [c] →
      (∀ output, segment.Gives values output → output = [c]) →
      ∀ output, segment.Gives values output ↔ output = [c] := by
    intro c hc h output
    constructor
    · exact h output
    · rintro rfl
      exact hc
  cases segment with
  | plain | braced => cases hname
  | copied c =>
    refine ⟨c, rfl, only (.copied c) fun output h => ?_⟩
    cases h with
    | copied => rfl
    | placeholder hother => cases hother
  | dollar =>
    refine ⟨'$', rfl, only .dollar fun output h => ?_⟩
    cases h with
    | dollar => rfl
    | placeholder hother => cases hother

theorem Segment.piece_of_name? {segment : Segment} {name : String}
    (hname : segment.name? = some name) : segment.piece = .key name := by
  cases segment with
  | copied | dollar => cases hname
  | plain | braced =>
    obtain rfl := Option.some.inj hname
    rfl

/-- The first segment gives the start of the result. -/
theorem fill_segment_ok {segment : Segment} {ps : List Piece} {out : List Char} :
    fill values (segment.piece :: ps) = .ok out ↔
      ∃ output rest, segment.Gives values output ∧ fill values ps = .ok rest ∧
        out = output ++ rest := by
  cases hname : segment.name? with
  | none =>
    obtain ⟨c, hpiece, hgives⟩ := Segment.exists_char values hname
    rw [hpiece, fill_char_ok]
    constructor
    · rintro ⟨rest, hrest, rfl⟩
      exact ⟨[c], rest, (hgives _).2 rfl, hrest, rfl⟩
    · rintro ⟨output, rest, houtput, hrest, rfl⟩
      obtain rfl := (hgives output).1 houtput
      exact ⟨rest, hrest, rfl⟩
  | some name =>
    rw [Segment.piece_of_name? hname, fill_key_ok]
    constructor
    · rintro ⟨value, rest, hvalue, hrest, rfl⟩
      exact ⟨_, rest, .placeholder hname hvalue, hrest, rfl⟩
    · rintro ⟨output, rest, houtput, hrest, rfl⟩
      obtain ⟨value, hvalue, rfl⟩ := (Segment.gives_iff hname).1 houtput
      exact ⟨value, rest, hvalue, hrest, rfl⟩

/-- The result is what the segments stand for, one after the other. -/
theorem fill_segments_ok {out : List Char} :
    fill values (segments.map Segment.piece) = .ok out ↔
      ∃ outputs, List.Forall₂ (Segment.Gives values) segments outputs ∧ out = outputs.flatten := by
  induction segments generalizing out with
  | nil =>
    constructor
    · intro h
      exact ⟨[], .nil, (Except.ok.inj h).symm⟩
    · rintro ⟨_, ⟨⟩, rfl⟩
      rfl
  | cons segment segments ih =>
    rw [List.map_cons, fill_segment_ok]
    constructor
    · rintro ⟨output, rest, houtput, hrest, rfl⟩
      obtain ⟨outputs, houtputs, rfl⟩ := ih.1 hrest
      exact ⟨output :: outputs, .cons houtput houtputs, rfl⟩
    · rintro ⟨_, hall, rfl⟩
      cases hall with
      | cons houtput houtputs => exact ⟨_, _, houtput, ih.2 ⟨_, houtputs, rfl⟩, rfl⟩

theorem substitute_ok {s : Snippet} {result : String} :
    s.substitute values = .ok result ↔ fill values s.pieces = .ok result.toList := by
  constructor
  · intro h
    obtain ⟨out, hout, hresult⟩ := ok_of_bind h
    rw [← Except.ok.inj hresult, String.toList_ofList]
    exact hout
  · intro h
    exact bind_of_ok h (by rw [String.ofList_toList]; rfl)

/-- A snippet has the given result when its text has a reading whose segments stand for it. -/
theorem substitute_eq_ok_iff {s : Snippet} {result : String} :
    s.substitute values = .ok result ↔
      ∃ segments outputs, Reads s.text.toList segments ∧
        List.Forall₂ (Segment.Gives values) segments outputs ∧
        result.toList = outputs.flatten := by
  rw [substitute_ok, pieces]
  constructor
  · intro h
    obtain ⟨segments, hreads⟩ := exists_reads (not_broken_of_fill h)
    rw [hreads.pieces] at h
    obtain ⟨outputs, houtputs, hresult⟩ := fill_segments_ok.1 h
    exact ⟨segments, outputs, hreads, houtputs, hresult⟩
  · rintro ⟨segments, outputs, hreads, houtputs, hresult⟩
    rw [hreads.pieces]
    exact fill_segments_ok.2 ⟨outputs, houtputs, hresult⟩

/-- A name that is listed has a first value. -/
theorem exists_firstValue {name : String} :
    (∃ value, FirstValue values name value) ↔ ∃ value, (name, value) ∈ values := by
  constructor
  · rintro ⟨value, before, after, rfl, -⟩
    exact ⟨value, List.mem_append_right _ List.mem_cons_self⟩
  · rintro ⟨value, hvalue⟩
    have hknown : (values.map Prod.fst).contains name = true := by
      simpa using ⟨value, hvalue⟩
    obtain ⟨first, hfirst⟩ := lookup_of_known hknown
    exact ⟨first, lookup_eq_some_iff.1 hfirst⟩

/-- A segment stands for something when its name, if it has one, is listed. -/
theorem Segment.exists_gives {segment : Segment} :
    (∃ output, segment.Gives values output) ↔
      ∀ name ∈ segment.name?, ∃ value, (name, value) ∈ values := by
  cases hname : segment.name? with
  | none =>
    obtain ⟨c, -, hgives⟩ := Segment.exists_char values hname
    exact ⟨fun _ _ hother => (nomatch hother), fun _ => ⟨[c], (hgives _).2 rfl⟩⟩
  | some name =>
    simp only [Segment.gives_iff hname, Option.mem_some_iff, forall_eq', ← exists_firstValue]
    constructor
    · rintro ⟨_, value, hvalue, -⟩
      exact ⟨value, hvalue⟩
    · rintro ⟨value, hvalue⟩
      exact ⟨_, value, hvalue, rfl⟩

/-- The segments stand for something when all their names are listed. -/
theorem exists_outputs :
    (∃ outputs, List.Forall₂ (Segment.Gives values) segments outputs) ↔
      ∀ segment ∈ segments, ∀ name ∈ segment.name?, ∃ value, (name, value) ∈ values := by
  induction segments with
  | nil => exact ⟨fun _ => List.forall_mem_nil _, fun _ => ⟨[], .nil⟩⟩
  | cons segment segments ih =>
    rw [List.forall_mem_cons, ← ih, ← Segment.exists_gives]
    constructor
    · rintro ⟨_, hall⟩
      cases hall with
      | cons houtput houtputs => exact ⟨⟨_, houtput⟩, _, houtputs⟩
    · rintro ⟨⟨output, houtput⟩, outputs, houtputs⟩
      exact ⟨output :: outputs, .cons houtput houtputs⟩

/-- The reading of a text whose dollar signs are doubled. -/
theorem reads_double (cs : List Char) :
    Reads (cs.flatMap fun c => if c = '$' then ['$', '$'] else [c])
      (cs.map fun c => if c = '$' then .dollar else .copied c) := by
  induction cs with
  | nil => exact .nil
  | cons c cs ih =>
    rw [List.flatMap_cons, List.map_cons]
    by_cases hc : c = '$'
    · rw [if_pos hc, if_pos hc]
      exact .dollar ih
    · rw [if_neg hc, if_neg hc]
      exact .copied hc ih

/-- Doubled dollar signs stand for the text before doubling. -/
theorem gives_double (cs : List Char) :
    List.Forall₂ (Segment.Gives values) (cs.map fun c => if c = '$' then .dollar else .copied c)
      (cs.map fun c => [c]) := by
  induction cs with
  | nil => exact .nil
  | cons c cs ih =>
    rw [List.map_cons, List.map_cons]
    refine .cons ?_ ih
    by_cases hc : c = '$'
    · rw [if_pos hc, hc]
      exact .dollar
    · rw [if_neg hc]
      exact .copied c

/-- Substitution is one reading from left to right. It succeeds exactly when the text has a reading,
every dollar sign in it being part of a segment, and every placeholder has a value; the result is
what the segments stand for, one after the other. There is at most one reading, and a text whose
dollar signs are doubled gives the text. -/
theorem substitute_exact (s : Snippet) (values : List (String × String)) :
    ((∃ result, s.substitute values = .ok result) ↔
      ∃ segments, Reads s.text.toList segments ∧
        ∀ segment ∈ segments, ∀ name ∈ segment.name?, ∃ value, (name, value) ∈ values) ∧
    (∀ result, s.substitute values = .ok result ↔
      ∃ segments outputs, Reads s.text.toList segments ∧
        List.Forall₂ (Segment.Gives values) segments outputs ∧
        result.toList = outputs.flatten) ∧
    (∀ segments others, Reads s.text.toList segments → Reads s.text.toList others →
      segments = others) ∧
    ∀ text : String, (Snippet.mk (Text.double '$' text)).substitute values = .ok text := by
  refine ⟨?_, fun result => substitute_eq_ok_iff, fun _ _ => Reads.unique, fun text => ?_⟩
  · constructor
    · rintro ⟨result, hresult⟩
      obtain ⟨segments, outputs, hreads, houtputs, -⟩ := substitute_eq_ok_iff.1 hresult
      exact ⟨segments, hreads, exists_outputs.1 ⟨outputs, houtputs⟩⟩
    · rintro ⟨segments, hreads, hlisted⟩
      obtain ⟨outputs, houtputs⟩ := exists_outputs.2 hlisted
      have hresult : (String.ofList outputs.flatten).toList = outputs.flatten :=
        String.toList_ofList
      exact ⟨_, substitute_eq_ok_iff.2 ⟨segments, outputs, hreads, houtputs, hresult⟩⟩
  · refine substitute_eq_ok_iff.2 ⟨_, _, ?_, gives_double text.toList, ?_⟩
    · rw [Text.double, Text.escapeWith, String.toList_ofList]
      exact reads_double text.toList
    · rw [← List.flatMap_def, List.flatMap_singleton']

/-- What is inserted is not looked at again. -/
example : (Snippet.mk "$who, $\x7bwho\x7ds pay $$5").substitute [("who", "$b\x7d"), ("who", "c")] =
    .ok "$b\x7d, $b\x7ds pay $5" := by
  decide +kernel

end ProofScript.Snippet
