import ProofScript.Proofs.Token.Comments
import ProofScript.Script.Directive

/-!
# Where directives stand

The directives of a script are read line by line, and the tokens lexeme by lexeme. Both agree about
a line except when it stands inside a verbatim block: a directive line is a comment exactly when no
verbatim block goes over its start (`skipped_iff_outside`).
-/

namespace ProofScript.Directives

variable {source line tag value : String} {ts : List Token}

/-- A directive line starts with two slashes. -/
theorem slashes_of_ofLine? (h : (ofLine? line).isSome) :
    ∃ rest, line.toList = '/' :: '/' :: rest := by
  unfold ofLine? at h
  split at h
  · next rest hline => exact ⟨rest, hline⟩
  · cases h

/-- The directives with those of one more line. -/
def add (directives : Directives) (line : String) : Directives :=
  match ofLine? line with
  | some (tag, value) => directives.insert tag value
  | none => directives

theorem get?_add {directives : Directives}
    (h : NameMap.get? (directives.add line) tag = some value) :
    ofLine? line = some (tag, value) ∨ NameMap.get? directives tag = some value := by
  unfold add at h
  split at h
  · next key text hline =>
    rw [NameMap.get?_insert] at h
    split at h
    · next htag =>
      obtain rfl := Option.some.inj h
      exact .inl (htag ▸ hline)
    · exact .inr h
  · exact .inr h

/-- The value of a tag stands on one of the lines. -/
theorem exists_line_of_get? (h : NameMap.get? (ofSource source) tag = some value) :
    ∃ line ∈ Text.lines source, ofLine? line = some (tag, value) := by
  have hfold : ofSource source = (Text.lines source).foldl add NameMap.empty := rfl
  rw [hfold] at h
  generalize Text.lines source = file at h ⊢
  induction file using List.reverseRecOn with
  | nil => cases h
  | append_singleton file last ih =>
    rw [List.foldl_append] at h
    rcases get?_add h with hlast | hfile
    · exact ⟨last, by simp, hlast⟩
    · obtain ⟨line, hline, htag⟩ := ih hfile
      exact ⟨line, List.mem_append_left _ hline, htag⟩

/-- A directive line is a comment, which no token covers, exactly when it is no line of a verbatim
block; and each value of a tag stands on a directive line. -/
theorem skipped_iff_outside (h : Token.scan source = .ok ts) :
    (∀ before line, Text.LineAt source.toList before line → (ofLine? line).isSome →
      ((Token.SkipsComment source (Token.width before) ∧
          ∀ t ∈ ts, t.span.Apart ⟨Token.width before, 2⟩) ↔
        ¬∃ t ∈ ts, t.StartsLine (Token.width before))) ∧
    ∀ tag value, NameMap.get? (ofSource source) tag = some value →
      ∃ before line, Text.LineAt source.toList before line ∧ ofLine? line = some (tag, value) := by
  refine ⟨fun before line hline htag => ⟨fun hskipped => ?_, fun houtside => ?_⟩,
    fun tag value hvalue => ?_⟩
  · rintro ⟨t, ht, hinside⟩
    exact hinside.not_apart h ht 2 (hskipped.2 t ht)
  · obtain ⟨rest, hslashes⟩ := slashes_of_ofLine? htag
    obtain ⟨behind, hsource, -⟩ := hline.ends
    rw [hslashes] at hsource
    rcases Token.comment_or_startsLine h hsource hline.starts with hreaches | hinside
    · rw [Nat.zero_add] at hreaches
      have hskips : Token.SkipsComment source (Token.width before) :=
        ⟨'/', _, _, hreaches, .comment, rfl, by simp [Token.run]⟩
      exact ⟨hskips, hskips.apart h⟩
    · rw [Nat.zero_add] at hinside
      exact absurd hinside houtside
  · obtain ⟨line, hmem, htag⟩ := exists_line_of_get? hvalue
    obtain ⟨before, hline⟩ := Text.mem_lines_iff.1 hmem
    exact ⟨before, line, hline, htag⟩

/-- A comment that names a backend, and a directive in the proof text of a chain. -/
theorem skipped_iff_outside_both :
    let source := "// SKIP: rosette\na ~ [true] \x7b\x7b\x7b\n// EXPECT: 5\n\x7d\x7d\x7d b"
    let ts : List Token := [⟨.name "a", ⟨17, 1⟩⟩, ⟨.symbol .tilde, ⟨19, 1⟩⟩,
      ⟨.symbol .openBracket, ⟨21, 1⟩⟩, ⟨.name "true", ⟨22, 4⟩⟩, ⟨.symbol .closeBracket, ⟨26, 1⟩⟩,
      ⟨.verbatim "\n// EXPECT: 5\n", ⟨28, 20⟩⟩, ⟨.name "b", ⟨49, 1⟩⟩, ⟨.eof, ⟨50, 0⟩⟩]
    Token.scan source = .ok ts ∧ (Token.SkipsComment source 0 ∧ ∀ t ∈ ts, t.span.Apart ⟨0, 2⟩) ∧
      ¬(Token.SkipsComment source 32 ∧ ∀ t ∈ ts, t.span.Apart ⟨32, 2⟩) := by
  intro source ts
  have hscan : Token.scan source = .ok ts := by decide +kernel +zetaReduce
  obtain ⟨hlines, -⟩ := skipped_iff_outside hscan
  have hfirst : Text.LineAt source.toList [] "// SKIP: rosette" :=
    ⟨.inl rfl, by decide, "\na ~ [true] \x7b\x7b\x7b\n// EXPECT: 5\n\x7d\x7d\x7d b".toList,
      by decide, .feed (by decide)⟩
  have hsecond : Text.LineAt source.toList
      "// SKIP: rosette\na ~ [true] \x7b\x7b\x7b\n".toList "// EXPECT: 5" :=
    ⟨.inr (by decide), by decide, "\n\x7d\x7d\x7d b".toList, by decide, .feed (by decide)⟩
  refine ⟨hscan, (hlines _ _ hfirst (by decide)).2 ?_, fun hskipped => ?_⟩
  · rintro ⟨t, -, front, line, -, hplace⟩
    rw [Token.width_append, Token.width_nil] at hplace
    have hopen : 0 < Token.width Token.verbatimOpen := by decide
    omega
  · exact (hlines _ _ hsecond (by decide)).1 hskipped ⟨⟨.verbatim "\n// EXPECT: 5\n", ⟨28, 20⟩⟩,
      by simp [ts], [], "// EXPECT: 5\n".toList, rfl, by decide⟩

/-- A line of a verbatim block sets the expected result of a run. -/
theorem expectation?_of_verbatim :
    let source := "a ~ [true] \x7b\x7b\x7b\n// EXPECT: 5\n\x7d\x7d\x7d b"
    let before := "a ~ [true] \x7b\x7b\x7b\n".toList
    let block : Token := ⟨.verbatim "\n// EXPECT: 5\n", ⟨11, 20⟩⟩
    (∃ ts, Token.scan source = .ok ts ∧ block ∈ ts) ∧
      Text.LineAt source.toList before "// EXPECT: 5" ∧ (ofLine? "// EXPECT: 5").isSome ∧
      ¬Token.SkipsComment source (Token.width before) ∧
      ¬block.span.Apart ⟨Token.width before, 2⟩ ∧
      expectation? (ofSource source) = some (.int 5) := by
  intro source before block
  have hscan : ∃ ts, Token.scan source = .ok ts ∧ block ∈ ts :=
    ⟨[⟨.name "a", ⟨0, 1⟩⟩, ⟨.symbol .tilde, ⟨2, 1⟩⟩, ⟨.symbol .openBracket, ⟨4, 1⟩⟩,
      ⟨.name "true", ⟨5, 4⟩⟩, ⟨.symbol .closeBracket, ⟨9, 1⟩⟩, block, ⟨.name "b", ⟨32, 1⟩⟩,
      ⟨.eof, ⟨33, 0⟩⟩], by decide +kernel +zetaReduce, by simp⟩
  obtain ⟨ts, hts, hblock⟩ := hscan
  have hline : block.StartsLine (Token.width before) :=
    ⟨[], "// EXPECT: 5\n".toList, rfl, by decide⟩
  have hmeets := hline.not_apart hts hblock 2
  have hat : Text.LineAt source.toList before "// EXPECT: 5" :=
    ⟨.inr (by decide), by decide, "\n\x7d\x7d\x7d b".toList, by decide, .feed (by decide)⟩
  exact ⟨⟨ts, hts, hblock⟩, hat, by decide,
    fun hskips => hmeets (hskips.apart hts block hblock), hmeets, by decide +kernel⟩

end ProofScript.Directives
