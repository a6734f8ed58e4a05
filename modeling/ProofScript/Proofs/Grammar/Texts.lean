import ProofScript.Proofs.Action
import ProofScript.Proofs.Grammar.Lockstep
import ProofScript.Proofs.Grammar.WellFormed
import ProofScript.Proofs.Token.Layout

/-!
# Scripts from related texts

What is known of the tokens of two texts is carried over to their scripts. Texts that differ in
their layout have the same script up to places (`Node.ofScript_relaid`). The script of two texts
with a semicolon between them has the items of the one and then those of the other
(`Node.ofScript_followed`).
-/

namespace ProofScript

open Token (Kind Scans Relaid)
open Grammar Comparison

variable {ts us : List Token} {n : Node} {source : String}

/-! ## Texts with the same tokens -/

/-- Both texts have the same tokens, and trees are compared up to places. -/
def Comparison.unplaced : Comparison where
  relabel i := i
  more := none

theorem Grammar.script_of_kinds (hts : ts.map Token.kind = us.map Token.kind)
    (hends : ∃ front, ts.map Token.kind = front ++ [.eof] ∧ Kind.eof ∉ front) :
    Comparison.unplaced.Agree (fun n m => n.unplaced = m.unplaced) (script ts) (script us) := by
  obtain ⟨front, hfront, heof⟩ := hends
  exact agree_script rfl ⟨⟨front, heof, hfront, hts.symm.trans hfront⟩, fun _ => rfl⟩

/-- A text with another layout has tokens of the same kinds, and the same script up to places; or
neither text has a script, for the same reason. -/
theorem Node.ofScript_relaid {source' : String} (hscan : Token.scan source = .ok ts)
    (h : Relaid 0 ts source.toList source'.toList) :
    (∃ us, Token.scan source' = .ok us ∧ us.map Token.kind = ts.map Token.kind) ∧
      ((∃ n n', Node.ofScript source = .ok n ∧ Node.ofScript source' = .ok n' ∧
          n.unplaced = n'.unplaced) ∨
        ∃ e e', Node.ofScript source = .error e ∧ Node.ofScript source' = .error e' ∧
          e.message = e'.message) := by
  obtain ⟨us, hus, hkinds⟩ := (h.scans hscan).scanFrom 0
  have hscan' : Token.scan source' = .ok us := hus
  refine ⟨⟨us, hscan', hkinds⟩, ?_⟩
  have hagree := Grammar.script_of_kinds hkinds.symm (Token.scans_of_scan hscan).kinds
  unfold Node.ofScript Node.readWith
  rw [hscan, hscan']
  dsimp only
  cases hs : script ts with
  | ok n =>
    obtain ⟨n', hn', hview⟩ := hagree.ok n hs
    rw [hn']
    exact .inl ⟨n, n', rfl, rfl, hview⟩
  | error e =>
    obtain ⟨e', he', hfault⟩ := hagree.error rfl e hs
    rw [he']
    refine .inr ⟨_, _, rfl, rfl, ?_⟩
    show e.message = e'.message
    rw [ParseError.message, ParseError.message, hfault]

/-- The gap behind `x` is filled with a comment, and there is a new line at the end. -/
theorem Node.ofScript_relaid_assignment :
    let source := "x=1"
    let source' := "x\t//n\n =1\n"
    (∃ ts us, Token.scan source = .ok ts ∧ Token.scan source' = .ok us ∧
      us.map Token.kind = ts.map Token.kind) ∧
    ∃ n n', Node.ofScript source = .ok n ∧ Node.ofScript source' = .ok n' ∧
      n.unplaced = n'.unplaced := by
  intro source source'
  let tokens : List Token := [⟨.name "x", ⟨0, 1⟩⟩, ⟨.symbol .assign, ⟨1, 1⟩⟩, ⟨.number 1, ⟨2, 1⟩⟩,
    ⟨.eof, ⟨3, 0⟩⟩]
  have hscan : Token.scan source = .ok tokens := by
    obtain ⟨ts, hts, htokens⟩ := ok_of_any (x := Token.scan source) (p := fun ts => ts == tokens)
      (by decide +kernel)
    rw [hts, beq_iff_eq.1 htokens]
  have htext : source.toList = ['x', '=', '1'] := by simp [source]
  have htext' : source'.toList = ['x', '\t', '/', '/', 'n', '\n', ' ', '=', '1', '\n'] := by
    simp [source']
  have hlayout : Token.Layout ['/', '/', 'n', '\n', ' '] :=
    @Token.Layout.comment ['n'] [' '] (by decide) (.blank rfl .nothing)
  have hrelaid : Relaid 0 tokens source.toList source'.toList := by
    rw [htext, htext']
    refine @Relaid.token 0 _ _ [] [] ['x'] _ _ (.inl rfl) rfl ?_
    refine @Relaid.token _ _ _ [] _ ['='] _ _ (.inr ⟨'\t', _, rfl, hlayout, rfl⟩) rfl ?_
    refine @Relaid.token _ _ _ [] [] ['1'] _ _ (.inl rfl) rfl ?_
    exact .ends (.inr ⟨'\n', [], rfl, .nothing, rfl⟩)
  obtain ⟨⟨us, hus, hkinds⟩, hok | ⟨e, e', he, -⟩⟩ := Node.ofScript_relaid hscan hrelaid
  · exact ⟨⟨tokens, us, hscan, hus, hkinds⟩, hok⟩
  · have haccepted : (Node.ofScript source).isOk = true := by decide +kernel
    rw [he] at haccepted
    cases haccepted

/-! ## One text behind the other -/

/-- Trees are compared up to places and identities. -/
def Comparison.bare (more : Option (List Kind)) : Comparison where
  relabel _ := .detached
  more := more

theorem Comparison.view_bare (more : Option (List Kind)) :
    (Comparison.bare more).view = Node.bare := rfl

theorem Grammar.script_ok_iff :
    script ts = .ok n ↔ ∃ p, items (Cursor.start ts) = .ok p ∧
      n = (p.2.build (Numbering.node
        (p.1.foldl (fun span item => span.join item.span) (Cursor.start ts).span)
        (.script p.1))).1 := by
  constructor
  · intro h
    obtain ⟨p, hp, h⟩ := ok_of_bind h
    exact ⟨p, hp, (Except.ok.inj h).symm⟩
  · rintro ⟨p, hp, rfl⟩
    exact bind_of_ok hp rfl

/-- Where one list of tokens goes on with a semicolon and another one, the items do so, too. -/
theorem Grammar.items_followed {as bs all : List Token} {p q : List Node × Cursor}
    (hp : items (Cursor.start as) = .ok p) (hq : items (Cursor.start bs) = .ok q)
    (has : ∃ front, as.map Token.kind = front ++ [.eof] ∧ Kind.eof ∉ front)
    (hbs : ∃ front, bs.map Token.kind = front ++ [.eof] ∧ Kind.eof ∉ front)
    (hall : all.map Token.kind =
      (as.map Token.kind).dropLast ++ .symbol .semicolon :: bs.map Token.kind) :
    ∃ r, items (Cursor.start all) = .ok r ∧
      r.1.map Node.bare = p.1.map Node.bare ++ q.1.map Node.bare := by
  obtain ⟨front, hfront, heof⟩ := has
  rw [hfront, List.dropLast_concat] at hall
  have hbeside : (Comparison.bare (some (bs.map Token.kind))).Beside (Cursor.start as)
      (Cursor.start all) := ⟨⟨front, heof, hfront, hall⟩, fun _ => rfl⟩
  obtain ⟨js, e, hjs, he, hitems⟩ := items_before hbeside hp
  -- Behind the semicolon the second text is read as on its own, but for the numbers of the nodes.
  have hskip : (Comparison.bare none).Beside (Cursor.start bs).skipSemicolons e.skipSemicolons := by
    have hsame : e.skipSemicolons.kinds = (Cursor.start bs).skipSemicolons.kinds := by
      rw [he, Cursor.kinds_skipSemicolons]
      rfl
    obtain ⟨front', hfront', heof'⟩ := hbs
    have hself : (Comparison.bare none).Beside (Cursor.start bs) (Cursor.start bs) :=
      ⟨⟨front', heof', hfront', hfront'⟩, fun _ => rfl⟩
    obtain ⟨⟨left, hleft, hb, hb'⟩, -⟩ := hself.skipSemicolons_of_exact rfl
    exact ⟨⟨left, hleft, hb, hsame.trans hb'⟩, fun _ => rfl⟩
  obtain ⟨q', hq', hview⟩ := (agree_items (by rfl) hskip).ok q hq
  have hqs := hview.value
  rw [Comparison.view_bare] at hjs hqs
  refine ⟨_, hitems.trans (bind_of_ok hq' rfl), ?_⟩
  rw [List.map_append, hjs, hqs]

/-- When two texts have scripts, so has the one behind the other with a semicolon on a line of its
own between them. Its items are those of the first script and then those of the second. -/
theorem Node.ofScript_followed {a b : String} {m n : Node} (ha : Node.ofScript a = .ok m)
    (hb : Node.ofScript b = .ok n) :
    ∃ k is js ls, Node.ofScript (a ++ "\n;\n" ++ b) = .ok k ∧ m.shape = .script is ∧
      n.shape = .script js ∧ k.shape = .script ls ∧
      ls.map Node.bare = is.map Node.bare ++ js.map Node.bare := by
  obtain ⟨as, has, hm⟩ := Node.readWith_ok_iff.1 ha
  obtain ⟨bs, hbs, hn⟩ := Node.readWith_ok_iff.1 hb
  obtain ⟨p, hp, rfl⟩ := Grammar.script_ok_iff.1 hm
  obtain ⟨q, hq, rfl⟩ := Grammar.script_ok_iff.1 hn
  have hscanned := Token.scans_of_scan has
  have hscanned' := Token.scans_of_scan hbs
  obtain ⟨all, hall, hkinds⟩ := (hscanned.followed hscanned').scanFrom 0
  have htext : (a ++ "\n;\n" ++ b).toList = a.toList ++ '\n' :: ';' :: '\n' :: b.toList := by
    simp
  rw [← htext] at hall
  obtain ⟨r, hr, hbare⟩ := Grammar.items_followed hp hq hscanned.kinds hscanned'.kinds hkinds
  have hk := Node.readWith_ok_iff.2 ⟨all, hall, Grammar.script_ok_iff.2 ⟨r, hr, rfl⟩⟩
  exact ⟨_, p.1, q.1, r.1, hk, rfl, rfl, rfl, hbare⟩

/-- The comment at the end of the first text does not reach the second one. -/
theorem Node.ofScript_followed_comment :
    let a := "x = 1 // one"
    let b := "f(x)"
    ∃ m n, Node.ofScript a = .ok m ∧ Node.ofScript b = .ok n ∧
      ∃ k is js ls, Node.ofScript (a ++ "\n;\n" ++ b) = .ok k ∧ m.shape = .script is ∧
        n.shape = .script js ∧ k.shape = .script ls ∧
        ls.map Node.bare = is.map Node.bare ++ js.map Node.bare := by
  intro a b
  obtain ⟨m, hm, -⟩ := ok_of_any (x := Node.ofScript a) (p := fun _ => true) (by decide +kernel)
  obtain ⟨n, hn, -⟩ := ok_of_any (x := Node.ofScript b) (p := fun _ => true) (by decide +kernel)
  exact ⟨m, n, hm, hn, Node.ofScript_followed hm hn⟩

end ProofScript
