import ProofScript.Proofs.Code.Terms
import ProofScript.Proofs.Dialect.Constructors
import ProofScript.Proofs.Dialect.Literals

/-!
# Terms of Dafny can be read back

A term of Dafny shows the tree that it was written for, up to what Dafny does not ask for: the types
of names and the marks of field initialisers. Names may be any texts, since they are written as
string literals. The proof compares two terms from the left (`Text.Aligned`), by induction over the
first tree.
-/

namespace ProofScript

open Text (Aligned AlignedResults alignedResults_ok alignedResults_bind)

/-! ## What a term keeps of a tree -/

/-- A shape without the type of a name and the mark of a field initialiser. -/
def Shape.plain {α : Type} : Shape α → Shape α
  | var name _ => var name none
  | init name value _ => init name value false
  | s => s

/-- A tree without identities and places, types of names and marks of field initialisers. -/
def Node.plain (n : Node) : Node := n.fold fun _ s => detached s.plain

theorem Node.plain_mk (id : NodeId) (span : Span) (s : Shape Node) :
    (mk id span s).plain = detached (s.map plain).plain := fold_mk _ _ _ _

namespace Dafny

/-! ## Literals -/

theorem aligned_quote (s t : String) : Aligned (quote s) (quote t) (s = t) := by
  intro r u heq
  rw [toList_quote, toList_quote] at heq
  obtain ⟨hst, hend⟩ := escaped_inj (List.cons.inj heq).2
  exact ⟨String.toList_injective hst, hend⟩

theorem aligned_value (v w : Value) : Aligned (value v) (value w) (v = w) := by
  refine Value.aligned "Int(" (fun _ => rfl) (fun n => ?_) v w
  have hint : ∃ cs, (value (.int n)).toList = 'I' :: cs :=
    ⟨_, by rw [value, String.toList_append, String.toList_append]; rfl⟩
  obtain ⟨cs, hcs⟩ := hint
  exact Text.aligned_of_ne (d := 'N') hcs rfl (by decide)

/-! ## Lists -/

section Lists

variable {ε α β : Type}

theorem consList_cons (x : String) (xs : List String) :
    consList (x :: xs) = "Cons(" ++ x ++ ", " ++ consList xs ++ ")" := rfl

/-- A list shows its members when these can be read back. -/
theorem aligned_consList {f : α → Except ε String} (key : α → β) {as bs : List α}
    {xs ys : List String}
    (h : ∀ a ∈ as, ∀ b ∈ bs, AlignedResults (f a) (f b) (key a = key b))
    (hxs : (as.map f).mapM id = .ok xs) (hys : (bs.map f).mapM id = .ok ys) :
    Aligned (consList xs) (consList ys) (as.map key = bs.map key) := by
  refine Text.aligned_mapM key (fun x rest => "Cons(" ++ x ++ ", " ++ rest ++ ")")
    (fun x xs => ?_) consList_cons (fun hx hrest => ?_) h hxs hys
  · have hcons : ∃ cs, (consList (x :: xs)).toList = 'C' :: cs :=
      ⟨_, by simp only [consList_cons, String.toList_append]; rfl⟩
    obtain ⟨cs, hcs⟩ := hcons
    exact Text.aligned_of_ne (c := 'L') rfl hcs (by decide)
  · exact (((hx.behind "Cons(").followed ", ").append hrest).followed ")"

theorem aligned_nameList (names others : List String) :
    Aligned (nameList names) (nameList others) (names = others) := by
  have hquotes : ∀ a ∈ names, ∀ b ∈ others,
      AlignedResults (.ok (quote a) : Except CodeFault String) (.ok (quote b)) (id a = id b) :=
    fun a _ b _ => alignedResults_ok (aligned_quote a b)
  have haligned := aligned_consList id hquotes (mapM_id_ok quote names) (mapM_id_ok quote others)
  rwa [List.map_id, List.map_id] at haligned

end Lists

/-! ## Terms -/

/-- Formal parameters with names are known up to their types. -/
theorem plain_of_formalNames {formals : List Node} {names : List String}
    (h : formalNames formals = .ok names) : formals.map Node.plain = names.map Node.var := by
  replace h := forall₂_of_mapM h
  induction h with
  | nil => rfl
  | @cons formal name formals names hname _ ih =>
    have hplain : formal.plain = Node.var name := by
      obtain ⟨id, span, shape⟩ := formal
      cases shape with
      | var found type =>
        obtain rfl : found = name := Except.ok.inj hname
        rfl
      | _ => cases hname
    rw [List.map_cons, List.map_cons, hplain, ih]

/-- A term opens with the constructor of its construct. -/
theorem leads_layer (n : Node) (s : Shape (Except CodeFault String)) :
    s.tag.Leads [] (layer n s) := by
  have known : ∀ {tag : Tag} {text : String} (name : String), (tag, name) ∈ Tag.constructors →
      name.toList <+: text.toList → tag.Leads [] (.ok text : Except CodeFault String) :=
    fun _ hname h => Tag.leads_ok hname h
  cases s with
  | const v => exact known "EConst" (by simp [Tag.constructors, Shape.tag]) (by simp)
  | var name type => exact known "EVar" (by simp [Tag.constructors, Shape.tag]) (by simp)
  | tuple items =>
    exact Tag.leads_bind fun _ => known "ETuple" (by simp [Tag.constructors, Shape.tag]) (by simp)
  | seq a b =>
    refine Tag.leads_bind fun _ => Tag.leads_bind fun _ => ?_
    exact known "ESeq" (by simp [Tag.constructors, Shape.tag]) (by simp)
  | compound object name index =>
    refine Tag.leads_bind fun _ => Tag.leads_bind fun _ => ?_
    exact known "ECVar" (by simp [Tag.constructors, Shape.tag]) (by simp)
  | init name value immutable =>
    exact Tag.leads_bind fun _ => known "Init" (by simp [Tag.constructors, Shape.tag]) (by simp)
  | new fields body =>
    refine Tag.leads_bind fun _ => Tag.leads_bind fun _ => ?_
    exact known "ENew" (by simp [Tag.constructors, Shape.tag]) (by simp)
  | method name formals body =>
    -- The formal parameters are read off the node itself.
    dsimp only [layer]
    split <;> refine Tag.leads_bind fun _ => Tag.leads_bind fun _ => ?_
    all_goals exact known "EMethod" (by simp [Tag.constructors, Shape.tag]) (by simp)
  | assign target value =>
    refine Tag.leads_bind fun _ => Tag.leads_bind fun _ => ?_
    exact known "EAssign" (by simp [Tag.constructors, Shape.tag]) (by simp)
  | call receiver name args =>
    refine Tag.leads_bind fun _ => Tag.leads_bind fun _ => ?_
    exact known "ECall" (by simp [Tag.constructors, Shape.tag]) (by simp)
  | ite c p n =>
    refine Tag.leads_bind fun _ => Tag.leads_bind fun _ => Tag.leads_bind fun _ => ?_
    exact known "EITE" (by simp [Tag.constructors, Shape.tag]) (by simp)
  | nop => exact known "ENop" (by simp [Tag.constructors, Shape.tag]) (by simp)
  | script => exact Tag.leads_error
  | proof => exact Tag.leads_error
  | assert => exact Tag.leads_error
  | assume => exact Tag.leads_error

variable {s s' : Shape Node}

/-- Terms of the same construct show their children. -/
theorem aligned_layer (id id' : NodeId) (span span' : Span) (htag : s.tag = s'.tag)
    (ih : ∀ k ∈ s.children, ∀ m, AlignedResults (term k) (term m) (k.plain = m.plain)) :
    AlignedResults (layer (.mk id span s) (s.map term)) (layer (.mk id' span' s') (s'.map term))
      ((s.map Node.plain).plain = (s'.map Node.plain).plain) := by
  cases s with
  | const v =>
    cases s' with
    | const w =>
      have htext := ((aligned_value v w).behind "EConst(").followed ")"
      exact alignedResults_ok (htext.imp fun h => by rw [h])
    | _ => cases htag
  | var name type =>
    cases s' with
    | var name' type' =>
      have htext := ((aligned_quote name name').behind "EVar(").followed ")"
      exact alignedResults_ok (htext.imp fun h => by rw [h]; rfl)
    | _ => cases htag
  | tuple items =>
    cases s' with
    | tuple items' =>
      refine alignedResults_bind fun xs xs' hxs hxs' => ?_
      have hlist := aligned_consList Node.plain (fun k (hk : k ∈ items) m _ => ih k hk m) hxs hxs'
      refine alignedResults_ok (((hlist.behind "ETuple(").followed ")").imp fun h => ?_)
      simp only [Shape.map, h]
    | _ => cases htag
  | seq a b =>
    cases s' with
    | seq a' b' =>
      refine (ih a (by simp [Shape.children]) a').bind fun x x' ha => ?_
      refine (ih b (by simp [Shape.children]) b').bind fun y y' hb => ?_
      have htext := (((ha.behind "ESeq(").followed ", ").append hb).followed ")"
      refine alignedResults_ok (htext.imp ?_)
      rintro ⟨h, h'⟩
      simp only [Shape.map, h, h']
    | _ => cases htag
  | compound object name index =>
    cases s' with
    | compound object' name' index' =>
      refine (ih object (by simp [Shape.children]) object').bind fun x x' ho => ?_
      refine (ih index (by simp [Shape.children]) index').bind fun y y' hi => ?_
      have hnamed := ((ho.behind "ECVar(").followed ", ").append (aligned_quote name name')
      have htext := ((hnamed.followed ", ").append hi).followed ")"
      refine alignedResults_ok (htext.imp ?_)
      rintro ⟨⟨h, hname⟩, h'⟩
      simp only [Shape.map, h, hname, h']
    | _ => cases htag
  | init name value immutable =>
    cases s' with
    | init name' value' immutable' =>
      refine (ih value (by simp [Shape.children]) value').bind fun x x' hv => ?_
      have hname := ((aligned_quote name name').behind "Init(").followed ", "
      refine alignedResults_ok (((hname.append hv).followed ")").imp ?_)
      rintro ⟨hname, h⟩
      simp only [Shape.map, Shape.plain, hname, h]
    | _ => cases htag
  | new fields body =>
    cases s' with
    | new fields' body' =>
      refine alignedResults_bind fun xs xs' hxs hxs' => ?_
      refine (ih body (by simp [Shape.children]) body').bind fun y y' hb => ?_
      have hlist := aligned_consList Node.plain
        (fun k hk m _ => ih k (List.mem_append_left _ hk) m) hxs hxs'
      have htext := (((hlist.behind "ENew(").followed ", ").append hb).followed ")"
      refine alignedResults_ok (htext.imp ?_)
      rintro ⟨hfields, h⟩
      simp only [Shape.map, hfields, h]
    | _ => cases htag
  | method name formals body =>
    cases s' with
    | method name' formals' body' =>
      refine alignedResults_bind fun names names' hnames hnames' => ?_
      refine (ih body (by simp [Shape.children]) body').bind fun y y' hb => ?_
      have hname := ((aligned_quote name name').behind "EMethod(").followed ", "
      have hformals := (hname.append (aligned_nameList names names')).followed ", "
      refine alignedResults_ok (((hformals.append hb).followed ")").imp ?_)
      rintro ⟨⟨hname, hformals⟩, h⟩
      have hplain : formals.map Node.plain = formals'.map Node.plain := by
        rw [plain_of_formalNames hnames, plain_of_formalNames hnames', hformals]
      simp only [Shape.map, hname, hplain, h]
    | _ => cases htag
  | assign target value =>
    cases s' with
    | assign target' value' =>
      refine (ih target (by simp [Shape.children]) target').bind fun x x' ht => ?_
      refine (ih value (by simp [Shape.children]) value').bind fun y y' hv => ?_
      have htext := (((ht.behind "EAssign(").followed ", ").append hv).followed ")"
      refine alignedResults_ok (htext.imp ?_)
      rintro ⟨h, h'⟩
      simp only [Shape.map, h, h']
    | _ => cases htag
  | call receiver name args =>
    cases s' with
    | call receiver' name' args' =>
      refine (ih receiver (by simp [Shape.children]) receiver').bind fun x x' hr => ?_
      refine alignedResults_bind fun ys ys' hys hys' => ?_
      have hlist := aligned_consList Node.plain
        (fun k hk m _ => ih k (List.mem_cons_of_mem _ hk) m) hys hys'
      have hnamed := ((hr.behind "ECall(").followed ", ").append (aligned_quote name name')
      refine alignedResults_ok ((((hnamed.followed ", ").append hlist).followed ")").imp ?_)
      rintro ⟨⟨h, hname⟩, hargs⟩
      simp only [Shape.map, h, hname, hargs]
    | _ => cases htag
  | ite c p n =>
    cases s' with
    | ite c' p' n' =>
      refine (ih c (by simp [Shape.children]) c').bind fun x x' hc => ?_
      refine (ih p (by simp [Shape.children]) p').bind fun y y' hp => ?_
      refine (ih n (by simp [Shape.children]) n').bind fun z z' hn => ?_
      have hfirst := ((hc.behind "EITE(").followed ", ").append hp
      refine alignedResults_ok ((((hfirst.followed ", ").append hn).followed ")").imp ?_)
      rintro ⟨⟨hc, hp⟩, hn⟩
      simp only [Shape.map, hc, hp, hn]
    | _ => cases htag
  | nop =>
    cases s' with
    | nop => exact alignedResults_ok ((Aligned.self _).imp fun _ => rfl)
    | _ => cases htag
  | _ =>
    -- The other constructs have no term.
    intro _ _ h
    cases h

/-- A term shows its tree, and where the term ends. -/
theorem aligned_term (a b : Node) : AlignedResults (term a) (term b) (a.plain = b.plain) := by
  induction a using Node.induct generalizing b with
  | step id span s ih =>
    obtain ⟨id', span', s'⟩ := b
    simp only [term_mk, Node.plain_mk]
    by_cases htag : s.tag = s'.tag
    · have hlayer := aligned_layer id id' span span' htag ih
      exact fun t u ht hu => (hlayer t u ht hu).imp (congrArg Node.detached)
    · -- The constructors tell different constructs apart before any child is read.
      intro t u ht hu
      have hlead := leads_layer (.mk id span s) (s.map term) t ht
      have hlead' := leads_layer (.mk id' span' s') (s'.map term) u hu
      rw [Shape.tag_map] at hlead hlead'
      exact hlead.aligned hlead' htag

/-- Nodes with the same term are equal up to identities, places, types of names and marks of field
initialisers. -/
theorem plain_eq_of_term {a b : Node} {text : String} (ha : term a = .ok text)
    (hb : term b = .ok text) : a.plain = b.plain :=
  (aligned_term a b text text ha hb).of_eq rfl

/-- The name of the field holds a quotation mark and a backslash. The two trees differ in a type, a
mark and a place, which the term does not show. -/
theorem plain_eq_of_term_quoted :
    let tree (type : Option VarType) (marked : Bool) (offset : Nat) : Node :=
      .mk (.numbered offset) ⟨offset, 9⟩
        (.new [.detached (.init "a\", \\" (.detached (.var "x" type)) marked)] .nop)
    let text := "ENew(Cons(Init(\"a\\\", \\\\\", EVar(\"x\")), LNil), ENop())"
    term (tree none false 0) = .ok text ∧ term (tree (some .value) true 7) = .ok text ∧
      (tree none false 0).plain = (tree (some .value) true 7).plain := by
  intro tree text
  have hterm : term (tree none false 0) = .ok text := by rfl
  have hterm' : term (tree (some .value) true 7) = .ok text := by rfl
  exact ⟨hterm, hterm', plain_eq_of_term hterm hterm'⟩

end Dafny

end ProofScript
