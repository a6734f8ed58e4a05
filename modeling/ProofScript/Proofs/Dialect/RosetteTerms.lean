import ProofScript.Proofs.Code.Terms
import ProofScript.Proofs.Dialect.Constructors
import ProofScript.Proofs.Printing.Operators

/-!
# Terms of Rosette can be read back

A term of Rosette shows the whole tree that it was written for, types and marks included, when its
names are those of a script: a name is written without delimiters, so it must end at the blank or
the closing parenthesis behind it. The proof compares two terms from the left (`Text.Aligned`), by
induction over the first tree.
-/

namespace ProofScript

open Text (Aligned AlignedResults aligned_of_ne alignedResults_ok alignedResults_bind)

/-! ## Names of a script -/

/-- The names that stand for operators. -/
def operatorNames : List String := ["+", "-", "*", "/", "<", ">", "==", "&", "|", "!"]

/-- The name in a shape, when there is one, is a name of a script. A call may name an operator. -/
def Shape.HasSourceName {α : Type} : Shape α → Prop
  | var name _ | compound _ name _ | init name _ _ | method name _ _ =>
    Text.isName name.toList = true
  | call _ name _ => Text.isName name.toList = true ∨ name ∈ operatorNames
  | _ => True

instance Shape.decidableHasSourceName {α : Type} : (s : Shape α) → Decidable s.HasSourceName
  | var .. | compound .. | init .. | method .. => inferInstanceAs (Decidable (_ = true))
  | call .. => inferInstanceAs (Decidable (_ ∨ _))
  | const _ | tuple _ | seq .. | new .. | assign .. | ite .. | nop | script _ | proof ..
  | assert _ | assume _ => .isTrue trivial

/-- All names in a tree are names of a script. -/
def Node.HasSourceNames (n : Node) : Prop := n.Everywhere fun m => m.shape.HasSourceName

instance Node.decidableHasSourceNames (n : Node) : Decidable n.HasSourceNames :=
  inferInstanceAs (Decidable (∀ m ∈ n.preorder, m.shape.HasSourceName))

namespace Rosette

/-- The characters that may stand inside a symbol. -/
def isPart (c : Char) : Bool := c != ' ' && c != ')'

variable {name : String} {c : Char}

theorem isPart_of_isName (h : Text.isName name.toList = true) (hc : c ∈ name.toList) :
    isPart c = true := by
  have part : ∀ d, Text.isNameChar d = true → isPart d = true := by
    intro d hd
    rw [isPart, Bool.and_eq_true, bne_iff_ne, bne_iff_ne]
    constructor
    · rintro rfl
      exact absurd hd (by decide)
    · rintro rfl
      exact absurd hd (by decide)
  apply part
  generalize name.toList = cs at h hc
  cases cs with
  | nil => cases hc
  | cons d ds =>
    rw [Text.isName, Bool.and_eq_true] at h
    rcases List.mem_cons.1 hc with rfl | hc
    · rw [Text.isNameChar, h.1, Bool.true_or]
    · exact List.all_eq_true.1 h.2 c hc

theorem isPart_of_operator : ∀ name ∈ operatorNames, ∀ c ∈ name.toList, isPart c = true := by
  simp [operatorNames, isPart]

theorem toList_symbol (name : String) : (symbol name).toList =
    '\'' :: name.toList.flatMap fun c => if c = '|' then ['|', '|'] else [c] := by
  simp [symbol, Text.double, Text.escapeWith, String.toList_append]

/-- The symbol of a call has no blanks and no parentheses. -/
theorem isPart_of_mem_symbol
    (h : Text.isName name.toList = true ∨ name ∈ operatorNames) (hc : c ∈ (symbol name).toList) :
    isPart c = true := by
  rw [toList_symbol] at hc
  rcases List.mem_cons.1 hc with rfl | hc
  · rfl
  · obtain ⟨d, hd, hcd⟩ := List.mem_flatMap.1 hc
    obtain rfl : c = d := by
      split at hcd <;> simp_all
    rcases h with h | h
    · exact isPart_of_isName h hd
    · exact isPart_of_operator _ h _ hd

/-- A symbol determines its name. -/
theorem symbol_injective {v w : String} (h : symbol v = symbol w) : v = w := by
  have hchars := congrArg String.toList h
  rw [toList_symbol, toList_symbol] at hchars
  replace hchars := (List.cons.inj hchars).2
  refine String.toList_injective ?_
  generalize v.toList = cs at hchars ⊢
  generalize w.toList = ds at hchars ⊢
  induction cs generalizing ds with
  | nil =>
    cases ds with
    | nil => rfl
    | cons d ds => rw [List.flatMap_cons] at hchars; split at hchars <;> cases hchars
  | cons c cs ih =>
    cases ds with
    | nil => rw [List.flatMap_cons] at hchars; split at hchars <;> cases hchars
    | cons d ds =>
      rw [List.flatMap_cons, List.flatMap_cons] at hchars
      split at hchars <;> split at hchars <;> grind

/-! ## Literals and lists -/

theorem aligned_value (v w : Value) : Aligned (value v) (value w) (v = w) := by
  refine Value.aligned "(Int " (fun _ => rfl) (fun n => ?_) v w
  have hint : ∃ cs, (value (.int n)).toList = ['('] ++ 'I' :: cs :=
    ⟨_, by rw [value, String.toList_append, String.toList_append]; rfl⟩
  obtain ⟨cs, hcs⟩ := hint
  exact Text.aligned_of_ne_behind (d := 'N') _ hcs rfl (by decide)

/-- What is behind the opening of a list: its members, and where it ends. -/
def members (items : List String) : String := String.join (items.map (" " ++ ·)) ++ ")"

theorem members_cons (x : String) (xs : List String) :
    members (x :: xs) = " " ++ x ++ members xs := by
  rw [members, List.map_cons, String.join_cons, String.append_assoc, members]

theorem list_eq (items : List String) : list items = "(list" ++ members items := by
  rw [list, String.append_assoc, members]

theorem aligned_members_nil (x : String) (xs : List String) :
    Aligned (members []) (members (x :: xs)) False := by
  have hblank : ∃ cs, (members (x :: xs)).toList = ' ' :: cs :=
    ⟨_, by rw [members_cons, String.toList_append, String.toList_append]; rfl⟩
  obtain ⟨cs, hcs⟩ := hblank
  exact aligned_of_ne (c := ')') rfl hcs (by decide)

/-- A list shows its members when these can be read back. -/
theorem aligned_list {ε α β : Type} {f : α → Except ε String} (key : α → β) {as bs : List α}
    {xs ys : List String}
    (h : ∀ a ∈ as, ∀ b ∈ bs, AlignedResults (f a) (f b) (key a = key b))
    (hxs : (as.map f).mapM id = .ok xs) (hys : (bs.map f).mapM id = .ok ys) :
    Aligned (list xs) (list ys) (as.map key = bs.map key) := by
  rw [list_eq, list_eq]
  exact (Text.aligned_mapM key _ aligned_members_nil members_cons
    (fun hx hxs => (hx.behind " ").append hxs) h hxs hys).behind "(list"

/-- The mark of a field initialiser stands in front of its end. -/
theorem aligned_mark (a b : Bool) :
    Aligned (if a then " #t)" else " #f)") (if b then " #t)" else " #f)") (a = b) := by
  have hne : Aligned " #t)" " #f)" False :=
    Text.aligned_of_ne_behind " #".toList (c := 't') rfl rfl (by decide)
  cases a <;> cases b
  · exact (Aligned.self _).imp fun _ => rfl
  · exact hne.symm.imp False.elim
  · exact hne.imp False.elim
  · exact (Aligned.self _).imp fun _ => rfl

/-! ## Types -/

theorem varType_tuple_cons (t : VarType) (ts : List VarType) :
    varType (.tuple (t :: ts)) = list (varTypes (t :: ts)) := by
  have hjoin : ∀ (x : String) (xs : List String),
      " ".intercalate (x :: xs) = x ++ String.join (xs.map (" " ++ ·)) := by
    intro x xs
    induction xs generalizing x with
    | nil => simp
    | cons y xs ih =>
      rw [String.intercalate_cons_cons, ih, List.map_cons, String.join_cons, String.append_assoc,
        String.append_assoc]
  rw [varType, varTypes, hjoin, list_eq, members_cons, members]
  simp only [← String.append_assoc]
  rfl

theorem varType_tuple_start (items : List VarType) :
    ∃ cs, (varType (.tuple items)).toList = '(' :: cs :=
  ⟨_, by rw [varType, String.toList_append, String.toList_append]; rfl⟩

/-- No type starts with a closing parenthesis. -/
theorem varType_start (t : VarType) : ∃ c cs, (varType t).toList = c :: cs ∧ ')' ≠ c := by
  cases t with
  | value => exact ⟨'\'', _, rfl, by decide⟩
  | tuple items =>
    obtain ⟨cs, hcs⟩ := varType_tuple_start items
    exact ⟨'(', cs, hcs, by decide⟩

/-- The tuple without components is closed where others have their first component. -/
theorem aligned_varType_nil (t : VarType) (ts : List VarType) :
    Aligned (varType (.tuple [])) (varType (.tuple (t :: ts))) False := by
  obtain ⟨c, cs, hcs, hne⟩ := varType_start t
  have hcons : (varType (.tuple (t :: ts))).toList =
      "(list ".toList ++ c :: (cs ++ (members (varTypes ts)).toList) := by
    rw [varType_tuple_cons, varTypes, list_eq, members_cons, ← String.append_assoc,
      ← String.append_assoc, String.toList_append, String.toList_append, hcs, List.append_assoc,
      List.cons_append]
    rfl
  have hnil : (varType (.tuple [])).toList = "(list ".toList ++ ')' :: [] := rfl
  exact Text.aligned_of_ne_behind _ hnil hcons hne

/-- A type without components is not written like a tuple. -/
theorem aligned_varType_value (items : List VarType) :
    Aligned (varType .value) (varType (.tuple items)) False := by
  obtain ⟨cs, hcs⟩ := varType_tuple_start items
  exact aligned_of_ne (c := '\'') rfl hcs (by decide)

mutual

theorem aligned_varType : (t u : VarType) → Aligned (varType t) (varType u) (t = u)
  | .value, .value => (Aligned.self _).imp fun _ => rfl
  | .value, .tuple us => (aligned_varType_value us).imp False.elim
  | .tuple ts, .value => (aligned_varType_value ts).symm.imp False.elim
  | .tuple [], .tuple [] => (Aligned.self _).imp fun _ => rfl
  | .tuple [], .tuple (u :: us) => (aligned_varType_nil u us).imp False.elim
  | .tuple (t :: ts), .tuple [] => (aligned_varType_nil t ts).symm.imp False.elim
  | .tuple (t :: ts), .tuple (u :: us) => by
    rw [varType_tuple_cons, varType_tuple_cons, list_eq, list_eq]
    exact ((aligned_varTypes (t :: ts) (u :: us)).behind "(list").imp (congrArg _)

theorem aligned_varTypes : (ts us : List VarType) →
    Aligned (members (varTypes ts)) (members (varTypes us)) (ts = us)
  | [], [] => (Aligned.self _).imp fun _ => rfl
  | [], u :: us => (aligned_members_nil _ _).imp False.elim
  | t :: ts, [] => (aligned_members_nil _ _).symm.imp False.elim
  | t :: ts, u :: us => by
    rw [varTypes, varTypes, members_cons, members_cons]
    refine (((aligned_varType t u).behind " ").append (aligned_varTypes ts us)).imp ?_
    rintro ⟨h, h'⟩
    rw [h, h']

end

/-! ## Terms -/

/-- A term opens with the constructor of its construct. -/
theorem leads_layer (n : Node) (s : Shape (Except CodeFault String)) :
    s.tag.Leads ['('] (layer n s) := by
  have known : ∀ {tag : Tag} {text : String} (name : String), (tag, name) ∈ Tag.constructors →
      '(' :: name.toList <+: text.toList → tag.Leads ['('] (.ok text : Except CodeFault String) :=
    fun _ hname h => Tag.leads_ok hname h
  cases s with
  | const v => exact known "EConst" (by simp [Tag.constructors, Shape.tag]) (by simp)
  | var name type =>
    cases type with
    | none => exact known "EVar" (by simp [Tag.constructors, Shape.tag]) (by simp)
    | some type => exact known "EVar" (by simp [Tag.constructors, Shape.tag]) (by simp)
  | tuple items =>
    exact Tag.leads_bind fun _ => known "ETuple" (by simp [Tag.constructors, Shape.tag]) (by simp)
  | seq a b =>
    refine Tag.leads_bind fun _ => Tag.leads_bind fun _ => ?_
    exact known "ESeq" (by simp [Tag.constructors, Shape.tag]) (by simp)
  | compound object name index =>
    refine Tag.leads_bind fun _ => Tag.leads_bind fun _ => ?_
    exact known "ECVar" (by simp [Tag.constructors, Shape.tag]) (by simp)
  | init name value immutable =>
    exact Tag.leads_bind fun _ => known "Init" (by simp [Tag.constructors, Shape.tag]) (by simp)
  | new fields body =>
    refine Tag.leads_bind fun _ => Tag.leads_bind fun _ => ?_
    exact known "ENew" (by simp [Tag.constructors, Shape.tag]) (by simp)
  | method name formals body =>
    refine Tag.leads_bind fun _ => Tag.leads_bind fun _ => ?_
    exact known "EMethod" (by simp [Tag.constructors, Shape.tag]) (by simp)
  | assign target value =>
    refine Tag.leads_bind fun _ => Tag.leads_bind fun _ => ?_
    exact known "EAssign" (by simp [Tag.constructors, Shape.tag]) (by simp)
  | call receiver name args =>
    refine Tag.leads_bind fun _ => Tag.leads_bind fun _ => ?_
    exact known "ECall" (by simp [Tag.constructors, Shape.tag]) (by simp)
  | ite c p n =>
    refine Tag.leads_bind fun _ => Tag.leads_bind fun _ => Tag.leads_bind fun _ => ?_
    exact known "EITE" (by simp [Tag.constructors, Shape.tag]) (by simp)
  | nop => exact known "ENop" (by simp [Tag.constructors, Shape.tag]) (by simp)
  | script => exact Tag.leads_error
  | proof => exact Tag.leads_error
  | assert => exact Tag.leads_error
  | assume => exact Tag.leads_error

/-- A name that is closed is not read as a name with a type behind it. -/
theorem aligned_var_none {v w : String} (hv : Text.isName v.toList = true)
    (hw : Text.isName w.toList = true) (type : VarType) :
    Aligned ("(EVar '" ++ v ++ ")") ("(EVar '" ++ w ++ " " ++ varType type ++ ")") False := by
  have hclosed : Aligned ")" " " False := aligned_of_ne (c := ')') rfl rfl (by decide)
  have hnamed := (Aligned.self "(EVar '").word_then (fun _ => isPart_of_isName hv)
    (fun _ => isPart_of_isName hw) rfl rfl (by decide) (by decide) hclosed
  exact ((hnamed.imp And.right).apart (varType type)).apart ")"

variable {s s' : Shape Node}

/-- Terms of the same construct show their children. -/
theorem aligned_layer (id id' : NodeId) (span span' : Span) (htag : s.tag = s'.tag)
    (hs : s.HasSourceName) (hs' : s'.HasSourceName)
    (ih : ∀ k ∈ s.children, ∀ m ∈ s'.children,
      AlignedResults (term k) (term m) (k.bare = m.bare)) :
    AlignedResults (layer (.mk id span s) (s.map term)) (layer (.mk id' span' s') (s'.map term))
      (s.map Node.bare = s'.map Node.bare) := by
  cases s with
  | const v =>
    cases s' with
    | const w =>
      have htext := ((aligned_value v w).behind "(EConst ").followed ")"
      exact alignedResults_ok (htext.imp fun h => by rw [h])
    | _ => cases htag
  | var name type =>
    cases s' with
    | var name' type' =>
      cases type with
      | none =>
        cases type' with
        | none =>
          have htext := (Aligned.self "(EVar '").word ")"
            (fun _ => isPart_of_isName hs) (fun _ => isPart_of_isName hs') rfl (by decide)
          exact alignedResults_ok (htext.imp fun h => by rw [h.2])
        | some type' =>
          exact alignedResults_ok ((aligned_var_none hs hs' type').imp False.elim)
      | some type =>
        cases type' with
        | none => exact alignedResults_ok ((aligned_var_none hs' hs type).symm.imp False.elim)
        | some type' =>
          have hname := (Aligned.self "(EVar '").word " "
            (fun _ => isPart_of_isName hs) (fun _ => isPart_of_isName hs') rfl (by decide)
          have htext := (hname.append (aligned_varType type type')).followed ")"
          refine alignedResults_ok (htext.imp ?_)
          rintro ⟨⟨-, hname⟩, htype⟩
          rw [hname, htype]
    | _ => cases htag
  | tuple items =>
    cases s' with
    | tuple items' =>
      refine alignedResults_bind fun xs xs' hxs hxs' => ?_
      have hlist := aligned_list Node.bare
        (fun k (hk : k ∈ items) m (hm : m ∈ items') => ih k hk m hm) hxs hxs'
      refine alignedResults_ok (((hlist.behind "(ETuple ").followed ")").imp fun h => ?_)
      simp only [Shape.map, h]
    | _ => cases htag
  | seq a b =>
    cases s' with
    | seq a' b' =>
      refine (ih a (by simp [Shape.children]) a' (by simp [Shape.children])).bind fun x x' ha => ?_
      refine (ih b (by simp [Shape.children]) b' (by simp [Shape.children])).bind fun y y' hb => ?_
      have htext := (((ha.behind "(ESeq ").followed " ").append hb).followed ")"
      refine alignedResults_ok (htext.imp ?_)
      rintro ⟨h, h'⟩
      simp only [Shape.map, h, h']
    | _ => cases htag
  | compound object name index =>
    cases s' with
    | compound object' name' index' =>
      refine (ih object (by simp [Shape.children]) object' (by simp [Shape.children])).bind
        fun x x' ho => ?_
      refine (ih index (by simp [Shape.children]) index' (by simp [Shape.children])).bind
        fun y y' hi => ?_
      have hname := ((ho.behind "(ECVar ").followed " '").word " "
        (fun _ => isPart_of_isName hs) (fun _ => isPart_of_isName hs') rfl (by decide)
      refine alignedResults_ok (((hname.append hi).followed ")").imp ?_)
      rintro ⟨⟨h, hname⟩, h'⟩
      simp only [Shape.map, h, hname, h']
    | _ => cases htag
  | init name value marked =>
    cases s' with
    | init name' value' marked' =>
      refine (ih value (by simp [Shape.children]) value' (by simp [Shape.children])).bind
        fun x x' hv => ?_
      have hname := (Aligned.self "(Init '").word " "
        (fun _ => isPart_of_isName hs) (fun _ => isPart_of_isName hs') rfl (by decide)
      refine alignedResults_ok (((hname.append hv).append (aligned_mark marked marked')).imp ?_)
      rintro ⟨⟨⟨-, hname⟩, h⟩, hmark⟩
      simp only [Shape.map, hname, h, hmark]
    | _ => cases htag
  | new fields body =>
    cases s' with
    | new fields' body' =>
      refine alignedResults_bind fun xs xs' hxs hxs' => ?_
      refine (ih body (by simp [Shape.children]) body' (by simp [Shape.children])).bind
        fun y y' hb => ?_
      have hlist := aligned_list Node.bare (fun k hk m hm =>
        ih k (List.mem_append_left _ hk) m (List.mem_append_left _ hm)) hxs hxs'
      have htext := (((hlist.behind "(ENew ").followed " ").append hb).followed ")"
      refine alignedResults_ok (htext.imp ?_)
      rintro ⟨hfields, h⟩
      simp only [Shape.map, hfields, h]
    | _ => cases htag
  | method name formals body =>
    cases s' with
    | method name' formals' body' =>
      refine alignedResults_bind fun xs xs' hxs hxs' => ?_
      refine (ih body (by simp [Shape.children]) body' (by simp [Shape.children])).bind
        fun y y' hb => ?_
      have hlist := aligned_list Node.bare (fun k hk m hm =>
        ih k (List.mem_append_left _ hk) m (List.mem_append_left _ hm)) hxs hxs'
      have hname := (Aligned.self "(EMethod '").word " "
        (fun _ => isPart_of_isName hs) (fun _ => isPart_of_isName hs') rfl (by decide)
      have htext := (((hname.append hlist).followed " ").append hb).followed ")"
      refine alignedResults_ok (htext.imp ?_)
      rintro ⟨⟨⟨-, hname⟩, hformals⟩, h⟩
      simp only [Shape.map, hname, hformals, h]
    | _ => cases htag
  | assign target value =>
    cases s' with
    | assign target' value' =>
      refine (ih target (by simp [Shape.children]) target' (by simp [Shape.children])).bind
        fun x x' ht => ?_
      refine (ih value (by simp [Shape.children]) value' (by simp [Shape.children])).bind
        fun y y' hv => ?_
      have htext := (((ht.behind "(EAssign ").followed " ").append hv).followed ")"
      refine alignedResults_ok (htext.imp ?_)
      rintro ⟨h, h'⟩
      simp only [Shape.map, h, h']
    | _ => cases htag
  | call receiver name args =>
    cases s' with
    | call receiver' name' args' =>
      refine (ih receiver (by simp [Shape.children]) receiver' (by simp [Shape.children])).bind
        fun x x' hr => ?_
      refine alignedResults_bind fun ys ys' hys hys' => ?_
      have hlist := aligned_list Node.bare (fun k hk m hm =>
        ih k (List.mem_cons_of_mem _ hk) m (List.mem_cons_of_mem _ hm)) hys hys'
      have hname := ((hr.behind "(ECall ").followed " ").word " "
        (fun _ => isPart_of_mem_symbol hs) (fun _ => isPart_of_mem_symbol hs') rfl (by decide)
      refine alignedResults_ok (((hname.append hlist).followed ")").imp ?_)
      rintro ⟨⟨h, hname⟩, hargs⟩
      simp only [Shape.map, h, symbol_injective hname, hargs]
    | _ => cases htag
  | ite c p n =>
    cases s' with
    | ite c' p' n' =>
      refine (ih c (by simp [Shape.children]) c' (by simp [Shape.children])).bind fun x x' hc => ?_
      refine (ih p (by simp [Shape.children]) p' (by simp [Shape.children])).bind fun y y' hp => ?_
      refine (ih n (by simp [Shape.children]) n' (by simp [Shape.children])).bind fun z z' hn => ?_
      have hfirst := ((hc.behind "(EITE ").followed " ").append hp
      refine alignedResults_ok ((((hfirst.followed " ").append hn).followed ")").imp ?_)
      rintro ⟨⟨hc, hp⟩, hn⟩
      simp only [Shape.map, hc, hp, hn]
    | _ => cases htag
  | nop =>
    cases s' with
    | nop => exact alignedResults_ok ((Aligned.self _).imp fun _ => rfl)
    | _ => cases htag
  | _ =>
    -- The other constructs have no term.
    intro _ _ h
    cases h

/-- A term whose names are those of a script shows its tree, and where the term ends. -/
theorem aligned_term {a b : Node} (ha : a.HasSourceNames) (hb : b.HasSourceNames) :
    AlignedResults (term a) (term b) (a.bare = b.bare) := by
  induction a using Node.induct generalizing b with
  | step id span s ih =>
    obtain ⟨id', span', s'⟩ := b
    obtain ⟨hs, hchildren⟩ := Node.everywhere_mk.1 ha
    obtain ⟨hs', hchildren'⟩ := Node.everywhere_mk.1 hb
    simp only [term_mk, Node.bare_mk]
    by_cases htag : s.tag = s'.tag
    · have hlayer := aligned_layer id id' span span' htag hs hs' fun k hk m hm =>
        ih k hk (hchildren k hk) (hchildren' m hm)
      exact fun t u ht hu => (hlayer t u ht hu).imp (congrArg Node.detached)
    · -- The constructors tell different constructs apart before any child is read.
      intro t u ht hu
      have hlead := leads_layer (.mk id span s) (s.map term) t ht
      have hlead' := leads_layer (.mk id' span' s') (s'.map term) u hu
      rw [Shape.tag_map] at hlead hlead'
      exact hlead.aligned hlead' htag

/-- Trees over the names of a script that have the same term are equal up to identities and
places. -/
theorem bare_eq_of_term {a b : Node} {text : String} (ha : a.HasSourceNames)
    (hb : b.HasSourceNames) (hterm : term a = .ok text) (hterm' : term b = .ok text) :
    a.bare = b.bare :=
  (aligned_term ha hb text text hterm hterm').of_eq rfl

/-- A method with a typed parameter, whose body calls an operator. The two trees differ in their
places only. -/
theorem bare_eq_of_term_operator :
    let tree (offset : Nat) : Node :=
      .mk (.numbered offset) ⟨offset, 9⟩ <|
        .method "m" [.detached (.var "p" (some (.tuple [.value])))] <|
          .detached (.call .nil "|" [.var "p", .detached (.init "f" .nil true)])
    let text := "(EMethod 'm (list (EVar 'p (list 'value))) (ECall (EConst (Nil)) '|| " ++
      "(list (EVar 'p) (Init 'f (EConst (Nil)) #t))))"
    (tree 0).HasSourceNames ∧ (tree 7).HasSourceNames ∧ term (tree 0) = .ok text ∧
      term (tree 7) = .ok text ∧ (tree 0).bare = (tree 7).bare := by
  intro tree text
  have hnames : (tree 0).HasSourceNames := by decide +kernel +zetaReduce
  have hnames' : (tree 7).HasSourceNames := by decide +kernel +zetaReduce
  have hterm : term (tree 0) = .ok text := by rfl
  have hterm' : term (tree 7) = .ok text := by rfl
  exact ⟨hnames, hnames', hterm, hterm', bare_eq_of_term hnames hnames' hterm hterm'⟩

end Rosette

end ProofScript
