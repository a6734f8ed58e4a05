import ProofScript.Dialect.Dafny
import ProofScript.Dialect.Rosette
import ProofScript.Proofs.Node.Program

/-!
# Programs have terms

Both backends can write down every tree that stands for a program: what directs a proof is the only
thing without a term, and the formal parameters of a method are names.
-/

namespace ProofScript

/-- The values of a list of computations that succeed. -/
theorem mapM_id_ok {ε α β : Type} (f : α → β) (xs : List α) :
    (xs.map fun x => (Except.ok (f x) : Except ε β)).mapM id = .ok (xs.map f) := by
  induction xs with
  | nil => rfl
  | cons x xs ih =>
    rw [List.map_cons, List.mapM_cons]
    exact bind_of_ok rfl (bind_of_ok ih rfl)

/-! ## Terms -/

variable {n : Node} {s : Shape Node} {text : Node → String}

namespace Dafny

theorem term_mk (id : NodeId) (span : Span) (s : Shape Node) :
    term (Node.mk id span s) = layer (Node.mk id span s) (s.map term) := Node.fold_mk _ _ _ _

/-- The formal parameters of a method have names. -/
theorem formalNames_ok {formals : List Node} (h : ∀ f ∈ formals, f.tag = .var) :
    ∃ names, formalNames formals = .ok names := by
  have step : ∀ f ∈ formals, ∃ name, f.varName? = some name := by
    intro f hf
    have htag := h f hf
    rw [Node.tag] at htag
    cases hs : f.shape with
    | var name type => exact ⟨name, by simp [Node.varName?, hs]⟩
    | _ => simp [hs, Shape.tag] at htag
  refine Exists.imp (fun _ hnames => hnames.1) (mapM_ok (p := fun _ _ => True) fun f hf => ?_)
  obtain ⟨name, hname⟩ := step f hf
  rw [hname]
  exact ⟨name, rfl, trivial⟩

/-- A layer of a program has a term when its children have. -/
theorem layer_ok (hn : n.shape = s) (hfits : s.Fits) (hs : s.tag.isSurface = false) :
    ∃ t, layer n (s.map fun k => .ok (text k)) = .ok t := by
  cases s with
  | script | proof | assert | assume => contradiction
  | method name formals body =>
    have hvars : ∀ f ∈ formals, f.tag = .var := by
      intro f hf
      have hfit := hfits (.formal, f) (List.mem_append_left _ (List.mem_map_of_mem hf))
      simpa [Slot.accepts] using hfit
    obtain ⟨names, hnames⟩ := formalNames_ok hvars
    simp only [Shape.map, layer, hn]
    exact ⟨_, bind_of_ok hnames rfl⟩
  | tuple items => exact ⟨_, bind_of_ok (mapM_id_ok text items) rfl⟩
  | new fields body => exact ⟨_, bind_of_ok (mapM_id_ok text fields) rfl⟩
  | call receiver name args =>
    exact ⟨_, bind_of_ok rfl (bind_of_ok (mapM_id_ok text args) rfl)⟩
  | _ => exact ⟨_, rfl⟩

end Dafny

namespace Rosette

theorem term_mk (id : NodeId) (span : Span) (s : Shape Node) :
    term (Node.mk id span s) = layer (Node.mk id span s) (s.map term) := Node.fold_mk _ _ _ _

/-- A layer of a program has a term when its children have. -/
theorem layer_ok (hs : s.tag.isSurface = false) :
    ∃ t, layer n (s.map fun k => .ok (text k)) = .ok t := by
  cases s with
  | script | proof | assert | assume => contradiction
  | var name type => cases type <;> exact ⟨_, rfl⟩
  | tuple items => exact ⟨_, bind_of_ok (mapM_id_ok text items) rfl⟩
  | new fields body => exact ⟨_, bind_of_ok (mapM_id_ok text fields) rfl⟩
  | method name formals body => exact ⟨_, bind_of_ok (mapM_id_ok text formals) rfl⟩
  | call receiver name args =>
    exact ⟨_, bind_of_ok rfl (bind_of_ok (mapM_id_ok text args) rfl)⟩
  | _ => exact ⟨_, rfl⟩

end Rosette

/-- The term of a tree, where it has one. -/
def textOf (term : Node → Except CodeFault String) (n : Node) : String :=
  (term n).toOption.getD ""

/-- Trees have terms when a layer has one whose children have. -/
theorem term_ok_of_layer {term : Node → Except CodeFault String}
    (layer : ∀ id span (s : Shape Node), (Node.mk id span s).IsProgram →
      (s.map term = s.map fun k => .ok (textOf term k)) → ∃ t, term (Node.mk id span s) = .ok t)
    (h : n.IsProgram) : ∃ t, term n = .ok t := by
  induction n using Node.induct with
  | step id span s ih =>
    refine layer id span s h (Shape.map_congr fun k hk => ?_)
    obtain ⟨t, ht⟩ := ih k hk (h.child hk)
    simp [textOf, ht, Except.toOption]

/-- A program has a term for Dafny. -/
theorem Dafny.term_ok (h : n.IsProgram) : ∃ t, Dafny.term n = .ok t := by
  refine term_ok_of_layer (fun id span s hs hmap => ?_) h
  rw [Dafny.term_mk, hmap]
  obtain ⟨hroot, -⟩ := Node.isProgram_mk.1 hs
  exact Dafny.layer_ok rfl hroot.1 hroot.2

/-- A program has a term for Rosette. -/
theorem Rosette.term_ok (h : n.IsProgram) : ∃ t, Rosette.term n = .ok t := by
  refine term_ok_of_layer (fun id span s hs hmap => ?_) h
  rw [Rosette.term_mk, hmap]
  obtain ⟨hroot, -⟩ := Node.isProgram_mk.1 hs
  exact Rosette.layer_ok hroot.2

end ProofScript
