import ProofScript.Proofs.Node.Slots

/-!
# The calls of handlers

A pass may have a handler for each construct, and a walk then gives every node to the handler of its
own construct. When no handler replaces a node, the order of the calls is fixed by the tree alone:
the calls go along the preorder of the tree (`Node.seats`) and stop at the first node that its
handler refuses or that its parent does not accept (`Along`). What a handler remembers and which
frames it pushes decides where the calls stop, and not which node comes next.

The calls are observed by handlers that take notes (`Handlers.noting`). One induction on the bound
of the walk carries the relation `Logs`, which has a rule for each way of putting actions together.
-/

namespace ProofScript

variable {σ α β : Type}

/-! ## Handlers and their calls -/

/-- What is done with the nodes of each construct. -/
structure Handlers (σ : Type) where
  /-- Gives the replacement of a node of the construct that the handler is for. -/
  handle : Tag → Node → Walk σ Node

/-- A call of a handler. -/
structure Call where
  /-- The construct that the handler is for. -/
  handler : Tag
  /-- The node that the handler is given. -/
  node : Node
  /-- Whether the handler gives a replacement, or else why it refuses the node. -/
  answer : Except TreeError Unit

/-- The same state, with a value beside the state of the pass. -/
def WalkState.beside {τ : Type} (w : WalkState σ) (value : τ) : WalkState (σ × τ) :=
  { context := w.context, state := (w.state, value) }

namespace Handlers

/-- The pass that gives every node to the handler of its construct. -/
def pass (hs : Handlers σ) : Pass σ where
  visit n := hs.handle n.tag n

/-- A handler returns a node of its construct as it is, or refuses it. -/
def KeepNodes (hs : Handlers σ) : Prop :=
  ∀ n w, Ends (hs.handle n.tag n) (fun m _ => m = n) (fun _ => True) w

/-- The same handlers, which also note every call. -/
def noting (hs : Handlers σ) : Handlers (σ × List Call) where
  handle tag n := ExceptT.mk fun w =>
    let (r, t) := (hs.handle tag n).run.run { context := w.context, state := w.state.1 }
    (r, t.beside (w.state.2 ++ [⟨tag, n, r.map fun _ => ()⟩]))

end Handlers

/-! ## The seats of a tree -/

/-- A node of a tree and the place that it is in. The root is in no place. -/
structure Seat where
  /-- The place of the node. -/
  place : Option Place
  /-- The node. -/
  node : Node

/-- Whether the node of a seat is accepted there. -/
def Seat.check (seat : Seat) : Except TreeError Unit := Place.check seat.place seat.node

/-- The nodes of a tree in preorder, each with the place that it is in. -/
def Node.seats (n : Node) (place : Option Place) : List Seat :=
  n.fold (fun n (s : Shape (Option Place → List Seat)) place =>
    ⟨place, n⟩ :: s.slotted.flatMap fun p => p.2 (some ⟨p.1, n.tag⟩)) place

theorem Node.seats_mk (id : NodeId) (span : Span) (s : Shape Node) (place : Option Place) :
    (mk id span s).seats place =
      ⟨place, mk id span s⟩ :: s.slotted.flatMap fun p => p.2.seats (some ⟨p.1, s.tag⟩) := by
  rw [seats, fold_mk, Shape.slotted_map, List.flatMap_map]
  rfl

/-- The nodes of the seats are the nodes of the tree in preorder. -/
theorem Node.map_seats (n : Node) (place : Option Place) :
    (n.seats place).map Seat.node = n.preorder := by
  induction n using induct generalizing place with
  | step id span s ih =>
    rw [seats_mk, preorder_mk, List.map_cons, List.map_flatMap, ← s.map_slotted, List.flatMap_map]
    refine congrArg (mk id span s :: ·) (List.flatMap_congr fun p hp => ?_)
    exact ih p.2 (s.mem_children_of_slotted hp) _

/-! ## Calls along a list of seats -/

/-- The calls along a list of seats, in which every node is given to the handler of its construct,
and how they end: at the end of the list, or at the first node that its handler refuses or that is
not accepted in its place. -/
inductive Along : List Seat → List Call → Except TreeError Unit → Prop where
  /-- There are no seats left. -/
  | done : Along [] [] (.ok ())
  /-- The handler returns the node, and its place accepts it. -/
  | step {seat : Seat} {seats : List Seat} {calls : List Call} {r : Except TreeError Unit}
      (hseat : seat.check = .ok ()) (h : Along seats calls r) :
      Along (seat :: seats) (⟨seat.node.tag, seat.node, .ok ()⟩ :: calls) r
  /-- The handler refuses the node. -/
  | refused {seat : Seat} {seats : List Seat} {e : TreeError} :
      Along (seat :: seats) [⟨seat.node.tag, seat.node, .error e⟩] (.error e)
  /-- The handler returns the node, and its place does not accept it. -/
  | misplaced {seat : Seat} {seats : List Seat} {e : TreeError} (hseat : seat.check = .error e) :
      Along (seat :: seats) [⟨seat.node.tag, seat.node, .ok ()⟩] (.error e)

/-- The calls go along the seats as far as the first node that its handler refuses or that is not
accepted in its place, and `e` says why. -/
def StopsWith (e : TreeError) (seats : List Seat) (calls : List Call) : Prop :=
  ∃ (before : List Seat) (seat : Seat) (after : List Seat) (earlier : List Call) (last : Call),
    seats = before ++ seat :: after ∧ calls = earlier ++ [last] ∧
      earlier.map Call.node = before.map Seat.node ∧ last.node = seat.node ∧
      (∀ c ∈ earlier, c.answer = .ok ()) ∧ (∀ s ∈ before, s.check = .ok ()) ∧
      (last.answer = .error e ∨ last.answer = .ok () ∧ seat.check = .error e)

namespace Along

variable {seats more : List Seat} {calls later : List Call} {r : Except TreeError Unit}
  {e : TreeError}

theorem append {s : Except TreeError Unit} (h : Along seats calls r) (hr : r = .ok ())
    (hmore : Along more later s) : Along (seats ++ more) (calls ++ later) s := by
  induction h with
  | done => exact hmore
  | step hseat _ ih => exact .step hseat (ih hr)
  | refused | misplaced => cases hr

theorem append_of_error (h : Along seats calls r) (hr : r = .error e) (more : List Seat) :
    Along (seats ++ more) calls r := by
  induction h with
  | done => cases hr
  | step hseat _ ih => exact .step hseat (ih hr)
  | refused => exact .refused
  | misplaced hseat => exact .misplaced hseat

theorem handler_eq (h : Along seats calls r) : ∀ c ∈ calls, c.handler = c.node.tag := by
  induction h with
  | done => exact fun c hc => absurd hc List.not_mem_nil
  | step _ _ ih => exact List.forall_mem_cons.2 ⟨rfl, ih⟩
  | refused | misplaced => exact List.forall_mem_singleton.2 rfl

theorem prefix_nodes (h : Along seats calls r) :
    calls.map Call.node <+: seats.map Seat.node := by
  induction h with
  | done => exact List.prefix_rfl
  | step _ _ ih => exact List.cons_prefix_cons.2 ⟨rfl, ih⟩
  | refused | misplaced => exact List.cons_prefix_cons.2 ⟨rfl, List.nil_prefix⟩

/-- Calls that end well go along the whole list. -/
theorem of_ok (h : Along seats calls r) (hr : r = .ok ()) :
    calls.map Call.node = seats.map Seat.node ∧ (∀ c ∈ calls, c.answer = .ok ()) ∧
      ∀ seat ∈ seats, seat.check = .ok () := by
  induction h with
  | done => simp
  | step hseat _ ih =>
    obtain ⟨hnodes, hanswers, hseats⟩ := ih hr
    exact ⟨congrArg _ hnodes, List.forall_mem_cons.2 ⟨rfl, hanswers⟩,
      List.forall_mem_cons.2 ⟨hseat, hseats⟩⟩
  | refused | misplaced => cases hr

/-- Calls that end in an error stop at the first node that causes one. -/
theorem of_error (h : Along seats calls r) (hr : r = .error e) : StopsWith e seats calls := by
  induction h with
  | done => cases hr
  | @step seat seats calls r hseat _ ih =>
    obtain ⟨before, stop, after, earlier, last, rfl, rfl, hnodes, hlast, hanswers, hseats, hend⟩ :=
      ih hr
    exact ⟨seat :: before, stop, after, ⟨seat.node.tag, seat.node, .ok ()⟩ :: earlier, last, rfl,
      rfl, congrArg _ hnodes, hlast, List.forall_mem_cons.2 ⟨rfl, hanswers⟩,
      List.forall_mem_cons.2 ⟨hseat, hseats⟩, hend⟩
  | @refused seat after e' =>
    cases hr
    exact ⟨[], seat, after, [], ⟨seat.node.tag, seat.node, .error e⟩, rfl, rfl, rfl, rfl, by simp,
      by simp, .inl rfl⟩
  | @misplaced seat after e' hseat =>
    cases hr
    exact ⟨[], seat, after, [], ⟨seat.node.tag, seat.node, .ok ()⟩, rfl, rfl, rfl, rfl, by simp,
      by simp, .inr ⟨rfl, hseat⟩⟩

end Along

/-! ## The calls of a walk -/

/-- From the state `w` the action `x` does what `y` does, and it notes calls along the seats. When
it succeeds, it gives `a`. -/
def Logs (x : Walk (σ × List Call) α) (y : Walk σ α) (seats : List Seat) (a : α)
    (w : WalkState σ) : Prop :=
  ∃ calls,
    (∀ log, x.run.run (w.beside log) =
      ((y.run.run w).1, (y.run.run w).2.beside (log ++ calls))) ∧
    Along seats calls ((y.run.run w).1.map fun _ => ()) ∧
    ∀ b, (y.run.run w).1 = .ok b → b = a

section Logs

variable {x : Walk (σ × List Call) α} {y : Walk σ α} {seats more : List Seat} {a : α} {b : β}
  {w : WalkState σ}

theorem Logs.of_run {r : Except TreeError α} {t : WalkState σ} {calls : List Call}
    (hy : y.run.run w = (r, t))
    (hx : ∀ log, x.run.run (w.beside log) = (r, t.beside (log ++ calls)))
    (halong : Along seats calls (r.map fun _ => ())) (hvalue : ∀ b, r = .ok b → b = a) :
    Logs x y seats a w := by
  rw [Logs, hy]
  exact ⟨calls, hx, halong, hvalue⟩

theorem logs_pure : Logs (pure a) (pure a : Walk σ α) [] a w := by
  refine ⟨[], fun log => ?_, .done, ?_⟩
  · rw [List.append_nil]
    rfl
  · rintro _ ⟨⟩
    rfl

theorem Logs.bind {f : α → Walk (σ × List Call) β} {g : α → Walk σ β} (h : Logs x y seats a w)
    (hrest : ∀ t, Logs (f a) (g a) more b t) :
    Logs (x >>= f) (y >>= g) (seats ++ more) b w := by
  obtain ⟨calls, hx, halong, hvalue⟩ := h
  rcases hrun : y.run.run w with ⟨r, t⟩
  simp only [hrun] at hx halong hvalue
  cases r with
  | ok a' =>
    obtain rfl : a' = a := hvalue a' rfl
    obtain ⟨later, hf, hlater, hb⟩ := hrest t
    refine .of_run (run_bind_of_ok hrun) (fun log => ?_) (halong.append rfl hlater) hb
    rw [run_bind_of_ok (hx log), hf, List.append_assoc]
    rfl
  | error e =>
    -- The second action is not run: its seats are behind the one where the calls stop.
    exact .of_run (run_bind_of_error hrun) (fun log => run_bind_of_error (hx log))
      (halong.append_of_error rfl more) nofun

theorem Logs.map (h : Logs x y seats a w) (g : α → β) :
    Logs (g <$> x) (g <$> y) seats (g a) w := by
  rw [map_eq_pure_bind, map_eq_pure_bind]
  have hpure := h.bind (f := fun a => pure (g a)) (g := fun a => pure (g a)) fun _ => logs_pure
  rwa [List.append_nil] at hpure

theorem Logs.restoring (h : Logs x y seats a w) :
    Logs (Walk.restoring x) (Walk.restoring y) seats a w := by
  obtain ⟨calls, hx, halong, hvalue⟩ := h
  refine ⟨calls, fun log => ?_, halong, hvalue⟩
  rw [Walk.run_restoring, Walk.run_restoring, hx]
  rfl

theorem logs_mapM {γ : Type} {f : γ → Walk (σ × List Call) β} {g : γ → Walk σ β}
    {visited : γ → List Seat} {value : γ → β} {cs : List γ}
    (h : ∀ c ∈ cs, ∀ w, Logs (f c) (g c) (visited c) (value c) w) (w : WalkState σ) :
    Logs (cs.mapM f) (cs.mapM g) (cs.flatMap visited) (cs.map value) w := by
  induction cs generalizing w with
  | nil => exact logs_pure
  | cons c cs ih =>
    obtain ⟨hc, hcs⟩ := List.forall_mem_cons.1 h
    rw [List.mapM_cons, List.mapM_cons, List.flatMap_cons]
    refine (hc w).bind fun t => ?_
    rw [← map_eq_pure_bind, ← map_eq_pure_bind]
    exact (ih hcs t).map (value c :: ·)

end Logs

namespace Handlers

/-- Gives a node to its handler, and checks the replacement against the place of the node. -/
def visitAt (hs : Handlers σ) (seat : Seat) : Walk σ Node := do
  let m ← hs.pass.visit seat.node
  (fun _ => m) <$> liftM (Place.check seat.place m)

/-- A walk visits the root and then its children. -/
theorem walkIn_succ (hs : Handlers σ) (limit : Nat) (place : Option Place) (n : Node) :
    hs.pass.walkIn (limit + 1) place n =
      Walk.restoring (hs.visitAt ⟨place, n⟩ >>= fun m =>
        (fun ks => m.withShape (m.shape.refill ks)) <$>
          m.shape.slotted.mapM fun p => hs.pass.walkIn limit (some ⟨p.1, m.tag⟩) p.2) := by
  simp only [Pass.walkIn, visitAt, Shape.traverse_eq, bind_assoc, bind_map_left, bind_pure_comp,
    Functor.map_map]

theorem run_noting (hs : Handlers σ) (n : Node) (w : WalkState σ) (log : List Call) :
    (hs.noting.pass.visit n).run.run (w.beside log) =
      (((hs.pass.visit n).run.run w).1, ((hs.pass.visit n).run.run w).2.beside
        (log ++ [⟨n.tag, n, ((hs.pass.visit n).run.run w).1.map fun _ => ()⟩])) :=
  rfl

/-- The call for a single node. -/
theorem KeepNodes.logs_visitAt {hs : Handlers σ} (hk : hs.KeepNodes) (seat : Seat)
    (w : WalkState σ) : Logs (hs.noting.visitAt seat) (hs.visitAt seat) [seat] seat.node w := by
  have hkept := hk seat.node w
  have hnoting := hs.run_noting seat.node w
  rcases hrun : (hs.pass.visit seat.node).run.run w with ⟨r, t⟩
  simp only [hrun] at hnoting
  cases r with
  | error e =>
    exact .of_run (run_bind_of_error hrun) (fun log => run_bind_of_error (hnoting log)) .refused
      nofun
  | ok m =>
    obtain rfl : m = seat.node := hkept.of_run hrun
    refine .of_run ((run_bind_of_ok hrun).trans run_map_liftM)
      (fun log => (run_bind_of_ok (hnoting log)).trans run_map_liftM) ?_ ?_
    · cases hseat : Place.check seat.place seat.node with
      | ok => exact .step hseat .done
      | error e => exact .misplaced hseat
    · cases Place.check seat.place seat.node with
      | ok => exact fun _ hok => (Except.ok.inj hok).symm
      | error e => exact nofun

/-- The calls of a walk go along the seats of the tree, and a walk that succeeds returns the
tree. -/
theorem KeepNodes.logs_walkIn {hs : Handlers σ} (hk : hs.KeepNodes) {limit : Nat} {n : Node}
    (hn : n.height ≤ limit) (place : Option Place) (w : WalkState σ) :
    Logs (hs.noting.pass.walkIn limit place n) (hs.pass.walkIn limit place n) (n.seats place) n
      w := by
  induction limit generalizing n place w with
  | zero => exact absurd n.height_pos (Nat.not_lt.2 hn)
  | succ limit ih =>
    obtain ⟨id, span, s⟩ := n
    -- The walk goes on below the node that it was given, so its children bound the rest.
    have hbelow : ∀ p ∈ s.slotted, ∀ w, Logs
        (hs.noting.pass.walkIn limit (some ⟨p.1, s.tag⟩) p.2)
        (hs.pass.walkIn limit (some ⟨p.1, s.tag⟩) p.2) (p.2.seats (some ⟨p.1, s.tag⟩)) p.2 w := by
      intro p hp w
      have hlower : p.2.height < (Node.mk id span s).height :=
        Node.height_lt_of_mem (s.mem_children_of_slotted hp)
      exact ih (by omega) _ w
    rw [walkIn_succ, walkIn_succ, Node.seats_mk]
    refine Logs.restoring ((hk.logs_visitAt ⟨place, _⟩ w).bind fun t => ?_)
    have hchildren := (logs_mapM hbelow t).map fun ks =>
      (Node.mk id span s).withShape (s.refill ks)
    rw [s.map_slotted, s.refill_children] at hchildren
    exact hchildren

/-- The nodes that handlers are called on are the first ones of the tree in preorder, and each is
given to the handler of its construct. When the walk succeeds they are all nodes of the tree. When
it fails, the last of them is the first node that its handler refuses or that its place does not
accept, and the error says which: no handler sees the children of such a node, or what comes after
it. -/
theorem calls_of_walk {hs : Handlers σ} (hk : hs.KeepNodes) {limit : Nat} {n : Node}
    (hn : n.height ≤ limit) {w t : WalkState σ} {r : Except TreeError Node}
    (hrun : (hs.pass.walk limit n).run.run w = (r, t)) :
    ∃ calls,
      (hs.noting.pass.walk limit n).run.run (w.beside []) = (r, t.beside calls) ∧
      (∀ c ∈ calls, c.handler = c.node.tag) ∧
      calls.map Call.node <+: n.preorder ∧
      (∀ m, r = .ok m →
        m = n ∧ calls.map Call.node = n.preorder ∧ (∀ c ∈ calls, c.answer = .ok ()) ∧
          ∀ seat ∈ n.seats none, seat.check = .ok ()) ∧
      ∀ e, r = .error e → StopsWith e (n.seats none) calls := by
  obtain ⟨calls, hnoting, halong, hvalue⟩ := hk.logs_walkIn hn none w
  rw [Pass.walk] at hrun
  rw [hrun] at halong hvalue
  simp only [hrun] at hnoting
  refine ⟨calls, hnoting [], halong.handler_eq, ?_, ?_, ?_⟩
  · rw [← n.map_seats none]
    exact halong.prefix_nodes
  · rintro m rfl
    obtain ⟨hall, hanswers, hseats⟩ := halong.of_ok rfl
    rw [n.map_seats] at hall
    exact ⟨hvalue m rfl, hall, hanswers, hseats⟩
  · rintro e rfl
    exact halong.of_error rfl

/-- Handlers that count the nodes, remember them on the context stack and refuse those of one
construct. -/
def refusing (refused : Tag) : Handlers Nat where
  handle tag n := do
    Walk.push n
    Walk.update (· + 1)
    if tag = refused then throw { fault := .refused "", span := n.span }
    return n

theorem keepNodes_refusing (refused : Tag) : (refusing refused).KeepNodes := by
  intro n w
  by_cases htag : n.tag = refused <;> simp [refusing, htag, Walk.push, Walk.update]

/-- An allocation whose field is no initialiser: its body is not visited. -/
theorem calls_of_walk_misplaced :
    let n := Node.detached (.new [Node.int 1] Node.nop)
    let w : WalkState Nat := { context := [], state := 0 }
    ∃ e t calls, ((refusing .var).pass.walk 2 n).run.run w = (.error e, t) ∧
      ((refusing .var).noting.pass.walk 2 n).run.run (w.beside []) = (.error e, t.beside calls) ∧
      calls.map Call.node = [n, Node.int 1] ∧ ∀ c ∈ calls, c.handler = c.node.tag := by
  intro n w
  obtain ⟨e, t, hrun⟩ : ∃ e t, ((refusing .var).pass.walk 2 n).run.run w = (.error e, t) :=
    ⟨_, _, rfl⟩
  obtain ⟨calls, hnoting, htags, -⟩ := calls_of_walk (keepNodes_refusing .var) (by decide) hrun
  have hcalls : calls = [⟨.new, n, .ok ()⟩, ⟨.const, Node.int 1, .ok ()⟩] :=
    (congrArg (fun p => p.2.state.2) hnoting).symm
  exact ⟨e, t, calls, hrun, hnoting, by rw [hcalls]; rfl, htags⟩

/-- The handlers may see every node of the tree although the walk fails: the last node may be the
one that is refused. -/
theorem calls_whole_refused :
    let n := Node.detached (.assign (Node.var "x") (Node.int 1))
    let w : WalkState Nat := { context := [], state := 0 }
    (refusing .const).KeepNodes ∧ n.height ≤ 2 ∧
      ∃ e t calls, ((refusing .const).pass.walk 2 n).run.run w = (.error e, t) ∧
        ((refusing .const).noting.pass.walk 2 n).run.run (w.beside []) =
          (.error e, t.beside calls) ∧
        calls.map Call.node = n.preorder := by
  intro n w
  let e : TreeError := { fault := .refused "", span := Span.none }
  let t : WalkState Nat := { context := [], state := 3 }
  let calls : List Call :=
    [⟨.assign, n, .ok ()⟩, ⟨.var, Node.var "x", .ok ()⟩, ⟨.const, Node.int 1, .error e⟩]
  have hrun : ((refusing .const).pass.walk 2 n).run.run w = (.error e, t) := by rfl
  have hnoting : ((refusing .const).noting.pass.walk 2 n).run.run (w.beside []) =
      (.error e, t.beside calls) := by rfl
  exact ⟨keepNodes_refusing .const, by decide, e, t, calls, hrun, hnoting, rfl⟩

end Handlers

end ProofScript
