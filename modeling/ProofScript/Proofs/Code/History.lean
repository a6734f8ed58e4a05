import ProofScript.Proofs.Code.Building

/-!
# The history of a builder

The calls of a builder may come in any order, and each of them may fail. The history of a builder is
the list of the calls that were made, with their answers. What has been built can be read off the
history: `Opens` says which definition is open after it, `Makes` which part a call has finished, and
`Event.scheduled` which names a call has put on the run list. `Refines` says that a builder agrees
with its history; every call keeps this (`Refines.perform`), so it holds after any list of calls.
-/

namespace ProofScript.Builder

/-! ## Calls and their answers -/

/-- A call of a builder. -/
inductive Call where
  | fresh (stem : String)
  | openDef (kind : DefKind) (stem : String) (params : List Param) (returns : Option String)
  | emit (lines : List String)
  | close (run : Bool)
  | global (text : String) (run : Option String)

/-- Makes a call. The answer is the name that the call returns, when it returns one. -/
def Call.perform : Call → Building (Option String)
  | fresh stem => some <$> Building.fresh stem
  | openDef kind stem params returns => some <$> Building.openDef kind stem params returns
  | emit lines => (fun _ => none) <$> Building.emit lines
  | close run => some <$> Building.close run
  | global text run => (fun _ => none) <$> Building.global text run

/-- A call and its answer. -/
structure Event where
  call : Call
  answer : Except CodeFault (Option String)

/-- What has happened, and the builder, after one more call. -/
def call (so : List Event × Builder) (c : Call) : List Event × Builder :=
  let (answer, b) := c.perform.run.run so.2
  (so.1 ++ [⟨c, answer⟩], b)

/-- The history of a new builder on which the given calls are made, and the builder. A call that
fails does not keep the next ones from being made. -/
def history (calls : List Call) : List Event × Builder := calls.foldl call ([], start)

/-! ## What a history says -/

namespace Event

/-- The definition that an event opens. -/
def opening? : Event → Option Definition
  | ⟨.openDef kind _ params returns, .ok (some name)⟩ => some ⟨kind, name, params, returns, []⟩
  | _ => none

/-- Whether an event leaves no definition open. A definition with parameters is dropped when it is
to be run, so it does not matter whether the call succeeds. -/
def isClose : Event → Bool
  | ⟨.close _, _⟩ => true
  | _ => false

/-- The lines that an event adds. -/
def added : Event → List String
  | ⟨.emit lines, .ok _⟩ => lines
  | _ => []

/-- The names that an event puts on the run list. -/
def scheduled : Event → List String
  | ⟨.close true, .ok (some name)⟩ => [name]
  | ⟨.global _ run, _⟩ => run.toList
  | _ => []

/-- Whether an event finishes a part of the program. -/
def finishes : Event → Bool
  | ⟨.close _, .ok _⟩ => true
  | ⟨.global _ _, _⟩ => true
  | _ => false

end Event

/-- After the events `past` the definition `d` is open: since the event that opened it nothing was
closed, and its lines are those that were added since then. -/
def Opens (past : List Event) (d : Definition) : Prop :=
  ∃ before e since opened, past = before ++ e :: since ∧ e.opening? = some opened ∧
    (∀ e' ∈ since, e'.opening? = none ∧ e'.isClose = false) ∧
    d = { opened with lines := since.flatMap Event.added }

/-- When a call succeeds after the events `past`. -/
def Call.Allowed (past : List Event) : Call → Prop
  | fresh _ | global _ _ => True
  | openDef .. => ¬∃ d, Opens past d
  | emit _ => ∃ d, Opens past d
  | close run => ∃ d, Opens past d ∧ (run = true → d.params = [])

/-- The event `e` after the events `past` finishes a part of the program. -/
def Makes (past : List Event) (e : Event) : Item → Prop
  | .definition d => ∃ run, e = ⟨.close run, .ok (some d.name)⟩ ∧ Opens past d ∧
      (run = true → d.params = [])
  | .global text => ∃ run, e = ⟨.global text run, .ok none⟩

/-- The events of a list, each with those that come before it, where `past` comes before all. -/
def withPast (past : List Event) : List Event → List (List Event × Event)
  | [] => []
  | e :: es => (past, e) :: withPast (past ++ [e]) es

/-- The events that finish a part of the program, each with those that come before it. -/
def finishing (events : List Event) : List (List Event × Event) :=
  (withPast [] events).filter fun p => p.2.finishes

/-- A builder agrees with what has happened to it. -/
structure Refines (events : List Event) (b : Builder) : Prop where
  /-- The open definition. -/
  current : ∀ d, b.current = some d ↔ Opens events d
  /-- There is a part for each event that finishes one, in order. -/
  items : List.Forall₂ (fun p item => Makes p.1 p.2 item) (finishing events) b.items
  /-- The run list. -/
  run : b.run = events.flatMap Event.scheduled
  /-- Every call has succeeded exactly when it may. -/
  answers : ∀ p ∈ withPast [] events, p.2.answer.isOk = true ↔ p.2.call.Allowed p.1

variable {past events : List Event} {e : Event} {d opened : Definition} {b : Builder}

/-! ## One more event -/

theorem withPast_append (past es es' : List Event) :
    withPast past (es ++ es') = withPast past es ++ withPast (past ++ es) es' := by
  induction es generalizing past with
  | nil => simp [withPast]
  | cons e es ih => simp [withPast, ih]

theorem withPast_snoc (events : List Event) (e : Event) :
    withPast [] (events ++ [e]) = withPast [] events ++ [(events, e)] := by
  rw [withPast_append]
  rfl

theorem finishing_snoc (events : List Event) (e : Event) :
    finishing (events ++ [e]) =
      finishing events ++ if e.finishes = true then [(events, e)] else [] := by
  rw [finishing, withPast_snoc, List.filter_append, finishing]
  by_cases h : e.finishes = true
  · simp [h]
  · simp [h]

/-- A definition is open behind an event that opened it, or behind one that neither opened nor closed
a definition, and has added its lines. -/
theorem opens_snoc : Opens (past ++ [e]) d ↔
    (∃ opened, e.opening? = some opened ∧ d = { opened with lines := [] }) ∨
      ((e.opening? = none ∧ e.isClose = false) ∧
        ∃ d', Opens past d' ∧ d = { d' with lines := d'.lines ++ e.added }) := by
  constructor
  · rintro ⟨before, e', since, opened, hsplit, hopened, hsince, rfl⟩
    rcases List.eq_nil_or_concat since with rfl | ⟨since, last, rfl⟩
    · obtain ⟨-, hlast⟩ := List.append_inj' hsplit rfl
      obtain rfl : e = e' := by simpa using hlast
      exact .inl ⟨opened, hopened, rfl⟩
    · have hsplit' : past ++ [e] = (before ++ e' :: since) ++ [last] := by simpa using hsplit
      obtain ⟨rfl, hlast⟩ := List.append_inj' hsplit' rfl
      obtain rfl : e = last := by simpa using hlast
      have hopens : Opens (before ++ e' :: since) { opened with lines := since.flatMap Event.added } :=
        ⟨before, e', since, opened, rfl, hopened, fun x hx => hsince x (by simp [hx]), rfl⟩
      exact .inr ⟨hsince e (by simp), _, hopens, by simp⟩
  · rintro (⟨opened, hopened, rfl⟩ | ⟨hkept, d', hd', rfl⟩)
    · exact ⟨past, e, [], opened, rfl, hopened, by simp, rfl⟩
    · obtain ⟨before, e', since, opened, rfl, hopened, hsince, rfl⟩ := hd'
      refine ⟨before, e', since ++ [e], opened, by simp, hopened, fun x hx => ?_, by simp⟩
      rcases List.mem_append.1 hx with hx | hx
      · exact hsince x hx
      · exact List.mem_singleton.1 hx ▸ hkept

namespace Refines

/-- A builder that agrees with its history still does after one more event. -/
theorem snoc {b' : Builder} (h : Refines events b)
    (hcurrent : ∀ d, b'.current = some d ↔ Opens (events ++ [e]) d)
    (hitems : e.finishes = false ∧ b'.items = b.items ∨
      e.finishes = true ∧ ∃ item, Makes events e item ∧ b'.items = b.items ++ [item])
    (hrun : b'.run = b.run ++ e.scheduled)
    (hanswer : e.answer.isOk = true ↔ e.call.Allowed events) : Refines (events ++ [e]) b' where
  current := hcurrent
  items := by
    rw [finishing_snoc]
    rcases hitems with ⟨hnot, hitems⟩ | ⟨hfinishes, item, hitem, hitems⟩
    · rw [hitems, if_neg (by simp [hnot]), List.append_nil]
      exact h.items
    · rw [hitems, if_pos hfinishes]
      exact List.rel_append h.items (.cons hitem .nil)
  run := by rw [hrun, h.run]; simp
  answers := by
    intro p hp
    rw [withPast_snoc] at hp
    rcases List.mem_append.1 hp with hp | hp
    · exact h.answers p hp
    · exact List.mem_singleton.1 hp ▸ hanswer

/-- No definition is open. -/
theorem closed_iff (h : Refines events b) : b.current = none ↔ ¬∃ d, Opens events d := by
  simp only [← h.current, Option.eq_none_iff_forall_ne_some, not_exists]

theorem opens (h : Refines events b) (hb : b.current = some d) : Opens events d := (h.current d).1 hb

/-- Only one definition is open. -/
theorem eq_of_opens (h : Refines events b) (hb : b.current = some opened) (hd : Opens events d) :
    d = opened := Option.some.inj (((h.current d).2 hd).symm.trans hb)

end Refines

/-! ## One more call -/

section Calls

variable {kind : DefKind} {stem : String} {params : List Param} {returns : Option String}
  {lines : List String} {run : Bool}

theorem perform_openDef (hb : b.current = none) :
    (Call.openDef kind stem params returns).perform.run.run b =
      (.ok (some (b.nextName stem)), { b.draw stem with
        current := some ⟨kind, b.nextName stem, params, returns, []⟩ }) := by
  cases b
  obtain rfl := hb
  rfl

theorem perform_openDef_of_open (hb : b.current = some opened) :
    (Call.openDef kind stem params returns).perform.run.run b =
      (.error (.alreadyOpen kind opened.name), b) := by
  cases b
  obtain rfl := hb
  rfl

theorem perform_emit (hb : b.current = some opened) :
    (Call.emit lines).perform.run.run b =
      (.ok none, { b with current := some { opened with lines := opened.lines ++ lines } }) := by
  cases b
  obtain rfl := hb
  rfl

theorem perform_emit_of_closed (hb : b.current = none) :
    (Call.emit lines).perform.run.run b = (.error .emitOutside, b) := by
  cases b
  obtain rfl := hb
  rfl

theorem perform_close (hb : b.current = some opened) (hrun : run = true → opened.params = []) :
    (Call.close run).perform.run.run b =
      (.ok (some opened.name), { b with
        current := none
        items := b.items ++ [.definition opened]
        run := if run then b.run ++ [opened.name] else b.run }) := by
  cases b
  obtain rfl := hb
  cases run with
  | false => rfl
  | true =>
    cases opened
    obtain rfl := hrun rfl
    rfl

/-- A definition with parameters is dropped when it is to be run. -/
theorem perform_close_of_params (hb : b.current = some opened) (hparams : opened.params ≠ []) :
    (Call.close true).perform.run.run b =
      (.error (.runWithParams opened.name), { b with current := none }) := by
  cases b
  obtain rfl := hb
  obtain ⟨param, params, hparams⟩ := List.exists_cons_of_ne_nil hparams
  cases opened
  obtain rfl := hparams
  rfl

theorem perform_close_of_closed (hb : b.current = none) :
    (Call.close run).perform.run.run b = (.error .endOutside, b) := by
  cases b
  obtain rfl := hb
  rfl

end Calls

/-- What is open stays open when an event opens, closes and adds nothing. -/
theorem opens_snoc_of_kept (hopening : e.opening? = none) (hclose : e.isClose = false)
    (hadded : e.added = []) : Opens (past ++ [e]) d ↔ Opens past d := by
  rw [opens_snoc, hopening, hclose, hadded]
  simp

/-- Nothing is open behind an event that closes. -/
theorem not_opens_snoc (hopening : e.opening? = none) (hclose : e.isClose = true) :
    ¬Opens (past ++ [e]) d := by
  rw [opens_snoc, hopening, hclose]
  simp

namespace Refines

/-- A call that fails and leaves the builder as it is. -/
theorem fail {fault : CodeFault} {c : Call} (h : Refines events b)
    (hopens : ∀ d, Opens (events ++ [⟨c, .error fault⟩]) d ↔ Opens events d)
    (hglobal : ∀ text run, c ≠ .global text run) (hnot : ¬c.Allowed events) :
    Refines (events ++ [⟨c, .error fault⟩]) b := by
  have hfinishes : (Event.mk c (.error fault)).finishes = false := by
    cases c with
    | global text run => exact absurd rfl (hglobal text run)
    | fresh | openDef | emit | close => rfl
  have hscheduled : (Event.mk c (.error fault)).scheduled = [] := by
    cases c with
    | global text run => exact absurd rfl (hglobal text run)
    | fresh | openDef | emit => rfl
    | close run => cases run <;> rfl
  refine h.snoc (fun d => ?_) (.inl ⟨hfinishes, rfl⟩) ?_ ⟨nofun, fun hc => absurd hc hnot⟩
  · rw [hopens]
    exact h.current d
  · rw [hscheduled, List.append_nil]

theorem fresh (h : Refines events b) (stem : String) :
    Refines (events ++ [⟨.fresh stem, .ok (some (b.nextName stem))⟩]) (b.draw stem) := by
  refine h.snoc (fun d => ?_) (.inl ⟨rfl, rfl⟩) ?_ ⟨fun _ => trivial, fun _ => rfl⟩
  · rw [opens_snoc_of_kept rfl rfl rfl]
    exact h.current d
  · exact (List.append_nil b.run).symm

theorem openDef (h : Refines events b) (hb : b.current = none) (kind : DefKind) (stem : String)
    (params : List Param) (returns : Option String) :
    Refines (events ++ [⟨.openDef kind stem params returns, .ok (some (b.nextName stem))⟩])
      { b.draw stem with current := some ⟨kind, b.nextName stem, params, returns, []⟩ } := by
  refine h.snoc (fun d => ?_) (.inl ⟨rfl, rfl⟩) ?_ ⟨fun _ => h.closed_iff.1 hb, fun _ => rfl⟩
  · rw [opens_snoc]
    constructor
    · intro hd
      exact .inl ⟨_, rfl, (Option.some.inj hd).symm⟩
    · rintro (⟨_, hopening, rfl⟩ | ⟨⟨hopening, -⟩, -⟩)
      · obtain rfl := Option.some.inj hopening
        rfl
      · cases hopening
  · exact (List.append_nil b.run).symm

theorem emit (h : Refines events b) (hb : b.current = some opened) (lines : List String) :
    Refines (events ++ [⟨.emit lines, .ok none⟩])
      { b with current := some { opened with lines := opened.lines ++ lines } } := by
  refine h.snoc (fun d => ?_) (.inl ⟨rfl, rfl⟩) ?_ ⟨fun _ => ⟨opened, h.opens hb⟩, fun _ => rfl⟩
  · rw [opens_snoc]
    constructor
    · intro hd
      exact .inr ⟨⟨rfl, rfl⟩, opened, h.opens hb, (Option.some.inj hd).symm⟩
    · rintro (⟨_, hopening, -⟩ | ⟨-, d', hd', rfl⟩)
      · cases hopening
      · obtain rfl := h.eq_of_opens hb hd'
        rfl
  · exact (List.append_nil b.run).symm

theorem close {run : Bool} (h : Refines events b) (hb : b.current = some opened)
    (hrun : run = true → opened.params = []) :
    Refines (events ++ [⟨.close run, .ok (some opened.name)⟩])
      { b with
        current := none
        items := b.items ++ [.definition opened]
        run := if run then b.run ++ [opened.name] else b.run } := by
  have hopens := h.opens hb
  have hclosed : ∀ d, ¬Opens (events ++ [⟨.close run, .ok (some opened.name)⟩]) d :=
    fun d => not_opens_snoc rfl rfl
  refine h.snoc (fun d => ?_) (.inr ⟨rfl, .definition opened, ⟨run, rfl, hopens, hrun⟩, rfl⟩) ?_
    ⟨fun _ => ⟨opened, hopens, hrun⟩, fun _ => rfl⟩
  · exact ⟨nofun, fun hd => absurd hd (hclosed d)⟩
  · cases run with
    | false => exact (List.append_nil b.run).symm
    | true => rfl

/-- A definition with parameters that was to be run is dropped. -/
theorem drop {fault : CodeFault} (h : Refines events b) (hb : b.current = some opened)
    (hparams : opened.params ≠ []) :
    Refines (events ++ [⟨.close true, .error fault⟩]) { b with current := none } := by
  have hclosed : ∀ d, ¬Opens (events ++ [⟨.close true, .error fault⟩]) d :=
    fun d => not_opens_snoc rfl rfl
  refine h.snoc (fun d => ?_) (.inl ⟨rfl, rfl⟩) (List.append_nil b.run).symm ⟨nofun, ?_⟩
  · exact ⟨nofun, fun hd => absurd hd (hclosed d)⟩
  · rintro ⟨d, hd, hallowed⟩
    rw [h.eq_of_opens hb hd] at hallowed
    exact absurd (hallowed rfl) hparams

theorem global (h : Refines events b) (text : String) (run : Option String) :
    Refines (events ++ [⟨.global text run, .ok none⟩])
      { b with items := b.items ++ [.global text], run := b.run ++ run.toList } := by
  have hmakes : Makes events ⟨.global text run, .ok none⟩ (.global text) := ⟨run, rfl⟩
  refine h.snoc (fun d => ?_) (.inr ⟨rfl, _, hmakes, rfl⟩) ?_ ⟨fun _ => trivial, fun _ => rfl⟩
  · rw [opens_snoc_of_kept rfl rfl rfl]
    exact h.current d
  · cases run <;> rfl

/-- Every call keeps a builder in agreement with its history. -/
theorem perform (h : Refines events b) (c : Call) :
    Refines (events ++ [⟨c, (c.perform.run.run b).1⟩]) (c.perform.run.run b).2 := by
  cases c with
  | fresh stem => exact h.fresh stem
  | global text run => exact h.global text run
  | openDef kind stem params returns =>
    cases hb : b.current with
    | none =>
      rw [perform_openDef hb]
      exact h.openDef hb kind stem params returns
    | some opened =>
      rw [perform_openDef_of_open hb]
      exact h.fail (fun d => opens_snoc_of_kept rfl rfl rfl) nofun
        fun hnot => hnot ⟨opened, h.opens hb⟩
  | emit lines =>
    cases hb : b.current with
    | none =>
      rw [perform_emit_of_closed hb]
      exact h.fail (fun d => opens_snoc_of_kept rfl rfl rfl) nofun (h.closed_iff.1 hb)
    | some opened =>
      rw [perform_emit hb]
      exact h.emit hb lines
  | close run =>
    cases hb : b.current with
    | none =>
      have hnone := h.closed_iff.1 hb
      rw [perform_close_of_closed hb]
      refine h.fail (fun d => ?_) nofun fun ⟨d, hd, _⟩ => hnone ⟨d, hd⟩
      exact iff_of_false (not_opens_snoc rfl rfl) fun hd => hnone ⟨d, hd⟩
    | some opened =>
      by_cases hrun : run = true → opened.params = []
      · rw [perform_close hb hrun]
        exact h.close hb hrun
      · obtain ⟨rfl, hparams⟩ := Classical.not_imp.1 hrun
        rw [perform_close_of_params hb hparams]
        exact h.drop hb hparams

end Refines

/-! ## Any calls -/

theorem refines_start : Refines [] start where
  current := by simp [start, Opens]
  items := .nil
  run := rfl
  answers := by simp [withPast]

theorem history_snoc (calls : List Call) (c : Call) :
    history (calls ++ [c]) = call (history calls) c := by
  rw [history, List.foldl_concat, history]

theorem refines_history (calls : List Call) :
    Refines (history calls).1 (history calls).2 ∧ (history calls).1.map Event.call = calls := by
  induction calls using List.reverseRecOn with
  | nil => exact ⟨refines_start, rfl⟩
  | append_singleton calls c ih =>
    obtain ⟨hrefines, hcalls⟩ := ih
    rw [history_snoc]
    refine ⟨hrefines.perform c, ?_⟩
    show ((history calls).1 ++ [_]).map Event.call = calls ++ [c]
    rw [List.map_append, hcalls]
    rfl

theorem mem_withPast (h : e ∈ events) : ∃ before, (before, e) ∈ withPast [] events := by
  obtain ⟨front, behind, rfl⟩ := List.append_of_mem h
  rw [withPast_append]
  exact ⟨[] ++ front, List.mem_append_right _ List.mem_cons_self⟩

theorem Refines.exists_item {before : List Event} (h : Refines events b)
    (hp : (before, e) ∈ finishing events) : ∃ item ∈ b.items, Makes before e item := by
  have hitems := h.items
  generalize finishing events = parts at hitems hp
  generalize b.items = items at hitems
  induction hitems with
  | nil => cases hp
  | @cons part item parts items hmakes _ ih =>
    rcases List.mem_cons.1 hp with rfl | hp
    · exact ⟨item, List.mem_cons_self, hmakes⟩
    · obtain ⟨other, hother, hmakes⟩ := ih hp
      exact ⟨other, List.mem_cons_of_mem _ hother, hmakes⟩

/-- A name that is scheduled by closing a definition belongs to a finished definition without
parameters. -/
theorem Refines.runnable {name : String} (h : Refines events b)
    (he : ⟨.close true, .ok (some name)⟩ ∈ events) :
    ∃ d, .definition d ∈ b.items ∧ d.name = name ∧ d.params = [] := by
  obtain ⟨before, hbefore⟩ := mem_withPast he
  obtain ⟨item, hitem, hmakes⟩ := h.exists_item (List.mem_filter.2 ⟨hbefore, rfl⟩)
  cases item with
  | definition d =>
    obtain ⟨run, hclose, -, hparams⟩ := hmakes
    obtain ⟨hrun, hname⟩ := Event.mk.inj hclose
    obtain rfl : true = run := Call.close.inj hrun
    exact ⟨d, hitem, (Option.some.inj (Except.ok.inj hname)).symm, hparams rfl⟩
  | global text =>
    obtain ⟨run, hglobal⟩ := hmakes
    cases (Event.mk.inj hglobal).1

/-- Whatever calls are made on a new builder, and whichever of them fail: a call succeeds exactly
when it may; the program can be assembled exactly when no definition is open; its parts are those
that the calls have finished, and it runs the names that the calls have scheduled, in order. -/
theorem assemble_history (calls : List Call) (dialect : Dialect) :
    let events := (history calls).1
    let b := (history calls).2
    events.map Event.call = calls ∧
      (∀ p ∈ withPast [] events, p.2.answer.isOk = true ↔ p.2.call.Allowed p.1) ∧
      ((∃ text, b.assemble dialect = .ok text) ↔ ¬∃ d, Opens events d) ∧
      (∀ text, b.assemble dialect = .ok text →
        ∃ parts, List.Forall₂ (fun p item => Makes p.1 p.2 item) (finishing events) parts ∧
          text = "\n\n".intercalate (dialect.prelude :: parts.map dialect.itemText ++
            dialect.entryPoint (events.flatMap Event.scheduled))) ∧
      b.run = events.flatMap Event.scheduled ∧
      ∀ name, ⟨.close true, .ok (some name)⟩ ∈ events →
        ∃ d, .definition d ∈ b.items ∧ d.name = name ∧ d.params = [] := by
  intro events b
  obtain ⟨h, hcalls⟩ : Refines events b ∧ events.map Event.call = calls := refines_history calls
  refine ⟨hcalls, h.answers, ?_, ?_, h.run, fun name he => h.runnable he⟩
  · rw [← h.closed_iff]
    constructor
    · rintro ⟨text, htext⟩
      cases hb : b.current with
      | none => rfl
      | some opened => simp [assemble, hb] at htext
    · intro hb
      exact ⟨_, assemble_of_closed dialect hb⟩
  · intro text htext
    refine ⟨b.items, h.items, ?_⟩
    cases hb : b.current with
    | none =>
      rw [assemble_of_closed dialect hb] at htext
      rw [← h.run]
      exact (Except.ok.inj htext).symm
    | some opened => simp [assemble, hb] at htext

/-- The second definition takes a parameter and is to be run: it is dropped, and the third one can
be opened. -/
example : (history [.openDef .method "run" [] none, .emit ["x"], .close true,
      .openDef .function "invariant" [⟨"y", "Value"⟩] none, .close true,
      .openDef .method "run" [] none, .global "text" (some "equivalent0"), .close true]).2.run =
    ["run0", "equivalent0", "run1"] := by
  decide

end ProofScript.Builder
