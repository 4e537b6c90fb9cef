import MessageRing.Proofs.Worker.Steps

/-!
What can be noticed of a worker from its beginning to its end.

The entries that a worker takes fall into windows. `Story` says for each phase what the trace of a
worker looks like by then, and how each rule of a worker continues the story.
-/
namespace MessageRing

/-- An entry that a worker has taken, and how the handler's call for it ended. -/
structure Visit (α : Type) where
  sequence : Int
  content : Option α
  /-- Well, if there was no call. -/
  outcome : Outcome

namespace Visit
variable {α : Type}

def entry (v : Visit α) : Int × Option α := (v.sequence, v.content)

/-- What is noticed of a visit in a window up to `available`. -/
def notices (available : Int) (v : Visit α) : List (Notice α) :=
  match HandlerCall.ofEntry available v.sequence v.content with
  | none => []
  | some call =>
    .called call :: .returned v.outcome ::
      (v.outcome.failure?.map (.reported · v.sequence)).toList

/-- How many of the entries have an item. -/
def items (visits : List (Visit α)) : Nat := (visits.filterMap content).length

end Visit

/-- A window that a worker has given back. -/
structure Window (α : Type) where
  earlier : List (Visit α)
  last : Visit α

namespace Window
variable {α : Type}

def visits (w : Window α) : List (Visit α) := w.earlier ++ [w.last]

def notices (w : Window α) : List (Notice α) :=
  .entered w.last.sequence :: w.visits.flatMap (Visit.notices w.last.sequence) ++
    [.released w.last.sequence]

def allVisits (windows : List (Window α)) : List (Visit α) := windows.flatMap visits

end Window

/-- What is noticed before the first window. -/
def Notice.opening {α : Type} (name : String) (outcome : Outcome) : List (Notice α) :=
  [.logged (.workerStarted name), .called .start, .returned outcome] ++
    (outcome.records (.startPanicked name)).map .logged

/-- What is noticed after the last window. -/
def Notice.closing {α : Type} (name : String) (outcome : Outcome) (handled : Nat) :
    List (Notice α) :=
  [.called .shutdown, .returned outcome] ++
    (outcome.records (.shutdownPanicked name)).map .logged ++
      [.logged (.workerStopped name handled)]

/-- What is noticed up to the end of some windows. -/
def Notice.tale {α : Type} (name : String) (outcome : Outcome) (windows : List (Window α)) :
    List (Notice α) :=
  opening name outcome ++ windows.flatMap Window.notices

/-- The consumer's columns of a ledger. -/
structure Intake (α : Type) where
  drained : List (Int × Option α)
  told : Int
  released : Int

def Ledger.intake {α : Type} (l : Ledger α) : Intake α :=
  { drained := l.drained, told := l.told, released := l.released }

variable {α η σ : Type}

/-- The entries taken so far are those of some windows and of the one under way. -/
structure Story.Past (k : Intake α) (first : Int) (handled : Nat) (windows : List (Window α))
    (current : List (Visit α)) : Prop where
  drained : k.drained = (Window.allVisits windows ++ current).map Visit.entry
  first_eq : first = (Window.allVisits windows).length
  released : k.released + 1 = first
  handled : handled = Visit.items (Window.allVisits windows)

/-- The window under way goes on after what was taken. -/
structure Story.Within (k : Intake α) (first : Int) (window : Drain) (tally : Tally)
    (current : List (Visit α)) : Prop where
  told : window.available ≤ k.told
  first_le : first ≤ window.available
  next : window.next = k.drained.length
  next_le : window.next ≤ window.available + 1
  consumed : tally.consumed = Visit.items current

/-- What was noticed of a worker that is in a phase. A worker never dies. -/
inductive Story (name : String) (k : Intake α) (first : Int) (handled : Nat)
    (trace : List (Notice α)) : Phase α η σ → Prop
  | created (tells : trace = []) (past : Story.Past k first handled [] []) :
    Story name k first handled trace .created
  | starting (turn : Turn α (η × Scene σ))
      (tells : trace = [.logged (.workerStarted name), .called .start])
      (past : Story.Past k first handled [] []) : Story name k first handled trace (.starting turn)
  | waiting (outcome : Outcome) (windows : List (Window α))
      (tells : trace = Notice.tale name outcome windows)
      (past : Story.Past k first handled windows []) :
    Story name k first handled trace .waiting
  | draining (window : Drain) (tally : Tally) (outcome : Outcome) (windows : List (Window α))
      (current : List (Visit α))
      (tells : trace = Notice.tale name outcome windows ++ .entered window.available ::
        current.flatMap (Visit.notices window.available))
      (past : Story.Past k first handled windows current)
      (within : Story.Within k first window tally current) :
    Story name k first handled trace (.draining window tally)
  | handling (turn : Turn α (η × Scene σ)) (sequence : Int) (window : Drain) (tally : Tally)
      (outcome : Outcome) (windows : List (Window α)) (current : List (Visit α))
      (content : Option α) (call : HandlerCall α)
      (tells : trace = Notice.tale name outcome windows ++ .entered window.available ::
        current.flatMap (Visit.notices window.available) ++ [.called call])
      (entry : HandlerCall.ofEntry window.available sequence content = some call)
      (past : Story.Past k first handled windows (current ++ [⟨sequence, content, .ok⟩]))
      (within : Story.Within k first window tally (current ++ [⟨sequence, content, .ok⟩])) :
    Story name k first handled trace (.handling turn sequence window tally)
  | reporting (error : HandlerError) (sequence : Int) (window : Drain) (tally : Tally)
      (outcome : Outcome) (windows : List (Window α)) (current : List (Visit α))
      (content : Option α) (call : HandlerCall α) (ended : Outcome)
      (tells : trace = Notice.tale name outcome windows ++ .entered window.available ::
        current.flatMap (Visit.notices window.available) ++ [.called call, .returned ended])
      (entry : HandlerCall.ofEntry window.available sequence content = some call)
      (failed : ended.failure? = some error)
      (past : Story.Past k first handled windows (current ++ [⟨sequence, content, .ok⟩]))
      (within : Story.Within k first window tally (current ++ [⟨sequence, content, .ok⟩])) :
    Story name k first handled trace (.reporting error sequence window tally)
  | stopping (turn : Turn α (η × Scene σ)) (outcome : Outcome) (windows : List (Window α))
      (tells : trace = Notice.tale name outcome windows ++ [.called .shutdown])
      (past : Story.Past k first handled windows []) :
    Story name k first handled trace (.stopping turn)
  | finished (outcome : Outcome) (windows : List (Window α)) (ended : Outcome)
      (tells : trace = Notice.tale name outcome windows ++ Notice.closing name ended handled)
      (past : Story.Past k first handled windows []) : Story name k first handled trace .finished

namespace Visit

@[simp] theorem items_append (visits visits' : List (Visit α)) :
    items (visits ++ visits') = items visits + items visits' := by
  simp [items]

theorem notices_of_none {available : Int} {v : Visit α}
    (h : HandlerCall.ofEntry available v.sequence v.content = none) : v.notices available = [] := by
  simp [notices, h]

theorem notices_of_some {available : Int} {v : Visit α} {call : HandlerCall α}
    (h : HandlerCall.ofEntry available v.sequence v.content = some call) :
    v.notices available = [.called call, .returned v.outcome] ++
      (v.outcome.failure?.map (.reported · v.sequence)).toList := by
  simp [notices, h]

end Visit

namespace Story.Past
variable {k : Intake α} {first : Int} {handled : Nat} {windows : List (Window α)}
  {current : List (Visit α)}

theorem length_drained (h : Story.Past k first handled windows current) :
    (k.drained.length : Int) = first + current.length := by
  rw [h.drained, h.first_eq]
  simp

theorem take (h : Story.Past k first handled windows current) (sequence : Int)
    (content : Option α) :
    Story.Past { k with drained := k.drained ++ [(sequence, content)] } first handled windows
      (current ++ [⟨sequence, content, .ok⟩]) := by
  refine { h with drained := ?_ }
  simp [h.drained, Visit.entry]

theorem ended {sequence : Int} {content : Option α}
    (h : Story.Past k first handled windows (current ++ [⟨sequence, content, .ok⟩]))
    (outcome : Outcome) :
    Story.Past k first handled windows (current ++ [⟨sequence, content, outcome⟩]) := by
  refine { h with drained := ?_ }
  rw [h.drained]
  simp [Visit.entry]

/-- Giving the window under way back makes it one of the windows before. -/
theorem close {earlier : List (Visit α)} {last : Visit α}
    (h : Story.Past k first handled windows (earlier ++ [last]))
    (next : (k.drained.length : Int) = last.sequence + 1) :
    Story.Past { k with released := last.sequence } (last.sequence + 1)
      (handled + Visit.items (earlier ++ [last])) (windows ++ [⟨earlier, last⟩]) [] := by
  have hvisits : Window.allVisits (windows ++ [⟨earlier, last⟩]) =
      Window.allVisits windows ++ (earlier ++ [last]) := by
    simp [Window.allVisits, Window.visits]
  have hlength := h.length_drained
  refine ⟨?_, ?_, rfl, ?_⟩
  · rw [hvisits, List.append_nil]
    exact h.drained
  · rw [hvisits, List.length_append, Nat.cast_add, ← h.first_eq]
    omega
  · rw [hvisits, Visit.items_append (Window.allVisits windows), ← h.handled]

end Story.Past

namespace Story.Within
variable {k : Intake α} {first : Int} {window : Drain} {tally : Tally} {current : List (Visit α)}

theorem take (h : Story.Within k first window tally current) (more : window.next ≤ window.available)
    (content : Option α) :
    Story.Within { k with drained := k.drained ++ [(window.next, content)] } first
      { window with next := window.next + 1 } (tally.take content)
      (current ++ [⟨window.next, content, .ok⟩]) where
  told := h.told
  first_le := h.first_le
  next := by simp [h.next]
  next_le := by simpa using more
  consumed := by cases content <;> simp [Tally.take, Visit.items, h.consumed]

theorem ended {sequence : Int} {content : Option α}
    (h : Story.Within k first window tally (current ++ [⟨sequence, content, .ok⟩]))
    (outcome : Outcome) :
    Story.Within k first window tally (current ++ [⟨sequence, content, outcome⟩]) := by
  refine { h with consumed := ?_ }
  rw [h.consumed]
  cases content <;> simp [Visit.items]

end Story.Within

/-- When a window is drained its last visit is that of the last sequence. -/
theorem Story.Past.exists_last {r : Ring α} {l : Ledger α} {first : Int} {handled : Nat}
    {windows : List (Window α)} {current : List (Visit α)} {window : Drain} {tally : Tally}
    (books : r.Books l) (past : Story.Past l.intake first handled windows current)
    (within : Story.Within l.intake first window tally current)
    (empty : window.available < window.next) :
    ∃ earlier last, current = earlier ++ [last] ∧ last.sequence = window.available ∧
      (l.drained.length : Int) = last.sequence + 1 := by
  have hlength : (l.drained.length : Int) = first + current.length := past.length_drained
  have hnext : window.next = l.drained.length := within.next
  have hfirst := within.first_le
  have hle := within.next_le
  rcases current.eq_nil_or_concat' with rfl | ⟨earlier, last, rfl⟩
  · rw [List.length_nil] at hlength
    omega
  obtain ⟨n, hn⟩ : ∃ n, l.drained.length = n + 1 := by
    refine ⟨l.drained.length - 1, ?_⟩
    rw [List.length_append, List.length_singleton] at hlength
    have := past.first_eq
    omega
  have htaken : (Window.allVisits windows ++ earlier).map Visit.entry ++ [last.entry] =
      (sequences n).map (fun s => (s, l.content s)) ++ [((n : Int), l.content n)] := by
    have hdrained : l.drained = (Window.allVisits windows ++ (earlier ++ [last])).map Visit.entry :=
      past.drained
    have hbooks := books.drained
    rw [hn, sequences_succ, hdrained] at hbooks
    simpa using hbooks
  have hlast := (List.append_inj' htaken rfl).2
  have hsequence : last.sequence = n := congrArg Prod.fst (List.singleton_injective hlast)
  exact ⟨earlier, last, rfl, by omega, by omega⟩

/-- No sequence is visited twice in a window. -/
theorem Story.Past.distinct {r : Ring α} {l : Ledger α} {first : Int} {handled : Nat}
    {windows : List (Window α)} (books : r.Books l)
    (past : Story.Past l.intake first handled windows []) {w : Window α} (hw : w ∈ windows) :
    ∀ v ∈ w.earlier, v.sequence ≠ w.last.sequence := by
  have hvisits : (Window.allVisits windows).map Visit.sequence = sequences l.drained.length := by
    have hdrained : l.drained = (Window.allVisits windows ++ []).map Visit.entry := past.drained
    have hfirst : l.drained.map Prod.fst = sequences l.drained.length := by
      conv_lhs => rw [books.drained]
      rw [List.map_map]
      exact List.map_id _
    rw [← hfirst, hdrained, List.append_nil, List.map_map]
    rfl
  have hnodup := nodup_sequences l.drained.length
  rw [← hvisits, Window.allVisits, List.map_flatMap] at hnodup
  have hwindow := (List.nodup_flatMap.mp hnodup).1 w hw
  rw [Window.visits, List.map_append] at hwindow
  intro v hv he
  refine (List.disjoint_of_nodup_append hwindow) (List.mem_map_of_mem hv) ?_
  simp [he]

namespace Story
variable {name : String} {k : Intake α} {first : Int} {handled : Nat} {trace : List (Notice α)}

section Steps
variable {turn : Turn α (η × Scene σ)} {window : Drain} {tally : Tally}

theorem begin (h : Story name k first handled trace (.created : Phase α η σ))
    (turn : Turn α (η × Scene σ)) :
    Story name k first handled (trace ++ [.logged (.workerStarted name), .called .start])
      (.starting turn) := by
  cases h with
  | created tells past => exact .starting turn (by simp [tells]) past

/-- A move of the handler leaves the story as it is. -/
theorem resume {resume : Turn α (η × Scene σ) → Phase α η σ} (resumes : Phase.Resumes resume)
    (h : Story name k first handled trace (resume turn)) (turn' : Turn α (η × Scene σ)) :
    Story name k first handled trace (resume turn') := by
  cases resumes with
  | starting =>
    cases h with
    | starting _ tells past => exact .starting turn' tells past
  | handling sequence window tally =>
    cases h with
    | handling _ _ _ _ outcome windows current content call tells entry past within =>
      exact .handling turn' _ _ _ outcome windows current content call tells entry past within
  | stopping =>
    cases h with
    | stopping _ outcome windows tells past => exact .stopping turn' outcome windows tells past

theorem started {outcome : Outcome}
    (h : Story name k first handled trace (.starting (.finish outcome) : Phase α η σ)) :
    Story name k first handled
      (trace ++ .returned outcome :: (outcome.records (.startPanicked name)).map .logged)
      (.waiting : Phase α η σ) := by
  cases h with
  | starting _ tells past =>
    exact .waiting outcome [] (by simp [tells, Notice.tale, Notice.opening]) past

theorem enter {cursor : Int} (h : Story name k first handled trace (.waiting : Phase α η σ))
    (visible : first ≤ cursor) :
    Story name { k with told := cursor } first handled (trace ++ [.entered cursor])
      (.draining ⟨first, cursor⟩ {} : Phase α η σ) := by
  cases h with
  | waiting outcome windows tells past =>
    have hlength : (k.drained.length : Int) = first + 0 := past.length_drained
    refine .draining _ _ outcome windows [] (by simp [tells]) { past with } ?_
    exact ⟨le_rfl, visible, by dsimp only; omega, by dsimp only; omega, rfl⟩

theorem leave (h : Story name k first handled trace (.waiting : Phase α η σ))
    (turn : Turn α (η × Scene σ)) :
    Story name k first handled (trace ++ [.called .shutdown]) (.stopping turn) := by
  cases h with
  | waiting outcome windows tells past =>
    exact .stopping turn outcome windows (by simp [tells]) past

theorem call {content : Option α} {call : HandlerCall α}
    (h : Story name k first handled trace (.draining window tally : Phase α η σ))
    (more : window.next ≤ window.available)
    (entry : HandlerCall.ofEntry window.available window.next content = some call)
    (turn : Turn α (η × Scene σ)) :
    Story name { k with drained := k.drained ++ [(window.next, content)] } first handled
      (trace ++ [.called call])
      (.handling turn window.next { window with next := window.next + 1 }
        (tally.take content)) := by
  cases h with
  | draining _ _ outcome windows current tells past within =>
    exact .handling turn _ _ _ outcome windows current content call (by simp [tells]) entry
      (past.take _ _) (within.take more content)

theorem skip {content : Option α}
    (h : Story name k first handled trace (.draining window tally : Phase α η σ))
    (more : window.next ≤ window.available)
    (entry : HandlerCall.ofEntry window.available window.next content = none) :
    Story name { k with drained := k.drained ++ [(window.next, content)] } first handled trace
      (.draining { window with next := window.next + 1 } (tally.take content) : Phase α η σ) := by
  cases h with
  | draining _ _ outcome windows current tells past within =>
    refine .draining _ _ outcome windows _ ?_ (past.take _ _) (within.take more content)
    simp [tells, Visit.notices_of_none, entry]

theorem release {r : Ring α} {l : Ledger α}
    (h : Story name l.intake first handled trace (.draining window tally : Phase α η σ))
    (books : r.Books l) (empty : window.available < window.next) :
    Story name { l.intake with released := window.available } (window.available + 1)
      (handled + tally.consumed) (trace ++ [.released window.available])
      (.waiting : Phase α η σ) := by
  cases h with
  | draining _ _ outcome windows current tells past within =>
    obtain ⟨earlier, last, rfl, hlast, hlength⟩ := past.exists_last books within empty
    rw [← hlast] at tells ⊢
    have hpast := past.close hlength
    rw [← within.consumed] at hpast
    refine .waiting outcome (windows ++ [Window.mk earlier last]) ?_ hpast
    simp [tells, Notice.tale, Window.notices, Window.visits]

theorem returned {sequence : Int} {ended : Outcome}
    (h : Story name k first handled trace
      (.handling (.finish ended) sequence window tally : Phase α η σ))
    (well : ended.failure? = none) :
    Story name k first handled (trace ++ [.returned ended])
      (.draining window tally : Phase α η σ) := by
  cases h with
  | handling _ _ _ _ outcome windows current content call tells entry past within =>
    have hvisit : Visit.notices window.available ⟨sequence, content, ended⟩ =
        [.called call, .returned ended] := by
      simp [Visit.notices, entry, well]
    refine .draining _ _ outcome windows _ ?_ (past.ended ended) (within.ended ended)
    simp [tells, hvisit]

theorem failed {sequence : Int} {ended : Outcome} {error : HandlerError}
    (h : Story name k first handled trace
      (.handling (.finish ended) sequence window tally : Phase α η σ))
    (failed : ended.failure? = some error) :
    Story name k first handled (trace ++ [.returned ended])
      (.reporting error sequence window tally : Phase α η σ) := by
  cases h with
  | handling _ _ _ _ outcome windows current content call tells entry past within =>
    exact .reporting _ _ _ _ outcome windows current content call ended (by simp [tells]) entry
      failed past within

theorem reported {sequence : Int} {error : HandlerError}
    (h : Story name k first handled trace
      (.reporting error sequence window tally : Phase α η σ)) :
    Story name k first handled (trace ++ [.reported error sequence])
      (.draining window { tally with failures := tally.failures + 1 } : Phase α η σ) := by
  cases h with
  | reporting _ _ _ _ outcome windows current content call ended tells entry failed past within =>
    have hvisit : Visit.notices window.available ⟨sequence, content, ended⟩ =
        [.called call, .returned ended, .reported error sequence] := by
      simp [Visit.notices, entry, failed]
    refine .draining _ _ outcome windows _ ?_ (past.ended ended) { within.ended ended with }
    simp [tells, hvisit]

theorem finish {ended : Outcome}
    (h : Story name k first handled trace (.stopping (.finish ended) : Phase α η σ)) :
    Story name k first handled
      (trace ++ .returned ended :: (ended.records (.shutdownPanicked name) ++
        [Record.workerStopped name handled]).map .logged) (.finished : Phase α η σ) := by
  cases h with
  | stopping _ outcome windows tells past =>
    exact .finished outcome windows ended (by simp [tells, Notice.closing]) past

end Steps

theorem within {window : Drain} {tally : Tally}
    (h : Story name k first handled trace (.draining window tally : Phase α η σ)) :
    ∃ current, Within k first window tally current := by
  cases h with
  | draining _ _ _ _ current _ _ within => exact ⟨current, within⟩

/-- The window under way is visible and not given back. -/
theorem window_bounds {r : Ring α} {l : Ledger α} {window : Drain} {tally : Tally}
    (h : Story name l.intake first handled trace (.draining window tally : Phase α η σ))
    (books : r.Books l) : r.gating ≤ window.available ∧ window.available ≤ r.cursor := by
  cases h with
  | draining _ _ _ _ _ _ past within =>
    have hgating : l.released = r.gating := books.released
    have hreleased : l.released + 1 = first := past.released
    have hfirst := within.first_le
    exact ⟨by omega, within.told.trans books.told⟩

theorem told (h : Story name k first handled trace (.finished : Phase α η σ)) :
    ∃ outcome windows ended, Past k first handled windows [] ∧
      trace = Notice.opening name outcome ++ windows.flatMap Window.notices ++
        Notice.closing name ended handled := by
  cases h with
  | finished outcome windows ended tells past => exact ⟨outcome, windows, ended, past, tells⟩

end Story

section Events

def Notice.event? : Notice α → Option (Int × α)
  | .called (.event item sequence _) => some (sequence, item)
  | _ => none

/-- The items passed to the handler, with their sequences. -/
def Notice.events (trace : List (Notice α)) : List (Int × α) := trace.filterMap event?

/-- The items among some entries, with their sequences. -/
def Ledger.events (entries : List (Int × Option α)) : List (Int × α) :=
  entries.filterMap fun entry => entry.2.map (entry.1, ·)

@[simp] theorem Notice.events_append (trace trace' : List (Notice α)) :
    events (trace ++ trace') = events trace ++ events trace' := by
  simp [events]

@[simp] theorem Ledger.events_append (entries entries' : List (Int × Option α)) :
    events (entries ++ entries') = events entries ++ events entries' := by
  simp [events]

@[simp] theorem Notice.events_logged (records : List Record) :
    events (records.map (Notice.logged (α := α))) = [] := by
  simp [events, List.filterMap_map, Function.comp_def, event?]

@[simp] theorem Notice.events_entered (available : Int) (trace : List (Notice α)) :
    events (.entered available :: trace) = events trace :=
  rfl

theorem Notice.events_call {available sequence : Int} {content : Option α} {call : HandlerCall α}
    (h : HandlerCall.ofEntry available sequence content = some call) :
    events [.called call] = Ledger.events [(sequence, content)] := by
  cases content with
  | some item =>
    cases h
    rfl
  | none =>
    unfold HandlerCall.ofEntry at h
    split_ifs at h
    cases h
    rfl

theorem Visit.events_notices (available : Int) (v : Visit α) :
    Notice.events (v.notices available) = Ledger.events [v.entry] := by
  cases hcall : HandlerCall.ofEntry available v.sequence v.content with
  | none =>
    have hcontent : v.content = none := by
      cases hc : v.content with
      | none => rfl
      | some item => simp [HandlerCall.ofEntry, hc] at hcall
    rw [notices_of_none hcall, entry, hcontent]
    rfl
  | some call =>
    have hreturned : Notice.events [Notice.called call, .returned v.outcome] =
        Notice.events [.called call] :=
      (Notice.events_append [.called call] [.returned v.outcome]).trans (List.append_nil _)
    have hreported : Notice.events
        (v.outcome.failure?.map (Notice.reported (α := α) · v.sequence)).toList = [] := by
      cases v.outcome.failure? <;> rfl
    rw [notices_of_some hcall, Notice.events_append, hreturned, hreported, List.append_nil,
      Notice.events_call hcall, entry]

theorem Visit.events_flatMap (available : Int) (visits : List (Visit α)) :
    Notice.events (visits.flatMap (notices available)) = Ledger.events (visits.map entry) := by
  induction visits with
  | nil => rfl
  | cons v visits ih =>
    rw [List.flatMap_cons, Notice.events_append, ih, v.events_notices]
    exact (Ledger.events_append [v.entry] _).symm

theorem Window.events_flatMap (windows : List (Window α)) :
    Notice.events (windows.flatMap notices) =
      Ledger.events ((allVisits windows).map Visit.entry) := by
  induction windows with
  | nil => rfl
  | cons w windows ih =>
    have hreleased : Notice.events [Notice.released (α := α) w.last.sequence] = [] := rfl
    have hwindow : Notice.events w.notices = Ledger.events (w.visits.map Visit.entry) := by
      rw [notices, Notice.events_append, hreleased, List.append_nil]
      exact Visit.events_flatMap w.last.sequence w.visits
    simp [hwindow, ih, allVisits]

theorem Notice.events_tale (name : String) (outcome : Outcome) (windows : List (Window α)) :
    events (tale name outcome windows) =
      Ledger.events ((Window.allVisits windows).map Visit.entry) := by
  have hopening : events (opening (α := α) name outcome) = [] := by
    rw [opening, events_append, events_logged]
    rfl
  rw [tale, events_append, hopening, List.nil_append, Window.events_flatMap]

/-- The handler is given every item that was taken, and nothing else. -/
theorem Story.events {name : String} {k : Intake α} {first : Int} {handled : Nat}
    {trace : List (Notice α)} {phase : Phase α η σ}
    (story : Story name k first handled trace phase) :
    Notice.events trace = Ledger.events k.drained := by
  cases story with
  | created tells past | starting _ tells past => rw [tells, past.drained]; rfl
  | waiting outcome windows tells past =>
    rw [tells, past.drained, Notice.events_tale, List.append_nil]
  | draining window tally outcome windows current tells past within =>
    rw [tells, past.drained]
    simp [Notice.events_tale, Visit.events_flatMap]
  | handling turn sequence window tally outcome windows current content call tells entry past =>
    rw [tells, past.drained]
    simp [Notice.events_tale, Visit.events_flatMap, Notice.events_call entry, Visit.entry]
  | reporting error sequence window tally outcome windows current content call ended tells entry _
      past =>
    have hreturned : Notice.events [Notice.called call, .returned ended] =
        Notice.events [.called call] :=
      (Notice.events_append [.called call] [.returned ended]).trans (List.append_nil _)
    rw [tells, past.drained]
    simp [Notice.events_tale, Visit.events_flatMap, hreturned, Notice.events_call entry,
      Visit.entry]
  | stopping turn outcome windows tells past =>
    rw [tells, past.drained, Notice.events_append, Notice.events_tale, List.append_nil]
    exact List.append_nil _
  | finished outcome windows ended tells past =>
    have hclosing : Notice.events (Notice.closing (α := α) name ended handled) = [] := by
      rw [Notice.closing, Notice.events_append, Notice.events_append, Notice.events_logged]
      rfl
    rw [tells, past.drained, Notice.events_append, Notice.events_tale, hclosing,
      List.append_nil, List.append_nil]

end Events

end MessageRing
