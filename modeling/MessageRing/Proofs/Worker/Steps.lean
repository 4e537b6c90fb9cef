import MessageRing.Proofs.Ring.Fifo
import MessageRing.Proofs.Ring.Metrics
import MessageRing.Worker.Basic

/-!
What a worker does, in single steps, and what others see of it.

`Does` gives the rules that a worker follows, each with the changes of the ring and with what an
onlooker notices; every step follows one of them.
-/
namespace MessageRing

inductive HandlerCall (α : Type) where
  | start
  | event (item : α) (sequence : Int) (last : Bool)
  | endOfBatch (sequence : Int)
  | shutdown
  deriving DecidableEq, Repr

/-- What an onlooker notices of a worker. -/
inductive Notice (α : Type) where
  | called (call : HandlerCall α)
  /-- The handler's call under way has ended. -/
  | returned (outcome : Outcome)
  /-- A failure was handed to the exception handler, and that one has returned or panicked. -/
  | reported (error : HandlerError) (sequence : Int)
  /-- A window up to this sequence begins. -/
  | entered (available : Int)
  | released (available : Int)
  | logged (record : Record)

namespace HandlerCall
variable {α η σ : Type}

/-- The call for an entry of a window. An empty slot causes one only at the window's end. -/
def ofEntry (available sequence : Int) : Option α → Option (HandlerCall α)
  | some item => some (.event item sequence (sequence = available))
  | none => if sequence = available then some (.endOfBatch sequence) else none

def turn (handler : EventHandler α η σ) : HandlerCall α → Turn α (η × Scene σ)
  | start => handler.onStart
  | event item sequence last => handler.onEvent item sequence last
  | endOfBatch sequence => handler.onEndOfBatch sequence
  | shutdown => handler.onShutdown

def item? : HandlerCall α → Option α
  | .event item _ _ => some item
  | _ => none

end HandlerCall

def Notice.call? {α : Type} : Notice α → Option (HandlerCall α)
  | .called call => some call
  | _ => none

/-- The record of a call that may only panic, if it did. -/
def Outcome.records (outcome : Outcome) (record : HandlerError → Record) : List Record :=
  (outcome.panic?.map record).toList

def Scene.reportAll {σ : Type} (scene : Scene σ) (records : List Record) : Scene σ :=
  records.foldl Scene.report scene

def Tally.take {α : Type} (tally : Tally) : Option α → Tally
  | some _ => { tally with consumed := tally.consumed + 1 }
  | none => tally

/-- The changes of the ring in a turn's next move. -/
def Turn.notes {α ω : Type} (r : Ring α) : Turn α ω → List (Note α)
  | .attempt (some item) _ => Ring.filled (some item) (r.push item).1
  | .attempt none _ => Ring.filled none r.pushEmpty.1
  | .halt _ => [.halted]
  | .finish _ | .access _ | .look _ => []

theorem Turn.afterPush_eq_some {α ω : Type} {response : Response Int} {r ring : Ring α}
    {next : Except (Fault RingError) Int → Turn α ω} {turn : Turn α ω}
    (h : Turn.afterPush (response, r) next = some (turn, ring)) :
    ring = r ∧ ∃ result, turn = next result := by
  cases response with
  | waits => cases h
  | _ =>
    cases h
    exact ⟨rfl, _, rfl⟩

/-- A turn that pushes goes on with the answer, and leaves the world alone. -/
theorem Turn.move_attempt {α ω : Type} {r ring : Ring α} {world world' : ω} {item : Option α}
    {next : Except (Fault RingError) Int → Turn α ω} {turn : Turn α ω}
    (move : (Turn.attempt item next).move r world = some (turn, ring, world')) :
    ring = (item.elim r.pushEmpty r.push).2 ∧ world' = world ∧ ∃ result, turn = next result := by
  cases item <;> obtain ⟨_, hpush, he⟩ := Option.map_eq_some_iff.mp move <;> cases he <;>
    exact ⟨(Turn.afterPush_eq_some hpush).1, rfl, (Turn.afterPush_eq_some hpush).2⟩

/-- A handler's move leaves the ring alone, pushes or halts. -/
theorem Turn.move_cases {α ω : Type} {r ring : Ring α} {world world' : ω} {turn turn' : Turn α ω}
    (move : turn.move r world = some (turn', ring, world')) :
    (((∃ run, turn = .access run) ∨ ∃ next, turn = .look next) ∧ ring = r) ∨
    (∃ item next, turn = .attempt item next ∧ ring = (item.elim r.pushEmpty r.push).2) ∨
    ∃ next, turn = .halt next ∧ ring = r.halt := by
  cases turn with
  | finish _ => cases move
  | access run =>
    obtain ⟨_, _, he⟩ := Option.map_eq_some_iff.mp move
    cases he
    exact .inl ⟨.inl ⟨run, rfl⟩, rfl⟩
  | attempt item next => exact .inr (.inl ⟨item, next, rfl, (move_attempt move).1⟩)
  | halt next =>
    cases move
    exact .inr (.inr ⟨_, rfl, rfl⟩)
  | look next =>
    cases move
    exact .inl ⟨.inr ⟨next, rfl⟩, rfl⟩

/-- An act on the world leaves the ring alone. -/
theorem Turn.move_aside {α ω : Type} {r ring : Ring α} {world world' : ω} {turn turn' : Turn α ω}
    (aside : (∃ outcome, turn = .finish outcome) ∨ ∃ run, turn = .access run)
    (move : turn.move r world = some (turn', ring, world')) :
    ring = r ∧ turn.notes r = [] := by
  rcases aside with ⟨outcome, rfl⟩ | ⟨run, rfl⟩
  · cases move
  · obtain ⟨_, _, he⟩ := Option.map_eq_some_iff.mp move
    cases he
    exact ⟨rfl, rfl⟩

/-- A handler's move changes the ring as a call of anyone does. -/
theorem Turn.move_path {α ω : Type} {r ring : Ring α} (h : r.Counted) {world world' : ω}
    {turn turn' : Turn α ω} (move : turn.move r world = some (turn', ring, world')) :
    r.Path (turn.notes r) ring := by
  rcases move_cases move with ⟨⟨_, rfl⟩ | ⟨_, rfl⟩, rfl⟩ | ⟨item, _, rfl, rfl⟩ | ⟨_, rfl, rfl⟩
  · exact .nil _
  · exact .nil _
  · cases item with
    | some item => exact Ring.push_path h item
    | none => exact Ring.pushEmpty_path h
  · exact (Ring.Step.halt r).path

/-- What no push and no halt changes is the same after a handler's move. -/
theorem Turn.move_spared {α ω β : Type} {part : Ring α → β} (spared : Ring.Spared part)
    (halt : ∀ r : Ring α, part r.halt = part r) {r ring : Ring α} {world world' : ω}
    {turn turn' : Turn α ω} (move : turn.move r world = some (turn', ring, world')) :
    part ring = part r := by
  rcases move_cases move with ⟨-, rfl⟩ | ⟨item, _, rfl, rfl⟩ | ⟨_, rfl, rfl⟩
  · rfl
  · cases item with
    | some item => exact spared.push r item
    | none => exact spared.pushEmpty r
  · exact halt r

/-- The phases in which the handler is at work, by its turn. -/
inductive Phase.Resumes {α η σ : Type} : (Turn α (η × Scene σ) → Phase α η σ) → Prop
  | starting : Resumes .starting
  | handling (sequence : Int) (window : Drain) (tally : Tally) :
    Resumes (.handling · sequence window tally)
  | stopping : Resumes .stopping

namespace Station
variable {α η σ : Type}

def notes (s : Station α η σ) : List (Note α) :=
  match s.worker.phase with
  | .waiting => if s.worker.next ≤ s.ring.cursor then [.told s.ring.cursor] else []
  | .draining window _ =>
    if window.next ≤ window.available then [.took window.next (s.ring.peek window.next)]
    else match s.ring.release window.available with
      | .ok _ => [.released window.available]
      | .error _ => []
  | .starting turn | .handling turn _ _ _ | .stopping turn => turn.notes s.ring
  | .created | .reporting _ _ _ _ | .finished | .died _ => []

def notices (s : Station α η σ) : List (Notice α) :=
  match s.worker.phase with
  | .created => [.logged (.workerStarted s.worker.name), .called .start]
  | .starting (.finish outcome) =>
    .returned outcome :: (outcome.records (.startPanicked s.worker.name)).map .logged
  | .waiting =>
    if s.worker.next ≤ s.ring.cursor then [.entered s.ring.cursor] else [.called .shutdown]
  | .draining window _ =>
    if window.next ≤ window.available then
      ((HandlerCall.ofEntry window.available window.next (s.ring.peek window.next)).map
        .called).toList
    else match s.ring.release window.available with
      | .ok _ => [.released window.available]
      | .error _ => []
  | .handling (.finish outcome) _ _ _ => [.returned outcome]
  | .reporting error sequence _ _ => [.reported error sequence]
  | .stopping (.finish outcome) =>
    .returned outcome :: (outcome.records (.shutdownPanicked s.worker.name) ++
      [Record.workerStopped s.worker.name s.worker.handled]).map .logged
  | _ => []

/-- The rules of a worker. -/
inductive Does (s : Station α η σ) (scene : Scene σ) :
    List (Note α) → List (Notice α) → Station α η σ → Scene σ → Prop
  | begin (phase : s.worker.phase = .created) :
    Does s scene [] [.logged (.workerStarted s.worker.name), .called .start]
      (s.setPhase (.starting (HandlerCall.start.turn s.worker.handler)))
      (scene.report (.workerStarted s.worker.name))
  | turn {resume turn turn' ring memory scene'} (resumes : Phase.Resumes resume)
      (phase : s.worker.phase = resume turn)
      (move : turn.move s.ring (s.worker.memory, scene) = some (turn', ring, memory, scene')) :
    Does s scene (turn.notes s.ring) []
      { ring, worker := { s.worker with memory, phase := resume turn' } } scene'
  | started {outcome} (phase : s.worker.phase = .starting (.finish outcome)) :
    Does s scene []
      (.returned outcome :: (outcome.records (.startPanicked s.worker.name)).map .logged)
      (s.setPhase .waiting) (scene.reportAll (outcome.records (.startPanicked s.worker.name)))
  | enter (phase : s.worker.phase = .waiting) (visible : s.worker.next ≤ s.ring.cursor) :
    Does s scene [.told s.ring.cursor] [.entered s.ring.cursor]
      (s.setPhase (.draining ⟨s.worker.next, s.ring.cursor⟩ {})) scene
  | leave (phase : s.worker.phase = .waiting) (hidden : s.ring.cursor < s.worker.next)
      (halted : s.ring.halted = true) (unclaimed : s.ring.claimed < s.worker.next) :
    Does s scene [] [.called .shutdown]
      (s.setPhase (.stopping (HandlerCall.shutdown.turn s.worker.handler))) scene
  | call {window tally call} (phase : s.worker.phase = .draining window tally)
      (more : window.next ≤ window.available)
      (entry : HandlerCall.ofEntry window.available window.next (s.ring.peek window.next) =
        some call) :
    Does s scene [.took window.next (s.ring.peek window.next)] [.called call]
      ({ s with ring := s.ring.put window.next none }.setPhase
        (.handling (call.turn s.worker.handler) window.next
          { window with next := window.next + 1 } (tally.take (s.ring.peek window.next)))) scene
  | skip {window tally} (phase : s.worker.phase = .draining window tally)
      (more : window.next ≤ window.available)
      (entry : HandlerCall.ofEntry window.available window.next (s.ring.peek window.next) =
        none) :
    Does s scene [.took window.next (s.ring.peek window.next)] []
      ({ s with ring := s.ring.put window.next none }.setPhase
        (.draining { window with next := window.next + 1 }
          (tally.take (s.ring.peek window.next)))) scene
  | release {window tally} (phase : s.worker.phase = .draining window tally)
      (empty : window.available < window.next) (later : s.ring.gating ≤ window.available)
      (visible : window.available ≤ s.ring.cursor) :
    Does s scene [.released window.available] [.released window.available]
      { ring := { s.ring with gating := window.available }.count (·.addWindow tally)
        worker :=
          { s.worker with
            next := window.available + 1
            handled := s.worker.handled + tally.consumed
            phase := .waiting } } scene
  | returned {outcome sequence window tally}
      (phase : s.worker.phase = .handling (.finish outcome) sequence window tally) :
    Does s scene [] [.returned outcome]
      (s.setPhase (match outcome.failure? with
        | some e => .reporting e sequence window tally
        | none => .draining window tally)) scene
  | report {error sequence window tally scene'}
      (phase : s.worker.phase = .reporting error sequence window tally)
      (report : s.worker.exceptions error sequence scene = some (.ok (), scene')) :
    Does s scene [] [.reported error sequence]
      (s.setPhase (.draining window { tally with failures := tally.failures + 1 })) scene'
  | finish {outcome} (phase : s.worker.phase = .stopping (.finish outcome)) :
    Does s scene []
      (.returned outcome :: (outcome.records (.shutdownPanicked s.worker.name) ++
        [Record.workerStopped s.worker.name s.worker.handled]).map .logged)
      (s.setPhase .finished)
      (scene.reportAll (outcome.records (.shutdownPanicked s.worker.name) ++
        [.workerStopped s.worker.name s.worker.handled]))
  | misused {window tally violation} (phase : s.worker.phase = .draining window tally)
      (empty : window.available < window.next)
      (release : s.ring.release window.available = .error violation) :
    Does s scene [] [] (s.setPhase (.died (.text violation.message))) scene
  | die {error sequence window tally p scene'}
      (phase : s.worker.phase = .reporting error sequence window tally)
      (report : s.worker.exceptions error sequence scene = some (.error p, scene')) :
    Does s scene [] [.reported error sequence] (s.setPhase (.died p)) scene'

theorem does_of_move {s s' : Station α η σ} {scene scene' : Scene σ}
    {resume : Turn α (η × Scene σ) → Phase α η σ} {turn : Turn α (η × Scene σ)}
    (resumes : Phase.Resumes resume) (phase : s.worker.phase = resume turn)
    (h : s.move scene turn resume = some (s', scene')) :
    Does s scene (turn.notes s.ring) [] s' scene' := by
  unfold move at h
  obtain ⟨⟨turn', ring, memory, scene''⟩, hmove, he⟩ := Option.map_eq_some_iff.mp h
  cases he
  exact .turn resumes phase hmove

theorem does_of_await {s s' : Station α η σ} {scene : Scene σ} (phase : s.worker.phase = .waiting)
    (h : s.await = some s') : Does s scene s.notes s.notices s' scene := by
  unfold await at h
  cases hw : s.ring.waitFor s.worker.next with
  | upTo available =>
    obtain ⟨rfl, hvisible⟩ := Ring.waitFor_upTo hw
    have hdrain : s.ring.drainUpTo s.worker.next s.ring.cursor =
        .ok ⟨s.worker.next, s.ring.cursor⟩ := if_neg (lt_irrefl _)
    simp only [hw, hdrain, Option.some.injEq] at h
    simp only [notes, notices, phase, if_pos hvisible, ← h]
    exact .enter phase hvisible
  | halted =>
    obtain ⟨hhidden, hhalted, hunclaimed⟩ := Ring.waitFor_halted hw
    simp only [hw, Option.some.injEq] at h
    simp only [notes, notices, phase, if_neg (not_le.mpr hhidden), ← h]
    exact .leave phase hhidden hhalted hunclaimed
  | waits =>
    rw [hw] at h
    cases h

theorem does_of_drain {s : Station α η σ} (scene : Scene σ) {window : Drain} {tally : Tally}
    (phase : s.worker.phase = .draining window tally) :
    Does s scene s.notes s.notices (s.drain window tally) scene := by
  by_cases hmore : window.next ≤ window.available
  · simp only [notes, notices, phase, if_pos hmore]
    unfold drain
    rw [Ring.drainNext_of_le _ hmore]
    cases hpeek : s.ring.peek window.next with
    | some item =>
      have h : Does s scene _ _ _ _ := .call phase hmore (by rw [hpeek]; rfl)
      rw [hpeek] at h
      exact h
    | none =>
      by_cases hlast : window.next = window.available
      · have h : Does s scene _ _ _ _ :=
          .call phase hmore (by rw [hpeek]; exact if_pos hlast)
        rw [hpeek] at h
        simp only [HandlerCall.ofEntry, if_pos hlast]
        exact h
      · have h : Does s scene _ _ _ _ :=
          .skip phase hmore (by rw [hpeek]; exact if_neg hlast)
        rw [hpeek] at h
        simp only [HandlerCall.ofEntry, if_neg hlast]
        exact h
  · simp only [notes, notices, phase, if_neg hmore]
    unfold drain
    rw [Ring.drainNext_of_lt _ (not_le.mp hmore)]
    rcases s.ring.release_cases window.available with ⟨hlater, hvisible, he⟩ | ⟨v, he⟩
    · simp only [he]
      exact .release phase (not_le.mp hmore) hlater hvisible
    · simp only [he]
      exact .misused phase (not_le.mp hmore) he

theorem step_does {s s' : Station α η σ} {scene scene' : Scene σ}
    (h : s.step scene = some (s', scene')) : Does s scene s.notes s.notices s' scene' := by
  unfold step at h
  cases phase : s.worker.phase with
  | created =>
    simp only [phase, Option.some.injEq, Prod.mk.injEq] at h
    simp only [notes, notices, phase, ← h.1, ← h.2]
    exact .begin phase
  | starting turn =>
    cases turn with
    | finish outcome =>
      simp only [phase, Option.some.injEq, Prod.mk.injEq] at h
      simp only [notes, notices, phase, ← h.1, ← h.2]
      have hdoes : Does s scene _ _ _ _ := .started phase
      cases outcome <;> exact hdoes
    | access _ | attempt _ _ | halt _ | look _ =>
      simp only [phase] at h
      simp only [notes, notices, phase]
      exact does_of_move .starting phase h
  | waiting =>
    simp only [phase] at h
    obtain ⟨next, hnext, he⟩ := Option.map_eq_some_iff.mp h
    cases he
    exact does_of_await phase hnext
  | draining window tally =>
    simp only [phase, Option.some.injEq, Prod.mk.injEq] at h
    rw [← h.1, ← h.2]
    exact does_of_drain scene phase
  | handling turn sequence window tally =>
    cases turn with
    | finish outcome =>
      simp only [phase, Option.some.injEq, Prod.mk.injEq] at h
      simp only [notes, notices, phase, ← h.1, ← h.2]
      exact .returned phase
    | access _ | attempt _ _ | halt _ | look _ =>
      simp only [phase] at h
      simp only [notes, notices, phase]
      exact does_of_move (.handling sequence window tally) phase h
  | reporting error sequence window tally =>
    simp only [phase] at h
    obtain ⟨⟨result, scene''⟩, hreport, he⟩ := Option.map_eq_some_iff.mp h
    cases he
    simp only [notes, notices, phase]
    cases result with
    | ok _ => exact .report phase hreport
    | error p => exact .die phase hreport
  | stopping turn =>
    cases turn with
    | finish outcome =>
      simp only [phase, Option.some.injEq, Prod.mk.injEq] at h
      simp only [notes, notices, phase, ← h.1, ← h.2]
      have hdoes : Does s scene _ _ _ _ := .finish phase
      cases outcome <;> exact hdoes
    | access _ | attempt _ _ | halt _ | look _ =>
      simp only [phase] at h
      simp only [notes, notices, phase]
      exact does_of_move .stopping phase h
  | finished => simp [phase] at h
  | died p => simp [phase] at h

/-- A step changes the ring as its notes say, if the window under way is visible. -/
theorem Does.path {s s' : Station α η σ} {scene scene' : Scene σ} {notes : List (Note α)}
    {notices : List (Notice α)} (does : Does s scene notes notices s' scene')
    (h : s.ring.Counted) (within : ∀ window tally, s.worker.phase = .draining window tally →
      window.available ≤ s.ring.cursor) : s.ring.Path notes s'.ring := by
  cases does with
  | turn resumes phase move => exact Turn.move_path h move
  | enter phase visible => exact (Ring.Step.tell s.ring).path
  | call phase more entry => exact (Ring.Step.take s.ring (more.trans (within _ _ phase))).path
  | skip phase more entry => exact (Ring.Step.take s.ring (more.trans (within _ _ phase))).path
  | release phase empty later visible =>
    obtain ⟨metrics, hcount⟩ := { s.ring with gating := _ }.count_eq (·.addWindow _)
    rw [hcount]
    exact (Ring.Step.release s.ring later visible).path.trans (Ring.Step.tally _ metrics).path
  | _ => exact .nil s.ring

/-- A worker keeps its name, its handler and its exception handler. -/
theorem Does.keeps {s s' : Station α η σ} {scene scene' : Scene σ} {notes : List (Note α)}
    {notices : List (Notice α)} (does : Does s scene notes notices s' scene') :
    s'.worker.name = s.worker.name ∧ s'.worker.handler = s.worker.handler ∧
      s'.worker.exceptions = s.worker.exceptions := by
  cases does <;> exact ⟨rfl, rfl, rfl⟩

end Station
end MessageRing
