import MessageRing.Proofs.Worker.Story

/-!
Accounts of workers.

An account of a worker goes on with the worker's steps and with whatever other parties do to the
ring and to the world in between. `Sound` says that the ring is as the ledger tells and the worker
as the trace tells; it holds from the beginning and along every deed.
-/
namespace MessageRing
variable {α η σ : Type}

def ExceptionHandler.Normal (exceptions : ExceptionHandler σ) : Prop :=
  ∀ error sequence scene p scene',
    exceptions error sequence scene ≠ some (.error p, scene')

/-- The exception handler may panic with this. -/
def ExceptionHandler.Panics (exceptions : ExceptionHandler σ) (p : Panic) : Prop :=
  ∃ error sequence scene scene', exceptions error sequence scene = some (.error p, scene')

theorem ExceptionHandler.Normal.not_panics {exceptions : ExceptionHandler σ}
    (normal : exceptions.Normal) (p : Panic) : ¬ exceptions.Panics p := by
  rintro ⟨error, sequence, scene, scene', h⟩
  exact normal error sequence scene p scene' h

theorem Ledger.intake_read_produced (l : Ledger α) {notes : List (Note α)}
    (h : ∀ note ∈ notes, note.produced = true) : (l.read notes).intake = l.intake := by
  obtain ⟨-, hdrained, htold, hreleased⟩ := l.read_produced h
  simp [intake, hdrained, htold, hreleased]

theorem Turn.notes_produced {ω : Type} (r : Ring α) (turn : Turn α ω) :
    ∀ note ∈ turn.notes r, note.produced = true := by
  cases turn with
  | attempt item next => cases item <;> exact Ring.filled_produced _ _
  | _ => simp [Turn.notes, Note.produced]

namespace Station
variable {s s' : Station α η σ} {scene scene' : Scene σ} {notes : List (Note α)}
  {notices trace : List (Notice α)} {l : Ledger α}

def Tells (s : Station α η σ) (l : Ledger α) (trace : List (Notice α)) : Prop :=
  Story s.worker.name l.intake s.worker.next s.worker.handled trace s.worker.phase

theorem Tells.at (h : s.Tells l trace) {phase : Phase α η σ} (here : s.worker.phase = phase) :
    Story s.worker.name l.intake s.worker.next s.worker.handled trace phase := by
  rw [← here]
  exact h

theorem Tells.alive (h : s.Tells l trace) (p : Panic) : s.worker.phase ≠ .died p := by
  intro phase
  cases h.at phase

theorem Tells.finished_of_ended (h : s.Tells l trace) (ended : s.worker.phase.ended = true) :
    s.worker.phase = .finished := by
  cases phase : s.worker.phase with
  | finished => rfl
  | died p => exact absurd phase (h.alive p)
  | _ =>
    rw [phase] at ended
    cases ended

/-- What others do to the ring leaves the story as it is. -/
theorem Tells.produced (h : s.Tells l trace) (produced : ∀ note ∈ notes, note.produced = true) :
    s.Tells (l.read notes) trace := by
  unfold Tells
  rw [l.intake_read_produced produced]
  exact h

/-- The window under way is visible. -/
theorem available_le (books : s.ring.Books l) (h : s.Tells l trace) (window : Drain)
    (tally : Tally) (phase : s.worker.phase = .draining window tally) :
    window.available ≤ s.ring.cursor :=
  ((h.at phase).window_bounds books).2

/-- A worker takes one sequence after the other and gives back what it has taken. -/
theorem Does.orderly (does : Does s scene notes notices s' scene') (h : s.Tells l trace) :
    l.OrderlyAll notes := by
  cases does with
  | turn resumes phase move => exact (l.read_produced (Turn.notes_produced _ _)).1
  | enter phase visible => exact ⟨trivial, trivial⟩
  | call phase more entry | skip phase more entry =>
    obtain ⟨current, within⟩ := (h.at phase).within
    exact ⟨⟨within.next, more.trans within.told⟩, trivial⟩
  | release phase empty later visible =>
    obtain ⟨current, within⟩ := (h.at phase).within
    exact ⟨empty.trans_eq within.next, trivial⟩
  | _ => exact trivial

/-- The ring takes every window back, so a worker dies only when its exception handler panics. -/
theorem Does.panics (does : Does s scene notes notices s' scene') (books : s.ring.Books l)
    (h : s.Tells l trace) {p : Panic} (died : s'.worker.phase = .died p) :
    s.worker.exceptions.Panics p ∧ notes = [] ∧ notices.filterMap Notice.call? = [] := by
  cases does with
  | turn resumes phase move => cases resumes <;> cases died
  | @returned ended sequence window tally phase =>
    cases hfailed : ended.failure? <;> simp [setPhase, hfailed] at died
  | misused phase empty release =>
    -- the window lies between what was given back and the cursor
    obtain ⟨hlater, hvisible⟩ := (h.at phase).window_bounds books
    rw [Ring.release_of_le hlater hvisible] at release
    cases release
  | die phase report =>
    cases died
    exact ⟨⟨_, _, _, _, report⟩, rfl, rfl⟩
  | _ => cases died

theorem Does.alive (does : Does s scene notes notices s' scene')
    (normal : s.worker.exceptions.Normal) (books : s.ring.Books l) (h : s.Tells l trace)
    (p : Panic) : s'.worker.phase ≠ .died p :=
  fun died => normal.not_panics p (does.panics books h died).1

theorem Does.tells (does : Does s scene notes notices s' scene')
    (alive : ∀ p, s'.worker.phase ≠ .died p) (books : s.ring.Books l) (h : s.Tells l trace) :
    s'.Tells (l.read notes) (trace ++ notices) := by
  cases does with
  | begin phase => exact (h.at phase).begin _
  | turn resumes phase move =>
    unfold Tells
    rw [l.intake_read_produced (Turn.notes_produced _ _), List.append_nil]
    exact (h.at phase).resume resumes _
  | started phase => exact (h.at phase).started
  | enter phase visible => exact (h.at phase).enter visible
  | leave phase hidden halted unclaimed => exact (h.at phase).leave _
  | call phase more entry => exact (h.at phase).call more entry _
  | skip phase more entry =>
    rw [List.append_nil]
    exact (h.at phase).skip more entry
  | release phase empty later visible => exact (h.at phase).release books empty
  | @returned ended sequence window tally phase =>
    cases hfailed : ended.failure? with
    | none => exact (h.at phase).returned hfailed
    | some error => exact (h.at phase).failed hfailed
  | report phase report => exact (h.at phase).reported
  | finish phase => exact (h.at phase).finish
  | misused phase empty release => exact absurd rfl (alive _)
  | die phase report => exact absurd rfl (alive _)

end Station

/-- What may happen at a worker's ring. -/
inductive Deed (α σ : Type) where
  /-- The worker takes its next step, if it can. -/
  | work
  /-- Another party calls the ring. -/
  | call (call : Ring.Call α) (other : call.consumes = false)
  | world (change : Scene σ → Scene σ)

/-- A worker at its ring, and what was written down about them. -/
structure Account (α η σ : Type) where
  station : Station α η σ
  scene : Scene σ
  /-- What happened to the ring. -/
  ledger : Ledger α := {}
  /-- What was noticed of the worker, oldest first. -/
  trace : List (Notice α) := []

namespace Account

def next (a : Account α η σ) : Deed α σ → Account α η σ
  | .work =>
    match a.station.step a.scene with
    | none => a
    | some (station, scene) =>
      { station, scene
        ledger := a.ledger.read a.station.notes
        trace := a.trace ++ a.station.notices }
  | .call call _ =>
    let (answer, ring) := a.station.ring.answer call
    { a with
      station := { a.station with ring }
      ledger := a.ledger.read (Ring.notes (call, answer)) }
  | .world change => { a with scene := change a.scene }

end Account

/-- The worker has seen that nothing more will come. -/
def Phase.closing : Phase α η σ → Bool
  | .stopping _ | .finished => true
  | _ => false

theorem Phase.eq_finished {phase : Phase α η σ} (closing : phase.closing = true)
    (ended : phase.ended = true) : phase = .finished := by
  cases phase with
  | finished => rfl
  | stopping _ => cases ended
  | _ => cases closing

/-- A closing worker is past the last sequence that was or will be claimed. -/
theorem Station.Does.closed {s s' : Station α η σ} {scene scene' : Scene σ}
    {notes : List (Note α)} {notices : List (Notice α)}
    (does : Does s scene notes notices s' scene') (path : s.ring.Path notes s'.ring)
    (h : s.worker.phase.closing = true → s.ring.halted = true ∧ s.ring.claimed < s.worker.next)
    (closing : s'.worker.phase.closing = true) :
    s'.ring.halted = true ∧ s'.ring.claimed < s'.worker.next := by
  cases does with
  | turn resumes phase move =>
    have hclosing : s.worker.phase.closing = true := by
      rw [phase]
      cases resumes <;> exact closing
    obtain ⟨hhalted, hlt⟩ := h hclosing
    obtain ⟨hhalted', hclaimed⟩ := path.halted hhalted
    exact ⟨hhalted', hclaimed.trans_lt hlt⟩
  | leave phase hidden halted unclaimed => exact ⟨halted, unclaimed⟩
  | finish phase => exact h (by rw [phase]; rfl)
  | @returned ended sequence window tally phase =>
    cases hfailed : ended.failure? <;> simp [setPhase, hfailed, Phase.closing] at closing
  | _ => cases closing

namespace Account
variable {a : Account α η σ}

/-- The ring is as the ledger says, and the worker has done what the trace says. -/
structure Sound (a : Account α η σ) : Prop where
  books : a.station.ring.Books a.ledger
  consumed : a.station.ring.consumed = true
  tells : a.station.Tells a.ledger a.trace
  closed : a.station.worker.phase.closing = true →
    a.station.ring.halted = true ∧ a.station.ring.claimed < a.station.worker.next

/-- A worker at a new ring, before its first step. -/
def opened (ring : Ring α) (name : String) (handler : EventHandler α η σ) (memory : η)
    (exceptions : ExceptionHandler σ) (scene : Scene σ) : Account α η σ :=
  { station := Station.make ring.takeConsumer.2 name handler memory exceptions, scene }

theorem opened_sound {config : Config} {metrics : Metrics} {ring : Ring α}
    (made : Ring.make config metrics = .ok ring) (name : String) (handler : EventHandler α η σ)
    (memory : η) (exceptions : ExceptionHandler σ) (scene : Scene σ) :
    (opened ring name handler memory exceptions scene).Sound := by
  have hbooks := Ring.make_books made
  have hfirst : ring.gating + 1 = 0 := by
    have : -1 = ring.gating := hbooks.released
    omega
  unfold opened
  rw [ring.takeConsumer_eq]
  have hpast : Story.Past (Ledger.intake ({} : Ledger α)) (ring.gating + 1) 0 [] [] :=
    ⟨rfl, hfirst, hfirst.symm, rfl⟩
  exact {
    books := (Ring.Step.attach ring).books hbooks trivial
    consumed := rfl
    tells := Story.created rfl hpast
    closed := fun h => by cases h }

theorem next_work_of_none (h : a.station.step a.scene = none) : a.next .work = a := by
  simp [next, h]

theorem next_work_of_some {station : Station α η σ} {scene : Scene σ}
    (h : a.station.step a.scene = some (station, scene)) :
    a.next .work =
      { station, scene
        ledger := a.ledger.read a.station.notes
        trace := a.trace ++ a.station.notices } := by
  simp [next, h]

theorem next_push (a : Account α η σ) (item : α) :
    (a.next (.call (.push item) rfl)).station =
        { a.station with ring := (a.station.ring.push item).2 } ∧
      (a.next (.call (.push item) rfl)).ledger =
        a.ledger.read (Ring.filled (some item) (a.station.ring.push item).1) :=
  ⟨congrArg (fun ring => { a.station with ring }) (Ring.reply_ring _ _),
    congrArg a.ledger.read (Ring.notes_push _ item)⟩

theorem Sound.work_of_alive (h : a.Sound) {station : Station α η σ} {scene : Scene σ}
    (step : a.station.step a.scene = some (station, scene))
    (alive : ∀ p, station.worker.phase ≠ .died p) : (a.next .work).Sound := by
  have hdoes := Station.step_does step
  have hpath := hdoes.path h.books.counted (Station.available_le h.books h.tells)
  rw [next_work_of_some step]
  exact {
    books := hpath.books h.books (hdoes.orderly h.tells)
    consumed := hpath.consumed h.consumed
    tells := hdoes.tells alive h.books h.tells
    closed := hdoes.closed hpath h.closed }

theorem Sound.call (h : a.Sound) (call : Ring.Call α) (other : call.consumes = false) :
    (a.next (.call call other)).Sound := by
  have hpath := Ring.answer_path h.books.counted call
  have hproduced := Ring.notes_produced other (a.station.ring.answer call).1
  refine ⟨hpath.books h.books (a.ledger.read_produced hproduced).1, hpath.consumed h.consumed,
    ?_, fun closing => ?_⟩
  · exact h.tells.produced hproduced
  · obtain ⟨hhalted, hlt⟩ := h.closed closing
    obtain ⟨hhalted', hclaimed⟩ := hpath.halted hhalted
    exact ⟨hhalted', hclaimed.trans_lt hlt⟩

theorem Sound.next (h : a.Sound) (normal : a.station.worker.exceptions.Normal)
    (deed : Deed α σ) : (a.next deed).Sound := by
  cases deed with
  | work =>
    cases hstep : a.station.step a.scene with
    | none =>
      rw [next_work_of_none hstep]
      exact h
    | some next =>
      exact h.work_of_alive hstep ((Station.step_does hstep).alive normal h.books h.tells)
  | call call other => exact h.call call other
  | world change => exact { h with }

theorem next_keeps (a : Account α η σ) (deed : Deed α σ) :
    (a.next deed).station.worker.name = a.station.worker.name ∧
      (a.next deed).station.worker.handler = a.station.worker.handler ∧
      (a.next deed).station.worker.exceptions = a.station.worker.exceptions := by
  cases deed with
  | work =>
    cases hstep : a.station.step a.scene with
    | none =>
      rw [next_work_of_none hstep]
      exact ⟨rfl, rfl, rfl⟩
    | some next =>
      rw [next_work_of_some hstep]
      exact (Station.step_does hstep).keeps
  | _ => exact ⟨rfl, rfl, rfl⟩

end Account
end MessageRing
