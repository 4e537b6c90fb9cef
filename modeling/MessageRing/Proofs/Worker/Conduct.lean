import MessageRing.Proofs.Worker.Loop

/-!
What a handler has done to its memory and to the world, call by call.

A conduct says what both are like between two calls of the handler, and during a call by what is left
of its turn. If it governs a handler then it holds of every worker with that handler, whatever the
worker meets in its ring and whatever others do to the ring.
-/
namespace MessageRing
variable {α η σ : Type}

/-- What is known of a handler's memory and of the outside world, from the calls made so far. -/
structure Conduct (α η σ : Type) where
  idle : List (HandlerCall α) → η → σ → Prop
  /-- After the calls before this one, with this much of its turn still to come. -/
  busy : List (HandlerCall α) → HandlerCall α → Turn α (η × Scene σ) → η → σ → Prop

namespace Conduct
variable {c : Conduct α η σ}

/-- The handler's turns do what the conduct says. -/
structure Governs (c : Conduct α η σ) (handler : EventHandler α η σ) : Prop where
  begin {calls : List (HandlerCall α)} {memory : η} {outside : σ} (call : HandlerCall α) :
    c.idle calls memory outside → c.busy calls call (call.turn handler) memory outside
  move {calls : List (HandlerCall α)} {call : HandlerCall α} {turn turn' : Turn α (η × Scene σ)}
      {r r' : Ring α} {memory memory' : η} {scene scene' : Scene σ} :
    c.busy calls call turn memory scene.outside →
      turn.move r (memory, scene) = some (turn', r', memory', scene') →
      c.busy calls call turn' memory' scene'.outside
  finish {calls : List (HandlerCall α)} {call : HandlerCall α} {outcome : Outcome} {memory : η}
      {outside : σ} :
    c.busy calls call (.finish outcome) memory outside →
      c.idle (calls ++ [call]) memory outside

/-- A change of the outside world that the conduct does not notice. -/
structure Bears (c : Conduct α η σ) (outside outside' : σ) : Prop where
  idle {calls : List (HandlerCall α)} {memory : η} :
    c.idle calls memory outside → c.idle calls memory outside'
  busy {calls : List (HandlerCall α)} {call : HandlerCall α} {turn : Turn α (η × Scene σ)}
      {memory : η} :
    c.busy calls call turn memory outside → c.busy calls call turn memory outside'

end Conduct

/-- Whatever the exception handler does, it leaves the outside world alone. -/
def ExceptionHandler.Discreet (exceptions : ExceptionHandler σ) : Prop :=
  ∀ error sequence scene result scene',
    exceptions error sequence scene = some (result, scene') → scene'.outside = scene.outside

theorem ExceptionHandler.logging_discreet (worker : String) :
    (ExceptionHandler.logging worker : ExceptionHandler σ).Discreet := by
  intro error sequence scene result scene' h
  cases h
  rfl

theorem ExceptionHandler.logging_normal (worker : String) :
    (ExceptionHandler.logging worker : ExceptionHandler σ).Normal := by
  intro error sequence scene p scene' h
  cases h

@[simp] theorem Scene.reportAll_outside (scene : Scene σ) (records : List Record) :
    (scene.reportAll records).outside = scene.outside := by
  induction records generalizing scene with
  | nil => rfl
  | cons record records ih => exact ih (scene.report record)

/-- What is left of the handler's turn that is under way. -/
def Phase.turn? : Phase α η σ → Option (Turn α (η × Scene σ))
  | .starting turn | .handling turn _ _ _ | .stopping turn => some turn
  | _ => none

theorem Phase.Resumes.turn?_eq {resume : Turn α (η × Scene σ) → Phase α η σ}
    (resumes : Phase.Resumes resume) (turn : Turn α (η × Scene σ)) :
    (resume turn).turn? = some turn := by
  cases resumes <;> rfl

theorem Phase.turn?_of_ended {phase : Phase α η σ} (ended : phase.ended = true) :
    phase.turn? = none := by
  cases phase with
  | finished | died p => rfl
  | _ => cases ended

/-- No window is under way, and the worker has begun. -/
def Phase.between : Phase α η σ → Bool
  | .waiting | .stopping _ | .finished => true
  | _ => false

/-- When no window is under way, the trace consists of windows and perhaps a shutdown. -/
theorem Story.between {name : String} {k : Intake α} {first : Int} {handled : Nat}
    {trace : List (Notice α)} {phase : Phase α η σ}
    (h : Story name k first handled trace phase) (between : phase.between = true) :
    ∃ outcome windows rest, trace = Notice.tale name outcome windows ++ rest ∧
      (∀ available, .entered available ∉ rest) ∧ Past k first handled windows [] ∧
      (rest.filterMap Notice.call? = [.shutdown] ∨
        rest.filterMap Notice.call? = [] ∧ phase.turn? = none) := by
  cases h with
  | waiting outcome windows tells past =>
    exact ⟨outcome, windows, [], by simp [tells], by simp, past, .inr ⟨rfl, rfl⟩⟩
  | stopping turn outcome windows tells past =>
    exact ⟨outcome, windows, _, tells, by simp, past, .inl rfl⟩
  | finished outcome windows ended tells past =>
    refine ⟨outcome, windows, _, tells, by simp [Notice.closing], past, .inl ?_⟩
    simp [Notice.closing, List.filterMap_cons, List.filterMap_map, Notice.call?]
  | _ => cases between

namespace Station
variable {s s' : Station α η σ} {scene scene' : Scene σ} {notes : List (Note α)}
  {notices : List (Notice α)} {c : Conduct α η σ} {calls : List (HandlerCall α)}

/-- The handler of a worker has done what the conduct says of these calls. -/
def Follows (s : Station α η σ) (c : Conduct α η σ) (scene : Scene σ)
    (calls : List (HandlerCall α)) : Prop :=
  match s.worker.phase.turn? with
  | some turn => ∃ earlier call, calls = earlier ++ [call] ∧
      c.busy earlier call turn s.worker.memory scene.outside
  | none => c.idle calls s.worker.memory scene.outside

theorem follows_iff_busy {turn : Turn α (η × Scene σ)} (h : s.worker.phase.turn? = some turn) :
    s.Follows c scene calls ↔ ∃ earlier call, calls = earlier ++ [call] ∧
      c.busy earlier call turn s.worker.memory scene.outside := by
  unfold Follows
  rw [h]

theorem follows_iff_idle (h : s.worker.phase.turn? = none) :
    s.Follows c scene calls ↔ c.idle calls s.worker.memory scene.outside := by
  unfold Follows
  rw [h]

theorem Follows.idle (h : s.Follows c scene calls) {phase : Phase α η σ}
    (here : s.worker.phase = phase) (resting : phase.turn? = none) :
    c.idle calls s.worker.memory scene.outside :=
  (follows_iff_idle (by rw [here, resting])).mp h

theorem Follows.ended (h : s.Follows c scene calls) {phase : Phase α η σ}
    (here : s.worker.phase = phase) {outcome : Outcome}
    (ended : phase.turn? = some (.finish outcome))
    (governs : c.Governs s.worker.handler) : c.idle calls s.worker.memory scene.outside := by
  obtain ⟨earlier, call, rfl, hbusy⟩ := (follows_iff_busy (by rw [here, ended])).mp h
  exact governs.finish hbusy

theorem Follows.bears (h : s.Follows c scene calls) (bears : c.Bears scene.outside scene'.outside) :
    s.Follows c scene' calls := by
  cases hturn : s.worker.phase.turn? with
  | none => exact (follows_iff_idle hturn).mpr (bears.idle ((follows_iff_idle hturn).mp h))
  | some turn =>
    obtain ⟨earlier, call, hcalls, hbusy⟩ := (follows_iff_busy hturn).mp h
    exact (follows_iff_busy hturn).mpr ⟨earlier, call, hcalls, bears.busy hbusy⟩

/-- Nothing was called, and the handler is at rest. -/
theorem follows_of_silent (idle : c.idle calls s.worker.memory scene.outside)
    (resting : s.worker.phase.turn? = none) (silent : notices.filterMap Notice.call? = []) :
    s.Follows c scene (calls ++ notices.filterMap Notice.call?) := by
  rw [silent, List.append_nil]
  exact (follows_iff_idle resting).mpr idle

/-- Every rule of a worker keeps to the conduct of its handler. -/
theorem Does.follows (does : Does s scene notes notices s' scene')
    (governs : c.Governs s.worker.handler) (discreet : s.worker.exceptions.Discreet)
    (h : s.Follows c scene calls) :
    s'.Follows c scene' (calls ++ notices.filterMap Notice.call?) := by
  have hsilent (outcome : Outcome) (records : List Record) :
      (Notice.returned (α := α) outcome :: records.map .logged).filterMap Notice.call? = [] := by
    simp [List.filterMap_cons, List.filterMap_map, Notice.call?]
  cases does with
  | begin phase => exact ⟨calls, .start, rfl, governs.begin _ (h.idle phase rfl)⟩
  | turn resumes phase move =>
    obtain ⟨earlier, call, rfl, hbusy⟩ :=
      (follows_iff_busy (by rw [phase]; exact resumes.turn?_eq _)).mp h
    refine (follows_iff_busy (resumes.turn?_eq _)).mpr ⟨earlier, call, by simp, ?_⟩
    exact governs.move hbusy move
  | started phase =>
    refine follows_of_silent ?_ rfl (hsilent _ _)
    rw [Scene.reportAll_outside]
    exact h.ended phase rfl governs
  | enter phase visible => exact follows_of_silent (h.idle phase rfl) rfl rfl
  | leave phase hidden halted unclaimed =>
    exact ⟨calls, .shutdown, rfl, governs.begin _ (h.idle phase rfl)⟩
  | call phase more entry => exact ⟨calls, _, rfl, governs.begin _ (h.idle phase rfl)⟩
  | skip phase more entry => exact follows_of_silent (h.idle phase rfl) rfl rfl
  | release phase empty later visible => exact follows_of_silent (h.idle phase rfl) rfl rfl
  | @returned outcome sequence window tally phase =>
    refine follows_of_silent (h.ended phase rfl governs) ?_ rfl
    cases hfailed : outcome.failure? <;> rfl
  | report phase report =>
    refine follows_of_silent ?_ rfl rfl
    rw [discreet _ _ _ _ _ report]
    exact h.idle phase rfl
  | finish phase =>
    refine follows_of_silent ?_ rfl (hsilent _ _)
    rw [Scene.reportAll_outside]
    exact h.ended phase rfl governs
  | misused phase empty release => exact follows_of_silent (h.idle phase rfl) rfl rfl
  | die phase report =>
    refine follows_of_silent ?_ rfl rfl
    rw [discreet _ _ _ _ _ report]
    exact h.idle phase rfl

end Station

namespace Account
variable {a : Account α η σ} {c : Conduct α η σ}

/-- The calls of the handler so far. -/
def calls (a : Account α η σ) : List (HandlerCall α) := a.trace.filterMap Notice.call?

theorem follows_next (h : a.station.Follows c a.scene a.calls)
    (governs : c.Governs a.station.worker.handler)
    (discreet : a.station.worker.exceptions.Discreet) (deed : Deed α σ)
    (bears : ∀ change, deed = .world change →
      ∀ scene, c.Bears scene.outside (change scene).outside) :
    (a.next deed).station.Follows c (a.next deed).scene (a.next deed).calls := by
  cases deed with
  | work =>
    cases hstep : a.station.step a.scene with
    | none =>
      rw [next_work_of_none hstep]
      exact h
    | some next =>
      rw [next_work_of_some hstep, calls, List.filterMap_append]
      exact (Station.step_does hstep).follows governs discreet h
  | call call other => exact h
  | world change => exact h.bears (bears change rfl a.scene)

theorem follows_along (h : a.station.Follows c a.scene a.calls)
    (governs : c.Governs a.station.worker.handler)
    (discreet : a.station.worker.exceptions.Discreet) (schedule : Nat → Deed α σ)
    (bears : ∀ n change, schedule n = .world change →
      ∀ scene, c.Bears scene.outside (change scene).outside) (n : Nat) :
    (a.along schedule n).station.Follows c (a.along schedule n).scene
      (a.along schedule n).calls := by
  induction n with
  | zero => exact h
  | succ n ih =>
    obtain ⟨-, hhandler, hexceptions⟩ := a.along_keeps schedule n
    refine follows_next ih ?_ ?_ (schedule n) (bears n)
    · rw [hhandler]
      exact governs
    · rw [hexceptions]
      exact discreet

end Account
end MessageRing
