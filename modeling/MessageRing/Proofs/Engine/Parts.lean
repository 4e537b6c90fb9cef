import MessageRing.Engine.Parts
import MessageRing.Proofs.Engine.Lifecycle

/-!
The parts of an engine stay in step.

`parts` says which state, ring, worker and counters belong to an engine. Calls change the parts just
as they change the engine, so in every run that begins with a new engine a ring and a worker are
there exactly while the state says running or stopping, and the counters are those of the ring.
-/
namespace MessageRing
namespace Engine
variable {α η σ : Type} {e e' : Engine α η σ} {scene scene' : Scene σ}

def parts (e : Engine α η σ) : Parts α η σ where
  name := e.name
  config := e.config
  state := e.state
  ring := e.station?.map (·.ring)
  worker := e.station?.map (·.worker)
  metrics := e.metrics

/-- A ring is halted before the wait for its worker begins. -/
def Shut (e : Engine α η σ) : Prop :=
  ∀ station, e.status = .stopping station → station.ring.halted = true

namespace Parts
variable {p : Parts α η σ}

theorem stop_of_ne (h : p.state ≠ .stopped) (limit : Span) (progress : Nat) (scene : Scene σ) :
    p.stop limit progress scene =
      { p with state := .stopping }.haltRing.finishStop limit progress scene := by
  unfold Parts.stop
  cases hstate : p.state <;> simp_all

/-- The worker does not look at the state. -/
theorem work_state (progress : Nat) (p : Parts α η σ) (state : Lifecycle) (scene : Scene σ) :
    { p with state }.work progress scene =
      ({ (p.work progress scene).1 with state }, (p.work progress scene).2) := by
  let f (next : Parts α η σ × Scene σ) : Parts α η σ × Scene σ := ({ next.1 with state }, next.2)
  have hsame (next : Parts α η σ × Scene σ) :
      (f next).1.step (f next).2 = (next.1.step next.2).map f := by
    cases hring : next.1.ring <;> cases hworker : next.1.worker <;>
      simp [Parts.step, setRing, f, hring, hworker, Function.comp_def]
  exact advance_map f hsame progress (p, scene)

end Parts

theorem parts_publish (e : Engine α η σ) (item : α) :
    e.parts.publish item = ((e.publish item).1, (e.publish item).2.parts) := by
  cases hstatus : e.status <;>
    simp [Parts.publish, Parts.isRunning, Parts.setRing, publish, parts, state, station?, metrics,
      hstatus]

theorem parts_step (e : Engine α η σ) (scene : Scene σ) :
    e.parts.step scene = (e.step scene).map fun (e, scene) => (e.parts, scene) := by
  cases hstatus : e.status <;>
    simp [Parts.step, Parts.setRing, step, parts, state, station?, metrics, hstatus,
      Function.comp_def]

theorem parts_work (progress : Nat) (e : Engine α η σ) (scene : Scene σ) :
    e.parts.work progress scene =
      ((e.work progress scene).1.parts, (e.work progress scene).2) := by
  let f (next : Engine α η σ × Scene σ) : Parts α η σ × Scene σ := (next.1.parts, next.2)
  have hsame (next : Engine α η σ × Scene σ) :
      (f next).1.step (f next).2 = (next.1.step next.2).map f := parts_step next.1 next.2
  exact advance_map f hsame progress (e, scene)

/-- The wait for a worker, and how it ends. -/
theorem parts_finishStop (stopping : e.state = .stopping) (limit : Span) (progress : Nat)
    (scene : Scene σ) :
    e.parts.finishStop limit progress scene =
      let (worked, later) := e.work progress scene
      let (result, next, last) := worked.settle limit later
      (result, next.parts, last) := by
  have hstate := (state_work progress e scene).trans stopping
  unfold Parts.finishStop
  rw [parts_work]
  generalize e.work progress scene = worked at hstate
  obtain ⟨worked, later⟩ := worked
  cases hstatus : worked.status with
  | stopping station =>
    cases hphase : station.worker.phase <;>
      simp [settle, parts, state, station?, metrics, hstatus, hphase]
  | _ => simp [state, hstatus] at hstate

/-- Halting the ring is halting the engine, save for the state. -/
theorem parts_haltRing (shut : e.Shut) (state : Lifecycle) :
    { e.parts with state }.haltRing = { e.halt.parts with state } := by
  cases hstatus : e.status with
  | stopping station =>
    simp [Parts.haltRing, Parts.setRing, halt, parts, station?, metrics, hstatus,
      Ring.halt_of_halted (shut station hstatus)]
  | _ => simp [Parts.haltRing, Parts.setRing, halt, parts, station?, metrics, hstatus, Ring.halt]

theorem parts_stop (shut : e.Shut) (limit : Span) (progress : Nat) (scene : Scene σ) :
    e.parts.stop limit progress scene =
      let (result, next, last) := e.stop limit progress scene
      (result, next.parts, last) := by
  have hparts := parts_haltRing shut .stopping
  cases hstatus : e.status with
  | stopped metrics =>
    rw [stop_of_stopped (by simp [state, hstatus])]
    simp [Parts.stop, parts, state, hstatus]
  | starting metrics =>
    have hhalt : e.halt = { e with status := .stopped metrics } := by simp [halt, hstatus]
    have hstop : e.stop limit progress scene = (.ok (), e.halt, scene) := by
      rw [hhalt, ← stop_of_stopped (e := { e with status := .stopped metrics }) rfl limit progress]
      simp [stop, hhalt]
      rfl
    have hidle : { e.halt.parts with state := .stopping }.work progress scene =
        ({ e.halt.parts with state := .stopping }, scene) :=
      advance_of_none (by simp [Parts.step, hhalt, parts, station?]) _
    rw [Parts.stop_of_ne (by simp [parts, state, hstatus]), hparts, Parts.finishStop, hidle, hstop]
    simp [hhalt, parts, station?, state]
  | running station | stopping station =>
    have hstate : e.halt.state = .stopping := by simp [halt, state, hstatus]
    have hsame : { e.halt.parts with state := .stopping } = e.halt.parts := by
      rw [← hstate]
      rfl
    rw [Parts.stop_of_ne (by simp [parts, state, hstatus]), hparts, hsame]
    exact parts_finishStop hstate limit progress scene

theorem parts_spawn (state : Lifecycle) (crew : Crew α η σ) (refusal : Option String) :
    { e.parts with state }.spawn crew refusal =
      (e.recruit crew refusal).map fun station => (station.ring, station.worker) := by
  simp only [Parts.spawn, recruit, parts]
  cases hmake : Ring.make (α := α) e.config e.metrics with
  | error fault => rfl
  | ok ring =>
    obtain ⟨valid, rfl⟩ := Ring.make_eq_ok hmake
    by_cases hnamed : '\x00' ∈ e.name.toList
    · simp [Ring.takeConsumer, hnamed, Except.map]
    · cases refusal <;> simp [Ring.takeConsumer, hnamed, Except.map]

theorem parts_launch (stopped : e.state = .stopped) (crew : Crew α η σ)
    (refusal : Option String) :
    e.parts.launch crew refusal =
      ((e.launch crew refusal).1, (e.launch crew refusal).2.parts) := by
  have hidle := station?_of_stopped stopped
  unfold Parts.launch launch
  dsimp only
  rw [parts_spawn]
  cases e.recruit crew refusal with
  | ok station => rfl
  | error fault =>
    cases fault with
    | refused error => simp [Except.map, parts, stopped]
    | broken violation =>
      simp only [Except.map, parts, hidle]
      rfl

theorem parts_start (e : Engine α η σ) (crew : Crew α η σ) (refusal : Option String)
    (progress : Nat) (scene : Scene σ) :
    e.parts.start crew refusal progress scene =
      let (result, next, last) := e.start crew refusal progress scene
      (result, next.parts, last) := by
  have hstate : e.parts.state = e.state := rfl
  have hconfig : e.parts.config = e.config := rfl
  unfold Parts.start start
  cases hstatus : e.status with
  | running station | starting metrics => simp [hstate, state, hstatus]
  | stopped metrics =>
    rw [hstate, parts_launch (by simp [state, hstatus])]
    simp [state, hstatus]
  | stopping station =>
    have hstopping : e.state = .stopping := by simp [state, hstatus]
    have hhalt : e.halt = e := by simp [halt, hstatus]
    have hstop : e.stop e.config.patience progress scene =
        (e.work progress scene).1.settle e.config.patience (e.work progress scene).2 := by
      rw [stop, hhalt]
    have hends := e.stop_ends e.config.patience progress scene
    have hfinish := parts_finishStop hstopping e.config.patience progress scene
    dsimp only at hfinish
    rw [← hstop] at hfinish
    rw [hstate, hstopping]
    dsimp only
    rw [hconfig, hfinish]
    generalize e.stop e.config.patience progress scene = outcome at hends
    obtain ⟨result, e', scene'⟩ := outcome
    rcases hends with ⟨hok, hstopped⟩ | hgave
    · cases hok
      dsimp only
      rw [parts_launch hstopped]
    · cases hgave
      rfl

/-- A dismissal leaves the state as it was, and nobody can look at it any more. -/
theorem parts_dismiss (shut : e.Shut) (progress : Nat) (scene : Scene σ) :
    { (e.parts.dismiss progress scene).1 with state := (e.dismiss progress scene).1.state } =
        (e.dismiss progress scene).1.parts ∧
      (e.parts.dismiss progress scene).2 = (e.dismiss progress scene).2 := by
  have hhalt : e.parts.haltRing = { e.halt.parts with state := e.state } :=
    parts_haltRing shut e.state
  have hhalted := state_halt e
  rw [← state_work progress e.halt scene] at hhalted
  unfold Parts.dismiss dismiss
  rw [hhalt, Parts.work_state, parts_work]
  generalize e.halt.work progress scene = outcome at hhalted
  obtain ⟨worked, later⟩ := outcome
  cases hstatus : worked.status with
  | starting metrics | running station => simp [state, hstatus] at hhalted
  | stopped => simp [parts, state, station?, metrics, hstatus]
  | stopping station =>
    by_cases hended : station.worker.phase.ended = true <;>
      simp [parts, state, station?, metrics, hstatus, hended]

theorem Move.shut {supply : Supply α η σ} {happenings : List (Happening α η σ)}
    (move : Move supply e scene happenings e' scene') (shut : e.Shut) : e'.Shut := by
  intro station stopping
  cases move with
  | work there there' step config same =>
    have hsame : e.state = .stopping := by
      rw [← same]
      simp [state, stopping]
    cases hstatus : e.status with
    | stopping s =>
      rw [station?_of_stopping hstatus] at there
      rw [station?_of_stopping stopping] at there'
      cases there
      cases there'
      exact (Station.step_does step).halted (shut _ hstatus)
    | _ => simp [state, hstatus] at hsame
  | halt scene there =>
    cases stopping
    rfl
  | publish | withdraw | finish | launch | breakOff => cases stopping
  | refuse | rest | report => exact shut station stopping

theorem Course.shut {supply : Supply α η σ} {happenings : List (Happening α η σ)}
    (course : Course supply e scene happenings e' scene') (shut : e.Shut) : e'.Shut := by
  induction course with
  | nil => exact shut
  | cons move rest ih => exact ih (move.shut shut)

/-- A call gets the same answer from the parts of an engine, and does the same to them. -/
theorem parts_answer (shut : e.Shut) (scene : Scene σ) {call : Call α η σ}
    (kept : ∀ progress, call ≠ .dismiss progress) :
    e.parts.answer scene call =
      let (answer, next, last) := e.answer scene call
      (answer, next.parts, last) := by
  cases call with
  | start crew refusal progress => simp [Parts.answer, answer, parts_start]
  | publish item => simp [Parts.answer, answer, parts_publish]
  | stop progress =>
    have hpatience : e.parts.config = e.config := rfl
    simp [Parts.answer, answer, hpatience, parts_stop shut]
  | stopWithin limit progress => simp [Parts.answer, answer, parts_stop shut]
  | work progress => simp [Parts.answer, answer, parts_work]
  | dismiss progress => exact absurd rfl (kept progress)

theorem parts_calls (shut : e.Shut) (scene : Scene σ) {calls : List (Call α η σ)}
    (kept : ∀ progress, .dismiss progress ∉ calls) :
    e.parts.answers scene calls = e.answers scene calls ∧
      e.parts.after scene calls = ((e.after scene calls).1.parts, (e.after scene calls).2) := by
  induction calls generalizing e scene with
  | nil => exact ⟨rfl, rfl⟩
  | cons call calls ih =>
    have hstays (progress : Nat) : call ≠ .dismiss progress := by
      rintro rfl
      exact kept progress List.mem_cons_self
    have hcall := parts_answer shut scene hstays
    have hcourse := answer_course e scene call
      (Call.within_of_mem (List.mem_singleton.mpr rfl))
    obtain ⟨hanswers, hafter⟩ := ih (hcourse.shut shut) (e.answer scene call).2.2
      fun progress hmem => kept progress (List.mem_cons_of_mem _ hmem)
    constructor
    · simp only [Parts.answers, answers, hcall, hanswers]
    · simp only [Parts.after, after, List.foldl_cons, hcall] at hafter ⊢
      exact hafter

theorem parts_remaining (e : Engine α η σ) : e.parts.remaining? = e.remaining? := by
  cases hstatus : e.status <;> simp [Parts.remaining?, remaining?, parts, station?, hstatus]

theorem parts_make (name : String) (config : Config) :
    Parts.make name config = (make name config : Except RingError (Engine α η σ)).map parts := by
  unfold Parts.make make
  cases config.validate <;> rfl

/-- In a run from a new engine there are a ring and a worker exactly while the state says running or
stopping, and the counters are then those of the ring. -/
theorem parts_in_step {name : String} {config : Config} {new : Parts α η σ}
    (made : Parts.make name config = .ok new) (scene : Scene σ) {calls : List (Call α η σ)}
    (kept : ∀ progress, .dismiss progress ∉ calls) :
    let p := (new.after scene calls).1
    (p.ring.isSome = true ↔ p.state = .running ∨ p.state = .stopping) ∧
      p.worker.isSome = p.ring.isSome ∧ ∀ ring, p.ring = some ring → p.metrics = ring.metrics := by
  intro p
  rw [parts_make] at made
  cases hmake : (make name config : Except RingError (Engine α η σ)) with
  | error error =>
    rw [hmake] at made
    cases made
  | ok engine =>
    rw [hmake] at made
    cases made
    have hshut : engine.Shut := by
      rw [make_eq hmake]
      intro station stopping
      cases stopping
    have hp : p = (engine.after scene calls).1.parts :=
      congrArg Prod.fst (parts_calls hshut scene kept).2
    rw [hp]
    cases hstatus : (engine.after scene calls).1.status <;>
      simp [parts, state, station?, metrics, hstatus]

end Engine
end MessageRing
