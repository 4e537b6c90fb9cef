import Mathlib.Tactic.SplitIfs
import MessageRing.Engine.Call

/-!
What happens in a run of an engine, move by move.

Every call of an engine is a course of moves, and each move leaves an entry in the chronicle of the
run: the states before and after it, or the answer that a caller got. A property of engines has to
be checked for each kind of move once and then holds along every course.
-/
namespace MessageRing

inductive Happening (α η σ : Type) where
  /-- A start took effect. -/
  | began (crew : Engine.Crew α η σ)
  /-- The worker took a step. -/
  | worked (s : Station α η σ) (scene : Scene σ) (s' : Station α η σ) (scene' : Scene σ)
  | published (item : α) (answer : Response Int)
  /-- The ring of the worker was halted. -/
  | halted
  /-- A stop returned without an error, also one within a start, or a dismissal was done. -/
  | ended

namespace Engine
variable {α η σ : Type}

/-- A step of an engine is one of its worker. -/
def between (e : Engine α η σ) (scene : Scene σ) (e' : Engine α η σ) (scene' : Scene σ) :
    List (Happening α η σ) :=
  match e.station?, e'.station? with
  | some s, some s' => [.worked s scene s' scene']
  | _, _ => []

def watch : Nat → Engine α η σ → Scene σ → List (Happening α η σ)
  | 0, _, _ => []
  | limit + 1, e, scene =>
    match e.step scene with
    | none => []
    | some (next, later) => e.between scene next later ++ watch limit next later

def halting (e : Engine α η σ) : List (Happening α η σ) := if e.isRunning then [.halted] else []

/-- What happens when an engine is halted and its worker goes on. -/
def winding (e : Engine α η σ) (progress : Nat) (scene : Scene σ) : List (Happening α η σ) :=
  e.halting ++ watch progress e.halt scene

namespace Answer

def ending : Answer → List (Happening α η σ)
  | .ok => [.ended]
  | _ => []

/-- What the answer to a start tells that had a stop to finish. -/
def finishing : Answer → List (Happening α η σ)
  | .refused (.shutdownTimeout _) => []
  | _ => [.ended]

/-- What the answer to a start tells that was not idle. -/
def beginning (crew : Crew α η σ) : Answer → List (Happening α η σ)
  | .ok => [.began crew]
  | _ => []

end Answer

/-- What happens in a call: the work that is done meanwhile, and then what its answer tells. -/
def happenings (e : Engine α η σ) (scene : Scene σ) (call : Call α η σ) :
    List (Happening α η σ) :=
  let (answer, next, _) := e.answer scene call
  match call with
  | .publish item => [.published item (e.publish item).1]
  | .work progress => watch progress e scene
  | .stop progress | .stopWithin _ progress => e.winding progress scene ++ answer.ending
  | .dismiss progress =>
    e.winding progress scene ++ if next.state = .stopped then [.ended] else []
  | .start crew _ progress =>
    match e.state with
    | .running | .starting => []
    | .stopped => answer.beginning crew
    | .stopping => e.winding progress scene ++ answer.finishing ++ answer.beginning crew

def chronicle (e : Engine α η σ) (scene : Scene σ) :
    List (Call α η σ) → List (Happening α η σ)
  | [] => []
  | call :: calls =>
    let (_, next, later) := e.answer scene call
    e.happenings scene call ++ next.chronicle later calls

/-- What an engine is given: the crews it is started with, and the items published to it. -/
structure Supply (α η σ : Type) where
  crews : Crew α η σ → Prop
  items : α → Prop

/-- The call gives no more than this. -/
def Call.Within (supply : Supply α η σ) : Call α η σ → Prop
  | .start crew _ _ => supply.crews crew
  | .publish item => supply.items item
  | .stop _ | .stopWithin _ _ | .work _ | .dismiss _ => True

/-- One move and what happens in it. -/
inductive Move (supply : Supply α η σ) :
    Engine α η σ → Scene σ → List (Happening α η σ) → Engine α η σ → Scene σ → Prop
  | work {e e' : Engine α η σ} {s s' : Station α η σ} {scene scene' : Scene σ}
      (there : e.station? = some s) (there' : e'.station? = some s')
      (step : s.step scene = some (s', scene')) (config : e'.config = e.config)
      (state : e'.state = e.state) :
    Move supply e scene [.worked s scene s' scene'] e' scene'
  | publish {e : Engine α η σ} {s : Station α η σ} {item : α} (scene : Scene σ)
      (there : e.status = .running s) (known : supply.items item) :
    Move supply e scene [.published item (s.ring.push item).1]
      { e with status := .running { s with ring := (s.ring.push item).2 } } scene
  | refuse {e : Engine α η σ} (scene : Scene σ) (item : α) (idle : e.isRunning = false) :
    Move supply e scene [.published item (.refused .notRunning)] e scene
  | halt {e : Engine α η σ} {s : Station α η σ} (scene : Scene σ) (there : e.status = .running s) :
    Move supply e scene [.halted]
      { e with status := .stopping { s with ring := s.ring.halt } } scene
  /-- Only a start that broke off is left to be ended. -/
  | withdraw {e : Engine α η σ} {metrics : Metrics} (scene : Scene σ)
      (there : e.status = .starting metrics) :
    Move supply e scene [] { e with status := .stopped metrics } scene
  /-- A stop finds nothing to wait for. -/
  | rest {e : Engine α η σ} (scene : Scene σ) (idle : e.station? = none) :
    Move supply e scene [.ended] e scene
  | finish {e : Engine α η σ} {s : Station α η σ} (scene : Scene σ)
      (there : e.status = .stopping s) (ended : s.worker.phase.ended = true) :
    Move supply e scene [.ended] { e with status := .stopped s.ring.metrics } scene
  | launch {e : Engine α η σ} {crew : Crew α η σ} {ring : Ring α} (scene : Scene σ)
      (idle : e.station? = none) (known : supply.crews crew)
      (made : Ring.make e.config e.metrics = .ok ring) :
    Move supply e scene [.began crew]
      { e with
        status := .running (Station.make ring.takeConsumer.2 e.name crew.handler crew.memory
          crew.exceptions) } scene
  | breakOff {e : Engine α η σ} (scene : Scene σ) (idle : e.station? = none) :
    Move supply e scene [] { e with status := .starting e.metrics } scene
  | report (e : Engine α η σ) (scene : Scene σ) (record : Record) :
    Move supply e scene [] e (scene.report record)

inductive Course (supply : Supply α η σ) :
    Engine α η σ → Scene σ → List (Happening α η σ) → Engine α η σ → Scene σ → Prop
  | nil (e : Engine α η σ) (scene : Scene σ) : Course supply e scene [] e scene
  | cons {e e' e'' : Engine α η σ} {scene scene' scene'' : Scene σ}
      {happenings happenings' : List (Happening α η σ)}
      (move : Move supply e scene happenings e' scene')
      (rest : Course supply e' scene' happenings' e'' scene'') :
    Course supply e scene (happenings ++ happenings') e'' scene''

section Cases
variable {e e' : Engine α η σ} {scene scene' : Scene σ}

theorem make_of_valid {config : Config} (valid : config.validate = .ok ()) (name : String) :
    (make name config : Except RingError (Engine α η σ)) =
      .ok { name, config, status := .stopped {} } := by
  unfold make
  rw [valid]

theorem make_eq {name : String} {config : Config} {new : Engine α η σ}
    (made : Engine.make name config = .ok new) :
    new = { name, config, status := .stopped {} } := by
  unfold Engine.make at made
  cases hvalid : config.validate with
  | error error => simp [hvalid] at made
  | ok _ =>
    rw [hvalid] at made
    cases made
    rfl

theorem station?_of_stopped (h : e.state = .stopped) : e.station? = none := by
  cases hstatus : e.status <;> simp_all [state, station?]

theorem station?_of_running {station : Station α η σ} (h : e.status = .running station) :
    e.station? = some station := by
  simp [station?, h]

theorem station?_of_stopping {station : Station α η σ} (h : e.status = .stopping station) :
    e.station? = some station := by
  simp [station?, h]

/-- A step is one of the worker, and the engine stays in its state. -/
theorem step_cases (h : e.step scene = some (e', scene')) :
    e'.state = e.state ∧ e'.config = e.config ∧ ∃ station station', e.station? = some station ∧
      e'.station? = some station' ∧ station.step scene = some (station', scene') := by
  unfold step at h
  cases hstatus : e.status with
  | stopped metrics | starting metrics => simp [hstatus] at h
  | running station | stopping station =>
    simp only [hstatus] at h
    obtain ⟨⟨station', _⟩, hstep, he⟩ := Option.map_eq_some_iff.mp h
    cases he
    exact ⟨by simp [state, hstatus], rfl, station, station', by simp [station?, hstatus], rfl,
      hstep⟩

theorem publish_cases (e : Engine α η σ) (item : α) :
    (e.isRunning = false ∧ e.publish item = (.refused .notRunning, e)) ∨
    ∃ station, e.status = .running station ∧ e.publish item = ((station.ring.push item).1,
      { e with status := .running { station with ring := (station.ring.push item).2 } }) := by
  cases hstatus : e.status with
  | running station => exact .inr ⟨station, rfl, by simp [publish, hstatus]⟩
  | _ => exact .inl ⟨by simp [isRunning, state, hstatus], by simp [publish, hstatus]⟩

theorem halt_cases (e : Engine α η σ) :
    e.halt = e ∨
    (∃ metrics, e.status = .starting metrics ∧ e.halt = { e with status := .stopped metrics }) ∨
    ∃ station, e.status = .running station ∧
      e.halt = { e with status := .stopping { station with ring := station.ring.halt } } := by
  cases hstatus : e.status with
  | stopped metrics | stopping station => exact .inl (by simp [halt, hstatus])
  | starting metrics => exact .inr (.inl ⟨metrics, rfl, by simp [halt, hstatus]⟩)
  | running station => exact .inr (.inr ⟨station, rfl, by simp [halt, hstatus]⟩)

end Cases

section Courses
variable {supply : Supply α η σ} {e e' e'' : Engine α η σ} {scene scene' scene'' : Scene σ}
  {happenings happenings' : List (Happening α η σ)}

theorem Move.course (h : Move supply e scene happenings e' scene') :
    Course supply e scene happenings e' scene' := by
  simpa using Course.cons h (.nil e' scene')

theorem Course.trans (h : Course supply e scene happenings e' scene')
    (h' : Course supply e' scene' happenings' e'' scene'') :
    Course supply e scene (happenings ++ happenings') e'' scene'' := by
  induction h with
  | nil e scene => exact h'
  | cons move rest ih =>
    rw [List.append_assoc]
    exact .cons move (ih h')

theorem Move.config_eq (move : Move supply e scene happenings e' scene') :
    e'.config = e.config := by
  cases move with
  | work _ _ _ config _ => exact config
  | _ => rfl

theorem Course.config_eq (course : Course supply e scene happenings e' scene') :
    e'.config = e.config := by
  induction course with
  | nil => rfl
  | cons move rest ih => exact ih.trans move.config_eq

theorem work_of_none (h : e.step scene = none) (limit : Nat) : e.work limit scene = (e, scene) :=
  advance_of_none h limit

theorem work_of_some (h : e.step scene = some (e', scene')) (limit : Nat) :
    e.work (limit + 1) scene = e'.work limit scene' := by
  simp [work, advance, h]

theorem work_course (supply : Supply α η σ) (limit : Nat) (e : Engine α η σ) (scene : Scene σ) :
    Course supply e scene (watch limit e scene) (e.work limit scene).1 (e.work limit scene).2 ∧
      (e.work limit scene).1.state = e.state := by
  induction limit generalizing e scene with
  | zero => exact ⟨.nil e scene, rfl⟩
  | succ limit ih =>
    unfold watch
    cases hstep : e.step scene with
    | none =>
      rw [work_of_none hstep]
      exact ⟨.nil e scene, rfl⟩
    | some next =>
      obtain ⟨hrest, hstate⟩ := ih next.1 next.2
      obtain ⟨hsame, hconfig, s, s', hthere, hthere', hworked⟩ := step_cases hstep
      have hbetween : e.between scene next.1 next.2 = [.worked s scene s' next.2] := by
        simp [between, hthere, hthere']
      rw [work_of_some hstep]
      dsimp only
      rw [hbetween]
      exact ⟨.cons (.work hthere hthere' hworked hconfig hsame) hrest, hstate.trans hsame⟩

theorem state_work (limit : Nat) (e : Engine α η σ) (scene : Scene σ) :
    (e.work limit scene).1.state = e.state :=
  (work_course ⟨fun _ => False, fun _ => False⟩ limit e scene).2

theorem publish_course (e : Engine α η σ) (scene : Scene σ) {item : α}
    (known : supply.items item) :
    Course supply e scene [.published item (e.publish item).1] (e.publish item).2 scene := by
  rcases e.publish_cases item with ⟨hidle, hpublish⟩ | ⟨s, hthere, hpublish⟩ <;> rw [hpublish]
  · exact (Move.refuse scene item hidle).course
  · exact (Move.publish scene hthere known).course

theorem halt_course (supply : Supply α η σ) (e : Engine α η σ) (scene : Scene σ) :
    Course supply e scene e.halting e.halt scene := by
  cases hstatus : e.status with
  | running s =>
    simp only [halting, isRunning, state, halt, hstatus, decide_true, if_true]
    exact (Move.halt scene hstatus).course
  | starting metrics =>
    simp only [halting, isRunning, state, halt, hstatus]
    exact (Move.withdraw scene hstatus).course
  | stopped metrics | stopping s =>
    simp only [halting, isRunning, state, halt, hstatus]
    exact .nil e scene

theorem state_halt (e : Engine α η σ) : e.halt.state = .stopped ∨ e.halt.state = .stopping := by
  cases hstatus : e.status <;> simp [halt, state, hstatus]

/-- How a stop ends: the engine is stopped, or the stop has given up. -/
theorem settle_course (supply : Supply α η σ)
    (halted : e.state = .stopped ∨ e.state = .stopping) (limit : Span) (scene : Scene σ) :
    Course supply e scene (Answer.ofStop (e.settle limit scene).1).ending
        (e.settle limit scene).2.1 (e.settle limit scene).2.2 ∧
      ((e.settle limit scene).1 = .ok () ∧ (e.settle limit scene).2.1.state = .stopped ∨
        (e.settle limit scene).1 = .error (.shutdownTimeout limit)) := by
  cases hstatus : e.status with
  | starting metrics | running station => simp [state, hstatus] at halted
  | stopped metrics =>
    have hsettle : e.settle limit scene = (.ok (), e, scene) := by simp [settle, hstatus]
    rw [hsettle]
    exact ⟨(Move.rest scene (by simp [station?, hstatus])).course,
      .inl ⟨rfl, by simp [state, hstatus]⟩⟩
  | stopping station =>
    cases hphase : station.worker.phase with
    | finished =>
      have hsettle : e.settle limit scene =
          (.ok (), { e with status := .stopped station.ring.metrics }, scene) := by
        simp [settle, hstatus, hphase]
      rw [hsettle]
      exact ⟨(Move.finish scene hstatus (by rw [hphase]; rfl)).course, .inl ⟨rfl, rfl⟩⟩
    | died p =>
      have hsettle : e.settle limit scene =
          (.ok (), { e with status := .stopped station.ring.metrics },
            scene.report (.workerPanicked e.name)) := by
        simp [settle, hstatus, hphase]
      rw [hsettle]
      exact ⟨.cons (.finish scene hstatus (by rw [hphase]; rfl)) (Move.report _ scene _).course,
        .inl ⟨rfl, rfl⟩⟩
    | _ =>
      have hsettle : e.settle limit scene =
          (.error (.shutdownTimeout limit), e, scene.report (.drainTimeout e.name limit)) := by
        simp [settle, hstatus, hphase]
      rw [hsettle]
      exact ⟨(Move.report e scene _).course, .inr rfl⟩

theorem stop_course (supply : Supply α η σ) (e : Engine α η σ) (limit : Span) (progress : Nat)
    (scene : Scene σ) :
    Course supply e scene
        (e.winding progress scene ++ (Answer.ofStop (e.stop limit progress scene).1).ending)
        (e.stop limit progress scene).2.1 (e.stop limit progress scene).2.2 ∧
      ((e.stop limit progress scene).1 = .ok () ∧
        (e.stop limit progress scene).2.1.state = .stopped ∨
        (e.stop limit progress scene).1 = .error (.shutdownTimeout limit)) := by
  obtain ⟨hwork, hstate⟩ := work_course supply progress e.halt scene
  obtain ⟨hsettle, hresult⟩ := settle_course supply (by rw [hstate]; exact state_halt e) limit
    (e.halt.work progress scene).2
  rw [winding, List.append_assoc]
  exact ⟨(halt_course supply e scene).trans (hwork.trans hsettle), hresult⟩

/-- A stop ends with the engine stopped, or gives up. -/
theorem stop_ends (e : Engine α η σ) (limit : Span) (progress : Nat) (scene : Scene σ) :
    (e.stop limit progress scene).1 = .ok () ∧
        (e.stop limit progress scene).2.1.state = .stopped ∨
      (e.stop limit progress scene).1 = .error (.shutdownTimeout limit) :=
  (stop_course ⟨fun _ => False, fun _ => False⟩ e limit progress scene).2

theorem dismiss_course (supply : Supply α η σ) (e : Engine α η σ) (progress : Nat)
    (scene : Scene σ) :
    Course supply e scene (e.winding progress scene ++
        if (e.dismiss progress scene).1.state = .stopped then [.ended] else [])
      (e.dismiss progress scene).1 (e.dismiss progress scene).2 := by
  obtain ⟨hwork, hstate⟩ := work_course supply progress e.halt scene
  have hhalted := state_halt e
  rw [← hstate] at hhalted
  refine Course.trans ((halt_course supply e scene).trans hwork) ?_
  unfold dismiss
  generalize e.halt.work progress scene = outcome at hhalted
  obtain ⟨e', scene'⟩ := outcome
  cases hstatus : e'.status with
  | starting metrics | running station => simp [state, hstatus] at hhalted
  | stopped metrics =>
    simp only [hstatus, state, if_pos]
    exact (Move.rest scene' (by simp [station?, hstatus])).course
  | stopping station =>
    by_cases hended : station.worker.phase.ended = true
    · simp only [hstatus, hended, if_pos, state]
      exact (Move.finish scene' hstatus hended).course
    · simp only [hstatus, hended, Bool.false_eq_true, if_false, state, reduceCtorEq]
      exact .nil e' scene'

theorem recruit_cases (e : Engine α η σ) (crew : Crew α η σ) (refusal : Option String) :
    (∃ ring, Ring.make e.config e.metrics = .ok ring ∧ e.recruit crew refusal =
      .ok (Station.make ring.takeConsumer.2 e.name crew.handler crew.memory crew.exceptions)) ∨
    ∃ fault, e.recruit crew refusal = .error fault ∧
      ∀ limit, fault ≠ .refused (.shutdownTimeout limit) := by
  unfold recruit
  cases hmake : Ring.make (α := α) e.config e.metrics with
  | error fault =>
    refine .inr ⟨fault, rfl, fun limit he => ?_⟩
    unfold Ring.make at hmake
    split_ifs at hmake <;> cases hmake <;> cases he
  | ok ring =>
    dsimp only
    split_ifs
    · exact .inr ⟨_, rfl, fun limit he => by cases he⟩
    · cases refusal with
      | none => exact .inl ⟨ring, rfl, rfl⟩
      | some reason => exact .inr ⟨_, rfl, fun limit he => by cases he⟩

/-- A start of an engine at rest takes effect, is refused or breaks off. -/
theorem launch_course (idle : e.station? = none) {crew : Crew α η σ} (known : supply.crews crew)
    (refusal : Option String) (scene : Scene σ) :
    Course supply e scene ((Answer.ofStart (e.launch crew refusal).1).beginning crew)
        (e.launch crew refusal).2 scene ∧
      (Answer.ofStart (e.launch crew refusal).1).finishing =
        ([.ended] : List (Happening α η σ)) := by
  unfold launch
  rcases recruit_cases e crew refusal with ⟨ring, hmake, hrecruit⟩ | ⟨fault, hrecruit, hfault⟩
  · rw [hrecruit]
    exact ⟨(Move.launch scene idle known hmake).course, rfl⟩
  · rw [hrecruit]
    cases fault with
    | refused error =>
      refine ⟨.nil e scene, ?_⟩
      cases error with
      | shutdownTimeout limit => exact absurd rfl (hfault limit)
      | _ => rfl
    | broken violation => exact ⟨(Move.breakOff scene idle).course, rfl⟩

theorem start_course {crew : Crew α η σ} (known : supply.crews crew) (e : Engine α η σ)
    (refusal : Option String) (progress : Nat) (scene : Scene σ) :
    Course supply e scene (e.happenings scene (.start crew refusal progress))
      (e.start crew refusal progress scene).2.1 (e.start crew refusal progress scene).2.2 := by
  unfold happenings
  cases hstatus : e.status with
  | running station | starting metrics =>
    simp only [start, state, hstatus]
    exact .nil e scene
  | stopped metrics =>
    have hidle : e.station? = none := by simp [station?, hstatus]
    have hstart : e.start crew refusal progress scene =
        ((e.launch crew refusal).1, (e.launch crew refusal).2, scene) := by
      simp [start, hstatus]
    simp only [answer, hstart, state, hstatus]
    exact (launch_course hidle known refusal scene).1
  | stopping station =>
    obtain ⟨hstop, hresult⟩ := stop_course supply e e.config.patience progress scene
    simp only [answer, state, hstatus]
    generalize he : e.stop e.config.patience progress scene = outcome at hstop hresult
    obtain ⟨result, e', scene'⟩ := outcome
    rcases hresult with ⟨hok, hstopped⟩ | herror
    · cases hok
      have hidle := station?_of_stopped hstopped
      have hstart : e.start crew refusal progress scene =
          ((e'.launch crew refusal).1, (e'.launch crew refusal).2, scene') := by
        simp [start, hstatus, he]
      obtain ⟨hlaunch, hfinishing⟩ := launch_course hidle known refusal scene'
      rw [hstart, hfinishing]
      exact hstop.trans hlaunch
    · cases herror
      have hstart : e.start crew refusal progress scene =
          (.error (.refused (.shutdownTimeout e.config.patience)), e', scene') := by
        simp [start, hstatus, he]
      rw [hstart]
      simpa [Answer.ofStart, Answer.ofStop, Answer.ending, Answer.finishing, Answer.beginning]
        using hstop

/-- Every call is a course of moves. -/
theorem answer_course (e : Engine α η σ) (scene : Scene σ) (call : Call α η σ)
    (within : call.Within supply) :
    Course supply e scene (e.happenings scene call) (e.answer scene call).2.1
      (e.answer scene call).2.2 := by
  cases call with
  | start crew refusal progress =>
    exact start_course within e refusal progress scene
  | publish item => exact publish_course e scene within
  | work progress => exact (work_course supply progress e scene).1
  | stop progress => exact (stop_course supply e _ progress scene).1
  | stopWithin limit progress => exact (stop_course supply e limit progress scene).1
  | dismiss progress => exact dismiss_course supply e progress scene

/-- A run is a course of moves. -/
theorem chronicle_course (e : Engine α η σ) (scene : Scene σ) (calls : List (Call α η σ))
    (within : ∀ call ∈ calls, call.Within supply) :
    Course supply e scene (e.chronicle scene calls) (e.after scene calls).1
      (e.after scene calls).2 := by
  induction calls generalizing e scene with
  | nil => exact .nil e scene
  | cons call calls ih =>
    have hcall := answer_course e scene call (within call List.mem_cons_self)
    exact hcall.trans (ih _ _ fun call hmem => within call (List.mem_cons_of_mem _ hmem))

/-- All that a list of calls gives. -/
def Supply.of (calls : List (Call α η σ)) : Supply α η σ where
  crews crew := ∃ refusal progress, .start crew refusal progress ∈ calls
  items item := .publish item ∈ calls

theorem Call.within_of_mem {calls : List (Call α η σ)} {call : Call α η σ} (h : call ∈ calls) :
    call.Within (.of calls) := by
  cases call with
  | start crew refusal progress => exact ⟨refusal, progress, h⟩
  | publish item => exact h
  | _ => trivial

theorem after_config (e : Engine α η σ) (scene : Scene σ) (calls : List (Call α η σ)) :
    (e.after scene calls).1.config = e.config :=
  (e.chronicle_course scene calls fun _ => Call.within_of_mem).config_eq

end Courses
end Engine
end MessageRing
