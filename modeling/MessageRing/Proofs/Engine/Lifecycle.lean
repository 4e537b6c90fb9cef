import MessageRing.Proofs.Engine.Moves
import MessageRing.Proofs.Worker.Halting

/-!
The life of an engine.

Whatever is called and however its workers come on, between two calls an engine is stopped, running
or stopping, and its ring and its worker come and go with that. Only a start can break off, and only
when no ring or no worker can be had for the engine at all.
-/
namespace MessageRing
variable {α η σ : Type}

namespace Ring

/-- Nothing was ever claimed at the ring. -/
structure Fresh (r : Ring α) : Prop where
  claimed : r.claimed = -1
  cursor : r.cursor = -1
  gating : r.gating = -1
  outstanding : r.outstanding = []
  empty : ∀ s, r.peek s = none
  running : r.halted = false

theorem make_fresh {config : Config} {metrics : Metrics} {r : Ring α}
    (h : Ring.make config metrics = .ok r) : r.takeConsumer.2.Fresh := by
  have hpeek := make_peek h
  obtain ⟨valid, rfl⟩ := make_eq_ok h
  exact ⟨rfl, rfl, rfl, rfl, hpeek, rfl⟩

/-- The first push at a new ring succeeds, and its sequence is 0. -/
theorem Fresh.push {r : Ring α} (h : r.Fresh) (counted : r.Counted) (item : α) :
    (r.push item).1 = .done 0 := by
  have hcapacity : 0 < r.capacity := Config.capacity_pos r.valid
  have hheld : r.held = [] := (List.append_eq_nil_iff.mp h.outstanding).1
  have hclaim : r.claimForPush.1 = .done 0 := by
    rw [claimForPush_done_iff]
    have hfree := h.claimed.trans h.gating.symm
    rcases tryClaim_cases counted with ⟨hhalted, _⟩ | ⟨_, hfull, _⟩ | ⟨_, _, _, hbusy, _⟩ |
      ⟨_, _, _, hdone, _⟩
    · rw [h.running] at hhalted
      cases hhalted
    · omega
    · exact absurd hheld hbusy
    · rw [hdone, h.claimed]
      rfl
  exact (complete_done_iff counted h.outstanding (some item) (claimForPush_path counted)
    fun _ => mem_held_of_claimForPush counted).mpr hclaim

theorem halt_of_halted {r : Ring α} (h : r.halted = true) : r.halt = r := by
  unfold halt
  rw [← h]

end Ring

/-- A worker of the crew that has yet to begin, at a new ring. -/
structure Station.Begun (crew : Engine.Crew α η σ) (station : Station α η σ) : Prop where
  fresh : station.ring.Fresh
  counted : station.ring.Counted
  created : station.worker.phase = .created
  handler : station.worker.handler = crew.handler
  next : station.worker.next = 0

theorem Station.Begun.of_make {config : Config} {metrics : Metrics} {ring : Ring α}
    (made : Ring.make config metrics = .ok ring) (name : String) (crew : Engine.Crew α η σ) :
    Station.Begun crew
      (Station.make ring.takeConsumer.2 name crew.handler crew.memory crew.exceptions) where
  fresh := Ring.make_fresh made
  counted := Ring.takeConsumer_counted (Ring.make_counted made)
  created := rfl
  handler := rfl
  next := by
    change ring.takeConsumer.2.gating + 1 = 0
    rw [(Ring.make_fresh made).gating]
    rfl

namespace Engine

/-- A ring and a worker can be had for the engine. -/
structure Able (e : Engine α η σ) : Prop where
  valid : e.config.Valid
  addressable : e.config.capacity.toNat < Config.unaddressable
  named : '\x00' ∉ e.name.toList

/-- An engine between two calls; `calm` says that no handler halts a ring. -/
structure InOrder (calm : Prop) (e : Engine α η σ) : Prop extends Able e where
  settled : e.state ≠ .starting
  stopping : ∀ station, e.status = .stopping station → station.ring.halted = true
  running : ∀ station, e.status = .running station → calm →
    station.ring.halted = false ∧ station.LeavesRunning

section Calls
variable {calm : Prop} {e e' : Engine α η σ} {scene scene' : Scene σ} {crew : Crew α η σ}
  {station : Station α η σ}

theorem Able.of_eq (h : e.Able) (name : e'.name = e.name) (config : e'.config = e.config) :
    e'.Able := by
  obtain ⟨hvalid, haddressable, hnamed⟩ := h
  rw [← name] at hnamed
  rw [← config] at hvalid haddressable
  exact ⟨hvalid, haddressable, hnamed⟩

theorem Able.exists_make (h : e.Able) (metrics : Metrics) :
    ∃ ring : Ring α, Ring.make e.config metrics = .ok ring := by
  unfold Ring.make
  rw [dif_pos h.valid, if_neg (not_le.mpr h.addressable)]
  exact ⟨_, rfl⟩

theorem launch_of_make {ring : Ring α} (named : '\x00' ∉ e.name.toList)
    (made : Ring.make e.config e.metrics = .ok ring) (crew : Crew α η σ)
    (refusal : Option String) :
    e.launch crew refusal =
      match refusal with
      | none =>
        (.ok (), { e with
          status := .running (Station.make ring.takeConsumer.2 e.name crew.handler crew.memory
            crew.exceptions) })
      | some reason => (.error (.refused (.spawn reason)), e) := by
  unfold launch recruit
  rw [made]
  dsimp only
  rw [if_neg named]
  cases refusal <;> rfl

theorem Able.launch_eq (h : e.Able) (crew : Crew α η σ) (refusal : Option String) :
    ∃ station, Station.Begun crew station ∧ e.launch crew refusal =
      match refusal with
      | none => (.ok (), { e with status := .running station })
      | some reason => (.error (.refused (.spawn reason)), e) := by
  obtain ⟨ring, hmake⟩ := h.exists_make e.metrics
  exact ⟨_, .of_make hmake e.name crew, launch_of_make h.named hmake crew refusal⟩

theorem work_stopping (progress : Nat) (e : Engine α η σ) (station : Station α η σ)
    (scene : Scene σ) :
    ({ e with status := .stopping station } : Engine α η σ).work progress scene =
      ({ e with status := .stopping (station.work progress scene).1 },
        (station.work progress scene).2) := by
  let f (next : Station α η σ × Scene σ) : Engine α η σ × Scene σ :=
    ({ e with status := .stopping next.1 }, next.2)
  have hsame (next : Station α η σ × Scene σ) :
      (f next).1.step (f next).2 = (next.1.step next.2).map f := rfl
  exact advance_map f hsame progress (station, scene)

theorem halt_of_station (there : e.station? = some station)
    (halted : ∀ station, e.status = .stopping station → station.ring.halted = true) :
    e.halt = { e with status := .stopping { station with ring := station.ring.halt } } := by
  unfold halt
  cases hstatus : e.status with
  | stopped metrics | starting metrics => simp [station?, hstatus] at there
  | running station' =>
    obtain rfl : station' = station := by simpa [station?, hstatus] using there
    rfl
  | stopping station' =>
    obtain rfl : station' = station := by simpa [station?, hstatus] using there
    rw [Ring.halt_of_halted (halted station' hstatus)]
    dsimp only
    rw [← hstatus]

/-- The wait of a stop is over when the worker has ended, and given up otherwise. -/
theorem settle_cases (there : e.status = .stopping station) (limit : Span) (scene : Scene σ) :
    (station.worker.phase.ended = true ∧ ∃ scene', e.settle limit scene =
      (.ok (), { e with status := .stopped station.ring.metrics }, scene')) ∨
    (station.worker.phase.ended = false ∧ ∃ scene', e.settle limit scene =
      (.error (.shutdownTimeout limit), e, scene')) := by
  unfold settle
  rw [there]
  dsimp only
  cases station.worker.phase with
  | finished | died p => exact .inl ⟨rfl, _, rfl⟩
  | _ => exact .inr ⟨rfl, _, rfl⟩

/-- A stop of the engine has given up: the engine is stopping with the ring and the worker it had, the
ring halted and the worker as far on as it came, which is not to its end. -/
def GaveUp (e : Engine α η σ) (progress : Nat) (scene : Scene σ) (e' : Engine α η σ) : Prop :=
  ∃ station, e.station? = some station ∧
    let worked := Station.work progress { station with ring := station.ring.halt } scene
    worked.1.worker.phase.ended = false ∧ e' = { e with status := .stopping worked.1 }

/-- A stop lets the worker go on at the halted ring; then it has ended, or the stop gives up. -/
theorem stop_of_station (there : e.station? = some station)
    (halted : ∀ station, e.status = .stopping station → station.ring.halted = true)
    (limit : Span) (progress : Nat) (scene : Scene σ) :
    (∃ metrics scene', e.stop limit progress scene =
      (.ok (), { e with status := .stopped metrics }, scene')) ∨
    ∃ e' scene', e.stop limit progress scene = (.error (.shutdownTimeout limit), e', scene') ∧
      e.GaveUp progress scene e' := by
  let worked := Station.work progress { station with ring := station.ring.halt } scene
  have hsettle := settle_cases (e := { e with status := .stopping worked.1 }) rfl limit worked.2
  unfold stop
  rw [halt_of_station there halted, work_stopping]
  rcases hsettle with ⟨_, scene', he⟩ | ⟨hbusy, scene', he⟩
  · exact .inl ⟨_, scene', he⟩
  · exact .inr ⟨_, scene', he, station, there, hbusy, rfl⟩

theorem step_of_stopped (h : e.state = .stopped) (scene : Scene σ) : e.step scene = none := by
  cases hstatus : e.status with
  | stopped metrics => simp [step, hstatus]
  | _ => simp [state, hstatus] at h

theorem stop_of_stopped (h : e.state = .stopped) (limit : Span) (progress : Nat)
    (scene : Scene σ) : e.stop limit progress scene = (.ok (), e, scene) := by
  cases hstatus : e.status with
  | stopped metrics =>
    have hwork : e.work progress scene = (e, scene) :=
      work_of_none (step_of_stopped h scene) _
    simp [stop, halt, settle, hstatus, hwork]
  | _ => simp [state, hstatus] at h

namespace InOrder

theorem to_stopped (h : e.InOrder calm) (metrics : Metrics) :
    ({ e with status := .stopped metrics } : Engine α η σ).InOrder calm := by
  refine ⟨h.toAble.of_eq rfl rfl, fun hs => ?_, fun _ he => ?_, fun _ he => ?_⟩
  · cases hs
  · cases he
  · cases he

theorem to_running (h : e.InOrder calm)
    (running : calm → station.ring.halted = false ∧ station.LeavesRunning) :
    ({ e with status := .running station } : Engine α η σ).InOrder calm := by
  refine ⟨h.toAble.of_eq rfl rfl, fun hs => ?_, fun _ he => ?_, fun _ he => ?_⟩
  · cases hs
  · cases he
  · cases he
    exact running

theorem to_stopping (h : e.InOrder calm) (halted : station.ring.halted = true) :
    ({ e with status := .stopping station } : Engine α η σ).InOrder calm := by
  refine ⟨h.toAble.of_eq rfl rfl, fun hs => ?_, fun _ he => ?_, fun _ he => ?_⟩
  · cases hs
  · cases he
    exact halted
  · cases he

theorem step (h : e.InOrder calm) (step : e.step scene = some (e', scene')) :
    e'.InOrder calm := by
  unfold Engine.step at step
  cases hstatus : e.status with
  | stopped metrics | starting metrics => simp [hstatus] at step
  | running station =>
    simp only [hstatus] at step
    obtain ⟨⟨station', _⟩, hstep, he⟩ := Option.map_eq_some_iff.mp step
    cases he
    have hdoes := Station.step_does hstep
    refine h.to_running fun hcalm => ?_
    obtain ⟨hhalted, hleaves⟩ := h.running station hstatus hcalm
    exact ⟨(hleaves.halted_eq hdoes).trans hhalted, hdoes.leavesRunning hleaves⟩
  | stopping station =>
    simp only [hstatus] at step
    obtain ⟨⟨station', _⟩, hstep, he⟩ := Option.map_eq_some_iff.mp step
    cases he
    exact h.to_stopping ((Station.step_does hstep).halted (h.stopping station hstatus))

theorem work (h : e.InOrder calm) (progress : Nat) (scene : Scene σ) :
    (e.work progress scene).1.InOrder calm := by
  induction progress generalizing e scene with
  | zero => exact h
  | succ progress ih =>
    cases hstep : e.step scene with
    | none =>
      rw [work_of_none hstep]
      exact h
    | some next =>
      rw [work_of_some hstep]
      exact ih (h.step hstep) next.2

theorem publish (h : e.InOrder calm) (item : α) : (e.publish item).2.InOrder calm := by
  rcases e.publish_cases item with ⟨-, hpublish⟩ | ⟨station, hstatus, hpublish⟩ <;> rw [hpublish]
  · exact h
  · refine h.to_running fun hcalm => ?_
    obtain ⟨hhalted, hleaves⟩ := h.running station hstatus hcalm
    exact ⟨(Ring.spared_halted.push station.ring item).trans hhalted, hleaves.handler, hleaves.turn⟩

theorem halt (h : e.InOrder calm) : e.halt.InOrder calm := by
  rcases e.halt_cases with hhalt | ⟨metrics, _, hhalt⟩ | ⟨station, _, hhalt⟩ <;> rw [hhalt]
  · exact h
  · exact h.to_stopped metrics
  · exact h.to_stopping rfl

theorem settle (h : e.InOrder calm) (limit : Span) (scene : Scene σ) :
    (e.settle limit scene).2.1.InOrder calm := by
  cases hstatus : e.status with
  | stopping station =>
    rcases settle_cases hstatus limit scene with ⟨_, _, he⟩ | ⟨_, _, he⟩ <;> rw [he]
    · exact h.to_stopped _
    · exact h
  | _ =>
    unfold Engine.settle
    rw [hstatus]
    exact h

theorem stop (h : e.InOrder calm) (limit : Span) (progress : Nat) (scene : Scene σ) :
    (e.stop limit progress scene).2.1.InOrder calm :=
  (h.halt.work progress scene).settle limit _

theorem dismiss (h : e.InOrder calm) (progress : Nat) (scene : Scene σ) :
    (e.dismiss progress scene).1.InOrder calm := by
  have hworked := h.halt.work progress scene
  unfold Engine.dismiss
  dsimp only
  split
  · split_ifs
    · exact hworked.to_stopped _
    · exact hworked
  · exact hworked

theorem launch (h : e.InOrder calm) (leaves : calm → crew.handler.LeavesRunning)
    (refusal : Option String) : (e.launch crew refusal).2.InOrder calm := by
  obtain ⟨station, hbegun, he⟩ := h.launch_eq crew refusal
  rw [he]
  cases refusal with
  | some reason => exact h
  | none =>
    refine h.to_running fun hcalm => ⟨hbegun.fresh.running, ?_, fun turn hturn => ?_⟩
    · rw [hbegun.handler]
      exact leaves hcalm
    · rw [hbegun.created] at hturn
      cases hturn

theorem start (h : e.InOrder calm) (leaves : calm → crew.handler.LeavesRunning)
    (refusal : Option String) (progress : Nat) (scene : Scene σ) :
    (e.start crew refusal progress scene).2.1.InOrder calm := by
  unfold Engine.start
  cases e.status with
  | running station | starting metrics => exact h
  | stopped metrics => exact h.launch leaves refusal
  | stopping station =>
    have hstopped := h.stop e.config.patience progress scene
    generalize e.stop e.config.patience progress scene = outcome at hstopped
    obtain ⟨result, e', scene'⟩ := outcome
    cases result with
    | error error => exact hstopped
    | ok _ => exact hstopped.launch leaves refusal

/-- Every call leaves the engine in order. -/
theorem answer (h : e.InOrder calm) (scene : Scene σ) (call : Call α η σ)
    (leaves : ∀ crew refusal progress, call = .start crew refusal progress → calm →
      crew.handler.LeavesRunning) : (e.answer scene call).2.1.InOrder calm := by
  cases call with
  | start crew refusal progress =>
    exact h.start (leaves crew refusal progress rfl) refusal progress scene
  | publish item => exact h.publish item
  | stop progress => exact h.stop e.config.patience progress scene
  | stopWithin limit progress => exact h.stop limit progress scene
  | work progress => exact h.work progress scene
  | dismiss progress => exact h.dismiss progress scene

theorem after (h : e.InOrder calm) (scene : Scene σ) (calls : List (Call α η σ))
    (leaves : ∀ crew refusal progress, .start crew refusal progress ∈ calls → calm →
      crew.handler.LeavesRunning) : (e.after scene calls).1.InOrder calm := by
  induction calls generalizing e scene with
  | nil => exact h
  | cons call calls ih =>
    refine ih (h.answer scene call ?_) _ ?_
    · rintro crew refusal progress rfl
      exact leaves crew refusal progress List.mem_cons_self
    · intro crew refusal progress hmem
      exact leaves crew refusal progress (List.mem_cons_of_mem _ hmem)

end InOrder

/-- A start does nothing, or has a worker begin unless it is refused one, or gives up on the worker
that was there. -/
theorem InOrder.start_cases (h : e.InOrder calm) (crew : Crew α η σ) (refusal : Option String)
    (progress : Nat) (scene : Scene σ) :
    (e.state = .running ∧ e.start crew refusal progress scene = (.ok (), e, scene)) ∨
    (e.state ≠ .running ∧ ∃ metrics station scene', Station.Begun crew station ∧
      (e.state = .stopped → e.status = .stopped metrics ∧ scene' = scene) ∧
      e.start crew refusal progress scene = match refusal with
        | none => (.ok (), { e with status := .running station }, scene')
        | some reason => (.error (.refused (.spawn reason)),
            { e with status := .stopped metrics }, scene')) ∨
    (e.state = .stopping ∧ ∃ e' scene', e.start crew refusal progress scene =
        (.error (.refused (.shutdownTimeout e.config.patience)), e', scene') ∧
      e.GaveUp progress scene e') := by
  cases hstatus : e.status with
  | starting metrics => exact absurd (by simp [state, hstatus]) h.settled
  | running station => exact .inl ⟨by simp [state, hstatus], by simp [Engine.start, hstatus]⟩
  | stopped metrics =>
    refine .inr (.inl ⟨by simp [state, hstatus], metrics, ?_⟩)
    obtain ⟨station, hbegun, he⟩ := h.launch_eq crew refusal
    refine ⟨station, scene, hbegun, fun _ => ⟨rfl, rfl⟩, ?_⟩
    unfold Engine.start
    rw [hstatus]
    dsimp only
    rw [he]
    cases refusal with
    | none => rfl
    | some reason =>
      dsimp only
      rw [← hstatus]
  | stopping station =>
    have hstopping : e.state = .stopping := by simp [state, hstatus]
    rcases stop_of_station (station?_of_stopping hstatus) h.stopping e.config.patience progress
      scene with ⟨metrics, scene', he⟩ | ⟨e', scene', he, hgave⟩
    · refine .inr (.inl ⟨by simp [hstopping], metrics, ?_⟩)
      obtain ⟨station', hbegun, hlaunch⟩ := (h.to_stopped metrics).launch_eq crew refusal
      refine ⟨station', scene', hbegun, fun hs => by simp [hstopping] at hs, ?_⟩
      unfold Engine.start
      rw [hstatus]
      dsimp only
      rw [he]
      dsimp only
      rw [hlaunch]
      cases refusal <;> rfl
    · refine .inr (.inr ⟨hstopping, e', scene', ?_, hgave⟩)
      unfold Engine.start
      rw [hstatus]
      dsimp only
      rw [he]

/-- What callers can rely on between two calls. -/
structure Lawful (e : Engine α η σ) (scene : Scene σ) : Prop where
  state : e.state = .stopped ∨ e.state = .running ∨ e.state = .stopping
  /-- There are a ring and a worker unless the engine is stopped. -/
  staffed : e.station? = none ↔ e.state = .stopped
  halted : ∀ station, e.station? = some station → e.state = .stopping →
    station.ring.halted = true
  publish : e.state ≠ .running → ∀ item, e.publish item = (.refused .notRunning, e)
  start_running : e.state = .running → ∀ crew refusal progress,
    e.start crew refusal progress scene = (.ok (), e, scene)
  stop_stopped : e.state = .stopped → ∀ limit progress,
    e.stop limit progress scene = (.ok (), e, scene)
  stop_refused : ∀ limit progress error e' scene',
    e.stop limit progress scene = (.error error, e', scene') →
    error = .shutdownTimeout limit ∧ e.GaveUp progress scene e'
  start_stopped : e.state = .stopped → ∀ crew progress,
    (∃ e', e.start crew none progress scene = (.ok (), e', scene)) ∧
    ∀ reason, e.start crew (some reason) progress scene =
      (.error (.refused (.spawn reason)), e, scene)
  start_refused : ∀ crew refusal progress fault e' scene',
    e.start crew refusal progress scene = (.error fault, e', scene') →
    (fault = .refused (.shutdownTimeout e.config.patience) ∧ e.state = .stopping ∧
      e.GaveUp progress scene e') ∨
    ∃ reason, refusal = some reason ∧ fault = .refused (.spawn reason) ∧
      e'.state = .stopped ∧ e'.station? = none
  /-- A start that takes effect gives the worker a ring that nothing was claimed at. -/
  start_taken : e.state ≠ .running → ∀ crew refusal progress e' scene',
    e.start crew refusal progress scene = (.ok (), e', scene') →
    e'.state = .running ∧ (∀ item, (e'.publish item).1 = .done 0) ∧
      ∃ station, e'.station? = some station ∧ Station.Begun crew station

theorem InOrder.staffed (h : e.InOrder calm) : e.station? = none ↔ e.state = .stopped := by
  have hsettled := h.settled
  cases hstatus : e.status <;> simp_all [station?, Engine.state]

theorem InOrder.lawful (h : e.InOrder calm) (scene : Scene σ) : e.Lawful scene where
  state := by
    have hsettled := h.settled
    cases hstate : e.state <;> simp_all
  staffed := h.staffed
  halted station there hstopping := by
    cases hstatus : e.status with
    | stopping station' =>
      have hsame : station' = station := by simpa [station?, hstatus] using there
      rw [← hsame]
      exact h.stopping station' hstatus
    | _ => simp [Engine.state, hstatus] at hstopping
  publish idle item := by
    rcases e.publish_cases item with ⟨-, he⟩ | ⟨station, hstatus, _⟩
    · exact he
    · exact absurd (by simp [Engine.state, hstatus]) idle
  start_running running crew refusal progress := by
    rcases h.start_cases crew refusal progress scene with ⟨_, he⟩ | ⟨hidle, _⟩ | ⟨hstopping, _⟩
    · exact he
    · exact absurd running hidle
    · rw [running] at hstopping
      cases hstopping
  stop_stopped stopped limit progress := stop_of_stopped stopped limit progress scene
  stop_refused limit progress error e' scene' refused := by
    cases hthere : e.station? with
    | none =>
      rw [stop_of_stopped (h.staffed.mp hthere)] at refused
      cases refused
    | some station =>
      rcases stop_of_station hthere h.stopping limit progress scene with
        ⟨metrics, scene'', he⟩ | ⟨e'', scene'', he, hgave⟩ <;> rw [he] at refused <;> cases refused
      exact ⟨rfl, hgave⟩
  start_stopped stopped crew progress := by
    have hcases (refusal : Option String) := h.start_cases crew refusal progress scene
    simp only [stopped, reduceCtorEq, false_and, false_or, or_false, ne_eq, not_false_eq_true,
      true_and, true_implies] at hcases
    obtain ⟨metrics, station, scene', _, ⟨hstatus, hscene⟩, he⟩ := hcases none
    refine ⟨⟨_, by rw [he, hscene]⟩, fun reason => ?_⟩
    obtain ⟨metrics, station, scene', _, ⟨hstatus, hscene⟩, he⟩ := hcases (some reason)
    rw [he, hscene, ← hstatus]
  start_refused crew refusal progress fault e' scene' refused := by
    rcases h.start_cases crew refusal progress scene with ⟨_, he⟩ |
      ⟨_, metrics, station, scene'', _, _, he⟩ | ⟨hstopping, e'', scene'', he, hgave⟩ <;>
      rw [he] at refused
    · cases refused
    · cases refusal with
      | none => cases refused
      | some reason =>
        cases refused
        exact .inr ⟨reason, rfl, rfl, rfl, rfl⟩
    · cases refused
      exact .inl ⟨rfl, hstopping, hgave⟩
  start_taken idle crew refusal progress e' scene' taken := by
    rcases h.start_cases crew refusal progress scene with ⟨hrunning, _⟩ |
      ⟨_, metrics, station, scene'', hbegun, _, he⟩ | ⟨_, e'', scene'', he, _⟩
    · exact absurd hrunning idle
    · rw [he] at taken
      cases refusal with
      | none =>
        cases taken
        exact ⟨rfl, hbegun.fresh.push hbegun.counted, station, rfl, hbegun⟩
      | some reason => cases taken
    · rw [he] at taken
      cases taken

end Calls

theorem make_able {name : String} {config : Config} {new : Engine α η σ}
    (made : Engine.make name config = .ok new)
    (addressable : config.capacity.toNat < Config.unaddressable) (named : '\x00' ∉ name.toList) :
    new.Able := by
  have hnew := make_eq made
  unfold Engine.make at made
  by_cases hvalid : config.Valid
  · rw [hnew]
    exact ⟨hvalid, addressable, named⟩
  · simp [Config.validate, hvalid] at made

/-- Between any two calls an engine is stopped, running or stopping, it has a ring and a worker unless
it is stopped, and the ring is halted just while it is stopping; what the calls then do to the three
is as `Lawful` says. The capacity has to be one that can be allocated, and the name one that a worker
can have. Handlers are not given the ring of an engine, so that none can halt it. -/
theorem lawful_between_calls {name : String} {config : Config} {new : Engine α η σ}
    (made : Engine.make name config = .ok new)
    (addressable : config.capacity.toNat < Config.unaddressable) (named : '\x00' ∉ name.toList)
    (scene : Scene σ) (calls : List (Call α η σ)) :
    let e := (new.after scene calls).1
    e.Lawful (new.after scene calls).2 ∧
      ((∀ crew refusal progress, .start crew refusal progress ∈ calls →
          crew.handler.LeavesRunning) →
        ∀ station, e.station? = some station →
          (station.ring.halted = true ↔ e.state = .stopping)) := by
  intro e
  let calm := ∀ crew refusal progress, Call.start crew refusal progress ∈ calls →
    crew.handler.LeavesRunning
  have hnew : new.InOrder calm := by
    refine ⟨make_able made addressable named, ?_, ?_, ?_⟩ <;> rw [make_eq made]
    · simp [state]
    · simp
    · simp
  have h : e.InOrder calm := hnew.after scene calls fun crew refusal progress hmem hcalm =>
    hcalm crew refusal progress hmem
  have hlawful := h.lawful (new.after scene calls).2
  refine ⟨hlawful, fun hcalm station hthere => ⟨fun hhalted => ?_, hlawful.halted station hthere⟩⟩
  cases hstatus : e.status with
  | stopped metrics | starting metrics => simp [station?, hstatus] at hthere
  | stopping station' => simp [state, hstatus]
  | running station' =>
    obtain rfl : station' = station := by simpa [station?, hstatus] using hthere
    rw [(h.running station' hstatus hcalm).1] at hhalted
    cases hhalted

/-- A start that is refused a worker, a stop that gives up, a start that finishes it and begins
anew, and a second stop that gives up. -/
theorem lawful_between_calls_restarted :
    ∃ (new : Engine Nat Unit Unit) (scene : Scene Unit) (calls : List (Call Nat Unit Unit)),
      Engine.make "worker" { capacity := 2 } = .ok new ∧
      ({ capacity := 2 } : Config).capacity.toNat < Config.unaddressable ∧
      '\x00' ∉ "worker".toList ∧
      new.answers scene calls =
        [.refused (.spawn "no threads left"), .ok, .sequence 0,
          .refused (.shutdownTimeout (.ofSeconds 30)), .refused .notRunning, .ok, .sequence 0,
          .refused (.shutdownTimeout (.ofSeconds 1))] ∧
      (new.after scene calls).1.state = .stopping ∧
      (new.after scene calls).1.Lawful (new.after scene calls).2 ∧
      ∀ station, (new.after scene calls).1.station? = some station →
        station.ring.halted = true := by
  let crew : Crew Nat Unit Unit :=
    { handler := { onEvent := fun _ _ _ => .finish .ok }
      memory := ()
      exceptions := .logging "worker" }
  let calls : List (Call Nat Unit Unit) :=
    [.start crew (some "no threads left") 0, .start crew none 0, .publish 5, .stop 0, .publish 6,
      .start crew none 40, .publish 7, .stopWithin (.ofSeconds 1) 0]
  let scene : Scene Unit := { outside := (), log := [], mint := .spread 0 0 }
  let new : Engine Nat Unit Unit :=
    { name := "worker", config := { capacity := 2 }, status := .stopped {} }
  have hmake : Engine.make "worker" { capacity := 2 } = .ok new :=
    make_of_valid (by decide +kernel) _
  have hroom : ({ capacity := 2 } : Config).capacity.toNat < Config.unaddressable := by
    decide +kernel
  have hnamed : '\x00' ∉ "worker".toList := by
    decide +kernel
  have hstopping : (new.after scene calls).1.state = .stopping := by
    decide +kernel
  have hleaves : ∀ (crew : Crew Nat Unit Unit) refusal progress,
      .start crew refusal progress ∈ calls → crew.handler.LeavesRunning := by
    intro crew' refusal progress hmem call
    have hcrew : crew' = crew := by
      simp only [calls, List.mem_cons, Call.start.injEq, reduceCtorEq, List.not_mem_nil, or_false,
        false_or] at hmem
      tauto
    rw [hcrew]
    cases call <;> exact .finish _
  obtain ⟨hlawful, hhalted⟩ := lawful_between_calls hmake hroom hnamed scene calls
  exact ⟨new, scene, calls, hmake, hroom, hnamed, by decide +kernel, hstopping, hlawful,
    fun station hthere => (hhalted hleaves station hthere).mpr hstopping⟩

/-- With a NUL in its name an engine can get no worker: a start breaks off, and the engine stays
starting, with neither ring nor worker, while further starts answer that all is well. -/
theorem starting_after_nul :
    ∃ (new : Engine Nat Unit Unit) (scene : Scene Unit) (calls : List (Call Nat Unit Unit)),
      Engine.make "a\x00b" { capacity := 4 } = .ok new ∧
      ({ capacity := 4 } : Config).capacity.toNat < Config.unaddressable ∧
      new.answers scene calls = [.broken (.nulInName "a\x00b"), .ok] ∧
      (new.after scene calls).1.state = .starting ∧
      (new.after scene calls).1.station?.isNone = true ∧
      ¬ (new.after scene calls).1.Lawful (new.after scene calls).2 := by
  let crew : Crew Nat Unit Unit :=
    { handler := { onEvent := fun _ _ _ => .finish .ok }
      memory := ()
      exceptions := .logging "a\x00b" }
  let calls : List (Call Nat Unit Unit) := [.start crew none 0, .start crew none 0]
  let scene : Scene Unit := { outside := (), log := [], mint := .spread 0 0 }
  let new : Engine Nat Unit Unit :=
    { name := "a\x00b", config := { capacity := 4 }, status := .stopped {} }
  have hmake : Engine.make "a\x00b" { capacity := 4 } = .ok new :=
    make_of_valid (by decide +kernel) _
  have hstarting : (new.after scene calls).1.state = .starting := by
    decide +kernel
  refine ⟨new, scene, calls, hmake, by decide +kernel, by decide +kernel, hstarting,
    by decide +kernel, fun hlawful => ?_⟩
  rcases hlawful.state with h | h | h <;> rw [hstarting] at h <;> cases h

end Engine
end MessageRing
