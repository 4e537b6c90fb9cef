import MessageRing.Proofs.Engine.Diaries
import MessageRing.Proofs.Engine.Rules
import MessageRing.Proofs.Engine.Shifts

/-!
What becomes of accepted items, whatever the exception handlers do.

A worker that is left alone by its exception handler comes to its end only at a halted ring, with
everything passed on. It dies before its time only when its exception handler panics; the ring goes
on accepting items then. What was passed on is read from the diary of recorded crews.
-/
namespace MessageRing
variable {α η σ : Type}

namespace Shift
variable {shift : Shift α η σ} {station station' : Station α η σ} {scene scene' : Scene σ}
  {crews : Engine.Crew α η σ → Prop}

theorem crew_foldl (shift : Shift α η σ) (sights : List (Sight α η σ)) :
    (sights.foldl see shift).crew = shift.crew := by
  induction sights generalizing shift with
  | nil => rfl
  | cons sight sights ih =>
    refine (ih (shift.see sight)).trans ?_
    cases sight <;> rfl

/-- The worker of the shift has died of its exception handler. -/
structure Perished (shift : Shift α η σ) (station : Station α η σ) : Prop where
  loyal : shift.Loyal
  passed_prefix : shift.passed <+: shift.accepted
  died : ∃ p, station.worker.phase = .died p ∧ station.worker.exceptions.Panics p ∧
    shift.died = some p

theorem Perished.ended (h : shift.Perished station) : station.worker.phase.ended = true := by
  obtain ⟨p, hphase, _⟩ := h.died
  rw [hphase]
  rfl

theorem Perished.push (h : shift.Perished station) (item : α) :
    ((Happening.published item (station.ring.push item).1).sights.foldl see shift).Perished
      { station with ring := (station.ring.push item).2 } := by
  rw [Happening.sights_published, foldl_accepted]
  exact ⟨h.loyal, h.passed_prefix.trans (List.prefix_append _ _), h.died⟩

/-- The worker at the station is that of the shift, which has one of these crews. -/
structure Manned (crews : Engine.Crew α η σ → Prop) (shift : Shift α η σ)
    (station : Station α η σ) : Prop where
  hired : crews shift.crew
  exceptions : station.worker.exceptions = shift.crew.exceptions
  fate : shift.Accounted station ∨ shift.Perished station

theorem Manned.step (h : shift.Manned crews station)
    (step : station.step scene = some (station', scene')) :
    ((station.sights station').foldl see shift).Manned crews station' := by
  have hexceptions := (Station.step_does step).keeps.2.2
  rcases h.fate with haccounted | hperished
  · refine ⟨?_, ?_, ?_⟩
    · rw [crew_foldl]
      exact h.hired
    · rw [crew_foldl]
      exact hexceptions.trans h.exceptions
    · rcases haccounted.step step with hnext | ⟨p, hdied, hpanics, hnothing⟩
      · exact .inl hnext
      · rw [hnothing]
        rw [← hexceptions] at hpanics
        exact .inr ⟨haccounted.loyal, haccounted.passed_prefix, p, hdied, hpanics, rfl⟩
  · rw [Station.step_of_ended scene hperished.ended] at step
    cases step

theorem Manned.push (h : shift.Manned crews station) (item : α) :
    ((Happening.published item (station.ring.push item).1).sights.foldl see shift).Manned crews
      { station with ring := (station.ring.push item).2 } := by
  refine ⟨?_, ?_, h.fate.imp (·.push item) (·.push item)⟩
  · rw [crew_foldl]
    exact h.hired
  · rw [crew_foldl]
    exact h.exceptions

/-- Everything was passed on that was accepted, or the worker has died of its exception handler. -/
theorem Manned.passed (h : shift.Manned crews station)
    (ended : station.worker.phase.ended = true) :
    shift.Loyal ∧ shift.passed <+: shift.accepted ∧
      (shift.died = none → shift.passed = shift.accepted) ∧
      ∀ p, shift.died = some p → shift.crew.exceptions.Panics p := by
  rcases h.fate with haccounted | hperished
  · have heq := haccounted.passed_eq (haccounted.finished_of_ended ended)
    refine ⟨haccounted.loyal, haccounted.passed_prefix, fun _ => heq, fun p hdied => ?_⟩
    rw [haccounted.alive] at hdied
    cases hdied
  · obtain ⟨p, _, hpanics, hdied⟩ := hperished.died
    rw [h.exceptions] at hpanics
    refine ⟨hperished.loyal, hperished.passed_prefix, fun hnone => ?_, fun p' hdied' => ?_⟩
    · rw [hnone] at hdied
      cases hdied
    · cases hdied.symm.trans hdied'
      exact hpanics

end Shift

namespace Engine

/-- What can be said of every shift with one of these crews. -/
def candid (crews : Crew α η σ → Prop) : Rule α η σ where
  during := Shift.Manned crews
  after shift := crews shift.crew ∧ shift.Loyal ∧ shift.passed <+: shift.accepted ∧
    (shift.died = none → shift.passed = shift.accepted) ∧
    ∀ p, shift.died = some p → shift.crew.exceptions.Panics p

theorem candid_sustained (crews : Crew α η σ → Prop) : (candid crews).Sustained crews where
  opened hired made name scene := ⟨hired, rfl, .inl (.of_opened made name _ scene)⟩
  step manned step := manned.step step
  push manned item := manned.push item
  halt manned :=
    ⟨manned.hired, manned.exceptions, manned.fate.imp (·.halt) fun h => ⟨h.1, h.2, h.3⟩⟩
  ended manned ended := ⟨manned.hired, manned.passed ended⟩

theorem candid_of_make {name : String} {config : Config} {new : Engine α η σ}
    (made : Engine.make name config = .ok new) (scene : Scene σ) (calls : List (Call α η σ)) :
    (candid fun crew => ∃ refusal progress, .start crew refusal progress ∈ calls).Obeyed
      (new.after scene calls).1
      (.read {} ((new.chronicle scene calls).flatMap Happening.sights)) :=
  ((candid _).obeyed_of_make made).run (candid_sustained _) scene calls
    fun _ refusal progress hmem => ⟨refusal, progress, hmem⟩

/-- An engine that is running and accepts an item has a worker that goes on, or one that has died of
a panic of the exception handler it was started with. -/
theorem died_of_panic {name : String} {config : Config} {new : Engine α η σ}
    (made : Engine.make name config = .ok new) (scene : Scene σ) (calls : List (Call α η σ))
    {station : Station α η σ} (there : (new.after scene calls).1.status = .running station)
    (ended : station.worker.phase.ended = true) {item : α} {n : Int}
    (accepted : ((new.after scene calls).1.publish item).1 = .done n) :
    ∃ crew refusal progress p, .start crew refusal progress ∈ calls ∧
      station.worker.exceptions = crew.exceptions ∧ station.worker.phase = .died p ∧
      crew.exceptions.Panics p := by
  obtain ⟨shift, _, hmanned⟩ :=
    (candid_of_make made scene calls).of_station (station?_of_running there)
  obtain ⟨refusal, progress, hmem⟩ := hmanned.hired
  rcases hmanned.fate with haccounted | hperished
  · -- a worker that has finished has seen the ring halted
    have hfinished := haccounted.finished_of_ended ended
    obtain ⟨a, hsound, rfl, _, _⟩ := haccounted.account
    have hhalted := (hsound.closed (by rw [hfinished]; rfl)).1
    have hpublish : ((new.after scene calls).1.publish item).1 = (a.station.ring.push item).1 := by
      simp [publish, there]
    rw [hpublish, Ring.push_of_halted hhalted] at accepted
    cases accepted
  · obtain ⟨p, hdied, hpanics, _⟩ := hperished.died
    rw [hmanned.exceptions] at hpanics
    exact ⟨shift.crew, refusal, progress, p, hmem, hmanned.exceptions, hdied, hpanics⟩

/-- Accepted items are left lying only where an exception handler panics, whatever handlers and
exception handlers do.

If an engine is running while its worker has ended, and still accepts an item, then the worker has
died of a panic of the exception handler it was started with. And by what the handlers have written
down, a shift that a stop has ended without an error has passed on all that it accepted, unless its
worker has died of such a panic. -/
theorem left_lying_by_panic :
    (∀ (name : String) (config : Config) (new : Engine α η σ) (scene : Scene σ)
        (calls : List (Call α η σ)), Engine.make name config = .ok new →
      let e := (new.after scene calls).1
      ∀ station, e.status = .running station → station.worker.phase.ended = true →
        ∀ item n, (e.publish item).1 = .done n →
          ∃ crew refusal progress p, .start crew refusal progress ∈ calls ∧
            station.worker.exceptions = crew.exceptions ∧ station.worker.phase = .died p ∧
            crew.exceptions.Panics p) ∧
    ∀ (name : String) (config : Config) (new : Engine α η (Diary α η σ × σ))
        (scene : Scene (Diary α η σ × σ)) (calls : List (Call α η σ)),
      Engine.make name config = .ok new →
      let run := calls.map Call.recorded
      let r := Roster.read {} ((new.chronicle scene run).flatMap Happening.witnessed)
      ∀ shift ∈ r.past, shift.Loyal ∧ shift.passed <+: shift.accepted ∧
        (shift.died = none → shift.passed = shift.accepted) ∧
        ∃ crew refusal progress, .start crew refusal progress ∈ calls ∧
          shift.crew = crew.recorded ∧ ∀ p, shift.died = some p → crew.exceptions.Panics p := by
  constructor
  · intro name config new scene calls made e station there ended item n accepted
    exact died_of_panic made scene calls there ended accepted
  · intro name config new scene calls made run r shift hshift
    rw [(witnessed_of_make made scene calls).past] at hshift
    obtain ⟨⟨refusal, progress, hmem⟩, hloyal, hprefix, hall, hpanics⟩ :=
      (candid_of_make made scene run).past shift hshift
    obtain ⟨crew, hgiven, hcrew⟩ := crew_recorded hmem
    refine ⟨hloyal, hprefix, hall, crew, refusal, progress, hgiven, hcrew, fun p hdied => ?_⟩
    have hpanic := hpanics p hdied
    rw [hcrew] at hpanic
    exact hpanic.of_recorded

/-- Two shifts whose handler fails on every item. The exception handler of the first one panics,
after which the engine still accepts an item, and leaves it lying; that of the second one does
not. -/
theorem left_lying_by_panic_twice :
    ∃ (new : Engine Nat Unit (Diary Nat Unit Unit × Unit))
      (scene : Scene (Diary Nat Unit Unit × Unit))
      (run : List (Call Nat Unit (Diary Nat Unit Unit × Unit))),
      Engine.make "worker" { capacity := 4 } = .ok new ∧
      ((new.after scene (run.take 3)).1.publish 2).1 = .done 1 ∧
      (∃ station p, (new.after scene (run.take 3)).1.status = .running station ∧
        station.worker.phase = .died p) ∧
      (Roster.read {} ((new.chronicle scene run).flatMap Happening.witnessed)).past.map
        (fun shift => (shift.accepted, shift.passed, shift.died)) =
          [([1, 2], [1], some .other), ([3, 4], [3, 4], none)] ∧
      ∀ shift ∈ (Roster.read {} ((new.chronicle scene run).flatMap Happening.witnessed)).past,
        shift.Loyal ∧ shift.passed <+: shift.accepted ∧
          (shift.died = none → shift.passed = shift.accepted) := by
  let handler : EventHandler Nat Unit Unit :=
    { onEvent := fun _ _ _ => .finish (.failed (.failed (.text "refused"))) }
  let fragile : Crew Nat Unit Unit :=
    { handler, memory := (), exceptions := fun _ _ => Act.panic .other }
  let sturdy : Crew Nat Unit Unit :=
    { handler, memory := (), exceptions := .logging "worker" }
  let calls : List (Call Nat Unit Unit) :=
    [.start fragile none 0, .publish 1, .work 40, .publish 2, .stop 0, .start sturdy none 0,
      .publish 3, .publish 4, .stop 40]
  let scene : Scene (Diary Nat Unit Unit × Unit) :=
    { outside := ([], ()), log := [], mint := .spread 0 0 }
  let new : Engine Nat Unit (Diary Nat Unit Unit × Unit) :=
    { name := "worker", config := { capacity := 4 }, status := .stopped {} }
  have hmake : Engine.make "worker" { capacity := 4 } = .ok new :=
    make_of_valid (by decide +kernel) _
  have haccepts :
      ((new.after scene ((calls.map Call.recorded).take 3)).1.publish 2).1 = .done 1 := by
    decide +kernel
  have hdone : (new.after scene ((calls.map Call.recorded).take 3)).1.workerDone = true := by
    decide +kernel
  refine ⟨new, scene, calls.map Call.recorded, hmake, haccepts, ?_, by decide +kernel,
    fun shift hshift => ?_⟩
  · cases hstatus : (new.after scene ((calls.map Call.recorded).take 3)).1.status with
    | running station =>
      have hended : station.worker.phase.ended = true := by
        simpa [workerDone, station?, hstatus] using hdone
      obtain ⟨_, _, _, p, _, _, hdied, _⟩ :=
        left_lying_by_panic.1 "worker" _ new scene _ hmake station hstatus hended 2 1 haccepts
      exact ⟨station, p, rfl, hdied⟩
    | _ => simp [publish, hstatus] at haccepts
  · obtain ⟨hloyal, hprefix, hall, -⟩ :=
      left_lying_by_panic.2 "worker" _ new scene calls hmake shift hshift
    exact ⟨hloyal, hprefix, hall⟩

/-- An item that fails costs the worker its life when the exception handler panics. The engine is
running and accepts the next item all the same, which nobody will take, and a stop answers that all
is well. -/
theorem accepted_after_death :
    ∃ (new : Engine Nat Unit (Diary Nat Unit Unit × Unit))
      (scene : Scene (Diary Nat Unit Unit × Unit))
      (run : List (Call Nat Unit (Diary Nat Unit Unit × Unit))),
      Engine.make "worker" { capacity := 4 } = .ok new ∧
      (new.after scene run).1.state = .running ∧ (new.after scene run).1.workerDone = true ∧
      new.answers scene (run ++ [.publish 2, .stop 40]) =
        [.ok, .sequence 0, .ok, .sequence 1, .ok] ∧
      (Roster.read {} ((new.chronicle scene (run ++ [.publish 2, .stop 40])).flatMap
        Happening.witnessed)).past.map (fun shift => (shift.accepted, shift.passed)) =
          [([1, 2], [1])] := by
  let crew : Crew Nat Unit Unit :=
    { handler := { onEvent := fun _ _ _ => .finish (.failed (.failed (.text "refused"))) }
      memory := ()
      exceptions := fun _ _ => Act.panic .other }
  let calls : List (Call Nat Unit Unit) := [.start crew none 0, .publish 1, .work 40]
  let scene : Scene (Diary Nat Unit Unit × Unit) :=
    { outside := ([], ()), log := [], mint := .spread 0 0 }
  let new : Engine Nat Unit (Diary Nat Unit Unit × Unit) :=
    { name := "worker", config := { capacity := 4 }, status := .stopped {} }
  have hmake : Engine.make "worker" { capacity := 4 } = .ok new :=
    make_of_valid (by decide +kernel) _
  exact ⟨new, scene, calls.map Call.recorded, hmake, by decide +kernel, by decide +kernel,
    by decide +kernel, by decide +kernel⟩

end Engine
end MessageRing
