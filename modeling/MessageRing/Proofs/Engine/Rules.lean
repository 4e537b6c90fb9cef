import MessageRing.Proofs.Engine.Sights

/-!
Rules for the shifts of an engine.

A rule says what ties a shift to its worker while the shift lasts, and what is left to be said when
it is over. When every small change of a worker and of its ring respects the rule, all shifts of
every run obey it.
-/
namespace MessageRing
variable {α η σ : Type}

structure Rule (α η σ : Type) where
  /-- While the shift lasts, with its worker at this station. -/
  during : Shift α η σ → Station α η σ → Prop
  after : Shift α η σ → Prop

namespace Rule

/-- Whatever a worker of these crews and its callers do respects the rule. -/
structure Sustained (rule : Rule α η σ) (crews : Engine.Crew α η σ → Prop) : Prop where
  opened {config : Config} {metrics : Metrics} {ring : Ring α} {crew : Engine.Crew α η σ} :
    crews crew → Ring.make config metrics = .ok ring → ∀ name, Scene σ →
      rule.during { crew }
        (Station.make ring.takeConsumer.2 name crew.handler crew.memory crew.exceptions)
  step {shift : Shift α η σ} {station station' : Station α η σ} {scene scene' : Scene σ} :
    rule.during shift station → station.step scene = some (station', scene') →
      rule.during ((station.sights station').foldl Shift.see shift) station'
  push {shift : Shift α η σ} {station : Station α η σ} : rule.during shift station → ∀ item,
    rule.during ((Happening.published item (station.ring.push item).1).sights.foldl Shift.see shift)
      { station with ring := (station.ring.push item).2 }
  halt {shift : Shift α η σ} {station : Station α η σ} : rule.during shift station →
    rule.during shift { station with ring := station.ring.halt }
  ended {shift : Shift α η σ} {station : Station α η σ} : rule.during shift station →
    station.worker.phase.ended = true → rule.after shift

/-- The shifts of the roster obey the rule, and the engine's worker is that of the present one. -/
structure Obeyed (rule : Rule α η σ) (e : Engine α η σ) (r : Roster α η σ) : Prop where
  stray : r.stray = []
  past : ∀ shift ∈ r.past, rule.after shift
  present : match e.station?, r.present with
    | none, none => True
    | some station, some shift => rule.during shift station
    | _, _ => False

namespace Obeyed
open Engine
variable {rule : Rule α η σ} {e e' : Engine α η σ} {r : Roster α η σ} {station : Station α η σ}
  {shift : Shift α η σ} {scene scene' : Scene σ} {crews : Crew α η σ → Prop}

theorem of_station (h : rule.Obeyed e r) (there : e.station? = some station) :
    ∃ shift, r.present = some shift ∧ rule.during shift station := by
  have hpresent := h.present
  rw [there] at hpresent
  cases hp : r.present with
  | none => simp [hp] at hpresent
  | some shift => exact ⟨shift, rfl, by simpa [hp] using hpresent⟩

theorem of_none (h : rule.Obeyed e r) (idle : e.station? = none) : r.present = none := by
  have hpresent := h.present
  rw [idle] at hpresent
  cases hp : r.present with
  | none => rfl
  | some shift => simp [hp] at hpresent

/-- The roster goes on when only the present shift does. -/
theorem go_on (h : rule.Obeyed e r) (there : e'.station? = some station)
    (during : rule.during shift station) : rule.Obeyed e' { r with present := some shift } :=
  ⟨h.stray, h.past, by rw [there]; exact during⟩

theorem ended_of_none (h : rule.Obeyed e r) (idle : e.station? = none) :
    rule.Obeyed e (r.enter .ended) := by
  have hpresent := h.of_none idle
  refine ⟨h.stray, ?_, by rw [idle]; trivial⟩
  simpa [Roster.enter, hpresent] using h.past

/-- A shift may end when its worker has. -/
theorem ended_of_station (h : rule.Obeyed e r) (sustained : rule.Sustained crews)
    (there : e.station? = some station) (ended : station.worker.phase.ended = true)
    (idle : e'.station? = none) : rule.Obeyed e' (r.enter .ended) := by
  obtain ⟨shift, hpresent, hduring⟩ := h.of_station there
  refine ⟨h.stray, fun shift' hshift => ?_, by rw [idle]; trivial⟩
  have hmem : shift' ∈ r.past ++ r.present.toList := hshift
  rw [hpresent] at hmem
  rcases List.mem_append.mp hmem with hpast | hlast
  · exact h.past shift' hpast
  · rw [List.mem_singleton.mp hlast]
    exact sustained.ended hduring ended

theorem move {supply : Supply α η σ} (h : rule.Obeyed e r) (sustained : rule.Sustained crews)
    (known : ∀ crew, supply.crews crew → crews crew) {happenings : List (Happening α η σ)}
    (move : Move supply e scene happenings e' scene') :
    rule.Obeyed e' (r.read (happenings.flatMap Happening.sights)) := by
  cases move with
  | work there there' step _ =>
    obtain ⟨shift, hpresent, hduring⟩ := h.of_station there
    rw [List.flatMap_singleton, Happening.sights,
      Roster.read_work hpresent (Station.sights_work _ _)]
    exact h.go_on there' (sustained.step hduring step)
  | publish _ there _ =>
    obtain ⟨shift, hpresent, hduring⟩ := h.of_station (station?_of_running there)
    rw [List.flatMap_singleton, Roster.read_work hpresent (Happening.published_work _ _)]
    exact h.go_on rfl (sustained.push hduring _)
  | refuse | report => exact h
  | withdraw _ there =>
    have hpresent := h.of_none (by simp [station?, there])
    exact ⟨h.stray, h.past, by simp [Roster.read, station?, hpresent]⟩
  | breakOff _ idle => exact ⟨h.stray, h.past, by simp [Roster.read, station?, h.of_none idle]⟩
  | halt _ there =>
    obtain ⟨shift, hpresent, hduring⟩ := h.of_station (station?_of_running there)
    refine ⟨h.stray, h.past, ?_⟩
    simpa [Roster.read, Happening.sights, station?, hpresent] using sustained.halt hduring
  | rest _ idle => exact h.ended_of_none idle
  | finish _ there ended =>
    exact h.ended_of_station sustained (station?_of_stopping there) ended rfl
  | launch _ idle given made =>
    refine ⟨h.stray, ?_, sustained.opened (known _ given) made e.name scene⟩
    simpa [Roster.read, Happening.sights, Roster.enter, h.of_none idle] using h.past

theorem course {supply : Supply α η σ} (h : rule.Obeyed e r) (sustained : rule.Sustained crews)
    (known : ∀ crew, supply.crews crew → crews crew) {happenings : List (Happening α η σ)}
    (course : Course supply e scene happenings e' scene') :
    rule.Obeyed e' (r.read (happenings.flatMap Happening.sights)) := by
  induction course generalizing r with
  | nil => exact h
  | cons move rest ih =>
    rw [List.flatMap_append, Roster.read_append]
    exact ih (h.move sustained known move)

theorem run (h : rule.Obeyed e r) (sustained : rule.Sustained crews) (scene : Scene σ)
    (calls : List (Call α η σ))
    (known : ∀ crew refusal progress, .start crew refusal progress ∈ calls → crews crew) :
    rule.Obeyed (e.after scene calls).1
      (r.read ((e.chronicle scene calls).flatMap Happening.sights)) := by
  have hcourse := e.chronicle_course scene calls fun _ => Call.within_of_mem
  refine h.course sustained ?_ hcourse
  intro crew ⟨refusal, progress, hmem⟩
  exact known crew refusal progress hmem

end Obeyed

theorem obeyed_of_make (rule : Rule α η σ) {name : String} {config : Config}
    {new : Engine α η σ} (made : Engine.make name config = .ok new) : rule.Obeyed new {} := by
  rw [Engine.make_eq made]
  exact ⟨rfl, by simp, trivial⟩

end Rule
end MessageRing
