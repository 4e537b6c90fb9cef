import MessageRing.Proofs.Engine.Sights
import MessageRing.Proofs.Worker.Diary

/-!
What the handlers of an engine have written down, shift by shift.

In a run of recorded crews the calls can be seen in the diary instead of being derived from the
state of the worker. The roster that is read from there is the other one for every shift that is
over; in the present shift a call that has just begun may be missing.
-/
namespace MessageRing
variable {α η σ : Type}

/-- The same crew in a world with a diary beside it. -/
def Engine.Crew.recorded (crew : Engine.Crew α η σ) : Engine.Crew α η (Diary α η σ × σ) where
  handler := crew.handler.recorded
  memory := crew.memory
  exceptions := crew.exceptions.recorded crew.handler

/-- The same call with a recorded crew. -/
def Engine.Call.recorded : Engine.Call α η σ → Engine.Call α η (Diary α η σ × σ)
  | .start crew refusal progress => .start crew.recorded refusal progress
  | .publish item => .publish item
  | .stop progress => .stop progress
  | .stopWithin limit progress => .stopWithin limit progress
  | .work progress => .work progress
  | .dismiss progress => .dismiss progress

/-- What can be seen of a step by what it has changed: the item that the handler has stored at the
ring, the calls that were written down, and a death. -/
def Station.witnessed (s : Station α η (Diary α η σ × σ)) (scene : Scene (Diary α η σ × σ))
    (s' : Station α η (Diary α η σ × σ)) (scene' : Scene (Diary α η σ × σ)) :
    List (Sight α η (Diary α η σ × σ)) :=
  (s.ring.stored s'.ring).map .accepted ++
    (scene'.outside.1.drop scene.outside.1.length).filterMap
        (fun entry => entry.2.call?.map (.called entry.1.recorded)) ++
      (s'.worker.phase.panic?.map .died).toList

def Happening.witnessed :
    Happening α η (Diary α η σ × σ) → List (Sight α η (Diary α η σ × σ))
  | worked s scene s' scene' => s.witnessed scene s' scene'
  | happening => happening.sights

theorem Happening.witnessed_published (item : α) (answer : Response Int) :
    (published item answer : Happening α η (Diary α η σ × σ)).witnessed =
      (published item answer).sights := rfl

/-- The shift with the calls that were noticed of its recorded handler. -/
def Shift.telling (shift : Shift α η (Diary α η σ × σ)) (handler : EventHandler α η σ)
    (trace : List (Notice α)) : Shift α η (Diary α η σ × σ) :=
  { shift with calls := (trace.filterMap Notice.call?).map (handler.recorded, ·) }

section Steps
variable {shift : Shift α η (Diary α η σ × σ)} {handler : EventHandler α η σ}
  {trace seen : List (Notice α)} {s s' : Station α η (Diary α η σ × σ)}
  {scene scene' : Scene (Diary α η σ × σ)}

/-- What a step adds to its shift beside the calls. -/
def Shift.goOn (shift : Shift α η (Diary α η σ × σ)) (s s' : Station α η (Diary α η σ × σ)) :
    Shift α η (Diary α η σ × σ) :=
  { shift with
    accepted := shift.accepted ++ s.notes.filterMap Note.item?
    died := s'.worker.phase.panic?.or shift.died }

theorem Shift.telling_sights (same : s.worker.handler = handler.recorded) :
    (s.sights s').foldl Shift.see (shift.telling handler trace) =
      (shift.goOn s s').telling handler (trace ++ s.notices) := by
  rw [Station.foldl_sights, same]
  simp [Shift.telling, Shift.goOn, List.filterMap_append]

theorem Shift.telling_witnessed (trails : s.Trails handler trace seen)
    (step : s.step scene = some (s', scene')) :
    (s.witnessed scene s' scene').foldl Shift.see (shift.telling handler seen) =
      (shift.goOn s s').telling handler (seen ++ s.observed scene s' scene') := by
  obtain ⟨added, hadded⟩ := (Station.step_does step).added trails
  have hcalls : (scene'.outside.1.drop scene.outside.1.length).filterMap
      (fun entry => entry.2.call?.map (Sight.called entry.1.recorded)) =
        (added.filterMap Notice.call?).map (.called handler.recorded) := by
    rw [hadded, List.drop_left, List.filterMap_map, List.map_filterMap]
    rfl
  rw [Station.witnessed, hcalls, (Station.step_does step).stored trails.counted,
    List.foldl_append, List.foldl_append, Shift.foldl_accepted, Shift.foldl_called,
    Shift.telling, Shift.telling, List.filterMap_append,
    Station.calls_observed, hadded, Diary.since_append]
  cases hpanic : s'.worker.phase.panic? <;>
    simp [Shift.see, Shift.goOn, Function.comp_def, hpanic]

end Steps

theorem Station.witnessed_work (s s' : Station α η (Diary α η σ × σ))
    (scene scene' : Scene (Diary α η σ × σ)) :
    ∀ sight ∈ s.witnessed scene s' scene', sight.ofWork = true := by
  intro sight hsight
  rcases List.mem_append.mp hsight with h | h
  · rcases List.mem_append.mp h with h | h
    · obtain ⟨_, _, rfl⟩ := List.mem_map.mp h
      rfl
    · obtain ⟨_, _, hcall⟩ := List.mem_filterMap.mp h
      obtain ⟨_, _, rfl⟩ := Option.map_eq_some_iff.mp hcall
      rfl
  · obtain ⟨_, _, rfl⟩ := Option.map_eq_some_iff.mp (Option.mem_toList.mp h)
    rfl

namespace Engine

/-- One roster has the calls that the rules say, and one those that were written down. -/
structure Witnessed (e : Engine α η (Diary α η σ × σ))
    (full seen : Roster α η (Diary α η σ × σ)) : Prop where
  past : seen.past = full.past
  stray : seen.stray = full.stray
  idle : e.station? = none → full.present = none ∧ seen.present = none
  there : ∀ station, e.station? = some station →
    ∃ (shift : Shift α η (Diary α η σ × σ)) (handler : EventHandler α η σ)
      (trace notices : List (Notice α)),
      shift.crew.handler = handler.recorded ∧ station.Trails handler trace notices ∧
        full.present = some (shift.telling handler trace) ∧
        seen.present = some (shift.telling handler notices)

variable {e e' : Engine α η (Diary α η σ × σ)} {full seen : Roster α η (Diary α η σ × σ)}
  {scene scene' : Scene (Diary α η σ × σ)} {supply : Supply α η (Diary α η σ × σ)}
  {happenings : List (Happening α η (Diary α η σ × σ))}

namespace Witnessed

theorem of_none (past : seen.past = full.past) (stray : seen.stray = full.stray)
    (idle : e.station? = none) (hfull : full.present = none) (hseen : seen.present = none) :
    e.Witnessed full seen := by
  refine ⟨past, stray, fun _ => ⟨hfull, hseen⟩, fun station hstation => ?_⟩
  rw [idle] at hstation
  cases hstation

theorem of_station {s : Station α η (Diary α η σ × σ)} (shift : Shift α η (Diary α η σ × σ))
    (past : seen.past = full.past) (stray : seen.stray = full.stray)
    (there : e.station? = some s) {handler : EventHandler α η σ} {trace notices : List (Notice α)}
    (crew : shift.crew.handler = handler.recorded)
    (trails : s.Trails handler trace notices)
    (hfull : full.present = some (shift.telling handler trace))
    (hseen : seen.present = some (shift.telling handler notices)) : e.Witnessed full seen := by
  refine ⟨past, stray, fun hidle => ?_, fun station hstation => ?_⟩
  · rw [there] at hidle
    cases hidle
  · cases there.symm.trans hstation
    exact ⟨shift, handler, trace, notices, crew, trails, hfull, hseen⟩

/-- Both rosters go on alike in an engine whose worker has not moved. -/
theorem beside (h : e.Witnessed full seen) {s : Station α η (Diary α η σ × σ)} (ring : Ring α)
    (there : e.station? = some s) (there' : e'.station? = some { s with ring })
    (path : s.ring.Counted → ∃ notes, s.ring.Path notes ring)
    (still : ring.gating = s.ring.gating) (items : List α) :
    e'.Witnessed (full.read (items.map .accepted)) (seen.read (items.map .accepted)) := by
  obtain ⟨shift, handler, trace, notices, hcrew, htrails, hfull, hseen⟩ := h.there s there
  obtain ⟨_, hpath⟩ := path htrails.counted
  have hwork : ∀ sight ∈ items.map (Sight.accepted (η := η) (σ := Diary α η σ × σ)),
      sight.ofWork = true := by
    intro sight hsight
    obtain ⟨_, _, rfl⟩ := List.mem_map.mp hsight
    rfl
  rw [Roster.read_work hfull hwork, Roster.read_work hseen hwork, Shift.foldl_accepted,
    Shift.foldl_accepted]
  exact of_station { shift with accepted := shift.accepted ++ items } h.past h.stray there' hcrew
    (htrails.beside hpath still) rfl rfl

theorem move (h : e.Witnessed full seen)
    (recorded : ∀ crew, supply.crews crew → ∃ inner : Crew α η σ, crew = inner.recorded)
    (move : Move supply e scene happenings e' scene') :
    e'.Witnessed (full.read (happenings.flatMap Happening.sights))
      (seen.read (happenings.flatMap Happening.witnessed)) := by
  cases move with
  | work there there' step config =>
    obtain ⟨shift, handler, trace, notices, hcrew, htrails, hfull, hseen⟩ := h.there _ there
    rw [List.flatMap_singleton, List.flatMap_singleton, Happening.sights, Happening.witnessed,
      Roster.read_work hfull (Station.sights_work _ _),
      Roster.read_work hseen (Station.witnessed_work _ _ _ _),
      Shift.telling_sights htrails.handler_eq, Shift.telling_witnessed htrails step]
    exact of_station (shift.goOn _ _) h.past h.stray there' hcrew (htrails.step step)
      rfl rfl
  | publish _ there known =>
    rw [List.flatMap_singleton, List.flatMap_singleton, Happening.witnessed_published,
      Happening.sights_published]
    exact h.beside _ (station?_of_running there) rfl (fun counted => ⟨_, Ring.push_path counted _⟩)
      (Ring.spared_gating.push _ _) _
  | refuse | report => exact h
  | @halt s _ there =>
    exact h.beside s.ring.halt (station?_of_running there) rfl
      (fun _ => ⟨_, (Ring.Step.halt _).path⟩) rfl []
  | withdraw _ there =>
    obtain ⟨hfull, hseen⟩ := h.idle (by simp [station?, there])
    exact of_none h.past h.stray rfl hfull hseen
  | rest _ idle =>
    obtain ⟨hfull, hseen⟩ := h.idle idle
    refine of_none ?_ h.stray idle rfl rfl
    simp [Roster.read, Happening.sights, Happening.witnessed, Roster.enter, hfull, hseen, h.past]
  | finish _ there ended =>
    -- an ended worker has no call under way
    obtain ⟨shift, handler, trace, notices, hcrew, htrails, hfull, hseen⟩ :=
      h.there _ (station?_of_stopping there)
    have hsame := htrails.same (Phase.turn?_of_ended ended)
    refine of_none ?_ h.stray rfl rfl rfl
    simp [Roster.read, Happening.sights, Happening.witnessed, Roster.enter, hfull, hseen, hsame,
      h.past]
  | launch _ idle known made =>
    obtain ⟨hfull, hseen⟩ := h.idle idle
    obtain ⟨inner, rfl⟩ := recorded _ known
    refine of_station { crew := inner.recorded } ?_ h.stray rfl rfl
      (.make (Ring.make_counted made) _ inner.handler _ inner.exceptions []) rfl rfl
    simp [Roster.read, Happening.sights, Happening.witnessed, Roster.enter, hfull, hseen, h.past]
  | breakOff _ idle =>
    obtain ⟨hfull, hseen⟩ := h.idle idle
    exact of_none h.past h.stray rfl hfull hseen

theorem course (h : e.Witnessed full seen)
    (recorded : ∀ crew, supply.crews crew → ∃ inner : Crew α η σ, crew = inner.recorded)
    (course : Course supply e scene happenings e' scene') :
    e'.Witnessed (full.read (happenings.flatMap Happening.sights))
      (seen.read (happenings.flatMap Happening.witnessed)) := by
  induction course generalizing full seen with
  | nil => exact h
  | cons move rest ih =>
    rw [List.flatMap_append, List.flatMap_append, Roster.read_append, Roster.read_append]
    exact ih (h.move recorded move)

end Witnessed

theorem crew_recorded {calls : List (Call α η σ)} {crew : Crew α η (Diary α η σ × σ)}
    {refusal : Option String} {progress : Nat}
    (given : .start crew refusal progress ∈ calls.map Call.recorded) :
    ∃ inner : Crew α η σ, .start inner refusal progress ∈ calls ∧ crew = inner.recorded := by
  obtain ⟨call, hmem, hcall⟩ := List.mem_map.mp given
  cases call with
  | start inner refusal' progress' =>
    cases hcall
    exact ⟨inner, hmem, rfl⟩
  | _ => cases hcall

/-- In a run of recorded crews both rosters are kept. -/
theorem witnessed_of_make {name : String} {config : Config}
    {new : Engine α η (Diary α η σ × σ)} (made : Engine.make name config = .ok new)
    (scene : Scene (Diary α η σ × σ)) (calls : List (Call α η σ)) :
    (new.after scene (calls.map Call.recorded)).1.Witnessed
      (.read {} ((new.chronicle scene (calls.map Call.recorded)).flatMap Happening.sights))
      (.read {} ((new.chronicle scene (calls.map Call.recorded)).flatMap
        Happening.witnessed)) := by
  have hnew : new.Witnessed {} {} := by
    rw [make_eq made]
    exact .of_none rfl rfl rfl rfl rfl
  have hcourse := new.chronicle_course scene (calls.map Call.recorded) fun _ => Call.within_of_mem
  refine hnew.course ?_ hcourse
  intro crew ⟨refusal, progress, hmem⟩
  obtain ⟨inner, -, hinner⟩ := crew_recorded hmem
  exact ⟨inner, hinner⟩

end Engine
end MessageRing
