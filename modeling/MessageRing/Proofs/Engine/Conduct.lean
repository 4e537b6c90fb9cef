import MessageRing.Proofs.Engine.Sights
import MessageRing.Proofs.Ring.Metrics
import MessageRing.Proofs.Worker.Smooth

/-!
The conduct of a handler over all the workers of an engine.

A handler that keeps nothing to itself follows one conduct from worker to worker: what it has done
to the world is a matter of all its calls since the engine was made. If it never fails then no
failure is ever counted.
-/
namespace MessageRing
variable {α η σ : Type}

namespace Station

/-- The handler follows the conduct, and nothing else of the worker interferes or has failed. -/
structure Minds (s : Station α η σ) (c : Conduct α η σ) (scene : Scene σ)
    (calls : List (HandlerCall α)) : Prop where
  governs : c.Governs s.worker.handler
  discreet : s.worker.exceptions.Discreet
  follows : s.Follows c scene calls
  smooth : s.Smooth

namespace Minds
variable {s s' : Station α η σ} {c : Conduct α η σ} {scene scene' : Scene σ}
  {calls : List (HandlerCall α)}

theorem step (h : s.Minds c scene calls) (graceful : c.Graceful) (aloof : c.Aloof)
    (step : s.step scene = some (s', scene')) :
    s'.Minds c scene' (calls ++ (s.sights s').filterMap Sight.call?) ∧
      (s.sights s').filterMap Sight.item? = [] := by
  have hdoes := step_does step
  obtain ⟨-, hhandler, hexceptions⟩ := hdoes.keeps
  rw [calls_sights, items_sights]
  refine ⟨⟨?_, ?_, hdoes.follows h.governs h.discreet h.follows,
    hdoes.smooth h.follows graceful aloof h.smooth⟩, hdoes.unheard h.follows aloof⟩
  · rw [hhandler]
    exact h.governs
  · rw [hexceptions]
    exact h.discreet

theorem push (h : s.Minds c scene calls) (item : α) :
    Station.Minds { s with ring := (s.ring.push item).2 } c scene calls := by
  refine ⟨h.governs, h.discreet, h.follows, ⟨?_, h.smooth.phase⟩⟩
  exact (congrArg Metrics.handlerFailures (s.ring.push_worked item)).trans h.smooth.counted

theorem halt (h : s.Minds c scene calls) :
    Station.Minds { s with ring := s.ring.halt } c scene calls :=
  ⟨h.governs, h.discreet, h.follows, ⟨h.smooth.counted, h.smooth.phase⟩⟩

theorem bears (h : s.Minds c scene calls) (bears : c.Bears scene.outside scene'.outside) :
    s.Minds c scene' calls :=
  { h with follows := h.follows.bears bears }

theorem idle (h : s.Minds c scene calls) (ended : s.worker.phase.ended = true) :
    c.idle calls s.worker.memory scene.outside :=
  (follows_iff_idle (Phase.turn?_of_ended ended)).mp h.follows

theorem of_opened {config : Config} {metrics : Metrics} {ring : Ring α}
    (made : Ring.make config metrics = .ok ring) (none_failed : metrics.handlerFailures = 0)
    (name : String) {crew : Engine.Crew α η σ} (governs : c.Governs crew.handler)
    (discreet : crew.exceptions.Discreet) (idle : c.idle calls crew.memory scene.outside) :
    (Station.make ring.takeConsumer.2 name crew.handler crew.memory crew.exceptions).Minds c scene
      calls := by
  refine ⟨governs, discreet, idle, ⟨?_, trivial⟩⟩
  obtain ⟨valid, rfl⟩ := Ring.make_eq_ok made
  exact none_failed

end Minds
end Station

namespace Engine

/-- The worker minds the conduct, if there is one, and no failure was counted. -/
def Minds (e : Engine α Unit σ) (c : Conduct α Unit σ) (scene : Scene σ)
    (calls : List (HandlerCall α)) : Prop :=
  match e.status with
  | .stopped metrics | .starting metrics =>
    metrics.handlerFailures = 0 ∧ c.idle calls () scene.outside
  | .running station | .stopping station => station.Minds c scene calls

section Minds
variable {e e' : Engine α Unit σ} {c : Conduct α Unit σ} {scene scene' : Scene σ}
  {calls : List (HandlerCall α)} {happenings : List (Happening α Unit σ)}
  {supply : Supply α Unit σ}

theorem minds_iff_idle (idle : e.station? = none) :
    e.Minds c scene calls ↔
      e.metrics.handlerFailures = 0 ∧ c.idle calls () scene.outside := by
  unfold Minds metrics
  cases hstatus : e.status with
  | stopped metrics | starting metrics => exact Iff.rfl
  | running station | stopping station => simp [station?, hstatus] at idle

theorem minds_iff_there {station : Station α Unit σ} (there : e.station? = some station) :
    e.Minds c scene calls ↔ station.Minds c scene calls := by
  unfold Minds
  cases hstatus : e.status with
  | stopped metrics | starting metrics => simp [station?, hstatus] at there
  | running station' | stopping station' =>
    have hsame : station' = station := by simpa [station?, hstatus] using there
    rw [hsame]

theorem Minds.none_failed (h : e.Minds c scene calls) : e.metrics.handlerFailures = 0 := by
  unfold Minds at h
  unfold metrics
  cases hstatus : e.status with
  | stopped metrics | starting metrics =>
    rw [hstatus] at h
    exact h.1
  | running station | stopping station =>
    rw [hstatus] at h
    exact h.smooth.counted

theorem Minds.bears (h : e.Minds c scene calls) (bears : c.Bears scene.outside scene'.outside) :
    e.Minds c scene' calls := by
  cases hthere : e.station? with
  | none =>
    rw [minds_iff_idle hthere] at h ⊢
    exact ⟨h.1, bears.idle h.2⟩
  | some station =>
    rw [minds_iff_there hthere] at h ⊢
    exact h.bears bears

/-- Publishing calls nobody, and accepts nothing but its item. -/
theorem published_silent (item : α) (answer : Response Int) :
    (Happening.published item answer : Happening α Unit σ).sights.filterMap Sight.call? = [] ∧
      ∀ item' ∈ (Happening.published item answer : Happening α Unit σ).sights.filterMap Sight.item?,
        item' = item := by
  cases answer <;> simp [Happening.sights, Sight.call?, Sight.item?]

/-- Nothing was called. -/
theorem minds_of_silent (h : e.Minds c scene calls)
    (silent : (happenings.flatMap Happening.sights).filterMap Sight.call? = []) :
    e.Minds c scene (calls ++ (happenings.flatMap Happening.sights).filterMap Sight.call?) := by
  rw [silent, List.append_nil]
  exact h

/-- Every move keeps to the conduct, and accepts nothing but what is published. -/
theorem Move.minds (move : Move supply e scene happenings e' scene') (h : e.Minds c scene calls)
    (graceful : c.Graceful) (aloof : c.Aloof) (crews : ∀ crew, supply.crews crew →
      c.Governs crew.handler ∧ crew.exceptions.Discreet) :
    e'.Minds c scene' (calls ++ (happenings.flatMap Happening.sights).filterMap Sight.call?) ∧
      ∀ item ∈ (happenings.flatMap Happening.sights).filterMap Sight.item?, supply.items item := by
  cases move with
  | work there there' step _ =>
    obtain ⟨hminds, hnone⟩ := ((minds_iff_there there).mp h).step graceful aloof step
    rw [List.flatMap_singleton, Happening.sights, hnone]
    exact ⟨(minds_iff_there there').mpr hminds, List.forall_mem_nil _⟩
  | publish _ there known =>
    have hstation := (minds_iff_there (station?_of_running there)).mp h
    obtain ⟨hsilent, hitems⟩ := published_silent (σ := σ) _ _
    refine ⟨minds_of_silent ((minds_iff_there rfl).mpr (hstation.push _)) ?_, fun item hmem => ?_⟩
    · rw [List.flatMap_singleton]
      exact hsilent
    · rw [List.flatMap_singleton] at hmem
      rw [hitems item hmem]
      exact known
  | refuse => exact ⟨minds_of_silent h rfl, List.forall_mem_nil _⟩
  | halt _ there =>
    have hstation := (minds_iff_there (station?_of_running there)).mp h
    exact ⟨minds_of_silent ((minds_iff_there rfl).mpr hstation.halt) rfl, List.forall_mem_nil _⟩
  | withdraw _ there =>
    have hidle := (minds_iff_idle (by simp [station?, there])).mp h
    rw [metrics, there] at hidle
    exact ⟨minds_of_silent ((minds_iff_idle rfl).mpr hidle) rfl, List.forall_mem_nil _⟩
  | rest _ idle => exact ⟨minds_of_silent h rfl, List.forall_mem_nil _⟩
  | finish _ there ended =>
    have hstation := (minds_iff_there (station?_of_stopping there)).mp h
    refine ⟨minds_of_silent ((minds_iff_idle rfl).mpr ?_) rfl, List.forall_mem_nil _⟩
    exact ⟨hstation.smooth.counted, hstation.idle ended⟩
  | launch _ idle known made =>
    obtain ⟨hfailures, hidle⟩ := (minds_iff_idle idle).mp h
    obtain ⟨hgoverns, hdiscreet⟩ := crews _ known
    refine ⟨minds_of_silent ((minds_iff_there rfl).mpr ?_) rfl, List.forall_mem_nil _⟩
    exact .of_opened made hfailures e.name hgoverns hdiscreet hidle
  | breakOff _ idle =>
    exact ⟨minds_of_silent ((minds_iff_idle rfl).mpr ((minds_iff_idle idle).mp h)) rfl,
      List.forall_mem_nil _⟩
  | report => exact ⟨minds_of_silent (h.bears ⟨id, id⟩) rfl, List.forall_mem_nil _⟩

theorem Course.minds (course : Course supply e scene happenings e' scene')
    (h : e.Minds c scene calls) (graceful : c.Graceful) (aloof : c.Aloof)
    (crews : ∀ crew, supply.crews crew → c.Governs crew.handler ∧ crew.exceptions.Discreet) :
    e'.Minds c scene' (calls ++ (happenings.flatMap Happening.sights).filterMap Sight.call?) ∧
      ∀ item ∈ (happenings.flatMap Happening.sights).filterMap Sight.item?, supply.items item := by
  induction course generalizing calls with
  | nil => exact ⟨by simpa using h, List.forall_mem_nil _⟩
  | cons move rest ih =>
    obtain ⟨hmove, hitems⟩ := move.minds h graceful aloof crews
    obtain ⟨hrest, hitems'⟩ := ih hmove
    rw [List.flatMap_append, List.filterMap_append, List.filterMap_append, ← List.append_assoc]
    refine ⟨hrest, fun item hitem => ?_⟩
    exact (List.mem_append.mp hitem).elim (hitems item) (hitems' item)

end Minds
end Engine
end MessageRing
