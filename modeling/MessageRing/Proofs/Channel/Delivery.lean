import MessageRing.Channel.Call
import MessageRing.Proofs.Channel.Conduct
import MessageRing.Proofs.Engine.Conduct
import MessageRing.Proofs.Engine.Roster

/-!
Every message that a channel accepts is settled, in the order of acceptance.

The engine hands its handler all that it accepted, and the handler's conduct says what it does with
a message; a stop that returns finds the account of every message closed.
-/
namespace MessageRing
variable {ι π σ : Type}

namespace Channel

/-- The engine's part of a call. -/
def Call.engine? (c : Channel ι π σ) :
    Call ι π σ → Option (Engine.Call (Message π) Unit (Dispatcher ι × σ))
  | .start refusal progress => some (.start c.crew refusal progress)
  | .send message => some (.publish message)
  | .stop progress => some (.stop progress)
  | .stopWithin limit progress => some (.stopWithin limit progress)
  | .work progress => some (.work progress)
  | .dismiss progress => some (.dismiss progress)
  | .subscribe _ | .unsubscribe _ | .world _ => none

theorem work_eq (limit : Nat) (c : Channel ι π σ) (scene : Scene σ) :
    c.work limit scene =
      c.takeBack (c.engine.work limit (c.lend scene)).1 (c.engine.work limit (c.lend scene)).2 := by
  let f (next : Engine (Message π) Unit (Dispatcher ι × σ) × Scene (Dispatcher ι × σ)) :=
    c.takeBack next.1 next.2
  have hsame (next : Engine (Message π) Unit (Dispatcher ι × σ) × Scene (Dispatcher ι × σ)) :
      (f next).1.step (f next).2 = (next.1.step next.2).map f := rfl
  exact advance_map f hsame limit (c.engine, c.lend scene)

/-- A channel with recorded subscribers, in agreement with what was seen of its engine. -/
structure Sound (call : Delivery ι π σ) (errors : ErrorHandler σ)
    (c : Channel ι π (List (Incident ι π) × σ)) (scene : Scene (List (Incident ι π) × σ))
    (seen : List (Sight (Message π) Unit (Dispatcher ι × List (Incident ι π) × σ))) : Prop where
  calling : c.call = call.recorded
  reporting : c.errors = errors.recorded
  kept : c.engine.Kept (Roster.read {} seen)
  minds : c.engine.Minds (conduct call errors) (c.lend scene) (seen.filterMap Sight.call?)

namespace Sound
variable {call : Delivery ι π σ} {errors : ErrorHandler σ}
  {c : Channel ι π (List (Incident ι π) × σ)} {scene : Scene (List (Incident ι π) × σ)}
  {seen : List (Sight (Message π) Unit (Dispatcher ι × List (Incident ι π) × σ))}

/-- What was handed to the handler is a first part of what was accepted, and all of it while there
is no worker. -/
theorem handed (h : c.Sound call errors scene seen) :
    (seen.filterMap Sight.call?).filterMap HandlerCall.item? <+: seen.filterMap Sight.item? ∧
      (c.engine.station? = none →
        (seen.filterMap Sight.call?).filterMap HandlerCall.item? = seen.filterMap Sight.item?) := by
  obtain ⟨-, haccepted, hpassed⟩ := Roster.read_items h.kept.stray
  have haccepted' : (Roster.read {} seen).accepted = seen.filterMap Sight.item? := haccepted
  have hpassed' : (Roster.read {} seen).passed =
    (seen.filterMap Sight.call?).filterMap HandlerCall.item? := hpassed
  rw [← haccepted', ← hpassed']
  exact ⟨h.kept.passed_prefix, h.kept.passed_eq⟩

theorem accounted (h : c.Sound call errors scene seen) :
    ∃ taken, taken <+: seen.filterMap Sight.item? ∧ Accounted taken scene.outside.1 := by
  obtain ⟨hfirst, -⟩ := h.handed
  cases hthere : c.engine.station? with
  | none =>
    exact ⟨_, hfirst, ((Engine.minds_iff_idle hthere).mp h.minds).2.2⟩
  | some station =>
    have hfollows := ((Engine.minds_iff_there hthere).mp h.minds).follows
    cases hturn : station.worker.phase.turn? with
    | none => exact ⟨_, hfirst, ((Station.follows_iff_idle hturn).mp hfollows).2⟩
    | some turn =>
      obtain ⟨earlier, last, hcalls, hbusy⟩ := (Station.follows_iff_busy hturn).mp hfollows
      have hearlier : earlier.filterMap HandlerCall.item? <+: seen.filterMap Sight.item? := by
        rw [hcalls, List.filterMap_append] at hfirst
        exact (List.prefix_append _ _).trans hfirst
      rw [hcalls] at hfirst
      -- until its call is over, the last message is not in the record
      obtain ⟨_, ⟨_, hrecord⟩ | ⟨_, _, _, _, _, hrecord⟩ | ⟨_, hrecord⟩⟩ := hbusy
      · exact ⟨_, hearlier, hrecord⟩
      · exact ⟨_, hearlier, hrecord⟩
      · exact ⟨_, hfirst, hrecord⟩

/-- While there is no worker every message accepted has been settled. -/
theorem accounted_of_none (h : c.Sound call errors scene seen) (idle : c.engine.station? = none) :
    Accounted (seen.filterMap Sight.item?) scene.outside.1 := by
  rw [← h.handed.2 idle]
  exact ((Engine.minds_iff_idle idle).mp h.minds).2.2

theorem answer (h : c.Sound call errors scene seen) (normal : errors.Normal)
    {inner : Engine.Call (Message π) Unit (Dispatcher ι × List (Incident ι π) × σ)}
    {items : Message π → Prop} (within : inner.Within ⟨(· = c.crew), items⟩) :
    let outcome := c.engine.answer (c.lend scene) inner
    let sights := (c.engine.happenings (c.lend scene) inner).flatMap Happening.sights
    (c.takeBack outcome.2.1 outcome.2.2).1.Sound call errors
        (c.takeBack outcome.2.1 outcome.2.2).2 (seen ++ sights) ∧
      ∀ item ∈ sights.filterMap Sight.item?, items item := by
  intro outcome sights
  have hcourse := Engine.answer_course c.engine (c.lend scene) inner within
  have hnormal : ∀ crew, crew = c.crew → crew.exceptions.Normal := by
    rintro _ rfl
    exact ExceptionHandler.logging_normal _
  have hcrew : ∀ crew, crew = c.crew →
      (conduct call errors).Governs crew.handler ∧ crew.exceptions.Discreet := by
    rintro _ rfl
    refine ⟨?_, ExceptionHandler.logging_discreet _⟩
    unfold crew
    rw [h.calling, h.reporting]
    exact conduct_governs normal
  obtain ⟨hminds, hitems⟩ := hcourse.minds h.minds conduct_graceful conduct_aloof hcrew
  refine ⟨⟨h.calling, h.reporting, ?_, ?_⟩, hitems⟩
  · rw [Roster.read_append]
    exact h.kept.course hnormal hcourse
  · rw [List.filterMap_append]
    exact hminds

end Sound

theorem make_sound {name : String} {config : ChannelConfig} {call : Delivery ι π σ}
    {errors : ErrorHandler σ} {new : Channel ι π (List (Incident ι π) × σ)}
    (made : Channel.make name config call.recorded errors.recorded = .ok new) (scene : Scene σ) :
    new.Sound call errors (scene.withOutside ([], scene.outside)) [] := by
  unfold Channel.make at made
  cases hmake : Engine.make name config.ring with
  | error e =>
    rw [hmake] at made
    cases made
  | ok engine =>
    rw [hmake] at made
    cases made
    refine ⟨rfl, rfl, Engine.make_kept hmake, ?_⟩
    rw [Engine.make_eq hmake]
    exact (Engine.minds_iff_idle rfl).mpr ⟨rfl, List.nodup_nil, .nil⟩

/-- A stop that returns without an error leaves no worker. -/
theorem idle_of_stop {c c' : Channel ι π σ} {scene scene' : Scene σ} {limit : Span} {progress : Nat}
    (h : c.stop limit progress scene = (.ok (), c', scene')) : c'.engine.station? = none := by
  have hresult := c.engine.stop_ends limit progress (c.lend scene)
  unfold Channel.stop at h
  generalize c.engine.stop limit progress (c.lend scene) = outcome at h hresult
  obtain ⟨result, engine, scene''⟩ := outcome
  rcases hresult with ⟨hok, hstopped⟩ | herror
  · cases hok
    cases h
    exact Engine.station?_of_stopped hstopped
  · cases herror
    cases h

/-- The messages that a call adds to those accepted. -/
def accepts (c : Channel ι π σ) : Call ι π σ → List (Message π)
  | .send message =>
    match (c.send message).1 with
    | .done () => [message]
    | _ => []
  | _ => []

theorem items_of_send (c : Channel ι π σ) (scene : Scene (Dispatcher ι × σ))
    (message : Message π) :
    ((c.engine.happenings scene (.publish message)).flatMap Happening.sights).filterMap
      Sight.item? = c.accepts (.send message) := by
  unfold accepts send Engine.happenings
  rw [List.flatMap_singleton]
  dsimp only
  cases (c.engine.publish message).1 <;> rfl

section Runs
variable [DecidableEq ι]

theorem next_of_engine {c : Channel ι π σ} {scene : Scene σ} {call : Call ι π σ}
    {inner : Engine.Call (Message π) Unit (Dispatcher ι × σ)} (h : call.engine? c = some inner) :
    c.next scene call = c.takeBack (c.engine.answer (c.lend scene) inner).2.1
      (c.engine.answer (c.lend scene) inner).2.2 := by
  cases call <;> cases h
  case work progress => exact c.work_eq progress scene
  all_goals rfl

/-- The messages for which a send succeeded, in order. -/
def accepted (c : Channel ι π σ) (scene : Scene σ) : List (Call ι π σ) → List (Message π)
  | [] => []
  | call :: calls =>
    let (next, later) := c.next scene call
    c.accepts call ++ next.accepted later calls

namespace Sound
variable {call : Delivery ι π σ} {errors : ErrorHandler σ}
  {c : Channel ι π (List (Incident ι π) × σ)} {scene : Scene (List (Incident ι π) × σ)}
  {seen : List (Sight (Message π) Unit (Dispatcher ι × List (Incident ι π) × σ))}

theorem next (h : c.Sound call errors scene seen) (normal : errors.Normal)
    (step : Call ι π (List (Incident ι π) × σ)) (apart : ∀ change, step = .world change →
      ∀ scene, (change scene).outside.1 = scene.outside.1) :
    ∃ sights, (c.next scene step).1.Sound call errors (c.next scene step).2 (seen ++ sights) ∧
      sights.filterMap Sight.item? = c.accepts step := by
  -- what leaves the engine alone is seen of neither callers nor handler
  have hother {c' : Channel ι π (List (Incident ι π) × σ)}
      {scene' : Scene (List (Incident ι π) × σ)}
      (same : c'.engine = c.engine ∧ c'.call = c.call ∧ c'.errors = c.errors)
      (bears : (conduct call errors).Bears (c.lend scene).outside (c'.lend scene').outside) :
      ∃ sights, c'.Sound call errors scene' (seen ++ sights) ∧
        sights.filterMap Sight.item? = [] := by
    obtain ⟨hengine, hcall, herrors⟩ := same
    refine ⟨[], ?_, rfl⟩
    rw [List.append_nil]
    exact ⟨hcall.trans h.calling, herrors.trans h.reporting, hengine ▸ h.kept,
      hengine ▸ h.minds.bears bears⟩
  have hinner {inner : Engine.Call (Message π) Unit (Dispatcher ι × List (Incident ι π) × σ)}
      (here : step.engine? c = some inner)
      (within : inner.Within ⟨(· = c.crew), fun _ => False⟩) :
      ∃ sights, (c.next scene step).1.Sound call errors (c.next scene step).2 (seen ++ sights) ∧
        sights.filterMap Sight.item? = [] := by
    obtain ⟨hsound, hitems⟩ := h.answer normal within
    rw [next_of_engine here]
    exact ⟨_, hsound, List.eq_nil_iff_forall_not_mem.mpr hitems⟩
  cases step with
  | send message =>
    have hwithin : Engine.Call.Within ⟨(· = c.crew), fun _ => True⟩ (.publish message) := trivial
    obtain ⟨hsound, -⟩ := h.answer normal hwithin
    exact ⟨_, hsound, items_of_send c (c.lend scene) message⟩
  | start refusal progress => exact hinner rfl rfl
  | stop progress => exact hinner rfl trivial
  | stopWithin limit progress => exact hinner rfl trivial
  | work progress => exact hinner rfl trivial
  | dismiss progress => exact hinner rfl trivial
  | subscribe i =>
    exact hother ⟨rfl, rfl, rfl⟩
      (conduct_bears (fun once => c.dispatcher.subscribe_nodup once i) rfl)
  | unsubscribe i =>
    exact hother ⟨rfl, rfl, rfl⟩
      (conduct_bears (fun once => c.dispatcher.unsubscribe_nodup once i) rfl)
  | world change => exact hother ⟨rfl, rfl, rfl⟩ (conduct_bears id (apart change rfl scene))

theorem after (h : c.Sound call errors scene seen) (normal : errors.Normal)
    (calls : List (Call ι π (List (Incident ι π) × σ)))
    (apart : ∀ change, .world change ∈ calls →
      ∀ scene, (change scene).outside.1 = scene.outside.1) :
    ∃ sights, (c.after scene calls).1.Sound call errors (c.after scene calls).2 (seen ++ sights) ∧
      sights.filterMap Sight.item? = c.accepted scene calls := by
  induction calls generalizing c scene seen with
  | nil => exact ⟨[], by rw [List.append_nil]; exact h, rfl⟩
  | cons step calls ih =>
    obtain ⟨sights, hnext, hitems⟩ := h.next normal step fun change he =>
      apart change (he ▸ List.mem_cons_self)
    obtain ⟨sights', hafter, hitems'⟩ := ih hnext fun change hmem =>
      apart change (List.mem_cons_of_mem _ hmem)
    refine ⟨sights ++ sights', by rw [← List.append_assoc]; exact hafter, ?_⟩
    rw [List.filterMap_append, hitems, hitems']
    rfl

end Sound

/-- Every accepted message is settled, in order. Whatever is called and whenever the worker makes
progress, whoever is subscribed, and whether the subscribers take a message, fail or panic: the
record of their calls and of the reports consists of the accounts of the messages accepted first. No
subscriber gets a message twice, and each message either is taken by one subscriber or is reported
once, under its own headers, because there was no subscriber or because all that were tried failed.
By the time a stop returns, and whenever there is no worker, every accepted message has its account.
The ring's own exception handler is never called, and no failure is ever counted. -/
theorem each_message_settled {name : String} {config : ChannelConfig} {call : Delivery ι π σ}
    {errors : ErrorHandler σ} {new : Channel ι π (List (Incident ι π) × σ)}
    (made : Channel.make name config call.recorded errors.recorded = .ok new)
    (normal : errors.Normal) (scene : Scene σ)
    (calls : List (Call ι π (List (Incident ι π) × σ)))
    (apart : ∀ change, .world change ∈ calls →
      ∀ scene, (change scene).outside.1 = scene.outside.1) :
    let start := scene.withOutside ([], scene.outside)
    let run := new.after start calls
    (∃ taken, taken <+: new.accepted start calls ∧ Accounted taken run.2.outside.1) ∧
    (run.1.engine.station? = none → Accounted (new.accepted start calls) run.2.outside.1) ∧
    (∀ limit progress c later, run.1.stop limit progress run.2 = (.ok (), c, later) →
      Accounted (new.accepted start calls) later.outside.1 ∧
        c.engine.metrics.handlerFailures = 0) ∧
    run.1.engine.metrics.handlerFailures = 0 ∧
    ∀ station, run.1.engine.station? = some station → station.worker.phase.Smooth := by
  intro start run
  obtain ⟨seen, hsound, haccepted⟩ := (make_sound made scene).after normal calls apart
  rw [List.nil_append] at hsound
  rw [← haccepted]
  refine ⟨hsound.accounted, hsound.accounted_of_none, ?_, hsound.minds.none_failed, ?_⟩
  · intro limit progress c later hstop
    obtain ⟨sights, hnext, hitems⟩ := hsound.next normal (.stopWithin limit progress) nofun
    have hstopped : run.1.next run.2 (.stopWithin limit progress) = (c, later) :=
      congrArg Prod.snd hstop
    rw [hstopped] at hnext
    have haccounted := hnext.accounted_of_none (idle_of_stop hstop)
    have hquiet : run.1.accepts (.stopWithin limit progress) = [] := rfl
    rw [List.filterMap_append, hitems, hquiet, List.append_nil] at haccounted
    exact ⟨haccounted, hnext.minds.none_failed⟩
  · intro station there
    exact ((Engine.minds_iff_there there).mp hsound.minds).smooth.phase

/-- A message that finds no subscriber, a panic and a failure that are passed over, and after a stop
that gives up, while the next start finishes it, a message that nobody takes. -/
theorem each_message_settled_restarted :
    ∃ (call : Delivery Nat Nat Unit) (errors : ErrorHandler Unit)
      (new : Channel Nat Nat (List (Incident Nat Nat) × Unit)) (scene : Scene Unit)
      (calls : List (Call Nat Nat (List (Incident Nat Nat) × Unit))),
      Channel.make "channel" { ring := { capacity := 4 } } call.recorded errors.recorded = .ok new ∧
      errors.Normal ∧
      (∀ change, .world change ∈ calls → ∀ scene, (change scene).outside.1 = scene.outside.1) ∧
      let start := scene.withOutside ([], scene.outside)
      let run := new.after start calls
      (new.accepted start calls).map (·.payload) = [1, 2, 3, 4, 5] ∧
      (run.2.outside.1.map fun incident => match incident with
        | .tried i message outcome => some (i, message.payload, outcome.isOk)
        | .reported _ _ => none) =
        [none, some (0, 2, false), some (1, 2, true), some (1, 3, false), some (0, 3, true),
          some (0, 4, false), none, some (0, 5, true)] ∧
      Accounted (new.accepted start calls) run.2.outside.1 := by
  let call : Delivery Nat Nat Unit := fun i message =>
    if message.payload % 2 ≠ i then pure (.ok ())
    else if i = 0 then Act.panic .other
    else pure (.error (.text "refused"))
  let errors : ErrorHandler Unit := fun _ _ => pure ()
  let send (n : Nat) : Call Nat Nat (List (Incident Nat Nat) × Unit) := .send ⟨n, .empty⟩
  let calls : List (Call Nat Nat (List (Incident Nat Nat) × Unit)) :=
    [send 9, .start none 0, send 1, .work 40, .subscribe 0, .subscribe 1, send 2, send 3, .work 40,
      .unsubscribe 1, send 4, .stopWithin (.ofSeconds 1) 0, .start none 60, send 5, .stop 60]
  let scene : Scene Unit := { outside := (), log := [], mint := .spread 0 0 }
  have hvalid : Config.validate { capacity := 4 } = .ok () := by
    decide +kernel
  let new : Channel Nat Nat (List (Incident Nat Nat) × Unit) :=
    { engine := { name := "channel", config := { capacity := 4 }, status := .stopped {} }
      dispatcher := .make true (UInt64.size - 1) .roundRobin
      call := call.recorded
      errors := errors.recorded }
  have hmake : Channel.make "channel" { ring := { capacity := 4 } } call.recorded errors.recorded =
      .ok new := by
    simp [Channel.make, Engine.make, hvalid, new]
  have hnormal : errors.Normal := by
    intro error failed scene p scene' h
    cases h
  have hapart : ∀ change, .world change ∈ calls →
      ∀ scene, (change scene).outside.1 = scene.outside.1 := by
    intro change hmem
    simp [calls, send] at hmem
  obtain ⟨-, haccounted, -⟩ := each_message_settled hmake hnormal scene calls hapart
  exact ⟨call, errors, new, scene, calls, hmake, hnormal, hapart, by decide +kernel,
    by decide +kernel, haccounted (Option.isNone_iff_eq_none.mp (by decide +kernel))⟩

end Runs
end Channel
end MessageRing
