import MessageRing.Proofs.Engine.Diaries
import MessageRing.Proofs.Engine.Lifecycle
import MessageRing.Proofs.Worker.Journal

/-!
An audit of an engine over all its rings.

A start gives the engine a new ring that counts on from the rings before. When a worker is done
nothing of its ring is left to account for, so the audits of the rings add up.
-/
namespace MessageRing
variable {α η σ : Type}

theorem Tally.eq_empty_of_add_eq {t u : Tally} (h : t + u = t) : u = {} := by
  have hconsumed : t.consumed + u.consumed = t.consumed := congrArg Tally.consumed h
  have hfailures : t.failures + u.failures = t.failures := congrArg Tally.failures h
  cases u
  simp_all

namespace Notice
variable {trace trace' : List (Notice α)}

theorem settled_append_eq (trace trace' : List (Notice α)) :
    settled (trace ++ trace') =
      if (settled trace').isEmpty then settled trace else trace ++ settled trace' := by
  unfold settled List.rdropWhile
  rw [List.reverse_append, List.dropWhile_append, apply_ite List.reverse, List.reverse_append,
    List.reverse_reverse, List.isEmpty_reverse]

/-- When nothing is pending, what is settled later is settled by itself. -/
theorem tally_settled_append (none : tally (pending trace) = {}) :
    tally (settled (trace ++ trace')) = tally (settled trace) + tally (settled trace') := by
  rw [settled_append_eq]
  split_ifs with hempty
  · rw [List.isEmpty_iff.mp hempty]
    rfl
  · rw [tally_append, ← tally_settled trace, none]
    rfl

theorem worked_append (none : tally (pending trace) = {}) :
    worked (trace ++ trace') = worked trace + worked trace' := by
  unfold worked
  rw [tally_settled_append none, countP_released_settled, countP_released_settled,
    countP_released_settled, List.countP_append]
  rfl

theorem tally_pending_append (none : tally (pending trace) = {})
    (none' : tally (pending trace') = {}) : tally (pending (trace ++ trace')) = {} := by
  refine Tally.eq_empty_of_add_eq (t := tally (settled (trace ++ trace'))) ?_
  rw [tally_settled, tally_append, tally_settled_append none, ← tally_settled trace,
    ← tally_settled trace', none, none']
  rfl

end Notice

namespace Instant
variable {seen seen' : List (Instant α)}

theorem audit_append (none : Notice.tally (Notice.pending (trace seen)) = {}) :
    audit (seen ++ seen') = audit seen + audit seen' := by
  unfold audit Metrics.audit
  rw [trace_append, Notice.worked_append none, allNotes_append, Ring.handedIn_append,
    List.length_append, List.countP_append]
  rfl

theorem balanced_nil : Balanced ([] : List (Instant α)) :=
  ⟨rfl, rfl, le_rfl⟩

theorem Balanced.append (h : Balanced seen) (h' : Balanced seen') : Balanced (seen ++ seen') := by
  unfold Balanced at *
  rw [trace_append, allNotes_append]
  refine ⟨Notice.tally_pending_append h.settled h'.settled, ?_, ?_⟩ <;>
    rw [Notice.worked_append h.settled, Ring.handedIn_append, List.length_append]
  · rw [List.countP_append, h.published, h'.published]
    exact Nat.add_add_add_comm _ _ _ _
  · exact Nat.add_le_add h.batches h'.batches

end Instant

/-- What is to be counted with this configuration, by what was seen. -/
def Config.counted (config : Config) (seen : List (Instant α)) : Metrics :=
  if config.metrics then Instant.audit seen else {}

namespace Happening

/-- What there is to see of a happening. A publish that finds no ring shows nothing. -/
def instants : Happening α η (Diary α η σ × σ) → List (Instant α)
  | worked s scene s' scene' => [s.instant scene s' scene']
  | published _ (.refused .notRunning) => []
  | published item answer =>
    [{ notes := Ring.filled (some item) answer, notices := [],
       rejected := answer = .refused .rejected }]
  | halted => [{ notes := [.halted], notices := [], rejected := false }]
  | began _ | ended => []

theorem instants_published (item : α) (answer : Response Int) :
    Instant.allNotes (published item answer : Happening α η (Diary α η σ × σ)).instants =
        Ring.filled (some item) answer ∧
      Instant.trace (published item answer : Happening α η (Diary α η σ × σ)).instants = [] ∧
      (published item answer : Happening α η (Diary α η σ × σ)).instants.countP (·.rejected) =
        if answer = .refused .rejected then 1 else 0 := by
  cases answer with
  | refused error => cases error <;> simp [instants, Instant.allNotes, Instant.trace, Ring.filled]
  | _ => simp [instants, Instant.allNotes, Instant.trace]

end Happening

namespace Station

/-- The recorded worker at a station of an engine, after rings that have nothing left to account
for. -/
structure Audited (s : Station α η (Diary α η σ × σ)) (config : Config)
    (seen : List (Instant α)) : Prop where
  normal : s.worker.exceptions.Normal
  config_eq : s.ring.config = config
  held : s.ring.held = []
  account : ∃ (handler : EventHandler α η σ) (a : Account α η (Diary α η σ × σ))
    (past own : List (Instant α)), a.station = s ∧ seen = past ++ own ∧ Instant.Balanced past ∧
      a.Seen handler (config.counted past) own

namespace Audited
variable {s s' : Station α η (Diary α η σ × σ)} {config : Config} {seen : List (Instant α)}
  {scene scene' : Scene (Diary α η σ × σ)}

theorem of_opened {metrics : Metrics} {ring : Ring α}
    (made : Ring.make config metrics = .ok ring) (counted : metrics = config.counted seen)
    (balanced : Instant.Balanced seen) (name : String) (crew : Engine.Crew α η σ)
    (normal : crew.exceptions.Normal) (scene : Scene (Diary α η σ × σ)) :
    (Station.make ring.takeConsumer.2 name crew.recorded.handler crew.recorded.memory
      crew.recorded.exceptions).Audited config seen := by
  have hopened := Account.openedRecorded_seen made name crew.handler crew.memory crew.exceptions
    scene
  have hfresh := Ring.make_fresh made
  rw [counted] at hopened
  exact ⟨normal.recorded crew.handler, ring.takeConsumer_config.trans (Ring.make_config made),
    (List.append_eq_nil_iff.mp hfresh.outstanding).1, crew.handler,
    Account.openedRecorded ring name crew.handler crew.memory crew.exceptions scene, seen, [], rfl,
    (List.append_nil _).symm, balanced, hopened⟩

theorem step (h : s.Audited config seen) (step : s.step scene = some (s', scene')) :
    s'.Audited config (seen ++ [s.instant scene s' scene']) := by
  obtain ⟨handler, a, past, own, rfl, rfl, hpast, hown⟩ := h.account
  have hdoes := Station.step_does step
  have hcounted := hown.audited.sound.books.counted
  have hpath := hdoes.path hcounted
    (Station.available_le hown.audited.sound.books hown.audited.sound.tells)
  refine ⟨?_, hpath.config_eq.trans h.config_eq, hpath.held_eq_nil hcounted hdoes.prompt h.held,
    handler, _, past, own ++ [a.station.instant scene s' scene'], ?_, List.append_assoc _ _ _,
    hpast, hown.step h.normal step⟩
  · rw [hdoes.keeps.2.2]
    exact h.normal
  · rfl

theorem call (h : s.Audited config seen) (call : Ring.Call α) (other : call.consumes = false)
    (prompt : (Ring.notes (call, (s.ring.answer call).1)).countP Note.gives =
      (Ring.handedIn (Ring.notes (call, (s.ring.answer call).1))).length)
    {more : List (Instant α)}
    (shown : Instant.allNotes more = Ring.notes (call, (s.ring.answer call).1))
    (silent : Instant.trace more = [])
    (rejected : more.countP (·.rejected) = if (s.ring.answer call).1.rejected then 1 else 0) :
    Audited { s with ring := (s.ring.answer call).2 } config (seen ++ more) := by
  obtain ⟨handler, a, past, own, rfl, rfl, hpast, hown⟩ := h.account
  have hcounted := hown.audited.sound.books.counted
  have hpath := Ring.answer_path hcounted call
  exact ⟨h.normal, hpath.config_eq.trans h.config_eq, hpath.held_eq_nil hcounted prompt h.held,
    handler, _, past, own ++ more, rfl, List.append_assoc _ _ _, hpast,
    hown.call call other shown silent rejected⟩

theorem push (h : s.Audited config seen) (item : α) :
    Audited { s with ring := (s.ring.push item).2 } config
      (seen ++ (Happening.published item (s.ring.push item).1 :
        Happening α η (Diary α η σ × σ)).instants) := by
  have hring : (s.ring.answer (.push item)).2 = (s.ring.push item).2 := Ring.reply_ring _ _
  have hnotes := s.ring.notes_push item
  obtain ⟨hshown, hsilent, hrejected⟩ := Happening.instants_published (η := η) (σ := σ) item
    (s.ring.push item).1
  rw [← hring]
  refine h.call (.push item) rfl ?_ (hshown.trans hnotes.symm) hsilent ?_
  · rw [hnotes]
    exact Ring.filled_prompt _ _
  · rw [hrejected]
    exact if_congr (Ring.push_rejected_iff s.ring item).symm rfl rfl

theorem halt (h : s.Audited config seen) :
    Audited { s with ring := s.ring.halt } config
      (seen ++ (Happening.halted : Happening α η (Diary α η σ × σ)).instants) :=
  h.call .halt rfl rfl (Instant.allNotes_singleton _) rfl rfl

theorem metrics (h : s.Audited config seen) : s.ring.metrics = config.counted seen := by
  obtain ⟨handler, a, past, own, rfl, rfl, hpast, hown⟩ := h.account
  have hsettled := (hown.audited.sound.books.counted.settled h.held).1
  have hdeferred := (List.append_eq_nil_iff.mp hsettled).2
  unfold Config.counted at hown ⊢
  cases hmetrics : config.metrics with
  | true =>
    have hon := hown.metrics_of_on (by rw [h.config_eq, hmetrics])
    rw [hdeferred] at hon
    rw [Instant.audit_append hpast.settled]
    simpa [hmetrics] using hon
  | false =>
    have hoff := hown.audited.metrics_of_off (by rw [h.config_eq, hmetrics])
    simpa [hmetrics] using hoff

/-- The ring is as the last notes say. -/
theorem books (h : s.Audited config seen) : ∃ past own, seen = past ++ own ∧
    s.ring.Books (Ledger.read {} (Instant.allNotes own)) := by
  obtain ⟨handler, a, past, own, rfl, hseen, -, hown⟩ := h.account
  exact ⟨past, own, hseen, hown.audited.ledger ▸ hown.audited.sound.books⟩

theorem balanced (h : s.Audited config seen) (drained : s.ring.gating = s.ring.claimed) :
    Instant.Balanced seen := by
  obtain ⟨handler, a, past, own, rfl, rfl, hpast, hown⟩ := h.account
  exact hpast.append (hown.balanced drained)

/-- A worker that has ended has nothing left to account for. -/
theorem ended (h : s.Audited config seen) (ended : s.worker.phase.ended = true) :
    Instant.Balanced seen := by
  refine h.balanced ?_
  obtain ⟨handler, a, past, own, rfl, -, -, hown⟩ := h.account
  exact (hown.audited.sound.finished (hown.audited.sound.tells.finished_of_ended ended)).2

end Audited
end Station

namespace Engine

/-- What there is to see of a run, whatever ring it happens at. -/
def journal (e : Engine α η (Diary α η σ × σ)) (scene : Scene (Diary α η σ × σ))
    (calls : List (Call α η (Diary α η σ × σ))) : List (Instant α) :=
  (e.chronicle scene calls).flatMap Happening.instants

/-- The engine has counted what was seen of it, over all the rings that it has had. -/
def Audited (e : Engine α η (Diary α η σ × σ)) (seen : List (Instant α)) : Prop :=
  match e.status with
  | .stopped metrics | .starting metrics =>
    metrics = e.config.counted seen ∧ Instant.Balanced seen
  | .running station | .stopping station => station.Audited e.config seen

section Audit
variable {e e' : Engine α η (Diary α η σ × σ)} {seen : List (Instant α)}
  {scene scene' : Scene (Diary α η σ × σ)}

theorem audited_iff_idle (idle : e.station? = none) :
    e.Audited seen ↔ e.metrics = e.config.counted seen ∧ Instant.Balanced seen := by
  unfold Audited metrics
  cases hstatus : e.status with
  | stopped metrics | starting metrics => exact Iff.rfl
  | running station | stopping station => simp [station?, hstatus] at idle

theorem audited_iff_there {station : Station α η (Diary α η σ × σ)}
    (there : e.station? = some station) :
    e.Audited seen ↔ station.Audited e.config seen := by
  unfold Audited
  cases hstatus : e.status with
  | stopped metrics | starting metrics => simp [station?, hstatus] at there
  | running station' | stopping station' =>
    have hsame : station' = station := by simpa [station?, hstatus] using there
    rw [hsame]

namespace Audited

theorem metrics_eq (h : e.Audited seen) : e.metrics = e.config.counted seen := by
  unfold Audited at h
  unfold metrics
  cases hstatus : e.status with
  | stopped metrics | starting metrics =>
    rw [hstatus] at h
    exact h.1
  | running station | stopping station =>
    rw [hstatus] at h
    exact h.metrics

theorem balanced (h : e.Audited seen) (drained : ∀ station, e.station? = some station →
    station.ring.gating = station.ring.claimed) : Instant.Balanced seen := by
  cases hthere : e.station? with
  | none => exact ((audited_iff_idle hthere).mp h).2
  | some station => exact ((audited_iff_there hthere).mp h).balanced (drained station hthere)

theorem move {supply : Supply α η (Diary α η σ × σ)}
    {happenings : List (Happening α η (Diary α η σ × σ))} (h : e.Audited seen)
    (crews : ∀ crew, supply.crews crew →
      ∃ inner : Crew α η σ, inner.exceptions.Normal ∧ crew = inner.recorded)
    (move : Move supply e scene happenings e' scene') :
    e'.Audited (seen ++ happenings.flatMap Happening.instants) := by
  cases move with
  | work there there' step config =>
    rw [List.flatMap_singleton, audited_iff_there there', config]
    exact ((audited_iff_there there).mp h).step step
  | publish _ there known =>
    rw [List.flatMap_singleton]
    exact ((audited_iff_there (station?_of_running there)).mp h).push _
  | halt _ there =>
    rw [List.flatMap_singleton]
    exact ((audited_iff_there (station?_of_running there)).mp h).halt
  | withdraw _ there =>
    rw [List.flatMap_nil, List.append_nil]
    rw [Audited, there] at h
    exact h
  | finish _ there ended =>
    -- the worker has given back all that was claimed
    have hstation := (audited_iff_there (station?_of_stopping there)).mp h
    rw [List.flatMap_singleton, Happening.instants, List.append_nil]
    exact ⟨hstation.metrics, hstation.ended ended⟩
  | launch scene idle known made =>
    obtain ⟨hmetrics, hbalanced⟩ := (audited_iff_idle idle).mp h
    obtain ⟨inner, hnormal, rfl⟩ := crews _ known
    rw [List.flatMap_singleton, Happening.instants, List.append_nil]
    exact .of_opened made hmetrics hbalanced e.name inner hnormal scene
  | breakOff _ idle =>
    rw [List.flatMap_nil, List.append_nil]
    exact (audited_iff_idle idle).mp h
  | refuse | rest | report =>
    exact (List.append_nil seen).symm ▸ h

theorem course {supply : Supply α η (Diary α η σ × σ)}
    {happenings : List (Happening α η (Diary α η σ × σ))} (h : e.Audited seen)
    (crews : ∀ crew, supply.crews crew →
      ∃ inner : Crew α η σ, inner.exceptions.Normal ∧ crew = inner.recorded)
    (course : Course supply e scene happenings e' scene') :
    e'.Audited (seen ++ happenings.flatMap Happening.instants) := by
  induction course generalizing seen with
  | nil =>
    rw [List.flatMap_nil, List.append_nil]
    exact h
  | cons move rest ih =>
    rw [List.flatMap_append, ← List.append_assoc]
    exact ih (h.move crews move)

theorem after (h : e.Audited seen) (scene : Scene (Diary α η σ × σ))
    (calls : List (Call α η σ)) (normal : ∀ crew refusal progress,
      .start crew refusal progress ∈ calls → crew.exceptions.Normal) :
    (e.after scene (calls.map Call.recorded)).1.Audited
      (seen ++ e.journal scene (calls.map Call.recorded)) := by
  have hcourse := e.chronicle_course scene (calls.map Call.recorded) fun _ => Call.within_of_mem
  refine h.course ?_ hcourse
  intro crew ⟨refusal, progress, hmem⟩
  obtain ⟨inner, hgiven, hinner⟩ := crew_recorded hmem
  exact ⟨inner, normal inner refusal progress hgiven, hinner⟩

end Audited

theorem make_audited {name : String} {config : Config}
    {new : Engine α η (Diary α η σ × σ)} (made : Engine.make name config = .ok new) :
    new.Audited [] := by
  rw [make_eq made]
  exact ⟨(ite_self _).symm, Instant.balanced_nil⟩

end Audit

/-- The counters account for every sequence.

First, of a ring that a worker drains, whatever else is done to it and to the world; it counts on
from `metrics`, and it is as the notes of the run say. If it counts at all, then as published what
was handed in, save what is kept back because a lower sequence is missing; as consumed the calls of
the handler for items, and as failures those that were reported, both as they were written down in
windows given back; as batches these windows; and as rejected the pushes that were. When all that
was claimed has been given back, everything published was consumed or was empty, and there are no
more batches than sequences.

Second, of an engine, over all the rings it has had; the one it has is as the last notes of the run
say. Nothing is ever kept back there. Both need exception handlers that do not panic. -/
theorem metrics_account_for_all :
    (∀ (config : Config) (metrics : Metrics) (ring : Ring α) (name : String)
        (handler : EventHandler α η σ) (memory : η) (exceptions : ExceptionHandler σ)
        (scene : Scene (Diary α η σ × σ)) (schedule : Nat → Deed α (Diary α η σ × σ)) (n : Nat),
      Ring.make config metrics = .ok ring → exceptions.Normal →
      let opened := Account.openedRecorded ring name handler memory exceptions scene
      let station := (opened.along schedule n).station
      let seen := opened.journal schedule n
      station.ring.Books (Ledger.read {} (Instant.allNotes seen)) ∧
      (config.metrics = true →
        { station.ring.metrics with
          published := station.ring.metrics.published + station.ring.deferred.length } =
            metrics + Instant.audit seen) ∧
      (config.metrics = false → station.ring.metrics = metrics) ∧
      (station.worker.phase = .finished → station.ring.gating = station.ring.claimed) ∧
      (station.ring.gating = station.ring.claimed →
        station.ring.deferred = [] ∧
        (Instant.audit seen).published = (Instant.audit seen).consumed + Instant.empties seen ∧
        (Instant.audit seen).batches ≤ (Instant.audit seen).published)) ∧
    ∀ (name : String) (config : Config) (new : Engine α η (Diary α η σ × σ))
        (scene : Scene (Diary α η σ × σ)) (calls : List (Call α η σ)),
      Engine.make name config = .ok new →
      (∀ crew refusal progress, .start crew refusal progress ∈ calls → crew.exceptions.Normal) →
      let e := (new.after scene (calls.map Call.recorded)).1
      let seen := new.journal scene (calls.map Call.recorded)
      (∀ station, e.station? = some station → ∃ past own, seen = past ++ own ∧
        station.ring.Books (Ledger.read {} (Instant.allNotes own))) ∧
      (config.metrics = true → e.metrics = Instant.audit seen) ∧
      (config.metrics = false → e.metrics = {}) ∧
      ((∀ station, e.station? = some station → station.ring.gating = station.ring.claimed) →
        (Instant.audit seen).published = (Instant.audit seen).consumed + Instant.empties seen ∧
        (Instant.audit seen).batches ≤ (Instant.audit seen).published) := by
  constructor
  · intro config metrics ring name handler memory exceptions scene schedule n made normal opened
      station seen
    have hopened : opened.Seen handler metrics [] :=
      Account.openedRecorded_seen made name handler memory exceptions scene
    have hnormal := normal.recorded handler
    have h : (opened.along schedule n).Seen handler metrics seen :=
      hopened.along hnormal schedule n
    have hsound := h.audited.sound
    have hconfig : station.ring.config = config :=
      (hopened.audited.sound.along_config hnormal schedule n).trans
        (ring.takeConsumer_config.trans (Ring.make_config made))
    rw [← hconfig]
    refine ⟨h.audited.ledger ▸ hsound.books, h.metrics_of_on, h.audited.metrics_of_off,
      fun phase => (hsound.finished phase).2, fun drained =>
        ⟨(List.append_eq_nil_iff.mp (h.audited.outstanding_eq_nil drained)).2, ?_⟩⟩
    have hbalanced := h.balanced drained
    exact ⟨hbalanced.published, hbalanced.batches⟩
  · intro name config new scene calls made normal e seen
    have h : e.Audited seen := (make_audited made).after scene calls normal
    have hconfig : e.config = config := by
      rw [new.after_config, make_eq made]
    have hmetrics := h.metrics_eq
    rw [hconfig, Config.counted] at hmetrics
    refine ⟨fun station hthere => ((audited_iff_there hthere).mp h).books, fun on => ?_,
      fun off => ?_, fun drained => ?_⟩
    · rw [hmetrics, if_pos on]
    · rw [hmetrics, off]
      rfl
    · have hbalanced := h.balanced drained
      exact ⟨hbalanced.published, hbalanced.batches⟩

/-- A full ring of four with claims handed in out of order, one given up and one unwritten, a push
rejected to a caller and one to the handler, which fails for every item. And an engine that is
started twice, is full in between, and whose handler fails once and once leaves a slot empty. -/
theorem metrics_account_for_all_restarted :
    (∃ (ring : Ring Nat) (schedule : Nat → Deed Nat (Diary Nat Unit Unit × Unit))
        (opened : Account Nat Unit (Diary Nat Unit Unit × Unit)) (n : Nat),
      Ring.make { capacity := 4, metrics := true } {} = .ok ring ∧
      (opened.along schedule 6).station.ring.metrics.published = 1 ∧
      (opened.along schedule 6).station.ring.deferred = [2] ∧
      (opened.along schedule n).station.ring.metrics =
        { published := 4, consumed := 2, rejected := 2, handlerFailures := 2, batches := 1 } ∧
      Instant.empties (opened.journal schedule n) = 2 ∧
      (Instant.audit (opened.journal schedule n)).published =
        (Instant.audit (opened.journal schedule n)).consumed +
          Instant.empties (opened.journal schedule n)) ∧
    ∃ (new : Engine Nat Unit (Diary Nat Unit Unit × Unit))
        (scene : Scene (Diary Nat Unit Unit × Unit))
        (run : List (Call Nat Unit (Diary Nat Unit Unit × Unit))),
      Engine.make "worker" { capacity := 2, metrics := true } = .ok new ∧
      (new.after scene run).1.metrics =
        { published := 4, consumed := 3, rejected := 1, handlerFailures := 1, batches := 3 } ∧
      Instant.empties (new.journal scene run) = 1 ∧
      (Instant.audit (new.journal scene run)).published =
        (Instant.audit (new.journal scene run)).consumed +
          Instant.empties (new.journal scene run) := by
  obtain ⟨hring, hengine⟩ := @metrics_account_for_all Nat Unit Unit
  let scene : Scene (Diary Nat Unit Unit × Unit) :=
    { outside := ([], ()), log := [], mint := .spread 0 0 }
  let error : HandlerError := .failed (.text "refused")
  have hnormal : (ExceptionHandler.logging "worker" : ExceptionHandler Unit).Normal :=
    ExceptionHandler.logging_normal "worker"
  constructor
  · let handler : EventHandler Nat Unit Unit :=
      { onEvent := fun item _ _ =>
          if item = 5 then .push (some 9) fun _ => .finish (.failed error)
          else .finish (.failed error) }
    let deeds : List (Deed Nat (Diary Nat Unit Unit × Unit)) :=
      [.call (.push 5) rfl, .call .claim rfl, .call .claim rfl, .call .claim rfl,
        .call (.push 6) rfl, .call (.write 2 7) rfl, .call (.abandon 1) rfl, .call (.publish 3) rfl,
        .work, .work, .work, .work, .work, .work, .work, .work, .call .halt rfl]
    let schedule : Nat → Deed Nat (Diary Nat Unit Unit × Unit) := fun n => deeds[n]?.getD .work
    obtain ⟨ring, hmake, hpublished, hdeferred, haudit, hempties, hdrained⟩ :=
      Ring.exists_make { capacity := 4, metrics := true } {} (fun ring : Ring Nat =>
        let opened := Account.openedRecorded ring "worker" handler () (.logging "worker") scene
        let done := opened.along schedule 60
        (opened.along schedule 6).station.ring.metrics.published = 1 ∧
          (opened.along schedule 6).station.ring.deferred = [2] ∧
          Instant.audit (opened.journal schedule 60) =
            { published := 4, consumed := 2, rejected := 2, handlerFailures := 2, batches := 1 } ∧
          Instant.empties (opened.journal schedule 60) = 2 ∧
          done.station.ring.gating = done.station.ring.claimed) (by decide +kernel)
    generalize 60 = n at haudit hempties hdrained
    obtain ⟨-, hon, -, -, hbalanced⟩ := hring { capacity := 4, metrics := true } {} ring "worker"
      handler () (.logging "worker") scene schedule n hmake hnormal
    obtain ⟨hnone, hsum, -⟩ := hbalanced hdrained
    have hmetrics := hon rfl
    rw [hnone, haudit] at hmetrics
    exact ⟨ring, schedule, _, n, hmake, hpublished, hdeferred, hmetrics, hempties, hsum⟩
  · let crew : Crew Nat Unit Unit :=
      { handler :=
          { onEvent := fun item _ _ =>
              if item = 8 then .push none fun _ => .finish .ok
              else .finish (if item = 6 then .failed error else .ok) }
        memory := ()
        exceptions := .logging "worker" }
    let calls : List (Call Nat Unit Unit) :=
      [.start crew none 0, .publish 5, .publish 6, .publish 7, .work 40, .stop 40,
        .start crew none 0, .publish 8, .work 40, .stop 40]
    let run := calls.map Call.recorded
    let new : Engine Nat Unit (Diary Nat Unit Unit × Unit) :=
      { name := "worker", config := { capacity := 2, metrics := true }, status := .stopped {} }
    have hmake : Engine.make "worker" { capacity := 2, metrics := true } = .ok new :=
      make_of_valid (by decide +kernel) _
    have hcrews : ∀ (crew : Crew Nat Unit Unit) refusal progress,
        .start crew refusal progress ∈ calls → crew.exceptions.Normal := by
      intro crew' refusal progress hmem
      have hcrew : crew' = crew := by
        simp only [calls, List.mem_cons, Call.start.injEq, reduceCtorEq, List.not_mem_nil, or_false,
          false_or] at hmem
        tauto
      rw [hcrew]
      exact hnormal
    have haudit : Instant.audit (new.journal scene run) =
        { published := 4, consumed := 3, rejected := 1, handlerFailures := 1, batches := 3 } := by
      decide +kernel
    have hidle : (new.after scene run).1.station?.isNone = true := by
      decide +kernel
    obtain ⟨-, hon, -, hbalanced⟩ := hengine "worker" _ new scene calls hmake hcrews
    have hdrained := hbalanced fun station hthere => by
      rw [hthere] at hidle
      cases hidle
    exact ⟨new, scene, run, hmake, (hon rfl).trans haudit, by decide +kernel, hdrained.1⟩

end Engine
end MessageRing
