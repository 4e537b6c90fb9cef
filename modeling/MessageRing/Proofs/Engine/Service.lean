import MessageRing.Proofs.Engine.Capacity
import MessageRing.Proofs.Engine.Lifecycle
import MessageRing.Proofs.Engine.Shifts
import MessageRing.Proofs.Worker.Audit
import MessageRing.Proofs.Worker.Pace

/-!
Workers in the service of others.

A worker whose handler leaves the ring alone is brought forward by its own steps and by what others
do at its station: they push items, halt the ring and act on the world. `Serves` is kept by each of
these. By the end of its work such a worker has been given all that was accepted and has counted it,
after a number of steps that depends on how much was accepted and on nothing else.
-/
namespace MessageRing
variable {α η σ : Type}

/-- A push that may wait does so only while no slot is free, if no claim stands in its way. -/
theorem Ring.push_of_block {r : Ring α} (h : r.Counted) (running : r.halted = false)
    (none : r.held = []) (blocks : r.config.whenFull = .block) (item : α) :
    (∃ s, (r.push item).1 = .done s) ∨ ((r.push item).1 = .waits ∧ r.remaining = 0) := by
  have hpolicy : r.claimForPush = r.claimBlocking := by rw [claimForPush, blocks]
  have hpush (s : Int) : (r.push item).1 = .done s ↔ r.claimForPush.1 = .done s :=
    complete_done_iff h (h.settled none).1 (some item) (claimForPush_path h)
      fun _ => mem_held_of_claimForPush h
  rcases tryClaim_cases h with ⟨hhalted, _⟩ | ⟨_, hfull, htry, _⟩ | ⟨_, _, _, hbusy, _⟩ |
    ⟨_, _, _, htry, _⟩
  · rw [hhalted] at running
    cases running
  · have hwaits : r.claimForPush = (.waits, r) := by
      rw [hpolicy]
      rcases claimBlocking_cases r with ⟨_, he⟩ | ⟨hne, _⟩
      · exact he
      · exact absurd htry hne
    have hremaining := h.remaining_eq
    refine .inr ⟨?_, by omega⟩
    rw [push, hwaits]
    rfl
  · exact absurd none hbusy
  · exact .inl ⟨_, (hpush _).mpr ((claimForPush_done_iff r).mpr htry)⟩

/-- An item for every claim. -/
theorem Ledger.Full.length_accepted {l : Ledger α} (h : l.Full) :
    l.accepted.length = l.claims.length := by
  rw [accepted, List.length_filterMap_eq_countP, List.countP_eq_length]
  exact fun s hs => Option.isSome_iff_ne_none.mpr (h s hs)

/-- A worker's place: how its ring is set up, and its handler, whose calls consist of so many acts on
the world at most. -/
structure Post (α η σ : Type) where
  config : Config
  handler : EventHandler α η σ
  acts : Nat
  within : handler.Within acts

/-- What a worker does to the world there. -/
structure Duty (α η σ : Type) extends Post α η σ where
  conduct : Conduct α η σ
  governs : conduct.Governs handler

/-- The most steps that a worker takes there, by the number of items. -/
def Post.bound (post : Post α η σ) (items : Nat) : Nat := (post.acts + 1) * (5 * items + 4)

namespace Station

theorem Follows.elsewhere {s : Station α η σ} {c : Conduct α η σ} {scene scene' : Scene σ}
    {calls : List (HandlerCall α)} (h : s.Follows c scene calls)
    (same : scene'.outside = scene.outside) : s.Follows c scene' calls := by
  unfold Follows at h ⊢
  rw [same]
  exact h

/-- A worker on duty, since it and its ring were new: these items were accepted, and it has taken so
many steps. -/
structure Serves (s : Station α η σ) (duty : Duty α η σ) (outside : σ) (accepted : List α)
    (taken : Nat) : Prop where
  config : s.ring.config = duty.config
  handler : s.worker.handler = duty.handler
  logs : ∃ name, s.worker.exceptions = .logging name
  prompt : s.ring.held = []
  due : ∃ n, s.Due duty.acts n ∧ taken + n ≤ duty.bound accepted.length
  account : ∃ (a : Account α η σ) (notes : List (Note α)) (rejected : Nat), a.station = s ∧
    a.Audited {} notes rejected ∧ a.ledger.accepted = accepted ∧ a.ledger.Full ∧
    ∀ scene : Scene σ, scene.outside = outside → s.Follows duty.conduct scene a.calls

namespace Serves
variable {s s' : Station α η σ} {duty duty' : Duty α η σ} {taken : Nat} {outside outside' : σ}
  {accepted : List α} {scene scene' : Scene σ}

theorem governs (h : s.Serves duty outside accepted taken) :
    duty.conduct.Governs s.worker.handler := by
  rw [h.handler]
  exact duty.governs

theorem normal (h : s.Serves duty outside accepted taken) : s.worker.exceptions.Normal := by
  obtain ⟨name, hname⟩ := h.logs
  rw [hname]
  exact ExceptionHandler.logging_normal name

theorem discreet (h : s.Serves duty outside accepted taken) : s.worker.exceptions.Discreet := by
  obtain ⟨name, hname⟩ := h.logs
  rw [hname]
  exact ExceptionHandler.logging_discreet name

theorem counted (h : s.Serves duty outside accepted taken) : s.ring.Counted := by
  obtain ⟨a, notes, rejected, rfl, haudited, -⟩ := h.account
  exact haudited.sound.books.counted

theorem taken_le (h : s.Serves duty outside accepted taken) :
    taken ≤ duty.bound accepted.length := by
  obtain ⟨n, -, hn⟩ := h.due
  omega

/-- Every sequence has an item, and all are visible. -/
theorem length_accepted (h : s.Serves duty outside accepted taken) :
    (accepted.length : Int) = s.ring.claimed + 1 ∧ s.ring.cursor = s.ring.claimed := by
  obtain ⟨a, notes, rejected, rfl, haudited, rfl, hfull, -⟩ := h.account
  have hcounted := haudited.sound.books.counted
  have hsettled := (hcounted.settled h.prompt).2
  have hstart := hcounted.start
  have hgating := hcounted.gating_le
  rw [hfull.length_accepted, haudited.sound.books.claims, length_sequences]
  omega

theorem of_opened {ring : Ring α} (made : Ring.make duty.config {} = .ok ring)
    (name worker : String) {memory : η} (idle : duty.conduct.idle [] memory outside) :
    (Station.make ring.takeConsumer.2 name duty.handler memory (.logging worker)).Serves duty
      outside [] 0 := by
  have haudited (scene : Scene σ) :=
    Account.opened_audited made name duty.handler memory (.logging worker) scene
  obtain ⟨valid, rfl⟩ := Ring.make_eq_ok made
  refine ⟨rfl, rfl, ⟨worker, rfl⟩, rfl, ⟨_, ⟨duty.within, 0, Nat.zero_le _, ?_, le_rfl⟩, ?_⟩,
    _, [], 0, rfl, haudited ⟨outside, [], .spread 0 0⟩, rfl, ?_, ?_⟩
  · intro turn here
    cases here
  · exact (Nat.zero_add _).le
  · intro s hs
    cases hs
  · rintro scene rfl
    exact idle

/-- Each step of the worker is counted and accepts nothing. -/
theorem step (h : s.Serves duty scene.outside accepted taken)
    (step : s.step scene = some (s', scene')) :
    s'.Serves duty scene'.outside accepted (taken + 1) ∧ s'.ring.halted = s.ring.halted := by
  obtain ⟨n, hdue, hn⟩ := h.due
  obtain ⟨a, notes, rejected, rfl, haudited, haccepted, hfull, hfollows⟩ := h.account
  have hdoes := step_does step
  have hbooks := haudited.sound.books
  have htells := haudited.sound.tells
  have hpath := hdoes.path hbooks.counted (available_le hbooks htells)
  have hunproduced := hdue.unproduced hdoes
  obtain ⟨-, hhandler, hexceptions⟩ := hdoes.keeps
  refine ⟨⟨?_, ?_, ?_, ?_, ?_, ?_⟩, hdue.halted_eq hdoes⟩
  · exact hpath.config_eq.trans h.config
  · exact hhandler.trans h.handler
  · rw [hexceptions]
    exact h.logs
  · exact hpath.held_eq_nil hbooks.counted hdoes.prompt h.prompt
  · obtain ⟨m, hlt, hdue'⟩ := hdue.step hdoes hbooks htells
    exact ⟨m, hdue', by omega⟩
  · refine ⟨_, _, _, rfl, haudited.step h.normal step, ?_, ?_, ?_⟩
    · have hitems : a.station.notes.filterMap Note.item? = [] := by
        refine List.filterMap_eq_nil_iff.mpr fun note hnote => ?_
        have hconsumer := hunproduced note hnote
        cases note <;> first | rfl | cases hconsumer
      refine (hdoes.accepted hbooks).trans ?_
      rw [hitems, List.append_nil, haccepted]
    · exact hdoes.full hfull fun t ht => by cases hunproduced _ ht
    · intro scene₂ same
      refine Follows.elsewhere ?_ same
      rw [Account.calls, List.filterMap_append]
      exact hdoes.follows h.governs h.discreet (hfollows scene rfl)

/-- A push that succeeds adds its item. -/
theorem push (h : s.Serves duty outside accepted taken) {item : α} {n : Int}
    (done : (s.ring.push item).1 = .done n) :
    Serves { s with ring := (s.ring.push item).2 } duty outside (accepted ++ [item]) taken := by
  obtain ⟨steps, hdue, hsteps⟩ := h.due
  obtain ⟨a, notes, rejected, rfl, haudited, haccepted, hfull, hfollows⟩ := h.account
  have hbooks := haudited.sound.books
  have hpath := Ring.push_path hbooks.counted item
  have hprompt : (a.station.ring.push item).2.held = [] :=
    hpath.held_eq_nil hbooks.counted (Ring.filled_prompt _ _) h.prompt
  obtain ⟨hstation, hledger⟩ := a.next_push item
  refine ⟨hpath.config_eq.trans h.config, h.handler, h.logs, hprompt, ?_, ?_⟩
  · -- one more sequence has become visible
    have hclaimed := hpath.claimed_eq
    rw [done] at hclaimed
    have hsettled := (hbooks.counted.settled h.prompt).2
    have hsettled' := ((hpath.counted hbooks.counted).settled hprompt).2
    have hcursor : (a.station.ring.push item).2.cursor ≤ a.station.ring.cursor + 1 := by
      rw [hsettled', hclaimed, hsettled]
      exact le_rfl
    refine ⟨_, hdue.ring hcursor, ?_⟩
    rw [List.length_append, List.length_singleton, Post.bound]
    rw [Post.bound] at hsteps
    linarith
  · refine ⟨_, _, _, hstation, haudited.call (.push item) rfl, ?_, ?_, fun scene same => ?_⟩
    · rw [hledger, Ledger.accepted_filled hpath hbooks, haccepted, done]
      rfl
    · rw [hledger]
      refine hfull.filled fun t ht => ?_
      rw [done] at ht
      simp [Ring.filled] at ht
    · exact hfollows scene same

theorem halt (h : s.Serves duty outside accepted taken) :
    Serves { s with ring := s.ring.halt } duty outside accepted taken := by
  obtain ⟨n, hdue, hn⟩ := h.due
  obtain ⟨a, notes, rejected, rfl, haudited, haccepted, hfull, hfollows⟩ := h.account
  exact ⟨h.config, h.handler, h.logs, h.prompt, ⟨n, ⟨hdue.handler, hdue.turn⟩, hn⟩,
    _, _, _, rfl, haudited.call .halt rfl, haccepted, hfull, hfollows⟩

/-- Others act on the world, and the same handler goes on with another conduct. -/
theorem change (h : s.Serves duty outside accepted taken) (same : duty'.toPost = duty.toPost)
    (idle : ∀ calls memory, duty.conduct.idle calls memory outside →
      duty'.conduct.idle calls memory outside')
    (busy : ∀ calls call turn memory, duty.conduct.busy calls call turn memory outside →
      duty'.conduct.busy calls call turn memory outside') :
    s.Serves duty' outside' accepted taken := by
  obtain ⟨n, hdue, hn⟩ := h.due
  obtain ⟨a, notes, rejected, rfl, haudited, haccepted, hfull, hfollows⟩ := h.account
  refine ⟨?_, ?_, h.logs, h.prompt, ⟨n, ?_⟩, a, notes, rejected, rfl, haudited, haccepted, hfull, ?_⟩
  · rw [same]
    exact h.config
  · rw [same]
    exact h.handler
  · rw [same]
    exact ⟨hdue, hn⟩
  · rintro scene rfl
    have hthere := hfollows (scene.withOutside outside) rfl
    cases hturn : a.station.worker.phase.turn? with
    | none => exact (follows_iff_idle hturn).mpr (idle _ _ ((follows_iff_idle hturn).mp hthere))
    | some turn =>
      obtain ⟨earlier, call, hcalls, hbusy⟩ := (follows_iff_busy hturn).mp hthere
      exact (follows_iff_busy hturn).mpr ⟨earlier, call, hcalls, busy _ _ _ _ hbusy⟩

/-- The handler has been called for the first of the items, and the last call may be under way. -/
theorem conducts (h : s.Serves duty outside accepted taken) :
    ∃ calls, calls.filterMap HandlerCall.item? <+: accepted ∧
      (s.worker.phase.turn? = none ∧ duty.conduct.idle calls s.worker.memory outside ∨
        ∃ earlier call turn, s.worker.phase.turn? = some turn ∧ calls = earlier ++ [call] ∧
          duty.conduct.busy earlier call turn s.worker.memory outside) := by
  obtain ⟨a, notes, rejected, rfl, haudited, rfl, -, hfollows⟩ := h.account
  have hthere := hfollows ⟨outside, [], .spread 0 0⟩ rfl
  refine ⟨a.calls, haudited.sound.given_prefix, ?_⟩
  cases hturn : a.station.worker.phase.turn? with
  | none => exact .inl ⟨rfl, (follows_iff_idle hturn).mp hthere⟩
  | some turn =>
    obtain ⟨earlier, call, hcalls, hbusy⟩ := (follows_iff_busy hturn).mp hthere
    exact .inr ⟨earlier, call, turn, rfl, hcalls, hbusy⟩

/-- A worker that need not finish a turn has come to its end, or it waits for items while all slots
are free. -/
theorem stuck_idle (h : s.Serves duty scene.outside accepted taken)
    (idle : s.worker.phase.turn? = none) (waits : s.step scene = none) :
    (s.ring.halted = true ∧ s.worker.phase = .finished) ∨
    (s.ring.halted = false ∧ s.ring.remaining = s.ring.capacity) := by
  obtain ⟨name, hlogs⟩ := h.logs
  obtain ⟨-, hvisible⟩ := h.length_accepted
  obtain ⟨a, notes, rejected, rfl, haudited, -⟩ := h.account
  have hbooks := haudited.sound.books
  by_cases hfinished : a.station.worker.phase = .finished
  · exact .inl ⟨(haudited.sound.closed (by rw [hfinished]; rfl)).1, hfinished⟩
  right
  have hinside : a.station.worker.phase.outside = false := by
    cases phase : a.station.worker.phase with
    | starting _ | handling _ _ _ _ | stopping _ => simp [phase, Phase.turn?] at idle
    | reporting _ _ _ _ => simp [Station.step, phase, hlogs, ExceptionHandler.logging,
        Act.report] at waits
    | _ => rfl
  obtain ⟨-, hwait⟩ := waits_of_step haudited.sound.tells hinside hfinished waits
  obtain ⟨hhidden, hopen⟩ := Ring.waitFor_eq_waits_iff.mp hwait
  have hnext : a.ledger.released + 1 = a.station.worker.next := haudited.sound.tells.released
  have hreleased := hbooks.released
  have hgating := hbooks.counted.gating_le
  have hremaining := hbooks.counted.remaining_eq
  refine ⟨?_, by omega⟩
  exact Bool.eq_false_iff.mpr fun hhalted => hopen ⟨hhalted, by omega⟩

/-- A worker that cannot go on has come to its end, or it waits for items while all slots are free, or
an act of its handler has to wait. -/
theorem stuck (h : s.Serves duty scene.outside accepted taken) (waits : s.step scene = none) :
    (s.ring.halted = true ∧ s.worker.phase = .finished) ∨
    (s.ring.halted = false ∧ s.ring.remaining = s.ring.capacity) ∨
    ∃ calls call run, (calls ++ [call]).filterMap HandlerCall.item? <+: accepted ∧
      duty.conduct.busy calls call (.access run) s.worker.memory scene.outside ∧
      run (s.worker.memory, scene) = none := by
  obtain ⟨_, hfirst, ⟨hidle, -⟩ | ⟨earlier, call, turn, hturn, rfl, hbusy⟩⟩ := h.conducts
  · exact (h.stuck_idle hidle waits).imp_right .inl
  · obtain ⟨n, hdue, -⟩ := h.due
    rcases (hdue.within hturn).cases_on with ⟨outcome, rfl⟩ | ⟨run, rfl⟩
    · cases phase : s.worker.phase <;> simp [phase, Phase.turn?] at hturn <;>
        simp [Station.step, phase, hturn] at waits
    · refine .inr (.inr ⟨earlier, call, run, hfirst, hbusy, ?_⟩)
      cases phase : s.worker.phase <;> simp [phase, Phase.turn?] at hturn <;>
        simpa [Station.step, phase, hturn, Station.move, Turn.move] using waits

/-- By its end the handler has been called for all items and then to shut down. -/
theorem finished (h : s.Serves duty outside accepted taken)
    (ended : s.worker.phase.ended = true) :
    ∃ earlier, (earlier ++ [.shutdown]).filterMap HandlerCall.item? = accepted ∧
      duty.conduct.idle (earlier ++ [.shutdown]) s.worker.memory outside := by
  obtain ⟨a, notes, rejected, rfl, haudited, rfl, -, hfollows⟩ := h.account
  have hphase := haudited.sound.tells.finished_of_ended ended
  obtain ⟨outcome, windows, last, -, htrace⟩ := (haudited.sound.tells.at hphase).told
  have hclosing : (Notice.closing (α := α) a.station.worker.name last
      a.station.worker.handled).filterMap Notice.call? = [.shutdown] := by
    simp [Notice.closing, List.filterMap_cons, List.filterMap_map, Notice.call?]
  obtain ⟨earlier, hcalls⟩ : ∃ earlier, a.calls = earlier ++ [.shutdown] := by
    rw [Account.calls, htrace, List.filterMap_append, hclosing]
    exact ⟨_, rfl⟩
  refine ⟨earlier, ?_, ?_⟩
  · rw [← hcalls]
    exact haudited.sound.given_eq hphase
  · rw [← hcalls]
    exact (hfollows ⟨outside, [], .spread 0 0⟩ rfl).idle hphase rfl

/-- By then it has counted them. -/
theorem metrics (h : s.Serves duty outside accepted taken) (ended : s.worker.phase.ended = true)
    (on : duty.config.metrics = true) :
    s.ring.metrics.published = accepted.length ∧ s.ring.metrics.consumed = accepted.length := by
  obtain ⟨hlength, -⟩ := h.length_accepted
  obtain ⟨a, notes, rejected, rfl, haudited, rfl, hfull, -⟩ := h.account
  have hphase := haudited.sound.tells.finished_of_ended ended
  obtain ⟨hdrained, hgating⟩ := haudited.sound.finished hphase
  have hmetrics := haudited.metrics_of_on (by rw [h.config]; exact on)
  have hdeferred := (List.append_eq_nil_iff.mp (haudited.outstanding_eq_nil hgating)).2
  rw [hdeferred] at hmetrics
  have hpublished : a.station.ring.metrics.published = 0 + (Ring.handedIn notes).length :=
    congrArg Metrics.published hmetrics
  have hconsumed : a.station.ring.metrics.consumed = 0 + (Notice.worked a.trace).consumed :=
    congrArg Metrics.consumed hmetrics
  -- every sequence was handed in, and no slot was found empty
  have hhanded := haudited.handed
  rw [Ring.handed, h.prompt, List.length_nil] at hhanded
  have hgiven := congrArg List.length
    ((Notice.items_events a.trace).trans (haudited.sound.given_eq hphase))
  rw [List.length_map] at hgiven
  have htaken := haudited.taken
  have hall : a.ledger.drained.length = (a.station.ring.claimed + 1).toNat := by
    rw [hdrained, Account.claimed, List.length_map, length_sequences]
  have hbalanced := (haudited.balanced hgating).published
  omega

end Serves
end Station

namespace Engine

/-- The engine has had one worker, in service; it is stopping if the ring was halted, else running. -/
def Serves (e : Engine α η σ) (halted : Bool) (duty : Duty α η σ) (outside : σ)
    (accepted : List α) (taken : Nat) : Prop :=
  e.config = duty.config ∧
    ∃ s : Station α η σ, e.status = (if halted then .stopping s else .running s) ∧
      s.ring.halted = halted ∧ s.Serves duty outside accepted taken

namespace Serves
variable {e e' : Engine α η σ} {halted : Bool} {duty duty' : Duty α η σ} {taken : Nat}
  {outside outside' : σ} {accepted : List α} {scene scene' : Scene σ}

theorem station? {s : Station α η σ}
    (status : e.status = if halted then .stopping s else .running s) : e.station? = some s := by
  cases halted <;> simp [Engine.station?, status]

theorem taken_le (h : e.Serves halted duty outside accepted taken) :
    taken ≤ duty.bound accepted.length := by
  obtain ⟨-, s, -, -, hserves⟩ := h
  exact hserves.taken_le

theorem of_start {memory : η} (able : e.Able) (fresh : e.status = .stopped {})
    (config : e.config = duty.config) (idle : duty.conduct.idle [] memory scene.outside)
    (name : String) (progress : Nat) :
    ∃ e', e.start ⟨duty.handler, memory, .logging name⟩ none progress scene = (.ok (), e', scene) ∧
      e'.Serves false duty scene.outside [] 0 := by
  have hmetrics : e.metrics = {} := by rw [metrics, fresh]
  obtain ⟨ring, hmake⟩ := able.exists_make e.metrics
  have hlaunch := launch_of_make able.named hmake ⟨duty.handler, memory, .logging name⟩ none
  rw [hmetrics, config] at hmake
  refine ⟨{ e with status := .running (Station.make ring.takeConsumer.2 e.name duty.handler memory
    (.logging name)) }, ?_, config, _, rfl, ?_, .of_opened hmake e.name name idle⟩
  · simp only [start, fresh, hlaunch]
  · obtain ⟨valid, rfl⟩ := Ring.make_eq_ok hmake
    rfl

theorem step (h : e.Serves halted duty scene.outside accepted taken)
    (step : e.step scene = some (e', scene')) :
    e'.Serves halted duty scene'.outside accepted (taken + 1) := by
  obtain ⟨hconfig, s, hstatus, hhalted, hserves⟩ := h
  unfold Engine.step at step
  cases halted <;> rw [hstatus] at step <;> obtain ⟨⟨s', _⟩, hstep, he⟩ :=
    Option.map_eq_some_iff.mp step <;> cases he <;>
    obtain ⟨hnext, hhalted'⟩ := hserves.step hstep <;>
    exact ⟨hconfig, s', rfl, hhalted'.trans hhalted, hnext⟩

/-- Where a full ring makes callers wait, that alone keeps an item from being accepted. -/
theorem publish (h : e.Serves false duty outside accepted taken)
    (blocks : duty.config.whenFull = .block) (item : α) :
    (∃ n e', e.publish item = (.done n, e') ∧
      e'.Serves false duty outside (accepted ++ [item]) taken) ∨
    ((e.publish item).1 = .waits ∧ e.remaining? = some 0) := by
  obtain ⟨hconfig, s, hstatus, hhalted, hserves⟩ := h
  have hpublish : e.publish item = ((s.ring.push item).1,
      { e with status := .running { s with ring := (s.ring.push item).2 } }) := by
    unfold Engine.publish
    rw [hstatus]
    rfl
  rw [hpublish]
  have hblocks : s.ring.config.whenFull = .block := by
    rw [hserves.config]
    exact blocks
  rcases Ring.push_of_block hserves.counted hhalted hserves.prompt hblocks item with
    ⟨n, hdone⟩ | ⟨hwaits, hfull⟩
  · refine .inl ⟨n, _, Prod.ext hdone rfl, hconfig, _, rfl, ?_, hserves.push hdone⟩
    exact (Ring.spared_halted.push s.ring item).trans hhalted
  · refine .inr ⟨hwaits, ?_⟩
    rw [remaining?, station? hstatus, Option.map_some, hfull]

theorem halt (h : e.Serves false duty outside accepted taken) :
    e.halt.Serves true duty outside accepted taken := by
  obtain ⟨hconfig, s, hstatus, hhalted, hserves⟩ := h
  unfold Engine.halt
  rw [hstatus]
  exact ⟨hconfig, _, rfl, rfl, hserves.halt⟩

theorem change (h : e.Serves halted duty outside accepted taken)
    (same : duty'.toPost = duty.toPost)
    (idle : ∀ calls memory, duty.conduct.idle calls memory outside →
      duty'.conduct.idle calls memory outside')
    (busy : ∀ calls call turn memory, duty.conduct.busy calls call turn memory outside →
      duty'.conduct.busy calls call turn memory outside') :
    e.Serves halted duty' outside' accepted taken := by
  obtain ⟨hconfig, s, hstatus, hhalted, hserves⟩ := h
  exact ⟨by rw [same]; exact hconfig, s, hstatus, hhalted, hserves.change same idle busy⟩

theorem conducts (h : e.Serves halted duty outside accepted taken) :
    ∃ calls memory, calls.filterMap HandlerCall.item? <+: accepted ∧
      (duty.conduct.idle calls memory outside ∨
        ∃ earlier call turn, calls = earlier ++ [call] ∧
          duty.conduct.busy earlier call turn memory outside) := by
  obtain ⟨-, s, -, -, hserves⟩ := h
  obtain ⟨calls, hfirst, ⟨-, hidle⟩ | ⟨earlier, call, turn, -, hcalls, hbusy⟩⟩ := hserves.conducts
  · exact ⟨calls, s.worker.memory, hfirst, .inl hidle⟩
  · exact ⟨calls, s.worker.memory, hfirst, .inr ⟨earlier, call, turn, hcalls, hbusy⟩⟩

/-- An engine that cannot go on is done, or all of its slots are free, or an act of its handler has to
wait. -/
theorem stuck (h : e.Serves halted duty scene.outside accepted taken)
    (waits : e.step scene = none) :
    (halted = true ∧ e.workerDone = true) ∨ (halted = false ∧ e.remaining? ≠ some 0) ∨
    ∃ calls call run memory, (calls ++ [call]).filterMap HandlerCall.item? <+: accepted ∧
      duty.conduct.busy calls call (.access run) memory scene.outside ∧ run (memory, scene) = none := by
  obtain ⟨-, s, hstatus, hhalted, hserves⟩ := h
  have hthere := station? hstatus
  have hstep : s.step scene = none := by
    unfold Engine.step at waits
    cases halted <;> rw [hstatus] at waits <;> exact Option.map_eq_none_iff.mp waits
  rcases hserves.stuck hstep with ⟨hclosed, hfinished⟩ | ⟨hrunning, hfree⟩ |
    ⟨calls, call, run, hwait⟩
  · refine .inl ⟨hhalted.symm.trans hclosed, ?_⟩
    rw [workerDone, hthere, Option.map_some, hfinished]
    rfl
  · refine .inr (.inl ⟨hhalted.symm.trans hrunning, ?_⟩)
    have hpos := s.ring.capacity_pos
    rw [remaining?, hthere, Option.map_some, hfree]
    simp
    omega
  · exact .inr (.inr ⟨calls, call, run, _, hwait⟩)

/-- Stopping a halted engine whose worker is done leaves the metrics: all that was accepted is counted
as published and as consumed. -/
theorem stop (h : e.Serves true duty scene.outside accepted taken) (done : e.workerDone = true)
    (on : duty.config.metrics = true) (limit : Span) :
    ∃ metrics, e.stop limit 0 scene = (.ok (), { e with status := .stopped metrics }, scene) ∧
      metrics.published = accepted.length ∧ metrics.consumed = accepted.length ∧
      ∃ earlier memory, (earlier ++ [.shutdown]).filterMap HandlerCall.item? = accepted ∧
        duty.conduct.idle (earlier ++ [.shutdown]) memory scene.outside := by
  obtain ⟨-, s, hstatus, -, hserves⟩ := h
  have hended : s.worker.phase.ended = true := by
    rw [workerDone, station? hstatus] at done
    exact done
  have hfinished : s.worker.phase = .finished := by
    obtain ⟨a, notes, rejected, rfl, haudited, -⟩ := hserves.account
    exact haudited.sound.tells.finished_of_ended hended
  obtain ⟨hpublished, hconsumed⟩ := hserves.metrics hended on
  obtain ⟨earlier, hitems, hidle⟩ := hserves.finished hended
  refine ⟨s.ring.metrics, ?_, hpublished, hconsumed, earlier, _, hitems, hidle⟩
  have hhalt : e.halt = e := by
    unfold Engine.halt
    rw [hstatus]
    rfl
  have hwork : e.halt.work 0 scene = (e, scene) := by
    rw [hhalt]
    rfl
  simp only [Engine.stop, hwork, settle, hstatus, if_true, hfinished]

end Serves
end Engine
end MessageRing
