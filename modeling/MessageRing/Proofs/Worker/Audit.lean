import Mathlib.Data.List.DropRight
import Mathlib.Data.List.DropRight
import MessageRing.Proofs.Ring.Counts
import MessageRing.Proofs.Worker.Loop

/-!
An audit of a ring and its worker.

From the notes of what changed at the ring and the notices of what the worker did the audit counts
what the ring should have counted. A worker whose exception handler returns normally makes the two
agree, whatever others do at the ring in between.
-/
namespace MessageRing
variable {α η σ : Type}

instance : Add Tally where
  add t u := { consumed := t.consumed + u.consumed, failures := t.failures + u.failures }

theorem Tally.eq_empty_of_add_empty {t u : Tally} (h : t + u = {}) : t = {} := by
  have hconsumed : t.consumed + u.consumed = 0 := congrArg Tally.consumed h
  have hfailures : t.failures + u.failures = 0 := congrArg Tally.failures h
  cases t
  simp_all

namespace Metrics

instance : Add Metrics where
  add m n :=
    { published := m.published + n.published
      consumed := m.consumed + n.consumed
      rejected := m.rejected + n.rejected
      handlerFailures := m.handlerFailures + n.handlerFailures
      batches := m.batches + n.batches }

theorem add_addWindow (m n : Metrics) (t : Tally) :
    m + n.addWindow t = (m + n).addWindow t := by
  change Metrics.mk _ (_ + (_ + _)) _ (_ + (_ + _)) (_ + (_ + 1)) = _
  simp only [← Nat.add_assoc]
  rfl

theorem eq_of_worked {m n : Metrics} (published : m.published = n.published)
    (rejected : m.rejected = n.rejected) (worked : m.worked = n.worked) : m = n := by
  cases m
  cases n
  simp_all [Metrics.worked]

end Metrics

namespace Notice

def isReleased : Notice α → Bool
  | .released _ => true
  | _ => false

def isReported : Notice α → Bool
  | .reported _ _ => true
  | _ => false

/-- What was noticed up to the last time that a window was given back. -/
def settled (trace : List (Notice α)) : List (Notice α) := trace.rdropWhile (!·.isReleased)

/-- What was noticed since then. -/
def pending (trace : List (Notice α)) : List (Notice α) := trace.rtakeWhile (!·.isReleased)

/-- The items that the handler was called for, and the failures that were reported. -/
def tally (trace : List (Notice α)) : Tally :=
  { consumed := (events trace).length, failures := trace.countP isReported }

/-- What is to be counted of a worker: windows given back, and the calls and failures in them. -/
def worked (trace : List (Notice α)) : Metrics :=
  { consumed := (tally (settled trace)).consumed
    handlerFailures := (tally (settled trace)).failures
    batches := (settled trace).countP isReleased }

theorem tally_append (trace trace' : List (Notice α)) :
    tally (trace ++ trace') = tally trace + tally trace' := by
  unfold tally
  rw [events_append, List.length_append, List.countP_append]
  rfl

theorem tally_logged (records : List Record) :
    tally (records.map (Notice.logged (α := α))) = {} := by
  have hreported : (records.map (Notice.logged (α := α))).countP isReported = 0 := by
    simp [List.countP_eq_zero, isReported]
  rw [tally, events_logged, hreported]
  rfl

theorem settled_append_pending (trace : List (Notice α)) :
    settled trace ++ pending trace = trace := by
  unfold settled pending List.rdropWhile List.rtakeWhile
  rw [← List.reverse_append, List.takeWhile_append_dropWhile, List.reverse_reverse]

theorem pending_unreleased (trace : List (Notice α)) :
    ∀ notice ∈ pending trace, notice.isReleased = false := by
  intro notice hnotice
  simpa using List.mem_rtakeWhile_imp hnotice

section Append
variable {more : List (Notice α)} (unreleased : ∀ notice ∈ more, notice.isReleased = false)
include unreleased

theorem settled_append (trace : List (Notice α)) : settled (trace ++ more) = settled trace := by
  unfold settled List.rdropWhile
  rw [List.reverse_append, List.dropWhile_append_of_pos]
  simpa using unreleased

theorem pending_append (trace : List (Notice α)) :
    pending (trace ++ more) = pending trace ++ more := by
  unfold pending List.rtakeWhile
  rw [List.reverse_append, List.takeWhile_append_of_pos (by simpa using unreleased),
    List.reverse_append, List.reverse_reverse]

theorem countP_released_append (trace : List (Notice α)) :
    (trace ++ more).countP isReleased = trace.countP isReleased := by
  have hmore : more.countP isReleased = 0 := List.countP_eq_zero.mpr (by simpa using unreleased)
  rw [List.countP_append, hmore, add_zero]

end Append

theorem settled_released (trace : List (Notice α)) (available : Int) :
    settled (trace ++ [.released available]) = trace ++ [.released available] :=
  List.rdropWhile_concat_neg _ _ _ (by simp [isReleased])

theorem pending_released (trace : List (Notice α)) (available : Int) :
    pending (trace ++ [.released available]) = [] :=
  List.rtakeWhile_concat_neg _ _ _ (by simp [isReleased])

theorem countP_released_settled (trace : List (Notice α)) :
    (settled trace).countP isReleased = trace.countP isReleased := by
  have hpending := countP_released_append (pending_unreleased trace) (settled trace)
  rw [settled_append_pending] at hpending
  exact hpending.symm

theorem tally_settled (trace : List (Notice α)) :
    tally (settled trace) + tally (pending trace) = tally trace := by
  rw [← tally_append, settled_append_pending]

/-- Giving a window back settles what was pending. -/
theorem worked_released (trace : List (Notice α)) (available : Int) :
    worked (trace ++ [.released available]) = (worked trace).addWindow (tally (pending trace)) := by
  have htally : tally (trace ++ [Notice.released available]) =
      tally (settled trace) + tally (pending trace) := by
    rw [tally_append, tally_settled]
    rfl
  have hbatches : (trace ++ [Notice.released available]).countP isReleased =
      (settled trace).countP isReleased + 1 := by
    rw [List.countP_append, countP_released_settled]
    rfl
  rw [worked, settled_released, htally, hbatches]
  rfl

end Notice

/-- A sequence was taken whose slot is empty. -/
def Note.empty : Note α → Bool
  | .took _ none => true
  | _ => false

theorem Ledger.read_empty (l : Ledger α) (notes : List (Note α)) :
    (l.read notes).drained.countP (·.2.isNone) =
      l.drained.countP (·.2.isNone) + notes.countP Note.empty := by
  induction notes generalizing l with
  | nil => rfl
  | cons note notes ih =>
    rw [read_cons, ih, List.countP_cons]
    cases note with
    | took s content =>
      cases content with
      | some item => simp [enter, Note.empty]
      | none =>
        simp only [enter, Note.empty, List.countP_append, List.countP_singleton, Option.isNone_none,
          if_true]
        omega
    | _ => rfl

theorem Ledger.length_events (entries : List (Int × Option α)) :
    (events entries).length + entries.countP (·.2.isNone) = entries.length := by
  have hevents : (events entries).length = entries.countP fun entry => !entry.2.isNone := by
    rw [events, List.length_filterMap_eq_countP]
    refine List.countP_congr fun entry _ => ?_
    cases entry.2 <;> simp
  rw [hevents, Nat.add_comm, entries.length_eq_countP_add_countP (·.2.isNone)]
  refine congrArg _ (List.countP_congr fun entry _ => ?_)
  simp [Option.isSome_iff_ne_none]

/-- What is to be counted: what the worker did, the sequences handed in and the pushes rejected. -/
def Metrics.audit (trace : List (Notice α)) (notes : List (Note α)) (rejected : Nat) : Metrics :=
  { Notice.worked trace with published := (Ring.handedIn notes).length, rejected }

/-- Nothing is under way: what was published has been handled or found empty, and no window was
given back without any. -/
structure Notice.Balanced (trace : List (Notice α)) (notes : List (Note α)) : Prop where
  settled : tally (pending trace) = {}
  published : (Ring.handedIn notes).length = (worked trace).consumed + notes.countP Note.empty
  batches : (worked trace).batches ≤ (Ring.handedIn notes).length

/-- The turn's next move is a push that is rejected. -/
def Turn.rejects {ω : Type} (r : Ring α) : Turn α ω → Bool
  | .attempt (some item) _ => (r.push item).1 = .refused .rejected
  | _ => false

/-- The tally of the window under way. -/
def Phase.tally : Phase α η σ → Tally
  | .draining _ tally | .handling _ _ _ tally | .reporting _ _ _ tally => tally
  | _ => {}

namespace Station

/-- The worker's next step is a push that is rejected. -/
def rejects (s : Station α η σ) : Bool :=
  match s.worker.phase with
  | .starting turn | .handling turn _ _ _ | .stopping turn => turn.rejects s.ring
  | _ => false

end Station

theorem Turn.move_rejected {ω : Type} {r ring : Ring α} (h : r.Counted) {world world' : ω}
    {turn turn' : Turn α ω} (move : turn.move r world = some (turn', ring, world')) :
    ring.metrics.rejected = r.metrics.rejected +
      if r.config.metrics ∧ turn.rejects r then 1 else 0 := by
  rcases move_cases move with ⟨⟨_, rfl⟩ | ⟨_, rfl⟩, rfl⟩ | ⟨item, _, rfl, rfl⟩ | ⟨_, rfl, rfl⟩
  · simp [rejects]
  · simp [rejects]
  · cases item with
    | some item => simpa [rejects] using Ring.push_rejected h item
    | none => simpa [rejects] using Ring.untouched_rejected.pushEmpty r
  · simp [rejects, Ring.halt]

theorem Turn.notes_prompt {ω : Type} (r : Ring α) (turn : Turn α ω) :
    (turn.notes r).countP Note.gives = (Ring.handedIn (turn.notes r)).length := by
  cases turn with
  | attempt item next => cases item <;> exact Ring.filled_prompt _ _
  | _ => rfl

namespace Station
variable {s s' : Station α η σ} {scene scene' : Scene σ} {notes : List (Note α)}
  {notices trace : List (Notice α)} {l : Ledger α} {base : Metrics}

/-- The worker has counted what was noticed of it, on top of what had been counted before. -/
structure Tallied (s : Station α η σ) (base : Metrics) (trace : List (Notice α)) : Prop where
  tally : s.worker.phase.tally = Notice.tally (Notice.pending trace)
  worked : s.ring.metrics.worked =
    if s.ring.config.metrics then base.worked + Notice.worked trace else base.worked
  windows : trace.countP Notice.isReleased ≤ s.worker.next

/-- Until the window is given back only its tally changes. -/
theorem Tallied.go (h : s.Tallied base trace)
    (unreleased : ∀ notice ∈ notices, notice.isReleased = false)
    (tally : s'.worker.phase.tally = s.worker.phase.tally + Notice.tally notices)
    (worked : s'.ring.metrics.worked = s.ring.metrics.worked)
    (config : s'.ring.config = s.ring.config) (next : s'.worker.next = s.worker.next) :
    s'.Tallied base (trace ++ notices) where
  tally := by rw [tally, h.tally, Notice.pending_append unreleased, Notice.tally_append]
  worked := by
    rw [worked, config, h.worked, Notice.worked, Notice.worked, Notice.settled_append unreleased]
  windows := by
    rw [next, Notice.countP_released_append unreleased]
    exact h.windows

/-- Giving the window back counts its tally. -/
theorem Tallied.close (h : s.Tallied base trace) (available : Int)
    (empty : s'.worker.phase.tally = {})
    (worked : s'.ring.metrics.worked = if s.ring.config.metrics
      then s.ring.metrics.worked.addWindow s.worker.phase.tally else s.ring.metrics.worked)
    (config : s'.ring.config = s.ring.config) (next : s.worker.next < s'.worker.next) :
    s'.Tallied base (trace ++ [.released available]) where
  tally := by
    rw [empty, Notice.pending_released]
    rfl
  worked := by
    rw [worked, config, h.worked, h.tally, Notice.worked_released]
    split_ifs
    · exact (Metrics.add_addWindow _ _ _).symm
    · rfl
  windows := by
    have hwindows := h.windows
    rw [List.countP_append]
    change ((_ + 1 : Nat) : Int) ≤ s'.worker.next
    push_cast
    omega

theorem Does.tallied (does : Does s scene notes notices s' scene')
    (alive : ∀ p, s'.worker.phase ≠ .died p) (counted : s.ring.Counted) (tells : s.Tells l trace)
    (h : s.Tallied base trace) : s'.Tallied base (trace ++ notices) := by
  have hrecords (outcome : Outcome) (records : List Record) :
      (∀ notice ∈ Notice.returned (α := α) outcome :: records.map .logged,
        notice.isReleased = false) ∧
      Notice.tally (Notice.returned (α := α) outcome :: records.map .logged) = {} := by
    refine ⟨by simp [Notice.isReleased], ?_⟩
    exact (Notice.tally_append [_] _).trans (by rw [Notice.tally_logged]; rfl)
  cases does with
  | begin phase => exact h.go (by simp [Notice.isReleased]) (by rw [phase]; rfl) rfl rfl rfl
  | turn resumes phase move =>
    refine h.go (by simp) ?_ (Turn.move_spared Ring.spared_worked (fun _ => rfl) move)
      (Turn.move_path counted move).config_eq rfl
    rw [phase]
    cases resumes <;> rfl
  | @started outcome phase =>
    have hlogged := hrecords outcome (outcome.records (.startPanicked s.worker.name))
    exact h.go hlogged.1 (by rw [phase, hlogged.2]; rfl) rfl rfl rfl
  | enter phase visible =>
    exact h.go (by simp [Notice.isReleased]) (by rw [phase]; rfl) rfl rfl rfl
  | leave phase hidden halted unclaimed =>
    exact h.go (by simp [Notice.isReleased]) (by rw [phase]; rfl) rfl rfl rfl
  | call phase more entry =>
    refine h.go (by simp [Notice.isReleased]) ?_ rfl rfl rfl
    rw [phase, Notice.tally, Notice.events_call entry]
    cases s.ring.peek _ <;> rfl
  | skip phase more entry =>
    refine h.go (by simp) ?_ rfl rfl rfl
    rw [phase]
    cases hcontent : s.ring.peek _ with
    | none => rfl
    | some item => simp [hcontent, HandlerCall.ofEntry] at entry
  | @release window tally phase empty later visible =>
    obtain ⟨current, within⟩ := (tells.at phase).within
    refine h.close _ rfl ?_ (Ring.count_config _ _) (Int.lt_add_one_of_le within.first_le)
    rw [phase]
    exact Ring.count_addWindow _ tally
  | @returned outcome sequence window tally phase =>
    refine h.go (by simp [Notice.isReleased]) ?_ rfl rfl rfl
    rw [phase]
    cases hfailed : outcome.failure? <;> rfl
  | report phase report =>
    exact h.go (by simp [Notice.isReleased]) (by rw [phase]; rfl) rfl rfl rfl
  | @finish outcome phase =>
    have hlogged := hrecords outcome (outcome.records (.shutdownPanicked s.worker.name) ++
      [Record.workerStopped s.worker.name s.worker.handled])
    exact h.go hlogged.1 (by rw [phase, hlogged.2]; rfl) rfl rfl rfl
  | misused phase empty release => exact absurd rfl (alive _)
  | die phase report => exact absurd rfl (alive _)

/-- No step of a worker reaches what was published before this ring. -/
theorem Does.elder (does : Does s scene notes notices s' scene') :
    s'.ring.elder = s.ring.elder := by
  cases does with
  | turn resumes phase move => exact Turn.move_spared Ring.spared_elder (fun _ => rfl) move
  | release phase empty later visible =>
    unfold Ring.count Ring.elder
    split_ifs <;> rfl
  | _ => rfl

/-- The worker's pushes are counted when they are rejected. -/
theorem Does.rejected (does : Does s scene notes notices s' scene') (counted : s.ring.Counted) :
    s'.ring.metrics.rejected = s.ring.metrics.rejected +
      if s.ring.config.metrics ∧ s.rejects then 1 else 0 := by
  cases does with
  | turn resumes phase move =>
    refine (Turn.move_rejected counted move).trans ?_
    unfold rejects
    rw [phase]
    cases resumes <;> rfl
  | release phase empty later visible =>
    unfold Ring.count rejects
    rw [phase]
    split_ifs <;> simp_all [Metrics.addWindow]
  | begin phase | started phase | enter phase | leave phase | call phase | skip phase
  | returned phase | report phase | finish phase | misused phase | die phase =>
    simp [rejects, phase, Turn.rejects, setPhase, Ring.put]

theorem Does.prompt (does : Does s scene notes notices s' scene') :
    notes.countP Note.gives = (Ring.handedIn notes).length := by
  cases does with
  | turn resumes phase move => exact Turn.notes_prompt s.ring _
  | _ => rfl

end Station

namespace Story
variable {name : String} {first : Int} {handled : Nat} {trace : List (Notice α)}
  {phase : Phase α η σ} {l : Ledger α} {r : Ring α}

theorem released (h : Story name l.intake first handled trace phase) : l.released + 1 = first := by
  cases h with
  | created _ past | starting _ _ past | waiting _ _ _ past | draining _ _ _ _ _ _ past
  | handling _ _ _ _ _ _ _ _ _ _ _ past | reporting _ _ _ _ _ _ _ _ _ _ _ _ _ past
  | stopping _ _ _ _ past | finished _ _ _ _ past => exact past.released

/-- When all that was claimed has been given back, no window is under way. -/
theorem tally_of_drained (h : Story name l.intake first handled trace phase) (books : r.Books l)
    (drained : r.gating = r.claimed) : phase.tally = {} := by
  have hreleased : l.released + 1 = first := h.released
  have hgating := books.released
  have hcursor := books.counted.cursor_le
  have hvisible {window : Drain} {tally : Tally} {current : List (Visit α)}
      (within : Within l.intake first window tally current) : False := by
    have hfirst := within.first_le
    have htold : l.told ≤ r.cursor := books.told
    have hwindow : window.available ≤ l.told := within.told
    omega
  cases h with
  | draining _ _ _ _ _ _ _ within => exact (hvisible within).elim
  | handling _ _ _ _ _ _ _ _ _ _ _ _ within => exact (hvisible within).elim
  | reporting _ _ _ _ _ _ _ _ _ _ _ _ _ _ within => exact (hvisible within).elim
  | _ => rfl

end Story

namespace Account
variable {a : Account α η σ} {base : Metrics} {notes : List (Note α)} {rejected : Nat}

/-- The ring has counted on from `base` what was noted and noticed at it, and the rejected
pushes. -/
structure Audited (a : Account α η σ) (base : Metrics) (notes : List (Note α)) (rejected : Nat) :
    Prop where
  sound : a.Sound
  ledger : a.ledger = Ledger.read {} notes
  tallied : a.station.Tallied base a.trace
  elder : a.station.ring.elder = base.published
  rejected : a.station.ring.metrics.rejected = base.rejected +
    if a.station.ring.config.metrics then rejected else 0
  handed : a.station.ring.handed = (Ring.handedIn notes).length

theorem Sound.next_config (h : a.Sound) (deed : Deed α σ) :
    (a.next deed).station.ring.config = a.station.ring.config := by
  cases deed with
  | work =>
    cases hstep : a.station.step a.scene with
    | none => rw [next_work_of_none hstep]
    | some next =>
      rw [next_work_of_some hstep]
      exact ((Station.step_does hstep).path h.books.counted
        (Station.available_le h.books h.tells)).config_eq
  | call call other => exact (Ring.answer_path h.books.counted call).config_eq
  | world change => rfl

theorem Sound.along_config (h : a.Sound) (normal : a.station.worker.exceptions.Normal)
    (schedule : Nat → Deed α σ) (n : Nat) :
    (a.along schedule n).station.ring.config = a.station.ring.config := by
  induction n with
  | zero => rfl
  | succ n ih => exact ((h.along normal schedule n).next_config (schedule n)).trans ih

namespace Audited

/-- The ring and the account have gone on by what these notes and notices say. -/
theorem go (h : a.Audited base notes rejected) {a' : Account α η σ} {more : List (Note α)}
    {notices : List (Notice α)} {n : Nat} (sound : a'.Sound)
    (ledger : a'.ledger = a.ledger.read more) (trace : a'.trace = a.trace ++ notices)
    (path : a.station.ring.Path more a'.station.ring)
    (tallied : a'.station.Tallied base (a.trace ++ notices))
    (elder : a'.station.ring.elder = a.station.ring.elder)
    (counted : a'.station.ring.metrics.rejected = a.station.ring.metrics.rejected +
      if a.station.ring.config.metrics then n else 0) :
    a'.Audited base (notes ++ more) (rejected + n) where
  sound := sound
  ledger := by rw [ledger, h.ledger, Ledger.read_append]
  tallied := by
    rw [trace]
    exact tallied
  elder := elder.trans h.elder
  rejected := by
    rw [counted, h.rejected, path.config_eq]
    split_ifs <;> omega
  handed := by
    rw [path.handed_eq h.sound.books.counted, h.handed, Ring.handedIn_append, List.length_append,
      Nat.cast_add]

theorem step (h : a.Audited base notes rejected) (normal : a.station.worker.exceptions.Normal)
    {scene scene' : Scene σ} {station : Station α η σ}
    (step : a.station.step scene = some (station, scene')) :
    Audited
      { station
        scene := scene'
        ledger := a.ledger.read a.station.notes
        trace := a.trace ++ a.station.notices } base (notes ++ a.station.notes)
      (rejected + if a.station.rejects then 1 else 0) := by
  have hdoes := Station.step_does step
  have hcounted := h.sound.books.counted
  have halive := hdoes.alive normal h.sound.books h.sound.tells
  have hthere : Sound { a with scene } := { h.sound with }
  have hnext := hthere.work_of_alive step halive
  rw [next_work_of_some step] at hnext
  refine h.go hnext rfl rfl
    (hdoes.path hcounted (Station.available_le h.sound.books h.sound.tells))
    (hdoes.tallied halive hcounted h.sound.tells h.tallied) hdoes.elder ?_
  rw [← ite_and]
  exact hdoes.rejected hcounted

theorem call (h : a.Audited base notes rejected) (call : Ring.Call α)
    (other : call.consumes = false) :
    (a.next (.call call other)).Audited base
      (notes ++ Ring.notes (call, (a.station.ring.answer call).1))
      (rejected + if (a.station.ring.answer call).1.rejected then 1 else 0) := by
  have hcounted := h.sound.books.counted
  have hpath := Ring.answer_path hcounted call
  refine h.go (h.sound.call call other) rfl (List.append_nil _).symm hpath
    (h.tallied.go (by simp) rfl
      (Ring.spared_worked.answer (fun _ => rfl) (fun _ => rfl) other) hpath.config_eq rfl)
    (Ring.spared_elder.answer (fun _ => rfl) (fun _ => rfl) other) ?_
  rw [← ite_and]
  exact Ring.answer_rejected hcounted other

/-- What was handed in is visible, and counted, or kept back. -/
theorem metrics_of_on (h : a.Audited base notes rejected)
    (on : a.station.ring.config.metrics = true) :
    { a.station.ring.metrics with
      published := a.station.ring.metrics.published + a.station.ring.deferred.length } =
        base + .audit a.trace notes rejected := by
  have helder := h.elder
  have hhanded := h.handed
  have hrejected := h.rejected
  have hworked := h.tallied.worked
  have hlength := h.sound.books.counted.length_outstanding
  rw [Ring.outstanding, List.length_append] at hlength
  rw [Ring.elder, if_pos on] at helder
  rw [Ring.handed] at hhanded
  rw [if_pos on] at hrejected hworked
  refine Metrics.eq_of_worked ?_ hrejected hworked
  change _ + _ = base.published + (Ring.handedIn notes).length
  omega

theorem metrics_of_off (h : a.Audited base notes rejected)
    (off : a.station.ring.config.metrics = false) : a.station.ring.metrics = base := by
  have helder := h.elder
  have hrejected := h.rejected
  have hworked := h.tallied.worked
  rw [Ring.elder, off] at helder
  rw [off] at hrejected hworked
  refine Metrics.eq_of_worked ?_ hrejected hworked
  simpa using helder

/-- When all that was claimed has been given back, no claim is on its way. -/
theorem outstanding_eq_nil (h : a.Audited base notes rejected)
    (drained : a.station.ring.gating = a.station.ring.claimed) :
    a.station.ring.outstanding = [] := by
  have hcounted := h.sound.books.counted
  have hlength := hcounted.length_outstanding
  have hgating := hcounted.gating_le
  have hcursor := hcounted.cursor_le
  exact List.length_eq_zero_iff.mp (by omega)

/-- Every sequence taken had an item, which went to the handler, or was empty. -/
theorem taken (h : a.Audited base notes rejected) :
    (Notice.events a.trace).length + notes.countP Note.empty = a.ledger.drained.length := by
  have hevents : Notice.events a.trace = Ledger.events a.ledger.drained := h.sound.tells.events
  have hempties : notes.countP Note.empty = a.ledger.drained.countP (·.2.isNone) := by
    rw [h.ledger, Ledger.read_empty]
    exact (Nat.zero_add _).symm
  rw [hevents, hempties, Ledger.length_events]

/-- When all that was claimed has been given back, everything is accounted for. -/
theorem balanced (h : a.Audited base notes rejected)
    (drained : a.station.ring.gating = a.station.ring.claimed) :
    Notice.Balanced a.trace notes := by
  have hcounted := h.sound.books.counted
  have hlow := hcounted.start
  have hgating := hcounted.gating_le
  have hcursor := hcounted.cursor_le
  -- all that was claimed was handed in, and all of it was taken
  have hhanded := h.handed
  rw [Ring.handed, (List.append_eq_nil_iff.mp (h.outstanding_eq_nil drained)).1,
    List.length_nil] at hhanded
  have htaken := h.sound.books.gating_lt
  have hvisible := h.sound.books.drained_le
  have hall := h.taken
  have hsettled : Notice.tally (Notice.pending a.trace) = {} := by
    rw [← h.tallied.tally]
    exact h.sound.tells.tally_of_drained h.sound.books drained
  have hconsumed : (Notice.worked a.trace).consumed = (Notice.events a.trace).length := by
    have htally := Notice.tally_settled a.trace
    rw [hsettled] at htally
    exact congrArg Tally.consumed htally
  have hbatches : (Notice.worked a.trace).batches = a.trace.countP Notice.isReleased :=
    Notice.countP_released_settled _
  -- a worker gives back at most one window for each sequence before its next
  have hwindows := h.tallied.windows
  have hnext : a.ledger.released + 1 = a.station.worker.next := h.sound.tells.released
  have hreleased := h.sound.books.released
  refine ⟨hsettled, ?_, ?_⟩ <;> omega

end Audited

/-- A worker at a new ring has nothing to account for yet. -/
theorem opened_audited {config : Config} {metrics : Metrics} {ring : Ring α}
    (made : Ring.make config metrics = .ok ring) (name : String) (handler : EventHandler α η σ)
    (memory : η) (exceptions : ExceptionHandler σ) (scene : Scene σ) :
    (opened ring name handler memory exceptions scene).Audited metrics [] 0 := by
  have hsound := opened_sound made name handler memory exceptions scene
  obtain ⟨valid, rfl⟩ := Ring.make_eq_ok made
  exact {
    sound := hsound
    ledger := rfl
    tallied := ⟨rfl, (ite_self _).symm, le_rfl⟩
    elder := (congrArg _ (ite_self _)).trans (sub_zero _)
    rejected := (congrArg (metrics.rejected + ·) (ite_self 0)).symm
    handed := rfl }

end Account
end MessageRing
