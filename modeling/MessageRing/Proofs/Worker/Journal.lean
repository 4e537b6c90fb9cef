import MessageRing.Proofs.Worker.Audit
import MessageRing.Proofs.Worker.Contract

/-!
What there is to see of a run, moment by moment.

Each instant leaves notes of what changed at the ring and shows what a recorded worker has done.
What is to be counted by these is what the ring has counted: a call that was written down early or
late does not reach the windows that were given back.
-/
namespace MessageRing
variable {α η σ : Type}

/-- What there is to see at one moment of a run. -/
structure Instant (α : Type) where
  /-- What has changed at the ring. -/
  notes : List (Note α)
  /-- What is noticed of the worker. -/
  notices : List (Notice α)
  /-- A push was rejected. -/
  rejected : Bool

def Ring.instant (r : Ring α) (call : Ring.Call α) : Instant α :=
  { notes := Ring.notes (call, (r.answer call).1)
    notices := []
    rejected := (r.answer call).1.rejected }

/-- What there is to see of a step. -/
def Station.instant (s : Station α η (Diary α η σ × σ)) (scene : Scene (Diary α η σ × σ))
    (s' : Station α η (Diary α η σ × σ)) (scene' : Scene (Diary α η σ × σ)) : Instant α :=
  { notes := s.notes, notices := s.observed scene s' scene', rejected := s.rejects }

namespace Instant

def allNotes (seen : List (Instant α)) : List (Note α) := seen.flatMap notes

def trace (seen : List (Instant α)) : List (Notice α) := seen.flatMap notices

/-- What is to be counted of a run, by what was seen of it. -/
def audit (seen : List (Instant α)) : Metrics :=
  .audit (trace seen) (allNotes seen) (seen.countP (·.rejected))

/-- How many sequences the consumer found with an empty slot. -/
def empties (seen : List (Instant α)) : Nat := (allNotes seen).countP Note.empty

theorem allNotes_append (seen seen' : List (Instant α)) :
    allNotes (seen ++ seen') = allNotes seen ++ allNotes seen' :=
  List.flatMap_append

theorem trace_append (seen seen' : List (Instant α)) :
    trace (seen ++ seen') = trace seen ++ trace seen' :=
  List.flatMap_append

theorem allNotes_singleton (instant : Instant α) : allNotes [instant] = instant.notes :=
  List.flatMap_singleton notes instant

theorem trace_singleton (instant : Instant α) : trace [instant] = instant.notices :=
  List.flatMap_singleton notices instant

/-- What was seen is balanced. -/
def Balanced (seen : List (Instant α)) : Prop := Notice.Balanced (trace seen) (allNotes seen)

end Instant

namespace Station.Trails
variable {s : Station α η (Diary α η σ × σ)} {handler : EventHandler α η σ}
  {trace seen : List (Notice α)}

/-- What is written down early or late does not reach what was given back. -/
theorem settled (h : s.Trails handler trace seen) :
    Notice.settled seen = Notice.settled trace := by
  have hlag := h.lag
  generalize s.worker.phase.turn? = turn? at hlag
  cases hlag with
  | rest | within => rfl
  | begun call => exact (Notice.settled_append (by simp [Notice.isReleased]) seen).symm
  | ended outcome => exact Notice.settled_append (by simp [Notice.isReleased]) trace

theorem pending (h : s.Trails handler trace seen)
    (none : Notice.tally (Notice.pending trace) = {}) :
    Notice.tally (Notice.pending seen) = {} := by
  have hlag := h.lag
  generalize s.worker.phase.turn? = turn? at hlag
  cases hlag with
  | rest | within => exact none
  | begun call =>
    rw [Notice.pending_append (by simp [Notice.isReleased]), Notice.tally_append] at none
    exact Tally.eq_empty_of_add_empty none
  | ended outcome =>
    rw [Notice.pending_append (by simp [Notice.isReleased]), Notice.tally_append, none]
    rfl

theorem worked (h : s.Trails handler trace seen) : Notice.worked seen = Notice.worked trace := by
  rw [Notice.worked, Notice.worked, h.settled]

end Station.Trails

namespace Account
variable {a : Account α η (Diary α η σ × σ)} {handler : EventHandler α η σ} {base : Metrics}
  {seen : List (Instant α)}

/-- What there is to see of a deed. -/
def instants (a : Account α η (Diary α η σ × σ)) :
    Deed α (Diary α η σ × σ) → List (Instant α)
  | .work =>
    match a.station.step a.scene with
    | none => []
    | some (station, scene) => [a.station.instant a.scene station scene]
  | .call call _ => [a.station.ring.instant call]
  | .world _ => []

/-- What there is to see of the first deeds of a schedule. -/
def journal (a : Account α η (Diary α η σ × σ)) (schedule : Nat → Deed α (Diary α η σ × σ)) :
    Nat → List (Instant α)
  | 0 => []
  | n + 1 => a.journal schedule n ++ (a.along schedule n).instants (schedule n)

/-- The ring has counted on from `base` what was seen at it. -/
structure Seen (a : Account α η (Diary α η σ × σ)) (handler : EventHandler α η σ)
    (base : Metrics) (seen : List (Instant α)) : Prop where
  audited : a.Audited base (Instant.allNotes seen) (seen.countP (·.rejected))
  trails : a.station.Trails handler a.trace (Instant.trace seen)

namespace Seen

theorem step (h : a.Seen handler base seen) (normal : a.station.worker.exceptions.Normal)
    {scene scene' : Scene (Diary α η σ × σ)} {station : Station α η (Diary α η σ × σ)}
    (step : a.station.step scene = some (station, scene')) :
    Seen
      { station
        scene := scene'
        ledger := a.ledger.read a.station.notes
        trace := a.trace ++ a.station.notices } handler base
      (seen ++ [a.station.instant scene station scene']) where
  audited := by
    rw [Instant.allNotes_append, Instant.allNotes_singleton, List.countP_append,
      List.countP_singleton]
    exact h.audited.step normal step
  trails := by
    rw [Instant.trace_append, Instant.trace_singleton]
    exact h.trails.step step

/-- What others do at the ring. -/
theorem call (h : a.Seen handler base seen) (call : Ring.Call α)
    (other : call.consumes = false) {more : List (Instant α)}
    (shown : Instant.allNotes more = Ring.notes (call, (a.station.ring.answer call).1))
    (silent : Instant.trace more = [])
    (rejected : more.countP (·.rejected) =
      if (a.station.ring.answer call).1.rejected then 1 else 0) :
    (a.next (.call call other)).Seen handler base (seen ++ more) where
  audited := by
    rw [Instant.allNotes_append, List.countP_append, shown, rejected]
    exact h.audited.call call other
  trails := by
    rw [Instant.trace_append, silent, List.append_nil]
    exact h.trails.beside (Ring.answer_path h.trails.counted call)
      (Ring.spared_gating.answer (fun _ => rfl) (fun _ => rfl) other)

theorem next (h : a.Seen handler base seen) (normal : a.station.worker.exceptions.Normal)
    (deed : Deed α (Diary α η σ × σ)) :
    (a.next deed).Seen handler base (seen ++ a.instants deed) := by
  cases deed with
  | work =>
    cases hstep : a.station.step a.scene with
    | none =>
      rw [next_work_of_none hstep]
      simpa [instants, hstep] using h
    | some next =>
      rw [next_work_of_some hstep]
      simpa [instants, hstep] using h.step normal hstep
  | call call other =>
    exact h.call call other (Instant.allNotes_singleton _) rfl List.countP_singleton
  | world change =>
    rw [instants, List.append_nil]
    exact ⟨{ h.audited with sound := { h.audited.sound with } }, h.trails⟩

theorem along (h : a.Seen handler base seen) (normal : a.station.worker.exceptions.Normal)
    (schedule : Nat → Deed α (Diary α η σ × σ)) (n : Nat) :
    (a.along schedule n).Seen handler base (seen ++ a.journal schedule n) := by
  induction n with
  | zero =>
    rw [journal, List.append_nil]
    exact h
  | succ n ih =>
    rw [journal, ← List.append_assoc]
    refine ih.next ?_ (schedule n)
    rw [(a.along_keeps schedule n).2.2]
    exact normal

theorem audit_eq (h : a.Seen handler base seen) : Instant.audit seen =
    .audit a.trace (Instant.allNotes seen) (seen.countP (·.rejected)) := by
  rw [Instant.audit, Metrics.audit, Metrics.audit, h.trails.worked]

theorem metrics_of_on (h : a.Seen handler base seen)
    (on : a.station.ring.config.metrics = true) :
    { a.station.ring.metrics with
      published := a.station.ring.metrics.published + a.station.ring.deferred.length } =
        base + Instant.audit seen := by
  rw [h.audit_eq]
  exact h.audited.metrics_of_on on

theorem balanced (h : a.Seen handler base seen)
    (drained : a.station.ring.gating = a.station.ring.claimed) : Instant.Balanced seen := by
  obtain ⟨hsettled, hpublished, hbatches⟩ := h.audited.balanced drained
  rw [← h.trails.worked] at hpublished hbatches
  exact ⟨h.trails.pending hsettled, hpublished, hbatches⟩

end Seen

/-- A recorded worker at a new ring, of which nothing has been seen. -/
theorem openedRecorded_seen {config : Config} {metrics : Metrics} {ring : Ring α}
    (made : Ring.make config metrics = .ok ring) (name : String) (handler : EventHandler α η σ)
    (memory : η) (exceptions : ExceptionHandler σ) (scene : Scene (Diary α η σ × σ)) :
    (openedRecorded ring name handler memory exceptions scene).Seen handler metrics [] :=
  ⟨opened_audited made name handler.recorded memory (exceptions.recorded handler) scene,
    openedRecorded_trails (Ring.make_counted made) name handler memory exceptions scene⟩

end Account
end MessageRing
