import MessageRing.Proofs.Ring.Halt
import MessageRing.Proofs.Worker.Account

/-!
A worker comes to its end, and what it has done by then.

On a halted ring with no claim outstanding no other party can change anything. A worker then has
only so many sequences left, and every turn of its handler only so many moves, so it ends as soon
as it is given enough steps that nothing keeps from happening.
-/
namespace MessageRing
variable {α η σ : Type}

/-- Every turn comes to an end: what holds of a turn if it holds of all that its next move may lead
to holds of every turn. -/
@[elab_as_elim]
theorem Turn.move_induction {ω : Type} {motive : Turn α ω → Prop}
    (step : ∀ turn : Turn α ω, (∀ (r : Ring α) (world : ω) (turn' : Turn α ω) (r' : Ring α)
      (world' : ω), turn.move r world = some (turn', r', world') → motive turn') → motive turn)
    (turn : Turn α ω) : motive turn := by
  refine @Turn.rec α ω motive
    (fun result => ∀ turn world, result = some (turn, world) → motive turn)
    (fun pair => motive pair.1) ?_ ?_ ?_ ?_ ?_ ?_ ?_ ?_ turn
  · intro outcome
    exact step _ fun _ _ _ _ _ h => by cases h
  · intro run ih
    refine step _ fun r world turn' r' world' h => ?_
    obtain ⟨next, hrun, he⟩ := Option.map_eq_some_iff.mp h
    cases he
    exact ih world _ _ hrun
  · intro item next ih
    refine step _ fun r world turn' r' world' h => ?_
    obtain ⟨-, -, response, rfl⟩ := Turn.move_attempt h
    exact ih response
  · intro next ih
    refine step _ fun r world turn' r' world' h => ?_
    cases h
    exact ih
  · intro next ih
    refine step _ fun r world turn' r' world' h => ?_
    cases h
    exact ih _
  · intro turn world h
    cases h
  · intro pair ih turn world h
    cases h
    exact ih
  · intro turn world ih
    exact ih

namespace Ring

/-- Nobody but the consumer can change the ring any more. -/
structure Quiet (r : Ring α) : Prop where
  halted : r.halted = true
  settled : r.outstanding = []

namespace Quiet
variable {r : Ring α}

theorem claimed_eq (h : r.Quiet) (counted : r.Counted) : r.claimed = r.cursor := by
  have hlength := counted.length_outstanding
  rw [h.settled, List.length_nil] at hlength
  omega

theorem step {r' : Ring α} {notes : List (Note α)} (h : r.Quiet) (step : Step r notes r') :
    r'.Quiet ∧ r'.cursor = r.cursor := by
  have hheld : r.held = [] := (List.append_eq_nil_iff.mp h.settled).1
  cases step with
  | grant running free alone =>
    rw [h.halted] at running
    cases running
  | store content held | handIn held =>
    rw [hheld] at held
    cases held
  | halt => exact ⟨⟨rfl, h.settled⟩, rfl⟩
  | _ => exact ⟨⟨h.halted, h.settled⟩, rfl⟩

theorem path {r' : Ring α} {notes : List (Note α)} (h : r.Quiet) (path : Path r notes r') :
    r'.Quiet ∧ r'.cursor = r.cursor := by
  induction path with
  | nil => exact ⟨h, rfl⟩
  | cons step rest ih =>
    obtain ⟨hstep, hcursor⟩ := h.step step
    exact ⟨(ih hstep).1, (ih hstep).2.trans hcursor⟩

theorem answer_eq (h : r.Quiet) (consumed : r.consumed = true) {call : Call α}
    (other : call.consumes = false) : (r.answer call).2 = r := by
  have hheld : r.held = [] := (List.append_eq_nil_iff.mp h.settled).1
  cases call with
  | push _ | pushEmpty | claim | claimBlocking => rw [answer_of_halted h.halted rfl]
  | consumer => simp [answer, takeConsumer, consumed]
  | next => simp [answer, onConsumer, consumed]
  | halt =>
    change { r with halted := true } = r
    rw [← h.halted]
  | status => rfl
  | waitFor _ | drain _ _ _ | release _ => cases other
  | _ => simp [answer, onClaim, hheld]

end Quiet
end Ring

/-- Outside code is at work: the handler or the exception handler. -/
def Phase.outside : Phase α η σ → Bool
  | .starting _ | .handling _ _ _ _ | .reporting _ _ _ _ | .stopping _ => true
  | _ => false

/-- A bound on how often a worker changes its phase before the end, if the ring stays as it is. -/
def Phase.rank (cursor next : Int) : Phase α η σ → Nat
  | .created => 5 * (cursor + 1 - next).toNat + 4
  | .starting _ => 5 * (cursor + 1 - next).toNat + 3
  | .waiting => 5 * (cursor + 1 - next).toNat + 2
  | .draining window _ =>
    5 * (cursor + 1 - window.next).toNat + if window.next ≤ window.available then 1 else 3
  | .handling _ _ window _ => 5 * (cursor + 1 - window.next).toNat + 5
  | .reporting _ _ window _ => 5 * (cursor + 1 - window.next).toNat + 4
  | .stopping _ => 1
  | .finished | .died _ => 0

namespace Station
variable {s s' : Station α η σ} {scene scene' : Scene σ} {notes : List (Note α)}
  {notices trace : List (Notice α)} {l : Ledger α}

def rank (s : Station α η σ) : Nat := s.worker.phase.rank s.ring.cursor s.worker.next

/-- The worker is at its work and nobody else is. -/
structure Alone (s : Station α η σ) : Prop where
  quiet : s.ring.Quiet
  normal : s.worker.exceptions.Normal
  account : ∃ l trace, s.ring.Books l ∧ s.Tells l trace

theorem Does.alone (does : Does s scene notes notices s' scene') (h : s.Alone) :
    s'.Alone ∧ s'.ring.cursor = s.ring.cursor := by
  obtain ⟨l, trace, hbooks, htells⟩ := h.account
  have hpath := does.path hbooks.counted (available_le hbooks htells)
  obtain ⟨hquiet, hcursor⟩ := h.quiet.path hpath
  refine ⟨⟨hquiet, ?_, l.read notes, trace ++ notices, ?_, ?_⟩, hcursor⟩
  · rw [does.keeps.2.2]
    exact h.normal
  · exact hpath.books hbooks (does.orderly htells)
  · exact does.tells (does.alive h.normal hbooks htells) hbooks htells

/-- Every step but a move of the handler brings the end nearer, if nothing more becomes visible. -/
theorem Does.rank_lt (does : Does s scene notes notices s' scene') (books : s.ring.Books l)
    (tells : s.Tells l trace) (same : s'.ring.cursor = s.ring.cursor) :
    s'.rank < s.rank ∨ ∃ resume turn turn' ring memory scene',
      Phase.Resumes resume ∧ s.worker.phase = resume turn ∧
      turn.move s.ring (s.worker.memory, scene) = some (turn', ring, memory, scene') ∧
      s'.worker.phase = resume turn' ∧ s'.rank = s.rank := by
  unfold rank
  rw [same]
  cases does with
  | turn resumes phase move =>
    refine .inr ⟨_, _, _, _, _, _, resumes, phase, move, rfl, ?_⟩
    rw [phase]
    cases resumes <;> rfl
  | @returned ended sequence window tally phase =>
    left
    rw [phase]
    cases hfailed : ended.failure? with
    | none =>
      simp only [setPhase, Phase.rank]
      split_ifs <;> omega
    | some error =>
      simp only [setPhase, Phase.rank]
      omega
  | begin phase | started phase | finish phase =>
    left
    simp [setPhase, Phase.rank, phase]
  | enter phase visible =>
    left
    simp [setPhase, Phase.rank, phase, visible]
  | leave phase hidden halted unclaimed =>
    left
    simp [setPhase, Phase.rank, phase]
  | call phase more entry =>
    left
    have hvisible := available_le books tells _ _ phase
    simp only [setPhase, Phase.rank, phase, if_pos more]
    omega
  | skip phase more entry =>
    left
    have hvisible := available_le books tells _ _ phase
    simp only [setPhase, Phase.rank, phase, if_pos more]
    split_ifs <;> omega
  | release phase empty later visible =>
    left
    obtain ⟨current, within⟩ := (tells.at phase).within
    have hnext := within.next_le
    simp only [Phase.rank, phase, if_neg (not_le.mpr empty)]
    omega
  | report phase report =>
    left
    simp only [setPhase, Phase.rank, phase]
    split_ifs <;> omega
  | misused phase empty release =>
    left
    simp only [setPhase, Phase.rank, phase]
    split_ifs <;> omega
  | die phase report =>
    left
    simp [setPhase, Phase.rank, phase]

/-- The worker comes to its end by itself, whatever happens to the world on the way. -/
inductive Ends : Station α η σ → Prop
  | finished {s : Station α η σ} (phase : s.worker.phase = .finished) : Ends s
  | step {s : Station α η σ}
      (ready : s.worker.phase.outside = false → ∀ scene, s.step scene ≠ none)
      (next : ∀ scene s' scene', s.step scene = some (s', scene') → Ends s') : Ends s

/-- A worker with no outside code at work has a step to take, unless it has come to its end or waits
for something to become visible. -/
theorem waits_of_step (tells : s.Tells l trace) (inside : s.worker.phase.outside = false)
    (unfinished : s.worker.phase ≠ .finished) (waits : s.step scene = none) :
    s.worker.phase = .waiting ∧ s.ring.waitFor s.worker.next = .waits := by
  unfold step at waits
  cases phase : s.worker.phase with
  | created | draining _ _ => simp [phase] at waits
  | waiting =>
    refine ⟨rfl, ?_⟩
    cases hwait : s.ring.waitFor s.worker.next with
    | waits => rfl
    | halted => simp [phase, await, hwait] at waits
    | upTo available =>
      obtain ⟨rfl, -⟩ := Ring.waitFor_upTo hwait
      have hdrain : s.ring.drainUpTo s.worker.next s.ring.cursor =
          .ok ⟨s.worker.next, s.ring.cursor⟩ := if_neg (lt_irrefl _)
      simp [phase, await, hwait, hdrain] at waits
  | finished => exact absurd phase unfinished
  | died p => exact absurd phase (tells.alive p)
  | _ =>
    rw [phase] at inside
    cases inside

/-- A worker that need not wait for outside code has a step to take. -/
theorem Alone.ready (h : s.Alone) (inside : s.worker.phase.outside = false)
    (unfinished : s.worker.phase ≠ .finished) (scene : Scene σ) : s.step scene ≠ none := by
  obtain ⟨l, trace, hbooks, htells⟩ := h.account
  intro waits
  obtain ⟨hhidden, hopen⟩ :=
    Ring.waitFor_eq_waits_iff.mp (waits_of_step htells inside unfinished waits).2
  exact hopen ⟨h.quiet.halted, by rwa [h.quiet.claimed_eq hbooks.counted]⟩

theorem ends_of_turn {resume : Turn α (η × Scene σ) → Phase α η σ}
    (resumes : Phase.Resumes resume) {n : Nat}
    (smaller : ∀ s : Station α η σ, s.rank < n → s.Alone → s.Ends)
    (turn : Turn α (η × Scene σ)) (s : Station α η σ) (phase : s.worker.phase = resume turn)
    (rank : s.rank = n) (h : s.Alone) : s.Ends := by
  -- moves of the handler leave the rank as it is, so within one rank the turn gets smaller
  induction turn using Turn.move_induction generalizing s with
  | step turn ih =>
    refine .step (fun inside => ?_) fun scene s' scene' hstep => ?_
    · rw [phase] at inside
      cases resumes <;> cases inside
    · have hdoes := step_does hstep
      obtain ⟨hnext, hcursor⟩ := hdoes.alone h
      obtain ⟨l, trace, hbooks, htells⟩ := h.account
      rcases hdoes.rank_lt hbooks htells hcursor with hlt | ⟨resume', now, later, ring, memory,
        scene₂, hresumes, hphase, hmove, hphase', hrank⟩
      · exact smaller s' (hlt.trans_eq rank) hnext
      · have hsame : resume' = resume ∧ now = turn := by
          rw [phase] at hphase
          cases resumes <;> cases hresumes <;> cases hphase <;> exact ⟨rfl, rfl⟩
        obtain ⟨rfl, rfl⟩ := hsame
        exact ih _ _ _ _ _ hmove s' hphase' (hrank.trans rank) hnext

theorem Alone.ends (h : s.Alone) : s.Ends := by
  induction hn : s.rank using Nat.strong_induction_on generalizing s with
  | _ n ih =>
    have hsmaller : ∀ s : Station α η σ, s.rank < n → s.Alone → s.Ends :=
      fun s hlt hs => ih s.rank hlt hs rfl
    cases phase : s.worker.phase with
    | finished => exact .finished phase
    | starting turn => exact ends_of_turn .starting hsmaller turn s phase hn h
    | handling turn sequence window tally =>
      exact ends_of_turn (.handling sequence window tally) hsmaller turn s phase hn h
    | stopping turn => exact ends_of_turn .stopping hsmaller turn s phase hn h
    | _ =>
      refine .step (fun inside => h.ready inside (by simp [phase])) fun scene s' scene' hstep => ?_
      have hdoes := step_does hstep
      obtain ⟨hnext, hcursor⟩ := hdoes.alone h
      obtain ⟨l, trace, hbooks, htells⟩ := h.account
      refine (hdoes.rank_lt hbooks htells hcursor).elim
        (fun hlt => hsmaller s' (hlt.trans_eq hn) hnext) ?_
      rintro ⟨resume, turn, _, _, _, _, hresumes, hphase, _⟩
      rw [phase] at hphase
      cases hresumes <;> cases hphase

end Station

namespace Account
variable {a : Account α η σ}

/-- Outside code keeps the worker waiting. -/
def HeldUp (a : Account α η σ) : Prop :=
  a.station.worker.phase.outside = true ∧ a.station.step a.scene = none

/-- The account after some deeds of a schedule. -/
def along (a : Account α η σ) (schedule : Nat → Deed α σ) : Nat → Account α η σ
  | 0 => a
  | n + 1 => (a.along schedule n).next (schedule n)

/-- The worker gets a step again and again, and outside code does not always keep it waiting. -/
def Fair (a : Account α η σ) (schedule : Nat → Deed α σ) : Prop :=
  ∀ n, ∃ m, n ≤ m ∧ schedule m = .work ∧ ¬ (a.along schedule m).HeldUp

theorem along_keeps (a : Account α η σ) (schedule : Nat → Deed α σ) (n : Nat) :
    (a.along schedule n).station.worker.name = a.station.worker.name ∧
      (a.along schedule n).station.worker.handler = a.station.worker.handler ∧
      (a.along schedule n).station.worker.exceptions = a.station.worker.exceptions := by
  induction n with
  | zero => exact ⟨rfl, rfl, rfl⟩
  | succ n ih =>
    obtain ⟨hname, hhandler, hexceptions⟩ := (a.along schedule n).next_keeps (schedule n)
    exact ⟨hname.trans ih.1, hhandler.trans ih.2.1, hexceptions.trans ih.2.2⟩

theorem Sound.along (h : a.Sound) (normal : a.station.worker.exceptions.Normal)
    (schedule : Nat → Deed α σ) (n : Nat) : (a.along schedule n).Sound := by
  induction n with
  | zero => exact h
  | succ n ih =>
    refine ih.next ?_ (schedule n)
    rw [(a.along_keeps schedule n).2.2]
    exact normal

/-- Only the worker itself can change a station whose ring is quiet. -/
theorem next_station (h : a.Sound) (quiet : a.station.ring.Quiet) (deed : Deed α σ) :
    ((a.next deed).station = a.station ∧
      (deed = .work → a.station.step a.scene = none)) ∨
    ∃ scene, a.station.step a.scene = some ((a.next deed).station, scene) := by
  cases deed with
  | work =>
    cases hstep : a.station.step a.scene with
    | none => exact .inl ⟨by rw [next_work_of_none hstep], fun _ => rfl⟩
    | some next => exact .inr ⟨next.2, by rw [next_work_of_some hstep]⟩
  | call call other =>
    left
    refine ⟨?_, fun h => by cases h⟩
    change { a.station with ring := (a.station.ring.answer call).2 } = a.station
    rw [quiet.answer_eq h.consumed other]
  | world change => exact .inl ⟨rfl, fun h => by cases h⟩

theorem next_quiet (h : a.Sound) (quiet : a.station.ring.Quiet) (deed : Deed α σ) :
    (a.next deed).station.ring.Quiet := by
  rcases next_station h quiet deed with ⟨hsame, _⟩ | ⟨scene, hstep⟩
  · rw [hsame]
    exact quiet
  · have hpath := (Station.step_does hstep).path h.books.counted
      (Station.available_le h.books h.tells)
    exact (quiet.path hpath).1

theorem Sound.alone (h : a.Sound) (quiet : a.station.ring.Quiet)
    (normal : a.station.worker.exceptions.Normal) : a.station.Alone :=
  ⟨quiet, normal, _, _, h.books, h.tells⟩

/-- From a quiet ring on a worker that ends by itself ends on every fair schedule. -/
theorem exists_finished {schedule : Nat → Deed α σ} (fair : a.Fair schedule)
    (sound : ∀ n, (a.along schedule n).Sound) {s : Station α η σ} (ends : s.Ends) (n : Nat)
    (here : (a.along schedule n).station = s) (quiet : (a.along schedule n).station.ring.Quiet) :
    ∃ m, (a.along schedule m).station.worker.phase = .finished := by
  induction ends generalizing n with
  | finished phase => exact ⟨n, by rw [here]; exact phase⟩
  | @step s ready next ih =>
    obtain ⟨m, hle, hwork, hfree⟩ := fair n
    obtain ⟨wait, rfl⟩ := Nat.exists_eq_add_of_le hle
    -- the worker takes its next step at the latest when it gets one that nothing holds up
    induction wait generalizing n with
    | zero =>
      have hstep : (a.along schedule n).station.step (a.along schedule n).scene ≠ none := by
        by_cases inside : s.worker.phase.outside = true
        · exact fun hnone => hfree ⟨by rw [Nat.add_zero, here]; exact inside, hnone⟩
        · rw [here]
          exact ready (by simpa using inside) _
      rcases next_station (sound n) quiet (schedule n) with ⟨_, hnone⟩ | ⟨scene, hnext⟩
      · exact absurd (hnone hwork) hstep
      · rw [here] at hnext
        exact ih _ _ _ hnext (n + 1) rfl (next_quiet (sound n) quiet _)
    | succ wait ihwait =>
      have hquiet := next_quiet (sound n) quiet (schedule n)
      rcases next_station (sound n) quiet (schedule n) with ⟨hsame, _⟩ | ⟨scene, hnext⟩
      · have hlater : n + (wait + 1) = n + 1 + wait := by omega
        rw [hlater] at hwork hfree
        exact ihwait (n + 1) (hsame.trans here) hquiet (by omega) hwork hfree
      · rw [here] at hnext
        exact ih _ _ _ hnext (n + 1) rfl hquiet

/-- What was claimed on the ring of an account, with what was stored there. -/
def claimed (a : Account α η σ) : List (Int × Option α) :=
  (sequences (a.station.ring.claimed + 1).toNat).map fun s => (s, a.ledger.content s)

/-- A worker that has come to its end has taken and given back all that was claimed. -/
theorem Sound.finished (h : a.Sound) (phase : a.station.worker.phase = .finished) :
    a.ledger.drained = a.claimed ∧ a.station.ring.gating = a.station.ring.claimed := by
  obtain ⟨-, hunclaimed⟩ := h.closed (by rw [phase]; rfl)
  obtain ⟨outcome, windows, ended, past, -⟩ := (h.tells.at phase).told
  have hlength : (a.ledger.drained.length : Int) = a.station.worker.next + 0 :=
    past.length_drained
  have hreleased : a.ledger.released + 1 = a.station.worker.next := past.released
  have hcursor := h.books.counted.cursor_le
  have hdrained := h.books.drained_le
  have hgating := h.books.released
  -- the worker has taken no more than is visible, and it is past all that was claimed
  have hall : a.ledger.drained.length = (a.station.ring.claimed + 1).toNat := by omega
  refine ⟨?_, by omega⟩
  have hbooks := h.books.drained
  rw [hall] at hbooks
  exact hbooks

/-- A schedule on which the worker ends and nobody else goes on is fair. -/
theorem fair_of_finished {schedule : Nat → Deed α σ} {n : Nat}
    (phase : (a.along schedule n).station.worker.phase = .finished)
    (late : ∀ m, n ≤ m → schedule m = .work) : a.Fair schedule := by
  have hsame : ∀ m, n ≤ m → a.along schedule m = a.along schedule n := fun m hle => by
    induction m, hle using Nat.le_induction with
    | base => rfl
    | succ m hle ih =>
      rw [along, late m hle, ih]
      exact next_work_of_none (Station.step_of_ended _ (by rw [phase]; rfl))
  intro m
  refine ⟨max n m, le_max_right _ _, late _ (le_max_left _ _), fun held => ?_⟩
  have hinside := held.1
  rw [hsame _ (le_max_left _ _), phase] at hinside
  cases hinside

end Account
end MessageRing
