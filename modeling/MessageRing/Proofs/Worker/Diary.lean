import MessageRing.Proofs.Acts
import MessageRing.Proofs.Ring.Metrics
import MessageRing.Proofs.Worker.Conduct

/-!
What the handlers of a worker write down themselves.

The rules of a worker say what should be noticed of it. What has happened is read off something
else: a recorded handler keeps a diary of its calls and of how they ended, a recorded exception
handler adds what was reported to it, and a step is observed by what it has changed in the diary, in
the log and at the ring. The two accounts of a worker are never more than one notice apart, and they
agree whenever no call is under way.
-/
namespace MessageRing
variable {α η σ ρ : Type}

/-- What was written down, oldest first, with the handler that it concerns. -/
abbrev Diary (α η σ : Type) := List (EventHandler α η σ × Notice α)

/-- Adds to the record beside the world. -/
def Scene.write (scene : Scene (List ρ × σ)) (entries : List ρ) : Scene (List ρ × σ) :=
  scene.withOutside (scene.outside.1 ++ entries, scene.outside.2)

mutual

/-- The same turn in a world with a record beside it: its outcome is written down before it is
over. -/
def Turn.recorded (mark : Notice α → ρ) :
    Turn α (η × Scene σ) → Turn α (η × Scene (List ρ × σ))
  | .finish outcome => .access fun (memory, scene) =>
    some (.finish outcome, memory, scene.write [mark (.returned outcome)])
  | .access run => .access fun (memory, scene) =>
    Turn.recordedResult mark scene.outside.1 (run (memory, scene.withOutside scene.outside.2))
  | .attempt item next => .attempt item fun answer => (next answer).recorded mark
  | .halt next => .halt (next.recorded mark)
  | .look next => .look fun status => (next status).recorded mark

def Turn.recordedResult (mark : Notice α → ρ) (record : List ρ) :
    Option (Turn α (η × Scene σ) × η × Scene σ) →
      Option (Turn α (η × Scene (List ρ × σ)) × η × Scene (List ρ × σ))
  | none => none
  | some next => some (Turn.recordedNext mark record next)

def Turn.recordedNext (mark : Notice α → ρ) (record : List ρ) :
    Turn α (η × Scene σ) × η × Scene σ →
      Turn α (η × Scene (List ρ × σ)) × η × Scene (List ρ × σ)
  | (turn, world) =>
    (turn.recorded mark, world.1, world.2.withOutside (record, world.2.outside))

end

namespace Turn
variable {mark : Notice α → ρ} {turn : Turn α (η × Scene σ)} {r ring : Ring α} {memory memory' : η}
  {scene scene' : Scene (List ρ × σ)} {turn' : Turn α (η × Scene (List ρ × σ))}

theorem recordedResult_eq (mark : Notice α → ρ) (record : List ρ)
    (result : Option (Turn α (η × Scene σ) × η × Scene σ)) :
    recordedResult mark record result = result.map fun (turn, memory, scene) =>
      (turn.recorded mark, memory, scene.withOutside (record, scene.outside)) := by
  cases result with
  | none => rfl
  | some after =>
    obtain ⟨turn, memory, scene⟩ := after
    rfl

theorem afterPush_map {ω ω' : Type} (f : Turn α ω → Turn α ω') (outcome : Response Int × Ring α)
    (next : Except (Fault RingError) Int → Turn α ω) :
    afterPush outcome (fun answer => f (next answer)) =
      (afterPush outcome next).map fun (turn, ring) => (f turn, ring) := by
  obtain ⟨response, ring⟩ := outcome
  cases response <;> rfl

/-- Until it is over a recorded turn moves as the turn itself does, and leaves the record alone. -/
theorem move_recorded (mark : Notice α → ρ) (going : ∀ outcome, turn ≠ .finish outcome)
    (r : Ring α) (memory : η) (scene : Scene (List ρ × σ)) :
    (turn.recorded mark).move r (memory, scene) =
      (turn.move r (memory, scene.withOutside scene.outside.2)).map
        fun (turn, ring, memory, after) =>
          (turn.recorded mark, ring, memory,
            after.withOutside (scene.outside.1, after.outside)) := by
  cases turn with
  | finish outcome => exact absurd rfl (going outcome)
  | access run =>
    rw [Turn.recorded]
    simp only [move, recordedResult_eq, Option.map_map]
    rfl
  | attempt item next =>
    rw [Turn.recorded]
    cases item <;>
      simp only [move, afterPush_map (Turn.recorded mark), Option.map_map] <;> rfl
  | halt next => rfl
  | look next => rfl

/-- The turn of a call that is written down first. -/
def noted (mark : Notice α → ρ) (call : HandlerCall α) (turn : Turn α (η × Scene σ)) :
    Turn α (η × Scene (List ρ × σ)) :=
  .access fun (memory, scene) =>
    some (turn.recorded mark, memory, scene.write [mark (.called call)])

theorem move_noted {call : HandlerCall α}
    (move : (turn.noted mark call).move r (memory, scene) = some (turn', ring, memory', scene')) :
    turn' = turn.recorded mark ∧ scene'.outside.1 = scene.outside.1 ++ [mark (.called call)] := by
  cases move
  exact ⟨rfl, rfl⟩

theorem move_over {outcome : Outcome} (move : (Turn.recorded mark (.finish outcome)).move r
      (memory, scene) = some (turn', ring, memory', scene')) :
    turn' = .finish outcome ∧
      scene'.outside.1 = scene.outside.1 ++ [mark (.returned outcome)] := by
  cases move
  exact ⟨rfl, rfl⟩

theorem recorded_ne_finish (mark : Notice α → ρ) (turn : Turn α (η × Scene σ))
    (outcome : Outcome) : turn.recorded mark ≠ .finish outcome := by
  cases turn <;> rw [Turn.recorded] <;> exact nofun

end Turn

/-- The same handler in a world with a diary beside it. It writes down each of its calls when it has
begun and how it has ended, under its own name. -/
def EventHandler.recorded (handler : EventHandler α η σ) :
    EventHandler α η (Diary α η σ × σ) where
  onEvent item sequence last :=
    (handler.onEvent item sequence last).noted (handler, ·) (.event item sequence last)
  onEndOfBatch sequence := (handler.onEndOfBatch sequence).noted (handler, ·) (.endOfBatch sequence)
  onStart := handler.onStart.noted (handler, ·) .start
  onShutdown := handler.onShutdown.noted (handler, ·) .shutdown

theorem HandlerCall.turn_recorded (call : HandlerCall α) (handler : EventHandler α η σ) :
    call.turn handler.recorded = (call.turn handler).noted (handler, ·) call := by
  cases call <;> rfl

namespace ExceptionHandler

/-- The same exception handler for the failures of a recorded handler. -/
def recorded (exceptions : ExceptionHandler σ) (handler : EventHandler α η σ) :
    ExceptionHandler (Diary α η σ × σ) :=
  fun error sequence =>
    (exceptions error sequence).recorded fun _ => [(handler, .reported error sequence)]

variable {exceptions : ExceptionHandler σ} {handler : EventHandler α η σ}

theorem Normal.recorded (normal : exceptions.Normal) (handler : EventHandler α η σ) :
    (exceptions.recorded handler).Normal :=
  fun error sequence _ p _ h => normal error sequence _ p _ (Act.recorded_eq_some h).2

theorem Panics.of_recorded {p : Panic} (h : (exceptions.recorded handler).Panics p) :
    exceptions.Panics p := by
  obtain ⟨error, sequence, _, _, hpanicked⟩ := h
  exact ⟨error, sequence, _, _, (Act.recorded_eq_some hpanicked).2⟩

end ExceptionHandler

/-- Outside code has the next step, and may report to the log itself. -/
def Phase.lent : Phase α η σ → Bool
  | .starting (.finish _) | .handling (.finish _) _ _ _ | .stopping (.finish _) => false
  | phase => phase.outside

/-- The window under way. -/
def Phase.window? : Phase α η σ → Option Drain
  | .draining window _ | .handling _ _ window _ | .reporting _ _ window _ => some window
  | _ => none

/-- What was added to the diary. -/
def Diary.since (before after : Diary α η σ) : List (Notice α) :=
  (after.drop before.length).map Prod.snd

namespace Diary

@[simp] theorem since_self (diary : Diary α η σ) : since diary diary = [] := by
  simp [since]

@[simp] theorem since_append (diary entries : Diary α η σ) :
    since diary (diary ++ entries) = entries.map Prod.snd := by
  simp [since]

end Diary

theorem Scene.reportAll_log (scene : Scene σ) (records : List Record) :
    (scene.reportAll records).log = scene.log ++ records := by
  induction records generalizing scene with
  | nil => exact (List.append_nil _).symm
  | cons record records ih => exact (ih (scene.report record)).trans (List.append_assoc _ _ _)

namespace Station

/-- What the ring tells a worker that asks for its next window. -/
def told (s : Station α η σ) : List (Notice α) :=
  match s.worker.phase, s.ring.waitFor s.worker.next with
  | .waiting, .upTo available => [.entered available]
  | _, _ => []

/-- What a step has done, by the diary, the log and the ring before and after it. -/
def observed (s : Station α η (Diary α η σ × σ)) (scene : Scene (Diary α η σ × σ))
    (s' : Station α η (Diary α η σ × σ)) (scene' : Scene (Diary α η σ × σ)) : List (Notice α) :=
  s.told ++ Diary.since scene.outside.1 scene'.outside.1 ++
    (if s.worker.phase.lent then [] else (scene'.log.drop scene.log.length).map .logged) ++
    if s'.ring.gating = s.ring.gating then [] else [.released s'.ring.gating]

/-- Calls are observed in the diary alone. -/
theorem calls_observed (s s' : Station α η (Diary α η σ × σ))
    (scene scene' : Scene (Diary α η σ × σ)) :
    (s.observed scene s' scene').filterMap Notice.call? =
      (Diary.since scene.outside.1 scene'.outside.1).filterMap Notice.call? := by
  have htold : s.told.filterMap Notice.call? = [] := by
    unfold told
    split <;> rfl
  have hlogged (records : List Record) :
      (records.map (Notice.logged (α := α))).filterMap Notice.call? = [] := by
    simp [List.filterMap_map, Function.comp_def, Notice.call?]
  have hreleased (s : Int) : [Notice.released (α := α) s].filterMap Notice.call? = [] := rfl
  unfold observed
  rw [List.filterMap_append, List.filterMap_append, List.filterMap_append, htold]
  split_ifs <;>
    simp only [hlogged, hreleased, List.filterMap_nil, List.nil_append, List.append_nil]

/-- The diary is behind by a call that has just begun, or ahead by an outcome that the worker has
not looked at yet. -/
inductive Lag (handler : EventHandler α η σ) :
    Option (Turn α (η × Scene (Diary α η σ × σ))) → List (Notice α) → List (Notice α) → Prop
  | rest (trace : List (Notice α)) : Lag handler none trace trace
  | begun (call : HandlerCall α) (seen : List (Notice α)) :
    Lag handler (some ((call.turn handler).noted (handler, ·) call)) (seen ++ [.called call]) seen
  | within (turn : Turn α (η × Scene σ)) (trace : List (Notice α)) :
    Lag handler (some (turn.recorded (handler, ·))) trace trace
  | ended (outcome : Outcome) (trace : List (Notice α)) :
    Lag handler (some (.finish outcome)) trace (trace ++ [.returned outcome])

/-- A recorded worker of which one thing was noticed and another one written down. -/
structure Trails (s : Station α η (Diary α η σ × σ)) (handler : EventHandler α η σ)
    (trace seen : List (Notice α)) : Prop where
  handler_eq : s.worker.handler = handler.recorded
  exceptions_eq : ∃ exceptions, s.worker.exceptions = ExceptionHandler.recorded exceptions handler
  lag : Lag handler s.worker.phase.turn? trace seen
  counted : s.ring.Counted
  next : s.worker.next = s.ring.gating + 1
  ahead : ∀ window ∈ s.worker.phase.window?,
    s.worker.next ≤ window.available ∧ window.available ≤ s.ring.cursor

variable {s s' : Station α η (Diary α η σ × σ)} {scene scene' : Scene (Diary α η σ × σ)}
  {handler : EventHandler α η σ} {notes : List (Note α)} {notices trace seen : List (Notice α)}

namespace Lag
variable {turn? : Option (Turn α (η × Scene (Diary α η σ × σ)))}

theorem of_none (h : Lag handler none trace seen) : seen = trace := by
  cases h
  rfl

theorem of_finish {outcome : Outcome} (h : Lag handler (some (.finish outcome)) trace seen) :
    seen = trace ++ [.returned outcome] := by
  generalize hturn : some (Turn.finish outcome) = turn? at h
  cases h with
  | rest => cases hturn
  | begun call => cases hturn
  | within turn =>
    exact absurd (Option.some.inj hturn).symm (Turn.recorded_ne_finish _ turn outcome)
  | ended outcome' =>
    cases hturn
    rfl

theorem resting (idle : turn? = none) (same : seen = trace) : Lag handler turn? trace seen := by
  subst idle same
  exact .rest _

theorem calling (call : HandlerCall α) (begun : turn? = some (call.turn handler.recorded))
    (behind : trace = seen ++ [.called call]) : Lag handler turn? trace seen := by
  rw [begun, behind, call.turn_recorded]
  exact .begun call seen

/-- A move of the handler adds to the diary what the worker is told a step earlier or later. -/
theorem move {turn turn' : Turn α (η × Scene (Diary α η σ × σ))} {r ring : Ring α}
    {memory memory' : η} (h : Lag handler (some turn) trace seen)
    (move : turn.move r (memory, scene) = some (turn', ring, memory', scene')) :
    ∃ added : List (Notice α), scene'.outside.1 = scene.outside.1 ++ added.map (handler, ·) ∧
      Lag handler (some turn') trace (seen ++ added) := by
  cases h with
  | begun call =>
    obtain ⟨rfl, hadded⟩ := Turn.move_noted move
    exact ⟨[.called call], hadded, .within _ _⟩
  | within turn =>
    by_cases hover : ∃ outcome, turn = .finish outcome
    · obtain ⟨outcome, rfl⟩ := hover
      obtain ⟨rfl, hadded⟩ := Turn.move_over move
      exact ⟨[.returned outcome], hadded, .ended outcome trace⟩
    · rw [Turn.move_recorded _ (not_exists.mp hover)] at move
      obtain ⟨⟨next, _, _, after⟩, _, he⟩ := Option.map_eq_some_iff.mp move
      cases he
      exact ⟨[], (List.append_nil _).symm, by rw [List.append_nil]; exact .within next trace⟩
  | ended outcome => cases move

end Lag

theorem Does.lag (does : Does s scene notes notices s' scene') (h : s.Trails handler trace seen) :
    Lag handler s'.worker.phase.turn? (trace ++ notices) (seen ++ s.observed scene s' scene') := by
  obtain ⟨hhandler, ⟨exceptions, hexceptions⟩, hlag, -, hnext, hahead⟩ := h
  cases does with
  | begin phase =>
    rw [phase] at hlag
    refine .calling .start (by rw [← hhandler]; rfl) ?_
    simp [hlag.of_none, observed, told, phase, Phase.lent, Phase.outside, setPhase, Scene.report]
  | @turn resume turn turn' ring memory scene' resumes phase move =>
    have hstill : ring.gating = s.ring.gating :=
      Turn.move_spared Ring.spared_gating (fun _ => rfl) move
    rw [phase, resumes.turn?_eq] at hlag
    have hlent : s.worker.phase.lent = true := by
      rw [phase]
      cases resumes <;> cases turn <;> first | rfl | cases move
    have hsilent : s.told = [] := by
      cases resumes <;> simp [told, phase]
    obtain ⟨added, hadded, hnext⟩ := hlag.move move
    rw [resumes.turn?_eq]
    simpa [observed, hlent, hsilent, hstill, hadded, Function.comp_def] using hnext
  | @started outcome phase =>
    rw [phase] at hlag
    refine .resting rfl ?_
    simp [hlag.of_finish, observed, told, phase, Phase.lent, setPhase, Scene.reportAll_log]
  | enter phase visible =>
    rw [phase] at hlag
    have hwait := Ring.waitFor_eq_upTo_iff.mpr ⟨rfl, visible⟩
    refine .resting rfl ?_
    simp [hlag.of_none, observed, told, phase, Phase.lent, Phase.outside, setPhase, hwait]
  | leave phase hidden halted unclaimed =>
    rw [phase] at hlag
    have hwait := Ring.waitFor_eq_halted_iff.mpr ⟨hidden, halted, unclaimed⟩
    refine .calling .shutdown (by rw [← hhandler]; rfl) ?_
    simp [hlag.of_none, observed, told, phase, Phase.lent, Phase.outside, setPhase, hwait]
  | call phase more entry =>
    rw [phase] at hlag
    refine .calling _ (by rw [← hhandler]; rfl) ?_
    simp [hlag.of_none, observed, told, phase, Phase.lent, Phase.outside, setPhase, Ring.put]
  | skip phase more entry =>
    rw [phase] at hlag
    refine .resting rfl ?_
    simp [hlag.of_none, observed, told, phase, Phase.lent, Phase.outside, setPhase, Ring.put]
  | @release window tally phase empty later visible =>
    rw [phase] at hlag hahead
    -- the window reaches beyond what was given back before, so its release shows at the ring
    have hfirst : s.worker.next ≤ window.available := (hahead window rfl).1
    have hmoved : window.available ≠ s.ring.gating := by omega
    refine .resting rfl ?_
    simp [hlag.of_none, observed, told, phase, Phase.lent, Phase.outside, Ring.count_gating, hmoved]
  | @returned outcome sequence window tally phase =>
    rw [phase] at hlag
    refine .resting ?_ ?_
    · cases hfailed : outcome.failure? <;> rfl
    · simp [hlag.of_finish, observed, told, phase, Phase.lent, setPhase]
  | report phase report =>
    rw [phase] at hlag
    rw [hexceptions] at report
    have hadded := (Act.recorded_eq_some report).1
    refine .resting rfl ?_
    simp [hlag.of_none, observed, told, phase, Phase.lent, Phase.outside, setPhase, hadded]
  | finish phase =>
    rw [phase] at hlag
    refine .resting rfl ?_
    simp [hlag.of_finish, observed, told, phase, Phase.lent, setPhase, Scene.reportAll_log]
  | misused phase empty release =>
    rw [phase] at hlag
    refine .resting rfl ?_
    simp [hlag.of_none, observed, told, phase, Phase.lent, Phase.outside, setPhase]
  | die phase report =>
    rw [phase] at hlag
    rw [hexceptions] at report
    have hadded := (Act.recorded_eq_some report).1
    refine .resting rfl ?_
    simp [hlag.of_none, observed, told, phase, Phase.lent, Phase.outside, setPhase, hadded]

/-- A step adds to the diary in the name of the worker's own handler. -/
theorem Does.added (does : Does s scene notes notices s' scene') (h : s.Trails handler trace seen) :
    ∃ added : List (Notice α), scene'.outside.1 = scene.outside.1 ++ added.map (handler, ·) := by
  obtain ⟨exceptions, hexceptions⟩ := h.exceptions_eq
  cases does with
  | turn resumes phase move =>
    have hlag := h.lag
    rw [phase, resumes.turn?_eq] at hlag
    obtain ⟨added, hadded, -⟩ := hlag.move move
    exact ⟨added, hadded⟩
  | report phase report | die phase report =>
    rw [hexceptions] at report
    exact ⟨[_], (Act.recorded_eq_some report).1⟩
  | _ => exact ⟨[], by simp [Scene.report]⟩

theorem Trails.path (h : s.Trails handler trace seen)
    (does : Does s scene notes notices s' scene') : s.ring.Path notes s'.ring :=
  does.path h.counted fun window tally phase => (h.ahead window (by rw [phase]; rfl)).2

/-- The next window begins after what was given back, also while one is under way. -/
theorem Does.steady (does : Does s scene notes notices s' scene')
    (h : s.Trails handler trace seen) :
    s'.worker.next = s'.ring.gating + 1 ∧ ∀ window ∈ s'.worker.phase.window?,
      s'.worker.next ≤ window.available ∧ window.available ≤ s'.ring.cursor := by
  have hcursor := (h.path does).counters_le.2.1
  have hnext := h.next
  have hahead := h.ahead
  cases does with
  | turn resumes phase move =>
    have hstill := Turn.move_spared Ring.spared_gating (fun _ => rfl) move
    rw [phase] at hahead
    refine ⟨hnext.trans (congrArg (· + 1) hstill.symm), fun window hwindow => ?_⟩
    have hbefore := hahead window (by cases resumes <;> exact hwindow)
    exact ⟨hbefore.1, hbefore.2.trans hcursor⟩
  | enter phase visible =>
    refine ⟨hnext, fun window hwindow => ?_⟩
    cases hwindow
    exact ⟨visible, le_rfl⟩
  | @call window tally call phase more entry =>
    rw [phase] at hahead
    refine ⟨hnext, fun _ hwindow => ?_⟩
    cases hwindow
    exact hahead window rfl
  | @skip window tally phase more entry =>
    rw [phase] at hahead
    refine ⟨hnext, fun _ hwindow => ?_⟩
    cases hwindow
    exact hahead window rfl
  | release phase empty later visible =>
    refine ⟨?_, nofun⟩
    rw [Ring.count_gating]
  | @returned outcome sequence window tally phase =>
    rw [phase] at hahead
    refine ⟨hnext, ?_⟩
    cases hfailed : outcome.failure? <;> exact hahead
  | report phase report =>
    rw [phase] at hahead
    exact ⟨hnext, hahead⟩
  | _ => exact ⟨hnext, nofun⟩

/-- What a step has stored can be read at the ring. -/
theorem Does.stored (does : Does s scene notes notices s' scene') (counted : s.ring.Counted) :
    s.ring.stored s'.ring = notes.filterMap Note.item? := by
  have hsame {ring : Ring α} (same : ring.claimed = s.ring.claimed) : s.ring.stored ring = [] :=
    if_pos same
  cases does with
  | turn resumes phase move =>
    rcases Turn.move_cases move with ⟨⟨_, rfl⟩ | ⟨_, rfl⟩, rfl⟩ | ⟨item, _, rfl, rfl⟩ |
      ⟨_, rfl, rfl⟩
    · exact hsame rfl
    · exact hsame rfl
    · cases item with
      | some item => exact Ring.push_stored counted item
      | none => exact Ring.pushEmpty_stored counted
    · exact hsame rfl
  | release phase empty later visible =>
    obtain ⟨metrics, hcount⟩ := { s.ring with gating := _ }.count_eq (·.addWindow _)
    refine hsame ?_
    rw [hcount]
  | _ => exact hsame rfl

namespace Trails

theorem step (h : s.Trails handler trace seen) (step : s.step scene = some (s', scene')) :
    s'.Trails handler (trace ++ s.notices) (seen ++ s.observed scene s' scene') := by
  have hdoes := step_does step
  obtain ⟨-, hhandler, hexceptions⟩ := hdoes.keeps
  obtain ⟨hnext, hahead⟩ := hdoes.steady h
  refine ⟨hhandler.trans h.handler_eq, ?_, hdoes.lag h, (h.path hdoes).counted h.counted, hnext,
    hahead⟩
  rw [hexceptions]
  exact h.exceptions_eq

/-- What others do at the ring. -/
theorem beside (h : s.Trails handler trace seen) {ring : Ring α} (path : s.ring.Path notes ring)
    (still : ring.gating = s.ring.gating) : Trails { s with ring } handler trace seen :=
  { h with
    counted := path.counted h.counted
    next := h.next.trans (congrArg (· + 1) still.symm)
    ahead := fun window hwindow =>
      ⟨(h.ahead window hwindow).1, (h.ahead window hwindow).2.trans path.counters_le.2.1⟩ }

/-- While no call is under way both tell the same. -/
theorem same (h : s.Trails handler trace seen) (resting : s.worker.phase.turn? = none) :
    seen = trace := by
  have hlag := h.lag
  rw [resting] at hlag
  exact hlag.of_none

/-- The calls that were written down are those that were noticed, save perhaps the last one. -/
theorem calls_prefix (h : s.Trails handler trace seen) :
    seen.filterMap Notice.call? <+: trace.filterMap Notice.call? := by
  have hlag := h.lag
  generalize s.worker.phase.turn? = turn? at hlag
  cases hlag with
  | rest | within => exact List.prefix_rfl
  | begun call =>
    rw [List.filterMap_append]
    exact List.prefix_append _ _
  | ended outcome =>
    rw [List.filterMap_append]
    exact (List.append_nil _) ▸ List.prefix_rfl

theorem make {ring : Ring α} (counted : ring.Counted) (name : String)
    (handler : EventHandler α η σ) (memory : η) (exceptions : ExceptionHandler σ)
    (trace : List (Notice α)) :
    (Station.make ring.takeConsumer.2 name handler.recorded memory
      (exceptions.recorded handler)).Trails handler trace trace :=
  ⟨rfl, ⟨exceptions, rfl⟩, .rest trace, Ring.takeConsumer_counted counted, rfl, nofun⟩

end Trails

end Station
end MessageRing
