import MessageRing.Channel
import MessageRing.Proofs.Acts

/-!
What becomes of one message.

A dispatch is told by what the subscribers and the error handler see of it. However the subscribers
behave, the message ends with the one that took it or with one report.
-/
namespace MessageRing
variable {ι π σ : Type}

/-- What the outside code that a channel calls sees. -/
inductive Incident (ι π : Type) where
  /-- A subscriber was called, and how that ended; a panic is a failure too. -/
  | tried (subscriber : ι) (message : Message π) (outcome : Except Cause Unit)
  | reported (error : MessagingError) (failed : Option Headers)

/-- How the call of a subscriber counts. -/
def Delivery.outcome : Except Panic (Except Cause Unit) → Except Cause Unit
  | .ok outcome => outcome
  | .error p => .error (.handler (.ofPanic p))

/-- The same subscribers, with a record of their calls beside the world. -/
def Delivery.recorded (call : Delivery ι π σ) : Delivery ι π (List (Incident ι π) × σ) :=
  fun i message => (call i message).recorded fun result => [.tried i message (outcome result)]

namespace ErrorHandler

def recorded (errors : ErrorHandler σ) : ErrorHandler (List (Incident ι π) × σ) :=
  fun error failed => (errors error failed).recorded fun _ => [.reported error failed]

/-- It never panics. -/
def Normal (errors : ErrorHandler σ) : Prop :=
  ∀ error failed scene p scene', errors error failed scene ≠ some (.error p, scene')

end ErrorHandler

/-- A subscriber failed with a message. -/
def Incident.refusal (message : Message π) (failure : ι × Cause) : Incident ι π :=
  .tried failure.1 message (.error failure.2)

/-- The whole account of a message. No subscriber gets it twice; one takes it and nothing is
reported, or none does and that is reported once, with the headers of the message. -/
inductive Settled (message : Message π) : List (Incident ι π) → Prop
  | taken (failures : List (ι × Cause)) (i : ι) (once : (failures.map Prod.fst ++ [i]).Nodup) :
    Settled message (failures.map (.refusal message) ++ [.tried i message (.ok ())])
  | unheard : Settled message [.reported .noSubscribers (some message.headers)]
  | failed (failures : List (ι × Cause)) (i : ι) (cause : Cause)
      (once : (failures.map Prod.fst ++ [i]).Nodup) :
    Settled message (failures.map (.refusal message) ++ [.tried i message (.error cause),
      .reported (.deliveryFailed (failures.length + 1) cause) (some message.headers)])

namespace Dispatcher
variable {call : Delivery ι π σ} {message : Message π}
  {scene scene' : Scene (List (Incident ι π) × σ)}

theorem attempt_recorded {i : ι} {result : Except Panic (Except Cause Unit)}
    (h : attempt call.recorded message i scene = some (result, scene')) :
    ∃ outcome, result = .ok outcome ∧
      scene'.outside.1 = scene.outside.1 ++ [.tried i message outcome] := by
  rcases Act.bind_eq_some h with ⟨p, hcall, _⟩ | ⟨outcome, between, hcall, hend⟩
  · obtain ⟨_, hresult, _⟩ := Act.guarded_eq_some hcall
    cases hresult
  · obtain ⟨_, hresult, hact⟩ := Act.guarded_eq_some hcall
    cases hresult
    have hrecord := (Act.recorded_eq_some hact).1
    cases outcome with
    | ok outcome =>
      cases hend
      exact ⟨_, rfl, hrecord⟩
    | error p =>
      cases hend
      exact ⟨_, rfl, hrecord⟩

/-- What follows an attempt goes by its outcome, which is recorded. -/
theorem of_attempt {β : Type} {i : ι} {next : Except Cause Unit → Act (List (Incident ι π) × σ) β}
    {result : Except Panic β}
    (h : (attempt call.recorded message i >>= next) scene = some (result, scene')) :
    ∃ outcome between,
      between.outside.1 = scene.outside.1 ++ [.tried i message outcome] ∧
      next outcome between = some (result, scene') := by
  rcases Act.bind_eq_some h with ⟨p, hattempt, _⟩ | ⟨outcome, between, hattempt, hnext⟩ <;>
    obtain ⟨_, hresult, hrecord⟩ := attempt_recorded hattempt <;> cases hresult
  exact ⟨outcome, between, hrecord, hnext⟩

/-- The candidates are tried from the first one on, up to one that takes the message or to the
last. -/
theorem tryInTurn_recorded {attempts : Nat} {i : ι} {rest : List ι}
    {result : Except Panic (Except MessagingError Unit)}
    (h : tryInTurn call.recorded message attempts i rest scene = some (result, scene')) :
    ∃ (failures : List (ι × Cause)) (j : ι) (left : List ι) (outcome : Except Cause Unit),
      i :: rest = failures.map Prod.fst ++ j :: left ∧
      scene'.outside.1 = scene.outside.1 ++
        (failures.map (.refusal message) ++ [.tried j message outcome]) ∧
      (outcome = .ok () ∧ result = .ok (.ok ()) ∨
        ∃ cause, outcome = .error cause ∧ left = [] ∧
          result = .ok (.error (.deliveryFailed (attempts + failures.length) cause))) := by
  induction rest generalizing attempts i scene with
  | nil =>
    unfold tryInTurn at h
    obtain ⟨outcome, between, hrecord, hend⟩ := of_attempt h
    cases outcome with
    | ok _ =>
      cases hend
      exact ⟨[], i, [], .ok (), rfl, hrecord, .inl ⟨rfl, rfl⟩⟩
    | error cause =>
      cases hend
      exact ⟨[], i, [], .error cause, rfl, hrecord, .inr ⟨cause, rfl, rfl, rfl⟩⟩
  | cons next rest ih =>
    unfold tryInTurn at h
    obtain ⟨outcome, between, hrecord, hend⟩ := of_attempt h
    cases outcome with
    | ok _ =>
      cases hend
      exact ⟨[], i, next :: rest, .ok (), rfl, hrecord, .inl ⟨rfl, rfl⟩⟩
    | error cause =>
      -- the rest is tried with one attempt more behind it
      obtain ⟨failures, j, left, outcome, htried, hrecords, hends⟩ := ih hend
      refine ⟨(i, cause) :: failures, j, left, outcome, by simp [htried], ?_, ?_⟩
      · rw [hrecords]
        change between.outside.1 ++ _ = _
        rw [hrecord, List.append_assoc]
        rfl
      · rcases hends with hok | ⟨cause', houtcome, hleft, hresult⟩
        · exact .inl hok
        · refine .inr ⟨cause', houtcome, hleft, ?_⟩
          rw [hresult, List.length_cons]
          congr 3
          omega

theorem deliver_recorded {candidates : List ι} (once : candidates.Nodup)
    {result : Except Panic (Except MessagingError Unit)}
    (h : deliver call.recorded message candidates scene = some (result, scene')) :
    ∃ incidents, scene'.outside.1 = scene.outside.1 ++ incidents ∧
      (result = .ok (.ok ()) ∧ Settled message incidents ∨
        ∃ error, result = .ok (.error error) ∧
          Settled message (incidents ++ [.reported error (some message.headers)])) := by
  cases candidates with
  | nil =>
    cases h
    exact ⟨[], (List.append_nil _).symm, .inr ⟨_, rfl, .unheard⟩⟩
  | cons i rest =>
    obtain ⟨failures, j, left, outcome, htried, hrecord, hends⟩ := tryInTurn_recorded h
    have honce : (failures.map Prod.fst ++ [j]).Nodup := by
      rw [htried] at once
      exact once.sublist ((List.Sublist.refl _).append (by simp))
    refine ⟨_, hrecord, ?_⟩
    rcases hends with ⟨rfl, hresult⟩ | ⟨cause, rfl, _, hresult⟩
    · exact .inl ⟨hresult, .taken failures j honce⟩
    · refine .inr ⟨_, hresult, ?_⟩
      rw [Nat.add_comm 1, List.append_assoc]
      exact .failed failures j cause honce

end Dispatcher

/-- A dispatch that is over has settled its message, and does not fail. -/
theorem Channel.settle_recorded {call : Delivery ι π σ} {errors : ErrorHandler σ}
    (normal : errors.Normal) {message : Message π} {candidates : List ι} (once : candidates.Nodup)
    {scene scene' : Scene (List (Incident ι π) × σ)}
    {result : Except Panic (Except HandlerError Unit)}
    (h : settle call.recorded errors.recorded message candidates scene = some (result, scene')) :
    result = .ok (.ok ()) ∧
      ∃ incidents, Settled message incidents ∧ scene'.outside.1 = scene.outside.1 ++ incidents := by
  rcases Act.bind_eq_some h with ⟨p, hdeliver, _⟩ | ⟨delivered, between, hdeliver, hend⟩ <;>
    obtain ⟨incidents, hrecord, ⟨hresult, hsettled⟩ | ⟨error, hresult, hsettled⟩⟩ :=
      Dispatcher.deliver_recorded once hdeliver <;> cases hresult
  · cases hend
    exact ⟨rfl, incidents, hsettled, hrecord⟩
  · rcases Act.bind_eq_some hend with ⟨p, hreport, _⟩ | ⟨_, reported, hreport, hdone⟩
    · exact absurd (Act.recorded_eq_some hreport).2 (normal _ _ _ _ _)
    · cases hdone
      refine ⟨rfl, _, hsettled, ?_⟩
      rw [(Act.recorded_eq_some hreport).1, hrecord, List.append_assoc]

end MessageRing
