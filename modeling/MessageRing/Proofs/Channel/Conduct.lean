import MessageRing.Proofs.Channel.Attempts
import MessageRing.Proofs.Dispatcher
import MessageRing.Proofs.Worker.Smooth

/-!
The conduct of a channel's handler.

Between two of its calls the record consists of the accounts of the messages handed to it, in their
order. No call fails, and none touches the ring.
-/
namespace MessageRing
variable {ι π σ : Type}

/-- The record consists of the accounts of these messages, one after the other. -/
inductive Accounted : List (Message π) → List (Incident ι π) → Prop
  | nil : Accounted [] []
  | snoc {messages : List (Message π)} {record incidents : List (Incident ι π)}
      {message : Message π} (earlier : Accounted messages record)
      (settled : Settled message incidents) :
    Accounted (messages ++ [message]) (record ++ incidents)

namespace Channel

theorem beside_eq_some {β : Type} {act : Act σ β} {scene scene' : Scene (Dispatcher ι × σ)}
    {result : Except Panic β} (h : beside act scene = some (result, scene')) :
    scene'.outside.1 = scene.outside.1 ∧
      act (scene.withOutside scene.outside.2) =
        some (result, scene'.withOutside scene'.outside.2) := by
  unfold beside Act.focus at h
  cases hact : act (scene.withOutside scene.outside.2) with
  | none =>
    rw [hact] at h
    cases h
  | some response =>
    rw [hact] at h
    cases h
    exact ⟨rfl, rfl⟩

section Conducts
variable (call : Delivery ι π σ) (errors : ErrorHandler σ)

/-- A handler's call begins its dispatch, then tries the candidates, and is over with the account of
its message in the record. -/
def conduct : Conduct (Message π) Unit (Dispatcher ι × List (Incident ι π) × σ) where
  idle calls _ outside :=
    outside.1.subscribers.Nodup ∧ Accounted (calls.filterMap HandlerCall.item?) outside.2.1
  busy calls last turn _ outside :=
    outside.1.subscribers.Nodup ∧
      (turn = last.turn (handler call.recorded errors.recorded) ∧
          Accounted (calls.filterMap HandlerCall.item?) outside.2.1 ∨
        (∃ message candidates, last.item? = some message ∧ candidates.Nodup ∧
          turn = .ofAct (beside (settle call.recorded errors.recorded message candidates)) ∧
          Accounted (calls.filterMap HandlerCall.item?) outside.2.1) ∨
        turn = .finish .ok ∧
          Accounted ((calls ++ [last]).filterMap HandlerCall.item?) outside.2.1)

variable {call errors}

theorem turn_eq_finish {last : HandlerCall (Message π)} {outcome : Outcome}
    (h : last.turn (handler call errors) = .finish outcome) :
    outcome = .ok ∧ last.item? = none := by
  cases last with
  | event message sequence last => cases h
  | start | endOfBatch sequence | shutdown =>
    cases h
    exact ⟨rfl, rfl⟩

theorem conduct_governs (normal : errors.Normal) :
    (conduct call errors).Governs (handler call.recorded errors.recorded) where
  begin _ idle := ⟨idle.1, .inl ⟨rfl, idle.2⟩⟩
  move {calls last turn turn' r r' memory memory' scene scene'} busy move := by
    obtain ⟨hnodup, ⟨rfl, hearlier⟩ | ⟨message, candidates, hitem, honce, rfl, hearlier⟩ |
      ⟨rfl, _⟩⟩ := busy
    · cases last with
      | event message sequence last =>
        -- the dispatch begins, with the subscribers of this moment as candidates
        cases move
        obtain ⟨honce, hsubscribers⟩ := scene.outside.1.begin_nodup hnodup
        exact ⟨hsubscribers, .inr (.inl ⟨message, _, rfl, honce, rfl, hearlier⟩)⟩
      | start | endOfBatch sequence | shutdown => cases move
    · -- the candidates are tried and the message is settled in one go
      obtain ⟨next, hrun, he⟩ := Option.map_eq_some_iff.mp move
      obtain ⟨⟨result, after⟩, hact, hnext⟩ := Option.map_eq_some_iff.mp hrun
      cases hnext
      cases he
      obtain ⟨hdispatcher, hsettle⟩ := beside_eq_some hact
      obtain ⟨rfl, incidents, hsettled, hrecord⟩ := settle_recorded normal honce hsettle
      refine ⟨by rw [hdispatcher]; exact hnodup, .inr (.inr ⟨rfl, ?_⟩)⟩
      have hitems : (calls ++ [last]).filterMap HandlerCall.item? =
          calls.filterMap HandlerCall.item? ++ [message] := by
        simp [List.filterMap_append, hitem]
      rw [hitems]
      exact hrecord ▸ hearlier.snoc hsettled
    · cases move
  finish {calls last outcome memory outside} busy := by
    obtain ⟨hnodup, ⟨hturn, hearlier⟩ | ⟨_, _, _, _, hturn, _⟩ | ⟨_, hdone⟩⟩ := busy
    · refine ⟨hnodup, ?_⟩
      simpa [List.filterMap_append, (turn_eq_finish hturn.symm).2] using hearlier
    · cases hturn
    · exact ⟨hnodup, hdone⟩

theorem conduct_graceful : (conduct call errors).Graceful := by
  rintro calls last outcome memory outside ⟨_, ⟨hturn, _⟩ | ⟨_, _, _, _, hturn, _⟩ | ⟨hturn, _⟩⟩
  · rw [(turn_eq_finish hturn.symm).1]
    rfl
  · cases hturn
  · cases hturn
    rfl

theorem conduct_aloof : (conduct call errors).Aloof := by
  rintro calls last turn memory outside ⟨_, ⟨rfl, _⟩ | ⟨_, _, _, _, rfl, _⟩ | ⟨rfl, _⟩⟩
  · cases last with
    | event message sequence last => exact .inr ⟨_, rfl⟩
    | start | endOfBatch sequence | shutdown => exact .inl ⟨_, rfl⟩
  · exact .inr ⟨_, rfl⟩
  · exact .inl ⟨_, rfl⟩

/-- Others may change the subscriptions and act on the world, but not on the record. -/
theorem conduct_bears {outside outside' : Dispatcher ι × List (Incident ι π) × σ}
    (once : outside.1.subscribers.Nodup → outside'.1.subscribers.Nodup)
    (apart : outside'.2.1 = outside.2.1) : (conduct call errors).Bears outside outside' where
  idle h := ⟨once h.1, by rw [apart]; exact h.2⟩
  busy h := ⟨once h.1, by rw [apart]; exact h.2⟩

end Conducts

end Channel
end MessageRing
