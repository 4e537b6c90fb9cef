import MessageRing.Batch.Collect
import MessageRing.Batch.Flush
import MessageRing.Proofs.Merge.Agreement
import MessageRing.Proofs.Merge.Rebatching

/-!
Where a batch goes.

A flush makes one message of the batch, and that message is sent to one channel or reported once to
the error handler; it is reported after it has been sent only if the channel refused it. The channel
is the output channel or the one that the merged headers name, so without an output channel a batch
arrives where all of its messages want to go, and one that is merged with conflicts discarded goes
nowhere when its messages disagree.
-/
namespace MessageRing
variable {π φ σ : Type}

/-- What outside code sees of a flush. -/
inductive Errand (φ : Type) where
  /-- A message was sent, to the output channel or to the one of a name, and how that ended. -/
  | sent (name : Option String) (message : Message φ)
      (outcome : Except Panic (Except MessagingError Unit))
  | reported (error : MessagingError) (failed : Option Headers) (outcome : Except Panic Unit)

namespace Errand

def isSent : Errand φ → Bool
  | .sent _ _ _ => true
  | .reported _ _ _ => false

def isReported : Errand φ → Bool
  | .sent _ _ _ => false
  | .reported _ _ _ => true

/-- The channel took the message. -/
def isTaken : Errand φ → Bool
  | .sent _ _ (.ok (.ok ())) => true
  | _ => false

end Errand

/-- All that outside code can see when a message goes where it is led, and how that ends: it is
taken, or refused and then reported, or reported because it is led nowhere, unless a channel
panics. -/
inductive Routed (m : Message φ) :
    Except MessagingError (Option String) → List (Errand φ) → Except Panic Unit → Prop
  | taken {name : Option String} : Routed m (.ok name) [.sent name m (.ok (.ok ()))] (.ok ())
  | refused {name : Option String} (e : MessagingError) (outcome : Except Panic Unit) :
    Routed m (.ok name)
      [.sent name m (.ok (.error e)), .reported e (some m.headers) outcome] outcome
  | broken {name : Option String} (p : Panic) :
    Routed m (.ok name) [.sent name m (.error p)] (.error p)
  | lost {e : MessagingError} (outcome : Except Panic Unit) :
    Routed m (.error e) [.reported e (some m.headers) outcome] outcome

namespace Routed
variable {m : Message φ} {route : Except MessagingError (Option String)} {errands : List (Errand φ)}
  {result : Except Panic Unit}

theorem countP_isSent_le (h : Routed m route errands result) :
    errands.countP Errand.isSent ≤ 1 := by
  cases h <;> simp [List.countP_cons, Errand.isSent]

theorem countP_isReported_le (h : Routed m route errands result) :
    errands.countP Errand.isReported ≤ 1 := by
  cases h <;> simp [Errand.isReported]

/-- When nothing panics, either a channel has taken the message or it has been reported. -/
theorem taken_or_reported (h : Routed m route errands (.ok ())) :
    errands.countP Errand.isTaken + errands.countP Errand.isReported = 1 := by
  cases h <;> simp [Errand.isTaken, Errand.isReported]

end Routed

namespace FlushTarget

/-- The same target with a record of what outside code sees of it. -/
def observed (t : FlushTarget π φ σ) : FlushTarget π φ (List (Errand φ) × σ) where
  combine batch := (t.combine batch).unrecorded
  output := t.output.map fun channel m =>
    (channel m).recorded fun outcome => [.sent none m outcome]
  registry := t.registry.map (SortedMap.map fun name channel m =>
    (channel m).recorded fun outcome => [.sent (some name) m outcome])
  errors error failed :=
    (t.errors error failed).recorded fun outcome => [.reported error failed outcome]

theorem combine_observed (t : FlushTarget π φ σ) (batch : List (Message π)) :
    t.observed.combine batch = (t.combine batch).unrecorded := rfl

/-- Where headers lead: to the output channel if there is one, whatever the headers are, else to the
channel registered under the name that they have as a text for `reply_to`. -/
def route (t : FlushTarget π φ σ) (headers : Headers) : Except MessagingError (Option String) :=
  if t.output.isSome then .ok none
  else
    match headers.replyTo? with
    | none => .error .noDestination
    | some name =>
      if t.registry.any (·.contains name) then .ok (some name) else .error (.unknownChannel name)

/-- The output channel, or the one of a name. -/
def channel? (t : FlushTarget π φ σ) : Option String → Option (Destination φ σ)
  | none => t.output
  | some name => t.registry.bind (·.get? name)

/-- A message is sent to the channel that its headers lead to, and to no channel if they lead
nowhere. -/
theorem send_observed (t : FlushTarget π φ σ) (m : Message φ) :
    (∃ e, t.route m.headers = .error e ∧ t.send m = pure (.error e) ∧
      t.observed.send m = pure (.error e)) ∨
    ∃ name channel, t.route m.headers = .ok name ∧ t.channel? name = some channel ∧
      t.send m = channel m ∧
      t.observed.send m = (channel m).recorded fun outcome => [.sent name m outcome] := by
  unfold send destination route observed
  cases houtput : t.output with
  | some channel => exact .inr ⟨none, channel, rfl, houtput, rfl, rfl⟩
  | none =>
    cases hreply : m.headers.replyTo? with
    | none => exact .inl ⟨_, rfl, rfl, rfl⟩
    | some name =>
      cases hregistry : t.registry with
      | none => exact .inl ⟨_, rfl, rfl, rfl⟩
      | some registry =>
        cases hchannel : registry.get? name with
        | none =>
          refine .inl ⟨.unknownChannel name, ?_⟩
          simp [Registry.resolve, SortedMap.contains, SortedMap.get?_map, hchannel]
        | some channel =>
          refine .inr ⟨some name, channel, ?_⟩
          simp [channel?, Registry.resolve, SortedMap.contains, SortedMap.get?_map, hregistry,
            hchannel]

/-- What follows an attempt to send a message. -/
def settle (t : FlushTarget π φ σ) (m : Message φ) : Except MessagingError Unit → Act σ Unit
  | .ok () => pure ()
  | .error e => t.errors e (some m.headers)

theorem settle_observed (t : FlushTarget π φ σ) (m : Message φ) (e : MessagingError) :
    t.observed.settle m (.error e) = (t.errors e (some m.headers)).recorded
      fun outcome => [.reported e (some m.headers) outcome] := rfl

theorem flush_eq (t : FlushTarget π φ σ) (batch : List (Message π)) :
    t.flush batch = t.combine batch >>= fun m => t.send m >>= t.settle m := by
  refine congrArg (t.combine batch >>= ·) ?_
  funext m
  refine congrArg (t.send m >>= ·) ?_
  funext answer
  cases answer <;> rfl

/-- The record changes nothing in what a flush does. -/
theorem flush_observed (t : FlushTarget π φ σ) (batch : List (Message π)) :
    (t.observed.flush batch).Recording (t.flush batch) := by
  rw [flush_eq, flush_eq, combine_observed]
  refine .bind (.recorded _ _) ?_
  intro m
  refine .bind ?_ ?_
  · obtain ⟨e, -, hsend, hobserved⟩ | ⟨name, channel, -, -, hsend, hobserved⟩ := t.send_observed m
    · rw [hsend, hobserved]
      exact .pure _
    · rw [hsend, hobserved]
      exact .recorded _ _
  · intro answer
    cases answer with
    | ok _ => exact .pure _
    | error e =>
      rw [settle_observed]
      exact .recorded _ _

variable {t : FlushTarget π φ σ} {batch : List (Message π)} {m : Message φ}

/-- A flush waits only where outside code waits. -/
theorem flush_waits {scene after : Scene σ}
    (combined : t.combine batch scene = some (.ok m, after)) (waits : t.flush batch scene = none) :
    (∃ name channel, t.route m.headers = .ok name ∧ t.channel? name = some channel ∧
      channel m after = none) ∨
    ∃ e scene', t.errors e (some m.headers) scene' = none := by
  rw [flush_eq] at waits
  have hrest : (t.send m >>= t.settle m) after = none := (Act.bind_ok combined).symm.trans waits
  obtain ⟨e, -, hsend, -⟩ | ⟨name, channel, hroute, hchannel, hsend, -⟩ := t.send_observed m
  · rw [hsend] at hrest
    exact .inr ⟨e, after, hrest⟩
  · rw [hsend] at hrest
    rcases Act.bind_eq_none hrest with hwait | ⟨answer, between, -, hwait⟩
    · exact .inl ⟨name, channel, hroute, hchannel, hwait⟩
    · cases answer with
      | ok _ => cases hwait
      | error e => exact .inr ⟨e, between, hwait⟩

/-- What a flush does is to lead the message of the batch to where its headers say. -/
theorem routed_of_flush {scene scene' : Scene (List (Errand φ) × σ)} {after : Scene σ}
    {result : Except Panic Unit}
    (combined : t.combine batch (scene.withOutside scene.outside.2) = some (.ok m, after))
    (flushed : t.observed.flush batch scene = some (result, scene')) :
    ∃ errands, scene'.outside.1 = scene.outside.1 ++ errands ∧
      Routed m (t.route m.headers) errands result := by
  rw [flush_eq] at flushed
  -- making the message leaves nothing in the record
  obtain ⟨between, hbetween, hrest⟩ : ∃ between : Scene (List (Errand φ) × σ),
      between.outside.1 = scene.outside.1 ∧
      (t.observed.send m >>= t.observed.settle m) between = some (result, scene') := by
    refine ⟨after.withOutside (scene.outside.1 ++ [], after.outside), List.append_nil _, ?_⟩
    refine (Act.bind_ok (b := m) ?_).symm.trans flushed
    change Option.map _ (t.combine batch _) = _
    rw [combined]
    rfl
  rw [← hbetween]
  obtain ⟨e, hroute, -, hsend⟩ | ⟨name, channel, hroute, -, -, hsend⟩ := t.send_observed m
  · rw [hsend] at hrest
    rw [hroute]
    change t.observed.settle m (.error e) between = _ at hrest
    rw [settle_observed] at hrest
    exact ⟨_, (Act.recorded_eq_some hrest).1, .lost result⟩
  · rw [hsend] at hrest
    rw [hroute]
    rcases Act.bind_eq_some hrest with ⟨p, hsent, rfl⟩ | ⟨answer, sent, hsent, hsettled⟩
    · exact ⟨_, (Act.recorded_eq_some hsent).1, .broken p⟩
    · have hrecord := (Act.recorded_eq_some hsent).1
      cases answer with
      | ok _ =>
        cases hsettled
        exact ⟨_, hrecord, .taken⟩
      | error e =>
        rw [settle_observed] at hsettled
        refine ⟨_, ?_, .refused e result⟩
        rw [(Act.recorded_eq_some hsettled).1, hrecord, List.append_assoc]
        rfl

section Collected

theorem route_congr {headers headers' : Headers} (same : headers.replyTo? = headers'.replyTo?) :
    t.route headers = t.route headers' := by
  unfold route
  rw [same]

/-- A channel that all messages of a batch name is the one that the merge names. -/
theorem replyTo?_of_common {strategy : MergeStrategy} {name : String} (nonempty : batch ≠ [])
    (common : ∀ a ∈ batch, a.headers.replyTo? = some name) :
    (strategy.merge (batch.map (·.headers))).merged.replyTo? = some name := by
  rw [Headers.replyTo?_eq_some]
  apply MergeStrategy.get?_of_common (by decide)
    (HeaderValue.beq_iff.mpr (.inr ⟨rfl, by simp⟩)) (by simpa using nonempty)
  intro headers hmem
  obtain ⟨a, ha, rfl⟩ := List.mem_map.mp hmem
  exact Headers.replyTo?_eq_some.mp (common a ha)

/-- If it is registered the batch goes there. -/
theorem route_of_common {strategy : MergeStrategy} {channels : Registry φ σ} {name : String}
    (no_output : t.output = none) (registered : t.registry = some channels)
    (there : channels.contains name) (nonempty : batch ≠ [])
    (common : ∀ a ∈ batch, a.headers.replyTo? = some name) :
    t.route (strategy.merge (batch.map (·.headers))).merged = .ok (some name) := by
  unfold route
  rw [no_output, replyTo?_of_common nonempty common, registered]
  simp [there]

/-- Messages with different values for `reply_to` lead nowhere together. -/
theorem route_of_conflict {a b : Message π} {v w : HeaderValue} (no_output : t.output = none)
    (ha : a ∈ batch) (hb : b ∈ batch) (hv : a.headers.get? Key.replyTo = some v)
    (hw : b.headers.get? Key.replyTo = some w) (different : v ≠ w ∨ (v == w) = false) :
    t.route (MergeStrategy.merge .conflictDiscarding (batch.map (·.headers))).merged =
      .error .noDestination := by
  have hlost : (MergeStrategy.merge .conflictDiscarding (batch.map (·.headers))).merged.replyTo? =
      none := by
    apply Option.eq_none_iff_forall_ne_some.mpr
    intro name hname
    rw [Headers.replyTo?_eq_some] at hname
    -- a text that is kept is the value of every message that has one
    have hkept {c : Message π} (hc : c ∈ batch) {u : HeaderValue}
        (hu : c.headers.get? Key.replyTo = some u) :=
      MergeStrategy.eq_of_kept (by simp) hname (List.mem_map_of_mem hc) hu
    obtain ⟨rfl, hequal⟩ := hkept ha hv
    obtain ⟨rfl, -⟩ := hkept hb hw
    simp [hequal] at different
  unfold route
  rw [no_output, hlost]
  rfl

/-- A batch goes where its merged headers lead: as one message it is sent to at most one channel,
and reported with its headers at most once, if that channel refuses it or there is none. When
nothing panics a channel has taken it or it has been reported, but not both, and the flush waits
only where a channel or the error handler does. Without an output channel a batch arrives at a
registered channel that all its messages name, and one that is merged with conflicts discarded goes
nowhere if two of its messages have different values in the place of that name. -/
theorem flush_collected (strategy : MergeStrategy) (output : Option (Destination (List π) σ))
    (registry : Option (Registry (List π) σ)) (errors : ErrorHandler σ) (batch : List (Message π))
    (scene : Scene (List (Errand (List π)) × σ)) :
    let t : FlushTarget π (List π) σ := { combine := collect strategy, output, registry, errors }
    let merged := (strategy.merge (batch.map (·.headers))).merged
    (t.observed.flush batch).Recording (t.flush batch) ∧
    ∃ m after, collect strategy batch (scene.withOutside scene.outside.2) = some (.ok m, after) ∧
      m.payload = batch.map (·.payload) ∧ m.headers.replyTo? = merged.replyTo? ∧
      (t.flush batch (scene.withOutside scene.outside.2) = none →
        (∃ name channel, t.route merged = .ok name ∧ t.channel? name = some channel ∧
          channel m after = none) ∨
        ∃ e scene', errors e (some m.headers) scene' = none) ∧
      (∀ result scene', t.observed.flush batch scene = some (result, scene') →
        ∃ errands, scene'.outside.1 = scene.outside.1 ++ errands ∧
          Routed m (t.route merged) errands result ∧
          errands.countP Errand.isSent ≤ 1 ∧ errands.countP Errand.isReported ≤ 1 ∧
          (result = .ok () →
            errands.countP Errand.isTaken + errands.countP Errand.isReported = 1)) ∧
      (output = none → batch ≠ [] → ∀ name channels, registry = some channels →
        channels.contains name → (∀ a ∈ batch, a.headers.replyTo? = some name) →
          t.route merged = .ok (some name)) ∧
      (output = none → strategy = .conflictDiscarding → ∀ a ∈ batch, ∀ b ∈ batch, ∀ v w,
        a.headers.get? Key.replyTo = some v → b.headers.get? Key.replyTo = some w →
          v ≠ w ∨ (v == w) = false → t.route merged = .error .noDestination) := by
  intro t merged
  obtain ⟨m, after, hcollect, hpayload, hheaders⟩ :=
    collect_headers strategy batch (scene.withOutside scene.outside.2)
  have hreply : m.headers.replyTo? = merged.replyTo? :=
    congrArg (·.bind HeaderValue.asString?) (hheaders Key.replyTo (by decide))
  refine ⟨t.flush_observed batch, m, after, hcollect, hpayload, hreply, ?_, ?_, ?_, ?_⟩
  · intro waits
    rw [← route_congr hreply]
    exact flush_waits hcollect waits
  · intro result scene' flushed
    obtain ⟨errands, hrecord, hrouted⟩ := routed_of_flush hcollect flushed
    rw [route_congr hreply] at hrouted
    refine ⟨errands, hrecord, hrouted, hrouted.countP_isSent_le, hrouted.countP_isReported_le, ?_⟩
    rintro rfl
    exact hrouted.taken_or_reported
  · intro no_output nonempty name channels registered there common
    exact route_of_common no_output registered there nonempty common
  · rintro no_output rfl a ha b hb v w hv hw different
    exact route_of_conflict no_output ha hb hv hw different

/-- Two messages that name one channel arrive there together, and two that do not are reported. -/
theorem flush_collected_two :
    let named (payload : Nat) (name : String) : Message Nat :=
      ⟨payload, .ofList [(Key.replyTo, .string name)]⟩
    let taking : Destination (List Nat) (List (List Nat)) := fun m => do
      Act.modify (· ++ [m.payload])
      return .ok ()
    let t : FlushTarget Nat (List Nat) (List (List Nat)) :=
      { combine := collect .conflictDiscarding
        output := none
        registry := some (.ofList [("out", taking)])
        errors := fun _ _ => pure () }
    let scene : Scene (List (Errand (List Nat)) × List (List Nat)) :=
      { outside := ([], []), log := [], mint := .spread 0 0 }
    (∃ (m : Message (List Nat)) (after : Scene (List (Errand (List Nat)) × List (List Nat))),
      t.observed.flush [named 1 "out", named 2 "out"] scene = some (.ok (), after) ∧
      after.outside = ([.sent (some "out") m (.ok (.ok ()))], [[1, 2]])) ∧
    ∃ (m : Message (List Nat)) (after : Scene (List (Errand (List Nat)) × List (List Nat))),
      t.observed.flush [named 1 "out", named 2 "in"] scene = some (.ok (), after) ∧
      after.outside = ([.reported .noDestination (some m.headers) (.ok ())], []) := by
  intro named taking t scene
  constructor
  · obtain ⟨-, m, -, -, -, -, -, hflush, hcommon, -⟩ := flush_collected .conflictDiscarding none
      (some (.ofList [("out", taking)])) (fun _ _ => pure ()) [named 1 "out", named 2 "out"] scene
    have hroute := hcommon rfl (by simp) "out" _ rfl (by decide +kernel) (by decide +kernel)
    obtain ⟨after, hafter, hsingle, hworld⟩ : ∃ after,
        t.observed.flush [named 1 "out", named 2 "out"] scene = some (.ok (), after) ∧
        after.outside.1.length = 1 ∧ after.outside.2 = [[1, 2]] := ⟨_, rfl, rfl, rfl⟩
    obtain ⟨errands, hrecord, hrouted, -⟩ := hflush _ _ hafter
    rw [hroute] at hrouted
    rw [hrecord] at hsingle
    cases hrouted with
    | taken => exact ⟨m, after, hafter, Prod.ext hrecord hworld⟩
    | refused e outcome => cases hsingle
  · obtain ⟨-, m, -, -, -, -, -, hflush, -, hconflict⟩ := flush_collected .conflictDiscarding none
      (some (.ofList [("out", taking)])) (fun _ _ => pure ()) [named 1 "out", named 2 "in"] scene
    have hroute := hconflict rfl rfl (named 1 "out") (by simp) (named 2 "in") (by simp)
      (.string "out") (.string "in") rfl rfl (.inl (by simp))
    obtain ⟨after, hafter, hworld⟩ : ∃ after,
        t.observed.flush [named 1 "out", named 2 "in"] scene = some (.ok (), after) ∧
        after.outside.2 = [] := ⟨_, rfl, rfl⟩
    obtain ⟨errands, hrecord, hrouted, -⟩ := hflush _ _ hafter
    rw [hroute] at hrouted
    cases hrouted with
    | lost outcome => exact ⟨m, after, hafter, Prod.ext hrecord hworld⟩

end Collected

end FlushTarget
end MessageRing
