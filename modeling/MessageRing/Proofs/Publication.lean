import MessageRing.Proofs.Builder
import MessageRing.Proofs.ErrorReport
import MessageRing.Proofs.Failure

/-!
What a failure leaves behind when it is published.

The message about a failure says all that is known of it: the error with its sources, and the headers
of the message that failed. Either a channel takes that message, or one record says that none did.
-/
namespace MessageRing
variable {σ : Type}

/-- A message about a failure was sent to the channel of a name, and how that ended. -/
structure Posting where
  channel : String
  message : Message ErrorReport
  outcome : Except Panic (Except MessagingError Unit)

/-- The channel took the message. -/
def Posting.taken (posting : Posting) : Bool :=
  match posting.outcome with
  | .ok (.ok ()) => true
  | _ => false

/-- All that is done about a failure: the messages sent, the records left and how it ends. A channel
may do to the world and to the log what it likes, and a record comes after that. -/
inductive Published (registry : Registry ErrorReport σ) (target : Option String)
    (report : Message ErrorReport) (failure : MessagingError → Record) (before : Scene σ) :
    List Posting → List Record → Except Panic Unit → Scene σ → Prop
  | taken {name : String} {channel : Destination ErrorReport σ} {after : Scene σ}
      (here : target = some name) (there : registry.get? name = some channel)
      (sent : channel report before = some (.ok (.ok ()), after)) :
    Published registry target report failure before [⟨name, report, .ok (.ok ())⟩] [] (.ok ()) after
  | refused {name : String} {channel : Destination ErrorReport σ} {e : MessagingError}
      {after : Scene σ} (here : target = some name) (there : registry.get? name = some channel)
      (sent : channel report before = some (.ok (.error e), after)) :
    Published registry target report failure before [⟨name, report, .ok (.error e)⟩] [failure e]
      (.ok ()) (after.report (failure e))
  | broken {name : String} {channel : Destination ErrorReport σ} {p : Panic} {after : Scene σ}
      (here : target = some name) (there : registry.get? name = some channel)
      (sent : channel report before = some (.error p, after)) :
    Published registry target report failure before [⟨name, report, .error p⟩] [] (.error p) after
  | unsent (e : MessagingError)
      (nowhere : ∀ name, target = some name → registry.get? name = none) :
    Published registry target report failure before [] [failure e] (.ok ())
      (before.report (failure e))

namespace Published
variable {registry : Registry ErrorReport σ} {target : Option String}
  {report : Message ErrorReport} {failure : MessagingError → Record} {before after : Scene σ}
  {postings : List Posting} {records : List Record} {result : Except Panic Unit}

/-- Unless the channel panics, it has taken the message or there is one record, but not both. -/
theorem once (h : Published registry target report failure before postings records result after)
    (ended : result = .ok ()) :
    postings.length ≤ 1 ∧ postings.countP Posting.taken + records.length = 1 := by
  cases h with
  | broken => cases ended
  | _ => exact ⟨by simp, rfl⟩

theorem ends_well
    (h : Published registry target report failure before postings records result after)
    (calm : ∀ name channel, target = some name → registry.get? name = some channel →
      ∀ p after, channel report before ≠ some (.error p, after)) : result = .ok () := by
  cases h with
  | broken here there sent => exact absurd sent (calm _ _ here there _ _)
  | _ => rfl

end Published

namespace ErrorReport

/-- The message about a failure as a recipe. -/
def recipe (error : MessagingError) (failed : Option Headers) : Recipe ErrorReport :=
  ⟨.ofPayload ⟨error.describe, failed⟩,
    (failed.bind (·.correlationId?)).toList.map .correlationId⟩

theorem builder_recipe (error : MessagingError) (failed : Option Headers) :
    (recipe error failed).builder = builder error failed := rfl

theorem source_recipe (error : MessagingError) (failed : Option Headers) :
    (recipe error failed).source = .random := by
  unfold recipe
  cases failed.bind (·.correlationId?) <;> rfl

/-- Of the failed message's headers the message about it has the correlation and nothing else. -/
theorem left_recipe (error : MessagingError) (failed : Option Headers) (key : String) :
    (recipe error failed).left key =
      if key = Key.correlationId then failed.bind (·.correlationId?) else none := by
  unfold recipe
  cases failed.bind (·.correlationId?) with
  | none => simp [Recipe.left, Origin.get?]
  | some value => simp [Recipe.left, Origin.get?, BuildStep.leave, BuildStep.leave.set, eq_comm]

end ErrorReport

namespace ErrorHandler
variable {registry : Registry ErrorReport σ} {fallback : Option String} {error : MessagingError}
  {failed : Option Headers}

/-- The same channels with a record of what is sent to them. -/
def observed (registry : Registry ErrorReport σ) : Registry ErrorReport (List Posting × σ) :=
  registry.map fun name channel m => (channel m).recorded fun outcome => [⟨name, m, outcome⟩]

theorem get?_observed (registry : Registry ErrorReport σ) (name : String) :
    (observed registry).get? name = (registry.get? name).map fun channel m =>
      (channel m).recorded fun outcome => [⟨name, m, outcome⟩] :=
  SortedMap.get?_map ..

end ErrorHandler

namespace ErrorReport
open ErrorHandler
variable {registry : Registry ErrorReport σ} {report : Message ErrorReport}
  {target : Option String} {error : MessagingError} {failed : Option Headers}

/-- A message is sent to the channel of its target, and to none if there is no such channel. -/
theorem send_observed (registry : Registry ErrorReport σ) (report : Message ErrorReport)
    (target : Option String) :
    (∃ e, (∀ name, target = some name → registry.get? name = none) ∧
      send registry report target = pure (.error e) ∧
      send (observed registry) report target = pure (.error e)) ∨
    ∃ name channel, target = some name ∧ registry.get? name = some channel ∧
      send registry report target = channel report ∧
      send (observed registry) report target =
        (channel report).recorded fun outcome => [⟨name, report, outcome⟩] := by
  cases target with
  | none => exact .inl ⟨.noDestination, by simp, rfl, rfl⟩
  | some name =>
    have hobserved := get?_observed registry name
    unfold send Registry.resolve
    dsimp only
    cases hchannel : registry.get? name with
    | none =>
      rw [hchannel] at hobserved
      rw [hobserved]
      exact .inl ⟨_, fun other h => Option.some_inj.mp h ▸ hchannel, rfl, rfl⟩
    | some channel =>
      rw [hchannel] at hobserved
      rw [hobserved]
      exact .inr ⟨name, channel, rfl, hchannel, rfl, rfl⟩

/-- The record changes nothing in what is done about a failure. -/
theorem send_recording (registry : Registry ErrorReport σ) (report : Message ErrorReport)
    (target : Option String) (error : MessagingError) (failed : Option Headers) :
    (send (observed registry) report target >>= settle error failed).Recording
      (send registry report target >>= settle error failed) := by
  refine .bind ?_ fun answer => ?_
  · obtain ⟨e, -, hsend, hobserved⟩ | ⟨name, channel, -, -, hsend, hobserved⟩ :=
      send_observed registry report target
    · rw [hsend, hobserved]
      exact .pure _
    · rw [hsend, hobserved]
      exact .recorded _ _
  · cases answer with
    | ok _ => exact .pure _
    | error e => exact fun _ => rfl

theorem send_waits {scene : Scene (List Posting × σ)}
    (waits : (send (observed registry) report target >>= settle error failed) scene = none) :
    ∃ name channel, target = some name ∧ registry.get? name = some channel ∧
      channel report (scene.withOutside scene.outside.2) = none := by
  obtain ⟨e, -, -, hsend⟩ | ⟨name, channel, htarget, hchannel, -, hsend⟩ :=
    send_observed registry report target
  · rw [hsend] at waits
    cases waits
  · rw [hsend] at waits
    rcases Act.bind_eq_none waits with hwait | ⟨answer, between, -, hwait⟩
    · exact ⟨name, channel, htarget, hchannel, Option.map_eq_none_iff.mp hwait⟩
    · cases answer <;> cases hwait

theorem published_of_send {scene scene' : Scene (List Posting × σ)} {result : Except Panic Unit}
    (sent : (send (observed registry) report target >>= settle error failed) scene =
      some (result, scene')) :
    ∃ postings records, scene'.outside.1 = scene.outside.1 ++ postings ∧
      Published registry target report (.publishFailed (failed.map (·.id)) error)
        (scene.withOutside scene.outside.2) postings records result
        (scene'.withOutside scene'.outside.2) := by
  obtain ⟨e, nowhere, -, hsend⟩ | ⟨name, channel, here, there, -, hsend⟩ :=
    send_observed registry report target
  · rw [hsend] at sent
    cases sent
    exact ⟨[], _, (List.append_nil _).symm, .unsent e nowhere⟩
  · rw [hsend] at sent
    rcases Act.bind_eq_some sent with ⟨p, hpanicked, rfl⟩ | ⟨answer, between, hanswered, hsettled⟩
    · obtain ⟨hrecord, hchannel⟩ := Act.recorded_eq_some hpanicked
      exact ⟨_, _, hrecord, .broken here there hchannel⟩
    · obtain ⟨hrecord, hchannel⟩ := Act.recorded_eq_some hanswered
      cases answer with
      | ok _ =>
        cases hsettled
        exact ⟨_, _, hrecord, .taken here there hchannel⟩
      | error e =>
        cases hsettled
        exact ⟨_, _, hrecord, .refused here there hchannel⟩

end ErrorReport

namespace ErrorHandler
open ErrorReport

/-- Every failure is published in full or logged. The description is the error's text and after it,
set off by colons, the text of every source down to the last one; errors that only pass another one
on add nothing to it, however deep they are. The message has the description, the headers of the
failed message as they were, that one's correlation if it has one, and an identity of its own. It is
sent to one channel at most, and when the channel does not panic it is taken there or one record is
left, but not both. Nobody has to wait unless that channel waits. -/
theorem failure_published (registry : Registry ErrorReport σ) (fallback : Option String)
    (error : MessagingError) (failed : Option Headers) (scene : Scene (List Posting × σ)) :
    let built := (ErrorReport.builder error failed).build scene.mint
    let report := built.1
    let before : Scene σ := { scene.withOutside scene.outside.2 with mint := built.2 }
    let target := ErrorReport.target fallback failed
    (∃ chain, Cause.Chain error.source? chain ∧
      report.payload.description =
        error.message ++ String.join (chain.map fun cause => ": " ++ cause.message) ∧
      Cause.Chain error.bare.source? (chain.map Cause.bare) ∧
      (error.bare :: chain.map Cause.bare).map Cause.message =
        error.message :: chain.map Cause.message ∧
      ∀ cause ∈ error.bare :: chain.map Cause.bare, cause.passing = false) ∧
    (report.payload.failed = failed ∧
      (∀ key, Key.assigned key = false → report.headers.get? key =
        if key = Key.correlationId then failed.bind (·.correlationId?) else none) ∧
      report.headers.get? Key.id = some (.uuid (scene.mint.nth 0 .random)) ∧
      report.headers.get? Key.timestamp = some (.int (scene.mint.clock scene.mint.readings)) ∧
      built.2 = scene.mint.used .random) ∧
    (publishing (observed registry) fallback error failed).Recording
      (publishing registry fallback error failed) ∧
    (publishing (observed registry) fallback error failed scene = none →
      ∃ name channel, target = some name ∧ registry.get? name = some channel ∧
        channel report before = none) ∧
    ∀ result scene',
      publishing (observed registry) fallback error failed scene = some (result, scene') →
        ∃ postings records, scene'.outside.1 = scene.outside.1 ++ postings ∧
          Published registry target report (.publishFailed (failed.map (·.id)) error) before
            postings records result (scene'.withOutside scene'.outside.2) ∧
          ((∀ name channel, target = some name → registry.get? name = some channel →
            ∀ p after, channel report before ≠ some (.error p, after)) → result = .ok ()) ∧
          (result = .ok () →
            postings.length ≤ 1 ∧ postings.countP Posting.taken + records.length = 1) := by
  intro built report before target
  have hmakes := (recipe error failed).makes_build scene.mint
  have hmint := (recipe error failed).build_mint scene.mint
  rw [source_recipe, builder_recipe] at hmakes hmint
  have hpublishing := publishing_eq (observed registry) fallback error failed scene
  refine ⟨?_, ⟨?_, ?_, hmakes.id, hmakes.timestamp, hmint⟩, ?_, ?_, ?_⟩
  · obtain ⟨chain, hchain, -⟩ := error.chain
    have hbare : Cause.Chain error.bare.source? (chain.map Cause.bare) := by
      rw [error.source?_bare]
      exact hchain.bare
    refine ⟨chain, hchain, ?_, hbare, ?_, ?_⟩
    · rw [← MessagingError.describe_eq hchain]
      exact congrArg ErrorReport.description hmakes.payload
    · simp [error.message_bare, Cause.message_bare]
    · simp [error.passing_bare, Cause.passing_bare]
  · exact congrArg ErrorReport.failed hmakes.payload
  · intro key free
    exact (hmakes.left key free).trans (left_recipe error failed key)
  · intro scene
    let built := (ErrorReport.builder error failed).build scene.mint
    rw [publishing_eq, publishing_eq]
    exact send_recording registry built.1 _ error failed { scene with mint := built.2 }
  · intro waits
    rw [hpublishing] at waits
    exact send_waits waits
  · intro result scene' happens
    rw [hpublishing] at happens
    obtain ⟨postings, records, hpostings, hpublished⟩ := published_of_send happens
    exact ⟨postings, records, hpostings, hpublished, hpublished.ends_well, hpublished.once⟩

/-- A failure within failures, of a message with a correlation, and a channel that refuses. -/
theorem failure_published_refused :
    let error : MessagingError :=
      .handler (.failed (.messaging (.ring (.spawn "no threads"))))
    let failed : Option Headers := some (.ofList [(Key.correlationId, .int 7), ("a", .int 1)])
    let refusing : Destination ErrorReport Unit := fun _ => return .error (.ring .notRunning)
    let registry : Registry ErrorReport Unit := .ofList [("errors", refusing)]
    let scene : Scene (List Posting × Unit) :=
      { outside := ([], ()), log := [], mint := .spread 0 0 }
    let report := ((ErrorReport.builder error failed).build scene.mint).1
    let chain : List Cause := [.messaging (.ring (.spawn "no threads")), .text "no threads"]
    report.payload.description =
      error.message ++ String.join (chain.map fun cause => ": " ++ cause.message) ∧
    report.headers.get? Key.correlationId = some (.int 7) ∧ report.headers.get? "a" = none ∧
    ∃ (scene' : Scene (List Posting × Unit)) (records : List Record),
      publishing (observed registry) (some "errors") error failed scene =
        some (.ok (), scene') ∧
      scene'.outside.1.map Posting.taken = [false] ∧
      scene'.log.map Record.text = ["failed to publish error message"] ∧
      scene'.outside.1.countP Posting.taken + records.length = 1 := by
  intro error failed refusing registry scene report chain
  obtain ⟨⟨chain', hchain, hdescription, -⟩, ⟨-, hheaders, -⟩, -, -, hruns⟩ :=
    failure_published registry (some "errors") error failed scene
  have herror : Cause.Chain error.source? chain := .cons (.cons .nil)
  rw [hchain.unique herror] at hdescription
  obtain ⟨scene', hscene', htaken, htexts⟩ : ∃ scene',
      publishing (observed registry) (some "errors") error failed scene = some (.ok (), scene') ∧
      scene'.outside.1.map Posting.taken = [false] ∧
      scene'.log.map Record.text = ["failed to publish error message"] := ⟨_, rfl, rfl, rfl⟩
  obtain ⟨postings, records, hpostings, -, -, honce⟩ := hruns _ _ hscene'
  refine ⟨hdescription, (hheaders _ (by decide)).trans (by decide +kernel),
    (hheaders _ (by decide)).trans (by decide +kernel), scene', records, hscene', htaken, htexts, ?_⟩
  rw [hpostings]
  exact (honce rfl).2

end ErrorHandler
end MessageRing
