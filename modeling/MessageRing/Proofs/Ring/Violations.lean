import MessageRing.Proofs.Ring.Halt

/-!
Calls that break off.

`Breaks` lists the promises that users of a ring can break. Nothing else makes a call break off, a
promise of the ring itself least of all, and a call that does changes nothing but the single
producer's copy of the consumer's place.
-/
namespace MessageRing

/-- The promise is one of the ring and not of its users. -/
def Violation.internal : Violation → Bool
  | .lapsConsumer _ _ _ | .outOfOrder _ _ | .cursorDecreased _ _ => true
  | _ => false

namespace Ring
variable {α : Type} {r : Ring α}

/-- A further claim would succeed, but the only producer still holds one. -/
structure Contended (r : Ring α) : Prop where
  single : r.config.producers = .single
  running : r.halted = false
  free : r.claimed < r.gating + r.capacity
  outstanding : r.outstanding ≠ []

/-- The promises that a call can break. -/
inductive Breaks (r : Ring α) : Call α → Violation → Prop
  | claim {call : Call α} (claims : call.claims = true) (contended : r.Contended) :
    Breaks r call .secondClaim
  | drain {next available : Int} {limit : Nat} (consumer : r.consumed = true)
      (hidden : r.cursor < available) :
    Breaks r (.drain next available limit) (.beyondCursor available r.cursor)
  /-- The entries of a drain are too many to be counted. -/
  | count {next available : Int} {limit : Nat} {violation : Violation}
      (consumer : r.consumed = true) (visible : available ≤ r.cursor)
      (overflow : Drain.sizeHint ⟨next, available⟩ = .error violation) :
    Breaks r (.drain next available limit) violation
  | back {s : Int} (consumer : r.consumed = true) (earlier : s < r.gating) :
    Breaks r (.release s) (.gatingDecreased r.gating s)
  | ahead {s : Int} (consumer : r.consumed = true) (hidden : r.cursor < s) :
    Breaks r (.release s) (.beyondCursor s r.cursor)

section Claims
variable {v : Violation}

theorem tryClaim_broken_iff (h : r.Counted) :
    r.tryClaim.1 = .broken v ↔ v = .secondClaim ∧ r.Contended := by
  have hsettled (single : r.config.producers = .single) : r.outstanding = r.held := by
    rw [outstanding, (h.single single).1, List.append_nil]
  rcases tryClaim_cases h with ⟨hhalted, he, _⟩ | ⟨_, hfull, he, _⟩ |
    ⟨hrunning, hfree, hsingle, hbusy, he, _⟩ | ⟨_, _, halone, he, _⟩ <;> rw [he]
  · refine iff_of_false (by simp) ?_
    rintro ⟨-, hc⟩
    exact absurd hhalted (by simp [hc.running])
  · refine iff_of_false (by simp) ?_
    rintro ⟨-, hc⟩
    exact absurd hfull (not_le.mpr hc.free)
  · have hcontended : r.Contended := ⟨hsingle, hrunning, hfree, by rwa [hsettled hsingle]⟩
    simp [hcontended, eq_comm]
  · refine iff_of_false (by simp) ?_
    rintro ⟨-, hc⟩
    exact hc.outstanding ((hsettled hc.single).trans (halone hc.single))

theorem claimBlocking_broken_iff : r.claimBlocking.1 = .broken v ↔ r.tryClaim.1 = .broken v := by
  rcases claimBlocking_cases r with ⟨hfull, he⟩ | ⟨_, he⟩ <;> rw [he]
  simp [hfull]

theorem claimForPush_broken_iff : r.claimForPush.1 = .broken v ↔ r.tryClaim.1 = .broken v := by
  rcases claimForPush_cases r with he | he | ⟨hfull, m, he⟩ <;> rw [he]
  · exact claimBlocking_broken_iff
  · simp [hfull]

/-- A claim that succeeds is completed without breaking off. -/
theorem complete_broken_iff (h : r.Counted) (content : Option α) {claim : Response Int × Ring α}
    (hpath : Path r (gave claim.1) claim.2) (hheld : ∀ s, claim.1 = .done s → s ∈ claim.2.held) :
    (r.complete claim fun r s => (r.put s content).publish s).1 = .broken v ↔
      claim.1 = .broken v := by
  rcases complete_cases h content hpath hheld with ⟨s, hdone, he | he⟩ | ⟨-, he⟩ <;> rw [he]
  all_goals simp [hdone]

theorem reply_broken_iff {ρ : Type} {outcome : Response ρ × Ring α} {ok : ρ → Answer α}
    (well : ∀ value, ok value ≠ .broken v) :
    (reply outcome ok).1 = .broken v ↔ outcome.1 = .broken v := by
  obtain ⟨response, r'⟩ := outcome
  cases response with
  | done value => simp [reply, well value]
  | _ => simp [reply]

/-- Every call that claims breaks off as a plain claim does. -/
theorem claims_broken_iff (h : r.Counted) {call : Call α} (claims : call.claims = true) :
    (r.answer call).1 = .broken v ↔ r.tryClaim.1 = .broken v := by
  cases call with
  | push item =>
    refine (reply_broken_iff fun _ => by simp).trans (Iff.trans ?_ claimForPush_broken_iff)
    exact complete_broken_iff h (some item) (claimForPush_path h) fun _ =>
      mem_held_of_claimForPush h
  | pushEmpty =>
    refine (reply_broken_iff fun _ => by simp).trans ?_
    exact complete_broken_iff h none (tryClaim_path h) fun _ => mem_held_of_tryClaim h
  | claim => exact reply_broken_iff fun _ => by simp
  | claimBlocking => exact (reply_broken_iff fun _ => by simp).trans claimBlocking_broken_iff
  | _ => cases claims

/-- The promise of a single producer is checked before anything is claimed. -/
theorem tryClaim_of_broken (h : r.Counted) (broken : r.tryClaim.1 = .broken v) :
    ∃ cachedGating, r.tryClaim.2 = { r with cachedGating } := by
  obtain ⟨_, hc⟩ := (tryClaim_broken_iff h).mp broken
  obtain ⟨r', hr', hclaim⟩ := claimSingle_of_counted h
  have hsingle : r.tryClaim = r.claimSingle := by
    rw [tryClaim, if_neg (by simp [hc.running]), hc.single]
  have hbusy : r.held ≠ [] := by
    have hout := hc.outstanding
    rwa [outstanding, (h.single hc.single).1, List.append_nil] at hout
  rw [hsingle, hclaim, if_neg (not_le.mpr hc.free), if_pos hbusy]
  rcases hr' with rfl | rfl
  · exact ⟨r'.cachedGating, rfl⟩
  · exact ⟨r.gating, rfl⟩

theorem complete_of_broken {claim : Response Int × Ring α} (broken : claim.1 = .broken v)
    (finish : Ring α → Int → Response Publication × Ring α) :
    r.complete claim finish = claim := by
  obtain ⟨response, r'⟩ := claim
  cases broken
  rfl

theorem claims_of_broken (h : r.Counted) {call : Call α} (claims : call.claims = true)
    (broken : (r.answer call).1 = .broken v) :
    ∃ cachedGating, (r.answer call).2 = { r with cachedGating } := by
  have htry := (claims_broken_iff h claims).mp broken
  have hblocking : r.claimBlocking = r.tryClaim := by
    rcases claimBlocking_cases r with ⟨hfull, _⟩ | ⟨_, he⟩
    · simp [hfull] at htry
    · exact he
  have hring : (r.answer call).2 = r.tryClaim.2 := by
    cases call with
    | push item =>
      have hpush : r.claimForPush = r.tryClaim := by
        rcases claimForPush_cases r with he | he | ⟨hfull, _⟩
        · exact he.trans hblocking
        · exact he
        · simp [hfull] at htry
      refine (reply_ring _ _).trans ?_
      rw [push, hpush, complete_of_broken htry]
    | pushEmpty =>
      refine (reply_ring _ _).trans ?_
      rw [pushEmpty, complete_of_broken htry]
    | claim => exact reply_ring _ _
    | claimBlocking => exact (reply_ring _ _).trans (congrArg Prod.snd hblocking)
    | _ => cases claims
  rw [hring]
  exact tryClaim_of_broken h htry

end Claims

section Consumer
variable {v : Violation}

theorem drainUpTo_error_iff {next available : Int} :
    r.drainUpTo next available = .error v ↔
      r.cursor < available ∧ v = .beyondCursor available r.cursor := by
  unfold drainUpTo
  split_ifs with hhidden
  · simp [hhidden, eq_comm]
  · simp [hhidden]

theorem release_error_iff (h : r.Counted) {s : Int} :
    r.release s = .error v ↔
      (s < r.gating ∧ v = .gatingDecreased r.gating s) ∨
        (r.cursor < s ∧ v = .beyondCursor s r.cursor) := by
  have hgating := h.gating_le
  unfold release
  split_ifs with hearlier hhidden
  · have hvisible : ¬ r.cursor < s := by omega
    simp [hearlier, hvisible, eq_comm]
  · simp [hearlier, hhidden, eq_comm]
  · simp [hearlier, hhidden]

/-- A drain breaks off before it has taken anything, if it does. -/
theorem drain_broken_iff {next available : Int} {limit : Nat} :
    (r.drain next available limit).1 = .broken v ↔
      (r.cursor < available ∧ v = .beyondCursor available r.cursor) ∨
        (available ≤ r.cursor ∧ Drain.sizeHint ⟨next, available⟩ = .error v) := by
  unfold drain
  dsimp only [bind, Except.bind, pure, Except.pure]
  by_cases hhidden : r.cursor < available
  · have hdrain : r.drainUpTo next available = .error (.beyondCursor available r.cursor) :=
      if_pos hhidden
    simp [hdrain, hhidden, eq_comm]
  · have hdrain : r.drainUpTo next available = .ok ⟨next, available⟩ := if_neg hhidden
    rw [hdrain]
    dsimp only
    cases hint : Drain.sizeHint ⟨next, available⟩ with
    | error violation => simp [hhidden, not_lt.mp hhidden, eq_comm]
    | ok before =>
      have hafter := Drain.sizeHint_skip hint limit
      simp [drainMany_eq, hafter, hhidden]

theorem drain_of_broken {next available : Int} {limit : Nat}
    (broken : (r.drain next available limit).1 = .broken v) :
    (r.drain next available limit).2 = r := by
  rcases drain_cases r next available limit with ⟨_, he⟩ | ⟨_, _, _, he⟩
  · rw [he]
  · rw [he] at broken
    cases broken

theorem onConsumer_ring (consumer : r.consumed = true) {run : Unit → Answer α × Ring α} :
    (r.onConsumer run).2 = (run ()).2 :=
  congrArg Prod.snd (if_pos consumer)

theorem onConsumer_broken_iff {run : Unit → Answer α × Ring α} :
    (r.onConsumer run).1 = .broken v ↔ r.consumed = true ∧ (run ()).1 = .broken v := by
  unfold onConsumer
  split_ifs with hconsumer <;> simp [hconsumer]

end Consumer

/-- A claim in a producer's hands can be handed in in any way, and no such call breaks off. -/
theorem handsIn_not_broken (h : r.Counted) {call : Call α} {s : Int}
    (handsIn : call.handsIn? = some s) (v : Violation) : (r.answer call).1 ≠ .broken v := by
  by_cases hheld : s ∈ r.held
  · intro broken
    have hdone := handsIn_done h hheld handsIn
    rw [broken] at hdone
    cases call <;> simp [notes] at hdone
  · have hnone : (r.answer call).1 = .noClaim := by
      cases call <;> cases handsIn <;> simp [answer, onClaim, hheld]
    simp [hnone]

/-- A call breaks off exactly when it breaks a promise of its caller. -/
theorem broken_iff_breaks (h : r.Counted) (call : Call α) (v : Violation) :
    (r.answer call).1 = .broken v ↔ r.Breaks call v := by
  cases call with
  | push _ | pushEmpty | claim | claimBlocking =>
    rw [claims_broken_iff h rfl, tryClaim_broken_iff h]
    constructor
    · rintro ⟨rfl, hc⟩
      exact .claim rfl hc
    · intro hb
      cases hb with
      | claim _ hc => exact ⟨rfl, hc⟩
  | drain next available limit =>
    refine onConsumer_broken_iff.trans ?_
    rw [drain_broken_iff]
    constructor
    · rintro ⟨hconsumer, ⟨hhidden, rfl⟩ | ⟨hvisible, hoverflow⟩⟩
      · exact .drain hconsumer hhidden
      · exact .count hconsumer hvisible hoverflow
    · intro hb
      cases hb with
      | drain hconsumer hhidden => exact ⟨hconsumer, .inl ⟨hhidden, rfl⟩⟩
      | count hconsumer hvisible hoverflow => exact ⟨hconsumer, .inr ⟨hvisible, hoverflow⟩⟩
      | claim claims => cases claims
  | release s =>
    have hrelease : (r.answer (.release s)).1 = .broken v ↔
        r.consumed = true ∧ r.release s = .error v := by
      refine onConsumer_broken_iff.trans (and_congr_right fun _ => ?_)
      cases r.release s <;> simp
    rw [hrelease, release_error_iff h]
    constructor
    · rintro ⟨hconsumer, ⟨hearlier, rfl⟩ | ⟨hhidden, rfl⟩⟩
      · exact .back hconsumer hearlier
      · exact .ahead hconsumer hhidden
    · intro hb
      cases hb with
      | back hconsumer hearlier => exact ⟨hconsumer, .inl ⟨hearlier, rfl⟩⟩
      | ahead hconsumer hhidden => exact ⟨hconsumer, .inr ⟨hhidden, rfl⟩⟩
      | claim claims => cases claims
  | publish s | write s _ | abandon s =>
    refine iff_of_false (handsIn_not_broken h rfl v) fun hb => ?_
    cases hb with
    | claim claims => cases claims
  | look s | set s _ =>
    refine iff_of_false ?_ fun hb => by cases hb with | claim claims => cases claims
    by_cases hheld : s ∈ r.held <;> simp [answer, onClaim, hheld]
  | next =>
    refine iff_of_false (fun hb => ?_) fun hb => by cases hb with | claim claims => cases claims
    cases (onConsumer_broken_iff.mp hb).2
  | waitFor n =>
    refine iff_of_false (fun hb => ?_) fun hb => by cases hb with | claim claims => cases claims
    have hrun := (onConsumer_broken_iff.mp hb).2
    cases hwait : r.waitFor n <;> simp [hwait] at hrun
  | consumer =>
    refine iff_of_false ?_ fun hb => by cases hb with | claim claims => cases claims
    unfold answer takeConsumer
    split_ifs <;> simp
  | halt | status =>
    exact iff_of_false (by simp [answer]) fun hb => by cases hb with | claim claims => cases claims

/-- A call that breaks off has done nothing but look where the consumer is. -/
theorem answer_of_broken (h : r.Counted) {call : Call α} {v : Violation}
    (broken : (r.answer call).1 = .broken v) :
    ∃ cachedGating, (r.answer call).2 = { r with cachedGating } := by
  cases (broken_iff_breaks h call v).mp broken with
  | claim claims => exact claims_of_broken h claims broken
  | drain consumer | count consumer =>
    have hdrain := drain_of_broken (onConsumer_broken_iff.mp broken).2
    exact ⟨_, (onConsumer_ring consumer).trans hdrain⟩
  | back consumer earlier =>
    refine ⟨r.cachedGating, (onConsumer_ring consumer).trans ?_⟩
    rw [(release_error_iff h).mpr (.inl ⟨earlier, rfl⟩)]
  | ahead consumer hidden =>
    refine ⟨r.cachedGating, (onConsumer_ring consumer).trans ?_⟩
    rw [(release_error_iff h).mpr (.inr ⟨hidden, rfl⟩)]

theorem Breaks.not_internal {call : Call α} {v : Violation} (h : r.Breaks call v) :
    v.internal = false := by
  cases h with
  | count _ _ overflow =>
    unfold Drain.sizeHint at overflow
    dsimp only at overflow
    split_ifs at overflow <;> cases overflow <;> rfl
  | _ => rfl

/-- A call breaks off exactly when it breaks a promise of its caller: it claims while the only
producer of a running ring with a free slot holds a claim, drains or releases what is not visible
yet, or releases less than has been given back. Handing a claim in never breaks off, and no promise
of the ring itself is ever broken. A call that breaks off leaves the ring as it was, all but the
producer's copy of the consumer's place, and every claim in a producer's hands can still be handed
in. -/
theorem breaks_off_exactly {config : Config} (h : Ring.Reachable config r) :
    (∀ call v, (r.answer call).1 = .broken v ↔ r.Breaks call v) ∧
    (∀ next available v, r.drainUpTo next available = .error v ↔
      r.cursor < available ∧ v = .beyondCursor available r.cursor) ∧
    (∀ call s, call.handsIn? = some s → ∀ v, (r.answer call).1 ≠ .broken v) ∧
    ∀ call v, (r.answer call).1 = .broken v →
      v.internal = false ∧
      (∃ cachedGating, (r.answer call).2 = { r with cachedGating }) ∧
      ∀ s ∈ r.held, ∀ handIn : Call α, handIn.handsIn? = some s →
        Note.handedIn s ∈ notes (handIn, ((r.answer call).2.answer handIn).1) := by
  have hcounted := h.counted
  refine ⟨broken_iff_breaks hcounted, fun _ _ _ => drainUpTo_error_iff,
    fun call s => handsIn_not_broken hcounted, fun call v broken => ?_⟩
  obtain ⟨cachedGating, he⟩ := answer_of_broken hcounted broken
  refine ⟨((broken_iff_breaks hcounted call v).mp broken).not_internal, ⟨cachedGating, he⟩,
    fun s hs handIn hhandIn => ?_⟩
  have hnext : (r.answer call).2.Counted := (answer_path hcounted call).counted hcounted
  have hheld : s ∈ (r.answer call).2.held := by rwa [he]
  exact handsIn_done hnext hheld hhandIn

/-- Four promises are broken in a row, and the claim that was in the producer's hands all the while
is still handed in. -/
theorem breaks_off_exactly_again :
    ∃ r : Ring Nat, Ring.Reachable { capacity := 4, producers := .single } r ∧
      r.Contended ∧ r.held = [1] ∧
      (r.answer (.push 9)).1 = .broken .secondClaim ∧
      Note.handedIn 1 ∈ notes (.write 1 7, ((r.answer (.push 9)).2.answer (.write 1 7)).1) := by
  let calls : List (Call Nat) :=
    [.consumer, .push 5, .claim, .claim, .drain 0 1 1, .release 3, .drain 0 0 1, .release 0,
      .release (-1)]
  obtain ⟨new, hnew, hsingle, hrunning, hfree, hheld, hbroken⟩ :=
    exists_make { capacity := 4, producers := .single } {}
      (fun new : Ring Nat =>
        let r := new.after calls
        r.config.producers = .single ∧ r.halted = false ∧ r.claimed < r.gating + r.capacity ∧
          r.held = [1] ∧
          new.answers calls = [.ok, .sequence 0, .claimed 1 none, .broken .secondClaim,
            .broken (.beyondCursor 1 0), .broken (.beyondCursor 3 0), .drained [(0, some 5)] 1 0,
            .ok, .broken (.gatingDecreased 0 (-1))])
      (by decide +kernel)
  have hr : Ring.Reachable _ (new.after calls) := ⟨new, calls, hnew, rfl⟩
  have hcontended : (new.after calls).Contended :=
    ⟨hsingle, hrunning, hfree, by simp [outstanding, hheld]⟩
  obtain ⟨hexact, _, _, hundone⟩ := breaks_off_exactly hr
  have hpush := (hexact (.push 9) _).mpr (.claim rfl hcontended)
  exact ⟨_, hr, hcontended, hheld, hpush,
    (hundone _ _ hpush).2.2 1 (by simp [hheld]) (.write 1 7) rfl⟩

end Ring
end MessageRing
