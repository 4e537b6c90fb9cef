import MessageRing.Proofs.Ring.Windows

/-!
A halt leaves nothing behind.

A halted ring gives out no sequence, so the claims in producers' hands only become fewer: each
leaves when it is handed in. When all have been, everything claimed is visible, and a consumer that
is told of the halt has taken all of it.
-/
namespace MessageRing
namespace Ring
variable {α : Type} {r : Ring α}

/-- The claim that a call hands in. -/
def Call.handsIn? : Call α → Option Int
  | .publish s | .write s _ | .abandon s => some s
  | _ => none

def handedIn (notes : List (Note α)) : List Int :=
  notes.filterMap fun
    | .handedIn s => some s
    | _ => none

theorem mem_handedIn {notes : List (Note α)} {s : Int} :
    s ∈ handedIn notes ↔ Note.handedIn s ∈ notes := by
  unfold handedIn
  rw [List.mem_filterMap]
  constructor
  · rintro ⟨note, hnote, he⟩
    cases note <;> cases he
    exact hnote
  · intro h
    exact ⟨_, h, rfl⟩

theorem settle_go_held (waiting : List Int) (r : Ring α) :
    (settle.go waiting r).held = r.held := by
  induction waiting generalizing r with
  | nil => rfl
  | cons s rest ih =>
    unfold settle.go
    split_ifs
    · obtain ⟨m, he⟩ := r.advance_eq
      rw [ih, he]
    · rfl

theorem publish_held (h : r.Counted) {s : Int} (hs : s ∈ r.held) :
    (r.publish s).2.held = r.held.erase s := by
  by_cases hnext : s = r.cursor + 1
  · obtain ⟨m, he⟩ := (r.without s).advance_eq
    rw [publish_of_next hnext]
    cases r.config.producers with
    | single => rw [he]; rfl
    | multi => exact (settle_go_held _ _).trans (by rw [he]; rfl)
  · rw [publish_of_not_next hnext]
    cases hp : r.config.producers with
    | single => exact absurd (h.held_eq_of_single hp hs).2 hnext
    | multi => rfl

/-- In a halted ring producers hold what they held, except what they hand in. -/
theorem Step.held_of_halted {r' : Ring α} {notes : List (Note α)} (step : Step r notes r')
    (h : r.Counted) (halted : r.halted = true) : r'.held = r.held.diff (handedIn notes) := by
  cases step with
  | grant running free alone =>
    rw [halted] at running
    cases running
  | handIn held => simp [publish_held h held, handedIn]
  | _ => rfl

theorem Path.held_of_halted {r' : Ring α} {notes : List (Note α)} (path : Path r notes r')
    (h : r.Counted) (halted : r.halted = true) : r'.held = r.held.diff (handedIn notes) := by
  induction path with
  | nil => rfl
  | cons step rest ih =>
    rw [ih (step.counted h) (step.halted halted).1, step.held_of_halted h halted, handedIn,
      handedIn, handedIn, List.filterMap_append, List.diff_append]

theorem reply_of_done {ρ : Type} (outcome : Response ρ × Ring α) {value : ρ}
    (h : outcome.1 = .done value) (ok : ρ → Answer α) : (reply outcome ok).1 = ok value := by
  obtain ⟨response, r⟩ := outcome
  cases h
  rfl

/-- Handing in a claim that a producer holds succeeds, also after a halt. -/
theorem handsIn_done (h : r.Counted) {s : Int} (hs : s ∈ r.held) {call : Call α}
    (hcall : call.handsIn? = some s) : Note.handedIn s ∈ notes (call, (r.answer call).1) := by
  cases call with
  | publish t =>
    cases hcall
    obtain ⟨outcome, hdone⟩ := publish_done h hs
    rw [answer, onClaim, if_pos hs, reply_of_done (r.publish s) hdone]
    simp [notes]
  | write t item =>
    cases hcall
    obtain ⟨outcome, hdone⟩ := put_publish_done h (some item) hs
    rw [answer, onClaim, if_pos hs, reply_of_done (r.write s item) hdone]
    simp [notes]
  | abandon t =>
    cases hcall
    obtain ⟨outcome, hdone⟩ := put_publish_done h none hs
    rw [answer, onClaim, if_pos hs, reply_of_done (r.abandon s) hdone]
    cases outcome <;> simp [notes]
  | _ => cases hcall

/-- When producers hold no claim, none that was handed in is kept back. -/
theorem Counted.settled (h : r.Counted) (hheld : r.held = []) :
    r.outstanding = [] ∧ r.cursor = r.claimed := by
  have hdeferred : r.deferred = [] := by
    by_contra hne
    obtain ⟨s, hs⟩ := List.exists_mem_of_ne_nil _ hne
    have hlast := (h.mem_outstanding s).mp (List.mem_append_right _ hs)
    -- the sequence after the cursor would be outstanding too, and only a producer can hold it
    have hnext := (h.mem_outstanding (r.cursor + 1)).mpr (by omega)
    rw [outstanding, hheld, List.nil_append] at hnext
    exact absurd (h.gap _ hnext) (lt_irrefl _)
  have hsettled : r.outstanding = [] := by rw [outstanding, hheld, hdeferred]; rfl
  have hlength := h.length_outstanding
  rw [hsettled, List.length_nil] at hlength
  exact ⟨hsettled, by omega⟩

theorem waitFor_eq_upTo_iff {required s : Int} :
    r.waitFor required = .upTo s ↔ s = r.cursor ∧ required ≤ r.cursor := by
  refine ⟨waitFor_upTo, ?_⟩
  rintro ⟨rfl, hvisible⟩
  unfold waitFor
  rw [if_pos hvisible]

theorem waitFor_eq_halted_iff {required : Int} :
    r.waitFor required = .halted ↔
      r.cursor < required ∧ r.halted = true ∧ r.claimed < required := by
  refine ⟨waitFor_halted, ?_⟩
  rintro ⟨hcursor, hhalted, hclaimed⟩
  unfold waitFor
  rw [if_neg (by omega), if_pos ⟨hhalted, hclaimed⟩]

theorem waitFor_eq_waits_iff {required : Int} :
    r.waitFor required = .waits ↔
      r.cursor < required ∧ ¬ (r.halted = true ∧ r.claimed < required) := by
  unfold waitFor
  split_ifs with hvisible hover
  · simp; omega
  · simp [hover]
  · simp only [true_iff]
    exact ⟨by omega, hover⟩

theorem sequences_append {m : Nat} {n : Int} (h : m ≤ n) :
    sequences n.toNat = sequences m ++ Int.range m n := by
  have hn : n.toNat = m + (n - m).toNat := by omega
  rw [hn]
  simp [sequences, Int.range, List.range_add]

/-- What the consumer has taken and what it would take next are together all that is visible. -/
theorem Books.drained_rest {l : Ledger α} (h : r.Books l) {limit : Nat}
    (hlimit : r.cursor < l.drained.length + limit) :
    l.drained ++ (drainMany limit r ⟨l.drained.length, r.cursor⟩).1 =
      (sequences (r.cursor + 1).toNat).map fun s => (s, l.content s) := by
  have hgating := h.gating_lt
  have hle := h.drained_le
  have hcursor := h.counted.cursor_le
  have hclaimed := h.counted.claimed_le
  have hfits : r.cursor < l.drained.length + (r.capacity : Int) := by omega
  rw [sequences_append hle, List.map_append, ← h.drained, r.drainMany_whole hlimit hfits]
  congr 1
  apply List.map_congr_left
  intro s hs
  obtain ⟨hfirst, hlast⟩ := Drain.mem_sequences.mp hs
  dsimp only at hfirst hlast
  rw [h.slots s hfirst (by omega)]

/-- A halt leaves nothing behind. From a halt on nothing more is claimed and every call that would
claim is refused. A claim that was in a producer's hands stays there until it is handed in, which
succeeds. When all have been handed in, everything claimed is visible and ready for the consumer. A
consumer that waits is told at any time how far it can drain, or of the halt, or to wait, as the
counters say; told of the halt, one that takes its entries in order, or works window by window, has
been handed every sequence ever claimed. -/
theorem halt_leaves_nothing {config : Config} {metrics : Metrics} {new : Ring α}
    (made : Ring.make config metrics = .ok new) (before later : List (Call α)) :
    let q := new.after before
    let r := q.halt.after later
    let l := Ledger.read {} (new.history (before ++ .halt :: later))
    let orderly := Ledger.OrderlyAll {} (new.history (before ++ .halt :: later)) ∨
      new.Diligent .idle (before ++ .halt :: later)
    (r.claimed = q.claimed ∧
      ∀ call : Call α, call.claims = true → r.answer call = (.refused .notRunning, r)) ∧
    (r.held = q.held.diff (handedIn (q.halt.history later)) ∧
      ∀ s ∈ r.held, ∀ call : Call α, call.handsIn? = some s →
        Note.handedIn s ∈ notes (call, (r.answer call).1)) ∧
    ((∀ s ∈ q.held, Note.handedIn s ∈ q.halt.history later) →
      r.outstanding = [] ∧ r.cursor = q.claimed ∧
      (orderly → ∀ limit : Nat, r.cursor < l.drained.length + limit →
        l.drained ++ (drainMany limit r ⟨l.drained.length, r.cursor⟩).1 =
          (sequences (q.claimed + 1).toNat).map fun s => (s, l.content s))) ∧
    (∀ required : Int,
      (∀ s, q.waitFor required = .upTo s ↔ s = q.cursor ∧ required ≤ q.cursor) ∧
      (q.waitFor required = .halted ↔
        q.cursor < required ∧ q.halted = true ∧ q.claimed < required) ∧
      (q.waitFor required = .waits ↔
        q.cursor < required ∧ ¬ (q.halted = true ∧ q.claimed < required))) ∧
    (orderly → r.waitFor r.nextSequence = .halted →
      r.gating = q.claimed ∧ r.cursor = q.claimed ∧
      l.drained = (sequences (q.claimed + 1).toNat).map fun s => (s, l.content s)) := by
  intro q r l orderly
  have hnew := make_books made
  have hq : q.Counted := (history_path hnew.counted before).counted hnew.counted
  have hhalt : q.halt.Counted := (Step.halt q).counted hq
  have hpath : Path q.halt (q.halt.history later) r := history_path hhalt later
  have hr : r.Counted := hpath.counted hhalt
  obtain ⟨hhalted, hclaimed⟩ := hpath.halted rfl
  change r.claimed = q.claimed at hclaimed
  have hheld := hpath.held_of_halted hhalt rfl
  have hbooks : orderly → r.Books l := fun ho => by
    have hall := (history_path hnew.counted (before ++ .halt :: later)).books hnew
      (ho.elim id (orderly_of_diligent made))
    rw [after, List.foldl_append] at hall
    exact hall
  refine ⟨⟨hclaimed, fun call => answer_of_halted hhalted⟩,
    ⟨hheld, fun s hs call hcall => handsIn_done hr hs hcall⟩, ?_, ?_, ?_⟩
  · intro hall
    have hnone : r.held = [] := by
      rw [hheld, List.eq_nil_iff_forall_not_mem]
      intro s hs
      have hnodup : q.held.Nodup := (List.nodup_append.mp hq.nodup).1
      obtain ⟨hmem, hout⟩ := hnodup.mem_sdiff_iff.mp hs
      exact hout (mem_handedIn.mpr (hall s hmem))
    obtain ⟨hsettled, hcursor⟩ := hr.settled hnone
    refine ⟨hsettled, hcursor.trans hclaimed, fun ho limit hlimit => ?_⟩
    rw [(hbooks ho).drained_rest hlimit, hcursor, hclaimed]
  · exact fun required =>
      ⟨fun s => waitFor_eq_upTo_iff, waitFor_eq_halted_iff, waitFor_eq_waits_iff⟩
  · intro ho htold
    have hb := hbooks ho
    obtain ⟨hcursor, _, hover⟩ := waitFor_halted htold
    change r.cursor < r.gating + 1 at hcursor
    change r.claimed < r.gating + 1 at hover
    have hgating := hr.gating_le
    have hle := hr.cursor_le
    have hlt := hb.gating_lt
    have hdrained := hb.drained_le
    have hlength : l.drained.length = (q.claimed + 1).toNat := by omega
    refine ⟨by omega, by omega, ?_⟩
    rw [← hlength]
    exact hb.drained

/-- Halted when it is full and has wrapped, with two claims out. The later one is handed in first,
the other is given up, and the consumer waits for both. -/
theorem halt_leaves_nothing_full :
    ∃ (new : Ring Nat) (before later : List (Call Nat)),
      Ring.make { capacity := 2 } {} = .ok new ∧
      (new.after before).held = [1, 2] ∧ (new.after before).remaining = 0 ∧
      (Ledger.read {} (new.history (before ++ .halt :: later))).drained =
        [(0, some 5), (1, none), (2, some 7)] ∧
      ((new.after before).halt.after later).gating = (new.after before).claimed := by
  let before : List (Call Nat) :=
    [.consumer, .push 5, .claim, .waitFor 0, .drain 0 0 1, .release 0, .claim]
  let later : List (Call Nat) :=
    [.push 9, .write 2 7, .waitFor 1, .abandon 1, .claim, .waitFor 1, .drain 1 2 5, .release 2]
  obtain ⟨new, hnew, hheld, hfull, hdrained, hdiligent, htold⟩ := exists_make { capacity := 2 } {}
    (fun new : Ring Nat =>
      let r := (new.after before).halt.after later
      (new.after before).held = [1, 2] ∧ (new.after before).remaining = 0 ∧
        (Ledger.read {} (new.history (before ++ .halt :: later))).drained =
          [(0, some 5), (1, none), (2, some 7)] ∧
        new.Diligent .idle (before ++ .halt :: later) ∧ r.waitFor r.nextSequence = .halted)
    (by decide +kernel)
  exact ⟨new, before, later, hnew, hheld, hfull, hdrained,
    ((halt_leaves_nothing hnew before later).2.2.2.2 (.inr hdiligent) htold).1⟩

end Ring
end MessageRing
