import MessageRing.Proofs.Ring.Halt

/-!
Whose item a slot holds.

A slot serves one sequence after another, and nothing empties it but the consumer. So what a drain
hands out was always written by a claim of that slot, and it was written by the claim of that very
sequence if the consumer has taken every sequence that it gave back.
-/
namespace MessageRing

namespace Ledger
variable {α : Type}

/-- The sequences that the consumer has taken. -/
def taken (l : Ledger α) : List Int := l.drained.map Prod.fst

/-- The consumer gives back only what it has taken. -/
def Thorough (l : Ledger α) : Note α → Prop
  | .released s => ∀ k : Nat, k < (s - l.released).toNat → l.released + 1 + k ∈ l.taken
  | _ => True

instance (l : Ledger α) : (note : Note α) → Decidable (l.Thorough note)
  | .released s => inferInstanceAs
      (Decidable (∀ k : Nat, k < (s - l.released).toNat → l.released + 1 + k ∈ l.taken))
  | .gave _ | .stored _ _ | .handedIn _ | .told _ | .took _ _ | .halted => .isTrue trivial

/-- All notes keep to the rule when they are written down. -/
def Along (rule : Ledger α → Note α → Prop) (l : Ledger α) : List (Note α) → Prop
  | [] => True
  | note :: notes => rule l note ∧ Along rule (l.enter note) notes

instance decidableAlong (rule : Ledger α → Note α → Prop)
    [∀ l note, Decidable (rule l note)] (l : Ledger α) :
    (notes : List (Note α)) → Decidable (Along rule l notes)
  | [] => .isTrue trivial
  | note :: notes =>
    have := decidableAlong rule (l.enter note) notes
    inferInstanceAs (Decidable (_ ∧ _))

theorem along_append (rule : Ledger α → Note α → Prop) (l : Ledger α)
    (notes notes' : List (Note α)) :
    Along rule l (notes ++ notes') ↔ Along rule l notes ∧ Along rule (l.read notes) notes' := by
  induction notes generalizing l with
  | nil => simp [Along]
  | cons note notes ih => simp [Along, ih, and_assoc]

@[simp] theorem along_singleton (rule : Ledger α → Note α → Prop) (l : Ledger α) (note : Note α) :
    Along rule l [note] ↔ rule l note := by
  simp [Along]

theorem Thorough.mem_taken {l : Ledger α} {s t : Int} (h : l.Thorough (.released s))
    (later : l.released < t) (before : t ≤ s) : t ∈ l.taken := by
  have hk := h (t - l.released - 1).toNat (by omega)
  have ht : l.released + 1 + ((t - l.released - 1).toNat : Int) = t := by omega
  rwa [ht] at hk

@[simp] theorem taken_took (l : Ledger α) (s : Int) (content : Option α) :
    (l.enter (.took s content)).taken = l.taken ++ [s] :=
  List.map_append

end Ledger

namespace Ring
variable {α : Type}

/-- Every item in a slot was stored there by a claim of the slot, as the ledger says. -/
structure Traced (r : Ring α) (l : Ledger α) : Prop where
  counted : r.Counted
  claims : l.claims = sequences (r.claimed + 1).toNat
  released : l.released = r.gating
  taken_le : ∀ s ∈ l.taken, s ≤ r.cursor
  source : ∀ s item, r.peek s = some item →
    ∃ t ∈ l.claims, r.config.slot t = r.config.slot s ∧ l.content t = some item

/-- An item found in the slot of a sequence that has not been given back was stored under that
sequence, which is claimed and has not been taken. -/
def Owned (r : Ring α) (l : Ledger α) : Prop :=
  ∀ s item, r.gating < s → s ≤ r.gating + r.capacity → r.peek s = some item →
    s ≤ r.claimed ∧ s ∉ l.taken ∧ l.content s = some item

section Steps
variable {r r' : Ring α} {l : Ledger α} {notes : List (Note α)}

theorem make_traced {config : Config} {metrics : Metrics}
    (h : Ring.make config metrics = .ok r) : r.Traced {} := by
  have hbooks := make_books h
  exact ⟨hbooks.counted, hbooks.claims, hbooks.released, by simp [Ledger.taken],
    fun s item hs => by simp [make_peek h] at hs⟩

theorem make_owned {config : Config} {metrics : Metrics} (h : Ring.make config metrics = .ok r) :
    r.Owned {} := by
  intro s item _ _ hs
  simp [make_peek h] at hs

theorem Traced.mem_claims (h : r.Traced l) {s : Int} : s ∈ l.claims ↔ 0 ≤ s ∧ s ≤ r.claimed := by
  have hlow := h.counted.start
  have hgating := h.counted.gating_le
  have hcursor := h.counted.cursor_le
  rw [h.claims, mem_sequences]
  omega

theorem Traced.of_keeps (h : r.Traced l) (hk : r.Keeps r') (hc : r'.Counted) : r'.Traced l where
  counted := hc
  claims := by rw [hk.claimed]; exact h.claims
  released := by rw [hk.gating]; exact h.released
  taken_le s hs := (h.taken_le s hs).trans hk.cursor_le
  source := by
    rw [hk.config]
    intro s item hs
    rw [hk.peek] at hs
    exact h.source s item hs

theorem Traced.grant (h : r.Traced l) (hc : r.grant.2.Counted) :
    r.grant.2.Traced (l.enter (.gave (r.claimed + 1))) where
  counted := hc
  claims := by
    have hlow := h.counted.start
    have hgating := h.counted.gating_le
    have hcursor := h.counted.cursor_le
    change l.claims ++ [r.claimed + 1] = sequences (r.claimed + 1 + 1).toNat
    have hn : (r.claimed + 1 + 1).toNat = (r.claimed + 1).toNat + 1 := by omega
    rw [hn, sequences_succ, h.claims, Int.toNat_of_nonneg (by omega)]
  released := h.released
  taken_le := h.taken_le
  source s item hs := by
    obtain ⟨t, ht, hslot⟩ := h.source s item hs
    exact ⟨t, List.mem_append_left _ ht, hslot⟩

theorem Traced.store (h : r.Traced l) {s : Int} (content : Option α) (held : s ∈ r.held)
    (hc : (r.put s content).Counted) : (r.put s content).Traced (l.enter (.stored s content)) where
  counted := hc
  claims := h.claims
  released := h.released
  taken_le := h.taken_le
  source t item ht := by
    change ∃ u ∈ l.claims, r.config.slot u = r.config.slot t ∧
      Function.update l.content s content u = some item
    rw [peek_put] at ht
    split_ifs at ht with hslot
    · have hbounds := h.counted.held_bounds held
      have hlow := h.counted.start
      have hgating := h.counted.gating_le
      exact ⟨s, h.mem_claims.mpr (by omega), hslot, (Function.update_self ..).trans ht⟩
    · -- the slot was not touched, so neither was the sequence that its item came from
      obtain ⟨u, hu, huslot, hcontent⟩ := h.source t item ht
      have hne : u ≠ s := fun he => hslot (he ▸ huslot)
      exact ⟨u, hu, huslot, (Function.update_of_ne hne _ _).trans hcontent⟩

theorem Traced.take (h : r.Traced l) {s : Int} (visible : s ≤ r.cursor)
    (hc : (r.put s none).Counted) : (r.put s none).Traced (l.enter (.took s (r.peek s))) where
  counted := hc
  claims := h.claims
  released := h.released
  taken_le t ht := by
    rw [Ledger.taken_took, List.mem_append, List.mem_singleton] at ht
    rcases ht with ht | rfl
    · exact h.taken_le t ht
    · exact visible
  source t item ht := by
    rw [peek_put] at ht
    split_ifs at ht
    exact h.source t item ht

theorem Step.traced (step : Step r notes r') (h : r.Traced l) : r'.Traced (l.read notes) := by
  have hc := step.counted h.counted
  cases step with
  | grant running free alone => exact h.grant hc
  | store content held => exact h.store content held hc
  | handIn held => exact h.of_keeps (r.publish_keeps _) hc
  | take visible => exact h.take visible hc
  | release later visible => exact { h with counted := hc, released := rfl }
  | _ => exact { h with counted := hc }

theorem Path.traced (path : Path r notes r') (h : r.Traced l) : r'.Traced (l.read notes) := by
  induction path generalizing l with
  | nil => exact h
  | cons step rest ih =>
    rw [Ledger.read_append]
    exact ih (step.traced h)

theorem Owned.store (h : r.Owned l) (traced : r.Traced l) {s : Int} (content : Option α)
    (held : s ∈ r.held) : (r.put s content).Owned (l.enter (.stored s content)) := by
  intro t item later within ht
  change r.gating < t at later
  change t ≤ r.gating + r.capacity at within
  change t ≤ r.claimed ∧ t ∉ l.taken ∧ Function.update l.content s content t = some item
  have hbounds := traced.counted.held_bounds held
  by_cases hst : s = t
  · subst hst
    rw [peek_put_self] at ht
    refine ⟨hbounds.2, fun hs => ?_, (Function.update_self ..).trans ht⟩
    have := traced.taken_le s hs
    omega
  · have hclaimed := traced.counted.claimed_le
    have hgating := traced.counted.gating_le
    rw [peek_put_of_ne r content hst (by omega) (by omega)] at ht
    rw [Function.update_of_ne (Ne.symm hst)]
    exact h t item later within ht

theorem Owned.take (h : r.Owned l) (s : Int) :
    (r.put s none).Owned (l.enter (.took s (r.peek s))) := by
  intro t item later within ht
  rw [peek_put] at ht
  split_ifs at ht with hslot
  obtain ⟨hclaimed, hout, hcontent⟩ := h t item later within ht
  refine ⟨hclaimed, ?_, hcontent⟩
  rw [Ledger.taken_took, List.mem_append, List.mem_singleton]
  rintro (hin | rfl)
  · exact hout hin
  · exact hslot rfl

/-- A slot that comes free was taken from, so that it is empty for its next sequence. -/
theorem Owned.release (h : r.Owned l) (traced : r.Traced l) {s : Int} (later : r.gating ≤ s)
    (visible : s ≤ r.cursor) (thorough : l.Thorough (.released s)) :
    Owned { r with gating := s } (l.enter (.released s)) := by
  intro t item hlater hwithin ht
  change s < t at hlater
  change t ≤ s + (r.capacity : Int) at hwithin
  by_cases hlive : t ≤ r.gating + r.capacity
  · exact h t item (by omega) hlive ht
  · have hbefore : r.peek (t - r.capacity) = some item := by
      rw [← peek_add_capacity, sub_add_cancel]
      exact ht
    have hcursor := traced.counted.cursor_le
    have hclaimed := traced.counted.claimed_le
    have htaken : t - r.capacity ∈ l.taken := by
      refine thorough.mem_taken ?_ ?_
      · rw [traced.released]
        omega
      · omega
    exact absurd htaken (h _ item (by omega) (by omega) hbefore).2.1

theorem Step.owned (step : Step r notes r') (h : r.Owned l) (traced : r.Traced l)
    (thorough : Ledger.Along Ledger.Thorough l notes) : r'.Owned (l.read notes) := by
  cases step with
  | grant running free alone =>
    intro s item later within hs
    obtain ⟨hclaimed, hrest⟩ := h s item later within hs
    exact ⟨hclaimed.trans (by simp [Ring.grant]), hrest⟩
  | store content held => exact h.store traced content held
  | handIn held =>
    have hk := r.publish_keeps
    intro s item later within hs
    rw [(hk _).gating] at later within
    rw [(hk _).capacity] at within
    rw [(hk _).peek] at hs
    rw [(hk _).claimed]
    exact h s item later within hs
  | take visible => exact h.take _
  | release later visible =>
    exact h.release traced later visible ((Ledger.along_singleton _ _ _).mp thorough)
  | _ => exact h

theorem Path.owned (path : Path r notes r') (h : r.Owned l) (traced : r.Traced l)
    (thorough : Ledger.Along Ledger.Thorough l notes) : r'.Owned (l.read notes) := by
  induction path generalizing l with
  | nil => exact h
  | cons step rest ih =>
    obtain ⟨hfirst, hrest⟩ := (Ledger.along_append _ _ _ _).mp thorough
    rw [Ledger.read_append]
    exact ih (step.owned h traced hfirst) (step.traced traced) hrest

/-- While the consumer does nothing, every sequence given out is within one round of what it has
given back. -/
theorem Path.gave_bounds (path : Path r notes r') (produced : ∀ note ∈ notes, note.produced = true)
    {s : Int} (gave : Note.gave s ∈ notes) : r.claimed < s ∧ s ≤ r.gating + r.capacity := by
  induction path with
  | nil => cases gave
  | @cons r r₁ r₂ notes notes' step rest ih =>
    rcases List.mem_append.mp gave with hfirst | hrest
    · cases step with
      | grant running free alone =>
        cases List.mem_singleton.mp hfirst
        omega
      | _ => simp at hfirst
    · have hbounds := ih (fun note hnote => produced note (List.mem_append_right _ hnote)) hrest
      have hcapacity : r₁.capacity = r.capacity := congrArg (·.capacity.toNat) step.config_eq
      have hclaimed := step.counters_le.1
      have hgating : r₁.gating = r.gating := by
        cases step with
        | handIn held => exact (r.publish_keeps _).gating
        | release later visible => cases produced _ (List.mem_append_left _ (List.mem_singleton_self _))
        | _ => rfl
      rw [hcapacity, hgating] at hbounds
      exact ⟨by omega, hbounds.2⟩

theorem claims_of_gave {call : Call α} {answer : Answer α} {s : Int}
    (gave : Note.gave s ∈ Ring.notes (call, answer)) : call.claims = true := by
  unfold Ring.notes at gave
  split at gave <;> simp_all [Call.claims]

/-- What a drain hands out was in the slot before it. -/
theorem peek_of_mem_drainMany {limit : Nat} {r : Ring α} {d : Drain} {s : Int} {item : α}
    (h : (s, some item) ∈ (drainMany limit r d).1) :
    d.next ≤ s ∧ s ≤ d.available ∧ r.peek s = some item := by
  rw [drainMany_eq] at h
  obtain ⟨t, ht, he⟩ := List.mem_map.mp (List.mem_of_mem_take h)
  obtain ⟨hnext, hlast⟩ := Drain.mem_sequences.mp ht
  obtain ⟨rfl, hitem⟩ := Prod.mk.inj he
  split_ifs at hitem
  exact ⟨hnext, hlast, hitem⟩

theorem peek_of_claimed {s : Int} {content : Option α}
    (h : (r.answer .claim).1 = .claimed s content ∨
      (r.answer .claimBlocking).1 = .claimed s content) : content = r.peek s := by
  have hreply (outcome : Response Int × Ring α)
      (he : (reply outcome fun n => .claimed n (r.peek n)).1 = .claimed s content) :
      content = r.peek s := by
    obtain ⟨response, r'⟩ := outcome
    cases response with
    | done n =>
      cases he
      rfl
    | _ => cases he
  exact h.elim (hreply _) (hreply _)

theorem gave_of_claimed {call : Call α} {s : Int} {content : Option α}
    (claims : call = .claim ∨ call = .claimBlocking) :
    Note.gave s ∈ Ring.notes (call, .claimed s content) := by
  rcases claims with rfl | rfl <;> exact List.mem_singleton_self _

/-- A sequence that is given out finds its slot empty. -/
theorem Owned.peek_of_gave (h : r.Owned l) (counted : r.Counted) {call : Call α} {s : Int}
    (gave : Note.gave s ∈ Ring.notes (call, (r.answer call).1)) : r.peek s = none := by
  have hother : call.consumes = false := by
    have := claims_of_gave gave
    cases call <;> first | rfl | cases this
  obtain ⟨hnew, hwithin⟩ :=
    (answer_path counted call).gave_bounds (notes_produced hother _) gave
  have hgating := counted.gating_le
  have hcursor := counted.cursor_le
  cases hs : r.peek s with
  | none => rfl
  | some item =>
    have := (h s item (by omega) hwithin hs).1
    omega

end Steps

/-- A drain that begins now can hand out the item as that of the sequence. -/
def Yields (r : Ring α) (s : Int) (item : α) : Prop :=
  ∃ next available limit entries before after,
    (r.answer (.drain next available limit)).1 = .drained entries before after ∧
      (s, some item) ∈ entries

theorem Yields.peek {r : Ring α} {s : Int} {item : α} (h : r.Yields s item) :
    s ≤ r.cursor ∧ r.peek s = some item := by
  obtain ⟨next, available, limit, entries, before, after, hanswer, hmem⟩ := h
  change (r.onConsumer fun _ => r.drain next available limit).1 = _ at hanswer
  unfold onConsumer at hanswer
  split_ifs at hanswer
  rcases r.drain_cases next available limit with ⟨v, hd⟩ | ⟨hvisible, before', after', hd⟩
  · rw [hd] at hanswer
    cases hanswer
  · rw [hd] at hanswer
    cases hanswer
    obtain ⟨_, hlast, hpeek⟩ := peek_of_mem_drainMany hmem
    exact ⟨hlast.trans hvisible, hpeek⟩

/-- An item that a drain hands out was stored by a claim of its slot, whatever was called before.
If the consumer has given back only what it had taken, then a sequence that is given out finds its
slot empty, and what a drain hands out under a sequence that has not been given back was stored
under that very sequence, which is visible. -/
theorem yielded_own {config : Config} {metrics : Metrics} {new : Ring α}
    (made : Ring.make config metrics = .ok new) (calls : List (Call α)) :
    let r := new.after calls
    let l := Ledger.read {} (new.history calls)
    (∀ s item, r.Yields s item → s ≤ r.cursor ∧
      ∃ t ∈ l.claims, r.config.slot t = r.config.slot s ∧ l.content t = some item) ∧
    (Ledger.Along Ledger.Thorough {} (new.history calls) →
      (∀ call s, Note.gave s ∈ notes (call, (r.answer call).1) → r.peek s = none) ∧
      (∀ s content, (r.answer .claim).1 = .claimed s content ∨
        (r.answer .claimBlocking).1 = .claimed s content → content = none) ∧
      ∀ s item, r.Yields s item → r.gating < s →
        s ≤ r.cursor ∧ s ∈ l.claims ∧ s ∉ l.taken ∧ l.content s = some item) := by
  intro r l
  have hnew := make_traced made
  have hpath := history_path hnew.counted calls
  have htraced : r.Traced l := hpath.traced hnew
  refine ⟨fun s item hyields => ?_, fun thorough => ?_⟩
  · obtain ⟨hvisible, hpeek⟩ := hyields.peek
    exact ⟨hvisible, htraced.source s item hpeek⟩
  have howned : r.Owned l := hpath.owned (make_owned made) hnew thorough
  have hempty (call : Call α) (s : Int) (hgave : Note.gave s ∈ notes (call, (r.answer call).1)) :
      r.peek s = none := howned.peek_of_gave htraced.counted hgave
  refine ⟨hempty, fun s content hclaimed => ?_, fun s item hyields later => ?_⟩
  · rw [peek_of_claimed hclaimed]
    rcases hclaimed with h | h
    · exact hempty .claim s (by rw [h]; exact gave_of_claimed (.inl rfl))
    · exact hempty .claimBlocking s (by rw [h]; exact gave_of_claimed (.inr rfl))
  · obtain ⟨hvisible, hpeek⟩ := hyields.peek
    have hstart := htraced.counted.start
    have hcursor := htraced.counted.cursor_le
    have hclaimed := htraced.counted.claimed_le
    obtain ⟨hle, hout, hcontent⟩ := howned s item later (by omega) hpeek
    exact ⟨hvisible, htraced.mem_claims.mpr (by omega), hout, hcontent⟩

/-- Two slots. The consumer takes the first two sequences in the wrong order, takes one of them
again and gives both back, and takes a claim that was published unwritten; then an item is pushed.
It is there to be taken, and the claim after it will find an empty slot. -/
theorem yielded_own_shuffled :
    ∃ (new : Ring Nat) (calls : List (Call Nat)),
      Ring.make { capacity := 2 } {} = .ok new ∧
      Ledger.Along Ledger.Thorough {} (new.history calls) ∧
      (new.after calls).Yields 3 7 ∧ (new.after calls).gating = 2 ∧
      (Ledger.read {} (new.history calls)).content 3 = some 7 ∧
      (new.after calls).peek 4 = none := by
  let calls : List (Call Nat) :=
    [.consumer, .push 5, .push 6, .drain 1 1 1, .drain 0 1 5, .release 1, .claim, .publish 2,
      .drain 2 2 1, .release 2, .push 7]
  obtain ⟨new, hnew, hthorough, hgating, hdrain, hgave⟩ := exists_make { capacity := 2 } {}
    (fun new : Ring Nat => Ledger.Along Ledger.Thorough {} (new.history calls) ∧
      (new.after calls).gating = 2 ∧
      ((new.after calls).answer (.drain 3 3 1)).1 = .drained [(3, some 7)] 1 0 ∧
      Note.gave 4 ∈ notes (Call.claim, ((new.after calls).answer .claim).1)) (by decide +kernel)
  have hyields : (new.after calls).Yields 3 7 := ⟨3, 3, 1, _, 1, 0, hdrain, by simp⟩
  obtain ⟨hempty, _, hown⟩ := (yielded_own hnew calls).2 hthorough
  exact ⟨new, calls, hnew, hthorough, hyields, hgating,
    (hown 3 7 hyields (by omega)).2.2.2, hempty .claim 4 hgave⟩

/-- One slot, and no call breaks off. A sequence given back without having been taken leaves its
item behind: the next claim finds it in its slot, and when that claim is published unwritten the
consumer gets the old item under the new sequence. A sequence that was taken and given back can
still be drained: the consumer then gets the item of a claim that is not yet published. -/
theorem items_of_other_claims :
    ∃ new : Ring Nat, Ring.make { capacity := 1 } {} = .ok new ∧
      new.answers [.consumer, .push 5, .release 0, .claim, .publish 1, .drain 1 1 1] =
        [.ok, .sequence 0, .ok, .claimed 1 (some 5), .published 1 .visible,
          .drained [(1, some 5)] 1 0] ∧
      new.answers [.consumer, .push 5, .drain 0 0 1, .release 0, .claim, .set 1 (some 7),
          .drain 0 0 1] =
        [.ok, .sequence 0, .drained [(0, some 5)] 1 0, .ok, .claimed 1 none, .content (some 7),
          .drained [(0, some 7)] 1 0] := by
  exact exists_make { capacity := 1 } {} _ (by decide +kernel)

end Ring
end MessageRing
