import Mathlib.Data.Int.Range
import MessageRing.Proofs.Ring.Calls

/-!
Sequences in a row.

The slots of a ring are taken in turn: a sequence comes back to a slot only after a whole round. So
sequences that are on their way through a ring together keep out of each other's slots, and a drain,
which goes along a stretch of sequences, finds in each slot what was there when it began, for one
round, and nothing after that.
-/
namespace MessageRing
namespace Ring
variable {α : Type}

/-- Claims that are on their way through a ring at the same time have places of their own. -/
theorem Ordered.index_inj {r : Ring α} (h : r.Ordered) {s t : Int} (later : r.gating < s)
    (claimed : s ≤ r.claimed) (later' : r.gating < t) (claimed' : t ≤ r.claimed) :
    r.index s = r.index t ↔ s = t := by
  have hle := h.claimed_le
  exact r.index_inj_of_lt (by omega) (by omega)

/-- The slot of a sequence. A capacity is accepted exactly if it is a power of two, and is named in
the refusal otherwise. The mask of an accepted one takes the remainder of a sequence, so two
sequences share a slot exactly if the capacity divides their difference: not if they are different
and less than a capacity apart, but always if they are a capacity apart. Sequences that have been
claimed and not been given back, at any time in the life of a ring, are less than a capacity apart
and share no slot. -/
theorem slot_by_remainder (c : Config) :
    (c.validate = .ok () ↔ ∃ k : Nat, c.capacity.toNat = 2 ^ k) ∧
    (c.validate ≠ .ok () → c.validate = .error (.invalidCapacity c.capacity)) ∧
    (c.validate = .ok () →
      (∀ s : Int, 0 ≤ s →
        (UInt64.ofInt s &&& c.mask).toNat = s.toNat % c.capacity.toNat) ∧
      (∀ s t : Int, c.slot s = c.slot t ↔ (c.capacity.toNat : Int) ∣ s - t) ∧
      (∀ s t : Int, s ≠ t → |s - t| < c.capacity.toNat → c.slot s ≠ c.slot t) ∧
      ∀ s : Int, c.slot (s + c.capacity.toNat) = c.slot s) ∧
    ∀ (metrics : Metrics) (new : Ring α) (calls : List (Call α)),
      Ring.make c metrics = .ok new →
      let r := new.after calls
      ∀ s t : Int, s ≠ t → r.gating < s → s ≤ r.claimed → r.gating < t → t ≤ r.claimed →
        r.index s ≠ r.index t := by
  refine ⟨?_, ?_, fun accepted => ?_, ?_⟩
  · rw [Config.validate_eq_ok_iff, Config.valid_iff_isPowerOfTwo]
    rfl
  · intro refused
    exact if_neg fun valid => refused (if_pos valid)
  · have valid := Config.validate_eq_ok_iff.mp accepted
    refine ⟨fun s hs => ?_, fun s t => Config.slot_eq_iff valid, fun s t hne happart => ?_,
      Config.slot_add_capacity valid⟩
    · have hslot : ((c.slot s : Nat) : Int) = s % c.capacity.toNat := Config.slot_eq_emod valid s
      change c.slot s = _
      rw [← Int.natCast_inj, hslot, Int.natCast_emod, Int.toNat_of_nonneg hs]
    · rw [abs_lt] at happart
      exact (Config.slot_inj_of_lt valid (by omega) (by omega)).not.mpr hne
  · intro metrics new calls made r s t hne hs hs' ht ht'
    have hcounted := make_counted made
    have hr : r.Counted := (history_path hcounted calls).counted hcounted
    exact (hr.index_inj hs hs' ht ht').not.mpr hne

/-- Two slots, on their second round: the two claims that are out differ in their slots, while the
later one has the slot of a sequence that has been given back. With one slot the mask is empty. -/
theorem slot_by_remainder_wrapped :
    ∃ r : Ring Nat, Ring.Reachable { capacity := 2 } r ∧ r.held = [2, 3] ∧
      r.index 2 ≠ r.index 3 ∧ r.config.slot 3 = r.config.slot 1 ∧
      (UInt64.ofInt 7 &&& ({ capacity := 1 } : Config).mask).toNat = 7 % 1 := by
  let calls : List (Call Nat) := [.consumer, .push 5, .push 6, .release 1, .claim, .claim]
  obtain ⟨new, hnew, hconfig, hheld, hgating, hclaimed⟩ := exists_make { capacity := 2 } {}
    (fun new : Ring Nat => (new.after calls).config = { capacity := 2 } ∧
      (new.after calls).held = [2, 3] ∧ (new.after calls).gating = 1 ∧
      (new.after calls).claimed = 3) (by decide +kernel)
  obtain ⟨-, -, hslots, hplaces⟩ := slot_by_remainder (α := Nat) { capacity := 2 }
  refine ⟨_, ⟨new, calls, hnew, rfl⟩, hheld, ?_, ?_, ?_⟩
  · exact hplaces {} new calls hnew 2 3 (by decide) (by omega) (by omega) (by omega) (by omega)
  · rw [hconfig]
    exact (hslots (by decide)).2.2.2 1
  · exact ((slot_by_remainder (α := Nat) { capacity := 1 }).2.2.1 (by decide)).1 7 (by decide)

end Ring

section Range

theorem range_of_lt {m n : Int} (h : m < n) : Int.range m n = m :: Int.range (m + 1) n := by
  have hlength : (n - m).toNat = (n - (m + 1)).toNat + 1 := by omega
  unfold Int.range
  rw [hlength, List.range_succ_eq_map, List.map_cons, List.map_map]
  congr 1
  · simp
  · apply List.map_congr_left
    intro k _
    simp only [Function.comp_apply]
    omega

theorem range_of_le {m n : Int} (h : n ≤ m) : Int.range m n = [] := by
  simp [Int.range, h]

theorem length_range (m n : Int) : (Int.range m n).length = (n - m).toNat := by
  simp [Int.range]

end Range

namespace Drain

/-- The sequences of the entries to come. -/
def sequences (d : Drain) : List Int := Int.range d.next (d.available + 1)

/-- The drain after `n` further entries. -/
def skip (d : Drain) (n : Nat) : Drain := { d with next := d.next + n }

theorem length_sequences (d : Drain) : d.sequences.length = (d.available - d.next + 1).toNat := by
  rw [sequences, length_range]
  omega

theorem mem_sequences {d : Drain} {s : Int} :
    s ∈ d.sequences ↔ d.next ≤ s ∧ s ≤ d.available := by
  rw [sequences, Int.mem_range_iff]
  omega

theorem sequences_of_le {d : Drain} (h : d.next ≤ d.available) :
    d.sequences = d.next :: (d.skip 1).sequences :=
  range_of_lt (by omega)

theorem sequences_of_lt {d : Drain} (h : d.available < d.next) : d.sequences = [] :=
  range_of_le (by omega)

theorem length_sequences_skip (d : Drain) (n : Nat) :
    (d.skip n).sequences.length = d.sequences.length - n := by
  simp only [length_sequences, skip]
  omega

/-- The count of what is to come is right unless the drain ends with the last sequence of 64 bits. -/
theorem sizeHint_eq {d : Drain} (first : 0 ≤ d.next) (begins : d.next ≤ Int64.maxValue.toInt)
    (last : -1 ≤ d.available) (ends : d.available < Int64.maxValue.toInt) :
    d.sizeHint = .ok d.sequences.length := by
  have hmin : Int64.minValue.toInt = -2 ^ 63 := rfl
  have hmax : Int64.maxValue.toInt = 2 ^ 63 - 1 := rfl
  rw [hmax] at begins ends
  rw [length_sequences]
  unfold sizeHint
  simp only [sizeHint.fits, decide_eq_true_eq, hmin, hmax]
  rw [if_pos (by omega), if_pos (by omega)]

/-- What is left of a drain can be counted if all of it could. -/
theorem sizeHint_skip {d : Drain} {n : Nat} (hint : d.sizeHint = .ok n) (k : Nat) :
    (d.skip (min k d.sequences.length)).sizeHint = .ok (n - k) := by
  have hmin : Int64.minValue.toInt = -2 ^ 63 := rfl
  have hmax : Int64.maxValue.toInt = 2 ^ 63 - 1 := rfl
  rw [length_sequences]
  unfold sizeHint at hint ⊢
  dsimp only [skip] at hint ⊢
  split_ifs at hint with hdifference hsum
  cases hint
  simp only [sizeHint.fits, decide_eq_true_eq, hmin, hmax] at hdifference hsum ⊢
  rw [if_pos (by omega), if_pos (by omega)]
  congr 1
  omega

end Drain

namespace Ring
variable {α : Type}

/-- The ring when the slots of some sequences have been emptied. -/
def emptied (r : Ring α) (ss : List Int) : Ring α := ss.foldl (fun r s => r.put s none) r

/-- What a drain is to hand out: for one round what the slots hold, and then nothing. -/
def entries (r : Ring α) (d : Drain) : List (Int × Option α) :=
  d.sequences.map fun s => (s, if s < d.next + r.capacity then r.peek s else none)

theorem emptied_slots (r : Ring α) (ss : List Int) :
    ∃ slots : Vector (Option α) r.config.capacity.toNat, r.emptied ss = { r with slots } ∧
      ∀ i : Fin r.config.capacity.toNat,
        slots[i] = if i ∈ ss.map r.index then none else r.slots[i] := by
  induction ss using List.reverseRecOn with
  | nil => exact ⟨r.slots, rfl, fun i => rfl⟩
  | append_singleton ss s ih =>
    obtain ⟨slots, hslots, hget⟩ := ih
    refine ⟨slots.set (r.index s) none (r.index s).isLt, ?_, fun i => ?_⟩
    · rw [emptied, List.foldl_append]
      exact congrArg (fun r : Ring α => r.put s none) hslots
    · rw [Fin.getElem_fin, Vector.getElem_set, ← Fin.getElem_fin slots i, hget]
      by_cases hi : r.index s = i
      · simp [hi]
      · have hne : (r.index s : Nat) ≠ i := fun he => hi (Fin.ext he)
        simp [hne, Ne.symm hi]

/-- Sequences less than a round away from all that were emptied find their slots as they were. -/
theorem peek_emptied_of_ne (r : Ring α) {ss : List Int} {t : Int}
    (apart : ∀ s ∈ ss, s ≠ t ∧ s < t + r.capacity ∧ t < s + r.capacity) :
    (r.emptied ss).peek t = r.peek t := by
  induction ss generalizing r with
  | nil => rfl
  | cons s ss ih =>
    obtain ⟨⟨hne, hst, hts⟩, hrest⟩ := List.forall_mem_cons.mp apart
    exact (ih (r.put s none) hrest).trans (peek_put_of_ne r none hne hst hts)

theorem entries_of_le (r : Ring α) {d : Drain} (h : d.next ≤ d.available) :
    r.entries d = (d.next, r.peek d.next) :: (r.put d.next none).entries (d.skip 1) := by
  have hpos := r.capacity_pos
  unfold entries
  rw [Drain.sequences_of_le h, List.map_cons, if_pos (by omega)]
  congr 1
  apply List.map_congr_left
  intro s hs
  have hlater := (Drain.mem_sequences.mp hs).1
  change d.next + 1 ≤ s at hlater
  have hround : (d.skip 1).next + (r.put d.next none).capacity = d.next + r.capacity + 1 := by
    change d.next + 1 + (r.capacity : Int) = _
    ring
  rw [hround]
  -- one round later the drain comes to the slot that it has emptied first
  rcases lt_trichotomy s (d.next + r.capacity) with hs | rfl | hs
  · rw [if_pos hs, if_pos (by omega), peek_put_of_ne r none (by omega) (by omega) (by omega)]
  · rw [if_neg (by omega), if_pos (by omega)]
    exact congrArg (Prod.mk _) ((peek_add_capacity (r.put d.next none) d.next).trans
      (peek_put_self r d.next none)).symm
  · rw [if_neg (by omega), if_neg (by omega)]

theorem drainMany_of_le (limit : Nat) (r : Ring α) {d : Drain} (h : d.next ≤ d.available) :
    drainMany (limit + 1) r d =
      ((d.next, r.peek d.next) :: (drainMany limit (r.put d.next none) (d.skip 1)).1,
        (drainMany limit (r.put d.next none) (d.skip 1)).2) := by
  rw [drainMany, drainNext_of_le r h]
  rfl

theorem drainMany_of_lt (limit : Nat) (r : Ring α) {d : Drain} (h : d.available < d.next) :
    drainMany limit r d = ([], d, r) := by
  cases limit with
  | zero => rfl
  | succ limit => rw [drainMany, drainNext_of_lt r h]

/-- All that some steps of a drain do. -/
theorem drainMany_eq (limit : Nat) (r : Ring α) (d : Drain) :
    drainMany limit r d =
      ((r.entries d).take limit, d.skip (min limit d.sequences.length),
        r.emptied (d.sequences.take limit)) := by
  induction limit generalizing r d with
  | zero => simp [drainMany, emptied, Drain.skip]
  | succ limit ih =>
    by_cases hd : d.next ≤ d.available
    · have hsequences := Drain.sequences_of_le hd
      have hskip : (d.skip 1).skip (min limit (d.skip 1).sequences.length) =
          d.skip (min (limit + 1) d.sequences.length) := by
        rw [hsequences, List.length_cons, Nat.add_min_add_right]
        simp only [Drain.skip]
        congr 1
        push_cast
        ring
      rw [drainMany_of_le limit r hd, ih, hskip, entries_of_le r hd, hsequences]
      rfl
    · rw [drainMany_of_lt _ r (by omega), entries, Drain.sequences_of_lt (by omega)]
      simp [emptied, Drain.skip]

/-- A drain can be broken off and taken up again. -/
theorem drainMany_add (m n : Nat) (r : Ring α) (d : Drain) :
    drainMany (m + n) r d =
      ((drainMany m r d).1 ++ (drainMany n (drainMany m r d).2.2 (drainMany m r d).2.1).1,
        (drainMany n (drainMany m r d).2.2 (drainMany m r d).2.1).2) := by
  induction m generalizing r d with
  | zero =>
    rw [Nat.zero_add]
    rfl
  | succ m ih =>
    by_cases hd : d.next ≤ d.available
    · rw [Nat.add_right_comm, drainMany_of_le _ r hd, drainMany_of_le _ r hd, ih]
      rfl
    · have hover : d.available < d.next := not_le.mp hd
      rw [drainMany_of_lt _ r hover, drainMany_of_lt _ r hover]
      dsimp only
      rw [drainMany_of_lt _ r hover, List.nil_append]

/-- A drain that is shorter than the ring is long hands out what the slots held before it. -/
theorem drainMany_whole {limit : Nat} (r : Ring α) {d : Drain}
    (enough : d.available < d.next + limit) (short : d.available < d.next + r.capacity) :
    (drainMany limit r d).1 = d.sequences.map fun s => (s, r.peek s) := by
  rw [drainMany_eq]
  have hall : (r.entries d).length ≤ limit := by
    rw [entries, List.length_map, Drain.length_sequences]
    omega
  rw [List.take_of_length_le hall]
  apply List.map_congr_left
  intro s hs
  have hlast := (Drain.mem_sequences.mp hs).2
  rw [if_pos (by omega)]

theorem drainNext_eq_none_iff {r : Ring α} {d : Drain} :
    r.drainNext d = none ↔ d.sequences.length = 0 := by
  rw [Drain.length_sequences]
  unfold drainNext
  split_ifs with h
  · simp; omega
  · simp; omega

theorem drain_eq {r : Ring α} {next available : Int} {limit before after : Nat}
    (visible : available ≤ r.cursor) (begins : Drain.sizeHint ⟨next, available⟩ = .ok before)
    (ends : (drainMany limit r ⟨next, available⟩).2.1.sizeHint = .ok after) :
    r.drain next available limit =
      (.drained (drainMany limit r ⟨next, available⟩).1 before after,
        (drainMany limit r ⟨next, available⟩).2.2) := by
  have hdrain : r.drainUpTo next available = .ok ⟨next, available⟩ := if_neg (by omega)
  unfold drain
  rw [hdrain]
  dsimp only [bind, Except.bind, pure, Except.pure]
  rw [begins]
  dsimp only
  rw [ends]

/-- A drain is exact. It hands out one entry for each sequence from `next` to `available`, in order,
with what its slot held when the drain began, or empty if the drain has come to that slot before.
After `j` steps it has handed out the first `j` entries, or all, and has emptied their slots and
changed nothing else; there is no further entry exactly if it has handed out all. A drain that
begins where this one stands hands out what this one would have handed out next. Sequences around
the drained ones find their slots as they were. The number of entries to come is told before each
step, and the drain stays within 64 bits, unless `available` is the very last sequence; a ring that
has come so far has been called `2 ^ 63` times. -/
theorem drain_exact (r : Ring α) {next available : Int} (visible : available ≤ r.cursor) :
    let n := (available - next + 1).toNat
    let d : Drain := ⟨next, available⟩
    r.drainUpTo next available = .ok d ∧
    (∀ j : Nat, ∃ slots : Vector (Option α) r.config.capacity.toNat,
      let ss := (Int.range next (available + 1)).take j
      let d' : Drain := ⟨next + (min j n : Nat), available⟩
      let r' : Ring α := { r with slots }
      ss.length = min j n ∧
      drainMany j r d =
        (ss.map fun s => (s, if s < next + r.capacity then r.peek s else none), d', r') ∧
      (∀ later : Ring α, later.drainNext d' = none ↔ n ≤ j) ∧
      (j ≤ n → r'.drainUpTo (next + j) available = .ok d' ∧
        ∀ limit, drainMany limit r' d' =
          ((drainMany (j + limit) r d).1.drop j, (drainMany (j + limit) r d).2)) ∧
      (∀ i : Fin r.config.capacity.toNat,
        slots[i] = if i ∈ ss.map r.index then none else r.slots[i]) ∧
      (∀ t, t < next ∨ available < t → available < t + r.capacity → t < next + r.capacity →
        r'.peek t = r.peek t) ∧
      (0 ≤ next → next ≤ Int64.maxValue.toInt →
        -1 ≤ available → available < Int64.maxValue.toInt →
          d'.next ≤ Int64.maxValue.toInt ∧ d'.sizeHint = .ok (n - j) ∧
          r.drain next available j = (.drained (drainMany j r d).1 n (n - j), r'))) ∧
    ∀ (metrics : Metrics) (new : Ring α) (calls : List (Call α)),
      Ring.make r.config metrics = .ok new → r = new.after calls → available < calls.length := by
  intro n d
  have hn : d.sequences.length = n := d.length_sequences
  refine ⟨if_neg (not_lt.mpr visible), fun j => ?_, ?_⟩
  · obtain ⟨slots, hslots, hget⟩ := r.emptied_slots (d.sequences.take j)
    refine ⟨slots, ?_⟩
    intro ss d' r'
    have hd' : d' = d.skip (min j d.sequences.length) := by
      rw [hn]
      rfl
    have hlength : ss.length = min j n := by
      rw [← hn]
      exact List.length_take
    have hmany : drainMany j r d =
        (ss.map fun s => (s, if s < next + r.capacity then r.peek s else none), d', r') := by
      rw [drainMany_eq, ← hd', entries, ← List.map_take, hslots]
      rfl
    have hrest : d'.sequences.length = n - j := by
      rw [hd', Drain.length_sequences_skip, hn]
      omega
    refine ⟨hlength, hmany, fun later => ?_, fun hj => ⟨?_, fun limit => ?_⟩,
      hget, fun t hout hlow hhigh => ?_, fun first begins last ends => ?_⟩
    · rw [drainNext_eq_none_iff, hrest]
      omega
    · have hstands : d' = ⟨next + j, available⟩ := by simp only [d', min_eq_left hj]
      rw [hstands]
      exact if_neg (not_lt.mpr visible)
    · have hentries : (drainMany j r d).1.length = j := by
        rw [hmany, List.length_map, hlength, min_eq_left hj]
      rw [drainMany_add, List.drop_left' hentries, hmany]
    · have hring : r' = r.emptied ss := hslots.symm
      rw [hring]
      apply r.peek_emptied_of_ne
      intro s hs
      have hbounds : next ≤ s ∧ s < available + 1 :=
        Int.mem_range_iff.mp (List.mem_of_mem_take hs)
      omega
    · have hhint : d.sizeHint = .ok n := hn ▸ Drain.sizeHint_eq first begins last ends
      have hhint' : d'.sizeHint = .ok (n - j) := hd' ▸ Drain.sizeHint_skip hhint j
      have hcall : r.drain next available j =
          (.drained (drainMany j r d).1 n (n - j), (drainMany j r d).2.2) :=
        drain_eq visible hhint (by rw [hmany]; exact hhint')
      refine ⟨?_, hhint', by rw [hcall, hmany]⟩
      simp only [d', n]
      omega
  · rintro metrics new calls made rfl
    exact visible.trans_lt (cursor_after_lt made calls)

/-- A drain over more sequences than the ring has slots, begun when the consumer has given back what
it never took, is broken off after its first entry and taken up again. The item that was overwritten
does not come, and the last entry is empty since its slot was that of the first. -/
theorem drain_exact_resumed :
    ∃ (r : Ring Nat) (slots : Vector (Option Nat) r.config.capacity.toNat),
      Ring.Reachable { capacity := 2 } r ∧ r.cursor = 2 ∧
      drainMany 1 r ⟨0, 2⟩ = ([(0, some 7)], ⟨1, 2⟩, { r with slots }) ∧
      Drain.sizeHint ⟨1, 2⟩ = .ok 2 ∧
      (drainMany 9 { r with slots } ⟨1, 2⟩).1 = [(1, some 6), (2, none)] := by
  let calls : List (Call Nat) := [.consumer, .push 5, .push 6, .release 0, .push 7]
  obtain ⟨new, hnew, hcursor, hentry, hrest⟩ := exists_make { capacity := 2 } {}
    (fun new : Ring Nat => (new.after calls).cursor = 2 ∧
      (drainMany 1 (new.after calls) ⟨0, 2⟩).1 = [(0, some 7)] ∧
      (drainMany 10 (new.after calls) ⟨0, 2⟩).1 = [(0, some 7), (1, some 6), (2, none)])
    (by decide +kernel)
  have hr : Ring.Reachable { capacity := 2 } (new.after calls) := ⟨new, calls, hnew, rfl⟩
  obtain ⟨slots, -, hmany, -, hresume, -, -, hhint⟩ :=
    (@drain_exact Nat (new.after calls) 0 2 hcursor.ge).2.1 1
  -- the drain stands at its second sequence
  have hstands : (⟨0 + (min 1 (2 - 0 + 1 : Int).toNat : Nat), 2⟩ : Drain) = ⟨1, 2⟩ := rfl
  rw [hstands] at hmany hresume hhint
  have hfirst : drainMany 1 (new.after calls) ⟨0, 2⟩ =
      ([(0, some 7)], ⟨1, 2⟩, { new.after calls with slots }) := by
    have hstate := congrArg Prod.snd hmany
    exact Prod.ext hentry hstate
  have hcount := (hhint (by decide) (by decide) (by decide) (by decide)).2.1
  refine ⟨_, slots, hr, hcursor, hfirst, hcount, ?_⟩
  rw [congrArg Prod.fst ((hresume (by decide)).2 9), hrest]
  rfl

end Ring
end MessageRing
