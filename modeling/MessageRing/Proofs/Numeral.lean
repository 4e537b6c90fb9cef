import Mathlib.Data.List.TakeWhile
import Mathlib.Tactic
import MessageRing.Number.Layout
import MessageRing.Number.Numeral

/-!
Numerals are read up to the first character that cannot belong to one.
-/
namespace MessageRing
namespace Numeral

/-- The character may stand in a numeral. -/
def isPart (c : Char) : Bool := c.isDigit || ['.', 'e', 'E', '+', '-'].contains c

/-- Whether a text begins with a minus, and what follows it. -/
def takeMinus : List Char → Bool × List Char
  | '-' :: cs => (true, cs)
  | cs => (false, cs)

/-- The sign that an exponent begins with, and what follows it. -/
def takeSign : List Char → Int × List Char
  | '+' :: cs => (1, cs)
  | '-' :: cs => (-1, cs)
  | cs => (1, cs)

theorem readExponentDigits_eq (cs : List Char) :
    readExponentDigits cs =
      match takeDigits (takeSign cs).2 with
      | ([], _) => none
      | (digits, rest) => some ((takeSign cs).1 * value digits, rest) :=
  rfl

/-- The three parts of a numeral after its sign. -/
def readParts (cs : List Char) :
    Option ((List Char × Option (List Char) × Option Int) × List Char) :=
  (readWhole cs).bind fun (whole, cs) =>
    (readFraction cs).bind fun (fraction, cs) =>
      (readExponent cs).map fun (exponent, cs) => ((whole, fraction, exponent), cs)

/-- The numeral of a sign and the parts after it. -/
def ofParts (negative : Bool) (parts : List Char × Option (List Char) × Option Int) : Numeral :=
  ⟨negative, parts.1, parts.2.1, parts.2.2⟩

theorem read_eq (cs : List Char) :
    read cs = (readParts (takeMinus cs).2).map (Prod.map (ofParts (takeMinus cs).1) id) := by
  have hparts (negative : Bool) (cs : List Char) :
      (readParts cs).map (Prod.map (ofParts negative) id) =
        (do
          let (whole, cs) ← readWhole cs
          let (fraction, cs) ← readFraction cs
          let (exponent, cs) ← readExponent cs
          return ({ negative, whole, fraction, exponent }, cs)) := by
    unfold readParts
    rcases readWhole cs with _ | ⟨whole, cs⟩
    · rfl
    dsimp only [Option.bind_eq_bind, Option.bind_some]
    rcases readFraction cs with _ | ⟨fraction, cs⟩
    · rfl
    dsimp only [Option.bind_some]
    rcases readExponent cs with _ | ⟨exponent, cs⟩ <;> rfl
  rw [hparts]
  rfl

/-- The same result, with more text left over. -/
def followed {ρ : Type} (tail : List Char) (result : ρ × List Char) : ρ × List Char :=
  (result.1, result.2 ++ tail)

theorem ne_of_isPart {c d : Char} (stop : isPart c = false) (part : isPart d = true) : c ≠ d := by
  rintro rfl
  rw [part] at stop
  exact absurd stop (by decide)

section Followed
variable {c : Char} (stop : isPart c = false) (w rest : List Char)
include stop

theorem takeDigits_append :
    takeDigits (w ++ c :: rest) = followed (c :: rest) (takeDigits w) := by
  have hdigit : c.isDigit = false := by
    simp [isPart] at stop
    exact stop.1
  induction w with
  | nil => simp [takeDigits, followed, hdigit]
  | cons d w ih =>
    cases hd : d.isDigit with
    | false => simp [takeDigits, followed, hd]
    | true =>
      simp only [takeDigits, followed, Prod.mk.injEq] at ih
      simp [takeDigits, followed, hd, ih.1, ih.2]

theorem readWhole_append :
    readWhole (w ++ c :: rest) = (readWhole w).map (followed (c :: rest)) := by
  unfold readWhole
  rw [takeDigits_append stop]
  obtain ⟨digits, left⟩ := takeDigits w
  rcases digits with _ | ⟨d, _ | ⟨d', digits⟩⟩
  · rfl
  · simp [followed]
  · by_cases hd : d = '0' <;> simp [followed, hd]

theorem readFraction_append :
    readFraction (w ++ c :: rest) = (readFraction w).map (followed (c :: rest)) := by
  have hpoint : c ≠ '.' := ne_of_isPart stop (by decide)
  cases w with
  | nil => simp [readFraction, followed, hpoint]
  | cons d w =>
    by_cases hd : d = '.'
    · rw [hd, List.cons_append]
      simp only [readFraction]
      rw [takeDigits_append stop]
      obtain ⟨digits, left⟩ := takeDigits w
      cases digits <;> rfl
    · simp [readFraction, followed, hd]

theorem takeSign_append : takeSign (w ++ c :: rest) = followed (c :: rest) (takeSign w) := by
  have hplus : c ≠ '+' := ne_of_isPart stop (by decide)
  have hminus : c ≠ '-' := ne_of_isPart stop (by decide)
  cases w with
  | nil => simp [takeSign, followed, hplus, hminus]
  | cons d w =>
    by_cases hd : d = '+'
    · simp [takeSign, followed, hd]
    · by_cases hd' : d = '-' <;> simp [takeSign, followed, hd, hd']

theorem readExponentDigits_append :
    readExponentDigits (w ++ c :: rest) = (readExponentDigits w).map (followed (c :: rest)) := by
  rw [readExponentDigits_eq, readExponentDigits_eq, takeSign_append stop]
  dsimp only [followed]
  rw [takeDigits_append stop]
  obtain ⟨digits, left⟩ := takeDigits (takeSign w).2
  cases digits <;> rfl

theorem readExponent_append :
    readExponent (w ++ c :: rest) = (readExponent w).map (followed (c :: rest)) := by
  have hlower : c ≠ 'e' := ne_of_isPart stop (by decide)
  have hupper : c ≠ 'E' := ne_of_isPart stop (by decide)
  have hdigits (w : List Char) :
      (readExponentDigits (w ++ c :: rest)).map (fun r => (some r.1, r.2)) =
        ((readExponentDigits w).map fun r => (some r.1, r.2)).map (followed (c :: rest)) := by
    rw [readExponentDigits_append stop, Option.map_map, Option.map_map]
    rfl
  cases w with
  | nil => simp [readExponent, followed, hlower, hupper]
  | cons d w =>
    by_cases hd : d = 'e'
    · rw [hd]
      exact hdigits w
    · by_cases hd' : d = 'E'
      · rw [hd']
        exact hdigits w
      · simp [readExponent, followed, hd, hd']

theorem takeMinus_append : takeMinus (w ++ c :: rest) = followed (c :: rest) (takeMinus w) := by
  have hminus : c ≠ '-' := ne_of_isPart stop (by decide)
  cases w with
  | nil => simp [takeMinus, followed, hminus]
  | cons d w => by_cases hd : d = '-' <;> simp [takeMinus, followed, hd]

theorem readParts_append :
    readParts (w ++ c :: rest) = (readParts w).map (followed (c :: rest)) := by
  unfold readParts
  rw [readWhole_append stop]
  rcases readWhole w with _ | ⟨whole, cs⟩
  · rfl
  dsimp only [Option.map_some, Option.bind_some, followed]
  rw [readFraction_append stop]
  rcases readFraction cs with _ | ⟨fraction, cs⟩
  · rfl
  dsimp only [Option.map_some, Option.bind_some, followed]
  rw [readExponent_append stop]
  rcases readExponent cs with _ | ⟨exponent, cs⟩ <;> rfl

/-- A numeral is read in the same way whatever comes after its end. -/
theorem read_append : read (w ++ c :: rest) = (read w).map (followed (c :: rest)) := by
  rw [read_eq, read_eq, takeMinus_append stop]
  dsimp only [followed]
  rw [readParts_append stop, Option.map_map, Option.map_map]
  rfl

end Followed

/-! What is left after a numeral is the end of the text that it was read from. -/

theorem takeDigits_suffix (cs : List Char) : (takeDigits cs).2 <:+ cs := List.dropWhile_suffix _

theorem takeMinus_suffix (cs : List Char) : (takeMinus cs).2 <:+ cs := by
  unfold takeMinus
  split
  · exact List.suffix_cons _ _
  · exact List.suffix_refl _

theorem takeSign_suffix (cs : List Char) : (takeSign cs).2 <:+ cs := by
  unfold takeSign
  split
  · exact List.suffix_cons _ _
  · exact List.suffix_cons _ _
  · exact List.suffix_refl _

theorem readWhole_suffix {cs whole rest : List Char} (h : readWhole cs = some (whole, rest)) :
    rest <:+ cs := by
  have htaken := takeDigits_suffix cs
  unfold readWhole at h
  split at h
  · cases h
  · cases h
  · rw [Option.some.injEq] at h
    rwa [h] at htaken

theorem readFraction_suffix {cs rest : List Char} {fraction : Option (List Char)}
    (h : readFraction cs = some (fraction, rest)) : rest <:+ cs := by
  unfold readFraction at h
  split at h
  · rename_i cs
    have htaken := takeDigits_suffix cs
    split at h
    · cases h
    · cases h
      exact .trans (by simpa [*] using htaken) (List.suffix_cons _ _)
  · cases h
    exact List.suffix_refl _

theorem readExponentDigits_suffix {cs rest : List Char} {n : Int}
    (h : readExponentDigits cs = some (n, rest)) : rest <:+ cs := by
  have htaken := (takeDigits_suffix (takeSign cs).2).trans (takeSign_suffix cs)
  rw [readExponentDigits_eq] at h
  split at h
  · cases h
  · cases h
    simpa [*] using htaken

theorem readExponent_suffix {cs rest : List Char} {exponent : Option Int}
    (h : readExponent cs = some (exponent, rest)) : rest <:+ cs := by
  unfold readExponent at h
  split at h
  · obtain ⟨⟨n, left⟩, hdigits, he⟩ := Option.map_eq_some_iff.1 h
    cases he
    exact (readExponentDigits_suffix hdigits).trans (List.suffix_cons _ _)
  · obtain ⟨⟨n, left⟩, hdigits, he⟩ := Option.map_eq_some_iff.1 h
    cases he
    exact (readExponentDigits_suffix hdigits).trans (List.suffix_cons _ _)
  · cases h
    exact List.suffix_refl _

theorem read_suffix {cs rest : List Char} {n : Numeral} (h : read cs = some (n, rest)) :
    rest <:+ cs := by
  rw [read_eq] at h
  obtain ⟨⟨parts, left⟩, hparts, he⟩ := Option.map_eq_some_iff.1 h
  cases he
  unfold readParts at hparts
  obtain ⟨⟨whole, cs₁⟩, hwhole, hparts⟩ := Option.bind_eq_some_iff.1 hparts
  obtain ⟨⟨fraction, cs₂⟩, hfraction, hparts⟩ := Option.bind_eq_some_iff.1 hparts
  obtain ⟨⟨exponent, cs₃⟩, hexponent, he⟩ := Option.map_eq_some_iff.1 hparts
  cases he
  exact (readExponent_suffix hexponent).trans <| (readFraction_suffix hfraction).trans <|
    (readWhole_suffix hwhole).trans (takeMinus_suffix cs)

/-! Whole numbers as they are written. -/

theorem takeDigits_toDigits (k : Nat) :
    takeDigits (Nat.toDigits 10 k) = (Nat.toDigits 10 k, []) := by
  have hdigits : ∀ c ∈ Nat.toDigits 10 k, c.isDigit = true := fun c hc =>
    Nat.isDigit_of_mem_toDigits (by decide) (by decide) hc
  unfold takeDigits
  rw [List.takeWhile_eq_self_iff.2 hdigits, List.dropWhile_eq_nil_iff.2 hdigits]

/-- A positive number is written without a zero in front. -/
theorem head?_toDigits {k : Nat} (pos : 0 < k) : (Nat.toDigits 10 k).head? ≠ some '0' := by
  induction k using Nat.strongRecOn with
  | ind k ih =>
    by_cases hlt : k < 10
    · interval_cases k <;> decide
    · have hfront := ih (k / 10) (Nat.div_lt_self pos (by decide))
        (Nat.div_pos (by omega) (by decide))
      rw [Nat.toDigits_of_base_le (by decide) (by omega),
        List.head?_append_of_ne_nil _ Nat.toDigits_ne_nil]
      exact hfront

theorem readWhole_toDigits (k : Nat) :
    readWhole (Nat.toDigits 10 k) = some (Nat.toDigits 10 k, []) := by
  rcases Nat.eq_zero_or_pos k with rfl | pos
  · rfl
  · have hhead := head?_toDigits pos
    unfold readWhole
    rw [takeDigits_toDigits]
    rcases hdigits : Nat.toDigits 10 k with _ | ⟨d, ds⟩
    · exact absurd hdigits Nat.toDigits_ne_nil
    · rw [hdigits] at hhead
      have hd : d ≠ '0' := fun he => hhead (by rw [he]; rfl)
      simp [hd]

theorem readParts_toDigits (k : Nat) :
    readParts (Nat.toDigits 10 k) = some ((Nat.toDigits 10 k, none, none), []) := by
  unfold readParts
  rw [readWhole_toDigits]
  rfl

theorem takeMinus_toDigits (k : Nat) :
    takeMinus (Nat.toDigits 10 k) = (false, Nat.toDigits 10 k) := by
  rcases hdigits : Nat.toDigits 10 k with _ | ⟨d, ds⟩
  · rfl
  · have hmem : d ∈ Nat.toDigits 10 k := by
      rw [hdigits]
      exact List.mem_cons_self
    have hd : d.isDigit = true := Nat.isDigit_of_mem_toDigits (by decide) (by decide) hmem
    have hminus : d ≠ '-' := by
      rintro rfl
      exact absurd hd (by decide)
    simp [takeMinus, hminus]

theorem read_toDigits (k : Nat) :
    read (Nat.toDigits 10 k) = some (⟨false, Nat.toDigits 10 k, none, none⟩, []) := by
  rw [read_eq, takeMinus_toDigits, readParts_toDigits]
  rfl

theorem read_minus_toDigits (k : Nat) :
    read ('-' :: Nat.toDigits 10 k) = some (⟨true, Nat.toDigits 10 k, none, none⟩, []) := by
  have hminus : takeMinus ('-' :: Nat.toDigits 10 k) = (true, Nat.toDigits 10 k) := rfl
  rw [read_eq, hminus, readParts_toDigits]
  rfl

theorem value_toDigits (k : Nat) : value (Nat.toDigits 10 k) = k := by
  have hvalue := Nat.ofDigitChars_ten_toDigits (n := k)
  rw [Nat.ofDigitChars_eq_foldl] at hvalue
  unfold value
  simpa only [Nat.mul_comm] using hvalue

/-- A number of 64 bits is read back as it was written. -/
theorem read_int64 (n : Int64) : ∃ numeral : Numeral,
    read n.toInt.repr.toList = some (numeral, []) ∧ numeral.toInt? = some n.toInt := by
  have hupper := n.toInt_lt
  have hlower := n.le_toInt
  rw [Int.repr_eq_if]
  split_ifs with hsign
  · refine ⟨⟨false, Nat.toDigits 10 n.toInt.toNat, none, none⟩, ?_, ?_⟩
    · rw [Nat.toList_repr, read_toDigits]
    · have hfits : n.toInt.toNat < UInt64.size / 2 := by
        change n.toInt.toNat < 2 ^ 63
        omega
      have hvalue : (n.toInt.toNat : Int) = n.toInt := Int.toNat_of_nonneg hsign
      simp only [toInt?, value_toDigits, Option.isSome_none, Bool.false_eq_true, or_self,
        if_false, if_pos hfits, hvalue]
  · refine ⟨⟨true, Nat.toDigits 10 (-n.toInt).toNat, none, none⟩, ?_, ?_⟩
    · rw [String.toList_append, Nat.toList_repr]
      exact read_minus_toDigits _
    · have hfits : ¬ ((-n.toInt).toNat = 0 ∨ (-n.toInt).toNat > UInt64.size / 2) := by
        change ¬ ((-n.toInt).toNat = 0 ∨ (-n.toInt).toNat > 2 ^ 63)
        omega
      have hvalue : -((-n.toInt).toNat : Int) = n.toInt := by omega
      simp only [toInt?, value_toDigits, Option.isSome_none, Bool.false_eq_true, or_self,
        if_false, if_true, if_neg hfits, hvalue]

/-! Numbers are written in the characters of numerals. -/

theorem isPart_toDigits (k : Nat) : ∀ c ∈ Nat.toDigits 10 k, isPart c = true := by
  intro c hc
  have hdigit : c.isDigit = true := Nat.isDigit_of_mem_toDigits (by decide) (by decide) hc
  rw [isPart, hdigit, Bool.true_or]

theorem isPart_repr (n : Int) : ∀ c ∈ n.repr.toList, isPart c = true := by
  rw [Int.repr_eq_if]
  split_ifs
  · rw [Nat.toList_repr]
    exact isPart_toDigits _
  · rw [String.toList_append, Nat.toList_repr]
    exact List.forall_mem_cons.2 ⟨by decide, isPart_toDigits _⟩

theorem isPart_placePoint {digits : List Char} (h : ∀ c ∈ digits, isPart c = true)
    (pointAlways : Bool) (whole : Int) :
    ∀ c ∈ Layout.placePoint pointAlways digits whole, isPart c = true := by
  have hzero : isPart '0' = true := by decide
  have hpoint : isPart '.' = true := by decide
  have hzeros (n : Nat) : ∀ c ∈ List.replicate n '0', isPart c = true := fun c hc => by
    rwa [List.eq_of_mem_replicate hc]
  have hfront (n m : Nat) : ∀ c ∈ digits.take n ++ List.replicate m '0', isPart c = true :=
    List.forall_mem_append.2 ⟨fun c hc => h c (List.mem_of_mem_take hc), hzeros m⟩
  unfold Layout.placePoint
  split
  · exact List.forall_mem_cons.2 ⟨hzero, List.forall_mem_cons.2 ⟨hpoint,
      List.forall_mem_append.2 ⟨hzeros _, h⟩⟩⟩
  · dsimp only
    split
    · split
      · exact List.forall_mem_append.2 ⟨hfront _ _,
          List.forall_mem_cons.2 ⟨hpoint, List.forall_mem_singleton.2 hzero⟩⟩
      · exact hfront _ _
    · exact List.forall_mem_append.2 ⟨hfront _ _, List.forall_mem_cons.2 ⟨hpoint,
        fun c hc => h c (List.mem_of_mem_drop hc)⟩⟩

theorem isPart_scientific {digits : List Char} (h : ∀ c ∈ digits, isPart c = true)
    (exponent : Int) : ∀ c ∈ Layout.scientific digits exponent, isPart c = true := by
  have hsign : isPart (if exponent < 0 then '-' else '+') = true := by split_ifs <;> decide
  refine List.forall_mem_append.2 ⟨?_, List.forall_mem_cons.2 ⟨by decide,
    List.forall_mem_cons.2 ⟨hsign, isPart_toDigits _⟩⟩⟩
  split
  · rw [List.forall_mem_cons] at h ⊢
    exact ⟨h.1, List.forall_mem_cons.2 ⟨by decide, h.2⟩⟩
  · exact h

theorem isPart_write {layout : Layout} {x : Binary64} (finite : x.isFinite = true) :
    ∀ c ∈ layout.write x, isPart c = true := by
  have hbody : ∀ c ∈ (if layout.positional (x.shortest layout.tie).exponent then
      Layout.placePoint layout.pointAlways (Nat.toDigits 10 (x.shortest layout.tie).digits)
        ((x.shortest layout.tie).power +
          (Nat.toDigits 10 (x.shortest layout.tie).digits).length)
      else Layout.scientific (Nat.toDigits 10 (x.shortest layout.tie).digits)
        (x.shortest layout.tie).exponent), isPart c = true := by
    split_ifs
    · exact isPart_placePoint (isPart_toDigits _) _ _
    · exact isPart_scientific (isPart_toDigits _) _
  unfold Layout.write
  rw [if_neg (by simp [finite])]
  dsimp only
  by_cases hsign : x.negative = true
  · rw [if_pos hsign]
    exact List.forall_mem_cons.2 ⟨by decide, hbody⟩
  · rw [if_neg hsign]
    exact hbody

end Numeral
end MessageRing
