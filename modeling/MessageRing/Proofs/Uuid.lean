import Mathlib.Tactic
import MessageRing.Uuid

/-!
An identifier is read back from the text that is written for it.

The text has hyphens at four places, and the digits around them, zeros in front included, are those
of one number in base sixteen.
-/
namespace MessageRing.Uuid

theorem hexValue?_digitChar {d : Nat} (h : d < 16) : hexValue? d.digitChar = some d := by
  revert d
  decide

/-- The number that digits stand for. -/
def digitsValue? (cs : List Char) : Option Nat :=
  (cs.mapM hexValue?).map fun ds => ds.foldl (16 * · + ·) 0

theorem digitsValue?_concat {cs : List Char} {n d : Nat} (h : digitsValue? cs = some n)
    (hd : d < 16) : digitsValue? (cs ++ [d.digitChar]) = some (16 * n + d) := by
  obtain ⟨ds, hmap, hvalue⟩ := Option.map_eq_some_iff.1 h
  unfold digitsValue?
  rw [List.mapM_append, hmap]
  simp [hexValue?_digitChar hd, hvalue]

theorem digitsValue?_toDigits (n : Nat) : digitsValue? (Nat.toDigits 16 n) = some n := by
  induction n using Nat.strongRecOn with
  | ind n ih =>
    by_cases hlt : n < 16
    · rw [Nat.toDigits_of_lt_base hlt]
      simp [digitsValue?, hexValue?_digitChar hlt]
    · have hfront := ih (n / 16) (Nat.div_lt_self (by omega) (by decide))
      rw [Nat.toDigits_of_base_le (by decide) (by omega),
        digitsValue?_concat hfront (Nat.mod_lt n (by decide)), Nat.div_add_mod]

theorem digitsValue?_zero_cons (cs : List Char) : digitsValue? ('0' :: cs) = digitsValue? cs := by
  have hzero : hexValue? '0' = some 0 := by decide
  unfold digitsValue?
  rw [List.mapM_cons, hzero]
  rcases cs.mapM hexValue? with _ | ds <;> rfl

theorem digitsValue?_zeros (k : Nat) (cs : List Char) :
    digitsValue? (List.replicate k '0' ++ cs) = digitsValue? cs := by
  induction k with
  | zero => rfl
  | succ k ih => rw [List.replicate_succ, List.cons_append, digitsValue?_zero_cons, ih]

theorem length_hexDigits (u : Uuid) : u.hexDigits.length = 32 := by
  have hlt : u.bits.toNat < 16 ^ 32 := u.bits.isLt
  have hle := (Nat.length_toDigits_le_iff (by decide) (by decide)).2 hlt
  unfold hexDigits
  dsimp only
  rw [List.length_append, List.length_replicate]
  omega

theorem ofDigits?_hexDigits (u : Uuid) : ofDigits? u.hexDigits = some u := by
  have hvalue : digitsValue? u.hexDigits = some u.bits.toNat :=
    (digitsValue?_zeros _ _).trans (digitsValue?_toDigits _)
  obtain ⟨ds, hmap, hfold⟩ := Option.map_eq_some_iff.1 hvalue
  unfold ofDigits?
  rw [if_pos u.length_hexDigits, hmap, Option.map_some, hfold]
  simp [ofNat]

theorem toList_eq (u : Uuid) : u.toList =
    u.hexDigits.take 8 ++ '-' :: ((u.hexDigits.drop 8).take 4 ++ '-' ::
      ((u.hexDigits.drop 12).take 4 ++ '-' :: ((u.hexDigits.drop 16).take 4 ++ '-' ::
        (u.hexDigits.drop 20).take 12))) := by
  simp [toList, cut]

theorem length_toList (u : Uuid) : u.toList.length = 36 := by
  simp [toList_eq, length_hexDigits]

/-- The hyphens are where they are looked for, and the digits are what stands between them. -/
theorem ofHyphenated?_pieces {a b c d e : List Char} (ha : a.length = 8) (hb : b.length = 4)
    (hc : c.length = 4) (hd : d.length = 4) (he : e.length = 12) :
    ofHyphenated? (a ++ '-' :: (b ++ '-' :: (c ++ '-' :: (d ++ '-' :: e)))) =
      ofDigits? (a ++ b ++ c ++ d ++ e) := by
  unfold ofHyphenated?
  simp [List.getElem?_append, List.drop_append, List.drop_eq_nil_of_le, ha, hb, hc, hd, he]

theorem ofHyphenated?_toList (u : Uuid) : ofHyphenated? u.toList = ofDigits? u.hexDigits := by
  have hlen := u.length_hexDigits
  have hdigits : u.hexDigits.take 8 ++ (u.hexDigits.drop 8).take 4 ++
      (u.hexDigits.drop 12).take 4 ++ (u.hexDigits.drop 16).take 4 ++
      (u.hexDigits.drop 20).take 12 = u.hexDigits := by
    rw [← List.take_add, ← List.take_add, ← List.take_add, ← List.take_add]
    exact List.take_of_length_le (by omega)
  rw [toList_eq, ofHyphenated?_pieces, hdigits] <;> simp [hlen]

theorem ofString?_toList (u : Uuid) : ofString? (String.ofList u.toList) = some u := by
  unfold ofString? ofList?
  rw [String.toList_ofList, length_toList]
  exact u.ofHyphenated?_toList.trans u.ofDigits?_hexDigits

end MessageRing.Uuid
