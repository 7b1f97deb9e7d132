import ComputerNetwork.Lib.Bytes

/-!
# Ones' complement sums

The sum of a string of bytes taken as 16-bit words (`wordSum`), the addition of carries until the
sum fits a word (`foldCarry`) and the complement of the result (`complement`).  Modulo 65535 a
carry is worth the bit it is added to, so the folded sum is the representative of `wordSum` in
`1 .. 65535` (`foldCarry_eq`), and the complement of a sum cancels it (`complement_spec`).
-/

namespace ComputerNetwork.Lib

/-- The sum of the 16-bit words of a string, the last byte of an odd string taken as a high byte. -/
def wordSum : List UInt8 → ℕ
  | a :: b :: rest => 256 * a.toNat + b.toNat + wordSum rest
  | [a] => 256 * a.toNat
  | [] => 0

theorem wordSum_append (xs ys : List UInt8) (even : xs.length % 2 = 0) :
    wordSum (xs ++ ys) = wordSum xs + wordSum ys := by
  induction xs using wordSum.induct with
  | case1 a b rest ih =>
    simp only [List.length_cons] at even
    rw [List.cons_append, List.cons_append, wordSum, wordSum, ih (by omega)]
    omega
  | case2 a => simp at even
  | case3 => simp [wordSum]

theorem wordSum_le_words (xs : List UInt8) : wordSum xs ≤ 65535 * ((xs.length + 1) / 2) := by
  induction xs using wordSum.induct with
  | case1 a b rest ih =>
    have ha := a.toNat_lt
    have hb := b.toNat_lt
    rw [wordSum, List.length_cons, List.length_cons,
      show (rest.length + 1 + 1 + 1) / 2 = (rest.length + 1) / 2 + 1 by omega]
    omega
  | case2 a =>
    have ha := a.toNat_lt
    rw [wordSum, List.length_singleton]
    omega
  | case3 => simp [wordSum]

/-- The same with the words as a little-endian host loads them. -/
def wordSumLE : List UInt8 → ℕ
  | a :: b :: rest => a.toNat + 256 * b.toNat + wordSumLE rest
  | [a] => a.toNat
  | [] => 0

theorem wordSumLE_append (xs ys : List UInt8) (even : xs.length % 2 = 0) :
    wordSumLE (xs ++ ys) = wordSumLE xs + wordSumLE ys := by
  induction xs using wordSumLE.induct with
  | case1 a b rest ih =>
    simp only [List.length_cons] at even
    rw [List.cons_append, List.cons_append, wordSumLE, wordSumLE, ih (by omega)]
    omega
  | case2 a => simp at even
  | case3 => simp [wordSumLE]

theorem wordSumLE_le (xs : List UInt8) : 2 * wordSumLE xs ≤ 65535 * (xs.length + 1) := by
  induction xs using wordSumLE.induct with
  | case1 a b rest ih =>
    have ha := a.toNat_lt
    have hb := b.toNat_lt
    rw [wordSumLE, List.length_cons, List.length_cons]
    omega
  | case2 a =>
    have ha := a.toNat_lt
    rw [wordSumLE, List.length_singleton]
    omega
  | case3 => simp [wordSumLE]

/-- Modulo 65535 the other byte order is a multiplication by 256. -/
theorem wordSum_mod_eq (xs : List UInt8) : wordSum xs % 65535 = 256 * wordSumLE xs % 65535 := by
  induction xs using wordSum.induct with
  | case1 a b rest ih =>
    rw [wordSum, wordSumLE]
    omega
  | case2 a => rfl
  | case3 => rfl

theorem wordSumLE_eq_zero_iff {xs : List UInt8} : wordSumLE xs = 0 ↔ wordSum xs = 0 := by
  induction xs using wordSum.induct with
  | case1 a b rest ih =>
    rw [wordSum, wordSumLE]
    omega
  | case2 a =>
    rw [wordSum, wordSumLE]
    omega
  | case3 => exact Iff.rfl

/-- The representative of a sum in `1 .. 65535`, and zero for zero. -/
def residue (n : ℕ) : ℕ := if n = 0 then 0 else if n % 65535 = 0 then 65535 else n % 65535

/-- A word with its two bytes exchanged. -/
def swapBytes (n : ℕ) : ℕ := 256 * (n % 256) + n / 256

theorem swapBytes_complement (xs : List UInt8) (pos : wordSumLE xs ≠ 0) :
    swapBytes (65535 - residue (wordSumLE xs)) = 65535 - residue (wordSum xs) := by
  have same := wordSum_mod_eq xs
  have pos' := mt wordSumLE_eq_zero_iff.2 pos
  generalize wordSumLE xs = m at *
  generalize wordSum xs = n at *
  unfold swapBytes residue
  rw [if_neg pos, if_neg pos']
  split_ifs <;> omega

/-- The words by their places, and the byte that is left over. -/
theorem wordSumLE_eq (b : List UInt8) :
    wordSumLE b = ((List.range (b.length / 2)).map fun k => (loadLE16 b (2 * k)).toNat).sum +
      if b.length % 2 = 1 then (load8 b (b.length - 1)).toNat else 0 := by
  induction b using wordSumLE.induct with
  | case1 x y rest ih =>
    have first : (loadLE16 (x :: y :: rest) (2 * 0)).toNat = x.toNat + 256 * y.toNat :=
      toNat_loadLE16 _ _
    have half : (x :: y :: rest).length / 2 = rest.length / 2 + 1 := by
      simp only [List.length_cons]
      omega
    have tail : (if (x :: y :: rest).length % 2 = 1 then
        (load8 (x :: y :: rest) ((x :: y :: rest).length - 1)).toNat else 0) =
          if rest.length % 2 = 1 then (load8 rest (rest.length - 1)).toNat else 0 := by
      simp only [List.length_cons, Nat.add_mod_right, Nat.add_assoc]
      split_ifs with odd
      · obtain ⟨n, size⟩ : ∃ n, rest.length = n + 1 := ⟨rest.length - 1, by omega⟩
        rw [size]
        rfl
      · rfl
    have behind : (List.range (rest.length / 2)).map ((fun k =>
        (loadLE16 (x :: y :: rest) (2 * k)).toNat) ∘ Nat.succ) =
          (List.range (rest.length / 2)).map fun k => (loadLE16 rest (2 * k)).toNat := rfl
    rw [wordSumLE, ih, half, List.range_succ_eq_map, List.map_cons, List.map_map, behind,
      List.sum_cons, first, tail]
    omega
  | case2 x => simp [wordSumLE, load8]
  | case3 => rfl

/-- A sum of words when a piece of the string is overwritten.  The piece starts at an even place, and
no word stands across its end. -/
theorem wordSum_splice_of_append {sum : List UInt8 → ℕ}
    (append : ∀ xs ys, xs.length % 2 = 0 → sum (xs ++ ys) = sum xs + sum ys) (b new : List UInt8)
    {i : ℕ} (even : i % 2 = 0) (inside : i + new.length ≤ b.length)
    (whole : new.length % 2 = 0 ∨ i + new.length = b.length) :
    sum (splice b i new) + sum ((b.drop i).take new.length) = sum b + sum new := by
  have empty : sum [] = 0 := by simpa using append [] [] rfl
  have front : (b.take i).length % 2 = 0 := by rwa [List.length_take_of_le (by omega)]
  have join : ∀ piece, piece.length = new.length →
      sum (b.take i ++ (piece ++ b.drop (i + new.length))) =
        sum (b.take i) + (sum piece + sum (b.drop (i + new.length))) := by
    intro piece same
    rw [append _ _ front]
    rcases whole with word | last
    · rw [append _ _ (by rwa [same])]
    · rw [last, List.drop_length, List.append_nil, empty, Nat.add_zero]
  have old : ((b.drop i).take new.length).length = new.length := by
    rw [List.length_take, List.length_drop]
    omega
  have parts : b = b.take i ++ ((b.drop i).take new.length ++ b.drop (i + new.length)) := by
    rw [← List.drop_drop, List.take_append_drop, List.take_append_drop]
  have before := join _ old
  rw [← parts] at before
  rw [splice, join new rfl, before]
  omega

theorem residue_ne {m n x y : ℕ} (sums : m + x = n + y) (other : x % 65535 ≠ y % 65535) :
    residue m ≠ residue n := by
  unfold residue
  split_ifs <;> omega

/-- Add the carries to the low word, at most `fuel` times. -/
def foldCarry : ℕ → ℕ → ℕ
  | 0, sum => sum
  | fuel + 1, sum => if 65535 < sum then foldCarry fuel (sum / 65536 + sum % 65536) else sum

theorem residue_carry (n : ℕ) (large : 65535 < n) : residue (n / 65536 + n % 65536) = residue n := by
  have same : (n / 65536 + n % 65536) % 65535 = n % 65535 := by
    conv_rhs => rw [← Nat.div_add_mod n 65536]
    omega
  have pos : n / 65536 + n % 65536 ≠ 0 := by omega
  have pos' : n ≠ 0 := by omega
  rw [residue, residue, same, if_neg pos, if_neg pos']

theorem residue_small {n : ℕ} (small : n ≤ 65535) : residue n = n := by
  unfold residue
  split_ifs <;> omega

/-- Two additions of the carries are enough for a 32-bit sum. -/
theorem foldCarry_eq {n : ℕ} (bound : n < 2 ^ 32) : foldCarry 2 n = residue n := by
  unfold foldCarry
  split_ifs with large
  · rw [← residue_carry n large]
    unfold foldCarry
    split_ifs with large'
    · rw [← residue_carry _ large', residue_small (by omega), foldCarry]
    · rw [residue_small (by omega)]
  · rw [residue_small (by omega)]

/-- The complement of a folded sum, never zero. -/
def complement (sum : ℕ) : ℕ := if 65535 - sum = 0 then 65535 else 65535 - sum

theorem complement_pos (sum : ℕ) : 0 < complement sum := by
  unfold complement
  split_ifs <;> omega

theorem complement_le (sum : ℕ) : complement sum ≤ 65535 := by
  unfold complement
  split_ifs <;> omega

/-- The complement is all ones exactly for a sum that is zero modulo 65535. -/
theorem complement_residue (n : ℕ) :
    complement (residue n) = if n % 65535 = 0 then 65535 else 65535 - n % 65535 := by
  have bound := Nat.mod_lt n (by omega : 0 < 65535)
  unfold complement residue
  split_ifs <;> omega

/-- A sum and its complement cancel. -/
theorem complement_spec (n : ℕ) : (n + complement (residue n)) % 65535 = 0 := by
  rw [complement_residue]
  split_ifs <;> omega

theorem complement_eq_iff (n : ℕ) {x : ℕ} (word : x ≤ 65535) :
    complement (residue n) = x ↔
      (n % 65535 = 0 ∧ x = 65535) ∨ (n % 65535 ≠ 0 ∧ (n + x) % 65535 = 0) := by
  rw [complement_residue]
  have bound := Nat.mod_lt n (by omega : 0 < 65535)
  split_ifs with zero
  · omega
  · constructor
    · intro h
      exact Or.inr ⟨zero, by omega⟩
    · rintro (⟨h, -⟩ | ⟨-, h⟩)
      · exact absurd h zero
      · omega

end ComputerNetwork.Lib
