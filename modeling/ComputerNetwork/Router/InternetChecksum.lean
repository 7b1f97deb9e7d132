import ComputerNetwork.Lib.Loop
import ComputerNetwork.Router.Checksum

/-!
# The loops of `cksum`

`cksum` of `sr_utils.c` with its 32-bit accumulator and its two loops, and what it returns as the number
that a little-endian host holds.  For at most 131074 bytes the accumulator does not wrap, and what is
stored is the number that the rest of the development takes for the checksum (`cksumReturns_iff`).
-/

namespace ComputerNetwork.Router

open Lib

/-! ## The code -/

/-- The `for` loop: `sum += data[0] << 8 | data[1]`, and the last byte of an odd buffer. -/
def cksumSum (sum : UInt32) : List UInt8 → UInt32
  | a :: b :: rest => cksumSum (sum + (a.toUInt32 <<< 8 ||| b.toUInt32)) rest
  | [a] => sum + a.toUInt32 <<< 8
  | [] => sum

/-- The `while` loop. -/
def cksumFold : Body UInt32 UInt32 := fun sum =>
  if 0xffff < sum then .inl ((sum >>> 16) + (sum &&& 0xffff)) else .inr sum

/-- `htons`, on a little-endian host. -/
def htons (x : UInt16) : UInt16 := loadLE16 (bytesBE16 x) 0

/-- `cksum` of the buffer `data` returns `result`. -/
def CksumReturns (data : List UInt8) (result : UInt16) : Prop :=
  ∃ sum, cksumFold.Ends (cksumSum 0 data) sum ∧
    result = if htons (~~~sum).toUInt16 = 0 then 0xffff else htons (~~~sum).toUInt16

/-! ## The loops -/

theorem toNat_shiftLeft_or (a b : UInt8) :
    (a.toUInt32 <<< 8 ||| b.toUInt32).toNat = 256 * a.toNat + b.toNat := by
  have ha := a.toNat_lt
  have hb := b.toNat_lt
  have shift : a.toNat <<< 8 = 256 * a.toNat := by rw [Nat.shiftLeft_eq, Nat.mul_comm]
  simp only [UInt32.toNat_or, UInt32.toNat_shiftLeft, UInt8.toNat_toUInt32]
  rw [show (8 : UInt32).toNat % 32 = 8 from rfl, Nat.mod_eq_of_lt (by omega),
    ← Nat.shiftLeft_add_eq_or_of_lt (by omega), shift]

/-- The accumulator holds the sum of the words when that fits. -/
theorem toNat_cksumSum (sum : UInt32) {data : List UInt8} (fits : sum.toNat + wordSum data < 2 ^ 32) :
    (cksumSum sum data).toNat = sum.toNat + wordSum data := by
  induction data using wordSum.induct generalizing sum with
  | case1 a b rest ih =>
    rw [wordSum] at fits ⊢
    have next : (sum + (a.toUInt32 <<< 8 ||| b.toUInt32)).toNat =
        sum.toNat + (256 * a.toNat + b.toNat) := by
      rw [UInt32.toNat_add, toNat_shiftLeft_or, Nat.mod_eq_of_lt (by omega)]
    rw [cksumSum, ih _ (by rw [next]; omega), next]
    omega
  | case2 a =>
    have word := toNat_shiftLeft_or a 0
    rw [show (a.toUInt32 <<< 8 ||| (0 : UInt8).toUInt32) = a.toUInt32 <<< 8 from UInt32.or_zero] at word
    rw [wordSum] at fits ⊢
    rw [cksumSum, UInt32.toNat_add, word, Nat.mod_eq_of_lt (by rw [UInt8.toNat_zero]; omega),
      UInt8.toNat_zero, Nat.add_zero]
  | case3 => rfl

theorem toNat_carry (sum : UInt32) :
    ((sum >>> 16) + (sum &&& 0xffff)).toNat = sum.toNat / 65536 + sum.toNat % 65536 := by
  have bound := sum.toNat_lt
  have high : (sum >>> 16).toNat = sum.toNat / 65536 := by
    rw [UInt32.toNat_shiftRight]
    exact Nat.shiftRight_eq_div_pow _ 16
  have low : (sum &&& 0xffff).toNat = sum.toNat % 65536 := by
    rw [UInt32.toNat_and]
    exact Nat.and_two_pow_sub_one_eq_mod _ 16
  rw [UInt32.toNat_add, high, low, Nat.mod_eq_of_lt (by omega)]

/-- The fold ends with the residue of the sum: a turn keeps the residue and makes the sum smaller. -/
theorem cksumFold_ends (sum : UInt32) :
    ∃ folded, cksumFold.Ends sum folded ∧ folded.toNat = residue sum.toNat := by
  have limit : (0xffff : UInt32).toNat = 65535 := rfl
  have turn : ∀ s s', cksumFold s = .inl s' → 65535 < s.toNat ∧
      s'.toNat = s.toNat / 65536 + s.toNat % 65536 := by
    intro s s' next
    unfold cksumFold at next
    split_ifs at next with large
    obtain rfl := Sum.inl.inj next
    rw [UInt32.lt_iff_toNat_lt, limit] at large
    exact ⟨large, toNat_carry s⟩
  obtain ⟨folded, ends⟩ : ∃ folded, cksumFold.Ends sum folded :=
    Body.exists_ends (I := fun _ => True) (fun s => s.toNat) trivial fun s s' _ next =>
      ⟨trivial, by have := turn s s' next; omega⟩
  refine ⟨folded, ends, ends.rule (I := fun s => residue s.toNat = residue sum.toNat)
    (Q := fun r => r.toNat = residue sum.toNat) rfl (fun s s' same next => ?_)
    fun s r same left => ?_⟩
  · obtain ⟨large, eq⟩ := turn s s' next
    rw [eq, residue_carry _ (by omega), same]
  · unfold cksumFold at left
    split_ifs at left with large
    obtain rfl := Sum.inr.inj left
    rw [UInt32.lt_iff_toNat_lt, limit] at large
    rw [← same, residue_small (by omega)]

/-! ## What is returned -/

theorem toNat_htons (x : UInt16) : (htons x).toNat = swapBytes x.toNat := by
  have high : x.toNat / 256 < 256 := Nat.div_lt_of_lt_mul x.toNat_lt
  rw [htons, toNat_loadLE16]
  simp only [load8, bytesBE16, List.getD_cons_zero, Nat.zero_add, List.getD_cons_succ,
    UInt8.toNat_ofNat', swapBytes]
  omega

/-- The bytes that are stored are in network order. -/
theorem bytesLE16_htons (x : UInt16) : bytesLE16 (htons x) = bytesBE16 x := by
  have high : x.toNat / 256 < 256 := Nat.div_lt_of_lt_mul x.toNat_lt
  have first : (256 * (x.toNat % 256) + x.toNat / 256) / 256 = x.toNat % 256 := by
    rw [Nat.mul_add_div (by omega), Nat.div_eq_of_lt high, Nat.add_zero]
  simp only [bytesLE16, bytesBE16, toNat_htons, swapBytes, first, List.cons.injEq, ← UInt8.toNat_inj,
    UInt8.toNat_ofNat', and_true]
  omega

section Cksum

variable {data : List UInt8} {result : UInt16} (short : data.length ≤ 131074)

include short

/-- `cksum` returns one number, whose bytes are those of the checksum in network order. -/
theorem cksumReturns_iff : CksumReturns data result ↔ result = htons (cksum data) := by
  have bound := wordSum_lt short
  have sum : (cksumSum 0 data).toNat = wordSum data := by
    rw [toNat_cksumSum 0 (by simpa using bound), UInt32.toNat_zero, Nat.zero_add]
  obtain ⟨folded, ends, value⟩ := cksumFold_ends (cksumSum 0 data)
  rw [sum] at value
  have small : residue (wordSum data) ≤ 65535 := by
    unfold residue
    split_ifs <;> omega
  have complemented : ((~~~folded).toUInt16).toNat = 65535 - residue (wordSum data) := by
    rw [UInt32.toNat_toUInt16, UInt32.toNat_not, value, UInt32.size]
    omega
  have zero : htons (~~~folded).toUInt16 = 0 ↔ 65535 - residue (wordSum data) = 0 := by
    rw [← UInt16.toNat_inj, toNat_htons, complemented, UInt16.toNat_zero, swapBytes]
    omega
  have returned : (if htons (~~~folded).toUInt16 = 0 then 0xffff else htons (~~~folded).toUInt16) =
      htons (cksum data) := by
    have checksum := toNat_cksum short
    rw [complement] at checksum
    split_ifs with all
    · rw [if_pos (zero.1 all)] at checksum
      rw [show cksum data = 0xffff from UInt16.toNat_inj.1 checksum]
      rfl
    · rw [if_neg (mt zero.2 all), ← complemented] at checksum
      rw [UInt16.toNat_inj.1 checksum]
  constructor
  · rintro ⟨other, ends', rfl⟩
    rw [ends.unique ends'] at returned
    exact returned
  · rintro rfl
    exact ⟨folded, ends, returned.symm⟩

/-- The checksum stored over zeros: the words add up to zero modulo 65535. -/
theorem cksum_store {i : ℕ} (even : i % 2 = 0) (zeros : (data.drop i).take 2 = [0, 0]) :
    cksum (splice data i (bytesBE16 (cksum data))) = 0xffff := by
  have size : i + 2 ≤ data.length := by
    have two := congrArg List.length zeros
    rw [List.length_take, List.length_drop] at two
    simp only [List.length_cons, List.length_nil] at two
    omega
  have length : (splice data i (bytesBE16 (cksum data))).length = data.length := length_splice size
  have moved := wordSum_splice_of_append wordSum_append data (bytesBE16 (cksum data)) even size
    (Or.inl (by rw [length_bytesBE16]))
  have word := wordSum_bytesBE16 (cksum data) []
  rw [List.append_nil, toNat_cksum short] at word
  rw [length_bytesBE16, zeros, word] at moved
  apply UInt16.toNat_inj.1
  rw [toNat_cksum (length ▸ short), complement_residue, if_pos]
  · rfl
  · have cancels := complement_spec (wordSum data)
    simp only [wordSum, UInt8.toNat_zero, Nat.mul_zero, Nat.add_zero] at moved
    rw [moved]
    exact cancels

/-- The accumulator does not wrap, the fold ends, what is returned is the complement of the ones'
complement sum with `0xffff` for zero, and stored over zeros it makes the checksum `0xffff`. -/
theorem cksum_spec :
    (∀ n, (cksumSum 0 (data.take n)).toNat = wordSum (data.take n)) ∧
    ∃ result, CksumReturns data result ∧ (∀ other, CksumReturns data other → other = result) ∧
      (loadBE16 (bytesLE16 result) 0).toNat =
        (if 65535 - residue (wordSum data) = 0 then 0xffff else 65535 - residue (wordSum data)) ∧
      ∀ i, i % 2 = 0 → (data.drop i).take 2 = [0, 0] →
        CksumReturns (splice data i (bytesLE16 result)) 0xffff := by
  refine ⟨fun n => ?_, htons (cksum data), (cksumReturns_iff short).2 rfl,
    fun other => (cksumReturns_iff short).1, ?_, fun i even zeros => ?_⟩
  · have bound : wordSum (data.take n) < 2 ^ 32 :=
      wordSum_lt ((List.length_take_le' n data).trans short)
    rw [toNat_cksumSum 0 (by simpa using bound), UInt32.toNat_zero, Nat.zero_add]
  · have stored := loadBE16_bytesBE16 (cksum data) []
    rw [List.append_nil] at stored
    rw [bytesLE16_htons, stored, toNat_cksum short, complement]
  · have length : (splice data i (bytesBE16 (cksum data))).length ≤ 131074 := by
      have two := congrArg List.length zeros
      rw [List.length_take, List.length_drop] at two
      simp only [List.length_cons, List.length_nil] at two
      rw [length_splice (by rw [length_bytesBE16]; omega)]
      exact short
    rw [bytesLE16_htons, cksumReturns_iff length, cksum_store short even zeros]
    rfl

end Cksum

/-- An odd buffer with room for the checksum at offset 2. -/
theorem cksum_spec_odd :
    (∀ n, (cksumSum 0 (([8, 0, 0, 0, 7] : List UInt8).take n)).toNat =
      wordSum (([8, 0, 0, 0, 7] : List UInt8).take n)) ∧
    ∃ result, CksumReturns [8, 0, 0, 0, 7] result ∧
      CksumReturns (splice [8, 0, 0, 0, 7] 2 (bytesLE16 result)) 0xffff := by
  obtain ⟨sums, result, returns, -, -, stored⟩ :=
    cksum_spec (show ([8, 0, 0, 0, 7] : List UInt8).length ≤ 131074 by decide)
  exact ⟨sums, result, returns, stored 2 rfl rfl⟩

end ComputerNetwork.Router
