import ComputerNetwork.Lib.OnesComplement
import ComputerNetwork.Tcp.Transport

/-!
# The TCP checksum

`tcp_sum.c`.  The words are added as a little-endian host loads them, in an `int32_t`; a sum that does
not fit, like a failed assertion, leaves no result.  `th_sum` is passed over.  An address is a word in
network order, as `s_addr` holds it, and `packet` is aligned as the code asserts.

`tcpChecksum_spec` says what the checksum is, that the other end accepts a packet that was stamped,
and that it rejects the packet once a word of it has been changed.
-/

namespace ComputerNetwork.Tcp

open Lib

/-! ## The code -/

/-- `sum += x`, for an `int32_t` that is not negative. -/
def addInt32 (sum x : ℕ) : Option ℕ := if sum + x < 2 ^ 31 then some (sum + x) else none

/-- `IPPROTO_TCP`. -/
def ipprotoTcp : UInt8 := 6

/-- The pseudo header, as it stands in memory. -/
def pseudoHeader (srcAddr dstAddr : UInt32) (len : ℕ) : List UInt8 :=
  bytesLE32 srcAddr ++ (bytesLE32 dstAddr ++ ([0, ipprotoTcp] ++ bytesBE16 (UInt16.ofNat len)))

/-- A turn of the loop over the words of the packet. -/
def addWord (packet : List UInt8) (sum k : ℕ) : Option ℕ :=
  -- th_sum == 0 during checksum computation
  if k = 8 then some sum else addInt32 sum (loadLE16 packet (2 * k)).toNat

/-- `_mysock_tcp_checksum` of the `len` bytes at the start of the memory `packet`. -/
def mysockTcpChecksum (srcAddr dstAddr : UInt32) (packet : List UInt8) (len : ℕ) : Option UInt16 := do
  if len < sizeofSTCPHeader ∨ srcAddr = 0 ∨ dstAddr = 0 then none
  let header := pseudoHeader srcAddr dstAddr len
  let sum ← (List.range 6).foldlM (fun sum k => addInt32 sum (loadLE16 header (2 * k)).toNat) 0
  let sum ← (List.range (len / 2)).foldlM (addWord packet) sum
  let sum ← if len % 2 = 1 then addInt32 sum (load8 packet (len - 1)).toNat else some sum
  let sum := sum / 65536 + sum % 65536
  let sum := sum + sum / 65536
  return UInt16.ofNat (2 ^ 32 - 1 - sum)

/-- `_mysock_set_checksum` at the end with these two addresses. -/
def mysockSetChecksum (localAddr peerAddr : UInt32) (packet : List UInt8) : Option (List UInt8) := do
  let sum ← mysockTcpChecksum localAddr peerAddr packet packet.length
  return splice packet 16 (bytesLE16 sum)

/-- `_mysock_verify_checksum`. -/
def mysockVerifyChecksum (localAddr peerAddr : UInt32) (packet : List UInt8) (len : ℕ) : Option Bool := do
  let mySum ← mysockTcpChecksum peerAddr localAddr packet len
  return mySum == loadLE16 packet 16

/-! ## The sum -/

section Sum

variable {packet new : List UInt8} {src dst : UInt32} {i : ℕ}

/-- The packet with `th_sum` taken as zero. -/
def clearSum (packet : List UInt8) : List UInt8 := splice packet 16 [0, 0]

/-- What the checksum adds up. -/
def tcpSum (src dst : UInt32) (packet : List UInt8) : ℕ :=
  wordSumLE (pseudoHeader src dst packet.length) + wordSumLE (clearSum packet)

theorem foldlM_addInt32 {step : ℕ → ℕ → Option ℕ} {f : ℕ → ℕ}
    (adds : ∀ sum k, sum + f k < 2 ^ 31 → step sum k = some (sum + f k)) (l : List ℕ) (sum : ℕ)
    (small : sum + (l.map f).sum < 2 ^ 31) : l.foldlM step sum = some (sum + (l.map f).sum) := by
  induction l generalizing sum with
  | nil => rfl
  | cons k rest ih =>
    rw [List.map_cons, List.sum_cons, ← Nat.add_assoc] at small ⊢
    rw [List.foldlM_cons, adds sum k (by omega)]
    exact ih _ small

theorem length_clearSum (long : 20 ≤ packet.length) : (clearSum packet).length = packet.length :=
  length_splice (by simpa using by omega)

theorem loadLE16_clearSum (long : 20 ≤ packet.length) (k : ℕ) :
    (loadLE16 (clearSum packet) (2 * k)).toNat =
      if k = 8 then 0 else (loadLE16 packet (2 * k)).toNat := by
  have fits : 16 ≤ packet.length := by omega
  rw [toNat_loadLE16, clearSum]
  split_ifs with here
  · subst here
    rw [load8_splice_inside (i := 16) (j := 0) (by simp) fits,
      load8_splice_inside (i := 16) (j := 1) (by simp) fits]
    rfl
  · rw [toNat_loadLE16]
    rcases Nat.lt_or_gt_of_ne here with before | behind
    · rw [load8_splice_before (by omega) fits, load8_splice_before (by omega) fits]
    · rw [load8_splice_behind (by simp; omega) fits, load8_splice_behind (by simp; omega) fits]

theorem length_pseudoHeader (src dst : UInt32) (len : ℕ) : (pseudoHeader src dst len).length = 12 := rfl

theorem wordSumLE_pseudoHeader (src dst : UInt32) (len : ℕ) :
    0 < wordSumLE (pseudoHeader src dst len) := by
  have protocol : ipprotoTcp.toNat = 6 := rfl
  simp only [pseudoHeader, bytesLE32, bytesBE16, List.cons_append, List.nil_append, wordSumLE,
    protocol]
  omega

theorem tcpSum_bounds (src dst : UInt32) (short : packet.length ≤ 1500)
    (long : 20 ≤ packet.length) :
    0 < tcpSum src dst packet ∧ tcpSum src dst packet < 2 ^ 26 := by
  have pos := wordSumLE_pseudoHeader src dst packet.length
  have header := wordSumLE_le (pseudoHeader src dst packet.length)
  have body := wordSumLE_le (clearSum packet)
  rw [length_pseudoHeader] at header
  rw [length_clearSum long] at body
  unfold tcpSum
  omega

/-- The carries are added within two turns. -/
theorem foldSum_eq {sum : ℕ} (pos : 0 < sum) (small : sum < 2 ^ 26) :
    UInt16.ofNat (2 ^ 32 - 1 - (sum / 65536 + sum % 65536 + (sum / 65536 + sum % 65536) / 65536)) =
      UInt16.ofNat (65535 - residue sum) := by
  have carried : residue (sum / 65536 + sum % 65536) = residue sum := by
    by_cases large : 65535 < sum
    · exact residue_carry sum large
    · rw [show sum / 65536 + sum % 65536 = sum by omega]
  obtain ⟨t, once⟩ : ∃ t, t = sum / 65536 + sum % 65536 := ⟨_, rfl⟩
  rw [← carried, ← once]
  have low : t < 2 * 65536 - 1 := by omega
  have twice : residue t = t % 65536 + t / 65536 := by
    by_cases large : 65535 < t
    · rw [← residue_carry t large, residue_small (by omega), Nat.add_comm]
    · rw [residue_small (by omega)]
      omega
  apply UInt16.toNat_inj.1
  rw [UInt16.toNat_ofNat', UInt16.toNat_ofNat', twice]
  omega

/-- The sum fits the `int32_t`, and what is returned is the complement of its residue. -/
theorem mysockTcpChecksum_eq (long : 20 ≤ packet.length) (short : packet.length ≤ 1500)
    (hasSrc : src ≠ 0) (hasDst : dst ≠ 0) :
    mysockTcpChecksum src dst packet packet.length =
      some (UInt16.ofNat (65535 - residue (tcpSum src dst packet))) := by
  obtain ⟨pos, small⟩ := tcpSum_bounds src dst short long
  have fits : ∀ sum x, sum + x < 2 ^ 31 → addInt32 sum x = some (sum + x) := fun _ _ less =>
    if_pos less
  have headerSum := wordSumLE_eq (pseudoHeader src dst packet.length)
  have packetSum := wordSumLE_eq (clearSum packet)
  rw [length_pseudoHeader, if_neg (by decide), Nat.add_zero] at headerSum
  have last : load8 (clearSum packet) (packet.length - 1) = load8 packet (packet.length - 1) :=
    load8_splice_behind (by simpa using by omega) (by omega)
  rw [length_clearSum long, last] at packetSum
  have whole : tcpSum src dst packet = wordSumLE (pseudoHeader src dst packet.length) +
      wordSumLE (clearSum packet) := rfl
  have header := foldlM_addInt32 (fun sum k => fits sum
    (loadLE16 (pseudoHeader src dst packet.length) (2 * k)).toNat) (List.range 6) 0
    (by rw [show 12 / 2 = 6 from rfl] at headerSum; omega)
  have turn : ∀ sum k, sum + (loadLE16 (clearSum packet) (2 * k)).toNat < 2 ^ 31 →
      addWord packet sum k = some (sum + (loadLE16 (clearSum packet) (2 * k)).toNat) := by
    intro sum k less
    rw [loadLE16_clearSum long] at less ⊢
    unfold addWord
    split_ifs at less ⊢ with skipped
    · rfl
    · exact fits _ _ less
  have body := foldlM_addInt32 turn (List.range (packet.length / 2))
    (wordSumLE (pseudoHeader src dst packet.length)) (by omega)
  rw [Nat.zero_add, ← show 12 / 2 = 6 from rfl, ← headerSum] at header
  have valid : ¬ (packet.length < sizeofSTCPHeader ∨ src = 0 ∨ dst = 0) := by
    simp only [sizeofSTCPHeader, hasSrc, hasDst, or_false]
    omega
  have tail : (if packet.length % 2 = 1 then
      addInt32 (wordSumLE (pseudoHeader src dst packet.length) +
        ((List.range (packet.length / 2)).map fun k =>
          (loadLE16 (clearSum packet) (2 * k)).toNat).sum) (load8 packet (packet.length - 1)).toNat
      else some (wordSumLE (pseudoHeader src dst packet.length) +
        ((List.range (packet.length / 2)).map fun k =>
          (loadLE16 (clearSum packet) (2 * k)).toNat).sum)) = some (tcpSum src dst packet) := by
    split_ifs at packetSum ⊢ with odd
    · rw [fits _ _ (by omega), whole, packetSum, Nat.add_assoc]
    · rw [whole, packetSum, Nat.add_zero]
  rw [← foldSum_eq pos small]
  simp only [mysockTcpChecksum, if_neg valid, header, body, Option.bind_eq_bind, Option.bind_some,
    Option.pure_def]
  rw [← Option.bind_some (f := fun sum => some (UInt16.ofNat (2 ^ 32 - 1 -
    (sum / 65536 + sum % 65536 + (sum / 65536 + sum % 65536) / 65536)))) (a := tcpSum src dst packet),
    ← tail]
  split_ifs <;> rfl

theorem tcpSum_eq (src dst : UInt32) (packet : List UInt8) :
    tcpSum src dst packet =
      wordSumLE (pseudoHeader src dst packet.length ++ clearSum packet) :=
  (wordSumLE_append _ _ (by rw [length_pseudoHeader])).symm

/-- A word of `th_sum` as the other end reads it in network order. -/
theorem loadBE16_bytesLE16 (x : UInt16) : (loadBE16 (bytesLE16 x) 0).toNat = swapBytes x.toNat := by
  have high : x.toNat / 256 < 256 := Nat.div_lt_of_lt_mul x.toNat_lt
  simp only [loadBE16, load8, bytesLE16, List.getD_cons_zero, Nat.zero_add, List.getD_cons_succ,
    UInt16.toNat_ofNat', UInt8.toNat_ofNat', swapBytes]
  rw [Nat.mod_eq_of_lt (a := x.toNat / 256) (by omega), Nat.mod_eq_of_lt (by omega)]

theorem clearSum_splice_sum (long : 20 ≤ packet.length) (size : new.length = 2) :
    clearSum (splice packet 16 new) = clearSum packet :=
  splice_splice new size (by omega)

end Sum

/-! ## A word that has been changed -/

/-- Another word at the even place `i` outside `th_sum`; the last word of an odd packet is a byte. -/
structure OtherWord (packet : List UInt8) (i : ℕ) (new : List UInt8) : Prop where
  even : i % 2 = 0
  outside : i ≠ 16
  inside : i + new.length ≤ packet.length
  word : new.length = 2 ∨ new.length = 1 ∧ i + 1 = packet.length
  other : new ≠ (packet.drop i).take new.length
  notOnes : ¬ ((packet.drop i).take new.length = [0, 0] ∧ new = [255, 255])
  notZero : ¬ ((packet.drop i).take new.length = [255, 255] ∧ new = [0, 0])

section Change

variable {packet new : List UInt8} {src dst : UInt32} {i : ℕ}

/-- Two words that are worth the same modulo 65535 are equal, or all zeros and all ones. -/
theorem wordSumLE_word_mod {old : List UInt8} (size : new.length = 1 ∨ new.length = 2)
    (same : old.length = new.length) (worth : wordSumLE old % 65535 = wordSumLE new % 65535) :
    new = old ∨ old = [0, 0] ∧ new = [255, 255] ∨ old = [255, 255] ∧ new = [0, 0] := by
  rcases size with one | two
  · obtain ⟨x, rfl⟩ := List.length_eq_one_iff.1 one
    obtain ⟨y, rfl⟩ := List.length_eq_one_iff.1 (same.trans one)
    have hx := x.toNat_lt
    have hy := y.toNat_lt
    simp only [wordSumLE] at worth
    simp only [List.cons.injEq, ← UInt8.toNat_inj, and_true]
    omega
  · obtain ⟨x, x', rfl⟩ := List.length_eq_two.1 two
    obtain ⟨y, y', rfl⟩ := List.length_eq_two.1 (same.trans two)
    have hx := x.toNat_lt
    have hx' := x'.toNat_lt
    have hy := y.toNat_lt
    have hy' := y'.toNat_lt
    have zero : (0 : UInt8).toNat = 0 := rfl
    have ones : (255 : UInt8).toNat = 255 := rfl
    have words : wordSumLE [x, x'] = wordSumLE [y, y'] ∨
        wordSumLE [y, y'] = 0 ∧ wordSumLE [x, x'] = 65535 ∨
        wordSumLE [y, y'] = 65535 ∧ wordSumLE [x, x'] = 0 := by
      have hm : wordSumLE [x, x'] ≤ 65535 := by simp only [wordSumLE]; omega
      have hn : wordSumLE [y, y'] ≤ 65535 := by simp only [wordSumLE]; omega
      omega
    simp only [wordSumLE] at words
    simp only [List.cons.injEq, ← UInt8.toNat_inj, and_true, zero, ones]
    omega

namespace OtherWord

variable (change : OtherWord packet i new)

include change

theorem length_eq : (splice packet i new).length = packet.length := length_splice change.inside

theorem old_length : ((packet.drop i).take new.length).length = new.length := by
  have inside := change.inside
  rw [List.length_take, List.length_drop]
  omega

theorem loadLE16_sum (long : 20 ≤ packet.length) :
    loadLE16 (splice packet i new) 16 = loadLE16 packet 16 := by
  obtain ⟨even, outside, inside, word, -⟩ := change
  apply UInt16.toNat_inj.1
  rw [toNat_loadLE16, toNat_loadLE16]
  rcases Nat.lt_or_gt_of_ne outside with before | behind
  · rw [load8_splice_behind (by omega) (by omega), load8_splice_behind (by omega) (by omega)]
  · rw [load8_splice_before (by omega) (by omega), load8_splice_before (by omega) (by omega)]

theorem clearSum_eq (long : 20 ≤ packet.length) :
    clearSum (splice packet i new) = splice (clearSum packet) i new := by
  obtain ⟨even, outside, inside, word, -⟩ := change
  have size : ([0, 0] : List UInt8).length = 2 := rfl
  rcases Nat.lt_or_gt_of_ne outside with before | behind
  · exact splice_comm (by omega) (by rw [size]; omega)
  · exact (splice_comm (by rw [size]; omega) inside).symm

/-- The word that was there, in the packet with `th_sum` taken as zero. -/
theorem old_clearSum (long : 20 ≤ packet.length) :
    ((clearSum packet).drop i).take new.length = (packet.drop i).take new.length := by
  obtain ⟨even, outside, inside, word, -⟩ := change
  rcases Nat.lt_or_gt_of_ne outside with before | behind
  · have front : (clearSum packet).take (i + new.length) = packet.take (i + new.length) :=
      take_splice (by omega) (by omega)
    simpa only [List.drop_take, Nat.add_sub_cancel_left] using congrArg (List.drop i) front
  · rw [show (clearSum packet).drop i = packet.drop i from
      drop_splice (by simpa using by omega) (by omega)]

/-- The sum moves, also modulo 65535. -/
theorem residue_tcpSum_ne (src dst : UInt32) (long : 20 ≤ packet.length) :
    residue (tcpSum src dst (splice packet i new)) ≠ residue (tcpSum src dst packet) := by
  have moved := wordSum_splice_of_append wordSumLE_append (clearSum packet) new change.even
    (by rw [length_clearSum long]; exact change.inside)
    (by rw [length_clearSum long]; have := change.word; omega)
  rw [change.old_clearSum long] at moved
  apply residue_ne (x := wordSumLE ((packet.drop i).take new.length)) (y := wordSumLE new)
  · rw [tcpSum, tcpSum, change.length_eq, change.clearSum_eq long]
    omega
  · intro worth
    have size : new.length = 1 ∨ new.length = 2 := by
      have := change.word
      omega
    rcases wordSumLE_word_mod size change.old_length worth with same | ones | zero
    · exact change.other same
    · exact change.notOnes ones
    · exact change.notZero zero

end OtherWord

theorem complement_residue_ne {m n : ℕ} (other : residue m ≠ residue n) :
    UInt16.ofNat (65535 - residue m) ≠ UInt16.ofNat (65535 - residue n) := by
  have small : ∀ k, residue k ≤ 65535 := by
    intro k
    unfold residue
    split_ifs <;> omega
  have hm := small m
  have hn := small n
  rw [Ne, ← UInt16.toNat_inj, UInt16.toNat_ofNat', UInt16.toNat_ofNat', Nat.mod_eq_of_lt (by omega),
    Nat.mod_eq_of_lt (by omega)]
  omega

/-- What the checksum is; a stamped packet is accepted at the other end; an accepted packet with a
word changed is not. -/
theorem tcpChecksum_spec (long : 20 ≤ packet.length) (short : packet.length ≤ 1500)
    (hasSrc : src ≠ 0) (hasDst : dst ≠ 0) :
    (∃ sum, mysockTcpChecksum src dst packet packet.length = some sum ∧
      (loadBE16 (bytesLE16 sum) 0).toNat =
        65535 - residue (wordSum (pseudoHeader src dst packet.length ++ clearSum packet))) ∧
    (∃ stamped, mysockSetChecksum src dst packet = some stamped ∧
      stamped.length = packet.length ∧ clearSum stamped = clearSum packet ∧
      mysockVerifyChecksum dst src stamped stamped.length = some true) ∧
    (mysockVerifyChecksum dst src packet packet.length = some true →
      ∀ i new, OtherWord packet i new →
        mysockVerifyChecksum dst src (splice packet i new) (splice packet i new).length =
          some false) := by
  have sum := mysockTcpChecksum_eq long short hasSrc hasDst
  refine ⟨⟨_, sum, ?_⟩, ?_, ?_⟩
  · obtain ⟨pos, -⟩ := tcpSum_bounds src dst short long
    rw [loadBE16_bytesLE16, UInt16.toNat_ofNat', Nat.mod_eq_of_lt (by omega), tcpSum_eq,
      swapBytes_complement _ (by rw [← tcpSum_eq]; omega)]
  · obtain ⟨x, hx⟩ : ∃ x, x = UInt16.ofNat (65535 - residue (tcpSum src dst packet)) := ⟨_, rfl⟩
    rw [← hx] at sum
    have size : (splice packet 16 (bytesLE16 x)).length = packet.length :=
      length_splice (by rw [length_bytesLE16]; omega)
    have cleared : clearSum (splice packet 16 (bytesLE16 x)) = clearSum packet :=
      clearSum_splice_sum long (length_bytesLE16 x)
    have same : mysockTcpChecksum src dst (splice packet 16 (bytesLE16 x)) packet.length = some x := by
      rw [← size, mysockTcpChecksum_eq (by omega) (by omega) hasSrc hasDst, tcpSum, size, cleared, hx,
        tcpSum]
    refine ⟨splice packet 16 (bytesLE16 x), by simp [mysockSetChecksum, sum], size, cleared, ?_⟩
    have stored : loadLE16 (splice packet 16 (bytesLE16 x)) 16 = x := by
      apply UInt16.toNat_inj.1
      rw [toNat_loadLE16, load8_splice_inside (j := 0) (by simp) (by omega),
        load8_splice_inside (j := 1) (by simp) (by omega), ← toNat_loadLE16 (bytesLE16 x) 0]
      exact congrArg UInt16.toNat (by simpa using loadLE16_bytesLE16 x [])
    simp [mysockVerifyChecksum, size, same, stored]
  · intro accepted i new change
    have sum' : mysockTcpChecksum src dst (splice packet i new) (splice packet i new).length =
        some (UInt16.ofNat (65535 - residue (tcpSum src dst (splice packet i new)))) :=
      mysockTcpChecksum_eq (by rw [change.length_eq]; exact long)
        (by rw [change.length_eq]; exact short) hasSrc hasDst
    have moved := complement_residue_ne (change.residue_tcpSum_ne src dst long)
    simp only [mysockVerifyChecksum, sum, Option.bind_eq_bind, Option.bind_some, Option.pure_def,
      Option.some.injEq, beq_iff_eq] at accepted
    simp only [mysockVerifyChecksum, sum', change.loadLE16_sum long, ← accepted,
      Option.bind_eq_bind, Option.bind_some, Option.pure_def, Option.some.injEq, beq_eq_false_iff_ne]
    exact moved

/-- A packet of 21 bytes, and its last byte changed. -/
theorem tcpChecksum_spec_odd :
    let packet : List UInt8 := splice (List.replicate 21 7) 16 [0xbb, 0xa1]
    mysockTcpChecksum 0x0100007f 0x0200007f packet 21 = some 0xa1bb ∧
      mysockSetChecksum 0x0100007f 0x0200007f packet = some packet ∧
      mysockVerifyChecksum 0x0200007f 0x0100007f packet 21 = some true ∧
      mysockVerifyChecksum 0x0200007f 0x0100007f (splice packet 20 [9]) 21 = some false :=
  ⟨by decide +kernel, by decide +kernel, by decide +kernel,
    (tcpChecksum_spec (by decide) (by decide) (by decide) (by decide)).2.2 (by decide +kernel) 20 [9]
      (by constructor <;> decide)⟩

end Change

end ComputerNetwork.Tcp
