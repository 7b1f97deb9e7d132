import ComputerNetwork.Lib.BlockHash
import ComputerNetwork.Lib.Bytes

/-!
# The message digest

`sha1.c`, with which the router answers the authentication request of the virtual network.  A
`SHA1Context` collects the message in a block of 64 bytes, which keeps what the block before it held
behind the index, and counts the bits in two words; the stores to the block are checked here.  The
masks with `0xFFFFFFFF` are left out, since `unsigned` has 32 bits.

`sha1` is the digest as the standard defines it, of the padded message as a whole.  `sha1Calls_eq` says
that the functions compute it for a message that comes in any pieces, and what they do after the digest
has been computed or the message has become too long; `digest_collision` says what two messages
with one digest lead to.
-/

namespace ComputerNetwork.Router

open Lib

/-! ## The code -/

/-- Five words: `Message_Digest`, and the word buffers `A` to `E`. -/
structure Words where
  a : UInt32
  b : UInt32
  c : UInt32
  d : UInt32
  e : UInt32
  deriving DecidableEq

/-- `SHA1Context`. -/
structure Sha1Context where
  messageDigest : Words
  lengthLow : UInt32
  lengthHigh : UInt32
  messageBlock : List UInt8
  messageBlockIndex : ℕ
  computed : Bool
  corrupted : Bool
  size : messageBlock.length = 64

/-- `SHA1CircularShift`. -/
def sha1CircularShift (bits word : UInt32) : UInt32 := (word <<< bits) ||| (word >>> (32 - bits))

/-- The digest that `SHA1Reset` starts with. -/
def initialDigest : Words := ⟨0x67452301, 0xEFCDAB89, 0x98BADCFE, 0x10325476, 0xC3D2E1F0⟩

/-- `SHA1Reset`, which leaves the block as it is. -/
def sha1Reset (context : Sha1Context) : Sha1Context where
  messageDigest := initialDigest
  lengthLow := 0
  lengthHigh := 0
  messageBlock := context.messageBlock
  messageBlockIndex := 0
  computed := false
  corrupted := false
  size := context.size

/-- `W[t]` from four bytes of the block. -/
def blockWord (block : List UInt8) (t : ℕ) : UInt32 :=
  ((load8 block (t * 4)).toUInt32 <<< 24) ||| ((load8 block (t * 4 + 1)).toUInt32 <<< 16) |||
    ((load8 block (t * 4 + 2)).toUInt32 <<< 8) ||| (load8 block (t * 4 + 3)).toUInt32

/-- `W[t]` from the words before it. -/
def nextWord (w : List UInt32) (t : ℕ) : UInt32 :=
  sha1CircularShift 1
    (w.getD (t - 3) 0 ^^^ w.getD (t - 8) 0 ^^^ w.getD (t - 14) 0 ^^^ w.getD (t - 16) 0)

/-- The array `W`. -/
def messageWords (block : List UInt8) : List UInt32 :=
  (List.range' 16 64).foldl (fun w t => w ++ [nextWord w t]) ((List.range 16).map (blockWord block))

/-- One turn of the loops over `t`, which differ in the function and the constant. -/
def sha1Round (f : UInt32 → UInt32 → UInt32 → UInt32) (k : UInt32) (w : List UInt32) (s : Words)
    (t : ℕ) : Words :=
  let temp := sha1CircularShift 5 s.a + f s.b s.c s.d + s.e + w.getD t 0 + k
  ⟨temp, s.a, sha1CircularShift 30 s.b, s.c, s.d⟩

def choose (b c d : UInt32) : UInt32 := (b &&& c) ||| (~~~b &&& d)
def parity (b c d : UInt32) : UInt32 := b ^^^ c ^^^ d
def majority (b c d : UInt32) : UInt32 := (b &&& c) ||| (b &&& d) ||| (c &&& d)

/-- The digest that `SHA1ProcessMessageBlock` stores. -/
@[irreducible] def processBlock (h : Words) (block : List UInt8) : Words :=
  let w := messageWords block
  let s := (List.range' 0 20).foldl (sha1Round choose 0x5A827999 w) h
  let s := (List.range' 20 20).foldl (sha1Round parity 0x6ED9EBA1 w) s
  let s := (List.range' 40 20).foldl (sha1Round majority 0x8F1BBCDC w) s
  let s := (List.range' 60 20).foldl (sha1Round parity 0xCA62C1D6 w) s
  ⟨h.a + s.a, h.b + s.b, h.c + s.c, h.d + s.d, h.e + s.e⟩

/-- `SHA1ProcessMessageBlock`. -/
@[irreducible] def sha1ProcessMessageBlock (context : Sha1Context) : Sha1Context :=
  { context with
    messageDigest := processBlock context.messageDigest context.messageBlock
    messageBlockIndex := 0 }

/-- `Message_Block[Message_Block_Index++] = x`; no result outside of the block. -/
def storeByte (context : Sha1Context) (x : UInt8) : Option Sha1Context :=
  if context.messageBlockIndex < 64 then
    some { context with
      messageBlock := context.messageBlock.set context.messageBlockIndex x
      messageBlockIndex := context.messageBlockIndex + 1
      size := by rw [List.length_set]; exact context.size }
  else none

/-- The bits of one more byte. -/
def countByte (context : Sha1Context) : Sha1Context :=
  let context := { context with lengthLow := context.lengthLow + 8 }
  if context.lengthLow = 0 then
    let context := { context with lengthHigh := context.lengthHigh + 1 }
    -- the message is too long
    if context.lengthHigh = 0 then { context with corrupted := true } else context
  else context

/-- The loop of `SHA1Input`. -/
def sha1InputLoop : List UInt8 → Sha1Context → Option Sha1Context
  | [], context => some context
  | x :: rest, context =>
    if context.corrupted then some context
    else do
      let context := countByte (← storeByte context x)
      sha1InputLoop rest
        (if context.messageBlockIndex = 64 then sha1ProcessMessageBlock context else context)

/-- `SHA1Input`. -/
def sha1Input (context : Sha1Context) (messageArray : List UInt8) : Option Sha1Context :=
  if messageArray.length = 0 then some context
  else if context.computed || context.corrupted then some { context with corrupted := true }
  else sha1InputLoop messageArray context

/-- The loop that fills the block with zeros up to the index `n`. -/
def zerosTo (n : ℕ) (context : Sha1Context) : Option Sha1Context :=
  (List.replicate (n - context.messageBlockIndex) 0).foldlM storeByte context

/-- The length in the last eight bytes of the block. -/
def storeLength (context : Sha1Context) : Sha1Context :=
  { context with
    messageBlock := context.messageBlock.take 56 ++
      (bytesBE32 context.lengthHigh ++ bytesBE32 context.lengthLow)
    size := by
      rw [List.length_append, List.length_append, List.length_take, context.size]
      rfl }

/-- `SHA1PadMessage`. -/
def sha1PadMessage (context : Sha1Context) : Option Sha1Context := do
  let context ←
    if 55 < context.messageBlockIndex then do
      let context ← storeByte context 0x80
      let context ← zerosTo 64 context
      zerosTo 56 (sha1ProcessMessageBlock context)
    else do
      let context ← storeByte context 0x80
      zerosTo 56 context
  return sha1ProcessMessageBlock (storeLength context)

/-- `SHA1Result`: the context it leaves and whether it returns 1. -/
def sha1Result (context : Sha1Context) : Option (Sha1Context × Bool) :=
  if context.corrupted then some (context, false)
  else if context.computed then some (context, true)
  else do
    let context ← sha1PadMessage context
    return ({ context with computed := true }, true)

/-! ## The standard -/

/-- The circular left shift. -/
def rotl (n : ℕ) (x : UInt32) : UInt32 := ⟨x.toBitVec.rotateLeft n⟩

/-- The words `W_t` of a block. -/
def schedule (block : List UInt8) (t : ℕ) : UInt32 :=
  if t < 16 then loadBE32 block (4 * t)
  else rotl 1 (schedule block (t - 3) ^^^ schedule block (t - 8) ^^^ schedule block (t - 14) ^^^
    schedule block (t - 16))

/-- The function `f_t`. -/
def logical (t : ℕ) : UInt32 → UInt32 → UInt32 → UInt32 :=
  if t < 20 then choose else if t < 40 then parity else if t < 60 then majority else parity

/-- The constant `K_t`. -/
def roundConstant (t : ℕ) : UInt32 :=
  if t < 20 then 0x5A827999 else if t < 40 then 0x6ED9EBA1
  else if t < 60 then 0x8F1BBCDC else 0xCA62C1D6

/-- The step `t`. -/
def round (w : ℕ → UInt32) (s : Words) (t : ℕ) : Words :=
  ⟨rotl 5 s.a + logical t s.b s.c s.d + s.e + w t + roundConstant t, s.a, rotl 30 s.b, s.c, s.d⟩

/-- The compression function. -/
@[irreducible] def compress (h : Words) (block : List UInt8) : Words :=
  let s := (List.range' 0 80).foldl (round (schedule block)) h
  ⟨h.a + s.a, h.b + s.b, h.c + s.c, h.d + s.d, h.e + s.e⟩

/-- The number of zeros between the one bit and the length. -/
def paddingZeros (length : ℕ) : ℕ := (119 - length % 64) % 64

/-- A message of fewer than 2 ^ 64 bits with its padding. -/
def padded (m : List UInt8) : List UInt8 :=
  m ++ (0x80 :: List.replicate (paddingZeros m.length) 0 ++
    (bytesBE32 (UInt32.ofNat (8 * m.length / 2 ^ 32)) ++ bytesBE32 (UInt32.ofNat (8 * m.length))))

/-- The digest of a message. -/
def sha1 (m : List UInt8) : Words := compressAll compress 64 initialDigest (padded m)

/-! ## The compression function -/

theorem sha1CircularShift_eq {n : ℕ} (small : n = 1 ∨ n = 5 ∨ n = 30) (x : UInt32) :
    sha1CircularShift (UInt32.ofNat n) x = rotl n x := by
  apply UInt32.toBitVec_inj.1
  rcases small with rfl | rfl | rfl
  · exact (BitVec.rotateLeft_def (x := x.toBitVec) (r := 1)).symm
  · exact (BitVec.rotateLeft_def (x := x.toBitVec) (r := 5)).symm
  · exact (BitVec.rotateLeft_def (x := x.toBitVec) (r := 30)).symm

theorem shiftLeft_or {k : ℕ} (x : UInt8) (y : ℕ) (low : y < 2 ^ k) :
    (x.toNat <<< k) ||| y = 2 ^ k * x.toNat + y := by
  rw [Nat.shiftLeft_eq, Nat.mul_comm, Nat.two_pow_add_eq_or_of_lt low]

theorem blockWord_eq (block : List UInt8) (t : ℕ) : blockWord block t = loadBE32 block (4 * t) := by
  rw [blockWord, loadBE32, Nat.mul_comm 4 t]
  generalize load8 block (t * 4) = x
  generalize load8 block (t * 4 + 1) = y
  generalize load8 block (t * 4 + 2) = z
  generalize load8 block (t * 4 + 3) = w
  have hx := x.toNat_lt
  have hy := y.toNat_lt
  have hz := z.toNat_lt
  have hw := w.toNat_lt
  apply UInt32.toNat_inj.1
  have inner : (z.toNat <<< 8) ||| w.toNat = 2 ^ 8 * z.toNat + w.toNat := shiftLeft_or z _ hw
  have middle : (y.toNat <<< 16) ||| ((z.toNat <<< 8) ||| w.toNat) =
      2 ^ 16 * y.toNat + (2 ^ 8 * z.toNat + w.toNat) := by
    rw [inner]
    exact shiftLeft_or y _ (by omega)
  have outer : (x.toNat <<< 24) ||| ((y.toNat <<< 16) ||| ((z.toNat <<< 8) ||| w.toNat)) =
      2 ^ 24 * x.toNat + (2 ^ 16 * y.toNat + (2 ^ 8 * z.toNat + w.toNat)) := by
    rw [middle]
    exact shiftLeft_or x _ (by omega)
  -- no byte is shifted out of the word
  have fits : ∀ (v : UInt8) (k : ℕ), k ≤ 24 → (v.toNat <<< k) % 2 ^ 32 = v.toNat <<< k := by
    intro v k small
    have hv := v.toNat_lt
    rw [Nat.shiftLeft_eq]
    refine Nat.mod_eq_of_lt ?_
    calc v.toNat * 2 ^ k ≤ 255 * 2 ^ 24 :=
          Nat.mul_le_mul (by omega) (Nat.pow_le_pow_right (by omega) small)
      _ < 2 ^ 32 := by norm_num
  simp only [UInt32.toNat_or, UInt32.toNat_shiftLeft, UInt8.toNat_toUInt32, UInt32.toNat_ofNat',
    UInt32.toNat_ofNat]
  rw [fits x 24 le_rfl, fits y 16 (by omega), fits z 8 (by omega), Nat.or_assoc, Nat.or_assoc, outer]
  omega

/-- The array `W` after `n` turns of the second loop. -/
theorem messageWords_prefix (block : List UInt8) (n : ℕ) :
    (List.range' 16 n).foldl (fun w t => w ++ [nextWord w t]) ((List.range 16).map (blockWord block)) =
      (List.range (16 + n)).map (schedule block) := by
  induction n with
  | zero =>
    refine List.map_congr_left fun t mem => ?_
    rw [blockWord_eq, schedule, if_pos (List.mem_range.1 mem)]
  | succ n ih =>
    have get : ∀ t < 16 + n, ((List.range (16 + n)).map (schedule block)).getD t 0 =
        schedule block t := by
      intro t inside
      simp [List.getD_eq_getElem?_getD, inside]
    rw [List.range'_concat, List.foldl_append, ih, List.foldl_cons, List.foldl_nil, Nat.one_mul,
      ← Nat.add_assoc, List.range_succ, List.map_append, List.map_singleton]
    congr 2
    rw [nextWord, get _ (by omega), get _ (by omega), get _ (by omega), get _ (by omega),
      schedule.eq_1 block (16 + n), if_neg (by omega)]
    exact sha1CircularShift_eq (.inl rfl) _

theorem getD_messageWords (block : List UInt8) {t : ℕ} (inside : t < 80) :
    (messageWords block).getD t 0 = schedule block t := by
  rw [messageWords, messageWords_prefix]
  simp [List.getD_eq_getElem?_getD, inside]

/-- One loop is twenty steps of the standard. -/
theorem foldl_sha1Round {f : UInt32 → UInt32 → UInt32 → UInt32} {k : UInt32} {block : List UInt8}
    {first : ℕ} (inside : first + 20 ≤ 80)
    (same : ∀ t, first ≤ t → t < first + 20 → logical t = f ∧ roundConstant t = k) (s : Words) :
    (List.range' first 20).foldl (sha1Round f k (messageWords block)) s =
      (List.range' first 20).foldl (round (schedule block)) s := by
  refine List.foldl_ext _ _ _ fun s t mem => ?_
  obtain ⟨after, before⟩ := List.mem_range'_1.1 mem
  obtain ⟨sameF, sameK⟩ := same t after before
  have five : sha1CircularShift 5 s.a = rotl 5 s.a := sha1CircularShift_eq (.inr (.inl rfl)) _
  have thirty : sha1CircularShift 30 s.b = rotl 30 s.b := sha1CircularShift_eq (.inr (.inr rfl)) _
  rw [sha1Round, round, sameF, sameK, getD_messageWords block (by omega), five, thirty]

/-- `SHA1ProcessMessageBlock` is the compression function of the standard. -/
theorem processBlock_eq (h : Words) (block : List UInt8) : processBlock h block = compress h block := by
  have turns : List.range' 0 80 =
      List.range' 0 20 ++ (List.range' 20 20 ++ (List.range' 40 20 ++ List.range' 60 20)) := by decide
  have first := @foldl_sha1Round choose 0x5A827999 block 0 (by omega) fun t _ below => by
    simp [logical, roundConstant, show t < 20 by omega]
  have second := @foldl_sha1Round parity 0x6ED9EBA1 block 20 (by omega) fun t above below => by
    simp [logical, roundConstant, show ¬ t < 20 by omega, show t < 40 by omega]
  have third := @foldl_sha1Round majority 0x8F1BBCDC block 40 (by omega) fun t above below => by
    simp [logical, roundConstant, show ¬ t < 20 by omega, show ¬ t < 40 by omega,
      show t < 60 by omega]
  have fourth := @foldl_sha1Round parity 0xCA62C1D6 block 60 (by omega) fun t above below => by
    simp [logical, roundConstant, show ¬ t < 20 by omega, show ¬ t < 40 by omega,
      show ¬ t < 60 by omega]
  unfold processBlock compress
  simp only [turns, List.foldl_append, first, second, third, fourth]

/-! ## The context -/

/-- The block holds `buf` in front of its index. -/
structure Buffered (buf : List UInt8) (context : Sha1Context) : Prop where
  index : context.messageBlockIndex = buf.length
  block : context.messageBlock.take buf.length = buf

/-- Nothing but the block has changed. -/
structure SameButBlock (context context' : Sha1Context) : Prop where
  digest : context'.messageDigest = context.messageDigest
  low : context'.lengthLow = context.lengthLow
  high : context'.lengthHigh = context.lengthHigh
  computed : context'.computed = context.computed
  corrupted : context'.corrupted = context.corrupted

/-- The digest, the buffered bytes and the counter are those of the message `m`. -/
structure Absorbed (m : List UInt8) (context : Sha1Context) : Prop where
  digest : context.messageDigest = compressAll compress 64 initialDigest m
  holds : Buffered (remainder 64 m) context
  bits : 2 ^ 32 * context.lengthHigh.toNat + context.lengthLow.toNat = 8 * m.length
  computed : context.computed = false
  corrupted : context.corrupted = false

section Context

variable {context context' : Sha1Context} {buf m : List UInt8} {x : UInt8}

theorem SameButBlock.trans {context'' : Sha1Context} (same : SameButBlock context context')
    (same' : SameButBlock context' context'') : SameButBlock context context'' where
  digest := same'.digest.trans same.digest
  low := same'.low.trans same.low
  high := same'.high.trans same.high
  computed := same'.computed.trans same.computed
  corrupted := same'.corrupted.trans same.corrupted

theorem Buffered.length_le (holds : Buffered buf context) : buf.length ≤ 64 := by
  have size := congrArg List.length holds.block
  rw [List.length_take, context.size] at size
  omega

theorem Buffered.eq_block (holds : Buffered buf context) (full : buf.length = 64) :
    context.messageBlock = buf := by
  rw [← holds.block, full, List.take_of_length_le context.size.le]

theorem storeByte_spec (holds : Buffered buf context) (room : buf.length < 64) (x : UInt8) :
    ∃ context', storeByte context x = some context' ∧ Buffered (buf ++ [x]) context' ∧
      SameButBlock context context' := by
  refine ⟨_, if_pos (by rw [holds.index]; exact room), ⟨?_, ?_⟩, ⟨rfl, rfl, rfl, rfl, rfl⟩⟩
  · show context.messageBlockIndex + 1 = (buf ++ [x]).length
    rw [holds.index, List.length_append, List.length_singleton]
  · show (context.messageBlock.set context.messageBlockIndex x).take (buf ++ [x]).length = buf ++ [x]
    have inside : buf.length < context.messageBlock.length := by rw [context.size]; exact room
    rw [List.length_append, List.length_singleton, holds.index, List.take_add_one,
      List.getElem?_set_self inside, List.take_set_of_le le_rfl, holds.block]
    rfl

theorem storeAll_spec (data : List UInt8) (holds : Buffered buf context)
    (room : buf.length + data.length ≤ 64) :
    ∃ context', data.foldlM storeByte context = some context' ∧ Buffered (buf ++ data) context' ∧
      SameButBlock context context' := by
  induction data generalizing buf context with
  | nil => exact ⟨context, rfl, by rwa [List.append_nil], ⟨rfl, rfl, rfl, rfl, rfl⟩⟩
  | cons x rest ih =>
    rw [List.length_cons] at room
    obtain ⟨context₁, stored, holds₁, same₁⟩ := storeByte_spec holds (by omega) x
    obtain ⟨context₂, all, holds₂, same₂⟩ := ih holds₁ (by
      rw [List.length_append, List.length_singleton]
      omega)
    refine ⟨context₂, ?_, ?_, same₁.trans same₂⟩
    · rw [List.foldlM_cons, stored]
      exact all
    · rwa [List.append_assoc, List.singleton_append] at holds₂

theorem zerosTo_spec {n : ℕ} (holds : Buffered buf context) (above : buf.length ≤ n) (small : n ≤ 64) :
    ∃ context', zerosTo n context = some context' ∧
      Buffered (buf ++ List.replicate (n - buf.length) 0) context' ∧ SameButBlock context context' := by
  rw [zerosTo, holds.index]
  exact storeAll_spec _ holds (by rw [List.length_replicate]; omega)

theorem countByte_spec {n : ℕ}
    (bits : 2 ^ 32 * context.lengthHigh.toNat + context.lengthLow.toNat = 8 * n) :
    (countByte context).messageDigest = context.messageDigest ∧
      (countByte context).messageBlock = context.messageBlock ∧
      (countByte context).messageBlockIndex = context.messageBlockIndex ∧
      (countByte context).computed = context.computed ∧
      (n + 1 < 2 ^ 61 → (countByte context).corrupted = context.corrupted ∧
        2 ^ 32 * (countByte context).lengthHigh.toNat + (countByte context).lengthLow.toNat =
          8 * (n + 1)) ∧
      (2 ^ 61 ≤ n + 1 → (countByte context).corrupted = true) := by
  have low := context.lengthLow.toNat_lt
  have high := context.lengthHigh.toNat_lt
  have sum : (context.lengthLow + 8).toNat = (context.lengthLow.toNat + 8) % 2 ^ 32 := by
    rw [UInt32.toNat_add]
    rfl
  have carry : (context.lengthHigh + 1).toNat = (context.lengthHigh.toNat + 1) % 2 ^ 32 := by
    rw [UInt32.toNat_add]
    rfl
  have zero : ∀ w : UInt32, w = 0 ↔ w.toNat = 0 := fun w => by
    rw [← UInt32.toNat_inj]
    rfl
  unfold countByte
  dsimp only
  simp only [zero, sum, carry]
  split_ifs with wraps spills
  · refine ⟨rfl, rfl, rfl, rfl, fun short => ?_, fun _ => rfl⟩
    omega
  · refine ⟨rfl, rfl, rfl, rfl, fun short => ⟨rfl, ?_⟩, fun long => ?_⟩
    · simp only [sum, carry]
      omega
    · omega
  · refine ⟨rfl, rfl, rfl, rfl, fun short => ⟨rfl, ?_⟩, fun long => ?_⟩
    · simp only [sum]
      omega
    · omega

theorem sha1ProcessMessageBlock_spec (context : Sha1Context) :
    (sha1ProcessMessageBlock context).messageDigest =
        compress context.messageDigest context.messageBlock ∧
      (sha1ProcessMessageBlock context).messageBlockIndex = 0 ∧
      (sha1ProcessMessageBlock context).lengthLow = context.lengthLow ∧
      (sha1ProcessMessageBlock context).lengthHigh = context.lengthHigh ∧
      (sha1ProcessMessageBlock context).computed = context.computed ∧
      (sha1ProcessMessageBlock context).corrupted = context.corrupted := by
  unfold sha1ProcessMessageBlock
  exact ⟨processBlock_eq .., rfl, rfl, rfl, rfl, rfl⟩

theorem absorbed_reset (context : Sha1Context) : Absorbed [] (sha1Reset context) where
  digest := by rw [compressAll_of_lt (by norm_num), sha1Reset]
  holds := ⟨by rw [sha1Reset]; rfl, rfl⟩
  bits := by rw [sha1Reset]; rfl
  computed := by rw [sha1Reset]
  corrupted := by rw [sha1Reset]

theorem inputByte_spec (absorbed : Absorbed m context) (x : UInt8) :
    ∃ context', (storeByte context x).map countByte = some context' ∧
      (m.length + 1 < 2 ^ 61 → Absorbed (m ++ [x])
        (if context'.messageBlockIndex = 64 then sha1ProcessMessageBlock context' else context')) ∧
      (2 ^ 61 ≤ m.length + 1 → context'.corrupted = true) := by
  have pending : (remainder 64 m).length < 64 := by
    rw [length_remainder]
    exact Nat.mod_lt _ (by norm_num)
  obtain ⟨stored, store, holds, same⟩ := storeByte_spec absorbed.holds pending x
  have bits : 2 ^ 32 * stored.lengthHigh.toNat + stored.lengthLow.toNat = 8 * m.length := by
    rw [same.high, same.low]
    exact absorbed.bits
  obtain ⟨digest, block, index, computed, counted, long⟩ := countByte_spec bits
  refine ⟨countByte stored, by rw [store, Option.map_some], fun short => ?_, long⟩
  obtain ⟨corrupted, bits'⟩ := counted short
  have size : (m ++ [x]).length = m.length + 1 := List.length_append
  have computed' : (countByte stored).computed = false :=
    computed.trans (same.computed.trans absorbed.computed)
  have corrupted' : (countByte stored).corrupted = false :=
    corrupted.trans (same.corrupted.trans absorbed.corrupted)
  have place := index.trans holds.index
  rw [List.length_append, List.length_singleton] at place
  by_cases full : (remainder 64 m).length + 1 = 64
  · obtain ⟨chained, empty⟩ := snoc_of_eq (f := compress) (h := initialDigest) (x := x) full
    obtain ⟨digest₁, index₁, low₁, high₁, computed₁, corrupted₁⟩ :=
      sha1ProcessMessageBlock_spec (countByte stored)
    rw [if_pos (place.trans full)]
    refine ⟨?_, ?_, ?_, computed₁.trans computed', corrupted₁.trans corrupted'⟩
    · have whole : stored.messageBlock = remainder 64 m ++ [x] :=
        holds.eq_block (List.length_append.trans full)
      rw [digest₁, digest, block, whole, same.digest, absorbed.digest, chained]
    · rw [empty]
      exact ⟨index₁, rfl⟩
    · rw [low₁, high₁, size]
      exact bits'
  · obtain ⟨chained, grown⟩ := @snoc_of_lt _ _ compress 64 m x initialDigest (by omega)
    rw [if_neg (by rw [place]; exact full)]
    refine ⟨?_, ?_, by rw [size]; exact bits', computed', corrupted'⟩
    · rw [digest, same.digest, absorbed.digest, chained]
    · rw [grown]
      exact ⟨index.trans holds.index, by rw [block]; exact holds.block⟩

theorem sha1InputLoop_spec (data : List UInt8) (absorbed : Absorbed m context) :
    ∃ context', sha1InputLoop data context = some context' ∧
      (m.length + data.length < 2 ^ 61 → Absorbed (m ++ data) context') ∧
      (2 ^ 61 ≤ m.length + data.length → data ≠ [] → context'.corrupted = true) := by
  induction data generalizing m context with
  | nil => exact ⟨context, rfl, fun _ => by rwa [List.append_nil], fun _ none => absurd rfl none⟩
  | cons x rest ih =>
    obtain ⟨counted, turn, next, long⟩ := inputByte_spec absorbed x
    obtain ⟨stored, store, rfl⟩ := Option.map_eq_some_iff.1 turn
    have body : sha1InputLoop (x :: rest) context = sha1InputLoop rest
        (if (countByte stored).messageBlockIndex = 64 then sha1ProcessMessageBlock (countByte stored)
          else countByte stored) := by
      rw [sha1InputLoop, absorbed.corrupted, store]
      rfl
    rw [body, List.length_cons]
    by_cases short : m.length + 1 < 2 ^ 61
    · obtain ⟨context', all, done, spoilt⟩ := ih (next short)
      rw [List.length_append, List.length_singleton] at done spoilt
      refine ⟨context', all, fun fits => ?_, fun beyond _ => ?_⟩
      · rw [← List.singleton_append, ← List.append_assoc]
        exact done (by omega)
      · refine spoilt (by omega) ?_
        rintro rfl
        rw [List.length_nil] at beyond
        omega
    · -- the loop is left in front of the next byte
      have spoilt : ∀ c : Sha1Context, c.corrupted = true → sha1InputLoop rest c = some c := by
        intro c corrupted
        cases rest with
        | nil => rfl
        | cons y rest => rw [sha1InputLoop, if_pos corrupted]
      have corrupted := long (by omega)
      refine ⟨_, spoilt _ ?_, fun fits => by omega, fun _ _ => ?_⟩
      all_goals
        split_ifs
        · exact (sha1ProcessMessageBlock_spec _).2.2.2.2.2.trans corrupted
        · exact corrupted

/-! ## Padding -/

theorem length_padded (m : List UInt8) : (padded m).length = 64 * ((m.length + 72) / 64) := by
  simp only [padded, List.length_append, List.length_cons, List.length_replicate, length_bytesBE32,
    paddingZeros]
  omega

theorem lengthBytes_eq {low high : UInt32} {n : ℕ} (bits : 2 ^ 32 * high.toNat + low.toNat = n) :
    bytesBE32 high ++ bytesBE32 low =
      bytesBE32 (UInt32.ofNat (n / 2 ^ 32)) ++ bytesBE32 (UInt32.ofNat n) := by
  have lowBound := low.toNat_lt
  have highBound := high.toNat_lt
  have highEq : UInt32.ofNat (n / 2 ^ 32) = high := by
    apply UInt32.toNat_inj.1
    rw [UInt32.toNat_ofNat']
    omega
  have lowEq : UInt32.ofNat n = low := by
    apply UInt32.toNat_inj.1
    rw [UInt32.toNat_ofNat']
    omega
  rw [highEq, lowEq]

theorem processLength_spec (holds : Buffered buf context) (size : buf.length = 56) :
    (sha1ProcessMessageBlock (storeLength context)).messageDigest =
      compress context.messageDigest
        (buf ++ (bytesBE32 context.lengthHigh ++ bytesBE32 context.lengthLow)) := by
  have front : context.messageBlock.take 56 = buf := by
    rw [← size]
    exact holds.block
  have block : (storeLength context).messageBlock =
      buf ++ (bytesBE32 context.lengthHigh ++ bytesBE32 context.lengthLow) := by rw [← front]; rfl
  rw [(sha1ProcessMessageBlock_spec _).1, block]
  rfl

/-- The padding leads to the digest of the message. -/
theorem sha1PadMessage_spec (absorbed : Absorbed m context) :
    ∃ context', sha1PadMessage context = some context' ∧ context'.messageDigest = sha1 m ∧
      context'.corrupted = false := by
  have pending : (remainder 64 m).length = m.length % 64 := length_remainder
  have below : m.length % 64 < 64 := Nat.mod_lt _ (by norm_num)
  have length := lengthBytes_eq absorbed.bits
  have digest : sha1 m = compressAll compress 64 context.messageDigest
      (remainder 64 m ++ (0x80 :: List.replicate (paddingZeros m.length) 0 ++
        (bytesBE32 context.lengthHigh ++ bytesBE32 context.lengthLow))) := by
    rw [sha1, padded, compressAll_append_remainder (by norm_num), ← absorbed.digest, length]
  obtain ⟨marked, mark, holds, same⟩ := storeByte_spec absorbed.holds (by omega) 0x80
  have size : (remainder 64 m ++ [(0x80 : UInt8)]).length = m.length % 64 + 1 := by
    rw [List.length_append, List.length_singleton, pending]
  by_cases late : 55 < context.messageBlockIndex
  · -- the length goes to a block of its own
    rw [absorbed.holds.index, pending] at late
    obtain ⟨filled, fill, holds₁, same₁⟩ := zerosTo_spec (n := 64) holds (by omega) le_rfl
    rw [size] at holds₁
    have full : (remainder 64 m ++ [(0x80 : UInt8)] ++
        List.replicate (64 - (m.length % 64 + 1)) 0).length = 64 := by
      rw [List.length_append, size, List.length_replicate]
      omega
    obtain ⟨digest₁, index₁, low₁, high₁, -, corrupted₁⟩ := sha1ProcessMessageBlock_spec filled
    have empty : Buffered [] (sha1ProcessMessageBlock filled) := ⟨index₁, rfl⟩
    obtain ⟨zeroed, zero, holds₂, same₂⟩ := zerosTo_spec (n := 56) empty (by norm_num) (by norm_num)
    have zeros : paddingZeros m.length = (64 - (m.length % 64 + 1)) + 56 := by
      rw [paddingZeros]
      omega
    have parts : remainder 64 m ++ (0x80 :: List.replicate (paddingZeros m.length) 0 ++
        (bytesBE32 context.lengthHigh ++ bytesBE32 context.lengthLow)) =
        (remainder 64 m ++ [(0x80 : UInt8)] ++ List.replicate (64 - (m.length % 64 + 1)) 0) ++
          (List.replicate 56 0 ++ (bytesBE32 context.lengthHigh ++ bytesBE32 context.lengthLow)) := by
      rw [zeros, List.replicate_add]
      simp only [List.append_assoc, List.cons_append, List.nil_append]
    refine ⟨sha1ProcessMessageBlock (storeLength zeroed), ?_, ?_, ?_⟩
    · rw [sha1PadMessage, if_pos (by rw [absorbed.holds.index, pending]; exact late), mark]
      simp only [bind, Option.bind, fill, zero, pure]
    · have high : zeroed.lengthHigh = context.lengthHigh := by
        rw [same₂.high, high₁, same₁.high, same.high]
      have low : zeroed.lengthLow = context.lengthLow := by
        rw [same₂.low, low₁, same₁.low, same.low]
      rw [processLength_spec holds₂ (by simp), same₂.digest, digest₁, same₁.digest, same.digest,
        holds₁.eq_block full, high, low, digest, parts, compressAll_append (by norm_num) ⟨1, full⟩,
        compressAll_block (by norm_num) full, compressAll_block (by norm_num) (by simp)]
      rfl
    · rw [(sha1ProcessMessageBlock_spec _).2.2.2.2.2]
      exact same₂.corrupted.trans (corrupted₁.trans
        (same₁.corrupted.trans (same.corrupted.trans absorbed.corrupted)))
  · rw [absorbed.holds.index, pending] at late
    obtain ⟨filled, fill, holds₁, same₁⟩ := zerosTo_spec (n := 56) holds (by omega) (by norm_num)
    rw [size] at holds₁
    have zeros : paddingZeros m.length = 56 - (m.length % 64 + 1) := by
      rw [paddingZeros]
      omega
    have full : (remainder 64 m ++ [(0x80 : UInt8)] ++
        List.replicate (56 - (m.length % 64 + 1)) 0).length = 56 := by
      rw [List.length_append, size, List.length_replicate]
      omega
    refine ⟨sha1ProcessMessageBlock (storeLength filled), ?_, ?_, ?_⟩
    · rw [sha1PadMessage, if_neg (by rw [absorbed.holds.index, pending]; exact late), mark]
      simp only [bind, Option.bind, fill, pure]
    · have parts : remainder 64 m ++ (0x80 :: List.replicate (paddingZeros m.length) 0 ++
          (bytesBE32 context.lengthHigh ++ bytesBE32 context.lengthLow)) =
          (remainder 64 m ++ [(0x80 : UInt8)] ++ List.replicate (56 - (m.length % 64 + 1)) 0) ++
            (bytesBE32 context.lengthHigh ++ bytesBE32 context.lengthLow) := by
        rw [zeros]
        simp only [List.append_assoc, List.cons_append, List.nil_append]
      have high : filled.lengthHigh = context.lengthHigh := same₁.high.trans same.high
      have low : filled.lengthLow = context.lengthLow := same₁.low.trans same.low
      rw [processLength_spec holds₁ full, same₁.digest, same.digest, high, low, digest, parts,
        compressAll_block (by norm_num) (by rw [List.length_append, full]; rfl)]
    · rw [(sha1ProcessMessageBlock_spec _).2.2.2.2.2]
      exact same₁.corrupted.trans (same.corrupted.trans absorbed.corrupted)

end Context

/-! ## The functions called in any order -/

/-- A call of `SHA1Reset`, `SHA1Input` or `SHA1Result`. -/
inductive Sha1Call
  | reset
  | input (messageArray : List UInt8)
  | result

/-- The context that a call leaves, and the digest of a call of `SHA1Result` that returns 1. -/
def sha1Call (context : Sha1Context) : Sha1Call → Option (Sha1Context × List (Option Words))
  | .reset => some (sha1Reset context, [])
  | .input messageArray => (sha1Input context messageArray).map fun context => (context, [])
  | .result => (sha1Result context).map fun (context, one) =>
      (context, [if one then some context.messageDigest else none])

/-- What calls one after the other give. -/
def sha1Calls : List Sha1Call → Sha1Context → Option (List (Option Words))
  | [], _ => some []
  | call :: calls, context => do
    let (context, given) ← sha1Call context call
    return given ++ (← sha1Calls calls context)

/-- What the calls since the last `SHA1Reset` have come to. -/
inductive Hashing
  | absorbing (m : List UInt8)
  | finished (m : List UInt8)
  | spoilt

namespace Hashing

/-- More bytes: a message may neither reach 2 ^ 61 bytes nor go on after its digest. -/
def input (data : List UInt8) : Hashing → Hashing
  | absorbing m => if m.length + data.length < 2 ^ 61 then absorbing (m ++ data) else spoilt
  | finished _ => spoilt
  | spoilt => spoilt

/-- What a call makes of it, and the digest. -/
def call (hashing : Hashing) : Sha1Call → Hashing × List (Option Words)
  | .reset => (absorbing [], [])
  | .input data => (if data = [] then hashing else hashing.input data, [])
  | .result =>
    match hashing with
    | absorbing m => (finished m, [some (sha1 m)])
    | finished m => (finished m, [some (sha1 m)])
    | spoilt => (spoilt, [none])

def calls : List Sha1Call → Hashing → List (Option Words)
  | [], _ => []
  | c :: cs, hashing => (hashing.call c).2 ++ calls cs (hashing.call c).1

/-- The context says the same. -/
def Stands (context : Sha1Context) : Hashing → Prop
  | absorbing m => Absorbed m context
  | finished m =>
    context.messageDigest = sha1 m ∧ context.computed = true ∧ context.corrupted = false
  | spoilt => context.corrupted = true

end Hashing

section Calls

variable {context : Sha1Context} {hashing : Hashing} {m : List UInt8}

/-- Bytes that come after the digest, or after too many others. -/
theorem sha1Input_of_refused {data : List UInt8} (some_ : data ≠ [])
    (refused : context.computed = true ∨ context.corrupted = true) :
    sha1Input context data = some { context with corrupted := true } := by
  rw [sha1Input, if_neg (by rwa [List.length_eq_zero_iff]), if_pos (by rwa [Bool.or_eq_true])]

theorem sha1Input_spec {data : List UInt8} (some_ : data ≠ []) (stands : hashing.Stands context) :
    ∃ context', sha1Input context data = some context' ∧ (hashing.input data).Stands context' := by
  cases hashing with
  | absorbing m =>
    have absorbed : Absorbed m context := stands
    obtain ⟨context', all, done, spoilt⟩ := sha1InputLoop_spec data absorbed
    refine ⟨context', ?_, ?_⟩
    · rw [sha1Input, if_neg (by rwa [List.length_eq_zero_iff]),
        if_neg (by rw [absorbed.computed, absorbed.corrupted]; decide)]
      exact all
    · rw [Hashing.input]
      split_ifs with fits
      · exact done fits
      · exact spoilt (by omega) some_
  | finished m => exact ⟨_, sha1Input_of_refused some_ (.inl stands.2.1), rfl⟩
  | spoilt => exact ⟨_, sha1Input_of_refused some_ (.inr stands), rfl⟩

theorem sha1Result_spec (stands : hashing.Stands context) :
    ∃ context', sha1Call context .result = some (context', (hashing.call .result).2) ∧
      (hashing.call .result).1.Stands context' := by
  cases hashing with
  | absorbing m =>
    have absorbed : Absorbed m context := stands
    obtain ⟨context', pad, digest, corrupted⟩ := sha1PadMessage_spec absorbed
    refine ⟨{ context' with computed := true }, ?_, digest, rfl, corrupted⟩
    rw [sha1Call, sha1Result, if_neg (by rw [absorbed.corrupted]; decide),
      if_neg (by rw [absorbed.computed]; decide), pad, Hashing.call, ← digest]
    rfl
  | finished m =>
    obtain ⟨digest, computed, corrupted⟩ := stands
    refine ⟨context, ?_, digest, computed, corrupted⟩
    rw [sha1Call, sha1Result, if_neg (by rw [corrupted]; decide), if_pos computed, Hashing.call,
      ← digest]
    rfl
  | spoilt =>
    have corrupted : context.corrupted = true := stands
    exact ⟨context, by rw [sha1Call, sha1Result, if_pos corrupted]; rfl, stands⟩

theorem sha1Call_spec (stands : hashing.Stands context) (call : Sha1Call) :
    ∃ context', sha1Call context call = some (context', (hashing.call call).2) ∧
      (hashing.call call).1.Stands context' := by
  cases call with
  | reset => exact ⟨_, rfl, absorbed_reset context⟩
  | input data =>
    rw [Hashing.call]
    split_ifs with none_
    · exact ⟨context, by rw [sha1Call, sha1Input, none_]; rfl, stands⟩
    · obtain ⟨context', all, stands'⟩ := sha1Input_spec none_ stands
      exact ⟨context', by rw [sha1Call, all]; rfl, stands'⟩
  | result => exact sha1Result_spec stands

theorem sha1Calls_of_stands (stands : hashing.Stands context) (calls : List Sha1Call) :
    sha1Calls calls context = some (hashing.calls calls) := by
  induction calls generalizing context hashing with
  | nil => rfl
  | cons c cs ih =>
    obtain ⟨context', one, stands'⟩ := sha1Call_spec stands c
    rw [sha1Calls, one, Hashing.calls]
    simp only [bind, Option.bind, ih stands', pure]

/-- Calls behind `SHA1Reset`, in any order: no store goes outside of the block, and each digest is the
one of the standard, for the bytes of all pieces since the reset. -/
theorem sha1Calls_eq (context : Sha1Context) (calls : List Sha1Call) :
    sha1Calls (.reset :: calls) context = some (Hashing.calls calls (.absorbing [])) := by
  have reset : sha1Calls (.reset :: calls) context = sha1Calls calls (sha1Reset context) := by
    rw [sha1Calls, sha1Call]
    cases given : sha1Calls calls (sha1Reset context) <;> simp [given]
  rw [reset]
  have stands : (Hashing.absorbing []).Stands (sha1Reset context) := absorbed_reset context
  exact sha1Calls_of_stands stands calls

end Calls

/-- A context as the stack may hold it. -/
def someContext : Sha1Context where
  messageDigest := ⟨0, 0, 0, 0, 0⟩
  lengthLow := 7
  lengthHigh := 0
  messageBlock := List.replicate 64 0xFF
  messageBlockIndex := 99
  computed := true
  corrupted := true
  size := List.length_replicate

example : sha1Calls [.reset, .input [0x61, 0x62], .input [0x63], .result] someContext =
    some [some ⟨0xA9993E36, 0x4706816A, 0xBA3E2571, 0x7850C26C, 0x9CD0D89D⟩] := by decide +kernel

/-! ## Two messages with one digest -/

theorem bytesBE32_inj {x y : UInt32} (same : bytesBE32 x = bytesBE32 y) : x = y := by
  have loaded := congrArg (fun b => loadBE32 (b ++ []) 0) same
  simpa only [loadBE32_bytesBE32] using loaded

theorem drop_padded (m : List UInt8) :
    (padded m).drop ((padded m).length - 8) =
      bytesBE32 (UInt32.ofNat (8 * m.length / 2 ^ 32)) ++ bytesBE32 (UInt32.ofNat (8 * m.length)) := by
  rw [padded, ← List.append_assoc]
  refine List.drop_left' ?_
  exact (Nat.sub_eq_of_eq_add List.length_append).symm

theorem length_eq_of_last {m m' : List UInt8} (short : m.length < 2 ^ 61) (short' : m'.length < 2 ^ 61)
    (last : (padded m).drop ((padded m).length - 64) = (padded m').drop ((padded m').length - 64)) :
    m.length = m'.length := by
  have eight : ∀ n : List UInt8, ((padded n).drop ((padded n).length - 64)).drop 56 =
      bytesBE32 (UInt32.ofNat (8 * n.length / 2 ^ 32)) ++ bytesBE32 (UInt32.ofNat (8 * n.length)) := by
    intro n
    have place : (padded n).length - 64 + 56 = (padded n).length - 8 := by
      rw [length_padded]
      omega
    rw [List.drop_drop, place, drop_padded]
  have same := congrArg (List.drop 56) last
  rw [eight, eight] at same
  obtain ⟨high, low⟩ := List.append_inj same (by simp)
  have high' := congrArg UInt32.toNat (bytesBE32_inj high)
  have low' := congrArg UInt32.toNat (bytesBE32_inj low)
  rw [UInt32.toNat_ofNat', UInt32.toNat_ofNat'] at high' low'
  omega

theorem sha1_collision {m m' : List UInt8} (short : m.length < 2 ^ 61) (short' : m'.length < 2 ^ 61)
    (same : sha1 m = sha1 m') :
    m = m' ∨ Collide compress (inputs compress 64 initialDigest (padded m))
      (inputs compress 64 initialDigest (padded m')) := by
  have long : ∀ n : List UInt8, 64 ≤ (padded n).length := fun n => by rw [length_padded]; omega
  have tells := length_eq_of_last short short'
  refine (compressAll_collision ⟨_, length_padded m⟩ ⟨_, length_padded m'⟩ (long m) (long m')
    (by norm_num) (fun last => by rw [length_padded, length_padded, tells last]) same).imp ?_ id
  intro eq
  have lengths := tells (by rw [eq])
  exact (List.append_inj eq lengths).1

theorem calls_spoilt (pieces : List (List UInt8)) :
    Hashing.calls (pieces.map .input ++ [.result]) .spoilt = [none] := by
  induction pieces with
  | nil => rfl
  | cons data rest ih =>
    rw [List.map_cons, List.cons_append, Hashing.calls, Hashing.call, Hashing.input, ite_self]
    exact ih

theorem calls_pieces (pieces : List (List UInt8)) {m : List UInt8} (short : m.length < 2 ^ 61) :
    Hashing.calls (pieces.map .input ++ [.result]) (.absorbing m) =
      [if (m ++ pieces.flatten).length < 2 ^ 61 then some (sha1 (m ++ pieces.flatten)) else none] := by
  induction pieces generalizing m with
  | nil =>
    rw [List.flatten_nil, List.append_nil, if_pos short]
    rfl
  | cons data rest ih =>
    have step : Hashing.calls ((data :: rest).map .input ++ [.result]) (.absorbing m) =
        Hashing.calls (rest.map .input ++ [.result])
          (if (m ++ data).length < 2 ^ 61 then .absorbing (m ++ data) else .spoilt) := by
      rw [List.map_cons, List.cons_append, Hashing.calls, Hashing.call, Hashing.input,
        ← List.length_append]
      by_cases none_ : data = []
      · subst none_
        rw [List.append_nil, if_pos rfl, if_pos short]
        rfl
      · rw [if_neg none_]
        rfl
    rw [step, List.flatten_cons, ← List.append_assoc]
    by_cases fits : (m ++ data).length < 2 ^ 61
    · rw [if_pos fits, ih fits]
    · rw [if_neg fits, calls_spoilt, if_neg fun all => fits ?_]
      rw [List.length_append] at all
      omega

/-- What `SHA1ProcessMessageBlock` is called with while a message is hashed: a digest and a block. -/
def processed (m : List UInt8) : List (Words × List UInt8) :=
  inputs processBlock 64 initialDigest (padded m)

/-- Two messages, each in any pieces, for which the functions compute one digest: they are equal, or
hashing them runs into two inputs for which `SHA1ProcessMessageBlock` gives one digest. -/
theorem digest_collision {context context' : Sha1Context} {pieces pieces' : List (List UInt8)}
    {digest : Words}
    (given : sha1Calls (.reset :: (pieces.map .input ++ [.result])) context = some [some digest])
    (given' : sha1Calls (.reset :: (pieces'.map .input ++ [.result])) context' =
      some [some digest]) :
    pieces.flatten = pieces'.flatten ∨
      Collide processBlock (processed pieces.flatten) (processed pieces'.flatten) := by
  rw [sha1Calls_eq, calls_pieces _ (by norm_num), List.nil_append, Option.some_inj,
    List.singleton_inj] at given given'
  obtain ⟨short, first⟩ := Option.ite_none_right_eq_some.1 given
  obtain ⟨short', second⟩ := Option.ite_none_right_eq_some.1 given'
  rw [processed, processed,
    show processBlock = compress from funext fun h => funext (processBlock_eq h)]
  exact sha1_collision short short' (Option.some.inj (first.trans second.symm))

theorem digest_collision_abc :
    [[0x61, 0x62], [0x63]].flatten = [[0x61, 0x62, (0x63 : UInt8)]].flatten ∨
      Collide processBlock (processed [[0x61, 0x62], [0x63]].flatten)
        (processed [[0x61, 0x62, 0x63]].flatten) :=
  @digest_collision someContext someContext _ _
    ⟨0xA9993E36, 0x4706816A, 0xBA3E2571, 0x7850C26C, 0x9CD0D89D⟩
    (by decide +kernel) (by decide +kernel)

end ComputerNetwork.Router
