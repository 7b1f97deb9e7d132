import Mathlib.Tactic

/-!
# Words in byte strings

Loads and stores of 16 and 32 bit words in strings of bytes.  Multi-byte fields of a packet are in
network order, so the value a program obtains with `ntohs` and `ntohl` is the big-endian load; on
the little-endian hosts the programs are built for, the same field read without the conversion is
the little-endian load.  `splice` overwrites a piece of a string in place.
-/

namespace ComputerNetwork.Lib

/-- The byte at `i`, zero past the end. -/
def load8 (b : List UInt8) (i : ℕ) : UInt8 := b.getD i 0

/-- The 16-bit word at `i` in network order. -/
def loadBE16 (b : List UInt8) (i : ℕ) : UInt16 :=
  UInt16.ofNat (256 * (load8 b i).toNat + (load8 b (i + 1)).toNat)

/-- The 16-bit word at `i` as a little-endian host loads it. -/
def loadLE16 (b : List UInt8) (i : ℕ) : UInt16 :=
  UInt16.ofNat ((load8 b i).toNat + 256 * (load8 b (i + 1)).toNat)

/-- The 32-bit word at `i` in network order. -/
def loadBE32 (b : List UInt8) (i : ℕ) : UInt32 :=
  UInt32.ofNat (16777216 * (load8 b i).toNat + 65536 * (load8 b (i + 1)).toNat +
    256 * (load8 b (i + 2)).toNat + (load8 b (i + 3)).toNat)

/-- The 32-bit word at `i` as a little-endian host loads it. -/
def loadLE32 (b : List UInt8) (i : ℕ) : UInt32 :=
  UInt32.ofNat ((load8 b i).toNat + 256 * (load8 b (i + 1)).toNat +
    65536 * (load8 b (i + 2)).toNat + 16777216 * (load8 b (i + 3)).toNat)

/-- The two bytes of a word in network order. -/
def bytesBE16 (x : UInt16) : List UInt8 := [UInt8.ofNat (x.toNat / 256), UInt8.ofNat x.toNat]

/-- The two bytes of a word as a little-endian host stores it. -/
def bytesLE16 (x : UInt16) : List UInt8 := [UInt8.ofNat x.toNat, UInt8.ofNat (x.toNat / 256)]

/-- The four bytes of a word in network order. -/
def bytesBE32 (x : UInt32) : List UInt8 :=
  [UInt8.ofNat (x.toNat / 16777216), UInt8.ofNat (x.toNat / 65536), UInt8.ofNat (x.toNat / 256),
    UInt8.ofNat x.toNat]

/-- The four bytes of a word as a little-endian host stores it. -/
def bytesLE32 (x : UInt32) : List UInt8 :=
  [UInt8.ofNat x.toNat, UInt8.ofNat (x.toNat / 256), UInt8.ofNat (x.toNat / 65536),
    UInt8.ofNat (x.toNat / 16777216)]

@[simp] theorem length_bytesLE32 (x : UInt32) : (bytesLE32 x).length = 4 := rfl

@[simp] theorem length_bytesLE16 (x : UInt16) : (bytesLE16 x).length = 2 := rfl

@[simp] theorem length_bytesBE16 (x : UInt16) : (bytesBE16 x).length = 2 := rfl

@[simp] theorem length_bytesBE32 (x : UInt32) : (bytesBE32 x).length = 4 := rfl

theorem load8_take (b : List UInt8) {n i : ℕ} (h : i < n) : load8 (b.take n) i = load8 b i := by
  simp only [load8, List.getD_eq_getElem?_getD, List.getElem?_take_of_lt h]

theorem loadBE32_bytesBE32 (x : UInt32) (b : List UInt8) : loadBE32 (bytesBE32 x ++ b) 0 = x := by
  apply UInt32.toNat_inj.1
  have bound := x.toNat_lt
  simp only [loadBE32, load8, bytesBE32, List.cons_append, List.getD_cons_zero, Nat.zero_add,
    List.getD_cons_succ, UInt32.toNat_ofNat', UInt8.toNat_ofNat']
  omega

theorem loadLE32_bytesLE32 (x : UInt32) (b : List UInt8) : loadLE32 (bytesLE32 x ++ b) 0 = x := by
  apply UInt32.toNat_inj.1
  have bound := x.toNat_lt
  simp only [loadLE32, load8, bytesLE32, List.cons_append, List.getD_cons_zero, Nat.zero_add,
    List.getD_cons_succ, UInt32.toNat_ofNat', UInt8.toNat_ofNat']
  omega

theorem bytesLE32_loadLE32 {b : List UInt8} (size : b.length = 4) : bytesLE32 (loadLE32 b 0) = b := by
  match b, size with
  | [x, y, z, w], _ =>
    have hx := x.toNat_lt
    have hy := y.toNat_lt
    have hz := z.toNat_lt
    have hw := w.toNat_lt
    simp only [bytesLE32, loadLE32, load8, List.getD_cons_zero, List.getD_cons_succ, Nat.zero_add,
      UInt32.toNat_ofNat', List.cons.injEq, ← UInt8.toNat_inj, UInt8.toNat_ofNat', and_true]
    omega

theorem bytesBE32_loadBE32 {b : List UInt8} (size : b.length = 4) : bytesBE32 (loadBE32 b 0) = b := by
  match b, size with
  | [x, y, z, w], _ =>
    have hx := x.toNat_lt
    have hy := y.toNat_lt
    have hz := z.toNat_lt
    have hw := w.toNat_lt
    simp only [bytesBE32, loadBE32, load8, List.getD_cons_zero, List.getD_cons_succ, Nat.zero_add,
      UInt32.toNat_ofNat', List.cons.injEq, ← UInt8.toNat_inj, UInt8.toNat_ofNat', and_true]
    omega

theorem loadBE16_bytesBE16 (x : UInt16) (b : List UInt8) : loadBE16 (bytesBE16 x ++ b) 0 = x := by
  apply UInt16.toNat_inj.1
  have bound := x.toNat_lt
  simp only [loadBE16, load8, bytesBE16, List.cons_append, List.getD_cons_zero, Nat.zero_add,
    List.getD_cons_succ, UInt16.toNat_ofNat', UInt8.toNat_ofNat']
  omega

theorem toNat_loadLE16 (b : List UInt8) (i : ℕ) :
    (loadLE16 b i).toNat = (load8 b i).toNat + 256 * (load8 b (i + 1)).toNat := by
  have low := (load8 b i).toNat_lt
  have high := (load8 b (i + 1)).toNat_lt
  rw [loadLE16, UInt16.toNat_ofNat', Nat.mod_eq_of_lt (by omega)]

theorem loadLE16_bytesLE16 (x : UInt16) (b : List UInt8) : loadLE16 (bytesLE16 x ++ b) 0 = x := by
  apply UInt16.toNat_inj.1
  have bound := x.toNat_lt
  simp only [loadLE16, load8, bytesLE16, List.cons_append, List.getD_cons_zero, Nat.zero_add,
    List.getD_cons_succ, UInt16.toNat_ofNat', UInt8.toNat_ofNat']
  omega

/-- Overwrite the bytes from `i` on with `new`. -/
def splice (b : List UInt8) (i : ℕ) (new : List UInt8) : List UInt8 :=
  b.take i ++ (new ++ b.drop (i + new.length))

section Splice

variable {b new : List UInt8} {i n : ℕ}

theorem length_splice (fits : i + new.length ≤ b.length) : (splice b i new).length = b.length := by
  rw [splice, List.length_append, List.length_append, List.length_take, List.length_drop]
  omega

/-- A store keeps the room for the next accesses. -/
theorem le_length_splice (i : ℕ) (new : List UInt8) (long : n ≤ b.length)
    (fits : i + new.length ≤ n) : n ≤ (splice b i new).length := by
  rw [length_splice (fits.trans long)]
  exact long

theorem take_drop_splice (fits : i ≤ b.length) :
    ((splice b i new).drop i).take new.length = new := by
  rw [splice, List.drop_append_of_le_length (by rw [List.length_take]; omega),
    List.drop_eq_nil_of_le (by rw [List.length_take]; omega), List.nil_append, List.take_left']
  rfl

theorem take_splice (before : n ≤ i) (fits : i ≤ b.length) : (splice b i new).take n = b.take n := by
  rw [splice, List.take_append_of_le_length (by rw [List.length_take]; omega), List.take_take,
    min_eq_left before]

theorem drop_splice (behind : i + new.length ≤ n) (fits : i ≤ b.length) :
    (splice b i new).drop n = b.drop n := by
  have len : (b.take i ++ new).length = i + new.length := by
    rw [List.length_append, List.length_take, min_eq_left fits]
  obtain ⟨k, rfl⟩ := Nat.exists_eq_add_of_le behind
  rw [splice, ← List.append_assoc, ← len, List.drop_length_add_append, List.drop_drop, len]

theorem splice_append_right (a b new : List UInt8) (i : ℕ) :
    splice (a ++ b) (a.length + i) new = a ++ splice b i new := by
  rw [splice, splice, List.take_length_add_append, Nat.add_assoc, List.drop_length_add_append,
    List.append_assoc]

theorem splice_append_left (r : List UInt8) (fits : i + new.length ≤ b.length) :
    splice (b ++ r) i new = splice b i new ++ r := by
  rw [splice, splice, List.take_append_of_le_length (by omega), List.drop_append_of_le_length fits,
    List.append_assoc, List.append_assoc]

theorem splice_append {a : List UInt8} (new : List UInt8) (fits : i + a.length ≤ b.length) :
    splice (splice b i a) (i + a.length) new = splice b i (a ++ new) := by
  have front : (b.take i ++ a).length = i + a.length := by
    rw [List.length_append, List.length_take_of_le (by omega)]
  have split : splice b i a = (b.take i ++ a) ++ b.drop (i + a.length) := by
    rw [splice, List.append_assoc]
  rw [split, ← front, ← Nat.add_zero (b.take i ++ a).length, splice_append_right, Nat.add_zero, front,
    splice, splice, List.take_zero, List.nil_append, List.drop_drop, List.length_append, Nat.zero_add,
    List.append_assoc, List.append_assoc, Nat.add_assoc]

theorem take_append_piece (s : List UInt8) (n m : ℕ) :
    s.take n ++ (s.drop n).take m = s.take (n + ((s.drop n).take m).length) := by
  rw [List.length_take, List.take_add, ← List.take_eq_take_min]

/-- A piece of `s` copied behind the pieces before it. -/
theorem splice_take_append_drop {s : List UInt8} (m : ℕ) (inside : n ≤ s.length) :
    splice (s.take n ++ b.drop n) n ((s.drop n).take m) =
      s.take (n + ((s.drop n).take m).length) ++ b.drop (n + ((s.drop n).take m).length) := by
  have front : (s.take n).length = n := List.length_take_of_le inside
  have behind : (s.take n ++ b.drop n).drop (n + ((s.drop n).take m).length) =
      b.drop (n + ((s.drop n).take m).length) := by
    rw [← List.drop_drop, List.drop_left' front, List.drop_drop]
  rw [splice, List.take_left' front, behind, ← List.append_assoc, take_append_piece]

theorem splice_splice (old : List UInt8) (same : old.length = new.length) (fits : i ≤ b.length) :
    splice (splice b i old) i new = splice b i new := by
  rw [splice, take_splice le_rfl fits, drop_splice (by rw [same]) fits, splice]

theorem splice_comm {new' : List UInt8} {j : ℕ} (before : i + new.length ≤ j)
    (fits : j + new'.length ≤ b.length) :
    splice (splice b i new) j new' = splice (splice b j new') i new := by
  obtain ⟨k, rfl⟩ := Nat.exists_eq_add_of_le before
  obtain ⟨a, r, rfl, size⟩ : ∃ a r, b = a ++ r ∧ a.length = i + new.length :=
    ⟨_, _, (List.take_append_drop (i + new.length) b).symm, List.length_take_of_le (by omega)⟩
  have room : i + new.length ≤ a.length := size.ge
  have kept : (splice a i new).length = i + new.length := (length_splice room).trans size
  calc splice (splice (a ++ r) i new) (i + new.length + k) new'
      = splice (splice a i new ++ r) ((splice a i new).length + k) new' := by
        rw [splice_append_left r room, kept]
    _ = splice a i new ++ splice r k new' := splice_append_right ..
    _ = splice (a ++ splice r k new') i new := (splice_append_left _ room).symm
    _ = splice (splice (a ++ r) (i + new.length + k) new') i new := by
        rw [← size, splice_append_right]

theorem load8_drop (b : List UInt8) (i j : ℕ) : load8 (b.drop i) j = load8 b (i + j) := by
  simp only [load8, List.getD_eq_getElem?_getD, List.getElem?_drop]

theorem load8_splice_before {j : ℕ} (before : j < i) (fits : i ≤ b.length) :
    load8 (splice b i new) j = load8 b j := by
  rw [← load8_take (splice b i new) before, take_splice le_rfl fits, load8_take b before]

theorem load8_splice_behind {j : ℕ} (behind : i + new.length ≤ j) (fits : i ≤ b.length) :
    load8 (splice b i new) j = load8 b j := by
  have same : (splice b i new).drop j = b.drop j := drop_splice behind fits
  simpa only [load8_drop, Nat.add_zero] using congrArg (load8 · 0) same

theorem load8_splice_inside {j : ℕ} (inside : j < new.length) (fits : i ≤ b.length) :
    load8 (splice b i new) (i + j) = load8 new j := by
  rw [← load8_drop, ← load8_take _ inside, take_drop_splice fits]

theorem load8_splice_self (x : UInt8) (inside : i < b.length) : load8 (splice b i [x]) i = x :=
  load8_splice_inside (show 0 < [x].length from Nat.one_pos) inside.le

end Splice

/-- Conversion of an `int` to a 64-bit `size_t`. -/
def toSize (n : ℤ) : ℕ := (n % 2 ^ 64).toNat

theorem toSize_natCast {n : ℕ} (small : n < 2 ^ 64) : toSize n = n := by
  unfold toSize
  omega

theorem map_load8_range {b : List UInt8} {i n : ℕ} (inside : i + n ≤ b.length) :
    ((List.range n).map fun k => load8 b (i + k)) = (b.drop i).take n := by
  apply List.ext_getElem
  · rw [List.length_map, List.length_range, List.length_take, List.length_drop]
    omega
  · intro k here _
    rw [List.length_map, List.length_range] at here
    simp [load8, List.getD_eq_getElem?_getD, List.getElem?_eq_getElem (show i + k < b.length by omega)]

end ComputerNetwork.Lib
