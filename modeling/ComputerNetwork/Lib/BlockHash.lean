import Mathlib.Tactic

/-!
# Hashing by blocks

An iterated hash compresses a message block by block into a chaining value.  `chain` compresses the
first blocks of a message, `compressAll` all complete ones, and `remainder` is what is left behind
them: the contents of the buffer of a program to which the message comes in pieces
(`snoc_of_lt`, `snoc_of_eq`).

Where two messages with the same number of blocks have the same hash, they are equal or hashing them
runs into two inputs of the compression function with one output (`chain_collision`), and so it is with
two messages whose last block tells how long they are (`compressAll_collision`).
-/

namespace ComputerNetwork.Lib

section Chain

variable {α σ : Type*} (f : σ → List α → σ) (n : ℕ)

/-- The first `k` blocks of `n` entries, compressed one after the other. -/
def chain : ℕ → σ → List α → σ
  | 0, h, _ => h
  | k + 1, h, xs => chain k (f h (xs.take n)) (xs.drop n)

/-- All complete blocks. -/
def compressAll (h : σ) (xs : List α) : σ := chain f n (xs.length / n) h xs

/-- What is behind the complete blocks. -/
def remainder (xs : List α) : List α := xs.drop (n * (xs.length / n))

/-- The inputs of the compression function for the first `k` blocks. -/
def chainInputs : ℕ → σ → List α → List (σ × List α)
  | 0, _, _ => []
  | k + 1, h, xs => (h, xs.take n) :: chainInputs k (f h (xs.take n)) (xs.drop n)

/-- The inputs of the compression function for all complete blocks. -/
def inputs (h : σ) (xs : List α) : List (σ × List α) := chainInputs f n (xs.length / n) h xs

/-- One of these inputs and another one of those with one output. -/
def Collide (these those : List (σ × List α)) : Prop :=
  ∃ x ∈ these, ∃ y ∈ those, x ≠ y ∧ f x.1 x.2 = f y.1 y.2

variable {f n} {xs ys : List α} {x : α} {h h' : σ} {k : ℕ}

theorem chain_append_right (long : n * k ≤ xs.length) :
    chain f n k h (xs ++ ys) = chain f n k h xs := by
  induction k generalizing h xs with
  | zero => rfl
  | succ k ih =>
    rw [Nat.mul_succ] at long
    rw [chain, chain, List.take_append_of_le_length (by omega),
      List.drop_append_of_le_length (by omega)]
    exact ih (by rw [List.length_drop]; omega)

theorem chain_add (j : ℕ) :
    chain f n (k + j) h xs = chain f n j (chain f n k h xs) (xs.drop (n * k)) := by
  induction k generalizing h xs with
  | zero => rw [Nat.zero_add, Nat.mul_zero, List.drop_zero, chain]
  | succ k ih =>
    rw [Nat.succ_add, chain, ih, chain, List.drop_drop, Nat.mul_succ, Nat.add_comm n]

theorem chain_succ : chain f n (k + 1) h xs =
    f (chain f n k h xs) ((xs.drop (n * k)).take n) := by
  rw [chain_add, chain, chain]

theorem length_remainder : (remainder n xs).length = xs.length % n := by
  rw [remainder, List.length_drop]
  have parts := Nat.div_add_mod xs.length n
  omega

theorem remainder_of_dvd (aligned : n ∣ xs.length) : remainder n xs = [] := by
  rw [remainder, Nat.mul_div_cancel' aligned, List.drop_length]

theorem compressAll_append (positive : 0 < n) (aligned : n ∣ xs.length) :
    compressAll f n h (xs ++ ys) = compressAll f n (compressAll f n h xs) ys := by
  obtain ⟨k, size⟩ := aligned
  have blocks : (xs ++ ys).length / n = k + ys.length / n := by
    rw [List.length_append, size, Nat.mul_add_div positive]
  have front : xs.length / n = k := by rw [size, Nat.mul_div_cancel_left _ positive]
  have behind : (xs ++ ys).drop (n * k) = ys := List.drop_left' size
  rw [compressAll, blocks, chain_add, behind, chain_append_right size.ge, compressAll, compressAll,
    front]

theorem compressAll_of_lt (short : xs.length < n) : compressAll f n h xs = h := by
  rw [compressAll, Nat.div_eq_of_lt short, chain]

theorem compressAll_block (positive : 0 < n) (size : xs.length = n) :
    compressAll f n h xs = f h xs := by
  rw [compressAll, size, Nat.div_self positive, chain, chain, List.take_of_length_le size.le]

theorem take_append_remainder : xs.take (n * (xs.length / n)) ++ remainder n xs = xs :=
  List.take_append_drop ..

theorem compressAll_take :
    compressAll f n h (xs.take (n * (xs.length / n))) = compressAll f n h xs := by
  have whole : n * (xs.length / n) ≤ xs.length := Nat.mul_div_le ..
  have size : (xs.take (n * (xs.length / n))).length = n * (xs.length / n) :=
    List.length_take_of_le whole
  rcases Nat.eq_zero_or_pos n with rfl | positive
  · simp [compressAll, chain]
  · calc compressAll f n h (xs.take (n * (xs.length / n)))
        = chain f n (xs.length / n) h (xs.take (n * (xs.length / n))) := by
          rw [compressAll, size, Nat.mul_div_cancel_left _ positive]
      _ = chain f n (xs.length / n) h (xs.take (n * (xs.length / n)) ++ remainder n xs) :=
          (chain_append_right size.ge).symm
      _ = compressAll f n h xs := by rw [take_append_remainder, compressAll]

theorem compressAll_append_remainder (positive : 0 < n) :
    compressAll f n h (xs ++ ys) = compressAll f n (compressAll f n h xs) (remainder n xs ++ ys) := by
  have size : (xs.take (n * (xs.length / n))).length = n * (xs.length / n) :=
    List.length_take_of_le (Nat.mul_div_le ..)
  rw [← @compressAll_take _ _ f n xs, ← compressAll_append positive ⟨_, size⟩, ← List.append_assoc,
    take_append_remainder]

theorem remainder_append (positive : 0 < n) :
    remainder n (xs ++ ys) = remainder n (remainder n xs ++ ys) := by
  have size : (xs.take (n * (xs.length / n))).length = n * (xs.length / n) :=
    List.length_take_of_le (Nat.mul_div_le ..)
  have parts : (xs.take (n * (xs.length / n)) ++ (remainder n xs ++ ys)).length / n =
      xs.length / n + (remainder n xs ++ ys).length / n := by
    rw [List.length_append, size, Nat.mul_add_div positive]
  conv_lhs => rw [← @take_append_remainder _ n xs, List.append_assoc]
  rw [remainder, parts, Nat.mul_add, ← List.drop_drop, List.drop_left' size]
  rfl

theorem snoc_of_lt (room : (remainder n xs).length + 1 < n) :
    compressAll f n h (xs ++ [x]) = compressAll f n h xs ∧
      remainder n (xs ++ [x]) = remainder n xs ++ [x] := by
  have positive : 0 < n := by omega
  have short : (remainder n xs ++ [x]).length < n := by
    rw [List.length_append, List.length_singleton]
    exact room
  refine ⟨?_, ?_⟩
  · rw [compressAll_append_remainder positive, compressAll_of_lt short]
  · rw [remainder_append positive, remainder, Nat.div_eq_of_lt short, Nat.mul_zero, List.drop_zero]

theorem snoc_of_eq (full : (remainder n xs).length + 1 = n) :
    compressAll f n h (xs ++ [x]) = f (compressAll f n h xs) (remainder n xs ++ [x]) ∧
      remainder n (xs ++ [x]) = [] := by
  have positive : 0 < n := by omega
  have size : (remainder n xs ++ [x]).length = n := by
    rw [List.length_append, List.length_singleton]
    exact full
  refine ⟨?_, ?_⟩
  · rw [compressAll_append_remainder positive, compressAll_block positive size]
  · rw [remainder_append positive]
    exact remainder_of_dvd ⟨1, by rw [size, Nat.mul_one]⟩

/-! ## Collisions -/

theorem Collide.cons {these those : List (σ × List α)} {x y : σ × List α}
    (collide : Collide f these those) : Collide f (x :: these) (y :: those) := by
  obtain ⟨i, mem, j, mem', two, one⟩ := collide
  exact ⟨i, List.mem_cons_of_mem _ mem, j, List.mem_cons_of_mem _ mem', two, one⟩

theorem mem_chainInputs_succ :
    (chain f n k h xs, (xs.drop (n * k)).take n) ∈ chainInputs f n (k + 1) h xs := by
  induction k generalizing h xs with
  | zero => simp [chain, chainInputs]
  | succ k ih =>
    have behind : xs.drop (n * (k + 1)) = (xs.drop n).drop (n * k) := by
      rw [List.drop_drop, Nat.mul_succ, Nat.add_comm]
    rw [chain, behind, chainInputs]
    exact List.mem_cons_of_mem _ ih

/-- The same hash from the same number of blocks. -/
theorem chain_collision (size : xs.length = n * k) (size' : ys.length = n * k)
    (same : chain f n k h xs = chain f n k h' ys) :
    (h = h' ∧ xs = ys) ∨ Collide f (chainInputs f n k h xs) (chainInputs f n k h' ys) := by
  induction k generalizing h h' xs ys with
  | zero =>
    rw [Nat.mul_zero, List.length_eq_zero_iff] at size size'
    exact .inl ⟨same, size.trans size'.symm⟩
  | succ k ih =>
    rw [Nat.mul_succ] at size size'
    rcases ih (by rw [List.length_drop]; omega) (by rw [List.length_drop]; omega) same with
      ⟨inner, rest⟩ | collide
    · by_cases eq : (h, xs.take n) = (h', ys.take n)
      · obtain ⟨start, head⟩ := Prod.mk.inj eq
        refine .inl ⟨start, ?_⟩
        rw [← List.take_append_drop n xs, head, rest, List.take_append_drop]
      · exact .inr ⟨_, List.mem_cons_self .., _, List.mem_cons_self .., eq, inner⟩
    · exact .inr collide.cons

/-- The same hash from messages of which the last block tells the length. -/
theorem compressAll_collision (aligned : n ∣ xs.length) (aligned' : n ∣ ys.length)
    (some_ : n ≤ xs.length) (some' : n ≤ ys.length) (positive : 0 < n)
    (tells : xs.drop (xs.length - n) = ys.drop (ys.length - n) → xs.length = ys.length)
    (same : compressAll f n h xs = compressAll f n h ys) :
    xs = ys ∨ Collide f (inputs f n h xs) (inputs f n h ys) := by
  obtain ⟨k, size⟩ := aligned
  obtain ⟨k', size'⟩ := aligned'
  obtain ⟨j, rfl⟩ : ∃ j, k = j + 1 := by
    refine ⟨k - 1, ?_⟩
    rcases k with _ | k
    · omega
    · rfl
  obtain ⟨j', rfl⟩ : ∃ j', k' = j' + 1 := by
    refine ⟨k' - 1, ?_⟩
    rcases k' with _ | k'
    · omega
    · rfl
  have last : xs.length - n = n * j := by rw [size, Nat.mul_succ, Nat.add_sub_cancel]
  have last' : ys.length - n = n * j' := by rw [size', Nat.mul_succ, Nat.add_sub_cancel]
  rw [last, last'] at tells
  simp only [compressAll, inputs, size, size', Nat.mul_div_cancel_left _ positive] at same ⊢
  by_cases eq : xs.drop (n * j) = ys.drop (n * j')
  · have blocks : j + 1 = j' + 1 := by
      have lengths := tells eq
      rw [size, size'] at lengths
      exact Nat.eq_of_mul_eq_mul_left positive lengths
    obtain rfl : j = j' := Nat.succ.inj blocks
    exact (chain_collision size size' same).imp And.right id
  · -- the last call of the compression function has two inputs
    rw [chain_succ, chain_succ] at same
    refine .inr ⟨_, mem_chainInputs_succ, _, mem_chainInputs_succ, fun both => eq ?_, same⟩
    have blocks := (Prod.mk.inj both).2
    rwa [List.take_of_length_le (by rw [List.length_drop, size, Nat.mul_succ]; omega),
      List.take_of_length_le (by rw [List.length_drop, size', Nat.mul_succ]; omega)] at blocks

end Chain

end ComputerNetwork.Lib
