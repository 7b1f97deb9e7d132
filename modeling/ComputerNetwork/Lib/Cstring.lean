import Mathlib.Data.List.TakeWhile
import Mathlib.Tactic

/-!
# C strings

The functions of `<string.h>` on a block of memory and an offset into it.  A string runs from the
offset to the first NUL; where the block has none behind the offset the access is undefined.
`position` is the search of `strstr`, with `position_eq_some` as its specification, and `strtokR`
is `strtok_r`, which writes into the block; `strtokR_none`, `strtokR_last` and `strtokR_token` are
its three outcomes.
-/

namespace ComputerNetwork.Lib

/-- Why the standard gives an access no meaning. -/
inductive Undefined where
  | outOfBounds | nullPointer
  deriving DecidableEq

/-- The string at `p`. -/
def cstr (b : List UInt8) (p : ℕ) : Except Undefined (List UInt8) :=
  if 0 ∈ b.drop p then .ok ((b.drop p).takeWhile (· ≠ 0)) else .error .outOfBounds

/-- `b[p]`. -/
def byteAt (b : List UInt8) (p : ℕ) : Except Undefined UInt8 :=
  match b[p]? with
  | some c => .ok c
  | none => .error .outOfBounds

def strlen (b : List UInt8) (p : ℕ) : Except Undefined ℕ := do return (← cstr b p).length

/-- Whether `strncmp(p, text, strlen(text))` is zero. -/
def strncmp (b : List UInt8) (p : ℕ) (text : List UInt8) : Except Undefined Bool := do
  return text.isPrefixOf (← cstr b p)

/-- The first place where `needle` occurs. -/
def position (needle : List UInt8) : List UInt8 → Option ℕ
  | [] => if needle = [] then some 0 else none
  | c :: s => if needle.isPrefixOf (c :: s) then some 0 else (position needle s).map (· + 1)

def strstr (b : List UInt8) (p : ℕ) (needle : List UInt8) : Except Undefined (Option ℕ) := do
  return (position needle (← cstr b p)).map (p + ·)

/-- `index`, the search for one byte. -/
def index (b : List UInt8) (p : ℕ) (c : UInt8) : Except Undefined (Option ℕ) := strstr b p [c]

/-- `strtok_r`: the block, the token and the save pointer it leaves. -/
def strtokR (b : List UInt8) (s : ℕ) (delim : List UInt8) :
    Except Undefined (List UInt8 × Option ℕ × ℕ) := do
  let text ← cstr b s
  let tail := text.dropWhile (· ∈ delim)
  let start := s + (text.length - tail.length)
  if tail = [] then return (b, none, start)
  let stop := start + (tail.takeWhile (· ∉ delim)).length
  if tail.dropWhile (· ∉ delim) = [] then return (b, some start, stop)
  return (b.set stop 0, some start, stop + 1)

/-! ## Strings in a block -/

section Strings

variable {u s w : List UInt8}

theorem cstr_append (nul : 0 ∉ s) : cstr (u ++ (s ++ 0 :: w)) u.length = .ok s := by
  rw [cstr, List.drop_left, if_pos (by simp), List.takeWhile_append_of_pos, List.takeWhile_cons]
  · simp
  · intro c hc
    simpa using fun h : c = 0 => nul (h ▸ hc)

theorem cstr_append_of_mem (nul : 0 ∉ s) (ends : 0 ∈ w) :
    cstr (u ++ (s ++ w)) u.length = .ok (s ++ w.takeWhile (· ≠ 0)) := by
  rw [cstr, List.drop_left, if_pos (List.mem_append_right _ ends), List.takeWhile_append_of_pos]
  intro c hc
  simpa using fun h : c = 0 => nul (h ▸ hc)

theorem cstr_drop {j : ℕ} (nul : 0 ∉ s) (le : j ≤ s.length) :
    cstr (u ++ (s ++ 0 :: w)) (u.length + j) = .ok (s.drop j) := by
  have h := cstr_append (u := u ++ s.take j) (s := s.drop j) (w := w)
    fun mem => nul (List.mem_of_mem_drop mem)
  rwa [List.append_assoc, ← List.append_assoc (s.take j), List.take_append_drop, List.length_append,
    List.length_take_of_le le] at h

/-- A string is what stands before the first NUL. -/
theorem cstr_eq_ok {b : List UInt8} {p : ℕ} :
    cstr b p = .ok s ↔ 0 ∉ s ∧ ∃ post, b.drop p = s ++ 0 :: post := by
  constructor
  · intro h
    unfold cstr at h
    split_ifs at h with ends
    cases h
    refine ⟨fun h => by simpa using List.mem_takeWhile_imp h, ?_⟩
    have split := List.takeWhile_append_dropWhile (p := (· ≠ (0 : UInt8))) (l := b.drop p)
    rcases rest : (b.drop p).dropWhile (· ≠ 0) with _ | ⟨c, post⟩
    · rw [List.dropWhile_eq_nil_iff] at rest
      exact absurd (rest 0 ends) (by simp)
    · have stop := List.head?_dropWhile_not (· ≠ (0 : UInt8)) (b.drop p)
      rw [rest] at stop split
      have zero : c = 0 := by simpa using stop
      rw [zero] at split
      exact ⟨post, split.symm⟩
  · rintro ⟨nul, post, h⟩
    rw [cstr, h, if_pos (by simp), List.takeWhile_append_of_pos, List.takeWhile_cons]
    · simp
    · intro c hc
      simpa using fun h : c = 0 => nul (h ▸ hc)

theorem cstr_add {b : List UInt8} {p j : ℕ} (h : cstr b p = .ok s) (le : j ≤ s.length) :
    cstr b (p + j) = .ok (s.drop j) := by
  obtain ⟨nul, post, eq⟩ := cstr_eq_ok.1 h
  refine cstr_eq_ok.2 ⟨fun mem => nul (List.mem_of_mem_drop mem), post, ?_⟩
  rw [← List.drop_drop, eq, List.drop_append_of_le_length le]

/-- A string stays where it is when bytes are added behind its block. -/
theorem cstr_extend {b : List UInt8} {p : ℕ} (h : cstr b p = .ok s) (w : List UInt8) :
    cstr (b ++ w) p = .ok s := by
  obtain ⟨nul, post, eq⟩ := cstr_eq_ok.1 h
  have inside : p ≤ b.length := by
    by_contra beyond
    rw [List.drop_eq_nil_of_le (by omega)] at eq
    simp at eq
  refine cstr_eq_ok.2 ⟨nul, post ++ w, ?_⟩
  rw [List.drop_append_of_le_length inside, eq, List.append_assoc, List.cons_append]

theorem take_drop_of_cstr {b a r : List UInt8} {p : ℕ} (h : cstr b p = .ok (a ++ r)) :
    (b.drop p).take a.length = a := by
  obtain ⟨-, post, eq⟩ := cstr_eq_ok.1 h
  rw [eq, List.append_assoc, List.take_left']
  rfl

theorem byteAt_of_cstr {b r : List UInt8} {p : ℕ} {c : UInt8} (h : cstr b p = .ok (c :: r)) :
    byteAt b p = .ok c := by
  obtain ⟨-, post, eq⟩ := cstr_eq_ok.1 h
  have here : b[p]? = some c := by
    rw [← Nat.add_zero p, ← List.getElem?_drop, eq]
    rfl
  rw [byteAt, here]

theorem cstr_of_le {b : List UInt8} {p : ℕ} (beyond : b.length ≤ p) :
    cstr b p = .error .outOfBounds := by
  rw [cstr, List.drop_eq_nil_of_le beyond, if_neg (by simp)]

end Strings

/-! ## Searching -/

theorem position_eq_some {needle s : List UInt8} {i : ℕ} :
    position needle s = some i ↔
      needle <+: s.drop i ∧ i ≤ s.length ∧ ∀ j < i, ¬ needle <+: s.drop j := by
  induction s generalizing i with
  | nil =>
    rw [position]
    split_ifs with empty
    · subst empty
      constructor
      · rintro ⟨⟩
        simp
      · rintro ⟨-, small, -⟩
        simp only [List.length_nil, Nat.le_zero] at small
        rw [small]
    · simp only [List.drop_nil, List.prefix_nil, empty, false_and]
  | cons c s ih =>
    rw [position]
    split_ifs with here
    · constructor
      · rintro ⟨⟩
        exact ⟨List.isPrefixOf_iff_prefix.1 here, Nat.zero_le _, by simp⟩
      · rintro ⟨-, -, first⟩
        rcases Nat.eq_zero_or_pos i with rfl | pos
        · rfl
        · exact absurd (List.isPrefixOf_iff_prefix.1 here) (first 0 pos)
    · have away : ¬ needle <+: c :: s := fun h => here (List.isPrefixOf_iff_prefix.2 h)
      cases i with
      | zero => simp [away]
      | succ i =>
        simp only [Option.map_eq_some_iff, Nat.add_right_cancel_iff, exists_eq_right, ih,
          List.drop_succ_cons, List.length_cons, Nat.add_le_add_iff_right]
        refine and_congr_right fun _ => and_congr_right fun _ => ⟨fun first j hj => ?_, ?_⟩
        · cases j with
          | zero => exact away
          | succ j => exact first j (by omega)
        · intro first j hj
          exact first (j + 1) (by omega)

theorem position_eq_none {needle s : List UInt8} :
    position needle s = none ↔ ¬ needle <:+: s := by
  induction s with
  | nil =>
    rw [position]
    split_ifs with empty
    · simp [empty]
    · simp [empty]
  | cons c s ih =>
    rw [position, List.infix_cons_iff]
    split_ifs with here
    · simp [List.isPrefixOf_iff_prefix.1 here]
    · have away : ¬ needle <+: c :: s := fun h => here (List.isPrefixOf_iff_prefix.2 h)
      simp [away, ih]

theorem exists_of_position {needle s : List UInt8} {i : ℕ} (found : position needle s = some i) :
    ∃ a b, s = a ++ (needle ++ b) ∧ a.length = i := by
  obtain ⟨⟨b, hb⟩, small, -⟩ := position_eq_some.1 found
  exact ⟨s.take i, b, by rw [hb, List.take_append_drop], List.length_take_of_le small⟩

theorem position_byte {c : UInt8} {a : List UInt8} (b : List UInt8) (none : c ∉ a) :
    position [c] (a ++ c :: b) = some a.length := by
  rw [position_eq_some]
  refine ⟨by simp, by simp, fun j hj ⟨t, ht⟩ => none ?_⟩
  rw [List.drop_append_of_le_length hj.le] at ht
  rcases rest : a.drop j with _ | ⟨d, rest⟩
  · have := congrArg List.length rest
    rw [List.length_drop, List.length_nil] at this
    omega
  · rw [rest, List.singleton_append, List.cons_append] at ht
    cases ht
    exact List.mem_of_mem_drop (rest ▸ List.mem_cons_self ..)

theorem position_byte_none {c : UInt8} {s : List UInt8} (none : c ∉ s) : position [c] s = .none := by
  rw [position_eq_none]
  exact fun h => none (h.subset (List.mem_singleton_self c))

/-! ## Tokens -/

section Tokens

variable {D u l t w : List UInt8} {c : UInt8}

/-- The parts of a string of delimiters, a token and a tail that does not begin with another byte of
the token. -/
theorem spans (inside : ∀ c ∈ l, c ∈ D) (outside : ∀ c ∈ t, c ∉ D)
    (next : ∀ c ∈ w.head?, c ∈ D) (some_ : t ≠ []) :
    (l ++ (t ++ w)).dropWhile (· ∈ D) = t ++ w ∧
      (t ++ w).takeWhile (· ∉ D) = t ∧ (t ++ w).dropWhile (· ∉ D) = w := by
  obtain ⟨c, rest, rfl⟩ := List.exists_cons_of_ne_nil some_
  refine ⟨?_, ?_, ?_⟩
  · rw [List.dropWhile_append_of_pos (by simpa using inside), List.cons_append,
      List.dropWhile_cons_of_neg (by simpa using outside c (List.mem_cons_self ..))]
  · rw [List.takeWhile_append_of_pos (by simpa using outside)]
    cases w with
    | nil => simp
    | cons d w => rw [List.takeWhile_cons_of_neg (by simpa using next d rfl), List.append_nil]
  · rw [List.dropWhile_append_of_pos (by simpa using outside)]
    cases w with
    | nil => rfl
    | cons d w => rw [List.dropWhile_cons_of_neg (by simpa using next d rfl)]

theorem strtokR_none (inside : ∀ c ∈ l, c ∈ D) (nul : 0 ∉ l) :
    strtokR (u ++ (l ++ 0 :: w)) u.length D =
      .ok (u ++ (l ++ 0 :: w), none, u.length + l.length) := by
  have all : l.dropWhile (· ∈ D) = [] := by
    rw [List.dropWhile_eq_nil_iff]
    simpa using inside
  simp [strtokR, cstr_append nul, all, bind, Except.bind, pure, Except.pure]

theorem strtokR_last (inside : ∀ c ∈ l, c ∈ D) (outside : ∀ c ∈ t, c ∉ D)
    (some_ : t ≠ []) (nul : 0 ∉ l ++ t) :
    strtokR (u ++ (l ++ (t ++ 0 :: w))) u.length D =
      .ok (u ++ (l ++ (t ++ 0 :: w)), some (u.length + l.length),
        u.length + l.length + t.length) := by
  obtain ⟨h1, h2, h3⟩ := spans (w := []) inside outside (by simp) some_
  rw [List.append_nil] at h1 h2 h3
  have text : cstr (u ++ (l ++ (t ++ 0 :: w))) u.length = .ok (l ++ t) := by
    rw [← List.append_assoc l]
    exact cstr_append nul
  simp only [strtokR, text, bind, Except.bind, pure, Except.pure, h1, if_neg some_, h2, h3, if_true,
    List.length_append, Nat.add_sub_cancel]

/-- A delimiter ends the token and is overwritten. -/
theorem strtokR_token (inside : ∀ c ∈ l, c ∈ D) (outside : ∀ c ∈ t, c ∉ D)
    (some_ : t ≠ []) (nul : 0 ∉ l ++ t) (hc : c ∈ D) (c0 : c ≠ 0) (ends : 0 ∈ w) :
    strtokR (u ++ (l ++ (t ++ c :: w))) u.length D =
      .ok (u ++ (l ++ (t ++ 0 :: w)), some (u.length + l.length),
        u.length + l.length + t.length + 1) := by
  obtain ⟨h1, h2, h3⟩ := spans (w := c :: w.takeWhile (· ≠ 0)) inside outside
    (by simpa using hc) some_
  have text : cstr (u ++ (l ++ (t ++ c :: w))) u.length =
      .ok (l ++ (t ++ c :: w.takeWhile (· ≠ 0))) := by
    have h := cstr_append_of_mem (u := u) (s := l ++ t ++ [c]) (w := w)
      (by simpa using ⟨fun h => nul (List.mem_append_left _ h),
        fun h => nul (List.mem_append_right _ h), c0.symm⟩) ends
    simpa using h
  have place : (u ++ (l ++ (t ++ c :: w))).set
      (u.length + l.length + t.length) 0 = u ++ (l ++ (t ++ 0 :: w)) := by
    rw [← List.append_assoc l, ← List.append_assoc u, List.set_append_right _ _ (by simp; omega),
      List.append_assoc, List.append_assoc]
    simp [Nat.add_assoc]
  have start : (l ++ (t ++ c :: w.takeWhile (· ≠ 0))).length -
      (t ++ c :: w.takeWhile (· ≠ 0)).length = l.length := by
    rw [List.length_append, Nat.add_sub_cancel]
  simp only [strtokR, text, bind, Except.bind, pure, Except.pure, h1, start, h2, h3, place,
    List.append_eq_nil_iff, some_, false_and, reduceCtorEq, if_false]

end Tokens

end ComputerNetwork.Lib
