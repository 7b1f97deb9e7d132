import ComputerNetwork.Lib.Bytes

/-!
# Packed structures

A buffer that holds the fields of a packed structure one behind the other.  `Laid sizes fields b` says
that `b` is made of the fields, which have the given sizes; a store to one field leaves the others
(`Laid.store`), so that a program that fills a buffer can be followed field by field.
-/

namespace ComputerNetwork.Lib

/-- The buffer is the fields, one behind the other. -/
structure Laid (sizes : List ℕ) (fields : List (List UInt8)) (b : List UInt8) : Prop where
  sized : fields.map List.length = sizes
  flat : fields.flatten = b

/-- A buffer, cut into fields. -/
def cut : List ℕ → List UInt8 → List (List UInt8)
  | [], _ => []
  | n :: sizes, b => b.take n :: cut sizes (b.drop n)

section Layout

variable {sizes : List ℕ} {fields : List (List UInt8)} {b : List UInt8}

theorem laid_cut (length : b.length = sizes.sum) : Laid sizes (cut sizes b) b := by
  induction sizes generalizing b with
  | nil => exact ⟨rfl, (List.length_eq_zero_iff.1 length).symm⟩
  | cons n sizes ih =>
      rw [List.sum_cons] at length
      have rest := ih (b := b.drop n) (by rw [List.length_drop]; omega)
      constructor
      · rw [cut, List.map_cons, rest.sized, List.length_take, min_eq_left (by omega)]
      · rw [cut, List.flatten_cons, rest.flat, List.take_append_drop]

theorem Laid.length (laid : Laid sizes fields b) : b.length = sizes.sum := by
  rw [← laid.flat, List.length_flatten, laid.sized]

theorem Laid.tail (laid : Laid sizes fields b) (k : ℕ) {i : ℕ} (place : (sizes.take k).sum = i) :
    b.drop i = (fields.drop k).flatten := by
  have front : (fields.take k).flatten.length = i := by
    rw [List.length_flatten, List.map_take, laid.sized, place]
  rw [← laid.flat, ← List.take_append_drop k fields, List.flatten_append, List.drop_left' front,
    List.take_append_drop]

theorem Laid.slice (laid : Laid sizes fields b) (k j : ℕ) {i n : ℕ} (place : (sizes.take k).sum = i)
    (size : ((sizes.drop k).take j).sum = n) :
    (b.drop i).take n = ((fields.drop k).take j).flatten := by
  have middle : ((fields.drop k).take j).flatten.length = n := by
    rw [List.length_flatten, List.map_take, List.map_drop, laid.sized, size]
  have parts : (fields.drop k).flatten =
      ((fields.drop k).take j).flatten ++ ((fields.drop k).drop j).flatten := by
    rw [← List.flatten_append, List.take_append_drop]
  rw [laid.tail k place, parts, List.take_left' middle]

theorem Laid.field (laid : Laid sizes fields b) (k : ℕ) {f : List UInt8} {i n : ℕ}
    (place : (sizes.take k).sum = i) (field : fields[k]? = some f) (size : f.length = n) :
    (b.drop i).take n = f := by
  have one : (fields.drop k).take 1 = [f] := by
    rw [List.take_one, List.head?_drop, field, Option.toList_some]
  have length : ((sizes.drop k).take 1).sum = n := by
    rw [← laid.sized, ← List.map_drop, ← List.map_take, one, ← size]
    simp
  rw [laid.slice k 1 place length, one, List.flatten_singleton]

theorem Laid.same {fields' : List (List UInt8)} {b' : List UInt8} (laid : Laid sizes fields b)
    (laid' : Laid sizes fields' b') (k j : ℕ) {i n : ℕ} (place : (sizes.take k).sum = i)
    (size : ((sizes.drop k).take j).sum = n)
    (same : (fields.drop k).take j = (fields'.drop k).take j) :
    (b.drop i).take n = (b'.drop i).take n := by
  rw [laid.slice k j place size, laid'.slice k j place size, same]

theorem Laid.store (laid : Laid sizes fields b) (k : ℕ) (new : List UInt8) {i : ℕ}
    (place : (sizes.take k).sum = i) (size : sizes[k]? = some new.length) :
    Laid sizes (fields.set k new) (splice b i new) := by
  induction k generalizing sizes fields b i with
  | zero =>
      obtain ⟨rfl, rfl⟩ := laid
      cases fields with
      | nil => cases size
      | cons f fields =>
          have same : f.length = new.length := Option.some.inj size
          constructor
          · rw [List.set_cons_zero, List.map_cons, List.map_cons, same]
          · rw [List.set_cons_zero, List.flatten_cons, List.flatten_cons, ← place,
              List.take_zero, List.sum_nil, splice, List.take_zero, List.nil_append, Nat.zero_add,
              ← same, List.drop_left]
  | succ k ih =>
      obtain ⟨rfl, rfl⟩ := laid
      cases fields with
      | nil => cases size
      | cons f fields =>
          rw [List.map_cons, List.take_succ_cons, List.sum_cons] at place
          have rest := ih ⟨rfl, rfl⟩ (i := ((fields.map List.length).take k).sum) rfl
            (by simpa using size)
          constructor
          · rw [List.set_cons_succ, List.map_cons, List.map_cons, rest.sized]
          · rw [List.set_cons_succ, List.flatten_cons, List.flatten_cons, rest.flat, ← place,
              splice_append_right]

end Layout

end ComputerNetwork.Lib
