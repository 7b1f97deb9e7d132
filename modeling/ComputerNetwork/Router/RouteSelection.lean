import Mathlib.Data.List.MinMax
import ComputerNetwork.Router.ArpCache

/-!
# The selection of a route

What the scan of `routeMatch` selects.  An entry covers an address when the masked address is its
destination; among the covering entries the scan takes the first with the greatest mask, where the
masks are compared as the numbers a little-endian host sees.  A mask with more bits is greater in any
byte order, so the selected entry is a longest match.
-/

namespace ComputerNetwork.Router

open Lib

/-- `(address & mask) == dest`. -/
def SrRt.Covers (rt : SrRt) (ip : UInt32) : Prop := rt.mask &&& ip = rt.dest

instance (rt : SrRt) (ip : UInt32) : Decidable (rt.Covers ip) :=
  inferInstanceAs (Decidable (_ = _))

/-- `a` has all the bits of `b`, and more. -/
def StrictlyContains (a b : UInt32) : Prop := a &&& b = b ∧ a ≠ b

/-- The first of the longest matches that the scan can see: it starts from the mask zero, and so
passes over the entries with this mask. -/
def longestMatch (table : List SrRt) (ip : UInt32) : Option SrRt :=
  (table.filter fun rt => rt.Covers ip ∧ rt.mask ≠ 0).argmax fun rt => rt.mask.toNat

/-! ## Masks -/

theorem StrictlyContains.lt {a b : UInt32} (more : StrictlyContains a b) : b.toNat < a.toNat := by
  have le : b.toNat ≤ a.toNat := by
    rw [← more.1, UInt32.toNat_and]
    exact Nat.and_le_left
  exact lt_of_le_of_ne le fun same => more.2 (UInt32.toNat_inj.1 same.symm)

theorem StrictlyContains.trans {a b c : UInt32} (ab : StrictlyContains a b)
    (bc : StrictlyContains b c) : StrictlyContains a c := by
  constructor
  · calc a &&& c = a &&& (b &&& c) := by rw [bc.1]
      _ = (a &&& b) &&& c := (UInt32.and_assoc a b c).symm
      _ = c := by rw [ab.1, bc.1]
  · rintro rfl
    exact (ab.lt.trans bc.lt).false

/-- The mask of a prefix of `n` bits: a number in network order, as a little-endian host sees it. -/
def prefixMask (n : ℕ) : UInt32 := loadLE32 (bytesBE32 (UInt32.ofNat (2 ^ 32 - 2 ^ (32 - n)))) 0

theorem strictlyContains_prefixMask_succ :
    ∀ n < 32, StrictlyContains (prefixMask (n + 1)) (prefixMask n) := by
  unfold StrictlyContains
  decide

/-- The mask of a longer prefix has more bits, although its bytes are swapped. -/
theorem strictlyContains_prefixMask {n k : ℕ} (longer : n < k) (bound : k ≤ 32) :
    StrictlyContains (prefixMask k) (prefixMask n) := by
  induction k, longer using Nat.le_induction with
  | base => exact strictlyContains_prefixMask_succ n bound
  | succ k _ ih =>
      exact (strictlyContains_prefixMask_succ k bound).trans (ih (Nat.le_of_succ_le bound))

/-! ## The scan -/

theorem longestMatch_concat (table : List SrRt) (rt : SrRt) (ip : UInt32) :
    longestMatch (table ++ [rt]) ip =
      if rt.Covers ip ∧ ((longestMatch table ip).elim 0 fun best => best.mask.toNat) < rt.mask.toNat
      then some rt else longestMatch table ip := by
  unfold longestMatch
  rw [List.filter_append]
  by_cases seen : rt.Covers ip ∧ rt.mask ≠ 0
  · have only : [rt].filter (fun rt => rt.Covers ip ∧ rt.mask ≠ 0) = [rt] := by simp [seen]
    have pos : 0 < rt.mask.toNat :=
      Nat.pos_of_ne_zero fun zero => seen.2 (UInt32.toNat_inj.1 zero)
    rw [only, List.argmax_concat]
    cases (table.filter fun rt => rt.Covers ip ∧ rt.mask ≠ 0).argmax fun rt => rt.mask.toNat with
    | none => exact (if_pos ⟨seen.1, pos⟩).symm
    | some best => simp [seen.1]
  · have unseen : [rt].filter (fun rt => rt.Covers ip ∧ rt.mask ≠ 0) = [] := by simp [seen]
    rw [unseen, List.append_nil, if_neg]
    rintro ⟨covers, more⟩
    exact seen ⟨covers, fun zero => by simp [zero] at more⟩

/-- The scan selects the first longest match. -/
theorem routeMatch_eq_longestMatch (table : List SrRt) (ip : UInt32) :
    routeMatch table ip = longestMatch table ip := by
  -- `l_match` is the mask of the entry that is the best so far
  have scan : table.foldl (fun (best : ℕ × Option SrRt) rt =>
      if rt.mask &&& ip = rt.dest ∧ best.1 < rt.mask.toNat then (rt.mask.toNat, some rt) else best)
      (0, none) =
      ((longestMatch table ip).elim 0 fun rt => rt.mask.toNat, longestMatch table ip) := by
    induction table using List.reverseRecOn with
    | nil => rfl
    | append_singleton table rt ih =>
        rw [List.foldl_append, ih, longestMatch_concat, List.foldl_cons, List.foldl_nil]
        by_cases better : rt.Covers ip ∧
            ((longestMatch table ip).elim 0 fun best => best.mask.toNat) < rt.mask.toNat
        · rw [if_pos better]
          exact if_pos better
        · rw [if_neg better]
          exact if_neg better
  exact congrArg Prod.snd scan

theorem routeMatch_mem {table : List SrRt} {ip : UInt32} {rt : SrRt}
    (selected : routeMatch table ip = some rt) : rt ∈ table ∧ rt.Covers ip ∧ rt.mask ≠ 0 := by
  rw [routeMatch_eq_longestMatch] at selected
  simpa using List.mem_filter.1 (List.argmax_mem selected)

/-- No entry that covers the address has a greater mask. -/
theorem mask_le_of_routeMatch {table : List SrRt} {ip : UInt32} {rt r : SrRt}
    (selected : routeMatch table ip = some rt) (mem : r ∈ table) (covers : r.Covers ip) :
    r.mask.toNat ≤ rt.mask.toNat := by
  by_cases zero : r.mask = 0
  · simp [zero]
  · rw [routeMatch_eq_longestMatch] at selected
    have seen : r ∈ table.filter fun rt => rt.Covers ip ∧ rt.mask ≠ 0 :=
      List.mem_filter.2 ⟨mem, by simp [covers, zero]⟩
    exact List.le_of_mem_argmax (f := fun rt : SrRt => rt.mask.toNat) seen selected

/-- No entry in front of the selected one covers the address with the same mask. -/
theorem first_of_routeMatch {table : List SrRt} {ip : UInt32} {rt : SrRt}
    (selected : routeMatch table ip = some rt) :
    ∃ pre post, table = pre ++ rt :: post ∧ ∀ r ∈ pre, r.Covers ip → r.mask ≠ rt.mask := by
  have seen := routeMatch_mem selected
  rw [routeMatch_eq_longestMatch] at selected
  obtain ⟨pre, post, rfl, later⟩ := List.eq_append_cons_of_mem seen.1
  refine ⟨pre, post, rfl, fun r mem covers same => ?_⟩
  have mem' : r ∈ pre.filter fun rt => rt.Covers ip ∧ rt.mask ≠ 0 :=
    List.mem_filter.2 ⟨mem, by simp [covers, same, seen.2.2]⟩
  have earlier := (List.argmax_eq_some_iff.1 selected).2.2 r
    (by rw [List.filter_append]; exact List.mem_append_left _ mem') (by rw [same])
  rw [List.filter_append, List.idxOf_append_of_mem mem',
    List.idxOf_append_of_notMem fun mem => later (List.mem_filter.1 mem).1] at earlier
  exact absurd (List.idxOf_lt_length_of_mem mem') (by omega)

/-- The selected entry is in the table and covers the address; no other that does has a mask with
more bits, hence none is for a longer prefix; and it is the first with its mask. -/
theorem routeMatch_sound {table : List SrRt} {ip : UInt32} {rt : SrRt}
    (selected : routeMatch table ip = some rt) :
    rt ∈ table ∧ rt.Covers ip ∧
      (∀ r ∈ table, r.Covers ip → ¬ StrictlyContains r.mask rt.mask) ∧
      (∀ n k, k ≤ 32 → rt.mask = prefixMask n →
        ∀ r ∈ table, r.Covers ip → r.mask = prefixMask k → k ≤ n) ∧
      ∃ pre post, table = pre ++ rt :: post ∧ ∀ r ∈ pre, r.Covers ip → r.mask ≠ rt.mask := by
  have greatest := fun r mem covers => mask_le_of_routeMatch (r := r) selected mem covers
  refine ⟨(routeMatch_mem selected).1, (routeMatch_mem selected).2.1, fun r mem covers more => ?_,
    fun n k bound mask r mem covers mask' => ?_, first_of_routeMatch selected⟩
  · exact absurd more.lt (greatest r mem covers).not_gt
  · by_contra longer
    have more := strictlyContains_prefixMask (Nat.lt_of_not_le longer) bound
    rw [← mask, ← mask'] at more
    exact absurd more.lt (greatest r mem covers).not_gt

/-- Routes to 10.0.0.0/8 and to 10.1.0.0/16. -/
def nestedRoutes : List SrRt :=
  [⟨0x0000000a, 0x0100000a, prefixMask 8, [101, 48]⟩,
    ⟨0x0000010a, 0x0101000a, prefixMask 16, [101, 49]⟩]

theorem routeMatch_sound_nestedRoutes :
    routeMatch nestedRoutes 0x0302010a = some ⟨0x0000010a, 0x0101000a, prefixMask 16, [101, 49]⟩ ∧
      ∀ r ∈ nestedRoutes, r.Covers 0x0302010a → ¬ StrictlyContains r.mask (prefixMask 16) := by
  have selected : routeMatch nestedRoutes 0x0302010a =
      some ⟨0x0000010a, 0x0101000a, prefixMask 16, [101, 49]⟩ := by decide
  exact ⟨selected, (routeMatch_sound selected).2.2.1⟩

end ComputerNetwork.Router
