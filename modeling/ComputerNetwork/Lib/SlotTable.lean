import Mathlib.Tactic

/-!
# Tables of slots

A table is a list whose entries are slots, some of them in use.  A slot that is free is claimed by
storing to it an entry that is in use, and released by storing one that is not.  The lemmas say what
either does to the number of slots in use and to the keys of the slots in use.
-/

namespace ComputerNetwork.Lib

section SlotTable

variable {α κ : Type*} {used : α → Prop} {l : List α} {i : ℕ} {x y : α}

/-- The slots in use have different keys. -/
def DistinctOn (used : α → Prop) (key : α → κ) (l : List α) : Prop :=
  ∀ (i j : ℕ) x y, l[i]? = some x → l[j]? = some y → used x → used y → key x = key y → i = j

theorem getElem?_set_cases {a : α} {j : ℕ} (get : (l.set i a)[j]? = some x) :
    (j = i ∧ x = a) ∨ (j ≠ i ∧ l[j]? = some x) := by
  rw [List.getElem?_set] at get
  split_ifs at get with same long
  · exact Or.inl ⟨same.symm, (Option.some.inj get).symm⟩
  · exact Or.inr ⟨Ne.symm same, get⟩

theorem lt_length_of_getElem? (get : l[i]? = some x) : i < l.length :=
  (List.getElem?_eq_some_iff.1 get).1

theorem getElem?_set_of_getElem? {a : α} (get : l[i]? = some x) : (l.set i a)[i]? = some a := by
  rw [List.getElem?_set_self (lt_length_of_getElem? get)]

theorem getElem?_claim {j : ℕ} {z : α} (get : l[i]? = some x) (free : ¬ used x)
    (other : l[j]? = some z) (usedZ : used z) : (l.set i y)[j]? = some z := by
  rw [List.getElem?_set_ne, other]
  rintro rfl
  rw [get] at other
  exact free (Option.some.inj other ▸ usedZ)

theorem getElem?_release {j : ℕ} {z : α} (free : ¬ used y) (get : (l.set i y)[j]? = some z)
    (usedZ : used z) : j ≠ i ∧ l[j]? = some z := by
  rcases getElem?_set_cases get with ⟨-, rfl⟩ | old
  · exact absurd usedZ free
  · exact old

theorem getElem?_resize {n m j : ℕ} {z : α} (free : ¬ used y)
    (get : (l.take n ++ List.replicate m y)[j]? = some z) (usedZ : used z) : l[j]? = some z := by
  rw [List.getElem?_append] at get
  split_ifs at get with low
  · rwa [List.getElem?_take_of_lt (by rw [List.length_take] at low; omega)] at get
  · rw [List.getElem?_replicate] at get
    split_ifs at get
    exact absurd (Option.some.inj get ▸ usedZ) free

/-- The slots in use are below `n` if none of the others is in use. -/
theorem forall_drop_iff {n : ℕ} :
    (∀ x ∈ l.drop n, ¬ used x) ↔ ∀ (i : ℕ) x, l[i]? = some x → used x → i < n := by
  constructor
  · intro free i x get usedX
    by_contra high
    refine free x (List.mem_of_getElem? (i := i - n) ?_) usedX
    rw [List.getElem?_drop, Nat.add_sub_cancel' (by omega), get]
  · intro below x mem usedX
    obtain ⟨i, get⟩ := List.mem_iff_getElem?.1 mem
    rw [List.getElem?_drop] at get
    have := below _ x get usedX
    omega

theorem DistinctOn.claim {key : α → κ} (distinct : DistinctOn used key l)
    (fresh : ∀ z ∈ l, used z → key z ≠ key y) : DistinctOn used key (l.set i y) := by
  intro j k a b getA getB usedA usedB same
  rcases getElem?_set_cases getA with ⟨rfl, rfl⟩ | ⟨-, oldA⟩
  · rcases getElem?_set_cases getB with ⟨rfl, rfl⟩ | ⟨-, oldB⟩
    · rfl
    · exact absurd same.symm (fresh b (List.mem_of_getElem? oldB) usedB)
  · rcases getElem?_set_cases getB with ⟨rfl, rfl⟩ | ⟨-, oldB⟩
    · exact absurd same (fresh a (List.mem_of_getElem? oldA) usedA)
    · exact distinct _ _ _ _ oldA oldB usedA usedB same

theorem DistinctOn.release {key : α → κ} (distinct : DistinctOn used key l) (free : ¬ used y) :
    DistinctOn used key (l.set i y) := by
  intro j k a b getA getB usedA usedB same
  exact distinct _ _ _ _ (getElem?_release free getA usedA).2 (getElem?_release free getB usedB).2
    usedA usedB same

theorem DistinctOn.take {key : α → κ} (distinct : DistinctOn used key l) (n : ℕ) :
    DistinctOn used key (l.take n) := by
  have old : ∀ {j : ℕ} {a : α}, (l.take n)[j]? = some a → l[j]? = some a := by
    intro j a get
    have short := lt_length_of_getElem? get
    rw [List.length_take] at short
    rwa [List.getElem?_take_of_lt (by omega)] at get
  intro j k a b getA getB usedA usedB same
  exact distinct _ _ _ _ (old getA) (old getB) usedA usedB same

theorem DistinctOn.resize {key : α → κ} (distinct : DistinctOn used key l) (n m : ℕ)
    (free : ¬ used y) : DistinctOn used key (l.take n ++ List.replicate m y) := by
  intro j k a b getA getB usedA usedB same
  exact distinct _ _ _ _ (getElem?_resize free getA usedA) (getElem?_resize free getB usedB)
    usedA usedB same

variable [DecidablePred used]

theorem countP_claim (get : l[i]? = some x) (free : ¬ used x) (claim : used y) :
    (l.set i y).countP (fun z => used z) = l.countP (fun z => used z) + 1 := by
  obtain ⟨long, rfl⟩ := List.getElem?_eq_some_iff.1 get
  rw [List.countP_set long]
  simp [free, claim]

theorem countP_release (get : l[i]? = some x) (claim : used x) (free : ¬ used y) :
    (l.set i y).countP (fun z => used z) = l.countP (fun z => used z) - 1 := by
  obtain ⟨long, rfl⟩ := List.getElem?_eq_some_iff.1 get
  rw [List.countP_set long]
  simp [free, claim]

theorem countP_take (n : ℕ) (below : ∀ (i : ℕ) x, l[i]? = some x → used x → i < n) :
    (l.take n).countP (fun z => used z) = l.countP (fun z => used z) := by
  have behind : (l.drop n).countP (fun z => used z) = 0 := by
    rw [List.countP_eq_zero]
    intro z mem
    rw [decide_eq_true_eq]
    exact forall_drop_iff.2 below z mem
  conv_rhs => rw [← List.take_append_drop n l, List.countP_append, behind, Nat.add_zero]

/-- With fewer slots in use than there are, a search for a free one succeeds. -/
theorem exists_free (p : α → Bool) (test : ∀ z ∈ l, p z = true ↔ ¬ used z)
    (few : l.countP (fun z => used z) < l.length) :
    ∃ k x, l.findIdx? p = some k ∧ l[k]? = some x ∧ ¬ used x := by
  rcases found : l.findIdx? p with _ | k
  · rw [List.findIdx?_eq_none_iff] at found
    have all : l.countP (fun z => used z) = l.length := by
      rw [List.countP_eq_length]
      intro z mem
      rw [decide_eq_true_eq]
      by_contra free
      simpa [(test z mem).2 free] using found z mem
    omega
  · obtain ⟨long, free, -⟩ := List.findIdx?_eq_some_iff_getElem.1 found
    exact ⟨k, l[k], rfl, List.getElem?_eq_getElem long, (test _ (List.getElem_mem long)).1 free⟩

omit [DecidablePred used] in
/-- The search for a key that a slot in use has finds that slot. -/
theorem findIdx?_of_distinct [DecidableEq κ] {key : α → κ} (distinct : DistinctOn used key l)
    (get : l[i]? = some x) (all : ∀ z ∈ l, key z = key x → used z) :
    l.findIdx? (fun z => key z = key x) = some i := by
  rcases found : l.findIdx? (fun z => decide (key z = key x)) with _ | k
  · rw [List.findIdx?_eq_none_iff] at found
    simpa using found x (List.mem_of_getElem? get)
  · obtain ⟨long, same, -⟩ := List.findIdx?_eq_some_iff_getElem.1 found
    rw [decide_eq_true_eq] at same
    have usedX := all x (List.mem_of_getElem? get) rfl
    have usedK := all _ (List.getElem_mem long) same
    rw [distinct _ _ _ _ (List.getElem?_eq_getElem long) get usedK usedX same]

end SlotTable

end ComputerNetwork.Lib
