import ComputerNetwork.Lib.LinkedList

/-!
# Lists that share a memory

A family of lists in one memory, each with a head of its own and no cell in common with the others, as
the buckets of a hash table are.  An update of one list leaves the others as they are
(`Chains.update`); `Chains.push`, `Chains.store` and `Chains.remove` are the usual updates.
-/

namespace ComputerNetwork.Lib

/-- The pointers lead from each head through the cells of its list. -/
structure Chains {α ι : Type*} (mem : Memory α) (heads : ι → Option ℕ) (chain : ι → List (ℕ × α)) :
    Prop where
  segment : ∀ i, Segment mem (heads i) (chain i) none
  apart : ∀ i j, i ≠ j → ∀ c ∈ chain i, ∀ d ∈ chain j, c.1 ≠ d.1

namespace Chains

variable {α ι : Type*} [DecidableEq ι] {mem mem' : Memory α} {heads : ι → Option ℕ}
  {chain : ι → List (ℕ × α)} {i : ι} {l m : List (ℕ × α)} {a : ℕ} {v : α} {p : Option ℕ}

omit [DecidableEq ι] in
theorem mem_of_mem (h : Chains mem heads chain) {c : ℕ × α} (member : c ∈ chain i) :
    c.1 ∈ mem := by
  obtain ⟨next, found⟩ := (h.segment i).lookup member
  exact AList.lookup_isSome.1 (Option.isSome_of_mem found)

/-- One list is replaced by cells that it had or that are new. -/
theorem update (h : Chains mem heads chain) (here : Segment mem' p l none)
    (others : ∀ j ≠ i, ∀ c ∈ chain j, mem'.lookup c.1 = mem.lookup c.1)
    (own : ∀ c ∈ l, c.1 ∈ (chain i).map Prod.fst ∨ c.1 ∉ mem) :
    Chains mem' (Function.update heads i p) (Function.update chain i l) := by
  have beside : ∀ j ≠ i, ∀ c ∈ l, ∀ d ∈ chain j, c.1 ≠ d.1 := by
    intro j other c member d member' same
    rcases own c member with old | new
    · obtain ⟨c', inside, eq⟩ := List.mem_map.1 old
      exact h.apart i j other.symm c' inside d member' (eq.trans same)
    · exact new (same ▸ h.mem_of_mem member')
  constructor
  · intro j
    by_cases same : j = i
    · subst same
      rw [Function.update_self, Function.update_self]
      exact here
    · rw [Function.update_of_ne same, Function.update_of_ne same]
      exact (h.segment j).frame (others j same)
  · intro j k distinct c inJ d inK
    by_cases first : j = i
    · subst first
      rw [Function.update_self] at inJ
      rw [Function.update_of_ne distinct.symm] at inK
      exact beside k distinct.symm c inJ d inK
    · rw [Function.update_of_ne first] at inJ
      by_cases second : k = i
      · subst second
        rw [Function.update_self] at inK
        exact (beside j first d inK c inJ).symm
      · rw [Function.update_of_ne second] at inK
        exact h.apart j k distinct c inJ d inK

theorem push (h : Chains mem heads chain) (i : ι) (fresh : a ∉ mem) (v : α) :
    Chains (mem.insert a ⟨v, heads i⟩) (Function.update heads i (some a))
      (Function.update chain i ((a, v) :: chain i)) := by
  apply h.update (segment_push (h.segment i) fresh v)
  · intro j _ c member
    exact AList.lookup_insert_ne fun same => fresh (same ▸ h.mem_of_mem member)
  · intro c member
    rcases List.mem_cons.1 member with rfl | old
    · exact .inr fresh
    · exact .inl (List.mem_map_of_mem old)

theorem store (h : Chains mem heads chain) (split : chain i = l ++ (a, v) :: m) {next : Option ℕ}
    (found : mem.lookup a = some ⟨v, next⟩) (v' : α) :
    Chains (mem.insert a ⟨v', next⟩) heads (Function.update chain i (l ++ (a, v') :: m)) := by
  have kept := segment_store (split ▸ h.segment i) found v'
  rw [← Function.update_eq_self i heads]
  apply h.update kept
  · intro j other c member
    refine AList.lookup_insert_ne fun same => ?_
    exact h.apart i j other.symm (a, v) (by simp [split]) c member same.symm
  · intro c member
    left
    rw [split]
    simp only [List.mem_append, List.mem_cons, List.map_append, List.map_cons,
      List.mem_map] at member ⊢
    rcases member with front | rfl | back
    · exact .inl ⟨c, front, rfl⟩
    · exact .inr (.inl rfl)
    · exact .inr (.inr ⟨c, back, rfl⟩)

theorem remove (h : Chains mem heads chain) (split : chain i = l ++ (a, v) :: m) :
    ∃ mem' p', unlink mem (heads i) (l.getLast?.map Prod.fst) a = some (mem', p') ∧
      Chains (mem'.erase a) (Function.update heads i p') (Function.update chain i (l ++ m)) := by
  have whole : Segment mem (heads i) (l ++ (a, v) :: m) none := split ▸ h.segment i
  obtain ⟨mem', p', unlinked, linked, same, -⟩ := unlink_spec whole
  have distinct := whole.nodup
  rw [List.map_append, List.map_cons] at distinct
  have gone : ∀ c ∈ l ++ m, c.1 ≠ a := by
    intro c member eq
    have kept := (List.nodup_middle.1 distinct)
    rw [List.nodup_cons, ← List.map_append] at kept
    exact kept.1 (List.mem_map.2 ⟨c, member, eq⟩)
  refine ⟨mem', p', unlinked, h.update (linked.frame fun c member => ?_) ?_ ?_⟩
  · exact AList.lookup_erase_ne (gone c member)
  · intro j other c member
    have beside : ∀ d ∈ l ++ (a, v) :: m, d.1 ≠ c.1 := fun d inside =>
      h.apart i j other.symm d (split ▸ inside) c member
    rw [AList.lookup_erase_ne (beside (a, v) (by simp)).symm]
    refine same _ fun again => ?_
    obtain ⟨d, inside, eq⟩ := List.mem_map.1 again
    exact beside d (List.mem_append_left _ inside) eq
  · intro c member
    left
    rw [split]
    refine List.mem_map_of_mem ?_
    rcases List.mem_append.1 member with front | back
    · exact List.mem_append_left _ front
    · exact List.mem_append_right _ (List.mem_cons_of_mem _ back)

end Chains

end ComputerNetwork.Lib
