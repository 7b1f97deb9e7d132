import Mathlib.Data.List.AList
import Mathlib.Tactic

/-!
# Singly linked lists in memory

A memory of cells that hold a value and a pointer to the next cell.  `Segment mem p l q` says that
the pointers lead from `p` through the cells `l` to `q`; a list ends in the null pointer.  A list has
no address twice (`Segment.nodup`), so a walk over it ends (`walk_of_forall`, `walk_of_find`).
`segment_push`, `segment_store` and `unlink_spec` say what the usual updates do to it.
-/

namespace ComputerNetwork.Lib

universe u

/-- A list cell. -/
structure Cell (α : Type u) where
  val : α
  next : Option ℕ

/-- The allocated cells. -/
abbrev Memory (α : Type u) := AList fun _ : ℕ => Cell α

section

variable {α : Type u} {mem mem' : Memory α} {p q r : Option ℕ} {l m : List (ℕ × α)}

/-! ## Segments -/

/-- The pointers lead from `p` through the cells of the list to `q`. -/
def Segment (mem : Memory α) : Option ℕ → List (ℕ × α) → Option ℕ → Prop
  | p, [], q => p = q
  | p, (a, v) :: rest, q =>
      p = some a ∧ ∃ next, mem.lookup a = some ⟨v, next⟩ ∧ Segment mem next rest q

theorem segment_append : Segment mem p (l ++ m) q ↔ ∃ r, Segment mem p l r ∧ Segment mem r m q := by
  induction l generalizing p with
  | nil => simp [Segment]
  | cons cell rest ih =>
    obtain ⟨a, v⟩ := cell
    constructor
    · rintro ⟨here, next, found, behind⟩
      obtain ⟨r, front, back⟩ := ih.1 behind
      exact ⟨r, ⟨here, next, found, front⟩, back⟩
    · rintro ⟨r, ⟨here, next, found, front⟩, back⟩
      exact ⟨here, next, found, ih.2 ⟨r, front, back⟩⟩

/-- A segment depends on its own cells only. -/
theorem Segment.frame (h : Segment mem p l q)
    (same : ∀ cell ∈ l, mem'.lookup cell.1 = mem.lookup cell.1) : Segment mem' p l q := by
  induction l generalizing p with
  | nil => exact h
  | cons cell rest ih =>
    obtain ⟨a, v⟩ := cell
    obtain ⟨here, next, found, behind⟩ := h
    exact ⟨here, next, (same _ (List.mem_cons_self ..)).trans found,
      ih behind fun cell mem => same cell (List.mem_cons_of_mem _ mem)⟩

theorem Segment.lookup (h : Segment mem p l q) {a : ℕ} {v : α} (member : (a, v) ∈ l) :
    ∃ next, mem.lookup a = some ⟨v, next⟩ := by
  obtain ⟨front, back, rfl⟩ := List.append_of_mem member
  obtain ⟨r, -, -, next, found, -⟩ := segment_append.1 h
  exact ⟨next, found⟩

/-- A list is determined by the pointer to its first cell. -/
theorem Segment.unique (h : Segment mem p l none) (h' : Segment mem p m none) : l = m := by
  induction l generalizing p m with
  | nil =>
    cases m with
    | nil => rfl
    | cons cell rest => exact absurd (h.symm.trans h'.1) (by simp)
  | cons cell rest ih =>
    cases m with
    | nil => exact absurd (h'.symm.trans h.1) (by simp)
    | cons cell' rest' =>
      obtain ⟨here, next, found, behind⟩ := h
      obtain ⟨here', next', found', behind'⟩ := h'
      obtain ⟨a, v⟩ := cell
      obtain ⟨a', v'⟩ := cell'
      obtain rfl : a = a' := Option.some.inj (here.symm.trans here')
      obtain ⟨rfl, rfl⟩ := Cell.mk.inj (Option.some.inj (found.symm.trans found'))
      rw [ih behind behind']

/-- No cell of a list comes back behind itself: the two lists that begin there would differ in
length. -/
theorem Segment.nodup (h : Segment mem p l none) : (l.map Prod.fst).Nodup := by
  induction l generalizing p with
  | nil => exact List.nodup_nil
  | cons cell rest ih =>
    obtain ⟨a, v⟩ := cell
    obtain ⟨here, next, found, behind⟩ := h
    rw [List.map_cons, List.nodup_cons]
    refine ⟨fun again => ?_, ih behind⟩
    obtain ⟨⟨a', v'⟩, member, rfl⟩ := List.mem_map.1 again
    obtain ⟨front, back, rfl⟩ := List.append_of_mem member
    obtain ⟨r, -, there⟩ := segment_append.1 behind
    have whole : Segment mem (some a') ((a', v) :: (front ++ (a', v') :: back)) none :=
      ⟨rfl, next, found, behind⟩
    have same := congrArg List.length (whole.unique (there.1 ▸ there))
    simp at same
    omega

theorem Segment.length_le (h : Segment mem p l none) : l.length ≤ mem.keys.length := by
  have subset : l.map Prod.fst ⊆ mem.keys := by
    intro a member
    obtain ⟨⟨a', v⟩, inList, rfl⟩ := List.mem_map.1 member
    obtain ⟨next, found⟩ := h.lookup inList
    exact AList.mem_keys.1 (AList.lookup_isSome.1 (Option.isSome_of_mem found))
  simpa using (h.nodup.subperm subset).length_le

/-! ## Walks -/

/-- Follow the pointers from `p` until a cell meets `stop`, with the cell before it.  There is no
result when a pointer leads to no cell. -/
def walkFrom (mem : Memory α) (stop : ℕ → α → Bool) :
    ℕ → Option ℕ → Option ℕ → Option (Option ℕ × Option ℕ)
  | _, prev, none => some (prev, none)
  | 0, _, some _ => none
  | fuel + 1, prev, some a =>
    match mem.lookup a with
    | none => none
    | some cell => if stop a cell.val then some (prev, some a) else walkFrom mem stop fuel (some a) cell.next

/-- The walk of a loop over a list. -/
def walk (mem : Memory α) (stop : ℕ → α → Bool) (head : Option ℕ) : Option (Option ℕ × Option ℕ) :=
  walkFrom mem stop mem.keys.length none head

theorem walkFrom_append (stop : ℕ → α → Bool) {fuel : ℕ} {prev : Option ℕ}
    (h : Segment mem p l q) (pass : ∀ cell ∈ l, stop cell.1 cell.2 = false) :
    walkFrom mem stop (l.length + fuel) prev p =
      walkFrom mem stop fuel ((l.getLast?.map Prod.fst).or prev) q := by
  induction l generalizing p prev with
  | nil => simp [show p = q from h]
  | cons cell rest ih =>
    obtain ⟨a, v⟩ := cell
    obtain ⟨rfl, next, found, behind⟩ := h
    rw [List.length_cons, Nat.add_right_comm, walkFrom, found]
    dsimp only
    rw [if_neg (by simpa using pass _ (List.mem_cons_self ..)),
      ih behind fun cell member => pass cell (List.mem_cons_of_mem _ member)]
    congr 1
    rcases List.eq_nil_or_concat rest with rfl | ⟨rest', cell', rfl⟩
    · simp
    · rw [List.concat_eq_append, ← List.cons_append, List.getLast?_concat, List.getLast?_concat]
      rfl

theorem walk_of_forall (stop : ℕ → α → Bool) (h : Segment mem p l none)
    (pass : ∀ cell ∈ l, stop cell.1 cell.2 = false) :
    ∃ prev, walk mem stop p = some (prev, none) := by
  obtain ⟨fuel, enough⟩ := Nat.exists_eq_add_of_le h.length_le
  refine ⟨(l.getLast?.map Prod.fst).or none, ?_⟩
  rw [walk, enough, walkFrom_append stop h pass]
  cases fuel <;> rfl

theorem walk_of_find (stop : ℕ → α → Bool) {a : ℕ} {v : α}
    (h : Segment mem p (l ++ (a, v) :: m) none) (pass : ∀ cell ∈ l, stop cell.1 cell.2 = false)
    (hit : stop a v = true) : walk mem stop p = some (l.getLast?.map Prod.fst, some a) := by
  obtain ⟨fuel, enough⟩ := Nat.exists_eq_add_of_le h.length_le
  obtain ⟨r, front, rfl, next, found, -⟩ := segment_append.1 h
  rw [List.length_append, List.length_cons, Nat.add_assoc, Nat.add_right_comm] at enough
  rw [walk, enough, walkFrom_append stop front pass, walkFrom, found]
  simp [hit]

/-! ## Updates -/

theorem segment_push (h : Segment mem p l none) {a : ℕ} (fresh : a ∉ mem) (v : α) :
    Segment (mem.insert a ⟨v, p⟩) (some a) ((a, v) :: l) none := by
  refine ⟨rfl, p, AList.lookup_insert mem, h.frame fun cell member => ?_⟩
  refine AList.lookup_insert_ne fun same => fresh ?_
  obtain ⟨next, found⟩ := h.lookup member
  rw [same] at found
  exact AList.lookup_isSome.1 (Option.isSome_of_mem found)

theorem segment_push_back {t a : ℕ} {v : α} (h : Segment mem p (l ++ [(t, v)]) none)
    (fresh : a ∉ mem) (w : α) :
    Segment ((mem.insert a ⟨w, none⟩).insert t ⟨v, some a⟩) p (l ++ [(t, v), (a, w)]) none := by
  have distinct := h.nodup
  rw [List.map_append, List.map_cons, List.nodup_append] at distinct
  obtain ⟨-, -, before⟩ := distinct
  have old : ∀ cell ∈ l ++ [(t, v)], cell.1 ≠ a := by
    rintro cell member rfl
    obtain ⟨next, found⟩ := h.lookup member
    exact fresh (AList.lookup_isSome.1 (Option.isSome_of_mem found))
  obtain ⟨r, front, rfl, -⟩ := segment_append.1 h
  refine segment_append.2 ⟨some t, front.frame fun cell member => ?_, rfl, some a,
    AList.lookup_insert _, rfl, none, ?_, rfl⟩
  · have apart := before _ (List.mem_map_of_mem member) _ (List.mem_cons_self ..)
    rw [AList.lookup_insert_ne apart,
      AList.lookup_insert_ne (old cell (List.mem_append_left _ member))]
  · have apart := old (t, v) (List.mem_append_right _ (List.mem_cons_self ..))
    rw [AList.lookup_insert_ne apart.symm, AList.lookup_insert]

theorem segment_pop {a : ℕ} {v : α} {next : Option ℕ} (h : Segment mem p ((a, v) :: l) none)
    (found : mem.lookup a = some ⟨v, next⟩) : Segment (mem.erase a) next l none := by
  have distinct := h.nodup
  rw [List.map_cons, List.nodup_cons] at distinct
  obtain ⟨rfl, next', found', behind⟩ := h
  obtain ⟨-, rfl⟩ := Cell.mk.inj (Option.some.inj (found.symm.trans found'))
  refine behind.frame fun cell member => AList.lookup_erase_ne fun same => distinct.1 ?_
  exact List.mem_map.2 ⟨cell, member, same⟩

theorem segment_store {a : ℕ} {v : α} {next : Option ℕ}
    (h : Segment mem p (l ++ (a, v) :: m) none) (found : mem.lookup a = some ⟨v, next⟩) (v' : α) :
    Segment (mem.insert a ⟨v', next⟩) p (l ++ (a, v') :: m) none := by
  have distinct := h.nodup
  rw [List.map_append, List.map_cons, List.nodup_append, List.nodup_cons] at distinct
  obtain ⟨-, ⟨behind, -⟩, before⟩ := distinct
  obtain ⟨r, front, rfl, next', found', back⟩ := segment_append.1 h
  obtain ⟨-, rfl⟩ := Cell.mk.inj (Option.some.inj (found.symm.trans found'))
  refine segment_append.2 ⟨some a, front.frame fun cell member => ?_, rfl, next,
    AList.lookup_insert mem, back.frame fun cell member => ?_⟩
  · exact AList.lookup_insert_ne (before _ (List.mem_map_of_mem member) _ (List.mem_cons_self ..))
  · refine AList.lookup_insert_ne fun same => behind ?_
    exact List.mem_map.2 ⟨cell, member, same⟩

/-- Take the cell `a` out of the list: the pointer in the cell before it, or the head, skips it. -/
def unlink (mem : Memory α) (head prev : Option ℕ) (a : ℕ) : Option (Memory α × Option ℕ) :=
  match mem.lookup a with
  | none => none
  | some cell =>
    match prev with
    | none => some (mem, cell.next)
    | some b =>
      match mem.lookup b with
      | none => none
      | some before => some (mem.insert b { before with next := cell.next }, head)

theorem unlink_spec {a : ℕ} {v : α} (h : Segment mem p (l ++ (a, v) :: m) none) :
    ∃ mem' p', unlink mem p (l.getLast?.map Prod.fst) a = some (mem', p') ∧
      Segment mem' p' (l ++ m) none ∧ (∀ b ∉ l.map Prod.fst, mem'.lookup b = mem.lookup b) ∧
      ∀ b, b ∈ mem' ↔ b ∈ mem := by
  have distinct := h.nodup
  obtain ⟨r, front, rfl, next, found, back⟩ := segment_append.1 h
  rcases List.eq_nil_or_concat l with rfl | ⟨l, ⟨b, w⟩, rfl⟩
  · refine ⟨mem, next, ?_, back, fun _ _ => rfl, fun _ => Iff.rfl⟩
    simp [unlink, found]
  · rw [List.concat_eq_append] at front distinct ⊢
    obtain ⟨r, start, rfl, next', found', -⟩ := segment_append.1 front
    rw [List.append_assoc, List.map_append, List.nodup_append] at distinct
    obtain ⟨-, later, apart⟩ := distinct
    have before : ∀ cell ∈ l, cell.1 ≠ b := fun cell member =>
      apart _ (List.mem_map_of_mem member) _ (List.mem_cons_self ..)
    have behind : ∀ cell ∈ m, cell.1 ≠ b := fun cell member same =>
      (List.nodup_cons.1 later).1 (List.mem_cons_of_mem _ (List.mem_map.2 ⟨cell, member, same⟩))
    refine ⟨mem.insert b ⟨w, next⟩, p, by simp [unlink, found, found'], ?_, ?_, ?_⟩
    · rw [List.append_assoc]
      refine segment_append.2 ⟨some b, start.frame fun cell member => ?_, rfl, next,
        AList.lookup_insert mem, back.frame fun cell member => ?_⟩
      · exact AList.lookup_insert_ne (before cell member)
      · exact AList.lookup_insert_ne (behind cell member)
    · intro c other
      refine AList.lookup_insert_ne fun same => other ?_
      simp [same]
    · intro c
      rw [AList.mem_insert, or_iff_right_of_imp]
      rintro rfl
      exact AList.lookup_isSome.1 (Option.isSome_of_mem found')

end

end ComputerNetwork.Lib
