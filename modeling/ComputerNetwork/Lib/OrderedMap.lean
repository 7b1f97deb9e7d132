import Mathlib.Tactic

/-!
# Finite maps in the order of their last settings

An `OrderedMap` lists its keys in the order in which they were set last, each of them once.  After any
sequence of edits the value of a key is the one of the last edit of this key (`lookup_after`), and the
entries are the settings that no later edit touches (`entries_after`).
-/

namespace ComputerNetwork.Lib

variable {κ ν : Type*} [DecidableEq κ]

/-- A change to one key. -/
inductive Edit (κ ν : Type*) where
  | set (key : κ) (value : ν)
  | remove (key : κ)

namespace Edit

def key : Edit κ ν → κ
  | .set k _ => k
  | .remove k => k

/-- The entry that an edit adds. -/
def added : Edit κ ν → List (κ × ν)
  | .set k v => [(k, v)]
  | .remove _ => []

/-- The value of a key after a sequence of edits, by the last of them that is about this key. -/
def lastValue (k : κ) (edits : List (Edit κ ν)) : Option ν :=
  match edits.reverse.find? (·.key = k) with
  | some (.set _ v) => some v
  | _ => none

/-- The settings whose keys no later edit touches. -/
def standing : List (Edit κ ν) → List (κ × ν)
  | [] => []
  | e :: rest => if e.key ∈ rest.map key then standing rest else e.added ++ standing rest

omit [DecidableEq κ] in
theorem key_of_mem_added {e : Edit κ ν} {p : κ × ν} (mem : p ∈ e.added) : p.1 = e.key := by
  cases e with
  | set k v => rw [List.mem_singleton.1 mem, key]
  | remove k => cases mem

theorem standing_snoc (edits : List (Edit κ ν)) (e : Edit κ ν) :
    standing (edits ++ [e]) = (standing edits).filter (·.1 ≠ e.key) ++ e.added := by
  induction edits with
  | nil => simp [standing]
  | cons d rest ih =>
    have keys : d.key ∈ (rest ++ [e]).map key ↔ d.key ∈ rest.map key ∨ d.key = e.key := by
      rw [List.map_append, List.mem_append, List.map_singleton, List.mem_singleton]
    rw [List.cons_append, standing, standing, ih]
    by_cases later : d.key ∈ rest.map key
    · rw [if_pos (keys.2 (Or.inl later)), if_pos later]
    · rw [if_neg later, List.filter_append]
      by_cases same : d.key = e.key
      · have gone : d.added.filter (fun p => p.1 ≠ e.key) = [] := by
          rw [List.filter_eq_nil_iff]
          intro p mem
          simpa using (key_of_mem_added mem).trans same
        rw [if_pos (keys.2 (Or.inr same)), gone, List.nil_append]
      · have kept : d.added.filter (fun p => p.1 ≠ e.key) = d.added := by
          rw [List.filter_eq_self]
          intro p mem
          simpa [key_of_mem_added mem] using same
        rw [if_neg fun h => (keys.1 h).elim later same, kept, List.append_assoc]

end Edit

/-- A finite map that lists each of its keys once. -/
structure OrderedMap (κ ν : Type*) where
  entries : List (κ × ν)
  distinct : (entries.map Prod.fst).Nodup

namespace OrderedMap

variable {m : OrderedMap κ ν} {k : κ} {v : ν} {e : Edit κ ν}

def empty : OrderedMap κ ν := ⟨[], List.nodup_nil⟩

def lookup (m : OrderedMap κ ν) (k : κ) : Option ν := (m.entries.find? (·.1 = k)).map Prod.snd

/-- The key of the edit leaves its place, and a setting puts it at the end. -/
def edit (m : OrderedMap κ ν) (e : Edit κ ν) : OrderedMap κ ν where
  entries := m.entries.filter (·.1 ≠ e.key) ++ e.added
  distinct := by
    have kept : ((m.entries.filter (·.1 ≠ e.key)).map Prod.fst).Nodup :=
      m.distinct.sublist (List.filter_sublist.map _)
    cases e with
    | remove k => simpa [Edit.added] using kept
    | set k v =>
      rw [List.map_append, List.nodup_append]
      refine ⟨kept, by simp [Edit.added], fun a inside b new same => ?_⟩
      obtain ⟨p, mem, rfl⟩ := List.mem_map.1 inside
      have other := (List.mem_filter.1 mem).2
      have last : b = k := by simpa [Edit.added] using new
      simp [Edit.key, same, last] at other

@[simp] theorem entries_edit (m : OrderedMap κ ν) (e : Edit κ ν) :
    (m.edit e).entries = m.entries.filter (·.1 ≠ e.key) ++ e.added := rfl

/-- The map that a sequence of edits makes of the empty one. -/
def after (edits : List (Edit κ ν)) : OrderedMap κ ν := edits.foldl edit empty

theorem after_snoc (edits : List (Edit κ ν)) (e : Edit κ ν) :
    after (edits ++ [e]) = (after edits).edit e := by
  rw [after, List.foldl_append]
  rfl

theorem lookup_edit_self : (m.edit e).lookup e.key = e.added.head?.map Prod.snd := by
  have gone : (m.entries.filter (·.1 ≠ e.key)).find? (·.1 = e.key) = none := by
    rw [List.find?_eq_none]
    intro p mem
    simpa using (List.mem_filter.1 mem).2
  rw [lookup, entries_edit, List.find?_append, gone, Option.none_or]
  cases e with
  | set k v => simp [Edit.added, Edit.key]
  | remove k => rfl

theorem lookup_edit_other (other : e.key ≠ k) : (m.edit e).lookup k = m.lookup k := by
  have none_ : e.added.find? (·.1 = k) = none := by
    rw [List.find?_eq_none]
    intro p mem
    simpa [Edit.key_of_mem_added mem] using other
  rw [lookup, lookup, entries_edit, List.find?_append, none_, Option.or_none, List.find?_filter]
  refine congrArg (fun P => (List.find? P m.entries).map Prod.snd) (funext fun p => ?_)
  by_cases here : p.1 = k
  · simp [here, Ne.symm other]
  · simp [here]

theorem lookup_after (edits : List (Edit κ ν)) (k : κ) :
    (after edits).lookup k = Edit.lastValue k edits := by
  induction edits using List.reverseRecOn with
  | nil => rfl
  | append_singleton edits e ih =>
    rw [after_snoc, Edit.lastValue, List.reverse_append, List.reverse_singleton,
      List.singleton_append]
    by_cases same : e.key = k
    · rw [← same, lookup_edit_self, List.find?_cons_of_pos (by simp)]
      cases e <;> rfl
    · rw [lookup_edit_other same, ih, List.find?_cons_of_neg (by simpa using same), Edit.lastValue]

theorem entries_after (edits : List (Edit κ ν)) : (after edits).entries = Edit.standing edits := by
  induction edits using List.reverseRecOn with
  | nil => rfl
  | append_singleton edits e ih => rw [after_snoc, entries_edit, ih, Edit.standing_snoc]

end OrderedMap

end ComputerNetwork.Lib
