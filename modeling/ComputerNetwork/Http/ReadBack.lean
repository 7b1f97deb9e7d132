import ComputerNetwork.Http.Stable

/-!
# Headers that are read back unchanged

A header whose key spans lines is read together with those that the rests of its key make, so printed
headers are read back as they are only if these come later anyway: `Separate` says so of their keys,
and `separate_of_keys` and `keepLast_expandAll_of_separate` are the two directions.
-/

namespace ComputerNetwork.Http

open Lib

/-- No key comes again, and what follows a line end in a key is a later key. -/
def Separate : List Text → Prop
  | [] => True
  | k :: ks => k ∉ ks ∧ (∀ k' ∈ suffixKeys k, k' ∈ ks) ∧ Separate ks

theorem dedup_append_eq {α : Type} [DecidableEq α] (l₁ l₂ : List α) :
    (l₁ ++ l₂).dedup = l₁.dedup.filter (· ∉ l₂) ++ l₂.dedup := by
  induction l₁ with
  | nil => rfl
  | cons a l₁ ih =>
    rw [List.cons_append, List.dedup_cons, List.dedup_cons, ih]
    by_cases first : a ∈ l₁
    · simp [first]
    · by_cases second : a ∈ l₂ <;> simp [first, second]

section Keys

variable {O : List (Text × Text)} {k k' : Text} {as later : List Text}

theorem not_mem_suffixKeys (k : Text) : k ∉ suffixKeys k := fun mem =>
  lt_irrefl _ (length_suffixKeys mem)

theorem exists_of_mem_suffixKeys (rest : k' ∈ suffixKeys k) : ∃ t, k = t ++ (crlf ++ k') := by
  induction k using key_induction with
  | one k line =>
    rw [suffixKeys_of_noCrlf line] at rest
    cases rest
  | more l k first ih =>
    rw [suffixKeys_line first] at rest
    split_ifs at rest with here
    · cases rest
    · rcases List.mem_cons.1 rest with rfl | rest
      · exact ⟨l, rfl⟩
      · obtain ⟨t, rfl⟩ := ih rest
        exact ⟨l ++ (crlf ++ t), by simp⟩

/-- The last key of what the settings leave decides whether the last header leaves its own key only. -/
theorem separate_of_dedup (separate : Separate later)
    (same : (as.flatMap fun k => k :: suffixKeys k).dedup.filter (· ∉ later) = as) :
    Separate (as ++ later) := by
  induction as using List.reverseRecOn generalizing later with
  | nil => exact separate
  | append_singleton as a ih =>
    have own : (a :: suffixKeys a).dedup = a :: suffixKeys a :=
      List.dedup_eq_self.2 (List.nodup_cons.2 ⟨not_mem_suffixKeys a, nodup_suffixKeys a⟩)
    rw [List.flatMap_append, List.flatMap_singleton, dedup_append_eq, own, List.filter_append,
      List.filter_filter] at same
    have fresh : a ∉ later := by
      intro known
      have mem : a ∈ as ++ [a] := List.mem_append_right _ (List.mem_singleton_self a)
      rw [← same, ← List.filter_filter, ← List.filter_append] at mem
      simpa [known] using (List.mem_filter.1 mem).2
    have rests : ∀ k ∈ suffixKeys a, k ∈ later := by
      by_contra some_
      obtain ⟨k, mem, new⟩ : ∃ k ∈ suffixKeys a, k ∉ later := by simpa using some_
      -- the list that is left ends with a key that comes from the rest of `a`
      have more : (suffixKeys a).filter (· ∉ later) ≠ [] :=
        List.ne_nil_of_mem (List.mem_filter.2 ⟨mem, by simpa using new⟩)
      have last := congrArg List.getLast? same
      rw [List.filter_cons_of_pos (by simpa using fresh), List.getLast?_append_cons,
        List.getLast?_cons_of_ne_nil more, List.getLast?_concat, List.getLast?_eq_some_getLast more]
        at last
      have inside := List.getLast_mem more
      rw [Option.some.inj last] at inside
      exact not_mem_suffixKeys a (List.mem_of_mem_filter inside)
    have single : (a :: suffixKeys a).filter (· ∉ later) = [a] := by
      rw [List.filter_cons_of_pos (by simpa using fresh), List.filter_eq_nil_iff.2]
      simpa using rests
    rw [single, List.append_left_inj] at same
    rw [List.append_assoc]
    refine ih (show Separate (a :: later) from ⟨fresh, rests, separate⟩) (Eq.trans ?_ same)
    apply List.filter_congr
    intro k _
    simp only [List.mem_cons, not_or, Bool.decide_and]
    by_cases known : k ∈ later
    · simp [known]
    · have outside : k ∉ suffixKeys a := fun mem => known (rests k mem)
      simp [known, outside]

theorem keys_expandAll (clean : ∀ h ∈ O, ¬ crlf ++ crlf <:+: h.1) :
    (expandAll O).map Prod.fst = (O.map Prod.fst).flatMap fun k => k :: suffixKeys k := by
  induction O with
  | nil => rfl
  | cons p rest ih =>
    rw [expandAll, if_neg (clean p (List.mem_cons_self ..)), List.map_append,
      ih fun h mem => clean h (List.mem_cons_of_mem _ mem), List.map_cons, List.flatMap_cons]
    simp [expand, Function.comp_def]

/-- Headers of which all keys are left have keys that do not meet. -/
theorem separate_of_keys (clean : ∀ h ∈ O, ¬ crlf ++ crlf <:+: h.1)
    (same : (keepLast (expandAll O)).map Prod.fst = O.map Prod.fst) : Separate (O.map Prod.fst) := by
  rw [keys_keepLast, keys_expandAll clean] at same
  rw [← List.append_nil (O.map Prod.fst)]
  refine separate_of_dedup trivial (Eq.trans ?_ same)
  exact List.filter_eq_self.2 fun k _ => by simp

/-- Headers whose keys do not meet are read back unchanged. -/
theorem keepLast_expandAll_of_separate (clean : ∀ h ∈ O, ¬ crlf ++ crlf <:+: h.1)
    (separate : Separate (O.map Prod.fst)) : keepLast (expandAll O) = O := by
  induction O with
  | nil => rfl
  | cons p rest ih =>
    obtain ⟨fresh, rests, separate⟩ := separate
    have same := ih (fun h mem => clean h (List.mem_cons_of_mem _ mem)) separate
    have keys : ∀ k, k ∈ (expandAll rest).map Prod.fst ↔ k ∈ rest.map Prod.fst := by
      intro k
      rw [← mem_keys_keepLast, same]
    have again : ∀ q ∈ (suffixKeys p.1).map (fun k => (k, p.2)),
        q.1 ∈ (expandAll rest).map Prod.fst := by
      intro q mem
      obtain ⟨k, rest, rfl⟩ := List.mem_map.1 mem
      exact (keys k).2 (rests k rest)
    have new : p.1 ∉ ((suffixKeys p.1).map (fun k => (k, p.2)) ++ expandAll rest).map Prod.fst := by
      rw [List.map_append, List.mem_append, keys, List.map_map]
      rintro (mem | mem)
      · exact not_mem_suffixKeys p.1 (by simpa [Function.comp_def] using mem)
      · exact fresh mem
    rw [expandAll, if_neg (clean p (List.mem_cons_self ..)), expand, List.cons_append, keepLast,
      if_neg new, keepLast_append again, same]

end Keys

end ComputerNetwork.Http
