import ComputerNetwork.Http.ProxyParse
import ComputerNetwork.Lib.OrderedMap

/-!
# The header store

After any sequence of `ParsedHeader_set` the store shows, for each key, the header that was set last,
in the order of these last settings: `live_setAll`, with `keepLast` the list function behind it, and
`get_setAll` for `ParsedHeader_get`.
-/

namespace ComputerNetwork.Http

open Lib

/-! ## The last header of each key -/

/-- Drop every header whose key occurs again later. -/
def keepLast : List (Text × Text) → List (Text × Text)
  | [] => []
  | p :: rest => if p.1 ∈ rest.map Prod.fst then keepLast rest else p :: keepLast rest

theorem mem_keys_keepLast {ps : List (Text × Text)} {k : Text} :
    k ∈ (keepLast ps).map Prod.fst ↔ k ∈ ps.map Prod.fst := by
  induction ps with
  | nil => rfl
  | cons p rest ih =>
    rw [keepLast]
    split_ifs with later
    · rw [ih, List.map_cons, List.mem_cons]
      exact ⟨Or.inr, fun h => h.elim (fun same => same ▸ later) id⟩
    · rw [List.map_cons, List.mem_cons, ih, List.map_cons, List.mem_cons]

theorem mem_of_mem_keepLast {ps : List (Text × Text)} {p : Text × Text} (mem : p ∈ keepLast ps) :
    p ∈ ps := by
  induction ps with
  | nil => exact mem
  | cons q rest ih =>
    rw [keepLast] at mem
    split_ifs at mem with later
    · exact List.mem_cons_of_mem _ (ih mem)
    · rcases List.mem_cons.1 mem with rfl | mem
      · exact List.mem_cons_self ..
      · exact List.mem_cons_of_mem _ (ih mem)

/-- The headers that are left are the settings that no later one touches. -/
theorem keepLast_eq_standing (ps : List (Text × Text)) :
    keepLast ps = Edit.standing (ps.map fun p => Edit.set p.1 p.2) := by
  induction ps with
  | nil => rfl
  | cons p rest ih =>
    have keys : (rest.map fun p => Edit.set p.1 p.2).map Edit.key = rest.map Prod.fst := List.map_map
    rw [keepLast, List.map_cons, Edit.standing, keys, ih]
    by_cases later : p.1 ∈ rest.map Prod.fst
    · rw [if_pos later, if_pos (show (Edit.set p.1 p.2).key ∈ _ from later)]
    · rw [if_neg later, if_neg (show (Edit.set p.1 p.2).key ∉ _ from later)]
      rfl

theorem nodup_keepLast (ps : List (Text × Text)) : ((keepLast ps).map Prod.fst).Nodup := by
  rw [keepLast_eq_standing, ← OrderedMap.entries_after]
  exact (OrderedMap.after _).distinct

/-- Headers whose keys all occur again add nothing. -/
theorem keepLast_append {ps qs : List (Text × Text)}
    (again : ∀ p ∈ ps, p.1 ∈ qs.map Prod.fst) : keepLast (ps ++ qs) = keepLast qs := by
  induction ps with
  | nil => rfl
  | cons p rest ih =>
    have later : p.1 ∈ (rest ++ qs).map Prod.fst := by
      rw [List.map_append]
      exact List.mem_append_right _ (again p (List.mem_cons_self ..))
    rw [List.cons_append, keepLast, if_pos later]
    exact ih fun p hp => again p (List.mem_cons_of_mem _ hp)

theorem keepLast_snoc (ps : List (Text × Text)) (k v : Text) :
    keepLast (ps ++ [(k, v)]) = (keepLast ps).filter (·.1 ≠ k) ++ [(k, v)] := by
  rw [keepLast_eq_standing, List.map_append, List.map_singleton, Edit.standing_snoc,
    ← keepLast_eq_standing]
  rfl

theorem keepLast_of_nodup {ps : List (Text × Text)} (distinct : (ps.map Prod.fst).Nodup) :
    keepLast ps = ps := by
  induction ps with
  | nil => rfl
  | cons p rest ih =>
    rw [List.map_cons, List.nodup_cons] at distinct
    rw [keepLast, if_neg distinct.1, ih distinct.2]

theorem keys_keepLast (ps : List (Text × Text)) :
    (keepLast ps).map Prod.fst = (ps.map Prod.fst).dedup := by
  induction ps with
  | nil => rfl
  | cons p rest ih =>
    rw [keepLast, List.map_cons, List.dedup_cons, ← ih]
    split_ifs <;> rfl

theorem keepLast_filter (P : Text → Bool) (ps : List (Text × Text)) :
    (keepLast ps).filter (fun h => P h.1) = keepLast (ps.filter fun h => P h.1) := by
  induction ps with
  | nil => rfl
  | cons p rest ih =>
    have pos : P p.1 → ∀ qs : List (Text × Text),
        (p :: qs).filter (fun h => P h.1) = p :: qs.filter fun h => P h.1 :=
      fun passes _ => List.filter_cons_of_pos passes
    have neg : ¬ P p.1 → ∀ qs : List (Text × Text),
        (p :: qs).filter (fun h => P h.1) = qs.filter fun h => P h.1 :=
      fun stops _ => List.filter_cons_of_neg stops
    by_cases passes : P p.1
    · have later : p.1 ∈ (rest.filter fun h => P h.1).map Prod.fst ↔ p.1 ∈ rest.map Prod.fst := by
        constructor
        · exact fun mem => (List.filter_sublist.map Prod.fst).subset mem
        · intro mem
          obtain ⟨q, mem, same⟩ := List.mem_map.1 mem
          exact List.mem_map.2 ⟨q, List.mem_filter.2 ⟨mem, by rwa [same]⟩, same⟩
      rw [pos passes, keepLast, keepLast, ← ih]
      by_cases known : p.1 ∈ rest.map Prod.fst
      · rw [if_pos known, if_pos (later.2 known)]
      · rw [if_neg known, if_neg (mt later.1 known), pos passes]
    · rw [neg passes, keepLast, ← ih]
      by_cases known : p.1 ∈ rest.map Prod.fst
      · rw [if_pos known]
      · rw [if_neg known, neg passes]

/-! ## The store -/

/-- Set headers one after the other. -/
def Headers.setAll (hs : Headers) (ps : List (Text × Text)) : Headers :=
  ps.foldl (fun hs p => hs.set p.1 p.2) hs

namespace Headers

theorem live_removeFrom {slots : List ParsedHeader} {k : Text}
    (distinct : ((slots.filterMap ParsedHeader.pair).map Prod.fst).Nodup) :
    (removeFrom k slots).filterMap ParsedHeader.pair =
      (slots.filterMap ParsedHeader.pair).filter (·.1 ≠ k) := by
  induction slots with
  | nil => rfl
  | cons h rest ih =>
    rcases key : h.key with _ | k'
    · have none_ : h.pair = none := by rw [ParsedHeader.pair, key]; rfl
      rw [List.filterMap_cons_none none_] at distinct ⊢
      rw [removeFrom, if_neg (by simp [key]), List.filterMap_cons_none none_]
      exact ih distinct
    · have some_ : h.pair = some (k', h.value) := by rw [ParsedHeader.pair, key]; rfl
      rw [List.filterMap_cons_some some_, List.map_cons, List.nodup_cons] at distinct
      rw [removeFrom, List.filterMap_cons_some some_]
      by_cases same : k' = k
      · have others : ∀ p ∈ rest.filterMap ParsedHeader.pair, decide (p.1 ≠ k) = true := by
          intro p hp
          simpa using fun again : p.1 = k =>
            distinct.1 (List.mem_map.2 ⟨p, hp, by rw [again, same]⟩)
        rw [if_pos (by rw [key, same]), List.filterMap_cons_none (by rfl),
          List.filter_cons_of_neg (by simp [same]), List.filter_eq_self.2 others]
      · rw [if_neg (by simpa [key] using same), List.filterMap_cons_some some_,
          List.filter_cons_of_pos (by simpa using same), ih distinct.2]

theorem live_set {hs : Headers} {k v : Text} (distinct : (hs.live.map Prod.fst).Nodup) :
    (hs.set k v).live = hs.live.filter (·.1 ≠ k) ++ [(k, v)] := by
  have removed := live_removeFrom (k := k) distinct
  calc (hs.set k v).live
      = (removeFrom k hs.slots).filterMap ParsedHeader.pair ++ [(k, v)] := List.filterMap_append
    _ = hs.live.filter (·.1 ≠ k) ++ [(k, v)] := by rw [removed]; rfl

theorem live_setAll (ps : List (Text × Text)) : (create.setAll ps).live = keepLast ps := by
  induction ps using List.reverseRecOn with
  | nil => rfl
  | append_singleton ps p ih =>
    have distinct : ((create.setAll ps).live.map Prod.fst).Nodup := by
      rw [ih]
      exact nodup_keepLast ps
    have last : create.setAll (ps ++ [p]) = (create.setAll ps).set p.1 p.2 := by
      simp [setAll]
    rw [last, live_set distinct, ih, keepLast_snoc]

theorem get_value (hs : Headers) (k : Text) :
    (hs.get k).map ParsedHeader.value = (hs.live.find? (·.1 = k)).map Prod.snd := by
  unfold get live
  induction hs.slots with
  | nil => rfl
  | cons h rest ih =>
    rcases key : h.key with _ | k'
    · have none_ : h.pair = none := by rw [ParsedHeader.pair, key]; rfl
      rw [List.find?_cons_of_neg (by simp [key]), List.filterMap_cons_none none_, ih]
    · have some_ : h.pair = some (k', h.value) := by rw [ParsedHeader.pair, key]; rfl
      rw [List.filterMap_cons_some some_]
      by_cases same : k' = k
      · rw [List.find?_cons_of_pos (by simp [key, same]), List.find?_cons_of_pos (by simp [same])]
        rfl
      · rw [List.find?_cons_of_neg (by simp [key, same]), List.find?_cons_of_neg (by simp [same]), ih]

/-- `ParsedHeader_get` gives the value that was set last. -/
theorem get_setAll (ps : List (Text × Text)) (k : Text) :
    ((create.setAll ps).get k).map ParsedHeader.value =
      (ps.reverse.find? (·.1 = k)).map Prod.snd := by
  have looked := OrderedMap.lookup_after (ps.map fun p => Edit.set p.1 p.2) k
  rw [OrderedMap.lookup, OrderedMap.entries_after, ← keepLast_eq_standing, Edit.lastValue,
    ← List.map_reverse, List.find?_map] at looked
  rw [get_value, live_setAll, looked]
  have same : ((fun e : Edit Text Text => decide (e.key = k)) ∘ fun p => Edit.set p.1 p.2) =
      fun p : Text × Text => decide (p.1 = k) := rfl
  rw [same]
  cases ps.reverse.find? (·.1 = k) <;> rfl

end Headers

end ComputerNetwork.Http
