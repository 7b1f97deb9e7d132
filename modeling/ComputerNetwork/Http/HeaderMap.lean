import ComputerNetwork.Http.Rendering
import ComputerNetwork.Lib.OrderedMap

/-!
# The header store as an ordered map

Any sequence of `ParsedHeader_set` and `ParsedHeader_remove` makes of the slots what it makes of an
`OrderedMap`: removal leaves slots without a key behind and a setting fills the next slot, but the
slots with a key list the entries of the map in their order (`live_editAll`).  `headerStore_spec` reads
off what the calls of the store return and print.
-/

namespace ComputerNetwork.Http

open Lib

namespace Headers

/-- A call of `ParsedHeader_set` or `ParsedHeader_remove`. -/
def edit (hs : Headers) : Edit Text Text → Headers
  | .set key value => hs.set key value
  | .remove key => (hs.remove key).2

def editAll (hs : Headers) (edits : List (Edit Text Text)) : Headers := edits.foldl edit hs

section Edits

variable {hs : Headers} {m : OrderedMap Text Text} {slots : List ParsedHeader} {k k' : Text}

/-- The store shows the map `m`. -/
def Shows (hs : Headers) (m : OrderedMap Text Text) : Prop := hs.live = m.entries

theorem Shows.edit (shows_ : hs.Shows m) (e : Edit Text Text) : (hs.edit e).Shows (m.edit e) := by
  have distinct : (hs.live.map Prod.fst).Nodup := by
    rw [shows_]
    exact m.distinct
  unfold Shows
  rw [OrderedMap.entries_edit, ← shows_]
  cases e with
  | set k v => exact live_set distinct
  | remove k =>
    rw [Edit.added, List.append_nil]
    exact live_removeFrom distinct

theorem Shows.editAll (shows_ : hs.Shows m) (edits : List (Edit Text Text)) :
    (hs.editAll edits).Shows (edits.foldl OrderedMap.edit m) := by
  induction edits generalizing hs m with
  | nil => exact shows_
  | cons e rest ih => exact ih (shows_.edit e)

theorem shows_create (edits : List (Edit Text Text)) :
    (create.editAll edits).Shows (.after edits) :=
  (show create.Shows .empty from rfl).editAll edits

theorem Shows.get (shows_ : hs.Shows m) (k : Text) :
    (hs.get k).map ParsedHeader.value = m.lookup k := by
  rw [get_value, shows_, OrderedMap.lookup]

theorem Shows.slot_unique (shows_ : hs.Shows m) {i j : ℕ} {h h' : ParsedHeader}
    (first : hs.slots[i]? = some h) (second : hs.slots[j]? = some h') (key : h.key = some k)
    (key' : h'.key = some k) : i = j := by
  have distinct : (hs.slots.filterMap ParsedHeader.key).Nodup := by
    have keys : hs.live.map Prod.fst = hs.slots.filterMap ParsedHeader.key := by
      rw [live, List.map_filterMap]
      refine congrArg (fun f => hs.slots.filterMap f) (funext fun h => ?_)
      cases key : h.key <;> simp [ParsedHeader.pair, key]
    rw [← keys, shows_]
    exact m.distinct
  obtain ⟨here, rfl⟩ := List.getElem?_eq_some_iff.1 first
  obtain ⟨there, rfl⟩ := List.getElem?_eq_some_iff.1 second
  have apart := List.pairwise_iff_getElem.1 (List.pairwise_filterMap.1 distinct)
  rcases Nat.lt_trichotomy i j with before | same | behind
  · exact absurd rfl (apart i j here there before k key k key')
  · exact same
  · exact absurd rfl (apart j i there here behind k key' k key)

theorem find_removeFrom (other : k ≠ k') :
    (removeFrom k slots).find? (fun h => h.key = some k') = slots.find? fun h => h.key = some k' := by
  induction slots with
  | nil => rfl
  | cons h rest ih =>
    rw [removeFrom]
    by_cases same : h.key = some k
    · rw [if_pos same, List.find?_cons_of_neg (by simp), List.find?_cons_of_neg (by simp [same, other])]
    · rw [if_neg same, List.find?_cons, List.find?_cons, ih]

theorem get_edit_other {e : Edit Text Text} (other : e.key ≠ k) : (hs.edit e).get k = hs.get k := by
  cases e with
  | remove k' => exact find_removeFrom other
  | set k' v =>
    have last : [ParsedHeader.mk (some k') v].find? (fun h => h.key = some k) = none := by
      rw [List.find?_cons_of_neg (by simpa using show ¬ k' = k from other)]
      rfl
    show (removeFrom k' hs.slots ++ [ParsedHeader.mk (some k') v]).find? _ = hs.get k
    rw [List.find?_append, last, Option.or_none]
    exact find_removeFrom other

end Edits

end Headers

/-- What the calls of a store return and print that has seen `edits`, beginning without headers. -/
structure HeaderStore (edits : List (Edit Text Text)) (hs : Headers) : Prop where
  room : hs.slots.length < hs.headerslen
  unique : ∀ (i j : ℕ) h h' k, hs.slots[i]? = some h → hs.slots[j]? = some h' → h.key = some k →
    h'.key = some k → i = j
  get : ∀ k, (hs.get k).map ParsedHeader.value = Edit.lastValue k edits
  remove : ∀ k, (hs.remove k).1 = if Edit.lastValue k edits = none then -1 else 0
  other : ∀ e k, e.key ≠ k → (hs.edit e).get k = hs.get k
  print : ∀ (pr : ParsedRequest) out current, pr.headers = hs →
    current + ((Edit.standing edits).flatMap renderHeader ++ crlf).length ≤ out.length →
    pr.printHeaders out current =
      (0, splice out current ((Edit.standing edits).flatMap renderHeader ++ crlf))

/-- The header store is an ordered finite map. -/
theorem headerStore_spec (edits : List (Edit Text Text)) :
    HeaderStore edits (Headers.create.editAll edits) := by
  have shows_ := Headers.shows_create edits
  have get : ∀ k, ((Headers.create.editAll edits).get k).map ParsedHeader.value =
      Edit.lastValue k edits := fun k => (shows_.get k).trans (OrderedMap.lookup_after edits k)
  refine ⟨Headers.room _, fun i j h h' k => shows_.slot_unique, get, fun k => ?_,
    fun e k other => Headers.get_edit_other other, fun pr out current headers fits => ?_⟩
  · rw [Headers.remove, ← get k]
    cases (Headers.create.editAll edits).get k <;> rfl
  · rw [← OrderedMap.entries_after, ← shows_, ← headers] at fits ⊢
    exact printHeaders_eq fits

end ComputerNetwork.Http
