import ComputerNetwork.Lib.Run

/-!
# Arrays of records of one size

A byte string that holds records of `size` bytes one behind the other, as an encoder writes it and as a
program walks it with an index.  `recordAt_records` says which record the program finds at an index,
and `foldlM_range` turns the walk into one over the list of what was written.
-/

namespace ComputerNetwork.Lib

section Records

variable {α β σ ε : Type} {size : ℕ} {enc : α → List β} {l : List α}

/-- The `i`-th record of `size` elements. -/
def recordAt (size : ℕ) (b : List β) (i : ℕ) : List β := (b.drop (size * i)).take size

theorem length_records (sized : ∀ x ∈ l, (enc x).length = size) :
    (l.flatMap enc).length = size * l.length := by
  induction l with
  | nil => rfl
  | cons x rest ih =>
      rw [List.flatMap_cons, List.length_append, sized x (List.mem_cons_self ..),
        ih fun y mem => sized y (List.mem_cons_of_mem _ mem), List.length_cons, Nat.mul_succ,
        Nat.add_comm]

theorem recordAt_records (sized : ∀ x ∈ l, (enc x).length = size) {i : ℕ} {x : α}
    (get : l[i]? = some x) : recordAt size (l.flatMap enc) i = enc x := by
  obtain ⟨inside, rfl⟩ := List.getElem?_eq_some_iff.1 get
  have split : l = l.take i ++ l[i] :: l.drop (i + 1) := by
    rw [← List.drop_eq_getElem_cons inside, List.take_append_drop]
  have before : ((l.take i).flatMap enc).length = size * i := by
    rw [length_records fun y mem => sized y (List.mem_of_mem_take mem),
      List.length_take_of_le inside.le]
  have here : (enc l[i]).length = size := sized _ (List.getElem_mem inside)
  have parts : l.flatMap enc =
      (l.take i).flatMap enc ++ (enc l[i] ++ (l.drop (i + 1)).flatMap enc) := by
    conv_lhs => rw [split]
    rw [List.flatMap_append, List.flatMap_cons]
  rw [recordAt, parts, List.drop_left' before, List.take_left' here]

theorem foldlM_cons_ok {f : σ → α → Except ε σ} {s s' : σ} {x : α} (rest : List α)
    (head : f s x = .ok s') : (x :: rest).foldlM f s = rest.foldlM f s' := by
  rw [List.foldlM_cons, head]
  rfl

theorem foldlM_range {γ : Type} {dec : α → γ} (get : ℕ → Except ε γ) (f : σ → γ → Except ε σ)
    (found : ∀ i x, l[i]? = some x → get i = .ok (dec x)) (s : σ) :
    (List.range l.length).foldlM (fun s i => get i >>= f s) s =
      l.foldlM (fun s x => f s (dec x)) s := by
  have walk : ∀ (rest : List α) (k : ℕ) (s : σ),
      (∀ i x, rest[i]? = some x → get (k + i) = .ok (dec x)) →
      (List.range' k rest.length).foldlM (fun s i => get i >>= f s) s =
        rest.foldlM (fun s x => f s (dec x)) s := by
    intro rest
    induction rest with
    | nil => exact fun _ _ _ => rfl
    | cons x rest ih =>
        intro k s found
        rw [List.length_cons, List.range'_succ, List.foldlM_cons, List.foldlM_cons,
          show get k = .ok (dec x) from found 0 x rfl]
        refine bind_congr fun s' => ih (k + 1) s' fun i y get' => ?_
        rw [Nat.add_assoc, Nat.add_comm 1 i]
        exact found (i + 1) y get'
  rw [List.range_eq_range']
  exact walk l 0 s fun i x get' => by
    rw [Nat.zero_add]
    exact found i x get'

/-- The same for a walk that collects what it finds. -/
theorem mapM_range {γ : Type} {get : ℕ → Option γ} {dec : α → Option γ}
    (found : ∀ i x, l[i]? = some x → get i = dec x) :
    (List.range l.length).mapM get = l.mapM dec := by
  have walk : ∀ (rest : List α) (k : ℕ), (∀ i x, rest[i]? = some x → get (k + i) = dec x) →
      (List.range' k rest.length).mapM get = rest.mapM dec := by
    intro rest
    induction rest with
    | nil => exact fun _ _ => rfl
    | cons x rest ih =>
        intro k found
        have tail := ih (k + 1) fun i y get' => by
          rw [Nat.add_assoc, Nat.add_comm 1 i]
          exact found (i + 1) y get'
        rw [List.length_cons, List.range'_succ, List.mapM_cons, List.mapM_cons,
          show get k = dec x from found 0 x rfl, tail]
  rw [List.range_eq_range']
  exact walk l 0 fun i x get' => by
    rw [Nat.zero_add]
    exact found i x get'

end Records

end ComputerNetwork.Lib
