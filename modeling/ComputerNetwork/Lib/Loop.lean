import Mathlib.Tactic

/-!
# Loops that need not end

The body of a loop takes a state to the next one, or leaves the loop with a result.  `Ends body s r`
says that the loop entered in the state `s` is left with the result `r`; a loop that is never left has
no result.  Where the states of the loop are known in advance, `ends_iff` says when it ends.
-/

namespace ComputerNetwork.Lib

/-- The body of a loop: another turn, or the result. -/
abbrev Body (σ ρ : Type*) := σ → σ ⊕ ρ

namespace Body

variable {σ ρ : Type*} {body : Body σ ρ} {s s' : σ} {r r' : ρ}

/-- At most `n` turns of a loop. -/
def turns (body : Body σ ρ) : ℕ → σ → σ ⊕ ρ
  | 0, s => .inl s
  | n + 1, s =>
    match body s with
    | .inl s' => turns body n s'
    | .inr r => .inr r

/-- The loop is left after finitely many turns. -/
def Ends (body : Body σ ρ) (s : σ) (r : ρ) : Prop := ∃ n, turns body n s = .inr r

theorem ends_of_leave (leave : body s = .inr r) : body.Ends s r :=
  ⟨1, by rw [turns, leave]⟩

theorem ends_iff_of_turn (turn : body s = .inl s') : body.Ends s r ↔ body.Ends s' r := by
  constructor
  · rintro ⟨n, left⟩
    cases n with
    | zero => cases left
    | succ n =>
      rw [turns, turn] at left
      exact ⟨n, left⟩
  · rintro ⟨n, left⟩
    exact ⟨n + 1, by rw [turns, turn]; exact left⟩

theorem ends_iff_of_leave (leave : body s = .inr r) : body.Ends s r' ↔ r' = r := by
  constructor
  · rintro ⟨n, left⟩
    cases n with
    | zero => cases left
    | succ n =>
      rw [turns, leave] at left
      exact (Sum.inr.inj left).symm
  · rintro rfl
    exact ends_of_leave leave

/-- An invariant of the loop holds where it is left. -/
theorem Ends.rule {I : σ → Prop} {Q : ρ → Prop} (ends : body.Ends s r) (start : I s)
    (keep : ∀ s s', I s → body s = .inl s' → I s') (leave : ∀ s r, I s → body s = .inr r → Q r) :
    Q r := by
  obtain ⟨n, left⟩ := ends
  induction n generalizing s with
  | zero => cases left
  | succ n ih =>
    rw [turns] at left
    rcases next : body s with s' | r'
    · rw [next] at left
      exact ih (keep s s' start next) left
    · rw [next] at left
      exact leave s r start (next.trans (congrArg _ (Sum.inr.inj left)))

theorem Ends.unique (ends : body.Ends s r) (ends' : body.Ends s r') : r = r' := by
  have same := ends.rule (I := fun s => body.Ends s r') (Q := fun r => r = r') ends'
    (fun s s' still turn => (ends_iff_of_turn turn).1 still)
    fun s r still leave => ((ends_iff_of_leave leave).1 still).symm
  exact same

/-- A loop that a set of states keeps inside is never left. -/
theorem not_ends {I : σ → Prop} (start : I s) (stay : ∀ s, I s → ∃ s', body s = .inl s' ∧ I s') :
    ¬ body.Ends s r := by
  intro ends
  refine ends.rule (Q := fun _ => False) start (fun s s' inside turn => ?_) fun s r inside leave => ?_
  · obtain ⟨t, turn', inside'⟩ := stay s inside
    rw [turn] at turn'
    exact Sum.inl.inj turn' ▸ inside'
  · obtain ⟨t, turn, -⟩ := stay s inside
    rw [turn] at leave
    cases leave

/-- Every turn makes a measure smaller. -/
theorem exists_ends {I : σ → Prop} (μ : σ → ℕ) (start : I s)
    (less : ∀ s s', I s → body s = .inl s' → I s' ∧ μ s' < μ s) : ∃ r, body.Ends s r := by
  induction measure : μ s using Nat.strong_induction_on generalizing s with
  | _ m ih =>
    rcases next : body s with s' | r
    · obtain ⟨inside, smaller⟩ := less s s' start next
      obtain ⟨r, ends⟩ := ih (μ s') (measure ▸ smaller) inside rfl
      exact ⟨r, (ends_iff_of_turn next).2 ends⟩
    · exact ⟨r, ends_of_leave next⟩

/-- The states of the loop, when each of them follows from the number of turns. -/
theorem ends_iff {state : ℕ → σ} (next : ∀ k s', body (state k) = .inl s' → s' = state (k + 1)) :
    body.Ends (state 0) r ↔
      ∃ k, (∀ j < k, body (state j) = .inl (state (j + 1))) ∧ body (state k) = .inr r := by
  have later : ∀ k, (∀ j < k, body (state j) = .inl (state (j + 1))) →
      (body.Ends (state 0) r ↔ body.Ends (state k) r) := by
    intro k
    induction k with
    | zero => exact fun _ => Iff.rfl
    | succ k ih =>
      intro turns
      rw [ih fun j before => turns j (by omega)]
      exact ends_iff_of_turn (turns k (by omega))
  constructor
  · rintro ⟨n, left⟩
    by_contra never
    simp only [not_exists, not_and] at never
    have stay : ∀ k, ∀ j < k, body (state j) = .inl (state (j + 1)) := by
      intro k
      induction k with
      | zero => intro j before; omega
      | succ k ih =>
        intro j before
        rcases Nat.lt_succ_iff_lt_or_eq.1 before with earlier | rfl
        · exact ih j earlier
        · rcases turn : body (state j) with s' | r'
          · rw [next j s' turn]
          · have ends : body.Ends (state j) r := (later j ih).1 ⟨n, left⟩
            rw [(ends_iff_of_leave turn).1 ends] at never
            exact absurd turn (never j ih)
    refine not_ends (I := fun s => ∃ k, s = state k) ⟨0, rfl⟩ ?_ ⟨n, left⟩
    rintro s ⟨k, rfl⟩
    exact ⟨_, stay (k + 1) k (by omega), k + 1, rfl⟩
  · rintro ⟨k, turns, leave⟩
    exact (later k turns).2 (ends_of_leave leave)

end Body

/-! ## Code behind a loop -/

section AndThen

variable {ε α β : Type*} {first : Except ε α → Prop} {next : α → Except ε β → Prop}

/-- The results of `next` on what `first` leaves; an error of `first` goes past `next`. -/
def andThen (first : Except ε α → Prop) (next : α → Except ε β → Prop) (r : Except ε β) : Prop :=
  (∃ a, first (.ok a) ∧ next a r) ∨ ∃ e, first (.error e) ∧ r = .error e

theorem andThen_of_ok {a : α} {r : Except ε β} (only : ∀ s, first s ↔ s = .ok a) :
    andThen first next r ↔ next a r := by
  constructor
  · rintro (⟨b, done, then_r⟩ | ⟨e, stopped, -⟩)
    · obtain rfl := Except.ok.inj ((only _).1 done)
      exact then_r
    · cases (only _).1 stopped
  · exact fun then_r => .inl ⟨a, (only _).2 rfl, then_r⟩

theorem andThen_assoc {γ : Type*} {last : β → Except ε γ → Prop} :
    andThen (andThen first next) last = andThen first fun a => andThen (next a) last := by
  refine funext fun r => propext ?_
  constructor
  · rintro (⟨b, ⟨a, done, then_b⟩ | ⟨e, -, ⟨⟩⟩, end_r⟩ | ⟨e, ⟨a, done, stopped⟩ | ⟨e', stopped, ⟨⟩⟩, rfl⟩)
    · exact .inl ⟨a, done, .inl ⟨b, then_b, end_r⟩⟩
    · exact .inl ⟨a, done, .inr ⟨e, stopped, rfl⟩⟩
    · exact .inr ⟨_, stopped, rfl⟩
  · rintro (⟨a, done, ⟨b, then_b, end_r⟩ | ⟨e, stopped, rfl⟩⟩ | ⟨e, stopped, rfl⟩)
    · exact .inl ⟨b, .inl ⟨a, done, then_b⟩, end_r⟩
    · exact .inr ⟨e, .inl ⟨a, done, stopped⟩, rfl⟩
    · exact .inr ⟨e, .inr ⟨e, stopped, rfl⟩, rfl⟩

end AndThen

end ComputerNetwork.Lib
