import Mathlib.Tactic

/-!
# Runs of a labelled machine

A machine takes a state and an action to the next state and what the step lets an observer see; a
step that is not enabled has no result.  `Runs C s₀ tr s` says that the trace `tr` leads from `s₀`
to `s` and that every step met the condition `C` on the trace so far, the state before the step and
the action.  `Runs.invariant` is the induction rule for all runs, `Runs.simulate` the
rule for a machine that another one simulates, and `Runs.exists_of_exec` turns an evaluation into a
run.
-/

namespace ComputerNetwork.Lib

/-- A computation that may fail succeeds when its first step does and the rest does on the result. -/
theorem bind_eq_ok {ε α β : Type} {x : Except ε α} {f : α → Except ε β} {b : β} :
    (x >>= f) = .ok b ↔ ∃ a, x = .ok a ∧ f a = .ok b := by
  cases x with
  | error e => simp [bind, Except.bind]
  | ok a => simp [bind, Except.bind]

/-- A deterministic labelled machine: the action carries every choice the environment makes. -/
structure Machine (S A O : Type*) where
  /-- The step function; `none` when the action is not enabled. -/
  step : S → A → Option (S × O)

theorem snoc_eq_append_cons {α : Type*} {tr pre post : List α} {x y : α}
    (h : tr ++ [x] = pre ++ y :: post) :
    (pre = tr ∧ y = x ∧ post = []) ∨ ∃ post', tr = pre ++ y :: post' ∧ post = post' ++ [x] := by
  rcases List.eq_nil_or_concat post with rfl | ⟨post', z, rfl⟩
  · obtain ⟨rfl, h2⟩ := List.append_inj' h rfl
    cases h2
    exact Or.inl ⟨rfl, rfl, rfl⟩
  · rw [List.concat_eq_append, ← List.cons_append, ← List.append_assoc] at h
    obtain ⟨h1, h2⟩ := List.append_inj' h rfl
    cases h2
    exact Or.inr ⟨post', h1, by rw [List.concat_eq_append]⟩

namespace Machine

variable {S A O : Type*} (M : Machine S A O)

/-- Runs in which every step meets the condition `C`. -/
inductive Runs (C : List (A × O) → S → A → Prop) (s₀ : S) : List (A × O) → S → Prop
  | nil : Runs C s₀ [] s₀
  | snoc {tr s a o s'} : Runs C s₀ tr s → C tr s a → M.step s a = some (s', o) →
      Runs C s₀ (tr ++ [(a, o)]) s'

/-- All runs. -/
abbrev Run (s₀ : S) : List (A × O) → S → Prop := M.Runs (fun _ _ _ => True) s₀

variable {M}

theorem Runs.invariant {C : List (A × O) → S → A → Prop} {s₀ s : S} {tr : List (A × O)}
    {I : List (A × O) → S → Prop} (run : M.Runs C s₀ tr s) (start : I [] s₀)
    (keep : ∀ tr s a o s', M.Runs C s₀ tr s → I tr s → C tr s a → M.step s a = some (s', o) →
      I (tr ++ [(a, o)]) s') : I tr s := by
  induction run with
  | nil => exact start
  | snoc before cond st ih => exact keep _ _ _ _ _ before ih cond st

/-- Every entry of the trace of a run is a step from a state that the run has reached. -/
theorem Runs.step_of_mem {C : List (A × O) → S → A → Prop} {s₀ s : S} {pre post : List (A × O)}
    {a : A} {o : O} (run : M.Runs C s₀ (pre ++ (a, o) :: post) s) :
    ∃ before after, M.Runs C s₀ pre before ∧ C pre before a ∧ M.step before a = some (after, o) := by
  generalize whole : pre ++ (a, o) :: post = tr at run
  induction run generalizing post with
  | nil => simp at whole
  | snoc ran cond st ih =>
    rcases snoc_eq_append_cons whole.symm with ⟨rfl, same, -⟩ | ⟨post', old, -⟩
    · cases same
      exact ⟨_, _, ran, cond, st⟩
    · exact ih old.symm

theorem Runs.of_snoc {C : List (A × O) → S → A → Prop} {s₀ s' : S} {tr : List (A × O)} {a : A} {o : O}
    (run : M.Runs C s₀ (tr ++ [(a, o)]) s') :
    ∃ s, M.Runs C s₀ tr s ∧ C tr s a ∧ M.step s a = some (s', o) := by
  generalize whole : tr ++ [(a, o)] = longer at run
  cases run with
  | nil => simp at whole
  | snoc before cond st =>
    obtain ⟨rfl, same⟩ := List.append_inj' whole rfl
    cases same
    exact ⟨_, before, cond, st⟩

theorem Runs.unique {C D : List (A × O) → S → A → Prop} {s₀ s s' : S} {tr : List (A × O)}
    (run : M.Runs C s₀ tr s) (run' : M.Runs D s₀ tr s') : s = s' := by
  induction run generalizing s' with
  | nil =>
    generalize none : ([] : List (A × O)) = tr at run'
    cases run' with
    | nil => rfl
    | snoc => simp at none
  | snoc _ _ st ih =>
    obtain ⟨t, ran, -, st'⟩ := run'.of_snoc
    rw [← ih ran, st] at st'
    exact (Prod.mk.inj (Option.some.inj st')).1

/-- A machine that a second one simulates step by step: `abs` says what a step is there. -/
theorem Runs.simulate {T B P : Type*} {N : Machine T B P} {C : List (A × O) → S → A → Prop} {s₀ s : S}
    {t₀ : T} {tr : List (A × O)} (run : M.Runs C s₀ tr s) (R : S → T → Prop) (abs : A × O → B × P)
    (start : R s₀ t₀)
    (keep : ∀ tr s a o s' t, C tr s a → M.step s a = some (s', o) → R s t →
      ∃ t', N.step t (abs (a, o)).1 = some (t', (abs (a, o)).2) ∧ R s' t') :
    ∃ t, N.Run t₀ (tr.map abs) t ∧ R s t := by
  induction run with
  | nil => exact ⟨t₀, .nil, start⟩
  | snoc _ cond st ih =>
    obtain ⟨t, ran, related⟩ := ih
    obtain ⟨t', next, related'⟩ := keep _ _ _ _ _ _ cond st related
    rw [List.map_append]
    exact ⟨t', ran.snoc trivial next, related'⟩

/-- Execute a list of actions from a state reached by the trace `tr`, checking `C` at each step. -/
def execFrom (M : Machine S A O) (C : List (A × O) → S → A → Bool) :
    List (A × O) → S → List A → Option (List (A × O) × S)
  | tr, s, [] => some (tr, s)
  | tr, s, a :: rest =>
      if C tr s a then
        match M.step s a with
        | some (s', o) => execFrom M C (tr ++ [(a, o)]) s' rest
        | none => none
      else none

theorem Runs.of_execFrom {C : List (A × O) → S → A → Bool} {s₀ s s' : S} {tr tr' : List (A × O)}
    {acts : List A} (run : M.Runs (fun tr s a => C tr s a = true) s₀ tr s)
    (result : execFrom M C tr s acts = some (tr', s')) :
    M.Runs (fun tr s a => C tr s a = true) s₀ tr' s' := by
  induction acts generalizing tr s with
  | nil =>
    simp only [execFrom, Option.some.injEq, Prod.mk.injEq] at result
    obtain ⟨rfl, rfl⟩ := result
    exact run
  | cons a rest ih =>
    rw [execFrom] at result
    split_ifs at result with cond
    split at result
    · rename_i next o st
      exact ih (run.snoc cond st) result
    · cases result

theorem Runs.mono {C D : List (A × O) → S → A → Prop} {s₀ s : S} {tr : List (A × O)}
    (run : M.Runs C s₀ tr s) (weaker : ∀ tr s a, C tr s a → D tr s a) : M.Runs D s₀ tr s := by
  induction run with
  | nil => exact .nil
  | snoc _ cond st ih => exact ih.snoc (weaker _ _ _ cond) st

/-- An evaluation is a run. -/
theorem Run.of_exec (M : Machine S A O) (s₀ : S) (acts : List A) {tr : List (A × O)} {s : S}
    (result : execFrom M (fun _ _ _ => true) [] s₀ acts = some (tr, s)) : M.Run s₀ tr s :=
  (Runs.of_execFrom .nil result).mono fun _ _ _ _ => trivial

/-- An evaluation that ends in a state with property `P` gives a run that does. -/
theorem Runs.exists_of_exec {C : List (A × O) → S → A → Bool} {i : S}
    {P : List (A × O) → S → Prop} [∀ tr s, Decidable (P tr s)] (acts : List A)
    (result : (execFrom M C [] i acts).any (fun r => decide (P r.1 r.2)) = true) :
    ∃ tr s, M.Runs (fun tr s a => C tr s a = true) i tr s ∧ P tr s := by
  rw [Option.any_eq_true] at result
  obtain ⟨⟨tr, s⟩, he, hp⟩ := result
  exact ⟨tr, s, Runs.of_execFrom .nil he, of_decide_eq_true hp⟩

/-- The same where part of the condition is about the actions alone and need not be decidable. -/
theorem Runs.exists_of_exec_all {C : List (A × O) → S → A → Bool} {D : A → Prop} {i : S}
    {P : List (A × O) → S → Prop} [∀ tr s, Decidable (P tr s)] (acts : List A)
    (meet : ∀ a ∈ acts, D a)
    (result : (execFrom M C [] i acts).any (fun r => decide (P r.1 r.2)) = true) :
    ∃ tr s, M.Runs (fun tr s a => C tr s a = true ∧ D a) i tr s ∧ P tr s := by
  have runs : ∀ (acts : List A) tr s tr' s', (∀ a ∈ acts, D a) →
      M.Runs (fun tr s a => C tr s a = true ∧ D a) i tr s →
      execFrom M C tr s acts = some (tr', s') →
      M.Runs (fun tr s a => C tr s a = true ∧ D a) i tr' s' := by
    intro acts
    induction acts with
    | nil =>
      intro tr s tr' s' _ run result
      cases result
      exact run
    | cons a rest ih =>
      intro tr s tr' s' meet run result
      rw [execFrom] at result
      split_ifs at result with cond
      split at result
      · rename_i next o st
        exact ih _ _ _ _ (fun b mem => meet b (List.mem_cons_of_mem _ mem))
          (run.snoc ⟨cond, meet a (List.mem_cons_self ..)⟩ st) result
      · cases result
  rw [Option.any_eq_true] at result
  obtain ⟨⟨tr, s⟩, he, hp⟩ := result
  exact ⟨tr, s, runs acts _ _ _ _ meet .nil he, of_decide_eq_true hp⟩

end Machine

end ComputerNetwork.Lib
