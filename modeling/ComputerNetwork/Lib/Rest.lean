import ComputerNetwork.Lib.Run

/-!
# Runs that come to rest

A machine whose steps spend a potential.  From a good state it takes no more steps than the
potential pays for (`Spends.length_le`), in whatever order they come, and it can always be run until
no step is left (`Spends.exists_atRest`).  `Runs.append` puts two runs together.
-/

namespace ComputerNetwork.Lib.Machine

variable {S A O : Type*} {M : Machine S A O}

theorem Runs.append {C : A → Prop} {s₀ s s' : S} {tr tr' : List (A × O)}
    (run : M.Runs (fun _ _ a => C a) s₀ tr s) (more : M.Runs (fun _ _ a => C a) s tr' s') :
    M.Runs (fun _ _ a => C a) s₀ (tr ++ tr') s' := by
  induction more with
  | nil =>
    rw [List.append_nil]
    exact run
  | snoc _ cond st ih =>
    rw [← List.append_assoc]
    exact ih.snoc cond st

variable (M) in
/-- No step of the kind `C` is possible. -/
def AtRest (C : A → Prop) (s : S) : Prop := ∀ a, C a → M.step s a = none

/-- In a good state every step of the kind `C` leads to a good state and costs something. -/
structure Spends (M : Machine S A O) (C : A → Prop) (good : S → Prop) (potential : S → ℕ) :
    Prop where
  keep : ∀ s a o s', good s → C a → M.step s a = some (s', o) → good s'
  spend : ∀ s a o s', good s → C a → M.step s a = some (s', o) → potential s' + 1 ≤ potential s

section Spends

variable {C : A → Prop} {good : S → Prop} {potential : S → ℕ} (h : Spends M C good potential)

include h

theorem Spends.length_le {s s' : S} {tr : List (A × O)} (start : good s)
    (run : M.Runs (fun _ _ a => C a) s tr s') :
    good s' ∧ tr.length + potential s' ≤ potential s := by
  refine run.invariant (I := fun tr s' => good s' ∧ tr.length + potential s' ≤ potential s)
    ⟨start, by simp⟩ ?_
  rintro tr t a o t' - ⟨now, bound⟩ cond st
  refine ⟨h.keep _ _ _ _ now cond st, ?_⟩
  have paid := h.spend _ _ _ _ now cond st
  rw [List.length_append, List.length_singleton]
  omega

theorem Spends.exists_atRest {s : S} (start : good s) :
    ∃ tr s', M.Runs (fun _ _ a => C a) s tr s' ∧ M.AtRest C s' := by
  -- induction on what is left to spend
  induction left : potential s using Nat.strong_induction_on generalizing s with
  | _ n ih =>
    by_cases rest : M.AtRest C s
    · exact ⟨[], s, .nil, rest⟩
    · simp only [AtRest, not_forall] at rest
      obtain ⟨a, cond, more⟩ := rest
      obtain ⟨⟨t, o⟩, st⟩ := Option.ne_none_iff_exists'.1 more
      have paid := h.spend _ _ _ _ start cond st
      obtain ⟨tr, s', run, done⟩ := ih (potential t) (by omega) (h.keep _ _ _ _ start cond st) rfl
      exact ⟨[] ++ [(a, o)] ++ tr, s', (Runs.nil.snoc cond st).append run, done⟩

end Spends

end ComputerNetwork.Lib.Machine
