import Mathlib.Tactic
import Mathlib.Logic.Relation

/-!
# Cascades of messages

A message to an address may have to wait at a node, the next one on its way.  A node that is given
up tells the addresses of all messages that wait at it, one after the other, and these messages may
have to wait at other nodes that are given up in turn.  The recursion ends exactly when the addresses
that are told in consequence are well-founded and none of them is lost (`giveUp_isSome_iff`); when it
ends, the nodes that were hit are gone and all others are as they were (`giveUp_eq_wipe`).
-/

namespace ComputerNetwork.Lib

namespace Cascade

variable {α : Type*}

/-- Where a message to an address waits, if it has to wait, and the addresses that no message can be
sent to. -/
structure Messages (α : Type*) where
  next : α → Option α
  lost : α → Bool

/-- The nodes that are to be given up, with the addresses that wait to be told; `none` stands for
one that cannot be told. -/
abbrev Pending (α : Type*) := α → Option (List (Option α))

/-! ## What is told in consequence -/

/-- The addresses that are told when `g` is given up because of a message that came to wait there. -/
def Source (p : Pending α) (g s : α) : Prop := ∃ l, p g = some l ∧ (s = g ∨ some s ∈ l)

/-- A message to `d` has the consequence that `s` is told. -/
def Tells (M : Messages α) (p : Pending α) (d s : α) : Prop := ∃ g, M.next d = some g ∧ Source p g s

/-- A message to `d` makes `x` be given up. -/
def Hits (M : Messages α) (p : Pending α) (d x : α) : Prop :=
  ∃ e, Relation.ReflTransGen (Tells M p) d e ∧ M.next e = some x ∧ p x ≠ none

/-- A message can be sent to `d`, and all that waits where it has to wait can be told. -/
def Sound (M : Messages α) (p : Pending α) (d : α) : Prop :=
  M.lost d = false ∧ ∀ g l, M.next d = some g → p g = some l → none ∉ l

/-- The consequences of a message to `d` come to an end. -/
structure Settles (M : Messages α) (p : Pending α) (d : α) : Prop where
  ends : Acc (fun s d => Tells M p d s) d
  sound : ∀ e, Relation.ReflTransGen (Tells M p) d e → Sound M p e

/-- What waits at `g` can be told and the consequences come to an end. -/
def Finishes (M : Messages α) (p : Pending α) (g : α) : Prop :=
  ∀ l, p g = some l → none ∉ l ∧ ∀ s, some s ∈ l → Settles M p s

/-- Giving up `g` makes `x` be given up. -/
def Removes (M : Messages α) (p : Pending α) (g x : α) : Prop :=
  ∃ l, p g = some l ∧ (x = g ∨ ∃ s, some s ∈ l ∧ Hits M p s x)

open scoped Classical in
/-- The nodes in `gone` are not pending any more. -/
noncomputable def wipe (p : Pending α) (gone : α → Prop) : Pending α :=
  fun x => if gone x then none else p x

open scoped Classical in
/-- Giving up `g` leaves `x` as it is. -/
noncomputable def survives (M : Messages α) (p : Pending α) (g x : α) : Bool := ¬ Removes M p g x

theorem survives_iff {M : Messages α} {p : Pending α} {g x : α} :
    survives M p g x = true ↔ ¬ Removes M p g x := by
  simp [survives]

/-- The nodes of a list are given up one after the other, until one does not finish, by a walk that has
saved the next one before.  What it finds saved is always still there. -/
inductive Undisturbed (M : Messages α) : Pending α → List α → Prop
  | nil (p : Pending α) : Undisturbed M p []
  | stuck {p : Pending α} {g : α} {rest : List α} (endless : ¬ Finishes M p g) :
      Undisturbed M p (g :: rest)
  | pass {p : Pending α} {g : α} {rest : List α} (finishes : Finishes M p g)
      (saved : ∀ x, rest.head? = some x → ¬ Removes M p g x)
      (later : Undisturbed M (wipe p (Removes M p g)) (rest.filter (survives M p g))) :
      Undisturbed M p (g :: rest)

section Consequences

variable {M : Messages α} {p : Pending α} {d e g s x y : α}

theorem Settles.intro (sound : Sound M p d) (told : ∀ s, Tells M p d s → Settles M p s) :
    Settles M p d where
  ends := Acc.intro d fun s tells => (told s tells).ends
  sound e reach := by
    cases Relation.ReflTransGen.cases_head reach with
    | inl same => exact same ▸ sound
    | inr first =>
      obtain ⟨s, tells, rest⟩ := first
      exact (told s tells).sound e rest

theorem Settles.tells (settles : Settles M p d) (tells : Tells M p d s) : Settles M p s where
  ends := settles.ends.inv tells
  sound e reach := settles.sound e (.head tells reach)

/-- No address is told in consequence of itself. -/
theorem Settles.not_cycle (settles : Settles M p d) : ¬ Relation.TransGen (Tells M p) d d := by
  obtain ⟨ends, -⟩ := settles
  induction ends with
  | intro d _ ih =>
    intro cycle
    obtain ⟨s, tells, rest⟩ := Relation.TransGen.head'_iff.1 cycle
    exact ih s tells (Relation.TransGen.tail' rest tells)

/-- A node that is given up is not hit by what it tells. -/
theorem Settles.not_hits (settles : Settles M p s) (source : Source p g s) : ¬ Hits M p s g := by
  rintro ⟨e, reach, next, -⟩
  exact settles.not_cycle (Relation.TransGen.tail' reach ⟨g, next, source⟩)

theorem Hits.trans (hits : Hits M p d x) (source : Source p x s) (further : Hits M p s y) :
    Hits M p d y := by
  obtain ⟨e, reach, next, -⟩ := hits
  obtain ⟨e', reach', last⟩ := further
  exact ⟨e', reach.trans (.head ⟨x, next, source⟩ reach'), last⟩

theorem Hits.of_tells (tells : Tells M p d s) (hits : Hits M p s x) : Hits M p d x := by
  obtain ⟨e, reach, last⟩ := hits
  exact ⟨e, .head tells reach, last⟩

theorem Removes.pending (removes : Removes M p g x) : p x ≠ none := by
  obtain ⟨l, live, same | ⟨s, -, e, -, -, pending⟩⟩ := removes
  · simp [same, live]
  · exact pending

/-- What a message hits: the node where it waits and what that one's messages hit. -/
theorem hits_iff : Hits M p d x ↔
    (M.next d = some x ∧ p x ≠ none) ∨ ∃ s, Tells M p d s ∧ Hits M p s x := by
  constructor
  · rintro ⟨e, reach, last⟩
    cases Relation.ReflTransGen.cases_head reach with
    | inl same => exact Or.inl (same ▸ last)
    | inr first =>
      obtain ⟨s, tells, rest⟩ := first
      exact Or.inr ⟨s, tells, e, rest, last⟩
  · rintro (last | ⟨s, tells, hits⟩)
    · exact ⟨d, .refl, last⟩
    · exact hits.of_tells tells

theorem source_iff {l : List (Option α)} (pending : p g = some l) :
    Source p g s ↔ some s ∈ some g :: l := by
  simp [Source, pending, eq_comm]

theorem hits_iff_of_next {l : List (Option α)} (next : M.next d = some g) (pending : p g = some l) :
    Hits M p d x ↔ x = g ∨ ∃ s, some s ∈ some g :: l ∧ Hits M p s x := by
  constructor
  · intro hits
    cases hits_iff.1 hits with
    | inl at_once => exact Or.inl (Option.some.inj (at_once.1.symm.trans next))
    | inr further =>
      obtain ⟨s, ⟨g', there, source⟩, hits⟩ := further
      have same : g = g' := Option.some.inj (next.symm.trans there)
      exact Or.inr ⟨s, (source_iff pending).1 (same ▸ source), hits⟩
  · rintro (rfl | ⟨s, mem, hits⟩)
    · exact ⟨d, .refl, next, by simp [pending]⟩
    · exact hits.of_tells ⟨g, next, (source_iff pending).2 mem⟩

theorem not_hits_of_none (next : M.next d = none) : ¬ Hits M p d x := by
  intro hits
  cases hits_iff.1 hits with
  | inl here => exact absurd (next.symm.trans here.1) (by simp)
  | inr further =>
    obtain ⟨s, ⟨g, there, -⟩, -⟩ := further
    exact absurd (next.symm.trans there) (by simp)

/-- A message settles that comes to wait at a node whose requests settle. -/
theorem Settles.of_next (found : M.lost d = false) (next : M.next d = some g)
    (ended : ∀ l₀, p g = some l₀ → none ∉ l₀ ∧ Settles M p g ∧
      ∀ s, some s ∈ l₀ → Settles M p s) : Settles M p d := by
  refine .intro ⟨found, fun g' l₀ there pending => ?_⟩ ?_
  · cases next.symm.trans there
    exact (ended l₀ pending).1
  · rintro s ⟨g', there, l₀, pending, source⟩
    cases next.symm.trans there
    cases source with
    | inl same => exact same ▸ (ended l₀ pending).2.1
    | inr waits => exact (ended l₀ pending).2.2 s waits

/-- A message that need not wait, or waits where nothing is to be given up. -/
theorem Settles.of_idle (found : M.lost d = false) (idle : ∀ g, M.next d = some g → p g = none) :
    Settles M p d := by
  refine .intro ⟨found, fun g l next live => ?_⟩ ?_
  · rw [idle g next] at live
    cases live
  · rintro s ⟨g, next, l, live, -⟩
    rw [idle g next] at live
    cases live

end Consequences

/-! ## Nodes that are gone -/

section Wiped

variable {M : Messages α} {p₀ p : Pending α} {d : α}

theorem wipe_of_none {gone : α → Prop} {x : α} (absent : p x = none) : wipe p gone x = none := by
  unfold wipe
  rw [absent, ite_self]

theorem wipe_nothing {gone : α → Prop} (nothing : ∀ x, gone x → p x = none) : wipe p gone = p := by
  funext x
  by_cases hit : gone x
  · rw [wipe_of_none (nothing x hit), nothing x hit]
  · exact if_neg hit

theorem wipe_congr {q : Pending α} {first second : α → Prop} {x : α}
    (same : first x ↔ second x) (alike : p x = q x) : wipe p first x = wipe q second x := by
  unfold wipe
  by_cases gone : first x
  · rw [if_pos gone, if_pos (same.1 gone)]
  · rw [if_neg gone, if_neg (mt same.2 gone), alike]

theorem wipe_wipe (p : Pending α) (first second : α → Prop) :
    wipe (wipe p first) second = wipe p fun x => first x ∨ second x := by
  funext x
  unfold wipe
  by_cases one : first x
  · rw [if_pos one, if_pos (Or.inl one), ite_self]
  · rw [if_neg one]
    by_cases two : second x
    · rw [if_pos two, if_pos (Or.inr two)]
    · rw [if_neg two, if_neg (by tauto)]

/-- What a message to `d` hits is as it was at first, or gone together with all that it would hit
itself. -/
def Untouched (M : Messages α) (p₀ : Pending α) (d : α) (p : Pending α) : Prop :=
  ∀ x, Hits M p₀ d x →
    p x = p₀ x ∨ p x = none ∧ ∀ s, Source p₀ x s → ∀ y, Hits M p₀ s y → p y = none

theorem Untouched.wipe {s : α} (untouched : Untouched M p₀ d p) :
    Untouched M p₀ d (wipe p (Hits M p₀ s)) := by
  intro x hits
  by_cases gone : Hits M p₀ s x
  · refine Or.inr ⟨if_pos gone, fun t source y further => ?_⟩
    exact if_pos (gone.trans source further)
  · cases untouched x hits with
    | inl same => exact Or.inl ((if_neg gone).trans same)
    | inr absent =>
      refine Or.inr ⟨(if_neg gone).trans absent.1, fun t source y further => ?_⟩
      exact wipe_of_none (absent.2 t source y further)

end Wiped

/-! ## The recursion -/

/-- An amount of fuel for each of finitely many addresses. -/
theorem exists_fuel {l : List (Option α)} {P : ℕ → α → Prop}
    (each : ∀ s, some s ∈ l → ∃ n, ∀ fuel, n ≤ fuel → P fuel s) :
    ∃ n, ∀ fuel, n ≤ fuel → ∀ s, some s ∈ l → P fuel s := by
  induction l with
  | nil => exact ⟨0, by simp⟩
  | cons first rest ih =>
    obtain ⟨n, later⟩ := ih fun s mem => each s (List.mem_cons_of_mem _ mem)
    cases first with
    | none => exact ⟨n, fun fuel enough s mem => later fuel enough s (by simpa using mem)⟩
    | some t =>
      obtain ⟨m, now⟩ := each t (List.mem_cons_self ..)
      refine ⟨max n m, fun fuel enough s mem => ?_⟩
      cases List.mem_cons.1 mem with
      | inl same =>
        cases same
        exact now fuel (le_trans (le_max_right ..) enough)
      | inr mem => exact later fuel (le_trans (le_max_left ..) enough) s mem

section Recursion

variable [DecidableEq α]

/-- A message from `g` itself comes to wait at `g`. -/
def push (p : Pending α) (g : α) : Pending α :=
  Function.update p g ((p g).map (some g :: ·))

def erase (p : Pending α) (g : α) : Pending α := Function.update p g none

/-- A message to `d`; `give` gives a node up. -/
def tell (M : Messages α) (give : Pending α → α → Option (Pending α)) (p : Pending α) (d : α) :
    Option (Pending α) :=
  if M.lost d then none
  else match M.next d with
    | none => some p
    | some g => give (push p g) g

section Tell

variable {M : Messages α} {give : Pending α → α → Option (Pending α)} {p : Pending α} {d g : α}

theorem tell_of_lost (lost : M.lost d = true) : tell M give p d = none := if_pos lost

theorem tell_of_none (found : M.lost d = false) (next : M.next d = none) :
    tell M give p d = some p := by
  simp [tell, found, next]

theorem tell_of_some (found : M.lost d = false) (next : M.next d = some g) :
    tell M give p d = give (push p g) g := by
  simp [tell, found, next]

end Tell

/-- One turn of the loop over what waits at `g`, which must still be there. -/
def turn (M : Messages α) (give : Pending α → α → Option (Pending α)) (g : α) (p : Pending α)
    (s : Option α) : Option (Pending α) :=
  if (p g).isNone then none else s.bind (tell M give p)

/-- Give up a node, if it is to be given up. -/
def giveUp (M : Messages α) : ℕ → Pending α → α → Option (Pending α)
  | 0, _, _ => none
  | fuel + 1, p, g =>
    match p g with
    | none => some p
    | some l => do
      let p ← l.foldlM (turn M (giveUp M fuel) g) p
      if (p g).isNone then none else some (erase p g)

/-! ## The recursion ends -/

variable {M : Messages α} {p₀ p : Pending α} {d g : α}

theorem push_of_none (absent : p g = none) : push p g = p := by
  funext x
  by_cases same : x = g
  · rw [same, push, Function.update_self, absent, Option.map_none]
  · rw [push, Function.update_of_ne same]

theorem push_self {l : List (Option α)} (live : p g = some l) : push p g g = some (some g :: l) := by
  rw [push, Function.update_self, live, Option.map_some]

theorem push_of_ne {x : α} (other : x ≠ g) : push p g x = p x := Function.update_of_ne other ..

/-- A message to `d` ends in the state where everything it hits is gone. -/
def Wipes (M : Messages α) (p₀ : Pending α) (fuel : ℕ) (d : α) : Prop :=
  ∀ p, (∀ x, p₀ x = none → p x = none) → Untouched M p₀ d p →
    tell M (giveUp M fuel) p d = some (wipe p (Hits M p₀ d))

theorem foldlM_turn {fuel : ℕ} {l : List (Option α)} {p : Pending α} (live : p g ≠ none)
    (known : ∀ x, p₀ x = none → p x = none) (tellable : none ∉ l)
    (apart : ∀ s, some s ∈ l → ¬ Hits M p₀ s g)
    (untouched : ∀ s, some s ∈ l → Untouched M p₀ s p)
    (wipes : ∀ s, some s ∈ l → Wipes M p₀ fuel s) :
    l.foldlM (turn M (giveUp M fuel) g) p =
      some (wipe p fun x => ∃ s, some s ∈ l ∧ Hits M p₀ s x) := by
  induction l generalizing p with
  | nil =>
    rw [wipe_nothing (by simp)]
    rfl
  | cons first rest ih =>
    cases first with
    | none => exact absurd (List.mem_cons_self ..) tellable
    | some s =>
      have here : some s ∈ some s :: rest := List.mem_cons_self ..
      have there : ∀ t, some t ∈ rest → some t ∈ some s :: rest := fun t mem =>
        List.mem_cons_of_mem _ mem
      have linked : (p g).isNone = false := by
        rw [Option.isNone_eq_false_iff]
        exact Option.isSome_iff_ne_none.2 live
      have one : turn M (giveUp M fuel) g p (some s) = some (wipe p (Hits M p₀ s)) := by
        rw [turn, linked]
        exact wipes s here p known (untouched s here)
      have still : wipe p (Hits M p₀ s) g ≠ none := by rwa [wipe, if_neg (apart s here)]
      have later := ih still (fun x absent => wipe_of_none (known x absent))
        (fun mem => tellable (List.mem_cons_of_mem _ mem)) (fun t mem => apart t (there t mem))
        (fun t mem => (untouched t (there t mem)).wipe) fun t mem => wipes t (there t mem)
      rw [List.foldlM_cons, one]
      refine later.trans ?_
      rw [wipe_wipe]
      simp [or_and_right, exists_or]

theorem wipes_of_idle {fuel : ℕ} (found : M.lost d = false) (next : M.next d = some g)
    (idle : p₀ g = none) (enough : 0 < fuel) : Wipes M p₀ fuel d := by
  intro p known untouched
  have nothing : ∀ x, ¬ Hits M p₀ d x := by
    intro x hits
    cases hits_iff.1 hits with
    | inl here =>
      have same : g = x := Option.some.inj (next.symm.trans here.1)
      exact here.2 (same ▸ idle)
    | inr further =>
      obtain ⟨s, ⟨g', there, l, live, -⟩, -⟩ := further
      have same : g = g' := Option.some.inj (next.symm.trans there)
      rw [← same, idle] at live
      exact absurd live (by simp)
  obtain ⟨fuel, rfl⟩ : ∃ k, fuel = k + 1 := ⟨fuel - 1, by omega⟩
  rw [wipe_nothing fun x hits => absurd hits (nothing x), tell_of_some found next,
    push_of_none (known g idle), giveUp, known g idle]

/-- What a message to `s` hits is still as it was when another one has come to wait at `g`. -/
theorem Untouched.push {s : α} (untouched : Untouched M p₀ d p) (tells : Tells M p₀ d s)
    (apart : ¬ Hits M p₀ s g) : Untouched M p₀ s (push p g) := by
  intro x hits
  have other : ∀ t y, Source p₀ x t → Hits M p₀ t y → y ≠ g := by
    rintro t y source further rfl
    exact apart (hits.trans source further)
  rw [push_of_ne (by rintro rfl; exact apart hits)]
  cases untouched x (hits.of_tells tells) with
  | inl same => exact Or.inl same
  | inr gone =>
    refine Or.inr ⟨gone.1, fun t source y further => ?_⟩
    rw [push_of_ne (other t y source further)]
    exact gone.2 t source y further

theorem wipes_of_live {fuel : ℕ} {l : List (Option α)} (found : M.lost d = false)
    (next : M.next d = some g) (pending : p₀ g = some l) (tellable : none ∉ l)
    (apart : ∀ s, some s ∈ some g :: l → ¬ Hits M p₀ s g)
    (wipes : ∀ s, some s ∈ some g :: l → Wipes M p₀ fuel s) : Wipes M p₀ (fuel + 1) d := by
  intro p known untouched
  have split := fun x => hits_iff_of_next (x := x) next pending
  have here : Hits M p₀ d g := (split g).2 (Or.inl rfl)
  rw [tell_of_some found next]
  cases untouched g here with
  | inr gone =>
    -- the node was given up before, with all that it leads to
    rw [push_of_none gone.1, giveUp, gone.1, wipe_nothing]
    intro x hits
    cases (split x).1 hits with
    | inl same => exact same ▸ gone.1
    | inr further =>
      obtain ⟨s, mem, hits⟩ := further
      exact gone.2 s ((source_iff pending).2 mem) x hits
  | inl same =>
    have live : push p g g = some (some g :: l) := push_self (same.trans pending)
    have still : ∀ s, some s ∈ some g :: l → Untouched M p₀ s (push p g) := fun s mem =>
      untouched.push ⟨g, next, (source_iff pending).2 mem⟩ (apart s mem)
    have known' : ∀ x, p₀ x = none → push p g x = none := by
      intro x absent
      rw [push_of_ne (by rintro rfl; simp [pending] at absent)]
      exact known x absent
    have loop := foldlM_turn (by simp [live]) known' (by simpa using tellable) apart still wipes
    rw [giveUp, live]
    simp only [loop, Option.bind_eq_bind, Option.bind_some]
    have linked : wipe (push p g) (fun x => ∃ s, some s ∈ some g :: l ∧ Hits M p₀ s x) g =
        some (some g :: l) := by
      rw [wipe, if_neg (by rintro ⟨s, mem, hits⟩; exact apart s mem hits), live]
    rw [linked, Option.isNone_some, if_neg Bool.false_ne_true]
    congr 1
    funext x
    by_cases eq : x = g
    · rw [eq, erase, Function.update_self, wipe, if_pos here]
    · rw [erase, Function.update_of_ne eq]
      exact wipe_congr ((split x).trans (or_iff_right eq)).symm (push_of_ne eq)

/-- A message whose consequences come to an end wipes what it hits. -/
theorem Settles.wipes (settles : Settles M p₀ d) : ∃ n, ∀ fuel, n ≤ fuel → Wipes M p₀ fuel d := by
  have sound := settles.sound
  have whole := settles
  obtain ⟨ends, -⟩ := settles
  induction ends with
  | intro d _ ih =>
    obtain ⟨found, tellable⟩ := sound d .refl
    cases next : M.next d with
    | none =>
      -- the message need not wait
      refine ⟨0, fun fuel _ p known untouched => ?_⟩
      rw [wipe_nothing fun x hits => absurd hits (not_hits_of_none next), tell_of_none found next]
    | some g =>
      cases pending : p₀ g with
      | none => exact ⟨1, fun fuel enough => wipes_of_idle found next pending (by omega)⟩
      | some l =>
        have source : ∀ s, some s ∈ some g :: l → Source p₀ g s := by
          intro s mem
          cases List.mem_cons.1 mem with
          | inl same => exact ⟨l, pending, Or.inl (Option.some.inj same)⟩
          | inr waits => exact ⟨l, pending, Or.inr waits⟩
        have settled : ∀ s, some s ∈ some g :: l → Settles M p₀ s := fun s mem =>
          whole.tells ⟨g, next, source s mem⟩
        obtain ⟨n, each⟩ := exists_fuel fun s mem =>
          ih s ⟨g, next, source s mem⟩ (settled s mem).sound (settled s mem)
        refine ⟨n + 1, fun fuel enough => ?_⟩
        obtain ⟨fuel, rfl⟩ : ∃ k, fuel = k + 1 := ⟨fuel - 1, by omega⟩
        exact wipes_of_live found next pending (tellable g l next pending)
          (fun s mem => (settled s mem).not_hits (source s mem))
          fun s mem => each fuel (by omega) s mem

/-! ## Only then -/

/-- What is known while the recursion that started from `p₀` runs: each node still has what waited at
it, or its consequences have come to an end. -/
def Explored (M : Messages α) (p₀ p : Pending α) : Prop :=
  ∀ g l₀, p₀ g = some l₀ → (∃ l, p g = some l ∧ l₀ ⊆ l) ∨
    none ∉ l₀ ∧ Settles M p₀ g ∧ ∀ s, some s ∈ l₀ → Settles M p₀ s

theorem Explored.push (explored : Explored M p₀ p) (g : α) : Explored M p₀ (push p g) := by
  intro x l₀ pending
  cases explored x l₀ pending with
  | inr ended => exact Or.inr ended
  | inl live =>
    obtain ⟨l, live, waits⟩ := live
    by_cases same : x = g
    · rw [same] at live ⊢
      exact Or.inl ⟨some g :: l, push_self live, fun s mem => List.mem_cons_of_mem _ (waits mem)⟩
    · rw [push_of_ne same]
      exact Or.inl ⟨l, live, waits⟩

theorem mem_of_push {l : List (Option α)} (live : push p g g = some l) : some g ∈ l := by
  cases before : p g with
  | none =>
    rw [push_of_none before, before] at live
    exact absurd live (by simp)
  | some l' =>
    cases live.symm.trans (push_self before)
    exact List.mem_cons_self ..

/-- A message that has been told, given what it means that nodes have been given up. -/
theorem tell_explored {give : Pending α → α → Option (Pending α)} {p' : Pending α}
    (gives : ∀ p g p', Explored M p₀ p → give p g = some p' → (p g = none ∧ p' = p) ∨ ∃ l p₁,
      p g = some l ∧ none ∉ l ∧ (∀ s, some s ∈ l → Settles M p₀ s) ∧ Explored M p₀ p₁ ∧
        p' = erase p₁ g)
    (explored : Explored M p₀ p) (told : tell M give p d = some p') :
    Settles M p₀ d ∧ Explored M p₀ p' := by
  have found : M.lost d = false := by
    cases lost : M.lost d with
    | false => rfl
    | true => exact absurd ((tell_of_lost lost).symm.trans told) (by simp)
  cases next : M.next d with
  | none =>
    rw [tell_of_none found next] at told
    cases told
    exact ⟨.of_idle found fun g there => absurd (next.symm.trans there) (by simp), explored⟩
  | some g =>
    rw [tell_of_some found next] at told
    cases gives _ g p' (explored.push g) told with
    | inl idle =>
      obtain ⟨idle, rfl⟩ := idle
      refine ⟨Settles.of_next found next fun l₀ pending => ?_, explored.push g⟩
      cases explored.push g g l₀ pending with
      | inl live => exact absurd (idle.symm.trans live.choose_spec.1) (by simp)
      | inr ended => exact ended
    | inr given =>
      obtain ⟨l, p₁, live, tellable, settled, explored₁, rfl⟩ := given
      have ended : ∀ l₀, p₀ g = some l₀ → none ∉ l₀ ∧ Settles M p₀ g ∧
          ∀ s, some s ∈ l₀ → Settles M p₀ s := by
        intro l₀ pending
        cases explored.push g g l₀ pending with
        | inr ended => exact ended
        | inl still =>
          obtain ⟨l', still, subset⟩ := still
          cases still.symm.trans live
          exact ⟨fun mem => tellable (subset mem), settled g (mem_of_push live), fun s mem =>
            settled s (subset mem)⟩
      refine ⟨Settles.of_next found next ended, fun x l₀ pending => ?_⟩
      by_cases same : x = g
      · exact Or.inr (same ▸ ended l₀ (same ▸ pending))
      · rw [erase, Function.update_of_ne same]
        exact explored₁ x l₀ pending

/-- When a node has been given up, all that waited there was told and settles. -/
theorem giveUp_explored {fuel : ℕ} {p' : Pending α} (explored : Explored M p₀ p)
    (given : giveUp M fuel p g = some p') : (p g = none ∧ p' = p) ∨ ∃ l p₁,
      p g = some l ∧ none ∉ l ∧ (∀ s, some s ∈ l → Settles M p₀ s) ∧ Explored M p₀ p₁ ∧
        p' = erase p₁ g := by
  induction fuel generalizing p g p' with
  | zero => exact absurd given (by simp [giveUp])
  | succ fuel ih =>
    have loop : ∀ (l : List (Option α)) (p p₁ : Pending α), Explored M p₀ p →
        l.foldlM (turn M (giveUp M fuel) g) p = some p₁ →
        none ∉ l ∧ (∀ s, some s ∈ l → Settles M p₀ s) ∧ Explored M p₀ p₁ := by
      intro l
      induction l with
      | nil =>
        intro p p₁ explored run
        cases run
        exact ⟨by simp, by simp, explored⟩
      | cons first rest ihl =>
        intro p p₁ explored run
        rw [List.foldlM_cons] at run
        obtain ⟨p₂, one, later⟩ := Option.bind_eq_some_iff.1 run
        unfold turn at one
        split_ifs at one
        obtain ⟨s, rfl, told⟩ := Option.bind_eq_some_iff.1 one
        obtain ⟨settles, explored₂⟩ := tell_explored (fun p g p' => ih) explored told
        obtain ⟨tellable, settled, explored₁⟩ := ihl p₂ p₁ explored₂ later
        refine ⟨by simpa using tellable, fun t mem => ?_, explored₁⟩
        cases List.mem_cons.1 mem with
        | inl same => exact Option.some.inj same ▸ settles
        | inr mem => exact settled t mem
    cases live : p g with
    | none =>
      rw [giveUp, live] at given
      exact Or.inl ⟨rfl, (Option.some.inj given).symm⟩
    | some l =>
      rw [giveUp, live] at given
      obtain ⟨p₁, run, last⟩ := Option.bind_eq_some_iff.1 given
      split_ifs at last
      obtain ⟨tellable, settled, explored₁⟩ := loop l p p₁ explored run
      exact Or.inr ⟨l, p₁, rfl, tellable, settled, explored₁, (Option.some.inj last).symm⟩

/-! ## The recursion is exact -/

theorem tell_mono {give give' : Pending α → α → Option (Pending α)} {p' : Pending α}
    (more : ∀ p g p', give p g = some p' → give' p g = some p')
    (told : tell M give p d = some p') : tell M give' p d = some p' := by
  unfold tell at told ⊢
  split_ifs at told ⊢
  cases next : M.next d with
  | none => simpa [next] using told
  | some g =>
    rw [next] at told
    exact more _ g p' told

theorem giveUp_mono {fuel fuel' : ℕ} {p' : Pending α} (given : giveUp M fuel p g = some p')
    (more : fuel ≤ fuel') : giveUp M fuel' p g = some p' := by
  induction fuel generalizing p g p' fuel' with
  | zero => exact absurd given (by simp [giveUp])
  | succ fuel ih =>
    obtain ⟨fuel', rfl⟩ : ∃ k, fuel' = k + 1 := ⟨fuel' - 1, by omega⟩
    have loop : ∀ (l : List (Option α)) (p p₁ : Pending α),
        l.foldlM (turn M (giveUp M fuel) g) p = some p₁ →
        l.foldlM (turn M (giveUp M fuel') g) p = some p₁ := by
      intro l
      induction l with
      | nil => exact fun p p₁ run => run
      | cons first rest ihl =>
        intro p p₁ run
        rw [List.foldlM_cons] at run ⊢
        obtain ⟨p₂, one, later⟩ := Option.bind_eq_some_iff.1 run
        refine Option.bind_eq_some_iff.2 ⟨p₂, ?_, ihl p₂ p₁ later⟩
        unfold turn at one ⊢
        split_ifs at one ⊢
        obtain ⟨s, rfl, told⟩ := Option.bind_eq_some_iff.1 one
        exact tell_mono (fun p g p' given => ih given (by omega)) told
    rw [giveUp] at given ⊢
    cases live : p g with
    | none => simpa [live] using given
    | some l =>
      rw [live] at given
      obtain ⟨p₁, run, last⟩ := Option.bind_eq_some_iff.1 given
      exact Option.bind_eq_some_iff.2 ⟨p₁, loop l p p₁ run, last⟩

theorem Finishes.giveUp (finishes : Finishes M p g) :
    ∃ n, giveUp M n p g = some (wipe p (Removes M p g)) := by
  cases live : p g with
  | none =>
    refine ⟨1, ?_⟩
    rw [Cascade.giveUp, live, wipe_nothing]
    rintro x ⟨l, pending, -⟩
    exact absurd (live.symm.trans pending) (by simp)
  | some l =>
    obtain ⟨tellable, settled⟩ := finishes l live
    have apart : ∀ s, some s ∈ l → ¬ Hits M p s g := fun s mem =>
      (settled s mem).not_hits ⟨l, live, Or.inr mem⟩
    obtain ⟨n, each⟩ := exists_fuel fun s mem => (settled s mem).wipes
    refine ⟨n + 1, ?_⟩
    have loop := foldlM_turn (by simp [live]) (fun x absent => absent) tellable apart
      (fun s mem x _ => Or.inl rfl) (each n le_rfl)
    rw [Cascade.giveUp, live]
    simp only [loop, Option.bind_eq_bind, Option.bind_some]
    have linked : wipe p (fun x => ∃ s, some s ∈ l ∧ Hits M p s x) g = some l := by
      rw [wipe, if_neg (by rintro ⟨s, mem, hits⟩; exact apart s mem hits), live]
    rw [linked, Option.isNone_some, if_neg Bool.false_ne_true]
    congr 1
    funext x
    by_cases same : x = g
    · rw [same, erase, Function.update_self, wipe, if_pos ⟨l, live, Or.inl rfl⟩]
    · rw [erase, Function.update_of_ne same]
      refine wipe_congr ⟨fun hit => ⟨l, live, Or.inr hit⟩, ?_⟩ rfl
      rintro ⟨l', live', hit⟩
      cases live.symm.trans live'
      exact hit.resolve_left same

/-- The recursion ends exactly when all that waits can be told and settles. -/
theorem giveUp_isSome_iff : (∃ n p', giveUp M n p g = some p') ↔ Finishes M p g := by
  constructor
  · rintro ⟨n, p', given⟩ l live
    have explored : Explored M p p := fun x l₀ pending => Or.inl ⟨l₀, pending, List.Subset.refl l₀⟩
    cases giveUp_explored explored given with
    | inl idle => exact absurd (idle.1.symm.trans live) (by simp)
    | inr given =>
      obtain ⟨l', p₁, live', tellable, settled, -⟩ := given
      cases live.symm.trans live'
      exact ⟨tellable, settled⟩
  · intro finishes
    obtain ⟨n, given⟩ := finishes.giveUp
    exact ⟨n, _, given⟩

/-- The nodes that were hit are gone, and all others are as they were. -/
theorem giveUp_eq_wipe {fuel : ℕ} {p' : Pending α} (given : giveUp M fuel p g = some p') :
    p' = wipe p (Removes M p g) := by
  obtain ⟨n, whole⟩ := (giveUp_isSome_iff.1 ⟨fuel, p', given⟩).giveUp
  have one := giveUp_mono given (le_max_left fuel n)
  have other := giveUp_mono whole (le_max_right fuel n)
  exact Option.some.inj (one.symm.trans other)

end Recursion

end Cascade

end ComputerNetwork.Lib
