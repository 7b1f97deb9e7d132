import ComputerNetwork.Http.HeaderStore

/-!
# What the parser makes of header lines

`Reads b cur ps` says that the loop over the header lines, started at `cur` in the block `b`, sets
the headers `ps` one after the other and gets to the blank line; `parseLines_of_reads` and
`exists_reads` connect it with the code.  A line without a colon takes its key from the lines that
follow, down to the next colon wherever that is, so a key may span lines and even the blank line.
-/

namespace ComputerNetwork.Http

open Lib

/-! ## Lines -/

/-- A text without a line end. -/
def NoCrlf (s : Text) : Prop := ¬ crlf <:+: s

instance (s : Text) : Decidable (NoCrlf s) := inferInstanceAs (Decidable (¬ _))

theorem position_crlf {a : Text} (line : NoCrlf a) (b : Text) :
    position crlf (a ++ (crlf ++ b)) = some a.length := by
  rw [position_eq_some]
  refine ⟨by simp, by simp, fun j hj begins => line ?_⟩
  rw [List.drop_append_of_le_length hj.le] at begins
  rcases rest : a.drop j with _ | ⟨c, _ | ⟨d, rest'⟩⟩
  · have := congrArg List.length rest
    rw [List.length_drop, List.length_nil] at this
    omega
  · rw [rest] at begins
    simp [crlf] at begins
  · rw [rest] at begins
    simp only [crlf, List.cons_append, List.cons_prefix_cons, List.nil_prefix, and_true] at begins
    obtain ⟨rfl, rfl⟩ := begins
    have whole := List.take_append_drop j a
    rw [rest] at whole
    exact ⟨a.take j, rest', by simpa [crlf] using whole⟩

theorem exists_line {s : Text} (found : crlf <:+: s) :
    ∃ a b, s = a ++ (crlf ++ b) ∧ NoCrlf a := by
  rcases at_ : position crlf s with _ | i
  · exact absurd found (position_eq_none.1 at_)
  · obtain ⟨a, b, rfl, rfl⟩ := exists_of_position at_
    refine ⟨a, b, rfl, fun ⟨x, y, inside⟩ => ?_⟩
    obtain ⟨-, -, first⟩ := position_eq_some.1 at_
    have small : x.length + 2 ≤ a.length := by
      rw [← inside]
      simp [crlf]
    refine first x.length (by omega) ?_
    rw [← inside, List.append_assoc, List.append_assoc, List.drop_left]
    exact ⟨_, rfl⟩

theorem NoCrlf.mono {a s : Text} (line : NoCrlf s) (inside : a <:+: s) : NoCrlf a :=
  fun h => line (h.trans inside)

theorem noCrlf_nil : NoCrlf [] := by simp [NoCrlf, crlf]

/-- Texts without a line end stay so around a byte that is part of none. -/
theorem NoCrlf.cons {a b : Text} {c : UInt8} (line : NoCrlf a) (line' : NoCrlf b) (cr : c ≠ 13)
    (lf : c ≠ 10) : NoCrlf (a ++ c :: b) := by
  rintro ⟨x, y, split⟩
  rw [List.append_assoc] at split
  rcases List.append_eq_append_iff.1 split with ⟨d, rfl, more⟩ | ⟨d, rfl, more⟩
  · rcases d with _ | ⟨d₁, _ | ⟨d₂, d⟩⟩
    · simp only [crlf, List.nil_append, List.cons_append, List.cons.injEq] at more
      exact cr more.1.symm
    · simp only [crlf, List.cons_append, List.nil_append, List.cons.injEq] at more
      exact lf more.2.1.symm
    · simp only [crlf, List.cons_append, List.nil_append, List.cons.injEq] at more
      obtain ⟨rfl, rfl, -⟩ := more
      exact line ⟨x, d, by simp [crlf]⟩
  · rcases d with _ | ⟨d₁, d⟩
    · simp only [crlf, List.nil_append, List.cons_append, List.cons.injEq] at more
      exact cr more.1
    · simp only [List.cons_append, List.cons.injEq] at more
      exact line' ⟨d, y, by rw [List.append_assoc]; exact more.2.symm⟩

theorem line_unique {a a' b b' : Text} (line : NoCrlf a) (line' : NoCrlf a')
    (same : a ++ (crlf ++ b) = a' ++ (crlf ++ b')) : a = a' ∧ b = b' := by
  have place : a.length = a'.length := by
    have h := position_crlf line b
    rw [same, position_crlf line' b'] at h
    exact (Option.some.inj h).symm
  obtain ⟨rfl, rest⟩ := List.append_inj same place
  exact ⟨rfl, by simpa using rest⟩

/-- The text of lines up to a blank one, and the rest. -/
def linesText (tail : Text) : List Text → Text
  | [] => crlf ++ tail
  | l :: ls => l ++ (crlf ++ linesText tail ls)

/-- Lines that are not blank. -/
def Proper (ls : List Text) : Prop := ∀ l ∈ ls, l ≠ [] ∧ NoCrlf l

theorem no_crlf_start {l b : Text} (some_ : l ≠ []) (line : NoCrlf l) : ¬ crlf <+: l ++ (crlf ++ b) := by
  intro begins
  have h := position_crlf line b
  rw [position_eq_some] at h
  exact h.2.2 0 (List.length_pos_of_ne_nil some_) begins

/-- A blank line comes behind the first line end. -/
theorem blank_behind {l s : Text} (line : NoCrlf l) (blank : crlf ++ crlf <:+: l ++ (crlf ++ s)) :
    crlf <+: s ∨ crlf ++ crlf <:+: s := by
  obtain ⟨x, y, split⟩ := blank
  rw [List.append_assoc] at split
  rcases List.append_eq_append_iff.1 split with ⟨c, rfl, more⟩ | ⟨c, rfl, more⟩
  · rcases c with _ | ⟨c₁, _ | ⟨c₂, c⟩⟩
    · simp only [List.nil_append, List.append_assoc, List.append_cancel_left_eq] at more
      exact Or.inl ⟨y, more⟩
    · simp [crlf] at more
    · simp only [crlf, List.cons_append, List.cons.injEq] at more
      obtain ⟨rfl, rfl, -⟩ := more
      exact absurd ⟨x, c, by simp [crlf]⟩ line
  · rcases c with _ | ⟨c₁, _ | ⟨c₂, c⟩⟩
    · simp only [List.nil_append, List.append_assoc, List.append_cancel_left_eq] at more
      exact Or.inl ⟨y, more.symm⟩
    · simp [crlf] at more
    · simp only [crlf, List.cons_append, List.nil_append, List.cons.injEq] at more
      obtain ⟨rfl, rfl, rfl⟩ := more
      exact Or.inr ⟨c, y, by simp [crlf]⟩

theorem exists_linesText {s : Text} (blank : crlf <+: s ∨ crlf ++ crlf <:+: s) :
    ∃ ls tail, s = linesText tail ls ∧ Proper ls := by
  induction n : s.length using Nat.strong_induction_on generalizing s with
  | _ n ih =>
    by_cases here : crlf <+: s
    · obtain ⟨tail, rfl⟩ := here
      exact ⟨[], tail, rfl, by simp [Proper]⟩
    · obtain ⟨x, y, split⟩ := blank.resolve_left here
      obtain ⟨l, s', rfl, line⟩ := exists_line (s := s) ⟨x, crlf ++ y, by rw [← split]; simp⟩
      have some_ : l ≠ [] := by
        rintro rfl
        exact here ⟨s', rfl⟩
      have rest := blank_behind line ⟨x, y, split⟩
      obtain ⟨ls, tail, rfl, proper⟩ := ih s'.length (by rw [← n]; simp [crlf]; omega) rest rfl
      refine ⟨l :: ls, tail, rfl, fun l' mem => ?_⟩
      rcases List.mem_cons.1 mem with rfl | mem
      · exact ⟨some_, line⟩
      · exact proper l' mem

/-! ## One header -/

/-- The value of a header whose colon is two bytes before `p`. -/
def valueAt (b : List UInt8) (p : ℕ) : Except Undefined Text := do
  let some q ← strstr b p crlf | throw .nullPointer
  return (b.drop p).take (q - p)

section Header

variable {b : List UInt8} {cur : ℕ} {hs : Headers}

theorem headers_parse_none {s : Text} (text : cstr b cur = .ok s) (none_ : colon ∉ s) :
    hs.parse b cur = .ok (-1, hs) := by
  simp [Headers.parse, index, strstr, text, position_byte_none none_, bind, Except.bind, pure,
    Except.pure]

theorem headers_parse_eq {k r : Text} (text : cstr b cur = .ok (k ++ colon :: r))
    (free : colon ∉ k) :
    hs.parse b cur = do return (0, hs.set k (← valueAt b (cur + k.length + 2))) := by
  have key : (b.drop cur).take (cur + k.length - cur) = k := by
    rw [Nat.add_sub_cancel_left]
    exact take_drop_of_cstr text
  simp only [Headers.parse, index, strstr, text, position_byte r free, valueAt, bind, Except.bind,
    pure, Except.pure, Option.map_some, key]
  rcases value : cstr b (cur + k.length + 2) with e | s
  · rfl
  · rcases found : position crlf s with _ | i
    · simp only [found, Option.map_none]
      rfl
    · simp only [found, Option.map_some]

theorem valueAt_eq {p : ℕ} {v r : Text} (text : cstr b p = .ok (v ++ (crlf ++ r)))
    (line : NoCrlf v) : valueAt b p = .ok v := by
  simp only [valueAt, strstr, text, position_crlf line, bind, Except.bind, pure, Except.pure,
    Option.map_some, Nat.add_sub_cancel_left, take_drop_of_cstr text]

theorem of_valueAt {p : ℕ} {v : Text} (value : valueAt b p = .ok v) :
    ∃ r, cstr b p = .ok (v ++ (crlf ++ r)) ∧ NoCrlf v := by
  rcases text : cstr b p with e | s
  · simp [valueAt, strstr, text, bind, Except.bind] at value
  · rcases found : position crlf s with _ | i
    · simp [valueAt, strstr, text, found, bind, Except.bind, pure, Except.pure] at value
    · have inside : crlf <:+: s := by
        by_contra h
        rw [position_eq_none.2 h] at found
        cases found
      obtain ⟨a, r, rfl, line⟩ := exists_line inside
      have same := valueAt_eq text line
      rw [value] at same
      cases same
      exact ⟨r, rfl, line⟩

/-! ## The loop -/

theorem parseLines_blank {tail : Text} (text : cstr b cur = .ok (crlf ++ tail)) (fuel : ℕ) :
    Headers.parseLines b (fuel + 1) cur hs = .ok (0, hs) := by
  have first := byteAt_of_cstr (c := 13) text
  have second := byteAt_of_cstr (c := 10) (cstr_add (j := 1) text (by simp [crlf]))
  simp [Headers.parseLines, first, second, bind, Except.bind, pure, Except.pure]

theorem parseLines_line {l s : Text} (text : cstr b cur = .ok (l ++ (crlf ++ s))) (some_ : l ≠ [])
    (line : NoCrlf l) (fuel : ℕ) :
    Headers.parseLines b (fuel + 1) cur hs = (do
      let (ret, hs) ← hs.parse b cur
      if ret ≠ 0 then return (-1, hs)
      Headers.parseLines b fuel (cur + l.length + 2) hs) := by
  obtain ⟨c, l', rfl⟩ := List.exists_cons_of_ne_nil some_
  have nul : c ≠ 0 := by
    rintro rfl
    exact (cstr_eq_ok.1 text).1 (by simp)
  have first := byteAt_of_cstr (c := c) text
  have next : ∃ d, byteAt b (cur + 1) = .ok d ∧ ¬ (c = 13 ∧ d = 10) := by
    have rest := cstr_add (j := 1) text (by simp)
    rcases l' with _ | ⟨d, l'⟩
    · exact ⟨13, byteAt_of_cstr (c := 13) rest, by simp⟩
    · refine ⟨d, byteAt_of_cstr (c := d) rest, ?_⟩
      rintro ⟨rfl, rfl⟩
      exact line ⟨[], l', by simp [crlf]⟩
  obtain ⟨d, second, notEnd⟩ := next
  have more := cstr_add (j := (c :: l').length) text (by simp)
  rw [List.drop_left] at more
  have long : ¬ (crlf ++ s).length < 2 := by simp [crlf]
  have found : strstr b cur crlf = .ok (some (cur + (c :: l').length)) := by
    simp only [strstr, text, position_crlf line, bind, Except.bind, pure, Except.pure,
      Option.map_some]
  have size : strlen b (cur + (c :: l').length) = .ok (crlf ++ s).length := by
    rw [strlen, more]
    rfl
  rw [Headers.parseLines]
  simp only [first, second, found, size, if_neg long, bind, Except.bind, pure, Except.pure,
    if_neg nul]
  by_cases cr : c = 13
  · rw [if_pos cr, if_neg fun lf => notEnd ⟨cr, lf⟩]
  · rw [if_neg cr]

end Header

/-! ## Runs of the loop -/

/-- The loop from `cur` on sets the headers of the list and comes to the blank line. -/
inductive Reads (b : List UInt8) : ℕ → List (Text × Text) → Prop
  | blank {cur : ℕ} {tail : Text} : cstr b cur = .ok (crlf ++ tail) → Reads b cur []
  | line {cur : ℕ} {l s k r v : Text} {ps : List (Text × Text)} :
      cstr b cur = .ok (l ++ (crlf ++ s)) → l ≠ [] → NoCrlf l →
      l ++ (crlf ++ s) = k ++ colon :: r → colon ∉ k → valueAt b (cur + k.length + 2) = .ok v →
      Reads b (cur + l.length + 2) ps → Reads b cur ((k, v) :: ps)

section Runs

variable {b : List UInt8} {cur : ℕ} {hs : Headers} {ps : List (Text × Text)}

theorem length_lt_of_cstr {s : Text} (text : cstr b cur = .ok s) : cur + s.length < b.length := by
  obtain ⟨-, post, eq⟩ := cstr_eq_ok.1 text
  have size := congrArg List.length eq
  rw [List.length_drop, List.length_append, List.length_cons] at size
  omega

theorem Reads.length_lt (run : Reads b cur ps) : cur + ps.length < b.length := by
  induction run with
  | blank text =>
    have := length_lt_of_cstr text
    rw [List.length_nil]
    omega
  | line text some_ line split free value next ih =>
    have := List.length_pos_of_ne_nil some_
    rw [List.length_cons]
    omega

theorem parseLines_of_reads (run : Reads b cur ps) {fuel : ℕ} (enough : ps.length < fuel) :
    Headers.parseLines b fuel cur hs = .ok (0, hs.setAll ps) := by
  induction run generalizing fuel hs with
  | blank text =>
    obtain ⟨n, rfl⟩ := Nat.exists_eq_succ_of_ne_zero (by omega : fuel ≠ 0)
    exact parseLines_blank text n
  | @line cur l s k r v ps text some_ line split free value next ih =>
    obtain ⟨n, rfl⟩ := Nat.exists_eq_succ_of_ne_zero (by omega : fuel ≠ 0)
    have parsed : hs.parse b cur = _ := headers_parse_eq (split ▸ text) free
    rw [value] at parsed
    rw [Nat.succ_eq_add_one, parseLines_line text some_ line n, parsed]
    simp only [bind, Except.bind, pure, Except.pure, ne_eq, not_true_eq_false, if_false]
    exact ih (by rw [List.length_cons] at enough; omega)

theorem cstr_next {l s : Text} (text : cstr b cur = .ok (l ++ (crlf ++ s))) :
    cstr b (cur + l.length + 2) = .ok s := by
  rw [← List.append_assoc] at text
  have h := cstr_add (j := (l ++ crlf).length) text (by simp)
  rw [List.drop_left, List.length_append, ← Nat.add_assoc] at h
  exact h

/-- A loop that returns zero has read all lines. -/
theorem exists_reads {ls : List Text} {tail : Text} (text : cstr b cur = .ok (linesText tail ls))
    (proper : Proper ls) {fuel : ℕ} {hs' : Headers}
    (ok : Headers.parseLines b fuel cur hs = .ok (0, hs')) :
    ∃ ps, Reads b cur ps ∧ hs' = hs.setAll ps := by
  induction ls generalizing fuel cur hs with
  | nil =>
    cases fuel with
    | zero => cases ok
    | succ fuel =>
      rw [parseLines_blank text] at ok
      cases ok
      exact ⟨[], .blank text, rfl⟩
  | cons l ls ih =>
    obtain ⟨some_, line⟩ := proper l (List.mem_cons_self ..)
    cases fuel with
    | zero => cases ok
    | succ fuel =>
      rw [parseLines_line text some_ line] at ok
      by_cases none_ : colon ∈ linesText tail (l :: ls)
      · obtain ⟨k, r, split, free⟩ := List.eq_append_cons_of_mem none_
        rw [headers_parse_eq (split ▸ text) free] at ok
        rcases value : valueAt b (cur + k.length + 2) with e | v
        · rw [value] at ok
          cases ok
        · rw [value] at ok
          obtain ⟨ps, run, same⟩ := ih (cstr_next text)
            (fun l' mem => proper l' (List.mem_cons_of_mem _ mem)) ok
          exact ⟨(k, v) :: ps, .line text some_ line split free value run, same⟩
      · rw [headers_parse_none text none_] at ok
        cases ok

end Runs

end ComputerNetwork.Http
