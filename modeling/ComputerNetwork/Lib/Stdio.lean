import Mathlib.Data.List.Infix
import Mathlib.Tactic

/-!
# Text read by lines and by words

`words` is how the conversions `%s` of `sscanf` cut up a string, and `fgetsAll` what the calls of
`fgets` store until the end of a file.  A line that does not fit into the buffer comes in several
pieces: every piece lies in a line (`exists_line_of_mem`), there are at least as many pieces as lines
(`length_textLines_le`), and just as many when all lines fit (`fit_of_length_le`).
-/

namespace ComputerNetwork.Lib

/-! ## Words -/

section Words

variable {α : Type*} {sep : α → Bool} {s t rest : List α}

/-- The longest runs without separators. -/
def words (sep : α → Bool) (s : List α) : List (List α) := (s.splitOnP sep).filter (!·.isEmpty)

theorem words_nil : words sep [] = [] := rfl

theorem words_cons {c : α} (separates : sep c = true) : words sep (c :: s) = words sep s := by
  rw [words, List.splitOnP_cons_eq_if_modifyHead, if_pos separates, List.filter_cons_of_neg (by simp),
    words]

theorem words_gap {gap : List α} (blank : ∀ c ∈ gap, sep c = true) :
    words sep (gap ++ s) = words sep s := by
  induction gap with
  | nil => rfl
  | cons c gap ih =>
    rw [List.cons_append, words_cons (blank c (List.mem_cons_self ..))]
    exact ih fun d mem => blank d (List.mem_cons_of_mem _ mem)

theorem words_blank (blank : ∀ c ∈ s, sep c = true) : words sep s = [] := by
  have h := words_gap (s := []) blank
  rwa [List.append_nil, words_nil] at h

/-- A word that ends where the text does or in front of a separator. -/
theorem words_token (some_ : t ≠ []) (free : ∀ c ∈ t, sep c = false)
    (ends : ∀ c ∈ rest.head?, sep c = true) : words sep (t ++ rest) = t :: words sep rest := by
  have token : words sep t = [t] := by
    rw [words, List.splitOnP_eq_singleton free, List.filter_cons_of_pos (by simpa using some_),
      List.filter_nil]
  cases rest with
  | nil => rw [List.append_nil, token, words_nil]
  | cons c rest =>
    have separates := ends c rfl
    rw [words_cons separates, words, List.splitOnP_append_cons t rest separates, List.filter_append]
    exact congrArg (· ++ words sep rest) token

theorem splitOnP_head (sep : α → Bool) (s : List α) :
    ∃ ws, s.splitOnP sep = s.takeWhile (!sep ·) :: ws := by
  cases s with
  | nil => exact ⟨[], rfl⟩
  | cons c s =>
    rw [List.splitOnP_cons_eq_if_modifyHead]
    by_cases separates : sep c = true
    · rw [if_pos separates, List.takeWhile_cons_of_neg (by simpa using separates)]
      exact ⟨_, rfl⟩
    · obtain ⟨ws, split⟩ := splitOnP_head sep s
      rw [if_neg separates, split, List.takeWhile_cons_of_pos (by simpa using separates)]
      exact ⟨ws, rfl⟩

theorem exists_word (some_ : t ≠ []) (free : ∀ c ∈ t, sep c = false) (inside : t <:+: s) :
    ∃ w ∈ words sep s, t <:+: w := by
  suffices piece : ∃ w ∈ s.splitOnP sep, t <:+: w by
    obtain ⟨w, mem, part⟩ := piece
    refine ⟨w, List.mem_filter.2 ⟨mem, ?_⟩, part⟩
    have long := part.length_le
    have short := List.length_pos_of_ne_nil some_
    have full : w ≠ [] := List.ne_nil_of_length_pos (by omega)
    simpa using full
  induction s with
  | nil => exact absurd (List.infix_nil.1 inside) some_
  | cons c s ih =>
    obtain ⟨ws, split⟩ := splitOnP_head sep s
    rw [List.splitOnP_cons_eq_if_modifyHead]
    rcases List.infix_cons_iff.1 inside with start | later
    · obtain ⟨d, t, rfl⟩ := List.exists_cons_of_ne_nil some_
      obtain ⟨rfl, r, rfl⟩ := List.cons_prefix_cons.1 start
      rw [if_neg (by simp [free d (List.mem_cons_self ..)]), split]
      refine ⟨_, List.mem_cons_self .., List.IsPrefix.isInfix (List.cons_prefix_cons.2 ⟨rfl, ?_⟩)⟩
      rw [List.takeWhile_append_of_pos fun e mem => by simp [free e (List.mem_cons_of_mem _ mem)]]
      exact List.prefix_append _ _
    · obtain ⟨w, mem, part⟩ := ih later
      split_ifs with separates
      · exact ⟨w, List.mem_cons_of_mem _ mem, part⟩
      · rw [split] at mem ⊢
        rcases List.mem_cons.1 mem with rfl | mem
        · exact ⟨_, List.mem_cons_self .., part.trans (List.suffix_cons c _).isInfix⟩
        · exact ⟨w, List.mem_cons_of_mem _ mem, part⟩

theorem of_mem_splitOnP {w : List α} (mem : w ∈ s.splitOnP sep) :
    (∀ c ∈ w, sep c = false) ∧ w <:+: s := by
  induction s generalizing w with
  | nil =>
    rw [List.splitOnP_nil, List.mem_singleton] at mem
    simp [mem]
  | cons c s ih =>
    rw [List.splitOnP_cons_eq_if_modifyHead] at mem
    have later : ∀ {w}, w ∈ s.splitOnP sep → (∀ c ∈ w, sep c = false) ∧ w <:+: c :: s :=
      fun mem => ⟨(ih mem).1, (ih mem).2.trans (List.suffix_cons c s).isInfix⟩
    by_cases separates : sep c = true
    · rw [if_pos separates] at mem
      rcases List.mem_cons.1 mem with rfl | mem
      · simp
      · exact later mem
    · obtain ⟨ws, split⟩ := splitOnP_head sep s
      rw [if_neg separates, split] at mem
      rcases List.mem_cons.1 mem with rfl | mem
      · have first := (ih (by rw [split]; exact List.mem_cons_self ..)).1
        refine ⟨List.forall_mem_cons.2 ⟨by simpa using separates, first⟩, ?_⟩
        exact (List.cons_prefix_cons.2 ⟨rfl, List.takeWhile_prefix _⟩).isInfix
      · exact later (by rw [split]; exact List.mem_cons_of_mem _ mem)

theorem of_mem_words {w : List α} (mem : w ∈ words sep s) :
    w ≠ [] ∧ (∀ c ∈ w, sep c = false) ∧ w <:+: s := by
  obtain ⟨mem, some_⟩ := List.mem_filter.1 mem
  exact ⟨by simpa using some_, of_mem_splitOnP mem⟩

theorem exists_word_of_infix {w : List α} (mem : w ∈ words sep t) (inside : t <:+: s) :
    ∃ w' ∈ words sep s, w <:+: w' := by
  obtain ⟨some_, free, part⟩ := of_mem_words mem
  exact exists_word some_ free (part.trans inside)

end Words

/-! ## Lines -/

/-- `'\n'`. -/
def newline : UInt8 := 10

/-- The lines of a text, each with its line feed if it has one. -/
def textLines : List UInt8 → List (List UInt8)
  | [] => []
  | c :: s =>
    if c = newline then [c] :: textLines s
    else
      match textLines s with
      | [] => [[c]]
      | l :: ls => (c :: l) :: ls

/-- `fgets` with room for `n` bytes and the NUL: what it stores of the file and what it leaves. -/
def fgets : ℕ → List UInt8 → List UInt8 × List UInt8
  | 0, s => ([], s)
  | _ + 1, [] => ([], [])
  | n + 1, c :: s =>
    if c = newline then ([c], s)
    else
      let (line, rest) := fgets n s
      (c :: line, rest)

/-- What the calls of `fgets` store, one after the other.  Every call moves on in the file, so that
`fuel` does not run out when it is the length of the file. -/
def fgetsAll (n : ℕ) : ℕ → List UInt8 → List (List UInt8)
  | 0, _ => []
  | fuel + 1, s => if s = [] then [] else (fgets n s).1 :: fgetsAll n fuel (fgets n s).2

section Lines

variable {s l : List UInt8} {ls : List (List UInt8)} {n fuel : ℕ}

theorem textLines_eq_nil (none_ : textLines s = []) : s = [] := by
  cases s with
  | nil => rfl
  | cons c s =>
    rw [textLines] at none_
    split_ifs at none_
    split at none_ <;> cases none_

theorem textLines_ne_nil (mem : l ∈ textLines s) : l ≠ [] := by
  induction s generalizing l with
  | nil => cases mem
  | cons c s ih =>
    rw [textLines] at mem
    split_ifs at mem with ends
    · rcases List.mem_cons.1 mem with rfl | mem
      · simp
      · exact ih mem
    · cases lines : textLines s with
      | nil =>
        rw [lines, List.mem_singleton] at mem
        simp [mem]
      | cons l' ls =>
        rw [lines] at mem ih
        rcases List.mem_cons.1 mem with rfl | mem
        · simp
        · exact ih (List.mem_cons_of_mem _ mem)

theorem mem_of_textLines {c : UInt8} (mem : l ∈ textLines s) (inside : c ∈ l) : c ∈ s := by
  induction s generalizing l with
  | nil => cases mem
  | cons d s ih =>
    rw [textLines] at mem
    split_ifs at mem with ends
    · rcases List.mem_cons.1 mem with rfl | mem
      · rw [List.mem_singleton.1 inside]
        exact List.mem_cons_self ..
      · exact List.mem_cons_of_mem _ (ih mem inside)
    · cases lines : textLines s with
      | nil =>
        rw [lines, List.mem_singleton] at mem
        subst mem
        rw [List.mem_singleton.1 inside]
        exact List.mem_cons_self ..
      | cons l' ls =>
        rw [lines] at mem ih
        rcases List.mem_cons.1 mem with rfl | mem
        · rcases List.mem_cons.1 inside with rfl | inside
          · exact List.mem_cons_self ..
          · exact List.mem_cons_of_mem _ (ih (List.mem_cons_self ..) inside)
        · exact List.mem_cons_of_mem _ (ih (List.mem_cons_of_mem _ mem) inside)

/-- A call reads what fits of the first line and leaves the rest of it in front of the others. -/
theorem fgets_spec (lines : textLines s = l :: ls) :
    (fgets n s).1 = l.take n ∧
      textLines (fgets n s).2 = if l.length ≤ n then ls else l.drop n :: ls := by
  induction s generalizing n l ls with
  | nil => cases lines
  | cons c s ih =>
    cases n with
    | zero =>
      have some_ : l ≠ [] := textLines_ne_nil (by rw [lines]; exact List.mem_cons_self ..)
      rw [if_neg (by simpa using some_)]
      exact ⟨rfl, lines⟩
    | succ n =>
      rw [textLines] at lines
      rw [fgets]
      by_cases ends : c = newline
      · rw [if_pos ends] at lines ⊢
        cases lines
        simp
      · rw [if_neg ends] at lines ⊢
        cases lines' : textLines s with
        | nil =>
          obtain rfl := textLines_eq_nil lines'
          rw [lines'] at lines
          cases lines
          cases n <;> simp [fgets, textLines]
        | cons l' ls' =>
          rw [lines'] at lines
          cases lines
          obtain ⟨first, rest⟩ := ih (n := n) lines'
          simpa [first] using rest

theorem length_fgets_lt (room : 0 < n) (some_ : s ≠ []) : (fgets n s).2.length < s.length := by
  obtain ⟨k, rfl⟩ := Nat.exists_eq_succ_of_ne_zero room.ne'
  obtain ⟨c, s, rfl⟩ := List.exists_cons_of_ne_nil some_
  have le : ∀ (k : ℕ) (s : List UInt8), (fgets k s).2.length ≤ s.length := by
    intro k s
    induction s generalizing k with
    | nil => cases k <;> simp [fgets]
    | cons c s ih =>
      cases k with
      | zero => simp [fgets]
      | succ k =>
        rw [fgets]
        split_ifs
        · simp
        · exact (ih k).trans (Nat.le_succ _)
  rw [Nat.succ_eq_add_one, fgets]
  split_ifs
  · simp
  · exact Nat.lt_succ_of_le (le k s)

/-! ## All pieces -/

theorem fgetsAll_cons (n fuel : ℕ) (lines : textLines s = l :: ls) :
    ∃ rest, fgetsAll n (fuel + 1) s = l.take n :: fgetsAll n fuel rest ∧
      textLines rest = (if l.length ≤ n then ls else l.drop n :: ls) ∧
      (0 < n → rest.length < s.length) := by
  have some_ : s ≠ [] := by
    rintro rfl
    cases lines
  obtain ⟨first, rest⟩ := fgets_spec (n := n) lines
  exact ⟨_, by rw [fgetsAll, if_neg some_, first], rest, fun room => length_fgets_lt room some_⟩

/-- Lines that fit are read one by one. -/
theorem fgetsAll_eq_textLines (room : 0 < n) (enough : s.length ≤ fuel)
    (fit : ∀ l ∈ textLines s, l.length ≤ n) : fgetsAll n fuel s = textLines s := by
  induction fuel generalizing s with
  | zero =>
    obtain rfl := List.eq_nil_of_length_eq_zero (Nat.le_zero.1 enough)
    rfl
  | succ fuel ih =>
    cases lines : textLines s with
    | nil =>
      rw [fgetsAll, if_pos (textLines_eq_nil lines)]
    | cons l ls =>
      rw [lines] at fit
      obtain ⟨rest, pieces, behind, shorter⟩ := fgetsAll_cons n fuel lines
      have short := fit l (List.mem_cons_self ..)
      rw [if_pos short] at behind
      have all := ih (s := rest) (by have := shorter room; omega)
        (by rw [behind]; exact fun l' mem => fit l' (List.mem_cons_of_mem _ mem))
      rw [pieces, all, behind, List.take_of_length_le short]

/-- There is a piece for every line, and more of them when a line does not fit. -/
theorem length_textLines_le (room : 0 < n) (enough : s.length ≤ fuel) :
    (textLines s).length ≤ (fgetsAll n fuel s).length ∧
      ((fgetsAll n fuel s).length ≤ (textLines s).length → ∀ l ∈ textLines s, l.length ≤ n) := by
  induction fuel generalizing s with
  | zero =>
    obtain rfl := List.eq_nil_of_length_eq_zero (Nat.le_zero.1 enough)
    simp [fgetsAll, textLines]
  | succ fuel ih =>
    cases lines : textLines s with
    | nil => simp
    | cons l ls =>
      obtain ⟨rest, pieces, behind, shorter⟩ := fgetsAll_cons n fuel lines
      obtain ⟨more, fit⟩ := ih (s := rest) (by have := shorter room; omega)
      rw [pieces, List.length_cons, List.length_cons]
      by_cases short : l.length ≤ n
      · rw [if_pos short] at behind
        rw [behind] at more fit
        refine ⟨Nat.succ_le_succ more, fun few => ?_⟩
        exact List.forall_mem_cons.2 ⟨short, fit (Nat.le_of_succ_le_succ few)⟩
      · rw [if_neg short] at behind
        rw [behind, List.length_cons] at more
        exact ⟨by omega, fun few => absurd few (by omega)⟩

theorem exists_line_of_mem {p : List UInt8} (mem : p ∈ fgetsAll n fuel s) :
    ∃ l ∈ textLines s, p <:+: l := by
  induction fuel generalizing s with
  | zero => cases mem
  | succ fuel ih =>
    cases lines : textLines s with
    | nil =>
      rw [fgetsAll, if_pos (textLines_eq_nil lines)] at mem
      cases mem
    | cons l ls =>
      obtain ⟨rest, pieces, behind, -⟩ := fgetsAll_cons n fuel lines
      rw [pieces] at mem
      rcases List.mem_cons.1 mem with rfl | mem
      · exact ⟨l, List.mem_cons_self .., (List.take_prefix n l).isInfix⟩
      · obtain ⟨l', mem, part⟩ := ih mem
        rw [behind] at mem
        split_ifs at mem with short
        · exact ⟨l', List.mem_cons_of_mem _ mem, part⟩
        · rcases List.mem_cons.1 mem with rfl | mem
          · exact ⟨l, List.mem_cons_self .., part.trans (List.drop_suffix n l).isInfix⟩
          · exact ⟨l', List.mem_cons_of_mem _ mem, part⟩

end Lines

end ComputerNetwork.Lib
