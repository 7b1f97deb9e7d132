import ComputerNetwork.Http.Grammar
import ComputerNetwork.Http.MessageHead

/-!
# Which header values survive

The parser takes the value of a header two bytes behind its colon, whatever stands in between.
`reads_named` lines up the header lines of a name with the headers that the parser sets under it, and
`value_survives_iff` says which of them keep their values.
-/

namespace ComputerNetwork.Http

open Lib

/-- What stands behind the colon of a header line. -/
def behindColon (l : Text) : Text := (l.dropWhile (· ≠ colon)).tail

/-- The header lines of a message with a colon and a given name in front of it. -/
def linesNamed (name : Text) (ls : List Text) : List Text :=
  ls.filter fun l => colon ∈ l ∧ headerName l = name

/-- The value of a header line is what `ParsedHeader_get` shows, up to the spaces in front. -/
def Survives (pr : ParsedRequest) (l : Text) : Prop :=
  ∃ h, pr.headers.get (headerName l) = some h ∧ h.value.dropWhile (· = sp) = headerValue l

/-- What the parser stores for a header line: the text behind the colon without its first byte, or, if
there is none, a text that begins with the second byte of the line end. -/
def Stored (l value : Text) : Prop :=
  (∃ c, behindColon l = c :: value) ∨ behindColon l = [] ∧ value.head? = some 10

/-! ## The header lines of a text -/

section Head

variable {line tail : Text} {ls : List Text}

theorem takeWhile_lines (proper : Proper ls) :
    (lines (linesText tail ls)).takeWhile (· ≠ []) = ls := by
  induction ls with
  | nil => rfl
  | cons l ls ih =>
    obtain ⟨some_, first⟩ := proper l (List.mem_cons_self ..)
    rw [linesText, lines_append first, List.takeWhile_cons_of_pos (by simpa using some_),
      ih fun l' mem => proper l' (List.mem_cons_of_mem _ mem)]

theorem headerLines_eq (some_ : line ≠ []) (first : NoCrlf line) (proper : Proper ls) :
    headerLines (line ++ (crlf ++ linesText tail ls)) = ls := by
  rw [headerLines, headLines, lines_append first, List.takeWhile_cons_of_pos (by simpa using some_),
    List.tail_cons, takeWhile_lines proper]

theorem headerLines_of_read {buf : Text}
    (read : cstr (buf ++ [0]) 0 = .ok (line ++ (crlf ++ linesText tail ls))) (some_ : line ≠ [])
    (first : NoCrlf line) (proper : Proper ls) : headerLines buf = ls := by
  obtain ⟨more, rest⟩ := exists_rest read
  rw [rest, List.append_assoc, List.append_assoc, linesText_append]
  exact headerLines_eq some_ first proper

end Head

/-! ## What is stored -/

section Reads

variable {b : List UInt8} {cur : ℕ} {ps : List (Text × Text)} {ls : List Text} {tail name : Text}

theorem headerName_split {k r : Text} (free : colon ∉ k) : headerName (k ++ colon :: r) = k :=
  takeWhile_stop free

theorem behindColon_split {k r : Text} (free : colon ∉ k) : behindColon (k ++ colon :: r) = r := by
  rw [behindColon, dropWhile_stop free, List.tail_cons]

theorem headerValue_eq (l : Text) : headerValue l = (behindColon l).dropWhile (· = sp) := rfl

theorem stored_of_valueAt {k t s v : Text} (text : cstr b cur = .ok (k ++ colon :: t ++ (crlf ++ s)))
    (free : colon ∉ k) (line : NoCrlf t) (value : valueAt b (cur + k.length + 2) = .ok v) :
    Stored (k ++ colon :: t) v := by
  obtain ⟨r, read, first⟩ := of_valueAt value
  have place := cstr_add (j := k.length + 2) text (by simp [crlf]; omega)
  rw [← Nat.add_assoc, read] at place
  have same := Except.ok.inj place
  rw [Stored, behindColon_split free]
  cases t with
  | nil =>
    refine Or.inr ⟨rfl, ?_⟩
    have cut : (k ++ [colon] ++ (crlf ++ s)).drop (k.length + 2) = 10 :: s := by
      rw [List.drop_append, List.drop_of_length_le (by simp)]
      simp [crlf]
    rw [cut] at same
    cases v with
    | nil => simp [crlf] at same
    | cons c v =>
      obtain ⟨rfl, -⟩ := List.cons.inj same
      rfl
  | cons c t =>
    refine Or.inl ⟨c, ?_⟩
    have cut : (k ++ colon :: c :: t ++ (crlf ++ s)).drop (k.length + 2) = t ++ (crlf ++ s) := by
      rw [List.append_assoc, List.drop_append, List.drop_of_length_le (by simp)]
      simp
    rw [cut] at same
    rw [(line_unique first (line.mono (List.suffix_cons c t).isInfix) same).1]

/-- The key of a line without a colon reaches into the next lines, so that it is no name. -/
theorem key_reaches {l s k r : Text} (none_ : colon ∉ l) (free : colon ∉ k)
    (split : l ++ (crlf ++ s) = k ++ colon :: r) : ∃ d, k = l ++ (crlf ++ d) := by
  have inside : colon ∈ l ++ (crlf ++ s) := by
    rw [split]
    simp
  have behind : colon ∈ s := by
    simp only [List.mem_append, none_, false_or] at inside
    exact inside.resolve_left (by decide)
  obtain ⟨d, r', rfl, free'⟩ := List.eq_append_cons_of_mem behind
  have outside : colon ∉ l ++ (crlf ++ d) := by
    simp only [List.mem_append, not_or]
    exact ⟨none_, by decide, free'⟩
  have same : k ++ colon :: r = l ++ (crlf ++ d) ++ colon :: r' := by
    rw [← split]
    simp
  exact ⟨d, colon_unique free outside same⟩

/-- The headers that are set under a name belong to the lines of this name, in their order. -/
theorem reads_named (run : Reads b cur ps) (text : cstr b cur = .ok (linesText tail ls))
    (proper : Proper ls) (line : NoCrlf name) :
    List.Forall₂ (fun l p => Stored l p.2) (linesNamed name ls) (ps.filter (·.1 = name)) := by
  induction run generalizing ls with
  | blank blank =>
    cases ls with
    | nil => exact .nil
    | cons l ls =>
      obtain ⟨some_, first⟩ := proper l (List.mem_cons_self ..)
      exact absurd ⟨_, Except.ok.inj (blank.symm.trans text)⟩ (no_crlf_start some_ first)
  | @line cur l s k r v ps read some_ first split free value next ih =>
    cases ls with
    | nil => exact absurd ⟨_, Except.ok.inj (text.symm.trans read)⟩ (no_crlf_start some_ first)
    | cons l' ls =>
      obtain ⟨rfl, rfl⟩ := line_unique first (proper l' (List.mem_cons_self ..)).2
        (Except.ok.inj (read.symm.trans text))
      have rest := ih (cstr_next text) fun l' mem => proper l' (List.mem_cons_of_mem _ mem)
      by_cases found : colon ∈ l
      · obtain ⟨k', t, rfl, free'⟩ := List.eq_append_cons_of_mem found
        have cut : k' ++ colon :: (t ++ (crlf ++ linesText tail ls)) = k ++ colon :: r := by
          rw [← split]
          simp
        obtain rfl := colon_unique free' free cut
        have stored := stored_of_valueAt read free
          (first.mono ((List.suffix_cons colon t).trans (List.suffix_append k' _)).isInfix) value
        by_cases same : k' = name
        · subst same
          rw [linesNamed, List.filter_cons_of_pos (by simp [headerName_split free]),
            List.filter_cons_of_pos (by simp)]
          exact .cons stored rest
        · rw [linesNamed, List.filter_cons_of_neg (by simp [headerName_split free, same]),
            List.filter_cons_of_neg (by simpa using same)]
          exact rest
      · have other : k ≠ name := by
          rintro rfl
          obtain ⟨d, rfl⟩ := key_reaches found free split
          exact line ⟨l, d, by simp⟩
        rw [linesNamed, List.filter_cons_of_neg (by simp [found]),
          List.filter_cons_of_neg (by simpa using other)]
        exact rest

end Reads

/-! ## Lines that keep their values -/

theorem getLast_forall₂ {α β : Type} {R : α → β → Prop} {as : List α} {bs : List β} {a : α}
    (pairs : List.Forall₂ R as bs) (last : as.getLast? = some a) :
    ∃ b, bs.getLast? = some b ∧ R a b := by
  induction pairs with
  | nil => cases last
  | cons first rest ih =>
    cases rest with
    | nil =>
      cases last
      exact ⟨_, rfl, first⟩
    | cons second rest =>
      rw [List.getLast?_cons_cons] at last ⊢
      exact ih last

section Main

variable {port : Option ℕ} {errno : ℕ} {buf name l : Text} {pr : ParsedRequest}

/-- What `ParsedHeader_get` shows for a name comes from the last line with this name. -/
theorem exists_stored (parsed : (ParsedRequest.create port).parse errno buf = .ok (0, pr))
    (last : (linesNamed name (headerLines buf)).getLast? = some l) :
    ∃ v, (pr.headers.get name).map ParsedHeader.value = some v ∧ Stored l v := by
  obtain ⟨q, ls, tail, ps, read, first, proper, ok, run, -, -, headers⟩ := of_parse rfl parsed
  have some_ : q.line ≠ [] := by simp [Pieces.line, ok.method_ne]
  have lines_ : headerLines buf = ls := headerLines_of_read read some_ first proper
  rw [lines_] at last
  have line : NoCrlf name := by
    have mem := List.mem_of_getLast? last
    obtain ⟨inside, same⟩ := List.mem_filter.1 mem
    obtain ⟨-, rfl⟩ := of_decide_eq_true same
    exact (proper l inside).2.mono (List.takeWhile_prefix _).isInfix
  have next := cstr_next read
  rw [Nat.zero_add] at next
  obtain ⟨p, last', stored⟩ := getLast_forall₂ (reads_named run next proper line) last
  refine ⟨p.2, ?_, stored⟩
  rw [headers, show (ParsedRequest.create port).headers = Headers.create from rfl,
    Headers.get_setAll, ← List.getLast?_filter, last', Option.map_some]

/-- A value survives that stands behind a space. -/
theorem value_survives_iff (parsed : (ParsedRequest.create port).parse errno buf = .ok (0, pr))
    (last : (linesNamed name (headerLines buf)).getLast? = some l) :
    Survives pr l ↔ (behindColon l).head? = some sp := by
  obtain ⟨v, shown, stored⟩ := exists_stored parsed last
  have same : headerName l = name :=
    (of_decide_eq_true (List.mem_filter.1 (List.mem_of_getLast? last)).2).2
  have survives : Survives pr l ↔ v.dropWhile (· = sp) = headerValue l := by
    obtain ⟨h, found, rfl⟩ := Option.map_eq_some_iff.1 shown
    simp [Survives, same, found]
  rw [survives, headerValue_eq]
  rcases stored with ⟨c, split⟩ | ⟨none_, first⟩
  · rw [split]
    by_cases space : c = sp
    · simp [space]
    · -- the first byte is lost
      have shorter : (v.dropWhile (· = sp)).length ≤ v.length := (List.dropWhile_suffix _).length_le
      rw [List.dropWhile_cons_of_neg (by simpa using space)]
      refine iff_of_false (fun kept => ?_) (by simpa using space)
      rw [kept, List.length_cons] at shorter
      omega
  · -- the end of the line is taken for the value
    obtain ⟨v', rfl⟩ : ∃ v', v = 10 :: v' := by
      cases v with
      | nil => cases first
      | cons c v' =>
        obtain rfl : c = 10 := by simpa using first
        exact ⟨v', rfl⟩
    rw [none_]
    exact iff_of_false (by simp [sp]) (by simp)

/-- `GET http://h/ HTTP/1.0` with `a: b`. -/
theorem value_survives_iff_space : ∃ pr, (ParsedRequest.create none).parse 0 [71, 69, 84, 32, 104, 116, 116,
    112, 58, 47, 47, 104, 47, 32, 72, 84, 84, 80, 47, 49, 46, 48, 13, 10, 97, 58, 32, 98, 13, 10, 13,
    10] = .ok (0, pr) ∧ Survives pr [97, 58, 32, 98] := by
  refine Exists.imp (fun pr parsed => ⟨parsed, ?_⟩) ⟨_, rfl⟩
  exact (value_survives_iff parsed
    (rfl : (linesNamed [97] (headerLines _)).getLast? = some [97, 58, 32, 98])).2 rfl

/-- `GET http://h/ HTTP/1.0` with `a:b`. -/
theorem not_survives_bare : ¬ ∀ port errno buf pr name l,
    (ParsedRequest.create port).parse errno buf = .ok (0, pr) →
      (linesNamed name (headerLines buf)).getLast? = some l → Survives pr l := by
  intro all
  obtain ⟨h, found, value⟩ := all none 0 [71, 69, 84, 32, 104, 116, 116, 112, 58, 47, 47, 104, 47, 32,
    72, 84, 84, 80, 47, 49, 46, 48, 13, 10, 97, 58, 98, 13, 10, 13, 10] _ [97] [97, 58, 98] rfl rfl
  obtain rfl : h = ⟨some [97], []⟩ := (Option.some.inj found).symm
  cases value

end Main

end ComputerNetwork.Http
