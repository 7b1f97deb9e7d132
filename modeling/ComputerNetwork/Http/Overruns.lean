import ComputerNetwork.Http.Grammar

/-!
# Where the parser leaves its copies

Two pointers are formed behind what was found: the version one byte behind the address, and the value
two bytes behind the colon of a header.  `parse_defined_iff` says exactly for which buffers one of them
is past the end of its copy, or no line end follows it: the `Overruns` ones.
-/

namespace ComputerNetwork.Http

open Lib

/-! ## The header lines -/

/-- No line end follows in the string that begins two bytes behind a colon. -/
def Unended (behind : Text) : Prop := ¬ crlf <:+: (behind.drop 1).takeWhile (· ≠ 0)

instance (behind : Text) : Decidable (Unended behind) := inferInstanceAs (Decidable (¬ _))

/-- The last header line has no colon, so that the first one behind the blank line is taken for it, and
the value there has no end.  `text` is the string of the headers and `more` what follows it in the
block. -/
def EndlessValue (ls : List Text) (tail more : Text) : Prop :=
  (∃ l ∈ ls.getLast?, colon ∉ l) ∧
    ∃ k r, tail = k ++ colon :: r ∧ colon ∉ k ∧ Unended (r ++ more)

section Loop

variable {b : List UInt8} {cur : ℕ} {hs : Headers} {ls : List Text} {tail : Text}

theorem valueAt_isOk {p : ℕ} {s : Text} (text : cstr b p = .ok s) :
    (∃ v, valueAt b p = .ok v) ↔ crlf <:+: s := by
  constructor
  · rintro ⟨v, value⟩
    obtain ⟨r, text', -⟩ := of_valueAt value
    cases text.symm.trans text'
    exact ⟨v, r, by simp⟩
  · intro ends
    obtain ⟨v, r, rfl, line⟩ := exists_line ends
    exact ⟨v, valueAt_eq text line⟩

theorem takeWhile_snoc_nul (s : Text) : (s ++ [0]).takeWhile (· ≠ 0) = s.takeWhile (· ≠ 0) := by
  induction s with
  | nil => rfl
  | cons c s ih =>
    by_cases nul : c = 0
    · rw [List.cons_append, List.takeWhile_cons_of_neg (by simpa using nul),
        List.takeWhile_cons_of_neg (by simpa using nul)]
    · rw [List.cons_append, List.takeWhile_cons_of_pos (by simpa using nul),
        List.takeWhile_cons_of_pos (by simpa using nul), ih]

theorem valueAt_behind (u behind : Text) :
    (∃ v, valueAt (u ++ colon :: (behind ++ [0])) (u.length + 2) = .ok v) ↔ ¬ Unended behind := by
  have place : (u ++ colon :: (behind ++ [0])).drop (u.length + 2) = (behind ++ [0]).drop 1 := by
    rw [List.drop_append]
    simp
  cases behind with
  | nil =>
    have out : cstr (u ++ colon :: ([] ++ [0])) (u.length + 2) = .error .outOfBounds := by
      rw [cstr, place]
      rfl
    refine iff_of_false ?_ (by simp [Unended, crlf])
    rintro ⟨v, value⟩
    obtain ⟨r, text, -⟩ := of_valueAt value
    cases out.symm.trans text
  | cons c rest =>
    have text : cstr (u ++ colon :: (c :: rest ++ [0])) (u.length + 2) =
        .ok (rest.takeWhile (· ≠ 0)) := by
      rw [cstr, place, List.cons_append, List.drop_one, List.tail_cons, if_pos (by simp),
        takeWhile_snoc_nul]
    rw [valueAt_isOk text, Unended, not_not, List.drop_one, List.tail_cons]

/-- The loop does not get to its end if the value of the last line has none. -/
theorem parseLines_undefined (hs : Headers) (text : cstr b cur = .ok (linesText tail ls))
    (proper : Proper ls) (last : ∃ l ∈ ls.getLast?, colon ∉ l) {k r : Text}
    (split : tail = k ++ colon :: r) (free : colon ∉ k)
    (endless : ¬ ∃ v, valueAt b (cur + (linesText k ls).length + 2) = .ok v)
    {fuel : ℕ} {result : ℤ × Headers} : Headers.parseLines b fuel cur hs ≠ .ok result := by
  induction ls generalizing cur hs fuel with
  | nil => simp at last
  | cons l ls ih =>
    obtain ⟨some_, line⟩ := proper l (List.mem_cons_self ..)
    cases fuel with
    | zero => simp [Headers.parseLines, throw, throwThe, MonadExceptOf.throw]
    | succ n =>
      have found : colon ∈ linesText tail (l :: ls) :=
        (mem_linesText _ _ (by decide)).2 (Or.inr (by simp [split]))
      obtain ⟨k', r', split', free'⟩ := List.eq_append_cons_of_mem found
      rw [parseLines_line text some_ line n, headers_parse_eq (split' ▸ text) free']
      cases value : valueAt b (cur + k'.length + 2) with
      | error e => simp [bind, Except.bind]
      | ok v =>
        have later : ∃ l' ∈ ls.getLast?, colon ∉ l' := by
          obtain ⟨l', last, none_⟩ := last
          cases ls with
          | cons l₂ ls => exact ⟨l', by rwa [List.getLast?_cons_cons] at last, none_⟩
          | nil =>
            have none_ : ∀ l₁ ∈ [l], colon ∉ l₁ := by simpa [show l = l' by simpa using last] using none_
            obtain ⟨whole, free''⟩ := split_behind (r := r) none_ free
            rw [split] at split'
            rw [colon_unique free' free'' (split'.symm.trans whole)] at value
            exact absurd ⟨v, value⟩ endless
        refine ih (hs.set k' v) (cstr_next text)
          (fun l' mem => proper l' (List.mem_cons_of_mem _ mem)) later ?_
        rwa [show cur + l.length + 2 + (linesText k ls).length + 2 =
          cur + (linesText k (l :: ls)).length + 2 by rw [length_linesText_cons]; omega]

end Loop

/-! ## Buffers that lead out of a copy -/

/-- Buffers that lead to a read outside of a copy or to a search that fails: the request line ends with
its address, or the last header line has no colon and the value behind the first colon that follows the
blank line has no end. -/
def Overruns (errno : ℕ) (buf : Text) : Prop :=
  4 ≤ buf.length ∧ buf.length ≤ 65535 ∧ ∃ line ls tail more,
    cstr (buf ++ [0]) 0 = .ok (line ++ (crlf ++ linesText tail ls)) ∧
    buf = line ++ (crlf ++ linesText tail ls) ++ more ∧ NoCrlf line ∧ Proper ls ∧
      (LastWord line ∨ (∃ q : Pieces, q.Accepted errno ∧ q.line = line) ∧ EndlessValue ls tail more)

/-- `ParsedRequest_parse` reads inside its copies only and finds all that it relies on. -/
def ParseDefined (pr : ParsedRequest) (errno : ℕ) (buf : Text) : Prop :=
  ∃ result, pr.parse errno buf = .ok result

section Main

variable {buf line tail more : Text} {ls : List Text} {errno : ℕ}

theorem overruns_iff (head : Head buf line ls tail)
    (rest : buf = line ++ (crlf ++ linesText tail ls) ++ more) :
    Overruns errno buf ↔ LastWord line ∨
      (∃ q : Pieces, q.Accepted errno ∧ q.line = line) ∧ EndlessValue ls tail more := by
  constructor
  · rintro ⟨small, large, line', ls', tail', more', read, rest', first, proper, wrong⟩
    obtain ⟨rfl, rfl, rfl⟩ := head.unique ⟨small, large, read, first, proper⟩
    obtain rfl := List.append_cancel_left (rest.symm.trans rest')
    exact wrong
  · exact fun wrong => ⟨head.small, head.large, line, ls, tail, more, head.read, rest, head.first,
      head.proper, wrong⟩

theorem Overruns.head (overruns : Overruns errno buf) : ∃ line ls tail, Head buf line ls tail := by
  obtain ⟨small, large, line, ls, tail, -, read, -, first, proper, -⟩ := overruns
  exact ⟨line, ls, tail, small, large, read, first, proper⟩

theorem parseLines_defined_iff (hs : Headers) (head : Head buf line ls tail)
    (rest : buf = line ++ (crlf ++ linesText tail ls) ++ more) :
    (∃ result, Headers.parseLines (buf ++ [0]) (buf.length + 1) (line.length + 2) hs = .ok result) ↔
      ¬ EndlessValue ls tail more := by
  have value : ∀ k r, tail = k ++ colon :: r →
      ((∃ v, valueAt (buf ++ [0]) (line.length + 2 + (linesText k ls).length + 2) = .ok v) ↔
        ¬ Unended (r ++ more)) := by
    rintro k r rfl
    have cut : buf ++ [0] = (line ++ (crlf ++ linesText k ls)) ++ colon :: (r ++ more ++ [0]) := by
      rw [rest, ← linesText_append]
      simp
    have place : line.length + 2 + (linesText k ls).length + 2 =
        (line ++ (crlf ++ linesText k ls)).length + 2 := by
      simp only [List.length_append, crlf, List.length_cons, List.length_nil]
      omega
    rw [cut, place]
    exact valueAt_behind _ _
  constructor
  · rintro ⟨result, done⟩ ⟨last, k, r, split, free, endless⟩
    exact parseLines_undefined hs head.next head.proper last split free
      (fun ends => (value k r split).1 ends endless) done
  · intro ends
    refine parseLines_defined hs head.next head.proper (fun last k r split free => ?_) head.enough
    exact (value k r split).2 fun endless => ends ⟨last, k, r, split, free, endless⟩

theorem not_lastWord {pr : ParsedRequest} {result : ℤ × ParsedRequest}
    (run : pr.parseRequestLine errno (line ++ [0]) = .ok result) (nul : 0 ∉ line) : ¬ LastWord line := by
  intro short
  rw [parseRequestLine_lastWord pr errno short nul] at run
  cases run

/-- The parser stays inside its copies exactly on the buffers that do not overrun them. -/
theorem parse_defined_iff (pr : ParsedRequest) (errno : ℕ) (buf : Text) :
    ParseDefined pr errno buf ↔ (pr.buf = none → ¬ Overruns errno buf) := by
  by_cases fresh : pr.buf = none
  swap
  · have again : pr.parse errno buf = .ok (-1, pr) := by
      simp [ParsedRequest.parse, fresh, pure, Except.pure]
    exact iff_of_true ⟨_, again⟩ fun h => absurd h fresh
  rw [imp_iff_right fresh]
  rcases head_or_reject buf with ⟨line, ls, tail, head⟩ | ⟨none_, reject⟩
  swap
  · exact iff_of_true ⟨_, reject pr errno fresh⟩ fun overruns => none_ overruns.head
  obtain ⟨more, rest⟩ := exists_rest head.read
  have nul := head.nul
  rw [ParseDefined, head.parse_eq fresh errno, overruns_iff head rest]
  rcases parseRequestLine_cases pr errno nul with ⟨pr₁, reject⟩ | short | ⟨q, ok, rfl⟩
  · refine iff_of_true ⟨_, by rw [reject]; rfl⟩ ?_
    rintro (short | ⟨⟨q, ok, rfl⟩, -⟩)
    · exact not_lastWord reject nul short
    · obtain ⟨pr₂, accepted, -⟩ := parseRequestLine_accepted pr errno ok
      cases reject.symm.trans accepted
  · refine iff_of_false ?_ (not_not_intro (Or.inl short))
    rw [parseRequestLine_lastWord pr errno short nul]
    rintro ⟨result, ⟨⟩⟩
  · obtain ⟨pr₁, accepted, -⟩ := parseRequestLine_accepted pr errno ok
    have entered := parseLines_defined_iff pr₁.headers head rest
    rw [or_iff_right (not_lastWord accepted nul), and_iff_right ⟨q, ok, rfl⟩, ← entered, accepted]
    constructor
    · rintro ⟨result, done⟩
      obtain ⟨-, ⟨⟩, done⟩ := bind_eq_ok.1 done
      obtain ⟨loop, ran, -⟩ := bind_eq_ok.1 done
      exact ⟨loop, ran⟩
    · rintro ⟨⟨ret, headers⟩, ran⟩
      refine ⟨(ret, { pr₁ with headers }), ?_⟩
      simp only [bind, Except.bind, pure, Except.pure, ne_eq, not_true_eq_false, if_false, ran]

/-- `GET http://h/` without a version. -/
theorem not_parseDefined_version : ¬ ∀ port errno buf, 4 ≤ buf.length → buf.length ≤ 65535 →
    ParseDefined (.create port) errno buf := by
  intro all
  have undefined : (ParsedRequest.create none).parse 0
      [71, 69, 84, 32, 104, 116, 116, 112, 58, 47, 47, 104, 47, 13, 10, 13, 10] =
      .error .outOfBounds := by rfl
  obtain ⟨result, defined⟩ := all none 0
    [71, 69, 84, 32, 104, 116, 116, 112, 58, 47, 47, 104, 47, 13, 10, 13, 10] (by decide) (by decide)
  cases undefined.symm.trans defined

end Main

end ComputerNetwork.Http
