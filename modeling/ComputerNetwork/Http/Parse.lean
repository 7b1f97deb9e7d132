import ComputerNetwork.Http.HeaderLines
import ComputerNetwork.Http.RequestLine

/-!
# The parser as a whole

A buffer whose string has a blank line is a request line, header lines and a tail (`exists_head`);
`parse_eq` says what `ParsedRequest_parse` does with it in these terms.
-/

namespace ComputerNetwork.Http

open Lib

variable {buf text line tail : Text} {ls : List Text} {errno : ℕ} {pr : ParsedRequest}

theorem colon_unique {k k' r r' : Text} (free : colon ∉ k) (free' : colon ∉ k')
    (same : k ++ colon :: r = k' ++ colon :: r') : k = k' :=
  (span_unique (P := (· ≠ colon)) (fun _ hc h => free (h ▸ hc)) (fun _ hc h => free' (h ▸ hc))
    (by simp) (by simp) same).1

theorem exists_text (buf : Text) : ∃ text, cstr (buf ++ [0]) 0 = .ok text :=
  ⟨_, by rw [cstr, if_pos (by simp)]⟩

theorem exists_head (blank : crlf ++ crlf <:+: text) :
    ∃ line ls tail, text = line ++ (crlf ++ linesText tail ls) ∧ NoCrlf line ∧ Proper ls := by
  obtain ⟨line, s, rfl, first⟩ := exists_line ((List.prefix_append crlf crlf).isInfix.trans blank)
  obtain ⟨ls, tail, rfl, proper⟩ := exists_linesText (blank_behind first blank)
  exact ⟨line, ls, tail, rfl, first, proper⟩

theorem blank_linesText (line tail : Text) (ls : List Text) :
    crlf ++ crlf <:+: line ++ (crlf ++ linesText tail ls) := by
  induction ls generalizing line with
  | nil => exact ⟨line, tail, by simp [linesText]⟩
  | cons l ls ih =>
    rw [linesText]
    exact (ih l).trans ⟨line ++ crlf, [], by simp⟩

theorem linesText_unique {ls' : List Text} {tail' : Text} (proper : Proper ls) (proper' : Proper ls')
    (same : linesText tail ls = linesText tail' ls') : ls = ls' ∧ tail = tail' := by
  induction ls generalizing ls' with
  | nil =>
    cases ls' with
    | nil => exact ⟨rfl, by simpa [linesText] using same⟩
    | cons l' ls' =>
      obtain ⟨some_, first⟩ := proper' l' (List.mem_cons_self ..)
      exact absurd ⟨tail, same⟩ (no_crlf_start some_ first)
  | cons l ls ih =>
    obtain ⟨some_, first⟩ := proper l (List.mem_cons_self ..)
    cases ls' with
    | nil => exact absurd ⟨tail', same.symm⟩ (no_crlf_start some_ first)
    | cons l' ls' =>
      obtain ⟨rfl, rest⟩ := line_unique first (proper' l' (List.mem_cons_self ..)).2 same
      obtain ⟨rfl, rfl⟩ := ih (fun l hl => proper l (List.mem_cons_of_mem _ hl))
        (fun l hl => proper' l (List.mem_cons_of_mem _ hl)) rest
      exact ⟨rfl, rfl⟩

theorem parse_reject (fresh : pr.buf = none) (read : cstr (buf ++ [0]) 0 = .ok text)
    (wrong : buf.length < 4 ∨ 65535 < buf.length ∨ ¬ crlf ++ crlf <:+: text) :
    pr.parse errno buf = .ok (-1, pr) := by
  by_cases size : buf.length < 4 ∨ 65535 < buf.length
  · simp [ParsedRequest.parse, fresh, ParsedRequest.minReqLen, ParsedRequest.maxReqLen, size, pure,
      Except.pure]
  · have none_ := position_eq_none.2 ((or_assoc.2 wrong).resolve_left size)
    simp [ParsedRequest.parse, fresh, ParsedRequest.minReqLen, ParsedRequest.maxReqLen, size, pure,
      Except.pure, bind, Except.bind, strstr, read, none_]

theorem parse_eq {rest : Text} (fresh : pr.buf = none) (small : 4 ≤ buf.length)
    (large : buf.length ≤ 65535) (read : cstr (buf ++ [0]) 0 = .ok (line ++ (crlf ++ rest)))
    (first : NoCrlf line) (blank : crlf ++ crlf <:+: line ++ (crlf ++ rest)) :
    pr.parse errno buf = (do
      let (ret, pr) ← pr.parseRequestLine errno (line ++ [0])
      if ret ≠ 0 then return (-1, pr)
      let (ret, headers) ←
        Headers.parseLines (buf ++ [0]) (buf.length + 1) (line.length + 2) pr.headers
      return (ret, { pr with headers })) := by
  have size : ¬ (buf.length < 4 ∨ 65535 < buf.length) := by omega
  have found : position (crlf ++ crlf) (line ++ (crlf ++ rest)) ≠ none := fun h =>
    position_eq_none.1 h blank
  have copy := take_drop_of_cstr read
  rw [List.drop_zero] at copy
  simp only [ParsedRequest.parse, fresh, ParsedRequest.minReqLen, ParsedRequest.maxReqLen, size,
    pure, Except.pure, bind, Except.bind, strstr, read, position_crlf first, Option.map_some,
    Nat.zero_add, copy, ne_eq, not_true_eq_false, if_false, Option.map_eq_none_iff, found,
    List.length_append, List.length_singleton]

theorem length_linesText (tail : Text) (ls : List Text) :
    ls.length < (linesText tail ls).length := by
  induction ls with
  | nil => simp [linesText, crlf]
  | cons l ls ih =>
    simp only [linesText, List.length_append, List.length_cons, crlf, List.length_nil]
    omega

/-- A buffer of a size that is accepted whose string is a request line, header lines and a tail. -/
structure Head (buf line : Text) (ls : List Text) (tail : Text) : Prop where
  small : 4 ≤ buf.length
  large : buf.length ≤ 65535
  read : cstr (buf ++ [0]) 0 = .ok (line ++ (crlf ++ linesText tail ls))
  first : NoCrlf line
  proper : Proper ls

theorem head_or_reject (buf : Text) : (∃ line ls tail, Head buf line ls tail) ∨
    (¬ ∃ line ls tail, Head buf line ls tail) ∧
      ∀ (pr : ParsedRequest) errno, pr.buf = none → pr.parse errno buf = .ok (-1, pr) := by
  obtain ⟨text, read⟩ := exists_text buf
  by_cases wrong : buf.length < 4 ∨ 65535 < buf.length ∨ ¬ crlf ++ crlf <:+: text
  · refine Or.inr ⟨?_, fun pr errno fresh => parse_reject fresh read wrong⟩
    rintro ⟨line, ls, tail, small, large, read', -⟩
    obtain rfl := Except.ok.inj (read.symm.trans read')
    rcases wrong with short | long | none_
    · omega
    · omega
    · exact none_ (blank_linesText line tail ls)
  · simp only [not_or, not_lt, not_not] at wrong
    obtain ⟨small, large, blank⟩ := wrong
    obtain ⟨line, ls, tail, rfl, first, proper⟩ := exists_head blank
    exact Or.inl ⟨line, ls, tail, small, large, read, first, proper⟩

namespace Head

variable {line' tail' : Text} {ls' : List Text}

theorem nul (head : Head buf line ls tail) : 0 ∉ line := fun h =>
  (cstr_eq_ok.1 head.read).1 (List.mem_append_left _ h)

theorem next (head : Head buf line ls tail) :
    cstr (buf ++ [0]) (line.length + 2) = .ok (linesText tail ls) := by
  have behind := cstr_next head.read
  rwa [Nat.zero_add] at behind

theorem enough (head : Head buf line ls tail) : ls.length < buf.length + 1 := by
  have size := length_lt_of_cstr head.next
  have lines := length_linesText tail ls
  rw [List.length_append, List.length_singleton] at size
  omega

theorem unique (head : Head buf line ls tail) (head' : Head buf line' ls' tail') :
    line = line' ∧ ls = ls' ∧ tail = tail' := by
  obtain ⟨rfl, rest⟩ :=
    line_unique head.first head'.first (Except.ok.inj (head.read.symm.trans head'.read))
  exact ⟨rfl, linesText_unique head.proper head'.proper rest⟩

theorem parse_eq (head : Head buf line ls tail) (fresh : pr.buf = none) (errno : ℕ) :
    pr.parse errno buf = (do
      let (ret, pr) ← pr.parseRequestLine errno (line ++ [0])
      if ret ≠ 0 then return (-1, pr)
      let (ret, headers) ←
        Headers.parseLines (buf ++ [0]) (buf.length + 1) (line.length + 2) pr.headers
      return (ret, { pr with headers })) :=
  Http.parse_eq fresh head.small head.large head.read head.first (blank_linesText _ _ _)

end Head

/-- What is known of a buffer that is accepted, and of the object afterwards. -/
theorem of_parse {pr' : ParsedRequest} (fresh : pr.buf = none)
    (parsed : pr.parse errno buf = .ok (0, pr')) :
    ∃ (q : Pieces) (ls : List Text) (tail : Text) (ps : List (Text × Text)),
      cstr (buf ++ [0]) 0 = .ok (q.line ++ (crlf ++ linesText tail ls)) ∧ NoCrlf q.line ∧ Proper ls ∧
        q.Accepted errno ∧ Reads (buf ++ [0]) (q.line.length + 2) ps ∧ pr'.buf ≠ none ∧
        pr'.fields = .ok q.fields ∧ pr'.headers = pr.headers.setAll ps := by
  rcases head_or_reject buf with ⟨line, ls, tail, head⟩ | ⟨-, reject⟩
  swap
  · rw [reject pr errno fresh] at parsed
    cases parsed
  rw [head.parse_eq fresh errno] at parsed
  rcases parseRequestLine_cases pr errno head.nul with ⟨pr₁, reject⟩ | short | ⟨q, ok, rfl⟩
  · rw [reject] at parsed
    cases parsed
  · rw [parseRequestLine_lastWord pr errno short head.nul] at parsed
    cases parsed
  · obtain ⟨pr₁, accepted, headers, fields, assigned⟩ := parseRequestLine_accepted pr errno ok
    rw [accepted] at parsed
    obtain ⟨-, ⟨⟩, parsed⟩ := bind_eq_ok.1 parsed
    obtain ⟨⟨ret, hs⟩, loop, done⟩ := bind_eq_ok.1 parsed
    cases done
    obtain ⟨ps, run, same⟩ := exists_reads head.next head.proper loop
    exact ⟨q, ls, tail, ps, head.read, head.first, head.proper, ok, run, assigned, fields,
      headers ▸ same⟩

end ComputerNetwork.Http
