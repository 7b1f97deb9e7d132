import ComputerNetwork.Http.Rendering

/-!
# Reading the head of a message

The head of an HTTP message is read as lines that end in CRLF, up to the first empty one; a header
line has a name before its first colon, compared without regard to ASCII case, and a value behind it.
`headerLines_render` says which lines are read from the text of a request: those of its headers, up to
a blank line in one of their keys.  `eq_of_linesOf` reads headers without such keys back from them.
-/

namespace ComputerNetwork.Http

open Lib ParsedRequest

/-- The lines of a text. -/
def lines : Text → List Text
  | [] => [[]]
  | 13 :: 10 :: rest => [] :: lines rest
  | c :: rest =>
    match lines rest with
    | [] => [[c]]
    | l :: ls => (c :: l) :: ls

/-- The lines of the head of a message. -/
def headLines (message : Text) : List Text := (lines message).takeWhile (· ≠ [])

/-- The header lines of a message, behind its request line. -/
def headerLines (message : Text) : List Text := (headLines message).tail

/-- The version in the request line of a message, behind the method and the URI. -/
def requestVersion (message : Text) : Text :=
  let line := (headLines message).headD []
  ((line.dropWhile (· ≠ sp)).tail.dropWhile (· ≠ sp)).tail

/-- `tolower` in the C locale. -/
def toLower (c : UInt8) : UInt8 := if 65 ≤ c ∧ c ≤ 90 then c + 32 else c

/-- Names that differ at most in ASCII case. -/
def SameName (a b : Text) : Prop := a.map toLower = b.map toLower

instance (a b : Text) : Decidable (SameName a b) := inferInstanceAs (Decidable (_ = _))

def headerName (line : Text) : Text := line.takeWhile (· ≠ colon)

/-- The value of a header line, without the spaces in front. -/
def headerValue (line : Text) : Text := ((line.dropWhile (· ≠ colon)).tail).dropWhile (· = sp)

/-- A header line with a given name. -/
def Named (name line : Text) : Prop := colon ∈ line ∧ SameName (headerName line) name

instance (name line : Text) : Decidable (Named name line) := inferInstanceAs (Decidable (_ ∧ _))

/-! ## Lines -/

theorem lines_cons {c : UInt8} {rest : Text} (inside : ¬ crlf <+: c :: rest) {l : Text}
    {ls : List Text} (next : lines rest = l :: ls) : lines (c :: rest) = (c :: l) :: ls := by
  rw [lines]
  · rw [next]
  · rintro rest' rfl rfl
    exact inside ⟨rest', rfl⟩

theorem lines_ne_nil (t : Text) : lines t ≠ [] := by
  cases t with
  | nil => exact List.cons_ne_nil _ _
  | cons c rest =>
    unfold lines
    split
    · exact List.cons_ne_nil _ _
    · exact List.cons_ne_nil _ _
    · split <;> exact List.cons_ne_nil _ _

theorem lines_append {l : Text} (line : NoCrlf l) (rest : Text) :
    lines (l ++ (crlf ++ rest)) = l :: lines rest := by
  induction l with
  | nil => rfl
  | cons c l ih =>
    have behind : NoCrlf l := line.mono (List.suffix_cons c l).isInfix
    refine lines_cons ?_ (ih behind)
    exact no_crlf_start (List.cons_ne_nil c l) line

theorem lines_of_noCrlf {l : Text} (line : NoCrlf l) : lines l = [l] := by
  induction l with
  | nil => rfl
  | cons c l ih =>
    refine lines_cons (fun begins => line begins.isInfix) (ih ?_)
    exact line.mono (List.suffix_cons c l).isInfix

theorem lines_texts (t rest : Text) : lines (t ++ (crlf ++ rest)) = lines t ++ lines rest := by
  induction t using key_induction with
  | one l line =>
    rw [lines_append line, lines_of_noCrlf line]
    rfl
  | more l t first ih =>
    rw [List.append_assoc, List.append_assoc, lines_append first, lines_append first, ih]
    rfl

theorem flatten_lines (t : Text) : (lines t).flatMap (· ++ crlf) = t ++ crlf := by
  induction t using key_induction with
  | one l line => rw [lines_of_noCrlf line, List.flatMap_singleton]
  | more l t first ih =>
    rw [lines_append first, List.flatMap_cons, ih]
    simp

theorem dropWhile_stop {a r : Text} {c : UInt8} (none : c ∉ a) :
    (a ++ c :: r).dropWhile (· ≠ c) = c :: r := by
  rw [List.dropWhile_append_of_pos fun x mem => by simpa using fun h : x = c => none (h ▸ mem)]
  simp

theorem takeWhile_stop {a r : Text} {c : UInt8} (none : c ∉ a) :
    (a ++ c :: r).takeWhile (· ≠ c) = a := by
  rw [List.takeWhile_append_of_pos fun x mem => by simpa using fun h : x = c => none (h ▸ mem)]
  simp

/-! ## The head of a printed request -/

/-- A header line without its line end. -/
def headerText (h : Text × Text) : Text := h.1 ++ colon :: sp :: h.2

theorem headerValue_headerText {h : Text × Text} (free : colon ∉ h.1) :
    headerValue (headerText h) = h.2.dropWhile (· = sp) := by
  rw [headerValue, headerText, dropWhile_stop free, List.tail_cons, List.dropWhile_cons_of_pos]
  rfl

theorem headerName_headerText {h : Text × Text} (free : colon ∉ h.1) :
    headerName (headerText h) = h.1 := takeWhile_stop free

/-- The header lines that are printed for headers, up to a blank line in a key. -/
def printedLines (hs : List (Text × Text)) : List Text :=
  (hs.flatMap fun h => lines (headerText h)).takeWhile (· ≠ [])

theorem lines_headers (hs : List (Text × Text)) : lines (hs.flatMap renderHeader ++ crlf) =
    (hs.flatMap fun h => lines (headerText h)) ++ [[], []] := by
  induction hs with
  | nil => rfl
  | cons h rest ih =>
    have split : (h :: rest).flatMap renderHeader ++ crlf =
        headerText h ++ (crlf ++ (rest.flatMap renderHeader ++ crlf)) := by
      simp [renderHeader, headerText]
    rw [split, lines_texts, ih, List.flatMap_cons, List.append_assoc]

theorem takeWhile_blank (ls rest : List Text) :
    (ls ++ [] :: rest).takeWhile (· ≠ []) = ls.takeWhile (· ≠ []) := by
  induction ls with
  | nil => rfl
  | cons l ls ih =>
    rw [List.cons_append, List.takeWhile_cons, List.takeWhile_cons, ih]

section Request

variable {f : Fields} {hs : List (Text × Text)}

theorem headLines_render (line : NoCrlf (renderLine f)) (hs : List (Text × Text)) :
    headLines (render f hs) = renderLine f :: printedLines hs := by
  rw [headLines, render, lines_append line, List.takeWhile_cons_of_pos, lines_headers, takeWhile_blank]
  · rfl
  · simp [renderLine]

/-- The header lines of a printed request are the lines of its headers. -/
theorem headerLines_render (line : NoCrlf (renderLine f)) (hs : List (Text × Text)) :
    headerLines (render f hs) = printedLines hs := by
  rw [headerLines, headLines_render line, List.tail_cons]

/-- The URI of a request has no space, so that the version is found behind it. -/
theorem requestVersion_render (wf : Wellformed f) (line : NoCrlf (renderLine f)) :
    requestVersion (render f hs) = f.version := by
  have port : sp ∉ optional colon f.port := by
    intro mem
    rcases value : f.port with _ | t
    · rw [value] at mem
      cases mem
    · rw [value, optional_some, List.mem_cons] at mem
      cases mem with
      | inl same => exact absurd same (by decide)
      | inr mem => exact ((wf.port t value).2 sp mem).2 rfl
  have path : sp ∉ f.path := by
    obtain ⟨x, whole, free, -⟩ := wf.path
    rw [whole, List.mem_cons, not_or]
    exact ⟨by decide, free⟩
  have uri : sp ∉ f.protocol ++ colon :: slash :: slash :: (f.host ++ (optional colon f.port ++
      f.path)) := by
    simp only [List.mem_append, List.mem_cons, not_or]
    exact ⟨fun mem => (wf.protocol sp mem).2.2 rfl, by decide, by decide, by decide,
      fun mem => (wf.host sp mem).2.2 rfl, port, path⟩
  have split : renderLine f = f.method ++ sp :: ((f.protocol ++ colon :: slash :: slash ::
      (f.host ++ (optional colon f.port ++ f.path))) ++ sp :: f.version) := by
    simp only [renderLine, List.append_assoc, List.cons_append]
  simp only [requestVersion, headLines_render line, List.headD_cons]
  rw [split, dropWhile_stop wf.method, List.tail_cons, dropWhile_stop uri, List.tail_cons]

end Request

/-! ## The lines of headers -/

/-- The lines of headers of which each has its key in front of a colon. -/
def linesOf (hs : List (Text × Text)) : List Text := hs.flatMap fun h => lines (h.1 ++ colon :: h.2)

/-- The last line of a key, which is printed in front of the colon. -/
def lastLine (key : Text) : Text := (lines key).getLast (lines_ne_nil key)

/-- A header as it is printed, with a space behind the colon. -/
def printed (h : Text × Text) : Text × Text := (h.1, sp :: h.2)

/-- A header that can be printed and read back, with no blank line in its key. -/
structure Unbroken (h : Text × Text) : Prop extends Printable h where
  blank : ¬ crlf ++ crlf <:+: h.1

section Lines

variable {H K : List (Text × Text)} {h : Text × Text} {k r l name : Text}

theorem lastLine_texts (t : Text) : lastLine (t ++ (crlf ++ k)) = lastLine k := by
  simp only [lastLine, lines_texts, List.getLast_append_of_ne_nil _ (lines_ne_nil k)]

theorem lastLine_of_noCrlf (line : NoCrlf k) : lastLine k = k := by
  simp only [lastLine, lines_of_noCrlf line, List.getLast_singleton]

theorem Unbroken.printed (whole : Unbroken h) : Unbroken (printed h) :=
  ⟨⟨whole.key, whole.start, noCrlf_nil.cons whole.value (by decide) (by decide)⟩, whole.blank⟩

theorem linesOf_cons (h : Text × Text) (K : List (Text × Text)) :
    linesOf (h :: K) = lines (h.1 ++ colon :: h.2) ++ linesOf K := List.flatMap_cons

/-- The colon stands in the last line of the key. -/
theorem lines_header (line : NoCrlf r) (k : Text) :
    lines (k ++ colon :: r) = (lines k).dropLast ++ [lastLine k ++ colon :: r] := by
  induction k using key_induction with
  | one k key =>
    rw [lines_of_noCrlf (key.cons line (by decide) (by decide)), lastLine_of_noCrlf key,
      lines_of_noCrlf key]
    rfl
  | more l k first ih =>
    rw [lastLine_texts, lines_append first, List.append_assoc, List.append_assoc,
      lines_append first, ih, List.dropLast_cons_of_ne_nil (lines_ne_nil k), List.cons_append]

theorem mem_of_mem_lines {t : Text} {c : UInt8} (mem : l ∈ lines t) (inside : c ∈ l)
    (other : c ∉ crlf) : c ∈ t := by
  have whole : c ∈ (lines t).flatMap (· ++ crlf) :=
    List.mem_flatMap.2 ⟨l, mem, List.mem_append_left _ inside⟩
  rw [flatten_lines] at whole
  exact (List.mem_append.1 whole).resolve_right other

theorem colon_lastLine (free : colon ∉ k) : colon ∉ lastLine k := fun inside =>
  free (mem_of_mem_lines (List.getLast_mem (lines_ne_nil k)) inside (by decide))

/-- Of the lines of a header only the last can have a name. -/
theorem named_header (free : colon ∉ k) (line : NoCrlf r) (mem : l ∈ lines (k ++ colon :: r)) :
    Named name l ↔ l = lastLine k ++ colon :: r ∧ SameName (lastLine k) name := by
  have own : Named name (lastLine k ++ colon :: r) ↔ SameName (lastLine k) name := by
    rw [Named, headerName, takeWhile_stop (colon_lastLine free)]
    simp
  rw [lines_header line, List.mem_append, List.mem_singleton] at mem
  constructor
  · intro named
    rcases mem with mem | rfl
    · exact absurd (mem_of_mem_lines (List.mem_of_mem_dropLast mem) named.1 (by decide)) free
    · exact ⟨rfl, own.1 named⟩
  · rintro ⟨rfl, same⟩
    exact own.2 same

theorem named_linesOf (whole : ∀ h ∈ K, Unbroken h) :
    (∀ l ∈ linesOf K, ¬ Named name l) ↔ ∀ h ∈ K, ¬ SameName (lastLine h.1) name := by
  constructor
  · intro none_ h mem same
    have last : lastLine h.1 ++ colon :: h.2 ∈ lines (h.1 ++ colon :: h.2) := by
      rw [lines_header (whole h mem).value]
      exact List.mem_append_right _ (List.mem_singleton_self _)
    refine none_ _ (List.mem_flatMap.2 ⟨h, mem, last⟩) ?_
    exact (named_header (whole h mem).key (whole h mem).value last).2 ⟨rfl, same⟩
  · intro none_ l mem named
    obtain ⟨h, mem, inside⟩ := List.mem_flatMap.1 mem
    exact none_ h mem ((named_header (whole h mem).key (whole h mem).value inside).1 named).2

theorem blank_not_mem (whole : Unbroken h) : [] ∉ lines (h.1 ++ colon :: h.2) := by
  obtain ⟨k, r⟩ := h
  induction k using key_induction with
  | one k key =>
    rw [lines_of_noCrlf (key.cons whole.value (by decide) (by decide))]
    simp
  | more l k first ih =>
    have some_ : l ≠ [] := by
      rintro rfl
      exact whole.start ⟨k, rfl⟩
    have here : ¬ crlf <+: k := by
      rintro ⟨rest, rfl⟩
      exact whole.blank ⟨l, rest, by simp⟩
    have behind : Unbroken (k, r) :=
      ⟨⟨fun mem => whole.key (by simp [mem]), here, whole.value⟩,
        fun blank => whole.blank ((blank_line_iff first here).2 blank)⟩
    have split : l ++ (crlf ++ k) ++ colon :: r = l ++ (crlf ++ (k ++ colon :: r)) := by simp
    rw [split, lines_append first, List.mem_cons, not_or]
    exact ⟨some_.symm, ih behind⟩

/-- Headers can be read back from their lines. -/
theorem eq_of_linesOf (wholeH : ∀ h ∈ H, Unbroken h) (wholeK : ∀ h ∈ K, Unbroken h)
    (same : linesOf H = linesOf K) : H = K := by
  have texts : ∀ hs : List (Text × Text), (linesOf hs).flatMap (· ++ crlf) =
      hs.flatMap fun h => h.1 ++ colon :: (h.2 ++ crlf) := by
    intro hs
    rw [linesOf, List.flatMap_assoc]
    apply List.flatMap_congr
    intro h _
    rw [flatten_lines, List.append_assoc, List.cons_append]
  have texts_eq := congrArg (List.flatMap (· ++ crlf)) same
  rw [texts, texts] at texts_eq
  clear same texts
  induction H generalizing K with
  | nil =>
    cases K with
    | nil => rfl
    | cons k K => simp at texts_eq
  | cons h H ih =>
    cases K with
    | nil => simp at texts_eq
    | cons k K =>
      have wh := wholeH h (List.mem_cons_self ..)
      have wk := wholeK k (List.mem_cons_self ..)
      simp only [List.flatMap_cons, List.append_assoc, List.cons_append] at texts_eq
      have keys : h.1 = k.1 := colon_unique wh.key wk.key texts_eq
      rw [keys, List.append_cancel_left_eq, List.cons.injEq] at texts_eq
      obtain ⟨values, rest⟩ := line_unique wh.value wk.value texts_eq.2
      rw [ih (fun h mem => wholeH h (List.mem_cons_of_mem _ mem))
        (fun h mem => wholeK h (List.mem_cons_of_mem _ mem)) rest, Prod.ext keys values]

theorem printedLines_eq (whole : ∀ h ∈ S, Unbroken h) : printedLines S = linesOf (S.map printed) := by
  rw [linesOf, List.flatMap_map]
  apply List.takeWhile_eq_self_iff.2
  intro l mem
  obtain ⟨h, mem, inside⟩ := List.mem_flatMap.1 mem
  simpa using fun blank : l = [] => blank_not_mem (whole h mem).printed (blank ▸ inside)

/-- Nothing is read behind a key that reaches over a blank line. -/
theorem printedLines_over {p : Text × Text} (mem : p ∈ S) (blank : crlf ++ crlf <:+: p.1)
    (more : List (Text × Text)) : printedLines (S ++ more) = printedLines S := by
  have inside : [] ∈ S.flatMap fun h => lines (headerText h) := by
    obtain ⟨x, y, split⟩ := blank
    have text : headerText p = x ++ (crlf ++ ([] ++ (crlf ++ (y ++ colon :: sp :: p.2)))) := by
      rw [headerText, ← split]
      simp
    refine List.mem_flatMap.2 ⟨p, mem, ?_⟩
    rw [text, lines_texts, lines_append noCrlf_nil]
    simp
  obtain ⟨front, rest, split⟩ := List.append_of_mem inside
  rw [printedLines, printedLines, List.flatMap_append, split, List.append_assoc, List.cons_append,
    takeWhile_blank, takeWhile_blank]

end Lines

end ComputerNetwork.Http
