import ComputerNetwork.Http.Parse

/-!
# Printed requests

`render` is the text of a request with given fields and headers; `unparse_eq` shows that
`ParsedRequest_unparse` writes it.  Parsing it back gives the fields (`parse_render`) and sets the
headers of `expandAll`: a header whose key spans lines is read once for each of these lines, and a
key that spans a blank line ends the reading.  For keys within one line nothing is added, which
gives `parse_request`: the parser reads every request of its grammar.
-/

namespace ComputerNetwork.Http

open Lib ParsedRequest

/-! ## The text of a request -/

def renderLine (f : Fields) : Text :=
  f.method ++ sp :: (f.protocol ++ colon :: slash :: slash ::
    (f.host ++ (optional colon f.port ++ (f.path ++ sp :: f.version))))

def renderHeader (h : Text × Text) : Text := h.1 ++ colon :: sp :: (h.2 ++ crlf)

def render (f : Fields) (hs : List (Text × Text)) : Text :=
  renderLine f ++ (crlf ++ (hs.flatMap renderHeader ++ crlf))

theorem render_eq (f : Fields) (hs : List (Text × Text)) :
    render f hs = (renderLine f ++ crlf) ++ (hs.flatMap renderHeader ++ crlf) :=
  (List.append_assoc ..).symm

theorem length_render (f : Fields) (hs : List (Text × Text)) : (render f hs).length =
    (renderLine f ++ crlf).length + (hs.flatMap renderHeader ++ crlf).length := by
  rw [render_eq, List.length_append]

section Print

variable {pr : ParsedRequest} {f : Fields}

/-- Pieces that fit are copied one behind the other. -/
theorem foldl_copyPiece (pieces : List Text) (out : List UInt8) (at_ : ℕ)
    (fits : at_ + pieces.flatten.length ≤ out.length) :
    pieces.foldl copyPiece (out, at_) =
      (splice out at_ pieces.flatten, at_ + pieces.flatten.length) := by
  induction pieces generalizing out at_ with
  | nil => simp [splice]
  | cons piece rest ih =>
    rw [List.flatten_cons, List.length_append] at fits
    have room : at_ + piece.length ≤ out.length := by omega
    have next : copyPiece (out, at_) piece = (splice out at_ piece, at_ + piece.length) := rfl
    rw [List.foldl_cons, next, ih _ _ (by rw [length_splice room]; omega), List.flatten_cons,
      splice_append _ room, List.length_append, Nat.add_assoc]

theorem of_fields (shown : pr.fields = .ok f) :
    pr.text pr.method = .ok f.method ∧ pr.text pr.protocol = .ok f.protocol ∧
      pr.text pr.host = .ok f.host ∧ pr.text pr.version = .ok f.version ∧ pr.path = some f.path ∧
      pr.portText = .ok f.port := by
  unfold ParsedRequest.fields at shown
  obtain ⟨port, hport, shown⟩ := bind_eq_ok.1 shown
  rcases path : pr.path with _ | x
  · rw [path] at shown
    cases shown
  · rw [path] at shown
    obtain ⟨m, tm, shown⟩ := bind_eq_ok.1 shown
    obtain ⟨p, tp, shown⟩ := bind_eq_ok.1 shown
    obtain ⟨h, th, shown⟩ := bind_eq_ok.1 shown
    obtain ⟨v, tv, shown⟩ := bind_eq_ok.1 shown
    cases shown
    exact ⟨tm, tp, th, tv, rfl, hport⟩

theorem requestLinePieces_eq (shown : pr.fields = .ok f) :
    ∃ pieces, pr.requestLinePieces = .ok pieces ∧ pieces.flatten = renderLine f ++ crlf := by
  obtain ⟨tm, tp, th, tv, path, port⟩ := of_fields shown
  refine ⟨_, by
    simp only [ParsedRequest.requestLinePieces, port, path, tm, tp, th, tv, bind, Except.bind, pure,
      Except.pure]; rfl, ?_⟩
  rcases value : f.port with _ | t <;> simp [renderLine, value]

theorem requestLineLen_eq (assigned : pr.buf ≠ none) (shown : pr.fields = .ok f) :
    pr.requestLineLen = .ok (renderLine f ++ crlf).length := by
  obtain ⟨tm, tp, th, tv, path, port⟩ := of_fields shown
  have size : (optional colon f.port).length = (f.port.map fun t => t.length + 1).getD 0 := by
    cases f.port <;> rfl
  simp only [ParsedRequest.requestLineLen, if_neg assigned, port, path, tm, tp, th, tv, bind,
    Except.bind, pure, Except.pure, renderLine, List.length_append, List.length_cons,
    List.length_nil, crlf, size]
  congr 1
  omega

theorem flatten_headerPieces (hs : List (Text × Text)) :
    (hs.flatMap fun h => [h.1, [colon, sp], h.2, crlf]).flatten = hs.flatMap renderHeader := by
  induction hs with
  | nil => rfl
  | cons h rest ih =>
    rw [List.flatMap_cons, List.flatten_append, ih, List.flatMap_cons]
    simp [renderHeader]

theorem headersLen_eq (assigned : pr.buf ≠ none) :
    pr.headersLen = (pr.headers.live.flatMap renderHeader ++ crlf).length := by
  rw [ParsedRequest.headersLen, if_neg assigned, List.length_append, List.length_flatMap]
  refine congrArg (· + 2) (congrArg List.sum (List.map_congr_left fun h _ => ?_))
  simp only [renderHeader, List.length_append, List.length_cons, crlf, List.length_nil]
  omega

theorem headersLen_le (pr : ParsedRequest) :
    pr.headersLen ≤ (pr.headers.live.flatMap renderHeader ++ crlf).length := by
  by_cases assigned : pr.buf = none
  · rw [ParsedRequest.headersLen, if_pos assigned]
    exact Nat.zero_le _
  · exact (headersLen_eq assigned).le

theorem foldl_headers (hs : List (Text × Text)) {out : List UInt8} {current : ℕ}
    (fits : current + (hs.flatMap renderHeader ++ crlf).length ≤ out.length) :
    (copyPiece (hs.foldl (fun out h => [h.1, [colon, sp], h.2, crlf].foldl copyPiece out)
      (out, current)) crlf).1 = splice out current (hs.flatMap renderHeader ++ crlf) := by
  have joined : ((hs.flatMap fun h => [h.1, [colon, sp], h.2, crlf]) ++ [crlf]).flatten =
      hs.flatMap renderHeader ++ crlf := by
    rw [List.flatten_append, flatten_headerPieces, List.flatten_singleton]
  have copy := foldl_copyPiece ((hs.flatMap fun h => [h.1, [colon, sp], h.2, crlf]) ++ [crlf]) out
    current (by rwa [joined])
  rw [joined, List.foldl_append, List.foldl_flatMap] at copy
  exact congrArg Prod.fst copy

/-- `ParsedHeader_printHeaders` writes the headers that have not been removed. -/
theorem printHeaders_eq {out : List UInt8} {current : ℕ}
    (fits : current + (pr.headers.live.flatMap renderHeader ++ crlf).length ≤ out.length) :
    pr.printHeaders out current =
      (0, splice out current (pr.headers.live.flatMap renderHeader ++ crlf)) := by
  have enough : ¬ out.length - current < pr.headersLen := by
    have len := headersLen_le pr
    omega
  simp only [ParsedRequest.printHeaders, if_neg enough]
  exact congrArg (Prod.mk (0 : ℤ)) (foldl_headers _ fits)

/-- `ParsedRequest_unparse` writes the text of the request, which has the length that
`ParsedRequest_totalLen` gives. -/
theorem unparse_eq (assigned : pr.buf ≠ none) (shown : pr.fields = .ok f) {out : List UInt8}
    (fits : (render f pr.headers.live).length ≤ out.length) :
    pr.unparse out =
      .ok (0, render f pr.headers.live ++ out.drop (render f pr.headers.live).length) := by
  have len := requestLineLen_eq assigned shown
  have len' := headersLen_eq assigned
  obtain ⟨pieces, copied, flat⟩ := requestLinePieces_eq shown
  have total := length_render f pr.headers.live
  have room : 0 + pieces.flatten.length ≤ out.length := by rw [flat]; omega
  have first : pr.printRequestLine out = .ok (0, splice out 0 pieces.flatten,
      pieces.flatten.length) := by
    have enough : ¬ out.length < (renderLine f ++ crlf).length := by omega
    simp only [ParsedRequest.printRequestLine, len, enough, copied, bind, Except.bind, pure,
      Except.pure, if_false]
    rw [foldl_copyPiece pieces out 0 room, Nat.zero_add]
  have second := @printHeaders_eq pr (splice out 0 pieces.flatten) pieces.flatten.length
    (by rw [length_splice room, flat]; omega)
  have done : splice (splice out 0 pieces.flatten) pieces.flatten.length
      (pr.headers.live.flatMap renderHeader ++ crlf) =
        render f pr.headers.live ++ out.drop (render f pr.headers.live).length := by
    have joined := splice_append (b := out) (i := 0)
      (pr.headers.live.flatMap renderHeader ++ crlf) room
    rw [Nat.zero_add] at joined
    rw [joined, flat, ← render_eq, splice, List.take_zero, List.nil_append, Nat.zero_add]
  simp only [ParsedRequest.unparse, if_neg assigned, first, second, done, bind, Except.bind, pure,
    Except.pure, lt_irrefl, if_false]

theorem totalLen_eq (assigned : pr.buf ≠ none) (shown : pr.fields = .ok f) :
    pr.totalLen = .ok (render f pr.headers.live).length := by
  have total := length_render f pr.headers.live
  simp only [ParsedRequest.totalLen, if_neg assigned, requestLineLen_eq assigned shown,
    headersLen_eq assigned, bind, Except.bind, pure, Except.pure, ← total]

end Print

/-! ## Reading the request line back -/

/-- Fields that a request line can show. -/
structure Wellformed (f : Fields) : Prop where
  method_ne : f.method ≠ []
  method : sp ∉ f.method
  protocol_ne : f.protocol ≠ []
  protocol : ∀ c ∈ f.protocol, c ≠ colon ∧ c ≠ slash ∧ c ≠ sp
  host_ne : f.host ≠ []
  host : ∀ c ∈ f.host, c ≠ colon ∧ c ≠ slash ∧ c ≠ sp
  port : ∀ t ∈ f.port, t ≠ [] ∧ ∀ c ∈ t, c ≠ slash ∧ c ≠ sp
  path : ∃ x, f.path = slash :: x ∧ sp ∉ x ∧ ¬ [slash] <+: x
  version : httpSlash <+: f.version
  nul : 0 ∉ renderLine f

/-- `strtol` sets `errno` to nothing but `ERANGE`. -/
theorem badPort_eq_false {errno : ℕ} (clear : errno ≠ eINVAL) (t : Text) :
    badPort t errno = false := by
  have range : (strtol t errno).2 = errno ∨ (strtol t errno).2 = eRANGE := by
    unfold strtol
    dsimp only
    split_ifs <;> simp
  have different : (strtol t errno).2 ≠ eINVAL := by
    cases range with
    | inl h =>
      rw [h]
      exact clear
    | inr h =>
      rw [h]
      decide
  simp [badPort, different]

/-- The pieces that `strtok_r` cuts a printed line into. -/
def Pieces.ofFields (f : Fields) : Pieces where
  gap := []
  method := f.method
  gap' := []
  address := ⟨[], f.protocol, colon, [slash, slash], f.host ++ optional colon f.port,
    some f.path.tail⟩
  colons := []
  host := f.host
  port := f.port
  version := f.version

theorem line_ofFields {f : Fields} (wf : Wellformed f) : (Pieces.ofFields f).line = renderLine f := by
  obtain ⟨x, path, -, -⟩ := wf.path
  simp [Pieces.line, Pieces.ofFields, Address.text, Address.rest, renderLine, path]

theorem fields_ofFields {f : Fields} (wf : Wellformed f) : (Pieces.ofFields f).fields = f := by
  obtain ⟨x, path, -, -⟩ := wf.path
  obtain ⟨m, p, h, port, y, v⟩ := f
  dsimp only at path
  subst path
  have shown : port.filter (· ≠ []) = port := by
    cases port with
    | none => rfl
    | some t => exact Option.filter_some_pos (by simpa using (wf.port t rfl).1)
  simp only [Pieces.fields, Pieces.ofFields, shown, Option.getD_some, List.tail_cons]

theorem accepted_ofFields {f : Fields} (wf : Wellformed f) {errno : ℕ} (clear : errno ≠ eINVAL) :
    (Pieces.ofFields f).Accepted errno := by
  have nul := wf.nul
  have line := line_ofFields wf
  obtain ⟨x, path, free, single⟩ := wf.path
  have inPort : ∀ c ∈ optional colon f.port, c ≠ slash ∧ c ≠ sp := by
    intro c hc
    rcases port : f.port with _ | t
    · rw [port] at hc
      cases hc
    · rw [port, optional_some] at hc
      rcases List.mem_cons.1 hc with rfl | hc
      · decide
      · exact (wf.port t port).2 c hc
  refine ⟨by simp [Pieces.ofFields], wf.method_ne, wf.method, by simp [Pieces.ofFields], ?_, rfl,
    by simp [Pieces.ofFields], wf.host_ne, fun h => (wf.host _ h).1 rfl, ?_, ?_,
    fun t _ _ => badPort_eq_false clear t, wf.version, line ▸ nul⟩
  · refine ⟨by simp [Pieces.ofFields], wf.protocol_ne, fun c hc => ?_, Or.inl rfl,
      by simp [Pieces.ofFields], by simp [Pieces.ofFields, wf.host_ne], ?_, ?_⟩
    · exact ⟨(wf.protocol c hc).1, (wf.protocol c hc).2.1⟩
    · simp only [Pieces.ofFields, List.mem_append, not_or]
      exact ⟨fun h => (wf.host _ h).2.1 rfl, fun h => (inPort _ h).1 rfl⟩
    · intro c hc
      refine ⟨?_, ?_⟩
      · rintro rfl
        refine nul (line ▸ ?_)
        simp only [Pieces.line, List.mem_append, List.mem_cons]
        exact .inr (.inr (.inr (.inr (.inl hc))))
      · simp only [Pieces.ofFields, Address.text, Address.rest, List.mem_append, List.mem_cons,
          optional_some, path, List.tail_cons, List.not_mem_nil, false_or, or_false] at hc
        rintro rfl
        rcases hc with h | h | h | (h | h) | h | h
        · exact (wf.protocol _ h).2.2 rfl
        · exact absurd h (by decide)
        · exact absurd h (by decide)
        · exact (wf.host _ h).2.2 rfl
        · exact (inPort _ h).2 rfl
        · exact absurd h (by decide)
        · exact free h
  · simp only [Pieces.ofFields, Address.rest, absUriLen, List.length_append, List.length_cons,
      List.length_nil, optional_some]
    split_ifs <;> omega
  · rintro y ⟨⟩
    rw [path]
    exact single

/-! ## Reading the headers back -/

/-- The texts behind the line ends of a key, up to a blank line. -/
def suffixKeys : Text → List Text
  | a :: b :: rest =>
      if [a, b] = crlf then if crlf <+: rest then [] else rest :: suffixKeys rest
      else suffixKeys (b :: rest)
  | _ => []

/-- The headers that are read from a printed one: one for each line of its key. -/
def expand (p : Text × Text) : List (Text × Text) := p :: (suffixKeys p.1).map fun k => (k, p.2)

/-- The headers that are read from printed ones, up to a key that spans a blank line. -/
def expandAll : List (Text × Text) → List (Text × Text)
  | [] => []
  | p :: rest => expand p ++ if crlf ++ crlf <:+: p.1 then [] else expandAll rest

theorem suffixKeys_line {l : Text} (line : NoCrlf l) (k : Text) :
    suffixKeys (l ++ (crlf ++ k)) = if crlf <+: k then [] else k :: suffixKeys k := by
  induction l with
  | nil => simp [suffixKeys, crlf]
  | cons a l ih =>
    have rest : NoCrlf l := line.mono (List.suffix_cons a l).isInfix
    rw [← ih rest]
    rcases l with _ | ⟨b, l⟩
    · rw [List.cons_append, List.nil_append, crlf, List.cons_append, suffixKeys,
        if_neg (by simp [crlf])]
    · have apart : [a, b] ≠ crlf := by
        intro same
        exact line ⟨[], l, by rw [← same]; simp⟩
      rw [List.cons_append, List.cons_append, suffixKeys, if_neg apart]

theorem suffixKeys_of_noCrlf {k : Text} (line : NoCrlf k) : suffixKeys k = [] := by
  induction k with
  | nil => rfl
  | cons a k ih =>
    rcases k with _ | ⟨b, k⟩
    · rfl
    · have apart : [a, b] ≠ crlf := by
        intro same
        exact line ⟨[], k, by rw [← same]; simp⟩
      rw [suffixKeys, if_neg apart]
      exact ih (line.mono (List.suffix_cons a _).isInfix)

theorem key_cases (k : Text) : NoCrlf k ∨ ∃ l k', k = l ++ (crlf ++ k') ∧ NoCrlf l := by
  by_cases found : crlf <:+: k
  · exact Or.inr (exists_line found)
  · exact Or.inl found

@[elab_as_elim]
theorem key_induction {motive : Text → Prop} (one : ∀ k, NoCrlf k → motive k)
    (more : ∀ l k, NoCrlf l → motive k → motive (l ++ (crlf ++ k))) (k : Text) : motive k := by
  induction size : k.length using Nat.strong_induction_on generalizing k with
  | _ n ih =>
    rcases key_cases k with line | ⟨l, k', rfl, first⟩
    · exact one k line
    · refine more l k' first (ih k'.length ?_ k' rfl)
      rw [← size]
      simp only [List.length_append, crlf, List.length_cons, List.length_nil]
      omega

theorem blank_line_iff {l k : Text} (line : NoCrlf l) (here : ¬ crlf <+: k) :
    crlf ++ crlf <:+: l ++ (crlf ++ k) ↔ crlf ++ crlf <:+: k :=
  ⟨fun h => (blank_behind line h).resolve_left here,
    fun h => h.trans ⟨l ++ crlf, [], by simp⟩⟩

/-- A header that can be printed and read back. -/
structure Printable (h : Text × Text) : Prop where
  key : colon ∉ h.1
  start : ¬ crlf <+: h.1
  value : NoCrlf h.2

/-- One printed header: the lines of its key are read one after the other. -/
theorem reads_expand {b : List UInt8} {cur : ℕ} {k v r : Text} {ps : List (Text × Text)}
    (text : cstr b cur = .ok (k ++ colon :: sp :: (v ++ (crlf ++ r)))) (free : colon ∉ k)
    (start : ¬ crlf <+: k) (line : NoCrlf v)
    (next : ¬ crlf ++ crlf <:+: k → Reads b (cur + k.length + 2 + v.length + 2) ps) :
    Reads b cur (expand (k, v) ++ if crlf ++ crlf <:+: k then [] else ps) := by
  induction n : k.length using Nat.strong_induction_on generalizing k cur with
  | _ n ih =>
    have value : valueAt b (cur + k.length + 2) = .ok v := by
      have h := cstr_add (j := (k ++ [colon, sp]).length) (s := (k ++ [colon, sp]) ++ (v ++ (crlf ++ r)))
        (by simpa using text) (by simp)
      rw [List.drop_left, List.length_append, ← Nat.add_assoc] at h
      exact valueAt_eq h line
    rcases key_cases k with one | ⟨l, k', rfl, first⟩
    · have whole : NoCrlf (k ++ colon :: sp :: v) :=
        one.cons (noCrlf_nil.cons line (by decide) (by decide)) (by decide) (by decide)
      have single : ¬ crlf ++ crlf <:+: k := fun h =>
        one ((List.prefix_append crlf crlf).isInfix.trans h)
      have rest := next single
      rw [if_neg single, expand, suffixKeys_of_noCrlf one]
      refine .line (l := k ++ colon :: sp :: v) (s := r) (by simpa using text) (by simp) whole
        (by simp; rfl) free value ?_
      have place : cur + (k ++ colon :: sp :: v).length + 2 = cur + k.length + 2 + v.length + 2 := by
        simp only [List.length_append, List.length_cons]
        omega
      rw [place]
      exact rest
    · have some_ : l ≠ [] := by
        rintro rfl
        exact start ⟨k', rfl⟩
      have split : l ++ (crlf ++ (k' ++ colon :: sp :: (v ++ (crlf ++ r)))) =
          (l ++ (crlf ++ k')) ++ colon :: sp :: (v ++ (crlf ++ r)) := by simp
      have text' : cstr b (cur + l.length + 2) = .ok (k' ++ colon :: sp :: (v ++ (crlf ++ r))) :=
        cstr_next (split ▸ text)
      by_cases here : crlf <+: k'
      · have blank : crlf ++ crlf <:+: l ++ (crlf ++ k') := by
          obtain ⟨y, rfl⟩ := here
          exact ⟨l, y, by simp⟩
        rw [if_pos blank, expand, suffixKeys_line first, if_pos here]
        obtain ⟨y, rfl⟩ := here
        exact .line (split ▸ text) some_ first split free value
          (.blank (by simpa using text'))
      · have blanks := blank_line_iff first here
        have expanded : expand (l ++ (crlf ++ k'), v) = (l ++ (crlf ++ k'), v) :: expand (k', v) := by
          rw [expand, suffixKeys_line first, if_neg here]
          rfl
        rw [expanded]
        simp only [blanks]
        refine .line (split ▸ text) some_ first split free value
          (ih k'.length (by rw [← n]; simp [crlf]; omega) text'
            (fun h => free (by simp [h])) here (fun h => ?_) rfl)
        have place : cur + l.length + 2 + k'.length + 2 + v.length + 2 =
            cur + (l ++ (crlf ++ k')).length + 2 + v.length + 2 := by
          simp only [List.length_append, crlf, List.length_cons, List.length_nil]
          omega
        rw [place]
        exact next fun blank => h (blanks.1 blank)

/-- Printed headers are read back as `expandAll` says. -/
theorem reads_render {b : List UInt8} {hs : List (Text × Text)} (ok : ∀ h ∈ hs, Printable h)
    {cur : ℕ} (text : cstr b cur = .ok (hs.flatMap renderHeader ++ crlf)) :
    Reads b cur (expandAll hs) := by
  induction hs generalizing cur with
  | nil => exact .blank (show cstr b cur = .ok (crlf ++ []) by simpa using text)
  | cons h rest ih =>
    have printable := ok h (List.mem_cons_self ..)
    have text' : cstr b cur =
        .ok (h.1 ++ colon :: sp :: (h.2 ++ (crlf ++ (rest.flatMap renderHeader ++ crlf)))) := by
      simpa [renderHeader] using text
    apply reads_expand text' printable.key printable.start printable.value
    intro _
    refine ih (fun h' mem => ok h' (List.mem_cons_of_mem _ mem)) ?_
    have more := cstr_add (j := (h.1 ++ colon :: sp :: (h.2 ++ crlf)).length)
      (s := (h.1 ++ colon :: sp :: (h.2 ++ crlf)) ++ (rest.flatMap renderHeader ++ crlf))
      (by simpa using text') (by simp)
    rw [List.drop_left] at more
    have place : cur + (h.1 ++ colon :: sp :: (h.2 ++ crlf)).length =
        cur + h.1.length + 2 + h.2.length + 2 := by
      simp only [List.length_append, List.length_cons, crlf, List.length_nil]
      omega
    rwa [place] at more

/-! ## Reading a request back -/

theorem blank_render (hs : List (Text × Text)) :
    crlf ++ crlf <:+: crlf ++ (hs.flatMap renderHeader ++ crlf) := by
  induction hs with
  | nil => exact ⟨[], [], by simp⟩
  | cons h rest ih =>
    refine ih.trans ⟨crlf ++ (h.1 ++ colon :: sp :: h.2), [], ?_⟩
    simp [renderHeader]

/-- A printed request is accepted; the object shows its fields and holds its headers. -/
theorem parse_render {f : Fields} {hs : List (Text × Text)} {errno : ℕ} (wf : Wellformed f)
    (line : NoCrlf (renderLine f)) (ok : ∀ h ∈ hs, Printable h) (nul : 0 ∉ render f hs)
    (size : (render f hs).length ≤ 65535) (clear : errno ≠ eINVAL) (port : Option ℕ) :
    ∃ pr, (ParsedRequest.create port).parse errno (render f hs) = .ok (0, pr) ∧
      pr.fields = .ok f ∧ pr.headers = Headers.create.setAll (expandAll hs) := by
  have read : cstr (render f hs ++ [0]) 0 = .ok (render f hs) :=
    cstr_eq_ok.2 ⟨nul, [], by rw [List.drop_zero]⟩
  have small : 4 ≤ (render f hs).length := by
    simp only [render, crlf, List.length_append, List.length_cons, List.length_nil]
    omega
  have blank : crlf ++ crlf <:+: renderLine f ++ (crlf ++ (hs.flatMap renderHeader ++ crlf)) :=
    (blank_render hs).trans (List.suffix_append ..).isInfix
  obtain ⟨pr, parsed, headers, fields, -⟩ := parseRequestLine_accepted (ParsedRequest.create port)
    errno (accepted_ofFields wf clear)
  rw [line_ofFields wf] at parsed
  rw [fields_ofFields wf] at fields
  have run : Reads (render f hs ++ [0]) ((renderLine f).length + 2) (expandAll hs) := by
    refine reads_render ok ?_
    have h := cstr_next read
    rwa [Nat.zero_add] at h
  have enough : (expandAll hs).length < (render f hs).length + 1 := by
    have := run.length_lt
    rw [List.length_append, List.length_singleton] at this
    omega
  refine ⟨{ pr with headers := Headers.create.setAll (expandAll hs) }, ?_, fields, rfl⟩
  rw [parse_eq rfl small size read line blank, parsed]
  have loop : Headers.parseLines _ _ _ pr.headers = _ := parseLines_of_reads run enough
  rw [headers] at loop
  simp only [bind, Except.bind, pure, Except.pure, ne_eq, not_true_eq_false, if_false, headers, loop]
  rfl

/-! ## The grammar is accepted -/

/-- The texts of the fields. -/
def fieldTexts (f : Fields) : List Text :=
  [f.method, f.protocol, f.host, f.path, f.version] ++ f.port.toList

theorem nul_renderLine {f : Fields} (nul : ∀ t ∈ fieldTexts f, 0 ∉ t) : 0 ∉ renderLine f := by
  obtain ⟨method, protocol, host, port, path, version⟩ := f
  simp only [fieldTexts, List.mem_append, List.mem_cons, List.not_mem_nil, or_false, or_imp,
    forall_and, forall_eq, Option.mem_toList] at nul
  obtain ⟨⟨m, s, h, p, v⟩, t⟩ := nul
  have between : (0 : UInt8) ∉ optional colon port := by
    cases port with
    | none => simp
    | some x => simpa using ⟨by decide, t x rfl⟩
  simp only [renderLine, List.mem_append, List.mem_cons, m, s, h, p, v, between, or_false, false_or]
  decide

theorem noCrlf_renderLine {f : Fields} (lines : ∀ t ∈ fieldTexts f, NoCrlf t)
    (absolute : ∃ x, f.path = slash :: x) : NoCrlf (renderLine f) := by
  obtain ⟨method, protocol, host, port, path, version⟩ := f
  obtain ⟨x, rfl⟩ : ∃ x, path = slash :: x := absolute
  simp only [fieldTexts, List.mem_append, List.mem_cons, List.not_mem_nil, or_false, or_imp,
    forall_and, forall_eq, Option.mem_toList] at lines
  obtain ⟨⟨m, s, h, p, v⟩, t⟩ := lines
  have behind : NoCrlf (slash :: x ++ sp :: version) := p.cons v (by decide) (by decide)
  have authority : NoCrlf (host ++ (optional colon port ++ (slash :: x ++ sp :: version))) := by
    cases port with
    | none =>
      exact h.cons (behind.mono (List.suffix_cons slash _).isInfix) (by decide) (by decide)
    | some y =>
      refine h.cons ((t y rfl).cons ?_ (by decide) (by decide)) (by decide) (by decide)
      exact behind.mono (List.suffix_cons slash _).isInfix
  have address : NoCrlf (slash :: slash ::
      (host ++ (optional colon port ++ (slash :: x ++ sp :: version)))) :=
    noCrlf_nil.cons (noCrlf_nil.cons authority (by decide) (by decide)) (by decide) (by decide)
  exact m.cons (s.cons address (by decide) (by decide)) (by decide) (by decide)

theorem nul_render {f : Fields} {hs : List (Text × Text)} (nul : 0 ∉ renderLine f)
    (clean : ∀ h ∈ hs, 0 ∉ h.1 ∧ 0 ∉ h.2) : 0 ∉ render f hs := by
  have ends : (0 : UInt8) ∉ crlf := by decide
  have headers : (0 : UInt8) ∉ hs.flatMap renderHeader := by
    rw [List.mem_flatMap]
    rintro ⟨h, mem, inside⟩
    simp only [renderHeader, List.mem_append, List.mem_cons, clean h mem, ends, or_false,
      false_or] at inside
    exact absurd inside (by decide)
  simp [render, nul, headers, ends]

theorem expandAll_of_noCrlf {hs : List (Text × Text)} (lines : ∀ h ∈ hs, NoCrlf h.1) :
    expandAll hs = hs := by
  induction hs with
  | nil => rfl
  | cons h rest ih =>
    have line := lines h (List.mem_cons_self ..)
    have single : ¬ crlf ++ crlf <:+: h.1 := fun blank =>
      line ((List.prefix_append crlf crlf).isInfix.trans blank)
    rw [expandAll, expand, suffixKeys_of_noCrlf line, if_neg single,
      ih fun h' mem => lines h' (List.mem_cons_of_mem _ mem)]
    rfl

/-- A decimal number. -/
def IsDecimal (t : Text) : Prop := t ≠ [] ∧ ∀ c ∈ t, isDigit c = true

theorem IsDecimal.not_mem {t : Text} (decimal : IsDecimal t) {c : UInt8} (other : isDigit c = false) :
    c ∉ t := by
  intro mem
  rw [decimal.2 c mem] at other
  cases other

/-- The parser accepts every request of its grammar and reads it correctly. -/
theorem parse_request {method scheme host path version : Text} {port : Option Text}
    {headers : List (Text × Text)} {errno : ℕ} (fresh : Option ℕ)
    (hmethod : method ≠ [] ∧ sp ∉ method)
    (hscheme : scheme ≠ [] ∧ ∀ c ∈ scheme, c ≠ colon ∧ c ≠ slash ∧ c ≠ sp)
    (hhost : host ≠ [] ∧ ∀ c ∈ host, c ≠ colon ∧ c ≠ slash ∧ c ≠ sp)
    (hport : ∀ t ∈ port, IsDecimal t)
    (hpath : ∃ x, path = slash :: x ∧ sp ∉ x ∧ ¬ [slash] <+: x)
    (hversion : httpSlash <+: version)
    (keys : ∀ h ∈ headers, colon ∉ h.1)
    (clean : ∀ t ∈ [method, scheme, host, path, version] ++ headers.flatMap (fun h => [h.1, h.2]),
      0 ∉ t ∧ NoCrlf t)
    (size : (render ⟨method, scheme, host, port, path, version⟩ headers).length ≤ 65535)
    (clear : errno ≠ eINVAL) :
    ∃ pr, (ParsedRequest.create fresh).parse errno
        (render ⟨method, scheme, host, port, path, version⟩ headers) = .ok (0, pr) ∧
      pr.fields = .ok ⟨method, scheme, host, port, path, version⟩ ∧
      ∀ key, (pr.headers.get key).map ParsedHeader.value =
        (headers.reverse.find? (·.1 = key)).map Prod.snd := by
  have fieldsClean : ∀ t ∈ fieldTexts ⟨method, scheme, host, port, path, version⟩,
      0 ∉ t ∧ NoCrlf t := by
    intro t mem
    cases List.mem_append.1 mem with
    | inl given => exact clean t (List.mem_append_left _ given)
    | inr inPort =>
      have decimal := hport t (Option.mem_toList.1 inPort)
      exact ⟨decimal.not_mem rfl, fun h => decimal.not_mem (c := 13) rfl
        (h.subset (by simp [crlf]))⟩
  have pairClean : ∀ h ∈ headers, (0 ∉ h.1 ∧ NoCrlf h.1) ∧ 0 ∉ h.2 ∧ NoCrlf h.2 := by
    intro h mem
    have inside : ∀ t ∈ [h.1, h.2], 0 ∉ t ∧ NoCrlf t := fun t ht =>
      clean t (List.mem_append_right _ (List.mem_flatMap.2 ⟨h, mem, ht⟩))
    exact ⟨inside h.1 (by simp), inside h.2 (by simp)⟩
  have nul := nul_renderLine fun t mem => (fieldsClean t mem).1
  have line : NoCrlf (renderLine ⟨method, scheme, host, port, path, version⟩) := by
    obtain ⟨x, absolute, -, -⟩ := hpath
    exact noCrlf_renderLine (fun t mem => (fieldsClean t mem).2) ⟨x, absolute⟩
  have wf : Wellformed ⟨method, scheme, host, port, path, version⟩ := by
    refine ⟨hmethod.1, hmethod.2, hscheme.1, hscheme.2, hhost.1, hhost.2, fun t mem => ?_, hpath,
      hversion, nul⟩
    refine ⟨(hport t mem).1, fun c hc => ⟨?_, ?_⟩⟩
    · rintro rfl
      exact (hport t mem).not_mem rfl hc
    · rintro rfl
      exact (hport t mem).not_mem rfl hc
  have printable : ∀ h ∈ headers, Printable h := fun h mem =>
    ⟨keys h mem, fun begins => (pairClean h mem).1.2 begins.isInfix, (pairClean h mem).2.2⟩
  obtain ⟨pr, parsed, fields, held⟩ := parse_render wf line printable
    (nul_render nul fun h mem => ⟨(pairClean h mem).1.1, (pairClean h mem).2.1⟩) size clear fresh
  rw [expandAll_of_noCrlf fun h mem => (pairClean h mem).1.2] at held
  refine ⟨pr, parsed, fields, fun key => ?_⟩
  rw [held, Headers.get_setAll]

/-- `GET http://a:80/ HTTP/1.0` with the headers `K: v` and `K: `, which ends in a lone CR. -/
theorem parse_request_twice :
    ∃ pr, (ParsedRequest.create none).parse 0 (render ⟨[71, 69, 84], [104, 116, 116, 112], [97],
        some [56, 48], [slash], httpSlash ++ [49, 46, 48]⟩ [([75], [118]), ([75], [13])]) =
        .ok (0, pr) ∧
      pr.fields = .ok ⟨[71, 69, 84], [104, 116, 116, 112], [97], some [56, 48], [slash],
        httpSlash ++ [49, 46, 48]⟩ ∧
      (pr.headers.get [75]).map ParsedHeader.value = some [13] := by
  obtain ⟨pr, parsed, fields, get⟩ := @parse_request [71, 69, 84] [104, 116, 116, 112] [97] [slash]
    (httpSlash ++ [49, 46, 48]) (some [56, 48]) [([75], [118]), ([75], [13])] 0 none (by decide)
    (by simp [colon, slash, sp]) (by simp [colon, slash, sp]) (by simp [IsDecimal, isDigit])
    ⟨[], rfl, by decide, by decide⟩ (by decide) (by decide) (by decide) (by decide) (by decide)
  exact ⟨pr, parsed, fields, get [75]⟩

end ComputerNetwork.Http
