import ComputerNetwork.Http.HandleClient
import ComputerNetwork.Http.HeaderMap

/-!
# Lengths and printing

`ParsedRequest_unparse` and `ParsedRequest_unparse_headers` as they work on a memory that goes on
behind the buffer, with the length of the buffer as an argument of its own and the `int` in which
`ParsedHeader_headersLen` adds up.  For requests shorter than `2 ^ 31` bytes what is printed has exactly
the length that is computed (`lengths_agree`), and nothing is stored behind the buffer.
-/

namespace ComputerNetwork.Http

open Lib

/-! ## The code -/

/-- Conversion to a 32-bit `int`. -/
def toInt (n : ℤ) : ℤ := if n % 2 ^ 32 < 2 ^ 31 then n % 2 ^ 32 else n % 2 ^ 32 - 2 ^ 32

/-- `ParsedHeader_lineLen`. -/
def ParsedHeader.lineLen (h : ParsedHeader) : ℕ :=
  match h.key with
  | some key => key.length + h.value.length + 4
  | none => 0

namespace ParsedRequest

/-- The loop of `ParsedHeader_headersLen`. -/
def sumLineLens (len : ℤ) (slots : List ParsedHeader) : ℤ :=
  slots.foldl (fun len h => toInt (toSize len + h.lineLen)) len

/-- `ParsedHeader_headersLen`. -/
def headersLenInt (pr : ParsedRequest) : ℕ :=
  if pr.buf = none then 0 else toSize (toInt (sumLineLens 0 pr.headers.slots + 2))

/-- `ParsedRequest_totalLen`. -/
def totalLenInt (pr : ParsedRequest) : Except Undefined ℕ := do
  if pr.buf = none then return 0
  return (← pr.requestLineLen) + pr.headersLenInt

/-- The turn of the loop of `ParsedHeader_printHeaders` for one slot. -/
def printHeader (out : List UInt8 × ℕ) (h : ParsedHeader) : List UInt8 × ℕ :=
  match h.key with
  | some key => [key, [colon, sp], h.value, crlf].foldl copyPiece out
  | none => out

/-- `ParsedHeader_printHeaders` to `current` in the memory `mem`. -/
def printHeadersTo (pr : ParsedRequest) (mem : List UInt8) (current len : ℕ) : ℤ × List UInt8 :=
  if len < pr.headersLenInt then (-1, mem)
  else (0, (copyPiece (pr.headers.slots.foldl printHeader (mem, current)) crlf).1)

/-- `ParsedRequest_printRequestLine`. -/
def printRequestLineTo (pr : ParsedRequest) (mem : List UInt8) (buflen : ℕ) :
    Except Undefined (ℤ × List UInt8 × ℕ) := do
  if buflen < (← pr.requestLineLen) then return (-1, mem, 0)
  return (0, (← pr.requestLinePieces).foldl copyPiece (mem, 0))

/-- `ParsedRequest_unparse` to the start of the memory `mem`. -/
def unparseTo (pr : ParsedRequest) (mem : List UInt8) (buflen : ℕ) :
    Except Undefined (ℤ × List UInt8) := do
  if pr.buf = none then return (-1, mem)
  let (ret, mem, tmp) ← pr.printRequestLineTo mem buflen
  if ret < 0 then return (-1, mem)
  let (ret, mem) := pr.printHeadersTo mem tmp (buflen - tmp)
  if ret < 0 then return (-1, mem)
  return (0, mem)

/-- `ParsedRequest_unparse_headers`. -/
def unparseHeadersTo (pr : ParsedRequest) (mem : List UInt8) (buflen : ℕ) :
    Except Undefined (ℤ × List UInt8) := do
  if pr.buf = none then return (-1, mem)
  let (ret, mem) := pr.printHeadersTo mem 0 buflen
  if ret < 0 then return (-1, mem)
  return (0, mem)

end ParsedRequest

/-- A function that prints to a buffer succeeds where `total` bytes fit, prints the same bytes to any
buffer and stores nothing behind it. -/
def Prints (print : List UInt8 → ℕ → Except Undefined (ℤ × List UInt8)) (total : ℕ) : Prop :=
  ∃ text : Text, text.length = total ∧ ∀ mem n, n ≤ mem.length →
    if total ≤ n then print mem n = .ok (0, text ++ mem.drop total)
    else ∃ mem', print mem n = .ok (-1, mem') ∧ mem'.length = mem.length ∧ mem'.drop n = mem.drop n

/-- The lengths that are computed for a request are those that are printed. -/
structure LengthsAgree (pr : ParsedRequest) : Prop where
  total : ∃ total, pr.totalLenInt = .ok total ∧ Prints pr.unparseTo total
  headers : Prints pr.unparseHeadersTo pr.headersLenInt

/-! ## The lengths -/

section Lengths

variable {pr : ParsedRequest} {f : ParsedRequest.Fields} {mem : List UInt8} {n current : ℕ}

theorem toInt_of_lt (small : n < 2 ^ 31) : toInt n = n := by
  unfold toInt
  omega

theorem sumLineLens_eq (slots : List ParsedHeader) (len : ℕ)
    (small : len + (slots.map ParsedHeader.lineLen).sum < 2 ^ 31) :
    ParsedRequest.sumLineLens len slots = (len + (slots.map ParsedHeader.lineLen).sum : ℕ) := by
  induction slots generalizing len with
  | nil => rfl
  | cons h rest ih =>
    rw [List.map_cons, List.sum_cons] at small ⊢
    have next : toInt (toSize len + h.lineLen) = (len + h.lineLen : ℕ) := by
      rw [toSize_natCast (by omega), ← Nat.cast_add, toInt_of_lt (by omega)]
    have later := ih (len + h.lineLen) (by omega)
    rw [ParsedRequest.sumLineLens, List.foldl_cons, next, ← Nat.add_assoc]
    exact later

theorem sum_lineLens (hs : Headers) :
    (hs.slots.map ParsedHeader.lineLen).sum =
      (hs.live.map fun h => h.1.length + h.2.length + 4).sum := by
  unfold Headers.live
  induction hs.slots with
  | nil => rfl
  | cons h rest ih =>
    cases key : h.key with
    | none =>
      rw [List.filterMap_cons_none (by rw [ParsedHeader.pair, key]; rfl), List.map_cons, List.sum_cons,
        ih, ParsedHeader.lineLen, key, Nat.zero_add]
    | some k =>
      rw [List.filterMap_cons_some (by rw [ParsedHeader.pair, key]; rfl), List.map_cons, List.map_cons,
        List.sum_cons, List.sum_cons, ih, ParsedHeader.lineLen, key]

theorem headersLenInt_eq (small : pr.headersLen < 2 ^ 31) : pr.headersLenInt = pr.headersLen := by
  unfold ParsedRequest.headersLenInt
  unfold ParsedRequest.headersLen at small ⊢
  split_ifs at small ⊢ with none_
  · rfl
  · rw [← sum_lineLens] at small ⊢
    have sum := sumLineLens_eq pr.headers.slots 0 (by omega)
    rw [Nat.cast_zero, Nat.zero_add] at sum
    rw [sum, show ((pr.headers.slots.map ParsedHeader.lineLen).sum : ℤ) + 2 =
      ((pr.headers.slots.map ParsedHeader.lineLen).sum + 2 : ℕ) by push_cast; rfl,
      toInt_of_lt small, toSize_natCast (by omega)]

/-! ## Printing -/

theorem foldl_printHeader (hs : Headers) (out : List UInt8 × ℕ) :
    hs.slots.foldl ParsedRequest.printHeader out =
      hs.live.foldl (fun out h => [h.1, [colon, sp], h.2, crlf].foldl ParsedRequest.copyPiece out)
        out := by
  rw [Headers.live, List.foldl_filterMap]
  refine congrArg (fun f => hs.slots.foldl f out) (funext fun out => funext fun h => ?_)
  cases key : h.key <;> simp [ParsedRequest.printHeader, ParsedHeader.pair, key]

theorem printHeadersTo_eq (len : pr.headersLenInt = (pr.headers.live.flatMap renderHeader ++ crlf).length)
    (inside : current + n ≤ mem.length) :
    pr.printHeadersTo mem current n = if pr.headersLenInt ≤ n then
      (0, splice mem current (pr.headers.live.flatMap renderHeader ++ crlf)) else (-1, mem) := by
  unfold ParsedRequest.printHeadersTo
  by_cases fits : pr.headersLenInt ≤ n
  · rw [if_neg (by omega), if_pos fits, foldl_printHeader, foldl_headers _ (by omega)]
  · rw [if_pos (by omega), if_neg fits]

theorem printRequestLineTo_eq (assigned : pr.buf ≠ none) (shown : pr.fields = .ok f)
    (inside : n ≤ mem.length) :
    pr.printRequestLineTo mem n = if (renderLine f ++ crlf).length ≤ n then
      .ok (0, splice mem 0 (renderLine f ++ crlf), (renderLine f ++ crlf).length)
      else .ok (-1, mem, 0) := by
  obtain ⟨pieces, copied, flat⟩ := requestLinePieces_eq shown
  simp only [ParsedRequest.printRequestLineTo, requestLineLen_eq assigned shown, copied, bind,
    Except.bind, pure, Except.pure]
  by_cases fits : (renderLine f ++ crlf).length ≤ n
  · rw [if_neg (by omega), if_pos fits, foldl_copyPiece pieces mem 0 (by rw [flat]; omega), flat,
      Nat.zero_add]
  · rw [if_pos (by omega), if_neg fits]

theorem unparseHeadersTo_prints (assigned : pr.buf ≠ none) (small : pr.headersLen < 2 ^ 31) :
    Prints pr.unparseHeadersTo pr.headersLenInt := by
  have len := (headersLenInt_eq small).trans (headersLen_eq assigned)
  refine ⟨pr.headers.live.flatMap renderHeader ++ crlf, len.symm, fun mem n inside => ?_⟩
  simp only [ParsedRequest.unparseHeadersTo, if_neg assigned,
    printHeadersTo_eq len (show 0 + n ≤ mem.length by omega)]
  by_cases fits : pr.headersLenInt ≤ n
  · rw [if_pos fits, if_pos fits, splice, List.take_zero, List.nil_append, Nat.zero_add, ← len]
    rfl
  · rw [if_neg fits, if_neg fits]
    exact ⟨mem, rfl, rfl, rfl⟩

theorem unparseTo_prints (assigned : pr.buf ≠ none) (shown : pr.fields = .ok f)
    (small : pr.headersLen < 2 ^ 31) :
    Prints pr.unparseTo ((renderLine f ++ crlf).length + pr.headersLenInt) := by
  have len := (headersLenInt_eq small).trans (headersLen_eq assigned)
  refine ⟨(renderLine f ++ crlf) ++ (pr.headers.live.flatMap renderHeader ++ crlf), by
    rw [List.length_append, len], fun mem n inside => ?_⟩
  simp only [ParsedRequest.unparseTo, if_neg assigned, printRequestLineTo_eq assigned shown inside]
  by_cases first : (renderLine f ++ crlf).length ≤ n
  · have size : (splice mem 0 (renderLine f ++ crlf)).length = mem.length :=
      length_splice (by omega)
    have second := printHeadersTo_eq len (show (renderLine f ++ crlf).length +
      (n - (renderLine f ++ crlf).length) ≤ (splice mem 0 (renderLine f ++ crlf)).length by omega)
    rw [if_pos first]
    by_cases fits : (renderLine f ++ crlf).length + pr.headersLenInt ≤ n
    · have joined := splice_append (b := mem) (i := 0)
        (pr.headers.live.flatMap renderHeader ++ crlf) (a := renderLine f ++ crlf) (by omega)
      have whole : splice mem 0 ((renderLine f ++ crlf) ++
          (pr.headers.live.flatMap renderHeader ++ crlf)) = (renderLine f ++ crlf) ++
            (pr.headers.live.flatMap renderHeader ++ crlf) ++
              mem.drop ((renderLine f ++ crlf).length + pr.headersLenInt) := by
        rw [splice, List.take_zero, List.nil_append, Nat.zero_add,
          @List.length_append _ (renderLine f ++ crlf), ← len]
      rw [Nat.zero_add] at joined
      rw [if_pos (by omega), joined, whole] at second
      rw [if_pos fits]
      simp only [bind, Except.bind, second]
      rfl
    · rw [if_neg (by omega)] at second
      rw [if_neg fits]
      refine ⟨_, ?_, size, drop_splice (by omega) (Nat.zero_le _)⟩
      simp only [bind, Except.bind, second]
      rfl
  · rw [if_neg first, if_neg (by omega)]
    exact ⟨mem, rfl, rfl, rfl⟩

theorem printHeadersTo_length (small : pr.headersLen < 2 ^ 31) (mem : List UInt8) (current : ℕ) :
    pr.printHeadersTo mem current (mem.length - current) = pr.printHeaders mem current := by
  rw [ParsedRequest.printHeadersTo, ParsedRequest.printHeaders, headersLenInt_eq small,
    foldl_printHeader]

/-- `ParsedRequest_unparse` where nothing is known of the memory behind the buffer. -/
theorem unparseTo_length (assigned : pr.buf ≠ none) (shown : pr.fields = .ok f)
    (small : pr.headersLen < 2 ^ 31) (out : List UInt8) :
    pr.unparseTo out out.length = pr.unparse out := by
  have line : pr.printRequestLine out = pr.printRequestLineTo out out.length := rfl
  simp only [ParsedRequest.unparseTo, ParsedRequest.unparse, if_neg assigned, line,
    printRequestLineTo_eq assigned shown le_rfl]
  by_cases first : (renderLine f ++ crlf).length ≤ out.length
  · have size : (splice out 0 (renderLine f ++ crlf)).length = out.length :=
      length_splice (by omega)
    have second := printHeadersTo_length small (splice out 0 (renderLine f ++ crlf))
      (renderLine f ++ crlf).length
    rw [size] at second
    rw [if_pos first]
    simp only [bind, Except.bind, second, ParsedRequest.printHeaders]
    by_cases short : (splice out 0 (renderLine f ++ crlf)).length - (renderLine f ++ crlf).length <
        pr.headersLen
    · simp only [if_pos short]
      rfl
    · simp only [if_neg short]
      rfl
  · rw [if_neg first]
    rfl

end Lengths

/-! ## Requests with edited headers -/

/-- A parsed request after calls of `ParsedHeader_set` and `ParsedHeader_remove`. -/
def ParsedRequest.editHeaders (pr : ParsedRequest) (edits : List (Edit Text Text)) : ParsedRequest :=
  { pr with headers := pr.headers.editAll edits }

/-- For a request of less than `2 ^ 31` bytes the two traversals agree. -/
theorem lengths_agree {port : Option ℕ} {errno : ℕ} {buf : Text} {pr : ParsedRequest}
    (accepted : (ParsedRequest.create port).parse errno buf = .ok (0, pr))
    (edits : List (Edit Text Text)) :
    ∃ total, (pr.editHeaders edits).totalLen = .ok total ∧
      (total < 2 ^ 31 → LengthsAgree (pr.editHeaders edits)) := by
  obtain ⟨q, ls, tail, ps, -, -, -, -, -, assigned, shown, -⟩ := of_parse rfl accepted
  have assigned' : (pr.editHeaders edits).buf ≠ none := assigned
  have shown' : (pr.editHeaders edits).fields = .ok q.fields := shown
  have line := requestLineLen_eq assigned' shown'
  refine ⟨(renderLine q.fields ++ crlf).length + (pr.editHeaders edits).headersLen, ?_,
    fun small => ⟨⟨_, ?_, unparseTo_prints assigned' shown' (by omega)⟩,
      unparseHeadersTo_prints assigned' (by omega)⟩⟩
  · simp only [ParsedRequest.totalLen, if_neg assigned', line]
    rfl
  · simp only [ParsedRequest.totalLenInt, if_neg assigned', line]
    rfl

theorem lengths_agree_get :
    LengthsAgree (parsedGetRequest.editHeaders [.remove hostKey, .set connectionKey closeValue]) := by
  obtain ⟨total, len, agree⟩ :=
    lengths_agree parse_getRequest [.remove hostKey, .set connectionKey closeValue]
  have size : (parsedGetRequest.editHeaders [.remove hostKey, .set connectionKey closeValue]).totalLen =
      .ok 45 := by decide +kernel
  obtain rfl := Except.ok.inj (size.symm.trans len)
  exact agree (by decide)

end ComputerNetwork.Http
