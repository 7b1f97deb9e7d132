import ComputerNetwork.Http.MessageHead
import ComputerNetwork.Http.Stable

/-!
# The request that the proxy forwards

`handle_client` of `proxy.c`, from the buffer it has received to the arguments of the `send` to the
origin server: the request is parsed, its version and two of its headers are rewritten, and it is
printed into a block of `ParsedRequest_totalLen` bytes.  The debug output, and the cutting up of
`buffer` that only it uses, are left out; so are the calls that connect to the server, which do not
touch the block.
-/

namespace ComputerNetwork.Http

open Lib

/-! ## The code -/

/-- `"GET"`. -/
def getMethod : Text := [71, 69, 84]

/-- `"HTTP/1.0"`. -/
def http10 : Text := [72, 84, 84, 80, 47, 49, 46, 48]

/-- `"HTTP/1.1"`. -/
def http11 : Text := [72, 84, 84, 80, 47, 49, 46, 49]

/-- `"Connection"`. -/
def connectionKey : Text := [67, 111, 110, 110, 101, 99, 116, 105, 111, 110]

/-- `"close"`. -/
def closeValue : Text := [99, 108, 111, 115, 101]

/-- `"Host"`. -/
def hostKey : Text := [72, 111, 115, 116]

/-- `malloc(size)`, whose bytes are not set. -/
def malloc (unset : ℕ → UInt8) (size : ℕ) : List UInt8 := (List.range size).map unset

namespace ParsedRequest

/-- `parsedRequest->version = strdup(version)`; the copy stands behind the text of the object. -/
def setVersion (pr : ParsedRequest) (version : Text) : ParsedRequest :=
  { pr with
    buf := pr.buf.map fun buf => buf ++ (version ++ [0])
    version := pr.buf.map List.length }

/-- The part of `handle_client` that modifies the request. -/
def rewrite (pr : ParsedRequest) : Except Undefined ParsedRequest := do
  let host ← pr.text pr.host
  let pr := if (← pr.text pr.version) = http11 then pr.setVersion http10 else pr
  let headers := pr.headers.set connectionKey closeValue
  return { pr with headers := headers.set hostKey host }

end ParsedRequest

/-- What `handle_client` sends on: an answer of its own, or the request to the origin server. -/
inductive Reply where
  | badRequest
  | notImplemented
  | internalServerError
  | forward (request : List UInt8)
  deriving DecidableEq

/-- `handle_client` for a buffer that it has received.  The bytes `behind` follow the block of
`new_request` in memory, as far as memory can be read there. -/
def handleClient (port : Option ℕ) (errno : ℕ) (unset : ℕ → UInt8) (behind buffer : List UInt8) :
    Except Undefined Reply := do
  let (ret, pr) ← (ParsedRequest.create port).parse errno buffer
  if ret < 0 then return .badRequest
  if (← pr.text pr.method) ≠ getMethod then return .notImplemented
  let pr ← pr.rewrite
  let totalLen ← pr.totalLen
  let (ret, newRequest) ← pr.unparse (malloc unset totalLen)
  if ret < 0 then return .internalServerError
  let memory := newRequest ++ behind
  return .forward (memory.take (← strlen memory 0))

/-! ## What is printed -/

/-- The fields of the request after the rewriting. -/
def rewriteFields (f : ParsedRequest.Fields) : ParsedRequest.Fields :=
  { f with version := if f.version = http11 then http10 else f.version }

/-- The headers of the request after the rewriting, for a request with the headers `ps`. -/
def rewriteHeaders (host : Text) (ps : List (Text × Text)) : List (Text × Text) :=
  keepLast (ps ++ [(connectionKey, closeValue), (hostKey, host)])

section Rewrite

variable {pr : ParsedRequest} {f : ParsedRequest.Fields} {t v : Text}

theorem text_setVersion_old {field : Option ℕ} (read : pr.text field = .ok t) :
    (pr.setVersion v).text field = .ok t := by
  unfold ParsedRequest.text at read ⊢
  rcases buf : pr.buf with _ | b
  · rw [buf] at read
    cases read
  · cases field with
    | none =>
      rw [buf] at read
      cases read
    | some p =>
      rw [buf] at read
      simp only [ParsedRequest.setVersion, buf, Option.map_some]
      exact cstr_extend read _

theorem text_setVersion (assigned : pr.buf ≠ none) (nul : 0 ∉ v) :
    (pr.setVersion v).text (pr.setVersion v).version = .ok v := by
  obtain ⟨b, buf⟩ := Option.ne_none_iff_exists'.1 assigned
  simp only [ParsedRequest.text, ParsedRequest.setVersion, buf, Option.map_some]
  exact cstr_append nul

theorem fields_setVersion (assigned : pr.buf ≠ none) (shown : pr.fields = .ok f) (nul : 0 ∉ v) :
    (pr.setVersion v).fields = .ok { f with version := v } := by
  obtain ⟨tm, tp, th, -, path, port⟩ := of_fields shown
  have port' : (pr.setVersion v).portText = .ok f.port := by
    unfold ParsedRequest.portText at port ⊢
    rcases field : pr.port with _ | p
    · rw [field] at port
      simpa only [ParsedRequest.setVersion, field] using port
    · rw [field] at port
      obtain ⟨t, read, eq⟩ := bind_eq_ok.1 port
      simp only [ParsedRequest.setVersion, field]
      exact bind_eq_ok.2 ⟨t, text_setVersion_old read, eq⟩
  have path' : (pr.setVersion v).path = some f.path := path
  simp only [ParsedRequest.fields, port', path', bind, Except.bind, text_setVersion assigned nul]
  have method : (pr.setVersion v).text (pr.setVersion v).method = .ok f.method :=
    text_setVersion_old tm
  have protocol : (pr.setVersion v).text (pr.setVersion v).protocol = .ok f.protocol :=
    text_setVersion_old tp
  have host : (pr.setVersion v).text (pr.setVersion v).host = .ok f.host := text_setVersion_old th
  simp only [method, protocol, host, pure, Except.pure]

theorem rewrite_eq {ps : List (Text × Text)} (assigned : pr.buf ≠ none) (shown : pr.fields = .ok f)
    (headers : pr.headers = Headers.create.setAll ps) :
    ∃ pr', pr.rewrite = .ok pr' ∧ pr'.buf ≠ none ∧ pr'.fields = .ok (rewriteFields f) ∧
      pr'.headers.live = rewriteHeaders f.host ps := by
  obtain ⟨-, -, host, version, -, -⟩ := of_fields shown
  have live : ((pr.headers.set connectionKey closeValue).set hostKey f.host).live =
      rewriteHeaders f.host ps := by
    rw [rewriteHeaders, ← Headers.live_setAll, Headers.setAll, List.foldl_append, headers]
    rfl
  by_cases old : f.version = http11
  · refine ⟨{ pr.setVersion http10 with
      headers := (pr.headers.set connectionKey closeValue).set hostKey f.host }, ?_, ?_, ?_, live⟩
    · simp only [ParsedRequest.rewrite, host, version, old, bind, Except.bind, pure, Except.pure,
        if_true]
      rfl
    · simpa [ParsedRequest.setVersion] using assigned
    · rw [rewriteFields, if_pos old]
      exact fields_setVersion assigned shown (by decide)
  · refine ⟨{ pr with
      headers := (pr.headers.set connectionKey closeValue).set hostKey f.host }, ?_, assigned, ?_,
      live⟩
    · simp only [ParsedRequest.rewrite, host, version, old, bind, Except.bind, pure, Except.pure,
        if_false]
    · rw [rewriteFields, if_neg old]
      exact shown

theorem nul_rewriteLine (nul : 0 ∉ renderLine f) : 0 ∉ renderLine (rewriteFields f) := by
  have ten : (0 : UInt8) ∉ http10 := by decide
  by_cases old : f.version = http11
  · simp only [renderLine, rewriteFields, if_pos old, List.mem_append, List.mem_cons, not_or] at nul ⊢
    obtain ⟨m, s, p, c, sl, sl', h, o, x, s', -⟩ := nul
    exact ⟨m, s, p, c, sl, sl', h, o, x, s', ten⟩
  · rwa [rewriteFields, if_neg old]

theorem nul_rewriteHeaders {ps : List (Text × Text)} {host : Text}
    (clean : ∀ h ∈ ps, 0 ∉ h.1 ∧ 0 ∉ h.2) (nul : 0 ∉ host) :
    ∀ h ∈ rewriteHeaders host ps, 0 ∉ h.1 ∧ 0 ∉ h.2 := by
  intro h mem
  cases List.mem_append.1 (mem_of_mem_keepLast mem) with
  | inl mem => exact clean h mem
  | inr mem =>
    rcases List.mem_cons.1 mem with rfl | mem
    · exact ⟨by decide, by decide⟩
    · rw [List.mem_singleton.1 mem]
      exact ⟨(by decide : (0 : UInt8) ∉ hostKey), nul⟩

/-- The request that `handle_client` prints fills the block that `malloc` has returned. -/
theorem printed_eq {ps : List (Text × Text)} (assigned : pr.buf ≠ none) (shown : pr.fields = .ok f)
    (headers : pr.headers = Headers.create.setAll ps) (unset : ℕ → UInt8) :
    ∃ pr', pr.rewrite = .ok pr' ∧
      pr'.totalLen = .ok (render (rewriteFields f) (rewriteHeaders f.host ps)).length ∧
      pr'.unparse (malloc unset (render (rewriteFields f) (rewriteHeaders f.host ps)).length) =
        .ok (0, render (rewriteFields f) (rewriteHeaders f.host ps)) := by
  obtain ⟨pr', rewritten, assigned', fields', live⟩ := rewrite_eq assigned shown headers
  have size : (malloc unset (render (rewriteFields f) pr'.headers.live).length).length =
      (render (rewriteFields f) pr'.headers.live).length := by
    rw [malloc, List.length_map, List.length_range]
  refine ⟨pr', rewritten, ?_, ?_⟩
  · rw [← live]
    exact totalLen_eq assigned' fields'
  · rw [← live, unparse_eq assigned' fields' size.ge, List.drop_eq_nil_of_le size.le,
      List.append_nil]

end Rewrite

theorem printed_of_parse {port : Option ℕ} {errno : ℕ} {buf : Text} {pr : ParsedRequest}
    (accepted : (ParsedRequest.create port).parse errno buf = .ok (0, pr)) (unset : ℕ → UInt8) :
    ∃ pr' text, pr.rewrite = .ok pr' ∧ pr'.totalLen = .ok text.length ∧
      pr'.unparse (malloc unset text.length) = .ok (0, text) ∧ 0 ∉ text := by
  obtain ⟨q, ls, tail, ps, -, line, -, ok, run, assigned, fields, headers⟩ := of_parse rfl accepted
  have wf := wellformed_fields ok
  have host : 0 ∉ q.fields.host := by
    have nul := wf.nul
    simp only [renderLine, List.mem_append, List.mem_cons, not_or] at nul
    exact nul.2.2.2.2.2.2.1
  obtain ⟨pr', rewritten, totalLen, unparse⟩ := printed_eq assigned fields headers unset
  exact ⟨pr', _, rewritten, totalLen, unparse, nul_render (nul_rewriteLine wf.nul)
    (nul_rewriteHeaders (fun h mem => (run.printable h mem).2) host)⟩

theorem strlen_behind {text behind : List UInt8} (nul : 0 ∉ text) :
    strlen (text ++ behind) 0 = if 0 ∈ behind then
      .ok (text ++ behind.takeWhile (· ≠ 0)).length else .error .outOfBounds := by
  by_cases ends : 0 ∈ behind
  · have string : cstr (text ++ behind) 0 = .ok (text ++ behind.takeWhile (· ≠ 0)) :=
      cstr_append_of_mem (u := []) nul ends
    rw [if_pos ends, strlen, string]
    rfl
  · have none : 0 ∉ text ++ behind := fun mem => (List.mem_append.1 mem).elim nul ends
    rw [if_neg ends, strlen, cstr, List.drop_zero, if_neg none]
    rfl

/-- The length of the request is measured with `strlen`, and the block has no room for a NUL. -/
theorem handleClient_get {port : Option ℕ} {errno : ℕ} {buf : Text} {pr : ParsedRequest}
    (accepted : (ParsedRequest.create port).parse errno buf = .ok (0, pr))
    (method : pr.text pr.method = .ok getMethod) (unset : ℕ → UInt8) :
    ∃ pr' text, pr.rewrite = .ok pr' ∧ pr'.totalLen = .ok text.length ∧
      pr'.unparse (malloc unset text.length) = .ok (0, text) ∧ ∀ behind,
        handleClient port errno unset behind buf = if 0 ∈ behind then
          .ok (.forward (text ++ behind.takeWhile (· ≠ 0))) else .error .outOfBounds := by
  obtain ⟨pr', text, rewritten, totalLen, unparse, nul⟩ := printed_of_parse accepted unset
  refine ⟨pr', text, rewritten, totalLen, unparse, fun behind => ?_⟩
  simp only [handleClient, accepted, method, rewritten, totalLen, unparse, strlen_behind nul, bind,
    Except.bind, lt_irrefl, if_false, ne_eq, not_true_eq_false]
  by_cases ends : 0 ∈ behind
  · have front : text ++ behind.takeWhile (· ≠ 0) <+: text ++ behind :=
      (List.prefix_append_right_inj text).2 (List.takeWhile_prefix _)
    simp only [if_pos ends, pure, Except.pure]
    rw [← List.prefix_iff_eq_take.1 front]
  · simp only [if_neg ends]

/-! ## What the origin server reads -/

/-- The header lines other than `Connection` and `Host`. -/
def otherLines (ls : List Text) : List Text :=
  ls.filter fun l => ¬ Named connectionKey l ∧ ¬ Named hostKey l

/-- The header lines that the proxy is to send to `host` for those of the client. -/
structure LinesRewritten (client : List Text) (host : Text) (sent : List Text) : Prop where
  connection : ∃ l, sent.filter (Named connectionKey ·) = [l] ∧ headerValue l = closeValue
  host : ∃ l, sent.filter (Named hostKey ·) = [l] ∧ headerValue l = host
  others : otherLines sent = otherLines client

/-- The head that the proxy is to send for the request `client` to `host`. -/
structure HeadRewritten (client host sent : Text) : Prop where
  version : requestVersion sent = http10
  headers : LinesRewritten (headerLines client) host (headerLines sent)

/-- `handle_client` passes on what `ParsedRequest_unparse` has written for the parsed request `pr`,
and that is the head it is to send. -/
def Forwarded (port : Option ℕ) (errno : ℕ) (unset : ℕ → UInt8) (behind buf : Text)
    (pr : ParsedRequest) : Prop :=
  ∃ pr' n sent host, pr.rewrite = .ok pr' ∧ pr'.totalLen = .ok n ∧
    pr'.unparse (malloc unset n) = .ok (0, sent) ∧
    handleClient port errno unset behind buf = .ok (.forward sent) ∧
    pr.text pr.host = .ok host ∧ HeadRewritten buf host sent

/-- Every request with method GET that is accepted is forwarded, whatever stands in memory. -/
def ForwardsAll : Prop :=
  ∀ port errno unset behind buf pr, (ParsedRequest.create port).parse errno buf = .ok (0, pr) →
    pr.text pr.method = .ok getMethod → Forwarded port errno unset behind buf pr

/-- The request is forwarded if a NUL happens to follow its block and the text is right. -/
theorem forwarded_iff_head {port : Option ℕ} {errno : ℕ} {unset : ℕ → UInt8} {buf text host : Text}
    {pr pr' : ParsedRequest} (accepted : (ParsedRequest.create port).parse errno buf = .ok (0, pr))
    (method : pr.text pr.method = .ok getMethod) (rewritten : pr.rewrite = .ok pr')
    (totalLen : pr'.totalLen = .ok text.length)
    (unparse : pr'.unparse (malloc unset text.length) = .ok (0, text))
    (toHost : pr.text pr.host = .ok host) (behind : Text) :
    Forwarded port errno unset behind buf pr ↔
      behind.head? = some 0 ∧ HeadRewritten buf host text := by
  obtain ⟨pr₁, text₁, rewritten₁, totalLen₁, unparse₁, run⟩ := handleClient_get accepted method unset
  obtain rfl := Except.ok.inj (rewritten.symm.trans rewritten₁)
  rw [← Except.ok.inj (totalLen.symm.trans totalLen₁), unparse] at unparse₁
  obtain rfl := (Prod.mk.inj (Except.ok.inj unparse₁)).2
  constructor
  · rintro ⟨pr₂, n, sent, host₂, rewritten₂, totalLen₂, unparse₂, forward, toHost₂, head⟩
    obtain rfl := Except.ok.inj (rewritten.symm.trans rewritten₂)
    obtain rfl := Except.ok.inj (totalLen.symm.trans totalLen₂)
    obtain rfl := (Prod.mk.inj (Except.ok.inj (unparse.symm.trans unparse₂))).2
    obtain rfl := Except.ok.inj (toHost.symm.trans toHost₂)
    refine ⟨?_, head⟩
    rw [run] at forward
    split_ifs at forward with ends
    have more := List.append_right_eq_self.1 (Reply.forward.inj (Except.ok.inj forward))
    obtain ⟨c, rest, rfl⟩ := List.exists_cons_of_ne_nil (List.ne_nil_of_mem ends)
    by_contra other
    rw [List.takeWhile_cons_of_pos (by simpa using other)] at more
    cases more
  · rintro ⟨nul, head⟩
    obtain ⟨rest, rfl⟩ := List.head?_eq_some_iff.1 nul
    refine ⟨pr', _, text, host, rewritten, totalLen, unparse, ?_, toHost, head⟩
    rw [run, if_pos (List.mem_cons_self ..), List.takeWhile_cons_of_neg (by simp), List.append_nil]

/-- `GET http://h/ HTTP/1.1` with the header `Host: h`. -/
def getRequest : Text :=
  [71, 69, 84, 32, 104, 116, 116, 112, 58, 47, 47, 104, 47, 32, 72, 84, 84, 80, 47, 49, 46, 49, 13, 10,
    72, 111, 115, 116, 58, 32, 104, 13, 10, 13, 10]

/-- The object that `ParsedRequest_parse` makes of it. -/
def parsedGetRequest : ParsedRequest where
  method := some 0
  protocol := some 4
  host := some 11
  port := none
  path := some [slash]
  version := some 14
  buf := some [71, 69, 84, 0, 104, 116, 116, 112, 0, 47, 47, 104, 0, 0, 72, 84, 84, 80, 47, 49, 46, 49,
    0]
  headers := ⟨[⟨some hostKey, [104]⟩], 8, by decide⟩

theorem parse_getRequest :
    (ParsedRequest.create none).parse 0 getRequest = .ok (0, parsedGetRequest) := by
  decide +kernel

theorem method_getRequest : parsedGetRequest.text parsedGetRequest.method = .ok getMethod := by
  decide +kernel

end ComputerNetwork.Http
