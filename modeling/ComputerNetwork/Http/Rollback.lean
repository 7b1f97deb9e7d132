import ComputerNetwork.Http.Grammar

/-!
# What a failed parse leaves behind

While an object has no buffer, the pointers of its request line are not read (`view`).  A parse that
fails in the request line takes back what it stored; one that fails in the header lines keeps all of
it.  `atomic_iff` says which buffers end which way.
-/

namespace ComputerNetwork.Http

open Lib

namespace ParsedRequest

/-- What the library sees of an object. -/
def view (pr : ParsedRequest) : ParsedRequest :=
  if pr.buf = none then
    { pr with method := none, protocol := none, host := none, port := none, version := none }
  else pr

/-- Outcomes that show the same. -/
def Alike (a b : Except Undefined (ℤ × ParsedRequest)) : Prop :=
  a.map (Prod.map id view) = b.map (Prod.map id view)

/-- An object from which everything was taken back. -/
structure Restored (pr : ParsedRequest) : Prop where
  buf : pr.buf = none
  path : pr.path = none
  live : pr.headers.live = []
  unparse : ∀ out, pr.unparse out = .ok (-1, out)
  totalLen : pr.totalLen = .ok 0
  again : ∀ port errno buf, Alike (pr.parse errno buf) ((create port).parse errno buf)

/-- A parse on a new object that fails takes back what it did. -/
def Atomic (port : Option ℕ) (errno : ℕ) (buf : Text) : Prop :=
  ∀ pr, (create port).parse errno buf = .ok (-1, pr) → pr.Restored

/-! ## Outcomes that show the same -/

section Alike

variable {α : Type} {a b : Except Undefined (ℤ × ParsedRequest)} {pr pr' : ParsedRequest}

theorem Alike.refl (a : Except Undefined (ℤ × ParsedRequest)) : Alike a a := rfl

theorem alike_ok {ret : ℤ} (same : pr.view = pr'.view) : Alike (.ok (ret, pr)) (.ok (ret, pr')) := by
  simp [Alike, Except.map, same]

theorem alike_bind (x : Except Undefined α) {f g : α → Except Undefined (ℤ × ParsedRequest)}
    (next : ∀ y, Alike (f y) (g y)) : Alike (x >>= f) (x >>= g) := by
  cases x with
  | error e => rfl
  | ok y => exact next y

theorem Alike.bind (same : Alike a b)
    {f g : ℤ × ParsedRequest → Except Undefined (ℤ × ParsedRequest)}
    (next : ∀ ret pr pr', pr.view = pr'.view → Alike (f (ret, pr)) (g (ret, pr'))) :
    Alike (a >>= f) (b >>= g) := by
  cases a with
  | error e =>
    cases b with
    | error e' =>
      obtain rfl : e = e' := Except.error.inj same
      rfl
    | ok y => cases same
  | ok x =>
    cases b with
    | error e' => cases same
    | ok y =>
      obtain ⟨ret, pr⟩ := x
      obtain ⟨ret', pr'⟩ := y
      obtain ⟨rfl, shown⟩ := Prod.mk.inj (Except.ok.inj same)
      exact next _ _ _ shown

theorem view_of_none (fresh : pr.buf = none) : pr.view =
    { pr with method := none, protocol := none, host := none, port := none, version := none } :=
  if_pos fresh

theorem view_headers (pr : ParsedRequest) (headers : Headers) :
    { pr with headers }.view = { pr.view with headers } := by
  simp only [view]
  split_ifs <;> rfl

theorem headers_view (pr : ParsedRequest) : pr.view.headers = pr.headers := by
  simp only [view]
  split_ifs <;> rfl

end Alike

/-! ## The request line does not look at old pointers -/

section Stale

variable (pr : ParsedRequest) (errno : ℕ) (method protocol host port version : Option ℕ)

theorem parseAddress_stale (buf : Text) (fullAddr : ℕ) :
    Alike ({ pr with protocol, host, port }.parseAddress errno buf fullAddr)
      (pr.parseAddress errno buf fullAddr) := by
  refine alike_bind _ fun ⟨buf₁, protocol₁, saveptr⟩ => ?_
  cases protocol₁ with
  | none => exact alike_ok rfl
  | some protocol₁ =>
    refine alike_bind _ fun len => alike_bind _ fun absUriLen => ?_
    refine alike_bind _ fun ⟨buf₂, host₁, saveptr₁⟩ => ?_
    cases host₁ with
    | none => exact alike_ok rfl
    | some host₁ =>
      refine alike_bind _ fun hostLen => ?_
      split_ifs with whole
      · exact alike_ok rfl
      · refine alike_bind _ fun ⟨buf₃, token, _⟩ => alike_bind _ fun path => ?_
        split_ifs with none_
        · exact alike_ok rfl
        · exact Alike.refl _

theorem parseRequestLine_stale (buf : Text) :
    Alike ({ pr with method, protocol, host, port, version }.parseRequestLine errno buf)
      (pr.parseRequestLine errno buf) := by
  refine alike_bind _ fun ⟨buf₁, method₁, saveptr⟩ => ?_
  dsimp only
  split_ifs with none_
  · exact alike_ok rfl
  · refine alike_bind _ fun ⟨buf₂, fullAddr, _⟩ => ?_
    cases fullAddr with
    | none => exact alike_ok rfl
    | some fullAddr =>
      refine alike_bind _ fun len => alike_bind _ fun http => ?_
      split_ifs with other
      · exact alike_ok rfl
      · exact parseAddress_stale { pr with
          method := method₁
          version := some (fullAddr + len + 1) } errno protocol host port _ _

end Stale

/-! ## A request line that is rejected is taken back -/

/-- A failure leaves neither buffer nor path, and the headers as they were. -/
def Undoes (headers : Headers) (a : Except Undefined (ℤ × ParsedRequest)) : Prop :=
  ∀ ret pr, a = .ok (ret, pr) → ret = 0 ∨ pr.buf = none ∧ pr.path = none ∧ pr.headers = headers

section Undoes

variable {α : Type} {pr : ParsedRequest} {headers : Headers} {errno : ℕ}

theorem undoes_zero (pr : ParsedRequest) : Undoes headers (.ok (0, pr)) := by
  rintro ret pr' ⟨⟩
  exact Or.inl rfl

theorem undoes_failed {ret : ℤ} (buf : pr.buf = none) (path : pr.path = none) :
    Undoes pr.headers (.ok (ret, pr)) := by
  rintro ret pr' ⟨⟩
  exact Or.inr ⟨buf, path, rfl⟩

theorem undoes_bind (x : Except Undefined α) {f : α → Except Undefined (ℤ × ParsedRequest)}
    (next : ∀ y, Undoes headers (f y)) : Undoes headers (x >>= f) := by
  cases x with
  | error e => rintro ret pr ⟨⟩
  | ok y => exact next y

theorem parseHost_undoes (pr : ParsedRequest) (buf : Text) (host : ℕ) :
    Undoes pr.headers (pr.parseHost errno buf host) := by
  refine undoes_bind _ fun ⟨buf₁, host₁, saveptr⟩ => undoes_bind _ fun ⟨buf₂, port, _⟩ => ?_
  dsimp only
  split_ifs with none_
  · exact undoes_failed rfl rfl
  · cases port with
    | none => exact undoes_zero _
    | some p =>
      refine undoes_bind _ fun t => ?_
      split_ifs with bad
      · exact undoes_failed rfl rfl
      · exact undoes_zero _

theorem parseAddress_undoes (pr : ParsedRequest) (path : pr.path = none) (buf : Text)
    (fullAddr : ℕ) : Undoes pr.headers (pr.parseAddress errno buf fullAddr) := by
  refine undoes_bind _ fun ⟨buf₁, protocol, saveptr⟩ => ?_
  cases protocol with
  | none => exact undoes_failed rfl path
  | some protocol =>
    refine undoes_bind _ fun len => undoes_bind _ fun absUriLen => ?_
    refine undoes_bind _ fun ⟨buf₂, host, saveptr₁⟩ => ?_
    cases host with
    | none => exact undoes_failed rfl path
    | some host =>
      refine undoes_bind _ fun hostLen => ?_
      split_ifs with whole
      · exact undoes_failed rfl path
      · refine undoes_bind _ fun ⟨buf₃, token, _⟩ => undoes_bind _ fun path₁ => ?_
        split_ifs with none_
        · exact undoes_failed rfl none_
        · exact parseHost_undoes { pr with
            protocol := some protocol
            host := some host
            path := path₁ } _ _

theorem parseRequestLine_undoes (pr : ParsedRequest) (path : pr.path = none) (buf : Text) :
    Undoes pr.headers (pr.parseRequestLine errno buf) := by
  refine undoes_bind _ fun ⟨buf₁, method, saveptr⟩ => ?_
  dsimp only
  split_ifs with none_
  · exact undoes_failed rfl path
  · refine undoes_bind _ fun ⟨buf₂, fullAddr, _⟩ => ?_
    cases fullAddr with
    | none => exact undoes_failed rfl path
    | some fullAddr =>
      refine undoes_bind _ fun len => undoes_bind _ fun http => ?_
      split_ifs with other
      · exact undoes_failed rfl path
      · exact parseAddress_undoes { pr with
          method
          version := some (fullAddr + len + 1) } path _ _

end Undoes

/-! ## A later parse -/

theorem parse_alike {pr pr' : ParsedRequest} (same : pr.view = pr'.view) (fresh : pr.buf = none)
    (fresh' : pr'.buf = none) (errno : ℕ) (buf : Text) :
    Alike (pr.parse errno buf) (pr'.parse errno buf) := by
  have line : ∀ b, Alike (pr.parseRequestLine errno b) (pr'.parseRequestLine errno b) := by
    intro b
    have first := parseRequestLine_stale pr errno none none none none none b
    have second := parseRequestLine_stale pr' errno none none none none none b
    rw [← view_of_none fresh] at first
    rw [← view_of_none fresh', ← same] at second
    exact first.symm.trans second
  unfold ParsedRequest.parse
  rw [if_neg (not_not_intro fresh), if_neg (not_not_intro fresh')]
  split_ifs with size
  · exact alike_ok same
  · refine alike_bind _ fun blank => ?_
    split_ifs with none_
    · exact alike_ok same
    · refine alike_bind _ fun index => ?_
      cases index with
      | none => rfl
      | some index =>
        refine (line _).bind fun ret pr₁ pr₂ shown => ?_
        dsimp only
        split_ifs with reject
        · exact alike_ok shown
        · have kept : pr₁.headers = pr₂.headers := by rw [← headers_view pr₁, shown, headers_view]
          rw [kept]
          refine alike_bind _ fun ⟨ret, headers⟩ => alike_ok ?_
          rw [view_headers pr₁, view_headers pr₂, shown]

theorem restored_of_undone {pr : ParsedRequest} (buf : pr.buf = none) (path : pr.path = none)
    (headers : pr.headers = Headers.create) : pr.Restored where
  buf := buf
  path := path
  live := by rw [headers]; rfl
  unparse := fun out => by simp [ParsedRequest.unparse, buf, pure, Except.pure]
  totalLen := by simp [ParsedRequest.totalLen, buf, pure, Except.pure]
  again := fun port errno text => by
    refine parse_alike ?_ buf rfl errno text
    have new : (create port).view = create none := rfl
    rw [new, view_of_none buf, buf, path, headers]
    rfl

end ParsedRequest

/-! ## Which failures are taken back -/

/-- Buffers that fail in the header lines: the request line is accepted, and neither the last header
line nor what follows the blank line has a colon. -/
def RejectedLate (errno : ℕ) (buf : Text) : Prop :=
  4 ≤ buf.length ∧ buf.length ≤ 65535 ∧ ∃ (q : Pieces) (ls : List Text) (tail : Text),
    cstr (buf ++ [0]) 0 = .ok (q.line ++ (crlf ++ linesText tail ls)) ∧ NoCrlf q.line ∧ Proper ls ∧
      q.Accepted errno ∧ ¬ ColonAhead ls tail

section Main

variable {port : Option ℕ} {errno : ℕ} {buf : Text}

/-- A late failure keeps the request line. -/
theorem parse_rejectedLate (port : Option ℕ) (late : RejectedLate errno buf) :
    ∃ pr, (ParsedRequest.create port).parse errno buf = .ok (-1, pr) ∧ pr.buf ≠ none := by
  obtain ⟨small, large, q, ls, tail, read, first, proper, ok, none_⟩ := late
  have head : Head buf q.line ls tail := ⟨small, large, read, first, proper⟩
  obtain ⟨pr, accepted, -, -, assigned⟩ :=
    parseRequestLine_accepted (ParsedRequest.create port) errno ok
  obtain ⟨headers, loop⟩ := parseLines_not_ahead pr.headers head.next proper none_ head.enough
  refine ⟨{ pr with headers }, ?_, assigned⟩
  rw [head.parse_eq rfl errno, accepted]
  simp only [bind, Except.bind, pure, Except.pure, ne_eq, not_true_eq_false, if_false, loop]

/-- Every other failure takes back what it did. -/
theorem atomic_of_not_rejectedLate (early : ¬ RejectedLate errno buf) :
    ParsedRequest.Atomic port errno buf := by
  intro pr failed
  rcases head_or_reject buf with ⟨line, ls, tail, head⟩ | ⟨-, reject⟩
  swap
  · rw [reject _ errno rfl] at failed
    cases failed
    exact ParsedRequest.restored_of_undone rfl rfl rfl
  have nul := head.nul
  rw [head.parse_eq rfl errno] at failed
  rcases parseRequestLine_cases (ParsedRequest.create port) errno nul with
    ⟨pr₁, reject⟩ | short | ⟨q, ok, rfl⟩
  · rw [reject] at failed
    cases failed
    have undone := ParsedRequest.parseRequestLine_undoes _ rfl _ _ _ reject
    obtain ⟨buf, path, headers⟩ := undone.resolve_left (by decide)
    exact ParsedRequest.restored_of_undone buf path headers
  · rw [parseRequestLine_lastWord _ errno short nul] at failed
    cases failed
  · obtain ⟨pr₁, accepted, -⟩ := parseRequestLine_accepted (ParsedRequest.create port) errno ok
    rw [accepted] at failed
    obtain ⟨-, ⟨⟩, failed⟩ := bind_eq_ok.1 failed
    obtain ⟨⟨ret, headers⟩, loop, done⟩ := bind_eq_ok.1 failed
    cases done
    by_cases ahead : ColonAhead ls tail
    · cases parseLines_ahead head.next head.proper ahead loop
    · exact absurd ⟨head.small, head.large, q, ls, tail, head.read, head.first, head.proper, ok, ahead⟩
        early

/-- The failures that take everything back are those before the header lines. -/
theorem atomic_iff (port : Option ℕ) (errno : ℕ) (buf : Text) :
    ParsedRequest.Atomic port errno buf ↔ ¬ RejectedLate errno buf := by
  refine ⟨fun atomic late => ?_, atomic_of_not_rejectedLate⟩
  obtain ⟨pr, failed, assigned⟩ := parse_rejectedLate port late
  exact assigned (atomic pr failed).buf

/-- `GET http://h/ HTTP/1.0` with the header line `x`. -/
theorem not_atomic_colon : ¬ ∀ port errno buf, ParsedRequest.Atomic port errno buf := by
  intro all
  have failed : ((ParsedRequest.create none).parse 0 [71, 69, 84, 32, 104, 116, 116, 112, 58, 47, 47,
      104, 47, 32, 72, 84, 84, 80, 47, 49, 46, 48, 13, 10, 120, 13, 10, 13, 10]).map
        (fun o => (o.1, o.2.buf.isSome)) = .ok (-1, true) := by rfl
  cases done : (ParsedRequest.create none).parse 0 [71, 69, 84, 32, 104, 116, 116, 112, 58, 47, 47,
      104, 47, 32, 72, 84, 84, 80, 47, 49, 46, 48, 13, 10, 120, 13, 10, 13, 10] with
  | error e =>
    rw [done] at failed
    cases failed
  | ok o =>
    rw [done] at failed
    obtain ⟨ret, pr⟩ := o
    obtain ⟨rfl, assigned⟩ := Prod.mk.inj (Except.ok.inj failed)
    rw [(all none 0 _ pr done).buf] at assigned
    cases assigned

end Main

end ComputerNetwork.Http
