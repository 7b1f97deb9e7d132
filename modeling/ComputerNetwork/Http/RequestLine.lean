import ComputerNetwork.Http.ProxyParse

/-!
# What the parser makes of a request line

`Pieces` is a request line cut up the way the calls of `strtok_r` cut it, `Pieces.Accepted` the
conditions under which they get through, with `absUriLen` the length that the pointer arithmetic
behind the protocol arrives at.  `parseRequestLine_accepted` gives the result for such a line,
`parseRequestLine_lastWord` the out-of-bounds read for a line that ends with its address, and
`parseRequestLine_cases` shows that every other line is rejected.
-/

namespace ComputerNetwork.Http

open Lib

/-- The text of an optional part that a delimiter introduces. -/
def optional (d : UInt8) : Option Text → Text
  | none => []
  | some t => d :: t

@[simp] theorem optional_none (d : UInt8) : optional d none = [] := rfl

@[simp] theorem optional_some (d : UInt8) (t : Text) : optional d (some t) = d :: t := rfl

theorem optional_zero (t : Option Text) (w : Text) : ∃ rest, optional 0 t ++ 0 :: w = 0 :: rest := by
  cases t with
  | none => exact ⟨w, rfl⟩
  | some t => exact ⟨t ++ 0 :: w, rfl⟩

theorem strlen_append {u s w : Text} (nul : 0 ∉ s) :
    strlen (u ++ (s ++ 0 :: w)) u.length = .ok s.length := by
  rw [strlen, cstr_append nul]
  rfl

/-! ## The end of a line: host and port -/

section Host

variable {u colons host w : Text} {port : Option Text} (pr : ParsedRequest) (errno : ℕ)

/-- The pointer to a port that is not empty. -/
def portPointer (p : ℕ) : Option Text → Option ℕ
  | none => none
  | some t => if t = [] then none else some p

theorem parseHost_colons (same : ∀ c ∈ colons, c = colon) :
    ∃ pr', pr.parseHost errno (u ++ (colons ++ 0 :: w)) u.length = .ok (-1, pr') := by
  have nul : (0 : UInt8) ∉ colons := fun h => absurd (same 0 h) (by decide)
  have first := strtokR_none (D := [colon]) (u := u) (w := w) (by simpa using same) nul
  have second := strtokR_none (D := [slash]) (u := u ++ colons) (l := []) (w := w)
    (by simp) (by simp)
  rw [List.nil_append, List.append_assoc, List.length_append] at second
  simp [ParsedRequest.parseHost, first, second, bind, Except.bind, pure, Except.pure]

theorem parseHost_eq (same : ∀ c ∈ colons, c = colon) (some_ : host ≠ []) (free : colon ∉ host)
    (nul : 0 ∉ host) (tail : ∀ t ∈ port, slash ∉ t ∧ 0 ∉ t) :
    pr.parseHost errno (u ++ (colons ++ (host ++ (optional colon port ++ 0 :: w)))) u.length =
      .ok (if ∃ t ∈ port, t ≠ [] ∧ badPort t errno = true then
          (-1, { pr with
            host := some (u.length + colons.length)
            port := portPointer (u.length + colons.length + host.length + 1) port
            buf := none
            path := none })
        else (0, { pr with
          host := some (u.length + colons.length)
          port := portPointer (u.length + colons.length + host.length + 1) port
          buf := some (u ++ (colons ++ (host ++ (optional 0 port ++ 0 :: w)))) })) := by
  have nul' : (0 : UInt8) ∉ colons ++ host := by
    simp only [List.mem_append, not_or]
    exact ⟨fun h => absurd (same 0 h) (by decide), nul⟩
  have inside : ∀ c ∈ colons, c ∈ [colon] := by simpa using same
  have outside : ∀ c ∈ host, c ∉ [colon] := by
    intro c hc h
    rw [List.mem_singleton.1 h] at hc
    exact free hc
  cases port with
  | none =>
    have first := strtokR_last (u := u) (w := w) inside outside some_ nul'
    have second := strtokR_none (D := [slash]) (u := u ++ (colons ++ host)) (l := [])
      (w := w) (by simp) (by simp)
    simp only [List.nil_append, List.append_assoc, List.length_append, List.length_nil,
      Nat.add_zero, ← Nat.add_assoc] at second
    simp [ParsedRequest.parseHost, first, second, bind, Except.bind, pure, Except.pure, optional,
      portPointer]
  | some t =>
    obtain ⟨slashes, nult⟩ := tail t rfl
    have first := strtokR_token (u := u) (c := colon) (w := t ++ 0 :: w) inside outside
      some_ nul' (by simp) (by decide) (by simp)
    by_cases empty : t = []
    · subst empty
      rw [List.nil_append] at first
      have second := strtokR_none (D := [slash]) (u := u ++ (colons ++ (host ++ [0])))
        (l := []) (w := w) (by simp) (by simp)
      simp only [List.nil_append, List.append_assoc, List.length_append, List.length_nil,
        Nat.add_zero, ← Nat.add_assoc, List.cons_append, List.length_singleton] at second
      simp [ParsedRequest.parseHost, first, second, bind, Except.bind, pure, Except.pure, optional,
        portPointer]
    · have second := strtokR_last (D := [slash]) (u := u ++ (colons ++ (host ++ [0])))
        (l := []) (t := t) (w := w) (by simp)
        (fun c hc h => slashes (by rwa [List.mem_singleton.1 h] at hc)) empty (by simpa using nult)
      have read := cstr_append (u := u ++ (colons ++ (host ++ [0]))) (w := w) nult
      simp only [List.nil_append, List.append_assoc, List.length_append, List.length_nil,
        Nat.add_zero, ← Nat.add_assoc, List.cons_append, List.length_singleton] at second read
      simp only [ParsedRequest.parseHost, optional, List.cons_append, first, second, bind,
        Except.bind, pure, Except.pure, reduceCtorEq, if_false, read, portPointer, Option.mem_def,
        Option.some.injEq, exists_eq_left', ne_eq, empty, not_false_eq_true, true_and]
      split_ifs <;> rfl

end Host

/-! ## The address -/

/-- The length of the string at `rem`, three bytes and a protocol behind the beginning of the
address: `lead` stands before the protocol, `rest` behind the delimiter after it. -/
def absUriLen (lead rest version : Text) : ℕ :=
  if 3 ≤ lead.length then lead.length - 3
  else if 2 - lead.length ≤ rest.length then rest.length - (2 - lead.length)
  else version.length

/-- An address cut up the way `strtok_r` cuts it. -/
structure Address where
  lead : Text
  protocol : Text
  delimiter : UInt8
  slashes : Text
  authority : Text
  tail : Option Text

namespace Address

/-- What stands behind the delimiter after the protocol. -/
def rest (a : Address) : Text := a.slashes ++ (a.authority ++ optional slash a.tail)

def text (a : Address) : Text := a.lead ++ (a.protocol ++ a.delimiter :: a.rest)

/-- The conditions under which the pieces are the tokens and what is between them. -/
structure Shape (a : Address) : Prop where
  lead : ∀ c ∈ a.lead, c = colon ∨ c = slash
  protocol_ne : a.protocol ≠ []
  protocol : ∀ c ∈ a.protocol, c ≠ colon ∧ c ≠ slash
  delimiter : a.delimiter = colon ∨ a.delimiter = slash
  slashes : ∀ c ∈ a.slashes, c = slash
  authority_ne : a.authority ≠ []
  authority : slash ∉ a.authority
  clean : ∀ c ∈ a.text, c ≠ 0 ∧ c ≠ sp

end Address

section Address

variable {u lead protocol version : Text} {a : Address} (pr : ParsedRequest) (errno : ℕ)

theorem strlen_rem {rest : Text} (nul : 0 ∉ lead ++ protocol) (nul' : 0 ∉ rest)
    (nul'' : 0 ∉ version) (some_ : rest ≠ []) :
    strlen (u ++ (lead ++ (protocol ++ 0 :: (rest ++ 0 :: (version ++ [0])))))
      (u.length + protocol.length + 3) = .ok (absUriLen lead rest version) := by
  have pos := List.length_pos_of_ne_nil some_
  unfold absUriLen
  split_ifs with long short
  · have read := cstr_drop (u := u) (w := rest ++ 0 :: (version ++ [0])) nul
      (j := protocol.length + 3) (by rw [List.length_append]; omega)
    rw [List.append_assoc, ← Nat.add_assoc] at read
    simp only [strlen, read, bind, Except.bind, pure, Except.pure, List.length_drop,
      List.length_append]
    congr 1
    omega
  · have read := cstr_drop (u := u ++ (lead ++ (protocol ++ [0]))) (w := version ++ [0]) nul'
      (j := 2 - lead.length) short
    have place : (u ++ (lead ++ (protocol ++ [0]))).length + (2 - lead.length) =
        u.length + protocol.length + 3 := by
      simp only [List.length_append, List.length_singleton]
      omega
    rw [place] at read
    simp only [List.append_assoc, List.cons_append, List.nil_append] at read
    simp only [strlen, read, bind, Except.bind, pure, Except.pure, List.length_drop]
  · have read := cstr_append (u := u ++ (lead ++ (protocol ++ 0 :: (rest ++ [0])))) (w := [])
      nul''
    have place : (u ++ (lead ++ (protocol ++ 0 :: (rest ++ [0])))).length =
        u.length + protocol.length + 3 := by
      simp only [List.length_append, List.length_cons, List.length_nil]
      omega
    rw [place] at read
    simp only [List.append_assoc, List.cons_append, List.nil_append] at read
    simp only [strlen, read, bind, Except.bind, pure, Except.pure]

theorem exists_pathOf {x w : Text} (clean : ∀ c ∈ x, c ≠ 0 ∧ c ≠ sp) :
    ∃ token save, strtokR (u ++ (x ++ 0 :: w)) u.length [sp] =
        .ok (u ++ (x ++ 0 :: w), token, save) ∧
      ParsedRequest.pathOf (u ++ (x ++ 0 :: w)) token =
        .ok (if [slash].isPrefixOf x then none else some (slash :: x)) := by
  have nul : (0 : UInt8) ∉ x := fun h => (clean 0 h).1 rfl
  by_cases empty : x = []
  · subst empty
    exact ⟨_, _, strtokR_none (l := []) (by simp) (by simp), rfl⟩
  · refine ⟨_, _, strtokR_last (l := []) (by simp) (fun c hc => by simpa using (clean c hc).2)
      empty (by simpa using nul), ?_⟩
    simp only [List.length_nil, Nat.add_zero, ParsedRequest.pathOf, strncmp, cstr_append nul, bind,
      Except.bind, pure, Except.pure]
    split_ifs <;> rfl

theorem strtokR_authority {slashes authority w : Text} {x : Option Text}
    (same : ∀ c ∈ slashes, c = slash) (some_ : authority ≠ []) (free : slash ∉ authority)
    (nul : 0 ∉ authority) :
    ∃ u', strtokR (u ++ (slashes ++ (authority ++ (optional slash x ++ 0 :: w))))
        u.length [slash] =
        .ok (u' ++ (x.getD [] ++ 0 :: w), some (u.length + slashes.length), u'.length) ∧
      u' ++ (x.getD [] ++ 0 :: w) =
        u ++ (slashes ++ (authority ++ (optional 0 x ++ 0 :: w))) := by
  have inside : ∀ c ∈ slashes, c ∈ [slash] := by simpa using same
  have outside : ∀ c ∈ authority, c ∉ [slash] := fun c hc h =>
    free (by rwa [List.mem_singleton.1 h] at hc)
  have nul' : (0 : UInt8) ∉ slashes ++ authority := by
    simp only [List.mem_append, not_or]
    exact ⟨fun h => absurd (same 0 h) (by decide), nul⟩
  cases x with
  | none =>
    refine ⟨u ++ (slashes ++ authority), ?_, by simp [optional]⟩
    have h := strtokR_last (u := u) (w := w) inside outside some_ nul'
    simpa [optional, Nat.add_assoc] using h
  | some y =>
    refine ⟨u ++ (slashes ++ (authority ++ [0])), ?_, by simp [optional]⟩
    have h := strtokR_token (u := u) (c := slash) (w := y ++ 0 :: w) inside outside some_
      nul' (by simp) (by decide) (by simp)
    simpa [optional, Nat.add_assoc] using h

/-- An address with all its tokens: what is left is the comparison of lengths, the test for a second
slash and the host. -/
theorem parseAddress_eq (shape : a.Shape) (nul : 0 ∉ version) :
    pr.parseAddress errno (u ++ (a.text ++ 0 :: (version ++ [0]))) u.length =
      if a.authority.length = absUriLen a.lead a.rest version then
        .ok (-1, { pr with
          protocol := some (u.length + a.lead.length)
          host := some (u.length + a.lead.length + a.protocol.length + 1 + a.slashes.length)
          buf := none })
      else if a.tail.any ([slash].isPrefixOf ·) then
        .ok (-1, { pr with
          protocol := some (u.length + a.lead.length)
          host := some (u.length + a.lead.length + a.protocol.length + 1 + a.slashes.length)
          path := none
          buf := none })
      else
        ParsedRequest.parseHost { pr with
          protocol := some (u.length + a.lead.length)
          host := some (u.length + a.lead.length + a.protocol.length + 1 + a.slashes.length)
          path := some (slash :: a.tail.getD []) } errno
          (u ++ (a.lead ++ (a.protocol ++ 0 :: (a.slashes ++ (a.authority ++
            (optional 0 a.tail ++ 0 :: (version ++ [0])))))))
          (u.length + a.lead.length + a.protocol.length + 1 + a.slashes.length) := by
  obtain ⟨lead, protocol, d, slashes, authority, tail⟩ := a
  obtain ⟨hlead, hproto, hproto', hd, hslashes, hauth, hauth', clean⟩ := shape
  simp only [Address.text, Address.rest, List.mem_append, List.mem_cons] at *
  have nulLead : (0 : UInt8) ∉ lead ++ protocol := by
    simp only [List.mem_append]
    rintro (h | h)
    · exact (clean 0 (.inl h)).1 rfl
    · exact (clean 0 (.inr (.inl h))).1 rfl
  have nulRest : (0 : UInt8) ∉ slashes ++ (authority ++ optional slash tail) := by
    simp only [List.mem_append]
    intro h
    exact (clean 0 (.inr (.inr (.inr h)))).1 rfl
  have first := strtokR_token (D := [colon, slash, slash]) (u := u) (l := lead)
    (t := protocol) (c := d)
    (w := slashes ++ (authority ++ optional slash tail) ++ 0 :: (version ++ [0]))
    (by simpa using hlead) (by simpa using hproto') hproto nulLead (by simpa using hd)
    (clean d (.inr (.inr (.inl rfl)))).1 (by simp)
  have read := strlen_append (u := u ++ lead) (s := protocol)
    (w := slashes ++ (authority ++ optional slash tail) ++ 0 :: (version ++ [0]))
    fun h => nulLead (List.mem_append_right _ h)
  have rem := strlen_rem (u := u) nulLead nulRest nul (by simp [hauth])
  obtain ⟨u', second, same⟩ := strtokR_authority (u := u ++ (lead ++ (protocol ++ [0])))
    (x := tail) (w := version ++ [0]) hslashes hauth hauth'
    fun h => nulRest (by simp [h])
  obtain ⟨token, save, third, path⟩ := exists_pathOf (u := u') (x := tail.getD [])
    (w := version ++ [0]) fun c hc => clean c (.inr (.inr (.inr (.inr (.inr (by
      cases tail with
      | none => cases hc
      | some x => exact List.mem_cons_of_mem _ hc))))))
  obtain ⟨behind, stop⟩ := optional_zero tail (version ++ [0])
  have host := strlen_append (u := u ++ (lead ++ (protocol ++ [0])) ++ slashes)
    (s := authority) (w := behind) fun h => nulRest (by simp [h])
  rw [← stop] at host
  rw [same] at third path second
  simp only [List.append_assoc, List.cons_append, List.nil_append, List.length_append,
    List.length_cons, List.length_nil, Nat.zero_add, ← Nat.add_assoc]
    at first read rem second third path host ⊢
  rw [Nat.add_right_comm _ slashes.length] at host
  simp only [ParsedRequest.parseAddress, first, read, rem, second, host, third, path, bind,
    Except.bind, pure, Except.pure]
  have any : tail.any ([slash].isPrefixOf ·) = [slash].isPrefixOf (tail.getD []) := by
    cases tail <;> rfl
  rw [any]
  by_cases double : [slash].isPrefixOf (tail.getD []) = true
  · simp only [double, if_true]
  · simp only [double, if_false, reduceCtorEq]

theorem exists_strlen {b : Text} {p : ℕ} (inside : p ≤ b.length) : ∃ n, strlen (b ++ [0]) p = .ok n := by
  have ends : (0 : UInt8) ∈ (b ++ [0]).drop p := by
    rw [List.drop_append_of_le_length inside]
    simp
  exact ⟨_, by rw [strlen, cstr, if_pos ends]; rfl⟩

theorem exists_span (P : UInt8 → Prop) [DecidablePred P] (s : Text) :
    ∃ a b, s = a ++ b ∧ (∀ c ∈ a, P c) ∧ ∀ c ∈ b.head?, ¬ P c := by
  refine ⟨s.takeWhile (P ·), s.dropWhile (P ·), (List.takeWhile_append_dropWhile ..).symm,
    fun c hc => by simpa using List.mem_takeWhile_imp hc, fun c hc => ?_⟩
  have := List.head?_dropWhile_not (P ·) s
  rw [Option.mem_def] at hc
  rw [hc] at this
  simpa using this

theorem span_unique {P : UInt8 → Prop} {a b d e : Text} (run : ∀ c ∈ a, P c)
    (run' : ∀ c ∈ d, P c) (stop : ∀ c ∈ b.head?, ¬ P c) (stop' : ∀ c ∈ e.head?, ¬ P c)
    (same : a ++ b = d ++ e) : a = d ∧ b = e := by
  induction a generalizing d with
  | nil =>
    cases d with
    | nil => exact ⟨rfl, same⟩
    | cons c d =>
      rw [List.nil_append] at same
      exact absurd (run' c (List.mem_cons_self ..)) (stop c (by rw [same]; rfl))
  | cons c a ih =>
    cases d with
    | nil =>
      rw [List.nil_append] at same
      exact absurd (run c (List.mem_cons_self ..)) (stop' c (by rw [← same]; rfl))
    | cons c' d =>
      obtain ⟨rfl, more⟩ := List.cons.inj same
      obtain ⟨rfl, rfl⟩ := ih (fun c hc => run c (List.mem_cons_of_mem _ hc))
        (fun c hc => run' c (List.mem_cons_of_mem _ hc)) more
      exact ⟨rfl, rfl⟩

/-- An address without one of the first two tokens is rejected. -/
theorem parseAddress_cases {addr : Text} (clean : ∀ c ∈ addr, c ≠ 0 ∧ c ≠ sp)
    (long : 5 ≤ version.length) :
    (∃ pr', pr.parseAddress errno (u ++ (addr ++ 0 :: (version ++ [0]))) u.length =
      .ok (-1, pr')) ∨ ∃ a : Address, a.Shape ∧ a.text = addr := by
  obtain ⟨lead, r, rfl, hlead, hr⟩ := exists_span (fun c => c = colon ∨ c = slash) addr
  have nul : (0 : UInt8) ∉ lead ++ r := fun h => (clean 0 h).1 rfl
  by_cases none₁ : r = []
  · subst none₁
    have first := strtokR_none (D := [colon, slash, slash]) (u := u) (l := lead)
      (w := version ++ [0]) (by simpa using hlead) (by simpa using nul)
    left
    simp [ParsedRequest.parseAddress, first, bind, Except.bind, pure, Except.pure]
  obtain ⟨protocol, r', rfl, hprotocol, hr'⟩ :=
    exists_span (fun c => ¬ (c = colon ∨ c = slash)) r
  have some₁ : protocol ≠ [] := by
    rintro rfl
    obtain ⟨c, rest, rfl⟩ := List.exists_cons_of_ne_nil none₁
    exact hr' c rfl (hr c rfl)
  have outside : ∀ c ∈ protocol, c ∉ [colon, slash, slash] := by simpa using hprotocol
  have inside : ∀ c ∈ lead, c ∈ [colon, slash, slash] := by simpa using hlead
  have nul₁ : (0 : UInt8) ∉ lead ++ protocol := fun h => nul (by simpa [← or_assoc] using Or.inl h)
  have nulP : (0 : UInt8) ∉ protocol := fun h => nul₁ (List.mem_append_right _ h)
  rcases r' with _ | ⟨d, r'⟩
  · left
    have first := strtokR_last (u := u) (w := version ++ [0]) inside outside some₁ nul₁
    have read := strlen_append (u := u ++ lead) (w := version ++ [0]) nulP
    obtain ⟨n, rem⟩ := exists_strlen (b := u ++ (lead ++ (protocol ++ 0 :: version)))
      (p := u.length + protocol.length + 3) (by simp; omega)
    have second := strtokR_none (D := [slash]) (u := u ++ (lead ++ protocol)) (l := [])
      (w := version ++ [0]) (by simp) (by simp)
    simp only [List.append_assoc, List.cons_append, List.nil_append, List.length_append,
      List.length_nil, Nat.add_zero, ← Nat.add_assoc] at first read rem second
    simp [ParsedRequest.parseAddress, first, read, rem, second, bind, Except.bind, pure, Except.pure]
  · have hd : d = colon ∨ d = slash := by simpa [← not_or] using hr' d rfl
    obtain ⟨slashes, r₂, rfl, hslashes, hr₂⟩ := exists_span (fun c => c = slash) r'
    by_cases none₂ : r₂ = []
    · subst none₂
      left
      have first := strtokR_token (u := u) (w := slashes ++ 0 :: (version ++ [0])) inside
        outside some₁ nul₁ (by simpa using hd) (clean d (by simp)).1 (by simp)
      have read := strlen_append (u := u ++ lead) (w := slashes ++ 0 :: (version ++ [0])) nulP
      obtain ⟨n, rem⟩ := exists_strlen
        (b := u ++ (lead ++ (protocol ++ 0 :: (slashes ++ 0 :: version))))
        (p := u.length + protocol.length + 3) (by simp; omega)
      have second := strtokR_none (D := [slash]) (u := u ++ (lead ++ (protocol ++ [0])))
        (l := slashes) (w := version ++ [0]) (by simpa using hslashes)
        (fun h => absurd (hslashes 0 h) (by decide))
      simp only [List.append_assoc, List.cons_append, List.nil_append, List.length_append,
        List.length_nil, List.length_cons, Nat.zero_add, ← Nat.add_assoc] at first read rem second
      simp [ParsedRequest.parseAddress, first, read, rem, second, bind, Except.bind, pure,
        Except.pure]
    obtain ⟨authority, r₃, rfl, hauthority, hr₃⟩ := exists_span (fun c => ¬ c = slash) r₂
    have some₂ : authority ≠ [] := by
      rintro rfl
      obtain ⟨c, rest, rfl⟩ := List.exists_cons_of_ne_nil none₂
      exact hr₃ c rfl (hr₂ c rfl)
    obtain ⟨tail, rfl⟩ : ∃ tail, r₃ = optional slash tail := by
      rcases r₃ with _ | ⟨c, x⟩
      · exact ⟨none, rfl⟩
      · have same : c = slash := by simpa using hr₃ c rfl
        exact ⟨some x, by rw [same]; rfl⟩
    right
    exact ⟨⟨lead, protocol, d, slashes, authority, tail⟩, ⟨hlead, some₁, by simpa using hprotocol, hd,
      hslashes, some₂, fun h => hauthority _ h rfl, clean⟩, rfl⟩

end Address

/-! ## The whole line -/

/-- A line of two words that ends with the second. -/
def LastWord (line : Text) : Prop :=
  ∃ gap method gap' addr, line = gap ++ (method ++ sp :: (gap' ++ addr)) ∧ (∀ c ∈ gap, c = sp) ∧
    method ≠ [] ∧ sp ∉ method ∧ (∀ c ∈ gap', c = sp) ∧ addr ≠ [] ∧ sp ∉ addr

/-- A request line cut up by all the calls of `strtok_r`. -/
structure Pieces where
  gap : Text
  method : Text
  gap' : Text
  address : Address
  colons : Text
  host : Text
  port : Option Text
  version : Text

namespace Pieces

def line (q : Pieces) : Text :=
  q.gap ++ (q.method ++ sp :: (q.gap' ++ (q.address.text ++ sp :: q.version)))

/-- The conditions under which the line is accepted. -/
structure Accepted (q : Pieces) (errno : ℕ) : Prop where
  gap : ∀ c ∈ q.gap, c = sp
  method_ne : q.method ≠ []
  method : sp ∉ q.method
  gap' : ∀ c ∈ q.gap', c = sp
  shape : q.address.Shape
  authority : q.address.authority = q.colons ++ (q.host ++ optional colon q.port)
  colons : ∀ c ∈ q.colons, c = colon
  host_ne : q.host ≠ []
  host : colon ∉ q.host
  length : q.address.authority.length ≠ absUriLen q.address.lead q.address.rest q.version
  single : ∀ x ∈ q.address.tail, ¬ [slash] <+: x
  port : ∀ t ∈ q.port, t ≠ [] → badPort t errno = false
  version : httpSlash <+: q.version
  nul : 0 ∉ q.line

/-- What the object shows afterwards. -/
def fields (q : Pieces) : ParsedRequest.Fields where
  method := q.method
  protocol := q.address.protocol
  host := q.host
  port := q.port.filter (· ≠ [])
  path := slash :: q.address.tail.getD []
  version := q.version

end Pieces

section Line

variable {gap method gap' addr version : Text} (pr : ParsedRequest) (errno : ℕ)

theorem not_mem_of_all_sp {s : Text} (same : ∀ c ∈ s, c = sp) : (0 : UInt8) ∉ s :=
  fun h => absurd (same 0 h) (by decide)

theorem parseRequestLine_eq (hgap : ∀ c ∈ gap, c = sp) (some_ : method ≠ []) (free : sp ∉ method)
    (hgap' : ∀ c ∈ gap', c = sp) (some' : addr ≠ []) (free' : sp ∉ addr) (nul : 0 ∉ method)
    (nul' : 0 ∉ addr) (nul'' : 0 ∉ version) :
    pr.parseRequestLine errno
        (gap ++ (method ++ sp :: (gap' ++ (addr ++ sp :: version))) ++ [0]) =
      if httpSlash.isPrefixOf version then
        ParsedRequest.parseAddress { pr with
          method := some gap.length
          version := some ((gap ++ (method ++ 0 :: gap')).length + addr.length + 1) } errno
          (gap ++ (method ++ 0 :: gap') ++ (addr ++ 0 :: (version ++ [0])))
          (gap ++ (method ++ 0 :: gap')).length
      else .ok (-1, { pr with
        method := some gap.length
        version := some ((gap ++ (method ++ 0 :: gap')).length + addr.length + 1)
        buf := none }) := by
  have first := strtokR_token (D := [sp]) (u := []) (l := gap) (t := method) (c := sp)
    (w := gap' ++ (addr ++ sp :: (version ++ [0]))) (by simpa using hgap)
    (fun c hc h => free (by rwa [List.mem_singleton.1 h] at hc)) some_
    (by simpa using ⟨not_mem_of_all_sp hgap, nul⟩) (by simp) (by decide) (by simp)
  have second := strtokR_token (D := [sp]) (u := gap ++ (method ++ [0])) (l := gap')
    (t := addr) (c := sp) (w := version ++ [0]) (by simpa using hgap')
    (fun c hc h => free' (by rwa [List.mem_singleton.1 h] at hc)) some'
    (by simpa using ⟨not_mem_of_all_sp hgap', nul'⟩) (by simp) (by decide) (by simp)
  have read := strlen_append (u := gap ++ (method ++ [0]) ++ gap') (w := version ++ [0]) nul'
  have http := cstr_append (u := gap ++ (method ++ [0]) ++ gap' ++ (addr ++ [0])) (w := []) nul''
  simp only [List.append_assoc, List.cons_append, List.nil_append, List.length_append,
    List.length_cons, List.length_nil, Nat.zero_add, ← Nat.add_assoc] at first second read http ⊢
  rw [Nat.add_right_comm _ addr.length 1] at http
  simp only [Nat.add_right_comm _ 1 gap'.length] at second
  simp only [ParsedRequest.parseRequestLine, first, second, read, strncmp, http, bind, Except.bind,
    pure, Except.pure, reduceCtorEq, if_false]
  by_cases proper : httpSlash.isPrefixOf version = true
  · simp only [proper, Bool.not_true, Bool.false_eq_true, if_false, if_true]
  · simp only [Bool.not_eq_true] at proper
    simp only [proper, Bool.not_false, if_true, Bool.false_eq_true, if_false]

/-- The version of a line that ends with its address is read behind the end of `buf`. -/
theorem parseRequestLine_lastWord {line : Text} (short : LastWord line) (nul : 0 ∉ line) :
    pr.parseRequestLine errno (line ++ [0]) = .error .outOfBounds := by
  obtain ⟨gap, method, gap', addr, rfl, hgap, some_, free, hgap', some', free'⟩ := short
  simp only [List.mem_append, List.mem_cons, not_or] at nul
  obtain ⟨-, nulM, -, nulG, nulA⟩ := nul
  have first := strtokR_token (D := [sp]) (u := []) (l := gap) (t := method) (c := sp)
    (w := gap' ++ (addr ++ [0])) (by simpa using hgap)
    (fun c hc h => free (by rwa [List.mem_singleton.1 h] at hc)) some_
    (by simpa using ⟨not_mem_of_all_sp hgap, nulM⟩) (by simp) (by decide) (by simp)
  have second := strtokR_last (D := [sp]) (u := gap ++ (method ++ [0])) (l := gap')
    (t := addr) (w := []) (by simpa using hgap')
    (fun c hc h => free' (by rwa [List.mem_singleton.1 h] at hc)) some'
    (by simpa using ⟨nulG, nulA⟩)
  have read := strlen_append (u := gap ++ (method ++ [0]) ++ gap') (w := []) nulA
  have beyond := cstr_of_le (b := gap ++ (method ++ 0 :: (gap' ++ (addr ++ [0]))))
    (p := gap.length + method.length + gap'.length + 1 + addr.length + 1) (by simp; omega)
  simp only [List.append_assoc, List.cons_append, List.nil_append, List.length_append,
    List.length_cons, List.length_nil, Nat.zero_add, ← Nat.add_assoc] at first second read ⊢
  simp only [Nat.add_right_comm _ 1 gap'.length] at second
  simp only [ParsedRequest.parseRequestLine, first, second, read, strncmp, beyond, bind,
    Except.bind, pure, Except.pure, reduceCtorEq, if_false]

theorem parseRequestLine_short (hgap : ∀ c ∈ gap, c = sp) (free : sp ∉ method) (nul : 0 ∉ method)
    (hgap' : ∀ c ∈ gap', c = sp) (one : method = [] → gap' = []) :
    ∃ pr', pr.parseRequestLine errno (gap ++ (method ++ gap') ++ [0]) = .ok (-1, pr') := by
  have inside : ∀ c ∈ gap, c ∈ [sp] := by simpa using hgap
  have outside : ∀ c ∈ method, c ∉ [sp] := fun c hc h => free (by rwa [List.mem_singleton.1 h] at hc)
  have nul' : (0 : UInt8) ∉ gap ++ method := by simpa using ⟨not_mem_of_all_sp hgap, nul⟩
  by_cases some_ : method = []
  · have first := strtokR_none (u := []) (w := []) inside (not_mem_of_all_sp hgap)
    rw [one some_, some_]
    simp only [List.append_nil, List.nil_append, List.length_nil] at first ⊢
    simp [ParsedRequest.parseRequestLine, first, bind, Except.bind, pure, Except.pure]
  · rcases gap' with _ | ⟨c, gap'⟩
    · have first := strtokR_last (u := []) (w := []) inside outside some_ nul'
      have second := strtokR_none (D := [sp]) (u := gap ++ method) (l := []) (w := [])
        (by simp) (by simp)
      simp only [List.append_assoc, List.append_nil, List.nil_append, List.length_nil,
        List.length_append, Nat.zero_add, Nat.add_zero] at first second ⊢
      simp [ParsedRequest.parseRequestLine, first, second, bind, Except.bind, pure, Except.pure]
    · have first := strtokR_token (u := []) (c := c) (w := gap' ++ [0]) inside outside some_ nul'
        (by simpa using hgap' c (by simp)) (by rw [hgap' c (by simp)]; decide) (by simp)
      have second := strtokR_none (D := [sp]) (u := gap ++ (method ++ [0])) (l := gap')
        (w := []) (by simpa using fun c hc => hgap' c (List.mem_cons_of_mem _ hc))
        (not_mem_of_all_sp fun c hc => hgap' c (List.mem_cons_of_mem _ hc))
      simp only [List.append_assoc, List.cons_append, List.nil_append, List.length_nil,
        List.length_append, List.length_cons, Nat.zero_add, ← Nat.add_assoc] at first second ⊢
      simp [ParsedRequest.parseRequestLine, first, second, bind, Except.bind, pure, Except.pure]

/-- The host part of an address is all colons or splits. -/
theorem exists_host (authority : Text) (some_ : ¬ ∀ c ∈ authority, c = colon) :
    ∃ colons host port, authority = colons ++ (host ++ optional colon port) ∧
      (∀ c ∈ colons, c = colon) ∧ host ≠ [] ∧ colon ∉ host := by
  obtain ⟨colons, r, rfl, hcolons, hr⟩ := exists_span (fun c => c = colon) authority
  have rest : r ≠ [] := by
    rintro rfl
    exact some_ (by simpa using hcolons)
  obtain ⟨host, r', rfl, hhost, hr'⟩ := exists_span (fun c => ¬ c = colon) r
  have some₁ : host ≠ [] := by
    rintro rfl
    obtain ⟨c, x, rfl⟩ := List.exists_cons_of_ne_nil rest
    exact hr' c rfl (hr c rfl)
  refine ⟨colons, host, r'.head?.map fun _ => r'.tail, ?_, hcolons, some₁, fun h => hhost _ h rfl⟩
  rcases r' with _ | ⟨c, x⟩
  · rfl
  · have same : c = colon := by simpa using hr' c rfl
    rw [same]
    rfl

theorem Address.Shape.nul_authority {a : Address} (shape : a.Shape) : 0 ∉ a.authority := by
  intro inside
  refine (shape.clean 0 ?_).1 rfl
  simp only [Address.text, Address.rest, List.mem_append, List.mem_cons]
  exact .inr (.inr (.inr (.inr (.inl inside))))

theorem parseAddress_host {u colons host : Text} {port : Option Text} {a : Address}
    (shape : a.Shape) (split : a.authority = colons ++ (host ++ optional colon port))
    (hcolons : ∀ c ∈ colons, c = colon) (some_ : host ≠ []) (free : colon ∉ host)
    (same : a.authority.length ≠ absUriLen a.lead a.rest version)
    (single : ∀ x ∈ a.tail, ¬ [slash] <+: x) (nul : 0 ∉ version) :
    pr.parseAddress errno (u ++ (a.text ++ 0 :: (version ++ [0]))) u.length =
      .ok (if ∃ t ∈ port, t ≠ [] ∧ badPort t errno = true then
          (-1, { pr with
            protocol := some (u.length + a.lead.length)
            host := some (u.length + a.lead.length + a.protocol.length + 1 + a.slashes.length +
              colons.length)
            port := portPointer (u.length + a.lead.length + a.protocol.length + 1 +
              a.slashes.length + colons.length + host.length + 1) port
            path := none
            buf := none })
        else (0, { pr with
          protocol := some (u.length + a.lead.length)
          host := some (u.length + a.lead.length + a.protocol.length + 1 + a.slashes.length +
            colons.length)
          port := portPointer (u.length + a.lead.length + a.protocol.length + 1 +
            a.slashes.length + colons.length + host.length + 1) port
          path := some (slash :: a.tail.getD [])
          buf := some (u ++ (a.lead ++ (a.protocol ++ 0 :: (a.slashes ++ (colons ++ (host ++
            (optional 0 port ++ (optional 0 a.tail ++ 0 :: (version ++ [0])))))))))  })) := by
  have double : ¬ a.tail.any ([slash].isPrefixOf ·) = true := by
    intro h
    obtain ⟨x, hx, begins⟩ := (Option.any_eq_true _ _).1 h
    exact single x hx (List.isPrefixOf_iff_prefix.1 begins)
  have nulHost : (0 : UInt8) ∉ host := fun h => shape.nul_authority (by rw [split]; simp [h])
  have tail : ∀ t ∈ port, slash ∉ t ∧ 0 ∉ t := by
    rintro t rfl
    refine ⟨fun h => shape.authority ?_, fun h => shape.nul_authority ?_⟩
    · rw [split]
      simp [optional, h]
    · rw [split]
      simp [optional, h]
  obtain ⟨behind, stop⟩ := optional_zero a.tail (version ++ [0])
  have result := parseHost_eq (u := u ++ (a.lead ++ (a.protocol ++ [0])) ++ a.slashes)
    (w := behind) { pr with
      protocol := some (u.length + a.lead.length)
      host := some (u.length + a.lead.length + a.protocol.length + 1 + a.slashes.length)
      path := some (slash :: a.tail.getD []) } errno hcolons some_ free nulHost tail
  have pointer : (u ++ (a.lead ++ (a.protocol ++ [0])) ++ a.slashes).length =
      u.length + a.lead.length + a.protocol.length + 1 + a.slashes.length := by
    simp only [List.length_append, List.length_singleton]
    omega
  rw [pointer, ← stop] at result
  simp only [List.append_assoc, List.cons_append, List.nil_append] at result
  rw [parseAddress_eq pr errno shape nul, if_neg same, if_neg double, split]
  simp only [List.append_assoc, result]

theorem parseAddress_outcome {u addr : Text} (clean : ∀ c ∈ addr, c ≠ 0 ∧ c ≠ sp)
    (http : httpSlash <+: version) (nul : 0 ∉ version) :
    (∃ pr', pr.parseAddress errno (u ++ (addr ++ 0 :: (version ++ [0]))) u.length =
      .ok (-1, pr')) ∨ ∃ (a : Address) (colons host : Text) (port : Option Text), a.text = addr ∧
        a.Shape ∧ a.authority = colons ++ (host ++ optional colon port) ∧
        (∀ c ∈ colons, c = colon) ∧ host ≠ [] ∧ colon ∉ host ∧
        a.authority.length ≠ absUriLen a.lead a.rest version ∧
        (∀ x ∈ a.tail, ¬ [slash] <+: x) ∧ ∀ t ∈ port, t ≠ [] → badPort t errno = false := by
  have long : 5 ≤ version.length := http.length_le
  rcases parseAddress_cases (u := u) pr errno clean long with reject | ⟨a, shape, rfl⟩
  · exact Or.inl reject
  by_cases same : a.authority.length = absUriLen a.lead a.rest version
  · exact Or.inl ⟨_, by rw [parseAddress_eq pr errno shape nul, if_pos same]⟩
  by_cases double : a.tail.any ([slash].isPrefixOf ·) = true
  · exact Or.inl ⟨_, by rw [parseAddress_eq pr errno shape nul, if_neg same, if_pos double]⟩
  have single : ∀ x ∈ a.tail, ¬ [slash] <+: x := fun x hx begins =>
    double ((Option.any_eq_true _ _).2 ⟨x, hx, List.isPrefixOf_iff_prefix.2 begins⟩)
  by_cases all : ∀ c ∈ a.authority, c = colon
  · obtain ⟨behind, stop⟩ := optional_zero a.tail (version ++ [0])
    have pointer : (u ++ (a.lead ++ (a.protocol ++ [0])) ++ a.slashes).length =
        u.length + a.lead.length + a.protocol.length + 1 + a.slashes.length := by
      simp only [List.length_append, List.length_singleton]
      omega
    obtain ⟨pr', result⟩ := parseHost_colons (w := behind)
      (u := u ++ (a.lead ++ (a.protocol ++ [0])) ++ a.slashes) { pr with
        protocol := some (u.length + a.lead.length)
        host := some (u.length + a.lead.length + a.protocol.length + 1 + a.slashes.length)
        path := some (slash :: a.tail.getD []) } errno all
    rw [pointer, ← stop] at result
    simp only [List.append_assoc, List.cons_append, List.nil_append] at result
    refine Or.inl ⟨pr', ?_⟩
    rw [parseAddress_eq pr errno shape nul, if_neg same, if_neg double]
    exact result
  obtain ⟨colons, host, port, split, hcolons, some_, free⟩ := exists_host a.authority all
  by_cases bad : ∃ t ∈ port, t ≠ [] ∧ badPort t errno = true
  · have result := parseAddress_host (u := u) pr errno shape split hcolons some_ free
      same single nul
    rw [if_pos bad] at result
    exact Or.inl ⟨_, result⟩
  · refine Or.inr ⟨a, colons, host, port, rfl, shape, split, hcolons, some_, free, same, single, ?_⟩
    intro t ht ne
    by_contra h
    exact bad ⟨t, ht, ne, by simpa using h⟩

/-- The three outcomes for a request line. -/
theorem parseRequestLine_cases {line : Text} (nul : 0 ∉ line) :
    (∃ pr', pr.parseRequestLine errno (line ++ [0]) = .ok (-1, pr')) ∨ LastWord line ∨
      ∃ q : Pieces, q.Accepted errno ∧ q.line = line := by
  have whole := nul
  obtain ⟨gap, r, rfl, hgap, hr⟩ := exists_span (fun c => c = sp) line
  obtain ⟨method, r', rfl, hmethod, hr'⟩ := exists_span (fun c => ¬ c = sp) r
  have free : sp ∉ method := fun h => hmethod _ h rfl
  have one : method = [] → r' = [] := by
    rintro rfl
    rcases r' with _ | ⟨c, x⟩
    · rfl
    · exact absurd (hr c rfl) (hr' c rfl)
  obtain ⟨gap', r₂, rfl, hgap', hr₂⟩ := exists_span (fun c => c = sp) r'
  simp only [List.mem_append, not_or] at nul
  obtain ⟨-, nulM, -, nul₂⟩ := nul
  by_cases none₂ : r₂ = []
  · subst none₂
    rw [List.append_nil] at one ⊢
    exact Or.inl (parseRequestLine_short pr errno hgap free nulM hgap' one)
  have some₁ : method ≠ [] := fun h => none₂ (List.append_eq_nil_iff.1 (one h)).2
  obtain ⟨g, rfl⟩ : ∃ g, gap' = sp :: g := by
    rcases gap' with _ | ⟨c, g⟩
    · obtain ⟨c, x, rfl⟩ := List.exists_cons_of_ne_nil none₂
      exact absurd (hr₂ c rfl) (hr' c rfl)
    · exact ⟨g, by rw [hgap' c (by simp)]⟩
  have hg : ∀ c ∈ g, c = sp := fun c hc => hgap' c (List.mem_cons_of_mem _ hc)
  obtain ⟨addr, r₃, rfl, haddr, hr₃⟩ := exists_span (fun c => ¬ c = sp) r₂
  have some₂ : addr ≠ [] := by
    rintro rfl
    obtain ⟨c, x, rfl⟩ := List.exists_cons_of_ne_nil none₂
    exact hr₃ c rfl (hr₂ c rfl)
  have freeA : sp ∉ addr := fun h => haddr _ h rfl
  rcases r₃ with _ | ⟨c, version⟩
  · exact Or.inr (Or.inl ⟨gap, method, g, addr, by simp, hgap, some₁, free, hg, some₂, freeA⟩)
  obtain rfl : c = sp := by simpa using hr₃ c rfl
  simp only [List.mem_append, List.mem_cons, not_or] at nul₂
  obtain ⟨nulA, -, nulV⟩ := nul₂
  rw [List.cons_append, parseRequestLine_eq pr errno hgap some₁ free hg some₂ freeA nulM nulA nulV]
  by_cases proper : httpSlash.isPrefixOf version = true
  · rw [if_pos proper]
    have http := List.isPrefixOf_iff_prefix.1 proper
    have clean : ∀ c ∈ addr, c ≠ 0 ∧ c ≠ sp := fun c hc =>
      ⟨fun h => nulA (h ▸ hc), fun h => freeA (h ▸ hc)⟩
    rcases parseAddress_outcome _ errno clean http nulV with
      reject | ⟨a, colons, host, port, rfl, shape, split, hcolons, some_, freeH, same, single, ok⟩
    · exact Or.inl reject
    · exact Or.inr (Or.inr ⟨⟨gap, method, g, a, colons, host, port, version⟩,
        ⟨hgap, some₁, free, hg, shape, split, hcolons, some_, freeH, same, single, ok, http, whole⟩,
        rfl⟩)
  · exact Or.inl ⟨_, if_neg proper⟩

theorem length_optional (d d' : UInt8) (t : Option Text) :
    (optional d t).length = (optional d' t).length := by
  cases t <;> rfl

theorem text_eq {pr : ParsedRequest} {buf u s w : Text} {p : ℕ} (hbuf : pr.buf = some buf)
    (parts : buf = u ++ (s ++ 0 :: w)) (pointer : p = u.length) (nul : 0 ∉ s) :
    pr.text (some p) = .ok s := by
  unfold ParsedRequest.text
  rw [hbuf, pointer, parts]
  exact cstr_append nul

theorem fields_eq {pr : ParsedRequest} (gap gap' lead slashes colons : Text) (tail : Option Text)
    {method protocol host version path : Text} {port : Option Text} {mp pp hp vp : ℕ}
    (hbuf : pr.buf = some (gap ++ (method ++ 0 :: (gap' ++ (lead ++ (protocol ++ 0 :: (slashes ++
      (colons ++ (host ++ (optional 0 port ++ (optional 0 tail ++ 0 :: (version ++ [0]))))))))))))
    (hm : pr.method = some mp) (hm' : mp = gap.length)
    (hp₁ : pr.protocol = some pp)
    (hp₁' : pp = (gap ++ (method ++ 0 :: (gap' ++ lead))).length)
    (hh : pr.host = some hp)
    (hh' : hp = (gap ++ (method ++ 0 :: (gap' ++ (lead ++ (protocol ++ 0 :: (slashes ++
      colons)))))).length)
    (hport : pr.port = portPointer (hp + host.length + 1) port)
    (hpath : pr.path = some path)
    (hv : pr.version = some vp)
    (hv' : vp = (gap ++ (method ++ 0 :: (gap' ++ (lead ++ (protocol ++ 0 :: (slashes ++ (colons ++
      (host ++ (optional 0 port ++ (optional 0 tail ++ [0])))))))))).length)
    (nulM : 0 ∉ method) (nulP : 0 ∉ protocol) (nulH : 0 ∉ host) (nulT : ∀ t ∈ port, 0 ∉ t)
    (nulV : 0 ∉ version) :
    pr.fields = .ok { method, protocol, host, port := port.filter (· ≠ []), path, version } := by
  obtain ⟨behind, stop⟩ := optional_zero tail (version ++ [0])
  obtain ⟨behind', stop'⟩ := optional_zero port behind
  have tm := text_eq hbuf rfl hm' nulM
  have tp := text_eq (u := gap ++ (method ++ 0 :: (gap' ++ lead))) (w := slashes ++ (colons ++
    (host ++ (optional 0 port ++ (optional 0 tail ++ 0 :: (version ++ [0])))))) hbuf (by simp) hp₁' nulP
  have th := text_eq (w := behind') (u := gap ++ (method ++ 0 :: (gap' ++ (lead ++ (protocol ++
    0 :: (slashes ++ colons)))))) hbuf (by simp [stop, stop']) hh' nulH
  have tv := text_eq (w := []) (u := gap ++ (method ++ 0 :: (gap' ++ (lead ++ (protocol ++ 0 ::
    (slashes ++ (colons ++ (host ++ (optional 0 port ++ (optional 0 tail ++ [0])))))))))) hbuf
    (by simp) hv' nulV
  cases port with
  | none =>
    simp only [ParsedRequest.fields, ParsedRequest.portText, hport, portPointer, hpath, hm, hp₁, hh,
      hv, tm, tp, th, tv, bind, Except.bind, pure, Except.pure]
    rfl
  | some t =>
    by_cases empty : t = []
    · subst empty
      simp only [ParsedRequest.fields, ParsedRequest.portText, hport, portPointer, hpath, hm, hp₁,
        hh, hv, tm, tp, th, tv, bind, Except.bind, pure, Except.pure, if_true]
      rfl
    · have tt := text_eq (w := behind) (u := gap ++ (method ++ 0 :: (gap' ++ (lead ++ (protocol ++
        0 :: (slashes ++ (colons ++ (host ++ [0])))))))) (p := hp + host.length + 1) hbuf
        (by simp [stop]) (by rw [hh']; simp; omega) (nulT t rfl)
      simp only [ParsedRequest.fields, ParsedRequest.portText, hport, portPointer, hpath, hm, hp₁,
        hh, hv, tm, tp, th, tv, tt, bind, Except.bind, pure, Except.pure, if_neg empty]
      rw [Option.filter_some_pos (by simpa using empty)]

theorem parseRequestLine_accepted {q : Pieces} (ok : q.Accepted errno) :
    ∃ pr', pr.parseRequestLine errno (q.line ++ [0]) = .ok (0, pr') ∧ pr'.headers = pr.headers ∧
      pr'.fields = .ok q.fields ∧ pr'.buf ≠ none := by
  obtain ⟨gap, method, gap', a, colons, host, port, version⟩ := q
  obtain ⟨hgap, some₁, free, hgap', shape, split, hcolons, some₂, freeH, same, single, portOk, http,
    nul⟩ := ok
  dsimp only at *
  simp only [Pieces.line, List.mem_append, List.mem_cons, not_or] at nul
  obtain ⟨-, nulM, -, -, nulA, -, nulV⟩ := nul
  have addrNe : a.text ≠ [] := by simp [Address.text, shape.protocol_ne]
  have freeA : sp ∉ a.text := fun h => (shape.clean _ h).2 rfl
  have bad : ¬ ∃ t ∈ port, t ≠ [] ∧ badPort t errno = true := by
    rintro ⟨t, ht, ne, h⟩
    rw [portOk t ht ne] at h
    cases h
  rw [Pieces.line, parseRequestLine_eq pr errno hgap some₁ free hgap' addrNe freeA nulM nulA nulV,
    if_pos (List.isPrefixOf_iff_prefix.2 http),
    parseAddress_host _ errno shape split hcolons some₂ freeH same single nulV, if_neg bad]
  refine ⟨_, rfl, rfl, ?_, by simp⟩
  have nulP : (0 : UInt8) ∉ a.protocol := fun h => nulA (by simp [Address.text, h])
  have nulH : (0 : UInt8) ∉ host := fun h => shape.nul_authority (by simp [split, h])
  have nulT : ∀ t ∈ port, (0 : UInt8) ∉ t := by
    rintro t rfl h
    exact shape.nul_authority (by simp [split, optional, h])
  have sizes := length_optional 0 colon port
  have sizes' := length_optional 0 slash a.tail
  refine fields_eq gap gap' a.lead a.slashes colons a.tail (by simp) rfl rfl rfl ?_ rfl ?_ rfl rfl rfl
    ?_ nulM nulP nulH nulT nulV
  · simp only [List.length_append, List.length_cons]
    omega
  · simp only [List.length_append, List.length_cons]
    omega
  · simp only [Address.text, Address.rest, split, List.length_append, List.length_cons,
      List.length_nil]
    omega

end Line

end ComputerNetwork.Http
