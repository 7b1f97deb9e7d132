import ComputerNetwork.Http.Parse

/-!
# The grammar of requests and what the parser accepts

`Grammar` is the form of a request that the parser means to accept.  It accepts more: the delimiters
of `strtok_r` are sets, and the colon of a header is looked for behind its line.  It also reads past
the end of a request line that has no version.  `meetsGrammar_iff` says exactly on which buffers the
parser does what it should: on all but the `Misread` ones.
-/

namespace ComputerNetwork.Http

open Lib

/-! ## The grammar -/

/-- `METHOD <spaces> scheme://host[:port]/path <space> HTTP/...`. -/
def GrammarLine (line : Text) : Prop :=
  ∃ (method gap scheme host : Text) (port : Option Text) (path version : Text),
    line = method ++ sp :: (gap ++ (scheme ++ colon :: slash :: slash ::
      (host ++ (optional colon port ++ slash :: (path ++ sp :: version))))) ∧
    method ≠ [] ∧ sp ∉ method ∧ (∀ c ∈ gap, c = sp) ∧
    scheme ≠ [] ∧ (∀ c ∈ scheme, c ≠ colon ∧ c ≠ slash ∧ c ≠ sp) ∧
    host ≠ [] ∧ (∀ c ∈ host, c ≠ colon ∧ c ≠ slash ∧ c ≠ sp) ∧
    (∀ t ∈ port, slash ∉ t ∧ sp ∉ t) ∧ sp ∉ path ∧ httpSlash <+: version

/-- A name without CR and LF, a colon and a value. -/
def GrammarHeader (l : Text) : Prop :=
  ∃ name value, l = name ++ colon :: value ∧ colon ∉ name ∧ 13 ∉ name ∧ 10 ∉ name

/-- The text up to the first blank line is a request line and header lines. -/
def Grammar (buf : Text) : Prop :=
  ∃ line ls tail, buf = line ++ (crlf ++ linesText tail ls) ∧ NoCrlf line ∧ Proper ls ∧
    GrammarLine line ∧ ∀ l ∈ ls, GrammarHeader l

/-- The parser accepts a buffer of the grammar, or rejects the buffer. -/
def MeetsGrammar (pr : ParsedRequest) (errno : ℕ) (buf : Text) : Prop :=
  (∃ pr', pr.parse errno buf = .ok (0, pr') ∧ Grammar buf) ∨
    ∃ pr', pr.parse errno buf = .ok (-1, pr')

/-! ## What else is accepted -/

/-- A request line with spaces in front, or whose address is not literally `scheme://host`. -/
def Pieces.Loose (q : Pieces) : Prop :=
  q.gap ≠ [] ∨ q.address.lead ≠ [] ∨ q.address.delimiter ≠ colon ∨ q.address.slashes.length ≠ 2 ∨
    q.colons ≠ []

/-- A header line without a colon, or with CR or LF in front of it. -/
def LooseHeader (l : Text) : Prop :=
  colon ∉ l ∨ ∃ name value, l = name ++ colon :: value ∧ colon ∉ name ∧ (13 ∈ name ∨ 10 ∈ name)

/-- A colon stands in the last header line or somewhere behind the blank line. -/
def ColonAhead (ls : List Text) (tail : Text) : Prop := ∀ l ∈ ls.getLast?, colon ∈ l ∨ colon ∈ tail

/-- Buffers that are accepted outside the grammar, or lead to a read outside of a block. -/
def Misread (errno : ℕ) (buf : Text) : Prop :=
  4 ≤ buf.length ∧ buf.length ≤ 65535 ∧ ∃ line ls tail,
    cstr (buf ++ [0]) 0 = .ok (line ++ (crlf ++ linesText tail ls)) ∧ NoCrlf line ∧ Proper ls ∧
      (LastWord line ∨ ∃ q : Pieces, q.Accepted errno ∧ q.line = line ∧ ColonAhead ls tail ∧
        (q.Loose ∨ ∃ l ∈ ls, LooseHeader l))

/-! ## Request lines -/

section Line

variable {q : Pieces} {errno : ℕ}

theorem grammarLine_of_not_loose (ok : q.Accepted errno) (strict : ¬ q.Loose) :
    GrammarLine q.line := by
  obtain ⟨gap, method, gap', ⟨lead, protocol, d, slashes, authority, tail⟩, colons, host, port,
    version⟩ := q
  simp only [Pieces.Loose, not_or, ne_eq, not_not] at strict
  obtain ⟨rfl, rfl, rfl, two, rfl⟩ := strict
  obtain rfl : authority = host ++ optional colon port := ok.authority
  obtain rfl : slashes = [slash, slash] := List.eq_replicate_iff.2 ⟨two, ok.shape.slashes⟩
  -- without a path the host is as long as the text behind the two slashes
  obtain ⟨x, rfl⟩ : ∃ x, tail = some x := by
    cases tail with
    | none =>
      refine absurd ?_ ok.length
      simp [absUriLen, Address.rest]
    | some x =>
      exact ⟨x, rfl⟩
  have inAuthority : ∀ c ∈ host ++ optional colon port, c ≠ slash ∧ c ≠ sp := by
    intro c hc
    refine ⟨fun h => ok.shape.authority (h ▸ hc), (ok.shape.clean c ?_).2⟩
    simp only [Address.text, Address.rest, List.mem_append, List.mem_cons] at hc ⊢
    tauto
  have free : ∀ c ∈ protocol, c ≠ sp := fun c hc => (ok.shape.clean c (by simp [Address.text, hc])).2
  refine ⟨method, gap', protocol, host, port, x, version, ?_, ok.method_ne, ok.method, ok.gap',
    ok.shape.protocol_ne, fun c hc => ?_, ok.host_ne, fun c hc => ?_, fun t ht => ?_, fun h => ?_,
    ok.version⟩
  · simp [Pieces.line, Address.text, Address.rest]
  · exact ⟨(ok.shape.protocol c hc).1, (ok.shape.protocol c hc).2, free c hc⟩
  · exact ⟨fun h => ok.host (h ▸ hc), inAuthority c (List.mem_append_left _ hc)⟩
  · obtain rfl : port = some t := ht
    exact ⟨fun h => (inAuthority _ (by simp [h])).1 rfl, fun h => (inAuthority _ (by simp [h])).2 rfl⟩
  · exact (ok.shape.clean sp (by simp [Address.text, Address.rest, h])).2 rfl

/-- The first byte of a text that is not empty is one of its bytes. -/
theorem head_append {P : UInt8 → Prop} {a b : Text} (some_ : a ≠ []) (all : ∀ c ∈ a, P c) :
    ∀ c ∈ (a ++ b).head?, P c := by
  obtain ⟨d, a, rfl⟩ := List.exists_cons_of_ne_nil some_
  rintro c ⟨⟩
  exact all d (List.mem_cons_self ..)

theorem not_loose_of_grammarLine (ok : q.Accepted errno) (grammar : GrammarLine q.line) :
    ¬ q.Loose := by
  obtain ⟨method, gap, scheme, host, port, path, version, same, some_, free, hgap, someS, hscheme,
    someH, hhost, hport, hpath, -⟩ := grammar
  rw [Pieces.line] at same
  have freeM : ∀ c ∈ method, ¬ c = sp := fun c hc h => free (h ▸ hc)
  have freeQ : ∀ c ∈ q.method, ¬ c = sp := fun c hc h => ok.method (h ▸ hc)
  have addrNe : q.address.text ≠ [] := by simp [Address.text, ok.shape.protocol_ne]
  have freeA : ∀ c ∈ q.address.text, ¬ c = sp := fun c hc => (ok.shape.clean c hc).2
  have noGap := span_unique (P := (· = sp)) (d := []) ok.gap (by simp)
    (head_append ok.method_ne freeQ) (head_append some_ freeM) same
  have words := span_unique (P := (¬ · = sp)) freeQ freeM (by simp) (by simp) noGap.2
  have freeS : ∀ c ∈ scheme, ¬ c = sp := fun c hc => (hscheme c hc).2.2
  have gaps := span_unique (P := (· = sp)) ok.gap' hgap (head_append addrNe freeA)
    (head_append someS freeS) (List.cons.inj words.2).2
  have freeG : ∀ c ∈ scheme ++ colon :: slash :: slash :: (host ++ (optional colon port ++
      slash :: path)), ¬ c = sp := by
    intro c hc
    have inPort : ∀ c ∈ optional colon port, ¬ c = sp := by
      cases port with
      | none =>
        simp
      | some t =>
        rintro c hc rfl
        cases List.mem_cons.1 hc with
        | inl h => exact absurd h (by decide)
        | inr h => exact (hport t rfl).2 h
    simp only [List.mem_append, List.mem_cons] at hc
    rcases hc with h | rfl | rfl | rfl | h | h | rfl | h
    · exact freeS c h
    · decide
    · decide
    · decide
    · exact (hhost c h).2.2
    · exact inPort c h
    · decide
    · exact fun e => hpath (e ▸ h)
  have address := span_unique (P := (¬ · = sp)) (b := sp :: q.version) (e := sp :: version) freeA
    freeG (by simp) (by simp) (by rw [gaps.2]; simp)
  have text := address.1
  rw [Address.text] at text
  have outP : ∀ c ∈ q.address.protocol, ¬ (c = colon ∨ c = slash) := fun c hc h =>
    h.elim (ok.shape.protocol c hc).1 (ok.shape.protocol c hc).2
  have outS : ∀ c ∈ scheme, ¬ (c = colon ∨ c = slash) := fun c hc h =>
    h.elim (hscheme c hc).1 (hscheme c hc).2.1
  have noLead := span_unique (P := fun c => c = colon ∨ c = slash) (d := []) ok.shape.lead (by simp)
    (head_append ok.shape.protocol_ne outP) (head_append someS outS) text
  have schemes := span_unique (P := fun c => ¬ (c = colon ∨ c = slash)) outP outS
    (by simpa [or_iff_not_imp_left] using ok.shape.delimiter) (by simp) noLead.2
  obtain ⟨delimiter, rest⟩ := List.cons.inj schemes.2
  have outA : ∀ c ∈ q.address.authority, ¬ c = slash := fun c hc h => ok.shape.authority (h ▸ hc)
  have slashes := span_unique (P := (· = slash)) (d := [slash, slash]) ok.shape.slashes (by simp)
    (head_append ok.shape.authority_ne outA) (head_append someH fun c hc => (hhost c hc).2.1) rest
  have hosts := slashes.2
  rw [ok.authority, List.append_assoc, List.append_assoc] at hosts
  have colons := span_unique (P := (· = colon)) (d := []) ok.colons (by simp)
    (head_append ok.host_ne fun c hc h => ok.host (h ▸ hc))
    (head_append someH fun c hc => (hhost c hc).1) hosts
  simp [Pieces.Loose, noGap.1, noLead.1, delimiter, slashes.1, colons.1]

end Line

/-! ## Header lines -/

theorem grammarHeader_or_loose (l : Text) : GrammarHeader l ∨ LooseHeader l := by
  by_cases found : colon ∈ l
  · obtain ⟨name, value, split, free⟩ := List.eq_append_cons_of_mem found
    by_cases ends : 13 ∈ name ∨ 10 ∈ name
    · exact Or.inr (Or.inr ⟨name, value, split, free, ends⟩)
    · rw [not_or] at ends
      exact Or.inl ⟨name, value, split, free, ends⟩
  · exact Or.inr (Or.inl found)

theorem not_looseHeader {l : Text} (grammar : GrammarHeader l) : ¬ LooseHeader l := by
  obtain ⟨name, value, rfl, free, cr, lf⟩ := grammar
  rintro (none_ | ⟨name', value', same, free', ends⟩)
  · exact none_ (by simp)
  · obtain rfl := colon_unique free free' same
    exact ends.elim cr lf

section Loop

variable {b : List UInt8} {cur : ℕ} {hs : Headers} {ls : List Text} {tail : Text}

theorem crlf_linesText (tail : Text) (ls : List Text) : crlf <:+: linesText tail ls := by
  cases ls with
  | nil => exact ⟨[], tail, by simp [linesText]⟩
  | cons l ls => exact ⟨l, linesText tail ls, by simp [linesText]⟩

theorem mem_linesText (tail : Text) (ls : List Text) {c : UInt8} (other : c ∉ crlf) :
    c ∈ linesText tail ls ↔ (∃ l ∈ ls, c ∈ l) ∨ c ∈ tail := by
  induction ls with
  | nil => simp [linesText, other]
  | cons l ls ih => simp [linesText, other, ih, or_assoc]

theorem exists_valueAt {k r : Text} (text : cstr b cur = .ok (linesText tail ls))
    (split : linesText tail ls = k ++ colon :: r) (free : colon ∉ k) (found : ∃ l ∈ ls, colon ∈ l) :
    ∃ v, valueAt b (cur + k.length + 2) = .ok v := by
  induction ls generalizing cur k r with
  | nil => simp at found
  | cons l ls ih =>
    by_cases here : colon ∈ l
    · obtain ⟨k', r', rfl, free'⟩ := List.eq_append_cons_of_mem here
      have whole : linesText tail ((k' ++ colon :: r') :: ls) =
          k' ++ colon :: (r' ++ (crlf ++ linesText tail ls)) := by simp [linesText]
      obtain rfl := colon_unique free free' (split.symm.trans whole)
      rw [whole] at text
      have behind : ∃ c s, r' ++ (crlf ++ linesText tail ls) = c :: s ∧ crlf <:+: s := by
        rcases r' with _ | ⟨c, r'⟩
        · exact ⟨13, 10 :: linesText tail ls, rfl,
            (crlf_linesText tail ls).trans (List.suffix_cons ..).isInfix⟩
        · exact ⟨c, r' ++ (crlf ++ linesText tail ls), rfl, ⟨r', linesText tail ls, by simp⟩⟩
      obtain ⟨c, s, eq, ends⟩ := behind
      obtain ⟨v, s', rfl, line⟩ := exists_line ends
      have value := cstr_add (j := (k ++ [colon, c]).length)
        (s := (k ++ [colon, c]) ++ (v ++ (crlf ++ s'))) (by simpa [eq] using text) (by simp)
      rw [List.drop_left, List.length_append, ← Nat.add_assoc] at value
      exact ⟨v, valueAt_eq value line⟩
    · obtain ⟨k', r', split', free'⟩ := List.eq_append_cons_of_mem
        ((mem_linesText tail ls (by decide : colon ∉ crlf)).2
          (Or.inl (by simpa [here] using found)))
      have outside : colon ∉ l ++ (crlf ++ k') := by
        simp only [List.mem_append, not_or]
        exact ⟨here, by decide, free'⟩
      have whole : linesText tail (l :: ls) = (l ++ (crlf ++ k')) ++ colon :: r' := by
        rw [linesText, split']
        simp
      obtain rfl := colon_unique free outside (split.symm.trans whole)
      obtain ⟨v, value⟩ := ih (cstr_next text) split' free' (by simpa [here] using found)
      refine ⟨v, ?_⟩
      have place : cur + (l ++ (crlf ++ k')).length + 2 = cur + l.length + 2 + k'.length + 2 := by
        simp only [List.length_append, crlf, List.length_cons, List.length_nil]
        omega
      rw [place]
      exact value

theorem linesText_append (more : Text) : linesText tail ls ++ more = linesText (tail ++ more) ls := by
  induction ls with
  | nil => simp [linesText]
  | cons l ls ih => simp [linesText, ih]

theorem split_behind {k r : Text} (none_ : ∀ l ∈ ls, colon ∉ l) (free : colon ∉ k) :
    linesText (k ++ colon :: r) ls = linesText k ls ++ colon :: r ∧ colon ∉ linesText k ls := by
  refine ⟨(linesText_append (colon :: r)).symm, ?_⟩
  rw [mem_linesText _ _ (by decide)]
  rintro (⟨l, mem, inside⟩ | inside)
  · exact none_ l mem inside
  · exact free inside

theorem length_linesText_cons (k l : Text) :
    (linesText k (l :: ls)).length = l.length + 2 + (linesText k ls).length := by
  simp only [linesText, List.length_append, crlf, List.length_cons, List.length_nil]
  omega

/-- The loop over the header lines gets to its end unless the value of the last line does not. -/
theorem parseLines_defined (hs : Headers) (text : cstr b cur = .ok (linesText tail ls))
    (proper : Proper ls)
    (value : (∃ l ∈ ls.getLast?, colon ∉ l) → ∀ k r, tail = k ++ colon :: r → colon ∉ k →
      ∃ v, valueAt b (cur + (linesText k ls).length + 2) = .ok v)
    {fuel : ℕ} (enough : ls.length < fuel) :
    ∃ result, Headers.parseLines b fuel cur hs = .ok result := by
  induction ls generalizing cur hs fuel with
  | nil =>
    obtain ⟨n, rfl⟩ := Nat.exists_eq_succ_of_ne_zero (by omega : fuel ≠ 0)
    exact ⟨_, parseLines_blank text n⟩
  | cons l ls ih =>
    obtain ⟨n, rfl⟩ := Nat.exists_eq_succ_of_ne_zero (by omega : fuel ≠ 0)
    obtain ⟨some_, line⟩ := proper l (List.mem_cons_self ..)
    rw [Nat.succ_eq_add_one, parseLines_line text some_ line n]
    by_cases found : colon ∈ linesText tail (l :: ls)
    · obtain ⟨k, r, split, free⟩ := List.eq_append_cons_of_mem found
      have one : ∃ v, valueAt b (cur + k.length + 2) = .ok v := by
        by_cases inLines : ∃ l' ∈ l :: ls, colon ∈ l'
        · exact exists_valueAt text split free inLines
        · simp only [not_exists, not_and] at inLines
          have last : ∃ l' ∈ (l :: ls).getLast?, colon ∉ l' :=
            ⟨(l :: ls).getLast (by simp), List.getLast?_eq_some_getLast (by simp),
              inLines _ (List.getLast_mem (by simp))⟩
          have behind : colon ∈ tail :=
            ((mem_linesText _ _ (by decide)).1 found).resolve_left (by simpa using inLines)
          obtain ⟨k', r', rfl, free'⟩ := List.eq_append_cons_of_mem behind
          obtain ⟨split', free''⟩ := split_behind (r := r') inLines free'
          rw [colon_unique free free'' (split.symm.trans split')]
          exact value last k' r' rfl free'
      obtain ⟨v, one⟩ := one
      rw [headers_parse_eq (split ▸ text) free, one]
      refine ih (hs.set k v) (cstr_next text) (fun l' mem => proper l' (List.mem_cons_of_mem _ mem))
        (fun last k r split free => ?_) (by rw [List.length_cons] at enough; omega)
      have whole := value (by
        obtain ⟨l', last, none_⟩ := last
        cases ls with
        | nil => cases last
        | cons l₂ ls => exact ⟨l', by rwa [List.getLast?_cons_cons], none_⟩) k r split free
      rw [length_linesText_cons] at whole
      rwa [show cur + l.length + 2 + (linesText k ls).length + 2 =
        cur + (l.length + 2 + (linesText k ls).length) + 2 by omega]
    · rw [headers_parse_none text found]
      exact ⟨_, rfl⟩

theorem ColonAhead.next {l : Text} (ahead : ColonAhead (l :: ls) tail) : ColonAhead ls tail := by
  intro l' last
  refine ahead l' ?_
  rcases ls with _ | ⟨l₂, ls⟩
  · cases last
  · rwa [List.getLast?_cons_cons]

theorem ColonAhead.mem {l : Text} (ahead : ColonAhead (l :: ls) tail) :
    colon ∈ linesText tail (l :: ls) := by
  rw [mem_linesText _ _ (by decide)]
  have last : (l :: ls).getLast? = some ((l :: ls).getLast (by simp)) :=
    List.getLast?_eq_some_getLast (by simp)
  cases ahead _ last with
  | inl here => exact Or.inl ⟨_, List.getLast_mem (by simp), here⟩
  | inr behind => exact Or.inr behind

theorem parseLines_ahead (text : cstr b cur = .ok (linesText tail ls)) (proper : Proper ls)
    (ahead : ColonAhead ls tail) {fuel : ℕ} {ret : ℤ} {hs' : Headers}
    (done : Headers.parseLines b fuel cur hs = .ok (ret, hs')) : ret = 0 := by
  induction ls generalizing cur hs fuel with
  | nil =>
    cases fuel with
    | zero => cases done
    | succ n =>
      rw [parseLines_blank text] at done
      cases done
      rfl
  | cons l ls ih =>
    obtain ⟨some_, line⟩ := proper l (List.mem_cons_self ..)
    cases fuel with
    | zero => cases done
    | succ n =>
      obtain ⟨k, r, split, free⟩ := List.eq_append_cons_of_mem ahead.mem
      rw [parseLines_line text some_ line, headers_parse_eq (split ▸ text) free] at done
      rcases value : valueAt b (cur + k.length + 2) with e | v
      · rw [value] at done
        cases done
      · rw [value] at done
        exact ih (cstr_next text) (fun l' mem => proper l' (List.mem_cons_of_mem _ mem)) ahead.next
          done

theorem parseLines_colons (hs : Headers) (text : cstr b cur = .ok (linesText tail ls))
    (proper : Proper ls)
    (colons : ∀ l ∈ ls, colon ∈ l) {fuel : ℕ} (enough : ls.length < fuel) :
    ∃ hs', Headers.parseLines b fuel cur hs = .ok (0, hs') := by
  have ahead : ColonAhead ls tail := fun l last => Or.inl (colons l (List.mem_of_getLast? last))
  have ends : ¬ ∃ l ∈ ls.getLast?, colon ∉ l := fun ⟨l, last, none_⟩ =>
    none_ (colons l (List.mem_of_getLast? last))
  obtain ⟨⟨ret, hs'⟩, done⟩ :=
    parseLines_defined hs text proper (fun none_ => absurd none_ ends) enough
  obtain rfl := parseLines_ahead text proper ahead done
  exact ⟨hs', done⟩

/-- Without a colon ahead the last line is rejected, if not one before it. -/
theorem parseLines_not_ahead (hs : Headers) (text : cstr b cur = .ok (linesText tail ls))
    (proper : Proper ls)
    (none_ : ¬ ColonAhead ls tail) {fuel : ℕ} (enough : ls.length < fuel) :
    ∃ hs', Headers.parseLines b fuel cur hs = .ok (-1, hs') := by
  induction ls generalizing cur hs fuel with
  | nil => exact absurd (by simp [ColonAhead]) none_
  | cons l ls ih =>
    obtain ⟨n, rfl⟩ := Nat.exists_eq_succ_of_ne_zero (by omega : fuel ≠ 0)
    obtain ⟨some_, line⟩ := proper l (List.mem_cons_self ..)
    rw [Nat.succ_eq_add_one, parseLines_line text some_ line n]
    by_cases found : colon ∈ linesText tail (l :: ls)
    · obtain ⟨k, r, split, free⟩ := List.eq_append_cons_of_mem found
      have behind : colon ∉ tail := by
        intro h
        exact none_ fun _ _ => Or.inr h
      obtain ⟨v, value⟩ := exists_valueAt text split free
        (((mem_linesText _ _ (by decide)).1 found).resolve_right behind)
      have next : ¬ ColonAhead ls tail := by
        intro ahead
        rcases ls with _ | ⟨l₂, ls⟩
        · have inLine : colon ∈ l := by
            simpa [behind] using (mem_linesText _ _ (by decide)).1 found
          exact none_ (by simp [ColonAhead, inLine])
        · refine none_ fun l' last => ahead l' ?_
          rwa [List.getLast?_cons_cons] at last
      rw [headers_parse_eq (split ▸ text) free, value]
      exact ih (hs.set k v) (cstr_next text)
        (fun l' mem => proper l' (List.mem_cons_of_mem _ mem)) next
        (by rw [List.length_cons] at enough; omega)
    · rw [headers_parse_none text found]
      exact ⟨hs, rfl⟩

end Loop

/-! ## The condition -/

section Main

variable {buf text line tail : Text} {ls : List Text} {errno : ℕ}

theorem exists_rest (read : cstr (buf ++ [0]) 0 = .ok text) : ∃ more, buf = text ++ more := by
  obtain ⟨-, post, eq⟩ := cstr_eq_ok.1 read
  rw [List.drop_zero] at eq
  rcases List.eq_nil_or_concat post with rfl | ⟨more, c, rfl⟩
  · exact ⟨[], by simpa using (List.append_inj' eq rfl).1⟩
  · rw [List.concat_eq_append, ← List.cons_append, ← List.append_assoc] at eq
    exact ⟨0 :: more, (List.append_inj' eq rfl).1⟩

theorem grammar_iff (head : Head buf line ls tail) :
    Grammar buf ↔ GrammarLine line ∧ ∀ l ∈ ls, GrammarHeader l := by
  obtain ⟨more, rest⟩ := exists_rest head.read
  rw [List.append_assoc, List.append_assoc, linesText_append] at rest
  constructor
  · rintro ⟨line', ls', tail', same, first', proper', good, goods⟩
    obtain ⟨rfl, behind⟩ := line_unique head.first first' (rest.symm.trans same)
    obtain ⟨rfl, -⟩ := linesText_unique head.proper proper' behind
    exact ⟨good, goods⟩
  · rintro ⟨good, goods⟩
    exact ⟨line, ls, _, rest, head.first, head.proper, good, goods⟩

theorem misread_iff (head : Head buf line ls tail) :
    Misread errno buf ↔ LastWord line ∨ ∃ q : Pieces, q.Accepted errno ∧ q.line = line ∧
      ColonAhead ls tail ∧ (q.Loose ∨ ∃ l ∈ ls, LooseHeader l) := by
  constructor
  · rintro ⟨small, large, line', ls', tail', read, first, proper, wrong⟩
    obtain ⟨rfl, rfl, rfl⟩ := head.unique ⟨small, large, read, first, proper⟩
    exact wrong
  · exact fun wrong =>
      ⟨head.small, head.large, line, ls, tail, head.read, head.first, head.proper, wrong⟩

theorem Misread.head (misread : Misread errno buf) : ∃ line ls tail, Head buf line ls tail := by
  obtain ⟨small, large, line, ls, tail, read, first, proper, -⟩ := misread
  exact ⟨line, ls, tail, small, large, read, first, proper⟩

/-- An accepted line and its headers are in the grammar exactly when nothing in them is loose. -/
theorem grammar_iff_not_loose {q : Pieces} (ok : q.Accepted errno) :
    (GrammarLine q.line ∧ ∀ l ∈ ls, GrammarHeader l) ↔
      ¬ (q.Loose ∨ ∃ l ∈ ls, LooseHeader l) := by
  constructor
  · rintro ⟨good, goods⟩ (loose | ⟨l, mem, loose⟩)
    · exact not_loose_of_grammarLine ok good loose
    · exact not_looseHeader (goods l mem) loose
  · intro strict
    obtain ⟨line, headers⟩ := not_or.1 strict
    refine ⟨grammarLine_of_not_loose ok line, fun l mem => ?_⟩
    exact (grammarHeader_or_loose l).resolve_right fun loose => headers ⟨l, mem, loose⟩

/-- How an accepted line is cut into pieces does not matter. -/
theorem misread_of_accepted {q : Pieces} (ok : q.Accepted errno) (long : ¬ LastWord q.line) :
    (LastWord q.line ∨ ∃ q' : Pieces, q'.Accepted errno ∧ q'.line = q.line ∧
      ColonAhead ls tail ∧ (q'.Loose ∨ ∃ l ∈ ls, LooseHeader l)) ↔
    ColonAhead ls tail ∧ ¬ (GrammarLine q.line ∧ ∀ l ∈ ls, GrammarHeader l) := by
  constructor
  · rintro (short | ⟨q', ok', same, ahead, loose⟩)
    · exact absurd short long
    · rw [← same, grammar_iff_not_loose ok']
      exact ⟨ahead, not_not_intro loose⟩
  · rintro ⟨ahead, bad⟩
    rw [grammar_iff_not_loose ok, not_not] at bad
    exact Or.inr ⟨q, ok, rfl, ahead, bad⟩

/-- The parser meets its grammar exactly on the buffers that it does not misread. -/
theorem meetsGrammar_iff (pr : ParsedRequest) (errno : ℕ) (buf : Text) :
    MeetsGrammar pr errno buf ↔ (pr.buf = none → ¬ Misread errno buf) := by
  by_cases fresh : pr.buf = none
  swap
  · have again : pr.parse errno buf = .ok (-1, pr) := by
      simp [ParsedRequest.parse, fresh, pure, Except.pure]
    exact iff_of_true (Or.inr ⟨pr, again⟩) fun h => absurd h fresh
  rw [imp_iff_right fresh]
  rcases head_or_reject buf with ⟨line, ls, tail, head⟩ | ⟨none_, reject⟩
  swap
  · exact iff_of_true (Or.inr ⟨pr, reject pr errno fresh⟩) fun misread => none_ misread.head
  have nul := head.nul
  rw [MeetsGrammar, head.parse_eq fresh errno, grammar_iff head, misread_iff head]
  rcases parseRequestLine_cases pr errno nul with ⟨pr₁, reject⟩ | short | ⟨q, ok, rfl⟩
  · refine iff_of_true (Or.inr ⟨pr₁, by rw [reject]; rfl⟩) ?_
    rintro (short | ⟨q, ok, rfl, -⟩)
    · rw [parseRequestLine_lastWord pr errno short nul] at reject
      cases reject
    · obtain ⟨pr₂, accepted, -⟩ := parseRequestLine_accepted pr errno ok
      rw [accepted] at reject
      cases reject
  · refine iff_of_false ?_ (not_not_intro (Or.inl short))
    rw [parseRequestLine_lastWord pr errno short nul]
    rintro (⟨pr', done, -⟩ | ⟨pr', done⟩)
    · cases done
    · cases done
  obtain ⟨pr₁, accepted, -⟩ := parseRequestLine_accepted pr errno ok
  have notShort : ¬ LastWord q.line := by
    intro short
    rw [parseRequestLine_lastWord pr errno short nul] at accepted
    cases accepted
  rw [accepted, misread_of_accepted ok notShort]
  by_cases ahead : ColonAhead ls tail
  · rw [and_iff_right ahead, not_not]
    constructor
    · rintro (⟨pr', -, good⟩ | ⟨pr', done⟩)
      · exact good
      · obtain ⟨-, ⟨⟩, done⟩ := bind_eq_ok.1 done
        obtain ⟨⟨ret, hs⟩, loop, done⟩ := bind_eq_ok.1 done
        obtain rfl := parseLines_ahead head.next head.proper ahead loop
        cases done
    · rintro ⟨good, goods⟩
      have colons : ∀ l ∈ ls, colon ∈ l := by
        intro l mem
        obtain ⟨name, value, rfl, -⟩ := goods l mem
        simp
      obtain ⟨hs, loop⟩ := parseLines_colons pr₁.headers head.next head.proper colons head.enough
      refine Or.inl ⟨{ pr₁ with headers := hs }, ?_, good, goods⟩
      simp only [bind, Except.bind, pure, Except.pure, ne_eq, not_true_eq_false, if_false, loop]
  · obtain ⟨hs, loop⟩ := parseLines_not_ahead pr₁.headers head.next head.proper ahead head.enough
    refine iff_of_true (Or.inr ⟨{ pr₁ with headers := hs }, ?_⟩) fun both => ahead both.1
    simp only [bind, Except.bind, pure, Except.pure, ne_eq, not_true_eq_false, if_false, loop]

/-- `A b:cc HTTP/`, without the two slashes and without a path, is accepted. -/
theorem not_meetsGrammar_colon : ¬ MeetsGrammar (ParsedRequest.create none) 0
    [65, 32, 98, 58, 99, 99, 32, 72, 84, 84, 80, 47, 13, 10, 13, 10] := by
  have accepted : ∃ pr, (ParsedRequest.create none).parse 0
      [65, 32, 98, 58, 99, 99, 32, 72, 84, 84, 80, 47, 13, 10, 13, 10] = .ok (0, pr) := ⟨_, rfl⟩
  obtain ⟨pr, accepted⟩ := accepted
  rintro (⟨-, -, line, ls, tail, split, -, -, grammar, -⟩ | ⟨pr', rejected⟩)
  · obtain ⟨method, gap, scheme, host, port, path, version, rfl, -⟩ := grammar
    have literal : [colon, slash, slash] <:+: [65, 32, 98, 58, 99, 99, 32, 72, 84, 84, 80, 47, 13, 10,
        13, 10] := by
      rw [split]
      exact ⟨method ++ sp :: (gap ++ scheme), _, by simp; rfl⟩
    exact absurd literal (by decide)
  · rw [accepted] at rejected
    cases rejected

end Main

end ComputerNetwork.Http
