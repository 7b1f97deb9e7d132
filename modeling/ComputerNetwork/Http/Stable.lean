import ComputerNetwork.Http.Rendering

/-!
# Parsing is stable under printing

The headers that the parser reads are `Chained`: behind a key that spans lines comes the header whose
key is the rest of it.  So what `expandAll` adds to the headers that are left (`keepLast`) has been
read before and is dropped again: `keepLast_expandAll`, on which `parse_unparse` rests.
-/

namespace ComputerNetwork.Http

open Lib ParsedRequest

/-! ## Chained headers -/

/-- Headers as the loop reads them: a key that spans lines is followed by its rest with the same
value, and a blank line in it ends the list. -/
def Chained : List (Text × Text) → Prop
  | [] => True
  | (k, v) :: rest => Chained rest ∧ ∀ l k', k = l ++ (crlf ++ k') → NoCrlf l →
      if crlf <+: k' then rest = [] else ∃ rest', rest = (k', v) :: rest'

theorem chained_expand {k v : Text} {rest : List (Text × Text)}
    (chained : Chained ((k, v) :: rest)) :
    ∃ more, (k, v) :: rest = expand (k, v) ++ more ∧ (crlf ++ crlf <:+: k → more = []) := by
  induction size : k.length using Nat.strong_induction_on generalizing k rest with
  | _ n ih =>
    rcases key_cases k with one | ⟨l, k', rfl, first⟩
    · refine ⟨rest, by rw [expand, suffixKeys_of_noCrlf one]; rfl, fun blank => ?_⟩
      exact absurd ((List.prefix_append crlf crlf).isInfix.trans blank) one
    · have next := chained.2 l k' rfl first
      by_cases here : crlf <+: k'
      · rw [if_pos here] at next
        exact ⟨[], by rw [expand, suffixKeys_line first, if_pos here, next]; rfl, fun _ => rfl⟩
      · rw [if_neg here] at next
        obtain ⟨rest', rfl⟩ := next
        have shorter : k'.length < n := by
          rw [← size]
          simp only [List.length_append, crlf, List.length_cons, List.length_nil]
          omega
        obtain ⟨more, split, last⟩ := ih k'.length shorter chained.1 rfl
        refine ⟨more, ?_, fun blank => last ((blank_line_iff first here).1 blank)⟩
        rw [split, expand, expand, suffixKeys_line first, if_neg here]
        rfl

theorem length_suffixKeys {k k' : Text} (mem : k' ∈ suffixKeys k) : k'.length < k.length := by
  induction k using suffixKeys.induct with
  | case1 a b rest same here => simp [suffixKeys, same, here] at mem
  | case2 a b rest same here ih =>
    rw [suffixKeys, if_pos same, if_neg here, List.mem_cons] at mem
    rw [List.length_cons, List.length_cons]
    rcases mem with rfl | mem
    · omega
    · have := ih mem
      omega
  | case3 a b rest other ih =>
    rw [suffixKeys, if_neg other] at mem
    exact (ih mem).trans (Nat.lt_succ_self _)
  | case4 k short =>
    rw [suffixKeys.eq_2 k short] at mem
    cases mem

theorem nodup_suffixKeys (k : Text) : (suffixKeys k).Nodup := by
  induction k using suffixKeys.induct with
  | case1 a b rest same here => simp [suffixKeys, same, here]
  | case2 a b rest same here ih =>
    rw [suffixKeys, if_pos same, if_neg here, List.nodup_cons]
    exact ⟨fun mem => lt_irrefl _ (length_suffixKeys mem), ih⟩
  | case3 a b rest other ih =>
    rw [suffixKeys, if_neg other]
    exact ih
  | case4 k short =>
    rw [suffixKeys.eq_2 k short]
    exact List.nodup_nil

theorem nodup_expand (p : Text × Text) : ((expand p).map Prod.fst).Nodup := by
  have keys : (expand p).map Prod.fst = p.1 :: suffixKeys p.1 := by
    simp [expand, Function.comp_def]
  rw [keys, List.nodup_cons]
  exact ⟨fun mem => lt_irrefl _ (length_suffixKeys mem), nodup_suffixKeys p.1⟩

/-- Printing the last headers and reading them back changes nothing. -/
theorem keepLast_expandAll {ps : List (Text × Text)} (chained : Chained ps) :
    keepLast (expandAll (keepLast ps)) = keepLast ps := by
  induction ps with
  | nil => rfl
  | cons p rest ih =>
    obtain ⟨k, v⟩ := p
    have same := ih chained.1
    by_cases later : k ∈ rest.map Prod.fst
    · rw [keepLast, if_pos later, same]
    · obtain ⟨more, split, last⟩ := chained_expand chained
      by_cases blank : crlf ++ crlf <:+: k
      · -- nothing is read behind a blank line, so the list is what its first header expands to
        rw [last blank, List.append_nil] at split
        have distinct : (((k, v) :: rest).map Prod.fst).Nodup := by
          rw [split]
          exact nodup_expand (k, v)
        rw [keepLast_of_nodup distinct, expandAll, if_pos blank, List.append_nil, ← split,
          keepLast_of_nodup distinct]
      · have tail : rest = (suffixKeys k).map (fun k' => (k', v)) ++ more := List.cons.inj split |>.2
        have keys : ∀ k', k' ∈ (expandAll (keepLast rest)).map Prod.fst ↔ k' ∈ rest.map Prod.fst := by
          intro k'
          rw [← mem_keys_keepLast, same, mem_keys_keepLast]
        have again : ∀ p ∈ (suffixKeys k).map (fun k' => (k', v)),
            p.1 ∈ (expandAll (keepLast rest)).map Prod.fst := by
          intro p mem
          rw [keys, tail, List.map_append]
          exact List.mem_append_left _ (List.mem_map_of_mem mem)
        have fresh : k ∉ ((suffixKeys k).map (fun k' => (k', v)) ++
            expandAll (keepLast rest)).map Prod.fst := by
          rw [List.map_append, List.mem_append, keys]
          rintro (mem | mem)
          · obtain ⟨p, hp, rfl⟩ := List.mem_map.1 mem
            exact later ((keys _).1 (again p hp))
          · exact later mem
        rw [keepLast, if_neg later, expandAll, if_neg blank, expand, List.cons_append, keepLast,
          if_neg fresh, keepLast_append again, same]

/-! ## The headers that are read -/

section Reads

variable {b : List UInt8} {cur : ℕ} {ps : List (Text × Text)}

theorem Reads.printable (run : Reads b cur ps) : ∀ h ∈ ps, Printable h ∧ 0 ∉ h.1 ∧ 0 ∉ h.2 := by
  induction run with
  | blank text => simp
  | @line cur l s k r v ps text some_ line split free value next ih =>
    intro h mem
    rcases List.mem_cons.1 mem with rfl | mem
    · obtain ⟨r', text', line'⟩ := of_valueAt value
      refine ⟨⟨free, fun begins => ?_, line'⟩, fun h => ?_, fun h => ?_⟩
      · exact no_crlf_start some_ line (split ▸ begins.trans (List.prefix_append ..))
      · exact (cstr_eq_ok.1 text).1 (split ▸ List.mem_append_left _ h)
      · exact (cstr_eq_ok.1 text').1 (List.mem_append_left _ h)
    · exact ih h mem

theorem Reads.chained (run : Reads b cur ps) : Chained ps := by
  induction run with
  | blank text => trivial
  | @line cur l s k r v ps text some_ line split free value next ih =>
    refine ⟨ih, ?_⟩
    rintro l' k' rfl first
    rw [List.append_assoc, List.append_assoc] at split
    obtain ⟨rfl, rfl⟩ := line_unique line first split
    have text' := cstr_next text
    have free' : colon ∉ k' := fun h => free (by simp [h])
    cases next with
    | @blank _ tail stop =>
      rw [text'] at stop
      have same := Except.ok.inj stop
      have here : crlf <+: k' := by
        rcases k' with _ | ⟨c, _ | ⟨d, k'⟩⟩
        · exact absurd (List.cons.inj same).1 (by decide)
        · exact absurd (List.cons.inj (List.cons.inj same).2).1 (by decide)
        · obtain ⟨rfl, more⟩ := List.cons.inj same
          obtain ⟨rfl, -⟩ := List.cons.inj more
          exact ⟨k', rfl⟩
      rw [if_pos here]
    | @line _ l₂ s₂ k₂ r₂ v₂ ps₂ text₂ some₂ line₂ split₂ free₂ value₂ next₂ =>
      rw [text'] at text₂
      have same := Except.ok.inj text₂
      obtain rfl := colon_unique free' free₂ (same.trans split₂)
      have here : ¬ crlf <+: k' := fun begins =>
        no_crlf_start some₂ line₂ (same ▸ begins.trans (List.prefix_append ..))
      have place : cur + l.length + 2 + k'.length + 2 = cur + (l ++ (crlf ++ k')).length + 2 := by
        simp only [List.length_append, crlf, List.length_cons, List.length_nil]
        omega
      rw [place, value] at value₂
      cases value₂
      rw [if_neg here]
      exact ⟨ps₂, rfl⟩

end Reads

/-! ## The fields that are read -/

section Fields

variable {q : Pieces} {errno : ℕ}

/-- The fields are parts of the line, but for the path of an address without one. -/
theorem infix_line (ok : q.Accepted errno) :
    ∀ t ∈ fieldTexts q.fields, t <:+: q.line ∨ t = [slash] := by
  obtain ⟨gap, method, gap', ⟨lead, protocol, d, slashes, authority, tail⟩, colons, host, port,
    version⟩ := q
  obtain rfl : authority = colons ++ (host ++ optional colon port) := ok.authority
  intro t mem
  simp only [fieldTexts, Pieces.fields, List.mem_append, List.mem_cons, List.not_mem_nil, or_false,
    Option.mem_toList] at mem
  simp only [Pieces.line, Address.text, Address.rest]
  rcases mem with (rfl | rfl | rfl | rfl | rfl) | mem
  · exact .inl ⟨gap, _, by simp; rfl⟩
  · exact .inl ⟨gap ++ method ++ sp :: (gap' ++ lead), _, by simp; rfl⟩
  · exact .inl ⟨gap ++ method ++ sp :: (gap' ++ lead ++ protocol ++ d :: (slashes ++ colons)), _,
      by simp; rfl⟩
  · cases tail with
    | none => exact .inr rfl
    | some x =>
      exact .inl ⟨gap ++ method ++ sp :: (gap' ++ lead ++ protocol ++ d :: (slashes ++ colons ++
        host ++ optional colon port)), _, by simp; rfl⟩
  · exact .inl ⟨gap ++ method ++ sp :: (gap' ++ lead ++ protocol ++ d :: (slashes ++ colons ++
      host ++ optional colon port ++ optional slash tail ++ [sp])), [], by simp⟩
  · obtain ⟨rfl, -⟩ := Option.filter_eq_some_iff.1 mem
    exact .inl ⟨gap ++ method ++ sp :: (gap' ++ lead ++ protocol ++ d :: (slashes ++ colons ++
      host ++ [colon])), _, by simp; rfl⟩

theorem wellformed_fields (ok : q.Accepted errno) : Wellformed q.fields := by
  have inAuthority : ∀ c ∈ q.address.authority, c ≠ slash ∧ c ≠ sp := by
    intro c hc
    refine ⟨fun h => ok.shape.authority (h ▸ hc), (ok.shape.clean c ?_).2⟩
    simp [Address.text, Address.rest, hc]
  refine ⟨ok.method_ne, ok.method, ok.shape.protocol_ne, fun c hc => ?_, ok.host_ne, fun c hc => ?_,
    fun t mem => ?_, ⟨_, rfl, ?_, ?_⟩, ok.version, nul_renderLine fun t mem => ?_⟩
  · have inside : c ∈ q.address.text := by simp [Address.text, show c ∈ q.address.protocol from hc]
    exact ⟨(ok.shape.protocol c hc).1, (ok.shape.protocol c hc).2, (ok.shape.clean c inside).2⟩
  · have inside : c ∈ q.address.authority := by
      rw [ok.authority]
      simp [show c ∈ q.host from hc]
    exact ⟨fun h => ok.host (h ▸ hc), inAuthority c inside⟩
  · obtain ⟨given, some_⟩ := Option.filter_eq_some_iff.1 mem
    refine ⟨by simpa using some_, fun c hc => inAuthority c ?_⟩
    rw [ok.authority, given]
    simp [hc]
  · rcases given : q.address.tail with _ | x
    · simp
    · refine fun h => (ok.shape.clean sp ?_).2 rfl
      rw [Option.getD_some] at h
      simp [Address.text, Address.rest, given, h]
  · rcases given : q.address.tail with _ | x
    · simp
    · exact ok.single x given
  · rcases infix_line ok t mem with inside | rfl
    · exact fun h => ok.nul (inside.subset h)
    · decide

theorem noCrlf_fields (ok : q.Accepted errno) (line : NoCrlf q.line) :
    NoCrlf (renderLine q.fields) := by
  refine noCrlf_renderLine (fun t mem => ?_) ⟨_, rfl⟩
  rcases infix_line ok t mem with inside | rfl
  · exact line.mono inside
  · decide

end Fields

/-! ## The round trip -/

/-- A request that was accepted is printed, where `ParsedRequest_totalLen` allows it, as a text that
is accepted again, with the same fields and the same headers in the same order. -/
theorem parse_unparse {fresh : Option ℕ} {errno : ℕ} {buf : Text} {pr : ParsedRequest}
    (parsed : (ParsedRequest.create fresh).parse errno buf = .ok (0, pr)) :
    ∃ f n, pr.fields = .ok f ∧ pr.totalLen = .ok n ∧
      (n ≤ 65535 → ∀ out : List UInt8, n ≤ out.length → ∃ text : Text, text.length = n ∧
        pr.unparse out = .ok (0, text ++ out.drop n) ∧
        ∀ fresh' errno', errno' ≠ eINVAL →
          ∃ pr', (ParsedRequest.create fresh').parse errno' text = .ok (0, pr') ∧
            pr'.fields = .ok f ∧ pr'.headers.live = pr.headers.live) := by
  obtain ⟨q, ls, tail, ps, read, line, proper, ok, run, assigned, fields, headers⟩ :=
    of_parse rfl parsed
  have live : pr.headers.live = keepLast ps := by
    rw [headers]
    exact Headers.live_setAll ps
  have shown : ∀ h ∈ pr.headers.live, Printable h ∧ 0 ∉ h.1 ∧ 0 ∉ h.2 := by
    rw [live]
    exact fun h mem => run.printable h (mem_of_mem_keepLast mem)
  have wf := wellformed_fields ok
  refine ⟨q.fields, (render q.fields pr.headers.live).length, fields, totalLen_eq assigned fields,
    fun small out fits => ⟨render q.fields pr.headers.live, rfl, unparse_eq assigned fields fits,
      fun fresh' errno' clear => ?_⟩⟩
  obtain ⟨pr', parsed', fields', headers'⟩ := parse_render wf (noCrlf_fields ok line)
    (fun h mem => (shown h mem).1) (nul_render wf.nul fun h mem => (shown h mem).2) small clear fresh'
  refine ⟨pr', parsed', fields', ?_⟩
  rw [headers', Headers.live_setAll, live, keepLast_expandAll run.chained]

/-- `A b://c/ HTTP/` with the header lines `x` and `y: z`: the key of the first spans both. -/
theorem parse_unparse_lines :
    ∃ pr f text, (ParsedRequest.create none).parse 0 [65, 32, 98, 58, 47, 47, 99, 47, 32, 72, 84, 84,
        80, 47, 13, 10, 120, 13, 10, 121, 58, 32, 122, 13, 10, 13, 10] = .ok (0, pr) ∧
      pr.fields = .ok f ∧ pr.headers.live = [([120, 13, 10, 121], [122]), ([121], [122])] ∧
      pr.unparse (List.replicate 33 0) = .ok (0, text) ∧
      ∃ pr', (ParsedRequest.create none).parse 0 text = .ok (0, pr') ∧ pr'.fields = .ok f ∧
        pr'.headers.live = pr.headers.live := by
  have parsed : (ParsedRequest.create none).parse 0 [65, 32, 98, 58, 47, 47, 99, 47, 32, 72, 84, 84,
      80, 47, 13, 10, 120, 13, 10, 121, 58, 32, 122, 13, 10, 13, 10] = .ok (0, {
        method := some 0, protocol := some 2, host := some 6, port := none, path := some [47],
        version := some 9, buf := some [65, 0, 98, 0, 47, 47, 99, 0, 0, 72, 84, 84, 80, 47, 0],
        headers := ⟨[⟨some [120, 13, 10, 121], [122]⟩, ⟨some [121], [122]⟩], 8, by decide⟩ }) := rfl
  obtain ⟨f, n, fields, total, print⟩ := parse_unparse parsed
  obtain rfl : 33 = n := Except.ok.inj total
  obtain ⟨text, size, printed, again⟩ := print (by decide) (List.replicate 33 0) (by decide)
  rw [List.drop_eq_nil_of_le (by decide), List.append_nil] at printed
  exact ⟨_, f, text, parsed, fields, rfl, printed, again none 0 (by decide)⟩

end ComputerNetwork.Http
