import ComputerNetwork.Http.HandleClient
import ComputerNetwork.Http.HeaderValues
import ComputerNetwork.Http.ReadBack

/-!
# Which requests are rewritten as they should be

The parser sets a header for each line, with the lines without a colon in the key of the next one that
has a colon; the proxy prints what these settings leave.  `forwarded_iff` says for every request that is
accepted when that is the head the proxy is to send: `PassesOn` is the condition on the header lines of
the client, and a NUL has to follow the block.
-/

namespace ComputerNetwork.Http

open Lib ParsedRequest

/-! ## The condition -/

/-- The header lines as headers, each with its key and the text behind the colon.  Lines without a colon
belong to the key of the next line that has one; the last ones, with no such line behind them, are left
over. -/
def cutHeaders : List Text → List (Text × Text) × List Text
  | [] => ([], [])
  | l :: ls =>
    if colon ∈ l then ((headerName l, behindColon l) :: (cutHeaders ls).1, (cutHeaders ls).2)
    else match (cutHeaders ls).1 with
      | [] => ([], l :: (cutHeaders ls).2)
      | h :: hs => ((l ++ (crlf ++ h.1), h.2) :: hs, (cutHeaders ls).2)

/-- The headers other than the two that are set. -/
def otherHeaders (hs : List (Text × Text)) : List (Text × Text) :=
  hs.filter fun h => h.1 ≠ connectionKey ∧ h.1 ≠ hostKey

/-- Headers of which the rewriting passes on all but `Connection` and `Host`: these two are spelled as
the proxy spells them, and the others have a space behind the colon and keys that do not meet. -/
structure PassesOn (hs : List (Text × Text)) : Prop where
  spelled : ∀ h ∈ hs, ∀ key ∈ [connectionKey, hostKey], SameName (lastLine h.1) key → h.1 = key
  spaced : ∀ h ∈ otherHeaders hs, h.2.head? = some sp
  separate : Separate ((otherHeaders hs).map Prod.fst)

/-- The request in `buf`, parsed as `pr`, is one that the proxy rewrites as it should.  Lines that are
left over belong to a key that reaches over the blank line: the head that is printed then ends within
this key, in front of the two headers that are set, and the headers in front of it have to do. -/
def Rewritable (buf : Text) (pr : ParsedRequest) : Prop :=
  (pr.text pr.version = .ok http10 ∨ pr.text pr.version = .ok http11) ∧
    if (cutHeaders (headerLines buf)).2 = [] then PassesOn (cutHeaders (headerLines buf)).1
    else ∃ host, pr.text pr.host = .ok host ∧
      LinesRewritten (headerLines buf) host (printedLines (otherHeaders pr.headers.live))

/-! ## Headers that are passed on -/

/-- `o` is the header that the parser sets for the header `h` of the client. -/
structure SetFor (h o : Text × Text) : Prop where
  key : h.1 = o.1
  value : (∃ c, h.2 = c :: o.2) ∨ h.2 = [] ∧ o.2.head? = some 10

section Passes

variable {H O : List (Text × Text)} {h o : Text × Text} {host key : Text} {ls T : List Text}

theorem SetFor.printed_iff (set : SetFor h o) : printed o = h ↔ h.2.head? = some sp := by
  obtain ⟨k, r⟩ := h
  obtain ⟨key, ⟨c, rfl⟩ | ⟨rfl, first⟩⟩ := set
  · simp only [printed, ← key, List.head?_cons, Prod.mk.injEq, List.cons.injEq, Option.some.injEq,
      true_and, and_true]
    exact eq_comm
  · simp [printed]

theorem keys_of_setFor (pairs : List.Forall₂ SetFor H O) : H.map Prod.fst = O.map Prod.fst := by
  induction pairs with
  | nil => rfl
  | cons first rest ih => rw [List.map_cons, List.map_cons, first.key, ih]

theorem exists_key_of_setFor (pairs : List.Forall₂ SetFor H O) (mem : o ∈ O) :
    ∃ h ∈ H, h.1 = o.1 := by
  have inside : o.1 ∈ H.map Prod.fst := by
    rw [keys_of_setFor pairs]
    exact List.mem_map_of_mem mem
  exact List.mem_map.1 inside

theorem printed_of_setFor (pairs : List.Forall₂ SetFor H O) :
    O.map printed = H ↔ ∀ h ∈ H, h.2.head? = some sp := by
  induction pairs with
  | nil => simp
  | cons first rest ih =>
    rw [List.map_cons, List.cons.injEq, first.printed_iff, ih, List.forall_mem_cons]

theorem otherHeaders_of_set (set : h.1 ∈ [connectionKey, hostKey]) :
    otherHeaders (h :: H) = otherHeaders H := by
  apply List.filter_cons_of_neg
  simpa [or_iff_not_imp_left] using set

theorem otherHeaders_of_other (other : h.1 ∉ [connectionKey, hostKey]) :
    otherHeaders (h :: H) = h :: otherHeaders H := by
  apply List.filter_cons_of_pos
  simpa using other

theorem otherHeaders_setFor (pairs : List.Forall₂ SetFor H O) :
    List.Forall₂ SetFor (otherHeaders H) (otherHeaders O) := by
  induction pairs with
  | nil => exact .nil
  | @cons h o H O first rest ih =>
    by_cases set : h.1 ∈ [connectionKey, hostKey]
    · rw [otherHeaders_of_set set, otherHeaders_of_set (first.key ▸ set)]
      exact ih
    · rw [otherHeaders_of_other set, otherHeaders_of_other (first.key ▸ set)]
      exact .cons first ih

theorem setKey_line : ∀ key ∈ [connectionKey, hostKey], NoCrlf key := by decide

theorem setKey_unique : ∀ key ∈ [connectionKey, hostKey], ∀ key' ∈ [connectionKey, hostKey],
    SameName key key' → key = key' := by decide

/-- A header with another key is not taken for one of the two. -/
theorem unnamed_of_other (spelled : ∀ key ∈ [connectionKey, hostKey],
    SameName (lastLine h.1) key → h.1 = key) (other : h.1 ∉ [connectionKey, hostKey]) :
    ∀ key ∈ [connectionKey, hostKey], ¬ SameName (lastLine h.1) key := by
  intro key mem same
  apply other
  rwa [spelled key mem same]

theorem otherHeaders_expandAll (clean : ∀ o ∈ O, ¬ crlf ++ crlf <:+: o.1)
    (spelled : ∀ o ∈ O, ∀ key ∈ [connectionKey, hostKey], SameName (lastLine o.1) key → o.1 = key) :
    otherHeaders (expandAll O) = expandAll (otherHeaders O) := by
  induction O with
  | nil => rfl
  | cons o O ih =>
    have single := clean o (List.mem_cons_self ..)
    have behind := ih (fun o mem => clean o (List.mem_cons_of_mem _ mem))
      fun o mem => spelled o (List.mem_cons_of_mem _ mem)
    rw [expandAll, if_neg single]
    by_cases set : o.1 ∈ [connectionKey, hostKey]
    · rw [expand, suffixKeys_of_noCrlf (setKey_line _ set), List.map_nil, List.singleton_append,
        otherHeaders_of_set set, otherHeaders_of_set set]
      exact behind
    · have names := unnamed_of_other (spelled o (List.mem_cons_self ..)) set
      have all : ∀ q ∈ expand o, q.1 ∉ [connectionKey, hostKey] := by
        intro q mem
        rcases List.mem_cons.1 mem with rfl | mem
        · exact set
        · obtain ⟨k, rest, rfl⟩ := List.mem_map.1 mem
          obtain ⟨t, split⟩ := exists_of_mem_suffixKeys rest
          -- the rest of a key has the same last line
          intro set'
          apply names k set'
          rw [split, lastLine_texts, lastLine_of_noCrlf (setKey_line k set')]
          rfl
      have whole : otherHeaders (expand o) = expand o := by
        apply List.filter_eq_self.2
        intro q mem
        simpa using all q mem
      rw [otherHeaders_of_other set, expandAll, if_neg single, ← behind]
      exact (List.filter_append ..).trans (congrArg (· ++ otherHeaders (expandAll O)) whole)

theorem otherLines_linesOf (whole : ∀ h ∈ H, Unbroken h)
    (spelled : ∀ h ∈ H, ∀ key ∈ [connectionKey, hostKey], SameName (lastLine h.1) key → h.1 = key) :
    otherLines (linesOf H) = linesOf (otherHeaders H) := by
  induction H with
  | nil => rfl
  | cons h H ih =>
    have wh := whole h (List.mem_cons_self ..)
    have behind := ih (fun h mem => whole h (List.mem_cons_of_mem _ mem))
      fun h mem => spelled h (List.mem_cons_of_mem _ mem)
    have split : otherLines (linesOf (h :: H)) =
        otherLines (lines (h.1 ++ colon :: h.2)) ++ linesOf (otherHeaders H) := by
      rw [← behind, linesOf_cons]
      exact List.filter_append ..
    rw [split]
    by_cases set : h.1 ∈ [connectionKey, hostKey]
    · have one := setKey_line _ set
      have single := lines_of_noCrlf (one.cons wh.value (by decide : colon ≠ 13) (by decide))
      have named : Named h.1 (h.1 ++ colon :: h.2) := by
        rw [named_header wh.key wh.value (by simp [single]), lastLine_of_noCrlf one]
        exact ⟨rfl, rfl⟩
      have dropped : otherLines [h.1 ++ colon :: h.2] = [] := by
        apply List.filter_cons_of_neg
        rcases List.mem_cons.1 set with same | set
        · simp [← same, named]
        · simp [← List.mem_singleton.1 set, named]
      rw [otherHeaders_of_set set, single, dropped, List.nil_append]
    · have kept : otherLines (lines (h.1 ++ colon :: h.2)) = lines (h.1 ++ colon :: h.2) := by
        apply List.filter_eq_self.2
        intro l mem
        have unnamed : ∀ key ∈ [connectionKey, hostKey], ¬ Named key l := fun key set' named =>
          unnamed_of_other (spelled h (List.mem_cons_self ..)) set key set'
            ((named_header wh.key wh.value mem).1 named).2
        exact decide_eq_true ⟨unnamed _ (by simp), unnamed _ (by simp)⟩
      rw [otherHeaders_of_other set, linesOf_cons, kept]

theorem named_headerText (free : colon ∉ h.1) : Named key (headerText h) ↔ SameName h.1 key := by
  rw [Named, headerName_headerText free]
  simp [headerText]

/-- A line behind others is the only one of its name if none of the others has it. -/
theorem single_iff {l value : Text} (read : headerValue l = value) :
    (∃ l', T.filter (Named key ·) ++ [l] = [l'] ∧ headerValue l' = value) ↔
      ∀ l ∈ T, ¬ Named key l := by
  have none_ : (∀ l ∈ T, ¬ Named key l) ↔ T.filter (Named key ·) = [] := by
    simp [List.filter_eq_nil_iff]
  rw [none_]
  constructor
  · rintro ⟨l', one, -⟩
    have size := congrArg List.length one
    rw [List.length_append, List.length_singleton, List.length_singleton] at size
    exact List.length_eq_zero_iff.1 (by omega)
  · intro nothing
    exact ⟨l, by rw [nothing, List.nil_append], read⟩

/-- The two lines that are set behind others are right if the others are those of the client. -/
theorem linesRewritten_iff_others (visible : host.dropWhile (· = sp) = host) :
    LinesRewritten ls host
        (T ++ [headerText (connectionKey, closeValue), headerText (hostKey, host)]) ↔
      (∀ key ∈ [connectionKey, hostKey], ∀ l ∈ T, ¬ Named key l) ∧ T = otherLines ls := by
  have connection : ∀ key, Named key (headerText (connectionKey, closeValue)) ↔
      SameName connectionKey key := fun key =>
    named_headerText (by decide : colon ∉ connectionKey)
  have host_ : ∀ key, Named key (headerText (hostKey, host)) ↔ SameName hostKey key := fun key =>
    named_headerText (by decide : colon ∉ hostKey)
  have self : ∀ key, SameName key key := fun _ => rfl
  have other : ¬ SameName connectionKey hostKey := by decide
  have other' : ¬ SameName hostKey connectionKey := by decide
  have first : (T ++ [headerText (connectionKey, closeValue), headerText (hostKey, host)]).filter
      (Named connectionKey ·) =
        T.filter (Named connectionKey ·) ++ [headerText (connectionKey, closeValue)] := by
    simp [List.filter_append, connection, host_, self, other']
  have second : (T ++ [headerText (connectionKey, closeValue), headerText (hostKey, host)]).filter
      (Named hostKey ·) = T.filter (Named hostKey ·) ++ [headerText (hostKey, host)] := by
    simp [List.filter_append, connection, host_, self, other]
  have rest : otherLines (T ++ [headerText (connectionKey, closeValue), headerText (hostKey, host)]) =
      otherLines T := by
    simp [otherLines, List.filter_append, connection, host_, self]
  have value : headerValue (headerText (hostKey, host)) = host := by
    rw [headerValue_headerText (by decide : colon ∉ hostKey), visible]
  have kept : (∀ key ∈ [connectionKey, hostKey], ∀ l ∈ T, ¬ Named key l) → otherLines T = T := by
    intro unnamed
    exact List.filter_eq_self.2 fun l mem =>
      decide_eq_true ⟨unnamed _ (by simp) l mem, unnamed _ (by simp) l mem⟩
  constructor
  · rintro ⟨one, one', others⟩
    rw [first, single_iff (by decide)] at one
    rw [second, single_iff value] at one'
    have unnamed : ∀ key ∈ [connectionKey, hostKey], ∀ l ∈ T, ¬ Named key l := by
      simpa using ⟨one, one'⟩
    rw [rest, kept unnamed] at others
    exact ⟨unnamed, others⟩
  · rintro ⟨unnamed, others⟩
    refine ⟨?_, ?_, ?_⟩
    · rw [first, single_iff (by decide)]
      exact unnamed _ (by simp)
    · rw [second, single_iff value]
      exact unnamed _ (by simp)
    · rw [rest, kept unnamed, others]

theorem otherHeaders_keepLast (ps : List (Text × Text)) :
    otherHeaders (keepLast ps) = keepLast (otherHeaders ps) :=
  keepLast_filter (fun k => decide (k ≠ connectionKey ∧ k ≠ hostKey)) ps

theorem unbroken_printed {ps : List (Text × Text)} (whole : ∀ p ∈ ps, Unbroken p) :
    ∀ s ∈ (otherHeaders (keepLast ps)).map printed, Unbroken s := by
  intro s mem
  obtain ⟨p, inside, rfl⟩ := List.mem_map.1 mem
  exact (whole p (mem_of_mem_keepLast (List.mem_of_mem_filter inside))).printed

/-- Headers that can be taken for one of the two, in the lines that are printed, are spelled so. -/
theorem spelled_of_unnamed {ps : List (Text × Text)} (keys : h.1 ∈ ps.map Prod.fst)
    (whole : ∀ p ∈ ps, Unbroken p) (unnamed : ∀ key ∈ [connectionKey, hostKey],
      ∀ l ∈ linesOf ((otherHeaders (keepLast ps)).map printed), ¬ Named key l) :
    ∀ key ∈ [connectionKey, hostKey], SameName (lastLine h.1) key → h.1 = key := by
  intro key set same
  by_contra different
  obtain ⟨p, mem, again⟩ := List.mem_map.1 (mem_keys_keepLast.2 keys)
  have other : p.1 ∉ [connectionKey, hostKey] := by
    intro set'
    rw [again] at set'
    rw [lastLine_of_noCrlf (setKey_line _ set')] at same
    exact different (setKey_unique _ set' _ set same)
  have mem' : printed p ∈ (otherHeaders (keepLast ps)).map printed :=
    List.mem_map_of_mem (List.mem_filter.2 ⟨mem, by simpa using other⟩)
  refine (named_linesOf (unbroken_printed whole)).1 (unnamed key set) _ mem' ?_
  rw [printed, again]
  exact same

/-- What is printed for the headers that are set is right exactly if they are passed on. -/
theorem linesRewritten_iff (pairs : List.Forall₂ SetFor H O) (whole : ∀ h ∈ H, Unbroken h)
    (wholeO : ∀ p ∈ expandAll O, Unbroken p) (visible : host.dropWhile (· = sp) = host) :
    LinesRewritten (linesOf H) host (linesOf ((otherHeaders (keepLast (expandAll O))).map printed) ++
        [headerText (connectionKey, closeValue), headerText (hostKey, host)]) ↔ PassesOn H := by
  have keys := keys_of_setFor pairs
  have keys' := keys_of_setFor (otherHeaders_setFor pairs)
  have clean : ∀ o ∈ O, ¬ crlf ++ crlf <:+: o.1 := by
    intro o mem
    obtain ⟨h, mem, same⟩ := exists_key_of_setFor pairs mem
    exact same ▸ (whole h mem).blank
  have clean' : ∀ o ∈ otherHeaders O, ¬ crlf ++ crlf <:+: o.1 := fun o mem =>
    clean o (List.mem_of_mem_filter mem)
  have left : (∀ h ∈ H, ∀ key ∈ [connectionKey, hostKey], SameName (lastLine h.1) key → h.1 = key) →
      otherHeaders (keepLast (expandAll O)) = keepLast (expandAll (otherHeaders O)) := by
    intro spelled
    rw [otherHeaders_keepLast, otherHeaders_expandAll clean]
    intro o mem
    obtain ⟨h, mem, same⟩ := exists_key_of_setFor pairs mem
    exact same ▸ spelled h mem
  rw [linesRewritten_iff_others visible]
  constructor
  · rintro ⟨unnamed, same⟩
    have spelled : ∀ h ∈ H, ∀ key ∈ [connectionKey, hostKey],
        SameName (lastLine h.1) key → h.1 = key := by
      intro h mem
      apply spelled_of_unnamed _ wholeO unnamed
      rw [keys_expandAll clean, ← keys]
      exact List.mem_flatMap.2 ⟨h.1, List.mem_map_of_mem mem, List.mem_cons_self ..⟩
    rw [otherLines_linesOf whole spelled] at same
    have headers : (keepLast (expandAll (otherHeaders O))).map printed = otherHeaders H := by
      rw [← left spelled]
      exact eq_of_linesOf (unbroken_printed wholeO)
        (fun h mem => whole h (List.mem_of_mem_filter mem)) same
    have separate : Separate ((otherHeaders O).map Prod.fst) := by
      apply separate_of_keys clean'
      rw [← keys', ← headers, List.map_map]
      rfl
    rw [keepLast_expandAll_of_separate clean' separate,
      printed_of_setFor (otherHeaders_setFor pairs)] at headers
    exact ⟨spelled, headers, keys' ▸ separate⟩
  · rintro ⟨spelled, spaced, separate⟩
    rw [left spelled, keepLast_expandAll_of_separate clean' (keys' ▸ separate),
      (printed_of_setFor (otherHeaders_setFor pairs)).2 spaced, otherLines_linesOf whole spelled]
    refine ⟨fun key set => ?_, rfl⟩
    apply (named_linesOf fun h mem => whole h (List.mem_of_mem_filter mem)).2
    intro h mem same
    obtain ⟨inside, other⟩ := List.mem_filter.1 mem
    rw [spelled h inside key set same] at other
    have other := of_decide_eq_true other
    rcases List.mem_cons.1 set with rfl | set
    · exact other.1 rfl
    · exact other.2 (List.mem_singleton.1 set)

end Passes

/-! ## What is read -/

section Reads

variable {b : List UInt8} {cur : ℕ} {ps : List (Text × Text)} {ls : List Text} {tail : Text}

/-- The headers that are cut from lines are made of them. -/
theorem cutHeaders_lines (proper : Proper ls) :
    linesOf (cutHeaders ls).1 ++ (cutHeaders ls).2 = ls ∧ ∀ h ∈ (cutHeaders ls).1, Unbroken h := by
  induction ls with
  | nil => exact ⟨rfl, by simp [cutHeaders]⟩
  | cons l ls ih =>
    obtain ⟨some_, line⟩ := proper l (List.mem_cons_self ..)
    obtain ⟨same, whole⟩ := ih fun l' mem => proper l' (List.mem_cons_of_mem _ mem)
    rw [cutHeaders]
    split_ifs with found
    · obtain ⟨k, r, rfl, free⟩ := List.eq_append_cons_of_mem found
      rw [headerName_split free, behindColon_split free]
      have key : NoCrlf k := line.mono (List.prefix_append k _).isInfix
      have value : NoCrlf r :=
        line.mono ((List.suffix_cons colon r).trans (List.suffix_append k _)).isInfix
      refine ⟨?_, fun h mem => ?_⟩
      · rw [linesOf_cons, lines_of_noCrlf line, List.append_assoc, same]
        rfl
      · rcases List.mem_cons.1 mem with rfl | mem
        · exact ⟨⟨free, fun start => key start.isInfix, value⟩, fun blank =>
            key ((List.prefix_append crlf crlf).isInfix.trans blank)⟩
        · exact whole h mem
    · rcases cut : (cutHeaders ls).1 with _ | ⟨h, hs⟩
      · rw [cut] at same
        exact ⟨congrArg (l :: ·) same, by simp⟩
      · rw [cut] at same whole
        have wh := whole h (List.mem_cons_self ..)
        refine ⟨?_, fun h' mem => ?_⟩
        · have split : l ++ (crlf ++ h.1) ++ colon :: h.2 = l ++ (crlf ++ (h.1 ++ colon :: h.2)) := by
            simp
          rw [linesOf_cons] at same ⊢
          rw [split, lines_append line, List.cons_append, List.cons_append, same]
        · rcases List.mem_cons.1 mem with rfl | mem
          · refine ⟨⟨?_, no_crlf_start some_ line, wh.value⟩, fun blank =>
              wh.blank ((blank_line_iff line wh.start).1 blank)⟩
            simp only [List.mem_append, not_or]
            exact ⟨found, by decide, wh.key⟩
          · exact whole h' (List.mem_cons_of_mem _ mem)

/-- If no lines are left over, one header is set for each that is cut, and one for each rest of its
key. -/
theorem reads_cut (run : Reads b cur ps) (text : cstr b cur = .ok (linesText tail ls))
    (proper : Proper ls) (none_ : (cutHeaders ls).2 = []) :
    ∃ O, List.Forall₂ SetFor (cutHeaders ls).1 O ∧ ps = expandAll O := by
  induction run generalizing ls with
  | blank blank =>
    cases ls with
    | nil => exact ⟨[], .nil, rfl⟩
    | cons l ls =>
      obtain ⟨some_, first⟩ := proper l (List.mem_cons_self ..)
      exact absurd ⟨_, Except.ok.inj (blank.symm.trans text)⟩ (no_crlf_start some_ first)
  | @line cur l s k r v ps read some_ first split free value next ih =>
    cases ls with
    | nil => exact absurd ⟨_, Except.ok.inj (text.symm.trans read)⟩ (no_crlf_start some_ first)
    | cons l' ls =>
      obtain ⟨rfl, rfl⟩ := line_unique first (proper l' (List.mem_cons_self ..)).2
        (Except.ok.inj (read.symm.trans text))
      have proper' : Proper ls := fun l' mem => proper l' (List.mem_cons_of_mem _ mem)
      rw [cutHeaders] at none_ ⊢
      split_ifs at none_ ⊢ with found
      · obtain ⟨O, pairs, rfl⟩ := ih (cstr_next text) proper' none_
        obtain ⟨k', t, rfl, free'⟩ := List.eq_append_cons_of_mem found
        have cut : k' ++ colon :: (t ++ (crlf ++ linesText tail ls)) = k ++ colon :: r := by
          rw [← split]
          simp
        obtain rfl := colon_unique free' free cut
        have key : NoCrlf k' := first.mono (List.prefix_append k' _).isInfix
        have stored := stored_of_valueAt read free
          (first.mono ((List.suffix_cons colon t).trans (List.suffix_append k' _)).isInfix) value
        refine ⟨(k', v) :: O, .cons ⟨headerName_split free, stored⟩ pairs, ?_⟩
        have single : ¬ crlf ++ crlf <:+: k' := fun blank =>
          key ((List.prefix_append crlf crlf).isInfix.trans blank)
        rw [expandAll, if_neg single, expand, suffixKeys_of_noCrlf key]
        rfl
      · rcases cut : (cutHeaders ls).1 with _ | ⟨h, hs⟩
        · rw [cut] at none_
          cases none_
        · rw [cut] at none_
          have whole := (cutHeaders_lines proper').2 h (by simp [cut])
          obtain ⟨O, pairs, rfl⟩ := ih (cstr_next text) proper' none_
          rw [cut] at pairs
          cases pairs with
          | @cons _ o _ O set pairs =>
            -- the key goes on with that of the next line
            have chained := (Reads.line read some_ first split free value next).chained
            obtain ⟨d, rfl⟩ := key_reaches found free split
            have rest := chained.2 l d rfl first
            have single : ¬ crlf ++ crlf <:+: o.1 := set.key ▸ whole.blank
            have start : ¬ crlf <+: o.1 := set.key ▸ whole.start
            have head : expandAll (o :: O) = o :: ((suffixKeys o.1).map (fun k => (k, o.2)) ++
                expandAll O) := by
              rw [expandAll, if_neg single]
              rfl
            split_ifs at rest with here
            · rw [head] at rest
              cases rest
            · obtain ⟨rest', rest⟩ := rest
              rw [head] at rest
              obtain ⟨rfl, -⟩ := List.cons.inj rest
              refine ⟨(l ++ (crlf ++ d), v) :: O, .cons ⟨?_, set.value⟩ pairs, ?_⟩
              · rw [set.key]
              · have single' : ¬ crlf ++ crlf <:+: l ++ (crlf ++ d) := fun blank =>
                  single ((blank_line_iff first start).1 blank)
                rw [head, expandAll, if_neg single', expand, suffixKeys_line first, if_neg start]
                rfl

/-- Otherwise the key of the last header reaches over the blank line. -/
theorem reads_over (run : Reads b cur ps) (text : cstr b cur = .ok (linesText tail ls))
    (proper : Proper ls) (some_ : (cutHeaders ls).2 ≠ []) :
    ∃ qs p, ps = qs ++ [p] ∧ crlf ++ crlf <:+: p.1 := by
  induction run generalizing ls with
  | blank blank =>
    cases ls with
    | nil => exact absurd rfl some_
    | cons l ls =>
      obtain ⟨some_, first⟩ := proper l (List.mem_cons_self ..)
      exact absurd ⟨_, Except.ok.inj (blank.symm.trans text)⟩ (no_crlf_start some_ first)
  | @line cur l s k r v ps read line_ first split free value next ih =>
    cases ls with
    | nil => exact absurd ⟨_, Except.ok.inj (text.symm.trans read)⟩ (no_crlf_start line_ first)
    | cons l' ls =>
      obtain ⟨rfl, rfl⟩ := line_unique first (proper l' (List.mem_cons_self ..)).2
        (Except.ok.inj (read.symm.trans text))
      have proper' : Proper ls := fun l' mem => proper l' (List.mem_cons_of_mem _ mem)
      by_cases more : (cutHeaders ls).2 = []
      · have found : colon ∉ l := by
          intro found
          rw [cutHeaders, if_pos found] at some_
          exact some_ more
        have last : ls = [] := by
          rw [cutHeaders, if_neg found] at some_
          rcases cut : (cutHeaders ls).1 with _ | ⟨h, hs⟩
          · rw [← (cutHeaders_lines proper').1, cut, more]
            rfl
          · rw [cut] at some_
            exact absurd more some_
        subst last
        have chained := (Reads.line read line_ first split free value next).chained
        obtain ⟨d, rfl⟩ := key_reaches found free split
        have rest := chained.2 l d rfl first
        have stop : ps = [] := by
          cases next with
          | blank => rfl
          | line read' some' first' =>
            have blank := Except.ok.inj ((cstr_next text).symm.trans read')
            exact absurd ⟨_, blank⟩ (no_crlf_start some' first')
        subst stop
        split_ifs at rest with here
        · obtain ⟨y, rfl⟩ := here
          exact ⟨[], _, rfl, l, y, by simp⟩
        · obtain ⟨rest', rest⟩ := rest
          cases rest
      · obtain ⟨qs, p, rfl, blank⟩ := ih (cstr_next text) proper' more
        exact ⟨(k, v) :: qs, p, rfl, blank⟩

end Reads

/-! ## The head that is printed -/

section Printed

variable {S O ps : List (Text × Text)} {host : Text}

theorem rewriteHeaders_eq (host : Text) (ps : List (Text × Text)) : rewriteHeaders host ps =
    otherHeaders (keepLast ps) ++ [(connectionKey, closeValue), (hostKey, host)] := by
  have two : ps ++ [(connectionKey, closeValue), (hostKey, host)] =
      (ps ++ [(connectionKey, closeValue)]) ++ [(hostKey, host)] := by simp
  have other : connectionKey ≠ hostKey := by decide
  rw [rewriteHeaders, two, keepLast_snoc, keepLast_snoc, List.filter_append, List.filter_filter]
  simp [otherHeaders, other, Bool.and_comm]

theorem unbroken_expandAll (printable : ∀ p ∈ expandAll O, Printable p)
    (clean : ∀ o ∈ O, ¬ crlf ++ crlf <:+: o.1) : ∀ p ∈ expandAll O, Unbroken p := by
  intro p mem
  refine ⟨printable p mem, fun blank => ?_⟩
  have key : p.1 ∈ (expandAll O).map Prod.fst := List.mem_map_of_mem mem
  rw [keys_expandAll clean] at key
  obtain ⟨k, inside, key⟩ := List.mem_flatMap.1 key
  obtain ⟨o, mem, rfl⟩ := List.mem_map.1 inside
  rcases List.mem_cons.1 key with same | rest
  · exact clean o mem (same ▸ blank)
  · obtain ⟨t, split⟩ := exists_of_mem_suffixKeys rest
    apply clean o mem (blank.trans _)
    rw [split, ← List.append_assoc]
    exact (List.suffix_append _ _).isInfix

/-- The two headers that are set are printed behind the others. -/
theorem printedLines_rewriteHeaders (whole : ∀ p ∈ ps, Unbroken p) (line : NoCrlf host) :
    printedLines (rewriteHeaders host ps) = linesOf ((otherHeaders (keepLast ps)).map printed) ++
      [headerText (connectionKey, closeValue), headerText (hostKey, host)] := by
  have connection : Unbroken (connectionKey, closeValue) := by
    exact ⟨⟨by decide, by decide, by decide⟩, by decide⟩
  have host_ : Unbroken (hostKey, host) :=
    ⟨⟨(by decide : colon ∉ hostKey), (by decide : ¬ crlf <+: hostKey), line⟩,
      (by decide : ¬ crlf ++ crlf <:+: hostKey)⟩
  have own : ∀ h, Unbroken h → NoCrlf h.1 →
      lines ((printed h).1 ++ colon :: (printed h).2) = [headerText h] := fun h whole key =>
    lines_of_noCrlf (key.cons whole.printed.value (by decide) (by decide))
  rw [rewriteHeaders_eq, printedLines_eq, List.map_append, linesOf, List.flatMap_append]
  · refine congrArg (linesOf _ ++ ·) ?_
    rw [List.map_cons, List.map_singleton, List.flatMap_cons, List.flatMap_singleton,
      own _ connection (by decide), own _ host_ (by exact (by decide : NoCrlf hostKey))]
    rfl
  · intro h mem
    rcases List.mem_append.1 mem with mem | mem
    · exact whole h (mem_of_mem_keepLast (List.mem_of_mem_filter mem))
    · rcases List.mem_cons.1 mem with rfl | mem
      · exact connection
      · exact List.mem_singleton.1 mem ▸ host_

end Printed

section Fields

variable {f : ParsedRequest.Fields}

theorem wellformed_rewriteFields (wf : Wellformed f) : Wellformed (rewriteFields f) := by
  have version : httpSlash <+: (rewriteFields f).version := by
    rw [rewriteFields]
    split_ifs
    · exact (by decide : httpSlash <+: http10)
    · exact wf.version
  exact ⟨wf.method_ne, wf.method, wf.protocol_ne, wf.protocol, wf.host_ne, wf.host, wf.port, wf.path,
    version, nul_rewriteLine wf.nul⟩

theorem noCrlf_rewriteLine (wf : Wellformed f) (clean : ∀ t ∈ fieldTexts f, NoCrlf t) :
    NoCrlf (renderLine (rewriteFields f)) := by
  obtain ⟨x, path, -⟩ := wf.path
  refine noCrlf_renderLine (fun t mem => ?_) ⟨x, path⟩
  have ten : NoCrlf http10 := by decide
  simp only [fieldTexts, rewriteFields, List.mem_append, List.mem_cons, List.not_mem_nil,
    or_false] at mem clean
  rcases mem with (rfl | rfl | rfl | rfl | rfl) | mem
  · exact clean _ (by simp)
  · exact clean _ (by simp)
  · exact clean _ (by simp)
  · exact clean _ (by simp)
  · split_ifs
    · exact ten
    · exact clean _ (by simp)
  · exact clean _ (by simp [mem])

theorem version_rewriteFields (f : ParsedRequest.Fields) :
    (rewriteFields f).version = http10 ↔ f.version = http10 ∨ f.version = http11 := by
  rw [rewriteFields]
  split_ifs with old
  · simp [old]
  · simp [old]

end Fields

section Main

variable {port : Option ℕ} {errno : ℕ} {buf tail host : Text} {pr : ParsedRequest} {q : Pieces}
  {ls : List Text} {ps : List (Text × Text)}

theorem noCrlf_fieldTexts (ok : q.Accepted errno) (first : NoCrlf q.line) :
    ∀ t ∈ fieldTexts q.fields, NoCrlf t := by
  intro t mem
  rcases infix_line ok t mem with inside | rfl
  · exact first.mono inside
  · decide

theorem dropWhile_host {f : Fields} (wf : Wellformed f) : f.host.dropWhile (· = sp) = f.host := by
  obtain ⟨c, rest, host⟩ := List.exists_cons_of_ne_nil wf.host_ne
  have start := (wf.host c (by simp [host])).2.2
  rw [host, List.dropWhile_cons_of_neg (by simpa using start)]

/-- What the origin server reads of a request that is printed for the accepted line `q.line`. -/
theorem headRewritten_iff (ok : q.Accepted errno) (first : NoCrlf q.line)
    (client : headerLines buf = ls) (hs : List (Text × Text)) :
    HeadRewritten buf host (render (rewriteFields q.fields) hs) ↔
      (q.fields.version = http10 ∨ q.fields.version = http11) ∧
        LinesRewritten ls host (printedLines hs) := by
  have wf := wellformed_fields ok
  have line := noCrlf_rewriteLine wf (noCrlf_fieldTexts ok first)
  rw [← version_rewriteFields, ← requestVersion_render (wellformed_rewriteFields wf) line,
    ← headerLines_render line, ← client]
  exact ⟨fun head => ⟨head.version, head.headers⟩, fun head => ⟨head.1, head.2⟩⟩

/-- The header lines that are printed are right if those of the client are passed on; where lines are
left over, the two headers that are set do not come into it. -/
theorem linesRewritten_printed_iff {b : List UInt8} {cur : ℕ} (run : Reads b cur ps)
    (text : cstr b cur = .ok (linesText tail ls)) (proper : Proper ls) (line : NoCrlf host)
    (visible : host.dropWhile (· = sp) = host) :
    LinesRewritten ls host (printedLines (rewriteHeaders host ps)) ↔
      if (cutHeaders ls).2 = [] then PassesOn (cutHeaders ls).1
      else LinesRewritten ls host (printedLines (otherHeaders (keepLast ps))) := by
  split_ifs with none_
  · obtain ⟨O, pairs, rfl⟩ := reads_cut run text proper none_
    obtain ⟨whole, unbroken⟩ := cutHeaders_lines proper
    rw [none_, List.append_nil] at whole
    have wholeO : ∀ p ∈ expandAll O, Unbroken p := by
      apply unbroken_expandAll fun p mem => (run.printable p mem).1
      intro o mem
      obtain ⟨h, mem, same⟩ := exists_key_of_setFor pairs mem
      exact same ▸ (unbroken h mem).blank
    rw [printedLines_rewriteHeaders wholeO line]
    nth_rewrite 1 [← whole]
    exact linesRewritten_iff pairs unbroken wholeO visible
  · obtain ⟨qs, p, rfl, blank⟩ := reads_over run text proper none_
    have different : ∀ key ∈ [connectionKey, hostKey], p.1 ≠ key := by
      rintro key set same
      exact setKey_line key set (same ▸ (List.prefix_append crlf crlf).isInfix.trans blank)
    have last : p ∈ otherHeaders (keepLast (qs ++ [p])) := by
      refine List.mem_filter.2 ⟨?_, decide_eq_true ⟨different _ (by simp), different _ (by simp)⟩⟩
      rw [keepLast_snoc qs p.1 p.2]
      simp
    rw [rewriteHeaders_eq, printedLines_over last blank]

/-- A request with method GET that is accepted is forwarded exactly if a NUL follows its block and it
is one that is rewritten as it should be. -/
theorem forwarded_iff (accepted : (ParsedRequest.create port).parse errno buf = .ok (0, pr))
    (method : pr.text pr.method = .ok getMethod) (unset : ℕ → UInt8) (behind : Text) :
    Forwarded port errno unset behind buf pr ↔ behind.head? = some 0 ∧ Rewritable buf pr := by
  obtain ⟨q, ls, tail, ps, read, first, proper, ok, run, assigned, fields, headers⟩ :=
    of_parse rfl accepted
  obtain ⟨-, -, toHost, version, -, -⟩ := of_fields fields
  obtain ⟨pr', rewritten, totalLen, unparse⟩ := printed_eq assigned fields headers unset
  have client : headerLines buf = ls :=
    headerLines_of_read read (by simp [Pieces.line, ok.method_ne]) first proper
  have live : pr.headers.live = keepLast ps := by
    rw [headers]
    exact Headers.live_setAll ps
  have next := cstr_next read
  rw [Nat.zero_add] at next
  have line : NoCrlf q.fields.host := noCrlf_fieldTexts ok first _ (by simp [fieldTexts])
  rw [forwarded_iff_head accepted method rewritten totalLen unparse toHost behind,
    headRewritten_iff ok first client,
    linesRewritten_printed_iff run next proper line (dropWhile_host (wellformed_fields ok)),
    Rewritable, version, client, live, toHost]
  simp

theorem forwarded_getRequest :
    Forwarded none 0 (fun _ => 0) [0] getRequest parsedGetRequest := by
  refine (forwarded_iff parse_getRequest method_getRequest (fun _ => 0) [0]).2 ⟨rfl, .inr ?_, ?_⟩
  · decide +kernel
  · have cut : cutHeaders (headerLines getRequest) = ([(hostKey, [sp, 104])], []) := by
      decide +kernel
    rw [cut]
    exact ⟨by decide +kernel, by decide +kernel, trivial⟩

/-- `GET http://h/ HTTP/1.1` with the header `host: x`. -/
def lowerRequest : Text :=
  [71, 69, 84, 32, 104, 116, 116, 112, 58, 47, 47, 104, 47, 32, 72, 84, 84, 80, 47, 49, 46, 49, 13, 10,
    104, 111, 115, 116, 58, 32, 120, 13, 10, 13, 10]

/-- `host: x` is sent beside `Host: h`, also where a NUL follows the block. -/
theorem not_forwardsAll : ¬ ForwardsAll := by
  intro all
  have accepted : (ParsedRequest.create none).parse 0 lowerRequest =
      .ok (0, { parsedGetRequest with
        headers := ⟨[⟨some [104, 111, 115, 116], [120]⟩], 8, by decide⟩ }) := by
    decide +kernel
  obtain ⟨-, -, sent, host, -, -, -, forward, -, head⟩ :=
    all none 0 (fun _ => 0) [0] lowerRequest _ accepted method_getRequest
  have run : handleClient none 0 (fun _ => 0) [0] lowerRequest = .ok (.forward [
      71, 69, 84, 32, 104, 116, 116, 112, 58, 47, 47, 104, 47, 32, 72, 84, 84, 80, 47, 49, 46, 48,
      13, 10, 104, 111, 115, 116, 58, 32, 120, 13, 10, 67, 111, 110, 110, 101, 99, 116, 105, 111,
      110, 58, 32, 99, 108, 111, 115, 101, 13, 10, 72, 111, 115, 116, 58, 32, 104, 13, 10, 13, 10]) := by
    decide +kernel
  obtain rfl := Reply.forward.inj (Except.ok.inj (run.symm.trans forward))
  obtain ⟨l, one, -⟩ := head.headers.host
  have size := congrArg List.length one
  rw [List.length_singleton] at size
  revert size
  decide +kernel

end Main

end ComputerNetwork.Http
