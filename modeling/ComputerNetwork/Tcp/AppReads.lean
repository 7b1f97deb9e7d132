import ComputerNetwork.Lib.Run
import ComputerNetwork.Tcp.Mysock
import Mathlib.Data.List.TakeWhile

/-!
# Reading what has been passed up

The two ends of `app_send_queue`: `stcp_app_send` and `stcp_fin_received` on one side, `myread` on the
other, in any order.  A read of size zero that finds data waiting looks like the end of the file, since
it takes nothing and sets `eof`.  `readsInOrder_iff` says that a run keeps what the application relies
on exactly when no such read comes before another read.
-/

namespace ComputerNetwork.Tcp

open Lib

/-! ## The calls -/

/-- `stcp_app_send`.  The callers pass an `int`, so a buffer is shorter than 2 ^ 31 bytes and its length
fits the `len` of `myread`. -/
def stcpAppSend (m : MysockContext) (src : List UInt8) : MysockContext :=
  if 0 < src.length then enqueueAppSend m src else m

/-- `stcp_fin_received`. -/
def stcpFinReceived (m : MysockContext) : MysockContext := enqueueAppSend m []

inductive UpCall where
  | appSend (src : List UInt8)
  | finReceived
  | myread (bufLen : ℕ)
  deriving DecidableEq, Repr

/-- One call, and the bytes that `myread` returns. -/
def upStep (m : MysockContext) : UpCall → Option (MysockContext × List UInt8)
  | .appSend src => some (stcpAppSend m src, [])
  | .finReceived => some (stcpFinReceived m, [])
  | .myread bufLen => (myread m bufLen).map fun (data, m') => (m', data)

/-- The queue between the STCP thread and the application; a read that would block is no step. -/
def upMachine : Machine MysockContext UpCall (List UInt8) where
  step := upStep

/-! ## What a run has passed on -/

/-- The bytes of the calls of `stcp_app_send`. -/
def passedUp (tr : List (UpCall × List UInt8)) : List UInt8 :=
  tr.flatMap fun
    | (.appSend src, _) => src
    | _ => []

/-- The bytes returned by `myread`. -/
def returned (tr : List (UpCall × List UInt8)) : List UInt8 :=
  tr.flatMap fun
    | (.myread _, data) => data
    | _ => []

/-- `stcp_fin_received` has put the EOF marker on the queue. -/
def eofPassed (tr : List (UpCall × List UInt8)) : Bool := tr.any fun entry => entry.1 == .finReceived

/-- The bytes passed up before the EOF marker. -/
def beforeEof (tr : List (UpCall × List UInt8)) : List UInt8 :=
  passedUp (tr.takeWhile fun entry => entry.1 != .finReceived)

/-- What is read is what was passed up, in order, and a read of at least one byte returns none only at
the EOF marker. -/
structure ReadsInOrder (tr : List (UpCall × List UInt8)) : Prop where
  inOrder : returned tr <+: passedUp tr
  eof : ∀ pre bufLen post, tr = pre ++ (.myread bufLen, []) :: post → 1 ≤ bufLen →
    eofPassed pre = true ∧ returned pre = beforeEof pre

/-- A read would find data. -/
def DataWaiting (m : MysockContext) : Prop :=
  m.eof = false ∧ ∃ buf rest, m.appSendQueue = buf :: rest ∧ buf ≠ []

/-- A read of size zero that found data. -/
def CutShort (m₀ : MysockContext) (tr : List (UpCall × List UInt8)) : Prop :=
  ∃ pre data post m, tr = pre ++ (.myread 0, data) :: post ∧ upMachine.Run m₀ pre m ∧ DataWaiting m

section Trace

variable {tr : List (UpCall × List UInt8)} (entry : UpCall × List UInt8)

theorem passedUp_append (tr tr' : List (UpCall × List UInt8)) :
    passedUp (tr ++ tr') = passedUp tr ++ passedUp tr' := List.flatMap_append ..

theorem returned_append (tr tr' : List (UpCall × List UInt8)) :
    returned (tr ++ tr') = returned tr ++ returned tr' := List.flatMap_append ..

theorem eofPassed_snoc :
    eofPassed (tr ++ [entry]) = (eofPassed tr || entry.1 == .finReceived) := by
  simp [eofPassed]

theorem takeWhile_of_open (still : eofPassed tr = false) :
    tr.takeWhile (fun entry => entry.1 != .finReceived) = tr := by
  rw [List.takeWhile_eq_self_iff]
  intro entry member
  simp only [eofPassed, List.any_eq_false] at still
  simpa [bne] using still entry member

theorem beforeEof_snoc :
    beforeEof (tr ++ [entry]) =
      if eofPassed tr = true then beforeEof tr else beforeEof tr ++ passedUp [entry] := by
  split_ifs with passed
  · have stop : (tr.takeWhile fun entry => entry.1 != .finReceived).length ≠ tr.length := by
      intro same
      have whole := (List.takeWhile_prefix (l := tr)
        fun entry => entry.1 != .finReceived).eq_of_length same
      obtain ⟨entry, member, fin⟩ := List.any_eq_true.1 passed
      have passes := List.takeWhile_eq_self_iff.1 whole entry member
      simp [bne, fin] at passes
    rw [beforeEof, List.takeWhile_append, if_neg stop, beforeEof]
  · have still := takeWhile_of_open (Bool.eq_false_iff.2 passed)
    rw [beforeEof, List.takeWhile_append, if_pos (by rw [still]), passedUp_append, beforeEof, still]
    obtain ⟨call, data⟩ := entry
    cases call <;> rfl

end Trace

/-! ## One call -/

/-- The buffers in front of the EOF marker. -/
def beforeMarker (pq : PacketQueue) : PacketQueue := pq.takeWhile fun buf => !buf.isEmpty

theorem beforeMarker_cons {buf : List UInt8} {pq : PacketQueue} (data : buf ≠ []) :
    beforeMarker (buf :: pq) = buf :: beforeMarker pq :=
  List.takeWhile_cons_of_pos (by simpa using data)

/-- A buffer put on a queue that holds the marker is behind it. -/
theorem beforeMarker_append {pq : PacketQueue} (buf : List UInt8) (marker : [] ∈ pq) :
    beforeMarker (pq ++ [buf]) = beforeMarker pq := by
  induction pq with
  | nil => cases marker
  | cons node rest ih =>
    by_cases data : node = []
    · subst data
      rfl
    · rw [List.cons_append, beforeMarker_cons data, beforeMarker_cons data,
        ih ((List.mem_cons.1 marker).resolve_left (Ne.symm data))]

/-- While the marker has not come, all the bytes of the queue are in front of it. -/
theorem beforeMarker_of_open {pq : PacketQueue} (none : [] ∉ pq) : beforeMarker pq = pq := by
  rw [beforeMarker, List.takeWhile_eq_self_iff]
  intro buf member
  have data : buf ≠ [] := fun empty => none (empty ▸ member)
  simpa using data

theorem flatten_beforeMarker_append {pq : PacketQueue} (buf : List UInt8) (none : [] ∉ pq) :
    (beforeMarker (pq ++ [buf])).flatten = pq.flatten ++ buf := by
  have front := beforeMarker_of_open none
  rw [beforeMarker] at front ⊢
  rw [List.takeWhile_append, front, if_pos rfl, List.flatten_append]
  cases buf <;> simp

theorem myread_cases {m m' : MysockContext} {bufLen : ℕ} {data : List UInt8} (still : m.eof = false)
    (read : myread m bufLen = some (data, m')) :
    ∃ node rest, m.appSendQueue = node :: rest ∧
      ((node = [] ∧ data = [] ∧ m' = { m with appSendQueue := rest, eof := true }) ∨
        (node ≠ [] ∧ bufLen = 0 ∧ data = [] ∧ m' = { m with eof := true }) ∨
        (node ≠ [] ∧ bufLen ≠ 0 ∧ data ≠ [] ∧ ∃ left, m' = { m with appSendQueue := left } ∧
          data ++ left.flatten = node ++ rest.flatten ∧
          data ++ (beforeMarker left).flatten = node ++ (beforeMarker rest).flatten ∧
          ([] ∈ left ↔ [] ∈ rest))) := by
  rw [myread, still, if_neg Bool.false_ne_true] at read
  rcases queue : m.appSendQueue with _ | ⟨node, rest⟩
  · simp [queue, mysockDequeueBuffer] at read
  · refine ⟨node, rest, rfl, ?_⟩
    rw [queue, mysockDequeueBuffer] at read
    by_cases splits : bufLen < node.length
    · have some : node ≠ [] := by
        rintro rfl
        simp at splits
      rw [if_pos ⟨splits, rfl⟩] at read
      simp only [Option.map_some, Option.some.injEq, Prod.mk.injEq] at read
      obtain ⟨rfl, rfl⟩ := read
      cases bufLen with
      | zero =>
        refine Or.inr (Or.inl ⟨some, rfl, rfl, ?_⟩)
        rw [List.drop_zero, ← queue]
        rfl
      | succ n =>
        have kept : node.drop (n + 1) ≠ [] := by
          rw [Ne, List.drop_eq_nil_iff]
          omega
        refine Or.inr (Or.inr ⟨some, n.succ_ne_zero, ?_, node.drop (n + 1) :: rest, ?_, ?_, ?_, ?_⟩)
        · simpa using some
        · rw [still]
          rfl
        · rw [List.flatten_cons, ← List.append_assoc, List.take_append_drop]
        · rw [beforeMarker_cons kept, List.flatten_cons, ← List.append_assoc, List.take_append_drop]
        · simp [kept.symm]
    · rw [if_neg (by simp [splits]), min_eq_right (by omega), List.take_length] at read
      simp only [Option.map_some, Option.some.injEq, Prod.mk.injEq] at read
      obtain ⟨rfl, rfl⟩ := read
      by_cases marker : node = []
      · subst marker
        exact Or.inl ⟨rfl, rfl, rfl⟩
      · have pos := List.length_pos_iff.2 marker
        refine Or.inr (Or.inr ⟨marker, by omega, marker, rest, ?_, rfl, rfl, Iff.rfl⟩)
        rw [show (node.length == 0) = m.eof by simpa [still] using marker]

/-- After the end of the file a read returns nothing and changes nothing. -/
theorem myread_of_eof {m : MysockContext} (eof : m.eof = true) (bufLen : ℕ) :
    myread m bufLen = some ([], m) := by
  rw [myread, if_pos eof]

/-! ## The phases of a run -/

/-- Before the marker is taken, behind it, and after a read of size zero has ended the file early. -/
inductive Phase (tr : List (UpCall × List UInt8)) (m : MysockContext) : Prop
  | reading (eof : m.eof = false) (fin : eofPassed tr = true ↔ [] ∈ m.appSendQueue)
      (before : returned tr ++ (beforeMarker m.appSendQueue).flatten = beforeEof tr)
  | ended (eof : m.eof = true) (fin : eofPassed tr = true) (all : returned tr = beforeEof tr)
  | cut (eof : m.eof = true) (less : (returned tr).length < (beforeEof tr).length)

/-- What has been returned and what is queued is what has been passed up. -/
structure Passing (m₀ : MysockContext) (tr : List (UpCall × List UInt8)) (m : MysockContext) : Prop where
  bytes : returned tr ++ m.appSendQueue.flatten = passedUp tr
  phase : Phase tr m
  cutShort : CutShort m₀ tr ↔ m.eof = true ∧ (returned tr).length < (beforeEof tr).length

section Steps

variable {m₀ m m' : MysockContext} {tr : List (UpCall × List UInt8)}

/-- A call other than a read of size zero does not cut the file short. -/
theorem cutShort_snoc (run : upMachine.Run m₀ tr m) (entry : UpCall × List UInt8) :
    CutShort m₀ (tr ++ [entry]) ↔ CutShort m₀ tr ∨ (entry.1 = .myread 0 ∧ DataWaiting m) := by
  constructor
  · rintro ⟨pre, data, post, s, whole, ran, waiting⟩
    rcases snoc_eq_append_cons whole with ⟨rfl, rfl, -⟩ | ⟨post', old, -⟩
    · exact Or.inr ⟨rfl, run.unique ran ▸ waiting⟩
    · exact Or.inl ⟨pre, data, post', s, old, ran, waiting⟩
  · rintro (⟨pre, data, post, s, rfl, ran, waiting⟩ | ⟨zero, waiting⟩)
    · exact ⟨pre, data, post ++ [entry], s, by simp, ran, waiting⟩
    · exact ⟨tr, entry.2, [], m, by rw [← zero], run, waiting⟩

theorem Passing.idle (h : Passing m₀ tr m) (run : upMachine.Run m₀ tr m)
    {entry : UpCall × List UInt8} (up : passedUp [entry] = []) (down : returned [entry] = [])
    (noFin : entry.1 ≠ .finReceived) (noCut : ¬ (entry.1 = .myread 0 ∧ DataWaiting m)) :
    Passing m₀ (tr ++ [entry]) m := by
  have up' : passedUp (tr ++ [entry]) = passedUp tr := by rw [passedUp_append, up, List.append_nil]
  have down' : returned (tr ++ [entry]) = returned tr := by
    rw [returned_append, down, List.append_nil]
  have before : beforeEof (tr ++ [entry]) = beforeEof tr := by
    rw [beforeEof_snoc, up, List.append_nil, ite_self]
  have fin : eofPassed (tr ++ [entry]) = eofPassed tr := by
    rw [eofPassed_snoc, beq_eq_false_iff_ne.2 noFin, Bool.or_false]
  refine ⟨by rw [up', down']; exact h.bytes, ?_, ?_⟩
  · cases h.phase with
    | reading eof fin' all => exact .reading eof (fin ▸ fin') (by rw [down', before]; exact all)
    | ended eof fin' all => exact .ended eof (fin ▸ fin') (by rw [down', before]; exact all)
    | cut eof less => exact .cut eof (by rw [down', before]; exact less)
  · rw [cutShort_snoc run, or_iff_left noCut, h.cutShort, down', before]

theorem Passing.push (h : Passing m₀ tr m) (run : upMachine.Run m₀ tr m)
    {entry : UpCall × List UInt8} (down : returned [entry] = [])
    (fin : entry.1 = .finReceived ↔ passedUp [entry] = []) (noRead : entry.1 ≠ .myread 0) :
    Passing m₀ (tr ++ [entry]) (enqueueAppSend m (passedUp [entry])) := by
  have down' : returned (tr ++ [entry]) = returned tr := by
    rw [returned_append, down, List.append_nil]
  have fin' : eofPassed (tr ++ [entry]) = true ↔ eofPassed tr = true ∨ passedUp [entry] = [] := by
    rw [eofPassed_snoc, Bool.or_eq_true, beq_iff_eq, fin]
  have queue : (enqueueAppSend m (passedUp [entry])).appSendQueue =
      m.appSendQueue ++ [passedUp [entry]] := rfl
  refine ⟨?_, ?_, ?_⟩
  · rw [down', queue, List.flatten_append, List.flatten_singleton, passedUp_append, ← h.bytes,
      List.append_assoc]
  · cases h.phase with
    | reading eof marker all =>
      have marker' : [] ∈ m.appSendQueue ++ [passedUp [entry]] ↔
          [] ∈ m.appSendQueue ∨ passedUp [entry] = [] := by
        rw [List.mem_append, List.mem_singleton]
        exact or_congr Iff.rfl eq_comm
      refine .reading eof (by rw [fin', queue, marker, marker']) ?_
      rw [down', queue, beforeEof_snoc]
      split_ifs with passed
      · rw [beforeMarker_append _ (marker.1 passed)]
        exact all
      · have none : [] ∉ m.appSendQueue := fun member => passed (marker.2 member)
        rw [flatten_beforeMarker_append _ none, ← List.append_assoc, ← all, beforeMarker_of_open none]
    | ended eof passed all =>
      exact .ended eof (fin'.2 (Or.inl passed)) (by rw [down', beforeEof_snoc, if_pos passed]; exact all)
    | cut eof less =>
      refine .cut eof ?_
      rw [down', beforeEof_snoc]
      split_ifs
      · exact less
      · rw [List.length_append]
        omega
  · rw [cutShort_snoc run, or_iff_left fun cut => noRead cut.1, h.cutShort, down', beforeEof_snoc]
    refine and_congr_right fun eof => ?_
    cases h.phase with
    | reading still => exact absurd eof (by simp [still])
    | ended _ passed => rw [if_pos passed]
    | cut _ less =>
      split_ifs
      · exact Iff.rfl
      · rw [List.length_append]
        omega

theorem passedUp_read (tr : List (UpCall × List UInt8)) (bufLen : ℕ) (data : List UInt8) :
    passedUp (tr ++ [(.myread bufLen, data)]) = passedUp tr := by
  rw [passedUp_append]
  exact List.append_nil _

theorem returned_read (tr : List (UpCall × List UInt8)) (bufLen : ℕ) (data : List UInt8) :
    returned (tr ++ [(.myread bufLen, data)]) = returned tr ++ data := by
  rw [returned_append]
  exact congrArg _ (List.append_nil _)

theorem beforeEof_read (tr : List (UpCall × List UInt8)) (bufLen : ℕ) (data : List UInt8) :
    beforeEof (tr ++ [(.myread bufLen, data)]) = beforeEof tr := by
  rw [beforeEof_snoc]
  split_ifs
  · rfl
  · exact List.append_nil _

theorem eofPassed_read (tr : List (UpCall × List UInt8)) (bufLen : ℕ) (data : List UInt8) :
    eofPassed (tr ++ [(.myread bufLen, data)]) = eofPassed tr := by
  rw [eofPassed_snoc]
  exact Bool.or_false _

theorem Passing.read (h : Passing m₀ tr m) (run : upMachine.Run m₀ tr m) {bufLen : ℕ}
    {data : List UInt8} (still : m.eof = false) (st : Tcp.myread m bufLen = some (data, m')) :
    Passing m₀ (tr ++ [(.myread bufLen, data)]) m' := by
  have up := passedUp_read tr bufLen data
  have down := returned_read tr bufLen data
  have before := beforeEof_read tr bufLen data
  have fin := eofPassed_read tr bufLen data
  have noCut : ¬ CutShort m₀ tr := fun cut => absurd (h.cutShort.1 cut).1 (by simp [still])
  obtain ⟨node, rest, queue, cases'⟩ := myread_cases still st
  cases h.phase with
  | ended eof => exact absurd eof (by simp [still])
  | cut eof => exact absurd eof (by simp [still])
  | reading _ marker all =>
    have bytes := h.bytes
    rw [queue] at bytes marker all
    rcases cases' with ⟨rfl, rfl, rfl⟩ | ⟨some, rfl, rfl, rfl⟩ |
      ⟨some, more, moved, left, rfl, joined, ahead, marked⟩
    · have passed : eofPassed tr = true := marker.2 (List.mem_cons_self ..)
      have done : returned tr = beforeEof tr := by
        rw [← all]
        exact (List.append_nil _).symm
      have waiting : ¬ DataWaiting m := by
        rintro ⟨-, buf, rest', queue', data⟩
        rw [queue] at queue'
        exact data (List.cons.inj queue').1.symm
      refine ⟨by rw [up, down, List.append_nil]; exact bytes,
        .ended rfl (by rw [fin]; exact passed) (by rw [down, before, List.append_nil, done]), ?_⟩
      rw [cutShort_snoc run, or_iff_left fun cut => waiting cut.2, down, before, List.append_nil, done]
      simp [noCut]
    · have less : (returned tr).length < (beforeEof tr).length := by
        rw [← all, beforeMarker_cons some, List.flatten_cons, List.length_append, List.length_append]
        have := List.length_pos_iff.2 some
        omega
      refine ⟨by rw [up, down, List.append_nil]; simpa [queue] using bytes,
        .cut rfl (by rw [down, before, List.append_nil]; exact less), ?_⟩
      rw [cutShort_snoc run, down, before, List.append_nil]
      exact iff_of_true (Or.inr ⟨rfl, still, node, rest, queue, some⟩) ⟨rfl, less⟩
    · refine ⟨?_, .reading still ?_ ?_, ?_⟩
      · rw [up, down, List.append_assoc, joined, ← List.flatten_cons]
        exact bytes
      · rw [fin, marker, marked, List.mem_cons, or_iff_right some.symm]
      · rw [down, before, List.append_assoc, ahead, ← all, beforeMarker_cons some, List.flatten_cons]
      · rw [cutShort_snoc run, or_iff_left fun cut => more (UpCall.myread.inj cut.1)]
        exact iff_of_false noCut fun eof => absurd eof.1 (by simp [still])

theorem Passing.step (h : Passing m₀ tr m) (run : upMachine.Run m₀ tr m) {call : UpCall}
    {data : List UInt8} (st : upStep m call = some (m', data)) :
    Passing m₀ (tr ++ [(call, data)]) m' := by
  cases call with
  | appSend src =>
    cases st
    have up : passedUp [(.appSend src, [])] = src := List.append_nil _
    by_cases empty : src = []
    · subst empty
      exact h.idle run rfl rfl (by simp) (by simp)
    · rw [stcpAppSend, if_pos (List.length_pos_iff.2 empty)]
      conv => arg 3; rw [← up]
      exact h.push run rfl (by simp [up, empty]) (by simp)
  | finReceived =>
    cases st
    exact h.push run rfl (by simp [passedUp]) (by simp)
  | myread bufLen =>
    rw [upStep, Option.map_eq_some_iff] at st
    obtain ⟨⟨data', m''⟩, read, same⟩ := st
    obtain ⟨rfl, rfl⟩ := Prod.mk.inj same
    cases still : m.eof with
    | false => exact h.read run still read
    | true =>
      rw [myread_of_eof still] at read
      obtain ⟨rfl, rfl⟩ := Prod.mk.inj (Option.some.inj read)
      exact h.idle run rfl rfl (by simp) fun cut => absurd cut.2.1 (by simp [still])

end Steps

/-! ## Whole runs -/

section Run

variable {isActive : Bool} {tr : List (UpCall × List UInt8)} {m : MysockContext}

theorem Passing.of_run (run : upMachine.Run (mysockAllocateContext isActive) tr m) :
    Passing (mysockAllocateContext isActive) tr m := by
  refine run.invariant (I := fun tr m => Passing (mysockAllocateContext isActive) tr m) ?_
    fun tr m call data m' ran h _ st => h.step ran st
  refine ⟨rfl, .reading rfl (by simp [eofPassed, mysockAllocateContext]) rfl, iff_of_false ?_ ?_⟩
  · rintro ⟨pre, data, post, m, whole, -⟩
    simp at whole
  · exact fun eof => Bool.false_ne_true eof.1

/-- A run keeps what the application relies on exactly when no read comes behind a read of size zero
that found data waiting. -/
theorem readsInOrder_iff (run : upMachine.Run (mysockAllocateContext isActive) tr m) :
    ReadsInOrder tr ↔
      ∀ pre zero mid bufLen data post,
        tr = pre ++ (.myread 0, zero) :: (mid ++ (.myread bufLen, data) :: post) → 1 ≤ bufLen →
        ∀ s, upMachine.Run (mysockAllocateContext isActive) pre s → ¬ DataWaiting s := by
  constructor
  · rintro order pre zero mid bufLen data post rfl pos s ran waiting
    have whole : pre ++ (.myread 0, zero) :: (mid ++ (.myread bufLen, data) :: post) =
        (pre ++ (.myread 0, zero) :: mid) ++ (.myread bufLen, data) :: post := by simp
    rw [whole] at run order
    obtain ⟨before, after, ran', -, st⟩ := run.step_of_mem
    have cut : CutShort (mysockAllocateContext isActive) (pre ++ (.myread 0, zero) :: mid) :=
      ⟨pre, zero, mid, s, rfl, ran, waiting⟩
    obtain ⟨eof, less⟩ := (Passing.of_run ran').cutShort.1 cut
    have read : upStep before (.myread bufLen) = some (before, []) := by
      rw [upStep, myread_of_eof eof, Option.map_some]
    obtain ⟨rfl, rfl⟩ := Prod.mk.inj (Option.some.inj (st.symm.trans read))
    rw [(order.eof _ _ _ rfl pos).2] at less
    exact absurd less (lt_irrefl _)
  · intro clean
    refine ⟨⟨_, (Passing.of_run run).bytes⟩, ?_⟩
    rintro pre bufLen post rfl pos
    obtain ⟨before, after, ran, -, st⟩ := run.step_of_mem
    have h := Passing.of_run ran
    cases phase : h.phase with
    | ended eof fin all => exact ⟨fin, all⟩
    | cut eof less =>
      obtain ⟨pre', zero, mid, s, rfl, ran', waiting⟩ := h.cutShort.2 ⟨eof, less⟩
      exact absurd waiting (clean pre' zero mid bufLen [] post (by simp) pos s ran')
    | reading still marker all =>
      rw [show upMachine.step before (.myread bufLen) =
        (myread before bufLen).map fun (data, m') => (m', data) from rfl,
        Option.map_eq_some_iff] at st
      obtain ⟨⟨data, m'⟩, read, same⟩ := st
      obtain ⟨rfl, rfl⟩ := Prod.mk.inj same
      obtain ⟨node, rest, queue, cases'⟩ := myread_cases still read
      rw [queue] at marker all
      rcases cases' with ⟨rfl, -⟩ | ⟨-, zero, -⟩ | ⟨-, -, some, -⟩
      · refine ⟨marker.2 (List.mem_cons_self ..), ?_⟩
        rw [← all]
        exact (List.append_nil _).symm
      · omega
      · exact absurd rfl some

end Run

/-- Two bytes read one by one, and the end of the file behind them. -/
theorem readsInOrder_iff_twoBytes :
    ReadsInOrder [(.appSend [104, 105], []), (.myread 1, [104]), (.finReceived, []),
      (.myread 4, [105]), (.myread 4, [])] := by
  refine (readsInOrder_iff (.of_exec upMachine (mysockAllocateContext true)
    [.appSend [104, 105], .myread 1, .finReceived, .myread 4, .myread 4] rfl)).2 ?_
  intro pre zero mid bufLen data post whole
  have member : (UpCall.myread 0, zero) ∈ pre ++ (.myread 0, zero) ::
      (mid ++ (.myread bufLen, data) :: post) := List.mem_append_right _ (List.mem_cons_self ..)
  rw [← whole] at member
  simp at member

/-- A read of size zero in front of one byte: the next read reports the end of the file. -/
theorem not_readsInOrder_zeroRead :
    ∃ tr m, upMachine.Run (mysockAllocateContext true) tr m ∧ ¬ ReadsInOrder tr := by
  refine ⟨[(.appSend [104], []), (.myread 0, []), (.myread 1, [])], _,
    .of_exec upMachine _ [.appSend [104], .myread 0, .myread 1] rfl, fun order => ?_⟩
  exact absurd (order.eof [(.appSend [104], []), (.myread 0, [])] 1 [] rfl le_rfl).1 (by decide)

end ComputerNetwork.Tcp
