import ComputerNetwork.Lib.Loop
import ComputerNetwork.Tcp.Receive

/-!
# Segmentation when sends fail

The `while` loop of the `APP_DATA` branch, with the result of every `stcp_network_send` left to the
environment.  A failure is overlooked for a full segment, and for the last one it steps 21 bytes back.
`sendsInOrder_iff` says for which results the loop ends, stays inside the payload, moves the sequence
number forwards only and reports as sent pieces that follow each other.
-/

namespace ComputerNetwork.Tcp

open Lib Endpoint

/-! ## The code -/

/-- The `while` loop; the `k`-th call of `stcp_network_send` fails with the `errno` that `fail k` gives,
if it gives one. -/
def sendBody (fail : ℕ → Option ℕ) : Body (ℕ × Endpoint) Endpoint
  | (k, e) =>
    match e.pc with
    | .sendData event buffer payload payloadSize =>
      .inl (k + 1, (e.sendSegment (fail k) event buffer payload payloadSize).1)
    | _ => .inr e

/-- The endpoint after `k` turns of the loop. -/
def afterSends (fail : ℕ → Option ℕ) (e : Endpoint) : ℕ → Endpoint
  | 0 => e
  | k + 1 =>
    match sendBody fail (k, afterSends fail e k) with
    | .inl (_, e') => e'
    | .inr e' => e'

/-- What a turn shows. -/
def sendObs (fail : ℕ → Option ℕ) (e : Endpoint) (k : ℕ) : Obs :=
  match (afterSends fail e k).pc with
  | .sendData event buffer payload payloadSize =>
    ((afterSends fail e k).sendSegment (fail k) event buffer payload payloadSize).2
  | _ => .quiet

/-- The segments of the first `n` turns that `stcp_network_send` reports as sent. -/
def reportedSegments (fail : ℕ → Option ℕ) (e : Endpoint) (n : ℕ) : List (List UInt8) :=
  (List.range n).flatMap fun k => sentPackets (sendObs fail e k)

/-! ## What the loop has to do -/

/-- The offset that a segment gives for its piece, when the payload starts at `seq`. -/
def pieceOffset (seq : UInt32) (pkt : List UInt8) : ℕ := (thSeq pkt - seq).toNat

/-- A segment with the piece of the payload that stands at its offset. -/
def CarriesPiece (payload : List UInt8) (seq : UInt32) (pkt : List UInt8) : Prop :=
  (0 < (segmentPayload pkt).length ∧ (segmentPayload pkt).length ≤ 536) ∧
    pieceOffset seq pkt + (segmentPayload pkt).length ≤ payload.length ∧
    segmentPayload pkt = (payload.drop (pieceOffset seq pkt)).take (segmentPayload pkt).length

/-- The loop ends and reads the payload only, the sequence number does not go back, and the segments
reported as sent carry pieces of the payload each of which begins where the one before ended. -/
structure SendsInOrder (fail : ℕ → Option ℕ) (e : Endpoint) (payload : List UInt8) : Prop where
  ends : ∃ e', (sendBody fail).Ends (0, e) e' ∧ e'.pc ≠ .crashed
  inside : ∀ k event buffer offset size,
    (afterSends fail e k).pc = .sendData event buffer offset size →
      0 ≤ offset ∧ offset + min size 536 ≤ payload.length
  forwards : ∀ k, ((afterSends fail e (k + 1)).ctx.currentSequenceNum -
    (afterSends fail e k).ctx.currentSequenceNum).toNat < 2 ^ 31
  pieces : ∀ n, ∀ pkt ∈ reportedSegments fail e n, CarriesPiece payload e.ctx.currentSequenceNum pkt
  consecutive : ∀ n, (reportedSegments fail e n).IsChain fun pkt next =>
    pieceOffset e.ctx.currentSequenceNum next =
      pieceOffset e.ctx.currentSequenceNum pkt + (segmentPayload pkt).length

/-! ## Sublists of a range -/

section Range

variable {ok : ℕ → Bool} {n : ℕ}

/-- Places that are kept from some place on follow each other. -/
theorem isChain_filter_range (kept : ∀ i j, i < j → j < n → ok i = true → ok j = true) :
    ((List.range n).filter ok).IsChain fun a b => b = a + 1 ∧ b < n := by
  induction n with
  | zero => exact .nil
  | succ n ih =>
    have before := ih fun i j less inside => kept i j less (by omega)
    rw [List.range_succ, List.filter_append]
    refine List.isChain_append.2 ⟨before.imp fun a b next => ⟨next.1, by omega⟩, ?_, ?_⟩
    · cases last : ok n <;> simp [last]
    · intro a isLast b isHead
      obtain ⟨rfl, -⟩ : b = n ∧ ok n = true := by
        cases last : ok n <;> simp [last] at isHead
        exact ⟨isHead.symm, rfl⟩
      cases b with
      | zero => simp at isLast
      | succ b =>
        have member := List.mem_filter.1 (List.mem_of_getLast? isLast)
        have keeps : ok b = true := by
          rcases Nat.lt_succ_iff_lt_or_eq.1 (List.mem_range.1 member.1) with earlier | rfl
          · exact kept a b earlier (by omega) member.2
          · exact member.2
        rw [List.range_succ, List.filter_append] at isLast
        simp only [List.filter_singleton, keeps, cond_true, List.getLast?_concat, Option.mem_def,
          Option.some.injEq] at isLast
        exact ⟨by rw [isLast], by omega⟩

/-- A chain without gaps contains what lies between its members. -/
theorem mem_of_isChain {l : List ℕ} {a b c : ℕ} (chain : (a :: l).IsChain fun a b => b ≤ a + 1)
    (member : c ∈ a :: l) (start : a ≤ b) (stop : b ≤ c) : b ∈ a :: l := by
  induction l generalizing a with
  | nil =>
    have same : c = a := by simpa using member
    exact List.mem_singleton.2 (by omega)
  | cons x rest ih =>
    rw [List.isChain_cons_cons] at chain
    rcases Nat.eq_or_lt_of_le start with rfl | later
    · exact List.mem_cons_self ..
    · have behind : c ∈ x :: rest := (List.mem_cons.1 member).resolve_left (by omega)
      exact List.mem_cons_of_mem _ (ih chain.2 behind (by omega))

/-- When the places that are kept have no gap, one that is kept keeps what lies behind it. -/
theorem kept_of_isChain (chain : ((List.range n).filter ok).IsChain fun a b => b ≤ a + 1)
    {i j k : ℕ} (first : ok i = true) (last : ok k = true) (inside : k < n) (start : i ≤ j)
    (stop : j ≤ k) : ok j = true := by
  have sorted : ((List.range n).filter ok).Pairwise (· < ·) := List.pairwise_lt_range.filter ok
  have member : ∀ x, x < n → ok x = true → x ∈ (List.range n).filter ok := fun x less keeps =>
    List.mem_filter.2 ⟨List.mem_range.2 less, keeps⟩
  have hi := member i (by omega) first
  have hk := member k inside last
  rcases list : (List.range n).filter ok with _ | ⟨x, rest⟩
  · simp [list] at hi
  · have before : x ≤ i := by
      rw [list, List.pairwise_cons] at sorted
      rw [list, List.mem_cons] at hi
      rcases hi with rfl | behind
      · exact le_rfl
      · exact (sorted.1 i behind).le
    rw [list] at chain hk
    have between := mem_of_isChain chain hk (before.trans start) stop
    rw [← list] at between
    exact (List.mem_filter.1 between).2

end Range

/-! ## One turn -/

section Turn

variable {fail : ℕ → Option ℕ} {e : Endpoint} {event : Event} {payload : List UInt8}

/-- A turn that reads the buffer where the payload stands. -/
theorem sendSegment_inside (e : Endpoint) (result : Option ℕ) (event : Event) {offset size : ℕ}
    (whole : offset + size = payload.length) (fits : payload.length ≤ 3072) :
    e.sendSegment result event payload offset size =
      (e.afterSend result
          { e.ctx with
            currentSequenceNum := addInt e.ctx.currentSequenceNum (segmentSize size result) }
          (sendLoop event payload (offset + segmentSize size result) (size - segmentSize size result)
            { e.ctx with
              currentSequenceNum := addInt e.ctx.currentSequenceNum (segmentSize size result) }),
        .send ((dataHeader e.ctx).bytes ++ (payload.drop offset).take (min size 536))
          result.isNone) := by
  have room : ¬ ((offset : ℤ) < 0 ∨
      (senderWindow : ℤ) < offset + min (size : ℤ) (stcpMss : ℕ)) := by
    simp only [senderWindow, stcpMss]
    omega
  have len : (min (size : ℤ) (stcpMss : ℕ)).toNat = min size 536 := by
    simp only [stcpMss]
    omega
  have piece : ((zeroFill senderWindow payload).drop offset).take (min size 536) =
      (payload.drop offset).take (min size 536) := by
    rw [zeroFill, List.drop_append_of_le_length (by omega),
      List.take_append_of_le_length (by rw [List.length_drop]; omega)]
  rw [sendSegment]
  simp only [if_neg room, Int.toNat_natCast, len, piece]

/-- Before the `k`-th turn all the segments up to there have been passed on, sent or not. -/
structure AtTurn (fail : ℕ → Option ℕ) (e : Endpoint) (event : Event) (payload : List UInt8) (k : ℕ) :
    Prop where
  pc : (afterSends fail e k).pc =
    .sendData event payload (536 * k : ℕ) (payload.length - 536 * k : ℕ)
  seq : (afterSends fail e k).ctx.currentSequenceNum =
    e.ctx.currentSequenceNum + UInt32.ofNat (536 * k)

/-- The segment of the `k`-th turn. -/
def segmentAt (e : Endpoint) (payload : List UInt8) (k : ℕ) : List UInt8 :=
  (dataHeader { e.ctx with
    currentSequenceNum := e.ctx.currentSequenceNum + UInt32.ofNat (536 * k) }).bytes ++
      (payload.drop (536 * k)).take 536

theorem AtTurn.afterSends_succ {k : ℕ} (here : AtTurn fail e event payload k) :
    afterSends fail e (k + 1) = ((afterSends fail e k).sendSegment (fail k) event payload
      (536 * k : ℕ) (payload.length - 536 * k : ℕ)).1 := by
  rw [afterSends, sendBody]
  simp only [here.pc]

theorem AtTurn.obs {k : ℕ} (here : AtTurn fail e event payload k) (more : 536 * k ≤ payload.length)
    (fits : payload.length ≤ 3072) :
    sendObs fail e k = .send (segmentAt e payload k) (fail k).isNone := by
  have header : dataHeader (afterSends fail e k).ctx = dataHeader { e.ctx with
      currentSequenceNum := e.ctx.currentSequenceNum + UInt32.ofNat (536 * k) } := by
    rw [dataHeader, here.seq]
    rfl
  rw [sendObs]
  simp only [here.pc, sendSegment_inside _ _ _ (Nat.add_sub_cancel' more) fits, header, segmentAt]
  rw [← List.take_take, List.take_of_length_le (by rw [List.length_take, List.length_drop]; omega)]

theorem AtTurn.full {k : ℕ} (here : AtTurn fail e event payload k)
    (more : 536 * (k + 1) < payload.length) (fits : payload.length ≤ 3072) :
    AtTurn fail e event payload (k + 1) := by
  have whole : 536 * k + (payload.length - 536 * k) = payload.length := by omega
  have size : segmentSize (payload.length - 536 * k : ℕ) (fail k) = (536 : ℕ) := by
    rw [segmentSize, if_pos (by simp only [stcpMss]; omega), stcpMss]
  have rest : ((payload.length - 536 * k : ℕ) : ℤ) - (536 : ℕ) =
      (payload.length - 536 * (k + 1) : ℕ) := by omega
  have next : ((536 * k : ℕ) : ℤ) + (536 : ℕ) = (536 * (k + 1) : ℕ) := by omega
  refine ⟨?_, ?_⟩
  · rw [here.afterSends_succ, sendSegment_inside _ _ _ whole fits, size, next, rest]
    simp only [afterSend, sendLoop, if_pos (show (0 : ℤ) < (payload.length - 536 * (k + 1) : ℕ) by omega)]
  · rw [here.afterSends_succ, sendSegment_inside _ _ _ whole fits, size, addInt_natCast]
    show (afterSends fail e k).ctx.currentSequenceNum + UInt32.ofNat 536 = _
    rw [here.seq, UInt32.add_assoc, ← UInt32.ofNat_add]
    rfl

theorem AtTurn.last {k : ℕ} (here : AtTurn fail e event payload k) (more : 536 * k < payload.length)
    (rest : payload.length ≤ 536 * (k + 1)) (fits : payload.length ≤ 3072) :
    (fail k = none ∧ (afterSends fail e (k + 1)).pc = afterApp event (afterSends fail e (k + 1)).ctx ∧
      (afterSends fail e (k + 1)).ctx.currentSequenceNum =
        (afterSends fail e k).ctx.currentSequenceNum + UInt32.ofNat (payload.length - 536 * k)) ∨
    (fail k ≠ none ∧ (afterSends fail e (k + 1)).ctx.currentSequenceNum =
      (afterSends fail e k).ctx.currentSequenceNum - 21) := by
  have whole : 536 * k + (payload.length - 536 * k) = payload.length := by omega
  have short : ¬ ((stcpMss : ℕ) : ℤ) < (payload.length - 536 * k : ℕ) := by
    simp only [stcpMss]
    omega
  rw [here.afterSends_succ, sendSegment_inside _ _ _ whole fits]
  cases result : fail k with
  | none =>
    have size : segmentSize (payload.length - 536 * k : ℕ) none = (payload.length - 536 * k : ℕ) := by
      rw [segmentSize, if_neg short]
      rfl
    rw [size, addInt_natCast]
    simp only [afterSend, sendLoop, sub_self, lt_self_iff_false, if_false]
    exact Or.inl ⟨trivial, trivial, trivial⟩
  | some errno =>
    have size : segmentSize (payload.length - 536 * k : ℕ) (some errno) = -21 := by
      rw [segmentSize, if_neg short]
      rfl
    rw [size]
    refine Or.inr ⟨by simp, ?_⟩
    show addInt _ (-21) = _
    rw [addInt, show UInt32.ofInt (-21) = -21 from rfl, UInt32.sub_eq_add_neg]

end Turn

/-! ## The whole loop -/

/-- The number of full segments before the last one. -/
def lastTurn (payload : List UInt8) : ℕ := (payload.length - 1) / 536

theorem lt_length_of_le_lastTurn {payload : List UInt8} (some : 0 < payload.length) {k : ℕ}
    (le : k ≤ lastTurn payload) : 536 * k < payload.length := by
  unfold lastTurn at le
  omega

theorem afterApp_ne_sendData (event event' : Event) (ctx : Context) (buffer : List UInt8)
    (offset size : ℤ) :
    afterApp event ctx ≠ .sendData event' buffer offset size ∧ afterApp event ctx ≠ .crashed := by
  unfold afterApp afterNetwork loopHead
  split_ifs <;> simp

theorem segmentPayload_segmentAt (e : Endpoint) (payload : List UInt8) (k : ℕ) :
    segmentPayload (segmentAt e payload k) = (payload.drop (536 * k)).take 536 :=
  List.drop_left' rfl

theorem length_segmentPayload (e : Endpoint) (payload : List UInt8) (k : ℕ) :
    (segmentPayload (segmentAt e payload k)).length = min 536 (payload.length - 536 * k) := by
  rw [segmentPayload_segmentAt, List.length_take, List.length_drop]

section Loop

variable {fail : ℕ → Option ℕ} {e : Endpoint} {event : Event} {payload : List UInt8}

theorem pieceOffset_segmentAt (e : Endpoint) (payload : List UInt8) {k : ℕ} (inside : 536 * k < 2 ^ 32) :
    pieceOffset e.ctx.currentSequenceNum (segmentAt e payload k) = 536 * k := by
  rw [pieceOffset, segmentAt, thSeq_bytes, dataHeader]
  show (e.ctx.currentSequenceNum + UInt32.ofNat (536 * k) - e.ctx.currentSequenceNum).toNat = _
  rw [UInt32.add_comm, UInt32.add_sub_cancel, UInt32.toNat_ofNat', Nat.mod_eq_of_lt inside]

/-- A segment that is passed on carries a piece of the payload. -/
theorem carriesPiece_segmentAt {k : ℕ} (more : 536 * k < payload.length)
    (fits : payload.length ≤ 3072) :
    CarriesPiece payload e.ctx.currentSequenceNum (segmentAt e payload k) := by
  have place := pieceOffset_segmentAt e payload (by omega : 536 * k < 2 ^ 32)
  have length := length_segmentPayload e payload k
  refine ⟨by omega, by omega, ?_⟩
  rw [place, length, segmentPayload_segmentAt, ← List.length_drop, ← List.take_eq_take_min]

variable (pc : e.pc = .sendData event payload 0 payload.length) (fits : payload.length ≤ 3072)

include pc fits

theorem atTurn {k : ℕ} (more : 536 * k < payload.length) : AtTurn fail e event payload k := by
  induction k with
  | zero =>
    refine ⟨?_, ?_⟩
    · rw [afterSends, pc]
      rfl
    · rw [afterSends]
      exact (UInt32.add_zero _).symm
  | succ k ih => exact (ih (by omega)).full more fits

/-- The segments reported as sent, up to the last turn. -/
theorem reportedSegments_eq {n : ℕ} (upTo : 536 * n < payload.length + 536) :
    reportedSegments fail e n =
      ((List.range n).filter fun k => (fail k).isNone).map (segmentAt e payload) := by
  have shown : ∀ k ∈ List.range n, sentPackets (sendObs fail e k) =
      if (fail k).isNone = true then [segmentAt e payload k] else [] := by
    intro k member
    have before : 536 * k < payload.length := by
      have := List.mem_range.1 member
      omega
    rw [(atTurn pc fits before).obs before.le fits]
    cases fail k <;> rfl
  rw [reportedSegments]
  generalize List.range n = turns at shown ⊢
  induction turns with
  | nil => rfl
  | cons k rest ih =>
    rw [List.flatMap_cons, shown k (List.mem_cons_self ..),
      ih fun j member => shown j (List.mem_cons_of_mem _ member), List.filter_cons]
    split_ifs <;> rfl

theorem lastTurn_cases (some : 0 < payload.length) :
    (fail (lastTurn payload) = none ∧
      (afterSends fail e (lastTurn payload + 1)).pc =
        afterApp event (afterSends fail e (lastTurn payload + 1)).ctx ∧
      (afterSends fail e (lastTurn payload + 1)).ctx.currentSequenceNum =
        (afterSends fail e (lastTurn payload)).ctx.currentSequenceNum +
          UInt32.ofNat (payload.length - 536 * lastTurn payload)) ∨
    (fail (lastTurn payload) ≠ none ∧
      (afterSends fail e (lastTurn payload + 1)).ctx.currentSequenceNum =
        (afterSends fail e (lastTurn payload)).ctx.currentSequenceNum - 21) := by
  have more := lt_length_of_le_lastTurn some le_rfl
  exact (atTurn pc fits more).last more (by unfold lastTurn; omega) fits

/-- When the last segment has been sent the loop is left and nothing happens any more. -/
theorem left_of_sent (some : 0 < payload.length) (sent : fail (lastTurn payload) = none) {k : ℕ}
    (behind : lastTurn payload < k) :
    afterSends fail e k = afterSends fail e (lastTurn payload + 1) ∧
      sendBody fail (k, afterSends fail e k) = .inr (afterSends fail e k) ∧
      sendObs fail e k = .quiet := by
  obtain ⟨-, pc', -⟩ := (lastTurn_cases pc fits some).resolve_right fun failed => failed.1 sent
  have left : ∀ j, afterSends fail e j = afterSends fail e (lastTurn payload + 1) →
      sendBody fail (j, afterSends fail e j) = .inr (afterSends fail e j) ∧
        sendObs fail e j = .quiet := by
    intro j same
    have out := (afterApp_ne_sendData event · (afterSends fail e (lastTurn payload + 1)).ctx)
    rw [← pc', ← same] at out
    constructor
    · rw [sendBody]
      split
      · rename_i event' buffer offset size inside
        exact absurd inside (out event' buffer offset size).1
      · rfl
    · rw [sendObs]
      split
      · rename_i event' buffer offset size inside
        exact absurd inside (out event' buffer offset size).1
      · rfl
  induction k with
  | zero => omega
  | succ k ih =>
    have same : afterSends fail e (k + 1) = afterSends fail e (lastTurn payload + 1) := by
      rcases Nat.lt_succ_iff_lt_or_eq.1 behind with earlier | rfl
      · obtain ⟨same, out, -⟩ := ih earlier
        rw [afterSends, out]
        exact same
      · rfl
    exact ⟨same, left _ same⟩

/-- The segments reported as sent after any number of turns. -/
theorem exists_reportedSegments (some : 0 < payload.length) (sent : fail (lastTurn payload) = none)
    (n : ℕ) : ∃ m ≤ lastTurn payload + 1, reportedSegments fail e n =
      ((List.range m).filter fun k => (fail k).isNone).map (segmentAt e payload) := by
  have upTo : ∀ m ≤ lastTurn payload + 1, 536 * m < payload.length + 536 := by
    intro m le
    unfold lastTurn at le
    omega
  induction n with
  | zero => exact ⟨0, Nat.zero_le _, rfl⟩
  | succ n ih =>
    by_cases within : n + 1 ≤ lastTurn payload + 1
    · exact ⟨n + 1, within, reportedSegments_eq pc fits (upTo _ within)⟩
    · obtain ⟨m, le, eq⟩ := ih
      refine ⟨m, le, ?_⟩
      rw [← eq, reportedSegments, List.range_succ, List.flatMap_append, List.flatMap_singleton,
        (left_of_sent pc fits some sent (by omega)).2.2]
      exact List.append_nil _

theorem ends_of_sent (some : 0 < payload.length) (sent : fail (lastTurn payload) = none) :
    (sendBody fail).Ends (0, e) (afterSends fail e (lastTurn payload + 1)) := by
  have next : ∀ k s', sendBody fail (k, afterSends fail e k) = .inl s' →
      s' = (k + 1, afterSends fail e (k + 1)) := by
    intro k s' turn
    have count : s'.1 = k + 1 := by
      rw [sendBody] at turn
      split at turn
      · rw [← Sum.inl.inj turn]
      · cases turn
    rw [afterSends, turn, ← count]
  refine (Body.ends_iff next).2 ⟨lastTurn payload + 1, fun j before => ?_,
    (left_of_sent pc fits some sent (by omega)).2.1⟩
  have here : AtTurn fail e event payload j :=
    atTurn pc fits (lt_length_of_le_lastTurn some (Nat.le_of_lt_succ before))
  rw [here.afterSends_succ, sendBody]
  simp only [here.pc]

/-- The last segment is sent where the sequence number never goes back. -/
theorem SendsInOrder.sent (order : SendsInOrder fail e payload) (some : 0 < payload.length) :
    fail (lastTurn payload) = none := by
  by_contra failed
  obtain ⟨-, back⟩ := (lastTurn_cases pc fits some).resolve_left fun sent => failed sent.1
  have forwards := order.forwards (lastTurn payload)
  rw [back, UInt32.sub_eq_add_neg _ 21, UInt32.add_comm, UInt32.add_sub_cancel] at forwards
  exact absurd forwards (by decide)

/-- No send fails after one that did not where the pieces follow each other. -/
theorem SendsInOrder.kept (order : SendsInOrder fail e payload) (some : 0 < payload.length) {i j : ℕ}
    (less : i < j) (le : j ≤ lastTurn payload) (first : fail i = none) : fail j = none := by
  have sent := order.sent pc fits some
  have chain := order.consecutive (lastTurn payload + 1)
  have upTo := lt_length_of_le_lastTurn some le_rfl
  rw [reportedSegments_eq pc fits (by omega), List.isChain_map] at chain
  have gapless : ((List.range (lastTurn payload + 1)).filter fun k => (fail k).isNone).IsChain
      fun a b => b ≤ a + 1 := by
    refine List.IsChain.imp_of_mem_imp (fun a b ha hb next => ?_) chain
    have inside : ∀ k ∈ (List.range (lastTurn payload + 1)).filter fun k => (fail k).isNone,
        536 * k < payload.length := fun k member =>
      lt_length_of_le_lastTurn some
        (Nat.le_of_lt_succ (List.mem_range.1 (List.mem_filter.1 member).1))
    have ha := inside a ha
    have hb := inside b hb
    rw [pieceOffset_segmentAt e payload (by omega), pieceOffset_segmentAt e payload (by omega),
      length_segmentPayload] at next
    omega
  exact Option.isNone_iff_eq_none.1 (kept_of_isChain gapless (Option.isNone_iff_eq_none.2 first)
    (Option.isNone_iff_eq_none.2 sent) (Nat.lt_succ_self _) less.le le)

/-- Every segment is read inside the payload. -/
theorem inside_of_sent (some : 0 < payload.length) (sent : fail (lastTurn payload) = none) {k : ℕ}
    {event' : Event} {buffer : List UInt8} {offset size : ℤ}
    (inside : (afterSends fail e k).pc = .sendData event' buffer offset size) :
    0 ≤ offset ∧ offset + min size 536 ≤ payload.length := by
  obtain ⟨-, pc', -⟩ := (lastTurn_cases pc fits some).resolve_right fun failed => failed.1 sent
  rcases Nat.lt_or_ge (lastTurn payload) k with behind | before
  · rw [(left_of_sent pc fits some sent behind).1, pc'] at inside
    exact absurd inside (afterApp_ne_sendData ..).1
  · have more := lt_length_of_le_lastTurn some before
    rw [(atTurn pc fits more).pc] at inside
    simp only [Pc.sendData.injEq] at inside
    omega

/-- Every turn moves the sequence number forwards, by the piece it passes on or not at all. -/
theorem forwards_of_sent (some : 0 < payload.length) (sent : fail (lastTurn payload) = none) (k : ℕ) :
    ((afterSends fail e (k + 1)).ctx.currentSequenceNum -
      (afterSends fail e k).ctx.currentSequenceNum).toNat < 2 ^ 31 := by
  obtain ⟨-, -, moved⟩ := (lastTurn_cases pc fits some).resolve_right fun failed => failed.1 sent
  rcases Nat.lt_trichotomy (lastTurn payload) k with behind | rfl | before
  · rw [(left_of_sent pc fits some sent (k := k + 1) (by omega)).1,
      (left_of_sent pc fits some sent behind).1, UInt32.sub_self]
    decide
  · rw [moved, UInt32.add_comm, UInt32.add_sub_cancel, UInt32.toNat_ofNat']
    omega
  · rw [(atTurn pc fits (lt_length_of_le_lastTurn some before)).seq,
      (atTurn pc fits (lt_length_of_le_lastTurn some before.le)).seq, Nat.mul_succ,
      UInt32.ofNat_add, ← UInt32.add_assoc, UInt32.add_comm _ (UInt32.ofNat 536),
      UInt32.add_sub_cancel]
    decide

/-- The pieces reported as sent follow each other where no send fails after one that did not. -/
theorem consecutive_of_kept (some : 0 < payload.length) (sent : fail (lastTurn payload) = none)
    (kept : ∀ i j, i < j → j ≤ lastTurn payload → fail i = none → fail j = none) (n : ℕ) :
    (reportedSegments fail e n).IsChain fun pkt next =>
      pieceOffset e.ctx.currentSequenceNum next =
        pieceOffset e.ctx.currentSequenceNum pkt + (segmentPayload pkt).length := by
  obtain ⟨m, le, eq⟩ := exists_reportedSegments pc fits some sent n
  rw [eq, List.isChain_map]
  have keeps : ∀ i j, i < j → j < m → (fail i).isNone = true → (fail j).isNone = true := by
    intro i j less inside first
    exact Option.isNone_iff_eq_none.2
      (kept i j less (by omega) (Option.isNone_iff_eq_none.1 first))
  refine (isChain_filter_range keeps).imp fun a b next => ?_
  have more := lt_length_of_le_lastTurn some (show b ≤ lastTurn payload by omega)
  rw [pieceOffset_segmentAt e payload (by omega), pieceOffset_segmentAt e payload (by omega),
    length_segmentPayload]
  omega

/-- The loop meets its purpose exactly when the last segment is sent and no send fails after one that
did not. -/
theorem sendsInOrder_iff (some : 0 < payload.length) :
    SendsInOrder fail e payload ↔
      fail (lastTurn payload) = none ∧
        ∀ i j, i < j → j ≤ lastTurn payload → fail i = none → fail j = none := by
  constructor
  · intro order
    exact ⟨order.sent pc fits some, fun i j less le first => order.kept pc fits some less le first⟩
  · rintro ⟨sent, kept⟩
    refine ⟨⟨_, ends_of_sent pc fits some sent, ?_⟩, ?_, forwards_of_sent pc fits some sent, ?_,
      consecutive_of_kept pc fits some sent kept⟩
    · obtain ⟨-, pc', -⟩ := (lastTurn_cases pc fits some).resolve_right fun failed => failed.1 sent
      rw [pc']
      exact (afterApp_ne_sendData event event _ [] 0 0).2
    · intro k event' buffer offset size inside
      exact inside_of_sent pc fits some sent inside
    · intro n pkt member
      obtain ⟨m, le, eq⟩ := exists_reportedSegments pc fits some sent n
      rw [eq, List.mem_map] at member
      obtain ⟨k, inside, rfl⟩ := member
      have before := List.mem_range.1 (List.mem_filter.1 inside).1
      exact carriesPiece_segmentAt (lt_length_of_le_lastTurn some (by omega)) fits

end Loop

/-- An endpoint of an established connection that has taken `payload` from the application. -/
def sending (payload : List UInt8) : Endpoint :=
  { established [] with pc := .sendData ⟨true, false, false⟩ payload 0 payload.length }

/-- The results of sends of which only the first fails. -/
def firstFails (k : ℕ) : Option ℕ := if k = 0 then some 5 else none

/-- Two segments, of which the first is lost. -/
theorem sendsInOrder_iff_firstFails :
    SendsInOrder firstFails (sending (List.replicate 600 7)) (List.replicate 600 7) :=
  (sendsInOrder_iff rfl (by rw [List.length_replicate]; omega)
    (by rw [List.length_replicate]; omega)).2
    ⟨by rw [lastTurn, List.length_replicate]; rfl, fun i j less _ _ => if_neg (by omega)⟩

/-- One byte whose segment cannot be sent at first: the sequence number goes back by 21. -/
theorem not_sendsInOrder_oneByte : ¬ SendsInOrder firstFails (sending [7]) [7] := by
  intro order
  exact absurd (order.forwards 0) (by decide)

end ComputerNetwork.Tcp
