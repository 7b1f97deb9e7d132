import ComputerNetwork.Tcp.Stream

/-!
# What becomes of one segment

`networkBranch` runs the STCP thread through the `NETWORK_DATA` branch of one iteration, from
`stcp_network_recv` to the test of the next branch.  The branch looks at one flag at a time: an
acknowledgement hides whatever else the segment carries, and a FIN is announced before the data that
comes with it and acknowledged without it.  `segment_handled_iff` says for which segments this does
what a receiver has to do (`SegmentHandled`).
-/

namespace ComputerNetwork.Tcp

open Lib Endpoint

/-- The steps of the STCP thread inside the `NETWORK_DATA` branch, at most `n` of them, and where it
stands afterwards; `fail` gives the outcome of the sends. -/
def networkBranch (fail : ℕ → Option ℕ) : ℕ → Endpoint → List Obs × Endpoint
  | 0, e => ([], e)
  | n + 1, e =>
    match e.pc with
    | .networkRecv _ | .calls _ _ =>
      match e.transport 0 (fail n) with
      | some (e', o) => (o :: (networkBranch fail n e').1, (networkBranch fail n e').2)
      | none => ([], e)
    | _ => ([], e)

/-- The application data a segment carries; STCP headers have no options. -/
def segmentPayload (pkt : List UInt8) : List UInt8 := pkt.drop sizeofSTCPHeader

/-- What a receiver has to do with a segment: hand up its payload once and then, for a FIN, the EOF
marker, and acknowledge everything in the segment that takes up sequence numbers. -/
structure SegmentHandled (pkt : List UInt8) (obs : List Obs) : Prop where
  handedUp : obs.flatMap putBuffers =
    (if segmentPayload pkt = [] then [] else [segmentPayload pkt]) ++
      (if hasFlag pkt thFIN then [[]] else [])
  acknowledged : segmentPayload pkt ≠ [] ∨ hasFlag pkt thFIN = true →
    ∃ reply ∈ obs.flatMap attempts, hasFlag reply thACK = true ∧
      thAck reply = thSeq pkt + UInt32.ofNat (segmentPayload pkt).length +
        (if hasFlag pkt thFIN then 1 else 0)

/-! ## The calls of the branch -/

/-- The buffers a call puts on `app_send_queue`. -/
def callPuts : Call → List (List UInt8)
  | .finReceived => [[]]
  | .appSend src srcLen => if srcLen = 0 then [] else [src.take srcLen.toNat]
  | .networkSend _ => []

/-- The packets a call sends. -/
def callReplies : Call → List (List UInt8)
  | .networkSend pkt => [pkt]
  | _ => []

theorem hasFlag_ackHeader (ack : UInt32) : hasFlag (ackHeader ack).bytes thACK = true := by
  have flags : thFlags (ackHeader ack).bytes = thACK := rfl
  rw [hasFlag, flags]
  decide

theorem thAck_ackHeader (ack : UInt32) : thAck (ackHeader ack).bytes = ack := by
  have field := thAck_bytes (ackHeader ack) []
  rwa [List.append_nil] at field

theorem callFit_ack (ack : UInt32) : CallFit (.networkSend (ackHeader ack).bytes) := rfl

/-- A call in bounds shows what it does and moves on to the next call. -/
theorem call_fit {c : Call} (fit : CallFit c) (e : Endpoint) (fail : Option ℕ) (event : Event)
    (rest : List Call) :
    (e.call fail event rest c).1.ctx = e.ctx ∧
      (e.call fail event rest c).1.pc = callsPc event rest e.ctx ∧
      putBuffers (e.call fail event rest c).2 = callPuts c ∧
      attempts (e.call fail event rest c).2 = callReplies c := by
  cases c with
  | finReceived | networkSend pkt => exact ⟨rfl, rfl, rfl, rfl⟩
  | appSend src srcLen =>
    obtain ⟨start, stop⟩ := fit
    by_cases zero : srcLen = 0
    · rw [Endpoint.call, if_pos zero, callPuts, if_pos zero]
      exact ⟨rfl, rfl, rfl, rfl⟩
    · rw [Endpoint.call, if_neg zero, if_pos ⟨by omega, stop⟩, callPuts, if_neg zero]
      exact ⟨rfl, rfl, rfl, rfl⟩

theorem networkBranch_leaves (fail : ℕ → Option ℕ) (n : ℕ) {e : Endpoint} {event : Event}
    (pc : e.pc = afterNetwork event e.ctx) : networkBranch fail n e = ([], e) := by
  cases n with
  | zero => rfl
  | succ n =>
    have stop : e.pc = .sendFin ∨ e.pc = .finalEof ∨ e.pc = .waitForEvent := by
      rw [pc, afterNetwork, loopHead]
      split_ifs <;> simp
    rw [networkBranch]
    rcases stop with h | h | h <;> rw [h]

/-- The calls of the branch are all made, in order. -/
theorem networkBranch_calls (fail : ℕ → Option ℕ) (event : Event) {pending : List Call}
    (fit : ∀ c ∈ pending, CallFit c) {n : ℕ} (enough : pending.length ≤ n) {e : Endpoint}
    (pc : e.pc = callsPc event pending e.ctx) :
    (networkBranch fail n e).1.flatMap putBuffers = pending.flatMap callPuts ∧
      (networkBranch fail n e).1.flatMap attempts = pending.flatMap callReplies ∧
      (networkBranch fail n e).2.pc = afterNetwork event (networkBranch fail n e).2.ctx := by
  induction pending generalizing n e with
  | nil =>
    rw [callsPc, if_pos rfl] at pc
    rw [networkBranch_leaves fail n pc]
    exact ⟨rfl, rfl, pc⟩
  | cons c rest ih =>
    cases n with
    | zero => simp at enough
    | succ n =>
      rw [callsPc, if_neg (by simp)] at pc
      rw [List.length_cons] at enough
      have step : e.transport 0 (fail n) = some (e.call (fail n) event rest c) := by
        rw [Endpoint.transport, pc]
      obtain ⟨ctx, next, shownPuts, shownSends⟩ :=
        call_fit (fit c (List.mem_cons_self ..)) e (fail n) event rest
      rw [← ctx] at next
      obtain ⟨h1, h2, h3⟩ := ih (fun c hc => fit c (List.mem_cons_of_mem _ hc))
        (Nat.le_of_succ_le_succ enough) next
      rw [networkBranch, pc]
      simp only [step, List.flatMap_cons, h1, h2, h3, shownPuts, shownSends, and_self]

/-! ## The whole branch -/

section Segment

variable {e : Endpoint} {event : Event} {pkt : List UInt8} {rest : List (List UInt8)}

theorem callPuts_payload (long : 20 ≤ pkt.length) (short : pkt.length ≤ 556) :
    CallFit (.appSend ((zeroFill 556 (pkt.take 556)).drop sizeofSTCPHeader)
        (pkt.length - sizeofSTCPHeader : ℤ)) ∧
      callPuts (.appSend ((zeroFill 556 (pkt.take 556)).drop sizeofSTCPHeader)
        (pkt.length - sizeofSTCPHeader : ℤ)) =
        if segmentPayload pkt = [] then [] else [segmentPayload pkt] := by
  have body := drop_zeroFill_take long short
  have size : ((pkt.length : ℤ) - (20 : ℕ)).toNat = (pkt.drop 20).length := by
    rw [List.length_drop]
    omega
  have empty : (pkt.length : ℤ) - (20 : ℕ) = 0 ↔ pkt.drop 20 = [] := by
    rw [List.drop_eq_nil_iff]
    omega
  rw [show sizeofSTCPHeader = 20 from rfl, body]
  refine ⟨?_, ?_⟩
  · simp only [CallFit, List.length_append, List.length_drop]
    omega
  · simp only [callPuts, segmentPayload, size, empty, List.take_left']
    rfl

/-- What the branch does with a segment of legal length. -/
theorem networkBranch_shows (fail : ℕ → Option ℕ) (pc : e.pc = .networkRecv event)
    (est : e.ctx.connectionState = .established)
    (queue : e.sock.networkRecvQueue = pkt :: rest) (long : 20 ≤ pkt.length)
    (short : pkt.length ≤ 556) :
    (networkBranch fail 4 e).1.flatMap putBuffers =
        (if hasFlag pkt thACK then []
        else (if hasFlag pkt thFIN then [[]] else []) ++
          (if segmentPayload pkt = [] then [] else [segmentPayload pkt])) ∧
      (networkBranch fail 4 e).1.flatMap attempts =
        (if hasFlag pkt thACK then []
        else if hasFlag pkt thFIN then [(ackHeader (thSeq pkt + 1)).bytes]
        else [(ackHeader (thSeq pkt + UInt32.ofNat (segmentPayload pkt).length)).bytes]) ∧
      (networkBranch fail 4 e).2.pc = afterNetwork event (networkBranch fail 4 e).2.ctx := by
  rcases branch : networkData e.ctx (zeroFill 556 (pkt.take 556)) pkt.length with ⟨ctx, pending⟩
  have step : e.transport 0 (fail 3) = some
      ({ e with sock := { e.sock with networkRecvQueue := rest }, ctx,
                errno := e.recvErrno pkt.length, pc := callsPc event pending ctx },
        .recv (pkt.take 556) pkt.length) := by
    rw [Endpoint.transport, pc]
    simp only [stcpNetworkRecv_cons queue, Option.map_some]
    rw [show stcpMss + 20 = 556 from rfl, branch]
  have flag := hasFlag_zeroFill_take pkt (by omega : 20 ≤ 556)
  have seq := thSeq_zeroFill_take pkt (by omega : 20 ≤ 556)
  obtain ⟨fit, up⟩ := callPuts_payload long short
  have size : (pkt.length : ℤ) - (sizeofSTCPHeader : ℕ) = ((segmentPayload pkt).length : ℕ) := by
    rw [segmentPayload, List.length_drop, sizeofSTCPHeader]
    omega
  have run : ∀ pending', pending = pending' → (∀ c ∈ pending', CallFit c) → pending'.length ≤ 3 →
      (networkBranch fail 4 e).1.flatMap putBuffers = pending'.flatMap callPuts ∧
      (networkBranch fail 4 e).1.flatMap attempts = pending'.flatMap callReplies ∧
      (networkBranch fail 4 e).2.pc = afterNetwork event (networkBranch fail 4 e).2.ctx := by
    rintro pending' rfl fits enough
    obtain ⟨h1, h2, h3⟩ := networkBranch_calls fail event fits enough
      (e := { e with sock := { e.sock with networkRecvQueue := rest }, ctx,
                     errno := e.recvErrno pkt.length, pc := callsPc event pending ctx }) rfl
    rw [networkBranch, pc]
    simp only [step, List.flatMap_cons, h1, h2, h3, putBuffers, attempts, List.nil_append, and_self]
  rcases networkData_cases branch est with ⟨ack, -, hp⟩ | ⟨ack, fin, -, hp⟩ | ⟨ack, fin, -, hp⟩
  · rw [flag] at ack
    simpa [ack] using run _ hp (by simp) (by simp)
  · rw [flag] at ack fin
    rw [seq] at hp
    by_cases data : sizeofSTCPHeader < pkt.length
    · rw [if_pos data] at hp
      have shown := run _ hp (by simpa [fit] using ⟨trivial, callFit_ack _⟩) (by simp)
      simp only [List.flatMap_cons, List.flatMap_nil, List.append_nil, List.cons_append,
        List.nil_append, up] at shown
      simpa [ack, fin, callReplies, callPuts] using shown
    · rw [if_neg data] at hp
      have none : segmentPayload pkt = [] := List.drop_eq_nil_of_le (by omega)
      have shown := run _ hp (by simpa using ⟨trivial, callFit_ack _⟩) (by simp)
      simpa [ack, fin, none, callReplies, callPuts] using shown
  · rw [flag] at ack fin
    rw [seq, size, addInt_natCast] at hp
    have shown := run _ hp (by rw [← size]; simpa [fit] using callFit_ack _) (by simp)
    simp only [← size, List.flatMap_cons, List.flatMap_nil, List.append_nil, up] at shown
    rw [size] at shown
    simpa [ack, fin, callReplies, callPuts] using shown

/-- The branch handles a segment exactly when it has neither flag, or one of them and no payload. -/
theorem segment_handled_iff (fail : ℕ → Option ℕ) (pc : e.pc = .networkRecv event)
    (est : e.ctx.connectionState = .established)
    (queue : e.sock.networkRecvQueue = pkt :: rest) (long : 20 ≤ pkt.length)
    (short : pkt.length ≤ 556) :
    SegmentHandled pkt (networkBranch fail 4 e).1 ↔
      (hasFlag pkt thACK = false ∧ hasFlag pkt thFIN = false) ∨
        (segmentPayload pkt = [] ∧ ¬ (hasFlag pkt thACK = true ∧ hasFlag pkt thFIN = true)) := by
  obtain ⟨up, out, -⟩ := networkBranch_shows fail pc est queue long short
  constructor
  · intro handled
    have h := handled.handedUp
    rw [up] at h
    by_cases ack : hasFlag pkt thACK = true
    · rw [if_pos ack] at h
      rcases List.append_eq_nil_iff.1 h.symm with ⟨h1, h2⟩
      have data : segmentPayload pkt = [] := by
        by_contra data
        rw [if_neg data] at h1
        cases h1
      refine Or.inr ⟨data, fun flags => ?_⟩
      rw [if_pos flags.2] at h2
      cases h2
    · by_cases fin : hasFlag pkt thFIN = true
      · refine Or.inr ⟨?_, fun flags => ack flags.1⟩
        by_contra data
        rw [if_neg ack, if_pos fin, if_neg data, List.singleton_append, List.singleton_append,
          List.cons.injEq] at h
        exact data h.1.symm
      · exact Or.inl ⟨by simpa using ack, by simpa using fin⟩
  · rintro (⟨ack, fin⟩ | ⟨data, flags⟩)
    · refine ⟨by rw [up]; simp [ack, fin], fun _ => ?_⟩
      rw [out]
      simp only [ack, fin, Bool.false_eq_true, if_false, List.mem_singleton, exists_eq_left]
      exact ⟨hasFlag_ackHeader _, by rw [thAck_ackHeader, UInt32.add_zero]⟩
    · refine ⟨?_, fun due => ?_⟩
      · rw [up]
        by_cases ack : hasFlag pkt thACK = true
        · have fin : hasFlag pkt thFIN = false := by simpa [ack] using flags
          simp [ack, fin, data]
        · simp [ack, data]
      · have fin : hasFlag pkt thFIN = true := due.resolve_left (not_not.2 data)
        have ack : hasFlag pkt thACK = false := by simpa [fin] using flags
        rw [out]
        simp only [ack, fin, Bool.false_eq_true, if_false, if_true, List.mem_singleton,
          exists_eq_left, data, List.length_nil]
        exact ⟨hasFlag_ackHeader _, by rw [thAck_ackHeader]; simp⟩

end Segment

/-- An endpoint of an established connection that has been woken for the packet `pkt`. -/
def established (pkt : List UInt8) : Endpoint :=
  { ctx := { generateInitialSeqNum 7 with oppSequenceNum := 41, currentSequenceNum := 8 }
    sock := { mysockAllocateContext false with blocking := false, networkRecvQueue := [pkt] }
    errno := 0, pc := .networkRecv ⟨false, true, false⟩, appClosed := false }

/-- A bare FIN is handled. -/
theorem segment_handled_bare_fin :
    SegmentHandled (finHeader (generateInitialSeqNum 42)).bytes
      (networkBranch (fun _ => none) 4 (established (finHeader (generateInitialSeqNum 42)).bytes)).1 :=
  (segment_handled_iff (fun _ => none) rfl rfl
    (show (established _).sock.networkRecvQueue = [_] from rfl) (by decide) (by decide)).2
    (Or.inr ⟨rfl, by decide⟩)

/-- A FIN that comes with two bytes of data is announced before them and acknowledged without
them. -/
theorem segment_not_handled_fin_data :
    ¬ SegmentHandled ((finHeader (generateInitialSeqNum 42)).bytes ++ [104, 105])
      (networkBranch (fun _ => none) 4
        (established ((finHeader (generateInitialSeqNum 42)).bytes ++ [104, 105]))).1 := by
  intro handled
  exact absurd handled.handedUp (by decide)


end ComputerNetwork.Tcp
