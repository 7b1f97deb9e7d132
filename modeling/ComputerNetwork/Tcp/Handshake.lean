import ComputerNetwork.Tcp.Sequence

/-!
# What the handshake reports

`transport_init` sets `errno` where the peer's packet is wrong and leaves it to
`stcp_unblock_application` to pass it on.  In between, `stcp_network_send` and `stcp_network_recv`
look up the local address and clear `errno`, and the last check of the passive side does not set it
at all.  `Stage` follows `errno` through the handshake, and `failureReported_iff` says when a
handshake that failed is reported nevertheless.
-/

namespace ComputerNetwork.Tcp

open Lib Endpoint

/-! ## The property -/

/-- How a call of `stcp_network_send` ends: with `none` where it succeeds, or with its `errno`. -/
def sendError : Action × Obs → List (Option ℕ)
  | (.transport _ fail, .send _ _) => [fail]
  | _ => []

def sendErrors (tr : List (Action × Obs)) : List (Option ℕ) := tr.flatMap sendError

/-- The packet is the right answer to the SYN of an endpoint with initial sequence number `isn`. -/
def AnswersSyn (isn : UInt32) (hdr : List UInt8) : Prop :=
  hasFlag hdr thSYN = true ∧ hasFlag hdr thACK = true ∧ thAck hdr = isn + 1

/-- The packet is the right answer to its SYN-ACK. -/
def AnswersSynAck (isn : UInt32) (hdr : List UInt8) : Prop :=
  hasFlag hdr thACK = true ∧ thAck hdr = isn + 1

/-- The peer took its part in the handshake. -/
def Agreed (isActive : Bool) (isn : UInt32) (tr : List (Action × Obs)) : Prop :=
  if isActive then ∃ hdr, (received tr)[0]? = some hdr ∧ AnswersSyn isn hdr
  else (∃ hdr, (received tr)[0]? = some hdr ∧ hasFlag hdr thSYN = true) ∧
    ∃ hdr, (received tr)[1]? = some hdr ∧ AnswersSynAck isn hdr

/-- Success is reported to the application only where the peer took its part. -/
def FailureReported (isActive : Bool) (isn : UInt32) (tr : List (Action × Obs)) (e : Endpoint) :
    Prop :=
  e.sock.stcpErrno = 0 → Agreed isActive isn tr

/-! ## Where `errno` survives -/

/-- A failure of `stcp_network_send` that `stcp_unblock_application` does not hide. -/
def Reports (fail : Option ℕ) : Prop := ∃ err, fail = some err ∧ err ≠ 0 ∧ err ≠ eINTR

/-- The last call that sets `errno` is a failing send: the active side's ACK, or the passive side's
SYN-ACK if it then receives an empty packet. -/
def LastSendFailed (isActive : Bool) (tr : List (Action × Obs)) : Prop :=
  if isActive then ∃ fail, (sendErrors tr)[1]? = some fail ∧ Reports fail
  else (received tr)[1]? = some [] ∧ ∃ fail, (sendErrors tr)[0]? = some fail ∧ Reports fail

/-- `errno` when the handshake ends. -/
def lastErrno (isActive : Bool) (tr : List (Action × Obs)) : ℕ :=
  if isActive then ((sendErrors tr)[1]?.getD none).getD 0
  else if (received tr)[1]? = some [] then ((sendErrors tr)[0]?.getD none).getD 0
  else 0

/-- All packets of the handshake have been exchanged. -/
def Exchanged (isActive : Bool) (tr : List (Action × Obs)) : Prop :=
  if isActive then 1 ≤ (received tr).length ∧ 2 ≤ (sendErrors tr).length
  else 2 ≤ (received tr).length ∧ 1 ≤ (sendErrors tr).length

theorem sendErrors_snoc (tr : List (Action × Obs)) (a : Action) (o : Obs) :
    sendErrors (tr ++ [(a, o)]) = sendErrors tr ++ sendError (a, o) := by
  simp [sendErrors]

theorem Exchanged.snoc {isActive : Bool} {tr : List (Action × Obs)} (h : Exchanged isActive tr)
    (a : Action) (o : Obs) : Exchanged isActive (tr ++ [(a, o)]) ∧
      lastErrno isActive (tr ++ [(a, o)]) = lastErrno isActive tr := by
  unfold Exchanged lastErrno at *
  rw [received_snoc, sendErrors_snoc, List.length_append, List.length_append]
  cases isActive with
  | true =>
    obtain ⟨heard, sent⟩ : 1 ≤ (received tr).length ∧ 2 ≤ (sendErrors tr).length := h
    refine ⟨⟨by omega, by omega⟩, ?_⟩
    simp only [if_true]
    rw [List.getElem?_append_left (by omega)]
  | false =>
    obtain ⟨heard, sent⟩ : 2 ≤ (received tr).length ∧ 1 ≤ (sendErrors tr).length := h
    refine ⟨⟨by omega, by omega⟩, ?_⟩
    simp only [Bool.false_eq_true, if_false]
    rw [List.getElem?_append_left (by omega), List.getElem?_append_left (by omega)]

/-! ## The invariant -/

/-- What has been exchanged, and where `errno` comes from, at each point of the handshake. -/
def Stage (isActive : Bool) (tr : List (Action × Obs)) (e : Endpoint) : Prop :=
  match e.pc with
  | .sendSyn => isActive = true ∧ received tr = [] ∧ sendErrors tr = []
  | .recvSynAck => isActive = true ∧ received tr = [] ∧ ∃ fail, sendErrors tr = [fail]
  | .sendAck => isActive = true ∧ ∃ hdr fail, received tr = [hdr] ∧ sendErrors tr = [fail]
  | .recvSyn => isActive = false ∧ received tr = [] ∧ sendErrors tr = []
  | .sendSynAck => isActive = false ∧ ∃ hdr, received tr = [hdr] ∧ sendErrors tr = []
  | .recvAck => isActive = false ∧ ∃ hdr fail, received tr = [hdr] ∧ sendErrors tr = [fail] ∧
      e.errno = fail.getD 0
  | .unblock => Exchanged isActive tr ∧ e.errno = lastErrno isActive tr
  | _ => Exchanged isActive tr ∧
      e.sock.stcpErrno = if lastErrno isActive tr = eINTR then 0 else lastErrno isActive tr

/-- The thread is in the control loop or behind it. -/
def pastHandshake (pc : Pc) : Bool := !inHandshake pc && pc != .unblock

theorem past_iff {pc : Pc} : pastHandshake pc = true ↔ inHandshake pc = false ∧ pc ≠ .unblock := by
  simp [pastHandshake]

/-- The control loop never goes back, and leaves what was reported. -/
theorem Endpoint.TransportStep.past {e e' : Endpoint} {maxLen : ℕ} {fail : Option ℕ} {o : Obs}
    (st : TransportStep e maxLen fail e' o) (past : pastHandshake e.pc = true) :
    pastHandshake e'.pc = true ∧ e'.sock.stcpErrno = e.sock.stcpErrno := by
  cases st with
  | sendSyn pc | recvSynAck pc | sendAck pc | recvSyn pc | sendSynAck pc | recvAck pc | unblock pc =>
    rw [pc] at past
    cases past
  | @sendData event buffer payload payloadSize pc =>
    unfold sendSegment
    dsimp only
    split_ifs
    · exact ⟨rfl, rfl⟩
    · exact ⟨past_iff.2 (past_sendLoop ..), rfl⟩
  | @call event c rest pc =>
    cases c with
    | appSend src srcLen =>
      rw [Endpoint.call]
      split_ifs
      · exact ⟨past_iff.2 (past_callsPc ..), rfl⟩
      · exact ⟨past_iff.2 (past_callsPc ..), rfl⟩
      · exact ⟨rfl, rfl⟩
    | finReceived => exact ⟨past_iff.2 (past_callsPc ..), rfl⟩
    | networkSend pkt => exact ⟨past_iff.2 (past_callsPc ..), rfl⟩
  | waitForEvent => exact ⟨past_iff.2 (past_afterWait ..), rfl⟩
  | appRecv => exact ⟨past_iff.2 (past_sendLoop ..), rfl⟩
  | appRecvOverflow => exact ⟨rfl, rfl⟩
  | networkRecv => exact ⟨past_iff.2 (past_callsPc ..), rfl⟩
  | sendFin => exact ⟨past_iff.2 (past_loopHead _), rfl⟩
  | finalEof => exact ⟨rfl, rfl⟩

theorem stage_of_past {isActive : Bool} {tr : List (Action × Obs)} {e : Endpoint}
    (past : pastHandshake e.pc = true) : Stage isActive tr e ↔ Exchanged isActive tr ∧
      e.sock.stcpErrno = if lastErrno isActive tr = eINTR then 0 else lastErrno isActive tr := by
  unfold Stage
  cases h : e.pc <;> first | rfl | (rw [h] at past; cases past)

theorem Stage.transport {isActive : Bool} {tr : List (Action × Obs)} {e e' : Endpoint}
    {maxLen : ℕ} {fail : Option ℕ} {o : Obs} (h : Stage isActive tr e)
    (st : TransportStep e maxLen fail e' o) :
    Stage isActive (tr ++ [(.transport maxLen fail, o)]) e' := by
  by_cases past : pastHandshake e.pc = true
  · obtain ⟨exchanged, reported⟩ := (stage_of_past past).1 h
    obtain ⟨past', same⟩ := st.past past
    obtain ⟨exchanged', settled⟩ := exchanged.snoc (.transport maxLen fail) o
    rw [stage_of_past past', same, settled]
    exact ⟨exchanged', reported⟩
  cases st with
  | sendSyn pc =>
    simp only [Stage, pc] at h
    obtain ⟨active, heard, sent⟩ := h
    refine ⟨active, by simp [received_snoc, heard, receipts], fail, ?_⟩
    simp [sendErrors_snoc, sent, sendError]
  | recvSynAck pc queue answer =>
    simp only [Stage, pc] at h
    obtain ⟨active, heard, first, sent⟩ := h
    refine ⟨active, _, first, by rw [received_snoc, heard]; rfl, ?_⟩
    simp [sendErrors_snoc, sent, sendError]
  | sendAck pc =>
    simp only [Stage, pc] at h
    obtain ⟨rfl, hdr, first, heard, sent⟩ := h
    have heard' := received_snoc tr (.transport maxLen fail)
      (.send (handshakeAckHeader e.ctx).bytes fail.isNone)
    have sent' := sendErrors_snoc tr (.transport maxLen fail)
      (.send (handshakeAckHeader e.ctx).bytes fail.isNone)
    rw [heard] at heard'
    rw [sent] at sent'
    exact ⟨⟨by simp [heard'], by simp [sent', sendError]⟩,
      by simp [lastErrno, sent', sendError, afterSend]⟩
  | recvSyn pc queue answer =>
    simp only [Stage, pc] at h
    obtain ⟨passive, heard, sent⟩ := h
    refine ⟨passive, _, by rw [received_snoc, heard]; rfl, ?_⟩
    simp [sendErrors_snoc, sent, sendError]
  | sendSynAck pc =>
    simp only [Stage, pc] at h
    obtain ⟨passive, hdr, heard, sent⟩ := h
    refine ⟨passive, hdr, fail, by simp [received_snoc, heard, receipts], ?_, rfl⟩
    simp [sendErrors_snoc, sent, sendError]
  | @recvAck pkt rest pc queue =>
    simp only [Stage, pc] at h
    obtain ⟨rfl, hdr, first, heard, sent, errno⟩ := h
    have heard' := received_snoc tr (.transport maxLen fail) (.recv (pkt.take 20) pkt.length)
    have sent' := sendErrors_snoc tr (.transport maxLen fail) (.recv (pkt.take 20) pkt.length)
    rw [heard] at heard'
    rw [sent] at sent'
    refine ⟨⟨by simp [heard', receipts], by simp [sent']⟩, ?_⟩
    show e.recvErrno pkt.length = lastErrno false _
    rw [lastErrno, heard', sent', recvErrno, errno]
    cases pkt with
    | nil => simp [receipts]
    | cons b rest => simp [receipts]
  | unblock pc =>
    simp only [Stage, pc] at h
    obtain ⟨exchanged, errno⟩ := h
    obtain ⟨exchanged', settled⟩ := exchanged.snoc (.transport maxLen fail) .quiet
    rw [stage_of_past (past_iff.2 (past_loopHead _)), settled, ← errno]
    exact ⟨exchanged', rfl⟩
  | waitForEvent pc | appRecv pc | appRecvOverflow pc | sendData pc | networkRecv pc | call pc
  | sendFin pc | finalEof pc =>
    rw [pc] at past
    exact absurd rfl past

/-- A step of the application or of the network thread. -/
theorem Stage.environment {isActive : Bool} {tr : List (Action × Obs)} {e e' : Endpoint}
    {a : Action} {o : Obs} (h : Stage isActive tr e) (st : e.step a = some (e', o))
    (other : ∀ maxLen fail, a ≠ .transport maxLen fail) : Stage isActive (tr ++ [(a, o)]) e' := by
  have quiet := (step_environment st other).2.2.2
  have heard : received (tr ++ [(a, o)]) = received tr := by
    rw [received_snoc, quiet]
    exact List.append_nil _
  have sent : sendErrors (tr ++ [(a, o)]) = sendErrors tr := by
    rw [sendErrors_snoc, quiet]
    cases a <;> exact List.append_nil _
  obtain ⟨pc, errno, reported⟩ : e'.pc = e.pc ∧ e'.errno = e.errno ∧
      e'.sock.stcpErrno = e.sock.stcpErrno := by
    cases environmentStep_of_eq st other with
    | mywrite | myclose | myread | deliver => exact ⟨rfl, rfl, rfl⟩
  unfold Stage Exchanged lastErrno at *
  rw [pc, heard, sent, errno, reported]
  exact h

/-- The application is blocked until the handshake is over. -/
def BlockedInHandshake (e : Endpoint) : Prop := pastHandshake e.pc = false → e.sock.blocking = true

theorem BlockedInHandshake.transport {e e' : Endpoint} {maxLen : ℕ} {fail : Option ℕ} {o : Obs}
    (h : BlockedInHandshake e) (st : TransportStep e maxLen fail e' o) : BlockedInHandshake e' := by
  intro early
  by_cases past : pastHandshake e.pc = true
  · rw [(st.past past).1] at early
    cases early
  · have blocked := h (Bool.not_eq_true _ ▸ past)
    cases st with
    | unblock pc =>
      rw [past_iff.2 (past_loopHead _)] at early
      cases early
    | sendSyn pc | recvSynAck pc | sendAck pc | recvSyn pc | sendSynAck pc | recvAck pc =>
      exact blocked
    | waitForEvent pc | appRecv pc | appRecvOverflow pc | sendData pc | networkRecv pc | call pc
    | sendFin pc | finalEof pc =>
      rw [pc] at past
      exact absurd rfl past

theorem BlockedInHandshake.environment {e e' : Endpoint} {a : Action} {o : Obs}
    (h : BlockedInHandshake e) (st : e.step a = some (e', o))
    (other : ∀ maxLen fail, a ≠ .transport maxLen fail) : BlockedInHandshake e' := by
  have pc := (step_environment st other).1
  have blocking : e'.sock.blocking = e.sock.blocking := by
    cases environmentStep_of_eq st other with
    | mywrite | myclose | myread | deliver => rfl
  unfold BlockedInHandshake at *
  rw [pc, blocking]
  exact h

theorem stage_of_run {isActive : Bool} {r : ℕ} {tr : List (Action × Obs)} {e : Endpoint}
    (run : machine.Run (init isActive r) tr e) : Stage isActive tr e ∧ BlockedInHandshake e := by
  refine run.invariant (I := fun tr e => Stage isActive tr e ∧ BlockedInHandshake e) ?_ ?_
  · cases isActive with
    | true => exact ⟨⟨rfl, rfl, rfl⟩, fun _ => rfl⟩
    | false => exact ⟨⟨rfl, rfl, rfl⟩, fun _ => rfl⟩
  · intro tr e a o e' _ before _ st
    obtain ⟨stage, blocked⟩ := before
    change e.step a = some (e', o) at st
    cases a with
    | transport maxLen fail =>
      have step := transportStep_of_eq st
      exact ⟨stage.transport step, blocked.transport step⟩
    | _ => exact ⟨stage.environment st (by simp), blocked.environment st (by simp)⟩

/-! ## Reports -/

/-- What the application is told is the `errno` of the last failing send, or success. -/
theorem stcpErrno_eq_zero_iff {isActive : Bool} {r : ℕ} {tr : List (Action × Obs)} {e : Endpoint}
    (run : machine.Run (init isActive r) tr e) (done : e.sock.blocking = false) :
    e.sock.stcpErrno = 0 ↔ ¬ LastSendFailed isActive tr := by
  obtain ⟨stage, blocked⟩ := stage_of_run run
  have past : pastHandshake e.pc = true := by
    by_contra early
    rw [blocked (Bool.not_eq_true _ ▸ early)] at done
    cases done
  obtain ⟨exchanged, reported⟩ := (stage_of_past past).1 stage
  rw [reported]
  have hidden : ∀ fail : Option ℕ,
      (if fail.getD 0 = eINTR then 0 else fail.getD 0) = 0 ↔ ¬ Reports fail := by
    intro fail
    cases fail with
    | none => simp [Reports, eINTR]
    | some err =>
      simp only [Option.getD_some, Reports, Option.some.injEq, exists_eq_left', not_and, not_not]
      split_ifs with interrupted <;> simp [interrupted]
  unfold Exchanged at exchanged
  unfold lastErrno LastSendFailed
  cases isActive with
  | true =>
    simp only [if_true] at exchanged ⊢
    obtain ⟨fail, second⟩ : ∃ fail, (sendErrors tr)[1]? = some fail :=
      ⟨_, List.getElem?_eq_getElem (by omega)⟩
    simp only [second, Option.getD_some, Option.some.injEq, exists_eq_left', hidden]
  | false =>
    simp only [Bool.false_eq_true, if_false] at exchanged ⊢
    obtain ⟨fail, first⟩ : ∃ fail, (sendErrors tr)[0]? = some fail :=
      ⟨_, List.getElem?_eq_getElem (by omega)⟩
    simp only [first, Option.getD_some, Option.some.injEq, exists_eq_left']
    by_cases empty : (received tr)[1]? = some []
    · simp only [empty, if_true, true_and, hidden]
    · simp [empty]

/-- A failed handshake is reported exactly where the last call that touches `errno` is a send that
fails. -/
theorem failureReported_iff {isActive : Bool} {r : ℕ} {tr : List (Action × Obs)} {e : Endpoint}
    (run : machine.Run (init isActive r) tr e) (done : e.sock.blocking = false) :
    FailureReported isActive (UInt32.ofNat (r % 256)) tr e ↔
      Agreed isActive (UInt32.ofNat (r % 256)) tr ∨ LastSendFailed isActive tr := by
  rw [FailureReported, stcpErrno_eq_zero_iff run done]
  tauto

/-- The peer answers the SYN as it should. -/
theorem failureReported_iff_agreed : ∃ tr e, machine.Run (init true 0) tr e ∧
    e.sock.blocking = false ∧ FailureReported true 0 tr e := by
  obtain ⟨tr, e, run, done, answer⟩ := Machine.Runs.exists_of_exec (M := machine) (i := init true 0)
    (C := fun _ _ _ => true)
    (P := fun tr e => e.sock.blocking = false ∧ (received tr)[0]? =
      some ({ thSeq := 7, thAck := 1, thOff := 5, thFlags := thSYN ||| thACK } : STCPHeader).bytes)
    [.transport 0 none,
      .deliver ({ thSeq := 7, thAck := 1, thOff := 5, thFlags := thSYN ||| thACK } : STCPHeader).bytes,
      .transport 0 none, .transport 0 none, .transport 0 none] (by decide +kernel)
  have all := run.mono (D := fun _ _ _ => True) fun _ _ _ _ => trivial
  refine ⟨tr, e, all, done, (failureReported_iff all done).2 (Or.inl ?_)⟩
  exact ⟨_, answer, by decide, by decide, by decide⟩

/-- A packet without SYN and ACK is taken for the answer. -/
theorem not_failureReported_answer : ¬ ∀ (isActive : Bool) (r : ℕ) tr e,
    machine.Run (init isActive r) tr e → e.sock.blocking = false →
      FailureReported isActive (UInt32.ofNat (r % 256)) tr e := by
  intro all
  obtain ⟨tr, e, run, done, reported, answer⟩ := Machine.Runs.exists_of_exec (M := machine)
    (i := init true 0) (C := fun _ _ _ => true)
    (P := fun tr e => e.sock.blocking = false ∧ e.sock.stcpErrno = 0 ∧
      (received tr)[0]? = some ({ thOff := 5 } : STCPHeader).bytes)
    [.transport 0 none, .deliver ({ thOff := 5 } : STCPHeader).bytes, .transport 0 none,
      .transport 0 none, .transport 0 none] (by decide +kernel)
  obtain ⟨hdr, first, syn, -⟩ := all true 0 tr e (run.mono fun _ _ _ _ => trivial) done reported
  rw [answer] at first
  cases first
  cases syn

end ComputerNetwork.Tcp
