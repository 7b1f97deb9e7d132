import ComputerNetwork.Lib.Rest
import ComputerNetwork.Tcp.Stream
import ComputerNetwork.Tcp.Sequence

/-!
# Connections at rest

A connection is at rest when neither STCP thread can take a step and no packet can be delivered.
`Standing` is what each endpoint keeps on the way to its FIN, and `Closing` says of one direction
where the FIN is and that its acknowledgement is not lost.  The handshake cannot leave both threads
waiting for each other, so at rest both wait in the control loop, in `established`, with everything
handed up (`atRest_delivered`).  A connection that one of its applications has closed never comes to
rest: the acknowledgement of the first FIN stays on the queue of the thread it wakes.
-/

namespace ComputerNetwork.Tcp

open Lib Endpoint

/-! ## One endpoint -/

/-- The FIN is sent before the thread waits again. -/
def finDue : Pc → Bool
  | .networkRecv ev | .calls ev _ => ev.appCloseRequested
  | .sendFin => true
  | _ => false

/-- The acknowledgement of a packet has still to be sent. -/
def AckDue (pc : Pc) : Prop := ∃ pkt, Call.networkSend pkt ∈ pendingCalls pc

/-- The thread stands before a call that it does not have. -/
def idleCalls : Pc → Bool
  | .calls _ [] => true
  | _ => false

/-- What an endpoint of the given role keeps: a close request is not lost on the way to the FIN. -/
structure Standing (isActive : Bool) (e : Endpoint) : Prop where
  role : roleOk isActive e.pc = true
  calls : idleCalls e.pc = false
  request : e.appClosed = true →
    e.sock.closeRequested = true ∨ finDue e.pc = true ∨ Finished e

section Branches

variable {ev : Event} {ctx : Context}

theorem finDue_afterNetwork (close : ev.appCloseRequested = true) :
    finDue (afterNetwork ev ctx) = true := by
  rw [afterNetwork, if_pos close]
  rfl

theorem finDue_afterApp (close : ev.appCloseRequested = true) : finDue (afterApp ev ctx) = true := by
  unfold afterApp
  split_ifs
  · exact close
  · exact finDue_afterNetwork close

theorem finDue_callsPc (close : ev.appCloseRequested = true) (pending : List Call) :
    finDue (callsPc ev pending ctx) = true := by
  unfold callsPc
  split_ifs
  · exact finDue_afterNetwork close
  · exact close

/-- The close event leads to the FIN: it comes when no application data is waiting. -/
theorem finDue_afterWait {sock : MysockContext}
    (close : (pendingEvents sock).appCloseRequested = true) :
    finDue (afterWait (pendingEvents sock) ctx) = true := by
  have none : ¬ (pendingEvents sock).appData = true := by
    rw [pendingEvents_appData, not_not]
    exact (pendingEvents_close.1 close).2
  rw [afterWait, if_neg fun h => none h.1]
  exact finDue_afterApp close

end Branches

section Calls

variable (ev : Event) (ctx : Context)

@[simp] theorem idleCalls_loopHead : idleCalls (loopHead ctx) = false := by
  unfold loopHead
  split_ifs <;> rfl

@[simp] theorem idleCalls_afterNetwork : idleCalls (afterNetwork ev ctx) = false := by
  unfold afterNetwork
  split_ifs
  · rfl
  · exact idleCalls_loopHead ctx

@[simp] theorem idleCalls_afterApp : idleCalls (afterApp ev ctx) = false := by
  unfold afterApp
  split_ifs
  · rfl
  · exact idleCalls_afterNetwork ev ctx

@[simp] theorem idleCalls_afterWait : idleCalls (afterWait ev ctx) = false := by
  unfold afterWait
  split_ifs
  · rfl
  · exact idleCalls_afterApp ev ctx

@[simp] theorem idleCalls_sendLoop (buffer : List UInt8) (payload payloadSize : ℤ) :
    idleCalls (sendLoop ev buffer payload payloadSize ctx) = false := by
  unfold sendLoop
  split_ifs
  · rfl
  · exact idleCalls_afterApp ev ctx

@[simp] theorem idleCalls_callsPc (pending : List Call) :
    idleCalls (callsPc ev pending ctx) = false := by
  unfold callsPc
  split_ifs with none
  · exact idleCalls_afterNetwork ev ctx
  · cases pending with
    | nil => exact absurd rfl none
    | cons c rest => rfl

end Calls

section Step

variable {isActive : Bool} {e e' : Endpoint} {a : Action} {maxLen : ℕ} {o : Obs}

/-- A finished endpoint waits, puts its last marker or is gone. -/
theorem Finished.pc (h : Finished e) (ok : e.Ok) (fit : PcFit e.ctx.connectionState e.pc) :
    e.pc = .waitForEvent ∨ e.pc = .finalEof ∨ e.pc = .exited := (h.idle ok fit).2

/-- A step behind which the endpoint stands at `pc'` without having looked at the close request. -/
theorem Standing.move (h : Standing isActive e) (role : roleOk isActive e'.pc = true)
    (calls : idleCalls e'.pc = false) (closed : e'.appClosed = e.appClosed)
    (request : e'.sock.closeRequested = e.sock.closeRequested)
    (due : finDue e.pc = true → finDue e'.pc = true) (fin : Finished e → Finished e') :
    Standing isActive e' where
  role := role
  calls := calls
  request hc := by
    rw [closed] at hc
    rw [request]
    exact (h.request hc).imp_right (Or.imp due fin)

theorem Standing.call (h : Standing isActive e) {event : Event} {c : Call} {rest : List Call}
    (pc : e.pc = .calls event (c :: rest))
    (fit : PcFit e.ctx.connectionState (.calls event (c :: rest))) :
    Standing isActive (e.call none event rest c).1 := by
  have role := roleOk_of_loop (past_callsPc event e.ctx rest).1 isActive
  have stays := idleCalls_callsPc event e.ctx rest
  have due : finDue e.pc = true → finDue (callsPc event rest e.ctx) = true := by
    rw [pc]
    exact fun close => finDue_callsPc close rest
  cases c with
  | finReceived | networkSend pkt => exact h.move role stays rfl rfl due id
  | appSend src srcLen =>
    rw [Endpoint.call]
    split_ifs
    · exact h.move role stays rfl rfl due id
    · exact h.move role stays rfl rfl due id
    · have := fit.1 _ (List.mem_cons_self ..)
      simp only [CallFit] at this
      omega

theorem Standing.transport (h : Standing isActive e) (ok : e.Ok)
    (fit : PcFit e.ctx.connectionState e.pc) (small : maxLen ≤ senderWindow)
    (st : TransportStep e maxLen none e' o) : Standing isActive e' := by
  have role := h.role
  -- while it runs, the thread is not finished
  have running : e.pc ≠ .waitForEvent → e.pc ≠ .finalEof → e.pc ≠ .exited →
      Finished e → Finished e' := by
    intro h1 h2 h3 hf
    rcases hf.pc ok fit with pc | pc | pc
    · exact absurd pc h1
    · exact absurd pc h2
    · exact absurd pc h3
  cases st with
  | sendSyn pc | recvSynAck pc | recvSyn pc | sendSynAck pc =>
    rw [pc] at role running
    exact h.move role rfl rfl rfl (by rw [pc]; exact id) (running nofun nofun nofun)
  | sendAck pc | recvAck pc =>
    rw [pc] at running
    exact h.move rfl rfl rfl rfl (by rw [pc]; exact id) (running nofun nofun nofun)
  | unblock pc =>
    rw [pc] at running
    exact h.move (roleOk_of_loop (past_loopHead _).1 _) (idleCalls_loopHead _) rfl rfl
      (by rw [pc]; exact nofun) (running nofun nofun nofun)
  | @waitForEvent ev pc event nonzero =>
    subst event
    refine ⟨roleOk_of_loop (past_afterWait _ _).1 _, idleCalls_afterWait _ _, fun hc => ?_⟩
    rcases h.request hc with request | due | finished
    · by_cases close : (pendingEvents e.sock).appCloseRequested = true
      · exact Or.inr (Or.inl (finDue_afterWait close))
      · rw [Bool.not_eq_true] at close
        exact Or.inl (by simp [request, close])
    · rw [pc] at due
      cases due
    · exact Or.inr (Or.inr finished)
  | appRecv pc asked stream recv fits =>
    rw [pc] at running
    exact h.move (roleOk_of_loop (past_sendLoop ..).1 _) (idleCalls_sendLoop ..) rfl rfl
      (by rw [pc]; exact nofun) (running nofun nofun nofun)
  | appRecvOverflow pc asked overflow => omega
  | @sendData event buffer payload payloadSize pc =>
    rw [pc] at fit running
    obtain ⟨len, ctx, -, -, -, -, same⟩ := sendSegment_none (e := e) fit
    rw [same] at running ⊢
    exact h.move (roleOk_of_loop (past_sendLoop ..).1 _) (idleCalls_sendLoop ..) rfl rfl
      (by rw [pc]; exact nofun) (running nofun nofun nofun)
  | @networkRecv event pkt rest ctx pending pc queue branch =>
    rw [pc] at running
    refine h.move (roleOk_of_loop (past_callsPc ..).1 _) (idleCalls_callsPc ..) rfl rfl ?_
      (running nofun nofun nofun)
    rw [pc]
    exact fun close => finDue_callsPc close pending
  | call pc =>
    rw [pc] at fit
    exact h.call pc fit
  | sendFin pc =>
    refine ⟨roleOk_of_loop (past_loopHead _).1 _, idleCalls_loopHead _, fun _ => Or.inr (Or.inr ?_)⟩
    exact (afterFin_cases e.ctx).imp And.left And.left
  | finalEof pc => exact h.move rfl rfl rfl rfl (by rw [pc]; exact nofun) id

/-- The application's `myclose` leaves a request behind; the other calls touch none of this. -/
theorem Standing.environment (h : Standing isActive e) (st : EnvironmentStep e a e' o) :
    Standing isActive e' := by
  cases st with
  | myclose => exact ⟨h.role, h.calls, fun _ => Or.inl rfl⟩
  | mywrite | myread | deliver => exact h.move h.role h.calls rfl rfl id id

theorem standing_init (isActive : Bool) (r : ℕ) : Standing isActive (Endpoint.init isActive r) := by
  cases isActive <;> exact ⟨rfl, rfl, nofun⟩

/-! ## What a step does to the FIN and to its acknowledgement -/

theorem toRecv_callsPc (ev : Event) (pending : List Call) (ctx : Context) :
    toRecv (callsPc ev pending ctx) = 0 := by
  unfold callsPc
  split_ifs
  · exact (plain_afterNetwork ev ctx).toRecv_eq
  · rfl

/-- A FIN taken off the queue in the control loop is noted, and what is noted is acknowledged. -/
theorem networkData_fin {ctx ctx' : Context} {pkt : List UInt8} {pending : List Call}
    (branch : networkData ctx (zeroFill 556 (pkt.take 556)) pkt.length = (ctx', pending))
    (est : ctx.connectionState = .established) :
    (thFlags pkt = thFIN → ctx'.connectionState = .closeWait) ∧
      (ctx'.connectionState ≠ .established → ∃ reply, Call.networkSend reply ∈ pending) := by
  have flag := hasFlag_zeroFill_take pkt (by omega : 20 ≤ 556)
  rcases networkData_cases branch est with ⟨h, rfl, -⟩ | ⟨-, -, rfl, rfl⟩ | ⟨-, h, rfl, -⟩
  · refine ⟨fun fin => ?_, fun other => absurd est other⟩
    have noAck : hasFlag pkt thACK = false := by rw [hasFlag, fin]; decide
    rw [flag, noAck] at h
    cases h
  · exact ⟨fun _ => rfl, fun _ =>
      ⟨_, List.mem_cons_of_mem _ (List.mem_append_right _ (List.mem_singleton.2 rfl))⟩⟩
  · refine ⟨fun fin => ?_, fun other => absurd est other⟩
    have isFin : hasFlag pkt thFIN = true := by rw [hasFlag, fin]; decide
    rw [flag, isFin] at h
    cases h

/-- The thread takes at most the oldest packet, which the handshake waits for or which, if it is a
FIN of the control loop, is noted and will be acknowledged. -/
theorem Endpoint.TransportStep.receives (st : TransportStep e maxLen none e' o) (ok : e.Ok)
    (fit : PcFit e.ctx.connectionState e.pc) (small : maxLen ≤ senderWindow) :
    (e'.sock.networkRecvQueue = e.sock.networkRecvQueue ∧ toRecv e'.pc = toRecv e.pc) ∨
    ∃ pkt rest, e.sock.networkRecvQueue = pkt :: rest ∧ e'.sock.networkRecvQueue = rest ∧
      (toRecv e.pc = toRecv e'.pc + 1 ∨
        (toRecv e'.pc = 0 ∧ (thFlags pkt = thFIN → GotFin e' ∧ AckDue e'.pc))) := by
  have pcOk := ok.pcOk
  cases st with
  | sendSyn pc | sendAck pc | sendSynAck pc => exact Or.inl ⟨rfl, by rw [pc]; rfl⟩
  | recvSynAck pc queue | recvSyn pc queue | recvAck pc queue =>
    exact Or.inr ⟨_, _, queue, rfl, Or.inl (by rw [pc]; rfl)⟩
  | unblock pc => exact Or.inl ⟨rfl, by rw [pc]; exact (plain_loopHead _).toRecv_eq⟩
  | waitForEvent pc => exact Or.inl ⟨rfl, by rw [pc]; exact (plain_afterWait _ _).toRecv_eq⟩
  | @appRecv event data pq pc asked stream recv fits =>
    obtain ⟨-, h, -⟩ := sendLoop_fit event data 0 data.length e.ctx (by omega) (by omega)
      (by omega) fits
    exact Or.inl ⟨rfl, by rw [pc]; exact h⟩
  | appRecvOverflow pc asked overflow => omega
  | @sendData event buffer payload payloadSize pc =>
    rw [pc] at fit
    obtain ⟨len, ctx, -, -, part, -, same⟩ := sendSegment_none (e := e) fit
    obtain ⟨start, pos, stop, room⟩ := fit
    obtain ⟨-, h, -⟩ := sendLoop_fit event buffer (payload + len) (payloadSize - len) ctx
      (by omega) (by omega) (by omega) room
    rw [same]
    exact Or.inl ⟨rfl, by rw [pc]; exact h⟩
  | @networkRecv event pkt rest ctx pending pc queue branch =>
    rw [pc] at pcOk
    refine Or.inr ⟨pkt, rest, queue, rfl, Or.inr ⟨toRecv_callsPc event pending ctx, fun fin => ?_⟩⟩
    obtain ⟨noted, acknowledged⟩ := networkData_fin branch pcOk.2.1
    obtain ⟨reply, mem⟩ := acknowledged (by rw [noted fin]; nofun)
    exact ⟨Or.inl (noted fin), reply, by rw [(work_callsPc ..).1]; exact mem⟩
  | @call event c rest pc =>
    have none := toRecv_callsPc event rest e.ctx
    rw [pc]
    cases c with
    | finReceived | networkSend pkt => exact Or.inl ⟨rfl, none⟩
    | appSend src srcLen =>
      rw [Endpoint.call]
      split_ifs
      · exact Or.inl ⟨rfl, none⟩
      · exact Or.inl ⟨rfl, none⟩
      · exact Or.inl ⟨rfl, rfl⟩
  | sendFin pc => exact Or.inl ⟨rfl, by rw [pc]; exact (plain_loopHead _).toRecv_eq⟩
  | finalEof pc => exact Or.inl ⟨rfl, by rw [pc]; rfl⟩

/-- The thread learns of a FIN only by taking it off its queue; then an acknowledgement is due. -/
theorem Endpoint.TransportStep.gotFin (st : TransportStep e maxLen none e' o) (ok : e.Ok)
    (got : GotFin e') : GotFin e ∨ AckDue e'.pc := by
  have pcOk := ok.pcOk
  cases st with
  | sendSyn | unblock | waitForEvent | appRecv | appRecvOverflow | finalEof => exact Or.inl got
  | sendAck | recvSynAck | recvSyn | recvAck => simp [GotFin, afterSend] at got
  | sendSynAck => exact Or.inl got
  | sendData pc =>
    refine Or.inl ?_
    unfold sendSegment at got
    dsimp only at got
    split_ifs at got <;> exact got
  | @networkRecv event pkt rest ctx pending pc queue branch =>
    rw [pc] at pcOk
    refine Or.inr ?_
    have left : ctx.connectionState ≠ .established := by
      rcases got with state | state <;> rw [state] <;> decide
    obtain ⟨reply, mem⟩ := (networkData_fin branch pcOk.2.1).2 left
    exact ⟨reply, by rw [(work_callsPc ..).1]; exact mem⟩
  | @call event c rest pc =>
    refine Or.inl ?_
    cases c with
    | finReceived | networkSend pkt => exact got
    | appSend src srcLen =>
      rw [Endpoint.call] at got
      split_ifs at got <;> exact got
  | sendFin pc =>
    rw [pc] at pcOk
    rcases pcOk.2.1 with state | state
    · simp [GotFin, afterSend, afterFin, state] at got
    · exact Or.inl (Or.inl state)

/-- An acknowledgement that is due stays due until it is sent. -/
theorem Endpoint.TransportStep.ackDue (st : TransportStep e maxLen none e' o)
    (fit : PcFit e.ctx.connectionState e.pc) (due : AckDue e.pc) :
    AckDue e'.pc ∨ sentPackets o ≠ [] := by
  obtain ⟨reply, mem⟩ := due
  cases st with
  | @call event c rest pc =>
    rw [pc] at fit mem
    have still : Call.networkSend reply ∈ rest → AckDue (callsPc event rest e.ctx) := by
      intro later
      exact ⟨reply, by rwa [(work_callsPc ..).1]⟩
    cases c with
    | networkSend pkt => exact Or.inr (List.cons_ne_nil _ _)
    | finReceived => exact Or.inl (still ((List.mem_cons.1 mem).resolve_left nofun))
    | appSend src srcLen =>
      have later := still ((List.mem_cons.1 mem).resolve_left nofun)
      rw [Endpoint.call]
      split_ifs
      · exact Or.inl later
      · exact Or.inl later
      · have := fit.1 _ (List.mem_cons_self ..)
        simp only [CallFit] at this
        omega
  | sendSyn pc | recvSynAck pc | sendAck pc | recvSyn pc | sendSynAck pc | recvAck pc | unblock pc
  | waitForEvent pc | appRecv pc | appRecvOverflow pc | sendData pc | networkRecv pc | sendFin pc
  | finalEof pc =>
    rw [pc] at mem
    cases mem

/-- A thread that has been told of the peer's FIN does not forget it. -/
theorem Endpoint.TransportStep.keeps_gotFin (st : TransportStep e maxLen none e' o) (ok : e.Ok)
    (got : GotFin e) : GotFin e' := by
  have pcOk := ok.pcOk
  cases st with
  | sendSyn | unblock | waitForEvent | appRecv | appRecvOverflow | sendSynAck | finalEof => exact got
  | sendAck pc | recvSynAck pc | recvSyn pc | recvAck pc =>
    rw [pc] at pcOk
    have early := pcOk.2
    rcases got with state | state <;> simp [state] at early
  | sendData pc =>
    unfold sendSegment
    dsimp only
    split_ifs <;> exact got
  | networkRecv pc =>
    rw [pc] at pcOk
    have est := pcOk.2.1
    rcases got with state | state <;> simp [state] at est
  | @call event c rest pc =>
    cases c with
    | finReceived | networkSend pkt => exact got
    | appSend src srcLen =>
      rw [Endpoint.call]
      split_ifs <;> exact got
  | sendFin pc =>
    have left : e.ctx.connectionState ≠ .established := by
      rcases got with state | state <;> rw [state] <;> decide
    simp [GotFin, afterSend, afterFin, left]

/-- A finished thread stays finished, takes no packet and sends none. -/
theorem Endpoint.TransportStep.idle (st : TransportStep e maxLen none e' o) (ok : e.Ok)
    (fit : PcFit e.ctx.connectionState e.pc) (fin : Finished e) :
    Finished e' ∧ e'.sock.networkRecvQueue = e.sock.networkRecvQueue ∧ sentPackets o = [] := by
  have stands := fin.pc ok fit
  cases st with
  | waitForEvent | finalEof => exact ⟨fin, rfl, rfl⟩
  | sendSyn pc | recvSynAck pc | sendAck pc | recvSyn pc | sendSynAck pc | recvAck pc | unblock pc
  | appRecv pc | appRecvOverflow pc | sendData pc | networkRecv pc | call pc | sendFin pc =>
    rw [pc] at stands
    rcases stands with h | h | h <;> cases h

/-- The thread finishes by sending a FIN. -/
theorem Endpoint.TransportStep.finished (st : TransportStep e maxLen none e' o) (ok : e.Ok)
    (fin : Finished e') : Finished e ∨
      (toSend e.pc = 0 ∧ ∃ pkt, sentPackets o = [pkt] ∧ thFlags pkt = thFIN) := by
  have pcOk := ok.pcOk
  cases st with
  | sendSyn | sendSynAck | unblock | waitForEvent | appRecv | appRecvOverflow | finalEof =>
    exact Or.inl fin
  | recvSynAck | sendAck | recvSyn | recvAck => simp [Finished, afterSend] at fin
  | sendData pc =>
    unfold sendSegment at fin
    dsimp only at fin
    split_ifs at fin <;> exact Or.inl fin
  | @networkRecv event pkt rest ctx pending pc queue branch =>
    rw [pc] at pcOk
    rcases (networkData_state branch pcOk.2.1).2 with state | state <;>
      simp [Finished, state] at fin
  | @call event c rest pc =>
    cases c with
    | finReceived | networkSend pkt => exact Or.inl fin
    | appSend src srcLen =>
      rw [Endpoint.call] at fin
      split_ifs at fin <;> exact Or.inl fin
  | sendFin pc => exact Or.inr ⟨by rw [pc]; rfl, _, rfl, rfl⟩

end Step

/-! ## One direction of a connection -/

/-- The sender's FIN is the last packet on its way until the receiver takes it in the control loop;
its acknowledgement is then due, on its way back, or on the sender's queue. -/
structure Closing (snd : Endpoint) (wire : List (List UInt8)) (rcv : Endpoint)
    (back : List (List UInt8)) : Prop where
  fin : Finished snd → GotFin rcv ∨ ∃ pre pkt, rcv.sock.networkRecvQueue ++ wire = pre ++ [pkt] ∧
    thFlags pkt = thFIN ∧ toRecv rcv.pc ≤ pre.length
  reply : GotFin rcv → AckDue rcv.pc ∨ snd.sock.networkRecvQueue ++ back ≠ []

section Direction

variable {w : List UInt8} {snd snd' rcv rcv' : Endpoint} {wire back up : List (List UInt8)}
  {maxLen : ℕ} {o : Obs} {pkt : List UInt8}

theorem Closing.send (h : Closing snd wire rcv back) (flow : Flow w snd wire rcv up) (ok : snd.Ok)
    (fit : PcFit snd.ctx.connectionState snd.pc) (st : TransportStep snd maxLen none snd' o) :
    Closing snd' (wire ++ sentPackets o) rcv back where
  fin hf := by
    rcases st.finished ok hf with before | ⟨past, pkt, sent, flag⟩
    · rw [(st.idle ok fit before).2.2, List.append_nil]
      exact h.fin before
    · obtain ⟨hs, rest, hsh⟩ := flow.shape
      have due := hsh.due
      refine Or.inr ⟨rcv.sock.networkRecvQueue ++ wire, pkt, ?_, flag, ?_⟩
      · rw [sent, List.append_assoc]
      · rw [hsh.split, List.length_append]
        omega
  reply got := by
    rw [(st.idle ok fit (flow.gotFin got).1).2.1]
    exact h.reply got

theorem Closing.receive (h : Closing snd wire rcv back) (ok : rcv.Ok)
    (fit : PcFit rcv.ctx.connectionState rcv.pc) (small : maxLen ≤ senderWindow)
    (st : TransportStep rcv maxLen none rcv' o) :
    Closing snd wire rcv' (back ++ sentPackets o) where
  fin hf := by
    rcases h.fin hf with got | ⟨pre, pkt, flight, flag, due⟩
    · exact Or.inl (st.keeps_gotFin ok got)
    · rcases st.receives ok fit small with ⟨queue, same⟩ | ⟨taken, rest, queue, left, moved⟩
      · exact Or.inr ⟨pre, pkt, by rwa [queue], flag, by rwa [same]⟩
      · rw [queue, List.cons_append] at flight
        cases pre with
        | nil =>
          -- the FIN itself is taken, and not by the handshake
          obtain ⟨rfl, -⟩ := List.cons.inj flight
          rw [List.length_nil] at due
          rcases moved with handshake | ⟨-, noted⟩
          · omega
          · exact Or.inl (noted flag).1
        | cons first pre =>
          obtain ⟨-, flight⟩ := List.cons.inj flight
          rw [List.length_cons] at due
          refine Or.inr ⟨pre, pkt, by rwa [left], flag, ?_⟩
          rcases moved with handshake | ⟨none, -⟩ <;> omega
  reply got := by
    rcases st.gotFin ok got with before | due
    · rcases h.reply before with due | more
      · refine (st.ackDue fit due).imp_right fun sent => ?_
        simp [sent]
      · exact Or.inr (by simp only [ne_eq, List.append_eq_nil_iff, not_and] at more ⊢; tauto)
    · exact Or.inl due

theorem Closing.congr (h : Closing snd wire rcv back)
    (sndState : snd'.ctx.connectionState = snd.ctx.connectionState)
    (sndQueue : snd'.sock.networkRecvQueue = snd.sock.networkRecvQueue) (rcvPc : rcv'.pc = rcv.pc)
    (rcvState : rcv'.ctx.connectionState = rcv.ctx.connectionState)
    (rcvQueue : rcv'.sock.networkRecvQueue = rcv.sock.networkRecvQueue) :
    Closing snd' wire rcv' back where
  fin hf := by
    rw [Finished, sndState] at hf
    rw [GotFin, rcvState, rcvPc, rcvQueue]
    exact h.fin hf
  reply got := by
    rw [GotFin, rcvState] at got
    rw [rcvPc, sndQueue]
    exact h.reply got

/-- The oldest packet on its way to the receiver arrives. -/
theorem Closing.deliver (h : Closing snd (pkt :: wire) rcv back) :
    Closing snd wire { rcv with sock := { rcv.sock with
      networkRecvQueue := mysockEnqueueBuffer rcv.sock.networkRecvQueue pkt } } back where
  fin hf := by
    refine (h.fin hf).imp_right ?_
    rintro ⟨pre, last, flight, found⟩
    refine ⟨pre, last, ?_, found⟩
    rw [← flight]
    simp [mysockEnqueueBuffer]
  reply := h.reply

theorem Closing.deliver_back (h : Closing snd wire rcv (pkt :: back)) :
    Closing { snd with sock := { snd.sock with
      networkRecvQueue := mysockEnqueueBuffer snd.sock.networkRecvQueue pkt } } wire rcv back where
  fin := h.fin
  reply got := (h.reply got).imp_right fun _ => by simp [mysockEnqueueBuffer]

end Direction

/-! ## Threads that wait -/

theorem stcpNetworkRecv_eq_none {m : MysockContext} {maxLen : ℕ} :
    stcpNetworkRecv m maxLen = none ↔ m.networkRecvQueue = [] := by
  unfold stcpNetworkRecv mysockDequeueBuffer
  cases m.networkRecvQueue <;> simp

theorem stcpAppRecv_eq_none {m : MysockContext} {maxLen : ℕ} :
    stcpAppRecv m maxLen = none ↔ m.appRecvQueue = [] := by
  unfold stcpAppRecv mysockDequeueBuffer
  rw [Option.map_eq_none_iff]
  cases m.appRecvQueue with
  | nil => simp
  | cons node rest =>
    dsimp only
    split_ifs <;> simp

theorem stcpWaitForEvent_eq_none {m : MysockContext} : stcpWaitForEvent m = none ↔
    m.appRecvQueue = [] ∧ m.networkRecvQueue = [] ∧ m.closeRequested = false := by
  unfold stcpWaitForEvent Event.nonzero pendingEvents
  cases m.appRecvQueue <;> cases m.networkRecvQueue <;> cases m.closeRequested <;> simp

/-- A thread that cannot go on has ended, or waits on an empty queue of packets: in the handshake or
in the loop, with no data and no close request either. -/
theorem blocked_cases {isActive : Bool} {e : Endpoint} {maxLen : ℕ} (ok : e.Ok)
    (fit : PcFit e.ctx.connectionState e.pc) (standing : Standing isActive e)
    (none : e.transport maxLen none = none) : e.pc = .exited ∨
      (e.sock.networkRecvQueue = [] ∧ (e.pc = .recvSynAck ∨ e.pc = .recvSyn ∨ e.pc = .recvAck ∨
        (e.pc = .waitForEvent ∧ e.sock.appRecvQueue = [] ∧ e.sock.closeRequested = false))) := by
  have pcOk := ok.pcOk
  have calls := standing.calls
  unfold Endpoint.transport at none
  cases pc : e.pc with
  | exited => exact Or.inl rfl
  | recvSynAck | recvSyn | recvAck =>
    simp only [pc, Option.map_eq_none_iff, stcpNetworkRecv_eq_none] at none
    exact Or.inr ⟨none, by simp⟩
  | waitForEvent =>
    simp only [pc, Option.map_eq_none_iff, stcpWaitForEvent_eq_none] at none
    exact Or.inr ⟨none.2.1, by simp [none.1, none.2.2]⟩
  | appRecv ev =>
    simp only [pc, Option.map_eq_none_iff, stcpAppRecv_eq_none] at none
    rw [pc] at pcOk
    exact absurd none pcOk.2.2.2.1
  | networkRecv ev =>
    simp only [pc, Option.map_eq_none_iff, stcpNetworkRecv_eq_none] at none
    rw [pc] at pcOk
    exact absurd none pcOk.2.2.2
  | calls ev pending =>
    rw [pc] at calls none
    cases pending with
    | nil => cases calls
    | cons c rest => cases none
  | crashed =>
    rw [pc] at fit
    exact fit.elim
  | sendSyn | sendAck | sendSynAck | unblock | sendData | sendFin | finalEof =>
    rw [pc] at none
    cases none

/-! ## Whole connections -/

def Side.isActive : Side → Bool
  | .active => true
  | .passive => false

/-- The steps of the two threads, each asking `stcp_app_recv` for something, and of the network. -/
def Internal : ConnectionAction → Prop
  | .transport _ maxLen => 0 < maxLen
  | .deliver _ => True
  | _ => False

instance : DecidablePred Internal
  | .transport _ maxLen => inferInstanceAs (Decidable (0 < maxLen))
  | .deliver _ => inferInstanceAs (Decidable True)
  | .mywrite _ _ | .myclose _ | .myread _ _ => inferInstanceAs (Decidable False)

namespace Connection

/-- The invariant of a connection with what its two sides keep until they close. -/
structure Orderly (tr : ConnectionTrace) (c : Connection) : Prop where
  inv : Inv tr c
  standing : ∀ side, Standing side.isActive (c.ep side)
  closing : ∀ side, Closing (c.ep side) (c.wire side) (c.ep side.peer) (c.wire side.peer)

variable {tr : ConnectionTrace} {c c' : Connection} {a : ConnectionAction} {o : Obs}

/-- A step that changes one endpoint keeps what the two sides keep. -/
theorem Orderly.step_at (h : Orderly tr c) (side : Side) (inv : Inv (tr ++ [(a, o)]) c')
    (other : c'.ep side.peer = c.ep side.peer) (standing : Standing side.isActive (c'.ep side))
    (out : Closing (c'.ep side) (c'.wire side) (c.ep side.peer) (c'.wire side.peer))
    (into : Closing (c.ep side.peer) (c'.wire side.peer) (c'.ep side) (c'.wire side)) :
    Orderly (tr ++ [(a, o)]) c' where
  inv := inv
  standing x := by
    rcases side.eq_or_eq_peer x with rfl | rfl
    · exact standing
    · rw [other]
      exact h.standing _
  closing x := by
    rcases side.eq_or_eq_peer x with rfl | rfl
    · rw [other]
      exact out
    · rw [other, Side.peer_peer]
      exact into

theorem Orderly.step (h : Orderly tr c) (st : c.step a = some (c', o)) :
    Orderly (tr ++ [(a, o)]) c' := by
  have inv := h.inv.step st
  have back (side : Side) :
      Closing (c.ep side.peer) (c.wire side.peer) (c.ep side) (c.wire side) := by
    have := h.closing side.peer
    rwa [Side.peer_peer] at this
  cases a with
  | transport side maxLen =>
    simp only [Connection.step] at st
    split_ifs at st with small
    obtain ⟨e, he, rfl⟩ := stepAt_eq_some st
    have moved := transportStep_of_eq he
    refine h.step_at side inv (Function.update_of_ne side.peer_ne _ _) ?_ ?_ ?_
    · simpa using (h.standing side).transport (h.inv.ok side) (h.inv.fit side) small moved
    · simpa [side.peer_ne] using
        (h.closing side).send (h.inv.flow side) (h.inv.ok side) (h.inv.fit side) moved
    · simpa [side.peer_ne] using
        (back side).receive (h.inv.ok side) (h.inv.fit side) small moved
  | mywrite side buf | myclose side | myread side bufLen =>
    obtain ⟨e, he, rfl⟩ := stepAt_eq_some st
    have moved := environmentStep_of_eq he (by simp)
    obtain ⟨pc, state, queue, quiet⟩ : e.pc = (c.ep side).pc ∧
        e.ctx.connectionState = (c.ep side).ctx.connectionState ∧
        e.sock.networkRecvQueue = (c.ep side).sock.networkRecvQueue ∧ sentPackets o = [] := by
      cases moved
      exact ⟨rfl, rfl, rfl, rfl⟩
    have out : Closing e (c.wire side) (c.ep side.peer) (c.wire side.peer) :=
      (h.closing side).congr state queue rfl rfl rfl
    have into : Closing (c.ep side.peer) (c.wire side.peer) e (c.wire side) :=
      (back side).congr rfl rfl pc state queue
    refine h.step_at side inv (Function.update_of_ne side.peer_ne _ _) ?_ ?_ ?_
    · simpa using (h.standing side).environment moved
    · simpa [side.peer_ne, quiet] using out
    · simpa [side.peer_ne, quiet] using into
  | deliver side =>
    simp only [Connection.step] at st
    split at st
    · cases st
    · rename_i pkt rest wire
      obtain ⟨⟨e, o'⟩, he, h'⟩ := Option.map_eq_some_iff.1 st
      simp only [Prod.mk.injEq] at h'
      obtain ⟨rfl, rfl⟩ := h'
      have moved := environmentStep_of_eq he (by simp)
      have out := h.closing side
      have into := back side
      rw [wire] at out into
      refine h.step_at side inv (Function.update_of_ne side.peer_ne _ _) ?_ ?_ ?_
      · simpa using (h.standing side).environment moved
      · cases moved
        simpa [side.peer_ne, side.peer_ne.symm] using out.deliver_back
      · cases moved
        simpa [side.peer_ne, side.peer_ne.symm] using into.deliver

theorem orderly_of_run {rActive rPassive : ℕ} (run : machine.Run (init rActive rPassive) tr c) :
    Orderly tr c := by
  refine run.invariant
    ⟨inv_init rActive rPassive, fun side => ?_, fun side => ⟨fun hf => ?_, fun hg => ?_⟩⟩
    fun _ _ _ _ _ _ h _ st => h.step st
  · cases side <;> exact standing_init _ _
  · cases side <;> simp [Finished, init, Endpoint.init, generateInitialSeqNum] at hf
  · cases side <;> simp [GotFin, init, Side.peer, Endpoint.init, generateInitialSeqNum] at hg

/-! ### At rest -/

/-- At rest nothing is on its way and each thread is blocked. -/
theorem Orderly.blocked (h : Orderly tr c) (rest : machine.AtRest Internal c) (side : Side) :
    c.wire side = [] ∧ ((c.ep side).pc = .exited ∨ ((c.ep side).sock.networkRecvQueue = [] ∧
      ((c.ep side).pc = .recvSynAck ∨ (c.ep side).pc = .recvSyn ∨ (c.ep side).pc = .recvAck ∨
        ((c.ep side).pc = .waitForEvent ∧ (c.ep side).sock.appRecvQueue = [] ∧
          (c.ep side).sock.closeRequested = false)))) := by
  constructor
  · have none := rest (.deliver side.peer) trivial
    simp only [machine, Connection.step, Side.peer_peer] at none
    cases wire : c.wire side with
    | nil => rfl
    | cons pkt more =>
      rw [wire] at none
      cases none
  · have none := rest (.transport side 1) Nat.one_pos
    simp only [machine, Connection.step, stepAt] at none
    rw [if_pos (by rw [senderWindow]; omega), Option.map_eq_none_iff] at none
    exact blocked_cases (h.inv.ok side) (h.inv.fit side) (h.standing side) none

/-- A thread that has ended had taken its peer's FIN, behind which nothing comes. -/
theorem Orderly.exited (h : Orderly tr c) {side : Side} (pc : (c.ep side).pc = .exited) :
    (c.ep side).sock.networkRecvQueue ++ c.wire side.peer = [] := by
  have pcOk := (h.inv.ok side).pcOk
  rw [pc] at pcOk
  have flow := h.inv.flow side.peer
  rw [Side.peer_peer] at flow
  exact (flow.gotFin (Or.inr pcOk.2.1)).2

/-- At rest no packet waits for a thread, in its queue or on the way there. -/
theorem Orderly.drained (h : Orderly tr c) (rest : machine.AtRest Internal c) (side : Side) :
    (c.ep side).sock.networkRecvQueue ++ c.wire side.peer = [] := by
  rcases (h.blocked rest side).2 with pc | ⟨queue, -⟩
  · exact h.exited pc
  · rw [queue, (h.blocked rest side.peer).1]
    rfl

/-- At rest neither thread has sent its FIN: its acknowledgement would be waiting. -/
theorem Orderly.not_finished (h : Orderly tr c) (rest : machine.AtRest Internal c) (side : Side) :
    ¬ Finished (c.ep side) := by
  intro fin
  have closing := h.closing side
  have there := h.drained rest side.peer
  rw [Side.peer_peer] at there
  rcases closing.fin fin with got | ⟨pre, pkt, flight, -⟩
  · rcases closing.reply got with ⟨pkt, mem⟩ | more
    · rcases (h.blocked rest side.peer).2 with pc | ⟨-, pc | pc | pc | ⟨pc, -⟩⟩ <;>
        rw [pc] at mem <;> cases mem
    · exact more (h.drained rest side)
  · rw [there] at flight
    simp at flight

/-- The handshake leaves no two threads waiting for each other. -/
theorem Orderly.waits (h : Orderly tr c) (rest : machine.AtRest Internal c) (side : Side) :
    (c.ep side).pc = .waitForEvent ∧ (c.ep side).sock.appRecvQueue = [] ∧
      (c.ep side).sock.closeRequested = false := by
  -- with nothing on its way, one thread has as much to send as the other waits for
  have due : ∀ side, toSend (c.ep side).pc = toRecv (c.ep side.peer).pc := by
    intro side
    obtain ⟨hs, more, hsh⟩ := (h.inv.flow side).shape
    have none := h.drained rest side.peer
    rw [Side.peer_peer] at none
    have split := hsh.split
    rw [none, eq_comm, List.append_eq_nil_iff] at split
    have := hsh.due
    rw [split.1] at this
    simpa using this
  have ended : ∀ side, (c.ep side).pc ≠ .exited := by
    intro side pc
    have pcOk := (h.inv.ok side).pcOk
    rw [pc] at pcOk
    exact h.not_finished rest side (Or.inr pcOk.2.1)
  have out := due side
  have into := due side.peer
  rw [Side.peer_peer] at into
  have here := (h.standing side).role
  have there := (h.standing side.peer).role
  rcases (h.blocked rest side).2.resolve_left (ended side) with ⟨-, waits⟩
  rcases (h.blocked rest side.peer).2.resolve_left (ended side.peer) with ⟨-, waits'⟩
  rcases waits with pc | pc | pc | ⟨pc, idle⟩
  · rcases waits' with pc' | pc' | pc' | ⟨pc', -⟩ <;> rw [pc, pc'] at out into
    · -- only the active side waits for a SYN-ACK
      rw [pc] at here
      rw [pc'] at there
      cases side <;> simp [roleOk, Side.peer, Side.isActive] at here there
    all_goals simp [toSend, toRecv] at out into
  · rcases waits' with pc' | pc' | pc' | ⟨pc', -⟩ <;> rw [pc, pc'] at out into <;>
      simp [toSend, toRecv] at out into
  · rcases waits' with pc' | pc' | pc' | ⟨pc', -⟩ <;> rw [pc, pc'] at out into <;>
      simp [toSend, toRecv] at out into
  · exact ⟨pc, idle⟩

/-- At rest both threads wait in `established`, neither application has closed, and what each has
written the other side has handed up. -/
theorem atRest_delivered {rActive rPassive : ℕ} (run : machine.Run (init rActive rPassive) tr c)
    (rest : machine.AtRest Internal c) (side : Side) :
    (c.ep side).pc = .waitForEvent ∧ (c.ep side).ctx.connectionState = .established ∧
      (c.ep side).appClosed = false ∧ (puts side.peer tr).flatten = written side tr := by
  have h := orderly_of_run run
  obtain ⟨pc, queue, request⟩ := h.waits rest side
  have pcOk := (h.inv.ok side).pcOk
  have flow := h.inv.flow side
  refine ⟨pc, ?_, ?_, ?_⟩
  · rw [pc] at pcOk
    rcases pcOk.2 with state | state | ⟨state, -⟩
    · exact state
    · -- a thread that has been told of a FIN is the peer's business
      have into := h.inv.flow side.peer
      rw [Side.peer_peer] at into
      exact absurd (into.gotFin (Or.inl state)).1 (h.not_finished rest side.peer)
    · exact absurd (Or.inl state) (h.not_finished rest side)
  · by_contra closed
    rw [Bool.not_eq_false] at closed
    rcases (h.standing side).request closed with asked | due | fin
    · rw [request] at asked
      cases asked
    · rw [pc] at due
      cases due
    · exact h.not_finished rest side fin
  · have none := h.drained rest side.peer
    rw [Side.peer_peer] at none
    have stream := flow.stream
    rw [none, (h.waits rest side.peer).1, pc, queue] at stream
    simpa [pendingUp, unsent] using stream.symm

end Connection

end ComputerNetwork.Tcp
