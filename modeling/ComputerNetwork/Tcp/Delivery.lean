import ComputerNetwork.Tcp.Closing
import ComputerNetwork.Tcp.Progress

/-!
# Eventual delivery

While neither application closes and every `stcp_app_recv` asks for something, a connection spends a
potential: `potential` bounds the steps a thread can take with what lies in its queues, and
`outgoing` what the packets it can still cause will cost when they arrive and are acknowledged.
Hence the two threads and the network come to rest whatever the order of their steps, after a number
of steps bounded by what the applications have written (`steps_bounded`), and then everything has
been delivered (`eventually_delivered`).  A close ends this for good (`closed_never_rests`).
-/

namespace ComputerNetwork.Tcp

open Lib Endpoint

/-! ## What a thread can still send -/

/-- The acknowledgement of a packet has to be delivered and taken off a queue. -/
def replyCost (pkt : List UInt8) : ℕ := if hasFlag pkt thACK then 0 else 6

/-- What a packet on its way costs. -/
def flightCost (pkt : List UInt8) : ℕ := 6 + replyCost pkt

def callCost : Call → ℕ
  | .networkSend _ => 6
  | _ => 0

/-- What the packets will cost that are sent before the thread looks at a queue again. -/
def outgoingPc (pc : Pc) : ℕ :=
  12 * unsentSize pc + ((pendingCalls pc).map callCost).sum + 12 * toSend pc

/-- What the packets that a thread can still send will cost. -/
def outgoing (e : Endpoint) : ℕ :=
  (e.sock.networkRecvQueue.map replyCost).sum + 12 * e.sock.appRecvQueue.flatten.length +
    outgoingPc e.pc

theorem flightCost_le (pkt : List UInt8) : flightCost pkt ≤ 12 := by
  unfold flightCost replyCost
  split_ifs <;> omega

theorem flightCost_ack {pkt : List UInt8} (ack : thFlags pkt = thACK) : flightCost pkt = 6 := by
  have flag : hasFlag pkt thACK = true := by rw [hasFlag, ack]; decide
  rw [flightCost, replyCost, if_pos flag]

section Branches

variable (ev : Event) (ctx : Context)

@[simp] theorem outgoingPc_loopHead : outgoingPc (loopHead ctx) = 0 := by
  rw [outgoingPc, (work_loopHead ctx).1, (work_loopHead ctx).2, (plain_loopHead ctx).toSend_eq]
  rfl

@[simp] theorem outgoingPc_afterWait : outgoingPc (afterWait ev ctx) = 0 := by
  rw [outgoingPc, (work_afterWait ev ctx).1, (work_afterWait ev ctx).2,
    (plain_afterWait ev ctx).toSend_eq]
  rfl

@[simp] theorem outgoingPc_callsPc (pending : List Call) :
    outgoingPc (callsPc ev pending ctx) = (pending.map callCost).sum := by
  have none : toSend (callsPc ev pending ctx) = 0 := by
    unfold callsPc
    split_ifs
    · exact (plain_afterNetwork ev ctx).toSend_eq
    · rfl
  rw [outgoingPc, (work_callsPc ev ctx pending).1, (work_callsPc ev ctx pending).2, none]
  omega

@[simp] theorem outgoingPc_sendLoop (buffer : List UInt8) (payload payloadSize : ℤ) :
    outgoingPc (sendLoop ev buffer payload payloadSize ctx) = 12 * payloadSize.toNat := by
  have none : toSend (sendLoop ev buffer payload payloadSize ctx) = 0 := by
    unfold sendLoop
    split_ifs
    · rfl
    · exact (plain_afterApp ev ctx).toSend_eq
  rw [outgoingPc, (work_sendLoop ev ctx ..).1, (work_sendLoop ev ctx ..).2, none]
  rfl

end Branches

theorem networkData_callCost {ctx ctx' : Context} {pkt : List UInt8} {pending : List Call}
    (branch : networkData ctx (zeroFill 556 (pkt.take 556)) pkt.length = (ctx', pending))
    (est : ctx.connectionState = .established) : (pending.map callCost).sum ≤ replyCost pkt := by
  have flag := hasFlag_zeroFill_take pkt (by omega : 20 ≤ 556)
  unfold replyCost
  rcases networkData_cases branch est with ⟨-, -, rfl⟩ | ⟨h, -, -, rfl⟩ | ⟨h, -, -, rfl⟩
  · exact Nat.zero_le _
  · rw [flag] at h
    rw [h]
    split_ifs <;> simp_all [callCost]
  · rw [flag] at h
    rw [h]
    simp [callCost]

section Step

variable {e e' : Endpoint} {maxLen : ℕ} {o : Obs}

/-- A call of the `NETWORK_DATA` branch pays for the packet it sends. -/
theorem outgoing_call {event : Event} {c : Call} {rest : List Call}
    (pc : e.pc = .calls event (c :: rest))
    (fit : PcFit e.ctx.connectionState (.calls event (c :: rest))) :
    outgoing (e.call none event rest c).1 +
      ((sentPackets (e.call none event rest c).2).map flightCost).sum ≤ outgoing e := by
  have before : outgoingPc e.pc = callCost c + (rest.map callCost).sum := by
    rw [pc]
    simp [outgoingPc, unsentSize, pendingCalls, toSend]
  have after := outgoingPc_callsPc event e.ctx rest
  cases c with
  | finReceived =>
    simp only [outgoing, Endpoint.call, enqueueAppSend, sentPackets, List.map_nil, List.sum_nil]
    omega
  | appSend src srcLen =>
    rw [Endpoint.call]
    split_ifs
    · simp only [outgoing, sentPackets, List.map_nil, List.sum_nil]
      omega
    · simp only [outgoing, enqueueAppSend, sentPackets, List.map_nil, List.sum_nil]
      omega
    · have := fit.1 _ (List.mem_cons_self ..)
      simp only [CallFit] at this
      omega
  | networkSend pkt =>
    have cost := flightCost_ack (fit.1 _ (List.mem_cons_self ..))
    simp only [outgoing, Endpoint.call, afterSend, sentPackets, Option.isNone_none, List.map_cons,
      List.map_nil, List.sum_cons, List.sum_nil]
    rw [callCost] at before
    omega

/-- A step of a thread whose application has not closed sends what is paid for. -/
theorem outgoing_transport (ok : e.Ok) (fit : PcFit e.ctx.connectionState e.pc)
    (opened : e.appClosed = false) (small : maxLen ≤ senderWindow)
    (st : TransportStep e maxLen none e' o) :
    outgoing e' + ((sentPackets o).map flightCost).sum ≤ outgoing e := by
  have pcOk := ok.pcOk
  cases st with
  | sendSyn pc | sendAck pc | sendSynAck pc =>
    -- each side sends at most two packets, a packet of the handshake costs twelve at most
    simp only [outgoing, outgoingPc, pc, afterSend, toSend, unsentSize, pendingCalls, sentPackets,
      Option.isNone_none, List.map_cons, List.map_nil, List.sum_cons, List.sum_nil]
    have := flightCost_le (synHeader e.ctx).bytes
    have := flightCost_le (handshakeAckHeader e.ctx).bytes
    have := flightCost_le (synAckHeader e.ctx).bytes
    omega
  | recvSynAck pc queue | recvSyn pc queue | recvAck pc queue =>
    simp only [outgoing, outgoingPc, pc, queue, toSend, unsentSize, pendingCalls, sentPackets,
      List.map_cons, List.map_nil, List.sum_cons, List.sum_nil]
    omega
  | unblock pc =>
    simp only [outgoing, stcpUnblockApplication, outgoingPc_loopHead, sentPackets, List.map_nil,
      List.sum_nil]
    omega
  | waitForEvent pc =>
    simp only [outgoing, outgoingPc_afterWait, sentPackets, List.map_nil, List.sum_nil]
    omega
  | @appRecv event data pq pc asked stream recv fits =>
    have size := congrArg List.length stream
    rw [List.length_append] at size
    simp only [outgoing, outgoingPc_sendLoop, Int.toNat_natCast, sentPackets, List.map_nil,
      List.sum_nil]
    omega
  | appRecvOverflow pc asked overflow => omega
  | @sendData event buffer payload payloadSize pc =>
    rw [pc] at fit
    obtain ⟨len, ctx, more, -, part, -, same⟩ := sendSegment_none (e := e) fit
    have before : outgoingPc e.pc = 12 * payloadSize.toNat := by
      rw [pc]
      simp [outgoingPc, unsentSize, pendingCalls, toSend]
    have cost := flightCost_le ((dataHeader e.ctx).bytes ++ (buffer.drop payload.toNat).take len)
    rw [same]
    simp only [outgoing, afterSend, outgoingPc_sendLoop, sentPackets, List.map_cons, List.map_nil,
      List.sum_cons, List.sum_nil]
    omega
  | @networkRecv event pkt rest ctx pending pc queue branch =>
    rw [pc] at pcOk
    have reply := networkData_callCost branch pcOk.2.1
    simp only [outgoing, queue, outgoingPc_callsPc, sentPackets, List.map_cons, List.map_nil,
      List.sum_cons, List.sum_nil]
    omega
  | call pc =>
    rw [pc] at fit
    exact outgoing_call pc fit
  | sendFin pc =>
    rw [pc] at pcOk
    exact absurd pcOk.2.2 (not_quiesced opened)
  | finalEof pc =>
    rw [pc] at pcOk
    exact absurd pcOk.2.2 (not_quiesced opened)

end Step

/-! ## What a connection can still do -/

/-- Neither application closes, and every `stcp_app_recv` asks for something. -/
def Undisturbed : ConnectionAction → Prop
  | .transport _ maxLen => 0 < maxLen
  | .myclose _ => False
  | _ => True

/-- What the connection does about an input. -/
def writeCost : ConnectionAction → ℕ
  | .mywrite _ buf => 15 * buf.length + 2
  | _ => 0

def writeCosts (tr : ConnectionTrace) : ℕ := (tr.map fun entry => writeCost entry.1).sum

/-- The number of steps that the threads and the network have taken. -/
def internalSteps (tr : ConnectionTrace) : ℕ := tr.countP fun entry => decide (Internal entry.1)

namespace Connection

/-- A connection that its applications have not closed. -/
structure Opened (c : Connection) : Prop where
  orderly : ∃ tr, Orderly tr c
  opened : ∀ side, (c.ep side).appClosed = false

/-- The steps that one side and the packets it has sent are still good for. -/
def sideCost (c : Connection) (side : Side) : ℕ :=
  potential (c.ep side) + outgoing (c.ep side) + ((c.wire side).map flightCost).sum

def cost (c : Connection) : ℕ := c.sideCost .active + c.sideCost .passive

theorem cost_eq (c : Connection) (side : Side) : c.cost = c.sideCost side + c.sideCost side.peer := by
  cases side
  · rfl
  · exact Nat.add_comm _ _

variable {tr : ConnectionTrace} {c c' : Connection} {a : ConnectionAction} {o : Obs}

theorem Opened.not_finished (h : c.Opened) (side : Side) : ¬ Finished (c.ep side) := by
  obtain ⟨tr, inv, -, -⟩ := h.orderly
  intro fin
  obtain ⟨⟨closed, -⟩, -⟩ := fin.idle (inv.ok side) (inv.fit side)
  rw [h.opened side] at closed
  cases closed

/-- A thread that waits is in `established`, so every wake-up is for work. -/
theorem Opened.established (h : c.Opened) {side : Side} (pc : (c.ep side).pc = .waitForEvent) :
    (c.ep side).ctx.connectionState = .established := by
  obtain ⟨tr, inv, -, -⟩ := h.orderly
  have pcOk := (inv.ok side).pcOk
  rw [pc] at pcOk
  rcases pcOk.2 with state | state | ⟨state, -⟩
  · exact state
  · have flow := inv.flow side.peer
    rw [Side.peer_peer] at flow
    exact absurd (flow.gotFin (Or.inl state)).1 (h.not_finished side.peer)
  · exact absurd (Or.inl state) (h.not_finished side)

theorem Opened.wakesToWork (h : c.Opened) (side : Side) {maxLen : ℕ} (asks : 0 < maxLen) :
    wakesToWork (c.ep side) (.transport maxLen none) = true := by
  unfold Tcp.wakesToWork
  cases pc : (c.ep side).pc with
  | waitForEvent => simp [h.established pc]
  | appRecv ev => simp [asks]
  | _ => simp

theorem Opened.transport (h : c.Opened) {side : Side} {maxLen : ℕ} (asks : 0 < maxLen)
    (st : c.step (.transport side maxLen) = some (c', o)) : c'.cost + 1 ≤ c.cost := by
  obtain ⟨tr, inv, -, -⟩ := h.orderly
  simp only [Connection.step] at st
  split_ifs at st with small
  obtain ⟨e, he, rfl⟩ := stepAt_eq_some st
  have moved := transportStep_of_eq he
  have thread := potential_transport (inv.ok side) (h.wakesToWork side asks) moved
  have packets := outgoing_transport (inv.ok side) (inv.fit side) (h.opened side) small moved
  rw [cost_eq _ side, cost_eq _ side]
  simp only [sideCost, Function.update_self, Function.update_of_ne side.peer_ne, List.map_append,
    List.sum_append]
  omega

theorem outgoing_deliver (e : Endpoint) (pkt : List UInt8) :
    outgoing { e with sock := { e.sock with
      networkRecvQueue := mysockEnqueueBuffer e.sock.networkRecvQueue pkt } } =
      outgoing e + replyCost pkt := by
  simp only [outgoing, mysockEnqueueBuffer, List.map_append, List.sum_append, List.map_singleton,
    List.sum_singleton]
  omega

theorem cost_deliver {side : Side} (st : c.step (.deliver side) = some (c', o)) :
    c'.cost + 1 ≤ c.cost := by
  simp only [Connection.step] at st
  split at st
  · cases st
  · rename_i pkt rest wire
    obtain ⟨⟨e, o'⟩, he, h'⟩ := Option.map_eq_some_iff.1 st
    simp only [Prod.mk.injEq] at h'
    obtain ⟨rfl, rfl⟩ := h'
    have queued := potential_environment (by simp) he
    rw [inputCost] at queued
    have reply : outgoing e = outgoing (c.ep side) + replyCost pkt := by
      cases environmentStep_of_eq he (by simp)
      exact outgoing_deliver (c.ep side) pkt
    rw [cost_eq _ side, cost_eq _ side]
    simp only [sideCost, Function.update_self, Function.update_of_ne side.peer_ne,
      Function.update_of_ne side.peer_ne.symm, wire, List.map_cons, List.sum_cons, flightCost]
    omega

theorem appClosed_step (st : c.step a = some (c', o)) (calm : ∀ side, a ≠ .myclose side)
    (side : Side) : (c'.ep side).appClosed = (c.ep side).appClosed := by
  -- a step replaces one endpoint
  have only : ∀ (x : Side) (e : Endpoint), e.appClosed = (c.ep x).appClosed →
      (Function.update c.ep x e side).appClosed = (c.ep side).appClosed := by
    intro x e same
    rw [Function.update_apply]
    split_ifs with here
    · rw [here, same]
    · rfl
  cases a with
  | transport x maxLen =>
    simp only [Connection.step] at st
    split_ifs at st
    obtain ⟨e, he, rfl⟩ := stepAt_eq_some st
    exact only x e (transportStep_of_eq he).appClosed
  | mywrite x buf | myread x bufLen =>
    obtain ⟨e, he, rfl⟩ := stepAt_eq_some st
    cases environmentStep_of_eq he (by simp)
    exact only x _ rfl
  | myclose x => exact absurd rfl (calm x)
  | deliver x =>
    simp only [Connection.step] at st
    split at st
    · cases st
    · obtain ⟨⟨e, o'⟩, he, h'⟩ := Option.map_eq_some_iff.1 st
      simp only [Prod.mk.injEq] at h'
      obtain ⟨rfl, rfl⟩ := h'
      cases environmentStep_of_eq he (by simp)
      exact only x _ rfl

theorem Opened.step (h : c.Opened) (st : c.step a = some (c', o))
    (calm : ∀ side, a ≠ .myclose side) : c'.Opened where
  orderly := by
    obtain ⟨tr, orderly⟩ := h.orderly
    exact ⟨_, orderly.step st⟩
  opened side := by rw [appClosed_step st calm side, h.opened side]

/-- The steps of the threads and of the network are paid for. -/
theorem spends : machine.Spends Internal Opened cost where
  keep c a o c' h internal st := h.step st fun side closes => by
    rw [closes] at internal
    exact internal
  spend c a o c' h internal st := by
    cases a with
    | transport side maxLen => exact h.transport internal st
    | deliver side => exact cost_deliver st
    | mywrite | myclose | myread => exact internal.elim

theorem cost_mywrite {side : Side} {buf : List UInt8}
    (st : c.step (.mywrite side buf) = some (c', o)) :
    c'.cost ≤ c.cost + writeCost (.mywrite side buf) := by
  obtain ⟨e, he, rfl⟩ := stepAt_eq_some st
  have queued := potential_environment (by simp) he
  rw [inputCost] at queued
  have more : outgoing e = outgoing (c.ep side) + 12 * buf.length ∧ sentPackets o = [] := by
    cases environmentStep_of_eq he (by simp)
    simp only [outgoing, mywrite, mysockEnqueueBuffer, List.flatten_append, List.length_append,
      List.flatten_singleton, sentPackets, and_true]
    omega
  rw [cost_eq _ side, cost_eq _ side, writeCost]
  simp only [sideCost, Function.update_self, Function.update_of_ne side.peer_ne, more.2,
    List.append_nil]
  omega

theorem cost_myread {side : Side} {bufLen : ℕ} (st : c.step (.myread side bufLen) = some (c', o)) :
    c'.cost ≤ c.cost := by
  obtain ⟨e, he, rfl⟩ := stepAt_eq_some st
  cases environmentStep_of_eq he (by simp)
  rw [cost_eq _ side, cost_eq _ side]
  simp only [sideCost, Function.update_self, Function.update_of_ne side.peer_ne, sentPackets,
    List.append_nil]
  exact le_rfl

variable {rActive rPassive : ℕ}

/-- The threads and the network take no more steps than what has been written pays for. -/
theorem steps_bounded (run : machine.Runs (fun _ _ a => Undisturbed a) (init rActive rPassive) tr c) :
    c.Opened ∧ internalSteps tr + c.cost ≤ 48 + writeCosts tr := by
  refine run.invariant (I := fun tr c => c.Opened ∧ internalSteps tr + c.cost ≤ 48 + writeCosts tr)
    ⟨⟨⟨[], orderly_of_run .nil⟩, fun side => by cases side <;> rfl⟩, le_rfl⟩ ?_
  rintro tr c a o c' - ⟨h, bound⟩ undisturbed st
  have costs : writeCosts (tr ++ [(a, o)]) = writeCosts tr + writeCost a := by simp [writeCosts]
  have steps : internalSteps (tr ++ [(a, o)]) = internalSteps tr + internalSteps [(a, o)] :=
    List.countP_append
  refine ⟨h.step st fun side closes => ?_, ?_⟩
  · rw [closes] at undisturbed
    exact undisturbed
  · rw [costs, steps]
    cases a with
    | transport side maxLen =>
      have paid := h.transport undisturbed st
      have one : internalSteps [(.transport side maxLen, o)] ≤ 1 := List.countP_le_length
      omega
    | deliver side =>
      have paid := cost_deliver st
      have one : internalSteps [(.deliver side, o)] ≤ 1 := List.countP_le_length
      omega
    | mywrite side buf =>
      have paid := cost_mywrite st
      have none : internalSteps [(.mywrite side buf, o)] = 0 := rfl
      omega
    | myread side bufLen =>
      have paid := cost_myread st
      have none : internalSteps [(.myread side bufLen, o)] = 0 := rfl
      omega
    | myclose => exact undisturbed.elim

/-- The threads and the network write nothing for the applications. -/
theorem written_internal (run : machine.Runs (fun _ _ a => Internal a) c tr c') (side : Side) :
    written side tr = [] := by
  refine run.invariant (I := fun tr _ => written side tr = []) rfl ?_
  rintro tr s a o s' - none internal -
  rw [written_append, none]
  cases a with
  | transport | deliver => rfl
  | mywrite | myclose | myread => exact internal.elim

/-- While neither application closes and every `stcp_app_recv` asks for something: the threads and
the network always come to rest, after boundedly many steps in any order, and then everything written
has been handed up on the other side. -/
theorem eventually_delivered
    (run : machine.Runs (fun _ _ a => Undisturbed a) (init rActive rPassive) tr c) :
    (∀ tr' c', machine.Runs (fun _ _ a => Internal a) c tr' c' →
      internalSteps tr + tr'.length ≤ 48 + writeCosts tr ∧
      (machine.AtRest Internal c' →
        ∀ side, (puts side.peer (tr ++ tr')).flatten = written side tr)) ∧
    ∃ tr' c', machine.Runs (fun _ _ a => Internal a) c tr' c' ∧ machine.AtRest Internal c' := by
  obtain ⟨opened, bound⟩ := steps_bounded run
  refine ⟨fun tr' c' more => ⟨?_, fun rest side => ?_⟩, spends.exists_atRest opened⟩
  · have spent := (spends.length_le opened more).2
    omega
  · have whole : machine.Run (init rActive rPassive) (tr ++ tr') c' :=
      (run.mono fun _ _ _ _ => trivial).append (more.mono fun _ _ _ _ => trivial)
    have full := (atRest_delivered whole rest side).2.2.2
    rwa [written_append, written_internal more side, List.append_nil] at full

/-- Both applications write before anything has been delivered. -/
def bothWrite : List ConnectionAction :=
  [.transport .active 1, .deliver .passive, .transport .passive 1, .transport .passive 1,
    .deliver .active, .transport .active 1, .transport .active 1, .transport .active 1,
    .mywrite .active [104, 105], .deliver .passive, .transport .passive 1, .transport .passive 1,
    .mywrite .passive [111, 107]]

theorem eventually_delivered_bothWrite : ∃ tr c,
    machine.Runs (fun _ _ a => Undisturbed a) (init 7 9) tr c ∧ puts .passive tr = [] ∧
    ∃ tr' c', machine.Runs (fun _ _ a => Internal a) c tr' c' ∧ tr'.length ≤ 101 ∧
      (puts .passive (tr ++ tr')).flatten = [104, 105] ∧
      (puts .active (tr ++ tr')).flatten = [111, 107] := by
  obtain ⟨tr, c, run, shown⟩ := Machine.Runs.exists_of_exec_all (M := machine)
    (C := fun _ _ _ => true) (D := Undisturbed) (i := init 7 9)
    (P := fun tr _ => puts .passive tr = [] ∧ written .active tr = [104, 105] ∧
      written .passive tr = [111, 107] ∧ writeCosts tr = 64 ∧ internalSteps tr = 11)
    bothWrite (by simp [bothWrite, Undisturbed]) (by decide +kernel)
  have run : machine.Runs (fun _ _ a => Undisturbed a) (init 7 9) tr c :=
    run.mono fun _ _ _ cond => cond.2
  obtain ⟨none, active, passive, costs, steps⟩ := shown
  obtain ⟨every, tr', c', more, rest⟩ := eventually_delivered run
  obtain ⟨bound, delivered⟩ := every tr' c' more
  refine ⟨tr, c, run, none, tr', c', more, by omega, ?_, ?_⟩
  · rw [← active]
    exact delivered rest .active
  · rw [← passive]
    exact delivered rest .passive

/-! ## After a close -/

theorem appClosed_myclose {x : Side} (st : c.step (.myclose x) = some (c', o)) (side : Side) :
    (c'.ep side).appClosed = true ↔ side = x ∨ (c.ep side).appClosed = true := by
  obtain ⟨e, he, rfl⟩ := stepAt_eq_some st
  cases environmentStep_of_eq he (by simp)
  dsimp only
  rw [Function.update_apply]
  split_ifs with here <;> simp [here]

theorem appClosed_of_closedAfter (run : machine.Run (init rActive rPassive) tr c) {side : Side}
    {tr₁ : ConnectionTrace} (closed : ClosedAfter side tr tr₁) : (c.ep side).appClosed = true := by
  refine run.invariant (I := fun tr c => ∀ tr₁, ClosedAfter side tr tr₁ →
    (c.ep side).appClosed = true) ?_ ?_ tr₁ closed
  · rintro tr₁ ⟨o, tr₂, none⟩
    simp at none
  · rintro tr c a o c' - ih - st tr₁ ⟨o', tr₂, split⟩
    have st : c.step a = some (c', o) := st
    rcases snoc_eq_append_cons split with ⟨-, same, -⟩ | ⟨tr₃, earlier, -⟩
    · cases same
      exact (appClosed_myclose st side).2 (Or.inl rfl)
    · have before := ih tr₁ ⟨o', tr₃, earlier⟩
      cases a with
      | myclose x => exact (appClosed_myclose st side).2 (Or.inr before)
      | _ => rwa [appClosed_step st (by simp) side]

/-- A connection that an application has closed never comes to rest, whatever its peer does. -/
theorem closed_never_rests (run : machine.Run (init rActive rPassive) tr c) {side : Side}
    {tr₁ : ConnectionTrace} (closed : ClosedAfter side tr tr₁) : ¬ machine.AtRest Internal c := by
  intro rest
  have opened := (atRest_delivered run rest side).2.2.1
  rw [appClosed_of_closedAfter run closed] at opened
  cases opened

/-- Both applications have closed, and the side that answered has ended: the other still spins. -/
theorem closed_never_rests_both : ∃ tr c tr₁, machine.Run (init 7 9) tr c ∧
    ClosedAfter .passive tr tr₁ ∧ (c.ep .passive).pc = .exited ∧
    c.wire .active = [] ∧ ¬ machine.AtRest Internal c := by
  obtain ⟨tr, c, run, shown⟩ := Machine.Runs.exists_of_exec (M := machine)
    (C := fun _ _ _ => true) (i := init 7 9)
    (P := fun tr c => (c.ep .passive).pc = .exited ∧ c.wire .active = [] ∧
      tr[17]? = some (.myclose .passive, .quiet))
    [.transport .active 1, .deliver .passive, .transport .passive 1, .transport .passive 1,
      .deliver .active, .transport .active 1, .transport .active 1, .transport .active 1,
      .deliver .passive, .transport .passive 1, .transport .passive 1,
      .myclose .active, .transport .active 1, .transport .active 1, .deliver .passive,
      .transport .passive 1, .transport .passive 1, .myclose .passive, .transport .passive 1,
      .transport .passive 1, .transport .passive 1, .transport .passive 1,
      .transport .passive 1] (by decide +kernel)
  have run : machine.Run (init 7 9) tr c := run.mono fun _ _ _ _ => trivial
  obtain ⟨ended, wire, closing⟩ := shown
  have closed : ClosedAfter .passive tr (tr.take 17) := by
    obtain ⟨short, same⟩ := List.getElem?_eq_some_iff.1 closing
    refine ⟨.quiet, tr.drop 18, ?_⟩
    rw [← same, ← List.drop_eq_getElem_cons short, List.take_append_drop]
  exact ⟨tr, c, _, run, closed, ended, wire, closed_never_rests run closed⟩

end Connection

end ComputerNetwork.Tcp
