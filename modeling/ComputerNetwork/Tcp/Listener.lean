import ComputerNetwork.Tcp.AcceptOrder

/-!
# The receive thread of a listening mysocket

One pass through the loop of `network_recv_thread_func` accepts a peer, reads its first packet with
`_network_recv_packet` and hands both to `_mysock_enqueue_connection`, which passes the accepted
socket on to a new mysocket.  `ready_iff` says for which peers the thread is ready for the next one.
-/

namespace ComputerNetwork.Tcp.Demux

open Lib

/-! ## The thread -/

/-- `MAX_IP_PAYLOAD_LEN`, the size of `packet_buf`. -/
def maxIpPayloadLen : ℕ := 1500

/-- A peer that connects: what `accept` returns for it, and what it sends before it closes. -/
structure Peer where
  socket : ℤ
  peerAddr : SockaddrIn
  sent : List UInt8
  deriving DecidableEq

/-- The listening context: its listen queue, `new_socket` and whether its receive thread runs. -/
structure Listener where
  demux : State
  newSocket : ℤ
  running : Bool
  deriving DecidableEq

/-- `_tcp_io` with `read`: what it returns, the bytes read and those left to read. -/
def tcpIo (stream : List UInt8) (count : ℕ) : ℤ × List UInt8 × List UInt8 :=
  if count ≤ stream.length then (count, stream.take count, stream.drop count)
  else (0, stream, [])

/-- What `_network_recv_packet` leaves behind. -/
structure Received where
  bytesRead : ℤ
  packetBuf : List UInt8
  newSocket : ℤ

/-- `_network_recv_packet` on a listening context. -/
def networkRecvPacket (newSocket : ℤ) (p : Peer) : Except Fault Received :=
  if p.socket < 0 then .ok { bytesRead := p.socket, packetBuf := [], newSocket }
  else if newSocket ≠ -1 then .error .assertion
  else
    let newSocket := p.socket
    let (rc, len, stream) := tcpIo p.sent 2
    if rc ≤ 0 then .ok { bytesRead := rc, packetBuf := [], newSocket }
    else
      let packetLen := (loadBE16 len 0).toNat
      let (rc, packetBuf, _) := tcpIo stream (min packetLen maxIpPayloadLen)
      if rc ≤ 0 then .ok { bytesRead := rc, packetBuf := [], newSocket }
      else .ok { bytesRead := packetLen, packetBuf, newSocket } -- a remainder is discarded

/-- One pass through the loop of `network_recv_thread_func` when a peer has connected. -/
def networkRecvThread (l : Listener) (p : Peer) : Except Fault (Listener × Shown) :=
  match networkRecvPacket l.newSocket p with
  | .error e => .error e
  | .ok r =>
    if r.bytesRead ≤ 0 then
      .ok ({ l with newSocket := r.newSocket, running := false }, .done) -- leaves the loop
    else if maxIpPayloadLen < r.bytesRead then .error .assertion
    else
      match enqueueConnection l.demux r.newSocket r.packetBuf p.peerAddr with
      | .error e => .error e
      | .ok e =>
        .ok ({ demux := e.state, newSocket := e.newSocket, running := true },
          match e.queued with
          | some ctx => .queued ctx.serial
          | none => .refused)

/-- A peer connects, or another thread makes a call. -/
inductive ListenerAct where
  | arrive (p : Peer)
  | call (c : Call)
  deriving DecidableEq

/-- One step; a peer that connects waits while the thread does not run. -/
def listenerStep (l : Listener) : ListenerAct → Option (Listener × Shown)
  | .arrive p =>
    if l.running then
      match networkRecvThread l p with
      | .ok r => some r
      | .error e => some ({ l with running := false }, .fault e)
    else none
  | .call c => (step l.demux c).map fun (demux, shown) => ({ l with demux }, shown)

/-- A listening mysocket and the peers that connect to it. -/
def listenerMachine : Machine Listener ListenerAct Shown := { step := listenerStep }

/-- The listening context after `mylisten`. -/
def mylisten (d : State) (backlog : UInt32) (moved : Bool) : Listener where
  demux := setBacklog d backlog moved
  newSocket := -1
  running := true

/-- The calls of other threads: all but those of the receive thread and a second `mylisten`. -/
def Elsewhere : Call → Prop
  | .setBacklog _ _ => False
  | .enqueue _ _ _ => False
  | _ => True

instance : DecidablePred Elsewhere
  | .setBacklog _ _ | .enqueue _ _ _ => .isFalse id
  | .complete _ | .dequeue | .mysocket | .myclose _ => .isTrue trivial

/-- Any peer may connect at any time. -/
def AllowedAct (h : History) (l : Listener) : ListenerAct → Prop
  | .arrive _ => True
  | .call c => Allowed h l.demux c ∧ Elsewhere c

instance (h : History) (l : Listener) (act : ListenerAct) : Decidable (AllowedAct h l act) := by
  cases act <;> unfold AllowedAct <;> infer_instance

/-! ## Which peers leave it ready -/

/-- The packet that a peer sends first, if it sends all of it. -/
def firstPacket (sent : List UInt8) : Option (List UInt8) :=
  let packetLen := (loadBE16 sent 0).toNat
  if 2 + packetLen ≤ sent.length then some ((sent.drop 2).take packetLen) else none

/-- A peer that sends a SYN of no more than `MAX_IP_PAYLOAD_LEN` bytes from a new address while there
is room in the backlog and a free descriptor. -/
def Welcome (l : Listener) (p : Peer) : Prop :=
  0 ≤ p.socket ∧ ∃ packet ∈ firstPacket p.sent, packet.length ≤ maxIpPayloadLen ∧
    ∃ q ∈ l.demux.queue, Acceptable l.demux q packet p.peerAddr

instance (l : Listener) (p : Peer) : Decidable (Welcome l p) := by
  unfold Welcome
  infer_instance

/-- The condition on a step. -/
def WelcomeAct (l : Listener) : ListenerAct → Prop
  | .arrive p => Welcome l p
  | .call _ => True

instance (l : Listener) (act : ListenerAct) : Decidable (WelcomeAct l act) := by
  cases act <;> unfold WelcomeAct <;> infer_instance

/-- The listening context is ready for the next peer. -/
structure Ready (l : Listener) : Prop where
  newSocket : l.newSocket = -1
  running : l.running = true

/-- The socket of a peer has been passed on to a mysocket. -/
def HandedOver (l : Listener) : ListenerAct → Prop
  | .arrive p => ∃ sd, ∃ ctx ∈ l.demux.contextAt sd, ctx.socket = some p.socket
  | .call _ => True

theorem tcpIo_enough {stream : List UInt8} {count : ℕ} (enough : count ≤ stream.length) :
    tcpIo stream count = ((count : ℤ), stream.take count, stream.drop count) := if_pos enough

theorem tcpIo_short {stream : List UInt8} {count : ℕ} (short : ¬ count ≤ stream.length) :
    tcpIo stream count = (0, stream, []) := if_neg short

theorem loadBE16_take_two (sent : List UInt8) : loadBE16 (sent.take 2) 0 = loadBE16 sent 0 := by
  unfold loadBE16
  rw [load8_take sent (by omega), load8_take sent (by omega)]

/-- `_network_recv_packet` returns the first packet of a peer where it fits the buffer. -/
theorem networkRecvPacket_of_firstPacket {p : Peer} {packet : List UInt8} (accepted : 0 ≤ p.socket)
    (first : firstPacket p.sent = some packet) (nonempty : 0 < packet.length)
    (fits : packet.length ≤ maxIpPayloadLen) :
    networkRecvPacket (-1) p =
      .ok { bytesRead := packet.length, packetBuf := packet, newSocket := p.socket } := by
  unfold firstPacket at first
  dsimp only at first
  split_ifs at first with long
  have whole : (loadBE16 p.sent 0).toNat = packet.length := by
    rw [← Option.some.inj first, List.length_take, List.length_drop]
    omega
  rw [whole] at first long
  unfold networkRecvPacket
  rw [if_neg (by omega), if_neg (not_not_intro rfl), tcpIo_enough (by omega)]
  dsimp only
  rw [if_neg (by decide), loadBE16_take_two, whole, min_eq_left fits,
    tcpIo_enough (by rw [List.length_drop]; omega)]
  dsimp only
  rw [if_neg (by omega), Option.some.inj first]

/-- What `_network_recv_packet` returns within the bounds of the buffer is a first packet. -/
theorem firstPacket_of_networkRecvPacket {p : Peer} {r : Received} {newSocket : ℤ}
    (run : networkRecvPacket newSocket p = .ok r) (nonempty : 0 < r.bytesRead)
    (fits : r.bytesRead ≤ maxIpPayloadLen) :
    0 ≤ p.socket ∧ r.newSocket = p.socket ∧ firstPacket p.sent = some r.packetBuf ∧
      r.packetBuf.length ≤ maxIpPayloadLen := by
  unfold networkRecvPacket at run
  split_ifs at run with failed orphan
  · rw [← Except.ok.inj run] at nonempty
    dsimp only at nonempty
    omega
  · by_cases two : 2 ≤ p.sent.length
    · rw [tcpIo_enough two] at run
      dsimp only at run
      rw [if_neg (by decide), loadBE16_take_two] at run
      set packetLen := (loadBE16 p.sent 0).toNat with whole
      by_cases rest : min packetLen maxIpPayloadLen ≤ (p.sent.drop 2).length
      · rw [tcpIo_enough rest] at run
        dsimp only at run
        split_ifs at run
        · rw [← Except.ok.inj run] at nonempty
          dsimp only at nonempty
          omega
        · rw [← Except.ok.inj run] at fits ⊢
          dsimp only at fits ⊢
          have small : packetLen ≤ maxIpPayloadLen := by omega
          rw [min_eq_left small] at rest ⊢
          rw [List.length_drop] at rest
          refine ⟨by omega, rfl, ?_, ?_⟩
          · rw [firstPacket, ← whole, if_pos (by omega)]
          · rw [List.length_take]
            omega
      · rw [tcpIo_short rest] at run
        dsimp only at run
        rw [if_pos le_rfl] at run
        rw [← Except.ok.inj run] at nonempty
        dsimp only at nonempty
        omega
    · rw [tcpIo_short two] at run
      dsimp only at run
      rw [if_pos le_rfl] at run
      rw [← Except.ok.inj run] at nonempty
      dsimp only at nonempty
      omega

/-- A welcome peer gets a mysocket of its own, and the thread is ready for the next one. -/
theorem networkRecvThread_welcome {h : History} {l : Listener} {p : Peer} (inv : Inv h l.demux)
    (ready : Ready l) (welcome : Welcome l p) :
    ∃ ctx d, networkRecvThread l p = .ok (⟨d, -1, true⟩, .queued ctx.serial) ∧
      ctx.socket = some p.socket ∧ d.contextAt ctx.mySd = some ctx ∧ d.queue.isSome ∧
      Inv (h.add (.queued ctx.serial)) d := by
  obtain ⟨accepted, packet, first, fits, q, queue, accept⟩ := welcome
  have long := accept.long
  have nonempty : 0 < packet.length := lt_of_lt_of_le (by decide) long
  obtain ⟨ctx, d, q', eq, socket, get, queue', -, table, kept⟩ :=
    (inv.kept q queue).enqueue_queued inv.table queue accept p.socket
  refine ⟨ctx, d, ?_, socket, get, by rw [queue']; rfl, .of_kept table queue' kept⟩
  unfold networkRecvThread
  rw [ready.newSocket, networkRecvPacket_of_firstPacket accepted first nonempty fits]
  dsimp only
  rw [if_neg (by omega), if_neg (by omega), eq]

/-- Any other peer ends the thread or leaves its socket in `new_socket`. -/
theorem welcome_of_ready {h : History} {l l' : Listener} {p : Peer} {shown : Shown}
    (inv : Inv h l.demux) (listening : l.demux.queue.isSome)
    (run : networkRecvThread l p = .ok (l', shown)) (ready : Ready l') : Welcome l p := by
  obtain ⟨q, queue⟩ := Option.isSome_iff_exists.1 listening
  unfold networkRecvThread at run
  rcases received : networkRecvPacket l.newSocket p with e | r
  · rw [received] at run
    cases run
  · rw [received] at run
    dsimp only at run
    split_ifs at run with stopped large
    · have stop := ready.running
      rw [← (Prod.mk.inj (Except.ok.inj run)).1] at stop
      cases stop
    · obtain ⟨accepted, socket, first, fits⟩ :=
        firstPacket_of_networkRecvPacket received (by omega) (by omega)
      refine ⟨accepted, r.packetBuf, first, fits, q, queue, ?_⟩
      by_contra refused
      rw [(inv.kept q queue).enqueue_dropped queue refused] at run
      have left := ready.newSocket
      rw [← (Prod.mk.inj (Except.ok.inj run)).1] at left
      dsimp only at left
      omega

/-- The invariant of a listening context that only welcome peers have connected to. -/
structure Live (h : History) (l : Listener) : Prop where
  ready : Ready l
  listening : l.demux.queue.isSome
  inv : Inv h l.demux

theorem Live.step {h : History} {l l' : Listener} {act : ListenerAct} {shown : Shown}
    (live : Live h l) (allowed : AllowedAct h l act) (welcome : WelcomeAct l act)
    (st : listenerStep l act = some (l', shown)) : Live (h.add shown) l' := by
  cases act with
  | arrive p =>
    obtain ⟨ctx, d, eq, -, -, listening, inv⟩ :=
      networkRecvThread_welcome live.inv live.ready welcome
    simp only [listenerStep, live.ready.running, if_true, eq] at st
    cases st
    exact ⟨⟨rfl, rfl⟩, listening, inv⟩
  | call c =>
    simp only [listenerStep, Option.map_eq_some_iff] at st
    obtain ⟨⟨d, shown'⟩, st, eq⟩ := st
    cases eq
    have keeps : KeepsBacklog c := by
      cases c with
      | setBacklog => exact allowed.2.elim
      | _ => trivial
    obtain ⟨inv, -, stays⟩ := live.inv.step allowed.1 (fits_of_keepsBacklog keeps) st
    exact ⟨⟨live.ready.newSocket, live.ready.running⟩, stays live.listening, inv⟩

theorem live_of_run {start : State} {backlog : UInt32} {moved : Bool} {l : Listener}
    {tr : List (ListenerAct × Shown)} (table : Table start) (unlistened : start.queue = none)
    (run : listenerMachine.Runs
      (fun tr l act => AllowedAct (history tr) l act ∧ WelcomeAct l act)
      (mylisten start backlog moved) tr l) : Live (history tr) l := by
  apply run.invariant (I := fun tr l => Live (history tr) l)
  · exact ⟨⟨rfl, rfl⟩, rfl, inv_listen table unlistened backlog moved⟩
  · rintro tr l act shown l' - live ⟨allowed, welcome⟩ st
    rw [history_snoc]
    exact live.step allowed welcome st

/-- One more peer leaves the context ready, with its socket passed on, if it is welcome and only
then. -/
theorem Live.ready_iff_welcome {h : History} {l l' : Listener} {act : ListenerAct} {shown : Shown}
    (live : Live h l) (st : listenerStep l act = some (l', shown)) :
    Ready l' ∧ HandedOver l' act ↔ WelcomeAct l act := by
  cases act with
  | arrive p =>
    simp only [listenerStep, live.ready.running, if_true] at st
    constructor
    · rintro ⟨ready, -⟩
      rcases result : networkRecvThread l p with e | r
      · rw [result] at st
        cases st
        cases ready.running
      · rw [result] at st
        cases st
        exact welcome_of_ready live.inv live.listening result ready
    · intro welcome
      obtain ⟨ctx, d, eq, socket, get, -, -⟩ :=
        networkRecvThread_welcome live.inv live.ready welcome
      rw [eq] at st
      cases st
      exact ⟨⟨rfl, rfl⟩, ctx.mySd, ctx, get, socket⟩
  | call c =>
    simp only [listenerStep, Option.map_eq_some_iff] at st
    obtain ⟨⟨d, shown'⟩, -, eq⟩ := st
    cases eq
    exact ⟨fun _ => trivial, fun _ => ⟨⟨live.ready.newSocket, live.ready.running⟩, trivial⟩⟩

/-- While every peer so far was welcome the listening context is ready for the next one; it is ready
after that, with the socket of the peer passed on, exactly if that one is welcome. -/
theorem ready_iff {start : State} {backlog : UInt32} {moved : Bool} {l : Listener}
    {tr : List (ListenerAct × Shown)} (table : Table start) (unlistened : start.queue = none)
    (run : listenerMachine.Runs
      (fun tr l act => AllowedAct (history tr) l act ∧ WelcomeAct l act)
      (mylisten start backlog moved) tr l) :
    Ready l ∧ ∀ act l' shown, AllowedAct (history tr) l act →
      listenerStep l act = some (l', shown) → (Ready l' ∧ HandedOver l' act ↔ WelcomeAct l act) := by
  have live := live_of_run table unlistened run
  exact ⟨live.ready, fun _ _ _ _ st => live.ready_iff_welcome st⟩

/-- A peer that sends `packet` first. -/
def peerSending (socket : ℤ) (port : UInt16) (packet : List UInt8) : Peer where
  socket := socket
  peerAddr := ⟨port, 0x7f000001⟩
  sent := bytesBE16 (UInt16.ofNat packet.length) ++ packet

/-- Three peers on two slots, the first of them accepted before the third connects. -/
theorem ready_iff_three : ∃ (tr : List (ListenerAct × Shown)) (l : Listener), Ready l ∧
    tr.map Prod.snd = [.queued 1, .queued 2, .completed 1, .dequeued 1, .queued 3] := by
  obtain ⟨tr, l, run, shown⟩ := Machine.Runs.exists_of_exec (M := listenerMachine)
    (i := mylisten bound 1 true)
    (C := fun tr l act => decide (AllowedAct (history tr) l act ∧ WelcomeAct l act))
    (P := fun tr _ => tr.map Prod.snd = [.queued 1, .queued 2, .completed 1, .dequeued 1, .queued 3])
    [.arrive (peerSending 5 40001 synPacket), .arrive (peerSending 6 40002 synPacket),
      .call (.complete 1), .call .dequeue, .arrive (peerSending 7 40003 synPacket)]
    (by decide +kernel)
  exact ⟨tr, l, (ready_iff table_bound rfl
    (run.mono fun _ _ _ cond => of_decide_eq_true cond)).1, shown⟩

/-- The context is ready for the next peer in every state, whatever peers connect. -/
def ReadyForAll (start : Listener) : Prop :=
  ∀ tr l, listenerMachine.Runs (fun tr l act => AllowedAct (history tr) l act) start tr l → Ready l

/-- One ACK that is not a SYN leaves its socket in `new_socket`; the next peer fails the assertion. -/
theorem not_readyForAll_ack : ¬ ReadyForAll (mylisten bound 1 true) := by
  intro kept
  let ack : List UInt8 := ({ thSeq := 7, thOff := 5, thFlags := thACK } : STCPHeader).bytes
  obtain ⟨tr, l, run, -, stopped⟩ := Machine.Runs.exists_of_exec (M := listenerMachine)
    (i := mylisten bound 1 true)
    (C := fun tr l act => decide (AllowedAct (history tr) l act))
    (P := fun tr l => tr.map Prod.snd = [.refused, .fault .assertion] ∧ l.running = false)
    [.arrive (peerSending 5 40001 ack), .arrive (peerSending 6 40002 synPacket)]
    (by decide +kernel)
  have ready := kept tr l (run.mono fun _ _ _ cond => of_decide_eq_true cond)
  rw [ready.running] at stopped
  cases stopped

end ComputerNetwork.Tcp.Demux
