import ComputerNetwork.Tcp.Connection

/-!
# In-order delivery

For one direction of a connection, from a sender to a receiver, `Flow` says where each byte that the
sender's application has written is: already put on the receiver's `app_send_queue`, about to be put
there by the `NETWORK_DATA` branch, in a packet queued at the receiver or on the wire, in the
segmentation loop of the sender, or still on the sender's `app_recv_queue`.  A FIN is the last
packet its sender emits, so once it has been taken off the receiver's queue every byte is in the
first of these places.  `Flow` is kept by each step of either endpoint (`Flow.send`, `Flow.receive`,
`Flow.write`, `Flow.deliver`), and hence holds along every run (`Connection.inv_of_run`).
-/

namespace ComputerNetwork.Tcp

open Lib Endpoint

/-! ## Packets in flight -/

/-- The application data a packet carries, as the `NETWORK_DATA` branch will read it. -/
def payloadOf (pkt : List UInt8) : List UInt8 := if thFlags pkt = 0 then pkt.drop 20 else []

/-- The packets `control_loop` emits: data, a pure acknowledgement, or a bare FIN. -/
def LoopPacket (pkt : List UInt8) : Prop :=
  (thFlags pkt = 0 ∧ 20 ≤ pkt.length ∧ pkt.length ≤ 556) ∨ thFlags pkt = thACK ∨
    (thFlags pkt = thFIN ∧ pkt.length = 20)

theorem payloadOf_data (h : STCPHeader) (b : List UInt8) (data : h.thFlags = 0) :
    payloadOf (h.bytes ++ b) = b := by
  rw [payloadOf, thFlags_bytes, if_pos data, List.drop_left' (STCPHeader.length_bytes h)]

theorem payloadOf_flags {pkt : List UInt8} (h : thFlags pkt ≠ 0) : payloadOf pkt = [] := if_neg h

/-- Bytes received into the segmentation loop's buffer and not yet sent. -/
def unsent : Pc → List UInt8
  | .sendData _ buffer payload _ => buffer.drop payload.toNat
  | _ => []

/-- Bytes that a call still to be made will hand to the application. -/
def callBytes : Call → List UInt8
  | .appSend src srcLen => src.take srcLen.toNat
  | _ => []

/-- Bytes that the `NETWORK_DATA` branch is about to hand to the application. -/
def pendingUp : Pc → List UInt8
  | .calls _ pending => pending.flatMap callBytes
  | _ => []

/-- Handshake packets a thread has still to send. -/
def toSend : Pc → ℕ
  | .sendSyn => 2
  | .recvSynAck | .sendAck | .recvSyn | .sendSynAck => 1
  | _ => 0

/-- Handshake packets a thread has still to receive. -/
def toRecv : Pc → ℕ
  | .recvSyn => 2
  | .sendSyn | .recvSynAck | .sendSynAck | .recvAck => 1
  | _ => 0

/-- A call of the `NETWORK_DATA` branch that stays inside its buffer. -/
def CallFit : Call → Prop
  | .appSend src srcLen => 0 ≤ srcLen ∧ srcLen ≤ src.length
  | .networkSend pkt => thFlags pkt = thACK
  | .finReceived => True

/-- The locals at a program counter are in bounds, and the calls pending after a FIN hand nothing
but the EOF marker to the application. -/
def PcFit (state : ConnectionState) : Pc → Prop
  | .sendData _ buffer payload payloadSize =>
      0 ≤ payload ∧ 0 < payloadSize ∧ payload + payloadSize = buffer.length ∧
        buffer.length ≤ senderWindow
  | .calls _ pending => (∀ c ∈ pending, CallFit c) ∧
      (.finReceived ∈ pending → state = .closeWait) ∧
      (state = .closeWait → pending.flatMap callBytes = [])
  | .crashed => False
  | _ => True

/-- A program counter of the loop with nothing in transit. -/
structure Plain (pc : Pc) : Prop where
  toSend_eq : toSend pc = 0
  toRecv_eq : toRecv pc = 0
  unsent_eq : unsent pc = []
  pendingUp_eq : pendingUp pc = []
  fit : ∀ state, PcFit state pc

theorem plain_loopHead (ctx : Context) : Plain (loopHead ctx) := by
  unfold loopHead
  split_ifs <;> exact ⟨rfl, rfl, rfl, rfl, fun _ => trivial⟩

theorem plain_afterNetwork (ev : Event) (ctx : Context) : Plain (afterNetwork ev ctx) := by
  unfold afterNetwork
  split_ifs
  · exact ⟨rfl, rfl, rfl, rfl, fun _ => trivial⟩
  · exact plain_loopHead ctx

theorem plain_afterApp (ev : Event) (ctx : Context) : Plain (afterApp ev ctx) := by
  unfold afterApp
  split_ifs
  · exact ⟨rfl, rfl, rfl, rfl, fun _ => trivial⟩
  · exact plain_afterNetwork ev ctx

theorem plain_afterWait (ev : Event) (ctx : Context) : Plain (afterWait ev ctx) := by
  unfold afterWait
  split_ifs
  · exact ⟨rfl, rfl, rfl, rfl, fun _ => trivial⟩
  · exact plain_afterApp ev ctx

/-- The segmentation loop after part of the buffer has been sent. -/
theorem sendLoop_fit (ev : Event) (buffer : List UInt8) (payload payloadSize : ℤ) (ctx : Context)
    (start : 0 ≤ payload) (rest : 0 ≤ payloadSize) (stop : payload + payloadSize = buffer.length)
    (room : buffer.length ≤ senderWindow) :
    toSend (sendLoop ev buffer payload payloadSize ctx) = 0 ∧
    toRecv (sendLoop ev buffer payload payloadSize ctx) = 0 ∧
    unsent (sendLoop ev buffer payload payloadSize ctx) = buffer.drop payload.toNat ∧
    pendingUp (sendLoop ev buffer payload payloadSize ctx) = [] ∧
    ∀ state, PcFit state (sendLoop ev buffer payload payloadSize ctx) := by
  unfold sendLoop
  split_ifs with h
  · exact ⟨rfl, rfl, rfl, rfl, fun _ => ⟨start, h, stop, room⟩⟩
  · have plain := plain_afterApp ev ctx
    refine ⟨plain.toSend_eq, plain.toRecv_eq, ?_, plain.pendingUp_eq, plain.fit⟩
    rw [plain.unsent_eq, List.drop_eq_nil_of_le (by omega)]

theorem PcFit.calls_tail {state : ConnectionState} {ev : Event} {c : Call} {rest : List Call}
    (h : PcFit state (.calls ev (c :: rest))) : PcFit state (.calls ev rest) := by
  refine ⟨fun c' hc => h.1 c' (List.mem_cons_of_mem _ hc), fun hf => h.2.1 (List.mem_cons_of_mem _ hf),
    fun hs => ?_⟩
  have := h.2.2 hs
  rw [List.flatMap_cons, List.append_eq_nil_iff] at this
  exact this.2

theorem callsPc_fit {ev : Event} {pending : List Call} (ctx : Context)
    (fit : PcFit ctx.connectionState (.calls ev pending)) :
    toSend (callsPc ev pending ctx) = 0 ∧ toRecv (callsPc ev pending ctx) = 0 ∧
    unsent (callsPc ev pending ctx) = [] ∧
    pendingUp (callsPc ev pending ctx) = pending.flatMap callBytes ∧
    PcFit ctx.connectionState (callsPc ev pending ctx) := by
  unfold callsPc
  split_ifs with h
  · have plain := plain_afterNetwork ev ctx
    refine ⟨plain.toSend_eq, plain.toRecv_eq, plain.unsent_eq, ?_, plain.fit _⟩
    rw [plain.pendingUp_eq, h]
    rfl
  · exact ⟨rfl, rfl, rfl, rfl, fit⟩

theorem drop_take_zeroFill {buffer : List UInt8} {start len size : ℕ} (h : start + len ≤ buffer.length) :
    ((zeroFill size buffer).drop start).take len = (buffer.drop start).take len := by
  rw [zeroFill, List.drop_append_of_le_length (by omega),
    List.take_append_of_le_length (by rw [List.length_drop]; omega)]

/-- One pass of the segmentation loop sends the next piece of the buffer and advances by it. -/
theorem sendSegment_none {e : Endpoint} {event : Event} {buffer : List UInt8}
    {payload payloadSize : ℤ} {state : ConnectionState}
    (fit : PcFit state (.sendData event buffer payload payloadSize)) :
    ∃ (len : ℕ) (ctx : Context), 0 < len ∧ len ≤ 536 ∧ (len : ℤ) ≤ payloadSize ∧
      ctx = { e.ctx with currentSequenceNum := addInt e.ctx.currentSequenceNum len } ∧
      e.sendSegment none event buffer payload payloadSize =
        (e.afterSend none ctx (sendLoop event buffer (payload + len) (payloadSize - len) ctx),
          .send ((dataHeader e.ctx).bytes ++ (buffer.drop payload.toNat).take len) true) := by
  obtain ⟨start, pos, stop, room⟩ := fit
  have size : segmentSize payloadSize none = min payloadSize 536 := segmentSize_none payloadSize
  refine ⟨(min payloadSize 536).toNat, _, by omega, by omega, by omega, rfl, ?_⟩
  have cast : ((min payloadSize 536).toNat : ℤ) = min payloadSize 536 := by omega
  unfold sendSegment
  dsimp only
  rw [if_neg (by simp only [stcpMss, Nat.cast_ofNat]; omega), size, cast]
  rw [drop_take_zeroFill (by simp only [stcpMss, Nat.cast_ofNat]; omega)]
  rfl

/-- The receive buffer past the header: the payload and then zeros. -/
theorem drop_zeroFill_take {pkt : List UInt8} (long : 20 ≤ pkt.length) (short : pkt.length ≤ 556) :
    (zeroFill 556 (pkt.take 556)).drop 20 = pkt.drop 20 ++ List.replicate (556 - pkt.length) 0 := by
  rw [List.take_of_length_le short, zeroFill, List.drop_append_of_le_length long]

/-- The `NETWORK_DATA` branch hands up exactly the payload of a packet of the peer's loop, and
leaves `established` exactly on a FIN. -/
theorem networkData_loopPacket {ctx ctx' : Context} {pkt : List UInt8} {pending : List Call}
    (branch : networkData ctx (zeroFill 556 (pkt.take 556)) pkt.length = (ctx', pending))
    (est : ctx.connectionState = .established) (packet : LoopPacket pkt) (ev : Event) :
    PcFit ctx'.connectionState (.calls ev pending) ∧ pending.flatMap callBytes = payloadOf pkt ∧
      (thFlags pkt = thFIN ∨ ctx'.connectionState = .established) := by
  have flag := hasFlag_zeroFill_take pkt (by omega : 20 ≤ 556)
  rcases packet with ⟨hf, long, short⟩ | hf | ⟨hf, bare⟩
  · have noAck : hasFlag pkt thACK = false := by rw [hasFlag, hf]; decide
    have noFin : hasFlag pkt thFIN = false := by rw [hasFlag, hf]; decide
    have body := drop_zeroFill_take long short
    rcases networkData_cases branch est with ⟨h1, -⟩ | ⟨-, h1, -⟩ | ⟨-, -, rfl, rfl⟩
    · simp [flag, noAck] at h1
    · simp [flag, noFin] at h1
    · refine ⟨⟨?_, by simp, fun hs => by simp [est] at hs⟩, ?_, Or.inr est⟩
      · intro c hc
        simp only [List.mem_cons, List.not_mem_nil, or_false] at hc
        rcases hc with rfl | rfl
        · simp only [CallFit, sizeofSTCPHeader, body, List.length_append, List.length_drop]
          omega
        · rfl
      · rw [payloadOf, if_pos hf]
        have size : ((pkt.length : ℤ) - (sizeofSTCPHeader : ℕ)).toNat = (pkt.drop 20).length := by
          rw [List.length_drop, sizeofSTCPHeader]
          omega
        simp only [List.flatMap_cons, List.flatMap_nil, callBytes, List.append_nil, size]
        rw [show sizeofSTCPHeader = 20 from rfl, body, List.take_left']
        rfl
  · have ack : hasFlag pkt thACK = true := by rw [hasFlag, hf]; decide
    rcases networkData_cases branch est with ⟨-, rfl, rfl⟩ | ⟨h1, -⟩ | ⟨h1, -⟩
    · exact ⟨⟨by simp, by simp, by simp⟩, by rw [payloadOf_flags (by rw [hf]; decide)]; rfl, Or.inr est⟩
    · simp [flag, ack] at h1
    · simp [flag, ack] at h1
  · have noAck : hasFlag pkt thACK = false := by rw [hasFlag, hf]; decide
    have fin : hasFlag pkt thFIN = true := by rw [hasFlag, hf]; decide
    rcases networkData_cases branch est with ⟨h1, -⟩ | ⟨-, -, rfl, rfl⟩ | ⟨-, h1, -⟩
    · simp [flag, noAck] at h1
    · rw [if_neg (by rw [bare]; decide), List.nil_append]
      refine ⟨⟨?_, fun _ => rfl, fun _ => rfl⟩, ?_, Or.inl hf⟩
      · intro c hc
        simp only [List.mem_cons, List.not_mem_nil, or_false] at hc
        rcases hc with rfl | rfl
        · trivial
        · rfl
      · rw [payloadOf_flags (by rw [hf]; decide)]
        rfl
    · simp [flag, fin] at h1

/-! ## One direction of a connection -/

/-- The sender has sent its FIN. -/
def Finished (e : Endpoint) : Prop :=
  e.ctx.connectionState = .finWait1 ∨ e.ctx.connectionState = .closed

/-- The receiver has taken a FIN off its queue. -/
def GotFin (e : Endpoint) : Prop :=
  e.ctx.connectionState = .closeWait ∨ e.ctx.connectionState = .closed

/-- A finished sender has no data left and makes no call that sends. -/
theorem Finished.idle {e : Endpoint} (h : Finished e) (ok : e.Ok)
    (fit : PcFit e.ctx.connectionState e.pc) :
    e.Quiesced ∧ (e.pc = .waitForEvent ∨ e.pc = .finalEof ∨ e.pc = .exited) := by
  have pcOk := ok.pcOk
  rcases hpc : e.pc <;> rw [hpc] at pcOk fit <;> unfold Finished at h <;> simp only [PcOk] at pcOk
  case finalEof => exact ⟨pcOk.2.2, by simp⟩
  case exited => exact ⟨pcOk.2.2, by simp⟩
  case waitForEvent =>
    refine ⟨?_, by simp⟩
    rcases pcOk.2 with hs | hs | hs
    · simp [hs] at h
    · simp [hs] at h
    · exact hs.2
  case crashed => exact absurd fit id
  all_goals
    exfalso
    rcases h with h | h <;> simp [h] at pcOk

/-- The shape of the packets between a sender and a receiver: the handshake packets still due, then
packets of the control loop, of which a FIN is the last. -/
structure Shape (snd : Endpoint) (flight : List (List UInt8)) (rcv : Endpoint)
    (hs rest : List (List UInt8)) : Prop where
  split : flight = hs ++ rest
  due : hs.length + toSend snd.pc = toRecv rcv.pc
  ordered : 0 < toSend snd.pc → rest = []
  silent : ∀ pkt ∈ hs, payloadOf pkt = []
  loop : ∀ pkt ∈ rest, LoopPacket pkt
  fin : ∀ pre pkt post, rest = pre ++ pkt :: post → thFlags pkt = thFIN → post = [] ∧ Finished snd

/-- The invariant of one direction: `w` is what the sender's application has written, `wire` the
packets on their way and `up` the buffers put on the receiver's `app_send_queue`. -/
structure Flow (w : List UInt8) (snd : Endpoint) (wire : List (List UInt8)) (rcv : Endpoint)
    (up : List (List UInt8)) : Prop where
  stream : w = up.flatten ++ (pendingUp rcv.pc ++
    ((rcv.sock.networkRecvQueue ++ wire).flatMap payloadOf ++
      (unsent snd.pc ++ snd.sock.appRecvQueue.flatten)))
  shape : ∃ hs rest, Shape snd (rcv.sock.networkRecvQueue ++ wire) rcv hs rest
  gotFin : GotFin rcv → Finished snd ∧ rcv.sock.networkRecvQueue ++ wire = []
  eof : ∀ pre post, up = pre ++ [] :: post → GotFin rcv ∧ pre.flatten = w

section Direction

variable {w : List UInt8} {snd snd' rcv rcv' : Endpoint} {wire up : List (List UInt8)}
  {hs rest flight : List (List UInt8)} {maxLen : ℕ} {o : Obs}

/-- Once the receiver has its FIN and no call pending, it has handed up everything. -/
theorem Flow.complete (h : Flow w snd wire rcv up) (ok : snd.Ok)
    (fit : PcFit snd.ctx.connectionState snd.pc) (got : GotFin rcv) (done : pendingUp rcv.pc = []) :
    up.flatten = w := by
  obtain ⟨finished, empty⟩ := h.gotFin got
  obtain ⟨⟨-, queue, -⟩, pc⟩ := finished.idle ok fit
  have sent : unsent snd.pc = [] := by rcases pc with pc | pc | pc <;> rw [pc] <;> rfl
  rw [h.stream, empty, done, sent, queue]
  simp

/-! ### Steps of the sender -/

theorem Shape.quiet (h : Shape snd flight rcv hs rest) (same : toSend snd'.pc = toSend snd.pc)
    (fin : Finished snd → Finished snd') : Shape snd' flight rcv hs rest where
  split := h.split
  due := by rw [same]; exact h.due
  ordered hp := h.ordered (by rwa [same] at hp)
  silent := h.silent
  loop := h.loop
  fin pre pkt post hr hf := ⟨(h.fin pre pkt post hr hf).1, fin (h.fin pre pkt post hr hf).2⟩

theorem Shape.handshake (h : Shape snd flight rcv hs rest) {pkt : List UInt8}
    (next : toSend snd.pc = toSend snd'.pc + 1) (silent : payloadOf pkt = []) :
    Shape snd' (flight ++ [pkt]) rcv (hs ++ [pkt]) [] where
  split := by rw [h.split, h.ordered (by omega)]; simp
  due := by
    have := h.due
    rw [List.length_append, List.length_singleton]
    omega
  ordered _ := rfl
  silent p hp := by
    cases List.mem_append.1 hp with
    | inl hp => exact h.silent p hp
    | inr hp =>
      rw [List.mem_singleton.1 hp]
      exact silent
  loop p hp := by simp at hp
  fin pre p post hr := by simp at hr

theorem Shape.emit (h : Shape snd flight rcv hs rest) {pkt : List UInt8} (before : toSend snd.pc = 0)
    (after : toSend snd'.pc = 0) (running : ¬ Finished snd) (packet : LoopPacket pkt)
    (fin : thFlags pkt = thFIN → Finished snd') :
    Shape snd' (flight ++ [pkt]) rcv hs (rest ++ [pkt]) where
  split := by rw [h.split, List.append_assoc]
  due := by rw [after, ← before]; exact h.due
  ordered hp := by omega
  silent := h.silent
  loop p hp := by
    cases List.mem_append.1 hp with
    | inl hp => exact h.loop p hp
    | inr hp =>
      rw [List.mem_singleton.1 hp]
      exact packet
  fin pre p post hr hf := by
    rcases List.eq_nil_or_concat post with rfl | ⟨post', x, rfl⟩
    · obtain ⟨-, hx⟩ := List.append_inj' hr rfl
      rw [List.cons.injEq] at hx
      exact ⟨rfl, fin (by rw [hx.1]; exact hf)⟩
    · -- an earlier FIN would have finished the sender
      rw [List.concat_eq_append, ← List.cons_append, ← List.append_assoc] at hr
      obtain ⟨hr, -⟩ := List.append_inj' hr rfl
      exact absurd (h.fin pre p post' hr hf).2 running

/-- The sender's part of a step: what leaves its queue and its buffer goes on the wire. -/
theorem Flow.send_of (h : Flow w snd wire rcv up) {pkts : List (List UInt8)}
    (bytes : unsent snd.pc ++ snd.sock.appRecvQueue.flatten =
      pkts.flatMap payloadOf ++ (unsent snd'.pc ++ snd'.sock.appRecvQueue.flatten))
    (shape : ∀ hs rest, Shape snd (rcv.sock.networkRecvQueue ++ wire) rcv hs rest →
      ∃ hs' rest', Shape snd' (rcv.sock.networkRecvQueue ++ wire ++ pkts) rcv hs' rest')
    (fin : Finished snd → Finished snd' ∧ pkts = []) : Flow w snd' (wire ++ pkts) rcv up where
  stream := by
    rw [h.stream, bytes]
    simp [List.append_assoc]
  shape := by
    obtain ⟨hs, rest, hsh⟩ := h.shape
    obtain ⟨hs', rest', hsh'⟩ := shape hs rest hsh
    exact ⟨hs', rest', by rwa [← List.append_assoc]⟩
  gotFin got := by
    obtain ⟨finished, empty⟩ := h.gotFin got
    obtain ⟨finished', rfl⟩ := fin finished
    exact ⟨finished', by rwa [List.append_nil]⟩
  eof := h.eof

theorem Flow.send_quiet (h : Flow w snd wire rcv up)
    (bytes : unsent snd.pc ++ snd.sock.appRecvQueue.flatten =
      unsent snd'.pc ++ snd'.sock.appRecvQueue.flatten)
    (same : toSend snd'.pc = toSend snd.pc) (fin : Finished snd → Finished snd') :
    Flow w snd' (wire ++ []) rcv up :=
  h.send_of (by simpa using bytes)
    (fun hs rest hsh => ⟨hs, rest, by rw [List.append_nil]; exact hsh.quiet same fin⟩)
    fun hf => ⟨fin hf, rfl⟩

theorem Flow.send_idle (h : Flow w snd wire rcv up) (buffer : unsent snd'.pc = unsent snd.pc)
    (queue : snd'.sock.appRecvQueue = snd.sock.appRecvQueue)
    (same : toSend snd'.pc = toSend snd.pc) (fin : Finished snd → Finished snd') :
    Flow w snd' (wire ++ []) rcv up :=
  h.send_quiet (by rw [buffer, queue]) same fin

theorem Flow.send_emit (h : Flow w snd wire rcv up) {pkt : List UInt8}
    (bytes : unsent snd.pc ++ snd.sock.appRecvQueue.flatten =
      payloadOf pkt ++ (unsent snd'.pc ++ snd'.sock.appRecvQueue.flatten))
    (before : toSend snd.pc = 0) (after : toSend snd'.pc = 0) (running : ¬ Finished snd)
    (packet : LoopPacket pkt) (fin : thFlags pkt = thFIN → Finished snd') :
    Flow w snd' (wire ++ [pkt]) rcv up :=
  h.send_of (by simpa using bytes)
    (fun hs rest hsh => ⟨hs, rest ++ [pkt], hsh.emit before after running packet fin⟩)
    fun hf => absurd hf running

theorem Flow.send_handshake (h : Flow w snd wire rcv up) {pkt : List UInt8}
    (bytes : unsent snd.pc ++ snd.sock.appRecvQueue.flatten =
      unsent snd'.pc ++ snd'.sock.appRecvQueue.flatten)
    (next : toSend snd.pc = toSend snd'.pc + 1) (silent : payloadOf pkt = [])
    (running : ¬ Finished snd) : Flow w snd' (wire ++ [pkt]) rcv up :=
  h.send_of (by simpa [silent] using bytes)
    (fun hs rest hsh => ⟨hs ++ [pkt], [], hsh.handshake next silent⟩)
    fun hf => absurd hf running

/-- A call of the `NETWORK_DATA` branch takes nothing from the application. -/
theorem Flow.send_call (h : Flow w snd wire rcv up) {event : Event} {c : Call} {rest : List Call}
    (pc : snd.pc = .calls event (c :: rest))
    (fit : PcFit snd.ctx.connectionState (.calls event (c :: rest))) (running : ¬ Finished snd) :
    Flow w (snd.call none event rest c).1 (wire ++ sentPackets (snd.call none event rest c).2)
      rcv up := by
  obtain ⟨h1, -, h3, -⟩ := callsPc_fit snd.ctx fit.calls_tail
  have stays : Finished snd → Finished (snd.call none event rest c).1 := fun hf => absurd hf running
  cases c with
  | finReceived => exact h.send_idle (by rw [pc]; exact h3) rfl (by rw [pc]; exact h1) stays
  | appSend src srcLen =>
    rw [Endpoint.call] at stays ⊢
    split_ifs at stays ⊢ with zero inside
    · exact h.send_idle (by rw [pc]; exact h3) rfl (by rw [pc]; exact h1) stays
    · exact h.send_idle (by rw [pc]; exact h3) rfl (by rw [pc]; exact h1) stays
    · have := fit.1 _ (List.mem_cons_self ..)
      simp only [CallFit] at this
      omega
  | networkSend pkt =>
    have ack : thFlags pkt = thACK := fit.1 _ (List.mem_cons_self ..)
    refine h.send_emit ?_ (by rw [pc]; rfl) h1 running (Or.inr (Or.inl ack))
      (fun hf => by rw [ack] at hf; exact absurd hf (by decide))
    rw [pc, payloadOf_flags (by rw [ack]; decide)]
    show _ = [] ++ (unsent (callsPc event rest snd.ctx) ++ _)
    rw [h3]
    rfl

theorem Flow.send (h : Flow w snd wire rcv up) (ok : snd.Ok)
    (fit : PcFit snd.ctx.connectionState snd.pc) (small : maxLen ≤ senderWindow)
    (st : TransportStep snd maxLen none snd' o) : Flow w snd' (wire ++ sentPackets o) rcv up := by
  -- a finished sender makes no call that sends
  have busy : ¬ Finished snd ∨ (snd.pc = .waitForEvent ∨ snd.pc = .finalEof ∨ snd.pc = .exited) := by
    by_cases hf : Finished snd
    · exact Or.inr (hf.idle ok fit).2
    · exact Or.inl hf
  cases st with
  | sendSyn pc | sendAck pc | sendSynAck pc =>
    refine h.send_handshake (by rw [pc]; rfl) (by rw [pc]; rfl) rfl (by simpa [pc] using busy)
  | recvSynAck pc queue answer | recvSyn pc queue answer | recvAck pc queue =>
    exact h.send_idle (by rw [pc]; rfl) rfl (by rw [pc]; rfl)
      fun hf => absurd hf (by simpa [pc] using busy)
  | unblock pc =>
    have plain := plain_loopHead snd.ctx
    exact h.send_idle (by rw [pc]; exact plain.unsent_eq) rfl (by rw [pc]; exact plain.toSend_eq) id
  | @waitForEvent ev pc event nonzero =>
    have plain := plain_afterWait ev snd.ctx
    exact h.send_idle (by rw [pc]; exact plain.unsent_eq) rfl (by rw [pc]; exact plain.toSend_eq) id
  | @appRecv event data pq pc asked stream recv fits =>
    obtain ⟨h1, -, h3, -⟩ := sendLoop_fit event data 0 data.length snd.ctx le_rfl (by omega)
      (by omega) fits
    refine h.send_quiet ?_ (by rw [pc]; exact h1) id
    rw [pc, stream]
    show [] ++ _ = unsent (sendLoop _ _ _ _ _) ++ _
    rw [h3]
    rfl
  | appRecvOverflow pc asked overflow => omega
  | @sendData event buffer payload payloadSize pc =>
    rw [pc] at fit
    obtain ⟨len, ctx, pos, short, inside, -, seg⟩ := sendSegment_none (e := snd) fit
    obtain ⟨start, -, stop, room⟩ := fit
    rw [seg]
    obtain ⟨h1, -, h3, -⟩ := sendLoop_fit event buffer (payload + len) (payloadSize - len) ctx
      (by omega) (by omega) (by omega) room
    have piece : ((buffer.drop payload.toNat).take len).length = len := by
      rw [List.length_take, List.length_drop]
      omega
    have moved : (payload + len).toNat = payload.toNat + len := by omega
    refine h.send_emit ?_ (by rw [pc]; rfl) h1 (by simpa [pc] using busy)
      (Or.inl ⟨rfl, by simp, by simp [piece]; omega⟩) (fun hf => by simp [dataHeader, thFIN] at hf)
    rw [pc, payloadOf_data _ _ rfl]
    show buffer.drop payload.toNat ++ _ = _ ++ (unsent (sendLoop _ _ _ _ _) ++ _)
    rw [h3, moved, ← List.append_assoc, ← List.drop_drop, List.take_append_drop]
    rfl
  | @networkRecv event pkt rest ctx pending pc queue branch =>
    have calls : toSend (callsPc event pending ctx) = 0 ∧ unsent (callsPc event pending ctx) = [] := by
      unfold callsPc
      split_ifs
      · exact ⟨(plain_afterNetwork event ctx).toSend_eq, (plain_afterNetwork event ctx).unsent_eq⟩
      · exact ⟨rfl, rfl⟩
    exact h.send_idle (by rw [pc]; exact calls.2) rfl (by rw [pc]; exact calls.1)
      fun hf => absurd hf (by simpa [pc] using busy)
  | call pc =>
    rw [pc] at fit
    exact h.send_call pc fit (by simpa [pc] using busy)
  | sendFin pc =>
    have plain := plain_loopHead (afterFin snd.ctx)
    have closes : Finished (snd.afterSend none (afterFin snd.ctx) (loopHead (afterFin snd.ctx))) :=
      (afterFin_cases snd.ctx).imp And.left And.left
    refine h.send_emit ?_ (by rw [pc]; rfl) plain.toSend_eq (by simpa [pc] using busy)
      (Or.inr (Or.inr ⟨rfl, rfl⟩)) fun _ => closes
    rw [pc, payloadOf_flags (show thFlags (finHeader snd.ctx).bytes ≠ 0 from (by decide : thFIN ≠ 0))]
    show _ = [] ++ (unsent (loopHead (afterFin snd.ctx)) ++ _)
    rw [plain.unsent_eq]
    rfl
  | finalEof pc => exact h.send_idle (by rw [pc]; rfl) rfl (by rw [pc]; rfl) id

/-! ### Steps of the receiver -/

/-- The receiver's part of a step: what leaves its queue and its pending calls is put on
`app_send_queue`. -/
theorem Flow.receive_of (h : Flow w snd wire rcv up) {new : List (List UInt8)}
    (bytes : pendingUp rcv.pc ++ rcv.sock.networkRecvQueue.flatMap payloadOf =
      new.flatten ++ (pendingUp rcv'.pc ++ rcv'.sock.networkRecvQueue.flatMap payloadOf))
    (shape : ∀ hs rest, Shape snd (rcv.sock.networkRecvQueue ++ wire) rcv hs rest →
      ∃ hs' rest', Shape snd (rcv'.sock.networkRecvQueue ++ wire) rcv' hs' rest')
    (got : GotFin rcv' → Finished snd ∧ rcv'.sock.networkRecvQueue ++ wire = [])
    (keep : GotFin rcv → GotFin rcv')
    (eof : ∀ pre post, new = pre ++ [] :: post → GotFin rcv' ∧ (up ++ pre).flatten = w) :
    Flow w snd wire rcv' (up ++ new) where
  stream := by
    rw [h.stream, List.flatMap_append, List.flatMap_append, ← List.append_assoc (pendingUp rcv.pc),
      ← List.append_assoc (pendingUp rcv.pc), bytes]
    simp [List.append_assoc]
  shape := by
    obtain ⟨hs, rest, hsh⟩ := h.shape
    exact shape hs rest hsh
  gotFin := got
  eof pre post hup := by
    rcases List.append_eq_append_iff.1 hup with ⟨pre', rfl, hnew⟩ | ⟨mid, hup', hmid⟩
    · exact eof pre' post hnew
    · cases mid with
      | nil =>
        rw [List.append_nil] at hup'
        obtain ⟨h1, h2⟩ := eof [] post hmid.symm
        rw [List.append_nil, hup'] at h2
        exact ⟨h1, h2⟩
      | cons x mid =>
        rw [List.cons_append, List.cons.injEq] at hmid
        obtain ⟨h1, h2⟩ := h.eof pre mid (by rw [hup', ← hmid.1])
        exact ⟨keep h1, h2⟩

theorem Shape.receive_same (h : Shape snd flight rcv hs rest) (same : toRecv rcv'.pc = toRecv rcv.pc) :
    Shape snd flight rcv' hs rest :=
  { h with due := by rw [same]; exact h.due }

theorem Flow.receive_idle (h : Flow w snd wire rcv up)
    (pending : pendingUp rcv'.pc = pendingUp rcv.pc)
    (queue : rcv'.sock.networkRecvQueue = rcv.sock.networkRecvQueue)
    (same : toRecv rcv'.pc = toRecv rcv.pc) (got : GotFin rcv' ↔ GotFin rcv) :
    Flow w snd wire rcv' (up ++ []) :=
  h.receive_of (by rw [pending, queue]; rfl)
    (fun hs rest hsh => ⟨hs, rest, by rw [queue]; exact hsh.receive_same same⟩)
    (fun hg => by rw [queue]; exact h.gotFin (got.1 hg)) got.2 (fun pre post hn => by simp at hn)

/-- The receiver puts one buffer on `app_send_queue`; an empty one only when nothing is missing. -/
theorem Flow.receive_put (h : Flow w snd wire rcv up) {buf : List UInt8}
    (bytes : pendingUp rcv.pc = buf ++ pendingUp rcv'.pc)
    (queue : rcv'.sock.networkRecvQueue = rcv.sock.networkRecvQueue)
    (same : toRecv rcv'.pc = toRecv rcv.pc)
    (state : rcv'.ctx.connectionState = rcv.ctx.connectionState)
    (eof : buf = [] → GotFin rcv ∧ up.flatten = w) : Flow w snd wire rcv' (up ++ [buf]) := by
  have got : GotFin rcv' ↔ GotFin rcv := by rw [GotFin, GotFin, state]
  refine h.receive_of ?_ (fun hs rest hsh => ⟨hs, rest, ?_⟩) (fun hg => ?_) got.2 ?_
  · rw [bytes, queue]
    simp [List.append_assoc]
  · rw [queue]
    exact hsh.receive_same same
  · rw [queue]
    exact h.gotFin (got.1 hg)
  · intro pre post hn
    cases pre with
    | nil =>
      rw [List.nil_append, List.cons.injEq] at hn
      obtain ⟨h1, h2⟩ := eof hn.1
      exact ⟨got.2 h1, by rwa [List.append_nil]⟩
    | cons p pre => simp at hn

theorem Flow.receive_handshake (h : Flow w snd wire rcv up) {pkt : List UInt8}
    {queue : List (List UInt8)} (head : rcv.sock.networkRecvQueue = pkt :: queue)
    (tail : rcv'.sock.networkRecvQueue = queue) (pending : pendingUp rcv.pc = [])
    (pending' : pendingUp rcv'.pc = []) (next : toRecv rcv.pc = toRecv rcv'.pc + 1)
    (fresh : ¬ GotFin rcv) (fresh' : ¬ GotFin rcv') : Flow w snd wire rcv' (up ++ []) := by
  -- the head of the queue is a handshake packet: before the last of them no other has been sent
  have front : ∀ hs rest, Shape snd (rcv.sock.networkRecvQueue ++ wire) rcv hs rest →
      ∃ hs', hs = pkt :: hs' ∧ queue ++ wire = hs' ++ rest := by
    intro hs rest hsh
    have split := hsh.split
    rw [head, List.cons_append] at split
    cases hs with
    | nil =>
      have due := hsh.due
      rw [List.length_nil] at due
      rw [hsh.ordered (by omega)] at split
      simp at split
    | cons p hs' =>
      rw [List.cons_append, List.cons.injEq] at split
      exact ⟨hs', by rw [split.1], split.2⟩
  refine h.receive_of ?_ ?_ (fun hg => absurd hg fresh') (fun hg => absurd hg fresh)
    (fun pre post hn => by simp at hn)
  · obtain ⟨hs, rest, hsh⟩ := h.shape
    obtain ⟨hs', rfl, -⟩ := front hs rest hsh
    rw [pending, pending', head, tail, List.flatMap_cons, hsh.silent pkt (List.mem_cons_self ..)]
    rfl
  · intro hs rest hsh
    obtain ⟨hs', rfl, split⟩ := front hs rest hsh
    refine ⟨hs', rest, { hsh with split := by rw [tail]; exact split, due := ?_, silent := ?_ }⟩
    · have due := hsh.due
      rw [List.length_cons] at due
      omega
    · exact fun p hp => hsh.silent p (List.mem_cons_of_mem _ hp)

/-- The control loop reads a packet of the peer's control loop. -/
theorem Flow.loop_head (h : Flow w snd wire rcv up) {pkt : List UInt8} {queue : List (List UInt8)}
    (head : rcv.sock.networkRecvQueue = pkt :: queue) (loop : toRecv rcv.pc = 0) :
    LoopPacket pkt ∧ (thFlags pkt = thFIN → Finished snd ∧ queue ++ wire = []) ∧
      ∃ rest, Shape snd (queue ++ wire) rcv [] rest := by
  obtain ⟨hs, rest, hsh⟩ := h.shape
  obtain rfl : hs = [] := List.eq_nil_of_length_eq_zero (by have := hsh.due; omega)
  have split := hsh.split
  rw [head, List.cons_append, List.nil_append] at split
  refine ⟨hsh.loop pkt (by rw [← split]; exact List.mem_cons_self ..), fun hf => ?_,
    queue ++ wire, ?_⟩
  · obtain ⟨h1, h2⟩ := hsh.fin [] pkt (queue ++ wire) split.symm hf
    exact ⟨h2, h1⟩
  · refine { hsh with split := rfl, ordered := fun hp => ?_, loop := fun p hp => ?_,
                      fin := fun pre p post hr hf => ?_ }
    · have := hsh.ordered hp
      simp [← split] at this
    · exact hsh.loop p (by rw [← split]; exact List.mem_cons_of_mem _ hp)
    · exact hsh.fin (pkt :: pre) p post (by rw [← split, hr]; rfl) hf

theorem Flow.fit (h : Flow w snd wire rcv up) (ok : rcv.Ok)
    (fit : PcFit rcv.ctx.connectionState rcv.pc) (small : maxLen ≤ senderWindow)
    (st : TransportStep rcv maxLen none rcv' o) : PcFit rcv'.ctx.connectionState rcv'.pc := by
  cases st with
  | sendSyn | sendAck | sendSynAck | recvSynAck | recvSyn | recvAck | finalEof => trivial
  | unblock pc => exact (plain_loopHead rcv.ctx).fit _
  | waitForEvent pc event nonzero => exact (plain_afterWait _ rcv.ctx).fit _
  | @appRecv event data pq pc asked stream recv fits =>
    exact (sendLoop_fit event data 0 data.length rcv.ctx le_rfl (by omega) (by omega) fits).2.2.2.2 _
  | appRecvOverflow pc asked overflow => omega
  | @sendData event buffer payload payloadSize pc =>
    rw [pc] at fit
    obtain ⟨len, ctx, pos, short, inside, -, seg⟩ := sendSegment_none (e := rcv) fit
    obtain ⟨start, -, stop, room⟩ := fit
    rw [seg]
    exact (sendLoop_fit event buffer (payload + len) (payloadSize - len) ctx (by omega) (by omega)
      (by omega) room).2.2.2.2 _
  | @networkRecv event pkt queue ctx pending pc head branch =>
    have pcOk := ok.pcOk
    rw [pc] at pcOk
    obtain ⟨packet, -⟩ := h.loop_head head (by rw [pc]; rfl)
    exact (callsPc_fit _ (networkData_loopPacket branch pcOk.2.1 packet event).1).2.2.2.2
  | @call event c rest pc =>
    rw [pc] at fit
    have tail := (callsPc_fit rcv.ctx fit.calls_tail).2.2.2.2
    cases c with
    | finReceived => exact tail
    | appSend src srcLen =>
      rw [Endpoint.call]
      split_ifs with zero inside
      · exact tail
      · exact tail
      · have := fit.1 _ (List.mem_cons_self ..)
        simp only [CallFit] at this
        omega
    | networkSend pkt => exact tail
  | sendFin pc => exact (plain_loopHead (afterFin rcv.ctx)).fit _

/-- A call of the `NETWORK_DATA` branch hands up what it holds. -/
theorem Flow.receive_call (h : Flow w snd wire rcv up) (sndOk : snd.Ok)
    (sndFit : PcFit snd.ctx.connectionState snd.pc) {event : Event} {c : Call} {rest : List Call}
    (pc : rcv.pc = .calls event (c :: rest))
    (fit : PcFit rcv.ctx.connectionState (.calls event (c :: rest))) :
    Flow w snd wire (rcv.call none event rest c).1
      (up ++ putBuffers (rcv.call none event rest c).2) := by
  obtain ⟨-, h2, -, h4, -⟩ := callsPc_fit rcv.ctx fit.calls_tail
  have pending : pendingUp rcv.pc = callBytes c ++ pendingUp (callsPc event rest rcv.ctx) := by
    rw [pc, h4]
    rfl
  cases c with
  | finReceived =>
    have got : GotFin rcv := Or.inl (fit.2.1 (List.mem_cons_self ..))
    refine h.receive_put pending rfl (by rw [pc]; exact h2) rfl fun _ => ⟨got, ?_⟩
    refine h.complete sndOk sndFit got ?_
    rw [pc]
    exact fit.2.2 (fit.2.1 (List.mem_cons_self ..))
  | appSend src srcLen =>
    have inside := fit.1 _ (List.mem_cons_self ..)
    simp only [CallFit] at inside
    rw [Endpoint.call]
    split_ifs with zero pos
    · refine h.receive_idle ?_ rfl (by rw [pc]; exact h2) Iff.rfl
      rw [pending, callBytes, zero]
      rfl
    · refine h.receive_put pending rfl (by rw [pc]; exact h2) rfl fun hnil => ?_
      have size := congrArg List.length hnil
      rw [List.length_take, List.length_nil] at size
      omega
    · omega
  | networkSend pkt => exact h.receive_idle pending.symm rfl (by rw [pc]; exact h2) Iff.rfl

theorem Flow.receive (h : Flow w snd wire rcv up) (sndOk : snd.Ok)
    (sndFit : PcFit snd.ctx.connectionState snd.pc) (ok : rcv.Ok)
    (fit : PcFit rcv.ctx.connectionState rcv.pc) (small : maxLen ≤ senderWindow)
    (st : TransportStep rcv maxLen none rcv' o) : Flow w snd wire rcv' (up ++ putBuffers o) := by
  have pcOk := ok.pcOk
  cases st with
  | sendSyn pc | sendSynAck pc =>
    rw [pc] at pcOk
    exact h.receive_idle (by rw [pc]; rfl) rfl (by rw [pc]; rfl) Iff.rfl
  | sendAck pc =>
    rw [pc] at pcOk
    refine h.receive_idle (by rw [pc]; rfl) rfl (by rw [pc]; rfl) ?_
    rcases pcOk.2 with hs | hs | hs <;> simp [GotFin, hs, afterSend]
  | recvSynAck pc head answer | recvSyn pc head answer | recvAck pc head =>
    rw [pc] at pcOk
    refine h.receive_handshake head rfl (by rw [pc]; rfl) rfl (by rw [pc]; rfl) ?_ (by simp [GotFin])
    rcases pcOk.2 with hs | hs | hs <;> simp [GotFin, hs]
  | unblock pc =>
    have plain := plain_loopHead rcv.ctx
    exact h.receive_idle (by rw [pc]; exact plain.pendingUp_eq) rfl
      (by rw [pc]; exact plain.toRecv_eq) Iff.rfl
  | @waitForEvent ev pc event nonzero =>
    have plain := plain_afterWait ev rcv.ctx
    exact h.receive_idle (by rw [pc]; exact plain.pendingUp_eq) rfl
      (by rw [pc]; exact plain.toRecv_eq) Iff.rfl
  | @appRecv event data pq pc asked stream recv fits =>
    obtain ⟨-, h2, -, h4, -⟩ := sendLoop_fit event data 0 data.length rcv.ctx le_rfl (by omega)
      (by omega) fits
    exact h.receive_idle (by rw [pc]; exact h4) rfl (by rw [pc]; exact h2) Iff.rfl
  | appRecvOverflow pc asked overflow => omega
  | @sendData event buffer payload payloadSize pc =>
    rw [pc] at fit
    obtain ⟨len, ctx, pos, short, inside, hctx, seg⟩ := sendSegment_none (e := rcv) fit
    obtain ⟨start, -, stop, room⟩ := fit
    rw [seg]
    obtain ⟨-, h2, -, h4, -⟩ := sendLoop_fit event buffer (payload + len) (payloadSize - len) ctx
      (by omega) (by omega) (by omega) room
    refine h.receive_idle (by rw [pc]; exact h4) rfl (by rw [pc]; exact h2) ?_
    rw [hctx]
    exact Iff.rfl
  | @networkRecv event pkt queue ctx pending pc head branch =>
    rw [pc] at pcOk
    obtain ⟨packet, fin, rest, hsh⟩ := h.loop_head head (by rw [pc]; rfl)
    obtain ⟨calls, bytes, state⟩ := networkData_loopPacket branch pcOk.2.1 packet event
    obtain ⟨-, h2, -, h4, -⟩ := callsPc_fit _ calls
    refine h.receive_of ?_ (fun _ _ _ => ⟨[], rest, ?_⟩) (fun hg => ?_) (fun hg => ?_)
      (fun pre post hn => by simp [putBuffers] at hn)
    · show _ = [] ++ (pendingUp (callsPc event pending ctx) ++ _)
      rw [h4, bytes, pc, head]
      rfl
    · exact hsh.receive_same (by rw [pc]; exact h2)
    · cases state with
      | inl hf => exact fin hf
      | inr hs => simp [GotFin, hs] at hg
    · simp [GotFin, pcOk.2.1] at hg
  | call pc =>
    rw [pc] at fit
    exact h.receive_call sndOk sndFit pc fit
  | sendFin pc =>
    rw [pc] at pcOk
    have plain := plain_loopHead (afterFin rcv.ctx)
    refine h.receive_idle (by rw [pc]; exact plain.pendingUp_eq) rfl
      (by rw [pc]; exact plain.toRecv_eq) ?_
    rcases pcOk.2.1 with hs | hs <;> simp [GotFin, hs, afterSend, afterFin]
  | finalEof pc =>
    rw [pc] at pcOk
    have got : GotFin rcv := Or.inr pcOk.2.1
    have full := h.complete sndOk sndFit got (by rw [pc]; rfl)
    exact h.receive_put (by rw [pc]; rfl) rfl (by rw [pc]; rfl) rfl fun _ => ⟨got, full⟩

/-! ### Steps of the applications and of the network -/

/-- Flow only looks at these parts of the two endpoints. -/
theorem Flow.congr (h : Flow w snd wire rcv up) (sndPc : snd'.pc = snd.pc)
    (sndState : snd'.ctx.connectionState = snd.ctx.connectionState)
    (sndQueue : snd'.sock.appRecvQueue = snd.sock.appRecvQueue) (rcvPc : rcv'.pc = rcv.pc)
    (rcvState : rcv'.ctx.connectionState = rcv.ctx.connectionState)
    (rcvQueue : rcv'.sock.networkRecvQueue = rcv.sock.networkRecvQueue) :
    Flow w snd' wire rcv' up where
  stream := by rw [h.stream, sndPc, sndQueue, rcvPc, rcvQueue]
  shape := by
    obtain ⟨hs, rest, hsh⟩ := h.shape
    refine ⟨hs, rest, ?_⟩
    rw [rcvQueue]
    exact (hsh.quiet (by rw [sndPc]) (by rw [Finished, Finished, sndState]; exact id)).receive_same
      (by rw [rcvPc])
  gotFin hg := by
    rw [GotFin, rcvState] at hg
    rw [Finished, sndState, rcvQueue]
    exact h.gotFin hg
  eof pre post hup := by
    rw [GotFin, rcvState]
    exact h.eof pre post hup

theorem Flow.write (h : Flow w snd wire rcv up) (ok : snd.Ok)
    (fit : PcFit snd.ctx.connectionState snd.pc) (opened : snd.appClosed = false) (buf : List UInt8) :
    Flow (w ++ buf) { snd with sock := mywrite snd.sock buf } wire rcv up where
  stream := by
    rw [h.stream]
    simp [mywrite, mysockEnqueueBuffer, List.append_assoc]
  shape := by
    obtain ⟨hs, rest, hsh⟩ := h.shape
    exact ⟨hs, rest, hsh.quiet rfl id⟩
  gotFin := h.gotFin
  eof pre post hup := by
    -- after the EOF marker the sender's application has closed
    obtain ⟨got, -⟩ := h.eof pre post hup
    obtain ⟨⟨closed, -⟩, -⟩ := (h.gotFin got).1.idle ok fit
    rw [opened] at closed
    cases closed

theorem Flow.deliver {pkt : List UInt8} (h : Flow w snd (pkt :: wire) rcv up) :
    Flow w snd wire { rcv with sock := { rcv.sock with
      networkRecvQueue := mysockEnqueueBuffer rcv.sock.networkRecvQueue pkt } } up := by
  have same : rcv.sock.networkRecvQueue ++ pkt :: wire =
      mysockEnqueueBuffer rcv.sock.networkRecvQueue pkt ++ wire := by
    simp [mysockEnqueueBuffer]
  constructor
  · rw [← same]
    exact h.stream
  · rw [← same]
    obtain ⟨hs, rest, hsh⟩ := h.shape
    exact ⟨hs, rest, hsh.receive_same rfl⟩
  · rw [← same]
    exact h.gotFin
  · exact h.eof

end Direction

/-! ## Whole connections -/

namespace Connection

/-- The invariant of a connection. -/
structure Inv (tr : ConnectionTrace) (c : Connection) : Prop where
  ok : ∀ side, (c.ep side).Ok
  fit : ∀ side, PcFit (c.ep side).ctx.connectionState (c.ep side).pc
  flow : ∀ side, Flow (written side tr) (c.ep side) (c.wire side) (c.ep side.peer) (puts side.peer tr)
  closed : ∀ side, (c.ep side).appClosed = true →
    ∃ tr₁, ClosedAfter side tr tr₁ ∧ written side tr₁ = written side tr

variable {tr : ConnectionTrace} {c c' : Connection} {entry : ConnectionAction × Obs}

/-- A step that changes one endpoint keeps the invariant if it keeps the flows it takes part in. -/
theorem Inv.step_at (h : Inv tr c) (side : Side) (other : c'.ep side.peer = c.ep side.peer)
    (ok : (c'.ep side).Ok) (fit : PcFit (c'.ep side).ctx.connectionState (c'.ep side).pc)
    (out : Flow (written side (tr ++ [entry])) (c'.ep side) (c'.wire side) (c.ep side.peer)
      (puts side.peer (tr ++ [entry])))
    (into : Flow (written side.peer (tr ++ [entry])) (c.ep side.peer) (c'.wire side.peer) (c'.ep side)
      (puts side (tr ++ [entry])))
    (closed : (c'.ep side).appClosed = true → ∃ tr₁, ClosedAfter side (tr ++ [entry]) tr₁ ∧
      written side tr₁ = written side (tr ++ [entry]))
    (quiet : written side.peer [entry] = []) : Inv (tr ++ [entry]) c' where
  ok x := by
    rcases side.eq_or_eq_peer x with rfl | rfl
    · exact ok
    · rw [other]
      exact h.ok _
  fit x := by
    rcases side.eq_or_eq_peer x with rfl | rfl
    · exact fit
    · rw [other]
      exact h.fit _
  flow x := by
    rcases side.eq_or_eq_peer x with rfl | rfl
    · rw [other]
      exact out
    · rw [other, Side.peer_peer]
      exact into
  closed x hx := by
    rcases side.eq_or_eq_peer x with rfl | rfl
    · exact closed hx
    · rw [other] at hx
      obtain ⟨tr₁, h1, h2⟩ := h.closed _ hx
      exact ⟨tr₁, h1.append _, by rw [h2, written_append, quiet, List.append_nil]⟩

/-- The application of `side` had closed before, or has not closed yet. -/
theorem Inv.closed_append (h : Inv tr c) (side : Side) (silent : written side [entry] = [])
    (hc : (c.ep side).appClosed = true) :
    ∃ tr₁, ClosedAfter side (tr ++ [entry]) tr₁ ∧
      written side tr₁ = written side (tr ++ [entry]) := by
  obtain ⟨tr₁, h1, h2⟩ := h.closed side hc
  exact ⟨tr₁, h1.append _, by rw [h2, written_append, silent, List.append_nil]⟩

/-- The state in which `step` leaves the connection after a step of `side`. -/
theorem stepAt_eq_some {side : Side} {a : Action} {o : Obs}
    (h : c.stepAt side a = some (c', o)) :
    ∃ e, (c.ep side).step a = some (e, o) ∧ c' =
      { ep := Function.update c.ep side e
        wire := Function.update c.wire side (c.wire side ++ sentPackets o) } := by
  obtain ⟨⟨e, o'⟩, he, h'⟩ := Option.map_eq_some_iff.1 h
  simp only [Prod.mk.injEq] at h'
  obtain ⟨rfl, rfl⟩ := h'
  exact ⟨e, he, rfl⟩

theorem Inv.transport (h : Inv tr c) {side : Side} {maxLen : ℕ} {o : Obs} {e : Endpoint}
    (small : maxLen ≤ senderWindow) (st : TransportStep (c.ep side) maxLen none e o) :
    Inv (tr ++ [(.transport side maxLen, o)])
      { ep := Function.update c.ep side e
        wire := Function.update c.wire side (c.wire side ++ sentPackets o) } := by
  have into := h.flow side.peer
  rw [Side.peer_peer] at into
  refine h.step_at side ?_ ?_ ?_ ?_ ?_ ?_ ?_
  · exact Function.update_of_ne side.peer_ne _ _
  · simpa using (h.ok side).transport st
  · simpa using into.fit (h.ok side) (h.fit side) small st
  · have := (h.flow side).send (h.ok side) (h.fit side) small st
    simpa [written, puts, side.peer_ne.symm] using this
  · have := into.receive (h.ok _) (h.fit _) (h.ok side) (h.fit side) small st
    simpa [written, puts, side.peer_ne] using this
  · intro hc
    dsimp only at hc
    rw [Function.update_self, st.appClosed] at hc
    exact h.closed_append side rfl hc
  · rfl

/-- A call of the application, which sends nothing and leaves the STCP thread where it is. -/
theorem Inv.application (h : Inv tr c) {side : Side} {e : Endpoint} (ok : e.Ok)
    (pc : e.pc = (c.ep side).pc) (ctx : e.ctx = (c.ep side).ctx)
    (queue : e.sock.networkRecvQueue = (c.ep side).sock.networkRecvQueue)
    (out : Flow (written side (tr ++ [entry])) e (c.wire side) (c.ep side.peer)
      (puts side.peer tr))
    (closed : e.appClosed = true → ∃ tr₁, ClosedAfter side (tr ++ [entry]) tr₁ ∧
      written side tr₁ = written side (tr ++ [entry]))
    (quiet : written side.peer [entry] = []) (silent : ∀ x, puts x [entry] = []) :
    Inv (tr ++ [entry]) { ep := Function.update c.ep side e
                          wire := Function.update c.wire side (c.wire side ++ []) } := by
  have into := h.flow side.peer
  rw [Side.peer_peer] at into
  refine h.step_at side ?_ ?_ ?_ ?_ ?_ ?_ quiet
  · exact Function.update_of_ne side.peer_ne _ _
  · simpa using ok
  · have fit := h.fit side
    rw [← pc, ← ctx] at fit
    simpa using fit
  · simpa [silent] using out
  · rw [written_append, quiet, puts_append, silent]
    simp only [List.append_nil, Function.update_of_ne side.peer_ne, Function.update_self]
    exact into.congr rfl rfl rfl pc (by rw [ctx]) queue
  · dsimp only
    rw [Function.update_self]
    exact closed

theorem Inv.step (h : Inv tr c) {a : ConnectionAction} {o : Obs}
    (st : c.step a = some (c', o)) : Inv (tr ++ [(a, o)]) c' := by
  cases a with
  | transport side maxLen =>
    simp only [Connection.step] at st
    split_ifs at st with small
    obtain ⟨e, he, rfl⟩ := stepAt_eq_some st
    exact h.transport small (transportStep_of_eq he)
  | mywrite side buf =>
    obtain ⟨e, he, rfl⟩ := stepAt_eq_some st
    have ok := (h.ok side).step he
    obtain ⟨-, opened⟩ := environmentStep_of_eq he (by simp)
    refine h.application ok rfl rfl rfl ?_ (fun hc => ?_) ?_ fun _ => rfl
    · simpa [written] using (h.flow side).write (h.ok side) (h.fit side) opened buf
    · rw [opened] at hc
      cases hc
    · simp [written, side.peer_ne.symm]
  | myclose side =>
    obtain ⟨e, he, rfl⟩ := stepAt_eq_some st
    have ok := (h.ok side).step he
    cases environmentStep_of_eq he (by simp)
    have same : written side (tr ++ [(.myclose side, .quiet)]) = written side tr := by simp [written]
    refine h.application ok rfl rfl rfl ?_ (fun _ => ⟨tr, ⟨_, [], rfl⟩, same.symm⟩) rfl fun _ => rfl
    rw [same]
    exact (h.flow side).congr rfl rfl rfl rfl rfl rfl
  | myread side bufLen =>
    obtain ⟨e, he, rfl⟩ := stepAt_eq_some st
    have ok := (h.ok side).step he
    cases environmentStep_of_eq he (by simp)
    refine h.application ok rfl rfl rfl ?_ (fun hc => h.closed_append side rfl hc) rfl fun _ => rfl
    have same : written side (tr ++ [(.myread side bufLen, .quiet)]) = written side tr := by
      simp [written]
    rw [same]
    exact (h.flow side).congr rfl rfl rfl rfl rfl rfl
  | deliver side =>
    simp only [Connection.step] at st
    split at st
    · cases st
    · rename_i pkt rest wire
      obtain ⟨⟨e, o'⟩, he, h'⟩ := Option.map_eq_some_iff.1 st
      simp only [Prod.mk.injEq] at h'
      obtain ⟨rfl, rfl⟩ := h'
      have ok := (h.ok side).step he
      cases environmentStep_of_eq he (by simp)
      have into := h.flow side.peer
      rw [Side.peer_peer, wire] at into
      have same : ∀ x, written x (tr ++ [(.deliver side, .quiet)]) = written x tr ∧
          puts x (tr ++ [(.deliver side, .quiet)]) = puts x tr := by
        simp [written, puts]
      refine h.step_at side ?_ ?_ ?_ ?_ ?_ ?_ rfl
      · exact Function.update_of_ne side.peer_ne _ _
      · simpa using ok
      · simpa using h.fit side
      · rw [(same _).1, (same _).2]
        dsimp only
        rw [Function.update_self, Function.update_of_ne side.peer_ne.symm]
        exact (h.flow side).congr rfl rfl rfl rfl rfl rfl
      · rw [(same _).1, (same _).2]
        dsimp only
        rw [Function.update_self, Function.update_self]
        exact into.deliver
      · intro hc
        dsimp only at hc
        rw [Function.update_self] at hc
        exact h.closed_append side rfl hc

theorem inv_init (rActive rPassive : ℕ) : Inv [] (init rActive rPassive) where
  ok side := by cases side <;> exact ok_init _ _
  fit side := by cases side <;> trivial
  flow side := by
    have start : ∀ snd rcv : Endpoint, snd.sock.appRecvQueue = [] → rcv.sock.networkRecvQueue = [] →
        toSend snd.pc = toRecv rcv.pc → unsent snd.pc = [] → pendingUp rcv.pc = [] →
        ¬ GotFin rcv → Flow [] snd [] rcv [] := by
      intro snd rcv app net due sent pending fresh
      refine ⟨by simp [app, net, sent, pending], ⟨[], [], ?_⟩, fun hg => absurd hg fresh, by simp⟩
      exact ⟨by simp [net], by simpa using due, by simp, by simp, by simp, by simp⟩
    cases side <;>
      exact start _ _ rfl rfl rfl rfl rfl (by
        simp [GotFin, init, Side.peer, Endpoint.init, generateInitialSeqNum])
  closed side hc := by cases side <;> cases hc

theorem inv_of_run {rActive rPassive : ℕ} {tr : ConnectionTrace} {c : Connection}
    (run : machine.Run (init rActive rPassive) tr c) : Inv tr c :=
  run.invariant (inv_init rActive rPassive) fun _ _ _ _ _ _ h _ st => h.step st

/-- In every run, what has been handed up on one side is a prefix of what was written on the other,
and an EOF marker stands behind everything written before the peer's `myclose`. -/
theorem handedUp_prefix_written {rActive rPassive : ℕ} {tr : ConnectionTrace} {c : Connection}
    (run : machine.Run (init rActive rPassive) tr c) (side : Side) :
    (puts side tr).flatten <+: written side.peer tr ∧
      ∀ pre post, puts side tr = pre ++ [] :: post →
        ∃ tr₁, ClosedAfter side.peer tr tr₁ ∧ pre.flatten = written side.peer tr₁ := by
  have inv := inv_of_run run
  have flow := inv.flow side.peer
  rw [Side.peer_peer] at flow
  refine ⟨⟨_, flow.stream.symm⟩, fun pre post hup => ?_⟩
  obtain ⟨got, full⟩ := flow.eof pre post hup
  obtain ⟨⟨closed, -⟩, -⟩ := (flow.gotFin got).1.idle (inv.ok _) (inv.fit _)
  obtain ⟨tr₁, h1, h2⟩ := inv.closed _ closed
  exact ⟨tr₁, h1, full.trans h2.symm⟩

/-- The active application writes two bytes and closes; the passive side hands them up with an EOF
marker behind them. -/
theorem handedUp_prefix_written_close : ∃ tr c, machine.Run (init 7 9) tr c ∧
    puts .passive tr = [[104, 105], []] ∧ written .active tr = [104, 105] ∧
    ∃ tr₁, ClosedAfter .active tr tr₁ ∧ [104, 105] = written .active tr₁ := by
  obtain ⟨tr, c, run, shown⟩ := Machine.Runs.exists_of_exec
    (M := machine) (C := fun _ _ _ => true) (i := init 7 9)
    (P := fun tr _ => puts .passive tr = [[104, 105], []] ∧ written .active tr = [104, 105])
    [.transport .active 0, .deliver .passive, .transport .passive 0, .transport .passive 0,
      .deliver .active, .transport .active 0, .transport .active 0, .deliver .passive,
      .transport .passive 0, .transport .active 0, .transport .passive 0,
      .mywrite .active [104, 105], .myclose .active, .transport .active 0,
      .transport .active 3072, .transport .active 0, .transport .active 0, .transport .active 0,
      .deliver .passive, .transport .passive 0, .transport .passive 0, .transport .passive 0,
      .transport .passive 0, .deliver .passive, .transport .passive 0, .transport .passive 0,
      .transport .passive 0] (by decide +kernel)
  have run : machine.Run (init 7 9) tr c := run.mono fun _ _ _ _ => trivial
  refine ⟨tr, c, run, shown.1, shown.2, ?_⟩
  exact (handedUp_prefix_written run .passive).2 [[104, 105]] [] shown.1

end Connection

end ComputerNetwork.Tcp
