import ComputerNetwork.Lib.Run
import ComputerNetwork.Tcp.Mysock

/-!
# The STCP transport layer

`transport_init` and `control_loop` of `transport.c` as a machine whose steps are the calls the
STCP thread makes to the mysocket layer (`stcp_network_send`, `stcp_network_recv`,
`stcp_wait_for_event`, `stcp_app_recv`, `stcp_app_send`, `stcp_fin_received`,
`stcp_unblock_application`).  The program counter `Pc` stands before the next such call and carries
the locals that are live there; what the code computes between two calls touches nothing shared, so
it is part of the step.  Applications and the network thread take steps of their own in between
(`Action`).

The ports, checksum and urgent pointer of a header are filled in by `stcp_network_send` and never
read by STCP; they are zero here.
-/

namespace ComputerNetwork.Tcp

open Lib

/-! ## Packets -/

/-- `STCP_MSS`. -/
def stcpMss : ℕ := 536

/-- `RECEIVER_WINDOW`. -/
def receiverWindow : UInt16 := 3072

/-- `SENDER_WINDOW`, the size of the buffer handed to `stcp_app_recv`. -/
def senderWindow : ℕ := 3072

/-- `sizeof(STCPHeader)`. -/
def sizeofSTCPHeader : ℕ := 20

def thFIN : UInt8 := 0x01
def thSYN : UInt8 := 0x02
def thACK : UInt8 := 0x10

/-- The fields of `STCPHeader` that STCP sets, in host order; `bzero` gives the defaults. -/
structure STCPHeader where
  thSeq : UInt32 := 0
  thAck : UInt32 := 0
  thOff : UInt8 := 0
  thFlags : UInt8 := 0
  thWin : UInt16 := 0

/-- The header as it stands in memory and on the wire. -/
def STCPHeader.bytes (h : STCPHeader) : List UInt8 :=
  ([0, 0, 0, 0] : List UInt8) ++ (bytesBE32 h.thSeq ++ (bytesBE32 h.thAck ++
    ([h.thOff <<< 4, h.thFlags] ++ (bytesBE16 h.thWin ++ [0, 0, 0, 0]))))

/-- `ntohl(tcp_hdr->th_seq)`. -/
def thSeq (b : List UInt8) : UInt32 := loadBE32 b 4

/-- `ntohl(tcp_hdr->th_ack)`. -/
def thAck (b : List UInt8) : UInt32 := loadBE32 b 8

/-- `tcp_hdr->th_ack` without `ntohl`. -/
def rawThAck (b : List UInt8) : UInt32 := loadLE32 b 8

/-- `tcp_hdr->th_flags`. -/
def thFlags (b : List UInt8) : UInt8 := load8 b 13

/-- `ntohs(tcp_hdr->th_win)`. -/
def thWin (b : List UInt8) : UInt16 := loadBE16 b 14

/-- `tcp_hdr->th_flags & flag`. -/
def hasFlag (b : List UInt8) (flag : UInt8) : Bool := thFlags b &&& flag != 0

/-- A zeroed buffer of `size` bytes with `data` copied to its start. -/
def zeroFill (size : ℕ) (data : List UInt8) : List UInt8 :=
  data ++ List.replicate (size - data.length) 0

/-- `seq + n` for a `tcp_seq` and an `int`. -/
def addInt (seq : UInt32) (n : ℤ) : UInt32 := seq + UInt32.ofInt n

theorem addInt_natCast (seq : UInt32) (n : ℕ) : addInt seq n = seq + UInt32.ofNat n := by
  rw [addInt]
  congr 1
  apply UInt32.toNat_inj.1
  simp only [UInt32.ofInt, UInt32.toNat_ofNat']
  omega

@[simp] theorem STCPHeader.length_bytes (h : STCPHeader) : h.bytes.length = 20 := rfl

@[simp] theorem thFlags_bytes (h : STCPHeader) (b : List UInt8) :
    thFlags (h.bytes ++ b) = h.thFlags := rfl

theorem hasFlag_bytes (h : STCPHeader) (b : List UInt8) (flag : UInt8) :
    hasFlag (h.bytes ++ b) flag = (h.thFlags &&& flag != 0) := by
  rw [hasFlag, thFlags_bytes]

@[simp] theorem thSeq_bytes (h : STCPHeader) (b : List UInt8) : thSeq (h.bytes ++ b) = h.thSeq :=
  loadBE32_bytesBE32 h.thSeq []

@[simp] theorem thAck_bytes (h : STCPHeader) (b : List UInt8) : thAck (h.bytes ++ b) = h.thAck :=
  loadBE32_bytesBE32 h.thAck []

@[simp] theorem thWin_bytes (h : STCPHeader) (b : List UInt8) : thWin (h.bytes ++ b) = h.thWin :=
  loadBE16_bytesBE16 h.thWin []

theorem load8_zeroFill_take (pkt : List UInt8) {size i : ℕ} (h : i < size) :
    load8 (zeroFill size (pkt.take size)) i = load8 pkt i := by
  simp only [load8, zeroFill, List.getD_eq_getElem?_getD]
  by_cases hi : i < pkt.length
  · rw [List.getElem?_append_left (by rw [List.length_take]; omega), List.getElem?_take_of_lt h]
  · have short : (pkt.take size).length ≤ i := by rw [List.length_take]; omega
    rw [List.getElem?_append_right short, List.getElem?_eq_none (by omega : pkt.length ≤ i),
      List.getElem?_replicate]
    split <;> rfl

section ReceiveBuffer

variable (pkt : List UInt8) {size : ℕ} (room : 20 ≤ size)

include room

theorem thFlags_zeroFill_take : thFlags (zeroFill size (pkt.take size)) = thFlags pkt :=
  load8_zeroFill_take pkt (by omega)

theorem hasFlag_take (flag : UInt8) : hasFlag (pkt.take size) flag = hasFlag pkt flag := by
  rw [hasFlag, hasFlag, thFlags, load8_take pkt (by omega), thFlags]

theorem thSeq_take : thSeq (pkt.take size) = thSeq pkt := by
  unfold thSeq loadBE32
  rw [load8_take pkt (by omega), load8_take pkt (by omega), load8_take pkt (by omega),
    load8_take pkt (by omega)]

theorem thAck_take : thAck (pkt.take size) = thAck pkt := by
  unfold thAck loadBE32
  rw [load8_take pkt (by omega), load8_take pkt (by omega), load8_take pkt (by omega),
    load8_take pkt (by omega)]

theorem thWin_take : thWin (pkt.take size) = thWin pkt := by
  unfold thWin loadBE16
  rw [load8_take pkt (by omega), load8_take pkt (by omega)]

theorem hasFlag_zeroFill_take (flag : UInt8) :
    hasFlag (zeroFill size (pkt.take size)) flag = hasFlag pkt flag := by
  rw [hasFlag, hasFlag, thFlags_zeroFill_take pkt room]

theorem thSeq_zeroFill_take : thSeq (zeroFill size (pkt.take size)) = thSeq pkt := by
  unfold thSeq loadBE32
  rw [load8_zeroFill_take pkt (by omega), load8_zeroFill_take pkt (by omega),
    load8_zeroFill_take pkt (by omega), load8_zeroFill_take pkt (by omega)]

theorem thAck_zeroFill_take : thAck (zeroFill size (pkt.take size)) = thAck pkt := by
  unfold thAck loadBE32
  rw [load8_zeroFill_take pkt (by omega), load8_zeroFill_take pkt (by omega),
    load8_zeroFill_take pkt (by omega), load8_zeroFill_take pkt (by omega)]

end ReceiveBuffer

/-! ## The connection's state -/

inductive ConnectionState where
  | established | closed | listen | synSent | synReceived
  | finWait1 | finWait2 | closeWait | lastAck | timeWait
  deriving DecidableEq, Repr

/-- `context_t`. -/
structure Context where
  done : Bool
  connectionState : ConnectionState
  initialSequenceNum : UInt32
  oppSequenceNum : UInt32
  ackNum : UInt32
  oppWindowSize : UInt16
  currentSequenceNum : UInt32
  finAckSequenceNum : UInt32
  deriving DecidableEq, Repr

/-- `calloc` and `generate_initial_seq_num`, for the value `r` of `rand()`. -/
def generateInitialSeqNum (r : ℕ) : Context :=
  { done := false, connectionState := .established
    initialSequenceNum := UInt32.ofNat (r % 256), currentSequenceNum := UInt32.ofNat (r % 256)
    oppSequenceNum := 0, ackNum := 0, oppWindowSize := 0, finAckSequenceNum := 0 }

/-- The calls of the `NETWORK_DATA` branch, with their arguments. -/
inductive Call where
  | finReceived
  /-- `src` is what lies in the buffer from the passed pointer on, `srcLen` the length passed. -/
  | appSend (src : List UInt8) (srcLen : ℤ)
  | networkSend (pkt : List UInt8)
  deriving DecidableEq, Repr

/-- Where the STCP thread stands: before which call, with the locals that are live there. -/
inductive Pc where
  | sendSyn | recvSynAck | sendAck
  | recvSyn | sendSynAck | recvAck
  | unblock
  | waitForEvent
  | appRecv (event : Event)
  /-- In the `while` loop: the bytes received into the buffer, the offset of `payload` in it and
  `payload_size`. -/
  | sendData (event : Event) (buffer : List UInt8) (payload payloadSize : ℤ)
  | networkRecv (event : Event)
  | calls (event : Event) (pending : List Call)
  | sendFin
  /-- `transport_thread_func` puts a last empty buffer on `app_send_queue`. -/
  | finalEof
  | exited
  /-- The thread has accessed memory outside a buffer, or failed an assertion. -/
  | crashed
  deriving DecidableEq, Repr

/-! ## The branches of `control_loop` -/

/-- `while (!ctx->done)`. -/
def loopHead (ctx : Context) : Pc := if ctx.done then .finalEof else .waitForEvent

/-- The test of the `APP_CLOSE_REQUESTED` branch. -/
def afterNetwork (event : Event) (ctx : Context) : Pc :=
  if event.appCloseRequested then .sendFin else loopHead ctx

/-- The test of the `NETWORK_DATA` branch. -/
def afterApp (event : Event) (ctx : Context) : Pc :=
  if event.networkData ∧ ctx.connectionState = .established then .networkRecv event
  else afterNetwork event ctx

/-- The test of the `APP_DATA` branch. -/
def afterWait (event : Event) (ctx : Context) : Pc :=
  if event.appData ∧ ctx.connectionState = .established then .appRecv event
  else afterApp event ctx

/-- `while (payload_size > 0)`. -/
def sendLoop (event : Event) (buffer : List UInt8) (payload payloadSize : ℤ) (ctx : Context) : Pc :=
  if 0 < payloadSize then .sendData event buffer payload payloadSize else afterApp event ctx

/-- The calls still to make in the `NETWORK_DATA` branch, then the next branch. -/
def callsPc (event : Event) (pending : List Call) (ctx : Context) : Pc :=
  if pending = [] then afterNetwork event ctx else .calls event pending

/-- The acknowledgement built in the `NETWORK_DATA` branch. -/
def ackHeader (ack : UInt32) : STCPHeader :=
  { thAck := ack, thOff := 5, thFlags := thACK, thWin := receiverWindow }

/-- The header of a data segment. -/
def dataHeader (ctx : Context) : STCPHeader :=
  { thSeq := ctx.currentSequenceNum, thOff := 5, thWin := receiverWindow }

/-- The header of the FIN. -/
def finHeader (ctx : Context) : STCPHeader :=
  { thSeq := ctx.currentSequenceNum, thOff := 5, thFlags := thFIN, thWin := receiverWindow }

/-- The header of the SYN. -/
def synHeader (ctx : Context) : STCPHeader :=
  { thSeq := ctx.initialSequenceNum, thOff := 5, thFlags := thSYN, thWin := receiverWindow }

/-- The header of the SYN-ACK. -/
def synAckHeader (ctx : Context) : STCPHeader :=
  { thSeq := ctx.currentSequenceNum, thAck := ctx.oppSequenceNum + 1, thOff := 5
    thFlags := thSYN ||| thACK, thWin := receiverWindow }

/-- The header of the ACK that ends the handshake. -/
def handshakeAckHeader (ctx : Context) : STCPHeader :=
  { thSeq := ctx.currentSequenceNum, thAck := ctx.oppSequenceNum + 1, thOff := 5
    thFlags := thACK, thWin := receiverWindow }

/-- The `NETWORK_DATA` branch after `stcp_network_recv` has filled `payload1` and returned
`pktSize`: the context it leaves and the calls it makes, in order. -/
def networkData (ctx : Context) (payload1 : List UInt8) (pktSize : ℕ) : Context × List Call :=
  if hasFlag payload1 thACK then
    let ctx := { ctx with ackNum := thAck payload1, oppWindowSize := thWin payload1 }
    if thAck payload1 = ctx.finAckSequenceNum ∧ ctx.connectionState = .finWait1 then
      ({ ctx with connectionState := .finWait2 }, [])
    else (ctx, [])
  else if hasFlag payload1 thFIN then
    let ctx := { ctx with oppSequenceNum := thSeq payload1, oppWindowSize := thWin payload1 }
    let deliver : List Call :=
      if sizeofSTCPHeader < pktSize then
        [.appSend (payload1.drop sizeofSTCPHeader) (pktSize - sizeofSTCPHeader : ℤ)]
      else []
    let reply := Call.networkSend (ackHeader (ctx.oppSequenceNum + 1)).bytes
    (match ctx.connectionState with
      | .established => { ctx with connectionState := .closeWait }
      | .finWait2 => { ctx with connectionState := .closed, done := true }
      | _ => ctx,
      .finReceived :: (deliver ++ [reply]))
  else
    let ctx := { ctx with oppSequenceNum := thSeq payload1, oppWindowSize := thWin payload1 }
    let payloadSize : ℤ := pktSize - sizeofSTCPHeader
    (ctx, [.appSend (payload1.drop sizeofSTCPHeader) payloadSize,
      .networkSend (ackHeader (addInt ctx.oppSequenceNum payloadSize)).bytes])

/-- The three ways through the `NETWORK_DATA` branch from the state in which it is entered. -/
theorem networkData_cases {ctx ctx' : Context} {payload1 : List UInt8} {pktSize : ℕ}
    {pending : List Call} (h : networkData ctx payload1 pktSize = (ctx', pending))
    (est : ctx.connectionState = .established) :
    (hasFlag payload1 thACK = true ∧
      ctx' = { ctx with ackNum := thAck payload1, oppWindowSize := thWin payload1 } ∧
      pending = []) ∨
    (hasFlag payload1 thACK = false ∧ hasFlag payload1 thFIN = true ∧
      ctx' = { ctx with oppSequenceNum := thSeq payload1, oppWindowSize := thWin payload1
                        connectionState := .closeWait } ∧
      pending = .finReceived :: ((if sizeofSTCPHeader < pktSize then
        [.appSend (payload1.drop sizeofSTCPHeader) (pktSize - sizeofSTCPHeader : ℤ)] else []) ++
        [.networkSend (ackHeader (thSeq payload1 + 1)).bytes])) ∨
    (hasFlag payload1 thACK = false ∧ hasFlag payload1 thFIN = false ∧
      ctx' = { ctx with oppSequenceNum := thSeq payload1, oppWindowSize := thWin payload1 } ∧
      pending = [.appSend (payload1.drop sizeofSTCPHeader) (pktSize - sizeofSTCPHeader : ℤ),
        .networkSend (ackHeader (addInt (thSeq payload1) (pktSize - sizeofSTCPHeader))).bytes]) := by
  unfold networkData at h
  by_cases hack : hasFlag payload1 thACK = true
  · simp only [hack, if_true, est, reduceCtorEq, and_false, if_false, Prod.mk.injEq] at h
    exact Or.inl ⟨hack, h.1.symm.trans (by rw [est]), h.2.symm⟩
  · rw [if_neg hack] at h
    rw [Bool.not_eq_true] at hack
    by_cases hfin : hasFlag payload1 thFIN = true
    · simp only [hfin, if_true, est, Prod.mk.injEq] at h
      exact Or.inr (Or.inl ⟨hack, hfin, h.1.symm, h.2.symm⟩)
    · rw [if_neg hfin] at h
      rw [Bool.not_eq_true] at hfin
      simp only [Prod.mk.injEq] at h
      exact Or.inr (Or.inr ⟨hack, hfin, h.1.symm, h.2.symm⟩)

/-- The context after the `APP_CLOSE_REQUESTED` branch. -/
def afterFin (ctx : Context) : Context :=
  let ctx := { ctx with currentSequenceNum := ctx.currentSequenceNum + 1 }
  let ctx := if ctx.connectionState = .established then { ctx with connectionState := .finWait1 }
    else { ctx with connectionState := .closed, done := true }
  { ctx with finAckSequenceNum := ctx.currentSequenceNum }

theorem afterFin_cases (ctx : Context) :
    ((afterFin ctx).connectionState = .finWait1 ∧ (afterFin ctx).done = ctx.done) ∨
      ((afterFin ctx).connectionState = .closed ∧ (afterFin ctx).done = true) := by
  unfold afterFin
  dsimp only
  split_ifs
  · exact Or.inl ⟨rfl, rfl⟩
  · exact Or.inr ⟨rfl, rfl⟩

@[simp] theorem initialSequenceNum_afterFin (ctx : Context) :
    (afterFin ctx).initialSequenceNum = ctx.initialSequenceNum := by
  unfold afterFin
  dsimp only
  split_ifs <;> rfl

/-! ## The machine of one endpoint -/

/-- One endpoint: the STCP thread, the shared context and what the application has done. -/
structure Endpoint where
  ctx : Context
  sock : MysockContext
  /-- The STCP thread's `errno`. -/
  errno : ℕ
  pc : Pc
  /-- The application has called `myclose`. -/
  appClosed : Bool
  deriving DecidableEq, Repr

/-- Choices of the environment: a step of the STCP thread (`maxLen` is the value of the never
assigned `current_sender_window` as a `size_t`, `fail` the `errno` of a failing
`stcp_network_send`), a call of the application, or a packet put on `network_recv_queue`. -/
inductive Action where
  | transport (maxLen : ℕ) (fail : Option ℕ)
  | mywrite (buf : List UInt8)
  | myclose
  | myread (bufLen : ℕ)
  | deliver (pkt : List UInt8)
  deriving DecidableEq, Repr

/-- What a step does that is visible outside the STCP thread. -/
inductive Obs where
  | quiet
  /-- `stcp_network_send` of these bytes; the flag tells whether it succeeded. -/
  | send (pkt : List UInt8) (ok : Bool)
  /-- `stcp_network_recv` copied these bytes of a packet of this length. -/
  | recv (data : List UInt8) (len : ℕ)
  /-- `stcp_wait_for_event` returned. -/
  | event (ev : Event)
  /-- `stcp_app_recv` was asked for `maxLen` bytes and returned `data`. -/
  | appRecv (maxLen : ℕ) (data : List UInt8)
  /-- A buffer was put on `app_send_queue`; the empty one is the EOF marker. -/
  | put (buf : List UInt8)
  deriving DecidableEq, Repr

/-- The packet a step puts on the wire. -/
def sentPackets : Obs → List (List UInt8)
  | .send pkt true => [pkt]
  | _ => []

/-- The buffer a step puts on `app_send_queue`. -/
def putBuffers : Obs → List (List UInt8)
  | .put buf => [buf]
  | _ => []

/-- The packet a step passes to `stcp_network_send`. -/
def attempts : Obs → List (List UInt8)
  | .send pkt _ => [pkt]
  | _ => []

/-- The packet a step takes off `network_recv_queue`. -/
def receipts : Obs → List (List UInt8)
  | .recv data _ => [data]
  | _ => []

/-- The packets passed to `stcp_network_send` in a trace. -/
def sends (tr : List (Action × Obs)) : List (List UInt8) := tr.flatMap fun entry => attempts entry.2

/-- The packets taken off `network_recv_queue` in a trace. -/
def received (tr : List (Action × Obs)) : List (List UInt8) := tr.flatMap fun entry => receipts entry.2

theorem sends_snoc (tr : List (Action × Obs)) (a : Action) (o : Obs) :
    sends (tr ++ [(a, o)]) = sends tr ++ attempts o := by
  simp [sends]

theorem received_snoc (tr : List (Action × Obs)) (a : Action) (o : Obs) :
    received (tr ++ [(a, o)]) = received tr ++ receipts o := by
  simp [received]

namespace Endpoint

/-- The state in which `transport_thread_func` enters `transport_init`. -/
def init (isActive : Bool) (r : ℕ) : Endpoint :=
  { ctx := generateInitialSeqNum r, sock := mysockAllocateContext isActive, errno := 0
    pc := if isActive then .sendSyn else .recvSyn, appClosed := false }

/-- After `stcp_network_send`, which clears `errno` while it computes the checksum. -/
def afterSend (e : Endpoint) (fail : Option ℕ) (ctx : Context) (pc : Pc) : Endpoint :=
  { e with ctx, pc, errno := fail.getD 0 }

/-- `errno` after `stcp_network_recv`, whose assertion looks up the local address. -/
def recvErrno (e : Endpoint) (len : ℕ) : ℕ := if 0 < len then 0 else e.errno

/-- One call of the `NETWORK_DATA` branch. -/
def call (e : Endpoint) (fail : Option ℕ) (event : Event) (rest : List Call) :
    Call → Endpoint × Obs
  | .finReceived =>
      ({ e with sock := enqueueAppSend e.sock [], pc := callsPc event rest e.ctx }, .put [])
  | .appSend src srcLen =>
      if srcLen = 0 then ({ e with pc := callsPc event rest e.ctx }, .quiet)
      else if 0 < srcLen ∧ srcLen ≤ src.length then
        ({ e with sock := enqueueAppSend e.sock (src.take srcLen.toNat),
                  pc := callsPc event rest e.ctx }, .put (src.take srcLen.toNat))
      -- a negative length is a huge `size_t`: the allocation or the copy fails
      else ({ e with pc := .crashed }, .quiet)
  | .networkSend pkt =>
      (e.afterSend fail e.ctx (callsPc event rest e.ctx), .send pkt fail.isNone)

/-- `pkt_size` after a segment was passed to `stcp_network_send`: a failed send of a last segment
leaves `-1 - sizeof(STCPHeader)`. -/
def segmentSize (payloadSize : ℤ) (fail : Option ℕ) : ℤ :=
  if (stcpMss : ℤ) < payloadSize then stcpMss
  else if fail.isNone then payloadSize else -1 - sizeofSTCPHeader

theorem segmentSize_none (payloadSize : ℤ) : segmentSize payloadSize none = min payloadSize stcpMss := by
  simp only [segmentSize, Option.isNone_none, if_true]
  split_ifs <;> omega

/-- One pass through the loop that sends application data. -/
def sendSegment (e : Endpoint) (fail : Option ℕ) (event : Event) (buffer : List UInt8)
    (payload payloadSize : ℤ) : Endpoint × Obs :=
  let len : ℤ := min payloadSize stcpMss
  if payload < 0 ∨ (senderWindow : ℤ) < payload + len then ({ e with pc := .crashed }, .quiet)
  else
    let piece := ((zeroFill senderWindow buffer).drop payload.toNat).take len.toNat
    let pktSize := segmentSize payloadSize fail
    let ctx := { e.ctx with currentSequenceNum := addInt e.ctx.currentSequenceNum pktSize }
    (e.afterSend fail ctx (sendLoop event buffer (payload + pktSize) (payloadSize - pktSize) ctx),
      .send ((dataHeader e.ctx).bytes ++ piece) fail.isNone)

theorem length_piece (buffer : List UInt8) (payload len : ℤ) (start : 0 ≤ payload)
    (stop : payload + len ≤ senderWindow) :
    (((zeroFill senderWindow buffer).drop payload.toNat).take len.toNat).length = len.toNat := by
  rw [List.length_take, List.length_drop, zeroFill, List.length_append, List.length_replicate]
  omega

/-- The context after the active side has read the answer to its SYN. -/
def synAckReceived (ctx : Context) (hdr : List UInt8) : Option Context :=
  if hasFlag hdr thACK ∧ hasFlag hdr thSYN ∧ thAck hdr = ctx.currentSequenceNum then
    some { ctx with oppSequenceNum := thSeq hdr, oppWindowSize := thWin hdr }
  else none

/-- The context after the passive side has read the first packet. -/
def synReceived (ctx : Context) (hdr : List UInt8) : Option Context :=
  if hasFlag hdr thSYN then
    some { ctx with oppSequenceNum := thSeq hdr, oppWindowSize := thWin hdr }
  else none

/-- The context after the passive side has read the answer to its SYN-ACK; the comparison lacks
`ntohl`. -/
def ackReceived (ctx : Context) (hdr : List UInt8) : Context :=
  if hasFlag hdr thACK ∧ rawThAck hdr = ctx.currentSequenceNum then
    { ctx with oppSequenceNum := thSeq hdr, oppWindowSize := thWin hdr }
  else ctx

/-- One step of the STCP thread. -/
def transport (e : Endpoint) (maxLen : ℕ) (fail : Option ℕ) : Option (Endpoint × Obs) :=
  match e.pc with
  | .sendSyn =>
      let ctx := { e.ctx with currentSequenceNum := e.ctx.currentSequenceNum + 1 }
      some (e.afterSend fail ctx .recvSynAck, .send (synHeader e.ctx).bytes fail.isNone)
  | .recvSynAck =>
      (stcpNetworkRecv e.sock sizeofSTCPHeader).map fun (data, len, sock) =>
        let answer := synAckReceived e.ctx (zeroFill sizeofSTCPHeader data)
        ({ e with sock, pc := .sendAck
                  ctx := { answer.getD e.ctx with connectionState := .synSent }
                  errno := if answer.isNone then eCONNREFUSED else e.recvErrno len },
          .recv data len)
  | .sendAck =>
      let ctx := { e.ctx with currentSequenceNum := e.ctx.currentSequenceNum + 1
                              connectionState := .established }
      some (e.afterSend fail ctx .unblock, .send (handshakeAckHeader e.ctx).bytes fail.isNone)
  | .recvSyn =>
      (stcpNetworkRecv e.sock sizeofSTCPHeader).map fun (data, len, sock) =>
        let answer := synReceived e.ctx (zeroFill sizeofSTCPHeader data)
        ({ e with sock, pc := .sendSynAck
                  ctx := { answer.getD e.ctx with connectionState := .synReceived }
                  errno := if answer.isNone then eCONNREFUSED else e.recvErrno len },
          .recv data len)
  | .sendSynAck =>
      let ctx := { e.ctx with currentSequenceNum := e.ctx.currentSequenceNum + 1 }
      some (e.afterSend fail ctx .recvAck, .send (synAckHeader e.ctx).bytes fail.isNone)
  | .recvAck =>
      (stcpNetworkRecv e.sock sizeofSTCPHeader).map fun (data, len, sock) =>
        ({ e with sock, pc := .unblock, errno := e.recvErrno len
                  ctx := { ackReceived e.ctx (zeroFill sizeofSTCPHeader data) with
                    connectionState := .established } },
          .recv data len)
  | .unblock =>
      some ({ e with sock := stcpUnblockApplication e.sock e.errno, pc := loopHead e.ctx }, .quiet)
  | .waitForEvent =>
      (stcpWaitForEvent e.sock).map fun (ev, sock) =>
        ({ e with sock, pc := afterWait ev e.ctx }, .event ev)
  | .appRecv event =>
      (stcpAppRecv e.sock maxLen).map fun (data, sock) =>
        -- the destination buffer holds SENDER_WINDOW bytes
        if senderWindow < data.length then ({ e with sock, pc := .crashed }, .appRecv maxLen data)
        else ({ e with sock, pc := sendLoop event data 0 data.length e.ctx }, .appRecv maxLen data)
  | .sendData event buffer payload payloadSize =>
      some (e.sendSegment fail event buffer payload payloadSize)
  | .networkRecv event =>
      (stcpNetworkRecv e.sock (stcpMss + 20)).map fun (data, len, sock) =>
        let (ctx, pending) := networkData e.ctx (zeroFill (stcpMss + 20) data) len
        ({ e with sock, ctx, errno := e.recvErrno len, pc := callsPc event pending ctx },
          .recv data len)
  | .calls event (c :: rest) => some (e.call fail event rest c)
  | .sendFin =>
      let ctx := afterFin e.ctx
      some (e.afterSend fail ctx (loopHead ctx), .send (finHeader e.ctx).bytes fail.isNone)
  | .finalEof => some ({ e with sock := enqueueAppSend e.sock [], pc := .exited }, .put [])
  | .calls _ [] | .exited | .crashed => none

/-- One step of the endpoint.  The application makes no call while it is blocked in `myconnect` or
`myaccept`, and none after `myclose`, which waits for the STCP thread. -/
def step (e : Endpoint) : Action → Option (Endpoint × Obs)
  | .transport maxLen fail => e.transport maxLen fail
  | .mywrite buf =>
      if e.sock.blocking || e.appClosed then none
      else some ({ e with sock := mywrite e.sock buf }, .quiet)
  | .myclose =>
      if e.sock.blocking || e.appClosed then none
      else some ({ e with sock := myclose e.sock, appClosed := true }, .quiet)
  | .myread bufLen =>
      if e.sock.blocking || e.appClosed then none
      else (myread e.sock bufLen).map fun (_, sock) => ({ e with sock }, .quiet)
  | .deliver pkt =>
      some ({ e with sock := { e.sock with
        networkRecvQueue := mysockEnqueueBuffer e.sock.networkRecvQueue pkt } }, .quiet)

/-- The machine of one endpoint in an arbitrary environment. -/
def machine : Machine Endpoint Action Obs where
  step := step

/-! ## What a step of the STCP thread can do -/

/-- Every step of the STCP thread, by the call it makes. -/
inductive TransportStep (e : Endpoint) (maxLen : ℕ) (fail : Option ℕ) : Endpoint → Obs → Prop
  | sendSyn (pc : e.pc = .sendSyn) : TransportStep e maxLen fail
      (e.afterSend fail { e.ctx with currentSequenceNum := e.ctx.currentSequenceNum + 1 } .recvSynAck)
      (.send (synHeader e.ctx).bytes fail.isNone)
  | recvSynAck {pkt rest ctx errno} (pc : e.pc = .recvSynAck)
      (queue : e.sock.networkRecvQueue = pkt :: rest)
      (answer : ctx = (synAckReceived e.ctx (zeroFill 20 (pkt.take 20))).getD e.ctx) :
      TransportStep e maxLen fail
      { e with sock := { e.sock with networkRecvQueue := rest }, pc := .sendAck, errno,
               ctx := { ctx with connectionState := .synSent } }
      (.recv (pkt.take 20) pkt.length)
  | sendAck (pc : e.pc = .sendAck) : TransportStep e maxLen fail
      (e.afterSend fail { e.ctx with currentSequenceNum := e.ctx.currentSequenceNum + 1
                                     connectionState := .established } .unblock)
      (.send (handshakeAckHeader e.ctx).bytes fail.isNone)
  | recvSyn {pkt rest ctx errno} (pc : e.pc = .recvSyn)
      (queue : e.sock.networkRecvQueue = pkt :: rest)
      (answer : ctx = (synReceived e.ctx (zeroFill 20 (pkt.take 20))).getD e.ctx) :
      TransportStep e maxLen fail
      { e with sock := { e.sock with networkRecvQueue := rest }, pc := .sendSynAck, errno,
               ctx := { ctx with connectionState := .synReceived } }
      (.recv (pkt.take 20) pkt.length)
  | sendSynAck (pc : e.pc = .sendSynAck) : TransportStep e maxLen fail
      (e.afterSend fail { e.ctx with currentSequenceNum := e.ctx.currentSequenceNum + 1 } .recvAck)
      (.send (synAckHeader e.ctx).bytes fail.isNone)
  | recvAck {pkt rest} (pc : e.pc = .recvAck) (queue : e.sock.networkRecvQueue = pkt :: rest) :
      TransportStep e maxLen fail
      { e with sock := { e.sock with networkRecvQueue := rest }, pc := .unblock,
               errno := e.recvErrno pkt.length,
               ctx := { ackReceived e.ctx (zeroFill 20 (pkt.take 20)) with
                 connectionState := .established } }
      (.recv (pkt.take 20) pkt.length)
  | unblock (pc : e.pc = .unblock) : TransportStep e maxLen fail
      { e with sock := stcpUnblockApplication e.sock e.errno, pc := loopHead e.ctx } .quiet
  | waitForEvent {ev} (pc : e.pc = .waitForEvent) (event : ev = pendingEvents e.sock)
      (nonzero : ev.nonzero = true) : TransportStep e maxLen fail
      { e with sock := { e.sock with
                 closeRequested := e.sock.closeRequested && !ev.appCloseRequested },
               pc := afterWait ev e.ctx } (.event ev)
  | appRecv {event data pq} (pc : e.pc = .appRecv event) (asked : data.length ≤ maxLen)
      (stream : e.sock.appRecvQueue.flatten = data ++ pq.flatten)
      (recv : stcpAppRecv e.sock maxLen = some (data, { e.sock with appRecvQueue := pq }))
      (fits : data.length ≤ senderWindow) : TransportStep e maxLen fail
      { e with sock := { e.sock with appRecvQueue := pq },
               pc := sendLoop event data 0 data.length e.ctx } (.appRecv maxLen data)
  | appRecvOverflow {event data pq} (pc : e.pc = .appRecv event) (asked : data.length ≤ maxLen)
      (overflow : senderWindow < data.length)
      (recv : stcpAppRecv e.sock maxLen = some (data, { e.sock with appRecvQueue := pq })) :
      TransportStep e maxLen fail
      { e with sock := { e.sock with appRecvQueue := pq }, pc := .crashed } (.appRecv maxLen data)
  | sendData {event buffer payload payloadSize} (pc : e.pc = .sendData event buffer payload payloadSize) :
      TransportStep e maxLen fail (e.sendSegment fail event buffer payload payloadSize).1
        (e.sendSegment fail event buffer payload payloadSize).2
  | networkRecv {event pkt rest ctx pending} (pc : e.pc = .networkRecv event)
      (queue : e.sock.networkRecvQueue = pkt :: rest)
      (branch : networkData e.ctx (zeroFill 556 (pkt.take 556)) pkt.length = (ctx, pending)) :
      TransportStep e maxLen fail
      { e with sock := { e.sock with networkRecvQueue := rest }, ctx,
               errno := e.recvErrno pkt.length, pc := callsPc event pending ctx }
      (.recv (pkt.take 556) pkt.length)
  | call {event c rest} (pc : e.pc = .calls event (c :: rest)) :
      TransportStep e maxLen fail (e.call fail event rest c).1 (e.call fail event rest c).2
  | sendFin (pc : e.pc = .sendFin) : TransportStep e maxLen fail
      (e.afterSend fail (afterFin e.ctx) (loopHead (afterFin e.ctx)))
      (.send (finHeader e.ctx).bytes fail.isNone)
  | finalEof (pc : e.pc = .finalEof) : TransportStep e maxLen fail
      { e with sock := enqueueAppSend e.sock [], pc := .exited } (.put [])

theorem transportStep_of_eq {e e' : Endpoint} {maxLen : ℕ} {fail : Option ℕ} {o : Obs}
    (h : e.transport maxLen fail = some (e', o)) : TransportStep e maxLen fail e' o := by
  unfold transport at h
  split at h
  case h_1 pc | h_3 pc | h_5 pc | h_7 pc | h_13 pc | h_14 pc =>
    simp only [Option.some.injEq, Prod.mk.injEq] at h
    obtain ⟨rfl, rfl⟩ := h
    constructor
    assumption
  case h_2 pc =>
    obtain ⟨pkt, rest, queue, same⟩ := stcpNetworkRecv_map_eq_some h
    cases same
    exact .recvSynAck pc queue rfl
  case h_4 pc =>
    obtain ⟨pkt, rest, queue, same⟩ := stcpNetworkRecv_map_eq_some h
    cases same
    exact .recvSyn pc queue rfl
  case h_6 pc =>
    obtain ⟨pkt, rest, queue, same⟩ := stcpNetworkRecv_map_eq_some h
    cases same
    exact .recvAck pc queue
  case h_8 pc =>
    obtain ⟨⟨ev, sock⟩, hr, he⟩ := Option.map_eq_some_iff.1 h
    obtain ⟨hev, nonzero, rfl⟩ := stcpWaitForEvent_eq_some hr
    simp only [Prod.mk.injEq] at he
    obtain ⟨rfl, rfl⟩ := he
    exact .waitForEvent pc hev nonzero
  case h_9 event pc =>
    obtain ⟨⟨data, sock⟩, hr, he⟩ := Option.map_eq_some_iff.1 h
    obtain ⟨pq, rfl, asked, stream⟩ := stcpAppRecv_eq_some hr
    dsimp only at he
    split_ifs at he with big <;> simp only [Prod.mk.injEq] at he <;> obtain ⟨rfl, rfl⟩ := he
    · exact .appRecvOverflow pc asked big hr
    · exact .appRecv pc asked stream hr (by omega)
  case h_10 event buffer payload payloadSize pc =>
    rw [Option.some.injEq] at h
    have h1 := congrArg Prod.fst h
    have h2 := congrArg Prod.snd h
    subst h1 h2
    exact .sendData pc
  case h_11 event pc =>
    obtain ⟨pkt, rest, queue, same⟩ := stcpNetworkRecv_map_eq_some h
    cases same
    exact .networkRecv pc queue rfl
  case h_12 event c rest pc =>
    rw [Option.some.injEq] at h
    have h1 := congrArg Prod.fst h
    have h2 := congrArg Prod.snd h
    subst h1 h2
    exact .call pc
  all_goals cases h

theorem TransportStep.appClosed {e e' : Endpoint} {maxLen : ℕ} {fail : Option ℕ} {o : Obs}
    (st : TransportStep e maxLen fail e' o) : e'.appClosed = e.appClosed := by
  cases st with
  | @sendData event buffer payload payloadSize pc =>
    unfold sendSegment
    dsimp only
    split_ifs <;> rfl
  | @call event c rest pc =>
    cases c with
    | appSend src srcLen =>
      rw [Endpoint.call]
      split_ifs <;> rfl
    | finReceived | networkSend pkt => rfl
  | _ => rfl

end Endpoint

end ComputerNetwork.Tcp
