import ComputerNetwork.Tcp.Invariant

/-!
# Sequence numbers

A packet should carry the endpoint's initial sequence number plus one for every SYN, FIN and data
byte it has sent before (`SeqDiscipline`).  The code advances `current_sequence_num` once too often,
after the active side's handshake ACK, and leaves `th_seq` zero in the acknowledgements of the
control loop.  `seqKept` excludes just the steps that this touches, and `seqDiscipline_of_run` says
that along every run of the remaining steps all packets are numbered as they should be.
-/

namespace ComputerNetwork.Tcp

open Lib Endpoint

/-! ## What the packets sent so far take up -/

def synUnits (pkt : List UInt8) : ℕ := if hasFlag pkt thSYN then 1 else 0

def finUnits (pkt : List UInt8) : ℕ := if hasFlag pkt thFIN then 1 else 0

def dataUnits (pkt : List UInt8) : ℕ := (pkt.drop 20).length

/-- The sum of `f` over the packets that the endpoint has sent. -/
def sumSent (f : List UInt8 → ℕ) (tr : List (Action × Obs)) : ℕ :=
  ((tr.flatMap fun entry => sentPackets entry.2).map f).sum

/-- Sequence numbers taken up by the packets sent so far. -/
def sentUnits (tr : List (Action × Obs)) : ℕ :=
  sumSent synUnits tr + sumSent finUnits tr + sumSent dataUnits tr

/-- Every packet is numbered with the initial sequence number plus what was sent before it. -/
def SeqDiscipline (isn : UInt32) (tr : List (Action × Obs)) : Prop :=
  ∀ pre a pkt ok post, tr = pre ++ (a, .send pkt ok) :: post →
    thSeq pkt = isn + UInt32.ofNat (sentUnits pre)

theorem sumSent_snoc (f : List UInt8 → ℕ) (tr : List (Action × Obs)) (a : Action) (o : Obs) :
    sumSent f (tr ++ [(a, o)]) = sumSent f tr + ((sentPackets o).map f).sum := by
  simp [sumSent]

theorem units_bytes (h : STCPHeader) (b : List UInt8) :
    synUnits (h.bytes ++ b) = (if h.thFlags &&& thSYN != 0 then 1 else 0) ∧
      finUnits (h.bytes ++ b) = (if h.thFlags &&& thFIN != 0 then 1 else 0) ∧
      dataUnits (h.bytes ++ b) = b.length := by
  refine ⟨by rw [synUnits, hasFlag_bytes], by rw [finUnits, hasFlag_bytes], ?_⟩
  rw [dataUnits, List.drop_left' (STCPHeader.length_bytes h)]

/-! ## The steps that keep the numbering -/

/-- Steps not touched by the two slips: SYN, SYN-ACK and data are really sent, the active side sends
neither data nor a FIN, and the control loop acknowledges only where zero is the right number. -/
def seqKept (e : Endpoint) : Action → Bool
  | .transport _ fail =>
    match e.pc with
    | .sendSyn | .sendSynAck => fail.isNone
    | .sendData _ _ _ _ => fail.isNone && !e.sock.isActive
    | .sendFin => !e.sock.isActive
    | .calls _ (.networkSend _ :: _) => !e.sock.isActive && e.ctx.currentSequenceNum == 0
    | _ => true
  | _ => true

/-- The thread has not yet left `transport_init`. -/
def inHandshake : Pc → Bool
  | .sendSyn | .recvSynAck | .sendAck | .recvSyn | .sendSynAck | .recvAck => true
  | _ => false

/-- The thread has not yet sent its SYN. -/
def beforeSyn : Pc → Bool
  | .sendSyn | .recvSyn | .sendSynAck => true
  | _ => false

/-- The program counters of the handshake belong to one side each. -/
def roleOk (isActive : Bool) : Pc → Bool
  | .sendSyn | .recvSynAck | .sendAck => isActive
  | .recvSyn | .sendSynAck | .recvAck => !isActive
  | _ => true

section Loop

variable (ev : Event) (ctx : Context)

@[simp] theorem past_loopHead : inHandshake (loopHead ctx) = false ∧ loopHead ctx ≠ .unblock := by
  unfold loopHead
  split_ifs <;> exact ⟨rfl, nofun⟩

@[simp] theorem past_afterNetwork :
    inHandshake (afterNetwork ev ctx) = false ∧ afterNetwork ev ctx ≠ .unblock := by
  unfold afterNetwork
  split_ifs
  · exact ⟨rfl, nofun⟩
  · exact past_loopHead ctx

@[simp] theorem past_afterApp :
    inHandshake (afterApp ev ctx) = false ∧ afterApp ev ctx ≠ .unblock := by
  unfold afterApp
  split_ifs
  · exact ⟨rfl, nofun⟩
  · exact past_afterNetwork ev ctx

@[simp] theorem past_afterWait :
    inHandshake (afterWait ev ctx) = false ∧ afterWait ev ctx ≠ .unblock := by
  unfold afterWait
  split_ifs
  · exact ⟨rfl, nofun⟩
  · exact past_afterApp ev ctx

@[simp] theorem past_sendLoop (buffer : List UInt8) (payload payloadSize : ℤ) :
    inHandshake (sendLoop ev buffer payload payloadSize ctx) = false ∧
      sendLoop ev buffer payload payloadSize ctx ≠ .unblock := by
  unfold sendLoop
  split_ifs
  · exact ⟨rfl, nofun⟩
  · exact past_afterApp ev ctx

@[simp] theorem past_callsPc (pending : List Call) :
    inHandshake (callsPc ev pending ctx) = false ∧ callsPc ev pending ctx ≠ .unblock := by
  unfold callsPc
  split_ifs
  · exact past_afterNetwork ev ctx
  · exact ⟨rfl, nofun⟩

end Loop

theorem beforeSyn_of_loop {pc : Pc} (loop : inHandshake pc = false) : beforeSyn pc = false := by
  cases pc <;> first | rfl | cases loop

theorem roleOk_of_loop {pc : Pc} (loop : inHandshake pc = false) (isActive : Bool) :
    roleOk isActive pc = true := by
  cases pc <;> first | rfl | cases loop

/-! ## The counter and the packets sent -/

/-- The endpoint has not sent its FIN. -/
def Sending (e : Endpoint) : Prop :=
  e.ctx.connectionState ≠ .finWait1 ∧ e.ctx.connectionState ≠ .closed

/-- The counter's lead over the packets sent: one on an active side that has left the handshake. -/
def lead (isActive : Bool) (pc : Pc) : UInt32 :=
  if isActive = true ∧ inHandshake pc = false then 1 else 0

structure SeqInv (isActive : Bool) (isn : UInt32) (tr : List (Action × Obs)) (e : Endpoint) :
    Prop where
  side : e.sock.isActive = isActive
  role : roleOk isActive e.pc = true
  initial : e.ctx.initialSequenceNum = isn
  current : Sending e → e.ctx.currentSequenceNum =
    isn + UInt32.ofNat (sentUnits tr) + lead isActive e.pc
  syn : sumSent synUnits tr = if beforeSyn e.pc then 0 else 1
  fresh : inHandshake e.pc = true ∨ isActive = true →
    sumSent finUnits tr = 0 ∧ sumSent dataUnits tr = 0
  fin : Sending e → sumSent finUnits tr = 0

section Step

variable {isActive : Bool} {isn : UInt32} {tr : List (Action × Obs)} {e e' : Endpoint} {maxLen : ℕ}
  {fail : Option ℕ} {o : Obs} {a : Action}

theorem SeqInv.send (h : SeqInv isActive isn tr e) (n : ℕ) (flags : UInt8) (sending : Sending e)
    {hdr : STCPHeader} {data : List UInt8} (flagged : hdr.thFlags = flags)
    (syn : (if flags &&& thSYN != 0 then 1 else 0) = n)
    (fin : (if flags &&& thFIN != 0 then 1 else 0) = 0)
    (side : e'.sock.isActive = e.sock.isActive)
    (initial : e'.ctx.initialSequenceNum = e.ctx.initialSequenceNum)
    (role : roleOk isActive e'.pc = true)
    (current : e'.ctx.currentSequenceNum = e.ctx.currentSequenceNum + UInt32.ofNat (n + data.length))
    (leads : lead isActive e'.pc = lead isActive e.pc)
    (synCount : (if beforeSyn e.pc then 0 else 1) + n = if beforeSyn e'.pc then 0 else 1)
    (fresh : inHandshake e'.pc = true ∨ isActive = true → inHandshake e.pc = true ∧ data = []) :
    SeqInv isActive isn (tr ++ [(a, .send (hdr.bytes ++ data) true)]) e' := by
  obtain ⟨us, uf, ud⟩ := units_bytes hdr data
  rw [flagged] at us uf
  have sum : ∀ g : List UInt8 → ℕ, sumSent g (tr ++ [(a, .send (hdr.bytes ++ data) true)]) =
      sumSent g tr + g (hdr.bytes ++ data) := by
    intro g
    rw [sumSent_snoc, sentPackets, List.map_singleton, List.sum_singleton]
  have units : sentUnits (tr ++ [(a, .send (hdr.bytes ++ data) true)]) =
      sentUnits tr + (n + data.length) := by
    rw [sentUnits, sum, sum, sum, us, uf, ud, syn, fin, sentUnits]
    omega
  refine ⟨by rw [side, h.side], role, by rw [initial, h.initial], fun _ => ?_, ?_, ?_, fun _ => ?_⟩
  · rw [current, h.current sending, leads, units, UInt32.ofNat_add (sentUnits tr)]
    ac_rfl
  · rw [sum, us, syn, h.syn, synCount]
  · intro early
    obtain ⟨before, rfl⟩ := fresh early
    obtain ⟨h1, h2⟩ := h.fresh (Or.inl before)
    rw [sum, sum, uf, fin, ud, h1, h2]
    exact ⟨rfl, rfl⟩
  · rw [sum, uf, fin, h.fin sending]

theorem SeqInv.quiet (h : SeqInv isActive isn tr e) (slip : UInt32)
    (quiet : ∀ pkt ∈ sentPackets o, synUnits pkt = 0 ∧ finUnits pkt = 0 ∧ dataUnits pkt = 0)
    (side : e'.sock.isActive = e.sock.isActive)
    (initial : e'.ctx.initialSequenceNum = e.ctx.initialSequenceNum)
    (current : e'.ctx.currentSequenceNum = e.ctx.currentSequenceNum + slip)
    (leads : lead isActive e'.pc = lead isActive e.pc + slip)
    (early : inHandshake e'.pc = true → inHandshake e.pc = true)
    (syn : beforeSyn e'.pc = beforeSyn e.pc) (role : roleOk isActive e'.pc = true)
    (state : Sending e' → Sending e) :
    SeqInv isActive isn (tr ++ [(a, o)]) e' := by
  have zero : ∀ f : List UInt8 → ℕ, (∀ pkt ∈ sentPackets o, f pkt = 0) →
      sumSent f (tr ++ [(a, o)]) = sumSent f tr := by
    intro f hf
    rw [sumSent_snoc, List.sum_eq_zero (by simpa using hf), Nat.add_zero]
  have hs := zero synUnits fun pkt hp => (quiet pkt hp).1
  have hf := zero finUnits fun pkt hp => (quiet pkt hp).2.1
  have hd := zero dataUnits fun pkt hp => (quiet pkt hp).2.2
  have hu : sentUnits (tr ++ [(a, o)]) = sentUnits tr := by rw [sentUnits, hs, hf, hd, sentUnits]
  refine ⟨by rw [side, h.side], role, by rw [initial, h.initial], fun now => ?_, ?_, ?_, ?_⟩
  · rw [current, h.current (state now), hu, leads]
    ac_rfl
  · rw [hs, h.syn, syn]
  · rw [hf, hd]
    exact fun now => h.fresh (now.imp_left early)
  · rw [hf]
    exact fun now => h.fin (state now)

/-- A pure acknowledgement takes up no sequence numbers. -/
theorem quiet_ack {hdr : STCPHeader} (flags : hdr.thFlags = thACK) (ok : Bool) :
    ∀ pkt ∈ sentPackets (.send hdr.bytes ok),
      synUnits pkt = 0 ∧ finUnits pkt = 0 ∧ dataUnits pkt = 0 := by
  obtain ⟨us, uf, ud⟩ := units_bytes hdr []
  rw [List.append_nil, flags] at us uf
  rw [List.append_nil] at ud
  cases ok
  · simp [sentPackets]
  · simp only [sentPackets, List.mem_singleton, forall_eq, us, uf, ud]
    decide

theorem SeqInv.loop (h : SeqInv isActive isn tr e) (before : inHandshake e.pc = false)
    (after : inHandshake e'.pc = false)
    (quiet : ∀ pkt ∈ sentPackets o, synUnits pkt = 0 ∧ finUnits pkt = 0 ∧ dataUnits pkt = 0)
    (side : e'.sock.isActive = e.sock.isActive)
    (initial : e'.ctx.initialSequenceNum = e.ctx.initialSequenceNum)
    (current : e'.ctx.currentSequenceNum = e.ctx.currentSequenceNum)
    (state : Sending e' → Sending e) : SeqInv isActive isn (tr ++ [(a, o)]) e' :=
  h.quiet 0 quiet side initial (by rw [current, UInt32.add_zero])
    (by rw [lead, lead, before, after, UInt32.add_zero]) (by simp [after])
    (by rw [beforeSyn_of_loop before, beforeSyn_of_loop after]) (roleOk_of_loop after _) state

/-- The handshake's received packets leave the numbering alone. -/
theorem answer_numbers {ctx ctx' : Context} {hdr : List UInt8}
    (answer : ctx' = (synAckReceived ctx hdr).getD ctx ∨ ctx' = (synReceived ctx hdr).getD ctx ∨
      ctx' = ackReceived ctx hdr) :
    ctx'.initialSequenceNum = ctx.initialSequenceNum ∧
      ctx'.currentSequenceNum = ctx.currentSequenceNum := by
  unfold synAckReceived synReceived ackReceived at answer
  rcases answer with rfl | rfl | rfl <;> split_ifs <;> exact ⟨rfl, rfl⟩

/-- The passive side's FIN, behind which its counter is not looked at. -/
theorem SeqInv.sendFin (h : SeqInv false isn tr e) (pc : e.pc = .sendFin) :
    SeqInv false isn (tr ++ [(a, .send (finHeader e.ctx).bytes fail.isNone)])
      (e.afterSend fail (afterFin e.ctx) (loopHead (afterFin e.ctx))) := by
  have finished : ¬ Sending (e.afterSend fail (afterFin e.ctx) (loopHead (afterFin e.ctx))) := by
    rintro ⟨waits, ends⟩
    exact (afterFin_cases e.ctx).elim (fun state => waits state.1) fun state => ends state.1
  have loop : inHandshake (loopHead (afterFin e.ctx)) = false := (past_loopHead _).1
  have silent : ((sentPackets (.send (finHeader e.ctx).bytes fail.isNone)).map synUnits).sum = 0 := by
    obtain ⟨us, -, -⟩ := units_bytes (finHeader e.ctx) []
    rw [List.append_nil, show (finHeader e.ctx).thFlags = thFIN from rfl] at us
    cases fail with
    | none => simpa [sentPackets] using us.trans (by decide)
    | some errno => rfl
  refine ⟨h.side, roleOk_of_loop loop _, ?_, fun now => absurd now finished, ?_, ?_,
    fun now => absurd now finished⟩
  · exact (initialSequenceNum_afterFin e.ctx).trans h.initial
  · rw [sumSent_snoc, silent, h.syn, pc]
    exact (if_neg (by rw [afterSend, beforeSyn_of_loop loop]; simp)).symm
  · simp [afterSend]

/-- The passive side's segment takes up the sequence numbers of its data. -/
theorem SeqInv.segment (h : SeqInv false isn tr e) {event : Event} {buffer : List UInt8}
    {payload payloadSize : ℤ} (pc : e.pc = .sendData event buffer payload payloadSize)
    (sending : Sending e) (positive : 0 < payloadSize) :
    SeqInv false isn (tr ++ [(a, (e.sendSegment none event buffer payload payloadSize).2)])
      (e.sendSegment none event buffer payload payloadSize).1 := by
  unfold sendSegment
  dsimp only
  split_ifs with outside
  · exact h.loop (by rw [pc]; rfl) rfl (by simp [sentPackets]) rfl rfl rfl id
  · have piece := length_piece buffer payload (min payloadSize stcpMss)
      (by omega) (by omega)
    refine h.send 0 0 sending rfl (by decide) (by decide)
      rfl rfl (roleOk_of_loop (by simp [afterSend]) _) ?_ (by simp [lead]) ?_ (by simp [afterSend])
    · have size : min payloadSize (stcpMss : ℤ) = ((min payloadSize stcpMss).toNat : ℕ) := by
        rw [stcpMss]
        omega
      rw [piece, segmentSize_none, afterSend]
      dsimp only
      rw [size, addInt_natCast, Int.toNat_natCast, Nat.zero_add]
    · rw [pc, afterSend, beforeSyn_of_loop (show inHandshake (sendLoop ..) = false by simp)]
      rfl

/-- The calls of the `NETWORK_DATA` branch send acknowledgements only. -/
theorem SeqInv.calls (h : SeqInv isActive isn tr e) {event : Event} {c : Call} {rest : List Call}
    (pc : e.pc = .calls event (c :: rest)) (replies : e.RepliesAck) :
    SeqInv isActive isn (tr ++ [(a, (e.call fail event rest c).2)]) (e.call fail event rest c).1 := by
  have start : inHandshake e.pc = false := by rw [pc]; rfl
  cases c with
  | finReceived =>
    exact h.loop start (by simp [Endpoint.call]) (by simp [sentPackets, Endpoint.call]) rfl rfl rfl id
  | appSend src srcLen =>
    rw [Endpoint.call]
    split_ifs
    · exact h.loop start (by simp) (by simp [sentPackets]) rfl rfl rfl id
    · exact h.loop start (by simp) (by simp [sentPackets]) rfl rfl rfl id
    · exact h.loop start rfl (by simp [sentPackets]) rfl rfl rfl id
  | networkSend pkt =>
    obtain ⟨ack, rfl⟩ := replies pkt (by rw [pc]; exact List.mem_cons_self ..)
    exact h.loop start (by simp [Endpoint.call, afterSend]) (quiet_ack rfl _) rfl rfl rfl id

theorem SeqInv.transport (h : SeqInv isActive isn tr e) (ok : e.Ok) (replies : e.RepliesAck)
    (cond : seqKept e (.transport maxLen fail) = true) (st : TransportStep e maxLen fail e' o) :
    SeqInv isActive isn (tr ++ [(.transport maxLen fail, o)]) e' := by
  have pcOk := ok.pcOk
  have side := h.side
  have role := h.role
  have sending : e.ctx.connectionState = .established ∨ e.ctx.connectionState = .synSent ∨
      e.ctx.connectionState = .synReceived → Sending e := by
    rintro (hs | hs | hs) <;> simp [Sending, hs]
  unfold seqKept at cond
  cases st with
  | sendSyn pc =>
    rw [pc] at cond role pcOk
    obtain rfl : fail = none := by simpa using cond
    rw [← List.append_nil (synHeader e.ctx).bytes]
    exact h.send 1 thSYN (sending pcOk.2) rfl (by decide) (by decide) rfl rfl
      role rfl (by simp [afterSend, lead, pc, inHandshake]) (by rw [pc]; rfl)
      fun _ => ⟨by rw [pc]; rfl, rfl⟩
  | sendSynAck pc =>
    rw [pc] at cond role pcOk
    obtain rfl : fail = none := by simpa using cond
    rw [← List.append_nil (synAckHeader e.ctx).bytes]
    exact h.send 1 (thSYN ||| thACK) (sending pcOk.2) rfl (by decide) (by decide)
      rfl rfl role rfl (by simp [afterSend, lead, pc, inHandshake]) (by rw [pc]; rfl)
      fun _ => ⟨by rw [pc]; rfl, rfl⟩
  | sendAck pc =>
    rw [pc] at role pcOk
    obtain rfl : isActive = true := role
    exact h.quiet 1 (quiet_ack rfl _) rfl rfl rfl (by rw [pc]; rfl)
      (by rw [pc]; simp [inHandshake, afterSend]) (by rw [pc]; rfl) rfl fun _ => sending pcOk.2
  | recvSynAck pc queue answer =>
    obtain ⟨h2, h3⟩ := answer_numbers (Or.inl answer)
    rw [pc] at role pcOk
    exact h.quiet 0 (by simp [sentPackets]) rfl h2 (by rw [UInt32.add_zero]; exact h3)
      (by simp [lead, pc, inHandshake]) (by rw [pc]; exact id) (by rw [pc]; rfl) role
      fun _ => sending pcOk.2
  | recvSyn pc queue answer =>
    obtain ⟨h2, h3⟩ := answer_numbers (Or.inr (Or.inl answer))
    rw [pc] at role pcOk
    exact h.quiet 0 (by simp [sentPackets]) rfl h2 (by rw [UInt32.add_zero]; exact h3)
      (by simp [lead, pc, inHandshake]) (by rw [pc]; exact id) (by rw [pc]; rfl) role
      fun _ => sending pcOk.2
  | @recvAck pkt rest pc queue =>
    obtain ⟨h2, h3⟩ := answer_numbers
      (Or.inr (Or.inr (rfl : ackReceived e.ctx (zeroFill 20 (pkt.take 20)) = _)))
    rw [pc] at role pcOk
    obtain rfl : isActive = false := by simpa [roleOk] using role
    exact h.quiet 0 (by simp [sentPackets]) rfl h2 (by rw [UInt32.add_zero]; exact h3)
      (by simp [lead]) (by rw [pc]; simp [inHandshake]) (by rw [pc]; rfl) rfl fun _ => sending pcOk.2
  | unblock pc | waitForEvent pc | appRecv pc =>
    exact h.loop (by rw [pc]; rfl) (by simp) (by simp [sentPackets]) rfl rfl rfl id
  | appRecvOverflow pc | finalEof pc =>
    exact h.loop (by rw [pc]; rfl) rfl (by simp [sentPackets]) rfl rfl rfl id
  | sendData pc =>
    rw [pc] at cond pcOk
    simp only [Bool.and_eq_true, Bool.not_eq_true', Option.isNone_iff_eq_none, side] at cond
    obtain ⟨rfl, rfl⟩ := cond
    exact h.segment pc (sending (Or.inl pcOk.2.1)) pcOk.2.2.2.2
  | @networkRecv event pkt rest ctx pending pc queue branch =>
    rw [pc] at pcOk
    have numbers : ctx.initialSequenceNum = e.ctx.initialSequenceNum ∧
        ctx.currentSequenceNum = e.ctx.currentSequenceNum := by
      rcases networkData_cases branch pcOk.2.1 with ⟨-, rfl, -⟩ | ⟨-, -, rfl, -⟩ | ⟨-, -, rfl, -⟩ <;>
        exact ⟨rfl, rfl⟩
    exact h.loop (by rw [pc]; rfl) (by simp) (by simp [sentPackets]) rfl numbers.1 numbers.2
      fun _ => sending (Or.inl pcOk.2.1)
  | call pc => exact h.calls pc replies
  | sendFin pc =>
    rw [pc] at cond
    simp only [Bool.not_eq_true', side] at cond
    subst cond
    exact h.sendFin pc

/-- Where a packet is sent, the counter is what it should carry. -/
theorem SeqInv.numbered (h : SeqInv isActive isn tr e) (ok : e.Ok) (replies : e.RepliesAck)
    (cond : seqKept e (.transport maxLen fail) = true) {pkt : List UInt8} {sent : Bool}
    (st : TransportStep e maxLen fail e' (.send pkt sent)) :
    thSeq pkt = isn + UInt32.ofNat (sentUnits tr) ∧
      (pkt.drop 20 ≠ [] → sumSent dataUnits tr = 0 → sentUnits tr = 1) := by
  have pcOk := ok.pcOk
  have field : ∀ hdr : STCPHeader, thSeq hdr.bytes = hdr.thSeq := by
    intro hdr
    have := thSeq_bytes hdr []
    rwa [List.append_nil] at this
  have bare : ∀ hdr : STCPHeader, hdr.bytes.drop 20 = [] := by
    intro hdr
    rw [List.drop_eq_nil_iff, STCPHeader.length_bytes]
  -- an endpoint that still sends has its counter at the right number, but for the lead
  have counter : Sending e → lead isActive e.pc = 0 →
      e.ctx.currentSequenceNum = isn + UInt32.ofNat (sentUnits tr) := by
    intro sending none
    rw [h.current sending, none, UInt32.add_zero]
  unfold seqKept at cond
  generalize seen : Obs.send pkt sent = shown at st
  cases st with
  | sendSyn pc =>
    cases seen
    obtain ⟨h1, h2⟩ := h.fresh (Or.inl (by rw [pc]; rfl))
    have h3 := h.syn
    rw [pc] at h3
    rw [field, sentUnits, h1, h2, h3]
    exact ⟨by simp [synHeader, h.initial, beforeSyn], fun data => absurd (bare _) data⟩
  | sendSynAck pc | sendAck pc =>
    cases seen
    rw [pc] at pcOk
    have sending : Sending e := by rcases pcOk.2 with hs | hs | hs <;> simp [Sending, hs]
    rw [field]
    refine ⟨counter sending ?_, fun data => absurd (bare _) data⟩
    simp [lead, pc, inHandshake]
  | @sendData event buffer payload payloadSize pc =>
    rw [pc] at cond pcOk
    simp only [Bool.and_eq_true, Bool.not_eq_true', h.side] at cond
    have sending : Sending e := by simp [Sending, pcOk.2.1]
    unfold sendSegment at seen
    dsimp only at seen
    split_ifs at seen
    cases seen
    rw [thSeq_bytes]
    refine ⟨counter sending (by simp [lead, cond.2]), fun _ none => ?_⟩
    rw [sentUnits, h.syn, h.fin sending, none, pc]
    rfl
  | @call event c rest pc =>
    cases c with
    | finReceived => cases seen
    | appSend src srcLen =>
      rw [Endpoint.call] at seen
      split_ifs at seen
    | networkSend reply =>
      obtain ⟨ack, rfl⟩ := replies reply (by rw [pc]; exact List.mem_cons_self ..)
      cases seen
      rw [pc] at cond pcOk
      simp only [Bool.and_eq_true, Bool.not_eq_true', beq_iff_eq, h.side] at cond
      have sending : Sending e := by rcases pcOk.2.1 with hs | hs <;> simp [Sending, hs]
      rw [field, ← counter sending (by simp [lead, cond.1]), cond.2]
      exact ⟨rfl, fun data => absurd (bare _) data⟩
  | sendFin pc =>
    cases seen
    rw [pc] at cond pcOk
    simp only [Bool.not_eq_true', h.side] at cond
    have sending : Sending e := by rcases pcOk.2.1 with hs | hs <;> simp [Sending, hs]
    rw [field]
    exact ⟨counter sending (by simp [lead, cond]), fun data => absurd (bare _) data⟩
  | _ => cases seen

theorem SeqInv.step (h : SeqInv isActive isn tr e) (ok : e.Ok) (replies : e.RepliesAck)
    (cond : seqKept e a = true) (st : e.step a = some (e', o)) :
    SeqInv isActive isn (tr ++ [(a, o)]) e' := by
  cases a with
  | transport maxLen fail => exact h.transport ok replies cond (transportStep_of_eq st)
  | _ =>
    obtain ⟨pc, ctx, side, rfl⟩ := step_environment st (by simp)
    refine h.quiet 0 (by simp [sentPackets]) side (by rw [ctx])
      (by rw [ctx, UInt32.add_zero]) (by rw [pc, UInt32.add_zero]) (by rw [pc]; exact id)
      (by rw [pc]) (by rw [pc]; exact h.role) ?_
    rw [Sending, ctx]
    exact id

end Step

/-! ## The handshake -/

/-- A first packet that the endpoint takes for its peer's SYN: the active side also wants its own
SYN acknowledged. -/
def SynFrom (isActive : Bool) (isn : UInt32) (pkt : List UInt8) : Prop :=
  hasFlag pkt thSYN = true ∧ (isActive = true → hasFlag pkt thACK = true ∧ thAck pkt = isn + 1)

/-- How far the exchange of SYNs has come at each program counter. -/
def Greeting (isActive : Bool) (isn : UInt32) (tr : List (Action × Obs)) (ctx : Context) : Pc → Prop
  | .sendSyn | .recvSyn => sends tr = [] ∧ received tr = []
  | .recvSynAck => (sends tr).length = 1 ∧ received tr = []
  | .sendAck => (sends tr).length = 1 ∧
      ∃ syn, received tr = [syn] ∧ (SynFrom isActive isn syn → ctx.oppSequenceNum = thSeq syn)
  | .sendSynAck => sends tr = [] ∧
      ∃ syn, received tr = [syn] ∧ (SynFrom isActive isn syn → ctx.oppSequenceNum = thSeq syn)
  | _ => ∃ syn rest answer, received tr = syn :: rest ∧
      (sends tr)[if isActive then 1 else 0]? = some answer ∧
      (SynFrom isActive isn syn → thAck answer = thSeq syn + 1)

section Greeting

variable {isActive : Bool} {isn : UInt32} {tr : List (Action × Obs)} {e e' : Endpoint} {maxLen : ℕ}
  {fail : Option ℕ} {o : Obs} {a : Action}

/-- The endpoint has answered the first packet it received. -/
def answered : Pc → Bool
  | .sendSyn | .recvSyn | .recvSynAck | .sendAck | .sendSynAck => false
  | _ => true

theorem answered_of_loop {pc : Pc} (loop : inHandshake pc = false) : answered pc = true := by
  cases pc <;> first | rfl | cases loop

theorem Greeting.keep {ctx ctx' : Context} {pc pc' : Pc} (h : Greeting isActive isn tr ctx pc)
    (before : answered pc = true) (after : answered pc' = true) :
    Greeting isActive isn (tr ++ [(a, o)]) ctx' pc' := by
  have exchanged : ∃ syn rest answer, received tr = syn :: rest ∧
      (sends tr)[if isActive then 1 else 0]? = some answer ∧
      (SynFrom isActive isn syn → thAck answer = thSeq syn + 1) := by
    cases pc <;> first | exact h | cases before
  obtain ⟨syn, rest, answer, first, sent, acked⟩ := exchanged
  have still : ∃ syn rest answer, received (tr ++ [(a, o)]) = syn :: rest ∧
      (sends (tr ++ [(a, o)]))[if isActive then 1 else 0]? = some answer ∧
      (SynFrom isActive isn syn → thAck answer = thSeq syn + 1) := by
    refine ⟨syn, rest ++ receipts o, answer, ?_, ?_, acked⟩
    · rw [received_snoc, first, List.cons_append]
    · rw [sends_snoc, List.getElem?_append_left (List.getElem?_eq_some_iff.1 sent).1, sent]
  cases pc' <;> first | exact still | cases after

/-- The number the active side expects its SYN to be acknowledged with. -/
theorem SeqInv.expected (h : SeqInv isActive isn tr e) (ok : e.Ok) (pc : e.pc = .recvSynAck) :
    e.ctx.currentSequenceNum = isn + 1 := by
  have pcOk := ok.pcOk
  rw [pc] at pcOk
  have sending : Sending e := by rcases pcOk.2 with hs | hs | hs <;> simp [Sending, hs]
  obtain ⟨h1, h2⟩ := h.fresh (Or.inl (by rw [pc]; rfl))
  rw [h.current sending, sentUnits, h.syn, h1, h2, pc]
  simp [lead, beforeSyn, inHandshake]

theorem thAck_answer {hdr : STCPHeader} : thAck hdr.bytes = hdr.thAck := by
  have field := thAck_bytes hdr []
  rwa [List.append_nil] at field

theorem Greeting.transport (h : Greeting isActive isn tr e.ctx e.pc) (ok : e.Ok)
    (seq : SeqInv isActive isn tr e) (st : TransportStep e maxLen fail e' o) :
    Greeting isActive isn (tr ++ [(.transport maxLen fail, o)]) e'.ctx e'.pc := by
  have role := seq.role
  have loop : ∀ {pc' : Pc} {ctx' : Context}, inHandshake e.pc = false → inHandshake pc' = false →
      Greeting isActive isn (tr ++ [(.transport maxLen fail, o)]) ctx' pc' :=
    fun h1 h2 => h.keep (answered_of_loop h1) (answered_of_loop h2)
  cases st with
  | sendSyn pc =>
    rw [pc] at h
    exact ⟨by rw [sends_snoc, h.1]; rfl, by rw [received_snoc, h.2]; rfl⟩
  | @recvSynAck pkt rest ctx errno pc queue answer =>
    rw [pc] at h role
    refine ⟨by rw [sends_snoc]; exact (congrArg _ (List.append_nil _)).trans h.1, pkt.take 20,
      by rw [received_snoc, h.2]; rfl, ?_⟩
    rintro ⟨syn, own⟩
    obtain ⟨ack, acked⟩ := own role
    rw [hasFlag_take pkt le_rfl] at syn ack
    rw [thAck_take pkt le_rfl] at acked
    show ctx.oppSequenceNum = _
    rw [answer, synAckReceived, if_pos, Option.getD_some, thSeq_take pkt le_rfl]
    · exact thSeq_zeroFill_take pkt le_rfl
    · rw [hasFlag_zeroFill_take pkt le_rfl, hasFlag_zeroFill_take pkt le_rfl,
        thAck_zeroFill_take pkt le_rfl, seq.expected ok pc]
      exact ⟨ack, syn, acked⟩
  | sendAck pc =>
    rw [pc] at h role
    obtain ⟨one, syn, first, opp⟩ := h
    obtain rfl : isActive = true := role
    refine ⟨syn, [], (handshakeAckHeader e.ctx).bytes, ?_, ?_, fun valid => ?_⟩
    · rw [received_snoc, first]
      rfl
    · rw [sends_snoc, if_pos rfl, List.getElem?_append_right (by omega), one]
      rfl
    · rw [thAck_answer, handshakeAckHeader, opp valid]
  | @recvSyn pkt rest ctx errno pc queue answer =>
    rw [pc] at h
    refine ⟨by rw [sends_snoc, h.1]; rfl, pkt.take 20, by rw [received_snoc, h.2]; rfl, ?_⟩
    rintro ⟨syn, -⟩
    rw [hasFlag_take pkt le_rfl] at syn
    show ctx.oppSequenceNum = _
    rw [answer, synReceived, if_pos, Option.getD_some, thSeq_take pkt le_rfl]
    · exact thSeq_zeroFill_take pkt le_rfl
    · rw [hasFlag_zeroFill_take pkt le_rfl]
      exact syn
  | sendSynAck pc =>
    rw [pc] at h role
    obtain ⟨none, syn, first, opp⟩ := h
    obtain rfl : isActive = false := by simpa [roleOk] using role
    refine ⟨syn, [], (synAckHeader e.ctx).bytes, ?_, ?_, fun valid => ?_⟩
    · rw [received_snoc, first]
      rfl
    · rw [sends_snoc, none]
      rfl
    · rw [thAck_answer, synAckHeader, opp valid]
  | recvAck pc => exact h.keep (by rw [pc]; rfl) rfl
  | unblock pc | waitForEvent pc | appRecv pc | networkRecv pc =>
    exact loop (by rw [pc]; rfl) (by simp)
  | sendFin pc => exact loop (by rw [pc]; rfl) (by simp [afterSend])
  | appRecvOverflow pc | finalEof pc => exact loop (by rw [pc]; rfl) rfl
  | @sendData event buffer payload payloadSize pc =>
    refine loop (by rw [pc]; rfl) ?_
    unfold sendSegment
    dsimp only
    split_ifs
    · rfl
    · simp [afterSend]
  | @call event c rest pc =>
    refine loop (by rw [pc]; rfl) ?_
    cases c with
    | finReceived | networkSend pkt => simp [Endpoint.call, afterSend]
    | appSend src srcLen =>
      rw [Endpoint.call]
      split_ifs
      · simp
      · simp
      · rfl

theorem Greeting.step (h : Greeting isActive isn tr e.ctx e.pc) (ok : e.Ok)
    (seq : SeqInv isActive isn tr e) (st : e.step a = some (e', o)) :
    Greeting isActive isn (tr ++ [(a, o)]) e'.ctx e'.pc := by
  cases a with
  | transport maxLen fail => exact h.transport ok seq (transportStep_of_eq st)
  | _ =>
    obtain ⟨pc, ctx, -, rfl⟩ := step_environment st (by simp)
    rw [pc, ctx]
    have hs : ∀ a, sends (tr ++ [(a, .quiet)]) = sends tr := fun a => by
      rw [sends_snoc]
      exact List.append_nil _
    have hr : ∀ a, received (tr ++ [(a, .quiet)]) = received tr := fun a => by
      rw [received_snoc]
      exact List.append_nil _
    unfold Greeting at h ⊢
    rw [hs, hr]
    exact h

theorem Greeting.acked {ctx : Context} {pc : Pc} (h : Greeting isActive isn tr ctx pc)
    (role : roleOk isActive pc = true) {syn answer : List UInt8} {rest : List (List UInt8)}
    (first : received tr = syn :: rest)
    (second : (sends tr)[if isActive then 1 else 0]? = some answer)
    (valid : SynFrom isActive isn syn) : thAck answer = thSeq syn + 1 := by
  by_cases early : answered pc = true
  · have exchanged : ∃ syn rest answer, received tr = syn :: rest ∧
        (sends tr)[if isActive then 1 else 0]? = some answer ∧
        (SynFrom isActive isn syn → thAck answer = thSeq syn + 1) := by
      cases pc <;> first | exact h | cases early
    obtain ⟨syn', rest', answer', first', second', acked⟩ := exchanged
    rw [first] at first'
    rw [second] at second'
    cases first'
    cases second'
    exact acked valid
  · have index := (List.getElem?_eq_some_iff.1 second).1
    cases pc with
    | sendSyn | recvSyn | recvSynAck =>
      have none := h.2
      rw [first] at none
      cases none
    | sendAck =>
      have one := h.1
      obtain rfl : isActive = true := role
      rw [if_pos rfl] at index
      omega
    | sendSynAck =>
      have none := h.1
      rw [none] at index
      cases index
    | _ => exact absurd rfl early

end Greeting

/-! ## Whole runs -/

/-- The initial sequence number for the value `r` of `rand()`. -/
def isnOf (r : ℕ) : UInt32 := UInt32.ofNat (r % 256)

theorem seqInv_of_run {isActive : Bool} {r : ℕ} {tr : List (Action × Obs)} {e : Endpoint}
    (run : machine.Runs (fun _ e a => seqKept e a = true) (init isActive r) tr e) :
    SeqInv isActive (isnOf r) tr e ∧ Greeting isActive (isnOf r) tr e.ctx e.pc := by
  refine run.invariant (I := fun tr e => SeqInv isActive (isnOf r) tr e ∧
    Greeting isActive (isnOf r) tr e.ctx e.pc) ?_ ?_
  · cases isActive <;>
      exact ⟨⟨rfl, rfl, rfl, fun _ => by simp [init, generateInitialSeqNum, isnOf, sentUnits,
        sumSent, lead, inHandshake], rfl, fun _ => ⟨rfl, rfl⟩, fun _ => rfl⟩, rfl, rfl⟩
  · rintro tr e a o e' before ⟨seq, greeting⟩ cond st
    have ok := Ok.of_run before
    exact ⟨seq.step ok (repliesAck_of_run before) cond st, greeting.step ok seq st⟩

/-- The numbering rules for the trace of one endpoint: all packets are numbered by what was sent
before them, so that the first data byte follows the SYN, and the peer's SYN is acknowledged with
the number that follows it. -/
structure SequenceKept (isActive : Bool) (isn : UInt32) (tr : List (Action × Obs)) : Prop where
  numbered : SeqDiscipline isn tr
  firstData : ∀ pre a pkt ok post, tr = pre ++ (a, .send pkt ok) :: post → pkt.drop 20 ≠ [] →
    sumSent dataUnits pre = 0 → thSeq pkt = isn + 1
  acknowledged : ∀ syn rest answer, received tr = syn :: rest → SynFrom isActive isn syn →
    (sends tr)[if isActive then 1 else 0]? = some answer → thAck answer = thSeq syn + 1

/-- Along every run of the steps that the two slips do not touch, the numbering is right. -/
theorem sequenceKept_of_run {isActive : Bool} {r : ℕ} {tr : List (Action × Obs)} {e : Endpoint}
    (run : machine.Runs (fun _ e a => seqKept e a = true) (init isActive r) tr e) :
    SequenceKept isActive (isnOf r) tr := by
  -- every packet sent, at the state it was sent from
  have sent : ∀ pre a pkt ok post, tr = pre ++ (a, .send pkt ok) :: post →
      thSeq pkt = isnOf r + UInt32.ofNat (sentUnits pre) ∧
        (pkt.drop 20 ≠ [] → sumSent dataUnits pre = 0 → sentUnits pre = 1) := by
    rintro pre a pkt ok post rfl
    obtain ⟨before, after, ran, cond, st⟩ := run.step_of_mem
    have st : before.step a = some (after, .send pkt ok) := st
    cases a with
    | transport maxLen fail =>
      exact (seqInv_of_run ran).1.numbered (Ok.of_run ran) (repliesAck_of_run ran) cond
        (transportStep_of_eq st)
    | _ =>
      obtain ⟨-, -, -, h⟩ := step_environment st (by simp)
      cases h
  refine ⟨fun pre a pkt ok post split => (sent pre a pkt ok post split).1, ?_, ?_⟩
  · intro pre a pkt ok post split data first
    obtain ⟨number, one⟩ := sent pre a pkt ok post split
    rw [number, one data first]
    rfl
  · intro syn rest answer first valid second
    obtain ⟨seq, greeting⟩ := seqInv_of_run run
    exact greeting.acked seq.role first second valid

/-- A passive endpoint accepts a connection and sends two bytes. -/
theorem sequenceKept_of_run_two : ∃ tr e,
    machine.Runs (fun _ e a => seqKept e a = true) (init false 7) tr e ∧
      sumSent dataUnits tr = 2 ∧ SequenceKept false (isnOf 7) tr := by
  obtain ⟨tr, e, run, sent⟩ := Machine.Runs.exists_of_exec (M := machine)
    (C := fun _ e a => seqKept e a) (i := init false 7) (P := fun tr _ => sumSent dataUnits tr = 2)
    [.deliver (STCPHeader.bytes { thSeq := 41, thOff := 5, thFlags := thSYN, thWin := 3072 }),
      .transport 0 none, .transport 0 none,
      .deliver (STCPHeader.bytes { thSeq := 42, thAck := 8, thOff := 5, thFlags := thACK,
                                   thWin := 3072 }),
      .transport 0 none, .transport 0 none, .mywrite [104, 105], .transport 0 none,
      .transport 3072 none, .transport 0 none] (by decide +kernel)
  exact ⟨tr, e, run, sent, sequenceKept_of_run run⟩

/-- The first data byte of an active endpoint is numbered two past its SYN. -/
theorem not_sequenceKept : ¬ ∀ tr e, machine.Run (init true 7) tr e →
    SequenceKept true (isnOf 7) tr := by
  intro all
  obtain ⟨tr, e, run, last, first⟩ := Machine.Runs.exists_of_exec (M := machine)
    (C := fun _ _ _ => true) (i := init true 7)
    (P := fun tr _ => tr = tr.dropLast ++ [(.transport 0 none,
        .send (STCPHeader.bytes { thSeq := 9, thOff := 5, thWin := receiverWindow } ++ [104, 105])
          true)] ∧ sumSent dataUnits tr.dropLast = 0)
    [.transport 0 none,
      .deliver (STCPHeader.bytes { thSeq := 41, thAck := 8, thOff := 5, thFlags := thSYN ||| thACK,
                                   thWin := 3072 }),
      .transport 0 none, .transport 0 none, .transport 0 none, .mywrite [104, 105],
      .transport 0 none, .transport 3072 none, .transport 0 none] (by decide +kernel)
  have kept := (all tr e (run.mono fun _ _ _ _ => trivial)).firstData _ _ _ _ _ last (by decide) first
  exact absurd kept (by decide)

end ComputerNetwork.Tcp
