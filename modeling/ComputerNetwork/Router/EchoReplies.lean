import ComputerNetwork.Router.ArpReplies

/-!
# Answers to echo requests

`sr_echo_icmp_packet` turns an echo request into its reply in place.  The reply comes from the address
of the interface that the request arrived on, which need not be the address that was pinged, and its
ICMP checksum is taken up to the end of the frame, which need not be the end of the datagram
(`echoAnswered_iff`).
-/

namespace ComputerNetwork.Router

open Lib

/-! ## The property -/

/-- An echo request without IP options, in a frame that may go on behind the datagram. -/
structure EchoRequestFrame (f : List UInt8) : Prop where
  ip : etherType f = ethertypeIp
  options : ipHl f = 5
  proto : ipP f = ipProtocolIcmp
  type : icmpType f = 8
  code : icmpCode f = 0
  header : 28 ≤ (ipLen f).toNat
  whole : sizeofEthernet + (ipLen f).toNat ≤ f.length
  small : f.length ≤ sizeofEthernet + 65535

/-- The request with the type of a reply, source and destination exchanged at both levels, valid
checksums and nothing else changed. -/
structure EchoReplyTo (request reply : List UInt8) : Prop where
  length : reply.length = request.length
  type : icmpType reply = 0
  src : ipSrc reply = ipDst request
  dst : ipDst reply = ipSrc request
  dhost : Mac.copy reply 0 = Mac.copy request 6
  shost : Mac.copy reply 6 = Mac.copy request 0
  headerValid : HeaderValid reply
  messageValid : MessageValid reply
  others : ∀ j, 12 ≤ j → j < 24 ∨ j = 35 ∨ 38 ≤ j → load8 reply j = load8 request j

/-- The bytes of the frame behind the datagram add nothing to the ones' complement sum. -/
def TrailerAddsNothing (f : List UInt8) : Prop :=
  wordSum (f.drop icmpStart) % 65535 = wordSum (icmpMessage f) % 65535

instance (f : List UInt8) : Decidable (TrailerAddsNothing f) :=
  inferInstanceAs (Decidable (wordSum (f.drop icmpStart) % 65535 = wordSum (icmpMessage f) % 65535))

/-! ## The frame -/

def echoLayout (rest : ℕ) : List ℕ := [6, 6, 12, 2, 4, 4, 2, 2, rest]

theorem sum_echoLayout (rest : ℕ) : (echoLayout rest).sum = 38 + rest := by
  simp only [echoLayout, List.sum_cons, List.sum_nil]
  omega

section Frame

variable {packet : List UInt8} {rest : ℕ}

theorem laid_echoRequest (length : packet.length = 38 + rest) :
    Laid (echoLayout rest)
      [packet.take 6, (packet.drop 6).take 6, (packet.drop 12).take 12, (packet.drop 24).take 2,
        (packet.drop 26).take 4, (packet.drop 30).take 4, (packet.drop 34).take 2,
        (packet.drop 36).take 2, (packet.drop 38).take rest] packet := by
  have start : Laid (echoLayout rest) (cut (echoLayout rest) packet) packet :=
    laid_cut (length.trans (sum_echoLayout rest).symm)
  simpa only [echoLayout, cut, List.drop_drop] using start

/-- The checksum of the message is taken up to the end of the frame. -/
theorem laid_setIcmpSum {d s k c a b kind sum data f : List UInt8}
    (laid : Laid (echoLayout rest) [d, s, k, c, a, b, kind, sum, data] f) :
    Laid (echoLayout rest) [d, s, k, c, a, b, kind,
      bytesBE16 (cksum (kind ++ (bytesBE16 0 ++ data))), data] (setIcmpSum f) := by
  have zeroed := laid.store 7 (bytesBE16 0) rfl rfl
  have message : (splice f 36 (bytesBE16 0)).drop icmpStart = kind ++ (bytesBE16 0 ++ data) := by
    refine (zeroed.tail 6 rfl).trans ?_
    simp
  have stored := zeroed.store 7 (bytesBE16 (cksum (kind ++ (bytesBE16 0 ++ data)))) rfl rfl
  rw [← message] at stored ⊢
  exact stored

theorem laid_echoFrame (length : packet.length = 38 + rest) (ip : UInt32) :
    ∃ sum, Laid (echoLayout rest)
      [(Mac.copy packet 6).bytes, (Mac.copy packet 0).bytes, (packet.drop 12).take 12,
        bytesBE16 sum, bytesLE32 ip, bytesLE32 (ipSrc packet), [0, 0],
        bytesBE16 (cksum ([0, 0] ++ (bytesBE16 0 ++ (packet.drop 38).take rest))),
        (packet.drop 38).take rest] (echoFrame packet ip) := by
  have source : some 6 = some (Mac.copy packet 6).bytes.length := by rw [(Mac.copy packet 6).size]
  have dest : some 6 = some (Mac.copy packet 0).bytes.length := by rw [(Mac.copy packet 0).size]
  have start := laid_echoRequest length
  have summed := laid_setIcmpSum (start.store 6 [0, 0] rfl rfl)
  have src : ipSrc (setIcmpSum (splice packet 34 [0, 0])) = ipSrc packet := by
    have kept : ((setIcmpSum (splice packet 34 [0, 0])).drop 26).take 4 = (packet.drop 26).take 4 :=
      summed.same start 4 1 rfl rfl rfl
    rw [ipSrc, loadLE32_slice, kept, ← loadLE32_slice, ipSrc]
  have addressed := (summed.store 5 (bytesLE32 (ipSrc packet)) rfl rfl).store 4 (bytesLE32 ip) rfl rfl
  have zeroed := addressed.store 3 (bytesBE16 0) rfl rfl
  rw [← src] at zeroed ⊢
  exact ⟨_, (zeroed.store 3 (bytesBE16 _) rfl rfl).store 0 (Mac.copy packet 6).bytes rfl source
    |>.store 1 (Mac.copy packet 0).bytes rfl dest⟩

theorem echoFrame_parts (long : 38 ≤ packet.length) (ip : UInt32) :
    (echoFrame packet ip).length = packet.length ∧
      ((echoFrame packet ip).drop 12).take 12 = (packet.drop 12).take 12 ∧
      (echoFrame packet ip).drop icmpStart = [0, 0] ++
        (bytesBE16 (cksum ([0, 0] ++ (bytesBE16 0 ++ packet.drop 38))) ++ packet.drop 38) := by
  obtain ⟨rest, length⟩ := Nat.exists_eq_add_of_le long
  obtain ⟨sum, laid⟩ := laid_echoFrame length ip
  have start := laid_echoRequest length
  have all : (packet.drop 38).take rest = packet.drop 38 :=
    List.take_of_length_le (by rw [List.length_drop]; omega)
  rw [all] at laid
  refine ⟨laid.length.trans start.length.symm, laid.same start 2 1 rfl rfl (by rfl), ?_⟩
  exact (laid.tail 6 rfl).trans (by simp)

theorem message_sums {f : List UInt8} (long : 38 ≤ f.length) (header : 24 ≤ (ipLen f).toNat) :
    wordSum (f.drop icmpStart) = wordSum ((f.drop icmpStart).take 4) + wordSum (f.drop 38) ∧
      wordSum (icmpMessage f) = wordSum ((f.drop icmpStart).take 4) +
        wordSum ((f.drop 38).take ((ipLen f).toNat - 24)) := by
  have four : ((f.drop icmpStart).take 4).length = 4 := by
    rw [List.length_take, List.length_drop, icmpStart]
    omega
  have parts : f.drop icmpStart = (f.drop icmpStart).take 4 ++ f.drop 38 := by
    rw [← List.drop_drop (i := 4) (j := 34), ← icmpStart, List.take_append_drop]
  have message : icmpMessage f =
      (f.drop icmpStart).take 4 ++ (f.drop 38).take ((ipLen f).toNat - 24) := by
    have size : (ipLen f).toNat - 20 = 4 + ((ipLen f).toNat - 24) := by omega
    rw [icmpMessage, size, List.take_add, List.drop_drop]
    rfl
  have even : ((f.drop icmpStart).take 4).length % 2 = 0 := by rw [four]
  constructor
  · rw [← wordSum_append _ _ even, ← parts]
  · rw [← wordSum_append _ _ even, ← message]

theorem ipLen_echoFrame (long : 38 ≤ packet.length) (ip : UInt32) :
    ipLen (echoFrame packet ip) = ipLen packet := by
  have kept := (echoFrame_parts long ip).2.1
  rw [ipLen, ipLen, loadBE16, loadBE16, load8_of_slice kept (by omega) (by omega),
    load8_of_slice kept (by omega) (by omega)]

/-- The checksum of the reply cancels the sum over everything behind it. -/
theorem check_echoFrame (long : 38 ≤ packet.length) (small : packet.length < 2 ^ 16 + 34)
    (ip : UInt32) : wordSum (((echoFrame packet ip).drop icmpStart).take 4) =
      complement (residue (wordSum (packet.drop 38))) := by
  have short : ([0, 0] ++ (bytesBE16 0 ++ packet.drop 38)).length < 2 ^ 16 := by
    simp only [List.length_append, List.length_drop, length_bytesBE16, List.length_cons,
      List.length_nil]
    omega
  have zeros : wordSum ([0, 0] ++ (bytesBE16 0 ++ packet.drop 38)) = wordSum (packet.drop 38) := by
    rw [wordSum_append [0, 0] _ rfl, wordSum_bytesBE16]
    simp [wordSum]
  have front : ((echoFrame packet ip).drop icmpStart).take 4 =
      [0, 0] ++ bytesBE16 (cksum ([0, 0] ++ (bytesBE16 0 ++ packet.drop 38))) := by
    rw [(echoFrame_parts long ip).2.2]
    rfl
  have alone := wordSum_bytesBE16 (cksum ([0, 0] ++ (bytesBE16 0 ++ packet.drop 38))) []
  rw [List.append_nil] at alone
  rw [front, wordSum_append [0, 0] _ rfl, alone, toNat_cksum (by omega), zeros]
  simp [wordSum]

theorem EchoRequestFrame.long (echo : EchoRequestFrame packet) : 38 ≤ packet.length := by
  have header := echo.header
  have whole := echo.whole
  simp only [sizeofEthernet] at whole
  omega

/-- The checksum of the reply fits its message exactly when the request's trailer adds nothing. -/
theorem messageValid_echoFrame_iff (echo : EchoRequestFrame packet) (ip : UInt32) :
    MessageValid (echoFrame packet ip) ↔ TrailerAddsNothing packet := by
  have header := echo.header
  have whole := echo.whole
  have small := echo.small
  simp only [sizeofEthernet] at whole small
  have long := echo.long
  have size := (echoFrame_parts long ip).1
  have len := ipLen_echoFrame long ip
  have data : (echoFrame packet ip).drop 38 = packet.drop 38 := by
    rw [← List.drop_drop (i := 4) (j := 34), ← icmpStart, (echoFrame_parts long ip).2.2]
    rfl
  have sums := message_sums long (by omega)
  have replied := message_sums (f := echoFrame packet ip) (by omega) (by rw [len]; omega)
  rw [len, data, check_echoFrame long (by omega)] at replied
  have cancel := complement_spec (wordSum (packet.drop 38))
  have pos := complement_pos (residue (wordSum (packet.drop 38)))
  rw [MessageValid, TrailerAddsNothing, residue_eq_iff, len, size, replied.2, sums.1, sums.2]
  constructor
  · intro valid
    have zero := valid.2.2.2
    omega
  · intro same
    exact ⟨by omega, whole, by omega, by omega⟩

/-- The frame is the reply exactly when its source is the pinged address and the request's trailer
adds nothing. -/
theorem echoReplyTo_echoFrame_iff (echo : EchoRequestFrame packet) (ip : UInt32) :
    EchoReplyTo packet (echoFrame packet ip) ↔ ip = ipDst packet ∧ TrailerAddsNothing packet := by
  have long := echo.long
  obtain ⟨rest, length⟩ := Nat.exists_eq_add_of_le long
  obtain ⟨sum, laid⟩ := laid_echoFrame length ip
  obtain ⟨size, front, back⟩ := echoFrame_parts long ip
  have source : ipSrc (echoFrame packet ip) = ip := loadLE32_of_slice (laid.field 4 rfl rfl rfl)
  have kind : ∀ k < 2, load8 (echoFrame packet ip) (34 + k) = 0 := by
    intro k small
    rw [← load8_drop, ← icmpStart, back]
    obtain rfl | rfl : k = 0 ∨ k = 1 := by omega
    · rfl
    · rfl
  rw [← messageValid_echoFrame_iff echo ip]
  constructor
  · intro reply
    exact ⟨source.symm.trans reply.src, reply.messageValid⟩
  · rintro ⟨rfl, valid⟩
    constructor
    case length => exact size
    case type => exact kind 0 (by omega)
    case src => exact source
    case dst => exact loadLE32_of_slice (laid.field 5 rfl rfl rfl)
    case dhost => exact copy_of_slice (laid.field 0 rfl rfl rfl)
    case shost => exact copy_of_slice (laid.field 1 rfl rfl rfl)
    case headerValid => exact (sound_echoFrame _ long).2
    case messageValid => exact valid
    case others =>
      intro j behind beside
      by_cases header : j < 24
      · exact load8_of_slice front behind header
      · by_cases code : j = 35
        · rw [code]
          exact (kind 1 (by omega)).trans echo.code.symm
        · obtain ⟨k, rfl⟩ := Nat.exists_eq_add_of_le (show 38 ≤ j by omega)
          have data : (echoFrame packet (ipDst packet)).drop 38 = packet.drop 38 := by
            rw [← List.drop_drop (i := 4) (j := 34), ← icmpStart, back]
            rfl
          rw [← load8_drop, data, load8_drop]

end Frame

/-! ## The handler -/

section Handler

variable (env : Env) (fuel : ℕ) {c : Call} {packet : List UInt8} {interface : Name} {i : SrIf}
  (route : Option SrRt)

/-- `ip_forwarding` hands the reply to the packet to `sr_send_packet`, for the interface it arrived
on. -/
def EchoAnswered (env : Env) (fuel : ℕ) (c : Call) (packet : List UInt8) (interface : Name)
    (route : Option SrRt) : Prop :=
  ∃ reply, ipForwarding env fuel c packet interface route =
    .ok (srSendPacket c reply interface) ∧ EchoReplyTo packet reply

/-- The reply goes on the wire. -/
def EchoTransmitted (env : Env) (fuel : ℕ) (c : Call) (packet : List UInt8) (interface : Name)
    (route : Option SrRt) : Prop :=
  ∃ reply, ipForwarding env fuel c packet interface route =
    .ok (c.emit (.transmit interface reply)) ∧ EchoReplyTo packet reply

theorem ipForwarding_echo (echo : EchoRequestFrame packet)
    (mine : ∃ j ∈ c.sr.ifList, j.ip = ipDst packet)
    (arrived : srGetInterface c.sr.ifList interface = some i) :
    ipForwarding env fuel c packet interface route =
      .ok (srSendPacket c (echoFrame packet i.ip) interface) := by
  obtain ⟨j, own, ip⟩ := mine
  have found : (getInterfaceFromIp c.sr.ifList (ipDst packet)).isSome :=
    List.find?_isSome.2 ⟨j, own, by simpa using ip.symm⟩
  obtain ⟨k, found⟩ := Option.isSome_iff_exists.1 found
  unfold ipForwarding
  simp [found, echo.proto, echo.type, echo.code, arrived]

theorem sendEvent_inj {ifList : List SrIf} {f g : List UInt8} {name : Name}
    (same : sendEvent ifList f name = sendEvent ifList g name) : f = g := by
  unfold sendEvent at same
  split_ifs at same
  · exact (Event.transmit.inj same).2
  · exact (Event.refused.inj same).2

theorem frame_of_emit {c : Call} {e e' : Event} (same : c.emit e = c.emit e') : e = e' :=
  (List.cons.inj (List.append_cancel_left (congrArg Call.log same))).1

theorem echoAnswered_iff_source (echo : EchoRequestFrame packet)
    (mine : ∃ j ∈ c.sr.ifList, j.ip = ipDst packet)
    (arrived : srGetInterface c.sr.ifList interface = some i) :
    EchoAnswered env fuel c packet interface route ↔
      i.ip = ipDst packet ∧ TrailerAddsNothing packet := by
  have run := ipForwarding_echo env fuel route echo mine arrived
  rw [← echoReplyTo_echoFrame_iff echo i.ip]
  constructor
  · rintro ⟨reply, answered, isReply⟩
    have same := Except.ok.inj (run.symm.trans answered)
    rw [srSendPacket_eq, srSendPacket_eq] at same
    rwa [sendEvent_inj (frame_of_emit same)]
  · exact fun isReply => ⟨_, run, isReply⟩

/-- A frame is put on the wire when it comes from the address of its interface. -/
theorem sendEvent_eq_transmit_iff {ifList : List SrIf} {frame : List UInt8} {name : Name} {i : SrIf}
    (long : sizeofEthernet ≤ frame.length) (named : srGetInterface ifList name = some i) :
    sendEvent ifList frame name = .transmit name frame ↔ (frame.drop 6).take 6 = i.addr.bytes := by
  unfold sendEvent
  rw [named, Option.any_some]
  constructor
  · intro sent
    split_ifs at sent with passes
    exact of_decide_eq_true passes.2
  · intro same
    rw [if_pos ⟨long, decide_eq_true same⟩]

theorem echoTransmitted_iff_addressed (echo : EchoRequestFrame packet)
    (mine : ∃ j ∈ c.sr.ifList, j.ip = ipDst packet)
    (arrived : srGetInterface c.sr.ifList interface = some i) :
    EchoTransmitted env fuel c packet interface route ↔
      (i.ip = ipDst packet ∧ TrailerAddsNothing packet) ∧ Mac.copy packet 0 = i.addr := by
  have run := ipForwarding_echo env fuel route echo mine arrived
  have long := echo.long
  obtain ⟨rest, length⟩ := Nat.exists_eq_add_of_le long
  obtain ⟨sum, laid⟩ := laid_echoFrame length i.ip
  have size : sizeofEthernet ≤ (echoFrame packet i.ip).length := by
    rw [(echoFrame_parts long i.ip).1, sizeofEthernet]
    omega
  have shost : ((echoFrame packet i.ip).drop 6).take 6 = (Mac.copy packet 0).bytes :=
    laid.field 1 rfl rfl rfl
  have sent : sendEvent c.sr.ifList (echoFrame packet i.ip) interface =
      .transmit interface (echoFrame packet i.ip) ↔ Mac.copy packet 0 = i.addr := by
    rw [sendEvent_eq_transmit_iff size arrived, shost, Mac.ext_iff]
  rw [← echoReplyTo_echoFrame_iff echo i.ip, ← sent]
  rw [srSendPacket_eq] at run
  constructor
  · rintro ⟨reply, transmitted, isReply⟩
    have same := frame_of_emit (Except.ok.inj (run.symm.trans transmitted))
    have frame := frame_of_sendEvent same
    rw [frame] at same isReply
    exact ⟨isReply, same⟩
  · rintro ⟨isReply, same⟩
    exact ⟨_, same ▸ run, isReply⟩

/-- The reply to an echo request for the router is the one that is due exactly when the pinged address
is that of the interface it arrived on and the frame's trailer adds nothing to the checksum.  It goes
on the wire when the request was sent to that interface's hardware address. -/
theorem echoAnswered_iff (echo : EchoRequestFrame packet)
    (mine : ∃ j ∈ c.sr.ifList, j.ip = ipDst packet)
    (arrived : srGetInterface c.sr.ifList interface = some i) :
    (EchoAnswered env fuel c packet interface route ↔
      i.ip = ipDst packet ∧ TrailerAddsNothing packet) ∧
    (EchoTransmitted env fuel c packet interface route ↔
      (i.ip = ipDst packet ∧ TrailerAddsNothing packet) ∧ Mac.copy packet 0 = i.addr) :=
  ⟨echoAnswered_iff_source env fuel route echo mine arrived,
    echoTransmitted_iff_addressed env fuel route echo mine arrived⟩

end Handler

/-- An echo request from 192.168.0.2 to 10.0.`net`.1; `id` makes its header sum zero. -/
def pingFrame (id net : UInt8) : List UInt8 :=
  [2, 0, 0, 0, 0, 1, 2, 0, 0, 0, 0, 9, 8, 0,
    0x45, 0, 0, 56, id, 0x1a, 0, 0, 64, 1, 0xff, 0xff, 192, 168, 0, 2, 10, 0, net, 1] ++
    [8, 0, 0xff, 0xff, 0xf7, 0xff] ++ List.replicate 30 0

theorem echoRequestFrame_pingFrame (id net : UInt8) : EchoRequestFrame (pingFrame id net) where
  ip := rfl
  options := by
    have version : ipHl (pingFrame id net) = 0x45 &&& 0x0f := rfl
    rw [version]
    decide
  proto := rfl
  type := rfl
  code := rfl
  header := by
    have len : ipLen (pingFrame id net) = 56 := rfl
    rw [len]
    decide
  whole := by
    have len : ipLen (pingFrame id net) = 56 := rfl
    have size : (pingFrame id net).length = 70 := rfl
    rw [len, size]
    decide
  small := by
    have size : (pingFrame id net).length = 70 := rfl
    rw [size]
    decide

/-- The interface that is pinged answers. -/
theorem echoAnswered_iff_first : EchoAnswered (envAt 5) 2 (.start twoInterfaces)
    (pingFrame 0xb0 0) [101, 48] none := by
  have arrived : srGetInterface (Call.start twoInterfaces).sr.ifList [101, 48] =
      twoInterfaces.ifList.head? := by decide
  exact (echoAnswered_iff (envAt 5) 2 none (echoRequestFrame_pingFrame 0xb0 0)
    ⟨_, List.mem_cons_self .., by decide⟩ arrived).1.2 ⟨by decide, by decide +kernel⟩

/-- A ping of the second interface that arrives on the first. -/
theorem not_echoAnswered_other_interface : ipChecks (pingFrame 0xaf 1) = true ∧
    ¬ ∀ env fuel c packet interface i route, EchoRequestFrame packet →
      (∃ j ∈ c.sr.ifList, j.ip = ipDst packet) →
      srGetInterface c.sr.ifList interface = some i →
      EchoAnswered env fuel c packet interface route := by
  refine ⟨by decide +kernel, fun claim => ?_⟩
  have arrived : srGetInterface (Call.start twoInterfaces).sr.ifList [101, 48] =
      twoInterfaces.ifList.head? := by decide
  have mine : ∃ j ∈ (Call.start twoInterfaces).sr.ifList, j.ip = ipDst (pingFrame 0xaf 1) :=
    ⟨_, List.mem_cons_of_mem _ (List.mem_cons_self ..), by decide⟩
  have echo := echoRequestFrame_pingFrame 0xaf 1
  have answered := claim (envAt 5) 2 (.start twoInterfaces) _ [101, 48] _ none echo mine arrived
  have source := ((echoAnswered_iff_source (envAt 5) 2 none echo mine arrived).1 answered).1
  exact absurd source (by decide)

end ComputerNetwork.Router
