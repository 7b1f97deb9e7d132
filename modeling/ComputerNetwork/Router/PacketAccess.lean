import ComputerNetwork.Lib.CheckedBuffer
import ComputerNetwork.Router.Quotes

/-!
# Where the handlers touch a received frame

The handlers of a received frame once more, with every load from the packet and every store to it
checked against its length.  Where no access lies outside, the result is that of the handlers of
`Router.lean` (`srHandlepacket_run`); an access lies outside exactly for a frame that is shorter than
an Ethernet header, or than an ARP header behind it when it says that it is ARP
(`accessesInside_iff`).
-/

namespace ComputerNetwork.Router

open Lib Lib.OnBuffer

namespace OnPacket

/-! ## The handlers -/

/-- `sr_handle_arp_packet`. -/
def srHandleArpPacket (env : Env) (c : Call) : OnBuffer Call := do
  let sendIp ← load 28 4 arSip
  let tarIp ← load 38 4 arTip
  let op ← load 20 2 arOp
  let sendMac ← load 22 6 (Mac.copy · 22)
  let _tarMac ← load 32 6 (Mac.copy · 32)
  match getInterfaceFromIp c.sr.ifList tarIp with
  | none => pure c
  | some i =>
    if op = arpOpRequest then do
      let c := learn env c sendMac sendIp
      store 6 i.addr.bytes
      store 0 sendMac.bytes
      store 22 i.addr.bytes
      store 32 sendMac.bytes
      store 28 (bytesLE32 tarIp)
      store 38 (bytesLE32 sendIp)
      store 20 (bytesBE16 arpOpReply)
      let packet ← buffer
      pure (srSendPacket c packet i.name)
    else if op = arpOpReply then pure (learn env c sendMac sendIp)
    else pure c

/-- `sr_echo_icmp_packet`. -/
def srEchoIcmpPacket (c : Call) (len : ℕ) (source destination : Mac) (interface : Name) :
    OnBuffer (Except Fault Call) := do
  store 34 [0]
  store 35 [0]
  store 36 (bytesBE16 0)
  let message ← load 34 (len - 34) (List.drop 34)
  store 36 (bytesBE16 (cksum message))
  let sourceIp ← load 26 4 ipSrc
  store 30 (bytesLE32 sourceIp)
  match srGetInterface c.sr.ifList interface with
  | none => pure (.error .nullDeref)
  | some i => do
    store 26 (bytesLE32 i.ip)
    store 24 (bytesBE16 0)
    let header ← load 14 20 ipHeader
    store 24 (bytesBE16 (cksum header))
    store 0 source.bytes
    store 6 destination.bytes
    let packet ← buffer
    pure (.ok (srSendPacket c packet interface))

/-- The end of `ip_forwarding`, for a packet whose TTL has not run out. -/
def relay (env : Env) (fuel : ℕ) (c : Call) (route : Option SrRt) : OnBuffer (Except Fault Call) :=
  match route with
  | none => pure (.error .nullDeref)
  | some route =>
    match srArpcacheLookup c.sr.cache route.gw with
    | some entry =>
      match srGetInterface c.sr.ifList route.interface with
      | none => pure (.error .nullDeref)
      | some i => do
        store 6 i.addr.bytes
        store 0 entry.mac.bytes
        let packet ← buffer
        pure (.ok (srSendPacket c packet i.name))
    | none => do
      let packet ← buffer
      let (cache, addr) := srArpcacheQueuereq c.sr.cache route.gw packet none
      pure (handleArpreq env fuel addr (c.setCache cache))

/-- `ip_forwarding`. -/
def ipForwarding (env : Env) (fuel : ℕ) (c : Call) (len : ℕ) (interface : Name)
    (source destination : Mac) (route : Option SrRt) : OnBuffer (Except Fault Call) := do
  let protocol ← load 23 1 ipP
  let destinationIp ← load 30 4 ipDst
  let sourceIp ← load 26 4 ipSrc
  match getInterfaceFromIp c.sr.ifList destinationIp with
  | none => do
    let ttl ← load 22 1 ipTtl
    store 22 [ttl - 1]
    let ttl ← load 22 1 ipTtl
    if ttl = 0 then do
      let packet ← buffer
      pure (srSendIcmpPacket env (handleArpreq env fuel) c sourceIp packet 11 0)
    else do
      store 24 (bytesBE16 0)
      let header ← load 14 20 ipHeader
      store 24 (bytesBE16 (cksum header))
      relay env fuel c route
  | some _ =>
    if protocol = ipProtocolIcmp then do
      let type ← load 34 1 icmpType
      let code ← load 35 1 icmpCode
      if type = 8 ∧ code = 0 then srEchoIcmpPacket c len source destination interface
      else pure (.ok c)
    else do
      let packet ← buffer
      pure (srSendIcmpPacket env (handleArpreq env fuel) c sourceIp packet 3 3)

/-- `sr_handle_ip_packet`. -/
def srHandleIpPacket (env : Env) (fuel : ℕ) (c : Call) (len : ℕ) (interface : Name)
    (source destination : Mac) : OnBuffer (Except Fault Call) := do
  let destinationIp ← load 30 4 ipDst
  let sourceIp ← load 26 4 ipSrc
  let route := routeMatch c.sr.routingTable destinationIp
  if getInterfaceFromIp c.sr.ifList destinationIp = none ∧ route = none then do
    let packet ← buffer
    pure (srSendIcmpPacket env (handleArpreq env fuel) c sourceIp packet 3 0)
  else ipForwarding env fuel c len interface source destination route

/-- The checks `sr_handlepacket` makes before it passes an IP frame on. -/
def ipChecks (len : ℕ) : OnBuffer Bool :=
  if len < 34 then pure false
  else do
    let header ← load 14 20 ipHeader
    let sum ← load 24 2 ipSum
    if cksum header = sum then do
      let protocol ← load 23 1 ipP
      if protocol = ipProtocolIcmp then
        if len < 70 then pure false
        else do
          let message ← load 34 36 fun b => (b.drop icmpStart).take sizeofIcmp
          let sum ← load 36 2 icmpSum
          pure (cksum message == sum)
      else pure true
    else pure false

/-- `sr_handlepacket`. -/
def srHandlepacket (env : Env) (fuel : ℕ) (c : Call) (len : ℕ) (interface : Name) :
    OnBuffer (Except Fault Call) := do
  let type ← load 12 2 etherType
  let destination ← load 0 6 (Mac.copy · 0)
  let source ← load 6 6 (Mac.copy · 6)
  if type = ethertypeArp then do
    let c ← srHandleArpPacket env c
    pure (.ok c)
  else if type = ethertypeIp then do
    let sound ← ipChecks len
    if sound then srHandleIpPacket env fuel c len interface source destination
    else pure (.ok c)
  else pure (.ok c)

/-! ## Packets that are long enough -/

section Runs

variable (env : Env) (fuel : ℕ) {c : Call} {packet : List UInt8} (interface : Name)

theorem arpReply_run (long : 42 ≤ packet.length) (i : SrIf) (c : Call) :
    (do
      store 6 i.addr.bytes
      store 0 (Mac.copy packet 22).bytes
      store 22 i.addr.bytes
      store 32 (Mac.copy packet 22).bytes
      store 28 (bytesLE32 (arTip packet))
      store 38 (bytesLE32 (arSip packet))
      store 20 (bytesBE16 arpOpReply)
      let packet ← buffer
      pure (srSendPacket c packet i.name) : OnBuffer Call) packet =
    some (srSendPacket c (arpReply packet i) i.name, arpReply packet i) := by
  have mac := i.addr.size
  have sender := (Mac.copy packet 22).size
  have shost := le_length_splice 6 (i.addr.bytes) long (by omega)
  have dhost := le_length_splice 0 ((Mac.copy packet 22).bytes) shost (by omega)
  have sha := le_length_splice 22 (i.addr.bytes) dhost (by omega)
  have tha := le_length_splice 32 ((Mac.copy packet 22).bytes) sha (by omega)
  have sip := le_length_splice 28 (bytesLE32 (arTip packet)) tha (by simp)
  have tip := le_length_splice 38 (bytesLE32 (arSip packet)) sip (by simp)
  rw [store_bind (by omega), store_bind (by omega), store_bind (by omega), store_bind (by omega),
    store_bind (by rw [length_bytesLE32]; omega), store_bind (by rw [length_bytesLE32]; omega),
    store_bind (by rw [length_bytesBE16]; omega), buffer_bind, pure_run]
  rfl

theorem srHandleArpPacket_run (long : 42 ≤ packet.length) :
    ∃ c' packet', srHandleArpPacket env c packet = some (c', packet') ∧
      Router.srHandleArpPacket env c packet = .ok c' := by
  have enough : ¬ packet.length < 42 := Nat.not_lt.2 long
  unfold srHandleArpPacket Router.srHandleArpPacket
  rw [if_neg enough, load_bind (by omega), load_bind (by omega), load_bind (by omega),
    load_bind (by omega), load_bind (by omega)]
  cases getInterfaceFromIp c.sr.ifList (arTip packet) with
  | none => exact ⟨c, packet, rfl, rfl⟩
  | some i =>
      dsimp only
      split_ifs with request reply
      · exact ⟨_, _, arpReply_run long i _, rfl⟩
      · exact ⟨_, packet, rfl, rfl⟩
      · exact ⟨c, packet, rfl, rfl⟩

theorem setIpSum_run {b : List UInt8} (long : 34 ≤ b.length) {α : Type} (next : Unit → OnBuffer α) :
    (do
      store 24 (bytesBE16 0)
      let header ← load 14 20 ipHeader
      store 24 (bytesBE16 (cksum header)) >>= next) b = next () (setIpSum b) := by
  have zeroed := le_length_splice 24 (bytesBE16 0) long (by simp)
  rw [store_bind (by rw [length_bytesBE16]; omega), load_bind (by omega),
    store_bind (by rw [length_bytesBE16]; omega)]
  rfl

theorem setIcmpSum_run {b : List UInt8} {len : ℕ} (size : b.length = len) (long : 38 ≤ len)
    {α : Type} (next : Unit → OnBuffer α) :
    (do
      store 36 (bytesBE16 0)
      let message ← load 34 (len - 34) (List.drop 34)
      store 36 (bytesBE16 (cksum message)) >>= next) b = next () (setIcmpSum b) := by
  have zeroed : (splice b 36 (bytesBE16 0)).length = b.length :=
    length_splice (by rw [length_bytesBE16]; omega)
  rw [store_bind (by rw [length_bytesBE16]; omega), load_bind (by omega),
    store_bind (by rw [length_bytesBE16]; omega)]
  rfl

theorem echoMessage_run (long : 38 ≤ packet.length) {α : Type} (next : Unit → OnBuffer α) :
    (do
      store 34 [0]
      store 35 [0]
      store 36 (bytesBE16 0)
      let message ← load 34 (packet.length - 34) (List.drop 34)
      store 36 (bytesBE16 (cksum message)) >>= next) packet =
    next () (setIcmpSum (splice packet 34 [0, 0])) := by
  have half : (splice packet 34 [0]).length = packet.length := length_splice (by simp; omega)
  have typed : splice (splice packet 34 [0]) 35 [0] = splice packet 34 [0, 0] :=
    splice_append [0] (by simp; omega)
  have size : (splice packet 34 [0, 0]).length = packet.length := length_splice (by simp; omega)
  rw [store_bind (by simp; omega), store_bind (by simp; omega), typed, setIcmpSum_run size long]

theorem srEchoIcmpPacket_run (long : 38 ≤ packet.length) {i : SrIf}
    (arrived : srGetInterface c.sr.ifList interface = some i) :
    ∃ packet', srEchoIcmpPacket c packet.length (Mac.copy packet 6) (Mac.copy packet 0) interface
      packet = some (.ok (srSendPacket c (echoFrame packet i.ip) interface), packet') := by
  have mac := (Mac.copy packet 6).size
  have mac' := (Mac.copy packet 0).size
  have typed := le_length_splice 34 [0, 0] long (by simp)
  have summed := le_length_setIcmpSum typed (by omega)
  have dst := le_length_splice 30 (bytesLE32 (ipSrc (setIcmpSum (splice packet 34 [0, 0]))))
    summed (by simp)
  have src := le_length_splice 26 (bytesLE32 i.ip) dst (by simp)
  have checked := le_length_setIpSum src (by omega)
  have dhost := le_length_splice 0 ((Mac.copy packet 6).bytes) checked (by omega)
  unfold srEchoIcmpPacket
  rw [echoMessage_run long, load_bind (by omega), store_bind (by rw [length_bytesLE32]; omega),
    arrived]
  dsimp only
  rw [store_bind (by rw [length_bytesLE32]; omega), setIpSum_run (by omega),
    store_bind (by omega), store_bind (by omega), buffer_bind, pure_run]
  exact ⟨_, rfl⟩

theorem srEchoIcmpPacket_run_none (long : 38 ≤ packet.length) (source destination : Mac)
    (unknown : srGetInterface c.sr.ifList interface = none) :
    ∃ packet', srEchoIcmpPacket c packet.length source destination interface packet =
      some (.error .nullDeref, packet') := by
  have typed := le_length_splice 34 [0, 0] long (by simp)
  have summed := le_length_setIcmpSum typed (by omega)
  unfold srEchoIcmpPacket
  rw [echoMessage_run long, load_bind (by omega), store_bind (by rw [length_bytesLE32]; omega),
    unknown]
  exact ⟨_, rfl⟩

theorem relay_run (long : 34 ≤ packet.length) (route : Option SrRt) :
    ∃ packet', relay env fuel c route packet =
      some (Router.relay c.sr packet route >>= Handover.run (handleArpreq env fuel) c, packet') := by
  unfold relay Router.relay
  cases route with
  | none => exact ⟨packet, rfl⟩
  | some route =>
      dsimp only
      cases srArpcacheLookup c.sr.cache route.gw with
      | none => exact ⟨packet, rfl⟩
      | some entry =>
          dsimp only
          cases srGetInterface c.sr.ifList route.interface with
          | none => exact ⟨packet, rfl⟩
          | some i =>
              have mac := i.addr.size
              have mac' := entry.mac.size
              have shost := le_length_splice 6 (i.addr.bytes) long (by omega)
              dsimp only
              rw [store_bind (by omega), store_bind (by omega), buffer_bind, pure_run]
              exact ⟨_, rfl⟩

theorem ipForwarding_run (long : 34 ≤ packet.length)
    (icmp : ipP packet = ipProtocolIcmp → 70 ≤ packet.length) (route : Option SrRt) :
    ∃ packet', ipForwarding env fuel c packet.length interface (Mac.copy packet 6)
        (Mac.copy packet 0) route packet =
      some (Router.ipForwarding env fuel c packet interface route, packet') := by
  unfold ipForwarding
  rw [load_bind (by omega), load_bind (by omega), load_bind (by omega)]
  cases own : getInterfaceFromIp c.sr.ifList (ipDst packet) with
  | none =>
      dsimp only
      have aged := le_length_splice 22 [ipTtl packet - 1] long (by simp)
      rw [load_bind (by omega), store_bind (by simp; omega), load_bind (by omega)]
      by_cases expired : ipTtl (splice packet 22 [ipTtl packet - 1]) = 0
      · rw [if_pos expired, buffer_bind, pure_run]
        have source : ipSrc (splice packet 22 [ipTtl packet - 1]) = ipSrc packet :=
          ipSrc_decrementTtl long
        unfold Router.ipForwarding
        simp only [own, if_pos expired, source]
        exact ⟨_, rfl⟩
      · rw [if_neg expired, setIpSum_run aged, ipForwarding_eq env fuel interface own expired]
        exact relay_run env fuel (le_length_setIpSum aged (by omega)) route
  | some i =>
      dsimp only
      unfold Router.ipForwarding
      simp only [own]
      by_cases proto : ipP packet = ipProtocolIcmp
      · have longer := icmp proto
        rw [if_pos proto, if_pos proto, load_bind (by omega), load_bind (by omega)]
        by_cases echo : icmpType packet = 8 ∧ icmpCode packet = 0
        · rw [if_pos echo, if_pos echo]
          cases arrived : srGetInterface c.sr.ifList interface with
          | none => exact srEchoIcmpPacket_run_none interface (by omega) _ _ arrived
          | some j => exact srEchoIcmpPacket_run interface (by omega) arrived
        · rw [if_neg echo, if_neg echo]
          exact ⟨packet, rfl⟩
      · rw [if_neg proto, if_neg proto]
        exact ⟨packet, rfl⟩

theorem srHandleIpPacket_run (long : 34 ≤ packet.length)
    (icmp : ipP packet = ipProtocolIcmp → 70 ≤ packet.length) :
    ∃ packet', srHandleIpPacket env fuel c packet.length interface (Mac.copy packet 6)
        (Mac.copy packet 0) packet =
      some (Router.srHandleIpPacket env fuel c packet interface, packet') := by
  unfold srHandleIpPacket Router.srHandleIpPacket
  rw [load_bind (by omega), load_bind (by omega)]
  dsimp only
  split_ifs with unrouted
  · exact ⟨packet, rfl⟩
  · exact ipForwarding_run env fuel interface long icmp _

theorem ipChecks_run (packet : List UInt8) :
    ipChecks packet.length packet = some (Router.ipChecks packet, packet) := by
  unfold ipChecks Router.ipChecks
  by_cases long : 34 ≤ packet.length
  · rw [if_neg (Nat.not_lt.2 long), load_bind (by omega), load_bind (by omega)]
    by_cases sound : cksum (ipHeader packet) = ipSum packet
    · rw [if_pos sound, load_bind (by omega)]
      by_cases icmp : ipP packet = ipProtocolIcmp
      · rw [if_pos icmp]
        by_cases short : packet.length < 70
        · rw [if_pos short, pure_run]
          simp [icmp, short]
        · rw [if_neg short, load_bind (by omega), load_bind (by omega), pure_run]
          simp [icmp, sound, long, Nat.not_lt.1 short]
      · rw [if_neg icmp, pure_run]
        simp [icmp, sound, long]
    · rw [if_neg sound, pure_run]
      simp [sound]
  · rw [if_pos (Nat.lt_of_not_le long), pure_run]
    simp [long]

theorem long_of_ipChecks (sound : Router.ipChecks packet = true) :
    34 ≤ packet.length ∧ (ipP packet = ipProtocolIcmp → 70 ≤ packet.length) := by
  simp only [Router.ipChecks, Bool.and_eq_true, Bool.or_eq_true, decide_eq_true_eq, bne_iff_ne,
    beq_iff_eq] at sound
  exact ⟨sound.1.1, fun icmp => (sound.2.resolve_left fun other => other icmp).1⟩

theorem srHandlepacket_run (header : sizeofEthernet ≤ packet.length)
    (arp : etherType packet = ethertypeArp → 42 ≤ packet.length) :
    ∃ packet', srHandlepacket env fuel c packet.length interface packet =
      some (Router.srHandlepacket env fuel c packet interface, packet') := by
  have fits : 14 ≤ packet.length := header
  unfold srHandlepacket Router.srHandlepacket
  rw [load_bind (by omega), load_bind (by omega), load_bind (by omega),
    if_neg (Nat.not_lt.2 header)]
  by_cases isArp : etherType packet = ethertypeArp
  · obtain ⟨c', packet', run, result⟩ := srHandleArpPacket_run env (c := c) (arp isArp)
    rw [if_pos isArp, if_pos isArp, bind_of_run run, result]
    exact ⟨packet', rfl⟩
  · rw [if_neg isArp, if_neg isArp]
    by_cases isIp : etherType packet = ethertypeIp
    · rw [if_pos isIp, if_pos isIp, bind_of_run (ipChecks_run packet)]
      by_cases sound : Router.ipChecks packet = true
      · obtain ⟨long, icmp⟩ := long_of_ipChecks sound
        rw [if_pos sound, if_pos sound]
        exact srHandleIpPacket_run env fuel interface long icmp
      · rw [if_neg sound, if_neg sound]
        exact ⟨packet, rfl⟩
    · rw [if_neg isIp, if_neg isIp]
      exact ⟨packet, rfl⟩

/-! ## Packets that are too short -/

theorem srHandlepacket_short (short : packet.length < sizeofEthernet) :
    srHandlepacket env fuel c packet.length interface packet = none :=
  load_bind_outside short _

theorem srHandlepacket_shortArp (header : sizeofEthernet ≤ packet.length)
    (arp : etherType packet = ethertypeArp) (short : packet.length < 42) :
    srHandlepacket env fuel c packet.length interface packet = none := by
  have fits : 14 ≤ packet.length := header
  have outside : srHandleArpPacket env c packet = none := by
    unfold srHandleArpPacket
    by_cases sender : 32 ≤ packet.length
    · rw [load_bind (by omega), load_bind_outside (by omega)]
    · rw [load_bind_outside (by omega)]
  unfold srHandlepacket
  rw [load_bind (by omega), load_bind (by omega), load_bind (by omega), if_pos arp]
  simp [bind, StateT.bind, outside]

end Runs

end OnPacket

/-! ## The condition -/

/-- Every access of the handlers to the packet lies below its length. -/
def AccessesInside (env : Env) (fuel : ℕ) (c : Call) (packet : List UInt8) (interface : Name) :
    Prop :=
  (OnPacket.srHandlepacket env fuel c packet.length interface packet).isSome

/-- The accesses lie inside exactly when the frame holds an Ethernet header and, for ARP, an ARP header
behind it. -/
theorem accessesInside_iff (env : Env) (fuel : ℕ) (c : Call) (packet : List UInt8)
    (interface : Name) :
    AccessesInside env fuel c packet interface ↔
      sizeofEthernet ≤ packet.length ∧ (etherType packet = ethertypeArp → 42 ≤ packet.length) := by
  unfold AccessesInside
  constructor
  · intro inside
    by_cases header : sizeofEthernet ≤ packet.length
    · refine ⟨header, fun arp => ?_⟩
      by_contra short
      rw [OnPacket.srHandlepacket_shortArp env fuel interface header arp
        (Nat.lt_of_not_le short)] at inside
      cases inside
    · rw [OnPacket.srHandlepacket_short env fuel interface (Nat.lt_of_not_le header)] at inside
      cases inside
  · rintro ⟨header, arp⟩
    obtain ⟨packet', run⟩ := OnPacket.srHandlepacket_run env fuel interface header arp (c := c)
    rw [run]
    rfl

/-- An Ethernet header that announces ARP, and nothing behind it. -/
def bareArp : List UInt8 := [2, 0, 0, 0, 0, 1, 2, 0, 0, 0, 0, 9, 8, 6]

theorem not_accessesInside_bareArp :
    ¬ ∀ env fuel c packet interface, packet.length ≤ 10000 →
      AccessesInside env fuel c packet interface := by
  intro claim
  have inside := claim (envAt 5) 2 (.start twoInterfaces) bareArp [101, 48] (by decide)
  unfold AccessesInside at inside
  rw [OnPacket.srHandlepacket_shortArp _ _ _ (by decide) (by decide) (by decide)] at inside
  cases inside

end ComputerNetwork.Router
