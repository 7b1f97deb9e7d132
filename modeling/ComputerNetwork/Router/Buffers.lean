import ComputerNetwork.Lib.Layout
import ComputerNetwork.Router.IcmpErrors

/-!
# The buffers that frames are built in

`sr_send_arp_request` and `sr_send_icmp_packet` store the fields of their headers one by one to
memory that `malloc` has returned.  The stores of an ARP request reach every byte, those of an ICMP
message leave `unused` and `next_mtu` as they were (`determined_iff`).  The buffers end up as the
frames `arpRequest` and `icmpFrame`.
-/

namespace ComputerNetwork.Router

open Lib

/-! ## Stores -/

/-- `sr_ethernet_hdr_t` and `sr_arp_hdr_t`. -/
def arpLayout : List ℕ := [6, 6, 2, 2, 2, 1, 1, 2, 6, 4, 6, 4]

/-- `sr_ethernet_hdr_t`, `sr_ip_hdr_t` (`ip_hl` and `ip_v` in one byte) and `sr_icmp_t3_hdr_t`. -/
def icmpLayout : List ℕ := [6, 6, 2, 1, 1, 2, 2, 2, 1, 1, 2, 4, 4, 1, 1, 2, 2, 2, 28]

/-- One turn of the loop of `sr_send_arp_request`. -/
def fillArp (p : List UInt8) (i : SrIf) (ip : UInt32) : List UInt8 :=
  let p := splice p 6 i.addr.bytes
  let p := splice p 12 (bytesBE16 ethertypeArp)
  let p := splice p 14 (bytesBE16 1)
  let p := splice p 16 (bytesBE16 0x0800)
  let p := splice p 18 [6]
  let p := splice p 19 [4]
  let p := splice p 20 (bytesBE16 arpOpRequest)
  let p := splice p 22 i.addr.bytes
  let p := splice p 32 [0, 0, 0, 0, 0, 0]
  let p := splice p 28 (bytesLE32 i.ip)
  splice p 38 (bytesLE32 ip)

/-- `ip_hl = 5; ip_v = 4`. -/
def setVersion (p : List UInt8) : List UInt8 :=
  let p := splice p 14 [load8 p 14 &&& 0xf0 ||| 5]
  splice p 14 [load8 p 14 &&& 0x0f ||| 0x40]

/-- `icmp_sum = 0; icmp_sum = cksum(icmp_header, sizeof(sr_icmp_t3_hdr_t))`. -/
def setIcmpT3Sum (p : List UInt8) : List UInt8 :=
  let p := splice p 36 (bytesBE16 0)
  splice p 36 (bytesBE16 (cksum ((p.drop icmpStart).take sizeofIcmp)))

/-- The stores of `sr_send_icmp_packet` in front of the search for a route. -/
def fillIcmp (block : List UInt8) (destinationIp : UInt32) (ipPacket : List UInt8)
    (type code : UInt8) : List UInt8 :=
  let p := splice block 12 (bytesBE16 ethertypeIp)
  let p := splice p 15 [0]
  let p := splice p 16 (bytesBE16 56)
  let p := splice p 18 (bytesBE16 0)
  let p := splice p 20 (bytesBE16 0x4000)
  let p := splice p 22 [64]
  let p := splice p 23 [ipProtocolIcmp]
  let p := splice p 30 (bytesLE32 destinationIp)
  let p := setVersion p
  let p := splice p 34 [type]
  let p := splice p 35 [code]
  let p := splice p 42 (ipPacket.take icmpDataSize)
  setIcmpT3Sum p

/-- The stores behind the search for the interface. -/
def addressIcmp (p : List UInt8) (i : SrIf) : List UInt8 :=
  let p := splice p 26 (bytesLE32 i.ip)
  let p := setIpSum p
  splice p 6 i.addr.bytes

/-! ## ARP requests -/

theorem fillArp_eq {p : List UInt8} (i : SrIf) (ip : UInt32) (length : p.length = 42)
    (broadcast : p.take 6 = [0xff, 0xff, 0xff, 0xff, 0xff, 0xff]) :
    fillArp p i ip = arpRequest i ip := by
  have mac : some 6 = some i.addr.bytes.length := by rw [i.addr.size]
  have start : Laid arpLayout (cut arpLayout p) p := laid_cut length
  have filled : Laid arpLayout
      [p.take 6, i.addr.bytes, bytesBE16 ethertypeArp, bytesBE16 1, bytesBE16 0x0800, [6], [4],
        bytesBE16 arpOpRequest, i.addr.bytes, bytesLE32 i.ip, [0, 0, 0, 0, 0, 0], bytesLE32 ip]
      (fillArp p i ip) :=
    (start.store 1 i.addr.bytes rfl mac).store 2 (bytesBE16 ethertypeArp) rfl rfl
      |>.store 3 (bytesBE16 1) rfl rfl
      |>.store 4 (bytesBE16 0x0800) rfl rfl
      |>.store 5 [6] rfl rfl
      |>.store 6 [4] rfl rfl
      |>.store 7 (bytesBE16 arpOpRequest) rfl rfl
      |>.store 8 i.addr.bytes rfl mac
      |>.store 10 [0, 0, 0, 0, 0, 0] rfl rfl
      |>.store 9 (bytesLE32 i.ip) rfl rfl
      |>.store 11 (bytesLE32 ip) rfl rfl
  rw [← filled.flat, broadcast]
  simp [arpRequest, bytesBE16]

/-! ## ICMP messages -/

theorem version_eq (b : UInt8) : ((b &&& 0xf0 ||| 5) &&& 0x0f ||| 0x40) = 0x45 := by
  have all : ∀ n < 256, ((UInt8.ofNat n &&& 0xf0 ||| 5) &&& 0x0f ||| 0x40) = 0x45 := by
    decide +kernel
  have byte := all b.toNat b.toNat_lt
  rwa [UInt8.ofNat_toNat] at byte

theorem setVersion_eq {p : List UInt8} (inside : 14 < p.length) :
    setVersion p = splice p 14 [0x45] := by
  unfold setVersion
  dsimp only
  rw [load8_splice_self _ inside, version_eq]
  exact splice_splice _ rfl inside.le

theorem laid_setVersion {fields : List (List UInt8)} {f : List UInt8}
    (laid : Laid icmpLayout fields f) : Laid icmpLayout (fields.set 3 [0x45]) (setVersion f) := by
  rw [setVersion_eq (by rw [laid.length]; decide)]
  exact laid.store 3 [0x45] rfl rfl

section Icmp

-- the fields of the Ethernet and of the IP header
variable {d s k v t l n o h p c a b : List UInt8}
variable {f x y z u m data : List UInt8} (destinationIp : UInt32) {type code : UInt8}

theorem laid_setIcmpT3Sum
    (laid : Laid icmpLayout
      [d, s, k, v, t, l, n, o, h, p, c, a, b, [type], [code], z, u, m, data] f) :
    Laid icmpLayout [d, s, k, v, t, l, n, o, h, p, c, a, b, [type], [code],
      bytesBE16 (cksum (icmpT3Header type code 0 (u ++ m) data)), u, m, data] (setIcmpT3Sum f) := by
  have zeroed := laid.store 15 (bytesBE16 0) rfl rfl
  have message : ((splice f 36 (bytesBE16 0)).drop icmpStart).take sizeofIcmp =
      icmpT3Header type code 0 (u ++ m) data := by
    refine (zeroed.slice 13 6 rfl rfl).trans ?_
    simp [icmpT3Header]
  have stored := zeroed.store 15
    (bytesBE16 (cksum (icmpT3Header type code 0 (u ++ m) data))) rfl rfl
  rw [← message] at stored ⊢
  exact stored

/-- The IP header of a message, with the checksum `c`. -/
def icmpIpFields (c : List UInt8) (src dst : UInt32) : List (List UInt8) :=
  [[0x45], [0], bytesBE16 56, bytesBE16 0, bytesBE16 0x4000, [64], [ipProtocolIcmp], c,
    bytesLE32 src, bytesLE32 dst]

theorem laid_setIpSum {src dst : UInt32}
    (laid : Laid icmpLayout ([d, s, k] ++ (icmpIpFields c src dst ++ [x, y, z, u, m, data])) f) :
    Laid icmpLayout ([d, s, k] ++
      (icmpIpFields (bytesBE16 (cksum (icmpIpHeader 0 src dst))) src dst ++ [x, y, z, u, m, data]))
      (setIpSum f) := by
  have zeroed := laid.store 10 (bytesBE16 0) rfl rfl
  have header : ipHeader (splice f 24 (bytesBE16 0)) = icmpIpHeader 0 src dst :=
    zeroed.slice 3 10 rfl rfl
  have stored := zeroed.store 10 (bytesBE16 (cksum (icmpIpHeader 0 src dst))) rfl rfl
  rw [← header] at stored ⊢
  exact stored

theorem laid_fillIcmp {block ipPacket : List UInt8} (type code : UInt8)
    (length : block.length = 70) (long : 28 ≤ ipPacket.length) :
    ∃ s c a u m, u ++ m = ((List.range 4).map fun k => load8 block (38 + k)) ∧
      Laid icmpLayout
        [block.take 6, s, bytesBE16 ethertypeIp, [0x45], [0], bytesBE16 56, bytesBE16 0,
          bytesBE16 0x4000, [64], [ipProtocolIcmp], c, a, bytesLE32 destinationIp, [type], [code],
          bytesBE16 (cksum (icmpT3Header type code 0 (u ++ m) (ipPacket.take icmpDataSize))), u, m,
          ipPacket.take icmpDataSize] (fillIcmp block destinationIp ipPacket type code) := by
  have quoted : some 28 = some (ipPacket.take icmpDataSize).length := by
    rw [icmpDataSize, List.length_take_of_le long]
  have start : Laid icmpLayout (cut icmpLayout block) block := laid_cut length
  have message := (start.store 2 (bytesBE16 ethertypeIp) rfl rfl
    |>.store 4 [0] rfl rfl
    |>.store 5 (bytesBE16 56) rfl rfl
    |>.store 6 (bytesBE16 0) rfl rfl
    |>.store 7 (bytesBE16 0x4000) rfl rfl
    |>.store 8 [64] rfl rfl
    |>.store 9 [ipProtocolIcmp] rfl rfl
    |>.store 12 (bytesLE32 destinationIp) rfl rfl |> laid_setVersion)
    |>.store 13 [type] rfl rfl
    |>.store 14 [code] rfl rfl
    |>.store 18 (ipPacket.take icmpDataSize) rfl quoted
  have unused : (block.drop 38).take 4 = _ := start.slice 16 2 rfl rfl
  have two : ((cut icmpLayout block).drop 16).take 2 = [_, _] := rfl
  rw [two, List.flatten_cons, List.flatten_singleton] at unused
  refine ⟨_, _, _, _, _, ?_, laid_setIcmpT3Sum message⟩
  rw [map_load8_range (by omega), unused]

theorem icmpBuffer_laid {block ipPacket : List UInt8} (type code : UInt8) (i : SrIf)
    (length : block.length = 70) (long : 28 ≤ ipPacket.length) :
    ∃ u m, u ++ m = ((List.range 4).map fun k => load8 block (38 + k)) ∧
      Laid icmpLayout ([block.take 6, i.addr.bytes, bytesBE16 ethertypeIp] ++
        (icmpIpFields (bytesBE16 (cksum (icmpIpHeader 0 i.ip destinationIp))) i.ip destinationIp ++
          [[type], [code],
            bytesBE16 (cksum (icmpT3Header type code 0 (u ++ m) (ipPacket.take icmpDataSize))),
            u, m, ipPacket.take icmpDataSize]))
        (addressIcmp (fillIcmp block destinationIp ipPacket type code) i) := by
  have mac : some 6 = some i.addr.bytes.length := by rw [i.addr.size]
  obtain ⟨s, c, a, u, m, unused, filled⟩ := laid_fillIcmp destinationIp type code length long
  have sourced := filled.store 11 (bytesLE32 i.ip) rfl rfl
  exact ⟨u, m, unused, (laid_setIpSum sourced).store 1 i.addr.bytes rfl mac⟩

theorem bytes_copy {block : List UInt8} (long : 6 ≤ block.length) :
    (Mac.copy block 0).bytes = block.take 6 := by
  have copied := map_load8_range (b := block) (i := 0) (n := 6) (by omega)
  rwa [List.drop_zero] at copied

/-- The buffer holds the frame of the model, with what was in it at the destination and at
`unused`. -/
theorem addressIcmp_fillIcmp {block ipPacket : List UInt8} (type code : UInt8) (i : SrIf)
    (length : block.length = 70) (long : 28 ≤ ipPacket.length) :
    addressIcmp (fillIcmp block destinationIp ipPacket type code) i =
      icmpFrame (Mac.copy block 0) i.addr i.ip destinationIp type code
        ((List.range 4).map fun k => load8 block (38 + k)) (ipPacket.take icmpDataSize) := by
  obtain ⟨u, m, unused, laid⟩ := icmpBuffer_laid destinationIp type code i length long
  rw [← laid.flat, ← unused, icmpFrame, bytes_copy (by omega)]
  generalize cksum (icmpIpHeader 0 i.ip destinationIp) = ipSum
  generalize cksum (icmpT3Header type code 0 (u ++ m) (ipPacket.take icmpDataSize)) = icmpSum
  simp [icmpIpFields, icmpIpHeader, icmpT3Header, bytesBE16, ipProtocolIcmp]

theorem icmpFrame_dhost (dhost dhost' shost : Mac) (src dst : UInt32) (unused data : List UInt8) :
    splice (icmpFrame dhost shost src dst type code unused data) 0 dhost'.bytes =
      icmpFrame dhost' shost src dst type code unused data := by
  rw [icmpFrame, splice, List.take_zero, List.nil_append, dhost'.size, Nat.zero_add,
    List.drop_left' dhost.size, icmpFrame]

end Icmp

/-! ## What is handed over -/

/-- Memory of the given size, with what it holds when `malloc` returns it. -/
abbrev Block (size : ℕ) := { b : List UInt8 // b.length = size }

/-- The loop of `sr_send_arp_request`.  The request is copied for each interface. -/
def arpHanded (heap : ℕ → Block 42) (ip : UInt32) : ℕ → List UInt8 → List SrIf → List Handover
  | _, _, [] => []
  | n, packet, i :: rest =>
      let packet := fillArp packet i ip
      .send (splice (heap n).1 0 packet) i.name :: arpHanded heap ip (n + 1) packet rest

/-- What `sr_send_icmp_packet` hands over, store by store. -/
def icmpHanded (sr : SrInstance) (block : List UInt8) (destinationIp : UInt32)
    (ipPacket : List UInt8) (type code : UInt8) : Except Fault (List Handover) :=
  if ipPacket.length < icmpDataSize then .error .outOfBounds
  else
    let packet := fillIcmp block destinationIp ipPacket type code
    match routeMatch sr.routingTable destinationIp with
    | none => .ok []
    | some route =>
      match getInterfaceFromIp sr.ifList route.gw with
      | none => .error .nullDeref
      | some i =>
        let packet := addressIcmp packet i
        match srArpcacheLookup sr.cache route.gw with
        | some entry => .ok [.send (splice packet 0 entry.mac.bytes) i.name]
        | none => .ok [.queue route.gw packet (some i.name)]

/-- A call that makes the router build a frame of its own. -/
inductive Origination where
  | arpRequest (ip : UInt32)
  | icmpMessage (destinationIp : UInt32) (ipPacket : List UInt8) (type code : UInt8)

/-- The size of the buffer. -/
def Origination.size : Origination → ℕ
  | .arpRequest _ => 42
  | .icmpMessage .. => 70

/-- The frames that a call hands over when `malloc` returns the blocks of `heap`. -/
def handed (sr : SrInstance) : (o : Origination) → (ℕ → Block o.size) → Except Fault (List Handover)
  | .arpRequest ip, heap =>
      .ok (arpHanded heap ip 1 (splice (heap 0).1 0 (List.replicate 6 0xff)) sr.ifList)
  | .icmpMessage destinationIp ipPacket type code, heap =>
      icmpHanded sr (heap 0).1 destinationIp ipPacket type code

/-- A handover without the destination of a frame that waits for it. -/
def Handover.settled : Handover → Handover
  | .send frame iface => .send frame iface
  | .queue gw frame iface => .queue gw (frame.drop 6) iface

/-- The bytes that are handed over do not depend on what the buffers held. -/
def Determined (sr : SrInstance) (o : Origination) : Prop :=
  ∀ heap heap' : ℕ → Block o.size,
    (handed sr o heap).map (List.map Handover.settled) =
      (handed sr o heap').map (List.map Handover.settled)

/-! ## The frames of the model -/

theorem length_arpRequest (i : SrIf) (ip : UInt32) : (arpRequest i ip).length = 42 := by
  obtain ⟨m1, m2, m3, m4, m5, m6, mac⟩ := i.addr.exists_bytes
  rw [arpRequest, mac]
  simp

/-- Each interface's request is the one of the model.  The buffer keeps its size and the broadcast
address from one turn to the next. -/
theorem arpHanded_eq (heap : ℕ → Block 42) (ip : UInt32) (ifList : List SrIf) :
    ∀ n packet, packet.length = 42 → packet.take 6 = [0xff, 0xff, 0xff, 0xff, 0xff, 0xff] →
      arpHanded heap ip n packet ifList =
        ifList.map fun i => .send (arpRequest i ip) i.name := by
  induction ifList with
  | nil => exact fun _ _ _ _ => rfl
  | cons i rest ih =>
      intro n packet length broadcast
      have size : (arpRequest i ip).length = 42 := length_arpRequest i ip
      have copied : splice (heap n).1 0 (arpRequest i ip) = arpRequest i ip := by
        rw [splice, size, Nat.zero_add, List.drop_of_length_le (heap n).2.le]
        simp
      rw [arpHanded, fillArp_eq i ip length broadcast, copied, List.map_cons,
        ih (n + 1) _ size rfl]

theorem handed_arpRequest (sr : SrInstance) (ip : UInt32) (heap : ℕ → Block 42) :
    handed sr (.arpRequest ip) heap =
      .ok (sr.ifList.map fun i => .send (arpRequest i ip) i.name) := by
  have start : (splice (heap 0).1 0 (List.replicate 6 0xff)).length = 42 :=
    (length_splice (by rw [(heap 0).2]; decide)).trans (heap 0).2
  have broadcast :
      (splice (heap 0).1 0 (List.replicate 6 0xff)).take 6 = List.replicate 6 0xff := by
    rw [splice, List.take_zero, List.nil_append, List.take_left' List.length_replicate]
  exact congrArg Except.ok (arpHanded_eq heap ip sr.ifList 1 _ start broadcast)

/-- Sending what is handed over is the call of the model. -/
theorem srSendArpRequest_eq_run (handle : ℕ → Call → Except Fault Call) (c : Call) (ip : UInt32)
    (heap : ℕ → Block 42) :
    (handed c.sr (.arpRequest ip) heap >>= List.foldlM (Handover.run handle) c) =
      .ok (srSendArpRequest c ip) := by
  rw [handed_arpRequest, srSendArpRequest]
  generalize c.sr.ifList = ifList
  induction ifList generalizing c with
  | nil => rfl
  | cons i rest ih => exact ih _

theorem icmpHanded_eq (sr : SrInstance) {block : List UInt8} (length : block.length = 70)
    (destinationIp : UInt32) (ipPacket : List UInt8) (type code : UInt8) :
    icmpHanded sr block destinationIp ipPacket type code =
      (icmpHandover sr block destinationIp ipPacket type code).map Option.toList := by
  unfold icmpHanded icmpHandover
  dsimp only
  split_ifs with short
  · rfl
  · have long : 28 ≤ ipPacket.length := Nat.not_lt.1 short
    cases routeMatch sr.routingTable destinationIp with
    | none => rfl
    | some route =>
        dsimp only
        cases getInterfaceFromIp sr.ifList route.gw with
        | none => rfl
        | some i =>
            dsimp only
            rw [addressIcmp_fillIcmp destinationIp type code i length long]
            cases srArpcacheLookup sr.cache route.gw with
            | none => rfl
            | some entry =>
                dsimp only
                rw [icmpFrame_dhost]
                rfl

/-! ## Determined frames -/

/-- An ICMP message that reaches `sr_send_packet` or `sr_arpcache_queuereq`. -/
def Origination.HandsMessage (sr : SrInstance) : Origination → Prop
  | .arpRequest _ => False
  | .icmpMessage destinationIp ipPacket _ _ => icmpDataSize ≤ ipPacket.length ∧
      ∃ route, routeMatch sr.routingTable destinationIp = some route ∧
        getInterfaceFromIp sr.ifList route.gw ≠ none

/-- `unused` and `next_mtu` in a frame that is handed over. -/
def Handover.unstored : Handover → List UInt8
  | .send frame _ => (frame.drop 38).take 4
  | .queue _ frame _ => (frame.drop 32).take 4

theorem drop_icmpFrame (dhost shost : Mac) (src dst : UInt32) (type code : UInt8)
    (unused data : List UInt8) :
    (icmpFrame dhost shost src dst type code unused data).drop 38 = unused ++ data := by
  rw [icmpFrame, ← List.drop_drop (i := 32) (j := 6), List.drop_left' dhost.size,
    ← List.drop_drop (i := 26) (j := 6), List.drop_left' shost.size]
  rfl

theorem icmpFrame_unstored (dhost shost : Mac) (src dst : UInt32) (type code : UInt8)
    (data : List UInt8) {unused : List UInt8} (size : unused.length = 4) :
    ((icmpFrame dhost shost src dst type code unused data).drop 38).take 4 = unused := by
  rw [drop_icmpFrame, List.take_left' size]

section Message

variable {sr : SrInstance} {destinationIp : UInt32} {ipPacket : List UInt8} (type code : UInt8)

/-- The bytes of a message that nothing is stored to are seen in what is handed over. -/
theorem unstored_handed (long : icmpDataSize ≤ ipPacket.length) {route : SrRt} {i : SrIf}
    (routed : routeMatch sr.routingTable destinationIp = some route)
    (own : getInterfaceFromIp sr.ifList route.gw = some i) (block : Block 70) :
    ∃ h : Handover, icmpHanded sr block.1 destinationIp ipPacket type code = .ok [h] ∧
      h.settled.unstored = (block.1.drop 38).take 4 := by
  obtain ⟨h, dhost, handed, frame, place⟩ :=
    icmpHandover_of_interface block.1 type code long routed own
  have inside : 38 + 4 ≤ block.1.length := by rw [block.2]; decide
  rw [map_load8_range inside] at frame
  have size : ((block.1.drop 38).take 4).length = 4 := by
    rw [List.length_take, List.length_drop, block.2]
    rfl
  refine ⟨h, ?_, ?_⟩
  · rw [icmpHanded_eq sr block.2, handed]
    rfl
  · have seen := icmpFrame_unstored dhost i.addr i.ip destinationIp type code
      (ipPacket.take icmpDataSize) size
    rw [← frame] at seen
    cases place with
    | inl sent =>
      rw [sent]
      exact seen
    | inr queued =>
      rw [queued, Handover.settled, Handover.unstored, List.drop_drop]
      exact seen

/-- The frame of a message that is handed over differs with its buffer. -/
theorem not_determined_icmpMessage (long : icmpDataSize ≤ ipPacket.length) {route : SrRt}
    (routed : routeMatch sr.routingTable destinationIp = some route)
    (own : getInterfaceFromIp sr.ifList route.gw ≠ none) :
    ¬ Determined sr (.icmpMessage destinationIp ipPacket type code) := by
  intro determined
  obtain ⟨i, own⟩ := Option.ne_none_iff_exists'.1 own
  let zeros : Block 70 := ⟨List.replicate 70 0, List.length_replicate⟩
  let ones : Block 70 := ⟨List.replicate 70 1, List.length_replicate⟩
  obtain ⟨h, handed, shown⟩ := unstored_handed type code long routed own zeros
  obtain ⟨h', handed', shown'⟩ := unstored_handed type code long routed own ones
  have same := determined (fun _ => zeros) fun _ => ones
  unfold Router.handed at same
  dsimp only at same
  rw [handed, handed'] at same
  have settled : h.settled = h'.settled := (List.cons.inj (Except.ok.inj same)).1
  have bytes : (zeros.1.drop 38).take 4 = (ones.1.drop 38).take 4 := by
    rw [← shown, ← shown', settled]
  exact absurd bytes (by decide)

/-- Nothing of the buffer is seen when no message is handed over. -/
theorem determined_of_not_handsMessage (o : Origination) (none : ¬ o.HandsMessage sr) :
    Determined sr o := by
  intro heap heap'
  cases o with
  | arpRequest ip =>
      have same := (handed_arpRequest sr ip heap).trans (handed_arpRequest sr ip heap').symm
      exact congrArg _ same
  | icmpMessage destinationIp ipPacket type code =>
      unfold handed icmpHanded
      dsimp only
      split_ifs with short
      · rfl
      · cases routed : routeMatch sr.routingTable destinationIp with
        | none => rfl
        | some route =>
            have own : getInterfaceFromIp sr.ifList route.gw = Option.none := by
              by_contra own
              exact none ⟨Nat.not_lt.1 short, route, routed, own⟩
            simp only [own]

end Message

/-- The bytes that are handed over are determined by the router's state and the input exactly when
they are not those of an ICMP message. -/
theorem determined_iff (sr : SrInstance) (o : Origination) :
    Determined sr o ↔ ¬ o.HandsMessage sr := by
  refine ⟨fun determined hands => ?_, determined_of_not_handsMessage o⟩
  cases o with
  | arpRequest ip => exact hands
  | icmpMessage destinationIp ipPacket type code =>
      obtain ⟨long, route, routed, own⟩ := hands
      exact not_determined_icmpMessage type code long routed own determined

/-- The time exceeded message for a packet from 192.168.0.2. -/
theorem not_determined_unroutable : ¬ ∀ sr o, Determined sr o := by
  intro claim
  have routed : routeMatch twoInterfaces.routingTable 0x0200a8c0 =
      some ⟨0x0200a8c0, 0x0100000a, 0xffffffff, [101, 48]⟩ := by decide
  exact not_determined_icmpMessage 11 0 (by decide) routed (by decide)
    (claim twoInterfaces (.icmpMessage 0x0200a8c0 unroutable 11 0))

end ComputerNetwork.Router
