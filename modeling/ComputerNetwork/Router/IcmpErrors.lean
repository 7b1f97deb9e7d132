import ComputerNetwork.Router.Forwarding

/-!
# Routes for packets and ICMP errors

The scan for a route passes over entries with the mask zero, so a default route is never selected
(`routes_iff`).  `sr_send_icmp_packet` takes the interface for its message from the address of the
gateway and not from the route's interface name, as `ip_forwarding` does; `leavesByRoute_iff` says
when the two are the same interface.
-/

namespace ComputerNetwork.Router

open Lib

/-! ## Covered destinations -/

/-- Some entry of the table covers the address. -/
def Covered (table : List SrRt) (ip : UInt32) : Prop := ∃ rt ∈ table, rt.Covers ip

/-- There is a route: a packet to the address is passed on with it, and an ICMP message to the address
is not dropped. -/
structure Routes (sr : SrInstance) (ip : UInt32) : Prop where
  found : routeMatch sr.routingTable ip ≠ none
  forwarded : ∀ env fuel c packet interface, c.sr = sr → ipDst packet = ip →
    ∃ route, srHandleIpPacket env fuel c packet interface =
      ipForwarding env fuel c packet interface (some route)
  sent : ∀ block ipPacket type code, icmpHandover sr block ip ipPacket type code ≠ .ok none

theorem routeMatch_eq_none_iff (table : List SrRt) (ip : UInt32) :
    routeMatch table ip = none ↔ ∀ rt ∈ table, rt.Covers ip → rt.mask = 0 := by
  rw [routeMatch_eq_longestMatch, longestMatch, List.argmax_eq_none, List.filter_eq_nil_iff]
  simp

/-- A message is dropped only when there is no route for it. -/
theorem icmpHandover_ne_none {sr : SrInstance} {ip : UInt32} {block ipPacket : List UInt8}
    {type code : UInt8} (found : routeMatch sr.routingTable ip ≠ none) :
    icmpHandover sr block ip ipPacket type code ≠ .ok none := by
  obtain ⟨route, routed⟩ := Option.ne_none_iff_exists'.1 found
  unfold icmpHandover
  split_ifs
  · simp
  · simp only [routed]
    cases getInterfaceFromIp sr.ifList route.gw with
    | none => simp
    | some i =>
        cases srArpcacheLookup sr.cache route.gw with
        | none => simp
        | some entry => simp

theorem routes_of_found {sr : SrInstance} {ip : UInt32}
    (found : routeMatch sr.routingTable ip ≠ none) : Routes sr ip where
  found := found
  forwarded := by
    rintro env fuel c packet interface rfl rfl
    obtain ⟨route, routed⟩ := Option.ne_none_iff_exists'.1 found
    refine ⟨route, ?_⟩
    unfold srHandleIpPacket
    dsimp only
    rw [if_neg fun both => found both.2, routed]
  sent _ _ _ _ := icmpHandover_ne_none found

/-- There is a route for a covered address exactly when an entry with a mask other than zero covers
it. -/
theorem routes_iff (sr : SrInstance) (ip : UInt32) :
    (Covered sr.routingTable ip → Routes sr ip) ↔
      (Covered sr.routingTable ip → ∃ rt ∈ sr.routingTable, rt.Covers ip ∧ rt.mask ≠ 0) := by
  refine forall_congr' fun _ => ⟨fun routes => ?_, fun seen => routes_of_found ?_⟩
  · by_contra unseen
    refine routes.found ((routeMatch_eq_none_iff _ _).2 fun rt mem covers => ?_)
    by_contra zero
    exact unseen ⟨rt, mem, covers, zero⟩
  · obtain ⟨rt, mem, covers, nonzero⟩ := seen
    exact fun none => nonzero ((routeMatch_eq_none_iff _ _).1 none rt mem covers)

/-- A table with only a default route has no route to 8.8.8.8. -/
theorem not_routes_default :
    ¬ ∀ sr ip, Covered sr.routingTable ip → Routes sr ip := by
  intro claim
  have routes := claim (init [] [⟨0, 0x0100000a, 0, [101, 48]⟩]) 0x08080808
    ⟨_, List.mem_singleton.2 rfl, by decide⟩
  exact routes.found (by decide)

/-! ## The interface of an ICMP error -/

/-- The message has the addresses of the interface that the selected route names, and is sent there, or
queued for the route's gateway. -/
def LeavesByRoute (sr : SrInstance) (block : List UInt8) (destinationIp : UInt32)
    (ipPacket : List UInt8) (type code : UInt8) : Prop :=
  ∃ route i h, routeMatch sr.routingTable destinationIp = some route ∧
    srGetInterface sr.ifList route.interface = some i ∧
    icmpHandover sr block destinationIp ipPacket type code = .ok (some h) ∧
    (h.frame.drop 6).take 6 = i.addr.bytes ∧ ipSrc h.frame = i.ip ∧
    (h = .send h.frame i.name ∨ h = .queue route.gw h.frame (some i.name))

/-- The interface name of a handover. -/
def Handover.iface : Handover → Option Name
  | .send _ iface => some iface
  | .queue _ _ iface => iface

theorem iface_of_place {h : Handover} {gw : UInt32} {name : Name}
    (place : h = .send h.frame name ∨ h = .queue gw h.frame (some name)) : h.iface = some name := by
  cases place with
  | inl sent => rw [sent, Handover.iface]
  | inr queued => rw [queued, Handover.iface]

section Interface

variable {sr : SrInstance} (block : List UInt8) {ipPacket : List UInt8} {destinationIp : UInt32}
  (type code : UInt8) {route : SrRt} {i : SrIf}

/-- The message goes by the interface with the gateway's address. -/
theorem icmpHandover_of_interface (long : 28 ≤ ipPacket.length)
    (routed : routeMatch sr.routingTable destinationIp = some route)
    (own : getInterfaceFromIp sr.ifList route.gw = some i) :
    ∃ h dhost, icmpHandover sr block destinationIp ipPacket type code = .ok (some h) ∧
      h.frame = icmpFrame dhost i.addr i.ip destinationIp type code
        ((List.range 4).map fun k => load8 block (38 + k)) (ipPacket.take icmpDataSize) ∧
      (h = .send h.frame i.name ∨ h = .queue route.gw h.frame (some i.name)) := by
  have enough : ¬ ipPacket.length < icmpDataSize := Nat.not_lt.2 long
  unfold icmpHandover
  simp only [if_neg enough, routed, own]
  cases srArpcacheLookup sr.cache route.gw with
  | none => exact ⟨_, _, rfl, rfl, Or.inr rfl⟩
  | some entry => exact ⟨_, _, rfl, rfl, Or.inl rfl⟩

theorem icmpHandover_no_interface (long : 28 ≤ ipPacket.length)
    (routed : routeMatch sr.routingTable destinationIp = some route)
    (own : getInterfaceFromIp sr.ifList route.gw = none) :
    icmpHandover sr block destinationIp ipPacket type code = .error .nullDeref := by
  have enough : ¬ ipPacket.length < icmpDataSize := Nat.not_lt.2 long
  unfold icmpHandover
  simp only [if_neg enough, routed, own]

/-- The 28 bytes of the packet that the message quotes are read. -/
theorem long_of_icmpHandover {h : Option Handover}
    (handed : icmpHandover sr block destinationIp ipPacket type code = .ok h) :
    28 ≤ ipPacket.length := by
  by_contra short
  have few : ipPacket.length < icmpDataSize := Nat.lt_of_not_le short
  unfold icmpHandover at handed
  rw [if_pos few] at handed
  cases handed

/-- An ICMP error leaves by the interface of its route exactly when this is the interface that has the
gateway's address as its own, and there is as much of the packet as the message quotes. -/
theorem leavesByRoute_iff (routed : routeMatch sr.routingTable destinationIp = some route)
    (verified : srVerifyRoutingTable sr = 0) :
    LeavesByRoute sr block destinationIp ipPacket type code ↔
      28 ≤ ipPacket.length ∧
        getInterfaceFromIp sr.ifList route.gw = srGetInterface sr.ifList route.interface := by
  constructor
  · rintro ⟨route', i, h, routed', named, handed, shost, src, place⟩
    obtain rfl : route' = route := Option.some.inj (routed'.symm.trans routed)
    have long := long_of_icmpHandover block type code handed
    refine ⟨long, ?_⟩
    cases own : getInterfaceFromIp sr.ifList route'.gw with
    | none =>
        rw [icmpHandover_no_interface block type code long routed own] at handed
        cases handed
    | some j =>
        obtain ⟨h', dhost, handed', frame, place'⟩ :=
          icmpHandover_of_interface block type code long routed own
        obtain rfl : h' = h := Option.some.inj (Except.ok.inj (handed'.symm.trans handed))
        rw [frame, shost_icmpFrame] at shost
        rw [frame, (icmpFrame_fields ..).2.2.1] at src
        have addr : j.addr = i.addr := Mac.ext shost
        have name : j.name = i.name :=
          Option.some.inj ((iface_of_place place').symm.trans (iface_of_place place))
        rw [named]
        cases i
        cases j
        simp_all
  · rintro ⟨long, same⟩
    obtain ⟨i, named, -⟩ := exists_interface verified (routeMatch_mem routed).1
    obtain ⟨h, dhost, handed, frame, place⟩ := icmpHandover_of_interface block type code
      long routed (same.trans named)
    refine ⟨route, i, h, routed, named, handed, ?_, ?_, place⟩
    · rw [frame, shost_icmpFrame]
    · rw [frame, (icmpFrame_fields ..).2.2.1]

end Interface

theorem leavesByRoute_iff_unroutable :
    LeavesByRoute twoInterfaces [] 0x0200a8c0 unroutable 3 0 ↔
      28 ≤ unroutable.length ∧ getInterfaceFromIp twoInterfaces.ifList 0x0100000a =
        srGetInterface twoInterfaces.ifList [101, 48] :=
  have routed : routeMatch twoInterfaces.routingTable 0x0200a8c0 =
      some ⟨0x0200a8c0, 0x0100000a, 0xffffffff, [101, 48]⟩ := by decide
  leavesByRoute_iff [] 3 0 routed (by decide)

/-- A gateway that is another machine makes `sr_send_icmp_packet` read through a null pointer. -/
theorem not_leavesByRoute_foreign_gateway :
    ¬ ∀ sr block destinationIp ipPacket type code route, srVerifyRoutingTable sr = 0 →
      28 ≤ ipPacket.length → routeMatch sr.routingTable destinationIp = some route →
      LeavesByRoute sr block destinationIp ipPacket type code := by
  intro claim
  have routed : routeMatch (relayTo 0x08080808).routingTable 0x08080808 =
      some (hostRoute 0x08080808) := by decide
  obtain ⟨-, -, h, -, -, handed, -⟩ :=
    claim (relayTo 0x08080808) [] 0x08080808 unroutable 3 0 _ (by decide) (by decide) routed
  rw [icmpHandover_no_interface [] 3 0 (by decide) routed (by decide)] at handed
  cases handed

end ComputerNetwork.Router
