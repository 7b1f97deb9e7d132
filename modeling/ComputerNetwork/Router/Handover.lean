import ComputerNetwork.Router.Effects
import ComputerNetwork.Router.RouteSelection

/-!
# Frames handed over

`ip_forwarding` and `sr_send_icmp_packet` end by handing one frame to `sr_send_packet`, or to
`sr_arpcache_queuereq` and the request that it returns to `handle_arpreq`.  What they hand over is a
function of the router's state and the packet; this file separates it from the rest of the call.
-/

namespace ComputerNetwork.Router

open Lib

/-- A frame handed to `sr_send_packet` or to `sr_arpcache_queuereq`. -/
inductive Handover where
  | send (frame : List UInt8) (iface : Name)
  | queue (gw : UInt32) (frame : List UInt8) (iface : Option Name)
  deriving DecidableEq

namespace Handover

def frame : Handover → List UInt8
  | .send frame _ => frame
  | .queue _ frame _ => frame

/-- The frame goes on the wire or to the packets of a request.  `sr_arpcache_queuereq` leaves out a
packet that comes without an interface name. -/
def Kept : Handover → Prop
  | .send _ _ => True
  | .queue _ _ iface => iface.isSome

instance : DecidablePred Kept
  | .send _ _ => .isTrue trivial
  | .queue _ _ iface => inferInstanceAs (Decidable (iface.isSome = true))

/-- The rest of the call; `handle` is `handle_arpreq`. -/
def run (handle : ℕ → Call → Except Fault Call) (c : Call) : Handover → Except Fault Call
  | .send frame iface => .ok (srSendPacket c frame iface)
  | .queue gw frame iface =>
      let (cache, addr) := srArpcacheQueuereq c.sr.cache gw frame iface
      handle addr (c.setCache cache)

/-- The rest of a call that may have nothing to hand over. -/
def runOption (handle : ℕ → Call → Except Fault Call) (c : Call) : Option Handover → Except Fault Call
  | none => .ok c
  | some h => h.run handle c

end Handover

/-! ## ICMP messages -/

/-- What `sr_send_icmp_packet` hands over, if it finds a route; `block` is the memory that it builds
the frame in. -/
def icmpHandover (sr : SrInstance) (block : List UInt8) (destinationIp : UInt32)
    (ipPacket : List UInt8) (type code : UInt8) : Except Fault (Option Handover) :=
  if ipPacket.length < icmpDataSize then .error .outOfBounds
  else
    let unused := (List.range 4).map fun k => load8 block (38 + k)
    let data := ipPacket.take icmpDataSize
    match routeMatch sr.routingTable destinationIp with
    | none => .ok none
    | some route =>
      match getInterfaceFromIp sr.ifList route.gw with
      | none => .error .nullDeref
      | some i =>
        match srArpcacheLookup sr.cache route.gw with
        | some entry => .ok (some (.send
            (icmpFrame entry.mac i.addr i.ip destinationIp type code unused data) i.name))
        | none => .ok (some (.queue route.gw
            (icmpFrame (Mac.copy block 0) i.addr i.ip destinationIp type code unused data)
            (some i.name)))

theorem srSendIcmpPacket_eq (env : Env) (handle : ℕ → Call → Except Fault Call) (c : Call)
    (destinationIp : UInt32) (ipPacket : List UInt8) (type code : UInt8) :
    srSendIcmpPacket env handle c destinationIp ipPacket type code =
      icmpHandover c.sr (env.heap c.mallocs) destinationIp ipPacket type code >>=
        Handover.runOption handle { c with mallocs := c.mallocs + 1 } := by
  unfold srSendIcmpPacket icmpHandover
  dsimp only
  split_ifs with short
  · rfl
  · cases routeMatch c.sr.routingTable destinationIp with
    | none => rfl
    | some route =>
        dsimp only
        cases getInterfaceFromIp c.sr.ifList route.gw with
        | none => rfl
        | some i =>
            dsimp only
            cases srArpcacheLookup c.sr.cache route.gw with
            | none => rfl
            | some entry => rfl

/-! ## Packets for others -/

/-- `ip_ttl--`. -/
def decrementTtl (packet : List UInt8) : List UInt8 := splice packet 22 [ipTtl packet - 1]

/-- The end of `ip_forwarding`, for a packet whose TTL has not run out. -/
def relay (sr : SrInstance) (packet : List UInt8) (route : Option SrRt) : Except Fault Handover :=
  match route with
  | none => .error .nullDeref
  | some route =>
    match srArpcacheLookup sr.cache route.gw with
    | some entry =>
      match srGetInterface sr.ifList route.interface with
      | none => .error .nullDeref
      | some i => .ok (.send (splice (splice packet 6 i.addr.bytes) 0 entry.mac.bytes) i.name)
    | none => .ok (.queue route.gw packet none)

theorem relay_cases {sr : SrInstance} {packet : List UInt8} {route : Option SrRt} {h : Handover}
    (relayed : relay sr packet route = .ok h) : ∃ r, route = some r ∧
      ((∃ entry i, srArpcacheLookup sr.cache r.gw = some entry ∧
        srGetInterface sr.ifList r.interface = some i ∧
        h = .send (splice (splice packet 6 i.addr.bytes) 0 entry.mac.bytes) i.name) ∨
      (srArpcacheLookup sr.cache r.gw = none ∧ h = .queue r.gw packet none)) := by
  unfold relay at relayed
  cases route with
  | none => cases relayed
  | some r =>
      refine ⟨r, rfl, ?_⟩
      dsimp only at relayed
      cases cached : srArpcacheLookup sr.cache r.gw with
      | none =>
          rw [cached] at relayed
          exact Or.inr ⟨rfl, (Except.ok.inj relayed).symm⟩
      | some entry =>
          rw [cached] at relayed
          dsimp only at relayed
          cases named : srGetInterface sr.ifList r.interface with
          | none =>
              rw [named] at relayed
              cases relayed
          | some i =>
              rw [named] at relayed
              exact Or.inl ⟨entry, i, rfl, rfl, (Except.ok.inj relayed).symm⟩

/-- The frame that `sr_handle_ip_packet` forwards, if the packet is for another host, its TTL does
not run out and there is a route. -/
def forwardHandover (sr : SrInstance) (packet : List UInt8) : Option Handover :=
  if getInterfaceFromIp sr.ifList (ipDst packet) = none ∧ ipTtl (decrementTtl packet) ≠ 0 then
    (relay sr (setIpSum (decrementTtl packet))
      (routeMatch sr.routingTable (ipDst packet))).toOption
  else none

section Forwarding

variable (env : Env) (fuel : ℕ) {c : Call} {packet : List UInt8} (interface : Name)

theorem ipTtl_decrementTtl (long : 34 ≤ packet.length) :
    ipTtl (decrementTtl packet) = ipTtl packet - 1 := load8_splice_self _ (by omega)

theorem ipForwarding_eq (foreign : getInterfaceFromIp c.sr.ifList (ipDst packet) = none)
    (alive : ipTtl (decrementTtl packet) ≠ 0) (route : Option SrRt) :
    ipForwarding env fuel c packet interface route =
      relay c.sr (setIpSum (decrementTtl packet)) route >>=
        Handover.run (handleArpreq env fuel) c := by
  unfold ipForwarding relay
  rw [foreign]
  dsimp only
  rw [if_neg (show ¬ ipTtl (splice packet 22 [ipTtl packet - 1]) = 0 from alive)]
  cases route with
  | none => rfl
  | some route =>
      dsimp only
      cases srArpcacheLookup c.sr.cache route.gw with
      | none => rfl
      | some entry =>
          dsimp only
          cases srGetInterface c.sr.ifList route.interface with
          | none => rfl
          | some i => rfl

theorem forwardHandover_cases {sr : SrInstance} {h : Handover}
    (handed : forwardHandover sr packet = some h) :
    getInterfaceFromIp sr.ifList (ipDst packet) = none ∧ ipTtl (decrementTtl packet) ≠ 0 ∧
      relay sr (setIpSum (decrementTtl packet)) (routeMatch sr.routingTable (ipDst packet)) =
        .ok h := by
  unfold forwardHandover at handed
  split_ifs at handed with passes
  refine ⟨passes.1, passes.2, ?_⟩
  cases relayed : relay sr (setIpSum (decrementTtl packet))
      (routeMatch sr.routingTable (ipDst packet)) with
  | error fault => simp [relayed, Except.toOption] at handed
  | ok h' =>
      rw [relayed] at handed
      exact congrArg Except.ok (Option.some.inj handed)

theorem srHandleIpPacket_eq_run {h : Handover} (handed : forwardHandover c.sr packet = some h) :
    srHandleIpPacket env fuel c packet interface = h.run (handleArpreq env fuel) c := by
  obtain ⟨foreign, alive, relayed⟩ := forwardHandover_cases handed
  obtain ⟨route, routed, -⟩ := relay_cases relayed
  unfold srHandleIpPacket
  dsimp only
  rw [if_neg fun both => by simp [both.2] at routed, ipForwarding_eq env fuel interface foreign alive,
    relayed]
  rfl

end Forwarding

end ComputerNetwork.Router
