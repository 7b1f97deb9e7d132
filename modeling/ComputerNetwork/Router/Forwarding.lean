import ComputerNetwork.Router.Emission
import ComputerNetwork.Router.Handover

/-!
# Forwarding

What `ip_forwarding` makes of a packet for another host.  With a cache entry for the gateway the
packet leaves on the route's interface with new hardware addresses, TTL and checksum
(`ipForwarding_cached`).  The TTL is decremented before it is tested, so a packet with TTL zero goes on
with 255 (`ttlFalls_iff`).  Without a cache entry the packet is handed to `sr_arpcache_queuereq` with
the name of an interface that is NULL, and is dropped (`not_keptForGateway`).
-/

namespace ComputerNetwork.Router

open Lib

/-! ## The forwarded frame -/

section Frame

variable {f : List UInt8} {j : ℕ}

theorem length_store_ipSum (long : 26 ≤ f.length) (sum : UInt16) :
    (splice f 24 (bytesBE16 sum)).length = f.length :=
  length_splice (by rw [length_bytesBE16]; exact long)

theorem length_setIpSum (long : 26 ≤ f.length) : (setIpSum f).length = f.length := by
  have zeroed := length_store_ipSum long 0
  exact (length_store_ipSum (zeroed.symm ▸ long) _).trans zeroed

theorem load8_setIpSum (long : 26 ≤ f.length) (beside : j < 24 ∨ 26 ≤ j) :
    load8 (setIpSum f) j = load8 f j := by
  have zeroed := length_store_ipSum long 0
  unfold setIpSum
  dsimp only
  cases beside with
  | inl before => rw [load8_splice_before before (by omega), load8_splice_before before (by omega)]
  | inr behind =>
    rw [load8_splice_behind (by rw [length_bytesBE16]; exact behind) (by omega),
      load8_splice_behind (by rw [length_bytesBE16]; exact behind) (by omega)]

theorem length_decrementTtl (long : 34 ≤ f.length) : (decrementTtl f).length = f.length :=
  length_splice (by rw [List.length_singleton]; omega)

theorem load8_decrementTtl (long : 34 ≤ f.length) (beside : j ≠ 22) :
    load8 (decrementTtl f) j = load8 f j := by
  cases Nat.lt_or_gt_of_ne beside with
  | inl before => exact load8_splice_before before (by omega)
  | inr behind => exact load8_splice_behind (by rw [List.length_singleton]; omega) (by omega)

/-- The packet with the TTL decremented and the checksum made new. -/
theorem aged_spec (long : 34 ≤ f.length) :
    (setIpSum (decrementTtl f)).length = f.length ∧
      ipTtl (setIpSum (decrementTtl f)) = ipTtl f - 1 ∧
      ∀ j, j ≠ 22 → j < 24 ∨ 26 ≤ j → load8 (setIpSum (decrementTtl f)) j = load8 f j := by
  have length := length_decrementTtl long
  refine ⟨(length_setIpSum (by omega)).trans length, ?_, fun j ttl sum => ?_⟩
  · exact (load8_setIpSum (by omega) (Or.inl (by omega))).trans (ipTtl_decrementTtl long)
  · exact (load8_setIpSum (by omega) sum).trans (load8_decrementTtl long ttl)

theorem readdressed_spec (shost dhost : Mac) (long : 34 ≤ f.length) :
    (splice (splice f 6 shost.bytes) 0 dhost.bytes).length = f.length ∧
      (splice (splice f 6 shost.bytes) 0 dhost.bytes).take 6 = dhost.bytes ∧
      ∀ j, 12 ≤ j → load8 (splice (splice f 6 shost.bytes) 0 dhost.bytes) j = load8 f j := by
  have source : (splice f 6 shost.bytes).length = f.length :=
    length_splice (by rw [shost.size]; omega)
  refine ⟨(length_splice (by rw [dhost.size]; omega)).trans source, ?_, fun j behind => ?_⟩
  · have written : ((splice (splice f 6 shost.bytes) 0 dhost.bytes).drop 0).take
        dhost.bytes.length = dhost.bytes := take_drop_splice (by omega)
    rwa [List.drop_zero, dhost.size] at written
  · rw [load8_splice_behind (by rw [dhost.size]; omega) (by omega),
      load8_splice_behind (by rw [shost.size]; omega) (by omega)]

/-- Only a packet with TTL one runs out. -/
theorem ipTtl_decrementTtl_ne_zero (long : 34 ≤ f.length) (alive : ipTtl f ≠ 1) :
    ipTtl (decrementTtl f) ≠ 0 := by
  rw [ipTtl_decrementTtl long]
  exact fun zero => alive (UInt8.sub_eq_iff_eq_add.1 zero)

end Frame

theorem relay_spec {sr : SrInstance} {packet : List UInt8} {route : Option SrRt} {h : Handover}
    (long : 34 ≤ packet.length) (relayed : relay sr packet route = .ok h) :
    ipTtl h.frame = ipTtl packet ∧ h.frame.length = packet.length := by
  obtain ⟨r, -, ⟨entry, i, -, -, rfl⟩ | ⟨-, rfl⟩⟩ := relay_cases relayed
  · have frame := readdressed_spec i.addr entry.mac long
    exact ⟨frame.2.2 22 (by omega), frame.1⟩
  · exact ⟨rfl, rfl⟩

theorem forwardHandover_spec {sr : SrInstance} {packet : List UInt8} {h : Handover}
    (long : 34 ≤ packet.length) (handed : forwardHandover sr packet = some h) :
    ipTtl packet - 1 ≠ 0 ∧ ipTtl h.frame = ipTtl packet - 1 ∧ h.frame.length = packet.length := by
  obtain ⟨-, alive, relayed⟩ := forwardHandover_cases handed
  obtain ⟨length, ttl, -⟩ := aged_spec long
  have frame := relay_spec (by omega) relayed
  rw [ipTtl_decrementTtl long] at alive
  exact ⟨alive, frame.1.trans ttl, frame.2.trans length⟩

/-! ## The hop limit -/

/-- The TTL of the frame is at least one and less than that of the packet. -/
def TtlFalls (packet frame : List UInt8) : Prop :=
  1 ≤ (ipTtl frame).toNat ∧ (ipTtl frame).toNat < (ipTtl packet).toNat

/-- The packet is for another host, there is a route for it, and the gateway's hardware address and
the route's interface are known. -/
def Passable (sr : SrInstance) (packet : List UInt8) : Prop :=
  getInterfaceFromIp sr.ifList (ipDst packet) = none ∧ ∃ route entry i,
    routeMatch sr.routingTable (ipDst packet) = some route ∧
      srArpcacheLookup sr.cache route.gw = some entry ∧
      srGetInterface sr.ifList route.interface = some i

/-- Some router forwards `f` as `g`. -/
def Hop (f g : List UInt8) : Prop := ∃ sr h, forwardHandover sr f = some h ∧ h.frame = g

theorem toNat_sub_one {t : UInt8} (pos : t ≠ 0) : (t - 1).toNat + 1 = t.toNat := by
  have large : t.toNat ≠ 0 := fun zero => pos (UInt8.toNat_inj.1 zero)
  have one : (1 : UInt8) ≤ t := UInt8.le_iff_toNat_le.2 (Nat.one_le_iff_ne_zero.2 large)
  rw [UInt8.toNat_sub_of_le t 1 one]
  have unit : (1 : UInt8).toNat = 1 := rfl
  omega

/-- The packets that are forwarded at all, and as what. -/
theorem forwardHandover_of_passable {sr : SrInstance} {packet : List UInt8}
    (passable : Passable sr packet) (long : 34 ≤ packet.length) (alive : ipTtl packet - 1 ≠ 0) :
    ∃ h, forwardHandover sr packet = some h ∧ h.Kept := by
  obtain ⟨foreign, route, entry, i, routed, cached, named⟩ := passable
  refine ⟨.send (splice (splice (setIpSum (decrementTtl packet)) 6 i.addr.bytes) 0 entry.mac.bytes)
    i.name, ?_, trivial⟩
  rw [forwardHandover, if_pos ⟨foreign, by rwa [ipTtl_decrementTtl long]⟩, routed]
  simp only [relay, cached, named, Except.toOption]

theorem passable_of_kept {sr : SrInstance} {packet : List UInt8} {h : Handover}
    (handed : forwardHandover sr packet = some h) (kept : h.Kept) : Passable sr packet := by
  obtain ⟨foreign, -, relayed⟩ := forwardHandover_cases handed
  obtain ⟨r, routed, ⟨entry, i, cached, named, -⟩ | ⟨-, rfl⟩⟩ := relay_cases relayed
  · exact ⟨foreign, r, entry, i, routed, cached, named⟩
  · cases kept

theorem ttlFalls_of_ne_zero {sr : SrInstance} {packet : List UInt8} {h : Handover}
    (long : 34 ≤ packet.length) (pos : ipTtl packet ≠ 0)
    (handed : forwardHandover sr packet = some h) : TtlFalls packet h.frame := by
  obtain ⟨alive, ttl, -⟩ := forwardHandover_spec long handed
  have here := toNat_sub_one pos
  have there := toNat_sub_one alive
  rw [TtlFalls, ttl]
  omega

/-! ## Chains of routers -/

/-- A route to `dst` alone. -/
def hostRoute (dst : UInt32) : SrRt := ⟨0xffffffff &&& dst, 0x0100000a, 0xffffffff, [101, 48]⟩

/-- The hardware address of the gateway of `hostRoute`. -/
def gatewayMac : Mac := ⟨[2, 0, 0, 0, 0, 5], rfl⟩

/-- A router that knows how to forward packets to `dst`. -/
def relayTo (dst : UInt32) : SrInstance where
  ifList := [⟨[101, 48], ⟨[2, 0, 0, 0, 0, 6], rfl⟩, dst + 1⟩]
  routingTable := [hostRoute dst]
  cache := (srArpcacheInsert srArpcacheInit gatewayMac 0x0100000a 0).1

theorem passable_relayTo (packet : List UInt8) : Passable (relayTo (ipDst packet)) packet := by
  have foreign : getInterfaceFromIp (relayTo (ipDst packet)).ifList (ipDst packet) = none :=
    List.find?_eq_none.2 fun i mem => by
      rw [List.mem_singleton.1 mem]
      simp
  have cached : srArpcacheLookup (srArpcacheInsert srArpcacheInit gatewayMac 0x0100000a 0).1
      0x0100000a = some ⟨gatewayMac, 0x0100000a, 0, true⟩ := by decide
  refine ⟨foreign, hostRoute (ipDst packet), _, _, ?_, cached, rfl⟩
  exact congrArg Prod.snd (if_pos ⟨rfl, show 0 < (0xffffffff : UInt32).toNat by decide⟩)

theorem exists_hop {f : List UInt8} (long : 34 ≤ f.length) (alive : ipTtl f - 1 ≠ 0) :
    ∃ g, Hop f g ∧ 34 ≤ g.length ∧ ipTtl g = ipTtl f - 1 := by
  obtain ⟨h, handed, -⟩ := forwardHandover_of_passable (passable_relayTo f) long alive
  obtain ⟨-, ttl, length⟩ := forwardHandover_spec long handed
  exact ⟨h.frame, ⟨_, h, handed, rfl⟩, by omega, ttl⟩

/-- A packet can be forwarded until its TTL is one. -/
theorem exists_chain (n : ℕ) {f : List UInt8} (long : 34 ≤ f.length)
    (ttl : (ipTtl f).toNat = n + 1) :
    ∃ frames, List.IsChain Hop (f :: frames) ∧ frames.length = n := by
  induction n generalizing f with
  | zero => exact ⟨[], List.isChain_singleton f, rfl⟩
  | succ n ih =>
      have pos : ipTtl f ≠ 0 := fun zero => by simp [zero] at ttl
      have less := toNat_sub_one pos
      obtain ⟨g, hop, long', ttl'⟩ := exists_hop long fun zero => by
        rw [zero] at less
        have none : (0 : UInt8).toNat = 0 := rfl
        omega
      obtain ⟨frames, chain, length⟩ := ih long' (by rw [ttl']; omega)
      exact ⟨g :: frames, List.isChain_cons_cons.2 ⟨hop, chain⟩, by rw [List.length_cons, length]⟩

/-- From a packet with a TTL there are less hops than the TTL says. -/
theorem length_lt_of_chain {frames : List (List UInt8)} {f : List UInt8} (long : 34 ≤ f.length)
    (pos : ipTtl f ≠ 0) (chain : List.IsChain Hop (f :: frames)) :
    frames.length < (ipTtl f).toNat := by
  induction frames generalizing f with
  | nil => exact Nat.pos_of_ne_zero fun zero => pos (UInt8.toNat_inj.1 zero)
  | cons g rest ih =>
      obtain ⟨⟨sr, h, handed, rfl⟩, chain⟩ := List.isChain_cons_cons.1 chain
      have length := (forwardHandover_spec long handed).2.2
      have falls := ttlFalls_of_ne_zero long pos handed
      have fewer := ih (by omega) (fun zero => by simp [TtlFalls, zero] at falls) chain
      rw [List.length_cons]
      have less := falls.2
      omega

/-- The law of the hop limit holds of a packet exactly when its TTL is not zero or it does not
pass. -/
theorem ttlFalls_iff (sr : SrInstance) {packet : List UInt8} (long : 34 ≤ packet.length) :
    ((∀ h, forwardHandover sr packet = some h → h.Kept → TtlFalls packet h.frame) ↔
      ipTtl packet ≠ 0 ∨ ¬ Passable sr packet) ∧
    (ipTtl packet ≠ 0 → ∀ h, forwardHandover sr packet = some h → TtlFalls packet h.frame) ∧
    ((∀ frames, List.IsChain Hop (packet :: frames) → frames.length ≤ 254) ↔ ipTtl packet ≠ 0) := by
  refine ⟨⟨fun law => ?_, ?_⟩, fun pos h handed => ttlFalls_of_ne_zero long pos handed, ?_, ?_⟩
  · by_contra both
    obtain ⟨zero, passable⟩ := not_or.1 both
    have zero := not_not.1 zero
    obtain ⟨h, handed, kept⟩ := forwardHandover_of_passable (not_not.1 passable) long
      (by rw [zero]; decide)
    have falls := law h handed kept
    simp [TtlFalls, zero] at falls
  · rintro (pos | closed) h handed kept
    · exact ttlFalls_of_ne_zero long pos handed
    · exact absurd (passable_of_kept handed kept) closed
  · -- with TTL zero there is a hop to a packet with TTL 255
    intro bound zero
    obtain ⟨g, hop, long', ttl⟩ := exists_hop long (by rw [zero]; decide)
    obtain ⟨frames, chain, length⟩ := exists_chain 254 long' (by rw [ttl, zero]; rfl)
    have few := bound (g :: frames) (List.isChain_cons_cons.2 ⟨hop, chain⟩)
    rw [List.length_cons] at few
    omega
  · intro pos frames chain
    have few := length_lt_of_chain long pos chain
    have top := (ipTtl packet).toNat_lt
    omega

theorem ttlFalls_iff_unroutable :
    (ipTtl unroutable ≠ 0 → ∀ h, forwardHandover twoInterfaces unroutable = some h →
      TtlFalls unroutable h.frame) ∧
    ((∀ frames, List.IsChain Hop (unroutable :: frames) → frames.length ≤ 254) ↔
      ipTtl unroutable ≠ 0) :=
  (ttlFalls_iff twoInterfaces (by decide)).2

/-- A datagram to 8.8.8.8 with TTL zero; its checksum field is `0xffff`, so that the router accepts
it. -/
def ttlZero : List UInt8 :=
  [2, 0, 0, 0, 0, 1, 2, 0, 0, 0, 0, 9, 8, 0,
    0x45, 0, 0, 20, 0xea, 0x1f, 0, 0, 0, 17, 0xff, 0xff, 192, 168, 0, 2, 8, 8, 8, 8]

theorem not_ttlFalls_ttlZero : ipChecks ttlZero = true ∧
    ¬ ∀ sr packet, 34 ≤ packet.length → ∀ h, forwardHandover sr packet = some h → h.Kept →
      TtlFalls packet h.frame := by
  refine ⟨by decide, fun law => ?_⟩
  obtain ⟨h, handed, kept⟩ :=
    forwardHandover_of_passable (passable_relayTo ttlZero) (by decide) (by decide)
  have falls := law _ ttlZero (by decide) h handed kept
  exact Nat.not_lt_zero _ falls.2

/-! ## The cache has the gateway -/

/-- The header of the length that `ip_hl` says. -/
def headerBytes (f : List UInt8) : List UInt8 := (f.drop 14).take (4 * (ipHl f).toNat)

/-- In a verified table every route has its interface. -/
theorem exists_interface {sr : SrInstance} {route : SrRt} (verified : srVerifyRoutingTable sr = 0)
    (mem : route ∈ sr.routingTable) :
    ∃ i, srGetInterface sr.ifList route.interface = some i ∧ i.name = route.interface := by
  unfold srVerifyRoutingTable at verified
  split_ifs at verified with empty
  have named := List.filter_eq_nil_iff.1 (List.length_eq_zero_iff.1 verified) route mem
  simp only [Bool.not_eq_true', Bool.not_eq_false, List.any_eq_true, decide_eq_true_eq] at named
  obtain ⟨j, own, same⟩ := named
  have found : (srGetInterface sr.ifList route.interface).isSome :=
    List.find?_isSome.2 ⟨j, own, by simpa using same⟩
  obtain ⟨i, found⟩ := Option.isSome_iff_exists.1 found
  exact ⟨i, found, by simpa using List.find?_some found⟩

/-- A frame from the address of an interface goes on the wire there. -/
theorem srSendPacket_transmit {c : Call} {frame : List UInt8} {i : SrIf} {name : Name}
    (named : srGetInterface c.sr.ifList name = some i)
    (shost : sizeofEthernet ≤ frame.length ∧ (frame.drop 6).take 6 = i.addr.bytes) :
    srSendPacket c frame i.name = c.emit (.transmit i.name frame) := by
  have same : i.name = name := by simpa using List.find?_some named
  rw [srSendPacket_eq, sendEvent_of_matches ⟨shost.1, i, same.symm ▸ named, shost.2⟩]

/-- A packet for which the cache has the gateway leaves as one frame on the route's interface, with
new hardware addresses, TTL and checksum, and the router's state stays. -/
theorem ipForwarding_cached (env : Env) (fuel : ℕ) {c : Call} {packet : List UInt8}
    (interface : Name) {route : SrRt} {entry : SrArpentry} (long : 34 ≤ packet.length)
    (options : ipHl packet = 5) (foreign : getInterfaceFromIp c.sr.ifList (ipDst packet) = none)
    (mem : route ∈ c.sr.routingTable) (alive : ipTtl packet ≠ 1)
    (cached : srArpcacheLookup c.sr.cache route.gw = some entry)
    (verified : srVerifyRoutingTable c.sr = 0) :
    ∃ i frame, srGetInterface c.sr.ifList route.interface = some i ∧ i.name = route.interface ∧
      ipForwarding env fuel c packet interface (some route) = .ok (c.emit (.transmit i.name frame)) ∧
      frame.length = packet.length ∧ ipTtl frame = ipTtl packet - 1 ∧
      (∀ j, 12 ≤ j → j ≠ 22 → j < 24 ∨ 26 ≤ j → load8 frame j = load8 packet j) ∧
      frame.take 6 = entry.mac.bytes ∧ (frame.drop 6).take 6 = i.addr.bytes ∧
      residue (wordSum (headerBytes frame)) = 0xffff := by
  obtain ⟨i, found, named⟩ := exists_interface verified mem
  have alive' := ipTtl_decrementTtl_ne_zero long alive
  obtain ⟨length, ttl, rest⟩ := aged_spec long
  obtain ⟨length', dhost, rest'⟩ := readdressed_spec (f := setIpSum (decrementTtl packet)) i.addr
    entry.mac (by omega)
  obtain ⟨-, shost⟩ := shost_forwarded i entry.mac (ipTtl packet - 1) long
  obtain ⟨-, valid⟩ := sound_forwarded (ipTtl packet - 1) i.addr entry.mac long
  refine ⟨i, splice (splice (setIpSum (decrementTtl packet)) 6 i.addr.bytes) 0 entry.mac.bytes,
    found, named, ?_, length'.trans length, (rest' 22 (by omega)).trans ttl,
    fun j ether age sum => (rest' j ether).trans (rest j age sum), dhost, shost, ?_⟩
  · rw [ipForwarding_eq env fuel interface foreign alive']
    simp only [relay, cached, found]
    refine congrArg Except.ok (srSendPacket_transmit found ⟨?_, shost⟩)
    rw [length', length]
    exact (show sizeofEthernet ≤ 34 by decide).trans long
  · have hl : ipHl (splice (splice (setIpSum (decrementTtl packet)) 6 i.addr.bytes) 0
        entry.mac.bytes) = 5 := by
      rw [← options]
      exact congrArg (· &&& 0x0f) ((rest' 14 (by omega)).trans (rest 14 (by omega) (by omega)))
    rw [headerBytes, hl]
    exact valid

theorem ipForwarding_cached_relayTo : ∃ (i : SrIf) (frame : List UInt8),
    ipForwarding (envAt 0) 0 (.start (relayTo 0x08080808)) unroutable [101, 48]
        (some (hostRoute 0x08080808)) =
      .ok ((Call.start (relayTo 0x08080808)).emit (.transmit i.name frame)) ∧
      frame.length = 34 ∧ ipTtl frame = 63 ∧ residue (wordSum (headerBytes frame)) = 0xffff := by
  have long : 34 ≤ unroutable.length := by decide
  have cached : srArpcacheLookup (Call.start (relayTo 0x08080808)).sr.cache
      (hostRoute 0x08080808).gw = some ⟨gatewayMac, 0x0100000a, 0, true⟩ := by decide
  obtain ⟨i, frame, -, -, sent, length, ttl, -, -, -, valid⟩ :=
    ipForwarding_cached (envAt 0) 0 [101, 48] long (by decide) (by decide)
      (List.mem_singleton.2 rfl) (by decide) cached (by decide)
  exact ⟨i, frame, sent, length, ttl, valid⟩

/-! ## The cache does not have the gateway -/

/-- `now_interface`, whose `name` goes to `sr_arpcache_queuereq` with a packet that misses the cache. -/
def nowInterface (c : Call) (packet : List UInt8) : Option SrIf :=
  getInterfaceFromIp c.sr.ifList (ipDst packet)

/-- The interface whose name is taken is not NULL, and after the call the request for the gateway, the
one that `sr_arpcache_queuereq` returns, has a copy of the packet with the route's interface. -/
def KeptForGateway (env : Env) (fuel : ℕ) (c : Call) (packet : List UInt8) (interface : Name)
    (route : SrRt) : Prop :=
  nowInterface c packet ≠ none ∧
    ∃ c' req, ipForwarding env fuel c packet interface (some route) = .ok c' ∧
      c'.sr.cache.find (c.sr.cache.requestFor route.gw).2 = some req ∧ req.ip = route.gw ∧
      ⟨setIpSum (decrementTtl packet), route.interface⟩ ∈ req.packets

/-- The packets that wait for the hardware address of `gw`. -/
def SrArpcache.waiting (cache : SrArpcache) (gw : UInt32) : List SrPacket :=
  ((cache.findIp gw).map SrArpreq.packets).getD []

section Miss

variable {env : Env} {fuel : ℕ} {c c' : Call} {addr : ℕ} {req : SrArpreq}

theorem find_update {cache : SrArpcache} (found : cache.find addr = some req)
    (f : SrArpreq → SrArpreq) (still : ∀ r, (f r).addr = r.addr) :
    (cache.update addr f still).find addr = some (f req) := by
  obtain ⟨rfl, pre, rest, queue⟩ := exists_queue found
  rw [find_eq_some_iff, update_requests queue]
  exact ⟨List.mem_append_right _ (List.mem_cons_self ..), still req⟩

theorem find_destroy (cache : SrArpcache) (addr : ℕ) : (srArpreqDestroy cache addr).find addr = none := by
  cases found : cache.find addr with
  | none =>
      have absent := List.find?_eq_none.1 found
      exact List.find?_eq_none.2 fun r mem => absent r (List.mem_of_mem_eraseP mem)
  | some req =>
      obtain ⟨rfl, pre, rest, queue⟩ := exists_queue found
      obtain ⟨-, before, behind⟩ := find_eq queue
      refine List.find?_eq_none.2 fun r mem => ?_
      rw [destroy_requests queue] at mem
      cases List.mem_append.1 mem with
      | inl mem => simpa using before r mem
      | inr mem => simpa using behind r mem

/-- A request that `handle_arpreq` leaves in the queue was there before, with the same packets. -/
theorem packets_handleArpreq {req' : SrArpreq} (run : handleArpreq env fuel addr c = .ok c')
    (still : c'.sr.cache.find addr = some req') :
    ∃ req, c.sr.cache.find addr = some req ∧ req.packets = req'.packets := by
  cases fuel with
  | zero => cases run
  | succ fuel =>
      obtain ⟨req, found, ⟨-, rfl⟩ | ⟨-, -, rfl⟩ | ⟨-, -, c₁, last, -, -, rfl⟩⟩ :=
        handleArpreq_cases run
      · exact ⟨req, found, by rw [Option.some.inj (found.symm.trans still)]⟩
      · refine ⟨req, found, ?_⟩
        unfold askAgain at still
        dsimp only at still
        rw [srSendArpRequest_eq] at still
        have asked := find_update found (fun r =>
          { r with sent := env.time c.timeReads, timesSent := r.timesSent + 1 }) fun _ => rfl
        rw [← Option.some.inj (asked.symm.trans still)]
      · have gone := find_destroy c₁.sr.cache addr
        exact absurd (gone.symm.trans still) (by simp)

/-- The request that `sr_arpcache_queuereq` returns has the packets that waited before. -/
theorem packets_requestFor {cache : SrArpcache} {gw : UInt32}
    (found : (cache.requestFor gw).1.find (cache.requestFor gw).2 = some req) :
    req.packets = cache.waiting gw := by
  unfold SrArpcache.requestFor at found
  cases waiting : cache.findIp gw with
  | none =>
      rw [waiting] at found
      have pushed : (cache.push gw).find cache.freshAddr = some ⟨cache.freshAddr, gw, 0, 0, []⟩ :=
        List.find?_cons_of_pos (by simp)
      rw [← Option.some.inj (pushed.symm.trans found), SrArpcache.waiting, waiting]
      rfl
  | some r =>
      rw [waiting] at found
      obtain ⟨pre, rest, queue⟩ := List.append_of_mem (List.mem_of_find?_eq_some waiting)
      rw [← Option.some.inj ((find_eq queue).1.symm.trans found), SrArpcache.waiting, waiting]
      rfl

end Miss

section Kept

variable {env : Env} {c : Call} {packet : List UInt8} {route : SrRt}

/-- On a miss `ip_forwarding` makes or finds the request and passes it to `handle_arpreq`. -/
theorem ipForwarding_miss (env : Env) (fuel : ℕ) (interface : Name) (long : 34 ≤ packet.length)
    (foreign : getInterfaceFromIp c.sr.ifList (ipDst packet) = none) (alive : ipTtl packet ≠ 1)
    (miss : srArpcacheLookup c.sr.cache route.gw = none) :
    ipForwarding env fuel c packet interface (some route) =
      let (cache, addr) := srArpcacheQueuereq c.sr.cache route.gw (setIpSum (decrementTtl packet))
        ((nowInterface c packet).map SrIf.name)
      handleArpreq env fuel addr (c.setCache cache) := by
  have alive' := ipTtl_decrementTtl_ne_zero long alive
  rw [ipForwarding_eq env fuel interface foreign alive', nowInterface, foreign]
  simp only [relay, miss]
  rfl

/-- A packet that misses the ARP cache is not kept: the interface whose name is taken is NULL on every
such call, and the request for the gateway has no other packets afterwards than those that waited
before. -/
theorem not_keptForGateway (env : Env) (fuel : ℕ) (interface : Name) (long : 34 ≤ packet.length)
    (foreign : getInterfaceFromIp c.sr.ifList (ipDst packet) = none) (alive : ipTtl packet ≠ 1)
    (miss : srArpcacheLookup c.sr.cache route.gw = none) :
    ¬ KeptForGateway env fuel c packet interface route ∧
      ∀ c' req, ipForwarding env fuel c packet interface (some route) = .ok c' →
        c'.sr.cache.find (c.sr.cache.requestFor route.gw).2 = some req →
        req.packets = c.sr.cache.waiting route.gw := by
  refine ⟨fun kept => kept.1 foreign, fun c' req run still => ?_⟩
  rw [ipForwarding_miss env fuel interface long foreign alive miss, nowInterface, foreign] at run
  obtain ⟨req', found, same⟩ := packets_handleArpreq run still
  rw [← same]
  exact packets_requestFor found

end Kept

/-- A datagram from 8.8.8.8 to 192.168.0.2. -/
def routable : List UInt8 :=
  [2, 0, 0, 0, 0, 1, 2, 0, 0, 0, 0, 9, 8, 0,
    0x45, 0, 0, 20, 0xaa, 0x1f, 0, 0, 64, 17, 0xff, 0xff, 8, 8, 8, 8, 192, 168, 0, 2]

theorem not_keptForGateway_routable :
    ¬ KeptForGateway (envAt 0) 1 (.start twoInterfaces) routable [101, 48]
        ⟨0x0200a8c0, 0x0100000a, 0xffffffff, [101, 48]⟩ ∧
      ∀ c' req, ipForwarding (envAt 0) 1 (.start twoInterfaces) routable [101, 48]
          (some ⟨0x0200a8c0, 0x0100000a, 0xffffffff, [101, 48]⟩) = .ok c' →
        c'.sr.cache.find (twoInterfaces.cache.requestFor 0x0100000a).2 = some req →
        req.packets = twoInterfaces.cache.waiting 0x0100000a :=
  not_keptForGateway (envAt 0) 1 [101, 48] (by decide) (by decide) (by decide) (by decide)

/-- The first packet for a gateway is lost. -/
theorem not_keptForGateway_first : ipChecks routable = true ∧
    ¬ ∀ env sr packet interface route, srVerifyRoutingTable sr = 0 → 34 ≤ packet.length →
      getInterfaceFromIp sr.ifList (ipDst packet) = none →
      routeMatch sr.routingTable (ipDst packet) = some route → ipTtl packet ≠ 1 →
      srArpcacheLookup sr.cache route.gw = none →
      ∃ fuel, KeptForGateway env fuel (.start sr) packet interface route := by
  refine ⟨by decide, fun claim => ?_⟩
  obtain ⟨fuel, kept⟩ := claim (envAt 0) twoInterfaces routable [101, 48]
    ⟨0x0200a8c0, 0x0100000a, 0xffffffff, [101, 48]⟩ (by decide) (by decide) (by decide) (by decide)
    (by decide) (by decide)
  exact kept.1 (by decide)

end ComputerNetwork.Router
