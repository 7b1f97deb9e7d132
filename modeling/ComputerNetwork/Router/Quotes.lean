import ComputerNetwork.Router.Buffers

/-!
# What ICMP errors quote

Four places call `sr_send_icmp_packet` with a pointer to the offending packet, and it copies 28 bytes
from there.  `handle_arpreq` passes the IP header of a queued packet, the other three pass the frame
with its Ethernet header in front, so that what they quote is the datagram only when the frame repeats
itself (`quotesDatagram_iff`).
-/

namespace ComputerNetwork.Router

open Lib

/-! ## Call sites -/

/-- The places that call `sr_send_icmp_packet`. -/
inductive ErrorSite where
  | netUnreachable | timeExceeded | portUnreachable | hostUnreachable
  deriving DecidableEq

namespace ErrorSite

def type : ErrorSite → UInt8
  | .netUnreachable | .portUnreachable | .hostUnreachable => 3
  | .timeExceeded => 11

def code : ErrorSite → UInt8
  | .netUnreachable | .timeExceeded => 0
  | .portUnreachable => 3
  | .hostUnreachable => 1

/-- What `ip_packet` points to, for the offending packet.  `ip_forwarding` has decremented its TTL. -/
def ipPacket (packet : List UInt8) : ErrorSite → List UInt8
  | .netUnreachable | .portUnreachable => packet
  | .timeExceeded => decrementTtl packet
  | .hostUnreachable => packet.drop sizeofEthernet

/-- The call. -/
def send (site : ErrorSite) (env : Env) (handle : ℕ → Call → Except Fault Call) (c : Call)
    (packet : List UInt8) : Except Fault Call :=
  srSendIcmpPacket env handle c (ipSrc packet) (site.ipPacket packet) site.type site.code

end ErrorSite

/-- The error that a received IP packet causes, if it does. -/
def errorSite (sr : SrInstance) (packet : List UInt8) : Option ErrorSite :=
  match getInterfaceFromIp sr.ifList (ipDst packet) with
  | none =>
    if routeMatch sr.routingTable (ipDst packet) = none then some .netUnreachable
    else if ipTtl (decrementTtl packet) = 0 then some .timeExceeded
    else none
  | some _ => if ipP packet = ipProtocolIcmp then none else some .portUnreachable

section Calls

variable (env : Env) (fuel : ℕ) {c : Call} {packet : List UInt8}

theorem ipSrc_decrementTtl (long : 34 ≤ packet.length) :
    ipSrc (decrementTtl packet) = ipSrc packet := by
  simp only [ipSrc, loadLE32, load8_decrementTtl long (show 26 ≠ 22 by decide),
    load8_decrementTtl long (show 26 + 1 ≠ 22 by decide),
    load8_decrementTtl long (show 26 + 2 ≠ 22 by decide),
    load8_decrementTtl long (show 26 + 3 ≠ 22 by decide)]

theorem srHandleIpPacket_send {site : ErrorSite} (interface : Name) (long : 34 ≤ packet.length)
    (raised : errorSite c.sr packet = some site) :
    srHandleIpPacket env fuel c packet interface =
      site.send env (handleArpreq env fuel) c packet := by
  unfold errorSite at raised
  unfold srHandleIpPacket ipForwarding
  cases own : getInterfaceFromIp c.sr.ifList (ipDst packet) with
  | none =>
      simp only [own] at raised
      split_ifs at raised with unrouted expired
      · cases raised
        simp only [unrouted, and_self, if_true]
        rfl
      · cases raised
        have gone : ipTtl (splice packet 22 [ipTtl packet - 1]) = 0 := expired
        have source : ipSrc (splice packet 22 [ipTtl packet - 1]) = ipSrc packet :=
          ipSrc_decrementTtl long
        simp only [unrouted, and_false, if_false, gone, if_true, source]
        rfl
  | some i =>
      simp only [own] at raised
      split_ifs at raised with icmp
      cases raised
      simp only [reduceCtorEq, false_and, if_false, icmp]
      rfl

theorem hostUnreachable_send (handle : ℕ → Call → Except Fault Call) {addr : ℕ} (p : SrPacket)
    (waits : c.sr.cache.find addr ≠ none) :
    hostUnreachable env handle addr c p =
      ErrorSite.hostUnreachable.send env handle c p.buf := by
  have linked : (c.sr.cache.find addr).isNone = false := by
    rw [Option.isNone_eq_false_iff]
    exact Option.isSome_iff_ne_none.2 waits
  unfold hostUnreachable
  rw [linked]
  rfl

end Calls

/-! ## Quotes -/

/-- The first 28 bytes of the datagram, filled up with zeros.  The datagram is all that the frame has
behind the Ethernet header: `ip_len` is not looked at. -/
def datagramQuote (packet : List UInt8) : List UInt8 :=
  (packet.drop sizeofEthernet ++ List.replicate icmpDataSize 0).take icmpDataSize

/-- The error quotes the datagram and the 28 bytes that are read are bytes of the packet. -/
structure QuotesDatagram (site : ErrorSite) (packet : List UInt8) : Prop where
  inside : icmpDataSize ≤ (site.ipPacket packet).length
  built : ∀ (block : Block 70) (destinationIp : UInt32),
    ((fillIcmp block.1 destinationIp (site.ipPacket packet) site.type site.code).drop 42).take
      icmpDataSize = datagramQuote packet
  handed : ∀ sr block destinationIp h,
    icmpHandover sr block destinationIp (site.ipPacket packet) site.type site.code = .ok (some h) →
    h.frame.drop 42 = datagramQuote packet

/-- The condition: a queued packet has the 28 bytes, a frame has at each of its first bytes the byte
of the datagram. -/
def Repeats (site : ErrorSite) (packet : List UInt8) : Prop :=
  match site with
  | .hostUnreachable => 42 ≤ packet.length
  | _ => ∀ k < icmpDataSize, load8 (site.ipPacket packet) k = load8 packet (sizeofEthernet + k)

/-! ## The data of an error -/

section Data

variable {packet : List UInt8}

theorem datagramQuote_eq_iff {data : List UInt8} (size : data.length = icmpDataSize) :
    data = datagramQuote packet ↔
      ∀ k < icmpDataSize, load8 data k = load8 packet (sizeofEthernet + k) := by
  have quote : ∀ k < icmpDataSize,
      load8 (datagramQuote packet) k = load8 packet (sizeofEthernet + k) := by
    intro k small
    rw [datagramQuote, load8_take _ small, ← load8_drop]
    simp only [load8, List.getD_eq_getElem?_getD]
    by_cases inside : k < (packet.drop sizeofEthernet).length
    · rw [List.getElem?_append_left inside]
    · have outside := Nat.not_lt.1 inside
      rw [List.getElem?_append_right outside, List.getElem?_eq_none outside,
        List.getElem?_replicate]
      split_ifs <;> rfl
  have length : (datagramQuote packet).length = icmpDataSize := by
    rw [datagramQuote, List.length_take, List.length_append, List.length_replicate]
    omega
  constructor
  · rintro same k small
    rw [same, quote k small]
  · intro bytes
    apply List.ext_getElem (size.trans length.symm)
    intro k here there
    have byte := (bytes k (size ▸ here)).trans (quote k (size ▸ here)).symm
    simpa [load8, List.getD_eq_getElem?_getD, List.getElem?_eq_getElem here,
      List.getElem?_eq_getElem there] using byte

/-- The 28 bytes that are copied are those that are sent. -/
theorem data_fillIcmp {block ipPacket : List UInt8} (destinationIp : UInt32) (type code : UInt8)
    (length : block.length = 70) (long : icmpDataSize ≤ ipPacket.length) :
    ((fillIcmp block destinationIp ipPacket type code).drop 42).take icmpDataSize =
      ipPacket.take icmpDataSize := by
  obtain ⟨s, c, a, u, m, -, laid⟩ := laid_fillIcmp destinationIp type code length long
  exact laid.field 18 rfl rfl (List.length_take_of_le long)

theorem data_handed {sr : SrInstance} {block ipPacket : List UInt8} {destinationIp : UInt32}
    {type code : UInt8} {h : Handover}
    (handed : icmpHandover sr block destinationIp ipPacket type code = .ok (some h)) :
    h.frame.drop 42 = ipPacket.take icmpDataSize := by
  have long := long_of_icmpHandover block type code handed
  cases routed : routeMatch sr.routingTable destinationIp with
  | none =>
      have enough : ¬ ipPacket.length < icmpDataSize := Nat.not_lt.2 long
      rw [icmpHandover, if_neg enough] at handed
      simp [routed] at handed
  | some route =>
      cases own : getInterfaceFromIp sr.ifList route.gw with
      | none =>
          rw [icmpHandover_no_interface block type code long routed own] at handed
          cases handed
      | some i =>
          obtain ⟨h', dhost, handed', frame, -⟩ :=
            icmpHandover_of_interface block type code long routed own
          obtain rfl : h' = h := Option.some.inj (Except.ok.inj (handed'.symm.trans handed))
          have four : ((List.range 4).map fun k => load8 block (38 + k)).length = 4 := by simp
          rw [frame, ← List.drop_drop (i := 4) (j := 38), drop_icmpFrame, List.drop_left' four]

end Data

/-- Where the 28 bytes are there, they have to be those of the datagram. -/
theorem quotesDatagram_iff_bytes (site : ErrorSite) {packet : List UInt8}
    (inside : icmpDataSize ≤ (site.ipPacket packet).length) :
    QuotesDatagram site packet ↔
      ∀ k < icmpDataSize, load8 (site.ipPacket packet) k = load8 packet (sizeofEthernet + k) := by
  have bytes : (site.ipPacket packet).take icmpDataSize = datagramQuote packet ↔
      ∀ k < icmpDataSize, load8 (site.ipPacket packet) k = load8 packet (sizeofEthernet + k) := by
    rw [datagramQuote_eq_iff (List.length_take_of_le inside)]
    exact forall₂_congr fun k small => by rw [load8_take _ small]
  rw [← bytes]
  constructor
  · intro quoted
    let zeros : Block 70 := ⟨List.replicate 70 0, List.length_replicate⟩
    rw [← quoted.built zeros 0, data_fillIcmp 0 _ _ zeros.2 inside]
  · intro same
    constructor
    case inside => exact inside
    case built =>
      intro block destinationIp
      rw [data_fillIcmp destinationIp _ _ block.2 inside, same]
    case handed => exact fun _ _ _ _ handed => (data_handed handed).trans same

/-- An error quotes the datagram exactly when its condition holds. -/
theorem quotesDatagram_iff (site : ErrorSite) {packet : List UInt8} (long : 34 ≤ packet.length) :
    QuotesDatagram site packet ↔ Repeats site packet := by
  have enough : icmpDataSize ≤ packet.length := (by decide : icmpDataSize ≤ 34).trans long
  cases site with
  | netUnreachable => exact quotesDatagram_iff_bytes .netUnreachable enough
  | portUnreachable => exact quotesDatagram_iff_bytes .portUnreachable enough
  | timeExceeded =>
      apply quotesDatagram_iff_bytes
      rw [ErrorSite.ipPacket, length_decrementTtl long]
      exact enough
  | hostUnreachable =>
      have size : (ErrorSite.hostUnreachable.ipPacket packet).length = packet.length - 14 :=
        List.length_drop
      constructor
      · intro quoted
        have inside := quoted.inside
        rw [size, icmpDataSize] at inside
        show 42 ≤ packet.length
        omega
      · intro enough
        have whole : 42 ≤ packet.length := enough
        refine (quotesDatagram_iff_bytes .hostUnreachable ?_).2 fun k _ =>
          load8_drop packet sizeofEthernet k
        rw [size, icmpDataSize]
        omega

theorem quotesDatagram_iff_unroutable :
    QuotesDatagram .hostUnreachable unroutable ↔ Repeats .hostUnreachable unroutable :=
  quotesDatagram_iff .hostUnreachable (by decide)

/-- The router has no route for this datagram and says so with its Ethernet header. -/
theorem not_quotesDatagram_netUnreachable : ipChecks unroutable = true ∧
    errorSite twoInterfaces unroutable = some .netUnreachable ∧
    ¬ ∀ site packet, 34 ≤ packet.length → QuotesDatagram site packet := by
  refine ⟨by decide +kernel, by decide +kernel, fun claim => ?_⟩
  have quoted := claim .netUnreachable unroutable (by decide)
  have first := (quotesDatagram_iff_bytes .netUnreachable (by decide)).1 quoted 0 (by decide)
  exact absurd first (by decide)

end ComputerNetwork.Router
