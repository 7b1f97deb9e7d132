import ComputerNetwork.Lib.Run
import ComputerNetwork.Router.ArpCache

/-!
# The router

The handlers of `sr_router.c` and `sr_arpcache.c`, and the machine whose steps are whole handler
calls: a received frame (`sr_handlepacket`) or one round of the timeout thread.  A call reads the
clock and fresh heap memory, whose contents `Env` supplies, and leaves a log of what it did.  It has
no result when it accesses memory it must not access (`Fault`) or when `handle_arpreq` and
`sr_send_icmp_packet` call each other more than `fuel` times.

Debug output and the packet log are left out.
-/

namespace ComputerNetwork.Router

open Lib

/-! ## The state of a call -/

/-- `struct sr_instance`. -/
structure SrInstance where
  ifList : List SrIf
  routingTable : List SrRt
  cache : SrArpcache
  deriving DecidableEq

inductive Event where
  /-- `sr_send_packet` put the frame on the wire. -/
  | transmit (iface : Name) (frame : List UInt8)
  /-- `sr_send_packet` returned without sending the frame. -/
  | refused (iface : Name) (frame : List UInt8)
  /-- `handle_arpreq` called `sr_send_arp_request` for the request at `addr`. -/
  | asked (addr now : ℕ)
  /-- `handle_arpreq` destroyed the request at `addr`. -/
  | gaveUp (addr now : ℕ)
  /-- `sr_arpcache_insert` learned the hardware address of `ip`. -/
  | learned (ip : UInt32) (mac : Mac)
  /-- The request left `cache.requests`. -/
  | left (req : SrArpreq)
  deriving DecidableEq

inductive Fault where
  | outOfBounds | nullDeref | useAfterFree | outOfFuel
  deriving DecidableEq

/-- What the environment shows to a call: the successive values of `time(NULL)` and the contents of
the blocks that `malloc` returns. -/
structure Env where
  time : ℕ → ℕ
  heap : ℕ → List UInt8

/-- A handler call under way. -/
structure Call where
  sr : SrInstance
  timeReads : ℕ
  mallocs : ℕ
  log : List Event
  deriving DecidableEq

namespace Call

def start (sr : SrInstance) : Call := { sr, timeReads := 0, mallocs := 0, log := [] }

/-- `time(NULL)`. -/
def time (env : Env) (c : Call) : ℕ × Call :=
  (env.time c.timeReads, { c with timeReads := c.timeReads + 1 })

def setCache (c : Call) (cache : SrArpcache) : Call := { c with sr := { c.sr with cache } }

def emit (c : Call) (e : Event) : Call := { c with log := c.log ++ [e] }

end Call

/-! ## Sending -/

/-- `sr_send_packet`: frames without an Ethernet header, for an unknown interface or with another
source address than the interface's are refused. -/
def srSendPacket (c : Call) (buf : List UInt8) (iface : Name) : Call :=
  if buf.length < sizeofEthernet then c.emit (.refused iface buf)
  else match srGetInterface c.sr.ifList iface with
    | none => c.emit (.refused iface buf)
    | some i =>
        if (buf.drop 6).take 6 = i.addr.bytes then c.emit (.transmit iface buf)
        else c.emit (.refused iface buf)

/-- The ARP request that `sr_send_arp_request` sends from one interface. -/
def arpRequest (i : SrIf) (ip : UInt32) : List UInt8 :=
  [0xff, 0xff, 0xff, 0xff, 0xff, 0xff] ++ i.addr.bytes ++ bytesBE16 ethertypeArp ++
    [0, 1, 8, 0, 6, 4] ++ bytesBE16 arpOpRequest ++ i.addr.bytes ++ bytesLE32 i.ip ++
    [0, 0, 0, 0, 0, 0] ++ bytesLE32 ip

/-- `sr_send_arp_request`. -/
def srSendArpRequest (c : Call) (ip : UInt32) : Call :=
  c.sr.ifList.foldl (fun c i => srSendPacket c (arpRequest i ip) i.name) c

/-- The IP header that `sr_send_icmp_packet` builds: 56 bytes, DF, TTL 64, ICMP. -/
def icmpIpHeader (sum : UInt16) (src dst : UInt32) : List UInt8 :=
  [0x45, 0, 0, 56, 0, 0, 0x40, 0, 64, 1] ++ (bytesBE16 sum ++ (bytesLE32 src ++ bytesLE32 dst))

/-- `sr_icmp_t3_hdr_t`; nothing is stored to `unused` and `next_mtu`. -/
def icmpT3Header (type code : UInt8) (sum : UInt16) (unused data : List UInt8) : List UInt8 :=
  [type, code] ++ (bytesBE16 sum ++ (unused ++ data))

/-- The frame that `sr_send_icmp_packet` builds. -/
def icmpFrame (dhost shost : Mac) (src dst : UInt32) (type code : UInt8) (unused data : List UInt8) :
    List UInt8 :=
  dhost.bytes ++ (shost.bytes ++ (bytesBE16 ethertypeIp ++
    (icmpIpHeader (cksum (icmpIpHeader 0 src dst)) src dst ++
      icmpT3Header type code (cksum (icmpT3Header type code 0 unused data)) unused data)))

/-- `sr_send_icmp_packet`; `handle` is `handle_arpreq`. -/
def srSendIcmpPacket (env : Env) (handle : ℕ → Call → Except Fault Call) (c : Call)
    (destinationIp : UInt32) (ipPacket : List UInt8) (type code : UInt8) : Except Fault Call :=
  let block := env.heap c.mallocs
  let c := { c with mallocs := c.mallocs + 1 }
  if ipPacket.length < icmpDataSize then .error .outOfBounds
  else
    let unused := (List.range 4).map fun k => load8 block (38 + k)
    let data := ipPacket.take icmpDataSize
    match routeMatch c.sr.routingTable destinationIp with
    | none => .ok c
    | some route =>
      match getInterfaceFromIp c.sr.ifList route.gw with
      | none => .error .nullDeref
      | some i =>
        match srArpcacheLookup c.sr.cache route.gw with
        | some entry =>
            .ok (srSendPacket c (icmpFrame entry.mac i.addr i.ip destinationIp type code unused data)
              i.name)
        | none =>
            let frame := icmpFrame (Mac.copy block 0) i.addr i.ip destinationIp type code unused data
            let (cache, addr) := srArpcacheQueuereq c.sr.cache route.gw frame (some i.name)
            handle addr (c.setCache cache)

/-! ## Requests -/

/-- One turn of the loop that tells the sources of waiting packets that the host is unreachable. -/
def hostUnreachable (env : Env) (handle : ℕ → Call → Except Fault Call) (addr : ℕ) (c : Call)
    (packet : SrPacket) : Except Fault Call :=
  -- the packet is freed with its request
  if (c.sr.cache.find addr).isNone then .error .useAfterFree
  else srSendIcmpPacket env handle c (ipSrc packet.buf) (packet.buf.drop sizeofEthernet) 3 1

/-- `handle_arpreq`. -/
def handleArpreq (env : Env) : ℕ → ℕ → Call → Except Fault Call
  | 0, _, _ => .error .outOfFuel
  | fuel + 1, addr, c =>
    let (currentTime, c) := c.time env
    let (t, c) := c.time env
    match c.sr.cache.find addr with
    | none => .error .useAfterFree
    | some request =>
      if request.sent + 1 < t then
        if 5 ≤ request.timesSent then do
          let c ← request.packets.foldlM (hostUnreachable env (handleArpreq env fuel) addr) c
          match c.sr.cache.find addr with
          | none => .error .useAfterFree
          | some request =>
              .ok (((c.setCache (srArpreqDestroy c.sr.cache addr)).emit (.gaveUp addr t)).emit
                (.left request))
        else
          let c := (srSendArpRequest c request.ip).emit (.asked addr currentTime)
          .ok (c.setCache (c.sr.cache.update addr
            (fun r => { r with sent := currentTime, timesSent := r.timesSent + 1 }) fun _ => rfl))
      else .ok c

/-- The loop of `sr_arpcache_sweepreqs`, from the request at `req` on. -/
def sweepFrom (env : Env) (fuel : ℕ) : ℕ → Option ℕ → Call → Except Fault Call
  | _, none, c => .ok c
  | 0, some _, _ => .error .outOfFuel
  | n + 1, some req, c =>
    match c.sr.cache.next req with
    | none => .error .useAfterFree
    | some next => do
      let c ← handleArpreq env fuel req c
      sweepFrom env fuel n next c

/-- One round of `sr_arpcache_timeout`. -/
def srArpcacheTimeout (env : Env) (fuel : ℕ) (c : Call) : Except Fault Call :=
  let (curtime, c) := c.time env
  let c := c.setCache (expireEntries c.sr.cache curtime)
  sweepFrom env fuel fuel (c.sr.cache.requests.head?.map SrArpreq.addr) c

/-! ## Frames -/

/-- The call of `sr_arpcache_insert` in `sr_handle_arp_packet`, which drops the request that comes
back. -/
def learn (env : Env) (c : Call) (mac : Mac) (ip : UInt32) : Call :=
  let (now, c) := c.time env
  let (cache, req) := srArpcacheInsert c.sr.cache mac ip now
  let c := (c.setCache cache).emit (.learned ip mac)
  match req with
  | some req => c.emit (.left req)
  | none => c

/-- The reply to an ARP request, written over the request. -/
def arpReply (packet : List UInt8) (i : SrIf) : List UInt8 :=
  let sendMac := Mac.copy packet 22
  let sendIp := arSip packet
  let tarIp := arTip packet
  let packet := splice packet 6 i.addr.bytes
  let packet := splice packet 0 sendMac.bytes
  let packet := splice packet 22 i.addr.bytes
  let packet := splice packet 32 sendMac.bytes
  let packet := splice packet 28 (bytesLE32 tarIp)
  let packet := splice packet 38 (bytesLE32 sendIp)
  splice packet 20 (bytesBE16 arpOpReply)

/-- `sr_handle_arp_packet`. -/
def srHandleArpPacket (env : Env) (c : Call) (packet : List UInt8) : Except Fault Call :=
  if packet.length < 42 then .error .outOfBounds
  else
    let sendMac := Mac.copy packet 22
    match getInterfaceFromIp c.sr.ifList (arTip packet) with
    | none => .ok c
    | some i =>
      if arOp packet = arpOpRequest then
        .ok (srSendPacket (learn env c sendMac (arSip packet)) (arpReply packet i) i.name)
      else if arOp packet = arpOpReply then .ok (learn env c sendMac (arSip packet))
      else .ok c

/-- `sr_echo_icmp_packet`, the frame it sends from an interface with address `ip`. -/
def echoFrame (packet : List UInt8) (ip : UInt32) : List UInt8 :=
  let source := Mac.copy packet 6
  let destination := Mac.copy packet 0
  let packet := splice packet 34 [0, 0]
  let packet := setIcmpSum packet
  let packet := splice packet 30 (bytesLE32 (ipSrc packet))
  let packet := splice packet 26 (bytesLE32 ip)
  let packet := setIpSum packet
  let packet := splice packet 0 source.bytes
  splice packet 6 destination.bytes

/-- `ip_forwarding`. -/
def ipForwarding (env : Env) (fuel : ℕ) (c : Call) (packet : List UInt8) (interface : Name)
    (route : Option SrRt) : Except Fault Call :=
  match getInterfaceFromIp c.sr.ifList (ipDst packet) with
  | none =>
    let packet := splice packet 22 [ipTtl packet - 1]
    if ipTtl packet = 0 then srSendIcmpPacket env (handleArpreq env fuel) c (ipSrc packet) packet 11 0
    else
      let packet := setIpSum packet
      match route with
      | none => .error .nullDeref
      | some route =>
        match srArpcacheLookup c.sr.cache route.gw with
        | some entry =>
          match srGetInterface c.sr.ifList route.interface with
          | none => .error .nullDeref
          | some i =>
              .ok (srSendPacket c (splice (splice packet 6 i.addr.bytes) 0 entry.mac.bytes) i.name)
        | none =>
          -- the interface name passed is a member of the null `now_interface`
          let (cache, addr) := srArpcacheQueuereq c.sr.cache route.gw packet none
          handleArpreq env fuel addr (c.setCache cache)
  | some _ =>
    if ipP packet = ipProtocolIcmp then
      if icmpType packet = 8 ∧ icmpCode packet = 0 then
        match srGetInterface c.sr.ifList interface with
        | none => .error .nullDeref
        | some i => .ok (srSendPacket c (echoFrame packet i.ip) interface)
      else .ok c
    else srSendIcmpPacket env (handleArpreq env fuel) c (ipSrc packet) packet 3 3

/-- `sr_handle_ip_packet`. -/
def srHandleIpPacket (env : Env) (fuel : ℕ) (c : Call) (packet : List UInt8) (interface : Name) :
    Except Fault Call :=
  let route := routeMatch c.sr.routingTable (ipDst packet)
  if getInterfaceFromIp c.sr.ifList (ipDst packet) = none ∧ route = none then
    srSendIcmpPacket env (handleArpreq env fuel) c (ipSrc packet) packet 3 0
  else ipForwarding env fuel c packet interface route

/-- `sr_handlepacket`. -/
def srHandlepacket (env : Env) (fuel : ℕ) (c : Call) (packet : List UInt8) (interface : Name) :
    Except Fault Call :=
  if packet.length < sizeofEthernet then .error .outOfBounds
  else if etherType packet = ethertypeArp then srHandleArpPacket env c packet
  else if etherType packet = ethertypeIp then
    if ipChecks packet then srHandleIpPacket env fuel c packet interface else .ok c
  else .ok c

/-! ## The machine -/

inductive Action where
  | receive (packet : List UInt8) (interface : Name) (env : Env) (fuel : ℕ)
  | timeout (env : Env) (fuel : ℕ)

/-- The call an action makes. -/
def perform (sr : SrInstance) : Action → Except Fault Call
  | .receive packet interface env fuel => srHandlepacket env fuel (.start sr) packet interface
  | .timeout env fuel => srArpcacheTimeout env fuel (.start sr)

/-- One handler call; what it shows is its log. -/
def step (sr : SrInstance) (a : Action) : Option (SrInstance × List Event) :=
  match perform sr a with
  | .ok c => some (c.sr, c.log)
  | .error _ => none

def machine : Machine SrInstance Action (List Event) where
  step := step

/-- A router that has loaded its interfaces and routes. -/
def init (ifList : List SrIf) (routingTable : List SrRt) : SrInstance :=
  { ifList, routingTable, cache := srArpcacheInit }

end ComputerNetwork.Router
