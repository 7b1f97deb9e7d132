import ComputerNetwork.Router.Effects

/-!
# What becomes of packets that wait for ARP

`NoneLost` says of the log of a handler call that every packet of a request that left the queue was
sent on with the address just learned or answered with an ICMP host unreachable.  The code misses
this in two ways: `sr_handle_arp_packet` drops the request that `sr_arpcache_insert` gives back, and
`handle_arpreq` gives up on a packet whose source it cannot reach at once.  `ResolutionKept` excludes
the calls that run into one of them, and `noneLost_of_run` shows that no packet is lost in a run of
the others.
-/

namespace ComputerNetwork.Router

open Lib

/-! ## The property -/

/-- An ICMP destination host unreachable for `ip`. -/
def IsHostUnreachable (frame : List UInt8) (ip : UInt32) : Prop :=
  etherType frame = ethertypeIp ∧ ipP frame = ipProtocolIcmp ∧ icmpType frame = 3 ∧
    icmpCode frame = 1 ∧ ipDst frame = ip

/-- The log tells what became of a packet of the request: it was transmitted with the hardware
address learned for the request, or its source was told that the host is unreachable. -/
def Accounted (log : List Event) (req : SrArpreq) (packet : SrPacket) : Prop :=
  (∃ mac frame, .learned req.ip mac ∈ log ∧ .transmit packet.iface frame ∈ log ∧
    frame.take 6 = mac.bytes ∧ frame.drop 12 = packet.buf.drop 12) ∨
  ∃ iface frame, .transmit iface frame ∈ log ∧ IsHostUnreachable frame (ipSrc packet.buf)

/-- No packet of a request that left the queue is lost. -/
def NoneLost (log : List Event) : Prop :=
  ∀ req, .left req ∈ log → ∀ packet ∈ req.packets, Accounted log req packet

theorem Accounted.mono {log log' : List Event} {req : SrArpreq} {packet : SrPacket}
    (h : Accounted log req packet) (more : ∀ e ∈ log, e ∈ log') : Accounted log' req packet := by
  rcases h with ⟨mac, frame, h1, h2, h3⟩ | ⟨iface, frame, h1, h2⟩
  · exact Or.inl ⟨mac, frame, more _ h1, more _ h2, h3⟩
  · exact Or.inr ⟨iface, frame, more _ h1, h2⟩

theorem NoneLost.append {log log' : List Event} (h : NoneLost log) (h' : NoneLost log') :
    NoneLost (log ++ log') := by
  intro req mem packet hp
  cases List.mem_append.1 mem with
  | inl mem => exact (h req mem packet hp).mono fun e he => List.mem_append_left _ he
  | inr mem => exact (h' req mem packet hp).mono fun e he => List.mem_append_right _ he

theorem noneLost_of_staying {log : List Event} (stay : ∀ req, .left req ∉ log) : NoneLost log :=
  fun req mem => absurd mem (stay req)

/-! ## The calls that lose nothing -/

/-- The router can tell `ip` at once that a host is unreachable: it has a route whose gateway is one
of its own addresses and in the ARP cache, and the interface is known by its name. -/
def answerable (sr : SrInstance) (ip : UInt32) : Bool :=
  match routeMatch sr.routingTable ip with
  | none => false
  | some route =>
    match getInterfaceFromIp sr.ifList route.gw with
    | none => false
    | some i => (srArpcacheLookup sr.cache route.gw).isSome &&
        (srGetInterface sr.ifList i.name).any fun j => j.addr = i.addr

/-- A request that has been sent five times and is more than a second old at some reading of the
clock. -/
def Expired (env : Env) (req : SrArpreq) : Prop := 5 ≤ req.timesSent ∧ ∃ k, req.sent + 1 < env.time k

/-- The request that an IP frame may be queued on: the one for the gateway towards its source, if it
is answered, or towards its destination, if it is forwarded. -/
def Joins (sr : SrInstance) (packet : List UInt8) (req : SrArpreq) : Prop :=
  ∃ ip, (ip = ipSrc packet ∨ ip = ipDst packet) ∧ ∃ route,
    routeMatch sr.routingTable ip = some route ∧ sr.cache.findIp route.gw = some req

/-- An ARP frame that the router learns from meets no request that packets wait on; where a request
can expire, the sources of its packets are answerable, and so is the router's own address as the
source of a packet that the frame may add to it. -/
def ResolutionKept (sr : SrInstance) : Action → Prop
  | .receive packet _ env _ =>
      (etherType packet = ethertypeArp → (arOp packet = arpOpRequest ∨ arOp packet = arpOpReply) →
        (getInterfaceFromIp sr.ifList (arTip packet)).isSome →
        ∀ req, sr.cache.findIp (arSip packet) = some req → req.packets = []) ∧
      (etherType packet = ethertypeIp → ∀ req, Joins sr packet req → Expired env req →
        (∀ p ∈ req.packets, answerable sr (ipSrc p.buf) = true) ∧ answerable sr req.ip = true)
  | .timeout env _ => ∀ req ∈ sr.cache.requests, Expired env req → ∀ p ∈ req.packets,
      answerable { sr with cache := expireEntries sr.cache (env.time 0) } (ipSrc p.buf) = true

/-! ## Sending -/

theorem sendEvent_ne_left (ifList : List SrIf) (buf : List UInt8) (iface : Name) (req : SrArpreq) :
    sendEvent ifList buf iface ≠ .left req := by
  unfold sendEvent
  split_ifs <;> simp

theorem srSendPacket_log (c : Call) (buf : List UInt8) (iface : Name) :
    ∃ log, srSendPacket c buf iface = { c with log := c.log ++ log } ∧ ∀ req, .left req ∉ log := by
  refine ⟨_, srSendPacket_eq c buf iface, fun req mem => ?_⟩
  exact sendEvent_ne_left _ _ _ req (List.mem_singleton.1 mem).symm

theorem srSendArpRequest_log (c : Call) (ip : UInt32) :
    ∃ log, srSendArpRequest c ip = { c with log := c.log ++ log } ∧ ∀ req, .left req ∉ log := by
  refine ⟨_, srSendArpRequest_eq c ip, fun req mem => ?_⟩
  obtain ⟨i, -, left⟩ := List.mem_map.1 mem
  exact sendEvent_ne_left _ _ _ req left

/-- Whether `ip` is answerable depends on the cache's entries only. -/
theorem answerable_congr {sr sr' : SrInstance} (ifs : sr'.ifList = sr.ifList)
    (routes : sr'.routingTable = sr.routingTable)
    (entries : sr'.cache.entries = sr.cache.entries) (ip : UInt32) :
    answerable sr' ip = answerable sr ip := by
  unfold answerable srArpcacheLookup
  rw [ifs, routes, entries]

section Handlers

variable {env : Env} {handle : ℕ → Call → Except Fault Call} {c c' : Call} {ip : UInt32}
  {ipPacket : List UInt8} {type code : UInt8} {addr fuel : ℕ}

theorem srSendIcmpPacket_answerable (ready : answerable c.sr ip = true)
    (run : srSendIcmpPacket env handle c ip ipPacket 3 1 = .ok c') :
    c'.sr = c.sr ∧ ∃ iface frame, c'.log = c.log ++ [.transmit iface frame] ∧
      IsHostUnreachable frame ip := by
  unfold srSendIcmpPacket at run
  unfold answerable at ready
  dsimp only at run
  split_ifs at run
  rcases route : routeMatch c.sr.routingTable ip with _ | rt
  · simp [route] at ready
  · simp only [route] at run ready
    rcases own : getInterfaceFromIp c.sr.ifList rt.gw with _ | i
    · simp [own] at ready
    · simp only [own, Bool.and_eq_true] at run ready
      obtain ⟨entry, cached⟩ := Option.isSome_iff_exists.1 ready.1
      simp only [cached, Except.ok.injEq] at run
      obtain ⟨j, named, same⟩ := (Option.any_eq_true _ _).1 ready.2
      subst run
      have known : j.addr = i.addr := by simpa using same
      have shape : ∀ unused data : List UInt8,
          ¬ (icmpFrame entry.mac i.addr i.ip ip 3 1 unused data).length < sizeofEthernet := by
        intro unused data
        have := congrArg List.length (shost_icmpFrame entry.mac i.addr i.ip ip 3 1 unused data)
        rw [i.addr.size, List.length_take, List.length_drop] at this
        simp only [icmpFrame, List.length_append, entry.mac.size, i.addr.size, length_bytesBE16,
          sizeofEthernet]
        omega
      unfold srSendPacket
      simp only [if_neg (shape _ _), named, shost_icmpFrame, known, if_true]
      obtain ⟨h1, h2, -, h4, h5, h6⟩ := icmpFrame_fields entry.mac i.addr i.ip ip 3 1
        ((List.range 4).map fun k => load8 (env.heap c.mallocs) (38 + k))
        (ipPacket.take icmpDataSize)
      exact ⟨rfl, i.name, _, rfl, h1, h2, h5, h6, h4⟩

/-- The sources of all waiting packets are told. -/
theorem hostUnreachable_all (packets : List SrPacket)
    (ready : ∀ p ∈ packets, answerable c.sr (ipSrc p.buf) = true)
    (run : packets.foldlM (hostUnreachable env handle addr) c = .ok c') :
    c'.sr = c.sr ∧ ∃ log, c'.log = c.log ++ log ∧ (∀ req, .left req ∉ log) ∧
      ∀ p ∈ packets, ∃ iface frame, .transmit iface frame ∈ log ∧
        IsHostUnreachable frame (ipSrc p.buf) := by
  induction packets generalizing c with
  | nil =>
    cases run
    exact ⟨rfl, [], by simp, by simp, by simp⟩
  | cons p rest ih =>
    rw [List.foldlM_cons] at run
    rcases first : hostUnreachable env handle addr c p with fault | c₁
    · rw [first] at run
      cases run
    · rw [first] at run
      have sent := first
      unfold hostUnreachable at sent
      split_ifs at sent
      obtain ⟨same, iface, frame, log₁, told⟩ :=
        srSendIcmpPacket_answerable (ready p (List.mem_cons_self ..)) sent
      obtain ⟨same', log, log₂, stay, all⟩ := ih
        (fun q hq => by rw [same]; exact ready q (List.mem_cons_of_mem _ hq)) run
      refine ⟨same'.trans same, .transmit iface frame :: log, ?_, ?_, ?_⟩
      · rw [log₂, log₁, List.append_assoc]
        rfl
      · intro req mem
        cases List.mem_cons.1 mem with
        | inl h => cases h
        | inr h => exact stay req h
      · intro q hq
        rcases List.mem_cons.1 hq with rfl | hq
        · exact ⟨iface, frame, List.mem_cons_self .., told⟩
        · obtain ⟨iface', frame', mem, told'⟩ := all q hq
          exact ⟨iface', frame', List.mem_cons_of_mem _ mem, told'⟩

/-- What a call did between `c` and `c'` where nothing was lost. -/
structure Handled (c c' : Call) : Prop where
  ifs : c'.sr.ifList = c.sr.ifList
  routes : c'.sr.routingTable = c.sr.routingTable
  entries : c'.sr.cache.entries = c.sr.cache.entries
  log : ∃ log, c'.log = c.log ++ log ∧ NoneLost log

/-- Steps that touch neither the cache's entries nor the log. -/
theorem Handled.of_entries {c c' : Call} (ifs : c'.sr.ifList = c.sr.ifList)
    (routes : c'.sr.routingTable = c.sr.routingTable)
    (entries : c'.sr.cache.entries = c.sr.cache.entries) (log : c'.log = c.log) : Handled c c' :=
  ⟨ifs, routes, entries, [], by simp [log], noneLost_of_staying (by simp)⟩

theorem Handled.trans {c c' c'' : Call} (h : Handled c c') (h' : Handled c' c'') :
    Handled c c'' := by
  obtain ⟨log, eq, none⟩ := h.log
  obtain ⟨log', eq', none'⟩ := h'.log
  exact ⟨h'.ifs.trans h.ifs, h'.routes.trans h.routes, h'.entries.trans h.entries, log ++ log',
    by rw [eq', eq, List.append_assoc], none.append none'⟩

theorem Handled.answerable_eq {c c' : Call} (h : Handled c c') (ip : UInt32) :
    answerable c'.sr ip = answerable c.sr ip := answerable_congr h.ifs h.routes h.entries ip

theorem askAgain_handled {pre rest : List SrArpreq} {req : SrArpreq}
    (queue : c.sr.cache.requests = pre ++ req :: rest) :
    Handled c (askAgain env c req.addr req.ip) ∧
      ∃ pre', (askAgain env c req.addr req.ip).sr.cache.requests = pre' ++ rest := by
  obtain ⟨log, eq, stay⟩ := srSendArpRequest_log { c with timeReads := c.timeReads + 2 } req.ip
  unfold askAgain
  rw [eq]
  refine ⟨⟨rfl, rfl, rfl, log ++ [.asked req.addr (env.time c.timeReads)], ?_,
      noneLost_of_staying fun gone mem => ?_⟩,
    pre ++ [{ req with sent := env.time c.timeReads, timesSent := req.timesSent + 1 }], ?_⟩
  · show (c.log ++ log) ++ [_] = _
    rw [List.append_assoc]
  · cases List.mem_append.1 mem with
    | inl mem => exact stay gone mem
    | inr mem => simp at mem
  · rw [List.append_assoc]
    exact update_requests queue (fun r =>
      { r with sent := env.time c.timeReads, timesSent := r.timesSent + 1 }) fun _ => rfl

/-- A request that is destroyed once the sources of all its packets have been told. -/
theorem abandon_handled {pre rest : List SrArpreq} {req : SrArpreq} {c₁ : Call} {log : List Event}
    {now : ℕ} (queue : c.sr.cache.requests = pre ++ req :: rest) (same : c₁.sr = c.sr)
    (eq : c₁.log = c.log ++ log) (stay : ∀ req, .left req ∉ log)
    (all : ∀ p ∈ req.packets, ∃ iface frame, .transmit iface frame ∈ log ∧
      IsHostUnreachable frame (ipSrc p.buf)) :
    Handled c (abandon c₁ req.addr now req) ∧
      ∃ pre', (abandon c₁ req.addr now req).sr.cache.requests = pre' ++ rest := by
  have queue₁ : c₁.sr.cache.requests = pre ++ req :: rest := by rw [same, queue]
  have ifs : c₁.sr.ifList = c.sr.ifList := by rw [same]
  have routes : c₁.sr.routingTable = c.sr.routingTable := by rw [same]
  have entries : c₁.sr.cache.entries = c.sr.cache.entries := by rw [same]
  refine ⟨⟨ifs, routes, entries,
    log ++ [.gaveUp req.addr now, .left req], ?_, ?_⟩, pre, destroy_requests queue₁⟩
  · show c₁.log ++ [_] ++ [.left req] = _
    rw [eq, List.append_assoc, List.append_assoc]
    rfl
  · intro gone mem packet hp
    cases List.mem_append.1 mem with
    | inl mem => exact absurd mem (stay gone)
    | inr mem =>
      obtain rfl : gone = req := by simpa using mem
      obtain ⟨iface, frame, sent, unreachable⟩ := all packet hp
      exact Or.inr ⟨iface, frame, List.mem_append_left _ sent, unreachable⟩

/-- `handle_arpreq` loses nothing where the sources of the request's packets are answerable, and
leaves what is behind the request in the queue. -/
theorem handleArpreq_spec {pre rest : List SrArpreq} (req : SrArpreq)
    (run : handleArpreq env fuel req.addr c = .ok c')
    (queue : c.sr.cache.requests = pre ++ req :: rest)
    (ready : Expired env req → ∀ p ∈ req.packets, answerable c.sr (ipSrc p.buf) = true) :
    Handled c c' ∧ ∃ pre', c'.sr.cache.requests = pre' ++ rest := by
  cases fuel with
  | zero => cases run
  | succ fuel =>
    obtain ⟨req', found, ways⟩ := handleArpreq_cases run
    rw [(find_eq queue).1] at found
    cases found
    rcases ways with ⟨-, early⟩ | ⟨-, -, asked⟩ | ⟨old, often, c₁, last, told, still, gone⟩
    · rw [early]
      exact ⟨.of_entries rfl rfl rfl rfl, pre ++ [req], by simp [queue]⟩
    · rw [asked]
      exact askAgain_handled queue
    · obtain ⟨same, log, eq, stay, all⟩ := hostUnreachable_all
        (c := { c with timeReads := c.timeReads + 2 }) req.packets (ready ⟨often, _, old⟩) told
      have queue₁ : c₁.sr.cache.requests = pre ++ req :: rest := by rw [same]; exact queue
      rw [(find_eq queue₁).1] at still
      cases still
      rw [gone]
      exact abandon_handled queue same eq stay all

/-- The sweep loses nothing where this holds of every request it visits. -/
theorem sweepFrom_spec (n : ℕ) (pre : List SrArpreq) {rest : List SrArpreq}
    (run : sweepFrom env fuel n (rest.head?.map SrArpreq.addr) c = .ok c')
    (queue : c.sr.cache.requests = pre ++ rest)
    (ready : ∀ req ∈ rest, Expired env req → ∀ p ∈ req.packets,
      answerable c.sr (ipSrc p.buf) = true) : Handled c c' := by
  induction rest generalizing n pre c with
  | nil =>
    cases n <;> cases run <;> exact .of_entries rfl rfl rfl rfl
  | cons req rest ih =>
    cases n with
    | zero => cases run
    | succ n =>
      simp only [List.head?_cons, Option.map_some, sweepFrom, next_of_queue queue] at run
      obtain ⟨c₁, handled, run⟩ := bind_eq_ok.1 run
      obtain ⟨kept, pre', queue'⟩ := handleArpreq_spec _ handled queue
        (ready req (List.mem_cons_self ..))
      refine kept.trans (ih n _ run queue' fun r hr old p hp => ?_)
      rw [kept.answerable_eq]
      exact ready r (List.mem_cons_of_mem _ hr) old p hp

/-- A packet that is queued for `gw` and the `handle_arpreq` that follows. -/
theorem queued_spec {gw : UInt32} {packet : List UInt8} {iface : Option Name}
    (run : handleArpreq env fuel (srArpcacheQueuereq c.sr.cache gw packet iface).2
      (c.setCache (srArpcacheQueuereq c.sr.cache gw packet iface).1) = .ok c')
    (ready : ∀ req, c.sr.cache.findIp gw = some req → Expired env req →
      (∀ p ∈ req.packets, answerable c.sr (ipSrc p.buf) = true) ∧
      (iface.isSome → answerable c.sr (ipSrc packet) = true)) : Handled c c' := by
  obtain ⟨entries, pre, req, rest, queue, ptr, age⟩ := requestFor_spec c.sr.cache gw
  obtain ⟨entries', packets, queue', waiting⟩ := enqueue_spec queue packet iface
  unfold srArpcacheQueuereq at run
  dsimp only at run
  rw [← ptr] at run
  have same : answerable (c.setCache ((c.sr.cache.requestFor gw).1.enqueue req.addr packet iface)).sr
      = answerable c.sr := funext (answerable_congr rfl rfl (entries'.trans entries))
  have start : Handled c (c.setCache ((c.sr.cache.requestFor gw).1.enqueue req.addr packet iface)) :=
    .of_entries rfl rfl (entries'.trans entries) rfl
  refine start.trans (handleArpreq_spec { req with packets } run queue' ?_).1
  intro old p hp
  rw [same]
  cases age with
  | inl fresh => exact absurd old.1 (by simp [fresh])
  | inr found =>
    obtain ⟨stored, new⟩ := ready req found ⟨old.1, old.2⟩
    rcases waiting p hp with h | ⟨named, rfl⟩
    · exact stored p h
    · exact new named

/-- A frame that `sr_send_icmp_packet` sends or queues. -/
theorem srSendIcmpPacket_spec
    (run : srSendIcmpPacket env (handleArpreq env fuel) c ip ipPacket type code = .ok c')
    (ready : ∀ route req, routeMatch c.sr.routingTable ip = some route →
      c.sr.cache.findIp route.gw = some req → Expired env req →
      (∀ p ∈ req.packets, answerable c.sr (ipSrc p.buf) = true) ∧
        answerable c.sr req.ip = true) : Handled c c' := by
  unfold srSendIcmpPacket at run
  dsimp only at run
  split_ifs at run
  rcases matched : routeMatch c.sr.routingTable ip with _ | route
  · rw [matched] at run
    cases run
    exact .of_entries rfl rfl rfl rfl
  · simp only [matched] at run
    rcases own : getInterfaceFromIp c.sr.ifList route.gw with _ | i
    · simp [own] at run
    have addr : route.gw = i.ip := by simpa using List.find?_some own
    simp only [own] at run
    rcases cached : srArpcacheLookup c.sr.cache route.gw with _ | entry
    · simp only [cached] at run
      have start : Handled c { c with mallocs := c.mallocs + 1 } := .of_entries rfl rfl rfl rfl
      refine start.trans (queued_spec run ?_)
      intro req found old
      obtain ⟨stored, self⟩ := ready route req matched found old
      refine ⟨stored, fun _ => ?_⟩
      have asked : req.ip = route.gw := by simpa using List.find?_some found
      rw [(icmpFrame_fields ..).2.2.1, ← addr, ← asked]
      exact self
    · simp only [cached, Except.ok.injEq] at run
      obtain ⟨log, eq, stay⟩ := srSendPacket_log { c with mallocs := c.mallocs + 1 }
        (icmpFrame entry.mac i.addr i.ip ip type code
          ((List.range 4).map fun k => load8 (env.heap c.mallocs) (38 + k))
          (ipPacket.take icmpDataSize)) i.name
      rw [eq] at run
      subst run
      exact ⟨rfl, rfl, rfl, log, rfl, noneLost_of_staying stay⟩

end Handlers

/-! ## Whole calls -/

section Calls

variable {env : Env} {fuel : ℕ} {sr : SrInstance} {c' : Call} {packet : List UInt8}
  {interface : Name}

theorem Handled.send (c : Call) (buf : List UInt8) (iface : Name) :
    Handled c (srSendPacket c buf iface) := by
  obtain ⟨log, eq, stay⟩ := srSendPacket_log c buf iface
  rw [eq]
  exact ⟨rfl, rfl, rfl, log, rfl, noneLost_of_staying stay⟩

theorem srHandleIpPacket_spec (long : 34 ≤ packet.length)
    (run : srHandleIpPacket env fuel (.start sr) packet interface = .ok c')
    (ready : ∀ req, Joins sr packet req → Expired env req →
      (∀ p ∈ req.packets, answerable sr (ipSrc p.buf) = true) ∧ answerable sr req.ip = true) :
    Handled (.start sr) c' := by
  have towards : ∀ ip, (ip = ipSrc packet ∨ ip = ipDst packet) → ∀ route req,
      routeMatch sr.routingTable ip = some route → sr.cache.findIp route.gw = some req →
      Expired env req →
      (∀ p ∈ req.packets, answerable sr (ipSrc p.buf) = true) ∧ answerable sr req.ip = true :=
    fun ip side route req matched found => ready req ⟨ip, side, route, matched, found⟩
  have source : ipSrc (splice packet 22 [ipTtl packet - 1]) = ipSrc packet := by
    have far : ∀ j, 23 ≤ j → load8 (splice packet 22 [ipTtl packet - 1]) j = load8 packet j :=
      fun j hj => load8_splice_behind hj (by omega)
    simp only [ipSrc, loadLE32, far _ (by omega : 23 ≤ 26), far _ (by omega : 23 ≤ 26 + 1),
      far _ (by omega : 23 ≤ 26 + 2), far _ (by omega : 23 ≤ 26 + 3)]
  unfold srHandleIpPacket at run
  dsimp only at run
  split_ifs at run
  · exact srSendIcmpPacket_spec run (towards _ (Or.inl rfl))
  · unfold ipForwarding at run
    dsimp only at run
    rcases own : getInterfaceFromIp (Call.start sr).sr.ifList (ipDst packet) with _ | i
    · simp only [own] at run
      split_ifs at run
      · exact srSendIcmpPacket_spec run (towards _ (Or.inl source))
      · rcases matched : routeMatch (Call.start sr).sr.routingTable (ipDst packet) with _ | route
        · simp [matched] at run
        · simp only [matched] at run
          rcases cached : srArpcacheLookup (Call.start sr).sr.cache route.gw with _ | entry
          · simp only [cached] at run
            apply queued_spec run
            intro req found old
            exact ⟨(towards _ (Or.inr rfl) route req matched found old).1, by simp⟩
          · simp only [cached] at run
            split at run
            · cases run
            · exact Except.ok.inj run ▸ .send ..
    · simp only [own] at run
      split_ifs at run
      · split at run
        · cases run
        · exact Except.ok.inj run ▸ .send ..
      · exact Except.ok.inj run ▸ .of_entries rfl rfl rfl rfl
      · exact srSendIcmpPacket_spec run (towards _ (Or.inl rfl))

/-- Learning an address loses nothing where no packet waits for it. -/
theorem learn_noneLost (mac : Mac) (ip : UInt32)
    (idle : ∀ req, sr.cache.findIp ip = some req → req.packets = []) :
    NoneLost (learn env (.start sr) mac ip).log := by
  unfold learn
  dsimp only [Call.time, srArpcacheInsert]
  rcases waiting : (Call.start sr).sr.cache.findIp ip with _ | req
  · exact noneLost_of_staying (by simp [Call.emit, Call.setCache, Call.start])
  · intro gone mem packet hp
    have left : gone = req := by simpa [Call.emit, Call.setCache, Call.start] using mem
    rw [left, idle req waiting] at hp
    cases hp

theorem srHandleArpPacket_noneLost (run : srHandleArpPacket env (.start sr) packet = .ok c')
    (idle : (arOp packet = arpOpRequest ∨ arOp packet = arpOpReply) →
      (getInterfaceFromIp sr.ifList (arTip packet)).isSome →
      ∀ req, sr.cache.findIp (arSip packet) = some req → req.packets = []) : NoneLost c'.log := by
  unfold srHandleArpPacket at run
  dsimp only at run
  rcases own : getInterfaceFromIp (Call.start sr).sr.ifList (arTip packet) with _ | i
  · simp only [own] at run
    split_ifs at run
    exact Except.ok.inj run ▸ noneLost_of_staying (by simp [Call.start])
  · have mine : (getInterfaceFromIp sr.ifList (arTip packet)).isSome :=
      Option.isSome_iff_exists.2 ⟨i, own⟩
    simp only [own] at run
    split_ifs at run with short ask answer
    · rw [← Except.ok.inj run]
      obtain ⟨log, eq, none⟩ := (Handled.send (learn env (.start sr) (Mac.copy packet 22)
        (arSip packet)) (arpReply packet i) i.name).log
      rw [eq]
      exact (learn_noneLost _ _ (idle (Or.inl ask) mine)).append none
    · exact Except.ok.inj run ▸ learn_noneLost _ _ (idle (Or.inr answer) mine)
    · exact Except.ok.inj run ▸ noneLost_of_staying (by simp [Call.start])

theorem perform_noneLost {a : Action} (run : perform sr a = .ok c') (kept : ResolutionKept sr a) :
    NoneLost c'.log := by
  have of_handled : ∀ {c : Call}, c.log = [] → Handled c c' → NoneLost c'.log := by
    intro c empty handled
    obtain ⟨log, eq, none⟩ := handled.log
    rw [eq, empty, List.nil_append]
    exact none
  cases a with
  | receive packet interface env fuel =>
    simp only [perform, srHandlepacket] at run
    split_ifs at run with short arp ip checked
    · exact srHandleArpPacket_noneLost run (kept.1 arp)
    · have long : 34 ≤ packet.length := by
        simp only [ipChecks, Bool.and_eq_true, decide_eq_true_eq] at checked
        exact checked.1.1
      exact of_handled rfl (srHandleIpPacket_spec long run (kept.2 ip))
    · cases run
      exact noneLost_of_staying (by simp [Call.start])
    · cases run
      exact noneLost_of_staying (by simp [Call.start])
  | timeout env fuel =>
    simp only [perform, srArpcacheTimeout, Call.time] at run
    exact of_handled rfl (sweepFrom_spec fuel [] run rfl kept)

end Calls

/-- In every run whose calls all meet `ResolutionKept` no packet is lost. -/
theorem noneLost_of_run {ifList : List SrIf} {routingTable : List SrRt}
    {tr : List (Action × List Event)} {sr : SrInstance}
    (run : machine.Runs (fun _ sr a => ResolutionKept sr a) (init ifList routingTable) tr sr) :
    ∀ entry ∈ tr, NoneLost entry.2 := by
  refine run.invariant (I := fun tr _ => ∀ entry ∈ tr, NoneLost entry.2) (by simp) ?_
  intro tr sr a log sr' _ before kept st entry mem
  cases List.mem_append.1 mem with
  | inl mem => exact before entry mem
  | inr mem =>
    rw [List.mem_singleton.1 mem]
    change step sr a = some (sr', log) at st
    unfold step at st
    split at st
    · rename_i c performed
      cases st
      exact perform_noneLost performed kept
    · cases st

/-! ## Two runs -/

/-- A check that implies `ResolutionKept`: frames come while no request is open, and every packet
that waits during a sweep is answerable. -/
def keptCheck (sr : SrInstance) : Action → Bool
  | .receive _ _ _ _ => sr.cache.requests = []
  | .timeout env _ => sr.cache.requests.all fun req => req.packets.all fun p =>
      answerable { sr with cache := expireEntries sr.cache (env.time 0) } (ipSrc p.buf)

theorem resolutionKept_of_check {sr : SrInstance} {a : Action} (check : keptCheck sr a = true) :
    ResolutionKept sr a := by
  cases a with
  | receive packet interface env fuel =>
    have idle : ∀ ip, sr.cache.findIp ip = none := by
      intro ip
      rw [SrArpcache.findIp, of_decide_eq_true check, List.find?_nil]
    refine ⟨fun _ _ _ req found => ?_, fun _ req joins => ?_⟩
    · rw [idle] at found
      cases found
    · obtain ⟨ip, -, route, -, found⟩ := joins
      rw [idle] at found
      cases found
  | timeout env fuel =>
    intro req hr _ p hp
    exact List.all_eq_true.1 (List.all_eq_true.1 check req hr) p hp

/-- A request with waiting packets leaves the queue. -/
def released : Event → Bool
  | .left req => req.packets ≠ []
  | _ => false

def transmitted : Event → Bool
  | .transmit _ _ => true
  | _ => false

/-- A request for the first interface's own address expires, and the packet on it is answered. -/
theorem noneLost_of_run_expired : ∃ tr sr,
    machine.Runs (fun _ sr a => ResolutionKept sr a) twoInterfaces tr sr ∧
      (tr.any fun entry => entry.2.any released) = true ∧ ∀ entry ∈ tr, NoneLost entry.2 := by
  obtain ⟨tr, sr, run, gone⟩ := Machine.Runs.exists_of_exec (M := machine) (i := twoInterfaces)
    (C := fun _ sr a => keptCheck sr a)
    (P := fun tr _ => (tr.any fun entry => entry.2.any released) = true)
    [.receive (arpReplyFrom 0x0101000a) [101, 48] (envAt 5) 2,
      .receive unroutable [101, 48] (envAt 5) 2, .timeout (envAt 7) 2, .timeout (envAt 9) 2,
      .timeout (envAt 11) 2, .timeout (envAt 13) 2, .timeout (envAt 15) 2] (by decide +kernel)
  have kept := run.mono fun _ _ _ check => resolutionKept_of_check check
  exact ⟨tr, sr, kept, gone, noneLost_of_run kept⟩

/-- A call that releases waiting packets and transmits nothing loses them. -/
theorem not_noneLost {log : List Event} (gone : log.any released = true)
    (quiet : log.any transmitted = false) : ¬ NoneLost log := by
  intro none
  obtain ⟨e, mem, left⟩ := List.any_eq_true.1 gone
  have silent : ∀ iface frame, Event.transmit iface frame ∉ log := fun iface frame sent =>
    absurd (List.any_eq_false.1 quiet _ sent) (by simp [transmitted])
  cases e with
  | transmit iface frame => exact absurd mem (silent iface frame)
  | refused iface frame => cases left
  | asked addr now => cases left
  | gaveUp addr now => cases left
  | learned ip mac => cases left
  | left req =>
    obtain ⟨packet, hp⟩ := List.exists_mem_of_ne_nil _ (of_decide_eq_true left)
    rcases none req mem packet hp with ⟨_, frame, -, sent, -⟩ | ⟨iface, frame, sent, -⟩
    · exact silent _ frame sent
    · exact silent iface frame sent

/-- An ICMP message waits for the address of the first interface; the reply that gives it drops the
message. -/
theorem not_noneLost_reply : ¬ ∀ tr sr, machine.Run twoInterfaces tr sr →
    ∀ entry ∈ tr, NoneLost entry.2 := by
  intro all
  obtain ⟨tr, sr, run, lost⟩ := Machine.Runs.exists_of_exec (M := machine) (i := twoInterfaces)
    (C := fun _ _ _ => true)
    (P := fun tr _ => (tr.any fun entry =>
      entry.2.any released && !entry.2.any transmitted) = true)
    [.receive unroutable [101, 48] (envAt 5) 2,
      .receive (arpReplyFrom 0x0100000a) [101, 48] (envAt 5) 2] (by decide +kernel)
  obtain ⟨entry, mem, h⟩ := List.any_eq_true.1 lost
  simp only [Bool.and_eq_true, Bool.not_eq_true'] at h
  exact not_noneLost h.1 h.2 (all tr sr (run.mono fun _ _ _ _ => trivial) entry mem)

end ComputerNetwork.Router
