import ComputerNetwork.Router.Router

/-!
# What a handler call can do

The inversion lemmas of the router.  `Does` lists the effects that `handle_arpreq`,
`sr_send_icmp_packet` and the sweep can have on a call, however they are nested, and
`srHandlepacket_cases` what a received frame can lead to.  The properties of whole runs are proved by
induction on `Does`.
-/

namespace ComputerNetwork.Router

open Lib

theorem Mac.exists_bytes (m : Mac) : ∃ a b c d e f, m.bytes = [a, b, c, d, e, f] := by
  obtain ⟨bytes, size⟩ := m
  match bytes, size with
  | [a, b, c, d, e, f], _ => exact ⟨a, b, c, d, e, f, rfl⟩

/-! ## Frames built by the router -/

section IcmpFrame

variable (dhost shost : Mac) (src dst : UInt32) (type code : UInt8) (unused data : List UInt8)

theorem icmpFrame_fields :
    etherType (icmpFrame dhost shost src dst type code unused data) = ethertypeIp ∧
      ipP (icmpFrame dhost shost src dst type code unused data) = ipProtocolIcmp ∧
      ipSrc (icmpFrame dhost shost src dst type code unused data) = src ∧
      ipDst (icmpFrame dhost shost src dst type code unused data) = dst ∧
      icmpType (icmpFrame dhost shost src dst type code unused data) = type ∧
      icmpCode (icmpFrame dhost shost src dst type code unused data) = code := by
  obtain ⟨a, b, c, d, e, f, hd⟩ := dhost.exists_bytes
  obtain ⟨a', b', c', d', e', f', hs⟩ := shost.exists_bytes
  rw [icmpFrame, hd, hs]
  exact ⟨rfl, rfl, loadLE32_bytesLE32 src [], loadLE32_bytesLE32 dst [], rfl, rfl⟩

theorem shost_icmpFrame :
    ((icmpFrame dhost shost src dst type code unused data).drop 6).take 6 = shost.bytes := by
  rw [icmpFrame, List.drop_left' dhost.size, List.take_left' shost.size]

end IcmpFrame

/-! ## The queue of requests -/

theorem find_eq {cache : SrArpcache} {pre rest : List SrArpreq} {req : SrArpreq}
    (queue : cache.requests = pre ++ req :: rest) :
    cache.find req.addr = some req ∧ (∀ r ∈ pre, r.addr ≠ req.addr) ∧
      ∀ r ∈ rest, r.addr ≠ req.addr := by
  have distinct := cache.distinct
  rw [queue, List.map_append, List.map_cons, List.nodup_append, List.nodup_cons] at distinct
  obtain ⟨-, ⟨later, -⟩, apart⟩ := distinct
  have before : ∀ r ∈ pre, r.addr ≠ req.addr := fun r hr =>
    apart _ (List.mem_map_of_mem hr) _ (List.mem_cons_self ..)
  refine ⟨?_, before, fun r hr same => later (same ▸ List.mem_map_of_mem hr)⟩
  rw [SrArpcache.find, queue, List.find?_append, List.find?_eq_none.2 (by simpa using before)]
  simp

theorem exists_queue {cache : SrArpcache} {req : SrArpreq} {addr : ℕ}
    (found : cache.find addr = some req) :
    req.addr = addr ∧ ∃ pre rest, cache.requests = pre ++ req :: rest := by
  unfold SrArpcache.find at found
  refine ⟨by simpa using List.find?_some found, ?_⟩
  exact List.append_of_mem (List.mem_of_find?_eq_some found)

theorem find_eq_some_iff {cache : SrArpcache} {addr : ℕ} {req : SrArpreq} :
    cache.find addr = some req ↔ req ∈ cache.requests ∧ req.addr = addr := by
  constructor
  · intro found
    obtain ⟨same, pre, rest, queue⟩ := exists_queue found
    exact ⟨by simp [queue], same⟩
  · rintro ⟨mem, rfl⟩
    obtain ⟨pre, rest, queue⟩ := List.append_of_mem mem
    exact (find_eq queue).1

theorem next_of_queue {cache : SrArpcache} {pre rest : List SrArpreq} {req : SrArpreq}
    (queue : cache.requests = pre ++ req :: rest) :
    cache.next req.addr = some (rest.head?.map SrArpreq.addr) := by
  unfold SrArpcache.next
  rw [queue, List.dropWhile_append_of_pos (by simpa using (find_eq queue).2.1),
    List.dropWhile_cons_of_neg (by simp)]

theorem destroy_requests {cache : SrArpcache} {pre rest : List SrArpreq} {req : SrArpreq}
    (queue : cache.requests = pre ++ req :: rest) :
    (srArpreqDestroy cache req.addr).requests = pre ++ rest := by
  obtain ⟨-, before, -⟩ := find_eq queue
  simp only [srArpreqDestroy, SrArpcache.unlink, queue]
  rw [List.eraseP_append_right _ (by simpa using before), List.eraseP_cons_of_pos (by simp)]

theorem update_requests {cache : SrArpcache} {pre rest : List SrArpreq} {req : SrArpreq}
    (queue : cache.requests = pre ++ req :: rest) (f : SrArpreq → SrArpreq)
    (still : ∀ r, (f r).addr = r.addr) :
    (cache.update req.addr f still).requests = pre ++ f req :: rest := by
  obtain ⟨-, before, behind⟩ := find_eq queue
  have same : ∀ l : List SrArpreq, (∀ r ∈ l, r.addr ≠ req.addr) →
      (l.map fun r => if r.addr = req.addr then f r else r) = l := by
    intro l apart
    exact (List.map_congr_left fun r hr => if_neg (apart r hr)).trans (List.map_id l)
  simp only [SrArpcache.update, queue, List.map_append, List.map_cons, if_true, same pre before,
    same rest behind]

/-- The request that a packet is queued on: new, or the first for its gateway. -/
theorem requestFor_spec (cache : SrArpcache) (gw : UInt32) :
    (cache.requestFor gw).1.entries = cache.entries ∧ ∃ pre req rest,
      (cache.requestFor gw).1.requests = pre ++ req :: rest ∧
      req.addr = (cache.requestFor gw).2 ∧ (req.timesSent = 0 ∨ cache.findIp gw = some req) := by
  unfold SrArpcache.requestFor
  rcases waiting : cache.findIp gw with _ | req
  · exact ⟨rfl, [], _, _, rfl, rfl, Or.inl rfl⟩
  · obtain ⟨pre, rest, queue⟩ := List.append_of_mem (List.mem_of_find?_eq_some waiting)
    exact ⟨rfl, pre, req, rest, queue, rfl, Or.inr rfl⟩

/-- Queueing adds at most the given packet to a request. -/
theorem enqueue_spec {cache : SrArpcache} {pre rest : List SrArpreq} {req : SrArpreq}
    (queue : cache.requests = pre ++ req :: rest) (packet : List UInt8) (iface : Option Name) :
    (cache.enqueue req.addr packet iface).entries = cache.entries ∧
      ∃ packets, (cache.enqueue req.addr packet iface).requests =
          pre ++ { req with packets } :: rest ∧
        ∀ p ∈ packets, p ∈ req.packets ∨ (iface.isSome ∧ p.buf = packet) := by
  unfold SrArpcache.enqueue
  cases iface with
  | none => exact ⟨rfl, req.packets, queue, fun p hp => Or.inl hp⟩
  | some iface =>
    dsimp only
    split_ifs
    · exact ⟨rfl, req.packets, queue, fun p hp => Or.inl hp⟩
    · refine ⟨rfl, ⟨packet, iface⟩ :: req.packets, update_requests queue (fun r =>
        { r with packets := ⟨packet, iface⟩ :: r.packets }) fun _ => rfl, fun p hp => ?_⟩
      rcases List.mem_cons.1 hp with rfl | hp
      · exact Or.inr ⟨rfl, rfl⟩
      · exact Or.inl hp

/-- What stands in the queue after a packet was queued: the requests that were there, up to their
packets, and perhaps a new one. -/
theorem mem_queuereq {cache : SrArpcache} {gw : UInt32} {packet : List UInt8} {iface : Option Name}
    {req : SrArpreq} (mem : req ∈ (srArpcacheQueuereq cache gw packet iface).1.requests) :
    (∃ old ∈ cache.requests, req = { old with packets := req.packets }) ∨
      req.addr = cache.freshAddr ∧ req.timesSent = 0 := by
  have pushed : ∀ r ∈ (cache.requestFor gw).1.requests,
      r ∈ cache.requests ∨ r.addr = cache.freshAddr ∧ r.timesSent = 0 := by
    intro r hr
    unfold SrArpcache.requestFor at hr
    split at hr
    · exact Or.inl hr
    · rcases List.mem_cons.1 hr with rfl | hr
      · exact Or.inr ⟨rfl, rfl⟩
      · exact Or.inl hr
  have stored : ∃ r ∈ (cache.requestFor gw).1.requests, req = { r with packets := req.packets } := by
    change req ∈ ((cache.requestFor gw).1.enqueue _ packet iface).requests at mem
    unfold SrArpcache.enqueue at mem
    split at mem
    · split_ifs at mem
      · exact ⟨req, mem, rfl⟩
      · obtain ⟨r, hr, rfl⟩ := List.mem_map.1 mem
        refine ⟨r, hr, ?_⟩
        split_ifs <;> rfl
    · exact ⟨req, mem, rfl⟩
  obtain ⟨r, hr, same⟩ := stored
  rcases pushed r hr with old | ⟨new, zero⟩
  · exact Or.inl ⟨r, old, same⟩
  · refine Or.inr ⟨?_, ?_⟩
    · rw [same]
      exact new
    · rw [same]
      exact zero

theorem mem_queuereq_of_mem {cache : SrArpcache} {req : SrArpreq} (mem : req ∈ cache.requests)
    (gw : UInt32) (packet : List UInt8) (iface : Option Name) :
    ∃ packets, { req with packets } ∈ (srArpcacheQueuereq cache gw packet iface).1.requests := by
  have pushed : req ∈ (cache.requestFor gw).1.requests := by
    unfold SrArpcache.requestFor
    split
    · exact mem
    · exact List.mem_cons_of_mem _ mem
  show ∃ packets, _ ∈ ((cache.requestFor gw).1.enqueue (cache.requestFor gw).2 packet iface).requests
  unfold SrArpcache.enqueue
  split
  · rename_i iface
    split_ifs
    · exact ⟨req.packets, pushed⟩
    · by_cases same : req.addr = (cache.requestFor gw).2
      · exact ⟨⟨packet, iface⟩ :: req.packets, List.mem_map.2 ⟨req, pushed, if_pos same⟩⟩
      · exact ⟨req.packets, List.mem_map.2 ⟨req, pushed, if_neg same⟩⟩
  · exact ⟨req.packets, pushed⟩

theorem freshAddr_queuereq (cache : SrArpcache) (gw : UInt32) (packet : List UInt8)
    (iface : Option Name) :
    cache.freshAddr ≤ (srArpcacheQueuereq cache gw packet iface).1.freshAddr := by
  have kept : ∀ (cache : SrArpcache) addr,
      (cache.enqueue addr packet iface).freshAddr = cache.freshAddr := by
    intro cache addr
    unfold SrArpcache.enqueue
    split
    · split_ifs <;> rfl
    · rfl
  show _ ≤ ((cache.requestFor gw).1.enqueue _ packet iface).freshAddr
  rw [kept]
  unfold SrArpcache.requestFor
  split
  · exact le_rfl
  · exact Nat.le_succ _

theorem entries_queuereq (cache : SrArpcache) (gw : UInt32) (packet : List UInt8)
    (iface : Option Name) : (srArpcacheQueuereq cache gw packet iface).1.entries = cache.entries := by
  obtain ⟨entries, pre, req, rest, queue, ptr, -⟩ := requestFor_spec cache gw
  obtain ⟨entries', -⟩ := enqueue_spec queue packet iface
  rw [ptr] at entries'
  exact entries'.trans entries

/-! ## Sending -/

/-- The event of handing a frame to `sr_send_packet`. -/
def sendEvent (ifList : List SrIf) (buf : List UInt8) (iface : Name) : Event :=
  if sizeofEthernet ≤ buf.length ∧
      (srGetInterface ifList iface).any (fun i => (buf.drop 6).take 6 = i.addr.bytes) = true then
    .transmit iface buf
  else .refused iface buf

theorem srSendPacket_eq (c : Call) (buf : List UInt8) (iface : Name) :
    srSendPacket c buf iface = c.emit (sendEvent c.sr.ifList buf iface) := by
  unfold srSendPacket sendEvent
  by_cases short : buf.length < sizeofEthernet
  · rw [if_pos short, if_neg (by omega)]
  · rw [if_neg short]
    rcases named : srGetInterface c.sr.ifList iface with _ | i
    · simp
    · by_cases same : (buf.drop 6).take 6 = i.addr.bytes
      · rw [if_pos (by simp [same, Nat.le_of_not_lt short])]
        exact if_pos same
      · rw [if_neg (by simp [same])]
        exact if_neg same

theorem srSendArpRequest_eq (c : Call) (ip : UInt32) :
    srSendArpRequest c ip = { c with log := c.log ++
      (c.sr.ifList.map fun i => sendEvent c.sr.ifList (arpRequest i ip) i.name) } := by
  have fold : ∀ (ifs : List SrIf) (c : Call),
      ifs.foldl (fun c i => srSendPacket c (arpRequest i ip) i.name) c = { c with log := c.log ++
        (ifs.map fun i => sendEvent c.sr.ifList (arpRequest i ip) i.name) } := by
    intro ifs
    induction ifs with
    | nil => simp
    | cons i rest ih =>
      intro c
      rw [List.foldl_cons, srSendPacket_eq, ih]
      simp [Call.emit]
  exact fold c.sr.ifList c

/-! ## Requests -/

/-- The call after a round of `sr_send_arp_request` for the request at `addr`. -/
def askAgain (env : Env) (c : Call) (addr : ℕ) (ip : UInt32) : Call :=
  let c' := (srSendArpRequest { c with timeReads := c.timeReads + 2 } ip).emit
    (.asked addr (env.time c.timeReads))
  c'.setCache (c'.sr.cache.update addr
    (fun r => { r with sent := env.time c.timeReads, timesSent := r.timesSent + 1 }) fun _ => rfl)

/-- The call after the request at `addr` was destroyed. -/
def abandon (c : Call) (addr now : ℕ) (request : SrArpreq) : Call :=
  ((c.setCache (srArpreqDestroy c.sr.cache addr)).emit (.gaveUp addr now)).emit (.left request)

theorem handleArpreq_cases {env : Env} {fuel addr : ℕ} {c c' : Call}
    (run : handleArpreq env (fuel + 1) addr c = .ok c') :
    ∃ req, c.sr.cache.find addr = some req ∧
      ((env.time (c.timeReads + 1) ≤ req.sent + 1 ∧ c' = { c with timeReads := c.timeReads + 2 }) ∨
      (req.sent + 1 < env.time (c.timeReads + 1) ∧ req.timesSent < 5 ∧
        c' = askAgain env c addr req.ip) ∨
      (req.sent + 1 < env.time (c.timeReads + 1) ∧ 5 ≤ req.timesSent ∧ ∃ c₁ last,
        req.packets.foldlM (hostUnreachable env (handleArpreq env fuel) addr)
          { c with timeReads := c.timeReads + 2 } = .ok c₁ ∧
        c₁.sr.cache.find addr = some last ∧
        c' = abandon c₁ addr (env.time (c.timeReads + 1)) last)) := by
  rw [handleArpreq] at run
  dsimp only [Call.time] at run
  rcases found : c.sr.cache.find addr with _ | req
  · simp [found] at run
  simp only [found] at run
  refine ⟨req, rfl, ?_⟩
  by_cases old : req.sent + 1 < env.time (c.timeReads + 1)
  · by_cases often : 5 ≤ req.timesSent
    · rw [if_pos old, if_pos often] at run
      obtain ⟨c₁, told, run⟩ := bind_eq_ok.1 run
      rcases last : c₁.sr.cache.find addr with _ | req'
      · simp [last] at run
      · simp only [last] at run
        cases run
        exact Or.inr (Or.inr ⟨old, often, c₁, req', told, last, rfl⟩)
    · rw [if_pos old, if_neg often] at run
      cases run
      exact Or.inr (Or.inl ⟨old, Nat.lt_of_not_le often, rfl⟩)
  · rw [if_neg old] at run
    cases run
    exact Or.inl ⟨Nat.le_of_not_lt old, rfl⟩

/-- The effects of `handle_arpreq`, `sr_send_icmp_packet`, `sr_arpcache_sweepreqs` and of
`ip_forwarding` for packets of others.  A request is given up only after the sources of its packets
were told, which can have any of these effects. -/
inductive Does (env : Env) : Call → Call → Prop
  | refl (c : Call) : Does env c c
  | trans {c c' c'' : Call} : Does env c c' → Does env c' c'' → Does env c c''
  | malloc (c : Call) : Does env c { c with mallocs := c.mallocs + 1 }
  | icmp {c : Call} {i : SrIf} (own : i ∈ c.sr.ifList) (dhost : Mac) (dst : UInt32)
      (type code : UInt8) (unused data : List UInt8) :
      Does env c (srSendPacket c (icmpFrame dhost i.addr i.ip dst type code unused data) i.name)
  | forward {c : Call} {i : SrIf} (own : i ∈ c.sr.ifList) (dhost : Mac) {packet : List UInt8}
      (ttl : UInt8) (long : 34 ≤ packet.length) :
      Does env c (srSendPacket c (splice (splice (setIpSum (splice packet 22 [ttl])) 6 i.addr.bytes) 0
        dhost.bytes) i.name)
  | queue (c : Call) (gw : UInt32) (packet : List UInt8) (iface : Option Name) :
      Does env c (c.setCache (srArpcacheQueuereq c.sr.cache gw packet iface).1)
  | early {c : Call} {addr : ℕ} {req : SrArpreq} (found : c.sr.cache.find addr = some req) :
      Does env c { c with timeReads := c.timeReads + 2 }
  | ask {c : Call} {addr : ℕ} {req : SrArpreq} (found : c.sr.cache.find addr = some req)
      (due : req.sent + 1 < env.time (c.timeReads + 1)) (rare : req.timesSent < 5) :
      Does env c (askAgain env c addr req.ip)
  | giveUp {c c₁ : Call} {addr : ℕ} {req last : SrArpreq}
      (found : c.sr.cache.find addr = some req) (due : req.sent + 1 < env.time (c.timeReads + 1))
      (often : 5 ≤ req.timesSent) (told : Does env { c with timeReads := c.timeReads + 2 } c₁)
      (still : c₁.sr.cache.find addr = some last) :
      Does env c (abandon c₁ addr (env.time (c.timeReads + 1)) last)

section Handlers

variable {env : Env} {handle : ℕ → Call → Except Fault Call} {c c' : Call}

theorem srSendIcmpPacket_does {ip : UInt32} {ipPacket : List UInt8} {type code : UInt8}
    (does : ∀ addr c c', handle addr c = .ok c' → Does env c c')
    (run : srSendIcmpPacket env handle c ip ipPacket type code = .ok c') : Does env c c' := by
  unfold srSendIcmpPacket at run
  dsimp only at run
  split_ifs at run
  split at run
  · cases run
    exact .malloc c
  · split at run
    · cases run
    · rename_i route _ _ i own
      have mem : i ∈ ({ c with mallocs := c.mallocs + 1 } : Call).sr.ifList :=
        List.mem_of_find?_eq_some own
      split at run
      · cases run
        exact (Does.malloc c).trans (.icmp mem ..)
      · exact (Does.malloc c).trans ((Does.queue _ route.gw _ _).trans (does _ _ _ run))

/-- What an error to one source does, errors to all of them do. -/
theorem hostUnreachable_rule {R : Call → Call → Prop} (refl : ∀ c, R c c)
    (trans : ∀ {c c' c''}, R c c' → R c' c'' → R c c'') {addr : ℕ} (packets : List SrPacket)
    (sends : ∀ c c' ip ipPacket type code,
      srSendIcmpPacket env handle c ip ipPacket type code = .ok c' → R c c')
    (run : packets.foldlM (hostUnreachable env handle addr) c = .ok c') : R c c' := by
  induction packets generalizing c with
  | nil =>
    cases run
    exact refl _
  | cons p rest ih =>
    rw [List.foldlM_cons] at run
    obtain ⟨c₁, first, run⟩ := bind_eq_ok.1 run
    unfold hostUnreachable at first
    split_ifs at first
    exact trans (sends _ _ _ _ _ _ first) (ih run)

theorem hostUnreachable_does {addr : ℕ} (packets : List SrPacket)
    (does : ∀ addr c c', handle addr c = .ok c' → Does env c c')
    (run : packets.foldlM (hostUnreachable env handle addr) c = .ok c') : Does env c c' :=
  hostUnreachable_rule .refl .trans packets (fun _ _ _ _ _ _ => srSendIcmpPacket_does does) run

theorem handleArpreq_does (env : Env) (fuel addr : ℕ) (c c' : Call)
    (run : handleArpreq env fuel addr c = .ok c') : Does env c c' := by
  induction fuel generalizing addr c c' with
  | zero => cases run
  | succ fuel ih =>
    obtain ⟨req, found, ⟨-, rfl⟩ | ⟨due, rare, rfl⟩ | ⟨due, often, c₁, last, told, still, rfl⟩⟩ :=
      handleArpreq_cases run
    · exact .early found
    · exact .ask found due rare
    · exact .giveUp found due often (hostUnreachable_does req.packets ih told) still

theorem srSendIcmpPacket_mono {handle' : ℕ → Call → Except Fault Call} {ip : UInt32}
    {ipPacket : List UInt8} {type code : UInt8}
    (more : ∀ addr c c', handle addr c = .ok c' → handle' addr c = .ok c')
    (run : srSendIcmpPacket env handle c ip ipPacket type code = .ok c') :
    srSendIcmpPacket env handle' c ip ipPacket type code = .ok c' := by
  unfold srSendIcmpPacket at run ⊢
  dsimp only at run ⊢
  split_ifs at run ⊢
  split at run
  · exact run
  · split at run
    · cases run
    · split at run
      · exact run
      · exact more _ _ _ run

theorem hostUnreachable_mono {handle' : ℕ → Call → Except Fault Call} {addr : ℕ}
    (packets : List SrPacket)
    (more : ∀ addr c c', handle addr c = .ok c' → handle' addr c = .ok c')
    (run : packets.foldlM (hostUnreachable env handle addr) c = .ok c') :
    packets.foldlM (hostUnreachable env handle' addr) c = .ok c' := by
  induction packets generalizing c with
  | nil => exact run
  | cons p rest ih =>
    rw [List.foldlM_cons] at run ⊢
    obtain ⟨c₁, first, run⟩ := bind_eq_ok.1 run
    refine bind_eq_ok.2 ⟨c₁, ?_, ih run⟩
    unfold hostUnreachable at first ⊢
    split_ifs at first ⊢
    exact srSendIcmpPacket_mono more first

/-- With more fuel `handle_arpreq` does the same. -/
theorem handleArpreq_mono {fuel fuel' addr : ℕ} (run : handleArpreq env fuel addr c = .ok c')
    (more : fuel ≤ fuel') : handleArpreq env fuel' addr c = .ok c' := by
  induction fuel generalizing addr c c' fuel' with
  | zero => cases run
  | succ fuel ih =>
    obtain ⟨fuel', rfl⟩ : ∃ k, fuel' = k + 1 := ⟨fuel' - 1, by omega⟩
    rw [handleArpreq] at run ⊢
    dsimp only [Call.time] at run ⊢
    cases found : c.sr.cache.find addr with
    | none =>
      rw [found] at run
      cases run
    | some req =>
      simp only [found] at run ⊢
      split_ifs at run ⊢
      · obtain ⟨c₁, told, run⟩ := bind_eq_ok.1 run
        exact bind_eq_ok.2 ⟨c₁, hostUnreachable_mono req.packets
          (fun addr c c' run => ih run (by omega)) told, run⟩
      · exact run
      · exact run

/-- What `handle_arpreq` does to one request, the sweep does to the queue. -/
theorem sweepFrom_rule {R : Call → Call → Prop} (refl : ∀ c, R c c)
    (trans : ∀ {c c' c''}, R c c' → R c' c'' → R c c'') {fuel : ℕ} (n : ℕ) {req : Option ℕ}
    (handles : ∀ addr c c', handleArpreq env fuel addr c = .ok c' → R c c')
    (run : sweepFrom env fuel n req c = .ok c') : R c c' := by
  induction n generalizing req c with
  | zero =>
    cases req with
    | none =>
      cases run
      exact refl _
    | some addr => cases run
  | succ n ih =>
    cases req with
    | none =>
      cases run
      exact refl _
    | some addr =>
      rw [sweepFrom] at run
      split at run
      · cases run
      · obtain ⟨c₁, handled, run⟩ := bind_eq_ok.1 run
        exact trans (handles addr c c₁ handled) (ih run)

end Handlers

/-! ## Frames -/

/-- The frame is an ICMP echo request, correct as far as `sr_handlepacket` checks it, for one of the
router's own addresses. -/
def EchoRequest (sr : SrInstance) (packet : List UInt8) : Prop :=
  sizeofEthernet ≤ packet.length ∧ etherType packet = ethertypeIp ∧ ipChecks packet = true ∧
    (getInterfaceFromIp sr.ifList (ipDst packet)).isSome ∧ ipP packet = ipProtocolIcmp ∧
    icmpType packet = 8 ∧ icmpCode packet = 0

instance (sr : SrInstance) (packet : List UInt8) : Decidable (EchoRequest sr packet) :=
  inferInstanceAs (Decidable (_ ∧ _))

section Frames

variable {env : Env} {fuel : ℕ} {c c' : Call} {packet : List UInt8} {interface : Name}

theorem srHandleIpPacket_cases (long : 34 ≤ packet.length)
    (run : srHandleIpPacket env fuel c packet interface = .ok c') :
    ((getInterfaceFromIp c.sr.ifList (ipDst packet)).isSome ∧ ipP packet = ipProtocolIcmp ∧
      icmpType packet = 8 ∧ icmpCode packet = 0 ∧ ∃ i, srGetInterface c.sr.ifList interface = some i ∧
        c' = srSendPacket c (echoFrame packet i.ip) interface) ∨
    Does env c c' := by
  have handle := handleArpreq_does env fuel
  unfold srHandleIpPacket at run
  dsimp only at run
  split_ifs at run
  · exact Or.inr (srSendIcmpPacket_does handle run)
  unfold ipForwarding at run
  dsimp only at run
  rcases own : getInterfaceFromIp c.sr.ifList (ipDst packet) with _ | i
  · simp only [own] at run
    refine Or.inr ?_
    split_ifs at run
    · exact srSendIcmpPacket_does handle run
    · split at run
      · cases run
      · split at run
        · split at run
          · cases run
          · rename_i named
            rw [← Except.ok.inj run]
            exact .forward (List.mem_of_find?_eq_some named) _ _ long
        · exact (Does.queue c _ _ _).trans (handle _ _ _ run)
  · simp only [own] at run
    split_ifs at run with proto echo
    · split at run
      · cases run
      · rename_i i named
        exact Or.inl ⟨rfl, proto, echo.1, echo.2, i, named, (Except.ok.inj run).symm⟩
    · rw [← Except.ok.inj run]
      exact Or.inr (.refl c)
    · exact Or.inr (srSendIcmpPacket_does handle run)

theorem srHandlepacket_cases (run : srHandlepacket env fuel c packet interface = .ok c') :
    (EchoRequest c.sr packet ∧ ∃ i, srGetInterface c.sr.ifList interface = some i ∧
      c' = srSendPacket c (echoFrame packet i.ip) interface) ∨
    (etherType packet = ethertypeArp ∧ 42 ≤ packet.length ∧ ∃ i ∈ c.sr.ifList,
      c' = srSendPacket (learn env c (Mac.copy packet 22) (arSip packet)) (arpReply packet i) i.name) ∨
    c' = learn env c (Mac.copy packet 22) (arSip packet) ∨
    Does env c c' := by
  unfold srHandlepacket at run
  split_ifs at run with short arp ip sound
  · unfold srHandleArpPacket at run
    dsimp only at run
    rcases own : getInterfaceFromIp c.sr.ifList (arTip packet) with _ | i
    · simp only [own] at run
      split_ifs at run
      rw [← Except.ok.inj run]
      exact Or.inr (Or.inr (Or.inr (.refl c)))
    · simp only [own] at run
      split_ifs at run with small
      · exact Or.inr (Or.inl ⟨arp, Nat.le_of_not_lt small, i, List.mem_of_find?_eq_some own,
          (Except.ok.inj run).symm⟩)
      · exact Or.inr (Or.inr (Or.inl (Except.ok.inj run).symm))
      · rw [← Except.ok.inj run]
        exact Or.inr (Or.inr (Or.inr (.refl c)))
  · have long : 34 ≤ packet.length := by
      simp only [ipChecks, Bool.and_eq_true, decide_eq_true_eq] at sound
      exact sound.1.1
    rcases srHandleIpPacket_cases long run with ⟨own, proto, type, code, sent⟩ | does
    · exact Or.inl ⟨⟨Nat.le_of_not_lt short, ip, sound, own, proto, type, code⟩, sent⟩
    · exact Or.inr (Or.inr (Or.inr does))
  · rw [← Except.ok.inj run]
    exact Or.inr (Or.inr (Or.inr (.refl c)))
  · rw [← Except.ok.inj run]
    exact Or.inr (Or.inr (Or.inr (.refl c)))

theorem srArpcacheTimeout_does (run : srArpcacheTimeout env fuel c = .ok c') :
    Does env (({ c with timeReads := c.timeReads + 1 } : Call).setCache
      (expireEntries c.sr.cache (env.time c.timeReads))) c' :=
  sweepFrom_rule .refl .trans fuel (handleArpreq_does env fuel) run

end Frames

/-! ## A router to run -/

/-- Two interfaces, a route to a host behind the first and one to the first behind the second. -/
def twoInterfaces : SrInstance :=
  init [⟨[101, 48], ⟨[2, 0, 0, 0, 0, 1], rfl⟩, 0x0100000a⟩,
      ⟨[101, 49], ⟨[2, 0, 0, 0, 0, 2], rfl⟩, 0x0101000a⟩]
    [⟨0x0200a8c0, 0x0100000a, 0xffffffff, [101, 48]⟩, ⟨0x0100000a, 0x0101000a, 0xffffffff, [101, 49]⟩]

/-- A datagram from 192.168.0.2 to 8.8.8.8, for which there is no route. -/
def unroutable : List UInt8 :=
  [2, 0, 0, 0, 0, 1, 2, 0, 0, 0, 0, 9, 8, 0,
    0x45, 0, 0, 20, 0xaa, 0x1f, 0, 0, 64, 17, 0xff, 0xff, 192, 168, 0, 2, 8, 8, 8, 8]

/-- An ARP reply to the router in which `ip` says that it has the address `02:00:00:00:00:07`. -/
def arpReplyFrom (ip : UInt32) : List UInt8 :=
  [2, 0, 0, 0, 0, 1, 2, 0, 0, 0, 0, 7, 8, 6, 0, 1, 8, 0, 6, 4, 0, 2, 2, 0, 0, 0, 0, 7] ++
    bytesLE32 ip ++ [2, 0, 0, 0, 0, 1] ++ bytesLE32 0x0100000a

/-- An environment in which a call takes no time. -/
def envAt (t : ℕ) : Env := { time := fun _ => t, heap := fun _ => [] }

end ComputerNetwork.Router
