import ComputerNetwork.Lib.Cascade
import ComputerNetwork.Router.Entries
import ComputerNetwork.Router.Forwarding

/-!
# Requests that are given up

When `handle_arpreq` gives a request up, the errors it sends can be queued on other requests, which
are handled at once and may be given up in turn.  While the clock shows one time, this is a cascade of
messages (`handleArpreq_eq_giveUp`): the nodes are the addresses with an exhausted request, and what
waits there are the sources of its packets.
-/

namespace ComputerNetwork.Router

open Lib

/-! ## The cascade of a router -/

/-- `handle_arpreq` gives the request up at time `t`. -/
def Exhausted (t : ℕ) (req : SrArpreq) : Prop := req.sent + 1 < t ∧ 5 ≤ req.timesSent

instance (t : ℕ) (req : SrArpreq) : Decidable (Exhausted t req) :=
  inferInstanceAs (Decidable (_ ∧ _))

/-- Whom `handle_arpreq` tells about a packet; one shorter than what the error quotes is read beyond
its end. -/
def toldSource (packet : SrPacket) : Option UInt32 :=
  if packet.buf.length < sizeofEthernet + icmpDataSize then none else some (ipSrc packet.buf)

/-- The exhausted requests. -/
def exhausted (t : ℕ) (cache : SrArpcache) : Cascade.Pending UInt32 := fun ip =>
  (cache.findIp ip).bind fun req =>
    if Exhausted t req then some (req.packets.map toldSource) else none

/-- What becomes of an error message: it waits where the gateway of its route is not in the cache, and
`sr_send_icmp_packet` fails where no interface has the gateway's address. -/
def messages (sr : SrInstance) : Cascade.Messages UInt32 where
  next ip := (routeMatch sr.routingTable ip).bind fun route =>
    if (getInterfaceFromIp sr.ifList route.gw).isSome ∧ srArpcacheLookup sr.cache route.gw = none then
      some route.gw
    else none
  lost ip := (routeMatch sr.routingTable ip).any fun route =>
    (getInterfaceFromIp sr.ifList route.gw).isNone

/-! ## What a call does to the queue -/

/-- What of a request decides how it is handled, but for its packets. -/
structure Ticket where
  addr : ℕ
  ip : UInt32
  due : Bool

def ticket (t : ℕ) (req : SrArpreq) : Ticket := ⟨req.addr, req.ip, decide (Exhausted t req)⟩

def tickets (t : ℕ) (cache : SrArpcache) : List Ticket := cache.requests.map (ticket t)

/-- No two requests are for the same address. -/
def OnePerIp (cache : SrArpcache) : Prop := (cache.requests.map SrArpreq.ip).Nodup

section Queue

variable {t : ℕ} {cache : SrArpcache} {req : SrArpreq}

theorem eq_of_addr {addr : ℕ} {r : SrArpreq} (found : cache.find addr = some req)
    (mem : r ∈ cache.requests) (here : r.addr = addr) : r = req :=
  Option.some.inj ((find_eq_some_iff.2 ⟨mem, here⟩).symm.trans found)

theorem onePerIp_iff (t : ℕ) (cache : SrArpcache) :
    OnePerIp cache ↔ ((tickets t cache).map Ticket.ip).Nodup := by
  rw [OnePerIp, tickets, List.map_map]
  rfl

theorem findIp_eq_some_iff (unique : OnePerIp cache) {ip : UInt32} :
    cache.findIp ip = some req ↔ req ∈ cache.requests ∧ req.ip = ip := by
  constructor
  · intro found
    exact ⟨List.mem_of_find?_eq_some found, by simpa using List.find?_some found⟩
  · rintro ⟨mem, rfl⟩
    cases found : cache.findIp req.ip with
    | none => exact absurd (decide_eq_true rfl) (List.find?_eq_none.1 found req mem)
    | some other =>
      have same : other.ip = req.ip := by simpa using List.find?_some found
      rw [List.inj_on_of_nodup_map unique (List.mem_of_find?_eq_some found) mem same]

theorem exhausted_eq_some_iff (unique : OnePerIp cache) {ip : UInt32} {l : List (Option UInt32)} :
    exhausted t cache ip = some l ↔
      ∃ req ∈ cache.requests, req.ip = ip ∧ Exhausted t req ∧ req.packets.map toldSource = l := by
  unfold exhausted
  rw [Option.bind_eq_some_iff]
  constructor
  · rintro ⟨req, found, gives⟩
    obtain ⟨mem, same⟩ := (findIp_eq_some_iff unique).1 found
    split_ifs at gives with due
    exact ⟨req, mem, same, due, Option.some.inj gives⟩
  · rintro ⟨req, mem, same, due, rfl⟩
    exact ⟨req, (findIp_eq_some_iff unique).2 ⟨mem, same⟩, if_pos due⟩

/-- Storing to a request what does not change its ticket. -/
theorem tickets_update {addr : ℕ} (f : SrArpreq → SrArpreq) (still : ∀ r, (f r).addr = r.addr)
    (same : ∀ r ∈ cache.requests, r.addr = addr → ticket t (f r) = ticket t r) :
    tickets t (cache.update addr f still) = tickets t cache := by
  unfold tickets SrArpcache.update
  rw [List.map_map]
  refine List.map_congr_left fun r mem => ?_
  rw [Function.comp_apply]
  split_ifs with here
  · exact same r mem here
  · rfl

theorem tickets_enqueue (addr : ℕ) (packet : List UInt8) (iface : Option Name) :
    tickets t (cache.enqueue addr packet iface) = tickets t cache := by
  unfold SrArpcache.enqueue
  split
  · split_ifs
    · rfl
    · exact tickets_update _ _ fun _ _ _ => rfl
  · rfl

theorem tickets_queuereq (gw : UInt32) (packet : List UInt8) (iface : Option Name) :
    tickets t (srArpcacheQueuereq cache gw packet iface).1 = tickets t cache ∨
      cache.findIp gw = none ∧ tickets t (srArpcacheQueuereq cache gw packet iface).1 =
        ⟨cache.freshAddr, gw, false⟩ :: tickets t cache := by
  show tickets t ((cache.requestFor gw).1.enqueue _ packet iface) = _ ∨
    _ ∧ tickets t ((cache.requestFor gw).1.enqueue _ packet iface) = _
  simp only [tickets_enqueue]
  unfold SrArpcache.requestFor
  cases waiting : cache.findIp gw with
  | some req => exact Or.inl rfl
  | none => exact Or.inr ⟨rfl, by simp [tickets, SrArpcache.push, ticket, Exhausted]⟩

/-- How a call leaves the queue while the clock shows `t`: new requests stand in front, and the old
ones are there in the same order, but for exhausted ones that are gone. -/
structure Evolves (t : ℕ) (sr sr' : SrInstance) : Prop where
  ifList : sr'.ifList = sr.ifList
  routingTable : sr'.routingTable = sr.routingTable
  entries : sr'.cache.entries = sr.cache.entries
  fresh : sr.cache.freshAddr ≤ sr'.cache.freshAddr
  unique : OnePerIp sr.cache → OnePerIp sr'.cache
  queue : ∃ new kept, tickets t sr'.cache = new ++ kept ∧ kept.Sublist (tickets t sr.cache) ∧
    (∀ k ∈ new, sr.cache.freshAddr ≤ k.addr ∧ k.due = false) ∧
    ∀ k ∈ tickets t sr.cache, k.due = false → k ∈ kept

theorem Evolves.of_tickets {sr sr' : SrInstance} (ifList : sr'.ifList = sr.ifList)
    (routingTable : sr'.routingTable = sr.routingTable)
    (entries : sr'.cache.entries = sr.cache.entries)
    (fresh : sr'.cache.freshAddr = sr.cache.freshAddr)
    (same : tickets t sr'.cache = tickets t sr.cache) : Evolves t sr sr' where
  ifList := ifList
  routingTable := routingTable
  entries := entries
  fresh := fresh.ge
  unique := by
    rw [onePerIp_iff t, onePerIp_iff t, same]
    exact id
  queue := ⟨[], tickets t sr.cache, same, List.Sublist.refl _, by simp, fun k mem _ => mem⟩

theorem Evolves.refl (t : ℕ) (sr : SrInstance) : Evolves t sr sr := .of_tickets rfl rfl rfl rfl rfl

theorem addr_lt_of_ticket {k : Ticket} (mem : k ∈ tickets t cache) : k.addr < cache.freshAddr := by
  obtain ⟨r, hr, rfl⟩ := List.mem_map.1 mem
  exact cache.below r hr

theorem Evolves.trans {sr sr' sr'' : SrInstance} (first : Evolves t sr sr')
    (second : Evolves t sr' sr'') : Evolves t sr sr'' where
  ifList := second.ifList.trans first.ifList
  routingTable := second.routingTable.trans first.routingTable
  entries := second.entries.trans first.entries
  fresh := first.fresh.trans second.fresh
  unique := second.unique ∘ first.unique
  queue := by
    obtain ⟨new, kept, eq, sub, young, stay⟩ := first.queue
    obtain ⟨new', kept', eq', sub', young', stay'⟩ := second.queue
    rw [eq] at sub' stay'
    obtain ⟨left, right, rfl, left_sub, right_sub⟩ := List.sublist_append_iff.1 sub'
    refine ⟨new' ++ left, right, by rw [eq', List.append_assoc], right_sub.trans sub, ?_, ?_⟩
    · intro k mem
      cases List.mem_append.1 mem with
      | inl mem => exact ⟨first.fresh.trans (young' k mem).1, (young' k mem).2⟩
      | inr mem => exact young k (left_sub.subset mem)
    · intro k mem due
      have kept := stay' k (List.mem_append_right _ (stay k mem due)) due
      refine (List.mem_append.1 kept).resolve_left fun mem' => ?_
      exact absurd (young k (left_sub.subset mem')).1 (by have := addr_lt_of_ticket mem; omega)

/-- A request of the later queue is an earlier one or new. -/
theorem Evolves.origin {sr sr' : SrInstance} (evolves : Evolves t sr sr') {r' : SrArpreq}
    (mem : r' ∈ sr'.cache.requests) : (∃ r ∈ sr.cache.requests, ticket t r = ticket t r') ∨
      sr.cache.freshAddr ≤ r'.addr ∧ ¬ Exhausted t r' := by
  obtain ⟨new, kept, eq, sub, young, -⟩ := evolves.queue
  have listed : ticket t r' ∈ new ++ kept := eq ▸ List.mem_map_of_mem mem
  cases List.mem_append.1 listed with
  | inl fresh => exact Or.inr ⟨(young _ fresh).1, by simpa [ticket] using (young _ fresh).2⟩
  | inr old =>
    obtain ⟨r, hr, same⟩ := List.mem_map.1 (sub.subset old)
    exact Or.inl ⟨r, hr, same⟩

/-- A pointer to a request still points to it, if to anything. -/
theorem Evolves.ticket_eq {sr sr' : SrInstance} {addr : ℕ} {req' : SrArpreq}
    (evolves : Evolves t sr sr') (found : sr.cache.find addr = some req)
    (found' : sr'.cache.find addr = some req') : ticket t req' = ticket t req := by
  obtain ⟨mem, here⟩ := find_eq_some_iff.1 found
  obtain ⟨mem', here'⟩ := find_eq_some_iff.1 found'
  cases evolves.origin mem' with
  | inl old =>
    obtain ⟨r, hr, same⟩ := old
    have addr_eq : r.addr = req'.addr := congrArg Ticket.addr same
    rw [← same, eq_of_addr found hr (addr_eq.trans here')]
  | inr fresh =>
    have below := sr.cache.below req mem
    omega

end Queue

/-! ## Any effect of a call -/

section Effects

variable {env : Env} {t : ℕ}

theorem Evolves.queuereq (sr : SrInstance) (gw : UInt32) (packet : List UInt8) (iface : Option Name) :
    Evolves t sr { sr with cache := (srArpcacheQueuereq sr.cache gw packet iface).1 } where
  ifList := rfl
  routingTable := rfl
  entries := entries_queuereq sr.cache gw packet iface
  fresh := freshAddr_queuereq sr.cache gw packet iface
  unique := by
    rw [onePerIp_iff t, onePerIp_iff t]
    intro unique
    show ((tickets t (srArpcacheQueuereq sr.cache gw packet iface).1).map Ticket.ip).Nodup
    cases tickets_queuereq (t := t) gw packet iface with
    | inl same => exact same.symm ▸ unique
    | inr pushed =>
      rw [pushed.2, List.map_cons, List.nodup_cons]
      refine ⟨fun mem => ?_, unique⟩
      obtain ⟨k, hk, same⟩ := List.mem_map.1 mem
      obtain ⟨r, hr, rfl⟩ := List.mem_map.1 hk
      exact absurd (decide_eq_true same) (List.find?_eq_none.1 pushed.1 r hr)
  queue := by
    cases tickets_queuereq (t := t) gw packet iface with
    | inl same => exact ⟨[], _, same, List.Sublist.refl _, by simp, fun k mem _ => mem⟩
    | inr pushed =>
      exact ⟨[_], _, pushed.2, List.Sublist.refl _, by simp, fun k mem _ => mem⟩

theorem Evolves.destroy {sr : SrInstance} {req : SrArpreq} (mem : req ∈ sr.cache.requests)
    (due : Exhausted t req) :
    Evolves t sr { sr with cache := srArpreqDestroy sr.cache req.addr } where
  ifList := rfl
  routingTable := rfl
  entries := rfl
  fresh := le_rfl
  unique unique := (List.eraseP_sublist.map SrArpreq.ip).nodup unique
  queue := by
    obtain ⟨pre, rest, queue⟩ := List.append_of_mem mem
    refine ⟨[], _, rfl, List.eraseP_sublist.map (ticket t), by simp, fun k mem young => ?_⟩
    obtain ⟨r, hr, rfl⟩ := List.mem_map.1 mem
    refine List.mem_map_of_mem ?_
    rw [queue] at hr
    show r ∈ (srArpreqDestroy sr.cache req.addr).requests
    rw [destroy_requests queue]
    have other : r ≠ req := by
      rintro rfl
      exact absurd due (by simpa [ticket] using young)
    simpa [other] using hr

/-- Whatever a call does while the clock shows `t`, the queue evolves. -/
theorem Does.evolves {c c' : Call} (still : ∀ k, env.time k = t) (does : Does env c c') :
    Evolves t c.sr c'.sr := by
  induction does with
  | refl | malloc | early => exact .refl t _
  | trans _ _ ih ih' => exact ih.trans ih'
  | icmp | forward =>
    rw [srSendPacket_eq]
    exact .refl t _
  | queue c gw packet iface => exact .queuereq c.sr gw packet iface
  | @ask c addr req found due rare =>
    unfold askAgain
    rw [srSendArpRequest_eq]
    refine .of_tickets rfl rfl rfl rfl (tickets_update (fun r =>
      { r with sent := env.time c.timeReads, timesSent := r.timesSent + 1 }) (fun _ => rfl)
        fun r mem here => ?_)
    have same := eq_of_addr found mem here
    have before : ¬ Exhausted t r := fun due => absurd due.2 (by rw [same]; omega)
    have after : ¬ Exhausted t { r with sent := env.time c.timeReads, timesSent := r.timesSent + 1 } :=
      fun due => absurd due.1 (by simp only [still]; omega)
    simp only [ticket, before, after]
  | @giveUp c c₁ addr req last found due often _ still' ih =>
    refine ih.trans ?_
    obtain ⟨mem₁, here₁⟩ := find_eq_some_iff.1 still'
    have same := ih.ticket_eq found still'
    have due_eq : decide (Exhausted t last) = decide (Exhausted t req) := congrArg Ticket.due same
    have exhausted : Exhausted t last :=
      (decide_eq_decide.1 due_eq).2 ⟨by rw [← still (c.timeReads + 1)]; exact due, often⟩
    show Evolves t c₁.sr { c₁.sr with cache := srArpreqDestroy c₁.sr.cache addr }
    rw [← here₁]
    exact .destroy mem₁ exhausted

end Effects

/-! ## The handlers cascade -/

section Cascading

variable {env : Env} {t : ℕ} {cache : SrArpcache} {req : SrArpreq}

theorem messages_congr {sr sr' : SrInstance} (ifList : sr'.ifList = sr.ifList)
    (routingTable : sr'.routingTable = sr.routingTable)
    (entries : sr'.cache.entries = sr.cache.entries) : messages sr' = messages sr := by
  have lookup : srArpcacheLookup sr'.cache = srArpcacheLookup sr.cache := by
    unfold srArpcacheLookup
    rw [entries]
  simp only [messages, ifList, routingTable, lookup]

theorem messages_eq {sr sr' : SrInstance} (evolves : Evolves t sr sr') :
    messages sr' = messages sr :=
  messages_congr evolves.ifList evolves.routingTable evolves.entries

theorem exhausted_of_not (unique : OnePerIp cache) (mem : req ∈ cache.requests)
    (young : ¬ Exhausted t req) : exhausted t cache req.ip = none := by
  rw [exhausted, (findIp_eq_some_iff unique).2 ⟨mem, rfl⟩, Option.bind_some, if_neg young]

theorem exhausted_of_mem (unique : OnePerIp cache) (mem : req ∈ cache.requests)
    (due : Exhausted t req) : exhausted t cache req.ip = some (req.packets.map toldSource) := by
  rw [exhausted, (findIp_eq_some_iff unique).2 ⟨mem, rfl⟩, Option.bind_some, if_pos due]

theorem onePerIp_update (unique : OnePerIp cache) (addr : ℕ) (f : SrArpreq → SrArpreq)
    (still : ∀ r, (f r).addr = r.addr) (ips : ∀ r, (f r).ip = r.ip) :
    OnePerIp (cache.update addr f still) := by
  have same : (cache.update addr f still).requests.map SrArpreq.ip =
      cache.requests.map SrArpreq.ip := by
    rw [SrArpcache.update, List.map_map]
    refine List.map_congr_left fun r _ => ?_
    rw [Function.comp_apply]
    split_ifs
    · exact ips r
    · rfl
  rw [OnePerIp, same]
  exact unique

/-- Storing to a request that is not exhausted and will not be. -/
theorem exhausted_update (unique : OnePerIp cache) {addr : ℕ} (f : SrArpreq → SrArpreq)
    (still : ∀ r, (f r).addr = r.addr) (ips : ∀ r, (f r).ip = r.ip)
    (young : ∀ r ∈ cache.requests, r.addr = addr → ¬ Exhausted t r ∧ ¬ Exhausted t (f r)) :
    exhausted t (cache.update addr f still) = exhausted t cache := by
  have unique' := onePerIp_update unique addr f still ips
  funext ip
  refine Option.ext fun l => ?_
  rw [exhausted_eq_some_iff unique', exhausted_eq_some_iff unique]
  constructor
  · rintro ⟨r', mem, rfl, due, rfl⟩
    obtain ⟨r, hr, rfl⟩ := List.mem_map.1 mem
    split_ifs at due ⊢ with here
    · exact absurd due (young r hr here).2
    · exact ⟨r, hr, rfl, due, rfl⟩
  · rintro ⟨r, hr, rfl, due, rfl⟩
    have apart : r.addr ≠ addr := fun here => (young r hr here).1 due
    exact ⟨r, List.mem_map.2 ⟨r, hr, if_neg apart⟩, rfl, due, rfl⟩

theorem exhausted_push (t : ℕ) {ip : UInt32} (waiting : cache.findIp ip = none) :
    exhausted t (cache.push ip) = exhausted t cache := by
  funext ip'
  by_cases same : ip = ip'
  · subst same
    have found : (cache.push ip).findIp ip = some ⟨cache.freshAddr, ip, 0, 0, []⟩ :=
      List.find?_cons_of_pos (by simp)
    rw [exhausted, exhausted, found, waiting, Option.bind_some, if_neg (by simp [Exhausted])]
    rfl
  · have found : (cache.push ip).findIp ip' = cache.findIp ip' :=
      List.find?_cons_of_neg (by simpa using same)
    rw [exhausted, exhausted, found]

/-- The search for another address passes a request by. -/
theorem findIp_beside {pre rest : List SrArpreq} (queue : cache.requests = pre ++ req :: rest)
    {ip : UInt32} (other : req.ip ≠ ip) :
    cache.findIp ip = (pre ++ rest).find? fun r => r.ip = ip := by
  rw [SrArpcache.findIp, queue, List.find?_append, List.find?_append,
    List.find?_cons_of_neg (by simpa using other)]

theorem exhausted_enqueue (unique : OnePerIp cache) (mem : req ∈ cache.requests)
    (due : Exhausted t req) {frame : List UInt8} {name : Name} (filled : frame ≠ [])
    (told : toldSource ⟨frame, name⟩ = some req.ip) :
    exhausted t (cache.enqueue req.addr frame (some name)) =
      Cascade.push (exhausted t cache) req.ip := by
  obtain ⟨pre, rest, queue⟩ := List.append_of_mem mem
  have stored : (cache.enqueue req.addr frame (some name)).requests =
      pre ++ { req with packets := ⟨frame, name⟩ :: req.packets } :: rest := by
    rw [SrArpcache.enqueue, if_neg filled]
    exact update_requests queue (fun r => { r with packets := ⟨frame, name⟩ :: r.packets })
      fun _ => rfl
  have unique' : OnePerIp (cache.enqueue req.addr frame (some name)) := by
    rw [onePerIp_iff t, tickets_enqueue, ← onePerIp_iff]
    exact unique
  funext ip
  by_cases same : ip = req.ip
  · subst same
    rw [Cascade.push_self (exhausted_of_mem unique mem due), exhausted_eq_some_iff unique']
    refine ⟨{ req with packets := ⟨frame, name⟩ :: req.packets }, ?_, rfl, due, ?_⟩
    · rw [stored]
      exact List.mem_append_right _ (List.mem_cons_self ..)
    · rw [List.map_cons, told]
  · rw [Cascade.push_of_ne same]
    unfold exhausted
    rw [findIp_beside queue (Ne.symm same), findIp_beside stored (Ne.symm same)]

/-- An error that is queued for `gw` is, like all that the router sends there, from the interface with
that address. -/
theorem exhausted_queuereq (unique : OnePerIp cache) {gw : UInt32} {frame : List UInt8} {name : Name}
    (long : sizeofEthernet + icmpDataSize ≤ frame.length) (own : ipSrc frame = gw) :
    exhausted t (srArpcacheQueuereq cache gw frame (some name)).1 =
      Cascade.push (exhausted t cache) gw := by
  have filled : frame ≠ [] := by
    rintro rfl
    exact absurd long (by decide)
  have told : toldSource ⟨frame, name⟩ = some gw := by
    rw [toldSource, if_neg (Nat.not_lt.2 long), own]
  cases waiting : cache.findIp gw with
  | none =>
    have absent : exhausted t cache gw = none := by rw [exhausted, waiting, Option.bind_none]
    have unique' : OnePerIp (cache.push gw) := by
      refine List.nodup_cons.2 ⟨fun mem => ?_, unique⟩
      obtain ⟨r, hr, same⟩ := List.mem_map.1 mem
      exact absurd (decide_eq_true same) (List.find?_eq_none.1 waiting r hr)
    rw [srArpcacheQueuereq, SrArpcache.requestFor, waiting, Cascade.push_of_none absent,
      ← exhausted_push t waiting]
    simp only [SrArpcache.enqueue, if_neg filled]
    refine exhausted_update unique' _ _ (fun _ => rfl) fun r mem here => ?_
    have fresh : r = ⟨cache.freshAddr, gw, 0, 0, []⟩ :=
      (List.mem_cons.1 mem).resolve_right fun old => absurd here (cache.below r old).ne
    rw [fresh]
    exact ⟨by simp [Exhausted], by simp [Exhausted]⟩
  | some req =>
    obtain ⟨mem, same⟩ := (findIp_eq_some_iff unique).1 waiting
    rw [srArpcacheQueuereq, SrArpcache.requestFor, waiting]
    subst same
    by_cases due : Exhausted t req
    · exact exhausted_enqueue unique mem due filled told
    · rw [Cascade.push_of_none (exhausted_of_not unique mem due)]
      simp only [SrArpcache.enqueue, if_neg filled]
      refine exhausted_update unique _ _ (fun _ => rfl) fun r hr here => ?_
      have same := eq_of_addr (find_eq_some_iff.2 ⟨mem, rfl⟩) hr here
      exact same ▸ ⟨due, due⟩

theorem exhausted_destroy (unique : OnePerIp cache) (mem : req ∈ cache.requests) :
    exhausted t (srArpreqDestroy cache req.addr) = Cascade.erase (exhausted t cache) req.ip := by
  obtain ⟨pre, rest, queue⟩ := List.append_of_mem mem
  have unique' : OnePerIp (srArpreqDestroy cache req.addr) :=
    (List.eraseP_sublist.map SrArpreq.ip).nodup unique
  funext ip
  by_cases same : ip = req.ip
  · subst same
    rw [Cascade.erase, Function.update_self, Option.eq_none_iff_forall_ne_some]
    intro l
    rw [Ne, exhausted_eq_some_iff unique', destroy_requests queue]
    have apart : ∀ r ∈ pre ++ rest, r.ip ≠ req.ip := by
      rw [OnePerIp, queue] at unique
      have swapped := (List.perm_middle.map SrArpreq.ip).nodup_iff.1 unique
      rw [List.map_cons, List.nodup_cons] at swapped
      exact fun r hr same => swapped.1 (same ▸ List.mem_map_of_mem hr)
    rintro ⟨r, hr, same, -⟩
    exact apart r hr same
  · rw [Cascade.erase, Function.update_of_ne same]
    unfold exhausted
    rw [findIp_beside queue (Ne.symm same), SrArpcache.findIp, destroy_requests queue]

/-- What a call leaves of the exhausted requests, if it ends. -/
def outcome (t : ℕ) (result : Except Fault Call) : Option (Cascade.Pending UInt32) :=
  result.toOption.map fun c => exhausted t c.sr.cache

theorem outcome_bind (x : Except Fault Call) (f : Call → Except Fault Call) :
    outcome t (x >>= f) = x.toOption.bind fun c => outcome t (f c) := by
  cases x with
  | error e => rfl
  | ok c => rfl

theorem length_icmpFrame_eq (dhost shost : Mac) (src dst : UInt32) (type code : UInt8)
    (unused data : List UInt8) : (icmpFrame dhost shost src dst type code unused data).length =
      38 + unused.length + data.length := by
  simp only [icmpFrame, icmpIpHeader, icmpT3Header, List.length_append, dhost.size, shost.size,
    length_bytesBE16, length_bytesLE32, List.length_cons, List.length_nil]
  omega

theorem find_requestFor (cache : SrArpcache) (gw : UInt32) : ∃ req,
    (cache.requestFor gw).1.find (cache.requestFor gw).2 = some req ∧ req.ip = gw := by
  unfold SrArpcache.requestFor
  cases waiting : cache.findIp gw with
  | none => exact ⟨⟨cache.freshAddr, gw, 0, 0, []⟩, List.find?_cons_of_pos (by simp), rfl⟩
  | some req =>
    refine ⟨req, find_eq_some_iff.2 ⟨List.mem_of_find?_eq_some waiting, rfl⟩, ?_⟩
    simpa using List.find?_some waiting

theorem find_queuereq (cache : SrArpcache) (gw : UInt32) (packet : List UInt8)
    (iface : Option Name) : ∃ req, (srArpcacheQueuereq cache gw packet iface).1.find
      (srArpcacheQueuereq cache gw packet iface).2 = some req ∧ req.ip = gw := by
  obtain ⟨req, found, same⟩ := find_requestFor cache gw
  show ∃ req, ((cache.requestFor gw).1.enqueue (cache.requestFor gw).2 packet iface).find _ =
    some req ∧ _
  unfold SrArpcache.enqueue
  split
  · split_ifs
    · exact ⟨req, found, same⟩
    · exact ⟨_, find_update found _ _, same⟩
  · exact ⟨req, found, same⟩

/-- The ways of an error message: it fails, it is sent or dropped, or it waits. -/
theorem srSendIcmpPacket_ways (env : Env) (handle : ℕ → Call → Except Fault Call) (c : Call)
    (ip : UInt32) {ipPacket : List UInt8} (type code : UInt8)
    (long : icmpDataSize ≤ ipPacket.length) :
    ((messages c.sr).lost ip = true ∧
      ∃ e, srSendIcmpPacket env handle c ip ipPacket type code = .error e) ∨
    ((messages c.sr).lost ip = false ∧ (messages c.sr).next ip = none ∧
      ∃ c', srSendIcmpPacket env handle c ip ipPacket type code = .ok c' ∧ c'.sr = c.sr) ∨
    ((messages c.sr).lost ip = false ∧ ∃ gw frame name, (messages c.sr).next ip = some gw ∧
      sizeofEthernet + icmpDataSize ≤ frame.length ∧ ipSrc frame = gw ∧
      srSendIcmpPacket env handle c ip ipPacket type code =
        handle (srArpcacheQueuereq c.sr.cache gw frame (some name)).2
          ({ c with mallocs := c.mallocs + 1 }.setCache
            (srArpcacheQueuereq c.sr.cache gw frame (some name)).1)) := by
  rw [srSendIcmpPacket_eq, icmpHandover, if_neg (Nat.not_lt.2 long)]
  cases routed : routeMatch c.sr.routingTable ip with
  | none =>
    refine Or.inr (Or.inl ⟨by simp [messages, routed], by simp [messages, routed], ?_⟩)
    exact ⟨_, rfl, rfl⟩
  | some route =>
    cases own : getInterfaceFromIp c.sr.ifList route.gw with
    | none =>
      refine Or.inl ⟨by simp [messages, routed, own], .nullDeref, ?_⟩
      simp only [own]
      rfl
    | some i =>
      have found : (messages c.sr).lost ip = false := by simp [messages, routed, own]
      cases cached : srArpcacheLookup c.sr.cache route.gw with
      | some entry =>
        refine Or.inr (Or.inl ⟨found, by simp [messages, routed, own, cached], ?_⟩)
        simp only [own, cached]
        refine ⟨_, rfl, ?_⟩
        rw [srSendPacket_eq]
        rfl
      | none =>
        have gateway : i.ip = route.gw := by simpa [eq_comm] using List.find?_some own
        refine Or.inr (Or.inr ⟨found, route.gw, icmpFrame (Mac.copy (env.heap c.mallocs) 0) i.addr i.ip
          ip type code ((List.range 4).map fun k => load8 (env.heap c.mallocs) (38 + k))
          (ipPacket.take icmpDataSize), i.name, by simp [messages, routed, own, cached], ?_, ?_, ?_⟩)
        · rw [length_icmpFrame_eq, List.length_map, List.length_range, List.length_take]
          simp only [sizeofEthernet, icmpDataSize] at long ⊢
          omega
        · exact (icmpFrame_fields _ _ _ _ _ _ _ _).2.2.1.trans gateway
        · simp only [own, cached]
          rfl

/-- An error message is a message of the cascade. -/
theorem srSendIcmpPacket_eq_tell {handle : ℕ → Call → Except Fault Call} {c : Call}
    {give : Cascade.Pending UInt32 → UInt32 → Option (Cascade.Pending UInt32)}
    (gives : ∀ addr c' req, Evolves t c.sr c'.sr → c'.sr.cache.find addr = some req →
      outcome t (handle addr c') = give (exhausted t c'.sr.cache) req.ip)
    (unique : OnePerIp c.sr.cache) (ip : UInt32) {ipPacket : List UInt8} (type code : UInt8)
    (long : icmpDataSize ≤ ipPacket.length) :
    outcome t (srSendIcmpPacket env handle c ip ipPacket type code) =
      Cascade.tell (messages c.sr) give (exhausted t c.sr.cache) ip := by
  rcases srSendIcmpPacket_ways env handle c ip type code long with
    ⟨lost, e, fails⟩ | ⟨found, next, c', sent, same⟩ | ⟨found, gw, frame, name, next, size, own, waits⟩
  · rw [fails, Cascade.tell_of_lost lost]
    rfl
  · rw [sent, Cascade.tell_of_none found next, ← same]
    rfl
  · obtain ⟨req, queued, same⟩ := find_queuereq c.sr.cache gw frame (some name)
    have handled := gives _ ({ c with mallocs := c.mallocs + 1 }.setCache
      (srArpcacheQueuereq c.sr.cache gw frame (some name)).1) req (.queuereq c.sr gw frame _) queued
    rw [same] at handled
    rw [waits, Cascade.tell_of_some found next, ← exhausted_queuereq unique size own]
    exact handled

theorem srSendIcmpPacket_short (env : Env) (handle : ℕ → Call → Except Fault Call) (c : Call)
    (ip : UInt32) {ipPacket : List UInt8} (type code : UInt8)
    (short : ipPacket.length < icmpDataSize) :
    srSendIcmpPacket env handle c ip ipPacket type code = .error .outOfBounds := by
  rw [srSendIcmpPacket_eq, icmpHandover, if_pos short]
  rfl

/-- While a request is being given up, it is there as long as its address has an exhausted request. -/
theorem find_isNone_iff {sr sr' : SrInstance} {addr : ℕ} (unique : OnePerIp sr.cache)
    (found : sr.cache.find addr = some req) (due : Exhausted t req) (evolves : Evolves t sr sr') :
    (sr'.cache.find addr).isNone = (exhausted t sr'.cache req.ip).isNone := by
  have unique' := evolves.unique unique
  rw [Bool.eq_iff_iff, Option.isNone_iff_eq_none, Option.isNone_iff_eq_none, ← not_iff_not]
  constructor
  · intro there
    obtain ⟨r', found'⟩ := Option.ne_none_iff_exists'.1 there
    have same := evolves.ticket_eq found found'
    have due_eq : decide (Exhausted t r') = decide (Exhausted t req) := congrArg Ticket.due same
    have ip_eq : r'.ip = req.ip := congrArg Ticket.ip same
    rw [← ip_eq, exhausted_of_mem unique' (find_eq_some_iff.1 found').1
      ((decide_eq_decide.1 due_eq).2 due)]
    simp
  · intro there
    obtain ⟨l, pending⟩ := Option.ne_none_iff_exists'.1 there
    obtain ⟨r', mem', same_ip, due', -⟩ := (exhausted_eq_some_iff unique').1 pending
    obtain ⟨r, hr, same⟩ := (evolves.origin mem').resolve_right fun fresh => fresh.2 due'
    obtain ⟨mem, here⟩ := find_eq_some_iff.1 found
    have ip_eq : r.ip = r'.ip := congrArg Ticket.ip same
    have req_eq : r = req := List.inj_on_of_nodup_map unique hr mem (ip_eq.trans same_ip)
    have addr_eq : r.addr = r'.addr := congrArg Ticket.addr same
    rw [find_eq_some_iff.2 ⟨mem', addr_eq.symm.trans (req_eq ▸ here)⟩]
    simp

/-- `give` says what becomes of the exhausted requests when `handle` is called after `sr`. -/
def GivesUp (t : ℕ) (sr : SrInstance) (handle : ℕ → Call → Except Fault Call)
    (give : Cascade.Pending UInt32 → UInt32 → Option (Cascade.Pending UInt32)) : Prop :=
  ∀ addr c req, Evolves t sr c.sr → c.sr.cache.find addr = some req →
    outcome t (handle addr c) = give (exhausted t c.sr.cache) req.ip

theorem hostUnreachable_eq_turn {handle : ℕ → Call → Except Fault Call} {sr : SrInstance} {c : Call}
    {give : Cascade.Pending UInt32 → UInt32 → Option (Cascade.Pending UInt32)} {addr : ℕ}
    (gives : GivesUp t sr handle give) (unique : OnePerIp sr.cache)
    (found : sr.cache.find addr = some req) (due : Exhausted t req) (evolves : Evolves t sr c.sr)
    (packet : SrPacket) : outcome t (hostUnreachable env handle addr c packet) =
      Cascade.turn (messages sr) give req.ip (exhausted t c.sr.cache) (toldSource packet) := by
  unfold hostUnreachable Cascade.turn
  rw [find_isNone_iff unique found due evolves]
  cases (exhausted t c.sr.cache req.ip).isNone with
  | true => rfl
  | false =>
    have later : GivesUp t c.sr handle give := fun addr c' req' evolves' =>
      gives addr c' req' (evolves.trans evolves')
    rw [if_neg Bool.false_ne_true, if_neg Bool.false_ne_true, toldSource]
    by_cases short : packet.buf.length < sizeofEthernet + icmpDataSize
    · rw [if_pos short, srSendIcmpPacket_short _ _ _ _ _ _
        (by rw [List.length_drop]; simp only [sizeofEthernet, icmpDataSize] at short ⊢; omega)]
      rfl
    · rw [if_neg short, srSendIcmpPacket_eq_tell later (evolves.unique unique) _ _ _
        (by rw [List.length_drop]; omega), messages_eq evolves]
      rfl

theorem foldlM_hostUnreachable_eq {sr : SrInstance} {fuel addr : ℕ} {c : Call}
    {give : Cascade.Pending UInt32 → UInt32 → Option (Cascade.Pending UInt32)}
    (still : ∀ k, env.time k = t) (gives : GivesUp t sr (handleArpreq env fuel) give)
    (unique : OnePerIp sr.cache) (found : sr.cache.find addr = some req) (due : Exhausted t req)
    (evolves : Evolves t sr c.sr) (packets : List SrPacket) :
    outcome t (packets.foldlM (hostUnreachable env (handleArpreq env fuel) addr) c) =
      (packets.map toldSource).foldlM (Cascade.turn (messages sr) give req.ip)
        (exhausted t c.sr.cache) := by
  induction packets generalizing c with
  | nil => rfl
  | cons packet rest ih =>
    have one : outcome t (hostUnreachable env (handleArpreq env fuel) addr c packet) = _ :=
      hostUnreachable_eq_turn gives unique found due evolves packet
    rw [List.map_cons, List.foldlM_cons, List.foldlM_cons, outcome_bind, ← one]
    cases told : hostUnreachable env (handleArpreq env fuel) addr c packet with
    | error e => rfl
    | ok c' =>
      have does := hostUnreachable_does [packet] (handleArpreq_does env fuel)
        (by rw [List.foldlM_cons, told]; rfl)
      exact ih (evolves.trans (does.evolves still))

/-- While the clock shows `t`, `handle_arpreq` gives nodes of the cascade up. -/
theorem handleArpreq_eq_giveUp (still : ∀ k, env.time k = t) (fuel : ℕ) {addr : ℕ} {c : Call}
    (unique : OnePerIp c.sr.cache) (found : c.sr.cache.find addr = some req) :
    outcome t (handleArpreq env fuel addr c) =
      Cascade.giveUp (messages c.sr) fuel (exhausted t c.sr.cache) req.ip := by
  induction fuel generalizing addr c req with
  | zero => rfl
  | succ fuel ih =>
    obtain ⟨mem, here⟩ := find_eq_some_iff.1 found
    rw [handleArpreq]
    simp only [Call.time, found, still]
    by_cases due : Exhausted t req
    · have gives : GivesUp t c.sr (handleArpreq env fuel)
          (Cascade.giveUp (messages c.sr) fuel) := by
        intro addr c' req' evolves found'
        rw [ih (evolves.unique unique) found', messages_eq evolves]
      rw [if_pos due.1, if_pos due.2, Cascade.giveUp, exhausted_of_mem unique mem due]
      dsimp only
      rw [← foldlM_hostUnreachable_eq (c := { c with timeReads := c.timeReads + 2 }) still gives
        unique found due (.refl t c.sr), outcome_bind]
      cases told : req.packets.foldlM (hostUnreachable env (handleArpreq env fuel) addr)
          { c with timeReads := c.timeReads + 2 } with
      | error e => rfl
      | ok c₁ =>
        have evolves := (hostUnreachable_does _ (handleArpreq_does env fuel) told).evolves still
        have linked := find_isNone_iff unique found due evolves
        show outcome t _ = if _ then _ else _
        rw [← linked]
        cases last : c₁.sr.cache.find addr with
        | none => rfl
        | some req' =>
          have same : req'.ip = req.ip := congrArg Ticket.ip (evolves.ticket_eq found last)
          obtain ⟨mem', rfl⟩ := find_eq_some_iff.1 last
          rw [← same]
          exact congrArg some (exhausted_destroy (evolves.unique unique) mem')
    · have idle := exhausted_of_not unique mem due
      rw [Cascade.giveUp, idle]
      by_cases old : req.sent + 1 < t
      · have rare : ¬ 5 ≤ req.timesSent := fun often => due ⟨old, often⟩
        rw [if_pos old, if_neg rare, srSendArpRequest_eq]
        refine congrArg some (exhausted_update unique (fun r =>
          { r with sent := t, timesSent := r.timesSent + 1 }) (fun _ => rfl) (fun _ => rfl)
            fun r hr at_addr => ?_)
        have same := eq_of_addr found hr at_addr
        exact ⟨same ▸ due, fun due => absurd due.1 (by simp)⟩
      · rw [if_neg old]
        rfl

end Cascading

end ComputerNetwork.Router
