import ComputerNetwork.Lib.LinkedList
import ComputerNetwork.Router.Effects

/-!
# The request queue in memory

The queue of `sr_arpcache.c` as the code keeps it: nodes linked by pointers, which
`sr_arpcache_queuereq`, `sr_arpcache_insert` and `sr_arpreq_destroy` walk with a pointer to the node
before.  `Represents` relates the memory to the list of requests of `SrArpcache`, and
`requestQueue_refines` relates every run of the three calls to a map from addresses to what waits for
them.
-/

namespace ComputerNetwork.Router

open Lib

/-! ## The calls -/

/-- What waits for an address. -/
structure Pending where
  sent : ℕ
  timesSent : ℕ
  packets : List SrPacket
  deriving DecidableEq

/-- `struct sr_arpreq`, without the pointer to the next one. -/
structure ReqNode extends Pending where
  ip : UInt32
  deriving DecidableEq

/-- `struct sr_arpcache`, with the blocks allocated for requests. -/
structure CacheMemory where
  entries : ArpTable
  mem : Memory ReqNode
  requests : Option ℕ
  freshAddr : ℕ

namespace CacheMemory

def empty : CacheMemory where
  entries := srArpcacheInit.entries
  mem := ∅
  requests := none
  freshAddr := 0

/-- Link a new request in front. -/
def push (cache : CacheMemory) (ip : UInt32) : CacheMemory where
  entries := cache.entries
  mem := cache.mem.insert cache.freshAddr ⟨⟨⟨0, 0, []⟩, ip⟩, cache.requests⟩
  requests := some cache.freshAddr
  freshAddr := cache.freshAddr + 1

/-- Store to the request at `addr`. -/
def store (cache : CacheMemory) (addr : ℕ) (f : ReqNode → ReqNode) : Option CacheMemory :=
  match cache.mem.lookup addr with
  | none => none
  | some cell => some { cache with mem := cache.mem.insert addr { cell with val := f cell.val } }

/-- `sr_arpcache_queuereq`. -/
def queuereq (cache : CacheMemory) (ip : UInt32) (packet : List UInt8) (iface : Option Name) :
    Option (CacheMemory × ℕ) := do
  let (_, req) ← walk cache.mem (fun _ r => r.ip = ip) cache.requests
  let (cache, req) := match req with
    | some req => (cache, req)
    | none => (cache.push ip, cache.freshAddr)
  match iface with
  | some iface =>
      if packet = [] then some (cache, req)
      else do
        let cache ← cache.store req fun r => { r with packets := ⟨packet, iface⟩ :: r.packets }
        some (cache, req)
  | none => some (cache, req)

/-- Take a request out of the queue where a walk has found one. -/
def detach (cache : CacheMemory) (prev req : Option ℕ) : Option CacheMemory :=
  match req with
  | none => some cache
  | some req =>
    match unlink cache.mem cache.requests prev req with
    | none => none
    | some (mem, requests) => some { cache with mem, requests }

/-- `sr_arpcache_insert`. -/
def insert (cache : CacheMemory) (mac : Mac) (ip : UInt32) (now : ℕ) :
    Option (CacheMemory × Option ℕ) := do
  let (prev, req) ← walk cache.mem (fun _ r => r.ip = ip) cache.requests
  let cache ← cache.detach prev req
  some ({ cache with
    entries := ⟨insertEntry cache.entries.slots ⟨mac, ip, now, true⟩, by
      rw [length_insertEntry]; exact cache.entries.size⟩ }, req)

/-- `sr_arpreq_destroy`, with the contents of the request it frees. -/
def destroy (cache : CacheMemory) (entry : ℕ) : Option (CacheMemory × ReqNode) := do
  let (prev, req) ← walk cache.mem (fun a _ => a = entry) cache.requests
  let cache ← cache.detach prev req
  let cell ← cache.mem.lookup entry
  some ({ cache with mem := cache.mem.erase entry }, cell.val)

/-- The stores of `handle_arpreq` after a round. -/
def resent (cache : CacheMemory) (addr now : ℕ) : Option CacheMemory :=
  cache.store addr fun r => { r with sent := now, timesSent := r.timesSent + 1 }

/-- The request at `addr` is on the queue. -/
def listed (cache : CacheMemory) (addr : ℕ) : Bool :=
  match walk cache.mem (fun a _ => a = addr) cache.requests with
  | some (_, some _) => true
  | _ => false

end CacheMemory

/-! ## The machine -/

inductive QueueCall where
  | queuereq (ip : UInt32) (packet : List UInt8) (iface : Option Name)
  | insert (mac : Mac) (ip : UInt32) (now : ℕ)
  | destroy (entry : ℕ)
  | resent (entry now : ℕ)

/-- What the pointer of a call leads to: the request that is returned, freed or stored to. -/
abbrev Contents := Option (UInt32 × Pending)

def CacheMemory.contents (cache : CacheMemory) (addr : ℕ) : Contents :=
  (cache.mem.lookup addr).map fun cell => (cell.val.ip, cell.val.toPending)

def queueStep (cache : CacheMemory) : QueueCall → Option (CacheMemory × Contents)
  | .queuereq ip packet iface => do
      let (cache, req) ← cache.queuereq ip packet iface
      some (cache, cache.contents req)
  | .insert mac ip now => do
      let (cache, req) ← cache.insert mac ip now
      some (cache, req.bind cache.contents)
  | .destroy entry => do
      let (cache, freed) ← cache.destroy entry
      some (cache, some (freed.ip, freed.toPending))
  | .resent entry now => do
      let cache ← cache.resent entry now
      some (cache, cache.contents entry)

def queueMachine : Machine CacheMemory QueueCall Contents where
  step := queueStep

/-- The callers pass `sr_arpreq_destroy` and `handle_arpreq` requests that are on the queue. -/
def Legal (cache : CacheMemory) : QueueCall → Prop
  | .destroy entry | .resent entry _ => cache.listed entry = true
  | _ => True

instance (cache : CacheMemory) (call : QueueCall) : Decidable (Legal cache call) :=
  match call with
  | .queuereq .. | .insert .. => isTrue trivial
  | .destroy entry => inferInstanceAs (Decidable (cache.listed entry = true))
  | .resent entry _ => inferInstanceAs (Decidable (cache.listed entry = true))

/-! ## The map -/

/-- What waits for each address. -/
abbrev RequestMap := UInt32 → Option Pending

inductive MapCall where
  | queue (ip : UInt32) (packet : List UInt8) (iface : Option Name)
  | remove (ip : UInt32)
  | resent (ip : UInt32) (now : ℕ)

/-- Add a packet, where there is one with an interface. -/
def Pending.add (p : Pending) (packet : List UInt8) (iface : Option Name) : Pending :=
  match iface with
  | some iface => if packet = [] then p else { p with packets := ⟨packet, iface⟩ :: p.packets }
  | none => p

def mapStep (m : RequestMap) : MapCall → Option (RequestMap × Contents)
  | .queue ip packet iface =>
      let p := ((m ip).getD ⟨0, 0, []⟩).add packet iface
      some (Function.update m ip (some p), some (ip, p))
  | .remove ip => some (Function.update m ip none, (m ip).map fun p => (ip, p))
  | .resent ip now =>
      (m ip).map fun p =>
        let p := { p with sent := now, timesSent := p.timesSent + 1 }
        (Function.update m ip (some p), some (ip, p))

def mapMachine : Machine RequestMap MapCall Contents where
  step := mapStep

/-- What a call is to the map.  The request that a pointer leads to is that of its address. -/
def mapCall : QueueCall × Contents → MapCall × Contents
  | (.queuereq ip packet iface, shown) => (.queue ip packet iface, shown)
  | (.insert _ ip _, shown) => (.remove ip, shown)
  | (.destroy _, shown) => (.remove (shown.elim 0 Prod.fst), shown)
  | (.resent _ now, shown) => (.resent (shown.elim 0 Prod.fst) now, shown)

/-! ## The memory represents the list -/

/-- The node of a request. -/
def SrArpreq.node (r : SrArpreq) : ReqNode := ⟨⟨r.sent, r.timesSent, r.packets⟩, r.ip⟩

/-- The cell of a request. -/
def SrArpreq.cell (r : SrArpreq) : ℕ × ReqNode := (r.addr, r.node)

/-- The pointers of the memory lead through the requests of the cache, in their order. -/
structure Represents (h : CacheMemory) (cache : SrArpcache) : Prop where
  entries : h.entries = cache.entries
  linked : Segment h.mem h.requests (cache.requests.map SrArpreq.cell) none
  fresh : h.freshAddr = cache.freshAddr
  below : ∀ a ∈ h.mem, a < h.freshAddr

namespace Represents

variable {h : CacheMemory} {cache : SrArpcache} {pre rest : List SrArpreq} {req : SrArpreq}

theorem lookup (rep : Represents h cache) (mem : req ∈ cache.requests) :
    ∃ next, h.mem.lookup req.addr = some ⟨req.node, next⟩ :=
  rep.linked.lookup (List.mem_map_of_mem mem)

theorem contents (rep : Represents h cache) (mem : req ∈ cache.requests) :
    h.contents req.addr = some (req.ip, req.node.toPending) := by
  obtain ⟨next, found⟩ := rep.lookup mem
  rw [CacheMemory.contents, found]
  rfl

section Walks

variable (stop : ℕ → ReqNode → Bool)

theorem walk_none (rep : Represents h cache)
    (pass : ∀ r ∈ cache.requests, stop r.addr r.node = false) :
    ∃ prev, walk h.mem stop h.requests = some (prev, none) := by
  apply walk_of_forall stop rep.linked
  intro cell mem
  obtain ⟨r, inQueue, rfl⟩ := List.mem_map.1 mem
  exact pass r inQueue

theorem walk_some (rep : Represents h cache) (queue : cache.requests = pre ++ req :: rest)
    (pass : ∀ r ∈ pre, stop r.addr r.node = false) (hit : stop req.addr req.node = true) :
    walk h.mem stop h.requests =
      some ((pre.map SrArpreq.cell).getLast?.map Prod.fst, some req.addr) := by
  have linked := rep.linked
  rw [queue, List.map_append, List.map_cons] at linked
  refine walk_of_find stop linked (fun cell mem => ?_) hit
  obtain ⟨r, inQueue, rfl⟩ := List.mem_map.1 mem
  exact pass r inQueue

end Walks

theorem detach (rep : Represents h cache) (queue : cache.requests = pre ++ req :: rest)
    {p : SrArpreq → Bool} (pass : ∀ r ∈ pre, p r = false) (hit : p req = true) :
    ∃ h', h.detach ((pre.map SrArpreq.cell).getLast?.map Prod.fst) (some req.addr) = some h' ∧
      Represents h' (cache.unlink p) ∧ ∃ next, h'.mem.lookup req.addr = some ⟨req.node, next⟩ := by
  have linked := rep.linked
  rw [queue, List.map_append, List.map_cons] at linked
  obtain ⟨mem, head, done, linked', same, keys⟩ := unlink_spec linked
  have rests : (cache.unlink p).requests = pre ++ rest := by
    simp only [SrArpcache.unlink, queue]
    rw [List.eraseP_append_right _ (by simpa using pass), List.eraseP_cons_of_pos hit]
  have alone : req.addr ∉ (pre.map SrArpreq.cell).map Prod.fst := by
    rw [List.map_map]
    intro again
    obtain ⟨r, inPre, addr⟩ := List.mem_map.1 again
    exact (find_eq queue).2.1 r inPre addr
  have inQueue : req ∈ cache.requests := by simp [queue]
  obtain ⟨next, found⟩ := rep.lookup inQueue
  refine ⟨{ h with mem, requests := head }, ?_, ⟨rep.entries, ?_, rep.fresh, ?_⟩, next, ?_⟩
  · simp only [CacheMemory.detach, done]
  · rw [rests, List.map_append]
    exact linked'
  · intro a inMem
    exact rep.below a ((keys a).1 inMem)
  · rw [same req.addr alone]
    exact found

theorem store (rep : Represents h cache) (queue : cache.requests = pre ++ req :: rest)
    {f : ReqNode → ReqNode} {g : SrArpreq → SrArpreq} (still : ∀ r, (g r).addr = r.addr)
    (agree : f req.node = (g req).node) :
    ∃ h', h.store req.addr f = some h' ∧ Represents h' (cache.update req.addr g still) := by
  have linked := rep.linked
  rw [queue, List.map_append, List.map_cons] at linked
  have inQueue : req ∈ cache.requests := by simp [queue]
  obtain ⟨next, found⟩ := rep.lookup inQueue
  have stored := segment_store linked found (f req.node)
  refine ⟨{ h with mem := h.mem.insert req.addr ⟨f req.node, next⟩ }, ?_,
    ⟨rep.entries, ?_, rep.fresh, ?_⟩⟩
  · simp only [CacheMemory.store, found]
  · rw [update_requests queue g still, List.map_append, List.map_cons, SrArpreq.cell, still, ← agree]
    exact stored
  · intro a inMem
    rcases (AList.mem_insert _).1 inMem with rfl | inMem
    · exact rep.below _ (AList.lookup_isSome.1 (Option.isSome_of_mem found))
    · exact rep.below a inMem

theorem push (rep : Represents h cache) (ip : UInt32) : Represents (h.push ip) (cache.push ip) where
  entries := rep.entries
  linked := by
    have fresh : h.freshAddr ∉ h.mem := fun inMem => absurd (rep.below _ inMem) (lt_irrefl _)
    have pushed := segment_push rep.linked fresh (⟨⟨0, 0, []⟩, ip⟩ : ReqNode)
    show Segment _ _ ((cache.freshAddr, _) :: _) none
    rw [← rep.fresh]
    exact pushed
  fresh := congrArg (· + 1) rep.fresh
  below a inMem := by
    rcases (AList.mem_insert _).1 inMem with rfl | inMem
    · exact Nat.lt_succ_self _
    · exact (rep.below a inMem).trans (Nat.lt_succ_self _)

/-! ### Calls -/

theorem exists_queue_of_findIp {ip : UInt32} (found : cache.findIp ip = some req) :
    req.ip = ip ∧ ∃ pre rest, cache.requests = pre ++ req :: rest ∧ ∀ r ∈ pre, r.ip ≠ ip := by
  obtain ⟨hit, pre, rest, queue, pass⟩ := List.find?_eq_some_iff_append.1 found
  exact ⟨by simpa using hit, pre, rest, queue, by simpa using pass⟩

theorem forall_ne_of_findIp {ip : UInt32} (absent : cache.findIp ip = none) :
    ∀ r ∈ cache.requests, r.ip ≠ ip := by
  simpa [SrArpcache.findIp] using absent

theorem queuereq (rep : Represents h cache) (ip : UInt32) (packet : List UInt8)
    (iface : Option Name) :
    ∃ h', h.queuereq ip packet iface = some (h', (srArpcacheQueuereq cache ip packet iface).2) ∧
      Represents h' (srArpcacheQueuereq cache ip packet iface).1 := by
  obtain ⟨h₁, prev, reqPtr, walked, same, rep₁⟩ : ∃ h₁ prev reqPtr,
      walk h.mem (fun _ r => r.ip = ip) h.requests = some (prev, reqPtr) ∧
      (match reqPtr with
        | some req => (h, req)
        | none => (h.push ip, h.freshAddr)) = (h₁, (cache.requestFor ip).2) ∧
      Represents h₁ (cache.requestFor ip).1 := by
    unfold SrArpcache.requestFor
    rcases waiting : cache.findIp ip with _ | req
    · obtain ⟨prev, walked⟩ := rep.walk_none (fun _ r => r.ip = ip)
        fun r inQueue => decide_eq_false (forall_ne_of_findIp waiting r inQueue)
      exact ⟨h.push ip, prev, none, walked, by rw [rep.fresh], rep.push ip⟩
    · obtain ⟨hit, pre, rest, queue, pass⟩ := exists_queue_of_findIp waiting
      exact ⟨h, _, some req.addr, rep.walk_some (fun _ r => r.ip = ip) queue
        (fun r inPre => decide_eq_false (pass r inPre)) (decide_eq_true hit), rfl, rep⟩
  obtain ⟨-, pre, req, rest, queue, ptr, -⟩ := requestFor_spec cache ip
  simp only [CacheMemory.queuereq, walked, Option.bind_eq_bind, Option.bind_some]
  rw [same]
  dsimp only
  show ∃ h', _ = some (h', (cache.requestFor ip).2) ∧
    Represents h' ((cache.requestFor ip).1.enqueue (cache.requestFor ip).2 packet iface)
  rw [← ptr]
  unfold SrArpcache.enqueue
  cases iface with
  | none => exact ⟨h₁, rfl, rep₁⟩
  | some iface =>
    dsimp only
    split_ifs with empty
    · exact ⟨h₁, rfl, rep₁⟩
    · obtain ⟨h₂, stored, rep₂⟩ := rep₁.store queue
        (f := fun r => { r with packets := ⟨packet, iface⟩ :: r.packets })
        (g := fun r => { r with packets := ⟨packet, iface⟩ :: r.packets }) (fun _ => rfl) rfl
      exact ⟨h₂, by rw [stored]; rfl, rep₂⟩

/-- The walk of `sr_arpcache_insert` and what it unlinks. -/
theorem detach_ip (rep : Represents h cache) (ip : UInt32) : ∃ h₁ prev,
    walk h.mem (fun _ r => r.ip = ip) h.requests = some (prev, (cache.findIp ip).map SrArpreq.addr) ∧
    h.detach prev ((cache.findIp ip).map SrArpreq.addr) = some h₁ ∧
    Represents h₁ (cache.unlink fun r => r.ip = ip) ∧
    ∀ req ∈ cache.findIp ip, h₁.contents req.addr = some (req.ip, req.node.toPending) := by
  rcases waiting : cache.findIp ip with _ | req
  · have pass := forall_ne_of_findIp waiting
    obtain ⟨prev, walked⟩ := rep.walk_none (fun _ r => r.ip = ip)
      fun r inQueue => decide_eq_false (pass r inQueue)
    refine ⟨h, prev, walked, rfl, ⟨rep.entries, ?_, rep.fresh, rep.below⟩, by simp⟩
    show Segment _ _ ((cache.requests.eraseP fun r => r.ip = ip).map _) none
    rw [List.eraseP_of_forall_not (by simpa using pass)]
    exact rep.linked
  · obtain ⟨hit, pre, rest, queue, pass⟩ := exists_queue_of_findIp waiting
    have walked := rep.walk_some (fun _ r => r.ip = ip) queue
      (fun r inPre => decide_eq_false (pass r inPre)) (decide_eq_true hit)
    obtain ⟨h₁, done, rep₁, next, found⟩ := rep.detach queue (p := fun r => r.ip = ip)
      (fun r inPre => decide_eq_false (pass r inPre)) (decide_eq_true hit)
    refine ⟨h₁, _, walked, done, rep₁, ?_⟩
    rintro req' ⟨⟩
    rw [CacheMemory.contents, found]
    rfl

theorem insert (rep : Represents h cache) (mac : Mac) (ip : UInt32) (now : ℕ) :
    ∃ h', h.insert mac ip now =
        some (h', (srArpcacheInsert cache mac ip now).2.map SrArpreq.addr) ∧
      Represents h' (srArpcacheInsert cache mac ip now).1 ∧
      ∀ req ∈ (srArpcacheInsert cache mac ip now).2,
        h'.contents req.addr = some (req.ip, req.node.toPending) := by
  obtain ⟨h₁, prev, walked, done, rep₁, contents⟩ := rep.detach_ip ip
  have entries : h₁.entries = cache.entries := rep₁.entries
  refine ⟨{ h₁ with entries := ⟨insertEntry h₁.entries.slots ⟨mac, ip, now, true⟩, by
    rw [length_insertEntry]; exact h₁.entries.size⟩ }, ?_, ⟨?_, ?_, rep₁.fresh, rep₁.below⟩, contents⟩
  · simp only [CacheMemory.insert, walked, Option.bind_eq_bind, Option.bind_some, done,
      srArpcacheInsert]
  · simp only [entries, srArpcacheInsert]
  · exact rep₁.linked

theorem destroy (rep : Represents h cache) (mem : req ∈ cache.requests) :
    ∃ h', h.destroy req.addr = some (h', req.node) ∧
      Represents h' (srArpreqDestroy cache req.addr) := by
  obtain ⟨pre, rest, queue⟩ := List.append_of_mem mem
  obtain ⟨-, before, behind⟩ := find_eq queue
  have walked := rep.walk_some (fun a _ => a = req.addr) queue
    (fun r inPre => decide_eq_false (before r inPre)) (decide_eq_true rfl)
  obtain ⟨h₁, done, rep₁, next, found⟩ := rep.detach queue (p := fun r => r.addr = req.addr)
    (fun r inPre => decide_eq_false (before r inPre)) (decide_eq_true rfl)
  refine ⟨{ h₁ with mem := h₁.mem.erase req.addr }, ?_, rep₁.entries, ?_, rep₁.fresh, ?_⟩
  · simp only [CacheMemory.destroy, walked, Option.bind_eq_bind, Option.bind_some, done, found]
  · refine rep₁.linked.frame fun cell inList => AList.lookup_erase_ne ?_
    obtain ⟨r, inQueue, rfl⟩ := List.mem_map.1 inList
    change r ∈ (srArpreqDestroy cache req.addr).requests at inQueue
    rw [destroy_requests queue] at inQueue
    cases List.mem_append.1 inQueue with
    | inl inPre => exact before r inPre
    | inr inRest => exact behind r inRest
  · intro a inMem
    exact rep₁.below a (AList.mem_erase.1 inMem).2

theorem resent (rep : Represents h cache) (mem : req ∈ cache.requests) (now : ℕ) :
    ∃ h', h.resent req.addr now = some h' ∧ Represents h' (cache.update req.addr
      (fun r => { r with sent := now, timesSent := r.timesSent + 1 }) fun _ => rfl) := by
  obtain ⟨pre, rest, queue⟩ := List.append_of_mem mem
  exact rep.store queue (f := fun r => { r with sent := now, timesSent := r.timesSent + 1 })
    (g := fun r => { r with sent := now, timesSent := r.timesSent + 1 }) (fun _ => rfl) rfl

/-- The queue has a request at the address of a node that a walk finds. -/
theorem exists_of_listed (rep : Represents h cache) {addr : ℕ} (listed : h.listed addr = true) :
    ∃ req ∈ cache.requests, req.addr = addr := by
  by_contra none
  obtain ⟨prev, walked⟩ := rep.walk_none (fun a _ => a = addr) fun r inQueue =>
    decide_eq_false fun same => none ⟨r, inQueue, same⟩
  simp [CacheMemory.listed, walked] at listed

end Represents

/-! ## The list represents the map -/

/-- What waits for an address in a list of requests. -/
def pendingFor (requests : List SrArpreq) (ip : UInt32) : Option Pending :=
  (requests.find? fun r => r.ip = ip).map fun r => r.node.toPending

section Lists

variable {pre rest requests : List SrArpreq} {req : SrArpreq} {ip : UInt32}

theorem pendingFor_none (others : ∀ r ∈ requests, r.ip ≠ ip) : pendingFor requests ip = none := by
  rw [pendingFor, List.find?_eq_none.2 (by simpa using others)]
  rfl

theorem pendingFor_self (others : ∀ r ∈ pre, r.ip ≠ req.ip) :
    pendingFor (pre ++ req :: rest) req.ip = some req.node.toPending := by
  rw [pendingFor, List.find?_append, List.find?_eq_none.2 (by simpa using others)]
  simp

theorem pendingFor_other (other : req.ip ≠ ip) :
    pendingFor (pre ++ req :: rest) ip = pendingFor (pre ++ rest) ip := by
  simp [pendingFor, List.find?_append, other]

/-- A request that is replaced by another for the same address. -/
theorem pendingFor_replace {req' : SrArpreq} (same : req'.ip = req.ip)
    (others : ∀ r ∈ pre, r.ip ≠ req.ip) :
    pendingFor (pre ++ req' :: rest) =
      Function.update (pendingFor (pre ++ req :: rest)) req.ip (some req'.node.toPending) := by
  funext ip
  by_cases self : ip = req.ip
  · subst self
    rw [Function.update_self, ← same]
    exact pendingFor_self (same ▸ others)
  · rw [Function.update_of_ne self, pendingFor_other (same ▸ Ne.symm self),
      pendingFor_other (Ne.symm self)]

theorem pendingFor_remove (before : ∀ r ∈ pre, r.ip ≠ req.ip) (behind : ∀ r ∈ rest, r.ip ≠ req.ip) :
    pendingFor (pre ++ rest) = Function.update (pendingFor (pre ++ req :: rest)) req.ip none := by
  funext ip
  by_cases self : ip = req.ip
  · subst self
    rw [Function.update_self]
    apply pendingFor_none
    intro r mem
    cases List.mem_append.1 mem with
    | inl mem => exact before r mem
    | inr mem => exact behind r mem
  · rw [Function.update_of_ne self, pendingFor_other (Ne.symm self)]

/-- The other requests of a queue with one request for each address. -/
theorem ip_ne_of_nodup (distinct : ((pre ++ req :: rest).map SrArpreq.ip).Nodup) :
    (∀ r ∈ pre, r.ip ≠ req.ip) ∧ ∀ r ∈ rest, r.ip ≠ req.ip := by
  rw [List.map_append, List.map_cons, List.nodup_append, List.nodup_cons] at distinct
  obtain ⟨-, ⟨later, -⟩, apart⟩ := distinct
  refine ⟨fun r mem => apart _ (List.mem_map_of_mem mem) _ (List.mem_cons_self ..), ?_⟩
  intro r mem same
  exact later (List.mem_map.2 ⟨r, mem, same⟩)

end Lists

/-- The cache has one request for each address of the map, with what the map says. -/
structure OneForEach (cache : SrArpcache) (m : RequestMap) : Prop where
  distinct : (cache.requests.map SrArpreq.ip).Nodup
  pending : pendingFor cache.requests = m

namespace OneForEach

variable {cache : SrArpcache} {m : RequestMap} {pre rest : List SrArpreq} {req : SrArpreq}

theorem apply (one : OneForEach cache m) (mem : req ∈ cache.requests) :
    m req.ip = some req.node.toPending := by
  obtain ⟨pre, rest, queue⟩ := List.append_of_mem mem
  have distinct := one.distinct
  rw [queue] at distinct
  rw [← one.pending, queue]
  exact pendingFor_self (ip_ne_of_nodup distinct).1

theorem update (one : OneForEach cache m) (mem : req ∈ cache.requests) (g : SrArpreq → SrArpreq)
    (still : ∀ r, (g r).addr = r.addr) (same : ∀ r, (g r).ip = r.ip) :
    OneForEach (cache.update req.addr g still)
      (Function.update m req.ip (some (g req).node.toPending)) := by
  obtain ⟨pre, rest, queue⟩ := List.append_of_mem mem
  have distinct := one.distinct
  have pending := one.pending
  rw [queue] at distinct pending
  constructor
  · rw [update_requests queue, List.map_append, List.map_cons, same, ← List.map_cons,
      ← List.map_append]
    exact distinct
  · rw [update_requests queue, ← pending]
    exact pendingFor_replace (same req) (ip_ne_of_nodup distinct).1

theorem push (one : OneForEach cache m) {ip : UInt32} (absent : cache.findIp ip = none) :
    OneForEach (cache.push ip) (Function.update m ip (some ⟨0, 0, []⟩)) := by
  have others := Represents.forall_ne_of_findIp absent
  constructor
  · refine List.nodup_cons.2 ⟨fun again => ?_, one.distinct⟩
    obtain ⟨r, mem, same⟩ := List.mem_map.1 again
    exact others r mem same
  · funext ip'
    by_cases self : ip' = ip
    · subst self
      rw [Function.update_self]
      show pendingFor ([] ++ _ :: _) _ = _
      exact pendingFor_self (by simp)
    · rw [Function.update_of_ne self, ← one.pending]
      show pendingFor ([] ++ _ :: _) _ = pendingFor ([] ++ _) _
      exact pendingFor_other (Ne.symm self)

theorem remove {cache' : SrArpcache} (one : OneForEach cache m)
    (queue : cache.requests = pre ++ req :: rest) (queue' : cache'.requests = pre ++ rest) :
    OneForEach cache' (Function.update m req.ip none) := by
  have distinct := one.distinct
  have pending := one.pending
  rw [queue] at distinct pending
  obtain ⟨before, behind⟩ := ip_ne_of_nodup distinct
  constructor
  · rw [queue']
    exact ((List.Sublist.refl pre).append (List.sublist_cons_self req rest)).map SrArpreq.ip
      |>.nodup distinct
  · rw [queue', ← pending]
    exact pendingFor_remove before behind

theorem enqueue (one : OneForEach cache m) (mem : req ∈ cache.requests) (packet : List UInt8)
    (iface : Option Name) :
    ∃ req' ∈ (cache.enqueue req.addr packet iface).requests, req'.addr = req.addr ∧
      req'.ip = req.ip ∧ req'.node.toPending = req.node.toPending.add packet iface ∧
      OneForEach (cache.enqueue req.addr packet iface)
        (Function.update m req.ip (some (req.node.toPending.add packet iface))) := by
  have same : OneForEach cache (Function.update m req.ip (some req.node.toPending)) := by
    rw [← one.apply mem, Function.update_eq_self]
    exact one
  unfold SrArpcache.enqueue Pending.add
  cases iface with
  | none => exact ⟨req, mem, rfl, rfl, rfl, same⟩
  | some iface =>
    dsimp only
    split_ifs
    · exact ⟨req, mem, rfl, rfl, rfl, same⟩
    · refine ⟨{ req with packets := ⟨packet, iface⟩ :: req.packets }, ?_, rfl, rfl, rfl, ?_⟩
      · exact List.mem_map.2 ⟨req, mem, if_pos rfl⟩
      · exact one.update mem (fun r => { r with packets := ⟨packet, iface⟩ :: r.packets })
          (fun _ => rfl) fun _ => rfl

theorem requestFor (one : OneForEach cache m) (ip : UInt32) :
    ∃ req ∈ (cache.requestFor ip).1.requests, req.addr = (cache.requestFor ip).2 ∧ req.ip = ip ∧
      req.node.toPending = (m ip).getD ⟨0, 0, []⟩ ∧
      OneForEach (cache.requestFor ip).1
        (Function.update m ip (some ((m ip).getD ⟨0, 0, []⟩))) := by
  unfold SrArpcache.requestFor
  rcases waiting : cache.findIp ip with _ | req
  · have nothing : m ip = none := by
      rw [← one.pending]
      exact pendingFor_none (Represents.forall_ne_of_findIp waiting)
    rw [nothing]
    exact ⟨_, List.mem_cons_self .., rfl, rfl, rfl, one.push waiting⟩
  · have mem := List.mem_of_find?_eq_some waiting
    obtain ⟨rfl, -⟩ := Represents.exists_queue_of_findIp waiting
    have here := one.apply mem
    rw [here]
    refine ⟨req, mem, rfl, rfl, rfl, ?_⟩
    rw [Option.getD_some, ← here, Function.update_eq_self]
    exact one

theorem queue (one : OneForEach cache m) (ip : UInt32) (packet : List UInt8) (iface : Option Name) :
    ∃ req ∈ (srArpcacheQueuereq cache ip packet iface).1.requests,
      req.addr = (srArpcacheQueuereq cache ip packet iface).2 ∧ req.ip = ip ∧
      req.node.toPending = ((m ip).getD ⟨0, 0, []⟩).add packet iface ∧
      OneForEach (srArpcacheQueuereq cache ip packet iface).1
        (Function.update m ip (some (((m ip).getD ⟨0, 0, []⟩).add packet iface))) := by
  obtain ⟨req, mem, ptr, same, waits, one₁⟩ := one.requestFor ip
  obtain ⟨req', mem', ptr', same', waits', one₂⟩ := one₁.enqueue mem packet iface
  rw [ptr] at mem' ptr' one₂
  rw [same] at same'
  rw [waits] at waits'
  rw [same, waits, Function.update_idem] at one₂
  exact ⟨req', mem', ptr', same', waits', one₂⟩

theorem insert (one : OneForEach cache m) (mac : Mac) (ip : UInt32) (now : ℕ) :
    OneForEach (srArpcacheInsert cache mac ip now).1 (Function.update m ip none) ∧
      m ip = (srArpcacheInsert cache mac ip now).2.map fun r => r.node.toPending := by
  have here : m ip = (cache.findIp ip).map fun r => r.node.toPending := by
    rw [← one.pending]
    rfl
  refine ⟨?_, here⟩
  rcases waiting : cache.findIp ip with _ | req
  · have others := Represents.forall_ne_of_findIp waiting
    rw [waiting, Option.map_none] at here
    rw [← here, Function.update_eq_self]
    have same : (srArpcacheInsert cache mac ip now).1.requests = cache.requests :=
      List.eraseP_of_forall_not (by simpa using others)
    exact ⟨same ▸ one.distinct, same ▸ one.pending⟩
  · obtain ⟨rfl, pre, rest, queue, others⟩ := Represents.exists_queue_of_findIp waiting
    refine one.remove queue ?_
    show (cache.requests.eraseP fun r => r.ip = req.ip) = _
    rw [queue, List.eraseP_append_right _ (by simpa using others), List.eraseP_cons_of_pos (by simp)]

end OneForEach

/-! ## Runs -/

/-- The memory holds a linked list of requests, one for each address of the map. -/
def Refines (h : CacheMemory) (m : RequestMap) : Prop :=
  ∃ cache, Represents h cache ∧ OneForEach cache m

/-- A legal call does what the map says. -/
theorem queueStep_refines {h : CacheMemory} {m : RequestMap} {call : QueueCall}
    (legal : Legal h call) (rel : Refines h m) :
    ∃ h' shown m', queueStep h call = some (h', shown) ∧
      mapStep m (mapCall (call, shown)).1 = some (m', shown) ∧ Refines h' m' := by
  obtain ⟨cache, rep, one⟩ := rel
  cases call with
  | queuereq ip packet iface =>
    obtain ⟨h', done, rep'⟩ := rep.queuereq ip packet iface
    obtain ⟨req, mem, ptr, rfl, waits, one'⟩ := one.queue ip packet iface
    refine ⟨h', some (req.ip, req.node.toPending), _, ?_, ?_, _, rep', one'⟩
    · simp only [queueStep, done, Option.bind_eq_bind, Option.bind_some, ← ptr, rep'.contents mem]
    · simp only [mapCall, mapStep, waits]
  | insert mac ip now =>
    obtain ⟨h', done, rep', contents⟩ := rep.insert mac ip now
    obtain ⟨one', here⟩ := one.insert mac ip now
    refine ⟨h', (m ip).map fun p => (ip, p), _, ?_, rfl, _, rep', one'⟩
    simp only [queueStep, done, Option.bind_eq_bind, Option.bind_some, here]
    rcases waiting : (srArpcacheInsert cache mac ip now).2 with _ | req
    · rfl
    · have found : req.ip = ip := (Represents.exists_queue_of_findIp waiting).1
      simp [contents req waiting, found]
  | destroy entry =>
    obtain ⟨req, mem, rfl⟩ := rep.exists_of_listed legal
    obtain ⟨h', done, rep'⟩ := rep.destroy mem
    obtain ⟨pre, rest, queue⟩ := List.append_of_mem mem
    refine ⟨h', some (req.ip, req.node.toPending), _, ?_, ?_, _, rep',
      one.remove queue (destroy_requests queue)⟩
    · simp only [queueStep, done, Option.bind_eq_bind, Option.bind_some]
      rfl
    · simp [mapCall, mapStep, one.apply mem]
  | resent entry now =>
    obtain ⟨req, mem, rfl⟩ := rep.exists_of_listed legal
    obtain ⟨h', done, rep'⟩ := rep.resent mem now
    have one' := one.update mem (fun r => { r with sent := now, timesSent := r.timesSent + 1 })
      (fun _ => rfl) fun _ => rfl
    have mem' : { req with sent := now, timesSent := req.timesSent + 1 } ∈ (cache.update req.addr
        (fun r => { r with sent := now, timesSent := r.timesSent + 1 }) fun _ => rfl).requests :=
      List.mem_map.2 ⟨req, mem, if_pos rfl⟩
    refine ⟨h', some (req.ip, ⟨now, req.timesSent + 1, req.packets⟩), _, ?_, ?_, _, rep', one'⟩
    · simp only [queueStep, done, Option.bind_eq_bind, Option.bind_some]
      have contents := rep'.contents mem'
      exact congrArg (fun shown => some (h', shown)) contents
    · simp only [mapCall, mapStep, Option.elim_some, one.apply mem, Option.map_some]
      rfl

/-- Every run of the calls on the linked list is a run of the map, with the same results, and no legal
call goes wrong. -/
theorem requestQueue_refines {tr : List (QueueCall × Contents)} {h : CacheMemory}
    (run : queueMachine.Runs (fun _ h call => Legal h call) .empty tr h) :
    (∃ m, mapMachine.Run (fun _ => none) (tr.map mapCall) m ∧ Refines h m) ∧
      ∀ call, Legal h call → (queueMachine.step h call).isSome := by
  have empty : Refines .empty fun _ => none :=
    ⟨srArpcacheInit, ⟨rfl, rfl, rfl, by simp [CacheMemory.empty]⟩, List.nodup_nil, rfl⟩
  have matched := run.simulate Refines mapCall empty
    (N := mapMachine) fun tr h call shown h' m legal st rel => by
      obtain ⟨h₁, shown₁, m', st₁, next, rel'⟩ := queueStep_refines legal rel
      cases st.symm.trans st₁
      exact ⟨m', by cases call <;> exact next, rel'⟩
  refine ⟨matched, fun call legal => ?_⟩
  obtain ⟨m, -, rel⟩ := matched
  obtain ⟨h', shown, -, st, -⟩ := queueStep_refines legal rel
  exact Option.isSome_iff_exists.2 ⟨_, st⟩

/-- Two packets wait for 9 and one for 7; the request for 9 is destroyed behind the other one, which
an ARP reply then takes. -/
theorem requestQueue_refines_two : ∃ tr h,
    queueMachine.Runs (fun _ h call => Legal h call) .empty tr h ∧
    tr.map Prod.snd = [some (9, ⟨0, 0, [⟨[1], []⟩]⟩), some (9, ⟨0, 0, [⟨[2], []⟩, ⟨[1], []⟩]⟩),
      some (7, ⟨0, 0, [⟨[3], []⟩]⟩), some (9, ⟨5, 1, [⟨[2], []⟩, ⟨[1], []⟩]⟩),
      some (9, ⟨5, 1, [⟨[2], []⟩, ⟨[1], []⟩]⟩), some (7, ⟨0, 0, [⟨[3], []⟩]⟩), none] ∧
    (∃ m, mapMachine.Run (fun _ => none) (tr.map mapCall) m ∧ Refines h m) ∧
      ∀ call, Legal h call → (queueMachine.step h call).isSome := by
  obtain ⟨tr, h, run, shown⟩ := Machine.Runs.exists_of_exec (M := queueMachine) (i := .empty)
    (C := fun _ h call => decide (Legal h call))
    (P := fun tr _ => tr.map Prod.snd =
      [some (9, ⟨0, 0, [⟨[1], []⟩]⟩), some (9, ⟨0, 0, [⟨[2], []⟩, ⟨[1], []⟩]⟩),
      some (7, ⟨0, 0, [⟨[3], []⟩]⟩), some (9, ⟨5, 1, [⟨[2], []⟩, ⟨[1], []⟩]⟩),
      some (9, ⟨5, 1, [⟨[2], []⟩, ⟨[1], []⟩]⟩), some (7, ⟨0, 0, [⟨[3], []⟩]⟩), none])
    [.queuereq 9 [1] (some []), .queuereq 9 [2] (some []), .queuereq 7 [3] (some []), .resent 0 5,
      .destroy 0, .insert ⟨[2, 0, 0, 0, 0, 7], rfl⟩ 7 6, .insert ⟨[2, 0, 0, 0, 0, 7], rfl⟩ 9 6]
    (by decide +kernel)
  have legal := run.mono fun _ _ _ check => of_decide_eq_true check
  exact ⟨tr, h, legal, shown, requestQueue_refines legal⟩

end ComputerNetwork.Router
