import ComputerNetwork.Router.Protocol

/-!
# Interfaces, routes and the ARP cache

The lists of `sr_if.c` and `sr_rt.c`, and the ARP cache of `sr_arpcache.c`: a table of
`SR_ARPCACHE_SZ` entries and the queue of requests with the packets that wait on them.  A request is
a heap object that other code holds pointers to; `addr` is its address, and `freshAddr` the next
one that `calloc` returns.
-/

namespace ComputerNetwork.Router

open Lib

/-! ## Interfaces and routes -/

/-- A C string. -/
abbrev Name := List UInt8

/-- `struct sr_if`. -/
structure SrIf where
  name : Name
  addr : Mac
  ip : UInt32
  deriving DecidableEq

/-- `struct sr_rt`. -/
structure SrRt where
  dest : UInt32
  gw : UInt32
  mask : UInt32
  interface : Name
  deriving DecidableEq

/-- `sr_get_interface`. -/
def srGetInterface (ifList : List SrIf) (name : Name) : Option SrIf :=
  ifList.find? fun i => i.name = name

/-- `get_interface_from_ip`. -/
def getInterfaceFromIp (ifList : List SrIf) (ip : UInt32) : Option SrIf :=
  ifList.find? fun i => ip = i.ip

/-- The search for the longest matching prefix, which starts with the mask zero and wants a larger
one. -/
def routeMatch (table : List SrRt) (ip : UInt32) : Option SrRt :=
  (table.foldl (fun (best : ℕ × Option SrRt) rt =>
    if rt.mask &&& ip = rt.dest ∧ best.1 < rt.mask.toNat then (rt.mask.toNat, some rt) else best)
    (0, none)).2

/-! ## The ARP cache -/

/-- `SR_ARPCACHE_SZ`. -/
def srArpcacheSz : ℕ := 100

/-- `SR_ARPCACHE_TO`. -/
def srArpcacheTo : ℕ := 15

/-- `struct sr_arpentry`. -/
structure SrArpentry where
  mac : Mac
  ip : UInt32
  added : ℕ
  valid : Bool
  deriving DecidableEq

/-- `struct sr_packet`. -/
structure SrPacket where
  buf : List UInt8
  iface : Name
  deriving DecidableEq

/-- `struct sr_arpreq`. -/
structure SrArpreq where
  addr : ℕ
  ip : UInt32
  sent : ℕ
  timesSent : ℕ
  packets : List SrPacket
  deriving DecidableEq

/-- The entries of the cache. -/
structure ArpTable where
  slots : List SrArpentry
  size : slots.length = srArpcacheSz
  deriving DecidableEq

/-- `struct sr_arpcache`.  No two requests share an address, and no request has one that is still to
be handed out. -/
structure SrArpcache where
  entries : ArpTable
  requests : List SrArpreq
  freshAddr : ℕ
  distinct : (requests.map SrArpreq.addr).Nodup
  below : ∀ r ∈ requests, r.addr < freshAddr
  deriving DecidableEq

/-- `sr_arpcache_init`. -/
def srArpcacheInit : SrArpcache where
  entries := ⟨List.replicate srArpcacheSz ⟨⟨[0, 0, 0, 0, 0, 0], rfl⟩, 0, 0, false⟩, by simp⟩
  requests := []
  freshAddr := 0
  distinct := List.nodup_nil
  below := by simp

/-- `sr_arpcache_lookup`: the last valid entry for the address. -/
def srArpcacheLookup (cache : SrArpcache) (ip : UInt32) : Option SrArpentry :=
  (cache.entries.slots.filter fun e => e.valid && e.ip = ip).getLast?

namespace SrArpcache

/-- The request that a pointer points to. -/
def find (cache : SrArpcache) (addr : ℕ) : Option SrArpreq :=
  cache.requests.find? fun r => r.addr = addr

/-- The request for an IP address. -/
def findIp (cache : SrArpcache) (ip : UInt32) : Option SrArpreq :=
  cache.requests.find? fun r => r.ip = ip

/-- Link a new request, as `calloc` leaves it, in front of the others. -/
def push (cache : SrArpcache) (ip : UInt32) : SrArpcache where
  entries := cache.entries
  requests := ⟨cache.freshAddr, ip, 0, 0, []⟩ :: cache.requests
  freshAddr := cache.freshAddr + 1
  distinct := by
    rw [List.map_cons, List.nodup_cons]
    refine ⟨fun mem => ?_, cache.distinct⟩
    obtain ⟨r, hr, same⟩ := List.mem_map.1 mem
    exact absurd same (cache.below r hr).ne
  below := by
    intro r hr
    rcases List.mem_cons.1 hr with rfl | hr
    · exact Nat.lt_succ_self _
    · exact (cache.below r hr).trans (Nat.lt_succ_self _)

/-- Store to a request through a pointer. -/
def update (cache : SrArpcache) (addr : ℕ) (f : SrArpreq → SrArpreq)
    (still : ∀ r, (f r).addr = r.addr) : SrArpcache where
  entries := cache.entries
  requests := cache.requests.map fun r => if r.addr = addr then f r else r
  freshAddr := cache.freshAddr
  distinct := by
    have same : (cache.requests.map fun r => if r.addr = addr then f r else r).map SrArpreq.addr =
        cache.requests.map SrArpreq.addr := by
      rw [List.map_map]
      apply List.map_congr_left
      intro r _
      simp only [Function.comp_apply]
      split_ifs
      · exact still r
      · rfl
    rw [same]
    exact cache.distinct
  below := by
    intro r hr
    obtain ⟨r', hr', rfl⟩ := List.mem_map.1 hr
    have bound := cache.below r' hr'
    split_ifs
    · rw [still r']
      exact bound
    · exact bound

/-- Unlink the first request that meets `p`. -/
def unlink (cache : SrArpcache) (p : SrArpreq → Bool) : SrArpcache where
  entries := cache.entries
  requests := cache.requests.eraseP p
  freshAddr := cache.freshAddr
  distinct := (List.eraseP_sublist.map SrArpreq.addr).nodup cache.distinct
  below r hr := cache.below r (List.mem_of_mem_eraseP hr)

/-- The request behind the one at `addr`, if that one is still linked. -/
def next (cache : SrArpcache) (addr : ℕ) : Option (Option ℕ) :=
  match cache.requests.dropWhile fun r => r.addr ≠ addr with
  | [] => none
  | _ :: rest => some (rest.head?.map SrArpreq.addr)

end SrArpcache

/-- The request for `ip`, which is made if there is none. -/
def SrArpcache.requestFor (cache : SrArpcache) (ip : UInt32) : SrArpcache × ℕ :=
  match cache.findIp ip with
  | some req => (cache, req.addr)
  | none => (cache.push ip, cache.freshAddr)

/-- Add a packet to those that wait on the request at `addr`.  A packet without an interface name
is not added. -/
def SrArpcache.enqueue (cache : SrArpcache) (addr : ℕ) (packet : List UInt8)
    (iface : Option Name) : SrArpcache :=
  match iface with
  | some iface =>
      if packet = [] then cache
      else cache.update addr (fun r => { r with packets := ⟨packet, iface⟩ :: r.packets })
        fun _ => rfl
  | none => cache

/-- `sr_arpcache_queuereq`: the cache it leaves and the request's address. -/
def srArpcacheQueuereq (cache : SrArpcache) (ip : UInt32) (packet : List UInt8)
    (iface : Option Name) : SrArpcache × ℕ :=
  let (cache, addr) := cache.requestFor ip
  (cache.enqueue addr packet iface, addr)

/-- Put a mapping into the first free slot, if there is one. -/
def insertEntry (slots : List SrArpentry) (entry : SrArpentry) : List SrArpentry :=
  match slots with
  | [] => []
  | e :: rest => if e.valid then e :: insertEntry rest entry else entry :: rest

@[simp] theorem length_insertEntry (slots : List SrArpentry) (entry : SrArpentry) :
    (insertEntry slots entry).length = slots.length := by
  induction slots with
  | nil => rfl
  | cons e rest ih =>
    rw [insertEntry]
    split_ifs <;> simp [ih]

/-- `sr_arpcache_insert`: the cache it leaves and the request for this address, now off the queue. -/
def srArpcacheInsert (cache : SrArpcache) (mac : Mac) (ip : UInt32) (now : ℕ) :
    SrArpcache × Option SrArpreq :=
  ({ cache.unlink (fun r => r.ip = ip) with
      entries := ⟨insertEntry cache.entries.slots ⟨mac, ip, now, true⟩, by
        rw [length_insertEntry]; exact cache.entries.size⟩ },
    cache.findIp ip)

/-- `sr_arpreq_destroy`. -/
def srArpreqDestroy (cache : SrArpcache) (addr : ℕ) : SrArpcache :=
  cache.unlink fun r => r.addr = addr

/-- The part of `sr_arpcache_timeout` that invalidates old entries. -/
def expireEntries (cache : SrArpcache) (now : ℕ) : SrArpcache :=
  { cache with
      entries := ⟨cache.entries.slots.map fun e =>
          if e.valid ∧ e.added + srArpcacheTo < now then { e with valid := false } else e, by
        rw [List.length_map]; exact cache.entries.size⟩ }

end ComputerNetwork.Router
