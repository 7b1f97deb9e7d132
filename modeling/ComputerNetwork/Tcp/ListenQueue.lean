import ComputerNetwork.Lib.SlotTable
import ComputerNetwork.Tcp.ConnectionDemux

/-!
# The invariant of the listen queue

`Kept h d q` ties the slots of the queue `q`, its completed list and the descriptor table of `d` to
the history `h` of the calls.  Each call has one lemma that says what it returns and that it keeps
`Kept`; `Kept.step` collects them.
-/

namespace ComputerNetwork.Tcp.Demux

open Lib

/-! ## The descriptor table -/

/-- Every context stands at its own descriptor, was allocated earlier and is no other's. -/
structure Table (d : State) : Prop where
  mySd : ∀ sd ctx, d.contextAt sd = some ctx → ctx.mySd = sd
  serial : ∀ sd ctx, d.contextAt sd = some ctx → ctx.serial < d.allocated
  distinct : ∀ sd sd' ctx ctx', d.contextAt sd = some ctx → d.contextAt sd' = some ctx' →
    ctx.serial = ctx'.serial → sd = sd'
  listener : (d.contextAt d.listener).isSome

theorem getContext_eq {d : State} (table : Table d) {sd : ℤ} {ctx : Context}
    (get : d.contextAt sd = some ctx) : d.getContext sd = .ok ctx := by
  simp only [State.getContext, get, table.mySd sd ctx get, if_true]

theorem contextAt_nonneg {d : State} {sd : ℤ} {ctx : Context} (get : d.contextAt sd = some ctx) :
    0 ≤ sd := by
  unfold State.contextAt at get
  split_ifs at get with low
  exact low

theorem contextAt_set {d : State} (d' : State) {k : ℕ} {entry : Option Context}
    (set : d'.globalCtx = d.globalCtx.set k entry) (long : k < d.globalCtx.length) (sd : ℤ) :
    d'.contextAt sd = if sd = k then entry else d.contextAt sd := by
  unfold State.contextAt
  by_cases low : 0 ≤ sd
  · rw [if_pos low, if_pos low, set, List.getElem?_set]
    by_cases same : sd = k
    · rw [if_pos same, if_pos (by omega), if_pos long, Option.join_some]
    · rw [if_neg same, if_neg (by omega)]
  · rw [if_neg low, if_neg low, if_neg (by omega)]

theorem length_of_contextAt {d : State} {sd : ℤ} {ctx : Context}
    (get : d.contextAt sd = some ctx) : sd.toNat < d.globalCtx.length := by
  unfold State.contextAt at get
  split_ifs at get
  by_contra short
  rw [List.getElem?_eq_none (by omega)] at get
  cases get

theorem contextAt_freeContext {d : State} {sd : ℤ} {ctx : Context}
    (get : d.contextAt sd = some ctx) (other : ℤ) :
    (d.freeContext sd).contextAt other = if other = sd then none else d.contextAt other := by
  rw [contextAt_set (d.freeContext sd) rfl (length_of_contextAt get),
    Int.toNat_of_nonneg (contextAt_nonneg get)]

theorem newMysocket_eq_none {d : State} : d.newMysocket = none ↔ none ∉ d.globalCtx := by
  rw [State.newMysocket, Option.map_eq_none_iff, List.findIdx?_eq_none_iff]
  constructor
  · intro all mem
    simpa using all none mem
  · intro taken entry mem
    cases entry with
    | none => exact absurd mem taken
    | some ctx => rfl

/-- What `_mysock_new_mysocket` leaves: a context of its own at a descriptor that was free. -/
structure NewContext (d d' : State) (ctx : Context) : Prop where
  serial : ctx.serial = d.allocated
  low : 0 ≤ ctx.mySd
  long : ctx.mySd.toNat < d'.globalCtx.length
  unused : d.contextAt ctx.mySd = none
  allocated : d'.allocated = d.allocated + 1
  listener : d'.listener = d.listener
  queue : d'.queue = d.queue
  contextAt : ∀ sd, d'.contextAt sd = if sd = ctx.mySd then some ctx else d.contextAt sd

theorem newMysocket_spec {d d' : State} {ctx : Context} (new : d.newMysocket = some (ctx, d')) :
    NewContext d d' ctx := by
  unfold State.newMysocket at new
  rw [Option.map_eq_some_iff] at new
  obtain ⟨k, found, eq⟩ := new
  obtain ⟨long, empty, -⟩ := List.findIdx?_eq_some_iff_getElem.1 found
  rw [Option.isNone_iff_eq_none] at empty
  simp only [Prod.mk.injEq] at eq
  obtain ⟨rfl, rfl⟩ := eq
  refine ⟨rfl, Int.natCast_nonneg k, by simpa using long, ?_, rfl, rfl, rfl, contextAt_set _ rfl long⟩
  rw [State.contextAt, if_pos (Int.natCast_nonneg k), Int.toNat_natCast,
    List.getElem?_eq_getElem long, empty, Option.join_some]

theorem NewContext.setContext {d d' : State} {ctx ctx' : Context} (new : NewContext d d' ctx)
    (serial : ctx'.serial = ctx.serial) (mySd : ctx'.mySd = ctx.mySd) :
    NewContext d (d'.setContext ctx') ctx' := by
  refine ⟨serial.trans new.serial, mySd ▸ new.low, ?_, mySd ▸ new.unused, new.allocated,
    new.listener, new.queue, fun sd => ?_⟩
  · simpa [State.setContext, mySd] using new.long
  · rw [contextAt_set (d'.setContext ctx') rfl (mySd ▸ new.long),
      Int.toNat_of_nonneg (mySd ▸ new.low), new.contextAt]
    by_cases same : sd = ctx'.mySd
    · rw [if_pos same, if_pos same]
    · rw [if_neg same, if_neg same, if_neg (mySd ▸ same)]

theorem NewContext.table {d d' : State} {ctx : Context} (new : NewContext d d' ctx)
    (table : Table d) : Table d' := by
  have old : ∀ sd c, d.contextAt sd = some c → c.serial ≠ ctx.serial := by
    intro sd c get same
    have := table.serial sd c get
    rw [same, new.serial] at this
    omega
  refine ⟨fun sd c get => ?_, fun sd c get => ?_, fun sd sd' c c' get get' same => ?_, ?_⟩
  · rw [new.contextAt] at get
    split_ifs at get with same
    · rw [← Option.some.inj get, same]
    · exact table.mySd sd c get
  · rw [new.contextAt] at get
    rw [new.allocated]
    split_ifs at get with same
    · rw [← Option.some.inj get, new.serial]
      omega
    · exact Nat.lt_succ_of_lt (table.serial sd c get)
  · rw [new.contextAt] at get get'
    split_ifs at get get' with here here'
    · rw [here, here']
    · exact absurd (same.symm.trans (congrArg Context.serial (Option.some.inj get)).symm)
        (old sd' c' get')
    · exact absurd (same.trans (congrArg Context.serial (Option.some.inj get')).symm) (old sd c get)
    · exact table.distinct sd sd' c c' get get' same
  · rw [new.listener, new.contextAt]
    split_ifs
    · rfl
    · exact table.listener

theorem Table.freeContext {d : State} (table : Table d) {sd : ℤ} {ctx : Context}
    (get : d.contextAt sd = some ctx) (other : sd ≠ d.listener) : Table (d.freeContext sd) := by
  have old : ∀ sd' c, (d.freeContext sd).contextAt sd' = some c → d.contextAt sd' = some c := by
    intro sd' c get'
    rw [contextAt_freeContext get] at get'
    split_ifs at get'
    exact get'
  refine ⟨fun sd' c get' => table.mySd sd' c (old sd' c get'),
    fun sd' c get' => table.serial sd' c (old sd' c get'),
    fun _ _ _ _ get₁ get₂ => table.distinct _ _ _ _ (old _ _ get₁) (old _ _ get₂), ?_⟩
  change ((d.freeContext sd).contextAt d.listener).isSome
  rw [contextAt_freeContext get, if_neg (Ne.symm other)]
  exact table.listener

theorem Table.setQueue {d : State} (table : Table d) (queue : Option ListenQueue) :
    Table { d with queue } :=
  ⟨table.mySd, table.serial, table.distinct, table.listener⟩

/-! ## The queue -/

/-- The serial number of the connection that an entry of the completed list stands for. -/
def serialAt (d : State) (q : ListenQueue) (p : SlotPtr) : Option ℕ :=
  (q.connectionQueue[p.index]?).bind fun r => (d.contextAt r.sd).map Context.serial

/-- The connections that are complete and not yet accepted, in the order of the completed list. -/
def waiting (d : State) (q : ListenQueue) : List (Option ℕ) := q.completedQueue.map (serialAt d q)

/-- A new mysocket that `accept` has not returned. -/
def Pending (h : History) (ctx : Context) : Prop := ctx.serial ∈ h.queued ∧ ctx.serial ∉ h.dequeued

/-- What holds between the slots, the completed list, the descriptor table and the history. -/
structure Kept (h : History) (d : State) (q : ListenQueue) : Prop where
  curLen : q.curLen = q.connectionQueue.countP (fun r => r.InUse)
  below : ∀ (k : ℕ) r, q.connectionQueue[k]? = some r → r.InUse → k < q.maxLen
  free : ∀ r ∈ q.connectionQueue, ¬ r.InUse → r = .invalid
  peers : DistinctOn ConnectRequest.InUse ConnectRequest.peerAddr q.connectionQueue
  sds : DistinctOn ConnectRequest.InUse ConnectRequest.sd q.connectionQueue
  owner : ∀ r ∈ q.connectionQueue, r.InUse →
    ∃ ctx, d.contextAt r.sd = some ctx ∧ ctx.listenSd = d.listener ∧ ctx.peerAddr = r.peerAddr ∧
      Pending h ctx
  slotOf : ∀ sd ctx, d.contextAt sd = some ctx → Pending h ctx → ∃ r ∈ q.connectionQueue, r.sd = sd
  pointers : ∀ p ∈ q.completedQueue,
    p.block = q.block ∧ ∃ r, q.connectionQueue[p.index]? = some r ∧ r.InUse
  order : h.completed.map some = h.dequeued.map some ++ waiting d q
  nodup : h.completed.Nodup
  known : ∀ n ∈ h.completed, n ∈ h.queued
  fresh : ∀ n ∈ h.queued, n < d.allocated

/-- The packets that `_mysock_enqueue_connection` queues a connection for. -/
structure Acceptable (d : State) (q : ListenQueue) (packet : List UInt8) (peerAddr : SockaddrIn) :
    Prop where
  long : sizeofSTCPHeader ≤ packet.length
  syn : hasFlag packet thSYN = true
  new : ∀ r ∈ q.slots, r.peerAddr ≠ some peerAddr
  backlog : q.curLen < q.maxLen
  descriptor : none ∈ d.globalCtx

instance (d : State) (q : ListenQueue) (packet : List UInt8) (peerAddr : SockaddrIn) :
    Decidable (Acceptable d q packet peerAddr) :=
  decidable_of_iff (sizeofSTCPHeader ≤ packet.length ∧ hasFlag packet thSYN = true ∧
    (∀ r ∈ q.slots, r.peerAddr ≠ some peerAddr) ∧ q.curLen < q.maxLen ∧ none ∈ d.globalCtx)
    ⟨fun ⟨a, b, c, d, e⟩ => ⟨a, b, c, d, e⟩, fun ⟨a, b, c, d, e⟩ => ⟨a, b, c, d, e⟩⟩

/-- The backlog does not cut off a slot in use, and `realloc` does not move the slots away from
completed connections. -/
structure BacklogFits (q : ListenQueue) (maxLen : ℕ) (moved : Bool) : Prop where
  slots : ∀ r ∈ q.connectionQueue.drop maxLen, ¬ r.InUse
  pointers : q.maxLen < maxLen → moved = true → q.completedQueue = []

namespace Kept

variable {h : History} {d d' : State} {q : ListenQueue}

theorem dequeued_completed (kept : Kept h d q) : ∀ n ∈ h.dequeued, n ∈ h.completed := by
  intro n mem
  have mem' : some n ∈ h.completed.map some := by
    rw [kept.order]
    exact List.mem_append_left _ (List.mem_map_of_mem mem)
  simpa using mem'

theorem not_dequeued (kept : Kept h d q) {n : ℕ} (unknown : n ∉ h.queued) : n ∉ h.dequeued :=
  fun mem => unknown (kept.known n (kept.dequeued_completed n mem))

theorem curLen_le (kept : Kept h d q) : q.curLen ≤ q.maxLen := by
  rw [kept.curLen, ← countP_take q.maxLen kept.below]
  calc (q.connectionQueue.take q.maxLen).countP _
      ≤ (q.connectionQueue.take q.maxLen).length := List.countP_le_length
    _ ≤ q.maxLen := by
      rw [List.length_take]
      exact min_le_left _ _

/-- The slots in use are among those that the loops read. -/
theorem mem_slots (kept : Kept h d q) {r : ConnectRequest} (mem : r ∈ q.connectionQueue)
    (used : r.InUse) : r ∈ q.slots := by
  obtain ⟨k, get⟩ := List.mem_iff_getElem?.1 mem
  refine List.mem_of_getElem? (i := k) ?_
  rw [ListenQueue.slots, List.getElem?_take_of_lt (kept.below k r get used), get]

theorem exists_used (kept : Kept h d q) {sd : ℤ} {ctx : Context} (get : d.contextAt sd = some ctx)
    (pending : Pending h ctx) :
    ∃ (k : ℕ) (r : ConnectRequest), q.connectionQueue[k]? = some r ∧ r.InUse ∧ r.sd = sd := by
  obtain ⟨r, mem, rfl⟩ := kept.slotOf sd ctx get pending
  obtain ⟨k, slot⟩ := List.mem_iff_getElem?.1 mem
  have low := contextAt_nonneg get
  refine ⟨k, r, slot, ?_, rfl⟩
  change r.sd ≠ -1
  omega

/-- An entry of the completed list stands for the connection in its slot. -/
theorem serialAt_eq {p : SlotPtr} {r : ConnectRequest} {ctx : Context}
    (slot : q.connectionQueue[p.index]? = some r) (get : d.contextAt r.sd = some ctx) :
    serialAt d q p = some ctx.serial := by
  simp only [serialAt, slot, Option.bind_some, get, Option.map_some]

/-- The entries of the completed list stand for the same connections as long as their slots and the
contexts of these stay. -/
theorem serialAt_congr (kept : Kept h d q) {q' : ListenQueue} {p : SlotPtr}
    (mem : p ∈ q.completedQueue)
    (slots : ∀ r, q.connectionQueue[p.index]? = some r → r.InUse →
      q'.connectionQueue[p.index]? = some r)
    (same : ∀ sd ctx, d.contextAt sd = some ctx → Pending h ctx → d'.contextAt sd = some ctx) :
    serialAt d' q' p = serialAt d q p := by
  obtain ⟨-, r, slot, used⟩ := kept.pointers p mem
  obtain ⟨ctx, get, -, -, pending⟩ := kept.owner r (List.mem_of_getElem? slot) used
  rw [serialAt_eq slot get, serialAt_eq (slots r slot used) (same _ _ get pending)]

/-- What the completed list shows is not changed by stores to slots that are not in use. -/
theorem waiting_congr (kept : Kept h d q) {q' : ListenQueue}
    (completed : q'.completedQueue = q.completedQueue)
    (slots : ∀ (k : ℕ) r, q.connectionQueue[k]? = some r → r.InUse →
      q'.connectionQueue[k]? = some r) : waiting d q' = waiting d q := by
  rw [waiting, waiting, completed]
  apply List.map_congr_left
  intro p mem
  exact kept.serialAt_congr mem (slots _) fun _ _ get _ => get

/-- The pointers of the completed list stay good as long as the slots in use stay. -/
theorem pointers_congr (kept : Kept h d q) {q' : ListenQueue}
    (completed : q'.completedQueue = q.completedQueue)
    (block : q.completedQueue ≠ [] → q'.block = q.block)
    (slots : ∀ (k : ℕ) r, q.connectionQueue[k]? = some r → r.InUse →
      q'.connectionQueue[k]? = some r) :
    ∀ p ∈ q'.completedQueue,
      p.block = q'.block ∧ ∃ r, q'.connectionQueue[p.index]? = some r ∧ r.InUse := by
  intro p mem
  rw [completed] at mem
  obtain ⟨here, r, slot, used⟩ := kept.pointers p mem
  exact ⟨here.trans (block (List.ne_nil_of_mem mem)).symm, r, slots _ r slot used, used⟩

/-- The invariant survives any change of the descriptor table that leaves the contexts of the slots
alone and adds no pending connection. -/
theorem congr (kept : Kept h d q)
    (same : ∀ sd ctx, d.contextAt sd = some ctx → Pending h ctx → d'.contextAt sd = some ctx)
    (old : ∀ sd ctx, d'.contextAt sd = some ctx → Pending h ctx → d.contextAt sd = some ctx)
    (listener : d'.listener = d.listener) (allocated : d.allocated ≤ d'.allocated) :
    Kept h d' q where
  curLen := kept.curLen
  below := kept.below
  free := kept.free
  peers := kept.peers
  sds := kept.sds
  owner := by
    intro r mem used
    obtain ⟨ctx, get, listen, peer, pending⟩ := kept.owner r mem used
    exact ⟨ctx, same _ _ get pending, by rw [listen, listener], peer, pending⟩
  slotOf := fun sd ctx get pending => kept.slotOf sd ctx (old sd ctx get pending) pending
  pointers := kept.pointers
  order := by
    rw [kept.order]
    congr 1
    apply List.map_congr_left
    intro p mem
    exact (kept.serialAt_congr mem (fun _ slot _ => slot) same).symm
  nodup := kept.nodup
  known := kept.known
  fresh := fun n mem => lt_of_lt_of_le (kept.fresh n mem) allocated

theorem setQueue (kept : Kept h d q) (queue : Option ListenQueue) : Kept h { d with queue } q :=
  kept.congr (fun _ _ get _ => get) (fun _ _ get _ => get) rfl le_rfl

theorem newContext {ctx : Context} (kept : Kept h d q) (new : NewContext d d' ctx) :
    Kept h d' q := by
  refine kept.congr (fun sd c get _ => ?_) (fun sd c get pending => ?_) new.listener
    (by rw [new.allocated]; omega)
  · rw [new.contextAt, if_neg, get]
    rintro rfl
    rw [new.unused] at get
    cases get
  · rw [new.contextAt] at get
    split_ifs at get
    · have late := kept.fresh _ pending.1
      rw [← Option.some.inj get, new.serial] at late
      omega
    · exact get

theorem freeContext {sd : ℤ} {ctx : Context} (kept : Kept h d q) (get : d.contextAt sd = some ctx)
    (given : ctx.serial ∈ h.queued → ctx.serial ∈ h.dequeued) : Kept h (d.freeContext sd) q := by
  refine kept.congr (fun sd' c get' pending => ?_) (fun sd' c get' _ => ?_) rfl le_rfl
  · rw [contextAt_freeContext get, if_neg, get']
    rintro rfl
    rw [get] at get'
    cases get'
    exact pending.2 (given pending.1)
  · rw [contextAt_freeContext get] at get'
    split_ifs at get'
    exact get'

/-! ## Queuing a connection -/

/-- `_mysock_enqueue_connection` claims slot `k` for a context that it has just allocated. -/
theorem claim {ctx : Context} {k : ℕ} {r : ConnectRequest} {peerAddr : SockaddrIn}
    (kept : Kept h d q) (table : Table d) (slot : q.connectionQueue[k]? = some r)
    (unused : ¬ r.InUse) (inside : k < q.maxLen) (distinct : ∀ r ∈ q.slots, r.peerAddr ≠ some peerAddr)
    (get : d.contextAt ctx.mySd = some ctx) (listen : ctx.listenSd = d.listener)
    (peer : ctx.peerAddr = some peerAddr) (unknown : ctx.serial ∉ h.queued)
    (late : ctx.serial < d.allocated) {q' : ListenQueue}
    (slots : q'.connectionQueue = q.connectionQueue.set k ⟨some peerAddr, ctx.mySd⟩)
    (curLen : q'.curLen = q.curLen + 1) (maxLen : q'.maxLen = q.maxLen)
    (block : q'.block = q.block) (completed : q'.completedQueue = q.completedQueue) :
    Kept (h.add (.queued ctx.serial)) d q' := by
  have claimed : ConnectRequest.InUse ⟨some peerAddr, ctx.mySd⟩ := by
    have := contextAt_nonneg get
    change ctx.mySd ≠ -1
    omega
  have pending : ∀ {c : Context}, Pending h c → Pending (h.add (.queued ctx.serial)) c :=
    fun p => ⟨List.mem_append_left _ p.1, p.2⟩
  have new : Pending (h.add (.queued ctx.serial)) ctx :=
    ⟨List.mem_append_right _ (List.mem_singleton.2 rfl), kept.not_dequeued unknown⟩
  -- slots in use belong to contexts that have been queued, and `ctx` has not
  have otherSd : ∀ r ∈ q.connectionQueue, r.InUse → r.sd ≠ ctx.mySd := by
    intro r mem used same
    obtain ⟨c, getC, -, -, p⟩ := kept.owner r mem used
    rw [same, get] at getC
    cases getC
    exact unknown p.1
  have keep : ∀ (j : ℕ) s, q.connectionQueue[j]? = some s → s.InUse →
      q'.connectionQueue[j]? = some s := by
    intro j s getS used
    rw [slots]
    exact getElem?_claim slot unused getS used
  constructor
  · rw [curLen, kept.curLen, slots, countP_claim slot unused claimed]
  · intro j s getS used
    rw [maxLen]
    rw [slots] at getS
    rcases getElem?_set_cases getS with ⟨rfl, -⟩ | ⟨-, old⟩
    · exact inside
    · exact kept.below j s old used
  · intro s mem unusedS
    rw [slots] at mem
    rcases List.mem_or_eq_of_mem_set mem with mem | rfl
    · exact kept.free s mem unusedS
    · exact absurd claimed unusedS
  · rw [slots]
    exact kept.peers.claim fun s mem used => distinct s (kept.mem_slots mem used)
  · rw [slots]
    exact kept.sds.claim otherSd
  · intro s mem used
    rw [slots] at mem
    rcases List.mem_or_eq_of_mem_set mem with mem | rfl
    · obtain ⟨c, getC, listenC, peerC, p⟩ := kept.owner s mem used
      exact ⟨c, getC, listenC, peerC, pending p⟩
    · exact ⟨ctx, get, listen, peer, new⟩
  · intro sd c getC p
    by_cases same : sd = ctx.mySd
    · exact ⟨_, List.mem_of_getElem? (by rw [slots]; exact getElem?_set_of_getElem? slot), same.symm⟩
    · have old : Pending h c := by
        refine ⟨?_, p.2⟩
        cases List.mem_append.1 p.1 with
        | inl mem => exact mem
        | inr mem => exact absurd (table.distinct _ _ _ _ getC get (List.mem_singleton.1 mem)) same
      obtain ⟨j, s, getS, used, rfl⟩ := kept.exists_used getC old
      exact ⟨s, List.mem_of_getElem? (keep j s getS used), rfl⟩
  · exact kept.pointers_congr completed (fun _ => block) keep
  · change h.completed.map some = h.dequeued.map some ++ waiting d q'
    rw [kept.waiting_congr completed keep, kept.order]
  · exact kept.nodup
  · exact fun n mem => List.mem_append_left _ (kept.known n mem)
  · intro n mem
    cases List.mem_append.1 mem with
    | inl mem => exact kept.fresh n mem
    | inr mem =>
      rw [List.mem_singleton.1 mem]
      exact late

/-- While `cur_len` is below `max_len` the search for an empty slot succeeds. -/
theorem exists_slot (kept : Kept h d q) (backlog : q.curLen < q.maxLen) :
    ∃ k, q.slots.findIdx? (fun r => r.sd < 0) = some k ∧ k < q.maxLen ∧
      q.connectionQueue[k]? = some .invalid := by
  have few : q.slots.countP (fun r => r.InUse) < q.slots.length := by
    have := q.room
    rw [ListenQueue.slots, countP_take q.maxLen kept.below, ← kept.curLen, List.length_take]
    omega
  have test : ∀ r ∈ q.slots, decide (r.sd < 0) = true ↔ ¬ r.InUse := by
    intro r mem
    have mem' := List.mem_of_mem_take mem
    rw [decide_eq_true_eq]
    constructor
    · intro negative used
      obtain ⟨ctx, get, -⟩ := kept.owner r mem' used
      have := contextAt_nonneg get
      omega
    · intro unused
      rw [kept.free r mem' unused]
      decide
  obtain ⟨k, r, found, get, unused⟩ := exists_free _ test few
  have inside := lt_length_of_getElem? get
  rw [ListenQueue.slots, List.length_take] at inside
  rw [ListenQueue.slots, List.getElem?_take_of_lt (by omega)] at get
  exact ⟨k, found, by omega, by rw [get, kept.free r (List.mem_of_getElem? get) unused]⟩

theorem store_invalid {k : ℕ} (get : q.connectionQueue[k]? = some .invalid) :
    q.store k .invalid = q := by
  obtain ⟨long, same⟩ := List.getElem?_eq_some_iff.1 get
  have slots : q.connectionQueue.set k .invalid = q.connectionQueue := by
    rw [← same, List.set_getElem_self]
  cases q
  simp only [ListenQueue.store, ListenQueue.mk.injEq, true_and, and_true]
  exact slots

theorem enqueue_dropped (kept : Kept h d q) (queue : d.queue = some q) {packet : List UInt8}
    {peerAddr : SockaddrIn} (refused : ¬ Acceptable d q packet peerAddr) (newSocket : ℤ) :
    enqueueConnection d newSocket packet peerAddr =
      .ok { queued := none, state := d, newSocket } := by
  unfold enqueueConnection
  dsimp only
  split_ifs with setup
  · rfl
  · rw [queue]
    dsimp only
    split_ifs with known backlog
    · rfl
    · obtain ⟨k, found, -, empty⟩ := kept.exists_slot backlog
      have full : d.newMysocket = none := by
        rw [newMysocket_eq_none]
        intro descriptor
        rw [not_or, not_lt, Bool.not_eq_false] at setup
        refine refused ⟨setup.1, setup.2, ?_, backlog, descriptor⟩
        simpa using known
      have cleared : (q.connectionQueue.getD k .invalid).sd = -1 := by
        rw [List.getD_eq_getElem?_getD, empty]
        rfl
      rw [found]
      dsimp only
      rw [if_neg (not_not_intro cleared), full, store_invalid empty, ← queue]
    · rfl

theorem enqueue_queued (kept : Kept h d q) (table : Table d) (queue : d.queue = some q)
    {packet : List UInt8} {peerAddr : SockaddrIn} (accept : Acceptable d q packet peerAddr)
    (newSocket : ℤ) :
    ∃ ctx d' q', enqueueConnection d newSocket packet peerAddr =
        .ok { queued := some ctx, state := d', newSocket := -1 } ∧
      ctx.socket = some newSocket ∧ d'.contextAt ctx.mySd = some ctx ∧ d'.queue = some q' ∧
      d'.listener = d.listener ∧ Table d' ∧ Kept (h.add (.queued ctx.serial)) d' q' := by
  obtain ⟨k, found, inside, empty⟩ := kept.exists_slot accept.backlog
  rcases created : d.newMysocket with _ | ⟨ctx₀, d₀⟩
  · exact absurd accept.descriptor (newMysocket_eq_none.1 created)
  have cleared : (q.connectionQueue.getD k .invalid).sd = -1 := by
    rw [List.getD_eq_getElem?_getD, empty]
    rfl
  have setup : ¬ (packet.length < sizeofSTCPHeader ∨ hasFlag packet thSYN = false) := by
    rw [not_or, not_lt, Bool.not_eq_false]
    exact ⟨accept.long, accept.syn⟩
  have unseen : ¬ (q.slots.any fun r => r.peerAddr = some peerAddr) = true := by
    simpa using accept.new
  set ctx : Context :=
    { ctx₀ with
      listenSd := d₀.listener, peerAddr := some peerAddr, socket := some newSocket
      connected := true }
  have new : NewContext d (d₀.setContext ctx) ctx := (newMysocket_spec created).setContext rfl rfl
  have get : (d₀.setContext ctx).contextAt ctx.mySd = some ctx := by
    rw [new.contextAt, if_pos rfl]
  have unknown : ctx.serial ∉ h.queued := by
    intro mem
    have := kept.fresh _ mem
    rw [new.serial] at this
    omega
  let claimed : ListenQueue :=
    { q.store k ⟨some peerAddr, ctx.mySd⟩ with curLen := q.curLen + 1 }
  have kept' : Kept (h.add (.queued ctx.serial)) (d₀.setContext ctx) claimed :=
    (kept.newContext new).claim (new.table table) empty (by decide) inside accept.new get rfl rfl
      unknown ((new.table table).serial _ _ get) rfl rfl rfl rfl rfl
  refine ⟨ctx, { d₀.setContext ctx with queue := some claimed }, claimed, ?_, rfl, get, rfl,
    new.listener, (new.table table).setQueue _, kept'.setQueue _⟩
  unfold enqueueConnection
  dsimp only
  rw [if_neg setup, queue]
  dsimp only
  rw [if_neg unseen, if_pos accept.backlog, found]
  dsimp only
  rw [if_neg (not_not_intro cleared), created]
  rfl

/-! ## Completing and accepting a connection -/

theorem complete (kept : Kept h d q) (table : Table d) (queue : d.queue = some q) {sd : ℤ}
    {ctx : Context} (get : d.contextAt sd = some ctx) (queued : ctx.serial ∈ h.queued)
    (first : ctx.serial ∉ h.completed) :
    ∃ k, passiveConnectionComplete d ctx =
        .ok { d with queue := some { q with completedQueue := q.completedQueue ++ [⟨q.block, k⟩] } } ∧
      Kept (h.add (.completed ctx.serial)) d
        { q with completedQueue := q.completedQueue ++ [⟨q.block, k⟩] } := by
  have pending : Pending h ctx := ⟨queued, fun mem => first (kept.dequeued_completed _ mem)⟩
  obtain ⟨k, r, slot, used, rfl⟩ := kept.exists_used get pending
  obtain ⟨c, getC, listen, -, -⟩ := kept.owner r (List.mem_of_getElem? slot) used
  rw [get] at getC
  cases getC
  have inside := kept.below k r slot used
  have found : q.slots.findIdx? (fun s => s.sd = ctx.mySd) = some k := by
    rw [table.mySd _ _ get]
    refine findIdx?_of_distinct (kept.sds.take q.maxLen) (x := r) ?_ fun z _ same => ?_
    · rw [ListenQueue.slots, List.getElem?_take_of_lt inside, slot]
    · change z.sd ≠ -1
      rw [same]
      exact used
  obtain ⟨lctx, getL⟩ := Option.isSome_iff_exists.1 table.listener
  refine ⟨k, ?_, ?_⟩
  · have lowL := contextAt_nonneg getL
    unfold passiveConnectionComplete
    rw [listen, if_neg (by omega), getContext_eq table getL]
    dsimp only
    rw [State.getConnectionQueue, if_pos (table.mySd _ _ getL), queue]
    dsimp only
    rw [found]
  · constructor
    · exact kept.curLen
    · exact kept.below
    · exact kept.free
    · exact kept.peers
    · exact kept.sds
    · exact kept.owner
    · exact kept.slotOf
    · intro p mem
      cases List.mem_append.1 mem with
      | inl mem => exact kept.pointers p mem
      | inr mem =>
        rw [List.mem_singleton.1 mem]
        exact ⟨rfl, r, slot, used⟩
    · have here : serialAt d q ⟨q.block, k⟩ = some ctx.serial := serialAt_eq slot get
      change (h.completed ++ [ctx.serial]).map some = h.dequeued.map some ++
        (q.completedQueue ++ [(⟨q.block, k⟩ : SlotPtr)]).map (serialAt d q)
      rw [List.map_append, kept.order, List.append_assoc, waiting, List.map_append, List.map_cons,
        List.map_cons, here]
      rfl
    · change (h.completed ++ [ctx.serial]).Nodup
      rw [List.nodup_append]
      refine ⟨kept.nodup, List.nodup_singleton _, fun n mem m mem' same => first ?_⟩
      rwa [← List.mem_singleton.1 mem', ← same]
    · intro n mem
      cases List.mem_append.1 mem with
      | inl mem => exact kept.known n mem
      | inr mem =>
        rw [List.mem_singleton.1 mem]
        exact queued
    · exact kept.fresh

/-- The slot and the context behind the first entry of the completed list. -/
structure Head (h : History) (d : State) (q : ListenQueue) (p : SlotPtr) (rest : List SlotPtr)
    (r : ConnectRequest) (ctx : Context) : Prop where
  block : p.block = q.block
  slot : q.connectionQueue[p.index]? = some r
  used : r.InUse
  get : d.contextAt r.sd = some ctx
  order : h.completed.map some =
    h.dequeued.map some ++ some ctx.serial :: rest.map (serialAt d q)
  /-- No later entry points to the same slot. -/
  others : ∀ p' ∈ rest, p'.index ≠ p.index

theorem exists_head (kept : Kept h d q) {p : SlotPtr} {rest : List SlotPtr}
    (head : q.completedQueue = p :: rest) : ∃ r ctx, Head h d q p rest r ctx := by
  obtain ⟨block, r, slot, used⟩ := kept.pointers p (head ▸ List.mem_cons_self ..)
  obtain ⟨ctx, get, -, -, -⟩ := kept.owner r (List.mem_of_getElem? slot) used
  have first : serialAt d q p = some ctx.serial := serialAt_eq slot get
  have order : h.completed.map some =
      h.dequeued.map some ++ some ctx.serial :: rest.map (serialAt d q) := by
    rw [kept.order, waiting, head, List.map_cons, first]
  refine ⟨r, ctx, block, slot, used, get, order, fun p' mem same => ?_⟩
  -- a second entry for the slot would be a second completion of its connection
  have nodup : (h.dequeued.map some ++ some ctx.serial :: rest.map (serialAt d q)).Nodup := by
    rw [← order]
    exact kept.nodup.map (Option.some_injective _)
  have double : some ctx.serial ∈ rest.map (serialAt d q) := by
    refine List.mem_map.2 ⟨p', mem, ?_⟩
    rw [← first, serialAt, serialAt, same]
  exact (List.nodup_cons.1 (List.nodup_append.1 nodup).2.1).1 double

theorem release {p : SlotPtr} {rest : List SlotPtr} {r : ConnectRequest} {ctx : Context}
    (kept : Kept h d q) (table : Table d) (head : q.completedQueue = p :: rest)
    (first : Head h d q p rest r ctx) :
    Kept (h.add (.dequeued ctx.serial)) d
      { q.store p.index .invalid with curLen := q.curLen - 1, completedQueue := rest } := by
  have free : ¬ ConnectRequest.InUse .invalid := by decide
  have behind : ∀ p' ∈ rest, p' ∈ q.completedQueue :=
    fun p' mem => head ▸ List.mem_cons_of_mem _ mem
  have keep : ∀ (j : ℕ) s, q.connectionQueue[j]? = some s → j ≠ p.index →
      (q.connectionQueue.set p.index .invalid)[j]? = some s := by
    intro j s getS other
    rw [List.getElem?_set_ne (Ne.symm other), getS]
  have pending : ∀ c, Pending h c → c.serial ≠ ctx.serial →
      Pending (h.add (.dequeued ctx.serial)) c := by
    intro c pend other
    refine ⟨pend.1, fun mem => ?_⟩
    cases List.mem_append.1 mem with
    | inl mem => exact pend.2 mem
    | inr mem => exact other (List.mem_singleton.1 mem)
  constructor
  · change q.curLen - 1 = (q.connectionQueue.set p.index .invalid).countP _
    rw [kept.curLen, countP_release first.slot first.used free]
  · exact fun j s getS usedS => kept.below j s (getElem?_release free getS usedS).2 usedS
  · intro s mem unused
    rcases List.mem_or_eq_of_mem_set mem with mem | rfl
    · exact kept.free s mem unused
    · rfl
  · exact kept.peers.release free
  · exact kept.sds.release free
  · intro s mem usedS
    obtain ⟨j, getS⟩ := List.mem_iff_getElem?.1 mem
    obtain ⟨other, old⟩ := getElem?_release free getS usedS
    obtain ⟨c, getC, listenC, peerC, pend⟩ := kept.owner s (List.mem_of_getElem? old) usedS
    refine ⟨c, getC, listenC, peerC, pending c pend fun same => other ?_⟩
    exact kept.sds _ _ _ _ old first.slot usedS first.used
      (table.distinct _ _ _ _ getC first.get same)
  · intro sd c getC pend
    have old : Pending h c := ⟨pend.1, fun mem => pend.2 (List.mem_append_left _ mem)⟩
    obtain ⟨j, s, getS, -, rfl⟩ := kept.exists_used getC old
    refine ⟨s, List.mem_of_getElem? (keep j s getS fun same => ?_), rfl⟩
    rw [same, first.slot] at getS
    cases getS
    rw [first.get] at getC
    cases getC
    exact pend.2 (List.mem_append_right _ (List.mem_singleton.2 rfl))
  · intro p' mem
    obtain ⟨here, s, getS, usedS⟩ := kept.pointers p' (behind p' mem)
    exact ⟨here, s, keep _ s getS (first.others p' mem), usedS⟩
  · change h.completed.map some = (h.dequeued ++ [ctx.serial]).map some ++
      rest.map (serialAt d { q.store p.index .invalid with
        curLen := q.curLen - 1, completedQueue := rest })
    rw [first.order, List.map_append, List.append_assoc]
    congr 2
    apply List.map_congr_left
    intro p' mem
    exact (kept.serialAt_congr (behind p' mem)
      (fun s getS _ => keep _ s getS (first.others p' mem)) fun _ _ getC _ => getC).symm
  · exact kept.nodup
  · exact kept.known
  · exact kept.fresh

/-- `_mysock_dequeue_connection` returns the connection that was completed first. -/
theorem dequeue (kept : Kept h d q) (table : Table d) {p : SlotPtr} {rest : List SlotPtr}
    (head : q.completedQueue = p :: rest) :
    ∃ ctx q', dequeueHead d q p rest = .ok (ctx, { d with queue := some q' }) ∧
      Kept (h.add (.dequeued ctx.serial)) d q' := by
  obtain ⟨r, ctx, first⟩ := kept.exists_head head
  have positive : 0 < q.curLen := by
    rw [kept.curLen, List.countP_pos_iff]
    exact ⟨r, List.mem_of_getElem? first.slot, by simpa using first.used⟩
  refine ⟨ctx, _, ?_, kept.release table head first⟩
  unfold dequeueHead ListenQueue.load
  rw [if_pos first.block, first.slot]
  dsimp only
  rw [getContext_eq table first.get]
  dsimp only
  rw [if_pos positive]

/-! ## Changing the backlog -/

/-- The queue after `calloc` is the queue of a mysocket that no call has used. -/
theorem allocated (d : State) : Kept .empty d .allocated := by
  constructor <;> simp [ListenQueue.allocated, History.empty, DistinctOn, Pending, waiting]

theorem grow (kept : Kept h d q) {maxLen : ℕ} {moved : Bool} (larger : q.maxLen < maxLen)
    (pointers : moved = true → q.completedQueue = []) : Kept h d (q.resize maxLen moved) := by
  have slots : (q.resize maxLen moved).connectionQueue =
      q.connectionQueue.take q.maxLen ++ List.replicate (maxLen - q.maxLen) .invalid := by
    rw [ListenQueue.resize, dif_pos larger]
    rfl
  have maxLen_eq : (q.resize maxLen moved).maxLen = maxLen := by
    rw [ListenQueue.resize, dif_pos larger]
  have completed : (q.resize maxLen moved).completedQueue = q.completedQueue := by
    rw [ListenQueue.resize, dif_pos larger]
  have block : (q.resize maxLen moved).block = if moved then q.block + 1 else q.block := by
    rw [ListenQueue.resize, dif_pos larger]
  have curLen : (q.resize maxLen moved).curLen = q.curLen := by
    rw [ListenQueue.resize, dif_pos larger]
  have old : ∀ (k : ℕ) r, (q.resize maxLen moved).connectionQueue[k]? = some r → r.InUse →
      q.connectionQueue[k]? = some r := by
    intro k r get used
    rw [slots] at get
    exact getElem?_resize (by decide) get used
  have keep : ∀ (k : ℕ) r, q.connectionQueue[k]? = some r → r.InUse →
      (q.resize maxLen moved).connectionQueue[k]? = some r := by
    intro k r get used
    have inside := kept.below k r get used
    have := lt_length_of_getElem? get
    rw [slots, List.getElem?_append_left (by rw [List.length_take]; omega),
      List.getElem?_take_of_lt inside, get]
  constructor
  · rw [curLen, kept.curLen, slots, List.countP_append, countP_take _ kept.below,
      List.countP_replicate]
    simp [ConnectRequest.invalid]
  · intro k r get used
    rw [maxLen_eq]
    exact (kept.below k r (old k r get used) used).trans larger
  · intro r mem unused
    rw [slots] at mem
    cases List.mem_append.1 mem with
    | inl mem => exact kept.free r (List.mem_of_mem_take mem) unused
    | inr mem => exact List.eq_of_mem_replicate mem
  · rw [slots]
    exact kept.peers.resize _ _ (by decide)
  · rw [slots]
    exact kept.sds.resize _ _ (by decide)
  · intro r mem used
    obtain ⟨k, get⟩ := List.mem_iff_getElem?.1 mem
    exact kept.owner r (List.mem_of_getElem? (old k r get used)) used
  · intro sd ctx get pending
    obtain ⟨k, r, slot, used, rfl⟩ := kept.exists_used get pending
    exact ⟨r, List.mem_of_getElem? (keep k r slot used), rfl⟩
  · refine kept.pointers_congr completed (fun some => ?_) keep
    cases moved with
    | false => exact block
    | true => exact absurd (pointers rfl) some
  · rw [kept.waiting_congr completed keep, kept.order]
  · exact kept.nodup
  · exact kept.known
  · exact kept.fresh

theorem shrink (kept : Kept h d q) {maxLen : ℕ} {moved : Bool} (smaller : ¬ q.maxLen < maxLen)
    (slots : ∀ (k : ℕ) r, q.connectionQueue[k]? = some r → r.InUse → k < maxLen) :
    Kept h d (q.resize maxLen moved) := by
  rw [ListenQueue.resize, dif_neg smaller]
  exact ⟨kept.curLen, slots, kept.free, kept.peers, kept.sds, kept.owner, kept.slotOf,
    kept.pointers, kept.order, kept.nodup, kept.known, kept.fresh⟩

theorem resize (kept : Kept h d q) {maxLen : ℕ} {moved : Bool}
    (fits : BacklogFits q maxLen moved) : Kept h d (q.resize maxLen moved) := by
  by_cases larger : q.maxLen < maxLen
  · exact kept.grow larger (fits.pointers larger)
  · exact kept.shrink larger (forall_drop_iff.1 fits.slots)

end Kept

/-! ## Runs -/

/-- The invariant of a listening mysocket, also before its first backlog. -/
structure Inv (h : History) (d : State) : Prop where
  table : Table d
  unlistened : d.queue = none → h = .empty
  kept : ∀ q ∈ d.queue, Kept h d q

/-- The condition on a call that sets the backlog. -/
def Fits (d : State) : Call → Prop
  | .setBacklog backlog moved =>
    BacklogFits (d.queue.getD .allocated) (backlog + 1).toNat moved
  | _ => True

instance (q : ListenQueue) (maxLen : ℕ) (moved : Bool) : Decidable (BacklogFits q maxLen moved) :=
  decidable_of_iff ((∀ r ∈ q.connectionQueue.drop maxLen, ¬ r.InUse) ∧
    (q.maxLen < maxLen → moved = true → q.completedQueue = []))
    ⟨fun h => ⟨h.1, h.2⟩, fun h => ⟨h.1, h.2⟩⟩

instance (d : State) : DecidablePred (Fits d)
  | .setBacklog backlog moved =>
    inferInstanceAs (Decidable (BacklogFits (d.queue.getD .allocated) (backlog + 1).toNat moved))
  | .enqueue _ _ _ | .complete _ | .dequeue | .mysocket | .myclose _ => .isTrue trivial

theorem Inv.of_kept {h : History} {d : State} {q : ListenQueue} (table : Table d)
    (queue : d.queue = some q) (kept : Kept h d q) : Inv h d where
  table := table
  unlistened := fun none => by rw [queue] at none; cases none
  kept := fun q' mem => by
    rw [queue] at mem
    cases mem
    exact kept

/-- A step keeps the invariant, ends without a fault and leaves a queue where there was one. -/
theorem Inv.step {h : History} {d d' : State} {call : Call} {shown : Shown} (inv : Inv h d)
    (allowed : Allowed h d call) (fits : Fits d call) (st : step d call = some (d', shown)) :
    Inv (h.add shown) d' ∧ (∀ e, shown ≠ .fault e) ∧ (d.queue.isSome → d'.queue.isSome) := by
  cases call with
  | setBacklog backlog moved =>
    cases st
    refine ⟨.of_kept (inv.table.setQueue _) rfl (Kept.setQueue (Kept.resize ?_ fits) _), nofun,
      fun _ => rfl⟩
    rcases queue : d.queue with _ | q
    · rw [inv.unlistened queue]
      exact .allocated d
    · exact inv.kept q queue
  | enqueue newSocket packet peerAddr =>
    simp only [Demux.step, Option.some.injEq] at st
    rcases queue : d.queue with _ | q
    · have dropped : enqueueConnection d newSocket packet peerAddr =
          .ok { queued := none, state := d, newSocket } := by
        unfold enqueueConnection
        dsimp only
        rw [queue, ite_self]
      rw [enqueueStep, dropped] at st
      cases st
      exact ⟨inv, nofun, (congrArg Option.isSome queue).trans⟩
    · by_cases accept : Acceptable d q packet peerAddr
      · obtain ⟨ctx, d₁, q₁, eq, -, -, queue₁, -, table, kept⟩ :=
          (inv.kept q queue).enqueue_queued inv.table queue accept newSocket
        rw [enqueueStep, eq] at st
        cases st
        exact ⟨.of_kept table queue₁ kept, nofun, fun _ => by rw [queue₁]; rfl⟩
      · rw [enqueueStep, (inv.kept q queue).enqueue_dropped queue accept] at st
        cases st
        exact ⟨inv, nofun, (congrArg Option.isSome queue).trans⟩
  | complete sd =>
    obtain ⟨ctx, get, queued, first⟩ := allowed
    rcases queue : d.queue with _ | q
    · rw [inv.unlistened queue] at queued
      cases queued
    · obtain ⟨k, eq, kept⟩ := (inv.kept q queue).complete inv.table queue get queued first
      simp only [Demux.step, getContext_eq inv.table get, bind, Except.bind, eq] at st
      cases st
      exact ⟨.of_kept (inv.table.setQueue _) rfl (kept.setQueue _), nofun, fun _ => rfl⟩
  | dequeue =>
    obtain ⟨q, queue⟩ := Option.isSome_iff_exists.1 allowed
    simp only [Demux.step, dequeueConnection, queue] at st
    rcases head : q.completedQueue with _ | ⟨p, rest⟩
    · rw [head] at st
      cases st
    · obtain ⟨ctx, q', eq, kept⟩ := (inv.kept q queue).dequeue inv.table head
      rw [head] at st
      dsimp only at st
      rw [eq] at st
      cases st
      exact ⟨.of_kept (inv.table.setQueue _) rfl (kept.setQueue _), nofun, fun _ => rfl⟩
  | mysocket =>
    simp only [Demux.step, Option.some.injEq] at st
    rcases created : d.newMysocket with _ | ⟨ctx, d₁⟩
    · rw [created] at st
      cases st
      exact ⟨inv, nofun, id⟩
    · rw [created] at st
      cases st
      have new := newMysocket_spec created
      refine ⟨⟨new.table inv.table, fun none => inv.unlistened (new.queue ▸ none), fun q mem => ?_⟩,
        nofun, fun some => new.queue ▸ some⟩
      exact (inv.kept q (new.queue ▸ mem)).newContext new
  | myclose sd =>
    obtain ⟨other, ctx, get, given⟩ := allowed
    cases st
    exact ⟨⟨inv.table.freeContext get other, inv.unlistened,
      fun q mem => (inv.kept q mem).freeContext get given⟩, nofun, id⟩

/-- The invariant after every run that changes the backlog only where that fits. -/
theorem inv_of_run {start d : State} {tr : List (Call × Shown)} (inv : Inv .empty start)
    (run : demuxMachine.Runs (fun tr d call => Allowed (history tr) d call ∧ Fits d call) start tr d) :
    Inv (history tr) d ∧ (∀ e, .fault e ∉ tr.map Prod.snd) ∧
      (start.queue.isSome → d.queue.isSome) := by
  refine run.invariant
    (I := fun tr d => Inv (history tr) d ∧ (∀ e, .fault e ∉ tr.map Prod.snd) ∧
      (start.queue.isSome → d.queue.isSome)) ⟨inv, fun _ => List.not_mem_nil, id⟩ ?_
  rintro tr d call shown d' - ⟨inv, clean, listening⟩ ⟨allowed, fits⟩ st
  obtain ⟨inv', quiet, stays⟩ := inv.step allowed fits st
  refine ⟨by rwa [history_snoc], fun e => ?_, fun listens => stays (listening listens)⟩
  rw [List.map_append, List.mem_append, not_or]
  exact ⟨clean e, fun mem => quiet e (List.mem_singleton.1 mem).symm⟩

end ComputerNetwork.Tcp.Demux
