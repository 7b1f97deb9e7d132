import ComputerNetwork.Lib.Run
import ComputerNetwork.Tcp.Transport

/-!
# Demultiplexing connections on a listening mysocket

The listen queue of `connection_demux.c` and the descriptor table of `mysock.c`, for one listening
mysocket.  The slots of `connection_queue` are one allocation, which `_mysock_set_backlog` may move;
an entry of `completed_queue` is a pointer into the allocation that it was made from.  Every call
holds `listen_lock`, so each is one step of `demuxMachine`.

Peer addresses are those `accept` reports on an `AF_INET` socket, all of one length; a zeroed
address is none of them.
-/

namespace ComputerNetwork.Tcp.Demux

open Lib

/-! ## Contexts and descriptors -/

/-- `struct sockaddr_in` of a peer. -/
structure SockaddrIn where
  sinPort : UInt16
  sinAddr : UInt32
  deriving DecidableEq, Repr

/-- `mysock_context_t`, as far as the listen queue and the network layer of a listener use it. -/
structure Context where
  /-- Which allocation this is: descriptors and addresses are used again after `myclose`. -/
  serial : ℕ
  mySd : ℤ
  listenSd : ℤ
  peerAddr : Option SockaddrIn
  /-- The accepted socket, or `none` for the one that `_network_init` opened. -/
  socket : Option ℤ
  connected : Bool
  deriving DecidableEq, Repr

/-- An `assert` that fails, or a load or store through a pointer into memory that is gone. -/
inductive Fault where
  | assertion
  | useAfterFree
  deriving DecidableEq, Repr

/-- `MAX_NUM_CONNECTIONS`, the size of `global_ctx`; the proofs hold for any. -/
def maxNumConnections : ℕ := 64

/-! ## The listen queue -/

/-- `connect_request_t`. -/
structure ConnectRequest where
  peerAddr : Option SockaddrIn
  sd : ℤ
  deriving DecidableEq, Repr

/-- What `INVALIDATE_CONNECT_REQUEST` leaves in a slot. -/
def ConnectRequest.invalid : ConnectRequest := { peerAddr := none, sd := -1 }

/-- The slot holds a pending connection. -/
abbrev ConnectRequest.InUse (r : ConnectRequest) : Prop := r.sd ≠ -1

/-- A `connect_request_t *`: the allocation it points into and the slot there. -/
structure SlotPtr where
  block : ℕ
  index : ℕ
  deriving DecidableEq, Repr

/-- `listen_queue_t`. -/
structure ListenQueue where
  maxLen : ℕ
  curLen : ℕ
  /-- The allocation that `connection_queue` points to. -/
  block : ℕ
  /-- All slots of the allocation; a lowered backlog leaves some at `maxLen` and above. -/
  connectionQueue : List ConnectRequest
  completedQueue : List SlotPtr
  room : maxLen ≤ connectionQueue.length
  deriving DecidableEq

namespace ListenQueue

/-- The slots that the loops over `k < q->max_len` read. -/
def slots (q : ListenQueue) : List ConnectRequest := q.connectionQueue.take q.maxLen

/-- Store to slot `k`. -/
def store (q : ListenQueue) (k : ℕ) (r : ConnectRequest) : ListenQueue where
  maxLen := q.maxLen
  curLen := q.curLen
  block := q.block
  connectionQueue := q.connectionQueue.set k r
  completedQueue := q.completedQueue
  room := by simpa using q.room

/-- Load through a pointer that was made from `connection_queue`. -/
def load (q : ListenQueue) (p : SlotPtr) : Except Fault ConnectRequest :=
  if p.block = q.block then
    match q.connectionQueue[p.index]? with
    | some r => .ok r
    | none => .error .useAfterFree
  else .error .useAfterFree

/-- The queue after `calloc`. -/
def allocated : ListenQueue where
  maxLen := 0
  curLen := 0
  block := 0
  connectionQueue := []
  completedQueue := []
  room := le_rfl

/-- The rest of `_mysock_set_backlog` for `max_len`: where it grows the queue, `realloc` keeps the
slots below the old `max_len` (what it keeps above is cleared at once) and may move them. -/
def resize (q : ListenQueue) (maxLen : ℕ) (moved : Bool) : ListenQueue :=
  if larger : q.maxLen < maxLen then
    { q with
      maxLen
      block := if moved then q.block + 1 else q.block
      connectionQueue := q.slots ++ List.replicate (maxLen - q.maxLen) .invalid
      room := by
        have := q.room
        simp only [slots, List.length_append, List.length_take, List.length_replicate]
        omega }
  else
    { q with
      maxLen
      room := by
        have := q.room
        omega }

end ListenQueue

/-! ## The calls -/

/-- The descriptor table and the listen queue of the listening mysocket. -/
structure State where
  /-- `global_ctx`. -/
  globalCtx : List (Option Context)
  /-- The number of contexts allocated so far. -/
  allocated : ℕ
  /-- `my_sd` of the listening mysocket. -/
  listener : ℤ
  /-- Its entry in `listen_table`. -/
  queue : Option ListenQueue
  deriving DecidableEq

namespace State

/-- `global_ctx[sd]`, null also outside the table. -/
def contextAt (d : State) (sd : ℤ) : Option Context :=
  if 0 ≤ sd then (d.globalCtx[sd.toNat]?).join else none

/-- `_mysock_get_context` with the assertions of `verify_mysocket_descriptor`. -/
def getContext (d : State) (sd : ℤ) : Except Fault Context :=
  match d.contextAt sd with
  | some ctx => if ctx.mySd = sd then .ok ctx else .error .assertion
  | none => .error .assertion

/-- `_get_connection_queue`; the only listening mysocket is `listener`. -/
def getConnectionQueue (d : State) (ctx : Context) : Option ListenQueue :=
  if ctx.mySd = d.listener then d.queue else none

/-- `_mysock_new_mysocket`: the first free descriptor, if there is one. -/
def newMysocket (d : State) : Option (Context × State) :=
  (d.globalCtx.findIdx? Option.isNone).map fun k : ℕ =>
    let ctx : Context :=
      { serial := d.allocated, mySd := k, listenSd := -1, peerAddr := none, socket := none,
        connected := false }
    (ctx, { d with globalCtx := d.globalCtx.set k (some ctx), allocated := d.allocated + 1 })

/-- Store to a context of the table. -/
def setContext (d : State) (ctx : Context) : State :=
  { d with globalCtx := d.globalCtx.set ctx.mySd.toNat (some ctx) }

/-- `_mysock_free_context`, the end of `myclose`. -/
def freeContext (d : State) (sd : ℤ) : State :=
  { d with globalCtx := d.globalCtx.set sd.toNat none }

end State

/-- `_network_update_passive_state`: the new context and the listener's `new_socket`. -/
def networkUpdatePassiveState (newCtx : Context) (newSocket : ℤ) : Context × ℤ :=
  ({ newCtx with socket := some newSocket, connected := true }, -1)

/-- What `_mysock_enqueue_connection` leaves behind. -/
structure Enqueued where
  /-- The new context, when the connection has been queued and `TRUE` is returned. -/
  queued : Option Context
  state : State
  /-- `new_socket` of the listening context. -/
  newSocket : ℤ

/-- `_mysock_enqueue_connection`. -/
def enqueueConnection (d : State) (newSocket : ℤ) (packet : List UInt8) (peerAddr : SockaddrIn) :
    Except Fault Enqueued :=
  let dropped : Enqueued := { queued := none, state := d, newSocket }
  if packet.length < sizeofSTCPHeader ∨ hasFlag packet thSYN = false then
    .ok dropped -- not a connection setup request
  else
    match d.queue with
    | none => .ok dropped
    | some q =>
      if q.slots.any fun r => r.peerAddr = some peerAddr then
        .ok dropped -- retransmission
      else if q.curLen < q.maxLen then
        match q.slots.findIdx? fun r => r.sd < 0 with
        | none => .error .assertion
        | some k =>
          if (q.connectionQueue.getD k .invalid).sd ≠ -1 then .error .assertion
          else
            match d.newMysocket with
            | none => .ok { dropped with state := { d with queue := some (q.store k .invalid) } }
            | some (newCtx, d) =>
              let (newCtx, newSocket) := networkUpdatePassiveState
                { newCtx with listenSd := d.listener, peerAddr := some peerAddr } newSocket
              let q := { q.store k { peerAddr := some peerAddr, sd := newCtx.mySd } with
                curLen := q.curLen + 1 }
              .ok
                { queued := some newCtx
                  state := { d.setContext newCtx with queue := some q }
                  newSocket }
      else .ok dropped -- maximum backlog reached

/-- `_mysock_passive_connection_complete`. -/
def passiveConnectionComplete (d : State) (ctx : Context) : Except Fault State :=
  if ctx.listenSd < 0 then .error .assertion
  else
    match d.getContext ctx.listenSd with
    | .error e => .error e
    | .ok listening =>
      match d.getConnectionQueue listening with
      | none => .ok d
      | some q =>
        match q.slots.findIdx? fun r => r.sd = ctx.mySd with
        | none => .error .assertion
        | some k =>
          .ok { d with
            queue := some { q with completedQueue := q.completedQueue ++ [⟨q.block, k⟩] } }

/-- `_mysock_dequeue_connection` once `completed_queue` has the head `r`. -/
def dequeueHead (d : State) (q : ListenQueue) (r : SlotPtr) (rest : List SlotPtr) :
    Except Fault (Context × State) :=
  match q.load r with
  | .error e => .error e
  | .ok request =>
    match d.getContext request.sd with
    | .error e => .error e
    | .ok newCtx =>
      if 0 < q.curLen then
        .ok (newCtx, { d with
          queue := some { q.store r.index .invalid with
            curLen := q.curLen - 1, completedQueue := rest } })
      else .error .assertion

/-- `_mysock_dequeue_connection`; it blocks while no connection is complete. -/
def dequeueConnection (d : State) : Option (Except Fault (Context × State)) :=
  match d.queue with
  | none => some (.error .assertion)
  | some q =>
    match q.completedQueue with
    | [] => none
    | r :: rest => some (dequeueHead d q r rest)

/-- `_mysock_set_backlog`; `moved` says where `realloc` puts the slots. -/
def setBacklog (d : State) (backlog : UInt32) (moved : Bool) : State :=
  { d with queue := some ((d.queue.getD .allocated).resize (backlog + 1).toNat moved) }

/-! ## The machine -/

/-- The calls on one listening mysocket, and those that take and free other descriptors. -/
inductive Call where
  | setBacklog (backlog : UInt32) (moved : Bool)
  /-- `_mysock_enqueue_connection` for a packet that came over the socket `newSocket`. -/
  | enqueue (newSocket : ℤ) (packet : List UInt8) (peerAddr : SockaddrIn)
  /-- `_mysock_passive_connection_complete` for the context at `sd`. -/
  | complete (sd : ℤ)
  | dequeue
  | mysocket
  | myclose (sd : ℤ)
  deriving DecidableEq

/-- What a call shows; contexts are named by their serial numbers. -/
inductive Shown where
  | done
  | queued (serial : ℕ)
  | refused
  | completed (serial : ℕ)
  | dequeued (serial : ℕ)
  | fault (e : Fault)
  deriving DecidableEq

/-- The result of a call that may fail; the process ends where one does. -/
def outcome (d : State) (result : Except Fault (State × Shown)) : State × Shown :=
  match result with
  | .ok r => r
  | .error e => (d, .fault e)

/-- `_mysock_enqueue_connection` as an observer sees it. -/
def enqueueStep (d : State) (newSocket : ℤ) (packet : List UInt8) (peerAddr : SockaddrIn) :
    Except Fault (State × Shown) :=
  (enqueueConnection d newSocket packet peerAddr).map fun r =>
    (r.state, match r.queued with
      | some ctx => .queued ctx.serial
      | none => .refused)

/-- One call. -/
def step (d : State) : Call → Option (State × Shown)
  | .setBacklog backlog moved => some (setBacklog d backlog moved, .done)
  | .enqueue newSocket packet peerAddr => some (outcome d (enqueueStep d newSocket packet peerAddr))
  | .complete sd => some (outcome d (do
      let ctx ← d.getContext sd
      let d ← passiveConnectionComplete d ctx
      return (d, .completed ctx.serial)))
  | .dequeue => (dequeueConnection d).map fun r =>
      outcome d (r.map fun (ctx, d) => (d, .dequeued ctx.serial))
  | .mysocket => some (match d.newMysocket with
      | some (_, d) => (d, .done)
      | none => (d, .refused))
  | .myclose sd => some (d.freeContext sd, .done)

/-- The listen queue and the descriptor table under any order of calls. -/
def demuxMachine : Machine State Call Shown := { step }

/-! ## Which calls are made -/

/-- The serial numbers that the calls have shown so far. -/
structure History where
  queued : List ℕ
  completed : List ℕ
  dequeued : List ℕ

namespace History

def empty : History := ⟨[], [], []⟩

def add (h : History) : Shown → History
  | .queued n => { h with queued := h.queued ++ [n] }
  | .completed n => { h with completed := h.completed ++ [n] }
  | .dequeued n => { h with dequeued := h.dequeued ++ [n] }
  | _ => h

end History

/-- The history of a trace. -/
def history {A : Type} (tr : List (A × Shown)) : History := (tr.map Prod.snd).foldl .add .empty

/-- The STCP thread of a new mysocket completes its connection once; the application accepts after
it has listened, and closes only descriptors that it has been given, the listening one apart. -/
def Allowed (h : History) (d : State) : Call → Prop
  | .complete sd => ∃ ctx ∈ d.contextAt sd, ctx.serial ∈ h.queued ∧ ctx.serial ∉ h.completed
  | .dequeue => d.queue.isSome
  | .myclose sd => sd ≠ d.listener ∧
      ∃ ctx ∈ d.contextAt sd, ctx.serial ∈ h.queued → ctx.serial ∈ h.dequeued
  | _ => True

instance (h : History) (d : State) (call : Call) : Decidable (Allowed h d call) := by
  cases call <;> unfold Allowed <;> infer_instance

theorem history_snoc {A : Type} (tr : List (A × Shown)) (a : A) (shown : Shown) :
    history (tr ++ [(a, shown)]) = (history tr).add shown := by
  simp only [history, List.map_append, List.map_cons, List.map_nil, List.foldl_append,
    List.foldl_cons, List.foldl_nil]

end ComputerNetwork.Tcp.Demux
