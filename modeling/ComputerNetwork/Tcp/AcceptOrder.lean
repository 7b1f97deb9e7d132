import ComputerNetwork.Tcp.ListenQueue

/-!
# The order of accepted connections

On a listening mysocket whose backlog has been set once, `acceptOrder`: whatever packets come in and
in whatever order the new mysockets complete, `_mysock_dequeue_connection` returns the completed
connections, each once and in the order of their completion.
-/

namespace ComputerNetwork.Tcp.Demux

open Lib

/-- The calls other than `_mysock_set_backlog`. -/
def KeepsBacklog : Call → Prop
  | .setBacklog _ _ => False
  | _ => True

instance : DecidablePred KeepsBacklog
  | .setBacklog _ _ => .isFalse id
  | .enqueue _ _ _ | .complete _ | .dequeue | .mysocket | .myclose _ => .isTrue trivial

/-- What a run leaves that has kept the order of the completed connections. -/
structure InOrder (tr : List (Call × Shown)) (d : State) : Prop where
  noFault : ∀ e, .fault e ∉ tr.map Prod.snd
  once : (history tr).completed.Nodup
  returned : (history tr).dequeued <+: (history tr).completed
  /-- A call of `_mysock_dequeue_connection` returns the next one. -/
  next : ∀ n rest, (history tr).completed = (history tr).dequeued ++ n :: rest →
    ∃ d', step d .dequeue = some (d', .dequeued n)
  /-- It blocks when all have been returned. -/
  blocks : (history tr).completed = (history tr).dequeued → step d .dequeue = none
  peers : ∀ q ∈ d.queue,
    DistinctOn ConnectRequest.InUse ConnectRequest.peerAddr q.connectionQueue
  sds : ∀ q ∈ d.queue, DistinctOn ConnectRequest.InUse ConnectRequest.sd q.connectionQueue
  /-- A packet that is refused changes nothing. -/
  refused : ∀ newSocket packet peerAddr d',
    step d (.enqueue newSocket packet peerAddr) = some (d', .refused) → d' = d

theorem fits_of_keepsBacklog {d : State} {call : Call} (keeps : KeepsBacklog call) :
    Fits d call := by
  cases call with
  | setBacklog => exact keeps.elim
  | _ => trivial

theorem inv_listen {start : State} (table : Table start) (unlistened : start.queue = none)
    (backlog : UInt32) (moved : Bool) : Inv .empty (setBacklog start backlog moved) := by
  refine .of_kept (table.setQueue _) rfl (Kept.setQueue (Kept.resize ?_ ?_) _)
  · rw [unlistened]
    exact .allocated start
  · rw [unlistened]
    exact ⟨fun r mem => by simp [ListenQueue.allocated] at mem, fun _ _ => rfl⟩

/-- What `_mysock_enqueue_connection` refuses it leaves alone. -/
theorem enqueue_refused {h : History} {d d' : State} {q : ListenQueue} (kept : Kept h d q)
    (table : Table d) (queue : d.queue = some q) {newSocket : ℤ} {packet : List UInt8}
    {peerAddr : SockaddrIn}
    (st : step d (.enqueue newSocket packet peerAddr) = some (d', .refused)) : d' = d := by
  simp only [step, Option.some.injEq, enqueueStep] at st
  by_cases accept : Acceptable d q packet peerAddr
  · obtain ⟨ctx, d₁, q₁, eq, -⟩ := kept.enqueue_queued table queue accept newSocket
    rw [eq] at st
    cases st
  · rw [kept.enqueue_dropped queue accept] at st
    cases st
    rfl

/-- `_mysock_dequeue_connection` returns the connection that completed first of those left. -/
theorem dequeue_next {h : History} {d : State} {q : ListenQueue} (kept : Kept h d q)
    (table : Table d) (queue : d.queue = some q) {n : ℕ} {rest : List ℕ}
    (left : h.completed = h.dequeued ++ n :: rest) :
    ∃ d', step d .dequeue = some (d', .dequeued n) := by
  have order : some n :: rest.map some = waiting d q := by
    have := kept.order
    rw [left, List.map_append] at this
    exact List.append_cancel_left this
  rcases head : q.completedQueue with _ | ⟨p, others⟩
  · rw [waiting, head] at order
    cases order
  · obtain ⟨ctx, q', eq, kept'⟩ := kept.dequeue table head
    have same : ctx.serial = n := by
      have order' := kept'.order
      change h.completed.map some = (h.dequeued ++ [ctx.serial]).map some ++ _ at order'
      rw [left, List.map_append, List.map_append, List.append_assoc] at order'
      exact (Option.some.inj (List.cons.inj (List.append_cancel_left order')).1).symm
    refine ⟨{ d with queue := some q' }, ?_⟩
    simp only [step, dequeueConnection, queue, head, Option.map_some, eq]
    rw [← same]
    rfl

theorem dequeue_blocks {h : History} {d : State} {q : ListenQueue} (kept : Kept h d q)
    (queue : d.queue = some q) (none : h.completed = h.dequeued) : step d .dequeue = .none := by
  have order := kept.order
  rw [none] at order
  have empty : q.completedQueue = [] := by
    rw [← List.map_eq_nil_iff]
    exact (List.append_right_eq_self.1 order.symm)
  simp only [step, dequeueConnection, queue, empty, Option.map_none]

/-- Connections are returned in the order in which they complete, whatever the interleaving. -/
theorem acceptOrder {start d : State} {tr : List (Call × Shown)} {backlog : UInt32} {moved : Bool}
    (table : Table start) (unlistened : start.queue = none)
    (run : demuxMachine.Runs (fun tr d call => Allowed (history tr) d call ∧ KeepsBacklog call)
      (setBacklog start backlog moved) tr d) : InOrder tr d := by
  obtain ⟨inv, clean, stays⟩ := inv_of_run (inv_listen table unlistened backlog moved)
    (run.mono fun _ _ _ cond => ⟨cond.1, fits_of_keepsBacklog cond.2⟩)
  have listening : d.queue.isSome := stays rfl
  obtain ⟨q, queue⟩ := Option.isSome_iff_exists.1 listening
  have kept := inv.kept q queue
  refine ⟨clean, kept.nodup, ?_, fun n rest left => dequeue_next kept inv.table queue left,
    dequeue_blocks kept queue, fun q mem => (inv.kept q mem).peers, fun q mem => (inv.kept q mem).sds,
    fun _ _ _ _ st => enqueue_refused kept inv.table queue st⟩
  have front : (history tr).dequeued.map some <+: (history tr).completed.map some := by
    rw [kept.order]
    exact List.prefix_append ..
  exact (List.prefix_map_iff_of_injective (Option.some_injective _)).1 front

/-- A process whose only mysocket is bound and about to listen. -/
def bound : State where
  globalCtx := some ⟨0, 0, -1, none, none, false⟩ :: List.replicate (maxNumConnections - 1) none
  allocated := 1
  listener := 0
  queue := none

theorem table_bound : Table bound := by
  have only : ∀ sd ctx, bound.contextAt sd = some ctx →
      sd = 0 ∧ ctx = ⟨0, 0, -1, none, none, false⟩ := by
    intro sd ctx get
    unfold State.contextAt bound at get
    split_ifs at get with low
    rcases first : sd.toNat with _ | k
    · rw [first] at get
      cases get
      exact ⟨by omega, rfl⟩
    · rw [first, List.getElem?_cons_succ, List.getElem?_replicate] at get
      split_ifs at get <;> cases get
  refine ⟨fun sd ctx get => ?_, fun sd ctx get => ?_, fun sd sd' ctx ctx' get get' _ => ?_, rfl⟩
  · obtain ⟨rfl, rfl⟩ := only sd ctx get
    rfl
  · obtain ⟨rfl, rfl⟩ := only sd ctx get
    decide
  · rw [(only sd ctx get).1, (only sd' ctx' get').1]

/-- A SYN of twenty bytes. -/
def synPacket : List UInt8 := ({ thSeq := 7, thOff := 5, thFlags := thSYN } : STCPHeader).bytes

/-- With a backlog of two slots: the second peer's connection completes first, its descriptor is
closed and taken by a third peer, and a retransmission is refused. -/
theorem acceptOrder_recycled : ∃ tr d, InOrder tr d ∧
    tr.map Prod.snd = [.queued 1, .queued 2, .refused, .completed 2, .completed 1, .dequeued 2, .done,
      .queued 3, .dequeued 1] := by
  let peer (port : UInt16) : SockaddrIn := ⟨port, 0x7f000001⟩
  obtain ⟨tr, d, run, shown⟩ := Machine.Runs.exists_of_exec (M := demuxMachine)
    (i := setBacklog bound 1 true)
    (C := fun tr d call => decide (Allowed (history tr) d call ∧ KeepsBacklog call))
    (P := fun tr _ => tr.map Prod.snd = [.queued 1, .queued 2, .refused, .completed 2, .completed 1,
      .dequeued 2, .done, .queued 3, .dequeued 1])
    [.enqueue 5 synPacket (peer 40001), .enqueue 6 synPacket (peer 40002),
      .enqueue 7 synPacket (peer 40001), .complete 2, .complete 1, .dequeue, .myclose 2,
      .enqueue 8 synPacket (peer 40003), .dequeue] (by decide +kernel)
  exact ⟨tr, d, acceptOrder table_bound rfl (run.mono fun _ _ _ cond => of_decide_eq_true cond),
    shown⟩

end ComputerNetwork.Tcp.Demux
