import ComputerNetwork.Lib.LinkedList
import ComputerNetwork.Lib.Run
import ComputerNetwork.Tcp.Mysock

/-!
# The packet queue in memory

`packet_queue_t` as it is linked in memory, with the pointers `head` and `tail` and the nodes that
`_mysock_enqueue_buffer` allocates and `_mysock_dequeue_buffer` shrinks in place or frees.  `calloc` and
`malloc` are taken to succeed, as the code asserts.  A pointer that leads nowhere, like a failed
assertion, leaves no result.  `queueSound_of_run` says that every
sequence of calls keeps the queue intact and that it does what the list of buffers does for which the
rest of the development takes it.
-/

namespace ComputerNetwork.Tcp

open Lib

/-! ## The code -/

/-- `packet_queue_node_t`, but for `next`: the allocated memory and the length in use. -/
structure PacketQueueNode where
  data : List UInt8
  dataLen : ℕ

/-- The bytes that a node holds. -/
def PacketQueueNode.bytes (node : PacketQueueNode) : List UInt8 := node.data.take node.dataLen

/-- `packet_queue_t`, with the allocated nodes. -/
structure LinkedQueue where
  nodes : Memory PacketQueueNode
  head : Option ℕ
  tail : Option ℕ

/-- `_mysock_enqueue_buffer`, where `calloc` gives the address `node`. -/
def enqueueNode (pq : LinkedQueue) (node : ℕ) (packet : List UInt8) : Option LinkedQueue :=
  let nodes := pq.nodes.insert node ⟨⟨packet, packet.length⟩, none⟩
  match pq.head, pq.tail with
  | none, none => some { nodes, head := some node, tail := some node }
  | some _, some tail =>
    match pq.nodes.lookup tail with
    | some ⟨last, none⟩ => some { pq with nodes := nodes.insert tail ⟨last, some node⟩, tail := some node }
    | _ => none
  | _, _ => none

/-- `_mysock_dequeue_buffer`: the queue, the bytes copied to `dst` and the length returned.  An empty
queue blocks. -/
def dequeueNode (pq : LinkedQueue) (maxLen : ℕ) (removePartial : Bool) :
    Option (LinkedQueue × List UInt8 × ℕ) := do
  let node ← pq.head
  let cell ← pq.nodes.lookup node
  let ⟨data, dataLen⟩ := cell.val
  if maxLen < dataLen ∧ removePartial = true then
    -- memcpy(node->data, node->data + max_len, node->data_len - max_len)
    let data' := splice data 0 ((data.drop maxLen).take (dataLen - maxLen))
    return ({ pq with nodes := pq.nodes.insert node ⟨⟨data', dataLen - maxLen⟩, cell.next⟩ },
      data.take maxLen, maxLen)
  else
    let tail ←
      match cell.next with
      | none => if pq.tail = some node then some none else none
      | some _ => some pq.tail
    return ({ nodes := pq.nodes.erase node, head := cell.next, tail },
      data.take (min maxLen dataLen), dataLen)

inductive QueueCall where
  | enqueue (node : ℕ) (packet : List UInt8)
  | dequeue (maxLen : ℕ) (removePartial : Bool)
  deriving DecidableEq, Repr

/-- One call, and the bytes and the length that a dequeue returns.  What is allocated was free. -/
def queueStep (pq : LinkedQueue) : QueueCall → Option (LinkedQueue × Option (List UInt8 × ℕ))
  | .enqueue node packet =>
    if node ∈ pq.nodes then none else (enqueueNode pq node packet).map fun pq' => (pq', none)
  | .dequeue maxLen removePartial =>
    (dequeueNode pq maxLen removePartial).map fun (pq', dst, packetLen) => (pq', some (dst, packetLen))

/-- All calls on one queue. -/
def queueMachine : Machine LinkedQueue QueueCall (Option (List UInt8 × ℕ)) where
  step := queueStep

/-- The queue of a new context. -/
def noPackets : LinkedQueue := { nodes := ∅, head := none, tail := none }

/-! ## The buffers of a queue -/

/-- The nodes of the queue, from `head` on: `tail` points to the last one. -/
structure Holds (pq : LinkedQueue) (l : List (ℕ × PacketQueueNode)) : Prop where
  segment : Segment pq.nodes pq.head l none
  tail : pq.tail = l.getLast?.map Prod.fst
  fits : ∀ cell ∈ l, cell.2.dataLen ≤ cell.2.data.length

/-- The buffers in the nodes. -/
def buffers (l : List (ℕ × PacketQueueNode)) : PacketQueue := l.map fun cell => cell.2.bytes

section Calls

variable {pq : LinkedQueue} {l : List (ℕ × PacketQueueNode)}

theorem holds_noPackets : Holds noPackets [] := ⟨rfl, rfl, by simp⟩

theorem Holds.head_eq_none (h : Holds pq l) : pq.head = none ↔ l = [] := by
  cases l with
  | nil => exact iff_of_true h.segment rfl
  | cons cell rest => simp [h.segment.1]

theorem Holds.tail_eq_none (h : Holds pq l) : pq.tail = none ↔ l = [] := by
  rw [h.tail, Option.map_eq_none_iff, List.getLast?_eq_none_iff]

theorem enqueueNode_spec (h : Holds pq l) {node : ℕ} (fresh : node ∉ pq.nodes) (packet : List UInt8) :
    ∃ pq', enqueueNode pq node packet = some pq' ∧
      Holds pq' (l ++ [(node, ⟨packet, packet.length⟩)]) := by
  have fits : ∀ cell ∈ l ++ [(node, ⟨packet, packet.length⟩)], cell.2.dataLen ≤ cell.2.data.length := by
    intro cell member
    rcases List.mem_append.1 member with old | new
    · exact h.fits cell old
    · rw [List.mem_singleton.1 new]
  rcases List.eq_nil_or_concat l with rfl | ⟨l, ⟨tail, last⟩, rfl⟩
  · refine ⟨_, by rw [enqueueNode, h.head_eq_none.2 rfl, h.tail_eq_none.2 rfl], ?_, rfl, fits⟩
    exact ⟨rfl, none, AList.lookup_insert _, rfl⟩
  · rw [List.concat_eq_append] at h fits ⊢
    obtain ⟨r, -, rfl, next, found, rfl⟩ := segment_append.1 h.segment
    have first : ∃ head, pq.head = some head :=
      Option.ne_none_iff_exists'.1 fun none => by simpa using h.head_eq_none.1 none
    obtain ⟨head, first⟩ := first
    have atTail : pq.tail = some tail := by simpa using h.tail
    have linked := segment_push_back h.segment fresh ⟨packet, packet.length⟩
    rw [first] at linked
    refine ⟨_, by rw [enqueueNode, first, atTail]; simp only [found]; rfl, ?_, ?_, fits⟩
    · rw [List.append_assoc]
      exact linked
    · simp

theorem bytes_shrink {node : PacketQueueNode} {maxLen : ℕ} (fits : node.dataLen ≤ node.data.length)
    (less : maxLen < node.dataLen) :
    (PacketQueueNode.mk (splice node.data 0 ((node.data.drop maxLen).take (node.dataLen - maxLen)))
      (node.dataLen - maxLen)).bytes = node.bytes.drop maxLen := by
  have size :
      ((node.data.drop maxLen).take (node.dataLen - maxLen)).length = node.dataLen - maxLen := by
    rw [List.length_take, List.length_drop]
    omega
  rw [PacketQueueNode.bytes, PacketQueueNode.bytes, splice, List.take_zero, List.nil_append,
    List.take_left' size, ← List.drop_take]

theorem dequeueNode_partial {a : ℕ} {node : PacketQueueNode} {rest : List (ℕ × PacketQueueNode)}
    (h : Holds pq ((a, node) :: rest)) {maxLen : ℕ} (splits : maxLen < node.dataLen) :
    ∃ pq' l', dequeueNode pq maxLen true = some (pq', node.bytes.take maxLen, maxLen) ∧
      Holds pq' l' ∧ buffers l' = node.bytes.drop maxLen :: buffers rest := by
  obtain ⟨head, next, found, -⟩ := h.segment
  have fits := h.fits (a, node) (List.mem_cons_self ..)
  have front : node.bytes.take maxLen = node.data.take maxLen := by
    rw [PacketQueueNode.bytes, List.take_take, min_eq_left splits.le]
  obtain ⟨shrunk, same⟩ : ∃ shrunk, shrunk = PacketQueueNode.mk (splice node.data 0
      ((node.data.drop maxLen).take (node.dataLen - maxLen))) (node.dataLen - maxLen) := ⟨_, rfl⟩
  have stored := segment_store (l := []) h.segment found shrunk
  refine ⟨{ pq with nodes := pq.nodes.insert a ⟨shrunk, next⟩ }, (a, shrunk) :: rest, ?_,
    ⟨stored, ?_, ?_⟩, ?_⟩
  · rw [front, same]
    simp only [dequeueNode, head, found, Option.bind_eq_bind, Option.bind_some, splits, and_self, if_true,
      Option.pure_def]
  · rw [h.tail]
    cases rest <;> rfl
  · intro cell member
    rcases List.mem_cons.1 member with rfl | old
    · simp only [same, splice, List.take_zero, List.nil_append, List.length_append, List.length_take,
        List.length_drop]
      simp only at fits
      omega
    · exact h.fits cell (List.mem_cons_of_mem _ old)
  · rw [buffers, List.map_cons, same, bytes_shrink fits splits]
    rfl

theorem dequeueNode_whole {a : ℕ} {node : PacketQueueNode} {rest : List (ℕ × PacketQueueNode)}
    (h : Holds pq ((a, node) :: rest)) {maxLen : ℕ} {removePartial : Bool}
    (whole : ¬ (maxLen < node.dataLen ∧ removePartial = true)) :
    ∃ pq', dequeueNode pq maxLen removePartial =
        some (pq', node.bytes.take (min maxLen node.dataLen), node.dataLen) ∧ Holds pq' rest := by
  obtain ⟨head, next, found, behind⟩ := h.segment
  have popped := segment_pop h.segment found
  have front : node.bytes.take (min maxLen node.dataLen) = node.data.take (min maxLen node.dataLen) := by
    rw [PacketQueueNode.bytes, List.take_take, min_eq_left (min_le_right _ _)]
  have fits : ∀ cell ∈ rest, cell.2.dataLen ≤ cell.2.data.length := fun cell member =>
    h.fits cell (List.mem_cons_of_mem _ member)
  cases rest with
  | nil =>
    have last : next = none := behind
    have atTail : pq.tail = some a := h.tail
    subst last
    refine ⟨{ nodes := pq.nodes.erase a, head := none, tail := none }, ?_, popped, rfl, fits⟩
    simp only [dequeueNode, head, found, Option.bind_eq_bind, Option.bind_some, whole, if_false, front,
      Option.pure_def, atTail, if_true]
  | cons cell rest =>
    have more : next = some cell.1 := behind.1
    subst more
    refine ⟨{ pq with nodes := pq.nodes.erase a, head := some cell.1 }, ?_, popped, ?_, fits⟩
    · simp only [dequeueNode, head, found, Option.bind_eq_bind, Option.bind_some, whole, if_false, front,
        Option.pure_def]
    · rw [h.tail, List.getLast?_cons_cons]

/-- A dequeue does what it does to the list of buffers. -/
theorem dequeueNode_spec (h : Holds pq l) {maxLen : ℕ} {removePartial : Bool} {d : Dequeued}
    (result : mysockDequeueBuffer (buffers l) maxLen removePartial = some d) :
    ∃ pq' l', dequeueNode pq maxLen removePartial = some (pq', d.dst, d.packetLen) ∧
      Holds pq' l' ∧ buffers l' = d.pq := by
  cases l with
  | nil => cases result
  | cons cell rest =>
    obtain ⟨a, node⟩ := cell
    have length : node.bytes.length = node.dataLen :=
      List.length_take_of_le (h.fits (a, node) (List.mem_cons_self ..))
    simp only [buffers, List.map_cons, mysockDequeueBuffer, length] at result
    split_ifs at result with splits
    · cases result
      obtain ⟨less, rfl⟩ := splits
      exact dequeueNode_partial h less
    · cases result
      obtain ⟨pq', dequeued, holds⟩ := dequeueNode_whole h splits
      exact ⟨pq', rest, dequeued, holds, rfl⟩

/-- With `remove_partial` a dequeue returns as much of the first buffer as fits. -/
theorem mysockDequeueBuffer_partial (head : List UInt8) (rest : PacketQueue) (maxLen : ℕ) :
    mysockDequeueBuffer (head :: rest) maxLen true =
      some ⟨head.take (min maxLen head.length), min maxLen head.length,
        if maxLen < head.length then head.drop maxLen :: rest else rest⟩ := by
  rw [mysockDequeueBuffer]
  by_cases splits : maxLen < head.length
  · rw [if_pos ⟨splits, rfl⟩, if_pos splits, min_eq_left splits.le]
  · rw [if_neg fun h => splits h.1, if_neg splits, min_eq_right (by omega)]

theorem mysockDequeueBuffer_whole (head : List UInt8) (rest : PacketQueue) (maxLen : ℕ) :
    mysockDequeueBuffer (head :: rest) maxLen false =
      some ⟨head.take (min maxLen head.length), head.length, rest⟩ := by
  rw [mysockDequeueBuffer, if_neg (by simp)]

end Calls

/-! ## Whole runs -/

/-- The buffers put on the queue. -/
def enqueued (tr : List (QueueCall × Option (List UInt8 × ℕ))) : List (List UInt8) :=
  tr.flatMap fun
    | (.enqueue _ packet, _) => [packet]
    | _ => []

/-- The bytes of each dequeue. -/
def dequeued (tr : List (QueueCall × Option (List UInt8 × ℕ))) : List (List UInt8) :=
  tr.flatMap fun
    | (.dequeue _ _, some (dst, _)) => [dst]
    | _ => []

/-- The queue is dequeued with this value of `remove_partial` only. -/
def OnlyDequeues (removePartial : Bool) (tr : List (QueueCall × Option (List UInt8 × ℕ))) : Prop :=
  ∀ maxLen other result, (.dequeue maxLen other, result) ∈ tr → other = removePartial

/-- What is left of a stream of buffers when `out` has been taken off it: the buffers behind some place,
and of the one at that place what is behind `front`.  A buffer is not left empty. -/
def StreamLeft (all : List (List UInt8)) (out : List UInt8) (left : PacketQueue) : Prop :=
  (all.flatten = out ∧ left = []) ∨
    ∃ gone front back rest, all = gone ++ (front ++ back) :: rest ∧ out = gone.flatten ++ front ∧
      left = back :: rest ∧ (front ≠ [] → back ≠ [])

/-- The queue after the calls `tr`, with the nodes `l`. -/
structure QueueSound (tr : List (QueueCall × Option (List UInt8 × ℕ))) (pq : LinkedQueue)
    (l : List (ℕ × PacketQueueNode)) : Prop where
  reached : Segment pq.nodes pq.head l none
  last : pq.tail = l.getLast?.map Prod.fst
  ends : pq.head = none ↔ pq.tail = none
  enqueues : ∀ node packet, node ∉ pq.nodes → ∃ pq' l',
    queueStep pq (.enqueue node packet) = some (pq', none) ∧ Holds pq' l' ∧
      buffers l' = buffers l ++ [packet]
  splits : ∀ maxLen head rest, buffers l = head :: rest → ∃ pq' l',
    queueStep pq (.dequeue maxLen true) =
        some (pq', some (head.take (min maxLen head.length), min maxLen head.length)) ∧
      Holds pq' l' ∧ buffers l' = if maxLen < head.length then head.drop maxLen :: rest else rest
  removes : ∀ maxLen head rest, buffers l = head :: rest → ∃ pq' l',
    queueStep pq (.dequeue maxLen false) =
        some (pq', some (head.take (min maxLen head.length), head.length)) ∧
      Holds pq' l' ∧ buffers l' = rest
  conserved : OnlyDequeues true tr →
    (dequeued tr).flatten ++ (buffers l).flatten = (enqueued tr).flatten
  stream : OnlyDequeues true tr → StreamLeft (enqueued tr) (dequeued tr).flatten (buffers l)
  datagrams : OnlyDequeues false tr → buffers l = (enqueued tr).drop (dequeued tr).length

section Stream

variable {all : List (List UInt8)} {out : List UInt8} {left rest : PacketQueue}

theorem streamLeft_of_gone (gone : List (List UInt8)) (whole : all = gone ++ left)
    (taken : out = gone.flatten) : StreamLeft all out left := by
  cases left with
  | nil => exact Or.inl ⟨by rw [whole, taken, List.append_nil], rfl⟩
  | cons back rest =>
    exact Or.inr ⟨gone, [], back, rest, whole, by rw [taken, List.append_nil], rfl, by simp⟩

theorem StreamLeft.conserved (h : StreamLeft all out left) : out ++ left.flatten = all.flatten := by
  rcases h with ⟨taken, rfl⟩ | ⟨gone, front, back, rest, rfl, rfl, rfl, -⟩
  · rw [taken, List.flatten_nil, List.append_nil]
  · simp

theorem StreamLeft.enqueue (h : StreamLeft all out left) (packet : List UInt8) :
    StreamLeft (all ++ [packet]) out (left ++ [packet]) := by
  rcases h with ⟨taken, rfl⟩ | ⟨gone, front, back, rest, rfl, rfl, rfl, kept⟩
  · exact streamLeft_of_gone all rfl taken.symm
  · exact Or.inr ⟨gone, front, back, rest ++ [packet], by simp, rfl, rfl, kept⟩

theorem StreamLeft.dequeue {head : List UInt8} (h : StreamLeft all out (head :: rest)) (maxLen : ℕ) :
    StreamLeft all (out ++ head.take (min maxLen head.length))
      (if maxLen < head.length then head.drop maxLen :: rest else rest) := by
  rcases h with ⟨-, none⟩ | ⟨gone, front, back, rest', rfl, rfl, same, -⟩
  · cases none
  · obtain ⟨rfl, rfl⟩ := List.cons.inj same
    split_ifs with splits
    · rw [min_eq_left splits.le]
      refine Or.inr ⟨gone, front ++ head.take maxLen, head.drop maxLen, rest, ?_, ?_, rfl, fun _ => ?_⟩
      · rw [List.append_assoc, List.take_append_drop]
      · rw [List.append_assoc]
      · rw [Ne, List.drop_eq_nil_iff]
        omega
    · rw [min_eq_right (by omega), List.take_length]
      exact streamLeft_of_gone (gone ++ [front ++ head]) (by simp) (by simp)

end Stream

section Run

variable {tr : List (QueueCall × Option (List UInt8 × ℕ))} {pq pq' : LinkedQueue}

theorem enqueued_snoc (call : QueueCall) (result : Option (List UInt8 × ℕ)) :
    enqueued (tr ++ [(call, result)]) = enqueued tr ++ enqueued [(call, result)] :=
  List.flatMap_append ..

theorem dequeued_snoc (call : QueueCall) (result : Option (List UInt8 × ℕ)) :
    dequeued (tr ++ [(call, result)]) = dequeued tr ++ dequeued [(call, result)] :=
  List.flatMap_append ..

/-- What every call keeps: the nodes, and what is left of the buffers that have been put on the queue. -/
def Keeps (tr : List (QueueCall × Option (List UInt8 × ℕ))) (pq : LinkedQueue) : Prop :=
  ∃ l, Holds pq l ∧ (OnlyDequeues true tr → StreamLeft (enqueued tr) (dequeued tr).flatten (buffers l)) ∧
    (OnlyDequeues false tr → ∃ gone, enqueued tr = gone ++ buffers l ∧
      gone.length = (dequeued tr).length)

theorem OnlyDequeues.init {removePartial : Bool} {call : QueueCall}
    {result : Option (List UInt8 × ℕ)} (only : OnlyDequeues removePartial (tr ++ [(call, result)])) :
    OnlyDequeues removePartial tr := fun maxLen other result member =>
  only maxLen other result (List.mem_append_left _ member)

theorem OnlyDequeues.last {removePartial other : Bool} {maxLen : ℕ}
    {result : Option (List UInt8 × ℕ)}
    (only : OnlyDequeues removePartial (tr ++ [(.dequeue maxLen other, result)])) :
    other = removePartial :=
  only maxLen other result (List.mem_append_right _ (List.mem_cons_self ..))

theorem Keeps.enqueue (h : Keeps tr pq) {node : ℕ} (packet : List UInt8) (fresh : node ∉ pq.nodes) :
    ∃ pq', enqueueNode pq node packet = some pq' ∧ Keeps (tr ++ [(.enqueue node packet, none)]) pq' := by
  obtain ⟨l, holds, stream, datagrams⟩ := h
  obtain ⟨pq', enqueues, holds'⟩ := enqueueNode_spec holds fresh packet
  have more : buffers (l ++ [(node, ⟨packet, packet.length⟩)]) = buffers l ++ [packet] := by
    simp [buffers, PacketQueueNode.bytes]
  refine ⟨pq', enqueues, _, holds', fun only => ?_, fun only => ?_⟩
  · rw [enqueued_snoc, dequeued_snoc, more, show dequeued [(.enqueue node packet, none)] = [] from rfl,
      List.append_nil]
    exact (stream only.init).enqueue packet
  · obtain ⟨gone, whole, count⟩ := datagrams only.init
    refine ⟨gone, ?_, ?_⟩
    · rw [enqueued_snoc, more, whole, List.append_assoc]
      rfl
    · rw [dequeued_snoc, count]
      exact congrArg List.length (List.append_nil _).symm

theorem Keeps.dequeue (h : Keeps tr pq) {maxLen : ℕ} {removePartial : Bool}
    {result : Option (List UInt8 × ℕ)}
    (st : queueStep pq (.dequeue maxLen removePartial) = some (pq', result)) :
    Keeps (tr ++ [(.dequeue maxLen removePartial, result)]) pq' := by
  obtain ⟨l, holds, stream, datagrams⟩ := h
  rw [queueStep] at st
  rcases content : buffers l with _ | ⟨head, rest⟩
  · have empty : pq.head = none := holds.head_eq_none.2 (List.map_eq_nil_iff.1 content)
    simp [dequeueNode, empty] at st
  · have nothing : enqueued [(.dequeue maxLen removePartial, result)] = [] := rfl
    rw [content] at stream datagrams
    cases removePartial with
    | true =>
      obtain ⟨pq'', l', dequeues, holds', left⟩ := dequeueNode_spec holds
        (content ▸ mysockDequeueBuffer_partial head rest maxLen)
      rw [dequeues] at st
      cases st
      refine ⟨l', holds', fun only => ?_, fun only => absurd only.last (by decide)⟩
      rw [enqueued_snoc, dequeued_snoc, nothing, List.append_nil, left, List.flatten_append]
      have taken := (stream only.init).dequeue maxLen
      rwa [show (dequeued [(.dequeue maxLen true, some (head.take (min maxLen head.length),
        min maxLen head.length))]).flatten = head.take (min maxLen head.length) from
          List.append_nil _]
    | false =>
      obtain ⟨pq'', l', dequeues, holds', left⟩ := dequeueNode_spec holds
        (content ▸ mysockDequeueBuffer_whole head rest maxLen)
      rw [dequeues] at st
      cases st
      refine ⟨l', holds', fun only => absurd only.last (by decide), fun only => ?_⟩
      obtain ⟨gone, whole, count⟩ := datagrams only.init
      refine ⟨gone ++ [head], ?_, ?_⟩
      · rw [enqueued_snoc, nothing, List.append_nil, left, whole, List.append_assoc]
        rfl
      · rw [dequeued_snoc, List.length_append, List.length_append, count]
        rfl

theorem Keeps.step (h : Keeps tr pq) {call : QueueCall} {result : Option (List UInt8 × ℕ)}
    (st : queueStep pq call = some (pq', result)) : Keeps (tr ++ [(call, result)]) pq' := by
  cases call with
  | enqueue node packet =>
    rw [queueStep] at st
    split_ifs at st with used
    obtain ⟨pq'', enqueues, keeps⟩ := h.enqueue packet used
    rw [enqueues] at st
    cases st
    exact keeps
  | dequeue maxLen removePartial => exact h.dequeue st

theorem Keeps.of_run (run : queueMachine.Run noPackets tr pq) : Keeps tr pq := by
  refine run.invariant (I := Keeps) ?_ fun tr pq call result pq' _ h _ st => h.step st
  exact ⟨[], holds_noPackets, fun _ => Or.inl ⟨rfl, rfl⟩, fun _ => ⟨[], rfl, rfl⟩⟩

/-- Every sequence of calls on a queue, dequeues of an empty one apart: the pointers `head` and `tail`
are those of one list of nodes, every further call works on it as on a list of buffers, and no byte is
lost, repeated or moved to another buffer. -/
theorem queueSound_of_run (run : queueMachine.Run noPackets tr pq) : ∃ l, QueueSound tr pq l := by
  obtain ⟨l, holds, stream, datagrams⟩ := Keeps.of_run run
  have dequeues : ∀ {maxLen removePartial d},
      mysockDequeueBuffer (buffers l) maxLen removePartial = some d → ∃ pq' l',
        queueStep pq (.dequeue maxLen removePartial) = some (pq', some (d.dst, d.packetLen)) ∧
          Holds pq' l' ∧ buffers l' = d.pq := by
    intro maxLen removePartial d result
    obtain ⟨pq', l', dequeues, holds', left⟩ := dequeueNode_spec holds result
    exact ⟨pq', l', by rw [queueStep, dequeues]; rfl, holds', left⟩
  refine ⟨l, holds.segment, holds.tail, ?_, ?_, ?_, ?_, ?_, stream, ?_⟩
  · rw [holds.head_eq_none, holds.tail_eq_none]
  · intro node packet fresh
    obtain ⟨pq', enqueues, holds'⟩ := enqueueNode_spec holds fresh packet
    exact ⟨pq', _, by rw [queueStep, if_neg fresh, enqueues]; rfl, holds',
      by simp [buffers, PacketQueueNode.bytes]⟩
  · intro maxLen head rest content
    exact dequeues (content ▸ mysockDequeueBuffer_partial head rest maxLen)
  · intro maxLen head rest content
    exact dequeues (content ▸ mysockDequeueBuffer_whole head rest maxLen)
  · exact fun only => (stream only).conserved
  · intro only
    obtain ⟨gone, whole, count⟩ := datagrams only
    rw [whole, ← count, List.drop_left]

end Run

/-- Two bytes and an empty buffer, of which one byte has been taken. -/
theorem queueSound_of_run_oneByte :
    ∃ pq l, QueueSound [(.enqueue 1 [104, 105], none), (.enqueue 2 [], none),
      (.dequeue 1 true, some ([104], 1))] pq l :=
  ⟨_, queueSound_of_run (.of_exec queueMachine noPackets
    [.enqueue 1 [104, 105], .enqueue 2 [], .dequeue 1 true] rfl)⟩

end ComputerNetwork.Tcp
