import ComputerNetwork.Lib.Bytes

/-!
# The mysocket layer

The queues and calls of `mysock.c`, `mysock_api.c` and `stcp_api.c` that lie between an
application, the STCP thread and the network thread of one connection.  Every call runs under
`data_ready_lock` (or touches only the end of a queue that no other thread touches), so each is one
function of the shared context; a call that would block has no result.
-/

namespace ComputerNetwork.Tcp

open Lib

/-! ## Buffer queues -/

/-- `packet_queue_t`: the queued buffers, oldest first. -/
abbrev PacketQueue := List (List UInt8)

/-- `_mysock_enqueue_buffer`. -/
def mysockEnqueueBuffer (pq : PacketQueue) (packet : List UInt8) : PacketQueue := pq ++ [packet]

/-- What `_mysock_dequeue_buffer` leaves behind: the bytes copied to `dst`, the length returned and
the remaining queue. -/
structure Dequeued where
  dst : List UInt8
  packetLen : ℕ
  pq : PacketQueue

/-- `_mysock_dequeue_buffer`: with `removePartial` a buffer that does not fit is split, without it
the head is dropped whole and its full length returned although only `maxLen` bytes were copied. -/
def mysockDequeueBuffer (pq : PacketQueue) (maxLen : ℕ) (removePartial : Bool) : Option Dequeued :=
  match pq with
  | [] => none
  | node :: rest =>
    if maxLen < node.length ∧ removePartial = true then
      some { dst := node.take maxLen, packetLen := maxLen, pq := node.drop maxLen :: rest }
    else
      some { dst := node.take (min maxLen node.length), packetLen := node.length, pq := rest }

/-! ## The context of a mysocket -/

/-- `mysock_context_t`, the fields that connect application, STCP and network threads. -/
structure MysockContext where
  /-- True if we are connecting, false if accepting. -/
  isActive : Bool
  /-- The application is blocked in `myconnect` or `myaccept`. -/
  blocking : Bool
  stcpErrno : ℕ
  closeRequested : Bool
  eof : Bool
  networkRecvQueue : PacketQueue
  appSendQueue : PacketQueue
  appRecvQueue : PacketQueue
  deriving DecidableEq, Repr

/-- `_mysock_allocate_context` followed by `_mysock_transport_init`. -/
def mysockAllocateContext (isActive : Bool) : MysockContext :=
  { isActive, blocking := true, stcpErrno := 0, closeRequested := false, eof := false,
    networkRecvQueue := [], appSendQueue := [], appRecvQueue := [] }

/-- The bit mask returned by `stcp_wait_for_event`. -/
structure Event where
  appData : Bool
  networkData : Bool
  appCloseRequested : Bool
  deriving DecidableEq, Repr

/-- `rc != 0`. -/
def Event.nonzero (ev : Event) : Bool := ev.appData || ev.networkData || ev.appCloseRequested

/-- The mask that one pass through the loop of `stcp_wait_for_event` computes. -/
def pendingEvents (m : MysockContext) : Event :=
  { appData := !m.appRecvQueue.isEmpty
    networkData := !m.networkRecvQueue.isEmpty
    -- the close event is held back until the application's data has all been taken
    appCloseRequested := m.closeRequested && m.appRecvQueue.isEmpty }

theorem pendingEvents_appData {m : MysockContext} :
    (pendingEvents m).appData = true ↔ m.appRecvQueue ≠ [] := by simp [pendingEvents]

theorem pendingEvents_networkData {m : MysockContext} :
    (pendingEvents m).networkData = true ↔ m.networkRecvQueue ≠ [] := by simp [pendingEvents]

theorem pendingEvents_close {m : MysockContext} :
    (pendingEvents m).appCloseRequested = true ↔
      m.closeRequested = true ∧ m.appRecvQueue = [] := by simp [pendingEvents]

/-- `stcp_wait_for_event` with `ANY_EVENT` and no time limit; it blocks while nothing is pending. -/
def stcpWaitForEvent (m : MysockContext) : Option (Event × MysockContext) :=
  let rc := pendingEvents m
  if rc.nonzero then
    some (rc, { m with closeRequested := m.closeRequested && !rc.appCloseRequested })
  else none

/-- `stcp_app_recv`. -/
def stcpAppRecv (m : MysockContext) (maxLen : ℕ) : Option (List UInt8 × MysockContext) :=
  (mysockDequeueBuffer m.appRecvQueue maxLen true).map fun d =>
    (d.dst, { m with appRecvQueue := d.pq })

/-- `stcp_network_recv`: the bytes copied and the packet's full length. -/
def stcpNetworkRecv (m : MysockContext) (maxLen : ℕ) : Option (List UInt8 × ℕ × MysockContext) :=
  (mysockDequeueBuffer m.networkRecvQueue maxLen false).map fun d =>
    (d.dst, d.packetLen, { m with networkRecvQueue := d.pq })

/-- The part of `stcp_app_send` and `stcp_fin_received` that puts a buffer on `app_send_queue`. -/
def enqueueAppSend (m : MysockContext) (buf : List UInt8) : MysockContext :=
  { m with appSendQueue := mysockEnqueueBuffer m.appSendQueue buf }

/-- `EINTR`. -/
def eINTR : ℕ := 4

/-- `ECONNREFUSED`. -/
def eCONNREFUSED : ℕ := 111

/-- `stcp_unblock_application`, given the thread's `errno`. -/
def stcpUnblockApplication (m : MysockContext) (errno : ℕ) : MysockContext :=
  { m with blocking := false, stcpErrno := if errno = eINTR then 0 else errno }

/-! ## The application's calls -/

/-- `mywrite`. -/
def mywrite (m : MysockContext) (buf : List UInt8) : MysockContext :=
  { m with appRecvQueue := mysockEnqueueBuffer m.appRecvQueue buf }

/-- `myclose`, up to the point where it waits for the STCP thread to exit. -/
def myclose (m : MysockContext) : MysockContext := { m with closeRequested := true }

/-- `myread`: the bytes returned; it blocks on an empty queue before the end of file. -/
def myread (m : MysockContext) (bufLen : ℕ) : Option (List UInt8 × MysockContext) :=
  if m.eof then some ([], m)
  else
    (mysockDequeueBuffer m.appSendQueue bufLen true).map fun d =>
      (d.dst, { m with appSendQueue := d.pq, eof := d.packetLen == 0 })

/-! ## What the calls do to the queues -/

theorem stcpWaitForEvent_eq_some {m m' : MysockContext} {ev : Event}
    (h : stcpWaitForEvent m = some (ev, m')) :
    ev = pendingEvents m ∧ ev.nonzero = true ∧
      m' = { m with closeRequested := m.closeRequested && !ev.appCloseRequested } := by
  unfold stcpWaitForEvent at h
  dsimp only at h
  split_ifs at h with hz
  simp only [Option.some.injEq, Prod.mk.injEq] at h
  obtain ⟨rfl, rfl⟩ := h
  exact ⟨rfl, hz, rfl⟩

/-- `stcp_app_recv` splits the head of the queue or takes it whole. -/
theorem stcpAppRecv_cases {m m' : MysockContext} {maxLen : ℕ} {data : List UInt8}
    (h : stcpAppRecv m maxLen = some (data, m')) :
    ∃ node rest pq, m.appRecvQueue = node :: rest ∧ m' = { m with appRecvQueue := pq } ∧
      ((maxLen < node.length ∧ data = node.take maxLen ∧ pq = node.drop maxLen :: rest) ∨
        (node.length ≤ maxLen ∧ data = node ∧ pq = rest)) := by
  unfold stcpAppRecv mysockDequeueBuffer at h
  rcases hq : m.appRecvQueue with _ | ⟨node, rest⟩
  · simp [hq] at h
  · simp only [hq] at h
    split_ifs at h with hp
    · simp only [Option.map_some, Option.some.injEq, Prod.mk.injEq] at h
      obtain ⟨rfl, rfl⟩ := h
      exact ⟨node, rest, _, rfl, rfl, Or.inl ⟨hp.1, rfl, rfl⟩⟩
    · simp only [Option.map_some, Option.some.injEq, Prod.mk.injEq] at h
      obtain ⟨rfl, rfl⟩ := h
      have fits : node.length ≤ maxLen := by
        by_contra hlt
        exact hp ⟨by omega, trivial⟩
      rw [min_eq_right fits, List.take_length]
      exact ⟨node, rest, _, rfl, rfl, Or.inr ⟨fits, rfl, rfl⟩⟩

/-- `stcp_app_recv` takes bytes off the front of the stream of queued bytes. -/
theorem stcpAppRecv_eq_some {m m' : MysockContext} {maxLen : ℕ} {data : List UInt8}
    (h : stcpAppRecv m maxLen = some (data, m')) :
    ∃ pq, m' = { m with appRecvQueue := pq } ∧ data.length ≤ maxLen ∧
      m.appRecvQueue.flatten = data ++ pq.flatten := by
  obtain ⟨node, rest, pq, queue, rfl, ⟨-, rfl, rfl⟩ | ⟨fits, rfl, rfl⟩⟩ := stcpAppRecv_cases h
  · refine ⟨_, rfl, List.length_take_le _ _, ?_⟩
    rw [queue, List.flatten_cons, List.flatten_cons, ← List.append_assoc, List.take_append_drop]
  · exact ⟨_, rfl, fits, by rw [queue, List.flatten_cons]⟩

/-- `stcp_app_recv` takes from the head of the queue only. -/
theorem stcpAppRecv_length {m m' : MysockContext} {maxLen : ℕ} {data : List UInt8}
    (h : stcpAppRecv m maxLen = some (data, m')) :
    data.length = min maxLen (m.appRecvQueue.headD []).length := by
  obtain ⟨node, rest, pq, queue, -, ⟨-, rfl, -⟩ | ⟨fits, rfl, -⟩⟩ := stcpAppRecv_cases h
  · rw [queue, List.length_take, List.headD_cons]
  · rw [queue, List.headD_cons]
    omega

theorem stcpNetworkRecv_eq_some {m m' : MysockContext} {maxLen len : ℕ} {data : List UInt8}
    (h : stcpNetworkRecv m maxLen = some (data, len, m')) :
    ∃ pkt rest, m.networkRecvQueue = pkt :: rest ∧ data = pkt.take maxLen ∧ len = pkt.length ∧
      m' = { m with networkRecvQueue := rest } := by
  unfold stcpNetworkRecv mysockDequeueBuffer at h
  rcases hq : m.networkRecvQueue with _ | ⟨node, rest⟩
  · simp [hq] at h
  · simp only [hq, Bool.false_eq_true, and_false, if_false, Option.map_some, Option.some.injEq,
      Prod.mk.injEq] at h
    obtain ⟨rfl, rfl, rfl⟩ := h
    refine ⟨node, rest, rfl, ?_, rfl, rfl⟩
    cases le_total maxLen node.length with
    | inl hle => rw [min_eq_left hle]
    | inr hle => rw [min_eq_right hle, List.take_length, List.take_of_length_le hle]

theorem stcpNetworkRecv_map_eq_some {α : Type} {m : MysockContext} {maxLen : ℕ}
    {f : List UInt8 × ℕ × MysockContext → α} {r : α} (h : (stcpNetworkRecv m maxLen).map f = some r) :
    ∃ pkt rest, m.networkRecvQueue = pkt :: rest ∧
      f (pkt.take maxLen, pkt.length, { m with networkRecvQueue := rest }) = r := by
  obtain ⟨⟨data, len, m'⟩, received, same⟩ := Option.map_eq_some_iff.1 h
  obtain ⟨pkt, rest, queue, rfl, rfl, rfl⟩ := stcpNetworkRecv_eq_some received
  exact ⟨pkt, rest, queue, same⟩

theorem stcpNetworkRecv_cons {m : MysockContext} {pkt : List UInt8} {rest : PacketQueue}
    (queue : m.networkRecvQueue = pkt :: rest) (maxLen : ℕ) :
    stcpNetworkRecv m maxLen =
      some (pkt.take maxLen, pkt.length, { m with networkRecvQueue := rest }) := by
  simp only [stcpNetworkRecv, mysockDequeueBuffer, queue, Bool.false_eq_true, and_false, if_false,
    Option.map_some, ← List.take_eq_take_min]

end ComputerNetwork.Tcp
