import ComputerNetwork.Lib.Rest
import ComputerNetwork.Tcp.Stream
import ComputerNetwork.Tcp.AppReads

/-!
# A connection as two channels

What one direction of a connection is for: the bytes written at one end are read at the other, in
order, in pieces that the layers between choose, and the end of the file stands behind all of them.
`Channel` says this without threads, packets or sequence numbers, with `myread` at its end, and
`read_spec` is all that an application has to know of it.  Each direction of every run of the two
endpoints is a run of a channel (`refines_channel`).
-/

namespace ComputerNetwork.Tcp

open Lib

/-! ## The channel -/

structure Channel where
  /-- The bytes written and not yet handed up. -/
  sent : List UInt8
  /-- The writer has called `myclose`. -/
  closed : Bool
  /-- The reader's mysocket. -/
  sock : MysockContext
  deriving DecidableEq

inductive ChannelAction where
  | write (buf : List UInt8)
  | close
  /-- The next `n` bytes are put on the reader's queue as one buffer. -/
  | handUp (n : ℕ)
  /-- The EOF marker is put on the reader's queue. -/
  | eof
  | read (bufLen : ℕ)
  deriving DecidableEq, Repr

namespace Channel

def init (isActive : Bool) : Channel :=
  { sent := [], closed := false, sock := mysockAllocateContext isActive }

/-- The EOF marker waits for the reader, or the reader has seen it. -/
def Marked (ch : Channel) : Prop := [] ∈ ch.sock.appSendQueue ∨ ch.sock.eof = true

instance (ch : Channel) : Decidable ch.Marked :=
  inferInstanceAs (Decidable ([] ∈ ch.sock.appSendQueue ∨ ch.sock.eof = true))

/-- The channel after a write. -/
def wrote (ch : Channel) (buf : List UInt8) : Channel := { ch with sent := ch.sent ++ buf }

/-- The channel after the writer's `myclose`. -/
def shut (ch : Channel) : Channel := { ch with closed := true }

section Updates

variable (ch : Channel) (buf : List UInt8)

@[simp] theorem wrote_sent : (ch.wrote buf).sent = ch.sent ++ buf := rfl

@[simp] theorem wrote_closed : (ch.wrote buf).closed = ch.closed := rfl

@[simp] theorem wrote_sock : (ch.wrote buf).sock = ch.sock := rfl

@[simp] theorem shut_sent : ch.shut.sent = ch.sent := rfl

@[simp] theorem shut_closed : ch.shut.closed = true := rfl

@[simp] theorem shut_sock : ch.shut.sock = ch.sock := rfl

end Updates

/-- A step and the bytes that a read returns. -/
def step (ch : Channel) : ChannelAction → Option (Channel × List UInt8)
  | .write buf => if ch.closed then none else some (ch.wrote buf, [])
  | .close => if ch.closed then none else some (ch.shut, [])
  | .handUp n =>
      if 0 < n ∧ n ≤ ch.sent.length then
        some ({ ch with sent := ch.sent.drop n, sock := enqueueAppSend ch.sock (ch.sent.take n) }, [])
      else none
  | .eof =>
      if ch.closed = true ∧ ch.sent = [] ∧ ¬ ch.Marked then
        some ({ ch with sock := enqueueAppSend ch.sock [] }, [])
      else none
  | .read bufLen => (myread ch.sock bufLen).map fun (data, sock) => ({ ch with sock }, data)

def machine : Machine Channel ChannelAction (List UInt8) where
  step := step

/-- The bytes written and not yet read. -/
def unread (ch : Channel) : List UInt8 := ch.sock.appSendQueue.flatten ++ ch.sent

/-- Nothing is behind the EOF marker, which comes when the writer has closed and all is handed up. -/
structure Ok (ch : Channel) : Prop where
  last : (beforeMarker ch.sock.appSendQueue).flatten = ch.sock.appSendQueue.flatten
  marked : ch.Marked → ch.closed = true ∧ ch.sent = []
  ended : ch.sock.eof = true → ch.sock.appSendQueue.flatten = []

variable {ch ch' : Channel} {data : List UInt8} {n bufLen : ℕ}

theorem ok_init (isActive : Bool) : (init isActive).Ok :=
  ⟨rfl, by simp [init, Marked, mysockAllocateContext], fun eof => by cases eof⟩

theorem ok_handUp (h : ch.Ok) (pos : 0 < n) (room : n ≤ ch.sent.length) :
    Ok { ch with sent := ch.sent.drop n, sock := enqueueAppSend ch.sock (ch.sent.take n) } := by
  -- something is handed up, so no marker has come yet
  have some_ : ch.sent ≠ [] := by
    rintro none
    rw [none, List.length_nil] at room
    omega
  have unmarked : ¬ ch.Marked := fun marked => some_ (h.marked marked).2
  have fresh : [] ∉ (enqueueAppSend ch.sock (ch.sent.take n)).appSendQueue := by
    intro mem
    rcases List.mem_append.1 mem with old | new
    · exact unmarked (Or.inl old)
    · have empty := (List.mem_singleton.1 new).symm
      rw [List.take_eq_nil_iff] at empty
      rcases empty with zero | none
      · omega
      · exact some_ none
  refine ⟨by rw [beforeMarker_of_open fresh], ?_, fun eof => absurd (Or.inr eof) unmarked⟩
  rintro (mem | eof)
  · exact absurd mem fresh
  · exact absurd (Or.inr eof) unmarked

theorem ok_eof (closed : ch.closed = true) (none : ch.sent = []) (unmarked : ¬ ch.Marked) :
    Ok { ch with sock := enqueueAppSend ch.sock [] } := by
  have open_ : [] ∉ ch.sock.appSendQueue := fun mem => unmarked (Or.inl mem)
  refine ⟨?_, fun _ => ⟨closed, none⟩, fun eof => absurd (Or.inr eof) unmarked⟩
  have front := flatten_beforeMarker_append [] open_
  simpa [enqueueAppSend, mysockEnqueueBuffer] using front

theorem length_myread {m m' : MysockContext} (read : myread m bufLen = some (data, m')) :
    data.length ≤ bufLen := by
  unfold myread at read
  split_ifs at read
  · cases read
    exact Nat.zero_le _
  · obtain ⟨d, dequeued, same⟩ := Option.map_eq_some_iff.1 read
    cases same
    unfold mysockDequeueBuffer at dequeued
    split at dequeued
    · cases dequeued
    · split_ifs at dequeued <;> cases dequeued
      · exact List.length_take_le _ _
      · rw [List.length_take]
        omega

/-- A read of at least one byte returns some of the next bytes, or none at the end of the file. -/
theorem read_spec (h : ch.Ok) (asks : 0 < bufLen) (st : ch.step (.read bufLen) = some (ch', data)) :
    ch'.Ok ∧ ch'.closed = ch.closed ∧ ch'.sent = ch.sent ∧
      ((data ≠ [] ∧ data.length ≤ bufLen ∧ ch.unread = data ++ ch'.unread ∧
          ch'.sock.eof = ch.sock.eof ∧ (ch'.Marked ↔ ch.Marked)) ∨
        (data = [] ∧ ch.closed = true ∧ ch.unread = [] ∧ ch'.unread = [] ∧ ch'.sock.eof = true)) := by
  obtain ⟨⟨data', sock⟩, read, same⟩ := Option.map_eq_some_iff.1 st
  cases same
  by_cases eof : ch.sock.eof = true
  · rw [myread_of_eof eof] at read
    cases read
    obtain ⟨closed, sent⟩ := h.marked (Or.inr eof)
    have none : ch.unread = [] := by rw [unread, h.ended eof, sent, List.append_nil]
    exact ⟨h, rfl, rfl, Or.inr ⟨rfl, closed, none, none, eof⟩⟩
  · have short := length_myread read
    have open_ := Bool.eq_false_iff.2 eof
    have last := h.last
    obtain ⟨node, rest, queue, what⟩ := myread_cases open_ read
    rw [queue] at last
    rcases what with ⟨rfl, rfl, rfl⟩ | ⟨-, zero, -⟩ | ⟨some_, -, more, left, rfl, stream, front, behind⟩
    · -- the marker is taken
      have closed := h.marked (Or.inl (by rw [queue]; exact List.mem_cons_self ..))
      have none : rest.flatten = [] := last.symm
      refine ⟨⟨?_, fun _ => closed, fun _ => none⟩, rfl, rfl, Or.inr ⟨rfl, closed.1, ?_, ?_, rfl⟩⟩
      · show (beforeMarker rest).flatten = rest.flatten
        rw [none, List.flatten_eq_nil_iff]
        intro buf mem
        exact List.flatten_eq_nil_iff.1 none buf ((List.takeWhile_prefix _).subset mem)
      · rw [unread, queue, List.flatten_cons, none, closed.2]
        rfl
      · rw [unread, none, closed.2]
        rfl
    · omega
    · rw [beforeMarker_cons some_, List.flatten_cons, List.flatten_cons,
        List.append_cancel_left_eq] at last
      have same : Marked { ch with sock := { ch.sock with appSendQueue := left } } ↔ ch.Marked := by
        rw [Marked, Marked, queue, List.mem_cons, or_iff_right (Ne.symm some_), behind]
      refine ⟨⟨?_, fun marked => h.marked (same.1 marked), fun ended => absurd ended eof⟩, rfl, rfl,
        Or.inl ⟨more, short, ?_, rfl, same⟩⟩
      · rw [last, ← stream, List.append_cancel_left_eq] at front
        exact front
      · rw [unread, unread, queue, List.flatten_cons, ← stream, List.append_assoc]

theorem step_write (opened : ch.closed = false) (buf : List UInt8) :
    ch.step (.write buf) = some (ch.wrote buf, []) := if_neg (by rw [opened]; nofun)

theorem step_close (opened : ch.closed = false) :
    ch.step .close = some (ch.shut, []) := if_neg (by rw [opened]; nofun)

theorem run_step {a : ChannelAction} (st : ch.step a = some (ch', data)) :
    Channel.machine.Run ch [(a, data)] ch' := Machine.Runs.nil.snoc trivial st

theorem Ok.step {a : ChannelAction} (h : ch.Ok) (asks : a ≠ .read 0)
    (st : ch.step a = some (ch', data)) : ch'.Ok := by
  cases a with
  | write buf | close =>
    simp only [Channel.step] at st
    split_ifs at st with opened
    cases st
    rw [Bool.not_eq_true] at opened
    have unmarked : ¬ ch.Marked := fun marked => by simp [(h.marked marked).1] at opened
    exact ⟨h.last, fun marked => absurd marked unmarked, h.ended⟩
  | handUp n =>
    simp only [Channel.step] at st
    split_ifs at st with room
    cases st
    exact ok_handUp h room.1 room.2
  | eof =>
    simp only [Channel.step] at st
    split_ifs at st with due
    cases st
    exact ok_eof due.1 due.2.1 due.2.2
  | read bufLen =>
    have pos : 0 < bufLen := Nat.pos_of_ne_zero fun zero => asks (by rw [zero])
    exact (read_spec h pos st).1

end Channel

/-! ## Connections -/

/-- The two queues between the STCP thread and a reader differ at most in EOF markers behind the
first one, which no read gets to. -/
def SameReads (extra : ℕ) (m m' : MysockContext) : Prop :=
  m'.eof = m.eof ∧ m'.appSendQueue = m.appSendQueue ++ List.replicate extra [] ∧
    (0 < extra → [] ∈ m.appSendQueue ∨ m.eof = true)

theorem SameReads.read {extra : ℕ} {m m' : MysockContext} (h : SameReads extra m m') (bufLen : ℕ) :
    (∃ data s s', myread m bufLen = some (data, s) ∧ myread m' bufLen = some (data, s') ∧
        SameReads extra s s') ∨
      (myread m bufLen = none ∧ myread m' bufLen = none) := by
  obtain ⟨sameEof, queue, behind⟩ := h
  by_cases eof : m.eof = true
  · have eof' := sameEof.trans eof
    exact Or.inl ⟨[], m, m', myread_of_eof eof _, myread_of_eof eof' _,
      sameEof, queue, behind⟩
  · have eof' : ¬ m'.eof = true := by rwa [sameEof]
    rw [myread, myread, if_neg eof, if_neg eof']
    rcases q : m.appSendQueue with _ | ⟨node, rest⟩
    · -- nothing is waiting on either queue
      have none : extra = 0 := by
        by_contra some_
        rcases behind (Nat.pos_of_ne_zero some_) with mem | ended
        · rw [q] at mem
          cases mem
        · exact eof ended
      rw [queue, q, none]
      exact Or.inr ⟨rfl, rfl⟩
    · rw [q] at behind
      rw [queue, q, List.cons_append, mysockDequeueBuffer, mysockDequeueBuffer]
      by_cases splits : bufLen < node.length
      · have still : ([] ∈ node :: rest ∨ m.eof = true) → [] ∈ node.drop bufLen :: rest := by
          intro marked
          rcases marked.resolve_right eof with _ | ⟨_, mem⟩
          · cases splits
          · exact List.mem_cons_of_mem _ mem
        rw [if_pos ⟨splits, rfl⟩, if_pos ⟨splits, rfl⟩]
        exact Or.inl ⟨_, _, _, rfl, rfl,
          rfl, rfl, fun pos => Or.inl (still (behind pos))⟩
      · have still : ([] ∈ node :: rest ∨ m.eof = true) → [] ∈ rest ∨ (node.length == 0) = true := by
          intro marked
          rcases List.mem_cons.1 (marked.resolve_right eof) with rfl | mem
          · exact Or.inr rfl
          · exact Or.inl mem
        rw [if_neg fun h => splits h.1, if_neg fun h => splits h.1]
        exact Or.inl ⟨_, _, _, rfl, rfl, rfl, rfl, fun pos => still (behind pos)⟩

namespace Connection

/-- What the threads and the network do by themselves. -/
inductive Below where
  | transport (side : Side) (maxLen : ℕ)
  | deliver (side : Side)
  deriving DecidableEq, Repr

def Below.action : Below → ConnectionAction
  | .transport side maxLen => .transport side maxLen
  | .deliver side => .deliver side

/-- What the writer and the reader of one direction do: the applications' calls in a trace. -/
def channelCalls (side : Side) (tr : ConnectionTrace) : List ChannelAction :=
  tr.flatMap fun
    | (.mywrite s buf, _) => if s = side then [.write buf] else []
    | (.myclose s, _) => if s = side then [.close] else []
    | (.myread s bufLen, _) => if s = side.peer then [.read bufLen] else []
    | _ => []

theorem channelCalls_append (side : Side) (tr tr' : ConnectionTrace) :
    channelCalls side (tr ++ tr') = channelCalls side tr ++ channelCalls side tr' :=
  List.flatMap_append

end Connection

/-- The calls in the trace of a channel. -/
def Channel.calls (tr : List (ChannelAction × List UInt8)) : List ChannelAction :=
  tr.flatMap fun
    | (.handUp _, _) | (.eof, _) => []
    | (a, _) => [a]

theorem Channel.calls_append (tr tr' : List (ChannelAction × List UInt8)) :
    Channel.calls (tr ++ tr') = Channel.calls tr ++ Channel.calls tr' := List.flatMap_append

namespace Connection

/-- A channel that stands for the direction from `side` to its peer. -/
structure Stands (side : Side) (tr : ConnectionTrace) (c : Connection) (ch : Channel) : Prop where
  closed : ch.closed = (c.ep side).appClosed
  stream : written side tr = (puts side.peer tr).flatten ++ ch.sent
  reads : ∃ extra, SameReads extra ch.sock (c.ep side.peer).sock ∧
    (0 < extra → ch.closed = true ∧ ch.sent = [])

variable {tr : ConnectionTrace} {c c' : Connection} {side : Side} {ch : Channel} {o : Obs}

/-- The STCP thread puts on the application's queue what the step shows. -/
theorem appSendQueue_transport {e e' : Endpoint} {maxLen : ℕ} {fail : Option ℕ}
    (st : Endpoint.TransportStep e maxLen fail e' o) :
    e'.sock.appSendQueue = e.sock.appSendQueue ++ putBuffers o ∧ e'.sock.eof = e.sock.eof := by
  cases st with
  | @sendData event buffer payload payloadSize pc =>
    unfold Endpoint.sendSegment
    dsimp only
    split_ifs <;> exact ⟨(List.append_nil _).symm, rfl⟩
  | @call event c rest pc =>
    cases c with
    | finReceived => exact ⟨rfl, rfl⟩
    | networkSend pkt => exact ⟨(List.append_nil _).symm, rfl⟩
    | appSend src srcLen =>
      rw [Endpoint.call]
      split_ifs
      · exact ⟨(List.append_nil _).symm, rfl⟩
      · exact ⟨rfl, rfl⟩
      · exact ⟨(List.append_nil _).symm, rfl⟩
  | finalEof => exact ⟨rfl, rfl⟩
  | _ => exact ⟨(List.append_nil _).symm, rfl⟩

/-- A buffer that the STCP thread puts on the queue is one that the channel hands up, or an EOF marker
of which the channel needs only the first. -/
theorem Stands.put (h : Stands side tr c ch) {e : Endpoint} {buf : List UInt8}
    {entry : ConnectionAction × Obs} (same : c'.ep side.peer = e)
    (other : (c'.ep side).appClosed = (c.ep side).appClosed)
    (queue : e.sock.appSendQueue = (c.ep side.peer).sock.appSendQueue ++ [buf])
    (eof : e.sock.eof = (c.ep side.peer).sock.eof) (put : puts side.peer [entry] = [buf])
    (silent : written side [entry] = []) (inv : Inv (tr ++ [entry]) c') :
    ∃ tr' ch', Channel.machine.Run ch tr' ch' ∧ Channel.calls tr' = [] ∧
      Stands side (tr ++ [entry]) c' ch' := by
  obtain ⟨extra, ⟨sameEof, sameQueue, behind⟩, done⟩ := h.reads
  have flow := inv.flow side
  have written_eq : written side (tr ++ [entry]) = written side tr := by
    rw [written_append, silent, List.append_nil]
  have puts_eq : puts side.peer (tr ++ [entry]) = puts side.peer tr ++ [buf] := by
    rw [puts_append, put]
  have stream := flow.stream
  rw [written_eq, puts_eq, h.stream, List.flatten_append, List.flatten_singleton, List.append_assoc,
    List.append_cancel_left_eq] at stream
  by_cases marker : buf = []
  · subst marker
    obtain ⟨got, full⟩ := flow.eof (puts side.peer tr) [] puts_eq
    rw [written_eq, h.stream, List.self_eq_append_right] at full
    have closed : ch.closed = true := by
      obtain ⟨⟨closed, -⟩, -⟩ := (flow.gotFin got).1.idle (inv.ok _) (inv.fit _)
      rw [h.closed, ← other, closed]
    by_cases marked : ch.Marked
    · -- a further marker changes nothing for the reader
      refine ⟨[], ch, .nil, rfl, h.closed.trans other.symm, ?_, extra + 1, ⟨?_, ?_, fun _ => marked⟩,
        fun _ => ⟨closed, full⟩⟩
      · rw [written_eq, puts_eq, h.stream]
        simp
      · rw [same, eof, sameEof]
      · rw [same, queue, sameQueue, List.append_assoc, List.replicate_succ']
    · have fresh : extra = 0 := by
        by_contra some_
        exact marked (behind (Nat.pos_of_ne_zero some_))
      rw [fresh, List.replicate_zero, List.append_nil] at sameQueue
      have st : ch.step .eof = some
          ({ ch with sock := enqueueAppSend ch.sock [] }, []) := if_pos ⟨closed, full, marked⟩
      refine ⟨_, _, Channel.run_step st, rfl, h.closed.trans other.symm, ?_, 0,
        ⟨?_, ?_, nofun⟩, nofun⟩
      · rw [written_eq, puts_eq, h.stream]
        simp
      · rw [same, eof, sameEof]
        rfl
      · rw [same, queue, sameQueue]
        simp [enqueueAppSend, mysockEnqueueBuffer]
  · have fresh : extra = 0 := by
      by_contra some_
      obtain ⟨-, none⟩ := done (Nat.pos_of_ne_zero some_)
      rw [none, eq_comm, List.append_eq_nil_iff] at stream
      exact marker stream.1
    rw [fresh, List.replicate_zero, List.append_nil] at sameQueue
    have room : 0 < buf.length ∧ buf.length ≤ ch.sent.length := by
      refine ⟨List.length_pos_of_ne_nil marker, ?_⟩
      rw [stream, List.length_append]
      omega
    have first : ch.sent.take buf.length = buf := by rw [stream, List.take_left']; rfl
    have whole := List.take_append_drop buf.length ch.sent
    rw [first] at whole
    have st : ch.step (.handUp buf.length) = some ({ ch with
        sent := ch.sent.drop buf.length
        sock := enqueueAppSend ch.sock (ch.sent.take buf.length) }, []) := if_pos room
    refine ⟨_, _, Channel.run_step st, rfl, h.closed.trans other.symm, ?_, 0,
      ⟨?_, ?_, nofun⟩, nofun⟩
    · rw [written_eq, puts_eq, h.stream, List.flatten_append, List.flatten_singleton,
        List.append_assoc, whole]
    · rw [same, eof, sameEof]
      rfl
    · rw [same, queue, sameQueue]
      simp [enqueueAppSend, mysockEnqueueBuffer, first]

theorem Stands.quiet (h : Stands side tr c ch) {entry : ConnectionAction × Obs}
    (closed : (c'.ep side).appClosed = (c.ep side).appClosed)
    (queue : (c'.ep side.peer).sock.appSendQueue = (c.ep side.peer).sock.appSendQueue)
    (eof : (c'.ep side.peer).sock.eof = (c.ep side.peer).sock.eof)
    (silent : written side [entry] = []) (none : puts side.peer [entry] = []) :
    Stands side (tr ++ [entry]) c' ch where
  closed := h.closed.trans closed.symm
  stream := by
    rw [written_append, silent, puts_append, none, List.append_nil, List.append_nil, h.stream]
  reads := by
    obtain ⟨extra, ⟨sameEof, sameQueue, behind⟩, done⟩ := h.reads
    exact ⟨extra, ⟨eof.trans sameEof, queue.trans sameQueue, behind⟩, done⟩

theorem Stands.write (h : Stands side tr c ch) {buf : List UInt8}
    (st : c.step (.mywrite side buf) = some (c', o)) : ch.closed = false ∧
      Stands side (tr ++ [(.mywrite side buf, o)]) c' (ch.wrote buf) := by
  obtain ⟨e, he, rfl⟩ := stepAt_eq_some st
  cases Endpoint.environmentStep_of_eq he (by simp) with
  | mywrite running opened =>
    have open_ : ch.closed = false := h.closed.trans opened
    obtain ⟨extra, same, done⟩ := h.reads
    refine ⟨open_, ?_, ?_, extra, ?_, fun pos => absurd (done pos).1 (by rw [open_]; nofun)⟩
    · simpa using h.closed
    · rw [written_append, puts_append, h.stream]
      simp [written, puts]
    · simpa [side.peer_ne] using same

theorem Stands.close (h : Stands side tr c ch) (st : c.step (.myclose side) = some (c', o)) :
    ch.closed = false ∧ Stands side (tr ++ [(.myclose side, o)]) c' ch.shut := by
  obtain ⟨e, he, rfl⟩ := stepAt_eq_some st
  cases Endpoint.environmentStep_of_eq he (by simp) with
  | myclose running opened =>
    have open_ : ch.closed = false := h.closed.trans opened
    obtain ⟨extra, same, done⟩ := h.reads
    refine ⟨open_, ?_, ?_, extra, ?_, fun pos => absurd (done pos).1 (by rw [open_]; nofun)⟩
    · simp
    · rw [written_append, puts_append, h.stream]
      simp [written, puts]
    · simpa [side.peer_ne] using same

theorem Stands.read (h : Stands side tr c ch) {bufLen : ℕ}
    (st : c.step (.myread side.peer bufLen) = some (c', o)) : ∃ data m sock,
      myread (c.ep side.peer).sock bufLen = some (data, m) ∧
      ch.step (.read bufLen) = some ({ ch with sock }, data) ∧
      Stands side (tr ++ [(.myread side.peer bufLen, o)]) c' { ch with sock } := by
  obtain ⟨e, he, rfl⟩ := stepAt_eq_some st
  obtain ⟨extra, same, done⟩ := h.reads
  simp only [Endpoint.step] at he
  split_ifs at he
  obtain ⟨⟨data', m⟩, read', moved⟩ := Option.map_eq_some_iff.1 he
  cases moved
  rcases same.read bufLen with ⟨data, s, s', read, other, next⟩ | ⟨-, none⟩
  · rw [other] at read'
    cases read'
    refine ⟨data', m, s, other, ?_, ?_, ?_, extra, ?_, done⟩
    · show (myread ch.sock bufLen).map _ = _
      rw [read]
      rfl
    · simpa [side.peer_ne.symm] using h.closed
    · rw [written_append, puts_append, h.stream]
      simp [written, puts]
    · simpa using next
  · rw [none] at read'
    cases read'

/-- What the reader writes, and what the writer reads, is in the other direction. -/
theorem Stands.other (h : Stands side tr c ch) {a : ConnectionAction}
    (other : (∃ buf, a = .mywrite side.peer buf) ∨ a = .myclose side.peer ∨ ∃ n, a = .myread side n)
    (st : c.step a = some (c', o)) :
    channelCalls side [(a, o)] = [] ∧ Stands side (tr ++ [(a, o)]) c' ch := by
  rcases other with ⟨buf, rfl⟩ | rfl | ⟨n, rfl⟩ <;> obtain ⟨e, he, rfl⟩ := stepAt_eq_some st <;>
    cases Endpoint.environmentStep_of_eq he (by simp)
  · refine ⟨by simp [channelCalls, side.peer_ne], h.quiet ?_ ?_ ?_ ?_ rfl⟩
    · simp [side.peer_ne.symm]
    · simp [mywrite]
    · simp [mywrite]
    · simp [written, side.peer_ne]
  · refine ⟨by simp [channelCalls, side.peer_ne], h.quiet ?_ ?_ ?_ rfl rfl⟩
    · simp [side.peer_ne.symm]
    · simp [myclose]
    · simp [myclose]
  · refine ⟨by simp [channelCalls, side.peer_ne.symm], h.quiet ?_ ?_ ?_ rfl rfl⟩
    · simp
    · simp [side.peer_ne]
    · simp [side.peer_ne]

/-- A step of a thread or of the network is a step of the channel, or none. -/
theorem Stands.below (h : Stands side tr c ch) {a : Below} (inv : Inv tr c)
    (st : c.step a.action = some (c', o)) : ∃ tr' ch', Channel.machine.Run ch tr' ch' ∧
      Channel.calls tr' = [] ∧ Stands side (tr ++ [(a.action, o)]) c' ch' := by
  have inv' := inv.step st
  cases a with
  | deliver x =>
    simp only [Below.action, Connection.step] at st
    split at st
    · cases st
    · obtain ⟨⟨e, o'⟩, he, h'⟩ := Option.map_eq_some_iff.1 st
      simp only [Prod.mk.injEq] at h'
      obtain ⟨rfl, rfl⟩ := h'
      cases Endpoint.environmentStep_of_eq he (by simp)
      refine ⟨[], ch, .nil, rfl, h.quiet ?_ ?_ ?_ rfl rfl⟩ <;>
        (rcases side.eq_or_eq_peer x with rfl | rfl <;>
          simp [Side.peer_ne, (Side.peer_ne _).symm])
  | transport x maxLen =>
    have silent : written side [(.transport x maxLen, o)] = [] := rfl
    simp only [Below.action, Connection.step] at st
    split_ifs at st
    obtain ⟨e, he, rfl⟩ := stepAt_eq_some st
    have moved := Endpoint.transportStep_of_eq he
    rcases side.eq_or_eq_peer x with rfl | rfl
    · refine ⟨[], ch, .nil, rfl, h.quiet ?_ ?_ ?_ silent ?_⟩
      · simpa using moved.appClosed
      · simp [x.peer_ne]
      · simp [x.peer_ne]
      · simp [puts, Below.action, x.peer_ne.symm]
    · obtain ⟨queue, eof⟩ := appSendQueue_transport moved
      have closed : (Function.update c.ep side.peer e side).appClosed = (c.ep side).appClosed := by
        rw [Function.update_of_ne side.peer_ne.symm]
      cases shown : putBuffers o with
      | nil =>
        rw [shown, List.append_nil] at queue
        refine ⟨[], ch, .nil, rfl, h.quiet closed ?_ ?_ silent ?_⟩
        · simpa using queue
        · simpa using eof
        · simp [puts, Below.action, shown]
      | cons buf more =>
        obtain rfl : more = [] := by
          cases o <;> simp [putBuffers] at shown
          exact shown.2
        rw [shown] at queue
        exact h.put (e := e) (by simp) closed queue eof (by simp [puts, Below.action, shown])
          silent inv'

/-- Every step of the connection is a step of the channel, or none. -/
theorem Stands.step (h : Stands side tr c ch) {a : ConnectionAction} (inv : Inv tr c)
    (st : c.step a = some (c', o)) : ∃ tr' ch', Channel.machine.Run ch tr' ch' ∧
      Channel.calls tr' = channelCalls side [(a, o)] ∧ Stands side (tr ++ [(a, o)]) c' ch' := by
  cases a with
  | transport x maxLen => exact h.below (a := .transport x maxLen) inv st
  | deliver x => exact h.below (a := .deliver x) inv st
  | mywrite x buf =>
    rcases side.eq_or_eq_peer x with rfl | rfl
    · obtain ⟨opened, stands⟩ := h.write st
      exact ⟨_, _, Channel.run_step (Channel.step_write opened buf),
        by simp [Channel.calls, channelCalls], stands⟩
    · obtain ⟨calls, stands⟩ := h.other (Or.inl ⟨buf, rfl⟩) st
      exact ⟨[], ch, .nil, calls.symm, stands⟩
  | myclose x =>
    rcases side.eq_or_eq_peer x with rfl | rfl
    · obtain ⟨opened, stands⟩ := h.close st
      exact ⟨_, _, Channel.run_step (Channel.step_close opened),
        by simp [Channel.calls, channelCalls], stands⟩
    · obtain ⟨calls, stands⟩ := h.other (Or.inr (Or.inl rfl)) st
      exact ⟨[], ch, .nil, calls.symm, stands⟩
  | myread x bufLen =>
    rcases side.eq_or_eq_peer x with rfl | rfl
    · obtain ⟨calls, stands⟩ := h.other (Or.inr (Or.inr ⟨bufLen, rfl⟩)) st
      exact ⟨[], ch, .nil, calls.symm, stands⟩
    · obtain ⟨data, m, sock, -, read, stands⟩ := h.read st
      exact ⟨_, _, Channel.run_step read, by simp [Channel.calls, channelCalls], stands⟩

variable {rActive rPassive : ℕ}

theorem stands_init (side : Side) : Stands side [] (init rActive rPassive)
    (Channel.init (decide (side = .passive))) := by
  cases side <;> exact ⟨rfl, rfl, 0, ⟨rfl, rfl, nofun⟩, nofun⟩

/-- Each direction of a connection is a channel: for every run there is one of the channel in which
the writer and the reader make the same calls, and every read would return the same bytes next. -/
theorem refines_channel (run : machine.Run (init rActive rPassive) tr c) (side : Side) :
    ∃ tr' ch, Channel.machine.Run (Channel.init (decide (side = .passive))) tr' ch ∧
      Channel.calls tr' = channelCalls side tr ∧ ch.closed = (c.ep side).appClosed ∧
      ∀ bufLen, (myread ch.sock bufLen).map Prod.fst =
        (myread (c.ep side.peer).sock bufLen).map Prod.fst := by
  have stands : ∃ tr' ch, Channel.machine.Run (Channel.init (decide (side = .passive))) tr' ch ∧
      Channel.calls tr' = channelCalls side tr ∧ Stands side tr c ch := by
    refine run.invariant (I := fun tr c => ∃ tr' ch, Channel.machine.Run _ tr' ch ∧
      Channel.calls tr' = channelCalls side tr ∧ Stands side tr c ch)
      ⟨[], _, .nil, rfl, stands_init side⟩ ?_
    rintro tr c a o c' before ⟨tr', ch, ran, calls, stands⟩ - st
    obtain ⟨more, ch', ran', calls', stands'⟩ := stands.step (inv_of_run before) st
    refine ⟨tr' ++ more, ch', ran.append ran', ?_, stands'⟩
    rw [Channel.calls_append, calls, calls', channelCalls_append]
  obtain ⟨tr', ch, ran, calls, stands⟩ := stands
  obtain ⟨extra, same, -⟩ := stands.reads
  refine ⟨tr', ch, ran, calls, stands.closed, fun bufLen => ?_⟩
  rcases same.read bufLen with ⟨data, s, s', read, read', -⟩ | ⟨none, none'⟩
  · rw [read, read']
    rfl
  · rw [none, none']

/-- The passive side has read one of two bytes; the channel has the other one for it. -/
theorem refines_channel_oneByte : ∃ tr c, machine.Run (init 7 9) tr c ∧
    ∃ tr' ch, Channel.machine.Run (Channel.init false) tr' ch ∧
      Channel.calls tr' = [.write [104, 105], .read 1] ∧
      (myread ch.sock 5).map Prod.fst = some [105] := by
  obtain ⟨tr, c, run, calls, next⟩ := Machine.Runs.exists_of_exec (M := machine)
    (C := fun _ _ _ => true) (i := init 7 9)
    (P := fun tr c => channelCalls .active tr = [.write [104, 105], .read 1] ∧
      (myread (c.ep .passive).sock 5).map Prod.fst = some [105])
    [.transport .active 1, .deliver .passive, .transport .passive 1, .transport .passive 1,
      .deliver .active, .transport .active 1, .transport .active 1, .transport .active 1,
      .deliver .passive, .transport .passive 1, .transport .passive 1, .mywrite .active [104, 105],
      .transport .active 9, .transport .active 9, .transport .active 9, .deliver .passive,
      .transport .passive 1, .transport .passive 1, .transport .passive 1, .myread .passive 1]
    (by decide +kernel)
  have run : machine.Run (init 7 9) tr c := run.mono fun _ _ _ _ => trivial
  obtain ⟨tr', ch, ran, calls', -, reads⟩ := refines_channel run .active
  exact ⟨tr, c, run, tr', ch, ran, calls'.trans calls, (reads 5).trans next⟩

end Connection

end ComputerNetwork.Tcp
