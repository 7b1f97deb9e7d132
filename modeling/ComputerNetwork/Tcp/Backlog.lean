import ComputerNetwork.Tcp.AcceptOrder

/-!
# Listening again

`_mysock_set_backlog` may be called again while connections are pending.  It lowers `max_len` without
looking at the slots above it, and where it raises `max_len` the slots may move while
`completed_queue` points into them.  `queueSound_iff` says when the representation of the listen
queue survives.
-/

namespace ComputerNetwork.Tcp.Demux

open Lib

/-- The representation invariant of a listen queue. -/
structure QueueSound (q : ListenQueue) : Prop where
  curLen : q.curLen = q.connectionQueue.countP (fun r => r.InUse)
  bounded : q.curLen ≤ q.maxLen
  below : ∀ (k : ℕ) r, q.connectionQueue[k]? = some r → r.InUse → k < q.maxLen
  pointers : ∀ p ∈ q.completedQueue,
    p.block = q.block ∧ ∃ r, q.connectionQueue[p.index]? = some r ∧ r.InUse

/-- The representation invariant after every run from `start`, and no assertion that fails in one. -/
def RepresentationKept (start : State) : Prop :=
  ∀ tr d, demuxMachine.Runs (fun tr d call => Allowed (history tr) d call) start tr d →
    (∀ q ∈ d.queue, QueueSound q) ∧ ∀ e, .fault e ∉ tr.map Prod.snd

theorem Kept.sound {h : History} {d : State} {q : ListenQueue} (kept : Kept h d q) : QueueSound q :=
  ⟨kept.curLen, kept.curLen_le, kept.below, kept.pointers⟩

/-- A backlog that does not fit leaves a slot in use above `max_len` or a pointer to memory that
has been given back. -/
theorem backlogFits_of_sound {q : ListenQueue} {maxLen : ℕ} {moved : Bool} (before : QueueSound q)
    (after : QueueSound (q.resize maxLen moved)) : BacklogFits q maxLen moved := by
  by_cases larger : q.maxLen < maxLen
  · refine ⟨forall_drop_iff.2 fun k r get used => (before.below k r get used).trans larger,
      fun _ away => ?_⟩
    rw [away, ListenQueue.resize, dif_pos larger] at after
    by_contra pending
    obtain ⟨p, mem⟩ := List.exists_mem_of_ne_nil _ pending
    have old := (before.pointers p mem).1
    have new := (after.pointers p mem).1
    simp only [if_true] at new
    omega
  · rw [ListenQueue.resize, dif_neg larger] at after
    exact ⟨forall_drop_iff.2 after.below, fun above => absurd above larger⟩

/-- In a run whose changes of the backlog all fit, the queue keeps its representation and no
assertion fails; the next call keeps it so exactly if it fits. -/
theorem queueSound_iff {start d : State} {tr : List (Call × Shown)} (table : Table start)
    (unlistened : start.queue = none)
    (run : demuxMachine.Runs (fun tr d call => Allowed (history tr) d call ∧ Fits d call)
      start tr d) :
    ((∀ q ∈ d.queue, QueueSound q) ∧ ∀ e, .fault e ∉ tr.map Prod.snd) ∧
      ∀ call d' shown, Allowed (history tr) d call → step d call = some (d', shown) →
        ((∀ q ∈ d'.queue, QueueSound q) ∧ (∀ e, shown ≠ .fault e) ↔ Fits d call) := by
  have start_inv : Inv .empty start :=
    ⟨table, fun _ => rfl, fun q mem => by rw [unlistened] at mem; cases mem⟩
  obtain ⟨inv, clean, -⟩ := inv_of_run start_inv run
  have sound : ∀ q ∈ d.queue, QueueSound q := fun q mem => (inv.kept q mem).sound
  refine ⟨⟨sound, clean⟩, fun call d' shown allowed st => ⟨fun after => ?_, fun fits => ?_⟩⟩
  · cases call with
    | setBacklog backlog moved =>
      cases st
      refine backlogFits_of_sound ?_ (after.1 _ rfl)
      rcases queue : d.queue with _ | q
      · exact (Kept.allocated d).sound
      · exact sound q queue
    | _ => trivial
  · obtain ⟨inv', quiet, -⟩ := inv.step allowed fits st
    exact ⟨fun q mem => (inv'.kept q mem).sound, quiet⟩

/-- A connection completes and the backlog grows in place; then the slots move after it has been
accepted. -/
theorem queueSound_iff_grown : ∃ (tr : List (Call × Shown)) (d : State), ((∀ q ∈ d.queue, QueueSound q) ∧
    ∀ e, .fault e ∉ tr.map Prod.snd) ∧
    tr.map Prod.snd = [.done, .queued 1, .completed 1, .done, .dequeued 1, .done, .queued 2] := by
  obtain ⟨tr, d, run, shown⟩ := Machine.Runs.exists_of_exec (M := demuxMachine) (i := bound)
    (C := fun tr d call => decide (Allowed (history tr) d call ∧ Fits d call))
    (P := fun tr _ => tr.map Prod.snd =
      [.done, .queued 1, .completed 1, .done, .dequeued 1, .done, .queued 2])
    [.setBacklog 0 true, .enqueue 5 synPacket ⟨40001, 0x7f000001⟩, .complete 1, .setBacklog 3 false,
      .dequeue, .setBacklog 9 true, .enqueue 6 synPacket ⟨40002, 0x7f000001⟩] (by decide +kernel)
  exact ⟨tr, d, (queueSound_iff table_bound rfl
    (run.mono fun _ _ _ cond => of_decide_eq_true cond)).1, shown⟩

/-- Two pending connections, then a backlog of one: the assertion in
`_mysock_passive_connection_complete` fails for the second. -/
theorem not_representationKept_shrunk : ¬ RepresentationKept bound := by
  intro kept
  obtain ⟨tr, d, run, -, q, mem, less⟩ := Machine.Runs.exists_of_exec (M := demuxMachine) (i := bound)
    (C := fun tr d call => decide (Allowed (history tr) d call))
    (P := fun tr d => tr.map Prod.snd = [.done, .queued 1, .queued 2, .done, .fault .assertion] ∧
      ∃ q ∈ d.queue, q.maxLen < q.curLen)
    [.setBacklog 1 true, .enqueue 5 synPacket ⟨40001, 0x7f000001⟩,
      .enqueue 6 synPacket ⟨40002, 0x7f000001⟩, .setBacklog 0 false, .complete 2]
    (by decide +kernel)
  have sound := (kept tr d (run.mono fun _ _ _ cond => of_decide_eq_true cond)).1 q mem
  exact absurd sound.bounded (not_le.2 less)

end ComputerNetwork.Tcp.Demux
