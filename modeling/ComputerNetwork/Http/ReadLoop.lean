import ComputerNetwork.Http.ProxyParse
import ComputerNetwork.Lib.Loop

/-!
# Reading the request

The loop with which `handle_client` reads a request, up to the arguments of `ParsedRequest_parse`.  A
client sends its bytes and closes; `recv` returns as many of them as it likes, zero once the client has
closed or where no room is asked for, and it may fail.  The buffer is not set when the loop begins, and
the search for the end of the head runs on into the memory behind it.

`readsRequest_iff` says when the loop ends and keeps to its buffer: a client that closes early, or a
head that is too long, keeps it going.
-/

namespace ComputerNetwork.Http

open Lib

/-! ## The code -/

/-- `RECV_BUFFER_SIZE`. -/
def recvBufferSize : ℕ := 2048

/-- The bytes that a client sends before it closes, and how the calls of `recv` go: `some n` for one
that takes `n + 1` bytes at most, `none` for one that fails. -/
structure Client where
  stream : List UInt8
  chunks : ℕ → Option ℕ

/-- Where the loop stands. -/
structure Reading where
  buffer : List UInt8
  totalBytesRead : ℕ
  /-- What has not been received yet. -/
  rest : List UInt8
  calls : ℕ

/-- How the loop is left. -/
inductive Received where
  | failed
  /-- The arguments of `ParsedRequest_parse`. -/
  | request (buf : List UInt8) (buflen : ℕ)
  deriving DecidableEq

/-- `recv` with `room` bytes of room. -/
def recv (client : Client) (s : Reading) (room : ℕ) : Option (List UInt8) :=
  (client.chunks s.calls).map fun most => s.rest.take (min (most + 1) room)

/-- Store bytes in an array. -/
def storeAt (b : List UInt8) (i : ℕ) (new : List UInt8) : Except Undefined (List UInt8) :=
  if i + new.length ≤ b.length then .ok (splice b i new) else .error .outOfBounds

/-- One turn of the loop; the bytes `behind` follow the buffer in memory. -/
def readTurn (client : Client) (behind : List UInt8) : Body Reading (Except Undefined Received) :=
  fun s =>
    match recv client s (recvBufferSize - s.totalBytesRead) with
    | some data =>
      match storeAt s.buffer s.totalBytesRead data with
      | .error e => .inr (.error e)
      | .ok buffer =>
        let totalBytesRead := s.totalBytesRead + data.length
        match strstr (buffer ++ behind) 0 (crlf ++ crlf) with
        | .error e => .inr (.error e)
        | .ok none =>
          .inl { buffer, totalBytesRead, rest := s.rest.drop data.length, calls := s.calls + 1 }
        | .ok (some _) =>
          .inr (do return .request (← storeAt buffer totalBytesRead [0]) totalBytesRead)
    | none => .inr (.ok .failed)

/-- Before the first call. -/
def Reading.start (client : Client) (unset : ℕ → UInt8) : Reading where
  buffer := (List.range recvBufferSize).map unset
  totalBytesRead := 0
  rest := client.stream
  calls := 0

/-! ## The condition -/

/-- The loop ends without a store outside the buffer, and what it hands on is a prefix of what the
client sends. -/
def ReadsRequest (client : Client) (unset : ℕ → UInt8) (behind : List UInt8) : Prop :=
  ∃ r, (readTurn client behind).Ends (.start client unset) (.ok r) ∧
    ∀ buf buflen, r = .request buf buflen → buf.take buflen <+: client.stream

/-- How many bytes have come with the first `k` calls. -/
def arrived (client : Client) (k : ℕ) : ℕ :=
  min recvBufferSize (min client.stream.length
    (∑ j ∈ Finset.range k, (client.chunks j).elim 0 (· + 1)))

/-- The buffer after `k` calls. -/
def bufferAfter (client : Client) (unset : ℕ → UInt8) (k : ℕ) : List UInt8 :=
  client.stream.take (arrived client k) ++ ((List.range recvBufferSize).map unset).drop (arrived client k)

/-- The string that begins with the buffer after `k` calls has the property `P`. -/
def TextAfter (P : Text → Prop) (client : Client) (unset : ℕ → UInt8) (behind : List UInt8) (k : ℕ) :
    Prop :=
  ∃ text, cstr (bufferAfter client unset k ++ behind) 0 = .ok text ∧ P text

/-- The first call that fails or brings the end of a head comes, and the head leaves room for a NUL. -/
def HeadArrives (client : Client) (unset : ℕ → UInt8) (behind : List UInt8) : Prop :=
  ∃ k, (∀ j < k, client.chunks j ≠ none ∧
      TextAfter (¬ crlf ++ crlf <:+: ·) client unset behind (j + 1)) ∧
    (client.chunks k = none ∨
      (TextAfter (crlf ++ crlf <:+: ·) client unset behind (k + 1) ∧
        arrived client (k + 1) < recvBufferSize))

/-! ## The states of the loop -/

section States

variable {client : Client} {unset : ℕ → UInt8} {behind : List UInt8} {k : ℕ}

theorem arrived_le (client : Client) (k : ℕ) :
    arrived client k ≤ recvBufferSize ∧ arrived client k ≤ client.stream.length := by
  unfold arrived
  omega

theorem arrived_succ {most : ℕ} (call : client.chunks k = some most) :
    arrived client (k + 1) = arrived client k + ((client.stream.drop (arrived client k)).take
      (min (most + 1) (recvBufferSize - arrived client k))).length := by
  rw [List.length_take, List.length_drop, arrived, arrived, Finset.sum_range_succ, call,
    Option.elim_some]
  omega

theorem length_bufferAfter (client : Client) (unset : ℕ → UInt8) (k : ℕ) :
    (bufferAfter client unset k).length = recvBufferSize := by
  have bound := arrived_le client k
  simp only [bufferAfter, List.length_append, List.length_take, List.length_drop, List.length_map,
    List.length_range]
  omega

/-- The state after `k` calls. -/
def readingAfter (client : Client) (unset : ℕ → UInt8) (k : ℕ) : Reading where
  buffer := bufferAfter client unset k
  totalBytesRead := arrived client k
  rest := client.stream.drop (arrived client k)
  calls := k

theorem readingAfter_zero (client : Client) (unset : ℕ → UInt8) :
    readingAfter client unset 0 = .start client unset := by
  simp [readingAfter, bufferAfter, arrived, Reading.start]

/-- The bytes of a call are put behind those of the calls before. -/
theorem storeAt_bufferAfter {most : ℕ} (call : client.chunks k = some most) :
    storeAt (bufferAfter client unset k) (arrived client k)
        ((client.stream.drop (arrived client k)).take
          (min (most + 1) (recvBufferSize - arrived client k))) =
      .ok (bufferAfter client unset (k + 1)) := by
  have bound := arrived_le client k
  have bound' := arrived_le client (k + 1)
  have more := arrived_succ call
  rw [storeAt, length_bufferAfter, if_pos (by omega), bufferAfter, bufferAfter,
    splice_take_append_drop _ bound.2, ← more]

/-- A turn of the loop leads to the next of these states, or out of the loop. -/
theorem readTurn_readingAfter (k : ℕ) :
    readTurn client behind (readingAfter client unset k) =
      match client.chunks k with
      | none => .inr (.ok .failed)
      | some _ =>
        match cstr (bufferAfter client unset (k + 1) ++ behind) 0 with
        | .error e => .inr (.error e)
        | .ok text =>
          if crlf ++ crlf <:+: text then
            .inr (do return .request (← storeAt (bufferAfter client unset (k + 1))
              (arrived client (k + 1)) [0]) (arrived client (k + 1)))
          else .inl (readingAfter client unset (k + 1)) := by
  cases call : client.chunks k with
  | none => simp [readTurn, recv, readingAfter, call]
  | some most =>
    have more := arrived_succ call
    have rest : (client.stream.drop (arrived client k)).drop
        ((client.stream.drop (arrived client k)).take
          (min (most + 1) (recvBufferSize - arrived client k))).length =
        client.stream.drop (arrived client (k + 1)) := by rw [List.drop_drop, ← more]
    simp only [readTurn, recv, readingAfter, call, Option.map_some, storeAt_bufferAfter call, ← more,
      rest, strstr]
    cases read : cstr (bufferAfter client unset (k + 1) ++ behind) 0 with
    | error e => rfl
    | ok text =>
      by_cases head : crlf ++ crlf <:+: text
      · obtain ⟨i, found⟩ := Option.ne_none_iff_exists'.1 fun none => position_eq_none.1 none head
        simp only [bind, Except.bind, pure, Except.pure, found, Option.map_some, if_pos head]
      · simp only [bind, Except.bind, pure, Except.pure, position_eq_none.2 head, Option.map_none,
          if_neg head]

theorem readTurn_goesOn_iff (k : ℕ) :
    readTurn client behind (readingAfter client unset k) = .inl (readingAfter client unset (k + 1)) ↔
      client.chunks k ≠ none ∧ TextAfter (¬ crlf ++ crlf <:+: ·) client unset behind (k + 1) := by
  rw [readTurn_readingAfter, TextAfter]
  cases call : client.chunks k with
  | none => simp
  | some most =>
    cases read : cstr (bufferAfter client unset (k + 1) ++ behind) 0 with
    | error e => simp
    | ok text =>
      by_cases head : crlf ++ crlf <:+: text
      · simp [head]
      · simp [head]

/-- The string that is handed on is what has come. -/
theorem take_set_bufferAfter {b : List UInt8}
    (stored : storeAt (bufferAfter client unset k) (arrived client k) [0] = .ok b) :
    b.take (arrived client k) <+: client.stream := by
  unfold storeAt at stored
  split_ifs at stored with fits
  obtain rfl := Except.ok.inj stored
  rw [List.length_singleton] at fits
  rw [take_splice le_rfl (by omega), bufferAfter,
    List.take_left' (List.length_take_of_le (arrived_le client k).2)]
  exact List.take_prefix _ _

theorem readTurn_leaves_iff (k : ℕ) :
    (∃ r, readTurn client behind (readingAfter client unset k) = .inr (.ok r) ∧
        ∀ buf buflen, r = .request buf buflen → buf.take buflen <+: client.stream) ↔
      client.chunks k = none ∨ (TextAfter (crlf ++ crlf <:+: ·) client unset behind (k + 1) ∧
        arrived client (k + 1) < recvBufferSize) := by
  rw [readTurn_readingAfter, TextAfter]
  cases call : client.chunks k with
  | none => simp
  | some most =>
    cases read : cstr (bufferAfter client unset (k + 1) ++ behind) 0 with
    | error e => simp
    | ok text =>
      by_cases head : crlf ++ crlf <:+: text
      · cases stored : storeAt (bufferAfter client unset (k + 1)) (arrived client (k + 1)) [0] with
        | error e =>
          simp only [storeAt, length_bufferAfter, List.length_singleton] at stored
          split_ifs at stored with full
          simp [head, bind, Except.bind]
          omega
        | ok b =>
          have handed := take_set_bufferAfter stored
          simp only [storeAt, length_bufferAfter, List.length_singleton] at stored
          split_ifs at stored with room
          simp [head, bind, Except.bind, pure, Except.pure]
          exact iff_of_true handed (by omega)
      · simp [head]

end States

/-- The loop does what it should exactly where the end of a head arrives in time. -/
theorem readsRequest_iff (client : Client) (unset : ℕ → UInt8) (behind : List UInt8) :
    ReadsRequest client unset behind ↔ HeadArrives client unset behind := by
  have next : ∀ k s', readTurn client behind (readingAfter client unset k) = .inl s' →
      s' = readingAfter client unset (k + 1) := by
    intro k s' turn
    rw [readTurn_readingAfter] at turn
    split at turn
    · cases turn
    · split at turn
      · cases turn
      · split_ifs at turn
        exact (Sum.inl.inj turn).symm
  unfold ReadsRequest HeadArrives
  simp only [← readingAfter_zero client unset, Body.ends_iff next, readTurn_goesOn_iff,
    ← readTurn_leaves_iff]
  constructor
  · rintro ⟨r, ⟨k, before, leave⟩, handed⟩
    exact ⟨k, before, r, leave, handed⟩
  · rintro ⟨k, before, r, leave, handed⟩
    exact ⟨r, ⟨k, before, leave⟩, handed⟩

/-- A client that sends `G` and closes. -/
def leavingClient : Client where
  stream := [71]
  chunks := fun _ => some 0

/-- The loop goes on after the client has closed. -/
theorem not_readsRequest_leavingClient : ¬ ReadsRequest leavingClient (fun _ => 0) [] := by
  rw [readsRequest_iff]
  rintro ⟨k, -, none | ⟨⟨text, read, head⟩, -⟩⟩
  · cases none
  · obtain ⟨-, post, whole⟩ := cstr_eq_ok.1 read
    have inside : (13 : UInt8) ∈ bufferAfter leavingClient (fun _ => 0) (k + 1) ++ [] := by
      rw [List.drop_zero] at whole
      rw [whole]
      exact List.mem_append_left _ (head.subset (by decide))
    rw [List.append_nil, bufferAfter] at inside
    cases List.mem_append.1 inside with
    | inl sent => exact absurd (List.mem_of_mem_take sent) (by decide)
    | inr unset => simpa using List.mem_of_mem_drop unset

end ComputerNetwork.Http
