import ComputerNetwork.Tcp.Invariant

/-!
# The sliding window

`SendWindow` is what an observer of one endpoint knows about its sending side: how many of the data
bytes it has sent are not yet acknowledged, and the window its peer last advertised.  The control
loop keeps no such account; it asks `stcp_app_recv` for `current_sender_window` bytes, a local it
never assigns, and sends all it gets.  `windowKept` is the test the loop would have to make before
each of these calls, and `unacked_le_window` says that the window is respected along every run whose
steps pass it.
-/

namespace ComputerNetwork.Tcp

open Lib Endpoint

/-! ## The account an observer keeps -/

structure SendWindow where
  /-- The sequence number after the last data byte sent. -/
  next : UInt32
  /-- Data bytes sent and not yet acknowledged. -/
  unacked : ℕ
  finSent : Bool
  /-- The last `th_win` received. -/
  window : ℕ
  deriving DecidableEq, Repr

namespace SendWindow

def init : SendWindow := { next := 0, unacked := 0, finSent := false, window := 0 }

/-- What remains unacknowledged after a cumulative acknowledgement up to `ack`; one that lies
outside the bytes in flight changes nothing, one that covers the FIN covers all data. -/
def unackedAfter (g : SendWindow) (ack : UInt32) : ℕ :=
  if (g.next - ack).toNat ≤ g.unacked then (g.next - ack).toNat
  else if g.finSent ∧ ack = g.next + 1 then 0
  else g.unacked

/-- What remains unacknowledged after a received packet. -/
def unackedAfterPacket (g : SendWindow) (pkt : List UInt8) : ℕ :=
  if hasFlag pkt thACK then g.unackedAfter (thAck pkt) else g.unacked

def observe (g : SendWindow) : Obs → SendWindow
  | .send pkt true =>
      { g with next := if pkt.drop 20 = [] then g.next
                 else thSeq pkt + UInt32.ofNat (pkt.drop 20).length
               unacked := g.unacked + (pkt.drop 20).length
               finSent := g.finSent || hasFlag pkt thFIN }
  | .recv data _ => { g with unacked := g.unackedAfterPacket data, window := (thWin data).toNat }
  | _ => g

theorem unackedAfterPacket_le (g : SendWindow) (pkt : List UInt8) :
    g.unackedAfterPacket pkt ≤ g.unacked := by
  unfold unackedAfterPacket unackedAfter
  split_ifs <;> omega

end SendWindow

/-- The account after a trace. -/
def sendWindow (tr : List (Action × Obs)) : SendWindow :=
  tr.foldl (fun g entry => g.observe entry.2) .init

@[simp] theorem sendWindow_snoc (tr : List (Action × Obs)) (a : Action) (o : Obs) :
    sendWindow (tr ++ [(a, o)]) = (sendWindow tr).observe o := by
  simp [sendWindow]

/-! ## The test the code does not make -/

/-- The bytes the next `stcp_app_recv` takes when asked for `maxLen`. -/
def nextTaken (e : Endpoint) (maxLen : ℕ) : ℕ := min maxLen (e.sock.appRecvQueue.headD []).length

/-- A step that keeps to the window: `stcp_app_recv` is asked for no more than its buffer holds and
takes no more than the window leaves room for, the segments it takes apart are sent, and the peer
does not withdraw room for bytes already in flight. -/
def windowKept (tr : List (Action × Obs)) (e : Endpoint) : Action → Bool
  | .transport maxLen fail =>
    match e.pc with
    | .appRecv _ => decide (maxLen ≤ senderWindow ∧ (sendWindow tr).unacked + nextTaken e maxLen ≤
        min senderWindow (sendWindow tr).window)
    | .sendData _ _ _ _ => fail.isNone
    | .recvSynAck | .recvSyn | .recvAck | .networkRecv _ =>
        decide ((sendWindow tr).unackedAfterPacket (e.sock.networkRecvQueue.headD []) ≤
          (thWin (e.sock.networkRecvQueue.headD [])).toNat)
    | _ => true
  | _ => true

/-! ## Runs that pass the test -/

/-- The window has room for what is in flight and for what the segmentation loop still holds. -/
def InWindow (tr : List (Action × Obs)) (e : Endpoint) : Prop :=
  (sendWindow tr).unacked + unsentSize e.pc ≤ min senderWindow (sendWindow tr).window

section Step

variable {tr : List (Action × Obs)} {e e' : Endpoint} {maxLen : ℕ} {fail : Option ℕ} {o : Obs}

theorem InWindow.idle (h : InWindow tr e) (a : Action) (still : (sendWindow tr).observe o =
      { sendWindow tr with finSent := ((sendWindow tr).observe o).finSent })
    (work : unsentSize e'.pc = 0) : InWindow (tr ++ [(a, o)]) e' := by
  unfold InWindow at h ⊢
  rw [sendWindow_snoc, still, work]
  exact (Nat.add_le_add_left (Nat.zero_le _) _).trans h

theorem observe_send_header (g : SendWindow) (h : STCPHeader) (ok : Bool) :
    g.observe (.send h.bytes ok) = { g with finSent := (g.observe (.send h.bytes ok)).finSent } := by
  have bare : h.bytes.drop 20 = [] := by rw [List.drop_eq_nil_iff, STCPHeader.length_bytes]
  cases ok
  · rfl
  · simp only [SendWindow.observe, bare, if_true, List.length_nil, Nat.add_zero]

/-- A received packet, seen through its first `n` bytes. -/
theorem InWindow.receive (h : InWindow tr e) {pkt : List UInt8} {rest : List (List UInt8)} {n : ℕ}
    (room : 20 ≤ n) (a : Action) (len : ℕ) (queue : e.sock.networkRecvQueue = pkt :: rest)
    (cond : (sendWindow tr).unackedAfterPacket (e.sock.networkRecvQueue.headD []) ≤
      (thWin (e.sock.networkRecvQueue.headD [])).toNat)
    (work : unsentSize e'.pc = 0) : InWindow (tr ++ [(a, .recv (pkt.take n) len)]) e' := by
  have seen : (sendWindow tr).unackedAfterPacket (pkt.take n) =
      (sendWindow tr).unackedAfterPacket pkt := by
    rw [SendWindow.unackedAfterPacket, SendWindow.unackedAfterPacket, hasFlag_take pkt room,
      thAck_take pkt room]
  rw [queue, List.headD_cons] at cond
  have less := (sendWindow tr).unackedAfterPacket_le pkt
  unfold InWindow at h ⊢
  rw [sendWindow_snoc, SendWindow.observe, seen, thWin_take pkt room, work]
  dsimp only
  omega

theorem InWindow.transport (h : InWindow tr e) (replies : e.RepliesAck)
    (cond : windowKept tr e (.transport maxLen fail) = true)
    (st : TransportStep e maxLen fail e' o) : InWindow (tr ++ [(.transport maxLen fail, o)]) e' := by
  unfold windowKept at cond
  cases st with
  | sendSyn | sendAck | sendSynAck => exact h.idle _ (observe_send_header _ _ _) rfl
  | sendFin => exact h.idle _ (observe_send_header _ _ _) (by simp [afterSend])
  | recvSynAck pc queue | recvSyn pc queue | recvAck pc queue =>
    rw [pc] at cond
    exact h.receive (by omega) _ _ queue (of_decide_eq_true cond) rfl
  | unblock | waitForEvent => exact h.idle _ rfl (by simp)
  | appRecv pc asked stream recv fits =>
    rw [pc] at cond
    obtain ⟨-, room⟩ := of_decide_eq_true cond
    rw [nextTaken, ← stcpAppRecv_length recv] at room
    unfold InWindow
    rw [sendWindow_snoc, (work_sendLoop ..).2]
    exact room
  | appRecvOverflow pc asked overflow =>
    exact h.idle _ rfl rfl
  | @sendData event buffer payload payloadSize pc =>
    rw [pc] at cond
    obtain rfl : fail = none := by simpa using cond
    unfold sendSegment
    dsimp only
    split_ifs with outside
    · exact h.idle _ rfl rfl
    · have piece := length_piece buffer payload (min payloadSize stcpMss)
        (by omega) (by omega)
      unfold InWindow at h ⊢
      rw [pc, unsentSize] at h
      rw [sendWindow_snoc, Option.isNone_none, SendWindow.observe,
        List.drop_left' (STCPHeader.length_bytes _), piece, segmentSize_none]
      dsimp only [afterSend]
      rw [(work_sendLoop ..).2]
      omega
  | networkRecv pc queue branch =>
    rw [pc] at cond
    exact h.receive (by omega) _ _ queue (of_decide_eq_true cond) (by simp)
  | @call event c rest pc =>
    cases c with
    | finReceived => exact h.idle _ rfl (by simp [Endpoint.call])
    | appSend src srcLen =>
      rw [Endpoint.call]
      split_ifs
      · exact h.idle _ rfl (by simp)
      · exact h.idle _ rfl (by simp)
      · exact h.idle _ rfl rfl
    | networkSend pkt =>
      obtain ⟨ack, rfl⟩ := replies pkt (by rw [pc]; exact List.mem_cons_self ..)
      exact h.idle _ (observe_send_header _ _ _) (by simp [Endpoint.call, afterSend])
  | finalEof => exact h.idle _ rfl rfl

theorem InWindow.step {a : Action} (h : InWindow tr e) (replies : e.RepliesAck)
    (cond : windowKept tr e a = true) (st : e.step a = some (e', o)) :
    InWindow (tr ++ [(a, o)]) e' := by
  cases a with
  | transport maxLen fail => exact h.transport replies cond (transportStep_of_eq st)
  | _ =>
    obtain ⟨pc, -, -, rfl⟩ := step_environment st (by simp)
    unfold InWindow at h ⊢
    rw [sendWindow_snoc, pc]
    exact h

/-- A step that asks `stcp_app_recv` for more than the buffer holds fails the test. -/
theorem asked_le {a : Action} {data : List UInt8} {asked : ℕ} (cond : windowKept tr e a = true)
    (st : e.step a = some (e', .appRecv asked data)) : asked ≤ senderWindow := by
  cases a with
  | transport maxLen fail =>
    unfold windowKept at cond
    have step := transportStep_of_eq st
    generalize seen : Obs.appRecv asked data = shown at step
    cases step with
    | appRecv pc _ _ _ _ | appRecvOverflow pc _ _ =>
      rw [pc] at cond
      cases seen
      exact (of_decide_eq_true cond).1
    | @sendData event buffer payload payloadSize pc =>
      unfold sendSegment at seen
      dsimp only at seen
      split_ifs at seen
    | @call event c rest pc =>
      cases c with
      | appSend src srcLen =>
        rw [Endpoint.call] at seen
        split_ifs at seen
      | finReceived | networkSend pkt => cases seen
    | _ => cases seen
  | _ =>
    obtain ⟨-, -, -, h⟩ := step_environment st (by simp)
    cases h

end Step

/-- The two rules of the sliding window, for the trace of a run. -/
structure WindowRespected (tr : List (Action × Obs)) : Prop where
  unacked : (sendWindow tr).unacked ≤ min senderWindow (sendWindow tr).window
  asked : ∀ a maxLen data, (a, Obs.appRecv maxLen data) ∈ tr → maxLen ≤ senderWindow

/-- The window is respected in every state reached by steps that pass the test. -/
theorem unacked_le_window {isActive : Bool} {r : ℕ} {tr : List (Action × Obs)} {e : Endpoint}
    (run : machine.Runs (fun tr e a => windowKept tr e a = true) (init isActive r) tr e) :
    WindowRespected tr := by
  have inv : InWindow tr e ∧ ∀ a maxLen data, (a, Obs.appRecv maxLen data) ∈ tr →
      maxLen ≤ senderWindow := by
    refine run.invariant (I := fun tr e => InWindow tr e ∧
      ∀ a maxLen data, (a, Obs.appRecv maxLen data) ∈ tr → maxLen ≤ senderWindow) ?_ ?_
    · refine ⟨?_, by simp⟩
      cases isActive <;> exact Nat.zero_le _
    · rintro tr e a o e' before ⟨window, asked⟩ cond st
      refine ⟨window.step (repliesAck_of_run before) cond st, fun b maxLen data mem => ?_⟩
      cases List.mem_append.1 mem with
      | inl mem => exact asked b maxLen data mem
      | inr mem =>
        simp only [List.mem_singleton, Prod.mk.injEq] at mem
        obtain ⟨rfl, rfl⟩ := mem
        exact asked_le cond st
  exact ⟨(Nat.le_add_right _ _).trans inv.1, inv.2⟩

/-- The handshake of a passive endpoint with a peer that advertises the window `win`. -/
def acceptFrom (win : UInt16) : List Action :=
  [.deliver (STCPHeader.bytes { thSeq := 41, thOff := 5, thFlags := thSYN, thWin := win }),
    .transport 0 none, .transport 0 none,
    .deliver (STCPHeader.bytes { thSeq := 42, thAck := 8, thOff := 5, thFlags := thACK, thWin := win }),
    .transport 0 none, .transport 0 none]

/-- Two bytes are sent to a peer with room for them. -/
theorem unacked_le_window_two : ∃ tr e,
    machine.Runs (fun tr e a => windowKept tr e a = true) (init false 7) tr e ∧
      (sendWindow tr).unacked = 2 ∧ WindowRespected tr := by
  obtain ⟨tr, e, run, sent⟩ := Machine.Runs.exists_of_exec (M := machine) (C := windowKept)
    (i := init false 7) (P := fun tr _ => (sendWindow tr).unacked = 2)
    (acceptFrom 2 ++ [.mywrite [104, 105], .transport 0 none, .transport 3072 none,
      .transport 0 none]) (by decide +kernel)
  exact ⟨tr, e, run, sent, unacked_le_window run⟩

/-- The control loop sends two bytes to a peer that has advertised a window of one. -/
theorem not_windowRespected : ¬ ∀ tr e, machine.Run (init false 7) tr e → WindowRespected tr := by
  intro all
  obtain ⟨tr, e, run, sent⟩ := Machine.Runs.exists_of_exec (M := machine) (C := fun _ _ _ => true)
    (i := init false 7)
    (P := fun tr _ => min senderWindow (sendWindow tr).window < (sendWindow tr).unacked)
    (acceptFrom 1 ++ [.mywrite [104, 105], .transport 0 none, .transport 3072 none,
      .transport 0 none]) (by decide +kernel)
  have respected := all tr e (run.mono fun _ _ _ _ => trivial)
  exact absurd respected.unacked (by omega)

end ComputerNetwork.Tcp
