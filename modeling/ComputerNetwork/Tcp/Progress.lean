import ComputerNetwork.Tcp.Invariant

/-!
# Progress of the control loop

The branches of `control_loop` for data are guarded by the state `established`, but
`stcp_wait_for_event` reports waiting packets and application data in every state.  `Consumed` says
that an iteration takes up what woke it; `Iteration.consumed_iff` when it does.  `potential` bounds
the steps that the STCP thread can take, as long as every wake-up is in `established` and every
`stcp_app_recv` asks for something (`steps_le`).  An endpoint that has sent its FIN first stays in
`finWait1` and in the loop for good (`finWait1_stays`).
-/

namespace ComputerNetwork.Tcp

open Lib Endpoint

/-! ## Iterations -/

/-- The pieces taken off `app_recv_queue` in a trace. -/
def taken (tr : List (Action × Obs)) : List (List UInt8) :=
  tr.flatMap fun
    | (_, .appRecv _ data) => [data]
    | _ => []

/-- The loop condition is tested next. -/
def atLoopTest : Pc → Bool
  | .waitForEvent | .finalEof => true
  | _ => false

/-- The steps of one iteration: it begins with the return of `stcp_wait_for_event` and ends before
the loop condition is tested again; `window` is the value of `current_sender_window`. -/
def inIteration (window : ℕ) (tr : List (Action × Obs)) (e : Endpoint) (a : Action) : Prop :=
  (tr = [] → ∃ fail, a = .transport window fail) ∧ (tr ≠ [] → atLoopTest e.pc = false) ∧
    ∀ maxLen fail, a = .transport maxLen fail → maxLen = window

/-- One whole iteration of the control loop, other threads' steps in between. -/
structure Iteration (window : ℕ) (e : Endpoint) (tr : List (Action × Obs)) (e' : Endpoint) : Prop where
  start : e.pc = .waitForEvent
  run : machine.Runs (inIteration window) e tr e'
  nonempty : tr ≠ []
  stop : atLoopTest e'.pc = true

/-- The iteration takes up what woke it: a packet, the head of the application's data or at least a
byte of it, the close request. -/
structure Consumed (e : Endpoint) (tr : List (Action × Obs)) : Prop where
  network : (pendingEvents e.sock).networkData = true → received tr ≠ []
  app : (pendingEvents e.sock).appData = true →
    ∃ data ∈ taken tr, data ≠ [] ∨ e.sock.appRecvQueue.headD [] = []
  close : (pendingEvents e.sock).appCloseRequested = true →
    ∃ pkt ∈ sends tr, hasFlag pkt thFIN = true

/-- The wake-ups that the loop can deal with. -/
def canConsume (window : ℕ) (e : Endpoint) : Prop :=
  ((pendingEvents e.sock).networkData = true → e.ctx.connectionState = .established) ∧
    ((pendingEvents e.sock).appData = true → e.ctx.connectionState = .established ∧
      (0 < window ∨ e.sock.appRecvQueue.headD [] = []))

section Iteration

variable (e : Endpoint) (window : ℕ) (tr : List (Action × Obs))

/-- The application's data has been looked at, if the loop looks at it at all. -/
def AppDone : Prop :=
  if (pendingEvents e.sock).appData = true ∧ e.ctx.connectionState = .established then
    ∃ data, taken tr = [data] ∧ data.length = min window (e.sock.appRecvQueue.headD []).length
  else taken tr = []

/-- A waiting packet has been looked at, if the loop looks at it at all. -/
def NetworkDone : Prop :=
  if (pendingEvents e.sock).networkData = true ∧ e.ctx.connectionState = .established then
    received tr ≠ []
  else received tr = []

/-- What the iteration from `e` has done when it stands at each program counter of `s`. -/
def Progress (s : Endpoint) : Pc → Prop
  | .appRecv ev => ev = pendingEvents e.sock ∧ (pendingEvents e.sock).appData = true ∧
      e.ctx.connectionState = .established ∧ s.ctx.connectionState = .established ∧
      taken tr = [] ∧ received tr = [] ∧
      s.sock.appRecvQueue.head? = e.sock.appRecvQueue.head?
  | .sendData ev _ _ _ => ev = pendingEvents e.sock ∧ e.ctx.connectionState = .established ∧
      s.ctx.connectionState = .established ∧ AppDone e window tr ∧ received tr = []
  | .networkRecv ev => ev = pendingEvents e.sock ∧ (pendingEvents e.sock).networkData = true ∧
      e.ctx.connectionState = .established ∧ AppDone e window tr
  | .calls ev _ => ev = pendingEvents e.sock ∧ AppDone e window tr ∧ NetworkDone e tr
  | .sendFin => (pendingEvents e.sock).appCloseRequested = true ∧ AppDone e window tr ∧
      NetworkDone e tr
  | .waitForEvent | .finalEof => AppDone e window tr ∧ NetworkDone e tr ∧
      ((pendingEvents e.sock).appCloseRequested = true → ∃ pkt ∈ sends tr, hasFlag pkt thFIN = true)
  | .crashed => True
  | _ => False

variable {e window tr} {s s' : Endpoint} {a : Action} {o : Obs} {fail : Option ℕ} {ctx : Context}

theorem taken_snoc (tr : List (Action × Obs)) (a : Action) (o : Obs) :
    taken (tr ++ [(a, o)]) = taken tr ++ taken [(a, o)] := List.flatMap_append

theorem AppDone.snoc (h : AppDone e window tr) (quiet : taken [(a, o)] = []) :
    AppDone e window (tr ++ [(a, o)]) := by
  rw [AppDone, taken_snoc, quiet, List.append_nil]
  exact h

theorem NetworkDone.snoc (h : NetworkDone e tr) (quiet : receipts o = []) :
    NetworkDone e (tr ++ [(a, o)]) := by
  rw [NetworkDone, received_snoc, quiet, List.append_nil]
  exact h

/-! ### Between the branches -/

theorem progress_loopHead (app : AppDone e window tr) (network : NetworkDone e tr)
    (close : (pendingEvents e.sock).appCloseRequested = true →
      ∃ pkt ∈ sends tr, hasFlag pkt thFIN = true) : Progress e window tr s (loopHead ctx) := by
  unfold loopHead
  split_ifs <;> exact ⟨app, network, close⟩

theorem progress_afterNetwork (app : AppDone e window tr) (network : NetworkDone e tr) :
    Progress e window tr s (afterNetwork (pendingEvents e.sock) ctx) := by
  unfold afterNetwork
  split_ifs with close
  · exact ⟨close, app, network⟩
  · exact progress_loopHead app network fun h => absurd h close

theorem progress_afterApp (app : AppDone e window tr) (none : received tr = [])
    (same : ctx.connectionState = e.ctx.connectionState) :
    Progress e window tr s (afterApp (pendingEvents e.sock) ctx) := by
  unfold afterApp
  rw [same]
  split_ifs with waiting
  · exact ⟨rfl, waiting.1, waiting.2, app⟩
  · refine progress_afterNetwork app ?_
    rw [NetworkDone, if_neg waiting]
    exact none

theorem progress_sendLoop (app : AppDone e window tr) (none : received tr = [])
    (est : e.ctx.connectionState = .established) (now : s.ctx.connectionState = .established)
    (same : ctx.connectionState = .established) (buffer : List UInt8) (payload payloadSize : ℤ) :
    Progress e window tr s (sendLoop (pendingEvents e.sock) buffer payload payloadSize ctx) := by
  unfold sendLoop
  split_ifs
  · exact ⟨rfl, est, now, app, none⟩
  · exact progress_afterApp app none (same.trans est.symm)

theorem progress_callsPc (app : AppDone e window tr) (network : NetworkDone e tr)
    (pending : List Call) : Progress e window tr s (callsPc (pendingEvents e.sock) pending ctx) := by
  unfold callsPc
  split_ifs
  · exact progress_afterNetwork app network
  · exact ⟨rfl, app, network⟩

/-! ### The steps of an iteration -/

theorem progress_start (pc : e.pc = .waitForEvent) (st : TransportStep e window fail s o) :
    Progress e window [(a, o)] s s.pc := by
  cases st with
  | @waitForEvent ev _ event nonzero =>
    subst event
    show Progress e window _ _ (afterWait (pendingEvents e.sock) e.ctx)
    unfold afterWait
    split_ifs with app
    · exact ⟨rfl, app.1, app.2, app.2, rfl, rfl, rfl⟩
    · refine progress_afterApp ?_ rfl rfl
      rw [AppDone, if_neg app]
      rfl
  | sendSyn h | recvSynAck h | sendAck h | recvSyn h | sendSynAck h | recvAck h | unblock h | appRecv h
  | appRecvOverflow h | sendData h | networkRecv h | call h | sendFin h | finalEof h =>
    rw [pc] at h
    cases h

theorem Progress.transport (h : Progress e window tr s s.pc) (inside : atLoopTest s.pc = false)
    (ok : s.Ok) (st : TransportStep s window fail s' o) :
    Progress e window (tr ++ [(a, o)]) s' s'.pc := by
  have pcOk := ok.pcOk
  cases st with
  | sendSyn pc | recvSynAck pc | sendAck pc | recvSyn pc | sendSynAck pc | recvAck pc | unblock pc =>
    rw [pc] at h
    exact h.elim
  | waitForEvent pc | finalEof pc =>
    rw [pc] at inside
    cases inside
  | @appRecv event data pq pc asked stream recv fits =>
    rw [pc] at h
    obtain ⟨rfl, woken, est, now, noneTaken, noneReceived, head⟩ := h
    have size := stcpAppRecv_length recv
    rw [List.headD_eq_head?_getD, head, ← List.headD_eq_head?_getD] at size
    refine progress_sendLoop ?_ ?_ est (by exact now) now _ _ _
    · rw [AppDone, if_pos ⟨woken, est⟩]
      exact ⟨data, by rw [taken_snoc, noneTaken]; rfl, size⟩
    · rw [received_snoc, noneReceived]
      rfl
  | appRecvOverflow pc => trivial
  | @sendData event buffer payload payloadSize pc =>
    rw [pc] at h
    obtain ⟨rfl, est, now, app, none⟩ := h
    unfold sendSegment
    dsimp only
    split_ifs
    · trivial
    · exact progress_sendLoop (app.snoc rfl) (by rw [received_snoc, none]; rfl) est (by exact now)
        now _ _ _
  | networkRecv pc queue branch =>
    rw [pc] at h
    obtain ⟨rfl, waiting, est, app⟩ := h
    refine progress_callsPc (app.snoc rfl) ?_ _
    rw [NetworkDone, if_pos ⟨waiting, est⟩, received_snoc]
    simp [receipts]
  | @call event c rest pc =>
    rw [pc] at h
    obtain ⟨rfl, app, network⟩ := h
    cases c with
    | finReceived | networkSend pkt => exact progress_callsPc (app.snoc rfl) (network.snoc rfl) _
    | appSend src srcLen =>
      rw [Endpoint.call]
      split_ifs
      · exact progress_callsPc (app.snoc rfl) (network.snoc rfl) _
      · exact progress_callsPc (app.snoc rfl) (network.snoc rfl) _
      · trivial
  | sendFin pc =>
    rw [pc] at h
    obtain ⟨close, app, network⟩ := h
    apply progress_loopHead (app.snoc rfl) (network.snoc rfl)
    intro _
    refine ⟨(finHeader s.ctx).bytes, by rw [sends_snoc]; simp [attempts], ?_⟩
    have flag := hasFlag_bytes (finHeader s.ctx) [] thFIN
    rw [List.append_nil] at flag
    rw [flag]
    show (thFIN &&& thFIN != 0) = true
    decide

/-- Other threads append to the application's queue only. -/
theorem head?_environment (other : ∀ maxLen fail, a ≠ .transport maxLen fail)
    (st : s.step a = some (s', o)) (some_ : s.sock.appRecvQueue ≠ []) :
    s'.sock.appRecvQueue.head? = s.sock.appRecvQueue.head? := by
  cases environmentStep_of_eq st other with
  | mywrite => exact List.head?_append_of_ne_nil _ some_
  | myclose | myread | deliver => rfl

theorem Progress.environment (h : Progress e window tr s s.pc)
    (other : ∀ maxLen fail, a ≠ .transport maxLen fail) (st : s.step a = some (s', o)) :
    Progress e window (tr ++ [(a, o)]) s' s'.pc := by
  obtain ⟨pc, ctx, -, rfl⟩ := step_environment st other
  have hs : sends (tr ++ [(a, .quiet)]) = sends tr := by
    rw [sends_snoc]
    exact List.append_nil _
  have hr : received (tr ++ [(a, .quiet)]) = received tr := by
    rw [received_snoc]
    exact List.append_nil _
  have ht : taken (tr ++ [(a, .quiet)]) = taken tr := by
    rw [taken_snoc]
    exact List.append_nil _
  have app : ∀ w, AppDone e w (tr ++ [(a, .quiet)]) = AppDone e w tr := by
    intro w
    rw [AppDone, AppDone, ht]
  have network : NetworkDone e (tr ++ [(a, .quiet)]) = NetworkDone e tr := by
    rw [NetworkDone, NetworkDone, hr]
  rw [pc]
  cases at_ : s.pc with
  | appRecv ev =>
    rw [at_] at h
    obtain ⟨rfl, woken, est, now, noneTaken, noneReceived, head⟩ := h
    refine ⟨rfl, woken, est, by rw [ctx]; exact now, by rw [ht]; exact noneTaken,
      by rw [hr]; exact noneReceived, ?_⟩
    rw [← head]
    refine head?_environment other st fun empty => ?_
    rw [empty, List.head?_nil, eq_comm, List.head?_eq_none_iff] at head
    simp [pendingEvents, head] at woken
  | sendData ev buffer payload payloadSize | networkRecv ev | calls ev pending | sendFin
  | waitForEvent | finalEof =>
    rw [at_] at h
    simpa only [Progress, app, network, hr, hs, ctx] using h
  | crashed => trivial
  | _ =>
    rw [at_] at h
    exact h.elim

theorem Iteration.progress (it : Iteration window e tr s) (ok : e.Ok) :
    Progress e window tr s s.pc := by
  have steps : tr ≠ [] → Progress e window tr s s.pc := by
    refine (it.run.invariant (I := fun tr s => s.Ok ∧ (tr = [] → s = e) ∧
      (tr ≠ [] → Progress e window tr s s.pc)) ⟨ok, fun _ => rfl, fun h => absurd rfl h⟩ ?_).2.2
    rintro tr s a o s' - ⟨now, begins, so⟩ ⟨first, inside, same⟩ st
    refine ⟨now.step st, by simp, fun _ => ?_⟩
    by_cases empty : tr = []
    · obtain ⟨fail, rfl⟩ := first empty
      obtain rfl := begins empty
      rw [empty, List.nil_append]
      exact progress_start it.start (transportStep_of_eq st)
    · cases a with
      | transport maxLen fail =>
        obtain rfl := same maxLen fail rfl
        exact (so empty).transport (inside empty) now (transportStep_of_eq st)
      | _ => exact (so empty).environment (by simp) st
  exact steps it.nonempty

/-- An iteration takes up what woke it exactly when the loop can deal with it. -/
theorem Iteration.consumed_iff (it : Iteration window e tr s) (ok : e.Ok) :
    Consumed e tr ↔ canConsume window e := by
  have done : AppDone e window tr ∧ NetworkDone e tr ∧
      ((pendingEvents e.sock).appCloseRequested = true →
        ∃ pkt ∈ sends tr, hasFlag pkt thFIN = true) := by
    have h := it.progress ok
    have stop := it.stop
    cases pc : s.pc with
    | waitForEvent | finalEof =>
      rw [pc] at h
      exact h
    | _ =>
      rw [pc] at stop
      cases stop
  obtain ⟨app, network, close⟩ := done
  constructor
  · intro used
    refine ⟨fun waiting => ?_, fun waiting => ?_⟩
    · by_contra est
      rw [NetworkDone, if_neg (fun h => est h.2)] at network
      exact used.network waiting network
    · obtain ⟨data, mem, some⟩ := used.app waiting
      have est : e.ctx.connectionState = .established := by
        by_contra est
        rw [AppDone, if_neg (fun h => est h.2)] at app
        simp [app] at mem
      rw [AppDone, if_pos ⟨waiting, est⟩] at app
      obtain ⟨data', one, size⟩ := app
      rw [one, List.mem_singleton] at mem
      subst mem
      refine ⟨est, some.imp_left fun more => ?_⟩
      have := List.length_pos_of_ne_nil more
      omega
  · rintro ⟨hn, ha⟩
    refine ⟨fun waiting => ?_, fun waiting => ?_, close⟩
    · rw [NetworkDone, if_pos ⟨waiting, hn waiting⟩] at network
      exact network
    · obtain ⟨est, some⟩ := ha waiting
      rw [AppDone, if_pos ⟨waiting, est⟩] at app
      obtain ⟨data, one, size⟩ := app
      refine ⟨data, by rw [one]; exact List.mem_singleton.2 rfl, ?_⟩
      by_cases none : e.sock.appRecvQueue.headD [] = []
      · exact Or.inr none
      · have pos := some.resolve_right none
        have more := List.length_pos_of_ne_nil none
        refine Or.inl fun nil => ?_
        rw [nil, List.length_nil] at size
        omega

end Iteration

/-! ## Runs of the STCP thread are bounded by its inputs -/

/-- Wake-ups in `established` or for the close request alone, calls of `stcp_app_recv` that take
something, and data segments that are sent. -/
def wakesToWork (e : Endpoint) : Action → Bool
  | .transport maxLen fail =>
    match e.pc with
    | .waitForEvent => !((pendingEvents e.sock).networkData || (pendingEvents e.sock).appData) ||
        e.ctx.connectionState == .established
    | .appRecv _ => decide (0 < maxLen) || (e.sock.appRecvQueue.headD []).isEmpty
    | .sendData _ _ _ _ => fail.isNone
    | _ => true
  | _ => true

/-- What an input can still cause: at most this many steps of the STCP thread. -/
def inputCost : Action → ℕ
  | .deliver _ => 5
  | .mywrite buf => 3 * buf.length + 2
  | .myclose => 2
  | _ => 0

def inputCosts (tr : List (Action × Obs)) : ℕ := (tr.map fun entry => inputCost entry.1).sum

/-- The number of steps the STCP thread has taken. -/
def threadSteps (tr : List (Action × Obs)) : ℕ :=
  tr.countP fun entry => match entry.1 with | .transport _ _ => true | _ => false

/-- The part of the potential that belongs to the program counter. -/
def pcPotential : Pc → ℕ
  | .sendSyn | .recvSyn => 6
  | .recvSynAck | .sendSynAck => 5
  | .sendAck | .recvAck => 4
  | .unblock => 3
  | .waitForEvent => 2
  | .appRecv _ => 1
  | .sendData _ _ _ payloadSize => 2 + payloadSize.toNat
  | .networkRecv ev => 1 + ev.appCloseRequested.toNat
  | .calls ev pending => 2 + ev.appCloseRequested.toNat + pending.length
  | .sendFin => 3
  | .finalEof => 1
  | .exited | .crashed => 0

/-- An upper bound on the steps that the STCP thread can take without further input. -/
def potential (e : Endpoint) : ℕ :=
  5 * e.sock.networkRecvQueue.length +
    (e.sock.appRecvQueue.map fun buf => 3 * buf.length + 2).sum +
    2 * e.sock.closeRequested.toNat + pcPotential e.pc

section Potential

variable (ev : Event) (ctx : Context)

theorem pcPotential_loopHead : pcPotential (loopHead ctx) ≤ 2 := by
  unfold loopHead
  split_ifs <;> simp [pcPotential]

theorem pcPotential_afterNetwork :
    pcPotential (afterNetwork ev ctx) ≤ 2 + ev.appCloseRequested.toNat := by
  unfold afterNetwork
  split_ifs with close
  · simp [pcPotential, close]
  · exact (pcPotential_loopHead ctx).trans (Nat.le_add_right _ _)

theorem pcPotential_afterApp : pcPotential (afterApp ev ctx) ≤ 2 + ev.appCloseRequested.toNat := by
  unfold afterApp
  split_ifs
  · simp only [pcPotential]
    omega
  · exact pcPotential_afterNetwork ev ctx

theorem pcPotential_sendLoop (open_ : ev.appCloseRequested = false) (buffer : List UInt8)
    (payload payloadSize : ℤ) :
    pcPotential (sendLoop ev buffer payload payloadSize ctx) ≤ 2 + payloadSize.toNat := by
  unfold sendLoop
  split_ifs
  · exact le_rfl
  · have bound := pcPotential_afterApp ev ctx
    rw [open_, Bool.toNat_false] at bound
    omega

theorem pcPotential_callsPc (pending : List Call) :
    pcPotential (callsPc ev pending ctx) ≤ 2 + ev.appCloseRequested.toNat + pending.length := by
  unfold callsPc
  split_ifs
  · exact (pcPotential_afterNetwork ev ctx).trans (Nat.le_add_right _ _)
  · exact le_rfl

end Potential

variable {e e' : Endpoint} {maxLen : ℕ} {fail : Option ℕ} {o : Obs} {a : Action}
  {tr : List (Action × Obs)}

/-- What the application's queue loses to `stcp_app_recv`. -/
theorem queueCost_appRecv {pq : PacketQueue} {data : List UInt8}
    (recv : stcpAppRecv e.sock maxLen = some (data, { e.sock with appRecvQueue := pq })) :
    (pq.map fun buf => 3 * buf.length + 2).sum + 3 * data.length +
        (if e.sock.appRecvQueue.headD [] = [] then 2 else 0) ≤
      (e.sock.appRecvQueue.map fun buf => 3 * buf.length + 2).sum := by
  obtain ⟨node, rest, pq', queue, same, split⟩ := stcpAppRecv_cases recv
  obtain rfl : pq = pq' := congrArg MysockContext.appRecvQueue same
  rw [queue, List.headD_cons, List.map_cons, List.sum_cons]
  rcases split with ⟨long, rfl, rfl⟩ | ⟨-, rfl, rfl⟩
  · have some_ : node ≠ [] := by
      rintro rfl
      simp at long
    rw [if_neg some_, List.map_cons, List.sum_cons, List.length_drop, List.length_take]
    omega
  · split_ifs <;> omega

theorem pcPotential_afterWait (sock : MysockContext) (ctx : Context)
    (nonzero : (pendingEvents sock).nonzero = true)
    (cond : (pendingEvents sock).networkData = true ∨ (pendingEvents sock).appData = true →
      ctx.connectionState = .established) :
    pcPotential (afterWait (pendingEvents sock) ctx) ≤
      1 + 2 * (pendingEvents sock).appCloseRequested.toNat := by
  unfold afterWait
  split_ifs with app
  · simp [pcPotential]
  · unfold afterApp
    split_ifs with network
    · simp only [pcPotential]
      omega
    · have close : (pendingEvents sock).appCloseRequested = true := by
        unfold Event.nonzero at nonzero
        by_contra none
        simp only [none, Bool.or_eq_true, or_false] at nonzero
        cases nonzero with
        | inl h => exact app ⟨h, cond (Or.inr h)⟩
        | inr h => exact network ⟨h, cond (Or.inl h)⟩
      have bound := pcPotential_afterNetwork (pendingEvents sock) ctx
      rw [close, Bool.toNat_true] at bound ⊢
      omega

/-- The loop wakes for data only where it can deal with it. -/
theorem established_of_woken {ev : Event} {state : ConnectionState}
    (cond : (!(ev.networkData || ev.appData) || state == .established) = true)
    (woken : ev.networkData = true ∨ ev.appData = true) : state = .established := by
  simp only [Bool.or_eq_true, Bool.not_eq_true', Bool.or_eq_false_iff, beq_iff_eq] at cond
  rcases cond with ⟨noNetwork, noApp⟩ | est
  · cases woken with
    | inl network =>
      rw [network] at noNetwork
      cases noNetwork
    | inr app =>
      rw [app] at noApp
      cases noApp
  · exact est

/-- The close request is taken off when its event is returned. -/
theorem closeRequested_pendingEvents (sock : MysockContext) :
    2 * (sock.closeRequested && !(pendingEvents sock).appCloseRequested).toNat +
      2 * (pendingEvents sock).appCloseRequested.toNat ≤ 2 * sock.closeRequested.toNat := by
  unfold pendingEvents
  cases sock.closeRequested <;> cases sock.appRecvQueue.isEmpty <;> simp

theorem potential_sendSegment {event : Event} {buffer : List UInt8} {payload payloadSize : ℤ}
    (pc : e.pc = .sendData event buffer payload payloadSize) (close : event.appCloseRequested = false)
    (positive : 0 < payloadSize) :
    potential (e.sendSegment none event buffer payload payloadSize).1 + 1 ≤ potential e := by
  unfold sendSegment
  dsimp only
  split_ifs
  · simp only [potential, pc, pcPotential]
    omega
  · rw [segmentSize_none]
    have bound := pcPotential_sendLoop event
      { e.ctx with currentSequenceNum := addInt e.ctx.currentSequenceNum (min payloadSize stcpMss) }
      close buffer (payload + min payloadSize stcpMss) (payloadSize - min payloadSize stcpMss)
    have before : pcPotential e.pc = 2 + payloadSize.toNat := by rw [pc]; rfl
    dsimp only at bound
    rw [stcpMss] at bound ⊢
    simp only [potential, afterSend]
    omega

theorem potential_call {event : Event} {c : Call} {rest : List Call}
    (pc : e.pc = .calls event (c :: rest)) :
    potential (e.call fail event rest c).1 + 1 ≤ potential e := by
  have before : pcPotential e.pc = 2 + event.appCloseRequested.toNat + (rest.length + 1) := by
    rw [pc]
    rfl
  have bound := pcPotential_callsPc event e.ctx rest
  cases c with
  | finReceived | networkSend pkt =>
    simp only [potential, Endpoint.call, enqueueAppSend, afterSend]
    omega
  | appSend src srcLen =>
    rw [Endpoint.call]
    split_ifs
    · simp only [potential]
      omega
    · simp only [potential, enqueueAppSend]
      omega
    · simp only [potential, pcPotential] at before ⊢
      omega

theorem potential_transport (ok : e.Ok) (cond : wakesToWork e (.transport maxLen fail) = true)
    (st : TransportStep e maxLen fail e' o) : potential e' + 1 ≤ potential e := by
  have pcOk := ok.pcOk
  unfold wakesToWork at cond
  cases st with
  | sendSyn pc | sendAck pc | sendSynAck pc =>
    simp only [potential, afterSend, pc, pcPotential]
    omega
  | recvSynAck pc queue | recvSyn pc queue | recvAck pc queue =>
    simp only [potential, pc, queue, pcPotential, List.length_cons]
    omega
  | unblock pc =>
    have before : pcPotential e.pc = 3 := by rw [pc]; rfl
    have bound := pcPotential_loopHead e.ctx
    simp only [potential, stcpUnblockApplication]
    omega
  | waitForEvent pc event nonzero =>
    subst event
    rw [pc] at cond
    have before : pcPotential e.pc = 2 := by rw [pc]; rfl
    have bound := pcPotential_afterWait e.sock e.ctx nonzero (established_of_woken cond)
    have cleared := closeRequested_pendingEvents e.sock
    simp only [potential]
    omega
  | @appRecv event data pq pc asked stream recv fits =>
    rw [pc] at cond pcOk
    have before : pcPotential e.pc = 1 := by rw [pc]; rfl
    have cost := queueCost_appRecv recv
    have size := stcpAppRecv_length recv
    have bound := pcPotential_sendLoop event e.ctx pcOk.2.2.1 data 0 data.length
    simp only [Bool.or_eq_true, decide_eq_true_eq, List.isEmpty_iff] at cond
    have paid : 2 + data.length ≤ 3 * data.length +
        (if e.sock.appRecvQueue.headD [] = [] then 2 else 0) := by
      split_ifs with none
      · omega
      · have more := List.length_pos_of_ne_nil none
        have pos := cond.resolve_right none
        omega
    simp only [potential]
    omega
  | appRecvOverflow pc asked overflow recv =>
    have cost := queueCost_appRecv recv
    simp only [potential, pc, pcPotential]
    omega
  | sendData pc =>
    rw [pc] at cond pcOk
    obtain rfl : fail = none := by simpa using cond
    obtain ⟨-, -, close, -, positive⟩ := pcOk
    exact potential_sendSegment pc close positive
  | @networkRecv event pkt rest ctx pending pc queue branch =>
    rw [pc] at pcOk
    have before : pcPotential e.pc = 1 + event.appCloseRequested.toNat := by rw [pc]; rfl
    have bound := pcPotential_callsPc event ctx pending
    have few : pending.length ≤ 3 := by
      rcases networkData_cases branch pcOk.2.1 with ⟨-, -, rfl⟩ | ⟨-, -, -, rfl⟩ | ⟨-, -, -, rfl⟩
      · simp
      · split_ifs <;> simp
      · simp
    simp only [potential, queue, List.length_cons]
    omega
  | call pc => exact potential_call pc
  | sendFin pc =>
    have before : pcPotential e.pc = 3 := by rw [pc]; rfl
    have bound := pcPotential_loopHead (afterFin e.ctx)
    simp only [potential, afterSend]
    omega
  | finalEof pc =>
    simp only [potential, enqueueAppSend, pc, pcPotential]
    omega

theorem potential_environment (other : ∀ maxLen fail, a ≠ .transport maxLen fail)
    (st : e.step a = some (e', o)) : potential e' ≤ potential e + inputCost a := by
  cases environmentStep_of_eq st other with
  | mywrite =>
    simp only [potential, mywrite, mysockEnqueueBuffer, List.map_append, List.sum_append,
      List.map_singleton, List.sum_singleton, inputCost]
    omega
  | myclose =>
    simp only [potential, myclose, inputCost, Bool.toNat_true]
    omega
  | myread => exact le_rfl
  | deliver =>
    simp only [potential, mysockEnqueueBuffer, List.length_append, List.length_singleton, inputCost]
    omega

/-- The STCP thread takes no more steps than its inputs pay for. -/
theorem steps_le {isActive : Bool} {r : ℕ}
    (run : machine.Runs (fun _ e a => wakesToWork e a = true) (init isActive r) tr e) :
    threadSteps tr + potential e ≤ 6 + inputCosts tr := by
  refine run.invariant (I := fun tr e => threadSteps tr + potential e ≤ 6 + inputCosts tr) ?_ ?_
  · cases isActive <;> exact le_rfl
  · intro tr e a o e' before bound cond st
    have steps : threadSteps (tr ++ [(a, o)]) = threadSteps tr + threadSteps [(a, o)] :=
      List.countP_append
    have costs : inputCosts (tr ++ [(a, o)]) = inputCosts tr + inputCost a := by
      simp [inputCosts]
    have st : e.step a = some (e', o) := st
    cases a with
    | transport maxLen fail =>
      have less := potential_transport (Ok.of_run before) cond (transportStep_of_eq st)
      have one : threadSteps [(.transport maxLen fail, o)] = 1 := rfl
      omega
    | mywrite | myclose | myread | deliver =>
      have less := potential_environment (by simp) st
      have same : threadSteps _ = threadSteps tr := steps
      omega

/-! ## The side that closes first -/

theorem finWait1_stays (ok : e.Ok) (pc : e.pc = .waitForEvent)
    (state : e.ctx.connectionState = .finWait1) (st : e.step a = some (e', o)) :
    e'.pc = .waitForEvent ∧ e'.ctx = e.ctx := by
  cases a with
  | transport maxLen fail =>
    have step : TransportStep e maxLen fail e' o := transportStep_of_eq st
    have pcOk := ok.pcOk
    rw [pc] at pcOk
    obtain ⟨running, states⟩ := pcOk
    obtain ⟨-, -, request⟩ : e.Quiesced := by simpa [state] using states
    cases step with
    | @waitForEvent ev _ event nonzero =>
      refine ⟨?_, rfl⟩
      show afterWait ev e.ctx = _
      rw [event, afterWait, if_neg (by simp [state]), afterApp, if_neg (by simp [state]),
        afterNetwork, if_neg (by simp [pendingEvents, request]), loopHead, if_neg (by simp [running])]
    | sendSyn h | recvSynAck h | sendAck h | recvSyn h | sendSynAck h | recvAck h | unblock h
    | appRecv h | appRecvOverflow h | sendData h | networkRecv h | call h | sendFin h | finalEof h =>
      rw [pc] at h
      cases h
  | _ =>
    obtain ⟨h1, h2, -⟩ := step_environment st (by simp)
    exact ⟨h1.trans pc, h2⟩

theorem finWait1_of_run (ok : e.Ok) (pc : e.pc = .waitForEvent)
    (state : e.ctx.connectionState = .finWait1) (run : machine.Run e tr e') :
    e'.pc = .waitForEvent ∧ e'.ctx = e.ctx := by
  have inv : e'.Ok ∧ e'.pc = .waitForEvent ∧ e'.ctx = e.ctx := by
    refine run.invariant (I := fun _ s => s.Ok ∧ s.pc = .waitForEvent ∧ s.ctx = e.ctx)
      ⟨ok, pc, rfl⟩ ?_
    rintro tr s a o s' - ⟨now, stands, same⟩ - st
    obtain ⟨h1, h2⟩ := finWait1_stays now stands (by rw [same, state]) st
    exact ⟨now.step st, h1, h2.trans same⟩
  exact inv.2

/-- An iteration takes up what woke it exactly when data arrives in `established` and
`stcp_app_recv` is asked for something; the STCP thread's steps are then bounded by its inputs; and
an endpoint that closed first never leaves the loop. -/
theorem controlLoop_progress (isActive : Bool) (r : ℕ) :
    (∀ tr e, machine.Run (init isActive r) tr e →
      ∀ window tr' e', Iteration window e tr' e' → (Consumed e tr' ↔ canConsume window e)) ∧
    (∀ tr e, machine.Runs (fun _ e a => wakesToWork e a = true) (init isActive r) tr e →
      threadSteps tr ≤ 6 + inputCosts tr) ∧
    (∀ tr e, machine.Run (init isActive r) tr e → e.pc = .waitForEvent →
      e.ctx.connectionState = .finWait1 → ∀ tr' e', machine.Run e tr' e' → e'.ctx.done = false) := by
  refine ⟨?_, ?_, ?_⟩
  · intro tr e run window tr' e' it
    exact it.consumed_iff (Ok.of_run run)
  · intro tr e run
    exact (Nat.le_add_right _ _).trans (steps_le run)
  · intro tr e run pc state tr' e' run'
    have ok := Ok.of_run run
    have pcOk := ok.pcOk
    rw [pc] at pcOk
    rw [(finWait1_of_run ok pc state run').2]
    exact pcOk.1

/-- An active endpoint after its handshake, its application's close and its FIN. -/
def closedFirst : List Action :=
  [.transport 0 none,
    .deliver (STCPHeader.bytes { thSeq := 41, thAck := 8, thOff := 5, thFlags := thSYN ||| thACK,
                                 thWin := 3072 }),
    .transport 0 none, .transport 0 none, .transport 0 none, .myclose, .transport 0 none,
    .transport 0 none]

/-- The steps of an endpoint up to its FIN are paid for. -/
theorem controlLoop_progress_close : ∃ tr e,
    machine.Runs (fun _ e a => wakesToWork e a = true) (init true 7) tr e ∧
      e.ctx.connectionState = .finWait1 ∧ threadSteps tr ≤ 6 + inputCosts tr := by
  obtain ⟨tr, e, run, state⟩ := Machine.Runs.exists_of_exec (M := machine)
    (C := fun _ e a => wakesToWork e a) (i := init true 7)
    (P := fun _ e => e.ctx.connectionState = .finWait1) closedFirst (by decide +kernel)
  exact ⟨tr, e, run, state, (controlLoop_progress true 7).2.1 tr e run⟩

/-- After its FIN the endpoint that closed first is woken by the peer's acknowledgement and FIN; the
iteration takes neither and leaves the endpoint as it was, to be woken again. -/
theorem controlLoop_spins : ∃ tr e woken, machine.Run (init true 7) tr e ∧ e.ctx.done = false ∧
    e.ctx.connectionState = .finWait1 ∧ e.sock.networkRecvQueue.length = 2 ∧
      Iteration 0 e woken e ∧ ¬ Consumed e woken := by
  obtain ⟨tr, e, run, running, state, queued, pc, step, waiting⟩ := Machine.Runs.exists_of_exec
    (M := machine) (C := fun _ _ _ => true) (i := init true 7)
    (P := fun _ e => e.ctx.done = false ∧ e.ctx.connectionState = .finWait1 ∧
      e.sock.networkRecvQueue.length = 2 ∧ e.pc = .waitForEvent ∧
      machine.step e (.transport 0 none) = some (e, .event (pendingEvents e.sock)) ∧
      (pendingEvents e.sock).networkData = true)
    (closedFirst ++ [.deliver (ackHeader 10).bytes,
      .deliver (STCPHeader.bytes { thSeq := 42, thOff := 5, thFlags := thFIN, thWin := 3072 })])
    (by decide +kernel)
  have once : inIteration 0 [] e (.transport 0 none) :=
    ⟨fun _ => ⟨none, rfl⟩, fun h => absurd rfl h, fun _ _ h => by cases h; rfl⟩
  refine ⟨tr, e, [(.transport 0 none, .event (pendingEvents e.sock))],
    run.mono fun _ _ _ _ => trivial, running, state, queued,
    ⟨pc, .snoc .nil once step, by simp, by rw [pc]; rfl⟩, fun used => ?_⟩
  exact used.network waiting rfl

end ComputerNetwork.Tcp
