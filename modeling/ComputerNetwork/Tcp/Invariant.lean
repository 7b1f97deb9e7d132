import ComputerNetwork.Tcp.Transport

/-!
# States an endpoint can be in

`Endpoint.Ok` relates the program counter of the STCP thread to the connection state and to what
the application has done.  It holds in every state that one endpoint reaches in an arbitrary
environment (`Ok.of_run`): any packets, any interleaving, failing sends and any value of the never
assigned window included.  In particular the branch of `NETWORK_DATA` is only entered in the state
`established`, and an endpoint in `finWait1` has nothing left to do for its application.
-/

namespace ComputerNetwork.Tcp

open Lib

/-! ## The branch on received packets -/

/-- From `established` the branch leads to `established` or `closeWait`. -/
theorem networkData_state {ctx ctx' : Context} {payload1 : List UInt8} {pktSize : ℕ}
    {pending : List Call} (h : networkData ctx payload1 pktSize = (ctx', pending))
    (est : ctx.connectionState = .established) :
    ctx'.done = ctx.done ∧
      (ctx'.connectionState = .established ∨ ctx'.connectionState = .closeWait) := by
  rcases networkData_cases h est with ⟨-, rfl, -⟩ | ⟨-, -, rfl, -⟩ | ⟨-, -, rfl, -⟩
  · exact ⟨rfl, Or.inl est⟩
  · exact ⟨rfl, Or.inr rfl⟩
  · exact ⟨rfl, Or.inl est⟩

namespace Endpoint

/-- The application has closed, and the STCP thread has taken all its data and the close request. -/
def Quiesced (e : Endpoint) : Prop :=
  e.appClosed = true ∧ e.sock.appRecvQueue = [] ∧ e.sock.closeRequested = false

/-- What holds at each program counter; `quiesced` stands for `Quiesced` of the endpoint. -/
def PcOk (ctx : Context) (sock : MysockContext) (quiesced : Prop) : Pc → Prop
  | .sendSyn | .recvSynAck | .sendAck | .recvSyn | .sendSynAck | .recvAck => ctx.done = false ∧
      (ctx.connectionState = .established ∨ ctx.connectionState = .synSent ∨
        ctx.connectionState = .synReceived)
  | .unblock => ctx.done = false ∧ ctx.connectionState = .established
  | .waitForEvent => ctx.done = false ∧ (ctx.connectionState = .established ∨
      ctx.connectionState = .closeWait ∨ (ctx.connectionState = .finWait1 ∧ quiesced))
  | .appRecv ev => ctx.done = false ∧ ctx.connectionState = .established ∧
      ev.appCloseRequested = false ∧ sock.appRecvQueue ≠ [] ∧
      (ev.networkData = true → sock.networkRecvQueue ≠ [])
  | .sendData ev _ _ payloadSize => ctx.done = false ∧ ctx.connectionState = .established ∧
      ev.appCloseRequested = false ∧ (ev.networkData = true → sock.networkRecvQueue ≠ []) ∧
      0 < payloadSize
  | .networkRecv ev => ctx.done = false ∧ ctx.connectionState = .established ∧
      (ev.appCloseRequested = true → quiesced) ∧ sock.networkRecvQueue ≠ []
  | .calls ev _ => ctx.done = false ∧
      (ctx.connectionState = .established ∨ ctx.connectionState = .closeWait) ∧
      (ev.appCloseRequested = true → quiesced)
  | .sendFin => ctx.done = false ∧
      (ctx.connectionState = .established ∨ ctx.connectionState = .closeWait) ∧ quiesced
  | .finalEof | .exited => ctx.done = true ∧ ctx.connectionState = .closed ∧ quiesced
  | .crashed => True

/-- The invariant of one endpoint. -/
structure Ok (e : Endpoint) : Prop where
  closing : e.sock.closeRequested = true → e.appClosed = true
  pcOk : PcOk e.ctx e.sock e.Quiesced e.pc

/-! ## The program counters between the branches -/

section Branches

variable {ctx : Context} {sock : MysockContext} {quiesced : Prop} {ev : Event}

theorem pcOk_afterNetwork (running : ctx.done = false)
    (state : ctx.connectionState = .established ∨ ctx.connectionState = .closeWait ∨
      (ctx.connectionState = .finWait1 ∧ quiesced))
    (close : ev.appCloseRequested = true → quiesced ∧
      (ctx.connectionState = .established ∨ ctx.connectionState = .closeWait)) :
    PcOk ctx sock quiesced (afterNetwork ev ctx) := by
  unfold afterNetwork
  split_ifs with hc
  · exact ⟨running, (close hc).2, (close hc).1⟩
  · rw [loopHead, if_neg (by simp [running])]
    exact ⟨running, state⟩

theorem pcOk_afterApp (running : ctx.done = false)
    (state : ctx.connectionState = .established ∨ ctx.connectionState = .closeWait ∨
      (ctx.connectionState = .finWait1 ∧ quiesced))
    (close : ev.appCloseRequested = true → quiesced ∧
      (ctx.connectionState = .established ∨ ctx.connectionState = .closeWait))
    (network : ev.networkData = true → sock.networkRecvQueue ≠ []) :
    PcOk ctx sock quiesced (afterApp ev ctx) := by
  unfold afterApp
  split_ifs with hn
  · exact ⟨running, hn.2, fun hc => (close hc).1, network hn.1⟩
  · exact pcOk_afterNetwork running state close

theorem pcOk_sendLoop (running : ctx.done = false) (est : ctx.connectionState = .established)
    (close : ev.appCloseRequested = false)
    (network : ev.networkData = true → sock.networkRecvQueue ≠ [])
    (buffer : List UInt8) (payload payloadSize : ℤ) :
    PcOk ctx sock quiesced (sendLoop ev buffer payload payloadSize ctx) := by
  unfold sendLoop
  split_ifs with more
  · exact ⟨running, est, close, network, more⟩
  · exact pcOk_afterApp running (Or.inl est) (by simp [close]) network

theorem pcOk_callsPc (running : ctx.done = false)
    (state : ctx.connectionState = .established ∨ ctx.connectionState = .closeWait)
    (close : ev.appCloseRequested = true → quiesced) (pending : List Call) :
    PcOk ctx sock quiesced (callsPc ev pending ctx) := by
  unfold callsPc
  split_ifs
  · refine pcOk_afterNetwork running ?_ fun hc => ⟨close hc, state⟩
    exact state.imp_right Or.inl
  · exact ⟨running, state, close⟩

/-- Where a wait leads; the queues are those it has looked at. -/
theorem pcOk_afterWait {sock' : MysockContext} {quiesced' : Prop}
    (ok : PcOk ctx sock quiesced .waitForEvent)
    (still : quiesced → quiesced' ∧ sock.closeRequested = false)
    (closes : sock.closeRequested = true → sock.appRecvQueue = [] → quiesced')
    (app : sock'.appRecvQueue = sock.appRecvQueue)
    (network : sock'.networkRecvQueue = sock.networkRecvQueue) :
    PcOk ctx sock' quiesced' (afterWait (pendingEvents sock) ctx) := by
  obtain ⟨running, state⟩ := ok
  have woken : (pendingEvents sock).networkData = true → sock'.networkRecvQueue ≠ [] := by
    rw [network]
    exact pendingEvents_networkData.1
  unfold afterWait
  split_ifs with data
  · have queued := pendingEvents_appData.1 data.1
    refine ⟨running, data.2, ?_, by rwa [app], woken⟩
    -- the close event is held back until the application's queue is empty
    by_contra close
    exact queued (pendingEvents_close.1 (by simpa using close)).2
  · refine pcOk_afterApp running ?_ (fun close => ?_) woken
    · exact state.imp_right (Or.imp_right (And.imp_right fun hq => (still hq).1))
    · obtain ⟨request, empty⟩ := pendingEvents_close.1 close
      refine ⟨closes request empty, ?_⟩
      rcases state with hs | hs | ⟨-, hq⟩
      · exact Or.inl hs
      · exact Or.inr hs
      · simp [(still hq).2] at request

theorem pcOk_loopHead_afterFin (ok : PcOk ctx sock quiesced .sendFin) :
    PcOk (afterFin ctx) sock quiesced (loopHead (afterFin ctx)) := by
  obtain ⟨running, -, hq⟩ := ok
  rcases afterFin_cases ctx with ⟨state, done⟩ | ⟨state, done⟩
  · rw [running] at done
    rw [loopHead, if_neg (by simp [done])]
    exact ⟨done, Or.inr (Or.inr ⟨state, hq⟩)⟩
  · rw [loopHead, if_pos done]
    exact ⟨done, state, hq⟩

/-- The program counter does not depend on a queue that grows, nor on `quiesced` when it fails. -/
theorem PcOk.mono {sock' : MysockContext} {quiesced' : Prop} {pc : Pc}
    (h : PcOk ctx sock quiesced pc) (hq : quiesced → quiesced')
    (app : sock.appRecvQueue ≠ [] → sock'.appRecvQueue ≠ [])
    (network : sock.networkRecvQueue ≠ [] → sock'.networkRecvQueue ≠ []) :
    PcOk ctx sock' quiesced' pc := by
  cases pc with
  | sendSyn | recvSynAck | sendAck | recvSyn | sendSynAck | recvAck | unblock | crashed => exact h
  | waitForEvent => exact ⟨h.1, h.2.imp_right (Or.imp_right (And.imp_right hq))⟩
  | appRecv ev => exact ⟨h.1, h.2.1, h.2.2.1, app h.2.2.2.1, fun hn => network (h.2.2.2.2 hn)⟩
  | sendData ev buffer payload payloadSize =>
    exact ⟨h.1, h.2.1, h.2.2.1, fun hn => network (h.2.2.2.1 hn), h.2.2.2.2⟩
  | networkRecv ev => exact ⟨h.1, h.2.1, fun hc => hq (h.2.2.1 hc), network h.2.2.2⟩
  | calls ev pending => exact ⟨h.1, h.2.1, fun hc => hq (h.2.2 hc)⟩
  | sendFin => exact ⟨h.1, h.2.1, hq h.2.2⟩
  | finalEof | exited => exact ⟨h.1, h.2.1, hq h.2.2⟩

end Branches

/-! ## Steps keep the invariant -/

theorem Ok.transport {e e' : Endpoint} {maxLen : ℕ} {fail : Option ℕ} {o : Obs} (h : e.Ok)
    (st : TransportStep e maxLen fail e' o) : e'.Ok := by
  obtain ⟨closing, ok⟩ := h
  cases st with
  | sendSyn pc | sendSynAck pc =>
    rw [pc] at ok
    exact ⟨closing, ok⟩
  | sendAck pc =>
    rw [pc] at ok
    exact ⟨closing, ok.1, rfl⟩
  | @recvSynAck pkt rest ctx errno pc queue answer =>
    rw [pc] at ok
    refine ⟨closing, ?_, Or.inr (Or.inl rfl)⟩
    show ctx.done = false
    rw [answer, synAckReceived]
    split_ifs <;> exact ok.1
  | @recvSyn pkt rest ctx errno pc queue answer =>
    rw [pc] at ok
    refine ⟨closing, ?_, Or.inr (Or.inr rfl)⟩
    show ctx.done = false
    rw [answer, synReceived]
    split_ifs <;> exact ok.1
  | recvAck pc queue =>
    rw [pc] at ok
    refine ⟨closing, ?_, rfl⟩
    show (ackReceived e.ctx _).done = false
    rw [ackReceived]
    split_ifs <;> exact ok.1
  | unblock pc =>
    rw [pc] at ok
    refine ⟨closing, ?_⟩
    show PcOk _ _ _ (loopHead e.ctx)
    rw [loopHead, if_neg (by simp [ok.1])]
    exact ⟨ok.1, Or.inl ok.2⟩
  | waitForEvent pc event nonzero =>
    rw [pc] at ok
    subst event
    refine ⟨fun hc => closing (by simp only [Bool.and_eq_true] at hc; exact hc.1),
      pcOk_afterWait ok ?_ ?_ rfl rfl⟩
    · rintro ⟨closed, empty, request⟩
      exact ⟨⟨closed, empty, by simp [request]⟩, request⟩
    · intro request empty
      exact ⟨closing request, empty, by simp [pendingEvents_close.2 ⟨request, empty⟩]⟩
  | appRecv pc asked stream recv fits =>
    rw [pc] at ok
    refine ⟨closing, pcOk_sendLoop ok.1 ok.2.1 ok.2.2.1 ?_ _ _ _⟩
    exact ok.2.2.2.2
  | appRecvOverflow pc asked overflow => exact ⟨closing, trivial⟩
  | @sendData event buffer payload payloadSize pc =>
    rw [pc] at ok
    unfold sendSegment
    dsimp only
    split_ifs
    · exact ⟨closing, trivial⟩
    · exact ⟨closing, pcOk_sendLoop ok.1 ok.2.1 ok.2.2.1 ok.2.2.2.1 _ _ _⟩
  | networkRecv pc queue branch =>
    rw [pc] at ok
    obtain ⟨hd, hs⟩ := networkData_state branch ok.2.1
    exact ⟨closing, pcOk_callsPc (hd.trans ok.1) hs ok.2.2.1 _⟩
  | @call event c rest pc =>
    rw [pc] at ok
    cases c with
    | finReceived => exact ⟨closing, pcOk_callsPc ok.1 ok.2.1 ok.2.2 _⟩
    | appSend src srcLen =>
      rw [Endpoint.call]
      split_ifs
      · exact ⟨closing, pcOk_callsPc ok.1 ok.2.1 ok.2.2 _⟩
      · exact ⟨closing, pcOk_callsPc ok.1 ok.2.1 ok.2.2 _⟩
      · exact ⟨closing, trivial⟩
    | networkSend pkt => exact ⟨closing, pcOk_callsPc ok.1 ok.2.1 ok.2.2 _⟩
  | sendFin pc =>
    rw [pc] at ok
    exact ⟨closing, pcOk_loopHead_afterFin ok⟩
  | finalEof pc =>
    rw [pc] at ok
    exact ⟨closing, ok⟩

/-- Every step of the other threads: a call of the application, which must be running, or a packet that
arrives.  `myread` changes nothing the STCP thread looks at. -/
inductive EnvironmentStep (e : Endpoint) : Action → Endpoint → Obs → Prop
  | mywrite {buf} (running : e.sock.blocking = false) (opened : e.appClosed = false) :
      EnvironmentStep e (.mywrite buf) { e with sock := mywrite e.sock buf } .quiet
  | myclose (running : e.sock.blocking = false) (opened : e.appClosed = false) :
      EnvironmentStep e .myclose { e with sock := myclose e.sock, appClosed := true } .quiet
  | myread {bufLen pq eof} (running : e.sock.blocking = false) (opened : e.appClosed = false) :
      EnvironmentStep e (.myread bufLen)
        { e with sock := { e.sock with appSendQueue := pq, eof := eof } } .quiet
  | deliver {pkt} : EnvironmentStep e (.deliver pkt) { e with sock := { e.sock with
      networkRecvQueue := mysockEnqueueBuffer e.sock.networkRecvQueue pkt } } .quiet

theorem environmentStep_of_eq {e e' : Endpoint} {a : Action} {o : Obs} (st : e.step a = some (e', o))
    (other : ∀ maxLen fail, a ≠ .transport maxLen fail) : EnvironmentStep e a e' o := by
  cases a with
  | transport maxLen fail => exact absurd rfl (other maxLen fail)
  | deliver pkt =>
    cases st
    exact .deliver
  | mywrite buf | myclose =>
    simp only [Endpoint.step] at st
    split_ifs at st with waits
    cases st
    simp only [Bool.or_eq_true, not_or, Bool.not_eq_true] at waits
    constructor
    · exact waits.1
    · exact waits.2
  | myread bufLen =>
    simp only [Endpoint.step] at st
    split_ifs at st with waits
    simp only [Bool.or_eq_true, not_or, Bool.not_eq_true] at waits
    obtain ⟨⟨data, sock⟩, read, same⟩ := Option.map_eq_some_iff.1 st
    cases same
    unfold myread at read
    split_ifs at read
    · cases read
      exact .myread waits.1 waits.2
    · obtain ⟨_, -, taken⟩ := Option.map_eq_some_iff.1 read
      cases taken
      exact .myread waits.1 waits.2

theorem not_quiesced {e : Endpoint} (opened : e.appClosed = false) : ¬ e.Quiesced := by
  rintro ⟨closed, -⟩
  rw [opened] at closed
  cases closed

theorem Ok.environment {e e' : Endpoint} {a : Action} {o : Obs} (h : e.Ok)
    (st : EnvironmentStep e a e' o) : e'.Ok := by
  cases st with
  | mywrite running opened =>
    refine ⟨h.closing, h.pcOk.mono (fun done => absurd done (not_quiesced opened)) (fun _ => ?_) id⟩
    simp [mywrite, mysockEnqueueBuffer]
  | myclose running opened =>
    exact ⟨fun _ => rfl, h.pcOk.mono (fun done => absurd done (not_quiesced opened)) id id⟩
  | myread => exact ⟨h.closing, h.pcOk⟩
  | deliver =>
    refine ⟨h.closing, h.pcOk.mono id id fun _ => ?_⟩
    simp [mysockEnqueueBuffer]

theorem Ok.step {e e' : Endpoint} {a : Action} {o : Obs} (h : e.Ok)
    (st : e.step a = some (e', o)) : e'.Ok := by
  cases a with
  | transport maxLen fail => exact h.transport (transportStep_of_eq st)
  | _ => exact h.environment (environmentStep_of_eq st (by simp))

theorem ok_init (isActive : Bool) (r : ℕ) : (init isActive r).Ok := by
  refine ⟨fun h => by simp [init, mysockAllocateContext] at h, ?_⟩
  cases isActive <;> exact ⟨rfl, Or.inl rfl⟩

/-- The invariant holds in every state one endpoint reaches, whatever its environment does. -/
theorem Ok.of_run {isActive : Bool} {r : ℕ} {tr : List (Action × Obs)} {e : Endpoint}
    {C : List (Action × Obs) → Endpoint → Action → Prop}
    (run : machine.Runs C (init isActive r) tr e) : e.Ok :=
  run.invariant (I := fun _ e => e.Ok) (ok_init isActive r) fun _ _ _ _ _ _ h _ st => h.step st

/-! ## Work in hand -/

/-- The calls of the `NETWORK_DATA` branch still to be made. -/
def pendingCalls : Pc → List Call
  | .calls _ pending => pending
  | _ => []

/-- The number of bytes the segmentation loop has still to send. -/
def unsentSize : Pc → ℕ
  | .sendData _ _ _ payloadSize => payloadSize.toNat
  | _ => 0

section Work

variable (ev : Event) (ctx : Context)

@[simp] theorem work_loopHead : pendingCalls (loopHead ctx) = [] ∧ unsentSize (loopHead ctx) = 0 := by
  unfold loopHead
  split_ifs <;> exact ⟨rfl, rfl⟩

@[simp] theorem work_afterNetwork :
    pendingCalls (afterNetwork ev ctx) = [] ∧ unsentSize (afterNetwork ev ctx) = 0 := by
  unfold afterNetwork
  split_ifs
  · exact ⟨rfl, rfl⟩
  · exact work_loopHead ctx

@[simp] theorem work_afterApp :
    pendingCalls (afterApp ev ctx) = [] ∧ unsentSize (afterApp ev ctx) = 0 := by
  unfold afterApp
  split_ifs
  · exact ⟨rfl, rfl⟩
  · exact work_afterNetwork ev ctx

@[simp] theorem work_afterWait :
    pendingCalls (afterWait ev ctx) = [] ∧ unsentSize (afterWait ev ctx) = 0 := by
  unfold afterWait
  split_ifs
  · exact ⟨rfl, rfl⟩
  · exact work_afterApp ev ctx

@[simp] theorem work_callsPc (pending : List Call) :
    pendingCalls (callsPc ev pending ctx) = pending ∧ unsentSize (callsPc ev pending ctx) = 0 := by
  unfold callsPc
  split_ifs with none
  · rw [none]
    exact work_afterNetwork ev ctx
  · exact ⟨rfl, rfl⟩

@[simp] theorem work_sendLoop (buffer : List UInt8) (payload payloadSize : ℤ) :
    pendingCalls (sendLoop ev buffer payload payloadSize ctx) = [] ∧
      unsentSize (sendLoop ev buffer payload payloadSize ctx) = payloadSize.toNat := by
  unfold sendLoop
  split_ifs with more
  · exact ⟨rfl, rfl⟩
  · rw [(work_afterApp ev ctx).1, (work_afterApp ev ctx).2]
    exact ⟨rfl, by omega⟩

end Work

/-- The packets that the `NETWORK_DATA` branch is about to send are acknowledgements. -/
def RepliesAck (e : Endpoint) : Prop :=
  ∀ pkt, Call.networkSend pkt ∈ pendingCalls e.pc → ∃ ack, pkt = (ackHeader ack).bytes

theorem networkData_replies {ctx ctx' : Context} {payload1 : List UInt8} {pktSize : ℕ}
    {pending : List Call} (h : networkData ctx payload1 pktSize = (ctx', pending)) (pkt : List UInt8)
    (mem : Call.networkSend pkt ∈ pending) : ∃ ack, pkt = (ackHeader ack).bytes := by
  unfold networkData at h
  dsimp only at h
  split_ifs at h <;> simp only [Prod.mk.injEq] at h <;> obtain ⟨-, rfl⟩ := h
  · simp at mem
  · simp at mem
  · simp only [List.cons_append, List.nil_append, List.mem_cons, List.not_mem_nil, reduceCtorEq,
      Call.networkSend.injEq, or_false, false_or] at mem
    exact ⟨_, mem⟩
  · simp only [List.nil_append, List.mem_cons, List.not_mem_nil, reduceCtorEq,
      Call.networkSend.injEq, or_false, false_or] at mem
    exact ⟨_, mem⟩
  · simp only [List.mem_cons, List.not_mem_nil, reduceCtorEq,
      Call.networkSend.injEq, or_false, false_or] at mem
    exact ⟨_, mem⟩

theorem RepliesAck.transport {e e' : Endpoint} {maxLen : ℕ} {fail : Option ℕ} {o : Obs}
    (h : e.RepliesAck) (st : TransportStep e maxLen fail e' o) : e'.RepliesAck := by
  have idle : ∀ e' : Endpoint, pendingCalls e'.pc = [] → e'.RepliesAck := by
    intro e' none pkt mem
    simp [none] at mem
  cases st with
  | networkRecv pc queue branch =>
    intro pkt mem
    rw [(work_callsPc _ _ _).1] at mem
    exact networkData_replies branch pkt mem
  | @sendData event buffer payload payloadSize pc =>
    unfold sendSegment
    dsimp only
    split_ifs
    · exact idle _ rfl
    · exact idle _ (work_sendLoop ..).1
  | @call event c rest pc =>
    have tail : ∀ e' : Endpoint, e'.pc = callsPc event rest e.ctx → e'.RepliesAck := by
      intro e' pc' pkt mem
      rw [pc', (work_callsPc _ _ _).1] at mem
      exact h pkt (by rw [pc]; exact List.mem_cons_of_mem _ mem)
    cases c with
    | finReceived | networkSend pkt => exact tail _ rfl
    | appSend src srcLen =>
      rw [Endpoint.call]
      split_ifs
      · exact tail _ rfl
      · exact tail _ rfl
      · exact idle _ rfl
  | appRecv | unblock | waitForEvent | sendFin => exact idle _ (by simp [afterSend])
  | sendSyn | recvSynAck | sendAck | recvSyn | sendSynAck | recvAck | appRecvOverflow | finalEof =>
    exact idle _ rfl

/-- A step of the environment leaves the STCP thread where it is. -/
theorem step_environment {e e' : Endpoint} {a : Action} {o : Obs} (st : e.step a = some (e', o))
    (other : ∀ maxLen fail, a ≠ .transport maxLen fail) :
    e'.pc = e.pc ∧ e'.ctx = e.ctx ∧ e'.sock.isActive = e.sock.isActive ∧ o = .quiet := by
  cases environmentStep_of_eq st other with
  | mywrite | myclose | myread | deliver => exact ⟨rfl, rfl, rfl, rfl⟩

theorem RepliesAck.step {e e' : Endpoint} {a : Action} {o : Obs} (h : e.RepliesAck)
    (st : e.step a = some (e', o)) : e'.RepliesAck := by
  cases a with
  | transport maxLen fail => exact h.transport (transportStep_of_eq st)
  | _ =>
    obtain ⟨pc, -⟩ := step_environment st (by simp)
    rw [RepliesAck, pc]
    exact h

theorem repliesAck_of_run {isActive : Bool} {r : ℕ} {tr : List (Action × Obs)} {e : Endpoint}
    {C : List (Action × Obs) → Endpoint → Action → Prop}
    (run : machine.Runs C (init isActive r) tr e) : e.RepliesAck :=
  run.invariant (I := fun _ e => e.RepliesAck)
    (by cases isActive <;> simp [RepliesAck, init, pendingCalls])
    fun _ _ _ _ _ _ h _ st => h.step st

end Endpoint

end ComputerNetwork.Tcp
