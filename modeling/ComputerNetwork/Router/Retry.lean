import ComputerNetwork.Router.Effects

/-!
# The ARP retry law

The log shows each round of `sr_send_arp_request` and each request that `handle_arpreq` gives up, so
the life of a request can be read from it.  `retry_law` holds of every run in which the two readings
of the clock at the head of `handle_arpreq` agree: a request's counter is the number of its rounds,
there are at most five, more than a second apart, and a request is given up more than a second after
the fifth.
-/

namespace ComputerNetwork.Router

open Lib

/-! ## The law -/

/-- The times of the rounds for the request at `addr`. -/
def rounds (addr : ℕ) (log : List Event) : List ℕ :=
  log.filterMap fun
    | .asked a now => if a = addr then some now else none
    | _ => none

/-- What the log says about the rounds for each request and about the requests that left. -/
structure RoundsLawful (log : List Event) : Prop where
  most : ∀ addr, (rounds addr log).length ≤ 5
  spaced : ∀ addr, (rounds addr log).IsChain fun t t' => t + 1 < t'
  left : ∀ req before after, log = before ++ .left req :: after →
    req.timesSent = (rounds req.addr before).length
  gaveUp : ∀ addr now before after, log = before ++ .gaveUp addr now :: after →
    (rounds addr before).length = 5 ∧ ∀ last ∈ (rounds addr before).getLast?, last + 1 < now

/-- The readings of the clock from the `n`th on come in equal pairs. -/
def Paired (env : Env) (n : ℕ) : Prop := ∀ k, env.time (n + 2 * k) = env.time (n + 2 * k + 1)

/-- Each call of `handle_arpreq` reads the clock as if once.  The timeout thread has read the clock
before it sweeps. -/
def OneReading : Action → Prop
  | .receive _ _ env _ => Paired env 0
  | .timeout env _ => Paired env 1

/-- The events of a run. -/
def history (tr : List (Action × List Event)) : List Event := tr.flatMap Prod.snd

/-! ## Logs that grow -/

theorem rounds_append (addr : ℕ) (log new : List Event) :
    rounds addr (log ++ new) = rounds addr log ++ rounds addr new :=
  List.filterMap_append

theorem rounds_asked (addr a now : ℕ) (log : List Event) :
    rounds addr (log ++ [.asked a now]) =
      if a = addr then rounds addr log ++ [now] else rounds addr log := by
  rw [rounds_append]
  split_ifs with same <;> simp [rounds, same]

/-- An event that is neither a round nor a departure. -/
def Event.quiet : Event → Bool
  | .transmit .. | .refused .. | .learned .. => true
  | _ => false

theorem quiet_sendEvent (ifs : List SrIf) (buf : List UInt8) (iface : Name) :
    (sendEvent ifs buf iface).quiet = true := by
  unfold sendEvent
  split_ifs <;> rfl

theorem rounds_of_ne {e : Event} (other : ∀ a now, e ≠ .asked a now) (addr : ℕ)
    (log : List Event) : rounds addr (log ++ [e]) = rounds addr log := by
  rw [rounds_append]
  cases e with
  | asked a now => exact absurd rfl (other a now)
  | _ => simp [rounds]

namespace RoundsLawful

variable {log : List Event}

theorem nil : RoundsLawful [] where
  most := by simp [rounds]
  spaced := by simp [rounds]
  left := by simp
  gaveUp := by simp

theorem snoc (law : RoundsLawful log) {e : Event} (other : ∀ a now, e ≠ .asked a now)
    (left : ∀ req, e = .left req → req.timesSent = (rounds req.addr log).length)
    (gaveUp : ∀ addr now, e = .gaveUp addr now → (rounds addr log).length = 5 ∧
      ∀ last ∈ (rounds addr log).getLast?, last + 1 < now) : RoundsLawful (log ++ [e]) where
  most addr := by
    rw [rounds_of_ne other]
    exact law.most addr
  spaced addr := by
    rw [rounds_of_ne other]
    exact law.spaced addr
  left req before after eq := by
    rcases snoc_eq_append_cons eq with ⟨rfl, same, -⟩ | ⟨after', old, -⟩
    · exact left req same.symm
    · exact law.left req before after' old
  gaveUp addr now before after eq := by
    rcases snoc_eq_append_cons eq with ⟨rfl, same, -⟩ | ⟨after', old, -⟩
    · exact gaveUp addr now same.symm
    · exact law.gaveUp addr now before after' old

theorem quiet (law : RoundsLawful log) {e : Event} (still : e.quiet = true) :
    RoundsLawful (log ++ [e]) := by
  refine law.snoc ?_ ?_ ?_
  · rintro a now rfl
    cases still
  · rintro req rfl
    cases still
  · rintro addr now rfl
    cases still

theorem asked (law : RoundsLawful log) {a now : ℕ} (few : (rounds a log).length < 5)
    (late : ∀ last ∈ (rounds a log).getLast?, last + 1 < now) :
    RoundsLawful (log ++ [.asked a now]) where
  most addr := by
    rw [rounds_asked]
    split_ifs with same
    · subst same
      rw [List.length_append, List.length_singleton]
      exact few
    · exact law.most addr
  spaced addr := by
    rw [rounds_asked]
    split_ifs with same
    · subst same
      refine List.isChain_append.2 ⟨law.spaced a, List.isChain_singleton now, ?_⟩
      intro last isLast next isNext
      obtain rfl : now = next := by simpa using isNext
      exact late last isLast
    · exact law.spaced addr
  left req before after eq := by
    rcases snoc_eq_append_cons eq with ⟨-, same, -⟩ | ⟨after', old, -⟩
    · cases same
    · exact law.left req before after' old
  gaveUp addr now' before after eq := by
    rcases snoc_eq_append_cons eq with ⟨-, same, -⟩ | ⟨after', old, -⟩
    · cases same
    · exact law.gaveUp addr now' before after' old

end RoundsLawful

/-! ## The invariant -/

/-- The log and the queue agree: a request's counter counts its rounds and its time is that of the
last one; a request that is still to be made has none. -/
structure Lawful (log : List Event) (cache : SrArpcache) : Prop extends RoundsLawful log where
  counted : ∀ req ∈ cache.requests, req.timesSent = (rounds req.addr log).length
  last : ∀ req ∈ cache.requests, ∀ t ∈ (rounds req.addr log).getLast?, t = req.sent
  unborn : ∀ addr, cache.freshAddr ≤ addr → rounds addr log = []

namespace Lawful

variable {log : List Event} {cache cache' : SrArpcache}

/-- Events that are no rounds, and requests that leave. -/
theorem keep (law : Lawful log cache) {log' : List Event} (lawful : RoundsLawful log')
    (same : ∀ addr, rounds addr log' = rounds addr log)
    (requests : ∀ req ∈ cache'.requests, req ∈ cache.requests)
    (fresh : cache'.freshAddr = cache.freshAddr) : Lawful log' cache' where
  toRoundsLawful := lawful
  counted req mem := by
    rw [same]
    exact law.counted req (requests req mem)
  last req mem := by
    rw [same]
    exact law.last req (requests req mem)
  unborn addr young := by
    rw [same]
    exact law.unborn addr (fresh ▸ young)

theorem quiet (law : Lawful log cache) {e : Event} (still : e.quiet = true) :
    Lawful (log ++ [e]) cache := by
  refine law.keep (law.toRoundsLawful.quiet still)
    (fun addr => rounds_of_ne ?_ addr log) (fun _ mem => mem) rfl
  rintro a now rfl
  cases still

theorem quiet_all (law : Lawful log cache) (new : List Event) (still : ∀ e ∈ new, e.quiet = true) :
    Lawful (log ++ new) cache := by
  induction new generalizing log with
  | nil => simpa using law
  | cons e rest ih =>
    rw [← List.singleton_append, ← List.append_assoc]
    exact ih (law.quiet (still e (List.mem_cons_self ..))) fun e mem =>
      still e (List.mem_cons_of_mem _ mem)

theorem queue (law : Lawful log cache) (gw : UInt32) (packet : List UInt8) (iface : Option Name) :
    Lawful log (srArpcacheQueuereq cache gw packet iface).1 where
  toRoundsLawful := law.toRoundsLawful
  counted req mem := by
    rcases mem_queuereq mem with ⟨old, waits, same⟩ | ⟨new, zero⟩
    · rw [same]
      exact law.counted old waits
    · rw [zero, law.unborn req.addr new.ge]
      rfl
  last req mem := by
    rcases mem_queuereq mem with ⟨old, waits, same⟩ | ⟨new, -⟩
    · rw [same]
      exact law.last old waits
    · rw [law.unborn req.addr new.ge]
      simp
  unborn addr young := law.unborn addr ((freshAddr_queuereq ..).trans young)

theorem ask (law : Lawful log cache) {req : SrArpreq} {now : ℕ} (mem : req ∈ cache.requests)
    (rare : req.timesSent < 5) (due : req.sent + 1 < now) :
    Lawful (log ++ [.asked req.addr now]) (cache.update req.addr
      (fun r => { r with sent := now, timesSent := r.timesSent + 1 }) fun _ => rfl) := by
  have few : (rounds req.addr log).length < 5 := by
    rw [← law.counted req mem]
    exact rare
  have late : ∀ last ∈ (rounds req.addr log).getLast?, last + 1 < now := by
    intro last isLast
    rw [law.last req mem last isLast]
    exact due
  refine ⟨law.toRoundsLawful.asked few late, ?_, ?_, ?_⟩
  · intro r hr
    obtain ⟨r', hr', rfl⟩ := List.mem_map.1 hr
    rw [rounds_asked]
    by_cases same : r'.addr = req.addr
    · simp [same, law.counted r' hr']
    · simp only [if_neg same, if_neg (Ne.symm same)]
      exact law.counted r' hr'
  · intro r hr t isLast
    obtain ⟨r', hr', rfl⟩ := List.mem_map.1 hr
    rw [rounds_asked] at isLast
    by_cases same : r'.addr = req.addr
    · simp only [same, if_true, List.getLast?_concat, Option.mem_def, Option.some.injEq] at isLast
      simp [same, isLast]
    · simp only [if_neg same, if_neg (Ne.symm same)] at isLast ⊢
      exact law.last r' hr' t isLast
  · intro addr young
    have older : req.addr ≠ addr := ((cache.below req mem).trans_le young).ne
    rw [rounds_asked, if_neg older]
    exact law.unborn addr young

theorem abandon (law : Lawful log cache) {req : SrArpreq} {now : ℕ} (mem : req ∈ cache.requests)
    (five : (rounds req.addr log).length = 5)
    (late : ∀ last ∈ (rounds req.addr log).getLast?, last + 1 < now) :
    Lawful (log ++ [.gaveUp req.addr now] ++ [.left req]) (srArpreqDestroy cache req.addr) := by
  have gaveUp : RoundsLawful (log ++ [.gaveUp req.addr now]) := by
    refine law.toRoundsLawful.snoc (by simp) (by simp) ?_
    rintro addr now' ⟨⟩
    exact ⟨five, late⟩
  have same : ∀ addr, rounds addr (log ++ [.gaveUp req.addr now]) = rounds addr log :=
    fun addr => rounds_of_ne (by simp) addr log
  have left : RoundsLawful (log ++ [.gaveUp req.addr now] ++ [.left req]) := by
    refine gaveUp.snoc (by simp) ?_ (by simp)
    rintro req' ⟨⟩
    rw [same]
    exact law.counted req mem
  refine law.keep left (fun addr => ?_) (fun r hr => List.mem_of_mem_eraseP hr) rfl
  rw [rounds_of_ne (by simp), same]

end Lawful

/-! ## Calls -/

theorem Does.log_isPrefix {env : Env} {c c' : Call} (does : Does env c c') : c.log <+: c'.log := by
  induction does with
  | refl | malloc | queue | early => exact List.prefix_refl _
  | trans _ _ ih ih' => exact ih.trans ih'
  | icmp | forward =>
    rw [srSendPacket_eq]
    exact List.prefix_append ..
  | ask =>
    simp only [askAgain, srSendArpRequest_eq]
    exact (List.prefix_append _ _).trans (List.prefix_append _ _)
  | giveUp _ _ _ _ _ ih => exact (ih.trans (List.prefix_append _ _)).trans (List.prefix_append _ _)

/-- The rounds of a request are settled once there are five. -/
theorem rounds_eq_of_isPrefix {log log' : List Event} (grown : log <+: log')
    (law : RoundsLawful log') {addr : ℕ} (five : 5 ≤ (rounds addr log).length) :
    rounds addr log' = rounds addr log := by
  obtain ⟨new, rfl⟩ := grown
  have most := law.most addr
  rw [rounds_append, List.length_append] at most
  rw [rounds_append, List.length_eq_zero_iff.1 (by omega : (rounds addr new).length = 0),
    List.append_nil]

theorem Paired.add_two {env : Env} {n : ℕ} (paired : Paired env n) : Paired env (n + 2) := by
  intro k
  have step := paired (k + 1)
  rwa [show n + 2 * (k + 1) = n + 2 + 2 * k by ring] at step

/-- What `handle_arpreq` and its callers do keeps the law, whatever was in the log before. -/
theorem Does.lawful {env : Env} {c c' : Call} (does : Does env c c') (past : List Event)
    (paired : Paired env c.timeReads) (law : Lawful (past ++ c.log) c.sr.cache) :
    Lawful (past ++ c'.log) c'.sr.cache ∧ Paired env c'.timeReads := by
  induction does with
  | refl | malloc => exact ⟨law, paired⟩
  | trans _ _ ih ih' =>
    obtain ⟨law', paired'⟩ := ih paired law
    exact ih' paired' law'
  | icmp | forward =>
    rw [srSendPacket_eq]
    refine ⟨?_, paired⟩
    simp only [Call.emit, ← List.append_assoc]
    exact law.quiet (quiet_sendEvent ..)
  | queue => exact ⟨law.queue .., paired⟩
  | early => exact ⟨law, paired.add_two⟩
  | @ask c addr req found due rare =>
    obtain ⟨rfl, pre, rest, queue⟩ := exists_queue found
    have mem : req ∈ c.sr.cache.requests := by simp [queue]
    have one : env.time c.timeReads = env.time (c.timeReads + 1) := paired 0
    have sent := law.quiet_all (c.sr.ifList.map fun i => sendEvent c.sr.ifList (arpRequest i req.ip)
      i.name) (by simp [quiet_sendEvent])
    simp only [askAgain, srSendArpRequest_eq, Call.emit, Call.setCache, ← List.append_assoc]
    exact ⟨sent.ask mem rare (one ▸ due), paired.add_two⟩
  | @giveUp c c₁ addr req last found due often told still ih =>
    obtain ⟨law', paired'⟩ := ih paired.add_two law
    obtain ⟨rfl, pre, rest, queue⟩ := exists_queue found
    have mem : req ∈ c.sr.cache.requests := by simp [queue]
    obtain ⟨same, pre', rest', queue'⟩ := exists_queue still
    have mem' : last ∈ c₁.sr.cache.requests := by simp [queue']
    have five : 5 ≤ (rounds req.addr (past ++ c.log)).length := law.counted req mem ▸ often
    -- no round was made while the sources were told
    have settled : rounds req.addr (past ++ c₁.log) = rounds req.addr (past ++ c.log) :=
      rounds_eq_of_isPrefix ((List.prefix_append_right_inj past).2 told.log_isPrefix)
        law'.toRoundsLawful five
    refine ⟨?_, paired'⟩
    simp only [Router.abandon, Call.emit, Call.setCache, ← List.append_assoc, ← same]
    refine law'.abandon mem' ?_ ?_
    · rw [same, settled]
      exact le_antisymm (law.most req.addr) five
    · intro t isLast
      rw [same, settled] at isLast
      rw [law.last req mem t isLast]
      exact due

theorem learn_lawful {c : Call} (env : Env) (mac : Mac) (ip : UInt32) (past : List Event)
    (law : Lawful (past ++ c.log) c.sr.cache) :
    Lawful (past ++ (learn env c mac ip).log) (learn env c mac ip).sr.cache := by
  have learned := law.quiet (e := .learned ip mac) rfl
  unfold learn
  dsimp only [Call.time, srArpcacheInsert]
  rcases waiting : c.sr.cache.findIp ip with _ | req
  · simp only [Call.emit, Call.setCache, ← List.append_assoc]
    exact learned.keep learned.toRoundsLawful (fun _ => rfl)
      (fun r hr => List.mem_of_mem_eraseP hr) rfl
  · have mem : req ∈ c.sr.cache.requests := List.mem_of_find?_eq_some waiting
    simp only [Call.emit, Call.setCache, ← List.append_assoc]
    have left : RoundsLawful (past ++ c.log ++ [.learned ip mac] ++ [.left req]) := by
      refine learned.toRoundsLawful.snoc (by simp) ?_ (by simp)
      rintro req' ⟨⟩
      exact learned.counted req mem
    exact learned.keep left (fun addr => rounds_of_ne (by simp) addr _)
      (fun r hr => List.mem_of_mem_eraseP hr) rfl

theorem send_lawful {c : Call} {buf : List UInt8} {iface : Name} {past : List Event}
    (law : Lawful (past ++ c.log) c.sr.cache) :
    Lawful (past ++ (srSendPacket c buf iface).log) (srSendPacket c buf iface).sr.cache := by
  rw [srSendPacket_eq]
  simp only [Call.emit, ← List.append_assoc]
  exact law.quiet (quiet_sendEvent ..)

theorem perform_lawful {sr : SrInstance} {a : Action} {c' : Call} (run : perform sr a = .ok c')
    (one : OneReading a) {past : List Event} (law : Lawful past sr.cache) :
    Lawful (past ++ c'.log) c'.sr.cache := by
  have start : Lawful (past ++ (Call.start sr).log) (Call.start sr).sr.cache := by
    simpa [Call.start] using law
  cases a with
  | receive packet interface env fuel =>
    rcases srHandlepacket_cases run with ⟨-, i, -, eq⟩ | ⟨-, -, i, -, eq⟩ | eq | does
    · rw [eq]
      exact send_lawful start
    · rw [eq]
      exact send_lawful (learn_lawful env _ _ past start)
    · rw [eq]
      exact learn_lawful env _ _ past start
    · exact (does.lawful past one start).1
  | timeout env fuel =>
    refine ((srArpcacheTimeout_does run).lawful past one ?_).1
    exact start.keep start.toRoundsLawful (fun _ => rfl) (fun _ mem => mem) rfl

theorem lawful_of_run {ifs : List SrIf} {routes : List SrRt} {tr : List (Action × List Event)}
    {sr : SrInstance} (run : machine.Runs (fun _ _ a => OneReading a) (init ifs routes) tr sr) :
    Lawful (history tr) sr.cache := by
  refine run.invariant (I := fun tr sr => Lawful (history tr) sr.cache) ?_ ?_
  · exact ⟨.nil, by simp [init, srArpcacheInit], by simp [init, srArpcacheInit],
      by simp [history, rounds]⟩
  · intro tr sr a log sr' _ law one st
    change step sr a = some (sr', log) at st
    unfold step at st
    split at st
    · rename_i c performed
      cases st
      rw [history, List.flatMap_append, List.flatMap_singleton]
      exact perform_lawful performed one law
    · cases st

/-- In every run, the rounds of a request are counted by `times_sent`, at most five and more than a
second apart, and a request is given up only after five and more than a second after the last. -/
theorem retry_law {ifs : List SrIf} {routes : List SrRt} {tr : List (Action × List Event)}
    {sr : SrInstance} (run : machine.Runs (fun _ _ a => OneReading a) (init ifs routes) tr sr) :
    RoundsLawful (history tr) ∧ ∀ req ∈ sr.cache.requests,
      req.timesSent = (rounds req.addr (history tr)).length ∧ req.timesSent ≤ 5 := by
  have law := lawful_of_run run
  refine ⟨law.toRoundsLawful, fun req mem => ⟨law.counted req mem, ?_⟩⟩
  rw [law.counted req mem]
  exact law.most req.addr

/-- Five rounds, two seconds apart, and the request is given up after two more. -/
theorem retry_law_expired : ∃ tr sr,
    machine.Runs (fun _ _ a => OneReading a) twoInterfaces tr sr ∧
      (rounds 0 (history tr) = [5, 7, 9, 11, 13] ∧ .gaveUp 0 15 ∈ history tr) ∧
      RoundsLawful (history tr) ∧ ∀ req ∈ sr.cache.requests,
        req.timesSent = (rounds req.addr (history tr)).length ∧ req.timesSent ≤ 5 := by
  obtain ⟨tr, sr, run, asked⟩ := Machine.Runs.exists_of_exec_all (M := machine)
    (C := fun _ _ _ => true) (D := OneReading) (i := twoInterfaces)
    (P := fun tr _ => rounds 0 (history tr) = [5, 7, 9, 11, 13] ∧ .gaveUp 0 15 ∈ history tr)
    [.receive (arpReplyFrom 0x0101000a) [101, 48] (envAt 5) 2,
      .receive unroutable [101, 48] (envAt 5) 2, .timeout (envAt 7) 2, .timeout (envAt 9) 2,
      .timeout (envAt 11) 2, .timeout (envAt 13) 2, .timeout (envAt 15) 2]
    (by simp [OneReading, Paired, envAt]) (by decide +kernel)
  have paired := run.mono fun _ _ _ cond => cond.2
  exact ⟨tr, sr, paired, asked, retry_law paired⟩

end ComputerNetwork.Router
