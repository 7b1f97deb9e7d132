import ComputerNetwork.Router.Effects

/-!
# The packet thread and the timeout thread

`sr_send_icmp_packet` and `ip_forwarding` look an address up, queue a request and call
`handle_arpreq` on it.  The first two steps hold the lock of the cache, the third does not, and the
timeout thread may sweep between any two of them.  A sweep that destroys the request in between
leaves the packet thread with a dangling pointer; `onQueue_of_run` shows that the pointer is good in
every run whose sweeps spare the request that the packet thread holds.
-/

namespace ComputerNetwork.Router

open Lib

/-! ## The machine -/

/-- Where the packet thread is between a lookup that missed and the `handle_arpreq` that follows. -/
inductive PacketThread where
  | idle
  | missed (gw : UInt32) (packet : List UInt8) (iface : Option Name)
  | queued (addr : ℕ)
  /-- `handle_arpreq` was called on a request that had been freed. -/
  | undefined
  deriving DecidableEq

structure Threads where
  sr : SrInstance
  thread : PacketThread
  deriving DecidableEq

inductive ThreadAction where
  /-- `sr_handle_arp_packet`, in the packet thread. -/
  | arp (packet : List UInt8) (env : Env)
  /-- `sr_arpcache_lookup`, in the packet thread. -/
  | lookup (gw : UInt32) (packet : List UInt8) (iface : Option Name)
  /-- `sr_arpcache_queuereq`, in the packet thread. -/
  | queuereq
  /-- `handle_arpreq`, in the packet thread. -/
  | handle (env : Env) (fuel : ℕ)
  /-- A round of `sr_arpcache_timeout`, in the timeout thread. -/
  | sweep (env : Env) (fuel : ℕ)

/-- What a step shows: `handle_arpreq` was called on a request, which was on `cache.requests` or
not. -/
inductive Shown where
  | nothing
  | handles (addr : ℕ) (onQueue : Bool)
  deriving DecidableEq

def threadStep (s : Threads) : ThreadAction → Option (Threads × Shown)
  | .arp packet env =>
    match s.thread with
    | .idle =>
      match srHandleArpPacket env (.start s.sr) packet with
      | .ok c => some ({ s with sr := c.sr }, .nothing)
      | .error _ => none
    | _ => none
  | .lookup gw packet iface =>
    match s.thread with
    | .idle =>
      match srArpcacheLookup s.sr.cache gw with
      | some _ => some (s, .nothing)
      | none => some ({ s with thread := .missed gw packet iface }, .nothing)
    | _ => none
  | .queuereq =>
    match s.thread with
    | .missed gw packet iface =>
      let (cache, addr) := srArpcacheQueuereq s.sr.cache gw packet iface
      some ({ sr := { s.sr with cache }, thread := .queued addr }, .nothing)
    | _ => none
  | .handle env fuel =>
    match s.thread with
    | .queued addr =>
      if (s.sr.cache.find addr).isSome then
        match handleArpreq env fuel addr (.start s.sr) with
        | .ok c => some ({ sr := c.sr, thread := .idle }, .handles addr true)
        | .error _ => none
      else some ({ s with thread := .undefined }, .handles addr false)
    | _ => none
  | .sweep env fuel =>
    match srArpcacheTimeout env fuel (.start s.sr) with
    | .ok c => some ({ s with sr := c.sr }, .nothing)
    | .error _ => none

def threads : Machine Threads ThreadAction Shown where
  step := threadStep

/-- Every request that the packet thread handles is still on the queue. -/
def AllOnQueue (tr : List (ThreadAction × Shown)) : Prop :=
  ∀ entry ∈ tr, ∀ addr onQueue, entry.2 = .handles addr onQueue → onQueue = true

/-! ## Sweeps that spare a request -/

/-- The request is not due at any reading of the clock, or it has not been sent five times and all
readings are within a second of each other. -/
def Spared (env : Env) (req : SrArpreq) : Prop :=
  (∀ k, env.time k ≤ req.sent + 1) ∨
    req.timesSent < 5 ∧ ∀ j k, env.time k ≤ env.time j + 1

/-- A sweep spares the request that the packet thread holds a pointer to. -/
def SparesHeld (s : Threads) : ThreadAction → Prop
  | .sweep env _ => ∀ addr req, s.thread = .queued addr → s.sr.cache.find addr = some req →
      Spared env req
  | _ => True

/-- The request at `addr` is on the queue and spared. -/
def Holds (env : Env) (addr : ℕ) (c : Call) : Prop :=
  ∃ req ∈ c.sr.cache.requests, req.addr = addr ∧ Spared env req

/-- A spared request is not given up and stays spared, whatever else happens. -/
theorem Does.holds {env : Env} {c c' : Call} {addr : ℕ} (does : Does env c c')
    (held : Holds env addr c) : Holds env addr c' := by
  induction does with
  | refl | malloc | early => exact held
  | trans _ _ ih ih' => exact ih' (ih held)
  | icmp | forward =>
    rw [srSendPacket_eq]
    exact held
  | queue c gw packet iface =>
    obtain ⟨req, mem, same, spared⟩ := held
    obtain ⟨packets, mem'⟩ := mem_queuereq_of_mem mem gw packet iface
    exact ⟨_, mem', same, spared⟩
  | @ask c addr' other found due rare =>
    obtain ⟨req, mem, same, spared⟩ := held
    obtain ⟨mem', same'⟩ := find_eq_some_iff.1 found
    simp only [askAgain, srSendArpRequest_eq]
    by_cases self : req.addr = addr'
    · obtain rfl : req = other :=
        Option.some.inj ((find_eq_some_iff.2 ⟨mem, self⟩).symm.trans found)
      refine ⟨_, List.mem_map_of_mem mem, ?_, ?_⟩
      · simp [self, ← same]
      · rw [if_pos self]
        rcases spared with young | ⟨-, close⟩
        · exact absurd due (Nat.not_lt.2 (young _))
        · exact Or.inl fun k => close _ k
    · refine ⟨_, List.mem_map_of_mem mem, ?_, ?_⟩
      · rw [if_neg self]
        exact same
      · rw [if_neg self]
        exact spared
  | @giveUp c c₁ addr' other last found due often told still ih =>
    obtain ⟨req, mem, same, spared⟩ := held
    have apart : addr' ≠ addr := by
      rintro rfl
      obtain rfl : req = other :=
        Option.some.inj ((find_eq_some_iff.2 ⟨mem, same⟩).symm.trans found)
      rcases spared with young | ⟨rare, -⟩
      · exact absurd due (Nat.not_lt.2 (young _))
      · omega
    obtain ⟨req', mem', same', spared'⟩ := ih ⟨req, mem, same, spared⟩
    refine ⟨req', (List.mem_eraseP_of_neg ?_).2 mem', same', spared'⟩
    simpa [same'] using apart.symm

/-! ## Runs -/

/-- The pointer that the packet thread holds is good. -/
def HeldOnQueue (s : Threads) : Prop :=
  ∀ addr, s.thread = .queued addr → (s.sr.cache.find addr).isSome

theorem queuereq_isSome (cache : SrArpcache) (gw : UInt32) (packet : List UInt8)
    (iface : Option Name) :
    ((srArpcacheQueuereq cache gw packet iface).1.find
      (srArpcacheQueuereq cache gw packet iface).2).isSome := by
  obtain ⟨-, pre, req, rest, queue, ptr, -⟩ := requestFor_spec cache gw
  obtain ⟨-, packets, queue', -⟩ := enqueue_spec queue packet iface
  have found := (find_eq queue').1
  rw [ptr] at found
  exact Option.isSome_of_mem found

/-- A sweep that spares the held request leaves it on the queue. -/
theorem sweep_heldOnQueue {s : Threads} {env : Env} {fuel : ℕ} {c : Call} (good : HeldOnQueue s)
    (spares : SparesHeld s (.sweep env fuel))
    (run : srArpcacheTimeout env fuel (.start s.sr) = .ok c) :
    HeldOnQueue { s with sr := c.sr } := by
  intro addr held
  obtain ⟨req, found⟩ := Option.isSome_iff_exists.1 (good addr held)
  obtain ⟨mem, same⟩ := find_eq_some_iff.1 found
  obtain ⟨req', mem', same', -⟩ := (srArpcacheTimeout_does run).holds
    ⟨req, mem, same, spares addr req held found⟩
  exact Option.isSome_iff_exists.2 ⟨req', find_eq_some_iff.2 ⟨mem', same'⟩⟩

theorem threadStep_heldOnQueue {s s' : Threads} {a : ThreadAction} {o : Shown}
    (st : threadStep s a = some (s', o)) (good : HeldOnQueue s) (spares : SparesHeld s a) :
    HeldOnQueue s' ∧ ∀ addr onQueue, o = .handles addr onQueue → onQueue = true := by
  have idle : ∀ (sr : SrInstance) (t : PacketThread), (∀ addr, t ≠ .queued addr) →
      HeldOnQueue ⟨sr, t⟩ := fun sr t other addr held => absurd held (other addr)
  cases a with
  | arp packet env =>
    simp only [threadStep] at st
    split at st
    · rename_i free
      split at st
      · cases st
        exact ⟨idle _ _ (by simp [free]), by simp⟩
      · cases st
    · cases st
  | lookup gw packet iface =>
    simp only [threadStep] at st
    split at st
    · split at st
      · cases st
        exact ⟨good, by simp⟩
      · cases st
        exact ⟨idle _ _ (by simp), by simp⟩
    · cases st
  | queuereq =>
    simp only [threadStep] at st
    split at st
    · cases st
      refine ⟨fun addr held => ?_, by simp⟩
      cases held
      exact queuereq_isSome ..
    · cases st
  | handle env fuel =>
    simp only [threadStep] at st
    split at st
    · rename_i addr held
      rw [if_pos (good addr held)] at st
      split at st
      · cases st
        refine ⟨idle _ _ (by simp), ?_⟩
        rintro addr' onQueue ⟨⟩
        rfl
      · cases st
    · cases st
  | sweep env fuel =>
    simp only [threadStep] at st
    split at st
    · rename_i c run
      cases st
      exact ⟨sweep_heldOnQueue good spares run, by simp⟩
    · cases st

/-- In every run whose sweeps spare the request that the packet thread holds, `handle_arpreq` is only
called on requests that are on the queue. -/
theorem onQueue_of_run {sr : SrInstance} {tr : List (ThreadAction × Shown)} {s : Threads}
    (run : threads.Runs (fun _ s a => SparesHeld s a) ⟨sr, .idle⟩ tr s) : AllOnQueue tr := by
  have both : HeldOnQueue s ∧ AllOnQueue tr := by
    refine run.invariant (I := fun tr s => HeldOnQueue s ∧ AllOnQueue tr) ?_ ?_
    · exact ⟨fun addr held => (by cases held), by simp [AllOnQueue]⟩
    · intro tr s a o s' _ before spares st
      obtain ⟨good, shown⟩ := threadStep_heldOnQueue st before.1 spares
      refine ⟨good, fun entry mem => ?_⟩
      cases List.mem_append.1 mem with
      | inl mem => exact before.2 entry mem
      | inr mem =>
        rw [List.mem_singleton.1 mem]
        exact shown
  exact both.2

/-- A new request is swept before the packet thread handles it. -/
theorem onQueue_of_run_swept : ∃ tr s,
    threads.Runs (fun _ s a => SparesHeld s a) ⟨twoInterfaces, .idle⟩ tr s ∧
      tr.map Prod.snd = [.nothing, .nothing, .nothing, .handles 0 true] ∧ AllOnQueue tr := by
  obtain ⟨tr, s, run, shown⟩ := Machine.Runs.exists_of_exec_all (M := threads)
    (i := ⟨twoInterfaces, .idle⟩)
    (C := fun _ s _ => s.sr.cache.requests.all fun req => req.timesSent < 5)
    (D := fun a => ∀ env fuel, a = .sweep env fuel → ∀ j k, env.time k ≤ env.time j + 1)
    (P := fun tr _ => tr.map Prod.snd = [.nothing, .nothing, .nothing, .handles 0 true])
    [.lookup 0x0200a8c0 unroutable none, .queuereq, .sweep (envAt 5) 2, .handle (envAt 6) 2]
    (by simp [envAt]) (by decide +kernel)
  have spared := run.mono (D := fun _ s a => SparesHeld s a) fun tr s a cond => by
    cases a with
    | sweep env fuel =>
      intro addr req _ found
      have few := List.all_eq_true.1 cond.1 req (find_eq_some_iff.1 found).1
      exact Or.inr ⟨of_decide_eq_true few, cond.2 env fuel rfl⟩
    | _ => trivial
  exact ⟨tr, s, spared, shown, onQueue_of_run spared⟩

/-- A request that has been sent five times is queued on again; the sweep destroys it before the
packet thread handles it. -/
theorem not_onQueue_fifth : ¬ ∀ (sr : SrInstance) tr s, threads.Run ⟨sr, .idle⟩ tr s →
    AllOnQueue tr := by
  intro all
  obtain ⟨tr, s, run, freed⟩ := Machine.Runs.exists_of_exec (M := threads)
    (i := ⟨twoInterfaces, .idle⟩) (C := fun _ _ _ => true)
    (P := fun tr _ => (tr.any fun entry => entry.2 = .handles 0 false) = true)
    [.lookup 0x0200a8c0 unroutable none, .queuereq, .handle (envAt 5) 2, .sweep (envAt 7) 2,
      .sweep (envAt 9) 2, .sweep (envAt 11) 2, .sweep (envAt 13) 2,
      .lookup 0x0200a8c0 unroutable none, .queuereq, .sweep (envAt 15) 2, .handle (envAt 15) 2]
    (by decide +kernel)
  obtain ⟨entry, mem, shown⟩ := List.any_eq_true.1 freed
  have onQueue := all twoInterfaces tr s (run.mono fun _ _ _ _ => trivial) entry mem 0 false
    (of_decide_eq_true shown)
  cases onQueue

end ComputerNetwork.Router
