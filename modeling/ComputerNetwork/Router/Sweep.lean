import Mathlib.Data.List.TakeWhile
import ComputerNetwork.Router.Termination

/-!
# The pointer the sweep has saved

`sr_arpcache_sweepreqs` saves the pointer to the next request before it handles one.  The errors that
are sent when a request is given up can make others be given up too, and the saved one among them
(`sweepLive_iff`).
-/

namespace ComputerNetwork.Router

open Lib

/-- The pointers that the loop of `sr_arpcache_sweepreqs` passes to `handle_arpreq`, each with the call
at that moment. -/
def sweepCalls (env : Env) (fuel : ℕ) : ℕ → Option ℕ → Call → List (ℕ × Call)
  | _, none, _ => []
  | 0, some _, _ => []
  | n + 1, some req, c => (req, c) ::
    match c.sr.cache.next req with
    | none => []
    | some next =>
      match handleArpreq env fuel req c with
      | .error _ => []
      | .ok c => sweepCalls env fuel n next c

/-- Every pointer that the sweep passes on points to a request of the queue. -/
def SweepLive (env : Env) (c : Call) : Prop :=
  ∀ fuel n, ∀ x ∈ sweepCalls env fuel n (c.sr.cache.requests.head?.map SrArpreq.addr) c,
    (x.2.sr.cache.find x.1).isSome

section Loop

variable {env : Env} {fuel n : ℕ} {c : Call} {t : ℕ}

theorem next_of_freed {cache : SrArpcache} {addr : ℕ} (freed : cache.find addr = none) :
    cache.next addr = none := by
  have absent : ∀ r ∈ cache.requests, r.addr ≠ addr := by
    simpa [SrArpcache.find] using freed
  have none_left : cache.requests.dropWhile (fun r => r.addr ≠ addr) = [] :=
    List.dropWhile_eq_nil_iff.2 (by simpa using absent)
  rw [SrArpcache.next, none_left]

/-- A pointer to a freed request is what the sweep fails at. -/
theorem sweepFrom_of_freed {req : Option ℕ} {x : ℕ × Call} (passed : x ∈ sweepCalls env fuel n req c)
    (freed : x.2.sr.cache.find x.1 = none) : sweepFrom env fuel n req c = .error .useAfterFree := by
  induction n generalizing req c with
  | zero => cases req <;> cases passed
  | succ n ih =>
    cases req with
    | none => cases passed
    | some addr =>
      rw [sweepCalls] at passed
      rw [sweepFrom]
      cases List.mem_cons.1 passed with
      | inl first =>
        rw [first] at freed
        rw [next_of_freed freed]
      | inr later =>
        cases behind : c.sr.cache.next addr with
        | none => rfl
        | some next =>
          rw [behind] at later
          cases handled : handleArpreq env fuel addr c with
          | error e =>
            rw [handled] at later
            cases later
          | ok c' =>
            rw [handled] at later
            exact ih later

end Loop

/-! ## What is behind a request that was handled -/

section Behind

variable {env : Env} {t fuel : ℕ} {c c' : Call} {req : SrArpreq}

theorem eq_filter_of_sublist {α : Type*} {l l' : List α} {p : α → Bool} (sub : l'.Sublist l)
    (distinct : l.Nodup) (same : ∀ x ∈ l, x ∈ l' ↔ p x = true) : l' = l.filter p := by
  induction sub with
  | slnil => rfl
  | @cons l₁ l₂ a sub ih =>
    rw [List.nodup_cons] at distinct
    have out : ¬ p a = true := fun h =>
      distinct.1 (sub.subset ((same a (List.mem_cons_self ..)).2 h))
    rw [List.filter_cons_of_neg out]
    exact ih distinct.2 fun x mem => same x (List.mem_cons_of_mem _ mem)
  | @cons_cons l₁ l₂ a sub ih =>
    rw [List.nodup_cons] at distinct
    have here : p a = true := (same a (List.mem_cons_self ..)).1 (List.mem_cons_self ..)
    have rest : l₁ = l₂.filter p := by
      refine ih distinct.2 fun x mem => ?_
      have other : x ≠ a := by
        rintro rfl
        exact distinct.1 mem
      rw [← same x (List.mem_cons_of_mem _ mem), List.mem_cons, or_iff_right other]
    rw [List.filter_cons_of_pos here, ← rest]

theorem mem_kept_iff {sr sr' : SrInstance} {gone : UInt32 → Prop} (unique : OnePerIp sr.cache)
    (evolves : Evolves t sr sr')
    (wiped : exhausted t sr'.cache = Cascade.wipe (exhausted t sr.cache) gone)
    (pending : ∀ ip, gone ip → exhausted t sr.cache ip ≠ none) {new kept : List Ticket}
    (eq : tickets t sr'.cache = new ++ kept) (young : ∀ k ∈ new, k.due = false)
    (stay : ∀ k ∈ tickets t sr.cache, k.due = false → k ∈ kept) {k : Ticket}
    (mem : k ∈ tickets t sr.cache) : k ∈ kept ↔ ¬ gone k.ip := by
  obtain ⟨r, hr, rfl⟩ := List.mem_map.1 mem
  have unique' := evolves.unique unique
  by_cases due : Exhausted t r
  · constructor
    · intro still (removed : gone r.ip)
      have listed : ticket t r ∈ tickets t sr'.cache := eq ▸ List.mem_append_right _ still
      obtain ⟨r', hr', same⟩ := List.mem_map.1 listed
      have due_eq : decide (Exhausted t r') = decide (Exhausted t r) := congrArg Ticket.due same
      have ip_eq : r'.ip = r.ip := congrArg Ticket.ip same
      have live := exhausted_of_mem unique' hr' ((decide_eq_decide.1 due_eq).2 due)
      rw [wiped, ip_eq, Cascade.wipe, if_pos removed] at live
      cases live
    · intro (left : ¬ gone r.ip)
      have live : exhausted t sr'.cache r.ip = some (r.packets.map toldSource) := by
        rw [wiped, Cascade.wipe, if_neg left, exhausted_of_mem unique hr due]
      obtain ⟨r', hr', ip_eq, due', -⟩ := (exhausted_eq_some_iff unique').1 live
      obtain ⟨r₀, hr₀, same⟩ := (evolves.origin hr').resolve_right fun fresh => fresh.2 due'
      have old : r₀ = r :=
        List.inj_on_of_nodup_map unique hr₀ hr ((congrArg Ticket.ip same).trans ip_eq)
      have listed : ticket t r ∈ new ++ kept := by
        rw [← eq, ← old, same]
        exact List.mem_map_of_mem hr'
      refine (List.mem_append.1 listed).resolve_left fun fresh => ?_
      exact absurd (young _ fresh) (by simp [ticket, due])
  · refine iff_of_true (stay _ mem (by simp [ticket, due])) fun removed => ?_
    exact pending _ removed (exhausted_of_not unique hr due)

/-- What is behind a request that was handled: the requests that were there, but for those given up. -/
theorem behind_of_handleArpreq (still : ∀ k, env.time k = t) (unique : OnePerIp c.sr.cache)
    {pre rest : List SrArpreq} (queue : c.sr.cache.requests = pre ++ req :: rest)
    (run : handleArpreq env fuel req.addr c = .ok c') :
    exhausted t c'.sr.cache = Cascade.wipe (exhausted t c.sr.cache)
        (Cascade.Removes (messages c.sr) (exhausted t c.sr.cache) req.ip) ∧
      ∃ pre' rest', c'.sr.cache.requests = pre' ++ rest' ∧ rest'.map (ticket t) =
        (rest.map (ticket t)).filter fun k =>
          Cascade.survives (messages c.sr) (exhausted t c.sr.cache) req.ip k.ip := by
  obtain ⟨found, -, -⟩ := find_eq queue
  have evolves := (handleArpreq_does env fuel req.addr c c' run).evolves still
  have given := handleArpreq_eq_giveUp still fuel unique found
  rw [run] at given
  have wiped := Cascade.giveUp_eq_wipe given.symm
  refine ⟨wiped, ?_⟩
  obtain ⟨new, kept, eq, sub, young, stay⟩ := evolves.queue
  have distinct : (tickets t c.sr.cache).Nodup := by
    refine List.Nodup.of_map Ticket.addr ?_
    rw [tickets, List.map_map]
    exact c.sr.cache.distinct
  have filtered := eq_filter_of_sublist sub distinct (p := fun k =>
    Cascade.survives (messages c.sr) (exhausted t c.sr.cache) req.ip k.ip) fun k mem => by
      rw [Cascade.survives_iff]
      exact mem_kept_iff unique evolves wiped (fun _ removes => removes.pending) eq
        (fun k mem => (young k mem).2) stay mem
  have split : tickets t c.sr.cache = (pre ++ [req]).map (ticket t) ++ rest.map (ticket t) := by
    rw [tickets, queue, ← List.map_append, List.append_assoc, List.singleton_append]
  rw [filtered, split, List.filter_append, ← List.append_assoc, tickets, List.map_eq_append_iff] at eq
  obtain ⟨pre', rest', queue', -, behind⟩ := eq
  exact ⟨pre', rest', queue', behind⟩

end Behind

/-! ## When the saved pointer is good -/

section Walk

variable {env : Env} {t : ℕ} {M : Cascade.Messages UInt32} {p : Cascade.Pending UInt32} {ips : List UInt32}

/-- The call is at the front of `rest`, the requests for `ips`, and the exhausted ones are `p`. -/
structure Walks (t : ℕ) (M : Cascade.Messages UInt32) (p : Cascade.Pending UInt32) (c : Call)
    (rest : List SrArpreq) : Prop where
  unique : OnePerIp c.sr.cache
  known : messages c.sr = M
  pending : exhausted t c.sr.cache = p
  queue : ∃ pre, c.sr.cache.requests = pre ++ rest

theorem Walks.step {fuel : ℕ} {c c' : Call} {req : SrArpreq} {rest : List SrArpreq}
    (walks : Walks t M p c (req :: rest)) (still : ∀ k, env.time k = t)
    (run : handleArpreq env fuel req.addr c = .ok c') :
    ∃ rest', Walks t M (Cascade.wipe p (Cascade.Removes M p req.ip)) c' rest' ∧
      rest'.map (ticket t) = (rest.map (ticket t)).filter fun k =>
        Cascade.survives M p req.ip k.ip := by
  obtain ⟨unique, rfl, rfl, pre, queue⟩ := walks
  have evolves := (handleArpreq_does env fuel req.addr c c' run).evolves still
  obtain ⟨wiped, pre', rest', queue', behind⟩ := behind_of_handleArpreq still unique queue run
  exact ⟨rest', ⟨evolves.unique unique, messages_eq evolves, wiped, pre', queue'⟩, behind⟩

/-- A pointer that was saved to a request that is still there is one to what is next now. -/
theorem head_of_behind {gone : Ticket → Bool} {rest rest' : List SrArpreq}
    (behind : rest'.map (ticket t) = (rest.map (ticket t)).filter gone)
    (saved : ∀ r, rest.head? = some r → gone (ticket t r) = true) :
    rest'.head?.map SrArpreq.addr = rest.head?.map SrArpreq.addr := by
  cases rest with
  | nil =>
    have none_left : rest' = [] := by simpa using behind
    rw [none_left]
  | cons r later =>
    rw [List.map_cons, List.filter_cons_of_pos (saved r rfl)] at behind
    obtain ⟨r', later', rfl, same, -⟩ := List.map_eq_cons_iff.1 behind
    exact congrArg some (congrArg Ticket.addr same)

theorem ips_of_behind {gone : UInt32 → Bool} {rest rest' : List SrArpreq}
    (behind : rest'.map (ticket t) = (rest.map (ticket t)).filter fun k => gone k.ip) :
    rest'.map SrArpreq.ip = (rest.map SrArpreq.ip).filter gone := by
  have ips : ∀ l : List SrArpreq, l.map SrArpreq.ip = (l.map (ticket t)).map Ticket.ip := fun l => by
    rw [List.map_map]
    rfl
  rw [ips, ips, behind]
  exact List.filter_map.symm

theorem Walks.found {c : Call} {req : SrArpreq} {rest : List SrArpreq}
    (walks : Walks t M p c (req :: rest)) : c.sr.cache.find req.addr = some req ∧
      c.sr.cache.next req.addr = some (rest.head?.map SrArpreq.addr) := by
  obtain ⟨pre, queue⟩ := walks.queue
  exact ⟨(find_eq queue).1, next_of_queue queue⟩

/-- `handle_arpreq` ends at the front of a walk only if the node finishes. -/
theorem Walks.finishes {fuel : ℕ} {c c' : Call} {req : SrArpreq} {rest : List SrArpreq}
    (walks : Walks t M p c (req :: rest)) (still : ∀ k, env.time k = t)
    (run : handleArpreq env fuel req.addr c = .ok c') : Cascade.Finishes M p req.ip := by
  have given := handleArpreq_eq_giveUp still fuel walks.unique walks.found.1
  rw [run, walks.known, walks.pending] at given
  exact Cascade.giveUp_isSome_iff.1 ⟨fuel, _, given.symm⟩

theorem exists_handleArpreq (still : ∀ k, env.time k = t) {g : UInt32}
    (finishes : Cascade.Finishes M p g) : ∃ N, ∀ fuel, N ≤ fuel → ∀ c req rest,
      Walks t M p c (req :: rest) → req.ip = g → ∃ c', handleArpreq env fuel req.addr c = .ok c' := by
  obtain ⟨N, given⟩ := finishes.giveUp
  refine ⟨N, fun fuel enough c req rest walks front => ?_⟩
  subst front
  have result := handleArpreq_eq_giveUp still fuel walks.unique walks.found.1
  rw [walks.known, walks.pending, Cascade.giveUp_mono given enough] at result
  cases run : handleArpreq env fuel req.addr c with
  | error e =>
    rw [run] at result
    cases result
  | ok c' => exact ⟨c', rfl⟩

/-- When giving up the front spares the next request, the saved pointer is the one to what is left. -/
theorem Walks.resume {fuel : ℕ} {c c' : Call} {req : SrArpreq} {rest : List SrArpreq}
    (walks : Walks t M p c (req :: rest)) (still : ∀ k, env.time k = t)
    (run : handleArpreq env fuel req.addr c = .ok c')
    (saved : ∀ x, (rest.map SrArpreq.ip).head? = some x → ¬ Cascade.Removes M p req.ip x) :
    ∃ rest', Walks t M (Cascade.wipe p (Cascade.Removes M p req.ip)) c' rest' ∧
      rest'.map SrArpreq.ip = (rest.map SrArpreq.ip).filter (Cascade.survives M p req.ip) ∧
      rest'.head?.map SrArpreq.addr = rest.head?.map SrArpreq.addr := by
  obtain ⟨rest', walks', left⟩ := walks.step still run
  refine ⟨rest', walks', ips_of_behind left, head_of_behind left fun r here => ?_⟩
  exact Cascade.survives_iff.2 (saved r.ip (by rw [List.head?_map, here, Option.map_some]))

theorem Walks.calls {fuel n : ℕ} {c : Call} {req : SrArpreq} {rest : List SrArpreq}
    (walks : Walks t M p c (req :: rest)) :
    sweepCalls env fuel (n + 1) ((req :: rest).head?.map SrArpreq.addr) c = (req.addr, c) ::
      match handleArpreq env fuel req.addr c with
      | .error _ => []
      | .ok c' => sweepCalls env fuel n (rest.head?.map SrArpreq.addr) c' := by
  rw [List.head?_cons, Option.map_some, sweepCalls, walks.found.2]

/-- The steps of an undisturbed walk are those of the loop. -/
theorem live_of_undisturbed (still : ∀ k, env.time k = t) (fuel : ℕ)
    (safe : Cascade.Undisturbed M p ips) {n : ℕ} {c : Call} {rest : List SrArpreq}
    (walks : Walks t M p c rest) (same : rest.map SrArpreq.ip = ips) :
    ∀ x ∈ sweepCalls env fuel n (rest.head?.map SrArpreq.addr) c, (x.2.sr.cache.find x.1).isSome := by
  cases n with
  | zero => cases rest <;> simp [sweepCalls]
  | succ n =>
    induction safe generalizing n c rest with
    | nil p =>
      rw [List.map_eq_nil_iff.1 same]
      simp [sweepCalls]
    | @stuck p g later endless =>
      obtain ⟨req, behind, rfl, rfl, rfl⟩ := List.map_eq_cons_iff.1 same
      intro x passed
      rw [walks.calls] at passed
      cases List.mem_cons.1 passed with
      | inl first => rw [first, walks.found.1, Option.isSome_some]
      | inr further =>
        cases run : handleArpreq env fuel req.addr c with
        | error e => simp [run] at further
        | ok c' => exact absurd (walks.finishes still run) endless
    | @pass p g later finishes saved _ ih =>
      obtain ⟨req, behind, rfl, rfl, rfl⟩ := List.map_eq_cons_iff.1 same
      intro x passed
      rw [walks.calls] at passed
      cases List.mem_cons.1 passed with
      | inl first => rw [first, walks.found.1, Option.isSome_some]
      | inr further =>
        cases run : handleArpreq env fuel req.addr c with
        | error e => simp [run] at further
        | ok c' =>
          obtain ⟨rest', walks', ips_, pointer⟩ := walks.resume still run saved
          simp only [run, ← pointer] at further
          cases n with
          | zero => cases rest' <;> simp [sweepCalls] at further
          | succ n => exact ih walks' ips_ n x further

/-- A request behind the front is freed if giving up the front gives it up. -/
theorem freed_of_removes {fuel : ℕ} {c c' : Call} {req next : SrArpreq} {later : List SrArpreq}
    (still : ∀ k, env.time k = t) (walks : Walks t M p c (req :: next :: later))
    (run : handleArpreq env fuel req.addr c = .ok c') (removed : Cascade.Removes M p req.ip next.ip) :
    c'.sr.cache.find next.addr = none := by
  obtain ⟨unique, rfl, rfl, pre, queue⟩ := walks
  have evolves := (handleArpreq_does env fuel req.addr c c' run).evolves still
  have mem : next ∈ c.sr.cache.requests := by simp [queue]
  have due : Exhausted t next := by
    by_contra young
    exact removed.pending (exhausted_of_not unique mem young)
  have wiped := (behind_of_handleArpreq still unique queue run).1
  have linked := find_isNone_iff unique (find_eq_some_iff.2 ⟨mem, rfl⟩) due evolves
  rw [wiped, Cascade.wipe, if_pos removed] at linked
  exact Option.isNone_iff_eq_none.1 linked

/-- In a disturbed walk, with enough fuel, a pointer is passed on to a request that was freed. -/
theorem freed_of_not_undisturbed (still : ∀ k, env.time k = t)
    (disturbed : ¬ Cascade.Undisturbed M p ips) : ∃ N, ∀ fuel, N ≤ fuel → ∀ c rest, Walks t M p c rest →
      rest.map SrArpreq.ip = ips → ∃ n, ∃ x ∈ sweepCalls env fuel n (rest.head?.map SrArpreq.addr) c,
        x.2.sr.cache.find x.1 = none := by
  induction size : ips.length using Nat.strong_induction_on generalizing ips p with
  | _ size ih =>
    subst size
    cases ips with
    | nil => exact absurd (.nil p) disturbed
    | cons g later =>
      have finishes : Cascade.Finishes M p g := by
        by_contra endless
        exact disturbed (.stuck endless)
      obtain ⟨N, handled⟩ := exists_handleArpreq still finishes
      by_cases saved : ∀ x, later.head? = some x → ¬ Cascade.Removes M p g x
      · -- the walk goes on with what is left
        have disturbed' : ¬ Cascade.Undisturbed M (Cascade.wipe p (Cascade.Removes M p g))
            (later.filter (Cascade.survives M p g)) :=
          fun safe => disturbed (.pass finishes saved safe)
        have fewer : (later.filter (Cascade.survives M p g)).length < (g :: later).length :=
          Nat.lt_succ_of_le (List.length_filter_le ..)
        obtain ⟨N', freed⟩ := ih _ fewer disturbed' rfl
        refine ⟨max N N', fun fuel enough c rest walks same => ?_⟩
        obtain ⟨req, behind, rfl, rfl, rfl⟩ := List.map_eq_cons_iff.1 same
        obtain ⟨c', run⟩ := handled fuel (le_trans (le_max_left ..) enough) c req behind walks rfl
        obtain ⟨rest', walks', ips_, pointer⟩ := walks.resume still run saved
        obtain ⟨n, x, passed, gone⟩ :=
          freed fuel (le_trans (le_max_right ..) enough) c' rest' walks' ips_
        refine ⟨n + 1, x, ?_, gone⟩
        rw [walks.calls]
        simp only [run, ← pointer]
        exact List.mem_cons_of_mem _ passed
      · -- the saved request is given up while the one before it is
        refine ⟨N, fun fuel enough c rest walks same => ?_⟩
        obtain ⟨req, behind, rfl, rfl, rfl⟩ := List.map_eq_cons_iff.1 same
        obtain ⟨c', run⟩ := handled fuel enough c req behind walks rfl
        simp only [not_forall, not_not] at saved
        obtain ⟨ip, first, removed⟩ := saved
        cases behind with
        | nil => cases first
        | cons next later =>
          cases first
          refine ⟨2, (next.addr, c'), ?_, freed_of_removes still walks run removed⟩
          rw [walks.calls]
          simp only [run, List.head?_cons, Option.map_some, sweepCalls]
          exact List.mem_cons_of_mem _ (List.mem_cons_self ..)

end Walk

/-! ## Any clock -/

section AnyClock

variable {env : Env} {cache cache' cache'' : SrArpcache}

/-- The queue as a later call finds it: new requests stand in front, and the old ones that are left are
in the same order. -/
structure Ordered (cache cache' : SrArpcache) : Prop where
  fresh : cache.freshAddr ≤ cache'.freshAddr
  order : ∃ new kept, cache'.requests.map SrArpreq.addr = new ++ kept ∧
    kept.Sublist (cache.requests.map SrArpreq.addr) ∧ ∀ a ∈ new, cache.freshAddr ≤ a

theorem Ordered.of_sublist (fresh : cache.freshAddr ≤ cache'.freshAddr)
    (sub : (cache'.requests.map SrArpreq.addr).Sublist (cache.requests.map SrArpreq.addr)) :
    Ordered cache cache' := ⟨fresh, [], _, rfl, sub, by simp⟩

theorem Ordered.refl (cache : SrArpcache) : Ordered cache cache :=
  .of_sublist le_rfl (List.Sublist.refl _)

theorem Ordered.trans (first : Ordered cache cache') (second : Ordered cache' cache'') :
    Ordered cache cache'' := by
  obtain ⟨new, kept, eq, sub, young⟩ := first.order
  obtain ⟨new', kept', eq', sub', young'⟩ := second.order
  rw [eq] at sub'
  obtain ⟨left, right, rfl, left_sub, right_sub⟩ := List.sublist_append_iff.1 sub'
  refine ⟨first.fresh.trans second.fresh, new' ++ left, right, by rw [eq', List.append_assoc],
    right_sub.trans sub, fun a mem => ?_⟩
  cases List.mem_append.1 mem with
  | inl mem => exact first.fresh.trans (young' a mem)
  | inr mem => exact young a (left_sub.subset mem)

theorem Ordered.queuereq (cache : SrArpcache) (gw : UInt32) (packet : List UInt8)
    (iface : Option Name) : Ordered cache (srArpcacheQueuereq cache gw packet iface).1 := by
  have addrs : ∀ cache : SrArpcache, cache.requests.map SrArpreq.addr =
      (tickets 0 cache).map Ticket.addr := fun cache => by
    rw [tickets, List.map_map]
    rfl
  refine ⟨freshAddr_queuereq cache gw packet iface, ?_⟩
  rw [addrs, addrs]
  cases tickets_queuereq (t := 0) gw packet iface with
  | inl same => exact ⟨[], _, by rw [same]; rfl, List.Sublist.refl _, by simp⟩
  | inr pushed => exact ⟨[cache.freshAddr], _, by rw [pushed.2]; rfl, List.Sublist.refl _, by simp⟩

theorem Does.ordered {c c' : Call} (does : Does env c c') : Ordered c.sr.cache c'.sr.cache := by
  induction does with
  | refl | malloc | early => exact .refl _
  | trans _ _ ih ih' => exact ih.trans ih'
  | icmp | forward =>
    rw [srSendPacket_eq]
    exact .refl _
  | queue c gw packet iface => exact .queuereq c.sr.cache gw packet iface
  | @ask c addr =>
    unfold askAgain
    rw [srSendArpRequest_eq]
    refine .of_sublist le_rfl ?_
    show List.Sublist (List.map _ (List.map _ _)) _
    rw [List.map_map]
    refine (List.map_congr_left fun r _ => ?_) ▸ List.Sublist.refl _
    rw [Function.comp_apply]
    split_ifs <;> rfl
  | giveUp _ _ _ _ _ ih =>
    exact ih.trans (.of_sublist le_rfl (List.eraseP_sublist.map SrArpreq.addr))

/-- Requests that are all still there are still next to each other. -/
theorem Ordered.behind (ordered : Ordered cache cache') {pre rest : List ℕ}
    (queue : cache.requests.map SrArpreq.addr = pre ++ rest)
    (there : ∀ a ∈ rest, a ∈ cache'.requests.map SrArpreq.addr) :
    ∃ pre', cache'.requests.map SrArpreq.addr = pre' ++ rest := by
  obtain ⟨new, kept, eq, sub, young⟩ := ordered.order
  have distinct := cache.distinct
  rw [queue] at sub distinct
  obtain ⟨left, right, rfl, left_sub, right_sub⟩ := List.sublist_append_iff.1 sub
  rw [List.nodup_append] at distinct
  have all : right = rest.filter fun _ => true := by
    refine eq_filter_of_sublist right_sub distinct.2.1 fun a mem => iff_of_true ?_ rfl
    have listed := there a mem
    rw [eq] at listed
    rcases List.mem_append.1 listed with fresh | old
    · have below : a ∈ cache.requests.map SrArpreq.addr := queue ▸ List.mem_append_right _ mem
      obtain ⟨r, hr, rfl⟩ := List.mem_map.1 below
      exact absurd (young _ fresh) (Nat.not_le.2 (cache.below r hr))
    · exact (List.mem_append.1 old).resolve_left fun before =>
        distinct.2.2 a (left_sub.subset before) a mem rfl
  rw [List.filter_true] at all
  exact ⟨new ++ left, by rw [eq, all, List.append_assoc]⟩

/-- The requests of `rest` are there as they were, one after the other. -/
structure Intact (M : Cascade.Messages UInt32) (p₀ : Cascade.Pending UInt32) (c : Call)
    (rest : List SrArpreq) : Prop where
  known : messages c.sr = M
  within : WaitsWithin p₀ c.sr.cache
  there : ∀ r ∈ rest, c.sr.cache.find r.addr = some r ∧ p₀ r.ip = some (r.packets.map toldSource)
  queue : ∃ pre, c.sr.cache.requests.map SrArpreq.addr = pre ++ rest.map SrArpreq.addr

theorem Intact.next {M : Cascade.Messages UInt32} {p₀ : Cascade.Pending UInt32} {c : Call}
    {req : SrArpreq} {rest : List SrArpreq} (intact : Intact M p₀ c (req :: rest)) :
    c.sr.cache.next req.addr = some (rest.head?.map SrArpreq.addr) := by
  obtain ⟨pre, queue⟩ := intact.queue
  obtain ⟨before, from_req, queue', -, same⟩ := List.map_eq_append_iff.1 queue
  obtain ⟨req', behind, rfl, addr_eq, same⟩ := List.map_eq_cons_iff.1 same
  rw [← addr_eq, next_of_queue queue', ← List.head?_map, ← List.head?_map, same]

/-- While no request gives up one behind it, the sweep finds them all, whatever the clock shows. -/
theorem live_of_apart {M : Cascade.Messages UInt32} {p₀ : Cascade.Pending UInt32} (fuel : ℕ)
    (every : ∀ ip, p₀ ip ≠ none) {rest : List SrArpreq} {n : ℕ} {c : Call}
    (intact : Intact M p₀ c rest) (finishes : ∀ r ∈ rest, Cascade.Finishes M p₀ r.ip)
    (apart : rest.Pairwise fun r r' => ¬ Cascade.Removes M p₀ r.ip r'.ip) :
    ∀ x ∈ sweepCalls env fuel n (rest.head?.map SrArpreq.addr) c, (x.2.sr.cache.find x.1).isSome := by
  induction rest generalizing n c with
  | nil => cases n <;> simp [sweepCalls]
  | cons req rest ih =>
    cases n with
    | zero => simp [sweepCalls]
    | succ n =>
      have found := intact.there req (List.mem_cons_self ..)
      intro x passed
      rw [List.head?_cons, Option.map_some, sweepCalls, intact.next] at passed
      cases List.mem_cons.1 passed with
      | inl first => rw [first, found.1, Option.isSome_some]
      | inr further =>
        cases run : handleArpreq env fuel req.addr c with
        | error e => simp [run] at further
        | ok c' =>
          simp only [run] at further
          obtain ⟨m, c₁, run₁, within, keeps⟩ := handleArpreq_of_finishes env every intact.known
            intact.within found.1 found.2 (finishes req (List.mem_cons_self ..))
          have same : c₁ = c' := Except.ok.inj ((handleArpreq_mono run₁ (le_max_right fuel m)).symm.trans
            (handleArpreq_mono run (le_max_left fuel m)))
          subst same
          have does := handleArpreq_does env m req.addr c c₁ run₁
          rw [List.pairwise_cons] at apart
          have there : ∀ r ∈ rest, c₁.sr.cache.find r.addr = some r := fun r mem =>
            keeps r.addr r (intact.there r (List.mem_cons_of_mem _ mem)).1 (apart.1 r mem)
          obtain ⟨pre, queue⟩ := intact.queue
          have from_req : c.sr.cache.requests.map SrArpreq.addr =
              (pre ++ [req.addr]) ++ rest.map SrArpreq.addr := by
            rw [queue, List.map_cons, List.append_assoc, List.singleton_append]
          have behind := does.ordered.behind from_req fun a mem => by
            obtain ⟨r, hr, rfl⟩ := List.mem_map.1 mem
            exact List.mem_map_of_mem (find_eq_some_iff.1 (there r hr)).1
          exact ih ⟨does.messages_eq.trans intact.known, within, fun r mem => ⟨there r mem,
              (intact.there r (List.mem_cons_of_mem _ mem)).2⟩, behind⟩
            (fun r mem => finishes r (List.mem_cons_of_mem _ mem)) apart.2 x further

end AnyClock

/-! ## The sweep -/

/-- Every request is one whose handling ends and gives up none of those behind it, with every request
taken as exhausted. -/
def NoneInTheWay (sr : SrInstance) : Prop :=
  (∀ req ∈ sr.cache.requests, Cascade.Finishes (messages sr) (unresolved sr.cache) req.ip) ∧
    sr.cache.requests.Pairwise fun req later =>
      ¬ Cascade.Removes (messages sr) (unresolved sr.cache) req.ip later.ip

/-- The pointers that a sweep passes on: while the clock shows one time, all are good exactly if the walk
over the queue is undisturbed; whatever the clock shows, all are good if no request is in the way of
another. -/
theorem sweepLive_iff {env : Env} {c : Call} (unique : OnePerIp c.sr.cache) :
    (∀ t, (∀ k, env.time k = t) → (SweepLive env c ↔ Cascade.Undisturbed (messages c.sr)
      (exhausted t c.sr.cache) (c.sr.cache.requests.map SrArpreq.ip))) ∧
    (NoneInTheWay c.sr → SweepLive env c) := by
  constructor
  · intro t still
    have walks : Walks t (messages c.sr) (exhausted t c.sr.cache) c c.sr.cache.requests :=
      ⟨unique, rfl, rfl, [], rfl⟩
    constructor
    · intro live
      by_contra disturbed
      obtain ⟨N, freed⟩ := freed_of_not_undisturbed still disturbed
      obtain ⟨n, x, passed, gone⟩ := freed N le_rfl c _ walks rfl
      have found := live N n x passed
      rw [gone] at found
      cases found
    · exact fun safe fuel n => live_of_undisturbed still fuel safe walks rfl
  · intro clear fuel n
    refine live_of_apart fuel (fun ip => Option.some_ne_none _) ⟨rfl, waitsWithin_unresolved unique,
      fun r mem => ⟨find_eq_some_iff.2 ⟨mem, rfl⟩, unresolved_of_mem unique mem⟩, [], rfl⟩
      clear.1 clear.2

/-- A datagram from 10.0.0.1 to 8.8.8.8, for which there is no route. -/
def unroutableBehind : List UInt8 :=
  [2, 0, 0, 0, 0, 1, 2, 0, 0, 0, 0, 9, 8, 0,
    0x45, 0, 0, 20, 0x60, 0xc9, 0, 0, 64, 17, 0xff, 0xff, 10, 0, 0, 1, 8, 8, 8, 8]

/-- Both requests expire, and the one that the error about the other waits for stands in front. -/
theorem sweepLive_iff_in_front : ∃ tr sr, machine.Run twoInterfaces tr sr ∧
    sr.cache.requests.map SrArpreq.ip = [0x0101000a, 0x0100000a] ∧
    (∀ req ∈ sr.cache.requests, Exhausted 15 req) ∧ SweepLive (envAt 15) (.start sr) := by
  obtain ⟨tr, sr, run, ips, due, next, found, first, second⟩ := Machine.Runs.exists_of_exec
    (M := machine) (C := fun _ _ _ => true) (i := twoInterfaces)
    (P := fun _ sr => sr.cache.requests.map SrArpreq.ip = [0x0101000a, 0x0100000a] ∧
      (∀ req ∈ sr.cache.requests, Exhausted 15 req) ∧
      ((messages sr).next 0x0100000a = some 0x0101000a ∧ (messages sr).next 0x0101000a = none) ∧
      ((messages sr).lost 0x0100000a = false ∧ (messages sr).lost 0x0101000a = false) ∧
      exhausted 15 sr.cache 0x0101000a = some [some 0x0101000a] ∧
      exhausted 15 sr.cache 0x0100000a = some [some 0x0100000a])
    [.receive unroutable [101, 48] (envAt 5) 2, .receive unroutableBehind [101, 48] (envAt 5) 2,
      .timeout (envAt 7) 2, .timeout (envAt 9) 2, .timeout (envAt 11) 2, .timeout (envAt 13) 2]
    (by decide +kernel)
  have run : machine.Run (init twoInterfaces.ifList twoInterfaces.routingTable) tr sr :=
    run.mono fun _ _ _ _ => trivial
  have unique : OnePerIp (Call.start sr).sr.cache := onePerIp_of_run run
  refine ⟨tr, sr, run, ips, due, ((sweepLive_iff unique).1 15 fun _ => rfl).2 ?_⟩
  show Cascade.Undisturbed (messages sr) (exhausted 15 sr.cache) (sr.cache.requests.map SrArpreq.ip)
  rw [ips]
  have apart : ¬ Cascade.Removes (messages sr) (exhausted 15 sr.cache) 0x0101000a 0x0100000a := by
    rintro ⟨l, live, same | ⟨s, waits, hits⟩⟩
    · exact absurd same (by decide)
    · cases first.symm.trans live
      rw [Option.some.inj (List.mem_singleton.1 waits)] at hits
      exact Cascade.not_hits_of_none next.2 hits
  refine .pass ?_ (by simpa using apart) ?_
  · intro l live
    cases first.symm.trans live
    refine ⟨by simp, fun s waits => ?_⟩
    rw [Option.some.inj (List.mem_singleton.1 waits)]
    exact .of_idle found.2 fun g waits => absurd (next.2.symm.trans waits) (by simp)
  · -- the second request is left, and the first, where the error about its packet waits, is gone
    rw [List.filter_cons_of_pos (Cascade.survives_iff.2 apart), List.filter_nil]
    refine .pass (fun l live => ?_) (by simp) (.nil _)
    rw [Cascade.wipe, if_neg apart] at live
    cases second.symm.trans live
    refine ⟨by simp, fun s waits => ?_⟩
    rw [Option.some.inj (List.mem_singleton.1 waits)]
    refine .of_idle found.1 fun g waits => ?_
    cases next.1.symm.trans waits
    exact if_pos ⟨_, first, Or.inl rfl⟩

/-- A request is given up, and the error about its packet makes the one behind it be given up too. -/
theorem not_sweepLive_behind : ¬ ∀ ifs routes tr sr env, machine.Run (init ifs routes) tr sr →
    SweepLive env (.start sr) := by
  intro all
  obtain ⟨tr, sr, run, freed⟩ := Machine.Runs.exists_of_exec (M := machine) (i := twoInterfaces)
    (C := fun _ _ _ => true)
    (P := fun _ sr => ((sweepCalls (envAt 15) 3 2 (sr.cache.requests.head?.map SrArpreq.addr)
      (.start sr)).any fun x => (x.2.sr.cache.find x.1).isNone) = true)
    [.receive unroutableBehind [101, 48] (envAt 5) 2, .receive unroutable [101, 48] (envAt 5) 2,
      .timeout (envAt 7) 2, .timeout (envAt 9) 2, .timeout (envAt 11) 2, .timeout (envAt 13) 2]
    (by decide +kernel)
  obtain ⟨x, passed, gone⟩ := List.any_eq_true.1 freed
  have live := all _ _ tr sr (envAt 15) (run.mono fun _ _ _ _ => trivial) 3 2 x passed
  rw [Option.isNone_iff_eq_none.1 gone] at live
  cases live

end ComputerNetwork.Router
