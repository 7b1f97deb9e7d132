import ComputerNetwork.Router.Cascades

/-!
# Whether handling an expired request ends

`handle_arpreq` destroys a request only after the sources of its packets were told, so that a message
to one of them can lead to the same request again.  While the clock shows one time, it ends exactly
when the cascade does, and whatever the clock shows it ends when the cascade would with every request
taken as exhausted (`handleArpreq_ends_iff`).
-/

namespace ComputerNetwork.Router

open Lib

/-- `handle_arpreq` ends, and the request is not in the queue any more. -/
def Ends (env : Env) (c : Call) (addr : ℕ) : Prop :=
  ∃ fuel c', handleArpreq env fuel addr c = .ok c' ∧ c'.sr.cache.find addr = none

/-- The router, in a run, has made the call that has come to `c`: one for a frame, or a round of the
timeout thread, which starts with the entries. -/
def Underway (ifs : List SrIf) (routes : List SrRt) (c : Call) : Prop :=
  ∃ tr sr env start, machine.Run (init ifs routes) tr sr ∧ Does env start c ∧
    (start.sr = sr ∨ ∃ now, start.sr = { sr with cache := expireEntries sr.cache now })

/-! ## One request for an address -/

section Reachable

variable {env : Env} {c c' : Call}

theorem Does.config (does : Does env c c') :
    c'.sr.ifList = c.sr.ifList ∧ c'.sr.routingTable = c.sr.routingTable := by
  induction does with
  | refl | malloc | early | queue => exact ⟨rfl, rfl⟩
  | trans _ _ ih ih' => exact ⟨ih'.1.trans ih.1, ih'.2.trans ih.2⟩
  | icmp | forward =>
    rw [srSendPacket_eq]
    exact ⟨rfl, rfl⟩
  | ask =>
    unfold askAgain
    rw [srSendArpRequest_eq]
    exact ⟨rfl, rfl⟩
  | giveUp _ _ _ _ _ ih => exact ih

theorem Does.messages_eq (does : Does env c c') : messages c'.sr = messages c.sr :=
  messages_congr does.config.1 does.config.2 does.entries

theorem Does.onePerIp (does : Does env c c') (unique : OnePerIp c.sr.cache) :
    OnePerIp c'.sr.cache := by
  induction does with
  | refl | malloc | early => exact unique
  | trans _ _ ih ih' => exact ih' (ih unique)
  | icmp | forward =>
    rw [srSendPacket_eq]
    exact unique
  | queue c gw packet iface => exact (Evolves.queuereq (t := 0) c.sr gw packet iface).unique unique
  | @ask c =>
    unfold askAgain
    rw [srSendArpRequest_eq]
    exact onePerIp_update unique _ (fun r =>
      { r with sent := env.time c.timeReads, timesSent := r.timesSent + 1 }) (fun _ => rfl) fun _ => rfl
  | giveUp _ _ _ _ _ ih => exact (List.eraseP_sublist.map SrArpreq.ip).nodup (ih unique)

theorem learn_onePerIp (mac : Mac) (ip : UInt32) (unique : OnePerIp c.sr.cache) :
    OnePerIp (learn env c mac ip).sr.cache := by
  have kept : OnePerIp (c.sr.cache.unlink fun r => r.ip = ip) :=
    (List.eraseP_sublist.map SrArpreq.ip).nodup unique
  unfold learn
  dsimp only
  split <;> exact kept

theorem perform_onePerIp {sr : SrInstance} {a : Action} (run : perform sr a = .ok c')
    (unique : OnePerIp sr.cache) : OnePerIp c'.sr.cache := by
  cases a with
  | receive packet interface env fuel =>
    rcases srHandlepacket_cases run with ⟨-, i, -, eq⟩ | ⟨-, -, i, -, eq⟩ | eq | does
    · rw [eq, srSendPacket_eq]
      exact unique
    · rw [eq, srSendPacket_eq]
      exact learn_onePerIp _ _ unique
    · rw [eq]
      exact learn_onePerIp _ _ unique
    · exact does.onePerIp unique
  | timeout env fuel => exact (srArpcacheTimeout_does run).onePerIp unique

theorem onePerIp_of_run {ifs : List SrIf} {routes : List SrRt} {tr : List (Action × List Event)}
    {sr : SrInstance} (run : machine.Run (init ifs routes) tr sr) : OnePerIp sr.cache := by
  refine run.invariant (I := fun _ sr => OnePerIp sr.cache)
    (by simp [OnePerIp, init, srArpcacheInit]) ?_
  intro tr sr a log sr' _ unique _ st
  change step sr a = some (sr', log) at st
  unfold step at st
  split at st
  · rename_i c performed
    cases st
    exact perform_onePerIp performed unique
  · cases st

theorem Underway.onePerIp {ifs : List SrIf} {routes : List SrRt} (underway : Underway ifs routes c) :
    OnePerIp c.sr.cache := by
  obtain ⟨tr, sr, env, start, run, does, from_sr⟩ := underway
  have unique := onePerIp_of_run run
  refine does.onePerIp ?_
  cases from_sr with
  | inl same => exact same ▸ unique
  | inr expired =>
    obtain ⟨now, same⟩ := expired
    rw [same]
    exact unique

end Reachable

/-! ## Any clock -/

/-- Every request taken as exhausted, and every address as if it had one. -/
def unresolved (cache : SrArpcache) : Cascade.Pending UInt32 := fun ip =>
  some (((cache.findIp ip).map fun req => req.packets.map toldSource).getD [])

/-- Nothing waits but what is in `p₀`, and messages that come from the interface with the address they
wait for. -/
def WaitsWithin (p₀ : Cascade.Pending UInt32) (cache : SrArpcache) : Prop :=
  ∀ req ∈ cache.requests, ∀ packet ∈ req.packets, ∃ l, p₀ req.ip = some l ∧
    toldSource packet ∈ some req.ip :: l

/-- All requests are still there as they were, but for those whose address meets `hit`. -/
def Keeps (hit : UInt32 → Prop) (cache cache' : SrArpcache) : Prop :=
  ∀ addr req, cache.find addr = some req → ¬ hit req.ip → cache'.find addr = some req

/-- A message to `d` ends and touches only such requests as the cascade says. -/
def Succeeds (env : Env) (M : Cascade.Messages UInt32) (p₀ : Cascade.Pending UInt32) (fuel : ℕ)
    (d : UInt32) : Prop :=
  ∀ c ipPacket type code, messages c.sr = M → WaitsWithin p₀ c.sr.cache →
    icmpDataSize ≤ ipPacket.length →
    ∃ c', srSendIcmpPacket env (handleArpreq env fuel) c d ipPacket type code = .ok c' ∧
      WaitsWithin p₀ c'.sr.cache ∧ Keeps (Cascade.Hits M p₀ d) c.sr.cache c'.sr.cache

section AnyClock

variable {env : Env} {M : Cascade.Messages UInt32} {p₀ : Cascade.Pending UInt32}
variable {cache cache' cache'' : SrArpcache} {hit hit' : UInt32 → Prop} {c : Call} {req : SrArpreq}

theorem Keeps.refl (hit : UInt32 → Prop) (cache : SrArpcache) : Keeps hit cache cache :=
  fun _ _ found _ => found

theorem Keeps.trans (first : Keeps hit cache cache') (second : Keeps hit cache' cache'') :
    Keeps hit cache cache'' :=
  fun addr req found apart => second addr req (first addr req found apart) apart

theorem Keeps.mono (keeps : Keeps hit cache cache') (weaker : ∀ ip, hit ip → hit' ip) :
    Keeps hit' cache cache' :=
  fun addr req found apart => keeps addr req found fun h => apart (weaker _ h)

theorem keeps_update (found : cache.find req.addr = some req) (f : SrArpreq → SrArpreq)
    (still : ∀ r, (f r).addr = r.addr) : Keeps (· = req.ip) cache (cache.update req.addr f still) := by
  intro addr r found' other
  obtain ⟨mem, here⟩ := find_eq_some_iff.1 found'
  have apart : r.addr ≠ req.addr := fun same =>
    other (congrArg SrArpreq.ip (eq_of_addr found mem same))
  exact find_eq_some_iff.2 ⟨List.mem_map.2 ⟨r, mem, if_neg apart⟩, here⟩

theorem keeps_destroy (found : cache.find req.addr = some req) :
    Keeps (· = req.ip) cache (srArpreqDestroy cache req.addr) := by
  intro addr r found' other
  obtain ⟨-, pre, rest, queue⟩ := exists_queue found
  obtain ⟨mem, here⟩ := find_eq_some_iff.1 found'
  refine find_eq_some_iff.2 ⟨?_, here⟩
  have apart : r ≠ req := fun same => other (congrArg SrArpreq.ip same)
  rw [queue] at mem
  rw [destroy_requests queue]
  simpa [apart] using mem

theorem keeps_queuereq (gw : UInt32) (frame : List UInt8) (iface : Option Name) :
    Keeps (· = gw) cache (srArpcacheQueuereq cache gw frame iface).1 := by
  have pushed : Keeps (· = gw) cache (cache.requestFor gw).1 := by
    unfold SrArpcache.requestFor
    cases cache.findIp gw with
    | some req => exact .refl _ _
    | none =>
      intro addr r found _
      obtain ⟨mem, here⟩ := find_eq_some_iff.1 found
      exact find_eq_some_iff.2 ⟨List.mem_cons_of_mem _ mem, here⟩
  have listed : ∃ req, (cache.requestFor gw).1.find (cache.requestFor gw).2 = some req ∧
      req.ip = gw := find_requestFor cache gw
  obtain ⟨req, found, same⟩ := listed
  obtain ⟨-, ptr⟩ := find_eq_some_iff.1 found
  refine pushed.trans ?_
  show Keeps _ _ ((cache.requestFor gw).1.enqueue (cache.requestFor gw).2 frame iface)
  unfold SrArpcache.enqueue
  split
  · split_ifs
    · exact .refl _ _
    · rw [← ptr] at found ⊢
      exact (keeps_update found _ _).mono fun ip h => h.trans same
  · exact .refl _ _

theorem WaitsWithin.update (within : WaitsWithin p₀ cache) (addr : ℕ) (f : SrArpreq → SrArpreq)
    (still : ∀ r, (f r).addr = r.addr) (ips : ∀ r, (f r).ip = r.ip)
    (packets : ∀ r, (f r).packets = r.packets) : WaitsWithin p₀ (cache.update addr f still) := by
  intro r' mem packet waits
  obtain ⟨r, hr, rfl⟩ := List.mem_map.1 mem
  split_ifs at waits ⊢
  · rw [ips]
    exact within r hr packet (packets r ▸ waits)
  · exact within r hr packet waits

theorem WaitsWithin.queuereq (within : WaitsWithin p₀ cache) (every : ∀ ip, p₀ ip ≠ none)
    {gw : UInt32} {frame : List UInt8} (name : Name)
    (size : sizeofEthernet + icmpDataSize ≤ frame.length) (own : ipSrc frame = gw) :
    WaitsWithin p₀ (srArpcacheQueuereq cache gw frame (some name)).1 := by
  have pushed : WaitsWithin p₀ (cache.requestFor gw).1 := by
    unfold SrArpcache.requestFor
    cases waiting : cache.findIp gw with
    | some req => exact within
    | none =>
      intro req mem packet waits
      cases List.mem_cons.1 mem with
      | inl fresh =>
        rw [fresh] at waits
        cases waits
      | inr old => exact within req old packet waits
  obtain ⟨-, pre, req, rest, queue, ptr, -⟩ := requestFor_spec cache gw
  obtain ⟨-, packets, queue', waiting⟩ := enqueue_spec queue frame (some name)
  obtain ⟨req', found, same⟩ := find_queuereq cache gw frame (some name)
  rw [srArpcacheQueuereq] at found ⊢
  dsimp only at found ⊢
  rw [← ptr] at found ⊢
  have filled : { req with packets } = req' :=
    Option.some.inj ((find_eq queue').1.symm.trans found)
  have ip_eq : req.ip = gw := by rw [← same, ← filled]
  intro r mem packet waits
  rw [queue'] at mem
  have old : ∀ r ∈ pre ++ req :: rest, ∀ packet ∈ r.packets, ∃ l, p₀ r.ip = some l ∧
      toldSource packet ∈ some r.ip :: l := queue ▸ pushed
  rcases List.mem_append.1 mem with before | middle
  · exact old r (List.mem_append_left _ before) packet waits
  · cases List.mem_cons.1 middle with
    | inr behind =>
      exact old r (List.mem_append_right _ (List.mem_cons_of_mem _ behind)) packet waits
    | inl here =>
      rw [here] at waits ⊢
      cases waiting packet waits with
      | inl stored => exact old req (List.mem_append_right _ (List.mem_cons_self ..)) packet stored
      | inr new =>
        obtain ⟨l, live⟩ := Option.ne_none_iff_exists'.1 (every req.ip)
        refine ⟨l, live, ?_⟩
        rw [toldSource, new.2, if_neg (Nat.not_lt.2 size), own, ip_eq]
        exact List.mem_cons_self ..

/-- The loop over the packets of a request that none of their sources leads to. -/
theorem foldlM_hostUnreachable_ok {fuel addr : ℕ} {ip : UInt32} {packets : List SrPacket}
    (known : messages c.sr = M) (within : WaitsWithin p₀ c.sr.cache)
    (found : c.sr.cache.find addr = some req) (same : req.ip = ip)
    (told : ∀ packet ∈ packets, ∃ s, toldSource packet = some s ∧
      Succeeds env M p₀ fuel s ∧ ¬ Cascade.Hits M p₀ s ip) :
    ∃ c', packets.foldlM (hostUnreachable env (handleArpreq env fuel) addr) c = .ok c' ∧
      WaitsWithin p₀ c'.sr.cache ∧ Keeps (fun x => ∃ packet ∈ packets, ∃ s,
        toldSource packet = some s ∧ Cascade.Hits M p₀ s x) c.sr.cache c'.sr.cache ∧
      c'.sr.cache.find addr = some req := by
  induction packets generalizing c req with
  | nil => exact ⟨c, rfl, within, .refl _ _, found⟩
  | cons packet rest ih =>
    obtain ⟨s, source, succeeds, apart⟩ := told packet (List.mem_cons_self ..)
    have long : icmpDataSize ≤ (packet.buf.drop sizeofEthernet).length := by
      unfold toldSource at source
      split_ifs at source with short
      rw [List.length_drop]
      omega
    have ip_eq : s = ipSrc packet.buf := by
      unfold toldSource at source
      split_ifs at source
      exact (Option.some.inj source).symm
    obtain ⟨c₁, sent, within₁, keeps⟩ := succeeds c (packet.buf.drop sizeofEthernet) 3 1 known within long
    have found₁ := keeps addr req found (same ▸ apart)
    have first : hostUnreachable env (handleArpreq env fuel) addr c packet = .ok c₁ := by
      rw [hostUnreachable, found, Option.isNone_some, if_neg Bool.false_ne_true, ← ip_eq]
      exact sent
    have does := srSendIcmpPacket_does (handleArpreq_does env fuel) sent
    obtain ⟨c', run, within', keeps', last⟩ := ih (does.messages_eq.trans known) within₁ found₁
      same fun p mem => told p (List.mem_cons_of_mem _ mem)
    refine ⟨c', by rw [List.foldlM_cons, first]; exact run, within', ?_, last⟩
    refine (keeps.mono fun x hits => ?_).trans (keeps'.mono fun x hits => ?_)
    · exact ⟨packet, List.mem_cons_self .., s, source, hits⟩
    · obtain ⟨p, mem, hit⟩ := hits
      exact ⟨p, List.mem_cons_of_mem _ mem, hit⟩

/-- `handle_arpreq`, where the sources of the request's packets do not lead back to it. -/
theorem handleArpreq_ok {fuel addr : ℕ} (known : messages c.sr = M)
    (within : WaitsWithin p₀ c.sr.cache) (found : c.sr.cache.find addr = some req)
    (told : ∀ packet ∈ req.packets, ∃ s, toldSource packet = some s ∧
      Succeeds env M p₀ fuel s ∧ ¬ Cascade.Hits M p₀ s req.ip) :
    ∃ c', handleArpreq env (fuel + 1) addr c = .ok c' ∧ WaitsWithin p₀ c'.sr.cache ∧
      Keeps (fun x => x = req.ip ∨ ∃ packet ∈ req.packets, ∃ s,
        toldSource packet = some s ∧ Cascade.Hits M p₀ s x) c.sr.cache c'.sr.cache := by
  rw [handleArpreq]
  dsimp only [Call.time]
  simp only [found]
  by_cases old : req.sent + 1 < env.time (c.timeReads + 1)
  · by_cases often : 5 ≤ req.timesSent
    · obtain ⟨c₁, run, within₁, keeps, found₁⟩ := foldlM_hostUnreachable_ok
        (c := { c with timeReads := c.timeReads + 2 }) known within found rfl told
      obtain ⟨-, rfl⟩ := find_eq_some_iff.1 found₁
      rw [if_pos old, if_pos often, run]
      refine ⟨abandon c₁ req.addr (env.time (c.timeReads + 1)) req, ?_, ?_, ?_⟩
      · simp only [bind, Except.bind, found₁]
        rfl
      · exact fun r mem => within₁ r (List.mem_of_mem_eraseP mem)
      · refine (keeps.mono fun x hit => Or.inr hit).trans ((keeps_destroy found₁).mono fun x hit => ?_)
        exact Or.inl hit
    · rw [if_pos old, if_neg often, srSendArpRequest_eq]
      refine ⟨_, rfl, within.update addr (fun r =>
        { r with sent := env.time c.timeReads, timesSent := r.timesSent + 1 }) (fun _ => rfl)
          (fun _ => rfl) fun _ => rfl, ?_⟩
      obtain ⟨-, rfl⟩ := find_eq_some_iff.1 found
      exact (keeps_update found (fun r => { r with
        sent := env.time c.timeReads, timesSent := r.timesSent + 1 }) fun _ => rfl).mono
          fun x h => Or.inl h
  · rw [if_neg old]
    exact ⟨_, rfl, within, .refl _ _⟩

theorem WaitsWithin.mem (within : WaitsWithin p₀ cache) {addr : ℕ} {packet : SrPacket}
    {l : List (Option UInt32)} (found : cache.find addr = some req) (live : p₀ req.ip = some l)
    (waits : packet ∈ req.packets) : toldSource packet ∈ some req.ip :: l := by
  obtain ⟨l', live', mem⟩ := within req (find_eq_some_iff.1 found).1 packet waits
  rw [live] at live'
  cases live'
  exact mem

theorem source_of_mem {g s : UInt32} {l : List (Option UInt32)} (live : p₀ g = some l)
    (mem : some s ∈ some g :: l) : Cascade.Source p₀ g s := by
  cases List.mem_cons.1 mem with
  | inl same => exact ⟨l, live, Or.inl (Option.some.inj same)⟩
  | inr waits => exact ⟨l, live, Or.inr waits⟩

theorem succeeds_of_next_none (env : Env) {d : UInt32} (settles : Cascade.Settles M p₀ d)
    (next : M.next d = none) (fuel : ℕ) : Succeeds env M p₀ fuel d := by
  intro c ipPacket type code known within long
  obtain ⟨found, -⟩ := settles.sound d .refl
  rcases srSendIcmpPacket_ways env (handleArpreq env fuel) c d type code long with
    ⟨lost, -⟩ | ⟨-, -, c', sent, same⟩ | ⟨-, gw, -, -, waits, -⟩
  · rw [known, found] at lost
    cases lost
  · exact ⟨c', sent, same ▸ within, same ▸ .refl _ _⟩
  · rw [known, next] at waits
    cases waits

/-- A message that comes to wait, when all that its request tells then ends. -/
theorem succeeds_of_next_some (env : Env) (every : ∀ ip, p₀ ip ≠ none) {d g : UInt32}
    (settles : Cascade.Settles M p₀ d) (next : M.next d = some g) {fuel : ℕ}
    (each : ∀ s, Cascade.Source p₀ g s → Succeeds env M p₀ fuel s) :
    Succeeds env M p₀ (fuel + 1) d := by
  intro c ipPacket type code known within long
  obtain ⟨found, tellable⟩ := settles.sound d .refl
  obtain ⟨l, live⟩ := Option.ne_none_iff_exists'.1 (every g)
  rcases srSendIcmpPacket_ways env (handleArpreq env (fuel + 1)) c d type code long with
    ⟨lost, -⟩ | ⟨-, none, -⟩ | ⟨-, gw, frame, name, waits, size, own, run⟩
  · rw [known, found] at lost
    cases lost
  · rw [known, next] at none
    cases none
  · obtain rfl : g = gw := Option.some.inj (by rw [← next, ← waits, known])
    obtain ⟨req, queued, same⟩ := find_queuereq c.sr.cache g frame (some name)
    have within' := within.queuereq every name size own
    subst same
    have packets : ∀ packet ∈ req.packets, ∃ s, toldSource packet = some s ∧
        Succeeds env M p₀ fuel s ∧ ¬ Cascade.Hits M p₀ s req.ip := by
      intro packet mem
      have waits := within'.mem queued live mem
      cases told : toldSource packet with
      | none =>
        rw [told] at waits
        exact absurd (by simpa using waits) (tellable req.ip l next live)
      | some s =>
        rw [told] at waits
        have source := source_of_mem live waits
        exact ⟨s, rfl, each s source, (settles.tells ⟨req.ip, next, source⟩).not_hits source⟩
    obtain ⟨c', handled, within'', keeps⟩ := handleArpreq_ok
      (c := { c with mallocs := c.mallocs + 1 }.setCache
        (srArpcacheQueuereq c.sr.cache req.ip frame (some name)).1)
      (known ▸ messages_congr rfl rfl (entries_queuereq c.sr.cache req.ip frame (some name)))
      within' queued packets
    have here : Cascade.Hits M p₀ d req.ip := ⟨d, .refl, next, every req.ip⟩
    refine ⟨c', run.trans handled, within'',
      ((keeps_queuereq req.ip frame (some name)).mono fun x same => same ▸ here).trans
        (keeps.mono fun x hit => ?_)⟩
    rcases hit with rfl | ⟨packet, mem, s, told, hits⟩
    · exact here
    · have waits := within'.mem queued live mem
      rw [told] at waits
      exact hits.of_tells ⟨req.ip, next, source_of_mem live waits⟩

/-- A message whose consequences come to an end with every request taken as exhausted. -/
theorem succeeds_of_settles (env : Env) (every : ∀ ip, p₀ ip ≠ none) {d : UInt32}
    (settles : Cascade.Settles M p₀ d) : ∃ n, ∀ fuel, n ≤ fuel → Succeeds env M p₀ fuel d := by
  have ends := settles.ends
  induction ends with
  | intro d _ ih =>
    cases next : M.next d with
    | none => exact ⟨0, fun fuel _ => succeeds_of_next_none env settles next fuel⟩
    | some g =>
      obtain ⟨l, live⟩ := Option.ne_none_iff_exists'.1 (every g)
      have told : ∀ s, some s ∈ some g :: l →
          ∃ n, ∀ fuel, n ≤ fuel → Succeeds env M p₀ fuel s := by
        intro s mem
        have tells : Cascade.Tells M p₀ d s := ⟨g, next, source_of_mem live mem⟩
        exact ih s tells (settles.tells tells)
      obtain ⟨n, each⟩ := Cascade.exists_fuel told
      refine ⟨n + 1, fun fuel enough => ?_⟩
      obtain ⟨fuel, rfl⟩ : ∃ k, fuel = k + 1 := ⟨fuel - 1, by omega⟩
      refine succeeds_of_next_some env every settles next fun s source => ?_
      obtain ⟨l', live', mem⟩ := source
      rw [live] at live'
      cases live'
      exact each fuel (by omega) s (List.mem_cons.2 (mem.imp (congrArg some) id))

/-- Whatever the clock shows, `handle_arpreq` ends where the cascade does with every request taken as
exhausted, and touches only the requests that this one gives up. -/
theorem handleArpreq_of_finishes (env : Env) (every : ∀ ip, p₀ ip ≠ none) {addr : ℕ}
    (known : messages c.sr = M) (within : WaitsWithin p₀ c.sr.cache)
    (found : c.sr.cache.find addr = some req)
    (live : p₀ req.ip = some (req.packets.map toldSource)) (finishes : Cascade.Finishes M p₀ req.ip) :
    ∃ n c', handleArpreq env n addr c = .ok c' ∧ WaitsWithin p₀ c'.sr.cache ∧
      Keeps (Cascade.Removes M p₀ req.ip) c.sr.cache c'.sr.cache := by
  obtain ⟨tellable, settles⟩ := finishes _ live
  obtain ⟨n, each⟩ := Cascade.exists_fuel fun s waits =>
    succeeds_of_settles env every (settles s waits)
  have told : ∀ packet ∈ req.packets, ∃ s, toldSource packet = some s ∧
      Succeeds env M p₀ n s ∧ ¬ Cascade.Hits M p₀ s req.ip := by
    intro packet waits
    have listed := List.mem_map_of_mem (f := toldSource) waits
    cases source : toldSource packet with
    | none => exact absurd (source ▸ listed) tellable
    | some s =>
      rw [source] at listed
      exact ⟨s, rfl, each n le_rfl s listed, (settles s listed).not_hits ⟨_, live, Or.inr listed⟩⟩
  obtain ⟨c', run, within', keeps⟩ := handleArpreq_ok known within found told
  refine ⟨n + 1, c', run, within', keeps.mono fun x hit => ⟨_, live, hit.imp_right ?_⟩⟩
  rintro ⟨packet, mem, s, source, hits⟩
  exact ⟨s, source ▸ List.mem_map_of_mem mem, hits⟩

end AnyClock

/-! ## When it ends -/

section Ends

variable {env : Env} {c : Call} {req : SrArpreq} {t : ℕ}

/-- When `handle_arpreq` ends, an expired request is gone. -/
theorem gone_of_handleArpreq {fuel : ℕ} {c' : Call} {addr : ℕ} (found : c.sr.cache.find addr = some req)
    (old : req.sent + 1 < env.time (c.timeReads + 1)) (often : 5 ≤ req.timesSent)
    (run : handleArpreq env fuel addr c = .ok c') : c'.sr.cache.find addr = none := by
  cases fuel with
  | zero => cases run
  | succ fuel =>
    obtain ⟨req', found', ways⟩ := handleArpreq_cases run
    cases found.symm.trans found'
    rcases ways with ⟨early, -⟩ | ⟨-, rare, -⟩ | ⟨-, -, c₁, last, -, -, rfl⟩
    · omega
    · omega
    · exact find_destroy c₁.sr.cache addr

theorem ends_of_finishes (unique : OnePerIp c.sr.cache) (mem : req ∈ c.sr.cache.requests)
    (old : req.sent + 1 < env.time (c.timeReads + 1)) (often : 5 ≤ req.timesSent)
    (still : ∀ k, env.time k = t)
    (finishes : Cascade.Finishes (messages c.sr) (exhausted t c.sr.cache) req.ip) :
    Ends env c req.addr := by
  have found : c.sr.cache.find req.addr = some req := find_eq_some_iff.2 ⟨mem, rfl⟩
  obtain ⟨n, p', given⟩ := Cascade.giveUp_isSome_iff.2 finishes
  have result := (handleArpreq_eq_giveUp still n unique found).trans given
  cases run : handleArpreq env n req.addr c with
  | error e =>
    rw [run] at result
    cases result
  | ok c' => exact ⟨n, c', run, gone_of_handleArpreq found old often run⟩

theorem finishes_of_ends (unique : OnePerIp c.sr.cache) (mem : req ∈ c.sr.cache.requests)
    (still : ∀ k, env.time k = t) (ends : Ends env c req.addr) :
    Cascade.Finishes (messages c.sr) (exhausted t c.sr.cache) req.ip := by
  obtain ⟨fuel, c', run, -⟩ := ends
  have given := handleArpreq_eq_giveUp still fuel unique (find_eq_some_iff.2 ⟨mem, rfl⟩)
  rw [run] at given
  exact Cascade.giveUp_isSome_iff.1 ⟨fuel, _, given.symm⟩

theorem unresolved_of_mem {cache : SrArpcache} (unique : OnePerIp cache) (mem : req ∈ cache.requests) :
    unresolved cache req.ip = some (req.packets.map toldSource) := by
  rw [unresolved, (findIp_eq_some_iff unique).2 ⟨mem, rfl⟩]
  rfl

theorem waitsWithin_unresolved {cache : SrArpcache} (unique : OnePerIp cache) :
    WaitsWithin (unresolved cache) cache :=
  fun r mem _ waits => ⟨r.packets.map toldSource, unresolved_of_mem unique mem,
    List.mem_cons_of_mem _ (List.mem_map_of_mem waits)⟩

/-- Whatever the clock shows, handling the request ends if the cascade does with every request taken
as exhausted. -/
theorem ends_of_unresolved (unique : OnePerIp c.sr.cache) (mem : req ∈ c.sr.cache.requests)
    (old : req.sent + 1 < env.time (c.timeReads + 1)) (often : 5 ≤ req.timesSent)
    (finishes : Cascade.Finishes (messages c.sr) (unresolved c.sr.cache) req.ip) :
    Ends env c req.addr := by
  have found : c.sr.cache.find req.addr = some req := find_eq_some_iff.2 ⟨mem, rfl⟩
  obtain ⟨n, c', run, -⟩ := handleArpreq_of_finishes env (fun ip => Option.some_ne_none _) rfl
    (waitsWithin_unresolved unique) found (unresolved_of_mem unique mem) finishes
  exact ⟨n, c', run, gone_of_handleArpreq found old often run⟩

/-- Handling an expired request: while the clock shows one time it ends exactly when the cascade of
the exhausted requests does, and whatever the clock shows it ends when the cascade does with every
request taken as exhausted. -/
theorem handleArpreq_ends_iff {ifs : List SrIf} {routes : List SrRt}
    (underway : Underway ifs routes c) (mem : req ∈ c.sr.cache.requests)
    (old : req.sent + 1 < env.time (c.timeReads + 1)) (often : 5 ≤ req.timesSent) :
    (∀ t, (∀ k, env.time k = t) → (Ends env c req.addr ↔
      Cascade.Finishes (messages c.sr) (exhausted t c.sr.cache) req.ip)) ∧
    (Cascade.Finishes (messages c.sr) (unresolved c.sr.cache) req.ip → Ends env c req.addr) :=
  ⟨fun _ still => ⟨finishes_of_ends underway.onePerIp mem still,
      ends_of_finishes underway.onePerIp mem old often still⟩,
    ends_of_unresolved underway.onePerIp mem old often⟩

end Ends

/-- A request for the first interface's address expires; the error about its packet waits for that of
the second. -/
theorem handleArpreq_ends_iff_waiting : ∃ c req, Underway twoInterfaces.ifList
    twoInterfaces.routingTable c ∧ req ∈ c.sr.cache.requests ∧
    req.packets.map toldSource = [some 0x0100000a] ∧ Ends (envAt 15) c req.addr := by
  obtain ⟨tr, sr, run, ⟨req, mem, facts⟩, next, found, last⟩ := Machine.Runs.exists_of_exec
    (M := machine) (C := fun _ _ _ => true) (i := twoInterfaces)
    (P := fun _ sr => (∃ req ∈ sr.cache.requests, req.ip = 0x0100000a ∧ req.sent = 13 ∧
        req.timesSent = 5 ∧ req.packets.map toldSource = [some 0x0100000a] ∧
        unresolved sr.cache req.ip = some [some 0x0100000a]) ∧
      (messages sr).next 0x0100000a = some 0x0101000a ∧
      ((messages sr).lost 0x0100000a = false ∧ (messages sr).lost 0x0101000a = false) ∧
      (messages sr).next 0x0101000a = none ∧ unresolved sr.cache 0x0101000a = some [])
    [.receive unroutable [101, 48] (envAt 5) 2, .timeout (envAt 7) 2, .timeout (envAt 9) 2,
      .timeout (envAt 11) 2, .timeout (envAt 13) 2] (by decide +kernel)
  obtain ⟨ip, sent, often, told, waiting⟩ := facts
  have second : Cascade.Settles (messages sr) (unresolved sr.cache) 0x0101000a :=
    .of_idle found.2 fun g next' => absurd (last.1.symm.trans next') (by simp)
  have first : Cascade.Settles (messages sr) (unresolved sr.cache) 0x0100000a := by
    refine .intro ⟨found.1, fun g l next' live => ?_⟩ ?_
    · cases next.symm.trans next'
      cases last.2.symm.trans live
      simp
    · rintro s ⟨g, next', l, live, source⟩
      cases next.symm.trans next'
      cases last.2.symm.trans live
      rw [source.resolve_right (by simp)]
      exact second
  have underway : Underway twoInterfaces.ifList twoInterfaces.routingTable (.start sr) :=
    ⟨tr, sr, envAt 15, .start sr, run.mono fun _ _ _ _ => trivial, .refl _, Or.inl rfl⟩
  refine ⟨.start sr, req, underway, mem, told, ?_⟩
  refine (handleArpreq_ends_iff underway mem (by simp [sent, envAt]) (by omega)).2 fun l live => ?_
  cases waiting.symm.trans live
  refine ⟨by simp, fun s waits => ?_⟩
  rw [Option.some.inj (List.mem_singleton.1 waits)]
  exact first

/-- One interface, which is itself the gateway of a host and of its own address. -/
def ownGateway : SrInstance :=
  init [⟨[101, 48], ⟨[2, 0, 0, 0, 2, 1], rfl⟩, 0x0100000a⟩]
    [⟨0x0200a8c0, 0x0100000a, 0xffffffff, [101, 48]⟩, ⟨0x0100000a, 0x0100000a, 0xffffffff, [101, 48]⟩]

/-- The error about the error that waits for the interface's own address waits for that address. -/
theorem not_ends_ownGateway : ¬ ∀ ifs routes tr sr env req, machine.Run (init ifs routes) tr sr →
    req ∈ sr.cache.requests → 5 ≤ req.timesSent → req.sent + 1 < env.time 1 →
    Ends env (.start sr) req.addr := by
  intro all
  obtain ⟨tr, sr, run, ⟨req, mem, often, sent, waiting, same⟩, next⟩ := Machine.Runs.exists_of_exec
    (M := machine) (C := fun _ _ _ => true) (i := ownGateway)
    (P := fun _ sr => (∃ req ∈ sr.cache.requests, 5 ≤ req.timesSent ∧ req.sent = 13 ∧
        exhausted 15 sr.cache req.ip = some [some req.ip] ∧ req.ip = 0x0100000a) ∧
      (messages sr).next 0x0100000a = some 0x0100000a)
    [.receive unroutable [101, 48] (envAt 5) 2, .timeout (envAt 7) 2, .timeout (envAt 9) 2,
      .timeout (envAt 11) 2, .timeout (envAt 13) 2] (by decide +kernel)
  have run : machine.Run (init ownGateway.ifList ownGateway.routingTable) tr sr :=
    run.mono fun _ _ _ _ => trivial
  have unique : OnePerIp (Call.start sr).sr.cache := onePerIp_of_run run
  have ends := all _ _ tr sr (envAt 15) req run mem often (by simp [sent, envAt])
  have finishes := finishes_of_ends (t := 15) unique mem (fun _ => rfl) ends
  have settles := (finishes _ waiting).2 req.ip (List.mem_singleton_self _)
  exact settles.not_cycle (.single ⟨req.ip, same ▸ next, _, waiting, Or.inl rfl⟩)

end ComputerNetwork.Router
