import ComputerNetwork.Router.Effects

/-!
# The life of a cache entry

The ARP cache as a machine of its own, with the inserts, lookups and expiries of a run.
`arpcache_sound` traces what a lookup returns back to the insert it came from, which no sweep since
has found more than fifteen seconds old, and says that a mapping which a sweep invalidates comes back
only through a later insert.  An insert does not look for an older entry of the same address, and a
lookup returns the last entry; `lookup_after_insert` says when it is the new one.
-/

namespace ComputerNetwork.Router

open Lib

/-! ## The machine -/

inductive CacheAction where
  | insert (mac : Mac) (ip : UInt32) (now : ℕ)
  | lookup (ip : UInt32)
  | sweep (now : ℕ)
  deriving DecidableEq

/-- The reading of the clock that a call makes. -/
def CacheAction.reading : CacheAction → Option ℕ
  | .insert _ _ now => some now
  | .lookup _ => none
  | .sweep now => some now

/-- A lookup shows what it returns. -/
def cacheStep (cache : SrArpcache) : CacheAction → Option (SrArpcache × Option SrArpentry)
  | .insert mac ip now => some ((srArpcacheInsert cache mac ip now).1, none)
  | .lookup ip => some (cache, srArpcacheLookup cache ip)
  | .sweep now => some (expireEntries cache now, none)

def cacheMachine : Machine SrArpcache CacheAction (Option SrArpentry) where
  step := cacheStep

abbrev CacheTrace := List (CacheAction × Option SrArpentry)

/-- The clock does not go back. -/
def ClockKept (tr : CacheTrace) (a : CacheAction) : Prop :=
  ∀ entry ∈ tr, ∀ earlier ∈ entry.1.reading, ∀ now ∈ a.reading, earlier ≤ now

/-- The sweep behind the requests leaves the entries alone, so that a round of the timeout thread
does to them what `expireEntries` does. -/
theorem Does.entries {env : Env} {c c' : Call} (does : Does env c c') :
    c'.sr.cache.entries = c.sr.cache.entries := by
  induction does with
  | refl | malloc | early => rfl
  | trans _ _ ih ih' => exact ih'.trans ih
  | icmp | forward =>
    rw [srSendPacket_eq]
    rfl
  | queue c gw packet iface => exact entries_queuereq c.sr.cache gw packet iface
  | ask =>
    simp only [askAgain, srSendArpRequest_eq]
    rfl
  | giveUp _ _ _ _ _ ih => exact ih

theorem srArpcacheTimeout_entries {env : Env} {fuel : ℕ} {c c' : Call}
    (run : srArpcacheTimeout env fuel c = .ok c') :
    c'.sr.cache.entries = (expireEntries c.sr.cache (env.time c.timeReads)).entries :=
  (srArpcacheTimeout_does run).entries

/-! ## Where entries come from -/

/-- The trace has the insert that made the entry, and every sweep since then came while it was
fifteen seconds old at most. -/
def Sourced (tr : CacheTrace) (e : SrArpentry) : Prop :=
  ∃ before shown after, tr = before ++ (.insert e.mac e.ip e.added, shown) :: after ∧
    ∀ now shown', (.sweep now, shown') ∈ after → now ≤ e.added + srArpcacheTo

theorem Sourced.snoc {tr : CacheTrace} {e : SrArpentry} (h : Sourced tr e) {a : CacheAction}
    (o : Option SrArpentry) (young : ∀ now, a = .sweep now → now ≤ e.added + srArpcacheTo) :
    Sourced (tr ++ [(a, o)]) e := by
  obtain ⟨before, shown, after, rfl, swept⟩ := h
  refine ⟨before, shown, after ++ [(a, o)], by simp, fun now shown' mem => ?_⟩
  cases List.mem_append.1 mem with
  | inl mem => exact swept now shown' mem
  | inr mem =>
    have same := congrArg Prod.fst (List.mem_singleton.1 mem)
    exact young now same.symm

theorem mem_insertEntry {slots : List SrArpentry} {entry e : SrArpentry}
    (mem : e ∈ insertEntry slots entry) : e ∈ slots ∨ e = entry := by
  induction slots with
  | nil => cases mem
  | cons first rest ih =>
    rw [insertEntry] at mem
    split_ifs at mem
    · rcases List.mem_cons.1 mem with rfl | mem
      · exact Or.inl (List.mem_cons_self ..)
      · exact (ih mem).imp (List.mem_cons_of_mem _) id
    · rcases List.mem_cons.1 mem with rfl | mem
      · exact Or.inr rfl
      · exact Or.inl (List.mem_cons_of_mem _ mem)

/-- A valid entry that a sweep leaves was there and is not old. -/
theorem mem_expireEntries {cache : SrArpcache} {now : ℕ} {e : SrArpentry}
    (mem : e ∈ (expireEntries cache now).entries.slots) (valid : e.valid = true) :
    e ∈ cache.entries.slots ∧ now ≤ e.added + srArpcacheTo := by
  obtain ⟨old, was, rfl⟩ := List.mem_map.1 mem
  split_ifs at valid ⊢ with expired
  exact ⟨was, Nat.le_of_not_lt fun late => expired ⟨valid, late⟩⟩

/-- Every valid entry of a reachable cache is sourced. -/
theorem sourced_of_run {C : CacheTrace → SrArpcache → CacheAction → Prop} {tr : CacheTrace}
    {cache : SrArpcache} (run : cacheMachine.Runs C srArpcacheInit tr cache) :
    ∀ e ∈ cache.entries.slots, e.valid = true → Sourced tr e := by
  refine run.invariant
    (I := fun tr cache => ∀ e ∈ cache.entries.slots, e.valid = true → Sourced tr e) ?_ ?_
  · intro e mem valid
    rw [List.eq_of_mem_replicate mem] at valid
    cases valid
  · intro tr cache a o cache' _ sourced _ st e mem valid
    change cacheStep cache a = some (cache', o) at st
    cases a with
    | insert mac ip now =>
      cases st
      rcases mem_insertEntry mem with old | rfl
      · exact (sourced e old valid).snoc _ (by simp)
      · exact ⟨tr, none, [], by simp, by simp⟩
    | lookup ip =>
      cases st
      exact (sourced e mem valid).snoc _ (by simp)
    | sweep now =>
      cases st
      obtain ⟨old, young⟩ := mem_expireEntries mem valid
      refine (sourced e old valid).snoc _ ?_
      rintro now' ⟨⟩
      exact young

theorem mem_of_lookup {cache : SrArpcache} {ip : UInt32} {e : SrArpentry}
    (found : srArpcacheLookup cache ip = some e) :
    e ∈ cache.entries.slots ∧ e.valid = true ∧ e.ip = ip := by
  have mem := List.mem_of_getLast? found
  rw [List.mem_filter, Bool.and_eq_true, decide_eq_true_eq] at mem
  exact mem

theorem sourced_of_lookup {C : CacheTrace → SrArpcache → CacheAction → Prop}
    {before after : CacheTrace} {cache : SrArpcache} {ip : UInt32} {e : SrArpentry}
    (run : cacheMachine.Runs C srArpcacheInit (before ++ (.lookup ip, some e) :: after) cache) :
    e.ip = ip ∧ Sourced before e := by
  obtain ⟨state, next, ran, -, st⟩ := run.step_of_mem
  obtain ⟨-, found⟩ := Prod.mk.inj (Option.some.inj st)
  obtain ⟨mem, valid, same⟩ := mem_of_lookup found
  exact ⟨same, sourced_of_run ran e mem valid⟩

/-- What a lookup returns is young enough for every sweep before it: a sweep since the insert has
left it, and the clock has not gone back since one before. -/
theorem young_of_lookup {before after : CacheTrace} {cache : SrArpcache} {ip : UInt32}
    {e : SrArpentry} (run : cacheMachine.Runs (fun tr _ a => ClockKept tr a) srArpcacheInit
      (before ++ (.lookup ip, some e) :: after) cache) {now : ℕ} {shown : Option SrArpentry}
    (mem : (.sweep now, shown) ∈ before) : now ≤ e.added + srArpcacheTo := by
  obtain ⟨-, made, shown', since, rfl, swept⟩ := sourced_of_lookup run
  rw [List.append_assoc] at run
  obtain ⟨-, -, -, kept, -⟩ := run.step_of_mem
  cases List.mem_append.1 mem with
  | inl early => exact (kept _ early now rfl e.added rfl).trans (Nat.le_add_right ..)
  | inr late =>
    cases List.mem_cons.1 late with
    | inl same => cases same
    | inr late => exact swept now shown late

/-- What a lookup returns was inserted, and no sweep since then came more than fifteen seconds after.
What it returns after a sweep was inserted later than anything that the sweep invalidated. -/
theorem arpcache_sound {tr : CacheTrace} {cache : SrArpcache}
    (run : cacheMachine.Runs (fun tr _ a => ClockKept tr a) srArpcacheInit tr cache) :
    (∀ before ip e after, tr = before ++ (.lookup ip, some e) :: after →
      e.ip = ip ∧ Sourced before e) ∧
    ∀ before now shown between ip e after,
      tr = before ++ (.sweep now, shown) :: (between ++ (.lookup ip, some e) :: after) →
      ∀ state, cacheMachine.Runs (fun tr _ a => ClockKept tr a) srArpcacheInit before state →
        ∀ expired ∈ state.entries.slots, expired.valid = true →
          expired.added + srArpcacheTo < now → expired.added < e.added := by
  constructor
  · rintro before ip e after rfl
    exact sourced_of_lookup run
  · rintro before now shown between ip e after rfl state - expired - - old
    have whole : before ++ (.sweep now, shown) :: (between ++ (.lookup ip, some e) :: after) =
        (before ++ (.sweep now, shown) :: between) ++ (.lookup ip, some e) :: after := by simp
    have mem : (.sweep now, shown) ∈ before ++ (.sweep now, shown) :: between := by simp
    rw [whole] at run
    have young := young_of_lookup run mem
    omega

/-- An entry expires, and its address is found again after a second insert. -/
theorem arpcache_sound_expired : ∃ tr cache,
    cacheMachine.Runs (fun tr _ a => ClockKept tr a) srArpcacheInit tr cache ∧
    tr.map Prod.snd = [none, some ⟨⟨[2, 0, 0, 0, 0, 7], rfl⟩, 9, 5, true⟩, none, none, none,
      some ⟨⟨[2, 0, 0, 0, 0, 7], rfl⟩, 9, 22, true⟩] ∧
    ∀ before ip e after, tr = before ++ (.lookup ip, some e) :: after →
      e.ip = ip ∧ Sourced before e := by
  obtain ⟨tr, cache, run, shown⟩ := Machine.Runs.exists_of_exec (M := cacheMachine)
    (i := srArpcacheInit)
    (C := fun tr _ a => tr.all fun entry =>
      entry.1.reading.all fun earlier => a.reading.all fun now => earlier ≤ now)
    (P := fun tr _ => tr.map Prod.snd = [none, some ⟨⟨[2, 0, 0, 0, 0, 7], rfl⟩, 9, 5, true⟩, none,
      none, none, some ⟨⟨[2, 0, 0, 0, 0, 7], rfl⟩, 9, 22, true⟩])
    [.insert ⟨[2, 0, 0, 0, 0, 7], rfl⟩ 9 5, .lookup 9, .sweep 21, .lookup 9,
      .insert ⟨[2, 0, 0, 0, 0, 7], rfl⟩ 9 22, .lookup 9] (by decide +kernel)
  have kept := run.mono (D := fun tr _ a => ClockKept tr a) fun tr _ a check => by
    simpa [ClockKept, Option.all_eq_true] using check
  exact ⟨tr, cache, kept, shown, (arpcache_sound kept).1⟩

/-! ## A lookup after an insert -/

/-- The last valid entry for the address. -/
def lastEntry (slots : List SrArpentry) (ip : UInt32) : Option SrArpentry :=
  (slots.filter fun e => e.valid && e.ip = ip).getLast?

/-- Behind the first free slot no entry for the address is the last that has another hardware
address; with no free slot the last entry for the address has this one. -/
def FoundAfterInsert (slots : List SrArpentry) (mac : Mac) (ip : UInt32) : Prop :=
  if slots.all SrArpentry.valid then ∃ e, lastEntry slots ip = some e ∧ e.mac = mac
  else ∀ e, lastEntry (slots.dropWhile SrArpentry.valid) ip = some e → e.mac = mac

theorem lastEntry_cons (e : SrArpentry) (slots : List SrArpentry) (ip : UInt32) :
    lastEntry (e :: slots) ip =
      (lastEntry slots ip).or (if e.valid && e.ip = ip then some e else none) := by
  unfold lastEntry
  rw [List.filter_cons]
  split_ifs
  · rw [List.getLast?_cons, Option.or_some]
  · rw [Option.or_none]

theorem lastEntry_insertEntry (slots : List SrArpentry) (mac : Mac) (ip : UInt32) (now : ℕ) :
    lastEntry (insertEntry slots ⟨mac, ip, now, true⟩) ip =
      if slots.all SrArpentry.valid then lastEntry slots ip
      else (lastEntry (slots.dropWhile SrArpentry.valid) ip).or (some ⟨mac, ip, now, true⟩) := by
  induction slots with
  | nil => rfl
  | cons e rest ih =>
    rw [insertEntry, List.all_cons, List.dropWhile_cons]
    by_cases valid : e.valid = true
    · have all : (e.valid && rest.all SrArpentry.valid) = rest.all SrArpentry.valid := by
        rw [valid, Bool.true_and]
      rw [if_pos valid, if_pos valid, lastEntry_cons, ih, all]
      by_cases full : rest.all SrArpentry.valid = true
      · rw [if_pos full, if_pos full, lastEntry_cons]
      · rw [if_neg full, if_neg full, Option.or_assoc, Option.some_or]
    · rw [if_neg valid, if_neg valid, if_neg (by simp [valid]), lastEntry_cons, lastEntry_cons]
      simp [valid]

theorem foundAfterInsert_iff (slots : List SrArpentry) (mac : Mac) (ip : UInt32) (now : ℕ) :
    (∃ e, lastEntry (insertEntry slots ⟨mac, ip, now, true⟩) ip = some e ∧ e.mac = mac) ↔
      FoundAfterInsert slots mac ip := by
  rw [lastEntry_insertEntry, FoundAfterInsert]
  split_ifs with full
  · exact Iff.rfl
  · cases lastEntry (slots.dropWhile SrArpentry.valid) ip with
    | none => simp
    | some e => simp

/-- In every run, a lookup right after an insert returns the inserted hardware address exactly when the
cache before the insert is as `FoundAfterInsert` says. -/
theorem lookup_after_insert {tr : CacheTrace} {cache : SrArpcache}
    (run : cacheMachine.Runs (fun tr _ a => ClockKept tr a) srArpcacheInit tr cache) :
    ∀ before mac ip now shown found after,
      tr = before ++ (.insert mac ip now, shown) :: (.lookup ip, found) :: after →
      ∃ state, cacheMachine.Runs (fun tr _ a => ClockKept tr a) srArpcacheInit before state ∧
        ((∃ e, found = some e ∧ e.mac = mac) ↔ FoundAfterInsert state.entries.slots mac ip) := by
  rintro before mac ip now shown found after rfl
  have whole : before ++ (.insert mac ip now, shown) :: (.lookup ip, found) :: after =
      (before ++ [(.insert mac ip now, shown)]) ++ (.lookup ip, found) :: after := by simp
  rw [whole] at run
  obtain ⟨inserted, looked, after_insert, -, look⟩ := run.step_of_mem
  obtain ⟨state, ran, -, st⟩ := after_insert.of_snoc
  cases st
  cases look
  exact ⟨state, ran, foundAfterInsert_iff state.entries.slots mac ip now⟩

def oldMac : Mac := ⟨[2, 0, 0, 0, 0, 8], rfl⟩

def newMac : Mac := ⟨[2, 0, 0, 0, 0, 9], rfl⟩

/-- A slot in front of the entry for the address 10 has become free. -/
def hidden : CacheTrace :=
  [(.insert ⟨[2, 0, 0, 0, 0, 7], rfl⟩ 9 0, none), (.insert oldMac 10 10, none), (.sweep 16, none)]

/-- The address 10 is inserted a second time. -/
theorem exists_run_hidden : ∃ cache,
    cacheMachine.Runs (fun tr _ a => ClockKept tr a) srArpcacheInit
      (hidden ++ [(.insert newMac 10 16, none), (.lookup 10, some ⟨oldMac, 10, 10, true⟩)]) cache := by
  obtain ⟨tr, cache, run, shown⟩ := Machine.Runs.exists_of_exec (M := cacheMachine)
    (i := srArpcacheInit)
    (C := fun tr _ a => tr.all fun entry =>
      entry.1.reading.all fun earlier => a.reading.all fun now => earlier ≤ now)
    (P := fun tr _ => tr = hidden ++
      [(.insert newMac 10 16, none), (.lookup 10, some ⟨oldMac, 10, 10, true⟩)])
    (hidden.map Prod.fst ++ [.insert newMac 10 16, .lookup 10]) (by decide +kernel)
  rw [← shown]
  exact ⟨cache, run.mono fun tr _ a check => by
    simpa [ClockKept, Option.all_eq_true] using check⟩

theorem lookup_after_insert_hidden : ∃ state,
    cacheMachine.Runs (fun tr _ a => ClockKept tr a) srArpcacheInit hidden state ∧
      ¬ FoundAfterInsert state.entries.slots newMac 10 := by
  obtain ⟨cache, run⟩ := exists_run_hidden
  obtain ⟨state, ran, found⟩ := lookup_after_insert run hidden newMac 10 16 none _ [] rfl
  refine ⟨state, ran, fun new => ?_⟩
  obtain ⟨e, same, mac⟩ := found.2 new
  cases same
  exact absurd mac (by decide)

/-- The lookup returns the older hardware address. -/
theorem not_lookup_after_insert : ¬ ∀ tr cache,
    cacheMachine.Runs (fun tr _ a => ClockKept tr a) srArpcacheInit tr cache →
    ∀ before mac ip now shown found after,
      tr = before ++ (.insert mac ip now, shown) :: (.lookup ip, found) :: after →
      ∃ e, found = some e ∧ e.mac = mac := by
  intro claim
  obtain ⟨cache, run⟩ := exists_run_hidden
  obtain ⟨e, same, mac⟩ := claim _ cache run hidden newMac 10 16 none _ [] rfl
  cases same
  exact absurd mac (by decide)

end ComputerNetwork.Router
