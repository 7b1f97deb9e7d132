import ComputerNetwork.Router.Session

/-!
# The wire between the switch and the router

Runs of a session, in which the switch, the controller, the router and its threads take their steps in
any order.  `Joined` relates what has happened at both ends and what is on the connection.

`wire_in` and `wire_out` say that the session is a wire between the ports of the switch and the
interfaces of the router, `starts_iff` which orders of steps let the router come up, and
`template_never_runs` that none does for a router that asks for a template.  `reads_bytes` connects the
steps with the bytes on the connection.
-/

namespace ComputerNetwork.Router

open Lib

/-! ## Runs of a session -/

section Runs

variable {topo : List SwInfo} {table : List SrRt} {o : Options} {tr : SessionTrace} {s s' : Session}
  {a : SessionAction} {shown : List SessionEvent} {m : VnsMessage} {c : Command}

attribute [local simp] SessionEvent.message SessionEvent.call SessionEvent.out SessionEvent.transmitted

@[local simp] theorem filterMap_one {α β : Type} (f : α → Option β) (a : α) :
    [a].filterMap f = (f a).toList := filterMap_snoc f [] a

@[simp] theorem events_snoc : events (tr ++ [(a, shown)]) = events tr ++ shown := by
  simp [events]

@[simp] theorem downs_snoc :
    downs (tr ++ [(a, shown)]) = downs tr ++ shown.filterMap SessionEvent.message := by
  rw [downs, events_snoc, List.filterMap_append, downs]

@[simp] theorem calls_snoc :
    calls (tr ++ [(a, shown)]) = calls tr ++ shown.filterMap SessionEvent.call := by
  rw [calls, events_snoc, List.filterMap_append, calls]

@[simp] theorem transmits_snoc :
    transmits (tr ++ [(a, shown)]) = transmits tr ++ shown.filterMap SessionEvent.transmitted := by
  rw [transmits, events_snoc, List.filterMap_append, transmits]

@[simp] theorem packetOuts_snoc :
    packetOuts (tr ++ [(a, shown)]) = packetOuts tr ++ shown.filterMap SessionEvent.out := by
  rw [packetOuts, events_snoc, List.filterMap_append, packetOuts]

@[simp] theorem packetIns_snoc :
    packetIns (tr ++ [(a, shown)]) = packetIns tr ++ (cameIn (a, shown)).toList :=
  filterMap_snoc cameIn tr _

/-- The port of the interface of a packet. -/
def atPort (topo : List SwInfo) (packet : Name × List UInt8) : Option ℕ × List UInt8 :=
  (portOf topo packet.1, packet.2)

/-- A packet at a port. -/
def here (packet : ℕ × List UInt8) : Option ℕ × List UInt8 := (some packet.1, packet.2)

/-- What the router sends on the topology. -/
def FromRouter (topo : List SwInfo) (l : SRServerListener) : Command → Prop
  | .packet iface _ => l = listenerOf topo ∧ ∃ v ∈ topo, v.name = iface
  | .openTemplate .. => False
  | _ => True

def Command.isOpen : Command → Bool
  | openTopology .. => true
  | _ => false

def VnsMessage.isAuthRequest : VnsMessage → Bool
  | authRequest _ => true
  | _ => false

/-- What the steps of both ends keep. -/
structure Joined (topo : List SwInfo) (table : List SrRt) (tr : SessionTrace) (s : Session) : Prop where
  alive : s.lost = false
  listener : s.listener = ⟨none, fun _ => none, fun _ => none⟩ ∨ s.listener = listenerOf topo
  quiet : s.accepted = false → downs tr = [] ∧ s.up = []
  first : s.accepted = true → ∃ salt rest, downs tr = .authRequest salt :: rest ∧
    ∀ m ∈ rest, m.isAuthRequest = false
  from_ : ∀ m ∈ downs tr, FromController topo m
  announced : (downs tr).any VnsMessage.isHardwareInfo = true → s.listener = listenerOf topo
  early : s.phase = .authRequest ∨ s.phase = .authStatus →
    (downs tr).any VnsMessage.isHardwareInfo = false ∧ ∀ c ∈ s.up, c.isOpen = false
  up : ∀ c ∈ s.up, FromRouter topo s.listener c
  heard : ∃ read, downs tr = read ++ s.down ∧ Heard topo table read (calls tr) s.phase s.client
  outs : (packetOuts tr).map here ++ (s.up.filterMap Command.carried).map (atPort topo) =
    (transmits tr).map (atPort topo)
  ins : ((downs tr).filterMap VnsMessage.carried).map (atPort topo) = (packetIns tr).map here

theorem Joined.silent (joined : Joined topo table tr s) (none_ : cameIn (a, []) = none) :
    Joined topo table (tr ++ [(a, [])]) s where
  alive := joined.alive
  listener := joined.listener
  quiet := by simpa using joined.quiet
  first := by simpa using joined.first
  from_ := by simpa using joined.from_
  announced := by simpa using joined.announced
  early := by simpa using joined.early
  up := joined.up
  heard := by simpa using joined.heard
  outs := by simpa using joined.outs
  ins := by simpa [none_] using joined.ins

theorem start_joined (user : Name) : Joined topo table [] (Session.start table user) where
  alive := rfl
  listener := .inl rfl
  quiet _ := ⟨rfl, rfl⟩
  first := Bool.noConfusion
  from_ := by simp [downs, events]
  announced := by simp [downs, events]
  early _ := by simp [downs, events, Session.start]
  up := by simp [Session.start]
  heard := ⟨[], rfl, {
    asked := fun _ => rfl
    authenticated := Phase.noConfusion
    noTemplate := Phase.noConfusion
    running := Phase.noConfusion
    comesUp := iff_of_true Phase.noConfusion ⟨fun before m behind eq => by simp at eq, by simp⟩
    interfaces := rfl
    table := rfl
    exact := fun _ => rfl
    before := List.prefix_rfl }⟩
  outs := rfl
  ins := rfl

theorem put_eq (alive : s.lost = false) :
    s.put m = ({ s with down := s.down ++ [m] }, [.down m]) := by
  rw [Session.put, if_neg (by rw [alive]; decide)]

theorem Joined.down (joined : Joined topo table tr s) (accepted : s.accepted = true)
    (from_ : FromController topo m) (later : m.isAuthRequest = false)
    (announced : m.isHardwareInfo = true →
      s.listener = listenerOf topo ∧ s.phase ≠ .authRequest ∧ s.phase ≠ .authStatus)
    (came : m.carried.map (atPort topo) = (cameIn (a, [.down m])).map here) :
    Joined topo table (tr ++ [(a, [.down m])]) { s with down := s.down ++ [m] } where
  alive := joined.alive
  listener := joined.listener
  quiet no := by cases accepted.symm.trans no
  first _ := by
    obtain ⟨salt, rest, eq, others⟩ := joined.first accepted
    refine ⟨salt, rest ++ [m], by simp [eq], fun m' mem => ?_⟩
    rcases List.mem_append.1 mem with old | new
    · exact others m' old
    · rwa [List.mem_singleton.1 new]
  from_ m' mem := by
    simp only [downs_snoc, filterMap_one, SessionEvent.message, Option.toList_some,
      List.mem_append, List.mem_singleton] at mem
    rcases mem with old | rfl
    · exact joined.from_ m' old
    · exact from_
  announced any := by
    simp only [downs_snoc, filterMap_one, SessionEvent.message, Option.toList_some, any_snoc,
      Bool.or_eq_true] at any
    exact any.elim joined.announced fun this => (announced this).1
  early soon := by
    obtain ⟨none_, unopened⟩ := joined.early soon
    refine ⟨?_, unopened⟩
    simp only [downs_snoc, filterMap_one, SessionEvent.message, Option.toList_some, any_snoc, none_,
      Bool.false_or]
    by_contra this
    obtain ⟨-, no, no'⟩ := announced (by simpa using this)
    exact soon.elim no no'
  up := joined.up
  heard := by
    obtain ⟨read, eq, heard⟩ := joined.heard
    refine ⟨read, by simp [eq], ?_⟩
    simpa using heard
  outs := by simpa using joined.outs
  ins := by
    simp only [downs_snoc, packetIns_snoc, filterMap_one, SessionEvent.message, Option.toList_some,
      filterMap_snoc, List.map_append, joined.ins]
    congr 1
    cases carried : m.carried with
    | none =>
      rw [carried] at came
      rw [Option.map_eq_none_iff.1 came.symm]
      rfl
    | some packet =>
      rw [carried] at came
      obtain ⟨packet', eq, same⟩ := Option.map_eq_some_iff.1 came.symm
      rw [eq, Option.toList_some, Option.toList_some, List.map_singleton, List.map_singleton, same]

theorem Joined.pop {rest : List Command} (joined : Joined topo table tr s) (next : s.up = c :: rest)
    (noPacket : c.carried = none) : Joined topo table tr { s with up := rest } where
  alive := joined.alive
  listener := joined.listener
  quiet no := by
    have none_ := (joined.quiet no).2
    rw [next] at none_
    cases none_
  first := joined.first
  from_ := joined.from_
  announced := joined.announced
  early soon := by
    obtain ⟨none_, unopened⟩ := joined.early soon
    rw [next] at unopened
    exact ⟨none_, fun c' mem => unopened c' (List.mem_cons_of_mem _ mem)⟩
  up c' mem := joined.up c' (by rw [next]; exact List.mem_cons_of_mem _ mem)
  heard := joined.heard
  outs := by
    have outs := joined.outs
    rwa [next, List.filterMap_cons_none noPacket] at outs
  ins := joined.ins

theorem Joined.known (joined : Joined topo table tr s) :
    Joined topo table tr { s with listener := listenerOf topo } where
  alive := joined.alive
  listener := .inr rfl
  quiet := joined.quiet
  first := joined.first
  from_ := joined.from_
  announced _ := rfl
  early := joined.early
  up c mem := by
    have from_ := joined.up c mem
    cases c with
    | packet iface frame => exact ⟨rfl, from_.2⟩
    | _ => exact from_
  heard := joined.heard
  outs := joined.outs
  ins := joined.ins

theorem Joined.packetIn {port : ℕ} {pkt : List UInt8} (joined : Joined topo table tr s)
    (proper : ProperTopology topo) (small : pkt.length + 24 ≤ 10000)
    (st : Session.step o s (.packetIn port pkt) = some (s', shown)) :
    Joined topo table (tr ++ [(.packetIn port pkt, shown)]) s' := by
  rw [Session.step] at st
  cases named : s.listener.portToIntfname port with
  | none =>
    rw [named] at st
    cases st
    exact joined.silent rfl
  | some intfname =>
    rw [named] at st
    dsimp only at st
    have listener : s.listener = listenerOf topo := by
      refine joined.listener.resolve_left fun unset => ?_
      rw [unset] at named
      cases named
    rw [listener] at named
    obtain ⟨v, mem, rfl, rfl⟩ := exists_of_portToIntfname named
    split_ifs at st with accepted
    · rw [put_eq joined.alive] at st
      cases st
      refine joined.down accepted ⟨⟨v, mem, rfl⟩, small⟩ rfl Bool.noConfusion ?_
      show some (portOf topo v.name, pkt) = _
      rw [portOf_eq proper mem]
      rfl
    · cases st
      exact joined.silent rfl

theorem Joined.connect {salt : List UInt8} (joined : Joined topo table tr s) (size : salt.length = 20)
    (st : Session.step o s (.connect salt) = some (s', shown)) :
    Joined topo table (tr ++ [(.connect salt, shown)]) s' := by
  rw [Session.step] at st
  split_ifs at st with accepted
  rw [put_eq (show ({ s with accepted := true } : Session).lost = false from joined.alive)] at st
  cases st
  have none_ := (joined.quiet (by simpa using accepted)).1
  refine
    { alive := joined.alive
      listener := joined.listener
      quiet := Bool.noConfusion
      first := fun _ => ⟨salt, [], by simp [none_], by simp⟩
      from_ := fun m mem => ?_
      announced := by simp [none_, VnsMessage.isHardwareInfo]
      early := fun soon => ?_
      up := joined.up
      heard := ?_
      outs := by simpa using joined.outs
      ins := by simpa [VnsMessage.carried, cameIn] using joined.ins }
  · simp only [downs_snoc, none_, filterMap_one, SessionEvent.message, Option.toList_some,
      List.nil_append, List.mem_singleton] at mem
    rw [mem]
    exact size
  · obtain ⟨-, unopened⟩ := joined.early soon
    exact ⟨by simp [none_, VnsMessage.isHardwareInfo], unopened⟩
  · obtain ⟨read, eq, heard⟩ := joined.heard
    refine ⟨read, by simp [eq], ?_⟩
    simpa using heard

theorem Joined.takeOut {rest : List Command} {iface frame : List UInt8} {v : SwInfo} {conn : List UInt8}
    {survives : Bool} (joined : Joined topo table tr s) (proper : ProperTopology topo)
    (next : s.up = .packet iface frame :: rest) (mem : v ∈ topo) (named : v.name = iface) :
    Joined topo table
      (tr ++ [(.controllerReads conn survives, [.packetOut frame v.port])]) { s with up := rest } where
  alive := joined.alive
  listener := joined.listener
  quiet no := by
    have none_ := (joined.quiet no).2
    rw [next] at none_
    cases none_
  first := by simpa using joined.first
  from_ := by simpa using joined.from_
  announced := by simpa using joined.announced
  early soon := by
    obtain ⟨none_, unopened⟩ := joined.early soon
    rw [next] at unopened
    exact ⟨by simpa using none_, fun c' mem => unopened c' (List.mem_cons_of_mem _ mem)⟩
  up c' mem := joined.up c' (by rw [next]; exact List.mem_cons_of_mem _ mem)
  heard := by simpa using joined.heard
  outs := by
    have outs := joined.outs
    rw [next, List.filterMap_cons_some (show Command.carried (.packet iface frame) = some (iface, frame)
      from rfl), List.map_cons, atPort, ← named, portOf_eq proper mem] at outs
    simpa [here] using outs
  ins := by simpa [cameIn] using joined.ins

theorem Joined.controllerReads {conn : List UInt8} {survives : Bool} (joined : Joined topo table tr s)
    (proper : ProperTopology topo) (size : conn.length ≤ 9000)
    (st : Session.step o s (.controllerReads conn survives) = some (s', shown)) :
    Joined topo table (tr ++ [(.controllerReads conn survives, shown)]) s' := by
  have accepted_of : ∀ c, c ∈ s.up → s.accepted = true := by
    intro c mem
    by_contra no
    rw [(joined.quiet (by simpa using no)).2] at mem
    cases mem
  rw [Session.step] at st
  cases next : s.up with
  | nil =>
    rw [next] at st
    cases st
  | cons c rest =>
    rw [next] at st
    dsimp only at st
    rw [if_neg (by rw [joined.alive]; decide)] at st
    have from_ := joined.up c (by rw [next]; exact List.mem_cons_self ..)
    have popped := fun noPacket => joined.pop next noPacket
    cases c with
    | openTemplate template host => cases from_
    | packet iface frame =>
      obtain ⟨listener, v, mem, named⟩ := from_
      have short : iface.take 16 = iface := by
        rw [← named]
        exact List.take_of_length_le ((proper.holdable v mem).2.trans (by decide))
      have handled : handleRecvMsg s.listener conn (Command.packet iface frame).message =
          .packetOut frame v.port := by
        have port : (listenerOf topo).intfnameToPort iface = some v.port := by
          rw [← named]
          exact portOf_eq proper mem
        rw [Command.message, short, handleRecvMsg, listener, port]
      rw [handled] at st
      cases st
      exact joined.takeOut proper next mem named
    | authReply user digest =>
      have handled : handleRecvMsg s.listener conn (Command.authReply user digest).message =
          .sends (.authStatus true (authenticatedText conn)) := rfl
      rw [handled] at st
      dsimp only at st
      rw [put_eq (show ({ s with up := rest } : Session).lost = false from joined.alive)] at st
      cases st
      refine (popped rfl).down (accepted_of _ (by rw [next]; exact List.mem_cons_self ..))
        ⟨rfl, ?_⟩ rfl Bool.noConfusion rfl
      rw [authenticatedText, List.length_append, List.length_append]
      simp only [List.length_cons, List.length_nil]
      omega
    | openTopology topoId host user =>
      rcases joined.listener with unset | listener
      · have handled : handleRecvMsg s.listener conn (Command.openTopology topoId host user).message =
            .nothing := by
          rw [unset]
          rfl
        rw [handled] at st
        cases st
        exact (popped rfl).silent rfl
      · have handled : handleRecvMsg s.listener conn (Command.openTopology topoId host user).message =
            .sends (.hardwareInfo (topo.map SwInfo.interface)) := by
          rw [listener]
          rfl
        rw [handled] at st
        dsimp only at st
        rw [put_eq (show ({ s with up := rest } : Session).lost = false from joined.alive)] at st
        cases st
        have opened : ∀ soon, False := fun soon => by
          have unopened := (joined.early soon).2 _ (by rw [next]; exact List.mem_cons_self ..)
          cases unopened
        exact (popped rfl).down (accepted_of _ (by rw [next]; exact List.mem_cons_self ..)) rfl rfl
          (fun _ => ⟨listener, fun soon => opened (.inl soon), fun soon => opened (.inr soon)⟩) rfl

theorem Joined.awaited {rest : List VnsMessage} (joined : Joined topo table tr s)
    (next : s.down = m :: rest) : Awaited s.phase m := by
  obtain ⟨read, eq, heard⟩ := joined.heard
  rw [next] at eq
  have accepted : s.accepted = true := by
    by_contra no
    rw [(joined.quiet (by simpa using no)).1] at eq
    simp at eq
  obtain ⟨salt, others, first, later⟩ := joined.first accepted
  have inside : m ∈ downs tr := by simp [eq]
  cases phase : s.phase with
  | authRequest =>
    obtain rfl := heard.asked phase
    rw [first] at eq
    obtain ⟨rfl, -⟩ := List.cons.inj eq
    exact Phase.noConfusion
  | authStatus =>
    obtain ⟨salt', rfl⟩ := heard.authenticated phase
    have noInterfaces := (joined.early (.inr phase)).1
    rw [first] at eq
    obtain ⟨-, tail⟩ := List.cons.inj eq
    have notFirst := later m (by simp [tail])
    cases m with
    | authRequest => cases notFirst
    | hardwareInfo interfaces =>
      have none_ := List.any_eq_false.1 noInterfaces _ inside
      exact absurd rfl none_
    | packet => exact Phase.noConfusion
    | authStatus => exact Phase.noConfusion
    | _ => trivial
  | rtable => exact absurd phase heard.noTemplate
  | running =>
    cases m with
    | hardwareInfo => exact .inl rfl
    | authRequest => exact Phase.noConfusion
    | authStatus => exact Phase.noConfusion
    | packet => exact Phase.noConfusion
    | _ => trivial
  | ended =>
    cases m with
    | hardwareInfo => exact .inr rfl
    | authRequest => exact Phase.noConfusion
    | authStatus => exact Phase.noConfusion
    | packet => exact Phase.noConfusion
    | _ => trivial

theorem answered_filterMap {before after : Phase} {sent : List Command}
    {called : List (Name × List UInt8)} (answers : ∀ c ∈ sent, Answers before after c) :
    (answered sent called).filterMap SessionEvent.message = [] ∧
      (answered sent called).filterMap SessionEvent.call = called ∧
      (answered sent called).filterMap SessionEvent.transmitted = [] ∧
      (answered sent called).filterMap SessionEvent.out = [] ∧
      sent.filterMap Command.carried = [] := by
  have noPacket : ∀ c ∈ sent, c.carried = none := by
    intro c mem
    have answer := answers c mem
    cases c with
    | packet => cases answer
    | _ => rfl
  refine ⟨?_, ?_, ?_, ?_, ?_⟩
  · simp [answered, List.filterMap_eq_nil_iff]
  · simp [answered, List.filterMap_map, Function.comp_def]
  · rw [answered, List.filterMap_eq_nil_iff]
    intro e mem
    simp only [List.mem_append, List.mem_map] at mem
    rcases mem with ⟨c, mem, rfl⟩ | ⟨c, mem, rfl⟩
    · exact noPacket c mem
    · rfl
  · simp [answered, List.filterMap_eq_nil_iff]
  · exact List.filterMap_eq_nil_iff.2 noPacket

theorem Joined.routerReads {host : Host} (joined : Joined topo table tr s) (noTemplate : o.template = [])
    (key : ∃ contents, host.authKey = some contents ∧ contents ≠ []) (sends : host.sends = true)
    (st : Session.step o s (.routerReads host) = some (s', shown)) :
    Joined topo table (tr ++ [(.routerReads host, shown)]) s' := by
  rw [Session.step] at st
  split_ifs at st with live
  cases next : s.down with
  | nil =>
    rw [next] at st
    cases st
  | cons m rest =>
    rw [next] at st
    dsimp only at st
    obtain ⟨read, eq, heard⟩ := joined.heard
    rw [next] at eq
    have inside : m ∈ downs tr := by simp [eq]
    obtain ⟨sent, called, phase, client, result, answers, heard'⟩ :=
      @readsTo topo table read m (calls tr) o host { s with down := rest } noTemplate key sends heard live
        (joined.from_ m inside) (joined.awaited next)
    rw [result] at st
    cases st
    obtain ⟨noMessage, handeds, noPacket, noOut, noPacket'⟩ := @answered_filterMap _ _ _ called answers
    have accepted : s.accepted = true := by
      by_contra no
      rw [(joined.quiet (by simpa using no)).1] at inside
      cases inside
    refine
      { alive := joined.alive
        listener := joined.listener
        quiet := fun no => by cases accepted.symm.trans no
        first := by simpa [noMessage] using joined.first
        from_ := by simpa [noMessage] using joined.from_
        announced := by simpa [noMessage] using joined.announced
        early := fun soon => ?_
        up := fun c mem => ?_
        heard := ⟨read ++ [m], by simp [noMessage, eq], by simpa [handeds] using heard'⟩
        outs := by simpa [noOut, noPacket, noPacket'] using joined.outs
        ins := by simpa [noMessage, cameIn] using joined.ins }
    · have new : phase = .authStatus := by
        refine soon.resolve_left fun asked => ?_
        have none_ := heard'.asked asked
        simp at none_
      have old : s.phase = .authRequest ∨ s.phase = .authStatus := by
        obtain ⟨salt, only⟩ := heard'.authenticated new
        have none_ : read = [] := by
          cases read with
          | nil => rfl
          | cons => simp at only
        subst none_
        cases before : s.phase with
        | authRequest => exact .inl rfl
        | authStatus => exact .inr rfl
        | rtable => exact absurd before heard.noTemplate
        | running => cases heard.running before
        | ended => exact absurd before live
      obtain ⟨none_, unopened⟩ := joined.early old
      refine ⟨by simpa [noMessage] using none_, fun c mem => ?_⟩
      rcases List.mem_append.1 mem with queued | sent_
      · exact unopened c queued
      · have answer := answers c sent_
        cases c with
        | openTopology => cases new.symm.trans answer.2
        | _ => rfl
    · rcases List.mem_append.1 mem with queued | sent_
      · exact joined.up c queued
      · have answer := answers c sent_
        cases c with
        | packet => cases answer
        | openTemplate => cases answer
        | _ => trivial

theorem isSome_of_transmit {ifList : List SrIf} {buf buf' : List UInt8} {iface iface' : Name}
    (sent : sendEvent ifList buf iface = .transmit iface' buf') :
    (srGetInterface ifList iface).isSome = true ∧ iface' = iface := by
  unfold sendEvent at sent
  split_ifs at sent with passes
  cases sent
  refine ⟨?_, rfl⟩
  cases found : srGetInterface ifList iface with
  | none =>
    rw [found] at passes
    cases passes.2
  | some i => rfl

theorem Joined.sends {buf : List UInt8} {iface : Name} (joined : Joined topo table tr s)
    (st : Session.step o s (.sends buf iface) = some (s', shown)) :
    Joined topo table (tr ++ [(.sends buf iface, shown)]) s' := by
  rw [Session.step] at st
  split_ifs at st with running
  split at st
  · rename_i iface' buf' sent
    cases st
    obtain ⟨found, rfl⟩ := isSome_of_transmit sent
    obtain ⟨read, eq, heard⟩ := joined.heard
    rw [heard.interfaces] at found
    have told : 0 < read.countP VnsMessage.isHardwareInfo := by
      refine Nat.pos_of_ne_zero fun none_ => ?_
      rw [none_] at found
      cases found
    have listener : s.listener = listenerOf topo := by
      refine joined.announced ?_
      rw [eq, List.any_append, countP_pos_iff_any.1 told, Bool.true_or]
    rw [srGetInterface_copies told] at found
    have known := srGetInterface_ifListOf.1 found
    have accepted : s.accepted = true := by
      by_contra no
      have none_ := (joined.quiet (by simpa using no)).1
      rw [none_] at eq
      obtain ⟨rfl, -⟩ := List.append_eq_nil_iff.1 eq.symm
      cases told
    exact
      { alive := joined.alive
        listener := joined.listener
        quiet := fun no => by cases accepted.symm.trans no
        first := by simpa using joined.first
        from_ := by simpa using joined.from_
        announced := by simpa using joined.announced
        early := fun soon => by
          rw [running] at soon
          rcases soon with soon | soon <;> cases soon
        up := fun c mem => by
          rcases List.mem_append.1 mem with queued | new
          · exact joined.up c queued
          · rw [List.mem_singleton.1 new]
            exact ⟨listener, known⟩
        heard := ⟨read, by simpa using eq, by simpa using heard⟩
        outs := by
          have outs := joined.outs
          simp only [filterMap_snoc, List.map_append, transmits_snoc, packetOuts_snoc, filterMap_one,
            ← List.append_assoc, SessionEvent.out, SessionEvent.transmitted, Option.toList_none,
            List.append_nil]
          rw [outs]
        ins := by simpa [cameIn] using joined.ins }
  · cases st
    exact joined.silent rfl

/-- Every step of a session keeps both ends joined. -/
theorem Joined.step (joined : Joined topo table tr s) (proper : ProperTopology topo)
    (noTemplate : o.template = []) (steady : Steady topo tr s a)
    (st : Session.step o s a = some (s', shown)) : Joined topo table (tr ++ [(a, shown)]) s' := by
  cases a with
  | routerInfo info =>
    obtain rfl : info = topo := steady
    rw [Session.step, handleRouterInfo_eq proper joined.listener] at st
    cases st
    exact joined.known.silent rfl
  | packetIn port pkt => exact joined.packetIn proper steady st
  | connect salt => exact joined.connect steady st
  | controllerReads conn survives => exact joined.controllerReads proper steady st
  | routerReads host => exact joined.routerReads noTemplate steady.1 steady.2 st
  | sends buf iface => exact joined.sends st

theorem joined_of_run {user : Name} (proper : ProperTopology topo) (noTemplate : o.template = [])
    (run : (Session.machine o).Runs (Steady topo) (Session.start table user) tr s) :
    Joined topo table tr s :=
  run.invariant (start_joined user) fun _ _ _ _ _ _ joined steady st =>
    joined.step proper noTemplate steady st

/-- Everything on the connection fits the buffer and the arrays of the router. -/
theorem FromController.sendable (from_ : FromController topo m) (proper : ProperTopology topo) :
    Sendable m := by
  cases m with
  | packet intfName frame =>
    obtain ⟨⟨v, mem, rfl⟩, small⟩ := from_
    refine ⟨?_, proper.holdable v mem⟩
    rw [VnsMessage.pack, List.length_append, length_packString]
    omega
  | hardwareInfo interfaces =>
    obtain rfl : interfaces = topo.map SwInfo.interface := from_
    refine ⟨?_, fun v mem => ?_⟩
    · have few := proper.few
      rw [VnsMessage.pack, length_packHardwareInfo, length_entries, List.length_map, sizeofHwEntry]
      omega
    · obtain ⟨w, inside, rfl⟩ := List.mem_map.1 mem
      obtain ⟨nul, short⟩ := proper.holdable w inside
      exact ⟨nul, short.trans (by decide)⟩
  | authStatus authOk msg =>
    obtain ⟨rfl, short⟩ := from_
    refine ⟨?_, .inl rfl⟩
    rw [VnsMessage.pack, List.length_cons]
    omega
  | authRequest salt =>
    have size : salt.length = 20 := from_
    refine ⟨?_, trivial⟩
    rw [VnsMessage.pack, size]
    decide
  | _ => cases from_

/-- A step in which the router reads is what `sr_read_from_server_expect` does with the bytes on the
connection, however the calls on the socket cut them up. -/
theorem reads_bytes {user : Name} {rest : List VnsMessage} {host : Host} {server : VnsServer}
    {memory : BlockMemory} {n : ℕ} (proper : ProperTopology topo) (noTemplate : o.template = [])
    (run : (Session.machine o).Runs (Steady topo) (Session.start table user) tr s)
    (next : s.down = m :: rest) (patient : Patient server n) (room : memory.full = false) :
    ∃ n', n ≤ n' ∧ ∀ r,
      ReadFromServer server memory host s.client s.phase.expectedCmd (s.down.flatMap VnsMessage.framed)
        n r ↔
      r = (hearExpecting s.phase.expectedCmd host s.client m).map
        fun served => (served, rest.flatMap VnsMessage.framed, n') := by
  have joined := joined_of_run proper noTemplate run
  obtain ⟨read, eq, -⟩ := joined.heard
  have inside : m ∈ downs tr := by simp [eq, next]
  rw [next, List.flatMap_cons]
  exact readFromServer_iff patient room ((joined.from_ m inside).sendable proper) _

end Runs

/-! ## A session -/

/-- The interface `e0` at port 1. -/
def someTopology : List SwInfo :=
  [⟨[101, 48], [10, 0, 0, 1], (Mac.of 2 0 0 0 1 1).bytes, 1, rfl, (Mac.of 2 0 0 0 1 1).size⟩]

theorem proper_someTopology : ProperTopology someTopology where
  names := by decide
  ports := by decide
  holdable := by
    intro v mem
    rw [List.mem_singleton.1 mem]
    decide
  few := by decide

def someTable : List SrRt := [⟨0, 0, 0, [101, 48]⟩]

/-- A frame of the hardware address of `e0`. -/
def someFrame : List UInt8 := [255, 255, 255, 255, 255, 255, 2, 0, 0, 0, 1, 1, 136, 181]

theorem someHost_fine : (∃ contents, someHost.authKey = some contents ∧ contents ≠ []) ∧
    someHost.sends = true := ⟨⟨[107, 10], rfl, by decide⟩, rfl⟩

theorem run_someTopology : ∃ tr s,
    (Session.machine ⟨1, [118], []⟩).Runs (Steady someTopology) (Session.start someTable [117]) tr s ∧
    s.phase = .running ∧ s.down.length = 0 ∧ calls tr = [([101, 48], someFrame)] ∧
    transmits tr = [([101, 48], someFrame)] := by
  obtain ⟨tr, s, run, seen⟩ := Machine.Runs.exists_of_exec_all (M := Session.machine ⟨1, [118], []⟩)
    (C := fun _ _ _ => true) (D := Steady someTopology [] (Session.start someTable [117]))
    (i := Session.start someTable [117])
    (P := fun tr s => s.phase = .running ∧ s.down.length = 0 ∧ calls tr = [([101, 48], someFrame)] ∧
      transmits tr = [([101, 48], someFrame)])
    [.routerInfo someTopology, .connect (List.replicate 20 0), .routerReads someHost,
      .controllerReads [] true, .routerReads someHost, .controllerReads [] true, .routerReads someHost,
      .packetIn 1 someFrame, .routerReads someHost, .sends someFrame [101, 48],
      .controllerReads [] true]
    (by
      simp only [List.forall_mem_cons, Steady]
      exact ⟨trivial, rfl, someHost_fine, by decide, someHost_fine, by decide, someHost_fine, by decide,
        someHost_fine, by decide, by decide, by simp⟩)
    (by decide +kernel)
  exact ⟨tr, s, run.mono fun _ _ _ cond => cond.2, seen⟩

section Wire

variable {topo : List SwInfo} {table : List SrRt} {o : Options} {tr : SessionTrace} {s : Session}

/-- The way from the ports of the switch to the router.  Every call of `sr_handlepacket` is for a packet
that came in at the port of this interface and that the controller sent on, in the order in which they
came in and each once; of these only ARP requests for other routers are left out, and as long as the
router is not stopped the others that are missing are still on the connection. -/
theorem wire_in {user : Name} (proper : ProperTopology topo) (noTemplate : o.template = [])
    (run : (Session.machine o).Runs (Steady topo) (Session.start table user) tr s) :
    ((downs tr).filterMap VnsMessage.carried).map (atPort topo) = (packetIns tr).map here ∧
      ∃ missing : List (Name × List UInt8),
        calls tr ++ missing = ((downs tr).filterMap VnsMessage.carried).filter (forUs topo) ∧
        (s.phase ≠ .ended →
          missing = (s.down.filterMap VnsMessage.carried).filter (forUs topo)) := by
  have joined := joined_of_run proper noTemplate run
  obtain ⟨read, eq, heard⟩ := joined.heard
  refine ⟨joined.ins, ?_⟩
  rw [eq, List.filterMap_append, List.filter_append]
  by_cases ended : s.phase = .ended
  · obtain ⟨behind, before⟩ := heard.before
    refine ⟨behind ++ (s.down.filterMap VnsMessage.carried).filter (forUs topo), ?_,
      fun live => absurd ended live⟩
    rw [← List.append_assoc, before]
  · exact ⟨_, by rw [heard.exact ended], fun _ => rfl⟩

theorem wire_in_e0 : ∃ (tr : SessionTrace) (s : Session), s.phase = .running ∧ calls tr = [([101, 48], someFrame)] ∧
    ((downs tr).filterMap VnsMessage.carried).map (atPort someTopology) = (packetIns tr).map here ∧
    ∃ missing : List (Name × List UInt8),
      calls tr ++ missing = ((downs tr).filterMap VnsMessage.carried).filter (forUs someTopology) ∧
      (s.phase ≠ .ended →
        missing = (s.down.filterMap VnsMessage.carried).filter (forUs someTopology)) := by
  obtain ⟨tr, s, run, running, -, called, -⟩ := run_someTopology
  exact ⟨tr, s, running, called, wire_in proper_someTopology rfl run⟩

/-- The way from the router to the ports of the switch.  The switch is told to send the packets that the
router sends, each once, in their order and at the port of their interface; those that are missing are
still on the connection. -/
theorem wire_out {user : Name} (proper : ProperTopology topo) (noTemplate : o.template = [])
    (run : (Session.machine o).Runs (Steady topo) (Session.start table user) tr s) :
    (packetOuts tr).map here ++ (s.up.filterMap Command.carried).map (atPort topo) =
      (transmits tr).map (atPort topo) :=
  (joined_of_run proper noTemplate run).outs

theorem wire_out_e0 : ∃ (tr : SessionTrace) (s : Session), transmits tr = [([101, 48], someFrame)] ∧
    (packetOuts tr).map here ++ (s.up.filterMap Command.carried).map (atPort someTopology) =
      (transmits tr).map (atPort someTopology) := by
  obtain ⟨tr, s, run, -, -, -, sent⟩ := run_someTopology
  exact ⟨tr, s, sent, wire_out proper_someTopology rfl run⟩

/-- A router that has read all that the controller has sent is in the loop of `main` exactly when its
authentication has been accepted, no packet was sent to it before, none that can be an ARP request before
it was told its interfaces, and its routing table fits the interfaces that it was told. -/
theorem starts_iff {user : Name} (proper : ProperTopology topo) (noTemplate : o.template = [])
    (run : (Session.machine o).Runs (Steady topo) (Session.start table user) tr s)
    (drained : s.down = []) :
    s.phase = .running ↔
      (downs tr).any VnsMessage.isAuthStatus = true ∧ ComesUp topo table (downs tr) := by
  obtain ⟨read, eq, heard⟩ := (joined_of_run proper noTemplate run).heard
  rw [drained, List.append_nil] at eq
  rw [eq]
  constructor
  · intro running
    exact ⟨heard.running running, heard.comesUp.1 (by rw [running]; exact Phase.noConfusion)⟩
  · rintro ⟨accepted, up⟩
    cases phase : s.phase with
    | authRequest =>
      rw [heard.asked phase] at accepted
      cases accepted
    | authStatus =>
      obtain ⟨salt, only⟩ := heard.authenticated phase
      rw [only] at accepted
      cases accepted
    | rtable => exact absurd phase heard.noTemplate
    | running => rfl
    | ended => exact absurd phase (heard.comesUp.2 up)

theorem starts_iff_e0 : ∃ (tr : SessionTrace) (s : Session), s.phase = .running ∧
    (s.phase = .running ↔ (downs tr).any VnsMessage.isAuthStatus = true ∧
      ComesUp someTopology someTable (downs tr)) := by
  obtain ⟨tr, s, run, running, drained, -⟩ := run_someTopology
  exact ⟨tr, s, running,
    starts_iff proper_someTopology rfl run (List.length_eq_zero_iff.1 drained)⟩

end Wire

/-! ## A router that asks for a template -/

section Template

variable {o : Options} {s s' : Session} {a : SessionAction} {shown : List SessionEvent}

def VnsMessage.isRtable : VnsMessage → Bool
  | rtable .. => true
  | _ => false

/-- The router waits for a table that nobody sends. -/
def Waits (s : Session) : Prop := s.phase ≠ .running ∧ s.down.any VnsMessage.isRtable = false

theorem Waits.put (waits : Waits s) {m : VnsMessage} (other : m.isRtable = false) :
    Waits (s.put m).1 := by
  rw [Session.put]
  split_ifs
  · exact waits
  · exact ⟨waits.1, by rw [any_snoc, waits.2, other]; rfl⟩

theorem applyAll_keeps (effects : List Effect) (s : Session) :
    (s.applyAll effects).1.phase = s.phase ∧ (s.applyAll effects).1.down = s.down := by
  induction effects generalizing s with
  | nil => exact ⟨rfl, rfl⟩
  | cons e rest ih =>
    obtain ⟨phase, down⟩ := ih (s.apply e).1
    have one : (s.apply e).1.phase = s.phase ∧ (s.apply e).1.down = s.down := by
      cases e <;> exact ⟨rfl, rfl⟩
    exact ⟨phase.trans one.1, down.trans one.2⟩

/-- Only the table, which is not there, would do. -/
theorem ret_ne_one {host : Host} {client : Client} {m : VnsMessage} {served : Served}
    (other : m.isRtable = false)
    (result : hearExpecting Phase.rtable.expectedCmd host client m = .ok served) : served.ret ≠ 1 := by
  rw [hearExpecting] at result
  split_ifs at result with wanted
  cases m with
  | close msg =>
    cases result
    exact fun no => by cases no
  | rtable => cases other
  | _ => rcases wanted with wanted | wanted | wanted <;> cases wanted

theorem Waits.advance {host : Host} (waits : Waits s) (template : o.template ≠ [])
    (elsewhere : s.phase ≠ .rtable) : Waits (s.advance o host).1 := by
  rw [Session.advance]
  cases phase : s.phase with
  | authRequest => exact ⟨Phase.noConfusion, waits.2⟩
  | authStatus =>
    dsimp only
    rw [if_neg template]
    split_ifs
    · exact ⟨Phase.noConfusion, waits.2⟩
    · exact ⟨Phase.noConfusion, waits.2⟩
  | rtable => exact absurd phase elsewhere
  | running => exact absurd phase waits.1
  | ended => exact waits

theorem Waits.read {host : Host} {m : VnsMessage} (waits : Waits s) (template : o.template ≠ [])
    (other : m.isRtable = false) : Waits (s.read o host m).1 := by
  rw [Session.read]
  cases result : hearExpecting s.phase.expectedCmd host s.client m with
  | error e => exact ⟨Phase.noConfusion, waits.2⟩
  | ok served =>
    obtain ⟨same, down⟩ := applyAll_keeps served.effects { s with client := served.client }
    have waits' : Waits ({ s with client := served.client }.applyAll served.effects).1 :=
      ⟨by rw [same]; exact waits.1, by rw [down]; exact waits.2⟩
    dsimp only
    split_ifs with goes
    · refine waits'.advance template fun table => ?_
      rw [show s.phase = .rtable from same.symm.trans table] at result
      exact ret_ne_one other result goes
    · exact ⟨Phase.noConfusion, waits'.2⟩

theorem isRtable_of_sends {l : SRServerListener} {conn : List UInt8} {c : Command} {m : VnsMessage}
    (sends : handleRecvMsg l conn c.message = .sends m) : m.isRtable = false := by
  cases c with
  | openTopology topoId host user =>
    rw [Command.message, handleRecvMsg] at sends
    cases known : l.interfaces with
    | none =>
      rw [known] at sends
      cases sends
    | some interfaces =>
      rw [known] at sends
      cases sends
      rfl
  | openTemplate template host => cases sends
  | packet iface frame =>
    rw [Command.message, handleRecvMsg] at sends
    cases known : l.intfnameToPort (iface.take 16) with
    | none =>
      rw [known] at sends
      cases sends
    | some port =>
      rw [known] at sends
      cases sends
  | authReply user digest =>
    cases sends
    rfl

theorem Waits.step (waits : Waits s) (template : o.template ≠ [])
    (st : Session.step o s a = some (s', shown)) : Waits s' := by
  cases a with
  | routerInfo info =>
    cases st
    exact waits
  | packetIn port pkt =>
    rw [Session.step] at st
    cases named : s.listener.portToIntfname port with
    | none =>
      rw [named] at st
      cases st
      exact waits
    | some intfname =>
      rw [named] at st
      dsimp only at st
      split_ifs at st
      · have after := @Waits.put s waits (.packet intfname pkt) rfl
        rwa [Option.some.inj st] at after
      · cases st
        exact waits
  | connect salt =>
    rw [Session.step] at st
    split_ifs at st
    have after := @Waits.put { s with accepted := true } waits (.authRequest salt) rfl
    rwa [Option.some.inj st] at after
  | controllerReads conn survives =>
    rw [Session.step] at st
    cases next : s.up with
    | nil =>
      rw [next] at st
      cases st
    | cons c rest =>
      rw [next] at st
      dsimp only at st
      split_ifs at st
      cases reaction : handleRecvMsg s.listener conn c.message with
      | sends m =>
        rw [reaction] at st
        have after := @Waits.put { s with up := rest } waits m (isRtable_of_sends reaction)
        rwa [Option.some.inj st] at after
      | _ =>
        rw [reaction] at st
        cases st
        exact waits
  | routerReads host =>
    rw [Session.step] at st
    split_ifs at st
    cases next : s.down with
    | nil =>
      rw [next] at st
      cases st
    | cons m rest =>
      rw [next] at st
      have none_ := waits.2
      rw [next, List.any_cons, Bool.or_eq_false_iff] at none_
      have after := @Waits.read o { s with down := rest } host m ⟨waits.1, none_.2⟩ template none_.1
      rwa [Option.some.inj st] at after
  | sends buf iface =>
    rw [Session.step, if_neg waits.1] at st
    cases st

/-- A router that asks for a template never gets to the loop of `main`: it is stopped, or waits for the
routing table, which the controller sends to nobody. -/
theorem template_never_runs {C : SessionTrace → Session → SessionAction → Prop} {table : List SrRt}
    {user : Name} {tr : SessionTrace} (template : o.template ≠ [])
    (run : (Session.machine o).Runs C (Session.start table user) tr s) : s.phase ≠ .running :=
  (run.invariant (I := fun _ s => Waits s) ⟨Phase.noConfusion, rfl⟩
    fun _ _ _ _ _ _ waits _ st => waits.step template st).1

end Template

/-- A router that has asked for the template `t`. -/
theorem template_never_runs_rtable : ∃ s : Session, s.phase = .rtable ∧ s.phase ≠ .running := by
  obtain ⟨tr, s, run, waits⟩ := Machine.Runs.exists_of_exec (M := Session.machine ⟨1, [118], [116]⟩)
    (C := fun _ _ _ => true) (i := Session.start someTable [117])
    (P := fun _ s => s.phase = .rtable)
    [.connect (List.replicate 20 0), .routerReads someHost, .controllerReads [] true,
      .routerReads someHost, .controllerReads [] true]
    (by decide +kernel)
  exact ⟨s, waits, template_never_runs (by decide) run⟩

end ComputerNetwork.Router
