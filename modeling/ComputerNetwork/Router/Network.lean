import ComputerNetwork.Lib.Network
import ComputerNetwork.Router.ArpReplies
import ComputerNetwork.Router.EchoReplies
import ComputerNetwork.Router.Entries
import ComputerNetwork.Router.Forwarding

/-!
# A network of routers

Any number of routers on any wires, among hosts that may send what they like but do not lie about
hardware addresses.  `routers_truthful` says that the routers then do not lie either: whatever order
frames arrive in, and whether they arrive, no ARP cache ever holds a wrong mapping, and every IP frame
that a router sends is an echo reply of its own or goes to the hardware address of the gateway that its
table gives for the destination.  `arp_exchange` says that a request which arrives resolves the address
on both sides.
-/

namespace ComputerNetwork.Router

open Lib

/-! ## The network -/

/-- The frames that were put on a wire. -/
def wireFrames (log : List Event) : List (Name × List UInt8) :=
  log.filterMap fun
    | .transmit iface frame => some (iface, frame)
    | _ => none

/-- A router; its calls find a clock, memory and fuel. -/
def routerNode : Node SrInstance Name (List UInt8) (Env × ℕ) where
  receive sr interface packet world :=
    (step sr (.receive packet interface world.1 world.2)).map fun (sr, log) => (sr, wireFrames log)
  act sr world := (step sr (.timeout world.1 world.2)).map fun (sr, log) => (sr, wireFrames log)

/-- Routers on wires. -/
def routers {N : Type*} (joined : N × Name → N × Name → Bool) :
    Network N SrInstance Name (List UInt8) (Env × ℕ) where
  node := routerNode
  joined := joined

section Truth

variable (Owns : UInt32 → Mac → Prop)

/-- An ARP frame names the owner of its sender's address. -/
def Truthful (frame : List UInt8) : Prop :=
  etherType frame = ethertypeArp → Owns (arSip frame) (Mac.copy frame 22)

/-- The interfaces and the valid entries of the cache are as they should be. -/
structure Trusts (sr : SrInstance) : Prop where
  own : ∀ i ∈ sr.ifList, Owns i.ip i.addr
  cached : ∀ e ∈ sr.cache.entries.slots, e.valid = true → Owns e.ip e.mac

/-- A frame that a router should put on a wire. -/
inductive Proper (sr : SrInstance) (frame : List UInt8) : Prop
  | arp (type : etherType frame = ethertypeArp) (truth : Owns (arSip frame) (Mac.copy frame 22))
  | echoReply (type : etherType frame = ethertypeIp) (i : SrIf) (own : i ∈ sr.ifList)
      (source : ipSrc frame = i.ip) (reply : icmpType frame = 0 ∧ icmpCode frame = 0)
  | routed (type : etherType frame = ethertypeIp) (route : SrRt)
      (routed : routeMatch sr.routingTable (ipDst frame) = some route)
      (next : Owns route.gw (Mac.copy frame 0))

/-- What the world around the routers puts on a wire is truthful. -/
def WorldTruthful {N : Type*} : Network.Action N Name (List UInt8) (Env × ℕ) → Prop
  | .inject _ _ frame _ => Truthful Owns frame
  | _ => True

/-- A part of a call keeps to it. -/
def Honest (c c' : Call) : Prop :=
  Trusts Owns c.sr → c'.sr.ifList = c.sr.ifList ∧ c'.sr.routingTable = c.sr.routingTable ∧
    Trusts Owns c'.sr ∧ ∃ new, c'.log = c.log ++ new ∧
      ∀ iface frame, Event.transmit iface frame ∈ new → Proper Owns c.sr frame

end Truth

/-! ## Parts of calls -/

section Honest

variable {Owns : UInt32 → Mac → Prop} {env : Env} {c c' c'' : Call} {packet frame : List UInt8}

theorem Proper.truthful {sr : SrInstance} (proper : Proper Owns sr frame) : Truthful Owns frame := by
  intro arp
  cases proper with
  | arp _ truth => exact truth
  | echoReply type => exact absurd (type.symm.trans arp) (by decide)
  | routed type => exact absurd (type.symm.trans arp) (by decide)

theorem Proper.congr {sr sr' : SrInstance} (proper : Proper Owns sr frame)
    (ifs : sr.ifList = sr'.ifList) (table : sr.routingTable = sr'.routingTable) :
    Proper Owns sr' frame := by
  cases proper with
  | arp type truth => exact .arp type truth
  | echoReply type i own source reply => exact .echoReply type i (ifs ▸ own) source reply
  | routed type route routed next => exact .routed type route (table ▸ routed) next

theorem Honest.refl (c : Call) : Honest Owns c c := fun trusts =>
  ⟨rfl, rfl, trusts, [], (List.append_nil _).symm, fun _ _ mem => absurd mem List.not_mem_nil⟩

theorem Honest.trans (h : Honest Owns c c') (h' : Honest Owns c' c'') : Honest Owns c c'' := by
  intro trusts
  obtain ⟨ifs, table, trusts', new, log, proper⟩ := h trusts
  obtain ⟨ifs', table', trusts'', new', log', proper'⟩ := h' trusts'
  refine ⟨ifs'.trans ifs, table'.trans table, trusts'', new ++ new', ?_, fun iface frame mem => ?_⟩
  · rw [log', log, List.append_assoc]
  · rcases List.mem_append.1 mem with mem | mem
    · exact proper iface frame mem
    · exact (proper' iface frame mem).congr ifs table

/-- Counters, the queue of requests and events that send nothing do not matter. -/
theorem honest_of_silent {new : List Event} (ifs : c'.sr.ifList = c.sr.ifList)
    (table : c'.sr.routingTable = c.sr.routingTable)
    (entries : c'.sr.cache.entries = c.sr.cache.entries) (log : c'.log = c.log ++ new)
    (silent : ∀ iface frame, Event.transmit iface frame ∉ new) : Honest Owns c c' := by
  intro trusts
  refine ⟨ifs, table, ⟨?_, ?_⟩, new, log, fun iface frame mem => absurd mem (silent iface frame)⟩
  · rw [ifs]
    exact trusts.own
  · rw [entries]
    exact trusts.cached

theorem honest_send (proper : Trusts Owns c.sr → Proper Owns c.sr frame) (iface : Name) :
    Honest Owns c (srSendPacket c frame iface) := by
  intro trusts
  rw [srSendPacket_eq]
  refine ⟨rfl, rfl, trusts, _, rfl, fun iface' frame' mem => ?_⟩
  rw [List.mem_singleton, sendEvent] at mem
  split_ifs at mem
  cases mem
  exact proper trusts

theorem arpRequest_fields (i : SrIf) (ip : UInt32) :
    etherType (arpRequest i ip) = ethertypeArp ∧ arOp (arpRequest i ip) = arpOpRequest ∧
      arSip (arpRequest i ip) = i.ip ∧ Mac.copy (arpRequest i ip) 22 = i.addr ∧
      arTip (arpRequest i ip) = ip ∧ (arpRequest i ip).length = 42 := by
  obtain ⟨a, b, c, d, e, f, mac⟩ := i.addr.exists_bytes
  rw [arpRequest, mac]
  refine ⟨rfl, rfl, loadLE32_of_slice rfl, copy_of_slice ?_, loadLE32_of_slice rfl, rfl⟩
  rw [mac]
  rfl

theorem honest_askAgain (addr : ℕ) (ip : UInt32) : Honest Owns c (askAgain env c addr ip) := by
  have sent : Honest Owns c (srSendArpRequest { c with timeReads := c.timeReads + 2 } ip) := by
    intro trusts
    rw [srSendArpRequest_eq]
    refine ⟨rfl, rfl, trusts, _, rfl, fun iface frame mem => ?_⟩
    obtain ⟨i, own, event⟩ := List.mem_map.1 mem
    rw [sendEvent] at event
    split_ifs at event
    cases event
    obtain ⟨type, -, sip, sha, -⟩ := arpRequest_fields i ip
    refine .arp type ?_
    rw [sip, sha]
    exact trusts.own i own
  refine sent.trans ?_
  have asked : ∀ iface frame,
      Event.transmit iface frame ∉ [Event.asked addr (env.time c.timeReads)] := by simp
  exact honest_of_silent rfl rfl rfl rfl asked

/-! ## Handlers -/

theorem srSendIcmpPacket_honest {handle : ℕ → Call → Except Fault Call} {ip : UInt32}
    {ipPacket : List UInt8} {type code : UInt8}
    (honest : ∀ addr c c', handle addr c = .ok c' → Honest Owns c c')
    (run : srSendIcmpPacket env handle c ip ipPacket type code = .ok c') : Honest Owns c c' := by
  have malloc : Honest Owns c { c with mallocs := c.mallocs + 1 } :=
    honest_of_silent rfl rfl rfl (List.append_nil _).symm (by simp)
  unfold srSendIcmpPacket at run
  dsimp only at run
  split_ifs at run
  split at run
  · cases run
    exact malloc
  · rename_i route routed
    split at run
    · cases run
    · split at run
      · rename_i i _ _ entry found
        cases run
        refine malloc.trans (honest_send (fun trusts => ?_) _)
        obtain ⟨mem, valid, same⟩ := mem_of_lookup found
        obtain ⟨ethertype, -, -, dst, -, -⟩ := icmpFrame_fields entry.mac i.addr i.ip ip type code
          ((List.range 4).map fun k => load8 (env.heap c.mallocs) (38 + k))
          (ipPacket.take icmpDataSize)
        refine .routed ethertype route ?_ ?_
        · rw [dst]
          exact routed
        · rw [copy_of_slice (m := entry.mac) (by
            rw [icmpFrame, List.drop_zero, List.take_left' entry.mac.size]), ← same]
          exact trusts.cached entry mem valid
      · refine (malloc.trans ?_).trans (honest _ _ _ run)
        exact honest_of_silent rfl rfl (entries_queuereq ..) (List.append_nil _).symm (by simp)

theorem handleArpreq_honest (env : Env) (fuel addr : ℕ) (c c' : Call)
    (run : handleArpreq env fuel addr c = .ok c') : Honest Owns c c' := by
  induction fuel generalizing addr c c' with
  | zero => cases run
  | succ fuel ih =>
    have timed : Honest Owns c { c with timeReads := c.timeReads + 2 } :=
      honest_of_silent rfl rfl rfl (List.append_nil _).symm (by simp)
    obtain ⟨req, -, ⟨-, rfl⟩ | ⟨-, -, rfl⟩ | ⟨-, -, c₁, last, told, -, rfl⟩⟩ :=
      handleArpreq_cases run
    · exact timed
    · exact honest_askAgain addr req.ip
    · have errors : Honest Owns { c with timeReads := c.timeReads + 2 } c₁ :=
        hostUnreachable_rule Honest.refl Honest.trans req.packets
          (fun _ _ _ _ _ _ => srSendIcmpPacket_honest ih) told
      refine (timed.trans errors).trans ?_
      have silent : ∀ iface frame, Event.transmit iface frame ∉
          [Event.gaveUp addr (env.time (c.timeReads + 1)), Event.left last] := by simp
      exact honest_of_silent rfl rfl rfl (List.append_assoc ..) silent

theorem srArpcacheTimeout_honest {fuel : ℕ} (run : srArpcacheTimeout env fuel c = .ok c') :
    Honest Owns c c' := by
  refine Honest.trans (fun trusts => ?_)
    (sweepFrom_rule Honest.refl Honest.trans fuel (handleArpreq_honest env fuel) run)
  refine ⟨rfl, rfl, ⟨trusts.own, fun e mem valid => ?_⟩, [], (List.append_nil _).symm, by simp⟩
  exact trusts.cached e (mem_expireEntries mem valid).1 valid

theorem learn_honest {mac : Mac} {ip : UInt32} (truth : Owns ip mac) :
    Honest Owns c (learn env c mac ip) := by
  intro trusts
  have stored : ∀ now, Trusts Owns
      ({ c with timeReads := c.timeReads + 1 }.setCache
        (srArpcacheInsert c.sr.cache mac ip now).1 : Call).sr := by
    intro now
    refine ⟨trusts.own, fun e mem valid => ?_⟩
    rcases mem_insertEntry mem with old | rfl
    · exact trusts.cached e old valid
    · exact truth
  unfold learn
  dsimp only [Call.time]
  split
  · rename_i req _
    exact ⟨rfl, rfl, stored _, [.learned ip mac, .left req], List.append_assoc .., by simp⟩
  · exact ⟨rfl, rfl, stored _, [.learned ip mac], rfl, by simp⟩

theorem forwarded_fields {packet : List UInt8} (shost dhost : Mac) (long : 34 ≤ packet.length) :
    let frame := splice (splice (setIpSum (decrementTtl packet)) 6 shost.bytes) 0 dhost.bytes
    etherType frame = etherType packet ∧ ipDst frame = ipDst packet ∧ Mac.copy frame 0 = dhost := by
  obtain ⟨length, -, aged⟩ := aged_spec long
  obtain ⟨-, front, behind⟩ := readdressed_spec shost dhost (length.ge.trans' long)
  have same : ∀ j, 12 ≤ j → j ≠ 22 → j < 24 ∨ 26 ≤ j →
      load8 (splice (splice (setIpSum (decrementTtl packet)) 6 shost.bytes) 0 dhost.bytes) j =
        load8 packet j := fun j far ttl sum => (behind j far).trans (aged j ttl sum)
  refine ⟨?_, ?_, copy_of_slice (by rw [List.drop_zero, front])⟩
  · unfold etherType loadBE16
    rw [same 12 (by omega) (by omega) (by omega), same (12 + 1) (by omega) (by omega) (by omega)]
  · unfold ipDst loadLE32
    rw [same 30 (by omega) (by omega) (by omega), same (30 + 1) (by omega) (by omega) (by omega),
      same (30 + 2) (by omega) (by omega) (by omega), same (30 + 3) (by omega) (by omega) (by omega)]

theorem echoFrame_fields {packet : List UInt8} (ip : UInt32) (long : 38 ≤ packet.length) :
    etherType (echoFrame packet ip) = etherType packet ∧ ipSrc (echoFrame packet ip) = ip ∧
      icmpType (echoFrame packet ip) = 0 ∧ icmpCode (echoFrame packet ip) = 0 := by
  obtain ⟨rest, length⟩ := Nat.exists_eq_add_of_le long
  obtain ⟨sum, laid⟩ := laid_echoFrame length ip
  have type : ((echoFrame packet ip).drop 12).take 12 = (packet.drop 12).take 12 :=
    laid.same (laid_echoRequest length) 2 1 rfl rfl rfl
  have kind : ((echoFrame packet ip).drop 34).take 2 = ([0, 0] : List UInt8) :=
    laid.field 6 rfl rfl rfl
  have zeros : ∀ j < 2, load8 (echoFrame packet ip) (34 + j) = load8 [0, 0] j := fun j small => by
    rw [← load8_drop, ← load8_take _ small, kind]
  refine ⟨?_, loadLE32_of_slice (laid.field 4 rfl rfl rfl), zeros 0 (by omega), zeros 1 (by omega)⟩
  unfold etherType loadBE16
  rw [load8_of_slice type (by omega) (by omega), load8_of_slice type (by omega) (by omega)]

theorem srHandleIpPacket_honest {fuel : ℕ} {interface : Name} (ip : etherType packet = ethertypeIp)
    (sound : ipChecks packet = true)
    (run : srHandleIpPacket env fuel c packet interface = .ok c') : Honest Owns c c' := by
  have long : 34 ≤ packet.length := by
    simp only [ipChecks, Bool.and_eq_true, decide_eq_true_eq] at sound
    exact sound.1.1
  have handle : ∀ addr c c', handleArpreq env fuel addr c = .ok c' → Honest Owns c c' :=
    handleArpreq_honest env fuel
  unfold srHandleIpPacket at run
  dsimp only at run
  split_ifs at run
  · exact srSendIcmpPacket_honest handle run
  unfold ipForwarding at run
  dsimp only at run
  rcases own : getInterfaceFromIp c.sr.ifList (ipDst packet) with _ | i
  · simp only [own] at run
    split_ifs at run
    · exact srSendIcmpPacket_honest handle run
    · split at run
      · cases run
      · rename_i route routed
        split at run
        · rename_i entry found
          split at run
          · cases run
          · rename_i i named
            rw [← Except.ok.inj run]
            refine honest_send (fun trusts => ?_) _
            obtain ⟨mem, valid, same⟩ := mem_of_lookup found
            obtain ⟨type, dst, dhost⟩ := forwarded_fields i.addr entry.mac long
            refine .routed (type.trans ip) route ?_ ?_
            · exact (congrArg _ dst).trans routed
            · rw [← same]
              exact (congrArg (Owns entry.ip) dhost).mpr (trusts.cached entry mem valid)
        · refine Honest.trans ?_ (handle _ _ _ run)
          exact honest_of_silent rfl rfl (entries_queuereq ..) (List.append_nil _).symm (by simp)
  · simp only [own] at run
    split_ifs at run with proto echo
    · split at run
      · cases run
      · rename_i j named
        rw [← Except.ok.inj run]
        refine honest_send (fun _ => ?_) _
        have size : 38 ≤ packet.length := by
          simp only [ipChecks, proto, bne_self_eq_false, Bool.false_or, Bool.and_eq_true,
            decide_eq_true_eq] at sound
          omega
        obtain ⟨type, src, kind, code⟩ := echoFrame_fields j.ip size
        exact .echoReply (type.trans ip) j (List.mem_of_find?_eq_some named) src ⟨kind, code⟩
    · rw [← Except.ok.inj run]
      exact .refl _
    · exact srSendIcmpPacket_honest handle run

theorem srHandleArpPacket_honest (arp : etherType packet = ethertypeArp)
    (truth : Truthful Owns packet) (run : srHandleArpPacket env c packet = .ok c') :
    Honest Owns c c' := by
  have learned : Honest Owns c (learn env c (Mac.copy packet 22) (arSip packet)) :=
    learn_honest (truth arp)
  unfold srHandleArpPacket at run
  dsimp only at run
  rcases own : getInterfaceFromIp c.sr.ifList (arTip packet) with _ | i
  · simp only [own] at run
    split_ifs at run
    rw [← Except.ok.inj run]
    exact .refl _
  · simp only [own] at run
    split_ifs at run with small
    · rw [← Except.ok.inj run]
      -- the sender of the reply is the interface with the address that was asked for
      intro trusts
      have reply : ArpReplyTo packet i (arpReply packet i) := arpReply_spec i (Nat.le_of_not_lt small)
      have asked : arTip packet = i.ip := by simpa using List.find?_some own
      refine learned.trans (honest_send (fun _ => .arp ?_ ?_) _) trusts
      · unfold etherType loadBE16
        rw [reply.others 12 (by omega) (by omega), reply.others (12 + 1) (by omega) (by omega)]
        exact arp
      · rw [reply.sip, reply.sha, asked]
        exact trusts.own i (List.mem_of_find?_eq_some own)
    · rw [← Except.ok.inj run]
      exact learned
    · rw [← Except.ok.inj run]
      exact .refl _

theorem srHandlepacket_honest {fuel : ℕ} {interface : Name} (truth : Truthful Owns packet)
    (run : srHandlepacket env fuel c packet interface = .ok c') : Honest Owns c c' := by
  unfold srHandlepacket at run
  split_ifs at run with short arp ip sound
  · exact srHandleArpPacket_honest arp truth run
  · exact srHandleIpPacket_honest ip sound run
  · rw [← Except.ok.inj run]
    exact .refl _
  · rw [← Except.ok.inj run]
    exact .refl _

end Honest

/-! ## The network -/

section Network

variable {N : Type*} [DecidableEq N] {Owns : UInt32 → Mac → Prop}

/-- A router with the interfaces and the table that it started with, which trusts its cache rightly. -/
structure Preserves (Owns : UInt32 → Mac → Prop) (sr sr' : SrInstance) : Prop where
  ifs : sr'.ifList = sr.ifList
  table : sr'.routingTable = sr.routingTable
  trusts : Trusts Owns sr'

theorem Preserves.step {sr sr' after : SrInstance} {a : Action} {log : List Event}
    (keeps : Preserves Owns sr sr') (honest : ∀ c', perform sr' a = .ok c' → Honest Owns (.start sr') c')
    (st : step sr' a = some (after, log)) :
    Preserves Owns sr after ∧ ∀ x ∈ wireFrames log, Proper Owns sr x.2 := by
  unfold Router.step at st
  split at st
  · rename_i c' run
    cases st
    obtain ⟨ifs, table, trusts, new, eq, proper⟩ := honest c' run keeps.trusts
    refine ⟨⟨ifs.trans keeps.ifs, table.trans keeps.table, trusts⟩, fun x mem => ?_⟩
    obtain ⟨e, logged, sent⟩ := List.mem_filterMap.1 mem
    rw [eq] at logged
    split at sent
    · cases sent
      exact (proper _ _ (by simpa [Call.start] using logged)).congr keeps.ifs keeps.table
    · cases sent
  · cases st

/-- In a network whose hosts do not lie about hardware addresses no router does, and every router sends
its frames to the right next hop. -/
theorem routers_truthful {joined : N × Name → N × Name → Bool} {srs : N → SrInstance}
    {tr : List (Network.Action N Name (List UInt8) (Env × ℕ) × List (Sent N Name (List UInt8)))}
    {s : Network.State N SrInstance Name (List UInt8)}
    (trusts : ∀ n, Trusts Owns (srs n))
    (run : (routers joined).machine.Runs (fun _ _ a => WorldTruthful Owns a)
      (Network.start srs) tr s) :
    (∀ n ip entry, srArpcacheLookup (s.nodes n).cache ip = some entry → Owns ip entry.mac) ∧
      ∀ m ∈ s.sent, Proper Owns (srs m.node) m.message := by
  obtain ⟨keeps, proper⟩ := Network.rely (fun n sr => Preserves Owns (srs n) sr)
    (fun _ _ frame => Truthful Owns frame) (fun n _ frame => Proper Owns (srs n) frame) run
    (fun _ _ _ _ _ _ cond => cond) (fun n => ⟨rfl, rfl, trusts n⟩)
    (fun _ _ _ _ _ _ puts => puts.truthful)
    (fun n sr p frame world sr' out keeps truth st => by
      obtain ⟨⟨after, log⟩, stepped, eq⟩ := Option.map_eq_some_iff.1 st
      cases eq
      exact keeps.step (a := .receive frame p world.1 world.2)
        (fun c' ran => srHandlepacket_honest truth ran) stepped)
    (fun n sr world sr' out keeps st => by
      obtain ⟨⟨after, log⟩, stepped, eq⟩ := Option.map_eq_some_iff.1 st
      cases eq
      exact keeps.step (a := .timeout world.1 world.2)
        (fun c' ran => srArpcacheTimeout_honest ran) stepped)
  refine ⟨fun n ip entry found => ?_, proper⟩
  obtain ⟨mem, valid, rfl⟩ := mem_of_lookup found
  exact (keeps n).trusts.cached entry mem valid

end Network

/-! ## Two routers to run -/

/-- Two routers on one wire; the first has a route through the second. -/
def twoRouters : Bool → SrInstance
  | false => init [⟨[101, 48], Mac.of 2 0 0 0 0 1, 0x0100000a⟩]
      [⟨0x0200a8c0, 0x0200000a, 0xffffffff, [101, 48]⟩]
  | true => init [⟨[101, 48], Mac.of 2 0 0 0 0 3, 0x0200000a⟩] []

def twoOwners (ip : UInt32) (mac : Mac) : Prop :=
  (ip, mac.bytes) = (0x0100000a, [2, 0, 0, 0, 0, 1]) ∨ (ip, mac.bytes) = (0x0200000a, [2, 0, 0, 0, 0, 3])

theorem trusts_twoRouters (n : Bool) : Trusts twoOwners (twoRouters n) := by
  have empty : ∀ e ∈ srArpcacheInit.entries.slots, e.valid = true → twoOwners e.ip e.mac := by
    intro e mem valid
    rw [List.eq_of_mem_replicate mem] at valid
    cases valid
  cases n with
  | false => exact ⟨fun i mem => .inl (by rw [List.mem_singleton.1 mem]; rfl), empty⟩
  | true => exact ⟨fun i mem => .inr (by rw [List.mem_singleton.1 mem]; rfl), empty⟩

/-- The first asks for the second, is answered, and forwards the next datagram to it. -/
theorem routers_truthful_two : ∃ tr s,
    (routers fun x y : Bool × Name => x.1 != y.1).machine.Runs (fun _ _ a => WorldTruthful twoOwners a)
      (Network.start twoRouters) tr s ∧
    s.sent.map (fun m => (m.node, m.message.take 6)) =
      [(false, [0xff, 0xff, 0xff, 0xff, 0xff, 0xff]), (true, [2, 0, 0, 0, 0, 1]),
        (false, [2, 0, 0, 0, 0, 3])] ∧
    (∀ n ip entry, srArpcacheLookup (s.nodes n).cache ip = some entry → twoOwners ip entry.mac) ∧
    ∀ m ∈ s.sent, Proper twoOwners (twoRouters m.node) m.message := by
  obtain ⟨tr, s, run, sent⟩ := Machine.Runs.exists_of_exec_all
    (M := (routers fun x y : Bool × Name => x.1 != y.1).machine) (C := fun _ _ _ => true)
    (D := WorldTruthful twoOwners) (i := Network.start twoRouters)
    (P := fun _ s => s.sent.map (fun m => (m.node, m.message.take 6)) =
      [(false, [0xff, 0xff, 0xff, 0xff, 0xff, 0xff]), (true, [2, 0, 0, 0, 0, 1]),
        (false, [2, 0, 0, 0, 0, 3])])
    [.inject false [101, 48] routable (envAt 5, 2), .deliver 0 true [101, 48] (envAt 5, 2),
      .deliver 1 false [101, 48] (envAt 5, 2), .inject false [101, 48] routable (envAt 6, 2)]
    (fun a mem => by
      have honest : Truthful twoOwners routable := fun arp => absurd arp (by decide)
      fin_cases mem <;> first | exact honest | trivial) (by decide +kernel)
  have run' := run.mono (D := fun _ _ a => WorldTruthful twoOwners a) fun _ _ _ cond => cond.2
  exact ⟨tr, s, run', sent, routers_truthful trusts_twoRouters run'⟩

/-! ## An exchange -/

theorem wireFrames_eq_filterMap (log : List Event) :
    wireFrames log = (emitted log).filterMap fun (sent, iface, frame) =>
      if sent then some (iface, frame) else none := by
  rw [wireFrames, emitted, List.filterMap_filterMap]
  congr 1
  funext e
  cases e <;> rfl

theorem mem_insertEntry_self {slots : List SrArpentry} (entry : SrArpentry)
    (room : ∃ e ∈ slots, e.valid = false) : entry ∈ insertEntry slots entry := by
  induction slots with
  | nil =>
    obtain ⟨e, mem, -⟩ := room
    cases mem
  | cons first rest ih =>
    rw [insertEntry]
    split_ifs with used
    · refine List.mem_cons_of_mem _ (ih ?_)
      obtain ⟨e, mem, free⟩ := room
      rcases List.mem_cons.1 mem with rfl | mem
      · rw [used] at free
        cases free
      · exact ⟨e, mem, free⟩
    · exact List.mem_cons_self ..

section Exchange

variable {Owns : UInt32 → Mac → Prop} {env : Env} {c : Call} {mac : Mac} {ip : UInt32}

theorem cache_learn (env : Env) (c : Call) (mac : Mac) (ip : UInt32) :
    (learn env c mac ip).sr.cache =
      (srArpcacheInsert c.sr.cache mac ip (env.time c.timeReads)).1 := by
  unfold learn
  dsimp only [Call.time]
  split <;> rfl

theorem lookup_learn (one : ∀ ip mac mac', Owns ip mac → Owns ip mac' → mac = mac')
    (trusts : Trusts Owns c.sr) (truth : Owns ip mac)
    (room : ∃ e ∈ c.sr.cache.entries.slots, e.valid = false) :
    (srArpcacheLookup (learn env c mac ip).sr.cache ip).map SrArpentry.mac = some mac := by
  have honest : Honest Owns c (learn env c mac ip) := learn_honest truth
  obtain ⟨-, -, trusts', -⟩ := honest trusts
  have mem : (⟨mac, ip, env.time c.timeReads, true⟩ : SrArpentry) ∈
      (learn env c mac ip).sr.cache.entries.slots := by
    rw [cache_learn]
    exact mem_insertEntry_self _ room
  have found : (srArpcacheLookup (learn env c mac ip).sr.cache ip).isSome := by
    rw [srArpcacheLookup, List.getLast?_isSome]
    exact List.ne_nil_of_mem (List.mem_filter.2 ⟨mem, by simp⟩)
  obtain ⟨entry, lookup⟩ := Option.isSome_iff_exists.1 found
  obtain ⟨mem', valid, same⟩ := mem_of_lookup lookup
  have owns := trusts'.cached entry mem' valid
  rw [same] at owns
  rw [lookup, Option.map_some, one ip _ _ owns truth]

theorem srHandleArpPacket_reply {packet : List UInt8} {i : SrIf} (long : 42 ≤ packet.length)
    (own : getInterfaceFromIp c.sr.ifList (arTip packet) = some i)
    (reply : arOp packet = arpOpReply) :
    srHandleArpPacket env c packet = .ok (learn env c (Mac.copy packet 22) (arSip packet)) := by
  have noRequest : ¬ arpOpReply = arpOpRequest := by decide
  unfold srHandleArpPacket
  simp only [if_neg (Nat.not_lt.2 long), own, reply, if_neg noRequest, if_true]

theorem srHandlepacket_arp (env : Env) (fuel : ℕ) (c : Call) {packet : List UInt8}
    (interface : Name) (long : 42 ≤ packet.length) (arp : etherType packet = ethertypeArp) :
    srHandlepacket env fuel c packet interface = srHandleArpPacket env c packet := by
  have header : ¬ packet.length < sizeofEthernet := Nat.not_lt.2 ((by decide : _ ≤ 42).trans long)
  rw [srHandlepacket, if_neg header, if_pos arp]

theorem receive_eq_some {sr : SrInstance} {packet : List UInt8} {p : Name} {world : Env × ℕ}
    {c' : Call} {new : List Event}
    (run : srHandlepacket world.1 world.2 (.start sr) packet p = .ok c')
    (log : c'.log = (Call.start sr).log ++ new) :
    routerNode.receive sr p packet world = some (c'.sr, wireFrames new) := by
  have performed : perform sr (.receive packet p world.1 world.2) = .ok c' := run
  have stepped : step sr (.receive packet p world.1 world.2) = some (c'.sr, c'.log) := by
    rw [step, performed]
  have whole : c'.log = new := log
  show (step sr (.receive packet p world.1 world.2)).map _ = _
  rw [stepped, Option.map_some, whole]

/-- A request that reaches the router that it asks for is answered, and the answer, when it comes
back, resolves the address; the router that asked sends nothing on it, whatever waits. -/
theorem arp_exchange {a b : SrInstance} {i j k : SrIf} {p p' : Name} {world world' : Env × ℕ}
    (one : ∀ ip mac mac', Owns ip mac → Owns ip mac' → mac = mac')
    (trusts : Trusts Owns a) (trusts' : Trusts Owns b)
    (names : (b.ifList.map SrIf.name).Nodup) (own : getInterfaceFromIp a.ifList i.ip = some k)
    (mem : i ∈ a.ifList) (own' : getInterfaceFromIp b.ifList j.ip = some j)
    (room : ∃ e ∈ a.cache.entries.slots, e.valid = false)
    (room' : ∃ e ∈ b.cache.entries.slots, e.valid = false) :
    ∃ a' b' reply, routerNode.receive b p (arpRequest i j.ip) world = some (b', [(j.name, reply)]) ∧
      routerNode.receive a p' reply world' = some (a', []) ∧
      (srArpcacheLookup b'.cache i.ip).map SrArpentry.mac = some i.addr ∧
      (srArpcacheLookup a'.cache j.ip).map SrArpentry.mac = some j.addr := by
  obtain ⟨type, op, sip, sha, tip, length⟩ := arpRequest_fields i j.ip
  have asked : getInterfaceFromIp (Call.start b).sr.ifList (arTip (arpRequest i j.ip)) = some j := by
    rw [tip]
    exact own'
  -- the request
  have answered := srHandleArpPacket_request world.1 length.ge asked op
  rw [← srHandlepacket_arp world.1 world.2 (.start b) p length.ge type, sip, sha] at answered
  obtain ⟨new, log, sent⟩ := emitted_reply (c := .start b) world.1 names
    (List.mem_of_find?_eq_some own') length.ge i.addr i.ip
  have reply := arpReply_spec j length.ge
  have type' : etherType (arpReply (arpRequest i j.ip) j) = ethertypeArp := by
    unfold etherType loadBE16 at type ⊢
    rw [reply.others 12 (by omega) (by omega), reply.others (12 + 1) (by omega) (by omega)]
    exact type
  -- the answer
  have back : getInterfaceFromIp (Call.start a).sr.ifList
      (arTip (arpReply (arpRequest i j.ip) j)) = some k := by
    rw [reply.tip, sip]
    exact own
  have long := reply.length.ge.trans' length.ge
  have heard : srHandleArpPacket world'.1 (.start a) (arpReply (arpRequest i j.ip) j) = _ :=
    srHandleArpPacket_reply long back reply.op
  rw [← srHandlepacket_arp world'.1 world'.2 (.start a) p' long type', reply.sha, reply.sip, tip]
    at heard
  obtain ⟨-, new', log', silent⟩ := emitted_learn world'.1 (.start a) j.addr j.ip
  have first : routerNode.receive b p (arpRequest i j.ip) world =
      some ((learn world.1 (.start b) i.addr i.ip).sr, [(j.name, arpReply (arpRequest i j.ip) j)]) := by
    rw [receive_eq_some answered log, wireFrames_eq_filterMap, sent, srSendPacket_eq]
    rfl
  have second : routerNode.receive a p' (arpReply (arpRequest i j.ip) j) world' =
      some ((learn world'.1 (.start a) j.addr j.ip).sr, []) := by
    rw [receive_eq_some heard log', wireFrames_eq_filterMap, silent]
    rfl
  exact ⟨_, _, _, first, second, lookup_learn one trusts' (trusts.own i mem) room',
    lookup_learn one trusts (trusts'.own j (List.mem_of_find?_eq_some own')) room⟩

end Exchange

theorem twoOwners_unique (ip : UInt32) (mac mac' : Mac) (owns : twoOwners ip mac)
    (owns' : twoOwners ip mac') : mac = mac' := by
  apply Mac.ext
  unfold twoOwners at owns owns'
  simp only [Prod.mk.injEq] at owns owns'
  obtain ⟨rfl, bytes⟩ | ⟨rfl, bytes⟩ := owns
  · obtain ⟨-, bytes'⟩ | ⟨other, -⟩ := owns'
    · rw [bytes, bytes']
    · cases other
  · obtain ⟨other, -⟩ | ⟨-, bytes'⟩ := owns'
    · cases other
    · rw [bytes, bytes']

theorem arp_exchange_two : ∃ a' b' reply,
    routerNode.receive (twoRouters true) [101, 48]
        (arpRequest ⟨[101, 48], ⟨[2, 0, 0, 0, 0, 1], rfl⟩, 0x0100000a⟩ 0x0200000a) (envAt 5, 2) =
      some (b', [([101, 48], reply)]) ∧
    routerNode.receive (twoRouters false) [101, 48] reply (envAt 5, 2) = some (a', []) ∧
    (srArpcacheLookup b'.cache 0x0100000a).map SrArpentry.mac = some ⟨[2, 0, 0, 0, 0, 1], rfl⟩ ∧
    (srArpcacheLookup a'.cache 0x0200000a).map SrArpentry.mac = some ⟨[2, 0, 0, 0, 0, 3], rfl⟩ := by
  have room : ∀ n, ∃ e ∈ (twoRouters n).cache.entries.slots, e.valid = false := fun n =>
    ⟨⟨⟨[0, 0, 0, 0, 0, 0], rfl⟩, 0, 0, false⟩, by cases n <;> exact List.mem_cons_self .., rfl⟩
  exact arp_exchange (i := ⟨[101, 48], ⟨[2, 0, 0, 0, 0, 1], rfl⟩, 0x0100000a⟩)
    (j := ⟨[101, 48], ⟨[2, 0, 0, 0, 0, 3], rfl⟩, 0x0200000a⟩) twoOwners_unique
    (trusts_twoRouters false) (trusts_twoRouters true) (by decide) rfl (List.mem_singleton_self _) rfl
    (room false) (room true)

end ComputerNetwork.Router
