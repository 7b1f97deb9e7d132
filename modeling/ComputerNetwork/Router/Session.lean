import ComputerNetwork.Lib.Run
import ComputerNetwork.Router.Client
import ComputerNetwork.Router.Effects

/-!
# The session of a router with the controller

The controller's end, `SRServerListener` of `srhandler.py`, and the router's, `sr_connect_to_server` and
the loop of `main`, with the messages that are on the connection in between.  The switch that the
controller drives, the threads of the router and both ends take their steps in any order.

`Heard` says what the router has made of the messages it has read, and `readsTo` that each message of
the controller leads from one such state to the next.
-/

namespace ComputerNetwork.Router

open Lib

/-! ## The controller -/

/-- An entry of `sw_info`, with its addresses packed. -/
structure SwInfo where
  name : Name
  ip : List UInt8
  mac : List UInt8
  port : ℕ
  ip_size : ip.length = 4
  mac_size : mac.length = 6

/-- The interface that `_handle_RouterInfo` makes of an entry. -/
def SwInfo.interface (v : SwInfo) : VnsInterface where
  name := v.name
  mac := v.mac
  ip := v.ip
  mask := [255, 255, 255, 255]
  mac_size := v.mac_size
  ip_size := v.ip_size
  mask_size := rfl

/-- `SRServerListener`; its list of interfaces is not set in the beginning. -/
structure SRServerListener where
  interfaces : Option (List VnsInterface)
  intfnameToPort : Name → Option ℕ
  portToIntfname : ℕ → Option Name

/-- `_handle_RouterInfo`. -/
def handleRouterInfo (l : SRServerListener) (info : List SwInfo) : SRServerListener where
  interfaces := some (info.map SwInfo.interface)
  intfnameToPort := info.foldl (fun d v => Function.update d v.name (some v.port)) l.intfnameToPort
  portToIntfname := info.foldl (fun d v => Function.update d v.port (some v.name)) l.portToIntfname

/-- What a handler of the controller does. -/
inductive Reaction where
  | sends (m : VnsMessage)
  /-- `SRPacketOut` is raised. -/
  | packetOut (pkt : List UInt8) (port : ℕ)
  | nothing
  | closes
  /-- An exception that the handler does not catch. -/
  | raises

/-- `"authenticated %s as %s" % (conn, 'user')`. -/
def authenticatedText (conn : List UInt8) : List UInt8 :=
  [97, 117, 116, 104, 101, 110, 116, 105, 99, 97, 116, 101, 100, 32] ++ conn ++
    [32, 97, 115, 32, 117, 115, 101, 114]

/-- `_handle_recv_msg`.  The handler of a packet uses a name that is not set when it logs that the
interface is unknown, and there is no `_handle_open_template_msg`. -/
def handleRecvMsg (l : SRServerListener) (conn : List UInt8) : VnsMessage → Reaction
  | .authReply .. => .sends (.authStatus true (authenticatedText conn))
  | .openTopology .. =>
    match l.interfaces with
    | some interfaces => .sends (.hardwareInfo interfaces)
    | none => .nothing
  | .close _ => .closes
  | .packet intfName ethernetFrame =>
    match l.intfnameToPort intfName with
    | some port => .packetOut ethernetFrame port
    | none => .raises
  | .openTemplate .. => .raises
  | .banner _ | .hardwareInfo _ | .rtable .. | .authRequest _ | .authStatus .. => .nothing

/-! ## The session -/

/-- The options of the router that the session depends on. -/
structure Options where
  topoId : UInt16
  host : Name
  template : Name

/-- Where the router stands: it waits for a type of message in `sr_connect_to_server`, it is in the loop
of `main`, or the process has ended. -/
inductive Phase where
  | authRequest | authStatus | rtable | running | ended
  deriving DecidableEq

/-- The argument of `sr_read_from_server_expect`. -/
def Phase.expectedCmd : Phase → UInt32
  | authRequest => 128
  | authStatus => 512
  | rtable => 32
  | running | ended => 0

/-- Both ends and what is on the connection: `down` to the router and `up` to the controller. -/
structure Session where
  listener : SRServerListener
  /-- The router is one of `srclients`. -/
  accepted : Bool
  /-- The controller has given up the connection. -/
  lost : Bool
  down : List VnsMessage
  up : List Command
  phase : Phase
  client : Client

inductive SessionAction where
  /-- A switch has connected, `_handle_RouterInfo` is called. -/
  | routerInfo (info : List SwInfo)
  /-- A packet has come in at a port of the switch, `_handle_SRPacketIn` is called. -/
  | packetIn (port : ℕ) (pkt : List UInt8)
  /-- The router connects, `_handle_new_client` is called. -/
  | connect (salt : List UInt8)
  /-- The next command is handled; whether the connection survives an exception is up to the framework. -/
  | controllerReads (conn : List UInt8) (survives : Bool)
  /-- The next call of `sr_read_from_server_expect`. -/
  | routerReads (host : Host)
  /-- A thread of the router calls `sr_send_packet`. -/
  | sends (buf : List UInt8) (iface : Name)

inductive SessionEvent where
  /-- The controller has sent a message. -/
  | down (m : VnsMessage)
  /-- The router has sent a command. -/
  | up (c : Command)
  | handed (frame : List UInt8) (interface : Name)
  | packetOut (pkt : List UInt8) (port : ℕ)

namespace Session

/-- The controller sends a message. -/
def put (s : Session) (m : VnsMessage) : Session × List SessionEvent :=
  if s.lost then (s, []) else ({ s with down := s.down ++ [m] }, [.down m])

/-- The router sends a command. -/
def send (s : Session) (c : Command) : Session × List SessionEvent :=
  ({ s with up := s.up ++ [c] }, [.up c])

/-- What a command does on the connection or in the router. -/
def apply (s : Session) : Effect → Session × List SessionEvent
  | .sent c => s.send c
  | .handed frame interface => (s, [.handed frame interface])
  | .printed _ | .wrote .. => (s, [])

def applyAll (s : Session) : List Effect → Session × List SessionEvent
  | [] => (s, [])
  | e :: rest =>
    let (s, shown) := s.apply e
    let (s, more) := s.applyAll rest
    (s, shown ++ more)

/-- The command with which the router asks for its interfaces. -/
def opening (o : Options) (user : Name) : Command :=
  if o.template = [] then .openTopology o.topoId o.host user else .openTemplate o.template o.host

/-- Behind a call of `sr_read_from_server_expect` that has returned 1. -/
def advance (o : Options) (host : Host) (s : Session) : Session × List SessionEvent :=
  match s.phase with
  | .authRequest => ({ s with phase := .authStatus }, [])
  | .authStatus =>
    if host.sends then
      { s with phase := if o.template = [] then .running else .rtable }.send (opening o s.client.user)
    else ({ s with phase := .ended }, [])
  | .rtable => ({ s with phase := .running }, [])
  | .running | .ended => (s, [])

/-- The router reads a message. -/
def read (o : Options) (host : Host) (s : Session) (m : VnsMessage) : Session × List SessionEvent :=
  match hearExpecting s.phase.expectedCmd host s.client m with
  | .error _ => ({ s with phase := .ended }, [])
  | .ok served =>
    let (s, shown) := { s with client := served.client }.applyAll served.effects
    if served.ret = 1 then
      let (s, more) := s.advance o host
      (s, shown ++ more)
    else ({ s with phase := .ended }, shown)

def step (o : Options) (s : Session) : SessionAction → Option (Session × List SessionEvent)
  | .routerInfo info => some ({ s with listener := handleRouterInfo s.listener info }, [])
  | .packetIn port pkt =>
    match s.listener.portToIntfname port with
    | some intfname =>
      if s.accepted then some (s.put (.packet intfname pkt)) else some (s, [])
    | none => some (s, [])
  | .connect salt =>
    if s.accepted then none else some ({ s with accepted := true }.put (.authRequest salt))
  | .controllerReads conn survives =>
    match s.up with
    | [] => none
    | c :: rest =>
      if s.lost then none
      else
        let s := { s with up := rest }
        match handleRecvMsg s.listener conn c.message with
        | .sends m => some (s.put m)
        | .packetOut pkt port => some (s, [.packetOut pkt port])
        | .nothing => some (s, [])
        | .closes => some ({ s with lost := true }, [])
        | .raises => some ({ s with lost := !survives }, [])
  | .routerReads host =>
    if s.phase = .ended then none
    else match s.down with
      | [] => none
      | m :: rest => some ({ s with down := rest }.read o host m)
  | .sends buf iface =>
    if s.phase = .running then
      match sendEvent s.client.sr.ifList buf iface with
      | .transmit iface buf => some (s.send (.packet iface buf))
      | _ => some (s, [])
    else none

/-- The session as a machine. -/
def machine (o : Options) : Machine Session SessionAction (List SessionEvent) where
  step := step o

/-- Both programs have been started, with the routing table that the router has loaded. -/
def start (routingTable : List SrRt) (user : Name) : Session where
  listener := ⟨none, fun _ => none, fun _ => none⟩
  accepted := false
  lost := false
  down := []
  up := []
  phase := .authRequest
  client := ⟨⟨[], routingTable, srArpcacheInit⟩, user⟩

end Session

/-! ## What happens on both sides -/

namespace SessionEvent

/-- The message that the controller has sent. -/
def message : SessionEvent → Option VnsMessage
  | down m => some m
  | _ => none

/-- The arguments of the call of `sr_handlepacket`. -/
def call : SessionEvent → Option (Name × List UInt8)
  | handed frame interface => some (interface, frame)
  | _ => none

/-- The packet that the switch was told to send. -/
def out : SessionEvent → Option (ℕ × List UInt8)
  | packetOut pkt port => some (port, pkt)
  | _ => none

end SessionEvent

/-- The packet in a message. -/
def VnsMessage.carried : VnsMessage → Option (Name × List UInt8)
  | packet intfName frame => some (intfName, frame)
  | _ => none

/-- The packet in a command. -/
def Command.carried : Command → Option (Name × List UInt8)
  | packet iface frame => some (iface, frame)
  | _ => none

/-- The packet that the router has sent. -/
def SessionEvent.transmitted : SessionEvent → Option (Name × List UInt8)
  | up c => c.carried
  | _ => none

abbrev SessionTrace := List (SessionAction × List SessionEvent)

/-- All that has happened. -/
def events (tr : SessionTrace) : List SessionEvent := tr.flatMap Prod.snd

/-- What the controller has sent. -/
def downs (tr : SessionTrace) : List VnsMessage := (events tr).filterMap SessionEvent.message

/-- The calls of `sr_handlepacket`. -/
def calls (tr : SessionTrace) : List (Name × List UInt8) := (events tr).filterMap SessionEvent.call

/-- The packets that the router has sent. -/
def transmits (tr : SessionTrace) : List (Name × List UInt8) :=
  (events tr).filterMap SessionEvent.transmitted

/-- The packets that the switch was told to send. -/
def packetOuts (tr : SessionTrace) : List (ℕ × List UInt8) := (events tr).filterMap SessionEvent.out

/-- The packet that came in at the switch in a step that sent it to the router. -/
def cameIn : SessionAction × List SessionEvent → Option (ℕ × List UInt8)
  | (.packetIn port pkt, _ :: _) => some (port, pkt)
  | _ => none

/-- The packets that came in at the switch and were sent to the router. -/
def packetIns (tr : SessionTrace) : List (ℕ × List UInt8) := tr.filterMap cameIn

/-! ## The topology -/

/-- The interfaces as the router keeps them. -/
def ifListOf (topo : List SwInfo) : List SrIf := topo.map fun v => v.interface.toSrIf

/-- The port of an interface. -/
def portOf (topo : List SwInfo) (name : Name) : Option ℕ :=
  (topo.find? fun v => v.name = name).map SwInfo.port

/-- An ARP request for another router is for nobody here. -/
def forUs (topo : List SwInfo) (packet : Name × List UInt8) : Bool :=
  match srArpReqNotForUs (ifListOf topo) packet.2 packet.2.length packet.1 with
  | .ok true => false
  | _ => true

/-- A topology whose interfaces and ports the messages can tell apart. -/
structure ProperTopology (topo : List SwInfo) : Prop where
  names : (topo.map SwInfo.name).Nodup
  ports : (topo.map SwInfo.port).Nodup
  holdable : ∀ v ∈ topo, Holdable 15 v.name
  few : topo.length ≤ 46

/-- The switch has this topology, the router has a key and can send, and what is sent fits. -/
def Steady (topo : List SwInfo) (_ : SessionTrace) (_ : Session) : SessionAction → Prop
  | .routerInfo info => info = topo
  | .packetIn _ pkt => pkt.length + 24 ≤ 10000
  | .connect salt => salt.length = 20
  | .controllerReads conn _ => conn.length ≤ 9000
  | .routerReads host =>
    (∃ contents, host.authKey = some contents ∧ contents ≠ []) ∧ host.sends = true
  | .sends buf _ => buf.length + 24 < 2 ^ 32

/-! ## The dictionaries -/

section Topology

variable {topo : List SwInfo} {name : Name} {port : ℕ}

/-- The listener behind `_handle_RouterInfo`. -/
def listenerOf (topo : List SwInfo) : SRServerListener where
  interfaces := some (topo.map SwInfo.interface)
  intfnameToPort := portOf topo
  portToIntfname p := (topo.find? fun v => v.port = p).map SwInfo.name

theorem foldl_update {α β γ : Type} [DecidableEq β] (key : α → β) (value : α → γ) (l : List α)
    (distinct : (l.map key).Nodup) (d : β → Option γ) (b : β) :
    l.foldl (fun d a => Function.update d (key a) (some (value a))) d b =
      ((l.find? fun a => key a = b).map value).or (d b) := by
  induction l generalizing d with
  | nil => rfl
  | cons a rest ih =>
    obtain ⟨fresh, distinct'⟩ := List.nodup_cons.1 distinct
    rw [List.foldl_cons, ih distinct', List.find?_cons]
    by_cases same : key a = b
    · subst same
      have none_ : rest.find? (fun a' => key a' = key a) = none :=
        List.find?_eq_none.2 fun a' mem eq => fresh (by
          rw [← of_decide_eq_true eq]
          exact List.mem_map_of_mem mem)
      simp [none_]
    · simp [same, Function.update_of_ne (Ne.symm same)]

theorem handleRouterInfo_eq (proper : ProperTopology topo) {l : SRServerListener}
    (old : l = ⟨none, fun _ => none, fun _ => none⟩ ∨ l = listenerOf topo) :
    handleRouterInfo l topo = listenerOf topo := by
  rcases old with rfl | rfl
  all_goals
    rw [handleRouterInfo, listenerOf]
    congr 1
    · funext name
      rw [foldl_update SwInfo.name SwInfo.port topo proper.names]
      simp [portOf]
    · funext port
      rw [foldl_update SwInfo.port SwInfo.name topo proper.ports]
      simp

theorem exists_of_portToIntfname (named : (listenerOf topo).portToIntfname port = some name) :
    ∃ v ∈ topo, v.name = name ∧ v.port = port := by
  obtain ⟨v, found, rfl⟩ := Option.map_eq_some_iff.1 named
  exact ⟨v, List.mem_of_find?_eq_some found, rfl, by simpa using List.find?_some found⟩

theorem portOf_eq (proper : ProperTopology topo) {v : SwInfo} (mem : v ∈ topo) :
    portOf topo v.name = some v.port := by
  have found : (topo.find? fun w => w.name = v.name).isSome :=
    List.find?_isSome.2 ⟨v, mem, by simp⟩
  obtain ⟨w, eq⟩ := Option.isSome_iff_exists.1 found
  have same : w.name = v.name := by simpa using List.find?_some eq
  have one := List.inj_on_of_nodup_map proper.names (List.mem_of_find?_eq_some eq) mem same
  rw [portOf, eq, one, Option.map_some]

/-! ## The interfaces of the router -/

/-- Interfaces that have been added `k` times. -/
def copies (topo : List SwInfo) (k : ℕ) : List SrIf := (List.replicate k (ifListOf topo)).flatten

theorem copies_succ (k : ℕ) : copies topo (k + 1) = copies topo k ++ ifListOf topo := by
  rw [copies, copies, List.replicate_succ', List.flatten_append, List.flatten_singleton]

theorem mem_copies {i : SrIf} {k : ℕ} (positive : 0 < k) : i ∈ copies topo k ↔ i ∈ ifListOf topo := by
  rw [copies, List.mem_flatten]
  constructor
  · rintro ⟨l, mem, inside⟩
    rwa [List.eq_of_mem_replicate mem] at inside
  · exact fun inside => ⟨_, List.mem_replicate.2 ⟨positive.ne', rfl⟩, inside⟩

theorem srGetInterface_copies {k : ℕ} (positive : 0 < k) (name : Name) :
    srGetInterface (copies topo k) name = srGetInterface (ifListOf topo) name := by
  obtain ⟨k, rfl⟩ := Nat.exists_eq_succ_of_ne_zero positive.ne'
  rw [copies, List.replicate_succ, List.flatten_cons, srGetInterface, srGetInterface,
    List.find?_append]
  cases found : (ifListOf topo).find? fun i => i.name = name with
  | some i => rfl
  | none =>
    rw [Option.none_or]
    refine List.find?_eq_none.2 fun i mem => ?_
    obtain ⟨l, mem, inside⟩ := List.mem_flatten.1 mem
    rw [List.eq_of_mem_replicate mem] at inside
    exact List.find?_eq_none.1 found i inside

theorem srGetInterface_ifListOf : (srGetInterface (ifListOf topo) name).isSome ↔
    ∃ v ∈ topo, v.name = name := by
  rw [srGetInterface, List.find?_isSome, ifListOf]
  simp [VnsInterface.toSrIf, SwInfo.interface]

/-- What the router does with a packet once it knows its interfaces. -/
theorem srArpReqNotForUs_copies {k : ℕ} (positive : 0 < k) {frame : List UInt8}
    (known : ∃ v ∈ topo, v.name = name) :
    srArpReqNotForUs (copies topo k) frame frame.length name = .ok (!forUs topo (name, frame)) := by
  have same : srArpReqNotForUs (copies topo k) frame frame.length name =
      srArpReqNotForUs (ifListOf topo) frame frame.length name := by
    unfold srArpReqNotForUs
    rw [srGetInterface_copies positive]
  obtain ⟨i, found⟩ := Option.isSome_iff_exists.1 (srGetInterface_ifListOf.2 known)
  obtain ⟨drops, eq⟩ : ∃ drops,
      srArpReqNotForUs (ifListOf topo) frame frame.length name = .ok drops := by
    rw [srArpReqNotForUs, found]
    split_ifs
    · exact ⟨_, rfl⟩
    · exact ⟨_, rfl⟩
  rw [same, forUs]
  dsimp only
  rw [eq]
  cases drops <;> rfl

/-- Before, a packet that can be an ARP request stops it. -/
theorem srArpReqNotForUs_zero (frame : List UInt8) (name : Name) :
    srArpReqNotForUs (copies topo 0) frame frame.length name =
      if frame.length < 42 then .ok false else .error .assertion := rfl

theorem forUs_of_short {frame : List UInt8} (short : frame.length < 42) (name : Name) :
    forUs topo (name, frame) = true := by
  rw [forUs]
  dsimp only
  rw [srArpReqNotForUs, if_pos (show frame.length < sizeofEthernet + sizeofArp from short)]

/-- The routing table uses interfaces of the topology only. -/
def Consistent (topo : List SwInfo) (table : List SrRt) : Prop :=
  topo ≠ [] ∧ table ≠ [] ∧ ∀ rt ∈ table, ∃ v ∈ topo, v.name = rt.interface

theorem srVerifyRoutingTable_copies {k : ℕ} (positive : 0 < k) (table : List SrRt)
    (cache : SrArpcache) :
    srVerifyRoutingTable ⟨copies topo k, table, cache⟩ = 0 ↔ Consistent topo table := by
  have empty : copies topo k = [] ↔ topo = [] := by
    rw [List.eq_nil_iff_forall_not_mem, List.eq_nil_iff_forall_not_mem]
    simp only [mem_copies positive, ifListOf, List.mem_map, not_exists, not_and]
    exact ⟨fun none_ v mem => none_ _ v mem rfl, fun none_ i v mem => absurd mem (none_ v)⟩
  have any : ∀ rt : SrRt, (copies topo k).any (fun i => i.name = rt.interface) = true ↔
      ∃ v ∈ topo, v.name = rt.interface := by
    intro rt
    simp only [List.any_eq_true, mem_copies positive, ifListOf, List.mem_map, decide_eq_true_eq]
    constructor
    · rintro ⟨i, ⟨v, mem, rfl⟩, same⟩
      exact ⟨v, mem, same⟩
    · rintro ⟨v, mem, same⟩
      exact ⟨_, ⟨v, mem, rfl⟩, same⟩
  rw [srVerifyRoutingTable, Consistent]
  dsimp only
  by_cases none_ : copies topo k = [] ∨ table = []
  · rw [if_pos none_]
    rw [empty] at none_
    exact iff_of_false (by decide) fun ⟨some_, some', _⟩ => none_.elim some_ some'
  · rw [if_neg none_, List.length_eq_zero_iff, List.filter_eq_nil_iff]
    rw [empty] at none_
    obtain ⟨some_, some'⟩ := not_or.1 none_
    simp only [Bool.not_eq_true', Bool.not_eq_false, any]
    exact ⟨fun all => ⟨some_, some', all⟩, fun all => all.2.2⟩

end Topology

/-! ## What the router makes of messages -/

section Hearing

variable {topo : List SwInfo} {table : List SrRt} {ms : List VnsMessage} {m : VnsMessage}

def VnsMessage.isAuthStatus : VnsMessage → Bool
  | authStatus .. => true
  | _ => false

def VnsMessage.isHardwareInfo : VnsMessage → Bool
  | hardwareInfo _ => true
  | _ => false

/-- A packet comes in time when the router is behind its authentication, and knows its interfaces where
the packet can be an ARP request. -/
def InTime (before : List VnsMessage) : VnsMessage → Prop
  | .packet _ frame => before.any VnsMessage.isAuthStatus = true ∧
      (42 ≤ frame.length → before.any VnsMessage.isHardwareInfo = true)
  | _ => True

/-- No packet comes too early. -/
def NoneEarly (ms : List VnsMessage) : Prop :=
  ∀ before m behind, ms = before ++ m :: behind → InTime before m

/-- The messages with which the router comes up. -/
def ComesUp (topo : List SwInfo) (table : List SrRt) (ms : List VnsMessage) : Prop :=
  NoneEarly ms ∧ (ms.any VnsMessage.isHardwareInfo = true → Consistent topo table)

theorem noneEarly_snoc : NoneEarly (ms ++ [m]) ↔ NoneEarly ms ∧ InTime ms m := by
  constructor
  · intro late
    refine ⟨fun before m' behind eq => late before m' (behind ++ [m]) ?_, late ms m [] rfl⟩
    rw [eq, List.append_assoc, List.cons_append]
  · rintro ⟨late, last⟩ before m' behind eq
    rcases snoc_eq_append_cons eq with ⟨rfl, rfl, -⟩ | ⟨behind', eq', -⟩
    · exact last
    · exact late before m' behind' eq'

/-- What the controller sends on the topology. -/
def FromController (topo : List SwInfo) : VnsMessage → Prop
  | .packet intfName frame => (∃ v ∈ topo, v.name = intfName) ∧ frame.length + 24 ≤ 10000
  | .hardwareInfo interfaces => interfaces = topo.map SwInfo.interface
  | .authStatus authOk msg => authOk = true ∧ msg.length ≤ 9100
  | .authRequest salt => salt.length = 20
  | _ => False

/-- What the router has made of the messages it has read. -/
structure Heard (topo : List SwInfo) (table : List SrRt) (ms : List VnsMessage)
    (called : List (Name × List UInt8)) (phase : Phase) (client : Client) : Prop where
  asked : phase = .authRequest → ms = []
  authenticated : phase = .authStatus → ∃ salt, ms = [.authRequest salt]
  noTemplate : phase ≠ .rtable
  running : phase = .running → ms.any VnsMessage.isAuthStatus = true
  comesUp : phase ≠ .ended ↔ ComesUp topo table ms
  interfaces : client.sr.ifList = copies topo (ms.countP VnsMessage.isHardwareInfo)
  table : client.sr.routingTable = table
  exact : phase ≠ .ended → called = (ms.filterMap VnsMessage.carried).filter (forUs topo)
  before : called <+: (ms.filterMap VnsMessage.carried).filter (forUs topo)

/-- A message does not come before it is asked for. -/
def Awaited (phase : Phase) : VnsMessage → Prop
  | .authRequest _ => phase ≠ .authStatus
  | .hardwareInfo _ => phase = .running ∨ phase = .ended
  | .authStatus .. | .packet .. => phase ≠ .authRequest
  | _ => True

theorem any_snoc {p : VnsMessage → Bool} : (ms ++ [m]).any p = (ms.any p || p m) := by
  rw [List.any_append, List.any_cons, List.any_nil, Bool.or_false]

theorem countP_snoc_of_not {p : VnsMessage → Bool} (not_ : p m = false) :
    (ms ++ [m]).countP p = ms.countP p := by
  rw [List.countP_append, List.countP_singleton, not_]
  rfl

theorem countP_pos_iff_any {p : VnsMessage → Bool} : 0 < ms.countP p ↔ ms.any p = true := by
  rw [List.countP_pos_iff, List.any_eq_true]

theorem filterMap_snoc {α β : Type} (f : α → Option β) (l : List α) (a : α) :
    (l ++ [a]).filterMap f = l.filterMap f ++ (f a).toList := by
  rw [List.filterMap_append]
  cases eq : f a <;> simp [eq]

variable {called : List (Name × List UInt8)} {phase : Phase} {client : Client}

theorem Heard.snoc (heard : Heard topo table ms called phase client) (live : phase ≠ .ended)
    (noPacket : m.carried = none) (noInterfaces : m.isHardwareInfo = false) {phase' : Phase}
    (live' : phase' ≠ .ended) (asked : phase' ≠ .authRequest)
    (authenticated : phase' = .authStatus → ∃ salt, ms ++ [m] = [.authRequest salt])
    (noTemplate : phase' ≠ .rtable)
    (running : phase' = .running → (ms ++ [m]).any VnsMessage.isAuthStatus = true) :
    Heard topo table (ms ++ [m]) called phase' client where
  asked same := absurd same asked
  authenticated := authenticated
  noTemplate := noTemplate
  running := running
  comesUp := by
    obtain ⟨late, consistent⟩ := heard.comesUp.1 live
    have inTime : InTime ms m := by
      cases m with
      | packet => cases noPacket
      | _ => trivial
    refine iff_of_true live' ⟨noneEarly_snoc.2 ⟨late, inTime⟩, fun any => consistent ?_⟩
    rwa [any_snoc, noInterfaces, Bool.or_false] at any
  interfaces := by rw [countP_snoc_of_not noInterfaces, heard.interfaces]
  table := heard.table
  exact _ := by
    rw [filterMap_snoc, noPacket, Option.toList_none, List.append_nil]
    exact heard.exact live
  before := by
    rw [filterMap_snoc, noPacket, Option.toList_none, List.append_nil]
    exact heard.before

theorem Heard.packet {intfName frame : List UInt8}
    (heard : Heard topo table ms called .running client)
    (inTime : InTime ms (.packet intfName frame)) :
    Heard topo table (ms ++ [.packet intfName frame])
      (called ++ if forUs topo (intfName, frame) then [(intfName, frame)] else []) .running client where
  asked := Phase.noConfusion
  authenticated := Phase.noConfusion
  noTemplate := Phase.noConfusion
  running _ := by rw [any_snoc, heard.running rfl, Bool.true_or]
  comesUp := by
    obtain ⟨late, consistent⟩ := heard.comesUp.1 Phase.noConfusion
    refine iff_of_true Phase.noConfusion ⟨noneEarly_snoc.2 ⟨late, inTime⟩, fun any => consistent ?_⟩
    simpa [any_snoc, VnsMessage.isHardwareInfo] using any
  interfaces := by rw [countP_snoc_of_not rfl, heard.interfaces]
  table := heard.table
  exact _ := by
    rw [filterMap_snoc, VnsMessage.carried, List.filter_append, ← heard.exact Phase.noConfusion,
      Option.toList_some, List.filter_singleton, Bool.cond_eq_ite]
  before := by
    rw [filterMap_snoc, VnsMessage.carried, List.filter_append, ← heard.exact Phase.noConfusion,
      Option.toList_some, List.filter_singleton, Bool.cond_eq_ite]

theorem Heard.stop (heard : Heard topo table ms called phase client)
    (fails : ¬ ComesUp topo table (ms ++ [m])) (noInterfaces : m.isHardwareInfo = false) :
    Heard topo table (ms ++ [m]) called .ended client where
  asked := Phase.noConfusion
  authenticated := Phase.noConfusion
  noTemplate := Phase.noConfusion
  running := Phase.noConfusion
  comesUp := iff_of_false (fun no => no rfl) fails
  interfaces := by rw [countP_snoc_of_not noInterfaces, heard.interfaces]
  table := heard.table
  exact no := absurd rfl no
  before := by
    rw [filterMap_snoc, List.filter_append]
    exact heard.before.trans (List.prefix_append ..)

theorem Heard.hardwareInfo {interfaces : List VnsInterface}
    (heard : Heard topo table ms called .running client)
    (all : interfaces.map VnsInterface.toSrIf = ifListOf topo) {phase : Phase}
    (goes : phase = .running ∨ phase = .ended) (comesUp : phase ≠ .ended ↔ Consistent topo table) :
    Heard topo table (ms ++ [.hardwareInfo interfaces]) called phase
      { client with sr := { client.sr with
          ifList := client.sr.ifList ++ interfaces.map VnsInterface.toSrIf } } where
  asked same := by rcases goes with rfl | rfl <;> cases same
  authenticated same := by rcases goes with rfl | rfl <;> cases same
  noTemplate same := by rcases goes with rfl | rfl <;> cases same
  running _ := by rw [any_snoc, heard.running rfl, Bool.true_or]
  comesUp := by
    obtain ⟨late, -⟩ := heard.comesUp.1 Phase.noConfusion
    rw [comesUp]
    refine ⟨fun consistent => ⟨noneEarly_snoc.2 ⟨late, trivial⟩, fun _ => consistent⟩, fun up => up.2 ?_⟩
    simp [VnsMessage.isHardwareInfo]
  interfaces := by
    show client.sr.ifList ++ _ = _
    rw [all, heard.interfaces, List.countP_append, List.countP_singleton, ← copies_succ]
    rfl
  table := heard.table
  exact _ := by
    rw [filterMap_snoc, show VnsMessage.carried (.hardwareInfo interfaces) = none from rfl,
      Option.toList_none, List.append_nil]
    exact heard.exact Phase.noConfusion
  before := by
    rw [filterMap_snoc, show VnsMessage.carried (.hardwareInfo interfaces) = none from rfl,
      Option.toList_none, List.append_nil]
    exact heard.before

end Hearing

section Reading

variable {topo : List SwInfo} {table : List SrRt} {ms : List VnsMessage} {m : VnsMessage}
  {called : List (Name × List UInt8)} {o : Options} {host : Host} {s : Session}

/-- A command with which the router answers in `sr_connect_to_server`. -/
def Answers (before after : Phase) : Command → Prop
  | .authReply .. => True
  | .openTopology .. => before = .authStatus ∧ after = .running
  | _ => False

/-- Commands that are sent, and calls of `sr_handlepacket`. -/
def answered (sent : List Command) (called : List (Name × List UInt8)) : List SessionEvent :=
  sent.map SessionEvent.up ++ called.map fun c => SessionEvent.handed c.2 c.1

/-- A message is read: the router sends answers, calls `sr_handlepacket`, and has heard the message. -/
def ReadsTo (topo : List SwInfo) (table : List SrRt) (ms : List VnsMessage)
    (called : List (Name × List UInt8)) (s : Session) (m : VnsMessage)
    (result : Session × List SessionEvent) : Prop :=
  ∃ sent called' phase client,
    result = ({ s with up := s.up ++ sent, phase, client }, answered sent called') ∧
    (∀ c ∈ sent, Answers s.phase phase c) ∧
    Heard topo table (ms ++ [m]) (called ++ called') phase client

theorem read_error {e : Stop} (refused : hearExpecting s.phase.expectedCmd host s.client m = .error e) :
    s.read o host m = ({ s with phase := .ended }, []) := by
  rw [Session.read, refused]

theorem readsTo_stop (heard : Heard topo table ms called s.phase s.client)
    (fails : ¬ ComesUp topo table (ms ++ [m])) (noInterfaces : m.isHardwareInfo = false) :
    ReadsTo topo table ms called s m ({ s with phase := .ended }, []) := by
  refine ⟨[], [], .ended, s.client, ?_, fun c mem => absurd mem List.not_mem_nil, ?_⟩
  · rw [List.append_nil]
    rfl
  · rw [List.append_nil]
    exact heard.stop fails noInterfaces

theorem read_running (running : s.phase = .running) {client : Client} {effects : List Effect} {ret : ℤ}
    (heard : hear host s.client m = .ok ⟨client, effects, ret⟩)
    (unsent : ∀ c, .sent c ∉ effects) :
    s.read o host m = ({ s with client, phase := if ret = 1 then .running else .ended },
      ({ s with client }.applyAll effects).2) := by
  have same : ∀ (effects : List Effect) (s : Session), (∀ c, .sent c ∉ effects) →
      (s.applyAll effects).1 = s := by
    intro effects
    induction effects with
    | nil => exact fun _ _ => rfl
    | cons e rest ih =>
      intro s unsent
      have one : (s.apply e).1 = s := by
        cases e with
        | sent c => exact absurd (List.mem_cons_self ..) (unsent c)
        | _ => rfl
      rw [Session.applyAll]
      dsimp only
      rw [ih _ fun c mem => unsent c (List.mem_cons_of_mem _ mem), one]
  rw [Session.read, running, Phase.expectedCmd, hearExpecting_zero, heard]
  dsimp only
  rw [same effects _ unsent, Session.advance]
  split_ifs <;> simp

theorem readsTo_handed {intfName frame : List UInt8}
    (heard : Heard topo table ms called s.phase s.client) (running : s.phase = .running)
    (inTime : InTime ms (.packet intfName frame)) (our : forUs topo (intfName, frame) = true)
    (asked : srArpReqNotForUs s.client.sr.ifList frame frame.length intfName = .ok false) :
    ReadsTo topo table ms called s (.packet intfName frame)
      (s.read o host (.packet intfName frame)) := by
  have heard' : hear host s.client (.packet intfName frame) =
      .ok ⟨s.client, [.handed frame intfName], 1⟩ := by
    rw [hear, hearPacket, asked]
  rw [running] at heard
  have after := heard.packet inTime
  rw [if_pos our] at after
  rw [read_running running heard' (by simp), if_pos rfl]
  refine ⟨[], [(intfName, frame)], .running, s.client, ?_, fun c mem => absurd mem List.not_mem_nil,
    after⟩
  rw [List.append_nil]
  rfl

theorem readsTo_packet {intfName frame : List UInt8}
    (heard : Heard topo table ms called s.phase s.client) (live : s.phase ≠ .ended)
    (awaited : s.phase ≠ .authRequest) (known : ∃ v ∈ topo, v.name = intfName) :
    ReadsTo topo table ms called s (.packet intfName frame)
      (s.read o host (.packet intfName frame)) := by
  cases phase : s.phase with
  | authRequest => exact absurd phase awaited
  | rtable => exact absurd phase heard.noTemplate
  | ended => exact absurd phase live
  | authStatus =>
    obtain ⟨salt, rfl⟩ := heard.authenticated phase
    have refused : hearExpecting s.phase.expectedCmd host s.client (.packet intfName frame) =
        .error .failed := by
      rw [phase, hearExpecting, if_neg (by simp [Phase.expectedCmd, VnsMessage.getType])]
    rw [read_error refused]
    refine readsTo_stop heard (fun up => ?_) rfl
    have inTime := (noneEarly_snoc.1 up.1).2
    cases inTime.1
  | running =>
    have heard' := heard
    rw [phase] at heard'
    by_cases know : ms.any VnsMessage.isHardwareInfo = true
    · have positive := countP_pos_iff_any.2 know
      have inTime : InTime ms (.packet intfName frame) := ⟨heard'.running rfl, fun _ => know⟩
      have asked : srArpReqNotForUs s.client.sr.ifList frame frame.length intfName =
          .ok (!forUs topo (intfName, frame)) := by
        rw [heard.interfaces, srArpReqNotForUs_copies positive known]
      cases our : forUs topo (intfName, frame) with
      | true => exact readsTo_handed heard phase inTime our (by rw [asked, our]; rfl)
      | false =>
        have dropped : hear host s.client (.packet intfName frame) = .ok ⟨s.client, [], 1⟩ := by
          rw [hear, hearPacket, asked, our]
          rfl
        have after := heard'.packet inTime
        rw [our] at after
        rw [read_running phase dropped (by simp), if_pos rfl]
        refine ⟨[], [], .running, s.client, ?_, fun c mem => absurd mem List.not_mem_nil, after⟩
        rw [List.append_nil]
        rfl
    · have none_ : ms.countP VnsMessage.isHardwareInfo = 0 := by
        by_contra positive
        exact know (countP_pos_iff_any.1 (Nat.pos_of_ne_zero positive))
      have asked := @srArpReqNotForUs_zero topo frame intfName
      rw [← none_, ← heard.interfaces] at asked
      by_cases short : frame.length < 42
      · rw [if_pos short] at asked
        exact readsTo_handed heard phase ⟨heard'.running rfl, fun long => absurd short (by omega)⟩
          (forUs_of_short short intfName) asked
      · have refused : hearExpecting s.phase.expectedCmd host s.client (.packet intfName frame) =
            .error .assertion := by
          rw [phase, Phase.expectedCmd, hearExpecting_zero, hear, hearPacket, asked, if_neg short]
        rw [read_error refused]
        exact readsTo_stop heard (fun up => know ((noneEarly_snoc.1 up.1).2.2 (by omega))) rfl

theorem hear_authRequest {client : Client} {salt : List UInt8}
    (key : ∃ contents, host.authKey = some contents ∧ contents ≠ []) (sends : host.sends = true) :
    ∃ digest, hear host client (.authRequest salt) =
      .ok ⟨client, [.sent (.authReply client.user digest)], 1⟩ := by
  obtain ⟨contents, file, some_⟩ := key
  refine ⟨sha1 (salt ++ authKeyBytes contents host.stack), ?_⟩
  have serves : ¬ (contents = [] ∨ host.sends = false) := by
    rw [sends]
    simpa using some_
  rw [hear, hearAuthRequest, file]
  dsimp only
  rw [if_neg serves]

theorem readsTo_authRequest {salt : List UInt8}
    (key : ∃ contents, host.authKey = some contents ∧ contents ≠ []) (sends : host.sends = true)
    (heard : Heard topo table ms called s.phase s.client) (live : s.phase ≠ .ended)
    (awaited : s.phase ≠ .authStatus) :
    ReadsTo topo table ms called s (.authRequest salt) (s.read o host (.authRequest salt)) := by
  obtain ⟨digest, answer⟩ := @hear_authRequest host s.client salt key sends
  have expected : hearExpecting s.phase.expectedCmd host s.client (.authRequest salt) =
      .ok ⟨s.client, [.sent (.authReply s.client.user digest)], 1⟩ := by
    rw [hearExpecting, answer, if_pos]
    cases phase : s.phase with
    | authStatus => exact absurd phase awaited
    | rtable => exact absurd phase heard.noTemplate
    | authRequest => exact .inr (.inl rfl)
    | _ => exact .inl rfl
  cases phase : s.phase with
  | authStatus => exact absurd phase awaited
  | rtable => exact absurd phase heard.noTemplate
  | ended => exact absurd phase live
  | authRequest =>
    obtain rfl := heard.asked phase
    refine ⟨[.authReply s.client.user digest], [], .authStatus, s.client, ?_, ?_, ?_⟩
    · rw [Session.read, expected]
      simp [Session.applyAll, Session.apply, Session.send, Session.advance, answered, phase]
    · simp [Answers]
    · rw [List.append_nil]
      exact heard.snoc live rfl rfl Phase.noConfusion Phase.noConfusion (fun _ => ⟨salt, rfl⟩)
        Phase.noConfusion Phase.noConfusion
  | running =>
    refine ⟨[.authReply s.client.user digest], [], .running, s.client, ?_, ?_, ?_⟩
    · rw [Session.read, expected]
      simp [Session.applyAll, Session.apply, Session.send, Session.advance, answered, phase]
    · simp [Answers]
    · rw [List.append_nil]
      exact heard.snoc live rfl rfl Phase.noConfusion Phase.noConfusion Phase.noConfusion
        Phase.noConfusion fun _ => by rw [any_snoc, heard.running phase, Bool.true_or]

theorem readsTo_authStatus {msg : List UInt8} (noTemplate : o.template = []) (sends : host.sends = true)
    (heard : Heard topo table ms called s.phase s.client) (live : s.phase ≠ .ended)
    (awaited : s.phase ≠ .authRequest) :
    ReadsTo topo table ms called s (.authStatus true msg) (s.read o host (.authStatus true msg)) := by
  have expected : hearExpecting s.phase.expectedCmd host s.client (.authStatus true msg) =
      .ok ⟨s.client, [], 1⟩ := by
    rw [hearExpecting, if_pos, hear, if_pos rfl]
    cases phase : s.phase with
    | authRequest => exact absurd phase awaited
    | rtable => exact absurd phase heard.noTemplate
    | authStatus => exact .inr (.inl rfl)
    | _ => exact .inl rfl
  have behind : (ms ++ [VnsMessage.authStatus true msg]).any VnsMessage.isAuthStatus = true := by
    simp [VnsMessage.isAuthStatus]
  have after : Heard topo table (ms ++ [.authStatus true msg]) called .running s.client :=
    heard.snoc live rfl rfl Phase.noConfusion Phase.noConfusion Phase.noConfusion
      Phase.noConfusion fun _ => behind
  cases phase : s.phase with
  | authRequest => exact absurd phase awaited
  | rtable => exact absurd phase heard.noTemplate
  | ended => exact absurd phase live
  | authStatus =>
    refine ⟨[.openTopology o.topoId o.host s.client.user], [], .running, s.client, ?_, ?_, ?_⟩
    · rw [Session.read, expected]
      simp [Session.applyAll, Session.send, Session.advance, Session.opening, answered, phase,
        noTemplate, sends]
    · simp [Answers, phase]
    · rwa [List.append_nil]
  | running =>
    refine ⟨[], [], .running, s.client, ?_, by simp, ?_⟩
    · rw [Session.read, expected]
      simp [Session.applyAll, Session.advance, answered, phase]
    · rwa [List.append_nil]

theorem map_toSrIf_interface : (topo.map SwInfo.interface).map VnsInterface.toSrIf = ifListOf topo := by
  rw [List.map_map]
  rfl

theorem readsTo_hardwareInfo (heard : Heard topo table ms called s.phase s.client)
    (running : s.phase = .running) :
    ReadsTo topo table ms called s (.hardwareInfo (topo.map SwInfo.interface))
      (s.read o host (.hardwareInfo (topo.map SwInfo.interface))) := by
  rw [running] at heard
  have verified : srVerifyRoutingTable { s.client.sr with
        ifList := s.client.sr.ifList ++ (topo.map SwInfo.interface).map VnsInterface.toSrIf } = 0 ↔
      Consistent topo table := by
    rw [map_toSrIf_interface, heard.interfaces, ← copies_succ]
    dsimp only
    rw [heard.table]
    exact srVerifyRoutingTable_copies (Nat.succ_pos _) table _
  have told : hear host s.client (.hardwareInfo (topo.map SwInfo.interface)) = .ok
      ⟨{ s.client with sr := { s.client.sr with
          ifList := s.client.sr.ifList ++ (topo.map SwInfo.interface).map VnsInterface.toSrIf } }, [],
        retOf (srVerifyRoutingTable { s.client.sr with
          ifList := s.client.sr.ifList ++ (topo.map SwInfo.interface).map VnsInterface.toSrIf } = 0)⟩ :=
    rfl
  rw [read_running running told (by simp)]
  refine ⟨[], [], _, _, by rw [List.append_nil]; rfl, by simp, ?_⟩
  rw [List.append_nil]
  by_cases consistent : Consistent topo table
  · have goes := verified.2 consistent
    rw [retOf, goes]
    exact heard.hardwareInfo map_toSrIf_interface (.inl rfl)
      (iff_of_true Phase.noConfusion consistent)
  · have stops := mt verified.1 consistent
    rw [retOf, decide_eq_false stops]
    exact heard.hardwareInfo map_toSrIf_interface (.inr rfl)
      (iff_of_false (fun no => no rfl) consistent)

/-- Every message of the controller is read so. -/
theorem readsTo (noTemplate : o.template = [])
    (key : ∃ contents, host.authKey = some contents ∧ contents ≠ []) (sends : host.sends = true)
    (heard : Heard topo table ms called s.phase s.client) (live : s.phase ≠ .ended)
    (from_ : FromController topo m) (awaited : Awaited s.phase m) :
    ReadsTo topo table ms called s m (s.read o host m) := by
  cases m with
  | packet intfName frame => exact readsTo_packet heard live awaited from_.1
  | authRequest salt => exact readsTo_authRequest key sends heard live awaited
  | authStatus authOk msg =>
    obtain ⟨rfl, -⟩ := from_
    exact readsTo_authStatus noTemplate sends heard live awaited
  | hardwareInfo interfaces =>
    obtain rfl : interfaces = topo.map SwInfo.interface := from_
    exact readsTo_hardwareInfo heard (awaited.resolve_right live)
  | _ => cases from_

end Reading

end ComputerNetwork.Router
