import ComputerNetwork.Router.Checksum

/-!
# The frames handed to `sr_send_packet`

`sr_send_packet` refuses a frame whose Ethernet source is not the address of the interface it is to
leave from.  ARP requests and replies, generated ICMP messages and forwarded packets carry the
address of the interface they are sent from (`Does.fits`).  Echo replies carry the destination of the
echo request instead, so `sourcesMatch_iff` holds of them only when the request was sent to the
address of the interface it came in on.
-/

namespace ComputerNetwork.Router

open Lib

/-! ## The property -/

/-- `sr_ether_addrs_match_interface`, for a frame with an Ethernet header. -/
def MatchesInterface (ifs : List SrIf) (name : Name) (frame : List UInt8) : Prop :=
  sizeofEthernet ≤ frame.length ∧
    ∃ i, srGetInterface ifs name = some i ∧ (frame.drop 6).take 6 = i.addr.bytes

/-- A frame that was handed to `sr_send_packet` has the right source and was not refused. -/
def Fits (ifs : List SrIf) : Event → Prop
  | .transmit name frame => MatchesInterface ifs name frame
  | .refused _ _ => False
  | _ => True

/-- `sr_handlepacket` hands no frame to `sr_send_packet` that it refuses. -/
def SourcesMatch (sr : SrInstance) (packet : List UInt8) (interface : Name) (env : Env)
    (fuel : ℕ) : Prop :=
  ∀ c', srHandlepacket env fuel (.start sr) packet interface = .ok c' →
    ∀ e ∈ c'.log, Fits sr.ifList e

/-- `sr_verify_routing_table`. -/
def srVerifyRoutingTable (sr : SrInstance) : ℕ :=
  if sr.ifList = [] ∨ sr.routingTable = [] then 999
  else (sr.routingTable.filter fun rt => !sr.ifList.any fun i => i.name = rt.interface).length

/-! ## Sources -/

section Sources

variable {f : List UInt8} {n : ℕ} {shost : List UInt8}

theorem shost_splice (i : ℕ) (new : List UInt8) (h : n ≤ f.length ∧ (f.drop 6).take 6 = shost)
    (fits : i + new.length ≤ n) (beside : i + new.length ≤ 6 ∨ 12 ≤ i) :
    n ≤ (splice f i new).length ∧ ((splice f i new).drop 6).take 6 = shost := by
  refine ⟨le_length_splice _ _ h.1 fits, ?_⟩
  cases beside with
  | inl before =>
    rw [drop_splice before (by omega)]
    exact h.2
  | inr behind =>
    rw [List.take_drop] at h ⊢
    rw [take_splice behind (by omega)]
    exact h.2

theorem shost_splice_six (m : Mac) (long : n ≤ f.length) (header : 12 ≤ n) :
    n ≤ (splice f 6 m.bytes).length ∧ ((splice f 6 m.bytes).drop 6).take 6 = m.bytes := by
  refine ⟨le_length_splice _ _ long (by rw [m.size]; omega), ?_⟩
  have written : ((splice f 6 m.bytes).drop 6).take m.bytes.length = m.bytes :=
    take_drop_splice (by omega)
  rwa [m.size] at written

end Sources

theorem shost_arpRequest (i : SrIf) (ip : UInt32) :
    sizeofEthernet ≤ (arpRequest i ip).length ∧
      ((arpRequest i ip).drop 6).take 6 = i.addr.bytes := by
  obtain ⟨m1, m2, m3, m4, m5, m6, mac⟩ := i.addr.exists_bytes
  rw [arpRequest, mac]
  exact ⟨by simp [sizeofEthernet], rfl⟩

theorem shost_arpReply {packet : List UInt8} (i : SrIf) (long : 42 ≤ packet.length) :
    42 ≤ (arpReply packet i).length ∧ ((arpReply packet i).drop 6).take 6 = i.addr.bytes := by
  have mac := i.addr.size
  have sender := (Mac.copy packet 22).size
  have source := shost_splice_six i.addr long (by omega)
  have dhost := shost_splice 0 (Mac.copy packet 22).bytes source (by omega) (by omega)
  have sha := shost_splice 22 i.addr.bytes dhost (by omega) (by omega)
  have tha := shost_splice 32 (Mac.copy packet 22).bytes sha (by omega) (by omega)
  have sip := shost_splice 28 (bytesLE32 (arTip packet)) tha (by simp) (by simp)
  have tip := shost_splice 38 (bytesLE32 (arSip packet)) sip (by simp) (by simp)
  exact shost_splice 20 (bytesBE16 arpOpReply) tip (by simp) (by simp)

theorem shost_forwarded {packet : List UInt8} (i : SrIf) (dhost : Mac) (ttl : UInt8)
    (long : 34 ≤ packet.length) :
    34 ≤ (splice (splice (setIpSum (splice packet 22 [ttl])) 6 i.addr.bytes) 0
        dhost.bytes).length ∧
      ((splice (splice (setIpSum (splice packet 22 [ttl])) 6 i.addr.bytes) 0
        dhost.bytes).drop 6).take 6 = i.addr.bytes := by
  have aged : 34 ≤ (splice packet 22 [ttl]).length := le_length_splice _ _ long (by simp)
  exact shost_splice _ _ (shost_splice_six i.addr (le_length_setIpSum aged (by omega)) (by omega))
    (by rw [dhost.size]; omega) (Or.inl (by rw [dhost.size]))

theorem length_icmpFrame (dhost shost : Mac) (src dst : UInt32) (type code : UInt8)
    (unused data : List UInt8) :
    sizeofEthernet ≤ (icmpFrame dhost shost src dst type code unused data).length := by
  simp only [icmpFrame, List.length_append, dhost.size, shost.size, length_bytesBE16, sizeofEthernet]
  omega

theorem shost_echoFrame {packet : List UInt8} (ip : UInt32) (long : 70 ≤ packet.length) :
    70 ≤ (echoFrame packet ip).length ∧
      ((echoFrame packet ip).drop 6).take 6 = (Mac.copy packet 0).bytes := by
  have src := le_length_echoFrame_addressed ip long (by omega)
  have checked := le_length_setIpSum src (by omega)
  have addressed := le_length_splice 0 (Mac.copy packet 6).bytes checked
    (by rw [(Mac.copy packet 6).size]; omega)
  exact shost_splice_six _ addressed (by omega)

/-! ## Handlers -/

theorem srGetInterface_own {ifs : List SrIf} {i : SrIf} (distinct : (ifs.map SrIf.name).Nodup)
    (own : i ∈ ifs) : srGetInterface ifs i.name = some i := by
  obtain ⟨pre, rest, rfl⟩ := List.append_of_mem own
  rw [List.map_append, List.map_cons, List.nodup_append] at distinct
  have before : ∀ j ∈ pre, j.name ≠ i.name := fun j mem =>
    distinct.2.2 _ (List.mem_map_of_mem mem) _ (List.mem_cons_self ..)
  rw [srGetInterface, List.find?_append, List.find?_eq_none.2 (by simpa using before)]
  simp

theorem sendEvent_of_matches {ifs : List SrIf} {name : Name} {frame : List UInt8}
    (fits : MatchesInterface ifs name frame) : sendEvent ifs frame name = .transmit name frame := by
  obtain ⟨long, i, named, same⟩ := fits
  refine if_pos ⟨long, ?_⟩
  rw [named, Option.any_some, decide_eq_true_eq]
  exact same

theorem fits_send {ifs : List SrIf} {i : SrIf} {frame : List UInt8}
    (distinct : (ifs.map SrIf.name).Nodup) (own : i ∈ ifs)
    (shost : sizeofEthernet ≤ frame.length ∧ (frame.drop 6).take 6 = i.addr.bytes) :
    Fits ifs (sendEvent ifs frame i.name) := by
  have fits : MatchesInterface ifs i.name frame :=
    ⟨shost.1, i, srGetInterface_own distinct own, shost.2⟩
  rw [sendEvent_of_matches fits]
  exact fits

/-- Between the two calls the interfaces stayed, and every frame handed over fits. -/
def AllFit (c c' : Call) : Prop :=
  c'.sr.ifList = c.sr.ifList ∧ ∃ new, c'.log = c.log ++ new ∧ ∀ e ∈ new, Fits c.sr.ifList e

theorem AllFit.refl (c : Call) : AllFit c c := ⟨rfl, [], by simp, by simp⟩

theorem AllFit.trans {c c' c'' : Call} (h : AllFit c c') (h' : AllFit c' c'') : AllFit c c'' := by
  obtain ⟨ifs, new, eq, fits⟩ := h
  obtain ⟨ifs', new', eq', fits'⟩ := h'
  refine ⟨ifs'.trans ifs, new ++ new', by rw [eq', eq, List.append_assoc], fun e mem => ?_⟩
  cases List.mem_append.1 mem with
  | inl mem => exact fits e mem
  | inr mem => exact ifs ▸ fits' e mem

theorem AllFit.emit {c c' : Call} (h : AllFit c c') {e : Event} (fits : Fits c.sr.ifList e) :
    AllFit c (c'.emit e) := by
  obtain ⟨ifs, new, eq, all⟩ := h
  refine ⟨ifs, new ++ [e], by simp [Call.emit, eq], fun e' mem => ?_⟩
  cases List.mem_append.1 mem with
  | inl mem => exact all e' mem
  | inr mem =>
    rw [List.mem_singleton.1 mem]
    exact fits

theorem AllFit.setCache {c c' : Call} (h : AllFit c c') (cache : SrArpcache) :
    AllFit c (c'.setCache cache) := h

section Calls

variable {env : Env} {c c' : Call}

theorem send_fits {i : SrIf} {frame : List UInt8} (distinct : (c.sr.ifList.map SrIf.name).Nodup)
    (own : i ∈ c.sr.ifList)
    (shost : sizeofEthernet ≤ frame.length ∧ (frame.drop 6).take 6 = i.addr.bytes) :
    AllFit c (srSendPacket c frame i.name) := by
  rw [srSendPacket_eq]
  exact (AllFit.refl c).emit (fits_send distinct own shost)

theorem askAgain_fits (distinct : (c.sr.ifList.map SrIf.name).Nodup) (addr : ℕ) (ip : UInt32) :
    AllFit c (askAgain env c addr ip) := by
  have asked : AllFit c (srSendArpRequest { c with timeReads := c.timeReads + 2 } ip) := by
    rw [srSendArpRequest_eq]
    refine ⟨rfl, _, rfl, fun e mem => ?_⟩
    obtain ⟨i, own, rfl⟩ := List.mem_map.1 mem
    exact fits_send distinct own (shost_arpRequest i ip)
  exact (asked.emit (e := .asked addr (env.time c.timeReads)) trivial).setCache _

/-- Whatever `handle_arpreq` and its callers hand to `sr_send_packet` fits. -/
theorem Does.fits (does : Does env c c') (distinct : (c.sr.ifList.map SrIf.name).Nodup) :
    AllFit c c' := by
  induction does with
  | refl c => exact .refl c
  | trans _ _ ih ih' =>
    have first := ih distinct
    exact first.trans (ih' (first.1 ▸ distinct))
  | malloc | queue | early => exact ⟨rfl, [], by simp [Call.setCache], by simp⟩
  | @icmp c i own dhost dst type code unused data =>
    exact send_fits distinct own ⟨length_icmpFrame .., shost_icmpFrame ..⟩
  | @forward c i own dhost packet ttl long =>
    obtain ⟨long', shost⟩ := shost_forwarded i dhost ttl long
    exact send_fits distinct own ⟨(by decide : sizeofEthernet ≤ 34).trans long', shost⟩
  | ask => exact askAgain_fits distinct _ _
  | @giveUp c c₁ addr req last _ _ _ _ _ ih =>
    have told := (ih distinct).setCache (srArpreqDestroy c₁.sr.cache addr)
    exact (told.emit (e := .gaveUp addr _) trivial).emit (e := .left last) trivial

theorem learn_fits (mac : Mac) (ip : UInt32) : AllFit c (learn env c mac ip) := by
  have learned : ∀ now, AllFit c (((({ c with timeReads := c.timeReads + 1 } : Call)).setCache
      (srArpcacheInsert c.sr.cache mac ip now).1).emit (.learned ip mac)) := by
    intro now
    have stored : AllFit c ((({ c with timeReads := c.timeReads + 1 } : Call)).setCache
        (srArpcacheInsert c.sr.cache mac ip now).1) :=
      ⟨rfl, [], by simp [Call.setCache], by simp⟩
    exact stored.emit trivial
  unfold learn
  dsimp only [Call.time]
  split
  · exact (learned _).emit trivial
  · exact learned _

theorem srHandlepacket_echo {fuel : ℕ} {packet : List UInt8} {interface : Name} {i : SrIf}
    (echo : EchoRequest c.sr packet) (named : srGetInterface c.sr.ifList interface = some i) :
    srHandlepacket env fuel c packet interface =
      .ok (srSendPacket c (echoFrame packet i.ip) interface) := by
  obtain ⟨long, ip, checked, own, proto, type, code⟩ := echo
  obtain ⟨j, mine⟩ := Option.isSome_iff_exists.1 own
  have other : etherType packet ≠ ethertypeArp := by
    rw [ip]
    decide
  rw [srHandlepacket, if_neg (Nat.not_lt.2 long), if_neg other, if_pos ip, if_pos checked]
  unfold srHandleIpPacket ipForwarding
  simp [mine, proto, type, code, named]

end Calls

theorem length_of_echoRequest {sr : SrInstance} {packet : List UInt8}
    (echo : EchoRequest sr packet) : 70 ≤ packet.length := by
  obtain ⟨-, -, checked, -, proto, -⟩ := echo
  simp only [ipChecks, proto, bne_self_eq_false, Bool.false_or, Bool.and_eq_true,
    decide_eq_true_eq] at checked
  exact checked.2.1

/-- The reply to an echo request that was sent to the interface it came in on. -/
theorem echo_fits {c : Call} {packet : List UInt8} {interface : Name} {i : SrIf}
    (echo : EchoRequest c.sr packet) (named : srGetInterface c.sr.ifList interface = some i)
    (addressed : Mac.copy packet 0 = i.addr) :
    AllFit c (srSendPacket c (echoFrame packet i.ip) interface) := by
  obtain ⟨long, shost⟩ := shost_echoFrame i.ip (length_of_echoRequest echo)
  have fits : MatchesInterface c.sr.ifList interface (echoFrame packet i.ip) :=
    ⟨(by decide : sizeofEthernet ≤ 70).trans long, i, named, addressed ▸ shost⟩
  rw [srSendPacket_eq, sendEvent_of_matches fits]
  exact (AllFit.refl c).emit fits

theorem reply_fits {c : Call} {env : Env} {packet : List UInt8} {mac : Mac} {ip : UInt32} {i : SrIf}
    (distinct : (c.sr.ifList.map SrIf.name).Nodup) (own : i ∈ c.sr.ifList)
    (long : 42 ≤ packet.length) :
    AllFit c (srSendPacket (learn env c mac ip) (arpReply packet i) i.name) := by
  have learned : AllFit c (learn env c mac ip) := learn_fits ..
  obtain ⟨long', shost⟩ := shost_arpReply i long
  have sent : AllFit (learn env c mac ip)
      (srSendPacket (learn env c mac ip) (arpReply packet i) i.name) := by
    apply send_fits
    · rw [learned.1]
      exact distinct
    · rw [learned.1]
      exact own
    · exact ⟨(by decide : sizeofEthernet ≤ 42).trans long', shost⟩
  exact learned.trans sent

theorem matches_of_sent {sr : SrInstance} {packet frame : List UInt8} {interface name : Name}
    {env : Env} {fuel : ℕ} (fits : SourcesMatch sr packet interface env fuel)
    (run : srHandlepacket env fuel (.start sr) packet interface =
      .ok (srSendPacket (.start sr) frame name)) : MatchesInterface sr.ifList name frame := by
  rw [srSendPacket_eq] at run
  have sent := fits _ run _ (List.mem_append_right _ (List.mem_singleton_self _))
  unfold sendEvent at sent
  split_ifs at sent
  · exact sent
  · cases sent

/-- A frame is handled without a refusal unless it is an echo request for the router that was sent to
another hardware address than that of the interface it came in on. -/
theorem sourcesMatch_iff {sr : SrInstance} (distinct : (sr.ifList.map SrIf.name).Nodup)
    (packet : List UInt8) (interface : Name) (env : Env) (fuel : ℕ) :
    SourcesMatch sr packet interface env fuel ↔
      (EchoRequest sr packet → ∀ i, srGetInterface sr.ifList interface = some i →
        Mac.copy packet 0 = i.addr) := by
  constructor
  · intro fits echo i named
    obtain ⟨-, j, named', same⟩ := matches_of_sent fits (srHandlepacket_echo echo named)
    obtain rfl : i = j := Option.some.inj (named.symm.trans named')
    rw [(shost_echoFrame i.ip (length_of_echoRequest echo)).2] at same
    exact Mac.ext same
  · intro addressed c' run e mem
    have all : AllFit (.start sr) c' := by
      rcases srHandlepacket_cases run with ⟨echo, i, named, eq⟩ | ⟨-, long, i, own, eq⟩ | eq | does
      · rw [eq]
        exact echo_fits echo named (addressed echo i named)
      · rw [eq]
        exact reply_fits distinct own long
      · rw [eq]
        exact learn_fits ..
      · exact does.fits distinct
    obtain ⟨-, new, eq, fits⟩ := all
    rw [eq] at mem
    exact fits e (by simpa [Call.start] using mem)

/-- An echo request from 192.168.0.2 to the first interface's address, sent to the hardware address
`dhost`. -/
def echoRequest (dhost : Mac) : List UInt8 :=
  dhost.bytes ++ [2, 0, 0, 0, 0, 9, 8, 0] ++
    [0x45, 0, 0, 56, 0xb0, 0x1a, 0, 0, 64, 1, 0xff, 0xff, 192, 168, 0, 2, 10, 0, 0, 1] ++
    [8, 0, 0xff, 0xff, 0xf7, 0xff] ++ List.replicate 30 0

/-- An echo request to the address of its interface is answered. -/
theorem sourcesMatch_iff_unicast :
    (twoInterfaces.ifList.map SrIf.name).Nodup ∧
      EchoRequest twoInterfaces (echoRequest ⟨[2, 0, 0, 0, 0, 1], rfl⟩) ∧
      SourcesMatch twoInterfaces (echoRequest ⟨[2, 0, 0, 0, 0, 1], rfl⟩) [101, 48] (envAt 5) 2 := by
  have distinct : (twoInterfaces.ifList.map SrIf.name).Nodup := by decide
  refine ⟨distinct, by decide +kernel, (sourcesMatch_iff distinct _ _ _ _).2 fun _ i named => ?_⟩
  obtain rfl := Option.some.inj named
  decide

/-- An echo request to the broadcast address is not: the reply comes from the broadcast address. -/
theorem not_sourcesMatch_broadcast :
    ¬ ∀ (sr : SrInstance) (packet : List UInt8) (interface : Name) (env : Env) (fuel : ℕ),
      (sr.ifList.map SrIf.name).Nodup → srVerifyRoutingTable sr = 0 →
        SourcesMatch sr packet interface env fuel := by
  intro all
  have fits := all twoInterfaces (echoRequest ⟨[0xff, 0xff, 0xff, 0xff, 0xff, 0xff], rfl⟩) [101, 48]
    (envAt 5) 2 (by decide) (by decide)
  have sent : (srHandlepacket (envAt 5) 2 (.start twoInterfaces)
      (echoRequest ⟨[0xff, 0xff, 0xff, 0xff, 0xff, 0xff], rfl⟩) [101, 48]).toOption.any
      (fun c => c.log.any fun e => e matches .refused _ _) = true := by decide +kernel
  rcases run : srHandlepacket (envAt 5) 2 (.start twoInterfaces)
      (echoRequest ⟨[0xff, 0xff, 0xff, 0xff, 0xff, 0xff], rfl⟩) [101, 48] with fault | c'
  · rw [run] at sent
    cases sent
  · rw [run] at sent
    obtain ⟨e, mem, kind⟩ := List.any_eq_true.1 sent
    have none := fits c' run e mem
    cases e <;> simp_all [Fits]

end ComputerNetwork.Router
