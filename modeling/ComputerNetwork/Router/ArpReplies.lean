import ComputerNetwork.Router.Buffers

/-!
# Answers to ARP packets

`sr_handle_arp_packet` writes its reply over the request.  The reply is the request with the two
sides exchanged and the asked hardware address filled in (`ArpReplyTo`), and it leaves by the
interface that was asked for, since the lookups by IP, by name and the check of `sr_send_packet` meet
in one interface (`srHandleArpPacket_spec`).
-/

namespace ComputerNetwork.Router

open Lib

/-! ## What is answered -/

/-- The frames handed to `sr_send_packet`, in order: whether it put the frame on the wire, the
interface and the frame. -/
def emitted (log : List Event) : List (Bool × Name × List UInt8) :=
  log.filterMap fun
    | .transmit iface frame => some (true, iface, frame)
    | .refused iface frame => some (false, iface, frame)
    | _ => none

/-- An interface has the address that the packet asks for. -/
def AsksUs (ifList : List SrIf) (packet : List UInt8) : Prop := ∃ i ∈ ifList, i.ip = arTip packet

/-- The request with `ar_op` set to reply, the requester's ARP sender fields as target and Ethernet
destination, the interface's addresses as sender and Ethernet source, and nothing else changed. -/
structure ArpReplyTo (request : List UInt8) (i : SrIf) (reply : List UInt8) : Prop where
  length : reply.length = request.length
  op : arOp reply = arpOpReply
  sha : Mac.copy reply 22 = i.addr
  sip : arSip reply = arTip request
  tha : Mac.copy reply 32 = Mac.copy request 22
  tip : arTip reply = arSip request
  dhost : Mac.copy reply 0 = Mac.copy request 22
  shost : Mac.copy reply 6 = i.addr
  others : ∀ j, 12 ≤ j → j < 20 ∨ 42 ≤ j → load8 reply j = load8 request j

/-! ## Fields of a laid out buffer -/

section Fields

variable {b new : List UInt8} {i n : ℕ}

theorem load8_of_slice {b' : List UInt8} (same : (b.drop i).take n = (b'.drop i).take n) {j : ℕ}
    (above : i ≤ j) (below : j < i + n) : load8 b j = load8 b' j := by
  obtain ⟨k, rfl⟩ := Nat.exists_eq_add_of_le above
  have byte := congrArg (load8 · k) same
  simpa only [load8_take _ (show k < n by omega), load8_drop] using byte

theorem copy_of_slice {m : Mac} (slice : (b.drop i).take 6 = m.bytes) : Mac.copy b i = m := by
  apply Mac.ext
  rw [← slice]
  have inside : i + 6 ≤ b.length := by
    have size := m.size
    rw [← slice, List.length_take, List.length_drop] at size
    omega
  exact map_load8_range inside

theorem loadLE32_slice (b : List UInt8) (i : ℕ) : loadLE32 b i = loadLE32 ((b.drop i).take 4) 0 := by
  have bytes : ∀ k < 4, load8 ((b.drop i).take 4) (0 + k) = load8 b (i + k) := fun k small => by
    rw [Nat.zero_add, load8_take _ small, load8_drop]
  have first : load8 ((b.drop i).take 4) 0 = load8 b i := bytes 0 (by omega)
  unfold loadLE32
  rw [first, bytes 1 (by omega), bytes 2 (by omega), bytes 3 (by omega)]

theorem loadLE32_of_slice {x : UInt32} (slice : (b.drop i).take 4 = bytesLE32 x) :
    loadLE32 b i = x := by
  have value := loadLE32_bytesLE32 x []
  rw [List.append_nil] at value
  rw [loadLE32_slice, slice, value]

theorem loadBE16_slice (b : List UInt8) (i : ℕ) : loadBE16 b i = loadBE16 ((b.drop i).take 2) 0 := by
  have bytes : ∀ k < 2, load8 ((b.drop i).take 2) (0 + k) = load8 b (i + k) := fun k small => by
    rw [Nat.zero_add, load8_take _ small, load8_drop]
  have first : load8 ((b.drop i).take 2) 0 = load8 b i := bytes 0 (by omega)
  unfold loadBE16
  rw [first, bytes 1 (by omega)]

theorem loadBE16_of_slice {x : UInt16} (slice : (b.drop i).take 2 = bytesBE16 x) :
    loadBE16 b i = x := by
  have value := loadBE16_bytesBE16 x []
  rw [List.append_nil] at value
  rw [loadBE16_slice, slice, value]

end Fields

/-! ## The reply -/

/-- An ARP packet and what is behind it in its frame. -/
def arpFrameLayout (rest : ℕ) : List ℕ := arpLayout ++ [rest]

theorem sum_arpFrameLayout (rest : ℕ) : (arpFrameLayout rest).sum = 42 + rest := by
  rw [arpFrameLayout, List.sum_append, List.sum_singleton]
  rfl

theorem laid_arpPacket {packet : List UInt8} {rest : ℕ} (length : packet.length = 42 + rest) :
    Laid (arpFrameLayout rest)
      [packet.take 6, (packet.drop 6).take 6, (packet.drop 12).take 2, (packet.drop 14).take 2,
        (packet.drop 16).take 2, (packet.drop 18).take 1, (packet.drop 19).take 1,
        (packet.drop 20).take 2, (packet.drop 22).take 6, (packet.drop 28).take 4,
        (packet.drop 32).take 6, (packet.drop 38).take 4, (packet.drop 42).take rest] packet := by
  have start : Laid (arpFrameLayout rest) (cut (arpFrameLayout rest) packet) packet :=
    laid_cut (length.trans (sum_arpFrameLayout rest).symm)
  simpa only [arpFrameLayout, arpLayout, List.cons_append, List.nil_append, cut, List.drop_drop]
    using start

theorem laid_arpReply {packet : List UInt8} {rest : ℕ} (i : SrIf)
    (length : packet.length = 42 + rest) :
    Laid (arpFrameLayout rest)
      [(Mac.copy packet 22).bytes, i.addr.bytes, (packet.drop 12).take 2, (packet.drop 14).take 2,
        (packet.drop 16).take 2, (packet.drop 18).take 1, (packet.drop 19).take 1,
        bytesBE16 arpOpReply, i.addr.bytes, bytesLE32 (arTip packet), (Mac.copy packet 22).bytes,
        bytesLE32 (arSip packet), (packet.drop 42).take rest] (arpReply packet i) := by
  have mac : some 6 = some i.addr.bytes.length := by rw [i.addr.size]
  have sender : some 6 = some (Mac.copy packet 22).bytes.length := by rw [(Mac.copy packet 22).size]
  exact (laid_arpPacket length).store 1 i.addr.bytes rfl mac
    |>.store 0 (Mac.copy packet 22).bytes rfl sender
    |>.store 8 i.addr.bytes rfl mac
    |>.store 10 (Mac.copy packet 22).bytes rfl sender
    |>.store 9 (bytesLE32 (arTip packet)) rfl rfl
    |>.store 11 (bytesLE32 (arSip packet)) rfl rfl
    |>.store 7 (bytesBE16 arpOpReply) rfl rfl

theorem arpReply_spec {packet : List UInt8} (i : SrIf) (long : 42 ≤ packet.length) :
    ArpReplyTo packet i (arpReply packet i) := by
  obtain ⟨rest, length⟩ := Nat.exists_eq_add_of_le long
  have start := laid_arpPacket length
  have laid := laid_arpReply i length
  have size : (arpReply packet i).length = packet.length := laid.length.trans start.length.symm
  constructor
  case length => exact size
  case op => exact loadBE16_of_slice (laid.field 7 rfl rfl rfl)
  case sha => exact copy_of_slice (laid.field 8 rfl rfl i.addr.size)
  case sip => exact loadLE32_of_slice (laid.field 9 rfl rfl rfl)
  case tha => exact copy_of_slice (laid.field 10 rfl rfl rfl)
  case tip => exact loadLE32_of_slice (laid.field 11 rfl rfl rfl)
  case dhost => exact copy_of_slice (laid.field 0 rfl rfl rfl)
  case shost => exact copy_of_slice (laid.field 1 rfl rfl i.addr.size)
  case others =>
    intro j behind beside
    cases beside with
    | inl before => exact load8_of_slice (laid.same start 2 5 rfl rfl rfl) behind before
    | inr after =>
      by_cases inside : j < 42 + rest
      · have last : ((arpFrameLayout rest).drop 12).take 1 = [rest] := rfl
        exact load8_of_slice
          (laid.same start 12 1 rfl (by rw [last, List.sum_singleton]) rfl) after inside
      · simp only [load8, List.getD_eq_getElem?_getD,
          List.getElem?_eq_none (show packet.length ≤ j by omega),
          List.getElem?_eq_none (show (arpReply packet i).length ≤ j by omega)]

/-! ## The handler -/

theorem emitted_append (log new : List Event) : emitted (log ++ new) = emitted log ++ emitted new :=
  List.filterMap_append ..

theorem emitted_learn (env : Env) (c : Call) (mac : Mac) (ip : UInt32) :
    (learn env c mac ip).sr.ifList = c.sr.ifList ∧
      ∃ new, (learn env c mac ip).log = c.log ++ new ∧ emitted new = [] := by
  unfold learn
  dsimp only [Call.time]
  split
  · rename_i req _
    exact ⟨rfl, [.learned ip mac, .left req], by simp [Call.emit, Call.setCache], rfl⟩
  · exact ⟨rfl, [.learned ip mac], by simp [Call.emit, Call.setCache], rfl⟩

theorem getInterfaceFromIp_own {ifs : List SrIf} {i : SrIf} (distinct : (ifs.map SrIf.ip).Nodup)
    (own : i ∈ ifs) : getInterfaceFromIp ifs i.ip = some i := by
  obtain ⟨pre, rest, rfl⟩ := List.append_of_mem own
  rw [List.map_append, List.map_cons, List.nodup_append] at distinct
  have before : ∀ j ∈ pre, i.ip ≠ j.ip := fun j mem =>
    (distinct.2.2 _ (List.mem_map_of_mem mem) _ (List.mem_cons_self ..)).symm
  rw [getInterfaceFromIp, List.find?_append, List.find?_eq_none.2 (by simpa using before)]
  simp

theorem asksUs_iff {ifs : List SrIf} {packet : List UInt8} :
    AsksUs ifs packet ↔ getInterfaceFromIp ifs (arTip packet) ≠ none := by
  rw [getInterfaceFromIp, Ne, List.find?_eq_none]
  simp only [decide_eq_true_eq, not_forall, not_not, AsksUs]
  constructor
  · rintro ⟨i, own, same⟩
    exact ⟨i, own, same.symm⟩
  · rintro ⟨i, own, same⟩
    exact ⟨i, own, same.symm⟩

section Handler

variable (env : Env) {c : Call} {packet : List UInt8} {i : SrIf}

theorem srHandleArpPacket_request (long : 42 ≤ packet.length)
    (own : getInterfaceFromIp c.sr.ifList (arTip packet) = some i)
    (request : arOp packet = arpOpRequest) :
    srHandleArpPacket env c packet =
      .ok (srSendPacket (learn env c (Mac.copy packet 22) (arSip packet)) (arpReply packet i)
        i.name) := by
  have enough : ¬ packet.length < 42 := Nat.not_lt.2 long
  unfold srHandleArpPacket
  simp only [if_neg enough, own, if_pos request]

theorem srHandleArpPacket_other (long : 42 ≤ packet.length)
    (other : ¬ (arOp packet = arpOpRequest ∧ AsksUs c.sr.ifList packet)) :
    srHandleArpPacket env c packet = .ok c ∨
      srHandleArpPacket env c packet = .ok (learn env c (Mac.copy packet 22) (arSip packet)) ∧
        arOp packet = arpOpReply ∧ AsksUs c.sr.ifList packet := by
  have enough : ¬ packet.length < 42 := Nat.not_lt.2 long
  rw [asksUs_iff] at other ⊢
  unfold srHandleArpPacket
  rw [if_neg enough]
  cases own : getInterfaceFromIp c.sr.ifList (arTip packet) with
  | none => exact Or.inl rfl
  | some i =>
      have noRequest : arOp packet ≠ arpOpRequest := fun request => other ⟨request, by simp [own]⟩
      dsimp only
      rw [if_neg noRequest]
      split_ifs with reply
      · exact Or.inr ⟨rfl, reply, by simp⟩
      · exact Or.inl rfl

/-- The reply goes on the wire at the interface that was asked for. -/
theorem emitted_reply (names : (c.sr.ifList.map SrIf.name).Nodup) (own : i ∈ c.sr.ifList)
    (long : 42 ≤ packet.length) (mac : Mac) (ip : UInt32) :
    ∃ new, (srSendPacket (learn env c mac ip) (arpReply packet i) i.name).log = c.log ++ new ∧
      emitted new = [(true, i.name, arpReply packet i)] := by
  obtain ⟨ifs, new, log, silent⟩ := emitted_learn env c mac ip
  obtain ⟨long', shost⟩ := shost_arpReply i long
  have named : srGetInterface (learn env c mac ip).sr.ifList i.name = some i := by
    rw [ifs]
    exact srGetInterface_own names own
  have header : sizeofEthernet ≤ (arpReply packet i).length :=
    (by decide : sizeofEthernet ≤ 42).trans long'
  rw [srSendPacket_transmit named ⟨header, shost⟩]
  refine ⟨new ++ [.transmit i.name (arpReply packet i)], ?_, ?_⟩
  · rw [Call.emit, log, List.append_assoc]
  · rw [emitted_append, silent]
    rfl

/-- A frame is emitted exactly for a request for an address of the router.  It is the only one, the
reply to the request, and goes on the wire at the interface that was asked for.  The cache changes
only for requests and replies to the router. -/
theorem srHandleArpPacket_spec (names : (c.sr.ifList.map SrIf.name).Nodup)
    (ips : (c.sr.ifList.map SrIf.ip).Nodup) (long : 42 ≤ packet.length) :
    ∃ c' new, srHandleArpPacket env c packet = .ok c' ∧ c'.log = c.log ++ new ∧
      (emitted new ≠ [] ↔ arOp packet = arpOpRequest ∧ AsksUs c.sr.ifList packet) ∧
      (∀ i ∈ c.sr.ifList, i.ip = arTip packet → emitted new ≠ [] →
        ∃ reply, emitted new = [(true, i.name, reply)] ∧ ArpReplyTo packet i reply) ∧
      (c'.sr.cache ≠ c.sr.cache →
        (arOp packet = arpOpRequest ∨ arOp packet = arpOpReply) ∧ AsksUs c.sr.ifList packet) := by
  by_cases asked : arOp packet = arpOpRequest ∧ AsksUs c.sr.ifList packet
  · obtain ⟨request, i, own, ip⟩ := asked
    have found : getInterfaceFromIp c.sr.ifList (arTip packet) = some i :=
      ip ▸ getInterfaceFromIp_own ips own
    obtain ⟨new, log, sent⟩ :=
      emitted_reply env names own long (Mac.copy packet 22) (arSip packet)
    refine ⟨_, new, srHandleArpPacket_request env long found request, log, ?_, ?_, ?_⟩
    · simp [sent, request, show AsksUs c.sr.ifList packet from ⟨i, own, ip⟩]
    · intro j mine ip' _
      have same : i = j := List.inj_on_of_nodup_map ips own mine (ip.trans ip'.symm)
      rw [← same]
      exact ⟨_, sent, arpReply_spec i long⟩
    · exact fun _ => ⟨Or.inl request, i, own, ip⟩
  · have silence : ∀ new, emitted new = [] →
        (emitted new ≠ [] ↔ arOp packet = arpOpRequest ∧ AsksUs c.sr.ifList packet) :=
      fun new silent => by simp [silent, asked]
    cases srHandleArpPacket_other env long asked with
    | inl same =>
      refine ⟨c, [], same, by simp, silence [] rfl, ?_, fun change => absurd rfl change⟩
      exact fun _ _ _ some => absurd rfl some
    | inr learned =>
      obtain ⟨run, reply, mine⟩ := learned
      obtain ⟨-, new, log, silent⟩ := emitted_learn env c (Mac.copy packet 22) (arSip packet)
      refine ⟨_, new, run, log, silence new silent, ?_, fun _ => ⟨Or.inr reply, mine⟩⟩
      exact fun _ _ _ some => absurd silent some

end Handler

/-- 192.168.0.2 asks for the first interface's address. -/
theorem srHandleArpPacket_spec_first : ∃ c' new reply,
    srHandleArpPacket (envAt 5) (.start twoInterfaces)
      (arpRequest ⟨[], ⟨[2, 0, 0, 0, 0, 9], rfl⟩, 0x0200a8c0⟩ 0x0100000a) = .ok c' ∧
    c'.log = new ∧ emitted new = [(true, [101, 48], reply)] := by
  have names : (twoInterfaces.ifList.map SrIf.name).Nodup := by decide
  have ips : (twoInterfaces.ifList.map SrIf.ip).Nodup := by decide
  have long : 42 ≤ (arpRequest ⟨[], ⟨[2, 0, 0, 0, 0, 9], rfl⟩, 0x0200a8c0⟩ 0x0100000a).length := by
    decide
  obtain ⟨c', new, run, log, asked, answer, -⟩ :=
    srHandleArpPacket_spec (envAt 5) (c := .start twoInterfaces) names ips long
  have some : emitted new ≠ [] := asked.2 ⟨by decide, _, List.mem_cons_self .., by decide⟩
  obtain ⟨reply, sent, -⟩ := answer _ (List.mem_cons_self ..) (by decide) some
  exact ⟨c', new, reply, run, log, sent⟩

end ComputerNetwork.Router
