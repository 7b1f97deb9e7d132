import ComputerNetwork.Router.Resolution

/-!
# Which IP frames the router accepts

`Valid` says that the checksums of a frame are right: the words of the IP header, and of the whole
message when it is ICMP, add up to `0xffff`.  `sr_handlepacket` compares instead the received field
with `cksum` over bytes that still hold this field, and for ICMP over the first 36 bytes of the
message only.  `ipChecks_iff_valid` gives the frames on which the two agree; the frames that the
router sends are valid, and by `transmit_headerValid` another router accepts them only when the
checksum happens to be `0xffff`.
-/

namespace ComputerNetwork.Router

open Lib

/-! ## Validity -/

/-- The ones' complement sum of the ten words of the header is `0xffff`. -/
def HeaderValid (f : List UInt8) : Prop := residue (wordSum (ipHeader f)) = 0xffff

/-- The ICMP message, from the end of the IP header to the end of the datagram. -/
def icmpMessage (f : List UInt8) : List UInt8 := (f.drop icmpStart).take ((ipLen f).toNat - 20)

/-- The message has a checksum field, lies in the frame and its ones' complement sum is `0xffff`. -/
def MessageValid (f : List UInt8) : Prop :=
  24 ≤ (ipLen f).toNat ∧ 14 + (ipLen f).toNat ≤ f.length ∧
    residue (wordSum (icmpMessage f)) = 0xffff

def Valid (f : List UInt8) : Prop :=
  HeaderValid f ∧ (ipP f = ipProtocolIcmp → MessageValid f)

/-! ## What the code compares -/

/-- When `cksum` over words with sum `sum`, one of which is `field`, gives `field`. -/
def Reproduces (sum : ℕ) (field : UInt16) : Prop :=
  if sum % 65535 = 0 then field = 0xffff else (sum + field.toNat) % 65535 = 0

instance (sum : ℕ) (field : UInt16) : Decidable (Reproduces sum field) := by
  unfold Reproduces; infer_instance

/-- The 36 bytes of the ICMP header are there and `cksum` gives back their checksum field. -/
def IcmpReproduces (f : List UInt8) : Prop :=
  70 ≤ f.length ∧ Reproduces (wordSum ((f.drop icmpStart).take sizeofIcmp)) (icmpSum f)

/-- The frames on which the code's checks amount to validity. -/
def ChecksAgree (f : List UInt8) : Prop :=
  if ipP f ≠ ipProtocolIcmp then
    ipSum f = 0xffff ∨ (wordSum (ipHeader f) % 65535 ≠ 0 ∧
      (wordSum (ipHeader f) + (ipSum f).toNat) % 65535 ≠ 0)
  else if wordSum (ipHeader f) % 65535 = 0 then
    if ipSum f = 0xffff then IcmpReproduces f ↔ MessageValid f else ¬ MessageValid f
  else (wordSum (ipHeader f) + (ipSum f).toNat) % 65535 ≠ 0 ∨ ¬ IcmpReproduces f

theorem wordSum_lt {data : List UInt8} (short : data.length ≤ 131074) : wordSum data < 2 ^ 32 := by
  have words := wordSum_le_words data
  omega

theorem toNat_cksum {data : List UInt8} (short : data.length ≤ 131074) :
    (cksum data).toNat = complement (residue (wordSum data)) := by
  have bound := wordSum_lt short
  have top := complement_le (residue (wordSum data))
  rw [cksum, Nat.mod_eq_of_lt bound, foldCarry_eq bound, UInt16.toNat_ofNat',
    Nat.mod_eq_of_lt (by omega)]

theorem cksum_eq_iff {data : List UInt8} (short : data.length < 2 ^ 16) (field : UInt16) :
    cksum data = field ↔ Reproduces (wordSum data) field := by
  have word : field.toNat ≤ 65535 := by have := field.toNat_lt; omega
  rw [← UInt16.toNat_inj, toNat_cksum (by omega), complement_eq_iff _ word, Reproduces,
    ← UInt16.toNat_inj]
  split_ifs with zero
  · simp [zero]
  · simp [zero]

theorem residue_eq_iff (n : ℕ) : residue n = 0xffff ↔ 0 < n ∧ n % 65535 = 0 := by
  have bound := Nat.mod_lt n (by omega : 0 < 65535)
  unfold residue
  split_ifs with zero multiple
  · simp [zero]
  · exact ⟨fun _ => ⟨by omega, multiple⟩, fun _ => rfl⟩
  · exact ⟨fun h => by omega, fun h => absurd h.2 multiple⟩

theorem length_ipHeader_le (f : List UInt8) : (ipHeader f).length ≤ 20 := by
  rw [ipHeader, List.length_take]
  omega

theorem ipChecks_iff {f : List UInt8} (long : 34 ≤ f.length) :
    ipChecks f = true ↔ Reproduces (wordSum (ipHeader f)) (ipSum f) ∧
      (ipP f = ipProtocolIcmp → IcmpReproduces f) := by
  have header := length_ipHeader_le f
  have message : ((f.drop icmpStart).take sizeofIcmp).length ≤ 36 := by
    rw [List.length_take]
    exact min_le_left ..
  rw [ipChecks, Bool.and_eq_true, Bool.and_eq_true, beq_iff_eq, Bool.or_eq_true, Bool.and_eq_true,
    beq_iff_eq, bne_iff_ne, cksum_eq_iff (by omega), cksum_eq_iff (by omega), IcmpReproduces]
  simp only [decide_eq_true_eq]
  tauto

/-- A header without options is not all zero. -/
theorem wordSum_ipHeader_pos {f : List UInt8} (long : 34 ≤ f.length) (options : ipHl f = 5) :
    0 < wordSum (ipHeader f) := by
  unfold ipHl at options
  rw [← Nat.add_zero 14, ← load8_drop] at options
  have size : 20 ≤ (f.drop 14).length := by rw [List.length_drop]; omega
  unfold ipHeader
  generalize f.drop 14 = bytes at options size ⊢
  match bytes, size with
  | a :: b :: rest, _ =>
    have first : a ≠ 0 := by
      rintro rfl
      exact absurd (show (0 : UInt8) &&& 0x0f = 5 from options) (by decide)
    have large : a.toNat ≠ 0 := fun h => first (UInt8.toNat_inj.1 h)
    rw [List.take_succ_cons, List.take_succ_cons, wordSum]
    omega

/-- The code accepts exactly the valid frames among those that meet `ChecksAgree`. -/
theorem ipChecks_iff_valid {f : List UInt8} (long : 34 ≤ f.length) (options : ipHl f = 5) :
    (ipChecks f = true ↔ Valid f) ↔ ChecksAgree f := by
  have pos := wordSum_ipHeader_pos long options
  have header : HeaderValid f ↔ wordSum (ipHeader f) % 65535 = 0 := by
    rw [HeaderValid, residue_eq_iff]
    exact and_iff_right pos
  rw [ipChecks_iff long, Valid, header, Reproduces, ChecksAgree]
  by_cases icmp : ipP f = ipProtocolIcmp
  · simp only [icmp, true_implies, ne_eq, not_true_eq_false, if_false]
    by_cases zero : wordSum (ipHeader f) % 65535 = 0
    · by_cases ones : ipSum f = 0xffff
      · simp [zero, ones]
      · simp [zero, ones]
    · simp only [zero, if_false, false_and, iff_false, not_and]
      tauto
  · simp only [icmp, false_implies, and_true, ne_eq, not_false_eq_true, if_true]
    by_cases ones : ipSum f = 0xffff
    · simp [ones]
    · by_cases zero : wordSum (ipHeader f) % 65535 = 0
      · simp [zero, ones]
      · simp [zero, ones]

/-! ## The frames the router sends -/

theorem wordSum_bytesBE16 (x : UInt16) (rest : List UInt8) :
    wordSum (bytesBE16 x ++ rest) = x.toNat + wordSum rest := by
  have bound := x.toNat_lt
  simp only [bytesBE16, List.cons_append, List.nil_append, wordSum, UInt8.toNat_ofNat']
  omega

theorem ipHeader_splice {f new : List UInt8} {i : ℕ} (long : 34 ≤ f.length)
    (fits : i + new.length ≤ 20) : ipHeader (splice f (14 + i) new) = splice (ipHeader f) i new := by
  have front : (f.take 14).length = 14 := by rw [List.length_take]; omega
  have header : (ipHeader f).length = 20 := by
    rw [ipHeader, List.length_take, List.length_drop]
    omega
  have parts : f = f.take 14 ++ (ipHeader f ++ f.drop 34) := by
    rw [ipHeader, ← List.drop_drop (i := 20) (j := 14), List.take_append_drop,
      List.take_append_drop]
  generalize ipHeader f = h, f.take 14 = ether, f.drop 34 = rest at parts header front ⊢
  rw [parts, ← front, splice_append_right, splice_append_left _ (by omega), ipHeader,
    List.drop_left' front, List.take_left' (by rw [length_splice (by omega)]; exact header)]

theorem wordSum_store_ipSum {f : List UInt8} (long : 34 ≤ f.length) (sum : UInt16) :
    wordSum (ipHeader (splice f 24 (bytesBE16 sum))) =
      wordSum ((ipHeader f).take 10) + (sum.toNat + wordSum ((ipHeader f).drop 12)) := by
  have header : (ipHeader f).length = 20 := by
    rw [ipHeader, List.length_take, List.length_drop]
    omega
  have two := length_bytesBE16 sum
  rw [ipHeader_splice (i := 10) long (by omega), splice,
    wordSum_append _ _ (by rw [List.length_take, header]; rfl), wordSum_bytesBE16, two]

/-- A header with a fresh checksum is valid. -/
theorem headerValid_of_cksum {f g : List UInt8}
    (sums : wordSum (ipHeader f) = wordSum (ipHeader g) + (cksum (ipHeader g)).toNat) :
    HeaderValid f := by
  have short := length_ipHeader_le g
  have cancel := complement_spec (wordSum (ipHeader g))
  have pos := complement_pos (residue (wordSum (ipHeader g)))
  rw [toNat_cksum (by omega)] at sums
  rw [HeaderValid, residue_eq_iff, sums]
  exact ⟨by omega, cancel⟩

theorem headerValid_setIpSum {f : List UInt8} (long : 34 ≤ f.length) : HeaderValid (setIpSum f) := by
  refine headerValid_of_cksum (g := splice f 24 (bytesBE16 0)) ?_
  unfold setIpSum
  dsimp only
  rw [splice_splice (bytesBE16 0) (by rw [length_bytesBE16, length_bytesBE16]) (by omega),
    wordSum_store_ipSum long, wordSum_store_ipSum long 0]
  simp only [UInt16.toNat_zero]
  omega

theorem headerValid_icmpFrame (dhost shost : Mac) (src dst : UInt32) (type code : UInt8)
    (unused data : List UInt8) :
    34 ≤ (icmpFrame dhost shost src dst type code unused data).length ∧
      HeaderValid (icmpFrame dhost shost src dst type code unused data) := by
  have header : ∀ sum, (icmpIpHeader sum src dst).length = 20 := fun sum => rfl
  have front : (dhost.bytes ++ (shost.bytes ++ bytesBE16 ethertypeIp)).length = 14 := by
    rw [List.length_append, List.length_append, dhost.size, shost.size, length_bytesBE16]
  have shape : icmpFrame dhost shost src dst type code unused data =
      (dhost.bytes ++ (shost.bytes ++ bytesBE16 ethertypeIp)) ++
        (icmpIpHeader (cksum (icmpIpHeader 0 src dst)) src dst ++
          icmpT3Header type code (cksum (icmpT3Header type code 0 unused data)) unused data) := by
    rw [icmpFrame, List.append_assoc, List.append_assoc]
  have stored : ∀ sum, wordSum (icmpIpHeader sum src dst) =
      wordSum (icmpIpHeader 0 src dst) + sum.toNat := by
    intro sum
    simp only [icmpIpHeader, wordSum_append [0x45, 0, 0, 56, 0, 0, 0x40, 0, 64, 1] _ rfl,
      wordSum_bytesBE16, UInt16.toNat_zero]
    omega
  have cut : ipHeader (icmpFrame dhost shost src dst type code unused data) =
      icmpIpHeader (cksum (icmpIpHeader 0 src dst)) src dst := by
    rw [shape, ipHeader, List.drop_left' front, List.take_left' (header _)]
  have cancel := complement_spec (wordSum (icmpIpHeader 0 src dst))
  have pos := complement_pos (residue (wordSum (icmpIpHeader 0 src dst)))
  constructor
  · rw [shape, List.length_append, front, List.length_append, header]
    omega
  · rw [HeaderValid, cut, residue_eq_iff, stored, toNat_cksum (by rw [header]; omega)]
    exact ⟨by omega, cancel⟩

/-- An IP frame with a valid header, or no IP frame. -/
def SoundIp (f : List UInt8) : Prop := etherType f = ethertypeIp → 34 ≤ f.length ∧ HeaderValid f

/-- Only such frames are sent between the two logs. -/
def Sends (log log' : List Event) : Prop :=
  ∃ new, log' = log ++ new ∧ ∀ iface frame, .transmit iface frame ∈ new → SoundIp frame

theorem Sends.refl (log : List Event) : Sends log log := ⟨[], by simp, by simp⟩

theorem Sends.trans {log log' log'' : List Event} (h : Sends log log') (h' : Sends log' log'') :
    Sends log log'' := by
  obtain ⟨new, eq, sound⟩ := h
  obtain ⟨new', eq', sound'⟩ := h'
  refine ⟨new ++ new', by rw [eq', eq, List.append_assoc], fun iface frame mem => ?_⟩
  cases List.mem_append.1 mem with
  | inl mem => exact sound iface frame mem
  | inr mem => exact sound' iface frame mem

theorem Sends.emit (log : List Event) {e : Event} (other : ∀ iface frame, e ≠ .transmit iface frame) :
    Sends log (log ++ [e]) :=
  ⟨[e], rfl, fun iface frame mem => absurd (List.mem_singleton.1 mem).symm (other iface frame)⟩

theorem frame_of_sendEvent {ifList : List SrIf} {buf frame : List UInt8} {name iface : Name}
    (sent : sendEvent ifList buf name = .transmit iface frame) : frame = buf := by
  unfold sendEvent at sent
  split_ifs at sent
  cases sent
  rfl

theorem srSendPacket_sends (c : Call) {buf : List UInt8} (iface : Name) (sound : SoundIp buf) :
    Sends c.log (srSendPacket c buf iface).log := by
  rw [srSendPacket_eq]
  refine ⟨[sendEvent c.sr.ifList buf iface], rfl, fun iface' frame mem => ?_⟩
  rw [frame_of_sendEvent (List.mem_singleton.1 mem).symm]
  exact sound

theorem srSendArpRequest_sends (c : Call) (ip : UInt32) :
    Sends c.log (srSendArpRequest c ip).log := by
  rw [srSendArpRequest_eq]
  refine ⟨_, rfl, fun iface frame mem => ?_⟩
  obtain ⟨i, -, sent⟩ := List.mem_map.1 mem
  have arp : etherType (arpRequest i ip) = ethertypeArp := by
    obtain ⟨m1, m2, m3, m4, m5, m6, mac⟩ := i.addr.exists_bytes
    rw [arpRequest, mac]
    rfl
  rw [frame_of_sendEvent sent]
  exact fun kind => absurd (arp.symm.trans kind) (by decide)

section Calls

variable {env : Env} {fuel : ℕ} {c c' : Call} {packet : List UInt8} {interface : Name}

/-- Stores to the Ethernet header keep an IP frame sound. -/
theorem HeaderValid.splice_ethernet {f : List UInt8} (valid : HeaderValid f) (i : ℕ)
    (new : List UInt8) (long : 34 ≤ f.length) (before : i + new.length ≤ 14) :
    34 ≤ (splice f i new).length ∧ HeaderValid (splice f i new) := by
  rw [length_splice (by omega), HeaderValid, ipHeader, drop_splice before (by omega)]
  exact ⟨long, valid⟩

theorem le_length_setIpSum {f : List UInt8} {n : ℕ} (long : n ≤ f.length) (fits : 26 ≤ n) :
    n ≤ (setIpSum f).length :=
  le_length_splice _ _ (le_length_splice _ _ long fits) fits

theorem le_length_setIcmpSum {f : List UInt8} {n : ℕ} (long : n ≤ f.length) (fits : 38 ≤ n) :
    n ≤ (setIcmpSum f).length :=
  le_length_splice _ _ (le_length_splice _ _ long fits) fits

/-- What `echoFrame` writes before the header's checksum fits in the packet. -/
theorem le_length_echoFrame_addressed (ip : UInt32) {n : ℕ} (long : n ≤ packet.length) (fits : 38 ≤ n) :
    n ≤ (splice (splice (setIcmpSum (splice packet 34 [0, 0])) 30
      (bytesLE32 (ipSrc (setIcmpSum (splice packet 34 [0, 0]))))) 26 (bytesLE32 ip)).length := by
  have typed : n ≤ (splice packet 34 [0, 0]).length :=
    le_length_splice _ _ long (le_trans (by simp) fits)
  have summed := le_length_setIcmpSum typed fits
  have dst := le_length_splice 30 (bytesLE32 (ipSrc (setIcmpSum (splice packet 34 [0, 0])))) summed
    (le_trans (by simp [bytesLE32]) fits)
  exact le_length_splice 26 (bytesLE32 ip) dst (le_trans (by simp [bytesLE32]) fits)

theorem sound_echoFrame (ip : UInt32) (long : 38 ≤ packet.length) :
    34 ≤ (echoFrame packet ip).length ∧ HeaderValid (echoFrame packet ip) := by
  have src := le_length_echoFrame_addressed ip long le_rfl
  have valid := headerValid_setIpSum (le_trans (by omega : 34 ≤ 38) src)
  obtain ⟨long', valid'⟩ := valid.splice_ethernet 0 (Mac.copy packet 6).bytes
    (le_length_setIpSum (le_trans (by omega : 34 ≤ 38) src) (by omega))
    (by rw [(Mac.copy packet 6).size]; omega)
  exact valid'.splice_ethernet _ _ long' (by rw [(Mac.copy packet 0).size]; omega)

theorem sound_forwarded (ttl : UInt8) (shost dhost : Mac) (long : 34 ≤ packet.length) :
    34 ≤ (splice (splice (setIpSum (splice packet 22 [ttl])) 6 shost.bytes) 0 dhost.bytes).length ∧
      HeaderValid
        (splice (splice (setIpSum (splice packet 22 [ttl])) 6 shost.bytes) 0 dhost.bytes) := by
  have aged : 34 ≤ (splice packet 22 [ttl]).length := le_length_splice _ _ long (by simp)
  obtain ⟨long', valid⟩ := (headerValid_setIpSum aged).splice_ethernet 6 shost.bytes
    (le_length_setIpSum aged (by omega)) (by rw [shost.size]; omega)
  exact valid.splice_ethernet _ _ long' (by rw [dhost.size]; omega)

theorem Does.sends (does : Does env c c') : Sends c.log c'.log := by
  induction does with
  | refl c => exact .refl _
  | trans _ _ ih ih' => exact ih.trans ih'
  | malloc c => exact .refl _
  | icmp own dhost dst type code unused data =>
    exact srSendPacket_sends _ _ fun _ => headerValid_icmpFrame ..
  | forward own dhost ttl long => exact srSendPacket_sends _ _ fun _ => sound_forwarded ttl _ _ long
  | queue c gw packet iface => exact .refl _
  | early found => exact .refl _
  | @ask c addr req found due rare =>
    exact (srSendArpRequest_sends { c with timeReads := c.timeReads + 2 } req.ip).trans
      (.emit _ (by simp))
  | giveUp found due often told still ih =>
    exact (ih.trans (.emit _ (by simp))).trans (.emit _ (by simp))

theorem learn_sends (mac : Mac) (ip : UInt32) : Sends c.log (learn env c mac ip).log := by
  unfold learn
  dsimp only [Call.time]
  split
  · rename_i req _
    exact ⟨[.learned ip mac, .left req], by simp [Call.emit, Call.setCache], by simp⟩
  · exact ⟨[.learned ip mac], by simp [Call.emit, Call.setCache], by simp⟩

/-- Stores beside the type keep the type and the length. -/
theorem etherType_splice {f new : List UInt8} {i : ℕ} {type : UInt16}
    (h : 42 ≤ f.length ∧ etherType f = type) (fits : i + new.length ≤ 42)
    (beside : i + new.length ≤ 12 ∨ 14 ≤ i) :
    42 ≤ (splice f i new).length ∧ etherType (splice f i new) = type := by
  refine ⟨le_length_splice _ _ h.1 fits, ?_⟩
  rw [← h.2, etherType, etherType, loadBE16, loadBE16]
  cases beside with
  | inl before =>
    rw [load8_splice_behind (by omega) (by omega), load8_splice_behind (by omega) (by omega)]
  | inr behind =>
    rw [load8_splice_before (by omega) (by omega), load8_splice_before (by omega) (by omega)]

theorem etherType_arpReply (i : SrIf) (long : 42 ≤ packet.length) :
    etherType (arpReply packet i) = etherType packet := by
  have mac := i.addr.size
  have sender := (Mac.copy packet 22).size
  unfold arpReply
  refine (etherType_splice (etherType_splice (etherType_splice (etherType_splice (etherType_splice
    (etherType_splice (etherType_splice ⟨long, rfl⟩ ?_ ?_) ?_ ?_) ?_ ?_) ?_ ?_) ?_ ?_) ?_ ?_)
    ?_ ?_).2 <;> simp only [mac, sender, bytesLE32, bytesBE16, List.length_cons, List.length_nil] <;>
    omega

/-- Every IP frame a call sends has a valid header. -/
theorem transmit_headerValid {sr : SrInstance} {a : Action} {iface : Name} {frame : List UInt8}
    (run : perform sr a = .ok c') (sent : .transmit iface frame ∈ c'.log) : SoundIp frame := by
  have sends : Sends [] c'.log := by
    cases a with
    | receive packet interface env fuel =>
      rcases srHandlepacket_cases (c := .start sr) run with
        ⟨echo, i, -, eq⟩ | ⟨arp, long, i, -, eq⟩ | eq | does
      · rw [eq]
        obtain ⟨-, -, checked, -, icmp, -, -⟩ := echo
        simp only [ipChecks, Bool.and_eq_true, decide_eq_true_eq, Bool.or_eq_true,
          bne_iff_ne] at checked
        have long : 38 ≤ packet.length :=
          (by decide : 38 ≤ 70).trans (checked.2.resolve_left fun other => other icmp).1
        exact srSendPacket_sends (.start sr) _ fun _ => sound_echoFrame _ long
      · rw [eq]
        have reply : SoundIp (arpReply packet i) := fun kind =>
          absurd ((etherType_arpReply i long).symm.trans kind) (by rw [arp]; decide)
        exact (learn_sends (c := .start sr) ..).trans (srSendPacket_sends _ _ reply)
      · rw [eq]
        exact learn_sends (c := .start sr) ..
      · exact does.sends
    | timeout env fuel => exact (srArpcacheTimeout_does run).sends
  obtain ⟨new, eq, sound⟩ := sends
  rw [eq, List.nil_append] at sent
  exact sound iface frame sent

end Calls

/-! ## Acceptance -/

theorem srHandlepacket_ip (env : Env) (fuel : ℕ) (c : Call) {f : List UInt8} (interface : Name)
    (long : 34 ≤ f.length) (ip : etherType f = ethertypeIp) :
    srHandlepacket env fuel c f interface =
      if ipChecks f then srHandleIpPacket env fuel c f interface else .ok c := by
  have ether : ¬ f.length < sizeofEthernet := by
    unfold sizeofEthernet
    omega
  rw [srHandlepacket, if_neg ether, if_neg (by rw [ip]; decide), if_pos ip]

/-- The checks amount to validity exactly where `ChecksAgree` holds, and a frame that a router sends
is accepted by a router exactly when its header checksum is `0xffff` and, in an ICMP frame, `cksum`
gives back the checksum of the first 36 bytes of the message. -/
theorem accepts_iff (f : List UInt8) (ip : etherType f = ethertypeIp) :
    (34 ≤ f.length → ipHl f = 5 →
      (∀ env fuel c interface, srHandlepacket env fuel c f interface =
        if ipChecks f then srHandleIpPacket env fuel c f interface else .ok c) ∧
      ((ipChecks f = true ↔ Valid f) ↔ ChecksAgree f)) ∧
    ∀ sr a c iface, perform sr a = .ok c → .transmit iface f ∈ c.log →
      (ipChecks f = true ↔
        ipSum f = 0xffff ∧ (ipP f = ipProtocolIcmp → IcmpReproduces f)) := by
  refine ⟨fun long options => ⟨fun env fuel c interface =>
    srHandlepacket_ip env fuel c interface long ip, ipChecks_iff_valid long options⟩, ?_⟩
  intro sr a c iface run sent
  obtain ⟨long, valid⟩ := transmit_headerValid run sent ip
  have zero := ((residue_eq_iff _).1 valid).2
  rw [ipChecks_iff long, Reproduces, if_pos zero]

/-- The router of the run above once it knows the address of its first interface. -/
def resolved : SrInstance :=
  match step twoInterfaces (.receive (arpReplyFrom 0x0100000a) [101, 48] (envAt 5) 2) with
  | some (sr, _) => sr
  | none => twoInterfaces

/-- An IP frame is sent. -/
def sentIp : Event → Bool
  | .transmit _ f => etherType f = ethertypeIp
  | _ => false

theorem exists_sentIp (sr : SrInstance) (a : Action)
    (sends : (perform sr a).toOption.any (fun c => c.log.any sentIp) = true) :
    ∃ c iface f, perform sr a = .ok c ∧ .transmit iface f ∈ c.log ∧ etherType f = ethertypeIp := by
  rcases run : perform sr a with fault | c
  · rw [run] at sends
    cases sends
  · rw [run] at sends
    obtain ⟨e, mem, kind⟩ := List.any_eq_true.1 sends
    cases e with
    | transmit iface f => exact ⟨c, iface, f, rfl, mem, of_decide_eq_true kind⟩
    | refused iface f => cases kind
    | asked addr now => cases kind
    | gaveUp addr now => cases kind
    | learned ip mac => cases kind
    | left req => cases kind

/-- A frame on which the two agree, and an ICMP message that a router sent. -/
theorem accepts_iff_unroutable :
    (ipChecks unroutable = true ↔ Valid unroutable) ∧
      ∃ c iface f, perform resolved (.receive unroutable [101, 48] (envAt 5) 2) = .ok c ∧
        .transmit iface f ∈ c.log ∧ etherType f = ethertypeIp ∧ (ipChecks f = true ↔
          ipSum f = 0xffff ∧ (ipP f = ipProtocolIcmp → IcmpReproduces f)) := by
  refine ⟨(((accepts_iff unroutable (by decide)).1 (by decide) (by decide)).2).2 ?_, ?_⟩
  · rw [ChecksAgree, if_pos (by decide)]
    exact Or.inl (by decide)
  · obtain ⟨c, iface, f, run, sent, ip⟩ := exists_sentIp resolved
      (.receive unroutable [101, 48] (envAt 5) 2) (by decide +kernel)
    exact ⟨c, iface, f, run, sent, ip, (accepts_iff f ip).2 _ _ c iface run sent⟩

/-- A datagram like `unroutable`, with identification zero and the checksum that goes with it. -/
def plainDatagram : List UInt8 :=
  [2, 0, 0, 0, 0, 1, 2, 0, 0, 0, 0, 9, 8, 0,
    0x45, 0, 0, 20, 0, 0, 0, 0, 64, 17, 0xaa, 0x1f, 192, 168, 0, 2, 8, 8, 8, 8]

/-- A valid datagram is rejected. -/
theorem not_accepts_valid : ¬ ∀ f, etherType f = ethertypeIp → 34 ≤ f.length → ipHl f = 5 →
    (ipChecks f = true ↔ Valid f) := by
  intro all
  have valid : Valid plainDatagram :=
    ⟨show residue (wordSum (ipHeader plainDatagram)) = 0xffff by decide,
      fun icmp => absurd icmp (by decide)⟩
  have accepted := (all plainDatagram (by decide) (by decide) (by decide)).2 valid
  exact absurd accepted (by decide)

end ComputerNetwork.Router
