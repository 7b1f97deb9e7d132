import ComputerNetwork.Lib.Layout
import ComputerNetwork.Router.HardwareInfo
import ComputerNetwork.Router.Sha1

/-!
# The messages of the virtual network

`VNSProtocol.py`, with which the controller packs and unpacks the bodies of its messages, and the
commands that the router writes in `sr_vns_comm.c` from the structures of `vnscommand.h`.  The external
framing puts the length of the message and its type in front of a body.

`unpack_pack_iff` says which messages come back from their bodies, `unpack_command` that the controller
reads every command of the router, and `banners_printed` that the router prints a text that was split
into banners.
-/

namespace ComputerNetwork.Router

open Lib

/-! ## The classes -/

/-- A source filter of a topology: an address and the number of bits that count. -/
structure SrcFilter where
  ip : UInt32
  mask : UInt8
  deriving DecidableEq

/-- `VNS_MESSAGES`. -/
inductive VnsMessage where
  | openTopology (topoId : UInt16) (vhost user pw : List UInt8)
  | close (msg : List UInt8)
  | packet (intfName ethernetFrame : List UInt8)
  | banner (msg : List UInt8)
  | hardwareInfo (interfaces : List VnsInterface)
  | rtable (vrhost table : List UInt8)
  | openTemplate (templateName vrhost : List UInt8) (srcFilters : List SrcFilter)
  | authRequest (salt : List UInt8)
  | authReply (username ssp : List UInt8)
  | authStatus (authOk : Bool) (msg : List UInt8)

/-- `strip_null_chars`. -/
def stripNullChars (s : List UInt8) : List UInt8 := s.filter (· ≠ 0)

/-- `__set_src_filters`. -/
def setSrcFilters (srcFilters : List SrcFilter) : List SrcFilter :=
  if srcFilters = [] then [⟨0, 0⟩] else srcFilters

def SrcFilter.pack (f : SrcFilter) : List UInt8 := bytesBE32 f.ip ++ [f.mask]

namespace VnsMessage

/-- `get_type`. -/
def getType : VnsMessage → ℕ
  | openTopology .. => 1
  | close .. => 2
  | packet .. => 4
  | banner .. => 8
  | hardwareInfo .. => 16
  | rtable .. => 32
  | openTemplate .. => 64
  | authRequest .. => 128
  | authReply .. => 256
  | authStatus .. => 512

/-- `length`. -/
def length : VnsMessage → ℕ
  | openTopology .. => 100
  | close _ => 256
  | packet _ frame => 16 + frame.length
  | banner _ => 256
  | hardwareInfo interfaces => interfaces.length * 216
  | rtable _ table => 32 + table.length
  | openTemplate _ _ srcFilters => 62 + 30 + 5 * srcFilters.length
  | authRequest salt => salt.length
  | authReply username ssp => username.length + ssp.length
  | authStatus _ msg => 1 + msg.length

/-- `pack`. -/
def pack : VnsMessage → List UInt8
  | openTopology topoId vhost user pw =>
    bytesBE16 topoId ++ bytesBE16 0 ++ packString 32 vhost ++ packString 32 user ++ packString 32 pw
  | close msg => packString 256 msg
  | packet intfName frame => packString 16 intfName ++ frame
  | banner msg => packString 256 msg
  | hardwareInfo interfaces => packHardwareInfo interfaces
  | rtable vrhost table => packString 32 vrhost ++ table
  | openTemplate templateName vrhost srcFilters =>
    packString 30 templateName ++ packString 32 vrhost ++ srcFilters.flatMap SrcFilter.pack
  | authRequest salt => salt
  | authReply username ssp => bytesBE32 (UInt32.ofNat username.length) ++ (username ++ ssp)
  | authStatus authOk msg => (if authOk then 1 else 0) :: msg

/-- The message: `mLen`, the type and the body. -/
def framed (m : VnsMessage) : List UInt8 :=
  bytesBE32 (UInt32.ofNat (8 + m.pack.length)) ++ (bytesBE32 (UInt32.ofNat m.getType) ++ m.pack)

end VnsMessage

/-- The loop of `VNSOpenTemplate.unpack`. -/
def unpackSrcFilters (sfBytes : List UInt8) : Option (List SrcFilter) :=
  (List.range (sfBytes.length / 5)).mapM fun i =>
    let mask := load8 sfBytes (i * 5 + 4)
    if 32 < mask then none else some ⟨loadBE32 sfBytes (i * 5), mask⟩

/-- `unpack`, of the class with this type; no result where it raises an exception.  `VNSHardwareInfo`
has none. -/
def unpack (type : ℕ) (body : List UInt8) : Option VnsMessage :=
  match type with
  | 1 =>
    if body.length = 100 then some (.openTopology (loadBE16 body 0)
      (stripNullChars ((body.drop 4).take 32)) (stripNullChars ((body.drop 36).take 32))
      (stripNullChars ((body.drop 68).take 32)))
    else none
  | 2 => if body.length = 256 then some (.close (stripNullChars body)) else none
  | 4 =>
    if 16 ≤ body.length then some (.packet (stripNullChars (body.take 16)) (body.drop 16)) else none
  | 8 => if body.length = 256 then some (.banner (stripNullChars body)) else none
  | 32 => some (.rtable (stripNullChars (body.take 32)) (body.drop 32))
  | 64 =>
    if 62 ≤ body.length then do
      let srcFilters ← unpackSrcFilters (body.drop 62)
      return .openTemplate (stripNullChars (body.take 30)) (stripNullChars ((body.drop 30).take 32))
        (setSrcFilters srcFilters)
    else none
  | 128 => some (.authRequest body)
  | 256 =>
    if 4 ≤ body.length then
      let usernameLen := (loadBE32 body 0).toNat
      some (.authReply ((body.drop 4).take usernameLen) ((body.drop 4).drop usernameLen))
    else none
  | 512 => if 1 ≤ body.length then some (.authStatus (load8 body 0 ≠ 0) (body.drop 1)) else none
  | _ => none

/-- `VNSBanner.get_banners`. -/
def getBanners (msg : List UInt8) : List VnsMessage :=
  (List.range (msg.length / 255 + 1)).map fun i => .banner ((msg.drop (i * 255)).take 255)

/-- `VNSClose.get_banners_and_close`. -/
def getBannersAndClose (msg : List UInt8) : List VnsMessage :=
  (List.range (msg.length / 255 + 1)).map fun i =>
    if i + 1 < msg.length / 255 + 1 then .banner ((msg.drop (i * 255)).take 255)
    else .close ((msg.drop (i * 255)).take 255)

/-! ## The commands of the router -/

/-- `strncpy` to an array of `n` bytes. -/
def strncpy (n : ℕ) (s : List UInt8) : List UInt8 := packString n (s.takeWhile (· ≠ 0))

/-- The bytes of a digest, each word in network order. -/
def Words.bytes (w : Words) : List UInt8 :=
  bytesBE32 w.a ++ bytesBE32 w.b ++ bytesBE32 w.c ++ bytesBE32 w.d ++ bytesBE32 w.e

/-- What the router sends to the controller. -/
inductive Command where
  | openTopology (topoId : UInt16) (host user : Name)
  | openTemplate (template host : Name)
  | packet (iface : Name) (frame : List UInt8)
  | authReply (user : Name) (digest : Words)

namespace Command

/-- The bytes that are written: `c_open`, `c_open_template`, `c_packet_header` with a frame behind it, and
`c_auth_reply`. -/
def bytes : Command → List UInt8
  | openTopology topoId host user =>
    bytesBE32 108 ++ (bytesBE32 1 ++ (bytesBE16 topoId ++ bytesBE16 0 ++ strncpy 32 host ++
      strncpy 32 user ++ List.replicate 32 0))
  | openTemplate template host =>
    bytesBE32 70 ++ (bytesBE32 64 ++ (strncpy 30 template ++ strncpy 32 host))
  | packet iface frame =>
    bytesBE32 (UInt32.ofNat (frame.length + 24)) ++ (bytesBE32 4 ++ (strncpy 16 iface ++ frame))
  | authReply user digest =>
    bytesBE32 (UInt32.ofNat (12 + user.length + 20)) ++ (bytesBE32 256 ++
      (bytesBE32 (UInt32.ofNat user.length) ++ (user ++ digest.bytes)))

/-- What the controller should understand: a name that is too long for its array is cut. -/
def message : Command → VnsMessage
  | openTopology topoId host user => .openTopology topoId (host.take 32) (user.take 32) []
  | openTemplate template host => .openTemplate (template.take 30) (host.take 32) [⟨0, 0⟩]
  | packet iface frame => .packet (iface.take 16) frame
  | authReply user digest => .authReply user digest.bytes

/-- The strings end where C takes them to end, and the length fits its field. -/
def WellFormed : Command → Prop
  | openTopology _ host user => 0 ∉ host ∧ 0 ∉ user
  | openTemplate template host => 0 ∉ template ∧ 0 ∉ host
  | packet iface frame => 0 ∉ iface ∧ frame.length + 24 < 2 ^ 32
  | authReply user _ => 12 + user.length + 20 < 2 ^ 32

end Command

/-! ## Strings -/

section Strings

variable {n : ℕ} {s : List UInt8}

/-- A string that a field of `n` bytes can hold. -/
def Holdable (n : ℕ) (s : List UInt8) : Prop := 0 ∉ s ∧ s.length ≤ n

instance (n : ℕ) (s : List UInt8) : Decidable (Holdable n s) :=
  inferInstanceAs (Decidable (_ ∧ _))

theorem stripNullChars_of_not_mem (nul : 0 ∉ s) : stripNullChars s = s :=
  List.filter_eq_self.2 fun _ mem => decide_eq_true fun zero => nul (zero ▸ mem)

theorem stripNullChars_packString (nul : 0 ∉ s) : stripNullChars (packString n s) = s.take n := by
  have cut : stripNullChars (s.take n) = s.take n :=
    stripNullChars_of_not_mem fun mem => nul (List.mem_of_mem_take mem)
  have padding : ∀ k, stripNullChars (List.replicate k 0) = [] := fun k =>
    List.filter_eq_nil_iff.2 fun _ mem => by simp [List.eq_of_mem_replicate mem]
  rw [packString, List.take_append, List.take_replicate, stripNullChars, List.filter_append]
  show stripNullChars _ ++ stripNullChars _ = _
  rw [cut, padding, List.append_nil]

/-- A string comes back from its field when the field can hold it. -/
theorem stripNullChars_packString_iff : stripNullChars (packString n s) = s ↔ Holdable n s := by
  constructor
  · intro back
    refine ⟨fun zero => ?_, ?_⟩
    · rw [← back] at zero
      simpa using (List.mem_filter.1 zero).2
    · calc s.length = (stripNullChars (packString n s)).length := by rw [back]
        _ ≤ (packString n s).length := List.length_filter_le ..
        _ = n := length_packString n s
  · rintro ⟨nul, fits⟩
    rw [stripNullChars_packString nul, List.take_of_length_le fits]

theorem takeWhile_of_not_mem (nul : 0 ∉ s) : s.takeWhile (· ≠ 0) = s := by
  have inside : ∀ c ∈ s, decide (c ≠ 0) = true := fun c mem =>
    decide_eq_true fun zero => nul (zero ▸ mem)
  simpa only [List.append_nil, List.takeWhile_nil] using
    @List.takeWhile_append_of_pos _ _ _ [] inside

theorem strncpy_eq (nul : 0 ∉ s) : strncpy n s = packString n s := by
  rw [strncpy, takeWhile_of_not_mem nul]

end Strings

/-! ## Source filters -/

theorem SrcFilter.length_pack (f : SrcFilter) : f.pack.length = 5 := rfl

theorem length_packSrcFilters (srcFilters : List SrcFilter) :
    (srcFilters.flatMap SrcFilter.pack).length = 5 * srcFilters.length :=
  length_records fun _ _ => rfl

theorem mapM_checked {α : Type} (bad : α → Prop) [DecidablePred bad] (l : List α) :
    (l.mapM fun x => if bad x then none else some x) =
      if ∀ x ∈ l, ¬ bad x then some l else none := by
  induction l with
  | nil => rfl
  | cons x rest ih =>
    rw [List.mapM_cons, ih]
    by_cases first : bad x
    · have some_ : ¬ ∀ y ∈ x :: rest, ¬ bad y := fun all => all x (List.mem_cons_self ..) first
      rw [if_pos first, if_neg some_]
      rfl
    · rw [if_neg first]
      by_cases others : ∀ y ∈ rest, ¬ bad y
      · have all : ∀ y ∈ x :: rest, ¬ bad y := List.forall_mem_cons.2 ⟨first, others⟩
        rw [if_pos others, if_pos all]
        rfl
      · have some_ : ¬ ∀ y ∈ x :: rest, ¬ bad y := fun all => others (List.forall_mem_cons.1 all).2
        rw [if_neg others, if_neg some_]
        rfl

/-- The filters come back when their masks are masks. -/
theorem unpackSrcFilters_pack (srcFilters : List SrcFilter) :
    unpackSrcFilters (srcFilters.flatMap SrcFilter.pack) =
      if ∀ f ∈ srcFilters, f.mask ≤ 32 then some srcFilters else none := by
  have count : (srcFilters.flatMap SrcFilter.pack).length / 5 = srcFilters.length := by
    rw [length_packSrcFilters, Nat.mul_div_cancel_left _ (by norm_num)]
  have found : ∀ (i : ℕ) (f : SrcFilter), srcFilters[i]? = some f →
      (let mask := load8 (srcFilters.flatMap SrcFilter.pack) (i * 5 + 4)
        if 32 < mask then none
        else some (⟨loadBE32 (srcFilters.flatMap SrcFilter.pack) (i * 5), mask⟩ : SrcFilter)) =
        if 32 < f.mask then none else some f := by
    intro i f get
    have record : recordAt 5 (srcFilters.flatMap SrcFilter.pack) i = f.pack :=
      recordAt_records (fun g _ => g.length_pack) get
    have byte : ∀ j < 5, load8 (srcFilters.flatMap SrcFilter.pack) (i * 5 + j) = load8 f.pack j := by
      intro j small
      rw [← record, recordAt, load8_take _ small, load8_drop, Nat.mul_comm]
    have ip : loadBE32 (srcFilters.flatMap SrcFilter.pack) (i * 5) = f.ip := by
      have value := loadBE32_bytesBE32 f.ip [f.mask]
      unfold loadBE32 at value ⊢
      rw [byte 1 (by omega), byte 2 (by omega), byte 3 (by omega),
        show load8 _ (i * 5) = _ from byte 0 (by omega)]
      exact value
    dsimp only
    rw [ip, byte 4 (by omega)]
    rfl
  rw [unpackSrcFilters, count, mapM_range found, mapM_checked]
  simp only [UInt8.not_lt]

/-! ## Bodies -/

namespace VnsMessage

/-- The message can be read back from its body. -/
def Readable : VnsMessage → Prop
  | openTopology _ vhost user pw => Holdable 32 vhost ∧ Holdable 32 user ∧ Holdable 32 pw
  | close msg => Holdable 256 msg
  | packet intfName _ => Holdable 16 intfName
  | banner msg => Holdable 256 msg
  | hardwareInfo _ => False
  | rtable vrhost _ => Holdable 32 vrhost
  | openTemplate templateName vrhost srcFilters =>
    Holdable 30 templateName ∧ Holdable 32 vrhost ∧ srcFilters ≠ [] ∧ ∀ f ∈ srcFilters, f.mask ≤ 32
  | authRequest _ => True
  | authReply username _ => username.length < 2 ^ 32
  | authStatus _ _ => True

end VnsMessage

theorem unpack_openTopology (topoId : UInt16) (vhost user pw : List UInt8) :
    unpack 1 (VnsMessage.openTopology topoId vhost user pw).pack =
      some (.openTopology topoId (stripNullChars (packString 32 vhost))
        (stripNullChars (packString 32 user)) (stripNullChars (packString 32 pw))) := by
  have laid : Laid [2, 2, 32, 32, 32] [bytesBE16 topoId, bytesBE16 0, packString 32 vhost,
      packString 32 user, packString 32 pw]
      (VnsMessage.openTopology topoId vhost user pw).pack := by
    constructor
    · simp
    · simp [VnsMessage.pack]
  have size : (VnsMessage.openTopology topoId vhost user pw).pack.length = 100 := laid.length
  have id : loadBE16 (VnsMessage.openTopology topoId vhost user pw).pack 0 = topoId := by
    simp only [VnsMessage.pack, List.append_assoc]
    exact loadBE16_bytesBE16 topoId _
  have host : ((VnsMessage.openTopology topoId vhost user pw).pack.drop 4).take 32 = _ :=
    laid.field 2 rfl rfl (length_packString ..)
  have uid : ((VnsMessage.openTopology topoId vhost user pw).pack.drop 36).take 32 = _ :=
    laid.field 3 rfl rfl (length_packString ..)
  have pass : ((VnsMessage.openTopology topoId vhost user pw).pack.drop 68).take 32 = _ :=
    laid.field 4 rfl rfl (length_packString ..)
  rw [unpack, if_pos size, id, host, uid, pass]

theorem unpack_openTemplate (templateName vrhost : List UInt8) (srcFilters : List SrcFilter) :
    unpack 64 (VnsMessage.openTemplate templateName vrhost srcFilters).pack =
      if ∀ f ∈ srcFilters, f.mask ≤ 32 then
        some (.openTemplate (stripNullChars (packString 30 templateName))
          (stripNullChars (packString 32 vrhost)) (setSrcFilters srcFilters))
      else none := by
  have laid : Laid [30, 32, 5 * srcFilters.length] [packString 30 templateName, packString 32 vrhost,
      srcFilters.flatMap SrcFilter.pack]
      (VnsMessage.openTemplate templateName vrhost srcFilters).pack := by
    constructor
    · simp only [List.map_cons, List.map_nil, length_packString, length_packSrcFilters]
    · simp [VnsMessage.pack]
  have size : 62 ≤ (VnsMessage.openTemplate templateName vrhost srcFilters).pack.length := by
    rw [laid.length]
    simp only [List.sum_cons, List.sum_nil]
    omega
  have name : (VnsMessage.openTemplate templateName vrhost srcFilters).pack.take 30 = _ :=
    laid.field 0 rfl rfl (length_packString ..)
  have host : ((VnsMessage.openTemplate templateName vrhost srcFilters).pack.drop 30).take 32 = _ :=
    laid.field 1 rfl rfl (length_packString ..)
  have filters : (VnsMessage.openTemplate templateName vrhost srcFilters).pack.drop 62 =
      srcFilters.flatMap SrcFilter.pack := (laid.tail 2 rfl).trans List.flatten_singleton
  rw [unpack, if_pos size, name, host, filters, unpackSrcFilters_pack]
  split_ifs <;> rfl

theorem unpack_packet (intfName frame : List UInt8) :
    unpack 4 (VnsMessage.packet intfName frame).pack =
      some (.packet (stripNullChars (packString 16 intfName)) frame) := by
  have size : 16 ≤ (VnsMessage.packet intfName frame).pack.length := by
    rw [VnsMessage.pack, List.length_append, length_packString]
    omega
  rw [unpack, if_pos size, VnsMessage.pack, List.take_left' (length_packString ..),
    List.drop_left' (length_packString ..)]

theorem unpack_rtable (vrhost table : List UInt8) :
    unpack 32 (VnsMessage.rtable vrhost table).pack =
      some (.rtable (stripNullChars (packString 32 vrhost)) table) := by
  rw [unpack, VnsMessage.pack, List.take_left' (length_packString ..),
    List.drop_left' (length_packString ..)]

theorem unpack_authReply (username ssp : List UInt8) :
    unpack 256 (VnsMessage.authReply username ssp).pack =
      some (.authReply ((username ++ ssp).take (username.length % 2 ^ 32))
        ((username ++ ssp).drop (username.length % 2 ^ 32))) := by
  have size : 4 ≤ (VnsMessage.authReply username ssp).pack.length := by
    rw [VnsMessage.pack, List.length_append, length_bytesBE32]
    omega
  have len : (loadBE32 (VnsMessage.authReply username ssp).pack 0).toNat =
      username.length % 2 ^ 32 := by
    rw [VnsMessage.pack, loadBE32_bytesBE32, UInt32.toNat_ofNat']
  have behind : (VnsMessage.authReply username ssp).pack.drop 4 = username ++ ssp :=
    List.drop_left' (length_bytesBE32 _)
  rw [unpack, if_pos size, behind, len]

theorem setSrcFilters_eq_iff (srcFilters : List SrcFilter) :
    setSrcFilters srcFilters = srcFilters ↔ srcFilters ≠ [] := by
  unfold setSrcFilters
  split_ifs with none_
  · simp [none_]
  · simp [none_]

/-- Which messages come back from their bodies: those whose strings have no zeros and fit their fields,
but no `VNSHardwareInfo`, and no template without source filters or with a mask beyond 32. -/
theorem unpack_pack_iff (m : VnsMessage) :
    unpack m.getType m.pack = some m ↔ m.Readable := by
  cases m with
  | openTopology topoId vhost user pw =>
    refine (congrArg (· = _) (unpack_openTopology topoId vhost user pw)).to_iff.trans ?_
    simp only [Option.some.injEq, VnsMessage.openTopology.injEq, true_and,
      stripNullChars_packString_iff, VnsMessage.Readable]
  | close msg =>
    simp [unpack, VnsMessage.getType, VnsMessage.pack, VnsMessage.Readable,
      stripNullChars_packString_iff]
  | packet intfName frame =>
    refine (congrArg (· = _) (unpack_packet intfName frame)).to_iff.trans ?_
    simp only [Option.some.injEq, VnsMessage.packet.injEq, and_true, stripNullChars_packString_iff,
      VnsMessage.Readable]
  | banner msg =>
    simp [unpack, VnsMessage.getType, VnsMessage.pack, VnsMessage.Readable,
      stripNullChars_packString_iff]
  | hardwareInfo interfaces => simp [unpack, VnsMessage.getType, VnsMessage.Readable]
  | rtable vrhost table =>
    refine (congrArg (· = _) (unpack_rtable vrhost table)).to_iff.trans ?_
    simp only [Option.some.injEq, VnsMessage.rtable.injEq, and_true, stripNullChars_packString_iff,
      VnsMessage.Readable]
  | openTemplate templateName vrhost srcFilters =>
    refine (congrArg (· = _) (unpack_openTemplate templateName vrhost srcFilters)).to_iff.trans ?_
    by_cases masks : ∀ f ∈ srcFilters, f.mask ≤ 32
    · rw [if_pos masks, VnsMessage.Readable, and_iff_left masks]
      simp only [Option.some.injEq, VnsMessage.openTemplate.injEq, stripNullChars_packString_iff,
        setSrcFilters_eq_iff]
    · rw [if_neg masks]
      exact iff_of_false nofun fun readable => masks readable.2.2.2
  | authRequest salt => exact iff_of_true rfl trivial
  | authReply username ssp =>
    refine (congrArg (· = _) (unpack_authReply username ssp)).to_iff.trans ?_
    rw [Option.some.injEq, VnsMessage.authReply.injEq]
    constructor
    · rintro ⟨name, -⟩
      have length := congrArg List.length name
      rw [List.length_take] at length
      have small : username.length % 2 ^ 32 < 2 ^ 32 := Nat.mod_lt _ (by norm_num)
      exact (length.symm.trans_le (min_le_left ..)).trans_lt small
    · intro small
      rw [Nat.mod_eq_of_lt small, List.take_left, List.drop_left]
      exact ⟨rfl, rfl⟩
  | authStatus authOk msg =>
    refine iff_of_true ?_ trivial
    cases authOk <;> rfl

/-! ## Commands -/

/-- `length` is the size of the body, except that it leaves out four bytes of a `VNSAuthReply` and counts
thirty bytes of a `VNSOpenTemplate` twice. -/
theorem length_pack (m : VnsMessage) :
    (m.length : ℤ) = m.pack.length +
      match m with
      | .authReply .. => -4
      | .openTemplate .. => 30
      | _ => 0 := by
  cases m with
  | hardwareInfo interfaces =>
    rw [VnsMessage.length, VnsMessage.pack, length_packHardwareInfo, length_entries, sizeofHwEntry]
    push_cast
    ring
  | openTemplate templateName vrhost srcFilters =>
    rw [VnsMessage.length, VnsMessage.pack, List.length_append, List.length_append,
      length_packString, length_packString, length_packSrcFilters]
    push_cast
    ring
  | authReply username ssp =>
    rw [VnsMessage.length, VnsMessage.pack, List.length_append, List.length_append, length_bytesBE32]
    push_cast
    ring
  | authStatus authOk msg =>
    rw [VnsMessage.length, VnsMessage.pack, List.length_cons]
    push_cast
    ring
  | openTopology | close | packet | banner | rtable | authRequest =>
    simp [VnsMessage.length, VnsMessage.pack]

theorem framed_fields (len type : UInt32) (body : List UInt8) :
    loadBE32 (bytesBE32 len ++ (bytesBE32 type ++ body)) 0 = len ∧
      loadBE32 (bytesBE32 len ++ (bytesBE32 type ++ body)) 4 = type ∧
      (bytesBE32 len ++ (bytesBE32 type ++ body)).drop 8 = body ∧
      (bytesBE32 len ++ (bytesBE32 type ++ body)).length = 8 + body.length := by
  refine ⟨loadBE32_bytesBE32 .., loadBE32_bytesBE32 type body, rfl, ?_⟩
  rw [List.length_append, List.length_append, length_bytesBE32, length_bytesBE32]
  omega

theorem Words.length_bytes (w : Words) : w.bytes.length = 20 := rfl

/-- The controller reads every command of the router: the length is that of the command, and the class of
the type unpacks the body to what was meant. -/
theorem unpack_command (c : Command) (well : c.WellFormed) :
    (loadBE32 c.bytes 0).toNat = c.bytes.length ∧
      unpack (loadBE32 c.bytes 4).toNat (c.bytes.drop 8) = some c.message := by
  cases c with
  | openTopology topoId host user =>
    obtain ⟨len, type, body, size⟩ := framed_fields 108 1
      (VnsMessage.openTopology topoId host user []).pack
    have bytes : (Command.openTopology topoId host user).bytes = bytesBE32 108 ++ (bytesBE32 1 ++
        (VnsMessage.openTopology topoId host user []).pack) := by
      rw [Command.bytes, strncpy_eq well.1, strncpy_eq well.2]
      rfl
    rw [bytes, len, type, body, size]
    refine ⟨?_, ?_⟩
    · simp [VnsMessage.pack]
    · refine (unpack_openTopology topoId host user []).trans ?_
      rw [stripNullChars_packString well.1, stripNullChars_packString well.2]
      rfl
  | openTemplate template host =>
    obtain ⟨len, type, body, size⟩ := framed_fields 70 64
      (VnsMessage.openTemplate template host []).pack
    have bytes : (Command.openTemplate template host).bytes = bytesBE32 70 ++ (bytesBE32 64 ++
        (VnsMessage.openTemplate template host []).pack) := by
      rw [Command.bytes, strncpy_eq well.1, strncpy_eq well.2, VnsMessage.pack, List.flatMap_nil,
        List.append_nil]
    rw [bytes, len, type, body, size]
    refine ⟨?_, ?_⟩
    · simp [VnsMessage.pack]
    · refine (unpack_openTemplate template host []).trans ?_
      rw [if_pos (by simp), stripNullChars_packString well.1, stripNullChars_packString well.2]
      rfl
  | packet iface frame =>
    obtain ⟨len, type, body, size⟩ := framed_fields (UInt32.ofNat (frame.length + 24)) 4
      (VnsMessage.packet iface frame).pack
    have bytes : (Command.packet iface frame).bytes = bytesBE32 (UInt32.ofNat (frame.length + 24)) ++
        (bytesBE32 4 ++ (VnsMessage.packet iface frame).pack) := by
      rw [Command.bytes, strncpy_eq well.1]
      rfl
    rw [bytes, len, type, body, size]
    refine ⟨?_, ?_⟩
    · rw [UInt32.toNat_ofNat', Nat.mod_eq_of_lt well.2, VnsMessage.pack, List.length_append,
        length_packString]
      omega
    · refine (unpack_packet iface frame).trans ?_
      rw [stripNullChars_packString well.1]
      rfl
  | authReply user digest =>
    have fits : 12 + user.length + 20 < 2 ^ 32 := well
    obtain ⟨len, type, body, size⟩ := framed_fields (UInt32.ofNat (12 + user.length + 20)) 256
      (VnsMessage.authReply user digest.bytes).pack
    rw [show (Command.authReply user digest).bytes = _ from rfl]
    refine ⟨?_, ?_⟩
    · refine (congrArg UInt32.toNat len).trans ?_
      rw [UInt32.toNat_ofNat', Nat.mod_eq_of_lt fits]
      refine Eq.trans ?_ size.symm
      rw [VnsMessage.pack, List.length_append, List.length_append, length_bytesBE32,
        Words.length_bytes]
      omega
    · refine (congrArg (fun t => unpack (UInt32.toNat t) _) type).trans ?_
      refine (congrArg (unpack 256) body).trans ((unpack_authReply user digest.bytes).trans ?_)
      rw [Nat.mod_eq_of_lt (by omega), List.take_left, List.drop_left]
      rfl

theorem unpack_command_packet :
    (loadBE32 (Command.packet [101, 48] [1, 2, 3]).bytes 0).toNat = 27 ∧
      unpack 4 ((Command.packet [101, 48] [1, 2, 3]).bytes.drop 8) =
        some (.packet [101, 48] [1, 2, 3]) :=
  unpack_command (.packet [101, 48] [1, 2, 3]) ⟨by decide, by decide⟩

/-! ## Banners -/

/-- What `%s` prints of the 256 bytes of a text. -/
def printed (m : VnsMessage) : List UInt8 := m.pack.takeWhile (· ≠ 0)

theorem flatten_pieces (msg : List UInt8) (n k : ℕ) :
    ((List.range k).map fun i => (msg.drop (i * n)).take n).flatten = msg.take (k * n) := by
  induction k with
  | zero => simp
  | succ k ih =>
    rw [List.range_succ, List.map_append, List.flatten_append, ih, List.map_singleton,
      List.flatten_singleton, Nat.succ_mul, List.take_add]

theorem packString_piece {s : List UInt8} (short : s.length ≤ 255) :
    packString 256 s = s ++ 0 :: List.replicate (255 - s.length) 0 := by
  rw [packString_eq (by omega), show 256 - s.length = 255 - s.length + 1 by omega,
    List.replicate_succ]

theorem takeWhile_packString_piece {s : List UInt8} (nul : 0 ∉ s) (short : s.length ≤ 255) :
    (packString 256 s).takeWhile (· ≠ 0) = s := by
  have inside : ∀ c ∈ s, decide (c ≠ 0) = true := fun c mem =>
    decide_eq_true fun zero => nul (zero ▸ mem)
  rw [packString_piece short, List.takeWhile_append_of_pos inside,
    List.takeWhile_cons_of_neg (by simp), List.append_nil]

/-- The router prints a text that comes in banners, and its reason at the end, as it was: each piece
ends in its array. -/
theorem banners_printed {msg : List UInt8} (nul : 0 ∉ msg) :
    ((getBanners msg).map printed).flatten = msg ∧
      ((getBannersAndClose msg).map printed).flatten = msg ∧
      ∀ m ∈ getBanners msg ++ getBannersAndClose msg, 0 ∈ m.pack := by
  have piece : ∀ i, ((msg.drop (i * 255)).take 255).length ≤ 255 := fun i => List.length_take_le ..
  have text : ∀ i, (packString 256 ((msg.drop (i * 255)).take 255)).takeWhile (· ≠ 0) =
      (msg.drop (i * 255)).take 255 := fun i =>
    takeWhile_packString_piece (fun mem => nul (List.mem_of_mem_drop (List.mem_of_mem_take mem)))
      (piece i)
  have ended : ∀ i, 0 ∈ packString 256 ((msg.drop (i * 255)).take 255) := fun i => by
    rw [packString_piece (piece i)]
    simp
  have whole : ((List.range (msg.length / 255 + 1)).map fun i =>
      (msg.drop (i * 255)).take 255).flatten = msg := by
    rw [flatten_pieces, List.take_of_length_le (by omega)]
  refine ⟨?_, ?_, fun m mem => ?_⟩
  · rw [getBanners, List.map_map]
    exact (congrArg List.flatten (List.map_congr_left fun i _ => text i)).trans whole
  · rw [getBannersAndClose, List.map_map]
    refine (congrArg List.flatten (List.map_congr_left fun i _ => ?_)).trans whole
    dsimp only [Function.comp_apply]
    split_ifs
    · exact text i
    · exact text i
  · rcases List.mem_append.1 mem with mem | mem
    · obtain ⟨i, -, rfl⟩ := List.mem_map.1 mem
      exact ended i
    · obtain ⟨i, -, rfl⟩ := List.mem_map.1 mem
      split_ifs
      · exact ended i
      · exact ended i

theorem banners_printed_short :
    ((getBanners [72, 105]).map printed).flatten = [72, 105] ∧
      ((getBannersAndClose [72, 105]).map printed).flatten = [72, 105] ∧
      ∀ m ∈ getBanners [72, 105] ++ getBannersAndClose [72, 105], 0 ∈ m.pack :=
  banners_printed (by decide)

end ComputerNetwork.Router
