import ComputerNetwork.Lib.Records
import ComputerNetwork.Router.ArpCache

/-!
# Hardware information

The message in which the virtual network tells the router about its interfaces: `VNSInterface.pack` and
`VNSHardwareInfo.pack` of `VNSProtocol.py` write it, `sr_handle_hwinfo` reads it.  Both treat it as an
array of entries of 36 bytes, a key and a value; an interface is six of them, of which the reader uses
the name, the hardware address and the IP address.

The external framing puts the length of the message and its type in front of the body.
-/

namespace ComputerNetwork.Router

open Lib

/-! ## The writer -/

/-- `VNSInterface`, whose constructor checks the sizes. -/
structure VnsInterface where
  name : List UInt8
  mac : List UInt8
  ip : List UInt8
  mask : List UInt8
  mac_size : mac.length = 6
  ip_size : ip.length = 4
  mask_size : mask.length = 4

def hwInterface : UInt32 := 1
def hwSpeed : UInt32 := 2
def hwSubnet : UInt32 := 4
def hwEther : UInt32 := 32
def hwEthip : UInt32 := 64
def hwMask : UInt32 := 128

/-- The format `ns` of `struct.pack`: the string is cut or padded with zeros. -/
def packString (n : ℕ) (s : List UInt8) : List UInt8 := (s ++ List.replicate n 0).take n

/-- `VNSInterface.pack`: `'> I32s II28s I32s I4s28s II28s I4s28s'`. -/
def VnsInterface.pack (v : VnsInterface) : List UInt8 :=
  bytesBE32 hwInterface ++ packString 32 v.name ++
    bytesBE32 hwSpeed ++ bytesBE32 0 ++ packString 28 [] ++
    bytesBE32 hwEther ++ packString 32 v.mac ++
    bytesBE32 hwEthip ++ packString 4 v.ip ++ packString 28 [] ++
    bytesBE32 hwSubnet ++ bytesBE32 0 ++ packString 28 [] ++
    bytesBE32 hwMask ++ packString 4 v.mask ++ packString 28 []

/-- `VNSHardwareInfo.pack`. -/
def packHardwareInfo (interfaces : List VnsInterface) : List UInt8 :=
  interfaces.flatMap VnsInterface.pack

/-- The message: `mLen`, the type of `VNSHardwareInfo` and the body. -/
def hwinfoMessage (interfaces : List VnsInterface) : List UInt8 :=
  bytesBE32 (UInt32.ofNat (8 + (packHardwareInfo interfaces).length)) ++
    (bytesBE32 16 ++ packHardwareInfo interfaces)

/-! ## The reader -/

inductive HwFault where
  | outOfBounds | assertion
  deriving DecidableEq

/-- `sizeof(c_hw_entry)`. -/
def sizeofHwEntry : ℕ := 36

/-- A store to the last interface. -/
def updateLast (f : SrIf → SrIf) : List SrIf → List SrIf
  | [] => []
  | [i] => [f i]
  | i :: j :: rest => i :: updateLast f (j :: rest)

/-- `sr_add_interface`; `block` is what `malloc` returns.  `strncpy` copies the bytes in front of the
first zero. -/
def srAddInterface (block : SrIf) (ifList : List SrIf) (name : List UInt8) : List SrIf :=
  ifList ++ [{ block with name := name.takeWhile (· ≠ 0) }]

/-- `sr_set_ether_addr`. -/
def srSetEtherAddr (ifList : List SrIf) (addr : Mac) : Except HwFault (List SrIf) :=
  if ifList = [] then .error .assertion else .ok (updateLast (fun i => { i with addr }) ifList)

/-- `sr_set_ether_ip`. -/
def srSetEtherIp (ifList : List SrIf) (ip : UInt32) : Except HwFault (List SrIf) :=
  if ifList = [] then .error .assertion else .ok (updateLast (fun i => { i with ip }) ifList)

/-- The `switch` of `sr_handle_hwinfo`; the other keys are ignored.  The block that `malloc` returns
for the `n`-th interface holds `heap n`. -/
def handleEntry (heap : ℕ → SrIf) (ifList : List SrIf) (entry : List UInt8) :
    Except HwFault (List SrIf) :=
  let key := loadBE32 entry 0
  let value := entry.drop 4
  if key = hwInterface then .ok (srAddInterface (heap ifList.length) ifList value)
  else if key = hwEthip then srSetEtherIp ifList (loadLE32 value 0)
  else if key = hwEther then srSetEtherAddr ifList (Mac.copy value 0)
  else .ok ifList

/-- `hwinfo->mHWInfo[i]`. -/
def hwEntry (hwinfo : List UInt8) (i : ℕ) : Except HwFault (List UInt8) :=
  if hwinfo.length < 8 + sizeofHwEntry * (i + 1) then .error .outOfBounds
  else .ok (recordAt sizeofHwEntry (hwinfo.drop 8) i)

/-- `num_entries`: a quotient of 64-bit numbers, stored to an `int`. -/
def numEntries (mLen : UInt32) : ℤ :=
  Int.bmod (((mLen.toNat + 2 ^ 64 - 8) % 2 ^ 64 / sizeofHwEntry : ℕ) : ℤ) (2 ^ 32)

/-- `sr_handle_hwinfo`: the interfaces it leaves and what it returns. -/
def srHandleHwinfo (heap : ℕ → SrIf) (ifList : List SrIf) (hwinfo : List UInt8) :
    Except HwFault (List SrIf × ℤ) :=
  if hwinfo.length < 8 then .error .outOfBounds
  else do
    let n := numEntries (loadBE32 hwinfo 0)
    let ifList ← (List.range n.toNat).foldlM
      (fun ifList i => hwEntry hwinfo i >>= handleEntry heap ifList) ifList
    return (ifList, n)

/-! ## Entries -/

@[simp] theorem length_packString (n : ℕ) (s : List UInt8) : (packString n s).length = n := by
  rw [packString, List.length_take, List.length_append, List.length_replicate]
  omega

theorem packString_eq {n : ℕ} {s : List UInt8} (fits : s.length ≤ n) :
    packString n s = s ++ List.replicate (n - s.length) 0 := by
  rw [packString, List.take_append, List.take_of_length_le fits, List.take_replicate,
    min_eq_left (Nat.sub_le ..)]

theorem packString_of_length {n : ℕ} {s : List UInt8} (size : s.length = n) :
    packString n s = s := by
  rw [packString_eq size.le, size, Nat.sub_self, List.replicate_zero, List.append_nil]

/-- An entry on the wire. -/
def encodeEntry (e : UInt32 × List UInt8) : List UInt8 := bytesBE32 e.1 ++ e.2

/-- The six entries of an interface. -/
def VnsInterface.entries (v : VnsInterface) : List (UInt32 × List UInt8) :=
  [(hwInterface, packString 32 v.name), (hwSpeed, bytesBE32 0 ++ packString 28 []),
    (hwEther, packString 32 v.mac), (hwEthip, packString 4 v.ip ++ packString 28 []),
    (hwSubnet, bytesBE32 0 ++ packString 28 []), (hwMask, packString 4 v.mask ++ packString 28 [])]

theorem pack_eq_entries (v : VnsInterface) : v.pack = v.entries.flatMap encodeEntry := by
  simp only [VnsInterface.pack, VnsInterface.entries, encodeEntry, List.flatMap_cons,
    List.flatMap_nil, List.append_assoc, List.append_nil]

theorem length_encodeEntry (v : VnsInterface) :
    ∀ e ∈ v.entries, (encodeEntry e).length = sizeofHwEntry := by
  intro e mem
  simp only [VnsInterface.entries, List.mem_cons, List.not_mem_nil, or_false] at mem
  rcases mem with rfl | rfl | rfl | rfl | rfl | rfl <;> simp [encodeEntry, sizeofHwEntry]

theorem packHardwareInfo_eq (interfaces : List VnsInterface) :
    packHardwareInfo interfaces = (interfaces.flatMap VnsInterface.entries).flatMap encodeEntry := by
  rw [packHardwareInfo, List.flatMap_assoc]
  exact congrArg (interfaces.flatMap ·) (funext pack_eq_entries)

theorem updateLast_concat (f : SrIf → SrIf) (l : List SrIf) (i : SrIf) :
    updateLast f (l ++ [i]) = l ++ [f i] := by
  induction l with
  | nil => rfl
  | cons j rest ih =>
      cases rest with
      | nil => rfl
      | cons k rest => exact congrArg (j :: ·) ih

/-- The reader's turn for an entry that was written. -/
def readEntry (heap : ℕ → SrIf) (ifList : List SrIf) (e : UInt32 × List UInt8) :
    Except HwFault (List SrIf) :=
  handleEntry heap ifList (encodeEntry e)

section Entry

variable (heap : ℕ → SrIf) (ifList : List SrIf) (value : List UInt8)

theorem readEntry_eq (key : UInt32) :
    readEntry heap ifList (key, value) =
      if key = hwInterface then .ok (srAddInterface (heap ifList.length) ifList value)
      else if key = hwEthip then srSetEtherIp ifList (loadLE32 value 0)
      else if key = hwEther then srSetEtherAddr ifList (Mac.copy value 0)
      else .ok ifList := by
  have back : (encodeEntry (key, value)).drop 4 = value := List.drop_left' (length_bytesBE32 key)
  have front : loadBE32 (encodeEntry (key, value)) 0 = key := loadBE32_bytesBE32 key value
  unfold readEntry handleEntry
  dsimp only
  rw [front, back]

theorem readEntry_interface : readEntry heap ifList (hwInterface, value) =
    .ok (ifList ++ [{ heap ifList.length with name := value.takeWhile (· ≠ 0) }]) := by
  rw [readEntry_eq, if_pos rfl]
  rfl

theorem readEntry_ether (i : SrIf) :
    readEntry heap (ifList ++ [i]) (hwEther, value) =
      .ok (ifList ++ [{ i with addr := Mac.copy value 0 }]) := by
  rw [readEntry_eq, if_neg (by decide), if_neg (by decide), if_pos rfl, srSetEtherAddr,
    if_neg (by simp), updateLast_concat]

theorem readEntry_ethip (i : SrIf) :
    readEntry heap (ifList ++ [i]) (hwEthip, value) =
      .ok (ifList ++ [{ i with ip := loadLE32 value 0 }]) := by
  rw [readEntry_eq, if_neg (by decide), if_pos rfl, srSetEtherIp, if_neg (by simp),
    updateLast_concat]

theorem readEntry_other {key : UInt32}
    (other : key ≠ hwInterface ∧ key ≠ hwEthip ∧ key ≠ hwEther) :
    readEntry heap ifList (key, value) = .ok ifList := by
  rw [readEntry_eq, if_neg other.1, if_neg other.2.1, if_neg other.2.2]

end Entry

/-! ## Interfaces -/

/-- The interface as the router keeps it. -/
def VnsInterface.toSrIf (v : VnsInterface) : SrIf :=
  ⟨v.name, ⟨v.mac, v.mac_size⟩, loadLE32 v.ip 0⟩

theorem Mac.copy_append (m : Mac) (rest : List UInt8) : Mac.copy (m.bytes ++ rest) 0 = m := by
  obtain ⟨bytes, size⟩ := m
  match bytes, size with
  | [a, b, c, d, e, f], _ => rfl

theorem loadLE32_append {b : List UInt8} (size : b.length = 4) (rest : List UInt8) :
    loadLE32 (b ++ rest) 0 = loadLE32 b 0 := by
  match b, size with
  | [x, y, z, w], _ => rfl

theorem takeWhile_packString {name : List UInt8} (fits : name.length ≤ 31) (nul : 0 ∉ name) :
    (packString 32 name).takeWhile (· ≠ 0) = name := by
  have inside : ∀ c ∈ name, decide (c ≠ 0) = true := fun c mem =>
    decide_eq_true fun zero => nul (zero ▸ mem)
  obtain ⟨k, pad⟩ : ∃ k, 32 - name.length = k + 1 := ⟨31 - name.length, by omega⟩
  rw [packString_eq (by omega), pad, List.replicate_succ, List.takeWhile_append_of_pos inside,
    List.takeWhile_cons_of_neg (by simp), List.append_nil]

theorem foldlM_entries (heap : ℕ → SrIf) (ifList : List SrIf) {v : VnsInterface}
    (fits : v.name.length ≤ 31) (nul : 0 ∉ v.name) :
    v.entries.foldlM (readEntry heap) ifList = .ok (ifList ++ [v.toSrIf]) := by
  have mac : Mac.copy (packString 32 v.mac) 0 = ⟨v.mac, v.mac_size⟩ := by
    rw [packString_eq (by rw [v.mac_size]; omega), Mac.copy_append ⟨v.mac, v.mac_size⟩]
  have ip : loadLE32 (packString 4 v.ip ++ packString 28 []) 0 = loadLE32 v.ip 0 := by
    rw [packString_of_length v.ip_size, loadLE32_append v.ip_size]
  rw [VnsInterface.entries, foldlM_cons_ok _ (readEntry_interface ..),
    foldlM_cons_ok _ (readEntry_other _ _ _ (by decide)),
    foldlM_cons_ok _ (readEntry_ether ..), foldlM_cons_ok _ (readEntry_ethip ..),
    foldlM_cons_ok _ (readEntry_other _ _ _ (by decide)),
    foldlM_cons_ok _ (readEntry_other _ _ _ (by decide)), List.foldlM_nil,
    takeWhile_packString fits nul, mac, ip]
  rfl

theorem foldlM_interfaces (heap : ℕ → SrIf) (ifList : List SrIf) {interfaces : List VnsInterface}
    (named : ∀ v ∈ interfaces, v.name.length ≤ 31 ∧ 0 ∉ v.name) :
    (interfaces.flatMap VnsInterface.entries).foldlM (readEntry heap) ifList =
      .ok (ifList ++ interfaces.map VnsInterface.toSrIf) := by
  induction interfaces generalizing ifList with
  | nil =>
      rw [List.map_nil, List.append_nil]
      rfl
  | cons v rest ih =>
      obtain ⟨fits, nul⟩ := named v (List.mem_cons_self ..)
      rw [List.flatMap_cons, List.foldlM_append, foldlM_entries heap ifList fits nul]
      show (rest.flatMap VnsInterface.entries).foldlM _ _ = _
      rw [ih _ fun w mem => named w (List.mem_cons_of_mem _ mem), List.map_cons, List.append_assoc]
      rfl

/-! ## The message -/

theorem length_packHardwareInfo (interfaces : List VnsInterface) :
    (packHardwareInfo interfaces).length =
      sizeofHwEntry * (interfaces.flatMap VnsInterface.entries).length := by
  rw [packHardwareInfo_eq]
  apply length_records
  intro e mem
  obtain ⟨v, -, mem⟩ := List.mem_flatMap.1 mem
  exact length_encodeEntry v e mem

/-- The length of the message gives the number of entries. -/
theorem numEntries_eq {m : ℕ} (fits : 8 + sizeofHwEntry * m < 2 ^ 32) :
    numEntries (UInt32.ofNat (8 + sizeofHwEntry * m)) = m := by
  have few : m < 2 ^ 31 := by unfold sizeofHwEntry at fits; omega
  have quotient : (8 + sizeofHwEntry * m + 2 ^ 64 - 8) % 2 ^ 64 / sizeofHwEntry = m := by
    unfold sizeofHwEntry at fits ⊢
    omega
  have mLen : (UInt32.ofNat (8 + sizeofHwEntry * m)).toNat = 8 + sizeofHwEntry * m := by
    rw [UInt32.toNat_ofNat']
    exact Nat.mod_eq_of_lt fits
  have whole : Int.bmod (m : ℤ) (2 ^ 32) = m := Int.bmod_eq_of_le_mul_two (by omega) (by omega)
  unfold numEntries
  simp only [mLen, quotient, whole]

theorem length_hwinfoMessage (interfaces : List VnsInterface) :
    (hwinfoMessage interfaces).length = 8 + (packHardwareInfo interfaces).length := by
  rw [hwinfoMessage, List.length_append, List.length_append, length_bytesBE32, length_bytesBE32]
  omega

/-- The entries that the reader finds are those that were written. -/
theorem hwEntry_hwinfoMessage {interfaces : List VnsInterface} {i : ℕ} {e : UInt32 × List UInt8}
    (get : (interfaces.flatMap VnsInterface.entries)[i]? = some e) :
    hwEntry (hwinfoMessage interfaces) i = .ok (encodeEntry e) := by
  have inside : i + 1 ≤ (interfaces.flatMap VnsInterface.entries).length :=
    (List.getElem?_eq_some_iff.1 get).1
  have length := length_packHardwareInfo interfaces
  have whole := length_hwinfoMessage interfaces
  have body : (hwinfoMessage interfaces).drop 8 = packHardwareInfo interfaces := by
    rw [hwinfoMessage, ← List.append_assoc]
    exact List.drop_left' rfl
  have enough := Nat.mul_le_mul_left sizeofHwEntry inside
  rw [hwEntry, if_neg (by omega), body, packHardwareInfo_eq]
  refine congrArg Except.ok (recordAt_records (fun e' mem => ?_) get)
  obtain ⟨v, -, mem⟩ := List.mem_flatMap.1 mem
  exact length_encodeEntry v e' mem

theorem length_entries (interfaces : List VnsInterface) :
    (interfaces.flatMap VnsInterface.entries).length = 6 * interfaces.length :=
  length_records fun _ _ => rfl

/-- The reader adds the interfaces that were written to its list, in their order, and changes no other;
it returns the number of entries. -/
theorem srHandleHwinfo_hwinfoMessage (heap : ℕ → SrIf) (ifList : List SrIf)
    {interfaces : List VnsInterface}
    (named : ∀ v ∈ interfaces, v.name.length ≤ 31 ∧ 0 ∉ v.name)
    (fits : 8 + (packHardwareInfo interfaces).length < 2 ^ 32) :
    ∃ new, srHandleHwinfo heap ifList (hwinfoMessage interfaces) =
        .ok (ifList ++ new, ((6 * interfaces.length : ℕ) : ℤ)) ∧
      List.Forall₂ (fun (i : SrIf) (v : VnsInterface) =>
        i.name = v.name ∧ i.addr.bytes = v.mac ∧ bytesLE32 i.ip = v.ip) new interfaces := by
  have length := length_packHardwareInfo interfaces
  rw [length_entries] at length
  have count : numEntries (loadBE32 (hwinfoMessage interfaces) 0) =
      ((6 * interfaces.length : ℕ) : ℤ) := by
    rw [hwinfoMessage, loadBE32_bytesBE32, length]
    exact numEntries_eq (by rwa [length] at fits)
  have walk : (List.range (6 * interfaces.length)).foldlM
      (fun ifList i => hwEntry (hwinfoMessage interfaces) i >>= handleEntry heap ifList) ifList =
      .ok (ifList ++ interfaces.map VnsInterface.toSrIf) := by
    rw [← length_entries, foldlM_range _ _ fun i e get => hwEntry_hwinfoMessage get]
    exact foldlM_interfaces heap ifList named
  refine ⟨interfaces.map VnsInterface.toSrIf, ?_, ?_⟩
  · have enough : ¬ (hwinfoMessage interfaces).length < 8 := by
      rw [length_hwinfoMessage]
      omega
    unfold srHandleHwinfo
    rw [if_neg enough]
    dsimp only
    rw [count, Int.toNat_natCast, walk]
    rfl
  · refine List.forall₂_map_left_iff.2 (List.forall₂_same.2 fun v _ => ⟨rfl, rfl, ?_⟩)
    exact bytesLE32_loadLE32 v.ip_size

/-- The interface `e1` with address 10.0.1.1. -/
def secondInterface : VnsInterface where
  name := [101, 49]
  mac := [2, 0, 0, 0, 1, 2]
  ip := [10, 0, 1, 1]
  mask := [255, 255, 255, 0]
  mac_size := rfl
  ip_size := rfl
  mask_size := rfl

/-- The interface `e0` with address 10.0.0.1. -/
def firstInterface : SrIf := ⟨[101, 48], ⟨[2, 0, 0, 0, 1, 1], rfl⟩, 0x0100000a⟩

theorem srHandleHwinfo_hwinfoMessage_second : ∃ i : SrIf,
    srHandleHwinfo (fun _ => ⟨[], ⟨[0, 0, 0, 0, 0, 0], rfl⟩, 7⟩)
        [firstInterface] (hwinfoMessage [secondInterface]) = .ok ([firstInterface, i], 6) ∧
    i.name = [101, 49] ∧ i.addr.bytes = [2, 0, 0, 0, 1, 2] ∧ bytesLE32 i.ip = [10, 0, 1, 1] := by
  have named : ∀ v ∈ [secondInterface], v.name.length ≤ 31 ∧ 0 ∉ v.name := by
    intro v mem
    rw [List.mem_singleton.1 mem]
    decide
  have fits : 8 + (packHardwareInfo [secondInterface]).length < 2 ^ 32 := by
    rw [length_packHardwareInfo, length_entries]
    decide
  obtain ⟨new, read, same⟩ := srHandleHwinfo_hwinfoMessage
    (fun _ => ⟨[], ⟨[0, 0, 0, 0, 0, 0], rfl⟩, 7⟩) [firstInterface] named fits
  obtain ⟨i, rest, fields, none, rfl⟩ := List.forall₂_cons_right_iff.1 same
  rw [List.forall₂_nil_right_iff.1 none] at read
  exact ⟨i, read, fields⟩

end ComputerNetwork.Router
