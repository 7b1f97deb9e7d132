import ComputerNetwork.Lib.Cstring
import ComputerNetwork.Lib.InetAton
import ComputerNetwork.Lib.Run
import ComputerNetwork.Lib.Stdio
import ComputerNetwork.Router.Router

/-!
# Loading the routing table

`sr_load_rt` scans what each call of `fgets` stores into the same four buffers and adds an entry from
what is in them afterwards, whether anything was scanned or not.  `loads_iff` says for which files the
table is the one that the file describes.
-/

namespace ComputerNetwork.Router

open Lib

/-! ## The loader -/

/-- `BUFSIZ`. -/
def bufsiz : ℕ := 8192

/-- `char[32]`. -/
structure Char32 where
  bytes : List UInt8
  size : bytes.length = 32

namespace Char32

/-- The conversion `%s` of `sscanf`, if a word is left for it. -/
def scan (b : Char32) : Option (List UInt8) → Except Undefined Char32
  | none => .ok b
  | some word =>
    if fits : word.length < 32 then
      .ok { bytes := word ++ 0 :: b.bytes.drop (word.length + 1)
            size := by
              have size := b.size
              rw [List.length_append, List.length_cons, List.length_drop]
              omega }
    else .error .outOfBounds

def string (b : Char32) : Except Undefined (List UInt8) := cstr b.bytes 0

/-- What `strncpy` copies with the size of the buffer. -/
def name (b : Char32) : Name := b.bytes.takeWhile (· ≠ 0)

end Char32

/-- The buffers that `sr_load_rt` keeps from line to line. -/
structure RtBuffers where
  dest : Char32
  gw : Char32
  mask : Char32
  iface : Char32

/-- `sscanf(line, "%s %s %s %s", dest, gw, mask, iface)`. -/
def sscanf (b : RtBuffers) (line : List UInt8) : Except Undefined RtBuffers := do
  let found := words isspace (line.takeWhile (· ≠ 0))
  return { dest := ← b.dest.scan found[0]?, gw := ← b.gw.scan found[1]?,
           mask := ← b.mask.scan found[2]?, iface := ← b.iface.scan found[3]? }

/-- `sr_add_rt_entry`. -/
def srAddRtEntry (sr : SrInstance) (dest gw mask : UInt32) (ifName : Name) : SrInstance :=
  { sr with routingTable := sr.routingTable ++ [{ dest, gw, mask, interface := ifName }] }

/-- The loop of `sr_load_rt` over what `fgets` stores; `cleared` is `clear_routing_table`. -/
def loadLines : List (List UInt8) → RtBuffers → Bool → SrInstance → Except Undefined (ℤ × SrInstance)
  | [], _, _, sr => return (0, sr)
  | line :: rest, b, cleared, sr => do
    let b ← sscanf b line
    let some dest := inetAton (← b.dest.string) | return (-1, sr)
    let some gw := inetAton (← b.gw.string) | return (-1, sr)
    let some mask := inetAton (← b.mask.string) | return (-1, sr)
    let sr := if cleared then sr else { sr with routingTable := [] }
    loadLines rest b true (srAddRtEntry sr dest gw mask b.iface.name)

/-- What `fgets` stores of a file, call after call. -/
def pieces (file : List UInt8) : List (List UInt8) := fgetsAll (bufsiz - 1) file.length file

/-- `sr_load_rt` of a file, null when it cannot be read; `unset` is in the buffers at the start. -/
def srLoadRt (sr : SrInstance) (file : Option (List UInt8)) (unset : RtBuffers) :
    Except Undefined (ℤ × SrInstance) :=
  match file with
  | none => .ok (-1, sr)
  | some file => loadLines (pieces file) unset false sr

/-! ## What a file describes -/

/-- The entry of a line with four words that fit into the buffers, the first three of them addresses. -/
def entryOf (line : List UInt8) : Option SrRt :=
  match words isspace line with
  | [dest, gw, mask, interface] => do
    if 32 ≤ dest.length ∨ 32 ≤ gw.length ∨ 32 ≤ mask.length ∨ 32 ≤ interface.length then none
    else return { dest := ← inetAton dest, gw := ← inetAton gw, mask := ← inetAton mask, interface }
  | _ => none

def entries (file : List UInt8) : List SrRt := (textLines file).filterMap entryOf

/-- A text whose lines are entries or blank, and not all blank. -/
structure RoutingFile (file : List UInt8) : Prop where
  text : 0 ∉ file
  lines : ∀ l ∈ textLines file, words isspace l ≠ [] → (entryOf l).isSome
  some_ : ∃ l ∈ textLines file, words isspace l ≠ []

/-- When loading a file succeeds, the table has the entries of the file. -/
def Loads (file : List UInt8) : Prop :=
  ∀ unset sr sr', srLoadRt sr (some file) unset = .ok (0, sr') → sr'.routingTable = entries file

/-- The words of a piece that are taken for addresses are addresses. -/
def Addresses (line : List UInt8) : Prop :=
  ∀ word ∈ (words isspace line).take 3, (inetAton word).isSome

instance (line : List UInt8) : Decidable (Addresses line) := inferInstanceAs (Decidable (∀ _ ∈ _, _))

/-! ## The buffers -/

section Scan

variable {b b' : Char32} {word : List UInt8} {words_ : Option (List UInt8)}

/-- A buffer holds an address. -/
def Shows (b : Char32) (ip : UInt32) : Prop := ∃ t, b.string = .ok t ∧ inetAton t = some ip

theorem scan_some (nul : 0 ∉ word) (fits : word.length < 32) (b : Char32) :
    ∃ b', b.scan (some word) = .ok b' ∧ b'.string = .ok word ∧ b'.name = word := by
  refine ⟨_, dif_pos fits, cstr_append (u := []) nul, ?_⟩
  rw [Char32.name, List.takeWhile_append_of_pos fun c mem => by
    simpa using fun zero : c = 0 => nul (zero ▸ mem)]
  simp

theorem of_scan_some (nul : 0 ∉ word) (scanned : b.scan (some word) = .ok b') :
    b'.string = .ok word := by
  by_cases fits : word.length < 32
  · obtain ⟨c, found, text, -⟩ := scan_some nul fits b
    rw [found] at scanned
    cases scanned
    exact text
  · rw [Char32.scan, dif_neg fits] at scanned
    cases scanned

theorem isSome_of_shows {ip : UInt32} (nul : 0 ∉ word) (scanned : b.scan (some word) = .ok b')
    (shows_ : Shows b' ip) : (inetAton word).isSome := by
  obtain ⟨t, text, found⟩ := shows_
  obtain rfl := Except.ok.inj ((of_scan_some nul scanned).symm.trans text)
  rw [found]
  rfl

/-- A buffer with an address keeps one when the next word, if any, is an address. -/
theorem scan_shows (shows_ : ∃ ip, Shows b ip)
    (ok : ∀ word ∈ words_, 0 ∉ word ∧ word.length < 32 ∧ (inetAton word).isSome) :
    ∃ b', b.scan words_ = .ok b' ∧ ∃ ip, Shows b' ip := by
  cases words_ with
  | none => exact ⟨b, rfl, shows_⟩
  | some word =>
    obtain ⟨nul, fits, address⟩ := ok word rfl
    obtain ⟨b', scanned, text, -⟩ := scan_some nul fits b
    obtain ⟨ip, found⟩ := Option.isSome_iff_exists.1 address
    exact ⟨b', scanned, ip, word, text, found⟩

end Scan

/-! ## One line -/

section Line

variable {line : List UInt8} {rest : List (List UInt8)} {b b' : RtBuffers} {cleared : Bool}
  {sr sr' : SrInstance} {dest gw mask : UInt32}

/-- The table to which the first entries of a call are added. -/
def tableBefore (cleared : Bool) (sr : SrInstance) : List SrRt := if cleared then sr.routingTable else []

@[simp] theorem tableBefore_true (sr : SrInstance) : tableBefore true sr = sr.routingTable := rfl

theorem loadLines_cons (scanned : sscanf b line = .ok b') (atDest : Shows b'.dest dest)
    (atGw : Shows b'.gw gw) (atMask : Shows b'.mask mask) :
    loadLines (line :: rest) b cleared sr = loadLines rest b' true
      { sr with routingTable := tableBefore cleared sr ++ [⟨dest, gw, mask, b'.iface.name⟩] } := by
  obtain ⟨t₁, read₁, found₁⟩ := atDest
  obtain ⟨t₂, read₂, found₂⟩ := atGw
  obtain ⟨t₃, read₃, found₃⟩ := atMask
  rw [loadLines]
  simp only [scanned, read₁, found₁, read₂, found₂, read₃, found₃, bind, Except.bind, srAddRtEntry,
    tableBefore]
  cases cleared <;> rfl

theorem of_loadLines_cons (done : loadLines (line :: rest) b cleared sr = .ok (0, sr')) :
    ∃ b' dest gw mask, sscanf b line = .ok b' ∧ Shows b'.dest dest ∧ Shows b'.gw gw ∧
      Shows b'.mask mask := by
  rw [loadLines] at done
  obtain ⟨b', scanned, done⟩ := bind_eq_ok.1 done
  obtain ⟨t₁, read₁, done⟩ := bind_eq_ok.1 done
  cases found₁ : inetAton t₁ with
  | none =>
    rw [found₁] at done
    cases done
  | some dest =>
    rw [found₁] at done
    obtain ⟨t₂, read₂, done⟩ := bind_eq_ok.1 done
    cases found₂ : inetAton t₂ with
    | none =>
      rw [found₂] at done
      cases done
    | some gw =>
      rw [found₂] at done
      obtain ⟨t₃, read₃, done⟩ := bind_eq_ok.1 done
      cases found₃ : inetAton t₃ with
      | none =>
        rw [found₃] at done
        cases done
      | some mask =>
        exact ⟨b', dest, gw, mask, scanned, ⟨t₁, read₁, found₁⟩, ⟨t₂, read₂, found₂⟩,
          t₃, read₃, found₃⟩

theorem sscanf_eq (text : 0 ∉ line) (b : RtBuffers) : sscanf b line = (do
    return { dest := ← b.dest.scan (words isspace line)[0]?, gw := ← b.gw.scan (words isspace line)[1]?,
             mask := ← b.mask.scan (words isspace line)[2]?,
             iface := ← b.iface.scan (words isspace line)[3]? }) := by
  have whole : line.takeWhile (· ≠ 0) = line :=
    List.takeWhile_eq_self_iff.2 fun c mem => by simpa using fun zero : c = 0 => text (zero ▸ mem)
  rw [sscanf, whole]

theorem of_sscanf (text : 0 ∉ line) (scanned : sscanf b line = .ok b') :
    b.dest.scan (words isspace line)[0]? = .ok b'.dest ∧
      b.gw.scan (words isspace line)[1]? = .ok b'.gw ∧
      b.mask.scan (words isspace line)[2]? = .ok b'.mask := by
  rw [sscanf_eq text] at scanned
  obtain ⟨dest, first, scanned⟩ := bind_eq_ok.1 scanned
  obtain ⟨gw, second, scanned⟩ := bind_eq_ok.1 scanned
  obtain ⟨mask, third, scanned⟩ := bind_eq_ok.1 scanned
  obtain ⟨iface, -, scanned⟩ := bind_eq_ok.1 scanned
  cases scanned
  exact ⟨first, second, third⟩

theorem text_of_word {word : List UInt8} (text : 0 ∉ line) (mem : word ∈ words isspace line) :
    0 ∉ word := fun inside => text ((of_mem_words mem).2.2.subset inside)

/-- The buffers for addresses hold addresses. -/
def RtBuffers.Holds (b : RtBuffers) : Prop :=
  (∃ ip, Shows b.dest ip) ∧ (∃ ip, Shows b.gw ip) ∧ ∃ ip, Shows b.mask ip

theorem sscanf_holds (text : 0 ∉ line) (fits : ∀ word ∈ words isspace line, word.length < 32)
    (addresses : Addresses line) (holds : b.Holds) : ∃ b', sscanf b line = .ok b' ∧ b'.Holds := by
  have ok : ∀ i < 3, ∀ word ∈ (words isspace line)[i]?,
      0 ∉ word ∧ word.length < 32 ∧ (inetAton word).isSome := by
    intro i hi word at_
    have mem := List.mem_of_getElem? at_
    refine ⟨text_of_word text mem, fits word mem, addresses word ?_⟩
    exact List.mem_of_getElem? ((List.getElem?_take_of_lt hi).trans at_)
  obtain ⟨dest, first, atDest⟩ := scan_shows holds.1 (ok 0 (by decide))
  obtain ⟨gw, second, atGw⟩ := scan_shows holds.2.1 (ok 1 (by decide))
  obtain ⟨mask, third, atMask⟩ := scan_shows holds.2.2 (ok 2 (by decide))
  obtain ⟨iface, fourth⟩ : ∃ iface, b.iface.scan (words isspace line)[3]? = .ok iface := by
    cases at_ : (words isspace line)[3]? with
    | none => exact ⟨_, rfl⟩
    | some word => exact ⟨_, dif_pos (fits word (List.mem_of_getElem? at_))⟩
  refine ⟨⟨dest, gw, mask, iface⟩, ?_, atDest, atGw, atMask⟩
  rw [sscanf_eq text, first, second, third, fourth]
  rfl

theorem entryOf_eq_some {e : SrRt} (entry : entryOf line = some e) :
    ∃ dest gw mask, words isspace line = [dest, gw, mask, e.interface] ∧
      (dest.length < 32 ∧ gw.length < 32 ∧ mask.length < 32 ∧ e.interface.length < 32) ∧
      inetAton dest = some e.dest ∧ inetAton gw = some e.gw ∧ inetAton mask = some e.mask := by
  rw [entryOf] at entry
  split at entry
  · rename_i dest gw mask interface split_
    split_ifs at entry with long
    simp only [not_or, not_le] at long
    obtain ⟨a, first, entry⟩ := Option.bind_eq_some_iff.1 entry
    obtain ⟨g, second, entry⟩ := Option.bind_eq_some_iff.1 entry
    obtain ⟨m, third, entry⟩ := Option.bind_eq_some_iff.1 entry
    cases entry
    exact ⟨dest, gw, mask, split_, long, first, second, third⟩
  · cases entry

theorem sscanf_entry {e : SrRt} (text : 0 ∉ line) (entry : entryOf line = some e) (b : RtBuffers) :
    ∃ b', sscanf b line = .ok b' ∧ Shows b'.dest e.dest ∧ Shows b'.gw e.gw ∧ Shows b'.mask e.mask ∧
      b'.iface.name = e.interface := by
  obtain ⟨dest, gw, mask, split_, ⟨fits₁, fits₂, fits₃, fits₄⟩, found₁, found₂, found₃⟩ :=
    entryOf_eq_some entry
  have nul : ∀ word ∈ [dest, gw, mask, e.interface], 0 ∉ word := by
    rw [← split_]
    exact fun word mem => text_of_word text mem
  obtain ⟨b₁, first, text₁, -⟩ := scan_some (nul dest (by simp)) fits₁ b.dest
  obtain ⟨b₂, second, text₂, -⟩ := scan_some (nul gw (by simp)) fits₂ b.gw
  obtain ⟨b₃, third, text₃, -⟩ := scan_some (nul mask (by simp)) fits₃ b.mask
  obtain ⟨b₄, fourth, -, name⟩ := scan_some (nul e.interface (by simp)) fits₄ b.iface
  refine ⟨⟨b₁, b₂, b₃, b₄⟩, ?_, ⟨dest, text₁, found₁⟩, ⟨gw, text₂, found₂⟩, ⟨mask, text₃, found₃⟩, name⟩
  rw [sscanf_eq text, split_]
  simp only [List.getElem?_cons_zero, List.getElem?_cons_succ, first, second, third, fourth]
  rfl

end Line

/-! ## All lines -/

section Lines

variable {lines : List (List UInt8)} {b : RtBuffers} {cleared : Bool} {sr sr' : SrInstance}

/-- A word that is no address where one is expected makes the call fail. -/
theorem loadLines_reject (text : ∀ l ∈ lines, 0 ∉ l) (wrong : ∃ l ∈ lines, ¬ Addresses l) :
    loadLines lines b cleared sr ≠ .ok (0, sr') := by
  induction lines generalizing b cleared sr with
  | nil =>
    obtain ⟨l, mem, -⟩ := wrong
    cases mem
  | cons l lines ih =>
    intro done
    obtain ⟨b', dest, gw, mask, scanned, atDest, atGw, atMask⟩ := of_loadLines_cons done
    have plain := text l (List.mem_cons_self ..)
    by_cases here : Addresses l
    · rw [loadLines_cons scanned atDest atGw atMask] at done
      refine ih (fun l' mem => text l' (List.mem_cons_of_mem _ mem)) ?_ done
      obtain ⟨l', mem, bad⟩ := wrong
      rcases List.mem_cons.1 mem with rfl | mem
      · exact absurd here bad
      · exact ⟨l', mem, bad⟩
    · refine here fun word mem => ?_
      obtain ⟨i, at_⟩ := List.mem_iff_getElem?.1 mem
      rw [List.getElem?_take] at at_
      split_ifs at at_ with small
      have nul := text_of_word plain (List.mem_of_getElem? at_)
      obtain ⟨first, second, third⟩ := of_sscanf plain scanned
      interval_cases i
      · exact isSome_of_shows nul (at_ ▸ first) atDest
      · exact isSome_of_shows nul (at_ ▸ second) atGw
      · exact isSome_of_shows nul (at_ ▸ third) atMask

theorem length_loadLines (done : loadLines lines b cleared sr = .ok (0, sr'))
    (some_ : lines = [] → cleared = true) :
    sr'.routingTable.length = (tableBefore cleared sr).length + lines.length := by
  induction lines generalizing b cleared sr with
  | nil =>
    cases done
    rw [some_ rfl, tableBefore_true, List.length_nil, Nat.add_zero]
  | cons l lines ih =>
    obtain ⟨b', dest, gw, mask, scanned, atDest, atGw, atMask⟩ := of_loadLines_cons done
    rw [loadLines_cons scanned atDest atGw atMask] at done
    rw [ih done fun _ => rfl, tableBefore_true, List.length_append, List.length_singleton,
      List.length_cons]
    omega

/-- Nothing stops the loop while all that is scanned are addresses. -/
theorem exists_loadLines (text : ∀ l ∈ lines, 0 ∉ l)
    (fits : ∀ l ∈ lines, ∀ word ∈ words isspace l, word.length < 32)
    (addresses : ∀ l ∈ lines, Addresses l) (holds : b.Holds) :
    ∃ sr', loadLines lines b cleared sr = .ok (0, sr') := by
  induction lines generalizing b cleared sr with
  | nil => exact ⟨sr, rfl⟩
  | cons l lines ih =>
    obtain ⟨b', scanned, holds'⟩ := sscanf_holds (text l (List.mem_cons_self ..))
      (fits l (List.mem_cons_self ..)) (addresses l (List.mem_cons_self ..)) holds
    obtain ⟨⟨dest, atDest⟩, ⟨gw, atGw⟩, mask, atMask⟩ := id holds'
    rw [loadLines_cons scanned atDest atGw atMask]
    exact ih (fun l' mem => text l' (List.mem_cons_of_mem _ mem))
      (fun l' mem => fits l' (List.mem_cons_of_mem _ mem))
      (fun l' mem => addresses l' (List.mem_cons_of_mem _ mem)) holds'

theorem loadLines_entries (text : ∀ l ∈ lines, 0 ∉ l) (entries_ : ∀ l ∈ lines, (entryOf l).isSome)
    (some_ : lines = [] → cleared = true) :
    loadLines lines b cleared sr =
      .ok (0, { sr with routingTable := tableBefore cleared sr ++ lines.filterMap entryOf }) := by
  induction lines generalizing b cleared sr with
  | nil =>
    rw [some_ rfl, tableBefore_true, List.filterMap_nil, List.append_nil]
    rfl
  | cons l lines ih =>
    obtain ⟨e, entry⟩ := Option.isSome_iff_exists.1 (entries_ l (List.mem_cons_self ..))
    obtain ⟨b', scanned, atDest, atGw, atMask, name⟩ :=
      sscanf_entry (text l (List.mem_cons_self ..)) entry b
    rw [loadLines_cons scanned atDest atGw atMask,
      ih (fun l' mem => text l' (List.mem_cons_of_mem _ mem))
        (fun l' mem => entries_ l' (List.mem_cons_of_mem _ mem)) fun _ => rfl,
      List.filterMap_cons_some entry, name, tableBefore_true, List.append_assoc]
    rfl

end Lines

/-! ## Files -/

/-- The line of an entry, with any white space around its words. -/
theorem entryOf_line (rt : SrRt) {lead g₁ g₂ g₃ trail : List UInt8}
    (blank : ∀ c ∈ lead ++ g₁ ++ g₂ ++ g₃ ++ trail, isspace c = true) (apart₁ : g₁ ≠ [])
    (apart₂ : g₂ ≠ []) (apart₃ : g₃ ≠ []) (some_ : rt.interface ≠ [])
    (free : ∀ c ∈ rt.interface, isspace c = false) (short : rt.interface.length < 32) :
    entryOf (lead ++ (inetNtoa rt.dest ++ (g₁ ++ (inetNtoa rt.gw ++ (g₂ ++ (inetNtoa rt.mask ++
      (g₃ ++ (rt.interface ++ trail)))))))) = some rt := by
  simp only [List.mem_append] at blank
  have head : ∀ {g s : List UInt8}, g ≠ [] → (∀ c ∈ g, isspace c = true) →
      ∀ c ∈ (g ++ s).head?, isspace c = true := by
    intro g s apart all c first
    rw [List.head?_append_of_ne_nil g apart] at first
    exact all c (List.mem_of_head? first)
  have gap₁ : ∀ c ∈ g₁, isspace c = true := fun c mem => blank c (by simp [mem])
  have gap₂ : ∀ c ∈ g₂, isspace c = true := fun c mem => blank c (by simp [mem])
  have gap₃ : ∀ c ∈ g₃, isspace c = true := fun c mem => blank c (by simp [mem])
  have last : ∀ c ∈ trail, isspace c = true := fun c mem => blank c (by simp [mem])
  obtain ⟨some₁, free₁, short₁⟩ := inetNtoa_word rt.dest
  obtain ⟨some₂, free₂, short₂⟩ := inetNtoa_word rt.gw
  obtain ⟨some₃, free₃, short₃⟩ := inetNtoa_word rt.mask
  rw [entryOf, words_gap fun c mem => blank c (by simp [mem]), words_token some₁ free₁ (head apart₁ gap₁),
    words_gap gap₁, words_token some₂ free₂ (head apart₂ gap₂), words_gap gap₂,
    words_token some₃ free₃ (head apart₃ gap₃), words_gap gap₃,
    words_token some_ free fun c first => last c (List.mem_of_head? first), words_blank last]
  dsimp only
  rw [if_neg (by omega), inetAton_inetNtoa, inetAton_inetNtoa, inetAton_inetNtoa]
  rfl

section File

variable {file : List UInt8}

theorem text_of_piece (wf : RoutingFile file) {p : List UInt8} (mem : p ∈ pieces file) : 0 ∉ p := by
  obtain ⟨l, line, part⟩ := exists_line_of_mem mem
  exact fun nul => wf.text (mem_of_textLines line (part.subset nul))

/-- A file that is read line by line, without blank lines. -/
theorem srLoadRt_entries (wf : RoutingFile file)
    (plain : ∀ l ∈ textLines file, words isspace l ≠ [] ∧ l.length < bufsiz) (sr : SrInstance)
    (unset : RtBuffers) :
    srLoadRt sr (some file) unset = .ok (0, { sr with routingTable := entries file }) := by
  have read : pieces file = textLines file := fgetsAll_eq_textLines (by decide) le_rfl
    fun l mem => Nat.le_pred_of_lt (plain l mem).2
  have some_ : textLines file ≠ [] := by
    obtain ⟨l, mem, -⟩ := wf.some_
    exact List.ne_nil_of_mem mem
  rw [srLoadRt, loadLines_entries (fun p mem => text_of_piece wf mem)
    (fun p mem => wf.lines p (read ▸ mem) (plain p (read ▸ mem)).1)
    (fun none_ => absurd (read ▸ none_) some_), read]
  rfl

/-- `"0"` in a buffer. -/
def zeroAddress : Char32 where
  bytes := 48 :: List.replicate 31 0
  size := rfl

/-- A file that could be loaded, but has a blank line or one that does not fit, is not loaded right. -/
theorem not_loads (wf : RoutingFile file) (addresses : ∀ p ∈ pieces file, Addresses p)
    (wrong : ∃ l ∈ textLines file, words isspace l = [] ∨ bufsiz ≤ l.length) : ¬ Loads file := by
  intro loads
  have zero : ∃ ip, Shows zeroAddress ip := ⟨0, [48], rfl, by decide +kernel⟩
  have fits : ∀ p ∈ pieces file, ∀ word ∈ words isspace p, word.length < 32 := by
    intro p mem word inside
    obtain ⟨l, line, part⟩ := exists_line_of_mem mem
    obtain ⟨word', mem', part'⟩ := exists_word_of_infix inside part
    obtain ⟨e, entry⟩ := Option.isSome_iff_exists.1 (wf.lines l line (List.ne_nil_of_mem mem'))
    obtain ⟨dest, gw, mask, split_, short, -⟩ := entryOf_eq_some entry
    refine part'.length_le.trans_lt ?_
    rw [split_] at mem'
    simp only [List.mem_cons, List.not_mem_nil, or_false] at mem'
    rcases mem' with rfl | rfl | rfl | rfl <;> omega
  obtain ⟨sr', done⟩ : ∃ sr', loadLines (pieces file)
      ⟨zeroAddress, zeroAddress, zeroAddress, zeroAddress⟩ false (init [] []) = .ok (0, sr') :=
    exists_loadLines (fun p mem => text_of_piece wf mem) fits addresses ⟨zero, zero, zero⟩
  obtain ⟨more, fit⟩ := length_textLines_le (n := bufsiz - 1) (s := file) (by decide) le_rfl
  have some_ : pieces file ≠ [] := by
    obtain ⟨l, mem, -⟩ := wf.some_
    have long := List.length_pos_of_mem mem
    exact List.ne_nil_of_length_pos (by unfold pieces; omega)
  have count : (entries file).length = (pieces file).length := by
    rw [← loads _ _ _ done, length_loadLines done fun none_ => absurd none_ some_]
    exact Nat.zero_add _
  have few : (entries file).length ≤ (textLines file).length := List.length_filterMap_le _ _
  unfold pieces at count
  obtain ⟨l, mem, blank | long⟩ := wrong
  · have all : (entries file).length = (textLines file).length := by omega
    have entry := List.filterMap_length_eq_length.1 all l mem
    rw [entryOf, blank] at entry
    cases entry
  · have short := fit (by omega) l mem
    unfold bufsiz at long short
    omega

/-- A file is loaded right when `fgets` reads an entry each time, or else never. -/
theorem loads_iff (wf : RoutingFile file) :
    Loads file ↔ (∀ l ∈ textLines file, words isspace l ≠ [] ∧ l.length < bufsiz) ∨
      ∃ p ∈ pieces file, ¬ Addresses p := by
  constructor
  · intro loads
    by_cases addresses : ∀ p ∈ pieces file, Addresses p
    · refine Or.inl fun l mem => ⟨fun blank => ?_, lt_of_not_ge fun long => ?_⟩
      · exact not_loads wf addresses ⟨l, mem, Or.inl blank⟩ loads
      · exact not_loads wf addresses ⟨l, mem, Or.inr long⟩ loads
    · simp only [not_forall, exists_prop] at addresses
      exact Or.inr addresses
  · rintro (plain | wrong) unset sr sr' done
    · rw [srLoadRt_entries wf plain] at done
      cases done
      rfl
    · exact absurd done (loadLines_reject (fun p mem => text_of_piece wf mem) wrong)

/-- `1.2.3.4 1.2.3.4 1.2.3.4 e`. -/
theorem loads_iff_line : Loads [49, 46, 50, 46, 51, 46, 52, 32, 49, 46, 50, 46, 51, 46, 52, 32, 49, 46,
    50, 46, 51, 46, 52, 32, 101, 10] :=
  (loads_iff ⟨by decide +kernel, by decide +kernel, by decide +kernel⟩).2
    (Or.inl (by decide +kernel))

/-- The file `rtable`: three entries and two blank lines. -/
def rtable : List UInt8 :=
  [49, 57, 50, 46, 49, 54, 56, 46, 50, 46, 50, 32, 32, 32, 49, 57, 50, 46, 49, 54, 56, 46, 50, 46,
    50, 32, 32, 32, 32, 50, 53, 53, 46, 50, 53, 53, 46, 50, 53, 53, 46, 50, 53, 53, 32, 32, 32, 32,
    101, 116, 104, 49, 10, 49, 55, 50, 46, 54, 52, 46, 51, 46, 49, 48, 32, 32, 32, 49, 55, 50, 46,
    54, 52, 46, 51, 46, 49, 48, 32, 32, 32, 32, 50, 53, 53, 46, 50, 53, 53, 46, 50, 53, 53, 46, 50,
    53, 53, 32, 32, 32, 32, 101, 116, 104, 50, 10, 49, 48, 46, 48, 46, 49, 46, 49, 48, 48, 32, 32,
    32, 32, 49, 48, 46, 48, 46, 49, 46, 49, 48, 48, 32, 32, 32, 32, 32, 50, 53, 53, 46, 50, 53, 53,
    46, 50, 53, 53, 46, 50, 53, 53, 32, 32, 32, 32, 101, 116, 104, 51, 10, 10, 10]

theorem not_loads_rtable : ¬ ∀ file, RoutingFile file → Loads file := by
  intro all
  have wf : RoutingFile rtable := ⟨by decide +kernel, by decide +kernel, by decide +kernel⟩
  exact not_loads wf (by decide +kernel) (by decide +kernel) (all rtable wf)

end File

end ComputerNetwork.Router
