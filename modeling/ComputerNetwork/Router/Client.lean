import ComputerNetwork.Router.CommandReader
import ComputerNetwork.Router.Emission
import ComputerNetwork.Router.VnsMessages
import ComputerNetwork.Lib.Cstring

/-!
# The client of the virtual network

All of `sr_read_from_server_expect`: the loops that read a command (`CommandReader`) and the branches of
its `switch`, with `sr_handle_hwinfo`, `sr_handle_rtable`, `sr_handle_auth_request` and
`sr_handle_auth_status`; and the callers, `sr_connect_to_server` and the loop of `main`.

`hear` is what a message should do to the client.  `serve_framed` says that the `switch` does it to the
bytes of the message, `readFromServer_iff` that the function does it to a stream that begins with them,
however the calls on the socket cut it up, and `mainLoop_iff` that the loop of `main` does it for message
after message until one of them ends it.  `authReply_determined` tells when the answer to a request for
authentication depends on the stack.
-/

namespace ComputerNetwork.Router

open Lib

/-! ## The client -/

/-- The members of `struct sr_instance` that the client uses. -/
structure Client where
  sr : SrInstance
  user : Name

/-- What the machine holds while a command is served: the file `auth_key`, if there is one, what the array
of this name holds on the stack, what is on the heap, and whether a file can be opened and a `send` takes
all bytes. -/
structure Host where
  authKey : Option (List UInt8)
  stack : ℕ → UInt8
  sha : Sha1Context
  heap : ℕ → SrIf
  opens : Bool
  sends : Bool

/-- What a command makes the client do. -/
inductive Effect where
  /-- `sr_handlepacket` is called. -/
  | handed (frame : List UInt8) (interface : Name)
  /-- The text of a message is printed; the words around it are left out. -/
  | printed (text : List UInt8)
  | wrote (file contents : List UInt8)
  | sent (command : Command)

/-- What `sr_read_from_server_expect` leaves and returns. -/
structure Served where
  client : Client
  effects : List Effect
  ret : ℤ

/-- `ret`, of a handler that returns zero when it fails. -/
def retOf (ok : Bool) : ℤ := if ok then 1 else -1

/-! ## Handlers -/

def rtableFile : List UInt8 := [114, 116, 97, 98, 108, 101, 46]

/-- The string at `p` of a buffer. -/
def stringAt (buf : List UInt8) (p : ℕ) : Except Stop (List UInt8) :=
  match cstr buf p with
  | .ok s => .ok s
  | .error _ => .error .outOfBounds

/-- `sr_handle_rtable`, with the array `fn` of 40 bytes. -/
def srHandleRtable (host : Host) (buf : List UInt8) : Except Stop (List Effect × Bool) := do
  let name ← stringAt buf 8
  if 40 < (rtableFile ++ name).length + 1 then .error .outOfBounds
  else if host.opens then
    if buf.length < 40 then .error .outOfBounds
    else return ([.wrote (rtableFile ++ name) (buf.drop 40)], true)
  else return ([], false)

/-- `fgets`, of a line into an array of `n + 1` bytes. -/
def fgetsLine (n : ℕ) (contents : List UInt8) : List UInt8 :=
  let start := contents.take n
  start.takeWhile (· ≠ 10) ++ (if 10 ∈ start then [10] else [])

/-- `AUTH_KEY_LEN` bytes of `auth_key`: the line, its end and what the stack holds behind it. -/
def authKeyBytes (contents : List UInt8) (stack : ℕ → UInt8) : List UInt8 :=
  (List.range 64).map fun i => (fgetsLine 64 contents ++ [0]).getD i (stack i)

/-- `sr_handle_auth_request`. -/
def srHandleAuthRequest (host : Host) (user : Name) (salt : List UInt8) :
    Except Stop (List Effect × Bool) :=
  match host.authKey with
  | none => return ([], false)
  | some contents =>
    if contents = [] then return ([], false)
    else
      let digest := do
        let context ← sha1Input (sha1Reset host.sha) salt
        let context ← sha1Input context (authKeyBytes contents host.stack)
        sha1Result context
      match digest with
      | none => .error .outOfBounds
      | some (_, false) => return ([], false)
      | some (context, true) =>
        if host.sends then return ([.sent (.authReply user context.messageDigest)], true)
        else return ([], false)

/-- `sr_handle_auth_status`. -/
def srHandleAuthStatus (buf : List UInt8) : Except Stop (List Effect × Bool) := do
  if buf.length < 9 then .error .outOfBounds
  else if load8 buf 8 ≠ 0 then return ([], true)
  else return ([.printed (← stringAt buf 9)], false)

/-- The case of `VNSHWINFO`. -/
def srHandleHwinfoCase (host : Host) (client : Client) (buf : List UInt8) : Except Stop Served :=
  match srHandleHwinfo host.heap client.sr.ifList buf with
  | .error .outOfBounds => .error .outOfBounds
  | .error .assertion => .error .assertion
  | .ok (ifList, _) =>
    let client := { client with sr := { client.sr with ifList } }
    return ⟨client, [], retOf (srVerifyRoutingTable client.sr = 0)⟩

/-- The `switch`, on a command that has come.  No handler looks at the type again, which the buffer now
holds in the order of the host. -/
def serve (host : Host) (client : Client) (behind : List UInt8) (expectedCmd : UInt32)
    (buf : List UInt8) : Except Stop Served := do
  let handled (result : List Effect × Bool) : Served := ⟨client, result.1, retOf result.2⟩
  match ← dispatch client.sr.ifList behind expectedCmd buf with
  | .dropped => return ⟨client, [], 1⟩
  | .handed buf packet len interface =>
    if buf.length < packet + len then .error .outOfBounds
    else return ⟨client, [.handed ((buf.drop packet).take len) interface], 1⟩
  | .other command =>
    if command = 2 then return ⟨client, [.printed (← stringAt buf 8)], 0⟩
    else if command = 8 then return ⟨client, [.printed (← stringAt buf 8)], 1⟩
    else if command = 16 then srHandleHwinfoCase host client buf
    else if command = 32 then return handled (← srHandleRtable host buf)
    else if command = 128 then
      return handled (← srHandleAuthRequest host client.user (buf.drop 8))
    else if command = 512 then return handled (← srHandleAuthStatus buf)
    else return ⟨client, [], 1⟩

/-- The two loops, with what they leave on the socket. -/
def ReceiveCommand (server : VnsServer) (memory : BlockMemory) (rest : List UInt8) (calls : ℕ) :
    Except Stop Incoming → Prop :=
  andThen ((receiveTurn server 0 4).Ends ⟨(List.range 4).map memory.unset, 0, rest, calls⟩)
    fun s => andThen (allocate memory (loadBE32 s.block 0) = ·)
      fun buf => (receiveTurn server 4 (buf.length - 4)).Ends { s with block := buf, bytesRead := 0 }

/-- `sr_read_from_server_expect` comes to `r`: what was served, and what is left on the socket. -/
def ReadFromServer (server : VnsServer) (memory : BlockMemory) (host : Host) (client : Client)
    (expectedCmd : UInt32) (rest : List UInt8) (calls : ℕ) :
    Except Stop (Served × List UInt8 × ℕ) → Prop :=
  andThen (ReceiveCommand server memory rest calls)
    fun s r => (serve host client memory.behind expectedCmd s.block).map
      (fun served => (served, s.rest, s.calls)) = r

/-- The loop of `main`, where the `n`-th command is served on the machine `hosts n`: it is left with the
client and with what the last call returns, or the process is stopped in a call.  A call that returns -1
because of the command is left with `Stop.failed`. -/
inductive MainLoop (server : VnsServer) (memory : BlockMemory) (hosts : ℕ → Host) :
    ℕ → Client → List UInt8 → ℕ → List Effect → Except Stop (Client × ℤ) → Prop
  | leave {n client rest calls served rest' calls'}
      (read : ReadFromServer server memory (hosts n) client 0 rest calls (.ok (served, rest', calls')))
      (last : served.ret ≠ 1) :
      MainLoop server memory hosts n client rest calls served.effects (.ok (served.client, served.ret))
  | stop {n client rest calls e}
      (read : ReadFromServer server memory (hosts n) client 0 rest calls (.error e)) :
      MainLoop server memory hosts n client rest calls [] (.error e)
  | next {n client rest calls served rest' calls' effects r}
      (read : ReadFromServer server memory (hosts n) client 0 rest calls (.ok (served, rest', calls')))
      (again : served.ret = 1)
      (loop : MainLoop server memory hosts (n + 1) served.client rest' calls' effects r) :
      MainLoop server memory hosts n client rest calls (served.effects ++ effects) r

/-- The model of the function up to its `switch` has the same two loops. -/
theorem srReadFromServerExpect_iff {ifList : List SrIf} {server : VnsServer} {memory : BlockMemory}
    {expectedCmd : UInt32} {r : Except Stop Dispatched} :
    SrReadFromServerExpect ifList server memory expectedCmd r ↔
      andThen (ReceiveCommand server memory server.stream 0)
        (fun s => (dispatch ifList memory.behind expectedCmd s.block = ·)) r := by
  simp only [ReceiveCommand, andThen_assoc]
  rfl

/-! ## What a message should do -/

/-- The case of a packet: an ARP request for another router is dropped. -/
def hearPacket (client : Client) (intfName frame : List UInt8) : Except Stop Served :=
  match srArpReqNotForUs client.sr.ifList frame frame.length intfName with
  | .error e => .error e
  | .ok true => .ok ⟨client, [], 1⟩
  | .ok false => .ok ⟨client, [.handed frame intfName], 1⟩

/-- The case of a request for authentication: the answer is the digest of the salt and the key. -/
def hearAuthRequest (host : Host) (client : Client) (salt : List UInt8) : Served :=
  match host.authKey with
  | none => ⟨client, [], -1⟩
  | some contents =>
    if contents = [] ∨ host.sends = false then ⟨client, [], -1⟩
    else ⟨client, [.sent (.authReply client.user
      (sha1 (salt ++ authKeyBytes contents host.stack)))], 1⟩

/-- What a message should do to the client. -/
def hear (host : Host) (client : Client) : VnsMessage → Except Stop Served
  | .packet intfName frame => hearPacket client intfName frame
  | .close msg => .ok ⟨client, [.printed msg], 0⟩
  | .banner msg => .ok ⟨client, [.printed msg], 1⟩
  | .hardwareInfo interfaces =>
    let sr := { client.sr with ifList := client.sr.ifList ++ interfaces.map VnsInterface.toSrIf }
    .ok ⟨{ client with sr }, [], retOf (srVerifyRoutingTable sr = 0)⟩
  | .rtable vrhost table =>
    .ok (if host.opens then ⟨client, [.wrote (rtableFile ++ vrhost) table], 1⟩ else ⟨client, [], -1⟩)
  | .authRequest salt => .ok (hearAuthRequest host client salt)
  | .authStatus authOk msg =>
    .ok (if authOk then ⟨client, [], 1⟩ else ⟨client, [.printed (msg.takeWhile (· ≠ 0))], -1⟩)
  | .openTopology .. | .openTemplate .. | .authReply .. => .ok ⟨client, [], 1⟩

/-- The same where a type is expected; the end of the session is always expected. -/
def hearExpecting (expectedCmd : UInt32) (host : Host) (client : Client) (m : VnsMessage) :
    Except Stop Served :=
  if expectedCmd = 0 ∨ m.getType = expectedCmd.toNat ∨ m.getType = 2 then hear host client m
  else .error .failed

/-- What one message after the other should do, up to one that ends the session; no result where none
does. -/
def hearAll (hosts : ℕ → Host) : ℕ → Client → List VnsMessage →
    Option (List Effect × Except Stop (Client × ℤ))
  | _, _, [] => none
  | n, client, m :: ms =>
    match hear (hosts n) client m with
    | .error e => some ([], .error e)
    | .ok served =>
      if served.ret = 1 then
        (hearAll hosts (n + 1) served.client ms).map fun (effects, r) => (served.effects ++ effects, r)
      else some (served.effects, .ok (served.client, served.ret))

/-- A message that fits the buffer and the arrays of the client. -/
def Sendable (m : VnsMessage) : Prop :=
  8 + m.pack.length ≤ 10000 ∧
    match m with
    | .packet intfName _ => Holdable 15 intfName
    | .close msg => Holdable 255 msg
    | .banner msg => Holdable 255 msg
    | .hardwareInfo interfaces => ∀ v ∈ interfaces, Holdable 31 v.name
    | .rtable vrhost _ => Holdable 31 vrhost
    | .authStatus authOk msg => authOk = true ∨ 0 ∈ msg
    | _ => True

/-- From the call `calls` on no call on the socket fails, and again and again one takes bytes. -/
def Patient (server : VnsServer) (calls : ℕ) : Prop :=
  (∀ k, calls ≤ k → server.calls k ≠ .fails) ∧
    ∀ k, calls ≤ k → ∃ j, k ≤ j ∧ server.calls j ≠ .interrupted

/-! ## Commands in a buffer -/

section Serve

variable {host : Host} {client : Client} {behind : List UInt8} {expectedCmd : UInt32}
  {m : VnsMessage}

theorem VnsMessage.framed_spec (m : VnsMessage) :
    loadBE32 m.framed 4 = UInt32.ofNat m.getType ∧ m.framed.drop 8 = m.pack ∧
      m.framed.length = 8 + m.pack.length := by
  obtain ⟨-, type, body, size⟩ :=
    framed_fields (UInt32.ofNat (8 + m.pack.length)) (UInt32.ofNat m.getType) m.pack
  exact ⟨type, body, size⟩

theorem VnsMessage.getType_lt (m : VnsMessage) : m.getType < 2 ^ 32 := by
  cases m <;> simp [VnsMessage.getType]

theorem type_eq_iff (m : VnsMessage) (cmd : UInt32) :
    UInt32.ofNat m.getType = cmd ↔ m.getType = cmd.toNat := by
  rw [← UInt32.toNat_inj, UInt32.toNat_ofNat', Nat.mod_eq_of_lt m.getType_lt]

theorem unwanted_iff (m : VnsMessage) (expectedCmd : UInt32) :
    (expectedCmd ≠ 0 ∧ UInt32.ofNat m.getType ≠ expectedCmd ∧ UInt32.ofNat m.getType ≠ vnsClose) ↔
      ¬ (expectedCmd = 0 ∨ m.getType = expectedCmd.toNat ∨ m.getType = 2) := by
  rw [Ne, Ne, Ne, type_eq_iff, type_eq_iff, not_or, not_or]
  rfl

theorem dispatch_other (other : m.getType ≠ 4) (ifList : List SrIf) :
    dispatch ifList behind expectedCmd m.framed =
      if expectedCmd = 0 ∨ m.getType = expectedCmd.toNat ∨ m.getType = 2 then
        .ok (.other (UInt32.ofNat m.getType))
      else .error .failed := by
  obtain ⟨type, -, size⟩ := m.framed_spec
  have noPacket : UInt32.ofNat m.getType ≠ vnsPacket := fun same =>
    other ((type_eq_iff m vnsPacket).1 same)
  rw [dispatch_eq (by omega)]
  dsimp only
  rw [type, if_neg noPacket]
  by_cases wanted : expectedCmd = 0 ∨ m.getType = expectedCmd.toNat ∨ m.getType = 2
  · rw [if_pos wanted, if_neg fun no => (unwanted_iff _ _).1 no wanted]
  · rw [if_neg wanted, if_pos ((unwanted_iff _ _).2 wanted)]

theorem takeWhile_append_zero {s rest : List UInt8} (nul : 0 ∉ s) :
    (s ++ 0 :: rest).takeWhile (· ≠ 0) = s := by
  have inside : ∀ c ∈ s, decide (c ≠ 0) = true := fun c mem =>
    decide_eq_true fun zero => nul (zero ▸ mem)
  rw [List.takeWhile_append_of_pos inside, List.takeWhile_cons_of_neg (by simp), List.append_nil]

theorem exists_packString {n : ℕ} {s : List UInt8} (short : s.length < n) :
    ∃ k, packString n s = s ++ 0 :: List.replicate k 0 :=
  ⟨n - s.length - 1, by
    rw [packString_eq short.le, ← List.replicate_succ]
    congr 2
    omega⟩

theorem interfaceName_framed {intfName : List UInt8} (holds : Holdable 15 intfName)
    (frame behind : List UInt8) :
    interfaceName ((VnsMessage.packet intfName frame).framed ++ behind) = intfName := by
  obtain ⟨nul, short⟩ := holds
  obtain ⟨-, body, size⟩ := (VnsMessage.packet intfName frame).framed_spec
  obtain ⟨k, padded⟩ := exists_packString (show intfName.length < 16 by omega)
  have memory : ((VnsMessage.packet intfName frame).framed ++ behind).drop sizeofBase =
      intfName ++ 0 :: (List.replicate k 0 ++ (frame ++ behind)) := by
    rw [sizeofBase, List.drop_append_of_le_length (by omega), body, VnsMessage.pack, padded]
    simp
  have cut : 32 - intfName.length = 31 - intfName.length + 1 := by omega
  rw [interfaceName, memory, List.take_append, List.take_of_length_le (by omega), cut,
    List.take_succ_cons, takeWhile_append_zero nul]

theorem load8_append {a : List UInt8} {i : ℕ} (inside : i < a.length) (b : List UInt8) :
    load8 (a ++ b) i = load8 a i := by
  rw [load8, load8, List.getD_eq_getElem?_getD, List.getD_eq_getElem?_getD,
    List.getElem?_append_left inside]

theorem srArpReqNotForUs_append (ifList : List SrIf) (frame behind : List UInt8) (interface : Name) :
    srArpReqNotForUs ifList (frame ++ behind) frame.length interface =
      srArpReqNotForUs ifList frame frame.length interface := by
  unfold srArpReqNotForUs
  by_cases short : frame.length < sizeofEthernet + sizeofArp
  · rw [if_pos short, if_pos short]
  · have long : 42 ≤ frame.length := Nat.le_of_not_lt short
    have byte : ∀ i < 42, load8 (frame ++ behind) i = load8 frame i := fun i small =>
      load8_append (by omega) behind
    have type : etherType (frame ++ behind) = etherType frame := by
      unfold etherType loadBE16
      rw [byte 12 (by omega), byte (12 + 1) (by omega)]
    have op : arOp (frame ++ behind) = arOp frame := by
      unfold arOp loadBE16
      rw [byte 20 (by omega), byte (20 + 1) (by omega)]
    have tip : arTip (frame ++ behind) = arTip frame := by
      unfold arTip loadLE32
      rw [byte 38 (by omega), byte (38 + 1) (by omega), byte (38 + 2) (by omega),
        byte (38 + 3) (by omega)]
    rw [if_neg short, if_neg short, type, op, tip]

theorem dispatch_packet {intfName frame : List UInt8} (holds : Holdable 15 intfName)
    (small : frame.length + 24 ≤ 10000) (ifList : List SrIf) :
    dispatch ifList behind expectedCmd (VnsMessage.packet intfName frame).framed =
      if expectedCmd = 0 ∨ (VnsMessage.packet intfName frame).getType = expectedCmd.toNat ∨
          (VnsMessage.packet intfName frame).getType = 2 then
        match srArpReqNotForUs ifList frame frame.length intfName with
        | .error e => .error e
        | .ok true => .ok .dropped
        | .ok false => .ok (.handed (splice (VnsMessage.packet intfName frame).framed 4
            (bytesLE32 (loadBE32 (VnsMessage.packet intfName frame).framed 4))) 24 frame.length
            intfName)
      else .error .failed := by
  obtain ⟨type, body, size⟩ := (VnsMessage.packet intfName frame).framed_spec
  have pack : (VnsMessage.packet intfName frame).pack.length = 16 + frame.length := by
    rw [VnsMessage.pack, List.length_append, length_packString]
  have len : packetLen (VnsMessage.packet intfName frame).framed.length = frame.length := by
    rw [packetLen_eq (by omega), if_pos (by omega)]
    omega
  have front : ((VnsMessage.packet intfName frame).framed ++ behind).drop sizeofPacketHeader =
      frame ++ behind := by
    have whole : (VnsMessage.packet intfName frame).framed.drop sizeofPacketHeader = frame := by
      rw [show sizeofPacketHeader = 8 + 16 from rfl, ← List.drop_drop, body]
      exact List.drop_left' (length_packString ..)
    rw [List.drop_append_of_le_length (by rw [sizeofPacketHeader]; omega), whole]
  have packet : UInt32.ofNat (VnsMessage.packet intfName frame).getType = vnsPacket := rfl
  rw [dispatch_eq (by omega)]
  dsimp only
  rw [type, interfaceName_framed holds, len, front, srArpReqNotForUs_append]
  by_cases wanted : expectedCmd = 0 ∨ (VnsMessage.packet intfName frame).getType =
      expectedCmd.toNat ∨ (VnsMessage.packet intfName frame).getType = 2
  · rw [if_pos wanted, if_neg fun no => (unwanted_iff _ _).1 no wanted, if_pos packet]
    rfl
  · rw [if_neg wanted, if_pos ((unwanted_iff _ _).2 wanted)]

theorem serve_packet {intfName frame : List UInt8} (holds : Holdable 15 intfName)
    (small : frame.length + 24 ≤ 10000) :
    serve host client behind expectedCmd (VnsMessage.packet intfName frame).framed =
      hearExpecting expectedCmd host client (.packet intfName frame) := by
  obtain ⟨-, body, size⟩ := (VnsMessage.packet intfName frame).framed_spec
  have pack : (VnsMessage.packet intfName frame).pack.length = 16 + frame.length := by
    rw [VnsMessage.pack, List.length_append, length_packString]
  rw [serve, dispatch_packet holds small, hearExpecting, hear, hearPacket]
  split_ifs with wanted
  · cases srArpReqNotForUs client.sr.ifList frame frame.length intfName with
    | error e => rfl
    | ok drops =>
      cases drops with
      | true => rfl
      | false =>
        have fits : 4 + (bytesLE32 (loadBE32 (VnsMessage.packet intfName frame).framed 4)).length ≤
            (VnsMessage.packet intfName frame).framed.length := by
          rw [length_bytesLE32]
          omega
        have rest : (splice (VnsMessage.packet intfName frame).framed 4
            (bytesLE32 (loadBE32 (VnsMessage.packet intfName frame).framed 4))).drop 24 = frame := by
          rw [drop_splice (by rw [length_bytesLE32]; omega) (by omega), show 24 = 8 + 16 from rfl,
            ← List.drop_drop, body]
          exact List.drop_left' (length_packString ..)
        simp only [bind, Except.bind, pure, Except.pure, length_splice fits, rest, List.take_length]
        rw [if_neg (by omega)]
  · rfl

theorem serve_other (other : m.getType ≠ 4) :
    serve host client behind expectedCmd m.framed =
      if expectedCmd = 0 ∨ m.getType = expectedCmd.toNat ∨ m.getType = 2 then
        serve host client behind 0 m.framed
      else .error .failed := by
  have any : (0 : UInt32) = 0 ∨ m.getType = (0 : UInt32).toNat ∨ m.getType = 2 := .inl rfl
  rw [serve, serve, dispatch_other other, dispatch_other other, if_pos any]
  split_ifs <;> rfl

theorem stringAt_eq {buf s rest : List UInt8} {p : ℕ} (nul : 0 ∉ s) (there : buf.drop p = s ++ 0 :: rest) :
    stringAt buf p = .ok s := by
  have inside : cstr buf p = .ok s := by
    rw [cstr, there, if_pos (by simp), takeWhile_append_zero nul]
  rw [stringAt, inside]

theorem stringAt_framed {n : ℕ} {s : List UInt8} (holds : 0 ∉ s ∧ s.length < n)
    {rest : List UInt8} (body : m.pack = packString n s ++ rest) :
    stringAt m.framed 8 = .ok s := by
  obtain ⟨k, padded⟩ := exists_packString holds.2
  have there : m.framed.drop 8 = s ++ 0 :: (List.replicate k 0 ++ rest) := by
    rw [m.framed_spec.2.1, body, padded]
    simp
  exact stringAt_eq holds.1 there

theorem serve_switch (other : m.getType ≠ 4) :
    serve host client behind 0 m.framed =
      let command := UInt32.ofNat m.getType
      let handled (result : List Effect × Bool) : Served := ⟨client, result.1, retOf result.2⟩
      if command = 2 then (stringAt m.framed 8).map fun s => ⟨client, [.printed s], 0⟩
      else if command = 8 then (stringAt m.framed 8).map fun s => ⟨client, [.printed s], 1⟩
      else if command = 16 then srHandleHwinfoCase host client m.framed
      else if command = 32 then (srHandleRtable host m.framed).map handled
      else if command = 128 then
        (srHandleAuthRequest host client.user (m.framed.drop 8)).map handled
      else if command = 512 then (srHandleAuthStatus m.framed).map handled
      else .ok ⟨client, [], 1⟩ := by
  rw [serve, dispatch_other other, if_pos (.inl rfl)]
  rfl

theorem serve_close {msg : List UInt8} (holds : Holdable 255 msg) :
    serve host client behind 0 (VnsMessage.close msg).framed =
      hear host client (.close msg) := by
  have text : stringAt (VnsMessage.close msg).framed 8 = .ok msg :=
    stringAt_framed ⟨holds.1, Nat.lt_succ_of_le holds.2⟩ (List.append_nil _).symm
  rw [serve_switch (by simp [VnsMessage.getType]), text]
  rfl

theorem serve_banner {msg : List UInt8} (holds : Holdable 255 msg) :
    serve host client behind 0 (VnsMessage.banner msg).framed =
      hear host client (.banner msg) := by
  have text : stringAt (VnsMessage.banner msg).framed 8 = .ok msg :=
    stringAt_framed ⟨holds.1, Nat.lt_succ_of_le holds.2⟩ (List.append_nil _).symm
  rw [serve_switch (by simp [VnsMessage.getType]), text]
  rfl

/-- The interfaces are read from the entries of the message. -/
theorem srHandleHwinfo_framed {interfaces : List VnsInterface} (heap : ℕ → SrIf) (ifList : List SrIf)
    (named : ∀ v ∈ interfaces, Holdable 31 v.name)
    (small : 8 + (packHardwareInfo interfaces).length ≤ 10000) :
    srHandleHwinfo heap ifList (hwinfoMessage interfaces) =
      .ok (ifList ++ interfaces.map VnsInterface.toSrIf, ((6 * interfaces.length : ℕ) : ℤ)) := by
  have length := length_packHardwareInfo interfaces
  rw [length_entries] at length
  have count : numEntries (loadBE32 (hwinfoMessage interfaces) 0) =
      ((6 * interfaces.length : ℕ) : ℤ) := by
    rw [hwinfoMessage, loadBE32_bytesBE32, length]
    exact numEntries_eq (by omega)
  have walk : (List.range (6 * interfaces.length)).foldlM
      (fun ifList i => hwEntry (hwinfoMessage interfaces) i >>= handleEntry heap ifList) ifList =
      .ok (ifList ++ interfaces.map VnsInterface.toSrIf) := by
    rw [← length_entries, foldlM_range _ _ fun i e get => hwEntry_hwinfoMessage get]
    exact foldlM_interfaces heap ifList fun v mem => ⟨(named v mem).2, (named v mem).1⟩
  have enough : ¬ (hwinfoMessage interfaces).length < 8 := by
    rw [length_hwinfoMessage]
    omega
  unfold srHandleHwinfo
  rw [if_neg enough]
  dsimp only
  rw [count, Int.toNat_natCast, walk]
  rfl

theorem serve_hardwareInfo {interfaces : List VnsInterface}
    (named : ∀ v ∈ interfaces, Holdable 31 v.name)
    (small : 8 + (packHardwareInfo interfaces).length ≤ 10000) :
    serve host client behind 0 (VnsMessage.hardwareInfo interfaces).framed =
      hear host client (.hardwareInfo interfaces) := by
  have read := srHandleHwinfo_framed host.heap client.sr.ifList named small
  have same : (VnsMessage.hardwareInfo interfaces).framed = hwinfoMessage interfaces := rfl
  have type : UInt32.ofNat (VnsMessage.hardwareInfo interfaces).getType = 16 := rfl
  rw [serve_switch (by simp [VnsMessage.getType]), same]
  dsimp only
  rw [type, if_neg (by decide), if_neg (by decide), if_pos rfl, srHandleHwinfoCase, read]
  rfl

theorem serve_rtable {vrhost table : List UInt8} (holds : Holdable 31 vrhost) :
    serve host client behind 0 (VnsMessage.rtable vrhost table).framed =
      hear host client (.rtable vrhost table) := by
  obtain ⟨-, body, size⟩ := (VnsMessage.rtable vrhost table).framed_spec
  have pack : (VnsMessage.rtable vrhost table).pack = packString 32 vrhost ++ table := rfl
  have text : stringAt (VnsMessage.rtable vrhost table).framed 8 = .ok vrhost :=
    stringAt_framed ⟨holds.1, Nat.lt_succ_of_le holds.2⟩ pack
  have rest : (VnsMessage.rtable vrhost table).framed.drop 40 = table := by
    rw [show 40 = 8 + 32 from rfl, ← List.drop_drop, body, pack]
    exact List.drop_left' (length_packString ..)
  have long : ¬ (VnsMessage.rtable vrhost table).framed.length < 40 := by
    rw [size, pack, List.length_append, length_packString]
    omega
  have fits : ¬ 40 < (rtableFile ++ vrhost).length + 1 := by
    rw [List.length_append, show rtableFile.length = 7 from rfl]
    have := holds.2
    omega
  have handled : srHandleRtable host (VnsMessage.rtable vrhost table).framed =
      .ok (if host.opens then ([.wrote (rtableFile ++ vrhost) table], true) else ([], false)) := by
    rw [srHandleRtable, text]
    simp only [bind, Except.bind, pure, Except.pure, rest, if_neg long, if_neg fits]
    split_ifs <;> rfl
  rw [serve_switch (by simp [VnsMessage.getType]), handled, hear]
  show Except.ok _ = _
  split_ifs <;> rfl

theorem Hashing.call_input {m data : List UInt8} (short : (m ++ data).length < 2 ^ 61) :
    (Hashing.absorbing m).call (.input data) = (.absorbing (m ++ data), []) := by
  rw [Hashing.call, Hashing.input, ← List.length_append, if_pos short]
  split_ifs with none_
  · rw [none_, List.append_nil]
  · rfl

theorem sha1_two (context : Sha1Context) {salt key : List UInt8}
    (short : (salt ++ key).length < 2 ^ 61) :
    ∃ context', (do
        let context ← sha1Input (sha1Reset context) salt
        let context ← sha1Input context key
        sha1Result context) = some (context', true) ∧
      context'.messageDigest = sha1 (salt ++ key) := by
  have reset : (Hashing.absorbing []).Stands (sha1Reset context) := absorbed_reset context
  obtain ⟨first, given, stands⟩ := sha1Call_spec reset (.input salt)
  have shorter : ([] ++ salt).length < 2 ^ 61 := by
    rw [List.length_append] at short
    rw [List.nil_append]
    omega
  rw [Hashing.call_input shorter, List.nil_append] at given stands
  obtain ⟨second, given', stands'⟩ := sha1Call_spec stands (.input key)
  rw [Hashing.call_input short] at given' stands'
  obtain ⟨third, given'', stands''⟩ := sha1Call_spec stands' .result
  have absorbed : sha1Input (sha1Reset context) salt = some first := by
    simpa [sha1Call] using given
  have absorbed' : sha1Input first key = some second := by
    simpa [sha1Call] using given'
  have result : sha1Result second = some (third, true) := by
    rw [sha1Call] at given''
    cases done : sha1Result second with
    | none => rw [done] at given''; cases given''
    | some r =>
      obtain ⟨left, one⟩ := r
      rw [done] at given''
      cases one <;> simp_all [Hashing.call]
  exact ⟨third, by simp only [bind, Option.bind, absorbed, absorbed', result], stands''.1⟩

theorem length_authKeyBytes (contents : List UInt8) (stack : ℕ → UInt8) :
    (authKeyBytes contents stack).length = 64 := by
  rw [authKeyBytes, List.length_map, List.length_range]

theorem serve_authRequest {salt : List UInt8} (small : 8 + salt.length ≤ 10000) :
    serve host client behind 0 (VnsMessage.authRequest salt).framed =
      hear host client (.authRequest salt) := by
  have body : (VnsMessage.authRequest salt).framed.drop 8 = salt :=
    (VnsMessage.authRequest salt).framed_spec.2.1
  have handled : srHandleAuthRequest host client.user salt =
      .ok ((hearAuthRequest host client salt).effects,
        (hearAuthRequest host client salt).ret = 1) := by
    rw [srHandleAuthRequest, hearAuthRequest]
    cases host.authKey with
    | none => rfl
    | some contents =>
      by_cases none_ : contents = []
      · simp [none_, pure, Except.pure]
      · have size := length_authKeyBytes contents host.stack
        have short : (salt ++ authKeyBytes contents host.stack).length < 2 ^ 61 := by
          rw [List.length_append, size]
          omega
        obtain ⟨context, digest, eq⟩ := sha1_two host.sha short
        simp only [digest, eq, none_, if_false, false_or, pure, Except.pure]
        cases host.sends <;> rfl
  have type : UInt32.ofNat (VnsMessage.authRequest salt).getType = 128 := rfl
  have heard : hearAuthRequest host client salt =
      ⟨client, (hearAuthRequest host client salt).effects,
        retOf ((hearAuthRequest host client salt).ret = 1)⟩ := by
    rw [hearAuthRequest]
    cases host.authKey with
    | none => rfl
    | some contents => dsimp only; split_ifs <;> rfl
  rw [serve_switch (by simp [VnsMessage.getType]), body, handled, hear]
  dsimp only
  rw [type, if_neg (by decide), if_neg (by decide), if_neg (by decide), if_neg (by decide),
    if_pos rfl]
  exact congrArg Except.ok heard.symm

theorem serve_authStatus {authOk : Bool} {msg : List UInt8} (ends : authOk = true ∨ 0 ∈ msg) :
    serve host client behind 0 (VnsMessage.authStatus authOk msg).framed =
      hear host client (.authStatus authOk msg) := by
  obtain ⟨-, body, size⟩ := (VnsMessage.authStatus authOk msg).framed_spec
  have type : UInt32.ofNat (VnsMessage.authStatus authOk msg).getType = 512 := rfl
  have pack : (VnsMessage.authStatus authOk msg).pack = (if authOk then 1 else 0) :: msg := rfl
  have long : ¬ (VnsMessage.authStatus authOk msg).framed.length < 9 := by
    rw [size, pack, List.length_cons]
    omega
  have flag : load8 (VnsMessage.authStatus authOk msg).framed 8 = if authOk then 1 else 0 := by
    rw [load8, List.getD_eq_getElem?_getD, ← List.head?_drop, body, pack]
    rfl
  have text : (VnsMessage.authStatus authOk msg).framed.drop 9 = msg := by
    rw [show 9 = 8 + 1 from rfl, ← List.drop_drop, body, pack]
    rfl
  rw [serve_switch (by simp [VnsMessage.getType]), srHandleAuthStatus, hear]
  dsimp only
  rw [type, if_neg (by decide), if_neg (by decide), if_neg (by decide), if_neg (by decide),
    if_neg (by decide), if_pos rfl, if_neg long, flag]
  cases authOk with
  | true => rfl
  | false =>
    have inside : 0 ∈ msg := ends.resolve_left (by decide)
    have string : stringAt (VnsMessage.authStatus false msg).framed 9 =
        .ok (msg.takeWhile (· ≠ 0)) := by
      rw [stringAt, cstr, text, if_pos inside]
    rw [string]
    rfl

/-- The `switch` does to the bytes of a message what should be done to the message. -/
theorem serve_framed (sendable : Sendable m) :
    serve host client behind expectedCmd m.framed = hearExpecting expectedCmd host client m := by
  obtain ⟨small, holds⟩ := sendable
  by_cases packet : m.getType = 4
  · cases m <;> simp [VnsMessage.getType] at packet
    rename_i intfName frame
    refine serve_packet holds ?_
    rw [VnsMessage.pack, List.length_append, length_packString] at small
    omega
  · rw [serve_other packet, hearExpecting]
    refine if_congr Iff.rfl ?_ rfl
    cases m with
    | packet intfName frame => exact absurd rfl packet
    | close msg => exact serve_close holds
    | banner msg => exact serve_banner holds
    | hardwareInfo interfaces => exact serve_hardwareInfo holds small
    | rtable vrhost table => exact serve_rtable holds
    | authRequest salt => exact serve_authRequest small
    | authStatus authOk msg => exact serve_authStatus holds
    | openTopology topoId vhost user pw =>
      rw [serve_switch packet]
      rfl
    | openTemplate templateName vrhost srcFilters =>
      rw [serve_switch packet]
      rfl
    | authReply username ssp =>
      rw [serve_switch packet]
      rfl

end Serve

/-! ## Messages on the socket -/

section Receive

variable {server : VnsServer} {memory : BlockMemory} {calls : ℕ} {bytes block : List UInt8}

theorem Patient.later {calls' : ℕ} (patient : Patient server calls) (later : calls ≤ calls') :
    Patient server calls' :=
  ⟨fun k after => patient.1 k (later.trans after), fun k after => patient.2 k (later.trans after)⟩

theorem Patient.exists_sum (patient : Patient server calls) (n : ℕ) :
    ∃ k, n ≤ ∑ j ∈ Finset.range k, (server.calls (calls + j)).most := by
  induction n with
  | zero => exact ⟨0, Nat.zero_le _⟩
  | succ n ih =>
    obtain ⟨k, brought⟩ := ih
    obtain ⟨j, after, goes⟩ := patient.2 (calls + k) (Nat.le_add_right ..)
    have one : 1 ≤ (server.calls (calls + (j - calls))).most := by
      rw [show calls + (j - calls) = j by omega]
      cases call : server.calls j with
      | takes most => exact Nat.le_add_left ..
      | interrupted => exact absurd call goes
      | fails => exact absurd call (patient.1 j (by omega))
    refine ⟨j - calls + 1, ?_⟩
    rw [Finset.sum_range_succ]
    have more : ∑ i ∈ Finset.range k, (server.calls (calls + i)).most ≤
        ∑ i ∈ Finset.range (j - calls), (server.calls (calls + i)).most :=
      Finset.sum_le_sum_of_subset (Finset.range_subset_range.2 (by omega))
    omega

theorem Patient.exists_sends {size : ℕ} (patient : Patient server calls)
    (enough : size ≤ bytes.length) : ∃ k, server.Sends bytes calls size k := by
  have all : ∃ k, server.arrived bytes calls size k = size := by
    obtain ⟨k, brought⟩ := patient.exists_sum size
    exact ⟨k, by rw [VnsServer.arrived]; omega⟩
  classical
  refine ⟨Nat.find all, fun j before => ⟨?_, patient.1 _ (Nat.le_add_right ..)⟩, Nat.find_spec all⟩
  exact lt_of_le_of_ne (server.arrived_le bytes calls size j).1 (Nat.find_min all before)

theorem Patient.receive_iff {start size : ℕ} (patient : Patient server calls)
    (fits : start + size ≤ block.length) (enough : size ≤ bytes.length) :
    ∃ k, ∀ r, (receiveTurn server start size).Ends ⟨block, 0, bytes, calls⟩ r ↔
      r = .ok ⟨splice block start (bytes.take size), size, bytes.drop size, calls + k⟩ := by
  obtain ⟨k, sends⟩ := patient.exists_sends enough
  have ends : (receiveTurn server start size).Ends ⟨block, 0, bytes, calls⟩
      (.ok ⟨splice block start (bytes.take size), size, bytes.drop size, calls + k⟩) := by
    rw [← sends.incomingAfter_eq]
    exact (receiveTurn_ends_iff fits).2 (.inl ⟨k, sends, rfl⟩)
  exact ⟨k, fun r => ⟨fun other => other.unique ends, fun same => same ▸ ends⟩⟩

/-- A stream that ends in front of the length keeps the function going. -/
theorem Patient.not_receives {size : ℕ} {r : Except Stop Incoming} (patient : Patient server calls)
    (fits : size ≤ block.length) (missing : bytes.length < size) :
    ¬ (receiveTurn server 0 size).Ends ⟨block, 0, bytes, calls⟩ r := by
  rw [receiveTurn_ends_iff (by omega)]
  rintro (⟨k, sends, -⟩ | ⟨k, ⟨-, -, fails⟩, -⟩)
  · exact absurd sends.le (by omega)
  · exact patient.1 _ (Nat.le_add_right ..) fails

/-- The two loops read the message in front of the stream. -/
theorem receiveCommand_iff {m : VnsMessage} (patient : Patient server calls)
    (room : memory.full = false) (small : 8 + m.pack.length ≤ 10000) (tail : List UInt8) :
    ∃ bytesRead calls', calls ≤ calls' ∧ ∀ r, ReceiveCommand server memory (m.framed ++ tail) calls r ↔
      r = .ok ⟨m.framed, bytesRead, tail, calls'⟩ := by
  obtain ⟨-, -, size⟩ := m.framed_spec
  have four : 4 ≤ (m.framed ++ tail).length := by
    rw [List.length_append]
    omega
  have head : loadBE32 (m.framed ++ tail) 0 = UInt32.ofNat (8 + m.pack.length) := by
    rw [VnsMessage.framed, List.append_assoc]
    exact loadBE32_bytesBE32 ..
  have mLen : (UInt32.ofNat (8 + m.pack.length)).toNat = 8 + m.pack.length := by
    rw [UInt32.toNat_ofNat']
    exact Nat.mod_eq_of_lt (by omega)
  obtain ⟨k, first⟩ := patient.receive_iff
    (show 0 + 4 ≤ ((List.range 4).map memory.unset).length by simp) four
  have int : splice ((List.range 4).map memory.unset) 0 ((m.framed ++ tail).take 4) =
      (m.framed ++ tail).take 4 :=
    splice_zero (by rw [List.length_take_of_le four, List.length_map, List.length_range])
  rw [int] at first
  obtain ⟨unset, unset_eq, unset_size⟩ : ∃ unset,
      (List.range (8 + m.pack.length)).map memory.unset = unset ∧ unset.length = m.framed.length :=
    ⟨_, rfl, by rw [List.length_map, List.length_range, size]⟩
  have allocated : allocate memory (loadBE32 ((m.framed ++ tail).take 4) 0) =
      .ok (splice unset 0 (bytesBE32 (loadBE32 (m.framed ++ tail) 0))) := by
    rw [loadBE32_take, head, allocate_eq, mLen, unset_eq, room, if_neg (by simp; omega), storeIn,
      if_pos (by rw [length_bytesBE32]; omega)]
  have stored : (splice unset 0 (bytesBE32 (loadBE32 (m.framed ++ tail) 0))).length =
      m.framed.length := by
    rw [length_splice (by rw [length_bytesBE32]; omega), unset_size]
  have whole : unset.length ≤ (m.framed ++ tail).length := by
    rw [List.length_append]
    omega
  obtain ⟨k', second⟩ := (patient.later (Nat.le_add_right calls k)).receive_iff
    (show 4 + (m.framed.length - 4) ≤
      (splice unset 0 (bytesBE32 (loadBE32 (m.framed ++ tail) 0))).length by omega)
    (show m.framed.length - 4 ≤ ((m.framed ++ tail).drop 4).length by
      rw [List.length_drop]
      omega)
  refine ⟨m.framed.length - 4, calls + k + k', by omega, fun r => ?_⟩
  rw [ReceiveCommand, andThen_of_ok first]
  dsimp only
  rw [andThen_of_ok (fun s => by rw [allocated]; exact eq_comm), stored, second, ← unset_size,
    buffer_eq (by omega) whole, List.drop_drop, show 4 + (unset.length - 4) = unset.length by omega,
    unset_size, List.take_left' rfl, List.drop_left' rfl]

/-- The function does to the client what should be done, and leaves the rest on the socket, however the
calls on the socket cut up the stream. -/
theorem readFromServer_iff {m : VnsMessage} {host : Host} {client : Client} {expectedCmd : UInt32}
    (patient : Patient server calls) (room : memory.full = false) (sendable : Sendable m)
    (tail : List UInt8) :
    ∃ calls', calls ≤ calls' ∧
      ∀ r, ReadFromServer server memory host client expectedCmd (m.framed ++ tail) calls r ↔
        r = (hearExpecting expectedCmd host client m).map fun served => (served, tail, calls') := by
  obtain ⟨bytesRead, calls', later, received⟩ := receiveCommand_iff patient room sendable.1 tail
  refine ⟨calls', later, fun r => ?_⟩
  rw [ReadFromServer, andThen_of_ok received, serve_framed sendable]
  exact eq_comm

/-- No message is read from a stream that has ended. -/
theorem not_readFromServer_nil {host : Host} {client : Client} {expectedCmd : UInt32}
    {r : Except Stop (Served × List UInt8 × ℕ)} (patient : Patient server calls) :
    ¬ ReadFromServer server memory host client expectedCmd [] calls r := by
  have never : ∀ s, ¬ (receiveTurn server 0 4).Ends ⟨(List.range 4).map memory.unset, 0, [], calls⟩ s :=
    fun s => patient.not_receives (by simp) (by simp)
  rintro (⟨s, ⟨s', ends, -⟩ | ⟨e, ends, -⟩, -⟩ | ⟨e, ⟨s', ends, -⟩ | ⟨e', ends, -⟩, -⟩)
  all_goals exact never _ ends

theorem hearExpecting_zero (host : Host) (client : Client) (m : VnsMessage) :
    hearExpecting 0 host client m = hear host client m := if_pos (.inl rfl)

section Turn

variable {hosts : ℕ → Host} {n calls' : ℕ} {client : Client} {rest rest' : List UInt8}
  {effects : List Effect} {r : Except Stop (Client × ℤ)} {served : Served} {e : Stop}

theorem mainLoop_of_error
    (read : ∀ s, ReadFromServer server memory (hosts n) client 0 rest calls s ↔ s = .error e) :
    MainLoop server memory hosts n client rest calls effects r ↔ effects = [] ∧ r = .error e := by
  constructor
  · intro loop
    cases loop with
    | leave one => cases (read _).1 one
    | stop one =>
      obtain rfl := Except.error.inj ((read _).1 one)
      exact ⟨rfl, rfl⟩
    | next one => cases (read _).1 one
  · rintro ⟨rfl, rfl⟩
    exact .stop ((read _).2 rfl)

theorem mainLoop_of_ok (read : ∀ s, ReadFromServer server memory (hosts n) client 0 rest calls s ↔
      s = .ok (served, rest', calls')) :
    MainLoop server memory hosts n client rest calls effects r ↔
      if served.ret = 1 then
        ∃ later, MainLoop server memory hosts (n + 1) served.client rest' calls' later r ∧
          served.effects ++ later = effects
      else effects = served.effects ∧ r = .ok (served.client, served.ret) := by
  have one := (read _).2 rfl
  constructor
  · intro loop
    cases loop with
    | leave one' last =>
      cases (read _).1 one'
      rw [if_neg last]
      exact ⟨rfl, rfl⟩
    | stop one' => cases (read _).1 one'
    | next one' again loop =>
      cases (read _).1 one'
      rw [if_pos again]
      exact ⟨_, loop, rfl⟩
  · intro turn
    split_ifs at turn with again
    · obtain ⟨later, loop, rfl⟩ := turn
      exact .next one again loop
    · obtain ⟨rfl, rfl⟩ := turn
      exact .leave one again

end Turn

/-- The loop of `main` does to the client what the messages should do, one after the other up to one
that ends the session, and waits for ever where none does. -/
theorem mainLoop_iff {hosts : ℕ → Host} {n : ℕ} {client : Client} {ms : List VnsMessage}
    {effects : List Effect} {r : Except Stop (Client × ℤ)} (patient : Patient server calls)
    (room : memory.full = false) (sendable : ∀ m ∈ ms, Sendable m) :
    MainLoop server memory hosts n client (ms.flatMap VnsMessage.framed) calls effects r ↔
      hearAll hosts n client ms = some (effects, r) := by
  induction ms generalizing n client calls effects with
  | nil =>
    refine iff_of_false (fun loop => ?_) (by simp [hearAll])
    cases loop with
    | leave read => exact not_readFromServer_nil patient read
    | stop read => exact not_readFromServer_nil patient read
    | next read => exact not_readFromServer_nil patient read
  | cons m ms ih =>
    obtain ⟨calls', later, read⟩ := @readFromServer_iff server memory calls m (hosts n) client 0
      patient room (sendable m (List.mem_cons_self ..)) (ms.flatMap VnsMessage.framed)
    rw [hearExpecting_zero] at read
    rw [List.flatMap_cons, hearAll]
    cases heard : hear (hosts n) client m with
    | error e =>
      rw [heard] at read
      rw [mainLoop_of_error read, Option.some_inj, Prod.mk.injEq, @eq_comm _ effects, @eq_comm _ r]
    | ok served =>
      rw [heard] at read
      rw [mainLoop_of_ok read]
      dsimp only
      split_ifs with again
      · have rest := @ih calls' (n + 1) served.client
        have sendable' : ∀ m ∈ ms, Sendable m := fun m mem => sendable m (List.mem_cons_of_mem _ mem)
        simp only [rest (patient.later later) sendable', Option.map_eq_some_iff, Prod.exists,
          Prod.mk.injEq]
        constructor
        · rintro ⟨effects', heard', rfl⟩
          exact ⟨effects', r, heard', rfl, rfl⟩
        · rintro ⟨effects', r', heard', rfl, rfl⟩
          exact ⟨effects', heard', rfl⟩
      · rw [Option.some_inj, Prod.mk.injEq, @eq_comm _ effects, @eq_comm _ r]

end Receive

/-- A server of which each second call is broken by a signal, and the others bring one byte. -/
def slowly : VnsServer where
  stream := []
  calls := fun k => if k % 2 = 0 then .interrupted else .takes 0

/-- A machine with the key `k` in its file. -/
def someHost : Host where
  authKey := some [107, 10]
  stack := fun _ => 0
  sha := someContext
  heap := fun _ => ⟨[], Mac.of 0 0 0 0 0 0, 0⟩
  opens := true
  sends := true

/-- A client without interfaces. -/
def someClient : Client where
  sr := ⟨[], [], srArpcacheInit⟩
  user := [117]

theorem mainLoop_iff_close :
    MainLoop slowly zeros (fun _ => someHost) 0 someClient
      ([.banner [104, 105], .close [98, 121, 101], .banner []].flatMap VnsMessage.framed) 0
      [.printed [104, 105], .printed [98, 121, 101]] (.ok (someClient, 0)) := by
  have patient : Patient slowly 0 := by
    refine ⟨fun k _ => ?_, fun k _ => ⟨2 * k + 1, by omega, ?_⟩⟩
    · show (if k % 2 = 0 then Transfer.interrupted else .takes 0) ≠ .fails
      split_ifs <;> exact Transfer.noConfusion
    · show (if (2 * k + 1) % 2 = 0 then Transfer.interrupted else .takes 0) ≠ .interrupted
      rw [if_neg (by omega)]
      exact Transfer.noConfusion
  refine (mainLoop_iff patient rfl ?_).2 rfl
  intro m mem
  simp only [List.mem_cons, List.not_mem_nil, or_false] at mem
  rcases mem with rfl | rfl | rfl <;>
    exact ⟨by rw [VnsMessage.pack, length_packString]; decide, by decide⟩

/-! ## Authentication -/

section AuthKey

variable {contents : List UInt8} {stack stack' : ℕ → UInt8}

theorem authKeyBytes_of_long (long : 63 ≤ (fgetsLine 64 contents).length) :
    authKeyBytes contents stack = authKeyBytes contents stack' := by
  refine List.map_congr_left fun i mem => ?_
  have inside : i < (fgetsLine 64 contents ++ [0]).length := by
    rw [List.length_append, List.length_singleton]
    have := List.mem_range.1 mem
    omega
  rw [List.getD_eq_getElem?_getD, List.getD_eq_getElem?_getD, List.getElem?_eq_getElem inside]
  rfl

/-- The last byte comes from the stack. -/
theorem authKeyBytes_of_short (short : (fgetsLine 64 contents).length < 63) :
    (authKeyBytes contents stack)[63]? = some (stack 63) := by
  have outside : (fgetsLine 64 contents ++ [0]).length ≤ 63 := by
    rw [List.length_append, List.length_singleton]
    omega
  rw [authKeyBytes, List.getElem?_map, List.getElem?_range (by decide), Option.map_some,
    List.getD_eq_getElem?_getD, List.getElem?_eq_none outside]
  rfl

/-- The answer to a request is the same whatever the stack holds where the line in the file is 63 bytes
long.  Where it is shorter, stacks that differ in the last byte of the array give two answers, or hashing
runs into two inputs for which `SHA1ProcessMessageBlock` gives one digest. -/
theorem authReply_determined {host : Host} {client : Client} {salt : List UInt8}
    (file : host.authKey = some contents) (some_ : contents ≠ []) (sends : host.sends = true)
    (small : salt.length + 64 < 2 ^ 61) :
    (63 ≤ (fgetsLine 64 contents).length →
      ∀ stack, hearAuthRequest { host with stack } client salt = hearAuthRequest host client salt) ∧
    ((fgetsLine 64 contents).length < 63 →
      ∀ stack : ℕ → UInt8, stack 63 ≠ host.stack 63 →
        hearAuthRequest { host with stack } client salt = hearAuthRequest host client salt →
        Collide processBlock (processed (salt ++ authKeyBytes contents stack))
          (processed (salt ++ authKeyBytes contents host.stack))) := by
  have answers : ∀ stack, hearAuthRequest { host with stack } client salt =
      ⟨client, [.sent (.authReply client.user (sha1 (salt ++ authKeyBytes contents stack)))], 1⟩ := by
    intro stack
    have serves : ¬ (contents = [] ∨ host.sends = false) := by
      rw [sends]
      simpa using some_
    simp only [hearAuthRequest, file, if_neg serves]
  refine ⟨fun long stack => ?_, fun short stack differ same => ?_⟩
  · rw [answers, show hearAuthRequest host client salt = _ from answers host.stack,
      @authKeyBytes_of_long contents stack host.stack long]
  · rw [answers, show hearAuthRequest host client salt = _ from answers host.stack] at same
    have digests : sha1 (salt ++ authKeyBytes contents stack) =
        sha1 (salt ++ authKeyBytes contents host.stack) := by
      simpa using same
    have size : ∀ stack, (salt ++ authKeyBytes contents stack).length < 2 ^ 61 := fun stack => by
      rw [List.length_append, length_authKeyBytes]
      exact small
    rw [processed, processed,
      show processBlock = compress from funext fun h => funext (processBlock_eq h)]
    refine (sha1_collision (size _) (size _) digests).resolve_left fun eq => differ ?_
    have last := congrArg (fun key => key[63]?) (List.append_cancel_left eq)
    simp only [authKeyBytes_of_short short] at last
    exact Option.some.inj last

end AuthKey

theorem authReply_determined_someHost : (fgetsLine 64 [107, 10]).length < 63 ∧
    (hearAuthRequest { someHost with stack := fun _ => 1 } someClient [1] =
        hearAuthRequest someHost someClient [1] →
      Collide processBlock (processed ([1] ++ authKeyBytes [107, 10] fun _ => 1))
        (processed ([1] ++ authKeyBytes [107, 10] someHost.stack))) :=
  ⟨by decide,
    (authReply_determined rfl (by decide) rfl (by decide)).2 (by decide) (fun _ => 1) (by decide)⟩

end ComputerNetwork.Router
