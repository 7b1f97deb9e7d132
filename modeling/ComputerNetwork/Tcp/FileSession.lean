import ComputerNetwork.Tcp.FileTransfer

/-!
# Sessions of the file transfer

`Good` is the invariant of a session with files that do not change while they are sent: the client has
its outcomes so far, at most one request is under way, and `Stage` says where its bytes are.  Every
step keeps it and costs something (`spends`), so that every session ends, however the steps of the two
programs and of the channels fall, with both programs closed and every file stored as the server has
it (`transfers_complete`).
-/

namespace ComputerNetwork.Tcp

open Lib

/-! ## What is left to do in a channel -/

namespace Channel

variable {ch ch' : Channel} {data : List UInt8} {n bufLen : ℕ}

/-- The EOF marker has to be put on the queue, and to be read. -/
def markerCost (ch : Channel) : ℕ :=
  (if ch.Marked then 0 else 1) + if ch.sock.eof = true then 0 else 1

/-- Steps that hand bytes up, and reads that return some or the end of the file. -/
def cost (ch : Channel) : ℕ :=
  2 * ch.sent.length + ch.sock.appSendQueue.flatten.length + ch.markerCost

/-- The channel has moved its bytes, or the end of the file, towards the reader. -/
structure Moved (ch ch' : Channel) : Prop where
  ok : ch'.Ok
  closed : ch'.closed = ch.closed
  unread : ch'.unread = ch.unread
  cost : ch'.cost + 1 ≤ ch.cost

theorem handUp_spec (h : ch.Ok) (st : ch.step (.handUp n) = some (ch', data)) : ch.Moved ch' := by
  have ok := h.step (by simp) st
  simp only [Channel.step] at st
  split_ifs at st with room
  cases st
  have some_ : ch.sent.take n ≠ [] := by
    rw [Ne, List.take_eq_nil_iff, not_or]
    refine ⟨by omega, fun none => ?_⟩
    rw [none, List.length_nil] at room
    omega
  have same : Marked { ch with
      sent := ch.sent.drop n, sock := enqueueAppSend ch.sock (ch.sent.take n) } ↔ ch.Marked := by
    simp [Marked, enqueueAppSend, mysockEnqueueBuffer, Ne.symm some_]
  have marks : markerCost { ch with
      sent := ch.sent.drop n, sock := enqueueAppSend ch.sock (ch.sent.take n) } =
      ch.markerCost := by
    simp only [markerCost, same]
    rfl
  refine ⟨ok, rfl, ?_, ?_⟩
  · simp [unread, enqueueAppSend, mysockEnqueueBuffer]
  · rw [cost, cost, marks]
    simp only [enqueueAppSend, mysockEnqueueBuffer, List.length_drop, List.flatten_append,
      List.length_append, List.flatten_singleton, List.length_take]
    omega

theorem eof_spec (h : ch.Ok) (st : ch.step .eof = some (ch', data)) : ch.Moved ch' := by
  have ok := h.step (by simp) st
  simp only [Channel.step] at st
  split_ifs at st with due
  cases st
  have marked : Marked { ch with sock := enqueueAppSend ch.sock [] } :=
    Or.inl (by simp [enqueueAppSend, mysockEnqueueBuffer])
  have marks : markerCost { ch with sock := enqueueAppSend ch.sock [] } + 1 = ch.markerCost := by
    rw [markerCost, if_pos marked, markerCost, if_neg due.2.2, Nat.zero_add, Nat.add_comm]
    rfl
  refine ⟨ok, rfl, ?_, ?_⟩
  · simp [unread, enqueueAppSend, mysockEnqueueBuffer]
  · simp only [cost, enqueueAppSend, mysockEnqueueBuffer, List.flatten_append, List.length_append,
      List.flatten_singleton, List.length_nil] at marks ⊢
    omega

theorem cost_read (sent : ch'.sent = ch.sent) (more : ch.unread = data ++ ch'.unread)
    (eof : ch'.sock.eof = ch.sock.eof) (marked : ch'.Marked ↔ ch.Marked) :
    ch'.cost + data.length = ch.cost := by
  have size := congrArg List.length more
  simp only [unread, sent, List.length_append] at size
  simp only [cost, markerCost, sent, eof, marked]
  omega

theorem cost_ended (sent : ch'.sent = ch.sent) (none : ch'.unread = []) (eof : ch'.sock.eof = true) :
    ch'.cost ≤ ch.cost := by
  rw [unread, List.append_eq_nil_iff] at none
  have marked : ch'.Marked := Or.inr eof
  rw [cost, cost, markerCost, if_pos marked, if_pos eof, none.1, sent, List.length_nil]
  omega

theorem Ok.wrote (h : ch.Ok) (opened : ch.closed = false) (buf : List UInt8) : (ch.wrote buf).Ok :=
  h.step (by simp) (step_write opened buf)

theorem Ok.shut (h : ch.Ok) (opened : ch.closed = false) : ch.shut.Ok :=
  h.step (by simp) (step_close opened)

@[simp] theorem unread_wrote (ch : Channel) (buf : List UInt8) :
    (ch.wrote buf).unread = ch.unread ++ buf := by
  simp [unread]

theorem cost_wrote (ch : Channel) (buf : List UInt8) :
    (ch.wrote buf).cost = ch.cost + 2 * buf.length := by
  have marks : (ch.wrote buf).markerCost = ch.markerCost := rfl
  simp only [cost, marks, wrote_sent, wrote_sock, List.length_append]
  omega

theorem cost_shut (ch : Channel) : ch.shut.cost = ch.cost := rfl

theorem blocked (h : ch.Ok) (opened : ch.closed = false) (none : ch.unread = []) (asks : 0 < bufLen) :
    ch.step (.read bufLen) = .none := by
  cases st : ch.step (.read bufLen) with
  | none => rfl
  | some r =>
    rcases (read_spec h asks st).2.2.2 with ⟨more, -, split, -⟩ | ⟨-, closed, -⟩
    · rw [none, eq_comm, List.append_eq_nil_iff] at split
      exact absurd split.1 more
    · rw [opened] at closed
      cases closed

/-- A read of one byte from a writer that has not closed. -/
theorem read_one (h : ch.Ok) (opened : ch.closed = false)
    (st : ch.step (.read 1) = some (ch', data)) : ch'.Ok ∧ ch'.closed = false ∧
      ∃ c, data = [c] ∧ ch.unread = c :: ch'.unread ∧ ch'.cost + 1 = ch.cost := by
  obtain ⟨ok, same, sent, ⟨more, short, split, eof, marked⟩ | ⟨-, closed, -⟩⟩ :=
    read_spec h Nat.one_pos st
  · obtain ⟨c, rest, rfl⟩ := List.exists_cons_of_ne_nil more
    obtain rfl : rest = [] := List.eq_nil_of_length_eq_zero (by simpa using short)
    exact ⟨ok, same.trans opened, c, rfl, split, cost_read sent split eof marked⟩
  · rw [opened] at closed
    cases closed

theorem readable (handedUp : ch.sent = []) (some_ : ch.unread ≠ [] ∨ ch.Marked) (bufLen : ℕ) :
    ∃ ch' data, ch.step (.read bufLen) = some (ch', data) := by
  have read : ∃ r, myread ch.sock bufLen = some r := by
    by_cases eof : ch.sock.eof = true
    · exact ⟨_, myread_of_eof eof bufLen⟩
    · rw [myread, if_neg eof]
      cases queue : ch.sock.appSendQueue with
      | nil => simp [unread, Marked, queue, handedUp, eof] at some_
      | cons buf rest =>
        rw [mysockDequeueBuffer]
        split_ifs <;> exact ⟨_, rfl⟩
  obtain ⟨⟨data, sock⟩, read⟩ := read
  refine ⟨{ ch with sock }, data, ?_⟩
  rw [step, read]
  rfl

theorem still (sent : ∀ r, ch.step (.handUp 1) ≠ some r) (marker : ∀ r, ch.step .eof ≠ some r) :
    ch.sent = [] ∧ (ch.closed = true → ch.Marked) := by
  have none : ch.sent = [] := by
    by_contra some_
    exact sent _ (if_pos ⟨Nat.one_pos, List.length_pos_of_ne_nil some_⟩)
  refine ⟨none, fun closed => ?_⟩
  by_contra unmarked
  exact marker _ (if_pos ⟨closed, none, unmarked⟩)

end Channel

/-! ## Calls of the programs -/

namespace Channels

variable {t t' : Channels} {data : List UInt8} {n : ℕ}

theorem mywrite_active (opened : t.up.closed = false) (buf : List UInt8) :
    net.mywrite .active buf t = some { t with up := t.up.wrote buf } := by
  simp only [net, stepUp, Channel.step_write opened, Option.map_some]

theorem mywrite_passive (opened : t.down.closed = false) (buf : List UInt8) :
    net.mywrite .passive buf t = some { t with down := t.down.wrote buf } := by
  simp only [net, stepDown, Channel.step_write opened, Option.map_some]

theorem myclose_active (opened : t.up.closed = false) :
    net.myclose .active t = some { t with up := t.up.shut } := by
  simp only [net, stepUp, Channel.step_close opened, Option.map_some]

theorem myclose_passive (opened : t.down.closed = false) :
    net.myclose .passive t = some { t with down := t.down.shut } := by
  simp only [net, stepDown, Channel.step_close opened, Option.map_some]

theorem myread_active : net.myread .active n t = some (t', data) ↔
    ∃ down, t.down.step (.read n) = some (down, data) ∧ { t with down } = t' := by
  simp only [net, stepDown, Option.map_eq_some_iff, Prod.exists, Prod.mk.injEq]
  constructor
  · rintro ⟨down, _, st, same, rfl⟩
    exact ⟨down, st, same⟩
  · rintro ⟨down, st, same⟩
    exact ⟨down, data, st, same, rfl⟩

theorem myread_passive : net.myread .passive n t = some (t', data) ↔
    ∃ up, t.up.step (.read n) = some (up, data) ∧ { t with up } = t' := by
  simp only [net, stepUp, Option.map_eq_some_iff, Prod.exists, Prod.mk.injEq]
  constructor
  · rintro ⟨up, _, st, same, rfl⟩
    exact ⟨up, st, same⟩
  · rintro ⟨up, st, same⟩
    exact ⟨up, data, st, same, rfl⟩

theorem blocked_active (h : t.down.Ok) (opened : t.down.closed = false) (none : t.down.unread = [])
    (asks : 0 < n) : net.myread .active n t = .none := by
  simp only [net, stepDown, Channel.blocked h opened none asks, Option.map_none]

theorem blocked_passive (h : t.up.Ok) (opened : t.up.closed = false) (none : t.up.unread = [])
    (asks : 0 < n) : net.myread .passive n t = .none := by
  simp only [net, stepUp, Channel.blocked h opened none asks, Option.map_none]

theorem move_spec {a : Move} (up : t.up.Ok) (down : t.down.Ok) (st : net.move a t = some t') :
    (t.up.Moved t'.up ∧ t'.down = t.down) ∨ (t'.up = t.up ∧ t.down.Moved t'.down) := by
  have moved : ∃ a data, (a = .eof ∨ ∃ n, a = .handUp n) ∧
      (t.stepUp a = some (t', data) ∨ t.stepDown a = some (t', data)) := by
    rcases a with ⟨_ | _, n⟩ | ⟨_ | _⟩ <;>
      obtain ⟨⟨_, data⟩, moves, rfl⟩ := Option.map_eq_some_iff.1 st
    · exact ⟨_, data, Or.inr ⟨n, rfl⟩, Or.inr moves⟩
    · exact ⟨_, data, Or.inr ⟨n, rfl⟩, Or.inl moves⟩
    · exact ⟨_, data, Or.inl rfl, Or.inr moves⟩
    · exact ⟨_, data, Or.inl rfl, Or.inl moves⟩
  obtain ⟨a, data, kind, st | st⟩ := moved
  · obtain ⟨⟨ch, _⟩, st, same⟩ := Option.map_eq_some_iff.1 st
    cases same
    rcases kind with rfl | ⟨n, rfl⟩
    · exact Or.inl ⟨Channel.eof_spec up st, rfl⟩
    · exact Or.inl ⟨Channel.handUp_spec up st, rfl⟩
  · obtain ⟨⟨ch, _⟩, st, same⟩ := Option.map_eq_some_iff.1 st
    cases same
    rcases kind with rfl | ⟨n, rfl⟩
    · exact Or.inr ⟨rfl, Channel.eof_spec down st⟩
    · exact Or.inr ⟨rfl, Channel.handUp_spec down st⟩

/-- It keeps the writers' sides and what there is to read, and costs something. -/
theorem moves_spec {a : Move} (up : t.up.Ok) (down : t.down.Ok) (st : net.move a t = some t') :
    t'.up.Ok ∧ t'.down.Ok ∧ t'.up.closed = t.up.closed ∧ t'.down.closed = t.down.closed ∧
      t'.up.unread = t.up.unread ∧ t'.down.unread = t.down.unread ∧
      t'.up.cost + t'.down.cost + 1 ≤ t.up.cost + t.down.cost := by
  rcases move_spec up down st with ⟨moved, same⟩ | ⟨same, moved⟩ <;>
    have paid := moved.cost <;> rw [same]
  · exact ⟨moved.ok, down, moved.closed, rfl, moved.unread, rfl, by omega⟩
  · exact ⟨up, moved.ok, rfl, moved.closed, rfl, moved.unread, by omega⟩

theorem still (moves : ∀ a t', net.move a t ≠ some t') :
    t.up.sent = [] ∧ (t.up.closed = true → t.up.Marked) ∧
      t.down.sent = [] ∧ (t.down.closed = true → t.down.Marked) := by
  have up : t.up.sent = [] ∧ (t.up.closed = true → t.up.Marked) := Channel.still
    (fun r st => moves (.handUp true 1) _ (by simp only [net, stepUp, st]; rfl))
    (fun r st => moves (.eof true) _ (by simp only [net, stepUp, st]; rfl))
  have down : t.down.sent = [] ∧ (t.down.closed = true → t.down.Marked) := Channel.still
    (fun r st => moves (.handUp false 1) _ (by simp only [net, stepDown, st]; rfl))
    (fun r st => moves (.eof false) _ (by simp only [net, stepDown, st]; rfl))
  exact ⟨up.1, up.2, down⟩

end Channels

/-! ## Where the bytes of a request are -/

/-- The server waits for a line, of which it has read `part`. -/
def ServerReady (pc : ServerPc) (part : List UInt8) : Prop :=
  pc = .line part ∨ (part = [] ∧ pc = .file [] false)

/-- What the server has read of a line. -/
def serverPart : ServerPc → List UInt8
  | .line part => part
  | _ => []

/-- The server has still `rest` to send. -/
def ServerSends (pc : ServerPc) (rest : List UInt8) : Prop :=
  pc = .file rest false ∨ (rest = [] ∧ pc = .line [])

section

variable {pc : ServerPc} {part rest left buf : List UInt8} {fails : Bool}

theorem ServerReady.line (h : ServerReady (.line buf) part) : part = buf := by
  rcases h with same | ⟨-, other⟩
  · exact (ServerPc.line.inj same).symm
  · cases other

theorem ServerReady.file (h : ServerReady (.file rest fails) part) : rest = [] ∧ fails = false := by
  rcases h with other | ⟨-, same⟩
  · cases other
  · exact ServerPc.file.inj same

theorem ServerSends.file (h : ServerSends (.file rest fails) left) : left = rest ∧ fails = false := by
  rcases h with same | ⟨-, other⟩
  · exact ⟨(ServerPc.file.inj same).1.symm, (ServerPc.file.inj same).2⟩
  · cases other

theorem ServerReady.inside (h : ServerReady pc part) : pc ≠ .overrun := by
  rcases h with rfl | ⟨-, rfl⟩ <;> exact ServerPc.noConfusion

theorem ServerSends.inside (h : ServerSends pc rest) : pc ≠ .overrun := by
  rcases h with rfl | ⟨-, rfl⟩ <;> exact ServerPc.noConfusion

theorem ServerSends.ready (h : ServerSends pc []) : ServerReady pc [] := by
  rcases h with file | ⟨-, line⟩
  · exact Or.inr ⟨rfl, file⟩
  · exact Or.inl line

theorem ServerReady.serverPart_eq (h : ServerReady pc part) : serverPart pc = part := by
  rcases h with rfl | ⟨rfl, rfl⟩ <;> rfl

end

/-- The server's files are as long as they say, are read without a failure, and their lengths fit an
`int`. -/
def Stable (fs : List UInt8 → FileState) : Prop :=
  ∀ name size content fails, fs name = .opened size content fails →
    size = content.length ∧ fails = false ∧ size < 2 ^ 31

namespace Session

variable (setup : Setup)

/-- What becomes of a request. -/
def outcome (name : List UInt8) : Outcome :=
  match setup.fs name with
  | .opened _ content _ => stored setup content
  | _ => .refused

/-- The requests that the client has still to make. -/
def remaining (s : Session Channels) : List (List UInt8) :=
  match setup.filename with
  | none => s.typed.filterMap request
  | some name => if s.client = .prompt then [name] else []

/-- The request under way, and what will become of it. -/
inductive Stage (s : Session Channels) : List Outcome → Prop
  | prompt (client : s.client = .prompt) (server : ServerReady s.server [])
      (up : s.conn.up.unread = []) (down : s.conn.down.unread = []) : Stage s []
  | asked {name part} (client : s.client = .reply []) (ok : NameOk name)
      (server : ServerReady s.server part) (up : part ++ s.conn.up.unread = name ++ crlf)
      (waits : s.conn.up.unread ≠ []) (down : s.conn.down.unread = []) : Stage s [outcome setup name]
  | answering {name buf rest text content} (client : s.client = .reply buf) (ok : NameOk name)
      (is : response (setup.fs name) name = (text, content)) (server : ServerSends s.server rest)
      (up : s.conn.up.unread = [])
      (down : buf ++ (s.conn.down.unread ++ rest) = text ++ crlf ++ content)
      (inside : buf.length < (text ++ crlf).length) : Stage s [outcome setup name]
  | receiving {got rest content} (client : s.client = .receive got)
      (server : ServerSends s.server rest) (up : s.conn.up.unread = [])
      (down : got ++ (s.conn.down.unread ++ rest) = content)
      (length : s.length = content.length - got.length) (more : got.length < content.length) :
      Stage s [stored setup content]
  | closed (client : s.client = .closed) (up : s.conn.up.unread = []) (down : s.conn.down.unread = [])
      (server : (ServerReady s.server [] ∧ s.conn.down.closed = false) ∨ s.server = .closed) :
      Stage s []

/-- The invariant of a session in which `names` are asked for. -/
structure Good (names : List (List UInt8)) (s : Session Channels) : Prop where
  upOk : s.conn.up.Ok
  downOk : s.conn.down.Ok
  opened : s.client ≠ .closed → s.conn.up.closed = false ∧ s.conn.down.closed = false
  ended : s.client = .closed → s.conn.up.closed = true ∧ remaining setup s = []
  nameOk : ∀ name ∈ remaining setup s, NameOk name
  stage : ∃ due, Stage setup s due ∧
    names.map (outcome setup) = s.outcomes ++ (due ++ (remaining setup s).map (outcome setup))

/-- What the answer to a request costs. -/
def answerCost (name : List UInt8) : ℕ :=
  2 * (response (setup.fs name) name).1.length + 3 * (response (setup.fs name) name).2.length + 6

/-- What the answer will cost that the server has not begun. -/
def owed (s : Session Channels) : ℕ :=
  match s.client with
  | .reply _ =>
    if s.conn.up.unread = [] then 0
    else answerCost setup (serverPart s.server ++ s.conn.up.unread).dropLast.dropLast
  | _ => 0

def clientCost : ClientPc → ℕ
  | .closed | .failed | .undefined => 0
  | _ => 1

def serverCost : ServerPc → ℕ
  | .line _ => 1
  | .file rest _ => 2 + 3 * rest.length
  | .closed | .overrun => 0

def requestCost (name : List UInt8) : ℕ := 2 * name.length + 5 + answerCost setup name

/-- An upper bound on the steps that are left. -/
def cost (s : Session Channels) : ℕ :=
  s.typed.length + ((remaining setup s).map (requestCost setup)).sum + owed setup s +
    clientCost s.client + serverCost s.server + s.conn.up.cost + s.conn.down.cost

variable {setup} {names : List (List UInt8)} {s s' : Session Channels}

theorem owed_of_idle (up : s.conn.up.unread = []) : owed setup s = 0 := by
  unfold owed
  rw [if_pos up]
  split <;> rfl

theorem owed_asked {name part buf : List UInt8} (client : s.client = .reply buf)
    (server : ServerReady s.server part) (up : part ++ s.conn.up.unread = name ++ crlf)
    (waits : s.conn.up.unread ≠ []) : owed setup s = answerCost setup name := by
  rw [owed, client]
  dsimp only
  rw [if_neg waits, server.serverPart_eq, up]
  simp [crlf]

/-- The server's answer is the response, and what is left is the file. -/
theorem processLine_response {fs : List UInt8 → FileState} (stable : Stable fs) {name : List UInt8}
    (some_ : name ≠ []) : ∃ pc, processLine fs name = ((response (fs name) name).1 ++ crlf, pc) ∧
      ServerSends pc (response (fs name) name).2 ∧
      serverCost pc ≤ 2 + 3 * (response (fs name) name).2.length := by
  unfold processLine
  rw [if_neg some_]
  cases state : fs name with
  | denied | unopenable => exact ⟨_, rfl, Or.inr ⟨rfl, rfl⟩, by simp only [serverCost]; omega⟩
  | opened size content fails =>
    obtain ⟨-, rfl, -⟩ := stable _ _ _ _ state
    exact ⟨_, rfl, Or.inl rfl, le_rfl⟩

/-! ## Steps of the server -/

/-- Behind the end of the file the server waits for the next line. -/
theorem Stage.fileEnds {due : List Outcome} (h : Stage setup s due)
    (server : s.server = .file [] false) : Stage setup { s with server := .line [] } due := by
  cases h with
  | prompt client _ up down => exact .prompt client (Or.inl rfl) up down
  | asked client ok ready up waits down =>
    rw [server] at ready
    obtain ⟨rfl, -⟩ := ready.resolve_left nofun
    exact .asked client ok (Or.inl rfl) up waits down
  | answering client ok is sends up down inside =>
    rw [server] at sends
    exact .answering client ok is (Or.inr ⟨sends.file.1, rfl⟩) up down inside
  | receiving client sends up down length more =>
    rw [server] at sends
    exact .receiving client (Or.inr ⟨sends.file.1, rfl⟩) up down length more
  | closed client up down ready =>
    rw [server] at ready
    exact .closed client up down (Or.inl ⟨Or.inl rfl, (ready.resolve_right nofun).2⟩)

theorem Good.fileEnds (h : Good setup names s) (server : s.server = .file [] false) :
    Good setup names { s with server := .line [] } ∧
      cost setup { s with server := .line [] } + 1 ≤ cost setup s := by
  constructor
  · obtain ⟨due, stage, all⟩ := h.stage
    exact ⟨h.upOk, h.downOk, h.opened, h.ended, h.nameOk, due, stage.fileEnds server, all⟩
  · have same : owed setup { s with server := .line [] } = owed setup s := by
      simp only [owed, server, serverPart]
    have rest : remaining setup { s with server := .line [] } = remaining setup s := rfl
    simp only [cost, same, rest, server, serverCost, List.length_nil]
    omega

theorem Good.sends (h : Good setup names s) {rest : List UInt8} {fails : Bool}
    (server : s.server = .file rest fails) (some_ : rest ≠ []) :
    s.conn.down.closed = false ∧
    let s' := { s with conn := { s.conn with down := s.conn.down.wrote (rest.take 5000) }
                       server := .file (rest.drop 5000) fails }
    Good setup names s' ∧ cost setup s' + 1 ≤ cost setup s := by
  obtain ⟨due, stage, all⟩ := h.stage
  have ready : ∀ part, ¬ ServerReady s.server part := by
    intro part is
    rw [server] at is
    exact some_ is.file.1
  have pieces : ∀ left, ServerSends s.server left → left = rest ∧ fails = false := by
    intro left is
    rw [server] at is
    exact is.file
  -- the pieces put together are what was to be sent
  have moved : ∀ front : List UInt8, front ++ (s.conn.down.unread ++ rest) =
      front ++ ((s.conn.down.wrote (rest.take 5000)).unread ++
        rest.drop 5000) := by
    intro front
    rw [Channel.unread_wrote, List.append_assoc, List.take_append_drop]
  have idle : s.conn.up.unread = [] := by
    cases stage with
    | prompt _ is | asked _ _ is => exact absurd is (ready _)
    | answering _ _ _ _ up | receiving _ _ up => exact up
    | closed _ up => exact up
  have open_ : s.client ≠ .closed := by
    intro closed
    cases stage with
    | prompt client | asked client | answering client | receiving client =>
      rw [client] at closed
      cases closed
    | closed _ _ _ is =>
      rcases is with ⟨is, -⟩ | is
      · exact ready _ is
      · rw [server] at is
        cases is
  refine ⟨(h.opened open_).2, ⟨h.upOk, h.downOk.wrote (h.opened open_).2 _,
    h.opened, h.ended, h.nameOk, due, ?_, all⟩, ?_⟩
  · cases stage with
    | prompt _ is | asked _ _ is => exact absurd is (ready _)
    | answering client ok is sends up down inside =>
      obtain ⟨rfl, rfl⟩ := pieces _ sends
      exact .answering client ok is (Or.inl rfl) up ((moved _).symm.trans down) inside
    | receiving client sends up down length more =>
      obtain ⟨rfl, rfl⟩ := pieces _ sends
      exact .receiving client (Or.inl rfl) up ((moved _).symm.trans down) length more
    | closed client => exact absurd client open_
  · have before : owed setup s = 0 := owed_of_idle idle
    have after : owed setup { s with
        conn := { s.conn with down := s.conn.down.wrote (rest.take 5000) }
        server := .file (rest.drop 5000) fails } = 0 := owed_of_idle idle
    have names_ : remaining setup { s with
        conn := { s.conn with down := s.conn.down.wrote (rest.take 5000) }
        server := .file (rest.drop 5000) fails } = remaining setup s := rfl
    have pos := List.length_pos_of_ne_nil some_
    simp only [cost, before, after, names_, server, serverCost, Channel.cost_wrote, List.length_take,
      List.length_drop]
    omega

section Line

variable {name part : List UInt8} {up' : Channel} {c : UInt8}

theorem Good.lineGoesOn (h : Good setup names s) (client : s.client = .reply []) (ok : NameOk name)
    (server : s.server = .line part) (up : part ++ s.conn.up.unread = name ++ crlf)
    (down : s.conn.down.unread = [])
    (all : names.map (outcome setup) =
      s.outcomes ++ ([outcome setup name] ++ (remaining setup s).map (outcome setup)))
    (upOk : up'.Ok) (upOpen : up'.closed = false) (split : s.conn.up.unread = c :: up'.unread)
    (paid : up'.cost + 1 = s.conn.up.cost) (more : up'.unread ≠ []) :
    let s' := { s with conn := { s.conn with up := up' }, server := .line (part ++ [c]) }
    Good setup names s' ∧ cost setup s' + 1 ≤ cost setup s := by
  have running : s.client ≠ .closed := by simp [client]
  have owes : owed setup s = answerCost setup name :=
    owed_asked client (Or.inl server) up (by simp [split])
  have further : part ++ [c] ++ up'.unread = name ++ crlf := by
    rw [← up, split, List.append_assoc]
    rfl
  have still : owed setup { s with
      conn := { s.conn with up := up' }, server := .line (part ++ [c]) } =
      answerCost setup name := owed_asked client (Or.inl rfl) further more
  have same : remaining setup { s with
      conn := { s.conn with up := up' }, server := .line (part ++ [c]) } =
      remaining setup s := rfl
  refine ⟨⟨upOk, h.downOk, fun _ => ⟨upOpen, (h.opened running).2⟩,
    fun closed => absurd closed running, h.nameOk, _,
    .asked client ok (Or.inl rfl) further more down, all⟩, ?_⟩
  simp only [cost, owes, still, same, server, serverCost]
  omega

theorem Good.answers (h : Good setup names s) (client : s.client = .reply []) (ok : NameOk name)
    (server : s.server = .line part) (up : part ++ s.conn.up.unread = name ++ crlf)
    (down : s.conn.down.unread = [])
    (all : names.map (outcome setup) =
      s.outcomes ++ ([outcome setup name] ++ (remaining setup s).map (outcome setup)))
    (upOk : up'.Ok) (upOpen : up'.closed = false) (split : s.conn.up.unread = c :: up'.unread)
    (paid : up'.cost + 1 = s.conn.up.cost) (done : up'.unread = []) {pc : ServerPc}
    (sends : ServerSends pc (response (setup.fs name) name).2)
    (small : serverCost pc ≤ 2 + 3 * (response (setup.fs name) name).2.length) :
    let s' := { s with
      conn := { up := up', down := s.conn.down.wrote ((response (setup.fs name) name).1 ++ crlf) }
      server := pc }
    Good setup names s' ∧ cost setup s' + 1 ≤ cost setup s := by
  have running : s.client ≠ .closed := by simp [client]
  have open_ := h.opened running
  have owes : owed setup s = answerCost setup name :=
    owed_asked client (Or.inl server) up (by simp [split])
  have is : response (setup.fs name) name =
    ((response (setup.fs name) name).1, (response (setup.fs name) name).2) := rfl
  refine ⟨⟨upOk, h.downOk.wrote open_.2 _,
    fun _ => ⟨upOpen, open_.2⟩, fun closed => absurd closed running, h.nameOk, _,
    .answering client ok is sends done ?_ (by simp [crlf]), all⟩, ?_⟩
  · dsimp only
    rw [Channel.unread_wrote, down, List.nil_append, List.nil_append]
  · have after : owed setup { s with
        conn :=
          { up := up'
            down := s.conn.down.wrote ((response (setup.fs name) name).1 ++ crlf) }
        server := pc } = 0 := owed_of_idle done
    have same : remaining setup { s with
        conn :=
          { up := up'
            down := s.conn.down.wrote ((response (setup.fs name) name).1 ++ crlf) }
        server := pc } = remaining setup s := rfl
    have one : serverCost s.server = 1 := by rw [server]; rfl
    have two : crlf.length = 2 := rfl
    simp only [cost, owes, after, same, one, two, answerCost, Channel.cost_wrote, List.length_append]
    omega

/-- The end of the file is an empty line, at which the server closes. -/
theorem Good.seesEnd (h : Good setup names s) (server : s.server = .line [])
    (client : s.client = .closed) (up : s.conn.up.unread = []) (down : s.conn.down.unread = [])
    (all : names.map (outcome setup) =
      s.outcomes ++ ([] ++ (remaining setup s).map (outcome setup)))
    (open_ : s.conn.down.closed = false) {data : List UInt8}
    (read : s.conn.up.step (.read 1) = some (up', data)) :
    data = [] ∧
    let s' := { s with conn := { up := up', down := s.conn.down.shut }, server := .closed }
    Good setup names s' ∧ cost setup s' + 1 ≤ cost setup s := by
  obtain ⟨upOk, closed, sent, ⟨more, -, split, -⟩ | ⟨rfl, -, -, none, eof⟩⟩ :=
    Channel.read_spec h.upOk Nat.one_pos read
  · rw [up, eq_comm, List.append_eq_nil_iff] at split
    exact absurd split.1 more
  refine ⟨rfl, ⟨upOk, h.downOk.shut open_, fun open_ => absurd client open_,
    fun _ => ⟨closed.trans (h.ended client).1, (h.ended client).2⟩, h.nameOk, [],
    .closed client none down (Or.inr rfl), all⟩, ?_⟩
  have before : owed setup s = 0 := owed_of_idle up
  have after : owed setup { s with
      conn := { up := up', down := s.conn.down.shut }, server := .closed } = 0 :=
    owed_of_idle none
  have same : remaining setup { s with
      conn := { up := up', down := s.conn.down.shut }, server := .closed } =
      remaining setup s := rfl
  have paid := Channel.cost_ended sent none eof
  simp only [cost, before, after, same, Channel.cost_shut, server, serverCost]
  omega

end Line

theorem Good.serverReads (h : Good setup names s) (stable : Stable setup.fs) {buf : List UInt8}
    (server : s.server = .line buf) (st : serverStep Channels.net setup s = some s') :
    Good setup names s' ∧ cost setup s' + 1 ≤ cost setup s := by
  obtain ⟨due, stage, all⟩ := h.stage
  simp only [serverStep, server] at st
  have waits : s.client ≠ .closed → s.conn.up.unread ≠ [] := by
    intro open_ none
    rw [Channels.blocked_passive h.upOk (h.opened open_).1 none Nat.one_pos] at st
    cases st
  obtain ⟨⟨conn, data⟩, reads, st⟩ := Option.bind_eq_some_iff.1 st
  obtain ⟨up', read, rfl⟩ := Channels.myread_passive.1 reads
  cases stage with
  | prompt client _ up | answering client _ _ _ up | receiving client _ up =>
    exact absurd up (waits (by simp [client]))
  | @asked name part client ok ready up some_ down =>
    obtain rfl : part = buf := by
      rw [server] at ready
      exact ready.line
    have open_ := h.opened (by simp [client])
    obtain ⟨upOk, upOpen, c, rfl, split, paid⟩ := Channel.read_one h.upOk open_.1 read
    have front := up
    rw [split] at front
    dsimp only at st
    rw [getNvtLine_crlf front (fun mem => (ok.free _ mem).2 rfl) (by have := ok.short; omega)] at st
    by_cases done : up'.unread = []
    · rw [if_pos done] at st
      dsimp only at st
      obtain ⟨pc, line, sends, small⟩ := processLine_response stable ok.some_
      rw [cText_of_free fun c mem => (ok.free c mem).1, if_neg ok.some_, line] at st
      dsimp only at st
      rw [Channels.mywrite_passive (by exact open_.2)] at st
      cases st
      exact h.answers client ok server up down all upOk upOpen split paid done sends small
    · rw [if_neg done] at st
      cases st
      exact h.lineGoesOn client ok server up down all upOk upOpen split paid done
  | closed client up down is =>
    obtain ⟨ready, open_⟩ := is.resolve_right (by simp [server])
    obtain rfl : [] = buf := by
      rw [server] at ready
      exact ready.line
    obtain ⟨rfl, good⟩ := h.seesEnd server client up down all open_ read
    have st : serverCloses Channels.net { s with conn := { s.conn with up := up' } } = some s' := st
    rw [serverCloses, Channels.myclose_passive (by exact open_)] at st
    cases st
    exact good

theorem Stage.reads {due : List Outcome} (h : Stage setup s due) {rest : List UInt8} {fails : Bool}
    (server : s.server = .file rest fails) : fails = false := by
  cases h with
  | prompt _ is | asked _ _ is | answering _ _ _ is | receiving _ is =>
    rw [server] at is
    exact is.file.2
  | closed _ _ _ is =>
    rw [server] at is
    rcases is with ⟨is, -⟩ | is
    · exact is.file.2
    · cases is

theorem Good.server (h : Good setup names s) (stable : Stable setup.fs)
    (st : serverStep Channels.net setup s = some s') :
    Good setup names s' ∧ cost setup s' + 1 ≤ cost setup s := by
  cases server : s.server with
  | line buf => exact h.serverReads stable server st
  | file rest fails =>
    simp only [serverStep, server] at st
    split_ifs at st with none bad
    · obtain ⟨due, stage, -⟩ := h.stage
      rw [stage.reads server] at bad
      cases bad
    · cases st
      rw [none, Bool.eq_false_iff.2 bad] at server
      exact h.fileEnds server
    · obtain ⟨open_, good⟩ := h.sends server none
      rw [Channels.mywrite_passive open_] at st
      cases st
      exact good
  | closed | overrun =>
    rw [serverStep, server] at st
    cases st

/-! ## Steps of the client -/

/-- Between two requests: `t` is the session, whose client is about to go on. -/
structure Idle (t : Session Channels) : Prop where
  upOk : t.conn.up.Ok
  downOk : t.conn.down.Ok
  upOpen : t.conn.up.closed = false
  downOpen : t.conn.down.closed = false
  server : ServerReady t.server []
  up : t.conn.up.unread = []
  down : t.conn.down.unread = []

theorem Idle.closes {t : Session Channels} (h : Idle t) (all : names.map (outcome setup) = t.outcomes)
    (rest : remaining setup { t with client := .closed } = [])
    (st : t.clientCloses Channels.net .closed = some s') : Good setup names s' ∧
      cost setup s' ≤ t.typed.length + serverCost t.server + t.conn.up.cost + t.conn.down.cost := by
  rw [clientCloses, Channels.myclose_active h.upOpen] at st
  cases st
  have none : remaining setup
      { t with conn := { t.conn with up := t.conn.up.shut }, client := .closed } = [] := rest
  refine ⟨⟨h.upOk.shut h.upOpen, h.downOk, fun open_ => absurd rfl open_,
    fun _ => ⟨rfl, none⟩, ?_, [], .closed rfl h.up h.down (Or.inl ⟨h.server, h.downOpen⟩), ?_⟩, ?_⟩
  · rw [none]
    exact nofun
  · rw [none]
    simpa using all
  · have owes : owed setup
        { t with conn := { t.conn with up := t.conn.up.shut }, client := .closed } = 0 :=
      owed_of_idle h.up
    simp only [cost, none, owes, Channel.cost_shut, clientCost, List.map_nil, List.sum_nil]
    omega

theorem Idle.finish {t : Session Channels} (h : Idle t) {result : Outcome}
    (nameOk : ∀ name ∈ remaining setup t, NameOk name) (running : t.client ≠ .prompt)
    (all : names.map (outcome setup) =
      t.outcomes ++ result :: (remaining setup t).map (outcome setup))
    (st : Session.finish Channels.net setup t result = some s') : Good setup names s' ∧
      cost setup s' ≤ t.typed.length + ((remaining setup t).map (requestCost setup)).sum + 1 +
        serverCost t.server + t.conn.up.cost + t.conn.down.cost := by
  unfold Session.finish at st
  dsimp only at st
  cases named : setup.filename with
  | none =>
    rw [named] at st
    cases st
    have same : remaining setup { t with outcomes := t.outcomes ++ [result], client := .prompt } =
        remaining setup t := by simp only [remaining, named]
    refine ⟨⟨h.upOk, h.downOk, fun _ => ⟨h.upOpen, h.downOpen⟩, nofun, by rwa [same], [],
      .prompt rfl h.server h.up h.down, ?_⟩, ?_⟩
    · rw [same, all]
      simp
    · have owes : owed setup { t with outcomes := t.outcomes ++ [result], client := .prompt } = 0 :=
        owed_of_idle h.up
      simp only [cost, same, owes, clientCost]
      omega
  | some name =>
    rw [named] at st
    have none : remaining setup t = [] := by simp [remaining, named, running]
    rw [none] at all ⊢
    have idle : Idle { t with outcomes := t.outcomes ++ [result] } :=
      ⟨h.upOk, h.downOk, h.upOpen, h.downOpen, h.server, h.up, h.down⟩
    obtain ⟨good, paid⟩ := idle.closes all (by simp [remaining, named]) st
    refine ⟨good, ?_⟩
    simp only [List.map_nil, List.sum_nil] at paid ⊢
    omega

theorem Idle.sendRequest {t : Session Channels} (h : Idle t) {name : List UInt8} (ok : NameOk name)
    (nameOk : ∀ name ∈ remaining setup { t with client := .reply [] }, NameOk name)
    (all : names.map (outcome setup) = t.outcomes ++
      outcome setup name :: (remaining setup { t with client := .reply [] }).map (outcome setup))
    (st : t.sendRequest Channels.net name = some s') : Good setup names s' ∧
      cost setup s' ≤ t.typed.length + answerCost setup name + 2 * name.length + 4 +
        ((remaining setup { t with client := .reply [] }).map (requestCost setup)).sum + 1 +
        serverCost t.server + t.conn.up.cost + t.conn.down.cost := by
  have short := ok.short
  rw [Session.sendRequest, if_neg (by omega), Channels.mywrite_active h.upOpen] at st
  cases st
  have bytes : (t.conn.up.wrote (name ++ crlf)).unread = name ++ crlf := by
    rw [Channel.unread_wrote, h.up, List.nil_append]
  have waits : (t.conn.up.wrote (name ++ crlf)).unread ≠ [] := by
    rw [bytes]
    simp [crlf]
  have same : remaining setup
      { t with conn := { t.conn with up := t.conn.up.wrote (name ++ crlf) }, client := .reply [] } =
      remaining setup { t with client := .reply [] } := rfl
  refine ⟨⟨h.upOk.wrote h.upOpen _, h.downOk, fun _ => ⟨h.upOpen, h.downOpen⟩,
    fun shut => ClientPc.noConfusion shut, nameOk, _, .asked rfl ok h.server bytes waits h.down, ?_⟩, ?_⟩
  · rw [same, all]
    rfl
  · have owes : owed setup
        { t with conn := { t.conn with up := t.conn.up.wrote (name ++ crlf) }, client := .reply [] } =
        answerCost setup name := owed_asked rfl h.server bytes waits
    have two : crlf.length = 2 := rfl
    simp only [cost, same, owes, clientCost, Channel.cost_wrote, List.length_append, two]
    omega

theorem Good.prompts (h : Good setup names s) (client : s.client = .prompt)
    (st : clientStep Channels.net setup s = some s') :
    Good setup names s' ∧ cost setup s' + 1 ≤ cost setup s := by
  obtain ⟨due, stage, all⟩ := h.stage
  cases stage with
  | asked other | answering other | receiving other | closed other =>
    rw [client] at other
    cases other
  | prompt _ server up down =>
    have open_ := h.opened (by rw [client]; nofun)
    have idle : Idle s := ⟨h.upOk, h.downOk, open_.1, open_.2, server, up, down⟩
    have owes : owed setup s = 0 := owed_of_idle up
    have one : clientCost s.client = 1 := by rw [client]; rfl
    have nameOk := h.nameOk
    simp only [clientStep, client] at st
    cases named : setup.filename with
    | some name =>
      rw [named] at st
      have first : remaining setup s = [name] := by simp [remaining, named, client]
      have none : remaining setup { s with client := .reply [] } = [] := by simp [remaining, named]
      rw [first] at nameOk all
      obtain ⟨good, paid⟩ := idle.sendRequest (nameOk name (by simp))
        (by rw [none]; exact nofun) (by rw [none, all]; rfl) st
      refine ⟨good, ?_⟩
      rw [none] at paid
      simp only [cost, first, owes, one, requestCost, List.map_cons, List.map_nil, List.sum_cons,
        List.sum_nil] at paid ⊢
      omega
    | none =>
      rw [named] at st
      have requests : ∀ t : Session Channels, remaining setup t = t.typed.filterMap request := by
        intro t
        simp only [remaining, named]
      cases typed : s.typed with
      | nil =>
        rw [typed] at st
        have none : remaining setup s = [] := by rw [requests, typed]; rfl
        rw [none] at all
        obtain ⟨good, paid⟩ := idle.closes (by simpa using all)
          (by rw [requests]; exact (requests s).symm.trans none) st
        refine ⟨good, ?_⟩
        simp only [cost, none, owes, one, List.map_nil, List.sum_nil] at paid ⊢
        omega
      | cons line typed' =>
        rw [typed] at st
        dsimp only at st
        have size : s.typed.length = typed'.length + 1 := by rw [typed, List.length_cons]
        cases made : request line with
        | none =>
          rw [made] at st
          cases st
          have same : remaining setup { s with client := .prompt, typed := typed' } =
              remaining setup s := by
            rw [requests, requests, typed, List.filterMap_cons_none made]
          refine ⟨⟨h.upOk, h.downOk, fun _ => open_, nofun, by rwa [same], [],
            .prompt rfl server up down, by rwa [same]⟩, ?_⟩
          have still : owed setup { s with client := .prompt, typed := typed' } = 0 :=
            owed_of_idle up
          simp only [cost, same, owes, still, size, client]
          omega
        | some name =>
          rw [made] at st
          have split : remaining setup s =
              name :: remaining setup { s with typed := typed', client := .reply [] } := by
            rw [requests, requests, typed, List.filterMap_cons_some made]
          rw [split] at nameOk all
          have idle' : Idle { s with typed := typed' } :=
            ⟨h.upOk, h.downOk, open_.1, open_.2, server, up, down⟩
          obtain ⟨good, paid⟩ := idle'.sendRequest (nameOk name (by simp))
            (fun n mem => nameOk n (List.mem_cons_of_mem _ mem)) all st
          refine ⟨good, ?_⟩
          simp only [cost, split, owes, one, size, requestCost, List.map_cons, List.sum_cons] at paid ⊢
          omega

/-- The line of a response fits the client's buffer. -/
theorem response_line {fs : List UInt8 → FileState} (stable : Stable fs) {name text : List UInt8}
    {content : List UInt8} (ok : NameOk name) (is : response (fs name) name = (text, content)) :
    10 ∉ text ∧ text.length < 1000 := by
  have none : 10 ∉ name := fun mem => (ok.free _ mem).2 rfl
  have short := ok.short
  cases state : fs name with
  | denied | unopenable =>
    rw [state] at is
    cases is
    refine ⟨?_, ?_⟩
    · rw [List.mem_append, not_or]
      exact ⟨none, by decide⟩
    · simp only [List.length_append, deniedText, unopenableText, List.length_cons, List.length_nil]
      omega
  | opened size file fails =>
    rw [state] at is
    cases is
    obtain ⟨-, -, small⟩ := stable _ _ _ _ state
    have digits := length_decimalText small
    have three : okText.length = 3 := rfl
    refine ⟨?_, ?_⟩
    · simp only [List.mem_append, List.mem_cons, not_or]
      exact ⟨⟨none, by decide, fun mem => (decimalText_free size _ mem).2.1 rfl⟩, by decide⟩
    · simp only [List.length_append, List.length_cons, three]
      omega

theorem line_split {buf rest text file : List UInt8} {c : UInt8}
    (whole : buf ++ c :: rest = text ++ file)
    (inside : buf.length < text.length) : ∃ more, buf ++ c :: more = text ∧ more ++ file = rest := by
  have front : buf ++ [c] <+: text := by
    have longer : buf ++ [c] <+: text ++ file := ⟨rest, by simpa using whole⟩
    exact List.prefix_of_prefix_length_le longer (List.prefix_append ..) (by simpa using inside)
  obtain ⟨more, rfl⟩ := front
  refine ⟨more, by simp, ?_⟩
  simpa [eq_comm] using whole

theorem Idle.answered {t : Session Channels} (upOk : t.conn.up.Ok) (downOk : t.conn.down.Ok)
    (opened : t.conn.up.closed = false ∧ t.conn.down.closed = false) (stable : Stable setup.fs)
    {name text content rest : List UInt8} (ok : NameOk name)
    (is : response (setup.fs name) name = (text, content)) (server : ServerSends t.server rest)
    (up : t.conn.up.unread = []) (down : t.conn.down.unread ++ rest = content)
    {buf : List UInt8} (client : t.client = .reply buf)
    (nameOk : ∀ name ∈ remaining setup t, NameOk name)
    (all : names.map (outcome setup) = t.outcomes ++
      ([outcome setup name] ++ (remaining setup t).map (outcome setup)))
    (st : Session.answered Channels.net setup t text = some s') : Good setup names s' ∧
      cost setup s' ≤ t.typed.length + ((remaining setup t).map (requestCost setup)).sum + 1 +
        serverCost t.server + t.conn.up.cost + t.conn.down.cost := by
  have nul : ∀ c ∈ name, c ≠ 0 := fun c mem => (ok.free c mem).1
  have running : t.client ≠ .prompt := by rw [client]; nofun
  have rests : ∀ n : ℤ, remaining setup { t with length := n } = remaining setup t := fun _ => rfl
  -- when no file follows, the session is idle again
  have idle : ∀ n : ℤ, content = [] → Idle { t with length := n } := by
    rintro n rfl
    rw [List.append_eq_nil_iff] at down
    rw [down.2] at server
    exact ⟨upOk, downOk, opened.1, opened.2, server.ready, up, down.1⟩
  cases state : setup.fs name with
  | denied | unopenable =>
    rw [state] at is
    cases is
    rw [Session.answered, parseReply_refused nul (by simp)] at st
    have result : outcome setup name = .refused := by rw [outcome, state]
    rw [result] at all
    exact (idle (-1) rfl).finish nameOk running all st
  | opened size file fails =>
    rw [state] at is
    cases is
    obtain ⟨rfl, -, small⟩ := stable _ _ _ _ state
    have result : outcome setup name = stored setup content := by rw [outcome, state]
    rw [result] at all
    rw [Session.answered, parseReply_ok nul small] at st
    dsimp only at st
    rw [if_neg (by omega)] at st
    split_ifs at st with zero negative
    · have none : content = [] := List.eq_nil_of_length_eq_zero (by omega)
      rw [none] at all
      exact (idle content.length none).finish nameOk running all st
    · omega
    · cases st
      have same : remaining setup { t with length := content.length, client := .receive [] } =
          remaining setup t := by simp [remaining, client]
      refine ⟨⟨upOk, downOk, fun _ => opened, nofun, by rwa [same], _,
        .receiving rfl server up down (by simp) ?_, by rwa [same]⟩, ?_⟩
      · rw [List.length_nil]
        omega
      · have owes : owed setup { t with length := content.length, client := .receive [] } = 0 :=
          owed_of_idle up
        simp only [cost, same, owes, clientCost]
        omega

theorem Good.replies (h : Good setup names s) (stable : Stable setup.fs) {buf : List UInt8}
    (client : s.client = .reply buf) (st : clientStep Channels.net setup s = some s') :
    Good setup names s' ∧ cost setup s' + 1 ≤ cost setup s := by
  obtain ⟨due, stage, all⟩ := h.stage
  have running : s.client ≠ .closed := by rw [client]; nofun
  have open_ := h.opened running
  cases stage with
  | prompt other | receiving other | closed other =>
    rw [client] at other
    cases other
  | asked _ _ _ _ _ none =>
    simp only [clientStep, client] at st
    rw [Channels.blocked_active h.downOk open_.2 none Nat.one_pos] at st
    cases st
  | @answering name buf' rest text content other ok is server up down inside =>
    obtain rfl : buf = buf' := by
      rw [client] at other
      exact ClientPc.reply.inj other
    have owes : owed setup s = 0 := owed_of_idle up
    have one : clientCost s.client = 1 := by rw [client]; rfl
    rw [clientStep, client] at st
    dsimp only at st
    obtain ⟨⟨conn, data⟩, reads, st⟩ := Option.bind_eq_some_iff.1 st
    obtain ⟨down', read, rfl⟩ := Channels.myread_active.1 reads
    obtain ⟨downOk, downOpen, c, rfl, split, paid⟩ := Channel.read_one h.downOk open_.2 read
    rw [split, List.cons_append] at down
    obtain ⟨more, line, behind⟩ := line_split down inside
    obtain ⟨free, fits⟩ := response_line stable ok is
    dsimp only at st
    rw [getNvtLine_crlf line free fits] at st
    by_cases done : more = []
    · rw [if_pos done] at st
      rw [done, List.nil_append] at behind
      have same : remaining setup { s with conn := { s.conn with down := down' } } =
          remaining setup s := rfl
      obtain ⟨good, bound⟩ := Idle.answered (t := { s with conn := { s.conn with down := down' } })
        h.upOk downOk ⟨open_.1, downOpen⟩ stable ok is server up behind.symm client h.nameOk all st
      refine ⟨good, ?_⟩
      simp only [cost, owes, one, same] at bound ⊢
      omega
    · rw [if_neg done] at st
      cases st
      have same : remaining setup { s with
          conn := { s.conn with down := down' }, client := .reply (buf ++ [c]) } =
          remaining setup s := by simp [remaining, client]
      have shape : buf ++ [c] ++ (down'.unread ++ rest) = text ++ crlf ++ content := by
        rw [← down]
        simp
      have longer : (buf ++ [c]).length < (text ++ crlf).length := by
        rw [← line, List.length_append, List.length_append, List.length_singleton, List.length_cons]
        have := List.length_pos_of_ne_nil done
        omega
      refine ⟨⟨h.upOk, downOk, fun _ => ⟨open_.1, downOpen⟩, nofun, by rw [same]; exact h.nameOk, _,
        .answering rfl ok is server up shape longer, by rw [same]; exact all⟩, ?_⟩
      have still : owed setup { s with
          conn := { s.conn with down := down' }, client := .reply (buf ++ [c]) } = 0 :=
        owed_of_idle up
      have again : clientCost (.reply (buf ++ [c])) = 1 := rfl
      simp only [cost, owes, one, same, still, again]
      omega

theorem Good.receives (h : Good setup names s) {got : List UInt8} (client : s.client = .receive got)
    (st : clientStep Channels.net setup s = some s') :
    Good setup names s' ∧ cost setup s' + 1 ≤ cost setup s := by
  obtain ⟨due, stage, all⟩ := h.stage
  have running : s.client ≠ .closed := by rw [client]; nofun
  have open_ := h.opened running
  cases stage with
  | prompt other | asked other | answering other | closed other =>
    rw [client] at other
    cases other
  | @receiving got' rest content other server up down length more =>
    obtain rfl : got = got' := by
      rw [client] at other
      exact ClientPc.receive.inj other
    have owes : owed setup s = 0 := owed_of_idle up
    have one : clientCost s.client = 1 := by rw [client]; rfl
    rw [clientStep, client] at st
    dsimp only at st
    obtain ⟨⟨conn, data⟩, reads, st⟩ := Option.bind_eq_some_iff.1 st
    obtain ⟨down', read, rfl⟩ := Channels.myread_active.1 reads
    obtain ⟨downOk, sameClosed, sent, ⟨some_, short, split, eof, marked⟩ | ⟨-, closed, -⟩⟩ :=
      Channel.read_spec h.downOk (by omega) read
    swap
    · rw [open_.2] at closed
      cases closed
    have paid := Channel.cost_read sent split eof marked
    have downOpen : down'.closed = false := sameClosed.trans open_.2
    have pos := List.length_pos_of_ne_nil some_
    have size : (got ++ data).length = got.length + data.length := List.length_append
    have shape : got ++ data ++ (down'.unread ++ rest) = content := by
      rw [← down, split]
      simp
    dsimp only at st
    rw [if_neg some_] at st
    split_ifs at st with complete
    · -- the last piece
      have whole : content.length = (got ++ data).length := by omega
      have none : down'.unread ++ rest = [] := by
        have all_ := congrArg List.length shape
        rw [List.length_append] at all_
        exact List.eq_nil_of_length_eq_zero (by omega)
      rw [none, List.append_nil] at shape
      rw [List.append_eq_nil_iff] at none
      rw [none.2] at server
      have same : remaining setup { s with
          client := .receive got, length := s.length - data.length
          conn := { s.conn with down := down' } } =
          remaining setup s := by simp [remaining, client]
      have idle : Idle { s with
          client := .receive got, length := s.length - data.length
          conn := { s.conn with down := down' } } :=
        ⟨h.upOk, downOk, open_.1, downOpen, server.ready, up, none.1⟩
      obtain ⟨good, bound⟩ := idle.finish (by rw [same]; exact h.nameOk)
        nofun (by rw [same, shape]; exact all) st
      refine ⟨good, ?_⟩
      simp only [cost, owes, one, same] at bound ⊢
      omega
    · cases st
      have same : remaining setup { s with
          conn := { s.conn with down := down' }, length := s.length - data.length
          client := .receive (got ++ data) } =
          remaining setup s := by simp [remaining, client]
      have still : owed setup { s with
          conn := { s.conn with down := down' }, length := s.length - data.length
          client := .receive (got ++ data) } = 0 :=
        owed_of_idle up
      have again : clientCost (.receive (got ++ data)) = 1 := rfl
      refine ⟨⟨h.upOk, downOk, fun _ => ⟨open_.1, downOpen⟩, nofun, by rw [same]; exact h.nameOk, _,
        .receiving rfl server up shape ?_ ?_, by rw [same]; exact all⟩, ?_⟩
      · dsimp only
        omega
      · omega
      · simp only [cost, owes, one, same, still, again]
        omega

/-! ## Steps of the channels -/

/-- The programs do not see how far the bytes have come. -/
theorem Stage.moves {due : List Outcome} (h : Stage setup s due) {conn : Channels}
    (sameUp : conn.up.unread = s.conn.up.unread) (sameDown : conn.down.unread = s.conn.down.unread)
    (closed : conn.down.closed = s.conn.down.closed) : Stage setup { s with conn } due := by
  cases h with
  | prompt client server up down =>
    exact .prompt client server (sameUp.trans up) (sameDown.trans down)
  | asked client ok server up waits down =>
    exact .asked client ok server (by rwa [sameUp]) (by rwa [sameUp]) (sameDown.trans down)
  | answering client ok is server up down inside =>
    exact .answering client ok is server (sameUp.trans up) (by rwa [sameDown]) inside
  | receiving client server up down length more =>
    exact .receiving client server (sameUp.trans up) (by rwa [sameDown]) length more
  | closed client up down server =>
    exact .closed client (sameUp.trans up) (sameDown.trans down) (by rwa [closed])

theorem Good.moves (h : Good setup names s) {a : Channels.Move} {conn : Channels}
    (st : Channels.net.move a s.conn = some conn) :
    Good setup names { s with conn } ∧ cost setup { s with conn } + 1 ≤ cost setup s := by
  obtain ⟨upOk, downOk, upClosed, downClosed, up, down, paid⟩ := Channels.moves_spec h.upOk h.downOk st
  obtain ⟨due, stage, all⟩ := h.stage
  refine ⟨⟨upOk, downOk, fun open_ => ?_, fun closed => ?_, h.nameOk, due,
    stage.moves up down downClosed, all⟩, ?_⟩
  · rw [upClosed, downClosed]
    exact h.opened open_
  · rw [upClosed]
    exact h.ended closed
  · have owes : owed setup { s with conn } = owed setup s := by simp only [owed, up]
    have same : remaining setup { s with conn } = remaining setup s := rfl
    simp only [cost, owes, same]
    omega

/-- Every step keeps the invariant and costs something. -/
theorem Good.step (h : Good setup names s) (stable : Stable setup.fs)
    {a : SessionAction Channels.Move} (st : Session.step Channels.net setup s a = some s') :
    Good setup names s' ∧ cost setup s' + 1 ≤ cost setup s := by
  cases a with
  | server => exact h.server stable st
  | move a =>
    obtain ⟨conn, moved, rfl⟩ := Option.map_eq_some_iff.1 st
    exact h.moves moved
  | client =>
    replace st : clientStep Channels.net setup s = some s' := st
    cases client : s.client with
    | prompt => exact h.prompts client st
    | reply buf => exact h.replies stable client st
    | receive got => exact h.receives client st
    | closed | failed | undefined =>
      rw [clientStep, client] at st
      cases st

theorem spends (stable : Stable setup.fs) :
    (machine Channels.net setup).Spends (fun _ => True) (Good setup names) (cost setup) where
  keep s a o s' good _ st := by
    obtain ⟨t, moved, same⟩ := Option.map_eq_some_iff.1 st
    cases same
    exact (good.step stable moved).1
  spend s a o s' good _ st := by
    obtain ⟨t, moved, same⟩ := Option.map_eq_some_iff.1 st
    cases same
    exact (good.step stable moved).2

/-! ## Sessions at rest -/

theorem clientCloses_some {t : Session Channels} (opened : t.conn.up.closed = false) (pc : ClientPc) :
    ∃ t', t.clientCloses Channels.net pc = some t' := by
  rw [clientCloses, Channels.myclose_active opened]
  exact ⟨_, rfl⟩

theorem finish_some {t : Session Channels} (opened : t.conn.up.closed = false) (result : Outcome) :
    ∃ t', Session.finish Channels.net setup t result = some t' := by
  unfold Session.finish
  dsimp only
  split_ifs
  · exact clientCloses_some (by exact opened) _
  · exact ⟨_, rfl⟩

theorem answered_some {t : Session Channels} (opened : t.conn.up.closed = false)
    (line : List UInt8) : ∃ t', Session.answered Channels.net setup t line = some t' := by
  unfold Session.answered
  split
  · exact clientCloses_some (by exact opened) _
  · exact ⟨_, rfl⟩
  · dsimp only
    split_ifs
    · exact finish_some (by exact opened) _
    · exact finish_some (by exact opened) _
    · exact ⟨_, rfl⟩
    · exact ⟨_, rfl⟩

theorem prompts_some {t : Session Channels} (client : t.client = .prompt)
    (opened : t.conn.up.closed = false) : ∃ t', clientStep Channels.net setup t = some t' := by
  have sends : ∀ (u : Session Channels) name, u.conn = t.conn →
      ∃ t', u.sendRequest Channels.net name = some t' := by
    intro u name same
    unfold Session.sendRequest
    split_ifs
    · exact ⟨_, rfl⟩
    · rw [same, Channels.mywrite_active opened]
      exact ⟨_, rfl⟩
  rw [clientStep, client]
  dsimp only
  split
  · exact sends _ _ rfl
  · split
    · exact clientCloses_some (by exact opened) _
    · split
      · exact ⟨_, rfl⟩
      · exact sends _ _ rfl

theorem replies_some {t : Session Channels} {buf : List UInt8} (client : t.client = .reply buf)
    (opened : t.conn.up.closed = false) {ch : Channel} {data : List UInt8}
    (read : t.conn.down.step (.read 1) = some (ch, data)) :
    ∃ t', clientStep Channels.net setup t = some t' := by
  rw [clientStep, client]
  dsimp only
  rw [Channels.myread_active.2 ⟨ch, read, rfl⟩, Option.bind_some]
  dsimp only
  split
  · exact ⟨_, rfl⟩
  · exact answered_some (by exact opened) _
  · exact ⟨_, rfl⟩

theorem receives_some {t : Session Channels} {got : List UInt8} (client : t.client = .receive got)
    (opened : t.conn.up.closed = false) {ch : Channel} {data : List UInt8}
    (read : t.conn.down.step (.read (min t.length 1000).toNat) = some (ch, data)) :
    ∃ t', clientStep Channels.net setup t = some t' := by
  rw [clientStep, client]
  dsimp only
  rw [Channels.myread_active.2 ⟨ch, read, rfl⟩, Option.bind_some]
  dsimp only
  split_ifs
  · exact clientCloses_some (by exact opened) _
  · exact finish_some (by exact opened) _
  · exact ⟨_, rfl⟩

theorem server_some {t : Session Channels} {part : List UInt8} (server : ServerReady t.server part)
    (opened : t.conn.down.closed = false) {ch : Channel} {data : List UInt8}
    (read : t.conn.up.step (.read 1) = some (ch, data)) :
    ∃ t', serverStep Channels.net setup t = some t' := by
  rcases server with line | ⟨-, file⟩
  · rw [serverStep, line]
    dsimp only
    rw [Channels.myread_passive.2 ⟨ch, read, rfl⟩, Option.bind_some]
    dsimp only
    split
    · exact ⟨_, rfl⟩
    · exact ⟨_, rfl⟩
    · split_ifs
      · rw [serverCloses, Channels.myclose_passive (by exact opened)]
        exact ⟨_, rfl⟩
      · rw [Channels.mywrite_passive (by exact opened)]
        exact ⟨_, rfl⟩
  · rw [serverStep, file]
    exact ⟨_, rfl⟩

theorem sends_some {t : Session Channels} {rest : List UInt8} (server : ServerSends t.server rest)
    (some_ : rest ≠ []) (opened : t.conn.down.closed = false) :
    ∃ t', serverStep Channels.net setup t = some t' := by
  obtain file := server.resolve_right fun h => some_ h.1
  rw [serverStep, file]
  dsimp only
  rw [if_neg some_, Channels.mywrite_passive opened]
  exact ⟨_, rfl⟩

theorem stuck_of_atRest (rest : (machine Channels.net setup).AtRest (fun _ => True) s) :
    (∀ a t, Session.step Channels.net setup s a ≠ some t) ∧
      ∀ a t, Channels.net.move a s.conn ≠ some t := by
  have stuck : ∀ a t, Session.step Channels.net setup s a ≠ some t := fun a t st => by
    have none : (Session.step Channels.net setup s a).map (fun t => (t, ())) = .none := rest a trivial
    rw [st] at none
    cases none
  exact ⟨stuck, fun a t st => stuck (.move a) _ (by rw [Session.step, st]; rfl)⟩

/-- A session at rest is over: both programs have closed, and every request has its outcome. -/
theorem Good.atRest (h : Good setup names s)
    (rest : (machine Channels.net setup).AtRest (fun _ => True) s) :
    s.client = .closed ∧ s.server = .closed ∧ s.outcomes = names.map (outcome setup) := by
  obtain ⟨stuck, moves⟩ := stuck_of_atRest rest
  have clients : ∀ t, clientStep Channels.net setup s ≠ some t := stuck .client
  have servers : ∀ t, serverStep Channels.net setup s ≠ some t := stuck .server
  obtain ⟨up, upMarked, down, -⟩ := Channels.still moves
  obtain ⟨due, stage, all⟩ := h.stage
  cases stage with
  | prompt client =>
    obtain ⟨t, st⟩ := prompts_some client (h.opened (by rw [client]; nofun)).1
    exact absurd st (clients t)
  | asked client _ server _ waits =>
    obtain ⟨ch, data, read⟩ := Channel.readable up (Or.inl waits) 1
    obtain ⟨t, st⟩ := server_some server (h.opened (by rw [client]; nofun)).2 read
    exact absurd st (servers t)
  | @answering name buf rest text content client ok is server _ split inside =>
    have open_ := h.opened (by rw [client]; nofun)
    by_cases more : rest = []
    · have waits : s.conn.down.unread ≠ [] := by
        intro none
        have size := congrArg List.length split
        rw [none, more, List.append_nil, List.append_nil, List.length_append] at size
        omega
      obtain ⟨ch, data, read⟩ := Channel.readable down (Or.inl waits) 1
      obtain ⟨t, st⟩ := replies_some client open_.1 read
      exact absurd st (clients t)
    · obtain ⟨t, st⟩ := sends_some server more open_.2
      exact absurd st (servers t)
  | @receiving got rest content client server _ split _ inside =>
    have open_ := h.opened (by rw [client]; nofun)
    by_cases more : rest = []
    · have waits : s.conn.down.unread ≠ [] := by
        intro none
        have size := congrArg List.length split
        rw [none, more, List.append_nil, List.append_nil] at size
        omega
      obtain ⟨ch, data, read⟩ := Channel.readable down (Or.inl waits) _
      obtain ⟨t, st⟩ := receives_some client open_.1 read
      exact absurd st (clients t)
    · obtain ⟨t, st⟩ := sends_some server more open_.2
      exact absurd st (servers t)
  | closed client _ _ server =>
    obtain ⟨shut, none⟩ := h.ended client
    rcases server with ⟨server, open_⟩ | server
    · obtain ⟨ch, data, read⟩ := Channel.readable up (Or.inr (upMarked shut)) 1
      obtain ⟨t, st⟩ := server_some server open_ read
      exact absurd st (servers t)
    · refine ⟨client, server, ?_⟩
      rw [none] at all
      simpa using all.symm

/-! ## Whole sessions -/

variable (setup) in
/-- The requests that the client makes, one by one. -/
def requests (text : List UInt8) : List (List UInt8) :=
  match setup.filename with
  | none => (fgetsAll 999 text.length text).filterMap request
  | some name => [name]

variable (setup) in
/-- Every request fits the server's line, and the name behind `-f` is one that a line can hold. -/
structure Fits (text : List UInt8) : Prop where
  short : ∀ name ∈ requests setup text, name.length ≤ 255
  named : ∀ name, setup.filename = some name → NameOk name

variable {text : List UInt8} {length : ℤ}

theorem Fits.nameOk (h : Fits setup text) : ∀ name ∈ requests setup text, NameOk name := by
  intro name mem
  have short := h.short name mem
  cases named : setup.filename with
  | some name' =>
    rw [requests, named] at mem
    obtain rfl := List.mem_singleton.1 mem
    exact h.named _ named
  | none =>
    rw [requests, named] at mem
    obtain ⟨line, typed, made⟩ := List.mem_filterMap.1 mem
    obtain ⟨some_, free⟩ := free_of_request made (newline_last_all _ _ _ _ typed)
    exact ⟨some_, free, short⟩

theorem remaining_init : remaining setup (init text length Channels.init) = requests setup text := by
  unfold remaining requests
  cases setup.filename <;> rfl

theorem good_init (fits : Fits setup text) :
    Good setup (requests setup text) (init text length Channels.init) where
  upOk := Channel.ok_init false
  downOk := Channel.ok_init true
  opened _ := ⟨rfl, rfl⟩
  ended := nofun
  nameOk := by
    rw [remaining_init]
    exact fits.nameOk
  stage := ⟨[], .prompt rfl (Or.inl rfl) rfl rfl, by rw [remaining_init]; rfl⟩

/-- What the invariant says of the programs. -/
theorem Good.safe (h : Good setup names s) :
    (s.client ≠ .failed ∧ s.client ≠ .undefined ∧ s.server ≠ .overrun) ∧
    s.outcomes <+: names.map (outcome setup) ∧
    (s.client = .closed → s.outcomes = names.map (outcome setup)) := by
  obtain ⟨due, stage, all⟩ := h.stage
  refine ⟨?_, ⟨_, all.symm⟩, fun closed => ?_⟩
  · cases stage with
    | prompt client server | asked client _ server =>
      rw [client]
      exact ⟨nofun, nofun, server.inside⟩
    | answering client _ _ server | receiving client server =>
      rw [client]
      exact ⟨nofun, nofun, server.inside⟩
    | closed client _ _ server =>
      rw [client]
      refine ⟨nofun, nofun, ?_⟩
      rcases server with ⟨server, -⟩ | server
      · exact server.inside
      · rw [server]
        nofun
  · cases stage with
    | prompt client | asked client | answering client | receiving client =>
      rw [client] at closed
      cases closed
    | closed =>
      rw [(h.ended closed).2] at all
      simpa using all.symm

/-- A session with files that do not change and names that fit the server's line: the client never
gives up, neither program leaves its buffers, and the outcomes come in the order of the requests.
Every session ends, in whatever order the programs and the channels take their steps, and then both
programs have closed and every request has its outcome. -/
theorem transfers_complete (stable : Stable setup.fs) (fits : Fits setup text)
    {tr : List (SessionAction Channels.Move × Unit)}
    (run : (machine Channels.net setup).Run (init text length Channels.init) tr s) :
    (s.client ≠ .failed ∧ s.client ≠ .undefined ∧ s.server ≠ .overrun) ∧
    s.outcomes <+: (requests setup text).map (outcome setup) ∧
    tr.length ≤ (fgetsAll 999 text.length text).length +
      ((requests setup text).map (requestCost setup)).sum + 6 ∧
    ((machine Channels.net setup).AtRest (fun _ => True) s →
      s.client = .closed ∧ s.server = .closed ∧
        s.outcomes = (requests setup text).map (outcome setup)) ∧
    ∃ tr' s', (machine Channels.net setup).Run s tr' s' ∧
      (machine Channels.net setup).AtRest (fun _ => True) s' := by
  have start : Good setup (requests setup text) (init text length Channels.init) := good_init fits
  obtain ⟨good, bound⟩ := (spends stable).length_le start run
  obtain ⟨safe, front, -⟩ := good.safe
  refine ⟨safe, front, ?_, good.atRest, (spends stable).exists_atRest good⟩
  have paid : cost setup (init text length Channels.init) = (fgetsAll 999 text.length text).length +
      ((requests setup text).map (requestCost setup)).sum + 6 := by
    rw [cost, remaining_init]
    rfl
  omega

/-- A server with one file, `aa`, and a client that reads what it is typed. -/
def oneFile : Setup where
  fs name := if name = [97, 97] then .opened 3 [120, 121, 122] false else .denied
  filename := none
  quiet := false

theorem stable_oneFile : Stable oneFile.fs := by
  intro name size content fails opened
  simp only [oneFile] at opened
  split_ifs at opened
  cases opened
  exact ⟨rfl, rfl, by decide⟩

/-- `aa`, an empty line and `no` are typed. -/
def typedText : List UInt8 := [97, 97, 10, 10, 110, 111, 32, 10]

theorem requests_typedText : requests oneFile typedText = [[97, 97], [110, 111]] := by decide +kernel

theorem fits_typedText : Fits oneFile typedText where
  short := by
    rw [requests_typedText]
    decide
  named := nofun

theorem transfers_complete_oneFile : ∃ tr s,
    (machine Channels.net oneFile).Run (init typedText 7 Channels.init) tr s ∧
      s.client = .closed ∧ s.server = .closed ∧ tr.length ≤ 170 ∧
      s.outcomes = [.stored [120, 121, 122], .refused] := by
  have first : (machine Channels.net oneFile).Run (init typedText 7 Channels.init) []
      (init typedText 7 Channels.init) := .nil
  obtain ⟨-, -, -, -, tr, s, run, rest⟩ := transfers_complete stable_oneFile fits_typedText first
  obtain ⟨-, -, bound, atEnd, -⟩ := transfers_complete stable_oneFile fits_typedText run
  obtain ⟨client, server, outcomes⟩ := atEnd rest
  refine ⟨tr, s, run, client, server, bound.trans ?_, outcomes.trans ?_⟩
  · rw [requests_typedText]
    decide +kernel
  · rw [requests_typedText]
    decide +kernel

end Session

end ComputerNetwork.Tcp
