import ComputerNetwork.Tcp.FileSession

/-!
# The file transfer over STCP

The two programs on the two STCP endpoints, whose threads, segments and packets take their steps in
any order.  What carries the calls of the programs may be replaced by what can do the same
(`Session.simulates`), and two channels can do what a connection does (`channels_simulate`).  So in
every session over STCP the client has stored what the server has (`transfers_over_stcp`).
-/

namespace ComputerNetwork.Tcp

open Lib

variable {T U I J : Type*}

/-! ## One net for another -/

/-- The steps that a net takes by itself. -/
def Net.Moves (net : Net T I) : T → T → Prop :=
  Relation.ReflTransGen fun t t' => ∃ a, net.move a t = some t'

/-- What happens on `net` can happen on `net'` too, with the same bytes read. -/
structure Net.Simulates (net : Net T I) (net' : Net U J) (R : T → U → Prop) : Prop where
  mywrite : ∀ {side buf t t' u}, R t u → net.mywrite side buf t = some t' →
    ∃ u', net'.mywrite side buf u = some u' ∧ R t' u'
  myclose : ∀ {side t t' u}, R t u → net.myclose side t = some t' →
    ∃ u', net'.myclose side u = some u' ∧ R t' u'
  myread : ∀ {side bufLen t t' data u}, R t u → net.myread side bufLen t = some (t', data) →
    ∃ u', net'.myread side bufLen u = some (u', data) ∧ R t' u'
  move : ∀ {a t t' u}, R t u → net.move a t = some t' → ∃ u', net'.Moves u u' ∧ R t' u'

namespace Session

/-- The same programs on another net. -/
def carriedBy (s : Session T) (u : U) : Session U :=
  { client := s.client, typed := s.typed, length := s.length, outcomes := s.outcomes
    server := s.server, conn := u }

section Fields

variable (s : Session T) (u : U)

@[simp] theorem carriedBy_client : (s.carriedBy u).client = s.client := rfl

@[simp] theorem carriedBy_typed : (s.carriedBy u).typed = s.typed := rfl

@[simp] theorem carriedBy_length : (s.carriedBy u).length = s.length := rfl

@[simp] theorem carriedBy_server : (s.carriedBy u).server = s.server := rfl

@[simp] theorem carriedBy_conn : (s.carriedBy u).conn = u := rfl

end Fields

/-- Where the programs get on one net they get on the other. -/
def Follows (R : T → U → Prop) (x : Option (Session T)) (y : Option (Session U)) : Prop :=
  ∀ s, x = some s → ∃ u, y = some (s.carriedBy u) ∧ R s.conn u

variable {net : Net T I} {net' : Net U J} {R : T → U → Prop} {setup : Setup} {s : Session T} {u : U}

theorem follows_some (r : R s.conn u) : Follows R (some s) (some (s.carriedBy u)) := by
  intro s' same
  cases same
  exact ⟨u, rfl, r⟩

theorem follows_none (y : Option (Session U)) : Follows R (none : Option (Session T)) y := by
  intro s' st
  cases st

section Steps

variable (h : net.Simulates net' R)

include h

theorem clientCloses_follows (r : R s.conn u) (pc : ClientPc) :
    Follows R (s.clientCloses net pc) ((s.carriedBy u).clientCloses net' pc) := by
  intro s' st
  obtain ⟨t', closes, rfl⟩ := Option.map_eq_some_iff.1 st
  obtain ⟨u', closes', r'⟩ := h.myclose r closes
  refine ⟨u', ?_, r'⟩
  rw [clientCloses, carriedBy_conn, closes']
  rfl

theorem serverCloses_follows (r : R s.conn u) :
    Follows R (s.serverCloses net) ((s.carriedBy u).serverCloses net') := by
  intro s' st
  obtain ⟨t', closes, rfl⟩ := Option.map_eq_some_iff.1 st
  obtain ⟨u', closes', r'⟩ := h.myclose r closes
  refine ⟨u', ?_, r'⟩
  rw [serverCloses, carriedBy_conn, closes']
  rfl

theorem sendRequest_follows (r : R s.conn u) (name : List UInt8) :
    Follows R (s.sendRequest net name) ((s.carriedBy u).sendRequest net' name) := by
  unfold sendRequest
  split_ifs
  · exact follows_some (s := { s with client := .undefined }) r
  · intro s' st
    obtain ⟨t', writes, rfl⟩ := Option.map_eq_some_iff.1 st
    obtain ⟨u', writes', r'⟩ := h.mywrite r writes
    refine ⟨u', ?_, r'⟩
    rw [carriedBy_conn, writes']
    rfl

theorem finish_follows (r : R s.conn u) (result : Outcome) :
    Follows R (finish net setup s result) (finish net' setup (s.carriedBy u) result) := by
  unfold finish
  dsimp only
  split_ifs
  · exact clientCloses_follows h (s := { s with outcomes := s.outcomes ++ [result] }) r _
  · exact follows_some (s := { s with outcomes := s.outcomes ++ [result], client := .prompt }) r

theorem answered_follows (r : R s.conn u) (line : List UInt8) :
    Follows R (answered net setup s line) (answered net' setup (s.carriedBy u) line) := by
  unfold answered
  rw [carriedBy_length]
  cases parseReply s.length line with
  | malformed =>
    exact clientCloses_follows h (s := { s with outcomes := s.outcomes ++ [.malformed] }) r _
  | undefined => exact follows_some (s := { s with client := .undefined }) r
  | length n =>
    dsimp only
    split_ifs
    · exact finish_follows h (s := { s with length := n }) r _
    · exact finish_follows h (s := { s with length := n }) r _
    · exact follows_some (s := { s with length := n, client := .undefined }) r
    · exact follows_some (s := { s with length := n, client := .receive [] }) r

theorem clientStep_follows (r : R s.conn u) :
    Follows R (clientStep net setup s) (clientStep net' setup (s.carriedBy u)) := by
  unfold clientStep
  rw [carriedBy_client]
  cases s.client with
  | prompt =>
    dsimp only
    cases setup.filename with
    | some name => exact sendRequest_follows h r name
    | none =>
      dsimp only
      rw [carriedBy_typed]
      cases s.typed with
      | nil => exact clientCloses_follows h r _
      | cons line typed =>
        dsimp only
        cases request line with
        | none => exact follows_some (s := { s with client := .prompt, typed }) r
        | some name => exact sendRequest_follows h (s := { s with client := .prompt, typed }) r name
  | reply buf =>
    intro s' st
    obtain ⟨⟨t', data⟩, reads, st⟩ := Option.bind_eq_some_iff.1 st
    obtain ⟨u', reads', r'⟩ := h.myread r reads
    dsimp only at st ⊢
    rw [carriedBy_conn, reads', Option.bind_some]
    dsimp only
    cases what : getNvtLine 1000 buf data with
    | more buf =>
      rw [what] at st
      exact follows_some (s := { s with conn := t', client := .reply buf }) r' s' st
    | line line =>
      rw [what] at st
      exact answered_follows h (s := { s with conn := t' }) r' line s' st
    | overrun =>
      rw [what] at st
      exact follows_some (s := { s with conn := t', client := .undefined }) r' s' st
  | receive got =>
    intro s' st
    obtain ⟨⟨t', data⟩, reads, st⟩ := Option.bind_eq_some_iff.1 st
    obtain ⟨u', reads', r'⟩ := h.myread r reads
    dsimp only at st ⊢
    rw [carriedBy_conn, carriedBy_length, reads',
      Option.bind_some]
    dsimp only
    split_ifs at st ⊢
    · exact clientCloses_follows h (s := { s with conn := t' }) r' _ s' st
    · exact finish_follows h (s := { s with conn := t', length := s.length - data.length }) r' _ s' st
    · exact follows_some (s := { s with
        conn := t', length := s.length - data.length, client := .receive (got ++ data) }) r' s' st
  | closed | failed | undefined => exact follows_none _

theorem serverStep_follows (r : R s.conn u) :
    Follows R (serverStep net setup s) (serverStep net' setup (s.carriedBy u)) := by
  unfold serverStep
  rw [carriedBy_server]
  cases s.server with
  | line buf =>
    intro s' st
    obtain ⟨⟨t', data⟩, reads, st⟩ := Option.bind_eq_some_iff.1 st
    obtain ⟨u', reads', r'⟩ := h.myread r reads
    dsimp only at st ⊢
    rw [carriedBy_conn, reads', Option.bind_some]
    dsimp only
    cases what : getNvtLine 256 buf data with
    | more buf =>
      rw [what] at st
      exact follows_some (s := { s with conn := t', server := .line buf }) r' s' st
    | overrun =>
      rw [what] at st
      exact follows_some (s := { s with conn := t', server := .overrun }) r' s' st
    | line line =>
      rw [what] at st
      dsimp only at st ⊢
      split_ifs at st ⊢
      · exact serverCloses_follows h (s := { s with conn := t' }) r' s' st
      · obtain ⟨t'', writes, rfl⟩ := Option.map_eq_some_iff.1 st
        obtain ⟨u'', writes', r''⟩ := h.mywrite r' writes
        rw [writes']
        exact ⟨u'', rfl, r''⟩
  | file rest fails =>
    dsimp only
    split_ifs
    · exact serverCloses_follows h r
    · exact follows_some (s := { s with server := .line [] }) r
    · intro s' st
      obtain ⟨t', writes, rfl⟩ := Option.map_eq_some_iff.1 st
      obtain ⟨u', writes', r'⟩ := h.mywrite r writes
      rw [carriedBy_conn, writes']
      exact ⟨u', rfl, r'⟩
  | closed | overrun => exact follows_none _

end Steps

variable (setup) in
/-- The programs stay where they are while the net takes steps. -/
theorem runs_of_moves {t : T} (moves : net.Moves s.conn t) :
    ∃ tr, (machine net setup).Run s tr (s.carriedBy t) := by
  induction moves with
  | refl => exact ⟨[], .nil⟩
  | @tail t t' _ moved ih =>
    obtain ⟨tr, run⟩ := ih
    obtain ⟨a, moved⟩ := moved
    have st : (machine net setup).step (s.carriedBy t) (.move a) = some (s.carriedBy t', ()) := by
      show ((net.move a t).map _).map _ = _
      rw [moved]
      rfl
    exact ⟨_, run.snoc trivial st⟩

/-- Every session on `net` is one on `net'` in which the programs get as far. -/
theorem simulates (h : net.Simulates net' R) {text : List UInt8} {length : ℤ} {t : T} {u : U}
    (r : R t u) {tr : List (SessionAction I × Unit)} {s : Session T}
    (run : (machine net setup).Run (init text length t) tr s) :
    ∃ tr' u', (machine net' setup).Run (init text length u) tr' (s.carriedBy u') ∧ R s.conn u' := by
  refine run.invariant (I := fun _ s => ∃ tr' u',
    (machine net' setup).Run (init text length u) tr' (s.carriedBy u') ∧ R s.conn u')
    ⟨[], u, .nil, r⟩ ?_
  rintro tr s a o s' - ⟨tr', u', ran, r⟩ - st
  obtain ⟨s'', stepped, same⟩ := Option.map_eq_some_iff.1 st
  cases same
  cases a with
  | client =>
    obtain ⟨u'', st', r'⟩ := clientStep_follows h r s' stepped
    have next : (machine net' setup).step (s.carriedBy u') .client = some (s'.carriedBy u'', ()) := by
      show (clientStep net' setup (s.carriedBy u')).map _ = _
      rw [st']
      rfl
    exact ⟨_, u'', ran.snoc trivial next, r'⟩
  | server =>
    obtain ⟨u'', st', r'⟩ := serverStep_follows h r s' stepped
    have next : (machine net' setup).step (s.carriedBy u') .server = some (s'.carriedBy u'', ()) := by
      show (serverStep net' setup (s.carriedBy u')).map _ = _
      rw [st']
      rfl
    exact ⟨_, u'', ran.snoc trivial next, r'⟩
  | move a =>
    obtain ⟨t', moved, rfl⟩ := Option.map_eq_some_iff.1 stepped
    obtain ⟨u'', moves, r'⟩ := h.move r moved
    obtain ⟨more, ran'⟩ := runs_of_moves setup (s := s.carriedBy u') moves
    exact ⟨_, u'', ran.append ran', r'⟩

end Session

/-! ## Channels for a connection -/

namespace Connection

variable {c c' : Connection} {chs chs' : Channels} {rActive rPassive : ℕ} {o : Obs}

theorem run_snoc {c₀ : Connection} {tr : ConnectionTrace} {a : ConnectionAction}
    (run : machine.Run c₀ tr c) (st : c.step a = some (c', o)) :
    machine.Run c₀ (tr ++ [(a, o)]) c' := run.snoc trivial st

/-- The two channels stand for the two directions of a connection that a run has reached. -/
def StandFor (rActive rPassive : ℕ) (c : Connection) (chs : Channels) : Prop :=
  ∃ tr, machine.Run (init rActive rPassive) tr c ∧
    Stands .active tr c chs.up ∧ Stands .passive tr c chs.down

theorem standFor_init : StandFor rActive rPassive (init rActive rPassive) Channels.init :=
  ⟨[], .nil, stands_init .active, stands_init .passive⟩

/-- What a run of a channel without calls does, the channels between the programs do by themselves;
`p` says which of them it is. -/
theorem moves_of_run {p : Channel → Channels} {ch ch' : Channel}
    {tr : List (ChannelAction × List UInt8)}
    (handUp : ∀ n ch ch' data, ch.step (.handUp n) = some (ch', data) →
      ∃ a, Channels.net.move a (p ch) = some (p ch'))
    (eof : ∀ ch ch' data, ch.step .eof = some (ch', data) →
      ∃ a, Channels.net.move a (p ch) = some (p ch'))
    (run : Channel.machine.Run ch tr ch') (silent : Channel.calls tr = []) :
    Channels.net.Moves (p ch) (p ch') := by
  induction run with
  | nil => exact .refl
  | @snoc tr ch' a data ch'' _ _ st ih =>
    rw [Channel.calls_append, List.append_eq_nil_iff] at silent
    refine (ih silent.1).tail ?_
    cases a with
    | write | close | read => exact absurd silent.2 (by simp [Channel.calls])
    | handUp n => exact handUp n _ _ _ st
    | eof => exact eof _ _ _ st

theorem moves_up {ch ch' : Channel} {tr : List (ChannelAction × List UInt8)}
    (run : Channel.machine.Run ch tr ch') (silent : Channel.calls tr = []) (down : Channel) :
    Channels.net.Moves { up := ch, down } { up := ch', down } := by
  refine moves_of_run (p := fun up => { up, down }) (fun n ch ch' data st => ?_)
    (fun ch ch' data st => ?_) run silent
  · exact ⟨.handUp true n, by simp only [Channels.net, Channels.stepUp, st, Option.map_some]⟩
  · exact ⟨.eof true, by simp only [Channels.net, Channels.stepUp, st, Option.map_some]⟩

theorem moves_down {ch ch' : Channel} {tr : List (ChannelAction × List UInt8)}
    (run : Channel.machine.Run ch tr ch') (silent : Channel.calls tr = []) (up : Channel) :
    Channels.net.Moves { up, down := ch } { up, down := ch' } := by
  refine moves_of_run (p := fun down => { up, down }) (fun n ch ch' data st => ?_)
    (fun ch ch' data st => ?_) run silent
  · exact ⟨.handUp false n, by simp only [Channels.net, Channels.stepDown, st, Option.map_some]⟩
  · exact ⟨.eof false, by simp only [Channels.net, Channels.stepDown, st, Option.map_some]⟩

/-- Two channels can do what a connection does. -/
theorem channels_simulate : net.Simulates Channels.net (StandFor rActive rPassive) where
  mywrite := by
    rintro side buf c c' chs ⟨tr, run, up, down⟩ writes
    obtain ⟨⟨_, o⟩, st, rfl⟩ := Option.map_eq_some_iff.1 writes
    have next := run_snoc run st
    cases side with
    | active =>
      obtain ⟨opened, up'⟩ := up.write st
      obtain ⟨-, down'⟩ := down.other (Or.inl ⟨buf, rfl⟩) st
      exact ⟨_, Channels.mywrite_active opened buf, _, next, up', down'⟩
    | passive =>
      obtain ⟨opened, down'⟩ := down.write st
      obtain ⟨-, up'⟩ := up.other (Or.inl ⟨buf, rfl⟩) st
      exact ⟨_, Channels.mywrite_passive opened buf, _, next, up', down'⟩
  myclose := by
    rintro side c c' chs ⟨tr, run, up, down⟩ closes
    obtain ⟨⟨_, o⟩, st, rfl⟩ := Option.map_eq_some_iff.1 closes
    have next := run_snoc run st
    cases side with
    | active =>
      obtain ⟨opened, up'⟩ := up.close st
      obtain ⟨-, down'⟩ := down.other (Or.inr (Or.inl rfl)) st
      exact ⟨_, Channels.myclose_active opened, _, next, up', down'⟩
    | passive =>
      obtain ⟨opened, down'⟩ := down.close st
      obtain ⟨-, up'⟩ := up.other (Or.inr (Or.inl rfl)) st
      exact ⟨_, Channels.myclose_passive opened, _, next, up', down'⟩
  myread := by
    rintro side bufLen c c' data chs ⟨tr, run, up, down⟩ reads
    obtain ⟨⟨c'', o⟩, st, reads⟩ := Option.bind_eq_some_iff.1 reads
    obtain ⟨⟨data', m⟩, read, same⟩ := Option.map_eq_some_iff.1 reads
    cases same
    have next := run_snoc run st
    cases side with
    | active =>
      obtain ⟨-, up'⟩ := up.other (Or.inr (Or.inr ⟨bufLen, rfl⟩)) st
      obtain ⟨data', m', sock, read', reads, down'⟩ := down.read st
      cases read.symm.trans read'
      exact ⟨_, Channels.myread_active.2 ⟨_, reads, rfl⟩, _, next, up', down'⟩
    | passive =>
      obtain ⟨-, down'⟩ := down.other (Or.inr (Or.inr ⟨bufLen, rfl⟩)) st
      obtain ⟨data', m', sock, read', reads, up'⟩ := up.read st
      cases read.symm.trans read'
      exact ⟨_, Channels.myread_passive.2 ⟨_, reads, rfl⟩, _, next, up', down'⟩
  move := by
    rintro a c c' chs ⟨tr, run, up, down⟩ moves
    obtain ⟨⟨_, o⟩, st, rfl⟩ := Option.map_eq_some_iff.1 moves
    have inv := inv_of_run run
    obtain ⟨trUp, chUp, ranUp, silentUp, up'⟩ := up.below inv st
    obtain ⟨trDown, chDown, ranDown, silentDown, down'⟩ := down.below inv st
    refine ⟨{ up := chUp, down := chDown }, ?_, _, run_snoc run st, up', down'⟩
    exact (moves_up ranUp silentUp chs.down).trans (moves_down ranDown silentDown chUp)

end Connection

namespace Session

variable {setup : Setup} {text : List UInt8} {length : ℤ} {rActive rPassive : ℕ}

/-- The file transfer over STCP, for files that do not change and names that fit the server's line,
and any order in which the programs, the STCP threads and the network take their steps: the client
never gives up, neither program leaves its buffers, and the outcomes come in the order of the
requests, each file stored as the server has it; when the client has closed, all have come. -/
theorem transfers_over_stcp (stable : Stable setup.fs) (fits : Fits setup text)
    {tr : List (SessionAction Connection.Below × Unit)} {s : Session Connection}
    (run : (machine Connection.net setup).Run
      (init text length (Connection.init rActive rPassive)) tr s) :
    (s.client ≠ .failed ∧ s.client ≠ .undefined ∧ s.server ≠ .overrun) ∧
    s.outcomes <+: (requests setup text).map (outcome setup) ∧
    (s.client = .closed → s.outcomes = (requests setup text).map (outcome setup)) := by
  obtain ⟨tr', chs, ran, -⟩ := simulates Connection.channels_simulate Connection.standFor_init run
  have start : Good setup (requests setup text) (init text length Channels.init) := good_init fits
  exact ((spends stable).length_le start ran).1.safe

/-- The client asks for `aa` and for nothing else. -/
def oneRequest : Setup := { oneFile with filename := some [97, 97] }

/-- Turns of a thread. -/
def turns (side : Side) (n : ℕ) : List (SessionAction Connection.Below) :=
  List.replicate n (.move (.transport side 9))

/-- The connection is opened, `aa` is sent, and the response and the file come back. -/
def oneTransfer : List (SessionAction Connection.Below) :=
  turns .active 1 ++ [.move (.deliver .passive)] ++ turns .passive 2 ++
    [.move (.deliver .active)] ++ turns .active 3 ++ [.client] ++ turns .active 3 ++
    [.move (.deliver .passive), .move (.deliver .passive)] ++ turns .passive 5 ++
    List.replicate 6 .server ++ turns .passive 7 ++ [.move (.deliver .active)] ++ turns .active 2 ++
    [.move (.deliver .active)] ++ turns .active 3 ++ List.replicate 9 .client ++ turns .active 1 ++
    [.move (.deliver .passive)] ++ turns .passive 2 ++ [.move (.deliver .active)] ++
    turns .active 3 ++ [.client]

theorem transfers_over_stcp_oneRequest : ∃ tr s,
    (machine Connection.net oneRequest).Run (init [] 0 (Connection.init 7 9)) tr s ∧
      s.client = .closed ∧ s.outcomes = [.stored [120, 121, 122]] := by
  obtain ⟨tr, s, run, closed⟩ := Machine.Runs.exists_of_exec (M := machine Connection.net oneRequest)
    (C := fun _ _ _ => true) (i := init [] 0 (Connection.init 7 9))
    (P := fun _ s => s.client = .closed) oneTransfer (by decide +kernel)
  have run : (machine Connection.net oneRequest).Run (init [] 0 (Connection.init 7 9)) tr s :=
    run.mono fun _ _ _ _ => trivial
  have fits : Fits oneRequest [] := by
    refine ⟨fun name mem => ?_, fun name named => ?_⟩
    · rw [List.mem_singleton.1 mem]
      decide
    · cases named
      exact ⟨by decide, by decide +kernel, by decide⟩
  have stable : Stable oneRequest.fs := stable_oneFile
  obtain ⟨-, -, all⟩ := transfers_over_stcp stable fits run
  refine ⟨tr, s, run, closed, (all closed).trans ?_⟩
  decide +kernel

end Session

end ComputerNetwork.Tcp
