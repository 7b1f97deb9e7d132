import ComputerNetwork.Tcp.FileSession

/-!
# Requests that do not fit

The client's line holds 997 bytes of a request, the server's `line[256]` a request of 255.  When the
first request is longer than that, `get_nvt_line` stores a byte behind the line before the server has
answered anything (`long_request_overruns`).  The server's steps are followed up to that store; what it
does afterwards depends on what it has overwritten.
-/

namespace ComputerNetwork.Tcp.Session

open Lib

/-- A request that the client can send and that the server's line cannot hold. -/
structure Overlong (name : List UInt8) : Prop where
  oneLine : 10 ∉ name
  long : 256 ≤ name.length
  room : name.length ≤ 997

variable (setup : Setup) (name : List UInt8)

/-- How far the request has come. -/
inductive Flooding (s : Session Channels) : Prop
  | prompt (client : s.client = .prompt) (server : s.server = .line [])
      (up : s.conn.up.unread = []) (first : (remaining setup s).head? = some name)
  | sent {part} (client : s.client = .reply []) (server : s.server = .line part)
      (up : part ++ s.conn.up.unread = name ++ crlf) (short : part.length ≤ 256)
  | overrun (client : s.client = .reply []) (server : s.server = .overrun)

/-- The invariant of a session whose first request is `name`. -/
structure Flooded (s : Session Channels) : Prop where
  upOk : s.conn.up.Ok
  downOk : s.conn.down.Ok
  upOpen : s.conn.up.closed = false
  downOpen : s.conn.down.closed = false
  down : s.conn.down.unread = []
  outcomes : s.outcomes = []
  stage : Flooding setup name s

/-- What the request and its sending cost. -/
def floodCost (s : Session Channels) : ℕ :=
  s.typed.length + (if s.client = .prompt then 2 * name.length + 5 else 0) + serverCost s.server +
    s.conn.up.cost + s.conn.down.cost

variable {setup} {name} {s s' : Session Channels}

/-! ## Steps -/

theorem Flooded.sends {t : Session Channels} (h : Flooded setup name s) (over_ : Overlong name)
    (conn : t.conn = s.conn) (server : t.server = .line []) (outcomes : t.outcomes = [])
    (up : s.conn.up.unread = []) (st : t.sendRequest Channels.net name = some s') :
    Flooded setup name s' ∧
      floodCost name s' ≤ t.typed.length + 2 * name.length + 5 + s.conn.up.cost + s.conn.down.cost := by
  have room := over_.room
  rw [Session.sendRequest, if_neg (by omega), conn, Channels.mywrite_active h.upOpen] at st
  cases st
  have bytes : [] ++ (s.conn.up.wrote (name ++ crlf)).unread = name ++ crlf := by
    rw [Channel.unread_wrote, up]
    rfl
  have two : crlf.length = 2 := rfl
  refine ⟨⟨h.upOk.wrote h.upOpen _, h.downOk, h.upOpen, h.downOpen, h.down, outcomes,
    .sent rfl server bytes (Nat.zero_le _)⟩, ?_⟩
  simp only [floodCost, reduceCtorEq, if_false, server, serverCost, Channel.cost_wrote,
    List.length_append, two]
  omega

theorem Flooded.client (h : Flooded setup name s) (over_ : Overlong name)
    (st : clientStep Channels.net setup s = some s') :
    Flooded setup name s' ∧ floodCost name s' + 1 ≤ floodCost name s := by
  cases h.stage with
  | sent client | overrun client =>
    -- the client waits for the first byte of the response
    rw [clientStep, client] at st
    dsimp only at st
    rw [Channels.blocked_active h.downOk h.downOpen h.down Nat.one_pos] at st
    cases st
  | prompt client server up first =>
    have before : floodCost name s = s.typed.length + (2 * name.length + 5) + 1 + s.conn.up.cost +
        s.conn.down.cost := by
      rw [floodCost, if_pos client, server]
      rfl
    simp only [clientStep, client] at st
    cases named : setup.filename with
    | some name' =>
      rw [named] at st
      obtain rfl : name' = name := by
        simp only [remaining, named, if_pos client] at first
        exact Option.some.inj first
      obtain ⟨flooded, paid⟩ := h.sends over_ rfl server h.outcomes up st
      exact ⟨flooded, by omega⟩
    | none =>
      rw [named] at st
      have requests : ∀ t : Session Channels, remaining setup t = t.typed.filterMap request := by
        intro t
        simp only [remaining, named]
      rw [requests] at first
      cases typed : s.typed with
      | nil =>
        rw [typed] at first
        cases first
      | cons line typed' =>
        rw [typed] at st first
        dsimp only at st
        rw [typed, List.length_cons] at before
        cases made : request line with
        | none =>
          rw [made] at st
          cases st
          rw [List.filterMap_cons_none made] at first
          refine ⟨⟨h.upOk, h.downOk, h.upOpen, h.downOpen, h.down, h.outcomes,
            .prompt rfl server up ?_⟩, ?_⟩
          · rw [requests]
            exact first
          · rw [before, floodCost, if_pos rfl, server, serverCost]
            dsimp only
            omega
        | some name' =>
          rw [made] at st
          rw [List.filterMap_cons_some made] at first
          cases first
          obtain ⟨flooded, paid⟩ := h.sends (t := { s with client := .prompt, typed := typed' }) over_
            rfl server h.outcomes up st
          dsimp only at paid
          exact ⟨flooded, by omega⟩

/-- One more byte is stored, and the one behind the end of the line is not. -/
theorem Flooded.server (h : Flooded setup name s) (over_ : Overlong name)
    (st : serverStep Channels.net setup s = some s') :
    Flooded setup name s' ∧ floodCost name s' + 1 ≤ floodCost name s := by
  cases h.stage with
  | overrun _ server =>
    rw [serverStep, server] at st
    cases st
  | prompt client server up =>
    rw [serverStep, server] at st
    dsimp only at st
    rw [Channels.blocked_passive h.upOk h.upOpen up Nat.one_pos] at st
    cases st
  | @sent part client server up short =>
    have long := over_.long
    have before : floodCost name s = s.typed.length + 0 + 1 + s.conn.up.cost + s.conn.down.cost := by
      rw [floodCost, if_neg (by simp [client]), server]
      rfl
    rw [serverStep, server] at st
    dsimp only at st
    obtain ⟨⟨conn, data⟩, reads, st⟩ := Option.bind_eq_some_iff.1 st
    obtain ⟨up', read, rfl⟩ := Channels.myread_passive.1 reads
    obtain ⟨upOk, upOpen, c, rfl, split, paid⟩ := Channel.read_one h.upOk h.upOpen read
    rw [split] at up
    -- the byte is one of the name, or the carriage return behind it
    have other : c ≠ 10 := by
      have whole : part ++ c :: up'.unread = (name ++ [13]) ++ [10] := by simpa [crlf] using up
      obtain ⟨more, inside, -⟩ := line_split whole (by simp; omega)
      have mem : c ∈ name ++ [13] := by simp [← inside]
      rintro rfl
      simp [over_.oneLine] at mem
    dsimp only at st
    rw [getNvtLine, if_neg fun ends => other ends.2] at st
    by_cases fits : part.length < 256
    · rw [if_pos fits] at st
      cases st
      refine ⟨⟨upOk, h.downOk, upOpen, h.downOpen, h.down, h.outcomes, .sent client rfl ?_ ?_⟩, ?_⟩
      · rw [← up]
        simp
      · simpa using fits
      · rw [before, floodCost, if_neg (by simp [client])]
        simp only [serverCost]
        omega
    · rw [if_neg fits] at st
      cases st
      refine ⟨⟨upOk, h.downOk, upOpen, h.downOpen, h.down, h.outcomes, .overrun client rfl⟩, ?_⟩
      rw [before, floodCost, if_neg (by simp [client])]
      simp only [serverCost]
      omega

theorem Flooded.moves (h : Flooded setup name s) {a : Channels.Move} {conn : Channels}
    (st : Channels.net.move a s.conn = some conn) :
    Flooded setup name { s with conn } ∧ floodCost name { s with conn } + 1 ≤ floodCost name s := by
  obtain ⟨upOk, downOk, upClosed, downClosed, up, down, paid⟩ := Channels.moves_spec h.upOk h.downOk st
  refine ⟨⟨upOk, downOk, upClosed.trans h.upOpen, downClosed.trans h.downOpen, down.trans h.down,
    h.outcomes, ?_⟩, ?_⟩
  · cases h.stage with
    | prompt client server none first => exact .prompt client server (up.trans none) first
    | sent client server split short => exact .sent client server (by rwa [up]) short
    | overrun client server => exact .overrun client server
  · simp only [floodCost]
    omega

/-- Every step keeps the invariant and costs something. -/
theorem Flooded.step (h : Flooded setup name s) (over_ : Overlong name)
    {a : SessionAction Channels.Move} (st : Session.step Channels.net setup s a = some s') :
    Flooded setup name s' ∧ floodCost name s' + 1 ≤ floodCost name s := by
  cases a with
  | client => exact h.client over_ st
  | server => exact h.server over_ st
  | move a =>
    obtain ⟨conn, moved, rfl⟩ := Option.map_eq_some_iff.1 st
    exact h.moves moved

theorem spends_of_overlong (over_ : Overlong name) :
    (machine Channels.net setup).Spends (fun _ => True) (Flooded setup name) (floodCost name) where
  keep s a o s' flooded _ st := by
    obtain ⟨t, moved, same⟩ := Option.map_eq_some_iff.1 st
    cases same
    exact (flooded.step over_ moved).1
  spend s a o s' flooded _ st := by
    obtain ⟨t, moved, same⟩ := Option.map_eq_some_iff.1 st
    cases same
    exact (flooded.step over_ moved).2

/-! ## Whole sessions -/

/-- At rest the server has stored all it can. -/
theorem Flooded.atRest (h : Flooded setup name s) (over_ : Overlong name)
    (rest : (machine Channels.net setup).AtRest (fun _ => True) s) :
    s.server = .overrun := by
  obtain ⟨stuck, moves⟩ := stuck_of_atRest rest
  obtain ⟨up, -⟩ := Channels.still moves
  cases h.stage with
  | prompt client =>
    obtain ⟨t, st⟩ := prompts_some client h.upOpen
    exact absurd st (stuck .client t)
  | @sent part client server split short =>
    have long := over_.long
    have waits : s.conn.up.unread ≠ [] := by
      intro none
      have size := congrArg List.length split
      have two : crlf.length = 2 := rfl
      rw [none, List.append_nil, List.length_append] at size
      omega
    obtain ⟨ch, data, read⟩ := Channel.readable up (Or.inl waits) 1
    obtain ⟨t, st⟩ := server_some (Or.inl server) h.downOpen read
    exact absurd st (stuck .server t)
  | overrun _ server => exact server

variable {text : List UInt8} {length : ℤ}

theorem flooded_init (first : (requests setup text).head? = some name) :
    Flooded setup name (init text length Channels.init) where
  upOk := Channel.ok_init false
  downOk := Channel.ok_init true
  upOpen := rfl
  downOpen := rfl
  down := rfl
  outcomes := rfl
  stage := .prompt rfl rfl rfl (by rw [remaining_init]; exact first)

/-- A session whose first request is longer than the server's line holds.  Up to the store behind the
line nothing is sent to the client, and no request has an outcome; and in whatever order the programs
and the channels take their steps, that store comes: no session has more than so many steps before it,
and none can stop without it. -/
theorem long_request_overruns (over_ : Overlong name)
    (first : (requests setup text).head? = some name)
    {tr : List (SessionAction Channels.Move × Unit)}
    (run : (machine Channels.net setup).Run (init text length Channels.init) tr s) :
    (s.outcomes = [] ∧ s.conn.down.unread = [] ∧ (s.client = .prompt ∨ s.client = .reply [])) ∧
    tr.length ≤ (fgetsAll 999 text.length text).length + 2 * name.length + 10 ∧
    ((machine Channels.net setup).AtRest (fun _ => True) s → s.server = .overrun) ∧
    ∃ tr' s', (machine Channels.net setup).Run s tr' s' ∧
      (machine Channels.net setup).AtRest (fun _ => True) s' := by
  have start : Flooded setup name (init text length Channels.init) := flooded_init first
  obtain ⟨flooded, bound⟩ := (spends_of_overlong over_).length_le start run
  have paid : floodCost name (init text length Channels.init) =
      (fgetsAll 999 text.length text).length + 2 * name.length + 10 := rfl
  refine ⟨⟨flooded.outcomes, flooded.down, ?_⟩, by omega, flooded.atRest over_,
    (spends_of_overlong over_).exists_atRest flooded⟩
  cases flooded.stage with
  | prompt client => exact Or.inl client
  | sent client | overrun client => exact Or.inr client

/-- A name of 256 bytes and the end of the line. -/
def longText : List UInt8 := List.replicate 256 97 ++ [10]

theorem overlong_longText : Overlong (List.replicate 256 97) where
  oneLine mem := absurd (List.eq_of_mem_replicate mem) (by decide)
  long := by rw [List.length_replicate]
  room := by rw [List.length_replicate]; omega

theorem head_requests_longText :
    (requests oneFile longText).head? = some (List.replicate 256 97) := by decide +kernel

theorem long_request_overruns_256 : ∃ tr s,
    (machine Channels.net oneFile).Run (init longText 7 Channels.init) tr s ∧
      s.server = .overrun ∧ s.outcomes = [] ∧ s.conn.down.unread = [] ∧ tr.length ≤ 523 := by
  have start : (machine Channels.net oneFile).Run (init longText 7 Channels.init) []
      (init longText 7 Channels.init) := .nil
  obtain ⟨-, -, -, tr, s, run, rest⟩ :=
    long_request_overruns overlong_longText head_requests_longText start
  obtain ⟨⟨outcomes, unsent, -⟩, bound, atEnd, -⟩ :=
    long_request_overruns overlong_longText head_requests_longText run
  refine ⟨tr, s, run, atEnd rest, outcomes, unsent, bound.trans ?_⟩
  rw [List.length_replicate]
  decide +kernel

end ComputerNetwork.Tcp.Session
