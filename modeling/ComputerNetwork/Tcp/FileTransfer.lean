import ComputerNetwork.Lib.InetAton
import ComputerNetwork.Lib.Stdio
import ComputerNetwork.Tcp.Channel
import Mathlib.Data.List.DropRight

/-!
# The file transfer programs

`client.c` and `server.c`: the client sends the name of a file as a line, the server answers with a
line that holds the length of the file, and the file follows.  The two programs and what carries their
calls (`Net`) are one machine, whose steps are the programs' calls and what is done between them, in
any order.  They are carried by the two STCP endpoints (`Connection.net`), or by two channels
(`Channels.net`).  The lines that a program prints are not modelled, except for the files that the
client stores.
-/

namespace ComputerNetwork.Tcp

open Lib

/-! ## Texts -/

/-- `printf` of an unsigned number with `%lu`. -/
def decimalText (n : ℕ) : List UInt8 :=
  if n = 0 then [digit 0] else (Nat.digits 10 n).reverse.map digit

/-- `sscanf` with `%d`: nothing is stored when no number begins the text. -/
def scanInt (s : List UInt8) : Option ℤ :=
  let s := s.dropWhile isspace
  let negative := s.head? = some 45
  let s := if s.head? = some 45 ∨ s.head? = some 43 then s.tail else s
  if (s.head?.bind (digitOf 10)).isNone then none
  else some (if negative then -((number 10 0 s).1 : ℤ) else (number 10 0 s).1)

/-- `strrchr`: what stands before and behind the last `c`. -/
def strrchr (s : List UInt8) (c : UInt8) : Option (List UInt8 × List UInt8) :=
  match s.reverse.dropWhile (· ≠ c) with
  | [] => none
  | _ :: before => some (before.reverse, s.drop (before.length + 1))

/-- The C string at the start of a buffer. -/
def cText (b : List UInt8) : List UInt8 := b.takeWhile (· ≠ 0)

/-- `"\r\n"`. -/
def crlf : List UInt8 := [13, 10]

/-- `","`. -/
def comma : UInt8 := 44

/-- `",-1,File does not exist or access denied"`. -/
def deniedText : List UInt8 :=
  [44, 45, 49, 44, 70, 105, 108, 101, 32, 100, 111, 101, 115, 32, 110, 111, 116, 32, 101, 120, 105, 115,
    116, 32, 111, 114, 32, 97, 99, 99, 101, 115, 115, 32, 100, 101, 110, 105, 101, 100]

/-- `",-1,File could not be opened"`. -/
def unopenableText : List UInt8 :=
  [44, 45, 49, 44, 70, 105, 108, 101, 32, 99, 111, 117, 108, 100, 32, 110, 111, 116, 32, 98, 101, 32, 111,
    112, 101, 110, 101, 100]

/-- `",Ok"`. -/
def okText : List UInt8 := [44, 79, 107]

/-! ## Lines -/

/-- What one byte does to the line of `get_nvt_line`. -/
inductive Nvt where
  | more (buf : List UInt8)
  | line (text : List UInt8)
  /-- The line does not fit the caller's buffer. -/
  | overrun
  deriving DecidableEq, Repr

/-- One turn of the loop of `get_nvt_line`, with the bytes stored so far and what `myread` has
returned; `last_char` is the last of them. -/
def getNvtLine (size : ℕ) (buf data : List UInt8) : Nvt :=
  match data with
  | [] => if buf.length < size then .line buf else .overrun
  | c :: _ =>
    if buf.getLast? = some 13 ∧ c = 10 then .line buf.dropLast
    else if buf.length < size then .more (buf ++ [c])
    else .overrun

/-! ## The server -/

/-- What `access`, `open`, `lseek` and the reads of a file report; `fails` if a read fails at last. -/
inductive FileState where
  | denied
  | unopenable
  | opened (size : ℕ) (content : List UInt8) (fails : Bool)
  deriving DecidableEq, Repr

inductive ServerPc where
  /-- In `get_nvt_line`. -/
  | line (buf : List UInt8)
  /-- In the loop that copies the file. -/
  | file (rest : List UInt8) (fails : Bool)
  | closed
  /-- `get_nvt_line` has stored a byte behind `line`.  What it does next is not modelled. -/
  | overrun
  deriving DecidableEq, Repr

/-- `process_line` up to its loop: the response, and where it leaves the server. -/
def processLine (fs : List UInt8 → FileState) (line : List UInt8) : List UInt8 × ServerPc :=
  match if line = [] then .denied else fs line with
  | .denied => (line ++ deniedText ++ crlf, .line [])
  | .unopenable => (line ++ unopenableText ++ crlf, .line [])
  | .opened size content fails =>
      (line ++ comma :: decimalText size ++ okText ++ crlf, .file content fails)

/-! ## The client -/

inductive ClientPc where
  | prompt
  /-- In `get_nvt_line`. -/
  | reply (buf : List UInt8)
  /-- In the loop that stores the file. -/
  | receive (got : List UInt8)
  | closed
  /-- `exit(-1)` after a file that ends early. -/
  | failed
  /-- A line that does not fit its buffer, or a number that does not fit an `int`. -/
  | undefined
  deriving DecidableEq, Repr

/-- How the client's loop ends for one request. -/
inductive Outcome where
  | refused
  | malformed
  | stored (file : List UInt8)
  deriving DecidableEq, Repr

/-- The request that a typed line makes: its trailing spaces are removed, and it is passed over unless
two characters are left. -/
def request (line : List UInt8) : Option (List UInt8) :=
  let name := (cText line).rdropWhile isspace
  if name.length ≤ 1 then none else some name

/-- What the client makes of the response. -/
inductive Answer where
  | malformed
  | undefined
  | length (n : ℤ)
  deriving DecidableEq, Repr

/-- The parse of the response; `length` is what the variable held before. -/
def parseReply (length : ℤ) (line : List UInt8) : Answer :=
  match strrchr (cText line) comma with
  | none => .malformed
  | some (front, _) =>
    match strrchr front comma with
    | none => .malformed
    | some (_, lenstr) =>
      let n := (scanInt lenstr).getD length
      if -2 ^ 31 ≤ n ∧ n < 2 ^ 31 then .length n else .undefined

/-! ## Texts that are read back -/

theorem number_digits (l : List ℕ) (small : ∀ d ∈ l, d < 10) (a : ℕ) (rest : List UInt8) :
    number 10 a (l.map digit ++ rest) = number 10 (l.foldl (fun n d => 10 * n + d) a) rest := by
  induction l generalizing a with
  | nil => rfl
  | cons d l ih =>
    rw [List.map_cons, List.cons_append, number_digit (small d (List.mem_cons_self ..)),
      List.foldl_cons]
    exact ih (fun x mem => small x (List.mem_cons_of_mem _ mem)) _

theorem foldl_digits (n : ℕ) : (Nat.digits 10 n).reverse.foldl (fun n d => 10 * n + d) 0 = n := by
  rw [List.foldl_reverse]
  conv_rhs => rw [← Nat.ofDigits_digits 10 n, Nat.ofDigits_eq_foldr]
  congr 1
  funext d n
  simp [add_comm]

/-- A number in decimal has a first digit, and only digits. -/
theorem decimalText_cons (n : ℕ) : ∃ d l, d < 10 ∧ (∀ x ∈ l, x < 10) ∧
    decimalText n = digit d :: l.map digit ∧ (d :: l).foldl (fun n d => 10 * n + d) 0 = n ∧
    (d :: l).length = max 1 (Nat.digits 10 n).length := by
  unfold decimalText
  split_ifs with zero
  · exact ⟨0, [], by decide, nofun, rfl, zero.symm, by simp [zero]⟩
  · have ne : (Nat.digits 10 n).reverse ≠ [] := by simpa [Nat.digits_eq_nil_iff_eq_zero] using zero
    obtain ⟨d, l, split⟩ := List.exists_cons_of_ne_nil ne
    have small : ∀ x ∈ d :: l, x < 10 := by
      intro x mem
      rw [← split, List.mem_reverse] at mem
      exact Nat.digits_lt_base (by decide) mem
    have len := congrArg List.length split
    rw [List.length_reverse] at len
    refine ⟨d, l, small d (List.mem_cons_self ..), fun x mem => small x (List.mem_cons_of_mem _ mem),
      by rw [split]; rfl, by rw [← split]; exact foldl_digits n, ?_⟩
    rw [len, List.length_cons]
    omega

theorem digit_free : ∀ d < 10, digit d ≠ 0 ∧ digit d ≠ 10 ∧ digit d ≠ 44 ∧ digit d ≠ 45 ∧ digit d ≠ 43 ∧
    isspace (digit d) = false ∧ digitOf 10 (digit d) = some d := by decide

theorem decimalText_free (n : ℕ) : ∀ c ∈ decimalText n, c ≠ 0 ∧ c ≠ 10 ∧ c ≠ 44 := by
  obtain ⟨d, l, small, smalls, text, -, -⟩ := decimalText_cons n
  intro c mem
  rw [text] at mem
  rcases List.mem_cons.1 mem with rfl | mem
  · have := digit_free d small
    exact ⟨this.1, this.2.1, this.2.2.1⟩
  · obtain ⟨x, inside, rfl⟩ := List.mem_map.1 mem
    have := digit_free x (smalls x inside)
    exact ⟨this.1, this.2.1, this.2.2.1⟩

theorem length_decimalText {n : ℕ} (small : n < 2 ^ 31) : (decimalText n).length ≤ 10 := by
  obtain ⟨d, l, -, -, text, -, len⟩ := decimalText_cons n
  have digits : (Nat.digits 10 n).length ≤ 10 := by
    rw [Nat.digits_length_le_iff (by decide)]
    omega
  rw [text, List.length_cons, List.length_map]
  rw [List.length_cons] at len
  omega

theorem scanInt_decimalText (n : ℕ) : scanInt (decimalText n) = some (n : ℤ) := by
  obtain ⟨d, l, small, smalls, text, value, -⟩ := decimalText_cons n
  obtain ⟨-, -, -, minus, plus, blank, isDigit⟩ := digit_free d small
  have digits : ∀ x ∈ d :: l, x < 10 := fun x mem => (List.mem_cons.1 mem).elim (· ▸ small) (smalls x)
  have all := number_digits (d :: l) digits 0 []
  rw [List.append_nil, List.map_cons, value] at all
  simp only [scanInt, text, List.dropWhile_cons, blank, Bool.false_eq_true, if_false, List.head?_cons,
    Option.some.injEq, minus, plus, or_self, Option.bind_some, isDigit, Option.isNone_some, all]
  rfl

/-- The last comma is the one behind which there is none. -/
theorem strrchr_append {a b : List UInt8} {c : UInt8} (none : c ∉ b) :
    strrchr (a ++ c :: b) c = some (a, b) := by
  have stop : (a ++ c :: b).reverse.dropWhile (· ≠ c) = c :: a.reverse := by
    rw [List.reverse_append, List.reverse_cons, List.append_assoc, List.dropWhile_append]
    have all : b.reverse.dropWhile (· ≠ c) = [] := by
      rw [List.dropWhile_eq_nil_iff]
      intro x mem
      have : x ≠ c := fun same => none (same ▸ List.mem_reverse.1 mem)
      simpa using this
    rw [all, List.isEmpty_nil, if_pos rfl]
    simp
  rw [strrchr, stop]
  simp

theorem cText_of_free {b : List UInt8} (free : ∀ c ∈ b, c ≠ 0) : cText b = b := by
  rw [cText, List.takeWhile_eq_self_iff]
  intro c mem
  simpa using free c mem

/-! ## Lines and responses -/

/-- A line that ends in `"\r\n"` and has no other line feed is read byte by byte up to its end. -/
theorem getNvtLine_crlf {size : ℕ} {buf more text : List UInt8} {c : UInt8}
    (split : buf ++ c :: more = text ++ crlf) (free : 10 ∉ text) (fits : text.length < size) :
    getNvtLine size buf [c] = if more = [] then .line text else .more (buf ++ [c]) := by
  have whole : text ++ crlf = (text ++ [13]) ++ [10] := by simp [crlf]
  rw [whole] at split
  rcases List.eq_nil_or_concat more with rfl | ⟨more, last, rfl⟩
  · obtain ⟨rfl, same⟩ := List.append_inj' split rfl
    cases same
    simp [getNvtLine]
  · rw [List.concat_eq_append, ← List.cons_append, ← List.append_assoc] at split
    have front := (List.append_inj' split rfl).1
    have inside : c ∈ text ++ [13] := by
      rw [← front]
      simp
    have other : c ≠ 10 := by
      rintro rfl
      simp [free] at inside
    have short := congrArg List.length front
    simp only [List.length_append, List.length_cons, List.length_nil] at short
    rw [getNvtLine, if_neg fun h => other h.2, if_pos (by omega), if_neg (by simp)]

/-- A name that the server can be asked for. -/
structure NameOk (name : List UInt8) : Prop where
  some_ : name ≠ []
  free : ∀ c ∈ name, c ≠ 0 ∧ c ≠ 10
  short : name.length ≤ 255

theorem isspace_newline : isspace 10 = true := by decide

theorem free_of_request {line name : List UInt8} (typed : request line = some name)
    (last : 10 ∉ line.dropLast) : name ≠ [] ∧ ∀ c ∈ name, c ≠ 0 ∧ c ≠ 10 := by
  unfold request at typed
  dsimp only at typed
  split_ifs at typed with short
  cases typed
  have some_ : (cText line).rdropWhile isspace ≠ [] :=
    fun none => short (by rw [none]; exact Nat.zero_le _)
  have front := List.rdropWhile_prefix isspace (cText line)
  refine ⟨some_, fun c mem => ⟨?_, ?_⟩⟩
  · simpa using List.mem_takeWhile_imp (front.subset mem)
  · rintro rfl
    -- a line feed that is left is not the last character of the line
    obtain ⟨pre, post, split⟩ := List.append_of_mem mem
    have ends := List.rdropWhile_last_not isspace (cText line) some_
    obtain ⟨more, whole⟩ := front.trans (List.takeWhile_prefix _ : cText line <+: line)
    have behind : post ≠ [] := by
      rintro rfl
      simp [split, isspace_newline] at ends
    apply last
    rw [← whole, split, List.append_assoc, List.cons_append, List.dropLast_append_of_ne_nil (by simp),
      List.dropLast_cons_of_ne_nil (by simp [behind])]
    simp

/-- The text of the response and the file behind it. -/
def response (state : FileState) (name : List UInt8) : List UInt8 × List UInt8 :=
  match state with
  | .denied => (name ++ deniedText, [])
  | .unopenable => (name ++ unopenableText, [])
  | .opened size content _ => (name ++ comma :: decimalText size ++ okText, content)

theorem parseReply_refused {name text : List UInt8} (free : ∀ c ∈ name, c ≠ 0)
    (refuses : text ∈ [deniedText, unopenableText]) (length : ℤ) :
    parseReply length (name ++ text) = .length (-1) := by
  have parts : ∃ reason, text = [44, 45, 49] ++ comma :: reason ∧ comma ∉ reason ∧
      ∀ c ∈ text, c ≠ 0 := by
    simp only [List.mem_cons, List.not_mem_nil, or_false] at refuses
    rcases refuses with rfl | rfl
    · exact ⟨_, rfl, by decide +kernel, by decide +kernel⟩
    · exact ⟨_, rfl, by decide +kernel, by decide +kernel⟩
  obtain ⟨reason, rfl, none, nul⟩ := parts
  have whole : cText (name ++ ([44, 45, 49] ++ comma :: reason)) =
      (name ++ comma :: [45, 49]) ++ comma :: reason := by
    rw [cText_of_free fun c mem => (List.mem_append.1 mem).elim (free c) (nul c)]
    simp [comma]
  have minus : scanInt [45, 49] = some (-1) := by decide +kernel
  rw [parseReply, whole, strrchr_append none]
  dsimp only
  rw [strrchr_append (by decide)]
  dsimp only
  rw [minus]
  rfl

theorem parseReply_ok {name : List UInt8} (free : ∀ c ∈ name, c ≠ 0) {size : ℕ} (small : size < 2 ^ 31)
    (length : ℤ) : parseReply length (name ++ comma :: decimalText size ++ okText) = .length size := by
  have digits := decimalText_free size
  have nul : ∀ c ∈ name ++ comma :: decimalText size ++ okText, c ≠ 0 := by
    intro c mem
    simp only [List.mem_append, List.mem_cons] at mem
    rcases mem with (mem | rfl | mem) | mem
    · exact free c mem
    · decide
    · exact (digits c mem).1
    · revert c mem
      decide +kernel
  have split : name ++ comma :: decimalText size ++ okText =
      (name ++ comma :: decimalText size) ++ comma :: [79, 107] := rfl
  rw [parseReply, cText_of_free nul, split, strrchr_append (by decide)]
  dsimp only
  rw [strrchr_append (c := comma) fun mem => (digits _ mem).2.2 rfl]
  dsimp only
  rw [scanInt_decimalText, Option.getD_some, if_pos ⟨by omega, by exact_mod_cast small⟩]

/-- `fgets` stores a line feed only as the last character. -/
theorem newline_last (n : ℕ) (s : List UInt8) : 10 ∉ (fgets n s).1.dropLast := by
  induction n generalizing s with
  | zero => simp [fgets]
  | succ n ih =>
    cases s with
    | nil => simp [fgets]
    | cons c s =>
      rw [fgets]
      split_ifs with same
      · simp
      · dsimp only
        cases stored : (fgets n s).1 with
        | nil => simp
        | cons x l =>
          have inside := ih s
          rw [stored] at inside
          rw [List.dropLast_cons_of_ne_nil (by simp), List.mem_cons, not_or]
          exact ⟨fun h => same h.symm, inside⟩

theorem newline_last_all (n fuel : ℕ) (s : List UInt8) :
    ∀ line ∈ fgetsAll n fuel s, 10 ∉ line.dropLast := by
  induction fuel generalizing s with
  | zero => exact nofun
  | succ fuel ih =>
    intro line mem
    rw [fgetsAll] at mem
    split_ifs at mem
    · cases mem
    · rcases List.mem_cons.1 mem with rfl | mem
      · exact newline_last n s
      · exact ih _ line mem

/-! ## The machine -/

/-- What carries the calls of the programs, in states `T`, and the steps `I` that it takes by itself.
The client is the active side; a call that blocks has no result. -/
structure Net (T I : Type*) where
  mywrite : Side → List UInt8 → T → Option T
  myclose : Side → T → Option T
  /-- The state and what the read returns. -/
  myread : Side → ℕ → T → Option (T × List UInt8)
  move : I → T → Option T

/-- The two programs and the state of what is between them. -/
structure Session (T : Type*) where
  client : ClientPc
  /-- The lines that `fgets` has still to return. -/
  typed : List (List UInt8)
  length : ℤ
  outcomes : List Outcome
  server : ServerPc
  conn : T
  deriving DecidableEq

inductive SessionAction (I : Type*) where
  | client
  | server
  | move (a : I)
  deriving DecidableEq, Repr

/-- The options of the two programs: the server's files, the client's `-f` and `-q`. -/
structure Setup where
  fs : List UInt8 → FileState
  filename : Option (List UInt8)
  quiet : Bool

namespace Session

variable {T I : Type*} (net : Net T I) (setup : Setup)

/-- `text` is the client's standard input and `length` what stands in the client's uninitialised
variable. -/
def init (text : List UInt8) (length : ℤ) (conn : T) : Session T :=
  { client := .prompt, typed := fgetsAll 999 text.length text, length, outcomes := []
    server := .line [], conn }

/-- `myclose` of the client. -/
def clientCloses (s : Session T) (pc : ClientPc) : Option (Session T) :=
  (net.myclose .active s.conn).map fun conn => { s with conn, client := pc }

/-- The client writes its request into `line[1000]` and sends it. -/
def sendRequest (s : Session T) (name : List UInt8) : Option (Session T) :=
  if 1000 < name.length + 3 then some { s with client := .undefined }
  else (net.mywrite .active (name ++ crlf) s.conn).map fun conn =>
    { s with conn, client := .reply [] }

/-- The end of the client's loop for one request. -/
def finish (s : Session T) (outcome : Outcome) : Option (Session T) :=
  let s := { s with outcomes := s.outcomes ++ [outcome] }
  if setup.filename.isSome then s.clientCloses net .closed else some { s with client := .prompt }

/-- What the client has stored when the file is complete. -/
def stored (got : List UInt8) : Outcome := .stored (if setup.quiet then [] else got)

/-- The client after the line of the response. -/
def answered (s : Session T) (line : List UInt8) : Option (Session T) :=
  match parseReply s.length line with
  | .malformed =>
      { s with outcomes := s.outcomes ++ [Outcome.malformed] }.clientCloses net .closed
  | .undefined => some { s with client := .undefined }
  | .length n =>
      let s := { s with length := n }
      if n = -1 then finish net setup s .refused
      else if n = 0 then finish net setup s (stored setup [])
      -- `myread` is asked for a negative number of bytes
      else if n < 0 then some { s with client := .undefined }
      else some { s with client := .receive [] }

def clientStep (s : Session T) : Option (Session T) :=
  match s.client with
  | .prompt =>
    match setup.filename with
    | some name => s.sendRequest net name
    | none =>
      match s.typed with
      | [] => s.clientCloses net .closed
      | line :: typed =>
        match request line with
        | none => some { s with typed }
        | some name => { s with typed }.sendRequest net name
  | .reply buf =>
      (net.myread .active 1 s.conn).bind fun (conn, data) =>
        match getNvtLine 1000 buf data with
        | .more buf => some { s with conn, client := .reply buf }
        | .line line => answered net setup { s with conn } line
        | .overrun => some { s with conn, client := .undefined }
  | .receive got =>
      (net.myread .active (min s.length 1000).toNat s.conn).bind fun (conn, data) =>
        let s := { s with conn }
        if data = [] then s.clientCloses net .failed
        else
          let s := { s with length := s.length - data.length }
          if s.length = 0 then finish net setup s (stored setup (got ++ data))
          else some { s with client := .receive (got ++ data) }
  | .closed | .failed | .undefined => none

def serverCloses (s : Session T) : Option (Session T) :=
  (net.myclose .passive s.conn).map fun conn => { s with conn, server := .closed }

/-- `do_connection`; a read of the file fills `resp[5000]` unless the file ends. -/
def serverStep (s : Session T) : Option (Session T) :=
  match s.server with
  | .line buf =>
      (net.myread .passive 1 s.conn).bind fun (conn, data) =>
        match getNvtLine 256 buf data with
        | .more buf => some { s with conn, server := .line buf }
        | .overrun => some { s with conn, server := .overrun }
        | .line line =>
          if cText line = [] then { s with conn }.serverCloses net
          else
            let (resp, server) := processLine setup.fs (cText line)
            (net.mywrite .passive resp conn).map fun conn => { s with conn, server }
  | .file rest fails =>
      if rest = [] then
        if fails then s.serverCloses net else some { s with server := .line [] }
      else
        (net.mywrite .passive (rest.take 5000) s.conn).map fun conn =>
          { s with conn, server := .file (rest.drop 5000) fails }
  | .closed | .overrun => none

def step (s : Session T) : SessionAction I → Option (Session T)
  | .client => clientStep net setup s
  | .server => serverStep net setup s
  | .move a => (net.move a s.conn).map fun conn => { s with conn }

def machine : Machine (Session T) (SessionAction I) Unit where
  step s a := (step net setup s a).map fun s => (s, ())

end Session

/-! ## What carries the calls -/

/-- A connection as two channels. -/
structure Channels where
  /-- From the client to the server. -/
  up : Channel
  /-- From the server to the client. -/
  down : Channel
  deriving DecidableEq

namespace Channels

inductive Move where
  | handUp (toServer : Bool) (n : ℕ)
  | eof (toServer : Bool)
  deriving DecidableEq, Repr

def init : Channels := { up := Channel.init false, down := Channel.init true }

def stepUp (t : Channels) (a : ChannelAction) : Option (Channels × List UInt8) :=
  (t.up.step a).map fun (up, data) => ({ t with up }, data)

def stepDown (t : Channels) (a : ChannelAction) : Option (Channels × List UInt8) :=
  (t.down.step a).map fun (down, data) => ({ t with down }, data)

def net : Net Channels Move where
  mywrite
    | .active, buf, t => (t.stepUp (.write buf)).map Prod.fst
    | .passive, buf, t => (t.stepDown (.write buf)).map Prod.fst
  myclose
    | .active, t => (t.stepUp .close).map Prod.fst
    | .passive, t => (t.stepDown .close).map Prod.fst
  myread
    | .active, bufLen, t => t.stepDown (.read bufLen)
    | .passive, bufLen, t => t.stepUp (.read bufLen)
  move
    | .handUp true n, t => (t.stepUp (.handUp n)).map Prod.fst
    | .handUp false n, t => (t.stepDown (.handUp n)).map Prod.fst
    | .eof true, t => (t.stepUp .eof).map Prod.fst
    | .eof false, t => (t.stepDown .eof).map Prod.fst

end Channels

namespace Connection

/-- The two STCP endpoints; the client has called `myconnect` and the server `myaccept`. -/
def net : Net Connection Below where
  mywrite side buf c := (c.step (.mywrite side buf)).map Prod.fst
  myclose side c := (c.step (.myclose side)).map Prod.fst
  myread side bufLen c :=
    (c.step (.myread side bufLen)).bind fun (c', _) =>
      (myread (c.ep side).sock bufLen).map fun (data, _) => (c', data)
  move a c := (c.step a.action).map Prod.fst

end Connection

end ComputerNetwork.Tcp
