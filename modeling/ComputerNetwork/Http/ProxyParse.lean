import ComputerNetwork.Lib.Bytes
import ComputerNetwork.Lib.Cstring
import ComputerNetwork.Lib.Run

/-!
# The request parser of the proxy

`proxy_parse.c`.  The tokens of a request line are pointers into `buf`, which `strtok_r` cuts up in
place; `path` and the headers are copies of their own.  A call has no result where it reads outside
a block or computes with a null pointer (`Undefined`).  `int` and `size_t` are natural numbers,
`malloc` succeeds, and the fields that nothing reads (`buflen`, `keylen`, `valuelen`) and the debug
output are left out.
-/

namespace ComputerNetwork.Http

open Lib

/-- A string without its NUL. -/
abbrev Text := List UInt8

def sp : UInt8 := 32
def colon : UInt8 := 58
def slash : UInt8 := 47
def crlf : Text := [13, 10]

/-- `"HTTP/"`. -/
def httpSlash : Text := [72, 84, 84, 80, 47]

/-! ## Headers -/

/-- `struct ParsedHeader`; the key is null once the header is removed. -/
structure ParsedHeader where
  key : Option Text
  value : Text
  deriving DecidableEq

/-- Key and value of a header that has not been removed. -/
def ParsedHeader.pair (h : ParsedHeader) : Option (Text × Text) :=
  h.key.map fun key => (key, h.value)

/-- The headers of a request: the `headersused` slots in use of the `headerslen` allocated ones. -/
structure Headers where
  slots : List ParsedHeader
  headerslen : ℕ
  room : slots.length < headerslen
  deriving DecidableEq

namespace Headers

/-- `ParsedHeader_create`, with `DEFAULT_NHDRS` slots. -/
def create : Headers where
  slots := []
  headerslen := 8
  room := by simp

/-- `ParsedHeader_get`. -/
def get (hs : Headers) (key : Text) : Option ParsedHeader := hs.slots.find? fun h => h.key = some key

/-- Null the key of the first slot that has it. -/
def removeFrom (key : Text) : List ParsedHeader → List ParsedHeader
  | [] => []
  | h :: rest => if h.key = some key then { h with key := none } :: rest else h :: removeFrom key rest

@[simp] theorem length_removeFrom (key : Text) (slots : List ParsedHeader) :
    (removeFrom key slots).length = slots.length := by
  induction slots with
  | nil => rfl
  | cons h rest ih =>
    rw [removeFrom]
    split_ifs <;> simp [ih]

/-- `ParsedHeader_remove`: what it returns and leaves. -/
def remove (hs : Headers) (key : Text) : ℤ × Headers :=
  (if (hs.get key).isSome then 0 else -1,
    { hs with slots := removeFrom key hs.slots, room := by rw [length_removeFrom]; exact hs.room })

/-- `ParsedHeader_set`. -/
def set (hs : Headers) (key value : Text) : Headers :=
  let hs := (hs.remove key).2
  { slots := hs.slots ++ [⟨some key, value⟩]
    headerslen := if hs.headerslen ≤ hs.slots.length + 1 then hs.headerslen * 2 else hs.headerslen
    room := by
      have room := hs.room
      rw [List.length_append, List.length_singleton]
      split_ifs <;> omega }

/-- The headers that have not been removed. -/
def live (hs : Headers) : List (Text × Text) := hs.slots.filterMap ParsedHeader.pair

/-- `ParsedHeader_parse` of the line at `line` in the block `b`. -/
def parse (hs : Headers) (b : List UInt8) (line : ℕ) : Except Undefined (ℤ × Headers) := do
  let some index1 ← index b line colon | return (-1, hs)
  let key := (b.drop line).take (index1 - line)
  let index1 := index1 + 2
  let some index2 ← strstr b index1 crlf | throw .nullPointer
  let value := (b.drop index1).take (index2 - index1)
  return (0, hs.set key value)

/-- The loop over the header lines, from `currentHeader` on.  Every turn moves on in the block, so
that `fuel` does not run out when it is the length of the block. -/
def parseLines (b : List UInt8) : ℕ → ℕ → Headers → Except Undefined (ℤ × Headers)
  | 0, _, _ => throw .outOfBounds
  | fuel + 1, currentHeader, hs => do
    let c ← byteAt b currentHeader
    if c = 0 then return (0, hs)
    if c = 13 then
      if (← byteAt b (currentHeader + 1)) = 10 then return (0, hs)
    let (ret, hs) ← hs.parse b currentHeader
    if ret ≠ 0 then return (-1, hs)
    let some next ← strstr b currentHeader crlf | return (0, hs)
    if (← strlen b next) < 2 then return (0, hs)
    parseLines b fuel (next + 2) hs

end Headers

/-! ## Numbers -/

def eINVAL : ℕ := 22
def eRANGE : ℕ := 34

/-- `isspace` in the C locale. -/
def isSpace (c : UInt8) : Bool := c = 32 ∨ (9 ≤ c ∧ c ≤ 13)

def isDigit (c : UInt8) : Bool := 48 ≤ c ∧ c ≤ 57

/-- `strtol(text, NULL, 10)` with 64-bit `long`: the value and `errno` afterwards. -/
def strtol (text : Text) (errno : ℕ) : ℤ × ℕ :=
  let text := text.dropWhile isSpace
  let negative := text.head? = some 45
  let text := if text.head? = some 45 ∨ text.head? = some 43 then text.tail else text
  let n : ℕ := (text.takeWhile isDigit).foldl (fun n c => 10 * n + (c.toNat - 48)) 0
  if negative then if n ≤ 2 ^ 63 then (-n, errno) else (-2 ^ 63, eRANGE)
  else if n < 2 ^ 63 then (n, errno) else (2 ^ 63 - 1, eRANGE)

/-- The test of a port: `strtol` gives zero as an `int` and `errno` is `EINVAL`. -/
def badPort (port : Text) (errno : ℕ) : Bool :=
  (strtol port errno).1 % 2 ^ 32 = 0 ∧ (strtol port errno).2 = eINVAL

/-! ## Requests -/

/-- `struct ParsedRequest`. -/
structure ParsedRequest where
  method : Option ℕ
  protocol : Option ℕ
  host : Option ℕ
  port : Option ℕ
  path : Option Text
  version : Option ℕ
  buf : Option (List UInt8)
  headers : Headers
  deriving DecidableEq

namespace ParsedRequest

/-- `ParsedRequest_create`, which leaves `port` as `malloc` does. -/
def create (port : Option ℕ) : ParsedRequest where
  method := none
  protocol := none
  host := none
  port := port
  path := none
  version := none
  buf := none
  headers := Headers.create

/-- `ParsedRequest_parse` from the second tokenisation of `host` on: `host` and `port`. -/
def parseHost (pr : ParsedRequest) (errno : ℕ) (buf : List UInt8) (host : ℕ) :
    Except Undefined (ℤ × ParsedRequest) := do
  let (buf, host, saveptr) ← strtokR buf host [colon]
  let (buf, port, _) ← strtokR buf saveptr [slash]
  let pr := { pr with host, port }
  if host = none then return (-1, { pr with buf := none, path := none })
  let some p := port | return (0, { pr with buf := some buf })
  if badPort (← cstr buf p) errno then return (-1, { pr with buf := none, path := none })
  return (0, { pr with buf := some buf })

/-- The path of a request from the token behind the host: null when it begins with a second slash. -/
def pathOf (buf : List UInt8) (token : Option ℕ) : Except Undefined (Option Text) := do
  let some token := token | return some [slash]
  if ← strncmp buf token [slash] then return none
  return some (slash :: (← cstr buf token))

/-- `ParsedRequest_parse` from the first tokenisation of `full_addr` on: `protocol`, `host`, `path`. -/
def parseAddress (pr : ParsedRequest) (errno : ℕ) (buf : List UInt8) (fullAddr : ℕ) :
    Except Undefined (ℤ × ParsedRequest) := do
  -- the delimiters are a set: the literal "://" is not looked for
  let (buf, protocol, saveptr) ← strtokR buf fullAddr [colon, slash, slash]
  let pr := { pr with protocol }
  let some protocol := protocol | return (-1, { pr with buf := none })
  let rem := fullAddr + (← strlen buf protocol) + 3
  let absUriLen ← strlen buf rem
  let (buf, host, saveptr) ← strtokR buf saveptr [slash]
  let pr := { pr with host }
  let some host := host | return (-1, { pr with buf := none })
  if (← strlen buf host) = absUriLen then return (-1, { pr with buf := none })
  let (buf, token, _) ← strtokR buf saveptr [sp]
  let path ← pathOf buf token
  let pr := { pr with path }
  if path = none then return (-1, { pr with buf := none })
  pr.parseHost errno buf host

/-- The part of `ParsedRequest_parse` that cuts up the request line `buf`. -/
def parseRequestLine (pr : ParsedRequest) (errno : ℕ) (buf : List UInt8) :
    Except Undefined (ℤ × ParsedRequest) := do
  let (buf, method, saveptr) ← strtokR buf 0 [sp]
  let pr := { pr with method }
  if method = none then return (-1, { pr with buf := none })
  let (buf, fullAddr, _) ← strtokR buf saveptr [sp]
  let some fullAddr := fullAddr | return (-1, { pr with buf := none })
  let version := fullAddr + (← strlen buf fullAddr) + 1
  let pr := { pr with version := some version }
  if !(← strncmp buf version httpSlash) then return (-1, { pr with buf := none })
  pr.parseAddress errno buf fullAddr

/-- `MIN_REQ_LEN`. -/
def minReqLen : ℕ := 4

/-- `MAX_REQ_LEN`. -/
def maxReqLen : ℕ := 65535

/-- `ParsedRequest_parse` of a buffer: what it returns and leaves of the object. -/
def parse (pr : ParsedRequest) (errno : ℕ) (buf : List UInt8) :
    Except Undefined (ℤ × ParsedRequest) := do
  if pr.buf ≠ none then return (-1, pr)
  if buf.length < minReqLen ∨ maxReqLen < buf.length then return (-1, pr)
  let tmpBuf := buf ++ [0]
  if (← strstr tmpBuf 0 (crlf ++ crlf)) = none then return (-1, pr)
  let some index ← strstr tmpBuf 0 crlf | throw .nullPointer
  let (ret, pr) ← pr.parseRequestLine errno (tmpBuf.take index ++ [0])
  if ret ≠ 0 then return (-1, pr)
  let (ret, headers) ← Headers.parseLines tmpBuf tmpBuf.length (index + 2) pr.headers
  return (ret, { pr with headers })

/-! ## Printing -/

/-- The string that a field points to. -/
def text (pr : ParsedRequest) (field : Option ℕ) : Except Undefined Text :=
  match pr.buf, field with
  | some buf, some p => cstr buf p
  | _, _ => .error .nullPointer

/-- What a reader of the object sees of the request line. -/
structure Fields where
  method : Text
  protocol : Text
  host : Text
  port : Option Text
  path : Text
  version : Text
  deriving DecidableEq

/-- The string of the port, if there is one. -/
def portText (pr : ParsedRequest) : Except Undefined (Option Text) :=
  match pr.port with
  | none => .ok none
  | some p => do return some (← pr.text (some p))

def fields (pr : ParsedRequest) : Except Undefined Fields := do
  let port ← pr.portText
  let some path := pr.path | throw .nullPointer
  return { method := ← pr.text pr.method, protocol := ← pr.text pr.protocol,
           host := ← pr.text pr.host, port, path, version := ← pr.text pr.version }

/-- The pieces that `ParsedRequest_printRequestLine` copies, in this order. -/
def requestLinePieces (pr : ParsedRequest) : Except Undefined (List Text) := do
  let port ← pr.portText
  let some path := pr.path | throw .nullPointer
  return [← pr.text pr.method, [sp], ← pr.text pr.protocol, [colon, slash, slash],
    ← pr.text pr.host] ++ (port.map fun t => [[colon], t]).getD [] ++
    [path, [sp], ← pr.text pr.version, crlf]

/-- `ParsedRequest_requestLineLen`. -/
def requestLineLen (pr : ParsedRequest) : Except Undefined ℕ := do
  if pr.buf = none then return 0
  let len := (← pr.text pr.method).length + 1 + (← pr.text pr.protocol).length + 3 +
    (← pr.text pr.host).length + 1 + (← pr.text pr.version).length + 2
  let port ← pr.portText
  let len := len + (port.map fun t => t.length + 1).getD 0
  let some path := pr.path | throw .nullPointer
  return len + path.length

/-- `ParsedHeader_headersLen`, the sum of `ParsedHeader_lineLen` over the slots and two. -/
def headersLen (pr : ParsedRequest) : ℕ :=
  if pr.buf = none then 0
  else (pr.headers.live.map fun h => h.1.length + h.2.length + 4).sum + 2

/-- `ParsedRequest_totalLen`. -/
def totalLen (pr : ParsedRequest) : Except Undefined ℕ := do
  if pr.buf = none then return 0
  return (← pr.requestLineLen) + pr.headersLen

/-- `memcpy(current, piece, strlen(piece)); current += strlen(piece)`. -/
def copyPiece (out : List UInt8 × ℕ) (piece : Text) : List UInt8 × ℕ :=
  (splice out.1 out.2 piece, out.2 + piece.length)

/-- `ParsedRequest_printRequestLine` into `out`: the buffer and how much of it is used. -/
def printRequestLine (pr : ParsedRequest) (out : List UInt8) :
    Except Undefined (ℤ × List UInt8 × ℕ) := do
  if out.length < (← pr.requestLineLen) then return (-1, out, 0)
  return (0, (← pr.requestLinePieces).foldl copyPiece (out, 0))

/-- `ParsedHeader_printHeaders` into what is behind `current`. -/
def printHeaders (pr : ParsedRequest) (out : List UInt8) (current : ℕ) : ℤ × List UInt8 :=
  if out.length - current < pr.headersLen then (-1, out)
  else
    let (out, current) := pr.headers.live.foldl
      (fun out h => [h.1, [colon, sp], h.2, crlf].foldl copyPiece out) (out, current)
    (0, (copyPiece (out, current) crlf).1)

/-- `ParsedRequest_unparse`. -/
def unparse (pr : ParsedRequest) (out : List UInt8) : Except Undefined (ℤ × List UInt8) := do
  if pr.buf = none then return (-1, out)
  let (ret, out, tmp) ← pr.printRequestLine out
  if ret < 0 then return (-1, out)
  return pr.printHeaders out tmp

end ParsedRequest

end ComputerNetwork.Http
