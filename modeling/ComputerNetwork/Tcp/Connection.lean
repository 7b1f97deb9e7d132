import ComputerNetwork.Tcp.Invariant

/-!
# Two endpoints joined by reliable channels

The active and the passive endpoint of one connection, with the packets that each has sent and that
have not yet been put on the other's `network_recv_queue`.  Every step of either STCP thread, every
call of either application and every delivery of a packet is a step of the connection, in any
order.  Sends succeed, and `stcp_app_recv` is asked for at most `SENDER_WINDOW` bytes.
-/

namespace ComputerNetwork.Tcp

open Lib

inductive Side where
  | active | passive
  deriving DecidableEq, Repr

def Side.peer : Side → Side
  | .active => .passive
  | .passive => .active

@[simp] theorem Side.peer_peer (s : Side) : s.peer.peer = s := by cases s <;> rfl

theorem Side.peer_ne (s : Side) : s.peer ≠ s := by cases s <;> decide

theorem Side.eq_or_eq_peer (s x : Side) : x = s ∨ x = s.peer := by
  cases s <;> cases x <;> decide

structure Connection where
  ep : Side → Endpoint
  /-- Packets sent by a side and still on their way, oldest first. -/
  wire : Side → List (List UInt8)

inductive ConnectionAction where
  | transport (side : Side) (maxLen : ℕ)
  | mywrite (side : Side) (buf : List UInt8)
  | myclose (side : Side)
  | myread (side : Side) (bufLen : ℕ)
  /-- The oldest packet on its way to `side` arrives. -/
  | deliver (side : Side)
  deriving DecidableEq, Repr

namespace Connection

/-- Both threads start; `rActive` and `rPassive` are the values of `rand()`. -/
def init (rActive rPassive : ℕ) : Connection where
  ep
    | .active => Endpoint.init true rActive
    | .passive => Endpoint.init false rPassive
  wire _ := []

/-- A step of one endpoint. -/
def stepAt (c : Connection) (side : Side) (a : Action) : Option (Connection × Obs) :=
  ((c.ep side).step a).map fun (e, o) =>
    ({ ep := Function.update c.ep side e
       wire := Function.update c.wire side (c.wire side ++ sentPackets o) }, o)

def step (c : Connection) : ConnectionAction → Option (Connection × Obs)
  | .transport side maxLen =>
      if maxLen ≤ senderWindow then c.stepAt side (.transport maxLen none) else none
  | .mywrite side buf => c.stepAt side (.mywrite buf)
  | .myclose side => c.stepAt side .myclose
  | .myread side bufLen => c.stepAt side (.myread bufLen)
  | .deliver side =>
      match c.wire side.peer with
      | [] => none
      | pkt :: rest =>
        ((c.ep side).step (.deliver pkt)).map fun (e, o) =>
          ({ ep := Function.update c.ep side e, wire := Function.update c.wire side.peer rest }, o)

def machine : Machine Connection ConnectionAction Obs where
  step := step

end Connection

/-! ## What a trace shows -/

abbrev ConnectionTrace := List (ConnectionAction × Obs)

/-- The bytes the application of `side` has written. -/
def written (side : Side) (tr : ConnectionTrace) : List UInt8 :=
  tr.flatMap fun
    | (.mywrite s buf, _) => if s = side then buf else []
    | _ => []

/-- The buffers put on the `app_send_queue` of `side`, in order; an empty one is the EOF marker. -/
def puts (side : Side) (tr : ConnectionTrace) : List (List UInt8) :=
  tr.flatMap fun
    | (.transport s _, o) => if s = side then putBuffers o else []
    | _ => []

/-- The trace contains the `myclose` of `side`, and `tr₁` is what came before it. -/
def ClosedAfter (side : Side) (tr tr₁ : ConnectionTrace) : Prop :=
  ∃ o tr₂, tr = tr₁ ++ (.myclose side, o) :: tr₂

@[simp] theorem written_append (side : Side) (tr tr' : ConnectionTrace) :
    written side (tr ++ tr') = written side tr ++ written side tr' := List.flatMap_append

@[simp] theorem puts_append (side : Side) (tr tr' : ConnectionTrace) :
    puts side (tr ++ tr') = puts side tr ++ puts side tr' := List.flatMap_append

theorem ClosedAfter.append {side : Side} {tr tr₁ : ConnectionTrace} (h : ClosedAfter side tr tr₁)
    (tr' : ConnectionTrace) : ClosedAfter side (tr ++ tr') tr₁ := by
  obtain ⟨o, tr₂, rfl⟩ := h
  exact ⟨o, tr₂ ++ tr', by simp⟩

end ComputerNetwork.Tcp
