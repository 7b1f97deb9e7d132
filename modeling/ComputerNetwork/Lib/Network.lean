import ComputerNetwork.Lib.Run

/-!
# Networks of nodes

Nodes whose ports are joined by wires.  A message that a node puts on a port can arrive at any port
that it is joined to: late, in any order, any number of times or never; a node can also act by itself,
and the world around the network can put a message on a port.

`Network.rely` is the rule for what holds in all of it: each node, from a good state and for messages
that are fine where they arrive, stays good and puts only messages on its ports that are fine where
the wires take them.
-/

namespace ComputerNetwork.Lib

/-- What a node does with a message that arrives at a port, and by itself; it is none of the network's
business what `A` decides.  The messages come with the ports that they are put on. -/
structure Node (S P M A : Type*) where
  receive : S → P → M → A → Option (S × List (P × M))
  act : S → A → Option (S × List (P × M))

/-- Nodes of one kind, and which port is joined to which. -/
structure Network (N S P M A : Type*) where
  node : Node S P M A
  joined : N × P → N × P → Bool

/-- A message and the port it was put on. -/
structure Sent (N P M : Type*) where
  node : N
  port : P
  message : M

namespace Network

/-- The states of the nodes, and everything that was put on a port so far. -/
structure State (N S P M : Type*) where
  nodes : N → S
  sent : List (Sent N P M)

inductive Action (N P M A : Type*)
  /-- The `k`-th message that was sent arrives at a port. -/
  | deliver (k : ℕ) (n : N) (p : P) (a : A)
  /-- A message from the world around arrives at a port. -/
  | inject (n : N) (p : P) (m : M) (a : A)
  | act (n : N) (a : A)

section Machine

variable {N S P M A : Type*} [DecidableEq N] (W : Network N S P M A)

/-- The step of one node. -/
def update (s : State N S P M) (n : N) (result : Option (S × List (P × M))) :
    Option (State N S P M × List (Sent N P M)) :=
  result.map fun (after, out) =>
    let sent := out.map fun (p, m) => ⟨n, p, m⟩
    ({ nodes := Function.update s.nodes n after, sent := s.sent ++ sent }, sent)

def step (s : State N S P M) : Action N P M A → Option (State N S P M × List (Sent N P M))
  | .deliver k n p a =>
    match s.sent[k]? with
    | none => none
    | some m =>
      if W.joined (m.node, m.port) (n, p) then
        update s n (W.node.receive (s.nodes n) p m.message a)
      else none
  | .inject n p m a => update s n (W.node.receive (s.nodes n) p m a)
  | .act n a => update s n (W.node.act (s.nodes n) a)

/-- A step shows what was put on ports. -/
def machine : Machine (State N S P M) (Action N P M A) (List (Sent N P M)) where
  step := W.step

/-- Nothing has been sent yet. -/
def start (nodes : N → S) : State N S P M := ⟨nodes, []⟩

variable {W} {Good : N → S → Prop} {Fine Puts : N → P → M → Prop}

theorem update_keeps {s s' : State N S P M} {n : N} {result : Option (S × List (P × M))}
    {shown : List (Sent N P M)} (good : ∀ n, Good n (s.nodes n))
    (puts : ∀ m ∈ s.sent, Puts m.node m.port m.message)
    (keeps : ∀ after out, result = some (after, out) → Good n after ∧ ∀ x ∈ out, Puts n x.1 x.2)
    (st : update s n result = some (s', shown)) :
    (∀ n, Good n (s'.nodes n)) ∧ ∀ m ∈ s'.sent, Puts m.node m.port m.message := by
  obtain ⟨⟨after, out⟩, eq, stepped⟩ := Option.map_eq_some_iff.1 st
  obtain ⟨good', puts'⟩ := keeps after out eq
  cases stepped
  refine ⟨fun n' => ?_, fun m mem => ?_⟩
  · by_cases same : n' = n
    · subst same
      show Good n' (Function.update s.nodes n' after n')
      rw [Function.update_self]
      exact good'
    · show Good n' (Function.update s.nodes n after n')
      rw [Function.update_of_ne same]
      exact good n'
  · rcases List.mem_append.1 mem with old | new
    · exact puts m old
    · obtain ⟨x, mem', rfl⟩ := List.mem_map.1 new
      exact puts' x mem'

/-- The rule for networks. -/
theorem rely (Good : N → S → Prop) (Fine Puts : N → P → M → Prop)
    {C : List (Action N P M A × List (Sent N P M)) → State N S P M → Action N P M A → Prop}
    {nodes : N → S} {tr : List (Action N P M A × List (Sent N P M))} {s : State N S P M}
    (run : W.machine.Runs C (start nodes) tr s)
    (world : ∀ tr s n p m a, C tr s (.inject n p m a) → Fine n p m)
    (first : ∀ n, Good n (nodes n))
    (wires : ∀ n p n' p' m, W.joined (n, p) (n', p') → Puts n p m → Fine n' p' m)
    (receives : ∀ n s p m a s' out, Good n s → Fine n p m →
      W.node.receive s p m a = some (s', out) → Good n s' ∧ ∀ x ∈ out, Puts n x.1 x.2)
    (acts : ∀ n s a s' out, Good n s → W.node.act s a = some (s', out) →
      Good n s' ∧ ∀ x ∈ out, Puts n x.1 x.2) :
    (∀ n, Good n (s.nodes n)) ∧ ∀ m ∈ s.sent, Puts m.node m.port m.message := by
  refine run.invariant (I := fun _ s => (∀ n, Good n (s.nodes n)) ∧
    ∀ m ∈ s.sent, Puts m.node m.port m.message) ⟨first, by simp [start]⟩ ?_
  rintro tr s a o s' - ⟨good, puts⟩ cond st
  cases a with
  | deliver k n p a =>
    change step W s (.deliver k n p a) = _ at st
    rw [step] at st
    split at st
    · cases st
    · rename_i m get
      split_ifs at st with joined
      exact update_keeps good puts (fun after out => receives n _ p _ a after out (good n)
        (wires _ _ _ _ _ joined (puts m (List.mem_of_getElem? get)))) st
  | inject n p m a =>
    exact update_keeps good puts (fun after out => receives n _ p m a after out (good n)
      (world _ _ _ _ _ _ cond)) st
  | act n a => exact update_keeps good puts (fun after out => acts n _ a after out (good n)) st

end Machine

end Network

end ComputerNetwork.Lib
