import ComputerNetwork.Lib.Bytes

/-!
# Code that works on one buffer

A computation on a buffer whose loads and stores are checked: it has no result when one of them lies
outside.  A load that lies inside continues with the value (`load_bind`), a store with the changed
buffer (`store_bind`), which keeps its length.
-/

namespace ComputerNetwork.Lib

/-- Code that works on a buffer. -/
abbrev OnBuffer := StateT (List UInt8) Option

namespace OnBuffer

variable {α β : Type}

/-- Load a value that the `n` bytes at `i` hold. -/
def load (i n : ℕ) (value : List UInt8 → α) : OnBuffer α :=
  fun b => if i + n ≤ b.length then some (value b, b) else none

/-- Store bytes at `i`. -/
def store (i : ℕ) (new : List UInt8) : OnBuffer Unit :=
  fun b => if i + new.length ≤ b.length then some ((), splice b i new) else none

/-- Hand the buffer to other code. -/
def buffer : OnBuffer (List UInt8) := fun b => some (b, b)

variable {i n : ℕ} {value : List UInt8 → α} {new b : List UInt8}

theorem load_bind (inside : i + n ≤ b.length) (next : α → OnBuffer β) :
    (load i n value >>= next) b = next (value b) b := by
  simp [bind, StateT.bind, load, inside]

theorem load_bind_outside (outside : b.length < i + n) (next : α → OnBuffer β) :
    (load i n value >>= next) b = none := by
  simp [bind, StateT.bind, load, Nat.not_le.2 outside]

theorem store_bind (inside : i + new.length ≤ b.length) (next : Unit → OnBuffer β) :
    (store i new >>= next) b = next () (splice b i new) := by
  simp [bind, StateT.bind, store, inside]

theorem buffer_bind (b : List UInt8) (next : List UInt8 → OnBuffer β) :
    (buffer >>= next) b = next b b := rfl

theorem pure_run (a : α) (b : List UInt8) : (pure a : OnBuffer α) b = some (a, b) := rfl

theorem bind_of_run {m : OnBuffer α} {a : α} {b' : List UInt8} (run : m b = some (a, b'))
    (next : α → OnBuffer β) : (m >>= next) b = next a b' := by
  simp [bind, StateT.bind, run]

end OnBuffer

end ComputerNetwork.Lib
