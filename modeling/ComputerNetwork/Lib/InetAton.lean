import ComputerNetwork.Lib.Bytes

/-!
# Addresses in text

`inet_aton`: one to four numbers with dots in between, each decimal, octal or hexadecimal as in C, the
last of which fills the bytes that are left.  `inetAton_inetNtoa` is the usual form of four decimal
bytes.
-/

namespace ComputerNetwork.Lib

/-! ## Numbers -/

/-- `isspace` in the C locale. -/
def isspace (c : UInt8) : Bool := c = 32 ∨ (9 ≤ c ∧ c ≤ 13)

/-- The value of a digit in a base up to sixteen. -/
def digitOf (base : ℕ) (c : UInt8) : Option ℕ :=
  let value :=
    if 48 ≤ c ∧ c ≤ 57 then c.toNat - 48
    else if 97 ≤ c ∧ c ≤ 102 then c.toNat - 87
    else if 65 ≤ c ∧ c ≤ 70 then c.toNat - 55
    else base
  if value < base then some value else none

/-- The number that the digits of a text add to `n`, and what follows them. -/
def number (base : ℕ) : ℕ → List UInt8 → ℕ × List UInt8
  | n, [] => (n, [])
  | n, c :: s =>
    match digitOf base c with
    | none => (n, c :: s)
    | some d => number base (base * n + d) s

/-- `strtoul` with base zero of a text that begins with a digit: the number, which is not cut off here,
and what follows it. -/
def strtoul (s : List UInt8) : ℕ × List UInt8 :=
  if s.head? = some 48 then
    -- a prefix "0x" without a digit behind it is a zero
    if s.tail.head? ∈ [some 120, some 88] ∧ (s.tail.tail.head?.bind (digitOf 16)).isSome then
      number 16 0 s.tail.tail
    else number 8 0 s
  else number 10 0 s

/-! ## Addresses -/

/-- The loop of `inet_aton` when `left` more dots may follow and the numbers so far give `word`. -/
def inetAtonLoop : ℕ → ℕ → List UInt8 → Option ℕ
  | left, word, cp =>
    if (cp.head?.bind (digitOf 10)).isNone then none
    else
      let (val, cp) := strtoul cp
      if 2 ^ 32 ≤ val then none
      else
        match left, cp with
        | left + 1, 46 :: cp =>
          if 255 < val then none else inetAtonLoop left (word + val * 256 ^ (left + 1)) cp
        | left, cp =>
          if cp.head?.all isspace ∧ val < 256 ^ (left + 1) then some (word + val) else none

/-- `inet_aton`: the address as a little-endian host sees it. -/
def inetAton (cp : List UInt8) : Option UInt32 :=
  (inetAtonLoop 3 0 cp).map fun word => loadLE32 (bytesBE32 (UInt32.ofNat word)) 0

/-! ## Dotted decimal addresses -/

/-- A digit in ASCII. -/
def digit (d : ℕ) : UInt8 := UInt8.ofNat (48 + d)

/-- A byte in decimal. -/
def decimal (a : UInt8) : List UInt8 :=
  if a < 10 then [digit a.toNat]
  else if a < 100 then [digit (a.toNat / 10), digit (a.toNat % 10)]
  else [digit (a.toNat / 100), digit (a.toNat / 10 % 10), digit (a.toNat % 10)]

/-- Four decimal bytes. -/
def dotted (a b c d : UInt8) : List UInt8 :=
  decimal a ++ 46 :: (decimal b ++ 46 :: (decimal c ++ 46 :: decimal d))

/-- `inet_ntoa` of an address as a little-endian host sees it. -/
def inetNtoa (x : UInt32) : List UInt8 :=
  dotted (UInt8.ofNat x.toNat) (UInt8.ofNat (x.toNat / 256)) (UInt8.ofNat (x.toNat / 65536))
    (UInt8.ofNat (x.toNat / 16777216))

section Dotted

variable {a b c d : UInt8} {rest : List UInt8} {base n : ℕ}

theorem digitOf_digit : ∀ d < 10, ∀ base ∈ [8, 10, 16], d < base → digitOf base (digit d) = some d := by
  decide

theorem digit_ne_zero : ∀ d < 10, 0 < d → digit d ≠ 48 := by
  decide

/-- Texts that no decimal digit begins. -/
def Ends (rest : List UInt8) : Prop := ∀ c ∈ rest.head?, c = 46

theorem number_ends (n : ℕ) (ends : Ends rest) (mem : base ∈ [8, 10, 16]) :
    number base n rest = (n, rest) := by
  cases rest with
  | nil => rfl
  | cons c rest =>
    obtain rfl := ends c rfl
    have none_ : digitOf base 46 = none := by
      simp only [List.mem_cons, List.not_mem_nil, or_false] at mem
      rcases mem with rfl | rfl | rfl <;> rfl
    rw [number, none_]

theorem number_digit {d : ℕ} (small : d < 10) :
    number 10 n (digit d :: rest) = number 10 (10 * n + d) rest := by
  rw [number, digitOf_digit d small 10 (by simp) small]

theorem strtoul_decimal (a : UInt8) (ends : Ends rest) :
    strtoul (decimal a ++ rest) = (a.toNat, rest) := by
  have bound := a.toNat_lt
  have stop : number 10 a.toNat rest = (a.toNat, rest) := number_ends _ ends (by simp)
  unfold decimal
  split_ifs with one two
  · have small : a.toNat < 10 := UInt8.lt_iff_toNat_lt.1 one
    by_cases zero : a.toNat = 0
    · have prefix_ : ¬ rest.head? ∈ [some 120, some 88] := by
        cases rest with
        | nil => simp
        | cons c rest =>
          obtain rfl := ends c rfl
          simp
      rw [zero, List.singleton_append, strtoul, if_pos (by rfl), List.tail_cons,
        if_neg fun h => prefix_ h.1, number, digitOf_digit 0 (by decide) 8 (by simp) (by decide)]
      exact number_ends _ ends (by simp)
    · have head := digit_ne_zero _ small (by omega)
      rw [strtoul, if_neg (by simpa using head), List.singleton_append, number_digit small]
      simpa using stop
  · have small : a.toNat < 100 := UInt8.lt_iff_toNat_lt.1 two
    have large : ¬ a.toNat < 10 := fun h => one (UInt8.lt_iff_toNat_lt.2 h)
    have head := digit_ne_zero (a.toNat / 10) (by omega) (by omega)
    rw [strtoul, if_neg (by simpa using head), List.cons_append, List.singleton_append,
      number_digit (by omega), number_digit (by omega), Nat.mul_zero, Nat.zero_add, Nat.div_add_mod,
      stop]
  · have large : ¬ a.toNat < 100 := fun h => two (UInt8.lt_iff_toNat_lt.2 h)
    have head := digit_ne_zero (a.toNat / 100) (by omega) (by omega)
    have sum : 10 * (10 * (a.toNat / 100) + a.toNat / 10 % 10) + a.toNat % 10 = a.toNat := by omega
    rw [strtoul, if_neg (by simpa using head), List.cons_append, List.cons_append,
      List.singleton_append, number_digit (by omega), number_digit (by omega), number_digit (by omega),
      Nat.mul_zero, Nat.zero_add, sum, stop]

theorem head_decimal (a : UInt8) (rest : List UInt8) :
    (((decimal a ++ rest).head?).bind (digitOf 10)).isNone = false := by
  have bound := a.toNat_lt
  unfold decimal
  split_ifs with one two
  · have small : a.toNat < 10 := UInt8.lt_iff_toNat_lt.1 one
    simp [digitOf_digit _ small 10 (by simp) small]
  · have small : a.toNat / 10 < 10 := by
      have : a.toNat < 100 := UInt8.lt_iff_toNat_lt.1 two
      omega
    simp [digitOf_digit _ small 10 (by simp) small]
  · have small : a.toNat / 100 < 10 := by omega
    simp [digitOf_digit _ small 10 (by simp) small]

theorem inetAtonLoop_dot {left word : ℕ} (a : UInt8) (rest : List UInt8) :
    inetAtonLoop (left + 1) word (decimal a ++ 46 :: rest) =
      inetAtonLoop left (word + a.toNat * 256 ^ (left + 1)) rest := by
  have bound := a.toNat_lt
  have ends : Ends (46 :: rest) := by
    rintro c ⟨⟩
    rfl
  rw [inetAtonLoop, head_decimal, if_neg (by simp), strtoul_decimal a ends]
  dsimp only
  rw [if_neg (by omega)]
  exact if_neg (by omega)

theorem inetAtonLoop_last {word : ℕ} (a : UInt8) :
    inetAtonLoop 0 word (decimal a) = some (word + a.toNat) := by
  have bound := a.toNat_lt
  have ends : Ends [] := by
    rintro c ⟨⟩
  have value := strtoul_decimal a ends
  have head := head_decimal a []
  rw [List.append_nil] at value head
  rw [inetAtonLoop, head, if_neg (by simp), value]
  dsimp only
  rw [if_neg (by omega), if_pos ⟨by simp, by omega⟩]

theorem bytes_word (a b c d : UInt8) : bytesBE32 (UInt32.ofNat (0 + a.toNat * 256 ^ (2 + 1) +
    b.toNat * 256 ^ (1 + 1) + c.toNat * 256 ^ (0 + 1) + d.toNat)) = [a, b, c, d] := by
  have := a.toNat_lt
  have := b.toNat_lt
  have := c.toNat_lt
  have := d.toNat_lt
  simp only [bytesBE32, List.cons.injEq, and_true, ← UInt8.toNat_inj, UInt8.toNat_ofNat',
    UInt32.toNat_ofNat']
  omega

/-- Four decimal bytes are the bytes of the address. -/
theorem inetAton_dotted (a b c d : UInt8) :
    inetAton (dotted a b c d) = some (loadLE32 [a, b, c, d] 0) := by
  rw [inetAton, dotted, inetAtonLoop_dot, inetAtonLoop_dot, inetAtonLoop_dot, inetAtonLoop_last,
    Option.map_some, bytes_word]

theorem inetAton_inetNtoa (x : UInt32) : inetAton (inetNtoa x) = some x := by
  rw [inetNtoa, inetAton_dotted]
  exact congrArg some (loadLE32_bytesLE32 x [])

theorem isspace_digit : ∀ d < 10, isspace (digit d) = false := by
  decide

theorem decimal_word (a : UInt8) :
    (∀ c ∈ decimal a, isspace c = false) ∧ 0 < (decimal a).length ∧ (decimal a).length ≤ 3 := by
  have bound := a.toNat_lt
  have ten := fun d => isspace_digit (d % 10) (Nat.mod_lt d (by decide))
  unfold decimal
  split_ifs with one two
  · have small : a.toNat < 10 := UInt8.lt_iff_toNat_lt.1 one
    simpa using isspace_digit _ small
  · have small : a.toNat / 10 < 10 := by
      have : a.toNat < 100 := UInt8.lt_iff_toNat_lt.1 two
      omega
    simpa using ⟨isspace_digit _ small, ten a.toNat⟩
  · simpa using ⟨isspace_digit (a.toNat / 100) (by omega), ten (a.toNat / 10), ten a.toNat⟩

theorem inetNtoa_word (x : UInt32) : inetNtoa x ≠ [] ∧ (∀ c ∈ inetNtoa x, isspace c = false) ∧
    (inetNtoa x).length ≤ 15 := by
  have parts := fun n => decimal_word (UInt8.ofNat n)
  obtain ⟨free₁, some₁, short₁⟩ := parts x.toNat
  obtain ⟨free₂, some₂, short₂⟩ := parts (x.toNat / 256)
  obtain ⟨free₃, some₃, short₃⟩ := parts (x.toNat / 65536)
  obtain ⟨free₄, some₄, short₄⟩ := parts (x.toNat / 16777216)
  refine ⟨by simp [inetNtoa, dotted], fun c mem => ?_, ?_⟩
  · simp only [inetNtoa, dotted, List.mem_append, List.mem_cons] at mem
    rcases mem with mem | rfl | mem | rfl | mem | rfl | mem
    · exact free₁ c mem
    · rfl
    · exact free₂ c mem
    · rfl
    · exact free₃ c mem
    · rfl
    · exact free₄ c mem
  · simp only [inetNtoa, dotted, List.length_append, List.length_cons]
    omega

end Dotted

end ComputerNetwork.Lib
