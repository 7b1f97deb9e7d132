import ComputerNetwork.Tcp.Receive
import ComputerNetwork.Tcp.TcpSum

/-!
# The lengths handed to the application

The `NETWORK_DATA` branch for a packet of any length up to 1500.  The assertion of `stcp_network_recv`
stands between the branch and the network: it is given the length that was queued, which for a long
packet goes on behind the buffer of 556 bytes, and it lets the empty buffer pass that stands for an error
of the network.  `passesUp_iff` says for which packets the branch hands up bytes of the payload only.
-/

namespace ComputerNetwork.Tcp

open Lib Endpoint

/-! ## The code -/

/-- `assert(len <= 0 || _mysock_verify_checksum(_mysock_get_context(sd), dst, len))`; the memory goes on
with `behind` where the buffer `dst` ends. -/
def recvAssertion (localAddr peerAddr : UInt32) (dst behind : List UInt8) (len : ℕ) : Bool :=
  len == 0 || mysockVerifyChecksum localAddr peerAddr (dst ++ behind) len == some true

/-- The step of the STCP thread that receives a packet, with the assertion of `stcp_network_recv`. -/
def receiveAsserted (localAddr peerAddr : UInt32) (behind : List UInt8) (e : Endpoint) :
    Option Endpoint :=
  match e.transport 0 none with
  | some (e', .recv data len) =>
    if recvAssertion localAddr peerAddr (zeroFill (stcpMss + 20) data) behind len then some e'
    else some { e' with pc := .crashed }
  | _ => none

/-! ## What may be handed up -/

/-- A call for the packet `pkt` that hands up no more than its payload, and copied bytes only. -/
def PassesUp (pkt : List UInt8) : Call → Prop
  | .appSend src srcLen =>
    (toSize srcLen : ℤ) ≤ min ((pkt.length : ℤ) - 20) 536 ∧
      src.take (toSize srcLen) = ((pkt.take 556).drop 20).take (toSize srcLen)
  | _ => True

section Payload

variable {e : Endpoint} {event : Event} {pkt : List UInt8} {rest : List (List UInt8)}
  {localAddr peerAddr : UInt32} {behind : List UInt8}

/-- A packet without the flag ACK whose bytes have all been copied. -/
theorem passesUp_appSend (long : 20 ≤ pkt.length) (short : pkt.length ≤ 556) :
    PassesUp pkt (.appSend ((zeroFill 556 (pkt.take 556)).drop sizeofSTCPHeader)
      (pkt.length - sizeofSTCPHeader : ℤ)) := by
  have size : (pkt.length : ℤ) - (20 : ℕ) = (pkt.length - 20 : ℕ) := by omega
  have body := drop_zeroFill_take long short
  rw [PassesUp, show sizeofSTCPHeader = 20 from rfl, size, toSize_natCast (by omega), body,
    List.take_of_length_le short, List.take_append_of_le_length (by rw [List.length_drop])]
  exact ⟨by omega, rfl⟩

/-- The length of a packet that is too short wraps around; that of a packet that is too long is not
what has been copied. -/
theorem not_passesUp_appSend {src : List UInt8} (bound : pkt.length ≤ 1500)
    (bad : pkt.length < 20 ∨ 556 < pkt.length) :
    ¬ PassesUp pkt (.appSend src (pkt.length - sizeofSTCPHeader : ℤ)) := by
  rintro ⟨within, -⟩
  rw [show sizeofSTCPHeader = 20 from rfl] at within
  unfold toSize at within
  omega

theorem receiveAsserted_eq (localAddr peerAddr : UInt32) (behind : List UInt8)
    (pc : e.pc = .networkRecv event) (queue : e.sock.networkRecvQueue = pkt :: rest) :
    ∃ e', receiveAsserted localAddr peerAddr behind e = some e' ∧
      pendingCalls e'.pc =
        if recvAssertion localAddr peerAddr (zeroFill 556 (pkt.take 556)) behind pkt.length then
          (networkData e.ctx (zeroFill 556 (pkt.take 556)) pkt.length).2
        else [] := by
  have step : e.transport 0 none = some
      ({ e with sock := { e.sock with networkRecvQueue := rest }
                ctx := (networkData e.ctx (zeroFill 556 (pkt.take 556)) pkt.length).1
                errno := e.recvErrno pkt.length
                pc := callsPc event (networkData e.ctx (zeroFill 556 (pkt.take 556)) pkt.length).2
                  (networkData e.ctx (zeroFill 556 (pkt.take 556)) pkt.length).1 },
        .recv (pkt.take 556) pkt.length) := by
    rw [Endpoint.transport, pc]
    simp only [stcpNetworkRecv_cons queue, Option.map_some]
    rfl
  rw [receiveAsserted, step]
  dsimp only
  rw [show stcpMss + 20 = 556 from rfl]
  split_ifs with holds
  · exact ⟨_, rfl, (work_callsPc _ _ _).1⟩
  · exact ⟨_, rfl, rfl⟩

/-- A packet that is too short for a header does not get past the assertion, except for the empty one. -/
theorem recvAssertion_short (some : pkt ≠ []) (short : pkt.length < 20) (dst : List UInt8) :
    recvAssertion localAddr peerAddr dst behind pkt.length = false := by
  have none : mysockTcpChecksum peerAddr localAddr (dst ++ behind) pkt.length = none := by
    rw [mysockTcpChecksum, if_pos (Or.inl (by simpa [sizeofSTCPHeader] using short))]
    rfl
  have pos : pkt.length ≠ 0 := by simpa using some
  simp [recvAssertion, mysockVerifyChecksum, none, pos]

/-- For a long packet the checksum goes on behind the buffer. -/
theorem recvAssertion_long (far : 556 < pkt.length) :
    recvAssertion localAddr peerAddr (zeroFill 556 (pkt.take 556)) behind pkt.length = true ↔
      mysockVerifyChecksum localAddr peerAddr (pkt.take 556 ++ behind) pkt.length = some true := by
  have filled : zeroFill 556 (pkt.take 556) = pkt.take 556 := by
    simp [zeroFill, show min 556 pkt.length = 556 by omega]
  rw [recvAssertion, filled, Bool.or_eq_true, beq_iff_eq, beq_iff_eq, or_iff_right (by omega)]

/-- The calls hand up the payload exactly when the branch ignores it or it has been copied whole. -/
theorem passesUp_networkData (est : e.ctx.connectionState = .established) (bound : pkt.length ≤ 1500)
    (long : pkt ≠ [] → 20 ≤ pkt.length) :
    (∀ call ∈ (networkData e.ctx (zeroFill 556 (pkt.take 556)) pkt.length).2, PassesUp pkt call) ↔
      pkt ≠ [] ∧ (hasFlag pkt thACK = true ∨ pkt.length ≤ 556) := by
  have flag := hasFlag_zeroFill_take pkt (by omega : 20 ≤ 556)
  have empty : pkt = [] → hasFlag pkt thACK = false ∧ hasFlag pkt thFIN = false := by
    rintro rfl
    exact ⟨rfl, rfl⟩
  have fits : pkt ≠ [] → pkt.length ≤ 556 →
      PassesUp pkt (.appSend ((zeroFill 556 (pkt.take 556)).drop sizeofSTCPHeader)
        (pkt.length - sizeofSTCPHeader : ℤ)) := fun some short => passesUp_appSend (long some) short
  rcases branch : networkData e.ctx (zeroFill 556 (pkt.take 556)) pkt.length with ⟨ctx, pending⟩
  rcases networkData_cases branch est with ⟨ack, -, rfl⟩ | ⟨ack, fin, -, rfl⟩ | ⟨ack, fin, -, rfl⟩
  · rw [flag] at ack
    have some : pkt ≠ [] := fun none => by simp [(empty none).1] at ack
    simpa [ack] using some
  · rw [flag] at ack fin
    have some : pkt ≠ [] := fun none => by simp [(empty none).2] at fin
    by_cases data : sizeofSTCPHeader < pkt.length
    · rw [if_pos data]
      constructor
      · intro passes
        refine ⟨some, Or.inr ?_⟩
        by_contra far
        exact not_passesUp_appSend bound (Or.inr (by omega))
          (passes _ (List.mem_cons_of_mem _ (List.mem_cons_self ..)))
      · rintro ⟨-, raised | short⟩
        · simp [ack] at raised
        · simpa [PassesUp] using fits some short
    · rw [if_neg data]
      simp only [sizeofSTCPHeader] at data
      simp only [List.nil_append, List.mem_cons, List.not_mem_nil, or_false, forall_eq_or_imp,
        forall_eq, PassesUp, and_self, true_iff]
      exact ⟨some, Or.inr (by omega)⟩
  · rw [flag] at ack fin
    constructor
    · intro passes
      have call := passes _ (List.mem_cons_self ..)
      refine ⟨?_, Or.inr ?_⟩
      · rintro rfl
        exact not_passesUp_appSend bound (Or.inl (by simp)) call
      · by_contra far
        exact not_passesUp_appSend bound (Or.inr (by omega)) call
    · rintro ⟨some, raised | short⟩
      · simp [ack] at raised
      · simpa [PassesUp] using fits some short

/-- The branch hands up bytes of the payload only, exactly for a packet that is not the empty one and
that, when it is longer than the buffer, has the flag ACK or does not get past the assertion. -/
theorem passesUp_iff (pc : e.pc = .networkRecv event) (est : e.ctx.connectionState = .established)
    (queue : e.sock.networkRecvQueue = pkt :: rest) (bound : pkt.length ≤ 1500) :
    (∃ e', receiveAsserted localAddr peerAddr behind e = some e' ∧
      ∀ call ∈ pendingCalls e'.pc, PassesUp pkt call) ↔
      pkt ≠ [] ∧ (556 < pkt.length → hasFlag pkt thACK = true ∨
        mysockVerifyChecksum localAddr peerAddr (pkt.take 556 ++ behind) pkt.length ≠ some true) := by
  obtain ⟨e', received, calls⟩ := receiveAsserted_eq localAddr peerAddr behind pc queue
  have only : (∃ e', receiveAsserted localAddr peerAddr behind e = some e' ∧
      ∀ call ∈ pendingCalls e'.pc, PassesUp pkt call) ↔
      ∀ call ∈ pendingCalls e'.pc, PassesUp pkt call := by
    simp [received]
  rw [only, calls]
  by_cases empty : pkt = []
  · have passed := (passesUp_networkData est bound (fun some => absurd empty some)).1
    rw [if_pos (by simp [recvAssertion, empty])]
    constructor
    · intro passes
      exact absurd empty (passed passes).1
    · rintro ⟨some, -⟩
      exact absurd empty some
  · by_cases short : pkt.length < 20
    · rw [if_neg (by simp [recvAssertion_short empty short])]
      simpa using ⟨empty, fun far => absurd far (by omega)⟩
    · have passed := passesUp_networkData est bound (fun _ => by omega)
      split_ifs with holds
      · rw [passed]
        constructor
        · rintro ⟨-, raised | fits⟩
          · exact ⟨empty, fun _ => Or.inl raised⟩
          · exact ⟨empty, fun far => absurd far (by omega)⟩
        · rintro ⟨-, far⟩
          refine ⟨empty, ?_⟩
          by_cases fits : pkt.length ≤ 556
          · exact Or.inr fits
          · have far' : 556 < pkt.length := by omega
            exact (far far').imp_right fun rejected =>
              absurd ((recvAssertion_long far').1 holds) rejected
      · constructor
        · intro _
          exact ⟨empty, fun far => Or.inr fun accepted => holds ((recvAssertion_long far).2 accepted)⟩
        · simp

end Payload

/-- Two bytes of data with the checksum of the other end are handed up. -/
theorem passesUp_iff_data :
    ∃ e', receiveAsserted 0x0100007f 0x0200007f []
        (established (splice ((dataHeader (generateInitialSeqNum 42)).bytes ++ [104, 105]) 16 [61, 76])) =
          some e' ∧
      ∀ call ∈ pendingCalls e'.pc, PassesUp
        (splice ((dataHeader (generateInitialSeqNum 42)).bytes ++ [104, 105]) 16 [61, 76]) call :=
  (passesUp_iff rfl rfl
    (show (established _).sock.networkRecvQueue = [_] from rfl) (by decide)).2 ⟨by decide, by decide⟩

/-- An error of the network is handed up as 2 ^ 64 - 20 bytes. -/
theorem not_passesUp_networkError :
    ¬ ∃ e', receiveAsserted 0x0100007f 0x0200007f [] (established []) = some e' ∧
      ∀ call ∈ pendingCalls e'.pc, PassesUp [] call := by
  rintro ⟨e', received, passes⟩
  have queue : (established []).sock.networkRecvQueue = [[]] := rfl
  obtain ⟨e'', received', calls⟩ := receiveAsserted_eq 0x0100007f 0x0200007f [] rfl queue
  obtain rfl : e' = e'' := Option.some.inj (received.symm.trans received')
  have passed : recvAssertion 0x0100007f 0x0200007f (zeroFill 556 (([] : List UInt8).take 556)) []
      ([] : List UInt8).length = true := rfl
  rw [calls, if_pos passed] at passes
  have call := passes (.appSend ((zeroFill 556 []).drop sizeofSTCPHeader) (0 - sizeofSTCPHeader : ℤ))
    (List.mem_cons_self ..)
  exact not_passesUp_appSend (Nat.zero_le _) (Or.inl Nat.ofNat_pos) call

end ComputerNetwork.Tcp
