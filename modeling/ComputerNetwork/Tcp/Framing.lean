import ComputerNetwork.Tcp.Listener

/-!
# Packets on a TCP connection

`_network_send_packet` and `_network_recv_packet` carry packets over a byte stream, each behind its
length in two bytes.  `read` and `write` may move fewer bytes than they are asked to; `_tcp_io` calls
them until all bytes are moved, the stream ends or an error comes.  The environment chooses how many
bytes a call moves (`some n` for at most `n + 1`) or that it fails (`none`); a call that is asked for
bytes moves at least one, unless `read` stands at the end of the stream.

The stream of a reader holds all bytes that arrive before the connection ends, `read` waits for those
that are on the way.  `recvPackets_spec` says that the packets come out as they went in.
-/

namespace ComputerNetwork.Tcp.Framing

open Lib

/-! ## The loop -/

section Loop

variable {σ : Type*}

/-- `_tcp_io`, with `remaining` bytes left; `io k n s` is the call of `io_func` on the `n` bytes of the
buffer from `k` on. -/
def tcpIo (io : ℕ → ℕ → σ → ℤ × σ) (count remaining : ℕ) (s : σ) : ℤ × σ :=
  if 0 < remaining then
    if (io (count - remaining) remaining s).1 ≤ 0 then io (count - remaining) remaining s
    else
      tcpIo io count (remaining - (io (count - remaining) remaining s).1.toNat)
        (io (count - remaining) remaining s).2
  else (count, s)
termination_by remaining
decreasing_by omega

/-- All bytes are moved and `I` holds, or the loop has given up and `E` holds. -/
def Ends (count : ℕ) (I : σ → Prop) (E : ℤ → σ → Prop) (r : ℤ × σ) : Prop :=
  (r.1 = count ∧ I r.2) ∨ (r.1 ≤ 0 ∧ E r.1 r.2)

/-- The rule for `_tcp_io`: `I k` holds when `k` bytes are moved. -/
theorem tcpIo_rule {io : ℕ → ℕ → σ → ℤ × σ} {count : ℕ} (I : ℕ → σ → Prop) (E : ℤ → σ → Prop)
    (step : ∀ k s r, k < count → I k s → io k (count - k) s = r →
      (0 < r.1 ∧ k + r.1.toNat ≤ count ∧ I (k + r.1.toNat) r.2) ∨ (r.1 ≤ 0 ∧ E r.1 r.2))
    {s : σ} (start : I 0 s) : Ends count (I count) E (tcpIo io count count s) := by
  have loop : ∀ remaining k s, k + remaining = count → I k s →
      Ends count (I count) E (tcpIo io count remaining s) := by
    intro remaining
    induction remaining using Nat.strong_induction_on with
    | _ remaining ih =>
      intro k s whole inv
      rw [tcpIo]
      by_cases more : 0 < remaining
      · have here : count - remaining = k := by omega
        have moved := step k s _ (by omega) inv rfl
        rw [show count - k = remaining by omega] at moved
        rw [if_pos more, here]
        rcases moved with ⟨pos, fits, inv'⟩ | gaveUp
        · rw [if_neg (by omega)]
          exact ih _ (by omega) (k + (io k remaining s).1.toNat) _ (by omega) inv'
        · rw [if_pos gaveUp.1]
          exact Or.inr gaveUp
      · have done : k = count := by omega
        rw [if_neg more]
        exact Or.inl ⟨rfl, done ▸ inv⟩
  exact loop count 0 s (Nat.zero_add count) start

end Loop

/-! ## Reading and writing -/

/-- The end of a connection that is read from. -/
structure Reader where
  stream : List UInt8
  calls : ℕ

/-- The end of a connection that is written to, with the bytes that were accepted so far. -/
structure Writer where
  stream : List UInt8
  calls : ℕ

/-- `read`, into a buffer that has the bytes read so far. -/
def read (reads : ℕ → Option ℕ) (_at n : ℕ) (s : Reader × List UInt8) : ℤ × (Reader × List UInt8) :=
  match reads s.1.calls with
  | none => (-1, ({ s.1 with calls := s.1.calls + 1 }, s.2))
  | some most =>
      let k := min (most + 1) (min n s.1.stream.length)
      (k, ({ stream := s.1.stream.drop k, calls := s.1.calls + 1 }, s.2 ++ s.1.stream.take k))

/-- `write`, from the buffer `src`. -/
def write (writes : ℕ → Option ℕ) (src : List UInt8) (k n : ℕ) (w : Writer) : ℤ × Writer :=
  match writes w.calls with
  | none => (-1, { w with calls := w.calls + 1 })
  | some most =>
      let m := min (most + 1) n
      (m, { stream := w.stream ++ (src.drop k).take m, calls := w.calls + 1 })

/-- `_tcp_io` with `read`: what it returns, the bytes read and the connection. -/
def tcpRead (reads : ℕ → Option ℕ) (count : ℕ) (r : Reader) : ℤ × (Reader × List UInt8) :=
  tcpIo (read reads) count count (r, [])

/-- `_tcp_io` with `write`. -/
def tcpWrite (writes : ℕ → Option ℕ) (src : List UInt8) (w : Writer) : ℤ × Writer :=
  tcpIo (write writes src) src.length src.length w

/-- No call fails. -/
def NoError (choices : ℕ → Option ℕ) : Prop := ∀ i, (choices i).isSome

/-- All bytes asked for are read, or there are not as many, or a call failed. -/
theorem tcpRead_spec (reads : ℕ → Option ℕ) (count : ℕ) (r : Reader) :
    Ends count (fun s : Reader × List UInt8 => count ≤ r.stream.length ∧
        s.2 = r.stream.take count ∧ s.1.stream = r.stream.drop count)
      (fun rc s => NoError reads →
        rc = 0 ∧ r.stream.length < count ∧ s.2 = r.stream ∧ s.1.stream = [])
      (tcpRead reads count r) := by
  refine tcpIo_rule (fun k (s : Reader × List UInt8) => k ≤ r.stream.length ∧
    s.2 = r.stream.take k ∧ s.1.stream = r.stream.drop k) _ ?_ ⟨Nat.zero_le _, rfl, rfl⟩
  rintro k ⟨reader, buf⟩ res more ⟨within, got, left⟩ rfl
  dsimp only at got left
  unfold read
  dsimp only
  cases choice : reads reader.calls with
  | none =>
      exact Or.inr ⟨show (-1 : ℤ) ≤ 0 by decide, fun fine => by simpa [choice] using fine reader.calls⟩
  | some most =>
      dsimp only
      have length : reader.stream.length = r.stream.length - k := by rw [left, List.length_drop]
      cases Nat.eq_or_lt_of_le within with
      | inl atEnd =>
        -- `read` returns zero at the end of the stream
        have none : min (most + 1) (min (count - k) reader.stream.length) = 0 := by omega
        rw [none]
        refine Or.inr ⟨le_rfl, fun _ => ⟨rfl, by omega, ?_, ?_⟩⟩
        · rw [List.take_zero, List.append_nil, got, List.take_of_length_le atEnd.ge]
        · rw [List.drop_zero, left, List.drop_eq_nil_of_le atEnd.ge]
      | inr inside =>
        refine Or.inl ⟨by omega, by omega, by omega, ?_, ?_⟩
        · rw [got, left, Int.toNat_natCast, List.take_add]
        · rw [left, Int.toNat_natCast, List.drop_drop]

/-- The bytes that are written are the first of the buffer, all of it if no call fails. -/
theorem tcpWrite_spec (writes : ℕ → Option ℕ) (src : List UInt8) (w : Writer) :
    Ends src.length (fun w' => w'.stream = w.stream ++ src)
      (fun rc w' => rc = -1 ∧ ¬ NoError writes ∧ ∃ sent, sent <+: src ∧ w'.stream = w.stream ++ sent)
      (tcpWrite writes src w) := by
  have written : Ends src.length (fun w' => w'.stream = w.stream ++ src.take src.length)
      (fun rc w' => rc = -1 ∧ ¬ NoError writes ∧
        ∃ sent, sent <+: src ∧ w'.stream = w.stream ++ sent)
      (tcpIo (write writes src) src.length src.length w) := by
    refine tcpIo_rule (fun k (w' : Writer) => w'.stream = w.stream ++ src.take k) _ ?_
      (List.append_nil w.stream).symm
    rintro k w' res more got rfl
    unfold write
    cases choice : writes w'.calls with
    | none =>
        refine Or.inr ⟨show (-1 : ℤ) ≤ 0 by decide, rfl, fun fine => ?_, _, List.take_prefix k src, got⟩
        simpa [choice] using fine w'.calls
    | some most =>
        refine Or.inl ⟨by dsimp only; omega, by dsimp only; omega, ?_⟩
        dsimp only
        rw [got, Int.toNat_natCast, List.take_add, List.append_assoc]
  rwa [List.take_length] at written

/-! ## Packets -/

/-- A packet on the wire. -/
def frame (packet : List UInt8) : List UInt8 := bytesBE16 (UInt16.ofNat packet.length) ++ packet

/-- `_network_send_packet` on a connected socket. -/
def networkSendPacket (writes : ℕ → Option ℕ) (w : Writer) (src : List UInt8) : ℤ × Writer :=
  let (rc, w) := tcpWrite writes (bytesBE16 (UInt16.ofNat src.length)) w
  if rc < 0 then (-1, w)
  else
    let (rc, w) := tcpWrite writes src w
    if rc < 0 then (-1, w) else (src.length, w)

/-- Send packets, up to the first that fails. -/
def sendPackets (writes : ℕ → Option ℕ) : List (List UInt8) → Writer → Writer
  | [], w => w
  | packet :: rest, w =>
      let (rc, w) := networkSendPacket writes w packet
      if rc < 0 then w else sendPackets writes rest w

/-- `_network_recv_packet` on a connected socket: what it returns, the contents of `dst` and the
connection. -/
def networkRecvPacket (reads : ℕ → Option ℕ) (maxLen : ℕ) (r : Reader) : ℤ × List UInt8 × Reader :=
  let (rc, r, len) := tcpRead reads 2 r
  if rc ≤ 0 then (rc, [], r)
  else
    let packetLen := (loadBE16 len 0).toNat
    let (rc, r, dst) := tcpRead reads (min packetLen maxLen) r
    if rc ≤ 0 then (rc, dst, r)
    else if maxLen < packetLen then
      -- the rest of the packet is read and thrown away
      (packetLen, dst, (tcpRead reads (packetLen - maxLen) r).2.1)
    else (packetLen, dst, r)

/-- Up to `n` calls of `_network_recv_packet`, before the first that returns zero or less. -/
def recvPackets (reads : ℕ → Option ℕ) : ℕ → Reader → List (ℤ × List UInt8)
  | 0, _ => []
  | n + 1, r =>
      let (rc, dst, r) := networkRecvPacket reads Demux.maxIpPayloadLen r
      if rc ≤ 0 then [] else (rc, dst) :: recvPackets reads n r

section Send

variable (writes : ℕ → Option ℕ)

theorem networkSendPacket_spec (w : Writer) (src : List UInt8) :
    Ends src.length (fun w' => w'.stream = w.stream ++ frame src)
      (fun rc w' => rc = -1 ∧ ¬ NoError writes ∧
        ∃ sent, sent <+: frame src ∧ w'.stream = w.stream ++ sent)
      (networkSendPacket writes w src) := by
  unfold networkSendPacket
  have lengthSent := tcpWrite_spec writes (bytesBE16 (UInt16.ofNat src.length)) w
  generalize tcpWrite writes (bytesBE16 (UInt16.ofNat src.length)) w = sent at lengthSent
  obtain ⟨rc, w₁⟩ := sent
  dsimp only
  rcases lengthSent with ⟨two, stream⟩ | ⟨-, fail, error, sent, begins, stream⟩
  · dsimp only at two stream
    have bodySent := tcpWrite_spec writes src w₁
    generalize tcpWrite writes src w₁ = sent at bodySent
    obtain ⟨rc', w₂⟩ := sent
    rw [if_neg (by omega)]
    rcases bodySent with ⟨whole, stream'⟩ | ⟨-, fail, error, sent, begins, stream'⟩
    · dsimp only at whole stream'
      rw [if_neg (by omega)]
      refine Or.inl ⟨rfl, ?_⟩
      dsimp only
      rw [stream', stream, List.append_assoc, frame]
    · dsimp only at fail stream'
      rw [if_pos (by omega)]
      refine Or.inr ⟨show (-1 : ℤ) ≤ 0 by decide, rfl, error, _,
        (List.prefix_append_right_inj _).2 begins, ?_⟩
      dsimp only
      rw [stream', stream, List.append_assoc]
  · dsimp only at fail stream
    rw [if_pos (by omega)]
    exact Or.inr ⟨show (-1 : ℤ) ≤ 0 by decide, rfl, error, sent,
      begins.trans (List.prefix_append ..), stream⟩

/-- What is sent is the beginning of the packets on the wire, all of it if no call fails. -/
theorem sendPackets_spec (packets : List (List UInt8)) (w : Writer) :
    ∃ sent, (sendPackets writes packets w).stream = w.stream ++ sent ∧
      sent <+: packets.flatMap frame ∧ (NoError writes → sent = packets.flatMap frame) := by
  induction packets generalizing w with
  | nil => exact ⟨[], (List.append_nil _).symm, List.nil_prefix, fun _ => rfl⟩
  | cons packet rest ih =>
      have first := networkSendPacket_spec writes w packet
      rw [sendPackets]
      generalize networkSendPacket writes w packet = result at first
      obtain ⟨rc, w₁⟩ := result
      dsimp only
      rcases first with ⟨whole, stream⟩ | ⟨-, fail, error, sent, begins, stream⟩
      · dsimp only at whole stream
        obtain ⟨sent, stream', begins, all⟩ := ih w₁
        rw [if_neg (by omega)]
        refine ⟨frame packet ++ sent, ?_, ?_, fun fine => ?_⟩
        · rw [stream', stream, List.append_assoc]
        · rw [List.flatMap_cons]
          exact (List.prefix_append_right_inj _).2 begins
        · rw [all fine, List.flatMap_cons]
      · dsimp only at fail stream
        rw [if_pos (by omega)]
        refine ⟨sent, stream, ?_, fun fine => absurd fine error⟩
        rw [List.flatMap_cons]
        exact begins.trans (List.prefix_append ..)

end Send

section Receive

variable (reads : ℕ → Option ℕ)

theorem take_of_append_eq {a t b c : List UInt8} (whole : a ++ t = b ++ c)
    (long : b.length ≤ a.length) : a.take b.length = b ∧ a.drop b.length ++ t = c := by
  have front := congrArg (List.take b.length) whole
  have back := congrArg (List.drop b.length) whole
  rw [List.take_append_of_le_length long, List.take_left] at front
  rw [List.drop_append_of_le_length long, List.drop_left] at back
  exact ⟨front, back⟩

/-- The length in front of the next packet, and what is behind it. -/
theorem length_of_frame {a missing p rest : List UInt8}
    (arrives : a ++ missing = frame p ++ rest) (enough : 2 ≤ a.length)
    (fits : p.length ≤ Demux.maxIpPayloadLen) :
    (loadBE16 (a.take 2) 0).toNat = p.length ∧ a.drop 2 ++ missing = p ++ rest := by
  rw [frame, List.append_assoc] at arrives
  obtain ⟨front, back⟩ := take_of_append_eq arrives enough
  rw [length_bytesBE16] at front back
  refine ⟨?_, back⟩
  have short : p.length ≤ 1500 := fits
  rw [front, ← List.append_nil (bytesBE16 _), loadBE16_bytesBE16, UInt16.toNat_ofNat']
  omega

/-- A call returns the next packet of the stream, of which `missing` does not arrive, or zero or
less. -/
theorem networkRecvPacket_spec {r : Reader} {packets : List (List UInt8)} {missing : List UInt8}
    (sizes : ∀ p ∈ packets, 1 ≤ p.length ∧ p.length ≤ Demux.maxIpPayloadLen)
    (arrives : r.stream ++ missing = packets.flatMap frame) {rc : ℤ} {dst : List UInt8} {r' : Reader}
    (call : networkRecvPacket reads Demux.maxIpPayloadLen r = (rc, dst, r')) :
    (∃ p rest, packets = p :: rest ∧ rc = p.length ∧ dst = p ∧
      r'.stream ++ missing = rest.flatMap frame) ∨
    (rc ≤ 0 ∧ (NoError reads → missing = [] → packets = [])) := by
  have lengthRead := tcpRead_spec reads 2 r
  unfold networkRecvPacket at call
  generalize tcpRead reads 2 r = result at lengthRead call
  obtain ⟨rc₁, r₁, len⟩ := result
  dsimp only at lengthRead call
  rcases lengthRead with ⟨two, enough, got, left⟩ | ⟨stop, short⟩
  · dsimp only at two enough got left
    rw [if_neg (by omega)] at call
    cases packets with
    | nil =>
        rw [List.append_eq_nil_iff.1 arrives |>.1] at enough
        exact absurd enough (by decide)
    | cons p rest =>
        obtain ⟨nonempty, fits⟩ := sizes p (List.mem_cons_self ..)
        rw [List.flatMap_cons] at arrives
        obtain ⟨packetLen, back⟩ := length_of_frame arrives enough fits
        rw [← got] at packetLen
        rw [← left] at back
        rw [packetLen, min_eq_left fits] at call
        have bodyRead := tcpRead_spec reads p.length r₁
        generalize tcpRead reads p.length r₁ = result at bodyRead call
        obtain ⟨rc₂, r₂, body⟩ := result
        dsimp only at bodyRead call
        rcases bodyRead with ⟨whole, enough', got', left'⟩ | ⟨stop, short⟩
        · dsimp only at whole enough' got' left'
          rw [if_neg (by omega), if_neg (by omega)] at call
          cases call
          obtain ⟨front', back'⟩ := take_of_append_eq back enough'
          exact Or.inl ⟨p, rest, rfl, rfl, got'.trans front', by rw [left']; exact back'⟩
        · dsimp only at stop short
          rw [if_pos stop] at call
          cases call
          refine Or.inr ⟨stop, fun fine all => ?_⟩
          rw [all, List.append_nil] at back
          have few := (short fine).2.1
          rw [back, List.length_append] at few
          omega
  · dsimp only at stop short
    rw [if_pos stop] at call
    cases call
    refine Or.inr ⟨stop, fun fine all => ?_⟩
    cases packets with
    | nil => rfl
    | cons p rest =>
        rw [all, List.append_nil] at arrives
        have few := (short fine).2.1
        rw [arrives, List.flatMap_cons, frame, List.length_append, List.length_append,
          length_bytesBE16] at few
        omega

/-- What a packet comes out as: its length and its bytes. -/
def received (packet : List UInt8) : ℤ × List UInt8 := (packet.length, packet)

/-- The packets received are the first of those on the wire, and as many as there are calls and packets
if all bytes arrive and no call fails. -/
theorem recvPackets_of_stream (n : ℕ) {r : Reader} {packets : List (List UInt8)}
    {missing : List UInt8}
    (sizes : ∀ p ∈ packets, 1 ≤ p.length ∧ p.length ≤ Demux.maxIpPayloadLen)
    (arrives : r.stream ++ missing = packets.flatMap frame) :
    recvPackets reads n r <+: packets.map received ∧
      (NoError reads → missing = [] → recvPackets reads n r = (packets.map received).take n) := by
  induction n generalizing r packets with
  | zero => exact ⟨List.nil_prefix, fun _ _ => rfl⟩
  | succ n ih =>
      rw [recvPackets]
      rcases call : networkRecvPacket reads Demux.maxIpPayloadLen r with ⟨rc, dst, r'⟩
      dsimp only
      rcases networkRecvPacket_spec reads sizes arrives call with
        ⟨p, rest, rfl, rfl, same, arrives'⟩ | ⟨stop, none⟩
      · obtain ⟨nonempty, -⟩ := sizes p (List.mem_cons_self ..)
        rw [same]
        obtain ⟨begins, all⟩ := ih (fun q mem => sizes q (List.mem_cons_of_mem _ mem)) arrives'
        rw [if_neg (by omega), List.map_cons]
        refine ⟨List.cons_prefix_cons.2 ⟨rfl, begins⟩, fun fine whole => ?_⟩
        rw [all fine whole]
        rfl
      · rw [if_pos stop]
        refine ⟨List.nil_prefix, fun fine whole => ?_⟩
        rw [none fine whole]
        rfl

end Receive

/-- Packets come out of the connection as they went in, however `read` and `write` cut the stream. If
it ends early, or a call fails, the packets that came out are the first of those that went in. -/
theorem recvPackets_spec (reads writes : ℕ → Option ℕ) {packets : List (List UInt8)}
    (sizes : ∀ p ∈ packets, 1 ≤ p.length ∧ p.length ≤ 1500) (n : ℕ) :
    (NoError writes → NoError reads →
      recvPackets reads n ⟨(sendPackets writes packets ⟨[], 0⟩).stream, 0⟩ =
        (packets.map received).take n) ∧
    ∀ arrived, arrived <+: (sendPackets writes packets ⟨[], 0⟩).stream →
      recvPackets reads n ⟨arrived, 0⟩ <+: packets.map received := by
  obtain ⟨sent, stream, begins, all⟩ := sendPackets_spec writes packets ⟨[], 0⟩
  rw [List.nil_append] at stream
  rw [stream]
  constructor
  · intro fineWrites fineReads
    rw [all fineWrites]
    exact (recvPackets_of_stream reads n sizes (List.append_nil _)).2 fineReads rfl
  · intro arrived cut
    obtain ⟨missing, arrives⟩ := cut.trans begins
    exact (recvPackets_of_stream reads n sizes arrives).1

theorem recvPackets_spec_two :
    recvPackets (fun _ => some 0) 3
      ⟨(sendPackets (fun _ => some 1) [[1, 2, 3], [4]] ⟨[], 0⟩).stream, 0⟩ =
      [(3, [1, 2, 3]), (1, [4])] :=
  (recvPackets_spec (fun _ => some 0) (fun _ => some 1) (by decide) 3).1 (fun _ => rfl) fun _ => rfl

/-! ## The receive thread of a listening mysocket -/

theorem tcpRead_noError {reads : ℕ → Option ℕ} (fine : NoError reads) (count : ℕ) (r : Reader) :
    ((tcpRead reads count r).1, (tcpRead reads count r).2.2, (tcpRead reads count r).2.1.stream) =
      Demux.tcpIo r.stream count := by
  rcases tcpRead_spec reads count r with ⟨whole, enough, got, left⟩ | ⟨-, short⟩
  · rw [Demux.tcpIo_enough enough, whole, got, left]
  · obtain ⟨zero, few, got, left⟩ := short fine
    rw [Demux.tcpIo_short (Nat.not_le.2 few), zero, got, left]

/-- The thread reads its first packet from an accepted connection as any other packet is read. -/
theorem networkRecvPacket_listening {reads : ℕ → Option ℕ} (fine : NoError reads) {p : Demux.Peer}
    (accepted : 0 ≤ p.socket) {rc : ℤ} {dst : List UInt8} {r : Reader}
    (call : networkRecvPacket reads Demux.maxIpPayloadLen ⟨p.sent, 0⟩ = (rc, dst, r)) :
    Demux.networkRecvPacket (-1) p =
      .ok { bytesRead := rc, packetBuf := if rc ≤ 0 then [] else dst, newSocket := p.socket } := by
  unfold networkRecvPacket at call
  unfold Demux.networkRecvPacket
  rw [if_neg (by omega), if_neg (not_not_intro rfl)]
  have lengthRead := tcpRead_noError fine 2 ⟨p.sent, 0⟩
  generalize tcpRead reads 2 ⟨p.sent, 0⟩ = result at lengthRead call
  obtain ⟨rc₁, r₁, len⟩ := result
  rw [← lengthRead]
  dsimp only at call ⊢
  by_cases stop : rc₁ ≤ 0
  · rw [if_pos stop] at call ⊢
    cases call
    rw [if_pos stop]
  · rw [if_neg stop] at call ⊢
    have bodyRead := tcpRead_noError fine
      (min (loadBE16 len 0).toNat Demux.maxIpPayloadLen) r₁
    generalize tcpRead reads (min (loadBE16 len 0).toNat Demux.maxIpPayloadLen) r₁ = result
      at bodyRead call
    obtain ⟨rc₂, r₂, body⟩ := result
    rw [← bodyRead]
    dsimp only at call ⊢
    by_cases stop' : rc₂ ≤ 0
    · rw [if_pos stop'] at call ⊢
      cases call
      rw [if_pos stop']
    · rw [if_neg stop'] at call ⊢
      have moved : rc₂ = 0 ∨ rc₂ = (min (loadBE16 len 0).toNat Demux.maxIpPayloadLen : ℕ) := by
        have count := congrArg Prod.fst bodyRead
        unfold Demux.tcpIo at count
        split_ifs at count
        · exact Or.inr count
        · exact Or.inl count
      have nonempty : ¬ (((loadBE16 len 0).toNat : ℕ) : ℤ) ≤ 0 := by omega
      split_ifs at call
      · cases call
        rw [if_neg nonempty]
      · cases call
        rw [if_neg nonempty]

end ComputerNetwork.Tcp.Framing
