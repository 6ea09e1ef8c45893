import VgiRpc.Socket.ProxyProtocol

/-!
# Reading the preamble of a connection

The preamble is read off the socket before anything else.  How its bytes arrive is up to the
network: in pieces of any size, with the first bytes of the calls behind them.
-/

namespace VgiRpc.Socket

open VgiRpc.Cpp VgiRpc.Lib

/-! ## The code -/

/-- What a `poll` and the `recv` behind it meet. -/
inductive Arrival where
  /-- These bytes are there; none at all is the end of the stream. -/
  | bytes (chunk : Bytes)
  /-- `EINTR`, from either. -/
  | interrupted
  /-- The deadline has passed. -/
  | timedOut
  | pollFailed
  | recvFailed
  deriving DecidableEq

/-- `read_exact_until`: as many bytes as asked for, and what is there behind them.  `recv` takes no
more than it is asked for.  When nothing arrives any more the deadline passes. -/
def readExactUntil : Nat → List Arrival → Parsed Bytes × List Arrival
  | 0, arrivals => (.ok [], arrivals)
  | _ + 1, [] => (.error .timedOut, [])
  | _ + 1, .timedOut :: rest => (.error .timedOut, rest)
  | _ + 1, .pollFailed :: rest => (.error .cannotRead, rest)
  | _ + 1, .recvFailed :: rest => (.error .truncated, rest)
  | count + 1, .interrupted :: rest => readExactUntil (count + 1) rest
  | _ + 1, .bytes [] :: rest => (.error .truncated, rest)
  | count + 1, .bytes (byte :: chunk) :: rest =>
      if chunk.length ≤ count then
        match readExactUntil (count - chunk.length) rest with
        | (.ok more, left) => (.ok (byte :: (chunk ++ more)), left)
        | (.error error, left) => (.error error, left)
      else
        (.ok (byte :: chunk.take count), .bytes (chunk.drop count) :: rest)

/-- `read_proxy_protocol_v2`. -/
def readProxyProtocolV2 (maximumBytes : Nat) (allowIrohIdentity : Bool) (arrivals : List Arrival) :
    Parsed ProxyProtocolV2Address × List Arrival :=
  match readExactUntil kFixedBytes arrivals with
  | (.error error, left) => (.error error, left)
  | (.ok fixed, left) =>
      match proxyProtocolV2Size fixed maximumBytes with
      | .error error => (.error error, left)
      | .ok total =>
          match readExactUntil (total - kFixedBytes) left with
          | (.error error, left) => (.error error, left)
          | (.ok rest, left) =>
              (parseProxyProtocolV2 (fixed ++ rest) maximumBytes allowIrohIdentity, left)

/-! ## Streams -/

/-- The bytes that an arrival brings. -/
def Arrival.carried : Arrival → Bytes
  | .bytes chunk => chunk
  | .interrupted | .timedOut | .pollFailed | .recvFailed => []

/-- The bytes of a stream that are still to be read. -/
def stream (arrivals : List Arrival) : Bytes := arrivals.flatMap Arrival.carried

/-- A piece of the stream, or a signal. -/
def Arrival.Harmless : Arrival → Prop
  | .bytes chunk => chunk ≠ []
  | .interrupted => True
  | .timedOut | .pollFailed | .recvFailed => False

/-- A segmentation of a stream into what `recv` finds. -/
def Segmentation (arrivals : List Arrival) : Prop := ∀ arrival ∈ arrivals, arrival.Harmless

@[simp] theorem stream_cons (arrival : Arrival) (rest : List Arrival) :
    stream (arrival :: rest) = arrival.carried ++ stream rest :=
  List.flatMap_cons

section Reads

variable {count : Nat} {arrivals left : List Arrival} {bytes : Bytes}

/-- What is read is the front of the stream, and the rest of the stream is left. -/
theorem readExactUntil_ok (reads : readExactUntil count arrivals = (.ok bytes, left)) :
    bytes.length = count ∧ stream arrivals = bytes ++ stream left := by
  fun_induction readExactUntil count arrivals generalizing bytes with
  | case1 arrivals =>
      obtain ⟨rfl, rfl⟩ := Prod.mk.inj reads |>.imp_left Except.ok.inj
      exact ⟨rfl, rfl⟩
  | case6 count rest inductionHypothesis => exact inductionHypothesis reads
  | case8 count byte chunk rest fits more other same inductionHypothesis =>
      obtain ⟨rfl, rfl⟩ := Prod.mk.inj reads |>.imp_left Except.ok.inj
      obtain ⟨size, split⟩ := inductionHypothesis same
      constructor
      · rw [List.length_cons, List.length_append, size]
        omega
      · rw [stream_cons, split, Arrival.carried, List.cons_append, List.cons_append,
          List.append_assoc]
  | case9 => cases (Prod.mk.inj reads).1
  | case10 count byte chunk rest large =>
      obtain ⟨rfl, rfl⟩ := Prod.mk.inj reads |>.imp_left Except.ok.inj
      constructor
      · rw [List.length_cons, List.length_take_of_le (by omega)]
      · rw [stream_cons, stream_cons, Arrival.carried, Arrival.carried, List.cons_append,
          List.cons_append, ← List.append_assoc, List.take_append_drop]
  | _ => cases (Prod.mk.inj reads).1

/-- A stream that is long enough is read however it is cut. -/
theorem readExactUntil_segmentation (segments : Segmentation arrivals)
    (enough : count ≤ (stream arrivals).length) :
    ∃ bytes left, readExactUntil count arrivals = (.ok bytes, left) ∧ Segmentation left := by
  fun_induction readExactUntil count arrivals with
  | case1 arrivals => exact ⟨[], arrivals, rfl, segments⟩
  | case2 => cases enough
  | case6 count rest inductionHypothesis =>
      rw [Segmentation, List.forall_mem_cons] at segments
      exact inductionHypothesis segments.2 enough
  | case7 =>
      rw [Segmentation, List.forall_mem_cons] at segments
      exact absurd rfl segments.1
  | case8 count byte chunk rest fits more other same inductionHypothesis =>
      rw [Segmentation, List.forall_mem_cons] at segments
      rw [stream_cons, List.length_append, Arrival.carried, List.length_cons] at enough
      obtain ⟨bytes, left, reads, cut⟩ := inductionHypothesis segments.2 (by omega)
      obtain ⟨-, rfl⟩ := Prod.mk.inj (same.symm.trans reads)
      exact ⟨_, _, rfl, cut⟩
  | case9 count byte chunk rest fits error other same inductionHypothesis =>
      rw [Segmentation, List.forall_mem_cons] at segments
      rw [stream_cons, List.length_append, Arrival.carried, List.length_cons] at enough
      obtain ⟨bytes, left, reads, -⟩ := inductionHypothesis segments.2 (by omega)
      cases (Prod.mk.inj (same.symm.trans reads)).1
  | case10 count byte chunk rest large =>
      rw [Segmentation, List.forall_mem_cons] at segments
      refine ⟨_, _, rfl, ?_⟩
      rw [Segmentation, List.forall_mem_cons]
      refine ⟨?_, segments.2⟩
      rw [Arrival.Harmless, Ne, List.drop_eq_nil_iff]
      exact large
  | _ =>
      rw [Segmentation, List.forall_mem_cons] at segments
      exact segments.1.elim

theorem proxyProtocolV2Size_total {fixed : Bytes} {maximumBytes total : Nat}
    (accepted : proxyProtocolV2Size fixed maximumBytes = .ok total) :
    fixed.length = kFixedBytes ∧ total = kFixedBytes + networkU16 (fixed.drop 14) := by
  simp only [proxyProtocolV2Size, bind_eq_ok_iff, refuseIf_ok, not_not, ne_eq, exists_const,
    Except.ok.injEq] at accepted
  obtain ⟨size, -, -, -, total⟩ := accepted
  exact ⟨size, total.symm⟩

variable {maximumBytes : Nat} {allowIrohIdentity : Bool}

/-- A preamble that is accepted is read to its end, and no further. -/
theorem readProxyProtocolV2_ok {address : ProxyProtocolV2Address}
    (reads : readProxyProtocolV2 maximumBytes allowIrohIdentity arrivals = (.ok address, left)) :
    ∃ preamble, stream arrivals = preamble ++ stream left ∧
      preamble.length = 16 + networkU16 (preamble.drop 14) ∧
      parseProxyProtocolV2 preamble maximumBytes allowIrohIdentity = .ok address := by
  rw [readProxyProtocolV2] at reads
  split at reads
  · cases (Prod.mk.inj reads).1
  · next fixed middle first =>
      obtain ⟨-, front⟩ := readExactUntil_ok first
      split at reads
      · cases (Prod.mk.inj reads).1
      · next total accepted =>
          obtain ⟨size, rfl⟩ := proxyProtocolV2Size_total accepted
          split at reads
          · cases (Prod.mk.inj reads).1
          · next rest behind second =>
              obtain ⟨length, split⟩ := readExactUntil_ok second
              obtain ⟨parses, rfl⟩ := Prod.mk.inj reads
              rw [Nat.add_sub_cancel_left] at length
              refine ⟨fixed ++ rest, ?_, ?_, parses⟩
              · rw [front, split, List.append_assoc]
              · obtain ⟨high, low, number⟩ := take_two (fixed.drop 14) (by
                  rw [List.length_drop, size]
                  decide)
                have same : networkU16 ((fixed ++ rest).drop 14) = networkU16 (fixed.drop 14) := by
                  rw [List.drop_append_of_le_length (by rw [size]; decide), number]
                  rfl
                rw [List.length_append, size, length, same]
                rfl

/-- However the stream is cut, exactly the announced bytes are taken and given to the parser. -/
theorem readProxyProtocolV2_segmentation {total : Nat} (segments : Segmentation arrivals)
    (accepted : proxyProtocolV2Size ((stream arrivals).take 16) maximumBytes = .ok total)
    (enough : total ≤ (stream arrivals).length) :
    ∃ left, readProxyProtocolV2 maximumBytes allowIrohIdentity arrivals =
        (parseProxyProtocolV2 ((stream arrivals).take total) maximumBytes allowIrohIdentity, left) ∧
      stream left = (stream arrivals).drop total ∧ Segmentation left := by
  obtain ⟨-, total_eq⟩ := proxyProtocolV2Size_total accepted
  have long : kFixedBytes ≤ (stream arrivals).length := by omega
  obtain ⟨fixed, middle, first, cut⟩ := readExactUntil_segmentation segments long
  obtain ⟨size, front⟩ := readExactUntil_ok first
  have taken : (stream arrivals).take 16 = fixed := by
    rw [front]
    exact List.take_left' size
  have rest : total - kFixedBytes ≤ (stream middle).length := by
    have lengths := congrArg List.length front
    rw [List.length_append, size] at lengths
    omega
  obtain ⟨body, left, second, cutToo⟩ := readExactUntil_segmentation cut rest
  obtain ⟨length, split⟩ := readExactUntil_ok second
  have whole : (fixed ++ body).length = total := by
    rw [List.length_append, size, length]
    omega
  have joined : stream arrivals = (fixed ++ body) ++ stream left := by
    rw [front, split, List.append_assoc]
  refine ⟨left, ?_, ?_, cutToo⟩
  · rw [readProxyProtocolV2, first]
    dsimp only
    rw [← taken, accepted]
    dsimp only
    rw [second]
    dsimp only
    rw [taken, joined, List.take_left' whole]
  · rw [joined, List.drop_left' whole]

end Reads

/-- The parser accepts exactly its grammar; a connection that is let in has given up exactly its
preamble; and no cut of the stream makes a difference: exactly the announced bytes are taken, and
what is behind them is left to the reader of the calls. -/
theorem proxyProtocolV2_exact (maximumBytes : Nat) (allowIrohIdentity : Bool) :
    (∀ bytes result, parseProxyProtocolV2 bytes maximumBytes allowIrohIdentity = .ok result ↔
      ∃ (preamble : Preamble) (irohEndpointId : Option Bytes), bytes = preamble.encode ∧
        bytes.length ≤ maximumBytes ∧ preamble.Carries allowIrohIdentity irohEndpointId ∧
        result = preamble.addresses.result irohEndpointId) ∧
    (∀ arrivals address left,
      readProxyProtocolV2 maximumBytes allowIrohIdentity arrivals = (.ok address, left) →
      ∃ preamble, stream arrivals = preamble ++ stream left ∧
        preamble.length = 16 + networkU16 (preamble.drop 14) ∧
        parseProxyProtocolV2 preamble maximumBytes allowIrohIdentity = .ok address) ∧
    (∀ arrivals total, Segmentation arrivals →
      proxyProtocolV2Size ((stream arrivals).take 16) maximumBytes = .ok total →
      total ≤ (stream arrivals).length →
      ∃ left, readProxyProtocolV2 maximumBytes allowIrohIdentity arrivals =
          (parseProxyProtocolV2 ((stream arrivals).take total) maximumBytes allowIrohIdentity, left) ∧
        stream left = (stream arrivals).drop total ∧ Segmentation left) := by
  refine ⟨fun bytes result => parseProxyProtocolV2_ok, fun arrivals address left =>
    readProxyProtocolV2_ok, fun arrivals total => readProxyProtocolV2_segmentation⟩

/-- An IPv4 connection whose preamble comes in two pieces, the second with the first two bytes of a
call. -/
def twoPieces : List Arrival :=
  [.bytes (kSignature ++ [0x21, 0x11]), .interrupted,
    .bytes ([0x00, 0x0c, 192, 0, 2, 1, 198, 51, 100, 7, 0x30, 0x39, 0x24, 0xb8] ++ [0xff, 0xff])]

theorem twoPieces_read : ∃ left, readProxyProtocolV2 536 false twoPieces =
      (parseProxyProtocolV2 ((stream twoPieces).take 28) 536 false, left) ∧
    stream left = [0xff, 0xff] ∧ Segmentation left := by
  have segments : Segmentation twoPieces := by
    simp [Segmentation, twoPieces, Arrival.Harmless, kSignature]
  exact (proxyProtocolV2_exact 536 false).2.2 twoPieces 28 segments (by decide) (by decide)

end VgiRpc.Socket
