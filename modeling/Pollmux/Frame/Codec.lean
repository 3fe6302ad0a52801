import Mathlib.Data.UInt
import Pollmux.Frame

/-!
# The frame codec over any split of reads

A response body arrives in pieces that have nothing to do with frames. A `Source`
is a body as a sequence of reads: each `Read` returns the next piece, or as much
of it as its buffer holds, a piece may be empty, and the end of the body is
reported by a read of its own or together with the last bytes. `fill` is the loop
of `io.ReadFull` over such reads, and `nextFrom` is `frameReader.next` on top of
it.

How the body is split does not matter: `nextFrom_bytes` says that `nextFrom`
answers what `next` answers on the bytes put together, and leaves those bytes.
So a round trip through any split is a round trip through `next`, and the
converse (`next_consumes`) needs no split either: what a successful call took
from the body are the bytes `writeFrame` would write for the frame it returned.
-/

namespace Pollmux

open Kit

/-- A body as its reads: what each of them returns, and whether the last bytes come with
`io.EOF` or before it. -/
structure Source where
  reads : List Bytes
  eofWithLast : Bool
  deriving DecidableEq, Repr

namespace Source

/-- The bytes of a body. -/
def bytes (s : Source) : Bytes := s.reads.flatten

/-- The loop of `io.ReadFull`: read until `n` more bytes have come or a read reports the end.
Answers the bytes read, whether the end was reported and the reads left. -/
def fill (eofWithLast : Bool) : Nat → Bytes → List Bytes → Bytes × Bool × List Bytes
  | 0, got, reads => (got, false, reads)
  | _ + 1, got, [] => (got, true, [])
  | n + 1, got, piece :: reads =>
    if piece.length ≤ n + 1 then
      if eofWithLast = true ∧ reads = [] then (got ++ piece, true, [])
      else fill eofWithLast (n + 1 - piece.length) (got ++ piece) reads
    else (got ++ piece.take (n + 1), false, piece.drop (n + 1) :: reads)

/-- `io.ReadFull` of `n` bytes. -/
def readFull (n : Nat) (s : Source) : Except Err (Bytes × Source) :=
  let (got, eof, reads) := fill s.eofWithLast n [] s.reads
  if n ≤ got.length then .ok (got, { s with reads := reads })
  else if got ≠ [] ∧ eof = true then .error .unexpectedEOF
  else .error .eof

/-- What `fill` reads is what the pieces put together begin with, and the end is reported if they
are too short. -/
theorem fill_spec (eofWithLast : Bool) (n : Nat) (got : Bytes) (reads : List Bytes) :
    ∃ eof rest, fill eofWithLast n got reads = (got ++ reads.flatten.take n, eof, rest) ∧
      rest.flatten = reads.flatten.drop n ∧ (reads.flatten.length < n → eof = true) := by
  induction reads generalizing n got with
  | nil =>
    cases n with
    | zero => exact ⟨false, [], by simp [fill], rfl, fun h => absurd h (Nat.not_lt_zero _)⟩
    | succ n => exact ⟨true, [], by simp [fill], rfl, fun _ => rfl⟩
  | cons piece reads ih =>
    cases n with
    | zero =>
      exact ⟨false, piece :: reads, by simp [fill], rfl, fun h => absurd h (Nat.not_lt_zero _)⟩
    | succ n =>
      rw [List.flatten_cons, fill]
      by_cases hfit : piece.length ≤ n + 1
      · rw [if_pos hfit, List.take_append, List.take_of_length_le hfit, List.drop_append,
          List.drop_eq_nil_of_le hfit, List.nil_append]
        by_cases hend : eofWithLast = true ∧ reads = []
        · refine ⟨true, [], ?_, ?_, fun _ => rfl⟩
          · rw [if_pos hend, hend.2, List.flatten_nil, List.take_nil, List.append_nil]
          · rw [hend.2, List.flatten_nil, List.drop_nil]
        · obtain ⟨eof, rest, hfill, hrest, heof⟩ := ih (n + 1 - piece.length) (got ++ piece)
          refine ⟨eof, rest, ?_, hrest, ?_⟩
          · rw [if_neg hend, hfill, List.append_assoc]
          · intro hshort
            apply heof
            rw [List.length_append] at hshort
            omega
      · refine ⟨false, piece.drop (n + 1) :: reads, ?_, ?_, ?_⟩
        · rw [if_neg hfit, List.take_append_of_le_length (by omega)]
        · rw [List.flatten_cons, List.drop_append_of_le_length (by omega)]
        · intro hshort
          rw [List.length_append] at hshort
          omega

/-- **`io.ReadFull` does not see how a body is split.** -/
theorem readFull_bytes (n : Nat) (s : Source) :
    (s.readFull n).map (fun res => (res.1, res.2.bytes)) = Pollmux.readFull n s.bytes := by
  obtain ⟨eof, rest, hfill, hrest, heof⟩ := fill_spec s.eofWithLast n [] s.reads
  rw [List.nil_append] at hfill
  simp only [readFull, hfill, Pollmux.readFull]
  by_cases hlen : n ≤ s.bytes.length
  · have htake : n ≤ (s.reads.flatten.take n).length := by
      rw [List.length_take]
      exact Nat.le_min.mpr ⟨Nat.le_refl _, hlen⟩
    rw [if_pos htake, if_pos hlen]
    simp only [Except.map, bytes, hrest]
  · have hshort : s.reads.flatten.length < n := Nat.lt_of_not_le hlen
    have hall : s.reads.flatten.take n = s.bytes := List.take_of_length_le (Nat.le_of_lt hshort)
    rw [hall, if_neg hlen, if_neg hlen, heof hshort]
    by_cases hnil : s.bytes = []
    · rw [if_neg (by rintro ⟨hne, _⟩; exact hne hnil), if_pos hnil]
      rfl
    · rw [if_pos ⟨hnil, rfl⟩, if_neg hnil]
      rfl

end Source

/-- A successful `io.ReadFull` took exactly the bytes asked for. -/
theorem readFull_ok {n : Nat} {r p rest : Bytes} (h : readFull n r = .ok (p, rest)) :
    r = p ++ rest ∧ p.length = n := by
  unfold readFull at h
  split at h
  next hle =>
    cases h
    exact ⟨(List.take_append_drop n r).symm, List.length_take_of_le hle⟩
  next => split at h <;> cases h

/-- `frameReader.next` on a body as it is read. -/
def nextFrom (maxPayload : Int) (s : Source) : Except FrameErr (Frame × Source) :=
  match s.readFull frameHeaderLen with
  | .error e => .error (.io e)
  | .ok (hdr, s) =>
    let typ := hdr.headD 0
    let length := bigEndian (hdr.drop 1)
    if length = 0 then .ok (⟨typ, []⟩, s)
    else if (length : Int) > payloadBound maxPayload typ then
      .error (.tooLong length (payloadBound maxPayload typ))
    else
      match s.readFull length with
      | .error e => .error (.io e)
      | .ok (payload, s) => .ok (⟨typ, payload⟩, s)

/-- `k` calls of `next`, one after the other: the frames they return, or the first error. -/
def nextN (maxPayload : Int) : Nat → Source → Except FrameErr (List Frame × Source)
  | 0, s => .ok ([], s)
  | k + 1, s =>
    match nextFrom maxPayload s with
    | .error e => .error e
    | .ok (f, s) =>
      match nextN maxPayload k s with
      | .error e => .error e
      | .ok (fs, s) => .ok (f :: fs, s)

/-- **`next` does not see how a body is split** either. -/
theorem nextFrom_bytes (maxPayload : Int) (s : Source) :
    (nextFrom maxPayload s).map (fun res => (res.1, res.2.bytes)) = next maxPayload s.bytes := by
  unfold nextFrom next
  have hhdr := s.readFull_bytes frameHeaderLen
  rw [← hhdr]
  cases s.readFull frameHeaderLen with
  | error e => rfl
  | ok res =>
    obtain ⟨hdr, s'⟩ := res
    show Except.map _ (if bigEndian (hdr.drop 1) = 0 then _ else _) =
      if bigEndian (hdr.drop 1) = 0 then _ else _
    by_cases hzero : bigEndian (hdr.drop 1) = 0
    · rw [if_pos hzero, if_pos hzero]
      rfl
    rw [if_neg hzero, if_neg hzero]
    by_cases hbound : (bigEndian (hdr.drop 1) : Int) > payloadBound maxPayload (hdr.headD 0)
    · rw [if_pos hbound, if_pos hbound]
      rfl
    rw [if_neg hbound, if_neg hbound, ← s'.readFull_bytes]
    cases s'.readFull (bigEndian (hdr.drop 1)) with
    | error e => rfl
    | ok res => rfl

/-- A frame that `next` finds in the bytes put together, `nextFrom` finds in the reads. -/
theorem nextFrom_ok {maxPayload : Int} {s : Source} {f : Frame} {rest : Bytes}
    (h : next maxPayload s.bytes = .ok (f, rest)) :
    ∃ s', nextFrom maxPayload s = .ok (f, s') ∧ s'.bytes = rest := by
  rw [← nextFrom_bytes] at h
  cases hn : nextFrom maxPayload s with
  | error e =>
    rw [hn] at h
    cases h
  | ok res =>
    rw [hn] at h
    cases h
    exact ⟨res.2, rfl, rfl⟩

/-- At the end of the body `next` answers `io.EOF`. -/
theorem nextFrom_eof {maxPayload : Int} {s : Source} (h : s.bytes = []) :
    nextFrom maxPayload s = .error (.io .eof) := by
  have hb := nextFrom_bytes maxPayload s
  have hnil : next maxPayload [] = .error (.io .eof) := rfl
  rw [h, hnil] at hb
  cases hn : nextFrom maxPayload s with
  | error e =>
    rw [hn] at hb
    cases hb
    rfl
  | ok res =>
    rw [hn] at hb
    cases hb

/-- **What a successful `next` took from the body is what `writeFrame` writes for the frame it
returned**, and the payload is no longer than the bound of its type. -/
theorem next_consumes {maxPayload : Int} {r rest : Bytes} {f : Frame}
    (h : next maxPayload r = .ok (f, rest)) :
    r = writeFrame f.typ f.payload ++ rest ∧
      (f.payload = [] ∨ (f.payload.length : Int) ≤ payloadBound maxPayload f.typ) := by
  unfold next at h
  cases hhdr : readFull frameHeaderLen r with
  | error e =>
    rw [hhdr] at h
    cases h
  | ok res =>
    obtain ⟨hdr, r'⟩ := res
    obtain ⟨hr, hlen⟩ := readFull_ok hhdr
    obtain ⟨typ, len, rfl⟩ : ∃ typ len, hdr = typ :: len := by
      cases hdr with
      | nil => cases hlen
      | cons typ len => exact ⟨typ, len, rfl⟩
    have hlen4 : len.length = 4 := Nat.succ.inj hlen
    have hput : putBigEndian 4 (bigEndian len) = len := hlen4 ▸ (put_bigEndian len).2
    rw [hhdr] at h
    simp only [List.headD_cons, List.drop_succ_cons, List.drop_zero] at h
    split at h
    next hzero =>
      cases h
      refine ⟨?_, .inl rfl⟩
      rw [hr, writeFrame, List.length_nil, ← hzero, hput, List.append_nil]
    next hpos =>
      split at h
      next => cases h
      next hbound =>
        cases hbody : readFull (bigEndian len) r' with
        | error e =>
          rw [hbody] at h
          cases h
        | ok res =>
          rw [hbody] at h
          cases h
          obtain ⟨hr', hplen⟩ := readFull_ok hbody
          refine ⟨?_, .inr ?_⟩
          · rw [hr, hr', writeFrame, hplen, hput, List.append_assoc]
          · rw [hplen]
            exact Int.not_lt.mp hbound

/-! ## Round trips -/

/-- Calls of `next` read back any frames within the bound, one each, however the body is split. -/
theorem nextN_written {maxPayload : Int} {ws : List Written} (hfit : ∀ w ∈ ws, w.Fits maxPayload)
    {s : Source} {tail : Bytes} (hs : s.bytes = ws.flatMap Written.bytes ++ tail) :
    ∃ s', nextN maxPayload ws.length s = .ok (ws.map Written.toFrame, s') ∧ s'.bytes = tail := by
  induction ws generalizing s with
  | nil => exact ⟨s, rfl, hs⟩
  | cons w ws ih =>
    have hnext : next maxPayload s.bytes =
        .ok (w.toFrame, ws.flatMap Written.bytes ++ tail) := by
      rw [hs, List.flatMap_cons, List.append_assoc]
      exact next_written (hfit w (List.mem_cons_self ..)) _
    obtain ⟨t, ht, hbytes⟩ := nextFrom_ok hnext
    obtain ⟨s', hs', htail⟩ := ih (fun w' hw => hfit w' (List.mem_cons_of_mem _ hw)) hbytes
    refine ⟨s', ?_, htail⟩
    rw [List.length_cons, nextN, ht]
    simp only [hs', List.map_cons]

/-- One frame as the code sends it: of a type with a free payload, an acknowledgement, or data at
an offset. -/
inductive Packet
  | plain (typ : FrameType) (payload : Bytes)
  | ack (off : UInt64)
  | seqData (off : UInt64) (data : Bytes)
  deriving DecidableEq, Repr

namespace Packet

/-- The call that writes it to a stream. -/
def written : Packet → Written
  | .plain typ payload => .frame typ payload
  | .ack off => .frame frameAck (encodeOffset off.toNat)
  | .seqData off data => .seq off.toNat data

/-- The WebSocket message that carries it. -/
def message : Packet → Bytes
  | .plain typ payload => wsEncode typ payload
  | .ack off => wsEncode frameAck (encodeOffset off.toNat)
  | .seqData off data => wsEncodeSeq off.toNat data

/-- The type and payload a reader gets. -/
def frame (p : Packet) : Frame := p.written.toFrame

/-- The format: a free payload has no type of its own kind, and it and the data are at most
`maxPayload` bytes. -/
def Within (maxPayload : Int) : Packet → Prop
  | .plain typ payload =>
    typ ≠ frameAck ∧ typ ≠ frameSeqData ∧ (payload.length : Int) ≤ maxPayload
  | .ack _ => True
  | .seqData _ data => (data.length : Int) ≤ maxPayload

instance (maxPayload : Int) : DecidablePred (Within maxPayload)
  | .plain _ _ => inferInstanceAs (Decidable (_ ∧ _))
  | .ack _ => inferInstanceAs (Decidable True)
  | .seqData _ _ => inferInstanceAs (Decidable (_ ≤ _))

/-- Whatever has the format is within the reader's bounds, the longest data frame at exactly its
bound. -/
theorem Within.fits {maxPayload : Int} {p : Packet} (h : p.Within maxPayload)
    (hmax : maxPayload + 8 < 2 ^ 32) : p.written.Fits maxPayload := by
  cases p with
  | plain typ payload =>
    obtain ⟨hack, hseq, hlen⟩ := h
    refine ⟨?_, .inr ?_⟩
    · show payload.length < 2 ^ 32
      omega
    · show (payload.length : Int) ≤ payloadBound maxPayload typ
      rw [payloadBound, if_neg hseq, if_neg hack]
      exact hlen
  | ack off =>
    have hlen : (encodeOffset off.toNat).length = 8 := length_putBigEndian _ _
    refine ⟨?_, .inr ?_⟩
    · show (encodeOffset off.toNat).length < 2 ^ 32
      rw [hlen]
      decide
    · show ((encodeOffset off.toNat).length : Int) ≤ payloadBound maxPayload frameAck
      rw [hlen]
      exact Int.le_refl _
  | seqData off data =>
    have hdata : (data.length : Int) ≤ maxPayload := h
    have hlen : (encodeOffset off.toNat ++ data).length = 8 + data.length := by
      rw [List.length_append, encodeOffset, length_putBigEndian, seqHeaderLen]
    have hbound : payloadBound maxPayload frameSeqData = maxPayload + 8 := by
      rw [payloadBound, if_pos rfl]
      exact int64_of_lt (by simp only [seqHeaderLen]; omega) (by simp only [seqHeaderLen]; omega)
    refine ⟨?_, .inr ?_⟩
    · show (encodeOffset off.toNat ++ data).length < 2 ^ 32
      omega
    · show ((encodeOffset off.toNat ++ data).length : Int) ≤ payloadBound maxPayload frameSeqData
      rw [hbound, hlen]
      omega

/-- A message decodes to the frame that the stream framing gives. -/
theorem wsDecode_message (p : Packet) : wsDecode p.message = .ok p.frame := by
  cases p <;> rfl

theorem decodeAck_ack (off : UInt64) : decodeAck (ack off).frame.payload = .ok off.toNat := by
  show decodeAck (encodeOffset off.toNat) = _
  have hlt : off.toNat < 256 ^ seqHeaderLen := off.toNat_lt
  rw [decodeAck, if_neg (by rw [encodeOffset, length_putBigEndian]; decide), encodeOffset,
    bigEndian_put_of_lt hlt]

theorem splitSeq_seqData (off : UInt64) (data : Bytes) :
    splitSeq (seqData off data).frame.payload = .ok (off.toNat, data) := by
  show splitSeq (encodeOffset off.toNat ++ data) = _
  have hlt : off.toNat < 256 ^ seqHeaderLen := off.toNat_lt
  have hlen : (encodeOffset off.toNat).length = seqHeaderLen := length_putBigEndian _ _
  rw [splitSeq, if_neg (by rw [List.length_append, hlen]; omega), List.take_left' hlen,
    List.drop_left' hlen, encodeOffset, bigEndian_put_of_lt hlt]

end Packet

/-- The longest payload of a type: an offset more than the negotiated bound for sequenced data,
one offset for an acknowledgement. A negative bound leaves room for nothing. -/
def longestPayload (maxPayload : Int) (typ : FrameType) : Nat :=
  if typ = frameSeqData then (maxPayload + 8).toNat
  else if typ = frameAck then 8
  else maxPayload.toNat

/-- **The codec over the whole format.** However a body is split into reads, calls of `next` return
exactly the frames written and then `io.EOF`; offsets and data are recovered; a WebSocket message
decodes to the same frame. And from any body at all, a call that succeeds takes exactly the bytes
`writeFrame` would write for what it returns, with a payload no longer than its type allows. -/
theorem codec_roundtrip (maxPayload : Int64) (hmax : maxPayload.toInt + 8 < 2 ^ 32)
    (ps : List Packet) (hps : ∀ p ∈ ps, p.Within maxPayload.toInt) (s : Source)
    (hs : s.bytes = ps.flatMap fun p => p.written.bytes) :
    (∃ s', nextN maxPayload.toInt ps.length s = .ok (ps.map Packet.frame, s') ∧
      nextFrom maxPayload.toInt s' = .error (.io .eof)) ∧
    (∀ off, decodeAck (Packet.ack off).frame.payload = .ok off.toNat) ∧
    (∀ off data, splitSeq (Packet.seqData off data).frame.payload = .ok (off.toNat, data)) ∧
    (∀ p : Packet, wsDecode p.message = .ok p.frame) ∧
    (∀ (t t' : Source) (f : Frame), nextFrom maxPayload.toInt t = .ok (f, t') →
      t.bytes = writeFrame f.typ f.payload ++ t'.bytes ∧
        f.payload.length ≤ longestPayload maxPayload.toInt f.typ) := by
  refine ⟨?_, Packet.decodeAck_ack, Packet.splitSeq_seqData, Packet.wsDecode_message, ?_⟩
  · have hfit : ∀ w ∈ ps.map Packet.written, w.Fits maxPayload.toInt := by
      intro w hw
      obtain ⟨p, hp, rfl⟩ := List.mem_map.mp hw
      exact (hps p hp).fits hmax
    have hbytes : s.bytes = (ps.map Packet.written).flatMap Written.bytes ++ [] := by
      rw [hs, List.append_nil, List.flatMap_map]
    obtain ⟨s', hn, hend⟩ := nextN_written hfit hbytes
    rw [List.length_map, List.map_map] at hn
    exact ⟨s', hn, nextFrom_eof hend⟩
  · intro t t' f hn
    have hnext : next maxPayload.toInt t.bytes = .ok (f, t'.bytes) := by
      rw [← nextFrom_bytes, hn]
      rfl
    obtain ⟨hbytes, hlen⟩ := next_consumes hnext
    refine ⟨hbytes, ?_⟩
    rcases hlen with hnil | hle
    · rw [hnil]
      exact Nat.zero_le _
    · have hlo := maxPayload.le_toInt
      unfold payloadBound at hle
      unfold longestPayload
      split at hle
      next hseq =>
        rw [if_pos hseq]
        rw [int64_of_lt (by simp only [seqHeaderLen]; omega)
          (by simp only [seqHeaderLen]; omega)] at hle
        simp only [seqHeaderLen] at hle
        omega
      next hseq =>
        rw [if_neg hseq]
        split at hle
        next hack =>
          rw [if_pos hack]
          exact Int.ofNat_le.mp hle
        next hack =>
          rw [if_neg hack]
          omega

/-- A heartbeat, data as long as a bound of two allows at the last offset, an ack and one byte. -/
def mixedPackets : List Packet :=
  [.plain frameHeartbeat [], .seqData 18446744073709551615 [7, 8], .ack 256, .plain frameData [9]]

/-- Their bytes, cut across headers and payloads, with an empty read among them and the end
reported with the last byte. -/
def mixedSource : Source where
  reads := [[2, 0, 0], [0, 0, 6], [], [0, 0, 0, 10, 255, 255], [255, 255, 255, 255, 255, 255, 7],
    [8, 5], [0, 0, 0, 8, 0, 0, 0, 0, 0, 0, 1, 0, 1, 0], [0, 0, 1, 9]]
  eofWithLast := true

theorem codec_roundtrip_mixed :
    ∃ s', nextN (2 : Int64).toInt mixedPackets.length mixedSource =
        .ok (mixedPackets.map Packet.frame, s') ∧
      nextFrom (2 : Int64).toInt s' = .error (.io .eof) :=
  (codec_roundtrip 2 (by decide) mixedPackets (by decide) mixedSource (by decide)).1

end Pollmux
