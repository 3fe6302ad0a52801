import Pollmux.Kit.BigEndian
import Pollmux.Kit.GoInt
import Pollmux.Pipe

/-!
# Stream frames

The frames of `frame.go`: one type byte, a four-byte big-endian length and the
payload. The messages of `websocket.go` carry the same type byte and payload
without a length. A body is a finite list of bytes, and `io.ReadFull` on it answers as
documented: `io.EOF` if it read nothing, `io.ErrUnexpectedEOF` if it read some of
what was asked. `next` reads one frame and leaves the rest, and `frameLoop` is the
shape every reader of frames has: call `next`, hand the frame on, stop when either
says so. Its fuel is the number of calls it may make; a body of `n` bytes never
needs more than `n + 1`.
-/

namespace Pollmux

open Kit

/-- `frameType`. A reader may meet any byte here. -/
abbrev FrameType := UInt8

def frameData : FrameType := 0x01
def frameHeartbeat : FrameType := 0x02
def frameEnd : FrameType := 0x03
def frameGone : FrameType := 0x04
def frameAck : FrameType := 0x05
def frameSeqData : FrameType := 0x06

/-- `seqHeaderLen`. -/
def seqHeaderLen : Nat := 8

/-- `frameHeaderLen`. -/
def frameHeaderLen : Nat := 5

/-- One frame as a reader returns it. -/
structure Frame where
  typ : FrameType
  payload : Bytes
  deriving DecidableEq, Repr

/-- The errors of the frame layer. -/
inductive FrameErr
  | io (e : Err)
  | tooLong (length : Nat) (max : Int)
  | ackPayload (length : Nat)
  | seqPayload (length : Nat)
  deriving DecidableEq, Repr

/-- The text of an error. -/
def FrameErr.text : FrameErr → String
  | .io e => e.text
  | .tooLong length max =>
    "pollmux: stream frame length " ++ toString length ++ " exceeds max " ++ toString max
  | .ackPayload length =>
    "pollmux: ack frame payload is " ++ toString length ++ " bytes, want " ++ toString seqHeaderLen
  | .seqPayload length =>
    "pollmux: seq-data frame payload is " ++ toString length ++ " bytes, shorter than its " ++
      toString seqHeaderLen ++ "-byte offset"

/-- `writeFrame`: the length field holds the length modulo 2^32. -/
def writeFrame (typ : FrameType) (payload : Bytes) : Bytes :=
  typ :: putBigEndian 4 payload.length ++ payload

/-- `encodeOffset`. -/
def encodeOffset (n : Nat) : Bytes := putBigEndian seqHeaderLen n

/-- `writeSeqFrame`. -/
def writeSeqFrame (off : Nat) (payload : Bytes) : Bytes :=
  frameSeqData :: putBigEndian 4 (seqHeaderLen + payload.length) ++ putBigEndian 8 off ++ payload

/-- `decodeAck`. -/
def decodeAck (payload : Bytes) : Except FrameErr Nat :=
  if payload.length ≠ seqHeaderLen then .error (.ackPayload payload.length)
  else .ok (bigEndian payload)

/-- `splitSeq`. -/
def splitSeq (payload : Bytes) : Except FrameErr (Nat × Bytes) :=
  if payload.length < seqHeaderLen then .error (.seqPayload payload.length)
  else .ok (bigEndian (payload.take seqHeaderLen), payload.drop seqHeaderLen)

/-- `wsEncode`. -/
def wsEncode (typ : FrameType) (payload : Bytes) : Bytes := typ :: payload

/-- `wsEncodeSeq`. -/
def wsEncodeSeq (off : Nat) (payload : Bytes) : Bytes :=
  frameSeqData :: putBigEndian 8 off ++ payload

/-- The one error of `wsDecode`. -/
inductive MessageErr
  | empty
  deriving DecidableEq, Repr

/-- `wsDecode`. -/
def wsDecode : Bytes → Except MessageErr Frame
  | [] => .error .empty
  | typ :: payload => .ok ⟨typ, payload⟩

/-- `io.ReadFull` of `n` bytes from a body that has `r` left. -/
def readFull (n : Nat) (r : Bytes) : Except Err (Bytes × Bytes) :=
  if n ≤ r.length then .ok (r.take n, r.drop n)
  else if r = [] then .error .eof
  else .error .unexpectedEOF

/-- The bound `next` puts on a payload of the given type. -/
def payloadBound (maxPayload : Int) (typ : FrameType) : Int :=
  if typ = frameSeqData then int64 (maxPayload + seqHeaderLen)
  else if typ = frameAck then seqHeaderLen
  else maxPayload

/-- `frameReader.next` on the bytes `r`, with the bytes it leaves. -/
def next (maxPayload : Int) (r : Bytes) : Except FrameErr (Frame × Bytes) :=
  match readFull frameHeaderLen r with
  | .error e => .error (.io e)
  | .ok (hdr, r) =>
    let typ := hdr.headD 0
    let length := bigEndian (hdr.drop 1)
    if length = 0 then .ok (⟨typ, []⟩, r)
    else if (length : Int) > payloadBound maxPayload typ then
      .error (.tooLong length (payloadBound maxPayload typ))
    else
      match readFull length r with
      | .error e => .error (.io e)
      | .ok (payload, r) => .ok (⟨typ, payload⟩, r)

/-- How a frame loop ends: `next` failed, or the code around it returned. -/
inductive LoopEnd (ρ : Type)
  | failed (e : FrameErr)
  | returned (result : ρ)
  deriving DecidableEq, Repr

/-- Call `next` and hand each frame to `handle` until either ends it. `none` is running out of
fuel. -/
def frameLoop {σ ρ : Type} (maxPayload : Int) (handle : σ → Frame → σ × Option ρ) :
    Nat → σ → Bytes → Option (σ × LoopEnd ρ)
  | 0, _, _ => none
  | fuel + 1, s, r =>
    match next maxPayload r with
    | .error e => some (s, .failed e)
    | .ok (f, rest) =>
      match handle s f with
      | (s', some result) => some (s', .returned result)
      | (s', none) => frameLoop maxPayload handle fuel s' rest

/-- A frame loop over a whole body. -/
def readLoop {σ ρ : Type} (maxPayload : Int) (handle : σ → Frame → σ × Option ρ) (s : σ)
    (body : Bytes) : Option (σ × LoopEnd ρ) :=
  frameLoop maxPayload handle (body.length + 1) s body

/-- Call `next` until it fails: the frames it returned and the error it ended with. -/
def readFrames (maxPayload : Int) (body : Bytes) : Option (List Frame × LoopEnd Empty) :=
  readLoop maxPayload (fun fs f => (fs ++ [f], none)) [] body

/-! ## What was written is read back -/

/-- What one call of `writeFrame` or `writeSeqFrame` wrote. -/
inductive Written
  | frame (typ : FrameType) (payload : Bytes)
  | seq (off : Nat) (payload : Bytes)
  deriving DecidableEq, Repr

namespace Written

/-- Its bytes. -/
def bytes : Written → Bytes
  | .frame typ payload => writeFrame typ payload
  | .seq off payload => writeSeqFrame off payload

/-- The frame a reader makes of it. -/
def toFrame : Written → Frame
  | .frame typ payload => ⟨typ, payload⟩
  | .seq off payload => ⟨frameSeqData, encodeOffset off ++ payload⟩

/-- Within the bound of a reader: the length field can hold the length, and the reader accepts
it. An empty payload is not checked. -/
def Fits (maxPayload : Int) (w : Written) : Prop :=
  w.toFrame.payload.length < 2 ^ 32 ∧
    (w.toFrame.payload = [] ∨
      (w.toFrame.payload.length : Int) ≤ payloadBound maxPayload w.toFrame.typ)

instance (maxPayload : Int) (w : Written) : Decidable (w.Fits maxPayload) :=
  inferInstanceAs (Decidable (_ ∧ _))

/-- Both writers write the same shape: a header and the payload. -/
theorem bytes_eq (w : Written) :
    w.bytes = (w.toFrame.typ :: putBigEndian 4 w.toFrame.payload.length) ++ w.toFrame.payload := by
  cases w with
  | frame typ payload => rfl
  | seq off payload =>
    show frameSeqData :: putBigEndian 4 (seqHeaderLen + payload.length) ++ putBigEndian 8 off ++
      payload = _
    simp only [toFrame, encodeOffset, List.length_append, length_putBigEndian, List.append_assoc]
    rfl

@[simp] theorem length_bytes (w : Written) :
    w.bytes.length = frameHeaderLen + w.toFrame.payload.length := by
  rw [bytes_eq, List.length_append, List.length_cons, length_putBigEndian]
  rfl

end Written

theorem readFull_append {n : Nat} {p tail : Bytes} (h : p.length = n) :
    readFull n (p ++ tail) = .ok (p, tail) := by
  subst h
  rw [readFull, if_pos (by rw [List.length_append]; omega), List.take_left, List.drop_left]

theorem readFull_nil {n : Nat} (h : 0 < n) : readFull n [] = .error .eof := by
  rw [readFull, if_neg (by rw [List.length_nil]; omega), if_pos rfl]

theorem readFull_short {n : Nat} {p : Bytes} (hne : p ≠ []) (h : p.length < n) :
    readFull n p = .error .unexpectedEOF := by
  rw [readFull, if_neg (by omega), if_neg hne]

/-- `next` past the header of a frame within the bound: what is left of it decides. -/
theorem next_header {maxPayload : Int} {w : Written} (h : w.Fits maxPayload) (rest : Bytes) :
    next maxPayload ((w.toFrame.typ :: putBigEndian 4 w.toFrame.payload.length) ++ rest) =
      if w.toFrame.payload = [] then .ok (⟨w.toFrame.typ, []⟩, rest)
      else
        match readFull w.toFrame.payload.length rest with
        | .error e => .error (.io e)
        | .ok (payload, r) => .ok (⟨w.toFrame.typ, payload⟩, r) := by
  have hlen : bigEndian (putBigEndian 4 w.toFrame.payload.length) = w.toFrame.payload.length :=
    bigEndian_put_of_lt h.1
  rw [next, readFull_append (by rw [List.length_cons, length_putBigEndian]; rfl)]
  simp only [List.headD_cons, List.drop_succ_cons, List.drop_zero, hlen]
  by_cases hnil : w.toFrame.payload = []
  · rw [if_pos (by rw [hnil]; rfl), if_pos hnil]
  · rw [if_neg (by rw [List.length_eq_zero_iff]; exact hnil), if_neg hnil,
      if_neg (Int.not_lt.mpr (h.2.resolve_left hnil))]

/-- **`next` reads back what was written** and leaves what follows. -/
theorem next_written {maxPayload : Int} {w : Written} (h : w.Fits maxPayload) (tail : Bytes) :
    next maxPayload (w.bytes ++ tail) = .ok (w.toFrame, tail) := by
  rw [w.bytes_eq, List.append_assoc, next_header h]
  split
  next hnil => rw [hnil, List.nil_append, ← hnil]
  next => rw [readFull_append rfl]

end Pollmux
