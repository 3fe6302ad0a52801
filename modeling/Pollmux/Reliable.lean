import Pollmux.Pipe

/-!
# The reliable byte layer

`reliable` (`reliable.go`) numbers each direction's bytes consecutively, keeps
what the peer has not acknowledged, and drops what the peer replays. The source
object holds pointers to its two pipes; here the pipes are separate values and an
operation takes the one it uses.

Offsets are `uint64` in the source and natural numbers here. Every addition is
bounded by the number of bytes the application wrote or the peer sent, so the two
agree while fewer than 2^64 bytes pass. Where the source could fault or wrap, a
slice index past the end or an unsigned subtraction below zero, the operation
answers `none`. `Wf` is the representation invariant, and under it no operation
does: the `_spec` lemmas give each operation's result in closed form, and later
proofs use them instead of the definitions.

`nextOut` is not one step. It checks for pending replay under the layer's lock,
drops the lock, reads `out`, and takes the lock again to number what it read;
`NextOut` is how far a call has come, and `advance` moves it across one lock
region at a time.
-/

namespace Pollmux

/-- `MaxStreamWindowSize`. -/
def maxStreamWindowSize : Nat := 256 * 1024

/-- `ackEagerBytes`. -/
def ackEagerBytes : Nat := maxStreamWindowSize / 2

/-- `DefaultMaxReplayBytes`. -/
def defaultMaxReplayBytes : Nat := 16 * 1024 * 1024

/-- The slice expression `xs[i:]`, which faults past the end. -/
def sliceFrom {α : Type} (xs : List α) (i : Nat) : Option (List α) :=
  if i ≤ xs.length then some (xs.drop i) else none

/-- An unsigned subtraction, where `none` is a wrap below zero. -/
def checkedSub (a b : Nat) : Option Nat := if b ≤ a then some (a - b) else none

theorem sliceFrom_of_le {α : Type} {xs : List α} {i : Nat} (h : i ≤ xs.length) :
    sliceFrom xs i = some (xs.drop i) := if_pos h

theorem checkedSub_of_le {a b : Nat} (h : b ≤ a) : checkedSub a b = some (a - b) := if_pos h

/-- A numbered chunk: the offset of its first byte and its bytes. -/
structure Chunk where
  off : Nat
  bytes : Bytes
  deriving DecidableEq, Repr

/-- `reliable`, less its mutex and its pipes. -/
structure Reliable where
  sendOffset : Nat := 0
  ackedOffset : Nat := 0
  sentCursor : Nat := 0
  replay : Bytes := []
  maxReplay : Nat
  broken : Bool := false
  recvOffset : Nat := 0
  lastAck : Nat := 0
  ackEager : Nat := ackEagerBytes
  deriving DecidableEq, Repr

/-- What `nextOut` answers: `(off, n, err)` with the bytes `buf[:n]`. -/
structure NextResult where
  off : Nat
  bytes : Bytes
  err : Option Err
  deriving DecidableEq, Repr

/-- How far one call of `nextOut` has come: past the replay check, asleep in `ReadAvailable`,
holding bytes that have no number yet, or returned. -/
inductive NextOut
  | entering (dst : Nat)
  | reading (dst : Nat) (wait : Parked)
  | taken (bytes : Bytes)
  | returned (result : NextResult)
  deriving DecidableEq, Repr

/-- The bytes a call has taken from `out` and not numbered. -/
def NextOut.inHand : NextOut → Bytes
  | .taken bs => bs
  | _ => []

/-- What `nextOut` makes of its `ReadAvailable`: a return with no byte ends the call. -/
def NextOut.ofRead (dst : Nat) : ReadState → NextOut
  | .parked wait => .reading dst wait
  | .returned (.data bs) => if bs = [] then .returned ⟨0, [], none⟩ else .taken bs
  | .returned .timeout => .returned ⟨0, [], none⟩
  | .returned .interrupted => .returned ⟨0, [], some .pipeInterrupted⟩
  | .returned .eof => .returned ⟨0, [], some .eof⟩

/-- What `recvIn` leaves behind: its error, whether it nudges the sender for an ack, the layer
and the `in` pipe. -/
structure Received where
  err : Option Err
  wake : Bool
  rl : Reliable
  inp : BufferedPipe
  deriving DecidableEq, Repr

namespace Reliable

/-- `newReliable`. -/
def new (maxReplay : Int) : Reliable :=
  { maxReplay := if maxReplay ≤ 0 then defaultMaxReplayBytes else maxReplay.toNat }

/-- `disableEagerAck`. -/
def disableEagerAck (r : Reliable) : Reliable := { r with ackEager := 0 }

/-- `markBrokenLocked`, and `markBroken` around it. -/
def markBroken (r : Reliable) : Reliable :=
  { r with broken := true, replay := [], ackedOffset := r.sendOffset, sentCursor := r.sendOffset }

/-- The first lock region of `nextOut`: pending replay goes out first. -/
def nextOutStart (r : Reliable) (dst : Nat) : Option (NextOut × Reliable) :=
  if r.broken = false ∧ r.sentCursor < r.sendOffset then do
    let start ← checkedSub r.sentCursor r.ackedOffset
    let pending ← sliceFrom r.replay start
    let bytes := pending.take dst
    some (.returned ⟨r.sentCursor, bytes, none⟩,
      { r with sentCursor := r.sentCursor + bytes.length })
  else
    some (.entering dst, r)

/-- The second lock region of `nextOut`: number the bytes taken, retain them, and give up on
resuming if that overflows the replay buffer. -/
def number (r : Reliable) (bytes : Bytes) : Reliable :=
  if r.broken then
    { r with
      sendOffset := r.sendOffset + bytes.length
      sentCursor := r.sendOffset + bytes.length }
  else if (r.replay ++ bytes).length > r.maxReplay then
    { r with
      sendOffset := r.sendOffset + bytes.length
      sentCursor := r.sendOffset + bytes.length
      replay := r.replay ++ bytes }.markBroken
  else
    { r with
      sendOffset := r.sendOffset + bytes.length
      sentCursor := r.sendOffset + bytes.length
      replay := r.replay ++ bytes }

/-- One more region of a `nextOut` call. `fired` says whether the sleeping read's timer goes
off first. -/
def advance (fired : Bool) (call : NextOut) (r : Reliable) (out : BufferedPipe) :
    Option (NextOut × Reliable × BufferedPipe) :=
  match call with
  | .entering dst =>
    let step := out.enter dst
    some (.ofRead dst step.1, r, step.2)
  | .reading dst wait =>
    let step := out.resume dst (if fired then wait.fire else wait)
    some (.ofRead dst step.1, r, step.2)
  | .taken bytes => some (.returned ⟨r.sendOffset, bytes, none⟩, r.number bytes, out)
  | .returned _ => none

/-- `recvIn`: a gap is fatal, a full duplicate is dropped, and whatever extends `recvOffset` is
written to `in`. -/
def recvIn (r : Reliable) (inp : BufferedPipe) (off : Nat) (p : Bytes) : Option Received :=
  if off > r.recvOffset then
    some ⟨some .replayGap, false, r.markBroken, inp⟩
  else if off + p.length ≤ r.recvOffset then
    some ⟨none, false, r, inp⟩
  else do
    let skip ← checkedSub r.recvOffset off
    let fresh ← sliceFrom p skip
    match inp.write fresh with
    | .error e => some ⟨some e, false, r, inp⟩
    | .ok inp' =>
      let pending ← checkedSub (r.recvOffset + fresh.length) r.lastAck
      some ⟨none, decide (0 < r.ackEager ∧ r.ackEager ≤ pending),
        { r with recvOffset := r.recvOffset + fresh.length }, inp'⟩

/-- `ack`. -/
def ack (r : Reliable) (n : Nat) : Option (Option Err × Reliable) :=
  if n > r.sendOffset then
    some (some .badAck, r.markBroken)
  else if r.broken = true ∨ n ≤ r.ackedOffset then
    some (none, r)
  else do
    let k ← checkedSub n r.ackedOffset
    let replay ← sliceFrom r.replay k
    some (none, { r with
      replay := replay
      ackedOffset := n
      sentCursor := if r.sentCursor < n then n else r.sentCursor })

/-- `takeAck`. -/
def takeAck (r : Reliable) : Option Nat × Reliable :=
  if r.recvOffset = r.lastAck then (none, r)
  else (some r.recvOffset, { r with lastAck := r.recvOffset })

/-- `resetAck`. -/
def resetAck (r : Reliable) : Reliable := { r with lastAck := 0 }

/-- `resumeOut`. -/
def resumeOut (r : Reliable) (peerRecv : Nat) : Option (Bool × Reliable) :=
  if r.broken = true ∨ peerRecv < r.ackedOffset ∨ peerRecv > r.sendOffset then
    some (false, r)
  else do
    let k ← checkedSub peerRecv r.ackedOffset
    let replay ← sliceFrom r.replay k
    some (true, { r with replay := replay, ackedOffset := peerRecv, sentCursor := peerRecv })

/-- `rewindToAcked`. -/
def rewindToAcked (r : Reliable) : Reliable :=
  if r.broken then r else { r with sentCursor := r.ackedOffset }

/-- `recvOffsetNow`. -/
def recvOffsetNow (r : Reliable) : Nat := r.recvOffset

/-- `isBroken`. -/
def isBroken (r : Reliable) : Bool := r.broken

/-! ## The representation invariant -/

/-- **The representation invariant.** The cursor lies between what is acknowledged and what was
sent; a layer that is not broken retains exactly that many bytes and no more than its bound; a
broken one retains none. -/
structure Wf (r : Reliable) : Prop where
  acked_le : r.ackedOffset ≤ r.sentCursor
  cursor_le : r.sentCursor ≤ r.sendOffset
  replay_end : r.broken = false → r.ackedOffset + r.replay.length = r.sendOffset
  replay_le : r.replay.length ≤ r.maxReplay
  replay_nil : r.broken = true → r.replay = []
  lastAck_le : r.lastAck ≤ r.recvOffset

/-- The layer after the peer acknowledged up to `n`, a number it has room for. -/
def release (r : Reliable) (n : Nat) : Reliable :=
  { r with
    replay := r.replay.drop (n - r.ackedOffset)
    ackedOffset := n
    sentCursor := max r.sentCursor n }

/-- The layer after a resume rewound it to `n`. -/
def rewind (r : Reliable) (n : Nat) : Reliable :=
  { r with replay := r.replay.drop (n - r.ackedOffset), ackedOffset := n, sentCursor := n }

theorem new_wf (maxReplay : Int) : (new maxReplay).Wf where
  acked_le := Nat.le_refl _
  cursor_le := Nat.le_refl _
  replay_end := fun _ => rfl
  replay_le := Nat.zero_le _
  replay_nil := fun _ => rfl
  lastAck_le := Nat.le_refl _

@[simp] theorem markBroken_sendOffset (r : Reliable) : r.markBroken.sendOffset = r.sendOffset := rfl
@[simp] theorem markBroken_recvOffset (r : Reliable) : r.markBroken.recvOffset = r.recvOffset := rfl
@[simp] theorem markBroken_broken (r : Reliable) : r.markBroken.broken = true := rfl

theorem Wf.markBroken {r : Reliable} (h : r.Wf) : r.markBroken.Wf where
  acked_le := Nat.le_refl _
  cursor_le := Nat.le_refl _
  replay_end := nofun
  replay_le := Nat.zero_le _
  replay_nil := fun _ => rfl
  lastAck_le := h.lastAck_le

theorem Wf.release {r : Reliable} (h : r.Wf) {n : Nat} (hb : r.broken = false)
    (hlo : r.ackedOffset ≤ n) (hhi : n ≤ r.sendOffset) : (r.release n).Wf where
  acked_le := Nat.le_max_right _ _
  cursor_le := Nat.max_le.mpr ⟨h.cursor_le, hhi⟩
  replay_end := by
    intro _
    have hend := h.replay_end hb
    simp only [Reliable.release, List.length_drop]
    omega
  replay_le := by
    have hle := h.replay_le
    simp only [Reliable.release, List.length_drop]
    omega
  replay_nil := fun hbr => by rw [show r.broken = true from hbr] at hb; cases hb
  lastAck_le := h.lastAck_le

theorem Wf.rewind {r : Reliable} (h : r.Wf) {n : Nat} (hb : r.broken = false)
    (hlo : r.ackedOffset ≤ n) (hhi : n ≤ r.sendOffset) : (r.rewind n).Wf where
  acked_le := Nat.le_refl _
  cursor_le := hhi
  replay_end := (h.release hb hlo hhi).replay_end
  replay_le := (h.release hb hlo hhi).replay_le
  replay_nil := (h.release hb hlo hhi).replay_nil
  lastAck_le := h.lastAck_le

/-- Handing out pending replay moves the cursor no further than the layer's end. -/
theorem Wf.replays {r : Reliable} (h : r.Wf) (hb : r.broken = false) (dst : Nat) :
    { r with sentCursor := r.sentCursor +
      ((r.replay.drop (r.sentCursor - r.ackedOffset)).take dst).length }.Wf := by
  have hacked := h.acked_le
  have hend := h.replay_end hb
  have hcur := h.cursor_le
  have hlen := (List.take_prefix dst (r.replay.drop (r.sentCursor - r.ackedOffset))).length_le
  rw [List.length_drop] at hlen
  refine ⟨?_, ?_, h.replay_end, h.replay_le, h.replay_nil, h.lastAck_le⟩
  · show r.ackedOffset ≤ r.sentCursor + _
    omega
  · show r.sentCursor + _ ≤ r.sendOffset
    omega

theorem Wf.rewindToAcked {r : Reliable} (h : r.Wf) : r.rewindToAcked.Wf := by
  unfold Reliable.rewindToAcked
  split
  · exact h
  · exact ⟨Nat.le_refl _, Nat.le_trans h.acked_le h.cursor_le, h.replay_end, h.replay_le,
      h.replay_nil, h.lastAck_le⟩

theorem Wf.resetAck {r : Reliable} (h : r.Wf) : r.resetAck.Wf :=
  ⟨h.acked_le, h.cursor_le, h.replay_end, h.replay_le, h.replay_nil, Nat.zero_le _⟩

theorem Wf.takeAck {r : Reliable} (h : r.Wf) : r.takeAck.2.Wf := by
  unfold Reliable.takeAck
  split
  · exact h
  · exact ⟨h.acked_le, h.cursor_le, h.replay_end, h.replay_le, h.replay_nil, Nat.le_refl _⟩

/-- Numbering keeps the invariant. An overflow breaks the layer, and the broken layer's cursor
still stands at its end. -/
theorem Wf.number {r : Reliable} (h : r.Wf) (bytes : Bytes) : (r.number bytes).Wf := by
  have hacked : r.ackedOffset ≤ r.sendOffset := Nat.le_trans h.acked_le h.cursor_le
  unfold Reliable.number
  split
  next hb =>
    refine ⟨?_, Nat.le_refl _, ?_, h.replay_le, h.replay_nil, h.lastAck_le⟩
    · show r.ackedOffset ≤ r.sendOffset + bytes.length
      omega
    · intro hnb
      rw [show r.broken = false from hnb] at hb
      cases hb
  next hb =>
    rw [Bool.not_eq_true] at hb
    split
    next => exact ⟨Nat.le_refl _, Nat.le_refl _, nofun, Nat.zero_le _, fun _ => rfl, h.lastAck_le⟩
    next hfit =>
      have hend := h.replay_end hb
      refine ⟨?_, Nat.le_refl _, ?_, Nat.le_of_not_lt hfit, ?_, h.lastAck_le⟩
      · show r.ackedOffset ≤ r.sendOffset + bytes.length
        omega
      · intro _
        show r.ackedOffset + (r.replay ++ bytes).length = r.sendOffset + bytes.length
        rw [List.length_append]
        omega
      · intro hbr
        rw [show r.broken = true from hbr] at hb
        cases hb

/-! ## What each operation answers -/

/-- Numbering moves `sendOffset` and the cursor to the new end, broken or not. -/
theorem number_offsets (r : Reliable) (bytes : Bytes) :
    (r.number bytes).sendOffset = r.sendOffset + bytes.length ∧
      (r.number bytes).sentCursor = r.sendOffset + bytes.length ∧
      (r.number bytes).recvOffset = r.recvOffset ∧ (r.number bytes).lastAck = r.lastAck := by
  unfold number
  split
  · exact ⟨rfl, rfl, rfl, rfl⟩
  · split <;> exact ⟨rfl, rfl, rfl, rfl⟩

/-- Numbering leaves a layer unbroken only if it was unbroken and had room, and then the bytes
join the replay buffer. -/
theorem number_unbroken {r : Reliable} {bytes : Bytes} (h : (r.number bytes).broken = false) :
    r.broken = false ∧ (r.replay ++ bytes).length ≤ r.maxReplay ∧
      (r.number bytes).ackedOffset = r.ackedOffset ∧ (r.number bytes).replay = r.replay ++ bytes := by
  unfold number at h ⊢
  split at h
  next hb => rw [show r.broken = false from h] at hb; cases hb
  next hb =>
    split at h
    next => cases h
    next hfit =>
      rw [if_neg hb, if_neg hfit]
      exact ⟨Bool.not_eq_true _ ▸ hb, Nat.le_of_not_lt hfit, rfl, rfl⟩

/-- Numbering that fits leaves an unbroken layer unbroken. -/
theorem number_of_fit {r : Reliable} {bytes : Bytes} (hb : r.broken = false)
    (hfit : (r.replay ++ bytes).length ≤ r.maxReplay) :
    (r.number bytes).broken = false ∧ (r.number bytes).ackedOffset = r.ackedOffset := by
  unfold number
  rw [if_neg (by rw [hb]; decide), if_neg (Nat.not_lt.mpr hfit)]
  exact ⟨hb, rfl⟩

/-- `nextOut` first sends pending replay from the cursor, and otherwise goes on to read. -/
theorem nextOutStart_spec {r : Reliable} (h : r.Wf) (dst : Nat) :
    (r.broken = false ∧ r.sentCursor < r.sendOffset ∧
      r.nextOutStart dst = some
        (.returned ⟨r.sentCursor, (r.replay.drop (r.sentCursor - r.ackedOffset)).take dst, none⟩,
          { r with sentCursor := r.sentCursor +
            ((r.replay.drop (r.sentCursor - r.ackedOffset)).take dst).length })) ∨
    ((r.broken = true ∨ r.sentCursor = r.sendOffset) ∧
      r.nextOutStart dst = some (.entering dst, r)) := by
  have hcur := h.cursor_le
  have hack := h.acked_le
  unfold nextOutStart
  split
  next hc =>
    have hend := h.replay_end hc.1
    refine .inl ⟨hc.1, hc.2, ?_⟩
    simp only [checkedSub_of_le hack, sliceFrom_of_le (show r.sentCursor - r.ackedOffset ≤
      r.replay.length by omega), Option.bind_eq_bind, Option.bind_some]
  next hc =>
    refine .inr ⟨?_, rfl⟩
    cases hb : r.broken with
    | true => exact .inl rfl
    | false =>
      refine .inr (Nat.le_antisymm hcur ?_)
      exact Nat.le_of_not_lt fun hlt => hc ⟨hb, hlt⟩

/-- What `recvIn` answers: a gap breaks the layer, an old chunk changes nothing, a fresh one
either finds `in` closed and changes nothing or moves `recvOffset` to the chunk's end. -/
theorem recvIn_spec {r : Reliable} (h : r.Wf) (inp : BufferedPipe) (off : Nat) (p : Bytes) :
    (off > r.recvOffset ∧ r.recvIn inp off p = some ⟨some .replayGap, false, r.markBroken, inp⟩) ∨
    (off + p.length ≤ r.recvOffset ∧ r.recvIn inp off p = some ⟨none, false, r, inp⟩) ∨
    (off ≤ r.recvOffset ∧ r.recvOffset < off + p.length ∧ inp.closed = true ∧
      r.recvIn inp off p = some ⟨some .closedPipe, false, r, inp⟩) ∨
    (off ≤ r.recvOffset ∧ r.recvOffset < off + p.length ∧ inp.closed = false ∧
      r.recvIn inp off p = some
        ⟨none, decide (0 < r.ackEager ∧ r.ackEager ≤ off + p.length - r.lastAck),
          { r with recvOffset := off + p.length }, inp.push (p.drop (r.recvOffset - off))⟩) := by
  have hla := h.lastAck_le
  unfold recvIn
  split
  next hgap => exact .inl ⟨hgap, rfl⟩
  next hgap =>
    have hlo : off ≤ r.recvOffset := Nat.le_of_not_lt hgap
    split
    next hold => exact .inr (.inl ⟨hold, rfl⟩)
    next hold =>
      have hhi : r.recvOffset < off + p.length := Nat.lt_of_not_le hold
      have hskip : r.recvOffset - off ≤ p.length := by omega
      have hend : r.recvOffset + (p.drop (r.recvOffset - off)).length = off + p.length := by
        rw [List.length_drop]
        omega
      simp only [checkedSub_of_le hlo, sliceFrom_of_le hskip, Option.bind_eq_bind, Option.bind_some]
      cases hc : inp.closed with
      | true =>
        refine .inr (.inr (.inl ⟨hlo, hhi, rfl, ?_⟩))
        simp only [BufferedPipe.write_of_closed hc]
      | false =>
        refine .inr (.inr (.inr ⟨hlo, hhi, rfl, ?_⟩))
        simp only [BufferedPipe.write_of_open hc, hend,
          checkedSub_of_le (show r.lastAck ≤ off + p.length by omega), Option.bind_some]

/-- What `ack` answers: an impossible number breaks the layer, an old one (or any, once broken)
changes nothing, and a new one releases what it covers. -/
theorem ack_spec {r : Reliable} (h : r.Wf) (n : Nat) :
    (n > r.sendOffset ∧ r.ack n = some (some .badAck, r.markBroken)) ∨
    (n ≤ r.sendOffset ∧ (r.broken = true ∨ n ≤ r.ackedOffset) ∧ r.ack n = some (none, r)) ∨
    (r.broken = false ∧ r.ackedOffset < n ∧ n ≤ r.sendOffset ∧
      r.ack n = some (none, r.release n)) := by
  unfold ack
  split
  next hbad => exact .inl ⟨hbad, rfl⟩
  next hbad =>
    have hhi : n ≤ r.sendOffset := Nat.le_of_not_lt hbad
    split
    next hold => exact .inr (.inl ⟨hhi, hold, rfl⟩)
    next hold =>
      have hb : r.broken = false := by
        cases hbr : r.broken with
        | true => exact absurd (.inl hbr) hold
        | false => rfl
      have hlo : r.ackedOffset < n := Nat.lt_of_not_le fun hle => hold (.inr hle)
      have hend := h.replay_end hb
      refine .inr (.inr ⟨hb, hlo, hhi, ?_⟩)
      have hmax : (if r.sentCursor < n then n else r.sentCursor) = max r.sentCursor n := by
        split <;> omega
      simp only [checkedSub_of_le (Nat.le_of_lt hlo),
        sliceFrom_of_le (show n - r.ackedOffset ≤ r.replay.length by omega),
        Option.bind_eq_bind, Option.bind_some, hmax, release]

/-- What `resumeOut` answers: it refuses a broken layer or an offset outside
`[ackedOffset, sendOffset]` and changes nothing then; otherwise it rewinds. -/
theorem resumeOut_spec {r : Reliable} (h : r.Wf) (n : Nat) :
    ((r.broken = true ∨ n < r.ackedOffset ∨ n > r.sendOffset) ∧
      r.resumeOut n = some (false, r)) ∨
    (r.broken = false ∧ r.ackedOffset ≤ n ∧ n ≤ r.sendOffset ∧
      r.resumeOut n = some (true, r.rewind n)) := by
  unfold resumeOut
  split
  next hno => exact .inl ⟨hno, rfl⟩
  next hno =>
    have hb : r.broken = false := by
      cases hbr : r.broken with
      | true => exact absurd (.inl hbr) hno
      | false => rfl
    have hlo : r.ackedOffset ≤ n := Nat.le_of_not_lt fun hlt => hno (.inr (.inl hlt))
    have hhi : n ≤ r.sendOffset := Nat.le_of_not_lt fun hlt => hno (.inr (.inr hlt))
    have hend := h.replay_end hb
    refine .inr ⟨hb, hlo, hhi, ?_⟩
    simp only [checkedSub_of_le hlo,
      sliceFrom_of_le (show n - r.ackedOffset ≤ r.replay.length by omega),
      Option.bind_eq_bind, Option.bind_some, rewind]

/-- `takeAck` hands out `recvOffset` or nothing, and remembers it either way. -/
theorem takeAck_spec (r : Reliable) :
    (∀ n, r.takeAck.1 = some n → n = r.recvOffset) ∧
      r.takeAck.2 = { r with lastAck := r.recvOffset } := by
  unfold takeAck
  split
  next heq =>
    refine ⟨nofun, ?_⟩
    exact (congrArg (fun n => { r with lastAck := n }) heq).symm
  next => exact ⟨fun n hn => (Option.some.inj hn).symm, rfl⟩

/-- One region of a `nextOut` call either reads `out` without touching the layer, or numbers the
bytes in hand without touching `out`. -/
theorem advance_cases {fired : Bool} {call call' : NextOut} {r r' : Reliable}
    {out out' : BufferedPipe} (h : advance fired call r out = some (call', r', out')) :
    (r' = r ∧ call.inHand = [] ∧ call'.inHand ++ out'.buf = out.buf ∧ out'.closed = out.closed ∧
      ∀ res, call' = .returned res → res.off = 0 ∧ res.bytes = []) ∨
    (∃ bs, call = .taken bs ∧ call' = .returned ⟨r.sendOffset, bs, none⟩ ∧ r' = r.number bs ∧
      out' = out) := by
  -- a read that hands out bytes puts all of them in the caller's hand
  have ofRead_reads : ∀ {dst : Nat} {st : ReadState} {p : BufferedPipe}, out.Reads dst st p →
      (NextOut.ofRead dst st).inHand ++ p.buf = out.buf ∧
        ∀ res, NextOut.ofRead dst st = .returned res → res.off = 0 ∧ res.bytes = [] := by
    intro dst st p hr
    have hbytes := hr.bytes
    cases st with
    | parked wait => exact ⟨hbytes, nofun⟩
    | returned result =>
      cases result with
      | data bs =>
        simp only [NextOut.ofRead]
        split
        next hnil =>
          subst hnil
          exact ⟨hbytes, fun res hres => by cases hres; exact ⟨rfl, rfl⟩⟩
        next => exact ⟨hbytes, nofun⟩
      | timeout => exact ⟨hbytes, fun res hres => by cases hres; exact ⟨rfl, rfl⟩⟩
      | interrupted => exact ⟨hbytes, fun res hres => by cases hres; exact ⟨rfl, rfl⟩⟩
      | eof => exact ⟨hbytes, fun res hres => by cases hres; exact ⟨rfl, rfl⟩⟩
  cases call with
  | entering dst =>
    cases h
    have hr := out.enter_reads dst
    exact .inl ⟨rfl, rfl, (ofRead_reads hr).1, hr.closed, (ofRead_reads hr).2⟩
  | reading dst wait =>
    cases h
    have hr := out.resume_reads dst (if fired then wait.fire else wait)
    exact .inl ⟨rfl, rfl, (ofRead_reads hr).1, hr.closed, (ofRead_reads hr).2⟩
  | taken bs => cases h; exact .inr ⟨bs, rfl, rfl, rfl, rfl⟩
  | returned res => cases h

end Reliable

end Pollmux
