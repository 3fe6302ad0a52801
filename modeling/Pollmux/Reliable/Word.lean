import Mathlib.Data.List.Chain
import Mathlib.Data.UInt
import Pollmux.Kit.GoInt
import Pollmux.Kit.Machine
import Pollmux.Reliable.Stream

/-!
# The layer on machine words

The offsets of `reliable` are `uint64`, an addition on them wraps without a
sound, and so does a subtraction. `Reliable64` is the layer as the source
computes it: offsets are words, sums and differences are taken modulo 2^64, a
chunk's length is converted before it is added, and only a slice index past the
end (or, after a conversion to `int`, below zero) stops the program, `none`.

`exact` reads a word-level layer as the layer over the natural numbers, whose
subtractions fault where a word would wrap. Each operation has an `_exact` lemma:
while the representation invariant holds and no count passes 2^64, the word-level
operation and the exact one give the same answer and the same layer, so no
wrap ever happened. The hypotheses on counts sit on the two operations that add
to one, `number` and `recvIn`; an offset the peer supplies may be any word.

The second half runs the layer. `Layer64` adds the two pipes, the transport's
`nextOut` call, the bytes numbered so far and the chunks handed out since
anything but `nextOut` last moved the cursor. `Inv` is kept by every operation
with every argument (`Inv.step`), so it holds in every run that stays below 2^64
bytes each way.
-/

namespace Pollmux

open Kit

/-- `reliable` on its own words, less its mutex and its pipes. -/
structure Reliable64 where
  sendOffset : UInt64 := 0
  ackedOffset : UInt64 := 0
  sentCursor : UInt64 := 0
  replay : Bytes := []
  maxReplay : Nat
  broken : Bool := false
  recvOffset : UInt64 := 0
  lastAck : UInt64 := 0
  ackEager : Nat := ackEagerBytes
  deriving DecidableEq, Repr

/-- What `recvIn` leaves behind, on words. -/
structure Received64 where
  err : Option Err
  wake : Bool
  rl : Reliable64
  inp : BufferedPipe
  deriving DecidableEq, Repr

/-- The slice expression `xs[i:]` with an `int` index, which faults below zero too. -/
def sliceFromInt {α : Type} (xs : List α) (i : Int) : Option (List α) :=
  if i < 0 then none else sliceFrom xs i.toNat

/-- The control operations, with any word for an offset. -/
inductive Control64
  | ack (n : UInt64)
  | resumeOut (peerRecv : UInt64)
  | rewindToAcked
  | markBroken
  | takeAck
  | resetAck
  deriving DecidableEq, Repr

/-- The same operation with the offset it denotes. -/
def Control64.exact : Control64 → Control
  | .ack n => .ack n.toNat
  | .resumeOut n => .resumeOut n.toNat
  | .rewindToAcked => .rewindToAcked
  | .markBroken => .markBroken
  | .takeAck => .takeAck
  | .resetAck => .resetAck

namespace Reliable64

/-- `newReliable`, and `disableEagerAck` right after it where the session has no eager acks. -/
def new (maxReplay : Int64) (eager : Bool) : Reliable64 :=
  { maxReplay := if maxReplay.toInt ≤ 0 then defaultMaxReplayBytes else maxReplay.toInt.toNat
    ackEager := if eager then ackEagerBytes else 0 }

/-- `markBrokenLocked`, and `markBroken` around it. -/
def markBroken (r : Reliable64) : Reliable64 :=
  { r with broken := true, replay := [], ackedOffset := r.sendOffset, sentCursor := r.sendOffset }

/-- The first lock region of `nextOut`. -/
def nextOutStart (r : Reliable64) (dst : Nat) : Option (NextOut × Reliable64) :=
  if r.broken = false ∧ r.sentCursor < r.sendOffset then do
    let start := int64 (r.sentCursor - r.ackedOffset).toNat
    let pending ← sliceFromInt r.replay start
    let bytes := pending.take dst
    some (.returned ⟨r.sentCursor.toNat, bytes, none⟩,
      { r with sentCursor := r.sentCursor + UInt64.ofNat bytes.length })
  else
    some (.entering dst, r)

/-- The second lock region of `nextOut`. -/
def number (r : Reliable64) (bytes : Bytes) : Reliable64 :=
  let r' := { r with
    sendOffset := r.sendOffset + UInt64.ofNat bytes.length
    sentCursor := r.sendOffset + UInt64.ofNat bytes.length }
  if r.broken then r'
  else if (r.replay ++ bytes).length > r.maxReplay then
    { r' with replay := r.replay ++ bytes }.markBroken
  else
    { r' with replay := r.replay ++ bytes }

/-- `recvIn`. -/
def recvIn (r : Reliable64) (inp : BufferedPipe) (off : UInt64) (p : Bytes) :
    Option Received64 :=
  if off > r.recvOffset then
    some ⟨some .replayGap, false, r.markBroken, inp⟩
  else if off + UInt64.ofNat p.length ≤ r.recvOffset then
    some ⟨none, false, r, inp⟩
  else do
    let fresh ← sliceFrom p (r.recvOffset - off).toNat
    match inp.write fresh with
    | .error e => some ⟨some e, false, r, inp⟩
    | .ok inp' =>
      let recvOffset := r.recvOffset + UInt64.ofNat fresh.length
      some ⟨none, decide (0 < r.ackEager ∧ UInt64.ofNat r.ackEager ≤ recvOffset - r.lastAck),
        { r with recvOffset := recvOffset }, inp'⟩

/-- `ack`. -/
def ack (r : Reliable64) (n : UInt64) : Option (Option Err × Reliable64) :=
  if n > r.sendOffset then
    some (some .badAck, r.markBroken)
  else if r.broken = true ∨ n ≤ r.ackedOffset then
    some (none, r)
  else do
    let replay ← sliceFrom r.replay (n - r.ackedOffset).toNat
    some (none, { r with
      replay := replay
      ackedOffset := n
      sentCursor := if r.sentCursor < n then n else r.sentCursor })

/-- `takeAck`. -/
def takeAck (r : Reliable64) : Option UInt64 × Reliable64 :=
  if r.recvOffset = r.lastAck then (none, r)
  else (some r.recvOffset, { r with lastAck := r.recvOffset })

/-- `resetAck`. -/
def resetAck (r : Reliable64) : Reliable64 := { r with lastAck := 0 }

/-- `resumeOut`. -/
def resumeOut (r : Reliable64) (peerRecv : UInt64) : Option (Bool × Reliable64) :=
  if r.broken = true ∨ peerRecv < r.ackedOffset ∨ peerRecv > r.sendOffset then
    some (false, r)
  else do
    let replay ← sliceFrom r.replay (peerRecv - r.ackedOffset).toNat
    some (true, { r with replay := replay, ackedOffset := peerRecv, sentCursor := peerRecv })

/-- `rewindToAcked`. -/
def rewindToAcked (r : Reliable64) : Reliable64 :=
  if r.broken then r else { r with sentCursor := r.ackedOffset }

/-- One control operation, its answer dropped. -/
def control (r : Reliable64) : Control64 → Option Reliable64
  | .ack n => (r.ack n).map (·.2)
  | .resumeOut n => (r.resumeOut n).map (·.2)
  | .rewindToAcked => some r.rewindToAcked
  | .markBroken => some r.markBroken
  | .takeAck => some r.takeAck.2
  | .resetAck => some r.resetAck

/-- One more region of a `nextOut` call. -/
def advance (fired : Bool) (call : NextOut) (r : Reliable64) (out : BufferedPipe) :
    Option (NextOut × Reliable64 × BufferedPipe) :=
  match call with
  | .entering dst =>
    let step := out.enter dst
    some (.ofRead dst step.1, r, step.2)
  | .reading dst wait =>
    let step := out.resume dst (if fired then wait.fire else wait)
    some (.ofRead dst step.1, r, step.2)
  | .taken bytes => some (.returned ⟨r.sendOffset.toNat, bytes, none⟩, r.number bytes, out)
  | .returned _ => none

/-- The layer over the natural numbers that the words denote. -/
def exact (r : Reliable64) : Reliable where
  sendOffset := r.sendOffset.toNat
  ackedOffset := r.ackedOffset.toNat
  sentCursor := r.sentCursor.toNat
  replay := r.replay
  maxReplay := r.maxReplay
  broken := r.broken
  recvOffset := r.recvOffset.toNat
  lastAck := r.lastAck.toNat
  ackEager := r.ackEager

end Reliable64

/-- The answer of `recvIn` over the natural numbers that the words denote. -/
def Received64.exact (res : Received64) : Received := ⟨res.err, res.wake, res.rl.exact, res.inp⟩

/-! ## The words against the exact layer -/

theorem sliceFromInt_of_lt {α : Type} (xs : List α) {i : Nat} (h : i < 2 ^ 63) :
    sliceFromInt xs (int64 i) = sliceFrom xs i := by
  have hi : int64 (i : Int) = i := int64_of_lt (by omega) (by omega)
  rw [hi, sliceFromInt, if_neg (by omega), Int.toNat_natCast]

namespace Reliable64

/-- A length added to a word does not wrap while the sum has room. -/
theorem toNat_add_length {x : UInt64} {n : Nat} (h : x.toNat + n < 2 ^ 64) :
    (x + UInt64.ofNat n).toNat = x.toNat + n := by
  have hn : (UInt64.ofNat n).toNat = n := UInt64.toNat_ofNat_of_lt' (by simp only [UInt64.size]; omega)
  rw [UInt64.toNat_add, hn]
  exact Nat.mod_eq_of_lt h

theorem toNat_sub_of_toNat_le {x y : UInt64} (h : y.toNat ≤ x.toNat) :
    (x - y).toNat = x.toNat - y.toNat :=
  UInt64.toNat_sub_of_le x y (UInt64.le_iff_toNat_le.mpr h)

theorem new_exact (maxReplay : Int64) (eager : Bool) :
    (new maxReplay eager).exact =
      if eager then .new maxReplay.toInt else (Reliable.new maxReplay.toInt).disableEagerAck := by
  cases eager <;> rfl

@[simp] theorem markBroken_exact (r : Reliable64) : r.markBroken.exact = r.exact.markBroken := rfl

/-- The first region of `nextOut` on words: pending replay from the cursor, with no wrap in the
start index or in the new cursor, or on to the read. -/
theorem nextOutStart_spec {r : Reliable64} (h : r.exact.Wf) (hmax : r.maxReplay < 2 ^ 63)
    (dst : Nat) :
    (∃ bytes, r.broken = false ∧ r.sentCursor < r.sendOffset ∧
      bytes = (r.replay.drop (r.sentCursor.toNat - r.ackedOffset.toNat)).take dst ∧
      (r.sentCursor + UInt64.ofNat bytes.length).toNat = r.sentCursor.toNat + bytes.length ∧
      r.nextOutStart dst = some (.returned ⟨r.sentCursor.toNat, bytes, none⟩,
        { r with sentCursor := r.sentCursor + UInt64.ofNat bytes.length })) ∨
    ((r.broken = true ∨ r.sentCursor = r.sendOffset) ∧
      r.nextOutStart dst = some (.entering dst, r)) := by
  have hacked : r.ackedOffset.toNat ≤ r.sentCursor.toNat := h.acked_le
  have hle : r.replay.length ≤ r.maxReplay := h.replay_le
  have hcur : r.sentCursor.toNat ≤ r.sendOffset.toNat := h.cursor_le
  by_cases hc : r.broken = false ∧ r.sentCursor < r.sendOffset
  · have hend : r.ackedOffset.toNat + r.replay.length = r.sendOffset.toNat := h.replay_end hc.1
    have hstart : r.sentCursor.toNat - r.ackedOffset.toNat < 2 ^ 63 := by omega
    have hslice : sliceFromInt r.replay (int64 (r.sentCursor - r.ackedOffset).toNat) =
        some (r.replay.drop (r.sentCursor.toNat - r.ackedOffset.toNat)) := by
      rw [toNat_sub_of_toNat_le hacked, sliceFromInt_of_lt _ hstart, sliceFrom_of_le (by omega)]
    refine .inl ⟨_, hc.1, hc.2, rfl, ?_, ?_⟩
    · apply toNat_add_length
      have hsend := r.sendOffset.toNat_lt
      rw [List.length_take, List.length_drop]
      omega
    · rw [nextOutStart, if_pos hc]
      simp only [hslice, Option.bind_eq_bind, Option.bind_some]
  · refine .inr ⟨?_, by rw [nextOutStart, if_neg hc]⟩
    cases hb : r.broken with
    | true => exact .inl rfl
    | false =>
      have hge : ¬ r.sentCursor.toNat < r.sendOffset.toNat :=
        fun hlt => hc ⟨hb, UInt64.lt_iff_toNat_lt.mpr hlt⟩
      exact .inr (UInt64.toNat_inj.mp (by omega))

theorem nextOutStart_exact {r : Reliable64} (h : r.exact.Wf) (hmax : r.maxReplay < 2 ^ 63)
    (dst : Nat) :
    (r.nextOutStart dst).map (Prod.map id exact) = r.exact.nextOutStart dst := by
  rcases nextOutStart_spec h hmax dst with ⟨bytes, hb, hlt, rfl, hsum, heq⟩ | ⟨hno, heq⟩
  · have hlt' : r.exact.sentCursor < r.exact.sendOffset := UInt64.lt_iff_toNat_lt.mp hlt
    rcases Reliable.nextOutStart_spec h dst with ⟨_, _, heq'⟩ | ⟨hbr | hcur, _⟩
    · rw [heq, heq']
      simp only [Option.map_some, Prod.map, id, exact, hsum]
    · exact Bool.noConfusion (hb.symm.trans hbr)
    · exact absurd hcur (Nat.ne_of_lt hlt')
  · rcases Reliable.nextOutStart_spec h dst with ⟨hb, hlt, _⟩ | ⟨_, heq'⟩
    · rcases hno with hbr | hcur
      · exact Bool.noConfusion (hb.symm.trans hbr)
      · exact absurd (congrArg UInt64.toNat hcur) (Nat.ne_of_lt hlt)
    · rw [heq, heq']
      rfl

theorem number_exact {r : Reliable64} {bytes : Bytes}
    (hroom : r.sendOffset.toNat + bytes.length < 2 ^ 64) :
    (r.number bytes).exact = r.exact.number bytes := by
  have hsum := toNat_add_length hroom
  unfold number Reliable.number
  simp only [show r.exact.broken = r.broken from rfl, show r.exact.replay = r.replay from rfl,
    show r.exact.maxReplay = r.maxReplay from rfl]
  split
  · simp only [exact, hsum]
  · split
    · simp only [exact, markBroken, Reliable.markBroken, hsum]
    · simp only [exact, hsum]

theorem number_settings (r : Reliable64) (bytes : Bytes) :
    (r.number bytes).maxReplay = r.maxReplay ∧ (r.number bytes).ackEager = r.ackEager ∧
      (r.broken = true → (r.number bytes).broken = true) := by
  unfold number
  split
  · exact ⟨rfl, rfl, id⟩
  · split
    · exact ⟨rfl, rfl, fun _ => rfl⟩
    · exact ⟨rfl, rfl, id⟩

theorem recvIn_exact {r : Reliable64} (h : r.exact.Wf) (heager : r.ackEager < 2 ^ 64)
    (inp : BufferedPipe) (off : UInt64) {p : Bytes}
    (hroom : r.recvOffset.toNat + p.length < 2 ^ 64) :
    (r.recvIn inp off p).map Received64.exact = r.exact.recvIn inp off.toNat p := by
  have hla : r.lastAck.toNat ≤ r.recvOffset.toNat := h.lastAck_le
  unfold recvIn
  by_cases hgap : off > r.recvOffset
  · have hgap' : off.toNat > r.exact.recvOffset := UInt64.lt_iff_toNat_lt.mp hgap
    rw [if_pos hgap, Reliable.recvIn, if_pos hgap']
    rfl
  have hlo : off.toNat ≤ r.recvOffset.toNat :=
    Nat.le_of_not_lt fun hlt => hgap (UInt64.lt_iff_toNat_lt.mpr hlt)
  have hsum : (off + UInt64.ofNat p.length).toNat = off.toNat + p.length :=
    toNat_add_length (by omega)
  rw [if_neg hgap]
  by_cases hold : off + UInt64.ofNat p.length ≤ r.recvOffset
  · have hold' : off.toNat + p.length ≤ r.exact.recvOffset :=
      hsum ▸ UInt64.le_iff_toNat_le.mp hold
    have hlo' : ¬ off.toNat > r.exact.recvOffset := Nat.not_lt.mpr hlo
    rw [if_pos hold, Reliable.recvIn, if_neg hlo', if_pos hold']
    rfl
  have hhi : r.recvOffset.toNat < off.toNat + p.length := by
    apply Nat.lt_of_not_le
    intro hle
    exact hold (UInt64.le_iff_toNat_le.mpr (hsum ▸ hle))
  have hfresh : (r.recvOffset + UInt64.ofNat (p.drop (r.recvOffset.toNat - off.toNat)).length).toNat
      = off.toNat + p.length := by
    rw [toNat_add_length] <;> rw [List.length_drop] <;> omega
  rw [if_neg hold, toNat_sub_of_toNat_le hlo, sliceFrom_of_le (by omega)]
  rcases Reliable.recvIn_spec h inp off.toNat p with ⟨hbad, _⟩ | ⟨hbad, _⟩ | ⟨_, _, hc, heq⟩ |
    ⟨_, _, hc, heq⟩
  · exact absurd hbad (Nat.not_lt.mpr hlo)
  · exact absurd hbad (Nat.not_le.mpr hhi)
  · rw [heq]
    simp only [Option.bind_eq_bind, Option.bind_some, BufferedPipe.write_of_closed hc,
      Option.map_some, Received64.exact]
  · have hpend : (r.recvOffset + UInt64.ofNat (p.drop (r.recvOffset.toNat - off.toNat)).length -
        r.lastAck).toNat = off.toNat + p.length - r.lastAck.toNat := by
      rw [toNat_sub_of_toNat_le (by omega), hfresh]
    have hwake : decide (0 < r.ackEager ∧ UInt64.ofNat r.ackEager ≤ r.recvOffset +
          UInt64.ofNat (p.drop (r.recvOffset.toNat - off.toNat)).length - r.lastAck) =
        decide (0 < r.exact.ackEager ∧
          r.exact.ackEager ≤ off.toNat + p.length - r.exact.lastAck) := by
      have hword : (UInt64.ofNat r.ackEager).toNat = r.ackEager := UInt64.toNat_ofNat_of_lt' heager
      apply decide_eq_decide.mpr
      rw [UInt64.le_iff_toNat_le, hpend, hword]
      exact Iff.rfl
    rw [heq]
    simp only [Option.bind_eq_bind, Option.bind_some, BufferedPipe.write_of_open hc,
      Option.map_some, Received64.exact, hwake]
    simp only [exact, hfresh]

/-- Whatever arrives, the replay bound stays and a broken layer stays broken; a closed `in`
leaves the layer and the pipe as they were. -/
theorem recvIn_frame {r : Reliable64} {inp : BufferedPipe} {off : UInt64} {p : Bytes}
    {res : Received64} (h : r.recvIn inp off p = some res) :
    res.rl.maxReplay = r.maxReplay ∧ (r.broken = true → res.rl.broken = true) ∧
      (res.err = some .closedPipe → res.rl = r ∧ res.inp = inp) := by
  unfold recvIn at h
  split at h
  · cases h
    exact ⟨rfl, fun _ => rfl, fun herr => by cases herr⟩
  · split at h
    · cases h
      exact ⟨rfl, id, fun herr => by cases herr⟩
    · obtain ⟨fresh, _, hrest⟩ := Option.bind_eq_some_iff.mp h
      cases hw : inp.write fresh with
      | error e =>
        rw [hw] at hrest
        cases hrest
        exact ⟨rfl, id, fun _ => ⟨rfl, rfl⟩⟩
      | ok inp' =>
        rw [hw] at hrest
        cases hrest
        exact ⟨rfl, id, fun herr => by cases herr⟩

theorem ack_exact {r : Reliable64} (h : r.exact.Wf) (n : UInt64) :
    (r.ack n).map (Prod.map id exact) = r.exact.ack n.toNat := by
  unfold ack
  rcases Reliable.ack_spec h n.toNat with ⟨hbad, heq⟩ | ⟨hhi, hold, heq⟩ | ⟨hb, hlo, hhi, heq⟩
  · rw [heq, if_pos (UInt64.lt_iff_toNat_lt.mpr hbad)]
    rfl
  · have hhi' : ¬ n > r.sendOffset := fun hgt => Nat.not_lt.mpr hhi (UInt64.lt_iff_toNat_lt.mp hgt)
    have hold' : r.broken = true ∨ n ≤ r.ackedOffset := hold.imp id UInt64.le_iff_toNat_le.mpr
    rw [heq, if_neg hhi', if_pos hold']
    rfl
  · have hhi' : ¬ n > r.sendOffset := fun hgt => Nat.not_lt.mpr hhi (UInt64.lt_iff_toNat_lt.mp hgt)
    have hlo' : r.ackedOffset.toNat < n.toNat := hlo
    have hend : r.ackedOffset.toNat + r.replay.length = r.sendOffset.toNat := h.replay_end hb
    have hle : n.toNat ≤ r.sendOffset.toNat := hhi
    have hold : ¬ (r.broken = true ∨ n ≤ r.ackedOffset) := by
      rintro (hbr | hn)
      · exact Bool.noConfusion (hbr.symm.trans hb)
      · exact absurd (UInt64.le_iff_toNat_le.mp hn) (Nat.not_le.mpr hlo')
    have hcur : (if r.sentCursor < n then n else r.sentCursor).toNat =
        max r.sentCursor.toNat n.toNat := by
      split
      next hlt => have := UInt64.lt_iff_toNat_lt.mp hlt; omega
      next hge => have := mt UInt64.lt_iff_toNat_lt.mpr hge; omega
    rw [heq, if_neg hhi', if_neg hold, toNat_sub_of_toNat_le (Nat.le_of_lt hlo'),
      sliceFrom_of_le (by omega)]
    simp only [Option.bind_eq_bind, Option.bind_some, Option.map_some, Prod.map, id, exact, hcur,
      Reliable.release]

theorem resumeOut_exact {r : Reliable64} (h : r.exact.Wf) (n : UInt64) :
    (r.resumeOut n).map (Prod.map id exact) = r.exact.resumeOut n.toNat := by
  have hiff : (r.broken = true ∨ n < r.ackedOffset ∨ n > r.sendOffset) ↔
      (r.exact.broken = true ∨ n.toNat < r.exact.ackedOffset ∨ n.toNat > r.exact.sendOffset) :=
    or_congr Iff.rfl (or_congr UInt64.lt_iff_toNat_lt UInt64.lt_iff_toNat_lt)
  unfold resumeOut
  rcases Reliable.resumeOut_spec h n.toNat with ⟨hno, heq⟩ | ⟨hb, hlo, hhi, heq⟩
  · rw [heq, if_pos (hiff.mpr hno)]
    rfl
  · have hlo' : r.ackedOffset.toNat ≤ n.toNat := hlo
    have hle : n.toNat ≤ r.sendOffset.toNat := hhi
    have hend : r.ackedOffset.toNat + r.replay.length = r.sendOffset.toNat := h.replay_end hb
    have hno : ¬ (r.exact.broken = true ∨ n.toNat < r.exact.ackedOffset ∨
        n.toNat > r.exact.sendOffset) := by
      rintro (hbr | hlt | hgt)
      · exact Bool.noConfusion (hbr.symm.trans hb)
      · exact absurd hlt (Nat.not_lt.mpr hlo)
      · exact absurd hgt (Nat.not_lt.mpr hhi)
    rw [heq, if_neg (mt hiff.mp hno), toNat_sub_of_toNat_le hlo', sliceFrom_of_le (by omega)]
    rfl

theorem takeAck_exact (r : Reliable64) :
    r.takeAck.1.map UInt64.toNat = r.exact.takeAck.1 ∧ r.takeAck.2.exact = r.exact.takeAck.2 := by
  unfold takeAck Reliable.takeAck
  by_cases heq : r.recvOffset = r.lastAck
  · have heq' : r.exact.recvOffset = r.exact.lastAck := congrArg UInt64.toNat heq
    rw [if_pos heq, if_pos heq']
    exact ⟨rfl, rfl⟩
  · have hne : ¬ r.exact.recvOffset = r.exact.lastAck := mt UInt64.toNat_inj.mp heq
    rw [if_neg heq, if_neg hne]
    exact ⟨rfl, rfl⟩

@[simp] theorem resetAck_exact (r : Reliable64) : r.resetAck.exact = r.exact.resetAck := rfl

theorem rewindToAcked_exact (r : Reliable64) : r.rewindToAcked.exact = r.exact.rewindToAcked := by
  unfold rewindToAcked Reliable.rewindToAcked
  rw [show r.exact.broken = r.broken from rfl]
  split <;> rfl

theorem control_exact {r : Reliable64} (h : r.exact.Wf) (c : Control64) :
    (r.control c).map exact = r.exact.control c.exact := by
  cases c with
  | ack n =>
    simp only [control, Control64.exact, Reliable.control, ← ack_exact h, Option.map_map]
    rfl
  | resumeOut n =>
    simp only [control, Control64.exact, Reliable.control, ← resumeOut_exact h, Option.map_map]
    rfl
  | rewindToAcked => exact congrArg some r.rewindToAcked_exact
  | markBroken => rfl
  | takeAck => exact congrArg some r.takeAck_exact.2
  | resetAck => rfl

theorem advance_exact {r : Reliable64} {call : NextOut} {out : BufferedPipe} (fired : Bool)
    (hroom : r.sendOffset.toNat + call.inHand.length < 2 ^ 64) :
    (advance fired call r out).map (Prod.map id (Prod.map exact id)) =
      Reliable.advance fired call r.exact out := by
  cases call with
  | entering dst => rfl
  | reading dst wait => rfl
  | taken bytes =>
    have hnum : (r.number bytes).exact = r.exact.number bytes := number_exact hroom
    simp only [advance, Reliable.advance, Option.map_some, Prod.map, id, hnum]
    rfl
  | returned res => rfl

/-- One region of a call either reads `out` and leaves the layer alone, or numbers the bytes in
hand. -/
theorem advance_cases {fired : Bool} {call call' : NextOut} {r r' : Reliable64}
    {out out' : BufferedPipe} (h : advance fired call r out = some (call', r', out')) :
    (∀ res, call ≠ .returned res) ∧
    ((r' = r ∧ call.inHand = [] ∧ ∀ res, call' = .returned res → res.bytes = []) ∨
      ∃ bs, call = .taken bs ∧ call' = .returned ⟨r.sendOffset.toNat, bs, none⟩ ∧
        r' = r.number bs) := by
  cases call with
  | entering dst =>
    cases h
    refine ⟨by simp, .inl ⟨rfl, rfl, ?_⟩⟩
    rcases Reliable.advance_cases (show Reliable.advance fired (.entering dst) r.exact out = _ from
      rfl) with ⟨_, _, _, _, hres⟩ | ⟨bs, hbs, _⟩
    · exact fun res hr => (hres res hr).2
    · cases hbs
  | reading dst wait =>
    cases h
    refine ⟨by simp, .inl ⟨rfl, rfl, ?_⟩⟩
    rcases Reliable.advance_cases (show Reliable.advance fired (.reading dst wait) r.exact out = _
      from rfl) with ⟨_, _, _, _, hres⟩ | ⟨bs, hbs, _⟩
    · exact fun res hr => (hres res hr).2
    · cases hbs
  | taken bs =>
    cases h
    exact ⟨by simp, .inr ⟨bs, rfl, rfl, rfl⟩⟩
  | returned res => cases h

end Reliable64

/-! ## Runs of the layer -/

namespace Reliable

/-- **What any operation but `nextOut` does to a layer**: it trims, keeps the settings, and a
layer that is broken afterwards has its cursor at its end, or was broken before and has its
cursor where it was. -/
structure Keeps (r r' : Reliable) : Prop where
  trims : r.Trims r'
  maxReplay : r'.maxReplay = r.maxReplay
  ackEager : r'.ackEager = r.ackEager
  cursor : r'.broken = true → r'.sentCursor = r'.sendOffset ∨
    (r.broken = true ∧ r'.sentCursor = r.sentCursor)

/-- A layer that changes neither the broken flag nor the cursor keeps the latter. -/
theorem Keeps.still {r r' : Reliable} (ht : r.Trims r') (hm : r'.maxReplay = r.maxReplay)
    (he : r'.ackEager = r.ackEager) (hb : r'.broken = r.broken)
    (hc : r'.sentCursor = r.sentCursor) : r.Keeps r' :=
  ⟨ht, hm, he, fun hbr => .inr ⟨hb ▸ hbr, hc⟩⟩

theorem Keeps.refl {r : Reliable} (h : r.Wf) : r.Keeps r := .still (.refl h) rfl rfl rfl rfl

theorem markBroken_keeps {r : Reliable} (h : r.Wf) : r.Keeps r.markBroken :=
  ⟨markBroken_trims h, rfl, rfl, fun _ => .inl rfl⟩

theorem control_keeps {r r' : Reliable} {c : Control} (h : r.Wf) (hc : r.control c = some r') :
    r.Keeps r' := by
  have ht := (control_trims h hc).1
  cases c with
  | ack n =>
    obtain ⟨⟨e, r''⟩, ha, rfl⟩ := Option.map_eq_some_iff.mp hc
    rcases ack_spec h n with ⟨_, heq⟩ | ⟨_, _, heq⟩ | ⟨hb, _, _, heq⟩
    · cases ha.symm.trans heq
      exact markBroken_keeps h
    · cases ha.symm.trans heq
      exact .refl h
    · cases ha.symm.trans heq
      exact ⟨ht, rfl, rfl, fun hbr => Bool.noConfusion (hbr.symm.trans hb)⟩
  | resumeOut n =>
    obtain ⟨⟨ok, r''⟩, ha, rfl⟩ := Option.map_eq_some_iff.mp hc
    rcases resumeOut_spec h n with ⟨_, heq⟩ | ⟨hb, _, _, heq⟩
    · cases ha.symm.trans heq
      exact .refl h
    · cases ha.symm.trans heq
      exact ⟨ht, rfl, rfl, fun hbr => Bool.noConfusion (hbr.symm.trans hb)⟩
  | rewindToAcked =>
    cases hc
    unfold rewindToAcked at ht ⊢
    split at ht
    next hb =>
      rw [if_pos hb]
      exact .refl h
    next hb =>
      rw [if_neg hb]
      exact ⟨ht, rfl, rfl, fun hbr => absurd hbr hb⟩
  | markBroken =>
    cases hc
    exact markBroken_keeps h
  | takeAck =>
    cases hc
    rw [(takeAck_spec r).2] at ht ⊢
    exact .still ht rfl rfl rfl rfl
  | resetAck =>
    cases hc
    exact .still ht rfl rfl rfl rfl

theorem recvIn_keeps {r : Reliable} {inp : BufferedPipe} {off : Nat} {p : Bytes} {res : Received}
    (h : r.Wf) (hr : r.recvIn inp off p = some res) :
    r.Keeps res.rl ∧ res.rl.recvOffset ≤ r.recvOffset + p.length := by
  have ht := recvIn_trims h hr
  rcases recvIn_spec h inp off p with ⟨_, heq⟩ | ⟨_, heq⟩ | ⟨_, _, _, heq⟩ | ⟨hlo, _, _, heq⟩
  · cases hr.symm.trans heq
    exact ⟨markBroken_keeps h, Nat.le_add_right _ _⟩
  · cases hr.symm.trans heq
    exact ⟨.refl h, Nat.le_add_right _ _⟩
  · cases hr.symm.trans heq
    exact ⟨.refl h, Nat.le_add_right _ _⟩
  · cases hr.symm.trans heq
    exact ⟨.still ht rfl rfl rfl rfl, Nat.add_le_add_right hlo _⟩

end Reliable

/-- The chunk a call hands to its transport, if it returned with bytes. -/
def NextOut.chunk : NextOut → List Chunk
  | .returned res => if res.bytes = [] then [] else [⟨res.off, res.bytes⟩]
  | _ => []

/-- A call hands out nothing, or the one chunk it returned with. -/
theorem NextOut.chunk_cases (call : NextOut) :
    (call.chunk = [] ∧ ∀ res, call = .returned res → res.bytes = []) ∨
      ∃ res, call = .returned res ∧ res.bytes ≠ [] ∧ call.chunk = [⟨res.off, res.bytes⟩] := by
  cases call with
  | returned res =>
    by_cases hnil : res.bytes = []
    · refine .inl ⟨if_pos hnil, ?_⟩
      intro res' hres
      cases hres
      exact hnil
    · exact .inr ⟨res, rfl, hnil, if_neg hnil⟩
  | entering dst => exact .inl ⟨rfl, fun _ hres => by cases hres⟩
  | reading dst wait => exact .inl ⟨rfl, fun _ hres => by cases hres⟩
  | taken bs => exact .inl ⟨rfl, fun _ hres => by cases hres⟩

/-- Each chunk begins where the one before it ended. -/
def Contiguous (cs : List Chunk) : Prop := cs.IsChain fun a b => a.off + a.bytes.length = b.off

/-- A chunk that starts at the end of the last one extends the sequence. -/
theorem Contiguous.snoc {cs : List Chunk} {c : Chunk} (h : Contiguous cs)
    (htip : ∀ d ∈ cs.getLast?, d.off + d.bytes.length = c.off) : Contiguous (cs ++ [c]) := by
  apply List.isChain_append.mpr
  refine ⟨h, .singleton c, ?_⟩
  intro d hd e he
  rw [List.head?_cons, Option.mem_some_iff] at he
  exact he ▸ htip d hd

/-- The last chunk after handing out one more. -/
theorem Contiguous.mem_getLast_snoc {cs : List Chunk} {c d : Chunk} (h : d ∈ (cs ++ [c]).getLast?) : d = c := by
  rw [List.getLast?_append_of_ne_nil _ (by simp), List.getLast?_singleton,
    Option.mem_some_iff] at h
  exact h.symm

/-- A layer with its pipes and its transport's call, what it has numbered and been sent so far,
and the chunks handed out since anything but `nextOut` last moved the cursor. -/
structure Layer64 where
  rl : Reliable64
  out : BufferedPipe := {}
  inp : BufferedPipe := {}
  call : Option NextOut := none
  numbered : Bytes := []
  received : Nat := 0
  handed : List Chunk := []
  deriving DecidableEq, Repr

/-- Everything that may happen to a layer, one lock region at a time. -/
inductive LayerOp
  | write (data : Bytes)
  | read (dst : Nat)
  | closeOut
  | closeIn
  | interruptOut
  | nextOut (dst : Nat)
  | advance (fired : Bool)
  | collect
  | recvIn (off : UInt64) (p : Bytes)
  | control (c : Control64)
  deriving DecidableEq, Repr

namespace Layer64

/-- Something other than `nextOut` leaves the layer at `rl`. If that moves the cursor, the chunks
handed out from now on are a new sequence. -/
def moved (s : Layer64) (rl : Reliable64) : Layer64 :=
  { s with
    rl := rl
    handed := if rl.sentCursor = s.rl.sentCursor then s.handed else [] }

/-- One region of one operation; `none` where it is not enabled or faults. -/
def step (s : Layer64) : LayerOp → Option Layer64
  | .write data =>
    match s.out.write data with
    | .error _ => some s
    | .ok out => some { s with out := out }
  | .read dst => (s.inp.read dst).map fun res => { s with inp := res.2 }
  | .closeOut => some { s with out := s.out.close }
  | .closeIn => some { s with inp := s.inp.close }
  | .interruptOut => some { s with out := s.out.interrupt }
  | .nextOut dst =>
    if s.call = none then
      (s.rl.nextOutStart dst).map fun res =>
        { s with call := some res.1, rl := res.2, handed := s.handed ++ res.1.chunk }
    else none
  | .advance fired => do
    let call ← s.call
    let (call', rl, out) ← Reliable64.advance fired call s.rl s.out
    some { s with
      call := some call'
      rl := rl
      out := out
      numbered := s.numbered ++ call.inHand
      handed := s.handed ++ call'.chunk }
  | .collect =>
    match s.call with
    | some (.returned _) => some { s with call := none }
    | _ => none
  | .recvIn off p =>
    (s.rl.recvIn s.inp off p).map fun res =>
      { s.moved res.rl with inp := res.inp, received := s.received + p.length }
  | .control c => (s.rl.control c).map s.moved

/-- The runs of a layer made by `newReliable` with any replay bound. -/
def machine (maxReplay : Int64) (eager : Bool) : Machine Layer64 LayerOp where
  init := { rl := .new maxReplay eager }
  step := step

/-- The operations that touch the pipes alone. -/
def aside : LayerOp → Bool
  | .write _ | .read _ | .closeOut | .closeIn | .interruptOut => true
  | _ => false

/-- **What one operation does.** -/
inductive Moves (s : Layer64) : LayerOp → Layer64 → Prop
  | aside {op : LayerOp} {out inp : BufferedPipe} (hop : aside op = true) :
      Moves s op { s with out := out, inp := inp }
  | nextOut {dst : Nat} {call : NextOut} {rl : Reliable64} (hidle : s.call = none)
      (hstart : s.rl.nextOutStart dst = some (call, rl)) :
      Moves s (.nextOut dst)
        { s with call := some call, rl := rl, handed := s.handed ++ call.chunk }
  | advance {fired : Bool} {call call' : NextOut} {rl : Reliable64} {out : BufferedPipe}
      (hcall : s.call = some call)
      (hadv : Reliable64.advance fired call s.rl s.out = some (call', rl, out)) :
      Moves s (.advance fired) { s with
        call := some call'
        rl := rl
        out := out
        numbered := s.numbered ++ call.inHand
        handed := s.handed ++ call'.chunk }
  | collect {res : NextResult} (hcall : s.call = some (.returned res)) :
      Moves s .collect { s with call := none }
  | recvIn {off : UInt64} {p : Bytes} {res : Received64}
      (hres : s.rl.recvIn s.inp off p = some res) :
      Moves s (.recvIn off p)
        { s.moved res.rl with inp := res.inp, received := s.received + p.length }
  | control {c : Control64} {rl : Reliable64} (hc : s.rl.control c = some rl) :
      Moves s (.control c) (s.moved rl)

theorem moves_of_step {s s' : Layer64} {op : LayerOp} (hs : s.step op = some s') :
    Moves s op s' := by
  cases op with
  | write data =>
    simp only [step] at hs
    split at hs <;> cases hs <;> exact .aside rfl
  | read dst =>
    obtain ⟨res, _, rfl⟩ := Option.map_eq_some_iff.mp hs
    exact .aside rfl
  | closeOut => cases hs; exact .aside rfl
  | closeIn => cases hs; exact .aside rfl
  | interruptOut => cases hs; exact .aside rfl
  | nextOut dst =>
    simp only [step] at hs
    split at hs
    next hidle =>
      obtain ⟨⟨call, rl⟩, hstart, rfl⟩ := Option.map_eq_some_iff.mp hs
      exact .nextOut hidle hstart
    next => cases hs
  | advance fired =>
    simp only [step, Option.bind_eq_bind, Option.bind_eq_some_iff] at hs
    obtain ⟨call, hcall, ⟨call', rl, out⟩, hadv, heq⟩ := hs
    cases heq
    exact .advance hcall hadv
  | collect =>
    simp only [step] at hs
    split at hs
    next hcall => cases hs; exact .collect hcall
    next => cases hs
  | recvIn off p =>
    obtain ⟨res, hres, rfl⟩ := Option.map_eq_some_iff.mp hs
    exact .recvIn hres
  | control c =>
    obtain ⟨rl, hc, rfl⟩ := Option.map_eq_some_iff.mp hs
    exact .control hc

/-- **What holds in every run.** `tip` and `waiting` say where the next chunk will start: at the
cursor, which a call that is about to read `out` finds at the layer's end. -/
structure Inv (s : Layer64) : Prop where
  wf : s.rl.exact.Wf
  bound : s.rl.maxReplay < 2 ^ 63
  eager : s.rl.ackEager < 2 ^ 64
  sent : s.rl.sendOffset.toNat = s.numbered.length
  retained : s.rl.broken = false → s.rl.replay = s.numbered.drop s.rl.ackedOffset.toNat
  trailing : s.rl.broken = true → s.rl.sentCursor = s.rl.sendOffset
  heard : s.rl.recvOffset.toNat ≤ s.received
  chain : Contiguous s.handed
  tip : ∀ c ∈ s.handed.getLast?, c.off + c.bytes.length = s.rl.sentCursor.toNat
  waiting : ∀ call, s.call = some call → (∀ res, call ≠ .returned res) → s.handed ≠ [] →
    s.rl.sentCursor = s.rl.sendOffset

theorem Inv.init (maxReplay : Int64) (eager : Bool) : Inv (machine maxReplay eager).init where
  wf := by
    show (Reliable64.new maxReplay eager).exact.Wf
    have h := Reliable.new_wf maxReplay.toInt
    rw [Reliable64.new_exact]
    cases eager with
    | true => exact h
    | false =>
      exact ⟨h.acked_le, h.cursor_le, h.replay_end, h.replay_le, h.replay_nil, h.lastAck_le⟩
  bound := by
    have hlt := maxReplay.toInt_lt
    show (if maxReplay.toInt ≤ 0 then defaultMaxReplayBytes else maxReplay.toInt.toNat) < 2 ^ 63
    split
    · decide
    · omega
  eager := by
    show (if eager then ackEagerBytes else 0) < 2 ^ 64
    split <;> decide
  sent := rfl
  retained := fun _ => rfl
  trailing := fun _ => rfl
  heard := Nat.le_refl _
  chain := .nil
  tip := fun _ hc => by cases hc
  waiting := fun _ hc => by cases hc

variable {s s' : Layer64}

/-- The pipes may change freely, and a call that has returned may be collected. -/
theorem Inv.congr (h : Inv s) (hrl : s'.rl = s.rl) (hnum : s'.numbered = s.numbered)
    (hrecv : s'.received = s.received) (hhand : s'.handed = s.handed)
    (hcall : s'.call = s.call ∨ s'.call = none) : Inv s' where
  wf := hrl ▸ h.wf
  bound := hrl ▸ h.bound
  eager := hrl ▸ h.eager
  sent := by rw [hrl, hnum]; exact h.sent
  retained := by rw [hrl, hnum]; exact h.retained
  trailing := hrl ▸ h.trailing
  heard := by rw [hrl, hrecv]; exact h.heard
  chain := hhand ▸ h.chain
  tip := by rw [hhand, hrl]; exact h.tip
  waiting := by
    intro call hc hnr hne
    rcases hcall with hsame | hnone
    · rw [hrl]
      exact h.waiting call (hsame ▸ hc) hnr (hhand ▸ hne)
    · rw [hnone] at hc
      cases hc

/-- Anything that keeps the layer in the sense of `Keeps` keeps the invariant. -/
theorem Inv.moved (h : Inv s) {rl : Reliable64} {inp : BufferedPipe} {n : Nat}
    (hk : s.rl.exact.Keeps rl.exact) (hrecv : rl.recvOffset.toNat ≤ n) :
    Inv { s.moved rl with inp := inp, received := n } := by
  have hsend : rl.sendOffset = s.rl.sendOffset := UInt64.toNat_inj.mp hk.trims.sendOffset
  have hsame : (s.moved rl).handed ≠ [] →
      rl.sentCursor = s.rl.sentCursor ∧ (s.moved rl).handed = s.handed := by
    intro hne
    unfold Layer64.moved at hne ⊢
    by_cases hc : rl.sentCursor = s.rl.sentCursor
    · exact ⟨hc, if_pos hc⟩
    · exact absurd (if_neg hc) hne
  refine ⟨hk.trims.wf, ?bound, ?eager, ?sent, ?retained, ?trailing, hrecv, ?chain, ?tip, ?waiting⟩
  case bound => exact Nat.lt_of_le_of_lt (Nat.le_of_eq hk.maxReplay) h.bound
  case eager => exact Nat.lt_of_le_of_lt (Nat.le_of_eq hk.ackEager) h.eager
  case sent => exact (congrArg UInt64.toNat hsend).trans h.sent
  case retained =>
    intro hb
    obtain ⟨hb0, hle, hdrop⟩ := hk.trims.kept hb
    have hle' : s.rl.ackedOffset.toNat ≤ rl.ackedOffset.toNat := hle
    have hdrop' : rl.replay =
        s.rl.replay.drop (rl.ackedOffset.toNat - s.rl.ackedOffset.toNat) := hdrop
    show rl.replay = s.numbered.drop rl.ackedOffset.toNat
    rw [hdrop', h.retained hb0, List.drop_drop]
    congr 1
    omega
  case trailing =>
    intro hb
    show rl.sentCursor = rl.sendOffset
    rcases hk.cursor hb with hend | ⟨hb0, hcur⟩
    · exact UInt64.toNat_inj.mp hend
    · rw [UInt64.toNat_inj.mp hcur, hsend]
      exact h.trailing hb0
  case chain =>
    by_cases hne : (s.moved rl).handed = []
    · show Contiguous (s.moved rl).handed
      rw [hne]
      exact .nil
    · show Contiguous (s.moved rl).handed
      rw [(hsame hne).2]
      exact h.chain
  case tip =>
    intro c hc
    have hc' : c ∈ (s.moved rl).handed.getLast? := hc
    by_cases hne : (s.moved rl).handed = []
    · rw [hne] at hc'
      cases hc'
    · rw [(hsame hne).2] at hc'
      show c.off + c.bytes.length = rl.sentCursor.toNat
      rw [(hsame hne).1]
      exact h.tip c hc'
  case waiting =>
    intro call hcall hnr hne
    have hne' : (s.moved rl).handed ≠ [] := hne
    show rl.sentCursor = rl.sendOffset
    rw [(hsame hne').1, hsend]
    exact h.waiting call hcall hnr ((hsame hne').2 ▸ hne')

/-- Handing out what a call returned with: it starts at the cursor if anything was handed out
before it, and ends where the layer leaves the cursor. -/
theorem Inv.hand (h : Inv s) (call : NextOut) (rl : Reliable64)
    (hsome : ∀ res, call = .returned res → res.bytes ≠ [] →
      (s.handed ≠ [] → res.off = s.rl.sentCursor.toNat) ∧
        res.off + res.bytes.length = rl.sentCursor.toNat)
    (hnone : (∀ res, call = .returned res → res.bytes = []) → s.handed ≠ [] →
      rl.sentCursor = s.rl.sentCursor) :
    Contiguous (s.handed ++ call.chunk) ∧
      ∀ c ∈ (s.handed ++ call.chunk).getLast?, c.off + c.bytes.length = rl.sentCursor.toNat := by
  rcases call.chunk_cases with ⟨hnil, hempty⟩ | ⟨res, hres, hne, hchunk⟩
  · rw [hnil, List.append_nil]
    refine ⟨h.chain, ?_⟩
    intro c hc
    rw [hnone hempty (List.ne_nil_of_mem (List.mem_of_getLast? hc))]
    exact h.tip c hc
  · obtain ⟨hoff, hend⟩ := hsome res hres hne
    rw [hchunk]
    constructor
    · apply h.chain.snoc
      intro d hd
      rw [h.tip d hd]
      exact (hoff (List.ne_nil_of_mem (List.mem_of_getLast? hd))).symm
    · intro d hd
      rw [Contiguous.mem_getLast_snoc hd]
      exact hend

/-- Starting a call: pending replay leaves from the cursor, or the call goes on to read. -/
theorem Inv.nextOut (h : Inv s) {dst : Nat} {call : NextOut} {rl : Reliable64}
    (hstart : s.rl.nextOutStart dst = some (call, rl)) :
    Inv { s with call := some call, rl := rl, handed := s.handed ++ call.chunk } := by
  rcases Reliable64.nextOutStart_spec h.wf h.bound dst with
    ⟨bytes, hb, _, hbytes, hsum, heq⟩ | ⟨hno, heq⟩
  · cases hstart.symm.trans heq
    have hwf : Reliable.Wf (Reliable64.exact
        { s.rl with sentCursor := s.rl.sentCursor + UInt64.ofNat bytes.length }) := by
      have hreplays := h.wf.replays hb dst
      simp only [Reliable64.exact] at hreplays ⊢
      rwa [hsum, hbytes]
    obtain ⟨hchain, htip⟩ := h.hand (.returned ⟨s.rl.sentCursor.toNat, bytes, none⟩)
      { s.rl with sentCursor := s.rl.sentCursor + UInt64.ofNat bytes.length }
      (by
        intro res hres _
        cases hres
        exact ⟨fun _ => rfl, hsum.symm⟩)
      (by
        intro hempty _
        have hnil : bytes = [] := hempty _ rfl
        subst hnil
        exact UInt64.toNat_inj.mp hsum)
    exact ⟨hwf, h.bound, h.eager, h.sent, h.retained,
      fun hbr => Bool.noConfusion (hb.symm.trans hbr), h.heard, hchain, htip,
      fun call hc hnr => absurd (Option.some.inj hc).symm (hnr _)⟩
  · cases hstart.symm.trans heq
    have hend : s.rl.sentCursor = s.rl.sendOffset := hno.elim h.trailing id
    refine ⟨h.wf, h.bound, h.eager, h.sent, h.retained, h.trailing, h.heard, ?_, ?_,
      fun _ _ _ _ => hend⟩
    · show Contiguous (s.handed ++ [])
      rw [List.append_nil]
      exact h.chain
    · show ∀ c ∈ (s.handed ++ []).getLast?, _
      rw [List.append_nil]
      exact h.tip

/-- Moving a call across one region: what it numbers joins `numbered`, and its chunk follows the
last one handed out, whether or not the numbering breaks the layer. -/
theorem Inv.advance (h : Inv s) {fired : Bool} {call call' : NextOut} {rl : Reliable64}
    {out : BufferedPipe} (hcall : s.call = some call)
    (hadv : Reliable64.advance fired call s.rl s.out = some (call', rl, out))
    (hroom : (s.numbered ++ call.inHand).length < 2 ^ 64) :
    Inv { s with
      call := some call'
      rl := rl
      out := out
      numbered := s.numbered ++ call.inHand
      handed := s.handed ++ call'.chunk } := by
  obtain ⟨hnr, ⟨rfl, hnone, hres⟩ | ⟨bs, rfl, rfl, rfl⟩⟩ := Reliable64.advance_cases hadv
  · -- the call read `out`, or found nothing there
    obtain ⟨hchain, htip⟩ := h.hand call' s.rl
      (fun res hr hne => absurd (hres res hr) hne) (fun _ _ => rfl)
    refine ⟨h.wf, h.bound, h.eager, ?_, ?_, h.trailing, h.heard, hchain, htip, ?_⟩
    · show s.rl.sendOffset.toNat = (s.numbered ++ call.inHand).length
      rw [hnone, List.append_nil]
      exact h.sent
    · show s.rl.broken = false → s.rl.replay = (s.numbered ++ call.inHand).drop _
      rw [hnone, List.append_nil]
      exact h.retained
    · intro call'' hc hnr' hne
      cases hc
      apply h.waiting call hcall hnr
      rcases call'.chunk_cases with ⟨hnil, _⟩ | ⟨res, hr, _, _⟩
      · simpa only [hnil, List.append_nil] using hne
      · exact absurd hr (hnr' res)
  · have hlen : s.rl.sendOffset.toNat + bs.length < 2 ^ 64 := by
      have hroom' : (s.numbered ++ bs).length < 2 ^ 64 := hroom
      rw [List.length_append] at hroom'
      rw [h.sent]
      exact hroom'
    have hexact := Reliable64.number_exact hlen
    obtain ⟨hsend, hcur, hrecv, _⟩ := s.rl.exact.number_offsets bs
    rw [← hexact] at hsend hcur hrecv
    have hsend' : (s.rl.number bs).sendOffset.toNat = s.rl.sendOffset.toNat + bs.length := hsend
    have hcur' : (s.rl.number bs).sentCursor.toNat = s.rl.sendOffset.toNat + bs.length := hcur
    have hkeep := s.rl.number_settings bs
    obtain ⟨hchain, htip⟩ := h.hand (.returned ⟨s.rl.sendOffset.toNat, bs, none⟩) (s.rl.number bs)
      (by
        intro res hr _
        cases hr
        exact ⟨fun hne => congrArg UInt64.toNat (h.waiting _ hcall hnr hne).symm, hcur'.symm⟩)
      (by
        intro hempty hne
        have hnil : bs = [] := hempty _ rfl
        subst hnil
        rw [h.waiting _ hcall hnr hne]
        exact UInt64.toNat_inj.mp hcur')
    refine ⟨hexact ▸ h.wf.number bs, hkeep.1 ▸ h.bound, hkeep.2.1 ▸ h.eager, ?_, ?_, ?_, ?_, hchain,
      htip, ?_⟩
    · show (s.rl.number bs).sendOffset.toNat = (s.numbered ++ bs).length
      rw [hsend', List.length_append, h.sent]
    · intro hb
      have hb' : (s.rl.exact.number bs).broken = false := hexact ▸ hb
      obtain ⟨hb0, _, hacked, hreplay⟩ := Reliable.number_unbroken hb'
      rw [← hexact] at hacked hreplay
      have hle : s.rl.ackedOffset.toNat ≤ s.numbered.length := by
        rw [← h.sent]
        exact Nat.le_trans h.wf.acked_le h.wf.cursor_le
      have hacked' : (s.rl.number bs).ackedOffset.toNat = s.rl.ackedOffset.toNat := hacked
      have hreplay' : (s.rl.number bs).replay = s.rl.replay ++ bs := hreplay
      show (s.rl.number bs).replay = (s.numbered ++ bs).drop (s.rl.number bs).ackedOffset.toNat
      rw [hreplay', hacked', h.retained hb0, List.drop_append_of_le_length hle]
    · intro _
      exact UInt64.toNat_inj.mp (hcur'.trans hsend'.symm)
    · exact Nat.le_trans (Nat.le_of_eq hrecv) h.heard
    · intro call'' hc hnr'
      exact absurd (Option.some.inj hc).symm (hnr' _)

/-- No step takes back a numbered byte or a received one. -/
theorem step_mono {op : LayerOp} (hs : s.step op = some s') :
    s.numbered.length ≤ s'.numbered.length ∧ s.received ≤ s'.received := by
  cases moves_of_step hs with
  | aside | nextOut | collect | control => exact ⟨Nat.le_refl _, Nat.le_refl _⟩
  | advance => exact ⟨(List.prefix_append _ _).length_le, Nat.le_refl _⟩
  | recvIn => exact ⟨Nat.le_refl _, Nat.le_add_right _ _⟩

/-- **Every operation with every argument keeps the invariant** while the counts stay below
2^64. -/
theorem Inv.step (h : Inv s) {op : LayerOp} (hs : s.step op = some s')
    (hsent : s'.numbered.length < 2 ^ 64) (hrecv : s'.received < 2 ^ 64) : Inv s' := by
  cases moves_of_step hs with
  | aside => exact h.congr rfl rfl rfl rfl (.inl rfl)
  | nextOut _ hstart => exact h.nextOut hstart
  | advance hcall hadv => exact h.advance hcall hadv hsent
  | collect => exact h.congr rfl rfl rfl rfl (.inr rfl)
  | @recvIn off p res hres =>
    have hroom : s.rl.recvOffset.toNat + p.length < 2 ^ 64 :=
      Nat.lt_of_le_of_lt (Nat.add_le_add_right h.heard _) hrecv
    have hexact := Reliable64.recvIn_exact h.wf h.eager s.inp off hroom
    rw [hres, Option.map_some] at hexact
    obtain ⟨hkeeps, hle⟩ := Reliable.recvIn_keeps h.wf hexact.symm
    exact h.moved hkeeps (Nat.le_trans hle (Nat.add_le_add_right h.heard _))
  | @control c rl hc =>
    have hexact := Reliable64.control_exact h.wf c
    rw [hc, Option.map_some] at hexact
    have hrecvOffset := (Reliable.control_trims h.wf hexact.symm).2
    exact h.moved (Reliable.control_keeps h.wf hexact.symm)
      (Nat.le_trans (Nat.le_of_eq hrecvOffset) h.heard)

/-- The invariant holds wherever a run gets with fewer than 2^64 bytes each way. -/
theorem Inv.reachable {maxReplay : Int64} {eager : Bool} (h : (machine maxReplay eager).Reachable s)
    (hsent : s.numbered.length < 2 ^ 64) (hrecv : s.received < 2 ^ 64) : Inv s := by
  refine Machine.Reach.invariant
    (P := fun s => s.numbered.length < 2 ^ 64 → s.received < 2 ^ 64 → Inv s)
    (fun _ _ => .init maxReplay eager) ?_ h hsent hrecv
  intro s op s' _ ih _ hs hsent hrecv
  have hmono := step_mono hs
  exact (ih (by omega) (by omega)).step hs hsent hrecv

/-- A step changes the replay bound never and the broken flag only to true. -/
theorem Inv.step_frame (h : Inv s) {op : LayerOp} (hs : s.step op = some s') :
    s'.rl.maxReplay = s.rl.maxReplay ∧ (s.rl.broken = true → s'.rl.broken = true) := by
  cases moves_of_step hs with
  | aside | collect => exact ⟨rfl, id⟩
  | @nextOut dst _ _ _ hstart =>
    rcases Reliable64.nextOutStart_spec h.wf h.bound dst with ⟨_, _, _, _, _, heq⟩ | ⟨_, heq⟩
    all_goals
      cases hstart.symm.trans heq
      exact ⟨rfl, id⟩
  | advance _ hadv =>
    obtain ⟨_, ⟨rfl, _, _⟩ | ⟨bs, _, _, rfl⟩⟩ := Reliable64.advance_cases hadv
    · exact ⟨rfl, id⟩
    · exact ⟨(s.rl.number_settings bs).1, (s.rl.number_settings bs).2.2⟩
  | recvIn hres =>
    have hframe := Reliable64.recvIn_frame hres
    exact ⟨hframe.1, hframe.2.1⟩
  | @control c rl hc =>
    have hexact := Reliable64.control_exact h.wf c
    rw [hc, Option.map_some] at hexact
    have hkeeps := Reliable.control_keeps h.wf hexact.symm
    refine ⟨hkeeps.maxReplay, fun hbr => ?_⟩
    cases hb : rl.broken with
    | true => exact hb
    | false => exact Bool.noConfusion (hbr.symm.trans (hkeeps.trims.kept hb).1)

/-- The replay bound is the one the layer was made with. -/
theorem maxReplay_reachable {maxReplay : Int64} {eager : Bool}
    (h : (machine maxReplay eager).Reachable s) (hsent : s.numbered.length < 2 ^ 64)
    (hrecv : s.received < 2 ^ 64) : s.rl.maxReplay = (Reliable64.new maxReplay eager).maxReplay := by
  refine Machine.Reach.invariant (P := fun s => s.numbered.length < 2 ^ 64 → s.received < 2 ^ 64 →
    s.rl.maxReplay = (Reliable64.new maxReplay eager).maxReplay) (fun _ _ => rfl) ?_ h hsent hrecv
  intro s op s' hr ih _ hs hsent hrecv
  have hmono := step_mono hs
  have hinv : Inv s := .reachable hr (by omega) (by omega)
  rw [(hinv.step_frame hs).1]
  exact ih (by omega) (by omega)

/-- **What a layer promises in every state of a run.** The offsets are ordered; an unbroken layer
retains exactly the bytes numbered from `ackedOffset` on, a broken one nothing; a break is for
good. Every operation answers, and as it would in exact arithmetic, where a subtraction below zero
faults: no index is out of range and nothing wraps. What is refused changes nothing. The chunks
handed out are contiguous, and an overflow that breaks the layer adds the next one to them. -/
structure Coherent (s : Layer64) : Prop where
  acked_le : s.rl.ackedOffset ≤ s.rl.sentCursor
  cursor_le : s.rl.sentCursor ≤ s.rl.sendOffset
  lastAck_le : s.rl.lastAck ≤ s.rl.recvOffset
  unbroken : s.rl.broken = false →
    s.rl.replay = s.numbered.drop s.rl.ackedOffset.toNat ∧ s.rl.replay.length ≤ s.rl.maxReplay
  sent : s.rl.sendOffset.toNat = s.numbered.length
  broken : s.rl.broken = true → s.rl.replay = []
  forGood : s.rl.broken = true → ∀ op s', s.step op = some s' → s'.rl.broken = true
  nextOut : ∀ dst, ∃ call r, s.rl.nextOutStart dst = some (call, r) ∧
    s.rl.exact.nextOutStart dst = some (call, r.exact)
  number : ∀ bytes, s.numbered.length + bytes.length < 2 ^ 64 →
    (s.rl.number bytes).exact = s.rl.exact.number bytes
  recvIn : ∀ off p, s.received + p.length < 2 ^ 64 → ∃ res, s.rl.recvIn s.inp off p = some res ∧
    s.rl.exact.recvIn s.inp off.toNat p = some res.exact
  ack : ∀ n, ∃ e r, s.rl.ack n = some (e, r) ∧ s.rl.exact.ack n.toNat = some (e, r.exact)
  resumeOut : ∀ n, ∃ ok r, s.rl.resumeOut n = some (ok, r) ∧
    s.rl.exact.resumeOut n.toNat = some (ok, r.exact)
  refused : ∀ n r, s.rl.resumeOut n = some (false, r) → r = s.rl
  oldAck : ∀ n, n ≤ s.rl.ackedOffset → s.rl.ack n = some (none, s.rl)
  closedIn : ∀ off p res, s.rl.recvIn s.inp off p = some res → res.err = some .closedPipe →
    res.rl = s.rl ∧ res.inp = s.inp
  contiguous : Contiguous s.handed
  overflow : ∀ fired s', s.step (.advance fired) = some s' → s.rl.broken = false →
    s'.rl.broken = true → ∃ bs, bs ≠ [] ∧ s.call = some (.taken bs) ∧
      s'.handed = s.handed ++ [⟨s.rl.sendOffset.toNat, bs⟩] ∧ Contiguous s'.handed ∧
      s'.rl.sentCursor = s'.rl.sendOffset

/-- A word-level operation whose exact counterpart answers gives the same answer. -/
theorem answers {α : Type} {x : Option (α × Reliable64)} {y : Option (α × Reliable)}
    (hexact : x.map (Prod.map id Reliable64.exact) = y) (hsome : y.isSome) :
    ∃ a r, x = some (a, r) ∧ y = some (a, r.exact) := by
  cases x with
  | none =>
    rw [← hexact] at hsome
    cases hsome
  | some res => exact ⟨res.1, res.2, rfl, hexact.symm⟩

/-- Numbering more than the replay buffer holds hands out the next chunk all the same. -/
theorem Inv.overflow (h : Inv s) {fired : Bool} (hs : s.step (.advance fired) = some s')
    (hb : s.rl.broken = false) (hbr : s'.rl.broken = true) :
    ∃ bs, bs ≠ [] ∧ s.call = some (.taken bs) ∧
      s'.handed = s.handed ++ [⟨s.rl.sendOffset.toNat, bs⟩] ∧ Contiguous s'.handed ∧
      s'.rl.sentCursor = s'.rl.sendOffset := by
  cases moves_of_step hs with
  | aside hop => cases hop
  | advance hcall hadv =>
    obtain ⟨hnr, ⟨rfl, _, _⟩ | ⟨bs, rfl, rfl, rfl⟩⟩ := Reliable64.advance_cases hadv
    · exact Bool.noConfusion (hb.symm.trans hbr)
    · have hover : (s.rl.replay ++ bs).length > s.rl.maxReplay := by
        apply Nat.lt_of_not_le
        intro hfit
        have hbr' : (s.rl.number bs).broken = true := hbr
        rw [Reliable64.number, if_neg (by rw [hb]; decide), if_neg (Nat.not_lt.mpr hfit)] at hbr'
        exact Bool.noConfusion (hb.symm.trans hbr')
      have hne : bs ≠ [] := by
        rintro rfl
        rw [List.append_nil] at hover
        exact absurd h.wf.replay_le (Nat.not_le.mpr hover)
      have hchunk : (NextOut.returned ⟨s.rl.sendOffset.toNat, bs, none⟩).chunk =
          [⟨s.rl.sendOffset.toNat, bs⟩] := if_neg hne
      refine ⟨bs, hne, hcall, by rw [hchunk], ?_, ?_⟩
      · show Contiguous (s.handed ++ (NextOut.returned ⟨s.rl.sendOffset.toNat, bs, none⟩).chunk)
        rw [hchunk]
        apply h.chain.snoc
        intro d hd
        rw [h.tip d hd, h.waiting _ hcall hnr (List.ne_nil_of_mem (List.mem_of_getLast? hd))]
      · show (s.rl.number bs).sentCursor = (s.rl.number bs).sendOffset
        rw [Reliable64.number, if_neg (by rw [hb]; decide), if_pos hover]
        rfl

theorem Inv.coherent (h : Inv s) : Coherent s where
  acked_le := UInt64.le_iff_toNat_le.mpr h.wf.acked_le
  cursor_le := UInt64.le_iff_toNat_le.mpr h.wf.cursor_le
  lastAck_le := UInt64.le_iff_toNat_le.mpr h.wf.lastAck_le
  unbroken := fun hb => ⟨h.retained hb, h.wf.replay_le⟩
  sent := h.sent
  broken := h.wf.replay_nil
  forGood := fun hbr _ _ hs => (h.step_frame hs).2 hbr
  nextOut := by
    intro dst
    apply answers (Reliable64.nextOutStart_exact h.wf h.bound dst)
    rcases Reliable.nextOutStart_spec h.wf dst with ⟨_, _, heq⟩ | ⟨_, heq⟩ <;> rw [heq] <;> rfl
  number := fun bytes hroom => Reliable64.number_exact (h.sent ▸ hroom)
  recvIn := by
    intro off p hroom
    have hroom' : s.rl.recvOffset.toNat + p.length < 2 ^ 64 :=
      Nat.lt_of_le_of_lt (Nat.add_le_add_right h.heard _) hroom
    have hexact := Reliable64.recvIn_exact h.wf h.eager s.inp off hroom'
    cases hres : s.rl.recvIn s.inp off p with
    | none =>
      rw [hres] at hexact
      rcases Reliable.recvIn_spec h.wf s.inp off.toNat p with
        ⟨_, heq⟩ | ⟨_, heq⟩ | ⟨_, _, _, heq⟩ | ⟨_, _, _, heq⟩
      all_goals cases hexact.trans heq
    | some res =>
      rw [hres] at hexact
      exact ⟨res, rfl, hexact.symm⟩
  ack := by
    intro n
    apply answers (Reliable64.ack_exact h.wf n)
    rcases Reliable.ack_spec h.wf n.toNat with ⟨_, heq⟩ | ⟨_, _, heq⟩ | ⟨_, _, _, heq⟩ <;>
      rw [heq] <;> rfl
  resumeOut := by
    intro n
    apply answers (Reliable64.resumeOut_exact h.wf n)
    rcases Reliable.resumeOut_spec h.wf n.toNat with ⟨_, heq⟩ | ⟨_, _, _, heq⟩ <;> rw [heq] <;> rfl
  refused := by
    intro n r hr
    unfold Reliable64.resumeOut at hr
    split at hr
    · cases hr
      rfl
    · obtain ⟨replay, _, hrest⟩ := Option.bind_eq_some_iff.mp hr
      cases hrest
  oldAck := by
    intro n hn
    have hle : ¬ n > s.rl.sendOffset := by
      have hacked : s.rl.ackedOffset.toNat ≤ s.rl.sendOffset.toNat :=
        Nat.le_trans h.wf.acked_le h.wf.cursor_le
      have hn' := UInt64.le_iff_toNat_le.mp hn
      intro hgt
      have hgt' := UInt64.lt_iff_toNat_lt.mp hgt
      omega
    rw [Reliable64.ack, if_neg hle, if_pos (.inr hn)]
  closedIn := fun off p res hres => (Reliable64.recvIn_frame hres).2.2
  contiguous := h.chain
  overflow := fun fired s' hs => h.overflow hs

/-- **The representation invariant of the layer, on its own words**: it holds after every sequence
of operations with every argument, hostile offsets up to 2^64 - 1 included, in which fewer than
2^64 bytes are numbered and fewer than 2^64 arrive. -/
theorem coherent_of_reachable (maxReplay : Int64) (eager : Bool)
    (h : (machine maxReplay eager).Reachable s) (hsent : s.numbered.length < 2 ^ 64)
    (hrecv : s.received < 2 ^ 64) :
    s.rl.maxReplay = (Reliable64.new maxReplay eager).maxReplay ∧ s.Coherent :=
  ⟨maxReplay_reachable h hsent hrecv, (Inv.reachable h hsent hrecv).coherent⟩

/-- A run with hostile offsets: five bytes are numbered, an ack takes two of them, a resume asks
for the last word's offset and is refused, a resume to 3 rewinds, and the replay of the last two
bytes starts at 3. -/
def hostileRun : List LayerOp :=
  [.write [1, 2, 3, 4, 5], .nextOut 8, .advance false, .advance true, .advance false, .collect,
    .control (.ack 2), .control (.resumeOut 18446744073709551615), .control (.resumeOut 3),
    .nextOut 8]

theorem coherent_hostileRun :
    ((machine 8 true).final hostileRun).rl.ackedOffset = 3 ∧
      ((machine 8 true).final hostileRun).handed = [⟨3, [4, 5]⟩] ∧
      ((machine 8 true).final hostileRun).Coherent :=
  ⟨by decide, by decide, (coherent_of_reachable 8 true (Machine.reachable_final _ _) (by decide)
    (by decide)).2⟩

end Layer64

end Pollmux
