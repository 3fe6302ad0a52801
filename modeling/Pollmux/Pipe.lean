import Mathlib.Data.List.Basic

/-!
# The buffered pipe

`BufferedPipe` (`pipe.go`) carries bytes between a handler and the application.
`Write` appends and never blocks; `ReadAvailable` is the long-poll primitive.

Every operation of the source runs under the pipe's mutex except where a reader
sleeps on the condition variable, so a call of `ReadAvailable` is a little
machine of its own: `enter` is what it does from its first lock to its first
sleep or its return, and `resume` is what it does when it wakes. Between the two
any other operation may run. A timer is a flag that `Parked.fire` sets at any
moment; durations do not appear.

The one fact the layers above use is `Reads`: whatever a reader does, the bytes
it hands out followed by the bytes it leaves are the bytes that were there.
-/

namespace Pollmux

abbrev Bytes := List UInt8

/-- The error values that the modelled code returns and compares. -/
inductive Err
  /-- `io.EOF`. -/
  | eof
  /-- `io.ErrUnexpectedEOF`. -/
  | unexpectedEOF
  /-- `io.ErrClosedPipe`. -/
  | closedPipe
  /-- `errPipeInterrupted`. -/
  | pipeInterrupted
  /-- `errReplayGap`. -/
  | replayGap
  /-- `errBadAck`. -/
  | badAck
  deriving DecidableEq, Repr

/-- What `Error()` answers. -/
def Err.text : Err → String
  | .eof => "EOF"
  | .unexpectedEOF => "unexpected EOF"
  | .closedPipe => "io: read/write on closed pipe"
  | .pipeInterrupted => "pollmux: pipe wait interrupted"
  | .replayGap => "pollmux: resumable stream has a gap: peer skipped bytes"
  | .badAck => "pollmux: peer acknowledged bytes that were never sent"

/-- The pipe's fields, less the mutex, the condition variable and the logger. -/
structure BufferedPipe where
  buf : Bytes := []
  closed : Bool := false
  hiWater : Nat := 0
  warnThreshold : Int := 0
  warned : Bool := false
  intr : Bool := false
  deriving DecidableEq, Repr

/-- What a finished `ReadAvailable` call answers: `(n, nil)` with its bytes, `(0, nil)`,
`(0, errPipeInterrupted)` or `(0, io.EOF)`. -/
inductive ReadResult
  | data (bytes : Bytes)
  | timeout
  | interrupted
  | eof
  deriving DecidableEq, Repr

/-- Where an unfinished call sleeps: for the first byte, or for more of them. Either way it
carries whether its timer has fired. -/
inductive Parked
  | first (timedOut : Bool)
  | more (timedOut : Bool)
  deriving DecidableEq, Repr

/-- The timer of a sleeping call goes off. -/
def Parked.fire : Parked → Parked
  | .first _ => .first true
  | .more _ => .more true

/-- A call of `ReadAvailable` either returned or sleeps. -/
inductive ReadState
  | returned (result : ReadResult)
  | parked (wait : Parked)
  deriving DecidableEq, Repr

/-- The bytes a call hands to its caller. Only a data return has any. -/
def ReadState.bytes : ReadState → Bytes
  | .returned (.data bs) => bs
  | _ => []

namespace BufferedPipe

/-- `NewBufferedPipe`. -/
def new : BufferedPipe := {}

/-- What `Write` does to an open pipe: append, and raise the high-water mark with its one-shot
warning. -/
def push (p : BufferedPipe) (data : Bytes) : BufferedPipe :=
  if (p.buf ++ data).length > p.hiWater then
    { p with
      buf := p.buf ++ data
      hiWater := (p.buf ++ data).length
      warned := p.warned || decide (0 < p.warnThreshold ∧ p.warnThreshold ≤ (p.buf ++ data).length) }
  else
    { p with buf := p.buf ++ data }

/-- `Write`. The count it answers on success is always `len(data)`. -/
def write (p : BufferedPipe) (data : Bytes) : Except Err BufferedPipe :=
  if p.closed then .error .closedPipe else .ok (p.push data)

/-- `copy(dst, p.buf)` and `p.buf = p.buf[n:]`, for a destination of `dst` bytes. -/
def copyOut (p : BufferedPipe) (dst : Nat) : ReadState × BufferedPipe :=
  (.returned (.data (p.buf.take dst)), { p with buf := p.buf.drop dst })

/-- `Read`, which sleeps (`none`) while the pipe is open and empty and ignores interrupts. -/
def read (p : BufferedPipe) (dst : Nat) : Option (ReadState × BufferedPipe) :=
  if p.buf = [] then
    if p.closed then some (.returned .eof, p) else none
  else
    some (p.copyOut dst)

/-- Phase 2 of `ReadAvailable`: sleep while the destination is not full, the pipe is open, the
coalesce timer has not fired and no interrupt is pending; then copy out. -/
def coalesce (p : BufferedPipe) (dst : Nat) (timedOut : Bool) : ReadState × BufferedPipe :=
  if p.buf.length < dst ∧ p.closed = false ∧ timedOut = false ∧ p.intr = false then
    (.parked (.more timedOut), p)
  else
    p.copyOut dst

/-- Phase 1 of `ReadAvailable`: sleep while there is no byte and nothing else to report. -/
def awaitFirst (p : BufferedPipe) (dst : Nat) (timedOut : Bool) : ReadState × BufferedPipe :=
  if p.buf = [] then
    if p.closed = false ∧ timedOut = false ∧ p.intr = false then
      (.parked (.first timedOut), p)
    else if p.closed then
      (.returned .eof, p)
    else if p.intr then
      (.returned .interrupted, { p with intr := false })
    else
      (.returned .timeout, p)
  else
    p.coalesce dst false

/-- `ReadAvailable` up to its first sleep or its return. A pending interrupt wins over
everything, buffered data included. -/
def enter (p : BufferedPipe) (dst : Nat) : ReadState × BufferedPipe :=
  if p.intr then
    (.returned .interrupted, { p with intr := false })
  else if p.buf = [] then
    if p.closed then (.returned .eof, p) else p.awaitFirst dst false
  else
    p.coalesce dst false

/-- `ReadAvailable` from a wake-up to its next sleep or its return. -/
def resume (p : BufferedPipe) (dst : Nat) : Parked → ReadState × BufferedPipe
  | .first timedOut => p.awaitFirst dst timedOut
  | .more timedOut => p.coalesce dst timedOut

/-- `interrupt`. -/
def interrupt (p : BufferedPipe) : BufferedPipe := { p with intr := true }

/-- `Close`. -/
def close (p : BufferedPipe) : BufferedPipe := { p with closed := true }

@[simp] theorem interrupt_buf (p : BufferedPipe) : p.interrupt.buf = p.buf := rfl
@[simp] theorem interrupt_closed (p : BufferedPipe) : p.interrupt.closed = p.closed := rfl
@[simp] theorem interrupt_intr (p : BufferedPipe) : p.interrupt.intr = true := rfl
@[simp] theorem close_buf (p : BufferedPipe) : p.close.buf = p.buf := rfl
@[simp] theorem close_intr (p : BufferedPipe) : p.close.intr = p.intr := rfl

@[simp] theorem push_buf (p : BufferedPipe) (data : Bytes) : (p.push data).buf = p.buf ++ data := by
  unfold push; split <;> rfl

@[simp] theorem push_closed (p : BufferedPipe) (data : Bytes) : (p.push data).closed = p.closed := by
  unfold push; split <;> rfl

@[simp] theorem push_intr (p : BufferedPipe) (data : Bytes) : (p.push data).intr = p.intr := by
  unfold push; split <;> rfl

/-- A write that succeeds found the pipe open and pushed its bytes. -/
theorem write_ok {p p' : BufferedPipe} {data : Bytes} (h : p.write data = .ok p') :
    p.closed = false ∧ p' = p.push data := by
  unfold write at h
  split at h
  next => cases h
  next hopen => exact ⟨Bool.not_eq_true _ ▸ hopen, (Except.ok.inj h).symm⟩

/-- What was written into a pipe that has become `p'`. -/
def added (p p' : BufferedPipe) : Bytes := p'.buf.drop p.buf.length

@[simp] theorem added_self (p : BufferedPipe) : p.added p = [] := List.drop_length

theorem added_write {p p' : BufferedPipe} {data : Bytes} (h : p.write data = .ok p') :
    p.added p' = data := by
  obtain ⟨-, rfl⟩ := write_ok h
  rw [added, push_buf, List.drop_left]

/-- An open pipe accepts every write. -/
theorem write_of_open {p : BufferedPipe} (h : p.closed = false) (data : Bytes) :
    p.write data = .ok (p.push data) := by
  simp only [write, h, Bool.false_eq_true, if_false]

/-- A closed pipe refuses every write. -/
theorem write_of_closed {p : BufferedPipe} (h : p.closed = true) (data : Bytes) :
    p.write data = .error .closedPipe := by
  simp only [write, h, if_true]

/-- **What a reader may do to a pipe**: the bytes it hands out, at most `dst` of them, followed
by those it leaves are those that were there, and the pipe is as closed as it was. An interrupt
is consumed by an interrupted return and by nothing else. -/
structure Reads (p : BufferedPipe) (dst : Nat) (st : ReadState) (p' : BufferedPipe) : Prop where
  bytes : st.bytes ++ p'.buf = p.buf
  atMost : st.bytes.length ≤ dst
  closed : p'.closed = p.closed
  intr : st ≠ .returned .interrupted → p'.intr = p.intr

theorem copyOut_reads (p : BufferedPipe) (dst : Nat) :
    p.Reads dst (p.copyOut dst).1 (p.copyOut dst).2 where
  bytes := List.take_append_drop dst p.buf
  atMost := List.length_take_le dst p.buf
  closed := rfl
  intr := fun _ => rfl

theorem coalesce_reads (p : BufferedPipe) (dst : Nat) (timedOut : Bool) :
    p.Reads dst (p.coalesce dst timedOut).1 (p.coalesce dst timedOut).2 := by
  unfold coalesce
  split
  · exact ⟨rfl, Nat.zero_le _, rfl, fun _ => rfl⟩
  · exact p.copyOut_reads dst

theorem awaitFirst_reads (p : BufferedPipe) (dst : Nat) (timedOut : Bool) :
    p.Reads dst (p.awaitFirst dst timedOut).1 (p.awaitFirst dst timedOut).2 := by
  unfold awaitFirst
  split
  · split
    · exact ⟨rfl, Nat.zero_le _, rfl, fun _ => rfl⟩
    · split
      · exact ⟨rfl, Nat.zero_le _, rfl, fun _ => rfl⟩
      · split
        · exact ⟨rfl, Nat.zero_le _, rfl, fun h => absurd rfl h⟩
        · exact ⟨rfl, Nat.zero_le _, rfl, fun _ => rfl⟩
  · exact p.coalesce_reads dst false

theorem enter_reads (p : BufferedPipe) (dst : Nat) :
    p.Reads dst (p.enter dst).1 (p.enter dst).2 := by
  unfold enter
  split
  · exact ⟨rfl, Nat.zero_le _, rfl, fun h => absurd rfl h⟩
  · split
    · split
      · exact ⟨rfl, Nat.zero_le _, rfl, fun _ => rfl⟩
      · exact p.awaitFirst_reads dst false
    · exact p.coalesce_reads dst false

theorem resume_reads (p : BufferedPipe) (dst : Nat) (wait : Parked) :
    p.Reads dst (p.resume dst wait).1 (p.resume dst wait).2 := by
  cases wait with
  | first timedOut => exact p.awaitFirst_reads dst timedOut
  | more timedOut => exact p.coalesce_reads dst timedOut

/-- With an interrupt pending a reader that wakes up does not sleep again. -/
theorem resume_of_intr {p : BufferedPipe} (hi : p.intr = true) (dst : Nat) (wait : Parked) :
    ∃ result, (p.resume dst wait).1 = .returned result := by
  have hmore : ∀ timedOut, (p.coalesce dst timedOut).1 = .returned (.data (p.buf.take dst)) := by
    intro timedOut
    simp only [coalesce, hi, Bool.true_eq_false, and_false, if_false, copyOut]
  cases wait with
  | more timedOut => exact ⟨_, hmore timedOut⟩
  | first timedOut =>
    simp only [resume, awaitFirst, hi, Bool.true_eq_false, and_false, if_false, if_true]
    split
    · split
      · exact ⟨_, rfl⟩
      · exact ⟨_, rfl⟩
    · exact ⟨_, hmore false⟩

/-- Nor does one that comes in: it takes the interrupt. -/
theorem enter_of_intr {p : BufferedPipe} (hi : p.intr = true) (dst : Nat) :
    (p.enter dst).1 = .returned .interrupted := by
  simp only [enter, hi, if_true]

/-- A reader whose destination is filled by what is there returns at once. -/
theorem enter_of_full {p : BufferedPipe} (hi : p.intr = false) (hb : p.buf ≠ []) {dst : Nat}
    (hd : dst ≤ p.buf.length) : p.enter dst = p.copyOut dst := by
  simp only [enter, hi, Bool.false_eq_true, if_false, hb, coalesce]
  rw [if_neg (by omega)]

end BufferedPipe

end Pollmux
