import Pollmux.Kit.Machine
import Pollmux.Pipe

/-!
# One reader and any number of writers

A `BufferedPipe` in use: writers write, anyone may close the pipe or interrupt
it, and one reader calls `Read` or `ReadAvailable`, sleeps, and is woken at any
moment, for a reason or for none. The timer of a sleeping `ReadAvailable` may go
off at any moment too. So every coincidence of data, close, timeout and interrupt
in either phase of a call is a run.

`Answers` lists what a stretch of a call between two sleeps can come to, with the
state of the pipe that makes it come to that; every later proof goes through it.

Two facts are recorded beside the pipe: the bytes that were accepted and those
that were returned. `pending` counts the data returns since the first `interrupt`
that no `errPipeInterrupted` and no `io.EOF` has answered yet.
-/

namespace Pollmux

open Kit

/-- The call's timeout has fired. -/
def Parked.overdue : Parked → Bool
  | .first timedOut => timedOut
  | .more _ => false

namespace BufferedPipe

/-- **What a stretch of a call can come to**, on the pipe `p` with a buffer of `dst` bytes and a
timeout that has fired or not. -/
inductive Answers (p : BufferedPipe) (dst : Nat) (timedOut : Bool) : ReadState × BufferedPipe → Prop
  | interrupted (hi : p.intr = true) :
      Answers p dst timedOut (.returned .interrupted, { p with intr := false })
  | eof (hb : p.buf = []) (hc : p.closed = true) : Answers p dst timedOut (.returned .eof, p)
  | timeout (hb : p.buf = []) (hc : p.closed = false) (hi : p.intr = false)
      (ht : timedOut = true) : Answers p dst timedOut (.returned .timeout, p)
  | data (hb : p.buf ≠ []) : Answers p dst timedOut (p.copyOut dst)
  | sleepFirst (hi : p.intr = false) : Answers p dst timedOut (.parked (.first false), p)
  | sleepMore (hb : p.buf ≠ []) (hi : p.intr = false) :
      Answers p dst timedOut (.parked (.more false), p)

variable {p : BufferedPipe} {dst : Nat}

theorem read_answers {r : ReadState × BufferedPipe} (h : p.read dst = some r) :
    p.Answers dst false r := by
  unfold read at h
  split at h
  next hb =>
    split at h
    next hc => cases h; exact .eof hb hc
    next => cases h
  next hb => cases h; exact .data hb

theorem coalesce_answers (hb : p.buf ≠ []) (timedOut fired : Bool) :
    p.Answers dst timedOut (p.coalesce dst fired) := by
  unfold coalesce
  split
  next h =>
    rw [h.2.2.1]
    exact .sleepMore hb h.2.2.2
  next => exact .data hb

theorem awaitFirst_answers (timedOut : Bool) :
    p.Answers dst timedOut (p.awaitFirst dst timedOut) := by
  unfold awaitFirst
  split
  next hb =>
    split
    next h =>
      rw [h.2.1]
      exact .sleepFirst h.2.2
    next h =>
      split
      next hc => exact .eof hb hc
      next hc =>
        rw [Bool.not_eq_true] at hc
        split
        next hi => exact .interrupted hi
        next hi =>
          rw [Bool.not_eq_true] at hi
          -- nothing but the timer is left to have ended the wait
          refine .timeout hb hc hi ?_
          rw [← Bool.not_eq_false]
          exact fun ht => h ⟨hc, ht, hi⟩
  next hb => exact coalesce_answers hb _ _

theorem enter_answers (p : BufferedPipe) (dst : Nat) : p.Answers dst false (p.enter dst) := by
  unfold enter
  split
  next hi => exact .interrupted hi
  next =>
    split
    next hb =>
      split
      next hc => exact .eof hb hc
      next => exact awaitFirst_answers false
    next hb => exact coalesce_answers hb _ _

/-- A call that waits for more bytes goes on with those it has. -/
theorem resume_answers {wait : Parked} (hmore : ∀ timedOut, wait = .more timedOut → p.buf ≠ []) :
    p.Answers dst wait.overdue (p.resume dst wait) := by
  cases wait with
  | first timedOut => exact awaitFirst_answers timedOut
  | more timedOut => exact coalesce_answers (hmore timedOut rfl) _ _

end BufferedPipe

/-- Where the reader is. -/
inductive Reader
  /-- Not in a call. -/
  | out
  /-- Asleep in `Read`. -/
  | inRead (dst : Nat)
  /-- Asleep in `ReadAvailable`. -/
  | inReadAvailable (dst : Nat) (wait : Parked)
  deriving DecidableEq, Repr

/-- A pipe in use. `said` is what the reader's call answered in the last step, if it did. -/
structure PipeUse where
  pipe : BufferedPipe := .new
  reader : Reader := .out
  said : Option ReadResult := none
  accepted : Bytes := []
  returned : Bytes := []
  pending : Option Nat := none
  deriving DecidableEq, Repr

/-- One step. -/
inductive PipeEvent
  | write (data : Bytes)
  | close
  | interrupt
  | read (dst : Nat)
  | readAvailable (dst : Nat)
  /-- The sleeping reader wakes up. -/
  | wake
  /-- The timer of the sleeping reader goes off. -/
  | fire
  deriving DecidableEq, Repr

namespace PipeUse

/-- The data returns since the first interrupt that is not answered, after one more return. -/
def count (pending : Option Nat) : ReadResult → Option Nat
  | .data _ => pending.map (· + 1)
  | .timeout => pending
  | .interrupted | .eof => none

/-- The reader has come to its next sleep or its return. -/
def settle (s : PipeUse) (dst : Nat) : ReadState × BufferedPipe → PipeUse
  | (.parked wait, p) => { s with pipe := p, reader := .inReadAvailable dst wait, said := none }
  | (.returned result, p) =>
    { s with
      pipe := p
      reader := .out
      said := some result
      returned := s.returned ++ (ReadState.returned result).bytes
      pending := count s.pending result }

/-- `Read` from its call or from a wake-up. -/
def settleRead (s : PipeUse) (dst : Nat) : PipeUse :=
  match s.pipe.read dst with
  | some r => s.settle dst r
  | none => { s with reader := .inRead dst, said := none }

def step (s : PipeUse) : PipeEvent → Option PipeUse
  | .write data =>
    match s.pipe.write data with
    | .ok p => some { s with pipe := p, accepted := s.accepted ++ data, said := none }
    | .error _ => some { s with said := none }
  | .close => some { s with pipe := s.pipe.close, said := none }
  | .interrupt =>
    some { s with pipe := s.pipe.interrupt, pending := some (s.pending.getD 0), said := none }
  | .read dst => if s.reader = .out then some (s.settleRead dst) else none
  | .readAvailable dst =>
    if s.reader = .out then some (s.settle dst (s.pipe.enter dst)) else none
  | .wake =>
    match s.reader with
    | .out => none
    | .inRead dst => some (s.settleRead dst)
    | .inReadAvailable dst wait => some (s.settle dst (s.pipe.resume dst wait))
  | .fire =>
    match s.reader with
    | .inReadAvailable dst wait =>
      some { s with reader := .inReadAvailable dst wait.fire, said := none }
    | _ => none

/-- A new pipe. -/
def machine : Machine PipeUse PipeEvent where
  init := {}
  step := step

/-- The reader's buffers are not empty. -/
def NonEmpty (_ : PipeUse) : PipeEvent → Prop
  | .read dst | .readAvailable dst => 0 < dst
  | _ => True

/-- Nor does it call `Read`. -/
def Available (_ : PipeUse) : PipeEvent → Prop
  | .read _ => False
  | .readAvailable dst => 0 < dst
  | _ => True

instance (s : PipeUse) : ∀ ev : PipeEvent, Decidable (NonEmpty s ev)
  | .read dst | .readAvailable dst => inferInstanceAs (Decidable (0 < dst))
  | .write _ | .close | .interrupt | .wake | .fire => inferInstanceAs (Decidable True)

instance (s : PipeUse) : ∀ ev : PipeEvent, Decidable (Available s ev)
  | .read _ => inferInstanceAs (Decidable False)
  | .readAvailable dst => inferInstanceAs (Decidable (0 < dst))
  | .write _ | .close | .interrupt | .wake | .fire => inferInstanceAs (Decidable True)

variable {s s' : PipeUse} {ev : PipeEvent}

/-- What holds with any reader: nothing is lost or out of order, and a reader that waits for more
bytes has some. -/
structure Sound (s : PipeUse) : Prop where
  fifo : s.returned ++ s.pipe.buf = s.accepted
  waiting : ∀ dst timedOut, s.reader = .inReadAvailable dst (.more timedOut) → s.pipe.buf ≠ []
  roomRead : ∀ dst, s.reader = .inRead dst → 0 < dst
  room : ∀ dst wait, s.reader = .inReadAvailable dst wait → 0 < dst

/-- **What a step can do.** -/
inductive Does (s : PipeUse) : PipeEvent → PipeUse → Prop
  | write (data : Bytes) : Does s (.write data)
      { s with pipe := s.pipe.push data, accepted := s.accepted ++ data, said := none }
  | refused (data : Bytes) : Does s (.write data) { s with said := none }
  | close : Does s .close { s with pipe := s.pipe.close, said := none }
  | interrupt : Does s .interrupt
      { s with pipe := s.pipe.interrupt, pending := some (s.pending.getD 0), said := none }
  | fire {dst : Nat} {wait : Parked} (hr : s.reader = .inReadAvailable dst wait) :
      Does s .fire { s with reader := .inReadAvailable dst wait.fire, said := none }
  | sleepRead {ev : PipeEvent} {dst : Nat} (hpos : 0 < dst)
      (hev : ev = .read dst ∨ s.reader = .inRead dst) :
      Does s ev { s with reader := .inRead dst, said := none }
  | read {ev : PipeEvent} {dst : Nat} {r : ReadState × BufferedPipe} (hpos : 0 < dst)
      (hev : ev = .read dst ∨ s.reader = .inRead dst) (hr : s.pipe.read dst = some r) :
      Does s ev (s.settle dst r)
  | call {dst : Nat} (hpos : 0 < dst) (hout : s.reader = .out) :
      Does s (.readAvailable dst) (s.settle dst (s.pipe.enter dst))
  | wake {dst : Nat} {wait : Parked} (hpos : 0 < dst)
      (hr : s.reader = .inReadAvailable dst wait) :
      Does s .wake (s.settle dst (s.pipe.resume dst wait))

theorem does_settleRead {dst : Nat} (hpos : 0 < dst)
    (hev : ev = .read dst ∨ s.reader = .inRead dst) : Does s ev (s.settleRead dst) := by
  unfold PipeUse.settleRead
  cases hr : s.pipe.read dst with
  | some r => exact .read hpos hev hr
  | none => exact .sleepRead hpos hev

theorem Sound.does (h : Sound s) (hok : NonEmpty s ev) (hs : s.step ev = some s') :
    Does s ev s' := by
  cases ev with
  | write data =>
    simp only [step] at hs
    split at hs
    next p hw =>
      obtain ⟨-, rfl⟩ := BufferedPipe.write_ok hw
      cases hs
      exact .write data
    next => cases hs; exact .refused data
  | close => cases hs; exact .close
  | interrupt => cases hs; exact .interrupt
  | read dst =>
    simp only [step] at hs
    split at hs
    next => cases hs; exact does_settleRead hok (.inl rfl)
    next => cases hs
  | readAvailable dst =>
    simp only [step] at hs
    split at hs
    next hout => cases hs; exact .call hok hout
    next => cases hs
  | wake =>
    simp only [step] at hs
    split at hs
    next => cases hs
    next dst hr => cases hs; exact does_settleRead (h.roomRead dst hr) (.inr hr)
    next dst wait hr => cases hs; exact .wake (h.room dst wait hr) hr
  | fire =>
    simp only [step] at hs
    split at hs
    next dst wait hr => cases hs; exact .fire hr
    next => cases hs

/-! ## What a call returns -/

/-- What a return says of the pipe it came from, and of the one it leaves. -/
structure Truthful (s : PipeUse) (s' : PipeUse) : Prop where
  eof : s'.said = some .eof → s.pipe.closed = true ∧ s.pipe.buf = []
  timeout : s'.said = some .timeout → s.pipe.buf = [] ∧ s.pipe.closed = false ∧
    s.pipe.intr = false ∧ ∃ dst, s.reader = .inReadAvailable dst (.first true)
  some_data : s'.said ≠ some (.data [])
  interrupted : s'.said = some .interrupted → s'.pipe.buf = s.pipe.buf ∧ s'.returned = s.returned

theorem truthful_of_silent (h : s'.said = none) : Truthful s s' := by
  refine ⟨?_, ?_, ?_, ?_⟩ <;> simp [h]

theorem settle_truthful {dst : Nat} {timedOut : Bool} {r : ReadState × BufferedPipe}
    (h : s.pipe.Answers dst timedOut r) (hpos : 0 < dst)
    (hfired : timedOut = true → ∃ dst, s.reader = .inReadAvailable dst (.first true)) :
    Truthful s (s.settle dst r) := by
  cases h with
  | interrupted hi => exact ⟨by simp [settle], by simp [settle], by simp [settle], fun _ =>
      ⟨rfl, List.append_nil _⟩⟩
  | eof hb hc =>
    exact ⟨fun _ => ⟨hc, hb⟩, by simp [settle], by simp [settle], by simp [settle]⟩
  | timeout hb hc hi ht =>
    exact ⟨by simp [settle], fun _ => ⟨hb, hc, hi, hfired ht⟩, by simp [settle], by simp [settle]⟩
  | data hb =>
    have htake : s.pipe.buf.take dst ≠ [] := by
      rw [Ne, List.take_eq_nil_iff, not_or]
      exact ⟨Nat.ne_of_gt hpos, hb⟩
    exact ⟨by simp [settle, BufferedPipe.copyOut], by simp [settle, BufferedPipe.copyOut],
      by simpa [settle, BufferedPipe.copyOut] using htake,
      by simp [settle, BufferedPipe.copyOut]⟩
  | sleepFirst | sleepMore => exact truthful_of_silent rfl

/-- The bytes a stretch hands out and those it leaves are those that were there. -/
theorem Sound.settle (h : Sound s) {dst : Nat} {timedOut : Bool} {r : ReadState × BufferedPipe}
    (hans : s.pipe.Answers dst timedOut r) (hpos : 0 < dst) : Sound (s.settle dst r) := by
  -- a call that has returned has the reader out
  have out : ∀ {result : ReadResult} {p : BufferedPipe},
      (ReadState.returned result).bytes ++ p.buf = s.pipe.buf →
      Sound (s.settle dst (.returned result, p)) := by
    intro result p hbytes
    refine ⟨?_, by simp [PipeUse.settle], by simp [PipeUse.settle], by simp [PipeUse.settle]⟩
    show (s.returned ++ (ReadState.returned result).bytes) ++ p.buf = s.accepted
    rw [List.append_assoc, hbytes]
    exact h.fifo
  cases hans with
  | interrupted _ => exact out rfl
  | eof _ _ => exact out rfl
  | timeout _ _ _ _ => exact out rfl
  | data _ => exact out (List.take_append_drop dst s.pipe.buf)
  | sleepFirst _ =>
    refine ⟨h.fifo, by simp [PipeUse.settle], by simp [PipeUse.settle], ?_⟩
    intro dst' wait hr
    cases hr
    exact hpos
  | sleepMore hb _ =>
    refine ⟨h.fifo, fun _ _ _ => hb, by simp [PipeUse.settle], ?_⟩
    intro dst' wait hr
    cases hr
    exact hpos

theorem Parked.fire_more {wait : Parked} {timedOut : Bool} (h : wait.fire = .more timedOut) :
    ∃ timedOut', wait = .more timedOut' := by
  cases wait with
  | first _ => cases h
  | more timedOut' => exact ⟨timedOut', rfl⟩

/-- A sleeping reader that wakes up. -/
theorem Sound.resumes (h : Sound s) {dst : Nat} {wait : Parked}
    (hr : s.reader = .inReadAvailable dst wait) :
    s.pipe.Answers dst wait.overdue (s.pipe.resume dst wait) := by
  apply BufferedPipe.resume_answers
  rintro timedOut rfl
  exact h.waiting dst timedOut hr

theorem Sound.step (h : Sound s) (hd : Does s ev s') : Sound s' ∧ Truthful s s' := by
  cases hd with
  | write data =>
    refine ⟨⟨?_, ?_, h.roomRead, h.room⟩, truthful_of_silent rfl⟩
    · show s.returned ++ (s.pipe.push data).buf = s.accepted ++ data
      rw [BufferedPipe.push_buf, ← List.append_assoc, h.fifo]
    · intro dst timedOut hr
      show (s.pipe.push data).buf ≠ []
      rw [BufferedPipe.push_buf]
      exact List.append_ne_nil_of_left_ne_nil (h.waiting dst timedOut hr) data
  | refused _ => exact ⟨⟨h.fifo, h.waiting, h.roomRead, h.room⟩, truthful_of_silent rfl⟩
  | close => exact ⟨⟨h.fifo, h.waiting, h.roomRead, h.room⟩, truthful_of_silent rfl⟩
  | interrupt => exact ⟨⟨h.fifo, h.waiting, h.roomRead, h.room⟩, truthful_of_silent rfl⟩
  | @fire dst wait hr =>
    refine ⟨⟨h.fifo, ?_, by simp, ?_⟩, truthful_of_silent rfl⟩
    · intro dst' timedOut hmore
      obtain ⟨timedOut', rfl⟩ := Parked.fire_more (Reader.inReadAvailable.inj hmore).2
      exact h.waiting dst timedOut' hr
    · intro dst' wait' hr'
      rw [← (Reader.inReadAvailable.inj hr').1]
      exact h.room dst wait hr
  | sleepRead hpos _ =>
    refine ⟨⟨h.fifo, by simp, ?_, by simp⟩, truthful_of_silent rfl⟩
    intro dst' hr
    cases hr
    exact hpos
  | read hpos _ hr =>
    have hans := BufferedPipe.read_answers hr
    exact ⟨h.settle hans hpos, settle_truthful hans hpos (by simp)⟩
  | @call dst hpos _ =>
    have hans := s.pipe.enter_answers dst
    exact ⟨h.settle hans hpos, settle_truthful hans hpos (by simp)⟩
  | @wake dst wait hpos hr =>
    have hans := h.resumes hr
    refine ⟨h.settle hans hpos, settle_truthful hans hpos ?_⟩
    intro hover
    cases wait with
    | first timedOut => exact ⟨dst, (show timedOut = true from hover) ▸ hr⟩
    | more timedOut => cases hover

theorem sound_reach (h : machine.Reach NonEmpty s) : Sound s := by
  refine h.invariant (P := Sound) ⟨rfl, by simp [machine], by simp [machine], by simp [machine]⟩ ?_
  intro s ev s' _ ih hok hs
  exact (ih.step (ih.does hok hs)).1

/-! ## Interrupts -/

/-- What holds with a reader that calls `ReadAvailable` alone: an interrupt that is not answered is
still pending, and a data return since then has left the reader about to meet it. -/
structure Heard (s : PipeUse) : Prop where
  pending : ∀ n, s.pending = some n → s.pipe.intr = true ∧ (n = 0 ∨ n = 1 ∧ s.reader = .out)
  available : ∀ dst, s.reader ≠ .inRead dst

/-- A stretch of a call that had not returned since the interrupt. -/
theorem heard_settle {dst : Nat} {timedOut : Bool} {r : ReadState × BufferedPipe}
    (hans : s.pipe.Answers dst timedOut r)
    (hpend : ∀ n, s.pending = some n → s.pipe.intr = true ∧ n = 0) : Heard (s.settle dst r) := by
  -- without the flag there is no interrupt to answer
  have none_of : s.pipe.intr = false → s.pending = none := by
    intro hi
    cases hp : s.pending with
    | none => rfl
    | some n =>
      rw [(hpend n hp).1] at hi
      cases hi
  cases hans with
  | interrupted _ => exact ⟨by simp [settle, count], by simp [settle]⟩
  | eof _ _ => exact ⟨by simp [settle, count], by simp [settle]⟩
  | timeout _ _ hi _ => exact ⟨by simp [settle, count, none_of hi], by simp [settle]⟩
  | data _ =>
    refine ⟨?_, by simp [settle, BufferedPipe.copyOut]⟩
    intro n hn
    obtain ⟨m, hm, rfl⟩ := Option.map_eq_some_iff.mp hn
    obtain ⟨hi, rfl⟩ := hpend m hm
    exact ⟨hi, .inr ⟨rfl, rfl⟩⟩
  | sleepFirst hi => exact ⟨by simp [settle, none_of hi], by simp [settle]⟩
  | sleepMore _ hi => exact ⟨by simp [settle, none_of hi], by simp [settle]⟩

theorem Heard.step (h : Heard s) (hsound : Sound s) (hok : Available s ev) (hd : Does s ev s') :
    Heard s' := by
  -- a reader that has slept has not returned since the interrupt
  have first : ∀ {dst n : Nat} {wait : Parked}, s.reader = .inReadAvailable dst wait →
      s.pending = some n → s.pipe.intr = true ∧ n = 0 := by
    intro dst n wait hr hn
    obtain ⟨hi, rfl | ⟨-, hout⟩⟩ := h.pending n hn
    · exact ⟨hi, rfl⟩
    · rw [hr] at hout
      cases hout
  cases hd with
  | write data =>
    refine ⟨?_, h.available⟩
    intro n hn
    rw [BufferedPipe.push_intr]
    exact h.pending n hn
  | refused _ => exact ⟨h.pending, h.available⟩
  | close => exact ⟨h.pending, h.available⟩
  | interrupt =>
    refine ⟨?_, h.available⟩
    intro n hn
    refine ⟨rfl, ?_⟩
    cases hp : s.pending with
    | none =>
      rw [hp] at hn
      exact .inl (Option.some.inj hn).symm
    | some m =>
      rw [hp] at hn
      cases hn
      exact (h.pending m hp).2
  | fire hr =>
    refine ⟨?_, by simp⟩
    intro n hn
    exact ⟨(first hr hn).1, .inl (first hr hn).2⟩
  | sleepRead _ hev | read _ hev _ =>
    rcases hev with rfl | hr
    · exact hok.elim
    · exact absurd hr (h.available _)
  | @call dst hpos hout =>
    cases hi : s.pipe.intr with
    | true =>
      have hentered : s.pipe.enter dst = (.returned .interrupted, { s.pipe with intr := false }) := by
        simp [BufferedPipe.enter, hi]
      rw [hentered]
      exact ⟨by simp [settle, count], by simp [settle]⟩
    | false =>
      refine heard_settle (s.pipe.enter_answers dst) ?_
      intro n hn
      rw [(h.pending n hn).1] at hi
      cases hi
  | wake _ hr => exact heard_settle (hsound.resumes hr) fun n hn => first hr hn

theorem nonEmpty_of_available (s : PipeUse) (ev : PipeEvent) (h : Available s ev) :
    NonEmpty s ev := by
  cases ev with
  | read _ => exact h.elim
  | _ => exact h

theorem heard_reach (h : machine.Reach Available s) : Heard s := by
  refine h.invariant (P := Heard) ⟨by simp [machine], by simp [machine]⟩ ?_
  intro s ev s' hr ih hok hs
  have hsound := sound_reach (hr.mono nonEmpty_of_available)
  exact ih.step hsound hok (hsound.does (nonEmpty_of_available s ev hok) hs)

/-- **An exact FIFO whose outcomes never lie.** In every run with one reader whose buffers are not
empty: the bytes returned and the bytes buffered are the bytes accepted; a call answers `io.EOF`
only from a pipe that is closed and drained, `(0, nil)` only from one that is empty and open and
after its timeout, and with `errPipeInterrupted` it takes nothing. If the reader uses
`ReadAvailable` alone, then between an interrupt and the first call that answers
`errPipeInterrupted` or `io.EOF` there is at most one data return, and no `(0, nil)`. -/
theorem exact_fifo (h : machine.Reach NonEmpty s) :
    s.returned ++ s.pipe.buf = s.accepted ∧
    (∀ ev s', NonEmpty s ev → machine.step s ev = some s' →
      (s'.said = some .eof → s.pipe.closed = true ∧ s.pipe.buf = []) ∧
      (s'.said = some .timeout → s.pipe.buf = [] ∧ s.pipe.closed = false ∧
        ∃ dst, s.reader = .inReadAvailable dst (.first true)) ∧
      s'.said ≠ some (.data []) ∧
      (s'.said = some .interrupted → s'.pipe.buf = s.pipe.buf ∧ s'.returned = s.returned)) ∧
    (machine.Reach Available s →
      (∀ n, s.pending = some n → n ≤ 1) ∧
      ∀ ev s', Available s ev → machine.step s ev = some s' → s.pending ≠ none →
        s'.said ≠ some .timeout) := by
  have hsound := sound_reach h
  have told : ∀ ev s', NonEmpty s ev → machine.step s ev = some s' → Truthful s s' :=
    fun ev s' hok hs => (hsound.step (hsound.does hok hs)).2
  refine ⟨hsound.fifo, ?_, ?_⟩
  · intro ev s' hok hs
    have ht := told ev s' hok hs
    refine ⟨ht.eof, ?_, ht.some_data, ht.interrupted⟩
    intro hsaid
    obtain ⟨hb, hc, -, hfired⟩ := ht.timeout hsaid
    exact ⟨hb, hc, hfired⟩
  · intro havail
    have hheard := heard_reach havail
    refine ⟨?_, ?_⟩
    · intro n hn
      obtain ⟨-, rfl | ⟨rfl, -⟩⟩ := hheard.pending n hn
      · exact Nat.zero_le 1
      · exact Nat.le_refl 1
    · intro ev s' hok hs hpend hsaid
      obtain ⟨n, hn⟩ := Option.ne_none_iff_exists'.mp hpend
      obtain ⟨-, -, hi, -⟩ := (told ev s' (nonEmpty_of_available s ev hok) hs).timeout hsaid
      rw [(hheard.pending n hn).1] at hi
      cases hi

/-- An interrupt during the coalesce window: the call returns its data, the next one the
interrupt. -/
def interruptedRun : List PipeEvent :=
  [.readAvailable 8, .write [1, 2], .wake, .interrupt, .write [3], .wake]

theorem interruptedRun_exact :
    (machine.final interruptedRun).said = some (.data [1, 2, 3]) ∧
      (machine.final interruptedRun).pending = some 1 ∧
      (machine.final interruptedRun).returned ++ (machine.final interruptedRun).pipe.buf =
        (machine.final interruptedRun).accepted := by
  have hreach : machine.Reach NonEmpty (machine.final interruptedRun) :=
    Machine.reach_final (by decide)
  exact ⟨by decide, by decide, (exact_fifo hreach).1⟩

end PipeUse

end Pollmux
