import Pollmux.Config
import Pollmux.Kit.Machine
import Pollmux.Reliable.Endpoint

/-!
# What wakes a parked poll

A server whose client streams its uploads acknowledges them on the download leg:
a stream poll writes a `frameAck` for what `takeAck` hands it, and a batch poll's
response reports `recvOffsetNow` in its header. So that an ack need not wait for
the next frame, `recvIn` interrupts the outgoing pipe once `ackEager` bytes have
come in since `lastAck`. Uploads in batches carry their acks themselves, and
`ConnectHandler` then turns this off.

`lastAck` is the layer's record of what was acknowledged last, and only `takeAck`
moves it. `Paced` keeps the truth beside it: `wire` is the last acknowledgement
that went out. The two agree where `takeAck` is what acknowledges, except between
the `resetAck` of a fresh stream poll and its first `takeAck`. A session that
downloads in batches never calls `takeAck`, so there `lastAck` stays at 0, and
past the first `ackEager` bytes every upload cuts the parked poll short.

`recvIn` decides under its lock and interrupts after it has let go of it; in
between it is owed a `nudge`. An acknowledgement may go out in between, and then
the interrupt comes with nothing left to acknowledge (`nudge_after_ack`).
-/

namespace Pollmux

open Kit

/-- What everything else may do to the layer: neither receive nor acknowledge. -/
def EndOp.plain : EndOp → Bool
  | .hear _ _ | .control .takeAck | .control .resetAck => false
  | _ => true

theorem EndOp.plain_ne_hear {op : EndOp} (hop : op.plain = true) (off : Nat) (p : Bytes) :
    op ≠ .hear off p := by
  rintro rfl
  cases hop

/-- A resumable session over HTTP, as its acknowledgements see it: the last one on the wire, those
that a handler has read off the layer and not written, and whether a stream poll has attached and
not come to its first `takeAck`. Counted are the interrupts of `recvIn`, those of everyone else,
and the `nextOut` calls that an interrupt ended. -/
structure Paced where
  e : Endpoint
  wire : Nat := 0
  taken : List Nat := []
  fresh : Bool := false
  wakes : Nat := 0
  kicks : Nat := 0
  cuts : Nat := 0
  deriving DecidableEq, Repr

inductive PacedEvent
  /-- Anything but receiving and acknowledging. -/
  | op (op : EndOp)
  /-- The handler collects what its `nextOut` returned. -/
  | collect
  /-- `recvIn`, for an upload frame or an uploaded batch. -/
  | upload (off : Nat) (p : Bytes)
  /-- A stream poll attaches and calls `resetAck`. -/
  | attach
  /-- The loop of a stream poll calls `takeAck`. -/
  | take
  /-- A batch handler reads `recvOffsetNow` for its response. -/
  | answer
  /-- An acknowledgement goes out. -/
  | write (n : Nat)
  /-- Its write fails, or its request is gone. -/
  | lose (n : Nat)
  deriving DecidableEq, Repr

namespace Paced

/-- The upstream bytes that have arrived. -/
def recv (s : Paced) : Nat := s.e.rl.recvOffset

/-- Whether this region of a `nextOut` call ended it with an interrupt. -/
def cut (op : EndOp) (e : Endpoint) : Nat :=
  match op, e.call with
  | .advance _, some (.returned res) => if res.err = some .pipeInterrupted then 1 else 0
  | _, _ => 0

/-- How often it interrupts the pipe on its own account. -/
def kick : EndOp → Nat
  | .interruptOut => 1
  | _ => 0

def step (n : Negotiated) (s : Paced) : PacedEvent → Option Paced
  | .op op =>
    if op.plain then
      (s.e.perform op).map fun e =>
        { s with e := e, kicks := s.kicks + kick op, cuts := s.cuts + cut op e }
    else none
  | .collect => s.e.collect.map fun (_, e) => { s with e := e }
  | .upload off p =>
    (s.e.hear off p).map fun (_, e) =>
      { s with e := e, wakes := s.wakes + (e.nudges - s.e.nudges) }
  | .attach =>
    if n.streamPoll then some { s with e := { s.e with rl := s.e.rl.resetAck }, fresh := true }
    else none
  | .take =>
    if n.streamPoll then
      some { s with
        e := { s.e with rl := s.e.rl.takeAck.2 }
        taken := s.e.rl.takeAck.1.toList ++ s.taken
        fresh := false }
    else none
  | .answer =>
    if n.streamPoll = false ∨ n.streamUpload = false then
      some { s with taken := s.e.rl.recvOffsetNow :: s.taken }
    else none
  | .write k => if k ∈ s.taken then some { s with wire := k, taken := s.taken.erase k } else none
  | .lose k => if k ∈ s.taken then some { s with taken := s.taken.erase k } else none

/-- A session that was negotiated as `n`: `ConnectHandler` turns eager acks off unless uploads are
streamed. -/
def machine (cfg : ServerConfig) (n : Negotiated) : Machine Paced PacedEvent where
  init := { e := Endpoint.new cfg.maxReplayBytes n.streamUpload }
  step := step n

theorem machine_step (cfg : ServerConfig) (n : Negotiated) (s : Paced) (ev : PacedEvent) :
    (machine cfg n).step s ev = s.step n ev := rfl

/-- **What one step does.** -/
inductive Moves (n : Negotiated) (s : Paced) : PacedEvent → Paced → Prop
  | op {op : EndOp} {e : Endpoint} (hop : op.plain = true) (hp : s.e.perform op = some e) :
      Moves n s (.op op) { s with e := e, kicks := s.kicks + kick op, cuts := s.cuts + cut op e }
  | collect {res : NextResult} (hcall : s.e.call = some (.returned res)) :
      Moves n s .collect { s with e := { s.e with call := none } }
  | upload {off : Nat} {p : Bytes} {err : Option Err} {e : Endpoint}
      (hh : s.e.hear off p = some (err, e)) :
      Moves n s (.upload off p) { s with e := e, wakes := s.wakes + (e.nudges - s.e.nudges) }
  | attach (hpoll : n.streamPoll = true) :
      Moves n s .attach { s with e := { s.e with rl := s.e.rl.resetAck }, fresh := true }
  | take (hpoll : n.streamPoll = true) :
      Moves n s .take { s with
        e := { s.e with rl := s.e.rl.takeAck.2 }
        taken := s.e.rl.takeAck.1.toList ++ s.taken
        fresh := false }
  | answer (hmode : n.streamPoll = false ∨ n.streamUpload = false) :
      Moves n s .answer { s with taken := s.e.rl.recvOffset :: s.taken }
  | write {k : Nat} (hk : k ∈ s.taken) :
      Moves n s (.write k) { s with wire := k, taken := s.taken.erase k }
  | lose {k : Nat} (hk : k ∈ s.taken) : Moves n s (.lose k) { s with taken := s.taken.erase k }

theorem moves_of_step {n : Negotiated} {s s' : Paced} {ev : PacedEvent}
    (hs : s.step n ev = some s') : Moves n s ev s' := by
  cases ev with
  | op op =>
    simp only [step] at hs
    split at hs
    next hop =>
      obtain ⟨e, hp, rfl⟩ := Option.map_eq_some_iff.mp hs
      exact .op hop hp
    next => cases hs
  | collect =>
    obtain ⟨⟨res, e⟩, hc, rfl⟩ := Option.map_eq_some_iff.mp hs
    obtain ⟨hcall, rfl⟩ := Endpoint.collected hc
    exact .collect hcall
  | upload off p =>
    obtain ⟨⟨err, e⟩, hh, rfl⟩ := Option.map_eq_some_iff.mp hs
    exact .upload hh
  | attach =>
    simp only [step] at hs
    split at hs
    next hpoll => cases hs; exact .attach hpoll
    next => cases hs
  | take =>
    simp only [step] at hs
    split at hs
    next hpoll => cases hs; exact .take hpoll
    next => cases hs
  | answer =>
    simp only [step] at hs
    split at hs
    next hmode => cases hs; exact .answer hmode
    next => cases hs
  | write k =>
    simp only [step] at hs
    split at hs
    next hk => cases hs; exact .write hk
    next => cases hs
  | lose k =>
    simp only [step] at hs
    split at hs
    next hk => cases hs; exact .lose hk
    next => cases hs

end Paced

/-! ## What the layer and its pipes keep -/

namespace BufferedPipe

variable {p : BufferedPipe} {dst : Nat}

theorem coalesce_not_interrupted (timedOut : Bool) :
    (p.coalesce dst timedOut).1 ≠ .returned .interrupted := by
  unfold coalesce copyOut
  split <;> simp

/-- An interrupted return has consumed a pending interrupt. -/
theorem awaitFirst_interrupted {timedOut : Bool}
    (h : (p.awaitFirst dst timedOut).1 = .returned .interrupted) :
    p.intr = true ∧ (p.awaitFirst dst timedOut).2.intr = false := by
  by_cases hbuf : p.buf = []
  · by_cases hintr : p.intr = true
    · refine ⟨hintr, ?_⟩
      by_cases hclosed : p.closed = true
      · simp [awaitFirst, hbuf, hclosed] at h
      · simp [awaitFirst, hbuf, hintr, hclosed]
    · have hno : p.intr = false := Bool.not_eq_true _ ▸ hintr
      revert h
      simp only [awaitFirst, hbuf, hno, if_true]
      split
      · simp
      · split <;> simp
  · rw [awaitFirst, if_neg hbuf] at h
    exact absurd h (coalesce_not_interrupted false)

theorem enter_interrupted (h : (p.enter dst).1 = .returned .interrupted) :
    p.intr = true ∧ (p.enter dst).2.intr = false := by
  unfold enter at h ⊢
  split at h
  next hintr => exact ⟨hintr, by rw [if_pos hintr]⟩
  next hintr =>
    rw [if_neg hintr]
    split at h
    next hbuf =>
      rw [if_pos hbuf]
      split at h
      next => simp at h
      next hclosed =>
        rw [if_neg hclosed]
        exact awaitFirst_interrupted h
    next => exact absurd h (coalesce_not_interrupted false)

theorem resume_interrupted {wait : Parked} (h : (p.resume dst wait).1 = .returned .interrupted) :
    p.intr = true ∧ (p.resume dst wait).2.intr = false := by
  cases wait with
  | first timedOut => exact awaitFirst_interrupted h
  | more timedOut => exact absurd h (coalesce_not_interrupted timedOut)

end BufferedPipe

/-- `nextOut` reports an interrupt when its read does. -/
theorem NextOut.ofRead_interrupted {dst : Nat} {st : ReadState} {res : NextResult}
    (h : NextOut.ofRead dst st = .returned res) (herr : res.err = some .pipeInterrupted) :
    st = .returned .interrupted := by
  cases st with
  | parked wait => cases h
  | returned result =>
    cases result with
    | data bs =>
      simp only [ofRead] at h
      split at h
      · cases h
        cases herr
      · cases h
    | timeout => cases h; cases herr
    | interrupted => rfl
    | eof => cases h; cases herr

namespace Endpoint

variable {e e' : Endpoint} {op : EndOp}

/-- Nobody but `takeAck` and `resetAck` moves `lastAck`, and the threshold never changes. -/
theorem perform_acks (h : e.rl.Wf) (hop : op.plain = true) (hp : e.perform op = some e') :
    e'.rl.lastAck = e.rl.lastAck ∧ e'.rl.ackEager = e.rl.ackEager := by
  cases performs hp with
  | aside => exact ⟨rfl, rfl⟩
  | @nextOut dst _ _ _ hstart =>
    rcases Reliable.nextOutStart_spec h dst with ⟨_, _, heq⟩ | ⟨_, heq⟩ <;>
      cases hstart.symm.trans heq <;> exact ⟨rfl, rfl⟩
  | advance _ hadv =>
    rcases Reliable.advance_cases hadv with ⟨rfl, _⟩ | ⟨bs, _, _, rfl, _⟩
    · exact ⟨rfl, rfl⟩
    · unfold Reliable.number
      split
      · exact ⟨rfl, rfl⟩
      · split <;> exact ⟨rfl, rfl⟩
  | @control c _ hc =>
    cases c with
    | ack n =>
      obtain ⟨⟨err, rl'⟩, ha, rfl⟩ := Option.map_eq_some_iff.mp hc
      rcases Reliable.ack_spec h n with ⟨_, heq⟩ | ⟨_, _, heq⟩ | ⟨_, _, _, heq⟩ <;>
        cases ha.symm.trans heq <;> exact ⟨rfl, rfl⟩
    | resumeOut n =>
      obtain ⟨⟨ok, rl'⟩, ha, rfl⟩ := Option.map_eq_some_iff.mp hc
      rcases Reliable.resumeOut_spec h n with ⟨_, heq⟩ | ⟨_, _, _, heq⟩ <;>
        cases ha.symm.trans heq <;> exact ⟨rfl, rfl⟩
    | rewindToAcked =>
      cases hc
      unfold Reliable.rewindToAcked
      split <;> exact ⟨rfl, rfl⟩
    | markBroken => cases hc; exact ⟨rfl, rfl⟩
    | takeAck | resetAck => cases hop
  | hear => cases hop

/-- An `advance` that ends the call with an interrupt takes the interrupt that was pending; any
other leaves it alone. -/
theorem advance_interrupted {fired : Bool} {call call' : NextOut} {rl rl' : Reliable}
    {out out' : BufferedPipe} (h : Reliable.advance fired call rl out = some (call', rl', out')) :
    (∃ res, call' = .returned res ∧ res.err = some .pipeInterrupted ∧ out.intr = true ∧
      out'.intr = false) ∨
    ((∀ res, call' = .returned res → res.err ≠ some .pipeInterrupted) ∧ out'.intr = out.intr) := by
  have hread : ∀ {dst : Nat} {st : ReadState} {p : BufferedPipe}, out.Reads dst st p →
      (st = .returned .interrupted → out.intr = true ∧ p.intr = false) →
      (∃ res, NextOut.ofRead dst st = .returned res ∧ res.err = some .pipeInterrupted ∧
        out.intr = true ∧ p.intr = false) ∨
      ((∀ res, NextOut.ofRead dst st = .returned res → res.err ≠ some .pipeInterrupted) ∧
        p.intr = out.intr) := by
    intro dst st p hr htook
    by_cases hst : st = .returned .interrupted
    · subst hst
      exact .inl ⟨_, rfl, rfl, htook rfl⟩
    · exact .inr ⟨fun res hres herr => hst (NextOut.ofRead_interrupted hres herr), hr.intr hst⟩
  cases call with
  | entering dst =>
    cases h
    exact hread (out.enter_reads dst) BufferedPipe.enter_interrupted
  | reading dst wait =>
    cases h
    exact hread (out.resume_reads dst _) BufferedPipe.resume_interrupted
  | taken bytes =>
    cases h
    refine .inr ⟨fun res hres => ?_, rfl⟩
    cases hres
    simp
  | returned res => cases h

/-- **Interrupts are conserved**: one that ended a call was pending or was raised. -/
theorem perform_cut (hop : op.plain = true) (hp : e.perform op = some e') :
    Paced.cut op e' + e'.out.intr.toNat + e'.nudges ≤
      Paced.kick op + e.out.intr.toNat + e.nudges := by
  cases op with
  | write data =>
    simp only [perform] at hp
    split at hp
    next => cases hp; simp [Paced.cut, Paced.kick]
    next out hw =>
      cases hp
      have hintr : out.intr = e.out.intr := by
        rw [(BufferedPipe.write_ok hw).2]
        unfold BufferedPipe.push
        split <;> rfl
      simp [Paced.cut, Paced.kick, hintr]
  | read dst =>
    obtain ⟨step, _, rfl⟩ := Option.map_eq_some_iff.mp hp
    simp [Paced.cut, Paced.kick]
  | closeOut | closeIn => cases hp; simp [Paced.cut, Paced.kick]
  | interruptOut =>
    cases hp
    simp only [Paced.cut, Paced.kick, BufferedPipe.interrupt_intr, Bool.toNat_true]
    omega
  | nudge =>
    simp only [perform] at hp
    split at hp
    next => cases hp
    next hpos =>
      cases hp
      simp only [Paced.cut, Paced.kick, BufferedPipe.interrupt_intr, Bool.toNat_true]
      omega
  | nextOut dst =>
    simp only [perform] at hp
    split at hp
    next =>
      obtain ⟨step, _, rfl⟩ := Option.map_eq_some_iff.mp hp
      simp [Paced.cut, Paced.kick]
    next => cases hp
  | advance fired =>
    simp only [perform, Option.bind_eq_bind, Option.bind_eq_some_iff] at hp
    obtain ⟨call, _, ⟨call', rl, out⟩, hadv, heq⟩ := hp
    cases heq
    rcases advance_interrupted hadv with ⟨res, rfl, herr, hwas, hnow⟩ | ⟨hnot, hsame⟩
    · simp [Paced.cut, Paced.kick, herr, hwas, hnow]
    · have hcut : Paced.cut (.advance fired) { e with call := some call', rl := rl, out := out } =
          0 := by
        cases call' with
        | returned res => simp [Paced.cut, hnot res rfl]
        | entering | reading | taken => rfl
      rw [hcut, hsame]
      exact Nat.le_refl _
  | control c =>
    obtain ⟨rl, _, rfl⟩ := Option.map_eq_some_iff.mp hp
    simp [Paced.cut, Paced.kick]
  | hear off p => cases hop

/-- What everyone else does leaves the interrupts that `recvIn` owes, or raises one of them. -/
theorem perform_nudges (hop : op.plain = true) (hp : e.perform op = some e') :
    e'.nudges ≤ e.nudges := by
  cases performs hp with
  | aside _ _ _ hnudges => exact hnudges
  | hear => cases hop
  | nextOut | advance | control => exact Nat.le_refl _

/-- What a data frame does to the acknowledgements: it moves `recvOffset` alone, and interrupts the
pipe only with new bytes and past the threshold. -/
theorem hear_acks {off : Nat} {p : Bytes} {err : Option Err} (h : e.rl.Wf)
    (hh : e.hear off p = some (err, e')) :
    e'.rl.Wf ∧ e'.out = e.out ∧ e'.rl.lastAck = e.rl.lastAck ∧ e'.rl.ackEager = e.rl.ackEager ∧
      e.rl.recvOffset ≤ e'.rl.recvOffset ∧
      (e'.nudges = e.nudges ∨ e'.nudges = e.nudges + 1 ∧ 0 < e.rl.ackEager ∧
        e.rl.lastAck + e.rl.ackEager ≤ e'.rl.recvOffset ∧ e.rl.recvOffset < off + p.length ∧
        e'.rl.recvOffset = off + p.length) := by
  obtain ⟨res, hr, heq⟩ := Option.bind_eq_some_iff.mp hh
  cases heq
  refine ⟨(Reliable.recvIn_trims h hr).wf, rfl, ?_⟩
  have hlast := h.lastAck_le
  rcases Reliable.recvIn_spec h e.inp off p with
    ⟨_, heq⟩ | ⟨_, heq⟩ | ⟨_, _, _, heq⟩ | ⟨_, hnew, _, heq⟩ <;> cases hr.symm.trans heq
  · exact ⟨rfl, rfl, Nat.le_refl _, .inl rfl⟩
  · exact ⟨rfl, rfl, Nat.le_refl _, .inl rfl⟩
  · exact ⟨rfl, rfl, Nat.le_refl _, .inl rfl⟩
  · refine ⟨rfl, rfl, Nat.le_of_lt hnew, ?_⟩
    by_cases hwake : 0 < e.rl.ackEager ∧ e.rl.ackEager ≤ off + p.length - e.rl.lastAck
    · refine .inr ⟨by rw [decide_eq_true hwake]; rfl, hwake.1, ?_, hnew, rfl⟩
      show e.rl.lastAck + e.rl.ackEager ≤ off + p.length
      omega
    · exact .inl (by rw [decide_eq_false hwake]; rfl)

end Endpoint

namespace Paced

/-! ## One step -/

/-- **The invariant.** Nothing is acknowledged that has not arrived; `lastAck` is past everything
acknowledged by a stream poll that is not fresh, and a session that downloads in batches never
moves it; and every call cut short is owed to an interrupt. -/
structure Inv (n : Negotiated) (s : Paced) : Prop where
  wf : s.e.rl.Wf
  eager : s.e.rl.ackEager = if n.streamUpload then ackEagerBytes else 0
  wire : s.wire ≤ s.recv
  taken : ∀ k ∈ s.taken, k ≤ s.recv
  stream : n.streamUpload = true → n.streamPoll = true → s.fresh = false →
    s.wire ≤ s.e.rl.lastAck ∧ ∀ k ∈ s.taken, k ≤ s.e.rl.lastAck
  batch : n.streamPoll = false → s.e.rl.lastAck = 0
  conserved : s.cuts + s.e.out.intr.toNat + s.e.nudges ≤ s.wakes + s.kicks

namespace Inv

variable {n : Negotiated} {s s' : Paced}

theorem init (cfg : ServerConfig) (n : Negotiated) : Inv n (machine cfg n).init where
  wf := Endpoint.new_wf _ _
  eager := by cases hup : n.streamUpload <;> simp [machine, Endpoint.new, hup] <;> rfl
  wire := Nat.zero_le _
  taken k hk := by cases hk
  stream _ _ _ := ⟨Nat.zero_le _, fun k hk => by cases hk⟩
  batch _ := by cases hup : n.streamUpload <;> simp [machine, Endpoint.new, hup] <;> rfl
  conserved := Nat.le_refl 0

/-- The layer moves on without receiving or acknowledging. -/
theorem setEndpoint (hi : Inv n s) {e : Endpoint} {kicks cuts : Nat} (hwf : e.rl.Wf)
    (hrecv : e.rl.recvOffset = s.e.rl.recvOffset) (hlast : e.rl.lastAck = s.e.rl.lastAck)
    (heager : e.rl.ackEager = s.e.rl.ackEager)
    (hcut : cuts + e.out.intr.toNat + e.nudges ≤ s.wakes + kicks) :
    Inv n { s with e := e, kicks := kicks, cuts := cuts } where
  wf := hwf
  eager := heager.trans hi.eager
  wire := by rw [recv, hrecv]; exact hi.wire
  taken := by rw [recv, hrecv]; exact hi.taken
  stream := by rw [hlast]; exact hi.stream
  batch := by rw [hlast]; exact hi.batch
  conserved := hcut

/-- An acknowledgement that was read leaves the list. -/
theorem untake (hi : Inv n s) {k wire : Nat} (hwire : wire = s.wire ∨ wire ∈ s.taken) :
    Inv n { s with wire := wire, taken := s.taken.erase k } where
  wf := hi.wf
  eager := hi.eager
  wire := hwire.elim (fun h => h ▸ hi.wire) (hi.taken wire)
  taken x hx := hi.taken x (List.mem_of_mem_erase hx)
  stream hup hpoll hfresh := by
    obtain ⟨hlast, htaken⟩ := hi.stream hup hpoll hfresh
    exact ⟨hwire.elim (fun h => h ▸ hlast) (htaken wire),
      fun x hx => htaken x (List.mem_of_mem_erase hx)⟩
  batch := hi.batch
  conserved := hi.conserved

theorem upload_step (hi : Inv n s) {off : Nat} {p : Bytes} {err : Option Err} {e : Endpoint}
    (he : s.e.hear off p = some (err, e)) :
    Inv n { s with e := e, wakes := s.wakes + (e.nudges - s.e.nudges) } := by
  obtain ⟨hwf, hout, hlast, heager, hle, hwake⟩ := Endpoint.hear_acks hi.wf he
  refine ⟨hwf, heager.trans hi.eager, Nat.le_trans hi.wire hle,
    fun k hk => Nat.le_trans (hi.taken k hk) hle, ?_, ?_, ?_⟩
  · rw [hlast]
    exact hi.stream
  · rw [hlast]
    exact hi.batch
  · have hcons := hi.conserved
    rw [hout]
    dsimp only
    rcases hwake with hsame | ⟨hone, -⟩ <;> omega

/-- After `takeAck` the record is where the upload is. -/
theorem take_step (hi : Inv n s) (hpoll : n.streamPoll = true) :
    Inv n { s with
      e := { s.e with rl := s.e.rl.takeAck.2 }
      taken := s.e.rl.takeAck.1.toList ++ s.taken
      fresh := false } := by
  have htake : s.e.rl.takeAck.2.lastAck = s.e.rl.recvOffset ∧
      s.e.rl.takeAck.2.recvOffset = s.e.rl.recvOffset ∧
      s.e.rl.takeAck.2.ackEager = s.e.rl.ackEager ∧
      ∀ k ∈ s.e.rl.takeAck.1.toList, k = s.e.rl.recvOffset := by
    unfold Reliable.takeAck
    split
    next heq => exact ⟨heq.symm, rfl, rfl, fun k hk => by cases hk⟩
    next => exact ⟨rfl, rfl, rfl, fun k hk => List.mem_singleton.mp hk⟩
  obtain ⟨hlast, hrecv, heager, hnew⟩ := htake
  have htaken : ∀ k ∈ s.e.rl.takeAck.1.toList ++ s.taken, k ≤ s.e.rl.recvOffset := by
    intro k hk
    rcases List.mem_append.mp hk with hk | hk
    · exact Nat.le_of_eq (hnew k hk)
    · exact hi.taken k hk
  refine ⟨hi.wf.takeAck, heager.trans hi.eager, ?_, ?_, ?_, ?_, hi.conserved⟩
  · exact Nat.le_trans hi.wire (Nat.le_of_eq hrecv.symm)
  · exact fun k hk => Nat.le_trans (htaken k hk) (Nat.le_of_eq hrecv.symm)
  · intro _ _ _
    rw [hlast]
    exact ⟨hi.wire, htaken⟩
  · intro hbatch
    rw [hpoll] at hbatch
    cases hbatch

/-- One step keeps the invariant. -/
theorem step (hi : Inv n s) {ev : PacedEvent} (hs : s.step n ev = some s') : Inv n s' := by
  cases moves_of_step hs with
  | op hop hp =>
    have hnot := EndOp.plain_ne_hear hop
    obtain ⟨hwf, hrecv⟩ := Endpoint.perform_recvOffset hi.wf hnot hp
    obtain ⟨hlast, heager⟩ := Endpoint.perform_acks hi.wf hop hp
    refine hi.setEndpoint hwf hrecv hlast heager ?_
    have hcut := Endpoint.perform_cut hop hp
    have hcons := hi.conserved
    omega
  | collect => exact hi.setEndpoint hi.wf rfl rfl rfl hi.conserved
  | upload hh => exact hi.upload_step hh
  | attach =>
    refine ⟨hi.wf.resetAck, hi.eager, hi.wire, hi.taken, ?_, fun _ => rfl, hi.conserved⟩
    intro _ _ hfresh
    cases hfresh
  | take hpoll => exact hi.take_step hpoll
  | answer hmode =>
    refine ⟨hi.wf, hi.eager, hi.wire, ?_, ?_, hi.batch, hi.conserved⟩
    · intro k hk
      rcases List.mem_cons.mp hk with rfl | hk
      · exact Nat.le_refl _
      · exact hi.taken k hk
    · -- a session that streams both ways has no batch response
      intro hup hpoll
      rcases hmode with h | h
      · rw [hpoll] at h
        cases h
      · rw [hup] at h
        cases h
  | write hk => exact hi.untake (.inr hk)
  | lose => exact hi.untake (.inl rfl)

end Inv

/-! ## Every run in which the record is in step -/

/-- **The condition**, on the state that a step starts in. An upload brings nothing new, or leaves all
that has arrived below the threshold, or finds the layer's record of the last acknowledgement in step
with the wire: no stream poll is fresh, or, with batch polls, nothing is acknowledged on the wire and
less than the threshold has arrived. And no acknowledgement goes out while `recvIn` is between its
lock and its interrupt. -/
def InStep (n : Negotiated) (s : Paced) : PacedEvent → Prop
  | .upload off p => n.streamUpload = true →
      off + p.length ≤ s.recv ∨ off + p.length < ackEagerBytes ∨
        if n.streamPoll then s.fresh = false else s.wire = 0 ∧ s.recv < ackEagerBytes
  | .write _ => s.e.nudges = 0
  | _ => True

instance (n : Negotiated) (s : Paced) : DecidablePred (InStep n s)
  | .upload off p => inferInstanceAs (Decidable (_ → off + p.length ≤ s.recv ∨ _ ∨ ite _ _ _))
  | .write _ => inferInstanceAs (Decidable (s.e.nudges = 0))
  | .op _ | .collect | .attach | .take | .answer | .lose _ => inferInstanceAs (Decidable True)

section
variable {cfg : ServerConfig} {n : Negotiated} {s s' : Paced}

/-- An upload that calls for an interrupt in step is due. -/
theorem Inv.due (hi : Inv n s) {off : Nat} {p : Bytes} (hin : InStep n s (.upload off p))
    (hs : s.step n (.upload off p) = some s') (hwake : s.e.nudges < s'.e.nudges) :
    s.wire + ackEagerBytes ≤ s'.recv ∧ s'.wakes = s.wakes + 1 ∧
      (n.streamPoll = false → s.recv < ackEagerBytes) := by
  obtain ⟨⟨err, e⟩, he, rfl⟩ := Option.map_eq_some_iff.mp hs
  obtain ⟨_, _, _, _, _, hnudge⟩ := Endpoint.hear_acks hi.wf he
  dsimp only at hwake ⊢
  rcases hnudge with hsame | ⟨hone, hpos, hdue, hnew, hrecv⟩
  · omega
  · have hup : n.streamUpload = true := by
      by_contra hno
      rw [hi.eager, if_neg hno] at hpos
      exact Nat.lt_irrefl 0 hpos
    rw [hi.eager, if_pos hup] at hdue
    -- new bytes past the threshold leave the third case of the condition
    have hin : if n.streamPoll then s.fresh = false else s.wire = 0 ∧ s.recv < ackEagerBytes := by
      rcases hin hup with hold | hbelow | hin
      · exact absurd hnew (Nat.not_lt.mpr hold)
      · omega
      · exact hin
    have hbehind : s.wire ≤ s.e.rl.lastAck := by
      by_cases hpoll : n.streamPoll = true
      · rw [if_pos hpoll] at hin
        exact (hi.stream hup hpoll hin).1
      · rw [if_neg hpoll] at hin
        rw [hin.1]
        exact Nat.zero_le _
    refine ⟨?_, by omega, fun hpoll => ?_⟩
    · show s.wire + ackEagerBytes ≤ e.rl.recvOffset
      omega
    · rw [if_neg (by rw [hpoll]; exact Bool.false_ne_true)] at hin
      exact hin.2

/-- Only uploads arrive, and only they call for an interrupt. -/
theorem Inv.still (hi : Inv n s) {ev : PacedEvent} (hs : s.step n ev = some s')
    (hev : ∀ off p, ev ≠ .upload off p) :
    s'.recv = s.recv ∧ s'.wakes = s.wakes ∧ s'.e.nudges ≤ s.e.nudges := by
  cases moves_of_step hs with
  | op hop hp =>
    exact ⟨(Endpoint.perform_recvOffset hi.wf (EndOp.plain_ne_hear hop) hp).2, rfl,
      Endpoint.perform_nudges hop hp⟩
  | @upload off p => exact absurd rfl (hev off p)
  | take =>
    refine ⟨?_, rfl, Nat.le_refl _⟩
    unfold recv Reliable.takeAck
    split <;> rfl
  | collect | attach | answer | write | lose => exact ⟨rfl, rfl, Nat.le_refl _⟩

/-- Only writing an acknowledgement moves the wire. -/
theorem wire_of_step {ev : PacedEvent} (hs : s.step n ev = some s') (hev : ∀ k, ev ≠ .write k) :
    s'.wire = s.wire := by
  cases moves_of_step hs with
  | @write k => exact absurd rfl (hev k)
  | op | collect | upload | attach | take | answer | lose => rfl

/-- An interrupt of `recvIn` is one that it owes. -/
theorem nudges_of_step (hs : s.step n (.op .nudge) = some s') : 0 < s.e.nudges := by
  cases moves_of_step hs with
  | op _ hp =>
    simp only [Endpoint.perform] at hp
    split at hp
    next => cases hp
    next hpos => exact Nat.pos_of_ne_zero hpos

theorem step_of_nudges (n : Negotiated) (howed : 0 < s.e.nudges) :
    ∃ s', s.step n (.op .nudge) = some s' := by
  simp [step, EndOp.plain, Endpoint.perform, Nat.ne_of_gt howed]

/-- **What holds in step**: an interrupt that is owed is due, and with batch polls there was at most
one for every threshold that was passed. -/
structure Due (n : Negotiated) (s : Paced) : Prop where
  owed : 0 < s.e.nudges → s.wire + ackEagerBytes ≤ s.recv
  sparse : n.streamPoll = false → s.wakes * ackEagerBytes ≤ s.recv

/-- An upload in step. -/
theorem Due.upload (hd : Due n s) (hi : Inv n s) {off : Nat} {p : Bytes}
    (hin : InStep n s (.upload off p)) (hs : s.step n (.upload off p) = some s') : Due n s' := by
  have hwire := wire_of_step hs (by simp)
  obtain ⟨hrecv, hnudges, hwakes⟩ : s.recv ≤ s'.recv ∧ s.e.nudges ≤ s'.e.nudges ∧
      s'.wakes = s.wakes + (s'.e.nudges - s.e.nudges) := by
    obtain ⟨⟨err, e⟩, he, rfl⟩ := Option.map_eq_some_iff.mp hs
    obtain ⟨_, _, _, _, hle, hnudge⟩ := Endpoint.hear_acks hi.wf he
    refine ⟨hle, ?_, rfl⟩
    rcases hnudge with hsame | ⟨hone, -⟩
    · exact Nat.le_of_eq hsame.symm
    · exact Nat.le_of_lt (Nat.lt_of_lt_of_eq (Nat.lt_succ_self _) hone.symm)
  rcases Nat.eq_or_lt_of_le hnudges with hsame | hwake
  · refine ⟨fun howed => ?_, fun hpoll => ?_⟩
    · rw [hwire]
      exact Nat.le_trans (hd.owed (hsame ▸ howed)) hrecv
    · rw [hwakes, hsame, Nat.sub_self, Nat.add_zero]
      exact Nat.le_trans (hd.sparse hpoll) hrecv
  · obtain ⟨hdue, hone, hbelow⟩ := hi.due hin hs hwake
    refine ⟨fun _ => hwire ▸ hdue, fun hpoll => ?_⟩
    -- the threshold was not reached before, so this is the first interrupt
    have hnone : s.wakes = 0 := by
      by_contra hsome
      have hle := Nat.le_mul_of_pos_left ackEagerBytes (Nat.pos_of_ne_zero hsome)
      exact absurd (Nat.lt_of_lt_of_le (hbelow hpoll) hle) (Nat.not_lt.mpr (hd.sparse hpoll))
    rw [hone, hnone, Nat.zero_add, Nat.one_mul]
    exact Nat.le_trans (Nat.le_add_left _ _) hdue

theorem Due.step (hd : Due n s) (hi : Inv n s) {ev : PacedEvent} (hin : InStep n s ev)
    (hs : s.step n ev = some s') : Due n s' := by
  by_cases hup : ∃ off p, ev = .upload off p
  · obtain ⟨off, p, rfl⟩ := hup
    exact hd.upload hi hin hs
  · obtain ⟨hrecv, hwakes, hnudges⟩ := hi.still hs fun off p hev => hup ⟨off, p, hev⟩
    refine ⟨fun howed => ?_, fun hpoll => by rw [hrecv, hwakes]; exact hd.sparse hpoll⟩
    have hbefore : 0 < s.e.nudges := Nat.lt_of_lt_of_le howed hnudges
    by_cases hwrite : ∃ k, ev = .write k
    · -- the condition keeps the wire where it is while an interrupt is owed
      obtain ⟨k, rfl⟩ := hwrite
      exact absurd hin (Nat.ne_of_gt hbefore)
    · rw [wire_of_step hs fun k hev => hwrite ⟨k, hev⟩, hrecv]
      exact hd.owed hbefore

/-- **Eager acks are paced by the wire where the record is in step with it.** In every run whose
steps all meet the condition, `recvIn` interrupts the pipe only when `ackEager` bytes have arrived
since the last acknowledgement on the wire, and batch polls are cut short by it at most once for
every `ackEager` bytes that have arrived. -/
theorem wakes_paced (hr : (machine cfg n).Reach (InStep n) s) :
    (∀ s', s.step n (.op .nudge) = some s' → s.wire + ackEagerBytes ≤ s.recv) ∧
    (n.streamPoll = false → s.cuts * ackEagerBytes ≤ s.recv + s.kicks * ackEagerBytes) := by
  have hboth : Inv n s ∧ Due n s :=
    Machine.Reach.invariant (P := fun s => Inv n s ∧ Due n s)
      ⟨.init cfg n, fun h => absurd h (Nat.lt_irrefl 0),
        fun _ => Nat.le_trans (Nat.le_of_eq (Nat.zero_mul _)) (Nat.zero_le _)⟩
      (fun _ _ _ _ h hin hs => ⟨h.1.step hs, h.2.step h.1 hin hs⟩) hr
  obtain ⟨hi, hd⟩ := hboth
  refine ⟨fun s' hs => hd.owed (nudges_of_step hs), fun hpoll => ?_⟩
  have hcuts : s.cuts ≤ s.wakes + s.kicks := by
    have hcons := hi.conserved
    omega
  calc s.cuts * ackEagerBytes ≤ (s.wakes + s.kicks) * ackEagerBytes :=
        Nat.mul_le_mul_right _ hcuts
    _ = s.wakes * ackEagerBytes + s.kicks * ackEagerBytes := Nat.add_mul _ _ _
    _ ≤ s.recv + s.kicks * ackEagerBytes := Nat.add_le_add_right (hd.sparse hpoll) _

/-- **The interrupt may come after the acknowledgement.** Whenever one is owed to a session with
stream polls that has something to acknowledge, the poll may take the acknowledgement and write it
first: then the pipe is interrupted with no byte arrived since. -/
theorem nudge_after_ack (cfg : ServerConfig) (hpoll : n.streamPoll = true) (howed : 0 < s.e.nudges)
    (hnew : s.e.rl.recvOffset ≠ s.e.rl.lastAck) :
    ∃ s', (machine cfg n).run s [.take, .write s.recv] = some s' ∧ s'.wire = s'.recv ∧
      ∃ s'', s'.step n (.op .nudge) = some s'' := by
  have htake : s.e.rl.takeAck = (some s.recv, { s.e.rl with lastAck := s.e.rl.recvOffset }) := by
    rw [Reliable.takeAck, if_neg hnew]
    rfl
  obtain ⟨s', hrun, hwire, hnudges⟩ : ∃ s', (machine cfg n).run s [.take, .write s.recv] = some s' ∧
      s'.wire = s'.recv ∧ s'.e.nudges = s.e.nudges := by
    simp [Machine.run, machine, step, hpoll, htake, recv]
  exact ⟨s', hrun, hwire, step_of_nudges n (hnudges ▸ howed)⟩

/-! ## Batch polls are cut short by every upload -/

/-- A batch poll waits for the first byte, and there is nothing to send it. -/
@[mk_iff]
structure Parked (s : Paced) (dst : Nat) : Prop where
  call : s.e.call = some (.reading dst (.first false))
  out : s.e.out.buf = [] ∧ s.e.out.closed = false ∧ s.e.out.intr = false
  inp : s.e.inp.closed = false
  nudges : s.e.nudges = 0
  sent : s.e.rl.sentCursor = s.e.rl.sendOffset
  taken : s.taken = []

/-- An upload arrives and wakes the poll, whose response acknowledges it; the client polls again. -/
def cutCycle (dst off : Nat) (p : Bytes) : List PacedEvent :=
  [.upload off p, .op .nudge, .op (.advance false), .collect, .answer, .write (off + p.length),
    .op (.nextOut dst), .op (.advance false)]

/-- Past the threshold `recvIn` always wakes a session that downloads in batches. -/
theorem Inv.recvIn_wakes (hi : Inv n s) (hup : n.streamUpload = true)
    (hpoll : n.streamPoll = false) {off : Nat} {p : Bytes} (hinp : s.e.inp.closed = false)
    (hoff : off ≤ s.recv) (hnew : s.recv < off + p.length)
    (hpast : ackEagerBytes ≤ off + p.length) :
    s.e.rl.recvIn s.e.inp off p = some
      ⟨none, true, { s.e.rl with recvOffset := off + p.length },
        s.e.inp.push (p.drop (s.e.rl.recvOffset - off))⟩ := by
  have hwake : 0 < s.e.rl.ackEager ∧ s.e.rl.ackEager ≤ off + p.length - s.e.rl.lastAck := by
    rw [hi.eager, if_pos hup, hi.batch hpoll]
    exact ⟨by decide, hpast⟩
  unfold recv at hoff hnew
  rcases Reliable.recvIn_spec hi.wf s.e.inp off p with
    ⟨h, _⟩ | ⟨h, _⟩ | ⟨_, _, h, _⟩ | ⟨_, _, _, heq⟩
  · omega
  · omega
  · rw [hinp] at h
    cases h
  · rw [heq, decide_eq_true hwake]

theorem upload_wakes (hi : Inv n s) (hup : n.streamUpload = true) (hpoll : n.streamPoll = false)
    {off : Nat} {p : Bytes} (hinp : s.e.inp.closed = false) (hoff : off ≤ s.recv)
    (hnew : s.recv < off + p.length) (hpast : ackEagerBytes ≤ off + p.length) :
    ∃ s', s.step n (.upload off p) = some s' ∧ s'.e.nudges = s.e.nudges + 1 ∧
      s'.recv = off + p.length ∧ s'.wire = s.wire := by
  have hrecv := hi.recvIn_wakes hup hpoll hinp hoff hnew hpast
  simp [step, Endpoint.hear, hrecv, recv]

/-- **Past the threshold every upload cuts a batch poll short**, however little has arrived since
the last response acknowledged everything. -/
theorem cut_short (cfg : ServerConfig) (hi : Inv n s) (hup : n.streamUpload = true)
    (hpoll : n.streamPoll = false) {dst off : Nat} {p : Bytes} (hparked : s.Parked dst)
    (hoff : off ≤ s.recv) (hnew : s.recv < off + p.length)
    (hpast : ackEagerBytes ≤ off + p.length) :
    ∃ s', (machine cfg n).run s (cutCycle dst off p) = some s' ∧ s'.Parked dst ∧
      s'.recv = off + p.length ∧ s'.wire = off + p.length ∧ s'.cuts = s.cuts + 1 ∧
      s'.kicks = s.kicks := by
  obtain ⟨hcall, ⟨hbuf, hclosed, -⟩, hinp, hnudges, hsent, htaken⟩ := hparked
  have hrecv := hi.recvIn_wakes hup hpoll hinp hoff hnew hpast
  simp [cutCycle, Machine.run, machine, step, EndOp.plain, Endpoint.perform, Endpoint.hear,
    hrecv, hnudges, hcall, hbuf, hclosed, hsent, htaken, hpoll, Reliable.advance,
    BufferedPipe.resume, BufferedPipe.awaitFirst, BufferedPipe.enter, NextOut.ofRead,
    BufferedPipe.interrupt, Endpoint.collect, Reliable.recvOffsetNow, Reliable.nextOutStart,
    cut, kick, recv, parked_iff, hinp]

end

/-- A server that lets clients stream and resume. -/
def resuming : Wiring := ⟨{ pollMode := .stream, enableResume := true }, by decide⟩

/-- A session that streams its uploads and downloads in batches. -/
def mixed : Negotiated :=
  negotiate resuming.effective
    { preferStreamUpload := true, preferResume := true, batchResume := true }

theorem Inv.reachable {cfg : ServerConfig} {n : Negotiated} {s : Paced}
    (h : (machine cfg n).Reachable s) : Inv n s :=
  Machine.Reach.invariant (P := Inv n) (.init cfg n) (fun _ _ _ _ hi _ hs => hi.step hs) h

/-- A batch poll is parked on a new session. -/
def parkedPoll : List PacedEvent := [.op (.nextOut 64), .op (.advance false)]

theorem parkedPoll_parked : Parked ((machine resuming.effective mixed).final parkedPoll) 64 := by
  rw [parked_iff]
  decide

/-- Half a window, all at once. -/
def window : Bytes := List.replicate ackEagerBytes 0

theorem window_length : 0 + window.length = ackEagerBytes := by
  rw [window, List.length_replicate, Nat.zero_add]

/-- The first half window wakes the poll, and is due. -/
theorem wakes_paced_window :
    ∃ s s', (machine resuming.effective mixed).Reach (InStep mixed) s ∧
      s.step mixed (.op .nudge) = some s' ∧ s.wire + ackEagerBytes ≤ s.recv := by
  have hstart : (machine resuming.effective mixed).Reach (InStep mixed)
      ((machine resuming.effective mixed).final parkedPoll) :=
    Machine.reach_final (by decide)
  obtain ⟨s, hs, hnudges, -⟩ := upload_wakes (Inv.reachable hstart.reachable) (by decide)
    (by decide) parkedPoll_parked.inp (Nat.le_refl 0) (by rw [window_length]; decide)
    (Nat.le_of_eq window_length.symm)
  have hin : InStep mixed ((machine resuming.effective mixed).final parkedPoll)
      (.upload 0 window) := by
    intro _
    refine .inr (.inr ?_)
    rw [if_neg (by decide)]
    decide
  have hreach : (machine resuming.effective mixed).Reach (InStep mixed) s :=
    Machine.Reach.step hstart hin ((machine_step ..).trans hs)
  obtain ⟨s', hs'⟩ := step_of_nudges mixed (show 0 < s.e.nudges by omega)
  exact ⟨s, s', hreach, hs', (wakes_paced hreach).1 s' hs'⟩

/-- Half a window arrives while a batch poll is parked, and the response acknowledges it. -/
theorem window_acknowledged :
    ∃ s, (machine resuming.effective mixed).Reachable s ∧ s.Parked 64 ∧ s.recv = ackEagerBytes ∧
      s.wire = ackEagerBytes ∧ s.cuts = 1 ∧ s.kicks = 0 := by
  have hstart := (machine resuming.effective mixed).reachable_final parkedPoll
  obtain ⟨s, hrun, hs, hrecv, hwire, hcuts, hkicks⟩ :=
    cut_short resuming.effective (p := window) (Inv.reachable hstart) (by decide) (by decide)
      parkedPoll_parked (Nat.le_refl 0) (by rw [window_length]; decide)
      (Nat.le_of_eq window_length.symm)
  exact ⟨s, hstart.run hrun, hs, hrecv.trans window_length, hwire.trans window_length, hcuts, hkicks⟩

/-- One more byte interrupts the next poll: a byte has arrived since the response, and two polls are
cut short for half a window and a byte. -/
theorem byte_wakes_poll :
    ∃ s s' s'', (machine resuming.effective mixed).Reachable s ∧
      s.step mixed (.op .nudge) = some s' ∧ s.recv = s.wire + 1 ∧
      (machine resuming.effective mixed).Reachable s'' ∧ s''.cuts = 2 ∧ s''.kicks = 0 ∧
      s''.recv = ackEagerBytes + 1 := by
  obtain ⟨s₀, hs₀, hparked, hrecv, hwire, hcuts, hkicks⟩ := window_acknowledged
  have hi := Inv.reachable hs₀
  have hoff : ackEagerBytes ≤ s₀.recv := Nat.le_of_eq hrecv.symm
  have hnew : s₀.recv < ackEagerBytes + [(0 : UInt8)].length := by
    rw [hrecv]
    exact Nat.lt_succ_self _
  have hpast : ackEagerBytes ≤ ackEagerBytes + [(0 : UInt8)].length := Nat.le_add_right _ _
  obtain ⟨s, hs, hnudges, hrecv', hwire'⟩ :=
    upload_wakes hi (by decide) (by decide) hparked.inp hoff hnew hpast
  obtain ⟨s', hs'⟩ := step_of_nudges mixed (show 0 < s.e.nudges by omega)
  obtain ⟨s'', hrun, -, hrecv'', -, hcuts'', hkicks''⟩ :=
    cut_short resuming.effective hi (by decide) (by decide) hparked hoff hnew hpast
  have hreach : (machine resuming.effective mixed).Reachable s :=
    hs₀.next ((machine_step ..).trans hs)
  refine ⟨s, s', s'', hreach, hs', ?_, hs₀.run hrun, by omega, by omega, hrecv''⟩
  rw [hrecv', hwire', hwire]
  rfl

end Paced

end Pollmux
