import Pollmux.Reliable.Stream

/-!
# An endpoint: a layer, its pipes and the `nextOut` call of its transport

An `Endpoint` is one `reliable` with the two pipes it points to and the single
`nextOut` call its attached transport may have in progress. `perform` runs one
atomic region of one operation: the application writes, reads or closes, the
transport starts or advances its call, the peer's offsets and frames arrive. A
call that has returned keeps its result until `collect` hands it to the
transport. The nudge that `recvIn` gives its own sender happens after the layer's
lock is released, so it is a region of its own.

`Sending w e` says that the endpoint is the sending side of the stream `w`, the
result its transport has not collected included. `Sending.perform` is the one
preservation lemma: every operation keeps it, and only a write extends the
stream.
-/

namespace Pollmux

open Kit

/-- A layer, its two pipes, the call in progress and the nudges `recvIn` still owes. -/
structure Endpoint where
  rl : Reliable
  out : BufferedPipe := {}
  inp : BufferedPipe := {}
  call : Option NextOut := none
  nudges : Nat := 0
  deriving DecidableEq, Repr

/-- One atomic region of an operation on an endpoint. -/
inductive EndOp
  /-- The application writes into `out`. -/
  | write (data : Bytes)
  /-- The application reads from `in`. -/
  | read (dst : Nat)
  | closeOut
  | closeIn
  /-- Anyone interrupts the sender's wait. -/
  | interruptOut
  /-- A nudge that `recvIn` owes is delivered. -/
  | nudge
  /-- The transport calls `nextOut` with a buffer of `dst` bytes. -/
  | nextOut (dst : Nat)
  /-- The call in progress crosses one more region. -/
  | advance (fired : Bool)
  /-- An ack, a resume or another control operation with any offset. -/
  | control (c : Control)
  /-- A data frame from the peer. -/
  | hear (off : Nat) (p : Bytes)
  deriving DecidableEq, Repr

/-- The operations that touch neither the layer nor its call. -/
def EndOp.aside : EndOp → Bool
  | .write _ | .read _ | .closeOut | .closeIn | .interruptOut | .nudge => true
  | .nextOut _ | .advance _ | .control _ | .hear _ _ => false

namespace Endpoint

/-- `newReliable` over two new pipes, with or without eager acks. -/
def new (maxReplay : Int) (eager : Bool) : Endpoint :=
  { rl := if eager then .new maxReplay else (Reliable.new maxReplay).disableEagerAck }

/-- The bytes taken from `out` and not numbered. -/
def hand (e : Endpoint) : Bytes := e.call.elim [] NextOut.inHand

/-- `recvIn` with what it answers. -/
def hear (e : Endpoint) (off : Nat) (p : Bytes) : Option (Option Err × Endpoint) := do
  let res ← e.rl.recvIn e.inp off p
  some (res.err, { e with
    rl := res.rl
    inp := res.inp
    nudges := if res.wake then e.nudges + 1 else e.nudges })

/-- One region of one operation; `none` where it is not enabled or would fault. -/
def perform (e : Endpoint) : EndOp → Option Endpoint
  | .write data =>
    match e.out.write data with
    | .error _ => some e
    | .ok out => some { e with out := out }
  | .read dst => (e.inp.read dst).map fun step => { e with inp := step.2 }
  | .closeOut => some { e with out := e.out.close }
  | .closeIn => some { e with inp := e.inp.close }
  | .interruptOut => some { e with out := e.out.interrupt }
  | .nudge =>
    if e.nudges = 0 then none
    else some { e with out := e.out.interrupt, nudges := e.nudges - 1 }
  | .nextOut dst =>
    match e.call with
    | none => (e.rl.nextOutStart dst).map fun step => { e with call := some step.1, rl := step.2 }
    | some _ => none
  | .advance fired => do
    let call ← e.call
    let (call', rl, out) ← Reliable.advance fired call e.rl e.out
    some { e with call := some call', rl := rl, out := out }
  | .control c => (e.rl.control c).map fun rl => { e with rl := rl }
  | .hear off p => (e.hear off p).map (·.2)

/-- The transport collects what its `nextOut` call returned. -/
def collect (e : Endpoint) : Option (NextResult × Endpoint) :=
  match e.call with
  | some (.returned res) => some (res, { e with call := none })
  | _ => none

/-- What is collected was returned, and the call is over. -/
theorem collected {e e' : Endpoint} {res : NextResult} (hc : e.collect = some (res, e')) :
    e.call = some (.returned res) ∧ e' = { e with call := none } := by
  unfold collect at hc
  split at hc
  next hcall =>
    cases hc
    exact ⟨hcall, rfl⟩
  next => cases hc

/-- The bytes an operation adds to the stream: those of a write that `out` accepts. -/
def wrote (e : Endpoint) : EndOp → Bytes
  | .write data => if e.out.closed then [] else data
  | _ => []

theorem wrote_of_ne {e : Endpoint} {op : EndOp} (h : ∀ data, op ≠ .write data) :
    e.wrote op = [] := by
  cases op with
  | write data => exact absurd rfl (h data)
  | _ => rfl

/-- **What an operation can do to an endpoint.** -/
inductive Performs (e : Endpoint) : EndOp → Endpoint → Prop
  /-- The application, an interrupt or a nudge: only the pipes change, no interrupt is taken out of
  them and no nudge is added. -/
  | aside {op : EndOp} {out inp : BufferedPipe} {nudges : Nat} (hop : op.aside = true)
      (hbuf : out.buf = e.out.buf ++ e.wrote op) (hintr : e.out.intr = true → out.intr = true)
      (hnudges : nudges ≤ e.nudges) :
      Performs e op { e with out := out, inp := inp, nudges := nudges }
  | nextOut {dst : Nat} {call : NextOut} {rl : Reliable} (hcall : e.call = none)
      (hstart : e.rl.nextOutStart dst = some (call, rl)) :
      Performs e (.nextOut dst) { e with call := some call, rl := rl }
  | advance {fired : Bool} {call call' : NextOut} {rl : Reliable} {out : BufferedPipe}
      (hcall : e.call = some call)
      (hadv : Reliable.advance fired call e.rl e.out = some (call', rl, out)) :
      Performs e (.advance fired) { e with call := some call', rl := rl, out := out }
  | control {c : Control} {rl : Reliable} (hc : e.rl.control c = some rl) :
      Performs e (.control c) { e with rl := rl }
  | hear {off : Nat} {p : Bytes} {res : Received} (hr : e.rl.recvIn e.inp off p = some res) :
      Performs e (.hear off p)
        { e with
          rl := res.rl
          inp := res.inp
          nudges := if res.wake then e.nudges + 1 else e.nudges }

theorem performs {e e' : Endpoint} {op : EndOp} (hp : e.perform op = some e') :
    e.Performs op e' := by
  cases op with
  | write data =>
    simp only [perform] at hp
    cases hc : e.out.closed with
    | true =>
      rw [BufferedPipe.write_of_closed hc] at hp
      cases hp
      exact .aside rfl (by rw [wrote, hc]; exact (List.append_nil _).symm) id (Nat.le_refl _)
    | false =>
      rw [BufferedPipe.write_of_open hc] at hp
      cases hp
      refine .aside rfl (by rw [wrote, hc, BufferedPipe.push_buf]; rfl) (fun hi => ?_) (Nat.le_refl _)
      exact (BufferedPipe.push_intr _ _).trans hi
  | read dst =>
    obtain ⟨step, _, rfl⟩ := Option.map_eq_some_iff.mp hp
    exact .aside rfl (List.append_nil _).symm id (Nat.le_refl _)
  | closeOut => cases hp; exact .aside rfl (List.append_nil _).symm id (Nat.le_refl _)
  | closeIn => cases hp; exact .aside rfl (List.append_nil _).symm id (Nat.le_refl _)
  | interruptOut => cases hp; exact .aside rfl (List.append_nil _).symm (fun _ => rfl) (Nat.le_refl _)
  | nudge =>
    simp only [perform] at hp
    split at hp
    next => cases hp
    next => cases hp; exact .aside rfl (List.append_nil _).symm (fun _ => rfl) (Nat.sub_le _ _)
  | nextOut dst =>
    simp only [perform] at hp
    split at hp
    next hcall =>
      obtain ⟨⟨call, rl⟩, hstart, rfl⟩ := Option.map_eq_some_iff.mp hp
      exact .nextOut hcall hstart
    next => cases hp
  | advance fired =>
    simp only [perform, Option.bind_eq_bind, Option.bind_eq_some_iff] at hp
    obtain ⟨call, hcall, ⟨call', rl, out⟩, hadv, heq⟩ := hp
    cases heq
    exact .advance hcall hadv
  | control c =>
    obtain ⟨rl, hc, rfl⟩ := Option.map_eq_some_iff.mp hp
    exact .control hc
  | hear off p =>
    obtain ⟨⟨err, e''⟩, hh, rfl⟩ := Option.map_eq_some_iff.mp hp
    obtain ⟨res, hr, heq⟩ := Option.bind_eq_some_iff.mp hh
    cases heq
    exact .hear hr

theorem new_wf (maxReplay : Int) (eager : Bool) : (new maxReplay eager).rl.Wf := by
  have h := Reliable.new_wf maxReplay
  cases eager with
  | true => exact h
  | false => exact ⟨h.acked_le, h.cursor_le, h.replay_end, h.replay_le, h.replay_nil, h.lastAck_le⟩

/-- A new endpoint has sent, received and retained nothing, and is not broken. -/
theorem new_zero (maxReplay : Int) (eager : Bool) :
    (new maxReplay eager).rl.sendOffset = 0 ∧ (new maxReplay eager).rl.recvOffset = 0 ∧
      (new maxReplay eager).rl.replay = [] ∧ (new maxReplay eager).rl.broken = false := by
  cases eager <;> exact ⟨rfl, rfl, rfl, rfl⟩

/-- **An endpoint that sends the stream `w`**, up to and including the chunk its transport has
not collected yet. -/
structure Sending (w : Bytes) (e : Endpoint) : Prop where
  sends : Sends w e.rl e.hand e.out
  chunk : ∀ res, e.call = some (.returned res) → SliceAt w res.off res.bytes

namespace Sending

variable {w : Bytes} {e e' : Endpoint}

theorem new (maxReplay : Int) (eager : Bool) : Sending [] (Endpoint.new maxReplay eager) where
  sends := .fresh (new_wf maxReplay eager) (new_zero maxReplay eager).1
    (new_zero maxReplay eager).2.2.1 rfl
  chunk := nofun

/-- The layer changes by an operation that numbers nothing. -/
theorem trims (h : Sending w e) {rl : Reliable} (ht : e.rl.Trims rl) :
    Sending w { e with rl := rl } :=
  ⟨h.sends.trims ht, h.chunk⟩

/-- Only the layer, the bytes of `out` and the call matter. -/
theorem congr (h : Sending w e) (hrl : e'.rl = e.rl) (hbuf : e'.out.buf = e.out.buf)
    (hcall : e'.call = e.call) : Sending w e' where
  sends := by
    have hh : e'.hand = e.hand := by rw [hand, hand, hcall]
    rw [hrl, hh]
    exact h.sends.congr_out hbuf
  chunk res hres := h.chunk res (hcall ▸ hres)

/-- **Every operation keeps the endpoint sending its stream**, which only an accepted write
extends. -/
theorem perform (h : Sending w e) {op : EndOp} (hp : e.perform op = some e') :
    Sending (w ++ e.wrote op) e' := by
  cases performs hp with
  | aside _ hbuf _ _ =>
    refine ⟨(h.sends.push (e.wrote op)).congr_out ?_,
      fun res hres => (h.chunk res hres).append_stream _⟩
    rw [BufferedPipe.push_buf]
    exact hbuf
  | nextOut hcall hstart =>
    rw [wrote_of_ne (by simp), List.append_nil]
    have hs : Sends w e.rl [] e.out := by simpa only [hand, hcall, Option.elim] using h.sends
    obtain ⟨hsends, _, hchunk⟩ := hs.start hstart
    exact ⟨hsends, fun res hres => hchunk res (Option.some.inj hres)⟩
  | @advance _ call _ _ _ hcall hadv =>
    rw [wrote_of_ne (by simp), List.append_nil]
    have hs : Sends w e.rl call.inHand e.out := by
      simpa only [hand, hcall, Option.elim] using h.sends
    obtain ⟨hsends, _, hchunk⟩ := hs.advance hadv
    exact ⟨hsends, fun res hres => hchunk res (Option.some.inj hres)⟩
  | control hc =>
    rw [wrote_of_ne (by simp), List.append_nil]
    exact h.trims (Reliable.control_trims h.sends.wf hc).1
  | hear hr =>
    rw [wrote_of_ne (by simp), List.append_nil]
    exact (h.trims (Reliable.recvIn_trims h.sends.wf hr)).congr rfl rfl rfl

/-- An operation that is not a write leaves the stream as it is. -/
theorem perform_of_ne (h : Sending w e) {op : EndOp} (hop : ∀ data, op ≠ .write data)
    (hp : e.perform op = some e') : Sending w e' := by
  have hs := h.perform hp
  rwa [wrote_of_ne hop, List.append_nil] at hs

/-- Collecting a result hands over an honest chunk. -/
theorem collect (h : Sending w e) {res : NextResult} (hc : e.collect = some (res, e')) :
    Sending w e' ∧ SliceAt w res.off res.bytes := by
  obtain ⟨hcall, rfl⟩ := Endpoint.collected hc
  have hs := h.sends
  simp only [hand, hcall, Option.elim, NextOut.inHand] at hs
  exact ⟨⟨hs, nofun⟩, h.chunk res hcall⟩

end Sending

/-- Every operation keeps the layer's representation invariant. -/
theorem perform_wf {e e' : Endpoint} {op : EndOp} (h : e.rl.Wf) (hp : e.perform op = some e') :
    e'.rl.Wf := by
  cases performs hp with
  | aside => exact h
  | @nextOut dst _ _ _ hstart =>
    rcases Reliable.nextOutStart_spec h dst with ⟨hb, _, heq⟩ | ⟨_, heq⟩
    · cases heq.symm.trans hstart
      exact h.replays hb dst
    · cases heq.symm.trans hstart
      exact h
  | advance _ hadv =>
    rcases Reliable.advance_cases hadv with ⟨rfl, _⟩ | ⟨bs, _, _, rfl, _⟩
    · exact h
    · exact h.number bs
  | control hc => exact (Reliable.control_trims h hc).1.wf
  | hear hr => exact (Reliable.recvIn_trims h hr).wf

/-- No operation but a data frame from the peer moves `recvOffset`. -/
theorem perform_recvOffset {e e' : Endpoint} {op : EndOp} (h : e.rl.Wf)
    (hop : ∀ off p, op ≠ .hear off p) (hp : e.perform op = some e') :
    e'.rl.Wf ∧ e'.rl.recvOffset = e.rl.recvOffset := by
  refine ⟨perform_wf h hp, ?_⟩
  cases performs hp with
  | aside => rfl
  | @nextOut dst _ _ _ hstart =>
    rcases Reliable.nextOutStart_spec h dst with ⟨_, _, heq⟩ | ⟨_, heq⟩ <;>
      cases heq.symm.trans hstart <;> rfl
  | advance _ hadv =>
    rcases Reliable.advance_cases hadv with ⟨rfl, _⟩ | ⟨bs, _, _, rfl, _⟩
    · rfl
    · exact (e.rl.number_offsets bs).2.2.1
  | control hc => exact (Reliable.control_trims h hc).2
  | @hear off p _ _ => exact absurd rfl (hop off p)

/-- What a call may return ends within what is numbered by then, and no number is taken back. -/
theorem perform_numbered {e e' : Endpoint} {op : EndOp} (h : e.rl.Wf)
    (hp : e.perform op = some e') :
    e.rl.sendOffset ≤ e'.rl.sendOffset ∧ ∀ res, e'.call = some (.returned res) →
      e.call = some (.returned res) ∨ res.off + res.bytes.length ≤ e'.rl.sendOffset := by
  cases performs hp with
  | aside => exact ⟨Nat.le_refl _, fun _ hres => .inl hres⟩
  | @nextOut dst _ _ _ hstart =>
    rcases Reliable.nextOutStart_spec h dst with ⟨hb, _, heq⟩ | ⟨_, heq⟩
    · cases heq.symm.trans hstart
      refine ⟨Nat.le_refl _, fun res hres => .inr ?_⟩
      cases hres
      exact (h.replays hb dst).cursor_le
    · cases heq.symm.trans hstart
      exact ⟨Nat.le_refl _, fun _ hres => by cases hres⟩
  | advance _ hadv =>
    rcases Reliable.advance_cases hadv with ⟨rfl, _, _, _, hnone⟩ | ⟨bs, _, rfl, rfl, _⟩
    · refine ⟨Nat.le_refl _, fun res hres => .inr ?_⟩
      obtain ⟨hoff, hbytes⟩ := hnone res (Option.some.inj hres)
      rw [hoff, hbytes]
      exact Nat.zero_le _
    · have hsend := (e.rl.number_offsets bs).1
      refine ⟨hsend ▸ Nat.le_add_right _ _, fun res hres => .inr ?_⟩
      cases hres
      exact Nat.le_of_eq hsend.symm
  | control hc =>
    exact ⟨Nat.le_of_eq (Reliable.control_trims h hc).1.sendOffset.symm, fun _ hres => .inl hres⟩
  | hear hr =>
    exact ⟨Nat.le_of_eq (Reliable.recvIn_trims h hr).sendOffset.symm, fun _ hres => .inl hres⟩

/-- A data frame takes `recvOffset` no further than the frame's end, and never back. -/
theorem hear_recvOffset {e e' : Endpoint} {off : Nat} {p : Bytes} {err : Option Err} (h : e.rl.Wf)
    (hh : e.hear off p = some (err, e')) :
    e.rl.recvOffset ≤ e'.rl.recvOffset ∧
      e'.rl.recvOffset ≤ max e.rl.recvOffset (off + p.length) := by
  obtain ⟨res, hr, heq⟩ := Option.bind_eq_some_iff.mp hh
  cases heq
  rcases Reliable.recvIn_spec h e.inp off p with
    ⟨_, heq⟩ | ⟨_, heq⟩ | ⟨_, _, _, heq⟩ | ⟨_, hlt, _, heq⟩ <;> cases heq.symm.trans hr
  · exact ⟨Nat.le_refl _, Nat.le_max_left _ _⟩
  · exact ⟨Nat.le_refl _, Nat.le_max_left _ _⟩
  · exact ⟨Nat.le_refl _, Nat.le_max_left _ _⟩
  · exact ⟨Nat.le_of_lt hlt, Nat.le_max_right _ _⟩

/-- What an endpoint makes of a data frame that leaves no gap: it takes what is new, or finds its
`in` closed and changes nothing. -/
theorem hear_spec {e e' : Endpoint} {off : Nat} {p : Bytes} {err : Option Err} (h : e.rl.Wf)
    (hoff : off ≤ e.rl.recvOffset) (hh : e.hear off p = some (err, e')) :
    e'.out = e.out ∧ e'.call = e.call ∧
      ((err = none ∧ e'.rl = { e.rl with recvOffset := max e.rl.recvOffset (off + p.length) }) ∨
        (err = some .closedPipe ∧ e'.rl = e.rl)) := by
  obtain ⟨res, hr, heq⟩ := Option.bind_eq_some_iff.mp hh
  cases heq
  refine ⟨rfl, rfl, ?_⟩
  rcases Reliable.recvIn_spec h e.inp off p with
    ⟨hgap, _⟩ | ⟨hold, heq⟩ | ⟨_, _, _, heq⟩ | ⟨_, hnew, _, heq⟩
  · omega
  · rw [heq] at hr
    cases hr
    exact .inl ⟨rfl, by rw [Nat.max_eq_left hold]⟩
  · rw [heq] at hr
    cases hr
    exact .inr ⟨rfl, rfl⟩
  · rw [heq] at hr
    cases hr
    exact .inl ⟨rfl, by rw [Nat.max_eq_right (Nat.le_of_lt hnew)]⟩

/-- Under the representation invariant `recvIn` does not fault. -/
theorem hear_total {e : Endpoint} (h : e.rl.Wf) (off : Nat) (p : Bytes) :
    ∃ err e', e.hear off p = some (err, e') := by
  unfold hear
  rcases Reliable.recvIn_spec h e.inp off p with
    ⟨_, heq⟩ | ⟨_, heq⟩ | ⟨_, _, _, heq⟩ | ⟨_, _, _, heq⟩
  all_goals exact ⟨_, _, by rw [heq]; rfl⟩

theorem hear_wf {e e' : Endpoint} {off : Nat} {p : Bytes} {err : Option Err} (h : e.rl.Wf)
    (hh : e.hear off p = some (err, e')) : e'.rl.Wf := by
  obtain ⟨res, hr, heq⟩ := Option.bind_eq_some_iff.mp hh
  cases heq
  exact (Reliable.recvIn_trims h hr).wf

/-- **What `recvIn` does to what was received**: it appends what is new, or it answers an error and
leaves it alone; only a gap breaks the layer. -/
theorem hear_cases {e e' : Endpoint} {off : Nat} {p : Bytes} {err : Option Err} (h : e.rl.Wf)
    (hh : e.hear off p = some (err, e')) :
    (err = none ∧ off ≤ e.rl.recvOffset ∧ e'.rl.broken = e.rl.broken ∧
      e'.inp.buf = e.inp.buf ++ p.drop (e.rl.recvOffset - off) ∧
      e'.rl.recvOffset = max e.rl.recvOffset (off + p.length)) ∨
    (err ≠ none ∧ (e'.rl.broken = e.rl.broken ∨ e.rl.recvOffset < off) ∧
      e'.inp.buf = e.inp.buf ∧ e'.rl.recvOffset = e.rl.recvOffset) := by
  obtain ⟨res, hr, heq⟩ := Option.bind_eq_some_iff.mp hh
  cases heq
  rcases Reliable.recvIn_spec h e.inp off p with
    ⟨hgap, heq⟩ | ⟨hold, heq⟩ | ⟨_, _, _, heq⟩ | ⟨hlo, hnew, _, heq⟩
  · rw [heq] at hr
    cases hr
    exact .inr ⟨by simp, .inr hgap, rfl, rfl⟩
  · rw [heq] at hr
    cases hr
    refine .inl ⟨rfl, by omega, rfl, ?_, (Nat.max_eq_left hold).symm⟩
    rw [List.drop_eq_nil_of_le (by omega), List.append_nil]
  · rw [heq] at hr
    cases hr
    exact .inr ⟨by simp, .inl rfl, rfl, rfl⟩
  · rw [heq] at hr
    cases hr
    exact .inl ⟨rfl, hlo, rfl, BufferedPipe.push_buf _ _, (Nat.max_eq_right (Nat.le_of_lt hnew)).symm⟩

/-- Nothing but a data frame from the peer puts bytes into `in`. -/
theorem perform_inp {e e' : Endpoint} {op : EndOp} (hop : ∀ off p, op ≠ .hear off p)
    (hp : e.perform op = some e') : e'.inp.buf <:+ e.inp.buf := by
  cases op with
  | write data =>
    simp only [perform] at hp
    split at hp
    next => cases hp; exact List.suffix_refl _
    next => cases hp; exact List.suffix_refl _
  | read dst =>
    obtain ⟨step, hread, rfl⟩ := Option.map_eq_some_iff.mp hp
    unfold BufferedPipe.read at hread
    split at hread
    next =>
      split at hread
      next => cases hread; exact List.suffix_refl _
      next => cases hread
    next => cases hread; exact List.drop_suffix _ _
  | closeOut => cases hp; exact List.suffix_refl _
  | closeIn => cases hp; exact List.suffix_refl _
  | interruptOut => cases hp; exact List.suffix_refl _
  | nudge =>
    simp only [perform] at hp
    split at hp
    next => cases hp
    next => cases hp; exact List.suffix_refl _
  | nextOut dst =>
    cases performs hp with
    | aside haside => cases haside
    | nextOut => exact List.suffix_refl _
  | advance fired =>
    cases performs hp with
    | aside haside => cases haside
    | advance => exact List.suffix_refl _
  | control c =>
    cases performs hp with
    | aside haside => cases haside
    | control => exact List.suffix_refl _
  | hear off p => exact absurd rfl (hop off p)

end Endpoint

end Pollmux
