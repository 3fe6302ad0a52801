import Mathlib.Data.List.Infix
import Pollmux.Kit.Machine
import Pollmux.Pipe

/-!
# The batch uploads of a plain connection

`httpConn.Write` appends to `writeBuf` and starts a `flushLoop` unless one is
running; the loop takes the whole buffer, posts it chunk by chunk and ends when
it finds the buffer empty (`client.go`). A request may succeed, fail before the
server took its body, or fail after. On a failure the loop drops what is left in
its hands, signals the transport failure, clears `writeFlightOn` and returns.

The server accepts bodies without offsets, so order and completeness rest on the
client alone. They hold as long as nothing is posted after a failure. But a
failure does not close `Write`: the next one finds no flight on, starts another
loop and posts past the hole.

The model covers the time up to `Close`. Before it the context is done only if a
newer connect has superseded the session; from then on no request leaves.
-/

namespace Pollmux

open Kit

/-- Where a `flushLoop` is. -/
inductive FlushLoop
  /-- In the coalesce window. -/
  | coalescing
  /-- About to take `writeBuf`. -/
  | taking
  /-- About to post the next chunk of `buf`. -/
  | sending (buf : Bytes)
  /-- A send failed and `clearFlight` is next. -/
  | failing
  deriving DecidableEq, Repr

/-- What became of a `doSend`. -/
inductive SendResult
  | ok
  /-- It failed and the server has not taken the chunk. -/
  | lost
  /-- It failed although the server has taken the chunk. -/
  | replyLost
  deriving DecidableEq, Repr

/-- The upload side of an `httpConn` that sends in batches, and its server. `loops` are the loops
that have not returned. Recorded beside them: the bytes `Write` accepted, whether a send has
failed, and whether any request left after that. -/
structure HttpUpload where
  writeBuf : Bytes := []
  writeFlightOn : Bool := false
  loops : List FlushLoop := []
  ctxDone : Bool := false
  accepted : Bytes := []
  written : Bytes := []
  failed : Bool := false
  postedLate : Bool := false
  deriving DecidableEq, Repr

/-- One step. -/
inductive UploadEvent
  /-- `Write` with the bytes `p`. -/
  | write (p : Bytes)
  /-- The coalesce window of loop `i` is over. -/
  | wake (i : Nat)
  /-- Loop `i` finds the context done in its coalesce window. -/
  | quit (i : Nat)
  | take (i : Nat)
  | send (i : Nat) (result : SendResult)
  | clear (i : Nat)
  /-- The session guard finds a newer session in place of this one and cancels the context. -/
  | supersede
  deriving DecidableEq, Repr

/-- The bytes a loop has taken and not posted. -/
def FlushLoop.inHand : FlushLoop → Bytes
  | .sending buf => buf
  | _ => []

namespace HttpUpload

/-- The server takes the chunk unless the request was lost. -/
def acceptedAfter (accepted chunk : Bytes) : SendResult → Bytes
  | .lost => accepted
  | .ok | .replyLost => accepted ++ chunk

/-- Where the loop goes on after posting, with `rest` left to post. -/
def afterSend (rest : Bytes) : SendResult → FlushLoop
  | .ok => if rest = [] then .taking else .sending rest
  | .lost | .replyLost => .failing

/-- One step, with chunks of at most `maxSendChunk` bytes. -/
def step (maxSendChunk : Nat) (s : HttpUpload) : UploadEvent → Option HttpUpload
  | .write p =>
    if p = [] then some s
    else if s.writeFlightOn then
      some { s with writeBuf := s.writeBuf ++ p, written := s.written ++ p }
    else
      some { s with
        writeBuf := s.writeBuf ++ p
        written := s.written ++ p
        writeFlightOn := true
        loops := s.loops ++ [.coalescing] }
  | .wake i =>
    if s.loops[i]? = some .coalescing then some { s with loops := s.loops.set i .taking } else none
  | .quit i =>
    if s.loops[i]? = some .coalescing ∧ s.ctxDone then
      some { s with writeFlightOn := false, loops := s.loops.eraseIdx i }
    else none
  | .take i =>
    if s.loops[i]? = some .taking then
      if s.writeBuf = [] then
        some { s with writeFlightOn := false, loops := s.loops.eraseIdx i }
      else
        some { s with writeBuf := [], loops := s.loops.set i (.sending s.writeBuf) }
    else none
  | .send i result =>
    match s.loops[i]? with
    | some (.sending buf) =>
      -- under a context that is done the request fails before it leaves
      if s.ctxDone ∧ result ≠ .lost then none
      else
        some { s with
          loops := s.loops.set i (afterSend (buf.drop maxSendChunk) result)
          accepted := acceptedAfter s.accepted (buf.take maxSendChunk) result
          failed := s.failed || result != .ok
          postedLate := s.postedLate || (s.failed && !s.ctxDone) }
    | _ => none
  | .clear i =>
    if s.loops[i]? = some .failing then
      some { s with writeFlightOn := false, loops := s.loops.eraseIdx i }
    else none
  | .supersede => some { s with ctxDone := true }

/-- A new connection. -/
def machine (maxSendChunk : Nat) : Machine HttpUpload UploadEvent where
  init := {}
  step := step maxSendChunk

/-- The steps that leave a failed connection alone: no `Write` comes after a send has failed and
its loop has returned, unless the session is superseded by then. -/
def NoRestart (s : HttpUpload) : UploadEvent → Prop
  | .write p => p ≠ [] → s.failed = true → s.writeFlightOn = true ∨ s.ctxDone = true
  | _ => True

instance (s : HttpUpload) : ∀ ev : UploadEvent, Decidable (NoRestart s ev)
  | .write p =>
    inferInstanceAs
      (Decidable (p ≠ [] → s.failed = true → s.writeFlightOn = true ∨ s.ctxDone = true))
  | .wake _ | .quit _ | .take _ | .send _ _ | .clear _ | .supersede =>
    inferInstanceAs (Decidable True)

/-- The bytes the live loops have taken and not posted. -/
def inHand (s : HttpUpload) : Bytes := s.loops.flatMap FlushLoop.inHand

/-- A loop is alive exactly while `writeFlightOn` is set, and then it is the only one. -/
def OneLoop (s : HttpUpload) : Prop :=
  (s.loops = [] ∧ s.writeFlightOn = false) ∨ ∃ loop, s.loops = [loop] ∧ s.writeFlightOn = true

/-- **What a step does while there is at most one loop.** -/
inductive Moves (maxSendChunk : Nat) (s : HttpUpload) : UploadEvent → HttpUpload → Prop
  | nothing : Moves maxSendChunk s (.write []) s
  | join {p : Bytes} (hp : p ≠ []) (hon : s.writeFlightOn = true) :
      Moves maxSendChunk s (.write p)
        { s with writeBuf := s.writeBuf ++ p, written := s.written ++ p }
  | start {p : Bytes} (hp : p ≠ []) (hoff : s.writeFlightOn = false) (hl : s.loops = []) :
      Moves maxSendChunk s (.write p)
        { s with
          writeBuf := s.writeBuf ++ p
          written := s.written ++ p
          writeFlightOn := true
          loops := [.coalescing] }
  | wake (hl : s.loops = [.coalescing]) :
      Moves maxSendChunk s (.wake 0) { s with loops := [.taking] }
  | quit (hl : s.loops = [.coalescing]) (hd : s.ctxDone = true) :
      Moves maxSendChunk s (.quit 0) { s with writeFlightOn := false, loops := [] }
  | finish (hl : s.loops = [.taking]) (hb : s.writeBuf = []) :
      Moves maxSendChunk s (.take 0) { s with writeFlightOn := false, loops := [] }
  | take (hl : s.loops = [.taking]) (hb : s.writeBuf ≠ []) :
      Moves maxSendChunk s (.take 0) { s with writeBuf := [], loops := [.sending s.writeBuf] }
  | send {buf : Bytes} (hl : s.loops = [.sending buf]) (result : SendResult)
      (hd : s.ctxDone = true → result = .lost) :
      Moves maxSendChunk s (.send 0 result)
        { s with
          loops := [afterSend (buf.drop maxSendChunk) result]
          accepted := acceptedAfter s.accepted (buf.take maxSendChunk) result
          failed := s.failed || result != .ok
          postedLate := s.postedLate || (s.failed && !s.ctxDone) }
  | clear (hl : s.loops = [.failing]) :
      Moves maxSendChunk s (.clear 0) { s with writeFlightOn := false, loops := [] }
  | supersede : Moves maxSendChunk s .supersede { s with ctxDone := true }

variable {maxSendChunk : Nat} {s s' : HttpUpload} {ev : UploadEvent}

theorem OneLoop.only (h : OneLoop s) {i : Nat} {loop : FlushLoop} (hi : s.loops[i]? = some loop) :
    i = 0 ∧ s.loops = [loop] := by
  rcases h with ⟨hl, -⟩ | ⟨l, hl, -⟩
  · rw [hl] at hi
    cases hi
  · rw [hl] at hi
    cases i with
    | zero => exact ⟨rfl, hl.trans (congrArg ([·]) (Option.some.inj hi))⟩
    | succ i => cases hi

theorem moves_of_step (h : OneLoop s) (hs : step maxSendChunk s ev = some s') :
    Moves maxSendChunk s ev s' := by
  cases ev with
  | write p =>
    simp only [step] at hs
    split at hs
    next hp => cases hs; cases hp; exact .nothing
    next hp =>
      split at hs
      next hon => cases hs; exact .join hp hon
      next hoff =>
        rcases h with ⟨hl, hf⟩ | ⟨l, -, hon⟩
        · rw [hl] at hs
          cases hs
          exact .start hp hf hl
        · exact absurd hon hoff
  | wake i =>
    simp only [step] at hs
    split at hs
    next hi =>
      obtain ⟨rfl, hl⟩ := h.only hi
      rw [hl] at hs
      cases hs
      exact .wake hl
    next => cases hs
  | quit i =>
    simp only [step] at hs
    split at hs
    next hi =>
      obtain ⟨rfl, hl⟩ := h.only hi.1
      rw [hl] at hs
      cases hs
      exact .quit hl hi.2
    next => cases hs
  | take i =>
    simp only [step] at hs
    split at hs
    next hi =>
      obtain ⟨rfl, hl⟩ := h.only hi
      rw [hl] at hs
      split at hs
      next hb => cases hs; exact .finish hl hb
      next hb => cases hs; exact .take hl hb
    next => cases hs
  | send i result =>
    simp only [step] at hs
    split at hs
    next buf hi =>
      obtain ⟨rfl, hl⟩ := h.only hi
      rw [hl] at hs
      split at hs
      next => cases hs
      next hd =>
        cases hs
        exact .send hl result fun hdone => by_contra fun hne => hd ⟨hdone, hne⟩
    next => cases hs
  | clear i =>
    simp only [step] at hs
    split at hs
    next hi =>
      obtain ⟨rfl, hl⟩ := h.only hi
      rw [hl] at hs
      cases hs
      exact .clear hl
    next => cases hs
  | supersede => cases hs; exact .supersede

theorem OneLoop.step (h : OneLoop s) (hm : Moves maxSendChunk s ev s') : OneLoop s' := by
  -- A loop that moves on was the one alive, so the flag is set.
  have hon : ∀ {loop : FlushLoop}, s.loops = [loop] → s.writeFlightOn = true := by
    intro loop hl
    rcases h with ⟨hnil, -⟩ | ⟨-, -, hf⟩
    · rw [hl] at hnil
      cases hnil
    · exact hf
  cases hm with
  | nothing | join _ _ | supersede => exact h
  | start _ _ _ => exact .inr ⟨_, rfl, rfl⟩
  | wake hl => exact .inr ⟨_, rfl, hon hl⟩
  | take hl _ => exact .inr ⟨_, rfl, hon hl⟩
  | send hl _ _ => exact .inr ⟨_, rfl, hon hl⟩
  | quit _ _ | finish _ _ | clear _ => exact .inl ⟨rfl, rfl⟩

theorem oneLoop_reach {ok : HttpUpload → UploadEvent → Prop}
    (h : (machine maxSendChunk).Reach ok s) : OneLoop s :=
  h.invariant (P := OneLoop) (.inl ⟨rfl, rfl⟩) fun _ _ _ _ ih _ hs => ih.step (moves_of_step ih hs)

theorem inHand_of_loops {loop : FlushLoop} (hl : s.loops = [loop]) : s.inHand = loop.inHand := by
  rw [inHand, hl, List.flatMap_singleton]

/-- After a success the loop holds what it has not posted. -/
theorem inHand_afterSend_ok (rest : Bytes) : (afterSend rest .ok).inHand = rest := by
  simp only [afterSend]
  split
  next hrest => exact hrest.symm
  next => rfl

/-- What the server has, what the loop holds and what is buffered. -/
def content (s : HttpUpload) : Bytes := s.accepted ++ s.inHand ++ s.writeBuf

/-- A step adds to the content what it writes. A failed send, and nothing else, drops bytes. -/
theorem Moves.content (hm : Moves maxSendChunk s ev s') :
    ∃ p, s'.written = s.written ++ p ∧ s'.content.Sublist (s.content ++ p) ∧
      (s'.failed = false → s'.content = s.content ++ p) := by
  -- All but a failed send are equations, which give the two last parts at once.
  have equation : ∀ {p : Bytes}, s'.written = s.written ++ p → s'.content = s.content ++ p →
      ∃ p, s'.written = s.written ++ p ∧ s'.content.Sublist (s.content ++ p) ∧
        (s'.failed = false → s'.content = s.content ++ p) := by
    intro p hw hc
    exact ⟨p, hw, hc ▸ List.Sublist.refl _, fun _ => hc⟩
  cases hm with
  | nothing | supersede => exact equation (List.append_nil _).symm (List.append_nil _).symm
  | join _ _ => exact equation rfl (List.append_assoc _ _ _).symm
  | start _ _ hl =>
    refine equation rfl ?_
    simp only [HttpUpload.content, HttpUpload.inHand, hl, List.flatMap_nil, List.flatMap_singleton,
      FlushLoop.inHand, List.append_nil, List.append_assoc]
  | wake hl =>
    refine equation (List.append_nil _).symm ?_
    simp only [HttpUpload.content, HttpUpload.inHand, hl, List.flatMap_singleton,
      FlushLoop.inHand, List.append_nil]
  | quit hl _ | finish hl _ | clear hl =>
    refine equation (List.append_nil _).symm ?_
    simp only [HttpUpload.content, HttpUpload.inHand, hl, List.flatMap_nil, List.flatMap_singleton,
      FlushLoop.inHand, List.append_nil]
  | take hl _ =>
    refine equation (List.append_nil _).symm ?_
    simp only [HttpUpload.content, HttpUpload.inHand, hl, List.flatMap_singleton,
      FlushLoop.inHand, List.append_nil]
  | @send buf hl result _ =>
    have hcut : s.content = s.accepted ++ (buf.take maxSendChunk ++ buf.drop maxSendChunk) ++
        s.writeBuf := by
      rw [HttpUpload.content, inHand_of_loops hl, List.take_append_drop]
      rfl
    cases result with
    | ok =>
      refine equation (List.append_nil _).symm ?_
      rw [hcut]
      simp only [HttpUpload.content, HttpUpload.inHand, List.flatMap_singleton, inHand_afterSend_ok, acceptedAfter,
        List.append_nil, List.append_assoc]
    | lost =>
      refine ⟨[], (List.append_nil _).symm, ?_, fun hf => ?_⟩
      · rw [hcut, List.append_nil]
        simp only [HttpUpload.content, HttpUpload.inHand, List.flatMap_singleton, afterSend, FlushLoop.inHand,
          acceptedAfter]
        exact ((List.nil_sublist _).append_left _).append_right _
      · exact absurd hf (by simp)
    | replyLost =>
      refine ⟨[], (List.append_nil _).symm, ?_, fun hf => ?_⟩
      · rw [hcut, List.append_nil]
        simp only [HttpUpload.content, HttpUpload.inHand, List.flatMap_singleton, afterSend, FlushLoop.inHand,
          acceptedAfter, List.append_nil]
        exact ((List.sublist_append_left _ _).append_left _).append_right _
      · exact absurd hf (by simp)

/-- What the server takes in a step is the front of what the loop holds. -/
theorem Moves.accepted (hm : Moves maxSendChunk s ev s') :
    s'.accepted <+: s.accepted ++ s.inHand := by
  cases hm with
  | @send buf hl result _ =>
    rw [inHand_of_loops hl]
    cases result with
    | lost => exact List.prefix_append _ _
    | ok | replyLost => exact (List.prefix_append_right_inj _).mpr (List.take_prefix _ _)
  | _ => exact List.prefix_append _ _

/-- It takes nothing of a session that is superseded. -/
theorem Moves.accepted_of_done (hm : Moves maxSendChunk s ev s') (hd : s.ctxDone = true) :
    s'.accepted = s.accepted := by
  cases hm with
  | send _ result hlost => rw [hlost hd]; rfl
  | _ => rfl

/-- A failure is not forgotten. -/
theorem Moves.failed (hm : Moves maxSendChunk s ev s') (hf : s'.failed = false) :
    s.failed = false := by
  cases hm with
  | send _ _ _ => exact (Bool.or_eq_false_iff.mp hf).1
  | _ => exact hf

/-- **Holes, and nothing worse.** In every run what the server has is what was written with some
of it missing: no byte is doubled or out of order. -/
theorem accepted_in_order (h : (machine maxSendChunk).Reachable s) :
    s.accepted.Sublist s.written := by
  have hc : s.content.Sublist s.written := by
    refine h.invariant (P := fun s => s.content.Sublist s.written) (List.Sublist.refl _) ?_
    intro s ev s' hr ih _ hs
    obtain ⟨p, hw, hsub, -⟩ := (moves_of_step (oneLoop_reach hr) hs).content
    rw [hw]
    exact hsub.trans (ih.append_right p)
  refine List.Sublist.trans ?_ hc
  rw [content, List.append_assoc]
  exact List.sublist_append_left _ _

/-- What a connection that is left alone after a failure keeps. Before the failure nothing is
missing; after it the loop, if it is still there, only has its flag to clear, unless the session is
superseded. -/
structure Inv (s : HttpUpload) : Prop where
  whole : s.failed = false → s.content = s.written
  leaving : s.failed = true → s.ctxDone = false → ∀ loop ∈ s.loops, loop = .failing
  sent : s.accepted <+: s.written
  onTime : s.postedLate = false

/-- A loop that has something else to do is one of a connection that has not failed, or of a
session that is superseded. -/
theorem Inv.unfailed (h : Inv s) {loop : FlushLoop} (hl : s.loops = [loop])
    (hne : loop ≠ .failing) (hd : s.ctxDone = false) : s.failed = false := by
  rw [← Bool.not_eq_true]
  exact fun hf => hne (h.leaving hf hd loop (hl ▸ List.mem_singleton_self loop))

/-- A loop that goes on is on its way out if a send has failed. -/
theorem Inv.leaving_step (h : Inv s) (hm : Moves maxSendChunk s ev s') (hok : NoRestart s ev)
    (hf : s'.failed = true) (hd : s'.ctxDone = false) : ∀ loop ∈ s'.loops, loop = .failing := by
  cases hm with
  | nothing | join _ _ => exact h.leaving hf hd
  | start hp hoff _ =>
    rcases hok hp hf with hon | hdone
    · exact absurd hon (by simp [hoff])
    · exact Bool.noConfusion (hdone.symm.trans hd)
  | wake hl => exact absurd hf (by simp [h.unfailed hl (by nofun) hd])
  | take hl _ => exact absurd hf (by simp [h.unfailed hl (by nofun) hd])
  | quit _ _ | finish _ _ | clear _ => exact fun _ hmem => nomatch hmem
  | send hl result _ =>
    rw [h.unfailed hl (by nofun) hd, Bool.false_or] at hf
    intro loop hmem
    rw [List.mem_singleton.mp hmem]
    cases result with
    | ok => cases hf
    | lost | replyLost => rfl
  | supersede => cases hd

/-- What the server has stays a prefix: of a connection that has not failed it grows by what comes
next, and otherwise it does not grow. -/
theorem Inv.sent_step (h : Inv s) (hm : Moves maxSendChunk s ev s') :
    s'.accepted <+: s.written := by
  cases hfailed : s.failed with
  | false =>
    rw [← h.whole hfailed]
    exact hm.accepted.trans (List.prefix_append _ _)
  | true =>
    cases hdone : s.ctxDone with
    | true =>
      rw [hm.accepted_of_done hdone]
      exact h.sent
    | false =>
      -- the loop has dropped what it held
      have hnone : s.inHand = [] := by
        refine List.flatMap_eq_nil_iff.mpr fun loop hmem => ?_
        rw [h.leaving hfailed hdone loop hmem]
        rfl
      have hacc := hm.accepted
      rw [hnone, List.append_nil] at hacc
      exact hacc.trans h.sent

/-- No request leaves after a failure. -/
theorem Inv.onTime_step (h : Inv s) (hm : Moves maxSendChunk s ev s') : s'.postedLate = false := by
  cases hm with
  | send hl _ _ =>
    show (s.postedLate || (s.failed && !s.ctxDone)) = false
    cases hdone : s.ctxDone with
    | true => rw [h.onTime, Bool.not_true, Bool.and_false, Bool.or_false]
    | false => rw [h.onTime, h.unfailed hl (by nofun) hdone, Bool.false_and, Bool.or_false]
  | _ => exact h.onTime

theorem Inv.step (h : Inv s) (hm : Moves maxSendChunk s ev s') (hok : NoRestart s ev) : Inv s' := by
  obtain ⟨p, hw, -, hc⟩ := hm.content
  exact
    { whole := fun hf => by rw [hc hf, hw, h.whole (hm.failed hf)]
      leaving := h.leaving_step hm hok
      sent := (h.sent_step hm).trans (hw ▸ List.prefix_append _ _)
      onTime := h.onTime_step hm }

/-- **No hole in a connection that is left alone.** In every run in which no `Write` comes after a
send has failed and its loop has returned (other than on a superseded session), the bodies the
server accepted make up a prefix of what `Write` accepted, and no request leaves after a failure. -/
theorem left_alone_no_hole (h : (machine maxSendChunk).Reach NoRestart s) :
    s.accepted <+: s.written ∧ s.postedLate = false := by
  have inv : Inv s := by
    refine h.invariant (P := Inv) ⟨fun _ => rfl, fun hf => Bool.noConfusion hf, List.prefix_refl _, rfl⟩ ?_
    intro s ev s' hr ih hok hs
    exact ih.step (moves_of_step (oneLoop_reach hr) hs) hok
  exact ⟨inv.sent, inv.onTime⟩

/-- A run that fails with a second `Write` waiting in the buffer and a third one on the way. -/
def bufferedRun : List UploadEvent :=
  [.write [1, 2, 3], .wake 0, .take 0, .send 0 .ok, .write [4], .send 0 .replyLost, .write [5],
    .clear 0]

theorem bufferedRun_no_hole :
    ((machine 2).final bufferedRun).failed = true ∧
      ((machine 2).final bufferedRun).accepted = [1, 2, 3] ∧
      ((machine 2).final bufferedRun).accepted <+: ((machine 2).final bufferedRun).written := by
  have hr : (machine 2).Reach NoRestart ((machine 2).final bufferedRun) :=
    Machine.reach_final (by decide)
  exact ⟨by decide, by decide, (left_alone_no_hole hr).1⟩

/-- A `Write` after a failed send. -/
def restartRun : List UploadEvent :=
  [.write [1], .wake 0, .take 0, .send 0 .lost, .clear 0, .write [2], .wake 0, .take 0,
    .send 0 .ok]

/-- **It posts past the hole.** The server has the second write without the first. -/
theorem write_after_failure_leaves_hole :
    (machine 4).Reachable ((machine 4).final restartRun) ∧
      ((machine 4).final restartRun).accepted = [2] ∧
      ((machine 4).final restartRun).written = [1, 2] ∧
      ¬ ((machine 4).final restartRun).accepted <+: ((machine 4).final restartRun).written :=
  ⟨Machine.reachable_final _ _, by decide, by decide, by decide⟩

/-- A loop whose requests all succeed posts everything it holds. -/
theorem sends_all (hpos : 0 < maxSendChunk) (hd : s.ctxDone = false) {buf : Bytes} (hb : buf ≠ [])
    (hl : s.loops = [.sending buf]) :
    ∃ n, (machine maxSendChunk).run s (List.replicate n (.send 0 .ok)) = some { s with
      loops := [.taking]
      accepted := s.accepted ++ buf
      postedLate := s.postedLate || s.failed } := by
  -- Each request takes at least one byte off the buffer.
  induction hn : buf.length using Nat.strong_induction_on generalizing s buf with
  | _ len ih =>
    have hstep : (machine maxSendChunk).step s (.send 0 .ok) = some { s with
        loops := [afterSend (buf.drop maxSendChunk) .ok]
        accepted := s.accepted ++ buf.take maxSendChunk
        postedLate := s.postedLate || s.failed } := by
      simp [machine, HttpUpload.step, hl, hd, acceptedAfter]
    by_cases hrest : buf.drop maxSendChunk = []
    · refine ⟨1, ?_⟩
      have hall : buf.take maxSendChunk = buf :=
        List.take_of_length_le (List.drop_eq_nil_iff.mp hrest)
      rw [List.replicate_one, Machine.run, hstep, hall, afterSend, if_pos hrest]
      rfl
    · have hlen : 0 < buf.length := List.length_pos_iff.mpr hb
      obtain ⟨n, hrun⟩ := ih (buf.drop maxSendChunk).length
        (by rw [List.length_drop]; omega) (s := { s with
          loops := [.sending (buf.drop maxSendChunk)]
          accepted := s.accepted ++ buf.take maxSendChunk
          postedLate := s.postedLate || s.failed }) hd hrest rfl rfl
      refine ⟨n + 1, ?_⟩
      rw [List.replicate_succ, Machine.run, hstep, afterSend, if_neg hrest]
      refine hrun.trans ?_
      rw [List.append_assoc, List.take_append_drop, Bool.or_assoc, Bool.or_self]

/-- **Any such `Write` does.** From every state of a run left alone so far, a `Write` that comes
after a failure whose loop has returned can have its bytes, and all that was buffered before them,
accepted right behind what the server had when the send failed. -/
theorem restart_posts (hpos : 0 < maxSendChunk) (h : (machine maxSendChunk).Reach NoRestart s)
    {p : Bytes} (hno : ¬ NoRestart s (.write p)) :
    ∃ as s', (machine maxSendChunk).run s (.write p :: as) = some s' ∧
      s'.accepted = s.accepted ++ (s.writeBuf ++ p) ∧ s'.postedLate = true := by
  obtain ⟨hp, hf, hoff, hd⟩ :
      p ≠ [] ∧ s.failed = true ∧ s.writeFlightOn = false ∧ s.ctxDone = false := by
    simpa [NoRestart] using hno
  have hl : s.loops = [] := by
    rcases oneLoop_reach h with ⟨hl, -⟩ | ⟨-, -, hon⟩
    · exact hl
    · rw [hoff] at hon
      cases hon
  have hb : s.writeBuf ++ p ≠ [] := List.append_ne_nil_of_right_ne_nil _ hp
  let taken : HttpUpload := { s with
    writeBuf := []
    written := s.written ++ p
    writeFlightOn := true
    loops := [.sending (s.writeBuf ++ p)] }
  have htaken : (machine maxSendChunk).run s [.write p, .wake 0, .take 0] = some taken := by
    simp [Machine.run, machine, HttpUpload.step, hp, hoff, hl, taken]
  obtain ⟨n, hrun⟩ := sends_all (s := taken) hpos hd hb rfl
  have hall := Machine.run_append htaken hrun
  have hlate : (s.postedLate || s.failed) = true := by
    rw [hf, Bool.or_true]
  exact ⟨.wake 0 :: .take 0 :: List.replicate n (.send 0 .ok), _, hall, rfl, hlate⟩

end HttpUpload

end Pollmux
