import Pollmux.Server.BatchUpload

/-!
# What a 200 says about an upload

The three upload paths of `PollHandler` on one session that may be closed at any
moment. A plain body and the data frames of a stream have no numbers: their bytes
are queued if the request's own steps appended them, `written`. Numbered bytes
may have been queued by an earlier request, and the session tells them by their
numbers: they are queued if the queue reaches to their end, `Reached`. The frames
of a stream are those of its whole body, whether the handler reads them or not.

A handler comes to a 200 in four ways (`Accepts`), and three of them leave data
behind. The plain path logs the error of `writeUpstream` and answers 200 all the
same. `pollBatchResumable` returns without an answer if its context is done, and
`pollSendStream` if a read fails or a frame is too long, and `net/http` sends a 200
for both; `pollSendStream` reads nothing after `frameEnd` either. `Leaves` is what
each of them has to meet for that, in the state before its last step.
-/

namespace Pollmux

open Kit

/-! ## The data of a request -/

/-- The frames of a body, at most `fuel` of them, whatever their types and lengths. The last one has
what there is of its payload. -/
def framesIn : Nat → Bytes → List Frame
  | 0, _ => []
  | fuel + 1, r =>
    match readFull frameHeaderLen r with
    | .error _ => []
    | .ok (hdr, r) =>
      ⟨hdr.headD 0, r.take (bigEndian (hdr.drop 1))⟩ ::
        framesIn fuel (r.drop (bigEndian (hdr.drop 1)))

/-- The frames of a body. -/
def uploadFrames (body : Bytes) : List Frame := framesIn (body.length + 1) body

/-- The unnumbered bytes of a frame. -/
def Frame.plainData (f : Frame) : Bytes := if f.typ = frameData then f.payload else []

/-- The numbered bytes of a frame. -/
def Frame.chunk? (f : Frame) : Option Chunk :=
  if f.typ = frameSeqData then
    match splitSeq f.payload with
    | .ok (off, bytes) => some ⟨off, bytes⟩
    | .error _ => none
  else none

theorem Frame.plainData_of_ne {f : Frame} (h : f.typ ≠ frameData) : f.plainData = [] := if_neg h

theorem Frame.chunk?_of_ne {f : Frame} (h : f.typ ≠ frameSeqData) : f.chunk? = none := if_neg h

theorem Frame.chunk?_seq {f : Frame} {off : Nat} {bytes : Bytes} (htyp : f.typ = frameSeqData)
    (hsplit : splitSeq f.payload = .ok (off, bytes)) : f.chunk? = some ⟨off, bytes⟩ := by
  rw [Frame.chunk?, if_pos htyp, hsplit]

/-- What follows a header is shorter. -/
theorem readFull_header_lt {r hdr rest : Bytes} (h : readFull frameHeaderLen r = .ok (hdr, rest)) :
    rest.length < r.length := by
  unfold readFull at h
  split at h
  next hle =>
    cases h
    rw [List.length_drop]
    have hpos : 0 < frameHeaderLen := by decide
    omega
  next => split at h <;> cases h

theorem framesIn_fuel {fuel fuel' : Nat} {r : Bytes} (h : r.length < fuel)
    (h' : r.length < fuel') : framesIn fuel r = framesIn fuel' r := by
  induction fuel generalizing fuel' r with
  | zero => cases h
  | succ fuel ih =>
    cases fuel' with
    | zero => cases h'
    | succ fuel' =>
      unfold framesIn
      cases hhdr : readFull frameHeaderLen r with
      | error e => rfl
      | ok out =>
        obtain ⟨hdr, rest⟩ := out
        have hlt := readFull_header_lt hhdr
        have hdrop := List.length_drop (l := rest) (i := bigEndian (hdr.drop 1))
        dsimp only
        rw [ih (show _ < fuel by omega) (show _ < fuel' by omega)]

/-- What `next` returns is the payload that the header declares. -/
theorem next_splits {maxPayload : Int} {r rest : Bytes} {f : Frame}
    (h : next maxPayload r = .ok (f, rest)) :
    ∃ hdr r', readFull frameHeaderLen r = .ok (hdr, r') ∧
      f = ⟨hdr.headD 0, r'.take (bigEndian (hdr.drop 1))⟩ ∧
      rest = r'.drop (bigEndian (hdr.drop 1)) := by
  unfold next at h
  cases hhdr : readFull frameHeaderLen r with
  | error e =>
    rw [hhdr] at h
    cases h
  | ok out =>
    obtain ⟨hdr, r'⟩ := out
    refine ⟨hdr, r', rfl, ?_⟩
    rw [hhdr] at h
    dsimp only at h
    split at h
    next hzero =>
      cases h
      rw [hzero]
      exact ⟨rfl, rfl⟩
    next =>
      split at h
      next => cases h
      next =>
        cases hbody : readFull (bigEndian (hdr.drop 1)) r' with
        | error e =>
          rw [hbody] at h
          cases h
        | ok out =>
          rw [hbody] at h
          cases h
          unfold readFull at hbody
          split at hbody
          next => cases hbody; exact ⟨rfl, rfl⟩
          next => split at hbody <;> cases hbody

/-- A frame that `next` reads is the first one. -/
theorem uploadFrames_cons {maxPayload : Int} {r rest : Bytes} {f : Frame}
    (h : next maxPayload r = .ok (f, rest)) : uploadFrames r = f :: uploadFrames rest := by
  obtain ⟨hdr, r', hhdr, rfl, rfl⟩ := next_splits h
  have hlt := readFull_header_lt hhdr
  have hdrop := List.length_drop (l := r') (i := bigEndian (hdr.drop 1))
  rw [uploadFrames, framesIn, hhdr]
  dsimp only
  rw [uploadFrames, framesIn_fuel (by omega) (Nat.lt_succ_self _)]

/-- The numbered data of a request. -/
def HttpRequest.chunks (m : SessionMode) (q : HttpRequest) : List Chunk :=
  match route m q.header with
  | .batch true =>
    match batchOffset q.header headerSendOffset with
    | .ok off => [⟨off, q.body⟩]
    | .error _ => []
  | .sendStream false => (uploadFrames q.body).filterMap Frame.chunk?
  | _ => []

/-- Its unnumbered data. -/
def HttpRequest.plainData (m : SessionMode) (q : HttpRequest) : Bytes :=
  match route m q.header with
  | .plain true => q.body
  | .sendStream false => (uploadFrames q.body).flatMap Frame.plainData
  | _ => []

/-- The upload paths. -/
def Path.uploads : Path → Bool
  | .plain true | .batch true | .sendStream false => true
  | _ => false

/-- The queue reaches to the end of the chunk. -/
def Reached (queued : Bytes) (c : Chunk) : Prop := c.off + c.bytes.length ≤ queued.length

instance (queued : Bytes) : DecidablePred (Reached queued) :=
  fun _ => inferInstanceAs (Decidable (_ ≤ _))

theorem Reached.append {queued : Bytes} {c : Chunk} (h : Reached queued c) (more : Bytes) :
    Reached (queued ++ more) c := by
  have hle := h
  unfold Reached at hle ⊢
  rw [List.length_append]
  omega

namespace Intake

/-- The bytes that these steps appended to `toServer`. -/
def written (tr : List (Endpoint × Endpoint)) : Bytes :=
  tr.flatMap fun x => x.2.inp.buf.drop x.1.inp.buf.length

theorem written_snoc (tr : List (Endpoint × Endpoint)) {e e' : Endpoint} {more : Bytes}
    (h : e'.inp.buf = e.inp.buf ++ more) : written (tr ++ [(e, e')]) = written tr ++ more := by
  unfold written
  rw [List.flatMap_append, List.flatMap_singleton]
  dsimp only
  rw [h, List.drop_left]

theorem written_still (tr : List (Endpoint × Endpoint)) {e e' : Endpoint}
    (h : e'.inp.buf = e.inp.buf) : written (tr ++ [(e, e')]) = written tr := by
  rw [written_snoc tr (h.trans (List.append_nil _).symm), List.append_nil]

variable {cfg : ServerConfig} {m : SessionMode} {req : Nat → Option HttpRequest} {s s' : Intake}
  {q : HttpRequest} {h : Nat} {pc pc' : TaskPc} {ep : Endpoint}

/-! ## The way to a 200 -/

/-- **A last step that is answered 200.** -/
inductive Accepts (s : Intake) (h : Nat) : TaskPc → Endpoint → Prop
  | wrote {data : Bytes} {inp : BufferedPipe} (hopen : data = [] ∨ s.ep.inp.closed = false)
      (hbuf : inp.buf = s.ep.inp.buf ++ data) : Accepts s h (.writing data) { s.ep with inp := inp }
  | dropped {data : Bytes} (hne : data ≠ []) (hclosed : s.ep.inp.closed = true) :
      Accepts s h (.writing data) s.ep
  | cancelled {ack : Nat} {upload : Option (Nat × Bytes)} (hctx : (s.task h).ctxDone = true) :
      Accepts s h (.checkingContext ack upload) s.ep
  | report : Accepts s h .reporting s.ep
  | respond {res : NextResult} : Accepts s h (.got res) s.ep
  /-- The end of the body, `frameEnd`, or a failure of `next`. -/
  | stop {rest : Bytes} : Accepts s h (.framing rest) s.ep

/-- **The data of the request `q` is queued**, in a session with the queue `queued`, if the steps of
the request are `tr`: they appended what has no numbers, which a resumable session never takes, and
the queue reaches to the end of what has numbers, which no other session has. -/
structure Accounted (m : SessionMode) (q : HttpRequest) (queued : Bytes)
    (tr : List (Endpoint × Endpoint)) : Prop where
  plain : m.resumable = false → written tr = q.plainData m
  unnumbered : m.resumable = true → q.plainData m = []
  numbered : ∀ c ∈ q.chunks m, c.bytes = [] ∨ m.resumable = true ∧ Reached queued c

/-- **What the last step of a request leaves behind**, told from the state before it: a plain upload
meets a closed pipe; a batch upload has its context done, and new bytes; a stream has bytes in what is
left of its body that are not numbered, or new. -/
def Leaves (m : SessionMode) (ep : Endpoint) (ctxDone : Bool) : TaskPc → Prop
  | .writing data => data ≠ [] ∧ ep.inp.closed = true
  | .checkingContext _ (some (off, data)) =>
    ctxDone = true ∧ data ≠ [] ∧ ep.rl.recvOffset < off + data.length
  | .framing rest =>
    (uploadFrames rest).flatMap Frame.plainData ≠ [] ∨
      ∃ c ∈ (uploadFrames rest).filterMap Frame.chunk?, c.bytes ≠ [] ∧
        (m.resumable = true → ep.rl.recvOffset < c.off + c.bytes.length)
  | _ => False

/-! ## The plain path -/

/-- **What a plain upload has done where it is.** -/
def PlainCourse (q : HttpRequest) (tr : List (Endpoint × Endpoint)) : TaskPc → Prop
  | .new | .readingBody none => written tr = []
  | .writing data => data = q.body ∧ written tr = []
  | .answered _ => True
  | _ => False

theorem Acts.plainCourse (ha : Acts cfg m s q h pc pc' ep) (hroute : route m q.header = .plain true)
    {tr : List (Endpoint × Endpoint)} (hc : PlainCourse q tr pc) :
    PlainCourse q (tr ++ [(s.ep, ep)]) pc' := by
  cases ha with
  | refuse | tooLarge | wrote | dropped | cancelled | report | respond => trivial
  | start hb =>
    cases hb with
    | refused => trivial
    | plain => exact (written_still tr rfl).trans hc
    | elsewhere h =>
      rw [hroute] at h
      cases h
    | resumableStream h | plainStream h | upload h | checkPoll h | poll h =>
      cases hroute.symm.trans h
  | @body offsets _ _ =>
    cases offsets with
    | none => exact ⟨rfl, (written_still tr rfl).trans hc⟩
    | some offsets => exact hc.elim
  | empty | proceed | ack | receive | rewind | call | advance | collect | attached | frame =>
    exact hc.elim

/-! ## Numbers and the queue -/

/-- What `recvIn` appends it counts. -/
theorem hear_counts {e e' : Endpoint} {off : Nat} {p : Bytes} {err : Option Err} (hwf : e.rl.Wf)
    (hear : e.hear off p = some (err, e')) :
    e.rl.recvOffset + (e'.inp.buf.drop e.inp.buf.length).length = e'.rl.recvOffset := by
  rcases Endpoint.hear_cases hwf hear with ⟨-, hle, -, hbuf, hrecv⟩ | ⟨-, -, hbuf, hrecv⟩
  · rw [hbuf, hrecv, List.drop_left, List.length_drop]
    omega
  · rw [hbuf, hrecv, List.drop_length]
    rfl

/-- On a resumable session a step appends what it counts; a plain upload has no place there. -/
theorem Acts.counts (ha : Acts cfg m s q h pc pc' ep) (hwf : s.ep.rl.Wf)
    (hres : m.resumable = true) (hplain : ∀ data, pc ≠ .writing data) :
    s.ep.rl.recvOffset + (ep.inp.buf.drop s.ep.inp.buf.length).length = ep.rl.recvOffset := by
  cases ha.brings hwf with
  | nothing hbuf hrecv =>
    rw [hbuf, hrecv, List.drop_length]
    rfl
  | plain hno _ =>
    rcases hno with hno | ⟨data, hpc⟩
    · cases hno.symm.trans hres
    · exact absurd hpc (hplain data)
  | chunk hear _ => exact hear_counts hwf hear

/-- The places of a plain upload before its answer. -/
def Plain : TaskPc → Prop
  | .readingBody none | .writing _ => True
  | _ => False

/-- A plain upload is one on a plain session. -/
theorem plain_of_route {sendOnly : Bool} (hroute : route m q.header = .plain sendOnly) :
    m.resumable = false := by
  unfold route at hroute
  split at hroute
  next => split at hroute <;> cases hroute
  next =>
    split at hroute
    next =>
      dsimp only at hroute
      split at hroute
      next => cases hroute
      next =>
        split at hroute
        next => cases hroute
        next => split at hroute <;> cases hroute
    next hres => exact Bool.not_eq_true _ ▸ hres

theorem Acts.plain (ha : Acts cfg m s q h pc pc' ep) (hp : Plain pc') :
    Plain pc ∨ m.resumable = false := by
  cases ha with
  | refuse | cancelled | empty | tooLarge | wrote | dropped | proceed | report | rewind | call
  | advance | collect | respond => exact hp.elim
  | start hb =>
    cases hb with
    | plain hroute => exact .inr (plain_of_route hroute)
    | _ => exact hp.elim
  | @attached stage _ => cases stage <;> exact hp.elim
  | @body offsets _ _ =>
    cases offsets with
    | none => exact .inl trivial
    | some offsets => exact hp.elim
  | @ack _ upload err _ _ =>
    cases err with
    | some e => exact hp.elim
    | none => cases upload <;> exact hp.elim
  | @receive _ _ err _ _ => cases err <;> exact hp.elim
  | frame hf => cases hf <;> exact hp.elim

theorem Aside.numbered (ha : Aside m req s s') (hres : m.resumable = true) :
    s'.queued = s.queued := by
  refine ha.unnumbered.resolve_right ?_
  rw [hres]
  simp

/-- **The numbers of a resumable session count its queue.** -/
structure Counted (m : SessionMode) (s : Intake) : Prop where
  wf : s.ep.rl.Wf
  length : m.resumable = true → s.queued.length = s.ep.rl.recvOffset
  plain : ∀ h, Plain (s.task h).pc → m.resumable = false

namespace Counted

theorem not_writing (hi : Counted m s) (hres : m.resumable = true) (h : Nat) (data : Bytes) :
    (s.task h).pc ≠ .writing data := by
  intro hpc
  cases (hi.plain h (by rw [hpc]; trivial)).symm.trans hres

theorem step (hi : Counted m s) {ev : IntakeEvent} (hs : s.step cfg m req ev = some s') :
    Counted m s' := by
  rcases step_cases hi.wf hs with ⟨h, tev, q, pc, ep, -, -, ha, rfl⟩ |
    ⟨h, off, p, err, ep, -, -, hear, rfl⟩ | ha
  · refine ⟨ha.wf hi.wf, ?_, ?_⟩
    · intro hres
      show (s.queued ++ _).length = _
      rw [List.length_append, hi.length hres]
      exact ha.counts hi.wf hres (hi.not_writing hres h)
    · refine (Function.forall_update_iff s.task fun _ t => Plain t.pc → m.resumable = false).mpr
        ⟨?_, fun x _ => hi.plain x⟩
      intro hp
      exact (ha.plain hp).elim (hi.plain h) id
  · refine ⟨Endpoint.hear_wf hi.wf hear, ?_, hi.plain⟩
    intro hres
    show (s.queued ++ _).length = _
    rw [List.length_append, hi.length hres]
    exact hear_counts hi.wf hear
  · refine ⟨ha.wf, ?_, ?_⟩
    · intro hres
      rw [ha.numbered hres, ha.recv]
      exact hi.length hres
    · intro x
      rw [(ha.tasks x).1]
      exact hi.plain x

theorem reachable {maxReplay : Int} {eager : Bool}
    (hr : (machine cfg m req (.new maxReplay eager)).Reachable s) : Counted m s := by
  refine hr.invariant (P := Counted m) ?_ fun _ _ _ _ hi _ hs => hi.step hs
  refine ⟨Endpoint.new_wf maxReplay eager, fun _ => ?_, fun _ hp => hp.elim⟩
  exact (Endpoint.new_zero maxReplay eager).2.1.symm

/-- The queue reaches to the end of a chunk that `recvIn` has taken. -/
theorem reached (hi : Counted m s) (hres : m.resumable = true) {off : Nat} {p : Bytes}
    (hear : s.ep.hear off p = some (none, ep)) : Reached (s.commit ep).queued ⟨off, p⟩ := by
  rcases Endpoint.hear_cases hi.wf hear with ⟨-, hle, -, hbuf, -⟩ | ⟨hnone, -⟩
  · show off + p.length ≤ (s.queued ++ ep.inp.buf.drop s.ep.inp.buf.length).length
    rw [hbuf, List.drop_left, List.length_append, List.length_drop, hi.length hres]
    omega
  · exact absurd rfl hnone

end Counted

/-- **The rule for one request.** What holds at its beginning, what its own steps keep and what
further bytes in the queue do not undo holds of it in every run. -/
theorem request_rule {maxReplay : Int} {eager : Bool}
    (hr : (machine cfg m req (.new maxReplay eager)).Reachable s) (hreq : req h = some q)
    {C : Bytes → List (Endpoint × Endpoint) → TaskPc → Prop} (hnew : C [] [] .new)
    (hact : ∀ {s tr pc pc' ep}, Counted m s → Acts cfg m s q h pc pc' ep → C s.queued tr pc →
      C (s.commit ep).queued (tr ++ [(s.ep, ep)]) pc')
    (hmore : ∀ {queued tr pc} more, C queued tr pc → C (queued ++ more) tr pc) :
    C s.queued (s.task h).trace (s.task h).pc := by
  refine hr.invariant (P := fun s => C s.queued (s.task h).trace (s.task h).pc) hnew ?_
  intro s ev s' hr hc _ hs
  have hcount := Counted.reachable hr
  rcases step_cases hcount.wf (show s.step cfg m req ev = some s' from hs) with
    ⟨x, tev, q', pc, ep, -, hreq', ha, rfl⟩ | ⟨x, off, p, err, ep, -, -, -, rfl⟩ | ha
  · show C (s.commit ep).queued (Function.update s.task x _ h).trace
      (Function.update s.task x _ h).pc
    by_cases hx : h = x
    · subst hx
      cases hreq.symm.trans hreq'
      rw [Function.update_self]
      exact hact hcount ha hc
    · rw [Function.update_of_ne hx]
      exact hmore _ hc
  · exact hmore _ hc
  · obtain ⟨more, hqueued⟩ := ha.queued
    rw [(ha.tasks h).1, (ha.tasks h).2, ← hqueued]
    exact hmore more hc

/-! ## The stream -/

/-- The frames `fs` are dealt with: on a plain session the steps `tr` appended their data, on a
resumable one it has numbers and is queued. -/
structure Settled (m : SessionMode) (queued : Bytes) (tr : List (Endpoint × Endpoint))
    (fs : List Frame) : Prop where
  plain : m.resumable = false →
    written tr = fs.flatMap Frame.plainData ∧ ∀ f ∈ fs, f.chunk? = none
  numbered : m.resumable = true →
    ∀ f ∈ fs, f.plainData = [] ∧ ∀ c, f.chunk? = some c → Reached queued c

namespace Settled

variable {queued : Bytes} {tr : List (Endpoint × Endpoint)} {fs : List Frame} {f : Frame}

theorem append (hs : Settled m queued tr fs) (more : Bytes) :
    Settled m (queued ++ more) tr fs where
  plain := hs.plain
  numbered hres g hg :=
    ⟨(hs.numbered hres g hg).1, fun c hc => ((hs.numbered hres g hg).2 c hc).append more⟩

/-- One more frame. -/
theorem snoc (hs : Settled m queued tr fs) {e e' : Endpoint} (more : Bytes)
    (hplain : m.resumable = false → e'.inp.buf = e.inp.buf ++ f.plainData ∧ f.chunk? = none)
    (hnumbered : m.resumable = true →
      f.plainData = [] ∧ ∀ c, f.chunk? = some c → Reached (queued ++ more) c) :
    Settled m (queued ++ more) (tr ++ [(e, e')]) (fs ++ [f]) where
  plain := by
    intro hres
    obtain ⟨hwritten, hnone⟩ := hs.plain hres
    obtain ⟨hbuf, hf⟩ := hplain hres
    rw [written_snoc tr hbuf, hwritten, List.flatMap_append, List.flatMap_singleton]
    refine ⟨rfl, ?_⟩
    intro g hg
    rcases List.mem_append.mp hg with hg | hg
    · exact hnone g hg
    · cases List.mem_singleton.mp hg
      exact hf
  numbered := by
    intro hres g hg
    rcases List.mem_append.mp hg with hg | hg
    · exact (hs.append more).numbered hres g hg
    · cases List.mem_singleton.mp hg
      exact hnumbered hres

/-- A step that appends nothing. -/
theorem still (hs : Settled m queued tr fs) (e : Endpoint) (more : Bytes) :
    Settled m (queued ++ more) (tr ++ [(e, e)]) fs where
  plain hres := by
    rw [written_still tr rfl]
    exact hs.plain hres
  numbered := (hs.append more).numbered

/-- A frame without data. -/
theorem skip (hs : Settled m queued tr fs) {e e' : Endpoint} (more : Bytes)
    (hbuf : e'.inp.buf = e.inp.buf) (hdata : f.plainData = []) (hchunk : f.chunk? = none) :
    Settled m (queued ++ more) (tr ++ [(e, e')]) (fs ++ [f]) := by
  refine hs.snoc more (fun _ => ⟨?_, hchunk⟩) (fun _ => ⟨hdata, fun c hc => ?_⟩)
  · rw [hdata, List.append_nil]
    exact hbuf
  · cases hchunk.symm.trans hc

end Settled

/-- **What a stream has done where it is.** -/
def StreamCourse (m : SessionMode) (q : HttpRequest) (queued : Bytes)
    (tr : List (Endpoint × Endpoint)) : TaskPc → Prop
  | .new | .attaching .stream => written tr = []
  | .framing rest => ∃ done,
      uploadFrames q.body = done ++ uploadFrames rest ∧ Settled m queued tr done
  | .answered _ => True
  | _ => False

theorem StreamCourse.append {queued : Bytes} {tr : List (Endpoint × Endpoint)} (more : Bytes)
    (hc : StreamCourse m q queued tr pc) : StreamCourse m q (queued ++ more) tr pc := by
  cases pc with
  | framing rest =>
    obtain ⟨done, hbody, hdone⟩ := hc
    exact ⟨done, hbody, hdone.append more⟩
  | attaching stage => cases stage <;> exact hc
  | _ => exact hc

/-- A turn of the loop deals with one frame. -/
theorem Frames.streamCourse {rest : Bytes} (hf : Frames cfg m s q rest pc ep) (hi : Counted m s)
    {tr : List (Endpoint × Endpoint)} (hc : StreamCourse m q s.queued tr (.framing rest)) :
    StreamCourse m q (s.commit ep).queued (tr ++ [(s.ep, ep)]) pc := by
  obtain ⟨done, hbody, hdone⟩ := hc
  -- what is left once a frame is read
  have hleft : ∀ {f : Frame} {rest' : Bytes}, next cfg.maxSendBytes rest = .ok (f, rest') →
      uploadFrames q.body = (done ++ [f]) ++ uploadFrames rest' := by
    intro f rest' hnext
    rw [hbody, uploadFrames_cons hnext, List.append_assoc]
    rfl
  have hskip : ∀ {f : Frame} {rest' : Bytes} {e : Endpoint},
      next cfg.maxSendBytes rest = .ok (f, rest') → f.plainData = [] → f.chunk? = none →
      e.inp.buf = s.ep.inp.buf →
      StreamCourse m q (s.commit e).queued (tr ++ [(s.ep, e)]) (.framing rest') := by
    intro f rest' e hnext hdata hchunk hbuf
    exact ⟨done ++ [f], hleft hnext, hdone.skip _ hbuf hdata hchunk⟩
  cases hf with
  | ended | leave | stop | refuse | fault => trivial
  | skip hnext htyp =>
    rcases htyp with htyp | ⟨htyp, hnil⟩
    · exact hskip hnext (Frame.plainData_of_ne (by rw [htyp]; decide))
        (Frame.chunk?_of_ne (by rw [htyp]; decide)) rfl
    · refine hskip hnext ?_ (Frame.chunk?_of_ne (by rw [htyp]; decide)) rfl
      rw [Frame.plainData, if_pos htyp, hnil]
  | ack hnext _ htyp =>
    exact hskip hnext (Frame.plainData_of_ne (by rw [htyp]; decide))
      (Frame.chunk?_of_ne (by rw [htyp]; decide)) rfl
  | @data f _ inp hnext hres htyp hbuf =>
    refine ⟨done ++ [f], hleft hnext, hdone.snoc _ (fun _ => ⟨?_, ?_⟩) ?_⟩
    · rw [Frame.plainData, if_pos htyp]
      exact hbuf
    · exact Frame.chunk?_of_ne (by rw [htyp]; decide)
    · intro hres'
      cases hres.symm.trans hres'
  | @seq f _ off bytes ep hnext hres htyp hsplit hear =>
    refine ⟨done ++ [f], hleft hnext, hdone.snoc _ ?_ (fun _ => ⟨?_, ?_⟩)⟩
    · intro hres'
      cases hres.symm.trans hres'
    · exact Frame.plainData_of_ne (by rw [htyp]; decide)
    · intro c hc
      cases (Frame.chunk?_seq htyp hsplit).symm.trans hc
      exact hi.reached hres hear

theorem Acts.streamCourse (ha : Acts cfg m s q h pc pc' ep)
    (hroute : route m q.header = .sendStream false) (hi : Counted m s)
    {tr : List (Endpoint × Endpoint)} (hc : StreamCourse m q s.queued tr pc) :
    StreamCourse m q (s.commit ep).queued (tr ++ [(s.ep, ep)]) pc' := by
  -- nothing is dealt with before the first frame
  have hstart : written tr = [] →
      StreamCourse m q (s.commit s.ep).queued (tr ++ [(s.ep, s.ep)]) (.framing q.body) := by
    intro hnone
    refine ⟨[], rfl, fun _ => ⟨?_, by simp⟩, by simp⟩
    rw [written_still tr rfl]
    exact hnone
  cases ha with
  | refuse | tooLarge | wrote | dropped | cancelled | report | respond => trivial
  | start hb =>
    cases hb with
    | refused => trivial
    | resumableStream => exact (written_still tr rfl).trans hc
    | plainStream => exact hstart hc
    | elsewhere h =>
      rw [hroute] at h
      cases h
    | plain h | upload h | checkPoll h | poll h => cases hroute.symm.trans h
  | @attached stage _ =>
    cases stage with
    | stream => exact hstart hc
    | batchUp | batchDown => exact hc.elim
  | frame hf => exact hf.streamCourse hi hc
  | body | empty | proceed | ack | receive | rewind | call | advance | collect => exact hc.elim

/-! ## The batch -/

/-- **What a batch upload has done where it is.** -/
def BatchCourse (cfg : ServerConfig) (m : SessionMode) (q : HttpRequest) (queued : Bytes) :
    TaskPc → Prop
  | .reporting => ∀ c ∈ q.chunks m, Reached queued c
  | pc => Carries cfg q true pc

theorem BatchCourse.append {queued : Bytes} (more : Bytes) (hc : BatchCourse cfg m q queued pc) :
    BatchCourse cfg m q (queued ++ more) pc := by
  cases pc with
  | reporting => exact fun c hmem => (hc c hmem).append more
  | _ => exact hc

theorem BatchCourse.carries {queued : Bytes} (hc : BatchCourse cfg m q queued pc) :
    Carries cfg q true pc := by
  cases pc with
  | reporting => trivial
  | _ => exact hc

/-- The one chunk of a batch upload. -/
theorem chunks_batch (hroute : route m q.header = .batch true) {off : Nat}
    (hoff : batchOffset q.header headerSendOffset = .ok off) :
    q.chunks m = [⟨off, q.body⟩] := by
  rw [HttpRequest.chunks, hroute]
  dsimp only
  rw [hoff]

theorem Acts.batchCourse (ha : Acts cfg m s q h pc pc' ep)
    (hroute : route m q.header = .batch true) (hi : Counted m s)
    (hc : BatchCourse cfg m q s.queued pc) : BatchCourse cfg m q (s.commit ep).queued pc' := by
  have hcarries := ha.carries hroute hc.carries
  cases ha with
  | start hb => cases hb <;> exact hcarries
  | @attached stage _ => cases stage <;> exact hcarries
  | @body offsets _ _ => cases offsets <;> exact hcarries
  | @ack _ upload err _ _ =>
    cases err with
    | some e => trivial
    | none => cases upload <;> exact hcarries
  | @receive off data err _ hear =>
    obtain ⟨-, ⟨ack, hwhole⟩, rfl⟩ := hc
    cases err with
    | none =>
      intro c hmem
      rw [chunks_batch hroute hwhole.off, List.mem_singleton] at hmem
      rw [hmem]
      exact hi.reached (resumable_of_route hroute) hear
    | some e => trivial
  | frame => exact hc.elim
  | refuse | cancelled | empty | tooLarge | wrote | dropped | proceed | report | rewind | call
  | advance | collect | respond => exact hcarries

/-! ## One numbered stream -/

/-- What a request may still bring is part of its data. -/
def Draws (m : SessionMode) (q : HttpRequest) : TaskPc → Prop
  | .attaching (.batchUp _ off) | .readingBody (some (_, off)) => ⟨off, q.body⟩ ∈ q.chunks m
  | .checkingContext _ (some (off, data)) | .acking _ (some (off, data)) | .receiving off data =>
    ⟨off, data⟩ ∈ q.chunks m
  | .attaching .stream => route m q.header = .sendStream false
  | .framing rest => ∀ f ∈ uploadFrames rest, ∀ c, f.chunk? = some c → c ∈ q.chunks m
  | _ => True

/-- The chunk that another transport brings. -/
def foreignChunk? : IntakeEvent → Option Chunk
  | .foreign _ (.hear off p) => some ⟨off, p⟩
  | _ => none

/-- It belongs to the stream `w`. -/
def Honest (w : Bytes) (ev : IntakeEvent) : Prop :=
  ∀ c ∈ foreignChunk? ev, SliceAt w c.off c.bytes

instance (w : Bytes) : DecidablePred (Honest w) :=
  fun ev => inferInstanceAs (Decidable (∀ c ∈ foreignChunk? ev, _))

theorem commit_still (s : Intake) (hbuf : ep.inp.buf = s.ep.inp.buf) :
    (s.commit ep).queued = s.queued := by
  show s.queued ++ ep.inp.buf.drop s.ep.inp.buf.length = _
  rw [hbuf, List.drop_length, List.append_nil]

/-- `recvIn` extends what is queued of `w` by what is new of `w`. -/
theorem Counted.hear_follows (hi : Counted m s) (hres : m.resumable = true) {w p : Bytes} {off : Nat}
    {err : Option Err} (hear : s.ep.hear off p = some (err, ep))
    (hslice : err = none → SliceAt w off p) (hw : s.queued <+: w) :
    (s.commit ep).queued <+: w := by
  rcases Endpoint.hear_cases hi.wf hear with ⟨hnone, hle, -, hbuf, -⟩ | ⟨-, -, hbuf, -⟩
  · show s.queued ++ ep.inp.buf.drop s.ep.inp.buf.length <+: w
    rw [hbuf, List.drop_left, ← hi.length hres]
    rw [← hi.length hres] at hle
    by_cases hold : off + p.length ≤ s.queued.length
    · rw [List.drop_eq_nil_of_le (by omega), List.append_nil]
      exact hw
    · have hext := (hslice hnone).extend hle (by omega)
      rw [← List.prefix_iff_eq_take.mp hw] at hext
      rw [hext]
      exact List.take_prefix _ _
  · rw [commit_still s hbuf]
    exact hw

theorem Acts.honest (ha : Acts cfg m s q h pc pc' ep) (hi : Counted m s)
    (hres : m.resumable = true) (hplain : ∀ data, pc ≠ .writing data) (hc : Draws m q pc)
    {w : Bytes} (hchunks : ∀ c ∈ q.chunks m, SliceAt w c.off c.bytes) (hw : s.queued <+: w) :
    (s.commit ep).queued <+: w := by
  cases ha.brings hi.wf with
  | nothing hbuf _ =>
    rw [commit_still s hbuf]
    exact hw
  | plain hno _ =>
    rcases hno with hno | ⟨data, hpc⟩
    · cases hno.symm.trans hres
    · exact absurd hpc (hplain data)
  | @chunk off p _ _ hear hfrom =>
    refine hi.hear_follows hres hear (fun hnone => hchunks ⟨off, p⟩ ?_) hw
    rcases hfrom hnone with rfl | ⟨rest, f, rest', rfl, hnext, htyp, hsplit⟩
    · exact hc
    · refine hc f ?_ _ ?_
      · rw [uploadFrames_cons hnext]
        exact List.mem_cons_self
      · exact Frame.chunk?_seq htyp hsplit

section
variable {tr : List (Endpoint × Endpoint)}

/-- A plain upload has no numbers. -/
theorem Accepts.accounted_plain (ha : Accepts s h pc ep) (hroute : route m q.header = .plain true)
    (hc : PlainCourse q tr pc) :
    Accounted m q (s.commit ep).queued (tr ++ [(s.ep, ep)]) ↔
      ¬ Leaves m s.ep (s.task h).ctxDone pc := by
  have hdata : q.plainData m = q.body := by rw [HttpRequest.plainData, hroute]
  have hchunks : q.chunks m = [] := by rw [HttpRequest.chunks, hroute]
  have hres := plain_of_route hroute
  cases ha with
  | wrote hopen hbuf =>
    obtain ⟨rfl, hnone⟩ := hc
    refine ⟨?_, fun _ => ⟨fun _ => ?_, ?_, by simp [hchunks]⟩⟩
    · rintro - ⟨hne, hclosed⟩
      cases (hopen.resolve_left hne).symm.trans hclosed
    · rw [written_snoc tr hbuf, hnone, hdata]
      rfl
    · intro hres'
      cases hres.symm.trans hres'
  | dropped hne hclosed =>
    obtain ⟨rfl, hnone⟩ := hc
    refine ⟨fun hacc => ?_, fun hnot => absurd ⟨hne, hclosed⟩ hnot⟩
    have hwritten := hacc.plain hres
    rw [written_still tr rfl, hnone, hdata] at hwritten
    exact absurd hwritten.symm hne
  | cancelled | report | respond | stop => exact hc.elim

/-- A batch upload is one chunk. -/
theorem Accepts.accounted_batch (ha : Accepts s h pc ep) (hroute : route m q.header = .batch true)
    (hi : Counted m s) (hc : BatchCourse cfg m q s.queued pc) :
    Accounted m q (s.commit ep).queued (tr ++ [(s.ep, ep)]) ↔
      ¬ Leaves m s.ep (s.task h).ctxDone pc := by
  have hdata : q.plainData m = [] := by rw [HttpRequest.plainData, hroute]
  have hres := resumable_of_route hroute
  have hplain : m.resumable = false → written (tr ++ [(s.ep, ep)]) = q.plainData m := by
    intro hres'
    cases hres.symm.trans hres'
  cases ha with
  | wrote | dropped | stop => exact hc.elim
  | respond => cases hc
  | report =>
    refine ⟨fun _ => id, fun _ => ⟨hplain, fun _ => hdata, fun c hmem => .inr ⟨hres, ?_⟩⟩⟩
    exact (hc c hmem).append _
  | @cancelled ack upload hctx =>
    cases upload with
    | none => cases hc.1
    | some upload =>
      obtain ⟨off, data⟩ := upload
      obtain ⟨-, hwhole, rfl⟩ := hc
      have hchunks := chunks_batch hroute hwhole.off
      have hlen := hi.length hres
      rw [commit_still s rfl]
      constructor
      · rintro hacc ⟨-, hne, hnew⟩
        have hnum := hacc.numbered ⟨off, q.body⟩ (by rw [hchunks]; exact List.mem_singleton_self _)
        have hend : off + q.body.length ≤ s.queued.length := (hnum.resolve_left hne).2
        omega
      · intro hnot
        refine ⟨hplain, fun _ => hdata, fun c hmem => ?_⟩
        rw [hchunks, List.mem_singleton] at hmem
        rw [hmem]
        by_cases hnil : q.body = []
        · exact .inl hnil
        · refine .inr ⟨hres, ?_⟩
          show off + q.body.length ≤ s.queued.length
          rw [hlen]
          exact Nat.le_of_not_lt fun hnew => hnot ⟨hctx, hnil, hnew⟩

/-- What is left of a stream is all that may be missing. -/
theorem Settled.accounted_iff {queued rest : Bytes} {done : List Frame} {ctxDone : Bool}
    (hdone : Settled m queued tr done) (hroute : route m q.header = .sendStream false)
    (hbody : uploadFrames q.body = done ++ uploadFrames rest)
    (hlen : m.resumable = true → queued.length = ep.rl.recvOffset) :
    Accounted m q queued tr ↔ ¬ Leaves m ep ctxDone (.framing rest) := by
  have hdata : q.plainData m =
      done.flatMap Frame.plainData ++ (uploadFrames rest).flatMap Frame.plainData := by
    rw [HttpRequest.plainData, hroute, ← List.flatMap_append, ← hbody]
  have hchunks : q.chunks m =
      done.filterMap Frame.chunk? ++ (uploadFrames rest).filterMap Frame.chunk? := by
    rw [HttpRequest.chunks, hroute, ← List.filterMap_append, ← hbody]
  constructor
  · rintro hacc (hne | ⟨c, hmem, hne, hnew⟩)
    · refine hne ?_
      cases hres : m.resumable with
      | false =>
        have hwritten := hacc.plain hres
        rw [hdata, (hdone.plain hres).1] at hwritten
        exact List.self_eq_append_right.mp hwritten
      | true =>
        have hnil := hacc.unnumbered hres
        rw [hdata] at hnil
        exact (List.append_eq_nil_iff.mp hnil).2
    · have hnum := hacc.numbered c (by rw [hchunks]; exact List.mem_append_right _ hmem)
      obtain ⟨hres, hend⟩ := hnum.resolve_left hne
      have hlt := hnew hres
      rw [← hlen hres] at hlt
      exact absurd hend (Nat.not_le_of_lt hlt)
  · intro hnot
    have hnil : (uploadFrames rest).flatMap Frame.plainData = [] :=
      Decidable.not_not.mp fun hne => hnot (.inl hne)
    rw [hnil, List.append_nil] at hdata
    refine ⟨fun hres => ?_, fun hres => ?_, fun c hmem => ?_⟩
    · rw [hdata]
      exact (hdone.plain hres).1
    · rw [hdata]
      exact List.flatMap_eq_nil_iff.mpr fun f hf => (hdone.numbered hres f hf).1
    · rw [hchunks] at hmem
      rcases List.mem_append.mp hmem with hmem | hmem
      · obtain ⟨f, hf, hfc⟩ := List.mem_filterMap.mp hmem
        cases hres : m.resumable with
        | false => cases ((hdone.plain hres).2 f hf).symm.trans hfc
        | true => exact .inr ⟨rfl, (hdone.numbered hres f hf).2 c hfc⟩
      · by_cases hbytes : c.bytes = []
        · exact .inl hbytes
        · cases hres : m.resumable with
          | false => exact absurd (.inr ⟨c, hmem, hbytes, by simp [hres]⟩) hnot
          | true =>
            refine .inr ⟨rfl, Nat.le_of_not_lt fun hnew => hnot (.inr ⟨c, hmem, hbytes, ?_⟩)⟩
            rw [← hlen hres]
            exact fun _ => hnew

theorem Accepts.accounted_stream (ha : Accepts s h pc ep)
    (hroute : route m q.header = .sendStream false) (hi : Counted m s)
    (hc : StreamCourse m q s.queued tr pc) :
    Accounted m q (s.commit ep).queued (tr ++ [(s.ep, ep)]) ↔
      ¬ Leaves m s.ep (s.task h).ctxDone pc := by
  cases ha with
  | wrote | dropped | cancelled | report | respond => exact hc.elim
  | stop =>
    obtain ⟨done, hbody, hdone⟩ := hc
    have hstill := hdone.still s.ep (s.ep.inp.buf.drop s.ep.inp.buf.length)
    refine hstill.accounted_iff hroute hbody fun hres => ?_
    rw [List.drop_length, List.append_nil]
    exact hi.length hres

end

section
variable {maxReplay : Int} {eager : Bool} {a : Answer} {ev : TaskEvent}

/-- Every upload that is answered 200. -/
theorem accounted_iff (hr : (machine cfg m req (.new maxReplay eager)).Reachable s)
    (hreq : req h = some q) (hup : (route m q.header).uploads = true)
    (ha : Accepts s h (s.task h).pc ep) :
    Accounted m q (s.commit ep).queued ((s.task h).trace ++ [(s.ep, ep)]) ↔
      ¬ Leaves m s.ep (s.task h).ctxDone (s.task h).pc := by
  have hi := Counted.reachable hr
  cases hroute : route m q.header with
  | plain sendOnly =>
    cases sendOnly with
    | true =>
      refine ha.accounted_plain hroute ?_
      exact request_rule (C := fun _ tr pc => PlainCourse q tr pc) hr hreq rfl
        (fun _ ha hc => ha.plainCourse hroute hc) (fun _ hc => hc)
    | false => rw [hroute] at hup; cases hup
  | batch send =>
    cases send with
    | true =>
      have hc : BatchCourse cfg m q s.queued (s.task h).pc :=
        request_rule (C := fun queued _ pc => BatchCourse cfg m q queued pc) hr hreq trivial
          (fun hi ha hc => ha.batchCourse hroute hi hc) (fun more hc => hc.append more)
      exact ha.accounted_batch hroute hi hc
    | false => rw [hroute] at hup; cases hup
  | sendStream probe =>
    cases probe with
    | false =>
      refine ha.accounted_stream hroute hi ?_
      exact request_rule (C := StreamCourse m q) hr hreq rfl
        (fun hi ha hc => ha.streamCourse hroute hi hc) (fun more hc => hc.append more)
    | true => rw [hroute] at hup; cases hup
  | refused | streamPoll => rw [hroute] at hup; cases hup

end

/-- A session that negotiated nothing. -/
def plainMode : SessionMode :=
  { webSocket := false, streamPoll := false, streamUpload := false, resumable := false
    batchResume := false }

/-- A plain upload. -/
def plainHeader : Header := fun name => if name = headerSendOnly then ["true"] else []

/-- A streamed upload. -/
def streamHeader : Header := fun name => if name = headerSendStream then ["true"] else []

/-- A plain upload, a streamed one, and one whose second frame is longer than 16 bytes. -/
def plainUploads : Nat → Option HttpRequest
  | 0 => some { header := plainHeader, body := [1, 2] }
  | 1 => some { header := streamHeader, body := writeFrame frameData [3] }
  | 2 => some {
      header := streamHeader
      body := writeFrame frameData [3] ++ writeFrame frameData (List.replicate 17 4) }
  | _ => none

/-- A session with the three. -/
def plainUploading : Machine Intake IntakeEvent :=
  machine { maxSendBytes := 16 } plainMode plainUploads (.new 64 false)

/-- The batch uploads of `threeUploads`. -/
def batchUploading : Machine Intake IntakeEvent :=
  machine { maxSendBytes := 16 } batchMode threeUploads (.new 64 false)

/-- The session is closed before the plain upload writes. -/
def closing : Intake :=
  plainUploading.final [.task 0 (.start false), .close, .env .closeIn,
    .task 0 (.readBody .complete), .task 0 .write]

/-- A batch upload that is cancelled before its context is checked. -/
def kicked : Intake :=
  batchUploading.final ((uploadSteps 0).take 5 ++ [.cancel 0, .task 0 .checkContext])

end Intake

end Pollmux
