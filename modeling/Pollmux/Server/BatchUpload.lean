import Pollmux.Server.Intake

/-!
# A batch request is all or nothing

What `pollBatchResumable` does to the stream of received bytes. `Seated` says
that a batch request owns the direction it serves from the return of `attach` to
its answer, so between its `recvIn` and its `recvOffsetNow` nobody else receives
anything. `Course` is what a request has done by the place it has come to:
nothing, up to its one `recvIn`, and after that exactly what its offset and its
body say.
-/

namespace Pollmux

open Kit

/-- The direction that a request owns at this place. -/
def TaskPc.dir? (m : SessionMode) : TaskPc → Option Dir
  | .readingBody offsets => offsets.map fun _ => .up
  | .checkingContext _ upload | .acking _ upload => if upload.isSome then some .up else some .down
  | .receiving _ _ | .reporting => some .up
  | .rewinding | .calling | .inNext | .got _ => some .down
  | .framing _ => if m.resumable then some .up else none
  | .new | .elsewhere | .checkingBody _ | .attaching _ | .writing _ | .answered _ => none

/-- The request has not come to its `attach`. -/
def TaskPc.Early : TaskPc → Prop
  | .new | .checkingBody _ => True
  | _ => False

/-- It has not come past it. -/
def TaskPc.Unasked : TaskPc → Prop
  | .attaching _ => True
  | pc => pc.Early

/-- The request has begun and has not answered. -/
def TaskPc.Busy : TaskPc → Prop
  | .new | .elsewhere | .answered _ => False
  | _ => True

theorem TaskPc.busy_of_dir {m : SessionMode} {pc : TaskPc} {d : Dir} (h : pc.dir? m = some d) :
    pc.Busy := by
  cases pc with
  | new | elsewhere | answered => cases h
  | _ => trivial

namespace Intake

section
variable (m : SessionMode) (req : Nat → Option HttpRequest)

/-- **Whoever serves owns what it serves.** -/
structure Seated (s : Intake) : Prop where
  own : s.own.Inv
  wf : s.ep.rl.Wf
  /-- A busy request is one of the tasks. -/
  ours : ∀ h, (s.task h).pc.Busy → outside m req h = false
  early : ∀ h, outside m req h = false → (s.task h).pc.Early → (s.own.handler h).phase = .new
  asked : ∀ h stage, (s.task h).pc = .attaching stage →
    (s.own.handler h).phase = .new ∨ (s.own.handler h).kind = stage.kind
  seats : ∀ h d, (s.task h).pc.dir? m = some d →
    (s.own.handler h).phase = .attached ∧ d ∈ (s.own.handler h).kind.dirs

end

variable {cfg : ServerConfig} {m : SessionMode} {req : Nat → Option HttpRequest} {s s' : Intake}
  {q : HttpRequest} {h : Nat} {pc pc' : TaskPc} {ep : Endpoint}

/-- Where a request goes first it owns nothing yet, and it is busy only on a path modelled here. -/
theorem Begins.spec (hb : Begins m q pc) :
    pc.dir? m = none ∧ (pc.Busy → (route m q.header).served = true) := by
  cases hb with
  | refused | elsewhere => exact ⟨rfl, False.elim⟩
  | plainStream hroute hres => exact ⟨by rw [TaskPc.dir?, hres]; rfl, fun _ => by rw [hroute]; rfl⟩
  | plain hroute | resumableStream hroute | upload hroute | checkPoll hroute | poll hroute =>
    exact ⟨rfl, fun _ => by rw [hroute]; rfl⟩

/-- A request that becomes busy is a task. -/
theorem outside_of_served (hreq : req h = some q) (hserved : (route m q.header).served = true) :
    outside m req h = false := by
  simp only [outside, hreq, hserved, Bool.not_true]

theorem Acts.busy (ha : Acts cfg m s q h pc pc' ep) (hbusy : pc'.Busy) :
    pc.Busy ∨ Begins m q pc' := by
  cases ha with
  | refuse | cancelled | tooLarge | wrote | dropped | report | respond => exact hbusy.elim
  | start hb => exact .inr hb
  | empty | attached | body | proceed | ack | receive | rewind | call | advance | collect
  | frame => exact .inl trivial

/-- A request comes to its `attach` from the beginning. -/
theorem Acts.unasked (ha : Acts cfg m s q h pc pc' ep) (hpc : pc'.Unasked) : pc.Early := by
  cases ha with
  | refuse | cancelled | tooLarge | wrote | dropped | report | respond | proceed | rewind | call
  | advance | collect => exact hpc.elim
  | start | empty => trivial
  | @attached stage _ => cases stage <;> exact hpc.elim
  | @body offsets _ _ => cases offsets <;> exact hpc.elim
  | @ack _ upload err _ _ =>
    cases err with
    | some e => exact hpc.elim
    | none => cases upload <;> exact hpc.elim
  | @receive _ _ err _ _ => cases err <;> exact hpc.elim
  | frame hf => cases hf <;> exact hpc.elim

/-- What a request owns after a step it owned before, unless it has just attached. -/
theorem Acts.dir (ha : Acts cfg m s q h pc pc' ep) {d : Dir} (hd : pc'.dir? m = some d) :
    pc.dir? m = some d ∨
      ∃ stage, pc = .attaching stage ∧ (s.own.handler h).phase = .attached ∧
        stage.kind.dirs = [d] := by
  cases ha with
  | refuse | cancelled | tooLarge | wrote | dropped | report | respond | empty => cases hd
  | start hb => cases hb.spec.1.symm.trans hd
  | @attached stage hatt =>
    refine .inr ⟨stage, rfl, hatt, ?_⟩
    cases stage with
    | batchUp ack off => cases hd; rfl
    | batchDown ack => cases hd; rfl
    | stream =>
      by_cases hres : m.resumable = true
      · rw [Stage.next, TaskPc.dir?, if_pos hres] at hd
        cases hd
        rfl
      · rw [Stage.next, TaskPc.dir?, if_neg hres] at hd
        cases hd
  | @body offsets =>
    cases offsets with
    | none => cases hd
    | some offsets => exact .inl hd
  | proceed => exact .inl hd
  | @ack _ upload err _ _ =>
    cases err with
    | some e => cases hd
    | none =>
      cases upload with
      | none => exact .inl hd
      | some upload => exact .inl hd
  | @receive _ _ err _ _ =>
    cases err with
    | some e => cases hd
    | none => exact .inl hd
  | rewind | call | advance | collect => exact .inl hd
  | frame hf =>
    cases hf with
    | skip | data | seq | ack => exact .inl hd
    | ended | leave | stop | refuse | fault => cases hd

/-- On a resumable session nothing is received but by the owner of the upstream direction. -/
theorem Acts.recv (ha : Acts cfg m s q h pc pc' ep) (hwf : s.ep.rl.Wf) (hres : m.resumable = true) :
    ep.rl.recvOffset = s.ep.rl.recvOffset ∨ pc.dir? m = some .up := by
  cases ha.brings hwf with
  | nothing _ hrecv => exact .inl hrecv
  | plain _ hrl => exact .inl (by rw [hrl])
  | chunk hear hfrom =>
    rcases Endpoint.hear_cases hwf hear with ⟨hnone, -⟩ | ⟨-, -, -, hrecv⟩
    · rcases hfrom hnone with rfl | ⟨rest, f, rest', rfl, -⟩
      · exact .inr rfl
      · exact .inr (if_pos hres)
    · exact .inl hrecv

namespace Seated

theorem init {ep₀ : Endpoint} (hwf : ep₀.rl.Wf) : Seated m req { ep := ep₀ } where
  own := .init
  wf := hwf
  ours _ hbusy := hbusy.elim
  early _ _ _ := rfl
  asked _ _ hpc := by cases hpc
  seats _ _ hd := by cases hd

theorem ours_act (hi : Seated m req s) (hreq : req h = some q)
    (ha : Acts cfg m s q h (s.task h).pc pc ep) (hbusy : pc.Busy) : outside m req h = false := by
  rcases ha.busy hbusy with hold | hb
  · exact hi.ours h hold
  · exact outside_of_served hreq (hb.spec.2 hbusy)

/-- A request moves. -/
theorem act (hi : Seated m req s) (hreq : req h = some q)
    (ha : Acts cfg m s q h (s.task h).pc pc ep) (tr : List (Endpoint × Endpoint)) (closed : Bool) :
    Seated m req { (s.commit ep).setTask h { s.task h with pc := pc, trace := tr } with
      closed := closed } where
  own := hi.own
  wf := ha.wf hi.wf
  ours := (Function.forall_update_iff s.task fun x t => t.pc.Busy → outside m req x = false).mpr
    ⟨hi.ours_act hreq ha, fun x _ => hi.ours x⟩
  early := by
    refine (Function.forall_update_iff s.task fun x t => outside m req x = false →
      t.pc.Early → (s.own.handler x).phase = .new).mpr ⟨?_, fun x _ => hi.early x⟩
    intro hours hpc
    refine hi.early h hours (ha.unasked ?_)
    cases pc with
    | new | checkingBody => trivial
    | _ => exact hpc.elim
  asked := by
    refine (Function.forall_update_iff s.task fun x t => ∀ stage, t.pc = .attaching stage →
      (s.own.handler x).phase = .new ∨ (s.own.handler x).kind = stage.kind).mpr
      ⟨?_, fun x _ => hi.asked x⟩
    rintro stage rfl
    exact .inl (hi.early h (hi.ours_act hreq ha trivial) (ha.unasked trivial))
  seats := by
    refine (Function.forall_update_iff s.task fun x t => ∀ d, t.pc.dir? m = some d →
      (s.own.handler x).phase = .attached ∧ d ∈ (s.own.handler x).kind.dirs).mpr
      ⟨?_, fun x _ => hi.seats x⟩
    intro d hd
    rcases ha.dir hd with hold | ⟨stage, hpc, hatt, hdirs⟩
    · exact hi.seats h d hold
    · rcases hi.asked h stage hpc with hnew | hkind
      · cases hatt.symm.trans hnew
      · rw [hkind, hdirs]
        exact ⟨hatt, List.mem_singleton_self d⟩

/-- What a request owns it has until it has answered. -/
theorem aside (hi : Seated m req s) (ha : Aside m req s s') : Seated m req s' := by
  have hpc : ∀ x, (s'.task x).pc = (s.task x).pc := fun x => (ha.tasks x).1
  have hours : ∀ x, (s'.task x).pc.Busy → outside m req x = false := by
    intro x hbusy
    rw [hpc] at hbusy
    exact hi.ours x hbusy
  rcases ha.own with hown | ⟨ev, hpermits, hstep⟩
  · refine ⟨hown ▸ hi.own, ha.wf, hours, ?_, ?_, ?_⟩
    · intro x
      rw [hpc, hown]
      exact hi.early x
    · intro x
      rw [hpc, hown]
      exact hi.asked x
    · intro x
      rw [hpc, hown]
      exact hi.seats x
  · refine ⟨hi.own.step hstep, ha.wf, hours, ?_, ?_, ?_⟩
    · intro x hx hearly
      rw [hpc] at hearly
      have hnew := hi.early x hx hearly
      -- a task asks for nothing before its time
      have hne : ∀ kind, ev ≠ .attach x kind := by
        rintro kind rfl
        cases hp : (s.task x).pc with
        | new => simp [permits, hx, hp] at hpermits
        | checkingBody ack => simp [permits, hx, hp] at hpermits
        | _ => rw [hp] at hearly; exact hearly.elim
      rw [Ownership.new_step hnew hne hstep]
      exact hnew
    · intro x stage hx
      rw [hpc] at hx
      have hout := hi.ours x (by rw [hx]; trivial)
      by_cases hphase : (s'.own.handler x).phase = .new
      · exact .inl hphase
      · rcases Ownership.kind_step hstep x hphase with ⟨hold, hkind⟩ | rfl
        · rw [hkind]
          exact .inr ((hi.asked x stage hx).resolve_left hold)
        · simp only [permits, hout, hx, Bool.false_or, beq_iff_eq] at hpermits
          exact .inr hpermits
    · intro x d hd
      rw [hpc] at hd
      obtain ⟨hatt, hmem⟩ := hi.seats x d hd
      have hne : ev ≠ .detach x := by
        rintro rfl
        have hout := hi.ours x (TaskPc.busy_of_dir hd)
        simp only [permits, hout, hatt, bne_self_eq_false, Bool.false_or] at hpermits
        split at hpermits
        next hp => rw [hp] at hd; cases hd
        next => cases hpermits
      rw [Ownership.attached_step hatt hne hstep]
      exact ⟨hatt, hmem⟩

/-- Another transport brings a frame. -/
theorem hear (hi : Seated m req s) {off : Nat} {p : Bytes} {err : Option Err}
    (hear : s.ep.hear off p = some (err, ep)) : Seated m req (s.commit ep) :=
  ⟨hi.own, Endpoint.hear_wf hi.wf hear, hi.ours, hi.early, hi.asked, hi.seats⟩

theorem step (hi : Seated m req s) {ev : IntakeEvent} (hs : s.step cfg m req ev = some s') :
    Seated m req s' := by
  rcases step_cases hi.wf hs with ⟨h, tev, q, pc, ep, -, hreq, ha, rfl⟩ |
    ⟨h, off, p, err, ep, -, -, hear, rfl⟩ | ha
  · exact hi.act hreq ha _ _
  · exact hi.hear hear
  · exact hi.aside ha

theorem reachable {ep₀ : Endpoint} (hwf : ep₀.rl.Wf) (hr : (machine cfg m req ep₀).Reachable s) :
    Seated m req s :=
  hr.invariant (P := Seated m req) (init hwf) fun _ _ _ _ hi _ hs => hi.step hs

/-- Two that own the upstream direction are one. -/
theorem one_up (hi : Seated m req s) {x : Nat} (hh : (s.task h).pc.dir? m = some .up)
    (hatt : (s.own.handler x).phase = .attached) (hup : .up ∈ (s.own.handler x).kind.dirs) :
    x = h := by
  obtain ⟨hatt', hup'⟩ := hi.seats h .up hh
  have hslot := hi.own.attached_owns hatt hup
  rw [hi.own.attached_owns hatt' hup'] at hslot
  exact (Option.some.inj hslot).symm

/-- While a request owns the upstream direction of a resumable session, no other one receives. -/
theorem alone (hi : Seated m req s) (hres : m.resumable = true) {x : Nat} (hne : x ≠ h)
    (ha : Acts cfg m s q x (s.task x).pc pc ep) (hup : (s.task h).pc.dir? m = some .up) :
    ep.rl.recvOffset = s.ep.rl.recvOffset := by
  rcases ha.recv hi.wf hres with hsame | hdir
  · exact hsame
  · obtain ⟨hatt, hmem⟩ := hi.seats x .up hdir
    exact absurd (hi.one_up hup hatt hmem) hne

/-- Nor does a transport outside. -/
theorem alone_outside (hi : Seated m req s) {x : Nat} (hmay : s.mayUse m req x (some .up)) :
    (s.task h).pc.dir? m ≠ some .up := by
  intro hup
  obtain ⟨hout, hatt, k, hk, hup'⟩ := hmay
  cases hup'
  rw [hi.one_up hup hatt hk, hi.ours h (TaskPc.busy_of_dir hup)] at hout
  cases hout

end Seated

/-! ## What a request does -/

/-- None of these steps touched what the session has received. -/
def Neutral (tr : List (Endpoint × Endpoint)) : Prop :=
  ∀ x ∈ tr, x.2.inp.buf = x.1.inp.buf ∧ x.2.rl.recvOffset = x.1.rl.recvOffset

theorem Neutral.snoc {tr : List (Endpoint × Endpoint)} (h : Neutral tr) {e e' : Endpoint}
    (hbuf : e'.inp.buf = e.inp.buf) (hrecv : e'.rl.recvOffset = e.rl.recvOffset) :
    Neutral (tr ++ [(e, e')]) := by
  intro x hx
  rcases List.mem_append.mp hx with hx | hx
  · exact h x hx
  · cases List.mem_singleton.mp hx
    exact ⟨hbuf, hrecv⟩

/-- The upload `q`, numbered from `off`, has arrived: what is new of it is appended, and no more. -/
structure Lands (q : HttpRequest) (off : Nat) (e e' : Endpoint) : Prop where
  appended : e'.inp.buf = e.inp.buf ++ q.body.drop (e.rl.recvOffset - off)
  recvOffset : e'.rl.recvOffset = max e.rl.recvOffset (off + q.body.length)

/-- A complete and well-formed upload. -/
structure WholeUpload (cfg : ServerConfig) (q : HttpRequest) (ack off : Nat) : Prop where
  ack : batchOffset q.header headerRecvOffset = .ok ack
  off : batchOffset q.header headerSendOffset = .ok off
  complete : q.complete = true
  fits : (q.body.length : Int) ≤ cfg.maxSendBytes

/-- A complete and well-formed poll. -/
structure WholePoll (q : HttpRequest) (ack : Nat) : Prop where
  ack : batchOffset q.header headerRecvOffset = .ok ack
  empty : q.contentLength = 0 ∨ q.body = [] ∧ q.complete = true

/-- Why the request `q` may break the layer: its ack is above `sendOffset`, its offset above
`recvOffset`, or the bytes of its poll overflow the replay buffer. -/
inductive Cause (cfg : ServerConfig) (q : HttpRequest) (e : Endpoint) : Prop
  | uploadAck {ack off : Nat} (hq : WholeUpload cfg q ack off) (hack : e.rl.sendOffset < ack)
  | pollAck {ack : Nat} (hq : WholePoll q ack) (hack : e.rl.sendOffset < ack)
  | gap {ack off : Nat} (hq : WholeUpload cfg q ack off) (hoff : e.rl.recvOffset < off)
  | overflow {ack : Nat} {bytes : Bytes} (hq : WholePoll q ack)
      (hcall : e.call = some (.taken bytes))
      (hover : e.rl.maxReplay < (e.rl.replay ++ bytes).length)

/-- What a batch request carries is its own: its offsets, and its body once it is complete. -/
def Carries (cfg : ServerConfig) (q : HttpRequest) (send : Bool) : TaskPc → Prop
  | .checkingBody ack => send = false ∧ batchOffset q.header headerRecvOffset = .ok ack
  | .attaching (.batchUp ack off) | .readingBody (some (ack, off)) =>
    send = true ∧ batchOffset q.header headerRecvOffset = .ok ack ∧
      batchOffset q.header headerSendOffset = .ok off
  | .checkingContext ack (some (off, data)) | .acking ack (some (off, data)) =>
    send = true ∧ WholeUpload cfg q ack off ∧ data = q.body
  | .receiving off data => send = true ∧ (∃ ack, WholeUpload cfg q ack off) ∧ data = q.body
  | .attaching (.batchDown ack) | .checkingContext ack none | .acking ack none =>
    send = false ∧ WholePoll q ack
  | .rewinding | .calling | .inNext => send = false ∧ ∃ ack, WholePoll q ack
  | .got _ | .answered (.chunk _ _ _) => send = false
  | .attaching .stream | .readingBody none | .writing _ | .framing _ => False
  | .new | .elsewhere | .reporting | .answered _ => True

/-- **What a batch request has done where it is**, in a session that has received `recv` bytes. -/
def Course (cfg : ServerConfig) (q : HttpRequest) (send : Bool) (recv : Nat) (pc : TaskPc)
    (tr : List (Endpoint × Endpoint)) : Prop :=
  match pc with
  | .reporting => send = true ∧ ∃ ack off pre e e', WholeUpload cfg q ack off ∧
      tr = pre ++ [(e, e')] ∧ Neutral pre ∧ Lands q off e e' ∧ recv = e'.rl.recvOffset
  | .answered (.ok n) => send = true ∧ ∃ ack off pre e e' post, WholeUpload cfg q ack off ∧
      tr = pre ++ (e, e') :: post ∧ Neutral pre ∧ Neutral post ∧ Lands q off e e' ∧
      n = some e'.rl.recvOffset
  | _ => Neutral tr

/-- The request `q` keeps to the rules. -/
structure Orderly (cfg : ServerConfig) (q : HttpRequest) (send : Bool) (recv : Nat) (t : Task) :
    Prop where
  carries : Carries cfg q send t.pc
  course : Course cfg q send recv t.pc t.trace
  causes : ∀ x ∈ t.trace, x.1.rl.broken = false → x.2.rl.broken = true → Cause cfg q x.1

/-- The first place of a batch request. -/
theorem Begins.carries {send : Bool} (hb : Begins m q pc)
    (hroute : route m q.header = .batch send) : Carries cfg q send pc := by
  cases hb with
  | refused | elsewhere => trivial
  | plain h | resumableStream h | plainStream h => cases hroute.symm.trans h
  | upload h hack hoff =>
    cases hroute.symm.trans h
    exact ⟨rfl, hack, hoff⟩
  | checkPoll h hack =>
    cases hroute.symm.trans h
    exact ⟨rfl, hack⟩
  | poll h hack hlen =>
    cases hroute.symm.trans h
    exact ⟨rfl, hack, .inl hlen⟩

/-- No request begins with its 200. -/
theorem Begins.quiet (hb : Begins m q pc) : pc ≠ .reporting ∧ ∀ n, pc ≠ .answered (.ok n) := by
  cases hb <;> simp

theorem Acts.carries {send : Bool} (ha : Acts cfg m s q h pc pc' ep)
    (hroute : route m q.header = .batch send) (hc : Carries cfg q send pc) :
    Carries cfg q send pc' := by
  cases ha with
  | refuse | cancelled | tooLarge | wrote | dropped | report => trivial
  | start hb => exact hb.carries hroute
  | empty hbody hcomplete => exact ⟨hc.1, hc.2, .inr ⟨hbody, hcomplete⟩⟩
  | @attached stage _ =>
    cases stage with
    | batchUp ack off => exact hc
    | batchDown ack => exact hc
    | stream => exact hc.elim
  | @body offsets hcomplete hfits =>
    cases offsets with
    | none => exact hc.elim
    | some offsets => exact ⟨hc.1, ⟨hc.2.1, hc.2.2, hcomplete, hfits⟩, rfl⟩
  | @proceed ack upload =>
    cases upload with
    | none => exact hc
    | some upload => exact hc
  | @ack ack upload err _ _ =>
    cases err with
    | some e => trivial
    | none =>
      cases upload with
      | none => exact ⟨hc.1, ack, hc.2⟩
      | some upload => exact ⟨hc.1, ⟨ack, hc.2.1⟩, hc.2.2⟩
  | @receive _ _ err _ _ =>
    cases err with
    | some e => trivial
    | none => trivial
  | rewind | call | advance => exact hc
  | collect => exact hc.1
  | @respond res ctxDone =>
    cases batchReply ctxDone s.ep.rl res with
    | chunk => exact hc
    | _ => trivial
  | frame => exact hc.elim

theorem Course.neutral {send : Bool} {recv : Nat} {tr : List (Endpoint × Endpoint)}
    (h : Course cfg q send recv pc tr) (hpc : pc ≠ .reporting)
    (hok : ∀ n, pc ≠ .answered (.ok n)) : Neutral tr := by
  unfold Course at h
  split at h
  next => exact absurd rfl hpc
  next n => exact absurd rfl (hok n)
  next => exact h

theorem Course.of_neutral {send : Bool} {recv : Nat} {tr : List (Endpoint × Endpoint)}
    (h : Neutral tr) (hpc : pc ≠ .reporting) (hok : ∀ n, pc ≠ .answered (.ok n)) :
    Course cfg q send recv pc tr := by
  unfold Course
  split
  next => exact absurd rfl hpc
  next n => exact absurd rfl (hok n)
  next => exact h

/-- A step that receives nothing and answers no 200. -/
theorem Course.quiet {send : Bool} {recv recv' : Nat} {tr : List (Endpoint × Endpoint)}
    {e e' : Endpoint} (h : Course cfg q send recv pc tr)
    (hpc : pc ≠ .reporting ∧ ∀ n, pc ≠ .answered (.ok n))
    (hpc' : pc' ≠ .reporting ∧ ∀ n, pc' ≠ .answered (.ok n))
    (hstill : e'.inp.buf = e.inp.buf ∧ e'.rl.recvOffset = e.rl.recvOffset) :
    Course cfg q send recv' pc' (tr ++ [(e, e')]) :=
  .of_neutral ((h.neutral hpc.1 hpc.2).snoc hstill.1 hstill.2) hpc'.1 hpc'.2

/-- The end of a poll is no 200 of an upload. -/
theorem batchReply_ne_ok (ctxDone : Bool) (rl : Reliable) (res : NextResult) (n : Option Nat) :
    batchReply ctxDone rl res ≠ .ok n := by
  unfold batchReply
  split
  next => simp
  next =>
    split
    next => simp
    next => split <;> simp
    next => split <;> simp
    next => simp

theorem Acts.course {send : Bool} {tr : List (Endpoint × Endpoint)}
    (ha : Acts cfg m s q h pc pc' ep) (hwf : s.ep.rl.Wf) (hc : Carries cfg q send pc)
    (hcourse : Course cfg q send s.ep.rl.recvOffset pc tr) :
    Course cfg q send ep.rl.recvOffset pc' (tr ++ [(s.ep, ep)]) := by
  have hstill := ha.still hwf
  cases ha with
  | refuse hpc =>
    refine hcourse.quiet ?_ (by simp) ⟨rfl, rfl⟩
    constructor
    · rintro rfl
      exact hpc
    · rintro n rfl
      exact hpc
  | start hb => exact hcourse.quiet (by simp) hb.quiet ⟨rfl, rfl⟩
  | cancelled | empty | proceed | call | advance | collect | rewind | tooLarge =>
    exact hcourse.quiet (by simp) (by simp) (hstill id)
  | @attached stage _ =>
    cases stage <;> exact hcourse.quiet (by simp) (by simp [Stage.next]) ⟨rfl, rfl⟩
  | @body offsets _ _ =>
    cases offsets <;> exact hcourse.quiet (by simp) (by simp [afterBody]) ⟨rfl, rfl⟩
  | wrote | dropped | frame => exact hc.elim
  | @ack _ upload err _ _ =>
    refine hcourse.quiet (by simp) ?_ (hstill id)
    cases err <;> cases upload <;> simp [afterAck]
  | @receive off data err _ hear =>
    obtain ⟨hsend, ⟨ack, hwhole⟩, rfl⟩ := hc
    rcases Endpoint.hear_cases hwf hear with ⟨rfl, -, -, hbuf, hrecv⟩ | ⟨herr, -, hsame⟩
    · exact ⟨hsend, ack, off, tr, s.ep, _, hwhole, rfl, hcourse, ⟨hbuf, hrecv⟩, rfl⟩
    · refine hcourse.quiet (by simp) ?_ hsame
      cases err with
      | none => exact absurd rfl herr
      | some e => simp [afterReceive]
  | report =>
    obtain ⟨hsend, ack, off, pre, e, e', hwhole, rfl, hpre, hlands, hrecv⟩ := hcourse
    refine ⟨hsend, ack, off, pre, e, e', [(s.ep, s.ep)], hwhole, by simp, hpre, ?_, hlands, ?_⟩
    · intro x hx
      cases List.mem_singleton.mp hx
      exact ⟨rfl, rfl⟩
    · rw [hrecv]
  | respond =>
    refine hcourse.quiet (by simp) ⟨by simp, ?_⟩ ⟨rfl, rfl⟩
    intro n heq
    exact batchReply_ne_ok _ _ _ n (TaskPc.answered.inj heq)

/-- **Why a layer breaks.** -/
theorem Acts.causes {send : Bool} (ha : Acts cfg m s q h pc pc' ep) (hwf : s.ep.rl.Wf)
    (hc : Carries cfg q send pc) (hwhole : s.ep.rl.broken = false)
    (hbroken : ep.rl.broken = true) : Cause cfg q s.ep := by
  -- a step that leaves the layer whole is none
  have hnone : ∀ {rl : Reliable}, rl.broken = s.ep.rl.broken → rl.broken = true →
      Cause cfg q s.ep := by
    intro rl hsame hb
    rw [hsame, hwhole] at hb
    cases hb
  cases ha with
  | refuse | cancelled | start | empty | attached | body | proceed | report | respond =>
    exact hnone rfl hbroken
  | wrote | dropped | frame => exact hc.elim
  | tooLarge hrl => exact hnone (by rw [hrl]) hbroken
  | @ack n upload err rl hack =>
    rcases Reliable.ack_spec hwf n with ⟨hover, heq⟩ | ⟨-, -, heq⟩ | ⟨-, -, -, heq⟩
    · cases upload with
      | none => exact .pollAck hc.2 hover
      | some upload => exact .uploadAck hc.2.1 hover
    · cases heq.symm.trans hack
      exact hnone rfl hbroken
    · cases heq.symm.trans hack
      exact hnone rfl hbroken
  | receive hear =>
    obtain ⟨-, ⟨ack, hq⟩, -⟩ := hc
    rcases Endpoint.hear_cases hwf hear with ⟨-, -, hsame, -⟩ | ⟨-, hsame | hgap, -⟩
    · exact hnone hsame hbroken
    · exact hnone hsame hbroken
    · exact .gap hq hgap
  | rewind =>
    refine hnone ?_ hbroken
    unfold Reliable.rewindToAcked
    split <;> rfl
  | @call dst _ hp =>
    cases Endpoint.performs hp with
    | aside haside => cases haside
    | nextOut _ hstart =>
      rcases Reliable.nextOutStart_spec hwf dst with ⟨-, -, heq⟩ | ⟨-, heq⟩
      · cases heq.symm.trans hstart
        exact hnone rfl hbroken
      · cases heq.symm.trans hstart
        exact hnone rfl hbroken
  | advance hp =>
    obtain ⟨-, ack, hq⟩ := hc
    cases Endpoint.performs hp with
    | aside haside => cases haside
    | advance hcall hadv =>
      rcases Reliable.advance_cases hadv with ⟨rfl, -⟩ | ⟨bytes, rfl, -, rfl, -⟩
      · exact hnone rfl hbroken
      · refine .overflow hq hcall (Nat.lt_of_not_le fun hfit => ?_)
        cases (Reliable.number_of_fit hwhole hfit).1.symm.trans hbroken
  | collect hcol =>
    obtain ⟨-, rfl⟩ := Endpoint.collected hcol
    exact hnone rfl hbroken

/-- **The request `q` keeps to the rules** by its own steps. -/
theorem Orderly.act {send : Bool} {t : Task} (ho : Orderly cfg q send s.ep.rl.recvOffset t)
    (ha : Acts cfg m s q h t.pc pc ep) (hwf : s.ep.rl.Wf)
    (hroute : route m q.header = .batch send) :
    Orderly cfg q send ep.rl.recvOffset
      { t with pc := pc, trace := t.trace ++ [(s.ep, ep)] } where
  carries := ha.carries hroute ho.carries
  course := ha.course hwf ho.carries ho.course
  causes := by
    intro x hx hwhole hbroken
    rcases List.mem_append.mp hx with hx | hx
    · exact ho.causes x hx hwhole hbroken
    · cases List.mem_singleton.mp hx
      exact ha.causes hwf ho.carries hwhole hbroken

/-- By other steps, too: where it matters what the session has received, nobody else receives. -/
theorem Orderly.other {send : Bool} {recv recv' : Nat} {t t' : Task}
    (ho : Orderly cfg q send recv t) (hpc : t'.pc = t.pc) (htr : t'.trace = t.trace)
    (hrecv : t.pc = .reporting → recv' = recv) : Orderly cfg q send recv' t' := by
  refine ⟨hpc ▸ ho.carries, ?_, htr ▸ ho.causes⟩
  rw [hpc, htr]
  by_cases hrep : t.pc = .reporting
  · rw [hrecv hrep]
    exact ho.course
  · by_cases hok : ∃ n, t.pc = .answered (.ok n)
    · obtain ⟨n, hn⟩ := hok
      have hcourse := ho.course
      rw [hn] at hcourse ⊢
      exact hcourse
    · have hnot : ∀ n, t.pc ≠ .answered (.ok n) := fun n hn => hok ⟨n, hn⟩
      exact .of_neutral (ho.course.neutral hrep hnot) hrep hnot

/-- A batch request is one on a resumable session. -/
theorem resumable_of_route {send : Bool} (hroute : route m q.header = .batch send) :
    m.resumable = true := by
  unfold route at hroute
  split at hroute
  next => split at hroute <;> cases hroute
  next =>
    split at hroute
    next hres => exact hres
    next => cases hroute

/-- Every batch request of a run keeps to the rules. -/
theorem orderly_reachable {ep₀ : Endpoint} (hwf : ep₀.rl.Wf)
    (hr : (machine cfg m req ep₀).Reachable s) {send : Bool} (hreq : req h = some q)
    (hroute : route m q.header = .batch send) :
    Orderly cfg q send s.ep.rl.recvOffset (s.task h) := by
  have hres := resumable_of_route hroute
  refine hr.invariant (P := fun s => Orderly cfg q send s.ep.rl.recvOffset (s.task h)) ?_ ?_
  · exact ⟨trivial, by simp [Course, Neutral, machine], by simp [machine]⟩
  · intro s ev s' hr ho _ hs
    have hseat := Seated.reachable hwf hr
    have hup : (s.task h).pc = .reporting → (s.task h).pc.dir? m = some .up := by
      intro hpc
      rw [hpc]
      rfl
    rcases step_cases hseat.wf (show s.step cfg m req ev = some s' from hs) with
      ⟨x, tev, q', pc, ep, -, hreq', ha, rfl⟩ | ⟨x, off, p, err, ep, -, hmay, -, rfl⟩ | ha
    · show Orderly cfg q send ep.rl.recvOffset (Function.update s.task x _ h)
      by_cases hx : x = h
      · subst hx
        cases hreq.symm.trans hreq'
        rw [Function.update_self]
        exact ho.act ha hseat.wf hroute
      · rw [Function.update_of_ne (fun heq => hx heq.symm)]
        exact ho.other rfl rfl fun hpc => hseat.alone hres hx ha (hup hpc)
    · exact ho.other rfl rfl fun hpc => absurd (hup hpc) (hseat.alone_outside hmay)
    · exact ho.other (ha.tasks h).1 (ha.tasks h).2 fun _ => ha.recv

/-- **Batch requests are all or nothing.** In any run, from any state of the session, a request that
`pollBatchResumable` serves has not touched what the session received, unless it is an upload that
is about to write its 200 or has. One that is about to can do nothing else. One that has was complete
and well formed, one of its steps appended the bytes of its body that were new and moved
`recvOffset` to its end, no other did anything, and the answer carries that `recvOffset`. And if one
of its steps broke the layer, the request was complete and well formed, and its ack was above
`sendOffset`, its offset above `recvOffset` or its poll overflowed the replay buffer. -/
theorem batch_all_or_nothing {ep₀ : Endpoint} (hwf : ep₀.rl.Wf)
    (hr : (machine cfg m req ep₀).Reachable s) {send : Bool} (hreq : req h = some q)
    (hroute : route m q.header = .batch send) :
    ((s.task h).pc ≠ .reporting → (∀ n, (s.task h).pc ≠ .answered (.ok n)) →
      Neutral (s.task h).trace) ∧
    ((s.task h).pc = .reporting → ∀ ev out, s.act cfg m q h ev = some out →
      out.1 = .answered (.ok (some s.ep.rl.recvOffset))) ∧
    (∀ n, (s.task h).pc = .answered (.ok n) → send = true ∧
      ∃ ack off pre e e' post, WholeUpload cfg q ack off ∧
        (s.task h).trace = pre ++ (e, e') :: post ∧ Neutral pre ∧ Neutral post ∧
        e'.inp.buf = e.inp.buf ++ q.body.drop (e.rl.recvOffset - off) ∧
        e'.rl.recvOffset = max e.rl.recvOffset (off + q.body.length) ∧
        n = some e'.rl.recvOffset) ∧
    (∀ e e', (e, e') ∈ (s.task h).trace → e.rl.broken = false → e'.rl.broken = true →
      Cause cfg q e) := by
  have ho := orderly_reachable hwf hr hreq hroute
  refine ⟨ho.course.neutral, ?_, ?_, fun e e' hmem => ho.causes (e, e') hmem⟩
  · rintro hpc ev ⟨pc, ep⟩ hact
    have ha := acts_of_act cfg m hact
    rw [hpc] at ha
    cases ha with
    | refuse hleave => exact hleave.elim
    | report => rfl
  intro n hn
  have hcourse := ho.course
  rw [hn] at hcourse
  obtain ⟨hsend, ack, off, pre, e, e', post, hwhole, htr, hpre, hpost, hlands, hanswer⟩ := hcourse
  exact ⟨hsend, ack, off, pre, e, e', post, hwhole, htr, hpre, hpost, hlands.appended,
    hlands.recvOffset, hanswer⟩

/-- A session that negotiated batches in both directions. -/
def batchMode : SessionMode :=
  { webSocket := false, streamPoll := false, streamUpload := false, resumable := true
    batchResume := true }

/-- An upload that starts at the offset `off`, as a decimal number. -/
def uploadHeader (off : String) : Header := fun name =>
  if name = headerSendOnly then ["true"]
  else if name = headerRecvOffset then ["0"]
  else if name = headerSendOffset then [off]
  else []

/-- Three uploads: one, one that overlaps it, and one of which a part is missing. -/
def threeUploads : Nat → Option HttpRequest
  | 0 => some { header := uploadHeader "0", body := [1, 2, 3] }
  | 1 => some { header := uploadHeader "2", body := [3, 4, 5] }
  | 2 => some { header := uploadHeader "5", body := [6], complete := false }
  | _ => none

/-- The steps of an upload whose body is complete, from its beginning to its end. -/
def uploadSteps (h : Nat) : List IntakeEvent :=
  [.task h (.start false), .own (.attach h .up), .own (.claim h), .task h .attached,
    .task h (.readBody .complete), .task h .checkContext, .task h .ack, .task h .receive,
    .task h .report, .own (.detach h), .own (.close h)]

/-- The first two arrive, the third breaks off. -/
def overlappingRun : List IntakeEvent :=
  uploadSteps 0 ++ uploadSteps 1 ++
    [.task 2 (.start false), .own (.attach 2 .up), .own (.claim 2), .task 2 .attached,
      .task 2 (.readBody .failed)]

/-- The session after them. -/
def overlapped : Intake :=
  (machine { maxSendBytes := 16 } batchMode threeUploads (.new 64 false)).final overlappingRun

/-- The second upload brings two new bytes, the third none. -/
theorem overlapped_all_or_nothing :
    (overlapped.task 1).pc = .answered (.ok (some 5)) ∧ overlapped.ep.inp.buf = [1, 2, 3, 4, 5] ∧
      (∃ e e', (e, e') ∈ (overlapped.task 1).trace ∧
        e'.inp.buf = e.inp.buf ++ [3, 4, 5].drop (e.rl.recvOffset - 2) ∧ e'.rl.recvOffset = 5) ∧
      (overlapped.task 2).pc = .answered (.error 400 (.msg "failed to read batch body")) ∧
      Neutral (overlapped.task 2).trace := by
  have hwf := Endpoint.new_wf 64 false
  have hr : (machine { maxSendBytes := 16 } batchMode threeUploads (.new 64 false)).Reachable
      overlapped := Machine.reachable_final _ overlappingRun
  have hroute : ∀ off ∈ ["2", "5"], route batchMode (uploadHeader off) = .batch true := by decide
  have hone : (overlapped.task 1).pc = .answered (.ok (some 5)) := by decide
  have htwo : (overlapped.task 2).pc = .answered (.error 400 (.msg "failed to read batch body")) := by
    decide
  refine ⟨hone, by decide, ?_, htwo, ?_⟩
  · obtain ⟨-, ack, off, pre, e, e', post, hwhole, htr, -, -, hbuf, -, hn⟩ :=
      (batch_all_or_nothing (h := 1) hwf hr rfl (hroute "2" (by simp))).2.2.1 _ hone
    have hdec : batchOffset (uploadHeader "2") headerSendOffset = .ok 2 := by decide
    have hoff : off = 2 := Except.ok.inj (hwhole.off.symm.trans hdec)
    subst hoff
    refine ⟨e, e', ?_, hbuf, (Option.some.inj hn).symm⟩
    rw [htr]
    simp
  · refine (batch_all_or_nothing (h := 2) hwf hr rfl (hroute "5" (by simp))).1 ?_ ?_
    · rw [htwo]
      simp
    · rw [htwo]
      simp

end Intake

end Pollmux
