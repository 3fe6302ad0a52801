import Pollmux.Client.Connect
import Pollmux.Client.Flush

/-!
# Coalesced writes

The batch uploads of `Client.Flush` while all goes well: every request succeeds
and nothing cancels the context. Any number of `Write` calls then interleave with
the steps of the flush loops, and the history of a run says what was written and
what was posted.

`Flowing` is what holds after every such history. The bodies posted, what the
loop holds and what is buffered make up what was written (`whole`), no body is
empty or longer than the chunk (`sized`), and the buffer is empty whenever no
loop is there to take it (`idle`): a loop clears `writeFlightOn` in the lock
region in which it finds the buffer empty, so a `Write` comes before that region,
and is taken, or after it, and starts a loop of its own.

The chunk is the one a connector settles on with its server (`Client.Connect`).
A server whose limits pass `Validate` leaves it positive, without which the loop
would post empty bodies forever.
-/

namespace Pollmux

open Kit

namespace HttpUpload

/-- The bytes that a step writes. -/
def wrote : UploadEvent → Bytes
  | .write p => p
  | _ => []

/-- The bodies that a step posts. -/
def posted (maxSendChunk : Nat) (s : HttpUpload) : UploadEvent → List Bytes
  | .send i _ =>
    match s.loops[i]? with
    | some (.sending buf) => [buf.take maxSendChunk]
    | _ => []
  | _ => []

/-- The bodies posted in the course of a run. -/
def bodies (maxSendChunk : Nat) : HttpUpload → List UploadEvent → List Bytes
  | _, [] => []
  | s, ev :: evs =>
    posted maxSendChunk s ev ++
      match step maxSendChunk s ev with
      | some s' => bodies maxSendChunk s' evs
      | none => []

/-- A `Write` or a step of a loop whose requests succeed. -/
def Healthy : UploadEvent → Prop
  | .send _ result => result = .ok
  | .supersede => False
  | _ => True

instance : DecidablePred Healthy
  | .send _ result => inferInstanceAs (Decidable (result = .ok))
  | .supersede => inferInstanceAs (Decidable False)
  | .write _ | .wake _ | .quit _ | .take _ | .clear _ => inferInstanceAs (Decidable True)

variable {maxSendChunk : Nat} {s s' : HttpUpload} {ev : UploadEvent} {evs : List UploadEvent}

/-- One more step posts its bodies after the others. -/
theorem bodies_concat {s₀ : HttpUpload} (hrun : (machine maxSendChunk).run s₀ evs = some s)
    (ev : UploadEvent) :
    bodies maxSendChunk s₀ (evs ++ [ev]) = bodies maxSendChunk s₀ evs ++ posted maxSendChunk s ev := by
  induction evs generalizing s₀ with
  | nil =>
    cases hrun
    simp only [List.nil_append, bodies]
    split <;> simp
  | cons a evs ih =>
    obtain ⟨t, ht, hrest⟩ := Option.bind_eq_some_iff.mp hrun
    rw [List.cons_append, bodies, bodies, show step maxSendChunk s₀ a = some t from ht]
    dsimp only
    rw [ih hrest, List.append_assoc]

/-- **What holds while all goes well**, after the history `evs`. -/
structure Flowing (maxSendChunk : Nat) (evs : List UploadEvent) (s : HttpUpload) : Prop where
  live : s.ctxDone = false
  unfailed : s.failed = false
  one : OneLoop s
  written : s.written = evs.flatMap wrote
  sent : s.accepted = (bodies maxSendChunk {} evs).flatten
  whole : s.content = s.written
  sized : ∀ b ∈ bodies maxSendChunk {} evs, b ≠ [] ∧ b.length ≤ maxSendChunk
  holding : ∀ buf, s.loops = [.sending buf] → buf ≠ []
  going : s.loops ≠ [.failing]
  idle : s.loops = [] → s.writeBuf = []

/-- A step that posts nothing, with what it has to keep. -/
theorem Flowing.quiet (h : Flowing maxSendChunk evs s)
    (hrun : (machine maxSendChunk).run {} evs = some s) (hm : Moves maxSendChunk s ev s')
    (hnone : posted maxSendChunk s ev = []) (hwrote : s'.written = s.written ++ wrote ev)
    (hacc : s'.accepted = s.accepted) (hlive : s'.ctxDone = s.ctxDone)
    (hfailed : s'.failed = s.failed) (holding : ∀ buf, s'.loops = [.sending buf] → buf ≠ [])
    (going : s'.loops ≠ [.failing]) (idle : s'.loops = [] → s'.writeBuf = []) :
    Flowing maxSendChunk (evs ++ [ev]) s' := by
  have hbodies : bodies maxSendChunk {} (evs ++ [ev]) = bodies maxSendChunk {} evs := by
    rw [bodies_concat hrun, hnone, List.append_nil]
  obtain ⟨p, hp, -, hcontent⟩ := hm.content
  exact
    { live := hlive.trans h.live
      unfailed := hfailed.trans h.unfailed
      one := h.one.step hm
      written := by rw [hwrote, h.written, List.flatMap_append, List.flatMap_singleton]
      sent := by rw [hacc, h.sent, hbodies]
      whole := by rw [hcontent (hfailed.trans h.unfailed), hp, h.whole]
      sized := by rw [hbodies]; exact h.sized
      holding := holding
      going := going
      idle := idle }

/-- One request of a loop: its body is the front of what the loop holds. -/
theorem Flowing.send (h : Flowing maxSendChunk evs s)
    (hrun : (machine maxSendChunk).run {} evs = some s) (hpos : 0 < maxSendChunk) {buf : Bytes}
    (hl : s.loops = [.sending buf]) (hm : Moves maxSendChunk s (.send 0 .ok) s')
    (hs' : s' = { s with
      loops := [afterSend (buf.drop maxSendChunk) .ok]
      accepted := s.accepted ++ buf.take maxSendChunk
      failed := s.failed || false
      postedLate := s.postedLate || (s.failed && !s.ctxDone) }) :
    Flowing maxSendChunk (evs ++ [.send 0 .ok]) s' := by
  have hposted : posted maxSendChunk s (.send 0 .ok) = [buf.take maxSendChunk] := by
    simp [posted, hl]
  have hbodies : bodies maxSendChunk {} (evs ++ [.send 0 .ok]) =
      bodies maxSendChunk {} evs ++ [buf.take maxSendChunk] := by
    rw [bodies_concat hrun, hposted]
  have hfailed : s'.failed = false := by rw [hs', h.unfailed]; rfl
  obtain ⟨p, hp, -, hcontent⟩ := hm.content
  exact
    { live := by rw [hs']; exact h.live
      unfailed := hfailed
      one := h.one.step hm
      written := by
        rw [hs', List.flatMap_append, List.flatMap_singleton]
        exact h.written.trans (List.append_nil _).symm
      sent := by
        rw [hs', hbodies, List.flatten_append, List.flatten_singleton, ← h.sent]
      whole := by rw [hcontent hfailed, hp, h.whole]
      sized := by
        rw [hbodies]
        intro b hb
        rcases List.mem_append.mp hb with hold | hnew
        · exact h.sized b hold
        · rw [List.mem_singleton.mp hnew]
          refine ⟨?_, List.length_take_le _ _⟩
          rw [Ne, List.take_eq_nil_iff, not_or]
          exact ⟨Nat.ne_of_gt hpos, h.holding buf hl⟩
      holding := by
        rw [hs']
        intro rest hrest
        rw [afterSend] at hrest
        split at hrest
        next => cases hrest
        next hne => cases hrest; exact hne
      going := by
        rw [hs', afterSend]
        split <;> simp
      idle := by rw [hs']; intro hnil; cases hnil }

theorem Flowing.step (h : Flowing maxSendChunk evs s)
    (hrun : (machine maxSendChunk).run {} evs = some s) (hpos : 0 < maxSendChunk)
    (hok : Healthy ev) (hs : (machine maxSendChunk).step s ev = some s') :
    Flowing maxSendChunk (evs ++ [ev]) s' := by
  have hm : Moves maxSendChunk s ev s' := moves_of_step h.one hs
  have hnil : s.written = s.written ++ [] := (List.append_nil _).symm
  cases hm with
  | nothing => exact h.quiet hrun .nothing rfl hnil rfl rfl rfl h.holding h.going h.idle
  | join hp hon =>
    refine h.quiet hrun (.join hp hon) rfl rfl rfl rfl rfl h.holding h.going ?_
    -- the flag is on, so there is a loop to take what is written
    intro hl
    rcases h.one with ⟨-, hoff⟩ | ⟨loop, hloop, -⟩
    · rw [hon] at hoff
      cases hoff
    · exact absurd (hloop.symm.trans hl) (by simp)
  | start hp hoff hl =>
    exact h.quiet hrun (.start hp hoff hl) rfl rfl rfl rfl rfl (by simp) (by simp) (by simp)
  | wake hl => exact h.quiet hrun (.wake hl) rfl hnil rfl rfl rfl (by simp) (by simp) (by simp)
  | quit hl hd =>
    rw [h.live] at hd
    cases hd
  | finish hl hb =>
    exact h.quiet hrun (.finish hl hb) rfl hnil rfl rfl rfl (by simp) (by simp) fun _ => hb
  | take hl hb =>
    refine h.quiet hrun (.take hl hb) rfl hnil rfl rfl rfl ?_ (by simp) (by simp)
    intro buf hbuf
    cases hbuf
    exact hb
  | send hl result hd =>
    cases show result = .ok from hok
    exact h.send hrun hpos hl (.send hl .ok hd) rfl
  | clear hl => exact absurd hl h.going
  | supersede => exact hok.elim

/-- Every history in which all goes well. -/
theorem flowing_of_run (hpos : 0 < maxSendChunk) (hok : ∀ ev ∈ evs, Healthy ev)
    (hrun : (machine maxSendChunk).run {} evs = some s) : Flowing maxSendChunk evs s := by
  refine Machine.run_invariant
    (P := fun evs s => (∀ ev ∈ evs, Healthy ev) → Flowing maxSendChunk evs s) ?_ ?_ hrun hok
  · intro _
    exact
      { live := rfl, unfailed := rfl, one := .inl ⟨rfl, rfl⟩, written := rfl, sent := rfl,
        whole := rfl, sized := by simp [bodies], holding := by simp [machine],
        going := by simp [machine], idle := fun _ => rfl }
  · intro evs s ev s' hrun ih hs hok
    have hpast := ih fun ev' hmem => hok ev' (List.mem_append_left _ hmem)
    exact hpast.step hrun hpos (hok ev (by simp)) hs

/-- The steps of the loop alone: its requests succeed, and nobody writes. -/
def LoopOnly (ev : UploadEvent) : Prop := Healthy ev ∧ wrote ev = []

/-- A loop about to take the buffer posts all of it and ends. -/
theorem taking_drains (hpos : 0 < maxSendChunk) (hd : s.ctxDone = false)
    (hl : s.loops = [.taking]) :
    ∃ more s', (∀ ev ∈ more, LoopOnly ev) ∧ (machine maxSendChunk).run s more = some s' ∧
      s'.loops = [] ∧ s'.accepted = s.accepted ++ s.writeBuf := by
  by_cases hb : s.writeBuf = []
  · refine ⟨[.take 0], { s with writeFlightOn := false, loops := [] }, ?_, ?_, rfl, ?_⟩
    · simp [LoopOnly, Healthy, wrote]
    · simp [Machine.run, machine, HttpUpload.step, hl, hb]
    · rw [hb, List.append_nil]
  · have htake : (machine maxSendChunk).run s [.take 0] =
        some { s with writeBuf := [], loops := [.sending s.writeBuf] } := by
      simp [Machine.run, machine, HttpUpload.step, hl, hb]
    obtain ⟨n, hsends⟩ := sends_all (s := { s with writeBuf := [], loops := [.sending s.writeBuf] })
      hpos hd hb rfl
    refine ⟨[.take 0] ++ List.replicate n (.send 0 .ok) ++ [.take 0], _, ?_,
      Machine.run_append (Machine.run_append htake hsends) rfl, rfl, rfl⟩
    intro ev hev
    simp only [List.mem_append, List.mem_singleton, List.mem_replicate] at hev
    rcases hev with (rfl | ⟨-, rfl⟩) | rfl
    · exact ⟨trivial, rfl⟩
    · exact ⟨rfl, rfl⟩
    · exact ⟨trivial, rfl⟩

/-- **Nothing is stranded.** Left to itself, the loop posts all that was written and ends. -/
theorem Flowing.drains (h : Flowing maxSendChunk evs s) (hpos : 0 < maxSendChunk) :
    ∃ more s', (∀ ev ∈ more, LoopOnly ev) ∧ (machine maxSendChunk).run s more = some s' ∧
      s'.loops = [] ∧ s'.accepted = s.written := by
  rcases h.one with ⟨hl, -⟩ | ⟨loop, hl, -⟩
  · refine ⟨[], s, by simp, rfl, hl, ?_⟩
    rw [← h.whole, content, h.idle hl, inHand, hl]
    simp
  · have hwhole : s.accepted ++ loop.inHand ++ s.writeBuf = s.written := by
      rw [← inHand_of_loops hl]
      exact h.whole
    -- what the loop does until it is about to take the buffer again
    have finish : ∀ (front : List UploadEvent) {t : HttpUpload}, (∀ ev ∈ front, LoopOnly ev) →
        (machine maxSendChunk).run s front = some t → t.ctxDone = false → t.loops = [.taking] →
        t.accepted ++ t.writeBuf = s.written →
        ∃ more s', (∀ ev ∈ more, LoopOnly ev) ∧ (machine maxSendChunk).run s more = some s' ∧
          s'.loops = [] ∧ s'.accepted = s.written := by
      intro front t hfront hrun hd ht hacc
      obtain ⟨more, s', hmore, hrest, hl', hacc'⟩ := taking_drains hpos hd ht
      refine ⟨front ++ more, s', ?_, Machine.run_append hrun hrest, hl', hacc'.trans hacc⟩
      intro ev hev
      exact (List.mem_append.mp hev).elim (hfront ev) (hmore ev)
    cases loop with
    | coalescing =>
      refine finish [.wake 0] (t := { s with loops := [.taking] }) ?_ ?_ h.live rfl ?_
      · simp [LoopOnly, Healthy, wrote]
      · simp [Machine.run, machine, HttpUpload.step, hl]
      · simpa [FlushLoop.inHand] using hwhole
    | taking => exact finish [] (by simp) rfl h.live hl (by simpa [FlushLoop.inHand] using hwhole)
    | sending buf =>
      obtain ⟨n, hsends⟩ := sends_all hpos h.live (h.holding buf hl) hl
      refine finish _ ?_ hsends h.live rfl hwhole
      intro ev hev
      rw [(List.mem_replicate.mp hev).2]
      exact ⟨rfl, rfl⟩
    | failing => exact absurd hl h.going

end HttpUpload

namespace Connector

variable {c : Connector} {cr : ConnectResponse} {probe : Bool}

/-- The limits of a server that a connector accepts leave something to send. -/
theorem effectiveChunk_pos (h : c.refuses cr = none) : 0 < c.effectiveChunk cr.limits := by
  have hmax : 0 < cr.limits.maxSendBytes := by
    rw [← Int.not_le]
    intro hle
    have hval : cr.limits.validate = some (.maxSendBytes cr.limits.maxSendBytes) := by
      simp [Limits.validate, hle]
    simp only [refuses, hval] at h
    split at h
    next => cases h
    next => split at h <;> cases h
  have hchunk : 0 < orDefault c.maxSendChunk defaultMaxSendChunk := orDefault_pos (by decide)
  rw [effectiveChunk]
  omega

end Connector

namespace HttpUpload

variable {c : Connector} {cr : ConnectResponse} {probe : Bool} {chunk : Int}
  {s : HttpUpload} {evs : List UploadEvent}

/-- **Coalescing is exact.** On a connection that uploads in requests, in every interleaving of
`Write` calls with the steps of flush loops whose requests succeed: there is at most one loop; the
bodies posted, what that loop holds and what is buffered are what was written, in order; every body
has at least one byte and no more than the connector and the server allow; and with no loop there
is nothing in the buffer. -/
theorem coalescing_exact (hlimits : c.refuses cr = none)
    (hconn : c.establish cr probe = .connected (.requests chunk))
    (hok : ∀ ev ∈ evs, Healthy ev) (hrun : (machine chunk.toNat).run {} evs = some s) :
    s.loops.length ≤ 1 ∧
      (bodies chunk.toNat {} evs).flatten ++ s.inHand ++ s.writeBuf = evs.flatMap wrote ∧
      (∀ b ∈ bodies chunk.toNat {} evs, 1 ≤ b.length ∧
        (b.length : Int) ≤ min (orDefault c.maxSendChunk defaultMaxSendChunk)
          cr.limits.maxSendBytes) ∧
      (s.loops = [] → s.writeBuf = []) := by
  have hchunk : chunk = c.effectiveChunk cr.limits := by
    rcases Connector.establish_cases hconn with heq | ⟨carrier, heq⟩
    · exact Upload.requests.inj heq
    · cases heq
  have hpos : 0 < chunk := hchunk ▸ Connector.effectiveChunk_pos hlimits
  have flow := flowing_of_run (by omega) hok hrun
  refine ⟨?_, ?_, ?_, flow.idle⟩
  · rcases flow.one with ⟨hl, -⟩ | ⟨loop, hl, -⟩
    · rw [hl]
      exact Nat.zero_le _
    · rw [hl]
      exact Nat.le_refl _
  · rw [← flow.sent, ← flow.written]
    exact flow.whole
  · intro b hb
    obtain ⟨hne, hle⟩ := flow.sized b hb
    have hlen := List.length_pos_iff.mpr hne
    rw [Connector.effectiveChunk] at hchunk
    omega

/-- Three writes, the last two while a loop is there, on a connection with chunks of two bytes. -/
def coalescedRun : List UploadEvent :=
  [.write [1, 2], .write [3], .wake 0, .take 0, .send 0 .ok, .write [4], .send 0 .ok, .take 0,
    .send 0 .ok, .take 0]

theorem coalescedRun_exact :
    bodies 2 {} coalescedRun = [[1, 2], [3], [4]] ∧
      ∀ b ∈ bodies 2 {} coalescedRun, 1 ≤ b.length ∧ (b.length : Int) ≤ min 2 1000 := by
  let c : Connector := { baseURL := "http://localhost", maxSendChunk := 2 }
  let cr : ConnectResponse :=
    { mode := { streamPoll := false, streamUpload := false, webSocket := false, resumable := false }
      limits :=
        { maxSendBytes := 1000, pollTimeoutMS := 1, sessionTimeoutMS := 2, pollBufferBytes := 1000 }
      batchResume := false }
  have hrun : (machine 2).run {} coalescedRun = some ((machine 2).final coalescedRun) := by decide
  have hlimits : c.refuses cr = none := by decide
  have hconn : c.establish cr false = .connected (.requests 2) := by decide
  exact ⟨by decide, (coalescing_exact hlimits hconn (by decide) hrun).2.2.1⟩

end HttpUpload

end Pollmux
