import Pollmux.Reliable.BatchPoll

/-!
# Batch uploads are taken exactly once

The upstream direction of a resumable session that uploads in batches: the
client's `batchUpLoop` and `doBatchSend` (`batch.go`), its `supervise` between two
sets of legs (`resumable_client.go`), and `recvIn` of `pollBatchResumable` on the
server. The bytes travel over a `Lane` whose sender is the client.

The network keeps everything here too. The server may process any upload the
client ever posted, at any time and again and again. Its answer may be lost, and
the client then never learns whether the upload was taken: it ends its legs, asks
for the server's offset and resumes from there. `ResumeHandler` may refuse it, for a
layer that is broken, for what the client has of the download, or because the
session is gone, and `supervise` may give the session up on its own. Offsets that
the server reports on other ways, in the answer to a poll or in an ack frame, reach
the client at any later time while its legs run.

**No upload opens a gap, and the client accepts every offset that it is offered**
(`batch_uploads_exactly_once`), as long as its layer is unbroken. The cursor is
what carries it: while no upload is under way, everything before it the server has.
A `200` moves the server past the upload that it answers, and a resume sets the
cursor to what the server said it has.
-/

namespace Pollmux

open Kit

/-- Where the client is. -/
inductive UplinkPhase
  /-- `batchUpLoop` is about to call `nextOut`. -/
  | idle
  | inNext
  /-- `doBatchSend` has posted the `i`th upload and has no answer to it. -/
  | waiting (i : Nat)
  /-- The legs have ended. -/
  | down
  /-- `doResume` has posted its request. -/
  | asking
  /-- Its answer says that the server has `n` bytes. -/
  | offered (n : Nat)
  /-- `supervise` has given up. -/
  | over
  deriving DecidableEq, Repr

/-- Legs run in the phases of `batchUpLoop`. -/
def UplinkPhase.running : UplinkPhase → Bool
  | .idle | .inNext | .waiting _ => true
  | .down | .asking | .offered _ | .over => false

/-- A session that uploads in batches. `taken` are the uploads that the server's `recvIn` accepted,
`answers` the answers to them with the offset in each, `reports` the offsets that the server sent on
other ways. `gap` records that `recvIn` reported one, `refused` that the client's layer refused an
offset of the server. -/
structure Uplink where
  lane : Lane
  phase : UplinkPhase := .idle
  taken : List Nat := []
  answers : List (Nat × Nat) := []
  reports : List Nat := []
  gap : Bool := false
  refused : Bool := false
  deriving DecidableEq, Repr

/-- One step. -/
inductive UplinkEvent
  /-- Anything else that goes on around the client's layer. -/
  | client (op : EndOp)
  /-- Whatever the server's application and its own sending side do. -/
  | server (op : EndOp)
  | call (dst : Nat)
  | advance (fired : Bool)
  /-- What `nextOut` returned is posted; without bytes it is an acknowledgement only. -/
  | post
  /-- `nextOut` returned nothing to post. -/
  | skip
  /-- The legs end: a request failed or its answer was lost, on this leg or on the other one. -/
  | leave
  /-- The server processes the `i`th upload. -/
  | serve (i : Nat)
  /-- It answers it. -/
  | answer (i : Nat)
  /-- It reports its offset on another way. -/
  | report
  /-- The client reads an answer to the upload it waits for. -/
  | accept (n : Nat)
  /-- The client reads another report. -/
  | hearReport (n : Nat)
  | ask
  /-- `ResumeHandler` answers 200. -/
  | offer
  /-- It answers 404, 409 or 410. -/
  | refuse
  /-- The resume attempt fails, is answered 503, or its answer is lost. -/
  | lose
  /-- `supervise` gives up: the session is closed, or resumed too often to no avail. -/
  | giveUp
  /-- `resumeOut` with the offset of the answer. -/
  | restart
  deriving DecidableEq, Repr

/-- `nextOut` returned bytes or nothing, and not an error that ends the leg. -/
def NextResult.goesOn (res : NextResult) : Bool :=
  res.err == none || res.err == some .pipeInterrupted

namespace Uplink

/-- The client's layer. -/
def rl (s : Uplink) : Reliable := s.lane.sender.rl

/-- How much the server has. -/
def recv (s : Uplink) : Nat := s.lane.receiver.rl.recvOffset

/-- The client's layer is replaced. -/
def withRl (s : Uplink) (rl : Reliable) : Uplink :=
  { s with lane := { s.lane with sender := { s.lane.sender with rl := rl } } }

/-- The client's transport collects the result of its call. -/
def withSender (s : Uplink) (e : Endpoint) : Uplink := { s with lane := { s.lane with sender := e } }

/-- One step. -/
def step (s : Uplink) : UplinkEvent → Option Uplink
  | .client op =>
    if op.leavesOut then (s.lane.step (.sender op)).map fun lane => { s with lane := lane } else none
  | .server op => (s.lane.step (.receiver op)).map fun lane => { s with lane := lane }
  | .call dst =>
    if s.phase = .idle then
      (s.lane.step (.sender (.nextOut dst))).map fun lane => { s with lane := lane, phase := .inNext }
    else none
  | .advance fired =>
    if s.phase = .inNext then
      (s.lane.step (.sender (.advance fired))).map fun lane => { s with lane := lane }
    else none
  | .post =>
    if s.phase = .inNext then do
      let (res, e) ← s.lane.sender.collect
      if res.goesOn then
        some
          { s with
            lane := { s.lane with sender := e, flight := s.lane.flight ++ [⟨res.off, res.bytes⟩] }
            phase := .waiting s.lane.flight.length }
      else none
    else none
  | .skip =>
    if s.phase = .inNext then do
      let (res, e) ← s.lane.sender.collect
      if res.goesOn ∧ res.bytes = [] then some { s.withSender e with phase := .idle } else none
    else none
  | .leave =>
    match s.phase with
    | .idle | .waiting _ => some { s with phase := .down }
    | .inNext => s.lane.sender.collect.map fun (_, e) => { s.withSender e with phase := .down }
    | _ => none
  | .serve i => do
    let c ← s.lane.flight[i]?
    let (err, e) ← s.lane.receiver.hear c.off c.bytes
    some
      { s with
        lane :=
          { s.lane with
            receiver := e
            delivered := s.lane.delivered ++ e.inp.buf.drop s.lane.receiver.inp.buf.length }
        taken := if err = none then s.taken ++ [i] else s.taken
        gap := s.gap || err == some .replayGap }
  | .answer i => if i ∈ s.taken then some { s with answers := s.answers ++ [(i, s.recv)] } else none
  | .report => some { s with reports := s.reports ++ [s.recv] }
  | .accept n =>
    match s.phase with
    | .waiting i =>
      if (i, n) ∈ s.answers then
        (s.rl.ack n).map fun (err, rl) =>
          { s.withRl rl with
            phase := if err = none then .idle else .down
            refused := s.refused || err != none }
      else none
    | _ => none
  | .hearReport n =>
    if s.phase.running ∧ n ∈ s.reports then
      (s.rl.ack n).map fun (err, rl) => { s.withRl rl with refused := s.refused || err != none }
    else none
  | .ask => if s.phase = .down ∧ s.rl.broken = false then some { s with phase := .asking } else none
  | .offer =>
    if s.phase = .asking ∧ s.lane.receiver.rl.broken = false then
      some { s with phase := .offered s.recv }
    else none
  | .refuse => if s.phase = .asking then some { s with phase := .over } else none
  | .lose =>
    match s.phase with
    | .asking | .offered _ => some { s with phase := .down }
    | _ => none
  | .giveUp => if s.phase = .down then some { s with phase := .over } else none
  | .restart =>
    match s.phase with
    | .offered n =>
      (s.rl.resumeOut n).map fun (ok, rl) =>
        { s.withRl rl with
          phase := if ok then .idle else .over
          refused := s.refused || !ok }
    | _ => none

/-- A new session: replay buffers and eager acks of any setting. -/
def machine (sendMax recvMax : Int) (sendEager recvEager : Bool) : Machine Uplink UplinkEvent where
  init := { lane := (Lane.machine sendMax recvMax sendEager recvEager).init }
  step := step

/-! ## The invariant -/

/-- What the server ever said it has, it has, and an upload that it took lies within. -/
structure Told (s : Uplink) : Prop where
  taken : ∀ i ∈ s.taken, ∃ c, s.lane.flight[i]? = some c ∧ c.off + c.bytes.length ≤ s.recv
  answers : ∀ i n, (i, n) ∈ s.answers → i ∈ s.taken ∧ n ≤ s.recv
  reports : ∀ n ∈ s.reports, n ≤ s.recv
  offered : ∀ n, s.phase = .offered n → n ≤ s.recv

/-- **What holds while the client's layer is unbroken.** Everything before the cursor the server
has, except for the upload that is under way, and every upload starts within what it has. -/
structure Live (s : Uplink) : Prop where
  acked : s.rl.ackedOffset ≤ s.recv
  idle : s.phase = .idle → s.rl.sentCursor ≤ s.recv
  running : ∀ c, s.lane.sender.call = some c → (∀ res, c ≠ .returned res) → s.rl.sendOffset ≤ s.recv
  result : ∀ res, s.lane.sender.call = some (.returned res) →
    res.off ≤ s.recv ∧ s.rl.sentCursor ≤ max s.recv (res.off + res.bytes.length)
  waiting : ∀ i, s.phase = .waiting i → ∃ c, s.lane.flight[i]? = some c ∧
    s.rl.sentCursor ≤ max s.recv (c.off + c.bytes.length)
  flight : ∀ c ∈ s.lane.flight, c.off ≤ s.recv
  offered : ∀ n, s.phase = .offered n → s.rl.ackedOffset ≤ n
  noGap : s.gap = false
  noRefusal : s.refused = false

/-- The invariant of every run. -/
structure Inv (s : Uplink) : Prop where
  sound : s.lane.Sound
  numbered : s.lane.Numbered
  uncalled : s.phase ≠ .inNext → s.lane.sender.call = none
  told : s.Told
  live : s.rl.broken = false → s.Live

namespace Inv

variable {s s' : Uplink}

theorem init (sendMax recvMax : Int) (sendEager recvEager : Bool) :
    Inv { lane := (Lane.machine sendMax recvMax sendEager recvEager).init } where
  sound := .init sendMax recvMax sendEager recvEager
  numbered := .init sendMax recvMax sendEager recvEager
  uncalled _ := rfl
  told := ⟨nofun, nofun, nofun, nofun⟩
  live _ := by
    have hwf := Endpoint.new_wf sendMax sendEager
    have hzero := (Endpoint.new_zero sendMax sendEager).1
    have hcursor := Nat.le_trans hwf.cursor_le (Nat.le_of_eq hzero)
    refine ⟨?_, fun _ => ?_, nofun, nofun, nofun, nofun, nofun, rfl, rfl⟩
    · exact Nat.le_trans hwf.acked_le (Nat.le_trans hcursor (Nat.zero_le _))
    · exact Nat.le_trans hcursor (Nat.zero_le _)

theorem wf (h : Inv s) : s.rl.Wf := h.sound.sending.sends.wf

/-! ### The server's side -/

/-- What the server has grows; the client's side stays. -/
theorem grow (h : Inv s) {e : Endpoint} (delivered : Bytes) {taken : List Nat} {gap : Bool}
    (hsound : Lane.Sound { s.lane with receiver := e, delivered := delivered })
    (hnumbered : Lane.Numbered { s.lane with receiver := e, delivered := delivered })
    (hle : s.recv ≤ e.rl.recvOffset) (hsub : ∀ i ∈ s.taken, i ∈ taken)
    (htaken : ∀ i ∈ taken, i ∈ s.taken ∨
      ∃ c, s.lane.flight[i]? = some c ∧ c.off + c.bytes.length ≤ e.rl.recvOffset)
    (hgap : s.rl.broken = false → gap = false) :
    Inv { s with
      lane := { s.lane with receiver := e, delivered := delivered }, taken := taken, gap := gap } where
  sound := hsound
  numbered := hnumbered
  uncalled := h.uncalled
  told := by
    refine ⟨fun i hi => ?_, fun i n hmem => ?_, fun n hn => ?_, fun n hn => ?_⟩
    · rcases htaken i hi with hold | hnew
      · obtain ⟨c, hc, hend⟩ := h.told.taken i hold
        exact ⟨c, hc, Nat.le_trans hend hle⟩
      · exact hnew
    · obtain ⟨hi, hn⟩ := h.told.answers i n hmem
      exact ⟨hsub i hi, Nat.le_trans hn hle⟩
    · exact Nat.le_trans (h.told.reports n hn) hle
    · exact Nat.le_trans (h.told.offered n hn) hle
  live hb := by
    have hlive := h.live hb
    have hmax : ∀ {k m : Nat}, k ≤ max s.recv m → k ≤ max e.rl.recvOffset m := fun hk =>
      Nat.le_trans hk (Nat.max_le.mpr ⟨Nat.le_trans hle (Nat.le_max_left _ _), Nat.le_max_right _ _⟩)
    refine ⟨Nat.le_trans hlive.acked hle, fun hp => Nat.le_trans (hlive.idle hp) hle,
      fun c hc hne => Nat.le_trans (hlive.running c hc hne) hle, fun res hres => ?_, fun i hi => ?_,
      fun c hc => Nat.le_trans (hlive.flight c hc) hle, hlive.offered, hgap hb, hlive.noRefusal⟩
    · exact ⟨Nat.le_trans (hlive.result res hres).1 hle, hmax (hlive.result res hres).2⟩
    · obtain ⟨c, hc, hcursor⟩ := hlive.waiting i hi
      exact ⟨c, hc, hmax hcursor⟩

/-- The server goes about its business. -/
theorem server_step (h : Inv s) {op : EndOp} {lane : Lane}
    (hl : s.lane.step (.receiver op) = some lane) : Inv { s with lane := lane } := by
  have hsound := h.sound.step hl
  have hnumbered := h.numbered.step h.sound hl
  have hle := h.sound.recv_le hl
  cases Lane.moves_of_step hl with
  | receiver hop hp =>
    exact h.grow s.lane.delivered hsound hnumbered hle (fun _ hi => hi)
      (fun _ hi => .inl hi) fun hb => (h.live hb).noGap

/-- **The server processes an upload**, old or new: it starts within what the server has, so it
opens no gap, and if it is taken the server has it. -/
theorem serve_step (h : Inv s) {i : Nat} {c : Chunk} {err : Option Err} {e : Endpoint}
    (hget : s.lane.flight[i]? = some c) (hh : s.lane.receiver.hear c.off c.bytes = some (err, e)) :
    Inv { s with
      lane :=
        { s.lane with
          receiver := e
          delivered := s.lane.delivered ++ e.inp.buf.drop s.lane.receiver.inp.buf.length }
      taken := if err = none then s.taken ++ [i] else s.taken
      gap := s.gap || err == some .replayGap } := by
  have hmem : c ∈ s.lane.flight := List.mem_of_getElem? hget
  have hwf := h.sound.holds.wf
  refine h.grow _ (h.sound.deliver_step hmem hh)
    (h.numbered.receiver_step _ (h.numbered.heard_le h.sound hmem hh))
    (Endpoint.hear_recvOffset hwf hh).1 (fun j hj => ?_) (fun j hj => ?_) fun hb => ?_
  · split_ifs
    · exact List.mem_append_left _ hj
    · exact hj
  · split_ifs at hj with herr
    · rcases List.mem_append.mp hj with hold | hnew
      · exact .inl hold
      · rw [List.mem_singleton.mp hnew]
        refine .inr ⟨c, hget, ?_⟩
        rcases Endpoint.hear_cases hwf hh with ⟨-, -, -, -, hrecv⟩ | ⟨hne, -⟩
        · rw [hrecv]
          exact Nat.le_max_right _ _
        · exact absurd herr hne
    · exact .inl hj
  · have hlive := h.live hb
    rw [hlive.noGap, Bool.false_or, beq_eq_false_iff_ne]
    rcases (Endpoint.hear_spec hwf (hlive.flight c hmem) hh).2.2 with ⟨rfl, -⟩ | ⟨rfl, -⟩ <;> simp

/-- The server says what it has. -/
theorem tell (h : Inv s) {answers : List (Nat × Nat)} {reports : List Nat}
    (hanswers : ∀ i n, (i, n) ∈ answers → (i, n) ∈ s.answers ∨ i ∈ s.taken ∧ n ≤ s.recv)
    (hreports : ∀ n ∈ reports, n ∈ s.reports ∨ n ≤ s.recv) :
    Inv { s with answers := answers, reports := reports } where
  sound := h.sound
  numbered := h.numbered
  uncalled := h.uncalled
  told := by
    refine ⟨h.told.taken, fun i n hmem => ?_, fun n hmem => ?_, h.told.offered⟩
    · exact (hanswers i n hmem).elim (h.told.answers i n) id
    · exact (hreports n hmem).elim (h.told.reports n) id
  live hb :=
    have hlive := h.live hb
    ⟨hlive.acked, hlive.idle, hlive.running, hlive.result, hlive.waiting, hlive.flight, hlive.offered,
      hlive.noGap, hlive.noRefusal⟩

/-! ### The client's side -/

/-- The client moves on to another phase with its layer changed by an operation that numbers
nothing. -/
theorem relayer (h : Inv s) (r : Reliable) {phase : UplinkPhase} (refused : Bool)
    (ht : s.rl.Trims r) (hcall : phase ≠ .inNext → s.lane.sender.call = none)
    (hoffered : ∀ n, phase = .offered n → n ≤ s.recv)
    (hlive : r.broken = false → Live { s.withRl r with phase := phase, refused := refused }) :
    Inv { s.withRl r with phase := phase, refused := refused } where
  sound := ⟨h.sound.sending.trims ht, h.sound.honest, h.sound.holds⟩
  numbered := h.numbered.relayer ht.sendOffset
  uncalled := hcall
  told := ⟨h.told.taken, h.told.answers, h.told.reports, hoffered⟩
  live := hlive

/-- Other things go on around the client's layer. -/
theorem client_step (h : Inv s) {op : EndOp} {e : Endpoint} (hop : op.leavesOut = true)
    (hp : s.lane.sender.perform op = some e) :
    Inv { s with lane :=
      { s.lane with sender := e, written := s.lane.written ++ s.lane.sender.wrote op } } := by
  obtain ⟨hcall, hsend, hkept⟩ := Endpoint.perform_leavesOut h.wf hop hp
  refine ⟨h.sound.sender_step hp, h.numbered.sender_step h.sound hp,
    fun hne => hcall.trans (h.uncalled hne),
    ⟨h.told.taken, h.told.answers, h.told.reports, h.told.offered⟩, fun hb => ?_⟩
  obtain ⟨hb', hacked, hcursor⟩ := hkept hb
  have hlive := h.live hb'
  refine ⟨hacked ▸ hlive.acked, fun hp => hcursor ▸ hlive.idle hp, fun c hc hne => ?_,
    fun res hres => ?_, fun i hi => ?_, hlive.flight, fun n hn => hacked ▸ hlive.offered n hn,
    hlive.noGap, hlive.noRefusal⟩
  · exact hsend ▸ hlive.running c (hcall ▸ hc) hne
  · exact hcursor ▸ hlive.result res (hcall ▸ hres)
  · exact hcursor ▸ hlive.waiting i hi

/-- **`nextOut` starts** where the cursor stands, which the server has; or everything numbered is
before the cursor, and the server has all of it. -/
theorem call_step (h : Inv s) {dst : Nat} {e : Endpoint} (hphase : s.phase = .idle)
    (hp : s.lane.sender.perform (.nextOut dst) = some e) :
    Inv { s with
      lane := { s.lane with sender := e, written := s.lane.written ++ [] }, phase := .inNext } := by
  have hsound := h.sound.sender_step hp
  have hnumbered := h.numbered.sender_step h.sound hp
  simp only [Endpoint.perform, h.uncalled (by rw [hphase]; simp)] at hp
  obtain ⟨⟨call, r⟩, hstart, rfl⟩ := Option.map_eq_some_iff.mp hp
  refine ⟨hsound, hnumbered, fun hne => absurd rfl hne,
    ⟨h.told.taken, h.told.answers, h.told.reports, fun _ hn => by cases hn⟩, fun hb => ?_⟩
  rcases Reliable.nextOutStart_spec h.wf dst with ⟨hb', -, heq⟩ | ⟨hend, heq⟩
  · cases heq.symm.trans hstart
    have hlive := h.live hb'
    have hcursor := hlive.idle hphase
    refine ⟨hlive.acked, (by simp), fun c hc hne => ?_, fun res hres => ?_, (by simp), hlive.flight,
      (by simp), hlive.noGap, hlive.noRefusal⟩
    · cases hc
      exact absurd rfl (hne _)
    · cases hres
      exact ⟨hcursor, Nat.le_max_right _ _⟩
  · cases heq.symm.trans hstart
    have hlive := h.live hb
    have hall : s.rl.sentCursor = s.rl.sendOffset :=
      hend.resolve_left fun hbroken => absurd (hb.symm.trans hbroken) (by simp)
    refine ⟨hlive.acked, (by simp), fun _ _ _ => ?_, fun res hres => (by cases hres), (by simp),
      hlive.flight, (by simp), hlive.noGap, hlive.noRefusal⟩
    exact hall ▸ hlive.idle hphase

/-- **`nextOut` goes on**: what it numbers now starts at the end of what is numbered, and the server
has all of that. -/
theorem advance_step (h : Inv s) {fired : Bool} {e : Endpoint} (hphase : s.phase = .inNext)
    (hp : s.lane.sender.perform (.advance fired) = some e) :
    Inv { s with lane := { s.lane with sender := e, written := s.lane.written ++ [] } } := by
  have hsound := h.sound.sender_step hp
  have hnumbered := h.numbered.sender_step h.sound hp
  simp only [Endpoint.perform, Option.bind_eq_bind, Option.bind_eq_some_iff] at hp
  obtain ⟨call, hcall, ⟨call', r, out⟩, hadv, heq⟩ := hp
  cases heq
  have hrunning : ∀ res, call ≠ .returned res := by
    rintro res rfl
    cases hadv
  refine ⟨hsound, hnumbered, fun hne => absurd hphase hne,
    ⟨h.told.taken, h.told.answers, h.told.reports, h.told.offered⟩, fun hb => ?_⟩
  rcases Reliable.advance_cases hadv with ⟨rfl, -, -, -, hres⟩ | ⟨bs, rfl, rfl, rfl, -⟩
  · -- a read returns without bytes, or goes on with the layer as it was
    have hlive := h.live hb
    have hhas := hlive.running call hcall hrunning
    refine ⟨hlive.acked, fun hi => absurd (hphase.symm.trans hi) (by simp), fun _ _ _ => hhas,
      fun res heq => ?_, fun i hi => absurd (hphase.symm.trans hi) (by simp), hlive.flight,
      hlive.offered, hlive.noGap, hlive.noRefusal⟩
    rw [(hres res (Option.some.inj heq)).1]
    refine ⟨Nat.zero_le _, Nat.le_trans (Nat.le_trans h.wf.cursor_le hhas) (Nat.le_max_left _ _)⟩
  · obtain ⟨hb', -, hacked, -⟩ := Reliable.number_unbroken hb
    have hlive := h.live hb'
    have hhas := hlive.running _ hcall hrunning
    refine ⟨?_, fun hi => absurd (hphase.symm.trans hi) (by simp), fun c hc hne => ?_,
      fun res heq => ?_, fun i hi => absurd (hphase.symm.trans hi) (by simp), hlive.flight,
      fun n hn => absurd (hphase.symm.trans hn) (by simp), hlive.noGap, hlive.noRefusal⟩
    · show (s.lane.sender.rl.number bs).ackedOffset ≤ s.recv
      rw [hacked]
      exact hlive.acked
    · cases hc
      exact absurd rfl (hne _)
    · cases heq
      refine ⟨hhas, ?_⟩
      show (s.lane.sender.rl.number bs).sentCursor ≤ _
      rw [(s.lane.sender.rl.number_offsets bs).2.1]
      exact Nat.le_max_right _ _

/-- The result of `nextOut` is collected, and the client goes on to a phase without one. -/
theorem collect_step (h : Inv s) {res : NextResult} {e : Endpoint} (phase : UplinkPhase)
    (posted : List Chunk) (hcol : s.lane.sender.collect = some (res, e))
    (hposted : ∀ c ∈ posted, c = ⟨res.off, res.bytes⟩) (hphase : ∀ n, phase ≠ .offered n)
    (hidle : phase = .idle → res.bytes = [])
    (hwaiting : ∀ i, phase = .waiting i → (s.lane.flight ++ posted)[i]? = some ⟨res.off, res.bytes⟩) :
    Inv { s with
      lane := { s.lane with sender := e, flight := s.lane.flight ++ posted }, phase := phase } := by
  obtain ⟨hsending, hslice⟩ := h.sound.sending.collect hcol
  have hnumbered := h.numbered.collect_step hcol fun c hc =>
    (List.mem_append.mp hc).imp id (hposted c)
  obtain ⟨hcall, rfl⟩ := Endpoint.collected hcol
  refine ⟨⟨hsending, fun c hc => ?_, h.sound.holds⟩, hnumbered, fun _ => rfl,
    ⟨fun i hi => ?_, h.told.answers, h.told.reports, fun n hn => absurd hn (hphase n)⟩,
    fun hb => ?_⟩
  · rcases List.mem_append.mp hc with hold | hnew
    · exact h.sound.honest c hold
    · rw [hposted c hnew]
      exact hslice
  · obtain ⟨c, hc, hend⟩ := h.told.taken i hi
    exact ⟨c, List.getElem?_append_left (List.getElem?_eq_some_iff.mp hc).1 ▸ hc, hend⟩
  · have hlive := h.live hb
    obtain ⟨hoff, hcursor⟩ := hlive.result res hcall
    refine ⟨hlive.acked, fun hi => ?_, nofun, nofun, fun i hi => ⟨_, hwaiting i hi, hcursor⟩,
      fun c hc => ?_, fun n hn => absurd hn (hphase n), hlive.noGap, hlive.noRefusal⟩
    · rw [hidle hi, List.length_nil, Nat.add_zero, Nat.max_eq_left hoff] at hcursor
      exact hcursor
    · rcases List.mem_append.mp hc with hold | hnew
      · exact hlive.flight c hold
      · rw [hposted c hnew]
        exact hoff

/-- An offset that the server has reported is never refused by an unbroken layer. -/
theorem ack_accepted (h : Inv s) {n : Nat} {err : Option Err} {r : Reliable} (hn : n ≤ s.recv)
    (ha : s.rl.ack n = some (err, r)) : err = none := by
  have hle : n ≤ s.rl.sendOffset := Nat.le_trans hn h.numbered.recv
  rcases Reliable.ack_spec h.wf n with ⟨hgt, -⟩ | ⟨-, -, heq⟩ | ⟨-, -, -, heq⟩
  · exact absurd hgt (Nat.not_lt.mpr hle)
  · cases heq.symm.trans ha; rfl
  · cases heq.symm.trans ha; rfl

/-- The client takes an offset while its legs run. -/
theorem ack_step (h : Inv s) {n : Nat} {err : Option Err} {r : Reliable} (phase : UplinkPhase)
    (hn : n ≤ s.recv) (ha : s.rl.ack n = some (err, r))
    (hcall : phase ≠ .inNext → s.lane.sender.call = none) (hphase : ∀ n, phase ≠ .offered n)
    (hidle : s.rl.broken = false → phase = .idle → s.rl.sentCursor ≤ s.recv)
    (hwaiting : ∀ i, phase = .waiting i → s.phase = .waiting i) :
    Inv { s.withRl r with phase := phase, refused := s.refused || err != none } := by
  obtain ⟨hsend, hkept⟩ := Reliable.ack_offsets h.wf ha
  refine h.relayer _ _ (Reliable.ack_trims h.wf ha).1 hcall (fun n hn => absurd hn (hphase n))
    fun hb => ?_
  obtain ⟨hb', -, hacked, hcursor⟩ := hkept hb
  have hlive := h.live hb'
  have hcap : ∀ {k : Nat}, s.rl.sentCursor ≤ max s.recv k → r.sentCursor ≤ max s.recv k := by
    intro k hk
    rw [hcursor]
    exact Nat.max_le.mpr ⟨hk, Nat.le_trans hn (Nat.le_max_left _ _)⟩
  refine ⟨?_, fun hi => ?_, fun c hc hne => ?_, fun res hres => ?_, fun i hi => ?_, hlive.flight,
    fun n hn => absurd hn (hphase n), hlive.noGap, ?_⟩
  · show r.ackedOffset ≤ s.recv
    rw [hacked]
    exact Nat.max_le.mpr ⟨hlive.acked, hn⟩
  · show r.sentCursor ≤ s.recv
    rw [hcursor]
    exact Nat.max_le.mpr ⟨hidle hb' hi, hn⟩
  · exact hsend ▸ hlive.running c hc hne
  · exact ⟨(hlive.result res hres).1, hcap (hlive.result res hres).2⟩
  · obtain ⟨c, hc, hle⟩ := hlive.waiting i (hwaiting i hi)
    exact ⟨c, hc, hcap hle⟩
  · rw [hlive.noRefusal, h.ack_accepted hn ha]
    rfl

/-- **An offer is never refused**: what the server had when it was asked lies between what is
acknowledged and what is numbered. -/
theorem offer_granted (h : Inv s) (hb : s.rl.broken = false) {n : Nat} (hphase : s.phase = .offered n) :
    s.rl.resumeOut n = some (true, s.rl.rewind n) := by
  rcases Reliable.resumeOut_spec h.wf n with ⟨hno, -⟩ | ⟨-, -, -, heq⟩
  · rcases hno with hbroken | hlow | hhigh
    · exact absurd (hb.symm.trans hbroken) (by simp)
    · exact absurd ((h.live hb).offered n hphase) (Nat.not_le.mpr hlow)
    · exact absurd (Nat.le_trans (h.told.offered n hphase) h.numbered.recv) (Nat.not_le.mpr hhigh)
  · exact heq

/-- The client goes on from the offset that it was offered. -/
theorem restart_step (h : Inv s) {n : Nat} {ok : Bool} {r : Reliable} (hphase : s.phase = .offered n)
    (hr : s.rl.resumeOut n = some (ok, r)) :
    Inv { s.withRl r with
      phase := if ok then .idle else .over, refused := s.refused || !ok } := by
  have hcall : s.lane.sender.call = none := h.uncalled (by rw [hphase]; simp)
  have hn := h.told.offered n hphase
  refine h.relayer _ _ (Reliable.resumeOut_trims h.wf hr).1 (fun _ => hcall)
    (fun m hm => by split_ifs at hm) fun hb => ?_
  rcases Reliable.resumeOut_spec h.wf n with ⟨-, heq⟩ | ⟨hb', -, -, heq⟩
  · cases heq.symm.trans hr
    cases (h.offer_granted hb hphase).symm.trans hr
  · cases heq.symm.trans hr
    have hlive := h.live hb'
    refine ⟨hn, fun _ => hn, fun c hc => ?_, fun res hres => ?_, (by simp), hlive.flight, (by simp),
      hlive.noGap, by simp [hlive.noRefusal]⟩
    · exact absurd (hcall.symm.trans hc) (by simp)
    · exact absurd (hcall.symm.trans hres) (by simp)

/-- The client moves on to a phase in which nothing is under way. -/
theorem rephase (h : Inv s) {phase : UplinkPhase} (hcall : s.lane.sender.call = none)
    (hidle : phase ≠ .idle) (hwaiting : ∀ i, phase ≠ .waiting i)
    (hoffered : ∀ n, phase = .offered n → n = s.recv) : Inv { s with phase := phase } := by
  refine h.relayer s.rl s.refused (.refl h.wf) (fun _ => hcall)
    (fun n hn => Nat.le_of_eq (hoffered n hn)) fun hb => ?_
  have hlive := h.live hb
  refine ⟨hlive.acked, fun hi => absurd hi hidle, hlive.running, hlive.result,
    fun i hi => absurd hi (hwaiting i), hlive.flight, fun n hn => ?_, hlive.noGap, hlive.noRefusal⟩
  rw [hoffered n hn]
  exact hlive.acked

/-- The legs are down, or the client is done. -/
theorem rest (h : Inv s) (phase : UplinkPhase) (hin : s.phase ≠ .inNext)
    (hrest : phase = .down ∨ phase = .asking ∨ phase = .over) : Inv { s with phase := phase } := by
  refine h.rephase (h.uncalled hin) ?_ ?_ ?_ <;> rcases hrest with rfl | rfl | rfl <;> simp

/-- **Every step keeps the invariant.** -/
theorem step {ev : UplinkEvent} (h : Inv s) (hs : s.step ev = some s') : Inv s' := by
  cases ev with
  | client op =>
    obtain ⟨hop, hs⟩ := Option.ite_none_right_eq_some.mp hs
    obtain ⟨lane, hl, rfl⟩ := Option.map_eq_some_iff.mp hs
    obtain ⟨e, hp, rfl⟩ := Option.map_eq_some_iff.mp hl
    exact h.client_step hop hp
  | server op =>
    obtain ⟨lane, hl, rfl⟩ := Option.map_eq_some_iff.mp hs
    exact h.server_step hl
  | call dst =>
    obtain ⟨hphase, hs⟩ := Option.ite_none_right_eq_some.mp hs
    obtain ⟨lane, hl, rfl⟩ := Option.map_eq_some_iff.mp hs
    obtain ⟨e, hp, rfl⟩ := Option.map_eq_some_iff.mp hl
    exact h.call_step hphase hp
  | advance fired =>
    obtain ⟨hphase, hs⟩ := Option.ite_none_right_eq_some.mp hs
    obtain ⟨lane, hl, rfl⟩ := Option.map_eq_some_iff.mp hs
    obtain ⟨e, hp, rfl⟩ := Option.map_eq_some_iff.mp hl
    exact h.advance_step hphase hp
  | post =>
    obtain ⟨-, hs⟩ := Option.ite_none_right_eq_some.mp hs
    obtain ⟨⟨res, e⟩, hcol, hs⟩ := Option.bind_eq_some_iff.mp hs
    obtain ⟨-, ⟨⟩⟩ := Option.ite_none_right_eq_some.mp hs
    refine h.collect_step _ _ hcol (fun c hc => List.mem_singleton.mp hc) (by simp) (by simp) ?_
    rintro i ⟨⟩
    exact List.getElem?_concat_length
  | skip =>
    obtain ⟨-, hs⟩ := Option.ite_none_right_eq_some.mp hs
    obtain ⟨⟨res, e⟩, hcol, hs⟩ := Option.bind_eq_some_iff.mp hs
    obtain ⟨⟨-, hnil⟩, ⟨⟩⟩ := Option.ite_none_right_eq_some.mp hs
    have hinv := h.collect_step .idle [] hcol (by simp) (by simp)
      (fun _ => hnil) (by simp)
    rwa [List.append_nil] at hinv
  | leave =>
    simp only [Uplink.step] at hs
    split at hs
    next hphase =>
      cases hs
      exact h.rest _ (by simp [hphase]) (by simp)
    next i hphase =>
      cases hs
      exact h.rest _ (by simp [hphase]) (by simp)
    next =>
      obtain ⟨⟨res, e⟩, hcol, rfl⟩ := Option.map_eq_some_iff.mp hs
      have hinv := h.collect_step .down [] hcol (by simp) (by simp) (by simp)
        (by simp)
      rwa [List.append_nil] at hinv
    next => cases hs
  | serve i =>
    simp only [Uplink.step, Option.bind_eq_bind, Option.bind_eq_some_iff] at hs
    obtain ⟨c, hget, ⟨err, e⟩, hh, heq⟩ := hs
    cases heq
    exact h.serve_step hget hh
  | answer i =>
    obtain ⟨hi, ⟨⟩⟩ := Option.ite_none_right_eq_some.mp hs
    refine h.tell (fun j n hmem => ?_) fun n hn => .inl hn
    rcases List.mem_append.mp hmem with hold | hnew
    · exact .inl hold
    · cases List.mem_singleton.mp hnew
      exact .inr ⟨hi, Nat.le_refl _⟩
  | report =>
    cases hs
    refine h.tell (fun j n hmem => .inl hmem) fun n hn => ?_
    rcases List.mem_append.mp hn with hold | hnew
    · exact .inl hold
    · exact .inr (Nat.le_of_eq (List.mem_singleton.mp hnew))
  | accept n =>
    simp only [Uplink.step] at hs
    split at hs
    next i hphase =>
      obtain ⟨hmem, hs⟩ := Option.ite_none_right_eq_some.mp hs
      obtain ⟨⟨err, r⟩, ha, rfl⟩ := Option.map_eq_some_iff.mp hs
      obtain ⟨hi, hn⟩ := h.told.answers i n hmem
      have hcall := h.uncalled (by rw [hphase]; simp)
      refine h.ack_step _ hn ha (fun _ => hcall) (fun m => ?_) (fun hb _ => ?_) fun j hj => ?_
      · split_ifs <;> simp
      · -- the upload was taken, so the server is past it
        obtain ⟨c, hget, hcursor⟩ := (h.live hb).waiting i hphase
        obtain ⟨c', hget', hend⟩ := h.told.taken i hi
        cases hget.symm.trans hget'
        exact Nat.le_trans hcursor (Nat.max_le.mpr ⟨Nat.le_refl _, hend⟩)
      · split_ifs at hj
    next => cases hs
  | hearReport n =>
    obtain ⟨⟨hrunning, hn⟩, hs⟩ := Option.ite_none_right_eq_some.mp hs
    obtain ⟨⟨err, r⟩, ha, rfl⟩ := Option.map_eq_some_iff.mp hs
    refine h.ack_step s.phase (h.told.reports n hn) ha h.uncalled (fun m hm => ?_)
      (fun hb => (h.live hb).idle) fun _ hi => hi
    rw [hm] at hrunning
    cases hrunning
  | ask =>
    obtain ⟨⟨hphase, -⟩, ⟨⟩⟩ := Option.ite_none_right_eq_some.mp hs
    exact h.rest _ (by simp [hphase]) (by simp)
  | offer =>
    obtain ⟨⟨hphase, -⟩, ⟨⟩⟩ := Option.ite_none_right_eq_some.mp hs
    refine h.rephase (h.uncalled (by rw [hphase]; simp)) (by simp) (by simp) ?_
    rintro n ⟨⟩
    rfl
  | refuse =>
    obtain ⟨hphase, ⟨⟩⟩ := Option.ite_none_right_eq_some.mp hs
    exact h.rest _ (by simp [hphase]) (by simp)
  | giveUp =>
    obtain ⟨hphase, ⟨⟩⟩ := Option.ite_none_right_eq_some.mp hs
    exact h.rest _ (by simp [hphase]) (by simp)
  | lose =>
    simp only [Uplink.step] at hs
    split at hs
    next hphase =>
      cases hs
      exact h.rest _ (by simp [hphase]) (by simp)
    next n hphase =>
      cases hs
      exact h.rest _ (by simp [hphase]) (by simp)
    next => cases hs
  | restart =>
    simp only [Uplink.step] at hs
    split at hs
    next n hphase =>
      obtain ⟨⟨ok, r⟩, hr, rfl⟩ := Option.map_eq_some_iff.mp hs
      exact h.restart_step hphase hr
    next => cases hs

theorem reachable {sendMax recvMax : Int} {sendEager recvEager : Bool}
    (h : (machine sendMax recvMax sendEager recvEager).Reachable s) : Inv s :=
  Machine.Reach.invariant (P := Inv) (init sendMax recvMax sendEager recvEager)
    (fun _ _ _ _ hs _ hstep => hs.step hstep) h

/-- A client that is offered an offset goes on from there. -/
theorem resumes (h : Inv s) (hb : s.rl.broken = false) {n : Nat} (hphase : s.phase = .offered n) :
    ∃ s', s.step .restart = some s' ∧ s'.phase = .idle ∧ s'.rl = s.rl.rewind n := by
  refine ⟨{ s.withRl (s.rl.rewind n) with phase := .idle, refused := s.refused || false }, ?_, rfl,
    rfl⟩
  simp only [Uplink.step, hphase, h.offer_granted hb hphase, Option.map_some]
  rfl

end Inv

/-- **Batch uploads are taken exactly once.** In every run, as long as the client's layer is
unbroken: no upload, whenever it is processed and however often, has opened a gap; the server has
the beginning of what was written and nothing twice; what is acknowledged it has, and it has no more
than was numbered; an upload that it took lies within what it has; the client has refused no offset
that the server reported, and a resume that it is offered sets it to the offset of the offer. -/
theorem batch_uploads_exactly_once {sendMax recvMax : Int} {sendEager recvEager : Bool} {s : Uplink}
    (h : (machine sendMax recvMax sendEager recvEager).Reachable s) (hb : s.rl.broken = false) :
    s.gap = false ∧ s.refused = false ∧
    s.lane.delivered = s.lane.written.take s.recv ∧
    s.rl.ackedOffset ≤ s.recv ∧ s.recv ≤ s.rl.sendOffset ∧
    (∀ c ∈ s.lane.flight, c.off ≤ s.recv) ∧
    (∀ i ∈ s.taken, ∃ c, s.lane.flight[i]? = some c ∧ c.off + c.bytes.length ≤ s.recv) ∧
    (∀ n, s.phase = .offered n →
      ∃ s', s.step .restart = some s' ∧ s'.phase = .idle ∧ s'.rl = s.rl.rewind n) := by
  have hinv := Inv.reachable h
  have hlive := hinv.live hb
  exact ⟨hlive.noGap, hlive.noRefusal, hinv.sound.holds.got_eq, hlive.acked, hinv.numbered.recv,
    hlive.flight, hinv.told.taken, fun _ => hinv.resumes hb⟩

/-- An upload is taken and its answer lost; the client resumes past it, and the rest of what was
written goes out while the first upload is processed once more. -/
def lostAnswerRun : List UplinkEvent :=
  [.client (.write [1, 2, 3]), .call 2, .advance false, .advance false, .post, .serve 0, .leave, .ask,
    .offer, .restart, .call 2, .advance false, .advance true, .advance false, .post, .serve 0, .serve 1,
    .answer 1, .accept 3]

theorem lostAnswerRun_exactly_once :
    ((machine 0 0 true true).final lostAnswerRun).lane.delivered = [1, 2, 3] ∧
      ((machine 0 0 true true).final lostAnswerRun).gap = false := by
  have h := batch_uploads_exactly_once (Machine.reachable_final (machine 0 0 true true) lostAnswerRun)
    (by decide)
  refine ⟨?_, h.1⟩
  rw [h.2.2.1]
  decide

end Uplink

end Pollmux
