import Pollmux.Reliable.Link

/-!
# Honest runs lose nothing and can always be resumed

`Flow` is the invariant of one direction of a link and `Inv` that of the whole
link. There is one lemma for each thing that can happen to a direction, named
after it, and one that says a direction does not notice what happens to the rest
(`Flow.congr`). `Inv.step` assembles them.
-/

namespace Pollmux

open Kit

/-- A `nextOut` call that has passed its replay check and not returned. -/
def Endpoint.Waiting (e : Endpoint) : Prop := ∃ call, e.call = some call ∧ ∀ res, call ≠ .returned res

/-- A call that has not returned holds no chunk. -/
theorem Endpoint.held_of_waiting {e : Endpoint} (hw : e.Waiting) : e.held = [] := by
  obtain ⟨call, hcall, hne⟩ := hw
  unfold held
  rw [hcall]
  split
  next res heq => exact absurd (Option.some.inj heq) (hne res)
  next => rfl

/-- **What a call's region does to an unbroken layer's cursor**: it picks nothing, or a chunk that
starts there. -/
structure Endpoint.Picks (e e' : Endpoint) : Prop where
  unbroken : e.rl.broken = false
  unheld : e.held = []
  waiting : e'.Waiting → e'.rl.sentCursor = e'.rl.sendOffset
  chunk : (e'.held = [] ∧ e'.rl.sentCursor = e.rl.sentCursor) ∨
    ∃ len, e'.held = [(e.rl.sentCursor, len)] ∧ e'.rl.sentCursor = e.rl.sentCursor + len

namespace Endpoint

variable {e e' : Endpoint}

/-- A call returns the bytes at the cursor. -/
theorem Picks.returns {res : NextResult} (hb : e.rl.broken = false) (hheld : e.held = [])
    (hcall : e'.call = some (.returned res)) (hoff : res.off = e.rl.sentCursor)
    (hcur : e'.rl.sentCursor = e.rl.sentCursor + res.bytes.length) : Picks e e' := by
  have hheld' : e'.held = if res.bytes = [] then [] else [(res.off, res.bytes.length)] := by
    rw [held, hcall]
  refine ⟨hb, hheld, ?_, ?_⟩
  · rintro ⟨call, hc, hne⟩
    exact absurd (Option.some.inj (hcall.symm.trans hc)).symm (hne res)
  · rw [hheld', hcur]
    split
    next hnil => exact .inl ⟨rfl, by rw [hnil]; rfl⟩
    next => exact .inr ⟨_, by rw [hoff], rfl⟩

theorem picks_nextOut {dst : Nat} (h : e.rl.Wf) (hp : e.perform (.nextOut dst) = some e')
    (hb : e'.rl.broken = false) : Picks e e' := by
  cases performs hp with
  | aside hop => cases hop
  | nextOut hcall hstart =>
    have hheld : e.held = [] := by rw [held, hcall]
    rcases Reliable.nextOutStart_spec h dst with ⟨hb', _, heq⟩ | ⟨hend, heq⟩
    · cases heq.symm.trans hstart
      exact .returns hb' hheld rfl rfl rfl
    · cases heq.symm.trans hstart
      refine ⟨hb, hheld, fun _ => ?_, .inl ⟨rfl, rfl⟩⟩
      exact hend.resolve_left (by rw [hb]; exact Bool.false_ne_true)

theorem picks_advance {fired : Bool} (hp : e.perform (.advance fired) = some e')
    (hw : e.rl.broken = false → e.Waiting → e.rl.sentCursor = e.rl.sendOffset)
    (hb : e'.rl.broken = false) : Picks e e' := by
  cases performs hp with
  | aside hop => cases hop
  | @advance _ call call' _ _ hcall hadv =>
    have hwait : e.Waiting := by
      refine ⟨call, hcall, ?_⟩
      rintro res rfl
      cases hadv
    have hheld := held_of_waiting hwait
    rcases Reliable.advance_cases hadv with ⟨rfl, _, _, _, hempty⟩ | ⟨bs, rfl, rfl, rfl, rfl⟩
    · refine ⟨hb, hheld, fun _ => hw hb hwait, .inl ⟨?_, rfl⟩⟩
      cases call' with
      | returned res => simp only [held, (hempty res rfl).2, if_true]
      | entering | reading | taken => rfl
    · have hb' := (Reliable.number_unbroken hb).1
      have hcur := hw hb' hwait
      refine .returns hb' hheld rfl hcur.symm ?_
      show (e.rl.number bs).sentCursor = e.rl.sentCursor + bs.length
      rw [(e.rl.number_offsets bs).2.1, hcur]

end Endpoint

/-- **One direction of an honest link**, from the party `x` over `leg` to `y`, whose acks travel
on `back`. -/
structure Flow (x : Party) (leg : Leg) (y : Party) (back : Leg) : Prop where
  sending : x.ep.Sending x.written
  unbroken : x.ep.rl.broken = false
  acked : x.ep.rl.ackedOffset ≤ y.ep.rl.recvOffset
  /-- What is in flight leaves no gap and is nothing but what was numbered. -/
  queued : ∃ v, cover y.ep.rl.recvOffset leg.spans = some v ∧ v ≤ x.ep.rl.sendOffset
  /-- On a leg that is not cut, it reaches up to the cursor. -/
  live : leg.cut = false → ∃ v, cover y.ep.rl.recvOffset (leg.spans ++ x.ep.held) = some v ∧
    x.ep.rl.sentCursor ≤ v ∧ v ≤ x.ep.rl.sendOffset
  /-- A call that waits for new bytes has no replay pending. -/
  waiting : x.ep.Waiting → x.ep.rl.sentCursor = x.ep.rl.sendOffset
  acks : ∀ n, .ack n ∈ back.queue → n ≤ y.ep.rl.recvOffset
  due : ∀ n ∈ y.due, n ≤ y.ep.rl.recvOffset

namespace Flow

variable {x x' y y' : Party} {leg leg' back back' : Leg}

theorem recv_le (h : Flow x leg y back) : y.ep.rl.recvOffset ≤ x.ep.rl.sendOffset := by
  obtain ⟨v, hv, hle⟩ := h.queued
  exact Nat.le_trans (le_cover hv) hle

/-- A direction does not notice a change at the receiver that leaves its count alone and adds
only honest acks. -/
theorem congr (h : Flow x leg y back) (hrecv : y'.ep.rl.recvOffset = y.ep.rl.recvOffset)
    (hacks : ∀ n, .ack n ∈ back'.queue → n ≤ y.ep.rl.recvOffset)
    (hdue : ∀ n ∈ y'.due, n ≤ y.ep.rl.recvOffset) : Flow x leg y' back' where
  sending := h.sending
  unbroken := h.unbroken
  acked := hrecv ▸ h.acked
  queued := hrecv ▸ h.queued
  live := hrecv ▸ h.live
  waiting := h.waiting
  acks := hrecv ▸ hacks
  due := hrecv ▸ hdue

/-- The sender changes without numbering or returning anything, and its cursor moves no further
than it was or than the receiver is. -/
theorem settle (h : Flow x leg y back) (hs : x'.ep.Sending x'.written)
    (hb : x'.ep.rl.broken = false) (hacked : x'.ep.rl.ackedOffset ≤ y.ep.rl.recvOffset)
    (hcur : x'.ep.rl.sentCursor ≤ max x.ep.rl.sentCursor y.ep.rl.recvOffset)
    (hsend : x'.ep.rl.sendOffset = x.ep.rl.sendOffset) (hheld : x'.ep.held = x.ep.held)
    (hw : x'.ep.Waiting → x'.ep.rl.sentCursor = x'.ep.rl.sendOffset) : Flow x' leg y back where
  sending := hs
  unbroken := hb
  acked := hacked
  queued := hsend ▸ h.queued
  live := by
    intro hcut
    obtain ⟨v, hv, hlo, hhi⟩ := h.live hcut
    rw [hheld, hsend]
    exact ⟨v, hv, Nat.le_trans hcur (Nat.max_le.mpr ⟨hlo, le_cover hv⟩), hhi⟩
  waiting := hw
  acks := h.acks
  due := h.due

/-- The sender changes in a way that neither its offsets nor its call shows. -/
theorem congr_sender (h : Flow x leg y back) (hs : x'.ep.Sending x'.written)
    (hb : x'.ep.rl.broken = x.ep.rl.broken)
    (hacked : x'.ep.rl.ackedOffset = x.ep.rl.ackedOffset)
    (hcur : x'.ep.rl.sentCursor = x.ep.rl.sentCursor)
    (hsend : x'.ep.rl.sendOffset = x.ep.rl.sendOffset) (hcall : x'.ep.call = x.ep.call) :
    Flow x' leg y back := by
  refine h.settle hs (hb ▸ h.unbroken) (hacked ▸ h.acked) (hcur ▸ Nat.le_max_left _ _) hsend ?_ ?_
  · rw [Endpoint.held, Endpoint.held, hcall]
  · intro hw
    rw [hcur, hsend]
    exact h.waiting (by unfold Endpoint.Waiting at hw ⊢; rwa [hcall] at hw)

/-- The sender of a fresh call: nothing is held, so a live leg's queue reaches the cursor. -/
theorem cover_idle (h : Flow x leg y back) (hcut : leg.cut = false) (hheld : x.ep.held = []) :
    ∃ v, cover y.ep.rl.recvOffset leg.spans = some v ∧ x.ep.rl.sentCursor ≤ v ∧
      v ≤ x.ep.rl.sendOffset := by
  obtain ⟨v, hv, hlo, hhi⟩ := h.live hcut
  rw [hheld, List.append_nil] at hv
  exact ⟨v, hv, hlo, hhi⟩

/-- A call picks what starts where the queue ends. -/
theorem picks (h : Flow x leg y back) {ep : Endpoint} (hp : x.ep.Picks ep)
    (hs : ep.Sending x.written) (hb : ep.rl.broken = false)
    (hacked : ep.rl.ackedOffset = x.ep.rl.ackedOffset)
    (hsend : x.ep.rl.sendOffset ≤ ep.rl.sendOffset) : Flow { x with ep := ep } leg y back where
  sending := hs
  unbroken := hb
  acked := by rw [hacked]; exact h.acked
  queued := by
    obtain ⟨v, hv, hle⟩ := h.queued
    exact ⟨v, hv, Nat.le_trans hle hsend⟩
  live := by
    intro hcut
    obtain ⟨v, hv, hlo, hhi⟩ := h.cover_idle hcut hp.unheld
    have hend := hs.sends.wf.cursor_le
    show ∃ v, cover _ (leg.spans ++ ep.held) = some v ∧ ep.rl.sentCursor ≤ v ∧ v ≤ ep.rl.sendOffset
    rcases hp.chunk with ⟨hheld, hcur⟩ | ⟨len, hheld, hcur⟩
    · rw [hheld, List.append_nil, hcur]
      exact ⟨v, hv, hlo, Nat.le_trans hhi hsend⟩
    · rw [hheld]
      refine ⟨_, cover_snoc hv hlo, ?_, ?_⟩
      · rw [hcur]
        exact Nat.le_max_right _ _
      · rw [← hcur]
        exact Nat.max_le.mpr ⟨Nat.le_trans hhi hsend, hend⟩
  waiting := hp.waiting
  acks := h.acks
  due := h.due

/-- The transport calls `nextOut`: pending replay is returned at once, and without any the cursor
stands at the end. -/
theorem nextOut (h : Flow x leg y back) {dst : Nat} {ep : Endpoint}
    (hp : x.ep.perform (.nextOut dst) = some ep) : Flow { x with ep := ep } leg y back := by
  have hwf := h.sending.sends.wf
  have hkept : ep.rl.broken = x.ep.rl.broken ∧ ep.rl.ackedOffset = x.ep.rl.ackedOffset ∧
      ep.rl.sendOffset = x.ep.rl.sendOffset := by
    cases Endpoint.performs hp with
    | aside hop => cases hop
    | nextOut _ hstart =>
      rcases Reliable.nextOutStart_spec hwf dst with ⟨_, _, heq⟩ | ⟨_, heq⟩ <;>
        cases heq.symm.trans hstart <;> exact ⟨rfl, rfl, rfl⟩
  obtain ⟨hbroken, hacked, hsend⟩ := hkept
  have hb : ep.rl.broken = false := hbroken.trans h.unbroken
  exact h.picks (Endpoint.picks_nextOut hwf hp hb) (h.sending.perform_of_ne (by simp) hp) hb hacked
    (Nat.le_of_eq hsend.symm)

/-- The call crosses one more region: it reads on, returns with nothing, or numbers what it
took, which starts where the cursor stands. -/
theorem advance (h : Flow x leg y back) {fired : Bool} {ep : Endpoint}
    (hp : x.ep.perform (.advance fired) = some ep)
    (hfit : x.ep.overflows (.advance fired) = false) : Flow { x with ep := ep } leg y back := by
  have hkept : ep.rl.broken = false ∧ ep.rl.ackedOffset = x.ep.rl.ackedOffset ∧
      x.ep.rl.sendOffset ≤ ep.rl.sendOffset := by
    cases Endpoint.performs hp with
    | aside hop => cases hop
    | advance hcall hadv =>
      rcases Reliable.advance_cases hadv with ⟨rfl, _⟩ | ⟨bs, rfl, _, rfl, _⟩
      · exact ⟨h.unbroken, rfl, Nat.le_refl _⟩
      · simp only [Endpoint.overflows, hcall, decide_eq_false_iff_not, Nat.not_lt] at hfit
        obtain ⟨hb, hacked⟩ := Reliable.number_of_fit h.unbroken hfit
        exact ⟨hb, hacked, (x.ep.rl.number_offsets bs).1 ▸ Nat.le_add_right _ _⟩
  obtain ⟨hb, hacked, hsend⟩ := hkept
  exact h.picks (Endpoint.picks_advance hp (fun _ => h.waiting) hb)
    (h.sending.perform_of_ne (by simp) hp) hb hacked hsend

/-- **Any operation a party performs on its own keeps its direction**, short of an overflow. -/
theorem own (h : Flow x leg y back) {op : EndOp} {ep : Endpoint} (hperm : x.permits op = true)
    (hp : x.ep.perform op = some ep) (hfit : x.ep.overflows op = false) :
    Flow { x with ep := ep, written := x.written ++ x.ep.wrote op } leg y back := by
  have hs := h.sending.perform hp
  cases Endpoint.performs hp with
  | aside => exact h.congr_sender hs rfl rfl rfl rfl rfl
  | nextOut =>
    rw [Endpoint.wrote_of_ne (by simp), List.append_nil]
    exact h.nextOut hp
  | advance =>
    rw [Endpoint.wrote_of_ne (by simp), List.append_nil]
    exact h.advance hp hfit
  | @control c _ hc =>
    cases c with
    | resetAck => cases hc; exact h.congr_sender hs rfl rfl rfl rfl rfl
    | rewindToAcked =>
      cases hc
      simp only [Party.permits, Bool.and_eq_true, Option.isNone_iff_eq_none] at hperm
      have heq : x.ep.rl.rewindToAcked = { x.ep.rl with sentCursor := x.ep.rl.ackedOffset } :=
        if_neg (by rw [h.unbroken]; decide)
      rw [heq] at hs ⊢
      refine h.settle hs h.unbroken h.acked ?_ rfl rfl ?_
      · exact Nat.le_trans h.acked (Nat.le_max_right _ _)
      · rintro ⟨call, hcall, _⟩
        rw [show x.ep.call = some call from hcall] at hperm
        exact absurd hperm.2 (by simp)
    | ack n => cases hperm
    | resumeOut n => cases hperm
    | markBroken => cases hperm
    | takeAck => cases hperm
  | hear => cases hperm

/-- The transport puts the chunk its call returned on its leg. -/
theorem sendData (h : Flow x leg y back) {res : NextResult} {ep : Endpoint}
    (hc : x.ep.collect = some (res, ep)) :
    Flow { x with ep := ep }
      (if res.bytes = [] then leg else leg.send (.data ⟨res.off, res.bytes⟩)) y back := by
  have hs := (h.sending.collect hc).1
  obtain ⟨hcall, rfl⟩ := Endpoint.collected hc
  have hheld : x.ep.held = if res.bytes = [] then [] else [(res.off, res.bytes.length)] := by
    rw [Endpoint.held, hcall]
  have hidle : ¬ Endpoint.Waiting { x.ep with call := none } := by
    rintro ⟨call, hcall', _⟩
    cases hcall'
  split
  next hnil =>
    rw [if_pos hnil] at hheld
    exact h.settle hs h.unbroken h.acked (Nat.le_max_left _ _) rfl hheld.symm fun hw =>
      absurd hw hidle
  next hne =>
    rw [if_neg hne] at hheld
    cases hcut : leg.cut with
    | true =>
      rw [Leg.send_of_cut hcut]
      exact ⟨hs, h.unbroken, h.acked, h.queued, fun hlive => absurd (hcut.symm.trans hlive) nofun,
        fun hw => absurd hw hidle, h.acks, h.due⟩
    | false =>
      have hspans : (leg.send (.data ⟨res.off, res.bytes⟩)).spans = leg.spans ++ x.ep.held := by
        rw [Leg.send_of_live hcut, hheld, Leg.spans, List.filterMap_append]
        rfl
      obtain ⟨v, hv, hlo, hhi⟩ := h.live hcut
      refine ⟨hs, h.unbroken, h.acked, ⟨v, hspans ▸ hv, hhi⟩, fun _ => ⟨v, ?_, hlo, hhi⟩,
        fun hw => absurd hw hidle, h.acks, h.due⟩
      rw [show Endpoint.held { x.ep with call := none } = [] from rfl, List.append_nil, hspans]
      exact hv

/-- An ack of the other direction joins the queue. -/
theorem send_ack (h : Flow x leg y back) (n : Nat) : Flow x (leg.send (.ack n)) y back := by
  cases hcut : leg.cut with
  | true =>
    rw [Leg.send_of_cut hcut]
    exact h
  | false =>
    have hspans : (leg.send (.ack n)).spans = leg.spans := by
      rw [Leg.send_of_live hcut, Leg.spans, List.filterMap_append]
      exact List.append_nil _
    exact ⟨h.sending, h.unbroken, h.acked, hspans ▸ h.queued, fun _ => hspans ▸ h.live hcut,
      h.waiting, h.acks, h.due⟩

/-- The receiver takes the chunk at the head of the queue, and the rest still leaves no gap. -/
theorem take_data (h : Flow x leg y back) {c : Chunk} {rest : List Msg} {ep : Endpoint}
    (hq : leg.queue = .data c :: rest)
    (hrl : ep.rl = { y.ep.rl with
      recvOffset := max y.ep.rl.recvOffset (c.off + c.bytes.length) }) :
    Flow x { leg with queue := rest } { y with ep := ep } back := by
  have hrecv : ep.rl.recvOffset = max y.ep.rl.recvOffset (c.off + c.bytes.length) := by rw [hrl]
  have hmore : y.ep.rl.recvOffset ≤ ep.rl.recvOffset := by rw [hrecv]; exact Nat.le_max_left _ _
  have hspans : leg.spans = (c.off, c.bytes.length) :: Leg.spans { leg with queue := rest } := by
    simp only [Leg.spans, hq, List.filterMap_cons, Msg.span]
  have hnext : ∀ q v, cover y.ep.rl.recvOffset ((c.off, c.bytes.length) :: q) = some v →
      cover ep.rl.recvOffset q = some v := by
    intro q v hv
    simp only [cover] at hv
    split at hv
    next => rw [hrecv]; exact hv
    next => cases hv
  obtain ⟨v, hv, hle⟩ := h.queued
  refine ⟨h.sending, h.unbroken, Nat.le_trans h.acked hmore, ⟨v, hnext _ v (hspans ▸ hv), hle⟩, ?_,
    h.waiting, fun n hn => Nat.le_trans (h.acks n hn) hmore,
    fun n hn => Nat.le_trans (h.due n hn) hmore⟩
  intro hcut
  obtain ⟨u, hu, hlo, hhi⟩ := h.live hcut
  rw [hspans, List.cons_append] at hu
  exact ⟨u, hnext _ u hu, hlo, hhi⟩

/-- The head of a queue is never past what the receiver holds. -/
theorem head_le (h : Flow x leg y back) {c : Chunk} {rest : List Msg}
    (hq : leg.queue = .data c :: rest) : c.off ≤ y.ep.rl.recvOffset := by
  obtain ⟨v, hv, _⟩ := h.queued
  simp only [Leg.spans, hq, List.filterMap_cons, Msg.span, cover] at hv
  split at hv
  next hle => exact hle
  next => cases hv

/-- An ack leaves the queue. -/
theorem drop_ack (h : Flow x leg y back) {n : Nat} {rest : List Msg}
    (hq : leg.queue = .ack n :: rest) : Flow x { leg with queue := rest } y back := by
  have hspans : Leg.spans { leg with queue := rest } = leg.spans := by
    simp only [Leg.spans, hq, List.filterMap_cons, Msg.span]
  exact ⟨h.sending, h.unbroken, h.acked, hspans ▸ h.queued, hspans ▸ h.live, h.waiting, h.acks, h.due⟩

/-- The sender takes an honest ack: it never reports a bad one, and releases what it covers. -/
theorem take_ack (h : Flow x leg y back) {n : Nat} {err : Option Err} {rl : Reliable}
    (hn : n ≤ y.ep.rl.recvOffset) (ha : x.ep.rl.ack n = some (err, rl)) :
    err = none ∧ rl.recvOffset = x.ep.rl.recvOffset ∧
      Flow (x.withRl rl) leg y back := by
  have hwf := h.sending.sends.wf
  have hs := h.sending.trims (Reliable.ack_trims hwf ha).1
  have hle := h.recv_le
  rcases Reliable.ack_spec hwf n with ⟨hbad, _⟩ | ⟨_, _, heq⟩ | ⟨hb, _, hhi, heq⟩
  · omega
  · rw [heq] at ha
    cases ha
    exact ⟨rfl, rfl, h⟩
  · rw [heq] at ha
    cases ha
    refine ⟨rfl, rfl, h.settle hs hb hn ?_ rfl rfl ?_⟩
    · exact Nat.max_le.mpr ⟨Nat.le_max_left _ _, Nat.le_trans hn (Nat.le_max_right _ _)⟩
    · intro hw
      have hcur : x.ep.rl.sentCursor = x.ep.rl.sendOffset := h.waiting hw
      show max x.ep.rl.sentCursor n = x.ep.rl.sendOffset
      rw [hcur, Nat.max_eq_left hhi]

/-- The leg is cut: a beginning of what was in flight may still arrive. -/
theorem cut (h : Flow x leg y back) (k : Nat) :
    Flow x { queue := leg.queue.take k, cut := true } y back := by
  have hspans : leg.spans = Leg.spans { queue := leg.queue.take k, cut := true } ++
      (leg.queue.drop k).filterMap Msg.span := by
    rw [Leg.spans, Leg.spans, ← List.filterMap_append, List.take_append_drop]
  obtain ⟨v, hv, hle⟩ := h.queued
  rw [hspans] at hv
  obtain ⟨u, hu, huv⟩ := cover_of_append hv
  exact ⟨h.sending, h.unbroken, h.acked, ⟨u, hu, Nat.le_trans huv hle⟩, nofun, h.waiting, h.acks,
    h.due⟩

/-- The receiver stops reading: what was in flight is lost. -/
theorem dead (h : Flow x leg y back) : Flow x .dead y back :=
  ⟨h.sending, h.unbroken, h.acked, ⟨_, rfl, h.recv_le⟩, nofun, h.waiting, h.acks, h.due⟩

/-- A resume at the receiver's own offset is never refused, and aligns the sender with it. -/
theorem resume (h : Flow x leg y back) {ok : Bool} {rl : Reliable} (hidle : x.ep.call = none)
    (hr : x.ep.rl.resumeOut y.ep.rl.recvOffset = some (ok, rl)) :
    ok = true ∧ rl.recvOffset = x.ep.rl.recvOffset ∧ rl.ackedOffset = y.ep.rl.recvOffset ∧
      rl.sentCursor = y.ep.rl.recvOffset ∧
      Flow (x.withRl rl) leg y back := by
  have hwf := h.sending.sends.wf
  have hs := h.sending.trims (Reliable.resumeOut_trims hwf hr).1
  have hlo := h.acked
  have hhi := h.recv_le
  rcases Reliable.resumeOut_spec hwf y.ep.rl.recvOffset with ⟨hno, _⟩ | ⟨hb, _, _, heq⟩
  · rcases hno with hb | hlt | hgt
    · rw [h.unbroken] at hb
      cases hb
    · omega
    · omega
  · rw [heq] at hr
    cases hr
    refine ⟨rfl, rfl, rfl, rfl, h.settle hs hb (Nat.le_refl _) (Nat.le_max_right _ _) rfl rfl ?_⟩
    rintro ⟨call, hcall, _⟩
    rw [show x.ep.call = some call from hcall] at hidle
    cases hidle

/-- New legs start from a sender whose cursor is where the receiver is. -/
theorem start (h : Flow x leg y back) (hidle : x.ep.call = none)
    (hcur : x.ep.rl.sentCursor = y.ep.rl.recvOffset) :
    Flow { x with running := true } {} { y with running := true } {} := by
  refine ⟨h.sending, h.unbroken, h.acked, ⟨_, rfl, h.recv_le⟩, fun _ => ⟨_, ?_, ?_, h.recv_le⟩,
    h.waiting, nofun, h.due⟩
  · rw [Endpoint.held, hidle]
    rfl
  · exact Nat.le_of_eq hcur

end Flow

/-- A party whose legs are stopped only serves its application. -/
theorem Party.stopped_own {p : Party} {op : EndOp} {ep : Endpoint} (hrun : p.running = false)
    (hperm : p.permits op = true) (hp : p.ep.perform op = some ep) :
    ep.rl = p.ep.rl ∧ ep.call = p.ep.call := by
  cases Endpoint.performs hp with
  | aside => exact ⟨rfl, rfl⟩
  | nextOut => rw [Party.permits, hrun] at hperm; cases hperm
  | advance => rw [Party.permits, hrun] at hperm; cases hperm
  | @control c =>
    cases c with
    | resetAck => rw [Party.permits, hrun] at hperm; cases hperm
    | rewindToAcked => rw [Party.permits, hrun] at hperm; cases hperm
    | ack n => cases hperm
    | resumeOut n => cases hperm
    | markBroken => cases hperm
    | takeAck => cases hperm
  | hear => cases hperm

namespace Link

/-- A sender that stands exactly where its peer is: what the peer has is released, and the rest
is next to be sent. -/
def Aligned (s : Link) (e : Side) : Prop :=
  (s.party e).ep.rl.ackedOffset = (s.party e.peer).ep.rl.recvOffset ∧
    (s.party e).ep.rl.sentCursor = (s.party e.peer).ep.rl.recvOffset

/-- **The invariant of a link in which nothing has overflowed.** -/
structure Inv (s : Link) : Prop where
  flow : ∀ e, Flow (s.party e) (s.leg e) (s.party e.peer) (s.leg e.peer)
  stopped : ∀ e, (s.party e).running = false →
    (s.party e).ep.call = none ∧ (s.leg e).cut = true ∧ s.leg e.peer = .dead
  asked : ∀ n, s.shake.asked = some n →
    (s.party .client).running = false ∧ n = (s.party .client).ep.rl.recvOffset
  answered : ∀ n, s.shake.answered = some n → s.shake.asked.isSome = true ∧
    (s.party .server).running = false ∧ n = (s.party .server).ep.rl.recvOffset ∧ s.Aligned .server
  completed : s.shake.completed = true →
    s.shake.answered.isSome = true ∧ s.Aligned .client
  honest : s.refused = false ∧ s.gap = false ∧ s.badAck = false

/-- What a step outside the handshake leaves alone: a party whose legs are stopped, a leg nobody
reads, and the handshake. -/
structure Keeps (s s' : Link) : Prop where
  running : ∀ e, (s'.party e).running = (s.party e).running
  party : ∀ e, (s.party e).running = false →
    (s'.party e).ep.rl = (s.party e).ep.rl ∧ (s'.party e).ep.call = (s.party e).ep.call
  cut : ∀ e, (s.leg e).cut = true → (s'.leg e).cut = true
  dead : ∀ e, s.leg e = .dead → s'.leg e = .dead
  shake : s'.shake = s.shake
  honest : s'.refused = s.refused ∧ s'.gap = s.gap ∧ s'.badAck = s.badAck

/-- Both directions of a link, given from one end. -/
theorem flow_both {s : Link} (e : Side)
    (hout : Flow (s.party e) (s.leg e) (s.party e.peer) (s.leg e.peer))
    (hback : Flow (s.party e.peer) (s.leg e.peer) (s.party e) (s.leg e)) (x : Side) :
    Flow (s.party x) (s.leg x) (s.party x.peer) (s.leg x.peer) := by
  rcases e.eq_or_peer x with rfl | rfl
  · exact hout
  · rw [Side.peer_peer]
    exact hback

/-- A property of both ends, given from one. -/
theorem forall_both {P : Side → Prop} (e : Side) (he : P e) (hp : P e.peer) (x : Side) : P x := by
  rcases e.eq_or_peer x with rfl | rfl
  · exact he
  · exact hp

theorem Keeps.refl (s : Link) : Keeps s s :=
  ⟨fun _ => rfl, fun _ _ => ⟨rfl, rfl⟩, fun _ h => h, fun _ h => h, rfl, ⟨rfl, rfl, rfl⟩⟩

/-- A step at one party that touches no leg. -/
theorem Keeps.setParty {s : Link} (e : Side) (p : Party)
    (hrun : p.running = (s.party e).running)
    (hidle : (s.party e).running = false →
      p.ep.rl = (s.party e).ep.rl ∧ p.ep.call = (s.party e).ep.call) :
    Keeps s (s.setParty e p) where
  running := forall_both e (by rw [setParty_party, hrun]) (by rw [setParty_peer])
  party := forall_both e (by rw [setParty_party]; exact hidle)
    (fun _ => by rw [setParty_peer]; exact ⟨rfl, rfl⟩)
  cut _ h := h
  dead _ h := h
  shake := rfl
  honest := ⟨rfl, rfl, rfl⟩

theorem Keeps.aligned {s s' : Link} (hk : Keeps s s') {e : Side}
    (he : (s.party e).running = false) (hp : (s.party e.peer).running = false) :
    s'.Aligned e = s.Aligned e := by
  unfold Aligned
  rw [(hk.party e he).1, (hk.party e.peer hp).1]

/-- A step that also touches the leg from `e`, and neither revives nor refills it. -/
theorem Keeps.setLeg {s s' : Link} (hk : Keeps s s') (e : Side) (l : Leg)
    (hcut : (s'.leg e).cut = true → l.cut = true) (hdead : s'.leg e = .dead → l = .dead) :
    Keeps s (s'.setLeg e l) where
  running := hk.running
  party := hk.party
  cut := forall_both e (fun hx => by rw [setLeg_leg]; exact hcut (hk.cut e hx))
    (fun hx => by rw [setLeg_peer]; exact hk.cut _ hx)
  dead := forall_both e (fun hx => by rw [setLeg_leg]; exact hdead (hk.dead e hx))
    (fun hx => by rw [setLeg_peer]; exact hk.dead _ hx)
  shake := hk.shake
  honest := hk.honest

namespace Inv

variable {s s' : Link}

/-- The direction towards `e`. -/
theorem flow_back (h : Inv s) (e : Side) :
    Flow (s.party e.peer) (s.leg e.peer) (s.party e) (s.leg e) := by
  have := h.flow e.peer
  rwa [Side.peer_peer] at this

/-- A step outside the handshake keeps the invariant if it keeps both directions. -/
theorem keeps (h : Inv s) (hk : Keeps s s') (e : Side)
    (hout : Flow (s'.party e) (s'.leg e) (s'.party e.peer) (s'.leg e.peer))
    (hback : Flow (s'.party e.peer) (s'.leg e.peer) (s'.party e) (s'.leg e)) : Inv s' where
  flow := flow_both e hout hback
  stopped x hx := by
    rw [hk.running x] at hx
    obtain ⟨hcall, hcut, hdead⟩ := h.stopped x hx
    exact ⟨(hk.party x hx).2.trans hcall, hk.cut x hcut, hk.dead _ hdead⟩
  asked n hn := by
    rw [hk.shake] at hn
    obtain ⟨hrun, heq⟩ := h.asked n hn
    rw [hk.running, (hk.party _ hrun).1]
    exact ⟨hrun, heq⟩
  answered n hn := by
    rw [hk.shake] at hn ⊢
    obtain ⟨hasked, hrun, heq, hal⟩ := h.answered n hn
    obtain ⟨m, hm⟩ := Option.isSome_iff_exists.mp hasked
    rw [hk.running, hk.aligned hrun (h.asked m hm).1, (hk.party _ hrun).1]
    exact ⟨hasked, hrun, heq, hal⟩
  completed hc := by
    rw [hk.shake] at hc ⊢
    obtain ⟨hanswered, hal⟩ := h.completed hc
    obtain ⟨n, hn⟩ := Option.isSome_iff_exists.mp hanswered
    obtain ⟨hasked, hrun, _, _⟩ := h.answered n hn
    obtain ⟨m, hm⟩ := Option.isSome_iff_exists.mp hasked
    rw [hk.aligned (h.asked m hm).1 hrun]
    exact ⟨hanswered, hal⟩
  honest := by
    obtain ⟨hr, hg, hb⟩ := hk.honest
    rw [hr, hg, hb]
    exact h.honest

theorem own_step (h : Inv s) {e : Side} {op : EndOp} {ep : Endpoint} (o : Bool)
    (hperm : (s.party e).permits op = true) (hp : (s.party e).ep.perform op = some ep)
    (hfit : (s.party e).ep.overflows op = false) :
    Inv { s.setParty e { s.party e with
        ep := ep
        written := (s.party e).written ++ (s.party e).ep.wrote op } with overflowed := o } := by
  have hhear : ∀ off p, op ≠ .hear off p := by
    rintro off p rfl
    cases hperm
  obtain ⟨_, hrecv⟩ := Endpoint.perform_recvOffset (h.flow e).sending.sends.wf hhear hp
  have hk := Keeps.setParty (s := s) e { s.party e with
    ep := ep
    written := (s.party e).written ++ (s.party e).ep.wrote op } rfl
    fun hrun => Party.stopped_own hrun hperm hp
  refine h.keeps ⟨hk.running, hk.party, hk.cut, hk.dead, hk.shake, hk.honest⟩ e ?_ ?_
  · simp only [setParty_party, setParty_peer, setParty_leg]
    exact (h.flow e).own hperm hp hfit
  · simp only [setParty_party, setParty_peer, setParty_leg]
    exact (h.flow_back e).congr hrecv (h.flow_back e).acks (h.flow_back e).due

/-- A writer reads an ack from the layer: at most its `lastAck` changes. -/
theorem ack_read (h : Inv s) {e : Side} {rl : Reliable} {due : List Nat}
    (hrun : (s.party e).running = true)
    (hrl : rl = (s.party e).ep.rl ∨
      rl = { (s.party e).ep.rl with lastAck := (s.party e).ep.rl.recvOffset })
    (hdue : ∀ n ∈ due, n ∈ (s.party e).due ∨ n = (s.party e).ep.rl.recvOffset) :
    Inv (s.setParty e { (s.party e).withRl rl with due := due }) := by
  have hwf := (h.flow e).sending.sends.wf
  have hhonest : ∀ n ∈ due, n ≤ (s.party e).ep.rl.recvOffset := by
    intro n hn
    rcases hdue n hn with hold | rfl
    · exact (h.flow_back e).due n hold
    · exact Nat.le_refl _
  have htrims : (s.party e).ep.rl.Trims rl := by
    rcases hrl with rfl | rfl
    · exact .refl hwf
    · exact .same ⟨hwf.acked_le, hwf.cursor_le, hwf.replay_end, hwf.replay_le, hwf.replay_nil,
        Nat.le_refl _⟩ rfl rfl rfl rfl
  have hs := (h.flow e).sending.trims htrims
  refine h.keeps (.setParty e _ rfl fun hno => absurd (hrun.symm.trans hno) nofun) e ?_ ?_
  · simp only [setParty_party, setParty_peer, setParty_leg]
    rcases hrl with rfl | rfl <;> exact (h.flow e).congr_sender hs rfl rfl rfl rfl rfl
  · simp only [setParty_party, setParty_peer, setParty_leg]
    refine (h.flow_back e).congr ?_ (h.flow_back e).acks hhonest
    rcases hrl with rfl | rfl <;> rfl

/-- A party that puts something on its own leg, if both directions flow on. -/
theorem puts (h : Inv s) {e : Side} {p : Party} {l : Leg}
    (hp : p.running = (s.party e).running)
    (hstopped : (s.party e).running = false →
      p.ep.rl = (s.party e).ep.rl ∧ p.ep.call = (s.party e).ep.call)
    (hcut : (s.leg e).cut = true → l.cut = true) (hdead : s.leg e = .dead → l = .dead)
    (hout : Flow p l (s.party e.peer) (s.leg e.peer))
    (hback : Flow (s.party e.peer) (s.leg e.peer) p l) : Inv ((s.setParty e p).setLeg e l) := by
  refine h.keeps (.setLeg (.setParty e _ hp hstopped) e _ hcut hdead) e ?_ ?_
  · simp only [setLeg_party, setParty_party, setParty_peer, setLeg_leg, setLeg_peer, setParty_leg]
    exact hout
  · simp only [setLeg_party, setParty_party, setParty_peer, setLeg_leg, setLeg_peer, setParty_leg]
    exact hback

theorem sendAck_step (h : Inv s) {e : Side} {i n : Nat} (hn : (s.party e).due[i]? = some n) :
    Inv ((s.setParty e { s.party e with due := (s.party e).due.eraseIdx i }).setLeg e
      ((s.leg e).send (.ack n))) := by
  have hmem : n ∈ (s.party e).due := List.mem_of_getElem? hn
  refine h.puts rfl (fun _ => ⟨rfl, rfl⟩) (Leg.send_cut _ _).trans ?_ ?_ ?_
  · intro hdead
    rw [hdead]
    rfl
  · refine Flow.send_ack ?_ n
    exact (h.flow e).congr_sender (h.flow e).sending rfl rfl rfl rfl rfl
  · refine (h.flow_back e).congr rfl ?_ ?_
    · intro m hm
      rcases Leg.mem_send hm with hold | hnew
      · exact (h.flow_back e).acks m hold
      · cases hnew
        exact (h.flow_back e).due n hmem
    · exact fun m hm => (h.flow_back e).due m (List.mem_of_mem_eraseIdx hm)

theorem sendData_step (h : Inv s) {e : Side} {res : NextResult} {ep : Endpoint}
    (hc : (s.party e).ep.collect = some (res, ep)) :
    Inv ((s.setParty e { s.party e with ep := ep }).setLeg e
      (if res.bytes = [] then s.leg e else (s.leg e).send (.data ⟨res.off, res.bytes⟩))) := by
  have hflow := (h.flow e).sendData hc
  obtain ⟨hcall, rfl⟩ := Endpoint.collected hc
  have hbusy : (s.party e).running = false → False := by
    intro hrun
    rw [(h.stopped e hrun).1] at hcall
    cases hcall
  refine h.puts rfl (fun hrun => (hbusy hrun).elim) ?_ ?_ hflow ?_
  · intro hcut
    split
    next => exact hcut
    next => exact (Leg.send_cut _ _).trans hcut
  · intro hdead
    rw [hdead]
    split <;> rfl
  · refine (h.flow_back e).congr rfl ?_ (h.flow_back e).due
    intro m hm
    split at hm
    next => exact (h.flow_back e).acks m hm
    next =>
      rcases Leg.mem_send hm with hold | hnew
      · exact (h.flow_back e).acks m hold
      · cases hnew

theorem cut_step (h : Inv s) (e : Side) (k : Nat) :
    Inv (s.setLeg e { queue := (s.leg e).queue.take k, cut := true }) := by
  refine h.keeps (.setLeg (.refl s) e _ (fun _ => rfl) ?_) e ?_ ?_
  · intro hdead
    rw [hdead]
    simp only [Leg.dead, List.take_nil]
  · simp only [setLeg_party, setLeg_leg, setLeg_peer]
    exact (h.flow e).cut k
  · simp only [setLeg_party, setLeg_leg, setLeg_peer]
    exact (h.flow_back e).congr rfl
      (fun n hn => (h.flow_back e).acks n (List.mem_of_mem_take hn)) (h.flow_back e).due

/-- The peer of `e` takes what the leg from `e` brings. Both are alive, so it is enough that both
directions flow on. -/
theorem takes (h : Inv s) {e : Side} {p : Party} {l : Leg} {m : Msg} {rest : List Msg}
    (hrun : (s.party e.peer).running = true) (hp : p.running = (s.party e.peer).running)
    (hq : (s.leg e).queue = m :: rest) (hcut : (s.leg e).cut = true → l.cut = true)
    (hout : Flow (s.party e) l p (s.leg e.peer)) (hback : Flow p (s.leg e.peer) (s.party e) l) :
    Inv ((s.setParty e.peer p).setLeg e l) := by
  have hnotdead : ¬ s.leg e = .dead := by
    intro hdead
    rw [hdead] at hq
    cases hq
  refine h.keeps (.setLeg (.setParty e.peer _ hp fun hno => absurd (hrun.symm.trans hno) nofun) e _
    hcut fun hdead => absurd hdead hnotdead) e ?_ ?_
  · simp only [setLeg_party, setParty_party, setParty_of_peer, setLeg_leg, setLeg_peer, setParty_leg]
    exact hout
  · simp only [setLeg_party, setParty_party, setParty_of_peer, setLeg_leg, setLeg_peer, setParty_leg]
    exact hback

/-- The peer of `e` takes a data frame: it is never a gap. -/
theorem data_step (h : Inv s) {e : Side} {c : Chunk} {rest : List Msg} {err : Option Err}
    {ep : Endpoint} (hrun : (s.party e.peer).running = true)
    (hq : (s.leg e).queue = .data c :: rest)
    (hh : (s.party e.peer).ep.hear c.off c.bytes = some (err, ep)) :
    err ≠ some .replayGap ∧
      Inv ((s.setParty e.peer { s.party e.peer with ep := ep }).setLeg e
        (if err = none then { s.leg e with queue := rest } else .dead)) := by
  have hback := h.flow_back e
  have hp : (s.party e.peer).ep.perform (.hear c.off c.bytes) = some ep :=
    Option.map_eq_some_iff.mpr ⟨(err, ep), hh, rfl⟩
  have hs := hback.sending.perform_of_ne (by nofun) hp
  obtain ⟨_, hcall, hres⟩ := Endpoint.hear_spec hback.sending.sends.wf ((h.flow e).head_le hq) hh
  -- the frame moves the receiver's own count and nothing of what it sends
  have hsend : Flow { s.party e.peer with ep := ep } (s.leg e.peer) (s.party e) (s.leg e) := by
    rcases hres with ⟨_, hrl⟩ | ⟨_, hrl⟩
    all_goals exact hback.congr_sender hs (by rw [hrl]) (by rw [hrl]) (by rw [hrl]) (by rw [hrl]) hcall
  refine ⟨by rcases hres with ⟨rfl, _⟩ | ⟨rfl, _⟩ <;> nofun, ?_⟩
  refine h.takes hrun rfl hq ?_ ?_ ?_
  · intro hcut
    split
    next => exact hcut
    next => rfl
  · rcases hres with ⟨rfl, hrl⟩ | ⟨rfl, hrl⟩
    · exact (h.flow e).take_data hq hrl
    · have hrecv : ep.rl.recvOffset = (s.party e.peer).ep.rl.recvOffset := by rw [hrl]
      have hkept : Flow (s.party e) (s.leg e) { s.party e.peer with ep := ep } (s.leg e.peer) :=
        (h.flow e).congr hrecv (h.flow e).acks (h.flow e).due
      exact hkept.dead
  · refine hsend.congr rfl ?_ hback.due
    intro n hn
    split at hn
    next => exact hback.acks n (by rw [hq]; exact List.mem_cons_of_mem _ hn)
    next => cases hn

/-- The peer of `e` takes an ack: it is never a bad one. -/
theorem ack_step (h : Inv s) {e : Side} {n : Nat} {rest : List Msg} {err : Option Err}
    {rl : Reliable} (hrun : (s.party e.peer).running = true)
    (hq : (s.leg e).queue = .ack n :: rest)
    (ha : (s.party e.peer).ep.rl.ack n = some (err, rl)) :
    err = none ∧
      Inv ((s.setParty e.peer ((s.party e.peer).withRl rl)).setLeg e
        { s.leg e with queue := rest }) := by
  have hn : n ≤ (s.party e).ep.rl.recvOffset :=
    (h.flow_back e).acks n (by rw [hq]; exact List.mem_cons_self)
  obtain ⟨herr, hrecv, hsend⟩ := (h.flow_back e).take_ack hn ha
  refine ⟨herr, h.takes hrun rfl hq id ?_ ?_⟩
  · refine Flow.drop_ack ?_ hq
    exact (h.flow e).congr hrecv (h.flow e).acks (h.flow e).due
  · refine hsend.congr rfl ?_ (h.flow_back e).due
    intro m hm
    refine (h.flow_back e).acks m ?_
    rw [hq]
    exact List.mem_cons_of_mem _ hm

theorem stop_step (h : Inv s) {e : Side} (hrun : (s.party e).running = true)
    (hidle : (s.party e).ep.call = none) :
    Inv (((s.setParty e { s.party e with running := false, due := [] }).setLeg e
      { s.leg e with cut := true }).setLeg e.peer .dead) := by
  have hasked : e = .client → s.shake.asked = none := by
    rintro rfl
    cases hs : s.shake.asked with
    | none => rfl
    | some n => exact absurd (hrun.symm.trans (h.asked n hs).1) nofun
  have hanswered : s.shake.answered = none := by
    cases hs : s.shake.answered with
    | none => rfl
    | some n =>
      obtain ⟨hsome, hserver, _⟩ := h.answered n hs
      cases e with
      | client => rw [hasked rfl] at hsome; cases hsome
      | server => exact absurd (hrun.symm.trans hserver) nofun
  refine ⟨flow_both e ?_ ?_, forall_both e ?_ ?_, ?_, ?_, ?_, h.honest⟩
  · simp only [setLeg_party, setParty_party, setParty_peer, setLeg_of_peer, setLeg_leg]
    have hcut := (h.flow e).cut (s.leg e).queue.length
    rw [List.take_length] at hcut
    have hdead : Flow (s.party e) { queue := (s.leg e).queue, cut := true } (s.party e.peer) .dead :=
      hcut.congr rfl nofun hcut.due
    exact hdead.congr_sender hdead.sending rfl rfl rfl rfl rfl
  · simp only [setLeg_party, setParty_party, setParty_peer, setLeg_of_peer, setLeg_leg]
    exact (h.flow_back e).dead.congr rfl (h.flow_back e).acks nofun
  · simp only [setLeg_party, setParty_party, setLeg_of_peer, setLeg_leg]
    exact fun _ => ⟨hidle, trivial, trivial⟩
  · simp only [setLeg_party, setParty_peer, setLeg_of_peer, setLeg_leg, Side.peer_peer]
    intro hpeer
    obtain ⟨hcall, _, hdead⟩ := h.stopped e.peer hpeer
    rw [Side.peer_peer] at hdead
    exact ⟨hcall, rfl, by rw [hdead]; rfl⟩
  · intro n hn
    have hs : s.shake.asked = some n := hn
    cases e with
    | client => rw [hasked rfl] at hs; cases hs
    | server => exact h.asked n hs
  · intro n hn
    rw [show s.shake.answered = some n from hn] at hanswered
    cases hanswered
  · intro hc
    have := (h.completed hc).1
    rw [hanswered] at this
    cases this

/-- The client asks with its count, which stays what it is while its legs are stopped. -/
theorem ask_step (h : Inv s) (hrun : (s.party .client).running = false) :
    Inv { s with shake := { asked := some (s.party .client).ep.rl.recvOffsetNow } } where
  flow := h.flow
  stopped := h.stopped
  asked _ hn := ⟨hrun, (Option.some.inj hn).symm⟩
  answered := nofun
  completed := nofun
  honest := h.honest

/-- A stopped party rewinds to its peer's count: it does not refuse, it is aligned with its peer
then, and whatever the handshake has established stands. -/
theorem rewind_step (h : Inv s) {e : Side} {ok : Bool} {rl : Reliable}
    (hrun : (s.party e).running = false)
    (hr : (s.party e).ep.rl.resumeOut (s.party e.peer).ep.rl.recvOffset = some (ok, rl)) :
    ok = true ∧ Inv (s.setParty e ((s.party e).withRl rl)) ∧
      Aligned (s.setParty e ((s.party e).withRl rl)) e ∧
      rl.recvOffset = (s.party e).ep.rl.recvOffset := by
  obtain ⟨hok, hrecv, hacked, hcur, hflow⟩ := (h.flow e).resume (h.stopped e hrun).1 hr
  have hcount : ∀ x, ((s.setParty e ((s.party e).withRl rl)).party x).ep.rl.recvOffset =
      (s.party x).ep.rl.recvOffset :=
    forall_both e (by rw [setParty_party]; exact hrecv) (by rw [setParty_peer])
  have hrunning : ∀ x, ((s.setParty e ((s.party e).withRl rl)).party x).running =
      (s.party x).running :=
    forall_both e (by rw [setParty_party]; rfl) (by rw [setParty_peer])
  have haligned : Aligned (s.setParty e ((s.party e).withRl rl)) e := by
    unfold Aligned
    rw [setParty_party, setParty_peer]
    exact ⟨hacked, hcur⟩
  have hkept : ∀ x, s.Aligned x → Aligned (s.setParty e ((s.party e).withRl rl)) x := by
    refine forall_both e (fun _ => haligned) fun hal => ?_
    unfold Aligned at hal ⊢
    rwa [setParty_peer, hcount]
  refine ⟨hok, ⟨flow_both e ?_ ?_, forall_both e ?_ ?_, ?_, ?_, ?_, h.honest⟩, haligned, hrecv⟩
  · rw [setParty_party, setParty_peer]
    exact hflow
  · rw [setParty_party, setParty_peer]
    exact (h.flow_back e).congr hrecv (h.flow_back e).acks (h.flow_back e).due
  · rw [setParty_party]
    exact h.stopped e
  · rw [setParty_peer]
    exact h.stopped e.peer
  · intro n hn
    rw [hrunning, hcount]
    exact h.asked n hn
  · intro n hn
    obtain ⟨hasked, hserver, heq, hal⟩ := h.answered n hn
    rw [hrunning, hcount]
    exact ⟨hasked, hserver, heq, hkept _ hal⟩
  · exact fun hc => ⟨(h.completed hc).1, hkept _ (h.completed hc).2⟩

theorem answer_step (h : Inv s) (hrun : (s.party .server).running = false)
    (ha : s.answer = some s') : Inv s' := by
  simp only [Link.answer, Option.bind_eq_bind, Option.bind_eq_some_iff] at ha
  obtain ⟨n, hasked, ⟨ok, rl⟩, hr, hs'⟩ := ha
  obtain ⟨_, rfl⟩ := h.asked n hasked
  obtain ⟨rfl, hinv, haligned, hrecv⟩ := h.rewind_step hrun hr
  rw [if_pos rfl] at hs'
  cases hs'
  refine ⟨hinv.flow, hinv.stopped, hinv.asked, ?_, fun hc => ⟨rfl, (hinv.completed hc).2⟩,
    hinv.honest⟩
  intro n hn
  refine ⟨by rw [hasked]; rfl, ?_, ?_, haligned⟩
  · rw [setParty_party]
    exact hrun
  · rw [setParty_party]
    exact (Option.some.inj hn).symm

theorem accept_step (h : Inv s) (hrun : (s.party .client).running = false)
    (ha : s.accept = some s') : Inv s' := by
  simp only [Link.accept, Option.bind_eq_bind, Option.bind_eq_some_iff] at ha
  obtain ⟨n, hanswered, ⟨ok, rl⟩, hr, hs'⟩ := ha
  obtain ⟨_, _, rfl, _⟩ := h.answered n hanswered
  obtain ⟨rfl, hinv, haligned, _⟩ := h.rewind_step hrun hr
  rw [if_pos rfl] at hs'
  cases hs'
  exact ⟨hinv.flow, hinv.stopped, hinv.asked, hinv.answered,
    fun _ => ⟨by rw [hanswered]; rfl, haligned⟩, hinv.honest⟩

/-- A completed handshake has both sides stopped and aligned. -/
theorem completed_both (h : Inv s) (hc : s.shake.completed = true) (e : Side) :
    (s.party e).running = false ∧ s.Aligned e := by
  obtain ⟨hanswered, halClient⟩ := h.completed hc
  obtain ⟨n, hn⟩ := Option.isSome_iff_exists.mp hanswered
  obtain ⟨hasked, hserver, _, halServer⟩ := h.answered n hn
  obtain ⟨m, hm⟩ := Option.isSome_iff_exists.mp hasked
  cases e with
  | client => exact ⟨(h.asked m hm).1, halClient⟩
  | server => exact ⟨hserver, halServer⟩

theorem start_step (h : Inv s) (hc : s.shake.completed = true) :
    Inv { s with
      party := fun e => { s.party e with running := true }
      leg := fun _ => {}
      shake := {} } where
  flow e := (h.flow e).start (h.stopped e (h.completed_both hc e).1).1 (h.completed_both hc e).2.2
  stopped := nofun
  asked := nofun
  answered := nofun
  completed := nofun
  honest := h.honest

theorem init (clientMax serverMax : Int) (clientEager serverEager : Bool) :
    Inv (machine clientMax serverMax clientEager serverEager).init := by
  have hfresh : ∀ (m m' : Int) (b b' : Bool),
      Flow { ep := .new m b } {} { ep := .new m' b' } {} := by
    intro m m' b b'
    have hx := Endpoint.new_zero m b
    have hy := Endpoint.new_zero m' b'
    have hwf := Endpoint.new_wf m b
    have hack := hwf.acked_le
    have hcur := hwf.cursor_le
    rw [hx.1] at hcur
    refine ⟨.new m b, hx.2.2.2, Nat.le_trans (Nat.le_trans hack hcur) (Nat.zero_le _), ⟨_, rfl, ?_⟩,
      fun _ => ⟨_, rfl, Nat.le_trans hcur (Nat.zero_le _), ?_⟩, ?_, nofun, nofun⟩
    · exact Nat.le_of_eq (hy.2.1.trans hx.1.symm)
    · exact Nat.le_of_eq (hy.2.1.trans hx.1.symm)
    · rintro ⟨call, hcall, _⟩
      cases hcall
  refine ⟨?_, ?_, nofun, nofun, nofun, ⟨rfl, rfl, rfl⟩⟩
  · intro e
    cases e <;> exact hfresh _ _ _ _
  · intro e hrun
    cases e <;> cases hrun

/-- **Every step that overflows nothing keeps the invariant.** -/
theorem step (h : Inv s) {ev : LinkEvent} (hs : s.step ev = some s')
    (hfit : s'.overflowed = false) : Inv s' := by
  cases ev with
  | own e op =>
    simp only [Link.step] at hs
    split at hs
    next hperm =>
      obtain ⟨ep, hp, rfl⟩ := Option.map_eq_some_iff.mp hs
      exact h.own_step _ hperm hp (Bool.or_eq_false_iff.mp hfit).2
    next => cases hs
  | takeAck e =>
    simp only [Link.step] at hs
    split at hs
    next hrun =>
      cases hs
      obtain ⟨hack, hrl⟩ := (s.party e).ep.rl.takeAck_spec
      refine h.ack_read hrun (.inr hrl) ?_
      intro n hn
      rcases List.mem_append.mp hn with hold | hnew
      · exact .inl hold
      · exact .inr (hack n (Option.mem_toList.mp hnew))
    next => cases hs
  | reportRecv e =>
    simp only [Link.step] at hs
    split at hs
    next hrun =>
      cases hs
      refine h.ack_read hrun (.inl rfl) ?_
      exact fun n hn => (List.mem_append.mp hn).imp id List.mem_singleton.mp
    next => cases hs
  | sendAck e i =>
    simp only [Link.step, Option.bind_eq_bind, Option.bind_eq_some_iff] at hs
    obtain ⟨n, hn, heq⟩ := hs
    cases heq
    exact h.sendAck_step hn
  | sendData e =>
    simp only [Link.step, Option.bind_eq_bind, Option.bind_eq_some_iff] at hs
    obtain ⟨⟨res, ep⟩, hc, heq⟩ := hs
    have hinv := h.sendData_step hc
    split at heq
    next hnil =>
      cases heq
      rwa [if_pos hnil, show s.leg e = (s.setParty e { s.party e with ep := ep }).leg e from rfl,
        setLeg_eta] at hinv
    next hne =>
      cases heq
      rwa [if_neg hne] at hinv
  | deliver e =>
    simp only [Link.step] at hs
    split at hs
    next hrun =>
      simp only [Link.receive] at hs
      split at hs
      next => cases hs
      next c rest hq =>
        simp only [Option.bind_eq_bind, Option.bind_eq_some_iff] at hs
        obtain ⟨⟨err, ep⟩, hh, heq⟩ := hs
        obtain ⟨hgap, hinv⟩ := h.data_step hrun hq hh
        cases err with
        | none =>
          cases heq
          exact hinv
        | some err =>
          cases heq
          rw [if_neg nofun] at hinv
          have hno : (err == .replayGap) = false := by
            rw [beq_eq_false_iff_ne]
            exact fun heq => hgap (congrArg some heq)
          refine ⟨hinv.flow, hinv.stopped, hinv.asked, hinv.answered, hinv.completed, ?_⟩
          obtain ⟨hr, hg, hb⟩ := hinv.honest
          exact ⟨hr, Bool.or_eq_false_iff.mpr ⟨hg, hno⟩, hb⟩
      next n rest hq =>
        simp only [Option.bind_eq_bind, Option.bind_eq_some_iff] at hs
        obtain ⟨⟨err, rl⟩, ha, heq⟩ := hs
        obtain ⟨rfl, hinv⟩ := h.ack_step hrun hq ha
        cases heq
        exact hinv
    next => cases hs
  | cut e k => cases hs; exact h.cut_step e k
  | stop e =>
    simp only [Link.step] at hs
    split at hs
    next hc =>
      cases hs
      rw [Bool.and_eq_true, Option.isNone_iff_eq_none] at hc
      exact h.stop_step hc.1 hc.2
    next => cases hs
  | ask =>
    simp only [Link.step] at hs
    split at hs
    next => cases hs
    next hrun => cases hs; exact h.ask_step (Bool.not_eq_true _ ▸ hrun)
  | answer =>
    simp only [Link.step] at hs
    split at hs
    next => cases hs
    next hrun => exact h.answer_step (Bool.not_eq_true _ ▸ hrun) hs
  | accept =>
    simp only [Link.step] at hs
    split at hs
    next => cases hs
    next hrun => exact h.accept_step (Bool.not_eq_true _ ▸ hrun) hs
  | start =>
    simp only [Link.step] at hs
    split at hs
    next hc => cases hs; exact h.start_step hc
    next => cases hs

end Inv

/-- An overflow is never forgotten. -/
theorem fit_of_step {s s' : Link} {ev : LinkEvent} (hs : s.step ev = some s')
    (hfit : s'.overflowed = false) : s.overflowed = false := by
  cases ev with
  | own e op =>
    simp only [step] at hs
    split at hs
    next =>
      obtain ⟨ep, _, rfl⟩ := Option.map_eq_some_iff.mp hs
      exact (Bool.or_eq_false_iff.mp hfit).1
    next => cases hs
  | takeAck e => simp only [step] at hs; split at hs <;> cases hs; exact hfit
  | reportRecv e => simp only [step] at hs; split at hs <;> cases hs; exact hfit
  | sendAck e i =>
    obtain ⟨n, _, heq⟩ := Option.bind_eq_some_iff.mp hs
    cases heq
    exact hfit
  | sendData e =>
    obtain ⟨⟨res, ep⟩, _, heq⟩ := Option.bind_eq_some_iff.mp hs
    dsimp only at heq
    split at heq <;> cases heq <;> exact hfit
  | deliver e =>
    simp only [step] at hs
    split at hs
    next =>
      simp only [receive] at hs
      split at hs
      next => cases hs
      next =>
        obtain ⟨⟨err, ep⟩, _, heq⟩ := Option.bind_eq_some_iff.mp hs
        cases err <;> cases heq <;> exact hfit
      next =>
        obtain ⟨⟨err, rl⟩, _, heq⟩ := Option.bind_eq_some_iff.mp hs
        cases err <;> cases heq <;> exact hfit
    next => cases hs
  | cut e k => cases hs; exact hfit
  | stop e => simp only [step] at hs; split at hs <;> cases hs; exact hfit
  | ask => simp only [step] at hs; split at hs <;> cases hs; exact hfit
  | answer =>
    simp only [step] at hs
    split at hs
    next => cases hs
    next =>
      simp only [answer, Option.bind_eq_bind, Option.bind_eq_some_iff] at hs
      obtain ⟨n, _, ⟨ok, rl⟩, _, heq⟩ := hs
      dsimp only at heq
      split at heq <;> cases heq <;> exact hfit
  | accept =>
    simp only [step] at hs
    split at hs
    next => cases hs
    next =>
      simp only [accept, Option.bind_eq_bind, Option.bind_eq_some_iff] at hs
      obtain ⟨n, _, ⟨ok, rl⟩, _, heq⟩ := hs
      dsimp only at heq
      split at heq <;> cases heq <;> exact hfit
  | start => simp only [step] at hs; split at hs <;> cases hs; exact hfit

theorem Inv.reachable {clientMax serverMax : Int} {clientEager serverEager : Bool} {s : Link}
    (h : (machine clientMax serverMax clientEager serverEager).Reachable s)
    (hfit : s.overflowed = false) : Inv s := by
  refine Machine.Reach.invariant (P := fun s => s.overflowed = false → Inv s)
    (fun _ => Inv.init clientMax serverMax clientEager serverEager) ?_ h hfit
  intro s ev s' _ ih _ hs hfit'
  exact (ih (fit_of_step hs hfit')).step hs hfit'

/-- **No loss, and always resumable.** In every run of two honest endpoints in which no replay
buffer has outgrown its bound:

* each side's stream is what is acknowledged, then what is retained, then what is still in `out`,
  whenever its `nextOut` holds no unnumbered bytes, and the peer's count lies between what is
  acknowledged and what was sent;
* no resume was ever refused, no gap and no bad ack ever reported;
* right after a completed handshake each side has released exactly what its peer has and its
  cursor stands there. -/
theorem honest_run_resumable {clientMax serverMax : Int} {clientEager serverEager : Bool}
    {s : Link} (h : (machine clientMax serverMax clientEager serverEager).Reachable s)
    (hfit : s.overflowed = false) :
    (∀ e, (∀ bs, (s.party e).ep.call ≠ some (.taken bs)) →
      (s.party e).written = (s.party e).written.take (s.party e).ep.rl.ackedOffset ++
        (s.party e).ep.rl.replay ++ (s.party e).ep.out.buf) ∧
    (∀ e, (s.party e).ep.rl.ackedOffset ≤ (s.party e.peer).ep.rl.recvOffset ∧
      (s.party e.peer).ep.rl.recvOffset ≤ (s.party e).ep.rl.sendOffset) ∧
    s.refused = false ∧ s.gap = false ∧ s.badAck = false ∧
    (s.shake.completed = true → ∀ e,
      (s.party e).ep.rl.ackedOffset = (s.party e.peer).ep.rl.recvOffset ∧
      (s.party e).ep.rl.sentCursor = (s.party e.peer).ep.rl.recvOffset) := by
  have hinv := Inv.reachable h hfit
  refine ⟨?_, fun e => ⟨(hinv.flow e).acked, (hinv.flow e).recv_le⟩, hinv.honest.1, hinv.honest.2.1,
    hinv.honest.2.2, fun hc e => (hinv.completed_both hc e).2⟩
  intro e htaken
  have hhand : (s.party e).ep.hand = [] := by
    unfold Endpoint.hand
    cases hcall : (s.party e).ep.call with
    | none => rfl
    | some call =>
      cases call with
      | taken bs => exact absurd hcall (htaken bs)
      | _ => rfl
  have hsends := (hinv.flow e).sending.sends
  rw [hhand] at hsends
  exact hsends.conserves (hinv.flow e).unbroken

/-- The first chunk is lost with its leg, an answer to the resume request is lost as well, and
the second handshake completes. -/
def lostChunkRun : List LinkEvent :=
  [.own .client (.write [1, 2, 3]), .own .client (.nextOut 2), .own .client (.advance false),
   .own .client (.advance false), .sendData .client, .cut .client 0, .stop .client, .stop .server,
   .ask, .answer, .ask, .answer, .accept]

/-- After `lostChunkRun` the client has the lost chunk retained and sends it again first. -/
theorem lostChunkRun_resumes :
    ((machine 8 8 true true).final lostChunkRun).shake.completed = true ∧
      (((machine 8 8 true true).final lostChunkRun).party .client).ep.rl.replay = [1, 2] ∧
      ((machine 8 8 true true).final lostChunkRun).refused = false ∧
      (((machine 8 8 true true).final lostChunkRun).party .client).ep.rl.sentCursor =
        (((machine 8 8 true true).final lostChunkRun).party .server).ep.rl.recvOffset := by
  obtain ⟨_, _, hrefused, _, _, haligned⟩ :=
    honest_run_resumable (Machine.reachable_final (machine 8 8 true true) lostChunkRun) (by decide)
  exact ⟨by decide, by decide, hrefused, (haligned (by decide) .client).2⟩

end Link

end Pollmux
