import Pollmux.Kit.Slice
import Pollmux.Reliable

/-!
# The layer over the stream its application wrote

`Sends w r hand out` relates the sending side of a layer to the whole stream `w`
that the application wrote into `out`: the first `sendOffset` bytes are numbered,
the rest are the bytes a `nextOut` call holds followed by those still in the
pipe, and an unbroken layer retains the slice of `w` from `ackedOffset` on.
`Holds w r got` is the receiving side: what was written to `in` is the first
`recvOffset` bytes of the peer's stream.

Every operation but numbering acts on the sending side in one way, `Trims`: it
moves no numbered byte, and a layer that is still unbroken afterwards has only
dropped a prefix of what it retained. So one lemma (`Sends.trims`) covers acks,
resumes, rewinds, breaks and everything the receiving side does.
-/

namespace Pollmux

open Kit

/-- The control operations of a layer, with whatever offsets the peer supplies. -/
inductive Control
  | ack (n : Nat)
  | resumeOut (peerRecv : Nat)
  | rewindToAcked
  | markBroken
  | takeAck
  | resetAck
  deriving DecidableEq, Repr

namespace Reliable

/-- One control operation, its answer dropped. -/
def control (r : Reliable) : Control → Option Reliable
  | .ack n => (r.ack n).map (·.2)
  | .resumeOut n => (r.resumeOut n).map (·.2)
  | .rewindToAcked => some r.rewindToAcked
  | .markBroken => some r.markBroken
  | .takeAck => some r.takeAck.2
  | .resetAck => some r.resetAck

/-- **What an operation that numbers nothing may do to the sending side.** -/
structure Trims (r r' : Reliable) : Prop where
  wf : r'.Wf
  sendOffset : r'.sendOffset = r.sendOffset
  kept : r'.broken = false → r.broken = false ∧ r.ackedOffset ≤ r'.ackedOffset ∧
    r'.replay = r.replay.drop (r'.ackedOffset - r.ackedOffset)

/-- An operation that leaves the retained bytes and their numbers alone trims nothing. -/
theorem Trims.same {r r' : Reliable} (h : r'.Wf) (hs : r'.sendOffset = r.sendOffset)
    (ha : r'.ackedOffset = r.ackedOffset) (hb : r'.broken = r.broken)
    (hr : r'.replay = r.replay) : r.Trims r' :=
  ⟨h, hs, fun hb' => ⟨hb ▸ hb', Nat.le_of_eq ha.symm, by rw [hr, ha, Nat.sub_self, List.drop_zero]⟩⟩

theorem Trims.refl {r : Reliable} (h : r.Wf) : r.Trims r := .same h rfl rfl rfl rfl

theorem markBroken_trims {r : Reliable} (h : r.Wf) : r.Trims r.markBroken :=
  ⟨h.markBroken, rfl, nofun⟩

theorem ack_trims {r r' : Reliable} {n : Nat} {e : Option Err} (h : r.Wf)
    (ha : r.ack n = some (e, r')) : r.Trims r' ∧ r'.recvOffset = r.recvOffset := by
  rcases ack_spec h n with ⟨_, heq⟩ | ⟨_, _, heq⟩ | ⟨hb, hlo, hhi, heq⟩
  · rw [heq] at ha
    cases ha
    exact ⟨markBroken_trims h, rfl⟩
  · rw [heq] at ha
    cases ha
    exact ⟨.refl h, rfl⟩
  · rw [heq] at ha
    cases ha
    exact ⟨⟨h.release hb (Nat.le_of_lt hlo) hhi, rfl, fun _ => ⟨hb, Nat.le_of_lt hlo, rfl⟩⟩, rfl⟩

theorem resumeOut_trims {r r' : Reliable} {n : Nat} {ok : Bool} (h : r.Wf)
    (ha : r.resumeOut n = some (ok, r')) : r.Trims r' ∧ r'.recvOffset = r.recvOffset := by
  rcases resumeOut_spec h n with ⟨_, heq⟩ | ⟨hb, hlo, hhi, heq⟩
  · rw [heq] at ha
    cases ha
    exact ⟨.refl h, rfl⟩
  · rw [heq] at ha
    cases ha
    exact ⟨⟨h.rewind hb hlo hhi, rfl, fun _ => ⟨hb, hlo, rfl⟩⟩, rfl⟩

theorem rewindToAcked_trims {r : Reliable} (h : r.Wf) :
    r.Trims r.rewindToAcked ∧ r.rewindToAcked.recvOffset = r.recvOffset := by
  have hwf := h.rewindToAcked
  unfold rewindToAcked at hwf ⊢
  split
  next => exact ⟨.refl h, rfl⟩
  next hb =>
    rw [if_neg hb] at hwf
    exact ⟨.same hwf rfl rfl rfl rfl, rfl⟩

theorem takeAck_trims {r : Reliable} (h : r.Wf) :
    r.Trims r.takeAck.2 ∧ r.takeAck.2.recvOffset = r.recvOffset := by
  have hwf := h.takeAck
  unfold takeAck at hwf ⊢
  split
  next => exact ⟨.refl h, rfl⟩
  next hne =>
    rw [if_neg hne] at hwf
    exact ⟨.same hwf rfl rfl rfl rfl, rfl⟩

/-- Every control operation trims and leaves the receiving side's count alone. -/
theorem control_trims {r r' : Reliable} {c : Control} (h : r.Wf) (hc : r.control c = some r') :
    r.Trims r' ∧ r'.recvOffset = r.recvOffset := by
  cases c with
  | ack n =>
    obtain ⟨⟨e, r''⟩, ha, rfl⟩ := Option.map_eq_some_iff.mp hc
    exact ack_trims h ha
  | resumeOut n =>
    obtain ⟨⟨ok, r''⟩, ha, rfl⟩ := Option.map_eq_some_iff.mp hc
    exact resumeOut_trims h ha
  | rewindToAcked => cases hc; exact rewindToAcked_trims h
  | markBroken => cases hc; exact ⟨markBroken_trims h, rfl⟩
  | takeAck => cases hc; exact takeAck_trims h
  | resetAck => cases hc; exact ⟨.same h.resetAck rfl rfl rfl rfl, rfl⟩

/-- Under the representation invariant `ack` does not fault. -/
theorem ack_total {r : Reliable} (h : r.Wf) (n : Nat) : ∃ err r', r.ack n = some (err, r') := by
  rcases ack_spec h n with ⟨_, heq⟩ | ⟨_, _, heq⟩ | ⟨_, _, _, heq⟩
  all_goals exact ⟨_, _, heq⟩

/-- Nor does any other control operation. -/
theorem control_total {r : Reliable} (h : r.Wf) (c : Control) : ∃ r', r.control c = some r' := by
  cases c with
  | ack n =>
    obtain ⟨err, r', heq⟩ := ack_total h n
    exact ⟨r', by rw [control, heq]; rfl⟩
  | resumeOut n =>
    rcases resumeOut_spec h n with ⟨_, heq⟩ | ⟨_, _, _, heq⟩
    all_goals exact ⟨_, by rw [control, heq]; rfl⟩
  | rewindToAcked => exact ⟨_, rfl⟩
  | markBroken => exact ⟨_, rfl⟩
  | takeAck => exact ⟨_, rfl⟩
  | resetAck => exact ⟨_, rfl⟩

/-- Whatever the peer sends, receiving it only trims the sending side. -/
theorem recvIn_trims {r : Reliable} {inp : BufferedPipe} {off : Nat} {p : Bytes} {res : Received}
    (h : r.Wf) (hr : r.recvIn inp off p = some res) : r.Trims res.rl := by
  rcases recvIn_spec h inp off p with ⟨_, heq⟩ | ⟨_, heq⟩ | ⟨_, _, _, heq⟩ | ⟨hlo, hhi, _, heq⟩
  · rw [heq] at hr
    cases hr
    exact markBroken_trims h
  · rw [heq] at hr
    cases hr
    exact .refl h
  · rw [heq] at hr
    cases hr
    exact .refl h
  · rw [heq] at hr
    cases hr
    have hla := h.lastAck_le
    refine .same ⟨h.acked_le, h.cursor_le, h.replay_end, h.replay_le, h.replay_nil, ?_⟩ rfl rfl rfl rfl
    show r.lastAck ≤ off + p.length
    omega

end Reliable

/-! ## The sending side -/

/-- **The sending side of a layer over the stream `w` that was written into its `out`.** -/
structure Sends (w : Bytes) (r : Reliable) (hand : Bytes) (out : BufferedPipe) : Prop where
  wf : r.Wf
  sent_le : r.sendOffset ≤ w.length
  rest : w.drop r.sendOffset = hand ++ out.buf
  retained : r.broken = false → SliceAt w r.ackedOffset r.replay

namespace Sends

variable {w hand : Bytes} {r r' : Reliable} {out out' : BufferedPipe}

/-- A layer that has sent nothing, over an empty stream. -/
theorem fresh (h : r.Wf) (hs : r.sendOffset = 0) (hp : r.replay = []) (hb : out.buf = []) :
    Sends [] r [] out where
  wf := h
  sent_le := by rw [hs]; exact Nat.zero_le _
  rest := by rw [List.drop_nil, hb, List.append_nil]
  retained := by
    intro _
    have hle : r.ackedOffset ≤ r.sendOffset := Nat.le_trans h.acked_le h.cursor_le
    rw [hp]
    exact .nil (by rw [List.length_nil]; omega)

/-- The application writes. -/
theorem push (h : Sends w r hand out) (data : Bytes) :
    Sends (w ++ data) r hand (out.push data) where
  wf := h.wf
  sent_le := by
    have := h.sent_le
    rw [List.length_append]
    omega
  rest := by
    rw [List.drop_append_of_le_length h.sent_le, h.rest, BufferedPipe.push_buf, List.append_assoc]
  retained := fun hb => (h.retained hb).append_stream data

/-- Closing or interrupting `out` moves no byte. -/
theorem congr_out (h : Sends w r hand out) (hbuf : out'.buf = out.buf) : Sends w r hand out' :=
  ⟨h.wf, h.sent_le, by rw [h.rest, hbuf], h.retained⟩

/-- Any operation that numbers nothing. -/
theorem trims (h : Sends w r hand out) (ht : r.Trims r') : Sends w r' hand out where
  wf := ht.wf
  sent_le := by rw [ht.sendOffset]; exact h.sent_le
  rest := by rw [ht.sendOffset]; exact h.rest
  retained := by
    intro hb'
    obtain ⟨hb, hlo, hreplay⟩ := ht.kept hb'
    have hend := h.wf.replay_end hb
    have hend' := ht.wf.replay_end hb'
    have hsend := ht.sendOffset
    rw [hreplay] at hend' ⊢
    rw [List.length_drop] at hend'
    have hcut := (h.retained hb).drop (n := r'.ackedOffset - r.ackedOffset) (by omega)
    rwa [Nat.add_sub_cancel' hlo] at hcut

/-- Numbering the bytes in hand, whatever else happened since they were taken. -/
theorem number (h : Sends w r hand out) : Sends w (r.number hand) [] out where
  wf := h.wf.number hand
  sent_le := by
    have hlen := congrArg List.length h.rest
    have hle := h.sent_le
    rw [List.length_drop, List.length_append] at hlen
    rw [(r.number_offsets hand).1]
    omega
  rest := by
    rw [(r.number_offsets hand).1, ← List.drop_drop, h.rest, List.drop_left, List.nil_append]
  retained := by
    intro hb'
    obtain ⟨hb, _, hacked, hreplay⟩ := Reliable.number_unbroken hb'
    rw [hacked, hreplay]
    refine (h.retained hb).glue ?_
    rw [h.wf.replay_end hb]
    exact ⟨h.sent_le, by rw [h.rest]; exact List.prefix_append _ _⟩

/-- The bytes in hand are the slice of the stream just past what is numbered. -/
theorem hand_slice (h : Sends w r hand out) : SliceAt w r.sendOffset hand :=
  ⟨h.sent_le, by rw [h.rest]; exact List.prefix_append _ _⟩

/-- What the layer has numbered and not sent on its transport is a slice of the stream. -/
theorem pending_slice (h : Sends w r hand out) (hb : r.broken = false) :
    SliceAt w r.sentCursor (r.replay.drop (r.sentCursor - r.ackedOffset)) := by
  have hack := h.wf.acked_le
  have hcur := h.wf.cursor_le
  have hend := h.wf.replay_end hb
  have hcut := (h.retained hb).drop (n := r.sentCursor - r.ackedOffset) (by omega)
  rwa [Nat.add_sub_cancel' hack] at hcut

/-- Starting a `nextOut` call keeps the relation, and what it returns at once is an honest
chunk. -/
theorem start {dst : Nat} {call : NextOut} (h : Sends w r [] out)
    (hs : r.nextOutStart dst = some (call, r')) :
    Sends w r' call.inHand out ∧ r'.recvOffset = r.recvOffset ∧
      ∀ res, call = .returned res → SliceAt w res.off res.bytes := by
  rcases Reliable.nextOutStart_spec h.wf dst with ⟨hb, hlt, heq⟩ | ⟨_, heq⟩
  · rw [heq] at hs
    cases hs
    refine ⟨⟨h.wf.replays hb dst, h.sent_le, h.rest, h.retained⟩, rfl, ?_⟩
    intro res hres
    cases hres
    exact (h.pending_slice hb).take dst
  · rw [heq] at hs
    cases hs
    exact ⟨h, rfl, nofun⟩

/-- Moving a `nextOut` call across one region keeps the relation, and what it returns is an
honest chunk. -/
theorem advance {fired : Bool} {call call' : NextOut} (h : Sends w r call.inHand out)
    (ha : Reliable.advance fired call r out = some (call', r', out')) :
    Sends w r' call'.inHand out' ∧ r'.recvOffset = r.recvOffset ∧
      ∀ res, call' = .returned res → SliceAt w res.off res.bytes := by
  rcases Reliable.advance_cases ha with ⟨rfl, hnone, hbytes, _, hres⟩ | ⟨bs, rfl, rfl, rfl, rfl⟩
  · refine ⟨⟨h.wf, h.sent_le, ?_, h.retained⟩, rfl, ?_⟩
    · rw [h.rest, hnone, List.nil_append, hbytes]
    · intro res hr
      obtain ⟨hoff, hempty⟩ := hres res hr
      rw [hoff, hempty]
      exact .nil (Nat.zero_le _)
  · refine ⟨h.number, (r.number_offsets bs).2.2.1, ?_⟩
    intro res hr
    cases hr
    exact h.hand_slice

/-- **Conservation.** With no bytes in hand, an unbroken layer splits the stream into what is
acknowledged, what it retains and what is still in `out`. -/
theorem conserves (h : Sends w r [] out) (hb : r.broken = false) :
    w = w.take r.ackedOffset ++ r.replay ++ out.buf := by
  have hext := (h.retained hb).extend (Nat.le_refl _) (Nat.le_add_right _ _)
  rw [Nat.sub_self, List.drop_zero, h.wf.replay_end hb] at hext
  rw [hext, show out.buf = w.drop r.sendOffset from by rw [h.rest, List.nil_append],
    List.take_append_drop]

end Sends

/-! ## The receiving side -/

/-- **The receiving side of a layer**: what was written to its `in` is the first `recvOffset`
bytes of the peer's stream. -/
structure Holds (w : Bytes) (r : Reliable) (got : Bytes) : Prop where
  wf : r.Wf
  recv_le : r.recvOffset ≤ w.length
  got_eq : got = w.take r.recvOffset

namespace Holds

variable {w got : Bytes} {r r' : Reliable}

theorem fresh (h : r.Wf) (hr : r.recvOffset = 0) : Holds w r [] :=
  ⟨h, by rw [hr]; exact Nat.zero_le _, by rw [hr, List.take_zero]⟩

/-- The peer's stream grows. -/
theorem append_stream (h : Holds w r got) (t : Bytes) : Holds (w ++ t) r got :=
  ⟨h.wf, by rw [List.length_append]; exact Nat.le_trans h.recv_le (Nat.le_add_right _ _),
    by rw [List.take_append_of_le_length h.recv_le]; exact h.got_eq⟩

/-- An operation that leaves `recvOffset` alone. -/
theorem congr (h : Holds w r got) (hwf : r'.Wf) (hr : r'.recvOffset = r.recvOffset) :
    Holds w r' got :=
  ⟨hwf, by rw [hr]; exact h.recv_le, by rw [hr]; exact h.got_eq⟩

/-- What is held is a prefix of the stream, as long as `recvOffset` says. -/
theorem prefix_length (h : Holds w r got) : got <+: w ∧ r.recvOffset = got.length := by
  rw [h.got_eq, List.length_take_of_le h.recv_le]
  exact ⟨List.take_prefix _ _, rfl⟩

/-- **Receiving an honest chunk** writes to `in` exactly the bytes the stream has next, none if
the chunk is old, refused or past the end of what is held. -/
theorem recvIn (h : Holds w r got) {inp : BufferedPipe} {off : Nat} {p : Bytes} {res : Received}
    (hp : SliceAt w off p) (hr : r.recvIn inp off p = some res) :
    ∃ fresh, res.inp.buf = inp.buf ++ fresh ∧ Holds w res.rl (got ++ fresh) := by
  have ht := Reliable.recvIn_trims h.wf hr
  rcases Reliable.recvIn_spec h.wf inp off p with
    ⟨_, heq⟩ | ⟨_, heq⟩ | ⟨_, _, _, heq⟩ | ⟨hlo, hhi, _, heq⟩
  · rw [heq] at hr
    cases hr
    exact ⟨[], (List.append_nil _).symm, by rw [List.append_nil]; exact h.congr h.wf.markBroken rfl⟩
  · rw [heq] at hr
    cases hr
    exact ⟨[], (List.append_nil _).symm, by rw [List.append_nil]; exact h⟩
  · rw [heq] at hr
    cases hr
    exact ⟨[], (List.append_nil _).symm, by rw [List.append_nil]; exact h⟩
  · rw [heq] at hr
    cases hr
    refine ⟨p.drop (r.recvOffset - off), BufferedPipe.push_buf _ _, ht.wf, hp.end_le, ?_⟩
    rw [h.got_eq]
    exact hp.extend hlo (Nat.le_of_lt hhi)

end Holds

end Pollmux
