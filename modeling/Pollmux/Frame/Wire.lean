import Pollmux.Frame.Truncation

/-!
# A body on its way

The body of a request or of a response that is written frame by frame while the other side reads
it. The reader is given whole frames as they arrive and waits for the rest of one that has not
arrived. A connection that breaks leaves it a beginning of the bytes, cut at any byte. **A broken
connection is an error of its own**: unlike the end of a body it is never `io.EOF`, which is what
`net/http` promises for a body with a length or with chunks.

`Wire.Holds` says which frames the reader will still get. What it is good for are `next_of_holds`
and `next_of_empty`: the next frame, and what happens when there is none.
-/

namespace Pollmux

/-- The unnumbered bytes that a frame carries. -/
def Written.data (w : Written) : Bytes := if w.toFrame.typ = frameData then w.toFrame.payload else []

/-- A frame of a stream that goes on. -/
def Written.Running (w : Written) : Prop :=
  w.toFrame.typ = frameData ∨ w.toFrame.typ = frameHeartbeat

/-- An unnumbered frame as short as a buffer that the reader's bound leaves room for fits. -/
theorem Written.fits_frame {typ : FrameType} {payload : Bytes} {bufSize : Nat}
    (hseq : typ ≠ frameSeqData) (hack : typ ≠ frameAck) (hlen : payload.length ≤ bufSize)
    (hbuf : bufSize < 2 ^ 32) : (Written.frame typ payload).Fits bufSize := by
  refine ⟨Nat.lt_of_le_of_lt hlen hbuf, .inr ?_⟩
  show (payload.length : Int) ≤ payloadBound bufSize typ
  rw [payloadBound, if_neg hseq, if_neg hack]
  exact_mod_cast hlen

/-- The unnumbered bytes of a list of frames. -/
def payloads (ws : List Written) : Bytes := ws.flatMap Written.data

theorem payloads_cons (w : Written) (ws : List Written) : payloads (w :: ws) = w.data ++ payloads ws :=
  List.flatMap_cons ..

theorem payloads_append (vs ws : List Written) : payloads (vs ++ ws) = payloads vs ++ payloads ws :=
  List.flatMap_append ..

/-- One more frame at the end. -/
theorem payloads_concat (ws : List Written) (w : Written) :
    payloads (ws ++ [w]) = payloads ws ++ w.data := by
  rw [payloads_append, payloads_cons]
  exact congrArg _ (List.append_nil _)

theorem running_concat {ws : List Written} {w : Written} (h : ∀ u ∈ ws, u.Running) (hw : w.Running) :
    ∀ u ∈ ws ++ [w], u.Running := by
  intro u hu
  rcases List.mem_append.mp hu with hold | hnew
  · exact h u hold
  · rw [List.mem_singleton.mp hnew]
    exact hw

theorem payloads_mono {vs ws : List Written} (h : vs <+: ws) : payloads vs <+: payloads ws := by
  obtain ⟨us, rfl⟩ := h
  rw [payloads_append]
  exact List.prefix_append _ _

/-- A body: the bytes that were written and not read yet, whether the writer has finished it and
whether the connection has broken. -/
structure Wire where
  bytes : Bytes := []
  ended : Bool := false
  cut : Bool := false
  deriving DecidableEq, Repr

/-- What reading the next frame of a body fails with: an error of `next`, or that of the broken
connection. -/
inductive WireErr
  | frame (e : FrameErr)
  | broken
  deriving DecidableEq, Repr

namespace Wire

/-- The writer writes; on a broken connection nothing gets through. -/
def write (w : Wire) (p : Bytes) : Wire := if w.cut then w else { w with bytes := w.bytes ++ p }

/-- The writer finishes the body. -/
def finish (w : Wire) : Wire := if w.cut then w else { w with ended := true }

/-- The connection breaks and `k` of the bytes under way arrive. -/
def sever (w : Wire) (k : Nat) : Wire := { w with bytes := w.bytes.take k, cut := true }

/-- `frameReader.next` on the body; `none` while it waits for more of it. -/
def next (maxPayload : Int) (w : Wire) : Option (Except WireErr Frame × Wire) :=
  match Pollmux.next maxPayload w.bytes with
  | .ok (f, rest) => some (.ok f, { w with bytes := rest })
  | .error (.io e) =>
    if w.cut then some (.error .broken, w)
    else if w.ended then some (.error (.frame (.io e)), w)
    else none
  | .error e => some (.error (.frame e), w)

/-- **The frames that the reader will still get.** All that were written, or, on a broken
connection, those that were wholly under way. -/
inductive Holds (maxPayload : Int) (w : Wire) (ws : List Written) : Prop
  | intact (hcut : w.cut = false) (hfit : ∀ v ∈ ws, v.Fits maxPayload) (hbytes : w.bytes = encode ws)
  | severed (hcut : w.cut = true) {vs : List Written} {k : Nat} (hfit : ∀ v ∈ vs, v.Fits maxPayload)
    (hbytes : w.bytes = (encode vs).take k) (hwhole : whole vs k = ws)

theorem whole_prefix (vs : List Written) (k : Nat) : whole vs k <+: vs := by
  induction vs generalizing k with
  | nil => exact List.nil_prefix
  | cons v vs ih =>
    rw [whole]
    split_ifs
    · exact (List.prefix_cons_inj v).mpr (ih _)
    · exact List.nil_prefix

theorem whole_of_long {vs : List Written} {k : Nat} (hk : (encode vs).length ≤ k) :
    whole vs k = vs := by
  induction vs generalizing k with
  | nil => rfl
  | cons v vs ih =>
    rw [encode_cons, List.length_append] at hk
    rw [whole, if_pos (by omega), ih (by omega)]

/-- A body that is cut short loses its last frame. -/
theorem whole_of_short {vs : List Written} {v : Written} {k : Nat}
    (hk : k < (encode (vs ++ [v])).length) : whole (vs ++ [v]) k <+: vs := by
  induction vs generalizing k with
  | nil =>
    rw [List.nil_append, encode_cons, encode, List.flatMap_nil, List.append_nil] at hk
    rw [List.nil_append, whole, if_neg (by omega)]
  | cons u us ih =>
    rw [List.cons_append, encode_cons, List.length_append] at hk
    rw [List.cons_append, whole]
    split_ifs
    · exact (List.prefix_cons_inj u).mpr (ih (by omega))
    · exact List.nil_prefix

theorem encode_append (vs ws : List Written) : encode (vs ++ ws) = encode vs ++ encode ws :=
  List.flatMap_append ..

theorem encode_singleton (v : Written) : encode [v] = v.bytes := by
  rw [encode_cons]
  exact List.append_nil _

/-- A new body holds nothing. -/
theorem Holds.empty (maxPayload : Int) : Holds maxPayload {} [] :=
  .intact rfl (by simp) rfl

/-- The writer adds a frame. -/
theorem Holds.write {maxPayload : Int} {w : Wire} {ws : List Written} (h : w.Holds maxPayload ws)
    {v : Written} (hv : v.Fits maxPayload) :
    (w.write v.bytes).Holds maxPayload (if w.cut then ws else ws ++ [v]) := by
  cases h with
  | intact hcut hfit hbytes =>
    simp only [Wire.write, hcut, Bool.false_eq_true, if_false]
    refine .intact rfl (fun u hu => ?_) ?_
    · rcases List.mem_append.mp hu with hold | hnew
      · exact hfit u hold
      · rw [List.mem_singleton.mp hnew]
        exact hv
    · rw [hbytes, encode_append, encode_singleton]
  | severed hcut hfit hbytes hwhole =>
    simp only [Wire.write, hcut, if_true]
    exact .severed hcut hfit hbytes hwhole

/-- The writer adds a frame to a body whose connection holds. -/
theorem Holds.add {maxPayload : Int} {w : Wire} {ws : List Written} (h : w.Holds maxPayload ws)
    (hcut : w.cut = false) {v : Written} (hv : v.Fits maxPayload) :
    (w.write v.bytes).Holds maxPayload (ws ++ [v]) ∧ (w.write v.bytes).cut = false ∧
      (w.write v.bytes).ended = w.ended := by
  have hwrite := h.write hv
  rw [hcut] at hwrite
  have hwire : w.write v.bytes = { w with bytes := w.bytes ++ v.bytes } := by
    simp [Wire.write, hcut]
  exact ⟨hwrite, by rw [hwire]; exact hcut, by rw [hwire]⟩

/-- Finishing a body does not change what it holds. -/
theorem Holds.finish {maxPayload : Int} {w : Wire} {ws : List Written} (h : w.Holds maxPayload ws) :
    w.finish.Holds maxPayload ws := by
  cases h with
  | intact hcut hfit hbytes =>
    simp only [Wire.finish, hcut, Bool.false_eq_true, if_false]
    exact .intact rfl hfit hbytes
  | severed hcut hfit hbytes hwhole =>
    simp only [Wire.finish, hcut, if_true]
    exact .severed hcut hfit hbytes hwhole

/-- The last frame of a body, and its end. -/
theorem Holds.close {maxPayload : Int} {w : Wire} {ws : List Written} (h : w.Holds maxPayload ws)
    (hcut : w.cut = false) {v : Written} (hv : v.Fits maxPayload) :
    (w.write v.bytes).finish.Holds maxPayload (ws ++ [v]) ∧
      (w.write v.bytes).finish.cut = false ∧ (w.write v.bytes).finish.ended = true := by
  obtain ⟨hadd, hopen, -⟩ := h.add hcut hv
  have hfinish : (w.write v.bytes).finish = { w.write v.bytes with ended := true } := by
    simp [Wire.finish, hopen]
  exact ⟨hadd.finish, by rw [hfinish]; exact hopen, by rw [hfinish]⟩

/-- A connection that breaks leaves a beginning of the frames. -/
theorem Holds.sever {maxPayload : Int} {w : Wire} {ws : List Written} (h : w.Holds maxPayload ws)
    (hcut : w.cut = false) (k : Nat) : (w.sever k).Holds maxPayload (whole ws k) := by
  cases h with
  | intact _ hfit hbytes => exact .severed rfl hfit (by rw [Wire.sever, hbytes]) rfl
  | severed hcut' => exact absurd (hcut.symm.trans hcut') (by simp)

/-- What is under way on a connection that holds. -/
theorem Holds.bytes_eq {maxPayload : Int} {w : Wire} {ws : List Written} (h : w.Holds maxPayload ws)
    (hcut : w.cut = false) : w.bytes = encode ws := by
  cases h with
  | intact _ _ hbytes => exact hbytes
  | severed hcut' => exact absurd (hcut.symm.trans hcut') (by simp)

/-- **The reader gets the next frame.** -/
theorem next_of_holds {maxPayload : Int} {w : Wire} {v : Written} {ws : List Written}
    (h : w.Holds maxPayload (v :: ws)) :
    ∃ w', w.next maxPayload = some (.ok v.toFrame, w') ∧ w'.Holds maxPayload ws ∧ w'.cut = w.cut ∧
      w'.ended = w.ended := by
  cases h with
  | intact hcut hfit hbytes =>
    have hnext : Pollmux.next maxPayload w.bytes = .ok (v.toFrame, encode ws) := by
      rw [hbytes, encode_cons]
      exact next_written (hfit v List.mem_cons_self) _
    refine ⟨{ w with bytes := encode ws }, by rw [next, hnext], ?_, rfl, rfl⟩
    exact .intact hcut (fun u hu => hfit u (List.mem_cons_of_mem _ hu)) rfl
  | @severed hcut vs k hfit hbytes hwhole =>
    cases vs with
    | nil => cases hwhole
    | cons u us =>
      rw [whole] at hwhole
      split_ifs at hwhole with hle
      obtain ⟨rfl, rfl⟩ := List.cons.inj hwhole
      have hnext : Pollmux.next maxPayload w.bytes =
          .ok (u.toFrame, (encode us).take (k - u.bytes.length)) := by
        rw [hbytes, encode_cons, List.take_append, List.take_of_length_le hle]
        exact next_written (hfit u List.mem_cons_self) _
      refine ⟨{ w with bytes := (encode us).take (k - u.bytes.length) }, by rw [next, hnext], ?_, rfl,
        rfl⟩
      exact .severed hcut (fun v hv => hfit v (List.mem_cons_of_mem _ hv)) rfl rfl

/-- Reading a frame leaves the end of the body where it is. -/
theorem next_ended {maxPayload : Int} {w w' : Wire} {r : Except WireErr Frame}
    (h : w.next maxPayload = some (r, w')) : w'.ended = w.ended := by
  unfold next at h
  split at h
  · cases h
    rfl
  · split_ifs at h <;> cases h <;> rfl
  · cases h
    rfl

/-- **Without one it waits**, unless the connection has broken or the body has ended; the end of a
body is `io.EOF`. -/
theorem next_of_empty {maxPayload : Int} {w : Wire} (h : w.Holds maxPayload []) :
    w.next maxPayload =
      if w.cut then some (.error .broken, w)
      else if w.ended then some (.error (.frame (.io .eof)), w)
      else none := by
  cases h with
  | intact hcut hfit hbytes =>
    have hnext : Pollmux.next maxPayload w.bytes = .error (.io .eof) := by
      rw [hbytes, encode, List.flatMap_nil, Pollmux.next, readFull_nil (by decide)]
    rw [next, hnext]
  | @severed hcut vs k hfit hbytes hwhole =>
    have hnext : ∃ e, Pollmux.next maxPayload w.bytes = .error (.io e) := by
      cases vs with
      | nil => exact ⟨.eof, by rw [hbytes, encode, List.flatMap_nil, List.take_nil, Pollmux.next,
          readFull_nil (by decide)]⟩
      | cons u us =>
        rw [whole] at hwhole
        split_ifs at hwhole with hle
        have hlt : k < u.bytes.length := Nat.lt_of_not_le hle
        rw [hbytes, encode_cons, List.take_append, Nat.sub_eq_zero_of_le (Nat.le_of_lt hlt),
          List.take_zero, List.append_nil, next_cut (hfit u List.mem_cons_self) hlt]
        exact ⟨_, rfl⟩
    obtain ⟨e, hnext⟩ := hnext
    rw [next, hnext, hcut]
    rfl

end Wire

end Pollmux
