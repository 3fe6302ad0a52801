import Pollmux.Frame.Readers

/-!
# What a reader makes of a cut body

A body is the concatenation of what was written, cut to its first `k` bytes.
`readLoop_cut` says what every reader makes of it: it sees the frames that are
whole and then the error `cutErr`. That error is `io.EOF` at a frame boundary and
at one other place, the seam between a non-empty frame's header and its payload,
where the second `io.ReadFull` of `next` reads zero bytes. `cutFaithful_iff` is
the consequence: a cut body is read as it should be exactly when the cut misses
every seam.
-/

namespace Pollmux

open Kit

/-- The bytes of a list of frames. -/
def encode (ws : List Written) : Bytes := ws.flatMap Written.bytes

/-- The frames wholly within the first `k` bytes. -/
def whole : List Written → Nat → List Written
  | [], _ => []
  | w :: ws, k => if w.bytes.length ≤ k then w :: whole ws (k - w.bytes.length) else []

/-- The error `next` ends with on the first `k` bytes. -/
def cutErr : List Written → Nat → Err
  | [], _ => .eof
  | w :: ws, k =>
    if w.bytes.length ≤ k then cutErr ws (k - w.bytes.length)
    else if k = 0 ∨ k = frameHeaderLen then .eof
    else .unexpectedEOF

/-- The first `k` bytes are some of the frames and nothing else. -/
def OnBoundary (ws : List Written) (k : Nat) : Prop :=
  ∃ pre, pre <+: ws ∧ (encode ws).take k = encode pre

/-- The first `k` bytes end right after the header of a non-empty frame. -/
def OnSeam (ws : List Written) (k : Nat) : Prop :=
  ∃ pre w post, ws = pre ++ w :: post ∧ w.toFrame.payload ≠ [] ∧
    k = (encode pre).length + frameHeaderLen

theorem encode_cons (w : Written) (ws : List Written) : encode (w :: ws) = w.bytes ++ encode ws := by
  rw [encode, List.flatMap_cons]
  rfl

theorem bytes_ne_nil (w : Written) : w.bytes ≠ [] := by
  intro h
  have hlen := w.length_bytes
  rw [h, List.length_nil, frameHeaderLen] at hlen
  omega

/-! ## One frame -/

/-- A frame cut short: nothing of it, exactly its header, or anything else. -/
theorem next_cut {maxPayload : Int} {w : Written} (h : w.Fits maxPayload) {k : Nat}
    (hk : k < w.bytes.length) :
    next maxPayload (w.bytes.take k) =
      .error (.io (if k = 0 ∨ k = frameHeaderLen then .eof else .unexpectedEOF)) := by
  have hlen := w.length_bytes
  have hhdr : (w.toFrame.typ :: putBigEndian 4 w.toFrame.payload.length).length = frameHeaderLen := by
    rw [List.length_cons, length_putBigEndian]
    rfl
  rcases Nat.lt_or_ge k frameHeaderLen with hlt | hge
  · -- within the header: the first `ReadFull` fails
    rw [next]
    rcases Nat.eq_zero_or_pos k with rfl | hpos
    · rw [List.take_zero, readFull_nil (by decide), if_pos (.inl rfl)]
    · have htake : (w.bytes.take k).length = k := by rw [List.length_take]; omega
      have hne : w.bytes.take k ≠ [] := by
        intro hnil
        rw [hnil, List.length_nil] at htake
        omega
      rw [readFull_short hne (by omega), if_neg (by omega)]
  · -- past the header: the second one does, with what is there of the payload
    have hpay : w.toFrame.payload ≠ [] := by
      intro hnil
      rw [hnil, List.length_nil] at hlen
      omega
    rw [w.bytes_eq, List.take_append, List.take_of_length_le (by omega), hhdr, next_header h,
      if_neg hpay]
    rcases Nat.eq_or_lt_of_le hge with rfl | hgt
    · rw [Nat.sub_self, List.take_zero, readFull_nil (List.length_pos_iff.mpr hpay),
        if_pos (.inr rfl)]
    · have htake : (w.toFrame.payload.take (k - frameHeaderLen)).length = k - frameHeaderLen := by
        rw [List.length_take]
        omega
      have hne : w.toFrame.payload.take (k - frameHeaderLen) ≠ [] := by
        intro hnil
        rw [hnil, List.length_nil] at htake
        omega
      rw [readFull_short hne (by omega), if_neg (by omega)]

/-! ## A whole loop -/

/-- What a frame loop does with frames `fs` that `next` returns before it fails with `e`. -/
def consume {σ ρ : Type} (handle : σ → Frame → σ × Option ρ) (e : FrameErr) :
    σ → List Frame → σ × LoopEnd ρ
  | s, [] => (s, .failed e)
  | s, f :: fs =>
    match handle s f with
    | (s', some result) => (s', .returned result)
    | (s', none) => consume handle e s' fs

/-- **Any frame loop over a cut body** sees the whole frames and then `cutErr`, and never runs
out of fuel. -/
theorem readLoop_cut {σ ρ : Type} {maxPayload : Int} (handle : σ → Frame → σ × Option ρ)
    {ws : List Written} (hfit : ∀ w ∈ ws, w.Fits maxPayload) (k : Nat) (s : σ) :
    readLoop maxPayload handle s ((encode ws).take k) =
      some (consume handle (.io (cutErr ws k)) s ((whole ws k).map Written.toFrame)) := by
  have hloop : ∀ (ws : List Written), (∀ w ∈ ws, w.Fits maxPayload) → ∀ (k fuel : Nat) (s : σ),
      ((encode ws).take k).length < fuel →
      frameLoop maxPayload handle fuel s ((encode ws).take k) =
        some (consume handle (.io (cutErr ws k)) s ((whole ws k).map Written.toFrame)) := by
    intro ws
    induction ws with
    | nil =>
      intro _ k fuel s hfuel
      cases fuel with
      | zero => cases hfuel
      | succ fuel =>
        rw [encode, List.flatMap_nil, List.take_nil, frameLoop, next, readFull_nil (by decide)]
        rfl
    | cons w ws ih =>
      intro hfit k fuel s hfuel
      have hw := hfit w List.mem_cons_self
      cases fuel with
      | zero => cases hfuel
      | succ fuel =>
        rw [encode_cons, List.take_append] at hfuel ⊢
        simp only [whole, cutErr]
        split
        next hle =>
          rw [List.take_of_length_le hle] at hfuel ⊢
          rw [frameLoop, next_written hw, List.map_cons, consume]
          dsimp only
          rcases handle s w.toFrame with ⟨s', _ | result⟩
          case some => rfl
          case none =>
            refine ih (fun w' hw' => hfit w' (List.mem_cons_of_mem _ hw')) _ fuel s' ?_
            have hpos := List.length_pos_iff.mpr (bytes_ne_nil w)
            rw [List.length_append] at hfuel
            omega
        next hgt =>
          have hlt : k < w.bytes.length := Nat.lt_of_not_le hgt
          rw [Nat.sub_eq_zero_of_le (Nat.le_of_lt hlt), List.take_zero, List.append_nil, frameLoop,
            next_cut hw hlt]
          rfl
  exact hloop ws hfit k _ s (Nat.lt_succ_self _)

/-- Collecting every frame keeps them all. -/
theorem consume_collect (e : FrameErr) (fs : List Frame) :
    consume (fun acc f => (acc ++ [f], (none : Option Empty))) e [] fs = (fs, .failed e) := by
  have h : ∀ (fs acc : List Frame),
      consume (fun acc f => (acc ++ [f], (none : Option Empty))) e acc fs = (acc ++ fs, .failed e) := by
    intro fs
    induction fs with
    | nil => intro acc; rw [consume, List.append_nil]
    | cons f fs ih =>
      intro acc
      show consume _ e (acc ++ [f]) fs = _
      rw [ih, List.append_assoc]
      rfl
  exact h fs []

/-- **Repeated `next` on a cut body** returns the whole frames and then `cutErr`. -/
theorem readFrames_cut {maxPayload : Int} {ws : List Written} (hfit : ∀ w ∈ ws, w.Fits maxPayload)
    (k : Nat) :
    readFrames maxPayload ((encode ws).take k) =
      some ((whole ws k).map Written.toFrame, .failed (.io (cutErr ws k))) := by
  rw [readFrames, readLoop_cut _ hfit, consume_collect]

/-- A loop that ends because its handler returned was handed a frame it returned on. -/
theorem consume_returned {σ ρ : Type} {handle : σ → Frame → σ × Option ρ} {e : FrameErr}
    {s s' : σ} {fs : List Frame} {r : ρ} (h : consume handle e s fs = (s', .returned r)) :
    ∃ f ∈ fs, ∃ t t', handle t f = (t', some r) := by
  induction fs generalizing s with
  | nil => cases h
  | cons f fs ih =>
    simp only [consume] at h
    split at h
    next t result hf =>
      cases h
      exact ⟨f, List.mem_cons_self, s, s', hf⟩
    next t hf =>
      obtain ⟨g, hg, hrest⟩ := ih h
      exact ⟨g, List.mem_cons_of_mem _ hg, hrest⟩

/-- A loop that ends because `next` failed ends with that error. -/
theorem consume_failed {σ ρ : Type} {handle : σ → Frame → σ × Option ρ} {e e' : FrameErr}
    {s s' : σ} {fs : List Frame} (h : consume handle e s fs = (s', .failed e')) : e' = e := by
  induction fs generalizing s with
  | nil => cases h; rfl
  | cons f fs ih =>
    simp only [consume] at h
    split at h
    next => cases h
    next => exact ih h

/-! ## Boundaries and seams -/

theorem onBoundary_cons {w : Written} {ws : List Written} {k : Nat} :
    OnBoundary (w :: ws) k ↔ k = 0 ∨ (w.bytes.length ≤ k ∧ OnBoundary ws (k - w.bytes.length)) := by
  unfold OnBoundary
  rw [encode_cons, List.take_append]
  constructor
  · rintro ⟨pre, hpre, heq⟩
    cases pre with
    | nil =>
      have hnil := (List.append_eq_nil_iff.mp heq).1
      exact .inl ((List.take_eq_nil_iff.mp hnil).resolve_right (bytes_ne_nil w))
    | cons v pre =>
      obtain ⟨rfl, hrest⟩ := List.cons_prefix_cons.mp hpre
      rw [encode_cons] at heq
      have hlen := congrArg List.length heq
      rcases Nat.lt_or_ge k v.bytes.length with hlt | hge
      · rw [List.length_append, List.length_append, List.length_take, List.length_take,
          Nat.sub_eq_zero_of_le (Nat.le_of_lt hlt)] at hlen
        omega
      · rw [List.take_of_length_le hge] at heq
        exact .inr ⟨hge, pre, hrest, List.append_cancel_left heq⟩
  · rintro (rfl | ⟨hle, pre, hpre, heq⟩)
    · exact ⟨[], List.nil_prefix, by rw [List.take_zero, Nat.zero_sub, List.take_zero]; rfl⟩
    · refine ⟨w :: pre, List.cons_prefix_cons.mpr ⟨rfl, hpre⟩, ?_⟩
      rw [List.take_of_length_le hle, heq, encode_cons]

theorem onSeam_cons {w : Written} {ws : List Written} {k : Nat} :
    OnSeam (w :: ws) k ↔ (k < w.bytes.length ∧ k = frameHeaderLen) ∨
      (w.bytes.length ≤ k ∧ OnSeam ws (k - w.bytes.length)) := by
  have hlen := w.length_bytes
  constructor
  · rintro ⟨pre, v, post, heq, hne, hk⟩
    cases pre with
    | nil =>
      cases heq
      have hpos := List.length_pos_iff.mpr hne
      have hk' : k = frameHeaderLen := by rw [hk, encode, List.flatMap_nil, List.length_nil, Nat.zero_add]
      exact .inl ⟨by omega, hk'⟩
    | cons u pre =>
      obtain ⟨rfl, hrest⟩ := List.cons.inj heq
      rw [encode_cons, List.length_append] at hk
      exact .inr ⟨by omega, pre, v, post, hrest, hne, by omega⟩
  · rintro (⟨hlt, rfl⟩ | ⟨hle, pre, v, post, rfl, hne, hk⟩)
    · refine ⟨[], w, ws, rfl, ?_, rfl⟩
      intro hnil
      rw [hnil, List.length_nil] at hlen
      omega
    · refine ⟨w :: pre, v, post, rfl, hne, ?_⟩
      rw [encode_cons, List.length_append]
      omega

/-- A seam is not a boundary. -/
theorem not_onBoundary_of_onSeam {ws : List Written} {k : Nat} (h : OnSeam ws k) :
    ¬ OnBoundary ws k := by
  induction ws generalizing k with
  | nil =>
    obtain ⟨pre, w, post, heq, _⟩ := h
    cases pre <;> cases heq
  | cons w ws ih =>
    rw [onBoundary_cons]
    rcases onSeam_cons.mp h with ⟨hlt, rfl⟩ | ⟨hle, hrest⟩
    · rintro (h0 | ⟨hle, _⟩)
      · cases h0
      · omega
    · have hpos := List.length_pos_iff.mpr (bytes_ne_nil w)
      rintro (rfl | ⟨_, hb⟩)
      · omega
      · exact ih hrest hb

/-- **The error at a cut is `io.EOF` exactly at a boundary or a seam.** -/
theorem cutErr_eof_iff (ws : List Written) (k : Nat) :
    cutErr ws k = .eof ↔ OnBoundary ws k ∨ OnSeam ws k := by
  induction ws generalizing k with
  | nil =>
    refine ⟨fun _ => .inl ⟨[], List.prefix_refl _, ?_⟩, fun _ => rfl⟩
    rw [encode, List.flatMap_nil, List.take_nil]
  | cons w ws ih =>
    have hpos := List.length_pos_iff.mpr (bytes_ne_nil w)
    rw [onBoundary_cons, onSeam_cons, cutErr]
    split
    next hle =>
      rw [ih]
      constructor
      · rintro (hb | hs)
        · exact .inl (.inr ⟨hle, hb⟩)
        · exact .inr (.inr ⟨hle, hs⟩)
      · rintro ((rfl | ⟨_, hb⟩) | (⟨hlt, _⟩ | ⟨_, hs⟩))
        · omega
        · exact .inl hb
        · omega
        · exact .inr hs
    next hgt =>
      have hlt : k < w.bytes.length := Nat.lt_of_not_le hgt
      split
      next h0 =>
        refine ⟨fun _ => ?_, fun _ => rfl⟩
        rcases h0 with h0 | h5
        · exact .inl (.inl h0)
        · exact .inr (.inl ⟨hlt, h5⟩)
      next h0 =>
        constructor
        · nofun
        · rintro ((hz | ⟨hle, _⟩) | (⟨_, h5⟩ | ⟨hle, _⟩))
          · exact absurd (.inl hz) h0
          · omega
          · exact absurd (.inr h5) h0
          · omega

/-! ## The law and where it fails -/

/-- **A cut body is read faithfully**: `next` returns the whole frames and then `io.EOF` exactly
at a boundary, and no reader takes the cut for a clean end elsewhere, unless a `frameEnd` came
before it. -/
structure CutFaithful (maxPayload : Int) (ws : List Written) (k : Nat) : Prop where
  frames : ∃ e, readFrames maxPayload ((encode ws).take k) =
      some ((whole ws k).map Written.toFrame, .failed e) ∧ (e = .io .eof ↔ OnBoundary ws k)
  poll : ∀ watchdog pipe pipe',
    doStreamPoll maxPayload watchdog pipe ((encode ws).take k) = some (pipe', .streamEnd) →
    (∃ w ∈ whole ws k, w.toFrame.typ = frameEnd) ∨ OnBoundary ws k
  resumablePoll : ∀ watchdog ep ep',
    resumableDoStreamPoll maxPayload watchdog ep ((encode ws).take k) = some (ep', .streamEnd) →
    (∃ w ∈ whole ws k, w.toFrame.typ = frameEnd) ∨ OnBoundary ws k
  send : ∀ up up',
    pollSendStream maxPayload up ((encode ws).take k) = some (up', .ok) →
    (∃ w ∈ whole ws k, w.toFrame.typ = frameEnd) ∨ OnBoundary ws k

/-- A reader that reports a clean end either was handed a `frameEnd` or met `io.EOF`. -/
theorem clean_end {σ ρ : Type} {maxPayload : Int} {handle : σ → Frame → σ × Option ρ}
    {ws : List Written} {k : Nat} {s s' : σ} {e : LoopEnd ρ} {r : ρ}
    (hfit : ∀ w ∈ ws, w.Fits maxPayload)
    (hhandle : ∀ t t' f, handle t f = (t', some r) → f.typ = frameEnd)
    (hloop : readLoop maxPayload handle s ((encode ws).take k) = some (s', e))
    (hend : e = .returned r ∨ e = .failed (.io .eof)) :
    (∃ w ∈ whole ws k, w.toFrame.typ = frameEnd) ∨ cutErr ws k = .eof := by
  rw [readLoop_cut handle hfit] at hloop
  have hc := Option.some.inj hloop
  rcases hend with rfl | rfl
  · obtain ⟨f, hf, t, t', hh⟩ := consume_returned hc
    obtain ⟨w, hw, rfl⟩ := List.mem_map.mp hf
    exact .inl ⟨w, hw, hhandle t t' _ hh⟩
  · exact .inr (FrameErr.io.inj (consume_failed hc)).symm

theorem pollEnd_streamEnd {watchdog : Bool} {e : LoopEnd PollEnd}
    (h : PollEnd.ofLoop watchdog e = .streamEnd) :
    e = .returned .streamEnd ∨ e = .failed (.io .eof) := by
  cases e with
  | returned r => exact .inl (congrArg _ h)
  | failed e =>
    simp only [PollEnd.ofLoop, PollEnd.ofErr] at h
    split at h
    next heq => exact .inr (congrArg _ heq)
    next => split at h <;> cases h

theorem sendEnd_ok {e : LoopEnd SendEnd} (h : SendEnd.ofLoop e = .ok) :
    e = .returned .ok ∨ e = .failed (.io .eof) := by
  cases e with
  | returned r => exact .inl (congrArg _ h)
  | failed e =>
    simp only [SendEnd.ofLoop] at h
    split at h
    next heq => exact .inr (congrArg _ heq)
    next => cases h

/-- **A cut body is read faithfully exactly when the cut misses every seam.** -/
theorem cutFaithful_iff {maxPayload : Int} {ws : List Written}
    (hfit : ∀ w ∈ ws, w.Fits maxPayload) (k : Nat) :
    CutFaithful maxPayload ws k ↔ ¬ OnSeam ws k := by
  constructor
  · intro hfaith hseam
    obtain ⟨e, hread, hiff⟩ := hfaith.frames
    rw [readFrames_cut hfit] at hread
    cases hread
    have heof := (cutErr_eof_iff ws k).mpr (.inr hseam)
    exact not_onBoundary_of_onSeam hseam (hiff.mp (congrArg _ heof))
  · intro hseam
    have heof : cutErr ws k = .eof → OnBoundary ws k := fun h =>
      ((cutErr_eof_iff ws k).mp h).resolve_right hseam
    refine ⟨⟨_, readFrames_cut hfit k, fun h => heof (FrameErr.io.inj h),
      fun h => congrArg _ ((cutErr_eof_iff ws k).mpr (.inl h))⟩, ?_, ?_, ?_⟩
    · intro watchdog pipe pipe' h
      obtain ⟨⟨p, e⟩, hloop, heq⟩ := Option.map_eq_some_iff.mp h
      exact (clean_end hfit (fun _ _ _ => streamPollFrame_streamEnd) hloop
        (pollEnd_streamEnd (Prod.mk.inj heq).2)).imp id heof
    · intro watchdog ep ep' h
      obtain ⟨⟨p, e⟩, hloop, heq⟩ := Option.map_eq_some_iff.mp h
      exact (clean_end hfit (fun _ _ _ => resumableStreamPollFrame_streamEnd) hloop
        (pollEnd_streamEnd (Prod.mk.inj heq).2)).imp id heof
    · intro up up' h
      obtain ⟨⟨u, e⟩, hloop, heq⟩ := Option.map_eq_some_iff.mp h
      exact (clean_end hfit (fun _ _ _ => sendStreamFrame_ok) hloop
        (sendEnd_ok (Prod.mk.inj heq).2)).imp id heof

/-- A data frame of one byte, cut right after its header, reads as a clean end: the poll reopens
and the byte is gone. -/
theorem seam_read_as_end :
    readFrames 64 ((encode [.frame frameData [7]]).take 5) = some ([], .failed (.io .eof)) ∧
      doStreamPoll 64 false {} ((encode [.frame frameData [7]]).take 5) = some ({}, .streamEnd) ∧
      pollSendStream 64 (.plain {}) ((encode [.frame frameData [7]]).take 5) =
        some (.plain {}, .ok) ∧
      ¬ OnBoundary [.frame frameData [7]] 5 :=
  ⟨by decide, by decide, by decide,
    not_onBoundary_of_onSeam ⟨[], .frame frameData [7], [], rfl, nofun, rfl⟩⟩

/-- The same frame cut one byte earlier, or not at all, is read faithfully. -/
theorem one_frame_cut_faithful :
    CutFaithful 64 [.frame frameData [7]] 4 ∧ CutFaithful 64 [.frame frameData [7]] 6 := by
  have hfit : ∀ w ∈ [Written.frame frameData [7]], w.Fits 64 := by decide
  refine ⟨(cutFaithful_iff hfit 4).mpr ?_, (cutFaithful_iff hfit 6).mpr ?_⟩
  · rintro ⟨pre, w, post, _, _, hk⟩
    rw [frameHeaderLen] at hk
    omega
  · intro hseam
    rcases onSeam_cons.mp hseam with ⟨_, hk⟩ | ⟨_, pre, w, post, heq, _⟩
    · cases hk
    · cases pre <;> cases heq

end Pollmux
