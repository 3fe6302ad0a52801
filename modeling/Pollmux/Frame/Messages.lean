import Pollmux.Frame.Truncation

/-!
# The readers of WebSocket messages

`wsReadPump`, `wsConn.readLoop` and `resumableConn.wsReadLoop` read the frames that the HTTP
readers of `Frame.Readers` read, each in a message of its own.

**The two framings of a direction do the same to the session** (`wsReadPump_agrees`,
`wsReadLoop_agrees`): whatever frames within the bound of the HTTP reader are sent, and wherever the
HTTP body is cut, both readers leave the same state, and stop at the same frame or not at all. They
differ in what they call the end: `frameEnd` and `frameGone` are errors on a WebSocket. And in one
frame: an empty data frame breaks a resumable session on a WebSocket, and `pollSendStream` skips it.

The bound matters: the limit of a resumable WebSocket leaves room for the offset of a data frame
whatever the type of the message, so a heartbeat that is up to eight bytes too long for `next`
passes there.

A message loop is given the messages that arrive before the connection's `Read` fails, so a
deadline, a cancelled context and a closed connection are all the end of the list.
-/

namespace Pollmux

/-- A message as `websocket.Conn.Read` returns it. -/
structure WsMessage where
  binary : Bool
  data : Bytes
  deriving DecidableEq, Repr

/-- How a message loop ends: `Read` failed, `wsDecode` failed, or the code around them
returned. -/
inductive MessageEnd (ρ : Type)
  | readErr
  | malformed (e : MessageErr)
  | returned (result : ρ)
  deriving DecidableEq, Repr

/-- Read messages, skip those that are not binary, and hand the frame of each other one to
`handle`. -/
def messageLoop {σ ρ : Type} (handle : σ → Frame → σ × Option ρ) :
    σ → List WsMessage → σ × MessageEnd ρ
  | s, [] => (s, .readErr)
  | s, m :: ms =>
    if !m.binary then messageLoop handle s ms
    else
      match wsDecode m.data with
      | .error e => (s, .malformed e)
      | .ok f =>
        match handle s f with
        | (s', some result) => (s', .returned result)
        | (s', none) => messageLoop handle s' ms

/-! ## The server -/

/-- The upstream side of a session with a WebSocket attached; there are no probes on one. -/
inductive Sink
  | plain (toServer : BufferedPipe)
  | resumable (ep : Endpoint)
  deriving DecidableEq, Repr

/-- The same session as `pollSendStream` sees it. -/
def Sink.upstream : Sink → Upstream
  | .plain toServer => .plain toServer
  | .resumable ep => .resumable ep

/-- What ends `wsReadPump` besides the connection. -/
inductive PumpEnd
  | unnumbered
  /-- `writeUpstream` failed. -/
  | closed (e : Err)
  | seqOnPlain
  | ackOnPlain
  /-- A frame that is malformed or that the byte layer refuses. -/
  | rejected (e : FrameErr)
  | unexpectedFrame (typ : FrameType)
  /-- The byte layer faulted. -/
  | fault
  deriving DecidableEq, Repr

/-- What `wsReadPump` does with one frame. -/
def wsPumpFrame (sink : Sink) (f : Frame) : Sink × Option PumpEnd :=
  if f.typ = frameData then
    match sink with
    | .resumable ep => (.resumable { ep with rl := ep.rl.markBroken }, some .unnumbered)
    | .plain toServer =>
      if f.payload = [] then (sink, none)
      else
        match toServer.write f.payload with
        | .error e => (sink, some (.closed e))
        | .ok toServer' => (.plain toServer', none)
  else if f.typ = frameSeqData then
    match sink with
    | .plain _ => (sink, some .seqOnPlain)
    | .resumable ep =>
      match ep.seqFrame f.payload with
      | none => (sink, some .fault)
      | some (err, ep') => (.resumable ep', err.map .rejected)
  else if f.typ = frameAck then
    match sink with
    | .plain _ => (sink, some .ackOnPlain)
    | .resumable ep =>
      match ep.ackFrame f.payload with
      | none => (sink, some .fault)
      | some (err, ep') => (.resumable ep', err.map .rejected)
  else if f.typ = frameHeartbeat then (sink, none)
  else (sink, some (.unexpectedFrame f.typ))

/-- `wsReadPump`. -/
def wsReadPump (sink : Sink) (ms : List WsMessage) : Sink × MessageEnd PumpEnd :=
  messageLoop wsPumpFrame sink ms

/-! ## The client -/

/-- What `wsConn.readLoop` does with one frame. Of its ends, `readPipeClosed` is a plain return and
`unknownFrame` a transport problem. -/
def wsReadFrame (readPipe : BufferedPipe) (f : Frame) : BufferedPipe × Option PollEnd :=
  if f.typ = frameData then
    if f.payload = [] then (readPipe, none)
    else
      match readPipe.write f.payload with
      | .error e => (readPipe, some (.readPipeClosed e))
      | .ok readPipe' => (readPipe', none)
  else if f.typ = frameHeartbeat then (readPipe, none)
  else (readPipe, some (.unknownFrame f.typ))

/-- `wsConn.readLoop`. -/
def wsReadLoop (readPipe : BufferedPipe) (ms : List WsMessage) : BufferedPipe × MessageEnd PollEnd :=
  messageLoop wsReadFrame readPipe ms

/-- What `resumableConn.wsReadLoop` does with one frame. -/
def resumableWsReadFrame (ep : Endpoint) (f : Frame) : Endpoint × Option PollEnd :=
  let pass : Option (Option FrameErr × Endpoint) → Endpoint × Option PollEnd
    | none => (ep, some .fault)
    | some (err, ep') => (ep', err.map .rejected)
  if f.typ = frameSeqData then pass (ep.seqFrame f.payload)
  else if f.typ = frameAck then pass (ep.ackFrame f.payload)
  else if f.typ = frameHeartbeat then (ep, none)
  else if f.typ = frameData then (ep, some .unnumbered)
  else (ep, some (.unknownFrame f.typ))

/-- `resumableConn.wsReadLoop`. -/
def resumableWsReadLoop (ep : Endpoint) (ms : List WsMessage) : Endpoint × MessageEnd PollEnd :=
  messageLoop resumableWsReadFrame ep ms

/-! ## Two framings of the same frames -/

/-- The message that carries what one call wrote to a stream. -/
def Written.message : Written → Bytes
  | .frame typ payload => wsEncode typ payload
  | .seq off payload => wsEncodeSeq off payload

@[simp] theorem wsDecode_message_written (w : Written) : wsDecode w.message = .ok w.toFrame := by
  cases w <;> rfl

/-- The binary messages are those of `ws`, in order; others may stand anywhere between them. -/
def CarriesFrames (ms : List WsMessage) (ws : List Written) : Prop :=
  (ms.filter (·.binary)).map (·.data) = ws.map Written.message

instance (ms : List WsMessage) (ws : List Written) : Decidable (CarriesFrames ms ws) :=
  inferInstanceAs (Decidable (_ = _))

/-- Both loops went through all frames, or both returned on one. -/
inductive EndsAlike {ρ ρ' : Type} (R : ρ → ρ' → Prop) (e : FrameErr) :
    LoopEnd ρ → MessageEnd ρ' → Prop
  | through : EndsAlike R e (.failed e) .readErr
  | returned {r : ρ} {r' : ρ'} (h : R r r') : EndsAlike R e (.returned r) (.returned r')

/-- What the handlers of two framings have to do alike, in the states `ok`, on the frames of
`ws`: the same to the state, and both return or neither. -/
structure HandleAlike {σ τ ρ ρ' : Type} (stream : σ → Frame → σ × Option ρ)
    (message : τ → Frame → τ × Option ρ') (proj : τ → σ) (R : ρ → ρ' → Prop) (ok : τ → Prop)
    (ws : List Written) : Prop where
  state : ∀ t w, ok t → w ∈ ws →
    (stream (proj t) w.toFrame).1 = proj (message t w.toFrame).1 ∧ ok (message t w.toFrame).1
  result : ∀ t w, ok t → w ∈ ws →
    Option.Rel R (stream (proj t) w.toFrame).2 (message t w.toFrame).2

/-- Messages that are not binary do not count. -/
theorem messageLoop_filter {σ ρ : Type} (handle : σ → Frame → σ × Option ρ) (s : σ)
    (ms : List WsMessage) : messageLoop handle s ms = messageLoop handle s (ms.filter (·.binary)) := by
  induction ms generalizing s with
  | nil => rfl
  | cons m ms ih =>
    cases hbin : m.binary with
    | false =>
      rw [List.filter_cons_of_neg (by simp [hbin]), messageLoop, hbin]
      exact ih s
    | true =>
      rw [List.filter_cons_of_pos hbin]
      simp only [messageLoop, hbin, ih]

/-- A loop over messages that carry `w` and then `ws`. -/
theorem messageLoop_carries {σ ρ : Type} (handle : σ → Frame → σ × Option ρ) (s : σ)
    {ms : List WsMessage} {w : Written} {ws : List Written} (h : CarriesFrames ms (w :: ws)) :
    ∃ rest, CarriesFrames rest ws ∧
      messageLoop handle s ms =
        match handle s w.toFrame with
        | (s', some result) => (s', .returned result)
        | (s', none) => messageLoop handle s' rest := by
  obtain ⟨m, rest, hfilter, hdata, hrest⟩ := List.map_eq_cons_iff.mp h
  have hmem : m ∈ ms.filter (·.binary) := by rw [hfilter]; exact List.mem_cons_self
  have hbin : m.binary = true := (List.mem_filter.mp hmem).2
  have hall : rest.filter (·.binary) = rest := by
    apply List.filter_eq_self.mpr
    intro m' hm'
    have : m' ∈ ms.filter (·.binary) := by rw [hfilter]; exact List.mem_cons_of_mem _ hm'
    exact (List.mem_filter.mp this).2
  refine ⟨rest, by rw [CarriesFrames, hall, hrest], ?_⟩
  rw [messageLoop_filter, hfilter]
  simp only [messageLoop, hbin, hdata, wsDecode_message_written, Bool.not_true, Bool.false_eq_true,
    if_false]

theorem messageLoop_of_none {σ ρ : Type} (handle : σ → Frame → σ × Option ρ) (s : σ)
    {ms : List WsMessage} (h : CarriesFrames ms []) : messageLoop handle s ms = (s, .readErr) := by
  rw [messageLoop_filter, List.map_eq_nil_iff.mp h]
  rfl

/-- **Handlers that do alike make loops that do alike.** By induction on the frames, along both
loops. -/
theorem HandleAlike.loops {σ τ ρ ρ' : Type} {stream : σ → Frame → σ × Option ρ}
    {message : τ → Frame → τ × Option ρ'} {proj : τ → σ} {R : ρ → ρ' → Prop} {ok : τ → Prop}
    {ws : List Written} (h : HandleAlike stream message proj R ok ws) (e : FrameErr) {t : τ}
    (ht : ok t) {ms : List WsMessage} (hms : CarriesFrames ms ws) :
    (consume stream e (proj t) (ws.map Written.toFrame)).1 = proj (messageLoop message t ms).1 ∧
      EndsAlike R e (consume stream e (proj t) (ws.map Written.toFrame)).2
        (messageLoop message t ms).2 := by
  induction ws generalizing t ms with
  | nil =>
    rw [messageLoop_of_none message t hms]
    exact ⟨rfl, .through⟩
  | cons w ws ih =>
    obtain ⟨rest, hrest, hloop⟩ := messageLoop_carries message t hms
    have hstate := h.state t w ht List.mem_cons_self
    have hresult := h.result t w ht List.mem_cons_self
    have htail : HandleAlike stream message proj R ok ws :=
      ⟨fun t w' ht hw' => h.state t w' ht (List.mem_cons_of_mem _ hw'),
        fun t w' ht hw' => h.result t w' ht (List.mem_cons_of_mem _ hw')⟩
    rw [hloop, List.map_cons, consume]
    -- both handlers, with what they do to the state and whether they return
    rcases hs : stream (proj t) w.toFrame with ⟨s', r⟩
    rcases hm : message t w.toFrame with ⟨t', r'⟩
    rw [hs, hm] at hstate hresult
    obtain ⟨rfl, ht'⟩ := hstate
    cases hresult with
    | none => exact ih htail ht' hrest
    | some hR => exact ⟨rfl, .returned hR⟩

/-! ## Uploads -/

/-- `pollSendStream` answers 200 on the frame that `wsReadPump` calls unexpected, `frameEnd`, and
something on every frame that the pump stops at. -/
structure AnswersAlike (a : SendEnd) (e : PumpEnd) : Prop where
  ok : a = .ok ↔ e = .unexpectedFrame frameEnd
  written : a ≠ .silent

/-- No empty data frame is sent to a resumable session. -/
def Sink.NoEmptyData (sink : Sink) (ws : List Written) : Prop :=
  ∀ ep, sink = .resumable ep → ∀ w ∈ ws, w.toFrame ≠ ⟨frameData, []⟩

/-- A refusal of the byte layer is one on both sides. -/
theorem answersAlike_rejected (err : Option FrameErr) (answer : FrameErr → SendEnd)
    (hanswer : ∀ e, answer e ≠ .ok ∧ answer e ≠ .silent) :
    Option.Rel AnswersAlike (err.map answer) (err.map PumpEnd.rejected) := by
  cases err with
  | none => exact .none
  | some e => exact .some ⟨⟨fun h => absurd h (hanswer e).1, fun h => by cases h⟩, (hanswer e).2⟩

theorem answersAlike_status {code : Nat} {text : String} {e : PumpEnd} (hcode : code ≠ 200)
    (he : e ≠ .unexpectedFrame frameEnd) :
    Option.Rel AnswersAlike (some (.status code text)) (some e) := by
  refine .some ⟨⟨fun h => ?_, fun h => absurd h he⟩, by simp⟩
  cases h
  exact absurd rfl hcode

theorem answersAlike_end : Option.Rel AnswersAlike (some .ok) (some (.unexpectedFrame frameEnd)) :=
  .some ⟨⟨fun _ => rfl, fun _ => rfl⟩, by simp [SendEnd.ok]⟩

theorem answersAlike_fault : Option.Rel AnswersAlike (some .fault) (some .fault) :=
  .some ⟨by simp [SendEnd.ok], by simp⟩

/-- One frame to a plain session, on both framings. -/
theorem wsPumpFrame_plain (toServer : BufferedPipe) (f : Frame) :
    (sendStreamFrame (.plain toServer) f).1 = (wsPumpFrame (.plain toServer) f).1.upstream ∧
      Option.Rel AnswersAlike (sendStreamFrame (.plain toServer) f).2
        (wsPumpFrame (.plain toServer) f).2 := by
  unfold sendStreamFrame wsPumpFrame
  split_ifs with hdata hpayload hseq hack hheartbeat hend
  · exact ⟨rfl, .none⟩
  · simp only
    cases toServer.write f.payload with
    | error e => exact ⟨rfl, answersAlike_status (by decide) (by simp)⟩
    | ok toServer' => exact ⟨rfl, .none⟩
  · exact ⟨rfl, answersAlike_status (by decide) (by simp)⟩
  · exact ⟨rfl, answersAlike_status (by decide) (by simp)⟩
  · exact ⟨rfl, .none⟩
  · exact ⟨rfl, hend ▸ answersAlike_end⟩
  · exact ⟨rfl, answersAlike_status (by decide) (by simpa using hend)⟩

/-- One frame to a resumable session, on both framings. -/
theorem wsPumpFrame_resumable (ep : Endpoint) {f : Frame} (hempty : f ≠ ⟨frameData, []⟩) :
    (sendStreamFrame (.resumable ep) f).1 = (wsPumpFrame (.resumable ep) f).1.upstream ∧
      Option.Rel AnswersAlike (sendStreamFrame (.resumable ep) f).2
        (wsPumpFrame (.resumable ep) f).2 := by
  unfold sendStreamFrame wsPumpFrame
  split_ifs with hdata hpayload hseq hack hheartbeat hend
  · exact absurd (by cases f; cases hdata; cases hpayload; rfl) hempty
  · exact ⟨rfl, answersAlike_status (by decide) (by simp)⟩
  · simp only
    rcases ep.seqFrame f.payload with _ | ⟨err, ep'⟩
    · exact ⟨rfl, answersAlike_fault⟩
    · exact ⟨rfl, answersAlike_rejected err _ SendEnd.ofErr_refuses⟩
  · simp only
    rcases ep.ackFrame f.payload with _ | ⟨err, ep'⟩
    · exact ⟨rfl, answersAlike_fault⟩
    · exact ⟨rfl, answersAlike_rejected err _ fun e => by simp [SendEnd.ok]⟩
  · exact ⟨rfl, .none⟩
  · exact ⟨rfl, hend ▸ answersAlike_end⟩
  · exact ⟨rfl, answersAlike_status (by decide) (by simpa using hend)⟩

/-- A plain session stays one. -/
theorem wsPumpFrame_of_plain (toServer : BufferedPipe) (f : Frame) :
    ∃ toServer', (wsPumpFrame (.plain toServer) f).1 = .plain toServer' := by
  unfold wsPumpFrame
  split_ifs
  · exact ⟨toServer, rfl⟩
  · simp only
    cases toServer.write f.payload with
    | error e => exact ⟨toServer, rfl⟩
    | ok toServer' => exact ⟨toServer', rfl⟩
  all_goals exact ⟨toServer, rfl⟩

theorem Sink.NoEmptyData.pumpFrame {sink : Sink} {ws : List Written} (h : sink.NoEmptyData ws)
    (f : Frame) : (wsPumpFrame sink f).1.NoEmptyData ws := by
  cases sink with
  | resumable ep => exact fun _ _ => h ep rfl
  | plain toServer =>
    obtain ⟨toServer', hp⟩ := wsPumpFrame_of_plain toServer f
    intro ep heq
    rw [hp] at heq
    cases heq

theorem pump_handleAlike (ws : List Written) :
    HandleAlike sendStreamFrame wsPumpFrame Sink.upstream AnswersAlike (Sink.NoEmptyData · ws) ws := by
  constructor
  · intro sink w hok hw
    refine ⟨?_, hok.pumpFrame _⟩
    cases sink with
    | plain toServer => exact (wsPumpFrame_plain toServer _).1
    | resumable ep => exact (wsPumpFrame_resumable ep (hok ep rfl w hw)).1
  · intro sink w hok hw
    cases sink with
    | plain toServer => exact (wsPumpFrame_plain toServer _).2
    | resumable ep => exact (wsPumpFrame_resumable ep (hok ep rfl w hw)).2

/-- The answer of a request whose loop went like the pump. -/
theorem SendEnd.ofLoop_alike {err : Err} {e : LoopEnd SendEnd} {e' : MessageEnd PumpEnd}
    (h : EndsAlike AnswersAlike (.io err) e e') :
    (SendEnd.ofLoop e = .ok ↔
      e' = .returned (.unexpectedFrame frameEnd) ∨ e' = .readErr ∧ err = .eof) ∧
    (SendEnd.ofLoop e = .silent ↔ e' = .readErr ∧ err ≠ .eof) := by
  cases h with
  | through =>
    by_cases heof : err = .eof
    · simp [SendEnd.ofLoop, SendEnd.ok, heof]
    · simp [SendEnd.ofLoop, SendEnd.ok, heof]
  | returned hR =>
    refine ⟨?_, ?_⟩
    · simpa [SendEnd.ofLoop] using hR.ok
    · simpa [SendEnd.ofLoop] using hR.written

/-- An empty data frame at the head of a stream to a resumable session: the pump breaks the session
and stops, `pollSendStream` goes on behind it. -/
theorem wsReadPump_empty_data (maxSendBytes : Int) (ep : Endpoint) {ws : List Written} {k : Nat}
    {ms : List WsMessage} (hfit : ∀ w ∈ ws, w.Fits maxSendBytes)
    (hms : CarriesFrames ms (.frame frameData [] :: whole ws k)) :
    wsReadPump (.resumable ep) ms =
        (.resumable { ep with rl := ep.rl.markBroken }, .returned .unnumbered) ∧
      pollSendStream maxSendBytes (.resumable ep) (writeFrame frameData [] ++ (encode ws).take k) =
        pollSendStream maxSendBytes (.resumable ep) ((encode ws).take k) := by
  constructor
  · obtain ⟨rest, -, hloop⟩ := messageLoop_carries wsPumpFrame (.resumable ep) hms
    exact hloop
  · have hlen : (Written.frame frameData []).bytes.length = frameHeaderLen := by decide
    have hfit' : ∀ w ∈ Written.frame frameData [] :: ws, w.Fits maxSendBytes :=
      List.forall_mem_cons.mpr ⟨⟨by decide, .inl rfl⟩, hfit⟩
    have hbody : writeFrame frameData [] ++ (encode ws).take k =
        (encode (.frame frameData [] :: ws)).take (frameHeaderLen + k) := by
      rw [encode_cons, ← hlen, List.take_length_add_append]
      rfl
    have hle : (Written.frame frameData []).bytes.length ≤ frameHeaderLen + k := by omega
    rw [pollSendStream, hbody, readLoop_cut _ hfit', whole, cutErr, if_pos hle, if_pos hle, hlen,
      Nat.add_sub_cancel_left, pollSendStream, readLoop_cut _ hfit]
    rfl

/-- **`wsReadPump` and `pollSendStream` do the same to a session.** The frames `ws` are sent as one
body, of which `k` bytes arrive, or as messages, of which those arrive that lie within the `k`
bytes. Both leave the same session. The handler writes 200 exactly if the pump was stopped by
`frameEnd`, or by nothing and the body ended as `next` wants it to end, and returns without an answer
exactly if the pump was stopped by nothing and the body ended otherwise. The one frame on which the
two differ is an empty data frame to a resumable session. -/
theorem wsReadPump_agrees (maxSendBytes : Int) {ws : List Written} {k : Nat}
    (hfit : ∀ w ∈ ws, w.Fits maxSendBytes) :
    (∀ sink : Sink, sink.NoEmptyData (whole ws k) → ∀ ms, CarriesFrames ms (whole ws k) →
      ∃ answer, pollSendStream maxSendBytes sink.upstream ((encode ws).take k) =
          some ((wsReadPump sink ms).1.upstream, answer) ∧
        (answer = .ok ↔
          (wsReadPump sink ms).2 = .returned (.unexpectedFrame frameEnd) ∨
            (wsReadPump sink ms).2 = .readErr ∧ cutErr ws k = .eof) ∧
        (answer = .silent ↔ (wsReadPump sink ms).2 = .readErr ∧ cutErr ws k ≠ .eof)) ∧
    (∀ ep ms, CarriesFrames ms (.frame frameData [] :: whole ws k) →
      wsReadPump (.resumable ep) ms =
          (.resumable { ep with rl := ep.rl.markBroken }, .returned .unnumbered) ∧
        pollSendStream maxSendBytes (.resumable ep)
            (writeFrame frameData [] ++ (encode ws).take k) =
          pollSendStream maxSendBytes (.resumable ep) ((encode ws).take k)) := by
  refine ⟨?_, fun ep ms hms => wsReadPump_empty_data maxSendBytes ep hfit hms⟩
  intro sink hempty ms hms
  obtain ⟨hstate, hends⟩ :=
    (pump_handleAlike (whole ws k)).loops (.io (cutErr ws k)) hempty hms
  refine ⟨_, ?_, SendEnd.ofLoop_alike hends⟩
  rw [pollSendStream, readLoop_cut _ hfit, Option.map_some, wsReadPump, ← hstate]

/-- A plain session is sent data, a heartbeat and the end, with a text message between them; all of
it arrives. On a resumable session the pump stops at an empty data frame. -/
theorem wsReadPump_agrees_plain :
    (∃ answer, pollSendStream 8 (Sink.plain {}).upstream
        ((encode [.frame frameData [1, 2], .frame frameHeartbeat [], .frame frameEnd []]).take 17) =
        some ((wsReadPump (.plain {})
          [⟨true, [1, 1, 2]⟩, ⟨false, []⟩, ⟨true, [2]⟩, ⟨true, [3]⟩]).1.upstream, answer) ∧
      answer = .ok) ∧
    (wsReadPump (.resumable (.new 8 false)) [⟨true, [1]⟩, ⟨true, [3]⟩]).2 =
      .returned .unnumbered := by
  refine ⟨?_, ?_⟩
  · have hms : CarriesFrames [⟨true, [1, 1, 2]⟩, ⟨false, []⟩, ⟨true, [2]⟩, ⟨true, [3]⟩]
        (whole [.frame frameData [1, 2], .frame frameHeartbeat [], .frame frameEnd []] 17) := by
      decide
    obtain ⟨answer, hpost, hok, -⟩ :=
      (wsReadPump_agrees 8 (by decide)).1 (.plain {}) (fun ep h => by cases h) _ hms
    exact ⟨answer, hpost, hok.mpr (.inl (by decide))⟩
  · have hms : CarriesFrames [⟨true, [1]⟩, ⟨true, [3]⟩]
        (.frame frameData [] :: whole [.frame frameEnd []] 5) := by decide
    rw [((wsReadPump_agrees 8 (by decide)).2 (.new 8 false) _ hms).1]

/-! ## Downloads -/

/-- A poll ends with `errStreamEnd` or `errSessionGone` on the frames that the WebSocket loops call
unknown, and as they do on all others. -/
def PollsAlike (e e' : PollEnd) : Prop :=
  e = e' ∨ e = .streamEnd ∧ e' = .unknownFrame frameEnd ∨
    e = .sessionGone ∧ e' = .unknownFrame frameGone

/-- One frame of a plain download, on both framings. -/
theorem wsReadFrame_alike (readPipe : BufferedPipe) (f : Frame) :
    (streamPollFrame readPipe f).1 = (wsReadFrame readPipe f).1 ∧
      Option.Rel PollsAlike (streamPollFrame readPipe f).2 (wsReadFrame readPipe f).2 := by
  unfold streamPollFrame wsReadFrame
  split_ifs with hdata hpayload hheartbeat hend hgone
  · exact ⟨rfl, .none⟩
  · cases readPipe.write f.payload with
    | error e => exact ⟨rfl, .some (.inl rfl)⟩
    | ok readPipe' => exact ⟨rfl, .none⟩
  · exact ⟨rfl, .none⟩
  · exact ⟨rfl, .some (.inr (.inl ⟨rfl, by rw [hend]⟩))⟩
  · exact ⟨rfl, .some (.inr (.inr ⟨rfl, by rw [hgone]⟩))⟩
  · exact ⟨rfl, .some (.inl rfl)⟩

/-- One frame of a resumable download, on both framings. -/
theorem resumableWsReadFrame_alike (ep : Endpoint) (f : Frame) :
    (resumableStreamPollFrame ep f).1 = (resumableWsReadFrame ep f).1 ∧
      Option.Rel PollsAlike (resumableStreamPollFrame ep f).2 (resumableWsReadFrame ep f).2 := by
  have hrefl : ∀ r : Option PollEnd, Option.Rel PollsAlike r r := by
    rintro (_ | e)
    · exact .none
    · exact .some (.inl rfl)
  unfold resumableStreamPollFrame resumableWsReadFrame
  dsimp only
  split_ifs
  -- the frames that are handed to the byte layer, and the heartbeats, are treated by the same code
  · exact ⟨rfl, hrefl _⟩
  · exact ⟨rfl, hrefl _⟩
  · exact ⟨rfl, hrefl _⟩
  next hend hdata => rw [hend] at hdata; cases hdata
  next hend _ => exact ⟨rfl, .some (.inr (.inl ⟨rfl, by rw [hend]⟩))⟩
  next hgone hdata => rw [hgone] at hdata; cases hdata
  next hgone _ => exact ⟨rfl, .some (.inr (.inr ⟨rfl, by rw [hgone]⟩))⟩
  · exact ⟨rfl, hrefl _⟩
  · exact ⟨rfl, hrefl _⟩

/-- What two loops whose handlers do alike make of a cut body and of its whole messages. -/
theorem polls_agree {σ : Type} {maxFrame : Int} {stream message : σ → Frame → σ × Option PollEnd}
    (halike : ∀ s f, (stream s f).1 = (message s f).1 ∧
      Option.Rel PollsAlike (stream s f).2 (message s f).2)
    {ws : List Written} {k : Nat} {ms : List WsMessage} (hfit : ∀ w ∈ ws, w.Fits maxFrame)
    (hms : CarriesFrames ms (whole ws k)) (s : σ) :
    ∃ e, readLoop maxFrame stream s ((encode ws).take k) =
        some ((messageLoop message s ms).1, e) ∧
      EndsAlike PollsAlike (.io (cutErr ws k)) e (messageLoop message s ms).2 := by
  have hloops : HandleAlike stream message id PollsAlike (fun _ => True) (whole ws k) :=
    ⟨fun s w _ _ => ⟨(halike s w.toFrame).1, trivial⟩, fun s w _ _ => (halike s w.toFrame).2⟩
  obtain ⟨hstate, hends⟩ := hloops.loops (.io (cutErr ws k)) (t := s) trivial hms
  refine ⟨_, ?_, hends⟩
  rw [readLoop_cut _ hfit]
  exact congrArg some (Prod.ext hstate rfl)

/-- The end a poll reports for a loop that went like the loop over messages. -/
theorem PollEnd.ofLoop_alike {watchdog : Bool} {err : FrameErr} {e : LoopEnd PollEnd}
    {e' : MessageEnd PollEnd} (h : EndsAlike PollsAlike err e e') :
    (e' = .readErr ∧ PollEnd.ofLoop watchdog e = .ofErr watchdog err) ∨
      ∃ r, e' = .returned r ∧ PollsAlike (PollEnd.ofLoop watchdog e) r := by
  cases h with
  | through => exact .inl ⟨rfl, rfl⟩
  | returned hR => exact .inr ⟨_, rfl, hR⟩

/-- **The WebSocket read loops of the client do what its stream polls do**, on a plain and on a
resumable connection: for the same frames within the bound of the polls, with the body cut anywhere,
they leave the same read pipe and the same byte layer, and they stop at the same frame. -/
theorem wsReadLoop_agrees (maxFrame : Int) {ws : List Written} {k : Nat} {ms : List WsMessage}
    (hfit : ∀ w ∈ ws, w.Fits maxFrame) (hms : CarriesFrames ms (whole ws k)) (watchdog : Bool) :
    (∀ readPipe, ∃ e, doStreamPoll maxFrame watchdog readPipe ((encode ws).take k) =
        some ((wsReadLoop readPipe ms).1, e) ∧
      ((wsReadLoop readPipe ms).2 = .readErr ∧ e = .ofErr watchdog (.io (cutErr ws k)) ∨
        ∃ r, (wsReadLoop readPipe ms).2 = .returned r ∧ PollsAlike e r)) ∧
    (∀ ep, ∃ e, resumableDoStreamPoll maxFrame watchdog ep ((encode ws).take k) =
        some ((resumableWsReadLoop ep ms).1, e) ∧
      ((resumableWsReadLoop ep ms).2 = .readErr ∧ e = .ofErr watchdog (.io (cutErr ws k)) ∨
        ∃ r, (resumableWsReadLoop ep ms).2 = .returned r ∧ PollsAlike e r)) := by
  constructor
  · intro readPipe
    obtain ⟨e, hloop, hends⟩ := polls_agree wsReadFrame_alike hfit hms readPipe
    refine ⟨.ofLoop watchdog e, ?_, PollEnd.ofLoop_alike hends⟩
    rw [doStreamPoll, hloop]
    rfl
  · intro ep
    obtain ⟨e, hloop, hends⟩ := polls_agree resumableWsReadFrame_alike hfit hms ep
    refine ⟨.ofLoop watchdog e, ?_, PollEnd.ofLoop_alike hends⟩
    rw [resumableDoStreamPoll, hloop]
    rfl

/-- Three bytes in two frames, the second cut after one byte of its payload. -/
theorem wsReadLoop_agrees_cut :
    ∃ e, doStreamPoll 8 false {} ((encode [.frame frameData [1, 2], .frame frameData [3, 4]]).take 13) =
      some ((wsReadLoop {} [⟨true, [1, 1, 2]⟩]).1, e) ∧ e = .reading (.io .unexpectedEOF) := by
  have hms : CarriesFrames [⟨true, [1, 1, 2]⟩]
      (whole [.frame frameData [1, 2], .frame frameData [3, 4]] 13) := by decide
  obtain ⟨e, hpoll, hread | ⟨r, hr, -⟩⟩ := (wsReadLoop_agrees 8 (by decide) hms false).1 {}
  · exact ⟨e, hpoll, hread.2⟩
  · cases hr

end Pollmux
