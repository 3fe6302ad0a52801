import Pollmux.Config

/-!
# Connecting

`Connector.connect` (`client.go`, with `connectWebSocket` and `connectResumable`)
from the server's answer to the connection it builds, as far as the upload side
goes: which loop carries the application's bytes and with which sizes. The server
is one whose handlers run with the configuration `cfg`, so the answer is what
`ConnectHandler` makes of the request. Failures of the connect request itself,
dialling, authentication and the timeouts that a `Connector` also sets decide
nothing here.
-/

namespace Pollmux

open Kit

def defaultMaxSendChunk : Int := 524288

/-- The fields of a `Connector` that its upload side depends on. -/
structure Connector where
  baseURL : String
  pollInterval : Int := 0
  maxSendChunk : Int := 0
  preferStream : Bool := false
  uploadStreamPreference : PollMode := .unset
  preferWebSocket : Bool := false
  preferResume : Bool := false
  maxReplayBytes : Int := 0
  deriving DecidableEq, Repr

/-- Why `connect` refuses, with the values its message names. -/
inductive ConnectErr
  | baseURL
  | uploadStreamPreference (preference : PollMode)
  | maxSendBytes (value : Int)
  | pollTimeoutMS (value : Int)
  | sessionTimeoutMS (value : Int)
  | resumeGraceMS (value : Int)
  | cannotBeResumed (streamPoll streamUpload : Bool)
  | webSocketHeartbeatMS (value : Int)
  | streamHeartbeatMS (value : Int)
  | streamMaxDurationMS (value : Int)
  | pollCycle (pollInterval cycle pollTimeout sessionTimeout : Int)
  | pollIntervalReachesGrace (pollInterval resumeGrace : Int)
  deriving DecidableEq, Repr

/-- The `ConnectResponse` of a server. -/
structure ConnectResponse where
  mode : Negotiated
  limits : Limits
  batchResume : Bool
  deriving DecidableEq, Repr

/-- What `ConnectHandler` answers. -/
def connectResponse (cfg : ServerConfig) (req : ConnectRequest) : ConnectResponse where
  mode := negotiate cfg req
  limits := (negotiate cfg req).limits cfg
  batchResume := (negotiate cfg req).resumable && req.batchResume

/-- A limit in milliseconds as a `time.Duration`. -/
def ofMilliseconds (ms : Int) : Int := int64 (ms * millisecond)

/-- `Limits.Validate`. -/
def Limits.validate (l : Limits) : Option ConnectErr :=
  if l.maxSendBytes ≤ 0 then some (.maxSendBytes l.maxSendBytes)
  else if l.pollTimeoutMS ≤ 0 then some (.pollTimeoutMS l.pollTimeoutMS)
  else if l.sessionTimeoutMS ≤ 0 then some (.sessionTimeoutMS l.sessionTimeoutMS)
  else none

/-- What carries a connection's frames: the body of a chunked request, or a WebSocket. -/
inductive Carrier
  | stream
  | webSocket
  deriving DecidableEq, Repr

/-- The loop that uploads in frames: `feedSendStream` over a stream and `writeLoop` over a
WebSocket, or, for a resumable connection, `feedSendStream` and `wsWriteLoop` over a reliable layer
with the given replay bound. `maxFrame` is the length of its buffer. -/
structure FrameUpload where
  carrier : Carrier
  resumable : Bool
  maxFrame : Int
  maxReplay : Int
  eagerAck : Bool
  deriving DecidableEq, Repr

/-- How a connection uploads: in discrete requests of at most `maxSendChunk` bytes, or in
frames. -/
inductive Upload
  | requests (maxSendChunk : Int)
  | frames (loop : FrameUpload)
  deriving DecidableEq, Repr

/-- How one pass through `connect` ends. -/
inductive Attempt
  | connected (upload : Upload)
  /-- The probe failed on a resumable session: `connect` calls itself for batch uploads. -/
  | again (preferResume : Bool)
  deriving DecidableEq, Repr

namespace Connector

/-- The request of `doConnect`. -/
def request (c : Connector) (preferResume forceBatchUpload : Bool) : ConnectRequest where
  preferStreamMode := c.preferStream
  preferStreamUpload := !forceBatchUpload && c.uploadStreamPreference != .batch
  preferWebSocket := c.preferWebSocket
  preferResume := preferResume
  batchResume := preferResume
  pollIntervalMS := milliseconds c.pollInterval

/-- The checks of `connect`, in its order. -/
def refuses (c : Connector) (cr : ConnectResponse) : Option ConnectErr :=
  let l := cr.limits
  let cycle := int64 (ofMilliseconds l.pollTimeoutMS + c.pollInterval)
  if c.baseURL = "" then some .baseURL
  else if c.uploadStreamPreference ∉ [PollMode.unset, .batch, .stream] then
    some (.uploadStreamPreference c.uploadStreamPreference)
  else if let some e := l.validate then some e
  else if cr.mode.resumable ∧ l.resumeGraceMS ≤ 0 then some (.resumeGraceMS l.resumeGraceMS)
  else if cr.mode.resumable ∧ cr.mode.webSocket = false ∧ cr.batchResume = false ∧
      (cr.mode.streamPoll = false ∨ cr.mode.streamUpload = false) then
    some (.cannotBeResumed cr.mode.streamPoll cr.mode.streamUpload)
  else if cr.mode.webSocket then
    if l.heartbeatIntervalMS ≤ 0 then some (.webSocketHeartbeatMS l.heartbeatIntervalMS) else none
  else if (cr.mode.streamPoll ∨ cr.mode.streamUpload) ∧ l.heartbeatIntervalMS ≤ 0 then
    some (.streamHeartbeatMS l.heartbeatIntervalMS)
  else if (cr.mode.streamPoll ∨ cr.mode.streamUpload) ∧ l.streamMaxDurationMS ≤ 0 then
    some (.streamMaxDurationMS l.streamMaxDurationMS)
  else if ofMilliseconds l.sessionTimeoutMS ≤ cycle then
    some (.pollCycle c.pollInterval cycle (ofMilliseconds l.pollTimeoutMS)
      (ofMilliseconds l.sessionTimeoutMS))
  else if cr.mode.resumable ∧ cr.mode.streamPoll = false ∧ cr.mode.streamUpload = false ∧
      ofMilliseconds l.resumeGraceMS ≤ c.pollInterval then
    some (.pollIntervalReachesGrace c.pollInterval (ofMilliseconds l.resumeGraceMS))
  else none

/-- The chunk of a discrete upload, clamped to the server's limit. -/
def effectiveChunk (c : Connector) (l : Limits) : Int :=
  min (orDefault c.maxSendChunk defaultMaxSendChunk) l.maxSendBytes

/-- The frame loop of a connection. Its buffer is sized by `poll_buffer_bytes`, whatever the
carrier and whatever the connector. -/
def frameUpload (c : Connector) (cr : ConnectResponse) (carrier : Carrier) : FrameUpload where
  carrier := carrier
  resumable := cr.mode.resumable
  maxFrame := orDefault cr.limits.pollBufferBytes defaultPollBufferSize
  maxReplay := c.maxReplayBytes
  -- batch polls carry the ack of their direction
  eagerAck := cr.mode.webSocket || cr.mode.streamPoll

/-- The connection that is built once the checks have passed; `probe` says whether
`probeUploadStream` would. -/
def establish (c : Connector) (cr : ConnectResponse) (probe : Bool) : Attempt :=
  if cr.mode.webSocket then .connected (.frames (c.frameUpload cr .webSocket))
  else if cr.mode.resumable then
    if cr.mode.streamUpload ∧ c.uploadStreamPreference = .unset ∧ probe = false then
      .again cr.batchResume
    else if cr.mode.streamUpload then .connected (.frames (c.frameUpload cr .stream))
    else .connected (.requests (c.effectiveChunk cr.limits))
  else if cr.mode.streamUpload then
    match c.uploadStreamPreference with
    | .stream => .connected (.frames (c.frameUpload cr .stream))
    | .batch => .connected (.requests (c.effectiveChunk cr.limits))
    | .unset | .other _ =>
      if probe then .connected (.frames (c.frameUpload cr .stream))
      else .connected (.requests (c.effectiveChunk cr.limits))
  else .connected (.requests (c.effectiveChunk cr.limits))

/-- One pass through `connect`. -/
def attempt (c : Connector) (cfg : ServerConfig) (preferResume forceBatchUpload probe : Bool) :
    Except ConnectErr Attempt :=
  let cr := connectResponse cfg (c.request preferResume forceBatchUpload)
  match c.refuses cr with
  | some e => .error e
  | none => .ok (c.establish cr probe)

/-- `Connect`: a pass, and a second one for batch uploads if the first asks for it. -/
def connect (c : Connector) (cfg : ServerConfig) (probe : Bool) : Except ConnectErr Attempt :=
  match c.attempt cfg c.preferResume false probe with
  | .ok (.again preferResume) => c.attempt cfg preferResume true probe
  | done => done

variable {c : Connector} {cfg : ServerConfig} {probe : Bool}

/-- What a pass establishes it establishes on some answer of the server. -/
theorem attempt_ok {preferResume forceBatchUpload : Bool} {a : Attempt}
    (h : c.attempt cfg preferResume forceBatchUpload probe = .ok a) :
    a = c.establish (connectResponse cfg (c.request preferResume forceBatchUpload)) probe := by
  simp only [attempt] at h
  split at h
  next => cases h
  next => exact (Except.ok.inj h).symm

/-- A pass for batch uploads does not ask for another one. -/
theorem establish_forced (preferResume again : Bool) :
    c.establish (connectResponse cfg (c.request preferResume true)) probe ≠ .again again := by
  have hbatch : (connectResponse cfg (c.request preferResume true)).mode.streamUpload = false :=
    Bool.and_false _
  unfold establish
  rw [hbatch]
  split
  next => nofun
  next => split <;> simp

/-- `Connect` ends with a connection if it does not fail, and with one that was established on an
answer of this server. -/
theorem connect_ok {a : Attempt} (h : c.connect cfg probe = .ok a) :
    ∃ upload req, a = .connected upload ∧
      c.establish (connectResponse cfg req) probe = .connected upload := by
  simp only [connect] at h
  split at h
  next preferResume _ =>
    have ha := attempt_ok h
    cases a with
    | connected upload => exact ⟨upload, _, rfl, ha.symm⟩
    | again p => exact absurd ha.symm (establish_forced _ p)
  next hne =>
    have ha := attempt_ok h
    cases a with
    | connected upload => exact ⟨upload, _, rfl, ha.symm⟩
    | again p => exact absurd h (hne p)

/-- Whatever is established uploads in requests of the clamped size or in frames of the server's
buffer size. -/
theorem establish_cases {cr : ConnectResponse} {upload : Upload}
    (h : c.establish cr probe = .connected upload) :
    upload = .requests (c.effectiveChunk cr.limits) ∨
      ∃ carrier, upload = .frames (c.frameUpload cr carrier) := by
  unfold establish at h
  split at h
  next => cases h; exact .inr ⟨_, rfl⟩
  next =>
    split at h
    next =>
      split at h
      next => cases h
      next =>
        split at h
        next => cases h; exact .inr ⟨_, rfl⟩
        next => cases h; exact .inl rfl
    next =>
      split at h
      next =>
        split at h
        next => cases h; exact .inr ⟨_, rfl⟩
        next => cases h; exact .inl rfl
        all_goals
          split at h
          next => cases h; exact .inr ⟨_, rfl⟩
          next => cases h; exact .inl rfl
      next => cases h; exact .inl rfl

/-- **Discrete uploads are clamped.** No connector sends a request body that is longer than the
server's `MaxSendBytes`. -/
theorem connect_requests_le {chunk : Int}
    (h : c.connect cfg probe = .ok (.connected (.requests chunk))) : chunk ≤ cfg.maxSendBytes := by
  obtain ⟨upload, req, hup, hest⟩ := connect_ok h
  cases hup
  rcases establish_cases hest with heq | ⟨carrier, heq⟩
  · cases heq
    exact Int.min_le_right _ _
  · cases heq

/-- **Framed uploads are not.** The buffer of a frame loop has the server's `PollBufferSize`. -/
theorem connect_maxFrame {loop : FrameUpload} (hpos : 0 < cfg.pollBufferSize)
    (h : c.connect cfg probe = .ok (.connected (.frames loop))) :
    loop.maxFrame = cfg.pollBufferSize := by
  obtain ⟨upload, req, hup, hest⟩ := connect_ok h
  cases hup
  rcases establish_cases hest with heq | ⟨carrier, heq⟩
  · cases heq
  · cases heq
    show orDefault cfg.pollBufferSize _ = _
    rw [orDefault, if_neg (Int.not_le.mpr hpos)]

end Connector

end Pollmux
