import Pollmux.Kit.GoInt
import Pollmux.Reliable

/-!
# The server's configuration and what it negotiates

`ServerConfig` (`handler.go`) with its `check`, `withDefaults` and `limits`, and
the negotiation that `ConnectHandler` does from a `ConnectRequest`. Durations are
`time.Duration` values, nanoseconds in an int64. A handler panics at wiring time
unless `check` accepts its configuration, so everything behind it works with a
`Wiring`, an accepted configuration, and reads it through `withDefaults`.

`SessionIDFunc`, `Logger` and `HighWaterWarn` decide nothing that is modelled.
-/

namespace Pollmux

open Kit

/-! Durations, in nanoseconds. -/

def millisecond : Int := 1000000
def second : Int := 1000 * millisecond
def minute : Int := 60 * second

/-- `Duration.Milliseconds`. -/
def milliseconds (d : Int) : Int := d.tdiv millisecond

def defaultPollTimeout : Int := 30 * second
def defaultSessionTimeout : Int := 2 * defaultPollTimeout
def defaultSweepInterval : Int := 5 * second
def defaultCoalesceWindow : Int := 2 * millisecond
def defaultPollBufferSize : Int := 262144
def defaultMaxSendBytes : Int := 1048576
def defaultHeartbeatInterval : Int := 10 * second
def defaultStreamMaxDuration : Int := 45 * second
def defaultResumeGrace : Int := 30 * second
def maxResumeGrace : Int := 5 * minute
def defaultMaxDetachedResumable : Int := 1024
def batchPollGapAllowance : Int := 10 * second

/-- A `PollMode` string: empty, the two that are implemented, or anything else. -/
inductive PollMode
  | unset
  | batch
  | stream
  | other (name : String)
  deriving DecidableEq, Repr

/-- The configuration as the application writes it. -/
structure ServerConfig where
  pollTimeout : Int := 0
  sessionTimeout : Int := 0
  sweepInterval : Int := 0
  coalesceWindow : Int := 0
  pollBufferSize : Int := 0
  maxSendBytes : Int := 0
  pollMode : PollMode := .unset
  heartbeatInterval : Int := 0
  streamMaxDuration : Int := 0
  enableWebSocket : Bool := false
  enableResume : Bool := false
  resumeGrace : Int := 0
  maxReplayBytes : Int := 0
  maxDetachedResumable : Int := 0
  deriving DecidableEq, Repr

/-- What `check` panics with: the knob and the values it names. -/
inductive WiringErr
  | pollMode (mode : PollMode)
  | sessionTimeout (timeout doubledPollTimeout : Int)
  | streamMaxDuration (duration doubledHeartbeat : Int)
  | resumeGrace (grace limit : Int)
  deriving DecidableEq, Repr

/-- `Limits`, as sent in a `ConnectResponse`. -/
structure Limits where
  maxSendBytes : Int
  pollTimeoutMS : Int
  sessionTimeoutMS : Int
  pollBufferBytes : Int
  heartbeatIntervalMS : Int := 0
  streamMaxDurationMS : Int := 0
  resumeGraceMS : Int := 0
  deriving DecidableEq, Repr

/-- The default of a knob that must be positive. -/
def orDefault (x default : Int) : Int := if x ≤ 0 then default else x

theorem orDefault_pos {x default : Int} (h : 0 < default) : 0 < orDefault x default := by
  unfold orDefault
  split <;> omega

/-- A knob below a bound that its default meets too. -/
theorem orDefault_lt {x default bound : Int} (hx : x < bound) (hd : default < bound) :
    orDefault x default < bound := by
  unfold orDefault
  split
  · exact hd
  · exact hx

/-- A knob with a default above a bound: it is not set, or set above the bound. -/
theorem le_orDefault_iff {x default bound : Int} (hd : bound ≤ default) :
    bound ≤ orDefault x default ↔ x ≤ 0 ∨ bound ≤ x := by
  unfold orDefault
  split
  next hx => exact ⟨fun _ => .inl hx, fun _ => hd⟩
  next hx => exact ⟨.inr, fun h => h.resolve_left hx⟩

namespace ServerConfig

/-- `withDefaults`. -/
def withDefaults (cfg : ServerConfig) : ServerConfig :=
  { cfg with
    pollTimeout := orDefault cfg.pollTimeout defaultPollTimeout
    sessionTimeout := orDefault cfg.sessionTimeout defaultSessionTimeout
    sweepInterval := orDefault cfg.sweepInterval defaultSweepInterval
    coalesceWindow := orDefault cfg.coalesceWindow defaultCoalesceWindow
    pollBufferSize := orDefault cfg.pollBufferSize defaultPollBufferSize
    maxSendBytes := orDefault cfg.maxSendBytes defaultMaxSendBytes
    heartbeatInterval := orDefault cfg.heartbeatInterval defaultHeartbeatInterval
    streamMaxDuration := orDefault cfg.streamMaxDuration defaultStreamMaxDuration
    resumeGrace := orDefault cfg.resumeGrace defaultResumeGrace
    maxReplayBytes := orDefault cfg.maxReplayBytes defaultMaxReplayBytes
    maxDetachedResumable :=
      if cfg.maxDetachedResumable = 0 then defaultMaxDetachedResumable
      else cfg.maxDetachedResumable }

/-- `check`: what it panics with, if it does. The doubled durations wrap as int64 does. -/
def check (cfg : ServerConfig) : Option WiringErr :=
  match cfg.pollMode with
  | .other name => some (.pollMode (.other name))
  | .unset | .batch | .stream =>
    if cfg.sessionTimeout > 0 ∧ cfg.pollTimeout > 0 ∧
        cfg.sessionTimeout < int64 (2 * cfg.pollTimeout) then
      some (.sessionTimeout cfg.sessionTimeout (int64 (2 * cfg.pollTimeout)))
    else if cfg.pollMode = .stream ∧ cfg.streamMaxDuration > 0 ∧ cfg.heartbeatInterval > 0 ∧
        cfg.streamMaxDuration < int64 (2 * cfg.heartbeatInterval) then
      some (.streamMaxDuration cfg.streamMaxDuration (int64 (2 * cfg.heartbeatInterval)))
    else if cfg.resumeGrace > maxResumeGrace then
      some (.resumeGrace cfg.resumeGrace maxResumeGrace)
    else none

/-- `limits`, with the mode as `ConnectHandler` passes it. -/
def limits (cfg : ServerConfig) (stream resumable : Bool) : Limits where
  maxSendBytes := cfg.maxSendBytes
  pollTimeoutMS := milliseconds cfg.pollTimeout
  sessionTimeoutMS := milliseconds cfg.sessionTimeout
  pollBufferBytes := cfg.pollBufferSize
  heartbeatIntervalMS := if stream then milliseconds cfg.heartbeatInterval else 0
  streamMaxDurationMS := if stream then milliseconds cfg.streamMaxDuration else 0
  resumeGraceMS := if resumable then milliseconds cfg.resumeGrace else 0

/-- A configuration that `check` accepts keeps the grace within its cap. -/
theorem resumeGrace_le_of_check {cfg : ServerConfig} (h : cfg.check = none) :
    cfg.resumeGrace ≤ maxResumeGrace := by
  unfold check at h
  split at h
  next => cases h
  all_goals
    split at h
    next => cases h
    next =>
      split at h
      next => cases h
      next =>
        split at h
        next => cases h
        next hle => omega

/-- Where both timeouts are set, `check` has compared them, the doubled one as a word holds it. -/
theorem sessionTimeout_of_check {cfg : ServerConfig} (h : cfg.check = none)
    (hsession : 0 < cfg.sessionTimeout) (hpoll : 0 < cfg.pollTimeout) :
    int64 (2 * cfg.pollTimeout) ≤ cfg.sessionTimeout := by
  unfold check at h
  split at h
  next => cases h
  all_goals
    split at h
    next => cases h
    next hle => exact Int.not_lt.mp fun hlt => hle ⟨hsession, hpoll, hlt⟩

end ServerConfig

/-- A configuration that the handlers accept. -/
structure Wiring where
  cfg : ServerConfig
  ok : cfg.check = none

namespace Wiring

/-- The configuration that the handlers run with. -/
def effective (w : Wiring) : ServerConfig := w.cfg.withDefaults

/-- The grace of a resumable session is positive and at most five minutes. -/
theorem resumeGrace_bounds (w : Wiring) :
    0 < w.effective.resumeGrace ∧ w.effective.resumeGrace ≤ maxResumeGrace := by
  refine ⟨orDefault_pos (by decide), ?_⟩
  show orDefault w.cfg.resumeGrace defaultResumeGrace ≤ maxResumeGrace
  unfold orDefault
  split
  next => decide
  next => exact ServerConfig.resumeGrace_le_of_check w.ok

end Wiring

/-- What a client asks for, as far as `ConnectHandler` decides on it. -/
structure ConnectRequest where
  preferStreamMode : Bool := false
  preferStreamUpload : Bool := false
  preferWebSocket : Bool := false
  preferResume : Bool := false
  batchResume : Bool := false
  pollIntervalMS : Int := 0
  deriving DecidableEq, Repr

/-- `negotiatePollMode`: whether the direction streams. -/
def negotiatePollMode (serverMode : PollMode) (clientPrefersStream : Bool) : Bool :=
  serverMode == .stream && clientPrefersStream

/-- `negotiateResume`. -/
def negotiateResume (cfg : ServerConfig) (req : ConnectRequest)
    (webSocket streamPoll streamUpload : Bool) : Bool :=
  if cfg.enableResume = false ∨ req.preferResume = false then false
  else webSocket || (req.batchResume || (streamPoll && streamUpload))

/-- What `ConnectHandler` settles on for a session. -/
structure Negotiated where
  webSocket : Bool
  streamPoll : Bool
  streamUpload : Bool
  resumable : Bool
  deriving DecidableEq, Repr

/-- The negotiation of `ConnectHandler`. -/
def negotiate (cfg : ServerConfig) (req : ConnectRequest) : Negotiated :=
  let webSocket := cfg.enableWebSocket && req.preferWebSocket
  let streamPoll := negotiatePollMode cfg.pollMode req.preferStreamMode
  let streamUpload := negotiatePollMode cfg.pollMode req.preferStreamUpload
  { webSocket, streamPoll, streamUpload
    resumable := negotiateResume cfg req webSocket streamPoll streamUpload }

/-- The limits that `ConnectHandler` sends back. -/
def Negotiated.limits (n : Negotiated) (cfg : ServerConfig) : Limits :=
  cfg.limits (n.streamPoll || n.streamUpload || n.webSocket) n.resumable

/-- The gap between two polls that `ConnectHandler` grants: only a resumable session that polls
and uploads in batches has one. -/
def Negotiated.pollGap (n : Negotiated) (cfg : ServerConfig) (req : ConnectRequest) : Int :=
  if n.resumable ∧ n.webSocket = false ∧ n.streamUpload = false ∧ n.streamPoll = false then
    int64 (int64 (min (max req.pollIntervalMS 0) (milliseconds cfg.resumeGrace) * millisecond) +
      batchPollGapAllowance)
  else 0

/-- The gap never wraps: the interval it is taken from is cut down to the grace. -/
theorem Negotiated.pollGap_nonneg (w : Wiring) (n : Negotiated) (req : ConnectRequest) :
    0 ≤ n.pollGap w.effective req := by
  obtain ⟨hpos, hle⟩ := w.resumeGrace_bounds
  unfold pollGap
  split
  next =>
    have hms : 0 ≤ milliseconds w.effective.resumeGrace ∧
        milliseconds w.effective.resumeGrace * 1000000 ≤ 300000000000 := by
      have hle : w.effective.resumeGrace ≤ 300000000000 := hle
      rw [milliseconds, millisecond, Int.tdiv_eq_ediv_of_nonneg (Int.le_of_lt hpos)]
      omega
    have hmin : 0 ≤ min (max req.pollIntervalMS 0) (milliseconds w.effective.resumeGrace) ∧
        min (max req.pollIntervalMS 0) (milliseconds w.effective.resumeGrace) ≤
          milliseconds w.effective.resumeGrace := by omega
    have hmul : int64 (min (max req.pollIntervalMS 0) (milliseconds w.effective.resumeGrace) *
        1000000) = min (max req.pollIntervalMS 0) (milliseconds w.effective.resumeGrace) * 1000000 :=
      int64_of_lt (by omega) (by omega)
    rw [show millisecond = 1000000 from rfl, show batchPollGapAllowance = 10000000000 from rfl,
      hmul, int64_of_lt (by omega) (by omega)]
    omega
  next => exact Int.le_refl 0

end Pollmux
