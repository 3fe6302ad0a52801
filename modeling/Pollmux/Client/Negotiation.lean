import Pollmux.Client.Connect

/-!
# What a client makes of a server's answer

Two questions about the checks of `connect`.

The first is whether a configuration that `check` lets through is one that a
client without a poll interval can connect to. `check` looks at the durations as
they were written, `withDefaults` fills the rest in afterwards, `limits` cuts
everything to milliseconds, and the client has inequalities of its own.
`welcomes_iff` states exactly which wirings come through all of that, in terms of
the durations as they were written: none that the client will look at is set
below a millisecond, a timeout set alone goes with the default that is filled in
for the other one, and two that are both set were compared without an overflow.

The second is how many connect exchanges one call of `Connect` makes with a
server that may answer anything. `connectOn` runs the recursion of `connect` on
a tape of answers. Nothing but the answer stops it: `connectOn_spec` counts one
exchange for each answer at the front of the tape that falls back, and one more,
and `fallsBack_iff` says which answers those are.
-/

namespace Pollmux

open Kit

/-! ## Durations in milliseconds -/

theorem milliseconds_pos_iff {d : Int} (h : 0 < d) : 0 < milliseconds d ↔ millisecond ≤ d := by
  rw [milliseconds, millisecond, Int.tdiv_eq_ediv_of_nonneg (Int.le_of_lt h)]
  omega

/-- A knob that is sent in milliseconds, with a default of at least one. -/
theorem milliseconds_orDefault_pos_iff {x default : Int} (hd : millisecond ≤ default) :
    0 < milliseconds (orDefault x default) ↔ x ≤ 0 ∨ millisecond ≤ x := by
  have hpos : 0 < default := Int.lt_of_lt_of_le (by decide) hd
  rw [milliseconds_pos_iff (orDefault_pos hpos), le_orDefault_iff hd]

/-- Sending a duration in milliseconds cuts it down to a whole number of them. -/
theorem ofMilliseconds_milliseconds {d : Int} (h : 0 < d) (hlt : d < 2 ^ 63) :
    ofMilliseconds (milliseconds d) = d / 1000000 * 1000000 := by
  rw [ofMilliseconds, milliseconds, millisecond, Int.tdiv_eq_ediv_of_nonneg (Int.le_of_lt h)]
  exact int64_of_lt (by omega) (by omega)

/-! ## The checks of a client -/

/-- A connector that is set up correctly and has no poll interval. -/
def Connector.Plain (c : Connector) : Prop :=
  c.baseURL ≠ "" ∧ c.uploadStreamPreference ∈ [PollMode.unset, .batch, .stream] ∧
    c.pollInterval = 0

/-- The checks that an answer passes when a connector without a poll interval accepts it. -/
structure ConnectResponse.Passes (cr : ConnectResponse) : Prop where
  valid : cr.limits.validate = none
  grace : cr.mode.resumable = true → 0 < cr.limits.resumeGraceMS
  resumes : cr.mode.resumable = true → cr.mode.webSocket = false → cr.batchResume = false →
    cr.mode.streamPoll = true ∧ cr.mode.streamUpload = true
  webSocket : cr.mode.webSocket = true → 0 < cr.limits.heartbeatIntervalMS
  stream : cr.mode.webSocket = false → cr.mode.streamPoll = true ∨ cr.mode.streamUpload = true →
    0 < cr.limits.heartbeatIntervalMS ∧ 0 < cr.limits.streamMaxDurationMS
  cycle : cr.mode.webSocket = false →
    ofMilliseconds cr.limits.pollTimeoutMS < ofMilliseconds cr.limits.sessionTimeoutMS
  gap : cr.mode.webSocket = false → cr.mode.resumable = true → cr.mode.streamPoll = false →
    cr.mode.streamUpload = false → 0 < ofMilliseconds cr.limits.resumeGraceMS

/-- `int64` of a word is the word. -/
theorem int64_ofMilliseconds (ms : Int) : int64 (ofMilliseconds ms) = ofMilliseconds ms := by
  rw [ofMilliseconds, int64, int64, Int.bmod_bmod]

/-- One check in a chain of them. -/
theorem check_eq_none_iff {ε : Type} {p : Prop} [Decidable p] {e : ε} {rest : Option ε} :
    (if p then some e else rest) = none ↔ ¬ p ∧ rest = none := by
  by_cases hp : p
  · rw [if_pos hp]
    exact ⟨fun h => absurd h (Option.some_ne_none e), fun h => absurd hp h.1⟩
  · rw [if_neg hp]
    exact ⟨fun h => ⟨hp, h⟩, fun h => h.2⟩

theorem Connector.refuses_eq_none_iff {c : Connector} (hc : c.Plain) (cr : ConnectResponse) :
    c.refuses cr = none ↔ cr.Passes := by
  obtain ⟨hbase, hpref, hzero⟩ := hc
  unfold refuses
  rw [if_neg hbase, if_neg (not_not_intro hpref)]
  cases hv : cr.limits.validate with
  | some e =>
    exact ⟨fun h => absurd h (Option.some_ne_none e),
      fun h => absurd (hv.symm.trans h.valid) (Option.some_ne_none e)⟩
  | none =>
    simp only [hzero, Int.add_zero, int64_ofMilliseconds, check_eq_none_iff]
    cases hw : cr.mode.webSocket with
    | true =>
      simp only [if_true, check_eq_none_iff]
      constructor
      · rintro ⟨hgrace, _, hheart, _⟩
        have hpoll {P : Prop} : cr.mode.webSocket = false → P :=
          fun h => Bool.noConfusion (hw.symm.trans h)
        refine ⟨hv, fun hr => ?_, fun _ => hpoll, fun _ => Int.not_le.mp hheart, hpoll, hpoll, hpoll⟩
        exact Int.not_le.mp fun hle => hgrace ⟨hr, hle⟩
      · intro h
        refine ⟨?_, ?_, Int.not_le.mpr (h.webSocket hw), trivial⟩
        · rintro ⟨hr, hle⟩
          exact absurd (h.grace hr) (Int.not_lt.mpr hle)
        · rintro ⟨_, hfalse, _⟩
          cases hfalse
    | false =>
      simp only [Bool.false_eq_true, if_false, check_eq_none_iff]
      constructor
      · rintro ⟨hgrace, hresume, hheart, hdur, hcycle, hgap, _⟩
        refine ⟨hv, fun hr => ?_, fun hr _ hb => ?_, fun h => Bool.noConfusion (hw.symm.trans h),
          fun _ hs => ?_, fun _ => Int.not_le.mp hcycle, fun _ hr hp hu => ?_⟩
        · exact Int.not_le.mp fun hle => hgrace ⟨hr, hle⟩
        · constructor
          · exact Bool.not_eq_false _ ▸ fun hp => hresume ⟨hr, trivial, hb, .inl hp⟩
          · exact Bool.not_eq_false _ ▸ fun hu => hresume ⟨hr, trivial, hb, .inr hu⟩
        · exact ⟨Int.not_le.mp fun hle => hheart ⟨hs, hle⟩, Int.not_le.mp fun hle => hdur ⟨hs, hle⟩⟩
        · exact Int.not_le.mp fun hle => hgap ⟨hr, hp, hu, hle⟩
      · intro h
        refine ⟨?_, ?_, ?_, ?_, Int.not_le.mpr (h.cycle hw), ?_, trivial⟩
        · rintro ⟨hr, hle⟩
          exact absurd (h.grace hr) (Int.not_lt.mpr hle)
        · rintro ⟨hr, _, hb, hsplit⟩
          obtain ⟨hp, hu⟩ := h.resumes hr hw hb
          rw [hp, hu] at hsplit
          rcases hsplit with hf | hf <;> cases hf
        · rintro ⟨hs, hle⟩
          exact absurd (h.stream hw hs).1 (Int.not_lt.mpr hle)
        · rintro ⟨hs, hle⟩
          exact absurd (h.stream hw hs).2 (Int.not_lt.mpr hle)
        · rintro ⟨hr, hp, hu, hle⟩
          exact absurd (h.gap hw hr hp hu) (Int.not_lt.mpr hle)

/-! ## Which wirings welcome every client -/

namespace Wiring

/-- Every connector without a poll interval accepts the limits of every session that this server
negotiates. -/
def Welcomes (w : Wiring) : Prop :=
  ∀ (c : Connector) (req : ConnectRequest), c.Plain →
    c.refuses (connectResponse w.effective req) = none

/-- The session timeout leaves room for two polls. -/
def Roomy (w : Wiring) : Prop := 2 * w.effective.pollTimeout ≤ w.effective.sessionTimeout

/-- **The durations as the application wrote them**, where zero or less is not set. What is sent in
milliseconds is not set below one. `check` does not compare a timeout that is set with the default
of one that is not, and compares two that are set with the doubled one as a word holds it. -/
structure Workable (w : Wiring) : Prop where
  poll : w.cfg.pollTimeout ≤ 0 ∨ millisecond ≤ w.cfg.pollTimeout
  pollAlone : 0 < w.cfg.pollTimeout → w.cfg.sessionTimeout ≤ 0 → w.cfg.pollTimeout ≤ 30 * second
  sessionAlone : w.cfg.pollTimeout ≤ 0 → 0 < w.cfg.sessionTimeout → 60 * second ≤ w.cfg.sessionTimeout
  both : 0 < w.cfg.pollTimeout → 0 < w.cfg.sessionTimeout → w.cfg.pollTimeout < 2 ^ 62
  grace : w.cfg.enableResume = true → w.cfg.resumeGrace ≤ 0 ∨ millisecond ≤ w.cfg.resumeGrace
  heartbeat : w.cfg.enableWebSocket = true ∨ w.cfg.pollMode = .stream →
    w.cfg.heartbeatInterval ≤ 0 ∨ millisecond ≤ w.cfg.heartbeatInterval
  duration : w.cfg.pollMode = .stream →
    w.cfg.streamMaxDuration ≤ 0 ∨ millisecond ≤ w.cfg.streamMaxDuration

/-- Every duration the handlers run with is positive. -/
theorem effective_pos (w : Wiring) :
    0 < w.effective.pollTimeout ∧ 0 < w.effective.sessionTimeout ∧ 0 < w.effective.resumeGrace ∧
      0 < w.effective.heartbeatInterval ∧ 0 < w.effective.streamMaxDuration ∧
      0 < w.effective.maxSendBytes :=
  ⟨orDefault_pos (by decide), orDefault_pos (by decide), orDefault_pos (by decide),
    orDefault_pos (by decide), orDefault_pos (by decide), orDefault_pos (by decide)⟩

/-- Which of the timeouts are set decides whether the session timeout leaves room for two polls. -/
theorem roomy_iff (w : Wiring) (hsession : w.cfg.sessionTimeout < 2 ^ 63) :
    w.Roomy ↔
      (0 < w.cfg.pollTimeout → w.cfg.sessionTimeout ≤ 0 → w.cfg.pollTimeout ≤ 30 * second) ∧
      (w.cfg.pollTimeout ≤ 0 → 0 < w.cfg.sessionTimeout → 60 * second ≤ w.cfg.sessionTimeout) ∧
      (0 < w.cfg.pollTimeout → 0 < w.cfg.sessionTimeout → w.cfg.pollTimeout < 2 ^ 62) := by
  have hsecond : second = 1000000000 := rfl
  show 2 * orDefault w.cfg.pollTimeout (30 * second) ≤
    orDefault w.cfg.sessionTimeout (2 * (30 * second)) ↔ _
  by_cases hP : 0 < w.cfg.pollTimeout <;> by_cases hS : 0 < w.cfg.sessionTimeout
  · -- both are set: `check` has compared them, unless the doubled poll timeout overflows
    rw [orDefault, orDefault, if_neg (Int.not_le.mpr hP), if_neg (Int.not_le.mpr hS)]
    refine ⟨fun h => ⟨fun _ hle => ?_, fun hle => ?_, fun _ _ => ?_⟩, fun h => ?_⟩
    · omega
    · omega
    · omega
    · have hlt := h.2.2 hP hS
      have hle := w.cfg.sessionTimeout_of_check w.ok hS hP
      rwa [int64_of_lt (by omega) (by omega)] at hle
  · rw [orDefault, orDefault, if_neg (Int.not_le.mpr hP), if_pos (Int.not_lt.mp hS)]
    omega
  · rw [orDefault, orDefault, if_pos (Int.not_lt.mp hP), if_neg (Int.not_le.mpr hS)]
    omega
  · rw [orDefault, orDefault, if_pos (Int.not_lt.mp hP), if_pos (Int.not_lt.mp hS)]
    omega

/-- What is written so makes the session timeout long enough, and so it does what is sent. -/
theorem Workable.roomy {w : Wiring} (h : w.Workable) (hsession : w.cfg.sessionTimeout < 2 ^ 63) :
    w.Roomy :=
  (w.roomy_iff hsession).mpr ⟨h.pollAlone, h.sessionAlone, h.both⟩

/-- The poll timeout that the handlers run with does not round to zero. -/
theorem Workable.pollTimeout_ge {w : Wiring} (h : w.Workable) :
    millisecond ≤ w.effective.pollTimeout :=
  (le_orDefault_iff (by decide)).mpr h.poll

/-- Whatever is resumable was enabled by the server, and streams both ways or resumes batches. -/
theorem negotiateResume_eq_true {cfg : ServerConfig} {req : ConnectRequest}
    {webSocket streamPoll streamUpload : Bool}
    (h : negotiateResume cfg req webSocket streamPoll streamUpload = true) :
    cfg.enableResume = true ∧
      (webSocket = true ∨ req.batchResume = true ∨ streamPoll = true ∧ streamUpload = true) := by
  unfold negotiateResume at h
  split at h
  · cases h
  · next hno =>
    refine ⟨Bool.not_eq_false _ ▸ fun hf => hno (.inl hf), ?_⟩
    simpa only [Bool.or_eq_true, Bool.and_eq_true] using h

/-- What is sent of a resumable session's grace. -/
theorem Workable.grace_pos {w : Wiring} (h : w.Workable) {req : ConnectRequest}
    (hr : (negotiate w.effective req).resumable = true) :
    0 < milliseconds w.effective.resumeGrace :=
  (milliseconds_orDefault_pos_iff (by decide)).mpr (h.grace (negotiateResume_eq_true hr).1)

/-- A workable configuration passes the checks of every client on every session. -/
theorem Workable.passes {w : Wiring} (h : w.Workable) (hpoll : w.cfg.pollTimeout < 2 ^ 63)
    (hsession : w.cfg.sessionTimeout < 2 ^ 63) (req : ConnectRequest) :
    (connectResponse w.effective req).Passes := by
  obtain ⟨hP, hS, hG, _, _, hM⟩ := w.effective_pos
  have hroomy : 2 * w.effective.pollTimeout ≤ w.effective.sessionTimeout := h.roomy hsession
  have hms : 1000000 ≤ w.effective.pollTimeout := h.pollTimeout_ge
  have hpollMS : 0 < milliseconds w.effective.pollTimeout := (milliseconds_pos_iff hP).mpr hms
  have hgrace : (negotiate w.effective req).resumable = true →
      0 < (connectResponse w.effective req).limits.resumeGraceMS := by
    intro hr
    show 0 < if (negotiate w.effective req).resumable = true then
      milliseconds w.effective.resumeGrace else 0
    rw [if_pos hr]
    exact h.grace_pos hr
  have hstream : ∀ {prefers : Bool}, negotiatePollMode w.effective.pollMode prefers = true →
      w.cfg.pollMode = .stream := by
    intro prefers hn
    exact eq_of_beq (Bool.and_eq_true _ _ ▸ hn).1
  refine ⟨?valid, hgrace, ?resumes, ?webSocket, ?stream, ?cycle, ?gap⟩
  case valid =>
    have hsessionMS : 0 < milliseconds w.effective.sessionTimeout := by
      apply (milliseconds_pos_iff hS).mpr
      rw [millisecond]
      omega
    show (if w.effective.maxSendBytes ≤ 0 then some _ else if milliseconds _ ≤ 0 then some _ else
      if milliseconds _ ≤ 0 then some _ else none) = none
    rw [if_neg (Int.not_le.mpr hM), if_neg (Int.not_le.mpr hpollMS),
      if_neg (Int.not_le.mpr hsessionMS)]
  case resumes =>
    intro hr hw hb
    rcases (negotiateResume_eq_true hr).2 with hws | hbatch | hboth
    · exact Bool.noConfusion (hw.symm.trans hws)
    · have hb' : (true && req.batchResume) = false := by
        rw [← hr]
        exact hb
      rw [hbatch] at hb'
      cases hb'
    · exact hboth
  case webSocket =>
    intro hw
    have hon : w.cfg.enableWebSocket = true := (Bool.and_eq_true _ _ ▸ hw).1
    show 0 < if (_ || _ || (negotiate w.effective req).webSocket) = true then
      milliseconds w.effective.heartbeatInterval else 0
    rw [if_pos (by rw [show (negotiate w.effective req).webSocket = true from hw, Bool.or_true])]
    exact (milliseconds_orDefault_pos_iff (by decide)).mpr (h.heartbeat (.inl hon))
  case stream =>
    intro _ hs
    have hmode : w.cfg.pollMode = .stream := hs.elim hstream hstream
    have hon : ((negotiate w.effective req).streamPoll || (negotiate w.effective req).streamUpload ||
        (negotiate w.effective req).webSocket) = true := by
      rw [Bool.or_eq_true, Bool.or_eq_true]
      exact .inl hs
    constructor
    · show 0 < if _ = true then milliseconds w.effective.heartbeatInterval else 0
      rw [if_pos hon]
      exact (milliseconds_orDefault_pos_iff (by decide)).mpr (h.heartbeat (.inr hmode))
    · show 0 < if _ = true then milliseconds w.effective.streamMaxDuration else 0
      rw [if_pos hon]
      exact (milliseconds_orDefault_pos_iff (by decide)).mpr (h.duration hmode)
  case cycle =>
    intro _
    show ofMilliseconds (milliseconds _) < ofMilliseconds (milliseconds _)
    have hP63 : w.effective.pollTimeout < 2 ^ 63 := orDefault_lt hpoll (by decide)
    have hS63 : w.effective.sessionTimeout < 2 ^ 63 := orDefault_lt hsession (by decide)
    rw [ofMilliseconds_milliseconds hP hP63, ofMilliseconds_milliseconds hS hS63]
    omega
  case gap =>
    intro _ hr _ _
    have hpos := h.grace_pos hr
    have hle : w.effective.resumeGrace ≤ 300000000000 := w.resumeGrace_bounds.2
    have hr' : (negotiate w.effective req).resumable = true := hr
    show 0 < ofMilliseconds (if (negotiate w.effective req).resumable = true then _ else 0)
    rw [if_pos hr', ofMilliseconds_milliseconds hG (by omega)]
    rw [milliseconds, millisecond, Int.tdiv_eq_ediv_of_nonneg (Int.le_of_lt hG)] at hpos
    omega

/-- A connector with nothing set but its server. -/
theorem plain_default : ({ baseURL := "http://localhost" } : Connector).Plain :=
  ⟨by decide, by decide, rfl⟩

/-- **Exactly the workable wirings welcome every client and leave room for two polls.** The two
hypotheses say that a `time.Duration` is a word. -/
theorem welcomes_iff (w : Wiring) (hpoll : w.cfg.pollTimeout < 2 ^ 63)
    (hsession : w.cfg.sessionTimeout < 2 ^ 63) : w.Welcomes ∧ w.Roomy ↔ w.Workable := by
  constructor
  · rintro ⟨hwelcome, hroomy⟩
    have hpasses : ∀ req, (connectResponse w.effective req).Passes := fun req =>
      (Connector.refuses_eq_none_iff plain_default _).mp (hwelcome _ req plain_default)
    have hstream : w.cfg.pollMode = .stream → 0 < milliseconds w.effective.heartbeatInterval ∧
        0 < milliseconds w.effective.streamMaxDuration := by
      intro hmode
      have hpoll : (negotiate w.effective { preferStreamMode := true }).streamPoll = true := by
        show (w.cfg.pollMode == .stream && true) = true
        rw [hmode]
        rfl
      have hon := (hpasses { preferStreamMode := true }).stream (Bool.and_false _) (.inl hpoll)
      simp only [connectResponse, Negotiated.limits, ServerConfig.limits, hpoll, Bool.true_or,
        if_true] at hon
      exact hon
    obtain ⟨hpollAlone, hsessionAlone, hboth⟩ := (w.roomy_iff hsession).mp hroomy
    refine ⟨?poll, hpollAlone, hsessionAlone, hboth, ?grace, ?heartbeat,
      fun hmode => (milliseconds_orDefault_pos_iff (by decide)).mp (hstream hmode).2⟩
    case poll =>
      have hvalid := (hpasses {}).valid
      simp only [Limits.validate, check_eq_none_iff] at hvalid
      exact (milliseconds_orDefault_pos_iff (by decide)).mp (Int.not_le.mp hvalid.2.1)
    case grace =>
      intro hon
      have hres : (negotiate w.effective { preferResume := true, batchResume := true }).resumable =
          true := by
        show negotiateResume w.effective { preferResume := true, batchResume := true } _ _ _ = true
        have hon' : w.effective.enableResume = true := hon
        rw [negotiateResume, if_neg (by rw [hon']; decide), Bool.true_or, Bool.or_true]
      have hpos := (hpasses { preferResume := true, batchResume := true }).grace hres
      simp only [connectResponse, Negotiated.limits, ServerConfig.limits, hres, if_true] at hpos
      exact (milliseconds_orDefault_pos_iff (by decide)).mp hpos
    case heartbeat =>
      intro hoffered
      suffices hpos : 0 < milliseconds w.effective.heartbeatInterval from
        (milliseconds_orDefault_pos_iff (by decide)).mp hpos
      rcases hoffered with hon | hmode
      · have hws : (negotiate w.effective { preferWebSocket := true }).webSocket = true := by
          show (w.cfg.enableWebSocket && true) = true
          rw [hon]
          rfl
        have hpos := (hpasses { preferWebSocket := true }).webSocket hws
        simp only [connectResponse, Negotiated.limits, ServerConfig.limits, hws, Bool.or_true,
          if_true] at hpos
        exact hpos
      · exact (hstream hmode).1
  · intro h
    refine ⟨fun c req hc => ?_, h.roomy hsession⟩
    exact (Connector.refuses_eq_none_iff hc _).mpr (h.passes hpoll hsession req)

/-- The defaults are workable, so every client connects to them. -/
theorem welcomes_defaults : Welcomes ⟨{}, rfl⟩ ∧ Roomy ⟨{}, rfl⟩ :=
  (welcomes_iff ⟨{}, rfl⟩ (by decide) (by decide)).mpr
    ⟨by decide, by decide, by decide, by decide, by decide, by decide, by decide⟩

/-- A poll timeout of a minute and nothing else: `check` has no session timeout to hold it against,
and the default that is filled in afterwards is no longer than one poll. -/
theorem minute_poll_unwelcome :
    ∃ w : Wiring, w.cfg = { pollTimeout := 60 * second } ∧
      w.effective.pollTimeout = w.effective.sessionTimeout ∧ ¬ w.Roomy ∧
      ({ baseURL := "http://localhost" } : Connector).refuses
          (connectResponse w.effective (({ baseURL := "http://localhost" } : Connector).request
            false false)) =
        some (.pollCycle 0 (60 * second) (60 * second) (60 * second)) :=
  ⟨⟨{ pollTimeout := 60 * second }, by decide⟩, rfl, by decide, by unfold Roomy; decide, by decide⟩

end Wiring

/-! ## Connecting to any server -/

/-- What one exchange meets: the answer of the server, unless the exchange fails, and whether the
upload probe would pass afterwards. -/
structure Reply where
  answer : Option ConnectResponse
  probe : Bool
  deriving DecidableEq, Repr

/-- How `Connect` ends. -/
inductive ConnectOutcome
  | connected (upload : Upload)
  | refused (e : ConnectErr)
  /-- `doConnect` failed. -/
  | failed
  deriving DecidableEq, Repr

namespace Connector

/-- The checks of `connect` that come before its exchange. -/
def misconfigured (c : Connector) : Option ConnectErr :=
  if c.baseURL = "" then some .baseURL
  else if c.uploadStreamPreference ∉ [PollMode.unset, .batch, .stream] then
    some (.uploadStreamPreference c.uploadStreamPreference)
  else none

/-- The recursion of `connect` on a tape of replies: the requests it makes, one an exchange, and
how it ends, which is `none` if the tape runs out first. -/
def connectOn (c : Connector) :
    Bool → Bool → List Reply → List ConnectRequest × Option ConnectOutcome
  | preferResume, forceBatchUpload, replies =>
    match c.misconfigured with
    | some e => ([], some (.refused e))
    | none =>
      match replies with
      | [] => ([], none)
      | reply :: rest =>
        let req := c.request preferResume forceBatchUpload
        match reply.answer with
        | none => ([req], some .failed)
        | some cr =>
          match c.refuses cr with
          | some e => ([req], some (.refused e))
          | none =>
            match c.establish cr reply.probe with
            | .connected upload => ([req], some (.connected upload))
            | .again preferResume =>
              let later := connectOn c preferResume true rest
              (req :: later.1, later.2)

/-- `Connect` on a tape of replies. -/
def connectTape (c : Connector) (replies : List Reply) : List ConnectRequest × Option ConnectOutcome :=
  c.connectOn c.preferResume false replies

/-- Whether `connect` calls itself again on a reply. -/
def fallsBack (c : Connector) (reply : Reply) : Bool :=
  match reply.answer with
  | none => false
  | some cr =>
    decide (c.refuses cr = none ∧ c.establish cr reply.probe = .again cr.batchResume)

/-- **An answer on which a failed probe makes `connect` ask again**, by what the answer says and the
connector is set to: a resumable session over HTTP that streams its uploads, with limits that the
connector works with, where the connector leaves the way of uploading open. -/
structure HingesOnProbe (c : Connector) (cr : ConnectResponse) : Prop where
  baseURL : c.baseURL ≠ ""
  preference : c.uploadStreamPreference = .unset
  webSocket : cr.mode.webSocket = false
  resumable : cr.mode.resumable = true
  streamUpload : cr.mode.streamUpload = true
  resumes : cr.batchResume = true ∨ cr.mode.streamPoll = true
  maxSendBytes : 0 < cr.limits.maxSendBytes
  pollTimeout : 0 < cr.limits.pollTimeoutMS
  sessionTimeout : 0 < cr.limits.sessionTimeoutMS
  resumeGrace : 0 < cr.limits.resumeGraceMS
  heartbeatInterval : 0 < cr.limits.heartbeatIntervalMS
  streamMaxDuration : 0 < cr.limits.streamMaxDurationMS
  cycle : int64 (ofMilliseconds cr.limits.pollTimeoutMS + c.pollInterval) <
    ofMilliseconds cr.limits.sessionTimeoutMS

/-- The exchange is answered so, and then the probe fails. -/
def ProbesInVain (c : Connector) (reply : Reply) : Prop :=
  reply.probe = false ∧ ∃ cr, reply.answer = some cr ∧ c.HingesOnProbe cr

variable {c : Connector}

/-- The fallback is guarded by the answer and the probe, and by nothing that the recursion passes
down. -/
theorem establish_again_iff {cr : ConnectResponse} {probe preferResume : Bool} :
    c.establish cr probe = .again preferResume ↔
      cr.mode.webSocket = false ∧ cr.mode.resumable = true ∧ cr.mode.streamUpload = true ∧
        c.uploadStreamPreference = .unset ∧ probe = false ∧ preferResume = cr.batchResume := by
  unfold establish
  cases hw : cr.mode.webSocket with
  | true => simp
  | false =>
    cases hr : cr.mode.resumable with
    | true =>
      rw [if_neg (by decide), if_pos rfl]
      by_cases hback : cr.mode.streamUpload = true ∧ c.uploadStreamPreference = .unset ∧
          probe = false
      · rw [if_pos hback]
        simp only [hback, Attempt.again.injEq, true_and]
        exact eq_comm
      · rw [if_neg hback]
        constructor
        · intro h
          split at h <;> cases h
        · rintro ⟨_, _, hu, hpref, hprobe, _⟩
          exact absurd ⟨hu, hpref, hprobe⟩ hback
    | false =>
      simp only [Bool.false_eq_true, if_false, false_and, and_false, iff_false]
      split
      · split
        · simp
        · simp
        all_goals split <;> simp
      · simp

/-- What is left of the checks of `connect` on an answer that offers a resumable upload stream to a
connector that leaves the way of uploading open. -/
theorem refuses_upload_stream {cr : ConnectResponse} (hpref : c.uploadStreamPreference = .unset)
    (hws : cr.mode.webSocket = false) (hres : cr.mode.resumable = true)
    (hup : cr.mode.streamUpload = true) : c.refuses cr = none ↔ c.HingesOnProbe cr := by
  have hlisted : ¬ c.uploadStreamPreference ∉ [PollMode.unset, .batch, .stream] := by
    rw [hpref]
    decide
  unfold refuses
  dsimp only
  rw [check_eq_none_iff, check_eq_none_iff]
  cases hv : cr.limits.validate with
  | some e =>
    refine iff_of_false (fun h => Option.some_ne_none e h.2.2) fun h => ?_
    have hnone : cr.limits.validate = none := by
      simp only [Limits.validate, check_eq_none_iff, Int.not_le]
      exact ⟨h.maxSendBytes, h.pollTimeout, h.sessionTimeout, trivial⟩
    exact Option.some_ne_none e (hv.symm.trans hnone)
  | none =>
    simp only [Limits.validate, check_eq_none_iff, Int.not_le] at hv
    obtain ⟨hsend, hpoll, hsession, -⟩ := hv
    simp only [hws, hres, hup, check_eq_none_iff, Bool.false_eq_true, if_false, Int.not_le, true_and,
      or_true, false_and, and_false, Bool.true_eq_false, or_false, not_and,
      Bool.not_eq_false, and_true]
    constructor
    · rintro ⟨hbase, -, hgrace, hresumes, hheart, hdur, hcycle⟩
      refine ⟨hbase, hpref, hws, hres, hup, ?_, hsend, hpoll, hsession, hgrace, hheart, hdur, hcycle⟩
      cases hbatch : cr.batchResume with
      | true => exact .inl rfl
      | false => exact .inr (hresumes hbatch)
    · intro h
      refine ⟨h.baseURL, hlisted, h.resumeGrace, fun hno => ?_, h.heartbeatInterval,
        h.streamMaxDuration, h.cycle⟩
      exact h.resumes.resolve_left fun hyes => Bool.noConfusion (hno.symm.trans hyes)

/-- **Which replies make `connect` call itself again.** -/
theorem fallsBack_iff {reply : Reply} : c.fallsBack reply = true ↔ c.ProbesInVain reply := by
  unfold fallsBack ProbesInVain
  cases reply.answer with
  | none => exact iff_of_false Bool.false_ne_true fun h => by cases h.2.choose_spec.1
  | some cr =>
    rw [decide_eq_true_eq, establish_again_iff]
    constructor
    · rintro ⟨href, hws, hres, hup, hpref, hprobe, -⟩
      exact ⟨hprobe, cr, rfl, (refuses_upload_stream hpref hws hres hup).mp href⟩
    · rintro ⟨hprobe, cr', heq, h⟩
      cases heq
      refine ⟨?_, h.webSocket, h.resumable, h.streamUpload, h.preference, hprobe, rfl⟩
      exact (refuses_upload_stream h.preference h.webSocket h.resumable h.streamUpload).mpr h

/-- What is found before the exchange is found whatever the answer. -/
theorem refuses_of_misconfigured {e : ConnectErr} (h : c.misconfigured = some e)
    (cr : ConnectResponse) : c.refuses cr = some e := by
  unfold misconfigured at h
  unfold refuses
  split at h
  · next hbase =>
    rw [if_pos hbase]
    exact h
  · next hbase =>
    split at h
    · next hpref =>
      rw [if_neg hbase, if_pos hpref]
      exact h
    · cases h

/-- A connector that makes no exchange does not fall back. -/
theorem misconfigured_of_fallsBack {reply : Reply} (h : c.fallsBack reply = true) :
    c.misconfigured = none := by
  unfold fallsBack at h
  split at h
  · cases h
  · next cr _ =>
    cases hok : c.misconfigured with
    | none => rfl
    | some e =>
      have hnone := (of_decide_eq_true h).1
      rw [refuses_of_misconfigured hok] at hnone
      cases hnone

/-- One exchange: it ends the call, or it falls back and the rest of the tape decides. -/
theorem connectOn_cons (hok : c.misconfigured = none) (preferResume forceBatchUpload : Bool)
    (reply : Reply) (rest : List Reply) :
    (c.fallsBack reply = false ∧ ∃ outcome, c.connectOn preferResume forceBatchUpload (reply :: rest)
      = ([c.request preferResume forceBatchUpload], some outcome)) ∨
    (c.fallsBack reply = true ∧ ∃ again, c.connectOn preferResume forceBatchUpload (reply :: rest) =
      (c.request preferResume forceBatchUpload :: (c.connectOn again true rest).1,
        (c.connectOn again true rest).2)) := by
  rw [connectOn, hok]
  unfold fallsBack
  obtain ⟨answer, probe⟩ := reply
  cases answer with
  | none => exact .inl ⟨rfl, _, rfl⟩
  | some cr =>
    simp only
    cases href : c.refuses cr with
    | some e => exact .inl ⟨decide_eq_false fun h => Option.some_ne_none e h.1, _, rfl⟩
    | none =>
      cases hest : c.establish cr probe with
      | connected upload => exact .inl ⟨decide_eq_false (by simp), _, rfl⟩
      | again again =>
        have hagain : again = cr.batchResume := (establish_again_iff.mp hest).2.2.2.2.2
        exact .inr ⟨decide_eq_true ⟨rfl, by rw [hagain]⟩, again, rfl⟩

/-- **One exchange for each reply at the front that falls back, and one more**; `connect` is still
going when the tape runs out just if every reply of it falls back. -/
theorem connectOn_spec (hok : c.misconfigured = none) (preferResume forceBatchUpload : Bool)
    (replies : List Reply) :
    (c.connectOn preferResume forceBatchUpload replies).1.length =
        min replies.length ((replies.takeWhile c.fallsBack).length + 1) ∧
      ((c.connectOn preferResume forceBatchUpload replies).2 = none ↔
        ∀ reply ∈ replies, c.fallsBack reply = true) := by
  induction replies generalizing preferResume forceBatchUpload with
  | nil =>
    rw [connectOn, hok]
    exact ⟨rfl, iff_of_true rfl (List.forall_mem_nil _)⟩
  | cons reply rest ih =>
    rcases c.connectOn_cons hok preferResume forceBatchUpload reply rest with
      ⟨hstop, outcome, heq⟩ | ⟨hback, again, heq⟩
    · rw [heq, List.takeWhile_cons, hstop, List.forall_mem_cons, hstop]
      refine ⟨?_, iff_of_false (Option.some_ne_none _) fun h => Bool.noConfusion h.1⟩
      simp
    · obtain ⟨hlen, hnone⟩ := ih again true
      rw [heq, List.takeWhile_cons, hback, List.forall_mem_cons]
      refine ⟨?_, hnone.trans ⟨fun h => ⟨hback, h⟩, fun h => h.2⟩⟩
      simp only [List.length_cons, if_true, hlen]
      omega

/-- **Two exchanges at most, unless two probes in a row are in vain.** Against any server, one call
of `Connect` has returned after at most two exchanges, whatever would follow, just if not both of
the first two replies offer a resumable upload stream that the connector would take and that the
probe finds dead. -/
theorem connect_two_exchanges_iff (c : Connector) (server : Nat → Reply) :
    (∀ n, (c.connectTape ((List.range n).map server)).1.length ≤ 2 ∧
      (2 ≤ n → (c.connectTape ((List.range n).map server)).2 ≠ none)) ↔
      ¬ (c.ProbesInVain (server 0) ∧ c.ProbesInVain (server 1)) := by
  rw [← fallsBack_iff, ← fallsBack_iff]
  cases hok : c.misconfigured with
  | some e =>
    have hstop : ∀ replies, c.connectTape replies = ([], some (.refused e)) := by
      intro replies
      rw [connectTape, connectOn.eq_def, hok]
    refine iff_of_true (fun n => ?_) fun h => ?_
    · rw [hstop]
      exact ⟨Nat.zero_le _, fun _ => Option.some_ne_none _⟩
    · rw [misconfigured_of_fallsBack h.1] at hok
      cases hok
  | none =>
    constructor
    · rintro h ⟨h0, h1⟩
      refine (h 2).2 (Nat.le_refl _) ((connectOn_spec hok _ _ _).2.mpr ?_)
      simp [List.range_succ, h0, h1]
    · intro h n
      constructor
      · rw [connectTape, (connectOn_spec hok _ _ _).1]
        have hfront : (((List.range n).map server).takeWhile c.fallsBack).length ≤ 1 ∨ n ≤ 1 := by
          match n with
          | 0 => exact .inr (Nat.zero_le _)
          | 1 => exact .inr (Nat.le_refl _)
          | n + 2 =>
            refine .inl ?_
            rw [List.range_succ_eq_map, List.range_succ_eq_map, List.map_cons, List.map_cons,
              List.map_cons, List.takeWhile_cons]
            cases h0 : c.fallsBack (server 0) with
            | false => exact Nat.zero_le _
            | true =>
              have h1 : c.fallsBack (server 1) = false := Bool.not_eq_true _ ▸ fun h1 => h ⟨h0, h1⟩
              rw [List.takeWhile_cons, h1]
              exact Nat.le_refl _
        rw [List.length_map, List.length_range]
        omega
      · intro hn hnone
        have hall := (connectOn_spec hok _ _ _).2.mp hnone
        apply h
        constructor
        · exact hall _ (List.mem_map.mpr ⟨0, List.mem_range.mpr (by omega), rfl⟩)
        · exact hall _ (List.mem_map.mpr ⟨1, List.mem_range.mpr (by omega), rfl⟩)

/-- A server that keeps to batch uploads when they are asked for does not offer a second stream: the
second request of a call asks for them. -/
theorem not_probesInVain_of_batch {reply : Reply}
    (h : ∀ cr, reply.answer = some cr → cr.mode.streamUpload = false) : ¬ c.ProbesInVain reply := by
  rintro ⟨-, cr, hans, hinges⟩
  exact Bool.noConfusion ((h cr hans).symm.trans hinges.streamUpload)

/-- On the answers of `ConnectHandler` the tape is the model of `connect` against that server. -/
theorem connectTape_connect (c : Connector) (cfg : ServerConfig) (probe : Bool) :
    (c.connectTape [⟨some (connectResponse cfg (c.request c.preferResume false)), probe⟩,
      ⟨some (connectResponse cfg (c.request
        (connectResponse cfg (c.request c.preferResume false)).batchResume true)), probe⟩]).2 =
      match c.connect cfg probe with
      | .ok (.connected upload) => some (.connected upload)
      | .ok (.again _) => none
      | .error e => some (.refused e) := by
  cases hok : c.misconfigured with
  | some e =>
    rw [connectTape, connectOn.eq_def, hok, connect, attempt, refuses_of_misconfigured hok]
  | none =>
    rw [connectTape, connectOn, hok, connect, attempt]
    simp only
    cases href : c.refuses (connectResponse cfg (c.request c.preferResume false)) with
    | some e => rfl
    | none =>
      simp only
      cases hest : c.establish (connectResponse cfg (c.request c.preferResume false)) probe with
      | connected upload => rfl
      | again preferResume =>
        -- the second pass asks for batch uploads, and this server keeps to them
        rw [(establish_again_iff.mp hest).2.2.2.2.2]
        simp only
        rw [connectOn, hok, attempt]
        simp only
        cases href' : c.refuses (connectResponse cfg (c.request
            (connectResponse cfg (c.request c.preferResume false)).batchResume true)) with
        | some e => rfl
        | none =>
          simp only
          cases hest' : c.establish (connectResponse cfg (c.request
              (connectResponse cfg (c.request c.preferResume false)).batchResume true)) probe with
          | connected upload => rfl
          | again preferResume' => exact absurd hest' (establish_forced _ _)

/-- The reply of a server that always negotiates resumable streams, over a path whose upload probe
never passes. -/
def stubborn : Reply where
  answer := some
    { mode := { webSocket := false, streamPoll := true, streamUpload := true, resumable := true }
      limits :=
        { maxSendBytes := 1048576, pollTimeoutMS := 30000, sessionTimeoutMS := 60000,
          pollBufferBytes := 262144, heartbeatIntervalMS := 10000, streamMaxDurationMS := 45000,
          resumeGraceMS := 30000 }
      batchResume := false }
  probe := false

/-- Followed by a batch session, the same reply costs one exchange more and no others. -/
def yielding : Nat → Reply
  | 0 => stubborn
  | _ + 1 =>
    { answer := some (connectResponse (ServerConfig.withDefaults {}) {})
      probe := false }

theorem connect_two_exchanges_yielding :
    ∀ n, (({ baseURL := "http://localhost" } : Connector).connectTape
        ((List.range n).map yielding)).1.length ≤ 2 ∧
      (2 ≤ n → (({ baseURL := "http://localhost" } : Connector).connectTape
        ((List.range n).map yielding)).2 ≠ none) :=
  (connect_two_exchanges_iff _ yielding).mpr fun h =>
    not_probesInVain_of_batch (fun cr hcr => by cases hcr; rfl) h.2

/-- Against the stubborn server `Connect` never returns: however many answers it has had, it has used
them all and asks again. -/
theorem connect_stubborn :
    ({ baseURL := "http://localhost" } : Connector).fallsBack stubborn = true ∧
    ∀ n, (({ baseURL := "http://localhost" } : Connector).connectTape
        (List.replicate n stubborn)).1.length = n ∧
      (({ baseURL := "http://localhost" } : Connector).connectTape (List.replicate n stubborn)).2 =
        none := by
  refine ⟨by decide, fun n => ?_⟩
  have hall : ∀ reply ∈ List.replicate n stubborn,
      ({ baseURL := "http://localhost" } : Connector).fallsBack reply = true := by
    intro reply hreply
    rw [List.eq_of_mem_replicate hreply]
    decide
  obtain ⟨hlen, hnone⟩ := connectOn_spec (c := { baseURL := "http://localhost" }) (by decide)
    false false (List.replicate n stubborn)
  refine ⟨?_, hnone.mpr hall⟩
  show (connectOn _ false false _).1.length = n
  rw [hlen, List.takeWhile_replicate, if_pos (by decide), List.length_replicate]
  omega

end Connector

end Pollmux
