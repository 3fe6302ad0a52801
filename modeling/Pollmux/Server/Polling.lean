import Pollmux.Client.Connect
import Pollmux.Server.Disconnect
import Pollmux.Server.Grace

/-!
# A client between its polls

The sweeper judges a session that is not resumable by `lastActive`, which a
request stamps when it starts, against `SessionTimeout`; it spares a session with
a request in flight. So what keeps a polling client alive is that a poll and the
gap after it together fit into the timeout. `Polled` is the store of `Lifecycle`
with one client that keeps a download poll open: its poll is `PollHandler`'s, one
`ReadAvailable` of `PollTimeout` in batch mode, and in stream mode one of
`HeartbeatInterval` after another until one ends past `StreamMaxDuration`.
A wait that data ends goes on for the coalescing window.

Time is held to the deadlines: it does not pass the end of a wait, nor the gap
that the client keeps. Everything else on the server, the client's uploads
included, runs freely. A handler computes and writes in no time; one that blocks
in a write to a client that does not read would hold its poll longer.

`longestPoll` is what the waits add up to (`Download.Kept.ends`), and the session is safe
from the sweeper in every run exactly if that and the gap fit into the timeout
(`never_swept_iff`). In stream mode nothing in `check` or in the client's own
check compares the two.
-/

namespace Pollmux

open Kit

/-- The wait that `PollHandler` hands to `ReadAvailable`. -/
def ServerConfig.pollWait (cfg : ServerConfig) (stream : Bool) : Int :=
  if stream then cfg.heartbeatInterval else cfg.pollTimeout

/-- How long the waits of one poll can add up to. -/
def ServerConfig.longestPoll (cfg : ServerConfig) (stream : Bool) : Int :=
  (if stream then cfg.streamMaxDuration else 0) + cfg.pollWait stream + cfg.coalesceWindow

/-- Where the client's download poll is, and since when. -/
inductive Download
  /-- Not connected. -/
  | away
  /-- No poll since the last one ended, or since the session was created. -/
  | gap (since : Int)
  /-- Between `beginPoll` and `touch`. -/
  | begun
  /-- The poll that stamped the session at `since` waits for the first byte. -/
  | waiting (since till : Int)
  /-- It waits for more bytes. -/
  | coalescing (since till : Int)
  deriving DecidableEq, Repr

namespace Download

/-- The poll counts as in flight. -/
def inFlight : Download → Nat
  | .away | .gap _ => 0
  | .begun | .waiting _ _ | .coalescing _ _ => 1

/-- What time may not pass for a client that keeps the gap `g`. -/
def deadline (g : Int) : Download → Option Int
  | .gap since => some (since + g)
  | .waiting _ till | .coalescing _ till => some till
  | .away | .begun => none

end Download

/-- The store with the download poll of one of its sessions. -/
structure Polled where
  life : Lifecycle := {}
  download : Download := .away

inductive PolledEvent
  /-- Anything else on the server. -/
  | life (ev : LifeEvent)
  /-- The client's connect. -/
  | connect (id : Nat) (t : Int)
  | beginPoll
  | touch
  /-- Data arrives, and the buffer has room for more. -/
  | arrive
  /-- `ReadAvailable` has returned and the stream poll goes on. -/
  | again
  /-- The handler returns. -/
  | endPoll
  deriving DecidableEq, Repr

namespace Polled

/-- The client asks for `req`, its session is number `p`, and it keeps the gap `g`, in
nanoseconds. -/
structure Client where
  req : ConnectRequest
  p : Nat
  g : Nat

/-- The session is over. -/
def closed (s : Polled) (c : Client) : Bool :=
  match s.life.session c.p with
  | some x => x.closed
  | none => false

/-- What the rest of the server may do: time stops at the deadline unless the session is over, and
nobody else ends the client's poll. -/
def permits (s : Polled) (c : Client) : LifeEvent → Bool
  | .tick d => s.closed c || (s.download.deadline c.g).all fun t => decide (s.life.now + d ≤ t)
  | .connect q _ _ _ => decide (q ≠ c.p)
  | .endPoll q => decide (q ≠ c.p ∨ s.download.inFlight < (s.life.track c.p).polls)
  | _ => true

/-- Whether the session streams its downloads. -/
def Client.streams (c : Client) (w : Wiring) : Bool := (negotiate w.effective c.req).streamPoll

/-- A step of the store by the client's own request. -/
def act (w : Wiring) (s : Polled) (ev : LifeEvent) (next : Download) : Option Polled :=
  (s.life.step w ev).map fun l => { life := l, download := next }

def step (w : Wiring) (c : Client) (s : Polled) : PolledEvent → Option Polled
  | .life ev => if s.permits c ev then s.act w ev s.download else none
  | .connect id t =>
    match s.download with
    | .away => if s.life.now ≤ t + c.g then s.act w (.connect c.p c.req id t) (.gap t) else none
    | _ => none
  | .beginPoll =>
    match s.download with
    | .gap _ => s.act w (.beginPoll c.p) .begun
    | _ => none
  | .touch =>
    match s.download with
    | .begun => s.act w (.touch c.p)
        (.waiting s.life.now (s.life.now + w.effective.pollWait (c.streams w)))
    | _ => none
  | .arrive =>
    match s.download with
    | .waiting since _ => some { s with
        download := .coalescing since (s.life.now + w.effective.coalesceWindow) }
    | _ => none
  | .again =>
    match s.download with
    | .waiting since _ | .coalescing since _ =>
      if c.streams w ∧ s.life.now ≤ since + w.effective.streamMaxDuration then
        some { s with
          download := .waiting since (s.life.now + w.effective.pollWait (c.streams w)) }
      else none
    | _ => none
  | .endPoll =>
    match s.download with
    | .waiting _ _ | .coalescing _ _ => s.act w (.endPoll c.p) (.gap s.life.now)
    | _ => none

def machine (w : Wiring) (c : Client) : Machine Polled PolledEvent where
  init := {}
  step := step w c

end Polled

/-! ## What a step of the store does to one session -/

theorem Session.noteDetachedLocked_lastActive (x : Session) (now : Int) :
    (x.noteDetachedLocked now).lastActive = x.lastActive := by
  unfold noteDetachedLocked
  split <;> rfl

/-- A session that is not resumable starts out bare. -/
theorem Session.connect_plain {cfg : ServerConfig} {req : ConnectRequest}
    (h : (negotiate cfg req).resumable = false) (id : Nat) (now : Int) :
    Session.connect cfg req id now = Session.new id now := by
  simp only [connect, Negotiated.pollGap, h, Bool.false_eq_true, if_false, false_and]
  rfl

namespace Lifecycle

/-- **A step, as one session sees it**: its layer, its end and its stamp, and the polls on it. -/
structure Turn (l l' : Lifecycle) (ev : LifeEvent) (p : Nat) (x x' : Session) : Prop where
  rs : x.rs = none → x'.rs = none
  closed : x'.closed = false → x.closed = false
  stamp : x'.lastActive = x.lastActive ∨ x'.lastActive = l.now
  polls : (l.track p).polls ≤ (l'.track p).polls ∨
    ev = .endPoll p ∧ (l.track p).polls = (l'.track p).polls + 1

variable {w : Wiring} {l l' : Lifecycle} {ev : LifeEvent} {p : Nat} {x : Session}

/-- The step is about something else. -/
theorem turn_of_same (hx : l.session p = some x) (hsession : l'.session p = l.session p)
    (htrack : l'.track p = l.track p) : ∃ x', l'.session p = some x' ∧ Turn l l' ev p x x' :=
  ⟨x, hsession.trans hx, id, id, .inl rfl, .inl (by rw [htrack])⟩

/-- The step replaces a session and its record. -/
theorem turn_of_set {q : Nat} {y y' : Session} {t : Track} (hx : l.session p = some x)
    (hy : l.session q = some y) (hsession : l'.session = Function.update l.session q (some y'))
    (htrack : l'.track = Function.update l.track q t) (hturn : q = p → Turn l l' ev p y y') :
    ∃ x', l'.session p = some x' ∧ Turn l l' ev p x x' := by
  by_cases hq : p = q
  · subst hq
    cases hx.symm.trans hy
    exact ⟨y', by rw [hsession, Function.update_self], hturn rfl⟩
  · apply turn_of_same hx
    · rw [hsession, Function.update_of_ne hq]
    · rw [htrack, Function.update_of_ne hq]

/-- The step replaces a session alone. -/
theorem turn_of_setSession {q : Nat} {y y' : Session} (hx : l.session p = some x)
    (hy : l.session q = some y) (hsession : l'.session = Function.update l.session q (some y'))
    (htrack : l'.track = l.track) (hrs : y.rs = none → y'.rs = none)
    (hclosed : y'.closed = false → y.closed = false)
    (hstamp : y'.lastActive = y.lastActive ∨ y'.lastActive = l.now) :
    ∃ x', l'.session p = some x' ∧ Turn l l' ev p x x' := by
  have hsame : l'.track = Function.update l.track q (l.track q) := by
    rw [Function.update_eq_self]
    exact htrack
  exact turn_of_set hx hy hsession hsame fun _ => ⟨hrs, hclosed, hstamp, .inl (by rw [htrack])⟩

/-- Some session is marked closed. -/
theorem turn_of_close {q : Nat} {y : Session} (hx : l.session p = some x)
    (hy : l.session q = some y) (hsession : l'.session = (l.closeAndRemove q y).session)
    (htrack : l'.track = l.track) : ∃ x', l'.session p = some x' ∧ Turn l l' ev p x x' :=
  turn_of_setSession hx hy hsession htrack id (fun h => Bool.noConfusion h)
    (.inl rfl)

/-- A transport leaves some session. -/
theorem turn_of_leave {q : Nat} {y y' : Session} {t : Track} (hx : l.session p = some x)
    (hy : l.session q = some y)
    (hsession : l'.session = Function.update l.session q (some (y'.noteDetachedLocked l.now)))
    (htrack : l'.track = Function.update l.track q (t.leave l.now)) (hrs : y'.rs = y.rs)
    (hclosed : y'.closed = y.closed) (hstamp : y'.lastActive = y.lastActive)
    (hpolls : q = p → (l.track p).polls ≤ t.polls ∨
      ev = .endPoll p ∧ (l.track p).polls = t.polls + 1) :
    ∃ x', l'.session p = some x' ∧ Turn l l' ev p x x' := by
  apply turn_of_set hx hy hsession htrack
  rintro rfl
  refine ⟨fun h => ?_, fun h => ?_, .inl ?_, ?_⟩
  · rw [(Session.noteDetachedLocked_spec _ _).2.1, hrs, h]
  · rwa [Session.noteDetachedLocked_closed, hclosed] at h
  · rw [Session.noteDetachedLocked_lastActive, hstamp]
  · rw [htrack, Function.update_self, Track.leave_polls]
    exact hpolls rfl

theorem turn_step (hs : l.step w ev = some l') (hx : l.session p = some x) :
    ∃ x', l'.session p = some x' ∧ Turn l l' ev p x x' := by
  cases moves_of_step hs with
  | tick | report | sweepBegin | sweepLock | closeSessionNot | closeIfIdleNot =>
    exact turn_of_same hx rfl rfl
  | scanDetached | scanNot | choose | chooseNot | evictNot | unlock =>
    exact turn_of_same hx rfl rfl
  | @connect q id req t hnew _ _ =>
    have hq : p ≠ q := by
      rintro rfl
      rw [hnew] at hx
      cases hx
    exact turn_of_same hx (Function.update_of_ne hq _ _) (Function.update_of_ne hq _ _)
  | beginPoll hy _ _ =>
    apply turn_of_set hx hy rfl rfl
    rintro rfl
    refine ⟨id, id, .inl rfl, .inl ?_⟩
    simp only [setTrack, Function.update_self]
    exact Nat.le_succ _
  | endPoll hy hpos =>
    refine turn_of_leave hx hy rfl rfl rfl rfl rfl ?_
    rintro rfl
    exact .inr ⟨rfl, (Nat.succ_pred hpos).symm⟩
  | beginWebSocket hy _ _ =>
    apply turn_of_set hx hy rfl rfl
    rintro rfl
    refine ⟨id, id, .inl rfl, .inl ?_⟩
    simp only [setTrack, Function.update_self]
    exact Nat.le_refl _
  | endWebSocket hy _ =>
    refine turn_of_leave hx hy rfl rfl rfl rfl rfl ?_
    rintro rfl
    exact .inl (Nat.le_refl _)
  | touch hy => exact turn_of_setSession hx hy rfl rfl id id (.inr rfl)
  | breakLayer hy =>
    refine turn_of_setSession hx hy rfl rfl (fun h => ?_) id (.inl rfl)
    rw [Session.breakLayer, h, Option.map_none]
  | close hy =>
    apply turn_of_set hx hy rfl rfl
    rintro rfl
    refine ⟨id, fun h => Bool.noConfusion h, .inl rfl, .inl ?_⟩
    simp only [setTrack, Function.update_self]
    exact Nat.le_refl _
  | closeSession hy _ => exact turn_of_close hx hy rfl rfl
  | closeIfIdle hy _ _ _ => exact turn_of_close hx hy rfl rfl
  | scanExpire _ hy _ _ _ _ => exact turn_of_close hx hy rfl rfl
  | evict _ _ hy _ _ _ => exact turn_of_close hx hy rfl rfl

/-- Only a tick moves the clock. -/
theorem now_step (hs : l.step w ev = some l') :
    l'.now = l.now ∨ ∃ d : Nat, ev = .tick d ∧ l'.now = l.now + d := by
  cases moves_of_step hs with
  | tick d => exact .inr ⟨d, rfl, rfl⟩
  | _ => exact .inl rfl

/-- **Whom the sweep closes**: an open session with no request in flight that is resumable or was
last stamped longer ago than the timeout. -/
theorem expired_step (hsane : Sane w l) (hs : l.step w ev = some l') {sw' : Sweep}
    (hsw' : l'.sweep = some sw') (hp : p ∈ sw'.expired) :
    (∃ sw, l.sweep = some sw ∧ p ∈ sw.expired) ∨
      ∃ x, l.session p = some x ∧ x.closed = false ∧ x.pollInFlight = 0 ∧
        (x.rs ≠ none ∨ l.now - x.lastActive > w.effective.sessionTimeout) := by
  cases moves_of_step hs with
  | sweepLock =>
    cases hsw'
    cases hp
  | unlock => cases hsw'
  | scanDetached hsw | scanNot hsw | choose hsw | chooseNot hsw | evictNot hsw =>
    cases hsw'
    exact .inl ⟨_, hsw, hp⟩
  | @scanExpire q sw x hsw hx hopen hidle _ hstamp =>
    cases hsw'
    rcases List.mem_append.mp hp with hold | hnew
    · exact .inl ⟨sw, hsw, hold⟩
    · cases List.mem_singleton.mp hnew
      refine .inr ⟨x, hx, hopen, hidle, ?_⟩
      cases hres : x.resumable with
      | true =>
        left
        rw [eq_of_beq hres]
        exact Option.some_ne_none false
      | false =>
        have hnow := (hsane.sweep sw hsw).now_le
        have hlate := hstamp hres
        right
        omega
  | @evict q a rest sw x hsw hto hx hopen hidle _ =>
    cases hsw'
    rcases List.mem_append.mp hp with hold | hnew
    · exact .inl ⟨sw, hsw, hold⟩
    · cases List.mem_singleton.mp hnew
      -- what it chose it had put down as detached, which only resumable sessions are
      have hsweep := hsane.sweep sw hsw
      obtain ⟨⟨y, hy, hrs⟩, _⟩ := hsweep.detached _ ((hsweep.chosen _ hto).1 _ List.mem_cons_self)
      cases hx.symm.trans hy
      exact .inr ⟨x, hx, hopen, hidle, .inl hrs⟩
  | _ => exact .inl ⟨sw', hsw', hp⟩

/-- Nobody but its connect makes a session. -/
theorem absent_step (hs : l.step w ev = some l') (hnone : l.session p = none)
    (hev : ∀ req id t, ev ≠ .connect p req id t) : l'.session p = none := by
  have hset : ∀ {q : Nat} {y y' : Session}, l.session q = some y →
      Function.update l.session q (some y') p = none := by
    intro q y y' hy
    have hq : p ≠ q := by
      rintro rfl
      rw [hnone] at hy
      cases hy
    rw [Function.update_of_ne hq]
    exact hnone
  cases moves_of_step hs with
  | tick | report | sweepBegin | sweepLock | closeSessionNot | closeIfIdleNot => exact hnone
  | scanDetached | scanNot | choose | chooseNot | evictNot | unlock => exact hnone
  | @connect q id req t =>
    have hq : p ≠ q := by
      rintro rfl
      exact hev req id t rfl
    exact (Function.update_of_ne hq _ _).trans hnone
  | beginPoll hy | endPoll hy | beginWebSocket hy | endWebSocket hy => exact hset hy
  | touch hy | breakLayer hy | close hy | closeSession hy | closeIfIdle hy => exact hset hy
  | scanExpire _ hy | evict _ _ hy => exact hset hy

end Lifecycle

/-! ## One step -/

section
variable (cfg : ServerConfig) (stream : Bool) (g now stamp : Int)

/-- Where the download poll of a client that keeps its gap can be, with its session last stamped
at `stamp`. -/
def Download.Kept : Download → Prop
  | .away => False
  | .gap since => since ≤ stamp + cfg.longestPoll stream ∧ now ≤ since + g
  | .begun => True
  | .waiting since till =>
    since ≤ stamp ∧ now ≤ till ∧ till + cfg.coalesceWindow ≤ since + cfg.longestPoll stream
  | .coalescing since till =>
    since ≤ stamp ∧ now ≤ till ∧ till ≤ since + cfg.longestPoll stream

end

namespace Download.Kept

variable {cfg : ServerConfig} {stream : Bool} {g now stamp : Int} {d : Download}

theorem timely (h : d.Kept cfg stream g now stamp) {t : Int} (ht : d.deadline g = some t) :
    now ≤ t := by
  cases d with
  | away | begun => cases ht
  | gap since => cases ht; exact h.2
  | waiting since till | coalescing since till => cases ht; exact h.2.1

/-- Time passes, and the session may be stamped again. -/
theorem later (h : d.Kept cfg stream g now stamp) {now' stamp' : Int} (hstamp : stamp ≤ stamp')
    (hnow : ∀ t, d.deadline g = some t → now' ≤ t) : d.Kept cfg stream g now' stamp' := by
  cases d with
  | away => exact h
  | begun => trivial
  | gap since => exact ⟨by have := h.1; omega, hnow _ rfl⟩
  | waiting since till | coalescing since till =>
    exact ⟨Int.le_trans h.1 hstamp, hnow _ rfl, h.2.2⟩

/-- A poll ends within its longest duration. -/
theorem ends (h : d.Kept cfg stream g now stamp) (hcoalesce : 0 ≤ cfg.coalesceWindow)
    (hwaits : d ≠ .begun) (hopen : d.inFlight = 1) : now ≤ stamp + cfg.longestPoll stream := by
  cases d with
  | away => exact h.elim
  | gap since => cases hopen
  | begun => exact absurd rfl hwaits
  | waiting since till =>
    obtain ⟨hsince, htill, hlong⟩ := h
    omega
  | coalescing since till =>
    obtain ⟨hsince, htill, hlong⟩ := h
    omega

end Download.Kept

theorem Wiring.waits_pos (w : Wiring) (stream : Bool) :
    0 < w.effective.pollWait stream ∧ 0 < w.effective.coalesceWindow ∧
      0 < w.effective.streamMaxDuration := by
  refine ⟨?_, orDefault_pos (by decide), orDefault_pos (by decide)⟩
  unfold ServerConfig.pollWait
  split <;> exact orDefault_pos (by decide)

namespace Polled

/-- **The invariant**: the client's session is not resumable, its poll is where a client that
keeps its gap can be, and no sweep has closed it. -/
structure Inv (w : Wiring) (c : Client) (s : Polled) : Prop where
  sane : Lifecycle.Sane w s.life
  away : s.download = .away → s.life.session c.p = none
  session : s.download ≠ .away → ∃ x, s.life.session c.p = some x ∧ x.rs = none ∧
    x.lastActive ≤ s.life.now ∧ (x.closed = false →
      s.download.Kept w.effective (c.streams w) c.g s.life.now x.lastActive)
  counted : s.download.inFlight ≤ (s.life.track c.p).polls
  spared : ∀ sw, s.life.sweep = some sw → c.p ∉ sw.expired

/-- A poll and the gap after it fit into the session timeout. -/
def Client.Fits (c : Client) (w : Wiring) : Prop :=
  w.effective.longestPoll (c.streams w) + c.g ≤ w.effective.sessionTimeout

/-- The session is one over HTTP that cannot be resumed. -/
def Client.Plain (c : Client) (w : Wiring) : Prop :=
  (negotiate w.effective c.req).webSocket = false ∧ (negotiate w.effective c.req).resumable = false

namespace Inv

variable {w : Wiring} {c : Client} {s : Polled} {ev : LifeEvent} {l : Lifecycle}

theorem init : Inv w c {} where
  sane := Lifecycle.Sane.init w
  away _ := rfl
  session h := absurd rfl h
  counted := Nat.le_refl 0
  spared sw hsw := by cases hsw

/-- An idle session was stamped within the timeout. -/
theorem fresh (hi : Inv w c s) (hfit : c.Fits w) {x : Session}
    (hx : s.life.session c.p = some x) (hopen : x.closed = false) (hidle : x.pollInFlight = 0) :
    x.rs = none ∧ s.life.now - x.lastActive ≤ w.effective.sessionTimeout := by
  have hne : s.download ≠ .away := by
    intro hd
    rw [hi.away hd] at hx
    cases hx
  obtain ⟨y, hy, hrs, _, hkept⟩ := hi.session hne
  cases hx.symm.trans hy
  refine ⟨hrs, ?_⟩
  -- with nothing in flight the client is in its gap
  have hcount := (hi.sane.sound c.p x hx).count
  have hpolls := hi.counted
  have hzero : s.download.inFlight = 0 := by omega
  have hk := hkept hopen
  unfold Client.Fits at hfit
  cases hd : s.download with
  | away => exact absurd hd hne
  | gap since =>
    rw [hd] at hk
    obtain ⟨hsince, hgap⟩ := hk
    omega
  | begun | waiting | coalescing =>
    rw [hd] at hzero
    cases hzero

/-- No step of the store makes the sweep close the session. -/
theorem spares (hi : Inv w c s) (hfit : c.Fits w) (hs : s.life.step w ev = some l) {sw : Sweep}
    (hsw : l.sweep = some sw) : c.p ∉ sw.expired := by
  intro hp
  rcases Lifecycle.expired_step hi.sane hs hsw hp with
    ⟨sw', hsw', hold⟩ | ⟨x, hx, hopen, hidle, hwhy⟩
  · exact hi.spared sw' hsw' hold
  · obtain ⟨hrs, hfresh⟩ := hi.fresh hfit hx hopen hidle
    rcases hwhy with hlayer | hlate
    · exact hlayer hrs
    · omega

/-- The rest of the server takes a step. -/
theorem life_step (hi : Inv w c s) (hfit : c.Fits w) (hp : s.permits c ev = true)
    (hs : s.life.step w ev = some l) : Inv w c { s with life := l } where
  sane := hi.sane.step hs
  away hd := by
    apply Lifecycle.absent_step hs (hi.away hd)
    rintro req id t rfl
    simp [permits] at hp
  session hd := by
    obtain ⟨x, hx, hrs, hpast, hkept⟩ := hi.session hd
    obtain ⟨x', hx', hturn⟩ := Lifecycle.turn_step hs hx
    have hnow : s.life.now ≤ l.now := by
      rcases Lifecycle.now_step hs with heq | ⟨d, -, heq⟩ <;> omega
    have hstamp : x.lastActive ≤ x'.lastActive ∧ x'.lastActive ≤ l.now := by
      rcases hturn.stamp with heq | heq <;> omega
    refine ⟨x', hx', hturn.rs hrs, hstamp.2, fun hopen' => ?_⟩
    have hopen := hturn.closed hopen'
    refine (hkept hopen).later hstamp.1 fun t ht => ?_
    rcases Lifecycle.now_step hs with heq | ⟨d, rfl, heq⟩
    · rw [heq]
      exact (hkept hopen).timely ht
    · -- time stops at the deadline while the session is open
      simp only [permits, closed, hx, hopen, ht, Bool.false_or, Option.all_some,
        decide_eq_true_eq] at hp
      rw [heq]
      exact hp
  counted := by
    have hcount := hi.counted
    cases hx : s.life.session c.p with
    | none =>
      cases hd : s.download with
      | away => exact Nat.zero_le _
      | gap | begun | waiting | coalescing =>
        obtain ⟨x, hx', -⟩ := hi.session (by rw [hd]; simp)
        rw [hx] at hx'
        cases hx'
    | some x =>
      obtain ⟨x', -, hturn⟩ := Lifecycle.turn_step hs hx
      rcases hturn.polls with hle | ⟨rfl, heq⟩
      · exact Nat.le_trans hcount hle
      · simp only [permits, ne_eq, not_true_eq_false, false_or, decide_eq_true_eq] at hp
        dsimp only
        omega
  spared _ := hi.spares hfit hs

/-- The client connects. -/
theorem connect_step (hi : Inv w c s) (hfit : c.Fits w) (hplain : c.Plain w) {id : Nat} {t : Int}
    (hin : s.life.now ≤ t + c.g) (hs : s.life.step w (.connect c.p c.req id t) = some l) :
    Inv w c ⟨l, .gap t⟩ := by
  refine ⟨hi.sane.step hs, fun hd => ?_, fun _ => ?_, Nat.zero_le _, fun _ => hi.spares hfit hs⟩
  · cases hd
  obtain ⟨hwait, hcoalesce, hmax⟩ := w.waits_pos (c.streams w)
  have hlong : 0 ≤ w.effective.longestPoll (c.streams w) := by
    unfold ServerConfig.longestPoll
    split <;> omega
  cases Lifecycle.moves_of_step hs with
  | connect hnew ht hfree =>
    refine ⟨Session.new id t, ?_, rfl, ht, fun _ => ⟨?_, hin⟩⟩
    · rw [← Session.connect_plain hplain.2 id t]
      exact Function.update_self _ _ _
    · show t ≤ t + _
      omega

/-- The client's own request takes a step that leaves the session where it was. -/
theorem act_step (hi : Inv w c s) (hfit : c.Fits w) (hs : s.life.step w ev = some l)
    (hd : s.download ≠ .away) {next : Download} (hnext : next ≠ .away)
    (hcount : next.inFlight ≤ (l.track c.p).polls)
    (hkept : ∀ x x', s.life.session c.p = some x → l.session c.p = some x' →
      x.lastActive ≤ x'.lastActive → x'.closed = false →
      s.download.Kept w.effective (c.streams w) c.g s.life.now x.lastActive →
      next.Kept w.effective (c.streams w) c.g l.now x'.lastActive) : Inv w c ⟨l, next⟩ := by
  obtain ⟨x, hx, hrs, hpast, hk⟩ := hi.session hd
  obtain ⟨x', hx', hturn⟩ := Lifecycle.turn_step hs hx
  have hnow : s.life.now ≤ l.now := by
    rcases Lifecycle.now_step hs with heq | ⟨d, -, heq⟩ <;> omega
  have hstamp : x.lastActive ≤ x'.lastActive ∧ x'.lastActive ≤ l.now := by
    rcases hturn.stamp with heq | heq <;> omega
  refine ⟨hi.sane.step hs, fun h => absurd h hnext, fun _ => ⟨x', hx', hturn.rs hrs, hstamp.2,
    fun hopen => ?_⟩, hcount, fun _ => hi.spares hfit hs⟩
  exact hkept x x' hx hx' hstamp.1 hopen (hk (hturn.closed hopen))

/-- The poll moves on and the store does not. -/
theorem wait_step (hi : Inv w c s) (hd : s.download ≠ .away) {next : Download}
    (hnext : next ≠ .away) (hcount : next.inFlight ≤ s.download.inFlight)
    (hkept : ∀ stamp, s.download.Kept w.effective (c.streams w) c.g s.life.now stamp →
      next.Kept w.effective (c.streams w) c.g s.life.now stamp) :
    Inv w c { s with download := next } := by
  obtain ⟨x, hx, hrs, hpast, hk⟩ := hi.session hd
  exact ⟨hi.sane, fun h => absurd h hnext,
    fun _ => ⟨x, hx, hrs, hpast, fun hopen => hkept _ (hk hopen)⟩,
    Nat.le_trans hcount hi.counted, hi.spared⟩

/-- A stream poll that is not past its duration waits again. -/
theorem again_step (hi : Inv w c s) {since till : Int}
    (hd : s.download = .waiting since till ∨ s.download = .coalescing since till)
    (hstream : c.streams w = true) (hin : s.life.now ≤ since + w.effective.streamMaxDuration) :
    Inv w c ⟨s.life, .waiting since (s.life.now + w.effective.pollWait (c.streams w))⟩ := by
  obtain ⟨hwait, hcoalesce, hmax⟩ := w.waits_pos (c.streams w)
  refine hi.wait_step ?_ (by simp) ?_ fun stamp hk => ?_
  · rcases hd with hd | hd <;> rw [hd] <;> simp
  · rcases hd with hd | hd <;> rw [hd] <;> exact Nat.le_refl _
  · have hsince : since ≤ stamp := by
      rcases hd with hd | hd <;> rw [hd] at hk <;> exact hk.1
    refine ⟨hsince, by omega, ?_⟩
    rw [ServerConfig.longestPoll, if_pos hstream]
    omega

/-- The handler returns. -/
theorem endPoll_step (hi : Inv w c s) (hfit : c.Fits w) {since till : Int}
    (hd : s.download = .waiting since till ∨ s.download = .coalescing since till)
    (hs : s.life.step w (.endPoll c.p) = some l) : Inv w c ⟨l, .gap s.life.now⟩ := by
  obtain ⟨hwait, hcoalesce, hmax⟩ := w.waits_pos (c.streams w)
  have hnow : l.now = s.life.now := by
    rcases Lifecycle.now_step hs with heq | ⟨d, hev, -⟩
    · exact heq
    · cases hev
  refine hi.act_step hfit hs ?_ (by simp) (Nat.zero_le _) fun x x' _ _ hstamp _ hk => ?_
  · rcases hd with hd | hd <;> rw [hd] <;> simp
  · have hend : s.life.now ≤ x.lastActive + w.effective.longestPoll (c.streams w) := by
      apply hk.ends (Int.le_of_lt hcoalesce)
      · rcases hd with hd | hd <;> rw [hd] <;> simp
      · rcases hd with hd | hd <;> rw [hd] <;> rfl
    exact ⟨by omega, by omega⟩

/-- One step keeps the invariant. -/
theorem step (hi : Inv w c s) (hfit : c.Fits w) (hplain : c.Plain w) {ev : PolledEvent}
    {s' : Polled} (hs : s.step w c ev = some s') : Inv w c s' := by
  obtain ⟨hwait, hcoalesce, hmax⟩ := w.waits_pos (c.streams w)
  cases ev with
  | life ev =>
    simp only [Polled.step] at hs
    split at hs
    next hp =>
      obtain ⟨l, hl, rfl⟩ := Option.map_eq_some_iff.mp hs
      exact hi.life_step hfit hp hl
    next => cases hs
  | connect id t =>
    simp only [Polled.step] at hs
    split at hs
    next =>
      split at hs
      next hin =>
        obtain ⟨l, hl, rfl⟩ := Option.map_eq_some_iff.mp hs
        exact hi.connect_step hfit hplain hin hl
      next => cases hs
    next => cases hs
  | beginPoll =>
    simp only [Polled.step] at hs
    split at hs
    next since hd =>
      obtain ⟨l, hl, rfl⟩ := Option.map_eq_some_iff.mp hs
      refine hi.act_step hfit hl (by rw [hd]; simp) (by simp) ?_ fun _ _ _ _ _ _ _ => trivial
      cases Lifecycle.moves_of_step hl with
      | beginPoll hx _ _ =>
        simp only [Lifecycle.setTrack, Function.update_self]
        exact Nat.le_add_left _ _
    next => cases hs
  | touch =>
    simp only [Polled.step] at hs
    split at hs
    next hd =>
      obtain ⟨l, hl, rfl⟩ := Option.map_eq_some_iff.mp hs
      have hcount := hi.counted
      rw [hd] at hcount
      cases Lifecycle.moves_of_step hl with
      | touch hx =>
        refine hi.act_step hfit hl (by rw [hd]; simp) (by simp) hcount ?_
        intro y y' hy hy' _ _ _
        simp only [Lifecycle.setSession, Function.update_self, Option.some.injEq] at hy'
        subst hy'
        refine ⟨Int.le_refl _, ?_, ?_⟩
        · show s.life.now ≤ s.life.now + _
          omega
        · unfold ServerConfig.longestPoll
          split <;> omega
    next => cases hs
  | arrive =>
    simp only [Polled.step] at hs
    split at hs
    next since till hd =>
      cases hs
      refine hi.wait_step (by rw [hd]; simp) (by simp) (by rw [hd]; exact Nat.le_refl _) ?_
      rw [hd]
      rintro stamp ⟨hsince, htill, hlong⟩
      exact ⟨hsince, by omega, by omega⟩
    next => cases hs
  | again =>
    simp only [Polled.step] at hs
    split at hs
    next since till hd =>
      split at hs
      next hg => cases hs; exact hi.again_step (.inl hd) hg.1 hg.2
      next => cases hs
    next since till hd =>
      split at hs
      next hg => cases hs; exact hi.again_step (.inr hd) hg.1 hg.2
      next => cases hs
    next => cases hs
  | endPoll =>
    simp only [Polled.step] at hs
    split at hs
    next since till hd =>
      obtain ⟨l, hl, rfl⟩ := Option.map_eq_some_iff.mp hs
      exact hi.endPoll_step hfit (.inl hd) hl
    next since till hd =>
      obtain ⟨l, hl, rfl⟩ := Option.map_eq_some_iff.mp hs
      exact hi.endPoll_step hfit (.inr hd) hl
    next => cases hs

theorem reachable (hfit : c.Fits w) (hplain : c.Plain w) (h : (machine w c).Reachable s) :
    Inv w c s :=
  Machine.Reach.invariant (P := Inv w c) init
    (fun _ _ _ _ hi _ hs => hi.step hfit hplain hs) h

end Inv

/-! ## Every run, and the run that spoils it -/

section
variable {w : Wiring} {c : Client}

/-- The store at the time `now`, with the client's first poll open since time 0. -/
def opened (c : Client) (now : Int) : Lifecycle where
  now := now
  session := Function.update (fun _ => none) c.p (some { Session.new 0 0 with pollInFlight := 1 })
  track := Function.update (fun _ => {}) c.p { polls := 1, attaches := 1 }
  sessions := [c.p]

theorem opened_reachable (hplain : c.Plain w) :
    (machine w c).Reachable ⟨opened c 0, .waiting 0 (0 + w.effective.pollWait (c.streams w))⟩ := by
  have hconnect : Session.connect w.effective c.req 0 0 = Session.new 0 0 :=
    Session.connect_plain hplain.2 0 0
  have hrun : (machine w c).run (machine w c).init [.connect 0 0, .beginPoll, .touch] =
      some ⟨opened c 0, .waiting 0 (0 + w.effective.pollWait (c.streams w))⟩ := by
    simp [Machine.run, machine, step, act, Lifecycle.step, hconnect, opened,
      Lifecycle.setSession, Lifecycle.setTrack, Lifecycle.remove, Session.beginPoll, Session.new,
      Session.resumeExpiredLocked, Session.resumable, Session.touch]
  exact Machine.Reachable.run ((machine w c).reachable_final []) hrun

/-- Time passes, up to the deadline. -/
theorem opened_tick {now till : Int} {d : Download} (now' : Int)
    (h : (machine w c).Reachable ⟨opened c now, d⟩) (hd : d.deadline c.g = some till)
    (hle : now ≤ now') (hle' : now' ≤ till) : (machine w c).Reachable ⟨opened c now', d⟩ := by
  have hnat : now + ((now' - now).toNat : Int) = now' := by omega
  have hp : permits ⟨opened c now, d⟩ c (.tick (now' - now).toNat) = true := by
    simp only [permits, hd, Option.all_some, opened, hnat, hle', decide_true, Bool.or_true]
  apply h.next (a := .life (.tick (now' - now).toNat))
  show (if _ then _ else _) = _
  rw [if_pos hp]
  simp only [act, Lifecycle.step, Option.map_some, opened, hnat]

/-- A stream poll waits again and again until its duration is over. -/
theorem opened_stream (hplain : c.Plain w) (hstream : c.streams w = true) (n : Nat)
    (hn : (n : Int) ≤ w.effective.streamMaxDuration) :
    (machine w c).Reachable
      ⟨opened c n, .waiting 0 (n + w.effective.pollWait (c.streams w))⟩ := by
  obtain ⟨hwait, -, -⟩ := w.waits_pos (c.streams w)
  induction n with
  | zero => exact opened_reachable hplain
  | succ n ih =>
    have hbefore := ih (by omega)
    have htick := opened_tick (n + 1) hbefore rfl (by omega) (by omega)
    apply htick.next (a := .again)
    show (if _ then _ else _) = _
    rw [if_pos ⟨hstream, by simp only [opened]; omega⟩]
    simp only [opened, Nat.cast_add, Nat.cast_one]

/-- The last wait of a poll begins when its duration is over. -/
theorem opened_last (hplain : c.Plain w) :
    ∃ now : Int, now = (if c.streams w then w.effective.streamMaxDuration else 0) ∧
      (machine w c).Reachable
        ⟨opened c now, .waiting 0 (now + w.effective.pollWait (c.streams w))⟩ := by
  cases hstream : c.streams w with
  | false =>
    refine ⟨0, rfl, ?_⟩
    have h := opened_reachable hplain
    rwa [hstream] at h
  | true =>
    obtain ⟨-, -, hmax⟩ := w.waits_pos true
    have h := opened_stream hplain hstream w.effective.streamMaxDuration.toNat (by omega)
    rw [Int.toNat_of_nonneg (Int.le_of_lt hmax), hstream] at h
    exact ⟨_, rfl, h⟩

/-- A poll can be held for the whole of `longestPoll`: data arrives at the end of its last wait. -/
theorem opened_longest (hplain : c.Plain w) :
    ∃ till, (machine w c).Reachable
      ⟨opened c (w.effective.longestPoll (c.streams w)), .coalescing 0 till⟩ := by
  obtain ⟨hwait, hcoalesce, -⟩ := w.waits_pos (c.streams w)
  obtain ⟨now, hnow, h⟩ := opened_last hplain
  have htick := opened_tick (now + w.effective.pollWait (c.streams w)) h rfl (by omega)
    (Int.le_refl _)
  have harrive := htick.next (a := .arrive) rfl
  refine ⟨_, opened_tick _ harrive rfl ?_ (Int.le_of_eq ?_)⟩
  · rw [ServerConfig.longestPoll, ← hnow]
    omega
  · rw [ServerConfig.longestPoll, ← hnow]
    rfl

/-- The rest of an unlucky run: the poll ends, the client waits out its gap, and a sweep runs just
before it polls again. -/
def unlucky (c : Client) (now : Int) : List PolledEvent :=
  [.endPoll, .life (.tick c.g), .life .sweepBegin, .life (.sweepLock (now + c.g)),
    .life (.scan c.p)]

theorem unlucky_expires {now till : Int} (hlate : w.effective.sessionTimeout < now + c.g) :
    ∃ s sw, (machine w c).run ⟨opened c now, .coalescing 0 till⟩ (unlucky c now) = some s ∧
      s.life.sweep = some sw ∧ c.p ∈ sw.expired := by
  simp [unlucky, Machine.run, machine, step, act, permits, closed, Download.deadline,
    Lifecycle.step, opened, Lifecycle.setSession, Lifecycle.setTrack, Session.endPoll,
    Session.noteDetachedLocked, Session.new, Lifecycle.scanEntry, Session.resumable, hlate,
    Lifecycle.expire]

/-- **A client that keeps its gap is safe from the sweeper exactly if a poll and a gap fit into the
session timeout.** -/
theorem never_swept_iff (w : Wiring) (c : Client) (hplain : c.Plain w) :
    (∀ s, (machine w c).Reachable s → ∀ sw, s.life.sweep = some sw → c.p ∉ sw.expired) ↔
      c.Fits w := by
  constructor
  · intro hnever
    apply Int.not_lt.mp
    intro hlate
    obtain ⟨till, h⟩ := opened_longest hplain
    obtain ⟨s, sw, hrun, hsw, hp⟩ := unlucky_expires hlate
    exact hnever s (h.run hrun) sw hsw hp
  · intro hfit s hs
    exact (Inv.reachable hfit hplain hs).spared

/-- With the default configuration a batch client may stay away for ten seconds. -/
theorem never_swept_batch :
    Client.Fits ⟨{}, 0, 10000000000⟩ ⟨{}, rfl⟩ ∧
      ∀ s, (machine ⟨{}, rfl⟩ ⟨{}, 0, 10000000000⟩).Reachable s →
        ∀ sw, s.life.sweep = some sw → 0 ∉ sw.expired := by
  have hfits : Client.Fits ⟨{}, 0, 10000000000⟩ ⟨{}, rfl⟩ := by
    show _ ≤ _
    decide
  exact ⟨hfits, (never_swept_iff ⟨{}, rfl⟩ ⟨{}, 0, 10000000000⟩ ⟨by decide, by decide⟩).mpr hfits⟩

/-- A server with the default durations that lets clients stream. -/
def streaming : Wiring := ⟨{ pollMode := .stream }, by decide⟩

/-- A client that streams downloads alone. -/
def streamer : Connector :=
  { baseURL := "http://localhost", preferStream := true, uploadStreamPreference := .batch }

/-- It stays away for up to fifteen seconds. -/
def leisurely : Client := ⟨streamer.request false false, 0, 15000000000⟩

/-- One idle stream poll: heartbeats after 10, 20, 30 and 40 seconds, and after 50 the stream ends.
The client is back within its gap, eleven seconds later; a sweep comes first. -/
def idleStream : List PolledEvent :=
  [.connect 7 0, .beginPoll, .touch] ++
    (List.replicate 4 [.life (.tick 10000000000), .again]).flatten ++
    [.life (.tick 10000000000), .endPoll, .life (.tick 11000000000), .life .sweepBegin,
      .life (.sweepLock 61000000000), .life (.scan 0)]

/-- A healthy stream client is evicted: its poll lasted fifty seconds, its gap eleven, and all
checks compare the gap with a poll timeout of thirty. -/
theorem idleStream_swept :
    leisurely.Plain streaming ∧
      streaming.effective.pollTimeout + leisurely.g < streaming.effective.sessionTimeout ∧
      streamer.refuses (connectResponse streaming.effective leisurely.req) = none ∧
      ((machine streaming leisurely).run {} idleStream).any
        (fun s => s.life.sweep.any fun sw => sw.expired.contains leisurely.p) = true :=
  ⟨⟨by decide, by decide⟩, by decide, by decide, by decide⟩

end

end Polled

end Pollmux
