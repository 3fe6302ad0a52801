import Mathlib.Data.List.Perm.Basic
import Mathlib.Logic.Function.Basic
import Pollmux.Config
import Pollmux.Kit.Machine

/-!
# The life of a session

`Session`'s lifecycle fields with the functions on them (`session.go`), and the
`SessionStore` (`store.go`) that holds sessions by id until one of the closing
paths takes them out: `closeSession` (a DELETE, `CloseSession`, a 413 close),
`CloseSessionIfNoPollInFlight`, the sweeper, and `Session.Close`, which touches
the session alone.

`Lifecycle` is a server's store with all sessions ever connected, the clock, the
sweeps and the hook calls that are still owed. Sessions are told apart by a
number, which stands for the pointer, and ids may repeat. A step is one critical
section. The sweeper holds the store's lock from its first scan to its unlock,
so only what needs the session's lock alone can run in between: attaching,
detaching and `Session.Close`. It ranges over the map in any order, and what it
sorts is read without the session's lock, so the order in which it evicts is any
order. A hook runs outside the locks, so it is a step after the close it reports.
-/

namespace Pollmux

open Kit

/-- The reasons that reach `OnDisconnect`. -/
inductive DisconnectReason
  | clientDelete
  | evicted
  | serverClose
  | protocolViolation
  deriving DecidableEq, Repr

/-- A session's lifecycle. `rs` is its reliable layer, if it is resumable, as whether that is
broken. -/
structure Session where
  id : Nat
  rs : Option Bool := none
  resumeGrace : Int := 0
  pollGap : Int := 0
  wsAttached : Bool := false
  pollInFlight : Int := 0
  lastActive : Int
  detachedAt : Int
  closed : Bool := false
  deriving DecidableEq, Repr

namespace Session

/-- `newSession`. -/
def new (id : Nat) (now : Int) : Session := { id, lastActive := now, detachedAt := now }

/-- `enableResume`. -/
def enableResume (s : Session) (grace : Int) : Session :=
  { s with rs := some false, resumeGrace := grace }

/-- The session that `ConnectHandler` publishes. -/
def connect (cfg : ServerConfig) (req : ConnectRequest) (id : Nat) (now : Int) : Session :=
  let n := negotiate cfg req
  let s := if n.resumable then (new id now).enableResume cfg.resumeGrace else new id now
  { s with pollGap := n.pollGap cfg req }

/-- It has a layer, and the layer is not broken. -/
def resumable (s : Session) : Bool := s.rs == some false

/-- `inResumeGraceLocked`. -/
def inResumeGraceLocked (s : Session) (now : Int) : Bool :=
  s.resumable && s.pollInFlight == 0 && decide (now - s.detachedAt ≤ s.resumeGrace)

/-- `resumeExpiredLocked`. -/
def resumeExpiredLocked (s : Session) (now : Int) : Bool :=
  s.resumable && s.pollInFlight == 0 && decide (now - s.detachedAt > s.resumeGrace)

/-- `detachedBeyondPollGapLocked`. -/
def detachedBeyondPollGapLocked (s : Session) (now : Int) : Bool :=
  s.pollInFlight == 0 && decide (now - s.detachedAt > s.pollGap)

/-- `noteDetachedLocked`. -/
def noteDetachedLocked (s : Session) (now : Int) : Session :=
  if s.rs.isSome && s.pollInFlight == 0 then { s with detachedAt := now } else s

/-- `beginPoll`; `none` is the answer false. -/
def beginPoll (s : Session) (now : Int) : Option Session :=
  if s.closed || s.resumeExpiredLocked now then none
  else some { s with pollInFlight := s.pollInFlight + 1 }

/-- `endPoll`. -/
def endPoll (s : Session) (now : Int) : Session :=
  { s with pollInFlight := s.pollInFlight - 1 }.noteDetachedLocked now

/-- `beginWebSocket`. -/
def beginWebSocket (s : Session) (now : Int) : Option Session :=
  if s.closed || s.wsAttached || s.resumeExpiredLocked now then none
  else some { s with wsAttached := true, pollInFlight := s.pollInFlight + 1 }

/-- `endWebSocket`. -/
def endWebSocket (s : Session) (now : Int) : Session :=
  { s with wsAttached := false, pollInFlight := s.pollInFlight - 1 }.noteDetachedLocked now

/-- `refusesAttach`. -/
def refusesAttach (s : Session) (now : Int) : Bool := s.closed || s.resumeExpiredLocked now

/-- `touch`. -/
def touch (s : Session) (now : Int) : Session := { s with lastActive := now }

/-- `rs.markBroken`, by whichever path. -/
def breakLayer (s : Session) : Session := { s with rs := s.rs.map fun _ => true }

/-- The check of `removeAndMarkClosed` on the session itself. -/
def closable (s : Session) (requireIdle : Bool) (now : Int) : Bool :=
  !(s.closed || (requireIdle && (s.pollInFlight != 0 || s.inResumeGraceLocked now)))

/-- A session starts with nothing attached, detached since its creation. -/
theorem connect_spec (cfg : ServerConfig) (req : ConnectRequest) (id : Nat) (now : Int) :
    (connect cfg req id now).pollInFlight = 0 ∧ (connect cfg req id now).detachedAt = now ∧
      (connect cfg req id now).pollGap = (negotiate cfg req).pollGap cfg req := by
  dsimp only [connect]
  split <;> exact ⟨rfl, rfl, rfl⟩

/-- `noteDetachedLocked` changes `detachedAt` alone, and only with nothing attached. -/
theorem noteDetachedLocked_spec (x : Session) (now : Int) :
    (x.noteDetachedLocked now).pollInFlight = x.pollInFlight ∧
      (x.noteDetachedLocked now).rs = x.rs ∧ (x.noteDetachedLocked now).pollGap = x.pollGap ∧
      (x.rs ≠ none → x.pollInFlight = 0 → (x.noteDetachedLocked now).detachedAt = now) := by
  unfold noteDetachedLocked
  split
  next => exact ⟨rfl, rfl, rfl, fun _ _ => rfl⟩
  next h =>
    refine ⟨rfl, rfl, rfl, fun hrs h0 => absurd ?_ h⟩
    simp only [Bool.and_eq_true, beq_iff_eq]
    exact ⟨Option.isSome_iff_ne_none.mpr hrs, h0⟩

/-- Attaching takes an open session that has not outlived its grace, and counts. -/
theorem beginPoll_spec {x x' : Session} {now : Int} (h : x.beginPoll now = some x') :
    x.closed = false ∧ x.resumeExpiredLocked now = false ∧
      x' = { x with pollInFlight := x.pollInFlight + 1 } := by
  unfold beginPoll at h
  split at h
  next => cases h
  next hopen =>
    rw [Bool.not_eq_true, Bool.or_eq_false_iff] at hopen
    exact ⟨hopen.1, hopen.2, (Option.some.inj h).symm⟩

theorem beginWebSocket_spec {x x' : Session} {now : Int} (h : x.beginWebSocket now = some x') :
    x.closed = false ∧ x.resumeExpiredLocked now = false ∧
      x' = { x with wsAttached := true, pollInFlight := x.pollInFlight + 1 } := by
  unfold beginWebSocket at h
  split at h
  next => cases h
  next hopen =>
    rw [Bool.not_eq_true, Bool.or_eq_false_iff, Bool.or_eq_false_iff] at hopen
    exact ⟨hopen.1.1, hopen.2, (Option.some.inj h).symm⟩

end Session

/-- What a run did to a session, recorded beside it: the polls and WebSockets between their begin
and their end, how many ever began, since when there has been none, and whether `Session.Close`
was the first to close it. -/
structure Track where
  polls : Nat := 0
  sockets : Nat := 0
  attaches : Nat := 0
  idleSince : Int := 0
  hushed : Bool := false
  deriving DecidableEq, Repr

/-- Nothing is attached. -/
def Track.Idle (t : Track) : Prop := t.polls + t.sockets = 0

instance (t : Track) : Decidable t.Idle := inferInstanceAs (Decidable (_ = _))

/-- A transport has left. -/
def Track.leave (t : Track) (now : Int) : Track := if t.Idle then { t with idleSince := now } else t

/-- A sweep that holds the store's lock: the time it read before, the entries it has not ranged
over, those it found detached with how many transports had attached to them by then, those it will
evict once it has chosen, and those it has closed. -/
structure Sweep where
  now : Int
  pending : List Nat
  detached : List (Nat × Nat) := []
  toEvict : Option (List (Nat × Nat)) := none
  expired : List Nat := []
  deriving DecidableEq, Repr

/-- The store, its sessions and everything under way. `sessions` are the values of the store's
map, `waiting` the times read by sweeps that wait for the lock, and `owed` the hook calls that a
closing path has still to make. -/
structure Lifecycle where
  now : Int := 0
  session : Nat → Option Session := fun _ => none
  track : Nat → Track := fun _ => {}
  sessions : List Nat := []
  waiting : List Int := []
  sweep : Option Sweep := none
  owed : List (Nat × DisconnectReason) := []
  reports : List (Nat × DisconnectReason) := []

/-- One step. -/
inductive LifeEvent
  /-- Time passes. -/
  | tick (d : Nat)
  /-- A connect publishes a session that it created at `t`. -/
  | connect (p : Nat) (req : ConnectRequest) (id : Nat) (t : Int)
  /-- `beginPoll` succeeds, for a poll or a resume request. -/
  | beginPoll (p : Nat)
  | endPoll (p : Nat)
  | beginWebSocket (p : Nat)
  | endWebSocket (p : Nat)
  | touch (p : Nat)
  | breakLayer (p : Nat)
  /-- `Session.Close`. -/
  | close (p : Nat)
  /-- `closeSession`: a DELETE, `CloseSession` or a protocol violation. -/
  | closeSession (p : Nat) (reason : DisconnectReason)
  /-- `CloseSessionIfNoPollInFlight`. -/
  | closeIfIdle (p : Nat) (reason : DisconnectReason)
  /-- A closing path calls `OnDisconnect`. -/
  | report (p : Nat) (reason : DisconnectReason)
  /-- A sweep reads the time. -/
  | sweepBegin
  /-- The sweep that read `t` takes the lock. -/
  | sweepLock (t : Int)
  /-- The sweep looks at the entry `p`. -/
  | scan (p : Nat)
  /-- The sweep has seen all entries; it sorts what is detached into `order`. -/
  | choose (order : List (Nat × Nat))
  /-- The sweep rechecks the next one it chose. -/
  | evict
  | unlock
  deriving DecidableEq, Repr

namespace Lifecycle

/-- Replace a session. -/
def setSession (l : Lifecycle) (p : Nat) (x : Session) : Lifecycle :=
  { l with session := Function.update l.session p (some x) }

/-- Replace what is recorded of a session. -/
def setTrack (l : Lifecycle) (p : Nat) (t : Track) : Lifecycle :=
  { l with track := Function.update l.track p t }

/-- `delete(st.sessions, id)`. -/
def remove (l : Lifecycle) (id : Nat) : Lifecycle :=
  { l with sessions := l.sessions.filter fun q => (l.session q).map Session.id != some id }

/-- Set `closed` and take the session out of the map. -/
def closeAndRemove (l : Lifecycle) (p : Nat) (x : Session) : Lifecycle :=
  (l.remove x.id).setSession p { x with closed := true }

/-- `removeAndMarkClosed` and what its two callers do: on success they owe a hook call. -/
def removeAndMarkClosed (l : Lifecycle) (p : Nat) (requireIdle : Bool)
    (reason : DisconnectReason) : Option Lifecycle :=
  if l.sweep = none then
    (l.session p).map fun x =>
      if p ∈ l.sessions ∧ x.closable requireIdle l.now then
        { l.closeAndRemove p x with owed := l.owed ++ [(p, reason)] }
      else l
  else none

/-- The sweep closes a session. -/
def expire (l : Lifecycle) (sw : Sweep) (p : Nat) (x : Session) : Lifecycle :=
  { l.closeAndRemove p x with sweep := some { sw with expired := sw.expired ++ [p] } }

/-- The body of the sweep's loop over the map. -/
def scanEntry (timeout : Int) (l : Lifecycle) (sw : Sweep) (p : Nat) (x : Session) : Lifecycle :=
  if x.closed = false ∧ x.pollInFlight = 0 then
    if x.resumable then
      if sw.now - x.detachedAt > x.resumeGrace then l.expire sw p x
      else if x.detachedBeyondPollGapLocked sw.now then
        { l with sweep := some { sw with detached := sw.detached ++ [(p, (l.track p).attaches)] } }
      else { l with sweep := some sw }
    else if sw.now - x.lastActive > timeout then l.expire sw p x
    else { l with sweep := some sw }
  else { l with sweep := some sw }

/-- The body of the sweep's loop over what exceeds the cap. -/
def evictEntry (l : Lifecycle) (sw : Sweep) (p : Nat) (x : Session) : Lifecycle :=
  if x.closed = false ∧ x.detachedBeyondPollGapLocked sw.now then l.expire sw p x
  else { l with sweep := some sw }

/-- `maxDetachedResumable`, as `StartSweeper` sets it. -/
def maxDetached (cfg : ServerConfig) : Nat := cfg.maxDetachedResumable.toNat

/-- One step. -/
def step (w : Wiring) (l : Lifecycle) : LifeEvent → Option Lifecycle
  | .tick d => some { l with now := l.now + d }
  | .connect p req id t =>
    if l.session p = none ∧ t ≤ l.now ∧ l.sweep = none then
      some { (l.setSession p (.connect w.effective req id t)).setTrack p { idleSince := t } with
        sessions := p :: (l.remove id).sessions }
    else none
  | .beginPoll p => do
    let x ← l.session p
    let x' ← x.beginPoll l.now
    let t := l.track p
    some ((l.setSession p x').setTrack p
      { t with polls := t.polls + 1, attaches := t.attaches + 1 })
  | .endPoll p => do
    let x ← l.session p
    let t := l.track p
    if t.polls = 0 then none
    else some ((l.setSession p (x.endPoll l.now)).setTrack p
      ({ t with polls := t.polls - 1 }.leave l.now))
  | .beginWebSocket p => do
    let x ← l.session p
    let x' ← x.beginWebSocket l.now
    let t := l.track p
    some ((l.setSession p x').setTrack p
      { t with sockets := t.sockets + 1, attaches := t.attaches + 1 })
  | .endWebSocket p => do
    let x ← l.session p
    let t := l.track p
    if t.sockets = 0 then none
    else some ((l.setSession p (x.endWebSocket l.now)).setTrack p
      ({ t with sockets := t.sockets - 1 }.leave l.now))
  | .touch p => (l.session p).map fun x => l.setSession p (x.touch l.now)
  | .breakLayer p => (l.session p).map fun x => l.setSession p x.breakLayer
  | .close p => (l.session p).map fun x =>
      (l.setSession p { x with closed := true }).setTrack p
        { l.track p with hushed := (l.track p).hushed || !x.closed }
  | .closeSession p reason => l.removeAndMarkClosed p false reason
  | .closeIfIdle p reason => l.removeAndMarkClosed p true reason
  | .report p reason =>
    if (p, reason) ∈ l.owed then
      some { l with owed := l.owed.erase (p, reason), reports := l.reports ++ [(p, reason)] }
    else none
  | .sweepBegin => some { l with waiting := l.waiting ++ [l.now] }
  | .sweepLock t =>
    if l.sweep = none ∧ t ∈ l.waiting then
      some { l with waiting := l.waiting.erase t, sweep := some { now := t, pending := l.sessions } }
    else none
  | .scan p => do
    let sw ← l.sweep
    let x ← l.session p
    if sw.toEvict = none ∧ p ∈ sw.pending then
      some (l.scanEntry w.effective.sessionTimeout { sw with pending := sw.pending.erase p } p x)
    else none
  | .choose order => do
    let sw ← l.sweep
    if sw.toEvict = none ∧ sw.pending = [] then
      if 0 < maxDetached w.effective ∧ maxDetached w.effective < sw.detached.length then
        if order.isPerm sw.detached then
          some { l with sweep := some { sw with
            toEvict := some (order.take (sw.detached.length - maxDetached w.effective)) } }
        else none
      else some { l with sweep := some { sw with toEvict := some [] } }
    else none
  | .evict => do
    let sw ← l.sweep
    match sw.toEvict with
    | some ((p, _) :: rest) =>
      (l.session p).map (l.evictEntry { sw with toEvict := some rest } p)
    | _ => none
  | .unlock => do
    let sw ← l.sweep
    if sw.toEvict = some [] then
      some { l with sweep := none, owed := l.owed ++ sw.expired.map fun p => (p, .evicted) }
    else none

/-- The session is closed. -/
def Closed (l : Lifecycle) (p : Nat) : Prop := ∃ x, l.session p = some x ∧ x.closed = true

/-- An empty store on a server wired with `w`. -/
def machine (w : Wiring) : Machine Lifecycle LifeEvent where
  init := {}
  step := step w

/-- What the sweep does with an entry: it closes an open session with nothing attached that is
past its time, or puts a resumable one down as detached, or leaves it alone. -/
theorem scanEntry_cases (timeout : Int) (l : Lifecycle) (sw : Sweep) (p : Nat) (x : Session) :
    (x.closed = false ∧ x.pollInFlight = 0 ∧
      (x.resumable = true → sw.now - x.detachedAt > x.resumeGrace) ∧
      (x.resumable = false → sw.now - x.lastActive > timeout) ∧
      l.scanEntry timeout sw p x = l.expire sw p x) ∨
    (x.resumable = true ∧ x.pollInFlight = 0 ∧ l.scanEntry timeout sw p x =
      { l with sweep := some { sw with detached := sw.detached ++ [(p, (l.track p).attaches)] } }) ∨
    l.scanEntry timeout sw p x = { l with sweep := some sw } := by
  unfold scanEntry
  split
  next hidle =>
    split
    next hres =>
      split
      next hlate =>
        refine .inl ⟨hidle.1, hidle.2, fun _ => hlate, fun hnot => ?_, rfl⟩
        rw [hres] at hnot
        cases hnot
      next =>
        split
        next => exact .inr (.inl ⟨hres, hidle.2, rfl⟩)
        next => exact .inr (.inr rfl)
    next hres =>
      split
      next hlate => exact .inl ⟨hidle.1, hidle.2, fun h => absurd h hres, fun _ => hlate, rfl⟩
      next => exact .inr (.inr rfl)
  next => exact .inr (.inr rfl)

/-- What it does with one it chose to evict. -/
theorem evictEntry_cases (l : Lifecycle) (sw : Sweep) (p : Nat) (x : Session) :
    (x.closed = false ∧ x.pollInFlight = 0 ∧ sw.now - x.detachedAt > x.pollGap ∧
      l.evictEntry sw p x = l.expire sw p x) ∨
    l.evictEntry sw p x = { l with sweep := some sw } := by
  unfold evictEntry
  split
  next h =>
    have hgap := h.2
    simp only [Session.detachedBeyondPollGapLocked, Bool.and_eq_true, beq_iff_eq,
      decide_eq_true_eq] at hgap
    exact .inl ⟨h.1, hgap.1, hgap.2, rfl⟩
  next => exact .inr rfl

/-- What `removeAndMarkClosed` does: it closes a session that is in the map, open and, if it must
be, idle and out of its grace, or nothing. -/
theorem removeAndMarkClosed_cases {l l' : Lifecycle} {p : Nat} {requireIdle : Bool}
    {reason : DisconnectReason} (h : l.removeAndMarkClosed p requireIdle reason = some l') :
    l' = l ∨ ∃ x, l.session p = some x ∧ x.closed = false ∧
      (requireIdle = true → x.pollInFlight = 0 ∧ x.inResumeGraceLocked l.now = false) ∧
      l' = { l.closeAndRemove p x with owed := l.owed ++ [(p, reason)] } := by
  unfold removeAndMarkClosed at h
  split at h
  next =>
    obtain ⟨x, hx, rfl⟩ := Option.map_eq_some_iff.mp h
    split
    next hc =>
      have hclosable := hc.2
      simp only [Session.closable, Bool.not_eq_true', Bool.or_eq_false_iff] at hclosable
      refine .inr ⟨x, hx, hclosable.1, fun hreq => ?_, rfl⟩
      have hidle := hclosable.2
      rw [hreq, Bool.true_and, Bool.or_eq_false_iff] at hidle
      exact ⟨by simpa using hidle.1, hidle.2⟩
    next => exact .inl rfl
  next => cases h

/-- **What a step can do**, one constructor for each way it can end. -/
inductive Moves (w : Wiring) (l : Lifecycle) : LifeEvent → Lifecycle → Prop
  | tick (d : Nat) : Moves w l (.tick d) { l with now := l.now + d }
  | connect {p id : Nat} {req : ConnectRequest} {t : Int} (hnew : l.session p = none)
      (ht : t ≤ l.now) (hfree : l.sweep = none) :
      Moves w l (.connect p req id t)
        { (l.setSession p (.connect w.effective req id t)).setTrack p { idleSince := t } with
          sessions := p :: (l.remove id).sessions }
  | beginPoll {p : Nat} {x : Session} (hx : l.session p = some x) (hopen : x.closed = false)
      (hlive : x.resumeExpiredLocked l.now = false) :
      Moves w l (.beginPoll p)
        ((l.setSession p { x with pollInFlight := x.pollInFlight + 1 }).setTrack p
          { l.track p with
            polls := (l.track p).polls + 1, attaches := (l.track p).attaches + 1 })
  | endPoll {p : Nat} {x : Session} (hx : l.session p = some x) (hpos : (l.track p).polls ≠ 0) :
      Moves w l (.endPoll p) ((l.setSession p (x.endPoll l.now)).setTrack p
        ({ l.track p with polls := (l.track p).polls - 1 }.leave l.now))
  | beginWebSocket {p : Nat} {x : Session} (hx : l.session p = some x) (hopen : x.closed = false)
      (hlive : x.resumeExpiredLocked l.now = false) :
      Moves w l (.beginWebSocket p)
        ((l.setSession p { x with wsAttached := true, pollInFlight := x.pollInFlight + 1 }).setTrack p
          { l.track p with
            sockets := (l.track p).sockets + 1, attaches := (l.track p).attaches + 1 })
  | endWebSocket {p : Nat} {x : Session} (hx : l.session p = some x)
      (hpos : (l.track p).sockets ≠ 0) :
      Moves w l (.endWebSocket p) ((l.setSession p (x.endWebSocket l.now)).setTrack p
        ({ l.track p with sockets := (l.track p).sockets - 1 }.leave l.now))
  | touch {p : Nat} {x : Session} (hx : l.session p = some x) :
      Moves w l (.touch p) (l.setSession p (x.touch l.now))
  | breakLayer {p : Nat} {x : Session} (hx : l.session p = some x) :
      Moves w l (.breakLayer p) (l.setSession p x.breakLayer)
  | close {p : Nat} {x : Session} (hx : l.session p = some x) :
      Moves w l (.close p) ((l.setSession p { x with closed := true }).setTrack p
        { l.track p with hushed := (l.track p).hushed || !x.closed })
  | closeSession {p : Nat} {x : Session} {reason : DisconnectReason} (hx : l.session p = some x)
      (hopen : x.closed = false) :
      Moves w l (.closeSession p reason)
        { l.closeAndRemove p x with owed := l.owed ++ [(p, reason)] }
  | closeSessionNot {p : Nat} {reason : DisconnectReason} : Moves w l (.closeSession p reason) l
  | closeIfIdle {p : Nat} {x : Session} {reason : DisconnectReason} (hx : l.session p = some x)
      (hopen : x.closed = false) (hidle : x.pollInFlight = 0)
      (hgrace : x.inResumeGraceLocked l.now = false) :
      Moves w l (.closeIfIdle p reason)
        { l.closeAndRemove p x with owed := l.owed ++ [(p, reason)] }
  | closeIfIdleNot {p : Nat} {reason : DisconnectReason} : Moves w l (.closeIfIdle p reason) l
  | report {p : Nat} {reason : DisconnectReason} (hmem : (p, reason) ∈ l.owed) :
      Moves w l (.report p reason)
        { l with owed := l.owed.erase (p, reason), reports := l.reports ++ [(p, reason)] }
  | sweepBegin : Moves w l .sweepBegin { l with waiting := l.waiting ++ [l.now] }
  | sweepLock {t : Int} (hfree : l.sweep = none) (hmem : t ∈ l.waiting) :
      Moves w l (.sweepLock t)
        { l with waiting := l.waiting.erase t, sweep := some { now := t, pending := l.sessions } }
  | scanExpire {p : Nat} {sw : Sweep} {x : Session} (hsw : l.sweep = some sw)
      (hx : l.session p = some x) (hopen : x.closed = false) (hidle : x.pollInFlight = 0)
      (hgrace : x.resumable = true → sw.now - x.detachedAt > x.resumeGrace)
      (hstamp : x.resumable = false → sw.now - x.lastActive > w.effective.sessionTimeout) :
      Moves w l (.scan p) (l.expire { sw with pending := sw.pending.erase p } p x)
  | scanDetached {p : Nat} {sw : Sweep} {x : Session} (hsw : l.sweep = some sw)
      (hto : sw.toEvict = none) (hx : l.session p = some x) (hres : x.resumable = true)
      (hidle : x.pollInFlight = 0) :
      Moves w l (.scan p) { l with sweep := some { sw with
        pending := sw.pending.erase p
        detached := sw.detached ++ [(p, (l.track p).attaches)] } }
  | scanNot {p : Nat} {sw : Sweep} (hsw : l.sweep = some sw) :
      Moves w l (.scan p) { l with sweep := some { sw with pending := sw.pending.erase p } }
  | choose {order : List (Nat × Nat)} {sw : Sweep} (hsw : l.sweep = some sw)
      (hcap : 0 < maxDetached w.effective ∧ maxDetached w.effective < sw.detached.length)
      (hperm : order.isPerm sw.detached = true) :
      Moves w l (.choose order) { l with sweep := some { sw with
        toEvict := some (order.take (sw.detached.length - maxDetached w.effective)) } }
  | chooseNot {order : List (Nat × Nat)} {sw : Sweep} (hsw : l.sweep = some sw) :
      Moves w l (.choose order) { l with sweep := some { sw with toEvict := some [] } }
  | evict {p a : Nat} {rest : List (Nat × Nat)} {sw : Sweep} {x : Session}
      (hsw : l.sweep = some sw) (hto : sw.toEvict = some ((p, a) :: rest))
      (hx : l.session p = some x) (hopen : x.closed = false) (hidle : x.pollInFlight = 0)
      (hgap : sw.now - x.detachedAt > x.pollGap) :
      Moves w l .evict (l.expire { sw with toEvict := some rest } p x)
  | evictNot {p a : Nat} {rest : List (Nat × Nat)} {sw : Sweep}
      (hsw : l.sweep = some sw) (hto : sw.toEvict = some ((p, a) :: rest)) :
      Moves w l .evict { l with sweep := some { sw with toEvict := some rest } }
  | unlock {sw : Sweep} (hsw : l.sweep = some sw) :
      Moves w l .unlock
        { l with sweep := none, owed := l.owed ++ sw.expired.map fun p => (p, .evicted) }

theorem moves_of_step {w : Wiring} {l l' : Lifecycle} {ev : LifeEvent}
    (hs : l.step w ev = some l') : Moves w l ev l' := by
  cases ev with
  | tick d => cases hs; exact .tick d
  | connect p req id t =>
    simp only [step] at hs
    split at hs
    next hc => cases hs; exact .connect hc.1 hc.2.1 hc.2.2
    next => cases hs
  | beginPoll p =>
    simp only [step, Option.bind_eq_bind, Option.bind_eq_some_iff] at hs
    obtain ⟨x, hx, x', hx', heq⟩ := hs
    cases heq
    obtain ⟨hopen, hlive, rfl⟩ := Session.beginPoll_spec hx'
    exact .beginPoll hx hopen hlive
  | endPoll p =>
    simp only [step, Option.bind_eq_bind, Option.bind_eq_some_iff] at hs
    obtain ⟨x, hx, heq⟩ := hs
    split at heq
    next => cases heq
    next hpos => cases heq; exact .endPoll hx hpos
  | beginWebSocket p =>
    simp only [step, Option.bind_eq_bind, Option.bind_eq_some_iff] at hs
    obtain ⟨x, hx, x', hx', heq⟩ := hs
    cases heq
    obtain ⟨hopen, hlive, rfl⟩ := Session.beginWebSocket_spec hx'
    exact .beginWebSocket hx hopen hlive
  | endWebSocket p =>
    simp only [step, Option.bind_eq_bind, Option.bind_eq_some_iff] at hs
    obtain ⟨x, hx, heq⟩ := hs
    split at heq
    next => cases heq
    next hpos => cases heq; exact .endWebSocket hx hpos
  | touch p =>
    obtain ⟨x, hx, rfl⟩ := Option.map_eq_some_iff.mp hs
    exact .touch hx
  | breakLayer p =>
    obtain ⟨x, hx, rfl⟩ := Option.map_eq_some_iff.mp hs
    exact .breakLayer hx
  | close p =>
    obtain ⟨x, hx, rfl⟩ := Option.map_eq_some_iff.mp hs
    exact .close hx
  | closeSession p reason =>
    rcases removeAndMarkClosed_cases hs with rfl | ⟨x, hx, hopen, _, rfl⟩
    · exact .closeSessionNot
    · exact .closeSession hx hopen
  | closeIfIdle p reason =>
    rcases removeAndMarkClosed_cases hs with rfl | ⟨x, hx, hopen, hidle, rfl⟩
    · exact .closeIfIdleNot
    · exact .closeIfIdle hx hopen (hidle rfl).1 (hidle rfl).2
  | report p reason =>
    simp only [step] at hs
    split at hs
    next hmem => cases hs; exact .report hmem
    next => cases hs
  | sweepBegin => cases hs; exact .sweepBegin
  | sweepLock t =>
    simp only [step] at hs
    split at hs
    next hc => cases hs; exact .sweepLock hc.1 hc.2
    next => cases hs
  | scan p =>
    simp only [step, Option.bind_eq_bind, Option.bind_eq_some_iff] at hs
    obtain ⟨sw, hsw, x, hx, hs⟩ := hs
    split at hs
    next hc =>
      cases hs
      rcases scanEntry_cases w.effective.sessionTimeout l
          { sw with pending := sw.pending.erase p } p x with
        ⟨hopen, hidle, hgrace, hstamp, heq⟩ | ⟨hres, hidle, heq⟩ | heq <;> rw [heq]
      · exact .scanExpire hsw hx hopen hidle hgrace hstamp
      · exact .scanDetached hsw hc.1 hx hres hidle
      · exact .scanNot hsw
    next => cases hs
  | choose order =>
    simp only [step, Option.bind_eq_bind, Option.bind_eq_some_iff] at hs
    obtain ⟨sw, hsw, hs⟩ := hs
    split at hs
    next =>
      split at hs
      next hcap =>
        split at hs
        next hperm => cases hs; exact .choose hsw hcap hperm
        next => cases hs
      next => cases hs; exact .chooseNot hsw
    next => cases hs
  | evict =>
    simp only [step, Option.bind_eq_bind, Option.bind_eq_some_iff] at hs
    obtain ⟨sw, hsw, hs⟩ := hs
    split at hs
    next p a rest hto =>
      obtain ⟨x, hx, rfl⟩ := Option.map_eq_some_iff.mp hs
      rcases evictEntry_cases l { sw with toEvict := some rest } p x with
        ⟨hopen, hidle, hgap, heq⟩ | heq <;> rw [heq]
      · exact .evict hsw hto hx hopen hidle hgap
      · exact .evictNot hsw hto
    next => cases hs
  | unlock =>
    simp only [step, Option.bind_eq_bind, Option.bind_eq_some_iff] at hs
    obtain ⟨sw, hsw, hs⟩ := hs
    split at hs
    next => cases hs; exact .unlock hsw
    next => cases hs

end Lifecycle

end Pollmux
