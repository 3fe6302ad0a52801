import Pollmux.Server.Attachments
import Pollmux.Server.Store

/-!
# A WebSocket that replaces another

`WebSocketHandler` (`websocket.go`) on a resumable session past its lookup
checks. Two pieces of state decide whether a request is served: the attachment
slots, both of which it claims first, and the session's `wsAttached` flag, which
`beginWebSocket` then tests and sets. `Sockets` puts the two together, with any
number of WebSocket requests, of resume handshakes and of polls that are only
counted, since a WebSocket session answers a poll with 400.

The order of the handler's deferred calls is the heart of the matter: the pumps
return, `endWebSocket` clears the flag, and only then does `detach` release the
slots. So the flag is up only while its handler owns both slots (`Inv.flag`,
`Inv.held`), and whoever is granted both finds it down. A `beginWebSocket` that
fails therefore fails because the session is closed or its grace has run out, and
`refusesAttach`, which looks again a moment later, must still see that: nothing
attaches any more, and the layer breaks only under a transport or a handshake
that is counted.

Past `beginWebSocket` a request may still fail: `websocket.Accept` refuses what is
not an upgrade, with an answer of its own, and a handler that was kicked meanwhile
closes the new connection. Both leave as a handler does whose pumps have returned
(`pumpsExit`), and neither is one of the answers that `answered` records.
-/

namespace Pollmux

open Kit

/-- How far a WebSocket request has come. -/
inductive SocketPc
  /-- In `attach`, or before it. -/
  | attaching
  /-- `beginWebSocket` answered false. -/
  | refused
  /-- Past `beginWebSocket`, in `websocket.Accept` or with both pumps running. -/
  | serving
  /-- Both pumps have returned, or there are none because `websocket.Accept` failed. -/
  | drained
  /-- The handler is about to return, with the status it refused with, itself, if it did. -/
  | answered (status : Option Nat)
  deriving DecidableEq, Repr

/-- Between `beginWebSocket` and `endWebSocket`. -/
def SocketPc.Inside : SocketPc → Prop
  | .serving | .drained => True
  | .attaching | .refused | .answered _ => False

/-- Between a granted `attach` and the end of the handler's body. -/
def SocketPc.Held : SocketPc → Prop
  | .refused | .serving | .drained => True
  | .attaching | .answered _ => False

theorem SocketPc.Inside.held {pc : SocketPc} (h : pc.Inside) : pc.Held := by
  cases pc with
  | attaching | refused | answered => cases h
  | serving | drained => trivial

instance : DecidablePred ResumePhase.InProgress
  | .began | .kicking _ | .waiting _ _ | .quiesced | .stuck => inferInstanceAs (Decidable True)
  | .new | .refused | .ended => inferInstanceAs (Decidable False)

namespace Session

variable {x : Session} {now : Int}

/-- An open session with something attached refuses nobody. -/
theorem closed_of_refusesAttach (h : x.refusesAttach now = true) (hbusy : x.pollInFlight ≠ 0) :
    x.closed = true := by
  rw [refusesAttach, Bool.or_eq_true] at h
  refine h.resolve_right fun hexp => hbusy ?_
  rw [resumeExpiredLocked, Bool.and_eq_true, Bool.and_eq_true, beq_iff_eq] at hexp
  exact hexp.1.2

theorem refusesAttach_of_closed (h : x.closed = true) : x.refusesAttach now = true := by
  rw [refusesAttach, h, Bool.true_or]

theorem endWebSocket_keeps (x : Session) (now : Int) :
    (x.endWebSocket now).wsAttached = false ∧
      (x.endWebSocket now).pollInFlight = x.pollInFlight - 1 ∧
      (x.endWebSocket now).closed = x.closed := by
  unfold endWebSocket noteDetachedLocked
  split <;> exact ⟨rfl, rfl, rfl⟩

theorem endPoll_keeps (x : Session) (now : Int) :
    (x.endPoll now).wsAttached = x.wsAttached ∧
      (x.endPoll now).pollInFlight = x.pollInFlight - 1 ∧
      (x.endPoll now).closed = x.closed := by
  unfold endPoll noteDetachedLocked
  split <;> exact ⟨rfl, rfl, rfl⟩

/-- Whoever is refused is refused ever after, as long as the session does not change. -/
theorem refusesAttach_later (h : x.refusesAttach now = true) (d : Nat) :
    x.refusesAttach (now + d) = true := by
  simp only [refusesAttach, resumeExpiredLocked, Bool.or_eq_true, Bool.and_eq_true,
    decide_eq_true_eq] at h ⊢
  refine h.imp_right fun hexp => ⟨hexp.1, ?_⟩
  have := hexp.2
  omega

/-- With the flag down, `beginWebSocket` fails only where `refusesAttach` holds. -/
theorem refusesAttach_of_beginWebSocket (h : x.beginWebSocket now = none)
    (hflag : x.wsAttached = false) : x.refusesAttach now = true := by
  unfold beginWebSocket at h
  split at h
  next hc =>
    rw [hflag, Bool.or_false] at hc
    exact hc
  next => cases h

end Session

/-- A resumable WebSocket session with everyone who uses it. `polls` are the requests between
`beginPoll` and `endPoll`, handshakes among them. -/
structure Sockets where
  own : Ownership := {}
  session : Session
  now : Int
  pc : Nat → SocketPc := fun _ => .attaching
  polls : List Nat := []

inductive SocketEvent
  | tick (d : Nat)
  | own (ev : AttachEvent)
  /-- `beginWebSocket`. -/
  | begin (h : Nat)
  /-- `refusesAttach`, and the answer. -/
  | judge (h : Nat)
  /-- `attach` failed, and the answer. -/
  | unavailable (h : Nat)
  | touch
  /-- `wg.Wait` returns, or `websocket.Accept` has refused the request. -/
  | pumpsExit (h : Nat)
  /-- `endWebSocket`. -/
  | endWebSocket (h : Nat)
  | beginPoll (r : Nat)
  | endPoll (r : Nat)
  /-- A pump breaks the layer: an overflow, a gap, an impossible ack. -/
  | pumpBreaks (h : Nat)
  /-- A handshake breaks the layer: an offset out of range. -/
  | resumeBreaks (r : Nat)
  /-- Any closing path. -/
  | close
  deriving DecidableEq, Repr

namespace Sockets

/-- Move a request on. -/
def goto (s : Sockets) (h : Nat) (pc : SocketPc) : Sockets :=
  { s with pc := Function.update s.pc h pc }

theorem goto_self (s : Sockets) (h : Nat) (pc : SocketPc) : (s.goto h pc).pc h = pc := by
  simp only [goto, Function.update_self]

theorem goto_of_ne (s : Sockets) {h x : Nat} (hx : x ≠ h) (pc : SocketPc) :
    (s.goto h pc).pc x = s.pc x := by
  simp only [goto, Function.update_of_ne hx]

/-- What the handlers around `attachments` allow: a WebSocket claims both directions and detaches
last, and a handshake begins inside its `beginPoll`. -/
def permits (s : Sockets) : AttachEvent → Bool
  | .attach _ kind => kind == .both
  | .detach h =>
    match (s.own.handler h).phase, s.pc h with
    | .attached, .answered _ => true
    | .attached, _ => false
    | _, _ => true
  | .beginResume r => s.polls.contains r
  | _ => true

def step (s : Sockets) : SocketEvent → Option Sockets
  | .tick d => some { s with now := s.now + d }
  | .own ev => if s.permits ev then (s.own.step ev).map fun own => { s with own := own } else none
  | .begin h =>
    if (s.own.handler h).phase = .attached ∧ s.pc h = .attaching then
      match s.session.beginWebSocket s.now with
      | some x => some { s.goto h .serving with session := x }
      | none => some (s.goto h .refused)
    else none
  | .judge h =>
    if s.pc h = .refused then
      some (s.goto h (.answered (some (if s.session.refusesAttach s.now then 410 else 409))))
    else none
  | .unavailable h =>
    if (s.own.handler h).phase = .gone false ∧ s.pc h = .attaching then
      some (s.goto h (.answered (some 503)))
    else none
  | .touch => some { s with session := s.session.touch s.now }
  | .pumpsExit h => if s.pc h = .serving then some (s.goto h .drained) else none
  | .endWebSocket h =>
    if s.pc h = .drained then
      some { s.goto h (.answered none) with session := s.session.endWebSocket s.now }
    else none
  | .beginPoll r =>
    if r ∈ s.polls then none
    else
      match s.session.beginPoll s.now with
      | some x => some { s with session := x, polls := r :: s.polls }
      | none => some s
  | .endPoll r =>
    if r ∈ s.polls ∧ ¬ (s.own.resume r).InProgress then
      some { s with session := s.session.endPoll s.now, polls := s.polls.erase r }
    else none
  | .pumpBreaks h =>
    if s.pc h = .serving then some { s with session := s.session.breakLayer } else none
  | .resumeBreaks r =>
    if r ∈ s.polls then some { s with session := s.session.breakLayer } else none
  | .close => some { s with session := { s.session with closed := true } }

/-- The runs of a session that was created at `now` with this grace. -/
def machine (id : Nat) (grace now : Int) : Machine Sockets SocketEvent where
  init := { session := (Session.new id now).enableResume grace, now := now }
  step := step

/-- **The invariant.** -/
structure Inv (s : Sockets) : Prop where
  own : s.own.Inv
  both : ∀ h, (s.own.handler h).phase ≠ .new → (s.own.handler h).kind = .both
  held : ∀ h, (s.pc h).Held → (s.own.handler h).phase = .attached
  flag : s.session.wsAttached = true ↔ ∃ h, (s.pc h).Inside
  count : s.session.pollInFlight = s.polls.length + (if s.session.wsAttached then 1 else 0)
  refuses : ∀ h, s.pc h = .refused → s.session.refusesAttach s.now = true
  answers : ∀ h status, s.pc h = .answered (some status) → status = 410 ∨ status = 503

/-! ## One step -/

namespace Inv

variable {s : Sockets}

theorem init (id : Nat) (grace now : Int) : Inv (machine id grace now).init where
  own := Ownership.Inv.init
  both h hh := absurd rfl hh
  held h hh := hh.elim
  flag := by
    constructor
    · intro h
      cases h
    · rintro ⟨h, hh⟩
      exact hh.elim
  count := rfl
  refuses h hh := by cases hh
  answers h status hh := by cases hh

/-- Two handlers are never granted both directions at once. -/
theorem attached_unique (hi : Inv s) {h h' : Nat} (ha : (s.own.handler h).phase = .attached)
    (ha' : (s.own.handler h').phase = .attached) : h = h' := by
  have howns : ∀ x, (s.own.handler x).phase = .attached → s.own.att.slot .down = some x := by
    intro x hx
    apply hi.own.attached_owns hx
    rw [hi.both x (by rw [hx]; simp)]
    exact List.mem_cons_self
  exact Option.some.inj ((howns h ha).symm.trans (howns h' ha'))

/-- Whoever is granted both directions and has not begun finds the flag down. -/
theorem flag_down (hi : Inv s) {h : Nat} (ha : (s.own.handler h).phase = .attached)
    (hout : ¬ (s.pc h).Inside) : s.session.wsAttached = false := by
  rw [← Bool.not_eq_true]
  intro hflag
  obtain ⟨x, hx⟩ := hi.flag.mp hflag
  cases hi.attached_unique ha (hi.held x hx.held)
  exact hout hx

/-- A request between `beginWebSocket` and `endWebSocket` is counted. -/
theorem busy_of_inside (hi : Inv s) {h : Nat} (hh : (s.pc h).Inside) :
    s.session.pollInFlight ≠ 0 := by
  rw [hi.count, if_pos (hi.flag.mpr ⟨h, hh⟩)]
  omega

theorem busy_of_poll (hi : Inv s) {r : Nat} (hr : r ∈ s.polls) : s.session.pollInFlight ≠ 0 := by
  have hpos := List.length_pos_of_mem hr
  rw [hi.count]
  split <;> omega

/-- A request moves on without crossing `beginWebSocket` or `endWebSocket`. -/
theorem goto (hi : Inv s) {h : Nat} {pc : SocketPc}
    (hheld : pc.Held → (s.own.handler h).phase = .attached)
    (hinside : pc.Inside ↔ (s.pc h).Inside)
    (hrefuses : pc = .refused → s.session.refusesAttach s.now = true)
    (hanswers : ∀ status, pc = .answered (some status) → status = 410 ∨ status = 503) :
    Inv (s.goto h pc) where
  own := hi.own
  both := hi.both
  held := (Function.forall_update_iff s.pc
    fun x y => y.Held → (s.own.handler x).phase = .attached).mpr ⟨hheld, fun x _ => hi.held x⟩
  flag := by
    refine hi.flag.trans (exists_congr fun x => ?_)
    by_cases hx : x = h
    · rw [hx, goto_self, hinside]
    · rw [goto_of_ne s hx]
  count := hi.count
  refuses := (Function.forall_update_iff s.pc
    fun _ y => y = .refused → s.session.refusesAttach s.now = true).mpr
      ⟨hrefuses, fun x _ => hi.refuses x⟩
  answers := (Function.forall_update_iff s.pc
    fun _ y => ∀ status, y = .answered (some status) → status = 410 ∨ status = 503).mpr
      ⟨hanswers, fun x _ => hi.answers x⟩

/-- The session changes under the requests, and whoever was refused would be refused again. -/
theorem setSession (hi : Inv s) {x : Session} {polls : List Nat}
    (hflag : x.wsAttached = s.session.wsAttached)
    (hcount : x.pollInFlight = polls.length + (if s.session.wsAttached then 1 else 0))
    (hrefuses : s.session.refusesAttach s.now = true → x.refusesAttach s.now = true) :
    Inv { s with session := x, polls := polls } where
  own := hi.own
  both := hi.both
  held := hi.held
  flag := by rw [hflag]; exact hi.flag
  count := by rw [hflag]; exact hcount
  refuses h hh := hrefuses (hi.refuses h hh)
  answers := hi.answers

/-- A step of the attachments: no request in its body loses its slots. -/
theorem own_step (hi : Inv s) {ev : AttachEvent} {own : Ownership} (hp : s.permits ev = true)
    (hs : s.own.step ev = some own) : Inv { s with own := own } where
  own := hi.own.step hs
  both h hh := by
    rcases Ownership.kind_step hs h hh with ⟨hold, hkind⟩ | hev
    · exact hkind.trans (hi.both h hold)
    · rw [hev] at hp
      exact beq_iff_eq.mp hp
  held h hh := by
    have hatt := hi.held h hh
    rw [Ownership.attached_step hatt ?_ hs]
    · exact hatt
    · rintro rfl
      cases hpc : s.pc h with
      | attaching | answered => rw [hpc] at hh; exact hh
      | refused | serving | drained =>
        rw [permits, hatt, hpc] at hp
        cases hp
  flag := hi.flag
  count := hi.count
  refuses := hi.refuses
  answers := hi.answers

theorem begin_step (hi : Inv s) {h : Nat} {x : Session}
    (ha : (s.own.handler h).phase = .attached) (hpc : s.pc h = .attaching)
    (hx : s.session.beginWebSocket s.now = some x) :
    Inv { s.goto h .serving with session := x } := by
  obtain ⟨hopen, hlive, rfl⟩ := Session.beginWebSocket_spec hx
  have hdown : s.session.wsAttached = false := hi.flag_down ha (by rw [hpc]; exact id)
  refine ⟨hi.own, hi.both, ?_, ?_, ?_, ?_, ?_⟩
  · exact (Function.forall_update_iff s.pc
      fun x y => y.Held → (s.own.handler x).phase = .attached).mpr
        ⟨fun _ => ha, fun x _ => hi.held x⟩
  · refine iff_of_true rfl ⟨h, ?_⟩
    rw [goto_self]
    trivial
  · have hcount := hi.count
    rw [hdown] at hcount
    simp only [Bool.false_eq_true, if_false, if_true] at hcount ⊢
    rw [hcount, Int.add_zero]
    rfl
  · -- nobody was refused by a session that still takes transports
    have hnone : ∀ y, s.pc y ≠ .refused := by
      intro y hy
      have := hi.refuses y hy
      rw [Session.refusesAttach, hopen, hlive] at this
      cases this
    refine (Function.forall_update_iff s.pc fun _ y => y = .refused → _).mpr ⟨?_, ?_⟩
    · intro hr
      cases hr
    · exact fun y _ hy => absurd hy (hnone y)
  · refine (Function.forall_update_iff s.pc
      fun _ y => ∀ status, y = .answered (some status) → status = 410 ∨ status = 503).mpr
        ⟨?_, fun y _ => hi.answers y⟩
    intro status hs
    cases hs

theorem end_step (hi : Inv s) {h : Nat} (hpc : s.pc h = .drained) :
    Inv { s.goto h (.answered none) with session := s.session.endWebSocket s.now } := by
  have hin : (s.pc h).Inside := by
    rw [hpc]
    trivial
  obtain ⟨hflag, hpolls, hclosed⟩ := Session.endWebSocket_keeps s.session s.now
  refine ⟨hi.own, hi.both, ?_, ?_, ?_, ?_, ?_⟩
  · exact (Function.forall_update_iff s.pc
      fun x y => y.Held → (s.own.handler x).phase = .attached).mpr
        ⟨fun hh => hh.elim, fun x _ => hi.held x⟩
  · -- nobody else is inside: it would own the slots that `h` still owns
    refine iff_of_false (by rw [hflag]; exact Bool.false_ne_true) ?_
    rintro ⟨x, hx⟩
    by_cases hxh : x = h
    · rw [hxh, goto_self] at hx
      exact hx
    · rw [goto_of_ne s hxh] at hx
      exact hxh (hi.attached_unique (hi.held x hx.held) (hi.held h hin.held))
  · have hcount := hi.count
    rw [if_pos (hi.flag.mpr ⟨h, hin⟩)] at hcount
    simp only [hpolls, hflag, Bool.false_eq_true, if_false, hcount]
    rw [Int.add_sub_cancel, Int.add_zero]
    rfl
  · -- whoever was refused meanwhile met a closed session
    refine (Function.forall_update_iff s.pc fun _ y => y = .refused → _).mpr ⟨?_, ?_⟩
    · intro hr
      cases hr
    · intro y _ hy
      apply Session.refusesAttach_of_closed
      rw [hclosed]
      exact Session.closed_of_refusesAttach (hi.refuses y hy) (hi.busy_of_inside hin)
  · refine (Function.forall_update_iff s.pc
      fun _ y => ∀ status, y = .answered (some status) → status = 410 ∨ status = 503).mpr
        ⟨?_, fun y _ => hi.answers y⟩
    intro status hs
    cases hs

/-- The layer breaks under someone who is counted. -/
theorem break_step (hi : Inv s) (hbusy : s.session.pollInFlight ≠ 0) :
    Inv { s with session := s.session.breakLayer } := by
  refine hi.setSession rfl hi.count fun hr => ?_
  have hclosed := Session.closed_of_refusesAttach hr hbusy
  exact Session.refusesAttach_of_closed hclosed

theorem beginPoll_step (hi : Inv s) {r : Nat} {x : Session}
    (hx : s.session.beginPoll s.now = some x) :
    Inv { s with session := x, polls := r :: s.polls } := by
  obtain ⟨hopen, hlive, rfl⟩ := Session.beginPoll_spec hx
  refine hi.setSession rfl ?_ ?_
  · simp only [hi.count, List.length_cons, Nat.cast_add, Nat.cast_one]
    exact Int.add_right_comm _ _ _
  · intro hr
    rw [Session.refusesAttach, hopen, hlive] at hr
    cases hr

theorem endPoll_step (hi : Inv s) {r : Nat} (hr : r ∈ s.polls) :
    Inv { s with session := s.session.endPoll s.now, polls := s.polls.erase r } := by
  obtain ⟨hflag, hpolls, hclosed⟩ := Session.endPoll_keeps s.session s.now
  refine hi.setSession hflag ?_ ?_
  · have hpos := List.length_pos_of_mem hr
    have hcount := hi.count
    rw [hpolls, List.length_erase_of_mem hr]
    omega
  · intro hrefuses
    apply Session.refusesAttach_of_closed
    rw [hclosed]
    exact Session.closed_of_refusesAttach hrefuses (hi.busy_of_poll hr)

/-- One step keeps the invariant. -/
theorem step (hi : Inv s) {ev : SocketEvent} {s' : Sockets} (hs : s.step ev = some s') :
    Inv s' := by
  cases ev with
  | tick d =>
    cases hs
    exact ⟨hi.own, hi.both, hi.held, hi.flag, hi.count,
      fun h hh => Session.refusesAttach_later (hi.refuses h hh) d, hi.answers⟩
  | own ev =>
    simp only [Sockets.step] at hs
    split at hs
    next hp =>
      obtain ⟨own, hown, rfl⟩ := Option.map_eq_some_iff.mp hs
      exact hi.own_step hp hown
    next => cases hs
  | begin h =>
    simp only [Sockets.step] at hs
    split at hs
    next hg =>
      obtain ⟨ha, hpc⟩ := hg
      split at hs
      next x hx =>
        cases hs
        exact hi.begin_step ha hpc hx
      next hx =>
        cases hs
        have hout : ¬ (s.pc h).Inside := by
          rw [hpc]
          exact id
        refine hi.goto (fun _ => ha) (iff_of_false id hout) (fun _ => ?_) (fun _ hst => by cases hst)
        exact Session.refusesAttach_of_beginWebSocket hx (hi.flag_down ha hout)
    next => cases hs
  | judge h =>
    simp only [Sockets.step] at hs
    split at hs
    next hpc =>
      cases hs
      refine hi.goto (fun hh => hh.elim) (iff_of_false id (by rw [hpc]; exact id))
        (fun hr => by cases hr) ?_
      -- the second look finds what the first one found
      intro status hst
      rw [if_pos (hi.refuses h hpc)] at hst
      cases hst
      exact .inl rfl
    next => cases hs
  | unavailable h =>
    simp only [Sockets.step] at hs
    split at hs
    next hg =>
      cases hs
      refine hi.goto (fun hh => hh.elim) (iff_of_false id (by rw [hg.2]; exact id))
        (fun hr => by cases hr) ?_
      intro status hst
      cases hst
      exact .inr rfl
    next => cases hs
  | touch =>
    cases hs
    exact hi.setSession rfl hi.count id
  | pumpsExit h =>
    simp only [Sockets.step] at hs
    split at hs
    next hpc =>
      cases hs
      have hin : (s.pc h).Inside := by
        rw [hpc]
        trivial
      exact hi.goto (fun _ => hi.held h hin.held) (iff_of_true trivial hin)
        (fun hr => by cases hr) (fun _ hst => by cases hst)
    next => cases hs
  | endWebSocket h =>
    simp only [Sockets.step] at hs
    split at hs
    next hpc =>
      cases hs
      exact hi.end_step hpc
    next => cases hs
  | beginPoll r =>
    simp only [Sockets.step] at hs
    split at hs
    next => cases hs
    next =>
      split at hs
      next x hx =>
        cases hs
        exact hi.beginPoll_step hx
      next =>
        cases hs
        exact hi
  | endPoll r =>
    simp only [Sockets.step] at hs
    split at hs
    next hr =>
      cases hs
      exact hi.endPoll_step hr.1
    next => cases hs
  | pumpBreaks h =>
    simp only [Sockets.step] at hs
    split at hs
    next hpc =>
      cases hs
      have hin : (s.pc h).Inside := by
        rw [hpc]
        trivial
      exact hi.break_step (hi.busy_of_inside hin)
    next => cases hs
  | resumeBreaks r =>
    simp only [Sockets.step] at hs
    split at hs
    next hr =>
      cases hs
      exact hi.break_step (hi.busy_of_poll hr)
    next => cases hs
  | close =>
    cases hs
    exact hi.setSession rfl hi.count fun _ => Session.refusesAttach_of_closed rfl

theorem reachable {id : Nat} {grace now : Int} (h : (machine id grace now).Reachable s) : Inv s :=
  Machine.Reach.invariant (init id grace now) (fun _ _ _ _ hi _ hs => hi.step hs) h

end Inv

/-! ## Every run -/

/-- **A replacement is never refused as a double attach.** In every run the flag is up only while
one handler owns both directions between its `beginWebSocket` and its `endWebSocket`, whoever is
granted both before its own `beginWebSocket` finds it down, and a refusal past the lookup checks is
410 or 503. -/
theorem replacement_never_conflicts {id : Nat} {grace now : Int} {s : Sockets}
    (hr : (machine id grace now).Reachable s) :
    (s.session.wsAttached = true →
      ∃ h, (s.pc h).Inside ∧ ∀ k, s.own.att.slot k = some h) ∧
    (∀ h, (s.own.handler h).phase = .attached → s.pc h = .attaching →
      s.session.wsAttached = false) ∧
    (∀ h status, s.pc h = .answered (some status) → status = 410 ∨ status = 503) := by
  have hi := Inv.reachable hr
  refine ⟨?_, ?_, hi.answers⟩
  · intro hflag
    obtain ⟨h, hh⟩ := hi.flag.mp hflag
    have hatt := hi.held h hh.held
    refine ⟨h, hh, fun k => hi.own.attached_owns hatt ?_⟩
    rw [hi.both h (by rw [hatt]; simp)]
    cases k <;> simp [AttachKind.dirs]
  · intro h hatt hpc
    apply hi.flag_down hatt
    rw [hpc]
    exact not_false

/-- A second WebSocket displaces the first, and a third one comes after the session has closed. -/
def displacing : List SocketEvent :=
  [.own (.attach 0 .both), .own (.claim 0), .own (.claim 0), .begin 0,
    .own (.attach 1 .both), .own (.claim 1), .own (.kick 1),
    .pumpsExit 0, .endWebSocket 0, .own (.detach 0), .own (.close 0),
    .own (.wake 1), .own (.claim 1), .own (.claim 1), .begin 1, .close,
    .own (.attach 2 .both), .own (.claim 2), .own (.kick 2),
    .pumpsExit 1, .endWebSocket 1, .own (.detach 1), .own (.close 1),
    .own (.wake 2), .own (.claim 2), .own (.claim 2)]

/-- The third is granted both directions and finds the flag down; its answer is 410. -/
theorem replacement_never_conflicts_displacing :
    (((machine 7 10 0).final displacing).own.handler 2).phase = .attached ∧
      ((machine 7 10 0).final displacing).session.wsAttached = false ∧
      ((machine 7 10 0).final (displacing ++ [.begin 2, .judge 2])).pc 2 =
        .answered (some 410) :=
  ⟨by decide,
    (replacement_never_conflicts ((machine 7 10 0).reachable_final displacing)).2.1 2
      (by decide) (by decide), by decide⟩

end Sockets

end Pollmux
