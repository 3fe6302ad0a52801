import Mathlib.Data.List.Basic
import Mathlib.Logic.Function.Basic
import Pollmux.Kit.Machine

/-!
# One transport per direction

`attachments` (`resume_server.go`) gives each direction of a resumable session at
most one owner, and a resume handshake none. A newcomer that finds a slot taken
kicks the owner and waits for its `done` channel; a handshake sets `resuming`,
which turns newcomers away, and kicks whoever it finds.

`Ownership` has any number of handlers and resume requests, each a number. Every
lock region of the source is one step, and so are the kick, the end of a wait and
the closing of `done`; a wait may also run into its time limit at any moment.
`Holds h k` reads off a handler's phase which slots it has claimed, and the main
invariant is that the slots say the same.
-/

namespace Pollmux

open Kit

/-- The two directions of a session. -/
inductive Dir
  | down
  | up
  deriving DecidableEq, Repr

/-- `attachKind`. -/
inductive AttachKind
  | down
  | up
  | both
  deriving DecidableEq, Repr

/-- The directions a kind claims, in order. -/
def AttachKind.dirs : AttachKind → List Dir
  | .down => [.down]
  | .up => [.up]
  | .both => [.down, .up]

theorem AttachKind.dirs_nodup (kind : AttachKind) : kind.dirs.Nodup := by
  cases kind <;> decide

/-- `attachments`, less its mutex. An attachment is the number of its handler. -/
structure Attachments where
  down : Option Nat := none
  up : Option Nat := none
  resuming : Bool := false
  deriving DecidableEq, Repr

namespace Attachments

/-- `slot`. -/
def slot (a : Attachments) : Dir → Option Nat
  | .down => a.down
  | .up => a.up

/-- `*slot = att`. -/
def claim (a : Attachments) (k : Dir) (h : Nat) : Attachments :=
  match k with
  | .down => { a with down := some h }
  | .up => { a with up := some h }

/-- The lock region of `detach`. -/
def release (a : Attachments) (h : Nat) : Attachments :=
  { a with
    down := if a.down = some h then none else a.down
    up := if a.up = some h then none else a.up }

/-- `isCurrent`. -/
def isCurrent (a : Attachments) (h : Nat) : Bool := a.down == some h || a.up == some h

theorem slot_claim (a : Attachments) (k k' : Dir) (h : Nat) :
    (a.claim k h).slot k' = if k' = k then some h else a.slot k' := by
  cases k <;> cases k' <;> rfl

theorem slot_release (a : Attachments) (k : Dir) (h : Nat) :
    (a.release h).slot k = if a.slot k = some h then none else a.slot k := by
  cases k <;> rfl

end Attachments

/-- How far a handler has come. `ks` are the directions it has not claimed yet. -/
inductive Phase
  | new
  /-- About to take the lock for the first of `ks`. -/
  | claiming (ks : List Dir)
  /-- It found `old` there and is about to kick it. -/
  | kicking (old : Nat) (ks : List Dir)
  /-- It waits for `old` to let go. -/
  | waiting (old : Nat) (ks : List Dir)
  /-- `attach` is about to fail and calls `detach`. -/
  | failing (ks : List Dir)
  /-- `attach` has returned successfully. -/
  | attached
  /-- `detach` has released the slots and not closed `done`. -/
  | closing (ok : Bool)
  /-- `detach` has returned, after a successful attach or after a failed one. -/
  | gone (ok : Bool)
  deriving DecidableEq, Repr

/-- One handler with its attachment's `done` channel. -/
structure Handler where
  kind : AttachKind := .down
  phase : Phase := .new
  done : Bool := false
  deriving DecidableEq, Repr

/-- The directions a handler in this phase has still to claim; all of them before it starts and
after it has let go. -/
def Handler.left (h : Handler) : List Dir :=
  match h.phase with
  | .claiming ks | .kicking _ ks | .waiting _ ks | .failing ks => ks
  | .attached => []
  | .new | .closing _ | .gone _ => h.kind.dirs

/-- The handler has claimed the direction `k` and not released it. -/
def Handler.Holds (h : Handler) (k : Dir) : Prop := k ∈ h.kind.dirs ∧ k ∉ h.left

/-- The handler has claimed some direction, even if it has released it since. -/
def Handler.Claimed (h : Handler) : Prop :=
  match h.phase with
  | .new => False
  | .claiming ks | .kicking _ ks | .waiting _ ks | .failing ks => ks ≠ h.kind.dirs
  | .attached | .closing _ | .gone _ => True

/-- `attach` has returned successfully at some time. -/
def Handler.Served (h : Handler) : Prop :=
  h.phase = .attached ∨ (∃ ok, h.phase = .closing ok) ∨ ∃ ok, h.phase = .gone ok

/-- How far a resume request has come. `olds` are the owners `kickAll` found and has not waited
out. -/
inductive ResumePhase
  | new
  /-- `beginResume` answered false. -/
  | refused
  | began
  | kicking (olds : List Nat)
  | waiting (old : Nat) (olds : List Nat)
  /-- `kickAll` returned nil. -/
  | quiesced
  /-- `kickAll` returned `errStillAttached`. -/
  | stuck
  | ended
  deriving DecidableEq, Repr

/-- A request between its `beginResume` and its `endResume`. -/
def ResumePhase.InProgress : ResumePhase → Prop
  | .began | .kicking _ | .waiting _ _ | .quiesced | .stuck => True
  | .new | .refused | .ended => False

/-- What is left of the loop of `kickAll`. -/
def ResumePhase.afterKicks (olds : List Nat) : ResumePhase :=
  if olds = [] then .quiesced else .kicking olds

/-- Whom a handler is about to kick. -/
def Phase.target : Phase → Option Nat
  | .kicking old _ => some old
  | _ => none

/-- Whom a handshake is about to kick. -/
def ResumePhase.targets : ResumePhase → List Nat
  | .kicking olds | .waiting _ olds => olds
  | _ => []

/-- The session's attachments with everyone who uses them. -/
structure Ownership where
  att : Attachments := {}
  handler : Nat → Handler := fun _ => {}
  resume : Nat → ResumePhase := fun _ => .new

/-- One step of one party. -/
inductive AttachEvent
  | attach (h : Nat) (kind : AttachKind)
  /-- The lock region of `attach`'s loop. -/
  | claim (h : Nat)
  | kick (h : Nat)
  /-- The wait in `attach` ends because `done` is closed. -/
  | wake (h : Nat)
  /-- The wait in `attach` runs into `detachWait`. -/
  | timeout (h : Nat)
  /-- The lock region of `detach`. -/
  | detach (h : Nat)
  /-- `detach` closes `done`. -/
  | close (h : Nat)
  | beginResume (r : Nat)
  /-- The lock region of `kickAll`. -/
  | kickAll (r : Nat)
  | resumeKick (r : Nat)
  | resumeWake (r : Nat)
  | resumeTimeout (r : Nat)
  | endResume (r : Nat)
  deriving DecidableEq, Repr

/-- The handler whose step this is. -/
def AttachEvent.handler? : AttachEvent → Option Nat
  | .attach h _ | .claim h | .kick h | .wake h | .timeout h | .detach h | .close h => some h
  | _ => none

/-- The resume request whose step this is. -/
def AttachEvent.resume? : AttachEvent → Option Nat
  | .beginResume r | .kickAll r | .resumeKick r | .resumeWake r | .resumeTimeout r
  | .endResume r => some r
  | _ => none

namespace Ownership

/-- Move a handler to another phase. -/
def setPhase (s : Ownership) (h : Nat) (phase : Phase) : Ownership :=
  { s with handler := Function.update s.handler h { s.handler h with phase := phase } }

/-- Move a resume request to another phase. -/
def setResume (s : Ownership) (r : Nat) (phase : ResumePhase) : Ownership :=
  { s with resume := Function.update s.resume r phase }

/-- The lock region of `attach`'s loop, for the first direction of `k :: ks`. -/
def claim (s : Ownership) (h : Nat) (k : Dir) (ks : List Dir) : Ownership :=
  if s.att.resuming then s.setPhase h (.failing (k :: ks))
  else
    match s.att.slot k with
    | none =>
      { s.setPhase h (if ks = [] then .attached else .claiming ks) with att := s.att.claim k h }
    | some old => s.setPhase h (.kicking old (k :: ks))

/-- The lock region of `detach`. -/
def detach (s : Ownership) (h : Nat) (ok : Bool) : Ownership :=
  { s.setPhase h (.closing ok) with att := s.att.release h }

/-- One step. -/
def step (s : Ownership) : AttachEvent → Option Ownership
  | .attach h kind =>
    match (s.handler h).phase with
    | .new => some { s with
        handler := Function.update s.handler h { s.handler h with
          kind := kind
          phase := .claiming kind.dirs } }
    | _ => none
  | .claim h =>
    match (s.handler h).phase with
    | .claiming (k :: ks) => some (s.claim h k ks)
    | _ => none
  | .kick h =>
    match (s.handler h).phase with
    | .kicking old ks => some (s.setPhase h (.waiting old ks))
    | _ => none
  | .wake h =>
    match (s.handler h).phase with
    | .waiting old ks => if (s.handler old).done then some (s.setPhase h (.claiming ks)) else none
    | _ => none
  | .timeout h =>
    match (s.handler h).phase with
    | .waiting _ ks => some (s.setPhase h (.failing ks))
    | _ => none
  | .detach h =>
    match (s.handler h).phase with
    | .failing _ => some (s.detach h false)
    | .attached => some (s.detach h true)
    | _ => none
  | .close h =>
    match (s.handler h).phase with
    | .closing ok => some { s with
        handler := Function.update s.handler h { s.handler h with phase := .gone ok, done := true } }
    | _ => none
  | .beginResume r =>
    match s.resume r with
    | .new =>
      if s.att.resuming then some (s.setResume r .refused)
      else some { s.setResume r .began with att := { s.att with resuming := true } }
    | _ => none
  | .kickAll r =>
    match s.resume r with
    | .began => some (s.setResume r (.afterKicks (s.att.down.toList ++ s.att.up.toList)))
    | _ => none
  | .resumeKick r =>
    match s.resume r with
    | .kicking (old :: olds) => some (s.setResume r (.waiting old olds))
    | _ => none
  | .resumeWake r =>
    match s.resume r with
    | .waiting old olds =>
      if (s.handler old).done then some (s.setResume r (.afterKicks olds)) else none
    | _ => none
  | .resumeTimeout r =>
    match s.resume r with
    | .waiting _ _ => some (s.setResume r .stuck)
    | _ => none
  | .endResume r =>
    match s.resume r with
    | .quiesced | .stuck =>
      some { s.setResume r .ended with att := { s.att with resuming := false } }
    | _ => none

/-- Nobody has attached, and everyone may. -/
def machine : Machine Ownership AttachEvent where
  init := {}
  step := step

/-! ## What a step does -/

/-- **A step of handler `h`**: what becomes of the handler and of the slots. -/
inductive HandlerStep (s : Ownership) (h : Nat) : AttachEvent → Handler → Attachments → Prop
  | attach (kind : AttachKind) (hp : (s.handler h).phase = .new) :
      HandlerStep s h (.attach h kind)
        { s.handler h with kind := kind, phase := .claiming kind.dirs } s.att
  | refused {k : Dir} {ks : List Dir} (hp : (s.handler h).phase = .claiming (k :: ks)) :
      HandlerStep s h (.claim h) { s.handler h with phase := .failing (k :: ks) } s.att
  | claim {k : Dir} {ks : List Dir} (hp : (s.handler h).phase = .claiming (k :: ks))
      (hr : s.att.resuming = false) (hfree : s.att.slot k = none) :
      HandlerStep s h (.claim h)
        { s.handler h with phase := if ks = [] then .attached else .claiming ks }
        (s.att.claim k h)
  | taken {k : Dir} {ks : List Dir} {old : Nat} (hp : (s.handler h).phase = .claiming (k :: ks))
      (hslot : s.att.slot k = some old) :
      HandlerStep s h (.claim h) { s.handler h with phase := .kicking old (k :: ks) } s.att
  | kick {old : Nat} {ks : List Dir} (hp : (s.handler h).phase = .kicking old ks) :
      HandlerStep s h (.kick h) { s.handler h with phase := .waiting old ks } s.att
  | wake {old : Nat} {ks : List Dir} (hp : (s.handler h).phase = .waiting old ks) :
      HandlerStep s h (.wake h) { s.handler h with phase := .claiming ks } s.att
  | timeout {old : Nat} {ks : List Dir} (hp : (s.handler h).phase = .waiting old ks) :
      HandlerStep s h (.timeout h) { s.handler h with phase := .failing ks } s.att
  | giveUp {ks : List Dir} (hp : (s.handler h).phase = .failing ks) :
      HandlerStep s h (.detach h) { s.handler h with phase := .closing false } (s.att.release h)
  | detach (hp : (s.handler h).phase = .attached) :
      HandlerStep s h (.detach h) { s.handler h with phase := .closing true } (s.att.release h)
  | close {ok : Bool} (hp : (s.handler h).phase = .closing ok) :
      HandlerStep s h (.close h) { s.handler h with phase := .gone ok, done := true } s.att

/-- **A step of resume request `r`**: its next phase and what becomes of the slots. -/
inductive ResumeStep (s : Ownership) (r : Nat) : AttachEvent → ResumePhase → Attachments → Prop
  | refused (hp : s.resume r = .new) : ResumeStep s r (.beginResume r) .refused s.att
  | began (hp : s.resume r = .new) (hr : s.att.resuming = false) :
      ResumeStep s r (.beginResume r) .began { s.att with resuming := true }
  | kickAll (hp : s.resume r = .began) :
      ResumeStep s r (.kickAll r) (.afterKicks (s.att.down.toList ++ s.att.up.toList)) s.att
  | kick {old : Nat} {olds : List Nat} (hp : s.resume r = .kicking (old :: olds)) :
      ResumeStep s r (.resumeKick r) (.waiting old olds) s.att
  | wake {old : Nat} {olds : List Nat} (hp : s.resume r = .waiting old olds)
      (hd : (s.handler old).done = true) :
      ResumeStep s r (.resumeWake r) (.afterKicks olds) s.att
  | timeout {old : Nat} {olds : List Nat} (hp : s.resume r = .waiting old olds) :
      ResumeStep s r (.resumeTimeout r) .stuck s.att
  | ended (hp : s.resume r = .quiesced ∨ s.resume r = .stuck) :
      ResumeStep s r (.endResume r) .ended { s.att with resuming := false }

section
variable {s s' : Ownership} {ev : AttachEvent}

theorem HandlerStep.handler? {h : Nat} {v : Handler} {a : Attachments}
    (hstep : HandlerStep s h ev v a) : ev.handler? = some h ∧ ev.resume? = none := by
  cases hstep <;> exact ⟨rfl, rfl⟩

theorem ResumeStep.resume? {r : Nat} {p : ResumePhase} {a : Attachments}
    (hstep : ResumeStep s r ev p a) : ev.resume? = some r ∧ ev.handler? = none := by
  cases hstep <;> exact ⟨rfl, rfl⟩

/-- Every step is one handler's or one request's. -/
theorem step_cases (hs : s.step ev = some s') :
    (∃ h v a, HandlerStep s h ev v a ∧
      s' = { s with att := a, handler := Function.update s.handler h v }) ∨
    (∃ r p a, ResumeStep s r ev p a ∧
      s' = { s with att := a, resume := Function.update s.resume r p }) := by
  cases ev with
  | attach h kind =>
    simp only [step] at hs
    split at hs
    next hp => cases hs; exact .inl ⟨h, _, _, .attach kind hp, rfl⟩
    next => cases hs
  | claim h =>
    simp only [step] at hs
    split at hs
    next k ks hp =>
      cases hs
      unfold Ownership.claim
      split
      next => exact .inl ⟨h, _, _, .refused hp, rfl⟩
      next hr =>
        split
        next hfree => exact .inl ⟨h, _, _, .claim hp (Bool.not_eq_true _ ▸ hr) hfree, rfl⟩
        next hslot => exact .inl ⟨h, _, _, .taken hp hslot, rfl⟩
    next => cases hs
  | kick h =>
    simp only [step] at hs
    split at hs
    next hp => cases hs; exact .inl ⟨h, _, _, .kick hp, rfl⟩
    next => cases hs
  | wake h =>
    simp only [step] at hs
    split at hs
    next hp =>
      split at hs
      next => cases hs; exact .inl ⟨h, _, _, .wake hp, rfl⟩
      next => cases hs
    next => cases hs
  | timeout h =>
    simp only [step] at hs
    split at hs
    next hp => cases hs; exact .inl ⟨h, _, _, .timeout hp, rfl⟩
    next => cases hs
  | detach h =>
    simp only [step] at hs
    split at hs
    next hp => cases hs; exact .inl ⟨h, _, _, .giveUp hp, rfl⟩
    next hp => cases hs; exact .inl ⟨h, _, _, .detach hp, rfl⟩
    next => cases hs
  | close h =>
    simp only [step] at hs
    split at hs
    next hp => cases hs; exact .inl ⟨h, _, _, .close hp, rfl⟩
    next => cases hs
  | beginResume r =>
    simp only [step] at hs
    split at hs
    next hp =>
      split at hs
      next => cases hs; exact .inr ⟨r, _, _, .refused hp, rfl⟩
      next hr => cases hs; exact .inr ⟨r, _, _, .began hp (Bool.not_eq_true _ ▸ hr), rfl⟩
    next => cases hs
  | kickAll r =>
    simp only [step] at hs
    split at hs
    next hp => cases hs; exact .inr ⟨r, _, _, .kickAll hp, rfl⟩
    next => cases hs
  | resumeKick r =>
    simp only [step] at hs
    split at hs
    next hp => cases hs; exact .inr ⟨r, _, _, .kick hp, rfl⟩
    next => cases hs
  | resumeWake r =>
    simp only [step] at hs
    split at hs
    next hp =>
      split at hs
      next hd => cases hs; exact .inr ⟨r, _, _, .wake hp hd, rfl⟩
      next => cases hs
    next => cases hs
  | resumeTimeout r =>
    simp only [step] at hs
    split at hs
    next hp => cases hs; exact .inr ⟨r, _, _, .timeout hp, rfl⟩
    next => cases hs
  | endResume r =>
    simp only [step] at hs
    split at hs
    next hp => cases hs; exact .inr ⟨r, _, _, .ended (.inl hp), rfl⟩
    next hp => cases hs; exact .inr ⟨r, _, _, .ended (.inr hp), rfl⟩
    next => cases hs

/-- A handler changes by its own steps only, and a request by its own. -/
theorem step_frame (hs : s.step ev = some s') :
    (∀ h, ev.handler? ≠ some h → s'.handler h = s.handler h) ∧
      (∀ r, ev.resume? ≠ some r → s'.resume r = s.resume r) := by
  rcases step_cases hs with ⟨h, v, a, hstep, rfl⟩ | ⟨r, p, a, hstep, rfl⟩
  · refine ⟨fun x hx => Function.update_of_ne ?_ _ _, fun _ _ => rfl⟩
    rintro rfl
    exact hx hstep.handler?.1
  · refine ⟨fun _ _ => rfl, fun x hx => Function.update_of_ne ?_ _ _⟩
    rintro rfl
    exact hx hstep.resume?.1

/-- A handler's own step. -/
theorem own_step (hs : s.step ev = some s') {h : Nat} (hown : ev.handler? = some h) :
    ∃ v a, HandlerStep s h ev v a ∧ s'.handler h = v := by
  rcases step_cases hs with ⟨x, v, a, hstep, rfl⟩ | ⟨r, p, a, hstep, -⟩
  · cases hstep.handler?.1.symm.trans hown
    exact ⟨v, a, hstep, Function.update_self _ _ _⟩
  · cases hstep.resume?.2.symm.trans hown

/-- A request's own step. -/
theorem own_resume (hs : s.step ev = some s') {r : Nat} (hown : ev.resume? = some r) :
    ∃ p a, ResumeStep s r ev p a ∧ s'.resume r = p := by
  rcases step_cases hs with ⟨h, v, a, hstep, -⟩ | ⟨x, p, a, hstep, rfl⟩
  · cases hstep.handler?.2.symm.trans hown
  · cases hstep.resume?.1.symm.trans hown
    exact ⟨p, a, hstep, Function.update_self _ _ _⟩

end

/-! ## The invariant -/

/-- The owners a handshake has still to wait out are all that is left in the slots. -/
def Quiet (a : Attachments) : ResumePhase → Prop
  | .kicking olds => ∀ k h, a.slot k = some h → h ∈ olds
  | .waiting old olds => ∀ k h, a.slot k = some h → h = old ∨ h ∈ olds
  | .quiesced => ∀ k, a.slot k = none
  | _ => True

/-- **The ownership invariant.** -/
structure Inv (s : Ownership) : Prop where
  slots : ∀ k h, s.att.slot k = some h ↔ (s.handler h).Holds k
  left : ∀ h, (s.handler h).left <:+ (s.handler h).kind.dirs
  done : ∀ h, (s.handler h).done = true ↔ ∃ ok, (s.handler h).phase = .gone ok
  resuming : ∀ r, (s.resume r).InProgress → s.att.resuming = true
  unique : ∀ r r', (s.resume r).InProgress → (s.resume r').InProgress → r = r'
  quiet : ∀ r, Quiet s.att (s.resume r)

/-- A phase in which nothing is claimed. -/
theorem not_holds_of_left {h : Handler} (hl : h.left = h.kind.dirs) (k : Dir) : ¬ h.Holds k :=
  fun hk => hk.2 (hl ▸ hk.1)

theorem gone_not_holds {h : Handler} {ok : Bool} (hp : h.phase = .gone ok) (k : Dir) : ¬ h.Holds k :=
  not_holds_of_left (by rw [Handler.left, hp]) k

/-- What a slot holds after a release. -/
theorem quiet_of_fewer {a a' : Attachments} {p : ResumePhase} (h : Quiet a p)
    (hfewer : ∀ k x, a'.slot k = some x → a.slot k = some x) : Quiet a' p := by
  cases p with
  | kicking olds => exact fun k x hx => h k x (hfewer k x hx)
  | waiting old olds => exact fun k x hx => h k x (hfewer k x hx)
  | quiesced =>
    intro k
    cases hs : a'.slot k with
    | none => rfl
    | some x =>
      have hslot := hfewer k x hs
      rw [h k] at hslot
      cases hslot
  | _ => trivial

namespace Inv

variable {s s' : Ownership}

theorem init : Inv {} where
  slots k h := by
    constructor
    · cases k <;> nofun
    · exact fun hk => absurd hk (not_holds_of_left rfl k)
  left _ := List.suffix_refl _
  done h := ⟨nofun, fun ⟨ok, hok⟩ => nomatch hok⟩
  resuming := nofun
  unique := nofun
  quiet _ := trivial

/-- A handler moves on without claiming or releasing anything. -/
theorem rehandle (hi : Inv s) (h : Nat) (v : Handler)
    (hholds : ∀ k, v.Holds k ↔ (s.handler h).Holds k) (hleft : v.left <:+ v.kind.dirs)
    (hdone : v.done = true ↔ ∃ ok, v.phase = .gone ok) :
    Inv { s with handler := Function.update s.handler h v } where
  slots k := by
    refine (Function.forall_update_iff s.handler fun x y => s.att.slot k = some x ↔ y.Holds k).mpr
      ⟨(hi.slots k h).trans (hholds k).symm, fun x _ => hi.slots k x⟩
  left := (Function.forall_update_iff s.handler fun _ y => y.left <:+ y.kind.dirs).mpr
    ⟨hleft, fun x _ => hi.left x⟩
  done := (Function.forall_update_iff s.handler
    fun _ y => y.done = true ↔ ∃ ok, y.phase = .gone ok).mpr ⟨hdone, fun x _ => hi.done x⟩
  resuming := hi.resuming
  unique := hi.unique
  quiet := hi.quiet

/-- A handler that is not gone changes phase and keeps what it holds. -/
theorem setPhase (hi : Inv s) (h : Nat) (p : Phase)
    (hold : ∀ ok, (s.handler h).phase ≠ .gone ok) (hnew : ∀ ok, p ≠ .gone ok)
    (hleft : Handler.left { s.handler h with phase := p } = (s.handler h).left) :
    Inv (s.setPhase h p) := by
  refine hi.rehandle h _ ?_ ?_ ?_
  · intro k
    unfold Handler.Holds
    rw [hleft]
  · rw [hleft]
    exact hi.left h
  · constructor
    · intro hd
      obtain ⟨ok, hok⟩ := (hi.done h).mp hd
      exact absurd hok (hold ok)
    · rintro ⟨ok, hok⟩
      exact absurd hok (hnew ok)

/-- A free slot is claimed: its direction is the one the handler was still missing first. -/
theorem claim_slot (hi : Inv s) {h : Nat} {k : Dir} {ks : List Dir}
    (hp : (s.handler h).phase = .claiming (k :: ks)) (hfree : s.att.slot k = none)
    (hr : s.att.resuming = false) :
    Inv { s.setPhase h (if ks = [] then .attached else .claiming ks) with
      att := s.att.claim k h } := by
  have hleft : (s.handler h).left = k :: ks := by rw [Handler.left, hp]
  have hsuffix := hi.left h
  rw [hleft] at hsuffix
  have hmem : k ∈ (s.handler h).kind.dirs := hsuffix.subset List.mem_cons_self
  have hnotin : k ∉ ks :=
    (List.nodup_cons.mp (hsuffix.sublist.nodup (s.handler h).kind.dirs_nodup)).1
  have hleft' : Handler.left { s.handler h with
      phase := if ks = [] then .attached else .claiming ks } = ks := by
    by_cases hks : ks = []
    · rw [if_pos hks, hks]
      rfl
    · rw [if_neg hks]
      rfl
  have hidle : ∀ r, ¬ (s.resume r).InProgress := by
    intro r hin
    rw [hi.resuming r hin] at hr
    cases hr
  refine ⟨?_, ?_, ?_, fun r hin => absurd hin (hidle r), fun r _ hin => absurd hin (hidle r), ?_⟩
  · intro k'
    refine (Function.forall_update_iff s.handler fun x y =>
      (s.att.claim k h).slot k' = some x ↔ y.Holds k').mpr ⟨?_, fun x hx => ?_⟩
    · rw [Attachments.slot_claim]
      unfold Handler.Holds
      rw [hleft']
      split
      next heq => exact ⟨fun _ => ⟨heq ▸ hmem, heq ▸ hnotin⟩, fun _ => rfl⟩
      next hne =>
        rw [hi.slots k' h, Handler.Holds, hleft, List.mem_cons, not_or]
        exact ⟨fun hk => ⟨hk.1, hk.2.2⟩, fun hk => ⟨hk.1, hne, hk.2⟩⟩
    · rw [Attachments.slot_claim, ← hi.slots k' x]
      split
      next heq =>
        rw [heq, hfree]
        exact ⟨fun hs => absurd (Option.some.inj hs).symm hx, nofun⟩
      next => exact Iff.rfl
  · refine (Function.forall_update_iff s.handler fun _ y => y.left <:+ y.kind.dirs).mpr
      ⟨?_, fun x _ => hi.left x⟩
    rw [hleft']
    exact (List.suffix_cons k ks).trans hsuffix
  · refine (Function.forall_update_iff s.handler
      fun _ y => y.done = true ↔ ∃ ok, y.phase = .gone ok).mpr ⟨?_, fun x _ => hi.done x⟩
    constructor
    · intro hd
      obtain ⟨ok, hok⟩ := (hi.done h).mp hd
      rw [hp] at hok
      cases hok
    · rintro ⟨ok, hok⟩
      dsimp only at hok
      split at hok <;> cases hok
  · intro r
    have hnot := hidle r
    cases hrp : s.resume r with
    | kicking olds => rw [hrp] at hnot; exact absurd trivial hnot
    | waiting old olds => rw [hrp] at hnot; exact absurd trivial hnot
    | quiesced => rw [hrp] at hnot; exact absurd trivial hnot
    | _ => show Quiet _ (s.resume r); rw [hrp]; trivial

/-- `detach` releases exactly what its own attachment holds. -/
theorem detach_step (hi : Inv s) {h : Nat} {ok : Bool}
    (hold : ∀ ok, (s.handler h).phase ≠ .gone ok) : Inv (s.detach h ok) := by
  have hnone : ∀ k, ¬ Handler.Holds { s.handler h with phase := .closing ok } k :=
    not_holds_of_left rfl
  have hfewer : ∀ k x, (s.att.release h).slot k = some x → s.att.slot k = some x := by
    intro k x hx
    rw [Attachments.slot_release] at hx
    split at hx
    next => cases hx
    next => exact hx
  refine ⟨?_, ?_, ?_, hi.resuming, hi.unique, fun r => quiet_of_fewer (hi.quiet r) hfewer⟩
  · intro k
    refine (Function.forall_update_iff s.handler fun x y =>
      (s.att.release h).slot k = some x ↔ y.Holds k).mpr ⟨?_, fun x hx => ?_⟩
    · refine ⟨fun hs => ?_, fun hk => absurd hk (hnone k)⟩
      rw [Attachments.slot_release] at hs
      split at hs
      next => cases hs
      next hne => exact absurd hs hne
    · rw [Attachments.slot_release, ← hi.slots k x]
      split
      next heq =>
        rw [heq]
        exact ⟨nofun, fun hs => absurd (Option.some.inj hs).symm hx⟩
      next => exact Iff.rfl
  · exact (Function.forall_update_iff s.handler fun _ y => y.left <:+ y.kind.dirs).mpr
      ⟨List.suffix_refl _, fun x _ => hi.left x⟩
  · refine (Function.forall_update_iff s.handler
      fun _ y => y.done = true ↔ ∃ ok, y.phase = .gone ok).mpr ⟨?_, fun x _ => hi.done x⟩
    constructor
    · intro hd
      obtain ⟨ok', hok⟩ := (hi.done h).mp hd
      exact absurd hok (hold ok')
    · rintro ⟨ok', hok⟩
      cases hok

/-- A resume request in progress moves on; what it knows about the slots stays true. -/
theorem setResume (hi : Inv s) {r : Nat} {p : ResumePhase}
    (hin : p.InProgress → (s.resume r).InProgress) (hq : Quiet s.att p) :
    Inv (s.setResume r p) where
  slots := hi.slots
  left := hi.left
  done := hi.done
  resuming := (Function.forall_update_iff s.resume fun _ y => y.InProgress → s.att.resuming = true).mpr
    ⟨fun hp => hi.resuming r (hin hp), fun x _ => hi.resuming x⟩
  unique := by
    -- the updated request is in progress only if it was
    have hback : ∀ x, (Function.update s.resume r p x).InProgress → (s.resume x).InProgress :=
      (Function.forall_update_iff s.resume fun x y => y.InProgress → (s.resume x).InProgress).mpr
        ⟨hin, fun _ _ => id⟩
    exact fun x y hx hy => hi.unique x y (hback x hx) (hback y hy)
  quiet := (Function.forall_update_iff s.resume fun _ y => Quiet s.att y).mpr
    ⟨hq, fun x _ => hi.quiet x⟩

/-- Changing the flag touches no slot. -/
theorem quiet_resuming {a : Attachments} {p : ResumePhase} (b : Bool) (h : Quiet a p) :
    Quiet { a with resuming := b } p :=
  quiet_of_fewer h fun k _ hx => by cases k <;> exact hx

theorem beginResume_step (hi : Inv s) {r : Nat} (hr : s.att.resuming = false) :
    Inv { s.setResume r .began with att := { s.att with resuming := true } } := by
  have hidle : ∀ x, ¬ (s.resume x).InProgress := by
    intro x hin
    rw [hi.resuming x hin] at hr
    cases hr
  have honly : ∀ x, (Function.update s.resume r .began x).InProgress → x = r :=
    (Function.forall_update_iff s.resume fun x y => y.InProgress → x = r).mpr
      ⟨fun _ => rfl, fun x _ hin => absurd hin (hidle x)⟩
  refine ⟨?_, hi.left, hi.done, fun _ _ => rfl,
    fun x y hx hy => (honly x hx).trans (honly y hy).symm, ?_⟩
  · intro k h
    refine Iff.trans ?_ (hi.slots k h)
    cases k <;> exact Iff.rfl
  · exact (Function.forall_update_iff s.resume
      fun _ y => Quiet { s.att with resuming := true } y).mpr
      ⟨trivial, fun x _ => quiet_resuming true (hi.quiet x)⟩

theorem endResume_step (hi : Inv s) {r : Nat} (hr : (s.resume r).InProgress) :
    Inv { s.setResume r .ended with att := { s.att with resuming := false } } := by
  -- the only request in progress has just ended
  have hidle : ∀ x, ¬ (Function.update s.resume r .ended x).InProgress := by
    refine (Function.forall_update_iff s.resume fun _ y => ¬ y.InProgress).mpr ⟨id, ?_⟩
    exact fun x hx hin => hx (hi.unique x r hin hr)
  refine ⟨?_, hi.left, hi.done, fun x hx => absurd hx (hidle x), fun x _ hx => absurd hx (hidle x), ?_⟩
  · intro k h
    refine Iff.trans ?_ (hi.slots k h)
    cases k <;> exact Iff.rfl
  · exact (Function.forall_update_iff s.resume
      fun _ y => Quiet { s.att with resuming := false } y).mpr
      ⟨trivial, fun x _ => quiet_resuming false (hi.quiet x)⟩

/-- Waiting out the owners of a list is all there is to do. -/
theorem quiet_afterKicks {a : Attachments} {olds : List Nat}
    (h : ∀ k x, a.slot k = some x → x ∈ olds) : Quiet a (.afterKicks olds) := by
  unfold ResumePhase.afterKicks
  split
  next hnil =>
    subst hnil
    intro k
    cases hs : a.slot k with
    | none => rfl
    | some x => exact absurd (h k x hs) List.not_mem_nil
  next => exact h

/-- **Every step keeps the ownership invariant.** -/
theorem step (hi : Inv s) {ev : AttachEvent} (hs : s.step ev = some s') : Inv s' := by
  rcases step_cases hs with ⟨h, v, a, hstep, rfl⟩ | ⟨r, p, a, hstep, rfl⟩
  · cases hstep with
    | attach kind hp =>
      have hnone : ∀ k, ¬ (s.handler h).Holds k := not_holds_of_left (by rw [Handler.left, hp])
      refine hi.rehandle h _ (fun k => ?_) (List.suffix_refl _) ⟨fun hd => ?_, ?_⟩
      · exact ⟨fun hk => absurd hk (not_holds_of_left rfl k), fun hk => absurd hk (hnone k)⟩
      · obtain ⟨ok, hok⟩ := (hi.done h).mp hd
        rw [hp] at hok
        cases hok
      · rintro ⟨_, hok⟩
        cases hok
    | refused hp | taken hp _ | kick hp | wake hp | timeout hp =>
      exact hi.setPhase h _ (by rw [hp]; nofun) nofun (by simp only [Handler.left, hp])
    | claim hp hr hfree => exact hi.claim_slot hp hfree hr
    | giveUp hp | detach hp => exact hi.detach_step (by rw [hp]; nofun)
    | @close ok hp =>
      have hnone : ∀ k, ¬ (s.handler h).Holds k := not_holds_of_left (by rw [Handler.left, hp])
      refine hi.rehandle h _ (fun k => ?_) (List.suffix_refl _) ⟨fun _ => ⟨ok, rfl⟩, fun _ => rfl⟩
      exact ⟨fun hk => absurd hk (not_holds_of_left rfl k), fun hk => absurd hk (hnone k)⟩
  · cases hstep with
    | refused hp => exact hi.setResume nofun trivial
    | began hp hr => exact hi.beginResume_step hr
    | kickAll hp =>
      refine hi.setResume (fun _ => by rw [hp]; trivial) (quiet_afterKicks ?_)
      intro k x hx
      cases k with
      | down => exact List.mem_append_left _ (Option.mem_toList.mpr hx)
      | up => exact List.mem_append_right _ (Option.mem_toList.mpr hx)
    | kick hp =>
      refine hi.setResume (fun _ => by rw [hp]; trivial) ?_
      have hq := hi.quiet r
      rw [hp] at hq
      exact fun k x hx => List.mem_cons.mp (hq k x hx)
    | wake hp hdone =>
      refine hi.setResume (fun _ => by rw [hp]; trivial) (quiet_afterKicks ?_)
      have hq := hi.quiet r
      rw [hp] at hq
      intro k x hx
      -- an owner whose `done` is closed is in no slot
      refine (hq k x hx).resolve_left ?_
      rintro rfl
      obtain ⟨ok, hok⟩ := (hi.done x).mp hdone
      exact gone_not_holds hok k ((hi.slots k x).mp hx)
    | timeout hp => exact hi.setResume (fun _ => by rw [hp]; trivial) trivial
    | ended hp => exact hi.endResume_step (by rcases hp with hp | hp <;> rw [hp] <;> trivial)

theorem reachable (h : machine.Reachable s) : Inv s :=
  Machine.Reach.invariant init (fun _ _ _ _ hi _ hs => hi.step hs) h

end Inv

/-! ## What the parties may rely on -/

/-- An attached handler stays attached until it detaches itself. -/
theorem attached_step {s s' : Ownership} {ev : AttachEvent} {h : Nat}
    (hatt : (s.handler h).phase = .attached) (hne : ev ≠ .detach h) (hs : s.step ev = some s') :
    s'.handler h = s.handler h := by
  by_cases hown : ev.handler? = some h
  · obtain ⟨v, a, hstep, -⟩ := own_step hs hown
    cases hstep with
    | detach _ | giveUp _ => exact absurd rfl hne
    | attach _ hp | refused hp | claim hp _ _ | taken hp _ | kick hp | wake hp | timeout hp
    | close hp => cases hatt.symm.trans hp
  · exact (step_frame hs).1 h hown

/-- A handler that has not asked for anything does nothing before it does. -/
theorem new_step {s s' : Ownership} {ev : AttachEvent} {h : Nat}
    (hnew : (s.handler h).phase = .new) (hne : ∀ kind, ev ≠ .attach h kind)
    (hs : s.step ev = some s') : s'.handler h = s.handler h := by
  by_cases hown : ev.handler? = some h
  · obtain ⟨v, a, hstep, -⟩ := own_step hs hown
    cases hstep with
    | attach kind _ => exact absurd rfl (hne kind)
    | refused hp | claim hp _ _ | taken hp _ | kick hp | wake hp | timeout hp | giveUp hp
    | detach hp | close hp => cases hnew.symm.trans hp
  · exact (step_frame hs).1 h hown

/-- Whoever has served once goes no way but out. -/
theorem served_step {s s' : Ownership} {ev : AttachEvent} {h : Nat} (hh : (s.handler h).Served)
    (hs : s.step ev = some s') : (s'.handler h).Served := by
  by_cases hown : ev.handler? = some h
  · obtain ⟨v, a, hstep, hv⟩ := own_step hs hown
    rw [hv]
    cases hstep with
    | detach _ | giveUp _ => exact .inr (.inl ⟨_, rfl⟩)
    | close _ => exact .inr (.inr ⟨_, rfl⟩)
    | attach _ hp | refused hp | claim hp _ _ | taken hp _ | kick hp | wake hp | timeout hp =>
      rcases hh with hp' | ⟨ok, hp'⟩ | ⟨ok, hp'⟩
      all_goals cases hp'.symm.trans hp
  · exact (step_frame hs).1 h hown ▸ hh

/-- A request past `kickAll` stays there until its `endResume`. -/
theorem quiesced_step {s s' : Ownership} {ev : AttachEvent} {r : Nat}
    (hq : s.resume r = .quiesced) (hne : ev ≠ .endResume r) (hs : s.step ev = some s') :
    s'.resume r = .quiesced := by
  by_cases hown : ev.resume? = some r
  · obtain ⟨p, a, hstep, -⟩ := own_resume hs hown
    cases hstep with
    | ended _ => exact absurd rfl hne
    | refused hp | began hp _ | kickAll hp | kick hp | wake hp _ | timeout hp =>
      cases hq.symm.trans hp
  · exact ((step_frame hs).2 r hown).trans hq

/-- An attached handler owns every direction of its kind. -/
theorem Inv.attached_owns {s : Ownership} (hi : Inv s) {h : Nat}
    (hatt : (s.handler h).phase = .attached) {k : Dir} (hk : k ∈ (s.handler h).kind.dirs) :
    s.att.slot k = some h := by
  refine (hi.slots k h).mpr ⟨hk, ?_⟩
  rw [Handler.left, hatt]
  exact List.not_mem_nil

/-- What a handler holds it has claimed. -/
theorem claimed_of_holds {h : Handler} {k : Dir} (hk : h.Holds k) : h.Claimed := by
  rcases h with ⟨kind, phase, done⟩
  cases phase with
  | new => exact hk.2 hk.1
  | claiming ks => exact fun heq => hk.2 (heq.symm ▸ hk.1)
  | kicking old ks => exact fun heq => hk.2 (heq.symm ▸ hk.1)
  | waiting old ks => exact fun heq => hk.2 (heq.symm ▸ hk.1)
  | failing ks => exact fun heq => hk.2 (heq.symm ▸ hk.1)
  | _ => trivial

/-- A handler of which every direction is still to be claimed starts with the first. -/
theorem left_eq_dirs_of_down {kind : AttachKind} {ks : List Dir} (h : .down :: ks <:+ kind.dirs) :
    .down :: ks = kind.dirs := by
  obtain ⟨pre, hpre⟩ := h
  cases kind with
  | down =>
    cases pre with
    | nil => exact hpre
    | cons x pre => exact absurd (List.cons.inj hpre).2 (by simp)
  | up =>
    cases pre with
    | nil => cases hpre
    | cons x pre => exact absurd (List.cons.inj hpre).2 (by simp)
  | both =>
    cases pre with
    | nil => exact hpre
    | cons x pre =>
      cases pre with
      | nil => cases hpre
      | cons y pre => exact absurd (List.cons.inj (List.cons.inj hpre).2).2 (by simp)

/-- A claim is never undone, and a handler that has claimed something already never starts to
hold the downstream direction later: it claims that one first. -/
theorem Inv.claimed_step {s s' : Ownership} (hi : Inv s) {ev : AttachEvent} {h : Nat}
    (hc : (s.handler h).Claimed) (hs : s.step ev = some s') :
    (s'.handler h).Claimed ∧ ((s'.handler h).Holds .down → (s.handler h).Holds .down) := by
  -- a phase with the same directions left to claim
  have hkeep : ∀ (p : Phase), Handler.Claimed { s.handler h with phase := p } →
      Handler.left { s.handler h with phase := p } = (s.handler h).left →
      Handler.Claimed { s.handler h with phase := p } ∧
        (Handler.Holds { s.handler h with phase := p } .down → (s.handler h).Holds .down) :=
    fun p hclaimed hleft => ⟨hclaimed, fun hk => ⟨hk.1, hleft ▸ hk.2⟩⟩
  by_cases hown : ev.handler? = some h
  · obtain ⟨v, a, hstep, hv⟩ := own_step hs hown
    rw [hv]
    cases hstep with
    | attach kind hp => rw [Handler.Claimed, hp] at hc; exact hc.elim
    | refused hp | taken hp _ | kick hp | wake hp | timeout hp =>
      exact hkeep _ (by rwa [Handler.Claimed, hp] at hc) (by simp only [Handler.left, hp])
    | @claim k ks hp _ _ =>
      have hleft : (s.handler h).left = k :: ks := by rw [Handler.left, hp]
      have hsuffix := hi.left h
      rw [hleft] at hsuffix
      have hne : k :: ks ≠ (s.handler h).kind.dirs := by rwa [Handler.Claimed, hp] at hc
      have hks : ks ≠ (s.handler h).kind.dirs := by
        intro heq
        have hlen := hsuffix.length_le
        rw [← heq, List.length_cons] at hlen
        omega
      have hfirst : k ≠ .down := by
        rintro rfl
        exact hne (left_eq_dirs_of_down hsuffix)
      by_cases hnil : ks = []
      · rw [if_pos hnil]
        refine ⟨trivial, fun hk => ⟨hk.1, ?_⟩⟩
        rw [hleft, hnil, List.mem_singleton]
        exact fun heq => hfirst heq.symm
      · rw [if_neg hnil]
        refine ⟨hks, fun hk => ⟨hk.1, ?_⟩⟩
        rw [hleft, List.mem_cons, not_or]
        exact ⟨fun heq => hfirst heq.symm, hk.2⟩
    | giveUp _ | detach _ | close _ =>
      exact ⟨trivial, fun hk => absurd hk (not_holds_of_left rfl _)⟩
  · rw [(step_frame hs).1 h hown]
    exact ⟨hc, id⟩

/-- A handler keeps the kind it asked `attach` for. -/
theorem kind_step {s s' : Ownership} {ev : AttachEvent} (hs : s.step ev = some s') (x : Nat)
    (hx : (s'.handler x).phase ≠ .new) :
    ((s.handler x).phase ≠ .new ∧ (s'.handler x).kind = (s.handler x).kind) ∨
      ev = .attach x (s'.handler x).kind := by
  by_cases hown : ev.handler? = some x
  · obtain ⟨v, a, hstep, hv⟩ := own_step hs hown
    rw [hv]
    cases hstep with
    | attach kind _ => exact .inr rfl
    | refused hp | claim hp _ _ | taken hp _ | kick hp | wake hp | timeout hp | giveUp hp
    | detach hp | close hp => exact .inl ⟨by rw [hp]; nofun, rfl⟩
  · have heq := (step_frame hs).1 x hown
    exact .inl ⟨heq ▸ hx, by rw [heq]⟩

theorem targets_afterKicks (olds : List Nat) : (ResumePhase.afterKicks olds).targets = olds := by
  unfold ResumePhase.afterKicks
  split
  next h => rw [h]; rfl
  next => rfl

/-- Whoever is to be kicked after a step was to be kicked before or is in a slot. -/
theorem target_step {s s' : Ownership} {ev : AttachEvent} (hs : s.step ev = some s') :
    (∀ x t, (s'.handler x).phase.target = some t →
      (s.handler x).phase.target = some t ∨ ∃ k, s.att.slot k = some t) ∧
    (∀ r t, t ∈ (s'.resume r).targets → t ∈ (s.resume r).targets ∨ ∃ k, s.att.slot k = some t) := by
  obtain ⟨hframe, hframeR⟩ := step_frame hs
  constructor
  · intro x t ht
    by_cases hown : ev.handler? = some x
    · obtain ⟨v, a, hstep, hv⟩ := own_step hs hown
      rw [hv] at ht
      cases hstep with
      | @taken k ks old hp hslot => exact .inr ⟨k, hslot.trans ht⟩
      | claim _ _ _ => dsimp only at ht; split at ht <;> cases ht
      | attach _ _ | refused _ | kick _ | wake _ | timeout _ | giveUp _ | detach _ | close _ =>
        cases ht
    · rw [hframe x hown] at ht
      exact .inl ht
  · intro r t ht
    by_cases hown : ev.resume? = some r
    · obtain ⟨p, a, hstep, hp⟩ := own_resume hs hown
      rw [hp] at ht
      cases hstep with
      | kickAll _ =>
        rw [targets_afterKicks] at ht
        rcases List.mem_append.mp ht with hd | hu
        · exact .inr ⟨.down, Option.mem_toList.mp hd⟩
        · exact .inr ⟨.up, Option.mem_toList.mp hu⟩
      | kick hold => rw [hold]; exact .inl (List.mem_cons_of_mem _ ht)
      | wake hold _ =>
        rw [targets_afterKicks] at ht
        rw [hold]
        exact .inl ht
      | refused _ | began _ _ | timeout _ | ended _ => cases ht
    · rw [hframeR r hown] at ht
      exact .inl ht

/-- Nobody is about to be kicked who has not claimed something. -/
structure Kickable (s : Ownership) : Prop where
  byHandler : ∀ x t, (s.handler x).phase.target = some t → (s.handler t).Claimed
  byResume : ∀ r t, t ∈ (s.resume r).targets → (s.handler t).Claimed

theorem Kickable.step {s s' : Ownership} {ev : AttachEvent} (hk : Kickable s) (hi : Inv s)
    (hs : s.step ev = some s') : Kickable s' := by
  obtain ⟨htarget, htargets⟩ := target_step hs
  have hslot : ∀ t, (∃ k, s.att.slot k = some t) → (s'.handler t).Claimed := fun t ⟨k, hk⟩ =>
    (hi.claimed_step (claimed_of_holds ((hi.slots k t).mp hk)) hs).1
  refine ⟨fun x t ht => ?_, fun r t ht => ?_⟩
  · exact (htarget x t ht).elim (fun h => (hi.claimed_step (hk.byHandler x t h) hs).1) (hslot t)
  · exact (htargets r t ht).elim (fun h => (hi.claimed_step (hk.byResume r t h) hs).1) (hslot t)

/-- **One transport per direction, none during a handshake.** In every reachable state:

* an attached handler owns every direction of its kind, keeps doing so through every step but its
  own `detach`, and shares none with another attached handler;
* a failed attach is in no slot and its `done` is closed;
* at most one resume is in progress;
* once `kickAll` has returned nil both slots are empty, no handler is attached, and that lasts
  until the `endResume`. -/
theorem one_transport_per_direction {s : Ownership} (hr : machine.Reachable s) :
    (∀ h, (s.handler h).phase = .attached →
      (∀ k ∈ (s.handler h).kind.dirs, s.att.slot k = some h) ∧
      ∀ ev s', ev ≠ .detach h → s.step ev = some s' → s'.handler h = s.handler h) ∧
    (∀ h h' k, (s.handler h).phase = .attached → (s.handler h').phase = .attached →
      k ∈ (s.handler h).kind.dirs → k ∈ (s.handler h').kind.dirs → h = h') ∧
    (∀ h, (s.handler h).phase = .gone false →
      (∀ k, s.att.slot k ≠ some h) ∧ (s.handler h).done = true) ∧
    (∀ r r', (s.resume r).InProgress → (s.resume r').InProgress → r = r') ∧
    (∀ r, s.resume r = .quiesced →
      (∀ k, s.att.slot k = none) ∧ (∀ h, (s.handler h).phase ≠ .attached) ∧
      ∀ ev s', ev ≠ .endResume r → s.step ev = some s' → s'.resume r = .quiesced) := by
  have hi := Inv.reachable hr
  refine ⟨?_, ?_, ?_, hi.unique, ?_⟩
  · exact fun h hatt => ⟨fun k hk => hi.attached_owns hatt hk, fun ev s' => attached_step hatt⟩
  · intro h h' k hatt hatt' hk hk'
    have howns := hi.attached_owns hatt hk
    rw [hi.attached_owns hatt' hk'] at howns
    exact (Option.some.inj howns).symm
  · intro h hgone
    exact ⟨fun k hs => gone_not_holds hgone k ((hi.slots k h).mp hs), (hi.done h).mpr ⟨_, hgone⟩⟩
  · intro r hq
    have hempty := hi.quiet r
    rw [hq] at hempty
    refine ⟨hempty, ?_, fun ev s' => quiesced_step hq⟩
    intro h hatt
    obtain ⟨k, hk⟩ : ∃ k, k ∈ (s.handler h).kind.dirs := by
      cases (s.handler h).kind
      · exact ⟨.down, List.mem_cons_self⟩
      · exact ⟨.up, List.mem_cons_self⟩
      · exact ⟨.down, List.mem_cons_self⟩
    exact absurd ((hi.attached_owns hatt hk).symm.trans (hempty k)) nofun

/-- A WebSocket claims one direction, finds a send-stream in the other, kicks it and waits it
out; a handshake then kicks the WebSocket, which turns a third handler away meanwhile. -/
def handoverRun : List AttachEvent :=
  [.attach 0 .up, .claim 0, .attach 1 .both, .claim 1, .claim 1, .kick 1, .detach 0, .close 0,
   .wake 1, .claim 1, .beginResume 0, .kickAll 0, .attach 2 .down, .claim 2, .detach 2, .close 2,
   .resumeKick 0, .detach 1, .close 1, .resumeWake 0, .resumeKick 0, .resumeWake 0]

/-- `handoverRun` ends with the handshake alone: both slots empty, the third attach failed. -/
theorem handoverRun_quiesced :
    (machine.final handoverRun).resume 0 = .quiesced ∧
      ((machine.final handoverRun).handler 2).phase = .gone false ∧
      (∀ k, (machine.final handoverRun).att.slot k = none) ∧
      ((machine.final handoverRun).handler 2).done = true := by
  obtain ⟨_, _, hfailed, _, hquiet⟩ :=
    one_transport_per_direction (machine.reachable_final handoverRun)
  exact ⟨by decide, by decide, (hquiet 0 (by decide)).1, (hfailed 2 (by decide)).2⟩

end Ownership

end Pollmux
