import Pollmux.Config
import Pollmux.Kit.History
import Pollmux.Reliable

/-!
# When a resumable connection gives up

`supervise` (`resumable_client.go`) runs one set of legs after another. When a
set has ended it decides from the reason, from how long the legs lasted and from
what they moved whether to resume the session, and after a successful resume
whether that was one fruitless round too many. `resumeStabilityGuard` keeps the
two counters it needs for that.

A `Round` is one round as the supervisor meets it: why and when the legs ended, the
byte layer when they began and when they had ended, and the attempts of the
`resume` that followed, itself a loop over handshakes, with the answer they come
to on that layer. `supervise` is the loop over such rounds, with its counters;
`Ends` is the rule, which knows of no counter and looks at the last rounds of the
history instead. `supervise_ok_iff` says that the loop goes on exactly as long as
the rule lets it, and `gives_up_exactly` with what answer it ends.
-/

namespace Pollmux

open Kit

/-- The errors of a leg or of a resume, as far as `supervise` tells them apart. -/
inductive LegErr
  /-- `errSessionGone`, after a `frameGone`. -/
  | sessionGone
  /-- `fatalPollError`. -/
  | status (code : Nat)
  | replayGap
  | badAck
  /-- `errBatchBodyTimeout`. -/
  | batchBodyTimeout
  | other
  deriving DecidableEq, Repr

/-- `isSessionClosedErr`. -/
def isSessionClosedErr : LegErr → Bool
  | .sessionGone => true
  | .status code => code == 410 || code == 404
  | _ => false

/-- The server has closed the session: a `frameGone`, a 410 or a 404. -/
def LegErr.Closed (err : LegErr) : Prop :=
  err = .sessionGone ∨ err = .status 410 ∨ err = .status 404

theorem isSessionClosedErr_iff (err : LegErr) : isSessionClosedErr err = true ↔ err.Closed := by
  cases err <;> simp [isSessionClosedErr, LegErr.Closed]

theorem not_closed_iff (err : LegErr) : isSessionClosedErr err = false ↔ ¬ err.Closed := by
  rw [← isSessionClosedErr_iff, Bool.not_eq_true]

/-- `reliableProgress`. -/
structure ReliableProgress where
  acked : Nat
  recv : Nat
  deriving DecidableEq, Repr

/-- `progress`. -/
def Reliable.progress (r : Reliable) : ReliableProgress :=
  { acked := r.ackedOffset, recv := r.recvOffset }

def resumableLegsMinStable : Int := 2 * second
def maxConsecutiveFastResumes : Nat := 5
def maxConsecutiveBatchBodyTimeouts : Nat := 3

structure ResumeStabilityGuard where
  consecutiveFast : Nat := 0
  consecutiveBodyTimeouts : Nat := 0
  deriving DecidableEq, Repr

namespace ResumeStabilityGuard

/-- `recordBodyTimeout`, with the guard it leaves. -/
def recordBodyTimeout (g : ResumeStabilityGuard) (bodyTimedOut received : Bool) :
    Bool × ResumeStabilityGuard :=
  if bodyTimedOut = false ∨ received = true then (false, { g with consecutiveBodyTimeouts := 0 })
  else
    (decide (maxConsecutiveBatchBodyTimeouts ≤ g.consecutiveBodyTimeouts + 1),
      { g with consecutiveBodyTimeouts := g.consecutiveBodyTimeouts + 1 })

/-- `record`. -/
def record (g : ResumeStabilityGuard) (legsDuration : Int) (progressed : Bool) :
    Bool × ResumeStabilityGuard :=
  if resumableLegsMinStable ≤ legsDuration ∨ progressed = true then
    (false, { g with consecutiveFast := 0 })
  else
    (decide (maxConsecutiveFastResumes ≤ g.consecutiveFast + 1),
      { g with consecutiveFast := g.consecutiveFast + 1 })

/-- It gives up when it has counted enough rounds. -/
theorem record_gives_up {g : ResumeStabilityGuard} {legsDuration : Int} {progressed : Bool}
    (h : (g.record legsDuration progressed).1 = true) :
    maxConsecutiveFastResumes ≤ (g.record legsDuration progressed).2.consecutiveFast := by
  unfold record at h ⊢
  split at h
  next => cases h
  next hfast =>
    rw [if_neg hfast]
    exact of_decide_eq_true h

end ResumeStabilityGuard

/-! ## The resume loop -/

/-- What `doResume` answers: the server's offset, a status other than 200 (or the 409 it makes of a
refusal), or that there was no answer one could read. -/
inductive ResumeReply
  | ok (serverRecv : Nat)
  | status (code : Nat)
  | err
  deriving DecidableEq, Repr

/-- One turn of the loop: the handshake, whether a WebSocket could be dialled after it, whether
the grace had run out by then, and whether the connection was still open after the pause. -/
structure ResumeAttempt where
  handshake : ResumeReply
  dialed : Bool := true
  expired : Bool := false
  isOpen : Bool := true
  deriving DecidableEq, Repr

/-- What `resume` answers: nil, with the layer as it is then, or an error, with whether the
connection is open. -/
inductive ResumeResult
  | resumed (rl : Reliable)
  | failed (err : LegErr) (isOpen : Bool)
  deriving DecidableEq, Repr

/-- The end of a turn that has not settled it: the grace is spent, or the pause is cut short, or
there is another turn. -/
def ResumeAttempt.retry (a : ResumeAttempt) (lastErr : LegErr) (again : Option ResumeResult) :
    Option ResumeResult :=
  if a.expired then some (.failed lastErr a.isOpen)
  else if a.isOpen = false then some (.failed .other false)
  else again

/-- `resume`. It is still trying (`none`) when the attempts run out. -/
def resume (webSocket : Bool) (rl : Reliable) : List ResumeAttempt → Option ResumeResult
  | [] => none
  | a :: rest =>
    match a.handshake with
    | .ok serverRecv =>
      match rl.resumeOut serverRecv with
      | none => none
      | some (false, _) => some (.failed .other a.isOpen)
      | some (true, rl') =>
        if webSocket = false ∨ a.dialed = true then some (.resumed rl')
        else a.retry .other (resume webSocket rl' rest)
    | .status code =>
      if code < 500 then some (.failed (.status code) a.isOpen)
      else a.retry (.status code) (resume webSocket rl rest)
    | .err => a.retry .other (resume webSocket rl rest)

/-! ## The supervisor -/

/-- One round: why the legs ended and after how long, the byte layer when they began and when they
had ended, whether the connection was open then, and the attempts that `resume` would make with what
it answers after them. -/
structure Round where
  err : LegErr
  duration : Int
  atStart : Reliable
  atEnd : Reliable
  isOpen : Bool := true
  webSocket : Bool := false
  attempts : List ResumeAttempt
  resume : ResumeResult
  settles : Pollmux.resume webSocket atEnd attempts = some resume

/-- How `supervise` ends. The connection was closed or cancelled; the server has closed the
session; or it gives up on the session and fails the connection. `resumed` says that the round had
got as far as calling `resume`. -/
inductive SuperviseEnd
  | closed (resumed : Bool)
  | sessionClosed (resumed : Bool)
  | inconsistent
  | bodyTimeouts
  | resumeFailed
  | fastResumes
  deriving DecidableEq, Repr

/-- The last round called `resume`. -/
def SuperviseEnd.triedResume : SuperviseEnd → Bool
  | .closed resumed | .sessionClosed resumed => resumed
  | .inconsistent | .bodyTimeouts => false
  | .resumeFailed | .fastResumes => true

/-- What the supervisor does with the answer of `resume`. -/
def afterResume (g : ResumeStabilityGuard) (round : Round) :
    Except SuperviseEnd ResumeStabilityGuard :=
  match round.resume with
  | .failed err isOpen =>
    if isOpen = false then .error (.closed true)
    else if isSessionClosedErr err then .error (.sessionClosed true)
    else .error .resumeFailed
  | .resumed rl =>
    let recorded := g.record round.duration (rl.progress != round.atStart.progress)
    if recorded.1 then .error .fastResumes else .ok recorded.2

/-- The body of the supervisor's loop. -/
def superviseRound (g : ResumeStabilityGuard) (round : Round) :
    Except SuperviseEnd ResumeStabilityGuard :=
  if round.isOpen = false then .error (.closed false)
  else if isSessionClosedErr round.err then .error (.sessionClosed false)
  else if round.err = .replayGap ∨ round.err = .badAck ∨ round.atEnd.isBroken then
    .error .inconsistent
  else
    let recorded := g.recordBodyTimeout (round.err == .batchBodyTimeout)
      (round.atEnd.recvOffsetNow != round.atStart.progress.recv)
    if recorded.1 then .error .bodyTimeouts else afterResume recorded.2 round

/-- `supervise` over the rounds it meets: how it ended, or the guard with which it goes on. -/
def supervise (rounds : List Round) : Except SuperviseEnd ResumeStabilityGuard :=
  rounds.foldlM superviseRound {}

/-! ## The rule -/

namespace Round

/-- The session is closed, or the byte stream can no longer be vouched for. -/
def Hopeless (round : Round) : Prop :=
  round.err.Closed ∨ round.err = .replayGap ∨ round.err = .badAck ∨ round.atEnd.broken = true

/-- The round ended in a batch response that did not finish, with nothing received since it began. -/
def starved (round : Round) : Bool :=
  round.err == .batchBodyTimeout && round.atEnd.recvOffset == round.atStart.recvOffset

/-- The round was short, and neither offset had changed when it was resumed. -/
def fruitless (round : Round) : Bool :=
  match round.resume with
  | .resumed rl => decide (round.duration < resumableLegsMinStable) &&
      (rl.ackedOffset == round.atStart.ackedOffset && rl.recvOffset == round.atStart.recvOffset)
  | .failed _ _ => false

end Round

/-- The last `n` rounds all meet `p`. -/
def InARow (n : Nat) (p : Round → Bool) (rounds : List Round) : Prop :=
  ∃ ys zs, rounds = ys ++ zs ∧ zs.length = n ∧ ∀ round ∈ zs, p round = true

instance (n : Nat) (p : Round → Bool) (rounds : List Round) : Decidable (InARow n p rounds) :=
  decidable_of_iff _ le_streak_iff

/-- After the rounds `past`, the round `round` comes to a resume. -/
structure ComesToResume (past : List Round) (round : Round) : Prop where
  isOpen : round.isOpen = true
  hopeful : ¬ round.Hopeless
  fed : ¬ InARow 3 Round.starved (past ++ [round])

/-- **The rule.** How the supervisor ends in the round `round` after the rounds `past`. -/
inductive Ends (past : List Round) (round : Round) : SuperviseEnd → Prop
  | closed (hc : round.isOpen = false) : Ends past round (.closed false)
  | sessionClosed (ho : round.isOpen = true) (hgone : round.err.Closed) :
      Ends past round (.sessionClosed false)
  | inconsistent (ho : round.isOpen = true) (hnot : ¬ round.err.Closed)
      (hbad : round.err = .replayGap ∨ round.err = .badAck ∨ round.atEnd.broken = true) :
      Ends past round .inconsistent
  | bodyTimeouts (ho : round.isOpen = true) (hopeful : ¬ round.Hopeless)
      (hthree : InARow 3 Round.starved (past ++ [round])) : Ends past round .bodyTimeouts
  | cancelled {err : LegErr} (hgo : ComesToResume past round)
      (hres : round.resume = .failed err false) : Ends past round (.closed true)
  | refused {err : LegErr} (hgo : ComesToResume past round) (hres : round.resume = .failed err true)
      (hgone : err.Closed) : Ends past round (.sessionClosed true)
  | resumeFailed {err : LegErr} (hgo : ComesToResume past round)
      (hres : round.resume = .failed err true) (hnot : ¬ err.Closed) :
      Ends past round .resumeFailed
  | fastResumes {rl : Reliable} (hgo : ComesToResume past round) (hres : round.resume = .resumed rl)
      (hfive : InARow 5 Round.fruitless (past ++ [round])) : Ends past round .fastResumes

/-! ## The loop follows the rule -/

/-- The guard that has counted the rounds `rounds`. -/
def guardOf (rounds : List Round) : ResumeStabilityGuard where
  consecutiveFast := streak Round.fruitless rounds
  consecutiveBodyTimeouts := streak Round.starved rounds

/-- The guard in the middle of a round: of the round itself it has counted the body timeout. -/
def guardWithin (past : List Round) (round : Round) : ResumeStabilityGuard where
  consecutiveFast := streak Round.fruitless past
  consecutiveBodyTimeouts := streak Round.starved (past ++ [round])

variable {past : List Round} {round : Round} {e : SuperviseEnd} {g : ResumeStabilityGuard}

/-- A counter that is raised by the rounds that meet `p` and reset by the others says whether the
last `n` of them met it. -/
theorem decide_inARow_concat (n : Nat) (p : Round → Bool) (past : List Round) (round : Round) :
    decide (InARow n p (past ++ [round])) =
      decide (n ≤ if p round = true then streak p past + 1 else 0) := by
  rw [decide_eq_decide, ← streak_concat]
  exact le_streak_iff.symm

/-- The guard's answer on a body timeout: this is the third starved round in a row. -/
theorem recordBodyTimeout_guardOf (past : List Round) (round : Round) :
    (guardOf past).recordBodyTimeout (round.err == .batchBodyTimeout)
        (round.atEnd.recvOffsetNow != round.atStart.progress.recv) =
      (decide (InARow 3 Round.starved (past ++ [round])), guardWithin past round) := by
  have hst : round.starved = true ↔ ¬ ((round.err == .batchBodyTimeout) = false ∨
      (round.atEnd.recvOffsetNow != round.atStart.progress.recv) = true) := by
    simp [Round.starved, Reliable.recvOffsetNow, Reliable.progress]
  rw [decide_inARow_concat, guardWithin, streak_concat]
  unfold ResumeStabilityGuard.recordBodyTimeout
  split
  next hno => rw [if_neg (fun h => hst.mp h hno)]; rfl
  next hyes => rw [if_pos (hst.mpr hyes)]; rfl

/-- The guard's answer on a successful resume: this is the fifth fruitless round in a row. -/
theorem record_guardWithin (past : List Round) {rl : Reliable} (hres : round.resume = .resumed rl) :
    (guardWithin past round).record round.duration (rl.progress != round.atStart.progress) =
      (decide (InARow 5 Round.fruitless (past ++ [round])), guardOf (past ++ [round])) := by
  have hfr : round.fruitless = true ↔ ¬ (resumableLegsMinStable ≤ round.duration ∨
      (rl.progress != round.atStart.progress) = true) := by
    simp [Round.fruitless, hres, Reliable.progress]
  rw [decide_inARow_concat, guardOf, streak_concat Round.fruitless]
  unfold ResumeStabilityGuard.record
  split
  next hno => rw [if_neg (fun h => hfr.mp h hno)]; rfl
  next hyes => rw [if_pos (hfr.mpr hyes)]; rfl

/-- The last of a row is in it. -/
theorem InARow.last {n : Nat} {p : Round → Bool} (h : InARow (n + 1) p (past ++ [round])) :
    p round = true := by
  have hlast := of_decide_eq_true ((decide_inARow_concat _ _ _ _).symm.trans (decide_eq_true h))
  split at hlast
  next hp => exact hp
  next => exact absurd hlast (Nat.not_succ_le_zero n)

/-- A fruitless round is one that was resumed. -/
theorem resumed_of_fruitless (h : round.fruitless = true) : ∃ rl, round.resume = .resumed rl := by
  unfold Round.fruitless at h
  split at h
  next rl hres => exact ⟨rl, hres⟩
  next => cases h

/-- What follows the answer of `resume`, by the history. -/
def outcomeOf (past : List Round) (round : Round) : Except SuperviseEnd ResumeStabilityGuard :=
  match round.resume with
  | .failed _ false => .error (.closed true)
  | .failed err true =>
    if isSessionClosedErr err then .error (.sessionClosed true) else .error .resumeFailed
  | .resumed _ =>
    if InARow 5 Round.fruitless (past ++ [round]) then .error .fastResumes
    else .ok (guardOf (past ++ [round]))

theorem afterResume_guardWithin (past : List Round) (round : Round) :
    afterResume (guardWithin past round) round = outcomeOf past round := by
  unfold afterResume outcomeOf
  cases hres : round.resume with
  | failed err isOpen => cases isOpen <;> rfl
  | resumed rl => simp only [record_guardWithin past hres, decide_eq_true_eq]

/-- The round with the history in the place of the counters. -/
theorem superviseRound_guardOf (past : List Round) (round : Round) :
    superviseRound (guardOf past) round =
      if round.isOpen = false then .error (.closed false)
      else if isSessionClosedErr round.err then .error (.sessionClosed false)
      else if round.err = .replayGap ∨ round.err = .badAck ∨ round.atEnd.broken = true then
        .error .inconsistent
      else if InARow 3 Round.starved (past ++ [round]) then .error .bodyTimeouts
      else outcomeOf past round := by
  simp only [superviseRound, recordBodyTimeout_guardOf, decide_eq_true_eq, afterResume_guardWithin,
    Reliable.isBroken]

theorem Round.not_hopeless (h : ¬ round.Hopeless) : isSessionClosedErr round.err = false ∧
    ¬ (round.err = .replayGap ∨ round.err = .badAck ∨ round.atEnd.broken = true) := by
  rw [Round.Hopeless, not_or, ← not_closed_iff] at h
  exact h

/-- A round that comes to a resume ends or goes on with the answer. -/
theorem superviseRound_of_comes (hgo : ComesToResume past round) :
    superviseRound (guardOf past) round = outcomeOf past round := by
  obtain ⟨hnot, hgood⟩ := Round.not_hopeless hgo.hopeful
  rw [superviseRound_guardOf, hgo.isOpen, hnot, if_neg (by simp), if_neg (by simp), if_neg hgood,
    if_neg hgo.fed]

/-- **One round**: the supervisor ends in it as the rule says. -/
theorem superviseRound_error_iff :
    superviseRound (guardOf past) round = .error e ↔ Ends past round e := by
  constructor
  · intro h
    rw [superviseRound_guardOf] at h
    split at h
    next hc => cases h; exact .closed hc
    next ho =>
      rw [Bool.not_eq_false] at ho
      split at h
      next hgone => cases h; exact .sessionClosed ho ((isSessionClosedErr_iff _).mp hgone)
      next hnot =>
        rw [isSessionClosedErr_iff] at hnot
        split at h
        next hbad => cases h; exact .inconsistent ho hnot hbad
        next hgood =>
          have hopeful : ¬ round.Hopeless := by
            rintro (hgone | hbad)
            · exact hnot hgone
            · exact hgood hbad
          split at h
          next hthree => cases h; exact .bodyTimeouts ho hopeful hthree
          next hfed =>
            have hgo : ComesToResume past round := ⟨ho, hopeful, hfed⟩
            unfold outcomeOf at h
            split at h
            next hres => cases h; exact .cancelled hgo hres
            next hres =>
              split at h
              next hgone =>
                cases h
                exact .refused hgo hres ((isSessionClosedErr_iff _).mp hgone)
              next hno =>
                cases h
                exact .resumeFailed hgo hres fun hgone => hno ((isSessionClosedErr_iff _).mpr hgone)
            next hres =>
              split at h
              next hfive => cases h; exact .fastResumes hgo hres hfive
              next => cases h
  · intro h
    cases h with
    | closed hc => simp [superviseRound, hc]
    | sessionClosed ho hgone => simp [superviseRound, ho, (isSessionClosedErr_iff _).mpr hgone]
    | inconsistent ho hnot hbad =>
      simp [superviseRound_guardOf, ho, (not_closed_iff _).mpr hnot, hbad]
    | bodyTimeouts ho hopeful hthree =>
      simp [superviseRound_guardOf, ho, Round.not_hopeless hopeful, hthree]
    | cancelled hgo hres => simp [superviseRound_of_comes hgo, outcomeOf, hres]
    | refused hgo hres hgone =>
      simp [superviseRound_of_comes hgo, outcomeOf, hres, (isSessionClosedErr_iff _).mpr hgone]
    | resumeFailed hgo hres hnot =>
      simp [superviseRound_of_comes hgo, outcomeOf, hres, (not_closed_iff _).mpr hnot]
    | fastResumes hgo hres hfive => simp [superviseRound_of_comes hgo, outcomeOf, hres, hfive]

/-- A round in which the rule does not end it. -/
theorem not_ends_iff : (∀ e, ¬ Ends past round e) ↔
    ComesToResume past round ∧ (∃ rl, round.resume = .resumed rl) ∧
      ¬ InARow 5 Round.fruitless (past ++ [round]) := by
  constructor
  · intro h
    have ho : round.isOpen = true := by
      rw [← Bool.not_eq_false]
      exact fun hc => h _ (.closed hc)
    have hopeful : ¬ round.Hopeless := by
      rintro (hgone | hbad)
      · exact h _ (.sessionClosed ho hgone)
      · by_cases hgone : round.err.Closed
        · exact h _ (.sessionClosed ho hgone)
        · exact h _ (.inconsistent ho hgone hbad)
    have hgo : ComesToResume past round :=
      ⟨ho, hopeful, fun hthree => h _ (.bodyTimeouts ho hopeful hthree)⟩
    refine ⟨hgo, ?_⟩
    cases hres : round.resume with
    | resumed rl => exact ⟨⟨rl, rfl⟩, fun hfive => h _ (.fastResumes hgo hres hfive)⟩
    | failed err isOpen =>
      cases isOpen with
      | false => exact absurd (.cancelled hgo hres) (h _)
      | true =>
        by_cases hgone : err.Closed
        · exact absurd (.refused hgo hres hgone) (h _)
        · exact absurd (.resumeFailed hgo hres hgone) (h _)
  · rintro ⟨hgo, ⟨rl, hres⟩, hfive⟩ e he
    have hround := superviseRound_error_iff.mpr he
    rw [superviseRound_of_comes hgo] at hround
    simp [outcomeOf, hres, hfive] at hround

/-- The supervisor goes on from a round with the counters at what the history says. -/
theorem superviseRound_ok (h : superviseRound (guardOf past) round = .ok g) :
    g = guardOf (past ++ [round]) := by
  have hno : ∀ e, ¬ Ends past round e := by
    intro e he
    rw [superviseRound_error_iff.mpr he] at h
    cases h
  obtain ⟨hgo, ⟨rl, hres⟩, hfive⟩ := not_ends_iff.mp hno
  rw [superviseRound_of_comes hgo, outcomeOf, hres] at h
  dsimp only at h
  rw [if_neg hfive] at h
  exact (Except.ok.inj h).symm

theorem supervise_concat (past : List Round) (round : Round) :
    supervise (past ++ [round]) = supervise past >>= fun g => superviseRound g round := by
  simp [supervise, List.foldlM_append]

/-- **The counters are what the history says**, as long as the supervisor goes on. -/
theorem supervise_ok {rounds : List Round} (h : supervise rounds = .ok g) : g = guardOf rounds := by
  induction rounds using List.reverseRecOn generalizing g with
  | nil => cases h; rfl
  | append_singleton past round ih =>
    rw [supervise_concat] at h
    cases hpast : supervise past with
    | error e => rw [hpast] at h; cases h
    | ok g' =>
      rw [hpast, ih hpast] at h
      exact superviseRound_ok h

/-- Once the supervisor has ended there are no more rounds. -/
theorem supervise_append_error {rounds : List Round} (h : supervise rounds = .error e)
    (more : List Round) : supervise (rounds ++ more) = .error e := by
  rw [supervise, List.foldlM_append, show rounds.foldlM superviseRound {} = .error e from h]
  rfl

/-- A round in which the rule ends it, after rounds in which it went on. -/
theorem supervise_of_ends (hpast : supervise past = .ok g) (he : Ends past round e)
    (rest : List Round) : supervise (past ++ round :: rest) = .error e := by
  rw [show past ++ round :: rest = (past ++ [round]) ++ rest by simp]
  apply supervise_append_error
  rw [supervise_concat, hpast, supervise_ok hpast]
  exact superviseRound_error_iff.mpr he

/-- **It goes on exactly while the rule lets it.** -/
theorem supervise_ok_iff (rounds : List Round) : (∃ g, supervise rounds = .ok g) ↔
    ∀ past round rest, rounds = past ++ round :: rest → ∀ e, ¬ Ends past round e := by
  constructor
  · rintro ⟨g, h⟩ past round rest rfl e he
    cases hpast : supervise past with
    | error e' =>
      rw [supervise_append_error hpast] at h
      cases h
    | ok g' =>
      rw [supervise_of_ends hpast he] at h
      cases h
  · intro h
    induction rounds using List.reverseRecOn with
    | nil => exact ⟨_, rfl⟩
    | append_singleton past round ih =>
      obtain ⟨g, hpast⟩ := ih fun past' round' rest hsplit =>
        h past' round' (rest ++ [round]) (by rw [hsplit]; simp)
      rw [supervise_concat, hpast, supervise_ok hpast]
      cases hround : superviseRound (guardOf past) round with
      | ok g' => exact ⟨g', hround⟩
      | error e => exact absurd (superviseRound_error_iff.mp hround) (h past round [] rfl e)

/-- **The supervisor gives up exactly when it should.** It goes on after a history of rounds, of
any length, when in each of them the connection was open, the error left something to resume, it
was not the third starved round in a row, the resume succeeded and it was not the fifth fruitless
round in a row. When an open connection is in its first round that is not so, the supervisor stops:
without a resume if the error is fatal or the round the third starved one, and otherwise after a
resume that failed or that makes five fruitless rounds. -/
theorem gives_up_exactly (rounds : List Round) :
    ((∃ g, supervise rounds = .ok g) ↔
      ∀ past round rest, rounds = past ++ round :: rest →
        round.isOpen = true ∧ ¬ round.Hopeless ∧ ¬ InARow 3 Round.starved (past ++ [round]) ∧
          (∃ rl, round.resume = .resumed rl) ∧ ¬ InARow 5 Round.fruitless (past ++ [round])) ∧
    (∀ past round rest g, rounds = past ++ round :: rest → supervise past = .ok g →
      round.isOpen = true →
      (round.Hopeless ∨ InARow 3 Round.starved (past ++ [round]) →
        ∃ e, supervise rounds = .error e ∧ e.triedResume = false) ∧
      (¬ (round.Hopeless ∨ InARow 3 Round.starved (past ++ [round])) →
        (∀ err isOpen, round.resume = .failed err isOpen →
          ∃ e, supervise rounds = .error e ∧ e.triedResume = true) ∧
        (InARow 5 Round.fruitless (past ++ [round]) → supervise rounds = .error .fastResumes))) := by
  refine ⟨?_, ?_⟩
  · rw [supervise_ok_iff]
    refine forall_congr' fun past => forall_congr' fun round => forall_congr' fun rest =>
      imp_congr_right fun _ => ?_
    rw [not_ends_iff]
    constructor
    · rintro ⟨⟨ho, hopeful, hfed⟩, hres, hfive⟩
      exact ⟨ho, hopeful, hfed, hres, hfive⟩
    · rintro ⟨ho, hopeful, hfed, hres, hfive⟩
      exact ⟨⟨ho, hopeful, hfed⟩, hres, hfive⟩
  · rintro past round rest g rfl hpast ho
    refine ⟨?_, ?_⟩
    · intro hstop
      by_cases hopeful : round.Hopeless
      · by_cases hgone : round.err.Closed
        · exact ⟨_, supervise_of_ends hpast (.sessionClosed ho hgone) rest, rfl⟩
        · have hbad := hopeful.resolve_left hgone
          exact ⟨_, supervise_of_ends hpast (.inconsistent ho hgone hbad) rest, rfl⟩
      · have hthree := hstop.resolve_left hopeful
        exact ⟨_, supervise_of_ends hpast (.bodyTimeouts ho hopeful hthree) rest, rfl⟩
    · intro hgoes
      rw [not_or] at hgoes
      have hgo : ComesToResume past round := ⟨ho, hgoes.1, hgoes.2⟩
      refine ⟨?_, ?_⟩
      · intro err isOpen hres
        cases isOpen with
        | false => exact ⟨_, supervise_of_ends hpast (.cancelled hgo hres) rest, rfl⟩
        | true =>
          by_cases hgone : err.Closed
          · exact ⟨_, supervise_of_ends hpast (.refused hgo hres hgone) rest, rfl⟩
          · exact ⟨_, supervise_of_ends hpast (.resumeFailed hgo hres hgone) rest, rfl⟩
      · intro hfive
        obtain ⟨rl, hres⟩ := resumed_of_fruitless hfive.last
        exact supervise_of_ends hpast (.fastResumes hgo hres hfive) rest

/-- Legs that end at once and are resumed with nothing moved: the fifth is the last. -/
example :
    let round : Round := { err := .other, duration := 0, atStart := .new 64, atEnd := .new 64
                           attempts := [{ handshake := .ok 0 }], resume := .resumed (.new 64)
                           settles := rfl }
    supervise (List.replicate 4 round) = .ok { consecutiveFast := 4 } ∧
      supervise (List.replicate 5 round) = .error .fastResumes :=
  ⟨rfl, rfl⟩

end Pollmux
