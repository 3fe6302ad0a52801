import Mathlib.Data.List.Count
import Pollmux.Server.Store

/-!
# Who reports the end of a session

Every path that closes a session through the store takes it out of the map in the
same critical section and then owes one call of `OnDisconnect`. `Session.Close`
does neither: it sets `closed` alone. All other paths take `closed` for a sign
that somebody else has done the rest, so a session whose first close was
`Session.Close` stays in the store for good and nobody reports its end.

`Accounted` says so for one session in every reachable state: the hook calls made
and owed for it are one if it was closed through the store and none otherwise.
-/

namespace Pollmux

open Kit

namespace Lifecycle

/-- How often `OnDisconnect` has been called for a session. -/
def reported (l : Lifecycle) (p : Nat) : Nat := (l.reports.map Prod.fst).count p

/-- How many calls of `OnDisconnect` for it are still to come. -/
def due (l : Lifecycle) (p : Nat) : Nat :=
  (l.owed.map Prod.fst).count p + (l.sweep.elim [] Sweep.expired).count p

/-- It was closed through the store. -/
def Ended (l : Lifecycle) (p : Nat) : Prop := l.Closed p ∧ (l.track p).hushed = false

/-- **The books of one session**: closed through the store it is out of the map and one hook call
was made or is owed; otherwise none was or is. -/
structure Accounted (l : Lifecycle) (p : Nat) : Prop where
  ended : l.Ended p → l.reported p + l.due p = 1 ∧ p ∉ l.sessions
  silent : ¬ l.Ended p → l.reported p + l.due p = 0
  hushed : (l.track p).hushed = true → l.Closed p
  absent : l.session p = none → p ∉ l.sessions

namespace Accounted

variable {l l' : Lifecycle} {p : Nat}

theorem init (p : Nat) : Accounted {} p where
  ended := fun ⟨⟨_, hx, _⟩, _⟩ => absurd hx nofun
  silent _ := rfl
  hushed := nofun
  absent _ := List.not_mem_nil

/-- A step that closes nothing and moves no hook call keeps the books. -/
theorem congr (h : Accounted l p)
    (hclosed : (l'.session p).map Session.closed = (l.session p).map Session.closed)
    (hhush : (l'.track p).hushed = (l.track p).hushed)
    (hmem : p ∈ l'.sessions → p ∈ l.sessions)
    (hbooks : l'.reported p + l'.due p = l.reported p + l.due p) : Accounted l' p := by
  have hcl : l'.Closed p ↔ l.Closed p := by
    unfold Closed
    cases hx' : l'.session p with
    | none =>
      cases hx : l.session p with
      | none => rfl
      | some x => rw [hx', hx] at hclosed; cases hclosed
    | some x' =>
      cases hx : l.session p with
      | none => rw [hx', hx] at hclosed; cases hclosed
      | some x =>
        rw [hx', hx] at hclosed
        have heq : x'.closed = x.closed := Option.some.inj hclosed
        simp only [Option.some.injEq, exists_eq_left', heq]
  have hend : l'.Ended p ↔ l.Ended p := by rw [Ended, Ended, hcl, hhush]
  refine ⟨fun he => ?_, fun he => ?_, fun hh => ?_, fun hx => ?_⟩
  · obtain ⟨hone, hout⟩ := h.ended (hend.mp he)
    exact ⟨hbooks.trans hone, fun hin => hout (hmem hin)⟩
  · exact hbooks.trans (h.silent fun he' => he (hend.mpr he'))
  · exact hcl.mpr (h.hushed (hhush ▸ hh))
  · refine fun hin => h.absent ?_ (hmem hin)
    rw [hx] at hclosed
    exact Option.map_eq_none_iff.mp hclosed.symm

/-- An open session has no hook call to its name. -/
theorem of_open (h : Accounted l p) {x : Session} (hx : l.session p = some x)
    (hopen : x.closed = false) : l.reported p + l.due p = 0 ∧ (l.track p).hushed = false := by
  have hnot : ¬ l.Closed p := by
    rintro ⟨y, hy, hclosed⟩
    cases hx.symm.trans hy
    rw [hopen] at hclosed
    cases hclosed
  refine ⟨h.silent fun he => hnot he.1, ?_⟩
  cases hh : (l.track p).hushed with
  | false => rfl
  | true => exact absurd (h.hushed hh) hnot

end Accounted

/-- A session that is removed by its id is no longer in the map. -/
theorem not_mem_remove {l : Lifecycle} {p : Nat} {x : Session} (hx : l.session p = some x) :
    p ∉ (l.remove x.id).sessions := by
  intro hin
  have hne := (List.mem_filter.mp hin).2
  rw [hx] at hne
  simp at hne

theorem mem_of_mem_remove {l : Lifecycle} {p id : Nat} (h : p ∈ (l.remove id).sessions) :
    p ∈ l.sessions :=
  (List.mem_filter.mp h).1

/-- **A close through the store** of an open session, with one more hook call owed for it and for
nobody else. -/
theorem accounted_closeAndRemove {l l' : Lifecycle} {p : Nat} {x : Session}
    (h : ∀ q, Accounted l q) (hx : l.session p = some x) (hopen : x.closed = false)
    (hsession : l'.session = (l.closeAndRemove p x).session) (htrack : l'.track = l.track)
    (hsessions : l'.sessions = (l.remove x.id).sessions)
    (hreports : l'.reports = l.reports)
    (hdue : ∀ q, l'.due q = l.due q + if q = p then 1 else 0) : ∀ q, Accounted l' q := by
  intro q
  have hrep : l'.reported q = l.reported q := by rw [reported, reported, hreports]
  have hmem : q ∈ l'.sessions → q ∈ l.sessions := fun hin => mem_of_mem_remove (hsessions ▸ hin)
  by_cases hq : q = p
  · subst hq
    obtain ⟨hnone, hhush⟩ := (h q).of_open hx hopen
    have hnow : l'.session q = some { x with closed := true } := by
      rw [hsession]
      exact Function.update_self _ _ _
    have hend : l'.Ended q := ⟨⟨_, hnow, rfl⟩, by rw [htrack]; exact hhush⟩
    have hone : l'.reported q + l'.due q = 1 := by
      rw [hrep, hdue q, if_pos rfl]
      omega
    refine ⟨fun _ => ⟨hone, ?_⟩, fun hn => absurd hend hn, fun _ => hend.1, fun hn => ?_⟩
    · rw [hsessions]
      exact not_mem_remove hx
    · rw [hnow] at hn
      cases hn
  · refine (h q).congr ?_ (by rw [htrack]) hmem ?_
    · rw [hsession]
      exact congrArg _ (Function.update_of_ne hq _ _)
    · rw [hrep, hdue q, if_neg hq]
      rfl

/-- A caller of `removeAndMarkClosed` closes an open session. -/
theorem accounted_owed {l : Lifecycle} {p : Nat} {x : Session} (h : ∀ q, Accounted l q)
    (hx : l.session p = some x) (hopen : x.closed = false) (reason : DisconnectReason) :
    ∀ q, Accounted { l.closeAndRemove p x with owed := l.owed ++ [(p, reason)] } q := by
  refine accounted_closeAndRemove h hx hopen rfl rfl rfl rfl fun q => ?_
  have hsame : due { l.closeAndRemove p x with owed := l.owed ++ [(p, reason)] } q =
      ((l.owed ++ [(p, reason)]).map Prod.fst).count q +
        (l.sweep.elim [] Sweep.expired).count q := rfl
  rw [hsame, due, List.map_append, List.count_append, List.map_singleton, List.count_singleton]
  simp only [beq_iff_eq, eq_comm (a := q)]
  omega

/-- A sweep closes an open session. -/
theorem accounted_expire {l : Lifecycle} {sw sw' : Sweep} {p : Nat} {x : Session}
    (h : ∀ q, Accounted l q) (hsw : l.sweep = some sw) (hexp : sw'.expired = sw.expired)
    (hx : l.session p = some x) (hopen : x.closed = false) :
    ∀ q, Accounted (l.expire sw' p x) q := by
  refine accounted_closeAndRemove h hx hopen rfl rfl rfl rfl fun q => ?_
  have hsame : (l.expire sw' p x).due q =
      (l.owed.map Prod.fst).count q + (sw'.expired ++ [p]).count q := rfl
  rw [hsame, due, hsw, hexp, List.count_append, List.count_singleton]
  simp only [Option.elim, beq_iff_eq, eq_comm (a := q)]
  omega

/-- A sweep goes on without closing anything. -/
theorem accounted_sweep {l : Lifecycle} {sw sw' : Sweep} (h : ∀ q, Accounted l q)
    (hsw : l.sweep = some sw) (hexp : sw'.expired = sw.expired) :
    ∀ q, Accounted { l with sweep := some sw' } q := fun q =>
  (h q).congr rfl rfl id (by rw [due, due, hsw]; simp only [Option.elim, hexp]; rfl)

/-- One session changes, but neither whether it is closed nor who closed it. -/
theorem accounted_set {l : Lifecycle} {p : Nat} {x x' : Session} {t : Track}
    (h : ∀ q, Accounted l q) (hx : l.session p = some x) (hclosed : x'.closed = x.closed)
    (hhush : t.hushed = (l.track p).hushed) :
    ∀ q, Accounted ((l.setSession p x').setTrack p t) q := by
  intro q
  by_cases hq : q = p
  · subst hq
    refine (h q).congr ?_ ?_ id rfl
    · simp only [setTrack, setSession, Function.update_self, hx, Option.map_some, hclosed]
    · simp only [setTrack, setSession, Function.update_self, hhush]
  · refine (h q).congr ?_ ?_ id rfl
    · simp only [setTrack, setSession, Function.update_of_ne hq]
    · simp only [setTrack, setSession, Function.update_of_ne hq]

theorem accounted_setSession {l : Lifecycle} {p : Nat} {x x' : Session}
    (h : ∀ q, Accounted l q) (hx : l.session p = some x) (hclosed : x'.closed = x.closed) :
    ∀ q, Accounted (l.setSession p x') q := by
  have heq : (l.setSession p x').setTrack p (l.track p) = l.setSession p x' := by
    simp only [setTrack, setSession, Function.update_eq_self]
  exact heq ▸ accounted_set h hx hclosed rfl

/-- A new session starts with clean books. -/
theorem accounted_connect {l : Lifecycle} {p id : Nat} {x : Session} {t : Int}
    (h : ∀ q, Accounted l q) (hnew : l.session p = none) (hopen : x.closed = false) :
    ∀ q, Accounted { (l.setSession p x).setTrack p { idleSince := t } with
      sessions := p :: (l.remove id).sessions } q := by
  intro q
  by_cases hq : q = p
  · subst hq
    have hnone : ¬ l.Ended q := fun ⟨⟨y, hy, _⟩, _⟩ => absurd (hnew.symm.trans hy) nofun
    have hx : ((l.setSession q x).setTrack q { idleSince := t }).session q = some x :=
      Function.update_self _ _ _
    have ht : ((l.setSession q x).setTrack q { idleSince := t }).track q = { idleSince := t } :=
      Function.update_self _ _ _
    refine ⟨fun ⟨⟨y, hy, hclosed⟩, _⟩ => ?_, fun _ => (h q).silent hnone, fun hh => ?_, fun hn => ?_⟩
    · cases hx.symm.trans hy
      rw [hopen] at hclosed
      cases hclosed
    · cases (congrArg Track.hushed ht).symm.trans hh
    · cases hx.symm.trans hn
  · refine (h q).congr ?_ ?_ (fun hin => ?_) rfl
    · simp only [setTrack, setSession, Function.update_of_ne hq]
    · simp only [setTrack, setSession, Function.update_of_ne hq]
    · exact mem_of_mem_remove ((List.mem_cons.mp hin).resolve_left hq)

/-- `Session.Close` keeps the books because it is put down as the one that closed. -/
theorem accounted_close {l : Lifecycle} {p : Nat} {x : Session} (h : ∀ q, Accounted l q)
    (hx : l.session p = some x) :
    ∀ q, Accounted ((l.setSession p { x with closed := true }).setTrack p
      { l.track p with hushed := (l.track p).hushed || !x.closed }) q := by
  cases hc : x.closed with
  | true => exact accounted_set h hx hc.symm (Bool.or_false _)
  | false =>
    intro q
    by_cases hq : q = p
    · subst hq
      have hbooks := ((h q).of_open hx hc).1
      have hclosed : ((l.setSession q { x with closed := true }).setTrack q
          { l.track q with hushed := (l.track q).hushed || !false }).Closed q :=
        ⟨_, Function.update_self _ _ _, rfl⟩
      refine ⟨fun he => ?_, fun _ => hbooks, fun _ => hclosed, fun hn => ?_⟩
      · have hhush := he.2
        simp only [setTrack, Function.update_self, Bool.not_false, Bool.or_true] at hhush
        cases hhush
      · obtain ⟨y, hy, _⟩ := hclosed
        cases hy.symm.trans hn
    · refine (h q).congr ?_ ?_ id rfl
      · simp only [setTrack, setSession, Function.update_of_ne hq]
      · simp only [setTrack, setSession, Function.update_of_ne hq]

end Lifecycle

namespace Session

/-- A session is published open. -/
theorem connect_closed (cfg : ServerConfig) (req : ConnectRequest) (id : Nat) (now : Int) :
    (connect cfg req id now).closed = false := by
  dsimp only [connect]
  split <;> rfl

theorem noteDetachedLocked_closed (x : Session) (now : Int) :
    (x.noteDetachedLocked now).closed = x.closed := by
  unfold noteDetachedLocked
  split <;> rfl

end Session

theorem Track.leave_hushed (t : Track) (now : Int) : (t.leave now).hushed = t.hushed := by
  unfold leave
  split <;> rfl

namespace Lifecycle

/-- **Every step keeps the books of every session.** -/
theorem accounted_step {w : Wiring} {l l' : Lifecycle} {ev : LifeEvent}
    (h : ∀ q, Accounted l q) (hs : l.step w ev = some l') : ∀ q, Accounted l' q := by
  cases moves_of_step hs with
  | tick d => exact fun q => (h q).congr rfl rfl id rfl
  | connect hnew _ _ => exact accounted_connect h hnew (Session.connect_closed _ _ _ _)
  | beginPoll hx _ _ | beginWebSocket hx _ _ => exact accounted_set h hx rfl rfl
  | endPoll hx _ | endWebSocket hx _ =>
    exact accounted_set h hx (Session.noteDetachedLocked_closed _ _) (Track.leave_hushed _ _)
  | touch hx | breakLayer hx => exact accounted_setSession h hx rfl
  | close hx => exact accounted_close h hx
  | closeSession hx hopen | closeIfIdle hx hopen _ _ => exact accounted_owed h hx hopen _
  | closeSessionNot | closeIfIdleNot => exact h
  | report hmem =>
    refine fun q => (h q).congr rfl rfl id ?_
    have hcount := ((List.perm_cons_erase hmem).map Prod.fst).count_eq q
    rw [List.map_cons, List.count_cons] at hcount
    dsimp only at hcount
    simp only [reported, due, List.map_append, List.count_append, List.map_singleton,
      List.count_singleton]
    omega
  | sweepBegin => exact fun q => (h q).congr rfl rfl id rfl
  | sweepLock hfree _ => exact fun q => (h q).congr rfl rfl id (by rw [due, due, hfree]; rfl)
  | scanExpire hsw hx hopen _ _ _ => exact accounted_expire h hsw rfl hx hopen
  | evict hsw _ hx hopen _ _ => exact accounted_expire h hsw rfl hx hopen
  | scanDetached hsw _ _ _ _ => exact accounted_sweep h hsw rfl
  | scanNot hsw | choose hsw _ _ | chooseNot hsw | evictNot hsw _ =>
    exact accounted_sweep h hsw rfl
  | unlock hsw =>
    refine fun q => (h q).congr rfl rfl id ?_
    simp only [reported, due, hsw, List.map_append, List.map_map, Function.comp_def, List.map_id',
      List.count_append, Option.elim, List.count_nil, Nat.add_zero]

theorem accounted_reachable {w : Wiring} {l : Lifecycle} (h : (machine w).Reachable l) :
    ∀ p, Accounted l p :=
  Machine.Reach.invariant (P := fun l : Lifecycle => ∀ p, Accounted l p) Accounted.init
    (fun _ _ _ _ hl _ hs => accounted_step hl hs) h

/-- **The end of a session is reported at most once, and exactly once unless `Session.Close` ended
it.** In every reachable state `OnDisconnect` has run at most once for each session. A closed
session whose closing call has made its hook call is out of the store and was reported exactly
once if and only if `Session.Close` was not the first to close it. -/
theorem disconnect_reported_once {w : Wiring} {l : Lifecycle} (h : (machine w).Reachable l)
    (p : Nat) :
    l.reported p ≤ 1 ∧
      (l.Closed p → l.due p = 0 →
        ((p ∉ l.sessions ∧ l.reported p = 1) ↔ (l.track p).hushed = false)) := by
  have hp := accounted_reachable h p
  by_cases hend : l.Ended p
  · obtain ⟨hone, hout⟩ := hp.ended hend
    exact ⟨by omega, fun _ hdue => ⟨fun _ => hend.2, fun _ => ⟨hout, by omega⟩⟩⟩
  · have hnone := hp.silent hend
    refine ⟨by omega, fun hclosed _ => ⟨fun ⟨_, hone⟩ => ?_, fun hhush => ?_⟩⟩
    · omega
    · exact absurd ⟨hclosed, hhush⟩ hend

/-- A session is connected, closed by its user through `Session.Close` and then deleted; two minutes
later a sweep finds it. -/
def strandedRun : List LifeEvent :=
  [.connect 0 {} 7 0, .close 0, .closeSession 0 .clientDelete, .tick 120000000000,
    .sweepBegin, .sweepLock 120000000000, .scan 0, .choose [], .unlock]

/-- Neither the DELETE nor the sweep takes the session out of the store or reports it. -/
theorem closed_session_stranded :
    ∃ l, (machine ⟨{}, rfl⟩).run (machine ⟨{}, rfl⟩).init strandedRun = some l ∧
      l.Closed 0 ∧ l.due 0 = 0 ∧ 0 ∈ l.sessions ∧ l.reported 0 = 0 :=
  ⟨_, rfl, ⟨_, rfl, rfl⟩, by decide, by decide, by decide⟩

/-- A session is deleted, and swept and closed by its user afterwards. -/
def deletedRun : List LifeEvent :=
  [.connect 0 {} 7 0, .closeSession 0 .clientDelete, .report 0 .clientDelete, .close 0,
    .sweepBegin, .sweepLock 0, .choose [], .unlock]

theorem deletedRun_reported :
    0 ∉ ((machine ⟨{}, rfl⟩).final deletedRun).sessions ∧
      ((machine ⟨{}, rfl⟩).final deletedRun).reported 0 = 1 := by
  have h := disconnect_reported_once (Machine.reachable_final (machine ⟨{}, rfl⟩) deletedRun) 0
  exact (h.2 ⟨_, rfl, rfl⟩ (by decide)).mpr (by decide)

end Lifecycle

end Pollmux
