import Pollmux.Server.Store

/-!
# Who may be closed for being idle

A session with a transport attached is never closed for being idle, and neither
is a resumable one that waits within its grace, except when too many of them wait
at once. The other way round, a session that is closed or has outlived its grace
accepts no transport any more, whether the sweeper has come by or not.

`idleSince` is when the last transport left, whatever the session's own
`detachedAt` says; the invariant `Sane` ties the two together. The sweeper judges
by a time it read before it took the lock. That time is in the past, so it can
only make a session look younger; and a session that came back and left again
after it was scanned was detached at or after that time, which is why the recheck
before an eviction needs nothing but the session itself.
-/

namespace Pollmux

open Kit

/-- The steps that close a session for being idle: those of the sweeper and
`CloseSessionIfNoPollInFlight`. -/
def LifeEvent.Reaps : LifeEvent → Prop
  | .scan _ | .evict | .closeIfIdle _ _ => True
  | _ => False

/-- **A session and its record agree**: the count is that of the attached transports, and with
none of them `detachedAt` is when the last one left. -/
structure Sound (now : Int) (x : Session) (t : Track) : Prop where
  count : x.pollInFlight = t.polls + t.sockets
  stamp : x.rs ≠ none → t.Idle → x.detachedAt = t.idleSince
  past : t.idleSince ≤ now
  gap : 0 ≤ x.pollGap

/-- A sweep that read the time `c` saw the session detached when `a` transports had attached to
it: either nothing has attached since, or whatever did left at `c` or later. -/
structure Scanned (c : Int) (a : Nat) (t : Track) : Prop where
  le : a ≤ t.attaches
  stayed : t.attaches = a → t.Idle
  returned : a < t.attaches → t.Idle → c ≤ t.idleSince

namespace Track

theorem leave_polls (t : Track) (now : Int) : (t.leave now).polls = t.polls := by
  unfold leave; split <;> rfl

theorem leave_sockets (t : Track) (now : Int) : (t.leave now).sockets = t.sockets := by
  unfold leave; split <;> rfl

theorem leave_attaches (t : Track) (now : Int) : (t.leave now).attaches = t.attaches := by
  unfold leave; split <;> rfl

theorem leave_idle {t : Track} {now : Int} : (t.leave now).Idle ↔ t.Idle := by
  rw [Idle, Idle, leave_polls, leave_sockets]

theorem leave_idleSince {t : Track} (h : t.Idle) (now : Int) : (t.leave now).idleSince = now := by
  rw [leave, if_pos h]

end Track

namespace Session

/-- What `refusesAttach` announces is what `beginPoll` does. -/
theorem beginPoll_eq_none_iff (x : Session) (now : Int) :
    x.beginPoll now = none ↔ x.refusesAttach now = true := by
  unfold beginPoll refusesAttach
  split
  next h => exact ⟨fun _ => h, fun _ => rfl⟩
  next h => exact ⟨nofun, fun h' => absurd h' h⟩

end Session

namespace Sound

variable {now : Int} {x x' : Session} {t : Track}

/-- The count of a session says whether something is attached. -/
theorem idle_iff (h : Sound now x t) : x.pollInFlight = 0 ↔ t.Idle := by
  rw [h.count, Track.Idle]
  omega

theorem later (h : Sound now x t) {now' : Int} (hle : now ≤ now') : Sound now' x t :=
  ⟨h.count, h.stamp, Int.le_trans h.past hle, h.gap⟩

/-- A change of what the record does not look at. -/
theorem congr (h : Sound now x t) (hcount : x'.pollInFlight = x.pollInFlight)
    (hrs : x'.rs ≠ none → x.rs ≠ none) (hstamp : x'.detachedAt = x.detachedAt)
    (hgap : x'.pollGap = x.pollGap) : Sound now x' t :=
  ⟨hcount.trans h.count, fun hr hi => hstamp.trans (h.stamp (hrs hr) hi), h.past, hgap ▸ h.gap⟩

/-- A transport attaches. -/
theorem attach (h : Sound now x t) {t' : Track} (hcount : x'.pollInFlight = x.pollInFlight + 1)
    (hgap : x'.pollGap = x.pollGap) (ht : t'.polls + t'.sockets = t.polls + t.sockets + 1)
    (hsince : t'.idleSince = t.idleSince) : Sound now x' t' := by
  have hc := h.count
  refine ⟨by omega, fun _ hi => ?_, hsince ▸ h.past, hgap ▸ h.gap⟩
  rw [Track.Idle] at hi
  omega

/-- A transport detaches. -/
theorem detach (h : Sound now x t) {y : Session} {u : Track}
    (hcount : y.pollInFlight = x.pollInFlight - 1) (hgap : y.pollGap = x.pollGap)
    (hu : u.polls + u.sockets + 1 = t.polls + t.sockets) (hsince : u.idleSince = t.idleSince) :
    Sound now (y.noteDetachedLocked now) (u.leave now) := by
  obtain ⟨hpoll, hrs, hg, hdet⟩ := y.noteDetachedLocked_spec now
  have hc := h.count
  refine ⟨?_, fun hr hi => ?_, ?_, ?_⟩
  · rw [hpoll, Track.leave_polls, Track.leave_sockets]
    omega
  · have hidle := Track.leave_idle.mp hi
    rw [Track.leave_idleSince hidle]
    rw [Track.Idle] at hidle
    exact hdet (hrs ▸ hr) (by omega)
  · unfold Track.leave
    split
    next => exact Int.le_refl now
    next => exact hsince ▸ h.past
  · rw [hg, hgap]
    exact h.gap

end Sound

namespace Scanned

variable {c now : Int} {a : Nat} {t : Track}

theorem attach (h : Scanned c a t) {t' : Track} (hatt : t'.attaches = t.attaches + 1)
    (ht : t'.polls + t'.sockets = t.polls + t.sockets + 1) : Scanned c a t' := by
  have hle := h.le
  refine ⟨by omega, fun heq => by omega, fun _ hi => ?_⟩
  rw [Track.Idle] at hi
  omega

/-- Only what had attached can detach, so whatever left did so after the scan. -/
theorem detach (h : Scanned c a t) {u : Track} (hc : c ≤ now) (hatt : u.attaches = t.attaches)
    (hu : u.polls + u.sockets + 1 = t.polls + t.sockets) : Scanned c a (u.leave now) := by
  refine ⟨?_, fun heq => ?_, fun _ hi => ?_⟩
  · rw [Track.leave_attaches, hatt]
    exact h.le
  · rw [Track.leave_attaches, hatt] at heq
    have hidle := h.stayed heq
    rw [Track.Idle] at hidle
    omega
  · rw [Track.leave_idleSince (Track.leave_idle.mp hi)]
    exact hc

end Scanned

namespace Lifecycle

/-- What a sweep under way may rely on. -/
structure Sweeping (w : Wiring) (l : Lifecycle) (sw : Sweep) : Prop where
  now_le : sw.now ≤ l.now
  detached : ∀ e ∈ sw.detached, (∃ x, l.session e.1 = some x ∧ x.rs ≠ none) ∧
    Scanned sw.now e.2 (l.track e.1)
  chosen : ∀ es, sw.toEvict = some es → (∀ e ∈ es, e ∈ sw.detached) ∧
    (es ≠ [] → 0 < maxDetached w.effective ∧ maxDetached w.effective < sw.detached.length)

/-- It looks at the clock, the sessions and their records. -/
theorem Sweeping.congr {w : Wiring} {l l' : Lifecycle} {sw : Sweep} (h : Sweeping w l sw)
    (hnow : l.now ≤ l'.now) (hsession : l'.session = l.session) (htrack : l'.track = l.track) :
    Sweeping w l' sw := by
  refine ⟨Int.le_trans h.now_le hnow, ?_, h.chosen⟩
  rw [hsession, htrack]
  exact h.detached

/-- An entry has been looked at. -/
theorem Sweeping.pended {w : Wiring} {l : Lifecycle} {sw : Sweep} (h : Sweeping w l sw)
    {pending : List Nat} : Sweeping w l { sw with pending := pending } :=
  ⟨h.now_le, h.detached, h.chosen⟩

/-- The first of the chosen has been rechecked. -/
theorem Sweeping.popped {w : Wiring} {l : Lifecycle} {sw : Sweep} (h : Sweeping w l sw)
    {e : Nat × Nat} {rest : List (Nat × Nat)} (hto : sw.toEvict = some (e :: rest)) :
    Sweeping w l { sw with toEvict := some rest } := by
  obtain ⟨hsub, hcap⟩ := h.chosen _ hto
  refine ⟨h.now_le, h.detached, fun es hes => ?_⟩
  cases hes
  exact ⟨fun e he => hsub e (List.mem_cons_of_mem _ he), fun _ => hcap (List.cons_ne_nil _ _)⟩

/-- **The invariant of the store's clockwork.** -/
structure Sane (w : Wiring) (l : Lifecycle) : Prop where
  sound : ∀ p x, l.session p = some x → Sound l.now x (l.track p)
  waiting : ∀ t ∈ l.waiting, t ≤ l.now
  sweep : ∀ sw, l.sweep = some sw → Sweeping w l sw

namespace Sane

variable {w : Wiring} {l l' : Lifecycle}

theorem init (w : Wiring) : Sane w {} := ⟨nofun, nofun, nofun⟩

/-- **One session changes**: it agrees with its record, keeps its layer, and is to a sweep what it
was. -/
theorem set (h : Sane w l) {p : Nat} {x x' : Session} {t : Track} (hx : l.session p = some x)
    (hsound : Sound l.now x' t) (hrs : x.rs ≠ none → x'.rs ≠ none)
    (hscan : ∀ c a, c ≤ l.now → Scanned c a (l.track p) → Scanned c a t) :
    Sane w ((l.setSession p x').setTrack p t) := by
  refine ⟨fun q y hy => ?_, h.waiting, fun sw hsw => ?_⟩
  · by_cases hq : q = p
    · subst hq
      simp only [setTrack, setSession, Function.update_self] at hy ⊢
      exact Option.some.inj hy ▸ hsound
    · simp only [setTrack, setSession, Function.update_of_ne hq] at hy ⊢
      exact h.sound q y hy
  · have hs := h.sweep sw hsw
    refine ⟨hs.now_le, fun e he => ?_, hs.chosen⟩
    obtain ⟨⟨y, hy, hyrs⟩, hscanned⟩ := hs.detached e he
    by_cases hq : e.1 = p
    · simp only [setTrack, setSession, hq, Function.update_self]
      rw [hq] at hy hscanned
      cases hx.symm.trans hy
      exact ⟨⟨x', rfl, hrs hyrs⟩, hscan _ _ hs.now_le hscanned⟩
    · simp only [setTrack, setSession, Function.update_of_ne hq]
      exact ⟨⟨y, hy, hyrs⟩, hscanned⟩

/-- The record stays as it is. -/
theorem setSession (h : Sane w l) {p : Nat} {x x' : Session} (hx : l.session p = some x)
    (hsound : Sound l.now x' (l.track p)) (hrs : x.rs ≠ none → x'.rs ≠ none) :
    Sane w (l.setSession p x') := by
  have heq : (l.setSession p x').setTrack p (l.track p) = l.setSession p x' := by
    simp only [Lifecycle.setSession, setTrack, Function.update_eq_self]
  exact heq ▸ h.set hx hsound hrs fun _ _ _ hs => hs

/-- The map and the hook calls do not matter. -/
theorem congr (h : Sane w l) (hnow : l'.now = l.now) (hsession : l'.session = l.session)
    (htrack : l'.track = l.track) (hwaiting : l'.waiting = l.waiting) (hsweep : l'.sweep = l.sweep) :
    Sane w l' := by
  refine ⟨?_, ?_, fun sw hsw => ?_⟩
  · rw [hsession, htrack, hnow]
    exact h.sound
  · rw [hwaiting, hnow]
    exact h.waiting
  · exact (h.sweep sw (hsweep ▸ hsw)).congr (Int.le_of_eq hnow.symm) hsession htrack

/-- A session is marked closed and leaves the map. -/
theorem closeAndRemove (h : Sane w l) {p : Nat} {x : Session} (hx : l.session p = some x) :
    Sane w (l.closeAndRemove p x) := by
  have hremoved : Sane w (l.remove x.id) := h.congr rfl rfl rfl rfl rfl
  exact hremoved.setSession hx ((h.sound p x hx).congr rfl id rfl rfl) id

/-- The sweep goes on. -/
theorem resweep (h : Sane w l) {sw : Sweep} (hsw : Sweeping w l sw) :
    Sane w { l with sweep := some sw } :=
  ⟨h.sound, h.waiting, fun _ hsw' =>
    Option.some.inj hsw' ▸ hsw.congr (Int.le_refl l.now) rfl rfl⟩

/-- The sweep closes a session. -/
theorem expire (h : Sane w l) {sw : Sweep} (hsw : Sweeping w l sw) {p : Nat} {x : Session}
    (hx : l.session p = some x) : Sane w (l.expire sw p x) := by
  have hcl := (h.resweep hsw).closeAndRemove (p := p) hx
  have hs := hcl.sweep sw rfl
  exact ⟨hcl.sound, hcl.waiting, fun sw' hsw' => Option.some.inj hsw' ▸
    ⟨hs.now_le, hs.detached, hs.chosen⟩⟩

/-- A session is connected at a time that has passed. -/
theorem connect (h : Sane w l) {p id : Nat} {req : ConnectRequest} {t : Int}
    (hnew : l.session p = none) (ht : t ≤ l.now) (hfree : l.sweep = none) :
    Sane w { (l.setSession p (.connect w.effective req id t)).setTrack p { idleSince := t } with
      sessions := p :: (l.remove id).sessions } := by
  refine ⟨fun q y hy => ?_, h.waiting, fun sw hsw => absurd (hfree.symm.trans hsw) nofun⟩
  by_cases hq : q = p
  · subst hq
    simp only [setTrack, Lifecycle.setSession, Function.update_self] at hy ⊢
    cases hy
    obtain ⟨hpoll, hdet, hgap⟩ := Session.connect_spec w.effective req id t
    refine ⟨hpoll, fun _ _ => hdet, ht, ?_⟩
    rw [hgap]
    exact Negotiated.pollGap_nonneg w _ req
  · simp only [setTrack, Lifecycle.setSession, Function.update_of_ne hq] at hy ⊢
    exact h.sound q y hy

/-- Time passes. -/
theorem tick (h : Sane w l) (d : Nat) : Sane w { l with now := l.now + d } := by
  have hle : l.now ≤ l.now + d := by omega
  refine ⟨fun p x hx => (h.sound p x hx).later hle,
    fun t ht => Int.le_trans (h.waiting t ht) hle, fun sw hsw => (h.sweep sw hsw).congr hle rfl rfl⟩

/-- **Every step keeps the invariant.** -/
theorem step (h : Sane w l) {ev : LifeEvent} (hs : l.step w ev = some l') : Sane w l' := by
  cases moves_of_step hs with
  | tick d => exact h.tick d
  | connect hnew ht hfree => exact h.connect hnew ht hfree
  | beginPoll hx _ _ | beginWebSocket hx _ _ =>
    refine h.set hx ((h.sound _ _ hx).attach rfl rfl ?_ rfl) id fun _ _ _ hsc => hsc.attach rfl ?_
    all_goals dsimp only; omega
  | endPoll hx hpos | endWebSocket hx hpos =>
    refine h.set hx ((h.sound _ _ hx).detach rfl rfl ?_ rfl) (fun hrs => ?_)
      fun _ _ hc hsc => hsc.detach hc rfl ?_
    · dsimp only; omega
    · simpa only [Session.endPoll, Session.endWebSocket,
        (Session.noteDetachedLocked_spec _ _).2.1] using hrs
    · dsimp only; omega
  | touch hx => exact h.setSession hx ((h.sound _ _ hx).congr rfl id rfl rfl) id
  | @breakLayer p x hx =>
    have hrs : x.breakLayer.rs ≠ none ↔ x.rs ≠ none := by simp [Session.breakLayer]
    exact h.setSession hx ((h.sound p x hx).congr rfl hrs.mp rfl rfl) hrs.mpr
  | close hx =>
    have hx' := h.sound _ _ hx
    exact h.set hx ⟨hx'.count, hx'.stamp, hx'.past, hx'.gap⟩ id
      fun _ _ _ hsc => ⟨hsc.le, hsc.stayed, hsc.returned⟩
  | closeSession hx _ | closeIfIdle hx _ _ _ =>
    exact (h.closeAndRemove hx).congr rfl rfl rfl rfl rfl
  | closeSessionNot | closeIfIdleNot => exact h
  | report _ => exact h.congr rfl rfl rfl rfl rfl
  | sweepBegin =>
    refine ⟨h.sound, fun t ht => ?_, fun sw hsw => (h.sweep sw hsw).congr (Int.le_refl l.now) rfl rfl⟩
    rcases List.mem_append.mp ht with hold | hnow
    · exact h.waiting t hold
    · exact Int.le_of_eq (List.mem_singleton.mp hnow)
  | @sweepLock t hfree hmem =>
    refine ⟨h.sound, fun u hu => h.waiting u (List.mem_of_mem_erase hu), fun sw hsw => ?_⟩
    cases hsw
    exact ⟨h.waiting t hmem, nofun, nofun⟩
  | scanExpire hsw hx _ _ _ _ => exact h.expire (h.sweep _ hsw).pended hx
  | @scanDetached p sw x hsw hto hx hres hidle =>
    -- the session is put down as it is now, with nothing attached
    have hsweep := h.sweep sw hsw
    refine h.resweep ⟨hsweep.now_le, fun e he => ?_, fun es hes => ?_⟩
    · rcases List.mem_append.mp he with hold | hnew
      · exact hsweep.detached e hold
      · cases List.mem_singleton.mp hnew
        refine ⟨⟨x, hx, ?_⟩, Nat.le_refl _, fun _ => (h.sound p x hx).idle_iff.mp hidle,
          fun hlt => absurd hlt (Nat.lt_irrefl _)⟩
        rw [eq_of_beq hres]
        nofun
    · exact absurd (hto.symm.trans hes) nofun
  | scanNot hsw => exact h.resweep (h.sweep _ hsw).pended
  | @choose order sw hsw hcap hperm =>
    have hsweep := h.sweep sw hsw
    refine h.resweep ⟨hsweep.now_le, hsweep.detached, fun es hes => ?_⟩
    cases hes
    refine ⟨fun e he => ?_, fun _ => hcap⟩
    exact (List.isPerm_iff.mp hperm).subset (List.mem_of_mem_take he)
  | chooseNot hsw =>
    have hsweep := h.sweep _ hsw
    refine h.resweep ⟨hsweep.now_le, hsweep.detached, fun es hes => ?_⟩
    cases hes
    exact ⟨nofun, fun hne => absurd rfl hne⟩
  | evict hsw hto hx _ _ _ => exact h.expire ((h.sweep _ hsw).popped hto) hx
  | evictNot hsw hto => exact h.resweep ((h.sweep _ hsw).popped hto)
  | unlock hsw => exact ⟨h.sound, h.waiting, nofun⟩

theorem reachable (h : (machine w).Reachable l) : Sane w l :=
  Machine.Reach.invariant (P := Sane w) (init w) (fun _ _ _ _ hl _ hs => hl.step hs) h

end Sane

/-- The step closes the session `p`. -/
def Closes (l l' : Lifecycle) (p : Nat) : Prop :=
  (∃ x, l.session p = some x ∧ x.closed = false) ∧ l'.Closed p

/-- The session is resumable and has been without a transport, for `d`. -/
def DetachedFor (l : Lifecycle) (p : Nat) (x : Session) (d : Int) : Prop :=
  l.session p = some x ∧ x.resumable = true ∧ (l.track p).Idle ∧ d = l.now - (l.track p).idleSince

/-- A step that leaves the session as it is does not close it. -/
theorem not_closes {l l' : Lifecycle} {p : Nat} (h : l'.session p = l.session p) :
    ¬ Closes l l' p := by
  rintro ⟨⟨x, hx, hopen⟩, y, hy, hclosed⟩
  rw [h, hx] at hy
  cases hy
  rw [hopen] at hclosed
  cases hclosed

/-- The close of one session closes no other. -/
theorem eq_of_closes {l l' : Lifecycle} {p q : Nat} {x : Session}
    (hsession : l'.session = (l.closeAndRemove q x).session) (hc : Closes l l' p) : p = q := by
  by_contra hne
  refine not_closes ?_ hc
  rw [hsession]
  exact Function.update_of_ne hne _ _

/-- **What makes a reaper close a session**: nothing is attached to it, and it is out of its grace,
or was at the time the sweep read, or was chosen for eviction and is beyond its poll gap. -/
theorem closes_cases {w : Wiring} {l l' : Lifecycle} {ev : LifeEvent} {p : Nat}
    (hs : l.step w ev = some l') (hr : ev.Reaps) (hc : Closes l l' p) :
    ∃ x, l.session p = some x ∧ x.pollInFlight = 0 ∧
      (x.inResumeGraceLocked l.now = false ∨
        (∃ sw, l.sweep = some sw ∧ (x.resumable = true → sw.now - x.detachedAt > x.resumeGrace)) ∨
        (ev = .evict ∧ ∃ sw a rest, l.sweep = some sw ∧ sw.toEvict = some ((p, a) :: rest) ∧
          sw.now - x.detachedAt > x.pollGap)) := by
  cases moves_of_step hs with
  | closeIfIdle hx _ hidle hgrace =>
    obtain rfl := eq_of_closes rfl hc
    exact ⟨_, hx, hidle, .inl hgrace⟩
  | scanExpire hsw hx _ hidle hgrace _ =>
    obtain rfl := eq_of_closes rfl hc
    exact ⟨_, hx, hidle, .inr (.inl ⟨_, hsw, hgrace⟩)⟩
  | evict hsw hto hx _ hidle hgap =>
    obtain rfl := eq_of_closes rfl hc
    exact ⟨_, hx, hidle, .inr (.inr ⟨rfl, _, _, _, hsw, hto, hgap⟩)⟩
  | closeIfIdleNot | scanNot _ | evictNot _ _ => exact absurd hc (not_closes rfl)
  | scanDetached _ _ _ _ _ => exact absurd hc (not_closes rfl)
  | _ => exact hr.elim

namespace Sane

variable {w : Wiring} {l l' : Lifecycle} {p : Nat} {x : Session} {d : Int}

/-- How long a session has been detached is how long its own stamp says. -/
theorem detachedFor (h : Sane w l) (hd : l.DetachedFor p x d) :
    x.pollInFlight = 0 ∧ d = l.now - x.detachedAt := by
  obtain ⟨hx, hres, hidle, rfl⟩ := hd
  have hsound := h.sound p x hx
  refine ⟨hsound.idle_iff.mpr hidle, ?_⟩
  rw [hsound.stamp (by rw [eq_of_beq hres]; nofun) hidle]

/-- A session that is chosen for eviction and passes the recheck has had no transport since it was
scanned. -/
theorem stayed (h : Sane w l) (hd : l.DetachedFor p x d) {sw : Sweep} (hsw : l.sweep = some sw)
    {a : Nat} (hmem : (p, a) ∈ sw.detached) (hgap : sw.now - x.detachedAt > x.pollGap) :
    (l.track p).attaches = a := by
  obtain ⟨_, hscan⟩ := (h.sweep sw hsw).detached _ hmem
  have hsound := h.sound p x hd.1
  have hstamp := hsound.stamp (by rw [eq_of_beq hd.2.1]; nofun) hd.2.2.1
  have hpos := hsound.gap
  refine Nat.le_antisymm (Nat.not_lt.mp fun hlt => ?_) hscan.le
  have hret := hscan.returned hlt hd.2.2.1
  dsimp only at hret
  omega

end Sane

/-- **Attached or in-grace sessions are not closed idly, and dead ones are not revived.** In every
reachable state of the store, whatever step comes next:
neither the sweeper nor `CloseSessionIfNoPollInFlight` closes a session with a transport attached;
a resumable session that has been detached for at most its grace is closed only by the sweeper's
eviction, past the cap, when nothing has attached to it since the scan and it is beyond its poll
gap;
and no transport attaches to a closed session or to a resumable one detached beyond its grace. -/
theorem reaps_only_the_dead {w : Wiring} {l l' : Lifecycle} {ev : LifeEvent}
    (h : (machine w).Reachable l) (hs : l.step w ev = some l') (p : Nat) :
    (ev.Reaps → Closes l l' p → ∀ x, l.session p = some x → ¬ 0 < x.pollInFlight) ∧
    (ev.Reaps → Closes l l' p → ∀ x d, l.DetachedFor p x d → d ≤ x.resumeGrace →
      ev = .evict ∧ d > x.pollGap ∧ ∃ sw a, l.sweep = some sw ∧ (p, a) ∈ sw.detached ∧
        (l.track p).attaches = a ∧ 0 < maxDetached w.effective ∧
        maxDetached w.effective < sw.detached.length) ∧
    (ev = .beginPoll p ∨ ev = .beginWebSocket p →
      ¬ l.Closed p ∧ ∀ x d, l.DetachedFor p x d → d ≤ x.resumeGrace) := by
  have hsane := Sane.reachable h
  refine ⟨fun hr hc x hx hpos => ?_, fun hr hc x d hd hle => ?_, fun hbegin => ?_⟩
  · obtain ⟨y, hy, h0, _⟩ := closes_cases hs hr hc
    cases hx.symm.trans hy
    omega
  · obtain ⟨hidle, rfl⟩ := hsane.detachedFor hd
    obtain ⟨y, hy, _, hwhy⟩ := closes_cases hs hr hc
    cases hd.1.symm.trans hy
    rcases hwhy with hout | ⟨sw, hsw, hlate⟩ | ⟨hev, sw, a, rest, hsw, hto, hgap⟩
    · -- it is in its grace by the check of `removeAndMarkClosed` itself
      have hin : x.inResumeGraceLocked l.now = true := by
        simp only [Session.inResumeGraceLocked, hd.2.1, hidle, beq_self_eq_true, Bool.true_and,
          decide_eq_true_eq]
        exact hle
      rw [hout] at hin
      cases hin
    · -- what was late at the time the sweep read is late now
      have hnow := (hsane.sweep sw hsw).now_le
      have hwas := hlate hd.2.1
      omega
    · obtain ⟨hsub, hcap⟩ := (hsane.sweep sw hsw).chosen _ hto
      have hmem := hsub _ List.mem_cons_self
      have hnow := (hsane.sweep sw hsw).now_le
      refine ⟨hev, by omega, sw, a, hsw, hmem, hsane.stayed hd hsw hmem hgap, ?_⟩
      exact hcap (List.cons_ne_nil _ _)
  · obtain ⟨x, hx, hopen, hlive⟩ : ∃ x, l.session p = some x ∧ x.closed = false ∧
        x.resumeExpiredLocked l.now = false := by
      rcases hbegin with rfl | rfl
      · cases moves_of_step hs with
        | beginPoll hx hopen hlive => exact ⟨_, hx, hopen, hlive⟩
      · cases moves_of_step hs with
        | beginWebSocket hx hopen hlive => exact ⟨_, hx, hopen, hlive⟩
    refine ⟨?_, fun y d hd => ?_⟩
    · rintro ⟨y, hy, hclosed⟩
      cases hx.symm.trans hy
      rw [hopen] at hclosed
      cases hclosed
    · obtain ⟨hidle, rfl⟩ := hsane.detachedFor hd
      cases hx.symm.trans hd.1
      simp only [Session.resumeExpiredLocked, hd.2.1, hidle, beq_self_eq_true, Bool.true_and,
        decide_eq_false_iff_not] at hlive
      omega

/-- A server that lets one detached resumable session wait. -/
def oneWaiting : Wiring :=
  ⟨{ enableWebSocket := true, enableResume := true, maxDetachedResumable := 1 }, by decide⟩

/-- Two WebSocket clients connect and never attach; a sweep scans both and chooses the first. -/
def cappedRun : List LifeEvent :=
  [.connect 0 { preferWebSocket := true, preferResume := true } 7 0,
    .connect 1 { preferWebSocket := true, preferResume := true } 8 0, .tick 5, .sweepBegin,
    .sweepLock 5, .scan 1, .scan 0, .choose [(0, 0), (1, 0)]]

theorem cappedRun_evicts :
    ∃ sw a, ((machine oneWaiting).final cappedRun).sweep = some sw ∧ (0, a) ∈ sw.detached ∧
      (((machine oneWaiting).final cappedRun).track 0).attaches = a ∧
      maxDetached oneWaiting.effective < sw.detached.length := by
  have hs : ((machine oneWaiting).final cappedRun).step oneWaiting .evict =
      some ((machine oneWaiting).final (cappedRun ++ [.evict])) := rfl
  have h := reaps_only_the_dead (Machine.reachable_final _ cappedRun) hs 0
  obtain ⟨_, _, sw, a, hsw, hmem, hatt, _, hcap⟩ := h.2.1 trivial
    ⟨⟨_, rfl, rfl⟩, _, rfl, rfl⟩ _ 5 ⟨rfl, rfl, rfl, rfl⟩ (by decide)
  exact ⟨sw, a, hsw, hmem, hatt, hcap⟩

end Lifecycle

end Pollmux
