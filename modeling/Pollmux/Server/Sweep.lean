import Mathlib.Data.List.Pairwise
import Pollmux.Kit.Selection
import Pollmux.Pipe
import Pollmux.Server.Store

/-!
# What one sweep evicts

`SessionStore.sweep` (`store.go`) from its first lock to its last callback, on a
store whose sessions have their pipes. Nothing else runs meanwhile, so it is a
function of the store, of the time it read, of the order in which it ranges over
the map, and of what its sort does with sessions detached at the same instant:
both orders are parameters.

A session is known by a number, which stands for the pointer: the sweep holds
pointers in its two lists while it changes the sessions and the map. The map is
the list of its values, and `distinct` says that no two of them have the same id.

The sweep has three rules. A session that has `Outlived` its grace and one that
is `Stale` go in the first pass; those that linger beyond their poll gap are put
down, and of them the longest detached go if there are more than the cap allows.
`Evicts` is the one invariant of both passes: the store is the one before, less
the sessions expired so far, and these are closed. So every check reads of a
session what it was before the sweep.

`Server.Store` has the same sweep as single steps between those of its
environment; `sweep_life` says that a sweep here is one of its runs.
-/

namespace Pollmux

open Kit

/-- A session with its pipes. -/
structure StoredSession extends Session where
  toServer : BufferedPipe := .new
  toClient : BufferedPipe := .new
  deriving DecidableEq, Repr

namespace StoredSession

/-- `s.closed = true`. -/
def markClosed (s : StoredSession) : StoredSession := { s with closed := true }

/-- `closePipes`. -/
def closePipes (s : StoredSession) : StoredSession :=
  { s with toServer := s.toServer.close, toClient := s.toClient.close }

end StoredSession

/-- `SessionStore`, with the sessions its map points to. -/
structure SessionStore where
  session : Nat → StoredSession
  sessions : List Nat
  distinct : sessions.Pairwise fun p q => (session p).id ≠ (session q).id
  maxDetachedResumable : Int := 0

namespace SessionStore

/-- Change a session, other than its id. -/
def modify (st : SessionStore) (p : Nat) (f : StoredSession → StoredSession)
    (hid : ∀ s, (f s).id = s.id) : SessionStore :=
  { st with
    session := Function.update st.session p (f (st.session p))
    distinct := by
      have hsame : ∀ q, (Function.update st.session p (f (st.session p)) q).id =
          (st.session q).id := by
        intro q
        by_cases hq : q = p
        · rw [hq, Function.update_self]
          exact hid _
        · rw [Function.update_of_ne hq]
      simp only [hsame]
      exact st.distinct }

/-- `delete(st.sessions, id)`. -/
def delete (st : SessionStore) (id : Nat) : SessionStore :=
  { st with
    sessions := st.sessions.filter fun q => (st.session q).id != id
    distinct := st.distinct.filter _ }

/-- Close a session and take it out of the map. -/
def close (st : SessionStore) (p : Nat) : SessionStore :=
  (st.modify p .markClosed fun _ => rfl).delete (st.session p).id

/-- The locals of `sweep`, with the store. -/
structure Scan where
  store : SessionStore
  expired : List Nat := []
  detached : List Nat := []

/-- `s.closed = true`, `delete` and `append` to `expired`. -/
def Scan.expire (acc : Scan) (p : Nat) : Scan :=
  { acc with store := acc.store.close p, expired := acc.expired ++ [p] }

/-- The body of the first loop. -/
def Scan.scan (timeout now : Int) (acc : Scan) (p : Nat) : Scan :=
  let s := acc.store.session p
  if s.closed = false ∧ s.pollInFlight = 0 then
    if s.resumable then
      if now - s.detachedAt > s.resumeGrace then acc.expire p
      else if s.detachedBeyondPollGapLocked now then { acc with detached := acc.detached ++ [p] }
      else acc
    else if now - s.lastActive > timeout then acc.expire p
    else acc
  else acc

/-- The body of the second loop. -/
def Scan.evict (now : Int) (acc : Scan) (p : Nat) : Scan :=
  let s := acc.store.session p
  if s.closed = false ∧ s.detachedBeyondPollGapLocked now then acc.expire p else acc

/-- The sort and the second loop. -/
def Scan.cap (sorting : Sorting Nat) (now : Int) (acc : Scan) : Scan :=
  let max := acc.store.maxDetachedResumable
  if 0 < max ∧ max < acc.detached.length then
    let order := sorting.sort (fun p => (acc.store.session p).detachedAt) acc.detached
    (order.take (acc.detached.length - max.toNat)).foldl (Scan.evict now) acc
  else acc

/-- `closePipes` and `onEvict`, for one session; the calls of `onEvict` are the second part. -/
def callEvict (out : SessionStore × List Nat) (p : Nat) : SessionStore × List Nat :=
  (out.1.modify p .closePipes fun _ => rfl, out.2 ++ [p])

/-- `sweep`, with the order in which it ranges over the map. It answers the store and the sessions
that `onEvict` was called with, in order. -/
def sweep (sorting : Sorting Nat) (timeout now : Int) (range : List Nat) (st : SessionStore) :
    SessionStore × List Nat :=
  let acc := (range.foldl (Scan.scan timeout now) { store := st }).cap sorting now
  acc.expired.foldl callEvict (acc.store, [])

end SessionStore

/-! ## The three rules -/

namespace Session

/-- A resumable session detached longer than its grace. -/
def Outlived (s : Session) (now : Int) : Prop :=
  s.closed = false ∧ s.pollInFlight = 0 ∧ s.resumable = true ∧ now - s.detachedAt > s.resumeGrace

/-- Any other session whose last activity is older than the timeout. -/
def Stale (s : Session) (timeout now : Int) : Prop :=
  s.closed = false ∧ s.pollInFlight = 0 ∧ s.resumable = false ∧ now - s.lastActive > timeout

/-- A resumable session within its grace, detached longer than its gap between polls. -/
def Lingers (s : Session) (now : Int) : Prop :=
  s.closed = false ∧ s.pollInFlight = 0 ∧ s.resumable = true ∧
    now - s.detachedAt ≤ s.resumeGrace ∧ now - s.detachedAt > s.pollGap

/-- The two rules of the first pass. -/
def Overdue (s : Session) (timeout now : Int) : Prop := s.Outlived now ∨ s.Stale timeout now

instance (s : Session) (now : Int) : Decidable (s.Outlived now) :=
  inferInstanceAs (Decidable (_ ∧ _))

instance (s : Session) (timeout now : Int) : Decidable (s.Stale timeout now) :=
  inferInstanceAs (Decidable (_ ∧ _))

instance (s : Session) (now : Int) : Decidable (s.Lingers now) :=
  inferInstanceAs (Decidable (_ ∧ _))

instance (s : Session) (timeout now : Int) : Decidable (s.Overdue timeout now) :=
  inferInstanceAs (Decidable (_ ∨ _))

theorem Lingers.not_overdue {s : Session} {timeout now : Int} (h : s.Lingers now) :
    ¬ s.Overdue timeout now := by
  obtain ⟨-, -, hres, hgrace, -⟩ := h
  rintro (⟨-, -, -, hlate⟩ | ⟨-, -, hnot, -⟩)
  · omega
  · rw [hres] at hnot
    cases hnot

end Session

namespace SessionStore

/-- **What a sweep is for.** After one sweep at `now` the store `st` has become `st'`, and `onEvict`
was called with the sessions `evicted`, in order. -/
structure Swept (st : SessionStore) (timeout now : Int) (st' : SessionStore)
    (evicted : List Nat) : Prop where
  /-- Each is evicted once. -/
  once : evicted.Nodup
  /-- It was in the store, and met one of the rules. -/
  rules : ∀ p ∈ evicted, p ∈ st.sessions ∧
    ((st.session p).Outlived now ∨ (st.session p).Stale timeout now ∨ (st.session p).Lingers now)
  /-- Nothing that is past its time is left. -/
  overdue : ∀ p ∈ st.sessions, (st.session p).Overdue timeout now → p ∈ evicted
  /-- Of the sessions that linger those beyond the cap go, and no others. -/
  capped : (evicted.filter fun p => (st.session p).Lingers now).length =
    if 0 < st.maxDetachedResumable then
      (st.sessions.filter fun p => (st.session p).Lingers now).length -
        st.maxDetachedResumable.toNat
    else 0
  /-- They are the longest detached. -/
  oldest : ∀ p ∈ evicted, (st.session p).Lingers now → ∀ q ∈ st.sessions,
    (st.session q).Lingers now → q ∉ evicted → (st.session p).detachedAt ≤ (st.session q).detachedAt
  /-- The cap is kept. -/
  kept : 0 < st.maxDetachedResumable →
    ((st'.sessions.filter fun p => (st.session p).Lingers now).length : Int) ≤
      st.maxDetachedResumable
  /-- What is evicted is closed, and so are both its pipes. -/
  closed : ∀ p ∈ evicted, (st'.session p).closed = true ∧ (st'.session p).toServer.closed = true ∧
    (st'.session p).toClient.closed = true
  /-- It is otherwise as it was, with what its pipes hold. -/
  frame : ∀ p ∈ evicted, st'.session p =
    { st.session p with
      closed := true
      toServer := { (st.session p).toServer with closed := true }
      toClient := { (st.session p).toClient with closed := true } }
  /-- Every other session is as it was. -/
  others : ∀ p, p ∉ evicted → st'.session p = st.session p
  /-- The map has lost the evicted entries and nothing else. -/
  entries : st'.sessions = st.sessions.filter fun p => decide (p ∉ evicted)

/-! ## What the passes do -/

/-- The store `st'` is `st` with the sessions `ps` closed and out of the map. -/
structure Evicts (st : SessionStore) (ps : List Nat) (st' : SessionStore) : Prop where
  session : ∀ p, st'.session p = if p ∈ ps then (st.session p).markClosed else st.session p
  sessions : st'.sessions = st.sessions.filter fun p => decide (p ∉ ps)
  max : st'.maxDetachedResumable = st.maxDetachedResumable

variable {st st' : SessionStore} {timeout now : Int} {ps : List Nat} {p q : Nat}

theorem evicts_nil (st : SessionStore) : st.Evicts [] st where
  session := by simp
  sessions := by simp
  max := rfl

/-- An id names one session of the map. -/
theorem eq_of_id (hp : p ∈ st.sessions) (hq : q ∈ st.sessions)
    (hid : (st.session p).id = (st.session q).id) : p = q := by
  by_contra hne
  have hsymm : Std.Symm fun p q => (st.session p).id ≠ (st.session q).id := ⟨fun _ _ h => h.symm⟩
  exact st.distinct.forall hp hq hne hid

theorem nodup (st : SessionStore) : st.sessions.Nodup := by
  refine st.distinct.imp ?_
  rintro p q hne rfl
  exact hne rfl

/-- Nothing but `closed` differs. -/
theorem Evicts.same (h : st.Evicts ps st') (p : Nat) : (st'.session p).id = (st.session p).id ∧
    (st'.session p).detachedAt = (st.session p).detachedAt := by
  rw [h.session]
  split
  next => exact ⟨rfl, rfl⟩
  next => exact ⟨rfl, rfl⟩

theorem Evicts.unchanged (h : st.Evicts ps st') (hp : p ∉ ps) : st'.session p = st.session p := by
  rw [h.session, if_neg hp]

/-- One more session is closed. -/
theorem Evicts.close (h : st.Evicts ps st') (hp : p ∈ st.sessions) (hnew : p ∉ ps) :
    st.Evicts (ps ++ [p]) (st'.close p) where
  session := by
    intro q
    show Function.update st'.session p (st'.session p).markClosed q = _
    by_cases hq : q = p
    · rw [hq, Function.update_self, h.unchanged hnew, if_pos (by simp)]
    · rw [Function.update_of_ne hq, h.session]
      simp [hq]
  sessions := by
    show List.filter _ st'.sessions = _
    rw [h.sessions, List.filter_filter]
    refine List.filter_congr ?_
    intro q hq
    have hid : (Function.update st'.session p (st'.session p).markClosed q).id =
        (st.session q).id := by
      by_cases hqp : q = p
      · rw [hqp, Function.update_self]
        exact (h.same p).1
      · rw [Function.update_of_ne hqp]
        exact (h.same q).1
    show ((Function.update st'.session p (st'.session p).markClosed q).id != (st'.session p).id &&
      decide (q ∉ ps)) = decide (q ∉ ps ++ [p])
    rw [hid, (h.same p).1]
    -- in the map the id stands for the session
    by_cases hqp : q = p
    · simp [hqp]
    · have hne : (st.session q).id ≠ (st.session p).id := fun heq => hqp (eq_of_id hq hp heq)
      simp [hqp, hne]
  max := h.max

namespace Scan

/-- The first pass, by the rules. -/
theorem scan_eq (acc : Scan) (p : Nat) : acc.scan timeout now p =
    if (acc.store.session p).Overdue timeout now then acc.expire p
    else if (acc.store.session p).Lingers now then { acc with detached := acc.detached ++ [p] }
    else acc := by
  unfold scan
  dsimp only
  split
  next hidle =>
    split
    next hres =>
      split
      next hlate => exact (if_pos (.inl ⟨hidle.1, hidle.2, hres, hlate⟩)).symm
      next hlate =>
        have hnot : ¬ (acc.store.session p).Overdue timeout now := by
          rintro (⟨-, -, -, h⟩ | ⟨-, -, h, -⟩)
          · exact hlate h
          · rw [hres] at h
            cases h
        have hgap : (acc.store.session p).detachedBeyondPollGapLocked now = true ↔
            (acc.store.session p).Lingers now := by
          simp [Session.detachedBeyondPollGapLocked, Session.Lingers, hidle, hres,
            Int.not_lt.mp hlate]
        rw [if_neg hnot]
        simp only [hgap]
    next hres =>
      have hnot : ¬ (acc.store.session p).Lingers now := fun h => hres h.2.2.1
      rw [if_neg hnot]
      have hstale : now - (acc.store.session p).lastActive > timeout ↔
          (acc.store.session p).Overdue timeout now := by
        simp [Session.Overdue, Session.Outlived, Session.Stale, hidle, hres]
      simp only [hstale]
  next hbusy =>
    have hnot : ¬ (acc.store.session p).Overdue timeout now := by
      rintro (h | h)
      · exact hbusy ⟨h.1, h.2.1⟩
      · exact hbusy ⟨h.1, h.2.1⟩
    rw [if_neg hnot, if_neg fun h => hbusy ⟨h.1, h.2.1⟩]

/-- What the first pass has done once it has seen the entries `xs`. -/
structure Scanned (st : SessionStore) (timeout now : Int) (xs : List Nat) (acc : Scan) : Prop where
  evicts : st.Evicts acc.expired acc.store
  expired : acc.expired = xs.filter fun p => (st.session p).Overdue timeout now
  detached : acc.detached = xs.filter fun p => (st.session p).Lingers now

/-- One more entry. -/
theorem Scanned.scan {xs : List Nat} {acc : Scan} (h : Scanned st timeout now xs acc)
    (hp : p ∈ st.sessions) (hnew : p ∉ xs) :
    Scanned st timeout now (xs ++ [p]) (acc.scan timeout now p) := by
  have hnot : p ∉ acc.expired := by
    rw [h.expired]
    exact fun hmem => hnew (List.mem_filter.mp hmem).1
  have hsame : acc.store.session p = st.session p := h.evicts.unchanged hnot
  rw [scan_eq, hsame]
  split
  next hover =>
    have hlin : ¬ (st.session p).Lingers now := fun hlin => hlin.not_overdue hover
    exact
      { evicts := h.evicts.close hp hnot
        expired := by simp [expire, h.expired, List.filter_append, hover]
        detached := by simp [expire, h.detached, List.filter_append, hlin] }
  next hover =>
    split
    next hlin =>
      exact
        { evicts := h.evicts
          expired := by simp [h.expired, List.filter_append, hover]
          detached := by simp [h.detached, List.filter_append, hlin] }
    next hlin =>
      exact
        { evicts := h.evicts
          expired := by simp [h.expired, List.filter_append, hover]
          detached := by simp [h.detached, List.filter_append, hlin] }

/-- The first pass. -/
theorem scanned_of_foldl (st : SessionStore) (timeout now : Int) {xs : List Nat}
    (hmem : ∀ p ∈ xs, p ∈ st.sessions) (hnodup : xs.Nodup) :
    Scanned st timeout now xs (xs.foldl (Scan.scan timeout now) { store := st }) := by
  induction xs using List.reverseRecOn with
  | nil => exact ⟨st.evicts_nil, rfl, rfl⟩
  | append_singleton xs p ih =>
    obtain ⟨hxs, -, hdisj⟩ := List.nodup_append.mp hnodup
    rw [List.foldl_append]
    refine (ih (fun q hq => hmem q (List.mem_append_left _ hq)) hxs).scan (hmem p (by simp)) ?_
    intro hp
    exact hdisj p hp p (by simp) rfl

/-- The second pass over sessions that linger: each of them goes. -/
theorem evict_foldl {acc : Scan} {ys : List Nat} (h : st.Evicts acc.expired acc.store)
    (hmem : ∀ p ∈ ys, p ∈ st.sessions ∧ (st.session p).Lingers now)
    (hnodup : (acc.expired ++ ys).Nodup) :
    (ys.foldl (Scan.evict now) acc).expired = acc.expired ++ ys ∧
      st.Evicts (acc.expired ++ ys) (ys.foldl (Scan.evict now) acc).store := by
  induction ys generalizing acc with
  | nil =>
    rw [List.append_nil]
    exact ⟨rfl, h⟩
  | cons p ys ih =>
    obtain ⟨hp, hlin⟩ := hmem p (by simp)
    have hnot : p ∉ acc.expired := by
      intro hexp
      exact (List.nodup_append.mp hnodup).2.2 p hexp p (by simp) rfl
    have hstep : acc.evict now p = acc.expire p := by
      obtain ⟨hopen, hidle, -, -, hgap⟩ := hlin
      unfold evict
      dsimp only
      rw [h.unchanged hnot, if_pos]
      exact ⟨hopen, by simp [Session.detachedBeyondPollGapLocked, hidle, hgap]⟩
    rw [List.append_cons] at hnodup ⊢
    rw [List.foldl_cons, hstep]
    exact ih (h.close hp hnot) (fun q hq => hmem q (List.mem_cons_of_mem _ hq)) hnodup

/-- What the cap takes off `D`, the sessions that were put down: as many as are too many, and the
longest detached. -/
structure Chosen (st : SessionStore) (D ys : List Nat) : Prop where
  nodup : ys.Nodup
  among : ∀ p ∈ ys, p ∈ D
  length : ys.length =
    if 0 < st.maxDetachedResumable then D.length - st.maxDetachedResumable.toNat else 0
  oldest : ∀ p ∈ ys, ∀ q ∈ D, q ∉ ys → (st.session p).detachedAt ≤ (st.session q).detachedAt

theorem chosen_take (st : SessionStore) (sorting : Sorting Nat) {D : List Nat} (hnodup : D.Nodup)
    (hmax : 0 < st.maxDetachedResumable) :
    Chosen st D ((sorting.sort (fun p => (st.session p).detachedAt) D).take
      (D.length - st.maxDetachedResumable.toNat)) := by
  have hperm := sorting.perm (fun p => (st.session p).detachedAt) D
  refine ⟨?_, ?_, ?_, ?_⟩
  · exact ((hperm.nodup_iff).mpr hnodup).sublist (List.take_sublist _ _)
  · intro p hp
    exact hperm.mem_iff.mp (List.mem_of_mem_take hp)
  · rw [List.length_take, hperm.length_eq, if_pos hmax]
    omega
  · intro p hp q hq hnot
    -- what is not among the first is among the others
    have hdrop : q ∈ (sorting.sort (fun p => (st.session p).detachedAt) D).drop
        (D.length - st.maxDetachedResumable.toNat) := by
      have hall := hperm.mem_iff.mpr hq
      rw [← List.take_append_drop (D.length - st.maxDetachedResumable.toNat)
        (sorting.sort _ D)] at hall
      exact (List.mem_append.mp hall).resolve_left hnot
    exact sorting.le_of_split hp hdrop

theorem Chosen.lingers {xs ys : List Nat}
    (h : Chosen st (xs.filter fun p => (st.session p).Lingers now) ys)
    (hmem : ∀ p ∈ xs, p ∈ st.sessions) (hp : p ∈ ys) :
    p ∈ st.sessions ∧ (st.session p).Lingers now := by
  obtain ⟨hx, hlin⟩ := List.mem_filter.mp (h.among p hp)
  exact ⟨hmem p hx, of_decide_eq_true hlin⟩

/-- No session goes by two rules. -/
theorem Scanned.nodup_append {xs ys : List Nat} {acc : Scan} (h : Scanned st timeout now xs acc)
    (hmem : ∀ p ∈ xs, p ∈ st.sessions) (hnodup : xs.Nodup)
    (hchosen : Chosen st (xs.filter fun p => (st.session p).Lingers now) ys) :
    (acc.expired ++ ys).Nodup := by
  refine List.nodup_append.mpr ⟨?_, hchosen.nodup, ?_⟩
  · rw [h.expired]
    exact hnodup.filter _
  · rintro p hp q hq rfl
    rw [h.expired] at hp
    have hover := of_decide_eq_true (List.mem_filter.mp hp).2
    exact (hchosen.lingers hmem hq).2.not_overdue hover

/-- The second pass. -/
theorem cap_spec (sorting : Sorting Nat) {xs : List Nat} {acc : Scan}
    (h : Scanned st timeout now xs acc) (hmem : ∀ p ∈ xs, p ∈ st.sessions) (hnodup : xs.Nodup) :
    ∃ ys, (acc.cap sorting now).expired = acc.expired ++ ys ∧
      st.Evicts (acc.expired ++ ys) (acc.cap sorting now).store ∧
      Chosen st (xs.filter fun p => (st.session p).Lingers now) ys := by
  have hmax := h.evicts.max
  have hD := hnodup.filter fun p => decide ((st.session p).Lingers now)
  have hkey : (fun p => (acc.store.session p).detachedAt) = fun p => (st.session p).detachedAt :=
    funext fun p => (h.evicts.same p).2
  unfold cap
  dsimp only
  rw [hmax, hkey, h.detached]
  split
  next hover =>
    have hchosen := chosen_take st sorting hD hover.1
    obtain ⟨hexp, hev⟩ := evict_foldl h.evicts (fun p hp => hchosen.lingers hmem hp)
      (h.nodup_append hmem hnodup hchosen)
    exact ⟨_, hexp, hev, hchosen⟩
  next hunder =>
    refine ⟨[], by rw [List.append_nil], by rw [List.append_nil]; exact h.evicts, ?_⟩
    refine ⟨List.nodup_nil, by simp, ?_, by simp⟩
    split
    next hpos =>
      have hle := Int.not_lt.mp fun hlt => hunder ⟨hpos, hlt⟩
      rw [List.length_nil]
      omega
    next => rfl

end Scan

/-- The callbacks, outside the locks. -/
theorem callEvict_foldl (st : SessionStore) {ps : List Nat} (hnodup : ps.Nodup)
    (calls : List Nat) :
    (ps.foldl callEvict (st, calls)).2 = calls ++ ps ∧
      (ps.foldl callEvict (st, calls)).1.sessions = st.sessions ∧
      ∀ q, (ps.foldl callEvict (st, calls)).1.session q =
        if q ∈ ps then (st.session q).closePipes else st.session q := by
  induction ps generalizing st calls with
  | nil => simp
  | cons p ps ih =>
    obtain ⟨hp, hps⟩ := List.nodup_cons.mp hnodup
    obtain ⟨hcalls, hsessions, hsession⟩ :=
      ih (st.modify p .closePipes fun _ => rfl) hps (calls ++ [p])
    refine ⟨?_, hsessions, ?_⟩
    · rw [List.append_assoc] at hcalls
      exact hcalls
    · intro q
      refine (hsession q).trans ?_
      show (if q ∈ ps then (Function.update st.session p _ q).closePipes
        else Function.update st.session p _ q) = _
      by_cases hq : q = p
      · rw [hq, if_neg hp, Function.update_self, if_pos (by simp)]
      · rw [Function.update_of_ne hq]
        simp [hq]

/-! ## The whole sweep -/

theorem Scan.Chosen.perm {D D' ys : List Nat} (h : Scan.Chosen st D ys) (hperm : D.Perm D') :
    Scan.Chosen st D' ys where
  nodup := h.nodup
  among := fun p hp => hperm.mem_iff.mp (h.among p hp)
  length := hperm.length_eq ▸ h.length
  oldest := fun p hp q hq => h.oldest p hp q (hperm.mem_iff.mpr hq)

/-- The cap is kept. -/
theorem Scan.Chosen.rest {D ys : List Nat} (h : Scan.Chosen st D ys) (hnodup : D.Nodup)
    (hmax : 0 < st.maxDetachedResumable) :
    ((D.filter fun p => decide (p ∉ ys)).length : Int) ≤ st.maxDetachedResumable := by
  have hgone : (D.filter fun p => decide (p ∈ ys)).Perm ys := by
    refine (List.perm_ext_iff_of_nodup (hnodup.filter _) h.nodup).mpr ?_
    intro p
    rw [List.mem_filter, decide_eq_true_eq]
    exact ⟨fun hp => hp.2, fun hp => ⟨h.among p hp, hp⟩⟩
  have hsum : D.length = _ := List.length_eq_length_filter_add fun p => decide (p ∈ ys)
  have hlength := h.length
  rw [if_pos hmax, ← hgone.length_eq] at hlength
  simp only [decide_not]
  omega

/-- What the two passes leave and the callbacks then do. -/
theorem Evicts.swept {ys : List Nat} {out : SessionStore}
    (hover : ∀ p, p ∈ ps ↔ p ∈ st.sessions ∧ (st.session p).Overdue timeout now)
    (hchosen : Scan.Chosen st (st.sessions.filter fun p => (st.session p).Lingers now) ys)
    (hnodup : (ps ++ ys).Nodup) (h : st.Evicts (ps ++ ys) st')
    (hsessions : out.sessions = st'.sessions)
    (hsession : ∀ p, out.session p =
      if p ∈ ps ++ ys then (st'.session p).closePipes else st'.session p) :
    st.Swept timeout now out (ps ++ ys) := by
  have hlin : ∀ p ∈ ys, p ∈ st.sessions ∧ (st.session p).Lingers now :=
    fun p hp => hchosen.lingers (fun _ hx => hx) hp
  -- a session that lingers goes by the cap or not at all
  have hcap : ∀ p, (st.session p).Lingers now → (p ∈ ps ++ ys ↔ p ∈ ys) := by
    intro p hp
    rw [List.mem_append, or_iff_right]
    exact fun hmem => hp.not_overdue ((hover p).mp hmem).2
  constructor
  case once => exact hnodup
  case rules =>
    intro p hp
    rcases List.mem_append.mp hp with hp | hp
    · obtain ⟨hmem, hlate | hstale⟩ := (hover p).mp hp
      · exact ⟨hmem, .inl hlate⟩
      · exact ⟨hmem, .inr (.inl hstale)⟩
    · exact ⟨(hlin p hp).1, .inr (.inr (hlin p hp).2)⟩
  case overdue =>
    intro p hp hlate
    exact List.mem_append_left _ ((hover p).mpr ⟨hp, hlate⟩)
  case capped =>
    have hnone : (ps.filter fun p => decide ((st.session p).Lingers now)) = [] := by
      refine List.filter_eq_nil_iff.mpr ?_
      intro p hp hl
      exact (of_decide_eq_true hl).not_overdue ((hover p).mp hp).2
    have hall : (ys.filter fun p => decide ((st.session p).Lingers now)) = ys :=
      List.filter_eq_self.mpr fun p hp => decide_eq_true (hlin p hp).2
    rw [List.filter_append, hnone, hall, List.nil_append]
    exact hchosen.length
  case oldest =>
    intro p hp hpl q hq hql hnot
    refine hchosen.oldest p ((hcap p hpl).mp hp) q ?_ fun hmem => hnot ((hcap q hql).mpr hmem)
    exact List.mem_filter.mpr ⟨hq, decide_eq_true hql⟩
  case kept =>
    intro hmax
    have hleft : (out.sessions.filter fun p => decide ((st.session p).Lingers now)) =
        (st.sessions.filter fun p => decide ((st.session p).Lingers now)).filter
          fun p => decide (p ∉ ys) := by
      rw [hsessions, h.sessions, List.filter_filter, List.filter_filter]
      refine List.filter_congr ?_
      intro p _
      by_cases hp : (st.session p).Lingers now
      · simp only [hcap p hp, Bool.and_comm]
      · simp [hp]
    rw [hleft]
    exact hchosen.rest (st.nodup.filter _) hmax
  case closed =>
    intro p hp
    rw [hsession, if_pos hp, h.session, if_pos hp]
    exact ⟨rfl, rfl, rfl⟩
  case frame =>
    intro p hp
    rw [hsession, if_pos hp, h.session, if_pos hp]
    rfl
  case others =>
    intro p hp
    rw [hsession, if_neg hp, h.unchanged hp]
  case entries => rw [hsessions, h.sessions]

/-- **The sweep evicts exactly the right sessions.** Whatever the order of the map and whatever the
sort does with ties. -/
theorem sweep_exact (sorting : Sorting Nat) (st : SessionStore) (timeout now : Int)
    {range : List Nat} (hrange : range.Perm st.sessions) :
    st.Swept timeout now (st.sweep sorting timeout now range).1
      (st.sweep sorting timeout now range).2 := by
  have hmem : ∀ p ∈ range, p ∈ st.sessions := fun p hp => hrange.mem_iff.mp hp
  have hnodup : range.Nodup := hrange.nodup_iff.mpr st.nodup
  have hscan := Scan.scanned_of_foldl st timeout now hmem hnodup
  obtain ⟨ys, hexp, hev, hchosen⟩ := Scan.cap_spec sorting hscan hmem hnodup
  have hboth := hscan.nodup_append hmem hnodup hchosen
  obtain ⟨hcalls, hsessions, hsession⟩ := callEvict_foldl
    ((range.foldl (Scan.scan timeout now) { store := st }).cap sorting now).store hboth []
  have hover : ∀ p, p ∈ (range.foldl (Scan.scan timeout now) { store := st }).expired ↔
      p ∈ st.sessions ∧ (st.session p).Overdue timeout now := by
    intro p
    rw [hscan.expired, List.mem_filter, decide_eq_true_eq, hrange.mem_iff]
  unfold sweep
  dsimp only
  rw [hexp, hcalls, List.nil_append]
  exact hev.swept hover (hchosen.perm (hrange.filter _)) hboth hsessions hsession

/-- Seven sessions at time 100: one past its grace and one past the timeout, three that linger (two
of them detached at the same instant), one that a poll is attached to, and one that is closed. -/
def mixedStore : SessionStore where
  session
    | 0 => { id := 0, rs := some false, resumeGrace := 30, lastActive := 0, detachedAt := 60 }
    | 1 => { id := 1, rs := some true, resumeGrace := 90, lastActive := 20, detachedAt := 20 }
    | 2 => { id := 2, rs := some false, resumeGrace := 90, lastActive := 0, detachedAt := 80 }
    | 3 => { id := 3, rs := some false, resumeGrace := 90, lastActive := 0, detachedAt := 70 }
    | 4 => { id := 4, rs := some false, resumeGrace := 90, lastActive := 0, detachedAt := 70 }
    | 5 => { id := 5, pollInFlight := 1, lastActive := 0, detachedAt := 0 }
    | n => { id := n, closed := true, lastActive := 0, detachedAt := 0 }
  sessions := [0, 1, 2, 3, 4, 5, 6]
  distinct := by decide
  maxDetachedResumable := 1

/-- The cap of one leaves the session that was detached last; of the one detached first both pipes
are closed. -/
theorem mixedStore_sweep :
    (mixedStore.sweep (.insertion Nat) 50 100 [6, 4, 2, 0, 5, 3, 1]).2 = [0, 1, 4, 3] ∧
      (mixedStore.sweep (.insertion Nat) 50 100 [6, 4, 2, 0, 5, 3, 1]).1.sessions = [2, 5, 6] ∧
      ((mixedStore.sweep (.insertion Nat) 50 100 [6, 4, 2, 0, 5, 3, 1]).1.session 0).toServer.closed =
        true ∧
      mixedStore.Swept 50 100 (mixedStore.sweep (.insertion Nat) 50 100 [6, 4, 2, 0, 5, 3, 1]).1
        (mixedStore.sweep (.insertion Nat) 50 100 [6, 4, 2, 0, 5, 3, 1]).2 :=
  have hrange : [6, 4, 2, 0, 5, 3, 1].Perm mixedStore.sessions := by decide
  have hswept := mixedStore.sweep_exact (.insertion Nat) 50 100 hrange
  ⟨by decide, by decide, (hswept.closed 0 (by decide)).2.1, hswept⟩

/-! ## The sweep among the other steps -/

/-- The life `l` is in a sweep that is as far as `acc`; `ps` are the sessions the sweep can meet,
and `owed` the hook calls from before. -/
structure Scan.Mirrors (ps : List Nat) (owed : List (Nat × DisconnectReason)) (acc : Scan)
    (now : Int) (l : Lifecycle) (pending : List Nat) (toEvict : Option (List (Nat × Nat))) :
    Prop where
  session : ∀ p ∈ ps, l.session p = some (acc.store.session p).toSession
  sessions : l.sessions = acc.store.sessions
  among : ∀ p ∈ acc.store.sessions, p ∈ ps
  owed : l.owed = owed
  sweep : ∃ detached, detached.map Prod.fst = acc.detached ∧
    l.sweep = some { now, pending, detached, toEvict, expired := acc.expired }

namespace Scan

variable {owed : List (Nat × DisconnectReason)} {acc : Scan} {l : Lifecycle} {pending : List Nat}
  {toEvict : Option (List (Nat × Nat))}

/-- Closing a session is the same in both, whatever else the sweep writes down. -/
theorem Mirrors.expire (h : acc.Mirrors ps owed now l pending toEvict) (p : Nat) {sw : Sweep}
    {pending' : List Nat} {toEvict' : Option (List (Nat × Nat))}
    (hsw : ∃ detached, detached.map Prod.fst = acc.detached ∧
      sw = { now, pending := pending', detached, toEvict := toEvict', expired := acc.expired }) :
    (acc.expire p).Mirrors ps owed now (l.expire sw p (acc.store.session p).toSession) pending'
      toEvict' where
  session := by
    intro q hq
    show Function.update l.session p _ q =
      some (Function.update acc.store.session p _ q).toSession
    by_cases hqp : q = p
    · rw [hqp, Function.update_self, Function.update_self]
      rfl
    · rw [Function.update_of_ne hqp, Function.update_of_ne hqp]
      exact h.session q hq
  sessions := by
    show l.sessions.filter _ = acc.store.sessions.filter _
    rw [h.sessions]
    refine List.filter_congr ?_
    intro q hq
    have hid : ((acc.store.modify p .markClosed fun _ => rfl).session q).id =
        (acc.store.session q).id := by
      show (Function.update acc.store.session p _ q).id = _
      by_cases hqp : q = p
      · rw [hqp, Function.update_self]
        rfl
      · rw [Function.update_of_ne hqp]
    rw [h.session q (h.among q hq), hid]
    simp [bne]
  among := fun q hq => h.among q (List.mem_of_mem_filter hq)
  owed := h.owed
  sweep := by
    obtain ⟨detached, hmap, rfl⟩ := hsw
    exact ⟨detached, hmap, rfl⟩

/-- The sweep turns to the next session and leaves it alone. -/
theorem Mirrors.pass (h : acc.Mirrors ps owed now l pending toEvict) {sw : Sweep}
    {pending' : List Nat} {toEvict' : Option (List (Nat × Nat))} {detached' : List Nat}
    (hsw : ∃ detached, detached.map Prod.fst = detached' ∧
      sw = { now, pending := pending', detached, toEvict := toEvict', expired := acc.expired }) :
    { acc with detached := detached' }.Mirrors ps owed now { l with sweep := some sw } pending'
      toEvict' where
  session := h.session
  sessions := h.sessions
  among := h.among
  owed := h.owed
  sweep := by
    obtain ⟨detached, hmap, rfl⟩ := hsw
    exact ⟨detached, hmap, rfl⟩

/-- The first loop's body is the step `scan`. -/
theorem Mirrors.scan {w : Wiring} (h : acc.Mirrors ps owed now l pending none) (hp : p ∈ ps)
    (hpending : p ∈ pending) :
    ∃ l', (Lifecycle.machine w).step l (.scan p) = some l' ∧
      (acc.scan w.effective.sessionTimeout now p).Mirrors ps owed now l' (pending.erase p) none := by
  obtain ⟨detached, hmap, hsweep⟩ := h.sweep
  refine ⟨l.scanEntry w.effective.sessionTimeout
    { now, pending := pending.erase p, detached, expired := acc.expired } p
    (acc.store.session p).toSession, ?_, ?_⟩
  · simp [Lifecycle.machine, Lifecycle.step, hsweep, h.session p hp, hpending]
  · unfold Lifecycle.scanEntry Scan.scan
    dsimp only
    split
    next =>
      split
      next =>
        split
        next => exact h.expire p ⟨detached, hmap, rfl⟩
        next =>
          split
          next => exact h.pass ⟨_, by rw [List.map_append, hmap]; rfl, rfl⟩
          next => exact h.pass ⟨detached, hmap, rfl⟩
      next =>
        split
        next => exact h.expire p ⟨detached, hmap, rfl⟩
        next => exact h.pass ⟨detached, hmap, rfl⟩
    next => exact h.pass ⟨detached, hmap, rfl⟩

/-- The second loop's body is the step `evict`. -/
theorem Mirrors.evict {w : Wiring} {n : Nat} {rest : List (Nat × Nat)}
    (h : acc.Mirrors ps owed now l pending (some ((p, n) :: rest))) (hp : p ∈ ps) :
    ∃ l', (Lifecycle.machine w).step l .evict = some l' ∧
      (acc.evict now p).Mirrors ps owed now l' pending (some rest) := by
  obtain ⟨detached, hmap, hsweep⟩ := h.sweep
  refine ⟨l.evictEntry
    { now, pending, detached, toEvict := some rest, expired := acc.expired } p
    (acc.store.session p).toSession, ?_, ?_⟩
  · simp [Lifecycle.machine, Lifecycle.step, hsweep, h.session p hp]
  · unfold Lifecycle.evictEntry Scan.evict
    dsimp only
    split
    next => exact h.expire p ⟨detached, hmap, rfl⟩
    next => exact h.pass ⟨detached, hmap, rfl⟩

theorem Mirrors.scans {w : Wiring} {range : List Nat} (h : acc.Mirrors ps owed now l pending none)
    (hps : ∀ p ∈ range, p ∈ ps) (hperm : range.Perm pending) :
    ∃ l', (Lifecycle.machine w).run l (range.map .scan) = some l' ∧
      (range.foldl (Scan.scan w.effective.sessionTimeout now) acc).Mirrors ps owed now l' [] none := by
  induction range generalizing acc l pending with
  | nil =>
    cases List.nil_perm.mp hperm
    exact ⟨l, rfl, h⟩
  | cons p range ih =>
    obtain ⟨l₁, hstep, h₁⟩ := h.scan (w := w) (hps p (by simp)) (hperm.mem_iff.mp (by simp))
    have hrest : range.Perm (pending.erase p) := by
      have := hperm.erase p
      rwa [List.erase_cons_head] at this
    obtain ⟨l', hrun, h'⟩ := ih h₁ (fun q hq => hps q (List.mem_cons_of_mem _ hq)) hrest
    exact ⟨l', Machine.run_cons hstep hrun, h'⟩

theorem Mirrors.evicts {w : Wiring} {chosen : List (Nat × Nat)}
    (h : acc.Mirrors ps owed now l pending (some chosen)) (hps : ∀ c ∈ chosen, c.1 ∈ ps) :
    ∃ l', (Lifecycle.machine w).run l (chosen.map fun _ => .evict) = some l' ∧
      ((chosen.map Prod.fst).foldl (Scan.evict now) acc).Mirrors ps owed now l' pending (some []) := by
  induction chosen generalizing acc l with
  | nil => exact ⟨l, rfl, h⟩
  | cons c chosen ih =>
    obtain ⟨l₁, hstep, h₁⟩ := h.evict (w := w) (hps c (by simp))
    obtain ⟨l', hrun, h'⟩ := ih h₁ fun q hq => hps q (List.mem_cons_of_mem _ hq)
    exact ⟨l', Machine.run_cons hstep hrun, h'⟩

/-- The sort and the second loop. -/
theorem Mirrors.cap {w : Wiring} (sorting : Sorting Nat) (h : acc.Mirrors ps owed now l [] none)
    (hmax : acc.store.maxDetachedResumable = w.effective.maxDetachedResumable)
    (hps : ∀ p ∈ acc.detached, p ∈ ps) :
    ∃ evs l', (Lifecycle.machine w).run l evs = some l' ∧
      (acc.cap sorting now).Mirrors ps owed now l' [] (some []) := by
  obtain ⟨detached, hmap, hsweep⟩ := h.sweep
  have hlen : detached.length = acc.detached.length := by rw [← hmap, List.length_map]
  have hcap : (0 < Lifecycle.maxDetached w.effective ∧
      Lifecycle.maxDetached w.effective < detached.length) ↔
      0 < acc.store.maxDetachedResumable ∧
        acc.store.maxDetachedResumable < acc.detached.length := by
    rw [hlen, hmax, Lifecycle.maxDetached]
    omega
  unfold Scan.cap
  dsimp only
  split
  next hover =>
    -- the order of the sort, carried over to the entries
    obtain ⟨order, hfst, hperm⟩ := exists_map_eq_of_perm (hmap ▸
      sorting.perm (fun p => (acc.store.session p).detachedAt) acc.detached)
    obtain ⟨l₁, hstep, h₁⟩ : ∃ l₁, (Lifecycle.machine w).step l (.choose order) = some l₁ ∧
        acc.Mirrors ps owed now l₁ []
          (some (order.take (acc.detached.length - acc.store.maxDetachedResumable.toNat))) := by
      refine ⟨_, ?_, h.pass ⟨detached, hmap, rfl⟩⟩
      simp only [Lifecycle.machine, Lifecycle.step, hsweep, Option.bind_eq_bind, Option.bind_some,
        and_self, if_true, if_pos (hcap.mpr hover), if_pos (List.isPerm_iff.mpr hperm)]
      rw [hlen, hmax, Lifecycle.maxDetached]
    have hchosen : ∀ c ∈ order.take (acc.detached.length - acc.store.maxDetachedResumable.toNat),
        c.1 ∈ ps := by
      intro c hc
      refine hps c.1 ?_
      rw [← hmap]
      exact List.mem_map_of_mem (hperm.mem_iff.mp (List.mem_of_mem_take hc))
    obtain ⟨l', hrun, h'⟩ := h₁.evicts (w := w) hchosen
    rw [List.map_take, hfst, hmap] at h'
    exact ⟨_, l', Machine.run_cons hstep hrun, h'⟩
  next hunder =>
    obtain ⟨l₁, hstep, h₁⟩ : ∃ l₁, (Lifecycle.machine w).step l (.choose []) = some l₁ ∧
        acc.Mirrors ps owed now l₁ [] (some []) := by
      refine ⟨_, ?_, h.pass ⟨detached, hmap, rfl⟩⟩
      simp only [Lifecycle.machine, Lifecycle.step, hsweep, Option.bind_eq_bind, Option.bind_some,
        and_self, if_true, if_neg (fun hover => hunder (hcap.mp hover))]
    exact ⟨_, l₁, Machine.run_single hstep, h₁⟩

/-- The sweep lets go of the lock, and owes the callbacks. -/
theorem Mirrors.unlock {w : Wiring} (h : acc.Mirrors ps owed now l [] (some [])) :
    ∃ l', (Lifecycle.machine w).step l .unlock = some l' ∧ l'.session = l.session ∧
      l'.sessions = l.sessions ∧ l'.sweep = none ∧
      l'.owed = owed ++ acc.expired.map fun p => (p, .evicted) := by
  obtain ⟨detached, -, hsweep⟩ := h.sweep
  refine ⟨{ l with sweep := none, owed := l.owed ++ acc.expired.map fun p => (p, .evicted) },
    ?_, rfl, rfl, rfl, ?_⟩
  · simp [Lifecycle.machine, Lifecycle.step, hsweep]
  · rw [h.owed]

end Scan

/-- The life `l` has the sessions and the map of the store. -/
structure Shows (st : SessionStore) (l : Lifecycle) : Prop where
  session : ∀ p ∈ st.sessions, l.session p = some (st.session p).toSession
  sessions : l.sessions = st.sessions

/-- **Refinement.** A sweep of the store is a run of its life: the sweep that read `now` takes the
lock, and once it has let go the life shows the store as the sweep left it, and owes a hook call for
every session evicted. -/
theorem sweep_life {w : Wiring} (sorting : Sorting Nat) {l : Lifecycle} {range : List Nat}
    (h : st.Shows l) (hfree : l.sweep = none) (hnow : now ∈ l.waiting)
    (hrange : range.Perm st.sessions)
    (hmax : st.maxDetachedResumable = w.effective.maxDetachedResumable) :
    ∃ evs l', (Lifecycle.machine w).run l evs = some l' ∧
      (st.sweep sorting w.effective.sessionTimeout now range).1.Shows l' ∧ l'.sweep = none ∧
      l'.owed = l.owed ++
        (st.sweep sorting w.effective.sessionTimeout now range).2.map fun p => (p, .evicted) := by
  let timeout := w.effective.sessionTimeout
  have hmem : ∀ p ∈ range, p ∈ st.sessions := fun p hp => hrange.mem_iff.mp hp
  have hnodup : range.Nodup := hrange.nodup_iff.mpr st.nodup
  have hscan := Scan.scanned_of_foldl st timeout now hmem hnodup
  obtain ⟨l₀, hlock, h₀⟩ : ∃ l₀, (Lifecycle.machine w).step l (.sweepLock now) = some l₀ ∧
      Scan.Mirrors st.sessions l.owed { store := st } now l₀ l.sessions none := by
    refine ⟨_, if_pos ⟨hfree, hnow⟩, ?_⟩
    exact ⟨h.session, h.sessions, fun p hp => hp, rfl, [], rfl, rfl⟩
  rw [h.sessions] at h₀
  obtain ⟨l₁, hscans, h₁⟩ := h₀.scans (w := w) hmem hrange
  have hdetached : ∀ p ∈ (range.foldl (Scan.scan timeout now) { store := st }).detached,
      p ∈ st.sessions := by
    intro p hp
    rw [hscan.detached] at hp
    exact hmem p (List.mem_of_mem_filter hp)
  obtain ⟨evs, l₂, hevs, h₂⟩ := h₁.cap sorting (hscan.evicts.max.trans hmax) hdetached
  obtain ⟨ys, hexp, -, hchosen⟩ := Scan.cap_spec sorting hscan hmem hnodup
  obtain ⟨hcalls, hsessions, hsession⟩ := callEvict_foldl
    ((range.foldl (Scan.scan timeout now) { store := st }).cap sorting now).store
    (hexp ▸ hscan.nodup_append hmem hnodup hchosen) []
  obtain ⟨l₃, hunlock, hsame, hentries, hdone, howed⟩ := h₂.unlock (w := w)
  refine ⟨_, l₃, Machine.run_cons hlock (Machine.run_append hscans
    (Machine.run_append hevs (Machine.run_single hunlock))), ⟨?_, ?_⟩, hdone, ?_⟩
  · intro p hp
    rw [hsame, h₂.session p (h₂.among p (hsessions ▸ hp))]
    refine congrArg some (Eq.trans ?_ (congrArg StoredSession.toSession (hsession p)).symm)
    split
    next => rfl
    next => rfl
  · exact hentries.trans (h₂.sessions.trans hsessions.symm)
  · exact howed.trans (congrArg (fun ps => l.owed ++ ps.map fun p => (p, .evicted)) hcalls.symm)

end SessionStore

end Pollmux
