import Pollmux.Kit.Machine

/-!
# Superseded or failed: what a connection says about its session

When the server ends a session, the connection has to tell two cases apart: a newer connect of the
same `Connector` took its place (`SessionSuperseded`), or the transport is gone (`TransportFailed`).
It asks the Connector which session is the active one. The Connector knows that from
`adoptSession`, which every connect calls once, and the three kinds of connection call it at two
different places: `httpConn` and `resumableConn` before their loops start, `wsConn` after.

**A connection of a kind is reported superseded only after a newer connect was adopted, in every
run, exactly when that kind adopts its session before its loops run** (`superseded_iff_adopts_first`):
it holds of HTTP and of resumable connections and not of WebSocket ones, whose loop can ask before
its own session is recorded and then reads the previous connect's answer.

`Guards` is the Connector with all connections it ever made; their loops run concurrently. Asking
(`isActiveSession`) and reporting are two steps, so that anything may happen between them. What the
loops carry is not modelled here, nor that a loop ends after its report: a loop may report again,
which only adds runs.
-/

namespace Pollmux

open Kit

/-- The implementations of `Conn`. -/
inductive ConnKind
  | http
  | webSocket
  | resumable
  deriving DecidableEq, Repr

/-- A connection as its `sessionGuard` and its signals show it. `asking` counts the loops that met
a problem and have not asked yet, `answers` the answers of `isActiveSession` not yet acted on. -/
structure Guarded where
  built : Bool := false
  adopted : Bool := false
  started : Bool := false
  closed : Bool := false
  cancelled : Bool := false
  transportFailed : Bool := false
  sessionSuperseded : Bool := false
  asking : Nat := 0
  answers : List Bool := []
  deriving DecidableEq, Repr

/-- A `Connector` and the connections it made, by number. -/
structure Guards where
  activeSessionID : String := ""
  conn : Nat → Guarded := fun _ => {}

/-- What happens to connection `i`. A `problem` is met by one of its loops; `checked` says that the
loop looks for a deliberate shutdown first, which all loops do on a failed request and `wsConn`'s
`readLoop` does not on a message it cannot use. -/
inductive GuardEvent
  | build (i : Nat)
  | adopt (i : Nat)
  | start (i : Nat)
  | problem (i : Nat) (checked : Bool)
  | ask (i : Nat)
  | report (i k : Nat)
  | giveUp (i : Nat)
  | cancel (i : Nat)
  | close (i : Nat)
  deriving DecidableEq, Repr

namespace Guards

/-- `Connector.adoptSession`. -/
def adoptSession (s : Guards) (id : String) : Guards := { s with activeSessionID := id }

/-- `Connector.isActiveSession`. -/
def isActiveSession (s : Guards) (id : String) : Bool := s.activeSessionID == id

/-- One connection changes. -/
def set (s : Guards) (i : Nat) (g : Guarded) : Guards :=
  { s with conn := Function.update s.conn i g }

@[simp] theorem set_activeSessionID (s : Guards) (i : Nat) (g : Guarded) :
    (s.set i g).activeSessionID = s.activeSessionID := rfl

theorem set_conn (s : Guards) (i j : Nat) (g : Guarded) :
    (s.set i g).conn j = if j = i then g else s.conn j := by
  simp only [set, Function.update_apply]

end Guards

namespace Guarded

/-- `wsConn` starts its loops and then adopts its session; the other kinds adopt first. -/
def mayAdopt (kind : ConnKind) (g : Guarded) : Bool :=
  g.built && !g.adopted && (if kind = .webSocket then g.started else true)

/-- The other half of `mayAdopt`. -/
def mayStart (kind : ConnKind) (g : Guarded) : Bool :=
  g.built && !g.started && (if kind = .webSocket then true else g.adopted)

/-- A loop meets a problem it will report: with no deliberate shutdown under way if it looks for
one. -/
def mayAsk (kind : ConnKind) (checked : Bool) (g : Guarded) : Bool :=
  g.started && (if checked then !(g.cancelled || g.closed) else kind = .webSocket)

/-- `fail`. -/
def fail (g : Guarded) : Guarded := { g with transportFailed := true }

/-- `sessionGuard.supersede`, up to its call of `cancel`. -/
def supersede (g : Guarded) : Guarded := { g with sessionSuperseded := true }

/-- The rest of `onSessionClosed` and `onTransportProblem`, once `isActiveSession` has answered. -/
def act (g : Guarded) (active : Bool) : Guarded := if active then g.fail else g.supersede

end Guarded

section Guard

variable (kind : Nat → ConnKind) (sid : Nat → String)

/-- One event. `doConnect` refuses a response without a session id, so a connection is built with
one; only `resumableConn` fails a connection without asking first. -/
def Guards.step (s : Guards) : GuardEvent → Option Guards
  | .build i =>
    if !(s.conn i).built && sid i ≠ "" then some (s.set i { s.conn i with built := true }) else none
  | .adopt i =>
    if (s.conn i).mayAdopt (kind i) then
      some ((s.adoptSession (sid i)).set i { s.conn i with adopted := true })
    else none
  | .start i =>
    if (s.conn i).mayStart (kind i) then some (s.set i { s.conn i with started := true }) else none
  | .problem i checked =>
    if (s.conn i).mayAsk (kind i) checked then
      some (s.set i { s.conn i with asking := (s.conn i).asking + 1 })
    else none
  | .ask i =>
    if 0 < (s.conn i).asking then
      some (s.set i
        { s.conn i with
          asking := (s.conn i).asking - 1
          answers := (s.conn i).answers ++ [s.isActiveSession (sid i)] })
    else none
  | .report i k =>
    ((s.conn i).answers[k]?).map fun active =>
      s.set i { (s.conn i).act active with answers := (s.conn i).answers.eraseIdx k }
  | .giveUp i =>
    if kind i = .resumable ∧ (s.conn i).started then some (s.set i (s.conn i).fail) else none
  | .cancel i =>
    if (s.conn i).sessionSuperseded || (s.conn i).closed then
      some (s.set i { s.conn i with cancelled := true })
    else none
  | .close i =>
    if (s.conn i).adopted && (s.conn i).started then
      some (s.set i { s.conn i with closed := true })
    else none

/-- The Connector with its connections, before its first connect. -/
def Guards.machine : Machine Guards GuardEvent where
  init := {}
  step := Guards.step kind sid

/-! ## The session a run has adopted last -/

/-- The active session after one more event. -/
def recorded (id : String) : GuardEvent → String
  | .adopt i => sid i
  | _ => id

/-- The active session after a run, by the events alone. -/
def activeAfter (as : List GuardEvent) : String := as.foldl (recorded sid) ""

/-- Connection `i` asked in the course of `as` and was answered `active`; unless it is a WebSocket
connection, it had adopted its session by then. -/
def Asked (as : List GuardEvent) (i : Nat) (active : Bool) : Prop :=
  ∃ pre post, as = pre ++ .ask i :: post ∧ (activeAfter sid pre == sid i) = active ∧
    (kind i ≠ .webSocket → .adopt i ∈ pre)

/-- Connection `i` was adopted, and a newer connect with another session after it. -/
def Replaced (as : List GuardEvent) (i : Nat) : Prop :=
  ∃ pre mid post j, as = pre ++ .adopt i :: (mid ++ .adopt j :: post) ∧ sid j ≠ sid i

end Guard

section Histories

variable {kind : Nat → ConnKind} {sid : Nat → String}

theorem Asked.append {as : List GuardEvent} {i : Nat} {active : Bool}
    (h : Asked kind sid as i active) (bs : List GuardEvent) : Asked kind sid (as ++ bs) i active := by
  obtain ⟨pre, post, rfl, hanswer, hadopt⟩ := h
  exact ⟨pre, post ++ bs, by simp, hanswer, hadopt⟩

theorem activeAfter_concat (as : List GuardEvent) (a : GuardEvent) :
    activeAfter sid (as ++ [a]) = recorded sid (activeAfter sid as) a := by
  simp [activeAfter]

/-- As long as no other session is adopted, the active one stays. -/
theorem foldl_recorded_of_same {id : String} {as : List GuardEvent}
    (h : ∀ j, .adopt j ∈ as → sid j = id) : as.foldl (recorded sid) id = id := by
  induction as with
  | nil => rfl
  | cons a as ih =>
    have hrest : ∀ j, .adopt j ∈ as → sid j = id := fun j hj => h j (List.mem_cons_of_mem _ hj)
    cases a with
    | adopt j =>
      have hj : sid j = id := h j List.mem_cons_self
      simpa only [List.foldl_cons, recorded, hj] using ih hrest
    | _ => exact ih hrest

/-- **A session that was adopted and is not the active one was replaced.** -/
theorem replaced_of_inactive {as : List GuardEvent} {i : Nat} (hadopt : .adopt i ∈ as)
    (hactive : activeAfter sid as ≠ sid i) : Replaced sid as i := by
  obtain ⟨pre, mid, rfl⟩ := List.append_of_mem hadopt
  have hother : ∃ j, .adopt j ∈ mid ∧ sid j ≠ sid i := by
    by_contra hnone
    apply hactive
    have hsame : ∀ j, .adopt j ∈ mid → sid j = sid i := by
      intro j hj
      by_contra hne
      exact hnone ⟨j, hj, hne⟩
    simp only [activeAfter, List.foldl_append, List.foldl_cons, recorded]
    exact foldl_recorded_of_same hsame
  obtain ⟨j, hj, hne⟩ := hother
  obtain ⟨mid, post, rfl⟩ := List.append_of_mem hj
  exact ⟨pre, mid, post, j, rfl, hne⟩

theorem Replaced.append {as : List GuardEvent} {i : Nat} (h : Replaced sid as i)
    (bs : List GuardEvent) : Replaced sid (as ++ bs) i := by
  obtain ⟨pre, mid, post, j, rfl, hne⟩ := h
  exact ⟨pre, mid, post ++ bs, j, by simp, hne⟩

/-! ## What every run keeps -/

/-- Connection `i` after the events `as`. -/
structure Guarded.Inv (kind : Nat → ConnKind) (sid : Nat → String) (as : List GuardEvent) (i : Nat)
    (g : Guarded) : Prop where
  adopted : g.adopted = true → .adopt i ∈ as
  first : kind i ≠ .webSocket → g.started = true → g.adopted = true
  asking : 0 < g.asking → g.started = true
  answers : ∀ active ∈ g.answers, Asked kind sid as i active
  superseded : g.sessionSuperseded = true → Asked kind sid as i false
  failed : g.transportFailed = true → Asked kind sid as i true ∨ kind i = .resumable

theorem Guarded.Inv.append {as : List GuardEvent} {i : Nat} {g : Guarded}
    (h : g.Inv kind sid as i) (a : GuardEvent) : g.Inv kind sid (as ++ [a]) i where
  adopted hg := List.mem_append_left _ (h.adopted hg)
  first := h.first
  asking := h.asking
  answers active hmem := (h.answers active hmem).append _
  superseded hg := (h.superseded hg).append _
  failed hg := (h.failed hg).imp_left fun hasked => hasked.append _

/-- The Connector's record is the last adoption, and each connection keeps its invariant. -/
structure Guards.Inv (kind : Nat → ConnKind) (sid : Nat → String) (as : List GuardEvent)
    (s : Guards) : Prop where
  active : s.activeSessionID = activeAfter sid as
  conns : ∀ i, (s.conn i).Inv kind sid as i

/-- The rule for an event that changes one connection and not the Connector's record. -/
theorem Guards.Inv.set {as : List GuardEvent} {s : Guards} (h : s.Inv kind sid as) (a : GuardEvent)
    {i : Nat} {g : Guarded} (ha : ∀ id, recorded sid id a = id)
    (hg : g.Inv kind sid (as ++ [a]) i) : (s.set i g).Inv kind sid (as ++ [a]) where
  active := by rw [Guards.set_activeSessionID, activeAfter_concat, ha, h.active]
  conns j := by
    rw [Guards.set_conn]
    split_ifs with hj
    · rw [hj]; exact hg
    · exact (h.conns j).append a

/-- An adoption is recorded, by the Connector and in the connection. -/
theorem Guards.Inv.adopt {as : List GuardEvent} {s : Guards} {i : Nat} (h : s.Inv kind sid as) :
    ((s.adoptSession (sid i)).set i { s.conn i with adopted := true }).Inv kind sid
      (as ++ [.adopt i]) where
  active := by rw [activeAfter_concat]; rfl
  conns j := by
    rw [Guards.set_conn]
    split_ifs with hj
    · subst hj
      have hconn := (h.conns j).append (.adopt j)
      exact { hconn with adopted := fun _ => by simp, first := fun _ _ => rfl }
    · exact (h.conns j).append (.adopt i)

/-- A loop asks: its answer is the one the run so far gives. -/
theorem Guards.Inv.ask {as : List GuardEvent} {s : Guards} {i : Nat} (h : s.Inv kind sid as)
    (hasking : 0 < (s.conn i).asking) :
    (s.set i
      { s.conn i with
        asking := (s.conn i).asking - 1
        answers := (s.conn i).answers ++ [s.isActiveSession (sid i)] }).Inv kind sid
      (as ++ [.ask i]) := by
  have hstarted := (h.conns i).asking hasking
  have hconn := (h.conns i).append (.ask i)
  have hasked : Asked kind sid (as ++ [.ask i]) i (s.isActiveSession (sid i)) := by
    refine ⟨as, [], rfl, ?_, ?_⟩
    · rw [Guards.isActiveSession, h.active]
    · intro hkind
      exact (h.conns i).adopted ((h.conns i).first hkind hstarted)
  refine h.set _ (fun _ => rfl) { hconn with asking := fun _ => hstarted, answers := ?_ }
  intro active hmem
  rcases List.mem_append.mp hmem with hold | hnew
  · exact hconn.answers active hold
  · rw [List.mem_singleton.mp hnew]
    exact hasked

/-- A loop acts on the answer it was given. -/
theorem Guards.Inv.report {as : List GuardEvent} {s : Guards} {i k : Nat} {active : Bool}
    (h : s.Inv kind sid as) (hk : (s.conn i).answers[k]? = some active) :
    (s.set i { (s.conn i).act active with answers := (s.conn i).answers.eraseIdx k }).Inv kind sid
      (as ++ [.report i k]) := by
  have hconn := (h.conns i).append (.report i k)
  have hasked := hconn.answers active (List.mem_of_getElem? hk)
  have hrest : ∀ b ∈ (s.conn i).answers.eraseIdx k, Asked kind sid (as ++ [.report i k]) i b :=
    fun b hb => hconn.answers b (List.mem_of_mem_eraseIdx hb)
  refine h.set _ (fun _ => rfl) ?_
  cases active with
  | true => exact { hconn with answers := hrest, failed := fun _ => .inl hasked }
  | false => exact { hconn with answers := hrest, superseded := fun _ => hasked }

theorem Guards.Inv.step {as : List GuardEvent} {s s' : Guards} {a : GuardEvent}
    (h : s.Inv kind sid as) (hs : s.step kind sid a = some s') : s'.Inv kind sid (as ++ [a]) := by
  cases a with
  | adopt i =>
    obtain ⟨-, ⟨⟩⟩ := Option.ite_none_right_eq_some.mp hs
    exact h.adopt
  | ask i =>
    obtain ⟨hasking, ⟨⟩⟩ := Option.ite_none_right_eq_some.mp hs
    exact h.ask hasking
  | report i k =>
    obtain ⟨active, hk, rfl⟩ := Option.map_eq_some_iff.mp hs
    exact h.report hk
  | start i =>
    obtain ⟨hmay, ⟨⟩⟩ := Option.ite_none_right_eq_some.mp hs
    have hconn := (h.conns i).append (.start i)
    refine h.set _ (fun _ => rfl) { hconn with first := fun hkind _ => ?_, asking := fun _ => rfl }
    -- the kinds that are not `webSocket` start only what they adopted
    rw [Guarded.mayStart, if_neg hkind] at hmay
    exact (Bool.and_eq_true_iff.mp hmay).2
  | problem i checked =>
    obtain ⟨hmay, ⟨⟩⟩ := Option.ite_none_right_eq_some.mp hs
    have hconn := (h.conns i).append (.problem i checked)
    exact h.set _ (fun _ => rfl)
      { hconn with asking := fun _ => (Bool.and_eq_true_iff.mp hmay).1 }
  | giveUp i =>
    obtain ⟨⟨hkind, -⟩, ⟨⟩⟩ := Option.ite_none_right_eq_some.mp hs
    have hconn := (h.conns i).append (.giveUp i)
    exact h.set _ (fun _ => rfl) { hconn with failed := fun _ => .inr hkind }
  | build i =>
    obtain ⟨-, ⟨⟩⟩ := Option.ite_none_right_eq_some.mp hs
    exact h.set _ (fun _ => rfl) { (h.conns i).append (.build i) with }
  | cancel i =>
    obtain ⟨-, ⟨⟩⟩ := Option.ite_none_right_eq_some.mp hs
    exact h.set _ (fun _ => rfl) { (h.conns i).append (.cancel i) with }
  | close i =>
    obtain ⟨-, ⟨⟩⟩ := Option.ite_none_right_eq_some.mp hs
    exact h.set _ (fun _ => rfl) { (h.conns i).append (.close i) with }

theorem Guards.Inv.run {as : List GuardEvent} {s : Guards}
    (h : (Guards.machine kind sid).run (Guards.machine kind sid).init as = some s) :
    s.Inv kind sid as := by
  refine Machine.run_invariant (P := Guards.Inv kind sid) ⟨rfl, fun i => ?_⟩ ?_ h
  · constructor <;> simp [Guards.machine]
  · intro as s a s' _ hinv hs
    exact hinv.step hs

/-- **What the two signals say.** A superseded connection asked when another session was the active
one. A failed connection asked when its own session was, or is a resumable one that gave up. -/
theorem signals_report_answers {as : List GuardEvent} {s : Guards}
    (h : (Guards.machine kind sid).run (Guards.machine kind sid).init as = some s) (i : Nat) :
    ((s.conn i).sessionSuperseded = true → Asked kind sid as i false) ∧
      ((s.conn i).transportFailed = true → Asked kind sid as i true ∨ kind i = .resumable) :=
  ⟨((Guards.Inv.run h).conns i).superseded, ((Guards.Inv.run h).conns i).failed⟩

theorem replaced_of_superseded {as : List GuardEvent} {s : Guards} {i : Nat}
    (h : (Guards.machine kind sid).run (Guards.machine kind sid).init as = some s)
    (hkind : kind i ≠ .webSocket) (hs : (s.conn i).sessionSuperseded = true) :
    Replaced sid as i := by
  obtain ⟨pre, post, rfl, hanswer, hadopt⟩ := (signals_report_answers h i).1 hs
  have hinactive : activeAfter sid pre ≠ sid i := beq_eq_false_iff_ne.mp hanswer
  exact (replaced_of_inactive (hadopt hkind) hinactive).append _

/-- A WebSocket connection whose loop meets a problem before `connectWebSocket` reaches
`adoptSession`. -/
def hastyRun (i : Nat) : List GuardEvent :=
  [.build i, .start i, .problem i true, .ask i, .adopt i, .report i 0]

theorem hastyRun_supersedes {i : Nat} (hkind : kind i = .webSocket) (hsid : sid i ≠ "") :
    ∃ s, (Guards.machine kind sid).run (Guards.machine kind sid).init (hastyRun i) = some s ∧
      (s.conn i).sessionSuperseded = true := by
  have hinactive : ("" == sid i) = false := beq_eq_false_iff_ne.mpr hsid.symm
  apply Option.map_eq_some_iff.mp
  simp [hastyRun, Machine.run, Guards.machine, Guards.step, Guards.set_conn, Guarded.mayStart,
    Guarded.mayAsk, Guarded.mayAdopt, Guards.adoptSession, Guards.isActiveSession, Guarded.act,
    Guarded.supersede, hkind, hsid, hinactive]

end Histories

/-- **Superseded means replaced, for exactly the connections that adopt before they start.** The
session has an id, as every session `doConnect` accepts; the ids need not differ. -/
theorem superseded_iff_adopts_first (kind : Nat → ConnKind) (sid : Nat → String) (i : Nat)
    (hsid : sid i ≠ "") :
    (∀ (as : List GuardEvent) (s : Guards),
        (Guards.machine kind sid).run (Guards.machine kind sid).init as = some s →
        (s.conn i).sessionSuperseded = true → Replaced sid as i) ↔
      kind i ≠ .webSocket := by
  constructor
  · intro hall hkind
    obtain ⟨s, hrun, hs⟩ := hastyRun_supersedes hkind hsid
    obtain ⟨pre, mid, post, j, has, hne⟩ := hall (hastyRun i) s hrun hs
    have hj : .adopt j ∈ hastyRun i := by rw [has]; simp
    have hji : j = i := by simpa [hastyRun] using hj
    exact hne (congrArg sid hji)
  · intro hkind as s hrun hs
    exact replaced_of_superseded hrun hkind hs

theorem superseded_iff_adopts_first_webSocket :
    ¬ ∀ (as : List GuardEvent) (s : Guards),
        (Guards.machine (fun _ => .webSocket) (fun _ => "s")).run {} as = some s →
        (s.conn 0).sessionSuperseded = true → Replaced (fun _ => "s") as 0 := by
  intro hall
  exact (superseded_iff_adopts_first (fun _ => .webSocket) (fun _ => "s") 0 (by decide)).mp hall rfl

end Pollmux
