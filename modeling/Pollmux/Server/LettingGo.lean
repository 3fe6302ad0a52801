import Pollmux.Server.Handover

/-!
# The kicked owner leaves

What `Handover` proves about every state, put together as a promise to whoever
kicked: `nextOut` returns to the kicked owner at most once more. Until it does,
the owner's call cannot fall asleep again; once it has, every step of the owner's
own brings it closer to its `detach` and there is always such a step.

The promise holds in every run in which a kicked stream poll that wakes up
interrupted finds an ack due, its deadline passed or its request's context done.
Without that the poll takes the kick for a nudge: its slot is cleared only by its
own `detach`, so `isCurrent` still answers true, there is nothing to write whose
failure could end the loop, and it calls `nextOut` again.
-/

namespace Pollmux

open Kit

/-- How many of its own steps a handler on the way out has left at most. -/
def Pc.rank : Pc → Nat
  | .returned => 0
  | .top => 1
  | .ending => 2
  | .writing _ _ => 3
  | .writingAck _ _ => 4
  | .acking _ _ => 5
  | .got _ => 6
  | .idle | .admitting | .rewinding | .calling | .inNext => 7

/-- The handler whose loop makes this step. -/
def ServeEvent.loop? : ServeEvent → Option Nat
  | .start h | .quit h | .ackRequest h _ | .rewind h | .checkContext h | .call h _ | .advance h _
  | .receive h | .react h | .takeAck h | .write h _ | .checkDeadline h => some h
  | .own _ | .cancel _ | .expire _ | .env _ => none

namespace Serving

variable {mode : Nat → Mode} {s s' : Serving} {x : Nat}

/-- A handler on the way out is out of reach of everyone else, and closer to its end by each step
of its own. -/
def Nearer (s s' : Serving) (x : Nat) (ev : ServeEvent) : Prop :=
  (s'.pump x).pc.rank ≤ (s.pump x).pc.rank ∧
    (ev.loop? = some x → (s'.pump x).pc.rank < (s.pump x).pc.rank)

/-- A loop moves, and if it is that of `x` it comes closer. -/
theorem Nearer.moves {ev : ServeEvent} {h : Nat} {p : Pump} (hpump : s'.pump = (s.setPump h p).pump)
    (hev : ev.loop? = some h) (hlt : h = x → p.pc.rank < (s.pump h).pc.rank) : Nearer s s' x ev := by
  unfold Nearer
  rw [hpump, hev, setPump]
  by_cases hx : x = h
  · subst hx
    simp only [Function.update_self]
    exact ⟨Nat.le_of_lt (hlt rfl), fun _ => hlt rfl⟩
  · simp only [Function.update_of_ne hx]
    exact ⟨Nat.le_refl _, fun heq => absurd (Option.some.inj heq).symm hx⟩

/-- Nobody's loop moves. -/
theorem Nearer.same {ev : ServeEvent} (hpc : (s'.pump x).pc = (s.pump x).pc)
    (hev : ev.loop? = none) : Nearer s s' x ev :=
  ⟨by rw [hpc], fun heq => absurd (hev.symm.trans heq) nofun⟩

/-- Setting a flag of one loop moves none. -/
theorem setPump_pc {h : Nat} {p : Pump} (hp : p.pc = (s.pump h).pc) :
    ((s.setPump h p).pump x).pc = (s.pump x).pc := by
  simp only [setPump]
  by_cases hx : x = h
  · rw [hx, Function.update_self, hp]
  · rw [Function.update_of_ne hx]

/-- A turn of a loop on the way out is one towards its end. -/
theorem Turn.rank_lt {h : Nat} {ev : ServeEvent} {pc : Pc} {rl : Reliable}
    (ht : Turn mode s h ev pc rl) (hleave : LeavePc (mode h) (s.pump h))
    (hkicked : (s.pump h).kicked = true) : pc.rank < (s.pump h).pc.rank := by
  cases ht with
  | start _ hp _ => rw [LeavePc, hp] at hleave; exact hleave.elim
  | quit _ hp => rw [LeavePc, hp] at hleave; exact hleave.elim
  | ackRequest hp => rw [LeavePc, hp] at hleave; exact hleave.elim
  | rewind hp => rw [LeavePc, hp] at hleave; exact hleave.elim
  | checkContext hp =>
    rw [LeavePc, hp] at hleave
    simp [hp, hleave, Pc.rank]
  | @react res hp =>
    rw [hp]
    rcases s.reaction_cases mode h res with heq | heq | ⟨heq, _⟩ <;> simp [heq, Pc.rank]
  | takeAck hp => rw [hp]; split <;> simp [Pc.rank]
  | writeAck _ hp => rw [hp]; split <;> simp [Pc.rank]
  | write _ hp =>
    rw [LeavePc, hp] at hleave
    rw [hp]
    split
    next hquiet =>
      rw [afterWrites, if_pos (hleave hquiet).1]
      simp [Pc.rank]
    next =>
      rw [if_neg (by rw [hkicked]; simp)]
      simp [Pc.rank]
  | checkDeadline hp => rw [hp]; split <;> simp [Pc.rank]

/-- The loop an event moves. -/
theorem Turn.loop? {h : Nat} {ev : ServeEvent} {pc : Pc} {rl : Reliable}
    (ht : Turn mode s h ev pc rl) : ev.loop? = some h := by
  cases ht <;> rfl

/-- **Every step brings a handler on the way out nearer to its end.** -/
theorem LetsGo.nearer (hl : LetsGo (mode x) (s.pump x)) (h1 : (s.pump x).returns = 1)
    {ev : ServeEvent} (hs : s.step mode ev = some s') : Nearer s s' x ev := by
  have hleave := hl.leaves h1
  cases steps_of_step mode hs with
  | own _ _ =>
    split
    next t _ => exact .same ((kick_spec mode s t).1 x).1 rfl
    next => exact .same rfl rfl
  | turn ht =>
    refine .moves rfl ht.loop? ?_
    rintro rfl
    exact ht.rank_lt hleave (hl.counted (by omega))
  | call hp _ =>
    refine .moves rfl rfl ?_
    rintro rfl
    rw [LeavePc, hp] at hleave
    exact hleave.elim
  | advance hp _ =>
    refine ⟨Nat.le_refl _, fun hx => ?_⟩
    cases hx
    rw [LeavePc, hp] at hleave
    exact hleave.elim
  | receive hp _ =>
    refine .moves rfl rfl ?_
    rintro rfl
    rw [LeavePc, hp] at hleave
    exact hleave.elim
  | cancel h => exact .same (setPump_pc rfl) rfl
  | expire h => exact .same (setPump_pc rfl) rfl
  | env _ _ => exact .same rfl rfl

/-- A handler on the way out has a step of its own to make until it has returned. -/
theorem LetsGo.enabled (hl : LetsGo (mode x) (s.pump x)) (h1 : (s.pump x).returns = 1)
    (hne : (s.pump x).pc ≠ .returned) :
    ∃ ev, ev.loop? = some x ∧ (s.step mode ev).isSome := by
  have hleave := hl.leaves h1
  cases hpc : (s.pump x).pc with
  | returned => exact absurd hpc hne
  | top => exact ⟨.checkContext x, rfl, by simp [step, hpc]⟩
  | got res => exact ⟨.react x, rfl, by simp [step, hpc]⟩
  | acking n intr => exact ⟨.takeAck x, rfl, by simp [step, hpc]⟩
  | writingAck n intr => exact ⟨.write x false, rfl, by simp [step, hpc]⟩
  | writing n intr => exact ⟨.write x false, rfl, by simp [step, hpc]⟩
  | ending => exact ⟨.checkDeadline x, rfl, by simp [step, hpc]⟩
  | _ => rw [LeavePc, hpc] at hleave; exact hleave.elim

/-- A handler whose loop has returned detaches, and closes its `done`. -/
theorem Seated.detaches (h : Seated mode s) (hpc : (s.pump x).pc = .returned) :
    (∃ ok, (s.own.handler x).phase = .gone ok) ∨
      (s.step mode (.own (.detach x))).isSome ∨ (s.step mode (.own (.close x))).isSome := by
  rcases h.served x (by rw [hpc]; nofun) with hatt | ⟨ok, hcl⟩ | hgone
  · exact .inr (.inl (by simp [Serving.step, permits, hpc, Ownership.step, hatt]))
  · exact .inr (.inr (by simp [Serving.step, permits, Ownership.step, hcl]))
  · exact .inl hgone

/-- With an interrupt in the pipe no region of a `nextOut` call falls asleep. -/
theorem awake_of_intr {e e' : Endpoint} {fired : Bool} (hi : e.out.intr = true)
    (hp : e.perform (.advance fired) = some e') (dst : Nat) (wait : Parked) :
    e'.call ≠ some (.reading dst wait) := by
  simp only [Endpoint.perform, Option.bind_eq_bind, Option.bind_eq_some_iff] at hp
  obtain ⟨call, hcall, ⟨call', rl, out⟩, hadv, heq⟩ := hp
  cases heq
  have hread : ∀ {d : Nat} {st : ReadState}, (∃ result, st = .returned result) →
      some (NextOut.ofRead d st) ≠ some (.reading dst wait) := by
    rintro d st ⟨result, rfl⟩
    cases result with
    | data bs => simp only [NextOut.ofRead]; split <;> simp
    | _ => simp [NextOut.ofRead]
  cases call with
  | entering d => cases hadv; exact hread ⟨_, BufferedPipe.enter_of_intr hi d⟩
  | reading d w => cases hadv; exact hread (BufferedPipe.resume_of_intr hi d _)
  | taken bs => cases hadv; simp
  | returned res => cases hadv

/-- **A kicked owner lets go.** In every run in which a kicked stream poll that wakes up
interrupted has an ack due, or is past its deadline, or has lost its request: `nextOut` returns to
a kicked handler at most once more. Until then its call, whether in progress or still to come,
finds the interrupt and does not sleep; from then on the handler cannot call `nextOut`, has at
each point a step to make, comes nearer to its end by each step, and then detaches. -/
theorem kicked_owner_lets_go {maxReplay : Int} {eager : Bool}
    (h : (machine mode maxReplay eager).Reach AckDueOrOver s) (hk : (s.pump x).kicked = true) :
    (s.pump x).returns ≤ 1 ∧
    ((s.pump x).returns = 0 → (s.own.handler x).Holds .down →
      s.ep.out.intr = true ∨
        ((s.pump x).pc = .inNext ∧ ∃ res, s.ep.call = some (.returned res))) ∧
    ((s.pump x).returns = 0 → (s.pump x).pc = .inNext →
      ∀ fired ep dst wait, s.ep.perform (.advance fired) = some ep →
        ep.call ≠ some (.reading dst wait)) ∧
    ((s.pump x).returns = 1 →
      (∀ dst, s.step mode (.call x dst) = none) ∧
      (∀ ev s', s.step mode ev = some s' → Nearer s s' x ev) ∧
      ((s.pump x).pc ≠ .returned → ∃ ev, ev.loop? = some x ∧ (s.step mode ev).isSome) ∧
      ((s.pump x).pc = .returned → (∃ ok, (s.own.handler x).phase = .gone ok) ∨
        (s.step mode (.own (.detach x))).isSome ∨ (s.step mode (.own (.close x))).isSome)) := by
  have hl := letsGo_reach h x
  have hseat := Seated.reachable h.reachable
  refine ⟨hl.once, hseat.pending x hk, fun h0 hin fired ep dst wait hp => ?_, fun h1 => ?_⟩
  · have hslot := hseat.owner_of_active (y := x) (by rw [hin]; exact ⟨nofun, nofun⟩)
    rcases hseat.pending x hk h0 ((hseat.inv.slots .down x).mp hslot) with hi | ⟨_, res, hres⟩
    · exact awake_of_intr hi hp dst wait
    · rw [(Endpoint.advance_intr hp).2 res hres]
      nofun
  · refine ⟨fun dst => ?_, fun ev s' hs => hl.nearer h1 hs, hl.enabled h1, hseat.detaches⟩
    have hne : (s.pump x).pc ≠ .calling := fun hpc => by
      have hleave := hl.leaves h1
      rw [LeavePc, hpc] at hleave
      exact hleave
    exact if_neg hne

/-- The same poll with an upstream frame to acknowledge: it fails to write the ack. -/
def ackDueRun : List ServeEvent :=
  [.own (.attach 0 .down), .own (.claim 0), .start 0, .checkContext 0, .call 0 8,
    .advance 0 false, .env (.hear 0 [7]), .own (.attach 1 .down), .own (.claim 1), .own (.kick 1),
    .advance 0 false, .receive 0, .react 0, .takeAck 0]

theorem ackDueRun_lets_go :
    (((machine (fun _ => .stream) 0 true).final ackDueRun).pump 0).pc = .writingAck [] true ∧
      ∀ dst, ((machine (fun _ => .stream) 0 true).final ackDueRun).step (fun _ => .stream)
        (.call 0 dst) = none := by
  have hreach : (machine (fun _ => .stream) 0 true).Reach AckDueOrOver
      ((machine (fun _ => .stream) 0 true).final ackDueRun) := Machine.reach_final (by decide)
  have hkicked : (((machine (fun _ => .stream) 0 true).final ackDueRun).pump 0).kicked = true := by
    decide
  obtain ⟨_, _, _, hleaves⟩ := kicked_owner_lets_go hreach hkicked
  exact ⟨by decide, (hleaves (by decide)).1⟩

/-- **The condition is needed.** A kicked poll that wakes up interrupted with no ack due, its
deadline ahead and its request alive goes around its loop and stands before `nextOut` again. -/
theorem nudged_calls_again {maxReplay : Int} {eager : Bool}
    (h : (machine mode maxReplay eager).Reach AckDueOrOver s) (hbad : ¬ AckDueOrOver s (.takeAck x)) :
    ∃ s', (machine mode maxReplay eager).run s
        [.takeAck x, .write x true, .checkDeadline x, .checkContext x] = some s' ∧
      (s'.pump x).pc = .calling ∧ (s'.pump x).returns = 1 := by
  simp only [AckDueOrOver, not_forall, not_or, not_not, Bool.not_eq_true] at hbad
  obtain ⟨h1, hpc, hack, hexp, hctx⟩ := hbad
  have hmode : mode x = .stream := by
    have hleave := (letsGo_reach h x).leaves h1
    rw [LeavePc, hpc] at hleave
    exact hleave rfl
  simp [Machine.run, machine, step, hpc, Reliable.takeAck, hack, goto, setPump, afterWrites, hmode,
    hexp, hctx, h1]

/-- A stream poll parked in `nextOut` is kicked by a second one, has no ack to send, and its next
wait runs into the heartbeat. -/
def parkedAgainRun : List ServeEvent :=
  [.own (.attach 0 .down), .own (.claim 0), .start 0, .checkContext 0, .call 0 8,
    .advance 0 false, .own (.attach 1 .down), .own (.claim 1), .own (.kick 1),
    .advance 0 false, .receive 0, .react 0, .takeAck 0, .write 0 true, .checkDeadline 0,
    .checkContext 0, .call 0 8, .advance 0 false, .advance 0 true, .receive 0]

/-- The kicked poll calls `nextOut` again and hears from it a second time. -/
theorem kicked_stream_parks_again :
    ∃ s, (machine (fun _ => .stream) 0 true).Reachable s ∧
      (s.pump 0).kicked = true ∧ (s.pump 0).returns = 2 :=
  ⟨_, Machine.reachable_final _ parkedAgainRun, by decide, by decide⟩

end Serving

end Pollmux
