import LeasedListener.Proofs.Leadership.Backing

/-!
# Leaders under a faultless service

Where the service fails no call that it need not fail, an object that is held
never goes missing and the latest call of a leader has granted the lease.  So
a leader that keeps calling in time has a young grant.
-/

namespace LeasedListener

def Transit.IsFaultless (t : Transit) : Prop := t.fault = none

namespace Contestant

/-- What a faultless service grants to a contestant. -/
structure Steady (object : LeaseObject) (s : Contestant) : Prop where
  present : s.hasLease → object ≠ .missing
  renewed : s.hasLease → ∃ latest older, s.calls = latest :: older ∧ latest.grants = true
  plain : ∀ waiting, s.coordinator.timer.phase? = some waiting → waiting.phase.isRepair = false

variable {admits : Transit → Prop} {lease : String} {config other : LeaseConfig} {now : Nat}
  {object after : LeaseObject} {s : Contestant} {w w' : World} {transit : Transit} {c : Coordinator}
  {calls' : List CallRecord}

theorem steady_create (hcreated : Coordinator.create lease config = .ok c) :
    (⟨c, .running, []⟩ : Contestant).Steady object := by
  obtain ⟨-, -, hstatus, name, htimer⟩ := Coordinator.create_eq_ok hcreated
  constructor
  case present => simp [hasLease, Coordinator.hasLease, hstatus, Status.isHeld]
  case renewed => simp [hasLease, Coordinator.hasLease, hstatus, Status.isHeld]
  case plain => simp [htimer, Timer.create, Timer.phase?]

theorem Steady.touched (hs : s.Steady object) (htouches : other.Touches lease now object after) :
    s.Steady after where
  present := by
    intro hheld
    rcases htouches with hsame | ⟨call, -, hrun⟩
    · rw [hsame]
      exact hs.present hheld
    · rw [hrun]
      exact LeaseCall.run_ne_missing (hs.present hheld) call
  renewed := hs.renewed
  plain := hs.plain

theorem Steady.replace (hs : s.Steady object) {stage : ContestStage}
    (hstatus : c.status = s.coordinator.status)
    (hphase : ∀ waiting, c.timer.phase? = some waiting → waiting.phase.isRepair = false) :
    (⟨c, stage, s.calls⟩ : Contestant).Steady object where
  present := by
    intro hheld
    apply hs.present
    simpa [hasLease, Coordinator.hasLease, hstatus] using hheld
  renewed := by
    intro hheld
    apply hs.renewed
    simpa [hasLease, Coordinator.hasLease, hstatus] using hheld
  plain := hphase

theorem Steady.quiet (hs : s.Steady object) {stage : ContestStage}
    (hquiet : s.coordinator.Quiet c) : (⟨c, stage, s.calls⟩ : Contestant).Steady object := by
  refine hs.replace hquiet.status ?_
  intro waiting hwaiting
  exact hs.plain waiting (hquiet.phase waiting hwaiting)

theorem Steady.polled (hs : s.Steady (w.container.get lease))
    (hfaultless : ∀ t, admits t → Transit.IsFaultless t)
    (hsound : s.Sound lease config admits w.now (w.container.get lease))
    (hpoll : s.coordinator.poll (World.witnessed lease transit) (w, s.calls) =
      some (c, w', calls')) :
    (⟨c, s.stage, calls'⟩ : Contestant).Steady (w'.container.get lease) := by
  cases Coordinator.turn_of_poll hpoll with
  | rest hquiet henv =>
      obtain ⟨rfl, rfl⟩ := Prod.mk.inj henv
      exact hs.quiet hquiet
  | ask _ hphase hstatus henv =>
      obtain ⟨rfl, rfl⟩ := Prod.mk.inj henv
      refine hs.replace hstatus ?_
      intro waiting hwaiting
      rw [hphase, Option.some.injEq] at hwaiting
      rw [← hwaiting]
      unfold Contender.firstPhase
      cases s.coordinator.status.held <;> rfl
  | hear contender waiting hcontender hwaiting _ hphase hstatus hcalls hworld =>
      obtain ⟨-, hreply⟩ := World.callLease_of_faultless
        (hfaultless _ (hsound.admitted waiting hwaiting)) w lease (contender.call waiting.phase)
      have hfits : waiting.phase.lease? = s.coordinator.status.held := hsound.fits waiting hwaiting
      have hconflict : waiting.phase.lease?.isSome → ∀ error,
          (w.callLease lease (contender.call waiting.phase) waiting.transit).2 = .error error →
            error.errorClass = .conflict := by
        intro hheld error herror
        rw [hfits] at hheld
        rw [hreply] at herror
        exact LeaseCall.errorClass_of_run (hs.present hheld) herror
      obtain ⟨hgrants, hplain⟩ :
          ((Coordinator.heard lease w contender s.coordinator.status waiting).status.held = none ∨
            (contender.recordOf w.now waiting.phase
              (w.callLease lease (contender.call waiting.phase) waiting.transit).2).grants = true) ∧
          ∀ next, (Coordinator.heard lease w contender s.coordinator.status waiting).move.phase? =
            some next → next.isRepair = false :=
        Contender.answer_of_conflicts hfits (hs.plain waiting hwaiting) hconflict
      have hgranted : c.status.isHeld = true → (contender.recordOf w.now waiting.phase
          (w.callLease lease (contender.call waiting.phase) waiting.transit).2).grants = true := by
        intro hheld
        rw [hstatus] at hheld
        rcases hgrants with hnone | hgrants
        · rw [Status.isHeld, hnone] at hheld
          simp at hheld
        · exact hgrants
      constructor
      case present =>
          intro hheld
          obtain ⟨answer, granted, hanswer, hlease⟩ :=
            Contender.granted_of_recordOf_grants (hgranted hheld)
          obtain ⟨-, duration, hleased⟩ :=
            hsound.leased_of_granted hcontender hwaiting hanswer hlease
          rw [hworld.container, hleased]
          simp
      case renewed =>
          intro hheld
          exact ⟨_, s.calls, hcalls, hgranted hheld⟩
      case plain =>
          intro next hnext
          rw [hphase, Option.map_eq_some_iff] at hnext
          obtain ⟨phase, hmove, hnext⟩ := hnext
          rw [← hnext]
          exact hplain phase hmove

theorem Steady.continued (hs : s.Steady object) {closing closing' : Closing}
    (hstep : s.coordinator.closeStep (World.witnessed lease transit) (w, s.calls) closing =
      some (.continues ((w', calls'), c) closing')) :
    (⟨c, .closing closing', calls'⟩ : Contestant).Steady object := by
  cases closing with
  | stopping wait =>
      obtain ⟨c₁, env₁, hhalted, ⟨held, stopped, -, hshutdown⟩ | ⟨_, _, hshutdown⟩⟩ :=
        Coordinator.closeStep_of_stopping hstep
      · obtain ⟨henv, -⟩ := Progress.continues.inj hshutdown
        obtain ⟨rfl, rfl⟩ := Prod.mk.inj henv
        have hcalls : calls' = s.calls := hhalted.calls
        rw [hcalls]
        exact hs.quiet hhalted.quiet
      · simp at hshutdown
  | releasing held sent stopped =>
      obtain ⟨_, _, hshutdown, _⟩ := Coordinator.closeStep_of_releasing hstep
      simp at hshutdown

theorem Steady.left (hs : s.Steady object) {closing : Closing}
    {result : Except TimerError Unit}
    (hstep : s.coordinator.closeStep (World.witnessed lease transit) (w, s.calls) closing =
      some (.ended ((w', calls'), c) result)) :
    (⟨c, .closed, calls'⟩ : Contestant).Steady object := by
  cases closing with
  | stopping wait =>
      obtain ⟨c₁, env₁, hhalted, ⟨_, _, _, hshutdown⟩ | ⟨stopped, -, hshutdown⟩⟩ :=
        Coordinator.closeStep_of_stopping hstep
      · simp at hshutdown
      · obtain ⟨henv, -⟩ := Progress.ended.inj hshutdown
        obtain ⟨rfl, rfl⟩ := Prod.mk.inj henv
        have hcalls : calls' = s.calls := hhalted.calls
        rw [hcalls]
        exact hs.quiet hhalted.quiet
  | releasing held sent stopped =>
      obtain ⟨c₁, env₁, hshutdown, hunheld, htimer, -, -, -⟩ :=
        Coordinator.closeStep_of_releasing hstep
      obtain ⟨henv, -⟩ := Progress.ended.inj hshutdown
      obtain ⟨rfl, rfl⟩ := Prod.mk.inj henv
      constructor
      case present => simp [hasLease, Coordinator.hasLease, Status.isHeld, hunheld]
      case renewed => simp [hasLease, Coordinator.hasLease, Status.isHeld, hunheld]
      case plain =>
          rw [htimer]
          exact hs.plain

theorem Steady.isFresh (hs : s.Steady object) (hheld : s.hasLease)
    (hpunctual : s.IsPunctual now) : s.IsFresh now := by
  obtain ⟨latest, older, hcalls, hgrants⟩ := hs.renewed hheld
  obtain ⟨head, hhead, hyoung⟩ := hpunctual
  rw [hcalls, List.head?_cons, Option.some.injEq] at hhead
  refine ⟨latest.time, ?_, ?_⟩
  · rw [hcalls]
    exact lastGrant_cons_of_grants hgrants older
  · rw [hhead]
    exact hyoung

end Contestant

end LeasedListener
