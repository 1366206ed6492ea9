import LeasedListener.Proofs.Host.Attendance
import LeasedListener.Proofs.Leadership.Exclusivity
import LeasedListener.Proofs.Leadership.Retention

/-!
# Exclusive dispatch

The coordinators of a fleet contend for the lease, and the parts of every host
stay in step because a leader at work that has been granted the lease lately
keeps it.  So every host with a poller leads, and there is at most one.
-/

namespace LeasedListener

theorem Contest.Invariant.contends {ι : Type} [DecidableEq ι] {C : Cluster ι} {a b : Contest ι}
    (ha : a.Invariant C.lease C.terms Transit.IsFaultless) (hrun : C.Contends a b) :
    b.Invariant C.lease C.terms Transit.IsFaultless := by
  induction hrun with
  | refl => exact ha
  | tail _ hstep ih => exact ih.step C.distinct C.bounded hstep

namespace Fleet

variable {ι : Type} [DecidableEq ι] {C : Cluster ι} {a b : Fleet ι} {i : ι} {m : Member}

theorem attentive_turn {c : Coordinator} {s : Supervisor} (ha : a.Attentive)
    (hm : m.Attends c s) (w : World) : (a.turn i m w).Attentive := by
  intro j other hother
  by_cases hself : j = i
  · subst hself
    rw [members_turn_self, Option.some.injEq] at hother
    rw [← hother]
    exact ⟨c, s, hm⟩
  · rw [members_turn_of_ne hself] at hother
    exact ha j other hother

structure Invariant (C : Cluster ι) (a : Fleet ι) : Prop where
  contest : a.contest.Invariant C.lease C.terms Transit.IsFaultless
  attentive : a.Attentive

omit [DecidableEq ι] in
theorem Invariant.retains (ha : a.Invariant C) (hpunctual : a.IsPunctual) {c c' : Coordinator}
    {s : Supervisor} {transit : Transit} {w : World} {calls : List CallRecord}
    (hpresent : a.members i = some m) (hm : m.Attends c s)
    (hpoll : c.poll (World.witnessed C.lease transit) (a.world, m.calls) = some (c', w, calls))
    (hrunning : m.stage.contest = .running) (hheld : c.hasLease) : c'.hasLease := by
  have hcontestant : m.contestant? = some ⟨c, m.stage.contest, m.calls⟩ :=
    Member.contestant?_eq_some hm.mode
  have hseated : a.contest.seats i = some ⟨c, m.stage.contest, m.calls⟩ :=
    seats_contest hpresent hcontestant
  have hfaultless : ∀ t, Transit.IsFaultless t → Transit.IsFaultless t := fun _ h => h
  have hfresh : (⟨c, m.stage.contest, m.calls⟩ : Contestant).IsFresh a.world.now :=
    hpunctual i m hpresent _ hcontestant hheld (hm.engaged hrunning)
  exact (ha.contest.sound i _ hseated).retains (ha.contest.steady hfaultless i _ hseated)
    hfaultless hheld hfresh hpoll

theorem Invariant.attentive_of_step (ha : a.Invariant C) (hpunctual : a.IsPunctual)
    (hstep : Step C a b) : b.Attentive := by
  cases hstep with
  | elsewhere | ensure => exact ha.attentive
  | @start i h w calls absent started =>
      obtain ⟨c, poller, events, hcreated, hmode, -⟩ := Host.of_start (C.singleton i) started
      exact attentive_turn ha.attentive (Member.attends_of_start hcreated hmode) w
  | @pollLease i m transit h w calls present admitted polled =>
      obtain ⟨c, s, hm⟩ := ha.attentive i m present
      obtain ⟨c', hpolled, hmode⟩ := Host.of_pollLease hm.mode polled
      refine attentive_turn ha.attentive (hm.coordinated hmode ?_ ?_) w
      · exact Coordinator.isEngaged_poll hpolled
      · exact ha.retains hpunctual present hm hpolled
  | @settle i m h present settled =>
      obtain ⟨c, s, hm⟩ := ha.attentive i m present
      obtain ⟨c', hsettled, hmode⟩ := Host.of_settle hm.mode settled
      refine attentive_turn ha.attentive (hm.coordinated hmode ?_ ?_) a.world
      · rw [Coordinator.timer_settle hsettled]
      · intro _ hheld
        rw [Coordinator.hasLease, (Coordinator.quiet_settle hsettled).status]
        exact hheld
  | @supervise i m h w calls present supervised =>
      obtain ⟨c, s, hm⟩ := ha.attentive i m present
      obtain ⟨s', hadvance, hmode⟩ := Host.of_supervise hm.mode supervised
      exact attentive_turn ha.attentive
        (hm.supervised hmode (Supervisor.turn_of_advance hm.orderly hadvance)) w
  | @pollListener i m transit h w calls present polled =>
      obtain ⟨c, s, hm⟩ := ha.attentive i m present
      obtain ⟨s', hpolled, hmode⟩ := Host.of_pollListener hm.mode polled
      exact attentive_turn ha.attentive (hm.listened hmode hpolled) w
  | @close i m present running =>
      obtain ⟨c, s, hm⟩ := ha.attentive i m present
      have hrunning : m.stage.contest = .running := by
        rw [running]
        rfl
      exact attentive_turn ha.attentive (hm.close hrunning a.world) a.world
  | @proceed i m transit closing closing' h w calls present stage admitted stepped =>
      obtain ⟨c, s, hm⟩ := ha.attentive i m present
      rcases Host.of_closeStep_continues hm.mode stepped with
        ⟨supervised, hended, -, hmode, -, rfl⟩ | ⟨supervised, step, c', step', rfl, -, hmode, rfl⟩
      · have hended : s.result?.isSome := by simp [hended]
        exact attentive_turn ha.attentive
          (Member.attends_of_ended hmode hm.orderly hended (by simp [MemberStage.contest])) w
      · have hended : s.result?.isSome := hm.ended (by simp [stage, MemberStage.contest])
        exact attentive_turn ha.attentive
          (Member.attends_of_ended hmode hm.orderly hended (by simp [MemberStage.contest])) w
  | @leave i m transit closing h w calls result present stage admitted stepped =>
      obtain ⟨c, s, hm⟩ := ha.attentive i m present
      obtain ⟨supervised, step, _, c', released, rfl, -, hmode, -⟩ :=
        Host.of_closeStep_ended hm.mode stepped
      have hended : s.result?.isSome := hm.ended (by simp [stage, MemberStage.contest])
      exact attentive_turn ha.attentive
        (Member.attends_of_ended hmode hm.orderly hended (by simp [MemberStage.contest])) w

theorem Invariant.step (ha : a.Invariant C) (hpunctual : a.IsPunctual) (hstep : Step C a b) :
    b.Invariant C where
  contest := ha.contest.contends (contends_of_step ha.attentive hstep)
  attentive := ha.attentive_of_step hpunctual hstep

theorem Reachable.invariant (h : Reachable C a) : a.Invariant C ∧ a.IsPunctual := by
  induction h with
  | @start w unleased =>
      have hcontest : Contest.Reachable C.lease C.terms Transit.IsFaultless
          (contest ⟨w, fun _ : ι => none⟩) := .start unleased
      refine ⟨⟨hcontest.invariant C.distinct C.bounded, ?_⟩, ?_⟩
      · intro i m hpresent
        simp at hpresent
      · intro i m hpresent
        simp at hpresent
  | step _ hstep hpunctual ih => exact ⟨ih.1.step ih.2 hstep, hpunctual⟩

def Dispatches (a : Fleet ι) (i : ι) : Prop :=
  ∃ m, a.members i = some m ∧ m.dispatcher?.isSome

def Executes (a : Fleet ι) (i : ι) : Prop := ∃ m, a.members i = some m ∧ m.IsExecuting

omit [DecidableEq ι] in
theorem Executes.dispatches (h : a.Executes i) : a.Dispatches i := by
  obtain ⟨m, hpresent, timer, claim, renewal, execution, htimer, hphase⟩ := h
  refine ⟨m, hpresent, ?_⟩
  have hrunning : timer.isRunning = true := by
    unfold Timer.phase? at hphase
    split at hphase
    · next hloop => simp [Timer.isRunning, hloop]
    · simp at hphase
  simp [Member.dispatcher?, htimer, hrunning]

omit [DecidableEq ι] in
theorem Invariant.leadsFreshly (ha : a.Invariant C) (hpunctual : a.IsPunctual)
    (hdispatches : a.Dispatches i) : a.contest.LeadsFreshly i := by
  obtain ⟨m, hpresent, hdispatcher⟩ := hdispatches
  obtain ⟨c, s, hm⟩ := ha.attentive i m hpresent
  have hgoing : s.listener.timer?.isSome := by
    obtain ⟨timer, htimer⟩ := Option.isSome_iff_exists.mp hdispatcher
    have hlistener : m.host.listener.timer? = some timer := (Option.filter_eq_some_iff.mp htimer).1
    simp only [Host.listener, hm.mode] at hlistener
    simp [hlistener]
  have hcontestant : m.contestant? = some ⟨c, m.stage.contest, m.calls⟩ :=
    Member.contestant?_eq_some hm.mode
  have hheld : c.hasLease := hm.held hgoing
  exact ⟨_, seats_contest hpresent hcontestant, hheld,
    hpunctual i m hpresent _ hcontestant hheld (hm.engaged (hm.running hgoing))⟩

/-- At most one host at a time has a poller task that can run a step, so the
user function never runs on two hosts at once. -/
theorem dispatch_exclusive (h : Reachable C a) :
    (∀ i j, a.Dispatches i → a.Dispatches j → i = j) ∧
      ∀ i j, a.Executes i → a.Executes j → i = j := by
  obtain ⟨ha, hpunctual⟩ := h.invariant
  have hunique : ∀ i j, a.Dispatches i → a.Dispatches j → i = j := by
    intro i j hi hj
    exact ha.contest.leadsFreshly_unique C.distinct (ha.leadsFreshly hpunctual hi)
      (ha.leadsFreshly hpunctual hj)
  refine ⟨hunique, ?_⟩
  intro i j hi hj
  exact hunique i j hi.dispatches hj.dispatches

def enter (C : Cluster ι) (i : ι) (a : Fleet ι) : Fleet ι :=
  match Host.start (C.configs i) C.lease C.queue (C.poisons i) (a.world, []) with
  | (.ok h, w, calls) => a.turn i ⟨h, .running, calls⟩ w
  | _ => a

def advance (C : Cluster ι) (i : ι) (a : Fleet ι) : Fleet ι :=
  match a.members i with
  | none => a
  | some m =>
      match m.host.advance (C.access i (.direct a.world.now)) (a.world, m.calls) with
      | none => a
      | some (h, w, calls) => a.turn i ⟨h, m.stage, calls⟩ w

theorem Reachable.enter (h : Reachable C a) (habsent : a.members i = none)
    (hpunctual : (a.enter C i).IsPunctual) : Reachable C (a.enter C i) := by
  unfold Fleet.enter at hpunctual ⊢
  split
  · next host w calls hstarted =>
      rw [hstarted] at hpunctual
      exact h.step (.start habsent hstarted) hpunctual
  · exact h

theorem Reachable.advance (h : Reachable C a) (hpunctual : (a.advance C i).IsPunctual) :
    Reachable C (a.advance C i) := by
  unfold Fleet.advance at hpunctual ⊢
  split
  · exact h
  · next m hpresent =>
      simp only [hpresent] at hpunctual
      split
      · exact h
      · next host w calls hadvance =>
          rw [hadvance] at hpunctual
          have hfaultless : Transit.IsFaultless (.direct a.world.now) := rfl
          refine h.step ?_ hpunctual
          rcases Host.advance_eq_some hadvance with
            ⟨hsettled, henv⟩ | hpolled | hsupervised | hpolled
          · obtain ⟨rfl, rfl⟩ := Prod.mk.inj henv
            exact .settle hpresent hsettled
          · exact .pollLease hpresent hfaultless hpolled
          · exact .supervise hpresent hsupervised
          · exact .pollListener hpresent hpolled

/-- Two hosts with the standard configuration. -/
def duo : Cluster Bool where
  lease := "lock"
  queue := "jobs"
  names second := if second then "second" else "first"
  poisons _ := none
  configs second := .standard (.timeOrdered second.toNat)
  singleton _ := rfl
  distinct := Contest.rivals_distinct
  bounded := by decide

def gathered : Fleet Bool := (enter duo false ⟨Contest.freeLock, fun _ => none⟩).enter duo true

/-- The first host has won the lease. -/
def headed : Fleet Bool := (gathered.advance duo false).advance duo false

/-- The poller of the first host has started a tick. -/
def dispatching : Fleet Bool := (headed.advance duo false).advance duo false

theorem reachable_dispatching : Reachable duo dispatching := by
  have hvacant : Reachable duo ⟨Contest.freeLock, fun _ => none⟩ :=
    .start (by intro active; simp [Contest.freeLock, LeaseContainer.get, Table.get?, duo])
  have hgathered : Reachable duo gathered :=
    (hvacant.enter rfl (isPunctual_of_all (by decide))).enter rfl (isPunctual_of_all (by decide))
  have hheaded : Reachable duo headed :=
    (hgathered.advance (isPunctual_of_all (by decide))).advance (isPunctual_of_all (by decide))
  exact (hheaded.advance (isPunctual_of_all (by decide))).advance (isPunctual_of_all (by decide))

theorem dispatch_exclusive_duo :
    dispatching.Dispatches false ∧ ∀ i, dispatching.Dispatches i → i = false := by
  have hfirst : dispatching.Dispatches false := ⟨_, rfl, rfl⟩
  refine ⟨hfirst, ?_⟩
  intro i hi
  exact (dispatch_exclusive reachable_dispatching).1 i false hi hfirst

end Fleet

end LeasedListener
