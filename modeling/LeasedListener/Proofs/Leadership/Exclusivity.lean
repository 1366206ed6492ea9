import LeasedListener.Proofs.Leadership.Faultless

/-!
# Exclusive leadership

A leader whose last grant is younger than the lease is the one that the lease
object reports, so there are never two such leaders.  Where no call fails
without need, every leader that keeps calling in time is one.
-/

namespace LeasedListener

namespace Contest

variable {lease : String} {ι : Type} {configs : ι → LeaseConfig} {admits : Transit → Prop}
  {a b : Contest ι}

structure Invariant (lease : String) (configs : ι → LeaseConfig) (admits : Transit → Prop)
    (a : Contest ι) : Prop where
  sound : ∀ i s, a.seats i = some s →
    s.Sound lease (configs i) admits a.world.now (a.world.container.get lease)
  lends : ∀ i, (configs i).Lends (a.world.container.get lease)
  steady : (∀ t, admits t → Transit.IsFaultless t) → ∀ i s, a.seats i = some s →
    s.Steady (a.world.container.get lease)

theorem Invariant.ensured (ha : a.Invariant lease configs admits)
    (hbounded : ∀ i, (configs i).leaseDuration ≤ thirtyYears) (transit : Transit) :
    ({ a with world := (a.world.callLease lease .ensure transit).1 } : Contest ι).Invariant lease
      configs admits := by
  have hrun := World.callLease_fst a.world lease .ensure transit
  have hlends : ∀ i, (configs i).Lends
      ((a.world.callLease lease .ensure transit).1.container.get lease) := by
    intro i
    rcases hrun with hnone | hrun
    · rw [hnone]
      exact ha.lends i
    · rw [hrun]
      have hmakes : (configs i).Makes .ensure := trivial
      exact LeaseConfig.lends_run hmakes (fun _ => rfl) (ha.lends i)
  constructor
  case lends => exact hlends
  case sound =>
      intro i s hseated
      exact (ha.sound i s hseated).called (hbounded i) hrun (by simp) (hlends i)
  case steady =>
      intro hfaultless i s hseated
      have htouches : (configs i).Touches lease a.world.now (a.world.container.get lease)
          ((a.world.callLease lease .ensure transit).1.container.get lease) :=
        hrun.imp_right fun hrun => ⟨.ensure, trivial, hrun⟩
      exact (ha.steady hfaultless i s hseated).touched htouches

def Leads (a : Contest ι) (i : ι) : Prop := ∃ s, a.seats i = some s ∧ s.hasLease

def LeadsFreshly (a : Contest ι) (i : ι) : Prop :=
  ∃ s, a.seats i = some s ∧ s.hasLease ∧ s.IsFresh a.world.now

def IsPunctual (a : Contest ι) : Prop :=
  ∀ i s, a.seats i = some s → s.hasLease → s.IsPunctual a.world.now

theorem Invariant.holder?_of_leadsFreshly (ha : a.Invariant lease configs admits) {i : ι}
    (hleads : a.LeadsFreshly i) :
    a.world.container.holder? lease a.world.now = some (configs i).holder := by
  obtain ⟨s, hseated, hheld, granted, hgranted, hyoung⟩ := hleads
  have hs := ha.sound i s hseated
  rw [hs.configured] at hyoung
  obtain ⟨active, hobject, hmine, hlong⟩ := hs.backed hheld granted hgranted hyoung
  have hlive : active.isExpired a.world.now = false := by
    simp only [ActiveLease.isExpired, decide_eq_false_iff_not]
    omega
  simp [LeaseContainer.holder?, hobject, LeaseObject.holder?, hlive, hmine]

theorem Invariant.leadsFreshly_unique (ha : a.Invariant lease configs admits)
    (hdistinct : Function.Injective fun i => (configs i).holder) {i j : ι}
    (hi : a.LeadsFreshly i) (hj : a.LeadsFreshly j) : i = j := by
  have hreported := ha.holder?_of_leadsFreshly hi
  rw [ha.holder?_of_leadsFreshly hj, Option.some.injEq] at hreported
  exact (hdistinct hreported).symm

theorem Invariant.leadsFreshly_of_punctual (ha : a.Invariant lease configs admits)
    (hfaultless : ∀ t, admits t → Transit.IsFaultless t) (hpunctual : a.IsPunctual) {i : ι}
    (hleads : a.Leads i) : a.LeadsFreshly i := by
  obtain ⟨s, hseated, hheld⟩ := hleads
  have hs := ha.steady hfaultless i s hseated
  exact ⟨s, hseated, hheld, hs.isFresh hheld (hpunctual i s hseated hheld)⟩

variable [DecidableEq ι]

theorem Invariant.turn (ha : a.Invariant lease configs admits)
    (hdistinct : Function.Injective fun i => (configs i).holder)
    (hbounded : ∀ i, (configs i).leaseDuration ≤ thirtyYears)
    {i : ι} {s : Contestant} {w : World} (hnow : w.now = a.world.now)
    (htouches : (configs i).Touches lease a.world.now (a.world.container.get lease)
      (w.container.get lease))
    (hsound : (configs i).Lends (w.container.get lease) →
      s.Sound lease (configs i) admits w.now (w.container.get lease))
    (hsteady : (∀ t, admits t → Transit.IsFaultless t) → s.Steady (w.container.get lease)) :
    ({ a with world := w }.seat i s).Invariant lease configs admits := by
  have hlends : ∀ j, (configs j).Lends (w.container.get lease) := by
    intro j
    rcases htouches with hsame | ⟨call, hmakes, hrun⟩
    · rw [hsame]
      exact ha.lends j
    · rw [hrun]
      exact LeaseConfig.lends_run hmakes (fun hholder => congrArg configs (hdistinct hholder))
        (ha.lends j)
  constructor
  case lends => exact hlends
  case sound =>
      intro j other hother
      by_cases hself : j = i
      · subst hself
        rw [seats_seat_self, Option.some.injEq] at hother
        rw [← hother]
        exact hsound (hlends j)
      · rw [seats_seat_of_ne hself] at hother
        have hforeign : (configs j).holder ≠ (configs i).holder := fun h => hself (hdistinct h)
        have hbefore := ha.sound j other hother
        rw [world_seat, hnow]
        exact hbefore.touched (hbounded j) hforeign htouches (hlends j)
  case steady =>
      intro hfaultless j other hother
      by_cases hself : j = i
      · subst hself
        rw [seats_seat_self, Option.some.injEq] at hother
        rw [← hother]
        exact hsteady hfaultless
      · rw [seats_seat_of_ne hself] at hother
        exact (ha.steady hfaultless j other hother).touched htouches

theorem Invariant.quiet (ha : a.Invariant lease configs admits)
    (hdistinct : Function.Injective fun i => (configs i).holder)
    (hbounded : ∀ i, (configs i).leaseDuration ≤ thirtyYears)
    {i : ι} {s : Contestant} {c : Coordinator} {stage : ContestStage}
    (hseated : a.seats i = some s) (hquiet : s.coordinator.Quiet c)
    (hreleasing : ∀ held sent stopped, stage = .closing (.releasing held sent stopped) →
      c.timer.loop = none ∧ held = (configs i).holder) :
    (a.seat i ⟨c, stage, s.calls⟩).Invariant lease configs admits := by
  refine ha.turn hdistinct hbounded rfl (.inl rfl) ?_ ?_
  · intro _
    exact (ha.sound i s hseated).quiet hquiet hreleasing
  · intro hfaultless
    exact (ha.steady hfaultless i s hseated).quiet hquiet

theorem Invariant.step (ha : a.Invariant lease configs admits)
    (hdistinct : Function.Injective fun i => (configs i).holder)
    (hbounded : ∀ i, (configs i).leaseDuration ≤ thirtyYears)
    (hstep : Step lease configs admits a b) : b.Invariant lease configs admits := by
  cases hstep with
  | @elsewhere w later kept =>
      constructor
      case sound =>
          intro i s hseated
          rw [kept]
          exact (ha.sound i s hseated).wait later
      case lends =>
          rw [kept]
          exact ha.lends
      case steady =>
          rw [kept]
          exact ha.steady
  | @ensure transit admitted =>
      exact ha.ensured hbounded transit
  | @join i c absent created =>
      refine ha.turn hdistinct hbounded rfl (.inl rfl) ?_ ?_
      · intro _
        exact Contestant.sound_create created
      · intro _
        exact Contestant.steady_create created
  | @start i s seated running =>
      refine ha.quiet hdistinct hbounded seated s.coordinator.quiet_start ?_
      rw [running]
      simp
  | @rouse i s seated =>
      refine ha.quiet hdistinct hbounded seated s.coordinator.quiet_rouse ?_
      intro held sent stopped hclosing
      obtain ⟨hloop, hmine⟩ := (ha.sound i s seated).releasing held sent stopped hclosing
      exact ⟨by rw [Timer.rouse, hloop]; rfl, hmine⟩
  | @poll i s transit c w calls seated admitted polled =>
      have hs := ha.sound i s seated
      obtain ⟨hnow, htouches⟩ := hs.touches_polled polled
      refine ha.turn hdistinct hbounded hnow htouches ?_ ?_
      · intro hlends
        exact hs.polled (hbounded i) admitted polled hlends
      · intro hfaultless
        exact (ha.steady hfaultless i s seated).polled hfaultless hs polled
  | @settle i s c seated settled =>
      refine ha.quiet hdistinct hbounded seated (Coordinator.quiet_settle settled) ?_
      intro held sent stopped hclosing
      rw [Coordinator.timer_settle settled]
      exact (ha.sound i s seated).releasing held sent stopped hclosing
  | @close i s seated running =>
      exact ha.quiet hdistinct hbounded seated (s.coordinator.quiet_close a.world)
        (by simp [Coordinator.close])
  | @release i s closing closing' transit c w calls seated stage admitted stepped =>
      obtain ⟨hworld, hs⟩ := (ha.sound i s seated).continued stepped
      refine ha.turn hdistinct hbounded hworld.now (.inl (by rw [hworld.container])) ?_ ?_
      · intro _
        rw [hworld.now, hworld.container]
        exact hs
      · intro hfaultless
        rw [hworld.container]
        exact (ha.steady hfaultless i s seated).continued stepped
  | @leave i s closing transit c w calls result seated stage admitted stepped =>
      obtain ⟨hnow, htouches, hs⟩ := (ha.sound i s seated).left stage stepped
      refine ha.turn hdistinct hbounded hnow htouches (fun _ => hs) ?_
      intro hfaultless
      exact ((ha.steady hfaultless i s seated).touched htouches).left stepped

theorem Reachable.invariant (hdistinct : Function.Injective fun i => (configs i).holder)
    (hbounded : ∀ i, (configs i).leaseDuration ≤ thirtyYears)
    (h : Reachable lease configs admits a) : a.Invariant lease configs admits := by
  induction h with
  | start unleased =>
      constructor
      case sound => simp
      case lends =>
          intro i active hactive
          exact absurd hactive (unleased active)
      case steady => simp
  | step _ hstep ih => exact ih.step hdistinct hbounded hstep

/-- Whatever fails, the lease object reports the leader that was granted the
lease less than its length ago, and there is at most one; without faults there
is at most one leader at all, as long as every leader is answered in time. -/
theorem lease_exclusive (lease : String) (configs : ι → LeaseConfig)
    (hdistinct : Function.Injective fun i => (configs i).holder)
    (hbounded : ∀ i, (configs i).leaseDuration ≤ thirtyYears) :
    (∀ a, Reachable lease configs (fun _ => True) a →
      (∀ i, a.LeadsFreshly i →
        a.world.container.holder? lease a.world.now = some (configs i).holder) ∧
      ∀ i j, a.LeadsFreshly i → a.LeadsFreshly j → i = j) ∧
    ∀ a, Reachable lease configs Transit.IsFaultless a → a.IsPunctual →
      ∀ i j, a.Leads i → a.Leads j → i = j := by
  constructor
  · intro a hreachable
    have ha : a.Invariant lease configs fun _ => True := hreachable.invariant hdistinct hbounded
    constructor
    · intro i hleads
      exact ha.holder?_of_leadsFreshly hleads
    · intro i j hi hj
      exact ha.leadsFreshly_unique hdistinct hi hj
  · intro a hreachable hpunctual i j hi hj
    have ha : a.Invariant lease configs Transit.IsFaultless :=
      hreachable.invariant hdistinct hbounded
    have hfaultless : ∀ t, Transit.IsFaultless t → Transit.IsFaultless t := fun _ h => h
    exact ha.leadsFreshly_unique hdistinct (ha.leadsFreshly_of_punctual hfaultless hpunctual hi)
      (ha.leadsFreshly_of_punctual hfaultless hpunctual hj)

def rivals (second : Bool) : LeaseConfig := .standard (.timeOrdered second.toNat)

theorem rivals_distinct : Function.Injective fun i => (rivals i).holder := by
  intro first second
  cases first <;> cases second <;> decide

def challenger : Coordinator where
  config := rivals false
  timer := .create "lease:lock" (.create "lock" (rivals false))
  status := {}
  lease := "lock"
  owned := true
  orphan := false

theorem create_challenger : Coordinator.create "lock" (rivals false) = .ok challenger := by
  have hvalid : (rivals false).validate = .ok () := LeaseConfig.validate_standard _
  rw [Coordinator.create, hvalid]
  rfl

def freeLock : World := { World.initial with container := ⟨⟨[("lock", .free)]⟩⟩ }

/-- The first rival has been started. -/
def challenged : Contest Bool :=
  (Contest.seat ⟨freeLock, fun _ => none⟩ false ⟨challenger, .running, []⟩).seat false
    ⟨challenger.start.1, .running, []⟩

/-- The first rival has asked for the lease and won it. -/
def won : Contest Bool :=
  (challenged.advance "lock" (.direct 0) false).advance "lock" (.direct 0) false

theorem reachable_won {admits : Transit → Prop} (hadmits : admits (.direct 0)) :
    Reachable "lock" rivals admits won := by
  have hempty : Reachable "lock" rivals admits ⟨freeLock, fun _ => none⟩ :=
    .start (by intro active; simp [freeLock, LeaseContainer.get, Table.get?])
  have hchallenged : Reachable "lock" rivals admits challenged :=
    (hempty.step (.join rfl create_challenger)).step (.start (seats_seat_self ..) rfl)
  exact (hchallenged.advance hadmits false).advance hadmits false

theorem isPunctual_won : won.IsPunctual := by
  intro i s hseated hheld
  cases i with
  | true => exact absurd hseated (by simp [show won.seats true = none from rfl])
  | false =>
      obtain rfl := Option.some.inj hseated
      exact ⟨_, rfl, by decide⟩

theorem lease_exclusive_won :
    (Function.Injective fun i => (rivals i).holder) ∧
      (∀ i, (rivals i).leaseDuration ≤ thirtyYears) ∧
      won.LeadsFreshly false ∧
      won.world.container.holder? "lock" won.world.now = some (rivals false).holder ∧
      ∀ i, won.Leads i → i = false := by
  have hbounded : ∀ i, (rivals i).leaseDuration ≤ thirtyYears := by decide
  have hleads : won.LeadsFreshly false := ⟨_, rfl, rfl, 0, rfl, by decide⟩
  obtain ⟨hfaulty, hfaultless⟩ := lease_exclusive "lock" rivals rivals_distinct hbounded
  refine ⟨rivals_distinct, hbounded, hleads, ?_, ?_⟩
  · exact (hfaulty won (reachable_won trivial)).1 false hleads
  · intro i hi
    exact hfaultless won (reachable_won rfl) isPunctual_won i false hi ⟨_, rfl, rfl⟩

end Contest

end LeasedListener
