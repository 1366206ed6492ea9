import LeasedListener.Proofs.Leadership.Contest
import LeasedListener.Proofs.Lease.Config

/-!
# Backing of a leader by the lease object

While the last grant to a holder is younger than the lease, the object
carries a lease of this holder that has not run out.  Every transition of a
contestant keeps this up, its own by what the answers mean, those of others
because a lease withstands the calls of everybody but its holder.
-/

namespace LeasedListener

/-- A young grant is backed by the object. -/
def LeaseConfig.Backed (config : LeaseConfig) (now : Nat) (object : LeaseObject)
    (calls : List CallRecord) : Prop :=
  ∀ granted, lastGrant calls = some granted → now < granted + config.leaseDuration.nanos →
    ∃ active, object = .leased active ∧ active.holder = config.holder ∧
      granted + config.leaseDuration.nanos ≤ active.expiresAt

/-- A lease that belongs to the holder of a configuration has its length. -/
def LeaseConfig.Lends (config : LeaseConfig) (object : LeaseObject) : Prop :=
  ∀ active, object = .leased active → active.holder = config.holder →
    active.duration = config.leaseDuration

def LeaseConfig.Makes (config : LeaseConfig) : LeaseCall → Prop
  | .acquire duration holder => duration = config.leaseDuration ∧ holder = config.holder
  | .renew holder | .release holder => holder = config.holder
  | .ensure => True

/-- An object is left alone, or called by a contender of a configuration. -/
def LeaseConfig.Touches (config : LeaseConfig) (lease : String) (now : Nat)
    (object after : LeaseObject) : Prop :=
  after = object ∨ ∃ call, config.Makes call ∧ after = (call.run lease now object).1

variable {lease : String} {config : LeaseConfig} {now : Nat} {object : LeaseObject}
  {calls : List CallRecord} {call : LeaseCall}

namespace LeaseConfig

theorem lends_run {other : LeaseConfig} (hmakes : other.Makes call)
    (hdistinct : config.holder = other.holder → config = other) (hlends : config.Lends object) :
    config.Lends (call.run lease now object).1 := by
  intro active hactive hmine
  rcases LeaseCall.run_leased hactive with
    hbefore | ⟨duration, holder, hcall, hgrant⟩ | ⟨old, hold, -, hgrant⟩
  · exact hlends active hbefore hmine
  · subst hcall hgrant
    obtain ⟨hduration, hholder⟩ := hmakes
    have hsame : config = other := hdistinct (hmine.symm.trans hholder)
    rw [hsame]
    exact hduration
  · subst hgrant
    exact hlends old hold hmine

theorem le_expiresAt_grant {duration : Duration} {holder : Identifier}
    (hbounded : config.leaseDuration ≤ thirtyYears)
    (hduration : (ActiveLease.grant now duration holder).duration = config.leaseDuration) :
    now + config.leaseDuration.nanos ≤ (ActiveLease.grant now duration holder).expiresAt := by
  have hduration : duration = config.leaseDuration := hduration
  have hbounded : config.leaseDuration.nanos ≤ thirtyYears.nanos := hbounded
  subst hduration
  simp only [ActiveLease.grant, Instant.windowEnd, Nat.min_eq_left hbounded, Nat.le_refl]

/-- Only the release by its holder ends a lease that backs a young grant. -/
theorem backed_run (hbounded : config.leaseDuration ≤ thirtyYears)
    (hdated : ∀ granted, lastGrant calls = some granted → granted ≤ now)
    (hkeep : ∀ holder, call = .release holder → config.holder ≠ holder)
    (hlends : config.Lends (call.run lease now object).1)
    (hbacked : config.Backed now object calls) :
    config.Backed now (call.run lease now object).1 calls := by
  intro granted hgranted hyoung
  obtain ⟨active, hobject, hmine, hlong⟩ := hbacked granted hgranted hyoung
  have hlive : now < active.expiresAt := by omega
  have hkeep : ∀ holder, call = .release holder → active.holder ≠ holder := by rwa [hmine]
  subst hobject
  obtain ⟨later, hlater, hholder, hcases⟩ :
      ∃ later, (call.run lease now (.leased active)).1 = .leased later ∧
        later.holder = active.holder ∧
        (later = active ∨ ∃ duration, later = .grant now duration active.holder) :=
    LeaseCall.run_of_live hkeep hlive
  refine ⟨later, hlater, hholder.trans hmine, ?_⟩
  rcases hcases with hsame | ⟨duration, hgrant⟩
  · rw [hsame]
    exact hlong
  · have hduration : later.duration = config.leaseDuration :=
      hlends later hlater (hholder.trans hmine)
    have hlonger : now + config.leaseDuration.nanos ≤ later.expiresAt := by
      rw [hgrant] at hduration ⊢
      exact le_expiresAt_grant hbounded hduration
    have := hdated granted hgranted
    omega

end LeaseConfig

namespace Contender

variable {c : Contender} {phase : ContenderPhase}

theorem makes_call (hterms : (create lease config).SameTerms c)
    (hidentity : ∀ held, phase.lease? = some held → held = config.holder) :
    config.Makes (c.call phase) := by
  cases phase with
  | acquiring => exact ⟨hterms.2.2, hterms.2.1⟩
  | creating | recreating held => trivial
  | renewing held => exact hidentity held rfl
  | reclaiming held => exact ⟨hterms.2.2, hidentity held rfl⟩

theorem call_ne_release (c : Contender) (phase : ContenderPhase) (holder : Identifier) :
    c.call phase ≠ .release holder := by
  cases phase <;> simp [call]

theorem run_of_granted (hterms : (create lease config).SameTerms c)
    (hidentity : ∀ held, phase.lease? = some held → held = config.holder)
    {answer : (c.call phase).Reply} {granted : Identifier}
    (hanswer : ((c.call phase).run lease now object).2 = .ok answer)
    (hgranted : c.granted? phase answer = some granted) :
    granted = config.holder ∧ ∃ duration,
      ((c.call phase).run lease now object).1 = .leased (.grant now duration config.holder) := by
  cases phase with
  | acquiring =>
      obtain ⟨hobject, hholder⟩ := LeaseObject.acquire_of_ok hanswer
      have hsame : granted = answer := (Option.some.inj hgranted).symm
      have hmine : c.holder = config.holder := hterms.2.1
      exact ⟨hsame.trans (hholder.trans hmine), c.leaseDuration, by rw [← hmine]; exact hobject⟩
  | creating | recreating held => simp [granted?] at hgranted
  | renewing held =>
      obtain ⟨active, -, -, hobject⟩ := LeaseObject.renew_of_ok hanswer
      have hmine : held = config.holder := hidentity held rfl
      have hsame : granted = held := (Option.some.inj hgranted).symm
      subst hmine
      exact ⟨hsame, _, hobject⟩
  | reclaiming held =>
      obtain ⟨hobject, hholder⟩ := LeaseObject.acquire_of_ok hanswer
      have hsame : granted = answer := (Option.some.inj hgranted).symm
      have hmine : held = config.holder := hidentity held rfl
      subst hmine
      exact ⟨hsame.trans hholder, _, hobject⟩

end Contender

/-- What links a contestant to the object. -/
structure Contestant.Sound (lease : String) (config : LeaseConfig) (admits : Transit → Prop)
    (now : Nat) (object : LeaseObject) (s : Contestant) : Prop where
  configured : s.coordinator.config = config
  terms : ∀ contender, s.coordinator.timer.Has contender →
    (Contender.create lease config).SameTerms contender
  fits : ∀ waiting, s.coordinator.timer.phase? = some waiting →
    waiting.phase.lease? = s.coordinator.status.held
  admitted : ∀ waiting, s.coordinator.timer.phase? = some waiting → admits waiting.transit
  identity : ∀ held, s.coordinator.status.held = some held → held = config.holder
  dated : ∀ granted, lastGrant s.calls = some granted → granted ≤ now
  backed : s.hasLease → config.Backed now object s.calls
  releasing : ∀ held transit stopped, s.stage = .closing (.releasing held transit stopped) →
    s.coordinator.timer.loop = none ∧ held = config.holder

namespace Contestant

variable {admits : Transit → Prop} {s : Contestant} {w w' : World} {transit : Transit}
  {c : Coordinator} {calls' : List CallRecord}

theorem sound_create (hcreated : Coordinator.create lease config = .ok c) :
    (⟨c, .running, []⟩ : Contestant).Sound lease config admits now object := by
  obtain ⟨-, hconfig, hstatus, name, htimer⟩ := Coordinator.create_eq_ok hcreated
  constructor
  case configured => exact hconfig
  case terms =>
      intro contender hhas
      have hsame : Contender.create lease config = contender := by
        simpa [htimer, Timer.Has, Timer.create] using hhas
      rw [hsame]
      exact .refl contender
  case fits => simp [htimer, Timer.create, Timer.phase?]
  case admitted => simp [htimer, Timer.create, Timer.phase?]
  case identity => simp [hstatus]
  case dated => simp
  case backed => simp [hasLease, Coordinator.hasLease, hstatus, Status.isHeld]
  case releasing => simp

theorem Sound.wait {later : Nat} (hs : s.Sound lease config admits now object)
    (hlater : now ≤ later) : s.Sound lease config admits later object where
  configured := hs.configured
  terms := hs.terms
  fits := hs.fits
  admitted := hs.admitted
  identity := hs.identity
  dated := by
    intro granted hgranted
    exact Nat.le_trans (hs.dated granted hgranted) hlater
  backed := by
    intro hheld granted hgranted hyoung
    exact hs.backed hheld granted hgranted (by omega)
  releasing := hs.releasing

theorem Sound.called {after : LeaseObject} (hs : s.Sound lease config admits now object)
    (hbounded : config.leaseDuration ≤ thirtyYears)
    (hafter : after = object ∨ after = (call.run lease now object).1)
    (hkeep : ∀ holder, call = .release holder → config.holder ≠ holder)
    (hlends : config.Lends after) : s.Sound lease config admits now after where
  configured := hs.configured
  terms := hs.terms
  fits := hs.fits
  admitted := hs.admitted
  identity := hs.identity
  dated := hs.dated
  backed := by
    intro hheld
    rcases hafter with hsame | hrun
    · rw [hsame]
      exact hs.backed hheld
    · rw [hrun] at hlends ⊢
      exact LeaseConfig.backed_run hbounded hs.dated hkeep hlends (hs.backed hheld)
  releasing := hs.releasing

theorem Sound.touched {other : LeaseConfig} {after : LeaseObject}
    (hs : s.Sound lease config admits now object) (hbounded : config.leaseDuration ≤ thirtyYears)
    (hother : config.holder ≠ other.holder) (htouches : other.Touches lease now object after)
    (hlends : config.Lends after) : s.Sound lease config admits now after := by
  rcases htouches with hsame | ⟨call, hmakes, hrun⟩
  · rw [hsame]
    exact hs
  · refine hs.called hbounded (.inr hrun) ?_ hlends
    intro holder hrelease
    subst hrelease
    have hholder : holder = other.holder := hmakes
    rw [hholder]
    exact hother

theorem Sound.identity_phase (hs : s.Sound lease config admits now object)
    {waiting : ContenderCall} (hwaiting : s.coordinator.timer.phase? = some waiting) :
    ∀ held, waiting.phase.lease? = some held → held = config.holder := by
  intro held hheld
  exact hs.identity held ((hs.fits waiting hwaiting).symm.trans hheld)

theorem Sound.not_releasing (hs : s.Sound lease config admits now object)
    {access : LeaseAccess (World × List CallRecord)} {env env' : World × List CallRecord}
    (hpoll : s.coordinator.poll access env = some (c, env'))
    (held : Identifier) (sent : Transit) (stopped : Except TimerError Unit) :
    s.stage ≠ .closing (.releasing held sent stopped) := by
  intro hstage
  obtain ⟨loop, _, hloop, _, _⟩ := Coordinator.moves_of_poll hpoll
  rw [(hs.releasing held sent stopped hstage).1] at hloop
  simp at hloop

/-- A change of the coordinator that concerns neither its status nor its
history. -/
theorem Sound.replace (hs : s.Sound lease config admits now object) {stage : ContestStage}
    (hconfig : c.config = s.coordinator.config) (hstatus : c.status = s.coordinator.status)
    (hhas : ∀ contender, c.timer.Has contender → s.coordinator.timer.Has contender)
    (hphase : ∀ waiting, c.timer.phase? = some waiting →
      waiting.phase.lease? = s.coordinator.status.held ∧ admits waiting.transit)
    (hreleasing : ∀ held sent stopped, stage = .closing (.releasing held sent stopped) →
      c.timer.loop = none ∧ held = config.holder) :
    (⟨c, stage, s.calls⟩ : Contestant).Sound lease config admits now object where
  configured := hconfig.trans hs.configured
  terms := by
    intro contender hcontender
    exact hs.terms contender (hhas contender hcontender)
  fits := by
    intro waiting hwaiting
    rw [(hphase waiting hwaiting).1, hstatus]
  admitted := by
    intro waiting hwaiting
    exact (hphase waiting hwaiting).2
  identity := by
    intro held hheld
    rw [hstatus] at hheld
    exact hs.identity held hheld
  dated := hs.dated
  backed := by
    intro hheld
    apply hs.backed
    simpa [hasLease, Coordinator.hasLease, hstatus] using hheld
  releasing := hreleasing

theorem Sound.quiet (hs : s.Sound lease config admits now object) {stage : ContestStage}
    (hquiet : s.coordinator.Quiet c)
    (hreleasing : ∀ held sent stopped, stage = .closing (.releasing held sent stopped) →
      c.timer.loop = none ∧ held = config.holder) :
    (⟨c, stage, s.calls⟩ : Contestant).Sound lease config admits now object := by
  refine hs.replace hquiet.config hquiet.status hquiet.has ?_ hreleasing
  intro waiting hwaiting
  have hbefore := hquiet.phase waiting hwaiting
  exact ⟨hs.fits waiting hbefore, hs.admitted waiting hbefore⟩

variable {contender : Contender} {waiting : ContenderCall}

theorem Sound.leased_of_granted (hs : s.Sound lease config admits w.now object)
    (hcontender : s.coordinator.timer.Has contender)
    (hwaiting : s.coordinator.timer.phase? = some waiting)
    {answer : (contender.call waiting.phase).Reply} {granted : Identifier}
    (hreply : (w.callLease lease (contender.call waiting.phase) waiting.transit).2 = .ok answer)
    (hgranted : contender.granted? waiting.phase answer = some granted) :
    granted = config.holder ∧ ∃ duration,
      (w.callLease lease (contender.call waiting.phase) waiting.transit).1.container.get lease =
        .leased (.grant w.now duration config.holder) := by
  obtain ⟨hobject, hanswer⟩ := World.callLease_of_ok hreply
  rw [hobject]
  exact Contender.run_of_granted (hs.terms contender hcontender) (hs.identity_phase hwaiting)
    hanswer hgranted

/-- A grant backs itself. -/
theorem Sound.backed_of_granted (hs : s.Sound lease config admits w.now object)
    (hbounded : config.leaseDuration ≤ thirtyYears)
    (hcontender : s.coordinator.timer.Has contender)
    (hwaiting : s.coordinator.timer.phase? = some waiting)
    {answer : (contender.call waiting.phase).Reply} {granted : Identifier}
    (hreply : (w.callLease lease (contender.call waiting.phase) waiting.transit).2 = .ok answer)
    (hgranted : contender.granted? waiting.phase answer = some granted)
    {after : LeaseObject} (hlends : config.Lends after)
    (hafter : after =
      (w.callLease lease (contender.call waiting.phase) waiting.transit).1.container.get lease) :
    config.Backed w.now after
      (contender.recordOf w.now waiting.phase (.ok answer) :: s.calls) := by
  intro latest hlatest _
  have hgrants : (contender.recordOf w.now waiting.phase (.ok answer)).grants = true :=
    Contender.recordOf_grants_of_granted hgranted
  have hnew : w.now = latest := by
    rw [lastGrant_cons_of_grants hgrants] at hlatest
    exact Option.some.inj hlatest
  obtain ⟨-, duration, hleased⟩ := hs.leased_of_granted hcontender hwaiting hreply hgranted
  rw [← hafter] at hleased
  refine ⟨_, hleased, rfl, ?_⟩
  rw [← hnew]
  exact LeaseConfig.le_expiresAt_grant hbounded (hlends _ hleased rfl)

theorem Sound.identity_heard (hs : s.Sound lease config admits w.now object)
    (hcontender : s.coordinator.timer.Has contender)
    (hwaiting : s.coordinator.timer.phase? = some waiting)
    {turn : ContenderTurn}
    (houtcome : Contender.Outcome contender s.coordinator.status w.now waiting.phase
      (w.callLease lease (contender.call waiting.phase) waiting.transit).2 turn) :
    ∀ held, turn.status.held = some held → held = config.holder := by
  intro held hheld
  rcases houtcome.granted_or_unheld_or_kept with
    ⟨answer, granted, hreply, hgranted, hwon, -⟩ | hnone | ⟨hsame, -, -⟩
  · rw [hwon, Option.some.injEq] at hheld
    rw [← hheld]
    exact (hs.leased_of_granted hcontender hwaiting hreply hgranted).1
  · rw [hnone] at hheld
    simp at hheld
  · rw [hsame] at hheld
    exact hs.identity held hheld

theorem Sound.heard (hs : s.Sound lease config admits w.now (w.container.get lease))
    (hbounded : config.leaseDuration ≤ thirtyYears) (hadmitted : admits transit)
    (hconfig : c.config = s.coordinator.config)
    (hlends : config.Lends (w'.container.get lease))
    (hcontender : s.coordinator.timer.Has contender)
    (hwaiting : s.coordinator.timer.phase? = some waiting)
    (hhas : ∀ other, c.timer.Has other → s.coordinator.timer.Has other ∨
      other = (Coordinator.heard lease w contender s.coordinator.status waiting).contender)
    (hphase : c.timer.phase? =
      (Coordinator.heard lease w contender s.coordinator.status waiting).move.phase?.map
        (⟨·, transit⟩))
    (hstatus : c.status =
      (Coordinator.heard lease w contender s.coordinator.status waiting).status)
    (hcalls : calls' =
      (Coordinator.afterHeard lease (w, s.calls) contender s.coordinator.status waiting).2)
    (hworld : (w.callLease lease (contender.call waiting.phase) waiting.transit).1.SameButLog w')
    (hstage : ∀ held sent stopped, s.stage ≠ .closing (.releasing held sent stopped)) :
    (⟨c, s.stage, calls'⟩ : Contestant).Sound lease config admits w'.now
      (w'.container.get lease) := by
  have hnow : w'.now = w.now := hworld.now
  have hobject : w'.container.get lease =
      (w.callLease lease (contender.call waiting.phase) waiting.transit).1.container.get lease := by
    rw [hworld.container]
  have hfits : waiting.phase.lease? = s.coordinator.status.held := hs.fits waiting hwaiting
  have houtcome : Contender.Outcome contender s.coordinator.status w.now waiting.phase
      (w.callLease lease (contender.call waiting.phase) waiting.transit).2
      (Coordinator.heard lease w contender s.coordinator.status waiting) :=
    Contender.answer_outcome hfits _
  have hterms : contender.SameTerms
      (Coordinator.heard lease w contender s.coordinator.status waiting).contender :=
    Contender.answer_sameTerms ..
  have hkept : s.Sound lease config admits w.now (w'.container.get lease) := by
    apply hs.called hbounded _ _ hlends
    · exact contender.call waiting.phase
    · rw [hobject]
      exact World.callLease_fst w lease _ _
    · intro holder hrelease
      exact absurd hrelease (contender.call_ne_release waiting.phase holder)
  constructor
  case configured => exact hconfig.trans hs.configured
  case terms =>
      intro other hother
      rcases hhas other hother with hbefore | hturned
      · exact hs.terms other hbefore
      · rw [hturned]
        exact (hs.terms contender hcontender).trans hterms
  case fits =>
      intro next hnext
      rw [hphase, Option.map_eq_some_iff] at hnext
      obtain ⟨phase, hmove, hnext⟩ := hnext
      rw [← hnext, hstatus]
      exact houtcome.lease?_next hfits hmove
  case admitted =>
      intro next hnext
      rw [hphase, Option.map_eq_some_iff] at hnext
      obtain ⟨phase, -, hnext⟩ := hnext
      rw [← hnext]
      exact hadmitted
  case identity =>
      intro held hheld
      rw [hstatus] at hheld
      exact hs.identity_heard hcontender hwaiting houtcome held hheld
  case dated =>
      rw [hcalls, hnow]
      exact lastGrant_cons_le (Nat.le_refl _) hs.dated
  case backed =>
      intro hheld
      have hheld : c.status.isHeld = true := hheld
      rw [hcalls, hnow]
      rcases houtcome.granted_or_unheld_or_kept with
        ⟨answer, granted, hreply, hgranted, -, -⟩ | hnone | ⟨hsame, -, hfailed⟩
      · rw [Coordinator.afterHeard, hreply]
        exact hs.backed_of_granted hbounded hcontender hwaiting hreply hgranted hlends hobject
      · rw [hstatus, Status.isHeld, hnone] at hheld
        simp at hheld
      · intro latest hlatest
        have hbefore : s.hasLease = true := by
          rw [hstatus, hsame] at hheld
          exact hheld
        rw [Coordinator.afterHeard, lastGrant_cons_of_not_grants hfailed] at hlatest
        exact hkept.backed hbefore latest hlatest
  case releasing =>
      intro held sent stopped hclosing
      exact absurd hclosing (hstage held sent stopped)

theorem Sound.touches_polled (hs : s.Sound lease config admits w.now (w.container.get lease))
    (hpoll : s.coordinator.poll (World.witnessed lease transit) (w, s.calls) =
      some (c, w', calls')) :
    w'.now = w.now ∧
      config.Touches lease w.now (w.container.get lease) (w'.container.get lease) := by
  cases Coordinator.turn_of_poll hpoll with
  | rest _ henv | ask _ _ _ henv =>
      obtain ⟨rfl, -⟩ := Prod.mk.inj henv
      exact ⟨rfl, .inl rfl⟩
  | hear contender waiting hcontender hwaiting _ _ _ _ hworld =>
      refine ⟨hworld.now, ?_⟩
      rw [hworld.container]
      rcases World.callLease_fst w lease (contender.call waiting.phase) waiting.transit with
        hnone | hrun
      · exact .inl hnone
      · exact .inr ⟨contender.call waiting.phase,
          Contender.makes_call (hs.terms contender hcontender) (hs.identity_phase hwaiting), hrun⟩

theorem Sound.polled (hs : s.Sound lease config admits w.now (w.container.get lease))
    (hbounded : config.leaseDuration ≤ thirtyYears) (hadmitted : admits transit)
    (hpoll : s.coordinator.poll (World.witnessed lease transit) (w, s.calls) =
      some (c, w', calls'))
    (hlends : config.Lends (w'.container.get lease)) :
    (⟨c, s.stage, calls'⟩ : Contestant).Sound lease config admits w'.now
      (w'.container.get lease) := by
  have hconfig : c.config = s.coordinator.config := Coordinator.config_poll hpoll
  have hstage := hs.not_releasing hpoll
  cases Coordinator.turn_of_poll hpoll with
  | rest hquiet henv =>
      obtain ⟨rfl, rfl⟩ := Prod.mk.inj henv
      refine hs.quiet hquiet ?_
      intro held sent stopped hclosing
      exact absurd hclosing (hstage held sent stopped)
  | ask hhas hphase hstatus henv =>
      obtain ⟨rfl, rfl⟩ := Prod.mk.inj henv
      refine hs.replace hconfig hstatus hhas ?_ ?_
      · intro waiting hwaiting
        rw [hphase, Option.some.injEq] at hwaiting
        rw [← hwaiting]
        exact ⟨Contender.lease?_firstPhase _, hadmitted⟩
      · intro held sent stopped hclosing
        exact absurd hclosing (hstage held sent stopped)
  | hear contender waiting hcontender hwaiting hhas hphase hstatus hcalls hworld =>
      exact hs.heard hbounded hadmitted hconfig hlends hcontender hwaiting hhas hphase hstatus
        hcalls hworld hstage

theorem Sound.continued (hs : s.Sound lease config admits w.now (w.container.get lease))
    {closing closing' : Closing}
    (hstep : s.coordinator.closeStep (World.witnessed lease transit) (w, s.calls) closing =
      some (.continues ((w', calls'), c) closing')) :
    w.SameButLog w' ∧ (⟨c, .closing closing', calls'⟩ : Contestant).Sound lease config admits w.now
      (w.container.get lease) := by
  cases closing with
  | stopping wait =>
      obtain ⟨c₁, env₁, hhalted, ⟨held, stopped, hheld, hshutdown⟩ | ⟨_, _, hshutdown⟩⟩ :=
        Coordinator.closeStep_of_stopping hstep
      · obtain ⟨henv, hclosing⟩ := Progress.continues.inj hshutdown
        obtain ⟨rfl, rfl⟩ := Prod.mk.inj henv
        subst hclosing
        have hcalls : calls' = s.calls := hhalted.calls
        rw [hcalls]
        refine ⟨hhalted.world, hs.quiet hhalted.quiet ?_⟩
        intro held' sent' stopped' hreleasing
        obtain ⟨rfl, -, -⟩ := Closing.releasing.inj (ContestStage.closing.inj hreleasing)
        exact ⟨hhalted.loop, hs.identity _ hheld⟩
      · simp at hshutdown
  | releasing held sent stopped =>
      obtain ⟨_, _, hshutdown, _⟩ := Coordinator.closeStep_of_releasing hstep
      simp at hshutdown

theorem Sound.left (hs : s.Sound lease config admits w.now (w.container.get lease))
    {closing : Closing} {result : Except TimerError Unit} (hstage : s.stage = .closing closing)
    (hstep : s.coordinator.closeStep (World.witnessed lease transit) (w, s.calls) closing =
      some (.ended ((w', calls'), c) result)) :
    w'.now = w.now ∧
      config.Touches lease w.now (w.container.get lease) (w'.container.get lease) ∧
      (⟨c, .closed, calls'⟩ : Contestant).Sound lease config admits w'.now
        (w'.container.get lease) := by
  cases closing with
  | stopping wait =>
      obtain ⟨c₁, env₁, hhalted, ⟨_, _, _, hshutdown⟩ | ⟨stopped, hunheld, hshutdown⟩⟩ :=
        Coordinator.closeStep_of_stopping hstep
      · simp at hshutdown
      · obtain ⟨henv, -⟩ := Progress.ended.inj hshutdown
        obtain ⟨rfl, rfl⟩ := Prod.mk.inj henv
        have hworld : w.SameButLog w' := hhalted.world
        have hcalls : calls' = s.calls := hhalted.calls
        rw [hworld.now, hworld.container, hcalls]
        exact ⟨rfl, .inl rfl, hs.quiet hhalted.quiet (by simp)⟩
  | releasing held sent stopped =>
      obtain ⟨c₁, env₁, hshutdown, hunheld, htimer, hconfig, hcalls, hworld⟩ :=
        Coordinator.closeStep_of_releasing hstep
      obtain ⟨henv, -⟩ := Progress.ended.inj hshutdown
      obtain ⟨rfl, rfl⟩ := Prod.mk.inj henv
      obtain ⟨hloop, hmine⟩ := hs.releasing held sent stopped hstage
      have hnow : w'.now = w.now := hworld.now
      refine ⟨hnow, ?_, ?_⟩
      · rw [hworld.container]
        rcases World.callLease_fst w lease (.release held) sent with hnone | hrun
        · exact .inl hnone
        · exact .inr ⟨.release held, hmine, hrun⟩
      · constructor
        case configured => exact hconfig.trans hs.configured
        case terms =>
            rw [htimer]
            exact hs.terms
        case fits =>
            intro waiting hwaiting
            simp [Timer.phase?, htimer, hloop] at hwaiting
        case admitted =>
            intro waiting hwaiting
            simp [Timer.phase?, htimer, hloop] at hwaiting
        case identity =>
            intro other hother
            rw [hunheld] at hother
            simp at hother
        case dated =>
            have hcalls : calls' = _ := hcalls
            rw [hcalls, hnow]
            exact lastGrant_cons_le (Nat.le_refl _) hs.dated
        case backed =>
            intro hheld
            simp [hasLease, Coordinator.hasLease, Status.isHeld, hunheld] at hheld
        case releasing => simp

end Contestant

end LeasedListener
