import LeasedListener.Proofs.Leadership.Exclusivity
import LeasedListener.Proofs.Leadership.Sojourn

/-!
# Departures

Where calls fail for a reason only, a coordinator that does not hold the lease
has not got it, but for an acquisition that has succeeded and is not answered
yet.  A stop in time waits for the answer, so a shutdown knows whether there is
a lease to release, and leaves none behind.
-/

namespace LeasedListener

namespace Contender

variable {c other : Contender} {status : Status} {now : Nat} {phase : ContenderPhase}
  {lease : String} {config : LeaseConfig}

theorem SameTerms.call_eq (h : c.SameTerms other) (phase : ContenderPhase) :
    other.call phase = c.call phase := by
  obtain ⟨-, hholder, hduration⟩ := h
  cases phase <;> simp [call, hholder, hduration]

/-- Only a refusal leaves a contender without the lease, or the creation of an
object that it did not hold. -/
theorem refused_of_unheld (hfits : phase.lease? = status.held)
    {reply : Except StorageError (c.call phase).Reply}
    (hunheld : (c.answer status now phase reply).status.held = none) :
    (∃ error, reply = .error error) ∨ phase = .creating := by
  cases reply with
  | error error => exact .inl ⟨error, rfl⟩
  | ok answer =>
      cases phase with
      | creating => exact .inr rfl
      | acquiring | reclaiming => simp [Contender.answer, win] at hunheld
      | renewing held | recreating held =>
          have hkept : status.held = none := hunheld
          rw [hkept] at hfits
          simp [ContenderPhase.lease?] at hfits

/-- Whatever is granted is granted to the holder of the configuration. -/
theorem eq_holder_of_granted (hterms : (create lease config).SameTerms c)
    (hidentity : ∀ held, phase.lease? = some held → held = config.holder)
    {outcome : Except StorageError Unit} {answer : (c.call phase).Reply}
    (hanswer : (c.call phase).answer outcome = .ok answer) {granted : Identifier}
    (hgranted : c.granted? phase answer = some granted) : granted = config.holder := by
  cases outcome with
  | error error =>
      rw [LeaseCall.answer_error_iff.mpr rfl] at hanswer
      simp at hanswer
  | ok =>
      cases phase with
      | acquiring =>
          obtain rfl : c.holder = answer := Except.ok.inj hanswer
          obtain rfl : c.holder = granted := Option.some.inj hgranted
          exact hterms.2.1
      | renewing held =>
          obtain rfl : held = granted := Option.some.inj hgranted
          exact hidentity held rfl
      | reclaiming held =>
          obtain rfl : held = answer := Except.ok.inj hanswer
          obtain rfl : held = granted := Option.some.inj hgranted
          exact hidentity held rfl
      | creating | recreating => simp [granted?] at hgranted

end Contender

/-- The release that a shutdown waits for. -/
def SojournStage.release? : SojournStage → Option (LeaseCall × Transit)
  | .closing (.releasing held transit _) => some (.release held, transit)
  | .closing (.stopping _) | .running | .closed _ => none

namespace Sojourn

/-- The call that the coordinator waits for. -/
def pending? (lease : String) (config : LeaseConfig) (s : Sojourn) : Option (LeaseCall × Transit) :=
  s.stage.release?.or (s.coordinator.timer.phase?.map fun waiting =>
    ((Contender.create lease config).call waiting.phase, waiting.transit))

/-- While there is a loop, no release is under way. -/
theorem Accounts.release?_of_loop {c : Coordinator} {released : List Identifier}
    {stage : SojournStage} {stop? : Option (Except TimerError Unit × Option Identifier)}
    (h : Accounts c released stage stop?) (hloop : c.timer.loop ≠ none) :
    stage.release? = none := by
  cases h with
  | running | stopping => rfl
  | releasing gone _ | closed gone _ _ => exact absurd gone hloop

/-- What links a coordinator to the object while nothing fails without
reason. -/
structure Sound (lease : String) (config : LeaseConfig) (s : Sojourn) : Prop where
  terms : ∀ contender, s.coordinator.timer.Has contender →
    (Contender.create lease config).SameTerms contender
  fits : ∀ waiting, s.coordinator.timer.phase? = some waiting →
    waiting.phase.lease? = s.coordinator.status.held
  identity : ∀ held, s.coordinator.status.held = some held → held = config.holder
  leaver : ∀ held transit, s.stage.release? = some (.release held, transit) →
    held = config.holder
  underWay : s.site.errand?.map (fun errand => (errand.call, errand.transit)) =
    s.pending? lease config
  faultless : ∀ errand, s.site.errand? = some errand → errand.transit.IsFaultless
  concluded : ∀ call transit outcome, s.site.errand? = some ⟨call, transit, some outcome⟩ →
    (∃ error, outcome = .error error) ∨ call = .release config.holder →
      ¬ s.site.object.BelongsTo config.holder
  unowned : s.coordinator.status.held = none → s.site.object.BelongsTo config.holder →
    ∃ duration transit,
      s.site.errand? = some ⟨.acquire duration config.holder, transit, some (.ok ())⟩

variable {lease : String} {config : LeaseConfig} {admits : Transit → Prop} {s t : Sojourn}
  {c : Coordinator} {site : Site} {stage : SojournStage}
  {stop? : Option (Except TimerError Unit × Option Identifier)} {next : Transit}
  {contender : Contender} {waiting : ContenderCall} {closing : Closing}
  {progress : Progress (Site × Coordinator) Closing (Except TimerError Unit)}

/-- A coordinator that does not own the object, with a call that has not taken
effect yet at most. -/
theorem Sound.of_unowned (hrelease : stage.release? = none)
    (hterms : ∀ contender, c.timer.Has contender →
      (Contender.create lease config).SameTerms contender)
    (hfits : ∀ waiting, c.timer.phase? = some waiting →
      waiting.phase.lease? = c.status.held ∧ waiting.transit.IsFaultless)
    (hidentity : ∀ held, c.status.held = some held → held = config.holder)
    (herrand : site.errand? = c.timer.phase?.map fun waiting =>
      ⟨(Contender.create lease config).call waiting.phase, waiting.transit, none⟩)
    (hunowned : c.status.held = none → ¬ site.object.BelongsTo config.holder) :
    (⟨site, c, stage, stop?⟩ : Sojourn).Sound lease config where
  terms := hterms
  fits := fun waiting hwaiting => (hfits waiting hwaiting).1
  identity := hidentity
  leaver := by simp [hrelease]
  underWay := by
    simp only [pending?, hrelease, herrand, Option.none_or, Option.map_map]
    rfl
  faultless := by
    intro errand hsome
    rw [herrand, Option.map_eq_some_iff] at hsome
    obtain ⟨waiting, hwaiting, rfl⟩ := hsome
    exact (hfits waiting hwaiting).2
  concluded := by
    intro call transit outcome hsome
    simp [herrand] at hsome
  unowned := fun hunheld howned => absurd howned (hunowned hunheld)

theorem sound_create {now : Nat} {wallClock : Timestamp} {object : LeaseObject}
    (hcreated : Coordinator.create lease config = .ok c)
    (hstrange : ¬ object.BelongsTo config.holder) :
    (⟨⟨now, wallClock, object, none, []⟩, c, .running, none⟩ : Sojourn).Sound lease config := by
  obtain ⟨-, -, hstatus, name, htimer⟩ := Coordinator.create_eq_ok hcreated
  have hidle : c.timer.phase? = none := by simp [htimer, Timer.create, Timer.phase?]
  apply Sound.of_unowned rfl
  · intro contender hhas
    have hsame : Contender.create lease config = contender := by
      simpa [htimer, Timer.Has, Timer.create] using hhas
    rw [hsame]
    exact .refl contender
  · simp [hidle]
  · simp [hstatus]
  · simp [hidle]
  · exact fun _ => hstrange

/-- Nothing happens but what others do. -/
theorem Sound.beset (hs : s.Sound lease config) (herrand : site.errand? = s.site.errand?)
    (hobject : site.object.BelongsTo config.holder → s.site.object.BelongsTo config.holder) :
    ({ s with site } : Sojourn).Sound lease config where
  terms := hs.terms
  fits := hs.fits
  identity := hs.identity
  leaver := hs.leaver
  underWay := herrand ▸ hs.underWay
  faultless := herrand ▸ hs.faultless
  concluded := by
    intro call transit outcome hcall hover hafter
    rw [herrand] at hcall
    exact hs.concluded call transit outcome hcall hover (hobject hafter)
  unowned := by
    intro hunheld hafter
    rw [herrand]
    exact hs.unowned hunheld (hobject hafter)

theorem Sound.quiet (hs : s.Sound lease config) (hquiet : s.coordinator.Quiet c)
    (hphase : c.timer.phase? = s.coordinator.timer.phase?)
    (hrelease : stage.release? = s.stage.release?) :
    (⟨s.site, c, stage, stop?⟩ : Sojourn).Sound lease config where
  terms := fun contender hhas => hs.terms contender (hquiet.has contender hhas)
  fits := by
    intro waiting hwaiting
    rw [hquiet.status]
    exact hs.fits waiting (hphase ▸ hwaiting)
  identity := hquiet.status ▸ hs.identity
  leaver := by
    intro held transit hleaving
    exact hs.leaver held transit (hrelease ▸ hleaving)
  underWay := by
    rw [pending?, hrelease, hphase]
    exact hs.underWay
  faultless := hs.faultless
  concluded := hs.concluded
  unowned := hquiet.status ▸ hs.unowned

theorem Sound.identity_phase (hs : s.Sound lease config)
    (hwaiting : s.coordinator.timer.phase? = some waiting) :
    ∀ held, waiting.phase.lease? = some held → held = config.holder := by
  intro held hheld
  exact hs.identity held ((hs.fits waiting hwaiting).symm.trans hheld)

theorem Sound.makes (hs : s.Sound lease config) {errand : Errand}
    (herrand : s.site.errand? = some errand) : config.Makes errand.call := by
  have hpending := hs.underWay
  rw [herrand, Option.map_some, eq_comm, pending?, Option.or_eq_some_iff] at hpending
  rcases hpending with hrelease | ⟨-, hcontender⟩
  · obtain ⟨call, transit, outcome?⟩ := errand
    unfold SojournStage.release? at hrelease
    split at hrelease
    next held sent _ hstage =>
      obtain ⟨rfl, rfl⟩ := Prod.mk.inj (Option.some.inj hrelease)
      exact hs.leaver held sent (by rw [hstage]; rfl)
    all_goals simp at hrelease
  · rw [Option.map_eq_some_iff] at hcontender
    obtain ⟨waiting, hwaiting, hcall⟩ := hcontender
    obtain ⟨hcall, -⟩ := Prod.mk.inj hcall
    rw [← hcall]
    exact Contender.makes_call (.refl _) (hs.identity_phase hwaiting)

theorem Sound.effect (hs : s.Sound lease config) {call : LeaseCall} {transit : Transit}
    (hwaiting : s.site.errand? = some ⟨call, transit, none⟩) :
    ({ s with site := s.site.effect lease call transit } : Sojourn).Sound lease config := by
  have hmakes : config.Makes call := hs.makes hwaiting
  have hcarry : transit.carry (call.run lease s.site.now) s.site.object =
      call.run lease s.site.now s.site.object :=
    Transit.carry_of_faultless (hs.faultless _ hwaiting)
  constructor
  case terms => exact hs.terms
  case fits => exact hs.fits
  case identity => exact hs.identity
  case leaver => exact hs.leaver
  case underWay =>
    have hpending := hs.underWay
    rw [hwaiting] at hpending
    exact hpending
  case faultless =>
    intro errand herrand
    obtain rfl := Option.some.inj herrand
    exact hs.faultless ⟨call, transit, none⟩ hwaiting
  case concluded =>
    intro called sent outcome herrand hover
    simp only [Site.effect, hcarry, Option.some.injEq, Errand.mk.injEq] at herrand
    obtain ⟨rfl, rfl, rfl⟩ := herrand
    simp only [Site.effect, hcarry]
    rcases hover with ⟨error, herror⟩ | rfl
    · exact LeaseConfig.not_belongsTo_of_error hmakes (LeaseCall.outcomeOf_eq_error_iff.mp herror)
    · exact LeaseConfig.not_belongsTo_of_release lease config.holder s.site.now s.site.object
  case unowned =>
    intro hunheld hafter
    have hbefore : ¬ s.site.object.BelongsTo config.holder := by
      intro howned
      obtain ⟨_, _, herrand⟩ := hs.unowned hunheld howned
      rw [hwaiting] at herrand
      simp at herrand
    simp only [Site.effect, hcarry] at hafter ⊢
    -- it is an acquisition that has just succeeded, and its answer is still to come
    obtain ⟨⟨duration, rfl⟩, reply, hreply⟩ :=
      LeaseConfig.acquires_of_belongsTo hmakes hbefore hafter
    rw [hreply]
    exact ⟨duration, transit, rfl⟩

theorem Sound.errand?_eq_none (hs : s.Sound lease config) (hrelease : s.stage.release? = none)
    (hidle : s.coordinator.timer.phase? = none) : s.site.errand? = none := by
  have hpending := hs.underWay
  rw [pending?, hrelease, hidle] at hpending
  simpa using hpending

/-- Who waits for nothing and holds nothing owns nothing. -/
theorem Sound.not_belongsTo_of_idle (hs : s.Sound lease config) (hrelease : s.stage.release? = none)
    (hidle : s.coordinator.timer.phase? = none) (hunheld : s.coordinator.status.held = none) :
    ¬ s.site.object.BelongsTo config.holder := by
  intro howned
  obtain ⟨_, _, herrand⟩ := hs.unowned hunheld howned
  rw [hs.errand?_eq_none hrelease hidle] at herrand
  simp at herrand

theorem Sound.asked (hs : s.Sound lease config) (hrelease : s.stage.release? = none)
    (hnext : next.IsFaultless) (hasks : s.coordinator.Asks c contender next) :
    ({ s with
        coordinator := c
        site := s.site.send (contender.call (Contender.firstPhase s.coordinator.status))
          next } : Sojourn).Sound lease config := by
  apply Sound.of_unowned hrelease
  · exact fun other hother => hs.terms other (hasks.command other hother)
  · intro waiting hwaiting
    obtain rfl := Option.some.inj (hasks.phase.symm.trans hwaiting)
    rw [hasks.status]
    exact ⟨Contender.lease?_firstPhase _, hnext⟩
  · exact hasks.status ▸ hs.identity
  · rw [hasks.phase, Option.map_some, ← (hs.terms contender hasks.has).call_eq]
    rfl
  · rw [hasks.status]
    exact hs.not_belongsTo_of_idle hrelease hasks.before

/-- Who loses the lease by an answer, or does not get it, does not own the
object. -/
theorem Sound.not_belongsTo_of_heard (hs : s.Sound lease config)
    (hwaiting : s.coordinator.timer.phase? = some waiting) {outcome : Except StorageError Unit}
    (herrand : s.site.errand? =
      some ⟨contender.call waiting.phase, waiting.transit, some outcome⟩)
    (hunheld : (contender.answer s.coordinator.status s.site.now waiting.phase
      ((contender.call waiting.phase).answer outcome)).status.held = none) :
    ¬ s.site.object.BelongsTo config.holder := by
  rcases Contender.refused_of_unheld (hs.fits waiting hwaiting) hunheld with
    ⟨error, herror⟩ | hcreating
  · exact hs.concluded _ _ _ herrand (.inl ⟨error, LeaseCall.answer_error_iff.mp herror⟩)
  · intro howned
    have hkept : s.coordinator.status.held = none := by
      rw [← hs.fits waiting hwaiting, hcreating]
      rfl
    obtain ⟨_, _, hacquires⟩ := hs.unowned hkept howned
    rw [herrand, hcreating] at hacquires
    simp [Contender.call] at hacquires

/-- An answer that comes after its call has taken effect. -/
theorem Sound.heard_of_outcome (hs : s.Sound lease config) (hrelease : s.stage.release? = none)
    (hnext : next.IsFaultless) {turn : ContenderTurn}
    (hhears : s.coordinator.Hears c contender waiting turn (turn.move.phase?.map (⟨·, next⟩)))
    (hturn : s.site.heard lease s.coordinator.status contender waiting = turn)
    {outcome : Except StorageError Unit} (herrand : s.site.errand? =
      some ⟨contender.call waiting.phase, waiting.transit, some outcome⟩) :
    ({ s with
        coordinator := c
        site := s.site.after lease turn contender waiting next } : Sojourn).Sound lease config := by
  have hknown : s.site.outcome? = some outcome := by simp [Site.outcome?, herrand]
  rw [Site.heard_of_outcome hknown] at hturn
  subst hturn
  have hfits := hs.fits waiting hhears.before
  have houtcome : Contender.Outcome contender s.coordinator.status s.site.now waiting.phase
      ((contender.call waiting.phase).answer outcome) _ :=
    Contender.answer_outcome hfits _
  have hterms := (hs.terms contender hhears.has).trans (Contender.answer_sameTerms contender
    s.coordinator.status s.site.now waiting.phase ((contender.call waiting.phase).answer outcome))
  apply Sound.of_unowned hrelease
  · intro other hother
    rcases hhears.command other hother with hbefore | rfl
    · exact hs.terms other hbefore
    · exact hterms
  · intro following hfollowing
    rw [hhears.phase, Option.map_eq_some_iff] at hfollowing
    obtain ⟨phase, hmove, rfl⟩ := hfollowing
    rw [hhears.status]
    exact ⟨houtcome.lease?_next hfits hmove, hnext⟩
  · intro held hheld
    rw [hhears.status] at hheld
    rcases houtcome.granted_or_unheld_or_kept with
      ⟨answer, granted, hanswer, hgranted, hwon, -⟩ | hnone | ⟨hsame, -, -⟩
    · obtain rfl := Option.some.inj (hwon.symm.trans hheld)
      exact Contender.eq_holder_of_granted (hs.terms contender hhears.has)
        (hs.identity_phase hhears.before) hanswer hgranted
    · rw [hnone] at hheld
      simp at hheld
    · rw [hsame] at hheld
      exact hs.identity held hheld
  · rw [Site.errand?_after, hhears.phase, Option.map_map]
    congr 1
    funext phase
    simp only [Function.comp, hterms.call_eq]
  · rw [hhears.status, Site.object_after_of_outcome hknown]
    exact hs.not_belongsTo_of_heard hhears.before herrand

/-- Whether a call takes effect ahead of its answer or with it makes no
difference. -/
theorem Sound.heard (hs : s.Sound lease config) (hrelease : s.stage.release? = none)
    (hnext : next.IsFaultless) {turn : ContenderTurn}
    (hhears : s.coordinator.Hears c contender waiting turn (turn.move.phase?.map (⟨·, next⟩)))
    (hturn : s.site.heard lease s.coordinator.status contender waiting = turn) :
    ({ s with
        coordinator := c
        site := s.site.after lease turn contender waiting next } : Sojourn).Sound lease config := by
  have hpending := hs.underWay
  rw [pending?, hrelease, hhears.before, Option.none_or, Option.map_some,
    ← (hs.terms contender hhears.has).call_eq, Option.map_eq_some_iff] at hpending
  obtain ⟨⟨call, transit, outcome?⟩, herrand, hcall⟩ := hpending
  obtain ⟨rfl, rfl⟩ := Prod.mk.inj hcall
  cases outcome? with
  | some outcome => exact hs.heard_of_outcome hrelease hnext hhears hturn herrand
  | none =>
      have hopen : s.site.outcome? = none := by simp [Site.outcome?, herrand]
      rw [← Site.heard_effect hopen] at hturn
      rw [← Site.after_effect hopen]
      exact (hs.effect herrand).heard_of_outcome hrelease hnext hhears hturn rfl

theorem Sound.polled (hs : s.Sound lease config) (haccounted : s.IsAccounted)
    (hnext : next.IsFaultless)
    (hpolled : s.coordinator.poll (Site.access lease next) s.site = some (c, site)) :
    ({ s with coordinator := c, site } : Sojourn).Sound lease config := by
  have hrelease : s.stage.release? = none :=
    Accounts.release?_of_loop haccounted (loop_of_poll hpolled)
  cases Coordinator.turns_of_poll hpolled with
  | rests quiet before after => exact hs.quiet quiet (after.trans before.symm) rfl
  | asks asks => exact hs.asked hrelease hnext asks
  | hears hears follows =>
      obtain ⟨rfl, rfl⟩ := Site.of_follows follows
      exact hs.heard hrelease hnext hears rfl

/-- The release that ends a shutdown leaves nothing of its holder behind. -/
theorem Sound.not_belongsTo_of_released (hs : s.Sound lease config) {held : Identifier}
    {transit : Transit} (hrelease : s.stage.release? = some (.release held, transit)) :
    ¬ ((Site.access lease transit).perform s.site (.release held) transit).1.object.BelongsTo
      config.holder := by
  obtain rfl := hs.leaver held transit hrelease
  have hpending := hs.underWay
  rw [pending?, hrelease, Option.some_or, Option.map_eq_some_iff] at hpending
  obtain ⟨⟨call, sent, outcome?⟩, herrand, hcall⟩ := hpending
  obtain ⟨rfl, rfl⟩ := Prod.mk.inj hcall
  cases outcome? with
  | some outcome =>
      have hknown : s.site.outcome? = some outcome := by simp [Site.outcome?, herrand]
      rw [Site.perform_of_outcome hknown]
      exact hs.concluded _ _ _ herrand (.inr rfl)
  | none =>
      have hopen : s.site.outcome? = none := by simp [Site.outcome?, herrand]
      rw [← Site.perform_effect hopen, Site.perform_of_outcome rfl]
      exact (hs.effect herrand).concluded _ _ _ rfl (.inr rfl)

/-- The stop of the timer took too long. -/
def TimedOut (s : Sojourn) : Prop :=
  ∃ name timeout held?, s.stop? = some (.error (.stopTimedOut name timeout), held?)

/-- A stop in time leaves the coordinator with nothing to wait for. -/
theorem Sound.stopped (hs : s.Sound lease config)
    {stop : Timer Contender ContenderCall × Except TimerError Unit × List Event} {wait : StopWait}
    (hstopped : s.coordinator.timer.stopResult? wait s.site.now = some stop)
    (htimer : c.timer = stop.1) :
    c.timer.phase? = none ∧ ∀ contender, c.timer.Has contender →
      (Contender.create lease config).SameTerms contender := by
  obtain ⟨hgone, hhas⟩ := Timer.of_stopResult? hstopped
  rw [htimer]
  exact ⟨Timer.phase?_of_gone hgone, fun contender h => hs.terms contender (hhas contender h)⟩

theorem Sound.conclude (hs : s.Sound lease config) (haccounted : s.IsAccounted)
    (hstage : s.stage = .closing closing) (hnext : next.IsFaultless)
    (hdeparts : Coordinator.Departs (Site.access lease next) s.site s.coordinator closing
      progress) :
    (s.conclude closing progress).TimedOut ∨ (s.conclude closing progress).Sound lease config := by
  cases hdeparts with
  | @releases wait held transit site' c' stop stopped holds sent timer _ status =>
      rw [Site.reportAll_eq] at sent
      obtain ⟨rfl, rfl⟩ := Prod.mk.inj sent
      have stopped : s.coordinator.timer.stopResult? wait s.site.now = some stop := stopped
      obtain ⟨hended, hterms⟩ := hs.stopped stopped timer
      rcases Timer.idle_or_overran stopped with hidle | ⟨name, timeout, hlate⟩
      · have hheld : c'.status.held = some held := status ▸ holds
        right
        constructor
        case terms => exact hterms
        case fits => simp [Sojourn.conclude, hended]
        case identity => exact status ▸ hs.identity
        case leaver =>
          intro leaver transit hleaving
          simp only [Sojourn.conclude, SojournStage.release?, Option.some.injEq, Prod.mk.injEq,
            LeaseCall.release.injEq] at hleaving
          exact hs.identity leaver (hleaving.1 ▸ holds)
        case underWay => rfl
        case faultless =>
          intro errand herrand
          obtain rfl := Option.some.inj herrand
          exact hnext
        case concluded =>
          intro call transit outcome herrand
          simp [Sojourn.conclude, Site.send] at herrand
        case unowned =>
          intro hunheld
          simp [Sojourn.conclude, hheld] at hunheld
      · exact .inl ⟨name, timeout, some held, by
          simp [Sojourn.conclude, stopNoted, stopped, hlate, holds]⟩
  | @leaves wait site' c' stop stopped unheld reports timer _ status =>
      rw [Site.reportAll_eq] at reports
      subst reports
      have stopped : s.coordinator.timer.stopResult? wait s.site.now = some stop := stopped
      obtain ⟨hended, hterms⟩ := hs.stopped stopped timer
      rcases Timer.idle_or_overran stopped with hidle | ⟨name, timeout, hlate⟩
      · have hrelease : s.stage.release? = none := by rw [hstage]; rfl
        right
        apply Sound.of_unowned rfl hterms
        · simp [hended]
        · exact status ▸ hs.identity
        · rw [hended]
          exact hs.errand?_eq_none hrelease hidle
        · exact fun _ => hs.not_belongsTo_of_idle hrelease hidle unheld
      · exact .inl ⟨name, timeout, none, by
          simp [Sojourn.conclude, stopNoted, stopped, hlate, unheld]⟩
  | @returns held transit stopped site' c' event answered timer _ status =>
      have hunheld : c'.status.held = none := by
        rw [status]
        exact Status.held_publish _ _
      have answered : site' =
          ((Site.access lease transit).perform s.site (.release held) transit).1 := answered
      have hrelease : s.stage.release? = some (.release held, transit) := by rw [hstage]; rfl
      have hended : c'.timer.phase? = none := by
        rw [timer]
        exact Timer.phase?_of_gone (haccounted.at_stage hstage).of_releasing.1
      right
      apply Sound.of_unowned rfl
      · exact timer ▸ hs.terms
      · simp [hended]
      · simp [hunheld]
      · rw [hended, answered]
        exact Site.errand?_perform lease transit s.site (.release held) transit
      · rw [answered]
        exact fun _ => hs.not_belongsTo_of_released hrelease

theorem TimedOut.step (hs : s.TimedOut) (haccounted : s.IsAccounted)
    (h : Step lease config admits s t) : t.TimedOut := by
  obtain ⟨name, timeout, held?, hstop⟩ := hs
  cases h with
  | elapse | disturb | effect | start | poll | settle | close => exact ⟨name, timeout, held?, hstop⟩
  | @conclude closing next progress stage admitted stepped =>
      cases closing with
      | stopping wait =>
          -- the timer is stopped only once
          rw [(haccounted.at_stage stage).of_stopping.2] at hstop
          simp at hstop
      | releasing =>
          cases progress with
          | continues | ended | died => exact ⟨name, timeout, held?, hstop⟩

theorem Sound.step (hs : s.Sound lease config) (haccounted : s.IsAccounted)
    (h : Step lease config Transit.IsFaultless s t) : t.TimedOut ∨ t.Sound lease config := by
  cases h with
  | elapse => exact .inr (hs.beset rfl id)
  | disturb disturbed => exact .inr (hs.beset rfl disturbed.belongsTo)
  | effect waiting => exact .inr (hs.effect waiting)
  | start => exact .inr (hs.quiet s.coordinator.quiet_start s.coordinator.phase?_start rfl)
  | poll admitted polled => exact .inr (hs.polled haccounted admitted polled)
  | settle settled =>
      refine .inr (hs.quiet (Coordinator.quiet_settle settled) ?_ rfl)
      rw [Coordinator.timer_settle settled]
  | close running =>
      refine .inr (hs.quiet (s.coordinator.quiet_close s.site) ?_ ?_)
      · exact Timer.phase?_cancel s.coordinator.timer
      · rw [running]
        rfl
  | conclude stage admitted stepped =>
      exact hs.conclude haccounted stage admitted (Coordinator.departs_of_closeStep stepped)

theorem Reachable.sound (h : Reachable lease config Transit.IsFaultless s) :
    s.TimedOut ∨ s.Sound lease config := by
  induction h with
  | start now wallClock created strange => exact .inr (sound_create created strange)
  | step hreachable hstep ih =>
      rcases ih with hlate | hs
      · exact .inl (hlate.step hreachable.isAccounted hstep)
      · exact hs.step hreachable.isAccounted hstep

/-- What a shutdown waits for: the loop, while there is time left, and then
the answer to the release. -/
def Waits (s : Sojourn) : Closing → Prop
  | .stopping wait =>
      s.coordinator.timer.isRunning = true ∧ Instant.reached s.site.now wait.ends = false
  | .releasing _ transit _ => transit.arrived s.site.now = false

/-- How many transitions of its shutdown a coordinator has before it. -/
def remaining (s : Sojourn) : Nat :=
  match s.stage with
  | .running => 3
  | .closing (.stopping _) => 2
  | .closing (.releasing ..) => 1
  | .closed _ => 0

theorem closeStep_eq_none_iff :
    s.coordinator.closeStep (Site.access lease next) s.site closing = none ↔ s.Waits closing := by
  cases closing with
  | stopping wait =>
      simp only [Coordinator.closeStep, Option.map_eq_none_iff]
      exact Timer.stopResult?_eq_none_iff
  | releasing held transit stopped =>
      have hnow : Surroundings.now s.site = s.site.now := rfl
      simp only [Coordinator.closeStep, Waits, hnow]
      cases transit.arrived s.site.now <;> simp

theorem remaining_conclude (hstage : s.stage = .closing closing)
    (hdeparts : Coordinator.Departs (Site.access lease next) s.site s.coordinator closing
      progress) :
    (s.conclude closing progress).remaining < s.remaining := by
  cases hdeparts with
  | releases | leaves | returns => simp [remaining, hstage, Sojourn.conclude]

/-- If no call fails without reason and the stop of its timer is in time, a
coordinator has no lease of the object when its shutdown is over, whenever that
began.  Whatever fails, a shutdown comes to its end unless it waits for the
timer or for an answer; it makes one release if a lease was held once the timer
had stopped, and ends with no lease held and the result of the stop. -/
theorem shutdown_leaves_no_lease (lease : String) (config : LeaseConfig) :
    (∀ s, Reachable lease config Transit.IsFaultless s → ∀ result, s.stage = .closed result →
      (∀ name timeout, result ≠ .error (.stopTimedOut name timeout)) →
      s.coordinator.status.held = none ∧ ¬ s.site.object.BelongsTo config.holder) ∧
    ∀ s, Reachable lease config (fun _ => True) s →
      (∀ result, s.stage = .closed result → s.coordinator.status.held = none ∧
        ∃ held?, s.stop? = some (result, held?) ∧ s.released = held?.toList) ∧
      ∀ closing next, s.stage = .closing closing →
        (s.coordinator.closeStep (Site.access lease next) s.site closing = none ↔
          s.Waits closing) ∧
        ∀ progress, s.coordinator.closeStep (Site.access lease next) s.site closing =
          some progress → (s.conclude closing progress).remaining < s.remaining := by
  constructor
  · intro s hreachable result hclosed hintime
    obtain ⟨hgone, hunheld, held?, hstop, -⟩ :=
      (hreachable.isAccounted.at_stage hclosed).of_closed
    refine ⟨hunheld, ?_⟩
    rcases hreachable.sound with ⟨name, timeout, _, hlate⟩ | hs
    · rw [hstop, Option.some.injEq, Prod.mk.injEq] at hlate
      exact absurd hlate.1 (hintime name timeout)
    · apply hs.not_belongsTo_of_idle _ (Timer.phase?_of_gone hgone) hunheld
      rw [hclosed]
      rfl
  · intro s hreachable
    constructor
    · intro result hclosed
      exact (hreachable.isAccounted.at_stage hclosed).of_closed.2
    · intro closing next hclosing
      constructor
      · exact closeStep_eq_none_iff
      · intro progress hstepped
        exact remaining_conclude hclosing (Coordinator.departs_of_closeStep hstepped)

def poll (lease : String) (next : Transit) (s : Sojourn) : Sojourn :=
  match s.coordinator.poll (Site.access lease next) s.site with
  | some (coordinator, site) => { s with coordinator, site }
  | none => s

def leave (lease : String) (next : Transit) (s : Sojourn) : Sojourn :=
  match s.stage with
  | .closing closing =>
      match s.coordinator.closeStep (Site.access lease next) s.site closing with
      | some progress => s.conclude closing progress
      | none => s
  | .running | .closed _ => s

theorem Reachable.poll (h : Reachable lease config admits s) (admitted : admits next) :
    Reachable lease config admits (s.poll lease next) := by
  unfold Sojourn.poll
  split
  · next polled => exact h.step (.poll admitted polled)
  · exact h

theorem Reachable.leave (h : Reachable lease config admits s) (admitted : admits next) :
    Reachable lease config admits (s.leave lease next) := by
  unfold Sojourn.leave
  split
  · next stage =>
      split
      · next stepped => exact h.step (.conclude stage admitted stepped)
      · exact h
  · exact h
  · exact h

def arrival : Sojourn :=
  ⟨⟨0, scenarioEpoch, .free, none, []⟩, Contest.challenger, .running, none⟩

/-- The challenger has asked for the lease, to be answered at the instant 5. -/
def asking : Sojourn :=
  ({ arrival with coordinator := Contest.challenger.start.1 } : Sojourn).poll "lock" ⟨some 5, none⟩

/-- It has got the lease and does not know. -/
def granted : Sojourn :=
  { asking with
    site := asking.site.effect "lock"
      (.acquire (Contest.rivals false).leaseDuration (Contest.rivals false).holder) ⟨some 5, none⟩ }

/-- Its shutdown begins. -/
def surprised : Sojourn :=
  { granted with
    coordinator := (granted.coordinator.close granted.site).1
    stage := .closing (granted.coordinator.close granted.site).2 }

def departed : Sojourn :=
  ((((({ surprised with site := { surprised.site with now := 5 } } : Sojourn).poll "lock"
    (.direct 5)).poll "lock" (.direct 5)).leave "lock" (.direct 5)).leave "lock" (.direct 5))

theorem reachable_surprised (hadmits : ∀ now, admits ⟨some now, none⟩) :
    Reachable "lock" (Contest.rivals false) admits surprised := by
  have harrival : Reachable "lock" (Contest.rivals false) admits arrival :=
    .start 0 scenarioEpoch Contest.create_challenger (by simp [LeaseObject.BelongsTo])
  have hasking : Reachable "lock" (Contest.rivals false) admits asking :=
    (harrival.step (.start rfl)).poll (hadmits 5)
  have hgranted : Reachable "lock" (Contest.rivals false) admits granted :=
    hasking.step (.effect rfl)
  exact hgranted.step (.close rfl)

theorem reachable_departed (hadmits : ∀ now, admits ⟨some now, none⟩) :
    Reachable "lock" (Contest.rivals false) admits departed := by
  have hlater : Reachable "lock" (Contest.rivals false) admits
      { surprised with site := { surprised.site with now := 5 } } :=
    (reachable_surprised hadmits).step (.elapse scenarioEpoch (by decide))
  exact (((hlater.poll (hadmits 5)).poll (hadmits 5)).leave (hadmits 5)).leave (hadmits 5)

/-- A shutdown that begins between a successful acquisition and its answer
releases the lease. -/
theorem shutdown_leaves_no_lease_surprised :
    surprised.site.object.BelongsTo (Contest.rivals false).holder ∧
      surprised.coordinator.status.held = none ∧
      departed.stage = .closed (.ok ()) ∧
      departed.coordinator.status.held = none ∧
      ¬ departed.site.object.BelongsTo (Contest.rivals false).holder ∧
      departed.released = [(Contest.rivals false).holder] := by
  have hclosed : departed.stage = .closed (.ok ()) := rfl
  obtain ⟨hleft, hfaulty⟩ := shutdown_leaves_no_lease "lock" (Contest.rivals false)
  obtain ⟨hunheld, hgone⟩ := hleft departed (reachable_departed fun _ => rfl) (.ok ()) hclosed
    (by simp)
  obtain ⟨hended, -⟩ := hfaulty departed (reachable_departed fun _ => trivial)
  obtain ⟨-, held?, hstop, hreleased⟩ := hended (.ok ()) hclosed
  refine ⟨⟨_, rfl, rfl⟩, rfl, hclosed, hunheld, hgone, ?_⟩
  obtain ⟨-, rfl⟩ := Prod.mk.inj (Option.some.inj hstop)
  exact hreleased

end Sojourn

end LeasedListener
