import LeasedListener.Proofs.Leadership.Errand

/-!
# The end of a coordinator's stay

A coordinator stays at a lease object from its creation to the end of its
shutdown, while others use the object under other identities and delete it at
will.  Without a call that fails for no reason, whatever the coordinator does
not know to hold is not leased in its name, unless an acquisition has succeeded
whose answer is still to come.  A stop in time waits for that answer, so that
the release after it leaves nothing behind.
-/

namespace LeasedListener

/-- The object carries a lease of this holder, be it over or not. -/
def LeaseObject.BelongsTo (object : LeaseObject) (holder : Identifier) : Prop :=
  ∃ active, object = .leased active ∧ active.holder = holder

namespace LeaseCall

/-- The identity under which a call is made. -/
def identity? : LeaseCall → Option Identifier
  | .acquire _ holder | .renew holder | .release holder => some holder
  | .ensure => none

def released? : LeaseCall → Option Identifier
  | .release holder => some holder
  | .acquire .. | .renew _ | .ensure => none

end LeaseCall

/-- What others do to an object that a holder uses. -/
inductive LeaseObject.Disturbed (lease : String) (holder : Identifier) (now : Nat)
    (object : LeaseObject) : LeaseObject → Prop
  | deleted : Disturbed lease holder now object .missing
  | called {call : LeaseCall} (foreign : call.identity? ≠ some holder) :
      Disturbed lease holder now object (call.run lease now object).1

section

variable {lease : String} {holder : Identifier} {now : Nat} {object after : LeaseObject}
  {config : LeaseConfig} {call : LeaseCall}

theorem LeaseObject.Disturbed.belongsTo (h : object.Disturbed lease holder now after)
    (hafter : after.BelongsTo holder) : object.BelongsTo holder := by
  obtain ⟨active, hactive, rfl⟩ := hafter
  cases h with
  | deleted => simp at hactive
  | called foreign =>
      rcases LeaseCall.run_leased hactive with
        hbefore | ⟨duration, claimant, rfl, rfl⟩ | ⟨old, hold, rfl, rfl⟩
      · exact ⟨active, hbefore, rfl⟩
      · exact absurd rfl foreign
      · exact absurd rfl foreign

namespace LeaseConfig

/-- Only who holds no lease of an object can fail there. -/
theorem not_belongsTo_of_error (hmakes : config.Makes call) {error : StorageError}
    (herror : (call.run lease now object).2 = .error error) :
    ¬ (call.run lease now object).1.BelongsTo config.holder := by
  rw [LeaseCall.run_of_error herror]
  rintro ⟨active, rfl, hmine⟩
  cases call with
  | acquire duration claimant =>
      have hclaimant : active.holder = claimant := hmine.trans hmakes.2.symm
      simp [LeaseCall.run, LeaseObject.acquire, hclaimant] at herror
  | renew renewer =>
      have hrenewer : active.holder = renewer := hmine.trans hmakes.symm
      simp [LeaseCall.run, LeaseObject.renew, hrenewer] at herror
  | release leaver =>
      have hleaver : active.holder = leaver := hmine.trans hmakes.symm
      simp [LeaseCall.run, LeaseObject.release, hleaver] at herror
  | ensure => simp [LeaseCall.run] at herror

theorem not_belongsTo_of_release (lease : String) (holder : Identifier) (now : Nat)
    (object : LeaseObject) :
    ¬ ((LeaseCall.release holder).run lease now object).1.BelongsTo holder := by
  rintro ⟨active, hactive, hmine⟩
  cases object with
  | missing | free => simp [LeaseCall.run, LeaseObject.release] at hactive
  | leased old =>
      by_cases hold : old.holder = holder
      · simp [LeaseCall.run, LeaseObject.release, hold] at hactive
      · simp only [LeaseCall.run, LeaseObject.release, if_neg hold,
          LeaseObject.leased.injEq] at hactive
        exact hold (hactive ▸ hmine)

/-- An object comes into the hands of a holder by an acquisition only. -/
theorem acquires_of_belongsTo (hmakes : config.Makes call)
    (hbefore : ¬ object.BelongsTo config.holder)
    (hafter : (call.run lease now object).1.BelongsTo config.holder) :
    (∃ duration, call = .acquire duration config.holder) ∧
      ∃ reply, (call.run lease now object).2 = .ok reply := by
  constructor
  · obtain ⟨active, hactive, hmine⟩ := hafter
    rcases LeaseCall.run_leased hactive with
      hsame | ⟨duration, claimant, rfl, -⟩ | ⟨old, hold, -, rfl⟩
    · exact absurd ⟨active, hsame, hmine⟩ hbefore
    · exact ⟨duration, by rw [hmakes.2]⟩
    · exact absurd ⟨old, hold, hmine⟩ hbefore
  · cases hreply : (call.run lease now object).2 with
    | ok reply => exact ⟨reply, rfl⟩
    | error error => exact absurd hafter (not_belongsTo_of_error hmakes hreply)

end LeaseConfig

end

inductive SojournStage
  | running
  | closing (closing : Closing)
  | closed (result : Except TimerError Unit)

structure Sojourn where
  site : Site
  coordinator : Coordinator
  stage : SojournStage
  /-- The result of stopping the timer, with the lease that was held by then. -/
  stop? : Option (Except TimerError Unit × Option Identifier)

namespace Sojourn

/-- What a transition of a shutdown says about the stop of the timer. -/
def stopNoted (s : Sojourn) : Closing → Option (Except TimerError Unit × Option Identifier)
  | .stopping wait =>
      (s.coordinator.timer.stopResult? wait s.site.now).map fun stop =>
        (stop.2.1, s.coordinator.status.held)
  | .releasing .. => s.stop?

def conclude (s : Sojourn) (closing : Closing) :
    Progress (Site × Coordinator) Closing (Except TimerError Unit) → Sojourn
  | .continues (site, coordinator) next => ⟨site, coordinator, .closing next, s.stopNoted closing⟩
  | .ended (site, coordinator) result => ⟨site, coordinator, .closed result, s.stopNoted closing⟩
  | .died (site, coordinator) _ => { s with site, coordinator }

inductive Step (lease : String) (config : LeaseConfig) (admits : Transit → Prop) :
    Sojourn → Sojourn → Prop
  | elapse {s : Sojourn} {now : Nat} (wallClock : Timestamp) (later : s.site.now ≤ now) :
      Step lease config admits s { s with site := { s.site with now, wallClock } }
  | disturb {s : Sojourn} {object : LeaseObject}
      (disturbed : s.site.object.Disturbed lease config.holder s.site.now object) :
      Step lease config admits s { s with site := { s.site with object } }
  | effect {s : Sojourn} {call : LeaseCall} {transit : Transit}
      (waiting : s.site.errand? = some ⟨call, transit, none⟩) :
      Step lease config admits s { s with site := s.site.effect lease call transit }
  | start {s : Sojourn} (running : s.stage = .running) :
      Step lease config admits s { s with coordinator := s.coordinator.start.1 }
  | poll {s : Sojourn} {next : Transit} {coordinator : Coordinator} {site : Site}
      (admitted : admits next)
      (polled : s.coordinator.poll (Site.access lease next) s.site = some (coordinator, site)) :
      Step lease config admits s { s with coordinator, site }
  | settle {s : Sojourn} {coordinator : Coordinator}
      (settled : s.coordinator.settle = some coordinator) :
      Step lease config admits s { s with coordinator }
  | close {s : Sojourn} (running : s.stage = .running) :
      Step lease config admits s
        { s with
          coordinator := (s.coordinator.close s.site).1
          stage := .closing (s.coordinator.close s.site).2 }
  | conclude {s : Sojourn} {closing : Closing} {next : Transit}
      {progress : Progress (Site × Coordinator) Closing (Except TimerError Unit)}
      (stage : s.stage = .closing closing) (admitted : admits next)
      (stepped : s.coordinator.closeStep (Site.access lease next) s.site closing =
        some progress) :
      Step lease config admits s (s.conclude closing progress)

/-- A coordinator is created while the object is not leased in its name. -/
inductive Reachable (lease : String) (config : LeaseConfig) (admits : Transit → Prop) :
    Sojourn → Prop
  | start {c : Coordinator} {object : LeaseObject} (now : Nat) (wallClock : Timestamp)
      (created : Coordinator.create lease config = .ok c)
      (strange : ¬ object.BelongsTo config.holder) :
      Reachable lease config admits ⟨⟨now, wallClock, object, none, []⟩, c, .running, none⟩
  | step {s t : Sojourn} : Reachable lease config admits s → Step lease config admits s t →
      Reachable lease config admits t

variable {lease : String} {config : LeaseConfig} {admits : Transit → Prop} {s t : Sojourn}
  {c c' : Coordinator} {site site' : Site} {next : Transit} {closing : Closing}
  {progress : Progress (Site × Coordinator) Closing (Except TimerError Unit)}

/-- The identities under which the lease was to be released, the latest
first. -/
def released (s : Sojourn) : List Identifier := s.site.sent.filterMap LeaseCall.released?

/-- How far a shutdown has come, and what it has released. -/
inductive Accounts (c : Coordinator) (released : List Identifier) :
    SojournStage → Option (Except TimerError Unit × Option Identifier) → Prop
  | running (kept : released = []) : Accounts c released .running none
  | stopping {wait : StopWait} (kept : released = []) :
      Accounts c released (.closing (.stopping wait)) none
  | releasing {held : Identifier} {transit : Transit} {stopped : Except TimerError Unit}
      (gone : c.timer.loop = none) (one : released = [held]) :
      Accounts c released (.closing (.releasing held transit stopped)) (some (stopped, some held))
  | closed {result : Except TimerError Unit} {held? : Option Identifier}
      (gone : c.timer.loop = none) (unheld : c.status.held = none)
      (all : released = held?.toList) : Accounts c released (.closed result) (some (result, held?))

def IsAccounted (s : Sojourn) : Prop := Accounts s.coordinator s.released s.stage s.stop?

theorem IsAccounted.at_stage (hs : s.IsAccounted) {stage : SojournStage} (h : s.stage = stage) :
    Accounts s.coordinator s.released stage s.stop? :=
  h ▸ hs

theorem released_send {call : LeaseCall} (h : ∀ holder, call ≠ .release holder) (site : Site)
    (transit : Transit) :
    (site.send call transit).sent.filterMap LeaseCall.released? =
      site.sent.filterMap LeaseCall.released? := by
  cases call with
  | release holder => exact absurd rfl (h holder)
  | acquire | renew | ensure => rfl

theorem released_after (turn : ContenderTurn) (contender : Contender) (waiting : ContenderCall) :
    (site.after lease turn contender waiting next).sent.filterMap LeaseCall.released? =
      site.sent.filterMap LeaseCall.released? := by
  have hsent := Site.sent_perform lease waiting.transit site (contender.call waiting.phase)
    waiting.transit
  unfold Site.after
  split
  · rw [hsent]
  · rw [released_send (Contender.call_ne_release _ _), hsent]

/-- A coordinator at work releases nothing. -/
theorem released_poll (h : c.poll (Site.access lease next) site = some (c', site')) :
    site'.sent.filterMap LeaseCall.released? = site.sent.filterMap LeaseCall.released? := by
  cases Coordinator.turns_of_poll h with
  | rests => rfl
  | asks => exact released_send (Contender.call_ne_release _ _) site next
  | hears _ follows =>
      rw [(Site.of_follows follows).2]
      exact released_after _ _ _

theorem loop_of_poll (h : c.poll (Site.access lease next) site = some (c', site')) :
    c.timer.loop ≠ none := by
  obtain ⟨loop, _, hloop, -⟩ := Coordinator.moves_of_poll h
  simp [hloop]

section

variable {released : List Identifier} {stage : SojournStage}
  {stop? : Option (Except TimerError Unit × Option Identifier)}

theorem Accounts.of_running (h : Accounts c released .running stop?) :
    released = [] ∧ stop? = none := by
  cases h with
  | running kept => exact ⟨kept, rfl⟩

theorem Accounts.of_stopping {wait : StopWait}
    (h : Accounts c released (.closing (.stopping wait)) stop?) :
    released = [] ∧ stop? = none := by
  cases h with
  | stopping kept => exact ⟨kept, rfl⟩

theorem Accounts.of_releasing {held : Identifier} {transit : Transit}
    {stopped : Except TimerError Unit}
    (h : Accounts c released (.closing (.releasing held transit stopped)) stop?) :
    c.timer.loop = none ∧ released = [held] ∧ stop? = some (stopped, some held) := by
  cases h with
  | releasing gone one => exact ⟨gone, one, rfl⟩

theorem Accounts.of_closed {result : Except TimerError Unit}
    (h : Accounts c released (.closed result) stop?) :
    c.timer.loop = none ∧ c.status.held = none ∧
      ∃ held?, stop? = some (result, held?) ∧ released = held?.toList := by
  cases h with
  | closed gone unheld all => exact ⟨gone, unheld, _, rfl, all⟩

/-- While there is a loop, nothing has been released. -/
theorem Accounts.of_loop (h : Accounts c released stage stop?) (hloop : c.timer.loop ≠ none) :
    Accounts c' released stage stop? := by
  cases h with
  | running kept => exact .running kept
  | stopping kept => exact .stopping kept
  | releasing gone _ | closed gone _ _ => exact absurd gone hloop

theorem Accounts.settle (h : Accounts c released stage stop?) (hsettle : c.settle = some c') :
    Accounts c' released stage stop? := by
  have htimer := Coordinator.timer_settle hsettle
  have hstatus := (Coordinator.quiet_settle hsettle).status
  cases h with
  | running kept => exact .running kept
  | stopping kept => exact .stopping kept
  | releasing gone one => exact .releasing (htimer ▸ gone) one
  | closed gone unheld all => exact .closed (htimer ▸ gone) (hstatus ▸ unheld) all

end

theorem IsAccounted.conclude (hs : s.IsAccounted) (hstage : s.stage = .closing closing)
    (hdeparts : Coordinator.Departs (Site.access lease next) s.site s.coordinator closing
      progress) :
    (s.conclude closing progress).IsAccounted := by
  cases hdeparts with
  | @releases wait held transit site' c' stop stopped holds sent timer _ _ =>
      rw [Site.reportAll_eq] at sent
      obtain ⟨rfl, rfl⟩ := Prod.mk.inj sent
      have stopped : s.coordinator.timer.stopResult? wait s.site.now = some stop := stopped
      obtain ⟨hkept, -⟩ := (hs.at_stage hstage).of_stopping
      have hnoted : s.stopNoted (.stopping wait) = some (stop.2.1, some held) := by
        simp [stopNoted, stopped, holds]
      unfold IsAccounted Sojourn.conclude
      rw [hnoted]
      apply Accounts.releasing
      · rw [timer]
        exact (Timer.of_stopResult? stopped).1
      · exact congrArg (held :: ·) hkept
  | @leaves wait site' c' stop stopped unheld reports timer _ status =>
      rw [Site.reportAll_eq] at reports
      subst reports
      have stopped : s.coordinator.timer.stopResult? wait s.site.now = some stop := stopped
      obtain ⟨hkept, -⟩ := (hs.at_stage hstage).of_stopping
      have hnoted : s.stopNoted (.stopping wait) = some (stop.2.1, none) := by
        simp [stopNoted, stopped, unheld]
      unfold IsAccounted Sojourn.conclude
      rw [hnoted]
      apply Accounts.closed
      · rw [timer]
        exact (Timer.of_stopResult? stopped).1
      · exact status ▸ unheld
      · exact hkept
  | @returns held transit stopped site' c' event answered timer _ status =>
      obtain ⟨hgone, hone, hstop⟩ := (hs.at_stage hstage).of_releasing
      have hnoted : s.stopNoted (.releasing held transit stopped) = some (stopped, some held) :=
        hstop
      have hsent : site'.sent = s.site.sent := by
        rw [answered]
        exact Site.sent_perform lease next s.site (.release held) transit
      unfold IsAccounted Sojourn.conclude
      rw [hnoted]
      apply Accounts.closed
      · exact timer ▸ hgone
      · rw [status]
        exact Status.held_publish _ _
      · simp only [released, hsent]
        exact hone

theorem IsAccounted.step (hs : s.IsAccounted) (h : Step lease config admits s t) :
    t.IsAccounted := by
  cases h with
  | elapse | disturb | effect => exact hs
  | start running =>
      obtain ⟨hkept, hstop⟩ := (hs.at_stage running).of_running
      unfold IsAccounted
      simp only [running, hstop]
      exact .running hkept
  | poll admitted polled =>
      have hkept := released_poll polled
      unfold IsAccounted
      simp only [released, hkept]
      exact Accounts.of_loop hs (loop_of_poll polled)
  | settle settled => exact Accounts.settle hs settled
  | close running =>
      obtain ⟨hkept, hstop⟩ := (hs.at_stage running).of_running
      unfold IsAccounted
      simp only [hstop]
      exact .stopping hkept
  | conclude stage admitted stepped =>
      exact hs.conclude stage (Coordinator.departs_of_closeStep stepped)

theorem Reachable.isAccounted (h : Reachable lease config admits s) : s.IsAccounted := by
  induction h with
  | start => exact .running rfl
  | step _ hstep ih => exact ih.step hstep

end Sojourn

end LeasedListener
