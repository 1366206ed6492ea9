import LeasedListener.Proofs.Leadership.Faultless

/-!
# Retention of the lease

A coordinator goes on from step to step until it is closed.  While its last
grant is younger than the lease and the service is faultless, its renewals
succeed, so it does not lose the lease in the meantime.
-/

namespace LeasedListener

namespace Coordinator

variable {access : LeaseAccess (World × List CallRecord)} {c c' : Coordinator}
  {env env' : World × List CallRecord} {contender : Contender} {status : Status}
  {waiting : ContenderCall} {cancelled : Bool} {timer : String}
  {progress : Progress (((World × List CallRecord) × Status) × Contender) ContenderCall
    (Except StorageError Unit)}

theorem drive_advance_ne_died
    (hadvance : (drive access).advance (env, status) contender cancelled waiting = some progress) :
    ∀ after reason, progress ≠ .died after reason := by
  simp only [drive] at hadvance
  split at hadvance
  · split at hadvance
    · rw [← Option.some.inj hadvance]
      simp [place]
    · rw [← Option.some.inj hadvance]
      simp
  · simp at hadvance

theorem live_of_afterStep {d : Drive ((World × List CallRecord) × Status) Contender ContenderCall}
    (halive : ∀ after reason, progress ≠ .died after reason) :
    ∃ contender state, (TimerLoop.afterStep d timer cancelled progress).1 =
      .live contender cancelled state := by
  cases progress with
  | continues after phase => exact ⟨_, _, rfl⟩
  | ended after result => cases result <;> exact ⟨_, _, rfl⟩
  | died after reason => exact absurd rfl (halive after reason)

/-- Only a stop ends the loop of a coordinator. -/
theorem isEngaged_poll (h : c.poll access env = some (c', env')) :
    c'.timer.isEngaged = c.timer.isEngaged := by
  obtain ⟨loop, loop', hloop, hcoordinator, hmoves⟩ := moves_of_poll h
  have hloop' : c'.timer.loop = some loop' := by rw [hcoordinator]
  generalize hbefore : (env, c.status) = before at hmoves
  generalize hafter : (env', c'.status) = after at hmoves
  cases hmoves with
  | @advances contender cancelled waiting progress _ _ hadvance hstep =>
      subst hbefore
      obtain ⟨_, _, hlive⟩ := live_of_afterStep (drive_advance_ne_died hadvance)
      rw [hstep] at hlive
      subst hlive
      simp [Timer.isEngaged, hloop, hloop']
  | begins _ hstep =>
      obtain ⟨hlive, -⟩ := Prod.mk.inj hstep
      subst hlive
      simp [Timer.isEngaged, hloop, hloop']
  | waits => simp [Timer.isEngaged, hloop, hloop']
  | returns => simp [Timer.isEngaged, hloop, hloop']

end Coordinator

namespace Contender

variable {c : Contender} {status : Status} {now : Nat} {phase : ContenderPhase}

theorem phase_eq_renewing (hplain : phase.isRepair = false) {lease : Identifier}
    (hlease : phase.lease? = some lease) : phase = .renewing lease := by
  cases phase with
  | acquiring | creating => simp [ContenderPhase.lease?] at hlease
  | renewing held => rw [Option.some.inj hlease]
  | recreating held | reclaiming held => simp [ContenderPhase.isRepair] at hplain

end Contender

namespace Contestant

variable {admits : Transit → Prop} {lease : String} {config : LeaseConfig} {s : Contestant}
  {w w' : World} {transit : Transit} {c : Coordinator} {calls' : List CallRecord}

/-- A renewal in good time succeeds. -/
theorem Sound.heard_renewal
    (hs : s.Sound lease config admits w.now (w.container.get lease))
    (hheld : s.hasLease) (hfresh : s.IsFresh w.now) {contender : Contender} {sent : Transit}
    (hfaultless : sent.IsFaultless) :
    (Coordinator.heard lease w contender s.coordinator.status
      ⟨.renewing config.holder, sent⟩).status = s.coordinator.status := by
  obtain ⟨granted, hgranted, hyoung⟩ := hfresh
  rw [hs.configured] at hyoung
  obtain ⟨active, hobject, hmine, -⟩ := hs.backed hheld granted hgranted hyoung
  have hreply : (w.callLease lease (.renew config.holder) sent).2 = .ok () := by
    rw [(World.callLease_of_faultless hfaultless w lease (.renew config.holder)).2, hobject]
    simp only [LeaseCall.run, LeaseObject.renew, if_pos hmine]
    rfl
  change (contender.answer s.coordinator.status w.now (.renewing config.holder)
    (w.callLease lease (.renew config.holder) sent).2).status = s.coordinator.status
  rw [hreply]
  rfl

theorem Sound.retains (hs : s.Sound lease config admits w.now (w.container.get lease))
    (hsteady : s.Steady (w.container.get lease))
    (hfaultless : ∀ t, admits t → Transit.IsFaultless t) (hheld : s.hasLease)
    (hfresh : s.IsFresh w.now)
    (hpoll : s.coordinator.poll (World.witnessed lease transit) (w, s.calls) =
      some (c, w', calls')) : c.hasLease := by
  have hsame : c.status = s.coordinator.status := by
    cases Coordinator.turn_of_poll hpoll with
    | rest hquiet henv => exact hquiet.status
    | ask _ _ hstatus _ => exact hstatus
    | hear contender waiting _ hwaiting _ _ hstatus _ _ =>
        obtain ⟨held, hsome⟩ := Option.isSome_iff_exists.mp hheld
        have hlease : waiting.phase.lease? = some held := (hs.fits waiting hwaiting).trans hsome
        have hphase : waiting.phase = .renewing config.holder := by
          rw [Contender.phase_eq_renewing (hsteady.plain waiting hwaiting) hlease,
            hs.identity held hsome]
        have hsent : waiting.transit.IsFaultless :=
          hfaultless waiting.transit (hs.admitted waiting hwaiting)
        obtain ⟨phase, sent⟩ := waiting
        subst hphase
        exact hstatus.trans (hs.heard_renewal hheld hfresh hsent)
  rw [Coordinator.hasLease, hsame]
  exact hheld

end Contestant

end LeasedListener
