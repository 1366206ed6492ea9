import LeasedListener.Host.Basic
import LeasedListener.Proofs.Timer.Transitions

/-!
# Hosts in singleton mode

A transition of such a host is one of its coordinator or of its supervisor.  A
shutdown waits for the supervisor and closes the coordinator afterwards.
-/

namespace LeasedListener

open Surroundings

namespace Coordinator

variable {lease : String} {config : LeaseConfig} {c : Coordinator}

theorem start_of_create (h : create lease config = .ok c) :
    c.start.2.1 = .ok () ∧ c.start.1.timer.isEngaged = true := by
  unfold create at h
  split at h
  · simp at h
  · rw [← Except.ok.inj h]
    exact ⟨rfl, rfl⟩

end Coordinator

namespace Host

variable {Env : Type} [Surroundings Env] {a : HostAccess Env} {h h' : Host} {env env' : Env}
  {c : Coordinator} {s : Supervisor}

theorem of_startSingleton {config : HostConfig} {lease : String} {poller : Poller}
    (hstart : startSingleton config lease poller env = (.ok h, env')) :
    ∃ c events, Coordinator.create lease config.lease = .ok c ∧
      h.mode = .singleton c.start.1 (.create poller) ∧ env' = reportAll env events := by
  unfold startSingleton at hstart
  split at hstart
  · simp at hstart
  · next c hcreated =>
      obtain ⟨hstarted, -⟩ := Coordinator.start_of_create hcreated
      split at hstart
      · simp at hstart
      · next started _ events hresult =>
          obtain ⟨hhost, henv⟩ := Prod.mk.inj hstart
          refine ⟨c, events, hcreated, ?_, henv.symm⟩
          rw [← Except.ok.inj hhost, hresult]

theorem of_start {config : HostConfig} {lease queue : String} {poison : Option String}
    (hsingleton : config.singleton = true)
    (hstart : start config lease queue poison env = (.ok h, env')) :
    ∃ c poller events, Coordinator.create lease config.lease = .ok c ∧
      h.mode = .singleton c.start.1 (.create poller) ∧ env' = reportAll env events := by
  unfold start at hstart
  split at hstart
  · simp at hstart
  · simp only [hsingleton, if_true] at hstart
    split at hstart
    · next host after hstarted =>
        obtain ⟨c, events, hcreated, hmode, hreports⟩ := of_startSingleton hstarted
        obtain ⟨hhost, henv⟩ := Prod.mk.inj hstart
        obtain rfl := Except.ok.inj hhost
        refine ⟨c, _, events ++ [.hostStarted config.queueName config.leaseName true], hcreated,
          hmode, ?_⟩
        rw [← henv, hreports]
        simp [reportAll]
    · next hfailed => exact absurd hstart (hfailed h env')

theorem of_pollLease (hmode : h.mode = .singleton c s)
    (hpoll : h.pollLease a env = some (h', env')) :
    ∃ c', c.poll a.lease env = some (c', env') ∧ h'.mode = .singleton c' s := by
  simp only [pollLease, hmode, Option.map_eq_some_iff, Prod.mk.injEq] at hpoll
  obtain ⟨⟨c', after⟩, hpolled, rfl, rfl⟩ := hpoll
  exact ⟨c', hpolled, rfl⟩

theorem of_settle (hmode : h.mode = .singleton c s) (hsettle : h.settle = some h') :
    ∃ c', c.settle = some c' ∧ h'.mode = .singleton c' s := by
  simp only [settle, hmode, Option.map_eq_some_iff] at hsettle
  obtain ⟨c', hsettled, rfl⟩ := hsettle
  exact ⟨c', hsettled, rfl⟩

theorem of_supervise (hmode : h.mode = .singleton c s)
    (hsupervise : h.supervise env = some (h', env')) :
    ∃ s', s.advance c.status c.isClosed env = some (s', env') ∧ h'.mode = .singleton c s' := by
  simp only [supervise, hmode, Option.map_eq_some_iff, Prod.mk.injEq] at hsupervise
  obtain ⟨⟨s', after⟩, hadvance, rfl, rfl⟩ := hsupervise
  exact ⟨s', hadvance, rfl⟩

theorem of_pollListener (hmode : h.mode = .singleton c s)
    (hpoll : h.pollListener a env = some (h', env')) :
    ∃ s', s.pollListener a.poller env = some (s', env') ∧ h'.mode = .singleton c s' := by
  simp only [pollListener, hmode, Option.map_eq_some_iff, Prod.mk.injEq] at hpoll
  obtain ⟨⟨s', after⟩, hpolled, rfl, rfl⟩ := hpoll
  exact ⟨s', hpolled, rfl⟩

theorem close_of_singleton (hmode : h.mode = .singleton c s) (env : Env) :
    (h.close env).1.mode = .singleton c s.cancel ∧ (h.close env).2 = .joining := by
  simp [close, hmode]

theorem advance_eq_some (hadvance : h.advance a env = some (h', env')) :
    (h.settle = some h' ∧ env' = env) ∨ h.pollLease a env = some (h', env') ∨
      h.supervise env = some (h', env') ∨ h.pollListener a env = some (h', env') := by
  simp only [advance, Option.orElse_eq_orElse, Option.orElse_eq_or, Option.or_eq_some_iff,
    Option.map_eq_some_iff, Prod.mk.injEq] at hadvance
  rcases hadvance with ⟨settled, hsettled, hhost, henv⟩ | ⟨-, hadvance⟩
  · rw [← hhost]
    exact .inl ⟨hsettled, henv.symm⟩
  · exact .inr (hadvance.imp_right fun hrest => hrest.2.imp_right And.right)

/-- The shutdown goes on with the coordinator once the supervisor has ended. -/
theorem of_closeStep_continues {closing closing' : HostClosing}
    (hmode : h.mode = .singleton c s)
    (hstep : h.closeStep a env closing = some (.continues (env', h') closing')) :
    (∃ supervised, s.result? = some supervised ∧ (∀ result step, closing ≠ .leaving result step) ∧
      h'.mode = .singleton (c.close env).1 s ∧ env' = env ∧
      closing' = .leaving supervised (c.close env).2) ∨
    (∃ supervised step c' step', closing = .leaving supervised step ∧
      c.closeStep a.lease env step = some (.continues (env', c') step') ∧
      h'.mode = .singleton c' s ∧ closing' = .leaving supervised step') := by
  cases closing with
  | leaving supervised step =>
      right
      simp only [closeStep, hmode, Option.map_eq_some_iff] at hstep
      obtain ⟨progress, hprogress, hresult⟩ := hstep
      cases progress with
      | continues after step' =>
          simp only [Progress.continues.injEq, Prod.mk.injEq] at hresult
          obtain ⟨⟨rfl, rfl⟩, rfl⟩ := hresult
          exact ⟨supervised, step, after.2, step', rfl, hprogress, rfl, rfl⟩
      | ended after result => simp at hresult
      | died after reason => simp at hresult
  | joining | stopping =>
      left
      simp only [closeStep, hmode, Option.map_eq_some_iff] at hstep
      obtain ⟨supervised, hsupervised, hresult⟩ := hstep
      simp only [Progress.continues.injEq, Prod.mk.injEq] at hresult
      obtain ⟨⟨rfl, rfl⟩, rfl⟩ := hresult
      exact ⟨supervised, hsupervised, by simp, rfl, rfl, rfl⟩

theorem of_closeStep_ended {closing : HostClosing} {result : Except TimerError Unit}
    (hmode : h.mode = .singleton c s)
    (hstep : h.closeStep a env closing = some (.ended (env', h') result)) :
    ∃ supervised step after c' released, closing = .leaving supervised step ∧
      c.closeStep a.lease env step = some (.ended (after, c') released) ∧
      h'.mode = .singleton c' s ∧ env' = report after .hostStopped := by
  cases closing with
  | leaving supervised step =>
      simp only [closeStep, hmode, Option.map_eq_some_iff] at hstep
      obtain ⟨progress, hprogress, hresult⟩ := hstep
      cases progress with
      | continues after step' => simp at hresult
      | ended after released =>
          simp only [Progress.ended.injEq, Prod.mk.injEq] at hresult
          obtain ⟨⟨rfl, rfl⟩, -⟩ := hresult
          exact ⟨supervised, step, after.1, after.2, released, rfl, hprogress, rfl, rfl⟩
      | died after reason => simp at hresult
  | joining | stopping =>
      simp only [closeStep, hmode, Option.map_eq_some_iff] at hstep
      obtain ⟨supervised, -, hresult⟩ := hstep
      simp at hresult

end Host

end LeasedListener
