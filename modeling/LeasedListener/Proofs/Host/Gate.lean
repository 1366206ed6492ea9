import LeasedListener.Proofs.Host.Parts

/-!
# The gate of a host

A step of a host is a turn of its listener, which is started, asked to stop or
done with a stop, or a play of the poller.  Whenever the listener does not
listen, its poller has been told to begin no further tick.
-/

namespace LeasedListener

open Surroundings

variable {Env κ : Type}

variable [Surroundings Env]

theorem Does.record {a : PollerAccess Env} {env env' : Env × List Doing} {doings : List Doing}
    (h : Does a.logged env doings env') : env'.2 = doings ++ env.2 := by
  induction h with
  | rest => rfl
  | report event _ ih => exact ih
  | mark m _ ih => exact congrArg (List.cons _) ih
  | begin role call _ ih => cases role <;> exact congrArg (List.cons _) ih
  | hear role call transit _ ih => cases role <;> exact congrArg (List.cons _) ih
  | start m _ ih => exact congrArg (List.cons _) ih
  | finish execution result _ ih => exact congrArg (List.cons _) ih

theorem snd_reportAll (env : Env × κ) (events : List Event) : (reportAll env events).2 = env.2 := by
  rw [← Prod.eta env, reportAll_pair]

namespace Coordinator

/-- What neither the calls of a coordinator nor their answers change, a
transition of its loop does not change. -/
theorem kept_of_poll {access : LeaseAccess Env} {c c' : Coordinator} {env env' : Env}
    {f : Env × Status → κ} (hreport : ∀ env event, f (report env event) = f env)
    (hissue : ∀ env (contender : Contender) phase,
      f ((access.issue env.1 (contender.call phase)).1, env.2) = f env)
    (hhear : ∀ env (contender : Contender) phase transit,
      f ((access.perform env.1 (contender.call phase) transit).1,
        (contender.answer env.2 (now env) phase
          (access.perform env.1 (contender.call phase) transit).2).status) = f env)
    (h : c.poll access env = some (c', env')) : f (env', c'.status) = f (env, c.status) := by
  have hreports : ∀ (events : List Event) (env : Env) (status : Status),
      f (reportAll env events, status) = f (env, status) := by
    intro events
    induction events with
    | nil => exact fun env status => rfl
    | cons event events ih =>
        exact fun env status => (ih (report env event) status).trans (hreport (env, status) event)
  simp only [poll, Option.map_eq_some_iff, Prod.mk.injEq] at h
  obtain ⟨⟨timer, after, status⟩, hpoll, rfl, rfl⟩ := h
  refine Timer.kept_of_poll hreport ?_ ?_ hpoll
  · exact fun env contender => hissue env contender (Contender.firstPhase env.2)
  · intro env contender cancelled waiting progress hadvance
    have hheard := hhear env contender waiting.phase waiting.transit
    simp only [drive] at hadvance
    split at hadvance
    · split at hadvance
      · obtain rfl := Option.some.inj hadvance
        exact (hissue (_, _) _ _).trans ((hreports _ _ _).trans hheard)
      · obtain rfl := Option.some.inj hadvance
        exact (hreports _ _ _).trans hheard
    · simp at hadvance

variable {access : LeaseAccess Env} {c c' : Coordinator} {env env' : Env × κ}

theorem snd_poll (h : c.poll (LeaseAccess.beside access) env = some (c', env')) :
    env'.2 = env.2 := by
  refine kept_of_poll (f := fun env : (Env × κ) × Status => env.1.2) ?_ ?_ ?_ h
  · exact fun env event => rfl
  · exact fun env contender phase => rfl
  · exact fun env contender phase transit => rfl

theorem snd_closeStep {closing : Closing}
    {progress : Progress ((Env × κ) × Coordinator) Closing (Except TimerError Unit)}
    (h : c.closeStep (LeaseAccess.beside access) env closing = some progress) :
    progress.env.1.2 = env.2 := by
  cases departs_of_closeStep h with
  | releases _ _ sent _ _ _ =>
      obtain ⟨rfl, -⟩ := Prod.mk.inj sent
      exact snd_reportAll _ _
  | leaves _ _ reports _ _ _ =>
      subst reports
      exact snd_reportAll _ _
  | returns answered _ _ _ =>
      subst answered
      rfl

end Coordinator

/-- Whether a listener listens, and the stop that it waits for, are the same. -/
structure Listener.SameStop (l l' : Listener) : Prop where
  poller : l'.poller = l.poller
  listening : l'.isListening = l.isListening
  stopping : ∀ timer' wait, l'.state = .stopping timer' wait →
    ∃ timer, l.state = .stopping timer wait

theorem Listener.sameStop_of_poll {a : PollerAccess Env} {l l' : Listener} {env env' : Env}
    (h : l.poll a env = some (l', env')) : l.SameStop l' := by
  have hlistening : l'.isListening = l.isListening := (Listener.of_poll h).2
  unfold poll at h
  split at h
  · simp at h
  · next timer hstate =>
      simp only [Option.map_eq_some_iff, Prod.mk.injEq] at h
      obtain ⟨⟨timer', after⟩, -, rfl, -⟩ := h
      exact ⟨rfl, hlistening, by simp⟩
  · next timer wait hstate =>
      simp only [Option.map_eq_some_iff, Prod.mk.injEq] at h
      obtain ⟨⟨timer', after⟩, -, rfl, -⟩ := h
      refine ⟨rfl, hlistening, ?_⟩
      intro _ _ hstopping
      obtain ⟨-, rfl⟩ := ListenerState.stopping.inj hstopping
      exact ⟨timer, hstate⟩

/-- What becomes of a listener but for the transitions of its poller. -/
inductive Listener.Turn (env : Env) (mayStart : Prop) (l l' : Listener) : Prop
  | kept (same : l' = l)
  | asked (stopping : l' = l.stop env)
  | ended (timer : PollerTimer) (wait : StopWait) (state : l.state = .stopping timer wait)
      (settled : (timer.stopResult? wait (now env)).isSome = true)
      (idle : l' = { l with state := .idle })
  | started (reason : mayStart) (begins : l' = (l.start env).1)

theorem Listener.Turn.imp {l l' : Listener} {env : Env} {mayStart mayStart' : Prop}
    (h : l.Turn env mayStart l') (hreason : mayStart → mayStart') : l.Turn env mayStart' l' := by
  cases h with
  | kept same => exact .kept same
  | asked stopping => exact .asked stopping
  | ended timer wait state settled idle => exact .ended timer wait state settled idle
  | started reason begins => exact .started (hreason reason) begins

theorem Listener.turn_of_stopped? {l l' : Listener} {env env' : Env} (mayStart : Prop)
    {result : Except TimerError Unit} (h : l.stopped? env = some (l', env', result)) :
    l.Turn env mayStart l' ∧ ∃ events, env' = reportAll env events := by
  unfold stopped? at h
  split at h
  · next timer wait hstate =>
      simp only [Option.map_eq_some_iff, Prod.mk.injEq] at h
      obtain ⟨stopped, hstopped, rfl, rfl, -⟩ := h
      exact ⟨.ended timer wait hstate (by rw [hstopped]; rfl) rfl, _, rfl⟩
  · simp only [Option.some.injEq, Prod.mk.injEq] at h
    obtain ⟨rfl, rfl, -⟩ := h
    exact ⟨.kept rfl, [], rfl⟩

namespace Supervisor

variable {s s' : Supervisor} {status : Status} {closed : Bool} {env env' : Env}

def HasSeenHeld (status : Status) (s' : Supervisor) : Prop :=
  status.isHeld = true ∧ s'.seen = status.version

theorem follow_turn (s : Supervisor) (status : Status) (env : Env) :
    s.listener.Turn env (HasSeenHeld status (s.follow status env).1)
      (s.follow status env).1.listener ∧
    ∃ events, (s.follow status env).2 = reportAll env events := by
  unfold follow
  split
  · next hheld => exact ⟨.started ⟨hheld, rfl⟩ rfl, s.listener.start_reports env⟩
  · exact ⟨.asked rfl, [], rfl⟩

theorem advance_turn (h : s.advance status closed env = some (s', env')) :
    s.listener.Turn env (HasSeenHeld status s') s'.listener ∧
      ∃ events, env' = reportAll env events := by
  cases advances_of_advance h with
  | follows _ => exact s.follow_turn status env
  | ends _ _ => exact ⟨.asked rfl, [], rfl⟩
  | @eases _ _ _ _ events _ stopped =>
      obtain ⟨hturn, earlier, hreports⟩ := Listener.turn_of_stopped? _ stopped
      exact ⟨hturn, earlier ++ events, by simp [hreports, reportAll]⟩

end Supervisor

namespace HostRun

/-- The supervisor has just read that the lease is held. -/
def MayStart (s t : HostRun Env) : Prop :=
  ∃ coordinator supervisor supervisor', s.host.mode = .singleton coordinator supervisor ∧
    t.host.mode = .singleton coordinator supervisor' ∧
    Supervisor.HasSeenHeld coordinator.status supervisor'

/-- What a step is for the listener: a turn of its own, or a play of its
poller. -/
inductive Attends (s t : HostRun Env) : Prop
  | turned (turn : s.host.listener.Turn (s.env, s.doings) (MayStart s t) t.host.listener)
      (record : t.doings = s.doings)
  | played {timer : PollerTimer} {loop loop' : PollerLoop} {new : List Doing}
      (before : s.host.listener.timer? = some timer) (going : timer.loop = some loop)
      (plays : Plays s.host.listener.poller loop new loop')
      (after : t.host.listener.timer? = some { timer with loop := some loop' })
      (same : s.host.listener.SameStop t.host.listener) (record : t.doings = new ++ s.doings)

variable {s t u : HostRun Env}

theorem attends_of_listens {listener : Listener} {a : HostAccess Env} {env : Env}
    {doings : List Doing}
    (h : s.host.listener.poll a.logged.poller (s.env, s.doings) = some (listener, env, doings))
    (hlistener : t.host.listener = listener) (hrecord : t.doings = doings) : Attends s t := by
  obtain ⟨⟨timer, timer', hbefore, hafter, hpoll⟩, -⟩ := Listener.of_poll h
  obtain ⟨loop, loop', new, hgoing, htimer, hdoes, hplays⟩ := poll_performs hpoll
  refine .played hbefore hgoing hplays ?_ ?_ ?_
  · rw [hlistener, hafter, htimer]
  · rw [hlistener]
    exact Listener.sameStop_of_poll h
  · rw [hrecord]
    exact hdoes.record

theorem attends_of_apart (hlistener : t.host.listener = s.host.listener)
    (hrecord : t.doings = s.doings) : Attends s t :=
  .turned (.kept hlistener) hrecord

/-- The coordinator of a singleton has no part in what the listener does. -/
theorem Works.attends {permitted : HostAccess Env → Prop} {c c' : Coordinator}
    {v v' : Supervisor} (h : Works permitted s t c v c' v')
    (hmode : s.host.mode = .singleton c v) (hmode' : t.host.mode = .singleton c' v') :
    Attends s t := by
  have hlistener : s.host.listener = v.listener := by simp [Host.listener, hmode]
  have hlistener' : t.host.listener = v'.listener := by simp [Host.listener, hmode']
  have hapart : v'.listener = v.listener → t.doings = s.doings → Attends s t :=
    fun hsame hrecord => attends_of_apart (by rw [hlistener, hlistener', hsame]) hrecord
  cases h with
  | contends _ polled supervisor _ =>
      exact hapart (by rw [supervisor]) (Coordinator.snd_poll polled)
  | settles _ _ record supervisor _ => exact hapart (by rw [supervisor]) record
  | supervises advanced coordinator _ =>
      obtain ⟨hturn, events, hreports⟩ := Supervisor.advance_turn advanced
      rw [← hlistener, ← hlistener'] at hturn
      have hrecord : (t.env, t.doings).2 = s.doings := by rw [hreports, snd_reportAll]
      rw [coordinator] at hmode'
      exact .turned (hturn.imp fun hseen => ⟨c, v, v', hmode, hmode', hseen⟩) hrecord
  | listens _ polled _ _ =>
      simp only [Supervisor.pollListener, Option.map_eq_some_iff, Prod.mk.injEq] at polled
      obtain ⟨⟨listener, after⟩, hlistens, rfl, rfl⟩ := polled
      rw [← hlistener] at hlistens
      exact attends_of_listens hlistens hlistener' rfl
  | shuts _ _ record _ supervisor _ => exact hapart (by rw [supervisor]; rfl) record
  | joins _ _ _ _ record _ supervisor _ => exact hapart (by rw [supervisor]) record
  | closes _ _ stepped supervisor _ =>
      exact hapart (by rw [supervisor]) (Coordinator.snd_closeStep stepped)
  | leaves _ _ stepped _ record supervisor _ =>
      exact hapart (by rw [supervisor]) (record.trans (Coordinator.snd_closeStep stepped))

theorem Serves.attends {l l' : Listener} (h : Serves s t l l')
    (hmode : s.host.mode = .always l) (hmode' : t.host.mode = .always l') : Attends s t := by
  have hlistener : s.host.listener = l := by simp [Host.listener, hmode]
  have hlistener' : t.host.listener = l' := by simp [Host.listener, hmode']
  cases h with
  | listens polled _ => exact attends_of_listens (hlistener ▸ polled) hlistener' rfl
  | shuts asked record => exact .turned (.asked (by rw [hlistener, hlistener', asked])) record
  | leaves _ stopped record =>
      obtain ⟨hturn, events, hreports⟩ := Listener.turn_of_stopped? (MayStart s t) stopped
      rw [← hlistener, ← hlistener'] at hturn
      exact .turned hturn (by rw [record, hreports, snd_reportAll])

theorem attends_of_step (h : Step s t) : Attends s t := by
  cases h with
  | elsewhere later => exact attends_of_apart rfl rfl
  | acts acts =>
      cases hmode : s.host.mode with
      | singleton c v =>
          obtain ⟨c', v', hmode', hworks⟩ := works_of_acts hmode acts
          exact hworks.attends hmode hmode'
      | always l =>
          obtain ⟨l', hmode', hserves⟩ := serves_of_acts hmode acts
          exact hserves.attends hmode hmode'

/-- A listener that does not listen waits for its poller to finish. -/
structure WindsDown (l : Listener) : Prop where
  finished : l.isListening = false → ∀ timer loop, l.timer? = some timer → timer.loop = some loop →
    loop.IsOver
  timed : ∀ timer wait, l.state = .stopping timer wait →
    ∃ begun, wait = .start begun l.poller.config.stopTimeout

theorem windsDown_idle {l : Listener} (h : l.state = .idle) : WindsDown l := by
  constructor
  · simp [Listener.timer?, h]
  · simp [h]

theorem windsDown_listening {l : Listener} {timer : PollerTimer} (h : l.state = .listening timer) :
    WindsDown l := by
  constructor
  · simp [Listener.isListening, h]
  · simp [h]

theorem windsDown_stop {l : Listener} (h : WindsDown l) (env : Env) : WindsDown (l.stop env) := by
  unfold Listener.stop
  split
  · next timer hstate =>
      constructor
      · intro _ timer' loop htimer hloop
        obtain rfl := Option.some.inj htimer
        simp only [Timer.cancel, Option.map_eq_some_iff] at hloop
        obtain ⟨before, -, rfl⟩ := hloop
        exact before.isOver_cancel
      · intro timer' wait hstopping
        obtain ⟨-, rfl⟩ := ListenerState.stopping.inj hstopping
        exact ⟨_, rfl⟩
  · exact h

theorem windsDown_start {l : Listener} (h : WindsDown l) (env : Env) :
    WindsDown (l.start env).1 := by
  unfold Listener.start
  split
  · exact windsDown_listening rfl
  · exact h

theorem windsDown_step (hwinds : WindsDown s.host.listener) (h : Step s t) :
    WindsDown t.host.listener := by
  cases attends_of_step h with
  | turned turn record =>
      cases turn with
      | kept same => exact same ▸ hwinds
      | asked stopping => exact stopping ▸ windsDown_stop hwinds _
      | ended timer wait state settled idle => exact windsDown_idle (by rw [idle])
      | started reason begins => exact begins ▸ windsDown_start hwinds _
  | @played timer loop loop' new before going plays after same record =>
      constructor
      · intro hsilent timer' current htimer hcurrent
        rw [same.listening] at hsilent
        have hover : loop.IsOver := hwinds.finished hsilent timer loop before going
        obtain rfl := Option.some.inj (after.symm.trans htimer)
        obtain rfl := Option.some.inj hcurrent
        exact (plays.quiet hover).2.1
      · intro timer' wait hstopping
        obtain ⟨timer, hbefore⟩ := same.stopping timer' wait hstopping
        rw [same.poller]
        exact hwinds.timed timer wait hbefore

end HostRun

end LeasedListener
