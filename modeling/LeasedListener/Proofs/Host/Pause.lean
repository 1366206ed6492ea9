import LeasedListener.Proofs.Host.Gate

/-!
# The pauses of a host

A host looks for a message only while it listens.  While it does not, the tick
under way is wound up: it takes at most the message that it was waiting for,
and the message in hand goes its way, is given up when the time for the stop is
over, or is left when the run on it breaks down.  A pause ends only after the
supervisor has seen the lease held.
-/

namespace LeasedListener

open Surroundings

variable {Env : Type}

/-- A stop that is over while a step is under way has taken too long. -/
theorem Timer.reached_of_stopResult? {Command Phase : Type} {t : Timer Command Phase}
    {wait : StopWait} {instant : Nat} {phase : Phase}
    (h : (t.stopResult? wait instant).isSome = true) (hphase : t.phase? = some phase) :
    Instant.reached instant wait.ends = true := by
  unfold phase? at hphase
  split at hphase
  · next command cancelled state hloop =>
      simp only [stopResult?, hloop] at h
      split at h
      · assumption
      · simp at h
  · simp at hphase

namespace Listener

theorem stop_of_silent [Surroundings Env] {l : Listener} (h : l.isListening = false) (env : Env) :
    l.stop env = l := by
  cases hstate : l.state with
  | idle | stopping _ _ => simp [stop, hstate]
  | listening timer => simp [isListening, hstate] at h

theorem silent_of_timer?_none {l : Listener} (h : l.timer? = none) : l.isListening = false := by
  cases hstate : l.state with
  | idle => simp [isListening, hstate]
  | listening _ | stopping _ _ => simp [timer?, hstate] at h

def phase? (l : Listener) : Option TickPhase := l.timer?.bind Timer.phase?

theorem phase?_of_timer? {l : Listener} {timer : PollerTimer} {loop : PollerLoop}
    (htimer : l.timer? = some timer) (hloop : timer.loop = some loop) :
    l.phase? = loop.phase? := by
  rw [phase?, htimer]
  exact Timer.phase?_of_loop hloop

theorem SameStop.refl (l : Listener) : l.SameStop l := ⟨rfl, rfl, fun timer _ h => ⟨timer, h⟩⟩

end Listener

/-- A host starts with an idle listener that follows the lease, or listens from
the start, with a fresh poller. -/
theorem Host.mode_of_start [Surroundings Env] {config : HostConfig} {lease queue : String}
    {poison : Option String} {env env' : Env} {host : Host}
    (started : Host.start config lease queue poison env = (.ok host, env')) :
    (∃ coordinator, host.mode =
      .singleton coordinator (.create ⟨queue, poison, config.poller⟩)) ∨
    ∃ timer pace, timer.loop = some (.live pace false (.spawned true)) ∧
      host.mode = .always ⟨⟨queue, poison, config.poller⟩, .listening timer⟩ := by
  unfold Host.start at started
  split at started
  · simp at started
  · cases hsingleton : config.singleton with
    | true =>
        simp only [hsingleton, if_true] at started
        split at started
        · next hstarted =>
            obtain ⟨coordinator, _, -, hmode, -⟩ := Host.of_startSingleton hstarted
            obtain rfl := Except.ok.inj (Prod.mk.inj started).1
            exact .inl ⟨coordinator.start.1, hmode⟩
        · next hfailed => exact absurd started (hfailed host env')
    | false =>
        simp only [hsingleton, Bool.false_eq_true, if_false, Host.startAlways] at started
        obtain rfl := Except.ok.inj (Prod.mk.inj started).1
        exact .inr ⟨_, _, rfl, rfl⟩

namespace HostRun

variable {s t u : HostRun Env} {config : HostConfig} {lease queue : String}
  {poison : Option String}

def phase? (s : HostRun Env) : Option TickPhase := s.host.listener.phase?

def hand? (s : HostRun Env) : Option Delivery := s.phase?.bind TickPhase.hand?

def isDequeuing (s : HostRun Env) : Bool := s.phase?.any TickPhase.isDequeuing

def HasStopped (s : HostRun Env) : Prop :=
  match s.host.mode with
  | .singleton _ supervisor =>
      (∃ final, supervisor.state = .stopping final) ∨ supervisor.result?.isSome = true
  | .always _ => s.stage ≠ .running

/-- The parts of a host agree on whether it has been asked to stop. -/
structure Agrees (s : HostRun Env) : Prop where
  supervised : ∀ coordinator supervisor, s.host.mode = .singleton coordinator supervisor →
    supervisor.IsOrderly
  shut : ∀ listener, s.host.mode = .always listener → s.stage ≠ .running →
    listener.isListening = false

theorem Agrees.silent (h : Agrees s) (hstopped : s.HasStopped) : s.host.isListening = false := by
  unfold HasStopped at hstopped
  split at hstopped
  · next coordinator supervisor hmode =>
      have horderly := h.supervised coordinator supervisor hmode
      simp only [Host.isListening, Host.listener, hmode]
      rcases hstopped with ⟨final, hstate⟩ | hended
      · exact horderly.asked final hstate
      · exact Listener.silent_of_timer?_none (horderly.ended hended)
  · next listener hmode =>
      simp only [Host.isListening, Host.listener, hmode]
      exact h.shut listener hmode hstopped

theorem agrees_of_supervisor {coordinator : Coordinator} {supervisor : Supervisor}
    (hmode : s.host.mode = .singleton coordinator supervisor) (h : supervisor.IsOrderly) :
    Agrees s where
  supervised := by
    intro _ _ hmode'
    obtain ⟨-, rfl⟩ := HostMode.singleton.inj (hmode.symm.trans hmode')
    exact h
  shut := by simp [hmode]

theorem agrees_of_listener {listener : Listener} (hmode : s.host.mode = .always listener)
    (h : s.stage ≠ .running → listener.isListening = false) : Agrees s where
  supervised := by simp [hmode]
  shut := by
    intro _ hmode'
    obtain rfl := HostMode.always.inj (hmode.symm.trans hmode')
    exact h

variable [Surroundings Env]

theorem agrees_step (hagrees : Agrees s) (h : Step s t) : Agrees t := by
  cases h with
  | elsewhere later => exact ⟨hagrees.supervised, hagrees.shut⟩
  | acts acts =>
      cases hmode : s.host.mode with
      | singleton c v =>
          obtain ⟨c', v', hmode', hworks⟩ := works_of_acts hmode acts
          exact agrees_of_supervisor hmode' (hworks.orderly (hagrees.supervised c v hmode))
      | always l =>
          obtain ⟨l', hmode', hserves⟩ := serves_of_acts hmode acts
          have hshut := hagrees.shut l hmode
          refine agrees_of_listener hmode' ?_
          cases hserves with
          | listens polled stage =>
              rw [stage, (Listener.of_poll polled).2]
              exact hshut
          | shuts asked _ => exact fun _ => asked ▸ l.isListening_stop _
          | leaves shut stopped _ =>
              obtain ⟨hidle, -⟩ := Listener.of_stopped? (hshut shut) stopped
              exact fun _ => Listener.silent_of_timer?_none hidle

theorem of_start {env env' : Env} {host : Host} {doings : List Doing}
    (started : Host.start config lease queue poison (env, []) = (.ok host, env', doings)) :
    host.listener.poller = ⟨queue, poison, config.poller⟩ ∧ WindsDown host.listener ∧
      Agrees ⟨env', doings, host, .running⟩ := by
  rcases Host.mode_of_start started with ⟨coordinator, hmode⟩ | ⟨timer, -, -, hmode⟩
  · have hlistener : host.listener = .create ⟨queue, poison, config.poller⟩ := by
      simp [Host.listener, hmode, Supervisor.create]
    rw [hlistener]
    exact ⟨rfl, windsDown_idle rfl, agrees_of_supervisor hmode (Supervisor.isOrderly_create _)⟩
  · have hlistener : host.listener = ⟨⟨queue, poison, config.poller⟩, .listening timer⟩ := by
      simp [Host.listener, hmode]
    rw [hlistener]
    exact ⟨rfl, windsDown_listening rfl, agrees_of_listener hmode (by simp)⟩

/-- What a step of a host that does not listen does to its tick. -/
inductive Winds (s t : HostRun Env) : Prop
  | idles (phase : t.phase? = s.phase?) (record : t.doings = s.doings)
      (same : s.host.listener.SameStop t.host.listener)
  | ends (expired : ∀ phase, s.phase? = some phase → ∃ timer wait,
        s.host.listener.state = .stopping timer wait ∧
        Instant.reached (now s.env) wait.ends = true)
      (idle : t.host.listener.state = .idle) (record : t.doings = s.doings)
  | starts (reason : MayStart s t) (idle : s.host.listener.state = .idle)
      (listens : t.host.isListening = true) (record : t.doings = s.doings)
  | plays {new : List Doing} (handles : Handles s.host.listener.poller s.phase? new t.phase?)
      (quiet : AsksForNone new) (asksNone : t.isDequeuing = false)
      (record : t.doings = new ++ s.doings) (same : s.host.listener.SameStop t.host.listener)

theorem winds_of_step (hwinds : WindsDown s.host.listener) (hsilent : s.host.isListening = false)
    (h : Step s t) : Winds s t := by
  cases attends_of_step h with
  | turned turn record =>
      cases turn with
      | kept same => exact .idles (congrArg Listener.phase? same) record (same ▸ .refl _)
      | asked stopping =>
          have hsame : t.host.listener = s.host.listener :=
            stopping.trans (Listener.stop_of_silent hsilent _)
          exact .idles (congrArg Listener.phase? hsame) record (hsame ▸ .refl _)
      | ended timer wait state settled idle =>
          refine .ends ?_ (by rw [idle]) record
          intro phase hphase
          have htimer : s.host.listener.timer? = some timer := by simp [Listener.timer?, state]
          have hphase' : timer.phase? = some phase := by
            rw [← hphase, phase?, Listener.phase?, htimer]
            rfl
          exact ⟨timer, wait, state, Timer.reached_of_stopResult? settled hphase'⟩
      | started reason begins =>
          unfold Listener.start at begins
          split at begins
          · next hidle =>
              have hlistens : t.host.isListening = true := by
                simp [Host.isListening, begins, Listener.isListening]
              exact .starts reason hidle hlistens record
          · exact .idles (congrArg Listener.phase? begins) record (begins ▸ .refl _)
  | @played timer loop loop' new before going plays after same record =>
      have hover : loop.IsOver := hwinds.finished hsilent timer loop before going
      obtain ⟨hquiet, -, hdone⟩ := plays.quiet hover
      have hbefore : s.phase? = loop.phase? := Listener.phase?_of_timer? before going
      have hafter : t.phase? = loop'.phase? := Listener.phase?_of_timer? after rfl
      have hhandles := plays.handles
      rw [← hbefore, ← hafter] at hhandles
      exact .plays hhandles hquiet (by rw [isDequeuing, hafter]; exact hdone) record same

theorem poller_step (h : Step s t) : t.host.listener.poller = s.host.listener.poller := by
  cases attends_of_step h with
  | turned turn record =>
      cases turn with
      | kept same => rw [same]
      | asked stopping =>
          rw [stopping, Listener.stop]
          split <;> rfl
      | ended timer wait state settled idle => rw [idle]
      | started reason begins =>
          rw [begins, Listener.start]
          split <;> rfl
  | played before going plays after same record => exact same.poller

structure Invariant (p : Poller) (s : HostRun Env) : Prop where
  poller : s.host.listener.poller = p
  winds : WindsDown s.host.listener
  agrees : Agrees s

theorem Invariant.step {p : Poller} (hs : s.Invariant p) (h : Step s t) : t.Invariant p where
  poller := (poller_step h).trans hs.poller
  winds := windsDown_step hs.winds h
  agrees := agrees_step hs.agrees h

theorem Reachable.invariant (h : Reachable config lease queue poison s) :
    s.Invariant ⟨queue, poison, config.poller⟩ := by
  induction h with
  | start started =>
      obtain ⟨hpoller, hwinds, hagrees⟩ := of_start started
      exact ⟨hpoller, hwinds, hagrees⟩
  | step _ next ih => exact ih.step next

/-- A stretch of a run in which the host does not listen. -/
inductive Pause (s : HostRun Env) : HostRun Env → Prop
  | rest (silent : s.host.isListening = false) : Pause s s
  | step {t u : HostRun Env} (earlier : Pause s t) (next : Step t u)
      (silent : u.host.isListening = false) : Pause s u

/-- What is done in a pause. -/
structure Paused (s t : HostRun Env) (new : List Doing) : Prop where
  record : t.doings = new ++ s.doings
  quiet : AsksForNone new
  /-- No message is taken but the one that the tick was waiting for. -/
  takes : taken new = [] ∨ s.isDequeuing = true ∧ ∃ m, taken new = [m]
  waiting : t.isDequeuing = true → s.isDequeuing = true ∧ taken new = []
  hand : ∀ m, t.hand? = some m → ∃ m', (s.hand? = some m' ∨ m' ∈ taken new) ∧ m.id = m'.id
  stop : ∀ timer wait, t.host.listener.state = .stopping timer wait →
    ∃ timer', s.host.listener.state = .stopping timer' wait

theorem Pause.silent (h : Pause s t) : t.host.isListening = false := by
  cases h with
  | rest silent => exact silent
  | step _ _ silent => exact silent

theorem Pause.invariant {p : Poller} (h : Pause s t) (hs : s.Invariant p) : t.Invariant p := by
  induction h with
  | rest _ => exact hs
  | step _ next _ ih => exact ih.step next

omit [Surroundings Env] in
theorem paused_rest (s : HostRun Env) : Paused s s [] where
  record := rfl
  quiet := by simp [AsksForNone]
  takes := .inl rfl
  waiting := fun hwaiting => ⟨hwaiting, rfl⟩
  hand := fun m hhand => ⟨m, .inl hhand, rfl⟩
  stop := fun timer _ hstate => ⟨timer, hstate⟩

theorem paused_step {earlier : List Doing} (hearlier : Paused s t earlier) (hwinds : Winds t u)
    (hsilent : u.host.isListening = false) : ∃ new, Paused s u new := by
  cases hwinds with
  | idles phase record same =>
      refine ⟨earlier, record.trans hearlier.record, hearlier.quiet, hearlier.takes, ?_, ?_, ?_⟩
      · rw [isDequeuing, phase]
        exact hearlier.waiting
      · rw [hand?, phase]
        exact hearlier.hand
      · intro timer wait hstate
        obtain ⟨timer', hstate'⟩ := same.stopping timer wait hstate
        exact hearlier.stop timer' wait hstate'
  | ends expired idle record =>
      have hphase : u.phase? = none := by simp [phase?, Listener.phase?, Listener.timer?, idle]
      refine ⟨earlier, record.trans hearlier.record, hearlier.quiet, hearlier.takes, ?_, ?_, ?_⟩
      · simp [isDequeuing, hphase]
      · simp [hand?, hphase]
      · simp [idle]
  | starts reason idle listens record => simp [listens] at hsilent
  | @plays new handles quiet asksNone record same =>
      have hrecord : u.doings = (new ++ earlier) ++ s.doings := by
        rw [record, hearlier.record, List.append_assoc]
      have hquiet : AsksForNone (new ++ earlier) := asksForNone_append.mpr ⟨quiet, hearlier.quiet⟩
      have hstop : ∀ timer wait, u.host.listener.state = .stopping timer wait →
          ∃ timer', s.host.listener.state = .stopping timer' wait := by
        intro timer wait hstate
        obtain ⟨timer', hstate'⟩ := same.stopping timer wait hstate
        exact hearlier.stop timer' wait hstate'
      have hwaiting : u.isDequeuing = true →
          s.isDequeuing = true ∧ taken (new ++ earlier) = [] := by simp [asksNone]
      cases handles with
      | holds m m' before after same none =>
          have htaken : taken (new ++ earlier) = taken earlier := by simp [taken_append, none]
          refine ⟨new ++ earlier, hrecord, hquiet, htaken ▸ hearlier.takes, hwaiting, ?_, hstop⟩
          intro n hhand
          obtain rfl := Option.some.inj (after.symm.trans hhand)
          obtain ⟨first, hfirst, hid⟩ := hearlier.hand m before
          exact ⟨first, htaken ▸ hfirst, same.trans hid⟩
      | takes m before one after =>
          -- the message is the first: until now the tick has been waiting for it
          obtain ⟨hdequeuing, hnone⟩ := hearlier.waiting before
          have htaken : taken (new ++ earlier) = [m] := by simp [taken_append, one, hnone]
          refine ⟨new ++ earlier, hrecord, hquiet, .inr ⟨hdequeuing, m, htaken⟩, hwaiting, ?_,
            hstop⟩
          intro n hhand
          obtain rfl := Option.some.inj (after.symm.trans hhand)
          exact ⟨m, .inr (by simp [htaken]), rfl⟩
      | lets after none parts =>
          have htaken : taken (new ++ earlier) = taken earlier := by simp [taken_append, none]
          refine ⟨new ++ earlier, hrecord, hquiet, htaken ▸ hearlier.takes, hwaiting, ?_, hstop⟩
          intro n hhand
          exact absurd (after.symm.trans hhand) (by simp)
      | breaks before broken after =>
          have htaken : taken (new ++ earlier) = taken earlier := by
            rw [broken, taken_append]
            rfl
          refine ⟨new ++ earlier, hrecord, hquiet, htaken ▸ hearlier.takes, hwaiting, ?_, hstop⟩
          simp [hand?, after]

theorem paused_of_pause {p : Poller} (hs : s.Invariant p) (h : Pause s t) :
    ∃ new, Paused s t new := by
  induction h with
  | rest silent => exact ⟨[], paused_rest s⟩
  | step earlier next silent ih =>
      obtain ⟨new, hpaused⟩ := ih
      have hwinds := winds_of_step (earlier.invariant hs).winds earlier.silent next
      exact paused_step hpaused hwinds silent

/-- How a message leaves the hand of a host that does not listen: the tick
parts with it, the stop has taken too long, or the run on it breaks down and
the poller with it. -/
inductive Loses (p : Poller) (s t : HostRun Env) (m : Delivery) : Prop
  | parts {phase : TickPhase} {new : List Doing} (before : s.phase? = some phase)
      (record : t.doings = new ++ s.doings) (parts : Parts p m phase new)
  | overruns {timer : PollerTimer} {begun : Nat}
      (state : s.host.listener.state = .stopping timer (.start begun p.config.stopTimeout))
      (expired : Instant.reached (now s.env) (StopWait.start begun p.config.stopTimeout).ends = true)
      (idle : t.host.listener.state = .idle)
  | breaks {claim : Claim} {renewal : RenewalTimer} {execution : Execution} {reason : String}
      (before : s.phase? = some (.executing claim renewal execution)) (held : claim.message = m)
      (record : t.doings = .finished execution (.error reason) :: s.doings)
      (after : t.phase? = none)

theorem kept_or_lost {p : Poller} {m : Delivery} (hs : s.Invariant p)
    (hsilent : s.host.isListening = false) (h : Step s t) (hhand : s.hand? = some m) :
    (∃ m', t.hand? = some m' ∧ m'.id = m.id) ∨ Loses p s t m := by
  obtain ⟨phase, hphase, hheld⟩ := Option.bind_eq_some_iff.mp hhand
  cases winds_of_step hs.winds hsilent h with
  | idles phase record same => exact .inl ⟨m, by rw [hand?, phase]; exact hhand, rfl⟩
  | ends expired idle record =>
      obtain ⟨timer, wait, hstate, hreached⟩ := expired phase hphase
      obtain ⟨begun, rfl⟩ := hs.winds.timed timer wait hstate
      rw [hs.poller] at hstate hreached
      exact .inr (.overruns hstate hreached idle)
  | starts reason idle listens record =>
      simp [phase?, Listener.phase?, Listener.timer?, idle] at hphase
  | plays handles quiet asksNone record same =>
      rw [hs.poller] at handles
      cases handles with
      | holds n n' before after same none =>
          obtain rfl := Option.some.inj (before.symm.trans hhand)
          exact .inl ⟨n', after, same⟩
      | takes n before one after =>
          rw [hphase] at before
          cases phase <;> simp [TickPhase.isDequeuing, TickPhase.hand?] at before hheld
      | lets after none parts => exact .inr (.parts hphase record (parts phase m hphase hheld))
      | breaks before broken after =>
          obtain rfl := Option.some.inj (hphase.symm.trans before)
          rw [broken] at record
          exact .inr (.breaks before (Option.some.inj hheld) record after)

theorem stopping_of_step (h : Step s t) (hlistens : s.host.isListening = true)
    (hsilent : t.host.isListening = false) :
    ∃ timer, t.host.listener.state =
      .stopping timer (.start (now s.env) s.host.listener.poller.config.stopTimeout) := by
  have hlistens' : s.host.listener.isListening = true := hlistens
  have hsilent' : t.host.listener.isListening = false := hsilent
  cases attends_of_step h with
  | turned turn record =>
      cases turn with
      | kept same => rw [same, hlistens'] at hsilent'; simp at hsilent'
      | asked stopping =>
          cases hstate : s.host.listener.state with
          | listening timer =>
              exact ⟨timer.cancel, by rw [stopping, Listener.stop, hstate]; rfl⟩
          | idle | stopping _ _ => simp [Listener.isListening, hstate] at hlistens'
      | ended timer wait state settled idle => simp [Listener.isListening, state] at hlistens'
      | started reason begins =>
          rw [begins, Listener.start] at hsilent'
          split at hsilent'
          · simp [Listener.isListening] at hsilent'
          · rw [hlistens'] at hsilent'
            simp at hsilent'
  | played before going plays after same record =>
      rw [same.listening, hlistens'] at hsilent'
      simp at hsilent'

/-- What holds in every state of a run of a host with the poller `p`. -/
structure Gated (p : Poller) (s : HostRun Env) : Prop where
  /-- A dequeue begins only while the host listens. -/
  asks : ∀ t, Step s t → ∃ new, t.doings = new ++ s.doings ∧
    (AsksForNone new ∨ s.host.isListening = true ∧ t.host.isListening = true)
  stopped : s.HasStopped → s.host.isListening = false
  stops : s.host.isListening = true → ∀ t, Step s t → t.host.isListening = false →
    ∃ timer, t.host.listener.state = .stopping timer (.start (now s.env) p.config.stopTimeout)
  pauses : ∀ t, Pause s t → ∃ new, Paused s t new
  keeps : s.host.isListening = false → ∀ t, Step s t → ∀ m, s.hand? = some m →
    (∃ m', t.hand? = some m' ∧ m'.id = m.id) ∨ Loses p s t m
  /-- A pause ends only after the supervisor has seen the lease held. -/
  resumes : s.host.isListening = false → ∀ t, Step s t → t.host.isListening = true → MayStart s t

theorem asks_of_step {p : Poller} (hs : s.Invariant p) (h : Step s t) :
    ∃ new, t.doings = new ++ s.doings ∧
      (AsksForNone new ∨ s.host.isListening = true ∧ t.host.isListening = true) := by
  by_cases hlistens : s.host.isListening = true
  · cases attends_of_step h with
    | turned turn record => exact ⟨[], record, .inl (by simp [AsksForNone])⟩
    | played before going plays after same record =>
        exact ⟨_, record, .inr ⟨hlistens, same.listening.trans hlistens⟩⟩
  · have hsilent : s.host.isListening = false := Bool.eq_false_iff.mpr hlistens
    cases winds_of_step hs.winds hsilent h with
    | idles _ record _ | ends _ _ record | starts _ _ _ record =>
        exact ⟨[], record, .inl (by simp [AsksForNone])⟩
    | plays handles quiet asksNone record same => exact ⟨_, record, .inl quiet⟩

theorem mayStart_of_step {p : Poller} (hs : s.Invariant p) (hsilent : s.host.isListening = false)
    (h : Step s t) (hlistens : t.host.isListening = true) : MayStart s t := by
  have hnever : s.host.listener.SameStop t.host.listener → MayStart s t := by
    intro hsame
    have hsilent' : t.host.isListening = false := hsame.listening.trans hsilent
    simp [hsilent'] at hlistens
  cases winds_of_step hs.winds hsilent h with
  | idles _ _ same => exact hnever same
  | ends _ idle _ => simp [Host.isListening, Listener.isListening, idle] at hlistens
  | starts reason _ _ _ => exact reason
  | plays _ _ _ _ same => exact hnever same

theorem dequeues_gated (h : Reachable config lease queue poison s) :
    s.Gated ⟨queue, poison, config.poller⟩ := by
  have hs := h.invariant
  constructor
  case asks => exact fun t hstep => asks_of_step hs hstep
  case stopped => exact hs.agrees.silent
  case stops =>
      intro hlistens t hstep hsilent
      have hstopping := stopping_of_step hstep hlistens hsilent
      rw [hs.poller] at hstopping
      exact hstopping
  case pauses => exact fun t hpause => paused_of_pause hs hpause
  case keeps => exact fun hsilent t hstep m hhand => kept_or_lost hs hsilent hstep hhand
  case resumes => exact fun hsilent t hstep hlistens => mayStart_of_step hs hsilent hstep hlistens

def steady : HostConfig := { HostConfig.standard (.timeOrdered 0) with singleton := false }

def stocked : World :=
  (World.callQueue { World.initial with queues := ⟨[("jobs", .create "jobs")]⟩ } "jobs"
    (.enqueue [7]) (.direct 0)).1

def laborer : Poller := ⟨"jobs", none, PollingConfig.standard⟩

def opened : HostRun World where
  env := report ((Listener.create laborer).start stocked).2
    (.hostStarted steady.queueName steady.leaseName false)
  doings := []
  host := ⟨.always ((Listener.create laborer).start stocked).1⟩
  stage := .running

/-- A shutdown has begun while the poller waits for a message. -/
def interrupted : HostRun World := (opened.after attendants 2).close

theorem reachable_interrupted : Reachable steady "lock" "jobs" none interrupted := by
  have hstarted : Host.start steady "lock" "jobs" none (stocked, []) =
      (.ok opened.host, opened.env, opened.doings) := rfl
  have hopened : Reachable steady "lock" "jobs" none opened := .start hstarted
  exact (hopened.after attendants 2).step (.acts (.close rfl))

theorem dequeues_gated_interrupted :
    interrupted.host.isListening = false ∧ interrupted.isDequeuing = true ∧
      interrupted.Gated laborer :=
  ⟨by decide, by decide, dequeues_gated reachable_interrupted⟩

end HostRun

end LeasedListener
