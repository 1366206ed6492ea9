import LeasedListener.Host.Supervisor
import LeasedListener.Proofs.Timer.Transitions

/-!
# Supervision of a listener

A supervisor gets its listener going only when it has just read that the lease
is held, waits for a stop only after it has asked for one, and ends only after
the listener has stopped.  In doing so it reports, and changes nothing else.
-/

namespace LeasedListener

open Surroundings

variable {Env : Type} [Surroundings Env]

namespace Listener

variable {l l' : Listener} {env env' : Env}

theorem start_reports (l : Listener) (env : Env) :
    ∃ events, (l.start env).2 = reportAll env events := by
  unfold start
  split
  · exact ⟨_, rfl⟩
  · exact ⟨[], rfl⟩

theorem timer?_stop (l : Listener) (env : Env) :
    (l.stop env).timer?.isSome = l.timer?.isSome := by
  unfold stop
  split
  · next hlistening => simp [timer?, hlistening]
  · rfl

theorem isListening_stop (l : Listener) (env : Env) : (l.stop env).isListening = false := by
  unfold stop
  split
  · rfl
  · next hidle =>
      cases hstate : l.state with
      | idle => simp [isListening, hstate]
      | listening timer => exact absurd hstate (hidle timer)
      | stopping timer wait => simp [isListening, hstate]

theorem of_stopped? {result : Except TimerError Unit} (hasked : l.isListening = false)
    (h : l.stopped? env = some (l', env', result)) :
    l'.timer? = none ∧ ∃ events, env' = reportAll env events := by
  unfold stopped? at h
  split at h
  · simp only [Option.map_eq_some_iff, Prod.mk.injEq] at h
    obtain ⟨_, -, hlistener, henv, -⟩ := h
    subst hlistener henv
    exact ⟨rfl, _, rfl⟩
  · next hgoing =>
      simp only [Option.some.injEq, Prod.mk.injEq] at h
      obtain ⟨rfl, rfl, -⟩ := h
      refine ⟨?_, [], rfl⟩
      cases hstate : l.state with
      | idle => simp [timer?, hstate]
      | listening timer => simp [isListening, hstate] at hasked
      | stopping timer wait => exact absurd hstate (hgoing timer wait)

theorem of_poll {a : PollerAccess Env} (h : l.poll a env = some (l', env')) :
    (∃ timer timer', l.timer? = some timer ∧ l'.timer? = some timer' ∧
      timer.poll (l.poller.drive a) env = some (timer', env')) ∧
    l'.isListening = l.isListening := by
  unfold poll at h
  split at h
  · simp at h
  · next timer hstate =>
      simp only [Option.map_eq_some_iff, Prod.mk.injEq] at h
      obtain ⟨⟨timer', after⟩, hpoll, rfl, rfl⟩ := h
      exact ⟨⟨timer, timer', by simp [timer?, hstate], rfl, hpoll⟩, by simp [isListening, hstate]⟩
  · next timer wait hstate =>
      simp only [Option.map_eq_some_iff, Prod.mk.injEq] at h
      obtain ⟨⟨timer', after⟩, hpoll, rfl, rfl⟩ := h
      exact ⟨⟨timer, timer', by simp [timer?, hstate], rfl, hpoll⟩, by simp [isListening, hstate]⟩

end Listener

namespace Supervisor

variable {s s' : Supervisor} {status : Status} {closed : Bool} {env env' : Env}

/-- The transitions of a supervisor: it follows the status, begins to end, or is
done with a stop. -/
inductive Advances (s : Supervisor) (status : Status) (closed : Bool) (env : Env) :
    Supervisor → Env → Prop
  | follows (ready : s.state = .spawned ∨ s.state = .parked) :
      Advances s status closed env (s.follow status env).1 (s.follow status env).2
  | ends (parked : s.state = .parked) (must : s.mustEnd status closed = true) :
      Advances s status closed env
        { s with listener := s.listener.stop env, state := .stopping true } env
  | eases {final : Bool} {listener : Listener} {after : Env} {result : Except TimerError Unit}
      {events : List Event} (state : s.state = .stopping final)
      (stopped : s.listener.stopped? env = some (listener, after, result)) :
      Advances s status closed env
        { s with listener, state := if final then .finished result else .parked }
        (reportAll after events)

theorem advances_of_advance (h : s.advance status closed env = some (s', env')) :
    s.Advances status closed env s' env' := by
  unfold advance at h
  split at h
  · next hstate =>
      obtain ⟨rfl, rfl⟩ := Prod.mk.inj (Option.some.inj h)
      exact .follows (.inl hstate)
  · next final hstate =>
      simp only [Option.map_eq_some_iff] at h
      obtain ⟨⟨listener, after, result⟩, hstopped, hresult⟩ := h
      have heases : ∀ events, s.Advances status closed env
          { s with listener, state := if final then .finished result else .parked }
          (reportAll after events) := fun _ => .eases hstate hstopped
      cases final with
      | true =>
          obtain ⟨rfl, rfl⟩ := Prod.mk.inj hresult
          exact heases []
      | false =>
          cases result with
          | ok _ =>
              obtain ⟨rfl, rfl⟩ := Prod.mk.inj hresult
              exact heases []
          | error error =>
              obtain ⟨rfl, rfl⟩ := Prod.mk.inj hresult
              exact heases [.leaseChangeNotFollowed listener.poller.queue error false]
  · next hstate =>
      split at h
      · next hmust =>
          obtain ⟨rfl, rfl⟩ := Prod.mk.inj (Option.some.inj h)
          exact .ends hstate hmust
      · split at h
        · simp at h
        · obtain ⟨rfl, rfl⟩ := Prod.mk.inj (Option.some.inj h)
          exact .follows (.inr hstate)
  · simp at h

/-- A supervisor waits for a stop only after asking for it, and ends only
after the stop. -/
structure IsOrderly (s : Supervisor) : Prop where
  asked : ∀ final, s.state = .stopping final → s.listener.isListening = false
  ended : s.result?.isSome → s.listener.timer? = none

theorem isOrderly_create (poller : Poller) : (create poller).IsOrderly where
  asked := by simp [create]
  ended := by simp [create, result?]

theorem IsOrderly.cancel (h : s.IsOrderly) : s.cancel.IsOrderly where
  asked := h.asked
  ended := h.ended

/-- What a transition of a supervisor does: it is orderly, it reports, and if
the listener is going afterwards, then it was before or the lease is held. -/
structure Turn (status : Status) (env : Env) (s s' : Supervisor) (env' : Env) : Prop where
  orderly : s'.IsOrderly
  unended : s.result? = none
  going : s'.listener.timer?.isSome → s.listener.timer?.isSome ∨ status.isHeld
  reports : ∃ events, env' = reportAll env events

theorem turn_stop {seen : Nat} {final : Bool} (hunended : s.result? = none) :
    Turn status env s { s with listener := s.listener.stop env, state := .stopping final, seen }
      env where
  orderly := ⟨fun _ _ => s.listener.isListening_stop env, by simp [result?]⟩
  unended := hunended
  going := by
    intro hgoing
    left
    rw [← s.listener.timer?_stop env]
    exact hgoing
  reports := ⟨[], rfl⟩

theorem turn_follow (hunended : s.result? = none) :
    Turn status env s (s.follow status env).1 (s.follow status env).2 := by
  unfold follow
  split
  · next hheld =>
      constructor
      case orderly => exact ⟨by simp, by simp [result?]⟩
      case unended => exact hunended
      case going => exact fun _ => .inr hheld
      case reports => exact s.listener.start_reports env
  · exact turn_stop hunended

theorem turn_of_advance (hs : s.IsOrderly) (h : s.advance status closed env = some (s', env')) :
    Turn status env s s' env' := by
  cases advances_of_advance h with
  | follows ready =>
      apply turn_follow
      rcases ready with hstate | hstate <;> simp [result?, hstate]
  | ends parked must => exact turn_stop (by simp [result?, parked])
  | @eases final listener after result events state stopped =>
      obtain ⟨hidle, earlier, hreports⟩ := Listener.of_stopped? (hs.asked final state) stopped
      constructor
      case orderly => exact ⟨by cases final <;> simp, fun _ => hidle⟩
      case unended => simp [result?, state]
      case going => simp [hidle]
      case reports => exact ⟨earlier ++ events, by simp [hreports, reportAll]⟩

theorem IsOrderly.pollListener {a : PollerAccess Env} (hs : s.IsOrderly)
    (h : s.pollListener a env = some (s', env')) :
    s'.IsOrderly ∧ s'.result? = s.result? ∧ s.listener.timer?.isSome ∧
      ∃ timer timer' : PollerTimer,
        timer.poll (s.listener.poller.drive a) env = some (timer', env') := by
  unfold Supervisor.pollListener at h
  simp only [Option.map_eq_some_iff, Prod.mk.injEq] at h
  obtain ⟨⟨listener, after⟩, hpoll, rfl, rfl⟩ := h
  obtain ⟨⟨timer, timer', htimer, -, htransition⟩, hsame⟩ := Listener.of_poll hpoll
  refine ⟨⟨?_, ?_⟩, rfl, by simp [htimer], timer, timer', htransition⟩
  · intro final hstate
    rw [← hs.asked final hstate]
    exact hsame
  · intro hended
    have hidle : s.listener.timer? = none := hs.ended hended
    simp [hidle] at htimer

end Supervisor

end LeasedListener
