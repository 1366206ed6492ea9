import LeasedListener.Proofs.Host.Parts
import LeasedListener.Proofs.Host.Pause
import LeasedListener.Proofs.Host.Tasks
import LeasedListener.Proofs.Leadership.News

/-!
# The vigilance of a supervisor

The lease is held exactly at the odd versions of the status, however often it
changes hands in between.  A supervisor that has followed the version it has
seen therefore has its listener going exactly if that version is odd, and
sleeps only while the version is the one that it has seen.
-/

namespace LeasedListener

open Surroundings

variable {Env : Type} [Surroundings Env]

def Status.Alternates (status : Status) : Prop :=
  status.isHeld = true ↔ status.version % 2 = 1

theorem Announces.alternates_iff {before after : Status} {news : List Bool}
    (h : Announces before after news) : after.Alternates ↔ before.Alternates := by
  have hversion := h.version
  unfold Status.Alternates
  cases hbefore : before.isHeld <;> cases hafter : after.isHeld <;>
    simp [hbefore, hafter] at hversion ⊢ <;> omega

namespace Coordinator

variable {access : LeaseAccess Env} {c c' : Coordinator} {env env' : Env}

theorem alternates_poll (h : c.poll access env = some (c', env')) :
    c'.status.Alternates ↔ c.status.Alternates := by
  refine iff_of_eq (kept_of_poll (f := fun env : Env × Status => env.2.Alternates) ?_ ?_ ?_ h)
  · exact fun env event => rfl
  · exact fun env contender phase => rfl
  · intro env contender phase transit
    exact propext (contender.answer_announces env.2 (now env) phase _).alternates_iff

theorem owned_poll (h : c.poll access env = some (c', env')) : c'.owned = c.owned := by
  simp only [poll, Option.map_eq_some_iff, Prod.mk.injEq] at h
  obtain ⟨_, -, rfl, -⟩ := h
  rfl

theorem new_of_start {lease : String} {config : LeaseConfig} (h : create lease config = .ok c) :
    c.start.1.status = {} ∧ c.start.1.owned = true := by
  unfold create at h
  split at h
  · simp at h
  · rw [← Except.ok.inj h]
    exact ⟨rfl, rfl⟩

theorem of_settle (h : c.settle = some c') : c' = { c with orphan := false } := by
  unfold settle at h
  split at h
  · exact (Option.some.inj h).symm
  · simp at h

theorem alternates_closeStep {closing : Closing}
    {progress : Progress (Env × Coordinator) Closing (Except TimerError Unit)}
    (h : c.closeStep access env closing = some progress) :
    progress.env.2.status.Alternates ↔ c.status.Alternates := by
  cases departs_of_closeStep h with
  | releases _ _ _ _ _ status | leaves _ _ _ _ _ status => simp only [Progress.env, status]
  | returns _ _ _ status =>
      simp only [Progress.env, status]
      exact (announces_publish c.status none).alternates_iff

end Coordinator

theorem Listener.start_isListening {l : Listener} (h : l.timer? = none ∨ l.isListening = true)
    (env : Env) : (l.start env).1.isListening = true := by
  unfold start
  split
  · rfl
  · next hgoing =>
      rcases h with hidle | hlistens
      · cases hstate : l.state with
        | idle => exact absurd hstate hgoing
        | listening _ | stopping _ _ => simp [timer?, hstate] at hidle
      · exact hlistens

theorem Listener.timer?_of_listening {l : Listener} (h : l.isListening = true) :
    l.timer?.isSome = true := by
  cases hstate : l.state with
  | listening timer => simp [timer?, hstate]
  | idle | stopping _ _ => simp [isListening, hstate] at h

namespace Supervisor

variable {v v' : Supervisor} {status : Status} {closed : Bool} {env env' : Env}

/-- A supervisor has done to its listener what the version asks for that it has
seen. -/
structure Follows (v : Supervisor) : Prop where
  fresh : v.state = .spawned → v.listener.timer? = none
  easing : v.state = .stopping false → v.seen % 2 = 0
  going : v.state = .parked → v.seen % 2 = 1 → v.listener.isListening = true
  idle : v.state = .parked → v.seen % 2 = 0 → v.listener.timer? = none

theorem follows_create (poller : Poller) : (create poller).Follows where
  fresh _ := rfl
  easing := by simp [create]
  going := by simp [create]
  idle := by simp [create]

theorem Follows.cancel (h : v.Follows) : v.cancel.Follows where
  fresh := h.fresh
  easing := h.easing
  going := h.going
  idle := h.idle

theorem follows_stop {seen : Nat} {final : Bool} (h : final = false → seen % 2 = 0)
    (listener : Listener) (cancelled : Bool) :
    Follows ⟨listener, .stopping final, seen, cancelled⟩ where
  fresh := by simp
  easing hstate := h (SupervisorState.stopping.inj hstate)
  going := by simp
  idle := by simp

theorem follows_follow (hstatus : status.Alternates)
    (hready : v.listener.timer? = none ∨ v.listener.isListening = true) (env : Env) :
    (v.follow status env).1.Follows := by
  unfold follow
  split
  · next hheld =>
      have hodd : status.version % 2 = 1 := hstatus.mp hheld
      constructor
      case fresh => simp
      case easing => simp
      case going => exact fun _ _ => v.listener.start_isListening hready env
      case idle => exact fun _ heven => absurd hodd (by simp only at heven; omega)
  · next hlost =>
      refine follows_stop (fun _ => ?_) _ _
      have hnotOdd : ¬ status.version % 2 = 1 := fun hodd => hlost (hstatus.mpr hodd)
      simp only
      omega

theorem Follows.ready (h : v.Follows) (hstate : v.state = .spawned ∨ v.state = .parked) :
    v.listener.timer? = none ∨ v.listener.isListening = true := by
  rcases hstate with hspawned | hparked
  · exact .inl (h.fresh hspawned)
  · rcases Nat.mod_two_eq_zero_or_one v.seen with heven | hodd
    · exact .inl (h.idle hparked heven)
    · exact .inr (h.going hparked hodd)

theorem Follows.advance (h : v.Follows) (horderly : v.IsOrderly) (hstatus : status.Alternates)
    (hadvance : v.advance status closed env = some (v', env')) : v'.Follows := by
  cases advances_of_advance hadvance with
  | follows ready => exact follows_follow hstatus (h.ready ready) env
  | ends _ must => exact follows_stop (by simp) _ _
  | @eases final _ _ _ _ state stopped =>
      obtain ⟨hidle, -⟩ := Listener.of_stopped? (horderly.asked final state) stopped
      cases final with
      | true => exact ⟨by simp, by simp, by simp, by simp⟩
      | false =>
          have heven : v.seen % 2 = 0 := h.easing state
          constructor
          case fresh => simp
          case easing => simp
          case going => simp [heven]
          case idle => exact fun _ _ => hidle

theorem Follows.pollListener {a : PollerAccess Env} (h : v.Follows)
    (hpoll : v.pollListener a env = some (v', env')) : v'.Follows := by
  simp only [Supervisor.pollListener, Option.map_eq_some_iff, Prod.mk.injEq] at hpoll
  obtain ⟨⟨listener, after⟩, hpolled, rfl, -⟩ := hpoll
  obtain ⟨⟨timer, _, hbefore, -, -⟩, hsame⟩ := Listener.of_poll hpolled
  constructor
  case fresh =>
    intro hstate
    have hidle : v.listener.timer? = none := h.fresh hstate
    simp [hidle] at hbefore
  case easing => exact h.easing
  case going => exact fun hstate hodd => hsame.trans (h.going hstate hodd)
  case idle =>
    intro hstate heven
    have hidle : v.listener.timer? = none := h.idle hstate heven
    simp [hidle] at hbefore

structure AtWork (v : Supervisor) : Prop where
  spared : v.cancelled = false
  unfinal : v.state ≠ .stopping true
  unended : v.result? = none

theorem atWork_create (poller : Poller) : (create poller).AtWork := ⟨rfl, by simp [create], rfl⟩

theorem AtWork.advance (h : v.AtWork) (hopen : closed = false)
    (hadvance : v.advance status closed env = some (v', env')) : v'.AtWork := by
  cases advances_of_advance hadvance with
  | follows ready =>
      unfold follow
      split
      · exact ⟨h.spared, by simp, by simp [result?]⟩
      · exact ⟨h.spared, by simp, by simp [result?]⟩
  | ends _ must => simp [mustEnd, h.spared, hopen] at must
  | @eases final _ _ _ _ state stopped =>
      cases final with
      | true => exact absurd state h.unfinal
      | false => exact ⟨h.spared, by simp, by simp [result?]⟩

theorem AtWork.pollListener {a : PollerAccess Env} (h : v.AtWork)
    (hpoll : v.pollListener a env = some (v', env')) : v'.AtWork := by
  simp only [Supervisor.pollListener, Option.map_eq_some_iff, Prod.mk.injEq] at hpoll
  obtain ⟨_, -, rfl, -⟩ := hpoll
  exact ⟨h.spared, h.unfinal, h.unended⟩

end Supervisor

namespace HostRun

variable {s t : HostRun Env} {c c' : Coordinator} {v v' : Supervisor}
  {permitted : HostAccess Env → Prop} {config : HostConfig} {lease queue : String}
  {poison : Option String}

structure Watches (stage : MemberStage) (c : Coordinator) (v : Supervisor) : Prop where
  alternates : c.status.Alternates
  orderly : v.IsOrderly
  follows : v.Follows
  owned : stage = .running → c.owned = true
  atWork : stage = .running → v.AtWork

theorem Works.watches (h : Works permitted s t c v c' v') (hs : Watches s.stage c v) :
    Watches t.stage c' v' := by
  have horderly : v'.IsOrderly := h.orderly hs.orderly
  cases h with
  | contends permits polled supervisor stage =>
      subst supervisor
      rw [stage]
      constructor
      case alternates => exact (Coordinator.alternates_poll polled).mpr hs.alternates
      case orderly => exact horderly
      case follows => exact hs.follows
      case owned => exact fun hrunning => (Coordinator.owned_poll polled).trans (hs.owned hrunning)
      case atWork => exact hs.atWork
  | settles settled env record supervisor stage =>
      rw [Coordinator.of_settle settled, supervisor, stage]
      exact ⟨hs.alternates, hs.orderly, hs.follows, hs.owned, hs.atWork⟩
  | supervises advanced coordinator stage =>
      subst coordinator
      rw [stage]
      constructor
      case alternates => exact hs.alternates
      case orderly => exact horderly
      case follows => exact hs.follows.advance hs.orderly hs.alternates advanced
      case owned => exact hs.owned
      case atWork =>
        intro hrunning
        have hopen : c'.isClosed = false := by simp [Coordinator.isClosed, hs.owned hrunning]
        exact (hs.atWork hrunning).advance hopen advanced
  | listens permits polled coordinator stage =>
      subst coordinator
      rw [stage]
      constructor
      case alternates => exact hs.alternates
      case orderly => exact horderly
      case follows => exact hs.follows.pollListener polled
      case owned => exact hs.owned
      case atWork => exact fun hrunning => (hs.atWork hrunning).pollListener polled
  | shuts running env record coordinator supervisor stage =>
      subst coordinator supervisor
      rw [stage]
      exact ⟨hs.alternates, horderly, hs.follows.cancel, by simp, by simp⟩
  | joins before ended first env record coordinator supervisor stage =>
      subst coordinator supervisor
      rw [stage]
      exact ⟨hs.alternates, horderly, hs.follows, by simp, by simp⟩
  | closes _ _ stepped supervisor stage | leaves _ _ stepped _ _ supervisor stage =>
      subst supervisor
      rw [stage]
      have halternates := (Coordinator.alternates_closeStep stepped).mpr hs.alternates
      exact ⟨halternates, horderly, hs.follows, by simp, by simp⟩

theorem Reachable.watches (hsingleton : config.singleton = true)
    (h : Reachable config lease queue poison s) :
    ∃ c v, s.host.mode = .singleton c v ∧ Watches s.stage c v := by
  induction h with
  | start started =>
      obtain ⟨c, poller, events, hcreated, hmode, -⟩ := Host.of_start hsingleton started
      obtain ⟨hstatus, howned⟩ := Coordinator.new_of_start hcreated
      refine ⟨c.start.1, .create poller, hmode, ?_⟩
      constructor
      case alternates => simp [hstatus, Status.Alternates, Status.isHeld]
      case orderly => exact Supervisor.isOrderly_create poller
      case follows => exact Supervisor.follows_create poller
      case owned => exact fun _ => howned
      case atWork => exact fun _ => Supervisor.atWork_create poller
  | step _ next ih =>
      obtain ⟨c, v, hmode, hwatches⟩ := ih
      rcases works_of_step hmode next with ⟨env, -, rfl⟩ | ⟨c', v', hmode', hworks⟩
      · exact ⟨c, v, hmode, hwatches⟩
      · exact ⟨c', v', hmode', hworks.watches hwatches⟩

structure Vigilant (s : HostRun Env) (c : Coordinator) (v : Supervisor) : Prop where
  /-- Whenever it sleeps and nothing wakes it, a poller runs exactly while the
  lease is held. -/
  settled : v.state = .parked → s.host.supervise (s.env, s.doings) = none →
    (v.listener.timer?.isSome = true ↔ c.hasLease = true)
  /-- Until a shutdown, whatever it has not followed yet has woken it up, or
  waits for the stop that is under way. -/
  answers : s.stage = .running →
    (v.listener.timer?.isSome = true ↔ c.hasLease = true) ∨
      (s.host.supervise (s.env, s.doings)).isSome = true ∨
      ∃ timer wait, v.listener.state = .stopping timer wait

theorem Watches.vigilant (h : Watches s.stage c v) (hmode : s.host.mode = .singleton c v) :
    s.Vigilant c v := by
  have hsupervise : s.host.supervise (s.env, s.doings) = none ↔
      v.advance c.status c.isClosed (s.env, s.doings) = none := by simp [Host.supervise, hmode]
  have hsettled : v.state = .parked → s.host.supervise (s.env, s.doings) = none →
      (v.listener.timer?.isSome = true ↔ c.hasLease = true) := by
    intro hparked hquiet
    rw [hsupervise] at hquiet
    simp only [Supervisor.advance, hparked] at hquiet
    split at hquiet
    · simp at hquiet
    · split at hquiet
      · next hseen =>
          -- nothing has changed since, so what was done for the version seen still stands
          have hheld : c.hasLease = true ↔ c.status.version % 2 = 1 := h.alternates
          rw [hheld, hseen]
          rcases Nat.mod_two_eq_zero_or_one v.seen with heven | hodd
          · simp [h.follows.idle hparked heven, heven]
          · simp [Listener.timer?_of_listening (h.follows.going hparked hodd), hodd]
      · simp at hquiet
  constructor
  case settled => exact hsettled
  case answers =>
    intro hrunning
    cases hadvance : s.host.supervise (s.env, s.doings) with
    | some after => exact .inr (.inl rfl)
    | none =>
        cases hstate : v.state with
        | parked => exact .inl (hsettled hstate hadvance)
        | spawned =>
            rw [hsupervise] at hadvance
            simp [Supervisor.advance, hstate] at hadvance
        | finished result =>
            have hunended := (h.atWork hrunning).unended
            simp [Supervisor.result?, hstate] at hunended
        | stopping final =>
            rw [hsupervise] at hadvance
            simp only [Supervisor.advance, hstate, Option.map_eq_none_iff] at hadvance
            right; right
            cases hlistener : v.listener.state with
            | stopping timer wait => exact ⟨timer, wait, rfl⟩
            | idle | listening _ => simp [Listener.stopped?, hlistener] at hadvance

theorem lease_followed (hsingleton : config.singleton = true)
    (h : Reachable config lease queue poison s) :
    (∃ c v, s.host.mode = .singleton c v ∧ s.Vigilant c v) ∧
      (∃ past, Muster config lease queue poison s past) ∧
      ∀ past, Muster config lease queue poison s past →
        (s.tasks past).countP PollerTask.canRun ≤ 1 := by
  obtain ⟨c, v, hmode, hwatches⟩ := h.watches hsingleton
  refine ⟨⟨c, v, hmode, hwatches.vigilant hmode⟩, h.muster, ?_⟩
  intro past hmuster
  exact hmuster.countP_canRun

/-- The lease has been won, and the supervisor has followed. -/
def presiding : HostRun World := (founded premises).after attendants 3

theorem lease_followed_presiding :
    candidate.singleton = true ∧ presiding.host.hasLease = true ∧
      presiding.host.isListening = true ∧
      (presiding.host.supervise (presiding.env, presiding.doings)).isNone = true ∧
      ((∃ c v, presiding.host.mode = .singleton c v ∧ presiding.Vigilant c v) ∧
        (∃ past, Muster candidate "lock" "jobs" none presiding past) ∧
        ∀ past, Muster candidate "lock" "jobs" none presiding past →
          (presiding.tasks past).countP PollerTask.canRun ≤ 1) :=
  ⟨rfl, by decide, by decide, by decide,
    lease_followed rfl ((reachable_founded premises).after attendants 3)⟩

end HostRun

end LeasedListener
