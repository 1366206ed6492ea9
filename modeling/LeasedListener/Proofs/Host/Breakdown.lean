import LeasedListener.Proofs.Host.Parts
import LeasedListener.Proofs.Host.Pause

/-!
# Breakdowns of a poller

A poller that nobody stops runs on until a user function breaks down.  The
listener does not notice: it counts as listening as before, the supervisor
leaves it alone, and nothing looks for a message any more.
-/

namespace LeasedListener

open Surroundings

section

variable {p : Poller} {cancelled found : Bool} {doings : List Doing} {course : TickCourse}
  {m : Delivery}

structure Unharmed (doings : List Doing) (course : TickCourse) : Prop where
  whole : doings.any Doing.breaksDown = false
  alive : ∀ reason, course ≠ .died () reason

theorem Unharmed.after (h : Unharmed doings course) {earlier : List Doing}
    (hearlier : earlier.any Doing.breaksDown = false) : Unharmed (doings ++ earlier) course where
  whole := by simp only [List.any_append, h.whole, hearlier, Bool.or_false]
  alive := h.alive

theorem Seeks.unharmed (h : Seeks p cancelled found doings course) : Unharmed doings course := by
  cases h with
  | quits _ | asks _ _ => exact ⟨rfl, by simp⟩

theorem Disposes.unharmed {succeeded : Bool} (h : Disposes p cancelled m succeeded doings course) :
    Unharmed doings course := by
  cases h with
  | deletes _ _ | releases _ _ | quarantines _ _ => exact ⟨rfl, by simp⟩
  | leaves _ seeks => exact seeks.unharmed

theorem Concludes.unharmed {reply : Except StorageError Unit}
    (h : Concludes p cancelled reply doings course) : Unharmed doings course := by
  cases h with
  | done seeks | failed _ seeks => exact seeks.unharmed
  | gone _ seeks => exact seeks.unharmed.after rfl
  | fails _ => exact ⟨rfl, by simp⟩

theorem Forgoes.unharmed {error : StorageError} (h : Forgoes p cancelled error doings course) :
    Unharmed doings course := by
  cases h with
  | fails _ => exact ⟨rfl, by simp⟩
  | leaves _ seeks => exact seeks.unharmed

/-- A tick dies of a user function that breaks down, and of nothing else. -/
theorem Script.unharmed_or_dies {phase : TickPhase} (h : Script p cancelled phase doings course) :
    Unharmed doings course ∨
      doings.any Doing.breaksDown = true ∧ ∃ reason, course = .died () reason := by
  cases h with
  | broken => exact .inr ⟨rfl, _, rfl⟩
  | present seeks => exact .inl (seeks.unharmed.after rfl)
  | absent | unknown | received | exhausted | unserved | executed _ | prepared | copied =>
      exact .inl ⟨rfl, by simp⟩
  | @settled _ _ succeeded _ _ _ _ _ disposes =>
      exact .inl (disposes.unharmed.after (by cases succeeded <;> rfl))
  | deleted concludes => exact .inl (concludes.unharmed.after rfl)
  | released concludes => exact .inl (concludes.unharmed.after rfl)
  | unreleased concludes => exact .inl (concludes.unharmed.after rfl)
  | unprepared forgoes => exact .inl (forgoes.unharmed.after rfl)
  | uncopied forgoes => exact .inl (forgoes.unharmed.after rfl)

theorem Tends.whole {phase phase' : TickPhase} (h : Tends p phase doings phase') :
    doings.any Doing.breaksDown = false := by
  cases h with
  | executing _ renews | settling _ renews => cases renews <;> rfl

end

/-- A loop that nobody has stopped is alive unless something has broken down
in the `doings`. -/
inductive PollerLoop.Survives (doings : List Doing) : PollerLoop → Prop
  | alive {pace : Pace Backoff} {state : LoopState TickPhase}
      (whole : doings.any Doing.breaksDown = false) : Survives doings (.live pace false state)
  | dead {reason : String} (broken : doings.any Doing.breaksDown = true) :
      Survives doings (.died reason)

theorem Plays.survives {p : Poller} {loop loop' : PollerLoop} {earlier new : List Doing}
    (h : Plays p loop new loop') (hloop : PollerLoop.Survives earlier loop) :
    PollerLoop.Survives (new ++ earlier) loop' := by
  cases hloop with
  | dead broken => cases h
  | alive whole =>
      -- nobody has cancelled the loop, so it does not return
      have hwhole : new.any Doing.breaksDown = false →
          (new ++ earlier).any Doing.breaksDown = false := by
        intro hnew
        simp only [List.any_append, hnew, whole, Bool.or_false]
      cases h with
      | waits | probes _ _ => exact .alive (hwhole rfl)
      | tends tends => exact .alive (hwhole tends.whole)
      | continues script =>
          rcases script.unharmed_or_dies with hunharmed | ⟨-, reason, hdies⟩
          · exact .alive (hwhole hunharmed.whole)
          · simp at hdies
      | ends script =>
          rcases script.unharmed_or_dies with hunharmed | ⟨-, reason, hdies⟩
          · exact .alive (hwhole hunharmed.whole)
          · simp at hdies
      | dies script =>
          rcases script.unharmed_or_dies with hunharmed | ⟨hbroken, -⟩
          · exact absurd rfl (hunharmed.alive _)
          · exact .dead (by simp only [List.any_append, hbroken, Bool.true_or])

namespace HostRun

variable {Env : Type} [Surroundings Env] {s t : HostRun Env} {config : HostConfig}
  {lease queue : String} {poison : Option String} {new : List Doing}

def isPolling (s : HostRun Env) : Bool := s.host.listener.timer?.any Timer.isRunning

/-- A run of a host that listens, with what has been done since its listener
got going. -/
inductive Spell (config : HostConfig) (lease queue : String) (poison : Option String) :
    HostRun Env → List Doing → Prop
  | opens {env env' : Env} {host : Host} {doings : List Doing}
      (started : Host.start config lease queue poison (env, []) = (.ok host, env', doings))
      (listens : host.isListening = true) :
      Spell config lease queue poison ⟨env', doings, host, .running⟩ []
  | begins {s t : HostRun Env} (reached : Reachable config lease queue poison s)
      (silent : s.host.isListening = false) (next : Step s t)
      (listens : t.host.isListening = true) : Spell config lease queue poison t []
  | lasts {s t : HostRun Env} {earlier new : List Doing}
      (spell : Spell config lease queue poison s earlier) (next : Step s t)
      (listens : t.host.isListening = true) (record : t.doings = new ++ s.doings) :
      Spell config lease queue poison t (new ++ earlier)

omit [Surroundings Env] in
theorem isListening_iff :
    s.host.isListening = true ↔ ∃ timer, s.host.listener.state = .listening timer := by
  rw [Host.isListening, Listener.isListening]
  cases s.host.listener.state <;> simp

/-- A step of a host that listens before and after concerns its poller or
nothing at all. -/
theorem carries_on (h : Step s t) {timer : PollerTimer}
    (hstate : s.host.listener.state = .listening timer) (hlistens : t.host.isListening = true) :
    (t.host.listener = s.host.listener ∧ t.doings = s.doings) ∨
      ∃ loop loop' new, timer.loop = some loop ∧ Plays s.host.listener.poller loop new loop' ∧
        t.host.listener.state = .listening { timer with loop := some loop' } ∧
        t.doings = new ++ s.doings := by
  have hlistens' : t.host.listener.isListening = true := hlistens
  have htimer : s.host.listener.timer? = some timer := by simp [Listener.timer?, hstate]
  cases attends_of_step h with
  | turned turn record =>
      cases turn with
      | kept same => exact .inl ⟨same, record⟩
      | asked stopping =>
          rw [stopping, s.host.listener.isListening_stop] at hlistens'
          simp at hlistens'
      | ended current wait state settled idle => simp [hstate] at state
      | started reason begins =>
          have hsame : t.host.listener = s.host.listener := by
            rw [begins, Listener.start, hstate]
          exact .inl ⟨hsame, record⟩
  | played before going plays after same record =>
      obtain rfl := Option.some.inj (htimer.symm.trans before)
      obtain ⟨timer', hstate'⟩ := isListening_iff.mp hlistens
      have htimer' : t.host.listener.timer? = some timer' := by simp [Listener.timer?, hstate']
      obtain rfl := Option.some.inj (htimer'.symm.trans after)
      exact .inr ⟨_, _, _, going, plays, hstate', record⟩

theorem begins_fresh (h : Step s t) (hsilent : s.host.isListening = false)
    (hlistens : t.host.isListening = true) :
    ∃ timer loop, t.host.listener.state = .listening timer ∧ timer.loop = some loop ∧
      PollerLoop.Survives [] loop := by
  have hsilent' : s.host.listener.isListening = false := hsilent
  have hlistens' : t.host.listener.isListening = true := hlistens
  cases attends_of_step h with
  | turned turn record =>
      cases turn with
      | kept same => simp [same, hsilent'] at hlistens'
      | asked stopping => simp [stopping, s.host.listener.isListening_stop] at hlistens'
      | ended timer wait state settled idle => simp [idle, Listener.isListening] at hlistens'
      | started reason begins =>
          rw [Listener.start] at begins
          split at begins
          · exact ⟨_, _, by rw [begins], rfl, .alive rfl⟩
          · simp [begins, hsilent'] at hlistens'
  | played before going plays after same record => simp [same.listening, hsilent'] at hlistens'

theorem Spell.survives (h : Spell config lease queue poison s new) :
    ∃ timer loop, s.host.listener.state = .listening timer ∧ timer.loop = some loop ∧
      PollerLoop.Survives new loop := by
  induction h with
  | @opens _ _ host _ started listens =>
      rcases Host.mode_of_start started with
        ⟨coordinator, hmode⟩ | ⟨timer, pace, hloop, hmode⟩
      · simp [Host.isListening, Host.listener, hmode, Supervisor.create, Listener.create,
          Listener.isListening] at listens
      · have hstate : host.listener.state = .listening timer := by simp [Host.listener, hmode]
        exact ⟨timer, _, hstate, hloop, .alive rfl⟩
  | begins reached silent next listens => exact begins_fresh next silent listens
  | @lasts s t earlier new spell next listens record ih =>
      obtain ⟨timer, loop, hstate, hloop, hsurvives⟩ := ih
      rcases carries_on next hstate listens with
        ⟨hsame, hrecord⟩ | ⟨current, loop', doings, hgoing, hplays, hstate', hrecord⟩
      · have hnone : new = [] := List.append_left_eq_self.mp (record.symm.trans hrecord)
        exact ⟨timer, loop, hsame ▸ hstate, hloop, by simpa [hnone] using hsurvives⟩
      · obtain rfl := Option.some.inj (hloop.symm.trans hgoing)
        obtain rfl := List.append_cancel_right (record.symm.trans hrecord)
        exact ⟨_, loop', hstate', rfl, hplays.survives hsurvives⟩

theorem Reachable.spell (h : Reachable config lease queue poison s)
    (hlistens : s.host.isListening = true) : ∃ new, Spell config lease queue poison s new := by
  induction h with
  | start started => exact ⟨[], .opens started hlistens⟩
  | @step s t reached next ih =>
      by_cases hbefore : s.host.isListening = true
      · obtain ⟨earlier, hspell⟩ := ih hbefore
        obtain ⟨timer, hstate⟩ := isListening_iff.mp hbefore
        rcases carries_on next hstate hlistens with
          ⟨-, hrecord⟩ | ⟨_, _, new, -, -, -, hrecord⟩
        · exact ⟨[] ++ earlier, hspell.lasts next hlistens hrecord⟩
        · exact ⟨new ++ earlier, hspell.lasts next hlistens hrecord⟩
      · have hsilent : s.host.isListening = false := Bool.eq_false_iff.mpr hbefore
        exact ⟨[], .begins reached hsilent next hlistens⟩

/-- What it means that a host listens, with what has been done since its
listener got going. -/
structure Attended (s : HostRun Env) (new : List Doing) : Prop where
  /-- A poller is at work unless a user function has broken down. -/
  polls : s.isPolling = true ↔ new.any Doing.breaksDown = false
  /-- Without one nothing is done until the listener is stopped. -/
  deserted : s.isPolling = false → ∀ t, Step s t → t.host.isListening = true →
    t.isPolling = false ∧ t.doings = s.doings

omit [Surroundings Env] in
theorem isPolling_of_state {timer : PollerTimer}
    (hstate : s.host.listener.state = .listening timer) : s.isPolling = timer.isRunning := by
  simp [isPolling, Listener.timer?, hstate]

theorem Spell.attended (h : Spell config lease queue poison s new) : s.Attended new := by
  obtain ⟨timer, loop, hstate, hloop, hsurvives⟩ := h.survives
  have hpolling : s.isPolling = timer.isRunning := isPolling_of_state hstate
  constructor
  case polls =>
    rw [hpolling]
    cases hsurvives with
    | alive whole => simp [Timer.isRunning, hloop, whole]
    | dead broken => simp [Timer.isRunning, hloop, broken]
  case deserted =>
    intro hdead t hstep hlistens
    rcases carries_on hstep hstate hlistens with
      ⟨hsame, hrecord⟩ | ⟨current, loop', doings, hgoing, hplays, hstate', hrecord⟩
    · have hpolling' : t.isPolling = s.isPolling := by rw [isPolling, isPolling, hsame]
      exact ⟨hpolling'.trans hdead, hrecord⟩
    · obtain rfl := Option.some.inj (hloop.symm.trans hgoing)
      cases hsurvives with
      | alive whole => simp [hpolling, Timer.isRunning, hloop] at hdead
      | dead broken => cases hplays

theorem listening_polls_iff (h : Reachable config lease queue poison s)
    (hlistens : s.host.isListening = true) :
    (∃ new, Spell config lease queue poison s new) ∧
      ∀ new, Spell config lease queue poison s new → s.Attended new :=
  ⟨h.spell hlistens, fun _ hspell => hspell.attended⟩

/-- A lease that is free, a message, and a user function that breaks down. -/
def treacherous : World :=
  { stocked with
    container := ⟨⟨[("lock", .free)]⟩⟩
    executors := ⟨[("host", ⟨.scripted [{ breaksDown := true }] {}, []⟩)]⟩ }

def deserted : HostRun World := (founded treacherous).after attendants 7

/-- A host may say that it listens, and hold the lease, without a poller. -/
theorem listens_without_poller :
    Reachable candidate "lock" "jobs" none deserted ∧ deserted.host.isListening = true ∧
      deserted.host.hasLease = true ∧ deserted.isPolling = false :=
  ⟨(reachable_founded treacherous).after attendants 7, by decide, by decide, by decide⟩

theorem listening_polls_iff_deserted :
    deserted.host.isListening = true ∧
      ((∃ new, Spell candidate "lock" "jobs" none deserted new) ∧
        ∀ new, Spell candidate "lock" "jobs" none deserted new → deserted.Attended new) :=
  ⟨by decide,
    listening_polls_iff ((reachable_founded treacherous).after attendants 7) (by decide)⟩

end HostRun

end LeasedListener
