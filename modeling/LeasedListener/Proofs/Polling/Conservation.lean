import LeasedListener.Proofs.Polling.Rules
import Mathlib.Logic.Function.Basic
import Mathlib.Logic.Relation

/-!
# Conservation of messages

The pollers of a site are started, cancelled and dropped at any time, and make
their transitions in any order.  Their calls go as the gateways will have it,
and the runs of their user functions as the scripts will have it.  Other
clients call the queue as well, but only pollers delete messages.  Whatever
was in the queue once is still there, unless it is settled.
-/

namespace LeasedListener

open Surroundings

/-- The pollers of a site at work. -/
structure Crew (ι : Type) where
  env : World × Chronicle
  timers : ι → Option PollerTimer

namespace PollingSite

variable {ι : Type}

/-- Whether a change from outside leaves the site in peace: nothing happens to
the queue and to the runs on record, and nobody else reports a quarantine. -/
structure Spares (S : PollingSite ι) (w w' : World) : Prop where
  later : w.now ≤ w'.now
  log : ∃ entries, w'.log = entries ++ w.log ∧ ∀ entry ∈ entries, ∀ poison id copy count,
    entry.event ≠ .messageQuarantined S.primary poison id copy count
  serials : w.serials.message ≤ w'.serials.message
  queue : w'.queue S.primary = w.queue S.primary
  records : ∀ i, (w'.executor (S.names i)).records = (w.executor (S.names i)).records
  scripted : ∀ i, ∃ script standard,
    (w'.executor (S.names i)).behaviour = .scripted script standard

/-- A new world, with what is in its queues on record. -/
def noted (S : PollingSite ι) (env : World × Chronicle) (w : World) : World × Chronicle :=
  (w, env.2.noteQueues S.primary S.poison w)

theorem Spares.shifts {S : PollingSite ι} {env : World × Chronicle} {w : World}
    (h : S.Spares env.1 w) : S.Shifts env w where
  later := h.later
  log := by
    obtain ⟨entries, hlog, -⟩ := h.log
    rw [hlog]
    exact List.subset_append_right ..
  records := h.records
  scripted := h.scripted
  serials := h.serials
  kept := by
    intro id body hstored
    rw [h.queue]
    exact .inl hstored
  added := by
    refine ⟨[], ?_⟩
    intro id body hstored
    rw [h.queue] at hstored
    exact .inl hstored

end PollingSite

namespace Crew

variable {ι : Type} [DecidableEq ι]

def put (a : Crew ι) (i : ι) (timer : Option PollerTimer) : Crew ι :=
  { a with timers := Function.update a.timers i timer }

theorem timers_put_self (a : Crew ι) (i : ι) (timer : Option PollerTimer) :
    (a.put i timer).timers i = timer :=
  Function.update_self ..

theorem timers_put_of_ne {i j : ι} (h : j ≠ i) (a : Crew ι) (timer : Option PollerTimer) :
    (a.put i timer).timers j = a.timers j :=
  Function.update_of_ne h ..

inductive Step (S : PollingSite ι) : Crew ι → Crew ι → Prop
  | elsewhere {a : Crew ι} {w : World} (spared : S.Spares a.env.1 w) :
      Step S a { a with env := S.noted a.env w }
  | client {a : Crew ι} {call : QueueCall} {transit : Transit} (keeps : ∀ m, call ≠ .delete m) :
      Step S a { a with env := S.noted a.env (a.env.1.callQueue S.primary call transit).1 }
  | join {a : Crew ι} {i : ι} (absent : a.timers i = none) :
      Step S a (a.put i (some (.create (S.poller i).timerName (S.poller i).pace)))
  | start {a : Crew ι} {i : ι} {t t' : PollerTimer} {stepFirst : Bool}
      (present : a.timers i = some t) (started : t.start stepFirst = .ok t') :
      Step S a (a.put i (some t'))
  | rouse {a : Crew ι} {i : ι} {t : PollerTimer} (present : a.timers i = some t) :
      Step S a (a.put i (some t.rouse))
  | poll {a : Crew ι} {i : ι} {t t' : PollerTimer} {env : World × Chronicle}
      (present : a.timers i = some t)
      (polled : t.poll ((S.poller i).drive (S.access i)) a.env = some (t', env)) :
      Step S a ({ a with env }.put i (some t'))
  | cancel {a : Crew ι} {i : ι} {t : PollerTimer} (present : a.timers i = some t) :
      Step S a (a.put i (some t.cancel))
  | settle {a : Crew ι} {i : ι} {t t' : PollerTimer} {wait : StopWait}
      {result : Except TimerError Unit} {events : List Event} (present : a.timers i = some t)
      (settled : t.stopResult? wait (now a.env) = some (t', result, events)) :
      Step S a ({ a with env := reportAll a.env events }.put i (some t'))
  | drop {a : Crew ι} {i : ι} : Step S a (a.put i none)

/-- In the beginning the queue is empty, and nothing has happened yet. -/
inductive Reachable (S : PollingSite ι) : Crew ι → Prop
  | start {w : World} (empty : (w.queue S.primary).messages = []) (silent : w.log = [])
      (idle : ∀ i, ∃ script standard, w.executor (S.names i) = ⟨.scripted script standard, []⟩) :
      Reachable S ⟨(w, ⟨[], [], []⟩), fun _ => none⟩
  | step {a b : Crew ι} : Reachable S a → Step S a b → Reachable S b

variable {S : PollingSite ι} {a b : Crew ι}

/-- Every tick knows what it should know. -/
structure Invariant (S : PollingSite ι) (a : Crew ι) : Prop where
  valid : S.Valid a.env
  knows : ∀ i t phase, a.timers i = some t → t.phase? = some phase →
    (S.logic i).holds a.env phase.assertion

omit [DecidableEq ι] in
theorem Invariant.follow (ha : a.Invariant S) {env : World × Chronicle}
    (hfollows : S.Follows a.env env) :
    ({ a with env } : Crew ι).Invariant S ∧ S.Grows a.env env := by
  obtain ⟨hvalid, hgrows⟩ := hfollows ha.valid
  refine ⟨⟨hvalid, ?_⟩, hgrows⟩
  intro i t phase htimer hphase
  exact (S.governs i).stable hfollows (ha.knows i t phase htimer hphase)

theorem Invariant.put (ha : a.Invariant S) {i : ι} {timer : Option PollerTimer}
    (hknows : ∀ t phase, timer = some t → t.phase? = some phase →
      (S.logic i).holds a.env phase.assertion) : (a.put i timer).Invariant S where
  valid := ha.valid
  knows := by
    intro j t phase htimer hphase
    by_cases hself : j = i
    · subst hself
      rw [timers_put_self] at htimer
      exact hknows t phase htimer hphase
    · rw [timers_put_of_ne hself] at htimer
      exact ha.knows j t phase htimer hphase

theorem Invariant.quiet (ha : a.Invariant S) {i : ι} {t t' : PollerTimer}
    (hpresent : a.timers i = some t) (hphase : t'.phase? = none ∨ t'.phase? = t.phase?) :
    (a.put i (some t')).Invariant S := by
  refine ha.put ?_
  intro other phase hother hstepping
  obtain rfl := Option.some.inj hother
  rcases hphase with hnone | hsame
  · rw [hnone] at hstepping
    simp at hstepping
  · exact ha.knows i t phase hpresent (hsame.symm.trans hstepping)

theorem Invariant.step (ha : a.Invariant S) (hstep : Step S a b) :
    b.Invariant S ∧ S.Grows a.env b.env := by
  cases hstep with
  | elsewhere spared =>
      exact ha.follow fun hvalid => ⟨spared.shifts.valid hvalid, spared.shifts.grows⟩
  | @client call transit keeps =>
      refine ha.follow fun hvalid => ?_
      have hshift : S.Shifts a.env (a.env.1.callQueue S.primary call transit).1 :=
        hvalid.shifts_callQueue keeps
      exact ⟨hshift.valid hvalid, hshift.grows⟩
  | join absent =>
      refine ⟨ha.put ?_, .refl S a.env⟩
      intro t phase htimer hphase
      obtain rfl := Option.some.inj htimer
      simp [Timer.create, Timer.phase?] at hphase
  | start present started =>
      exact ⟨ha.quiet present (.inl (Timer.of_start started).1), .refl S a.env⟩
  | @rouse i t present => exact ⟨ha.quiet present (.inr t.phase?_rouse), .refl S a.env⟩
  | @poll i t t' env present polled =>
      obtain ⟨hfollows, hknows⟩ := (S.governs i).poll ⟨ha.valid, trivial⟩
        (fun phase hphase => ha.knows i t phase present hphase) polled
      obtain ⟨hfollowed, hgrows⟩ := ha.follow hfollows
      refine ⟨hfollowed.put ?_, hgrows⟩
      intro other phase hother hphase
      obtain rfl := Option.some.inj hother
      exact hknows phase hphase
  | @cancel i t present => exact ⟨ha.quiet present (.inr t.phase?_cancel), .refl S a.env⟩
  | @settle i t t' wait result events present settled =>
      have hidle : t'.phase? = none := by
        simp [Timer.phase?, (Timer.of_stopResult? settled).1]
      obtain ⟨hfollowed, hgrows⟩ := ha.follow ((S.governs i).reportAll a.env events)
      exact ⟨hfollowed.quiet present (.inl hidle), hgrows⟩
  | drop => exact ⟨ha.put (by simp), .refl S a.env⟩

theorem Invariant.run (ha : a.Invariant S) (hrun : Relation.ReflTransGen (Step S) a b) :
    b.Invariant S ∧ S.Grows a.env b.env := by
  induction hrun with
  | refl => exact ⟨ha, .refl S a.env⟩
  | tail _ hstep ih =>
      obtain ⟨hb, hgrows⟩ := ih
      obtain ⟨hc, hgrows'⟩ := hb.step hstep
      exact ⟨hc, hgrows.trans hgrows'⟩

theorem Reachable.invariant (h : Reachable S a) : a.Invariant S := by
  induction h with
  | @start w empty silent idle =>
      constructor
      case valid =>
          constructor
          case arrived => simp [empty]
          case scripted =>
              intro i
              obtain ⟨script, standard, hexecutor⟩ := idle i
              exact ⟨script, standard, by rw [hexecutor]⟩
          all_goals simp
      case knows => simp
  | step _ hstep ih => exact (ih.step hstep).1

/-- A message that was in the queue once is still there, with its body, unless
a run on it has succeeded, or its body was copied to the poison queue after its
last run failed. -/
theorem stored_or_settled (ha : Reachable S a) (hrun : Relation.ReflTransGen (Step S) a b)
    {id : MessageId} {body : List UInt8} (hstored : (a.env.1.queue S.primary).Stores id body) :
    (b.env.1.queue S.primary).Stores id body ∨ S.Settled b.env id body := by
  have hinvariant : a.Invariant S := ha.invariant
  obtain ⟨hb, hgrows⟩ := hinvariant.run hrun
  obtain ⟨m, harrived, hid, hbody⟩ := hinvariant.valid.stored hstored
  have haccounted := hb.valid.accounted m (hgrows.arrived harrived)
  rw [hid, hbody] at haccounted
  exact haccounted

def advance (S : PollingSite ι) (i : ι) : Nat → Crew ι → Crew ι
  | 0, a => a
  | count + 1, a =>
      match a.timers i with
      | none => a
      | some t =>
          match t.poll ((S.poller i).drive (S.access i)) a.env with
          | none => a
          | some (t, env) => advance S i count ({ a with env }.put i (some t))

theorem run_advance (S : PollingSite ι) (i : ι) (count : Nat) (a : Crew ι) :
    Relation.ReflTransGen (Step S) a (a.advance S i count) := by
  induction count generalizing a with
  | zero => exact .refl
  | succ count ih =>
      unfold advance
      split
      · exact .refl
      · next t present =>
          split
          · exact .refl
          · next t' env polled => exact .head (.poll present polled) (ih _)

/-- A site with one poller, which has no patience with failures. -/
def workshop : PollingSite Unit where
  primary := "jobs"
  poison := "scrap"
  distinct := by decide
  names _ := "worker"
  configs _ := { PollingConfig.standard with maxDequeueCount := 1 }
  quarantines _ := true

/-- The workshop before its poller joins; every run of the user function will
fail. -/
def vacant : Crew Unit where
  env :=
    ({ World.initial with
      queues := ⟨[("jobs", .create "jobs"), ("scrap", .create "scrap")]⟩
      executors := ⟨[("worker", ⟨.scripted [] { succeeds := false }, []⟩)]⟩ }, ⟨[], [], []⟩)
  timers _ := none

def loaded : Crew Unit :=
  { vacant with
    env := workshop.noted vacant.env
      (vacant.env.1.callQueue "jobs" (.enqueue [7]) (.direct 0)).1 }

def manned : Crew Unit :=
  (loaded.put () (some (.create (workshop.poller ()).timerName (workshop.poller ()).pace))).put ()
    (some (.started (workshop.poller ()).timerName (workshop.poller ()).pace true))

theorem reachable_loaded : Reachable workshop loaded := by
  have hvacant : Reachable workshop vacant := .start rfl rfl fun _ => ⟨_, _, rfl⟩
  exact hvacant.step (.client (by simp))

theorem run_manned : Relation.ReflTransGen (Step workshop) loaded manned :=
  .tail (.single (.join rfl)) (.start (timers_put_self ..) rfl)

theorem stored_or_settled_scrapped :
    (loaded.env.1.queue "jobs").Stores ⟨0⟩ [7] ∧
      ((manned.advance workshop () 9).env.1.queue "jobs").messages = [] ∧
      workshop.Settled (manned.advance workshop () 9).env ⟨0⟩ [7] := by
  have hstored : (loaded.env.1.queue "jobs").Stores ⟨0⟩ [7] := ⟨_, List.mem_cons_self .., rfl, rfl⟩
  have hempty : ((manned.advance workshop () 9).env.1.queue "jobs").messages = [] := rfl
  refine ⟨hstored, hempty, ?_⟩
  refine (stored_or_settled reachable_loaded
    (run_manned.trans (run_advance workshop () 9 manned)) hstored).resolve_left ?_
  rintro ⟨m, hm, -⟩
  have hm : m ∈ ((manned.advance workshop () 9).env.1.queue "jobs").messages := hm
  rw [hempty] at hm
  exact absurd hm (by simp)

end Crew

end LeasedListener
