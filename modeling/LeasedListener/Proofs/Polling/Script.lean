import LeasedListener.Polling.Tick
import LeasedListener.Proofs.Timer.Attempts

/-!
# The script of a tick

What a poller does can be told without its environment: which calls it begins
and is answered, which runs it starts and sees ending, and which marks it
makes.  A script says what a phase leads to, and with which doings on the way.
Every transition of a tick, of its renewal timer and of the loop around it
follows the script.
-/

namespace LeasedListener

open Surroundings

inductive QueueRole
  | primary
  | poison
deriving DecidableEq

def PollerAccess.side {Env : Type} (a : PollerAccess Env) : QueueRole → QueueAccess Env
  | .primary => a.queue
  | .poison => a.poison

inductive Doing
  | begun (role : QueueRole) (call : QueueCall) (transit : Transit)
  | answered (role : QueueRole) (call : QueueCall) (transit : Transit)
      (reply : Except StorageError call.Reply)
  | marked (mark : Mark)
  | started (m : Delivery) (execution : Execution)
  | finished (execution : Execution) (result : Except String Bool)

/-- A run of the user function that broke down. -/
def Doing.breaksDown : Doing → Bool
  | .finished _ (.error _) => true
  | _ => false

variable {Env : Type} [Surroundings Env]

/-- An environment is taken to another by a poller's doings, the latest first,
and by reports. -/
inductive Does (a : PollerAccess Env) (env : Env) : List Doing → Env → Prop
  | rest : Does a env [] env
  | report {doings : List Doing} {env' : Env} (event : Event) (before : Does a env doings env') :
      Does a env doings (report env' event)
  | mark {doings : List Doing} {env' : Env} (m : Mark) (before : Does a env doings env') :
      Does a env (.marked m :: doings) (a.mark env' m)
  | begin {doings : List Doing} {env' : Env} (role : QueueRole) (call : QueueCall)
      (before : Does a env doings env') :
      Does a env (.begun role call ((a.side role).issue env' call).2 :: doings)
        ((a.side role).issue env' call).1
  | hear {doings : List Doing} {env' : Env} (role : QueueRole) (call : QueueCall)
      (transit : Transit) (before : Does a env doings env') :
      Does a env (.answered role call transit ((a.side role).perform env' call transit).2 :: doings)
        ((a.side role).perform env' call transit).1
  | start {doings : List Doing} {env' : Env} (m : Delivery) (before : Does a env doings env') :
      Does a env (.started m (a.execute env' m).2 :: doings) (a.execute env' m).1
  | finish {doings : List Doing} {env' : Env} (execution : Execution)
      (result : Except String Bool) (before : Does a env doings env') :
      Does a env (.finished execution result :: doings) (a.finish env' execution result)

theorem Does.trans {a : PollerAccess Env} {env env' env'' : Env} {doings later : List Doing}
    (h : Does a env doings env') (h' : Does a env' later env'') :
    Does a env (later ++ doings) env'' := by
  induction h' with
  | rest => exact h
  | report event _ ih => exact ih.report event
  | mark m _ ih => exact ih.mark m
  | begin role call _ ih => exact ih.begin role call
  | hear role call transit _ ih => exact ih.hear role call transit
  | start m _ ih => exact ih.start m
  | finish execution result _ ih => exact ih.finish execution result

theorem Does.reportAll {a : PollerAccess Env} {env env' : Env} {doings : List Doing}
    (h : Does a env doings env') (events : List Event) :
    Does a env doings (reportAll env' events) := by
  induction events generalizing env' with
  | nil => exact h
  | cons event events ih => exact ih (h.report event)

theorem Does.last {a : PollerAccess Env} {env env'' : Env} {doing : Doing} {doings : List Doing}
    (h : Does a env (doing :: doings) env'') :
    ∃ env', Does a env doings env' ∧ Does a env' [doing] env'' := by
  generalize hall : doing :: doings = all at h
  induction h with
  | rest => simp at hall
  | report event _ ih =>
      obtain ⟨env', hbefore, hlast⟩ := ih hall
      exact ⟨env', hbefore, hlast.report event⟩
  | mark m hbefore _ => cases hall; exact ⟨_, hbefore, Does.rest.mark m⟩
  | begin role call hbefore _ => cases hall; exact ⟨_, hbefore, Does.rest.begin role call⟩
  | hear role call sent hbefore _ => cases hall; exact ⟨_, hbefore, Does.rest.hear role call sent⟩
  | start m hbefore _ => cases hall; exact ⟨_, hbefore, Does.rest.start m⟩
  | finish execution result hbefore _ =>
      cases hall
      exact ⟨_, hbefore, Does.rest.finish execution result⟩

section

variable {a : PollerAccess Env} {env env'' : Env} {role : QueueRole} {call : QueueCall}
  {transit : Transit} {reply : Except StorageError call.Reply}

theorem Does.only_heard (h : Does a env [.answered role call transit reply] env'') :
    ∃ env', Does a env [] env' ∧ reply = ((a.side role).perform env' call transit).2 ∧
      Does a ((a.side role).perform env' call transit).1 [] env'' := by
  generalize hall : [Doing.answered role call transit reply] = all at h
  induction h with
  | report event _ ih =>
      obtain ⟨env', hbefore, hreply, hafter⟩ := ih hall
      exact ⟨env', hbefore, hreply, hafter.report event⟩
  | hear other sent _ hbefore _ =>
      cases hall
      exact ⟨_, hbefore, rfl, .rest⟩
  | rest | mark _ _ _ | begin _ _ _ _ | start _ _ _ | finish _ _ _ _ => simp at hall

/-- The first thing that was done is that a call on a queue was answered. -/
theorem Does.heard {later : List Doing}
    (h : Does a env (later ++ [.answered role call transit reply]) env'') :
    ∃ env', Does a env [] env' ∧ reply = ((a.side role).perform env' call transit).2 ∧
      Does a ((a.side role).perform env' call transit).1 later env'' := by
  induction later generalizing env'' with
  | nil => exact h.only_heard
  | cons doing later ih =>
      obtain ⟨mid, hbefore, hlast⟩ := Does.last h
      obtain ⟨env', hsilent, hreply, hafter⟩ := ih hbefore
      exact ⟨env', hsilent, hreply, hafter.trans hlast⟩

end

/-- Where a transition leads, whatever the environment. -/
def Progress.course {Env Phase Result : Type} :
    Progress Env Phase Result → Progress Unit Phase Result
  | .continues _ phase => .continues () phase
  | .ended _ result => .ended () result
  | .died _ reason => .died () reason

abbrev TickCourse := TickProgress Unit

/-- What a failed call of its own makes of a tick that can go no further. -/
def StorageError.tickResult (error : StorageError) : Except StorageError Bool :=
  if error.isFatal then .error error else .ok false

inductive Seeks (p : Poller) (cancelled found : Bool) : List Doing → TickCourse → Prop
  | quits (stopped : cancelled = true) : Seeks p cancelled found [] (.ended () (.ok found))
  | asks (going : cancelled = false) (transit : Transit) :
      Seeks p cancelled found [.begun .primary (.dequeue p.config.visibilityTimeout) transit]
        (.continues () (.dequeuing found transit))

inductive Disposes (p : Poller) (cancelled : Bool) (m : Delivery) (succeeded : Bool) :
    List Doing → TickCourse → Prop
  | deletes (transit : Transit)
      (verdict : disposition p.config.maxDequeueCount succeeded m.dequeueCount p.poison.isSome =
        .delete) :
      Disposes p cancelled m succeeded [.begun .primary (.delete m) transit]
        (.continues () (.deleting m transit))
  | releases (transit : Transit)
      (verdict : disposition p.config.maxDequeueCount succeeded m.dequeueCount p.poison.isSome =
        .release) :
      Disposes p cancelled m succeeded [.begun .primary (.update m .zero) transit]
        (.continues () (.releasing m transit))
  | quarantines (transit : Transit)
      (verdict : disposition p.config.maxDequeueCount succeeded m.dequeueCount p.poison.isSome =
        .quarantine) :
      Disposes p cancelled m succeeded [.begun .poison .create transit]
        (.continues () (.preparing m transit))
  | leaves {doings : List Doing} {course : TickCourse}
      (verdict : disposition p.config.maxDequeueCount succeeded m.dequeueCount p.poison.isSome =
        .leave)
      (seeks : Seeks p cancelled true doings course) :
      Disposes p cancelled m succeeded doings course

/-- What follows the answer to the last call for a message. -/
inductive Concludes (p : Poller) (cancelled : Bool) :
    Except StorageError Unit → List Doing → TickCourse → Prop
  | done {doings : List Doing} {course : TickCourse}
      (seeks : Seeks p cancelled true doings course) :
      Concludes p cancelled (.ok ()) doings course
  | gone {error : StorageError} {doings : List Doing} {course : TickCourse}
      (refused : error.errorClass = .conflict ∨ error.errorClass = .notFound)
      (seeks : Seeks p cancelled true doings course) :
      Concludes p cancelled (.error error) (doings ++ [.marked .disposalConflict]) course
  | failed {error : StorageError} {doings : List Doing} {course : TickCourse}
      (troubled : error.errorClass = .transient) (seeks : Seeks p cancelled true doings course) :
      Concludes p cancelled (.error error) doings course
  | fails {error : StorageError} (fatal : error.errorClass = .fatal) :
      Concludes p cancelled (.error error) [] (.ended () (.error error))

/-- What follows a failure to copy a message. -/
inductive Forgoes (p : Poller) (cancelled : Bool) (error : StorageError) :
    List Doing → TickCourse → Prop
  | fails (fatal : error.isFatal = true) : Forgoes p cancelled error [] (.ended () (.error error))
  | leaves {doings : List Doing} {course : TickCourse} (mild : error.isFatal = false)
      (seeks : Seeks p cancelled true doings course) : Forgoes p cancelled error doings course

inductive Script (p : Poller) (cancelled : Bool) : TickPhase → List Doing → TickCourse → Prop
  | present {transit : Transit} {doings : List Doing} {course : TickCourse}
      (seeks : Seeks p cancelled false doings course) :
      Script p cancelled (.probing transit)
        (doings ++ [.answered .primary .probe transit (.ok true)]) course
  | absent {transit : Transit} :
      Script p cancelled (.probing transit) [.answered .primary .probe transit (.ok false)]
        (.ended () (.ok false))
  | unknown {transit : Transit} {error : StorageError} :
      Script p cancelled (.probing transit) [.answered .primary .probe transit (.error error)]
        (.ended () error.tickResult)
  | received {found : Bool} {transit : Transit} {m : Delivery} {execution : Execution} :
      Script p cancelled (.dequeuing found transit)
        [.started m execution, .marked .dequeued,
          .answered .primary (.dequeue p.config.visibilityTimeout) transit (.ok (some m))]
        (.continues () (.executing (.create m) (p.renewalTimer m) execution))
  | exhausted {found : Bool} {transit : Transit} :
      Script p cancelled (.dequeuing found transit)
        [.answered .primary (.dequeue p.config.visibilityTimeout) transit (.ok none)]
        (.ended () (.ok found))
  | unserved {found : Bool} {transit : Transit} {error : StorageError} :
      Script p cancelled (.dequeuing found transit)
        [.answered .primary (.dequeue p.config.visibilityTimeout) transit (.error error)]
        (.ended () error.tickResult)
  | executed {claim : Claim} {renewal : RenewalTimer} {execution : Execution} {succeeded : Bool}
      {instant start : Nat} (ended : execution.result? instant cancelled = some (.ok succeeded)) :
      Script p cancelled (.executing claim renewal execution)
        [.finished execution (.ok succeeded)]
        (.continues ()
          (.settling claim renewal.cancel succeeded (.start start p.config.stopTimeout)))
  | broken {claim : Claim} {renewal : RenewalTimer} {execution : Execution} {reason : String}
      {instant : Nat} (ended : execution.result? instant cancelled = some (.error reason)) :
      Script p cancelled (.executing claim renewal execution)
        [.finished execution (.error reason)] (.died () reason)
  | settled {claim : Claim} {renewal : RenewalTimer} {succeeded : Bool} {wait : StopWait}
      {instant : Nat} (stopped : (renewal.stopResult? wait instant).isSome = true)
      {doings : List Doing} {course : TickCourse}
      (disposes : Disposes p cancelled claim.message succeeded doings course) :
      Script p cancelled (.settling claim renewal succeeded wait)
        (doings ++ [.marked (if succeeded then .succeeded else .failed)]) course
  | deleted {m : Delivery} {transit : Transit} {reply : Except StorageError Unit}
      {doings : List Doing} {course : TickCourse}
      (concludes : Concludes p cancelled reply doings course) :
      Script p cancelled (.deleting m transit)
        (doings ++ [.answered .primary (.delete m) transit reply]) course
  | released {m : Delivery} {transit : Transit} {receipt : Receipt} {doings : List Doing}
      {course : TickCourse} (concludes : Concludes p cancelled (.ok ()) doings course) :
      Script p cancelled (.releasing m transit)
        (doings ++ [.marked .released,
          .answered .primary (.update m .zero) transit (.ok receipt)]) course
  | unreleased {m : Delivery} {transit : Transit} {error : StorageError} {doings : List Doing}
      {course : TickCourse} (concludes : Concludes p cancelled (.error error) doings course) :
      Script p cancelled (.releasing m transit)
        (doings ++ [.answered .primary (.update m .zero) transit (.error error)]) course
  | prepared {m : Delivery} {transit transit' : Transit} :
      Script p cancelled (.preparing m transit)
        [.begun .poison (.enqueue m.body) transit', .answered .poison .create transit (.ok ())]
        (.continues () (.copying m transit'))
  | unprepared {m : Delivery} {transit : Transit} {error : StorageError} {doings : List Doing}
      {course : TickCourse} (forgoes : Forgoes p cancelled error doings course) :
      Script p cancelled (.preparing m transit)
        (doings ++ [.answered .poison .create transit (.error error)]) course
  | copied {m : Delivery} {transit transit' : Transit} {copy : MessageId} :
      Script p cancelled (.copying m transit)
        [.begun .primary (.delete m) transit', .marked .poisoned,
          .answered .poison (.enqueue m.body) transit (.ok copy)]
        (.continues () (.deleting m transit'))
  | uncopied {m : Delivery} {transit : Transit} {error : StorageError} {doings : List Doing}
      {course : TickCourse} (forgoes : Forgoes p cancelled error doings course) :
      Script p cancelled (.copying m transit)
        (doings ++ [.answered .poison (.enqueue m.body) transit (.error error)]) course

/-- What the holder of a claim learns from the answer to a renewal, and what
becomes of the attempt. -/
inductive Learns (claim : Claim) :
    Except StorageError Receipt → Claim → Except StorageError Bool → Prop
  | renewed (receipt : Receipt) (nextVisibleAt : Timestamp) :
      Learns claim (.ok receipt) (claim.renewed receipt nextVisibleAt) (.ok true)
  | gone {error : StorageError}
      (refused : error.errorClass = .conflict ∨ error.errorClass = .notFound) :
      Learns claim (.error error) { claim with lost := true } (.ok true)
  | failed {error : StorageError} (troubled : error.errorClass = .transient) :
      Learns claim (.error error) claim (.ok false)
  | fails {error : StorageError} (fatal : error.errorClass = .fatal) :
      Learns claim (.error error) claim (.error error)

abbrev RenewalLoop := TimerLoop (Pace Speedup) RenewalCall

inductive Renews (p : Poller) (claim : Claim) :
    RenewalLoop → List Doing → Claim → RenewalLoop → Prop
  | waits {pace : Pace Speedup} {instant : Nat} :
      Renews p claim (.live pace false (.spawned false)) [] claim
        (.live pace false (.waiting (Instant.waitEnd instant pace.next)))
  | returns {pace : Pace Speedup} {state : LoopState RenewalCall} (idle : state.phase? = none) :
      Renews p claim (.live pace true state) [] claim (.returned pace)
  | skips {pace : Pace Speedup} {state : LoopState RenewalCall} {instant : Nat}
      (idle : state.phase? = none) (lost : claim.lost = true) :
      Renews p claim (.live pace false state) [] claim
        (.live (pace.outcome true) false
          (.waiting (Instant.waitEnd instant (pace.outcome true).next)))
  | asks {pace : Pace Speedup} {state : LoopState RenewalCall} (idle : state.phase? = none)
      (kept : claim.lost = false) (transit : Transit) :
      Renews p claim (.live pace false state)
        [.begun .primary (.update claim.message p.config.visibilityTimeout) transit] claim
        (.live pace false (.stepping ⟨claim.message, transit⟩))
  | hears {pace : Pace Speedup} {cancelled : Bool} {waiting : RenewalCall}
      {reply : Except StorageError Receipt} {claim' : Claim} {result : Except StorageError Bool}
      {instant : Nat} (learns : Learns claim reply claim' result) :
      Renews p claim (.live pace cancelled (.stepping waiting))
        [.answered .primary (.update waiting.presented p.config.visibilityTimeout) waiting.transit
          reply] claim'
        (.live (pace.afterResult result) cancelled
          (.waiting (Instant.waitEnd instant (pace.afterResult result).next)))

/-- A transition of the renewal timer of the message under way. -/
inductive Tends (p : Poller) : TickPhase → List Doing → TickPhase → Prop
  | executing {claim claim' : Claim} {renewal : RenewalTimer} {execution : Execution}
      {loop loop' : RenewalLoop} {doings : List Doing} (going : renewal.loop = some loop)
      (renews : Renews p claim loop doings claim' loop') :
      Tends p (.executing claim renewal execution) doings
        (.executing claim' { renewal with loop := some loop' } execution)
  | settling {claim claim' : Claim} {renewal : RenewalTimer} {succeeded : Bool} {wait : StopWait}
      {loop loop' : RenewalLoop} {doings : List Doing} (going : renewal.loop = some loop)
      (renews : Renews p claim loop doings claim' loop') :
      Tends p (.settling claim renewal succeeded wait) doings
        (.settling claim' { renewal with loop := some loop' } succeeded wait)

abbrev PollerLoop := TimerLoop (Pace Backoff) TickPhase

/-- A transition of the loop that makes the ticks of a poller. -/
inductive Plays (p : Poller) : PollerLoop → List Doing → PollerLoop → Prop
  | waits {pace : Pace Backoff} {instant : Nat} :
      Plays p (.live pace false (.spawned false)) []
        (.live pace false (.waiting (Instant.waitEnd instant pace.next)))
  | returns {pace : Pace Backoff} {state : LoopState TickPhase} (idle : state.phase? = none) :
      Plays p (.live pace true state) [] (.returned pace)
  | probes {pace : Pace Backoff} {state : LoopState TickPhase} (idle : state.phase? = none)
      (transit : Transit) :
      Plays p (.live pace false state) [.begun .primary .probe transit]
        (.live pace false (.stepping (.probing transit)))
  | continues {pace : Pace Backoff} {cancelled : Bool} {phase phase' : TickPhase}
      {doings : List Doing} (script : Script p cancelled phase doings (.continues () phase')) :
      Plays p (.live pace cancelled (.stepping phase)) doings
        (.live pace cancelled (.stepping phase'))
  | ends {pace : Pace Backoff} {cancelled : Bool} {phase : TickPhase} {doings : List Doing}
      {result : Except StorageError Bool} {instant : Nat}
      (script : Script p cancelled phase doings (.ended () result)) :
      Plays p (.live pace cancelled (.stepping phase)) doings
        (.live (pace.afterResult result) cancelled
          (.waiting (Instant.waitEnd instant (pace.afterResult result).next)))
  | dies {pace : Pace Backoff} {cancelled : Bool} {phase : TickPhase} {doings : List Doing}
      {reason : String} (script : Script p cancelled phase doings (.died () reason)) :
      Plays p (.live pace cancelled (.stepping phase)) doings (.died reason)
  | tends {pace : Pace Backoff} {cancelled : Bool} {phase phase' : TickPhase}
      {doings : List Doing} (tends : Tends p phase doings phase') :
      Plays p (.live pace cancelled (.stepping phase)) doings
        (.live pace cancelled (.stepping phase'))

def Performs (a : PollerAccess Env) (env : Env) (script : List Doing → TickCourse → Prop)
    (progress : TickProgress Env) : Prop :=
  ∃ doings, Does a env doings progress.env ∧ script doings progress.course

section

variable {p : Poller} {a : PollerAccess Env} {env env' : Env} {cancelled : Bool}
  {script script' : List Doing → TickCourse → Prop} {progress : TickProgress Env}

theorem Performs.after {earlier : List Doing} (hbefore : Does a env earlier env')
    (h : Performs a env' script progress)
    (hscript : ∀ doings course, script doings course → script' (doings ++ earlier) course) :
    Performs a env script' progress := by
  obtain ⟨doings, hdoes, hfollows⟩ := h
  exact ⟨doings ++ earlier, hbefore.trans hdoes, hscript doings _ hfollows⟩

theorem Performs.imp (h : Performs a env script progress)
    (hscript : ∀ doings course, script doings course → script' doings course) :
    Performs a env script' progress := by
  obtain ⟨doings, hdoes, hfollows⟩ := h
  exact ⟨doings, hdoes, hscript doings _ hfollows⟩

theorem Performs.reported {event : Event} (h : Performs a (report env event) script progress) :
    Performs a env script progress := by
  refine h.after (Does.rest.report event) ?_
  intro doings course hfollows
  rw [List.append_nil]
  exact hfollows

theorem seek_performs (p : Poller) (a : PollerAccess Env) (env : Env) (cancelled found : Bool) :
    Performs a env (Seeks p cancelled found) (p.seek a env cancelled found) := by
  cases cancelled with
  | true => exact ⟨[], .rest, .quits rfl⟩
  | false => exact ⟨_, Does.rest.begin .primary _, .asks rfl _⟩

theorem dispose_performs (p : Poller) (a : PollerAccess Env) (env : Env) (cancelled : Bool)
    (m : Delivery) (succeeded : Bool) :
    Performs a env (Disposes p cancelled m succeeded) (p.dispose a env cancelled m succeeded) := by
  unfold Poller.dispose
  split
  · next verdict => exact ⟨_, Does.rest.begin .primary _, .deletes _ verdict⟩
  · next verdict => exact ⟨_, Does.rest.begin .primary _, .releases _ verdict⟩
  · next verdict => exact ⟨_, Does.rest.begin .poison _, .quarantines _ verdict⟩
  · next verdict =>
      have hseeks := seek_performs p a (report env (.messageLeft p.queue m.id)) cancelled true
      exact hseeks.reported.imp fun _ _ hfollows => .leaves verdict hfollows

theorem disposed_performs (p : Poller) (a : PollerAccess Env) (env : Env) (cancelled : Bool)
    (m : Delivery) (action : DisposalAction) (reply : Except StorageError Unit) :
    Performs a env (Concludes p cancelled reply) (p.disposed a env cancelled m action reply) := by
  cases reply with
  | ok _ => exact (seek_performs p a env cancelled true).imp fun _ _ hfollows => .done hfollows
  | error error =>
      have hgone : error.errorClass = .conflict ∨ error.errorClass = .notFound →
          Performs a env (Concludes p cancelled (.error error))
            (p.seek a (report (a.mark env .disposalConflict) (.claimGone p.queue m.id action error))
              cancelled true) := by
        intro hrefused
        exact (seek_performs p a _ cancelled true).after ((Does.rest.mark _).report _)
          fun _ _ hfollows => .gone hrefused hfollows
      simp only [Poller.disposed]
      cases hclass : error.errorClass with
      | conflict => exact hgone (.inl hclass)
      | notFound => exact hgone (.inr hclass)
      | transient =>
          have hseeks := seek_performs p a
            (report env (.disposalFailed p.queue m.id action error)) cancelled true
          exact hseeks.reported.imp fun _ _ hfollows => .failed hclass hfollows
      | fatal => exact ⟨[], .rest, .fails hclass⟩

theorem notCopied_performs (p : Poller) (a : PollerAccess Env) (env : Env) (cancelled : Bool)
    (m : Delivery) (error : StorageError) :
    Performs a env (Forgoes p cancelled error) (p.notCopied a env cancelled m error) := by
  unfold Poller.notCopied
  split
  · next hfatal => exact ⟨[], .rest, .fails hfatal⟩
  · next hmild =>
      have hseeks := seek_performs p a
        (report env (.messageNotCopied p.queue (p.poison.getD "") m.id error)) cancelled true
      exact hseeks.reported.imp fun _ _ hfollows => .leaves (Bool.eq_false_iff.mpr hmild) hfollows

theorem settled_performs (p : Poller) (a : PollerAccess Env) (env : Env) (cancelled : Bool)
    (claim : Claim) (succeeded : Bool) (stopped : Except TimerError Unit) :
    Performs a env
      (fun doings course => ∃ later, Disposes p cancelled claim.message succeeded later course ∧
        doings = later ++ [.marked (if succeeded then .succeeded else .failed)])
      (p.settled a env cancelled claim succeeded stopped) := by
  have hstopped : ∀ env', Does a env [] env' →
      Performs a env
        (fun doings course => ∃ later, Disposes p cancelled claim.message succeeded later course ∧
          doings = later ++ [.marked (if succeeded then .succeeded else .failed)])
        (p.dispose a
          (if claim.lost then
            report (a.mark env' (if succeeded then .succeeded else .failed))
              (.claimLostDuringExecution p.queue claim.message.id)
          else a.mark env' (if succeeded then .succeeded else .failed))
          cancelled claim.message succeeded) := by
    intro env' hbefore
    have hmarked := hbefore.mark (if succeeded then .succeeded else .failed)
    refine (dispose_performs p a _ cancelled claim.message succeeded).after ?_
      fun doings _ hfollows => ⟨doings, hfollows, rfl⟩
    by_cases hlost : claim.lost = true
    · rw [if_pos hlost]
      exact hmarked.report _
    · rw [if_neg hlost]
      exact hmarked
  cases stopped with
  | ok _ => exact hstopped env .rest
  | error error => exact hstopped _ (Does.rest.report _)

theorem process_performs (p : Poller) (a : PollerAccess Env) (env : Env) (m : Delivery) :
    Performs a env
      (fun doings course => ∃ execution, doings = [.started m execution, .marked .dequeued] ∧
        course = .continues () (.executing (.create m) (p.renewalTimer m) execution))
      (p.process a env m) := by
  have hbefore : Does a env [.marked .dequeued]
      (reportAll (a.mark env .dequeued)
        [.messageDequeued p.queue m.id m.dequeueCount, .timerStarted (p.renewalTimer m).name]) :=
    (Does.rest.mark .dequeued).reportAll _
  exact ⟨_, hbefore.start m, _, rfl, rfl⟩

theorem tickResult_performs {doings : List Doing} {error : StorageError} (event : Event)
    (hdoes : Does a env doings env') (hscript : script doings (.ended () error.tickResult)) :
    Performs a env script
      (if error.isFatal then .ended env' (.error error)
        else .ended (report env' event) (.ok false)) := by
  unfold StorageError.tickResult at hscript
  by_cases hfatal : error.isFatal = true
  · rw [if_pos hfatal] at hscript ⊢
    exact ⟨doings, hdoes, hscript⟩
  · rw [if_neg hfatal] at hscript ⊢
    exact ⟨doings, hdoes.report event, hscript⟩

theorem probed_performs (transit : Transit) (reply : Except StorageError Bool)
    (hheard : Does a env [.answered .primary .probe transit reply] env') :
    Performs a env (Script p cancelled (.probing transit)) (p.probed a env' cancelled reply) := by
  cases reply with
  | ok found =>
      cases found with
      | true =>
          exact (seek_performs p a env' cancelled false).after hheard
            fun _ _ hfollows => .present hfollows
      | false => exact ⟨_, hheard.report _, .absent⟩
  | error error => exact tickResult_performs _ hheard .unknown

theorem dequeued_performs (found : Bool) (transit : Transit)
    (reply : Except StorageError (Option Delivery))
    (hheard : Does a env
      [.answered .primary (.dequeue p.config.visibilityTimeout) transit reply] env') :
    Performs a env (Script p cancelled (.dequeuing found transit))
      (p.dequeued a env' found reply) := by
  cases reply with
  | ok received =>
      cases received with
      | some m =>
          refine (process_performs p a env' m).after hheard ?_
          rintro _ _ ⟨execution, rfl, rfl⟩
          exact .received
      | none => exact ⟨_, hheard, .exhausted⟩
  | error error => exact tickResult_performs _ hheard .unserved

theorem released_performs (m : Delivery) (transit : Transit) (reply : Except StorageError Receipt)
    (hheard : Does a env [.answered .primary (.update m .zero) transit reply] env') :
    Performs a env (Script p cancelled (.releasing m transit))
      (p.released a env' cancelled m reply) := by
  cases reply with
  | ok receipt =>
      exact (disposed_performs p a _ cancelled m .release (.ok ())).after (hheard.mark .released)
        fun _ _ hfollows => .released hfollows
  | error error =>
      exact (disposed_performs p a env' cancelled m .release (.error error)).after hheard
        fun _ _ hfollows => .unreleased hfollows

theorem prepared_performs (m : Delivery) (transit : Transit) (reply : Except StorageError Unit)
    (hheard : Does a env [.answered .poison .create transit reply] env') :
    Performs a env (Script p cancelled (.preparing m transit))
      (p.prepared a env' cancelled m reply) := by
  cases reply with
  | ok _ => exact ⟨_, hheard.begin .poison (.enqueue m.body), .prepared⟩
  | error error =>
      exact (notCopied_performs p a env' cancelled m error).after hheard
        fun _ _ hfollows => .unprepared hfollows

theorem copied_performs (m : Delivery) (transit : Transit)
    (reply : Except StorageError MessageId)
    (hheard : Does a env [.answered .poison (.enqueue m.body) transit reply] env') :
    Performs a env (Script p cancelled (.copying m transit))
      (p.copied a env' cancelled m reply) := by
  cases reply with
  | ok copy =>
      exact ⟨_, ((hheard.report _).mark .poisoned).begin .primary (.delete m), .copied⟩
  | error error =>
      exact (notCopied_performs p a env' cancelled m error).after hheard
        fun _ _ hfollows => .uncopied hfollows

theorem advance_performs {phase : TickPhase}
    (h : p.advance a env cancelled phase = some progress) :
    Performs a env (Script p cancelled phase) progress := by
  cases phase with
  | probing transit =>
      simp only [Poller.advance, Option.ite_none_right_eq_some, Option.some.injEq] at h
      obtain ⟨-, rfl⟩ := h
      exact probed_performs transit _ (Does.rest.hear .primary .probe transit)
  | dequeuing found transit =>
      simp only [Poller.advance, Option.ite_none_right_eq_some, Option.some.injEq] at h
      obtain ⟨-, rfl⟩ := h
      exact dequeued_performs found transit _ (Does.rest.hear .primary _ transit)
  | executing claim renewal execution =>
      simp only [Poller.advance, Option.map_eq_some_iff] at h
      obtain ⟨result, hended, rfl⟩ := h
      have hdoes : Does a env _ _ := Does.rest.finish execution result
      cases result with
      | ok succeeded => exact ⟨_, hdoes, .executed hended⟩
      | error reason => exact ⟨_, hdoes, .broken hended⟩
  | settling claim renewal succeeded wait =>
      simp only [Poller.advance, Option.map_eq_some_iff] at h
      obtain ⟨⟨_, stopped, events⟩, hstopped, rfl⟩ := h
      have hover : (renewal.stopResult? wait (now env)).isSome = true := by rw [hstopped]; rfl
      refine (settled_performs p a _ cancelled claim succeeded stopped).after
        (Does.rest.reportAll events) ?_
      rintro _ course ⟨later, hfollows, rfl⟩
      rw [List.append_nil]
      exact .settled hover hfollows
  | deleting m transit =>
      simp only [Poller.advance, Option.ite_none_right_eq_some, Option.some.injEq] at h
      obtain ⟨-, rfl⟩ := h
      exact (disposed_performs p a _ cancelled m .delete _).after
        (Does.rest.hear .primary (.delete m) transit) fun _ _ hfollows => .deleted hfollows
  | releasing m transit =>
      simp only [Poller.advance, Option.ite_none_right_eq_some, Option.some.injEq] at h
      obtain ⟨-, rfl⟩ := h
      exact released_performs m transit _ (Does.rest.hear .primary _ transit)
  | preparing m transit =>
      simp only [Poller.advance, Option.ite_none_right_eq_some, Option.some.injEq] at h
      obtain ⟨-, rfl⟩ := h
      exact prepared_performs m transit _ (Does.rest.hear .poison .create transit)
  | copying m transit =>
      simp only [Poller.advance, Option.ite_none_right_eq_some, Option.some.injEq] at h
      obtain ⟨-, rfl⟩ := h
      exact copied_performs m transit _ (Does.rest.hear .poison _ transit)

theorem answer_learns (a : PollerAccess Env) (env : Env) (queue : String) (window : Duration)
    (claim : Claim) (presented : Delivery) (reply : Except StorageError Receipt) :
    ∃ claim' result env', Learns claim reply claim' result ∧ Does a env [] env' ∧
      Renewal.answer queue window env claim presented reply = .ended (env', claim') result := by
  cases reply with
  | ok receipt => exact ⟨_, _, _, .renewed receipt _, Does.rest.report _, rfl⟩
  | error error =>
      simp only [Renewal.answer]
      cases hclass : error.errorClass with
      | conflict => exact ⟨_, _, _, .gone (.inl hclass), Does.rest.report _, rfl⟩
      | notFound => exact ⟨_, _, _, .gone (.inr hclass), Does.rest.report _, rfl⟩
      | transient => exact ⟨_, _, _, .failed hclass, Does.rest.report _, rfl⟩
      | fatal => exact ⟨_, _, _, .fails hclass, .rest, rfl⟩

theorem renewal_performs {t t' : RenewalTimer} {claim claim' : Claim}
    (h : t.poll (p.renewalDrive a) (env, claim) = some (t', env', claim')) :
    ∃ loop loop' doings, t.loop = some loop ∧ t' = { t with loop := some loop' } ∧
      Does a env doings env' ∧ Renews p claim loop doings claim' loop' := by
  obtain ⟨loop, loop', hloop, htimer, htransition⟩ := Timer.attemptTransition_of_poll h
  refine ⟨loop, loop', ?_⟩
  cases htransition with
  | wait => exact ⟨[], hloop, htimer, .rest, .waits⟩
  | «return» hidle => exact ⟨[], hloop, htimer, .rest, .returns hidle⟩
  | enter hidle hresumes =>
      simp only [Renewal.attempt] at hresumes
      split at hresumes
      · next hlost =>
          cases hresumes with
          | ended => exact ⟨[], hloop, htimer, .rest, .skips hidle hlost⟩
      · next hkept =>
          cases hresumes with
          | continues =>
              exact ⟨_, hloop, htimer, Does.rest.begin .primary _,
                .asks hidle (Bool.eq_false_iff.mpr hkept) _⟩
  | @advance pace cancelled waiting progress _ _ hadvances hresumes =>
      simp only [Renewal.attempt] at hadvances
      split at hadvances
      · have hheard : Does a env _ _ := Does.rest.hear .primary
          (.update waiting.presented p.config.visibilityTimeout) waiting.transit
        obtain ⟨claim'', result, env'', hlearns, hreported, hanswer⟩ := answer_learns a
          (a.queue.perform env (.update waiting.presented p.config.visibilityTimeout)
            waiting.transit).1 p.queue p.config.visibilityTimeout claim waiting.presented _
        have hdoes := hheard.trans hreported
        obtain rfl : .ended (env'', claim'') result = progress :=
          hanswer.symm.trans (Option.some.inj hadvances)
        cases hresumes with
        | ended => exact ⟨_, hloop, htimer, hdoes, .hears hlearns⟩
        | failed => exact ⟨_, hloop, htimer, hdoes.report _, .hears hlearns⟩
      · simp at hadvances

theorem advanceRenewal_performs {phase phase' : TickPhase}
    (h : p.advanceRenewal a env phase = some (env', phase')) :
    ∃ doings, Does a env doings env' ∧ Tends p phase doings phase' := by
  cases phase with
  | executing claim renewal execution =>
      simp only [Poller.advanceRenewal, Option.map_eq_some_iff, Prod.mk.injEq] at h
      obtain ⟨⟨renewal', after, claim'⟩, hpoll, rfl, rfl⟩ := h
      obtain ⟨loop, loop', doings, hloop, rfl, hdoes, hrenews⟩ := renewal_performs hpoll
      exact ⟨doings, hdoes, .executing hloop hrenews⟩
  | settling claim renewal succeeded wait =>
      simp only [Poller.advanceRenewal, Option.map_eq_some_iff, Prod.mk.injEq] at h
      obtain ⟨⟨renewal', after, claim'⟩, hpoll, rfl, rfl⟩ := h
      obtain ⟨loop, loop', doings, hloop, rfl, hdoes, hrenews⟩ := renewal_performs hpoll
      exact ⟨doings, hdoes, .settling hloop hrenews⟩
  | probing _ | dequeuing _ _ | deleting _ _ | releasing _ _ | preparing _ _ | copying _ _ =>
      simp [Poller.advanceRenewal] at h

/-- A transition of the tick or of its renewal timer, and how the loop goes on
after it. -/
theorem plays_advance {timer : String} {pace : Pace Backoff} {phase : TickPhase}
    {loop : PollerLoop} (hadvances : p.advanceAny a env cancelled phase = some progress)
    (hresumes : TimerLoop.Resumes timer pace cancelled progress loop env') :
    ∃ doings, Does a env doings env' ∧
      Plays p (.live pace cancelled (.stepping phase)) doings loop := by
  rcases Poller.of_advanceAny hadvances with hown | ⟨after, phase', hrenewal, rfl⟩
  · obtain ⟨doings, hdoes, hscript⟩ := advance_performs hown
    cases hresumes with
    | continues => exact ⟨doings, hdoes, .continues hscript⟩
    | ended => exact ⟨doings, hdoes, .ends hscript⟩
    | failed => exact ⟨doings, hdoes.report _, .ends hscript⟩
    | died => exact ⟨doings, hdoes, .dies hscript⟩
  · obtain ⟨doings, hdoes, htends⟩ := advanceRenewal_performs hrenewal
    cases hresumes with
    | continues => exact ⟨doings, hdoes, .tends htends⟩

theorem poll_performs {t t' : PollerTimer} (h : t.poll (p.drive a) env = some (t', env')) :
    ∃ loop loop' doings, t.loop = some loop ∧ t' = { t with loop := some loop' } ∧
      Does a env doings env' ∧ Plays p loop doings loop' := by
  obtain ⟨loop, loop', hloop, htimer, htransition⟩ := Timer.attemptTransition_of_poll h
  refine ⟨loop, loop', ?_⟩
  cases htransition with
  | wait => exact ⟨[], hloop, htimer, .rest, .waits⟩
  | «return» hidle => exact ⟨[], hloop, htimer, .rest, .returns hidle⟩
  | enter hidle hresumes =>
      cases hresumes with
      | continues => exact ⟨_, hloop, htimer, Does.rest.begin .primary _, .probes hidle _⟩
  | advance hadvances hresumes =>
      obtain ⟨doings, hdoes, hplays⟩ := plays_advance hadvances hresumes
      exact ⟨doings, hloop, htimer, hdoes, hplays⟩

end

namespace Poller

variable {p : Poller} {a : PollerAccess Env} {progress : TickProgress Env}

/-- The transitions that come first for a tick that is not cancelled. -/
def proceed (p : Poller) (a : PollerAccess Env) : Nat → TickProgress Env → TickProgress Env
  | count + 1, .continues env phase =>
      match p.advanceAny a env false phase with
      | some progress => p.proceed a count progress
      | none => .continues env phase
  | _, progress => progress

/-- What the tick and its renewal timer keep by each transition, they keep by
the first ones. -/
theorem kept_of_proceed {P : TickProgress Env → Prop}
    (hown : ∀ env phase progress, P (.continues env phase) →
      p.advance a env false phase = some progress → P progress)
    (htend : ∀ env env' phase phase', P (.continues env phase) →
      p.advanceRenewal a env phase = some (env', phase') → P (.continues env' phase'))
    (h : P progress) (count : Nat) : P (p.proceed a count progress) := by
  induction count generalizing progress with
  | zero => exact h
  | succ count ih =>
      cases progress with
      | ended env result | died env reason => exact h
      | continues env phase =>
          unfold proceed
          split
          · next progress' hadvances =>
              rcases of_advanceAny hadvances with hadvanced | ⟨env', phase', htended, rfl⟩
              · exact ih (hown _ _ _ h hadvanced)
              · exact ih (htend _ _ _ _ h htended)
          · exact h

end Poller

end LeasedListener
