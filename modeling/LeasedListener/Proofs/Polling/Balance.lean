import LeasedListener.Proofs.Polling.Diary
import LeasedListener.Proofs.Polling.Hand
import LeasedListener.Proofs.Polling.Logic
import LeasedListener.Proofs.Scenario.Effects
import Mathlib.Algebra.GroupWithZero.Nat
import Mathlib.Logic.Relation

/-!
# The balance of a tally

A tally may be shared by any number of pollers, which come and go, break down
and are abandoned in the middle of a run.  What a tick still owes to the tally
can be told from its phase, so the books balance at every instant, and not
only while no poller is at work.
-/

namespace LeasedListener

open Surroundings

def Tally.count (t : Tally) : Mark → Nat
  | .dequeued => t.dequeued
  | .succeeded => t.succeeded
  | .failed => t.failed
  | .released => t.released
  | .poisoned => t.poisoned
  | .disposalConflict => t.disposalConflicts

theorem Tally.count_add (t : Tally) (mark other : Mark) :
    (t.add mark).count other = t.count other + if mark = other then 1 else 0 := by
  cases mark <;> cases other <;> rfl

def Doing.marks (mark : Mark) : Doing → Bool
  | .marked other => other = mark
  | _ => false

/-- A message that was copied to the poison queue. -/
def Doing.copies : Doing → Bool
  | .answered .poison (.enqueue _) _ (.ok _) => true
  | _ => false

def marked (mark : Mark) (doings : List Doing) : Nat := doings.countP (Doing.marks mark)

def breakdowns (doings : List Doing) : Nat := doings.countP Doing.breaksDown

def copies (doings : List Doing) : Nat := doings.countP Doing.copies

/-- What a tick still owes to its tally, or may still enter. -/
structure Dues where
  /-- Runs whose outcome is not recorded yet. -/
  outcomes : Nat
  /-- Failed messages that may yet be released or copied. -/
  failures : Nat
  /-- Messages that may yet be released, or whose disposal may be refused. -/
  disposals : Nat

def Dues.plus (d d' : Dues) : Dues :=
  ⟨d.outcomes + d'.outcomes, d.failures + d'.failures, d.disposals + d'.disposals⟩

def TickPhase.dues : TickPhase → Dues
  | .probing _ | .dequeuing _ _ => ⟨0, 0, 0⟩
  | .executing _ _ _ | .settling _ _ _ _ => ⟨1, 0, 0⟩
  | .deleting _ _ => ⟨0, 0, 1⟩
  | .releasing _ _ | .preparing _ _ | .copying _ _ => ⟨0, 1, 1⟩

def duesOf (phase? : Option TickPhase) : Dues := (phase?.map TickPhase.dues).getD ⟨0, 0, 0⟩

/-- What is entered into the tally makes up for the dues. -/
structure Balanced (before : Dues) (doings : List Doing) (after : Dues) : Prop where
  outcomes : before.outcomes + marked .dequeued doings =
    after.outcomes + marked .succeeded doings + marked .failed doings + breakdowns doings
  failures : after.failures + marked .released doings + marked .poisoned doings ≤
    before.failures + marked .failed doings
  disposals : after.disposals + marked .released doings + marked .disposalConflict doings ≤
    before.disposals + marked .succeeded doings + marked .failed doings
  copied : marked .poisoned doings = copies doings

section

variable {before middle after : Dues} {doings later : List Doing}

theorem Balanced.trans (h : Balanced before doings middle) (h' : Balanced middle later after) :
    Balanced before (later ++ doings) after where
  outcomes := by
    have hbefore := h.outcomes
    have hafter := h'.outcomes
    simp only [marked, breakdowns, List.countP_append] at *
    omega
  failures := by
    have hbefore := h.failures
    have hafter := h'.failures
    simp only [marked, List.countP_append] at *
    omega
  disposals := by
    have hbefore := h.disposals
    have hafter := h'.disposals
    simp only [marked, List.countP_append] at *
    omega
  copied := by
    have hbefore := h.copied
    have hafter := h'.copied
    simp only [marked, copies, List.countP_append] at *
    omega

/-- Doings that are of no account: nothing is entered, and at most some dues
are forgone. -/
theorem balanced_of_silent
    (hsilent : ∀ doing ∈ doings, (∀ mark, doing.marks mark = false) ∧
      doing.breaksDown = false ∧ doing.copies = false)
    (houtcomes : after.outcomes = before.outcomes) (hfailures : after.failures ≤ before.failures)
    (hdisposals : after.disposals ≤ before.disposals) : Balanced before doings after := by
  have hmarked : ∀ mark, marked mark doings = 0 := by
    intro mark
    rw [marked, List.countP_eq_zero]
    exact fun doing hdoing => by simp [(hsilent doing hdoing).1 mark]
  have hbreakdowns : breakdowns doings = 0 := by
    rw [breakdowns, List.countP_eq_zero]
    exact fun doing hdoing => by simp [(hsilent doing hdoing).2.1]
  have hcopies : copies doings = 0 := by
    rw [copies, List.countP_eq_zero]
    exact fun doing hdoing => by simp [(hsilent doing hdoing).2.2]
  constructor <;> simp only [hmarked, hbreakdowns, hcopies] <;> omega

end

section

variable {p : Poller} {cancelled found : Bool} {doings : List Doing} {course : TickCourse}

theorem Seeks.balanced (h : Seeks p cancelled found doings course) :
    Balanced ⟨0, 0, 0⟩ doings (duesOf course.phase?) := by
  cases h with
  | quits _ => exact balanced_of_silent (by simp) rfl (Nat.le_refl _) (Nat.le_refl _)
  | asks _ transit =>
      exact balanced_of_silent (by simp [Doing.marks, Doing.breaksDown, Doing.copies]) rfl
        (Nat.le_refl _) (Nat.le_refl _)

theorem Concludes.balanced {reply : Except StorageError Unit}
    (h : Concludes p cancelled reply doings course) :
    Balanced ⟨0, 0, 1⟩ doings (duesOf course.phase?) := by
  have hforgone : Balanced ⟨0, 0, 1⟩ [] ⟨0, 0, 0⟩ :=
    balanced_of_silent (by simp) rfl (by simp) (by simp)
  cases h with
  | done seeks | failed _ seeks =>
      rw [← List.append_nil doings]
      exact hforgone.trans seeks.balanced
  | gone _ seeks =>
      have hmarked : Balanced ⟨0, 0, 1⟩ [.marked .disposalConflict] ⟨0, 0, 0⟩ := by
        constructor <;> decide
      exact hmarked.trans seeks.balanced
  | fails _ => exact hforgone

theorem Forgoes.balanced {error : StorageError} (h : Forgoes p cancelled error doings course) :
    Balanced ⟨0, 1, 1⟩ doings (duesOf course.phase?) := by
  have hforgone : Balanced ⟨0, 1, 1⟩ [] ⟨0, 0, 0⟩ :=
    balanced_of_silent (by simp) rfl (by simp) (by simp)
  cases h with
  | fails _ => exact hforgone
  | leaves _ seeks =>
      rw [← List.append_nil doings]
      exact hforgone.trans seeks.balanced

theorem Disposes.balanced {m : Delivery} {succeeded : Bool}
    (h : Disposes p cancelled m succeeded doings course) :
    Balanced (if succeeded then ⟨0, 0, 1⟩ else ⟨0, 1, 1⟩) doings (duesOf course.phase?) := by
  cases h with
  | deletes transit verdict =>
      obtain rfl := disposition_eq_delete verdict
      exact balanced_of_silent (by simp [Doing.marks, Doing.breaksDown, Doing.copies]) rfl
        (Nat.le_refl _) (Nat.le_refl _)
  | releases transit verdict =>
      obtain ⟨rfl, -⟩ := disposition_eq_release verdict
      exact balanced_of_silent (by simp [Doing.marks, Doing.breaksDown, Doing.copies]) rfl
        (Nat.le_refl _) (Nat.le_refl _)
  | quarantines transit verdict =>
      obtain ⟨rfl, -⟩ := disposition_eq_quarantine verdict
      exact balanced_of_silent (by simp [Doing.marks, Doing.breaksDown, Doing.copies]) rfl
        (Nat.le_refl _) (Nat.le_refl _)
  | leaves verdict seeks =>
      have hforgone : Balanced (if succeeded then ⟨0, 0, 1⟩ else ⟨0, 1, 1⟩) [] ⟨0, 0, 0⟩ := by
        cases succeeded <;> exact balanced_of_silent (by simp) rfl (by simp) (by simp)
      rw [← List.append_nil doings]
      exact hforgone.trans seeks.balanced

/-- The answer to a call that copies no message is of no account. -/
theorem balanced_of_answer {before after : Dues} {role : QueueRole} {call : QueueCall}
    {transit : Transit} {reply : Except StorageError call.Reply}
    (hcopies : (Doing.answered role call transit reply).copies = false)
    (houtcomes : after.outcomes = before.outcomes) (hfailures : after.failures ≤ before.failures)
    (hdisposals : after.disposals ≤ before.disposals) :
    Balanced before [.answered role call transit reply] after :=
  balanced_of_silent (by simpa [Doing.marks, Doing.breaksDown] using hcopies) houtcomes hfailures
    hdisposals

theorem Script.balanced {phase : TickPhase} (h : Script p cancelled phase doings course) :
    Balanced phase.dues doings (duesOf course.phase?) := by
  cases h with
  | present seeks =>
      exact (balanced_of_answer rfl rfl (Nat.le_refl _) (Nat.le_refl _)).trans seeks.balanced
  | absent | unknown | exhausted | unserved =>
      exact balanced_of_answer rfl rfl (Nat.le_refl _) (Nat.le_refl _)
  | received | broken => exact ⟨rfl, Nat.le_refl _, Nat.le_refl _, rfl⟩
  | executed _ =>
      exact balanced_of_silent (by simp [Doing.marks, Doing.breaksDown, Doing.copies]) rfl
        (Nat.le_refl _) (Nat.le_refl _)
  | @settled _ _ succeeded _ _ _ _ _ disposes =>
      have hmarked : Balanced ⟨1, 0, 0⟩ [.marked (if succeeded then .succeeded else .failed)]
          (if succeeded then ⟨0, 0, 1⟩ else ⟨0, 1, 1⟩) := by
        cases succeeded <;> exact ⟨rfl, Nat.le_refl _, Nat.le_refl _, rfl⟩
      exact hmarked.trans disposes.balanced
  | deleted concludes =>
      exact (balanced_of_answer rfl rfl (Nat.le_refl _) (Nat.le_refl _)).trans concludes.balanced
  | @released m transit receipt later _ concludes =>
      have hreleased : Balanced ⟨0, 1, 1⟩
          [.marked .released, .answered .primary (.update m .zero) transit (.ok receipt)]
          ⟨0, 0, 0⟩ :=
        ⟨rfl, Nat.le_refl _, Nat.le_refl _, rfl⟩
      cases concludes with
      | done seeks => exact hreleased.trans seeks.balanced
  | @unreleased m transit error later _ concludes =>
      have hrefused : Balanced ⟨0, 1, 1⟩
          [.answered .primary (.update m .zero) transit (.error error)] ⟨0, 0, 1⟩ :=
        balanced_of_answer rfl rfl (Nat.zero_le _) (Nat.le_refl _)
      exact hrefused.trans concludes.balanced
  | prepared =>
      exact balanced_of_silent (by simp [Doing.marks, Doing.breaksDown, Doing.copies]) rfl
        (Nat.le_refl _) (Nat.le_refl _)
  | unprepared forgoes =>
      exact (balanced_of_answer rfl rfl (Nat.le_refl _) (Nat.le_refl _)).trans forgoes.balanced
  | copied => exact ⟨rfl, Nat.le_refl _, Nat.le_refl _, rfl⟩
  | uncopied forgoes =>
      exact (balanced_of_answer rfl rfl (Nat.le_refl _) (Nat.le_refl _)).trans forgoes.balanced

theorem Renews.silent {claim claim' : Claim} {loop loop' : RenewalLoop}
    (h : Renews p claim loop doings claim' loop') :
    ∀ doing ∈ doings, (∀ mark, doing.marks mark = false) ∧
      doing.breaksDown = false ∧ doing.copies = false := by
  cases h with
  | waits | returns _ | skips _ _ => simp
  | asks _ _ _ | hears _ => simp [Doing.marks, Doing.breaksDown, Doing.copies]

theorem Plays.balanced {loop loop' : PollerLoop} (h : Plays p loop doings loop') :
    Balanced (duesOf loop.phase?) doings (duesOf loop'.phase?) := by
  cases h with
  | waits => exact balanced_of_silent (by simp) rfl (Nat.le_refl _) (Nat.le_refl _)
  | @returns pace state idle =>
      have hidle : (TimerLoop.live pace true state).phase? = none := idle
      rw [hidle]
      exact balanced_of_silent (by simp) rfl (Nat.le_refl _) (Nat.le_refl _)
  | @probes pace state idle transit =>
      have hidle : (TimerLoop.live pace false state).phase? = none := idle
      rw [hidle]
      exact balanced_of_silent (by simp [Doing.marks, Doing.breaksDown, Doing.copies]) rfl
        (Nat.le_refl _) (Nat.le_refl _)
  | continues script => exact script.balanced
  | ends script => exact script.balanced
  | dies script => exact script.balanced
  | tends tends =>
      cases tends with
      | executing _ renews | settling _ renews =>
          exact balanced_of_silent renews.silent rfl (Nat.le_refl _) (Nat.le_refl _)

end

namespace World

def tally (w : World) (name : String) : Tally := (w.tallies.get? name).getD {}

theorem tally_execute (w : World) (name : String) (m : Delivery) (tally : String) :
    (w.execute name m).1.tally tally = w.tally tally := by
  obtain ⟨log, executors, hexecute⟩ := w.execute_fst name m
  rw [hexecute]
  rfl

theorem tally_mark (w : World) (name : String) (mark : Mark) :
    (w.mark name mark).tally name = (w.tally name).add mark := by
  simp [tally, World.mark]

/-- Whatever a poller does, only its marks change its tally. -/
theorem count_of_does {name queue tally : String} {poison : Option String} {w w' : World}
    {doings : List Doing} (h : Does (pollerAccess name queue poison tally) w doings w')
    (mark : Mark) :
    (w'.tally tally).count mark = (w.tally tally).count mark + marked mark doings := by
  induction h with
  | rest => rfl
  | report _ _ ih => exact ih
  | begin role _ _ ih | hear role _ _ _ ih => cases role <;> exact ih
  | finish _ _ _ ih => exact ih
  | @start doings mid m _ ih =>
      have hkept : (mid.execute name m).1.tally tally = mid.tally tally := tally_execute ..
      exact (congrArg (Tally.count · mark) hkept).trans ih
  | @mark doings mid other _ ih =>
      have hmarked : (mid.mark tally other).tally tally = (mid.tally tally).add other :=
        tally_mark ..
      have hcount : marked mark (.marked other :: doings) =
          marked mark doings + if other = mark then 1 else 0 := by
        simp [marked, List.countP_cons, Doing.marks]
      have hentered := (congrArg (Tally.count · mark) hmarked).trans (Tally.count_add ..)
      rw [ih, Nat.add_assoc, ← hcount] at hentered
      exact hentered

end World

/-- The books of a tally, with what is still owed to it, how many runs were
abandoned, and what was done. -/
structure Books (t : Tally) (owed : Dues) (abandoned : Nat) (doings : List Doing) : Prop where
  outcomes : t.dequeued = t.succeeded + t.failed + owed.outcomes + abandoned + breakdowns doings
  failures : t.released + t.poisoned + owed.failures ≤ t.failed
  disposals : t.released + t.disposalConflicts + owed.disposals ≤ t.succeeded + t.failed
  copied : t.poisoned = copies doings

section

variable {t t' : Tally} {owed rest before after : Dues} {abandoned : Nat}
  {doings earlier : List Doing}

theorem Books.enter (h : Books t (before.plus rest) abandoned earlier)
    (hbalanced : Balanced before doings after)
    (hcount : ∀ mark, t'.count mark = t.count mark + marked mark doings) :
    Books t' (after.plus rest) abandoned (doings ++ earlier) := by
  have hdequeued : t'.dequeued = t.dequeued + marked .dequeued doings := hcount .dequeued
  have hsucceeded : t'.succeeded = t.succeeded + marked .succeeded doings := hcount .succeeded
  have hfailed : t'.failed = t.failed + marked .failed doings := hcount .failed
  have hreleased : t'.released = t.released + marked .released doings := hcount .released
  have hpoisoned : t'.poisoned = t.poisoned + marked .poisoned doings := hcount .poisoned
  have hconflicts : t'.disposalConflicts =
      t.disposalConflicts + marked .disposalConflict doings := hcount .disposalConflict
  obtain ⟨houtcomes, hfailures, hdisposals, hcopied⟩ := h
  simp only [Dues.plus] at houtcomes hfailures hdisposals
  constructor
  case outcomes =>
    have hbreakdowns : breakdowns (doings ++ earlier) = breakdowns doings + breakdowns earlier :=
      List.countP_append
    have hdues := hbalanced.outcomes
    simp only [Dues.plus]
    omega
  case failures =>
    have hdues := hbalanced.failures
    simp only [Dues.plus]
    omega
  case disposals =>
    have hdues := hbalanced.disposals
    simp only [Dues.plus]
    omega
  case copied =>
    have hcopies : copies (doings ++ earlier) = copies doings + copies earlier :=
      List.countP_append
    rw [hcopies, ← hbalanced.copied, ← hcopied, hpoisoned, Nat.add_comm]

/-- Of what is given up, only the outcome of a run leaves a trace. -/
theorem Books.abandon (h : Books t (before.plus rest) abandoned doings) :
    Books t rest (abandoned + before.outcomes) doings := by
  obtain ⟨houtcomes, hfailures, hdisposals, hcopied⟩ := h
  simp only [Dues.plus] at houtcomes hfailures hdisposals
  refine ⟨?_, ?_, ?_, hcopied⟩ <;> omega

end

/-- A poller at work, with the name that it goes by. -/
structure Post where
  poller : Poller
  name : String
  timer : PollerTimer

namespace Post

def access (post : Post) (tally : String) : PollerAccess (World × Diary) :=
  (World.pollerAccess post.name post.poller.queue post.poller.poison tally).diarised

def dues (post : Post) : Dues := duesOf post.timer.phase?

/-- The runs under way whose outcome is not recorded yet. -/
def unrecorded (post : Post) : Nat :=
  match post.timer.phase? with
  | some (.executing ..) | some (.settling ..) => 1
  | _ => 0

theorem outcomes_dues (post : Post) : post.dues.outcomes = post.unrecorded := by
  unfold dues unrecorded duesOf
  cases post.timer.phase? with
  | none => rfl
  | some phase => cases phase <;> rfl

end Post

/-- The pollers that share a tally. -/
structure Office where
  env : World × Diary
  posts : List Post
  /-- How many runs were abandoned before their outcome was recorded. -/
  abandoned : Nat

namespace Office

/-- The tally is private to the pollers, which otherwise share the world with
whoever there is. -/
inductive Step (tally : String) : Office → Office → Prop
  | elsewhere {o : Office} {w : World} (kept : w.tally tally = o.env.1.tally tally) :
      Step tally o { o with env := (w, o.env.2) }
  | join {o : Office} {poller : Poller} {name : String} :
      Step tally o { o with
        posts := ⟨poller, name, .create poller.timerName poller.pace⟩ :: o.posts }
  | start {o : Office} {before after : List Post} {post : Post} {timer : PollerTimer}
      {stepFirst : Bool} (split : o.posts = before ++ post :: after)
      (started : post.timer.start stepFirst = .ok timer) :
      Step tally o { o with posts := before ++ { post with timer } :: after }
  | poll {o : Office} {before after : List Post} {post : Post} {timer : PollerTimer}
      {env : World × Diary} (split : o.posts = before ++ post :: after)
      (polled : post.timer.poll (post.poller.drive (post.access tally)) o.env =
        some (timer, env)) :
      Step tally o { o with env, posts := before ++ { post with timer } :: after }
  /-- The renewal timer of a tick need not wait for the tick. -/
  | tend {o : Office} {before after : List Post} {post : Post} {pace : Pace Backoff}
      {cancelled : Bool} {phase phase' : TickPhase} {env : World × Diary}
      (split : o.posts = before ++ post :: after)
      (stepping : post.timer.loop = some (.live pace cancelled (.stepping phase)))
      (tends : post.poller.advanceRenewal (post.access tally) o.env phase = some (env, phase')) :
      Step tally o { o with
        env
        posts := before ++ { post with timer :=
          { post.timer with loop := some (.live pace cancelled (.stepping phase')) } } :: after }
  | cancel {o : Office} {before after : List Post} {post : Post}
      (split : o.posts = before ++ post :: after) :
      Step tally o { o with posts := before ++ { post with timer := post.timer.cancel } :: after }
  /-- A stop is over: the loop has ended, or it is abandoned. -/
  | settle {o : Office} {before after : List Post} {post : Post} {timer : PollerTimer}
      {wait : StopWait} {result : Except TimerError Unit} {events : List Event}
      (split : o.posts = before ++ post :: after)
      (settled : post.timer.stopResult? wait (now o.env) = some (timer, result, events)) :
      Step tally o
        { env := reportAll o.env events
          posts := before ++ { post with timer } :: after
          abandoned := o.abandoned + post.unrecorded }
  | drop {o : Office} {before after : List Post} {post : Post}
      (split : o.posts = before ++ post :: after) :
      Step tally o { o with
        posts := before ++ after
        abandoned := o.abandoned + post.unrecorded }

/-- In the beginning the tally is empty, and no poller is at work. -/
inductive Reachable (tally : String) : Office → Prop
  | start {w : World} (fresh : w.tally tally = {}) : Reachable tally ⟨(w, []), [], 0⟩
  | step {o o' : Office} : Reachable tally o → Step tally o o' → Reachable tally o'

variable {tally : String} {o o' : Office}

/-- What the pollers at work owe. -/
def owed (posts : List Post) : Dues where
  outcomes := (posts.map fun post => post.dues.outcomes).sum
  failures := (posts.map fun post => post.dues.failures).sum
  disposals := (posts.map fun post => post.dues.disposals).sum

theorem owed_split (before after : List Post) (post : Post) :
    owed (before ++ post :: after) = post.dues.plus (owed (before ++ after)) := by
  simp only [owed, Dues.plus, List.map_append, List.map_cons, List.sum_append, List.sum_cons]
  congr 1 <;> omega

theorem owed_idle {post : Post} (hidle : post.timer.phase? = none) (before after : List Post) :
    owed (before ++ post :: after) = owed (before ++ after) := by
  have hdues : post.dues = ⟨0, 0, 0⟩ := congrArg duesOf hidle
  rw [owed_split, hdues]
  simp [Dues.plus]

def IsBalanced (tally : String) (o : Office) : Prop :=
  Books (o.env.1.tally tally) (owed o.posts) o.abandoned o.env.2.doings

variable {before after : List Post} {post : Post} {timer : PollerTimer} {env : World × Diary}
  {doings : List Doing}

theorem IsBalanced.turn (h : o.IsBalanced tally) (split : o.posts = before ++ post :: after)
    (hbalanced : Balanced post.dues doings (duesOf timer.phase?))
    (hcount : ∀ mark, (env.1.tally tally).count mark =
      (o.env.1.tally tally).count mark + marked mark doings)
    (hdiary : env.2.doings = doings ++ o.env.2.doings) :
    IsBalanced tally { o with env, posts := before ++ { post with timer } :: after } := by
  unfold IsBalanced at h ⊢
  rw [split, owed_split] at h
  rw [owed_split, hdiary]
  exact h.enter hbalanced hcount

/-- A change of a timer that its tick takes no notice of. -/
theorem IsBalanced.keep (h : o.IsBalanced tally) (split : o.posts = before ++ post :: after)
    (hphase : timer.phase? = post.timer.phase?) :
    IsBalanced tally { o with posts := before ++ { post with timer } :: after } := by
  have hbalanced : Balanced post.dues [] (duesOf timer.phase?) := by
    unfold Post.dues
    rw [hphase]
    exact balanced_of_silent (by simp) rfl (Nat.le_refl _) (Nat.le_refl _)
  exact h.turn split hbalanced (fun _ => rfl) rfl

theorem IsBalanced.played {loop loop' : PollerLoop} (h : o.IsBalanced tally)
    (split : o.posts = before ++ post :: after) (hloop : post.timer.loop = some loop)
    (hdoes : Does (post.access tally) o.env doings env)
    (hplays : Plays post.poller loop doings loop') :
    IsBalanced tally { o with
      env
      posts := before ++ { post with timer := { post.timer with loop := some loop' } } ::
        after } := by
  have hphase : post.timer.phase? = loop.phase? := Timer.phase?_of_loop hloop
  have hphase' : ({ post.timer with loop := some loop' } : PollerTimer).phase? = loop'.phase? :=
    Timer.phase?_of_loop rfl
  refine h.turn split ?_ (World.count_of_does hdoes.of_diarised) hdoes.doings_diary
  unfold Post.dues
  rw [hphase, hphase']
  exact hplays.balanced

theorem IsBalanced.abandon (h : o.IsBalanced tally) (split : o.posts = before ++ post :: after)
    {posts : List Post} (hposts : owed posts = owed (before ++ after))
    (htally : env.1.tally tally = o.env.1.tally tally) (hdiary : env.2 = o.env.2) :
    IsBalanced tally ⟨env, posts, o.abandoned + post.unrecorded⟩ := by
  unfold IsBalanced at h ⊢
  rw [split, owed_split] at h
  rw [hposts, htally, hdiary, ← post.outcomes_dues]
  exact h.abandon

theorem tally_reportAll (env : World × Diary) (events : List Event) (tally : String) :
    (reportAll env events).1.tally tally = env.1.tally tally ∧ (reportAll env events).2 = env.2 := by
  have hpair : reportAll env events = (reportAll env.1 events, env.2) :=
    reportAll_pair env.1 env.2 events
  rw [hpair]
  refine ⟨?_, rfl⟩
  unfold World.tally
  rw [(World.sameButLog_reportAll env.1 events).tallies]

theorem phase?_of_startable {t t' : PollerTimer} {stepFirst : Bool}
    (h : t.start stepFirst = .ok t') : t.phase? = none := by
  unfold Timer.start at h
  split at h
  · simp at h
  · simp at h
  · next hloop _ => simp [Timer.phase?, hloop]

theorem IsBalanced.step (h : o.IsBalanced tally) (hstep : Step tally o o') :
    o'.IsBalanced tally := by
  cases hstep with
  | elsewhere kept =>
      unfold IsBalanced at h ⊢
      rw [kept]
      exact h
  | @join poller name =>
      have howed : owed (⟨poller, name, .create poller.timerName poller.pace⟩ :: o.posts) =
          owed o.posts :=
        @owed_idle ⟨poller, name, .create poller.timerName poller.pace⟩ rfl [] o.posts
      unfold IsBalanced at h ⊢
      rw [howed]
      exact h
  | start split started =>
      exact h.keep split ((Timer.of_start started).1.trans (phase?_of_startable started).symm)
  | poll split polled =>
      obtain ⟨loop, loop', doings, hloop, rfl, hdoes, hplays⟩ := poll_performs polled
      exact h.played split hloop hdoes hplays
  | tend split stepping tends =>
      obtain ⟨doings, hdoes, htends⟩ := advanceRenewal_performs tends
      exact h.played split stepping hdoes (.tends htends)
  | cancel split => exact h.keep split (Timer.phase?_cancel _)
  | @settle before after post timer wait result events split settled =>
      obtain ⟨htally, hdiary⟩ := tally_reportAll o.env events tally
      have hidle : timer.phase? = none := by
        unfold Timer.phase?
        rw [(Timer.of_stopResult? settled).1]
      exact h.abandon split (owed_idle hidle before after) htally hdiary
  | drop split => exact h.abandon split rfl rfl rfl

theorem count_le_of_step (hstep : Step tally o o') (mark : Mark) :
    (o.env.1.tally tally).count mark ≤ (o'.env.1.tally tally).count mark := by
  cases hstep with
  | elsewhere kept => exact Nat.le_of_eq (congrArg (Tally.count · mark) kept.symm)
  | join | start _ _ | cancel _ | drop _ => exact Nat.le_refl _
  | poll _ polled =>
      obtain ⟨loop, loop', doings, -, -, hdoes, -⟩ := poll_performs polled
      rw [World.count_of_does hdoes.of_diarised]
      exact Nat.le_add_right _ _
  | tend _ _ tends =>
      obtain ⟨doings, hdoes, -⟩ := advanceRenewal_performs tends
      rw [World.count_of_does hdoes.of_diarised]
      exact Nat.le_add_right _ _
  | settle _ _ =>
      exact Nat.le_of_eq (congrArg (Tally.count · mark) (tally_reportAll o.env _ tally).1.symm)

theorem Reachable.isBalanced (h : Reachable tally o) : o.IsBalanced tally := by
  induction h with
  | start fresh =>
      unfold IsBalanced
      rw [fresh]
      exact ⟨rfl, Nat.le_refl _, Nat.le_refl _, rfl⟩
  | step _ hstep ih => exact ih.step hstep

/-- The runs under way whose outcome is not recorded yet. -/
def unrecorded (o : Office) : Nat := (o.posts.map Post.unrecorded).sum

/-- A message that was dequeued is accounted for by an outcome, by the run that
is under way on it, or by the end of a run that had no outcome. -/
theorem counters_balance (h : Reachable tally o) :
    (o.env.1.tally tally).dequeued =
      (o.env.1.tally tally).succeeded + (o.env.1.tally tally).failed +
        (o.unrecorded + o.abandoned + breakdowns o.env.2.doings) ∧
    (o.env.1.tally tally).released + (o.env.1.tally tally).poisoned ≤
      (o.env.1.tally tally).failed ∧
    (o.env.1.tally tally).released + (o.env.1.tally tally).disposalConflicts ≤
      (o.env.1.tally tally).succeeded + (o.env.1.tally tally).failed ∧
    (o.env.1.tally tally).poisoned = copies o.env.2.doings ∧
    ∀ o', Relation.ReflTransGen (Step tally) o o' → ∀ mark,
      (o.env.1.tally tally).count mark ≤ (o'.env.1.tally tally).count mark := by
  obtain ⟨houtcomes, hfailures, hdisposals, hcopied⟩ := h.isBalanced
  have howed : (owed o.posts).outcomes = o.unrecorded := by
    unfold owed unrecorded
    simp only [Post.outcomes_dues]
  refine ⟨?_, ?_, ?_, hcopied, ?_⟩
  · rw [howed] at houtcomes
    omega
  · omega
  · omega
  · intro o' hsteps mark
    induction hsteps with
    | refl => exact Nat.le_refl _
    | tail _ hstep ih => exact Nat.le_trans ih (count_le_of_step hstep mark)

/-- The first poller works for a number of transitions, if it can. -/
def work (tally : String) : Nat → Office → Office
  | 0, o => o
  | count + 1, o =>
      match o.posts with
      | [] => o
      | post :: after =>
          match post.timer.poll (post.poller.drive (post.access tally)) o.env with
          | none => o
          | some (timer, env) => work tally count { o with env, posts := { post with timer } :: after }

theorem Reachable.work (h : Reachable tally o) (count : Nat) :
    Reachable tally (o.work tally count) := by
  induction count generalizing o with
  | zero => exact h
  | succ count ih =>
      unfold Office.work
      split
      · exact h
      · next post after hposts =>
          split
          · exact h
          · next timer env hpolled => exact ih (h.step (@Step.poll tally o [] after _ _ _ hposts hpolled))

def strict : Poller :=
  ⟨"jobs", some "scrap", { PollingConfig.standard with maxDequeueCount := 1 }⟩

/-- The user function of the first poller fails, and that of the second one
does not return. -/
def crowded : World :=
  { World.initial with
    queues := ⟨[("jobs", ((Queue.create "jobs").append ⟨0⟩ [7] 0 0 scenarioEpoch).append ⟨1⟩ [8] 0 0
      scenarioEpoch), ("scrap", .create "scrap")]⟩
    executors := ⟨[("first", ⟨.scripted [] { succeeds := false }, []⟩),
      ("second", ⟨.scripted [] { length := .ofSeconds 3600 }, []⟩)]⟩ }

def manned (o : Office) (name : String) : Office :=
  { o with posts := ⟨strict, name, .started strict.timerName strict.pace true⟩ :: o.posts }

theorem Reachable.manned (h : Reachable tally o) (name : String) :
    Reachable tally (o.manned name) := by
  have hjoined : Reachable tally
      { o with posts := ⟨strict, name, .create strict.timerName strict.pace⟩ :: o.posts } :=
    h.step .join
  exact hjoined.step (@Step.start tally _ [] o.posts
    ⟨strict, name, .create strict.timerName strict.pace⟩ _ true rfl rfl)

/-- The first poller is dropped, whatever it is at. -/
def deserted (o : Office) : Office :=
  match o.posts with
  | [] => o
  | post :: after => { o with posts := after, abandoned := o.abandoned + post.unrecorded }

theorem Reachable.deserted (h : Reachable tally o) : Reachable tally o.deserted := by
  unfold Office.deserted
  split
  · exact h
  · next post after hposts => exact h.step (@Step.drop tally o [] after post hposts)

def halfway : Office :=
  ((((Office.mk (crowded, []) [] 0).manned "first").work "shared" 8).manned "second").work
    "shared" 3

theorem counters_balance_halfway :
    Reachable "shared" halfway.deserted ∧ halfway.deserted.abandoned = 1 ∧
      halfway.deserted.env.1.tally "shared" = { dequeued := 2, failed := 1, poisoned := 1 } ∧
      (halfway.deserted.env.1.tally "shared").dequeued =
        (halfway.deserted.env.1.tally "shared").succeeded +
          (halfway.deserted.env.1.tally "shared").failed +
          (halfway.deserted.unrecorded + halfway.deserted.abandoned +
            breakdowns halfway.deserted.env.2.doings) := by
  have hstart : Reachable "shared" ⟨(crowded, []), [], 0⟩ := .start rfl
  have hhalfway : Reachable "shared" halfway :=
    (((hstart.manned "first").work 8).manned "second").work 3
  exact ⟨hhalfway.deserted, rfl, rfl, (counters_balance hhalfway.deserted).1⟩

end Office

end LeasedListener
