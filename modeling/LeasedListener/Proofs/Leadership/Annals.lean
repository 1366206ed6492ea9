import LeasedListener.Leadership.Coordinator
import LeasedListener.Proofs.Leadership.News
import LeasedListener.Proofs.Lease.Config
import LeasedListener.Scenario.World
import Mathlib.Data.List.Chain

/-!
# Annals of a contender

Annals follow a contender through its steps, against a service that may answer
anything at any later instant.  They keep the answers and the result of every
step, and everything that was told to observers.  Whether the lease is held
follows from the answers alone.
-/

namespace LeasedListener

open Surroundings

structure Scene where
  now : Nat
  wallClock : Timestamp
  /-- The reports so far, the latest first. -/
  told : List Event

namespace Scene

instance : Surroundings Scene where
  now s := s.now
  wallClock s := s.wallClock
  report s event := { s with told := event :: s.told }

def answering (transit : Transit) (reply : (call : LeaseCall) → Except StorageError call.Reply) :
    LeaseAccess Scene where
  issue s _ := (s, transit)
  perform s call _ := (s, reply call)

theorem reportAll_eq (s : Scene) (events : List Event) :
    reportAll s events = { s with told := events.reverse ++ s.told } := by
  induction events generalizing s with
  | nil => rfl
  | cons event events ih =>
      have hrest : reportAll s (event :: events) = reportAll (report s event) events := rfl
      rw [hrest, ih (report s event)]
      simp [report]

end Scene

structure StepRecord where
  /-- The answers of the step, the latest first. -/
  calls : List CallRecord
  result : Except StorageError Unit

namespace StepRecord

/-- The last answer of the step has decided its result. -/
def IsDecided (step : StepRecord) : Prop :=
  ∃ decisive others, step.calls = decisive :: others ∧
    ((∃ error, step.result = .error error) ↔ decisive.failure = some .fatal)

end StepRecord

def answersOf (steps : List StepRecord) : List CallRecord := steps.flatMap (·.calls)

/-- A contender between two answers, with its past. -/
structure Annals where
  scene : Scene
  status : Status
  contender : Contender
  /-- The call that the step under way waits for. -/
  waiting : Option ContenderCall
  /-- The answers of the step under way, the latest first. -/
  calls : List CallRecord
  /-- The steps that have ended, the latest first. -/
  steps : List StepRecord

namespace Annals

def start (lease : String) (config : LeaseConfig) (now : Nat) (wallClock : Timestamp) : Annals where
  scene := ⟨now, wallClock, []⟩
  status := {}
  contender := .create lease config
  waiting := none
  calls := []
  steps := []

/-- Note a transition, after which the step under way has had these answers. -/
def note (a : Annals) (calls : List CallRecord) :
    Progress ((Scene × Status) × Contender) ContenderCall (Except StorageError Unit) → Annals
  | .continues ((scene, status), contender) waiting =>
      { a with scene, status, contender, waiting := some waiting, calls }
  | .ended ((scene, status), contender) result =>
      { scene, status, contender, waiting := none, calls := [], steps := ⟨calls, result⟩ :: a.steps }
  | .died ((scene, status), contender) _ =>
      { a with scene, status, contender, waiting := none, calls := [] }

/-- Time passes, a step begins, or an answer arrives. -/
inductive Step : Annals → Annals → Prop
  | elapse {a : Annals} {now : Nat} (later : a.scene.now ≤ now) (wallClock : Timestamp) :
      Step a { a with scene := { a.scene with now, wallClock } }
  | enter {a : Annals} (idle : a.waiting = none) (transit : Transit)
      (reply : (call : LeaseCall) → Except StorageError call.Reply) :
      Step a (a.note []
        ((Coordinator.drive (Scene.answering transit reply)).enter (a.scene, a.status) a.contender))
  | hear {a : Annals} {call : ContenderCall}
      {progress : Progress ((Scene × Status) × Contender) ContenderCall (Except StorageError Unit)}
      (waiting : a.waiting = some call) (transit : Transit)
      (reply : (call : LeaseCall) → Except StorageError call.Reply) (cancelled : Bool)
      (advance : (Coordinator.drive (Scene.answering transit reply)).advance (a.scene, a.status)
        a.contender cancelled call = some progress) :
      Step a (a.note (a.contender.recordOf a.scene.now call.phase
        (reply (a.contender.call call.phase)) :: a.calls) progress)

inductive Reachable (lease : String) (config : LeaseConfig) : Annals → Prop
  | start (now : Nat) (wallClock : Timestamp) :
      Reachable lease config (.start lease config now wallClock)
  | step {a b : Annals} : Reachable lease config a → Step a b → Reachable lease config b

/-- The latest step has won the lease, or kept what the ones before it gave. -/
inductive Reigns (length : Duration) : List StepRecord → Prop
  | won {step : StepRecord} {older : List StepRecord} (wins : Wins step.calls) :
      Reigns length (step :: older)
  | kept {step : StepRecord} {older : List StepRecord} (reigns : Reigns length older)
      (keeps : Keeps length (answersOf older) step.calls) : Reigns length (step :: older)

theorem reigns_cons_iff {length : Duration} {step : StepRecord} {older : List StepRecord} :
    Reigns length (step :: older) ↔
      Wins step.calls ∨ (Reigns length older ∧ Keeps length (answersOf older) step.calls) := by
  constructor
  · intro h
    cases h with
    | won wins => exact .inl wins
    | kept reigns keeps => exact .inr ⟨reigns, keeps⟩
  · rintro (wins | ⟨reigns, keeps⟩)
    · exact .won wins
    · exact .kept reigns keeps

theorem not_reigns_nil (length : Duration) : ¬ Reigns length [] := by
  intro h
  cases h

/-- Some step has won the lease, and every later one has kept it. -/
theorem reigns_iff {length : Duration} {steps : List StepRecord} :
    Reigns length steps ↔
      ∃ newer step older, steps = newer ++ step :: older ∧ Wins step.calls ∧
        ∀ later kept earlier, newer = later ++ kept :: earlier →
          Keeps length (answersOf (earlier ++ step :: older)) kept.calls := by
  constructor
  · intro h
    induction h with
    | @won step older wins => exact ⟨[], step, older, rfl, wins, by simp⟩
    | @kept latest steps _ keeps ih =>
        obtain ⟨newer, step, older, rfl, wins, hkept⟩ := ih
        refine ⟨latest :: newer, step, older, rfl, wins, ?_⟩
        intro later kept earlier hsplit
        cases later with
        | nil =>
            obtain ⟨rfl, rfl⟩ := List.cons.inj hsplit
            exact keeps
        | cons head later => exact hkept later kept earlier (List.cons.inj hsplit).2
  · rintro ⟨newer, step, older, rfl, wins, hkept⟩
    induction newer with
    | nil => exact .won wins
    | cons latest newer ih =>
        have hreigns : Reigns length (newer ++ step :: older) := by
          refine ih fun later kept earlier hsplit => hkept (latest :: later) kept earlier ?_
          rw [hsplit, List.cons_append]
        exact .kept hreigns (hkept [] latest newer rfl)

/-- What observers were told, the latest first, begins with a lease that is
won, and goes back and forth to the present. -/
structure Alternates (status : Status) (news : List Bool) : Prop where
  counted : news.length = status.version
  latest : news.head?.getD false = status.isHeld
  chain : news.IsChain (· ≠ ·)
  oldest : ∀ flag, news.getLast? = some flag → flag = true

theorem Alternates.announce {before after : Status} {news fresh : List Bool}
    (h : Alternates before news) (hfresh : Announces before after fresh) :
    Alternates after (fresh ++ news) := by
  by_cases hsame : after.isHeld = before.isHeld
  · have hnone : fresh = [] := by rw [hfresh.tidings, if_pos hsame]
    have hversion : after.version = before.version := by
      rw [hfresh.version, if_pos hsame, Nat.add_zero]
    subst hnone
    exact ⟨hversion ▸ h.counted, hsame ▸ h.latest, h.chain, h.oldest⟩
  · have hone : fresh = [after.isHeld] := by rw [hfresh.tidings, if_neg hsame]
    have hversion : after.version = before.version + 1 := by rw [hfresh.version, if_neg hsame]
    subst hone
    cases news with
    | nil =>
        have hbefore : before.isHeld = false := h.latest.symm
        have hafter : after.isHeld = true := by simpa [hbefore] using hsame
        constructor
        · simp [hversion, ← h.counted]
        · simp
        · exact .singleton _
        · simp [hafter]
    | cons latest news =>
        have hlatest : latest = before.isHeld := h.latest
        constructor
        · simp [hversion, ← h.counted]
        · simp
        · exact .cons_cons (hlatest ▸ hsame) h.chain
        · intro flag hflag
          exact h.oldest flag (by simpa using hflag)

variable {lease : String} {config : LeaseConfig} {a b : Annals} {call : ContenderCall}
  {transit : Transit} {reply : (call : LeaseCall) → Except StorageError call.Reply}
  {cancelled : Bool}
  {progress : Progress ((Scene × Status) × Contender) ContenderCall (Except StorageError Unit)}

def turn (a : Annals) (call : ContenderCall)
    (reply : (call : LeaseCall) → Except StorageError call.Reply) : ContenderTurn :=
  a.contender.answer a.status a.scene.now call.phase (reply (a.contender.call call.phase))

def recordOf (a : Annals) (call : ContenderCall)
    (reply : (call : LeaseCall) → Except StorageError call.Reply) : CallRecord :=
  a.contender.recordOf a.scene.now call.phase (reply (a.contender.call call.phase))

def afterwards (a : Annals) (call : ContenderCall)
    (reply : (call : LeaseCall) → Except StorageError call.Reply) :
    (Scene × Status) × Contender :=
  (({ a.scene with told := (a.turn call reply).events.reverse ++ a.scene.told },
    (a.turn call reply).status), (a.turn call reply).contender)

theorem advance_eq_some
    (h : (Coordinator.drive (Scene.answering transit reply)).advance (a.scene, a.status)
      a.contender cancelled call = some progress) :
    (∃ next, (a.turn call reply).move = .call next ∧
      progress = .continues (a.afterwards call reply) ⟨next, transit⟩) ∨
    ∃ result, (a.turn call reply).move = .finish result ∧
      progress = .ended (a.afterwards call reply) result := by
  simp only [Coordinator.drive, Scene.answering, Coordinator.place, Scene.reportAll_eq] at h
  split at h
  · split at h
    · next next hmove => exact .inl ⟨next, hmove, (Option.some.inj h).symm⟩
    · next result hmove => exact .inr ⟨result, hmove, (Option.some.inj h).symm⟩
  · simp at h

theorem announces_step (h : Step a b) :
    ∃ fresh, tidings b.scene.told = fresh ++ tidings a.scene.told ∧
      Announces a.status b.status fresh := by
  cases h with
  | elapse later wallClock => exact ⟨[], rfl, .refl a.status⟩
  | enter idle transit reply => exact ⟨[], rfl, .refl a.status⟩
  | @hear call progress waiting transit reply cancelled advance =>
      have hannounces : Announces a.status (a.turn call reply).status
          (tidings (a.turn call reply).events) := Contender.answer_announces ..
      have htold : tidings ((a.turn call reply).events.reverse ++ a.scene.told) =
          tidings (a.turn call reply).events ++ tidings a.scene.told := by
        have hreverse : tidings (a.turn call reply).events.reverse =
            tidings (a.turn call reply).events := by
          rw [tidings, List.filterMap_reverse, ← tidings, hannounces.tidings]
          split <;> rfl
        rw [tidings_append, hreverse]
      rcases advance_eq_some advance with ⟨next, -, rfl⟩ | ⟨result, -, rfl⟩
      · exact ⟨_, htold, hannounces⟩
      · exact ⟨_, htold, hannounces⟩

/-- What links a contender to its past. -/
structure Invariant (config : LeaseConfig) (a : Annals) : Prop where
  length : a.contender.leaseDuration = config.leaseDuration
  fits : ∀ call, a.waiting = some call →
    call.phase.lease? = a.status.held ∧ call.phase.Follows a.calls
  remembers : a.status.isHeld = true → a.contender.Remembers a.scene.now (answersOf a.steps)
  reigns : a.status.isHeld = true ↔ Reigns config.leaseDuration a.steps
  decided : ∀ step ∈ a.steps, step.IsDecided
  alternates : Alternates a.status (tidings a.scene.told)

theorem start_invariant (lease : String) (config : LeaseConfig) (now : Nat)
    (wallClock : Timestamp) : (start lease config now wallClock).Invariant config := by
  constructor
  case length => rfl
  case fits => simp [start]
  case remembers => simp [start, Status.isHeld]
  case reigns => simp [start, Status.isHeld, not_reigns_nil]
  case decided => simp [start]
  case alternates =>
      constructor
      · rfl
      · rfl
      · exact .nil
      · simp [start, tidings]

theorem lastGrant_of_follows {phase : ContenderPhase} {calls earlier : List CallRecord}
    (h : phase.Follows calls) : lastGrant (calls ++ earlier) = lastGrant earlier := by
  have hvain : ∀ call ∈ calls, call.grants = false := by
    cases phase with
    | acquiring | renewing =>
        obtain rfl : calls = [] := h
        simp
    | creating =>
        obtain ⟨acquisition, rfl, -, hmissing⟩ := h
        simp [CallRecord.grants, hmissing]
    | recreating =>
        obtain ⟨renewal, rfl, -, hmissing⟩ := h
        simp [CallRecord.grants, hmissing]
    | reclaiming =>
        obtain ⟨creation, renewal, rfl, hcreation, -, -, hmissing⟩ := h
        simp [CallRecord.grants, hcreation, hmissing]
  have hnone : calls.find? (·.grants) = none := by
    rw [List.find?_eq_none]
    intro call hcall
    simp [hvain call hcall]
  simp [lastGrant, List.find?_append, hnone]

theorem Invariant.continued (hinv : a.Invariant config) (hwaiting : a.waiting = some call)
    {next : ContenderPhase} (hmove : (a.turn call reply).move = .call next)
    (halternates : Alternates (a.turn call reply).status
      (tidings ((a.turn call reply).events.reverse ++ a.scene.told))) :
    (a.note (a.recordOf call reply :: a.calls)
      (.continues (a.afterwards call reply) ⟨next, transit⟩)).Invariant config := by
  have hfits : call.phase.lease? = a.status.held := (hinv.fits call hwaiting).1
  have hfollows : call.phase.Follows a.calls := (hinv.fits call hwaiting).2
  have hnext : (a.turn call reply).move.phase? = some next := by rw [hmove]; rfl
  obtain ⟨hcontender, hstatus, hleads⟩ := Contender.answer_of_next hnext
  rw [← turn] at hcontender hstatus
  constructor
  case length => exact (congrArg Contender.leaseDuration hcontender).trans hinv.length
  case fits =>
      intro other hother
      obtain rfl := Option.some.inj hother
      exact ⟨(Contender.answer_outcome hfits _).lease?_next hfits hnext,
        Contender.follows_next hfollows hleads⟩
  case remembers =>
      intro hheld
      have hheld : a.status.isHeld = true := (congrArg Status.isHeld hstatus).symm.trans hheld
      have hremembers := hinv.remembers hheld
      rw [← hcontender] at hremembers
      exact hremembers
  case reigns =>
      have hreigns := hinv.reigns
      rw [← hstatus] at hreigns
      exact hreigns
  case decided => exact hinv.decided
  case alternates => exact halternates

theorem Invariant.ended (hinv : a.Invariant config) (hwaiting : a.waiting = some call)
    {result : Except StorageError Unit} (hmove : (a.turn call reply).move = .finish result)
    (halternates : Alternates (a.turn call reply).status
      (tidings ((a.turn call reply).events.reverse ++ a.scene.told))) :
    (a.note (a.recordOf call reply :: a.calls)
      (.ended (a.afterwards call reply) result)).Invariant config := by
  have hfits : call.phase.lease? = a.status.held := (hinv.fits call hwaiting).1
  have hfollows : call.phase.Follows a.calls := (hinv.fits call hwaiting).2
  have hended : (a.turn call reply).move.phase? = none := by rw [hmove]; rfl
  constructor
  case length =>
      have hterms : (a.turn call reply).contender.leaseDuration = a.contender.leaseDuration :=
        (Contender.answer_sameTerms a.contender a.status a.scene.now call.phase _).2.2
      exact hterms.trans hinv.length
  case fits => simp [note, afterwards]
  case remembers =>
      intro hheld
      have houtcome : Contender.Outcome a.contender a.status a.scene.now call.phase
          (reply (a.contender.call call.phase)) (a.turn call reply) :=
        Contender.answer_outcome hfits _
      -- the memory and the last grant move together, with a grant of this answer
      rcases houtcome.granted_or_unheld_or_kept with
        ⟨answer, lease, hreply, hlease, -, hlast⟩ | hnone | ⟨hstatus, hlast, hvain⟩
      · have hgrants : (a.recordOf call reply).grants = true := by
          rw [recordOf, hreply]
          exact Contender.recordOf_grants_of_granted hlease
        exact ⟨a.scene.now, hlast, lastGrant_cons_of_grants hgrants _, Nat.le_refl _⟩
      · have hunheld : (a.turn call reply).status.isHeld = false := by simp [Status.isHeld, hnone]
        exact absurd (hunheld.symm.trans hheld) (by simp)
      · have hheld : a.status.isHeld = true := (congrArg Status.isHeld hstatus).symm.trans hheld
        obtain ⟨granted, hremembered, hgrant, hpast⟩ := hinv.remembers hheld
        refine ⟨granted, hlast.trans hremembered, ?_, hpast⟩
        calc lastGrant (a.recordOf call reply :: (a.calls ++ answersOf a.steps))
            = lastGrant (a.calls ++ answersOf a.steps) := lastGrant_cons_of_not_grants hvain _
          _ = lastGrant (answersOf a.steps) := lastGrant_of_follows hfollows
          _ = some granted := hgrant
  case reigns =>
      have hheld : (a.turn call reply).status.isHeld = true ↔
          Wins (a.recordOf call reply :: a.calls) ∨ (a.status.isHeld = true ∧
            Keeps a.contender.leaseDuration (answersOf a.steps)
              (a.recordOf call reply :: a.calls)) :=
        Contender.isHeld_answer_iff hfits hfollows hinv.remembers _ hended
      rw [hinv.length, hinv.reigns] at hheld
      have hreigns : Reigns config.leaseDuration
          (⟨a.recordOf call reply :: a.calls, result⟩ :: a.steps) ↔ _ := reigns_cons_iff
      exact hheld.trans hreigns.symm
  case decided =>
      have hresult : result = Contender.verdict (reply (a.contender.call call.phase)) :=
        ContenderMove.finish.inj (hmove.symm.trans (Contender.move_answer hended))
      have hdecided : StepRecord.IsDecided ⟨a.recordOf call reply :: a.calls, result⟩ :=
        ⟨_, a.calls, rfl, hresult ▸ Contender.verdict_eq_error_iff _⟩
      intro step hstep
      rcases List.mem_cons.mp hstep with rfl | hbefore
      · exact hdecided
      · exact hinv.decided step hbefore
  case alternates => exact halternates

theorem Invariant.step (hinv : a.Invariant config) (h : Step a b) : b.Invariant config := by
  obtain ⟨fresh, htold, hannounces⟩ := announces_step h
  have halternates : Alternates b.status (tidings b.scene.told) :=
    htold ▸ hinv.alternates.announce hannounces
  cases h with
  | elapse later wallClock =>
      refine { hinv with remembers := ?_ }
      intro hheld
      obtain ⟨granted, hlast, hgrant, hpast⟩ := hinv.remembers hheld
      exact ⟨granted, hlast, hgrant, Nat.le_trans hpast later⟩
  | enter idle transit reply =>
      refine { hinv with fits := ?_ }
      intro call hcall
      obtain rfl := Option.some.inj hcall
      exact ⟨Contender.lease?_firstPhase a.status, follows_firstPhase a.status⟩
  | @hear call progress waiting transit reply cancelled advance =>
      rcases advance_eq_some advance with ⟨next, hmove, rfl⟩ | ⟨result, hmove, rfl⟩
      · exact hinv.continued waiting hmove halternates
      · exact hinv.ended waiting hmove halternates

theorem Reachable.invariant (h : Reachable lease config a) : a.Invariant config := by
  induction h with
  | start now wallClock => exact start_invariant lease config now wallClock
  | step _ hstep ih => exact ih.step hstep

/-- The lease is held exactly if the answers so far have won it in one step
and kept it in every later one.  A step fails exactly if its last answer is a
refusal for good.  Observers are told of every lease that is won or lost, once
each and in turns, and of nothing else. -/
theorem leadership_of_answers (h : Reachable lease config a) :
    (a.status.isHeld = true ↔
      ∃ newer step older, a.steps = newer ++ step :: older ∧ Wins step.calls ∧
        ∀ later kept earlier, newer = later ++ kept :: earlier →
          Keeps config.leaseDuration (answersOf (earlier ++ step :: older)) kept.calls) ∧
    (∀ step ∈ a.steps, step.IsDecided) ∧
    Alternates a.status (tidings a.scene.told) ∧
    ∀ b, Step a b → ∃ fresh, tidings b.scene.told = fresh ++ tidings a.scene.told ∧
      Announces a.status b.status fresh := by
  have hinv : a.Invariant config := h.invariant
  refine ⟨?_, hinv.decided, hinv.alternates, fun b hstep => announces_step hstep⟩
  rw [← reigns_iff]
  exact hinv.reigns

/-- The next transition of the contender at this instant, if there is one. -/
def proceed (a : Annals) (transit : Transit)
    (reply : (call : LeaseCall) → Except StorageError call.Reply) : Annals :=
  match a.waiting with
  | none =>
      a.note []
        ((Coordinator.drive (Scene.answering transit reply)).enter (a.scene, a.status) a.contender)
  | some call =>
      match (Coordinator.drive (Scene.answering transit reply)).advance (a.scene, a.status)
          a.contender false call with
      | none => a
      | some progress => a.note (a.recordOf call reply :: a.calls) progress

theorem Reachable.proceed (h : Reachable lease config a) (transit : Transit)
    (reply : (call : LeaseCall) → Except StorageError call.Reply) :
    Reachable lease config (a.proceed transit reply) := by
  unfold Annals.proceed
  split
  · next hidle => exact h.step (.enter hidle transit reply)
  · next call hwaiting =>
      split
      · exact h
      · next progress hadvance => exact h.step (.hear hwaiting transit reply false hadvance)

def denial : StorageError := .status 403 "AuthorizationFailure" "denied"

def grudging : (call : LeaseCall) → Except StorageError call.Reply
  | .acquire _ holder => .ok holder
  | .renew _ | .release _ | .ensure => .error denial

def begrudged : Annals :=
  ((((start "lock" (.standard (.timeOrdered 0)) 0 scenarioEpoch).proceed (.direct 0)
    grudging).proceed (.direct 0) grudging).proceed (.direct 0) grudging).proceed (.direct 0)
    grudging

theorem reachable_begrudged : Reachable "lock" (.standard (.timeOrdered 0)) begrudged := by
  have hstart : Reachable "lock" (.standard (.timeOrdered 0)) _ := .start 0 scenarioEpoch
  have hacquired := (hstart.proceed (.direct 0) grudging).proceed (.direct 0) grudging
  exact (hacquired.proceed (.direct 0) grudging).proceed (.direct 0) grudging

/-- A denial is an error of its step, which neither ends the leadership nor is
told to observers. -/
theorem leadership_of_answers_begrudged :
    (∃ newer step older, begrudged.steps = newer ++ step :: older ∧ Wins step.calls ∧
      ∀ later kept earlier, newer = later ++ kept :: earlier →
        Keeps (.ofSeconds 15) (answersOf (earlier ++ step :: older)) kept.calls) ∧
    begrudged.steps.map (·.result) = [.error denial, .ok ()] ∧
    Alternates begrudged.status [true] := by
  obtain ⟨hheld, -, halternates, -⟩ := leadership_of_answers reachable_begrudged
  exact ⟨hheld.mp rfl, rfl, halternates⟩

end Annals

end LeasedListener
