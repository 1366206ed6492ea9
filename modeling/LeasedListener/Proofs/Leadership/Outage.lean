import LeasedListener.Proofs.Interval.Policy
import LeasedListener.Proofs.Leadership.Annals
import Mathlib.Data.Nat.Find

/-!
# Renewals in an outage

From its last grant on, a contender is answered by transient failures alone.
Nothing takes time but the waits that it asks for.  Every failure brings the
next attempt closer, and the lease is held at all attempts that come before its
full length has passed, of which there are two at least.  The first attempt
after that gives the lease up.
-/

namespace LeasedListener

theorem tidings_reverse (events : List Event) : tidings events.reverse = (tidings events).reverse :=
  List.filterMap_reverse

namespace Contender

variable {c : Contender} {status : Status} {now : Nat} {phase : ContenderPhase}

structure KeepsTo (config : LeaseConfig) (c : Contender) : Prop where
  acquiring : c.acquireInterval = config.renewalInterval
  normal : c.renewal.normal = config.renewalInterval
  least : c.renewal.least = min config.minRetryInterval config.renewalInterval

theorem keepsTo_create (lease : String) (config : LeaseConfig) :
    (create lease config).KeepsTo config := ⟨rfl, rfl, rfl⟩

theorem KeepsTo.answer {config : LeaseConfig} (h : c.KeepsTo config) (status : Status) (now : Nat)
    (phase : ContenderPhase) (reply : Except StorageError (c.call phase).Reply) :
    (c.answer status now phase reply).contender.KeepsTo config := by
  have hsame : ∀ other : Contender, other.acquireInterval = c.acquireInterval →
      other.renewal.normal = c.renewal.normal → other.renewal.least = c.renewal.least →
      other.KeepsTo config := by
    intro other hacquiring hnormal hleast
    exact ⟨hacquiring.trans h.acquiring, hnormal.trans h.normal, hleast.trans h.least⟩
  cases phase with
  | acquiring =>
      cases reply with
      | ok lease => exact hsame _ rfl rfl rfl
      | error error =>
          simp only [Contender.answer, acquireFailed]
          cases error.errorClass <;> exact h
  | creating =>
      cases reply with
      | ok answered => exact h
      | error error =>
          simp only [Contender.answer, createFailed]
          split <;> exact h
  | renewing lease =>
      cases reply with
      | ok answered => exact hsame _ rfl rfl rfl
      | error error =>
          simp only [Contender.answer, renewFailed]
          cases error.errorClass with
          | conflict => exact hsame _ rfl rfl rfl
          | notFound | fatal => exact h
          | transient =>
              simp only
              split <;> exact hsame _ rfl rfl rfl
  | recreating lease =>
      cases reply with
      | ok answered => exact h
      | error error => exact hsame _ rfl rfl rfl
  | reclaiming lease => cases reply <;> exact hsame _ rfl rfl rfl

theorem failures_of_granted {answered : (c.call phase).Reply} {lease : Identifier}
    (hgranted : c.granted? phase answered = some lease) :
    (c.answer status now phase (.ok answered)).contender.renewal.failures = 0 := by
  cases phase with
  | acquiring | renewing | reclaiming => rfl
  | creating | recreating => simp [granted?] at hgranted

theorem Outcome.of_grants {reply : Except StorageError (c.call phase).Reply}
    {turn : ContenderTurn} (h : Outcome c status now phase reply turn)
    (hgrants : (c.recordOf now phase reply).grants = true) :
    turn.status.isHeld = true ∧ turn.contender.lastRenewal = some now := by
  have hvain : (c.recordOf now phase reply).failure = none := by
    simp only [CallRecord.grants, Bool.and_eq_true] at hgrants
    simpa using hgrants.2
  cases h with
  | granted _ _ _ _ hheld hlast _ => exact ⟨by simp [Status.isHeld, hheld], hlast⟩
  | unheld hfailed _ _ | asked _ hfailed _ _ _ _ => simp [hfailed] at hgrants
  | retained _ _ _ hreply _ _ _ _ | overruled _ _ hreply _ _ _ =>
      exact absurd (hreply.symm.trans hvain) (by simp)

/-- A renewal that fails transiently ends its step.  It changes the pace and
nothing else, unless the lease has expired. -/
theorem answer_of_transient {lease : Identifier} {error : StorageError}
    (htransient : error.errorClass = .transient) :
    (c.answer status now (.renewing lease) (.error error)).move = .finish (.ok ()) ∧
      (c.expired now = false →
        (c.answer status now (.renewing lease) (.error error)).status = status ∧
          (c.answer status now (.renewing lease) (.error error)).contender =
            { c with renewal := c.renewal.after false }) ∧
      (c.expired now = true →
        (c.answer status now (.renewing lease) (.error error)).status.isHeld = false) := by
  have hsame : ({ c with renewal := c.renewal.after false } : Contender).expired now =
      c.expired now := rfl
  simp only [answer, renewFailed, htransient, hsame]
  cases c.expired now with
  | false => exact ⟨rfl, fun _ => ⟨rfl, rfl⟩, by simp⟩
  | true => exact ⟨rfl, by simp, fun _ => by simp [lose, Status.isHeld]⟩

end Contender

namespace Annals

variable {lease : String} {config : LeaseConfig} {a b : Annals}

/-- The latest answer is a grant of this instant, which ended its step. -/
def JustGranted (a : Annals) : Prop :=
  a.waiting = none ∧ ∃ grant others result older,
    a.steps = ⟨grant :: others, result⟩ :: older ∧ grant.grants = true ∧ grant.time = a.scene.now

/-- The waits are those of the configuration, and a step that ended with a
grant has left its mark. -/
structure Paced (config : LeaseConfig) (a : Annals) : Prop where
  keepsTo : a.contender.KeepsTo config
  granted : ∀ grant others result older, a.steps = ⟨grant :: others, result⟩ :: older →
    grant.grants = true → a.contender.renewal.failures = 0 ∧ a.status.isHeld = true ∧
      a.contender.lastRenewal = some grant.time

theorem Paced.step (h : a.Paced config) (hinv : a.Invariant config) (hstep : Step a b) :
    b.Paced config := by
  cases hstep with
  | elapse later wallClock => exact ⟨h.keepsTo, h.granted⟩
  | enter idle transit reply => exact ⟨h.keepsTo, h.granted⟩
  | @hear call progress waiting transit reply cancelled advance =>
      have hkeeps : (a.turn call reply).contender.KeepsTo config := h.keepsTo.answer ..
      rcases advance_eq_some advance with ⟨next, hmove, rfl⟩ | ⟨result, -, rfl⟩
      · have hnext : (a.turn call reply).move.phase? = some next := by rw [hmove]; rfl
        obtain ⟨hcontender, hstatus, -⟩ := Contender.answer_of_next hnext
        rw [← turn] at hcontender hstatus
        have hgranted := h.granted
        rw [← hcontender, ← hstatus] at hgranted
        exact ⟨hkeeps, hgranted⟩
      · refine ⟨hkeeps, ?_⟩
        intro grant others result' older hsteps hgrants
        obtain rfl : a.recordOf call reply = grant :=
          (List.cons.inj (congrArg StepRecord.calls (List.cons.inj hsteps).1)).1
        obtain ⟨answered, granted, hreply, hgranted⟩ :=
          Contender.granted_of_recordOf_grants hgrants
        have hfailures : (a.turn call reply).contender.renewal.failures = 0 := by
          rw [turn, hreply]
          exact Contender.failures_of_granted hgranted
        have houtcome : Contender.Outcome a.contender a.status a.scene.now call.phase
            (reply (a.contender.call call.phase)) (a.turn call reply) :=
          Contender.answer_outcome (hinv.fits call waiting).1 _
        exact ⟨hfailures, houtcome.of_grants hgrants⟩

theorem Reachable.paced (h : Reachable lease config a) : a.Paced config := by
  induction h with
  | start now wallClock =>
      refine ⟨Contender.keepsTo_create lease config, ?_⟩
      intro grant others result older hsteps
      simp [Annals.start] at hsteps
  | step hreachable hstep ih => exact ih.step hreachable.invariant hstep

/-- A transient failure of the service, and the civil time at which it comes. -/
structure Failure where
  wallClock : Timestamp
  error : StorageError
  transient : error.errorClass = .transient

def Failure.reply (f : Failure) : (call : LeaseCall) → Except StorageError call.Reply :=
  fun _ => .error f.error

def interval (a : Annals) : Duration := a.contender.interval a.status

/-- The contender has waited for its next attempt. -/
def wait (a : Annals) (wallClock : Timestamp) : Annals :=
  { a with scene := { a.scene with now := a.scene.now + a.interval.nanos, wallClock } }

/-- The next attempt, which begins when the contender has asked for it and is
answered at once. -/
def attempt (a : Annals) (f : Failure) : Annals :=
  ((a.wait f.wallClock).proceed (.direct (a.wait f.wallClock).scene.now) f.reply).proceed
    (.direct (a.wait f.wallClock).scene.now) f.reply

def outage (a : Annals) (failures : Nat → Failure) : Nat → Annals
  | 0 => a
  | count + 1 => (a.outage failures count).attempt (failures count)

theorem proceed_of_idle {held : Identifier} (hidle : a.waiting = none)
    (hheld : a.status.held = some held) (transit : Transit)
    (reply : (call : LeaseCall) → Except StorageError call.Reply) :
    a.proceed transit reply =
      { a with waiting := some ⟨.renewing held, transit⟩, calls := [] } := by
  have hphase : Contender.firstPhase a.status = .renewing held := by
    simp only [Contender.firstPhase, hheld]
  rw [← hphase]
  simp only [proceed, hidle]
  rfl

theorem proceed_of_ending (call : ContenderCall) {transit : Transit}
    {reply : (call : LeaseCall) → Except StorageError call.Reply}
    {result : Except StorageError Unit} (hwaiting : a.waiting = some call)
    (harrived : call.transit.arrived a.scene.now = true)
    (hmove : (a.turn call reply).move = .finish result) :
    a.proceed transit reply =
      a.note (a.recordOf call reply :: a.calls) (.ended (a.afterwards call reply) result) := by
  have hadvance : (Coordinator.drive (Scene.answering transit reply)).advance (a.scene, a.status)
      a.contender false call = some (.ended (a.afterwards call reply) result) := by
    have hnow : Surroundings.now (a.scene, a.status) = a.scene.now := rfl
    simp only [turn] at hmove
    simp only [Coordinator.drive, Scene.answering, Scene.reportAll_eq, hnow, harrived, if_true,
      hmove]
    rfl
  simp only [proceed, hwaiting, hadvance]

def setback (a : Annals) (f : Failure) (lease : Identifier) : ContenderTurn :=
  a.contender.answer a.status (a.scene.now + a.interval.nanos) (.renewing lease) (.error f.error)

theorem attempt_of_held {held : Identifier} (hidle : a.waiting = none)
    (hheld : a.status.held = some held) (f : Failure) :
    a.attempt f =
      { scene := ⟨a.scene.now + a.interval.nanos, f.wallClock,
          (a.setback f held).events.reverse ++ a.scene.told⟩
        status := (a.setback f held).status
        contender := (a.setback f held).contender
        waiting := none
        calls := []
        steps := ⟨[⟨a.scene.now + a.interval.nanos, .renew, [.holder held], some .transient⟩],
          .ok ()⟩ :: a.steps } := by
  have harrived : (Transit.direct (a.wait f.wallClock).scene.now).arrived
      (a.wait f.wallClock).scene.now = true := by
    simp [Transit.arrived, Transit.direct, Instant.reached]
  have hmove : (a.setback f held).move = .finish (.ok ()) :=
    (Contender.answer_of_transient f.transient).1
  have hfailure : some f.error.errorClass = some .transient := congrArg some f.transient
  rw [attempt, proceed_of_idle (a := a.wait f.wallClock) hidle hheld, ← hfailure]
  exact proceed_of_ending ⟨.renewing held, .direct (a.wait f.wallClock).scene.now⟩ rfl harrived hmove

theorem Reachable.attempt (h : Reachable lease config a) (f : Failure) :
    Reachable lease config (a.attempt f) :=
  ((h.step (.elapse (Nat.le_add_right ..) f.wallClock)).proceed _ _).proceed _ _

theorem Reachable.outage (h : Reachable lease config a) (failures : Nat → Failure) (count : Nat) :
    Reachable lease config (a.outage failures count) := by
  induction count with
  | zero => exact h
  | succ count ih => exact ih.attempt (failures count)

/-- The lease is held as before, and nothing has been heard since its grant. -/
structure Endures (granted : Nat) (a b : Annals) : Prop where
  idle : b.waiting = none
  last : b.contender.lastRenewal = some granted
  past : granted ≤ b.scene.now
  held : b.status.isHeld = true
  status : b.status = a.status
  news : tidings b.scene.told = tidings a.scene.told

variable {granted : Nat} {f : Failure} {failures : Nat → Failure} {count : Nat}

theorem JustGranted.endures (h : Reachable lease config a) (hgranted : a.JustGranted) :
    Endures a.scene.now a a := by
  obtain ⟨hidle, grant, others, result, older, hsteps, hgrants, htime⟩ := hgranted
  obtain ⟨-, hheld, hlast⟩ := h.paced.granted grant others result older hsteps hgrants
  exact ⟨hidle, htime ▸ hlast, Nat.le_refl _, hheld, rfl, rfl⟩

theorem Endures.interval_eq (h : Endures granted a b) :
    b.interval = b.contender.renewal.current := by
  simp only [interval, Contender.interval, h.held, if_true]

/-- After the wait that was asked for, one step was made.  It was a renewal that
failed transiently. -/
def Retries (a b : Annals) : Prop :=
  b.scene.now = a.scene.now + a.interval.nanos ∧
    ∃ held, b.steps =
      ⟨[⟨b.scene.now, .renew, [.holder held], some .transient⟩], .ok ()⟩ :: a.steps

theorem Endures.retries (h : Endures granted a b) (f : Failure) : Retries b (b.attempt f) := by
  obtain ⟨held, hheld⟩ := Option.isSome_iff_exists.mp h.held
  rw [attempt_of_held h.idle hheld]
  exact ⟨rfl, held, rfl⟩

theorem Endures.attempt (h : Endures granted a b) (f : Failure)
    (hyoung : (b.attempt f).scene.now < granted + b.contender.leaseDuration.nanos) :
    Endures granted a (b.attempt f) ∧ (b.attempt f).interval.nanos ≤ b.interval.nanos := by
  obtain ⟨held, hheld⟩ := Option.isSome_iff_exists.mp h.held
  rw [(h.retries f).1] at hyoung
  have halive : b.contender.expired (b.scene.now + b.interval.nanos) = false := by
    simp only [Contender.expired, h.last, decide_eq_false_iff_not]
    have hpast := h.past
    omega
  obtain ⟨hstatus, hcontender⟩ := (Contender.answer_of_transient f.transient).2.1 halive
  have hnews : Announces b.status (b.setback f held).status (tidings (b.setback f held).events) :=
    Contender.answer_announces ..
  have hquiet : tidings (b.setback f held).events = [] := by
    rw [hnews.tidings, setback, hstatus, if_pos rfl]
  rw [attempt_of_held h.idle hheld]
  have hendures : Endures granted a
      { scene := ⟨b.scene.now + b.interval.nanos, f.wallClock,
          (b.setback f held).events.reverse ++ b.scene.told⟩
        status := (b.setback f held).status
        contender := (b.setback f held).contender
        waiting := none
        calls := []
        steps := ⟨[⟨b.scene.now + b.interval.nanos, .renew, [.holder held], some .transient⟩],
          .ok ()⟩ :: b.steps } := by
    constructor
    case idle => rfl
    case last => exact (congrArg Contender.lastRenewal hcontender).trans h.last
    case past => exact Nat.le_add_right_of_le h.past
    case held => exact (congrArg Status.isHeld hstatus).trans h.held
    case status => exact hstatus.trans h.status
    case news =>
        rw [tidings_append, tidings_reverse, hquiet, List.reverse_nil, List.nil_append]
        exact h.news
  refine ⟨hendures, ?_⟩
  rw [hendures.interval_eq, h.interval_eq, setback, hcontender]
  exact b.contender.renewal.current_after_failure_le

theorem Endures.gives_up (h : Endures granted a b) (f : Failure)
    (hold : granted + b.contender.leaseDuration.nanos ≤ (b.attempt f).scene.now) :
    (b.attempt f).status.isHeld = false ∧
      (b.attempt f).status.version = a.status.version + 1 ∧
      tidings (b.attempt f).scene.told = false :: tidings a.scene.told := by
  obtain ⟨held, hheld⟩ := Option.isSome_iff_exists.mp h.held
  rw [(h.retries f).1] at hold
  have hexpired : b.contender.expired (b.scene.now + b.interval.nanos) = true := by
    simp only [Contender.expired, h.last, decide_eq_true_eq]
    omega
  have hlost : (b.setback f held).status.isHeld = false :=
    (Contender.answer_of_transient f.transient).2.2 hexpired
  have hnews : Announces b.status (b.setback f held).status (tidings (b.setback f held).events) :=
    Contender.answer_announces ..
  have hchanged : ¬ (b.setback f held).status.isHeld = b.status.isHeld := by
    rw [hlost, h.held]
    simp
  rw [attempt_of_held h.idle hheld]
  refine ⟨hlost, ?_, ?_⟩
  · exact hnews.version.trans (by rw [if_neg hchanged, h.status])
  · rw [tidings_append, tidings_reverse, hnews.tidings, if_neg hchanged, hlost, h.news]
    rfl

theorem nanos_least (hvalid : config.validate = .ok ()) {c : Contender} (hc : c.KeepsTo config) :
    c.renewal.least.nanos = config.minRetryInterval.nanos ∧
      c.renewal.normal.nanos = config.renewalInterval.nanos := by
  obtain ⟨-, -, -, -, hrange⟩ := config.validate_eq_ok_iff.mp hvalid
  rw [hc.least, hc.normal, Duration.nanos_min]
  exact ⟨Nat.min_eq_left hrange, rfl⟩

theorem Endures.interval_mem (h : Endures granted a b) (hvalid : config.validate = .ok ())
    (hkeeps : b.contender.KeepsTo config) :
    config.minRetryInterval.nanos ≤ b.interval.nanos ∧
      b.interval.nanos ≤ config.renewalInterval.nanos := by
  obtain ⟨hleast, hnormal⟩ := nanos_least hvalid hkeeps
  obtain ⟨-, -, -, -, hrange⟩ := config.validate_eq_ok_iff.mp hvalid
  rw [h.interval_eq]
  have hlower := b.contender.renewal.least_le_current
  have hupper : b.contender.renewal.current.nanos ≤ b.contender.renewal.normal.nanos :=
    Speedup.current_le_normal (by omega)
  omega

theorem outage_endures (h : Reachable lease config a) (hgranted : a.JustGranted)
    (failures : Nat → Failure) (count : Nat) (hyoung : ∀ n ≤ count,
      (a.outage failures n).scene.now < a.scene.now + config.leaseDuration.nanos) :
    Endures a.scene.now a (a.outage failures count) := by
  induction count with
  | zero => exact hgranted.endures h
  | succ count ih =>
      have hendures := ih fun n hn => hyoung n (Nat.le_succ_of_le hn)
      have hlength := (h.outage failures count).invariant.length
      exact (hendures.attempt (failures count) (hlength ▸ hyoung (count + 1) (Nat.le_refl _))).1

/-- Every wait is positive, so the lease does not stay young for ever. -/
theorem outage_expires (hvalid : config.validate = .ok ()) (h : Reachable lease config a)
    (hgranted : a.JustGranted) (failures : Nat → Failure) :
    ∃ count, a.scene.now + config.leaseDuration.nanos ≤ (a.outage failures count).scene.now := by
  by_contra hnever
  have hyoung : ∀ n, (a.outage failures n).scene.now <
      a.scene.now + config.leaseDuration.nanos := by
    simpa using hnever
  have hlater : ∀ n, a.scene.now + n ≤ (a.outage failures n).scene.now := by
    intro n
    induction n with
    | zero => exact Nat.le_refl _
    | succ n ih =>
        have hendures := outage_endures h hgranted failures n fun k _ => hyoung k
        have hwait := hendures.interval_mem hvalid (h.outage failures n).paced.keepsTo
        have hpositive := (config.validate_eq_ok_iff.mp hvalid).2.2.1
        have hnext : (a.outage failures (n + 1)).scene.now = _ :=
          (hendures.retries (failures n)).1
        omega
  have hlast := hlater config.leaseDuration.nanos
  have hbefore := hyoung config.leaseDuration.nanos
  omega

/-- How a lease runs out in an outage, at the attempt of number `last`. -/
structure RunsOut (config : LeaseConfig) (a : Annals) (failures : Nat → Failure) (last : Nat) :
    Prop where
  /-- The lease lasts for two attempts at least. -/
  two_lt : 2 < last
  young : ∀ n < last,
    (a.outage failures n).scene.now < a.scene.now + config.leaseDuration.nanos
  retries : ∀ n < last, Retries (a.outage failures n) (a.outage failures (n + 1))
  held : ∀ n < last, (a.outage failures n).status.isHeld = true
  quiet : ∀ n < last, (a.outage failures n).status.version = a.status.version ∧
    tidings (a.outage failures n).scene.told = tidings a.scene.told
  interval_mem : ∀ n < last,
    config.minRetryInterval.nanos ≤ (a.outage failures n).interval.nanos ∧
      (a.outage failures n).interval.nanos ≤ config.renewalInterval.nanos
  interval_le : ∀ n, n + 1 < last →
    (a.outage failures (n + 1)).interval.nanos ≤ (a.outage failures n).interval.nanos
  expired : a.scene.now + config.leaseDuration.nanos ≤ (a.outage failures last).scene.now
  prompt : (a.outage failures last).scene.now <
    a.scene.now + config.leaseDuration.nanos + config.renewalInterval.nanos
  lost : (a.outage failures last).status.isHeld = false
  announced : (a.outage failures last).status.version = a.status.version + 1 ∧
    tidings (a.outage failures last).scene.told = false :: tidings a.scene.told
  interval_last : (a.outage failures last).interval = config.renewalInterval

/-- After a grant that nothing but transient failures follows, all attempts
until the lease has reached its full length are renewals, of which there are
two at least, and leave it held; the waits between them never get longer and
stay between the smallest and the regular one.  The next attempt comes less
than a regular wait after that and gives the lease up, which is announced once.
The wait that follows is the regular one. -/
theorem outage_schedule (hvalid : config.validate = .ok ()) (h : Reachable lease config a)
    (hgranted : a.JustGranted) (failures : Nat → Failure) :
    ∃ last, a.RunsOut config failures last := by
  obtain ⟨last, hold, hyoung⟩ : ∃ last,
      a.scene.now + config.leaseDuration.nanos ≤ (a.outage failures last).scene.now ∧
        ∀ n < last, (a.outage failures n).scene.now <
          a.scene.now + config.leaseDuration.nanos := by
    have hexpires := outage_expires hvalid h hgranted failures
    exact ⟨Nat.find hexpires, Nat.find_spec hexpires, fun n hn =>
      Nat.lt_of_not_le (Nat.find_min hexpires hn)⟩
  have hendures : ∀ n < last, Endures a.scene.now a (a.outage failures n) := fun n hn =>
    outage_endures h hgranted failures n fun k hk => hyoung k (Nat.lt_of_le_of_lt hk hn)
  have hwait : ∀ n < last, config.minRetryInterval.nanos ≤ (a.outage failures n).interval.nanos ∧
      (a.outage failures n).interval.nanos ≤ config.renewalInterval.nanos := fun n hn =>
    (hendures n hn).interval_mem hvalid (h.outage failures n).paced.keepsTo
  have hretries : ∀ n < last, Retries (a.outage failures n) (a.outage failures (n + 1)) :=
    fun n hn => (hendures n hn).retries (failures n)
  have hlength : ∀ n, (a.outage failures n).contender.leaseDuration = config.leaseDuration :=
    fun n => (h.outage failures n).invariant.length
  have htwo : 2 < last := by
    -- two regular waits are shorter than the lease
    have htwice := (config.validate_eq_ok_iff.mp hvalid).2.2.2.1
    have hstart : (a.outage failures 0).scene.now = a.scene.now := rfl
    by_contra hfew
    have hcases : last = 0 ∨ last = 1 ∨ last = 2 := by omega
    rcases hcases with rfl | rfl | rfl
    · omega
    · have hfirst : (a.outage failures 1).scene.now = _ := (hretries 0 (by omega)).1
      have := hwait 0 (by omega)
      omega
    · have hfirst : (a.outage failures 1).scene.now = _ := (hretries 0 (by omega)).1
      have hsecond : (a.outage failures 2).scene.now = _ := (hretries 1 (by omega)).1
      have := hwait 0 (by omega)
      have := hwait 1 (by omega)
      omega
  obtain ⟨before, rfl⟩ : ∃ before, last = before + 1 := ⟨last - 1, by omega⟩
  have hlast : before < before + 1 := Nat.lt_succ_self before
  obtain ⟨hlost, hversion, hnews⟩ :=
    (hendures before hlast).gives_up (failures before) ((hlength before).symm ▸ hold)
  refine ⟨before + 1, ?_⟩
  constructor
  case two_lt => exact htwo
  case young => exact hyoung
  case retries => exact hretries
  case held => exact fun n hn => (hendures n hn).held
  case quiet =>
      exact fun n hn => ⟨congrArg Status.version (hendures n hn).status, (hendures n hn).news⟩
  case interval_mem => exact hwait
  case interval_le =>
      intro n hn
      have hstill := hyoung (n + 1) hn
      exact ((hendures n (by omega)).attempt (failures n) ((hlength n).symm ▸ hstill)).2
  case expired => exact hold
  case prompt =>
      have hnext := (hretries before hlast).1
      have := hwait before hlast
      have := hyoung before hlast
      omega
  case lost => exact hlost
  case announced => exact ⟨hversion, hnews⟩
  case interval_last =>
      have hunheld : (a.outage failures (before + 1)).status.isHeld = false := hlost
      have hkeeps := (h.outage failures (before + 1)).paced.keepsTo
      simp only [interval, Contender.interval, hunheld]
      exact hkeeps.acquiring

def elected : Annals :=
  ((start "lock" (.standard (.timeOrdered 0)) 0 scenarioEpoch).proceed (.direct 0) grudging).proceed
    (.direct 0) grudging

theorem reachable_elected : Reachable "lock" (.standard (.timeOrdered 0)) elected := by
  have hstart : Reachable "lock" (.standard (.timeOrdered 0)) _ := .start 0 scenarioEpoch
  exact (hstart.proceed (.direct 0) grudging).proceed (.direct 0) grudging

def busy : Failure where
  wallClock := scenarioEpoch
  error := .serverBusy
  transient := by decide

/-- The lease of fifteen seconds is given up at the ninth attempt. -/
theorem outage_schedule_elected :
    (LeaseConfig.standard (.timeOrdered 0)).validate = .ok () ∧ elected.JustGranted ∧
      (∃ last, elected.RunsOut (.standard (.timeOrdered 0)) (fun _ => busy) last) ∧
      (elected.outage (fun _ => busy) 8).status.isHeld = true ∧
      (elected.outage (fun _ => busy) 9).status.isHeld = false ∧
      (elected.outage (fun _ => busy) 9).scene.now = 15416666666 := by
  have hgranted : elected.JustGranted := ⟨rfl, _, _, _, _, rfl, rfl, rfl⟩
  have hvalid := LeaseConfig.validate_standard (.timeOrdered 0)
  exact ⟨hvalid, hgranted, outage_schedule hvalid reachable_elected hgranted _,
    by decide, by decide, by decide⟩

end Annals

end LeasedListener
