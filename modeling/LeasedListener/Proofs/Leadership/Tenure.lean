import LeasedListener.Proofs.Leadership.Outcome
import LeasedListener.Proofs.Lease.Config

/-!
# Leadership and the age of the last grant

A tenure follows a contender through any number of steps, against a service
that may answer anything at any later instant.  Whenever a step has ended and
the lease is held, the last grant is younger than the lease, but for one
case: a renewal that is refused for good is not checked against the age of
the lease.
-/

namespace LeasedListener

structure Tenure where
  contender : Contender
  status : Status
  /-- The call that the step under way waits for. -/
  phase : Option ContenderPhase
  /-- The answers so far, the latest first. -/
  calls : List CallRecord
  /-- The reports so far, the latest first. -/
  log : List Event

namespace Tenure

def start (lease : String) (config : LeaseConfig) : Tenure where
  contender := .create lease config
  status := {}
  phase := none
  calls := []
  log := []

def enter (t : Tenure) : Tenure :=
  { t with phase := some (Contender.firstPhase t.status) }

def hear (t : Tenure) (phase : ContenderPhase) (time : Nat)
    (reply : Except StorageError (t.contender.call phase).Reply) : Tenure :=
  let turn := t.contender.answer t.status time phase reply
  { contender := turn.contender
    status := turn.status
    phase := turn.move.phase?
    calls := t.contender.recordOf time phase reply :: t.calls
    log := turn.events.reverse ++ t.log }

def clock (t : Tenure) : Nat := (t.calls.head?.map (·.time)).getD 0

/-- A step begins, or an answer arrives, no earlier than the one before. -/
inductive Step : Tenure → Tenure → Prop
  | enter {t : Tenure} (idle : t.phase = none) : Step t t.enter
  | hear {t : Tenure} {phase : ContenderPhase} {time : Nat}
      (waiting : t.phase = some phase) (later : t.clock ≤ time)
      (reply : Except StorageError (t.contender.call phase).Reply) :
      Step t (t.hear phase time reply)

inductive Reachable (lease : String) (config : LeaseConfig) : Tenure → Prop
  | start : Reachable lease config (.start lease config)
  | step {t u : Tenure} : Reachable lease config t → Step t u → Reachable lease config u

def IsFresh (t : Tenure) : Prop :=
  ∃ granted, lastGrant t.calls = some granted ∧
    t.clock < granted + t.contender.leaseDuration.nanos

/-- The latest answer refuses a renewal for good, and comes when the lease is
as old as it may get. -/
def RefusedTooLate (t : Tenure) : Prop :=
  ∃ refusal older granted, t.calls = refusal :: older ∧
    refusal.call = .renew ∧ refusal.failure = some .fatal ∧
    lastGrant older = some granted ∧
    granted + t.contender.leaseDuration.nanos ≤ refusal.time

/-- What links a contender to its history. -/
structure Invariant (config : LeaseConfig) (t : Tenure) : Prop where
  duration : t.contender.leaseDuration = config.leaseDuration
  fits : ∀ phase, t.phase = some phase → phase.lease? = t.status.held
  remembered : t.status.isHeld → ∃ granted,
    t.contender.lastRenewal = some granted ∧ lastGrant t.calls = some granted
  refusal : ∀ refusal older, t.calls = refusal :: older →
    refusal.call = .renew → refusal.failure = some .fatal →
      t.status.isHeld = true
  fresh : t.phase = none → t.status.isHeld → t.IsFresh ∨ t.RefusedTooLate

theorem start_invariant (lease : String) (config : LeaseConfig) :
    (start lease config).Invariant config where
  duration := rfl
  fits := by simp [start]
  remembered := by simp [start, Status.isHeld]
  refusal := by simp [start]
  fresh := by simp [start, Status.isHeld]

theorem Invariant.enter {config : LeaseConfig} {t : Tenure} (hinv : t.Invariant config) :
    t.enter.Invariant config where
  duration := hinv.duration
  fits := by
    intro phase hphase
    simp only [Tenure.enter, Option.some.injEq] at hphase
    subst phase
    exact Contender.lease?_firstPhase t.status
  remembered := hinv.remembered
  refusal := hinv.refusal
  fresh := by simp [Tenure.enter]

variable {config : LeaseConfig} {t : Tenure} {phase : ContenderPhase} {time : Nat}

@[simp] theorem clock_hear (t : Tenure) (phase : ContenderPhase) (time : Nat)
    (reply : Except StorageError (t.contender.call phase).Reply) :
    (t.hear phase time reply).clock = time := rfl

theorem leaseDuration_hear (t : Tenure) (phase : ContenderPhase) (time : Nat)
    (reply : Except StorageError (t.contender.call phase).Reply) :
    (t.hear phase time reply).contender.leaseDuration = t.contender.leaseDuration :=
  (Contender.answer_sameTerms t.contender t.status time phase reply).2.2

theorem lastGrant_hear_of_not_grants
    {reply : Except StorageError (t.contender.call phase).Reply}
    (h : (t.contender.recordOf time phase reply).grants = false) :
    lastGrant (t.hear phase time reply).calls = lastGrant t.calls :=
  lastGrant_cons_of_not_grants h t.calls

theorem lastGrant_hear_of_granted {answer : (t.contender.call phase).Reply}
    {lease : Identifier} (h : t.contender.granted? phase answer = some lease) :
    lastGrant (t.hear phase time (.ok answer)).calls = some time :=
  lastGrant_cons_of_grants (Contender.recordOf_grants_of_granted h) t.calls

/-- A refusal of a renewal for good is heard only by a holder, who stays one. -/
theorem Invariant.isHeld_of_refusal (hinv : t.Invariant config)
    (hwaiting : t.phase = some phase)
    {reply : Except StorageError (t.contender.call phase).Reply}
    (hrenew : (t.contender.recordOf time phase reply).call = .renew)
    (hfatal : (t.contender.recordOf time phase reply).failure = some .fatal) :
    (t.hear phase time reply).status.isHeld = true := by
  have hfits := hinv.fits phase hwaiting
  cases phase with
  | acquiring | creating | recreating | reclaiming =>
      simp [Contender.recordOf, Contender.call, LeaseCall.kind] at hrenew
  | renewing lease =>
      cases reply with
      | ok answer => simp [Contender.recordOf, failureOf] at hfatal
      | error error =>
          have hclass : error.errorClass = .fatal := by
            simpa [Contender.recordOf, failureOf] using hfatal
          have hstatus : (t.hear (.renewing lease) time (.error error)).status = t.status := by
            simp only [hear]
            rw [Contender.answer_of_fatal_renewal hclass]
            rfl
          rw [hstatus, Status.isHeld, ← hfits]
          rfl

theorem Invariant.remembered_hear (hinv : t.Invariant config)
    (hwaiting : t.phase = some phase)
    (reply : Except StorageError (t.contender.call phase).Reply)
    (hheld : (t.hear phase time reply).status.isHeld) :
    ∃ granted, (t.hear phase time reply).contender.lastRenewal = some granted ∧
      lastGrant (t.hear phase time reply).calls = some granted := by
  have houtcome :
      Contender.Outcome t.contender t.status time phase reply
        (t.contender.answer t.status time phase reply) :=
    Contender.answer_outcome (hinv.fits phase hwaiting) reply
  rcases houtcome.granted_or_unheld_or_kept with
    ⟨answer, lease, hreply, hlease, _, hlast⟩ | hnone | ⟨hstatus, hlast, hfailed⟩
  · subst hreply
    exact ⟨time, hlast, lastGrant_hear_of_granted hlease⟩
  · have hnone : (t.hear phase time reply).status.held = none := hnone
    simp [Status.isHeld, hnone] at hheld
  · have hbefore : t.status.isHeld = true := by
      rw [← hstatus]
      exact hheld
    obtain ⟨granted, hremembered, hgrant⟩ := hinv.remembered hbefore
    refine ⟨granted, ?_, ?_⟩
    · exact hlast.trans hremembered
    · rw [lastGrant_hear_of_not_grants hfailed]
      exact hgrant

theorem Invariant.fresh_hear (hinv : t.Invariant config)
    (hpositive : 0 < config.leaseDuration.nanos)
    (hwaiting : t.phase = some phase)
    (reply : Except StorageError (t.contender.call phase).Reply)
    (hended : (t.hear phase time reply).phase = none)
    (hheld : (t.hear phase time reply).status.isHeld) :
    (t.hear phase time reply).IsFresh ∨ (t.hear phase time reply).RefusedTooLate := by
  have hduration : (t.hear phase time reply).contender.leaseDuration =
      t.contender.leaseDuration := leaseDuration_hear t phase time reply
  obtain ⟨granted, hremembered, hgrant⟩ := hinv.remembered_hear hwaiting reply hheld
  have houtcome :
      Contender.Outcome t.contender t.status time phase reply
        (t.contender.answer t.status time phase reply) :=
    Contender.answer_outcome (hinv.fits phase hwaiting) reply
  cases houtcome with
  | granted answer lease hreply hlease _ _ _ =>
      left
      subst hreply
      refine ⟨time, lastGrant_hear_of_granted hlease, ?_⟩
      rw [clock_hear, hduration, hinv.duration]
      omega
  | unheld _ hnone _ =>
      have hnone : (t.hear phase time reply).status.held = none := hnone
      simp [Status.isHeld, hnone] at hheld
  | asked next _ _ _ hmove _ =>
      have hmove : (t.hear phase time reply).phase = some next := hmove
      rw [hmove] at hended
      simp at hended
  | retained lease error _ _ halive hlast _ _ =>
      left
      have hlast : t.contender.lastRenewal = some granted := hlast.symm.trans hremembered
      refine ⟨granted, hgrant, ?_⟩
      rw [clock_hear, hduration]
      simp only [Contender.expired, hlast, decide_eq_false_iff_not] at halive
      omega
  | overruled lease hphase hreply _ hstatus _ =>
      have hfailed : (t.contender.recordOf time phase reply).grants = false := by
        simp [Contender.recordOf, CallRecord.grants, hreply]
      rw [lastGrant_hear_of_not_grants hfailed] at hgrant
      by_cases hlate : granted + t.contender.leaseDuration.nanos ≤ time
      · right
        subst hphase
        exact ⟨_, t.calls, granted, rfl, rfl, hreply, hgrant, by rw [hduration]; exact hlate⟩
      · left
        refine ⟨granted, (lastGrant_hear_of_not_grants hfailed).trans hgrant, ?_⟩
        rw [clock_hear, hduration]
        omega

theorem Invariant.hear (hinv : t.Invariant config)
    (hpositive : 0 < config.leaseDuration.nanos)
    (hwaiting : t.phase = some phase)
    (reply : Except StorageError (t.contender.call phase).Reply) :
    (t.hear phase time reply).Invariant config where
  duration := (leaseDuration_hear t phase time reply).trans hinv.duration
  fits := by
    intro next hnext
    have hfits := hinv.fits phase hwaiting
    exact (Contender.answer_outcome hfits reply).lease?_next hfits hnext
  remembered := hinv.remembered_hear hwaiting reply
  refusal := by
    intro refusal older hcalls hrenew hfatal
    have hhead : t.contender.recordOf time phase reply = refusal :=
      (List.cons.inj hcalls).1
    subst refusal
    exact hinv.isHeld_of_refusal hwaiting hrenew hfatal
  fresh := hinv.fresh_hear hpositive hwaiting reply

theorem Reachable.invariant {lease : String} (hpositive : 0 < config.leaseDuration.nanos)
    (h : Reachable lease config t) : t.Invariant config := by
  induction h with
  | start => exact start_invariant lease config
  | step _ hstep ih =>
      cases hstep with
      | enter _ => exact ih.enter
      | hear hwaiting _ reply => exact ih.hear hpositive hwaiting reply

/-- At the end of a step, a lease is held beyond its length since the last
grant exactly if that step was a renewal refused for good. -/
theorem held_beyond_length_iff {lease : String} (hvalid : config.validate = .ok ())
    (h : Reachable lease config t) (hended : t.phase = none) :
    (t.status.isHeld = true ∧ ¬ t.IsFresh) ↔ t.RefusedTooLate := by
  have hinv : t.Invariant config := h.invariant (LeaseConfig.leaseDuration_pos hvalid)
  constructor
  · rintro ⟨hheld, hstale⟩
    exact (hinv.fresh hended hheld).resolve_left hstale
  · rintro ⟨refusal, older, granted, hcalls, hrenew, hfatal, hgrant, hlate⟩
    refine ⟨hinv.refusal refusal older hcalls hrenew hfatal, ?_⟩
    rintro ⟨latest, hlatest, hyoung⟩
    have hfailed : refusal.grants = false := by
      simp [CallRecord.grants, hfatal]
    have hsame : latest = granted := by
      rw [hcalls, lastGrant_cons_of_not_grants hfailed, hgrant] at hlatest
      exact (Option.some.inj hlatest).symm
    have hclock : t.clock = refusal.time := by
      simp [clock, hcalls]
    subst latest
    omega

def acquired (holder : Identifier) : Tenure :=
  (start "lock" (.standard holder)).enter.hear .acquiring 0 (.ok holder)

def denied (holder : Identifier) : Tenure :=
  (acquired holder).enter.hear (.renewing holder) 15000000000
    (.error (.status 403 "AuthorizationFailure" "denied"))

theorem reachable_denied (holder : Identifier) :
    Reachable "lock" (.standard holder) (denied holder) := by
  have hacquiring : Reachable "lock" (.standard holder) (start "lock" (.standard holder)).enter :=
    .step .start (.enter rfl)
  have hacquired : Reachable "lock" (.standard holder) (acquired holder) :=
    hacquiring.step (.hear rfl (Nat.le_refl 0) _)
  have hrenewing : Reachable "lock" (.standard holder) (acquired holder).enter :=
    hacquired.step (.enter rfl)
  exact hrenewing.step (.hear rfl (Nat.zero_le _) _)

theorem held_beyond_length_denied :
    (LeaseConfig.standard (.timeOrdered 0)).validate = .ok () ∧
      Reachable "lock" (.standard (.timeOrdered 0)) (denied (.timeOrdered 0)) ∧
      (denied (.timeOrdered 0)).phase = none ∧
      (((denied (.timeOrdered 0)).status.isHeld = true ∧ ¬ (denied (.timeOrdered 0)).IsFresh) ↔
        (denied (.timeOrdered 0)).RefusedTooLate) :=
  ⟨LeaseConfig.validate_standard _, reachable_denied _, rfl,
    held_beyond_length_iff (LeaseConfig.validate_standard _) (reachable_denied _) rfl⟩

theorem not_always_fresh_while_held :
    ¬ ∀ (lease : String) (config : LeaseConfig), config.validate = .ok () →
      ∀ t, Reachable lease config t → t.phase = none → t.status.isHeld = true →
        t.IsFresh := by
  intro hclaim
  obtain ⟨granted, hgrant, hyoung⟩ :=
    hclaim "lock" _ (LeaseConfig.validate_standard (.timeOrdered 0)) _ (reachable_denied _) rfl rfl
  have hgranted : granted = 0 := (Option.some.inj hgrant).symm
  subst granted
  exact absurd hyoung (by decide)

end Tenure

end LeasedListener
