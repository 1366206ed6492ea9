import LeasedListener.Leadership.Contender
import LeasedListener.Proofs.Lease.Calls

/-!
# Outcomes of answers to a contender

Every answer has one of five outcomes for a contender: the lease is granted,
the contender ends up without it, another call follows, a renewal is worth a
retry, or a renewal is refused for good.  Only the first sets the time of the
last success, and only the last two keep a lease without one.
-/

namespace LeasedListener

/-- The lease on which a phase works, if it is held. -/
def ContenderPhase.lease? : ContenderPhase → Option Identifier
  | .acquiring | .creating => none
  | .renewing lease | .recreating lease | .reclaiming lease => some lease

/-- Whether a phase repairs an object that was deleted under a holder. -/
def ContenderPhase.isRepair : ContenderPhase → Bool
  | .recreating _ | .reclaiming _ => true
  | .acquiring | .creating | .renewing _ => false

/-- The next call of the step, if it is not over. -/
def ContenderMove.phase? : ContenderMove → Option ContenderPhase
  | .call phase => some phase
  | .finish _ => none

namespace Contender

variable {c : Contender} {status : Status} {now : Nat}

@[simp] theorem lease?_firstPhase (status : Status) :
    (firstPhase status).lease? = status.held := by
  unfold firstPhase
  cases hheld : status.held <;> rfl

def granted? (c : Contender) :
    (phase : ContenderPhase) → (c.call phase).Reply → Option Identifier
  | .acquiring, lease | .reclaiming _, lease => some lease
  | .renewing lease, _ => some lease
  | .creating, _ | .recreating _, _ => none

def recordOf (c : Contender) (now : Nat) (phase : ContenderPhase)
    (reply : Except StorageError (c.call phase).Reply) : CallRecord :=
  ⟨now, (c.call phase).kind, (c.call phase).arguments, failureOf reply⟩

theorem recordOf_grants_of_granted {phase : ContenderPhase}
    {answer : (c.call phase).Reply} {lease : Identifier}
    (h : c.granted? phase answer = some lease) :
    (c.recordOf now phase (.ok answer)).grants = true := by
  cases phase with
  | acquiring | renewing | reclaiming => rfl
  | creating | recreating => simp [granted?] at h

theorem recordOf_grants_of_none {phase : ContenderPhase}
    {answer : (c.call phase).Reply} (h : c.granted? phase answer = none) :
    (c.recordOf now phase (.ok answer)).grants = false := by
  cases phase with
  | acquiring | renewing | reclaiming => simp [granted?] at h
  | creating | recreating => rfl

@[simp] theorem recordOf_grants_error (phase : ContenderPhase) (error : StorageError) :
    (c.recordOf now phase (.error error)).grants = false := by
  simp [recordOf, CallRecord.grants, failureOf]

theorem granted_of_recordOf_grants {phase : ContenderPhase}
    {reply : Except StorageError (c.call phase).Reply}
    (h : (c.recordOf now phase reply).grants = true) :
    ∃ answer granted, reply = .ok answer ∧ c.granted? phase answer = some granted := by
  cases reply with
  | error error => simp at h
  | ok answer =>
      cases hgranted : c.granted? phase answer with
      | some granted => exact ⟨answer, granted, rfl, hgranted⟩
      | none =>
          rw [recordOf_grants_of_none hgranted] at h
          simp at h

/-- What becomes of the leadership of a contender by an answer. -/
inductive Outcome (c : Contender) (status : Status) (now : Nat) (phase : ContenderPhase)
    (reply : Except StorageError (c.call phase).Reply) (turn : ContenderTurn) : Prop
  /-- Won, renewed or claimed again. -/
  | granted (answer : (c.call phase).Reply) (lease : Identifier)
      (hreply : reply = .ok answer) (hlease : c.granted? phase answer = some lease)
      (hheld : turn.status.held = some lease)
      (hlast : turn.contender.lastRenewal = some now)
      (hmove : turn.move.phase? = none)
  /-- Not held, from now on or still. -/
  | unheld (hfailed : (c.recordOf now phase reply).grants = false)
      (hheld : turn.status.held = none)
      (hmove : turn.move.phase? = none ∨ turn.move.phase? = some .creating)
  /-- Another call is needed to repair what is held. -/
  | asked (next : ContenderPhase)
      (hfailed : (c.recordOf now phase reply).grants = false)
      (hcontender : turn.contender = c) (hstatus : turn.status = status)
      (hmove : turn.move.phase? = some next) (hnext : next.lease? = phase.lease?)
  /-- A renewal is to be tried again, the lease being still alive. -/
  | retained (lease : Identifier) (error : StorageError)
      (hphase : phase = .renewing lease) (hreply : failureOf reply = some .transient)
      (halive : c.expired now = false)
      (hlast : turn.contender.lastRenewal = c.lastRenewal)
      (hstatus : turn.status = status) (hmove : turn.move.phase? = none)
  /-- A renewal is refused for good, which leaves the lease as it is. -/
  | overruled (lease : Identifier)
      (hphase : phase = .renewing lease) (hreply : failureOf reply = some .fatal)
      (hcontender : turn.contender = c) (hstatus : turn.status = status)
      (hmove : turn.move.phase? = none)

variable {phase : ContenderPhase}

theorem acquireFailed_outcome (hunheld : status.held = none) (error : StorageError) :
    Outcome c status now .acquiring (.error error) (c.acquireFailed status error) := by
  unfold acquireFailed
  refine .unheld (by simp) ?_ ?_
  · cases error.errorClass <;> exact hunheld
  · cases error.errorClass with
    | conflict | transient | fatal => exact .inl rfl
    | notFound => exact .inr rfl

theorem createFailed_outcome (hunheld : status.held = none) (error : StorageError) :
    Outcome c status now .creating (.error error) (c.createFailed status error) := by
  unfold createFailed
  refine .unheld (by simp) ?_ ?_
  · split <;> exact hunheld
  · split <;> exact .inl rfl

theorem renewFailed_outcome (lease : Identifier) (error : StorageError) :
    Outcome c status now (.renewing lease) (.error error)
      (c.renewFailed status now lease error) := by
  unfold renewFailed
  cases hclass : error.errorClass with
  | conflict => exact .unheld (by simp) (by simp [lose]) (.inl rfl)
  | notFound => exact .asked (.recreating lease) (by simp) rfl rfl rfl rfl
  | transient =>
      have hsame : ({ c with renewal := c.renewal.after false } : Contender).expired now =
          c.expired now := rfl
      simp only [hsame]
      cases halive : c.expired now with
      | true => exact .unheld (by simp) (by simp [lose]) (.inl rfl)
      | false =>
          exact .retained lease error rfl (by simp [failureOf, hclass]) halive rfl rfl rfl
  | fatal => exact .overruled lease rfl (by simp [failureOf, hclass]) rfl rfl rfl

theorem answer_outcome (hfits : phase.lease? = status.held)
    (reply : Except StorageError (c.call phase).Reply) :
    Outcome c status now phase reply (c.answer status now phase reply) := by
  cases phase with
  | acquiring =>
      cases reply with
      | ok lease => exact .granted lease lease rfl rfl (by simp [answer, win]) rfl rfl
      | error error => exact acquireFailed_outcome hfits.symm error
  | creating =>
      cases reply with
      | ok answer => exact .unheld rfl hfits.symm (.inl rfl)
      | error error => exact createFailed_outcome hfits.symm error
  | renewing lease =>
      cases reply with
      | ok answer => exact .granted answer lease rfl rfl hfits.symm rfl rfl
      | error error => exact renewFailed_outcome lease error
  | recreating lease =>
      cases reply with
      | ok answer => exact .asked (.reclaiming lease) rfl rfl rfl rfl rfl
      | error error => exact .unheld (by simp) (by simp [answer, recreateFailed, lose]) (.inl rfl)
  | reclaiming lease =>
      cases reply with
      | ok lease => exact .granted lease lease rfl rfl (by simp [answer, win]) rfl rfl
      | error error => exact .unheld (by simp) (by simp [answer, recreateFailed, lose]) (.inl rfl)

theorem Outcome.granted_or_unheld_or_kept
    {reply : Except StorageError (c.call phase).Reply} {turn : ContenderTurn}
    (h : Outcome c status now phase reply turn) :
    (∃ answer lease, reply = .ok answer ∧ c.granted? phase answer = some lease ∧
      turn.status.held = some lease ∧ turn.contender.lastRenewal = some now) ∨
    turn.status.held = none ∨
    (turn.status = status ∧ turn.contender.lastRenewal = c.lastRenewal ∧
      (c.recordOf now phase reply).grants = false) := by
  cases h with
  | granted answer lease hreply hlease hheld hlast _ =>
      exact .inl ⟨answer, lease, hreply, hlease, hheld, hlast⟩
  | unheld _ hheld _ => exact .inr (.inl hheld)
  | asked _ hfailed hcontender hstatus _ _ =>
      exact .inr (.inr ⟨hstatus, by rw [hcontender], hfailed⟩)
  | retained _ _ _ hreply _ hlast hstatus _ =>
      exact .inr (.inr ⟨hstatus, hlast, by simp [recordOf, CallRecord.grants, hreply]⟩)
  | overruled _ _ hreply hcontender hstatus _ =>
      exact .inr (.inr ⟨hstatus, by rw [hcontender],
        by simp [recordOf, CallRecord.grants, hreply]⟩)

theorem Outcome.lease?_next {reply : Except StorageError (c.call phase).Reply}
    {turn : ContenderTurn} (h : Outcome c status now phase reply turn)
    (hfits : phase.lease? = status.held) {next : ContenderPhase}
    (hnext : turn.move.phase? = some next) : next.lease? = turn.status.held := by
  cases h with
  | granted _ _ _ _ _ _ hmove | retained _ _ _ _ _ _ _ hmove | overruled _ _ _ _ _ hmove =>
      rw [hmove] at hnext
      simp at hnext
  | unheld _ hnone hmove =>
      rcases hmove with hmove | hmove
      · rw [hmove] at hnext
        simp at hnext
      · rw [hmove, Option.some.injEq] at hnext
        subst next
        exact hnone.symm
  | asked other _ _ hstatus hmove hlease =>
      rw [hmove, Option.some.injEq] at hnext
      subst next
      rw [hlease, hfits, hstatus]

/-- Where an object that is held never goes missing, every answer grants the
lease or leaves the contender without it, and no repair is needed. -/
theorem answer_of_conflicts (hfits : phase.lease? = status.held) (hplain : phase.isRepair = false)
    {reply : Except StorageError (c.call phase).Reply}
    (hreply : phase.lease?.isSome → ∀ error, reply = .error error →
      error.errorClass = .conflict) :
    ((c.answer status now phase reply).status.held = none ∨
      (c.recordOf now phase reply).grants = true) ∧
    ∀ next, (c.answer status now phase reply).move.phase? = some next →
      next.isRepair = false := by
  cases phase with
  | acquiring =>
      cases reply with
      | ok lease => exact ⟨.inr rfl, by simp [answer, win, ContenderMove.phase?]⟩
      | error error =>
          simp only [answer, acquireFailed]
          cases error.errorClass with
          | conflict | transient | fatal =>
              exact ⟨.inl hfits.symm, by simp [carryOn, ContenderMove.phase?]⟩
          | notFound =>
              exact ⟨.inl hfits.symm, by simp [carryOn, ContenderMove.phase?,
                ContenderPhase.isRepair]⟩
  | creating =>
      cases reply with
      | ok reply => exact ⟨.inl hfits.symm, by simp [answer, carryOn, ContenderMove.phase?]⟩
      | error error =>
          simp only [answer, createFailed]
          split <;> exact ⟨.inl hfits.symm, by simp [carryOn, ContenderMove.phase?]⟩
  | renewing lease =>
      cases reply with
      | ok reply => exact ⟨.inr rfl, by simp [answer, carryOn, ContenderMove.phase?]⟩
      | error error =>
          have hclass : error.errorClass = .conflict := hreply rfl error rfl
          simp only [answer, renewFailed, hclass]
          exact ⟨.inl (Status.held_publish _ _), by simp [lose, ContenderMove.phase?]⟩
  | recreating lease | reclaiming lease => simp [ContenderPhase.isRepair] at hplain

theorem answer_of_fatal_renewal {lease : Identifier} {error : StorageError}
    (hfatal : error.errorClass = .fatal) :
    c.answer status now (.renewing lease) (.error error) =
      c.carryOn status [] (.finish (.error error)) := by
  simp [answer, renewFailed, hfatal]

/-- What identifies a contender: nothing of it ever changes. -/
def SameTerms (c other : Contender) : Prop :=
  other.lease = c.lease ∧ other.holder = c.holder ∧ other.leaseDuration = c.leaseDuration

theorem SameTerms.refl (c : Contender) : c.SameTerms c := ⟨rfl, rfl, rfl⟩

theorem SameTerms.trans {a b c : Contender} (hab : a.SameTerms b) (hbc : b.SameTerms c) :
    a.SameTerms c :=
  ⟨hbc.1.trans hab.1, hbc.2.1.trans hab.2.1, hbc.2.2.trans hab.2.2⟩

theorem answer_sameTerms (c : Contender) (status : Status) (now : Nat)
    (phase : ContenderPhase) (reply : Except StorageError (c.call phase).Reply) :
    c.SameTerms (c.answer status now phase reply).contender := by
  cases phase with
  | acquiring =>
      cases reply with
      | ok lease => exact .refl c
      | error error =>
          simp only [answer, acquireFailed]
          cases error.errorClass <;> exact .refl c
  | creating =>
      cases reply with
      | ok answer => exact .refl c
      | error error =>
          simp only [answer, createFailed]
          split <;> exact .refl c
  | renewing lease =>
      cases reply with
      | ok answer => exact .refl c
      | error error =>
          simp only [answer, renewFailed]
          cases error.errorClass with
          | conflict | notFound | fatal => exact .refl c
          | transient =>
              simp only
              split <;> exact .refl c
  | recreating lease => cases reply <;> exact .refl c
  | reclaiming lease => cases reply <;> exact .refl c

end Contender

end LeasedListener
