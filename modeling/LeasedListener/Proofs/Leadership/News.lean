import LeasedListener.Proofs.Leadership.Outcome

/-!
# What an answer is worth

A step is worth what its answers are: it wins the lease, keeps it, or leaves
the contender without it.  Observers hear of a lease that is won or lost, once
each, and of nothing else.
-/

namespace LeasedListener

/-- Whether a report says that the lease was won, or that it was lost. -/
def Event.tidings? : Event → Option Bool
  | .leaseAcquired .. => some true
  | .leaseLost .. => some false
  | _ => none

def tidings (events : List Event) : List Bool := events.filterMap Event.tidings?

theorem tidings_append (events others : List Event) :
    tidings (events ++ others) = tidings events ++ tidings others :=
  List.filterMap_append

/-- A new version of the status and a report of it come with a lease that is
won or lost, and with nothing else. -/
structure Announces (before after : Status) (news : List Bool) : Prop where
  version : after.version = before.version + if after.isHeld = before.isHeld then 0 else 1
  tidings : news = if after.isHeld = before.isHeld then [] else [after.isHeld]

theorem Announces.refl (status : Status) : Announces status status [] := by
  constructor <;> simp

theorem announces_publish (status : Status) (held : Option Identifier) :
    Announces status (status.publish held).1
      (if (status.publish held).2 then [held.isSome] else []) := by
  have hheld : (status.publish held).1.isHeld = held.isSome := by
    rw [Status.isHeld, Status.held_publish]
  by_cases hsame : held.isSome = status.isHeld
  · have hquiet : ¬ (status.publish held).2 = true := by
      rw [Status.publish_snd_iff]
      simpa [Status.isHeld] using hsame.symm
    constructor
    · rw [Status.version_publish, hheld, if_neg hquiet, if_pos hsame]
    · rw [hheld, if_neg hquiet, if_pos hsame]
  · have hnews : (status.publish held).2 = true := by
      rw [Status.publish_snd_iff]
      exact fun hequal => hsame hequal.symm
    constructor
    · rw [Status.version_publish, hheld, if_pos hnews, if_neg hsame]
    · rw [hheld, if_pos hnews, if_neg hsame]

/-- An acquisition of the step has succeeded. -/
def Wins (calls : List CallRecord) : Prop :=
  ∃ call ∈ calls, call.call = .acquire ∧ call.failure = none

/-- The calls of a step, the latest first, that keep a lease: a renewal that
succeeds, one that is refused for good, one that fails transiently while the
last grant is younger than the lease, and one that finds the object deleted,
which is then created and acquired again. -/
def Keeps (length : Duration) (earlier : List CallRecord) : List CallRecord → Prop
  | [renewal] =>
      renewal.call = .renew ∧
        (renewal.failure = none ∨ renewal.failure = some .fatal ∨
          (renewal.failure = some .transient ∧
            ∃ granted, lastGrant earlier = some granted ∧
              renewal.time < granted + length.nanos))
  | [claim, creation, renewal] =>
      renewal.call = .renew ∧ renewal.failure = some .notFound ∧
        creation.call = .ensure ∧ creation.failure = none ∧
        claim.call = .acquire ∧ claim.failure = none
  | _ => False

/-- How the answers of a step have led to the call that it waits for. -/
def ContenderPhase.Follows : ContenderPhase → List CallRecord → Prop
  | .acquiring, calls | .renewing _, calls => calls = []
  | .creating, calls =>
      ∃ acquisition, calls = [acquisition] ∧
        acquisition.call = .acquire ∧ acquisition.failure = some .notFound
  | .recreating _, calls =>
      ∃ renewal, calls = [renewal] ∧
        renewal.call = .renew ∧ renewal.failure = some .notFound
  | .reclaiming _, calls =>
      ∃ creation renewal, calls = [creation, renewal] ∧
        creation.call = .ensure ∧ creation.failure = none ∧
        renewal.call = .renew ∧ renewal.failure = some .notFound

theorem follows_firstPhase (status : Status) : (Contender.firstPhase status).Follows [] := by
  unfold Contender.firstPhase
  cases status.held <;> rfl

namespace Contender

variable {c : Contender} {status : Status} {now : Nat} {phase : ContenderPhase}
  {calls earlier : List CallRecord}

theorem announces_carryOn {events : List Event} (move : ContenderMove)
    (hquiet : tidings events = []) :
    Announces status (c.carryOn status events move).status
      (tidings (c.carryOn status events move).events) := by
  have hevents : tidings (c.carryOn status events move).events = [] := hquiet
  rw [hevents]
  exact .refl status

theorem announces_win (lease : Identifier) {events : List Event} (hquiet : tidings events = []) :
    Announces status (c.win status now lease events).status
      (tidings (c.win status now lease events).events) := by
  have hevents : tidings (c.win status now lease events).events =
      if (status.publish (some lease)).2 then [true] else [] := by
    simp only [win, tidings_append, hquiet, List.append_nil]
    split <;> rfl
  rw [hevents]
  exact announces_publish status (some lease)

theorem announces_lose (reason : LossReason) (result : Except StorageError Unit) :
    Announces status (c.lose status reason result).status
      (tidings (c.lose status reason result).events) := by
  have hevents : tidings (c.lose status reason result).events =
      if (status.publish none).2 then [false] else [] := by
    simp only [lose]
    split <;> rfl
  rw [hevents]
  exact announces_publish status none

theorem answer_announces (c : Contender) (status : Status) (now : Nat) (phase : ContenderPhase)
    (reply : Except StorageError (c.call phase).Reply) :
    Announces status (c.answer status now phase reply).status
      (tidings (c.answer status now phase reply).events) := by
  cases phase with
  | acquiring =>
      cases reply with
      | ok lease => exact announces_win lease rfl
      | error error =>
          simp only [answer, acquireFailed]
          cases error.errorClass <;> exact announces_carryOn _ rfl
  | creating =>
      cases reply with
      | ok answered => exact announces_carryOn _ rfl
      | error error =>
          simp only [answer, createFailed]
          split <;> exact announces_carryOn _ rfl
  | renewing lease =>
      cases reply with
      | ok answered => exact announces_carryOn _ rfl
      | error error =>
          simp only [answer, renewFailed]
          cases error.errorClass with
          | conflict => exact announces_lose _ _
          | notFound | fatal => exact announces_carryOn _ rfl
          | transient =>
              simp only
              split
              · exact announces_lose _ _
              · exact announces_carryOn _ rfl
  | recreating lease =>
      cases reply with
      | ok answered => exact announces_carryOn _ rfl
      | error error => exact announces_lose _ _
  | reclaiming lease =>
      cases reply with
      | ok lease => exact announces_win lease rfl
      | error error => exact announces_lose _ _

/-- The result of a step whose last answer this is: only a refusal for good is
an error. -/
def verdict {α : Type} : Except StorageError α → Except StorageError Unit
  | .ok _ => .ok ()
  | .error error => if error.isFatal then .error error else .ok ()

theorem verdict_eq_error_iff {α : Type} (reply : Except StorageError α) :
    (∃ error, verdict reply = .error error) ↔ failureOf reply = some .fatal := by
  cases reply with
  | ok answered => simp [verdict, failureOf]
  | error error =>
      have hfatal : error.isFatal = true ↔ error.errorClass = .fatal := by
        simp [StorageError.isFatal]
      by_cases hclass : error.errorClass = .fatal
      · simp [verdict, failureOf, hclass, hfatal.mpr hclass]
      · have hmild : ¬ error.isFatal = true := fun hyes => hclass (hfatal.mp hyes)
        simp [verdict, failureOf, hclass, hmild]

theorem move_answer {reply : Except StorageError (c.call phase).Reply}
    (h : (c.answer status now phase reply).move.phase? = none) :
    (c.answer status now phase reply).move = .finish (verdict reply) := by
  cases phase with
  | acquiring =>
      cases reply with
      | ok lease => rfl
      | error error =>
          simp only [answer, acquireFailed] at h ⊢
          cases hclass : error.errorClass with
          | conflict | transient | fatal => simp [carryOn, verdict, StorageError.isFatal, hclass]
          | notFound => simp [hclass, carryOn, ContenderMove.phase?] at h
  | creating =>
      cases reply with
      | ok answered => rfl
      | error error =>
          simp only [answer, createFailed, verdict]
          split <;> rfl
  | renewing lease =>
      cases reply with
      | ok answered => rfl
      | error error =>
          simp only [answer, renewFailed] at h ⊢
          cases hclass : error.errorClass with
          | conflict => simp [lose, verdict, StorageError.isFatal, hclass]
          | notFound => simp [hclass, carryOn, ContenderMove.phase?] at h
          | fatal => simp [carryOn, verdict, StorageError.isFatal, hclass]
          | transient =>
              have hmild : verdict (.error error : Except StorageError Unit) = .ok () := by
                simp [verdict, StorageError.isFatal, hclass]
              simp only
              split
              · exact congrArg ContenderMove.finish hmild.symm
              · exact congrArg ContenderMove.finish hmild.symm
  | recreating lease =>
      cases reply with
      | ok answered => simp [answer, carryOn, ContenderMove.phase?] at h
      | error error => rfl
  | reclaiming lease => cases reply <;> rfl

/-- The answers after which a step needs another call. -/
inductive Leads : ContenderPhase → Option ErrorClass → ContenderPhase → Prop
  | creates : Leads .acquiring (some .notFound) .creating
  | recreates {lease : Identifier} :
      Leads (.renewing lease) (some .notFound) (.recreating lease)
  | reclaims {lease : Identifier} : Leads (.recreating lease) none (.reclaiming lease)

/-- Only the last answer of a step changes anything. -/
theorem answer_of_next {reply : Except StorageError (c.call phase).Reply} {next : ContenderPhase}
    (hnext : (c.answer status now phase reply).move.phase? = some next) :
    (c.answer status now phase reply).contender = c ∧
      (c.answer status now phase reply).status = status ∧ Leads phase (failureOf reply) next := by
  cases phase with
  | acquiring =>
      cases reply with
      | ok lease => simp [answer, win, ContenderMove.phase?] at hnext
      | error error =>
          simp only [answer, acquireFailed, failureOf] at hnext ⊢
          cases hclass : error.errorClass with
          | conflict | transient | fatal => simp [hclass, carryOn, ContenderMove.phase?] at hnext
          | notFound =>
              simp only [hclass, carryOn, ContenderMove.phase?, Option.some.injEq] at hnext
              exact ⟨rfl, rfl, hnext ▸ .creates⟩
  | creating =>
      cases reply with
      | ok answered => simp [answer, carryOn, ContenderMove.phase?] at hnext
      | error error =>
          simp only [answer, createFailed] at hnext
          split at hnext <;> simp [carryOn, ContenderMove.phase?] at hnext
  | renewing lease =>
      cases reply with
      | ok answered => simp [answer, carryOn, ContenderMove.phase?] at hnext
      | error error =>
          simp only [answer, renewFailed, failureOf] at hnext ⊢
          cases hclass : error.errorClass with
          | conflict | fatal => simp [hclass, lose, carryOn, ContenderMove.phase?] at hnext
          | notFound =>
              simp only [hclass, carryOn, ContenderMove.phase?, Option.some.injEq] at hnext
              exact ⟨rfl, rfl, hnext ▸ .recreates⟩
          | transient =>
              simp only [hclass] at hnext
              split at hnext <;> simp [lose, carryOn, ContenderMove.phase?] at hnext
  | recreating lease =>
      cases reply with
      | ok answered =>
          simp only [answer, carryOn, ContenderMove.phase?, Option.some.injEq] at hnext
          exact ⟨rfl, rfl, hnext ▸ .reclaims⟩
      | error error => simp [answer, recreateFailed, lose, ContenderMove.phase?] at hnext
  | reclaiming lease =>
      cases reply with
      | ok lease => simp [answer, win, ContenderMove.phase?] at hnext
      | error error => simp [answer, recreateFailed, lose, ContenderMove.phase?] at hnext

theorem follows_next {reply : Except StorageError (c.call phase).Reply}
    (hfollows : phase.Follows calls) {next : ContenderPhase}
    (hleads : Leads phase (failureOf reply) next) :
    next.Follows (c.recordOf now phase reply :: calls) := by
  generalize hfailure : failureOf reply = failure at hleads
  cases hleads with
  | creates | recreates =>
      obtain rfl : calls = [] := hfollows
      exact ⟨_, rfl, rfl, hfailure⟩
  | reclaims =>
      obtain ⟨renewal, rfl, hrenewal, hmissing⟩ := hfollows
      exact ⟨_, renewal, rfl, rfl, hfailure, hrenewal, hmissing⟩

theorem isHeld_win (lease : Identifier) (events : List Event) :
    (c.win status now lease events).status.isHeld = true := by
  simp [win, Status.isHeld]

/-- What a contender remembers of a lease that it holds is its last grant. -/
def Remembers (c : Contender) (now : Nat) (earlier : List CallRecord) : Prop :=
  ∃ granted, c.lastRenewal = some granted ∧ lastGrant earlier = some granted ∧ granted ≤ now

theorem Remembers.expired_iff (h : c.Remembers now earlier) :
    c.expired now = false ↔
      ∃ granted, lastGrant earlier = some granted ∧ now < granted + c.leaseDuration.nanos := by
  obtain ⟨granted, hlast, hgrant, hpast⟩ := h
  simp only [expired, hlast, hgrant, decide_eq_false_iff_not, Option.some.injEq]
  constructor
  · intro hyoung
    exact ⟨granted, rfl, by omega⟩
  · rintro ⟨_, rfl, hyoung⟩
    omega

theorem isHeld_renewing_iff {lease : Identifier} (hheld : status.held = some lease)
    (hremembers : c.Remembers now earlier)
    (reply : Except StorageError (c.call (.renewing lease)).Reply)
    (hended : (c.answer status now (.renewing lease) reply).move.phase? = none) :
    (c.answer status now (.renewing lease) reply).status.isHeld = true ↔
      Keeps c.leaseDuration earlier [c.recordOf now (.renewing lease) reply] := by
  have hstill : status.isHeld = true := by simp [Status.isHeld, hheld]
  cases reply with
  | ok answered => simp [answer, carryOn, hstill, Keeps, recordOf, call, LeaseCall.kind, failureOf]
  | error error =>
      simp only [answer, renewFailed] at hended ⊢
      cases hclass : error.errorClass with
      | conflict =>
          simp [lose, Status.isHeld, Keeps, recordOf, failureOf, hclass]
      | notFound => simp [hclass, carryOn, ContenderMove.phase?] at hended
      | fatal =>
          simp [carryOn, hstill, Keeps, recordOf, call, LeaseCall.kind, failureOf, hclass]
      | transient =>
          have hsame : ({ c with renewal := c.renewal.after false } : Contender).expired now =
              c.expired now := rfl
          have hkeeps : Keeps c.leaseDuration earlier
              [c.recordOf now (.renewing lease) (.error error)] ↔ c.expired now = false := by
            rw [hremembers.expired_iff]
            simp [Keeps, recordOf, call, LeaseCall.kind, failureOf, hclass]
          rw [hkeeps]
          simp only [hsame]
          cases c.expired now with
          | true => simp [lose, Status.isHeld]
          | false => simp [carryOn, hstill]

/-- After a step the lease is held if the step has won it, or kept what was
held before. -/
theorem isHeld_answer_iff (hfits : phase.lease? = status.held) (hfollows : phase.Follows calls)
    (hremembers : status.isHeld = true → c.Remembers now earlier)
    (reply : Except StorageError (c.call phase).Reply)
    (hended : (c.answer status now phase reply).move.phase? = none) :
    (c.answer status now phase reply).status.isHeld = true ↔
      Wins (c.recordOf now phase reply :: calls) ∨
        (status.isHeld = true ∧
          Keeps c.leaseDuration earlier (c.recordOf now phase reply :: calls)) := by
  have hheld : status.isHeld = phase.lease?.isSome := by rw [hfits, Status.isHeld]
  cases phase with
  | acquiring =>
      obtain rfl : calls = [] := hfollows
      have hunheld : status.isHeld = false := hheld
      cases reply with
      | ok lease =>
          exact iff_of_true (isHeld_win lease _) (.inl ⟨_, List.mem_cons_self .., rfl, rfl⟩)
      | error error =>
          have hnone : (c.acquireFailed status error).status.isHeld = false := by
            unfold acquireFailed
            cases error.errorClass <;> exact hunheld
          simp [answer, hnone, hunheld, Wins, recordOf, failureOf]
  | creating =>
      obtain ⟨acquisition, rfl, -, hmissing⟩ := hfollows
      have hunheld : status.isHeld = false := hheld
      have hnone : (c.answer status now .creating reply).status.isHeld = false := by
        cases reply with
        | ok answered => exact hunheld
        | error error =>
            simp only [answer, createFailed]
            split <;> exact hunheld
      simp [hnone, hunheld, Wins, recordOf, call, LeaseCall.kind, hmissing]
  | renewing lease =>
      obtain rfl : calls = [] := hfollows
      have hstill : status.isHeld = true := hheld
      have hnever : ¬ Wins [c.recordOf now (.renewing lease) reply] := by
        simp [Wins, recordOf, call, LeaseCall.kind]
      rw [isHeld_renewing_iff hfits.symm (hremembers hstill) reply hended]
      simp [hnever, hstill]
  | recreating lease =>
      obtain ⟨renewal, rfl, hrenewal, -⟩ := hfollows
      cases reply with
      | ok answered => simp [answer, carryOn, ContenderMove.phase?] at hended
      | error error =>
          simp [answer, recreateFailed, lose, Status.isHeld, Wins, Keeps, recordOf, call,
            LeaseCall.kind, hrenewal]
  | reclaiming lease =>
      obtain ⟨creation, renewal, rfl, hcreation, -, hrenewal, -⟩ := hfollows
      cases reply with
      | ok lease =>
          exact iff_of_true (isHeld_win lease _) (.inl ⟨_, List.mem_cons_self .., rfl, rfl⟩)
      | error error =>
          simp [answer, recreateFailed, lose, Status.isHeld, Wins, Keeps, recordOf, call,
            LeaseCall.kind, failureOf, hcreation, hrenewal]

end Contender

end LeasedListener
