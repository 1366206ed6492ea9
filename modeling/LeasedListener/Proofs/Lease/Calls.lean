import LeasedListener.Lease.Object

/-!
# Calls on a lease object

A history of calls says when the lease was granted last.  On the side of the
object, a lease that has not run out belongs to its holder alone: a call under
another identity is refused and changes nothing.
-/

namespace LeasedListener

def CallRecord.grants (r : CallRecord) : Bool :=
  (r.call == .acquire || r.call == .renew) && r.failure.isNone

/-- The instant of the last grant, in a history with the latest call first. -/
def lastGrant (calls : List CallRecord) : Option Nat :=
  (calls.find? (·.grants)).map (·.time)

@[simp] theorem lastGrant_nil : lastGrant [] = none := rfl

theorem lastGrant_cons_of_grants {r : CallRecord} (h : r.grants = true)
    (calls : List CallRecord) : lastGrant (r :: calls) = some r.time := by
  simp [lastGrant, h]

theorem lastGrant_cons_of_not_grants {r : CallRecord} (h : r.grants = false)
    (calls : List CallRecord) : lastGrant (r :: calls) = lastGrant calls := by
  simp [lastGrant, h]

theorem lastGrant_cons_le {r : CallRecord} {calls : List CallRecord} {now : Nat}
    (hrecord : r.time ≤ now) (hcalls : ∀ granted, lastGrant calls = some granted → granted ≤ now) :
    ∀ granted, lastGrant (r :: calls) = some granted → granted ≤ now := by
  intro granted hgranted
  cases hgrants : r.grants with
  | true =>
      rw [lastGrant_cons_of_grants hgrants, Option.some.injEq] at hgranted
      omega
  | false =>
      rw [lastGrant_cons_of_not_grants hgrants] at hgranted
      exact hcalls granted hgranted

namespace Transit

variable {σ α : Type} {t : Transit} {run : σ → σ × Except StorageError α} {state : σ}

theorem carry_of_faultless (h : t.fault = none) : t.carry run state = run state := by
  simp [carry, h]

theorem carry_of_refused {fault : Fault} (h : t.fault = some fault)
    (hafter : fault.after = false) : t.carry run state = (state, .error fault.error) := by
  simp [carry, h, hafter]

/-- A call whose answer may be lost has its effect all the same, and never
reports a success. -/
theorem carry_of_lost {fault : Fault} (h : t.fault = some fault)
    (hafter : fault.after = true) :
    ∃ error, t.carry run state = ((run state).1, .error error) := by
  cases hrun : run state with
  | mk after reply =>
      cases reply with
      | ok a => exact ⟨fault.error, by simp [carry, h, hafter, hrun]⟩
      | error error => exact ⟨error, by simp [carry, h, hafter, hrun]⟩

theorem carry_of_ok {a : α} (h : (t.carry run state).2 = .ok a) :
    t.carry run state = run state := by
  cases hfault : t.fault with
  | none => exact carry_of_faultless hfault
  | some fault =>
      exfalso
      cases hafter : fault.after with
      | false =>
          rw [carry_of_refused hfault hafter] at h
          simp at h
      | true =>
          obtain ⟨error, hcarry⟩ :
              ∃ error, t.carry run state = ((run state).1, .error error) :=
            carry_of_lost hfault hafter
          rw [hcarry] at h
          simp at h

/-- A call has its whole effect or none. -/
theorem carry_fst (t : Transit) (run : σ → σ × Except StorageError α) (state : σ) :
    (t.carry run state).1 = state ∨ (t.carry run state).1 = (run state).1 := by
  cases hfault : t.fault with
  | none => exact .inr (by rw [carry_of_faultless hfault])
  | some fault =>
      cases hafter : fault.after with
      | false => exact .inl (by rw [carry_of_refused hfault hafter])
      | true =>
          obtain ⟨error, hcarry⟩ :
              ∃ error, t.carry run state = ((run state).1, .error error) :=
            carry_of_lost hfault hafter
          exact .inr (by rw [hcarry])

end Transit

namespace LeaseObject

variable {name : String} {now : Nat} {duration : Duration} {holder : Identifier}
  {object : LeaseObject}

theorem acquire_of_ok {lease : Identifier}
    (h : (object.acquire name now duration holder).2 = .ok lease) :
    (object.acquire name now duration holder).1 = .leased (.grant now duration holder) ∧
      lease = holder := by
  cases object with
  | missing => simp [acquire] at h
  | free => simpa [acquire, eq_comm] using h
  | leased current =>
      simp only [acquire] at h ⊢
      split at h
      · simp at h
      · next hfree =>
          rw [if_neg hfree]
          simpa [eq_comm] using h

theorem renew_of_ok {answer : Unit} (h : (object.renew name now holder).2 = .ok answer) :
    ∃ lease, object = .leased lease ∧ lease.holder = holder ∧
      (object.renew name now holder).1 = .leased (.grant now lease.duration holder) := by
  cases object with
  | missing => simp [renew] at h
  | free => simp [renew] at h
  | leased lease =>
      simp only [renew] at h
      split at h
      · next hmine => exact ⟨lease, rfl, hmine, by simp [renew, hmine]⟩
      · simp at h

end LeaseObject

namespace LeaseCall

variable {name : String} {now : Nat} {call : LeaseCall} {lease : ActiveLease}

/-- Until it runs out, a lease stays with its holder, whoever calls, unless the
holder releases it. -/
theorem run_of_live (hkeep : ∀ holder, call = .release holder → lease.holder ≠ holder)
    (hlive : now < lease.expiresAt) :
    ∃ later, (call.run name now (.leased lease)).1 = .leased later ∧
      later.holder = lease.holder ∧
      (later = lease ∨ ∃ duration, later = .grant now duration lease.holder) := by
  have hexpired : lease.isExpired now = false := by
    simp [ActiveLease.isExpired, hlive]
  cases call with
  | acquire duration holder =>
      by_cases hmine : lease.holder = holder
      · exact ⟨.grant now duration holder, by simp [run, LeaseObject.acquire, hmine], hmine.symm,
          .inr ⟨duration, by rw [hmine]⟩⟩
      · exact ⟨lease, by simp [run, LeaseObject.acquire, hexpired, hmine], rfl, .inl rfl⟩
  | renew holder =>
      by_cases hmine : lease.holder = holder
      · exact ⟨.grant now lease.duration holder, by simp [run, LeaseObject.renew, hmine],
          hmine.symm, .inr ⟨lease.duration, by rw [hmine]⟩⟩
      · exact ⟨lease, by simp [run, LeaseObject.renew, hmine], rfl, .inl rfl⟩
  | release holder =>
      have hother : lease.holder ≠ holder := hkeep holder rfl
      exact ⟨lease, by simp [run, LeaseObject.release, hother], rfl, .inl rfl⟩
  | ensure => exact ⟨lease, rfl, rfl, .inl rfl⟩

/-- A call that fails changes nothing. -/
theorem run_of_error {object : LeaseObject} {error : StorageError}
    (h : (call.run name now object).2 = .error error) :
    (call.run name now object).1 = object := by
  cases call with
  | ensure => simp [run] at h
  | acquire duration holder =>
      cases object with
      | missing => rfl
      | free => simp [run, LeaseObject.acquire] at h
      | leased lease =>
          simp only [run, LeaseObject.acquire] at h ⊢
          split at h
          · next hheld => rw [if_pos hheld]
          · simp at h
  | renew holder =>
      cases object with
      | missing | free => rfl
      | leased lease =>
          simp only [run, LeaseObject.renew] at h ⊢
          split at h
          · simp at h
          · next hother => rw [if_neg hother]
  | release holder =>
      cases object with
      | missing | free => rfl
      | leased lease =>
          simp only [run, LeaseObject.release] at h ⊢
          split at h
          · simp at h
          · next hother => rw [if_neg hother]

theorem errorClass_of_run {object : LeaseObject} (h : object ≠ .missing) {error : StorageError}
    (herror : (call.run name now object).2 = .error error) : error.errorClass = .conflict := by
  cases object with
  | missing => exact absurd rfl h
  | free =>
      cases call with
      | acquire duration holder => simp [run, LeaseObject.acquire] at herror
      | renew holder | release holder =>
          have hnone : StorageError.leaseNotPresent name = error := Except.error.inj herror
          rw [← hnone]
          exact StorageError.errorClass_leaseNotPresent name
      | ensure => simp [run] at herror
  | leased lease =>
      cases call with
      | acquire duration holder =>
          simp only [run, LeaseObject.acquire] at herror
          split at herror
          · rw [← Except.error.inj herror]
            exact StorageError.errorClass_leaseAlreadyPresent name
          · simp at herror
      | renew holder =>
          simp only [run, LeaseObject.renew] at herror
          split at herror
          · simp at herror
          · rw [← Except.error.inj herror]
            exact StorageError.errorClass_leaseIdMismatch name
      | release holder =>
          simp only [run, LeaseObject.release] at herror
          split at herror
          · simp at herror
          · rw [← Except.error.inj herror]
            exact StorageError.errorClass_leaseIdMismatch name
      | ensure => simp [run] at herror

theorem run_ne_missing {object : LeaseObject} (h : object ≠ .missing) (call : LeaseCall) :
    (call.run name now object).1 ≠ .missing := by
  cases object with
  | missing => exact absurd rfl h
  | free => cases call <;> simp [run, LeaseObject.acquire, LeaseObject.renew,
      LeaseObject.release, LeaseObject.ensure]
  | leased lease =>
      cases call <;> simp only [run, LeaseObject.acquire, LeaseObject.renew,
        LeaseObject.release, LeaseObject.ensure] <;> (try split) <;> simp

/-- A lease that a call leaves behind was there before, or has been granted
by this very call. -/
theorem run_leased {object : LeaseObject}
    (h : (call.run name now object).1 = .leased lease) :
    object = .leased lease ∨
      (∃ duration holder, call = .acquire duration holder ∧
        lease = .grant now duration holder) ∨
      (∃ old, object = .leased old ∧ call = .renew old.holder ∧
        lease = .grant now old.duration old.holder) := by
  cases call with
  | acquire duration holder =>
      cases object with
      | missing => simp [run, LeaseObject.acquire] at h
      | free =>
          simp only [run, LeaseObject.acquire, LeaseObject.leased.injEq] at h
          exact .inr (.inl ⟨duration, holder, rfl, h.symm⟩)
      | leased old =>
          simp only [run, LeaseObject.acquire] at h
          split at h
          · exact .inl h
          · simp only [LeaseObject.leased.injEq] at h
            exact .inr (.inl ⟨duration, holder, rfl, h.symm⟩)
  | renew holder =>
      cases object with
      | missing => simp [run, LeaseObject.renew] at h
      | free => simp [run, LeaseObject.renew] at h
      | leased old =>
          simp only [run, LeaseObject.renew] at h
          split at h
          · next hmine =>
              simp only [LeaseObject.leased.injEq] at h
              subst hmine
              exact .inr (.inr ⟨old, rfl, rfl, h.symm⟩)
          · exact .inl h
  | release holder =>
      cases object with
      | missing => simp [run, LeaseObject.release] at h
      | free => simp [run, LeaseObject.release] at h
      | leased old =>
          simp only [run, LeaseObject.release] at h
          split at h
          · simp at h
          · exact .inl h
  | ensure =>
      cases object with
      | missing => simp [run, LeaseObject.ensure] at h
      | free => simp [run, LeaseObject.ensure] at h
      | leased old => exact .inl h

end LeaseCall

end LeasedListener
