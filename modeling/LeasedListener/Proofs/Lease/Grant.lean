import LeasedListener.Proofs.Lease.Calls

/-!
# Granted leases

A registry follows a container of lease objects through any operations of any
clients, and keeps them with their answers.  A lease that was granted lasts for
its length, and again from every renewal by its holder.  Until its end the
object is closed to everybody else; after that the holder can still renew it,
as long as nobody else has acquired the object.
-/

namespace LeasedListener

inductive RegistryEntry
  | called (name : String) (time : Nat) (call : LeaseCall)
      (reply : Except StorageError call.Reply)
  | deleted (name : String)

structure Registry where
  container : LeaseContainer
  now : Nat
  /-- The operations so far, the latest first. -/
  entries : List RegistryEntry

namespace RegistryEntry

/-- The lease is given up or granted anew, or its object is deleted. -/
def Ends (name : String) (holder : Identifier) : RegistryEntry → Prop
  | .called object _ (.acquire _ claimant) (.ok _) => object = name ∧ claimant = holder
  | .called object _ (.release leaver) (.ok _) => object = name ∧ leaver = holder
  | .deleted object => object = name
  | _ => False

/-- Someone else has acquired the object. -/
def Usurps (name : String) (holder : Identifier) : RegistryEntry → Prop
  | .called object _ (.acquire _ claimant) (.ok _) => object = name ∧ claimant ≠ holder
  | _ => False

/-- The instant at which the holder has renewed the lease. -/
def renewal? (name : String) (holder : Identifier) : RegistryEntry → Option Nat
  | .called object time (.renew renewer) (.ok _) =>
      if object = name ∧ renewer = holder then some time else none
  | _ => none

end RegistryEntry

/-- The end of a lease that was granted at an instant, after later operations:
it lasts for its length, thirty years at most, from the latest renewal on. -/
def leaseEnd (name : String) (holder : Identifier) (duration : Duration) (granted : Nat)
    (later : List RegistryEntry) : Nat :=
  (later.findSome? (·.renewal? name holder)).getD granted +
    min duration.nanos thirtyYears.nanos

namespace LeaseObject

variable {name : String} {now : Nat} {duration : Duration} {holder : Identifier}
  {lease : ActiveLease}

theorem acquire_of_live (hlive : now < lease.expiresAt) (hother : holder ≠ lease.holder) :
    (leased lease).acquire name now duration holder =
      (.leased lease, .error (.leaseAlreadyPresent name)) := by
  have hexpired : lease.isExpired now = false := by
    simpa [ActiveLease.isExpired] using hlive
  simp [acquire, hexpired, hother.symm]

theorem renew_of_other (hother : holder ≠ lease.holder) :
    (leased lease).renew name now holder = (.leased lease, .error (.leaseIdMismatch name)) := by
  simp [renew, hother.symm]

theorem release_of_other (hother : holder ≠ lease.holder) :
    (leased lease).release name holder = (.leased lease, .error (.leaseIdMismatch name)) := by
  simp [release, hother.symm]

theorem release_of_ok {object : LeaseObject} {answer : Unit}
    (h : (object.release name holder).2 = .ok answer) :
    ∃ lease, object = .leased lease ∧ lease.holder = holder ∧
      (object.release name holder).1 = .free := by
  cases object with
  | missing | free => simp [release] at h
  | leased lease =>
      by_cases hmine : lease.holder = holder
      · exact ⟨lease, rfl, hmine, by simp [release, hmine]⟩
      · simp [release, hmine] at h

theorem renew_isOk_iff {object : LeaseObject} :
    (object.renew name now holder).2 = .ok () ↔
      ∃ lease, object = .leased lease ∧ lease.holder = holder := by
  constructor
  · intro h
    obtain ⟨lease, hlease, hmine, -⟩ := renew_of_ok h
    exact ⟨lease, hlease, hmine⟩
  · rintro ⟨lease, rfl, hmine⟩
    simp [renew, hmine]

theorem ensure_eq_leased_iff {object : LeaseObject} :
    object.ensure = .leased lease ↔ object = .leased lease := by
  cases object <;> simp [ensure]

theorem holder?_of_live (hlive : now < lease.expiresAt) :
    (leased lease).holder? now = some lease.holder := by
  simpa [holder?, ActiveLease.isExpired] using hlive

end LeaseObject

namespace LeaseContainer

variable {c : LeaseContainer} {name other : String} {now : Nat} {call : LeaseCall}

@[simp] theorem get_run_self (c : LeaseContainer) (name : String) (now : Nat) (call : LeaseCall) :
    (c.run name now call).1.get name = (call.run name now (c.get name)).1 := by
  simp [run]

theorem get_run_of_ne (h : name ≠ other) : (c.run other now call).1.get name = c.get name :=
  get_set_of_ne _ h

theorem get_delete_of_ne (h : name ≠ other) : (c.delete other).get name = c.get name :=
  get_set_of_ne _ h

theorem get_run_of_error {error : StorageError} (h : (c.run name now call).2 = .error error) :
    (c.run name now call).1.get name = c.get name := by
  rw [get_run_self]
  exact LeaseCall.run_of_error h

end LeaseContainer

namespace Registry

def call (r : Registry) (name : String) (call : LeaseCall) : Registry :=
  { r with
    container := (r.container.run name r.now call).1
    entries := .called name r.now call (r.container.run name r.now call).2 :: r.entries }

def delete (r : Registry) (name : String) : Registry :=
  { r with container := r.container.delete name, entries := .deleted name :: r.entries }

inductive Step : Registry → Registry → Prop
  | elapse {r : Registry} {now : Nat} (later : r.now ≤ now) : Step r { r with now }
  | call {r : Registry} (name : String) (call : LeaseCall) : Step r (r.call name call)
  | delete {r : Registry} (name : String) : Step r (r.delete name)

/-- A registry is opened for a container in any state. -/
inductive Reachable : Registry → Prop
  | start (container : LeaseContainer) (now : Nat) : Reachable ⟨container, now, []⟩
  | step {r s : Registry} : Reachable r → Step r s → Reachable s

variable {r s : Registry} {name : String} {holder : Identifier} {duration : Duration}
  {granted : Nat} {later : List RegistryEntry} {entry : RegistryEntry}

/-- What has become of a lease by the later operations: the object carries it,
or someone else has acquired the object after its end. -/
inductive Stands (r : Registry) (name : String) (holder : Identifier) (duration : Duration)
    (granted : Nat) (later : List RegistryEntry) : Prop
  | kept (sole : ∀ entry ∈ later, ¬ entry.Usurps name holder)
      (leased : r.container.get name =
        .leased ⟨holder, duration, leaseEnd name holder duration granted later⟩)
  | lost (usurped : ∃ entry ∈ later, entry.Usurps name holder)
      (ended : leaseEnd name holder duration granted later ≤ r.now)
      (foreign : ∀ lease, r.container.get name = .leased lease → lease.holder ≠ holder)

theorem leaseEnd_cons_of_none (h : entry.renewal? name holder = none) :
    leaseEnd name holder duration granted (entry :: later) =
      leaseEnd name holder duration granted later := by
  simp [leaseEnd, h]

theorem leaseEnd_cons_of_some {time : Nat} (h : entry.renewal? name holder = some time) :
    leaseEnd name holder duration granted (entry :: later) =
      time + min duration.nanos thirtyYears.nanos := by
  simp [leaseEnd, h]

/-- An operation that does not concern the lease. -/
theorem Stands.ignore (h : r.Stands name holder duration granted later)
    (hnow : s.now = r.now)
    (hobject : ∀ lease, s.container.get name = .leased lease ↔
      r.container.get name = .leased lease)
    (hrenewal : entry.renewal? name holder = none) (husurps : ¬ entry.Usurps name holder) :
    s.Stands name holder duration granted (entry :: later) := by
  cases h with
  | kept sole leased =>
      apply Stands.kept
      · simpa [husurps] using sole
      · rw [leaseEnd_cons_of_none hrenewal, hobject]
        exact leased
  | lost usurped ended foreign =>
      apply Stands.lost
      · simpa [husurps] using usurped
      · rw [leaseEnd_cons_of_none hrenewal, hnow]
        exact ended
      · intro lease hlease
        exact foreign lease ((hobject lease).mp hlease)

theorem Stands.elapse {now : Nat} (h : r.Stands name holder duration granted later)
    (hnow : r.now ≤ now) :
    ({ r with now } : Registry).Stands name holder duration granted later := by
  cases h with
  | kept sole leased => exact .kept sole leased
  | lost usurped ended foreign => exact .lost usurped (Nat.le_trans ended hnow) foreign

/-- Someone else acquires the object, which nobody can before the end. -/
theorem Stands.acquired (h : r.Stands name holder duration granted later) {length : Duration}
    {claimant answer : Identifier} (hother : claimant ≠ holder)
    (hreply : ((r.container.get name).acquire name r.now length claimant).2 = .ok answer)
    (hafter : s.container.get name =
      ((r.container.get name).acquire name r.now length claimant).1) (hnow : s.now = r.now) :
    s.Stands name holder duration granted
      (.called name r.now (.acquire length claimant) (.ok answer) :: later) := by
  apply Stands.lost
  · exact ⟨_, List.mem_cons_self .., rfl, hother⟩
  · rw [leaseEnd_cons_of_none rfl, hnow]
    cases h with
    | lost _ ended _ => exact ended
    | kept _ leased =>
        apply Nat.le_of_not_lt
        intro hlive
        rw [leased, LeaseObject.acquire_of_live hlive hother] at hreply
        simp at hreply
  · intro lease hlease
    rw [hafter, (LeaseObject.acquire_of_ok hreply).1, LeaseObject.leased.injEq] at hlease
    rw [← hlease]
    exact hother

theorem Stands.renewed (h : r.Stands name holder duration granted later) {renewer : Identifier}
    {answer : Unit} (hreply : ((r.container.get name).renew name r.now renewer).2 = .ok answer)
    (hafter : s.container.get name = ((r.container.get name).renew name r.now renewer).1)
    (hnow : s.now = r.now) :
    s.Stands name holder duration granted
      (.called name r.now (.renew renewer) (.ok answer) :: later) := by
  obtain ⟨lease, hlease, hrenewer, hgrant⟩ := LeaseObject.renew_of_ok hreply
  rw [hgrant] at hafter
  have husurps : ¬ (RegistryEntry.called name r.now (.renew renewer)
      (.ok answer)).Usurps name holder := id
  cases h with
  | kept sole leased =>
      obtain rfl := LeaseObject.leased.inj (hlease.symm.trans leased)
      have hmine : holder = renewer := hrenewer
      subst hmine
      have hrenewal : (RegistryEntry.called name r.now (.renew holder)
          (.ok answer)).renewal? name holder = some r.now := by
        simp [RegistryEntry.renewal?]
      apply Stands.kept
      · simpa [husurps] using sole
      · rw [leaseEnd_cons_of_some hrenewal]
        exact hafter
  | lost usurped ended foreign =>
      have hother : renewer ≠ holder := hrenewer ▸ foreign lease hlease
      apply Stands.lost
      · simpa [husurps] using usurped
      · rw [leaseEnd_cons_of_none (by simp [RegistryEntry.renewal?, hother]), hnow]
        exact ended
      · intro after hgranted
        rw [hafter, LeaseObject.leased.injEq] at hgranted
        rw [← hgranted]
        exact hother

/-- Only the holder of the lease that an object carries can release it. -/
theorem Stands.released (h : r.Stands name holder duration granted later) {leaver : Identifier}
    {answer : Unit} (hother : leaver ≠ holder)
    (hreply : ((r.container.get name).release name leaver).2 = .ok answer)
    (hafter : s.container.get name = ((r.container.get name).release name leaver).1)
    (hnow : s.now = r.now) :
    s.Stands name holder duration granted
      (.called name r.now (.release leaver) (.ok answer) :: later) := by
  obtain ⟨lease, hlease, hleaver, hfree⟩ := LeaseObject.release_of_ok hreply
  have husurps : ¬ (RegistryEntry.called name r.now (.release leaver)
      (.ok answer)).Usurps name holder := id
  cases h with
  | kept _ leased =>
      obtain rfl := LeaseObject.leased.inj (hlease.symm.trans leased)
      exact absurd hleaver.symm hother
  | lost usurped ended foreign =>
      apply Stands.lost
      · simpa [husurps] using usurped
      · rw [leaseEnd_cons_of_none rfl, hnow]
        exact ended
      · simp [hafter, hfree]

theorem Stands.call (h : r.Stands name holder duration granted later) (object : String)
    (call : LeaseCall)
    (hkept : ¬ (RegistryEntry.called object r.now call
      (r.container.run object r.now call).2).Ends name holder) :
    (r.call object call).Stands name holder duration granted
      (.called object r.now call (r.container.run object r.now call).2 :: later) := by
  have hnow : (r.call object call).now = r.now := rfl
  by_cases hobject : object = name
  · subst hobject
    have hafter : (r.call object call).container.get object =
        (call.run object r.now (r.container.get object)).1 :=
      LeaseContainer.get_run_self ..
    have hreply : (r.container.run object r.now call).2 =
        (call.run object r.now (r.container.get object)).2 := rfl
    rw [hreply] at hkept ⊢
    cases houtcome : (call.run object r.now (r.container.get object)).2 with
    | error error =>
        rw [LeaseCall.run_of_error houtcome] at hafter
        apply h.ignore hnow
        · intro lease
          rw [hafter]
        · cases call <;> rfl
        · cases call <;> exact id
    | ok answer =>
        rw [houtcome] at hkept
        cases call with
        | acquire length claimant =>
            exact h.acquired (fun hmine => hkept ⟨rfl, hmine⟩) houtcome hafter hnow
        | renew renewer => exact h.renewed houtcome hafter hnow
        | release leaver =>
            exact h.released (fun hmine => hkept ⟨rfl, hmine⟩) houtcome hafter hnow
        | ensure =>
            apply h.ignore hnow _ rfl id
            intro lease
            rw [hafter]
            exact LeaseObject.ensure_eq_leased_iff
  · have hsame : (r.call object call).container.get name = r.container.get name :=
      LeaseContainer.get_run_of_ne (Ne.symm hobject)
    generalize (r.container.run object r.now call).2 = reply
    apply h.ignore hnow
    · intro lease
      rw [hsame]
    · cases call <;> cases reply <;> simp [RegistryEntry.renewal?, hobject]
    · cases call <;> cases reply <;> simp [RegistryEntry.Usurps, hobject]

theorem Stands.delete (h : r.Stands name holder duration granted later) {object : String}
    (hother : object ≠ name) :
    (r.delete object).Stands name holder duration granted (.deleted object :: later) := by
  have hnow : (r.delete object).now = r.now := rfl
  apply h.ignore hnow _ rfl id
  intro lease
  have hsame : (r.delete object).container.get name = r.container.get name :=
    LeaseContainer.get_delete_of_ne (Ne.symm hother)
  rw [hsame]

/-- The object carries a lease that has just been granted. -/
theorem stands_of_acquire {answer : Identifier}
    (hreply : (r.container.run name r.now (.acquire duration holder)).2 = .ok answer) :
    (r.call name (.acquire duration holder)).Stands name holder duration r.now [] := by
  apply Stands.kept
  · simp
  · have hobject : (r.call name (.acquire duration holder)).container.get name =
        ((r.container.get name).acquire name r.now duration holder).1 :=
      LeaseContainer.get_run_self ..
    rw [hobject]
    exact (LeaseObject.acquire_of_ok hreply).1

/-- Every lease that was ever granted stands, unless it was given up, granted
anew or deleted with its object since. -/
theorem Reachable.stands (h : Reachable r) {earlier : List RegistryEntry} {answer : Identifier}
    (hentries : r.entries =
      later ++ .called name granted (.acquire duration holder) (.ok answer) :: earlier)
    (hkept : ∀ entry ∈ later, ¬ entry.Ends name holder) :
    r.Stands name holder duration granted later := by
  induction h generalizing later with
  | start container now => simp at hentries
  | @step r s _ hstep ih =>
      cases hstep with
      | elapse hlater => exact (ih hentries hkept).elapse hlater
      | call object call =>
          cases later with
          | nil =>
              simp only [Registry.call, List.nil_append, List.cons.injEq] at hentries
              obtain ⟨hentry, -⟩ := hentries
              injection hentry with hname htime hcall hreply
              subst hname htime hcall
              exact stands_of_acquire (eq_of_heq hreply)
          | cons entry later =>
              obtain ⟨hlatest, hrest⟩ := List.cons.inj hentries
              subst hlatest
              have hbefore := ih hrest fun entry hentry =>
                hkept entry (List.mem_cons_of_mem _ hentry)
              exact hbefore.call object call (hkept _ (List.mem_cons_self ..))
      | delete object =>
          cases later with
          | nil => simp [Registry.delete] at hentries
          | cons entry later =>
              obtain ⟨hlatest, hrest⟩ := List.cons.inj hentries
              subst hlatest
              have hbefore := ih hrest fun entry hentry =>
                hkept entry (List.mem_cons_of_mem _ hentry)
              exact hbefore.delete (hkept _ (List.mem_cons_self ..))

/-- The object is closed to everybody but the holder. -/
structure Closed (r : Registry) (name : String) (holder : Identifier) : Prop where
  held : r.container.holder? name r.now = some holder
  acquire : ∀ other, other ≠ holder → ∀ length,
    (r.container.run name r.now (.acquire length other)).2 = .error (.leaseAlreadyPresent name)
  renew : ∀ other, other ≠ holder →
    (r.container.run name r.now (.renew other)).2 = .error (.leaseIdMismatch name)
  release : ∀ other, other ≠ holder →
    (r.container.run name r.now (.release other)).2 = .error (.leaseIdMismatch name)

theorem closed_of_live {lease : ActiveLease} (hlease : r.container.get name = .leased lease)
    (hlive : r.now < lease.expiresAt) : r.Closed name lease.holder := by
  constructor
  · rw [LeaseContainer.holder?, hlease]
    exact LeaseObject.holder?_of_live hlive
  · intro other hother length
    rw [LeaseContainer.run, hlease]
    exact congrArg Prod.snd (LeaseObject.acquire_of_live hlive hother)
  · intro other hother
    rw [LeaseContainer.run, hlease]
    exact congrArg Prod.snd (LeaseObject.renew_of_other hother)
  · intro other hother
    rw [LeaseContainer.run, hlease]
    exact congrArg Prod.snd (LeaseObject.release_of_other hother)

theorem Stands.closed (h : r.Stands name holder duration granted later)
    (hlive : r.now < leaseEnd name holder duration granted later) : r.Closed name holder := by
  cases h with
  | kept _ leased => exact closed_of_live leased hlive
  | lost _ ended _ => exact absurd hlive (Nat.not_lt.mpr ended)

theorem Stands.renew_isOk_iff (h : r.Stands name holder duration granted later) :
    (r.container.run name r.now (.renew holder)).2 = .ok () ↔
      ∀ entry ∈ later, ¬ entry.Usurps name holder := by
  have hrenews : (r.container.run name r.now (.renew holder)).2 = .ok () ↔
      ∃ lease, r.container.get name = .leased lease ∧ lease.holder = holder :=
    LeaseObject.renew_isOk_iff
  rw [hrenews]
  cases h with
  | kept sole leased => exact ⟨fun _ => sole, fun _ => ⟨_, leased, rfl⟩⟩
  | lost usurped _ foreign =>
      obtain ⟨entry, hentry, husurps⟩ := usurped
      constructor
      · rintro ⟨lease, hlease, hmine⟩
        exact absurd hmine (foreign lease hlease)
      · intro hsole
        exact absurd husurps (hsole entry hentry)

/-- A granted lease stands for its length, and again from every renewal, until
its holder releases it or acquires the object anew, or the object is deleted.
Until its end nobody else gets at the object; later on the holder can renew it
unless someone else has acquired the object in the meantime.  Nothing but a
successful call on the object itself, or its deletion, changes its lease. -/
theorem granted_lease_stands (h : Reachable r) (name : String) :
    (∀ later granted duration holder answer earlier,
      r.entries =
        later ++ .called name granted (.acquire duration holder) (.ok answer) :: earlier →
      (∀ entry ∈ later, ¬ entry.Ends name holder) →
        (r.now < leaseEnd name holder duration granted later → r.Closed name holder) ∧
        ((r.container.run name r.now (.renew holder)).2 = .ok () ↔
          ∀ entry ∈ later, ¬ entry.Usurps name holder)) ∧
    (∀ object call,
      (object ≠ name ∨ ∃ error, (r.container.run object r.now call).2 = .error error) →
        (r.call object call).container.get name = r.container.get name) ∧
    ∀ object, object ≠ name → (r.delete object).container.get name = r.container.get name := by
  refine ⟨?_, ?_, ?_⟩
  · intro later granted duration holder answer earlier hentries hkept
    have hstands := h.stands hentries hkept
    exact ⟨hstands.closed, hstands.renew_isOk_iff⟩
  · intro object call hcall
    by_cases hobject : object = name
    · subst hobject
      rcases hcall with hother | ⟨error, herror⟩
      · exact absurd rfl hother
      · exact LeaseContainer.get_run_of_error herror
    · exact LeaseContainer.get_run_of_ne (Ne.symm hobject)
  · intro object hobject
    exact LeaseContainer.get_delete_of_ne (Ne.symm hobject)

def incumbent : Identifier := .timeOrdered 0

def usurper : Identifier := .timeOrdered 1

def tenSeconds : Duration := .ofSeconds 10

/-- A lease of ten seconds, renewed after four of them. -/
def renewedOnce : Registry :=
  { (Registry.mk ⟨⟨[("lock", .free)]⟩⟩ 0 []).call "lock" (.acquire tenSeconds incumbent)
    with now := 4000000000 }.call "lock" (.renew incumbent)

def lapsed : Registry :=
  { renewedOnce with now := 14000000000 }.call "lock" (.acquire tenSeconds usurper)

theorem reachable_renewedOnce : Reachable renewedOnce :=
  (((Reachable.start _ 0).step (.call "lock" (.acquire tenSeconds incumbent))).step
    (.elapse (Nat.zero_le 4000000000))).step (.call "lock" (.renew incumbent))

theorem reachable_lapsed : Reachable lapsed :=
  (reachable_renewedOnce.step (.elapse (by decide))).step
    (.call "lock" (.acquire tenSeconds usurper))

/-- The renewal keeps the object closed until the end of the fourteenth second.
Then the lease can be taken over, and is not renewed any more. -/
theorem granted_lease_stands_lapsed :
    ({ renewedOnce with now := 13999999999 } : Registry).Closed "lock" incumbent ∧
      (lapsed.container.run "lock" lapsed.now (.renew incumbent)).2 ≠ .ok () := by
  constructor
  · have hreachable : Reachable { renewedOnce with now := 13999999999 } :=
      reachable_renewedOnce.step (.elapse (by decide))
    have hstands := (granted_lease_stands hreachable "lock").1
      [.called "lock" 4000000000 (.renew incumbent) (.ok ())]
      0 tenSeconds incumbent incumbent [] rfl (by simp [RegistryEntry.Ends])
    apply hstands.1
    decide
  · have hdistinct : usurper ≠ incumbent := by decide
    have hstands := (granted_lease_stands reachable_lapsed "lock").1
      [.called "lock" 14000000000 (.acquire tenSeconds usurper) (.ok usurper),
        .called "lock" 4000000000 (.renew incumbent) (.ok ())]
      0 tenSeconds incumbent incumbent [] rfl (by simp [RegistryEntry.Ends, hdistinct])
    intro hrenewed
    exact hstands.2.mp hrenewed _ (List.mem_cons_self ..) ⟨rfl, hdistinct⟩

end Registry

end LeasedListener
