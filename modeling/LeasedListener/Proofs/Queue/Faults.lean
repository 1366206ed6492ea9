import LeasedListener.Proofs.Queue.Deeds
import LeasedListener.Scenario.World

/-!
# Faults in store

An error that is in store for an operation answers one call of that operation
and touches nothing else.  The errors for one operation form a line of their
own: an injection joins it at the end, a call of the operation takes the first
one, and no other deed does anything to it.
-/

namespace LeasedListener

namespace Queue

variable {q : Queue} {operation other : QueueOperation} {error : StorageError}
  {before after : List (QueueOperation × StorageError)}

/-- The errors in store for an operation, the oldest first. -/
def pending (q : Queue) (operation : QueueOperation) : List StorageError :=
  (q.faults.filter (·.1 = operation)).map (·.2)

def faultless (q : Queue) : Queue := { q with faults := [] }

/-- The oldest error in store for an operation lies between these others. -/
structure FaultLies (q : Queue) (before : List (QueueOperation × StorageError))
    (operation : QueueOperation) (error : StorageError)
    (after : List (QueueOperation × StorageError)) : Prop where
  faults : q.faults = before ++ (operation, error) :: after
  oldest : ∀ fault ∈ before, fault.1 ≠ operation

theorem exists_faultLies {rest : List StorageError} (h : q.pending operation = error :: rest) :
    ∃ before after, q.FaultLies before operation error after := by
  obtain ⟨fault, others, hfilter, herror, -⟩ := List.map_eq_cons_iff.mp h
  obtain ⟨before, after, hfaults, hbefore, hfault, -⟩ := List.filter_eq_cons_iff.mp hfilter
  obtain rfl : fault = (operation, error) := Prod.ext (of_decide_eq_true hfault) herror
  refine ⟨before, after, hfaults, ?_⟩
  intro fault hmem hsame
  exact hbefore fault hmem (decide_eq_true hsame)

theorem FaultLies.opening (h : q.FaultLies before operation error after) :
    q.opening operation = ({ q with faults := before ++ after }, .error error) := by
  have hbefore : before.find? (·.1 = operation) = none := by
    rw [List.find?_eq_none]
    intro fault hfault
    simpa using h.oldest fault hfault
  have hfound : q.faults.find? (·.1 = operation) = some (operation, error) := by
    simp [h.faults, List.find?_append, hbefore]
  have hleft : q.faults.eraseP (·.1 = operation) = before ++ after := by
    rw [h.faults, List.eraseP_append_right]
    · simp
    · intro fault hfault
      simpa using h.oldest fault hfault
  simp only [Queue.opening, hfound, hleft]

theorem find?_faults_of_pending (h : q.pending operation = []) :
    q.faults.find? (·.1 = operation) = none := by
  simpa [pending, List.find?_eq_none] using h

theorem opening_of_idle (h : q.pending operation = []) :
    q.opening operation = (q, if q.present then .ok () else .error (.queueNotFound q.name)) := by
  simp only [opening, find?_faults_of_pending h]

theorem FaultLies.pending (h : q.FaultLies before operation error after) :
    q.pending operation =
      error :: ({ q with faults := before ++ after } : Queue).pending operation := by
  have hbefore : before.filter (·.1 = operation) = [] := by
    rw [List.filter_eq_nil_iff]
    intro fault hfault
    simpa using h.oldest fault hfault
  simp [Queue.pending, h.faults, List.filter_append, hbefore]

theorem FaultLies.pending_of_ne (h : q.FaultLies before operation error after)
    (hother : other ≠ operation) :
    ({ q with faults := before ++ after } : Queue).pending other = q.pending other := by
  simp [Queue.pending, h.faults, List.filter_append, hother.symm]

theorem pending_injectFault (q : Queue) (faulted operation : QueueOperation)
    (error : StorageError) :
    (q.injectFault faulted error).pending operation =
      q.pending operation ++ if faulted = operation then [error] else [] := by
  by_cases hfaulted : faulted = operation <;>
    simp [pending, injectFault, List.filter_append, hfaulted]

end Queue

namespace QueueDeed

variable {deed : QueueDeed} {now : Nat} {q : Queue} {operation : QueueOperation}
  {error : StorageError} {before after : List (QueueOperation × StorageError)}

/-- The operation of which the deed is a call. -/
def operation? : QueueDeed → Option QueueOperation
  | .enqueue .. => some .enqueue
  | .dequeue .. => some .dequeue
  | .update .. => some .update
  | .delete _ => some .delete
  | .probe | .create | .push .. | .drop | .injectFault .. => none

def injected (operation : QueueOperation) : QueueDeed → List StorageError
  | .injectFault faulted error => if faulted = operation then [error] else []
  | _ => []

/-- The deed on an existing queue without faults in store. -/
def proceed (now : Nat) : (deed : QueueDeed) → Queue → Queue × Except StorageError deed.Reply
  | .enqueue wallClock fresh body, q => (q.append fresh body 0 now wallClock, .ok fresh)
  | .dequeue wallClock fresh window, q =>
      match q.messages.find? (·.isVisible now) with
      | none => (q, .ok none)
      | some stored =>
          (q.change stored.id fun _ => stored.countDequeue.claim now fresh window,
            .ok (some (stored.delivery fresh (wallClock.plus window))))
  | .update fresh m window, q =>
      match q.claimed? m now with
      | .error error => (q, .error error)
      | .ok stored => (q.change stored.id (·.claim now fresh window), .ok fresh)
  | .delete m, q =>
      match q.claimed? m now with
      | .error error => (q, .error error)
      | .ok stored => (q.remove stored.id, .ok ())
  | deed, q => deed.run now q

/-- A call begins with what is in store for it. -/
theorem run_eq (hcall : deed.operation? = some operation) :
    deed.run now q =
      match q.opening operation with
      | (q, .error error) => (q, .error error)
      | (q, .ok _) => deed.proceed now q := by
  cases deed with
  | enqueue | dequeue | update | delete =>
      obtain rfl := Option.some.inj hcall
      rfl
  | probe | create | push | drop | injectFault => simp [operation?] at hcall

theorem proceed_of_error (hcall : deed.operation? = some operation)
    (h : (deed.proceed now q).2 = .error error) : (deed.proceed now q).1 = q := by
  cases deed with
  | enqueue => simp [proceed] at h
  | dequeue wallClock fresh window =>
      simp only [proceed] at h ⊢
      split at h
      · rfl
      · simp at h
  | update fresh m window =>
      simp only [proceed] at h ⊢
      split at h
      · rfl
      · simp at h
  | delete m =>
      simp only [proceed] at h ⊢
      split at h
      · rfl
      · simp at h
  | probe | create | push | drop | injectFault => simp [operation?] at hcall

theorem proceed_faultless (hcall : deed.operation? = some operation) :
    deed.proceed now q =
      ({ (deed.proceed now q.faultless).1 with faults := q.faults },
        (deed.proceed now q.faultless).2) := by
  have hclaimed : ∀ m, q.faultless.claimed? m now = q.claimed? m now := fun _ => rfl
  have hmessages : q.faultless.messages = q.messages := rfl
  cases deed with
  | enqueue => rfl
  | dequeue =>
      simp only [proceed, hmessages]
      split <;> rfl
  | update =>
      simp only [proceed, hclaimed]
      split <;> rfl
  | delete =>
      simp only [proceed, hclaimed]
      split <;> rfl
  | probe | create | push | drop | injectFault => simp [operation?] at hcall

/-- The oldest error in store is the answer to a call, and nothing else
happens. -/
theorem run_of_faultLies (hcall : deed.operation? = some operation)
    (h : q.FaultLies before operation error after) :
    deed.run now q = ({ q with faults := before ++ after }, .error error) := by
  rw [run_eq hcall, h.opening]

/-- A call for which no error is in store goes on as if there were none at
all. -/
theorem run_of_idle (hcall : deed.operation? = some operation) (h : q.pending operation = []) :
    deed.run now q =
      ({ (deed.run now q.faultless).1 with faults := q.faults },
        (deed.run now q.faultless).2) := by
  have hidle : q.faultless.pending operation = [] := rfl
  have hpresent : q.faultless.present = q.present := rfl
  rw [run_eq hcall, run_eq hcall, Queue.opening_of_idle h, Queue.opening_of_idle hidle, hpresent]
  cases q.present with
  | false => rfl
  | true => exact proceed_faultless hcall

/-- A call that fails for want of anything but the queue or the claim leaves the
queue as it is. -/
theorem run_of_idle_of_error (hcall : deed.operation? = some operation)
    (h : q.pending operation = []) (herror : (deed.run now q).2 = .error error) :
    (deed.run now q).1 = q := by
  rw [run_eq hcall, Queue.opening_of_idle h] at herror ⊢
  cases hpresent : q.present with
  | false => simp
  | true =>
      simp only [hpresent, if_true] at herror ⊢
      exact proceed_of_error hcall herror

theorem injected_of_call (hcall : deed.operation? = some operation) (other : QueueOperation) :
    deed.injected other = [] := by
  cases deed with
  | injectFault => simp [operation?] at hcall
  | probe | create | enqueue | dequeue | update | delete | push | drop => rfl

theorem pending_run_of_ne {other : QueueOperation} (hcall : deed.operation? = some other)
    (hother : operation ≠ other) : (deed.run now q).1.pending operation = q.pending operation := by
  cases hpending : q.pending other with
  | nil =>
      rw [run_of_idle hcall hpending]
      rfl
  | cons error rest =>
      obtain ⟨before, after, hlies⟩ := Queue.exists_faultLies hpending
      rw [run_of_faultLies hcall hlies]
      exact hlies.pending_of_ne hother

/-- The errors in store for an operation that the deed returns. -/
def taken (operation : QueueOperation) (now : Nat) (deed : QueueDeed) (q : Queue) :
    List StorageError :=
  if deed.operation? = some operation ∧ q.pending operation ≠ [] then
    match (deed.run now q).2 with
    | .ok _ => []
    | .error error => [error]
  else []

theorem taken_append_pending (operation : QueueOperation) (now : Nat) (deed : QueueDeed)
    (q : Queue) :
    deed.taken operation now q ++ (deed.run now q).1.pending operation =
      q.pending operation ++ deed.injected operation := by
  unfold taken
  cases hcall : deed.operation? with
  | none =>
      rw [if_neg (by simp), List.nil_append]
      cases deed with
      | injectFault faulted error => exact Queue.pending_injectFault q faulted operation error
      | probe | create | push | drop => exact (List.append_nil _).symm
      | enqueue | dequeue | update | delete => simp [operation?] at hcall
  | some other =>
      rw [injected_of_call hcall, List.append_nil]
      by_cases hsame : operation = other
      · subst hsame
        cases hpending : q.pending operation with
        | nil =>
            rw [if_neg (by simp), run_of_idle hcall hpending]
            exact hpending
        | cons error rest =>
            obtain ⟨before, after, hlies⟩ := Queue.exists_faultLies hpending
            rw [if_pos (by simp), run_of_faultLies hcall hlies, ← hpending, hlies.pending]
            rfl
      · rw [if_neg fun h => hsame (Option.some.inj h.1).symm, pending_run_of_ne hcall hsame]
        rfl

end QueueDeed

namespace Queue

variable {q : Queue} {operation : QueueOperation} {now : Nat} {deed : QueueDeed}
  {error : StorageError}

/-- A failure that has touched nothing, and has used up the oldest error for
the operation at most. -/
structure Spares (q : Queue) (operation : QueueOperation) (error : StorageError) (q' : Queue) :
    Prop where
  messages : q'.messages = q.messages
  present : q'.present = q.present
  faults : q'.faults = q.faults ∨
    ∃ before after, q.FaultLies before operation error after ∧ q'.faults = before ++ after

theorem spares_run (hcall : deed.operation? = some operation)
    (herror : (deed.run now q).2 = .error error) : q.Spares operation error (deed.run now q).1 := by
  cases hpending : q.pending operation with
  | nil =>
      rw [QueueDeed.run_of_idle_of_error hcall hpending herror]
      exact ⟨rfl, rfl, .inl rfl⟩
  | cons first rest =>
      obtain ⟨before, after, hlies⟩ := exists_faultLies hpending
      have hrun : deed.run now q = ({ q with faults := before ++ after }, .error first) :=
        QueueDeed.run_of_faultLies hcall hlies
      rw [hrun] at herror ⊢
      obtain rfl := Except.error.inj herror
      exact ⟨rfl, rfl, .inr ⟨before, after, hlies, rfl⟩⟩

/-- The queue after some deeds, each at its instant. -/
def perform (q : Queue) : List (Nat × QueueDeed) → Queue
  | [] => q
  | (now, deed) :: rest => (deed.run now q).1.perform rest

/-- The errors that calls of an operation returned while they were in store,
in the order of the calls. -/
def answered (operation : QueueOperation) (q : Queue) : List (Nat × QueueDeed) → List StorageError
  | [] => []
  | (now, deed) :: rest => deed.taken operation now q ++ answered operation (deed.run now q).1 rest

theorem answered_append_pending (operation : QueueOperation) (q : Queue)
    (deeds : List (Nat × QueueDeed)) :
    answered operation q deeds ++ (q.perform deeds).pending operation =
      q.pending operation ++ deeds.flatMap (·.2.injected operation) := by
  induction deeds generalizing q with
  | nil => exact (List.append_nil _).symm
  | cons head rest ih =>
      obtain ⟨now, deed⟩ := head
      calc
        answered operation q ((now, deed) :: rest) ++
              (q.perform ((now, deed) :: rest)).pending operation
            = deed.taken operation now q ++
                (answered operation (deed.run now q).1 rest ++
                  ((deed.run now q).1.perform rest).pending operation) :=
          List.append_assoc ..
        _ = (deed.taken operation now q ++ (deed.run now q).1.pending operation) ++
              rest.flatMap (·.2.injected operation) := by
          rw [ih, List.append_assoc]
        _ = q.pending operation ++ ((now, deed) :: rest).flatMap (·.2.injected operation) := by
          rw [QueueDeed.taken_append_pending, List.append_assoc, List.flatMap_cons]

/-- What is in store for an operation is returned by its calls one by one, in
the order in which it was put in store, whatever else happens to the queue; only
when nothing is left a call is carried out, as if no error were in store for any
operation.  A call that fails leaves messages and existence as they were, and
takes one error from those in store at most. -/
theorem faults_in_turn (q : Queue) (operation : QueueOperation) :
    (∀ deeds, answered operation q deeds ++ (q.perform deeds).pending operation =
      q.pending operation ++ deeds.flatMap (·.2.injected operation)) ∧
    ∀ (now : Nat) (deed : QueueDeed), deed.operation? = some operation →
      (∀ error rest, q.pending operation = error :: rest → (deed.run now q).2 = .error error) ∧
      (q.pending operation = [] →
        deed.run now q =
          ({ (deed.run now q.faultless).1 with faults := q.faults },
            (deed.run now q.faultless).2)) ∧
      ∀ error, (deed.run now q).2 = .error error →
        q.Spares operation error (deed.run now q).1 := by
  refine ⟨answered_append_pending operation q, ?_⟩
  intro now deed hcall
  refine ⟨?_, QueueDeed.run_of_idle hcall, fun error => spares_run hcall⟩
  intro error rest hpending
  obtain ⟨before, after, hlies⟩ := exists_faultLies hpending
  rw [QueueDeed.run_of_faultLies hcall hlies]

def busy : StorageError := .status 503 ErrorCode.serverBusy "busy"

def lostConnection : StorageError := .connection "reset"

def vainDequeue : QueueDeed := .dequeue scenarioEpoch ⟨0⟩ .zero

/-- Two errors for a dequeue with one for a deletion between them, and three
dequeues. -/
def troubled : List (Nat × QueueDeed) :=
  [(0, .injectFault .dequeue busy), (0, .injectFault .delete busy),
    (1, .injectFault .dequeue lostConnection), (2, vainDequeue), (2, vainDequeue), (3, vainDequeue)]

/-- Although the queue is missing, it is the two errors that come first. -/
theorem faults_in_turn_troubled :
    answered .dequeue (.missing "jobs") troubled = [busy, lostConnection] := by
  have hinjected := (faults_in_turn (.missing "jobs") .dequeue).1 troubled
  have hleft : ((Queue.missing "jobs").perform troubled).pending .dequeue = [] := rfl
  rw [hleft, List.append_nil] at hinjected
  exact hinjected

end Queue

end LeasedListener
