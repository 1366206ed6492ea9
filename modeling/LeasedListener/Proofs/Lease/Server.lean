import LeasedListener.Lease.Server.Protocol

/-!
# Calls on a lease server

A call on a lease server is an exchange of commands and replies, and comes to
what the last of the replies reads as.  A script that the server does not know
is loaded, and then asked for once more in the very same words.
-/

namespace LeasedListener

abbrev ServerTurn := ServerCommand × ServerReply

/-- An exchange in which a command runs a script. -/
inductive Dialogue (command : ServerCommand) (script : LeaseScript) : List ServerTurn → Prop
  | answered {reply : ServerReply} (known : reply.isUnknownScript = false) :
      Dialogue command script [(command, reply)]
  | unloaded {first loaded : ServerReply} (unknown : first.isUnknownScript = true)
      (failed : loaded.failure? ≠ none) :
      Dialogue command script [(command, first), (.load script, loaded)]
  | repeated {first loaded second : ServerReply} (unknown : first.isUnknownScript = true)
      (accepted : loaded.failure? = none) :
      Dialogue command script [(command, first), (.load script, loaded), (command, second)]

theorem ServerReply.number?_of_failure? {reply : ServerReply} {failure : ServerFailure}
    (h : reply.failure? = some failure) : reply.number? = .error failure := by
  cases reply with
  | failure | garbled | dropped =>
      cases h
      rfl
  | integer | simple | bulk | nil | array => cases h

theorem ServerReply.number?_ne_refused (reply : ServerReply) (error : StorageError) :
    reply.number? ≠ .error (.refused error) := by
  cases reply with
  | integer | nil | array | failure | garbled | dropped => simp [number?]
  | simple text | bulk text =>
      simp only [number?]
      split <;> simp

namespace ServerLease

/-- The exchanges of a call on the object under a key. -/
inductive Speaks (key : String) : LeaseCall → List ServerTurn → Prop
  /-- There is no connection. -/
  | silence {call : LeaseCall} : Speaks key call []
  | acquiring {duration : Duration} {holder : Identifier} {turns : List ServerTurn}
      (dialogue : Dialogue
        (.evaluate .acquire key [holder.text, toString (millis duration)]) .acquire turns) :
      Speaks key (.acquire duration holder) turns
  | renewing {holder : Identifier} {turns : List ServerTurn}
      (dialogue : Dialogue (.evaluate .renew key [holder.text]) .renew turns) :
      Speaks key (.renew holder) turns
  | releasing {holder : Identifier} {turns : List ServerTurn}
      (dialogue : Dialogue (.evaluate .release key [holder.text]) .release turns) :
      Speaks key (.release holder) turns
  | creating {reply : ServerReply} : Speaks key .ensure [(.create key, reply)]

/-- What the last reply of an exchange reads as. -/
def reading (turns : List ServerTurn) : Except ServerFailure Int :=
  match turns.getLast? with
  | none => .error .unreachable
  | some turn => turn.2.number?

/-- The class of the error that the result of a script stands for. -/
def failureOfReading : Except ServerFailure Int → Option ErrorClass
  | .ok 1 => none
  | .ok 0 | .ok (-2) => some .conflict
  | .ok (-1) => some .notFound
  | .error .unreachable => some .transient
  | .ok _ | .error _ => some .fatal

/-- The answer of a server to a call, as storage gives it. -/
def replying (lease : ServerLease) (reachable : Bool) (replies : List ServerReply)
    (call : LeaseCall) : Except StorageError call.Reply :=
  (lease.call reachable call replies).result.mapError ServerFailure.toStorageError

variable {lease : ServerLease} {reachable : Bool} {replies : List ServerReply}

theorem dialogue_evaluate (lease : ServerLease) (script : LeaseScript) (arguments : List String)
    (replies : List ServerReply) :
    Dialogue (.evaluate script lease.key arguments) script
      (lease.evaluate script arguments replies).turns := by
  simp only [evaluate]
  split
  · next hunknown =>
      split
      · next failure hfailed => exact .unloaded hunknown (by simp [hfailed])
      · next haccepted => exact .repeated hunknown haccepted
  · next hknown => exact .answered (by simpa using hknown)

theorem result_evaluate (lease : ServerLease) (script : LeaseScript) (arguments : List String)
    (replies : List ServerReply) :
    (lease.evaluate script arguments replies).result =
      reading (lease.evaluate script arguments replies).turns := by
  simp only [evaluate]
  split
  · split
    · next failure hfailed => exact (ServerReply.number?_of_failure? hfailed).symm
    · rfl
  · rfl

theorem speaks_call (lease : ServerLease) (reachable : Bool) (call : LeaseCall)
    (replies : List ServerReply) :
    Speaks lease.key call (lease.call reachable call replies).turns := by
  cases reachable with
  | false => exact .silence
  | true =>
      cases call with
      | acquire duration holder => exact .acquiring (dialogue_evaluate ..)
      | renew holder => exact .renewing (dialogue_evaluate ..)
      | release holder => exact .releasing (dialogue_evaluate ..)
      | ensure => exact .creating

theorem reading_ne_refused (turns : List ServerTurn) (error : StorageError) :
    reading turns ≠ .error (.refused error) := by
  unfold reading
  cases turns.getLast? with
  | none => simp
  | some turn => exact turn.2.number?_ne_refused error

theorem result_call {call : LeaseCall} {script : LeaseScript} {arguments : List String}
    {conflict : String → StorageError}
    (h : ServerLease.script call = some (script, arguments, conflict)) :
    (lease.call reachable call replies).result =
      ((reading (lease.call reachable call replies).turns).bind (lease.interpret conflict)).map
        fun _ => granted call := by
  cases reachable with
  | false => rfl
  | true =>
      have hrun : lease.call true call replies = lease.run call replies := rfl
      simp only [hrun, run, h, result_evaluate]

theorem interpret_cases {conflict : String → StorageError}
    (hconflict : ∀ name, (conflict name).errorClass = .conflict) (n : Int) :
    (n = 1 ∧ lease.interpret conflict n = .ok ()) ∨
    ∃ error, lease.interpret conflict n = .error (.refused error) ∧
      failureOfReading (.ok n) = some error.errorClass := by
  unfold interpret
  split
  · exact .inl ⟨rfl, rfl⟩
  · exact .inr ⟨_, rfl, congrArg some (hconflict lease.name).symm⟩
  · exact .inr ⟨_, rfl, by simp [failureOfReading]⟩
  · exact .inr ⟨_, rfl, by simp [failureOfReading]⟩
  · refine .inr ⟨_, rfl, ?_⟩
    simp [failureOfReading, StorageError.errorClass, *]

/-- A script grants what is asked for if its result reads as one, and otherwise
fails with the class that the reading stands for. -/
theorem replying_of_script {call : LeaseCall} {script : LeaseScript} {arguments : List String}
    {conflict : String → StorageError}
    (h : ServerLease.script call = some (script, arguments, conflict))
    (hconflict : ∀ name, (conflict name).errorClass = .conflict) :
    (reading (lease.call reachable call replies).turns = .ok 1 ∧
      lease.replying reachable replies call = .ok (granted call)) ∨
    ∃ error, lease.replying reachable replies call = .error error ∧
      failureOfReading (reading (lease.call reachable call replies).turns) =
        some error.errorClass := by
  rw [replying, result_call h]
  cases hreading : reading (lease.call reachable call replies).turns with
  | ok n =>
      have hbind : (Except.ok n : Except ServerFailure Int).bind (lease.interpret conflict) =
          lease.interpret conflict n := rfl
      rw [hbind]
      rcases lease.interpret_cases hconflict n with ⟨rfl, hgranted⟩ | ⟨error, herror, hclass⟩
      · rw [hgranted]
        exact .inl ⟨rfl, rfl⟩
      · rw [herror]
        exact .inr ⟨error, rfl, hclass⟩
  | error failure =>
      cases failure with
      | refused error => exact absurd hreading (reading_ne_refused _ error)
      | unreachable => exact .inr ⟨_, rfl, rfl⟩
      | unusable => exact .inr ⟨_, rfl, rfl⟩

theorem replying_acquire (lease : ServerLease) (reachable : Bool) (replies : List ServerReply)
    (duration : Duration) (holder : Identifier) :
    (reading (lease.call reachable (.acquire duration holder) replies).turns = .ok 1 ∧
      lease.replying reachable replies (.acquire duration holder) = .ok holder) ∨
    ∃ error, lease.replying reachable replies (.acquire duration holder) = .error error ∧
      failureOfReading (reading (lease.call reachable (.acquire duration holder) replies).turns) =
        some error.errorClass :=
  replying_of_script rfl StorageError.errorClass_leaseAlreadyPresent

theorem replying_renew (lease : ServerLease) (reachable : Bool) (replies : List ServerReply)
    (holder : Identifier) :
    (reading (lease.call reachable (.renew holder) replies).turns = .ok 1 ∧
      lease.replying reachable replies (.renew holder) = .ok ()) ∨
    ∃ error, lease.replying reachable replies (.renew holder) = .error error ∧
      failureOfReading (reading (lease.call reachable (.renew holder) replies).turns) =
        some error.errorClass :=
  replying_of_script rfl StorageError.errorClass_leaseIdMismatch

/-- An object is there once the server has answered with any number. -/
theorem replying_ensure (lease : ServerLease) (reachable : Bool) (replies : List ServerReply) :
    ((∃ n, reading (lease.call reachable .ensure replies).turns = .ok n) ∧
      lease.replying reachable replies .ensure = .ok ()) ∨
    ((∀ n, reading (lease.call reachable .ensure replies).turns ≠ .ok n) ∧
      ∃ error, lease.replying reachable replies .ensure = .error error) := by
  have hresult : (lease.call reachable .ensure replies).result =
      (reading (lease.call reachable .ensure replies).turns).map fun _ => granted .ensure := by
    cases reachable with
    | false => rfl
    | true => rfl
  rw [replying, hresult]
  cases reading (lease.call reachable .ensure replies).turns with
  | ok n => exact .inl ⟨⟨n, rfl⟩, rfl⟩
  | error failure => exact .inr ⟨by simp, _, rfl⟩

section

variable {outcome : Except ServerFailure Int}

theorem failureOfReading_eq_conflict_iff :
    failureOfReading outcome = some .conflict ↔ outcome = .ok 0 ∨ outcome = .ok (-2) := by
  unfold failureOfReading
  split <;> simp_all

theorem failureOfReading_eq_notFound_iff :
    failureOfReading outcome = some .notFound ↔ outcome = .ok (-1) := by
  unfold failureOfReading
  split <;> simp_all

theorem failureOfReading_eq_transient_iff :
    failureOfReading outcome = some .transient ↔ outcome = .error .unreachable := by
  unfold failureOfReading
  split <;> simp_all

end

end ServerLease

end LeasedListener
