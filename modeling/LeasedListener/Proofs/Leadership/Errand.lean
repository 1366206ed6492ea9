import LeasedListener.Proofs.Leadership.Backing

/-!
# Calls under way

A call on a lease object takes effect at some moment between its sending and
its answer.  A site is a lease object together with the call that a
coordinator has under way there; where the call has taken effect already, the
site keeps its outcome until the answer arrives.
-/

namespace LeasedListener

open Surroundings

structure Errand where
  call : LeaseCall
  transit : Transit
  /-- Whether the call has succeeded, once it has taken effect. -/
  outcome? : Option (Except StorageError Unit)

structure Site where
  now : Nat
  wallClock : Timestamp
  object : LeaseObject
  errand? : Option Errand
  /-- The calls so far, the latest first. -/
  sent : List LeaseCall

instance : Surroundings Site where
  now s := s.now
  wallClock s := s.wallClock
  report s _ := s

namespace LeaseCall

def outcomeOf {call : LeaseCall} (reply : Except StorageError call.Reply) :
    Except StorageError Unit :=
  reply.map fun _ => ()

/-- The answer that goes with an outcome: who acquires the lease is told the
identity under which it did. -/
def answer : (call : LeaseCall) → Except StorageError Unit → Except StorageError call.Reply
  | .acquire _ holder, outcome => outcome.map fun _ => holder
  | .renew _, outcome | .release _, outcome | .ensure, outcome => outcome

variable {lease : String} {now : Nat} {object : LeaseObject} {call : LeaseCall} {transit : Transit}

theorem outcomeOf_eq_error_iff {reply : Except StorageError call.Reply} {error : StorageError} :
    outcomeOf reply = .error error ↔ reply = .error error := by
  cases reply <;> simp [outcomeOf, Except.map]

theorem answer_error_iff {outcome : Except StorageError Unit} {error : StorageError} :
    call.answer outcome = .error error ↔ outcome = .error error := by
  cases call with
  | acquire => cases outcome <;> simp [answer, Except.map]
  | renew | release | ensure => rfl

theorem answer_outcomeOf_run :
    call.answer (outcomeOf (call.run lease now object).2) = (call.run lease now object).2 := by
  cases hreply : (call.run lease now object).2 with
  | error error => exact answer_error_iff.mpr rfl
  | ok reply =>
      cases call with
      | acquire duration holder =>
          have hholder : reply = holder := (LeaseObject.acquire_of_ok hreply).2
          rw [hholder]
          rfl
      | renew | release | ensure => rfl

theorem answer_outcomeOf_carry :
    call.answer (outcomeOf (transit.carry (call.run lease now) object).2) =
      (transit.carry (call.run lease now) object).2 := by
  cases hreply : (transit.carry (call.run lease now) object).2 with
  | error error => exact answer_error_iff.mpr rfl
  | ok reply =>
      have hrun : (call.run lease now object).2 = .ok reply := by
        rw [← Transit.carry_of_ok hreply]
        exact hreply
      rw [← hrun]
      exact answer_outcomeOf_run

end LeaseCall

namespace Site

variable {lease : String} {s s' : Site} {call : LeaseCall} {transit next : Transit}

def outcome? (s : Site) : Option (Except StorageError Unit) := s.errand?.bind Errand.outcome?

def send (s : Site) (call : LeaseCall) (transit : Transit) : Site :=
  { s with errand? := some ⟨call, transit, none⟩, sent := call :: s.sent }

/-- The call under way takes effect. -/
def effect (lease : String) (s : Site) (call : LeaseCall) (transit : Transit) : Site :=
  { s with
    object := (transit.carry (call.run lease s.now) s.object).1
    errand? := some ⟨call, transit,
      some (LeaseCall.outcomeOf (transit.carry (call.run lease s.now) s.object).2)⟩ }

/-- A lease object behind a service that treats the next call in the given
way. -/
def access (lease : String) (transit : Transit) : LeaseAccess Site where
  issue s call := (s.send call transit, transit)
  perform s call transit :=
    match s.outcome? with
    | some outcome => ({ s with errand? := none }, call.answer outcome)
    | none =>
        ({ s with
            object := (transit.carry (call.run lease s.now) s.object).1
            errand? := none },
          (transit.carry (call.run lease s.now) s.object).2)

@[simp] theorem reportAll_eq (s : Site) (events : List Event) : reportAll s events = s := by
  induction events with
  | nil => rfl
  | cons event events ih => exact ih

theorem perform_of_outcome {outcome : Except StorageError Unit} (h : s.outcome? = some outcome) :
    (access lease next).perform s call transit =
      ({ s with errand? := none }, call.answer outcome) := by
  simp only [access, h]

/-- A call that takes effect ahead of its answer is answered in the same way. -/
theorem perform_effect (h : s.outcome? = none) :
    (access lease next).perform (s.effect lease call transit) call transit =
      (access lease next).perform s call transit := by
  rw [perform_of_outcome (s := s.effect lease call transit) rfl, LeaseCall.answer_outcomeOf_carry]
  simp only [access, h, effect]

/-- The conclusion from the answer to a call. -/
def heard (lease : String) (s : Site) (status : Status) (c : Contender) (waiting : ContenderCall) :
    ContenderTurn :=
  c.answer status s.now waiting.phase
    ((access lease waiting.transit).perform s (c.call waiting.phase) waiting.transit).2

/-- The site after an answer, and after the call that follows from it. -/
def after (lease : String) (s : Site) (turn : ContenderTurn) (c : Contender)
    (waiting : ContenderCall) (next : Transit) : Site :=
  let answered :=
    ((access lease waiting.transit).perform s (c.call waiting.phase) waiting.transit).1
  match turn.move.phase? with
  | none => answered
  | some phase => answered.send (turn.contender.call phase) next

theorem heard_effect (h : s.outcome? = none) (status : Status) (c : Contender)
    (waiting : ContenderCall) :
    (s.effect lease (c.call waiting.phase) waiting.transit).heard lease status c waiting =
      s.heard lease status c waiting := by
  unfold heard
  rw [perform_effect h]
  rfl

theorem after_effect (h : s.outcome? = none) (turn : ContenderTurn) (c : Contender)
    (waiting : ContenderCall) (next : Transit) :
    (s.effect lease (c.call waiting.phase) waiting.transit).after lease turn c waiting next =
      s.after lease turn c waiting next := by
  unfold after
  rw [perform_effect h]

/-- What follows an answer is the next call, if there is one. -/
theorem of_follows {timer : String} {status : Status} {contender : Contender}
    {waiting : ContenderCall} {following : Option ContenderCall}
    (h : Coordinator.Follows (access lease next) timer
      (Coordinator.told (access lease next) s status contender waiting)
      (s.heard lease status contender waiting) following s') :
    following = (s.heard lease status contender waiting).move.phase?.map (⟨·, next⟩) ∧
      s' = s.after lease (s.heard lease status contender waiting) contender waiting next := by
  rw [Coordinator.told, reportAll_eq] at h
  cases h with
  | calls move | finishes move | fails move =>
      simp only [after, move]
      exact ⟨rfl, rfl⟩

theorem sent_perform (lease : String) (next : Transit) (s : Site) (call : LeaseCall)
    (transit : Transit) : ((access lease next).perform s call transit).1.sent = s.sent := by
  simp only [access]
  split <;> rfl

theorem errand?_perform (lease : String) (next : Transit) (s : Site) (call : LeaseCall)
    (transit : Transit) : ((access lease next).perform s call transit).1.errand? = none := by
  simp only [access]
  split <;> rfl

theorem errand?_after (lease : String) (s : Site) (turn : ContenderTurn) (c : Contender)
    (waiting : ContenderCall) (next : Transit) :
    (s.after lease turn c waiting next).errand? =
      turn.move.phase?.map fun phase => ⟨turn.contender.call phase, next, none⟩ := by
  unfold after
  cases hmove : turn.move.phase? with
  | none => exact errand?_perform lease waiting.transit s (c.call waiting.phase) waiting.transit
  | some phase => rfl

theorem object_after_of_outcome {outcome : Except StorageError Unit}
    (h : s.outcome? = some outcome) (turn : ContenderTurn) (c : Contender)
    (waiting : ContenderCall) (next : Transit) :
    (s.after lease turn c waiting next).object = s.object := by
  unfold after
  rw [perform_of_outcome h]
  cases turn.move.phase? <;> rfl

theorem heard_of_outcome {outcome : Except StorageError Unit} (h : s.outcome? = some outcome)
    (status : Status) (c : Contender) (waiting : ContenderCall) :
    s.heard lease status c waiting =
      c.answer status s.now waiting.phase ((c.call waiting.phase).answer outcome) := by
  rw [heard, perform_of_outcome h]

end Site

end LeasedListener
