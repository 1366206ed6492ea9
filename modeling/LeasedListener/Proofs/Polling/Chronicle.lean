import LeasedListener.Proofs.Polling.Logic
import LeasedListener.Proofs.Queue.Evolution
import LeasedListener.Proofs.Scenario.Effects

/-!
# Chronicles of a polling site

Pollers and other clients share a queue, and the pollers may share a poison
queue.  A chronicle beside the world keeps every message that was ever seen in
one of the two queues, and every run of a user function that was ever on
record.  A message that has left the queue is settled: a run on it has
succeeded, or it failed too often and its body was copied to the poison queue.
-/

namespace LeasedListener

open Surroundings

def RunRecord.IsOf (run : RunRecord) (m : Delivery) : Prop :=
  run.message = m.id ∧ run.dequeueCount = m.dequeueCount ∧ run.body = m.body

theorem RunRecord.IsOf.renewed {run : RunRecord} {m m' : Delivery} (h : run.IsOf m)
    (hsame : SameContent m m') : run.IsOf m' :=
  ⟨h.1.trans hsame.1.symm, h.2.1.trans hsame.2.2.symm, h.2.2.trans hsame.2.1.symm⟩

theorem RunRecord.IsOf.finished {run : RunRecord} {m : Delivery} (h : run.IsOf m) (now : Nat)
    (result : Except String Bool) : (run.finished now result).IsOf m := by
  cases result <;> exact h

structure Chronicle where
  arrived : List StoredMessage
  shelved : List StoredMessage
  /-- The runs, with the names of their executors. -/
  runs : List (String × RunRecord)

namespace Chronicle

def noteQueues (primary poison : String) (h : Chronicle) (w : World) : Chronicle :=
  { h with
    arrived := (w.queue primary).messages ++ h.arrived
    shelved := (w.queue poison).messages ++ h.shelved }

def noteRuns (name : String) (h : Chronicle) (w : World) : Chronicle :=
  { h with runs := (w.executor name).records.map (name, ·) ++ h.runs }

end Chronicle

def QueueAccess.chronicled (primary poison : String) (a : QueueAccess World) :
    QueueAccess (World × Chronicle) where
  issue env call := (((a.issue env.1 call).1, env.2), (a.issue env.1 call).2)
  perform env call transit :=
    (((a.perform env.1 call transit).1,
      env.2.noteQueues primary poison (a.perform env.1 call transit).1),
      (a.perform env.1 call transit).2)

def PollerAccess.chronicled (primary poison name : String) (a : PollerAccess World) :
    PollerAccess (World × Chronicle) where
  queue := QueueAccess.chronicled primary poison a.queue
  poison := QueueAccess.chronicled primary poison a.poison
  mark env m := (a.mark env.1 m, env.2)
  execute env m :=
    (((a.execute env.1 m).1, env.2.noteRuns name (a.execute env.1 m).1), (a.execute env.1 m).2)
  finish env e result :=
    (a.finish env.1 e result, env.2.noteRuns name (a.finish env.1 e result))

/-- Pollers of one queue, with or without its poison queue. -/
structure PollingSite (ι : Type) where
  primary : String
  poison : String
  distinct : primary ≠ poison
  names : ι → String
  configs : ι → PollingConfig
  quarantines : ι → Bool

namespace PollingSite

variable {ι : Type}

def poller (S : PollingSite ι) (i : ι) : Poller where
  queue := S.primary
  poison := if S.quarantines i then some S.poison else none
  config := S.configs i

def access (S : PollingSite ι) (i : ι) : PollerAccess (World × Chronicle) :=
  (World.pollerAccess (S.names i) S.primary (S.poller i).poison (S.names i)).chronicled
    S.primary S.poison (S.names i)

def Succeeded (S : PollingSite ι) (env : World × Chronicle) (id : MessageId) : Prop :=
  ∃ i run ended, (S.names i, run) ∈ env.2.runs ∧ run.message = id ∧
    run.outcome = some (ended, true)

/-- After a run on the message that failed and was its last, its body was
written to the poison queue under the identity that the report names. -/
def Quarantined (S : PollingSite ι) (env : World × Chronicle) (id : MessageId)
    (body : List UInt8) : Prop :=
  ∃ i run ended copy entry, (S.names i, run) ∈ env.2.runs ∧ run.message = id ∧
    run.body = body ∧ run.outcome = some (ended, false) ∧
    (S.configs i).maxDequeueCount ≤ run.dequeueCount ∧
    copy ∈ env.2.shelved ∧ copy.body = body ∧ entry ∈ env.1.log ∧ ended ≤ entry.time ∧
    entry.event = .messageQuarantined S.primary S.poison id copy.id run.dequeueCount

def Settled (S : PollingSite ι) (env : World × Chronicle) (id : MessageId)
    (body : List UInt8) : Prop :=
  S.Succeeded env id ∨ S.Quarantined env id body

def Delivered (env : World × Chronicle) (m : Delivery) : Prop :=
  ∃ stored ∈ env.2.arrived, stored.id = m.id ∧ stored.body = m.body

def Ended (S : PollingSite ι) (i : ι) (env : World × Chronicle) (m : Delivery)
    (succeeded : Bool) : Prop :=
  Delivered env m ∧ ∃ run ended, (S.names i, run) ∈ env.2.runs ∧ run.IsOf m ∧
    run.outcome = some (ended, succeeded) ∧ ended ≤ env.1.now

/-- What is kept by everything that happens at a site. -/
structure Valid (S : PollingSite ι) (env : World × Chronicle) : Prop where
  arrived : ∀ m ∈ (env.1.queue S.primary).messages, m ∈ env.2.arrived
  numbered : ∀ m ∈ env.2.arrived, m.id.serial < env.1.serials.message
  coherent : ∀ m ∈ env.2.arrived, ∀ m' ∈ env.2.arrived, m.id = m'.id → m.body = m'.body
  accounted : ∀ m ∈ env.2.arrived,
    (env.1.queue S.primary).Stores m.id m.body ∨ S.Settled env m.id m.body
  scripted : ∀ i, ∃ script standard,
    (env.1.executor (S.names i)).behaviour = .scripted script standard

/-- What never goes away. -/
structure Grows (S : PollingSite ι) (env env' : World × Chronicle) : Prop where
  later : env.1.now ≤ env'.1.now
  arrived : env.2.arrived ⊆ env'.2.arrived
  shelved : env.2.shelved ⊆ env'.2.shelved
  runs : env.2.runs ⊆ env'.2.runs
  log : env.1.log ⊆ env'.1.log
  records : ∀ (i : ι) (k : Nat) (m : Delivery),
    (∃ run, (env.1.executor (S.names i)).records[k]? = some run ∧ run.IsOf m) →
      ∃ run, (env'.1.executor (S.names i)).records[k]? = some run ∧ run.IsOf m

def Follows (S : PollingSite ι) (env env' : World × Chronicle) : Prop :=
  S.Valid env → S.Valid env' ∧ S.Grows env env'

variable {S : PollingSite ι} {env env' env'' : World × Chronicle}

theorem Grows.refl (S : PollingSite ι) (env : World × Chronicle) : S.Grows env env where
  later := Nat.le_refl _
  arrived := List.Subset.refl _
  shelved := List.Subset.refl _
  runs := List.Subset.refl _
  log := List.Subset.refl _
  records := fun _ _ _ hrun => hrun

theorem Grows.trans (h : S.Grows env env') (h' : S.Grows env' env'') : S.Grows env env'' where
  later := Nat.le_trans h.later h'.later
  arrived := List.Subset.trans h.arrived h'.arrived
  shelved := List.Subset.trans h.shelved h'.shelved
  runs := List.Subset.trans h.runs h'.runs
  log := List.Subset.trans h.log h'.log
  records := fun i k m hrun => h'.records i k m (h.records i k m hrun)

theorem Follows.refl (S : PollingSite ι) (env : World × Chronicle) : S.Follows env env :=
  fun hvalid => ⟨hvalid, .refl S env⟩

theorem Follows.trans (h : S.Follows env env') (h' : S.Follows env' env'') :
    S.Follows env env'' := by
  intro hvalid
  obtain ⟨hvalid', hgrows⟩ := h hvalid
  obtain ⟨hvalid'', hgrows'⟩ := h' hvalid'
  exact ⟨hvalid'', hgrows.trans hgrows'⟩

theorem Delivered.grow {m : Delivery} (h : Delivered env m) (hgrows : S.Grows env env') :
    Delivered env' m := by
  obtain ⟨stored, hstored, hid, hbody⟩ := h
  exact ⟨stored, hgrows.arrived hstored, hid, hbody⟩

theorem Delivered.renewed {m m' : Delivery} (h : Delivered env m) (hsame : SameContent m m') :
    Delivered env m' := by
  obtain ⟨stored, hstored, hid, hbody⟩ := h
  exact ⟨stored, hstored, hid.trans hsame.1.symm, hbody.trans hsame.2.1.symm⟩

theorem Ended.grow {i : ι} {m : Delivery} {succeeded : Bool} (h : S.Ended i env m succeeded)
    (hgrows : S.Grows env env') : S.Ended i env' m succeeded := by
  obtain ⟨hdelivered, run, ended, hrun, hof, houtcome, hpast⟩ := h
  exact ⟨hdelivered.grow hgrows, run, ended, hgrows.runs hrun, hof, houtcome,
    Nat.le_trans hpast hgrows.later⟩

theorem Settled.grow {id : MessageId} {body : List UInt8} (h : S.Settled env id body)
    (hgrows : S.Grows env env') : S.Settled env' id body := by
  rcases h with ⟨i, run, ended, hrun, hmessage, houtcome⟩ |
    ⟨i, run, ended, copy, entry, hrun, hmessage, hbody, houtcome, hoften, hcopy, hsame, hentry,
      hlater, hevent⟩
  · exact .inl ⟨i, run, ended, hgrows.runs hrun, hmessage, houtcome⟩
  · exact .inr ⟨i, run, ended, copy, entry, hgrows.runs hrun, hmessage, hbody, houtcome, hoften,
      hgrows.shelved hcopy, hsame, hgrows.log hentry, hlater, hevent⟩

/-- What a tick of one of the pollers knows about the message in its hands. -/
def Knows (S : PollingSite ι) (i : ι) (env : World × Chronicle) : TickAssertion → Prop
  | .sane => True
  | .delivered m => Delivered env m
  | .running m execution =>
      Delivered env m ∧
      ∃ run, (env.1.executor (S.names i)).records[execution.serial]? = some run ∧ run.IsOf m
  | .ended m succeeded => S.Ended i env m succeeded
  | .condemned m =>
      (S.quarantines i = true ∧ (S.configs i).maxDequeueCount ≤ m.dequeueCount) ∧
      S.Ended i env m false
  | .settled m => Delivered env m ∧ S.Settled env m.id m.body

def logic (S : PollingSite ι) (i : ι) : TickLogic (World × Chronicle) where
  follows := S.Follows
  holds env assertion := S.Valid env ∧ S.Knows i env assertion

theorem Knows.grow {i : ι} {assertion : TickAssertion} (h : S.Knows i env assertion)
    (hgrows : S.Grows env env') : S.Knows i env' assertion := by
  cases assertion with
  | sane => trivial
  | delivered m => exact Delivered.grow h hgrows
  | running m execution => exact ⟨h.1.grow hgrows, hgrows.records i _ m h.2⟩
  | ended m succeeded => exact Ended.grow h hgrows
  | condemned m => exact ⟨h.1, h.2.grow hgrows⟩
  | settled m => exact ⟨h.1.grow hgrows, h.2.grow hgrows⟩

/-- What may happen to the queues of a site at once: messages that are settled
leave the queue, and one with a new number may enter it. -/
structure Shifts (S : PollingSite ι) (env : World × Chronicle) (w : World) : Prop where
  later : env.1.now ≤ w.now
  log : env.1.log ⊆ w.log
  records : ∀ i, (w.executor (S.names i)).records = (env.1.executor (S.names i)).records
  scripted : ∀ i, ∃ script standard,
    (w.executor (S.names i)).behaviour = .scripted script standard
  serials : env.1.serials.message ≤ w.serials.message
  kept : ∀ id body, (env.1.queue S.primary).Stores id body →
    (w.queue S.primary).Stores id body ∨ S.Settled env id body
  added : ∃ added, ∀ id body, (w.queue S.primary).Stores id body →
    (env.1.queue S.primary).Stores id body ∨
      (id = env.1.serials.freshMessage ∧ body = added ∧
        env.1.serials.message < w.serials.message)

theorem Shifts.grows {w : World} (h : S.Shifts env w) :
    S.Grows env (w, env.2.noteQueues S.primary S.poison w) where
  later := h.later
  arrived := List.subset_append_right ..
  shelved := List.subset_append_right ..
  runs := List.Subset.refl _
  log := h.log
  records := by
    intro i k m hrun
    rw [h.records i]
    exact hrun

theorem Valid.stored (hvalid : S.Valid env) {id : MessageId} {body : List UInt8}
    (h : (env.1.queue S.primary).Stores id body) :
    ∃ m ∈ env.2.arrived, m.id = id ∧ m.body = body := by
  obtain ⟨m, hm, hid, hbody⟩ := h
  exact ⟨m, hvalid.arrived m hm, hid, hbody⟩

theorem Valid.isCoherent (hvalid : S.Valid env) : (env.1.queue S.primary).IsCoherent := by
  intro id body body' h h'
  obtain ⟨m, hm, hid, hbody⟩ := hvalid.stored h
  obtain ⟨m', hm', hid', hbody'⟩ := hvalid.stored h'
  rw [← hbody, ← hbody']
  exact hvalid.coherent m hm m' hm' (hid.trans hid'.symm)

theorem Shifts.arrived {w : World} (h : S.Shifts env w) (hvalid : S.Valid env) :
    ∃ added, ∀ m ∈ (env.2.noteQueues S.primary S.poison w).arrived,
      (∃ known ∈ env.2.arrived, known.id = m.id ∧ known.body = m.body) ∨
        (m.id = env.1.serials.freshMessage ∧ m.body = added ∧
          env.1.serials.message < w.serials.message) := by
  obtain ⟨added, hadded⟩ := h.added
  refine ⟨added, ?_⟩
  intro m hm
  rcases List.mem_append.mp hm with hnow | hbefore
  · exact (hadded m.id m.body (Queue.stores_of_mem hnow)).imp_left hvalid.stored
  · exact .inl ⟨m, hbefore, rfl, rfl⟩

theorem Shifts.valid {w : World} (h : S.Shifts env w) (hvalid : S.Valid env) :
    S.Valid (w, env.2.noteQueues S.primary S.poison w) := by
  obtain ⟨added, hadded⟩ := h.arrived hvalid
  constructor
  case arrived =>
      intro m hm
      exact List.mem_append_left _ hm
  case numbered =>
      intro m hm
      rcases hadded m hm with ⟨known, hknown, hid, -⟩ | ⟨hid, -, hless⟩
      · rw [← hid]
        exact Nat.lt_of_lt_of_le (hvalid.numbered known hknown) h.serials
      · rw [hid]
        exact hless
  case coherent =>
      intro m hm m' hm' hsame
      have hnew : ∀ known ∈ env.2.arrived, known.id ≠ env.1.serials.freshMessage := by
        intro known hknown hfresh
        have hless := hvalid.numbered known hknown
        rw [hfresh] at hless
        exact Nat.lt_irrefl _ hless
      rcases hadded m hm with ⟨known, hknown, hid, hbody⟩ | ⟨hid, hbody, -⟩ <;>
        rcases hadded m' hm' with ⟨known', hknown', hid', hbody'⟩ | ⟨hid', hbody', -⟩
      · rw [← hbody, ← hbody']
        exact hvalid.coherent known hknown known' hknown' (by rw [hid, hid', hsame])
      · exact absurd (hid.trans (hsame.trans hid')) (hnew known hknown)
      · exact absurd (hid'.trans (hsame.symm.trans hid)) (hnew known' hknown')
      · rw [hbody, hbody']
  case accounted =>
      intro m hm
      rcases List.mem_append.mp hm with hnow | hbefore
      · exact .inl (Queue.stores_of_mem hnow)
      · rcases hvalid.accounted m hbefore with hstored | hsettled
        · exact (h.kept m.id m.body hstored).imp_right fun hsettled => hsettled.grow h.grows
        · exact .inr (hsettled.grow h.grows)
  case scripted => exact h.scripted

end PollingSite

end LeasedListener
