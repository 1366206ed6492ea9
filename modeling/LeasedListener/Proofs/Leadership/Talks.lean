import LeasedListener.Proofs.Leadership.News
import LeasedListener.Proofs.Lease.Server

/-!
# Talks with a lease server

In every step a contender talks with the server that keeps its lease, and the
server may say anything or be out of reach.  What a step comes to depends on
what the last replies of its talks read as: nothing but a one gives or prolongs
the lease.
-/

namespace LeasedListener

/-- What was said in a call on a server, and when the answer came. -/
structure Talk where
  call : LeaseCall
  turns : List ServerTurn
  time : Nat

namespace Talk

/-- The last reply of the talk reads as a number. -/
def Reads (talk : Talk) (n : Int) : Prop := ServerLease.reading talk.turns = .ok n

/-- The connection was refused or lost. -/
def IsCut (talk : Talk) : Prop := ServerLease.reading talk.turns = .error .unreachable

def Claims (config : LeaseConfig) (talk : Talk) : Prop :=
  talk.call = .acquire config.leaseDuration config.holder

def Renews (config : LeaseConfig) (talk : Talk) : Prop := talk.call = .renew config.holder

def Creates (talk : Talk) : Prop := talk.call = .ensure

/-- Whether the talk has given or prolonged the lease. -/
def succeeds (talk : Talk) : Bool :=
  match talk.call, ServerLease.reading talk.turns with
  | .acquire .., .ok 1 | .renew _, .ok 1 => true
  | _, _ => false

variable {config : LeaseConfig} {talk : Talk}

theorem Reads.eq {n : Int} (h : talk.Reads n) : ServerLease.reading talk.turns = .ok n := h

theorem IsCut.eq (h : talk.IsCut) : ServerLease.reading talk.turns = .error .unreachable := h

theorem IsCut.not_reads (h : talk.IsCut) (n : Int) : ¬ talk.Reads n := by
  simp [Reads, h.eq]

theorem not_reads_one {cause : ErrorClass}
    (h : ServerLease.failureOfReading (ServerLease.reading talk.turns) = some cause) :
    ¬ talk.Reads 1 := by
  intro one
  rw [one.eq] at h
  cases h

theorem unreadable_of_fatal (talk : Talk)
    (h : ServerLease.failureOfReading (ServerLease.reading talk.turns) = some .fatal) :
    ¬ (talk.Reads 0 ∨ talk.Reads (-2)) ∧ ¬ talk.Reads (-1) ∧ ¬ talk.IsCut := by
  refine ⟨?_, ?_, ?_⟩
  · rintro (zero | absent)
    · rw [zero.eq] at h
      cases h
    · rw [absent.eq] at h
      cases h
  · intro missing
    rw [missing.eq] at h
    cases h
  · intro cut
    rw [cut.eq] at h
    cases h

theorem succeeds_iff (h : talk.Claims config ∨ talk.Renews config) :
    talk.succeeds = true ↔ talk.Reads 1 := by
  unfold succeeds Reads
  rcases h with hclaims | hrenews
  · rw [hclaims]
    split <;> simp_all
  · rw [hrenews]
    split <;> simp_all

end Talk

/-- What a contender has and remembers. -/
structure Standing where
  held : Option Identifier
  lastRenewal : Option Nat

/-- A step that has ended, with its talks in turn. -/
structure StepAccount where
  before : Standing
  talks : List Talk
  after : Standing
  result : Except StorageError Unit

/-- When the lease was last given or prolonged, by the accounts of the steps so
far, the latest first. -/
def lastSuccess (accounts : List StepAccount) : Option Nat :=
  ((accounts.flatMap (·.talks.reverse)).find? (·.succeeds)).map (·.time)

theorem lastSuccess_cons (s : StepAccount) (earlier : List StepAccount) :
    lastSuccess (s :: earlier) =
      ((s.talks.reverse.find? (·.succeeds)).map (·.time)).or (lastSuccess earlier) := by
  simp only [lastSuccess, List.flatMap_cons, List.find?_append]
  cases s.talks.reverse.find? (·.succeeds) <;> rfl

/-- How the talks of a step have led to the call that it waits for. -/
inductive Course (config : LeaseConfig) : ContenderPhase → List Talk → Prop
  | acquiring : Course config .acquiring []
  | creating {claim : Talk} (claims : claim.Claims config) (missing : claim.Reads (-1)) :
      Course config .creating [claim]
  | renewing : Course config (.renewing config.holder) []
  | recreating {renewal : Talk} (renews : renewal.Renews config) (missing : renewal.Reads (-1)) :
      Course config (.recreating config.holder) [renewal]
  | reclaiming {renewal creation : Talk} (renews : renewal.Renews config)
      (missing : renewal.Reads (-1)) (creates : creation.Creates) {n : Int}
      (made : creation.Reads n) :
      Course config (.reclaiming config.holder) [renewal, creation]

/-- What a step comes to. -/
inductive Unfolds (config : LeaseConfig) : StepAccount → Prop
  | elected {last : Option Nat} {claim : Talk} (claims : claim.Claims config)
      (one : claim.Reads 1) :
      Unfolds config ⟨⟨none, last⟩, [claim], ⟨some config.holder, some claim.time⟩, .ok ()⟩
  | unelected {last : Option Nat} {claim : Talk} {result : Except StorageError Unit}
      (claims : claim.Claims config) (vain : ¬ claim.Reads 1) :
      Unfolds config ⟨⟨none, last⟩, [claim], ⟨none, last⟩, result⟩
  | created {last : Option Nat} {claim creation : Talk} {result : Except StorageError Unit}
      (claims : claim.Claims config) (missing : claim.Reads (-1)) (creates : creation.Creates) :
      Unfolds config ⟨⟨none, last⟩, [claim, creation], ⟨none, last⟩, result⟩
  | renewed {last : Nat} {renewal : Talk} (renews : renewal.Renews config)
      (one : renewal.Reads 1) :
      Unfolds config ⟨⟨some config.holder, some last⟩, [renewal],
        ⟨some config.holder, some renewal.time⟩, .ok ()⟩
  | deposed {last : Nat} {renewal : Talk} (renews : renewal.Renews config)
      (conflict : renewal.Reads 0 ∨ renewal.Reads (-2)) :
      Unfolds config ⟨⟨some config.holder, some last⟩, [renewal], ⟨none, none⟩, .ok ()⟩
  | bridged {last : Nat} {renewal : Talk} (renews : renewal.Renews config)
      (cut : renewal.IsCut) (recent : renewal.time < last + config.leaseDuration.nanos) :
      Unfolds config ⟨⟨some config.holder, some last⟩, [renewal],
        ⟨some config.holder, some last⟩, .ok ()⟩
  | expired {last : Nat} {renewal : Talk} (renews : renewal.Renews config)
      (cut : renewal.IsCut) (late : last + config.leaseDuration.nanos ≤ renewal.time) :
      Unfolds config ⟨⟨some config.holder, some last⟩, [renewal], ⟨none, none⟩, .ok ()⟩
  | denied {last : Nat} {renewal : Talk} {error : StorageError} (renews : renewal.Renews config)
      (one : ¬ renewal.Reads 1) (conflict : ¬ (renewal.Reads 0 ∨ renewal.Reads (-2)))
      (present : ¬ renewal.Reads (-1)) (uncut : ¬ renewal.IsCut) (fatal : error.isFatal = true) :
      Unfolds config ⟨⟨some config.holder, some last⟩, [renewal],
        ⟨some config.holder, some last⟩, .error error⟩
  | unmended {last : Nat} {renewal creation : Talk} {result : Except StorageError Unit}
      (renews : renewal.Renews config) (missing : renewal.Reads (-1))
      (creates : creation.Creates) (unmade : ∀ n, ¬ creation.Reads n) :
      Unfolds config ⟨⟨some config.holder, some last⟩, [renewal, creation], ⟨none, none⟩, result⟩
  | reclaimed {last : Nat} {renewal creation claim : Talk} (renews : renewal.Renews config)
      (missing : renewal.Reads (-1)) (creates : creation.Creates) {n : Int}
      (made : creation.Reads n) (claims : claim.Claims config) (one : claim.Reads 1) :
      Unfolds config ⟨⟨some config.holder, some last⟩, [renewal, creation, claim],
        ⟨some config.holder, some claim.time⟩, .ok ()⟩
  | unclaimed {last : Nat} {renewal creation claim : Talk} {result : Except StorageError Unit}
      (renews : renewal.Renews config) (missing : renewal.Reads (-1))
      (creates : creation.Creates) {n : Int} (made : creation.Reads n)
      (claims : claim.Claims config) (vain : ¬ claim.Reads 1) :
      Unfolds config ⟨⟨some config.holder, some last⟩, [renewal, creation, claim],
        ⟨none, none⟩, result⟩

namespace StepAccount

variable {config : LeaseConfig} {earlier : List StepAccount} {s : StepAccount}

/-- What follows the creation of an object that was missing. -/
def FollowsCreation (config : LeaseConfig) (s : StepAccount) (creation : Talk)
    (claims : List Talk) : Prop :=
  match ServerLease.reading creation.turns with
  | .ok _ => ∃ claim, claims = [claim] ∧ claim.Claims config ∧
      (s.after.held ≠ none ↔ claim.Reads 1)
  | .error _ => claims = [] ∧ s.after.held = none

/-- What follows a renewal, by what its last reply reads as. -/
def FollowsRenewal (config : LeaseConfig) (earlier : List StepAccount) (s : StepAccount)
    (renewal : Talk) (others : List Talk) : Prop :=
  match ServerLease.reading renewal.turns with
  | .ok 1 => others = [] ∧ s.after = ⟨s.before.held, some renewal.time⟩ ∧ s.result = .ok ()
  | .ok 0 | .ok (-2) => others = [] ∧ s.after.held = none ∧ s.result = .ok ()
  | .ok (-1) => ∃ creation claims, others = creation :: claims ∧ creation.Creates ∧
      s.FollowsCreation config creation claims
  | .error .unreachable => others = [] ∧ s.result = .ok () ∧
      (s.after.held ≠ none ↔ ∃ last, lastSuccess earlier = some last ∧
        renewal.time < last + config.leaseDuration.nanos)
  | _ => others = [] ∧ s.after = s.before ∧
      ∃ error, s.result = .error error ∧ error.isFatal = true

/-- Nothing but a one gives or prolongs the lease, and whatever else is heard
keeps, ends or repairs what is held. -/
structure FailsClosed (config : LeaseConfig) (earlier : List StepAccount) (s : StepAccount) :
    Prop where
  own : ∀ id, s.before.held = some id ∨ s.after.held = some id → id = config.holder
  won : s.before.held = none → s.after.held ≠ none →
    ∃ claim, s.talks = [claim] ∧ claim.Claims config ∧ claim.Reads 1
  refreshed : s.before.held ≠ none → ∀ time, s.after.lastRenewal = some time →
    s.before.lastRenewal ≠ some time →
    (∃ renewal, s.talks = [renewal] ∧ renewal.Renews config ∧ renewal.Reads 1) ∨
    ∃ renewal creation claim, s.talks = [renewal, creation, claim] ∧
      renewal.Renews config ∧ renewal.Reads (-1) ∧ creation.Creates ∧
      claim.Claims config ∧ claim.Reads 1
  renewal : s.before.held ≠ none → ∃ renewal others, s.talks = renewal :: others ∧
    renewal.Renews config ∧ s.FollowsRenewal config earlier renewal others

theorem lastSuccess_of_unfolds (h : Unfolds config s) (hheld : s.after.held ≠ none)
    (hbefore : s.before.held ≠ none → s.before.lastRenewal = lastSuccess earlier) :
    s.after.lastRenewal = lastSuccess (s :: earlier) := by
  rw [lastSuccess_cons]
  cases h with
  | elected claims one => simp [(Talk.succeeds_iff (.inl claims)).mpr one]
  | renewed renews one => simp [(Talk.succeeds_iff (.inr renews)).mpr one]
  | reclaimed _ _ _ _ claims one => simp [(Talk.succeeds_iff (.inl claims)).mpr one]
  | bridged renews cut _ =>
      have hvain := mt (Talk.succeeds_iff (.inr renews)).mp (cut.not_reads 1)
      simpa [hvain] using hbefore (by simp)
  | denied renews one _ _ _ _ =>
      have hvain := mt (Talk.succeeds_iff (.inr renews)).mp one
      simpa [hvain] using hbefore (by simp)
  | unelected | created | deposed | expired | unmended | unclaimed => exact absurd rfl hheld

theorem followsRenewal_of_unfolds (h : Unfolds config s) (hheld : s.before.held ≠ none)
    (hbefore : s.before.lastRenewal = lastSuccess earlier) :
    ∃ renewal others, s.talks = renewal :: others ∧ renewal.Renews config ∧
      s.FollowsRenewal config earlier renewal others := by
  cases h with
  | elected | unelected | created => exact absurd rfl hheld
  | renewed renews one => exact ⟨_, _, rfl, renews, by simp [FollowsRenewal, one.eq]⟩
  | deposed renews conflict =>
      refine ⟨_, _, rfl, renews, ?_⟩
      rcases conflict with zero | absent
      · simp [FollowsRenewal, zero.eq]
      · simp [FollowsRenewal, absent.eq]
  | bridged renews cut recent =>
      refine ⟨_, _, rfl, renews, ?_⟩
      simp [FollowsRenewal, cut.eq, ← hbefore, recent]
  | expired renews cut late =>
      refine ⟨_, _, rfl, renews, ?_⟩
      simp [FollowsRenewal, cut.eq, ← hbefore, late]
  | denied renews one conflict present uncut fatal =>
      refine ⟨_, _, rfl, renews, ?_⟩
      unfold FollowsRenewal
      split <;> simp_all [Talk.Reads, Talk.IsCut]
  | unmended renews missing creates unmade =>
      refine ⟨_, _, rfl, renews, ?_⟩
      simp only [FollowsRenewal, missing.eq]
      refine ⟨_, _, rfl, creates, ?_⟩
      unfold FollowsCreation
      split
      · next n hmade => exact absurd hmade (unmade n)
      · exact ⟨rfl, rfl⟩
  | reclaimed renews missing creates made claims one =>
      refine ⟨_, _, rfl, renews, ?_⟩
      simp only [FollowsRenewal, missing.eq]
      refine ⟨_, _, rfl, creates, ?_⟩
      simp [FollowsCreation, made.eq, claims, one]
  | unclaimed renews missing creates made claims vain =>
      refine ⟨_, _, rfl, renews, ?_⟩
      simp only [FollowsRenewal, missing.eq]
      refine ⟨_, _, rfl, creates, ?_⟩
      simp [FollowsCreation, made.eq, claims, vain]

theorem failsClosed_of_unfolds (h : Unfolds config s)
    (hbefore : s.before.held ≠ none → s.before.lastRenewal = lastSuccess earlier) :
    s.FailsClosed config earlier := by
  constructor
  case own => cases h <;> simp
  case won =>
      intro hunheld hheld
      cases h with
      | elected claims one => exact ⟨_, rfl, claims, one⟩
      | unelected | created => exact absurd rfl hheld
      | renewed | deposed | bridged | expired | denied | unmended | reclaimed | unclaimed =>
          simp at hunheld
  case refreshed =>
      intro hheld time hafter hfresh
      cases h with
      | renewed renews one => exact .inl ⟨_, rfl, renews, one⟩
      | reclaimed renews missing creates made claims one =>
          exact .inr ⟨_, _, _, rfl, renews, missing, creates, claims, one⟩
      | elected | unelected | created => exact absurd rfl hheld
      | bridged | denied => exact absurd hafter hfresh
      | deposed | expired | unmended | unclaimed => simp at hafter
  case renewal =>
      intro hheld
      exact followsRenewal_of_unfolds h hheld (hbefore hheld)

end StepAccount

/-- Where an answer leaves a step that has had these talks. -/
inductive TalksLead (config : LeaseConfig) (c : Contender) (status : Status) (talks : List Talk)
    (turn : ContenderTurn) : Prop
  | called {next : ContenderPhase} (move : turn.move = .call next) (contender : turn.contender = c)
      (status : turn.status = status) (course : Course config next talks)
  | finished {result : Except StorageError Unit} (move : turn.move = .finish result)
      (unfolds : Unfolds config ⟨⟨status.held, c.lastRenewal⟩, talks,
        ⟨turn.status.held, turn.contender.lastRenewal⟩, result⟩)

namespace Contender

/-- The talk in which a contender makes the call of a phase. -/
def talk (c : Contender) (server : ServerLease) (reachable : Bool) (replies : List ServerReply)
    (now : Nat) (phase : ContenderPhase) : Talk :=
  ⟨c.call phase, (server.call reachable (c.call phase) replies).turns, now⟩

/-- The conclusion of a contender from what a server says. -/
def hearken (c : Contender) (server : ServerLease) (reachable : Bool)
    (replies : List ServerReply) (status : Status) (now : Nat) (phase : ContenderPhase) :
    ContenderTurn :=
  c.answer status now phase (server.replying reachable replies (c.call phase))

variable {config : LeaseConfig} {c : Contender} {status : Status} {server : ServerLease}
  {reachable : Bool} {replies : List ServerReply} {now last : Nat} {talks : List Talk}
  {phase : ContenderPhase}

theorem talk_claims (hlength : c.leaseDuration = config.leaseDuration)
    (hclaim : c.call phase = .acquire c.leaseDuration config.holder) :
    (c.talk server reachable replies now phase).Claims config := by
  rw [Talk.Claims, talk, hclaim, hlength]

theorem lead_acquiring (hholder : c.holder = config.holder)
    (hlength : c.leaseDuration = config.leaseDuration) (hunheld : status.held = none) :
    TalksLead config c status [c.talk server reachable replies now .acquiring]
      (c.hearken server reachable replies status now .acquiring) := by
  have hclaims : (c.talk server reachable replies now .acquiring).Claims config :=
    talk_claims hlength (by rw [call, hholder])
  rcases server.replying_acquire reachable replies c.leaseDuration c.holder with
    ⟨one, hreply⟩ | ⟨error, hreply, hclass⟩
  · have hturn : c.hearken server reachable replies status now .acquiring =
        c.win status now c.holder [] := congrArg (c.answer status now .acquiring) hreply
    rw [hturn]
    refine .finished rfl ?_
    simp only [win, refreshed, Status.held_publish, hunheld, hholder]
    exact .elected hclaims one
  · have hturn : c.hearken server reachable replies status now .acquiring =
        c.acquireFailed status error := congrArg (c.answer status now .acquiring) hreply
    have hvain : ¬ (c.talk server reachable replies now .acquiring).Reads 1 :=
      Talk.not_reads_one hclass
    rw [hturn, acquireFailed]
    cases herror : error.errorClass with
    | conflict | transient | fatal =>
        refine .finished rfl ?_
        simp only [carryOn, hunheld]
        exact .unelected hclaims hvain
    | notFound =>
        rw [herror, ServerLease.failureOfReading_eq_notFound_iff] at hclass
        exact .called rfl rfl rfl (.creating hclaims hclass)

theorem lead_creating (hunheld : status.held = none) {claim : Talk}
    (claims : claim.Claims config) (missing : claim.Reads (-1)) :
    TalksLead config c status [claim, c.talk server reachable replies now .creating]
      (c.hearken server reachable replies status now .creating) := by
  have hunfolds {result : Except StorageError Unit} : Unfolds config
      ⟨⟨status.held, c.lastRenewal⟩, [claim, c.talk server reachable replies now .creating],
        ⟨status.held, c.lastRenewal⟩, result⟩ := by
    rw [hunheld]
    exact .created claims missing rfl
  unfold hearken
  cases server.replying reachable replies (c.call .creating) with
  | ok answered => exact .finished rfl hunfolds
  | error error =>
      simp only [answer, createFailed]
      split
      · exact .finished rfl hunfolds
      · exact .finished rfl hunfolds

theorem lead_renewing (hlength : c.leaseDuration = config.leaseDuration)
    (hheld : status.held = some config.holder) (hlast : c.lastRenewal = some last)
    (hpast : last ≤ now) :
    TalksLead config c status [c.talk server reachable replies now (.renewing config.holder)]
      (c.hearken server reachable replies status now (.renewing config.holder)) := by
  have hrenews : (c.talk server reachable replies now (.renewing config.holder)).Renews config :=
    rfl
  rcases server.replying_renew reachable replies config.holder with
    ⟨one, hreply⟩ | ⟨error, hreply, hclass⟩
  · have hturn : c.hearken server reachable replies status now (.renewing config.holder) =
        (c.refreshed now).carryOn status [.leaseRenewed c.lease config.holder]
          (.finish (.ok ())) :=
      congrArg (c.answer status now (.renewing config.holder)) hreply
    rw [hturn]
    refine .finished rfl ?_
    simp only [carryOn, refreshed, hheld, hlast]
    exact .renewed hrenews one
  · have hturn : c.hearken server reachable replies status now (.renewing config.holder) =
        c.renewFailed status now config.holder error :=
      congrArg (c.answer status now (.renewing config.holder)) hreply
    rw [hturn, renewFailed]
    -- the class of the error decides the turn, and tells the reading
    cases herror : error.errorClass with
    | conflict =>
        rw [herror, ServerLease.failureOfReading_eq_conflict_iff] at hclass
        refine .finished rfl ?_
        simp only [lose, lapsed, Status.held_publish, hheld, hlast]
        exact .deposed hrenews hclass
    | notFound =>
        rw [herror, ServerLease.failureOfReading_eq_notFound_iff] at hclass
        exact .called rfl rfl rfl (.recreating hrenews hclass)
    | transient =>
        rw [herror, ServerLease.failureOfReading_eq_transient_iff] at hclass
        have hexpired : ({ c with renewal := c.renewal.after false } : Contender).expired now =
            decide (last + config.leaseDuration.nanos ≤ now) := by
          simp only [expired, hlast, hlength, decide_eq_decide]
          omega
        simp only [hexpired]
        by_cases hlate : last + config.leaseDuration.nanos ≤ now
        · rw [if_pos (decide_eq_true hlate)]
          refine .finished rfl ?_
          simp only [lose, lapsed, Status.held_publish, hheld, hlast]
          exact .expired hrenews hclass hlate
        · rw [if_neg (by simpa using hlate)]
          refine .finished rfl ?_
          simp only [carryOn, hheld, hlast]
          exact .bridged hrenews hclass (Nat.lt_of_not_le hlate)
    | fatal =>
        refine .finished rfl ?_
        simp only [carryOn, hheld, hlast]
        rw [herror] at hclass
        obtain ⟨hconflict, hpresent, huncut⟩ :=
          (c.talk server reachable replies now (.renewing config.holder)).unreadable_of_fatal hclass
        exact .denied hrenews (Talk.not_reads_one hclass) hconflict hpresent huncut
          (by simp [StorageError.isFatal, herror])

theorem lead_recreating (hheld : status.held = some config.holder)
    (hlast : c.lastRenewal = some last) {renewal : Talk} (renews : renewal.Renews config)
    (missing : renewal.Reads (-1)) :
    TalksLead config c status
      [renewal, c.talk server reachable replies now (.recreating config.holder)]
      (c.hearken server reachable replies status now (.recreating config.holder)) := by
  rcases server.replying_ensure reachable replies with
    ⟨⟨n, made⟩, hreply⟩ | ⟨unmade, error, hreply⟩
  · have hturn : c.hearken server reachable replies status now (.recreating config.holder) =
        c.carryOn status [] (.call (.reclaiming config.holder)) :=
      congrArg (c.answer status now (.recreating config.holder)) hreply
    rw [hturn]
    exact .called rfl rfl rfl (.reclaiming renews missing rfl made)
  · have hturn : c.hearken server reachable replies status now (.recreating config.holder) =
        c.recreateFailed status error :=
      congrArg (c.answer status now (.recreating config.holder)) hreply
    rw [hturn]
    refine .finished rfl ?_
    simp only [recreateFailed, lose, lapsed, Status.held_publish, hheld, hlast]
    exact .unmended renews missing rfl unmade

theorem lead_reclaiming (hlength : c.leaseDuration = config.leaseDuration)
    (hheld : status.held = some config.holder) (hlast : c.lastRenewal = some last)
    {renewal creation : Talk} (renews : renewal.Renews config) (missing : renewal.Reads (-1))
    (creates : creation.Creates) {n : Int} (made : creation.Reads n) :
    TalksLead config c status
      [renewal, creation, c.talk server reachable replies now (.reclaiming config.holder)]
      (c.hearken server reachable replies status now (.reclaiming config.holder)) := by
  have hclaims :
      (c.talk server reachable replies now (.reclaiming config.holder)).Claims config :=
    talk_claims hlength rfl
  rcases server.replying_acquire reachable replies c.leaseDuration config.holder with
    ⟨one, hreply⟩ | ⟨error, hreply, hclass⟩
  · have hturn : c.hearken server reachable replies status now (.reclaiming config.holder) =
        c.win status now config.holder [.leaseObjectRecreated c.lease config.holder] :=
      congrArg (c.answer status now (.reclaiming config.holder)) hreply
    rw [hturn]
    refine .finished rfl ?_
    simp only [win, refreshed, Status.held_publish, hheld, hlast]
    exact .reclaimed renews missing creates made hclaims one
  · have hturn : c.hearken server reachable replies status now (.reclaiming config.holder) =
        c.recreateFailed status error :=
      congrArg (c.answer status now (.reclaiming config.holder)) hreply
    have hvain :
        ¬ (c.talk server reachable replies now (.reclaiming config.holder)).Reads 1 :=
      Talk.not_reads_one hclass
    rw [hturn]
    refine .finished rfl ?_
    simp only [recreateFailed, lose, lapsed, Status.held_publish, hheld, hlast]
    exact .unclaimed renews missing creates made hclaims hvain

/-- The talks of a step, with the one that has been heard, lead to another call
or to the end of the step. -/
theorem talks_lead (hholder : c.holder = config.holder)
    (hlength : c.leaseDuration = config.leaseDuration) (hfits : phase.lease? = status.held)
    (hlast : status.held ≠ none → ∃ last, c.lastRenewal = some last ∧ last ≤ now)
    (hcourse : Course config phase talks) :
    TalksLead config c status (talks ++ [c.talk server reachable replies now phase])
      (c.hearken server reachable replies status now phase) := by
  cases hcourse with
  | acquiring => exact lead_acquiring hholder hlength hfits.symm
  | creating claims missing => exact lead_creating hfits.symm claims missing
  | renewing =>
      obtain ⟨last, hlast, hpast⟩ := hlast (by simp [← hfits, ContenderPhase.lease?])
      exact lead_renewing hlength hfits.symm hlast hpast
  | recreating renews missing =>
      obtain ⟨last, hlast, -⟩ := hlast (by simp [← hfits, ContenderPhase.lease?])
      exact lead_recreating hfits.symm hlast renews missing
  | reclaiming renews missing creates made =>
      obtain ⟨last, hlast, -⟩ := hlast (by simp [← hfits, ContenderPhase.lease?])
      exact lead_reclaiming hlength hfits.symm hlast renews missing creates made

theorem talk_kind (hholder : c.holder = config.holder)
    (hlength : c.leaseDuration = config.leaseDuration) (hcourse : Course config phase talks) :
    (c.talk server reachable replies now phase).Claims config ∨
    (c.talk server reachable replies now phase).Renews config ∨
    (c.talk server reachable replies now phase).Creates := by
  cases hcourse with
  | acquiring => exact .inl (talk_claims hlength (by rw [call, hholder]))
  | reclaiming => exact .inl (talk_claims hlength rfl)
  | renewing => exact .inr (.inl rfl)
  | creating | recreating => exact .inr (.inr rfl)

end Contender

end LeasedListener
