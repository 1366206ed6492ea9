import LeasedListener.Proofs.Leadership.Annals
import LeasedListener.Proofs.Leadership.Talks

/-!
# Contenders whose lease is kept by a server

Annals of a contender whose calls are answered by a server.  The server may say
anything in the course of time, and may be out of reach for any of the calls.
-/

namespace LeasedListener

/-- The annals of a contender, with the replies that the server has yet to
send, and with the talks behind every answer. -/
structure Parley where
  annals : Annals
  incoming : List ServerReply
  /-- What the contender had when the step under way began. -/
  outset : Standing
  /-- The talks of the step under way, in turn. -/
  talks : List Talk
  /-- The steps that have ended, the latest first. -/
  accounts : List StepAccount

def Annals.standing (a : Annals) : Standing := ⟨a.status.held, a.contender.lastRenewal⟩

namespace Parley

abbrev Doings := Progress ((Scene × Status) × Contender) ContenderCall (Except StorageError Unit)

def start (server : ServerLease) (config : LeaseConfig) (now : Nat) (wallClock : Timestamp)
    (incoming : List ServerReply) : Parley where
  annals := .start server.name config now wallClock
  incoming := incoming
  outset := ⟨none, none⟩
  talks := []
  accounts := []

def drive (p : Parley) (server : ServerLease) (transit : Transit) (reachable : Bool) :
    Drive (Scene × Status) Contender ContenderCall :=
  Coordinator.drive (Scene.answering transit (server.replying reachable p.incoming))

/-- A step begins. -/
def begin (p : Parley) (server : ServerLease) (transit : Transit) (reachable : Bool) : Parley :=
  { p with
    annals := p.annals.note []
      ((p.drive server transit reachable).enter (p.annals.scene, p.annals.status)
        p.annals.contender)
    outset := p.annals.standing
    talks := [] }

/-- The talk in which the call under way is answered. -/
def talk (p : Parley) (server : ServerLease) (reachable : Bool) (call : ContenderCall) : Talk :=
  p.annals.contender.talk server reachable p.incoming p.annals.scene.now call.phase

/-- What the contender makes of the answer. -/
def turn (p : Parley) (server : ServerLease) (reachable : Bool) (call : ContenderCall) :
    ContenderTurn :=
  p.annals.turn call (server.replying reachable p.incoming)

/-- The answer to a call arrives, and leads to this. -/
def heed (p : Parley) (server : ServerLease) (reachable : Bool) (call : ContenderCall)
    (progress : Doings) : Parley :=
  let annals := p.annals.note
    (p.annals.recordOf call (server.replying reachable p.incoming) :: p.annals.calls) progress
  let talks := p.talks ++ [p.talk server reachable call]
  let incoming :=
    (server.call reachable (p.annals.contender.call call.phase) p.incoming).replies
  match progress with
  | .ended _ result =>
      { annals, incoming, outset := p.outset, talks := [],
        accounts := ⟨p.outset, talks, annals.standing, result⟩ :: p.accounts }
  | .continues .. | .died .. => { p with annals, incoming, talks }

/-- Time passes, a step begins, or an answer of the server arrives. -/
inductive Step (server : ServerLease) : Parley → Parley → Prop
  | elapse {p : Parley} {now : Nat} (later : p.annals.scene.now ≤ now) (wallClock : Timestamp) :
      Step server p
        { p with annals := { p.annals with scene := { p.annals.scene with now, wallClock } } }
  | enter {p : Parley} (idle : p.annals.waiting = none) (transit : Transit) (reachable : Bool) :
      Step server p (p.begin server transit reachable)
  | hear {p : Parley} {call : ContenderCall} {progress : Doings}
      (waiting : p.annals.waiting = some call) (transit : Transit) (reachable cancelled : Bool)
      (advance : (p.drive server transit reachable).advance (p.annals.scene, p.annals.status)
        p.annals.contender cancelled call = some progress) :
      Step server p (p.heed server reachable call progress)

inductive Reachable (server : ServerLease) (config : LeaseConfig) : Parley → Prop
  | start (now : Nat) (wallClock : Timestamp) (incoming : List ServerReply) :
      Reachable server config (.start server config now wallClock incoming)
  | step {p q : Parley} : Reachable server config p → Step server p q →
      Reachable server config q

def allTalks (p : Parley) : List Talk := p.talks ++ p.accounts.flatMap (·.talks)

variable {server : ServerLease} {config : LeaseConfig} {p q : Parley}

/-- What links a contender to its talks with the server. -/
structure Invariant (server : ServerLease) (config : LeaseConfig) (p : Parley) : Prop where
  holder : p.annals.contender.holder = config.holder
  length : p.annals.contender.leaseDuration = config.leaseDuration
  own : ∀ id, p.annals.status.held = some id → id = config.holder
  outset : p.annals.waiting ≠ none → p.outset = p.annals.standing
  course : ∀ call, p.annals.waiting = some call →
    call.phase.lease? = p.annals.status.held ∧ Course config call.phase p.talks
  remembers : p.annals.status.held ≠ none → ∃ last, p.annals.contender.lastRenewal = some last ∧
    lastSuccess p.accounts = some last ∧ last ≤ p.annals.scene.now
  closed : ∀ newer s earlier, p.accounts = newer ++ s :: earlier → s.FailsClosed config earlier
  spoken : ∀ talk ∈ p.allTalks, ServerLease.Speaks server.key talk.call talk.turns ∧
    (talk.Claims config ∨ talk.Renews config ∨ talk.Creates)

theorem start_invariant (server : ServerLease) (config : LeaseConfig) (now : Nat)
    (wallClock : Timestamp) (incoming : List ServerReply) :
    (start server config now wallClock incoming).Invariant server config := by
  constructor
  case holder => rfl
  case length => rfl
  case own => simp [start, Annals.start]
  case outset => simp [start, Annals.start]
  case course => simp [start, Annals.start]
  case remembers => simp [start, Annals.start]
  case closed => simp [start]
  case spoken => simp [start, allTalks]

theorem Invariant.elapse (hinv : p.Invariant server config) {now : Nat}
    (later : p.annals.scene.now ≤ now) (wallClock : Timestamp) :
    ({ p with annals := { p.annals with scene := { p.annals.scene with now, wallClock } } } :
      Parley).Invariant server config := by
  refine { hinv with remembers := ?_ }
  intro hheld
  obtain ⟨last, hlast, hsuccess, hpast⟩ := hinv.remembers hheld
  exact ⟨last, hlast, hsuccess, Nat.le_trans hpast later⟩

theorem course_firstPhase {status : Status}
    (hown : ∀ id, status.held = some id → id = config.holder) :
    Course config (Contender.firstPhase status) [] := by
  unfold Contender.firstPhase
  cases hheld : status.held with
  | none => exact .acquiring
  | some id =>
      obtain rfl := hown id hheld
      exact .renewing

theorem Invariant.begin (hinv : p.Invariant server config) (transit : Transit)
    (reachable : Bool) : (p.begin server transit reachable).Invariant server config := by
  constructor
  case holder => exact hinv.holder
  case length => exact hinv.length
  case own => exact hinv.own
  case outset => exact fun _ => rfl
  case course =>
      intro call hcall
      obtain rfl := Option.some.inj hcall
      exact ⟨Contender.lease?_firstPhase p.annals.status, course_firstPhase hinv.own⟩
  case remembers => exact hinv.remembers
  case closed => exact hinv.closed
  case spoken =>
      intro talk htalk
      exact hinv.spoken talk (List.mem_append_right _ htalk)

section

variable {call : ContenderCall} {transit : Transit} {reachable : Bool}

/-- The talk that is heard is spoken as all talks are. -/
theorem Invariant.spoken_heard (hinv : p.Invariant server config)
    (hwaiting : p.annals.waiting = some call) (reachable : Bool) {talk : Talk}
    (htalk : talk ∈ p.allTalks ++ [p.talk server reachable call]) :
    ServerLease.Speaks server.key talk.call talk.turns ∧
      (talk.Claims config ∨ talk.Renews config ∨ talk.Creates) := by
  rcases List.mem_append.mp htalk with hbefore | hheard
  · exact hinv.spoken talk hbefore
  · obtain rfl := List.mem_singleton.mp hheard
    exact ⟨server.speaks_call ..,
      Contender.talk_kind hinv.holder hinv.length (hinv.course call hwaiting).2⟩

theorem Invariant.continued (hinv : p.Invariant server config)
    (hwaiting : p.annals.waiting = some call) {next : ContenderPhase}
    (hmove : (p.turn server reachable call).move = .call next)
    (hcontender : (p.turn server reachable call).contender = p.annals.contender)
    (hstatus : (p.turn server reachable call).status = p.annals.status)
    (hcourse : Course config next (p.talks ++ [p.talk server reachable call])) :
    (p.heed server reachable call (.continues
      (p.annals.afterwards call (server.replying reachable p.incoming))
      ⟨next, transit⟩)).Invariant server config := by
  have hfits : call.phase.lease? = p.annals.status.held := (hinv.course call hwaiting).1
  have hnext : (p.turn server reachable call).move.phase? = some next := by
    rw [hmove]
    rfl
  constructor
  case holder => exact (congrArg Contender.holder hcontender).trans hinv.holder
  case length => exact (congrArg Contender.leaseDuration hcontender).trans hinv.length
  case own =>
      intro id hid
      exact hinv.own id ((congrArg Status.held hstatus).symm.trans hid)
  case outset =>
      intro _
      have hstanding : p.outset = p.annals.standing := hinv.outset (by simp [hwaiting])
      rw [Annals.standing, ← hcontender, ← hstatus] at hstanding
      exact hstanding
  case course =>
      intro other hother
      obtain rfl := Option.some.inj hother
      exact ⟨(Contender.answer_outcome hfits _).lease?_next hfits hnext, hcourse⟩
  case remembers =>
      have hremembers := hinv.remembers
      rw [← hcontender, ← hstatus] at hremembers
      exact hremembers
  case closed => exact hinv.closed
  case spoken =>
      intro talk htalk
      apply hinv.spoken_heard hwaiting reachable
      simp only [allTalks, heed, List.mem_append] at htalk ⊢
      tauto

theorem Invariant.ended (hinv : p.Invariant server config)
    (hwaiting : p.annals.waiting = some call) {result : Except StorageError Unit}
    (hunfolds : Unfolds config ⟨p.annals.standing, p.talks ++ [p.talk server reachable call],
      ⟨(p.turn server reachable call).status.held,
        (p.turn server reachable call).contender.lastRenewal⟩, result⟩) :
    (p.heed server reachable call (.ended
      (p.annals.afterwards call (server.replying reachable p.incoming))
      result)).Invariant server config := by
  have hterms := Contender.answer_sameTerms p.annals.contender p.annals.status
    p.annals.scene.now call.phase
    (server.replying reachable p.incoming (p.annals.contender.call call.phase))
  rw [← hinv.outset (by simp [hwaiting])] at hunfolds
  have hbefore : p.outset.held ≠ none → p.outset.lastRenewal = lastSuccess p.accounts := by
    rw [hinv.outset (by simp [hwaiting])]
    intro hheld
    obtain ⟨last, hlast, hsuccess, -⟩ := hinv.remembers hheld
    exact hlast.trans hsuccess.symm
  have hfails := StepAccount.failsClosed_of_unfolds hunfolds hbefore
  constructor
  case holder => exact hterms.2.1.trans hinv.holder
  case length => exact hterms.2.2.trans hinv.length
  case own =>
      intro id hid
      exact hfails.own id (.inr hid)
  case outset => exact fun hcall => absurd rfl hcall
  case course =>
      intro other hother
      cases hother
  case remembers =>
      intro hheld
      have hfits : call.phase.lease? = p.annals.status.held := (hinv.course call hwaiting).1
      obtain ⟨last, hlast, hpast⟩ : ∃ last,
          (p.turn server reachable call).contender.lastRenewal = some last ∧
            last ≤ p.annals.scene.now := by
        rcases (Contender.answer_outcome hfits _).granted_or_unheld_or_kept with
          ⟨_, _, -, -, -, hlast⟩ | hnone | ⟨hstatus, hlast, -⟩
        · exact ⟨p.annals.scene.now, hlast, Nat.le_refl _⟩
        · exact absurd hnone hheld
        · have hstill : p.annals.status.held ≠ none := congrArg Status.held hstatus ▸ hheld
          obtain ⟨last, hremembered, -, hpast⟩ := hinv.remembers hstill
          exact ⟨last, hlast.trans hremembered, hpast⟩
      have hsuccess := StepAccount.lastSuccess_of_unfolds hunfolds hheld hbefore
      exact ⟨last, hlast, hsuccess.symm.trans hlast, hpast⟩
  case closed =>
      intro newer s earlier hsplit
      cases newer with
      | nil =>
          obtain ⟨rfl, rfl⟩ := List.cons.inj hsplit
          exact hfails
      | cons latest newer => exact hinv.closed newer s earlier (List.cons.inj hsplit).2
  case spoken =>
      intro talk htalk
      apply hinv.spoken_heard hwaiting reachable
      simp only [allTalks, heed, List.flatMap_cons, List.mem_append] at htalk ⊢
      tauto

end

theorem Invariant.step (hinv : p.Invariant server config) (h : Step server p q) :
    q.Invariant server config := by
  cases h with
  | elapse later wallClock => exact hinv.elapse later wallClock
  | enter idle transit reachable => exact hinv.begin transit reachable
  | @hear call progress waiting transit reachable cancelled advance =>
      have hcourse := hinv.course call waiting
      have hlast : p.annals.status.held ≠ none →
          ∃ last, p.annals.contender.lastRenewal = some last ∧ last ≤ p.annals.scene.now := by
        intro hheld
        obtain ⟨last, hlast, -, hpast⟩ := hinv.remembers hheld
        exact ⟨last, hlast, hpast⟩
      have hlead : TalksLead config p.annals.contender p.annals.status
          (p.talks ++ [p.talk server reachable call]) (p.turn server reachable call) :=
        Contender.talks_lead hinv.holder hinv.length hcourse.1 hlast hcourse.2
      rcases Annals.advance_eq_some advance with ⟨next, hmove, rfl⟩ | ⟨result, hmove, rfl⟩
      · cases hlead with
        | called move hcontender hstatus hnext =>
            obtain rfl := ContenderMove.call.inj (move.symm.trans hmove)
            exact hinv.continued waiting hmove hcontender hstatus hnext
        | finished move => cases move.symm.trans hmove
      · cases hlead with
        | called move => cases move.symm.trans hmove
        | finished move hunfolds =>
            obtain rfl := ContenderMove.finish.inj (move.symm.trans hmove)
            exact hinv.ended waiting hunfolds

theorem Reachable.invariant (h : Reachable server config p) : p.Invariant server config := by
  induction h with
  | start now wallClock incoming => exact start_invariant server config now wallClock incoming
  | step _ hstep ih => exact ih.step hstep

/-- What a transition does to the standing of the contender, by the accounts. -/
inductive Accounts (p q : Parley) : Prop
  | kept (accounts : q.accounts = p.accounts) (standing : q.annals.standing = p.annals.standing)
  | closed {s : StepAccount} (accounts : q.accounts = s :: p.accounts)
      (before : s.before = p.annals.standing) (after : s.after = q.annals.standing)
      (talks : ∃ talk, s.talks = p.talks ++ [talk])

theorem Invariant.accounts (hinv : p.Invariant server config) (h : Step server p q) :
    Accounts p q := by
  cases h with
  | elapse => exact .kept rfl rfl
  | enter => exact .kept rfl rfl
  | @hear call progress waiting transit reachable cancelled advance =>
      rcases Annals.advance_eq_some advance with ⟨next, hmove, rfl⟩ | ⟨result, -, rfl⟩
      · have hnext : (p.turn server reachable call).move.phase? = some next := by
          rw [turn, hmove]
          rfl
        obtain ⟨hcontender, hstatus, -⟩ := Contender.answer_of_next hnext
        exact .kept rfl (congrArg₂ Standing.mk (congrArg Status.held hstatus)
          (congrArg Contender.lastRenewal hcontender))
      · exact .closed rfl (hinv.outset (by simp [waiting])) rfl ⟨_, rfl⟩

/-- The standing of a contender changes by the steps of the accounts only, and
every one of them fails closed.  Every call speaks of the key of the object and
of the holder, and repeats itself word for word where a script was not known.
A call under way is what the talks of its step have led to. -/
theorem fails_closed {name : String} {keyspace : Option String}
    (h : Reachable (.create name keyspace) config p) :
    (∀ newer s earlier, p.accounts = newer ++ s :: earlier → s.FailsClosed config earlier) ∧
    (∀ talk ∈ p.allTalks,
      ServerLease.Speaks (keyspace.getD defaultKeyspace ++ ":" ++ name) talk.call talk.turns ∧
      (talk.Claims config ∨ talk.Renews config ∨ talk.Creates)) ∧
    (∀ call, p.annals.waiting = some call → Course config call.phase p.talks) ∧
    ∀ q, Step (.create name keyspace) p q → Accounts p q := by
  have hinv := h.invariant
  refine ⟨hinv.closed, hinv.spoken, ?_, ?_⟩
  · intro call hcall
    exact (hinv.course call hcall).2
  · intro q hstep
    exact hinv.accounts hstep

/-- The next transition at this instant, if there is one. -/
def proceed (p : Parley) (server : ServerLease) (reachable : Bool) : Parley :=
  match p.annals.waiting with
  | none => p.begin server (.direct 0) reachable
  | some call =>
      match (p.drive server (.direct 0) reachable).advance (p.annals.scene, p.annals.status)
          p.annals.contender false call with
      | none => p
      | some progress => p.heed server reachable call progress

theorem Reachable.proceed (h : Reachable server config p) (reachable : Bool) :
    Reachable server config (p.proceed server reachable) := by
  unfold Parley.proceed
  split
  · next hidle => exact h.step (.enter hidle (.direct 0) reachable)
  · next call hwaiting =>
      split
      · exact h
      · next progress hadvance =>
          exact h.step (.hear hwaiting (.direct 0) reachable false hadvance)

/-- A server that has to be taught a script, and that loses the object. -/
def forgetful : List ServerReply :=
  [.failure "NOSCRIPT No matching script", .bulk "digest", .integer 1, .simple "-1", .integer 1,
    .integer 0]

def forsaken : Parley :=
  (((((((start (.create "lock" none) (.standard (.timeOrdered 0)) 0 scenarioEpoch
    forgetful).proceed (.create "lock" none) true).proceed (.create "lock" none) true).proceed
    (.create "lock" none) true).proceed (.create "lock" none) true).proceed
    (.create "lock" none) true).proceed (.create "lock" none) true)

theorem reachable_forsaken :
    Reachable (.create "lock" none) (.standard (.timeOrdered 0)) forsaken := by
  have hstart : Reachable (.create "lock" none) (.standard (.timeOrdered 0)) _ :=
    .start 0 scenarioEpoch forgetful
  have helected := (hstart.proceed true).proceed true
  exact (((helected.proceed true).proceed true).proceed true).proceed true

theorem fails_closed_forsaken :
    forsaken.accounts.map (·.after.held) = [none, some (.timeOrdered 0)] ∧
    forsaken.accounts.map (·.talks.map (·.turns.length)) = [[1, 1, 1], [3]] ∧
    (∀ newer s earlier, forsaken.accounts = newer ++ s :: earlier →
      s.FailsClosed (.standard (.timeOrdered 0)) earlier) ∧
    ∀ talk ∈ forsaken.allTalks,
      ServerLease.Speaks (defaultKeyspace ++ ":" ++ "lock") talk.call talk.turns := by
  obtain ⟨hclosed, hspoken, -⟩ := fails_closed reachable_forsaken
  refine ⟨by decide, by decide, hclosed, ?_⟩
  intro talk htalk
  exact (hspoken talk htalk).1

end Parley

end LeasedListener
