import LeasedListener.Proofs.Polling.Script

/-!
# The message in hand

A poller has one message in hand at a time: from the dequeue that delivers it
until its disposal is answered, or until it is left in the queue.  A tick that
is cancelled looks for no further message, and takes at most the one that it
was waiting for.
-/

namespace LeasedListener

def TickPhase.hand? : TickPhase → Option Delivery
  | .probing _ | .dequeuing _ _ => none
  | .executing claim _ _ | .settling claim _ _ _ => some claim.message
  | .deleting m _ | .releasing m _ | .preparing m _ | .copying m _ => some m

def TickPhase.isDequeuing : TickPhase → Bool
  | .dequeuing _ _ => true
  | _ => false

def TimerLoop.phase? {Command Phase : Type} : TimerLoop Command Phase → Option Phase
  | .live _ _ state => state.phase?
  | .returned _ | .died _ => none

theorem Timer.phase?_of_loop {Command Phase : Type} {t : Timer Command Phase}
    {loop : TimerLoop Command Phase} (h : t.loop = some loop) : t.phase? = loop.phase? := by
  cases loop <;> simp [Timer.phase?, TimerLoop.phase?, h]

def Doing.taken? : Doing → Option Delivery
  | .answered .primary (.dequeue _) _ (.ok (some m)) => some m
  | _ => none

/-- The messages that were delivered, the latest first. -/
def taken (doings : List Doing) : List Delivery := doings.filterMap Doing.taken?

theorem taken_append (doings others : List Doing) :
    taken (doings ++ others) = taken doings ++ taken others :=
  List.filterMap_append

/-- How a message leaves the hand: its deletion or release is answered, it is
left in the queue, or its copy fails. -/
inductive Parts (p : Poller) (m : Delivery) : TickPhase → List Doing → Prop
  | deleted {transit : Transit} {reply : Except StorageError Unit} {doings : List Doing}
      (answered : .answered .primary (.delete m) transit reply ∈ doings) :
      Parts p m (.deleting m transit) doings
  | released {transit : Transit} {reply : Except StorageError Receipt} {doings : List Doing}
      (answered : .answered .primary (.update m .zero) transit reply ∈ doings) :
      Parts p m (.releasing m transit) doings
  | left {claim : Claim} {renewal : RenewalTimer} {succeeded : Bool} {wait : StopWait}
      {doings : List Doing} (held : claim.message = m)
      (verdict : disposition p.config.maxDequeueCount succeeded m.dequeueCount p.poison.isSome =
        .leave) :
      Parts p m (.settling claim renewal succeeded wait) doings
  | unprepared {transit : Transit} {error : StorageError} {doings : List Doing}
      (answered : .answered .poison .create transit (.error error) ∈ doings) :
      Parts p m (.preparing m transit) doings
  | uncopied {transit : Transit} {error : StorageError} {doings : List Doing}
      (answered : .answered .poison (.enqueue m.body) transit (.error error) ∈ doings) :
      Parts p m (.copying m transit) doings

/-- What a transition does to the message in hand: it stays, it is taken, it
goes, or the run on it breaks down and nothing is done about it any more. -/
inductive Handles (p : Poller) (phase? : Option TickPhase) (doings : List Doing)
    (phase?' : Option TickPhase) : Prop
  | holds (m m' : Delivery) (before : phase?.bind TickPhase.hand? = some m)
      (after : phase?'.bind TickPhase.hand? = some m') (same : m'.id = m.id)
      (none : taken doings = [])
  | takes (m : Delivery) (before : phase?.any TickPhase.isDequeuing = true)
      (one : taken doings = [m]) (after : phase?'.bind TickPhase.hand? = some m)
  | lets (after : phase?'.bind TickPhase.hand? = .none) (none : taken doings = [])
      (parts : ∀ phase m, phase? = some phase → phase.hand? = some m → Parts p m phase doings)
  | breaks {claim : Claim} {renewal : RenewalTimer} {execution : Execution} {reason : String}
      (before : phase? = some (.executing claim renewal execution))
      (broken : doings = [.finished execution (.error reason)]) (after : phase?' = .none)

variable {p : Poller} {cancelled found : Bool} {doings : List Doing} {course : TickCourse}
  {m : Delivery}

def TickCourse.phase? : TickCourse → Option TickPhase
  | .continues _ phase => some phase
  | .ended _ _ | .died _ _ => none

/-- No call for a further message is begun. -/
def AsksForNone (doings : List Doing) : Prop :=
  ∀ window transit, .begun .primary (.dequeue window) transit ∉ doings

theorem asksForNone_append {others : List Doing} :
    AsksForNone (doings ++ others) ↔ AsksForNone doings ∧ AsksForNone others := by
  simp only [AsksForNone, List.mem_append, not_or]
  constructor
  · intro h
    exact ⟨fun window transit => (h window transit).1, fun window transit => (h window transit).2⟩
  · rintro ⟨h, hothers⟩ window transit
    exact ⟨h window transit, hothers window transit⟩

/-- A tick is done with a message, and looks for the next one unless it is
cancelled. -/
structure MovesOn (cancelled : Bool) (doings : List Doing) (course : TickCourse) : Prop where
  none : taken doings = []
  free : course.phase?.bind TickPhase.hand? = .none
  stopping : cancelled = true → AsksForNone doings ∧ course.phase? = .none

theorem Seeks.movesOn (h : Seeks p cancelled found doings course) :
    MovesOn cancelled doings course := by
  cases h with
  | quits stopped => exact ⟨rfl, rfl, fun _ => ⟨by simp [AsksForNone], rfl⟩⟩
  | asks going transit => exact ⟨rfl, rfl, fun stopped => by simp [going] at stopped⟩

theorem Concludes.movesOn {reply : Except StorageError Unit}
    (h : Concludes p cancelled reply doings course) : MovesOn cancelled doings course := by
  cases h with
  | done seeks | failed _ seeks => exact seeks.movesOn
  | gone _ seeks =>
      obtain ⟨hnone, hfree, hstopping⟩ := seeks.movesOn
      refine ⟨?_, hfree, fun stopped => ⟨?_, (hstopping stopped).2⟩⟩
      · rw [taken_append, hnone]
        rfl
      · exact asksForNone_append.mpr ⟨(hstopping stopped).1, by simp [AsksForNone]⟩
  | fails _ => exact ⟨rfl, rfl, fun _ => ⟨by simp [AsksForNone], rfl⟩⟩

theorem Forgoes.movesOn {error : StorageError} (h : Forgoes p cancelled error doings course) :
    MovesOn cancelled doings course := by
  cases h with
  | leaves _ seeks => exact seeks.movesOn
  | fails _ => exact ⟨rfl, rfl, fun _ => ⟨by simp [AsksForNone], rfl⟩⟩

/-- A tick that moves on after doings that are about no further message. -/
theorem MovesOn.after (h : MovesOn cancelled doings course) {earlier : List Doing}
    (hnone : taken earlier = []) (hquiet : AsksForNone earlier) :
    MovesOn cancelled (doings ++ earlier) course where
  none := by rw [taken_append, h.none, hnone]; rfl
  free := h.free
  stopping := fun stopped =>
    ⟨asksForNone_append.mpr ⟨(h.stopping stopped).1, hquiet⟩, (h.stopping stopped).2⟩

theorem MovesOn.lets {phase : TickPhase} (h : MovesOn cancelled doings course)
    (parts : ∀ m, phase.hand? = some m → Parts p m phase doings) :
    Handles p (some phase) doings course.phase? := by
  refine .lets h.free h.none ?_
  intro other m hphase hhand
  obtain rfl := Option.some.inj hphase
  exact parts m hhand

theorem Script.handles {phase : TickPhase} (h : Script p cancelled phase doings course) :
    Handles p (some phase) doings course.phase? := by
  cases h with
  | present seeks =>
      exact (seeks.movesOn.after rfl (by simp [AsksForNone])).lets (by simp [TickPhase.hand?])
  | absent | unknown | exhausted | unserved =>
      exact .lets rfl rfl (by rintro _ m ⟨⟩ hhand; simp [TickPhase.hand?] at hhand)
  | received => exact .takes _ rfl rfl rfl
  | executed ended => exact .holds _ _ rfl rfl rfl rfl
  | broken ended => exact .breaks rfl rfl rfl
  | settled stopped disposes =>
      cases disposes with
      | deletes _ _ | releases _ _ | quarantines _ _ => exact .holds _ _ rfl rfl rfl rfl
      | leaves verdict seeks =>
          refine (seeks.movesOn.after rfl (by simp [AsksForNone])).lets ?_
          rintro m ⟨⟩
          exact .left rfl verdict
  | deleted concludes =>
      refine (concludes.movesOn.after rfl (by simp [AsksForNone])).lets ?_
      rintro m ⟨⟩
      exact .deleted (List.mem_append_right _ (List.mem_singleton_self _))
  | released concludes =>
      refine (concludes.movesOn.after rfl (by simp [AsksForNone])).lets ?_
      rintro m ⟨⟩
      exact .released
        (List.mem_append_right _ (List.mem_cons_of_mem _ (List.mem_singleton_self _)))
  | unreleased concludes =>
      refine (concludes.movesOn.after rfl (by simp [AsksForNone])).lets ?_
      rintro m ⟨⟩
      exact .released (List.mem_append_right _ (List.mem_singleton_self _))
  | prepared => exact .holds _ _ rfl rfl rfl rfl
  | unprepared forgoes =>
      refine (forgoes.movesOn.after rfl (by simp [AsksForNone])).lets ?_
      rintro m ⟨⟩
      exact .unprepared (List.mem_append_right _ (List.mem_singleton_self _))
  | copied => exact .holds _ _ rfl rfl rfl rfl
  | uncopied forgoes =>
      refine (forgoes.movesOn.after rfl (by simp [AsksForNone])).lets ?_
      rintro m ⟨⟩
      exact .uncopied (List.mem_append_right _ (List.mem_singleton_self _))

/-- A tick that is cancelled asks for no further message. -/
theorem Script.quiet {phase : TickPhase} (h : Script p true phase doings course) :
    AsksForNone doings ∧ course.phase?.any TickPhase.isDequeuing = false := by
  have hon : ∀ {later earlier : List Doing}, MovesOn true later course → AsksForNone earlier →
      AsksForNone (later ++ earlier) ∧ course.phase?.any TickPhase.isDequeuing = false := by
    intro later earlier hmoves hearlier
    obtain ⟨hquiet, hends⟩ := hmoves.stopping rfl
    exact ⟨asksForNone_append.mpr ⟨hquiet, hearlier⟩, by rw [hends]; rfl⟩
  cases h with
  | present seeks => exact hon seeks.movesOn (by simp [AsksForNone])
  | absent | unknown | received | exhausted | unserved => exact ⟨by simp [AsksForNone], rfl⟩
  | executed ended | broken ended => exact ⟨by simp [AsksForNone], rfl⟩
  | settled stopped disposes =>
      cases disposes with
      | deletes _ _ | releases _ _ | quarantines _ _ => exact ⟨by simp [AsksForNone], rfl⟩
      | leaves verdict seeks => exact hon seeks.movesOn (by simp [AsksForNone])
  | deleted concludes => exact hon concludes.movesOn (by simp [AsksForNone])
  | released concludes => exact hon concludes.movesOn (by simp [AsksForNone])
  | unreleased concludes => exact hon concludes.movesOn (by simp [AsksForNone])
  | prepared | copied => exact ⟨by simp [AsksForNone], rfl⟩
  | unprepared forgoes => exact hon forgoes.movesOn (by simp [AsksForNone])
  | uncopied forgoes => exact hon forgoes.movesOn (by simp [AsksForNone])

theorem Learns.id {claim claim' : Claim} {reply : Except StorageError Receipt}
    {result : Except StorageError Bool} (h : Learns claim reply claim' result) :
    claim'.message.id = claim.message.id := by
  cases h <;> rfl

theorem Renews.quiet {claim claim' : Claim} {loop loop' : RenewalLoop}
    (h : Renews p claim loop doings claim' loop') :
    taken doings = [] ∧ AsksForNone doings ∧ claim'.message.id = claim.message.id := by
  cases h with
  | waits | returns _ | skips _ _ | asks _ _ _ => exact ⟨rfl, by simp [AsksForNone], rfl⟩
  | hears learns => exact ⟨rfl, by simp [AsksForNone], learns.id⟩

theorem Tends.quiet {phase phase' : TickPhase} (h : Tends p phase doings phase') :
    taken doings = [] ∧ AsksForNone doings ∧ phase'.isDequeuing = false ∧
      ∃ m m', phase.hand? = some m ∧ phase'.hand? = some m' ∧ m'.id = m.id := by
  cases h with
  | executing _ renews =>
      obtain ⟨hnone, hquiet, hsame⟩ := renews.quiet
      exact ⟨hnone, hquiet, rfl, _, _, rfl, rfl, hsame⟩
  | settling _ renews =>
      obtain ⟨hnone, hquiet, hsame⟩ := renews.quiet
      exact ⟨hnone, hquiet, rfl, _, _, rfl, rfl, hsame⟩

/-- The loop begins no further tick. -/
def TimerLoop.IsOver {Command Phase : Type} (loop : TimerLoop Command Phase) : Prop :=
  ∀ command cancelled state, loop = .live command cancelled state → cancelled = true

theorem TimerLoop.isOver_cancel {Command Phase : Type} (loop : TimerLoop Command Phase) :
    loop.cancel.IsOver := by
  intro command cancelled state hlive
  cases loop with
  | live _ _ _ => exact (TimerLoop.live.inj hlive).2.1.symm
  | returned _ | died _ => simp [cancel] at hlive

variable {loop loop' : PollerLoop}

theorem Plays.handles (h : Plays p loop doings loop') :
    Handles p loop.phase? doings loop'.phase? := by
  cases h with
  | waits => exact .lets rfl rfl (by simp [TimerLoop.phase?, LoopState.phase?])
  | returns idle => exact .lets rfl rfl (by simp [TimerLoop.phase?, idle])
  | probes idle transit => exact .lets rfl rfl (by simp [TimerLoop.phase?, idle])
  | continues script => exact script.handles
  | ends script => exact script.handles
  | dies script => exact script.handles
  | tends tends =>
      obtain ⟨hnone, -, -, m, m', hbefore, hafter, hsame⟩ := tends.quiet
      exact .holds m m' hbefore hafter hsame hnone

theorem Plays.quiet (h : Plays p loop doings loop') (hover : loop.IsOver) :
    AsksForNone doings ∧ loop'.IsOver ∧ loop'.phase?.any TickPhase.isDequeuing = false := by
  cases h with
  | waits => exact absurd (hover _ _ _ rfl) (by simp)
  | returns idle => exact ⟨by simp [AsksForNone], by simp [TimerLoop.IsOver], rfl⟩
  | probes idle transit => exact absurd (hover _ _ _ rfl) (by simp)
  | continues script =>
      obtain rfl := hover _ _ _ rfl
      exact ⟨script.quiet.1, by simp [TimerLoop.IsOver], script.quiet.2⟩
  | ends script =>
      obtain rfl := hover _ _ _ rfl
      exact ⟨script.quiet.1, by simp [TimerLoop.IsOver], rfl⟩
  | dies script =>
      obtain rfl := hover _ _ _ rfl
      exact ⟨script.quiet.1, by simp [TimerLoop.IsOver], rfl⟩
  | tends tends =>
      obtain rfl := hover _ _ _ rfl
      exact ⟨tends.quiet.2.1, by simp [TimerLoop.IsOver], tends.quiet.2.2.1⟩

end LeasedListener
