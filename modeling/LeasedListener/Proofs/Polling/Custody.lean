import LeasedListener.Proofs.Polling.Config
import LeasedListener.Proofs.Polling.Effects
import LeasedListener.Proofs.Polling.Hand

/-!
# Custody of a message

A poller that is well served by the shared queue holds a claim on the message
in hand: the claim came with the delivery, each renewal puts it off, and every
disposal presents its receipt while it stands.
-/

namespace LeasedListener

open Surroundings

/-- A renewal timer at its regular pace, which presents the receipt of `m`. -/
def Renewing (p : Poller) (m : Delivery) (loop : RenewalLoop) : Prop :=
  ∀ pace cancelled state, loop = .live pace cancelled state →
    pace = p.renewalPace ∧
      ∀ waiting, state = .stepping waiting → waiting.presented = m ∧ waiting.transit.IsFaultless

theorem Renewing.cancel {p : Poller} {m : Delivery} {loop : RenewalLoop} (h : Renewing p m loop) :
    Renewing p m loop.cancel := by
  intro pace cancelled state hlive
  cases loop with
  | live pace' cancelled' state' =>
      obtain ⟨rfl, -, rfl⟩ := TimerLoop.live.inj hlive
      exact h _ cancelled' _ rfl
  | returned _ | died _ => simp [TimerLoop.cancel] at hlive

theorem renewing_renewalTimer (p : Poller) (m : Delivery) (loop : RenewalLoop)
    (h : (p.renewalTimer m).loop = some loop) : Renewing p m loop := by
  intro pace cancelled state hlive
  rw [hlive] at h
  obtain ⟨rfl, -, rfl⟩ := TimerLoop.live.inj (Option.some.inj h)
  exact ⟨rfl, by simp⟩

/-- The calls under way on the shared queue are safe, and the claim is not
lost. -/
def TickPhase.IsSound (p : Poller) : TickPhase → Prop
  | .probing transit | .dequeuing _ transit | .deleting _ transit | .releasing _ transit =>
      transit.IsFaultless
  | .executing claim renewal _ | .settling claim renewal _ _ =>
      claim.lost = false ∧ ∀ loop, renewal.loop = some loop → Renewing p claim.message loop
  | .preparing _ _ | .copying _ _ => True

namespace PollingSite

variable {ι : Type} {S : PollingSite ι} {i : ι} {w w' : World} {m : Delivery} {ends : Nat}
  {transit : Transit} {doings : List Doing} {cancelled : Bool}

/-- How a message comes to be in hand: it stays there, its claim is renewed, or
it is taken when no claim on it stands. -/
inductive Comes (S : PollingSite ι) (w w' : World) (window : Duration) (ends : Nat)
    (hand? : Option Delivery) (m : Delivery) : Prop
  | kept (before : Delivery) (held : hand? = some before) (same : m.id = before.id)
      (receipt : m.receipt = before.receipt) (secures : S.Secures w' m ends)
  | renewed (before : Delivery) (held : hand? = some before) (same : m.id = before.id)
      (secures : S.Secures w' m (Instant.windowEnd w.now window))
  | taken (free : ∀ other ends, w.now < ends → S.Secures w other ends → other.id ≠ m.id)
      (secures : S.Secures w' m (Instant.windowEnd w.now window))

/-- What a transition of a poller does to the message in hand. -/
structure Carries (S : PollingSite ι) (i : ι) (w w' : World) (ends : Nat)
    (phase? : Option TickPhase) (doings : List Doing) (phase?' : Option TickPhase) : Prop where
  sound : ∀ phase, phase?' = some phase → phase.IsSound (S.poller i)
  comes : ∀ m, phase?'.bind TickPhase.hand? = some m →
    S.Comes w w' (S.configs i).visibilityTimeout ends (phase?.bind TickPhase.hand?) m
  unopposed : .marked .disposalConflict ∉ doings
  presented : ∀ m, Presents doings m →
    ∃ held, phase?.bind TickPhase.hand? = some held ∧ m.id = held.id

theorem Secures.undisturbed (h : S.Secures w m ends) (htidy : S.IsTidy w) (hlive : w.now < ends)
    (hdoes : Does (S.custodian i transit) w doings w') (hnone : ∀ other, ¬ Presents doings other) :
    S.Secures w' m ends :=
  (keeps_of_does hdoes).secures m ends (fun other hother => absurd hother (hnone other)) htidy
    hlive h

theorem carries_of_seeks {found : Bool} {later earlier : List Doing} {course : TickCourse}
    {phase? : Option TickPhase} (hseeks : Seeks (S.poller i) cancelled found later course)
    (hbegun : ∀ {call sent}, .begun .primary call sent ∈ later ++ earlier → sent.IsFaultless)
    (hunopposed : .marked .disposalConflict ∉ earlier)
    (hpresented : ∀ m, Presents earlier m →
      ∃ held, phase?.bind TickPhase.hand? = some held ∧ m.id = held.id) :
    S.Carries i w w' ends phase? (later ++ earlier) course.phase? := by
  cases hseeks with
  | quits stopped =>
      exact ⟨by simp [TickCourse.phase?], by simp [TickCourse.phase?], hunopposed, hpresented⟩
  | asks going sent =>
      refine ⟨?_, ?_, by simpa using hunopposed, ?_⟩
      · rintro _ ⟨⟩
        exact hbegun (List.mem_cons_self ..)
      · simp [TickCourse.phase?, TickPhase.hand?]
      · intro m hm
        exact hpresented m (by simpa using hm)

/-- What a tick may rely on: the queue is tidy, and it holds the claim on the
message in hand. -/
structure Holds (S : PollingSite ι) (i : ι) (w : World) (ends : Nat) (phase : TickPhase) :
    Prop where
  lasting : 0 < (S.configs i).visibilityTimeout.nanos
  tidy : S.IsTidy w
  sound : phase.IsSound (S.poller i)
  claimed : ∀ m, phase.hand? = some m → S.Secures w m ends ∧ w.now < ends

variable {phase phase' : TickPhase}

/-- Until the first answer is there, all claims stand. -/
theorem Holds.heard (h : S.Holds i w ends phase) {later : List Doing} {call : QueueCall}
    {sent : Transit} {reply : Except StorageError call.Reply}
    (hdoes : Does (S.custodian i transit) w
      (later ++ [.answered .primary call sent reply]) w') :
    ∃ w₀, S.Holds i w₀ ends phase ∧ w₀.now = w.now ∧
      (∀ other ends, w.now < ends → S.Secures w other ends → S.Secures w₀ other ends) ∧
      reply = ((S.custodian i transit).queue.perform w₀ call sent).2 ∧
      Does (S.custodian i transit) ((S.custodian i transit).queue.perform w₀ call sent).1 later
        w' := by
  obtain ⟨w₀, hbefore, hreply, hafter⟩ := hdoes.heard
  have hkeeps := keeps_of_does hbefore
  have hstand : ∀ other ends, w.now < ends → S.Secures w other ends → S.Secures w₀ other ends :=
    fun other ends hlive hsecures =>
      hsecures.undisturbed h.tidy hlive hbefore (by simp)
  refine ⟨w₀, ⟨h.lasting, hkeeps.tidy h.tidy, h.sound, ?_⟩, hkeeps.now, hstand, hreply, hafter⟩
  intro m hm
  obtain ⟨hsecures, hlive⟩ := h.claimed m hm
  exact ⟨hstand m ends hlive hsecures, hkeeps.now.symm ▸ hlive⟩

theorem Holds.carries (h : S.Holds i w ends phase)
    (hdoes : Does (S.custodian i transit) w doings w') (hsilent : ∀ m, ¬ Presents doings m)
    (hunopposed : .marked .disposalConflict ∉ doings) (hsound : phase'.IsSound (S.poller i))
    (hheld : phase.hand? = some m) (hheld' : phase'.hand? = some m) :
    S.Carries i w w' ends (some phase) doings (some phase') where
  sound := by
    rintro _ ⟨⟩
    exact hsound
  comes := by
    intro m' hm'
    obtain rfl := Option.some.inj (hheld'.symm.trans hm')
    obtain ⟨hsecures, hlive⟩ := h.claimed _ hheld
    exact .kept _ hheld rfl rfl (hsecures.undisturbed h.tidy hlive hdoes hsilent)
  unopposed := hunopposed
  presented := fun m hm => absurd hm (hsilent m)

theorem carries_of_end {phase? : Option TickPhase} (hsilent : ∀ m, ¬ Presents doings m)
    (hunopposed : .marked .disposalConflict ∉ doings) :
    S.Carries i w w' ends phase? doings none where
  sound := by simp
  comes := by simp
  unopposed := hunopposed
  presented := fun m hm => absurd hm (hsilent m)

theorem Holds.receives (h : S.Holds i w ends phase) {sent : Transit} {execution : Execution}
    (hdoes : Does (S.custodian i transit) w
      ([.started m execution, .marked .dequeued] ++
        [.answered .primary (.dequeue (S.configs i).visibilityTimeout) sent (.ok (some m))]) w') :
    S.Carries i w w' ends (some phase)
      ([.started m execution, .marked .dequeued] ++
        [.answered .primary (.dequeue (S.configs i).visibilityTimeout) sent (.ok (some m))])
      (some (.executing (.create m) ((S.poller i).renewalTimer m) execution)) := by
  obtain ⟨w₀, h₀, hnow, hstand, hreply, hafter⟩ := h.heard hdoes
  obtain ⟨hsecures, hfree⟩ := secures_of_dequeue h₀.tidy hreply.symm
  have hperformed := keeps_perform S i w₀
    (.dequeue (S.configs i).visibilityTimeout) transit sent
  rw [hnow] at hsecures hfree
  refine ⟨?_, ?_, by simp, by simp⟩
  · rintro _ ⟨⟩
    exact ⟨rfl, renewing_renewalTimer (S.poller i) m⟩
  · rintro _ ⟨⟩
    have hlive : w.now < Instant.windowEnd w.now (S.configs i).visibilityTimeout :=
      Instant.lt_windowEnd w.now h.lasting
    have hclaim : S.Secures w' m (Instant.windowEnd w.now (S.configs i).visibilityTimeout) := by
      refine hsecures.undisturbed (hperformed.tidy h₀.tidy) ?_ hafter (by simp)
      rw [hperformed.now, hnow]
      exact hlive
    refine .taken ?_ hclaim
    intro other ends hlive hother
    exact hfree other ends hlive (hstand other ends hlive hother)

theorem carries_script {course : TickCourse} (h : S.Holds i w ends phase)
    (hfaultless : transit.IsFaultless)
    (hdoes : Does (S.custodian i transit) w doings w')
    (hscript : Script (S.poller i) cancelled phase doings course) :
    S.Carries i w w' ends (some phase) doings course.phase? := by
  have hbegun : ∀ {call sent}, .begun .primary call sent ∈ doings → sent.IsFaultless :=
    fun hmem => faultless_of_does hdoes hfaultless hmem
  cases hscript with
  | present seeks => exact carries_of_seeks seeks hbegun (by simp) (by simp)
  | absent | unknown | exhausted | unserved | broken _ =>
      exact carries_of_end (by simp) (by simp)
  | received => exact h.receives hdoes
  | executed ended =>
      refine h.carries hdoes (by simp) (by simp) ?_ rfl rfl
      refine ⟨h.sound.1, ?_⟩
      intro loop hloop
      simp only [Timer.cancel, Option.map_eq_some_iff] at hloop
      obtain ⟨before, hbefore, rfl⟩ := hloop
      exact (h.sound.2 before hbefore).cancel
  | @settled claim renewal succeeded wait instant stopped later course disposes =>
      have hmark : (.marked .disposalConflict : Doing) ∉
          [.marked (if succeeded then .succeeded else .failed)] := by
        cases succeeded <;> simp
      cases disposes with
      | deletes sent verdict =>
          exact h.carries hdoes (by simp) (by simpa using hmark)
            (hbegun (List.mem_cons_self ..)) rfl rfl
      | releases sent verdict =>
          exact h.carries hdoes (by simp) (by simpa using hmark)
            (hbegun (List.mem_cons_self ..)) rfl rfl
      | quarantines sent verdict =>
          exact h.carries hdoes (by simp) (by simpa using hmark) trivial rfl rfl
      | leaves verdict seeks => exact carries_of_seeks seeks hbegun hmark (by simp)
  | @deleted m sent reply later course concludes =>
      obtain ⟨w₀, h₀, hnow, -, hreply, -⟩ := h.heard hdoes
      obtain ⟨hsecures, hlive⟩ := h₀.claimed m rfl
      -- the claim stands, so the deletion is accepted and only one conclusion is left
      rw [hsecures.delete h₀.tidy hlive h.sound] at hreply
      subst hreply
      cases concludes with
      | done seeks =>
          exact carries_of_seeks seeks hbegun (by simp) (by simp [TickPhase.hand?])
  | @released m sent receipt later course concludes =>
      cases concludes with
      | done seeks =>
          exact carries_of_seeks seeks hbegun (by simp) (by simp [TickPhase.hand?])
  | unreleased concludes =>
      -- the claim stands, so the release cannot have failed
      obtain ⟨w₀, h₀, hnow, -, hreply, -⟩ := h.heard hdoes
      obtain ⟨hsecures, hlive⟩ := h₀.claimed _ rfl
      obtain ⟨receipt, hanswer, -⟩ := hsecures.update h₀.tidy hlive h.sound Duration.zero
      exact absurd (hreply.trans hanswer) (by simp)
  | prepared => exact h.carries hdoes (by simp) (by simp) trivial rfl rfl
  | unprepared forgoes =>
      cases forgoes with
      | fails fatal => exact carries_of_end (by simp) (by simp)
      | leaves mild seeks => exact carries_of_seeks seeks hbegun (by simp) (by simp)
  | copied =>
      exact h.carries hdoes (by simp) (by simp) (hbegun (List.mem_cons_self ..)) rfl rfl
  | uncopied forgoes =>
      cases forgoes with
      | fails fatal => exact carries_of_end (by simp) (by simp)
      | leaves mild seeks => exact carries_of_seeks seeks hbegun (by simp) (by simp)

/-- What a transition of a renewal timer does to its claim. -/
structure Tended (S : PollingSite ι) (i : ι) (w w' : World) (ends : Nat) (claim claim' : Claim)
    (doings : List Doing) (loop : RenewalLoop) : Prop where
  kept : claim'.lost = false
  renewing : Renewing (S.poller i) claim'.message loop
  comes : S.Comes w w' (S.configs i).visibilityTimeout ends (some claim.message) claim'.message
  unopposed : .marked .disposalConflict ∉ doings
  presented : ∀ m, Presents doings m → m.id = claim.message.id

theorem tended_of_renews {claim claim' : Claim} {loop loop' : RenewalLoop}
    (h : S.Holds i w ends phase) (hheld : phase.hand? = some claim.message)
    (hkept : claim.lost = false) (hrenewing : Renewing (S.poller i) claim.message loop)
    (hfaultless : transit.IsFaultless) (hdoes : Does (S.custodian i transit) w doings w')
    (hrenews : Renews (S.poller i) claim loop doings claim' loop') :
    S.Tended i w w' ends claim claim' doings loop' := by
  obtain ⟨hsecures, hlive⟩ := h.claimed _ hheld
  have hsilent : (∀ m, ¬ Presents doings m) →
      S.Comes w w' (S.configs i).visibilityTimeout ends (some claim.message) claim.message :=
    fun hsilent => .kept _ rfl rfl rfl (hsecures.undisturbed h.tidy hlive hdoes hsilent)
  cases hrenews with
  | waits =>
      refine ⟨hkept, ?_, hsilent (by simp), by simp, by simp⟩
      intro pace cancelled state hlive
      obtain ⟨rfl, -, rfl⟩ := TimerLoop.live.inj hlive
      exact ⟨(hrenewing _ _ _ rfl).1, by simp⟩
  | returns idle =>
      exact ⟨hkept, by simp [Renewing], hsilent (by simp), by simp, by simp⟩
  | skips idle lost => simp [hkept] at lost
  | asks idle kept sent =>
      have hsent : sent.IsFaultless :=
        faultless_of_does hdoes hfaultless (List.mem_cons_self ..)
      refine ⟨hkept, ?_, hsilent (by simp), by simp,
        by simp⟩
      intro pace cancelled state hlive
      obtain ⟨rfl, -, rfl⟩ := TimerLoop.live.inj hlive
      refine ⟨(hrenewing _ _ _ rfl).1, ?_⟩
      rintro _ ⟨⟩
      exact ⟨rfl, hsent⟩
  | @hears pace cancelled waiting reply claim' result instant learns =>
      obtain ⟨hpace, hwaiting⟩ := hrenewing _ _ _ rfl
      -- the receipt on its way is still that of the claim: only this timer replaces it
      obtain ⟨hpresented, hsent⟩ := hwaiting waiting rfl
      obtain ⟨presented, sent⟩ := waiting
      obtain rfl : presented = claim.message := hpresented
      have hdoes' : Does (S.custodian i transit) w ([] ++ [.answered .primary
        (.update claim.message (S.configs i).visibilityTimeout) sent reply]) w' := hdoes
      obtain ⟨w₀, h₀, hnow, -, hreply, hafter⟩ := h.heard hdoes'
      obtain ⟨hsecures₀, hlive₀⟩ := h₀.claimed _ hheld
      obtain ⟨receipt, hanswer, hrenewed⟩ :=
        hsecures₀.update h₀.tidy hlive₀ hsent (S.configs i).visibilityTimeout
      obtain rfl : reply = .ok receipt := hreply.trans hanswer
      cases learns with
      | renewed _ nextVisibleAt =>
          have hperformed := keeps_perform S i w₀
            (.update claim.message (S.configs i).visibilityTimeout) transit sent
          refine ⟨hkept, ?_, .renewed _ rfl rfl ?_, by simp,
            by simp⟩
          · intro pace' cancelled' state hlive
            obtain ⟨rfl, -, rfl⟩ := TimerLoop.live.inj hlive
            refine ⟨?_, by simp⟩
            rw [hpace]
            exact (S.poller i).outcome_renewalPace
          · rw [← hnow]
            have hclaim := hrenewed (claim.renewed receipt nextVisibleAt).message rfl rfl
            refine hclaim.undisturbed (hperformed.tidy h₀.tidy) ?_ hafter (by simp)
            rw [hperformed.now]
            exact Instant.lt_windowEnd _ h.lasting

theorem Tended.carries {claim claim' : Claim} {loop : RenewalLoop}
    (h : S.Tended i w w' ends claim claim' doings loop)
    (hheld : phase.hand? = some claim.message) (hheld' : phase'.hand? = some claim'.message)
    (hsound : phase'.IsSound (S.poller i)) :
    S.Carries i w w' ends (some phase) doings (some phase') where
  sound := by
    rintro _ ⟨⟩
    exact hsound
  comes := by
    intro m hm
    obtain rfl := Option.some.inj (hheld'.symm.trans hm)
    rw [Option.bind_some, hheld]
    exact h.comes
  unopposed := h.unopposed
  presented := fun m hm => ⟨_, hheld, h.presented m hm⟩

theorem carries_tends (h : S.Holds i w ends phase) (hfaultless : transit.IsFaultless)
    (hdoes : Does (S.custodian i transit) w doings w')
    (htends : Tends (S.poller i) phase doings phase') :
    S.Carries i w w' ends (some phase) doings (some phase') := by
  cases htends with
  | @executing claim claim' renewal execution loop loop' _ going renews =>
      have htended := tended_of_renews h rfl h.sound.1 (h.sound.2 _ going) hfaultless hdoes renews
      refine htended.carries rfl rfl ⟨htended.kept, ?_⟩
      rintro _ ⟨⟩
      exact htended.renewing
  | @settling claim claim' renewal succeeded wait loop loop' _ going renews =>
      have htended := tended_of_renews h rfl h.sound.1 (h.sound.2 _ going) hfaultless hdoes renews
      refine htended.carries rfl rfl ⟨htended.kept, ?_⟩
      rintro _ ⟨⟩
      exact htended.renewing

/-- A transition of a poller whose tick, if there is one, holds what it may
rely on. -/
theorem carries_plays {loop loop' : PollerLoop}
    (h : ∀ phase, loop.phase? = some phase → S.Holds i w ends phase)
    (hfaultless : transit.IsFaultless) (hdoes : Does (S.custodian i transit) w doings w')
    (hplays : Plays (S.poller i) loop doings loop') :
    S.Carries i w w' ends loop.phase? doings loop'.phase? := by
  cases hplays with
  | waits => exact carries_of_end (by simp) (by simp)
  | returns idle => exact carries_of_end (by simp) (by simp)
  | probes idle sent =>
      have hsent : sent.IsFaultless :=
        faultless_of_does hdoes hfaultless (List.mem_cons_self ..)
      refine ⟨?_, ?_, by simp, by simp⟩
      · rintro _ ⟨⟩
        exact hsent
      · simp [TimerLoop.phase?, LoopState.phase?, TickPhase.hand?]
  | continues script => exact carries_script (h _ rfl) hfaultless hdoes script
  | ends script => exact carries_script (h _ rfl) hfaultless hdoes script
  | dies script => exact carries_script (h _ rfl) hfaultless hdoes script
  | tends tends => exact carries_tends (h _ rfl) hfaultless hdoes tends

end PollingSite

end LeasedListener
