import LeasedListener.Proofs.Polling.Roster

/-!
# Exclusive processing

No message is in the hands of two pollers of a roster at once, no dequeue
returns a message that is in someone's hand, and every disposal presents a
receipt whose claim stands.
-/

namespace LeasedListener

open Surroundings

namespace Roster

variable {ι : Type} {S : PollingSite ι} {a b : Roster ι} {i : ι} {d : Desk}

structure Invariant (S : PollingSite ι) (a : Roster ι) : Prop where
  tidy : S.IsTidy a.world
  sound : ∀ i d phase, a.desks i = some d → d.phase? = some phase → phase.IsSound (S.poller i)
  secured : ∀ i d m, a.desks i = some d → d.hand? = some m → d.Secured S i a.world m
  distinct : ∀ i j d d' m m', a.desks i = some d → a.desks j = some d' → d.hand? = some m →
    d'.hand? = some m' → m.id = m'.id → i = j
  unopposed : ∀ i, PollingSite.conflicts a.world (S.names i) = 0

def Executes (a : Roster ι) (i : ι) (m : Delivery) : Prop :=
  ∃ d claim renewal execution, a.desks i = some d ∧
    d.phase? = some (.executing claim renewal execution) ∧ claim.message = m

/-- A deletion or a release of the message is under way. -/
def Disposes (a : Roster ι) (i : ι) (m : Delivery) : Prop :=
  ∃ d transit, a.desks i = some d ∧
    (d.phase? = some (.deleting m transit) ∨ d.phase? = some (.releasing m transit))

/-- A renewal timer waits for `interval` from attempt to attempt. -/
def Reports (a : Roster ι) (i : ι) (interval : Duration) : Prop :=
  ∃ d claim renewal pace cancelled state, a.desks i = some d ∧
    ((∃ execution, d.phase? = some (.executing claim renewal execution)) ∨
      ∃ succeeded wait, d.phase? = some (.settling claim renewal succeeded wait)) ∧
    renewal.loop = some (.live pace cancelled state) ∧ pace.next = interval

theorem Executes.hand? {m : Delivery} (h : a.Executes i m) :
    ∃ d, a.desks i = some d ∧ d.hand? = some m := by
  obtain ⟨d, claim, renewal, execution, hdesk, hphase, rfl⟩ := h
  exact ⟨d, hdesk, by rw [Desk.hand?, hphase]; rfl⟩

theorem Disposes.hand? {m : Delivery} (h : a.Disposes i m) :
    ∃ d, a.desks i = some d ∧ d.hand? = some m := by
  obtain ⟨d, transit, hdesk, hphase⟩ := h
  refine ⟨d, hdesk, ?_⟩
  rcases hphase with hphase | hphase <;> rw [Desk.hand?, hphase] <;> rfl

theorem Invariant.honours (ha : a.Invariant S) (hS : S.IsValid) {m : Delivery}
    (hdesk : a.desks i = some d) (hhand : d.hand? = some m) :
    (a.world.queue S.primary).Honours a.world.now m := by
  have hsecured := ha.secured i d m hdesk hhand
  exact Queue.Secures.honours hsecured.claim (hsecured.live hS)

theorem Invariant.reports (ha : a.Invariant S) {interval : Duration} (h : a.Reports i interval) :
    interval = (S.configs i).renewalInterval := by
  obtain ⟨d, claim, renewal, pace, cancelled, state, hdesk, hphase, hloop, rfl⟩ := h
  have hrenewing : Renewing (S.poller i) claim.message (.live pace cancelled state) := by
    rcases hphase with ⟨execution, hphase⟩ | ⟨succeeded, wait, hphase⟩
    · exact (ha.sound i d _ hdesk hphase).2 _ hloop
    · exact (ha.sound i d _ hdesk hphase).2 _ hloop
  rw [(hrenewing pace cancelled state rfl).1]
  exact (S.poller i).next_renewalPace

/-- Something happens to the world that spares all claims in hand. -/
theorem Invariant.follow (ha : a.Invariant S) (hS : S.IsValid) {w : World}
    {spared : Delivery → Prop} (hkeeps : S.Keeps spared a.world w)
    (hspared : ∀ i d m, a.desks i = some d → d.hand? = some m → spared m)
    (hconflicts : ∀ i, PollingSite.conflicts w (S.names i) =
      PollingSite.conflicts a.world (S.names i)) :
    ({ a with world := w } : Roster ι).Invariant S where
  tidy := hkeeps.tidy ha.tidy
  sound := ha.sound
  secured i d m hdesk hhand :=
    (ha.secured i d m hdesk hhand).keeps hS ha.tidy hkeeps (hspared i d m hdesk hhand)
  distinct := ha.distinct
  unopposed i := (hconflicts i).trans (ha.unopposed i)

theorem Invariant.elapse (ha : a.Invariant S) {now : Nat} (hlater : a.world.now ≤ now)
    (htimely : a.IsTimely S now) :
    ({ a with world := { a.world with now } } : Roster ι).Invariant S where
  tidy := ha.tidy
  sound := ha.sound
  secured i d m hdesk hhand := by
    obtain ⟨hclaim, hpast, -⟩ := ha.secured i d m hdesk hhand
    exact ⟨hclaim, Nat.le_trans hpast hlater, htimely i d m hdesk hhand⟩
  distinct := ha.distinct
  unopposed := ha.unopposed

/-- The claim with which a message comes to be in hand, or stays there. -/
theorem Invariant.secured_turn (ha : a.Invariant S) (hpresent : a.desks i = some d)
    {w : World} {t : PollerTimer} {m : Delivery} (hnow : w.now = a.world.now)
    (hhand : (d.turn t w.now).hand? = some m)
    (hcomes : S.Comes a.world w (S.configs i).visibilityTimeout
      (Instant.windowEnd d.since (S.configs i).visibilityTimeout) d.hand? m) :
    (d.turn t w.now).Secured S i w m := by
  have hhand' : t.phase?.bind TickPhase.hand? = some m := hhand
  by_cases hreceipt : some m.receipt = d.hand?.map (·.receipt)
  · -- the receipt is the one that was in hand before
    obtain ⟨before, hbefore, -⟩ := Option.map_eq_some_iff.mp hreceipt.symm
    obtain ⟨-, hpast, hrecent⟩ := ha.secured i d before hpresent hbefore
    have hsince : (d.turn t w.now).since = d.since := by
      simp only [Desk.turn, hhand', Option.map_some]
      exact if_pos hreceipt
    have hearlier : Instant.windowEnd d.since (S.configs i).visibilityTimeout ≤
        Instant.windowEnd a.world.now (S.configs i).visibilityTimeout :=
      Nat.add_le_add_right hpast _
    constructor
    case claim =>
        rw [hsince]
        cases hcomes with
        | kept before held same receipt secures => exact secures
        | renewed before held same secures => exact secures.earlier hearlier
        | taken free secures => exact secures.earlier hearlier
    case past =>
        rw [hsince, hnow]
        exact hpast
    case recent =>
        rw [hsince, hnow]
        exact hrecent
  · have hsince : (d.turn t w.now).since = w.now := by
      simp only [Desk.turn, hhand', Option.map_some]
      exact if_neg hreceipt
    constructor
    case claim =>
        rw [hsince, hnow]
        cases hcomes with
        | kept before held same receipt secures =>
            rw [held, receipt] at hreceipt
            exact absurd rfl hreceipt
        | renewed before held same secures => exact secures
        | taken free secures => exact secures
    case past => exact Nat.le_of_eq hsince
    case recent =>
        rw [hsince]
        exact Nat.le_add_right ..

variable [DecidableEq ι]

/-- Something happens to one poller, and to the world as far as the claims of
the others are spared. -/
theorem Invariant.turn (ha : a.Invariant S) (hS : S.IsValid) {w : World} {desk : Option Desk}
    {spared : Delivery → Prop} (hkeeps : S.Keeps spared a.world w)
    (hspared : ∀ j d m, j ≠ i → a.desks j = some d → d.hand? = some m → spared m)
    (hsound : ∀ d phase, desk = some d → d.phase? = some phase → phase.IsSound (S.poller i))
    (hsecured : ∀ d m, desk = some d → d.hand? = some m → d.Secured S i w m)
    (hdistinct : ∀ d m j d' m', desk = some d → d.hand? = some m → j ≠ i →
      a.desks j = some d' → d'.hand? = some m' → m.id ≠ m'.id)
    (hconflicts : ∀ j, PollingSite.conflicts w (S.names j) = 0) :
    (({ a with world := w } : Roster ι).put i desk).Invariant S := by
  have hself : (({ a with world := w } : Roster ι).put i desk).desks i = desk :=
    desks_put_self ..
  have hother : ∀ j, j ≠ i →
      (({ a with world := w } : Roster ι).put i desk).desks j = a.desks j :=
    fun j hj => desks_put_of_ne hj ..
  constructor
  case tidy => exact hkeeps.tidy ha.tidy
  case sound =>
      intro j d phase hdesk hphase
      by_cases hj : j = i
      · subst hj
        exact hsound d phase (hself.symm.trans hdesk) hphase
      · exact ha.sound j d phase ((hother j hj).symm.trans hdesk) hphase
  case secured =>
      intro j d m hdesk hhand
      by_cases hj : j = i
      · subst hj
        exact hsecured d m (hself.symm.trans hdesk) hhand
      · have hdesk' : a.desks j = some d := (hother j hj).symm.trans hdesk
        exact (ha.secured j d m hdesk' hhand).keeps hS ha.tidy hkeeps
          (hspared j d m hj hdesk' hhand)
  case distinct =>
      intro j k d d' m m' hj hk hm hm' hid
      by_cases hji : j = i <;> by_cases hki : k = i
      · rw [hji, hki]
      · subst hji
        exact absurd hid (hdistinct d m k d' m' (hself.symm.trans hj) hm hki
          ((hother k hki).symm.trans hk) hm')
      · subst hki
        exact absurd hid.symm (hdistinct d' m' j d m (hself.symm.trans hk) hm' hji
          ((hother j hji).symm.trans hj) hm)
      · exact ha.distinct j k d d' m m' ((hother j hji).symm.trans hj)
          ((hother k hki).symm.trans hk) hm hm' hid
  case unopposed => exact hconflicts

/-- A poller changes while the world is as it was, and lets go of its message
if it does not keep it. -/
theorem Invariant.same (ha : a.Invariant S) (hS : S.IsValid) {d' : Desk}
    (hpresent : a.desks i = some d) (hsince : d'.since = d.since)
    (hsound : ∀ phase, d'.phase? = some phase → phase.IsSound (S.poller i))
    (hhand : d'.hand? = none ∨ d'.hand? = d.hand?) : (a.put i (some d')).Invariant S := by
  have hheld : ∀ m, d'.hand? = some m → d.hand? = some m := by
    intro m hm
    rcases hhand with hnone | hsame
    · simp [hnone] at hm
    · exact hsame.symm.trans hm
  have hkeeps : S.Keeps (fun _ => True) a.world a.world :=
    PollingSite.keeps_of_apart rfl rfl (Nat.le_refl _)
  refine ha.turn hS hkeeps (by simp) ?_ ?_ ?_ ha.unopposed
  · rintro _ phase ⟨⟩ hphase
    exact hsound phase hphase
  · rintro _ m ⟨⟩ hm
    obtain ⟨hclaim, hpast, hrecent⟩ := ha.secured i d m hpresent (hheld m hm)
    exact ⟨hsince ▸ hclaim, hsince ▸ hpast, hsince ▸ hrecent⟩
  · rintro _ m j e m' ⟨⟩ hm hj he hm' hid
    exact hj (ha.distinct i j d e m m' hpresent he (hheld m hm) hm' hid).symm

theorem Invariant.samePhase (ha : a.Invariant S) (hS : S.IsValid) {t : PollerTimer}
    (hpresent : a.desks i = some d) (hphase : t.phase? = d.timer.phase?) :
    (a.put i (some { d with timer := t })).Invariant S := by
  have hsame : ({ d with timer := t } : Desk).phase? = d.phase? := hphase
  refine ha.same hS hpresent rfl ?_ (.inr (congrArg (·.bind TickPhase.hand?) hsame))
  intro phase hstepping
  exact ha.sound i d phase hpresent (hsame.symm.trans hstepping)

theorem Invariant.idle (ha : a.Invariant S) (hS : S.IsValid) {w : World} {desk : Option Desk}
    (hkeeps : S.Keeps (fun _ => True) a.world w)
    (hconflicts : ∀ j, PollingSite.conflicts w (S.names j) =
      PollingSite.conflicts a.world (S.names j))
    (hidle : ∀ d, desk = some d → d.phase? = none) :
    (({ a with world := w } : Roster ι).put i desk).Invariant S := by
  have hnone : ∀ d m, desk = some d → d.hand? ≠ some m := by
    intro d m hd
    simp [Desk.hand?, hidle d hd]
  refine ha.turn hS hkeeps (by simp) ?_ ?_ ?_ fun j => (hconflicts j).trans (ha.unopposed j)
  · intro d phase hd hphase
    exact absurd ((hidle d hd).symm.trans hphase) (by simp)
  · exact fun d m hd hm => absurd hm (hnone d m hd)
  · exact fun d m _ _ _ hd hm => absurd hm (hnone d m hd)

theorem Invariant.poll (ha : a.Invariant S) (hS : S.IsValid) (hpresent : a.desks i = some d)
    {transit : Transit} (hadmitted : transit.IsFaultless) {t : PollerTimer} {w : World}
    (hpolled : d.timer.poll ((S.poller i).drive (S.custodian i transit)) a.world = some (t, w)) :
    (({ a with world := w } : Roster ι).put i (some (d.turn t w.now))).Invariant S := by
  obtain ⟨loop, loop', doings, hloop, rfl, hdoes, hplays⟩ := poll_performs hpolled
  have hbefore : d.phase? = loop.phase? := Timer.phase?_of_loop hloop
  have hkeeps := PollingSite.keeps_of_does hdoes
  have hlasting : 0 < (S.configs i).visibilityTimeout.nanos :=
    ((S.configs i).validate_eq_ok_iff.mp (hS i).1).1
  have hholds : ∀ phase, loop.phase? = some phase → S.Holds i a.world
      (Instant.windowEnd d.since (S.configs i).visibilityTimeout) phase := by
    intro phase hphase
    refine ⟨hlasting, ha.tidy, ha.sound i d phase hpresent (hbefore.trans hphase), ?_⟩
    intro m hm
    have hhand : d.hand? = some m := by
      rw [Desk.hand?, hbefore, hphase]
      exact hm
    have hsecured := ha.secured i d m hpresent hhand
    exact ⟨hsecured.claim, hsecured.live hS⟩
  obtain ⟨hsound, hcomes, hunopposed, hpresented⟩ :=
    PollingSite.carries_plays hholds hadmitted hdoes hplays
  rw [← hbefore] at hcomes hpresented
  have hafter : ∀ phase, (d.turn { d.timer with loop := some loop' } w.now).phase? = some phase →
      loop'.phase? = some phase := by
    intro phase hphase
    rw [← hphase]
    exact (Timer.phase?_of_loop rfl).symm
  have hcomes' : ∀ m, (d.turn { d.timer with loop := some loop' } w.now).hand? = some m →
      S.Comes a.world w (S.configs i).visibilityTimeout
        (Instant.windowEnd d.since (S.configs i).visibilityTimeout) d.hand? m := by
    intro m hm
    obtain ⟨phase, hphase, hheld⟩ := Option.bind_eq_some_iff.mp hm
    exact hcomes m (Option.bind_eq_some_iff.mpr ⟨phase, hafter phase hphase, hheld⟩)
  refine ha.turn hS hkeeps ?_ ?_ ?_ ?_ ?_
  · -- what is presented is about the message in hand, which no other poller has
    intro j e m hj he hm other hother hid
    obtain ⟨held, hheld, hsame⟩ := hpresented other hother
    exact hj (ha.distinct i j d e held m hpresent he hheld hm (hsame.symm.trans hid)).symm
  · rintro _ phase ⟨⟩ hphase
    exact hsound phase (hafter phase hphase)
  · rintro _ m ⟨⟩ hm
    exact ha.secured_turn hpresent hkeeps.now hm (hcomes' m hm)
  · -- a message that is taken is free, and the claims of the others stand
    rintro _ m j e m' ⟨⟩ hm hj he hm' hid
    cases hcomes' m hm with
    | kept before held same receipt secures =>
        exact hj (ha.distinct i j d e before m' hpresent he held hm' (same.symm.trans hid)).symm
    | renewed before held same secures =>
        exact hj (ha.distinct i j d e before m' hpresent he held hm' (same.symm.trans hid)).symm
    | taken free secures =>
        have hsecured := ha.secured j e m' he hm'
        exact free m' _ (hsecured.live hS) hsecured.claim hid.symm
  · intro j
    exact (PollingSite.conflicts_of_does hdoes hunopposed _).trans (ha.unopposed j)

theorem Invariant.step (ha : a.Invariant S) (hS : S.IsValid) (hstep : Step S a b) :
    b.Invariant S := by
  cases hstep with
  | elapse later timely => exact ha.elapse later timely
  | @elsewhere w apart =>
      have hkeeps : S.Keeps (fun _ => True) a.world w :=
        PollingSite.keeps_of_apart apart.now apart.queue apart.serials
      refine ha.follow hS hkeeps (by simp) ?_
      intro i
      simp only [PollingSite.conflicts, apart.tallies i]
  | @client call transit keeps foreign =>
      refine ha.follow hS (PollingSite.keeps_callQueue a.world call transit) ?_ fun _ => rfl
      intro i d held hdesk hheld m hpresented hid
      exact foreign m hpresented i d held hdesk hheld hid
  | @push body dequeueCount =>
      have hkeeps : S.Keeps (fun _ => True) a.world (a.world.push S.primary body dequeueCount) :=
        PollingSite.keeps_push a.world body dequeueCount
      exact ha.follow hS hkeeps (by simp) fun _ => rfl
  | join absent =>
      refine ha.idle hS (PollingSite.keeps_of_apart rfl rfl (Nat.le_refl _)) (fun _ => rfl) ?_
      rintro _ ⟨⟩
      rfl
  | start present started =>
      refine ha.idle hS (PollingSite.keeps_of_apart rfl rfl (Nat.le_refl _)) (fun _ => rfl) ?_
      rintro _ ⟨⟩
      exact (Timer.of_start started).1
  | @rouse i d present => exact ha.samePhase hS present d.timer.phase?_rouse
  | @renew i d present =>
      refine ha.same hS present rfl ?_ (.inr d.hand?_renew)
      intro phase hphase
      rw [d.phase?_renew, Option.map_eq_some_iff] at hphase
      obtain ⟨before, hbefore, rfl⟩ := hphase
      exact (ha.sound i d before present hbefore).rouse
  | poll present admitted polled => exact ha.poll hS present admitted polled
  | @cancel i d present => exact ha.samePhase hS present d.timer.phase?_cancel
  | @settle i d t wait result events present settled =>
      have hlog := World.sameButLog_reportAll a.world events
      have hkeeps : S.Keeps (fun _ => True) a.world (reportAll a.world events) := by
        refine PollingSite.keeps_of_apart hlog.now ?_ (Nat.le_of_eq ?_)
        · simp only [World.queue, hlog.queues]
        · rw [hlog.serials]
      refine ha.idle hS hkeeps ?_ ?_
      · intro j
        simp only [PollingSite.conflicts, hlog.tallies]
      · rintro _ ⟨⟩
        simp [Desk.phase?, Timer.phase?, (Timer.of_stopResult? settled).1]
  | drop =>
      exact ha.idle hS (PollingSite.keeps_of_apart rfl rfl (Nat.le_refl _)) (fun _ => rfl) (by simp)

theorem Reachable.invariant (h : Reachable S a) (hS : S.IsValid) : a.Invariant S := by
  induction h with
  | start tidy unopposed =>
      constructor
      case tidy => exact tidy
      case unopposed => exact unopposed
      all_goals simp
  | step _ hstep ih => exact ih.step hS hstep

/-- The user function runs on a message in one place at most, no dequeue
returns the message meanwhile, and every disposal presents a receipt that is
honoured.  The renewal timers ask for the interval that time respects. -/
theorem processing_exclusive (hS : S.IsValid) (h : Reachable S a) :
    (∀ i j m m', a.Executes i m → a.Executes j m' → m.id = m'.id → i = j) ∧
    (∀ i m, a.Executes i m → ∀ wallClock fresh window m',
      ((a.world.queue S.primary).dequeue a.world.now wallClock fresh window).2 = .ok (some m') →
        m'.id ≠ m.id) ∧
    (∀ i m, a.Disposes i m → (a.world.queue S.primary).Honours a.world.now m) ∧
    (∀ i, PollingSite.conflicts a.world (S.names i) = 0) ∧
    ∀ i interval, a.Reports i interval → interval = (S.configs i).renewalInterval := by
  have ha : a.Invariant S := h.invariant hS
  refine ⟨?_, ?_, ?_, ha.unopposed, fun i interval hreports => ha.reports hreports⟩
  · intro i j m m' hi hj hid
    obtain ⟨d, hdesk, hhand⟩ := hi.hand?
    obtain ⟨d', hdesk', hhand'⟩ := hj.hand?
    exact ha.distinct i j d d' m m' hdesk hdesk' hhand hhand' hid
  · intro i m hi wallClock fresh window m' hdequeue hid
    obtain ⟨d, hdesk, hhand⟩ := hi.hand?
    have hdelivers := Queue.delivers_of_dequeue ha.tidy.distinct hdequeue
    exact hdelivers.not_honours hid.symm (ha.honours hS hdesk hhand)
  · intro i m hi
    obtain ⟨d, hdesk, hhand⟩ := hi.hand?
    exact ha.honours hS hdesk hhand

def advance (S : PollingSite ι) (i : ι) (a : Roster ι) : Roster ι :=
  match a.desks i with
  | none => a
  | some d =>
      match d.timer.poll ((S.poller i).drive (S.custodian i (.direct a.world.now))) a.world with
      | none => a
      | some (t, w) => { a with world := w }.put i (some (d.turn t w.now))

theorem Reachable.advance (h : Reachable S a) (i : ι) : Reachable S (a.advance S i) := by
  unfold Roster.advance
  split
  · exact h
  · next present =>
      split
      · exact h
      · next polled =>
          have hfaultless : Transit.IsFaultless (.direct a.world.now) := rfl
          exact h.step (.poll present hfaultless polled)

/-- Two pollers with the standard configuration, which take an hour for a
message. -/
def office : PollingSite Bool where
  primary := "jobs"
  poison := "scrap"
  distinct := by simp
  names second := bif second then "second" else "first"
  configs _ := .standard
  quarantines _ := true

def vacant : Roster Bool where
  world := { World.initial with
    queues := ⟨[("jobs", .create "jobs")]⟩
    executors := ⟨[("first", ⟨.scripted [] { length := .ofSeconds 3600 }, []⟩)]⟩ }
  desks _ := none

def stocked : Roster Bool :=
  { vacant with world := (vacant.world.callQueue "jobs" (.enqueue [7]) (.direct 0)).1 }

def staffed : Roster Bool :=
  (stocked.put false
    (some ⟨.create (office.poller false).timerName (office.poller false).pace, 0⟩)).put false
    (some ⟨.started (office.poller false).timerName (office.poller false).pace true, 0⟩)

/-- The first poller is at work on the message, and waits for the next
renewal. -/
def engaged : Roster Bool :=
  (((staffed.advance office false).advance office false).advance office false).advance office false

def due : Roster Bool :=
  let later := { engaged with world := { engaged.world with now := 60000000000 } }
  later.put false ((later.desks false).map Desk.renew)

def extended : Roster Bool := (due.advance office false).advance office false

theorem isValid_office : office.IsValid :=
  fun _ => ⟨PollingConfig.validate_standard, by decide +revert⟩

theorem reachable_engaged : Reachable office engaged := by
  have hvacant : Reachable office vacant :=
    .start ⟨rfl, List.nodup_nil, by simp [office, World.queue, Table.get?, Queue.create]⟩
      fun _ => rfl
  have hstocked : Reachable office stocked :=
    hvacant.step (.client (by simp) (by simp))
  have hjoined := hstocked.step (.join (i := false) rfl)
  have hstaffed : Reachable office staffed := hjoined.step (.start (desks_put_self ..) rfl)
  exact (((hstaffed.advance false).advance false).advance false).advance false

theorem reachable_extended : Reachable office extended := by
  have htimely : engaged.IsTimely office 60000000000 := by
    intro i d m hdesk hhand
    cases i with
    | false =>
        obtain rfl := Option.some.inj hdesk
        decide
    | true => exact absurd hdesk (by simp [show engaged.desks true = none from rfl])
  have hlater := reachable_engaged.step (.elapse (by decide) htimely)
  have hdue : Reachable office due := hlater.step (.renew rfl)
  exact (hdue.advance false).advance false

theorem processing_exclusive_extended :
    (∃ m, extended.Executes false m ∧ m.id = ⟨0⟩ ∧ m.receipt = ⟨1⟩) ∧
      ∀ i m, extended.Executes i m → m.id = ⟨0⟩ → i = false := by
  have hfirst : ∃ m, extended.Executes false m ∧ m.id = ⟨0⟩ ∧ m.receipt = ⟨1⟩ :=
    ⟨_, ⟨_, _, _, _, rfl, rfl, rfl⟩, rfl, rfl⟩
  refine ⟨hfirst, ?_⟩
  obtain ⟨m, hm, hid, -⟩ := hfirst
  intro i m' hi hid'
  exact (processing_exclusive isValid_office reachable_extended).1 i false m' m hi hm
    (hid'.trans hid.symm)

end Roster

end LeasedListener
