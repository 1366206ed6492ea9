import LeasedListener.Proofs.Polling.Diary
import LeasedListener.Proofs.Polling.Hand
import LeasedListener.Proofs.Scenario.Claims

/-!
# The receipts that a poller presents

The calls for the message in hand present its receipt, and the receipt changes
only with the answer to a renewal.  All this can be told from the script.
-/

namespace LeasedListener

/-- The receipt that comes with an answer of the shared queue. -/
def Doing.issued? : Doing → Option Receipt
  | .answered .primary (.dequeue _) _ (.ok (some m)) => some m.receipt
  | .answered .primary (.update _ _) _ (.ok receipt) => some receipt
  | _ => none

/-- The delivery whose receipt a call on the shared queue presents. -/
def Doing.shown? : Doing → Option Delivery
  | .begun .primary call _ | .answered .primary call _ _ => call.presented?
  | _ => none

def Doing.renews : Doing → Bool
  | .begun .primary call _ | .answered .primary call _ _ => call.renews
  | _ => false

/-- A renewal is refused, and the claim lost with it. -/
def Doing.forfeits : Doing → Bool
  | .answered .primary call _ (.error error) =>
      call.renews && (error.errorClass == .conflict || error.errorClass == .notFound)
  | _ => false

namespace TickPhase

/-- The claim on the message under execution, with the timer that renews it. -/
def charge? : TickPhase → Option (Claim × RenewalTimer)
  | .executing claim renewal _ | .settling claim renewal _ _ => some (claim, renewal)
  | _ => none

/-- The claim is lost, and no renewal is under way. -/
def IsResigned (phase : TickPhase) : Prop :=
  ∀ claim renewal, phase.charge? = some (claim, renewal) →
    claim.lost = true ∧ renewal.phase? = none

end TickPhase

namespace Poller

/-- The call for the message in hand that is under way on the shared queue. -/
def underway? (p : Poller) : TickPhase → Option (QueueCall × Transit)
  | .executing _ renewal _ | .settling _ renewal _ _ =>
      renewal.phase?.map fun waiting =>
        (.update waiting.presented p.config.visibilityTimeout, waiting.transit)
  | .deleting m transit => some (.delete m, transit)
  | .releasing m transit => some (.update m .zero, transit)
  | .probing _ | .dequeuing _ _ | .preparing _ _ | .copying _ _ => none

/-- The call under way presents the receipt in hand, and it does nothing if it
fails. -/
def IsCareful (p : Poller) (phase : TickPhase) : Prop :=
  ∀ call transit, p.underway? phase = some (call, transit) →
    call.presented? = phase.hand? ∧ transit.IsHarmless

end Poller

/-- Only the receipt of `m` is shown, and no other one is issued before. -/
def Faithful (m : Delivery) : List Doing → Prop
  | [] => True
  | doing :: before =>
      (∀ shown, doing.shown? = some shown → shown = m ∧ ∀ d ∈ before, d.issued? = none) ∧
        Faithful m before

theorem Faithful.split {m shown : Delivery} {doings later before : List Doing} {doing : Doing}
    (h : Faithful m doings) (hsplit : doings = later ++ doing :: before)
    (hshown : doing.shown? = some shown) : shown = m ∧ ∀ d ∈ before, d.issued? = none := by
  induction later generalizing doings with
  | nil =>
      subst hsplit
      exact h.1 shown hshown
  | cons head later ih =>
      subst hsplit
      exact ih h.2 rfl

/-- No receipt is shown, and no renewal made. -/
def Doing.IsPlain (doing : Doing) : Prop :=
  doing.shown? = none ∧ doing.renews = false ∧ doing.forfeits = false

/-- What a transition of the tick makes of the message in hand. -/
structure Proceeds (p : Poller) (m : Delivery) (phase : TickPhase) (doings : List Doing)
    (course : TickCourse) : Prop where
  faithful : Faithful m doings
  calm : ∀ doing ∈ doings, doing.renews = false ∧ doing.forfeits = false
  kept : ∀ phase' m', course.phase? = some phase' → phase'.hand? = some m' →
    m' = m ∧ ∀ doing ∈ doings, doing.issued? = none ∧ doing.claims? = none
  careful : p.IsCareful phase →
    (∀ call sent, .begun .primary call sent ∈ doings → sent.IsHarmless) →
      ∀ phase', course.phase? = some phase' → p.IsCareful phase'
  resigned : phase.IsResigned → ∀ phase', course.phase? = some phase' → phase'.IsResigned

section

variable {p : Poller} {cancelled found : Bool} {m : Delivery} {phase : TickPhase}
  {doings earlier : List Doing} {course : TickCourse}

theorem Seeks.plain (h : Seeks p cancelled found doings course) :
    (∀ doing ∈ doings, doing.IsPlain) ∧
      ∀ phase', course.phase? = some phase' → ∃ found transit, phase' = .dequeuing found transit := by
  cases h with
  | quits _ => exact ⟨by simp, by simp [TickCourse.phase?]⟩
  | asks _ transit =>
      refine ⟨?_, ?_⟩
      · rintro doing hdoing
        rw [List.mem_singleton.mp hdoing]
        exact ⟨rfl, rfl, rfl⟩
      · rintro _ ⟨⟩
        exact ⟨_, _, rfl⟩

theorem Concludes.plain {reply : Except StorageError Unit}
    (h : Concludes p cancelled reply doings course) :
    (∀ doing ∈ doings, doing.IsPlain) ∧
      ∀ phase', course.phase? = some phase' → ∃ found transit, phase' = .dequeuing found transit := by
  cases h with
  | done seeks | failed _ seeks => exact seeks.plain
  | gone _ seeks =>
      obtain ⟨hplain, hphase⟩ := seeks.plain
      refine ⟨List.forall_mem_append.mpr ⟨hplain, ?_⟩, hphase⟩
      rintro doing hdoing
      rw [List.mem_singleton.mp hdoing]
      exact ⟨rfl, rfl, rfl⟩
  | fails _ => exact ⟨by simp, by simp [TickCourse.phase?]⟩

theorem Forgoes.plain {error : StorageError} (h : Forgoes p cancelled error doings course) :
    (∀ doing ∈ doings, doing.IsPlain) ∧
      ∀ phase', course.phase? = some phase' → ∃ found transit, phase' = .dequeuing found transit := by
  cases h with
  | leaves _ seeks => exact seeks.plain
  | fails _ => exact ⟨by simp, by simp [TickCourse.phase?]⟩

theorem faithful_append (hplain : ∀ doing ∈ doings, doing.IsPlain) (h : Faithful m earlier) :
    Faithful m (doings ++ earlier) := by
  induction doings with
  | nil => exact h
  | cons doing doings ih =>
      obtain ⟨hdoing, hdoings⟩ := List.forall_mem_cons.mp hplain
      refine ⟨?_, ih hdoings⟩
      rw [hdoing.1]
      rintro _ ⟨⟩

/-- The message is no longer in hand once its last call has been answered. -/
theorem proceeds_of_turn
    (hturns : (∀ doing ∈ doings, doing.IsPlain) ∧
      ∀ phase', course.phase? = some phase' → ∃ found transit, phase' = .dequeuing found transit)
    (hfaithful : Faithful m earlier)
    (hcalm : ∀ doing ∈ earlier, doing.renews = false ∧ doing.forfeits = false) :
    Proceeds p m phase (doings ++ earlier) course := by
  obtain ⟨hplain, hdequeuing⟩ := hturns
  constructor
  case faithful => exact faithful_append hplain hfaithful
  case calm =>
    exact List.forall_mem_append.mpr ⟨fun doing hdoing => (hplain doing hdoing).2, hcalm⟩
  case kept =>
    intro phase' m' hphase hhand
    obtain ⟨found, transit, rfl⟩ := hdequeuing phase' hphase
    cases hhand
  case careful =>
    intro _ _ phase' hphase
    obtain ⟨found, transit, rfl⟩ := hdequeuing phase' hphase
    rintro call sent ⟨⟩
  case resigned =>
    intro _ phase' hphase
    obtain ⟨found, transit, rfl⟩ := hdequeuing phase' hphase
    rintro claim renewal ⟨⟩

/-- The message stays in hand, and its receipt is not used up. -/
theorem proceeds_of_call {phase' : TickPhase} (hfaithful : Faithful m doings)
    (hcalm : ∀ doing ∈ doings, doing.renews = false ∧ doing.forfeits = false)
    (hunused : ∀ doing ∈ doings, doing.issued? = none ∧ doing.claims? = none)
    (hheld : phase'.hand? = some m)
    (hcareful : p.IsCareful phase →
      (∀ call sent, .begun .primary call sent ∈ doings → sent.IsHarmless) → p.IsCareful phase')
    (hresigned : phase.IsResigned → phase'.IsResigned) :
    Proceeds p m phase doings (.continues () phase') where
  faithful := hfaithful
  calm := hcalm
  kept := by
    rintro _ m' ⟨⟩ hhand
    exact ⟨Option.some.inj (hhand.symm.trans hheld), hunused⟩
  careful := by
    rintro hbefore hbegun _ ⟨⟩
    exact hcareful hbefore hbegun
  resigned := by
    rintro hbefore _ ⟨⟩
    exact hresigned hbefore

theorem Script.proceeds (h : Script p cancelled phase doings course)
    (hheld : phase.hand? = some m) : Proceeds p m phase doings course := by
  have hzero : ∀ m : Delivery, (QueueCall.update m .zero).renews = false := fun _ => rfl
  cases h with
  | present _ | absent | unknown | received | exhausted | unserved => cases hheld
  | @executed claim renewal execution succeeded instant start ended =>
      refine proceeds_of_call (by simp [Faithful, Doing.shown?])
        (by simp [Doing.renews, Doing.forfeits]) (by simp [Doing.issued?, Doing.claims?])
        hheld ?_ ?_
      · intro hcareful _ call transit hunderway
        refine hcareful call transit ?_
        simpa [Poller.underway?] using hunderway
      · rintro hresigned _ _ ⟨⟩
        have hrenewal := hresigned claim renewal rfl
        exact ⟨hrenewal.1, (Timer.phase?_cancel renewal).trans hrenewal.2⟩
  | @broken _ _ execution reason _ ended =>
      have hplain : (∀ doing ∈ [Doing.finished execution (.error reason)], doing.IsPlain) ∧
          ∀ phase', TickCourse.phase? (.died () reason) = some phase' →
            ∃ found transit, phase' = TickPhase.dequeuing found transit :=
        ⟨by simp [Doing.IsPlain, Doing.shown?, Doing.renews, Doing.forfeits],
          by simp [TickCourse.phase?]⟩
      exact proceeds_of_turn hplain trivial (by simp)
  | settled stopped disposes =>
      obtain rfl := Option.some.inj hheld
      cases disposes with
      | deletes transit verdict =>
          refine proceeds_of_call (by simp [Faithful, Doing.shown?, Doing.issued?])
            (by simp [Doing.renews, Doing.forfeits, QueueCall.renews])
            (by simp [Doing.issued?, Doing.claims?]) rfl ?_ (by rintro - _ _ ⟨⟩)
          rintro - hbegun _ _ ⟨⟩
          exact ⟨rfl, hbegun _ _ (List.mem_cons_self ..)⟩
      | releases transit verdict =>
          refine proceeds_of_call (by simp [Faithful, Doing.shown?, Doing.issued?])
            (by simp [Doing.renews, Doing.forfeits, hzero])
            (by simp [Doing.issued?, Doing.claims?]) rfl ?_ (by rintro - _ _ ⟨⟩)
          rintro - hbegun _ _ ⟨⟩
          exact ⟨rfl, hbegun _ _ (List.mem_cons_self ..)⟩
      | quarantines transit verdict =>
          exact proceeds_of_call (by simp [Faithful, Doing.shown?])
            (by simp [Doing.renews, Doing.forfeits]) (by simp [Doing.issued?, Doing.claims?]) rfl
            (by rintro - - _ _ ⟨⟩) (by rintro - _ _ ⟨⟩)
      | leaves verdict seeks =>
          exact proceeds_of_turn seeks.plain (by simp [Faithful, Doing.shown?])
            (by simp [Doing.renews, Doing.forfeits])
  | @deleted m transit reply later course concludes =>
      obtain rfl := Option.some.inj hheld
      have hforfeits : (Doing.answered .primary (.delete m) transit reply).forfeits = false := by
        cases reply <;> rfl
      exact proceeds_of_turn concludes.plain (by simp [Faithful, Doing.shown?])
        (by simp [Doing.renews, QueueCall.renews, hforfeits])
  | released concludes =>
      obtain rfl := Option.some.inj hheld
      exact proceeds_of_turn concludes.plain (by simp [Faithful, Doing.shown?])
        (by simp [Doing.renews, Doing.forfeits, hzero])
  | unreleased concludes =>
      obtain rfl := Option.some.inj hheld
      exact proceeds_of_turn concludes.plain (by simp [Faithful, Doing.shown?])
        (by simp [Doing.renews, Doing.forfeits, hzero])
  | prepared =>
      exact proceeds_of_call (by simp [Faithful, Doing.shown?])
        (by simp [Doing.renews, Doing.forfeits]) (by simp [Doing.issued?, Doing.claims?])
        hheld (by rintro - - _ _ ⟨⟩) (by rintro - _ _ ⟨⟩)
  | copied =>
      obtain rfl := Option.some.inj hheld
      refine proceeds_of_call (by simp [Faithful, Doing.shown?, Doing.issued?])
        (by simp [Doing.renews, Doing.forfeits, QueueCall.renews])
        (by simp [Doing.issued?, Doing.claims?]) rfl ?_ (by rintro - _ _ ⟨⟩)
      rintro - hbegun _ _ ⟨⟩
      exact ⟨rfl, hbegun _ _ (List.mem_cons_self ..)⟩
  | unprepared forgoes | uncopied forgoes =>
      exact proceeds_of_turn forgoes.plain (by simp [Faithful, Doing.shown?])
        (by simp [Doing.renews, Doing.forfeits])

/-- The tick does nothing about the claim but cancel the renewals in the end. -/
theorem Script.charge {phase' : TickPhase} {claim : Claim} {renewal' : RenewalTimer}
    (h : Script p cancelled phase doings course) (hheld : phase.hand?.isSome = true)
    (hphase : course.phase? = some phase') (hcharge : phase'.charge? = some (claim, renewal')) :
    ∃ renewal, phase.charge? = some (claim, renewal) ∧ renewal' = renewal.cancel ∧
      ∀ doing ∈ doings, doing.issued? = none := by
  have hdequeuing : ¬ ∃ found transit, phase' = .dequeuing found transit := by
    rintro ⟨found, transit, rfl⟩
    cases hcharge
  cases h with
  | present _ | absent | unknown | received | exhausted | unserved => cases hheld
  | broken _ => cases hphase
  | executed _ =>
      obtain rfl := Option.some.inj hphase
      obtain ⟨rfl, rfl⟩ := Prod.mk.inj (Option.some.inj hcharge)
      exact ⟨_, rfl, rfl, by simp [Doing.issued?]⟩
  | settled _ disposes =>
      cases disposes with
      | deletes _ _ | releases _ _ | quarantines _ _ =>
          obtain rfl := Option.some.inj hphase
          cases hcharge
      | leaves _ seeks => exact absurd (seeks.plain.2 phase' hphase) hdequeuing
  | deleted concludes | released concludes | unreleased concludes =>
      exact absurd (concludes.plain.2 phase' hphase) hdequeuing
  | prepared | copied =>
      obtain rfl := Option.some.inj hphase
      cases hcharge
  | unprepared forgoes | uncopied forgoes =>
      exact absurd (forgoes.plain.2 phase' hphase) hdequeuing

theorem Tends.renews {phase' : TickPhase} (h : Tends p phase doings phase') :
    ∃ claim claim' renewal loop loop', phase.charge? = some (claim, renewal) ∧
      phase'.charge? = some (claim', { renewal with loop := some loop' }) ∧
      renewal.loop = some loop ∧ Renews p claim loop doings claim' loop' := by
  cases h with
  | executing going renews | settling going renews =>
      exact ⟨_, _, _, _, _, rfl, rfl, going, renews⟩

variable {claim claim' : Claim} {renewal : RenewalTimer} {loop loop' : RenewalLoop}

theorem Renews.faithful (h : Renews p claim loop doings claim' loop')
    (hpresented : ∀ waiting, loop.phase? = some waiting → waiting.presented = claim.message) :
    Faithful claim.message doings := by
  cases h with
  | waits | returns _ | skips _ _ => trivial
  | asks _ _ _ => simp [Faithful, Doing.shown?]
  | hears _ => simp [Faithful, Doing.shown?, hpresented _ rfl]

/-- A renewal does one thing at a time. -/
theorem Renews.length_le (h : Renews p claim loop doings claim' loop') : doings.length ≤ 1 := by
  cases h <;> simp

/-- Nothing is done for a claim that is lost. -/
theorem Renews.of_lost (h : Renews p claim loop doings claim' loop') (hlost : claim.lost = true)
    (hidle : loop.phase? = none) : doings = [] ∧ claim'.lost = true ∧ loop'.phase? = none := by
  cases h with
  | waits | returns _ | skips _ _ => exact ⟨rfl, hlost, rfl⟩
  | asks _ kept _ =>
      rw [hlost] at kept
      cases kept
  | hears _ => cases hidle

theorem Renews.of_forfeits {doing : Doing} (h : Renews p claim loop doings claim' loop')
    (hdoing : doing ∈ doings) (hforfeits : doing.forfeits = true) :
    claim'.lost = true ∧ loop'.phase? = none := by
  cases h with
  | waits | returns _ | skips _ _ => cases hdoing
  | asks _ _ _ =>
      rw [List.mem_singleton.mp hdoing] at hforfeits
      cases hforfeits
  | hears learns =>
      rw [List.mem_singleton.mp hdoing] at hforfeits
      refine ⟨?_, rfl⟩
      cases learns with
      | gone _ => rfl
      | renewed _ _ => cases hforfeits
      | failed hclass | fails hclass => simp [Doing.forfeits, hclass] at hforfeits

theorem Renews.asked {waiting : RenewalCall} (h : Renews p claim loop doings claim' loop')
    (hwaiting : loop'.phase? = some waiting) : waiting.presented = claim'.message ∧
      .begun .primary (.update waiting.presented p.config.visibilityTimeout) waiting.transit ∈
        doings := by
  cases h with
  | waits | returns _ | skips _ _ | hears _ => cases hwaiting
  | asks _ _ transit =>
      cases hwaiting
      exact ⟨rfl, List.mem_singleton.mpr rfl⟩

/-- A call for the message in hand presents a receipt. -/
theorem presents_of_underway {call : QueueCall} {transit : Transit}
    (h : p.underway? phase = some (call, transit)) : ∃ m, call.presented? = some m := by
  cases phase with
  | executing _ renewal _ | settling _ renewal _ _ =>
      obtain ⟨waiting, -, hcall⟩ := Option.map_eq_some_iff.mp h
      obtain ⟨rfl, -⟩ := Prod.mk.inj hcall
      exact ⟨_, rfl⟩
  | deleting _ _ | releasing _ _ =>
      obtain ⟨rfl, -⟩ := Prod.mk.inj (Option.some.inj h)
      exact ⟨_, rfl⟩
  | probing _ | dequeuing _ _ | preparing _ _ | copying _ _ => cases h

theorem hand?_of_charge (h : phase.charge? = some (claim, renewal)) :
    phase.hand? = some claim.message := by
  cases phase with
  | executing _ _ _ | settling _ _ _ _ =>
      obtain ⟨rfl, rfl⟩ := Prod.mk.inj (Option.some.inj h)
      rfl
  | probing _ | dequeuing _ _ | deleting _ _ | releasing _ _ | preparing _ _ | copying _ _ => cases h

theorem underway?_of_charge (h : phase.charge? = some (claim, renewal)) :
    p.underway? phase = renewal.phase?.map fun waiting =>
      (.update waiting.presented p.config.visibilityTimeout, waiting.transit) := by
  cases phase with
  | executing _ _ _ | settling _ _ _ _ =>
      obtain ⟨rfl, rfl⟩ := Prod.mk.inj (Option.some.inj h)
      rfl
  | probing _ | dequeuing _ _ | deleting _ _ | releasing _ _ | preparing _ _ | copying _ _ => cases h

end

end LeasedListener
