import LeasedListener.Proofs.Polling.Presenting
import LeasedListener.Proofs.Polling.Roster
import LeasedListener.Proofs.Polling.Sweep

/-!
# A message in the charge of a poller

A poller has taken a message from a queue and processes it, while time passes,
other clients use the queue, errors are put in store, and the queue may even be
dropped.  Calls of the poller may take any time, and may fail before they have
had an effect.  The transitions of the tick and those of the renewal timer come
in any order.
-/

namespace LeasedListener

open Surroundings

/-- The receipt that was issued last, and when. -/
def Diary.lastIssue? (diary : Diary) : Option (Nat × Receipt) :=
  diary.findSome? fun entry => entry.doing.issued?.map fun receipt => (entry.instant, receipt)

theorem Diary.lastIssue?_append {doings : List Doing} (instant : Nat) (diary : Diary)
    (hunissued : ∀ doing ∈ doings, doing.issued? = none) :
    Diary.lastIssue? (doings.map (DiaryEntry.mk instant) ++ diary) = diary.lastIssue? := by
  induction doings with
  | nil => rfl
  | cons doing doings ih =>
      obtain ⟨hdoing, hdoings⟩ := List.forall_mem_cons.mp hunissued
      simp only [lastIssue?, List.map_cons, List.cons_append, List.findSome?_cons, hdoing,
        Option.map_none]
      exact ih hdoings

structure Charge where
  env : World × Diary
  /-- The phase of the tick, as long as it goes on. -/
  phase? : Option TickPhase
  /-- Whether the queue was dropped since the message was delivered. -/
  dropped : Bool

namespace Charge

/-- The message in hand. -/
def hand? (c : Charge) : Option Delivery := c.phase?.bind TickPhase.hand?

section

variable (p : Poller) (name tally : String)

def access : PollerAccess (World × Diary) :=
  (World.pollerAccess name p.queue p.poison tally).diarised

/-- A failure of a call of the poller does not hide an effect of the call. -/
def IsHarmless (w : World) : Prop :=
  ∀ entry ∈ (w.gateway (name ++ ".queue")).script, ∀ fault, entry.fault = some fault →
    fault.after = false

/-- A change that the queue is not concerned with. -/
structure Apart (w w' : World) : Prop where
  now : w'.now = w.now
  queue : w'.queue p.queue = w.queue p.queue
  serials : w.serials.message ≤ w'.serials.message
  harmless : IsHarmless name w'

/-- What happens beside the renewal timer. -/
inductive Stir : Charge → Charge → Prop
  | elapse {c : Charge} {now : Nat} (later : c.env.1.now ≤ now) :
      Stir c { c with env := ({ c.env.1 with now }, c.env.2) }
  | elsewhere {c : Charge} {w : World} (apart : Apart p name c.env.1 w) :
      Stir c { c with env := (w, c.env.2) }
  /-- Another client does not have the receipt of the poller. -/
  | client {c : Charge} {call : QueueCall} {transit : Transit}
      (foreign : ∀ m held, call.presented? = some m → c.hand? = some held → m.id = held.id →
        m.receipt ≠ held.receipt) :
      Stir c { c with env := ((c.env.1.callQueue p.queue call transit).1, c.env.2) }
  | push {c : Charge} {body : List UInt8} {dequeueCount : UInt32} :
      Stir c { c with env := (c.env.1.push p.queue body dequeueCount, c.env.2) }
  | inject {c : Charge} {operation : QueueOperation} {error : StorageError} :
      Stir c { c with
        env := (c.env.1.amend p.queue (·.injectFault operation error), c.env.2) }
  | drop {c : Charge} :
      Stir c { c with env := (c.env.1.amend p.queue Queue.drop, c.env.2), dropped := true }
  /-- A wait of the renewal timer may end at any time. -/
  | rouse {c : Charge} : Stir c { c with phase? := c.phase?.map TickPhase.rouse }
  | own {c : Charge} {phase : TickPhase} {cancelled : Bool}
      {progress : TickProgress (World × Diary)} (current : c.phase? = some phase)
      (held : phase.hand?.isSome = true)
      (advances : p.advance (access p name tally) c.env cancelled phase = some progress) :
      Stir c { c with env := progress.env, phase? := TickCourse.phase? progress.course }

inductive Step : Charge → Charge → Prop
  | stir {c c' : Charge} (stirs : Stir p name tally c c') : Step c c'
  | tend {c : Charge} {phase phase' : TickPhase} {env : World × Diary}
      (current : c.phase? = some phase)
      (tends : p.advanceRenewal (access p name tally) c.env phase = some (env, phase')) :
      Step c { c with env, phase? := some phase' }

/-- In the beginning the message is delivered. -/
inductive Starts : Charge → Prop
  | delivers {w : World} {found cancelled : Bool} {transit : Transit} {env : World × Diary}
      {phase : TickPhase} (numbered : w.IsNumbered p.queue) (harmless : IsHarmless name w)
      (delivered : p.advance (access p name tally) (w, []) cancelled (.dequeuing found transit) =
        some (.continues env phase)) : Starts ⟨env, some phase, false⟩

inductive Reachable : Charge → Prop
  | start {c : Charge} (starts : Starts p name tally c) : Reachable c
  | step {c c' : Charge} : Reachable c → Step p name tally c c' → Reachable c'

/-- The claim on a message stands until its window is over, unless the queue
was dropped. -/
def Stands (c : Charge) (m : Delivery) : Prop :=
  ∃ since, c.env.2.lastIssue? = some (since, m.receipt) ∧
    (c.dropped = true ∨
      c.env.1.Upholds p.queue m (Instant.windowEnd since p.config.visibilityTimeout))

/-- The message has just been delivered, and the renewal timer is fresh. -/
structure Fresh (c : Charge) (m : Delivery) (execution : Execution) : Prop where
  numbered : c.env.1.IsNumbered p.queue
  harmless : IsHarmless name c.env.1
  phase : c.phase? = some (.executing (.create m) (p.renewalTimer m) execution)
  issue : c.env.2.lastIssue? = some (c.env.1.now, m.receipt)
  plain : ∀ entry ∈ c.env.2, entry.doing.IsPlain
  upholds : c.env.1.Upholds p.queue m
    (Instant.windowEnd c.env.1.now p.config.visibilityTimeout)

structure Invariant (c : Charge) : Prop where
  numbered : c.env.1.IsNumbered p.queue
  harmless : IsHarmless name c.env.1
  shown : ∀ later entry earlier, c.env.2 = later ++ entry :: earlier →
    ∀ m, entry.doing.shown? = some m → ∃ since, Diary.lastIssue? earlier = some (since, m.receipt)
  forfeited : ∀ later entry earlier, c.env.2 = later ++ entry :: earlier →
    entry.doing.forfeits = true → ∀ after ∈ later, after.doing.renews = false
  resigned : (∃ entry ∈ c.env.2, entry.doing.forfeits = true) →
    ∀ phase, c.phase? = some phase → phase.IsResigned
  stands : ∀ m, c.hand? = some m → c.Stands p m
  careful : ∀ phase, c.phase? = some phase → p.IsCareful phase

end

section

variable {p : Poller} {name tally : String} {env env' : World × Diary} {doings : List Doing}

/-- What a poller does takes no time, and goes into its diary. -/
theorem entries_of_does (h : Does (access p name tally) env doings env') :
    env'.1.now = env.1.now ∧ env'.2 = doings.map (DiaryEntry.mk env.1.now) ++ env.2 := by
  induction h with
  | rest => exact ⟨rfl, rfl⟩
  | report _ _ ih => exact ih
  | begin role _ _ ih | hear role _ _ _ ih =>
      obtain ⟨hnow, hdiary⟩ := ih
      rw [access, PollerAccess.side_diarised]
      refine ⟨by cases role <;> exact hnow, ?_⟩
      rw [List.map_cons, List.cons_append, ← hdiary, ← hnow]
      rfl
  | mark _ _ ih | finish _ _ _ ih =>
      obtain ⟨hnow, hdiary⟩ := ih
      refine ⟨hnow, ?_⟩
      rw [List.map_cons, List.cons_append, ← hdiary, ← hnow]
      rfl
  | @start doings mid m _ ih =>
      obtain ⟨hnow, hdiary⟩ := ih
      have hsame : (mid.1.execute name m).1.now = mid.1.now := by
        obtain ⟨log, executors, hexecute⟩ := mid.1.execute_fst name m
        rw [hexecute]
      refine ⟨hsame.trans hnow, ?_⟩
      rw [List.map_cons, List.cons_append, ← hdiary, ← hnow]
      rfl

theorem harmless_execute {w : World} (hharmless : IsHarmless name w) (m : Delivery) :
    IsHarmless name (w.execute name m).1 := by
  obtain ⟨log, executors, hexecute⟩ := w.execute_fst name m
  rw [hexecute]
  exact hharmless

theorem harmless_issue {w : World} (hharmless : IsHarmless name w) (gateway : String)
    (call : CallKind) : IsHarmless name (w.issue gateway call).1 :=
  @World.script_issue (fun _ fault => ∀ made, fault = some made → made.after = false) w gateway
    (name ++ ".queue") call hharmless

theorem isHarmless_of_issue {w : World} (hharmless : IsHarmless name w) (call : CallKind) :
    (w.issue (name ++ ".queue") call).2.IsHarmless := by
  rcases @World.transit_issue (fun _ fault => ∀ made, fault = some made → made.after = false) w
    (name ++ ".queue") call hharmless with hdirect | ⟨delay, fault, hfault, hsent⟩
  · rw [hdirect]
    rintro fault ⟨⟩
  · rw [hsent]
    exact hfault

theorem harmless_of_does {w w' : World}
    (h : Does (World.pollerAccess name p.queue p.poison tally) w doings w')
    (hharmless : IsHarmless name w) : IsHarmless name w' ∧
      ∀ call sent, .begun .primary call sent ∈ doings → sent.IsHarmless := by
  induction h with
  | rest => exact ⟨hharmless, by simp⟩
  | report _ _ ih => exact ih
  | mark _ _ ih | finish _ _ _ ih => exact ⟨ih.1, by simpa using ih.2⟩
  | start m _ ih => exact ⟨harmless_execute ih.1 m, by simpa using ih.2⟩
  | @begin doings mid role call _ ih =>
      cases role with
      | poison => exact ⟨harmless_issue ih.1 _ _, by simpa using ih.2⟩
      | primary =>
          refine ⟨harmless_issue ih.1 _ _, ?_⟩
          intro other sent hbegun
          rcases List.mem_cons.mp hbegun with hself | hbefore
          · cases hself
            exact isHarmless_of_issue ih.1 _
          · exact ih.2 other sent hbefore
  | @hear doings mid role call sent _ ih =>
      have hscript : ∀ gateway queue, (((World.queueAccess gateway queue).perform mid call
          sent).1.gateway (name ++ ".queue")).script =
            (mid.gateway (name ++ ".queue")).script := by
        intro gateway queue
        exact World.script_record ..
      refine ⟨?_, by simpa using ih.2⟩
      unfold IsHarmless
      cases role with
      | primary | poison =>
          simp only [PollerAccess.side, World.pollerAccess, hscript]
          exact ih.1

end

section

variable {p : Poller} {name tally : String} {c : Charge} {m : Delivery}
  {spared : Delivery → Prop} {w : World} {doings : List Doing}

theorem Stands.kept (h : c.Stands p m) (hnumbered : c.env.1.IsNumbered p.queue)
    (hkeeps : World.Keeps p.queue spared c.env.1 w) (hspared : spared m)
    (hunissued : ∀ doing ∈ doings, doing.issued? = none) (phase? : Option TickPhase) :
    Stands p ⟨(w, doings.map (DiaryEntry.mk c.env.1.now) ++ c.env.2), phase?, c.dropped⟩ m := by
  obtain ⟨since, hissue, hclaim⟩ := h
  refine ⟨since, (Diary.lastIssue?_append _ _ hunissued).trans hissue, ?_⟩
  exact hclaim.imp_right (hkeeps.upholds hspared hnumbered)

/-- What others do changes nothing but the world. -/
theorem Invariant.outside {dropped : Bool} (h : Invariant p name c)
    (hnumbered : w.IsNumbered p.queue) (hharmless : IsHarmless name w)
    (hstands : ∀ m, c.hand? = some m → c.Stands p m →
      Stands p ⟨(w, c.env.2), c.phase?, dropped⟩ m) :
    Invariant p name ⟨(w, c.env.2), c.phase?, dropped⟩ where
  numbered := hnumbered
  harmless := hharmless
  shown := h.shown
  forfeited := h.forfeited
  resigned := h.resigned
  stands m hhand := hstands m hhand (h.stands m hhand)
  careful := h.careful

theorem Invariant.kept (h : Invariant p name c) (hkeeps : World.Keeps p.queue spared c.env.1 w)
    (hharmless : IsHarmless name w) (hspared : ∀ m, c.hand? = some m → spared m) :
    Invariant p name { c with env := (w, c.env.2) } := by
  apply h.outside (hkeeps.numbered h.numbered) hharmless
  intro m hhand hstands
  exact hstands.kept h.numbered hkeeps (hspared m hhand) (by simp : ∀ doing ∈ [], _) c.phase?

theorem Invariant.elapse {now : Nat} (h : Invariant p name c) (hlater : c.env.1.now ≤ now) :
    Invariant p name { c with env := ({ c.env.1 with now }, c.env.2) } := by
  refine h.outside ?_ ?_ ?_
  · exact h.numbered
  · exact h.harmless
  · rintro m - ⟨since, hissue, hclaim⟩
    refine ⟨since, hissue, hclaim.imp_right ?_⟩
    exact Or.imp_left fun hover => Nat.le_trans hover hlater

theorem charge?_rouse (phase : TickPhase) :
    phase.rouse.charge? = phase.charge?.map fun charge => (charge.1, charge.2.rouse) := by
  cases phase <;> rfl

theorem underway?_rouse (phase : TickPhase) :
    p.underway? phase.rouse = p.underway? phase := by
  cases phase with
  | executing claim renewal execution | settling claim renewal succeeded wait =>
      simp only [TickPhase.rouse, Poller.underway?, Timer.phase?_rouse]
  | probing _ | dequeuing _ _ | deleting _ _ | releasing _ _ | preparing _ _ | copying _ _ => rfl

theorem Invariant.rouse (h : Invariant p name c) :
    Invariant p name { c with phase? := c.phase?.map TickPhase.rouse } where
  numbered := h.numbered
  harmless := h.harmless
  shown := h.shown
  forfeited := h.forfeited
  resigned := by
    intro hforfeited phase' hphase'
    obtain ⟨phase, hphase, rfl⟩ := Option.map_eq_some_iff.mp hphase'
    intro claim renewal hcharge
    rw [charge?_rouse] at hcharge
    obtain ⟨⟨claim, renewal⟩, hbefore, heq⟩ := Option.map_eq_some_iff.mp hcharge
    obtain ⟨rfl, rfl⟩ := Prod.mk.inj heq
    have hresigned := h.resigned hforfeited phase hphase claim renewal hbefore
    exact ⟨hresigned.1, (Timer.phase?_rouse renewal).trans hresigned.2⟩
  stands := by
    intro m hhand
    obtain ⟨phase', hphase', hm⟩ := Option.bind_eq_some_iff.mp hhand
    obtain ⟨phase, hphase, rfl⟩ := Option.map_eq_some_iff.mp hphase'
    rw [TickPhase.hand?_rouse] at hm
    exact h.stands m (Option.bind_eq_some_iff.mpr ⟨phase, hphase, hm⟩)
  careful := by
    intro phase' hphase'
    obtain ⟨phase, hphase, rfl⟩ := Option.map_eq_some_iff.mp hphase'
    unfold Poller.IsCareful
    rw [underway?_rouse, TickPhase.hand?_rouse]
    exact h.careful phase hphase

/-- An entry of the diary is new, or it was there before. -/
theorem split_entries {instant : Nat} {diary later before : Diary} {entry : DiaryEntry}
    (h : doings.map (DiaryEntry.mk instant) ++ diary = later ++ entry :: before) :
    (∃ others middle, doings = others ++ entry.doing :: middle ∧
      later = others.map (DiaryEntry.mk instant) ∧
      before = middle.map (DiaryEntry.mk instant) ++ diary) ∨
    ∃ middle, later = doings.map (DiaryEntry.mk instant) ++ middle ∧
      diary = middle ++ entry :: before := by
  rcases split_append h with ⟨middle, hnew, hbefore⟩ | hold
  · obtain ⟨others, rest, rfl, hothers, hrest⟩ := List.map_eq_append_iff.mp hnew
    obtain ⟨doing, middle', rfl, rfl, hmiddle⟩ := List.map_eq_cons_iff.mp hrest
    exact .inl ⟨others, middle', rfl, hothers.symm, by rw [hbefore, hmiddle]⟩
  · exact .inr hold

/-- The entries that a transition adds show the receipt in hand. -/
theorem Invariant.shown_of_faithful (h : Invariant p name c) (hhand : c.hand? = some m)
    (hfaithful : Faithful m doings) : ∀ later entry earlier,
      doings.map (DiaryEntry.mk c.env.1.now) ++ c.env.2 = later ++ entry :: earlier →
        ∀ shown, entry.doing.shown? = some shown →
          ∃ since, Diary.lastIssue? earlier = some (since, shown.receipt) := by
  intro later entry earlier hsplit shown hshown
  rcases split_entries hsplit with ⟨others, middle, hdoings, -, rfl⟩ | ⟨middle, -, hdiary⟩
  · obtain ⟨rfl, hunissued⟩ := hfaithful.split hdoings hshown
    obtain ⟨since, hissue, -⟩ := h.stands shown hhand
    exact ⟨since, (Diary.lastIssue?_append _ _ hunissued).trans hissue⟩
  · exact h.shown middle entry earlier hdiary shown hshown

theorem Invariant.forfeited_of_calm (h : Invariant p name c)
    (hcalm : ∀ doing ∈ doings, doing.renews = false ∧ doing.forfeits = false) :
    ∀ later entry earlier,
      doings.map (DiaryEntry.mk c.env.1.now) ++ c.env.2 = later ++ entry :: earlier →
        entry.doing.forfeits = true → ∀ after ∈ later, after.doing.renews = false := by
  intro later entry earlier hsplit hforfeits
  rcases split_entries hsplit with ⟨others, middle, hdoings, -⟩ | ⟨middle, rfl, hdiary⟩
  · have hentry : entry.doing ∈ doings := by simp [hdoings]
    rw [(hcalm _ hentry).2] at hforfeits
    cases hforfeits
  · refine List.forall_mem_append.mpr ⟨?_, h.forfeited middle entry earlier hdiary hforfeits⟩
    exact List.forall_mem_map.mpr fun doing hdoing => (hcalm doing hdoing).1

theorem forfeits_before (hcalm : ∀ doing ∈ doings, doing.forfeits = false) {diary : Diary}
    {instant : Nat} (hforfeited : ∃ entry ∈ doings.map (DiaryEntry.mk instant) ++ diary,
      entry.doing.forfeits = true) : ∃ entry ∈ diary, entry.doing.forfeits = true := by
  obtain ⟨entry, hentry, hforfeits⟩ := hforfeited
  rcases List.mem_append.mp hentry with hnew | hold
  · obtain ⟨doing, hdoing, rfl⟩ := List.mem_map.mp hnew
    rw [hcalm doing hdoing] at hforfeits
    cases hforfeits
  · exact ⟨entry, hold, hforfeits⟩

theorem Invariant.own {phase : TickPhase} {cancelled : Bool}
    {progress : TickProgress (World × Diary)} (h : Invariant p name c)
    (hcurrent : c.phase? = some phase) (hheld : phase.hand? = some m)
    (hadvances : p.advance (access p name tally) c.env cancelled phase = some progress) :
    Invariant p name
      { c with env := progress.env, phase? := TickCourse.phase? progress.course } := by
  obtain ⟨doings, hdoes, hscript⟩ := advance_performs hadvances
  have hproceeds : Proceeds p m phase doings progress.course := hscript.proceeds hheld
  have hhand : c.hand? = some m := by simp [Charge.hand?, hcurrent, hheld]
  have hkeeps := World.keeps_of_does (Does.of_diarised hdoes)
  obtain ⟨hharmless, hbegun⟩ := harmless_of_does (Does.of_diarised hdoes) h.harmless
  obtain ⟨-, hdiary⟩ := entries_of_does hdoes
  generalize progress.course = course at hproceeds ⊢
  generalize progress.env = env at hkeeps hharmless hdiary ⊢
  obtain ⟨w, diary⟩ := env
  obtain rfl : diary = _ := hdiary
  constructor
  case numbered => exact hkeeps.numbered h.numbered
  case harmless => exact hharmless
  case shown => exact h.shown_of_faithful hhand hproceeds.faithful
  case forfeited => exact h.forfeited_of_calm hproceeds.calm
  case resigned =>
    intro hforfeited
    have hbefore := forfeits_before (fun doing hdoing => (hproceeds.calm doing hdoing).2) hforfeited
    exact hproceeds.resigned (h.resigned hbefore phase hcurrent)
  case stands =>
    intro m' hhand'
    obtain ⟨phase', hphase', hm'⟩ := Option.bind_eq_some_iff.mp hhand'
    obtain ⟨rfl, hunused⟩ := hproceeds.kept phase' m' hphase' hm'
    refine (h.stands m' hhand).kept h.numbered hkeeps ?_ (fun d hd => (hunused d hd).1) _
    intro doing hdoing other hclaims
    rw [(hunused doing hdoing).2] at hclaims
    cases hclaims
  case careful => exact hproceeds.careful (h.careful phase hcurrent) hbegun

theorem isResigned_of_idle {phase : TickPhase} {claim : Claim} {renewal : RenewalTimer}
    (hcharge : phase.charge? = some (claim, renewal)) (hlost : claim.lost = true)
    (hidle : renewal.phase? = none) : phase.IsResigned := by
  intro claim' renewal' hcharge'
  rw [hcharge] at hcharge'
  obtain ⟨rfl, rfl⟩ := Prod.mk.inj (Option.some.inj hcharge')
  exact ⟨hlost, hidle⟩

theorem hand?_of_charged {phase : TickPhase} {claim : Claim} {renewal : RenewalTimer}
    (hcurrent : c.phase? = some phase) (hcharge : phase.charge? = some (claim, renewal)) :
    c.hand? = some claim.message := by
  simp [Charge.hand?, hcurrent, hand?_of_charge hcharge]

/-- A renewal under way presents the receipt of the claim. -/
theorem Invariant.presents {phase : TickPhase} {claim : Claim} {renewal : RenewalTimer}
    {loop : RenewalLoop} {waiting : RenewalCall} (h : Invariant p name c)
    (hcurrent : c.phase? = some phase) (hcharge : phase.charge? = some (claim, renewal))
    (hloop : renewal.loop = some loop) (hwaiting : loop.phase? = some waiting) :
    waiting.presented = claim.message ∧ waiting.transit.IsHarmless := by
  have hunderway : p.underway? phase =
      some (.update waiting.presented p.config.visibilityTimeout, waiting.transit) := by
    rw [underway?_of_charge hcharge, Timer.phase?_of_loop hloop, hwaiting]
    rfl
  obtain ⟨hpresented, hsent⟩ := h.careful phase hcurrent _ _ hunderway
  rw [hand?_of_charge hcharge] at hpresented
  exact ⟨Option.some.inj hpresented, hsent⟩

/-- What becomes of a claim that is renewed, or not. -/
theorem Stands.renewed {phase? : Option TickPhase} {claim claim' : Claim}
    {loop loop' : RenewalLoop} (h : c.Stands p claim.message)
    (hnumbered : c.env.1.IsNumbered p.queue)
    (hdoes : Does (World.pollerAccess name p.queue p.poison tally) c.env.1 doings w)
    (hrenews : Renews p claim loop doings claim' loop')
    (hpresents : ∀ waiting, loop.phase? = some waiting →
      waiting.presented = claim.message ∧ waiting.transit.IsHarmless) :
    Stands p ⟨(w, doings.map (DiaryEntry.mk c.env.1.now) ++ c.env.2), phase?, c.dropped⟩
      claim'.message := by
  have hkeeps := World.keeps_of_does hdoes
  cases hrenews with
  | waits | returns _ | skips _ _ =>
      exact h.kept hnumbered hkeeps (by simp) (by simp) phase?
  | asks _ _ _ =>
      exact h.kept hnumbered hkeeps (by simp [Doing.claims?]) (by simp [Doing.issued?]) phase?
  | hears learns =>
      obtain ⟨hpresented, hsent⟩ := hpresents _ rfl
      cases learns with
      | renewed receipt _ =>
          refine ⟨c.env.1.now, rfl, .inr ?_⟩
          refine @World.upholds_of_does _ _ _ _ _ _ _ _ [] _ _ _ hdoes hnumbered (by simp) ?_
          rintro mid hnow - hreply
          rw [hpresented] at hreply ⊢
          rw [← hnow]
          exact World.secures_of_update hreply rfl
      | gone _ | failed _ | fails _ =>
          exact h.kept hnumbered (World.keeps_of_refused hsent hdoes) trivial
            (by simp [Doing.issued?]) phase?

theorem Invariant.tend {phase phase' : TickPhase} {env : World × Diary} (h : Invariant p name c)
    (hcurrent : c.phase? = some phase)
    (htends : p.advanceRenewal (access p name tally) c.env phase = some (env, phase')) :
    Invariant p name { c with env, phase? := some phase' } := by
  obtain ⟨doings, hdoes, htends⟩ := advanceRenewal_performs htends
  obtain ⟨claim, claim', renewal, loop, loop', hcharge, hcharge', hloop, hrenews⟩ := htends.renews
  have hphase : renewal.phase? = loop.phase? := Timer.phase?_of_loop hloop
  have hphase' : ({ renewal with loop := some loop' } : RenewalTimer).phase? = loop'.phase? :=
    Timer.phase?_of_loop rfl
  have hhand : c.hand? = some claim.message := hand?_of_charged hcurrent hcharge
  have hpresents : ∀ waiting, loop.phase? = some waiting →
      waiting.presented = claim.message ∧ waiting.transit.IsHarmless :=
    fun waiting hwaiting => h.presents hcurrent hcharge hloop hwaiting
  have hlost : (∃ entry ∈ c.env.2, entry.doing.forfeits = true) →
      doings = [] ∧ claim'.lost = true ∧ loop'.phase? = none := by
    intro hforfeited
    obtain ⟨hlost, hidle⟩ := h.resigned hforfeited phase hcurrent claim renewal hcharge
    exact hrenews.of_lost hlost (hphase.symm.trans hidle)
  obtain ⟨hharmless, hbegun⟩ := harmless_of_does (Does.of_diarised hdoes) h.harmless
  obtain ⟨-, hdiary⟩ := entries_of_does hdoes
  have hdoes' := Does.of_diarised hdoes
  obtain ⟨w, diary⟩ := env
  obtain rfl : diary = _ := hdiary
  constructor
  case numbered => exact (World.keeps_of_does hdoes').numbered h.numbered
  case harmless => exact hharmless
  case shown =>
    exact h.shown_of_faithful hhand
      (hrenews.faithful fun waiting hwaiting => (hpresents waiting hwaiting).1)
  case forfeited =>
    intro later entry earlier hsplit hforfeits
    rcases split_entries hsplit with ⟨others, middle, hdoings, rfl, -⟩ | ⟨middle, rfl, hbefore⟩
    · have hone := hrenews.length_le
      obtain rfl : others = [] := by
        rw [hdoings, List.length_append, List.length_cons] at hone
        exact List.eq_nil_of_length_eq_zero (by omega)
      simp
    · obtain ⟨rfl, -⟩ := hlost ⟨entry, by simp [hbefore], hforfeits⟩
      exact h.forfeited middle entry earlier hbefore hforfeits
  case resigned =>
    rintro ⟨entry, hentry, hforfeits⟩ _ ⟨⟩
    have hresigned : claim'.lost = true ∧ loop'.phase? = none := by
      rcases List.mem_append.mp hentry with hnew | hold
      · obtain ⟨doing, hdoing, rfl⟩ := List.mem_map.mp hnew
        exact hrenews.of_forfeits hdoing hforfeits
      · exact (hlost ⟨entry, hold, hforfeits⟩).2
    exact isResigned_of_idle hcharge' hresigned.1 (hphase'.trans hresigned.2)
  case stands =>
    intro m' hhand'
    obtain rfl : claim'.message = m' := by
      have hm' : phase'.hand? = some m' := hhand'
      rw [hand?_of_charge hcharge'] at hm'
      exact Option.some.inj hm'
    exact (h.stands _ hhand).renewed h.numbered hdoes' hrenews hpresents
  case careful =>
    rintro _ ⟨⟩ call transit hunderway
    rw [underway?_of_charge hcharge', hphase'] at hunderway
    obtain ⟨waiting, hwaiting, hcall⟩ := Option.map_eq_some_iff.mp hunderway
    obtain ⟨rfl, rfl⟩ := Prod.mk.inj hcall
    obtain ⟨hpresented, hbegins⟩ := hrenews.asked hwaiting
    refine ⟨?_, hbegun _ _ hbegins⟩
    rw [hand?_of_charge hcharge']
    exact congrArg some hpresented

theorem Starts.fresh (h : Starts p name tally c) : ∃ m execution, c.Fresh p name m execution := by
  cases h with
  | @delivers w found cancelled transit env phase numbered harmless delivered =>
      obtain ⟨doings, hdoes, hscript⟩ := advance_performs delivered
      obtain ⟨hnow, hdiary⟩ :
          env.1.now = w.now ∧ env.2 = doings.map (DiaryEntry.mk w.now) ++ [] :=
        entries_of_does hdoes
      have hdoes' := Does.of_diarised hdoes
      generalize hcourse : Progress.course (.continues env phase) = course at hscript
      cases hscript with
      | exhausted | unserved => cases hcourse
      | @received _ _ m execution =>
          obtain rfl := (Progress.continues.inj hcourse).2
          refine ⟨m, execution, ?_⟩
          constructor
          case numbered => exact (World.keeps_of_does hdoes').numbered numbered
          case harmless => exact (harmless_of_does hdoes' harmless).1
          case phase => rfl
          case issue =>
            simp only [hdiary, hnow]
            rfl
          case plain =>
            simp [hdiary, Doing.IsPlain, Doing.shown?, Doing.renews, Doing.forfeits,
              QueueCall.renews]
          case upholds =>
            refine @World.upholds_of_does _ _ _ _ _ _ _ _ [.started m execution,
              .marked .dequeued] _ _ _ hdoes' numbered (by simp [Doing.claims?]) ?_
            intro mid hsame hmid hreply
            simp only [hnow]
            rw [← hsame]
            exact World.secures_of_dequeue hmid.distinct hreply

theorem Invariant.start {execution : Execution} (h : c.Fresh p name m execution) :
    Invariant p name c where
  numbered := h.numbered
  harmless := h.harmless
  shown := by
    intro later entry earlier hsplit m hshown
    have hentry : entry ∈ c.env.2 := by simp [hsplit]
    rw [(h.plain entry hentry).1] at hshown
    cases hshown
  forfeited := by
    intro later entry earlier hsplit _ after hafter
    have hentry : after ∈ c.env.2 := by simp [hsplit, hafter]
    exact (h.plain after hentry).2.1
  resigned := by
    rintro ⟨entry, hentry, hforfeits⟩
    rw [(h.plain entry hentry).2.2] at hforfeits
    cases hforfeits
  stands := by
    intro m' hhand
    simp only [Charge.hand?, h.phase] at hhand
    obtain rfl := Option.some.inj hhand
    exact ⟨c.env.1.now, h.issue, .inr h.upholds⟩
  careful := by
    intro phase hphase call transit hunderway
    obtain rfl := Option.some.inj (h.phase.symm.trans hphase)
    cases hunderway

theorem Invariant.stir {c' : Charge} (h : Invariant p name c) (hstirs : Stir p name tally c c') :
    Invariant p name c' := by
  cases hstirs with
  | elapse later => exact h.elapse later
  | elsewhere apart =>
      have hkeeps : World.Keeps p.queue (fun _ => True) c.env.1 _ :=
        World.keeps_of_apart apart.now apart.queue apart.serials
      exact h.kept hkeeps apart.harmless fun _ _ => trivial
  | @client call transit foreign =>
      refine h.kept (World.keeps_callQueue p.queue c.env.1 p.queue call transit) h.harmless ?_
      intro held hhand m hpresented hid
      exact foreign m held hpresented hhand hid
  | push => exact h.kept (World.keeps_push _ _ _ _) h.harmless fun _ _ => trivial
  | inject => exact h.kept (World.keeps_inject _ _ _ _) h.harmless fun _ _ => trivial
  | drop =>
      apply h.outside (World.isNumbered_drop ..) h.harmless
      rintro m - ⟨since, hissue, -⟩
      exact ⟨since, hissue, .inl rfl⟩
  | rouse => exact h.rouse
  | own current held advances =>
      obtain ⟨m, hm⟩ := Option.isSome_iff_exists.mp held
      exact h.own current hm advances

theorem Reachable.invariant (h : Reachable p name tally c) : Invariant p name c := by
  induction h with
  | start starts =>
      obtain ⟨m, execution, hfresh⟩ := starts.fresh
      exact .start hfresh
  | step _ hstep ih =>
      cases hstep with
      | stir stirs => exact ih.stir stirs
      | tend current tends => exact ih.tend current tends

/-- Every call for the message in hand presents the receipt that was issued
last.  Without an injected error it is refused only if the window of that
receipt is over or the queue was dropped.  Once a renewal has been refused, the
claim stays lost, and no renewal follows. -/
theorem calls_present_latest_receipt (h : Reachable p name tally c) :
    (∀ later entry earlier m, c.env.2 = later ++ entry :: earlier →
      entry.doing.shown? = some m →
        ∃ since, Diary.lastIssue? earlier = some (since, m.receipt)) ∧
    (∀ phase call transit error, c.phase? = some phase →
      p.underway? phase = some (call, transit) →
        ((access p name tally).queue.perform c.env call transit).2 = .error error →
          c.dropped = true ∨
            (∃ since receipt, c.env.2.lastIssue? = some (since, receipt) ∧
              Instant.windowEnd since p.config.visibilityTimeout ≤ c.env.1.now) ∨
            transit.fault.isSome = true ∨
            ∃ fault ∈ (c.env.1.queue p.queue).faults, call.operation? = some fault.1) ∧
    (∀ later entry earlier, c.env.2 = later ++ entry :: earlier → entry.doing.forfeits = true →
      (∀ after ∈ later, after.doing.renews = false) ∧
        ∀ phase claim renewal, c.phase? = some phase →
          phase.charge? = some (claim, renewal) → claim.lost = true) := by
  have hinvariant : Invariant p name c := h.invariant
  refine ⟨fun later entry earlier m hsplit => hinvariant.shown later entry earlier hsplit m, ?_, ?_⟩
  · intro phase call transit error hphase hunderway herror
    obtain ⟨hpresented, -⟩ := hinvariant.careful phase hphase call transit hunderway
    obtain ⟨m, hm⟩ := presents_of_underway hunderway
    have hhand : c.hand? = some m := by
      simp [Charge.hand?, hphase, hpresented.symm.trans hm]
    obtain ⟨since, hissue, hclaim⟩ := hinvariant.stands m hhand
    rcases hclaim with hdropped | hover | hsecures
    · exact .inl hdropped
    · exact .inr (.inl ⟨since, m.receipt, hissue, hover⟩)
    · by_cases hlive : c.env.1.now < Instant.windowEnd since p.config.visibilityTimeout
      · exact .inr (.inr (World.injected_of_error hm hsecures hlive herror))
      · exact .inr (.inl ⟨since, m.receipt, hissue, Nat.not_lt.mp hlive⟩)
  · intro later entry earlier hsplit hforfeits
    refine ⟨hinvariant.forfeited later entry earlier hsplit hforfeits, ?_⟩
    intro phase claim renewal hphase hcharge
    have hentry : entry ∈ c.env.2 := by simp [hsplit]
    exact (hinvariant.resigned ⟨entry, hentry, hforfeits⟩ phase hphase claim renewal hcharge).1

/-- One transition of the renewal timer. -/
def tend? (p : Poller) (name tally : String) (c : Charge) : Option Charge :=
  match c.phase? with
  | none => none
  | some phase =>
      (p.advanceRenewal (access p name tally) c.env phase).map fun (env, phase') =>
        { c with env, phase? := some phase' }

theorem of_tend? (h : c.tend? p name tally = some c') :
    ∃ phase env phase', c.phase? = some phase ∧
      p.advanceRenewal (access p name tally) c.env phase = some (env, phase') ∧
      c' = { c with env, phase? := some phase' } := by
  unfold tend? at h
  split at h
  · simp at h
  · next phase hphase =>
      simp only [Option.map_eq_some_iff] at h
      obtain ⟨⟨env, phase'⟩, htends, rfl⟩ := h
      exact ⟨phase, env, phase', hphase, htends, rfl⟩

/-- One transition of the renewal timer or else of the tick. -/
def turn (p : Poller) (name tally : String) (c : Charge) : Charge :=
  match c.tend? p name tally, c.phase? with
  | some c', _ => c'
  | none, none => c
  | none, some phase =>
      if phase.hand?.isSome then
        match p.advance (access p name tally) c.env false phase with
        | some progress =>
            { c with env := progress.env, phase? := TickCourse.phase? progress.course }
        | none => c
      else c

theorem Reachable.turn (h : Reachable p name tally c) :
    Reachable p name tally (c.turn p name tally) := by
  unfold Charge.turn
  split
  · next htended =>
      obtain ⟨_, _, _, hphase, htends, rfl⟩ := of_tend? htended
      exact h.step (.tend hphase htends)
  · exact h
  · next hphase =>
      split
      · next hheld =>
          split
          · next hadvances => exact h.step (.stir (.own hphase hheld hadvances))
          · exact h
      · exact h

def later (seconds : Nat) (c : Charge) : Charge :=
  { c with env := ({ c.env.1 with now := c.env.1.now + (Duration.ofSeconds seconds).nanos },
      c.env.2) }

theorem Reachable.later (h : Reachable p name tally c) (seconds : Nat) :
    Reachable p name tally (c.later seconds) :=
  h.step (.stir (.elapse (Nat.le_add_right _ _)))

def simple (config : PollingConfig) : Poller := ⟨"jobs", none, config⟩

/-- One message is processed in 90 s, and the first renewal fails. -/
def unsteady : World :=
  { World.initial with
    serials := { message := 1 }
    queues := ⟨[("jobs", (Queue.create "jobs").append ⟨0⟩ [7] 0 0 scenarioEpoch)]⟩
    executors := ⟨[("worker", ⟨.scripted [] { length := .ofSeconds 90 }, []⟩)]⟩
    gateways := ⟨[("worker.queue", { script := [⟨.update, .zero,
      some ⟨.status 503 "ServerBusy" "busy", false⟩, 1⟩] })]⟩ }

def taken (config : PollingConfig) : Charge :=
  match (simple config).advance (access (simple config) "worker" "worker") (unsteady, []) false
    (.dequeuing false (.direct 0)) with
  | some (.continues env phase) => ⟨env, some phase, false⟩
  | _ => ⟨(unsteady, []), none, false⟩

theorem starts_taken (config : PollingConfig) :
    Starts (simple config) "worker" "worker" (taken config) := by
  refine @Starts.delivers (simple config) "worker" "worker" unsteady false false (.direct 0) _ _
    ?_ ?_ rfl
  · refine ⟨List.pairwise_singleton .., ?_⟩
    rintro m (_ | ⟨_, ⟨⟩⟩)
    decide
  · rintro entry (_ | ⟨_, ⟨⟩⟩) fault ⟨⟩
    rfl

def turns (count : Nat) (c : Charge) : Charge :=
  count.repeat (turn (simple .standard) "worker" "worker") c

theorem Reachable.turns (h : Reachable (simple .standard) "worker" "worker" c) (count : Nat) :
    Reachable (simple .standard) "worker" "worker" (c.turns count) := by
  induction count with
  | zero => exact h
  | succ count ih => exact ih.turn

/-- A renewal has failed, the next one was accepted, and the message has been
processed.  Its deletion is under way. -/
def processed : Charge :=
  (((((taken .standard).turns 1).later 60).turns 2).later 35).turns 5

theorem calls_present_latest_receipt_processed :
    Reachable (simple .standard) "worker" "worker" processed ∧
      ∃ m transit, processed.phase? = some (.deleting m transit) ∧ m.receipt = ⟨1⟩ ∧
        ∀ error, ((access (simple .standard) "worker" "worker").queue.perform processed.env
          (.delete m) transit).2 ≠ .error error := by
  have hdelivered : Reachable (simple .standard) "worker" "worker" (taken .standard) :=
    .start (starts_taken .standard)
  have hprocessed : Reachable (simple .standard) "worker" "worker" processed :=
    ((((hdelivered.turns 1).later 60).turns 2).later 35).turns 5
  refine ⟨hprocessed, _, _, rfl, rfl, ?_⟩
  intro error herror
  rcases (calls_present_latest_receipt hprocessed).2.1 _ _ _ error rfl rfl herror with
    hdropped | ⟨since, receipt, hissue, hover⟩ | hfault | ⟨fault, hfault, -⟩
  · cases hdropped
  · obtain ⟨rfl, -⟩ := Prod.mk.inj (Option.some.inj hissue)
    exact absurd hover (by decide)
  · cases hfault
  · cases hfault

end

end Charge

end LeasedListener
