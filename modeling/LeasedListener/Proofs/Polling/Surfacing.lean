import LeasedListener.Proofs.Polling.Config
import LeasedListener.Proofs.Polling.Diary
import LeasedListener.Proofs.Polling.Hand
import LeasedListener.Proofs.Polling.Logic
import LeasedListener.Scenario.World

/-!
# What a tick surfaces

A tick ends with an error at the first fatal answer to a call of its own, and
never otherwise.  Before it asks for another message it has attempted what the
verdict on the last one calls for.  All this can be read off the diary of the
poller, whatever the environment does.
-/

namespace LeasedListener

open Surroundings

def fatalIn? {α : Type} : Except StorageError α → Option StorageError
  | .ok _ => none
  | .error error => if error.isFatal then some error else none

/-- The fatal answer to a call of the tick itself. -/
def Doing.fatal? : Doing → Option StorageError
  | .answered _ call _ reply => if call.renews then none else fatalIn? reply
  | _ => none

def firstFatal? (doings : List Doing) : Option StorageError :=
  doings.reverse.findSome? Doing.fatal?

/-- Whether it is part of a deletion, a release or a copy. -/
def Doing.disposes : Doing → Bool
  | .begun .primary (.delete _) _ | .answered .primary (.delete _) _ _ => true
  | .begun .primary (.update _ window) _ | .answered .primary (.update _ window) _ _ =>
      window.isZero
  | .begun .poison _ _ | .answered .poison _ _ _ => true
  | _ => false

def Doing.result? : Doing → Option Bool
  | .finished _ (.ok succeeded) => some succeeded
  | _ => none

/-- The results of the runs of the user function. -/
def results (doings : List Doing) : List Bool := doings.filterMap Doing.result?

theorem results_append (doings others : List Doing) :
    results (doings ++ others) = results doings ++ results others :=
  List.filterMap_append

/-- The message that was delivered last, and what was done since. -/
def stint? : List Doing → Option (Delivery × List Doing)
  | [] => none
  | doing :: earlier =>
      match doing.taken? with
      | some m => some (m, [])
      | none => (stint? earlier).map fun (m, since) => (m, doing :: since)

theorem stint?_append {doings : List Doing} (h : taken doings = []) (earlier : List Doing) :
    stint? (doings ++ earlier) =
      (stint? earlier).map fun (m, since) => (m, doings ++ since) := by
  induction doings with
  | nil => simp
  | cons doing doings ih =>
      rw [taken, List.filterMap_eq_nil_iff] at h
      obtain ⟨hdoing, hdoings⟩ := List.forall_mem_cons.mp h
      have hrest := ih (List.filterMap_eq_nil_iff.mpr hdoings)
      simp only [List.cons_append, stint?, hdoing, hrest, Option.map_map]
      rfl

/-- What a verdict calls for has been attempted for a message, as far as the
answers allowed. -/
inductive Attempted (m : Delivery) (since : List Doing) : Disposition → Prop
  | deleted (held : Delivery) (same : SameContent m held) {transit : Transit}
      {reply : Except StorageError Unit}
      (answered : .answered .primary (.delete held) transit reply ∈ since) :
      Attempted m since .delete
  | released (held : Delivery) (same : SameContent m held) {transit : Transit}
      {reply : Except StorageError Receipt}
      (answered : .answered .primary (.update held .zero) transit reply ∈ since) :
      Attempted m since .release
  | unprepared {transit : Transit} {error : StorageError}
      (answered : .answered .poison .create transit (.error error) ∈ since) :
      Attempted m since .quarantine
  | uncopied {transit transit' : Transit} {error : StorageError}
      (prepared : .answered .poison .create transit (.ok ()) ∈ since)
      (answered : .answered .poison (.enqueue m.body) transit' (.error error) ∈ since) :
      Attempted m since .quarantine
  | quarantined (held : Delivery) (same : SameContent m held)
      {transit transit' transit'' : Transit} {copy : MessageId}
      {reply : Except StorageError Unit}
      (prepared : .answered .poison .create transit (.ok ()) ∈ since)
      (copied : .answered .poison (.enqueue m.body) transit' (.ok copy) ∈ since)
      (answered : .answered .primary (.delete held) transit'' reply ∈ since) :
      Attempted m since .quarantine
  | left : Attempted m since .leave

theorem Attempted.mono {m : Delivery} {since since' : List Doing} {verdict : Disposition}
    (h : Attempted m since verdict) (hmore : ∀ doing ∈ since, doing ∈ since') :
    Attempted m since' verdict := by
  cases h with
  | deleted held same answered => exact .deleted held same (hmore _ answered)
  | released held same answered => exact .released held same (hmore _ answered)
  | unprepared answered => exact .unprepared (hmore _ answered)
  | uncopied prepared answered => exact .uncopied (hmore _ prepared) (hmore _ answered)
  | quarantined held same prepared copied answered =>
      exact .quarantined held same (hmore _ prepared) (hmore _ copied) (hmore _ answered)
  | left => exact .left

/-- No fatal error was the answer to a call of the tick itself. -/
def Mild (doings : List Doing) : Prop := ∀ doing ∈ doings, doing.fatal? = none

theorem mild_append {doings others : List Doing} :
    Mild (doings ++ others) ↔ Mild doings ∧ Mild others :=
  List.forall_mem_append

/-- A tick ends with the first fatal error, and with no other. -/
inductive Surfaces (doings : List Doing) : TickCourse → Prop
  | spared {course : TickCourse} (mild : Mild doings)
      (silent : ∀ error, course ≠ .ended () (.error error)) : Surfaces doings course
  | fails {last : Doing} {before : List Doing} {error : StorageError}
      (split : doings = last :: before) (mild : Mild before) (fatal : last.fatal? = some error) :
      Surfaces doings (.ended () (.error error))

section

variable {p : Poller} {cancelled found : Bool} {doings earlier : List Doing} {course : TickCourse}
  {last : Doing}

theorem Surfaces.after (h : Surfaces doings course) (hmild : Mild earlier) :
    Surfaces (doings ++ earlier) course := by
  cases h with
  | spared mild silent => exact .spared (mild_append.mpr ⟨mild, hmild⟩) silent
  | fails split mild fatal =>
      subst split
      exact .fails (List.cons_append ..) (mild_append.mpr ⟨mild, hmild⟩) fatal

theorem Seeks.surfaces (h : Seeks p cancelled found doings course) : Surfaces doings course := by
  cases h with
  | quits _ => exact .spared (by simp [Mild]) (by simp)
  | asks _ transit => exact .spared (by simp [Mild, Doing.fatal?]) (by simp)

theorem Concludes.surfaces {reply : Except StorageError Unit}
    (h : Concludes p cancelled reply doings course) (hlast : last.fatal? = fatalIn? reply) :
    Surfaces (doings ++ [last]) course := by
  cases h with
  | done seeks => exact seeks.surfaces.after (by simpa [Mild, fatalIn?] using hlast)
  | gone refused seeks =>
      have hmild : Mild [last] := by
        rcases refused with hclass | hclass <;>
          simpa [Mild, fatalIn?, StorageError.isFatal, hclass] using hlast
      exact (seeks.surfaces.after (by simp [Mild, Doing.fatal?])).after hmild
  | failed troubled seeks =>
      exact seeks.surfaces.after
        (by simpa [Mild, fatalIn?, StorageError.isFatal, troubled] using hlast)
  | fails fatal =>
      have hreply := hlast
      simp only [fatalIn?, StorageError.isFatal, fatal, beq_self_eq_true, if_true] at hreply
      exact .fails rfl (by simp [Mild]) hreply

theorem Forgoes.surfaces {error : StorageError} (h : Forgoes p cancelled error doings course)
    (hlast : last.fatal? = if error.isFatal then some error else none) :
    Surfaces (doings ++ [last]) course := by
  cases h with
  | fails fatal =>
      rw [if_pos fatal] at hlast
      exact .fails rfl (by simp [Mild]) hlast
  | leaves mild seeks =>
      rw [if_neg (by simp [mild])] at hlast
      exact seeks.surfaces.after (by simpa [Mild] using hlast)

theorem surfaces_tickResult {error : StorageError}
    (hlast : last.fatal? = if error.isFatal then some error else none) :
    Surfaces [last] (.ended () error.tickResult) := by
  unfold StorageError.tickResult
  by_cases hfatal : error.isFatal = true
  · rw [if_pos hfatal] at hlast ⊢
    exact .fails rfl (by simp [Mild]) hlast
  · rw [if_neg hfatal] at hlast ⊢
    exact .spared (by simpa [Mild] using hlast) (by simp)

theorem Script.surfaces {phase : TickPhase} (h : Script p cancelled phase doings course) :
    Surfaces doings course := by
  cases h with
  | present seeks => exact seeks.surfaces.after (by simp [Mild, Doing.fatal?, fatalIn?])
  | absent | exhausted | received | prepared | copied =>
      exact .spared (by simp [Mild, Doing.fatal?, fatalIn?]) (by simp)
  | unknown | unserved => exact surfaces_tickResult rfl
  | executed _ | broken _ => exact .spared (by simp [Mild, Doing.fatal?]) (by simp)
  | settled _ disposes =>
      have hmark : ∀ mark, Mild [.marked mark] := by simp [Mild, Doing.fatal?]
      cases disposes with
      | deletes _ _ | releases _ _ | quarantines _ _ =>
          exact .spared (by simp [Mild, Doing.fatal?]) (by simp)
      | leaves _ seeks => exact seeks.surfaces.after (hmark _)
  | deleted concludes => exact concludes.surfaces rfl
  | unreleased concludes => exact concludes.surfaces rfl
  | @released m transit receipt later course concludes =>
      have hmarked : Surfaces (later ++ [.marked .released]) course := concludes.surfaces rfl
      have hanswered : Mild [.answered .primary (.update m .zero) transit (.ok receipt)] := by
        simp [Mild, Doing.fatal?, fatalIn?]
      have hboth := hmarked.after hanswered
      rwa [List.append_assoc] at hboth
  | unprepared forgoes => exact forgoes.surfaces rfl
  | uncopied forgoes => exact forgoes.surfaces rfl

end

namespace Poller

variable {Env : Type} [Surroundings Env] {p : Poller} {m : Delivery}
  {doings earlier since : List Doing}

def verdict (p : Poller) (m : Delivery) (succeeded : Bool) : Disposition :=
  disposition p.config.maxDequeueCount succeeded m.dequeueCount p.poison.isSome

/-- The one run on the message has ended, and its verdict has been attempted. -/
def Disposed (p : Poller) (m : Delivery) (since : List Doing) : Prop :=
  ∃ succeeded, results since = [succeeded] ∧ Attempted m since (p.verdict m succeeded)

theorem Disposed.after (h : p.Disposed m since) (hresults : results doings = []) :
    p.Disposed m (doings ++ since) := by
  obtain ⟨succeeded, hended, hattempted⟩ := h
  refine ⟨succeeded, ?_, hattempted.mono fun doing hdoing => List.mem_append_right _ hdoing⟩
  rw [results_append, hresults, hended]
  rfl

/-- A message that was not processed is not touched without a poison queue. -/
def Spares (p : Poller) (since : List Doing) : Prop :=
  p.poison = none → results since = [false] → ∀ doing ∈ since, doing.disposes = false

/-- Before a message was asked for, the one delivered last was disposed of. -/
def Serves (p : Poller) (doings : List Doing) : Prop :=
  ∀ later earlier window transit,
    doings = later ++ .begun .primary (.dequeue window) transit :: earlier →
      ∀ m since, stint? earlier = some (m, since) → p.Disposed m since

theorem Serves.quiet (h : p.Serves earlier) (hquiet : AsksForNone doings) :
    p.Serves (doings ++ earlier) := by
  intro later before window transit hsplit
  rcases split_append hsplit with ⟨middle, hdoings, -⟩ | ⟨middle, -, hearlier⟩
  · refine absurd ?_ (hquiet window transit)
    rw [hdoings]
    exact List.mem_append_right _ (List.mem_cons_self ..)
  · exact h middle before window transit hearlier

theorem Serves.asks {window : Duration} {transit : Transit} (h : p.Serves earlier)
    (hdisposed : ∀ m since, stint? earlier = some (m, since) → p.Disposed m since) :
    p.Serves (.begun .primary (.dequeue window) transit :: earlier) := by
  intro later before window' transit' hsplit
  cases later with
  | nil =>
      obtain ⟨-, rfl⟩ := List.cons.inj hsplit
      exact hdisposed
  | cons doing later =>
      obtain ⟨-, hearlier⟩ := List.cons.inj hsplit
      exact h later before window' transit' hearlier

theorem Spares.after (h : p.Spares since) (hcalm : ∀ doing ∈ doings, doing.disposes = false)
    (hresults : results doings = []) : p.Spares (doings ++ since) := by
  intro hpoison hfailed doing hdoing
  rw [results_append, hresults, List.nil_append] at hfailed
  rcases List.mem_append.mp hdoing with hnew | hbefore
  · exact hcalm doing hnew
  · exact h hpoison hfailed doing hbefore

/-- With a poison queue, or after a success, nothing need be spared. -/
theorem spares_of_verdict {succeeded : Bool} {verdict : Disposition}
    (hresults : results since = [succeeded]) (hverdict : p.verdict m succeeded = verdict)
    (hcalls : verdict ≠ .leave) : p.Spares since := by
  intro hpoison hfailed
  rw [hresults, List.singleton_inj] at hfailed
  refine absurd (hverdict.symm.trans ?_) hcalls
  simp [Poller.verdict, disposition, hpoison, hfailed]

theorem disposed_of_verdict {succeeded : Bool} {verdict : Disposition}
    (hresults : results since = [succeeded]) (hverdict : p.verdict m succeeded = verdict)
    (hcalls : verdict ≠ .leave) (h : Attempted m since verdict) :
    p.Spares since ∧ p.Disposed m since := by
  refine ⟨spares_of_verdict hresults hverdict hcalls, succeeded, hresults, ?_⟩
  rw [hverdict]
  exact h

theorem verdict_congr {held : Delivery} (same : SameContent m held) (succeeded : Bool) :
    p.verdict held succeeded = p.verdict m succeeded := by
  unfold verdict
  rw [same.2.2]

/-- What the poller has to show for itself at a phase, by what it did since
the message was delivered. -/
def Stage (p : Poller) : TickPhase → Delivery → List Doing → Prop
  | .probing _, _, _ => False
  | .dequeuing _ _, m, since => p.Disposed m since
  | .executing claim _ _, m, since =>
      SameContent m claim.message ∧ results since = [] ∧ ∀ doing ∈ since, doing.disposes = false
  | .settling claim _ succeeded _, m, since =>
      SameContent m claim.message ∧ results since = [succeeded] ∧
        ∀ doing ∈ since, doing.disposes = false
  | .deleting held _, m, since =>
      SameContent m held ∧ ∃ succeeded, results since = [succeeded] ∧
        (p.verdict m succeeded = .delete ∨
          p.verdict m succeeded = .quarantine ∧
            (∃ transit, .answered .poison .create transit (.ok ()) ∈ since) ∧
            ∃ transit copy, .answered .poison (.enqueue m.body) transit (.ok copy) ∈ since)
  | .releasing held _, m, since =>
      SameContent m held ∧ ∃ succeeded, results since = [succeeded] ∧
        p.verdict m succeeded = .release
  | .preparing held _, m, since =>
      SameContent m held ∧ ∃ succeeded, results since = [succeeded] ∧
        p.verdict m succeeded = .quarantine
  | .copying held _, m, since =>
      SameContent m held ∧ ∃ succeeded, results since = [succeeded] ∧
        p.verdict m succeeded = .quarantine ∧
        ∃ transit, .answered .poison .create transit (.ok ()) ∈ since

/-- What was done before, and what is known about the last message. -/
structure Account (p : Poller) (doings : List Doing) (known : Delivery → List Doing → Prop) :
    Prop where
  serves : p.Serves doings
  last : ∀ m since, stint? doings = some (m, since) → p.Spares since ∧ known m since

variable {known known' : Delivery → List Doing → Prop}

theorem Account.goes (h : p.Account earlier known) (hnone : taken doings = [])
    (hquiet : AsksForNone doings)
    (hknown : ∀ m since, p.Spares since → known m since →
      p.Spares (doings ++ since) ∧ known' m (doings ++ since)) :
    p.Account (doings ++ earlier) known' where
  serves := h.serves.quiet hquiet
  last := by
    intro m since hstint
    rw [stint?_append hnone, Option.map_eq_some_iff] at hstint
    obtain ⟨⟨m', before⟩, hbefore, hsame⟩ := hstint
    obtain ⟨rfl, rfl⟩ := Prod.mk.inj hsame
    obtain ⟨hspares, hheld⟩ := h.last _ _ hbefore
    exact hknown _ _ hspares hheld

theorem account_probe (p : Poller) (transit : Transit) :
    p.Account [.begun .primary .probe transit] (p.Stage (.probing transit)) where
  serves := by
    intro later earlier window sent hsplit
    cases later with
    | nil => cases hsplit
    | cons doing later => simp at hsplit
  last := by rintro m since ⟨⟩

/-- What is known once a transition has led somewhere. -/
def knows (p : Poller) : TickCourse → Delivery → List Doing → Prop
  | .continues _ phase => p.Stage phase
  | .ended _ _ | .died _ _ => fun _ _ => True

section

variable {cancelled found : Bool} {course : TickCourse}

theorem Account.seeks (h : p.Account earlier p.Disposed)
    (hseeks : Seeks p cancelled found doings course) :
    p.Account (doings ++ earlier) (p.knows course) := by
  cases hseeks with
  | quits stopped =>
      exact ⟨h.serves, fun m since hstint => ⟨(h.last m since hstint).1, trivial⟩⟩
  | asks going transit =>
      refine ⟨h.serves.asks fun m since hstint => (h.last m since hstint).2, ?_⟩
      intro m since hstint
      rw [stint?_append (by rfl), Option.map_eq_some_iff] at hstint
      obtain ⟨⟨m', before⟩, hbefore, hsame⟩ := hstint
      obtain ⟨rfl, rfl⟩ := Prod.mk.inj hsame
      obtain ⟨hspares, hdisposed⟩ := h.last _ _ hbefore
      exact ⟨hspares.after (by simp [Doing.disposes]) rfl, hdisposed.after rfl⟩

/-- After the answer to the last call for a message it is disposed of. -/
theorem Account.concludes {reply : Except StorageError Unit} (h : p.Account earlier p.Disposed)
    (hconcludes : Concludes p cancelled reply doings course) :
    p.Account (doings ++ earlier) (p.knows course) := by
  cases hconcludes with
  | done seeks => exact h.seeks seeks
  | failed troubled seeks => exact h.seeks seeks
  | @gone error later course refused seeks =>
      have hmarked : p.Account ([.marked .disposalConflict] ++ earlier) p.Disposed := by
        refine h.goes rfl (by simp [AsksForNone]) ?_
        intro m since hspares hdisposed
        exact ⟨hspares.after (by simp [Doing.disposes]) rfl, hdisposed.after rfl⟩
      rw [List.append_assoc]
      exact hmarked.seeks seeks
  | fails fatal =>
      exact ⟨h.serves, fun m since hstint => ⟨(h.last m since hstint).1, trivial⟩⟩

theorem Account.forgoes {error : StorageError} (h : p.Account earlier p.Disposed)
    (hforgoes : Forgoes p cancelled error doings course) :
    p.Account (doings ++ earlier) (p.knows course) := by
  cases hforgoes with
  | leaves mild seeks => exact h.seeks seeks
  | fails fatal =>
      exact ⟨h.serves, fun m since hstint => ⟨(h.last m since hstint).1, trivial⟩⟩

theorem Account.takes {transit : Transit} {window : Duration} {execution : Execution}
    (h : p.Account earlier known) (hknown : known' m [.started m execution, .marked .dequeued]) :
    p.Account
      ([.started m execution, .marked .dequeued,
        .answered .primary (.dequeue window) transit (.ok (some m))] ++ earlier) known' where
  serves := h.serves.quiet (by simp [AsksForNone])
  last := by
    rintro _ _ ⟨⟩
    exact ⟨fun _ _ => by simp [Doing.disposes], hknown⟩

/-- What a transition of the tick makes of the account. -/
theorem Account.follows {phase : TickPhase} (h : p.Account earlier (p.Stage phase))
    (hscript : Script p cancelled phase doings course) :
    p.Account (doings ++ earlier) (p.knows course) := by
  cases hscript with
  | present seeks =>
      rw [List.append_assoc]
      refine Account.seeks (h.goes rfl (by simp [AsksForNone]) ?_) seeks
      intro m since _ hnone
      exact hnone.elim
  | absent | unknown =>
      refine h.goes rfl (by simp [AsksForNone]) ?_
      intro m since _ hnone
      exact hnone.elim
  | received =>
      exact h.takes ⟨⟨rfl, rfl, rfl⟩, rfl, by simp [Doing.disposes]⟩
  | exhausted | unserved =>
      refine h.goes rfl (by simp [AsksForNone]) ?_
      intro m since hspares hdisposed
      exact ⟨hspares.after (by simp [Doing.disposes]) rfl, trivial⟩
  | @executed claim renewal execution succeeded instant start ended =>
      refine h.goes rfl (by simp [AsksForNone]) ?_
      rintro m since - ⟨hsame, hresults, hcalm⟩
      have hcalm' : ∀ doing ∈ .finished execution (.ok succeeded) :: since,
          doing.disposes = false := List.forall_mem_cons.mpr ⟨rfl, hcalm⟩
      have hresults' : results (.finished execution (.ok succeeded) :: since) = [succeeded] := by
        rw [← hresults]
        rfl
      exact ⟨fun _ _ => hcalm', hsame, hresults', hcalm'⟩
  | broken ended =>
      refine h.goes rfl (by simp [AsksForNone]) ?_
      rintro m since - ⟨-, -, hcalm⟩
      exact ⟨fun _ _ => List.forall_mem_cons.mpr ⟨rfl, hcalm⟩, trivial⟩
  | @settled claim renewal succeeded wait instant stopped later course disposes =>
      cases disposes with
      | deletes sent verdict =>
          refine h.goes rfl (by simp [AsksForNone]) ?_
          rintro m since - ⟨hsame, hresults, -⟩
          have hverdict : p.verdict m succeeded = .delete :=
            (verdict_congr hsame succeeded).symm.trans verdict
          exact ⟨spares_of_verdict hresults hverdict (by simp), hsame, succeeded, hresults,
            .inl hverdict⟩
      | releases sent verdict =>
          refine h.goes rfl (by simp [AsksForNone]) ?_
          rintro m since - ⟨hsame, hresults, -⟩
          have hverdict : p.verdict m succeeded = .release :=
            (verdict_congr hsame succeeded).symm.trans verdict
          exact ⟨spares_of_verdict hresults hverdict (by simp), hsame, succeeded, hresults,
            hverdict⟩
      | quarantines sent verdict =>
          refine h.goes rfl (by simp [AsksForNone]) ?_
          rintro m since - ⟨hsame, hresults, -⟩
          have hverdict : p.verdict m succeeded = .quarantine :=
            (verdict_congr hsame succeeded).symm.trans verdict
          exact ⟨spares_of_verdict hresults hverdict (by simp), hsame, succeeded, hresults,
            hverdict⟩
      | leaves verdict seeks =>
          rw [List.append_assoc]
          refine Account.seeks (h.goes rfl (by simp [AsksForNone]) ?_) seeks
          rintro m since hspares ⟨hsame, hresults, -⟩
          have hverdict : p.verdict m succeeded = .leave :=
            (verdict_congr hsame succeeded).symm.trans verdict
          exact ⟨hspares.after (by simp [Doing.disposes]) rfl, succeeded, hresults,
            hverdict ▸ .left⟩
  | deleted concludes =>
      rw [List.append_assoc]
      refine Account.concludes (h.goes rfl (by simp [AsksForNone]) ?_) concludes
      rintro m since - ⟨hsame, succeeded, hresults,
        hverdict | ⟨hverdict, ⟨_, hprepared⟩, _, _, hcopied⟩⟩
      · exact disposed_of_verdict hresults hverdict (by simp)
          (.deleted _ hsame (List.mem_cons_self ..))
      · exact disposed_of_verdict hresults hverdict (by simp)
          (.quarantined _ hsame (List.mem_cons_of_mem _ hprepared)
            (List.mem_cons_of_mem _ hcopied) (List.mem_cons_self ..))
  | released concludes =>
      rw [List.append_assoc]
      refine Account.concludes (h.goes rfl (by simp [AsksForNone]) ?_) concludes
      rintro m since - ⟨hsame, succeeded, hresults, hverdict⟩
      exact disposed_of_verdict hresults hverdict (by simp)
        (.released _ hsame (List.mem_cons_of_mem _ (List.mem_cons_self ..)))
  | unreleased concludes =>
      rw [List.append_assoc]
      refine Account.concludes (h.goes rfl (by simp [AsksForNone]) ?_) concludes
      rintro m since - ⟨hsame, succeeded, hresults, hverdict⟩
      exact disposed_of_verdict hresults hverdict (by simp)
        (.released _ hsame (List.mem_cons_self ..))
  | prepared =>
      refine h.goes rfl (by simp [AsksForNone]) ?_
      rintro m since - ⟨hsame, succeeded, hresults, hverdict⟩
      exact ⟨spares_of_verdict hresults hverdict (by simp), hsame, succeeded, hresults, hverdict,
        _, List.mem_cons_of_mem _ (List.mem_cons_self ..)⟩
  | unprepared forgoes =>
      rw [List.append_assoc]
      refine Account.forgoes (h.goes rfl (by simp [AsksForNone]) ?_) forgoes
      rintro m since - ⟨-, succeeded, hresults, hverdict⟩
      exact disposed_of_verdict hresults hverdict (by simp) (.unprepared (List.mem_cons_self ..))
  | copied =>
      refine h.goes rfl (by simp [AsksForNone]) ?_
      rintro m since - ⟨hsame, succeeded, hresults, hverdict, transit, hprepared⟩
      refine ⟨spares_of_verdict hresults hverdict (by simp), hsame, succeeded, hresults,
        .inr ⟨hverdict, ⟨transit, List.mem_append_right _ hprepared⟩, ?_⟩⟩
      rw [← hsame.2.1]
      exact ⟨_, _, List.mem_cons_of_mem _ (List.mem_cons_of_mem _ (List.mem_cons_self ..))⟩
  | @uncopied held sent error later course forgoes =>
      rw [List.append_assoc]
      refine Account.forgoes (h.goes rfl (by simp [AsksForNone]) ?_) forgoes
      rintro m since - ⟨hsame, succeeded, hresults, hverdict, transit, hprepared⟩
      have hanswered : .answered .poison (.enqueue m.body) sent (.error error) ∈
          [.answered .poison (.enqueue held.body) sent (.error error)] ++ since := by
        rw [← hsame.2.1]
        exact List.mem_cons_self ..
      exact disposed_of_verdict hresults hverdict (by simp)
        (.uncopied (List.mem_cons_of_mem _ hprepared) hanswered)

/-- A renewal timer disposes of nothing, and its errors are not the tick's. -/
theorem calm_of_renews {claim claim' : Claim} {loop loop' : RenewalLoop}
    (hwindow : p.config.visibilityTimeout.isZero = false)
    (h : Renews p claim loop doings claim' loop') :
    SameContent claim.message claim'.message ∧ results doings = [] ∧ Mild doings ∧
      ∀ doing ∈ doings, doing.disposes = false := by
  cases h with
  | waits | returns _ | skips _ _ => exact ⟨⟨rfl, rfl, rfl⟩, rfl, by simp [Mild], by simp⟩
  | asks idle kept transit =>
      exact ⟨⟨rfl, rfl, rfl⟩, rfl, by simp [Mild, Doing.fatal?],
        by simpa [Doing.disposes] using hwindow⟩
  | hears learns =>
      refine ⟨?_, rfl, by simp [Mild, Doing.fatal?, QueueCall.renews, hwindow],
        by simpa [Doing.disposes] using hwindow⟩
      cases learns <;> exact ⟨rfl, rfl, rfl⟩

/-- The renewals leave everything else about a run as it is. -/
theorem Spares.renewed {claim claim' : Claim} {loop loop' : RenewalLoop} {m : Delivery}
    {since : List Doing} {outcomes : List Bool} (h : p.Spares since)
    (hwindow : p.config.visibilityTimeout.isZero = false)
    (hrenews : Renews p claim loop doings claim' loop')
    (hstage : SameContent m claim.message ∧ results since = outcomes ∧
      ∀ doing ∈ since, doing.disposes = false) :
    p.Spares (doings ++ since) ∧ SameContent m claim'.message ∧
      results (doings ++ since) = outcomes ∧ ∀ doing ∈ doings ++ since, doing.disposes = false := by
  obtain ⟨hsame, hresults, -, hcalm⟩ := calm_of_renews hwindow hrenews
  obtain ⟨hheld, hended, hbefore⟩ := hstage
  refine ⟨h.after hcalm hresults, hheld.trans hsame, ?_,
    List.forall_mem_append.mpr ⟨hcalm, hbefore⟩⟩
  rw [results_append, hresults, hended]
  rfl

theorem Account.tends {phase phase' : TickPhase}
    (hwindow : p.config.visibilityTimeout.isZero = false)
    (h : p.Account earlier (p.Stage phase)) (htends : Tends p phase doings phase') :
    p.Account (doings ++ earlier) (p.Stage phase') ∧ Mild doings := by
  obtain ⟨hnone, hquiet, -⟩ := htends.quiet
  cases htends with
  | executing _ renews | settling _ renews =>
      obtain ⟨-, -, hmild, -⟩ := calm_of_renews hwindow renews
      refine ⟨h.goes hnone hquiet ?_, hmild⟩
      exact fun m since hspares hstage => hspares.renewed hwindow renews hstage

/-- What a tick has come to, with the diary of the poller.  Its transitions and
those of its renewal timer come in any order, the tick may be cancelled or not,
and the environment may become any other in between. -/
inductive Round (p : Poller) (a : PollerAccess Env) : TickProgress (Env × Diary) → Prop
  | probe (env : Env) : Round p a (probe a.diarised (env, []))
  | meanwhile {env : Env} {diary : Diary} {phase : TickPhase} (env' : Env)
      (before : Round p a (.continues (env, diary) phase)) :
      Round p a (.continues (env', diary) phase)
  | own {env : Env × Diary} {phase : TickPhase} {progress : TickProgress (Env × Diary)}
      (cancelled : Bool) (before : Round p a (.continues env phase))
      (advances : p.advance a.diarised env cancelled phase = some progress) : Round p a progress
  | tend {env env' : Env × Diary} {phase phase' : TickPhase}
      (before : Round p a (.continues env phase))
      (tends : p.advanceRenewal a.diarised env phase = some (env', phase')) :
      Round p a (.continues env' phase')

variable {a : PollerAccess Env} {progress : TickProgress (Env × Diary)}

theorem Round.account (hwindow : p.config.visibilityTimeout.isZero = false)
    (h : p.Round a progress) :
    p.Account progress.env.2.doings (p.knows progress.course) ∧
      Surfaces progress.env.2.doings progress.course := by
  induction h with
  | probe env =>
      have hmild : Mild [.begun .primary .probe (a.queue.issue env .probe).2] := by
        simp [Mild, Doing.fatal?]
      exact ⟨account_probe p _, .spared hmild (by rintro error ⟨⟩)⟩
  | meanwhile env' _ ih => exact ih
  | own cancelled _ advances ih =>
      obtain ⟨haccount, hsurfaces⟩ := ih
      obtain ⟨doings, hdoes, hscript⟩ := advance_performs advances
      rw [hdoes.doings_diary]
      cases hsurfaces with
      | spared mild _ => exact ⟨haccount.follows hscript, hscript.surfaces.after mild⟩
  | tend _ tends ih =>
      obtain ⟨haccount, hsurfaces⟩ := ih
      obtain ⟨doings, hdoes, htends⟩ := advanceRenewal_performs tends
      obtain ⟨haccount', hmild⟩ := haccount.tends hwindow htends
      cases hsurfaces with
      | spared mild _ =>
          refine ⟨?_, .spared ?_ (by simp [Progress.course])⟩
          · exact hdoes.doings_diary ▸ haccount'
          · exact hdoes.doings_diary ▸ mild_append.mpr ⟨hmild, mild⟩

theorem firstFatal?_iff (h : Surfaces doings course) (error : StorageError) :
    course = .ended () (.error error) ↔ firstFatal? doings = some error := by
  cases h with
  | spared mild silent =>
      have hnone : firstFatal? doings = none := by
        rw [firstFatal?, List.findSome?_eq_none_iff]
        exact fun doing hdoing => mild doing (List.mem_reverse.mp hdoing)
      rw [hnone]
      simpa using silent error
  | @fails last before error' split mild fatal =>
      have hfirst : firstFatal? doings = some error' := by
        have hnone : before.reverse.findSome? Doing.fatal? = none := by
          rw [List.findSome?_eq_none_iff]
          exact fun doing hdoing => mild doing (List.mem_reverse.mp hdoing)
        rw [firstFatal?, split, List.reverse_cons, List.findSome?_append, hnone]
        simp [fatal]
      rw [hfirst]
      simp

theorem last_of_fatal (h : Surfaces doings course) {later before : List Doing} {doing : Doing}
    (hsplit : doings = later ++ doing :: before) (hfatal : doing.fatal?.isSome = true) :
    later = [] := by
  have hnot : ∀ {others : List Doing}, Mild others → doing ∉ others := by
    intro others hmild hdoing
    simp [hmild doing hdoing] at hfatal
  cases h with
  | spared mild _ => exact absurd (by simp [hsplit]) (hnot mild)
  | fails split mild _ =>
      cases later with
      | nil => rfl
      | cons head rest =>
          obtain ⟨-, hbefore⟩ := List.cons.inj (split.symm.trans hsplit)
          exact absurd (by simp [hbefore]) (hnot mild)

/-- A tick ends with the first fatal error of a call of its own, at once, and
with no other error.  Each message is disposed of before the next one is asked
for, and one that was not processed is not touched without a poison queue. -/
theorem tick_surfaces_fatal (valid : p.config.validate = .ok ()) (h : p.Round a progress) :
    (∀ error, progress.course = .ended () (.error error) ↔
      firstFatal? progress.env.2.doings = some error) ∧
    (∀ later doing earlier, progress.env.2.doings = later ++ doing :: earlier →
      doing.fatal?.isSome = true → later = []) ∧
    (∀ later earlier window transit, progress.env.2.doings =
        later ++ .begun .primary (.dequeue window) transit :: earlier →
      ∀ m since, stint? earlier = some (m, since) → p.Disposed m since) ∧
    (p.poison = none → ∀ m since, stint? progress.env.2.doings = some (m, since) →
      results since = [false] → ∀ doing ∈ since, doing.disposes = false) := by
  have hwindow : p.config.visibilityTimeout.isZero = false :=
    Duration.isZero_eq_false_iff.mpr (p.config.validate_eq_ok_iff.mp valid).1
  obtain ⟨haccount, hsurfaces⟩ := h.account hwindow
  refine ⟨firstFatal?_iff hsurfaces, ?_, haccount.serves, ?_⟩
  · intro later doing earlier hsplit hfatal
    exact last_of_fatal hsurfaces hsplit hfatal
  · intro hpoison m since hstint
    exact (haccount.last m since hstint).1 hpoison

theorem Round.proceed (h : p.Round a progress) (count : Nat) :
    p.Round a (p.proceed a.diarised count progress) :=
  kept_of_proceed (fun _ _ _ hbefore hadvances => hbefore.own false hadvances)
    (fun _ _ _ _ hbefore htends => hbefore.tend htends) h count

def frugal : Poller := ⟨"jobs", none, .standard⟩

def denied : StorageError := .status 403 "AuthorizationFailure" "no access"

/-- The one message there is will not be processed, and only its dequeue will be
served. -/
def wanting : World :=
  { World.initial with
    queues := ⟨[("jobs", (Queue.create "jobs").append ⟨0⟩ [7] 0 0 scenarioEpoch)]⟩
    executors := ⟨[("worker", ⟨.scripted [] { succeeds := false }, []⟩)]⟩
    gateways := ⟨[("worker.queue", { script := [⟨.dequeue, .zero, none, 1⟩,
      ⟨.dequeue, .zero, some ⟨denied, false⟩, 1⟩] })]⟩ }

def frugalAccess : PollerAccess World := World.pollerAccess "worker" "jobs" none "worker"

def refused : TickProgress (World × Diary) :=
  frugal.proceed frugalAccess.diarised 6 (probe frugalAccess.diarised (wanting, []))

theorem tick_surfaces_fatal_refused :
    frugal.config.validate = .ok () ∧ frugal.Round frugalAccess refused ∧
      firstFatal? refused.env.2.doings = some denied ∧
      ∃ m since, stint? refused.env.2.doings = some (m, since) ∧ results since = [false] ∧
        ∀ doing ∈ since, doing.disposes = false := by
  have hround : frugal.Round frugalAccess refused := (Round.probe wanting).proceed 6
  have hsurfaces := tick_surfaces_fatal PollingConfig.validate_standard hround
  refine ⟨PollingConfig.validate_standard, hround, (hsurfaces.1 denied).mp rfl, ?_⟩
  exact ⟨_, _, rfl, rfl, hsurfaces.2.2.2 rfl _ _ rfl rfl⟩

end

end Poller

end LeasedListener
