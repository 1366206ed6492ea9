import LeasedListener.Proofs.Polling.Script

/-!
# Diaries

Whatever its environment is, a poller can be made to keep a diary beside it:
what it does, and at which instant.  The diary changes nothing else.
-/

namespace LeasedListener

open Surroundings

structure DiaryEntry where
  instant : Nat
  doing : Doing

/-- The latest entry comes first. -/
abbrev Diary := List DiaryEntry

def Diary.doings (diary : Diary) : List Doing := diary.map (·.doing)

/-- An entry of a history is one of the latest, or stands further back. -/
theorem split_append {α : Type} {doings earlier later before : List α} {doing : α}
    (h : doings ++ earlier = later ++ doing :: before) :
    (∃ middle, doings = later ++ doing :: middle ∧ before = middle ++ earlier) ∨
      ∃ middle, later = doings ++ middle ∧ earlier = middle ++ doing :: before := by
  rcases List.append_eq_append_iff.mp h with ⟨middle, hlater, hrest⟩ | ⟨middle, hdoings, hrest⟩
  · exact .inr ⟨middle, hlater, hrest⟩
  · cases middle with
    | nil => exact .inr ⟨[], by simpa using hdoings.symm, hrest.symm⟩
    | cons head middle =>
        obtain ⟨rfl, hbefore⟩ := List.cons.inj hrest
        exact .inl ⟨middle, hdoings, hbefore⟩

/-- A renewal asks for a window, and a release for none. -/
def QueueCall.renews : QueueCall → Bool
  | .update _ window => !window.isZero
  | .probe | .create | .enqueue _ | .dequeue _ | .delete _ => false

variable {Env : Type} [Surroundings Env]

/-- Go on to an environment, with an entry about how it was reached. -/
def Diary.entered (env : Env × Diary) (after : Env) (doing : Doing) : Env × Diary :=
  (after, ⟨now env.1, doing⟩ :: env.2)

def QueueAccess.diarised (a : QueueAccess Env) (role : QueueRole) : QueueAccess (Env × Diary) where
  issue env call :=
    let (after, transit) := a.issue env.1 call
    (Diary.entered env after (.begun role call transit), transit)
  perform env call transit :=
    let (after, reply) := a.perform env.1 call transit
    (Diary.entered env after (.answered role call transit reply), reply)

namespace PollerAccess

def diarised (a : PollerAccess Env) : PollerAccess (Env × Diary) where
  queue := a.queue.diarised .primary
  poison := a.poison.diarised .poison
  mark env mark := Diary.entered env (a.mark env.1 mark) (.marked mark)
  execute env m :=
    let (after, execution) := a.execute env.1 m
    (Diary.entered env after (.started m execution), execution)
  finish env execution result :=
    Diary.entered env (a.finish env.1 execution result) (.finished execution result)

theorem side_diarised (a : PollerAccess Env) (role : QueueRole) :
    a.diarised.side role = (a.side role).diarised role := by
  cases role <;> rfl

end PollerAccess

section

variable {a : PollerAccess Env} {env env' : Env × Diary} {doings : List Doing}

theorem Does.doings_diary (h : Does a.diarised env doings env') :
    env'.2.doings = doings ++ env.2.doings := by
  induction h with
  | rest => rfl
  | report event _ ih => exact ih
  | mark mark _ ih => exact congrArg (Doing.marked mark :: ·) ih
  | begin role call _ ih | hear role call _ _ ih =>
      rw [PollerAccess.side_diarised]
      exact congrArg (_ :: ·) ih
  | start m _ ih => exact congrArg (_ :: ·) ih
  | finish execution result _ ih => exact congrArg (_ :: ·) ih

/-- Without its diary, the poller does the same. -/
theorem Does.of_diarised (h : Does a.diarised env doings env') : Does a env.1 doings env'.1 := by
  induction h with
  | rest => exact .rest
  | report event _ ih => exact ih.report event
  | mark mark _ ih => exact ih.mark mark
  | begin role call _ ih =>
      rw [PollerAccess.side_diarised]
      exact ih.begin role call
  | hear role call transit _ ih =>
      rw [PollerAccess.side_diarised]
      exact ih.hear role call transit
  | start m _ ih => exact ih.start m
  | finish execution result _ ih => exact ih.finish execution result

end

end LeasedListener
