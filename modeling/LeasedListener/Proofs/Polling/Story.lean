import LeasedListener.Proofs.Polling.Sweep
import LeasedListener.Proofs.Queue.Order

/-!
# The story of a sweep

What a sweep that nothing disturbs does with a message can be told in advance,
given how the user function does on it with each count.  A message is executed
until a run succeeds or the count has reached the limit, and is then removed,
after a copy has been made of it if no run has succeeded.
-/

namespace LeasedListener

/-- What can be told of a sweep while it goes on. -/
inductive Happening
  | began (id : MessageId) (body : List UInt8) (count : UInt32)
  | ended (succeeded : Bool)
  | copied (body : List UInt8)
  | removed (id : MessageId)
  | marked (mark : Mark)
deriving DecidableEq

def Doing.happening? : Doing → Option Happening
  | .started m _ => some (.began m.id m.body m.dequeueCount)
  | .finished _ (.ok succeeded) => some (.ended succeeded)
  | .answered .poison (.enqueue body) _ (.ok _) => some (.copied body)
  | .answered .primary (.delete m) _ (.ok _) => some (.removed m.id)
  | .marked mark => some (.marked mark)
  | _ => none

def happenings (doings : List Doing) : List Happening :=
  (doings.filterMap Doing.happening?).reverse

theorem happenings_append (doings earlier : List Doing) :
    happenings (doings ++ earlier) = happenings earlier ++ happenings doings := by
  simp [happenings]

def Happening.copied? : Happening → Option (List UInt8)
  | .copied body => some body
  | _ => none

def Happening.mark? : Happening → Option Mark
  | .marked mark => some mark
  | _ => none

/-- Whether the user function succeeds on a message, delivered with a count. -/
abbrev Verdict := MessageId → List UInt8 → UInt32 → Bool

/-- The runs on a message with this count: with which counts, and whether they
succeed. -/
def attempts (limit : UInt32) (verdict : UInt32 → Bool) (count : UInt32) : List (UInt32 × Bool) :=
  let reported := nextCount count
  if verdict reported then [(reported, true)]
  else if limit ≤ reported then [(reported, false)]
  else (reported, false) :: attempts limit verdict reported
termination_by limit.toNat - count.toNat
decreasing_by
  -- a count below the limit has not saturated, so the next one is larger
  rename_i hseldom
  have hless := UInt32.lt_iff_toNat_lt.mp (UInt32.not_le.mp hseldom)
  have hlimit : limit.toNat < UInt32.size := limit.toNat_lt
  rw [toNat_nextCount] at hless ⊢
  omega

/-- What a run is followed by. -/
def closing (limit : UInt32) (id : MessageId) (body : List UInt8) (count : UInt32)
    (succeeded : Bool) : List Happening :=
  if succeeded then [.marked .succeeded, .removed id]
  else if limit ≤ count then [.marked .failed, .copied body, .marked .poisoned, .removed id]
  else [.marked .failed, .marked .released]

def attemptStory (limit : UInt32) (id : MessageId) (body : List UInt8)
    (attempt : UInt32 × Bool) : List Happening :=
  .marked .dequeued :: .began id body attempt.1 :: .ended attempt.2 ::
    closing limit id body attempt.1 attempt.2

def story (limit : UInt32) (verdict : Verdict) (id : MessageId) (body : List UInt8)
    (count : UInt32) : List Happening :=
  (attempts limit (verdict id body) count).flatMap (attemptStory limit id body)

/-- What follows a run, up to the removal of the message. -/
def sequel (limit : UInt32) (verdict : Verdict) (id : MessageId) (body : List UInt8)
    (count : UInt32) (succeeded : Bool) : List Happening :=
  closing limit id body count succeeded ++
    if succeeded ∨ limit ≤ count then [] else story limit verdict id body count

section

variable (limit : UInt32) (verdict : Verdict) (id : MessageId) (body : List UInt8) (count : UInt32)

theorem story_eq : story limit verdict id body count =
    .marked .dequeued :: .began id body (nextCount count) ::
      .ended (verdict id body (nextCount count)) ::
      sequel limit verdict id body (nextCount count) (verdict id body (nextCount count)) := by
  unfold story
  rw [attempts]
  cases hverdict : verdict id body (nextCount count) with
  | true => simp [attemptStory, sequel]
  | false =>
      by_cases hlimit : limit ≤ nextCount count
      · simp [attemptStory, sequel, hlimit]
      · simp [attemptStory, sequel, story, hlimit]

end

def isFutile (limit : UInt32) (verdict : UInt32 → Bool) (count : UInt32) : Bool :=
  (attempts limit verdict count).all fun attempt => !attempt.2

theorem copied_attemptStory (limit : UInt32) (id : MessageId) (body : List UInt8)
    (attempt : UInt32 × Bool) :
    (attemptStory limit id body attempt).filterMap Happening.copied? =
      if attempt.2 = false ∧ limit ≤ attempt.1 then [body] else [] := by
  unfold attemptStory closing
  split
  · next hsucceeded =>
      rw [if_neg (by simp [hsucceeded])]
      rfl
  · next hfailed =>
      split
      · next hlimit =>
          rw [if_pos ⟨Bool.eq_false_iff.mpr hfailed, hlimit⟩]
          rfl
      · next hlimit =>
          rw [if_neg fun hboth => hlimit hboth.2]
          rfl

theorem copied_story (limit : UInt32) (verdict : Verdict) (id : MessageId) (body : List UInt8)
    (count : UInt32) :
    (story limit verdict id body count).filterMap Happening.copied? =
      if isFutile limit (verdict id body) count then [body] else [] := by
  unfold story isFutile
  induction count using attempts.induct limit (verdict id body) with
  | case1 count reported succeeds =>
      rw [attempts, if_pos succeeds]
      simp [copied_attemptStory]
  | case2 count reported fails last =>
      rw [attempts, if_neg fails, if_pos last]
      have hlast : limit ≤ nextCount count := last
      simp [copied_attemptStory, hlast]
  | case3 count reported fails more ih =>
      rw [attempts, if_neg fails, if_neg more]
      have hmore : ¬ limit ≤ nextCount count := more
      rw [List.flatMap_cons, List.filterMap_append, copied_attemptStory, ih,
        if_neg fun hboth => hmore hboth.2]
      rfl

/-- How runs count in a tally. -/
def Tally.addRuns (t : Tally) (limit : UInt32) (runs : List (UInt32 × Bool)) : Tally where
  dequeued := t.dequeued + runs.length
  succeeded := t.succeeded + runs.countP (·.2)
  failed := t.failed + runs.countP (!·.2)
  released := t.released + runs.countP fun run => !run.2 && run.1 < limit
  poisoned := t.poisoned + runs.countP fun run => !run.2 && limit ≤ run.1
  disposalConflicts := t.disposalConflicts

theorem Tally.addRuns_append (t : Tally) (limit : UInt32) (runs later : List (UInt32 × Bool)) :
    t.addRuns limit (runs ++ later) = (t.addRuns limit runs).addRuns limit later := by
  simp [addRuns, Nat.add_assoc]

def Tally.follow (t : Tally) (told : List Happening) : Tally :=
  (told.filterMap Happening.mark?).foldl Tally.add t

theorem Tally.follow_append (t : Tally) (told later : List Happening) :
    t.follow (told ++ later) = (t.follow told).follow later := by
  simp [follow, List.filterMap_append, List.foldl_append]

theorem marks_attemptStory (limit : UInt32) (id : MessageId) (body : List UInt8)
    (attempt : UInt32 × Bool) :
    (attemptStory limit id body attempt).filterMap Happening.mark? =
      .dequeued :: if attempt.2 then [.succeeded]
        else if limit ≤ attempt.1 then [.failed, .poisoned] else [.failed, .released] := by
  unfold attemptStory closing
  split
  · rfl
  · split <;> rfl

theorem Tally.follow_attemptStory (t : Tally) (limit : UInt32) (id : MessageId)
    (body : List UInt8) (attempt : UInt32 × Bool) :
    t.follow (attemptStory limit id body attempt) = t.addRuns limit [attempt] := by
  obtain ⟨count, succeeded⟩ := attempt
  rw [follow, marks_attemptStory]
  cases succeeded with
  | true => simp [Tally.add, addRuns]
  | false =>
      by_cases hlimit : limit ≤ count
      · simp [Tally.add, addRuns, hlimit]
      · have hseldom : count < limit := UInt32.not_le.mp hlimit
        simp [Tally.add, addRuns, hlimit, hseldom]

theorem Tally.follow_attempts (t : Tally) (limit : UInt32) (id : MessageId) (body : List UInt8)
    (runs : List (UInt32 × Bool)) :
    t.follow (runs.flatMap (attemptStory limit id body)) = t.addRuns limit runs := by
  induction runs generalizing t with
  | nil => rfl
  | cons run runs ih =>
      rw [List.flatMap_cons, follow_append, ih, follow_attemptStory, ← addRuns_append]
      rfl

theorem Tally.follow_happenings (t : Tally) (doings : List Doing) :
    t.follow (happenings doings) =
      (doings.filterMap Doing.mark?).foldr (fun mark tally => tally.add mark) t := by
  have hmarks : (doings.filterMap Doing.happening?).filterMap Happening.mark? =
      doings.filterMap Doing.mark? := by
    rw [List.filterMap_filterMap]
    congr 1
    funext doing
    cases doing with
    | begun | started | marked => rfl
    | finished execution result => cases result <;> rfl
    | answered role call transit reply =>
        cases role <;> cases call <;> cases reply <;> rfl
  rw [follow, happenings, List.filterMap_reverse, hmarks, List.foldl_reverse]

end LeasedListener
