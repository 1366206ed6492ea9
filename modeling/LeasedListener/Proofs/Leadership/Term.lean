import LeasedListener.Proofs.Leadership.Parley

/-!
# The length of a lease on a server

A server is told the length of a lease in whole milliseconds, cut off, while the
contender counts on the whole of it.
-/

namespace LeasedListener

/-- That many milliseconds last as long as the lease, or as long as a server can
be told where nothing that it can be told lasts as long. -/
def Covers (sent : Nat) (length : Duration) : Prop :=
  length.nanos ≤ sent * nanosPerMilli ∨
    sent = UInt64.size - 1 ∧ (UInt64.size - 1) * nanosPerMilli < length.nanos

namespace ServerLease

variable {length : Duration}

theorem covers_millis_iff :
    Covers (millis length) length ↔
      length.nanos % nanosPerMilli = 0 ∨ (UInt64.size - 1) * nanosPerMilli < length.nanos := by
  simp only [Covers, millis, Duration.wholeMillis, nanosPerMilli, UInt64.size]
  omega

theorem millis_shortfall (h : ¬ Covers (millis length) length) :
    millis length * nanosPerMilli < length.nanos ∧
      length.nanos < (millis length + 1) * nanosPerMilli := by
  simp only [Covers, millis, Duration.wholeMillis, nanosPerMilli, UInt64.size] at h ⊢
  omega

theorem millis_eq_zero_iff : millis length = 0 ↔ length.nanos < nanosPerMilli := by
  simp only [millis, Duration.wholeMillis, nanosPerMilli, UInt64.size]
  omega

/-- An acquisition asks for the length in every one of its words to the server. -/
theorem Speaks.asks {key : String} {holder : Identifier} {turns : List ServerTurn}
    (h : Speaks key (.acquire length holder) turns) {turn : ServerTurn} (hmem : turn ∈ turns) :
    turn.1 = .load .acquire ∨
      turn.1 = .evaluate .acquire key [holder.text, toString (millis length)] := by
  cases h with
  | silence => simp at hmem
  | acquiring dialogue =>
      cases dialogue with
      | answered =>
          obtain rfl := List.mem_singleton.mp hmem
          exact .inr rfl
      | unloaded =>
          simp only [List.mem_cons, List.not_mem_nil, or_false] at hmem
          rcases hmem with rfl | rfl
          · exact .inr rfl
          · exact .inl rfl
      | repeated =>
          simp only [List.mem_cons, List.not_mem_nil, or_false] at hmem
          rcases hmem with rfl | rfl | rfl
          · exact .inr rfl
          · exact .inl rfl
          · exact .inr rfl

end ServerLease

namespace Parley

variable {config : LeaseConfig} {p : Parley}

theorem expired_iff (h : p.annals.contender.leaseDuration = config.leaseDuration)
    {last : Nat} (hlast : p.annals.contender.lastRenewal = some last) (now : Nat) :
    p.annals.contender.expired now = true ↔ config.leaseDuration.nanos ≤ now - last := by
  simp [Contender.expired, hlast, h]

/-- Every acquisition asks for the whole milliseconds of the length after which
the contender takes its lease for expired.  They cover that length exactly if
there is no rest, or more of them than a server can be told; they fall short of
it by less than a millisecond, and are none at all for a shorter length. -/
theorem claims_cover_iff {name : String} {keyspace : Option String}
    (h : Reachable (.create name keyspace) config p) :
    (∀ talk ∈ p.allTalks, talk.Claims config → ∀ turn ∈ talk.turns,
      turn.1 = .load .acquire ∨
      turn.1 = .evaluate .acquire (keyspace.getD defaultKeyspace ++ ":" ++ name)
        [config.holder.text, toString (ServerLease.millis config.leaseDuration)]) ∧
    (∀ now last, p.annals.contender.lastRenewal = some last →
      (p.annals.contender.expired now = true ↔ config.leaseDuration.nanos ≤ now - last)) ∧
    (Covers (ServerLease.millis config.leaseDuration) config.leaseDuration ↔
      config.leaseDuration.nanos % nanosPerMilli = 0 ∨
      (UInt64.size - 1) * nanosPerMilli < config.leaseDuration.nanos) ∧
    (¬ Covers (ServerLease.millis config.leaseDuration) config.leaseDuration →
      ServerLease.millis config.leaseDuration * nanosPerMilli < config.leaseDuration.nanos ∧
      config.leaseDuration.nanos <
        (ServerLease.millis config.leaseDuration + 1) * nanosPerMilli) ∧
    (ServerLease.millis config.leaseDuration = 0 ↔
      config.leaseDuration.nanos < nanosPerMilli) := by
  have hinv := h.invariant
  refine ⟨?_, ?_, ServerLease.covers_millis_iff, ServerLease.millis_shortfall,
    ServerLease.millis_eq_zero_iff⟩
  · intro talk htalk hclaims turn hturn
    have hspeaks := (hinv.spoken talk htalk).1
    rw [hclaims] at hspeaks
    exact hspeaks.asks hturn
  · intro now last hlast
    exact expired_iff hinv.length hlast now

/-- A lease that is shorter than a millisecond. -/
def fleeting : LeaseConfig where
  holder := .timeOrdered 0
  leaseDuration := .ofNanos 999999
  renewalInterval := .ofNanos 400000
  minRetryInterval := .ofNanos 100000
  stopTimeout := .ofSeconds 30

def briefly : Parley :=
  ((start (.create "lock" none) fleeting 0 scenarioEpoch [.integer 1]).proceed
    (.create "lock" none) true).proceed (.create "lock" none) true

theorem reachable_briefly : Reachable (.create "lock" none) fleeting briefly := by
  have hstart : Reachable (.create "lock" none) fleeting _ :=
    .start 0 scenarioEpoch [.integer 1]
  exact (hstart.proceed true).proceed true

theorem claims_cover_iff_briefly :
    briefly.annals.contender.lastRenewal = some 0 ∧
    briefly.annals.contender.expired 999998 = false ∧
    ServerLease.millis fleeting.leaseDuration = 0 := by
  obtain ⟨-, hexpired, -, -, hzero⟩ := claims_cover_iff reachable_briefly
  have hlast : briefly.annals.contender.lastRenewal = some 0 := by decide
  refine ⟨hlast, ?_, hzero.mpr (by decide)⟩
  rw [Bool.eq_false_iff, ne_eq, hexpired 999998 0 hlast]
  decide

/-- A valid configuration takes a lease for its own for which it has asked no
time at all. -/
theorem acquires_for_no_time :
    fleeting.validate = .ok () ∧
    briefly.annals.status.held = some fleeting.holder ∧
    briefly.allTalks.map (·.turns) = [[(.evaluate .acquire "triggerhost:lease:lock"
      [fleeting.holder.text, "0"], .integer 1)]] ∧
    ¬ Covers 0 fleeting.leaseDuration := by
  refine ⟨?_, by decide, by decide, by unfold Covers; decide⟩
  rw [LeaseConfig.validate_eq_ok_iff]
  decide

end Parley

end LeasedListener
