import Neolaas.RestartWindow

/-!
# The backoffs of a restart tracker

The backoff is counted in whole milliseconds of 64 bits and multiplied by a
saturating power of two, without a check of the product. The restarts since the last
reset are counted in 32 bits.
-/
namespace Neolaas

namespace RestartPolicy

/-- The milliseconds that `calculate_backoff` multiplies. -/
def backoffMillis (self : RestartPolicy) : ℕ := self.backoff / fromMillis 1 % 2 ^ 64

/-- The exact product for the restart of a number since the last reset. -/
def productAt (self : RestartPolicy) (k : ℕ) : ℕ :=
  self.backoffMillis * min (2 ^ (k % 2 ^ 32 - 1)) (2 ^ 32 - 1)

/-- The backoff of that restart. -/
def backoffAt (self : RestartPolicy) (k : ℕ) : ℕ :=
  min (fromMillis (self.productAt k % 2 ^ 64)) self.maxBackoff

/-- Restarts with their backoffs and exact products: the backoffs do not decrease,
each is between the two durations, and no product overflows. -/
def BacksOff (self : RestartPolicy) (restarts : List (ℕ × ℕ)) : Prop :=
  (restarts.map Prod.fst).Pairwise (· ≤ ·) ∧ ∀ restart ∈ restarts,
    restart.1 ≤ self.maxBackoff ∧ min self.backoff self.maxBackoff ≤ restart.1 ∧
      restart.2 < 2 ^ 64

instance (self : RestartPolicy) (restarts : List (ℕ × ℕ)) :
    Decidable (self.BacksOff restarts) := inferInstanceAs (Decidable (_ ∧ _))

/-- The durations suit a number of restarts without a reset: their largest product is
of 64 bits, nothing of the backoff is lost below its limit, and the counter of
restarts does not wrap unless all backoffs are the same. -/
def Suits (self : RestartPolicy) (n : ℕ) : Prop :=
  self.backoffMillis * min (2 ^ (n - 1)) (2 ^ 32 - 1) < 2 ^ 64 ∧
  (self.maxBackoff ≤ fromMillis self.backoffMillis ∨
    self.backoff = fromMillis self.backoffMillis) ∧
  (n < 2 ^ 32 ∨ self.backoffMillis = 0 ∨ self.maxBackoff ≤ fromMillis self.backoffMillis)

theorem fromMillis_le {a b : ℕ} (h : a ≤ b) : fromMillis a ≤ fromMillis b := by
  unfold fromMillis
  omega

theorem fromMillis_backoffMillis_le (self : RestartPolicy) :
    fromMillis self.backoffMillis ≤ self.backoff := by
  unfold backoffMillis fromMillis
  omega

/-- The saturated powers of two grow with the exponent. -/
theorem saturated_le {a b : ℕ} (h : a ≤ b) :
    min (2 ^ a) (2 ^ 32 - 1) ≤ min (2 ^ b) (2 ^ 32 - 1) := by
  have hpow : 2 ^ a ≤ 2 ^ b := Nat.pow_le_pow_right (by decide) h
  omega

theorem one_le_saturated (e : ℕ) : 1 ≤ min (2 ^ e) (2 ^ 32 - 1) := by
  have hpow : 1 ≤ 2 ^ e := Nat.one_le_two_pow
  omega

/-- From the exponent 32 on the power is saturated. -/
theorem saturated_eq {e : ℕ} (h : 32 ≤ e) : min (2 ^ e) (2 ^ 32 - 1) = 2 ^ 32 - 1 := by
  have hpow : 2 ^ 32 ≤ 2 ^ e := Nat.pow_le_pow_right (by decide) h
  omega

/-- Every product is at least the first and at most the one of the last restart. -/
theorem backoffMillis_le_productAt (self : RestartPolicy) (k : ℕ) :
    self.backoffMillis ≤ self.productAt k := by
  unfold productAt
  exact Nat.le_mul_of_pos_right _ (one_le_saturated _)

theorem productAt_le (self : RestartPolicy) {k n : ℕ} (h : k ≤ n) :
    self.productAt k ≤ self.backoffMillis * min (2 ^ (n - 1)) (2 ^ 32 - 1) := by
  unfold productAt
  apply Nat.mul_le_mul_left
  apply saturated_le
  have hmod : k % 2 ^ 32 ≤ k := Nat.mod_le k _
  omega

/-- Before the counter wraps the products grow. -/
theorem productAt_mono (self : RestartPolicy) {j k : ℕ} (hjk : j ≤ k) (hk : k < 2 ^ 32) :
    self.productAt j ≤ self.productAt k := by
  unfold productAt
  rw [Nat.mod_eq_of_lt (lt_of_le_of_lt hjk hk), Nat.mod_eq_of_lt hk]
  apply Nat.mul_le_mul_left
  apply saturated_le
  omega

/-- The first restart, and the one at which the counter has wrapped. -/
theorem productAt_one (self : RestartPolicy) : self.productAt 1 = self.backoffMillis := by
  simp [productAt]

theorem productAt_wrapped (self : RestartPolicy) :
    self.productAt (2 ^ 32) = self.backoffMillis := by
  simp [productAt]

/-- The largest product of a number of restarts is the one of the last of the first 33. -/
theorem productAt_largest (self : RestartPolicy) (n : ℕ) :
    self.productAt (min n 33) = self.backoffMillis * min (2 ^ (n - 1)) (2 ^ 32 - 1) := by
  unfold productAt
  have hsmall : min n 33 % 2 ^ 32 = min n 33 := Nat.mod_eq_of_lt (by omega)
  rw [hsmall]
  by_cases hn : n ≤ 33
  · rw [min_eq_left hn]
  · have hmin : min n 33 = 33 := by omega
    rw [hmin, saturated_eq (by omega), saturated_eq (by omega)]

theorem productAt_saturated (self : RestartPolicy) :
    self.productAt 33 = self.backoffMillis * (2 ^ 32 - 1) := by
  unfold productAt
  rw [saturated_eq (by decide)]

/-- A truncated duration at least as long as the limit, or not truncated. -/
theorem lost_of_le {backoff kept limit : ℕ} (h : min backoff limit ≤ min kept limit)
    (hkept : kept ≤ backoff) : limit ≤ kept ∨ backoff = kept := by
  omega

/-- Durations whose saturated product is no longer than they are. -/
theorem constant_of_le {millis limit : ℕ}
    (h : min (fromMillis (millis * (2 ^ 32 - 1))) limit ≤ min (fromMillis millis) limit) :
    millis = 0 ∨ limit ≤ fromMillis millis := by
  unfold fromMillis at *
  omega

/-- A backoff whose product does not overflow. -/
theorem backoffAt_of_lt (self : RestartPolicy) {k : ℕ} (h : self.productAt k < 2 ^ 64) :
    self.backoffAt k = min (fromMillis (self.productAt k)) self.maxBackoff := by
  unfold backoffAt
  rw [Nat.mod_eq_of_lt h]

/-- The first so many restarts since a reset. -/
def restarts (self : RestartPolicy) (n : ℕ) : List (ℕ × ℕ) :=
  (List.range n).map (fun k => (self.backoffAt (k + 1), self.productAt (k + 1)))

theorem mem_restarts {self : RestartPolicy} {n : ℕ} {restart : ℕ × ℕ} :
    restart ∈ self.restarts n ↔
      ∃ k, 1 ≤ k ∧ k ≤ n ∧ restart = (self.backoffAt k, self.productAt k) := by
  unfold restarts
  rw [List.mem_map]
  constructor
  · rintro ⟨k, hk, rfl⟩
    have hlt := List.mem_range.mp hk
    exact ⟨k + 1, by omega, by omega, rfl⟩
  · rintro ⟨k, hpos, hle, rfl⟩
    refine ⟨k - 1, List.mem_range.mpr (by omega), ?_⟩
    rw [Nat.sub_add_cancel hpos]

/-- Values of successive numbers do not decrease. -/
theorem pairwise_range_iff (f : ℕ → ℕ) (n : ℕ) :
    ((List.range n).map (fun k => f (k + 1))).Pairwise (· ≤ ·) ↔
      ∀ j k, 1 ≤ j → j < k → k ≤ n → f j ≤ f k := by
  rw [List.pairwise_map, List.pairwise_iff_getElem]
  simp only [List.length_range, List.getElem_range]
  constructor
  · intro h j k hj hjk hk
    have hstep := h (j - 1) (k - 1) (by omega) (by omega) (by omega)
    have hj' : j - 1 + 1 = j := by omega
    have hk' : k - 1 + 1 = k := by omega
    rw [hj', hk'] at hstep
    exact hstep
  · intro h i j hi hj hij
    exact h (i + 1) (j + 1) (by omega) (by omega) (by omega)

theorem pairwise_restarts {self : RestartPolicy} {n : ℕ} :
    ((self.restarts n).map Prod.fst).Pairwise (· ≤ ·) ↔
      ∀ j k, 1 ≤ j → j < k → k ≤ n → self.backoffAt j ≤ self.backoffAt k := by
  rw [← pairwise_range_iff self.backoffAt n, restarts, List.map_map]
  rfl

/-- The durations suit the restarts exactly when the restarts back off. -/
theorem backsOff_restarts (self : RestartPolicy) (n : ℕ) (hn : 0 < n) :
    self.BacksOff (self.restarts n) ↔ self.Suits n := by
  have hfirst : self.productAt 1 < 2 ^ 64 := by
    rw [productAt_one]
    exact Nat.mod_lt _ (by decide)
  have hbackoff := fromMillis_backoffMillis_le self
  unfold BacksOff
  rw [pairwise_restarts]
  constructor
  · rintro ⟨hmono, hall⟩
    have hlargest : self.productAt (min n 33) < 2 ^ 64 :=
      (hall _ (mem_restarts.mpr ⟨min n 33, by omega, by omega, rfl⟩)).2.2
    refine ⟨?_, ?_, ?_⟩
    · rw [← productAt_largest]
      exact hlargest
    · -- The first backoff is the one of the truncated duration.
      have hlower := (hall _ (mem_restarts.mpr ⟨1, le_rfl, hn, rfl⟩)).2.1
      rw [backoffAt_of_lt self hfirst, productAt_one] at hlower
      exact lost_of_le hlower hbackoff
    · by_cases hwrap : n < 2 ^ 32
      · exact Or.inl hwrap
      · -- The backoff of the wrapped counter is the first one again.
        right
        have hle := hmono 33 (2 ^ 32) (by decide) (by decide) (by omega)
        have hmin : min n 33 = 33 := by omega
        rw [hmin] at hlargest
        have hwrapped : self.productAt (2 ^ 32) < 2 ^ 64 := by
          rw [productAt_wrapped, ← productAt_one]
          exact hfirst
        rw [backoffAt_of_lt self hlargest, backoffAt_of_lt self hwrapped, productAt_wrapped] at hle
        rw [productAt_saturated] at hle
        exact constant_of_le hle
  · rintro ⟨hproduct, hlost, hwrap⟩
    have hfits : ∀ k, k ≤ n → self.productAt k < 2 ^ 64 :=
      fun k hk => lt_of_le_of_lt (productAt_le self hk) hproduct
    have hatLeast : ∀ k, fromMillis self.backoffMillis ≤ fromMillis (self.productAt k) :=
      fun k => fromMillis_le (backoffMillis_le_productAt self k)
    constructor
    · intro j k hj hjk hk
      rw [backoffAt_of_lt self (hfits j (by omega)), backoffAt_of_lt self (hfits k hk)]
      obtain hlt | hzero | hmax := hwrap
      · have hle := fromMillis_le (productAt_mono self hjk.le (lt_of_le_of_lt hk hlt))
        exact min_le_min_right _ hle
      · unfold productAt
        rw [hzero, Nat.zero_mul, Nat.zero_mul]
      · rw [min_eq_right (hmax.trans (hatLeast j)), min_eq_right (hmax.trans (hatLeast k))]
    · intro restart hmem
      obtain ⟨k, -, hk, rfl⟩ := mem_restarts.mp hmem
      rw [backoffAt_of_lt self (hfits k hk)]
      refine ⟨min_le_right _ _, ?_, hfits k hk⟩
      obtain hmax | hwhole := hlost
      · have hlimit := min_eq_right (hmax.trans (hatLeast k))
        rw [hlimit]
        exact min_le_right _ _
      · rw [hwhole]
        exact min_le_min_right _ (hatLeast k)

end RestartPolicy

namespace RestartTracker
open RestartPolicy

/-- A tracker with the restarts that it has allowed since the last reset: for each the
backoff that was returned, and the exact product behind it. -/
def track (state : RestartTracker × List (ℕ × ℕ)) :
    ℕ × Call → RestartTracker × List (ℕ × ℕ)
  | (now, .recordRestart) =>
    match state.1.recordRestart now with
    | (some backoff, next) =>
      (next, state.2 ++ [(backoff, next.policy.productAt next.consecutiveRestarts.toNat)])
    | (none, next) => (next, state.2)
  | (_, .reset) => (state.1.reset, [])
  | (_, .isExhausted) => state

/-- The backoff is the one of the number of restarts that the counter shows. -/
theorem calculateBackoff_eq (self : RestartTracker) :
    self.calculateBackoff = self.policy.backoffAt self.consecutiveRestarts.toNat := by
  have hcount : self.consecutiveRestarts.toNat % 2 ^ 32 = self.consecutiveRestarts.toNat :=
    Nat.mod_eq_of_lt self.consecutiveRestarts.toNat_lt
  unfold calculateBackoff backoffAt productAt backoffMillis
  dsimp only
  rw [hcount, UInt64.toNat_mul, UInt64.toNat_ofNat', UInt64.toNat_ofNat']
  have hsmall : min (2 ^ (self.consecutiveRestarts.toNat - 1)) (2 ^ 32 - 1) % 2 ^ 64 =
      min (2 ^ (self.consecutiveRestarts.toNat - 1)) (2 ^ 32 - 1) :=
    Nat.mod_eq_of_lt (lt_of_le_of_lt (min_le_right _ _) (by decide))
  rw [hsmall]

/-- A tracker and its restarts are those of the policy after so many of them. -/
structure Tracks (policy : RestartPolicy) (state : RestartTracker × List (ℕ × ℕ)) : Prop where
  governed : state.1.policy = policy
  count : state.1.consecutiveRestarts.toNat = state.2.length % 2 ^ 32
  restarts : state.2 = policy.restarts state.2.length

theorem Tracks.track {policy : RestartPolicy} {state : RestartTracker × List (ℕ × ℕ)}
    (h : Tracks policy state) (call : ℕ × Call) : Tracks policy (track state call) := by
  obtain ⟨tracker, restarts⟩ := state
  obtain ⟨now, call⟩ := call
  obtain ⟨hpolicy, hcount, hrestarts⟩ := h
  simp only at hpolicy hcount hrestarts
  cases call with
  | reset => exact ⟨hpolicy, rfl, rfl⟩
  | isExhausted => exact ⟨hpolicy, hcount, hrestarts⟩
  | recordRestart =>
    simp only [RestartTracker.track, recordRestart]
    by_cases hfull : tracker.policy.maxRestarts.toNat ≤ (tracker.recent now).length
    · simp only [hfull, if_true]
      exact ⟨hpolicy, hcount, hrestarts⟩
    · simp only [hfull, if_false]
      have hnext : (tracker.consecutiveRestarts + 1).toNat = (restarts.length + 1) % 2 ^ 32 := by
        rw [UInt32.toNat_add, hcount]
        show (restarts.length % 2 ^ 32 + 1) % 2 ^ 32 = (restarts.length + 1) % 2 ^ 32
        omega
      have hproduct : policy.productAt ((restarts.length + 1) % 2 ^ 32) =
          policy.productAt (restarts.length + 1) := by
        unfold productAt
        rw [Nat.mod_mod]
      have hbackoff : policy.backoffAt ((restarts.length + 1) % 2 ^ 32) =
          policy.backoffAt (restarts.length + 1) := by
        unfold backoffAt
        rw [hproduct]
      refine ⟨hpolicy, ?_, ?_⟩
      · rw [List.length_append]
        exact hnext
      · simp only [calculateBackoff_eq, hpolicy, hnext, hbackoff, hproduct, List.length_append,
          List.length_singleton]
        unfold RestartPolicy.restarts
        rw [List.range_succ, List.map_append, ← RestartPolicy.restarts, ← hrestarts]
        rfl

theorem tracks_run (policy : RestartPolicy) (calls : List (ℕ × Call)) :
    Tracks policy (calls.foldl RestartTracker.track (new policy, [])) := by
  have hrun : ∀ state, Tracks policy state →
      Tracks policy (calls.foldl RestartTracker.track state) := by
    induction calls with
    | nil => exact fun _ h => h
    | cons call calls ih => exact fun state h => ih _ (h.track call)
  exact hrun _ ⟨rfl, rfl, rfl⟩

/-- After any calls, the restarts since the last reset back off as they should exactly
when there are none or the durations suit their number. -/
theorem backs_off_iff (policy : RestartPolicy) (calls : List (ℕ × Call)) :
    let restarts := (calls.foldl track (new policy, [])).2
    policy.BacksOff restarts ↔ restarts = [] ∨ policy.Suits restarts.length := by
  intro restarts
  have hrestarts : restarts = policy.restarts restarts.length := (tracks_run policy calls).restarts
  by_cases hempty : restarts = []
  · rw [hempty]
    simp [BacksOff]
  · have hpos : 0 < restarts.length := List.length_pos_iff.mpr hempty
    rw [or_iff_right hempty, ← backsOff_restarts policy _ hpos, ← hrestarts]

/-- A backoff of 2⁶³ milliseconds: the product of the second restart overflows, and it
has no backoff at all. -/
theorem not_backs_off : ¬∀ (policy : RestartPolicy) (calls : List (ℕ × Call)),
    policy.BacksOff (calls.foldl track (new policy, [])).2 := by
  intro hclaim
  let policy : RestartPolicy := ⟨2, 0, fromMillis (2 ^ 63), fromMillis (2 ^ 63)⟩
  have hwraps : ¬policy.BacksOff
      ([(1, Call.recordRestart), (2, .recordRestart)].foldl track (new policy, [])).2 := by
    decide +kernel
  exact hwraps (hclaim policy _)

end RestartTracker
end Neolaas
