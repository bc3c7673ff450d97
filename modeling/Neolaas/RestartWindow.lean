import Neolaas.Supervision

/-!
# The window of a restart tracker

A tracker keeps the times of the restarts that it has allowed and prunes them from
the front. Calls come at times that do not decrease, so what has been pruned never
counts again, and what is kept decides like the whole history of allowed restarts.
-/
namespace Neolaas.RestartTracker

/-- A call of a tracker's owner. -/
inductive Call where
  | recordRestart
  | reset
  | isExhausted
  deriving DecidableEq, Repr

/-- The tracker after a call at some time. -/
def after (self : RestartTracker) : ℕ × Call → RestartTracker
  | (now, .recordRestart) => (self.recordRestart now).2
  | (_, .reset) => self.reset
  | (_, .isExhausted) => self

/-- The time of a call that allows a restart. -/
def allows (self : RestartTracker) : ℕ × Call → List ℕ
  | (now, .recordRestart) => if (self.recordRestart now).1.isSome then [now] else []
  | _ => []

theorem allows_recordRestart (self : RestartTracker) (now : ℕ) :
    self.allows (now, .recordRestart) =
      if (self.recordRestart now).1.isSome then [now] else [] := rfl

/-- The times of the calls that allow a restart, in order. -/
def allowed (self : RestartTracker) : List (ℕ × Call) → List ℕ
  | [] => []
  | call :: calls => self.allows call ++ (self.after call).allowed calls

/-- Calls at times that do not decrease, up to a time, from each of which the window
can be subtracted. -/
structure CalledUntil (policy : RestartPolicy) (now : ℕ) (calls : List (ℕ × Call)) : Prop where
  ordered : (calls.map Prod.fst).Pairwise (· ≤ ·)
  past : ∀ call ∈ calls, policy.window ≤ call.1 ∧ call.1 ≤ now
  window : policy.window ≤ now

/-- The times in a closed interval. -/
def within (a b : ℕ) (times : List ℕ) : List ℕ := times.filter (fun t => a ≤ t ∧ t ≤ b)

/-- Dropping from the front of sorted times is filtering them. -/
theorem dropWhile_eq_filter (cutoff : ℕ) (times : List ℕ) (h : times.Pairwise (· ≤ ·)) :
    times.dropWhile (· < cutoff) = times.filter (cutoff ≤ ·) := by
  induction times with
  | nil => rfl
  | cons a times ih =>
    obtain ⟨hle, hrest⟩ := List.pairwise_cons.mp h
    by_cases ha : a < cutoff
    · have hdrop : ¬cutoff ≤ a := by omega
      rw [List.dropWhile_cons_of_pos (by simpa using ha), ih hrest,
        List.filter_cons_of_neg (by simpa using hdrop)]
    · rw [List.dropWhile_cons_of_neg (by simpa using ha)]
      symm
      apply List.filter_eq_self.mpr
      intro b hb
      have hcut : cutoff ≤ b := by
        obtain rfl | hb := List.mem_cons.mp hb
        · omega
        · have := hle b hb
          omega
      simpa using hcut

/-- What a tracker remembers of the restarts that it has allowed: it has pruned only
restarts that are out of every window from now on. -/
structure Remembers (policy : RestartPolicy) (history : List ℕ) (now : ℕ)
    (tracker : RestartTracker) : Prop where
  governed : tracker.policy = policy
  sorted : history.Pairwise (· ≤ ·)
  past : ∀ a ∈ history, a ≤ now
  kept : ∃ pruned, history = pruned ++ tracker.restartTimes ∧
    ∀ a ∈ pruned, a < now - policy.window

/-- The restarts that a tracker keeps for a window are all that there are in it. -/
theorem Remembers.recent {policy : RestartPolicy} {history : List ℕ} {now t : ℕ}
    {self : RestartTracker} (h : Remembers policy history now self) (ht : now ≤ t) :
    self.recent t = within (t - policy.window) t history ∧
      self.recent t = self.restartTimes.filter (t - policy.window ≤ ·) := by
  obtain ⟨pruned, hsplit, hpruned⟩ := h.kept
  have hsorted : self.restartTimes.Pairwise (· ≤ ·) := by
    have hall := h.sorted
    rw [hsplit] at hall
    exact (List.pairwise_append.mp hall).2.1
  have hrecent : self.recent t = self.restartTimes.filter (t - policy.window ≤ ·) := by
    unfold RestartTracker.recent
    rw [h.governed]
    exact dropWhile_eq_filter _ _ hsorted
  have hnone : pruned.filter (fun a => t - policy.window ≤ a ∧ a ≤ t) = [] := by
    apply List.filter_eq_nil_iff.mpr
    intro a ha
    have hout := hpruned a ha
    have hnot : ¬(t - policy.window ≤ a ∧ a ≤ t) := by omega
    simpa using hnot
  have hkept : self.restartTimes.filter (fun a => t - policy.window ≤ a ∧ a ≤ t) =
      self.restartTimes.filter (t - policy.window ≤ ·) := by
    apply List.filter_congr
    intro a ha
    have hpast : a ≤ now := h.past a (by rw [hsplit]; exact List.mem_append_right _ ha)
    have hle : a ≤ t := by omega
    simp [hle]
  refine ⟨?_, hrecent⟩
  rw [hrecent, within, hsplit, List.filter_append, hnone, hkept, List.nil_append]

/-- A restart is allowed when fewer than the limit have been allowed in its window. -/
theorem Remembers.isSome_iff {policy : RestartPolicy} {history : List ℕ} {now t : ℕ}
    {self : RestartTracker} (h : Remembers policy history now self) (ht : now ≤ t) :
    (self.recordRestart t).1.isSome = true ↔
      (within (t - policy.window) t history).length < policy.maxRestarts.toNat := by
  rw [recordRestart_isSome, (h.recent ht).1, h.governed]

/-- The tracker is exhausted when it would not allow a restart. -/
theorem Remembers.isExhausted_iff {policy : RestartPolicy} {history : List ℕ} {now t : ℕ}
    {self : RestartTracker} (h : Remembers policy history now self) (ht : now ≤ t) :
    self.isExhausted t = true ↔ (self.recordRestart t).1 = none := by
  have hsome := recordRestart_isSome t self
  rw [(h.recent ht).2] at hsome
  have hexhausted : self.isExhausted t = true ↔ self.policy.maxRestarts.toNat ≤
      (self.restartTimes.filter (t - policy.window ≤ ·)).length := by
    unfold isExhausted
    rw [h.governed]
    exact decide_eq_true_iff
  rw [hexhausted, ← Option.not_isSome_iff_eq_none, hsome]
  omega

/-- Recording a restart prunes, and appends the restart if it is allowed. -/
theorem recordRestart_times (now : ℕ) (self : RestartTracker) :
    (self.recordRestart now).2.restartTimes =
      self.recent now ++ self.allows (now, .recordRestart) := by
  have hsome := recordRestart_isSome now self
  rw [allows_recordRestart]
  by_cases h : self.policy.maxRestarts.toNat ≤ (self.recent now).length
  · have hnone : ¬(self.recordRestart now).1.isSome = true := by
      rw [hsome]
      omega
    rw [if_neg hnone, List.append_nil]
    simp only [recordRestart, h, if_true]
  · have hallowed : (self.recordRestart now).1.isSome = true := by
      rw [hsome]
      omega
    rw [if_pos hallowed]
    simp only [recordRestart, h, if_false]

theorem Remembers.after {policy : RestartPolicy} {history : List ℕ} {now t : ℕ}
    {self : RestartTracker} (h : Remembers policy history now self) (ht : now ≤ t) (call : Call) :
    Remembers policy (history ++ self.allows (t, call)) t (self.after (t, call)) := by
  obtain ⟨pruned, hsplit, hpruned⟩ := h.kept
  have hstill : ∀ a ∈ pruned, a < t - policy.window := by
    intro a ha
    have := hpruned a ha
    omega
  have hpast : ∀ a ∈ history, a ≤ t := by
    intro a ha
    have := h.past a ha
    omega
  have hquiet : ∀ self' : RestartTracker, self'.policy = self.policy →
      self'.restartTimes = self.restartTimes → Remembers policy (history ++ []) t self' := by
    intro self' hpolicy htimes
    rw [List.append_nil]
    exact ⟨hpolicy.trans h.governed, h.sorted, hpast, pruned, by rw [htimes]; exact hsplit, hstill⟩
  cases call with
  | reset => exact hquiet self.reset rfl rfl
  | isExhausted => exact hquiet self rfl rfl
  | recordRestart =>
    have hallows : ∀ a ∈ self.allows (t, .recordRestart), a = t := by
      intro a ha
      rw [allows_recordRestart] at ha
      split_ifs at ha
      · exact List.mem_singleton.mp ha
      · cases ha
    refine ⟨(recordRestart_policy t self).trans h.governed, ?_, ?_, ?_⟩
    · apply List.pairwise_append.mpr
      refine ⟨h.sorted, ?_, ?_⟩
      · rw [allows_recordRestart]
        split_ifs <;> simp
      · intro a ha b hb
        rw [hallows b hb]
        exact hpast a ha
    · intro a ha
      obtain ha | ha := List.mem_append.mp ha
      · exact hpast a ha
      · exact (hallows a ha).le
    · -- What is pruned now is out of the window of this call.
      refine ⟨pruned ++ self.restartTimes.takeWhile (· < t - self.policy.window), ?_, ?_⟩
      · have htimes : (self.after (t, .recordRestart)).restartTimes =
            self.recent t ++ self.allows (t, .recordRestart) := recordRestart_times t self
        rw [htimes, hsplit]
        simp only [RestartTracker.recent, List.append_assoc]
        rw [← List.append_assoc (List.takeWhile _ _), List.takeWhile_append_dropWhile]
      · intro a ha
        obtain ha | ha := List.mem_append.mp ha
        · exact hstill a ha
        · have hcut := List.mem_takeWhile_imp ha
          rw [h.governed] at hcut
          simpa using hcut

/-- No interval as long as the window has more allowed restarts than the limit. -/
def Bounded (policy : RestartPolicy) (history : List ℕ) : Prop :=
  ∀ a, (within a (a + policy.window) history).length ≤ policy.maxRestarts.toNat

/-- An allowed restart keeps the bound: every earlier one in an interval that it
falls into is also in its window. -/
theorem Remembers.bounded {policy : RestartPolicy} {history : List ℕ} {now t : ℕ}
    {self : RestartTracker} (h : Remembers policy history now self) (ht : now ≤ t) (call : Call)
    (hbounded : Bounded policy history) :
    Bounded policy (history ++ self.allows (t, call)) := by
  intro a
  have hbefore := hbounded a
  unfold allows
  split
  · rename_i t' heq
    obtain ⟨rfl, rfl⟩ := Prod.mk.inj heq
    split_ifs with hsome
    · rw [h.isSome_iff ht] at hsome
      rw [within, List.filter_append, List.length_append, ← within]
      by_cases hin : a ≤ t ∧ t ≤ a + policy.window
      · have hsub : (within a (a + policy.window) history).length ≤
            (within (t - policy.window) t history).length := by
          apply List.Sublist.length_le
          have hsplit : within a (a + policy.window) history =
              (within (t - policy.window) t history).filter
                (fun b => a ≤ b ∧ b ≤ a + policy.window) := by
            unfold within
            rw [List.filter_filter]
            apply List.filter_congr
            intro b hb
            have hb := h.past b hb
            rw [Bool.eq_iff_iff]
            simp only [decide_eq_true_eq, Bool.and_eq_true]
            omega
          rw [hsplit]
          exact List.filter_sublist
        have hone : (List.filter (fun b => decide (a ≤ b ∧ b ≤ a + policy.window)) [t]).length =
            1 := by
          rw [List.filter_cons_of_pos (by simpa using hin)]
          rfl
        omega
      · rw [List.filter_cons_of_neg (by simpa using hin)]
        simpa using hbefore
    · rw [List.append_nil]
      exact hbefore
  · rw [List.append_nil]
    exact hbefore

/-- After any calls a tracker remembers the restarts that it has allowed, and these are
bounded. -/
theorem Remembers.afterAll {policy : RestartPolicy} {history : List ℕ} {now : ℕ}
    {self : RestartTracker} (h : Remembers policy history now self)
    (hbounded : Bounded policy history) (calls : List (ℕ × Call)) (t : ℕ)
    (hcalls : (now :: calls.map Prod.fst ++ [t]).Pairwise (· ≤ ·)) :
    Remembers policy (history ++ self.allowed calls) t (calls.foldl RestartTracker.after self) ∧
      Bounded policy (history ++ self.allowed calls) := by
  induction calls generalizing self history now with
  | nil =>
    have ht : now ≤ t := by simpa using hcalls
    rw [allowed, List.append_nil]
    have hlater := h.after ht .isExhausted
    rw [allows, List.append_nil] at hlater
    · exact ⟨hlater, hbounded⟩
    · intro _ heq
      cases (Prod.mk.inj heq).2
  | cons call calls ih =>
    obtain ⟨time, call⟩ := call
    obtain ⟨hhead, hrest⟩ := List.pairwise_cons.mp hcalls
    have ht : now ≤ time := hhead time (by simp)
    rw [List.foldl_cons, allowed, ← List.append_assoc]
    exact ih (h.after ht call) (h.bounded ht call hbounded) hrest

/-- The allowed restarts depend on the policy and the kept times only. -/
theorem allowed_congr {self other : RestartTracker} (hpolicy : self.policy = other.policy)
    (htimes : self.restartTimes = other.restartTimes) (calls : List (ℕ × Call)) :
    self.allowed calls = other.allowed calls := by
  induction calls generalizing self other with
  | nil => rfl
  | cons call calls ih =>
    obtain ⟨time, call⟩ := call
    cases call with
    | reset => exact ih hpolicy htimes
    | isExhausted => exact ih hpolicy htimes
    | recordRestart =>
      have hrecent : self.recent time = other.recent time := by
        unfold recent
        rw [hpolicy, htimes]
      have hallows : self.allows (time, .recordRestart) = other.allows (time, .recordRestart) := by
        simp only [allows_recordRestart, recordRestart_isSome, hrecent, hpolicy]
      have hnext : (self.after (time, .recordRestart)).allowed calls =
          (other.after (time, .recordRestart)).allowed calls := by
        apply ih
        · show (self.recordRestart time).2.policy = (other.recordRestart time).2.policy
          rw [recordRestart_policy, recordRestart_policy, hpolicy]
        · show (self.recordRestart time).2.restartTimes = (other.recordRestart time).2.restartTimes
          rw [recordRestart_times, recordRestart_times, hrecent, hallows]
      rw [allowed, allowed, hallows, hnext]

/-- Leaving out all resets does not change which restarts are allowed. -/
theorem allowed_without_reset (self : RestartTracker) (calls : List (ℕ × Call)) :
    self.allowed (calls.filter (fun call => call.2 ≠ .reset)) = self.allowed calls := by
  induction calls generalizing self with
  | nil => rfl
  | cons call calls ih =>
    obtain ⟨time, call⟩ := call
    cases call with
    | reset =>
      rw [List.filter_cons_of_neg (by simp), ih]
      have hsame : self.allowed calls = self.reset.allowed calls := by
        apply allowed_congr
        · rfl
        · rfl
      rw [hsame]
      rfl
    | isExhausted =>
      rw [List.filter_cons_of_pos (by simp), allowed, ih]
      rfl
    | recordRestart =>
      rw [List.filter_cons_of_pos (by simp), allowed, ih]
      rfl

/-- After any calls a restart is allowed exactly when fewer than the limit have been
allowed in its window, which no reset has a part in. No interval as long as the
window ever has more, and the tracker is exhausted exactly when it would not allow a
restart. -/
theorem exact_window (policy : RestartPolicy) (calls : List (ℕ × Call)) (now : ℕ)
    (hcalls : CalledUntil policy now calls) :
    (((calls.foldl after (new policy)).recordRestart now).1.isSome = true ↔
      (within (now - policy.window) now ((new policy).allowed calls)).length <
        policy.maxRestarts.toNat) ∧
    Bounded policy ((new policy).allowed calls) ∧
    (new policy).allowed (calls.filter (fun call => call.2 ≠ .reset)) =
      (new policy).allowed calls ∧
    ((calls.foldl after (new policy)).isExhausted now = true ↔
      ((calls.foldl after (new policy)).recordRestart now).1 = none) := by
  have hfresh : Remembers policy [] 0 (new policy) := by
    refine ⟨rfl, List.Pairwise.nil, by simp, [], rfl, by simp⟩
  have htimes : (0 :: calls.map Prod.fst ++ [now]).Pairwise (· ≤ ·) := by
    refine List.pairwise_cons.mpr ⟨fun a _ => Nat.zero_le a, ?_⟩
    refine List.pairwise_append.mpr ⟨hcalls.ordered, List.pairwise_singleton _ _, ?_⟩
    intro a ha b hb
    obtain ⟨call, hmem, rfl⟩ := List.mem_map.mp ha
    rw [List.mem_singleton.mp hb]
    exact (hcalls.past call hmem).2
  have hempty : Bounded policy [] := by
    intro a
    exact Nat.zero_le _
  obtain ⟨hremembers, hbounded⟩ := hfresh.afterAll hempty calls now htimes
  rw [List.nil_append] at hremembers hbounded
  exact ⟨hremembers.isSome_iff le_rfl, hbounded, allowed_without_reset _ calls,
    hremembers.isExhausted_iff le_rfl⟩

/-- A limit of two in ten nanoseconds: the third restart waits for the first to leave
the window. -/
theorem exact_window_two :
    let policy : RestartPolicy := ⟨2, 10, 0, 0⟩
    let calls := [(10, Call.recordRestart), (12, .reset), (20, .recordRestart),
      (20, .recordRestart), (20, .isExhausted)]
    CalledUntil policy 21 calls ∧ (new policy).allowed calls = [10, 20] ∧
      (((calls.foldl after (new policy)).recordRestart 21).1.isSome = true ↔
        (within 11 21 ((new policy).allowed calls)).length < 2) := by
  intro policy calls
  have hcalls : CalledUntil policy 21 calls := ⟨by decide, by decide, by decide⟩
  exact ⟨hcalls, by decide, (exact_window policy calls 21 hcalls).1⟩

end Neolaas.RestartTracker
