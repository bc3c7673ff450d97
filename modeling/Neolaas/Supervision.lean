import Mathlib

/-!
# Restart policies and trackers

Durations and instants are counted in nanoseconds.
-/
namespace Neolaas

/-- Policy for restarting failed actors. -/
structure RestartPolicy where
  maxRestarts : UInt32
  window : ℕ
  backoff : ℕ
  maxBackoff : ℕ
  deriving DecidableEq

namespace RestartPolicy

def fromSecs (n : ℕ) : ℕ := n * 1000000000

def fromMillis (n : ℕ) : ℕ := n * 1000000

/-- `RestartPolicy::default`. -/
def default : RestartPolicy where
  maxRestarts := 5
  window := fromSecs 60
  backoff := fromMillis 100
  maxBackoff := fromSecs 5

end RestartPolicy

/-- Tracks the restart history of a single actor. -/
structure RestartTracker where
  policy : RestartPolicy
  restartTimes : List ℕ
  consecutiveRestarts : UInt32
  deriving DecidableEq

namespace RestartTracker

/-- Create a tracker with the given policy. -/
def new (policy : RestartPolicy) : RestartTracker := ⟨policy, [], 0⟩

/-- The restarts that are left when those before the window are dropped from the
front. -/
def recent (now : ℕ) (self : RestartTracker) : List ℕ :=
  self.restartTimes.dropWhile (· < now - self.policy.window)

/-- The backoff of the last recorded restart, in the arithmetic of a release build. -/
def calculateBackoff (self : RestartTracker) : ℕ :=
  let exponent := self.consecutiveRestarts.toNat - 1
  let multiplier := UInt64.ofNat (min (2 ^ exponent) (2 ^ 32 - 1))
  let backoffMs := UInt64.ofNat (self.policy.backoff / RestartPolicy.fromMillis 1) * multiplier
  min (RestartPolicy.fromMillis backoffMs.toNat) self.policy.maxBackoff

/-- Record a restart attempt and check if it should be allowed. The result is the
backoff, `none` when the limit has been reached. -/
def recordRestart (now : ℕ) (self : RestartTracker) : Option ℕ × RestartTracker :=
  let self := { self with restartTimes := self.recent now }
  if self.policy.maxRestarts.toNat ≤ self.restartTimes.length then (none, self)
  else
    let self := { self with
      restartTimes := self.restartTimes ++ [now]
      consecutiveRestarts := self.consecutiveRestarts + 1 }
    (some self.calculateBackoff, self)

/-- Reset the consecutive restart counter. -/
def reset (self : RestartTracker) : RestartTracker := { self with consecutiveRestarts := 0 }

/-- Check if the restart limit has been exceeded. -/
def isExhausted (now : ℕ) (self : RestartTracker) : Bool :=
  let cutoff := now - self.policy.window
  let recentCount := (self.restartTimes.filter (cutoff ≤ ·)).length
  self.policy.maxRestarts.toNat ≤ recentCount

/-- A restart is allowed while fewer than the limit are in the window. -/
theorem recordRestart_isSome (now : ℕ) (self : RestartTracker) :
    (self.recordRestart now).1.isSome = true ↔
      (self.recent now).length < self.policy.maxRestarts.toNat := by
  unfold recordRestart
  by_cases h : self.policy.maxRestarts.toNat ≤ (self.recent now).length
  · simp only [h, if_true]
    simpa using h
  · simp only [h, if_false]
    simpa using h

/-- A tracker keeps its policy. -/
@[simp] theorem recordRestart_policy (now : ℕ) (self : RestartTracker) :
    (self.recordRestart now).2.policy = self.policy := by
  unfold recordRestart
  by_cases h : self.policy.maxRestarts.toNat ≤ (self.recent now).length
  · simp only [h, if_true]
  · simp only [h, if_false]

end RestartTracker
end Neolaas
