import Neolaas.NetworkState

/-!
# The health of one peer

The swarm's event loop and the ping loop mark a peer in any order. Each mark keeps
the last failure beside the counter, so that pings are put off for a bounded time.
But only some marks keep the status in step with the counter: a peer that has failed
too often is taken back by a lost connection, and one that answers stays failed.
-/
namespace Neolaas

/-- The calls that mark a peer. -/
inductive Mark where
  | connected
  | disconnected
  | failure
  | success
  deriving DecidableEq

/-- The failures since the peer last connected or answered, after one more call. -/
def Mark.inARow (n : ℕ) : Mark → ℕ
  | connected => 0
  | disconnected => n
  | failure => n + 1
  | success => 0

/-- The failures in a row at the end of the calls. -/
def failuresInARow (calls : List (ℕ × Mark)) : ℕ :=
  calls.foldl (fun n call => call.2.inARow n) 0

namespace PeerConnectionState

def mark {P : Type} (config : NetworkConfig) (now : ℕ) (self : PeerConnectionState P) :
    Mark → PeerConnectionState P
  | .connected => self.markConnected now
  | .disconnected => self.markDisconnected now
  | .failure => self.markFailure config now
  | .success => self.markSuccess now

/-- One call after the other, each with its time. -/
def marked {P : Type} (config : NetworkConfig) (self : PeerConnectionState P)
    (calls : List (ℕ × Mark)) : PeerConnectionState P :=
  calls.foldl (fun self call => self.mark config call.1 call.2) self

@[simp] theorem marked_nil {P : Type} (config : NetworkConfig) (self : PeerConnectionState P) :
    self.marked config [] = self := rfl

@[simp] theorem marked_cons {P : Type} (config : NetworkConfig) (self : PeerConnectionState P)
    (call : ℕ × Mark) (calls : List (ℕ × Mark)) : self.marked config (call :: calls) =
      (self.mark config call.1 call.2).marked config calls := rfl

/-- The status is failed just when there are too many failures. -/
def FailedAtLimit {P : Type} (config : NetworkConfig) (self : PeerConnectionState P) : Prop :=
  self.status = .failed ↔ config.maxFailures ≤ self.consecutiveFailures

/-- The peer is never pinged, and is removed when it has not been seen for too long. -/
def Excluded {P : Type} (config : NetworkConfig) (self : PeerConnectionState P) : Prop :=
  (∀ now, self.shouldSkipPing config now = true) ∧
    ∀ now maxAge, maxAge < now - self.lastSeen → NetworkState.Stale now maxAge self

/-- Along the calls the status follows the failures, and a peer past the limit is
excluded until it is connected. -/
structure FailsAtLimit {P : Type} (config : NetworkConfig) (peer : PeerConnectionState P)
    (calls : List (ℕ × Mark)) : Prop where
  status : ∀ before after, calls = before ++ after →
    (peer.marked config before).FailedAtLimit config
  excluded : ∀ before between after, calls = before ++ (between ++ after) →
    config.maxFailures ≤ (peer.marked config before).consecutiveFailures →
    (∀ call ∈ between, call.2 ≠ .connected) →
    ((peer.marked config before).marked config between).Excluded config

/-- The call does not touch the status of a failed peer, and the counter has room for
a failure. -/
def Spares {P : Type} (self : PeerConnectionState P) : Mark → Prop
  | .connected => True
  | .disconnected => self.status ≠ .failed
  | .failure => self.consecutiveFailures.toNat + 1 < 2 ^ 32
  | .success => self.status ≠ .failed

instance {P : Type} (self : PeerConnectionState P) (mark : Mark) :
    Decidable (self.Spares mark) := by
  unfold Spares
  split <;> infer_instance

/-- Every call does so. -/
def Spared {P : Type} (config : NetworkConfig) :
    PeerConnectionState P → List (ℕ × Mark) → Prop
  | _, [] => True
  | self, call :: calls =>
    self.Spares call.2 ∧ Spared config (self.mark config call.1 call.2) calls

instance decidableSpared {P : Type} (config : NetworkConfig) :
    ∀ (self : PeerConnectionState P) (calls : List (ℕ × Mark)), Decidable (Spared config self calls)
  | _, [] => isTrue trivial
  | self, call :: calls =>
    have := decidableSpared config (self.mark config call.1 call.2) calls
    inferInstanceAs (Decidable (_ ∧ _))

theorem excluded_iff {P : Type} (config : NetworkConfig) (self : PeerConnectionState P) :
    self.Excluded config ↔ self.status = .failed := by
  constructor
  · rintro ⟨-, hstale⟩
    have hseen : 0 < self.lastSeen + 1 - self.lastSeen := by omega
    exact (hstale (self.lastSeen + 1) 0 hseen).1
  · intro hstatus
    constructor
    · intro now
      simp [shouldSkipPing, hstatus]
    · exact fun now maxAge hseen => ⟨hstatus, hseen⟩

theorem spared_append {P : Type} (config : NetworkConfig) (self : PeerConnectionState P)
    (before after : List (ℕ × Mark)) : Spared config self (before ++ after) ↔
      Spared config self before ∧ Spared config (self.marked config before) after := by
  induction before generalizing self with
  | nil => simp [Spared]
  | cons call before ih => simp only [List.cons_append, Spared, marked_cons, ih, and_assoc]

/-- A failure that the counter has room for adds one to it. -/
theorem toNat_markFailure {P : Type} (config : NetworkConfig) (now : ℕ)
    {self : PeerConnectionState P} (h : self.consecutiveFailures.toNat + 1 < 2 ^ 32) :
    (self.markFailure config now).consecutiveFailures.toNat =
      self.consecutiveFailures.toNat + 1 := by
  show (self.consecutiveFailures + 1).toNat = _
  rw [UInt32.toNat_add]
  exact Nat.mod_eq_of_lt h

/-- One call keeps the status in step, and one that does not connect the peer leaves it
past the limit. -/
theorem FailedAtLimit.mark {P : Type} {config : NetworkConfig} (hmax : 0 < config.maxFailures)
    {self : PeerConnectionState P} (hs : self.FailedAtLimit config) (now : ℕ) {mark : Mark}
    (hspares : self.Spares mark) : (self.mark config now mark).FailedAtLimit config ∧
      (config.maxFailures ≤ self.consecutiveFailures → mark ≠ .connected →
        config.maxFailures ≤ (self.mark config now mark).consecutiveFailures) := by
  have hzero : ¬config.maxFailures ≤ 0 := UInt32.not_le.mpr hmax
  cases mark with
  | connected =>
    constructor
    · exact iff_of_false (by simp [PeerConnectionState.mark, markConnected]) hzero
    · exact fun _ hne => absurd rfl hne
  | disconnected =>
    have hbelow : ¬config.maxFailures ≤ self.consecutiveFailures := fun h => hspares (hs.mpr h)
    constructor
    · exact iff_of_false (by simp [PeerConnectionState.mark, markDisconnected]) hbelow
    · exact fun hpast => absurd hpast hbelow
  | failure =>
    constructor
    · show (if _ then _ else _) = _ ↔ _
      split_ifs with hpast
      · exact iff_of_true rfl hpast
      · exact iff_of_false (by simp) hpast
    · intro hpast _
      have hroom := toNat_markFailure config now hspares
      rw [UInt32.le_iff_toNat_le] at hpast ⊢
      show _ ≤ (self.markFailure config now).consecutiveFailures.toNat
      omega
  | success =>
    have hbelow : ¬config.maxFailures ≤ self.consecutiveFailures := fun h => hspares (hs.mpr h)
    constructor
    · apply iff_of_false _ hzero
      show ¬(if _ then _ else _) = _
      split_ifs
      · simp
      · exact hspares
    · exact fun hpast => absurd hpast hbelow

/-- Calls that spare failed peers keep the status in step. -/
theorem FailedAtLimit.marked {P : Type} {config : NetworkConfig}
    (hmax : 0 < config.maxFailures) {self : PeerConnectionState P}
    (hs : self.FailedAtLimit config) {calls : List (ℕ × Mark)}
    (hspared : Spared config self calls) : (self.marked config calls).FailedAtLimit config := by
  induction calls generalizing self with
  | nil => exact hs
  | cons call calls ih => exact ih (hs.mark hmax call.1 hspared.1).1 hspared.2

/-- Such calls leave a peer past the limit until one connects it. -/
theorem FailedAtLimit.stays {P : Type} {config : NetworkConfig}
    (hmax : 0 < config.maxFailures) {self : PeerConnectionState P}
    (hs : self.FailedAtLimit config) (hpast : config.maxFailures ≤ self.consecutiveFailures)
    {calls : List (ℕ × Mark)} (hspared : Spared config self calls)
    (hcalls : ∀ call ∈ calls, call.2 ≠ .connected) :
    config.maxFailures ≤ (self.marked config calls).consecutiveFailures := by
  induction calls generalizing self with
  | nil => exact hpast
  | cons call calls ih =>
    obtain ⟨hnext, hkeeps⟩ := hs.mark hmax call.1 hspared.1
    have hfirst : call.2 ≠ .connected := hcalls call List.mem_cons_self
    apply ih hnext (hkeeps hpast hfirst) hspared.2
    exact fun call' hin => hcalls call' (List.mem_cons_of_mem call hin)

/-- Calls along which the status follows the failures start with one that spares failed
peers. -/
theorem FailsAtLimit.spares {P : Type} {config : NetworkConfig}
    (hmax : 0 < config.maxFailures) {self : PeerConnectionState P} {call : ℕ × Mark}
    {calls : List (ℕ × Mark)} (h : FailsAtLimit config self (call :: calls)) :
    self.Spares call.2 := by
  have hzero : ¬config.maxFailures ≤ 0 := UInt32.not_le.mpr hmax
  have hself : self.FailedAtLimit config := h.status [] (call :: calls) rfl
  have hnext : (self.mark config call.1 call.2).FailedAtLimit config := h.status [call] calls rfl
  have hfailed : config.maxFailures ≤ self.consecutiveFailures → call.2 ≠ .connected →
      (self.mark config call.1 call.2).status = .failed := by
    intro hpast hne
    apply (excluded_iff config _).mp
    apply h.excluded [] [call] calls rfl hpast
    intro call' hin
    rw [List.mem_singleton.mp hin]
    exact hne
  obtain ⟨now, mark⟩ := call
  cases mark with
  | connected => trivial
  | disconnected =>
    intro hstatus
    have hstill := hfailed (hself.mp hstatus) (by simp)
    cases hstill
  | failure =>
    by_contra hfull
    -- The counter is at its largest value, and starts again.
    have hlargest : self.consecutiveFailures.toNat = 2 ^ 32 - 1 := by
      have hlt := self.consecutiveFailures.toNat_lt
      simp only [Spares] at hfull
      omega
    have hpast : config.maxFailures ≤ self.consecutiveFailures := by
      have hlt := config.maxFailures.toNat_lt
      rw [UInt32.le_iff_toNat_le]
      omega
    have hwrapped : (self.consecutiveFailures + 1).toNat = 0 := by
      rw [UInt32.toNat_add, hlargest]
      rfl
    have hagain := hnext.mp (hfailed hpast (by simp))
    apply hzero
    rw [UInt32.le_iff_toNat_le] at hagain ⊢
    exact hagain.trans (le_of_eq hwrapped)
  | success =>
    intro hstatus
    have hstill : (self.markSuccess now).status = .failed := by
      show (if _ then _ else _) = _
      rw [if_neg (by simp [hstatus])]
      exact hstatus
    exact hzero (hnext.mp hstill)

theorem FailsAtLimit.tail {P : Type} {config : NetworkConfig} {self : PeerConnectionState P}
    {call : ℕ × Mark} {calls : List (ℕ × Mark)} (h : FailsAtLimit config self (call :: calls)) :
    FailsAtLimit config (self.mark config call.1 call.2) calls where
  status before after heq := h.status (call :: before) after (by rw [heq, List.cons_append])
  excluded before between after heq :=
    h.excluded (call :: before) between after (by rw [heq, List.cons_append])

/-- For a fresh peer, the status follows the failures along the calls, and a peer past
the limit is excluded until it is connected, just when the calls spare failed peers. -/
theorem fails_at_limit_iff {P : Type} (config : NetworkConfig) (hmax : 0 < config.maxFailures)
    (created : ℕ) (peerId : P) (peerInfo : PeerInfo) (calls : List (ℕ × Mark)) :
    FailsAtLimit config (new created peerId peerInfo) calls ↔
      Spared config (new created peerId peerInfo) calls := by
  constructor
  · intro h
    generalize new created peerId peerInfo = self at h ⊢
    induction calls generalizing self with
    | nil => trivial
    | cons call calls ih => exact ⟨h.spares hmax, ih _ h.tail⟩
  · intro h
    have hzero : ¬config.maxFailures ≤ 0 := UInt32.not_le.mpr hmax
    have hnew : (new created peerId peerInfo).FailedAtLimit config :=
      iff_of_false (by simp [new]) hzero
    constructor
    · rintro before after rfl
      exact hnew.marked hmax ((spared_append config _ before after).mp h).1
    · rintro before between after rfl hpast hbetween
      obtain ⟨hbefore, hrest⟩ := (spared_append config _ before _).mp h
      obtain ⟨hspared, -⟩ := (spared_append config _ between after).mp hrest
      have hreached := hnew.marked hmax hbefore
      apply (excluded_iff config _).mpr
      exact (hreached.marked hmax hspared).mpr (hreached.stays hmax hpast hspared hbetween)

/-- Eleven failures, then a connection that is lost after an answer. -/
theorem fails_at_limit_iff_reconnected :
    let peer : PeerConnectionState ℕ := new 0 1 ⟨"peer", ⟨10, 0, 0, 2⟩, 9000⟩
    FailsAtLimit NetworkConfig.default peer
      (List.replicate 11 (5, .failure) ++
        [(6, .connected), (7, .success), (8, .disconnected)]) := by
  intro peer
  have hspared : Spared NetworkConfig.default peer
      (List.replicate 11 (5, .failure) ++
        [(6, .connected), (7, .success), (8, .disconnected)]) := by
    decide
  exact (fails_at_limit_iff NetworkConfig.default (by decide) 0 1 _ _).mpr hspared

/-- Ten failures and a lost connection: the peer is past the limit and disconnected. -/
theorem not_fails_at_limit : ¬∀ (config : NetworkConfig), 0 < config.maxFailures →
    ∀ (created peerId : ℕ) (peerInfo : PeerInfo) (calls : List (ℕ × Mark)),
      FailsAtLimit config (new created peerId peerInfo) calls := by
  intro hclaim
  let peer : PeerConnectionState ℕ := new 0 1 ⟨"peer", ⟨10, 0, 0, 2⟩, 9000⟩
  let calls : List (ℕ × Mark) := List.replicate 10 (5, .failure) ++ [(6, .disconnected)]
  have h : FailsAtLimit NetworkConfig.default peer calls :=
    hclaim NetworkConfig.default (by decide) 0 1 _ calls
  have hstatus : (peer.marked NetworkConfig.default calls).FailedAtLimit NetworkConfig.default :=
    h.status calls [] (by simp)
  obtain ⟨hdisconnected, hpast⟩ :
      (peer.marked NetworkConfig.default calls).status = .disconnected ∧
      NetworkConfig.default.maxFailures ≤
        (peer.marked NetworkConfig.default calls).consecutiveFailures := by
    decide
  have hfailed := hstatus.mpr hpast
  rw [hdisconnected] at hfailed
  cases hfailed

/-- The counter has the given value, and a failure is recorded just when it is not zero. -/
def Counts {P : Type} (self : PeerConnectionState P) (n : ℕ) : Prop :=
  self.consecutiveFailures.toNat = n ∧ (self.consecutiveFailures = 0 ↔ self.lastFailure = none)

theorem Counts.mark {P : Type} {self : PeerConnectionState P} {n : ℕ} (hs : self.Counts n)
    (config : NetworkConfig) (now : ℕ) (mark : Mark) (hfew : mark.inARow n < 2 ^ 32) :
    (self.mark config now mark).Counts (mark.inARow n) := by
  cases mark with
  | connected => exact ⟨rfl, iff_of_true rfl rfl⟩
  | disconnected => exact hs
  | failure =>
    have hroom : self.consecutiveFailures.toNat + 1 < 2 ^ 32 := by
      have hcount := hs.1
      simp only [Mark.inARow] at hfew
      omega
    have hnext := toNat_markFailure config now hroom
    constructor
    · exact hnext.trans (by rw [hs.1]; rfl)
    · apply iff_of_false
      · intro hzero
        have hzero' : (self.markFailure config now).consecutiveFailures.toNat = 0 := by
          show (self.mark config now .failure).consecutiveFailures.toNat = 0
          rw [hzero]
          rfl
        omega
      · intro hnone
        cases hnone
  | success => exact ⟨rfl, iff_of_true rfl rfl⟩

theorem Counts.marked {P : Type} {self : PeerConnectionState P} {n : ℕ} (hs : self.Counts n)
    (config : NetworkConfig) {calls : List (ℕ × Mark)}
    (hfew : ∀ before, before <+: calls →
      before.foldl (fun n call => call.2.inARow n) n < 2 ^ 32) :
    (self.marked config calls).Counts (calls.foldl (fun n call => call.2.inARow n) n) := by
  induction calls generalizing self n with
  | nil => exact hs
  | cons call calls ih =>
    have hfirst : call.2.inARow n < 2 ^ 32 := hfew [call] ⟨calls, rfl⟩
    apply ih (hs.mark config call.1 call.2 hfirst)
    intro before hprefix
    exact hfew (call :: before) (List.cons_prefix_cons.mpr ⟨rfl, hprefix⟩)

/-- The exponent of the backoff is bounded. -/
theorem backoff_le (config : NetworkConfig) (hbase : 0 < config.backoffBase) (failures : UInt32) :
    config.backoffBase.toNat ^ min failures.toNat config.maxBackoffPower.toNat ≤
      config.backoffBase.toNat ^ config.maxBackoffPower.toNat := by
  have hpos : 0 < config.backoffBase.toNat := by
    rw [UInt64.lt_iff_toNat_lt] at hbase
    exact hbase
  exact Nat.pow_le_pow_right hpos (Nat.min_le_right _ _)

/-- A disconnected peer with a recorded failure is skipped until its backoff is over. -/
theorem shouldSkipPing_disconnected {P : Type} {config : NetworkConfig}
    {self : PeerConnectionState P} (hstatus : self.status = .disconnected)
    (hrecorded : self.consecutiveFailures = 0 ↔ self.lastFailure = none)
    (hpower : config.backoffBase.toNat ^
      min self.consecutiveFailures.toNat config.maxBackoffPower.toNat < 2 ^ 64)
    (hbackoff : 0 < config.backoffBase.toNat ^
      min self.consecutiveFailures.toNat config.maxBackoffPower.toNat) (now : ℕ) :
    self.shouldSkipPing config now = true ↔
      config.failureThreshold < self.consecutiveFailures ∧
      ∃ lastFailure, self.lastFailure = some lastFailure ∧
        now < lastFailure + RestartPolicy.fromSecs (config.backoffBase.toNat ^
          min self.consecutiveFailures.toNat config.maxBackoffPower.toNat) := by
  unfold shouldSkipPing
  rw [hstatus]
  by_cases hmany : config.failureThreshold < self.consecutiveFailures
  · have hne : self.consecutiveFailures ≠ 0 := by
      intro hzero
      rw [hzero, UInt32.lt_iff_toNat_lt] at hmany
      exact absurd hmany (Nat.not_lt_zero _)
    obtain ⟨lastFailure, hlast⟩ := Option.ne_none_iff_exists'.mp (hne ∘ hrecorded.mpr)
    simp only [if_pos hmany, hlast, decide_eq_true_eq, UInt64.toNat_ofNat_of_lt' hpower]
    rw [and_iff_right hmany]
    unfold RestartPolicy.fromSecs
    constructor
    · intro hlt
      exact ⟨lastFailure, rfl, by omega⟩
    · rintro ⟨lastFailure', heq, hlt⟩
      obtain rfl := Option.some.inj heq
      omega
  · simp [hmany]

/-- With the configuration from the environment, a fresh peer that has been marked in any
way records a failure just when its counter is not zero. Its backoff fits into 64 bits,
and while it is disconnected it is skipped just until the backoff is over. -/
theorem backoff_ends {P : Type} (var : String → Option String) (created : ℕ) (peerId : P)
    (peerInfo : PeerInfo) (calls : List (ℕ × Mark))
    (hfew : ∀ before, before <+: calls → failuresInARow before < 2 ^ 32) :
    let config := (EnvConfig.fromEnv var).toNetworkConfig
    let peer := (new created peerId peerInfo).marked config calls
    let backoff :=
      config.backoffBase.toNat ^ min peer.consecutiveFailures.toNat config.maxBackoffPower.toNat
    (peer.consecutiveFailures = 0 ↔ peer.lastFailure = none) ∧
      ¬(peer.status = .disconnected ∧ config.failureThreshold < peer.consecutiveFailures ∧
        peer.lastFailure = none) ∧
      backoff < 2 ^ 64 ∧
      (peer.status = .disconnected → ∀ now,
        (peer.shouldSkipPing config now = true ↔
          config.failureThreshold < peer.consecutiveFailures ∧
          ∃ lastFailure, peer.lastFailure = some lastFailure ∧
            now < lastFailure + RestartPolicy.fromSecs backoff) ∧
        ∀ lastFailure, peer.lastFailure = some lastFailure →
          lastFailure + RestartPolicy.fromSecs
            (config.backoffBase.toNat ^ config.maxBackoffPower.toNat) ≤ now →
          peer.shouldSkipPing config now = false) := by
  intro config peer backoff
  have hconfig : config = NetworkConfig.default := EnvConfig.fromEnv_toNetworkConfig var
  have hnew : (new created peerId peerInfo).Counts 0 := ⟨rfl, iff_of_true rfl rfl⟩
  have hrecorded : peer.consecutiveFailures = 0 ↔ peer.lastFailure = none :=
    (hnew.marked config hfew).2
  have hbase : 0 < config.backoffBase := by
    rw [hconfig]
    decide
  have hbound : backoff ≤ config.backoffBase.toNat ^ config.maxBackoffPower.toNat :=
    backoff_le config hbase peer.consecutiveFailures
  have hlargest : config.backoffBase.toNat ^ config.maxBackoffPower.toNat = 64 := by
    rw [hconfig]
    rfl
  have hpower : backoff < 2 ^ 64 := by omega
  have hpos : 0 < backoff := by
    apply Nat.pow_pos
    exact UInt64.lt_iff_toNat_lt.mp hbase
  refine ⟨hrecorded, ?_, hpower, ?_⟩
  · rintro ⟨-, hmany, hnone⟩
    rw [hrecorded.mpr hnone, UInt32.lt_iff_toNat_lt] at hmany
    exact absurd hmany (Nat.not_lt_zero _)
  · intro hstatus now
    have hskip := shouldSkipPing_disconnected hstatus hrecorded hpower hpos now
    refine ⟨hskip, ?_⟩
    intro lastFailure hlast hover
    rw [← Bool.not_eq_true, hskip]
    rintro ⟨-, lastFailure', hlast', hbefore⟩
    obtain rfl := Option.some.inj (hlast.symm.trans hlast')
    have hsecs : RestartPolicy.fromSecs backoff ≤
        RestartPolicy.fromSecs (config.backoffBase.toNat ^ config.maxBackoffPower.toNat) :=
      Nat.mul_le_mul_right _ hbound
    have hlate : now < lastFailure + RestartPolicy.fromSecs
        (config.backoffBase.toNat ^ config.maxBackoffPower.toNat) :=
      hbefore.trans_le (Nat.add_le_add_left hsecs lastFailure)
    exact absurd hlate (Nat.not_lt.mpr hover)

/-- Four failures: the peer is skipped for sixteen seconds after the last one. -/
theorem backoff_ends_four :
    let config := (EnvConfig.fromEnv (fun _ => none)).toNetworkConfig
    let peer : PeerConnectionState ℕ := marked config (new 0 1 ⟨"peer", ⟨10, 0, 0, 2⟩, 9000⟩)
      (List.replicate 4 (5, .failure))
    peer.status = .disconnected ∧ ∀ now, peer.shouldSkipPing config now = true ↔
      now < 5 + RestartPolicy.fromSecs 16 := by
  intro config peer
  have hfew : ∀ before, before <+: List.replicate 4 (5, Mark.failure) →
      failuresInARow before < 2 ^ 32 := by
    intro before hprefix
    rw [← List.mem_inits] at hprefix
    revert before
    decide
  obtain ⟨-, -, -, hskip⟩ := backoff_ends (fun _ => none) 0 1 ⟨"peer", ⟨10, 0, 0, 2⟩, 9000⟩
    (List.replicate 4 (5, .failure)) hfew
  refine ⟨rfl, fun now => (hskip rfl now).1.trans ?_⟩
  constructor
  · rintro ⟨-, lastFailure, hlast, hbefore⟩
    obtain rfl := Option.some.inj hlast
    exact hbefore
  · exact fun hbefore => ⟨by decide, 5, rfl, hbefore⟩

end PeerConnectionState
end Neolaas
