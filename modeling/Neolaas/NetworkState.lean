import Mathlib.Data.List.AList
import Neolaas.Discovery
import Neolaas.Supervision

/-!
# The network state

What a node knows of the connection and the health of each discovered peer. The
swarm's event loop, the ping loop and the cleanup loop change it, each in calls that
hold its lock. Durations and instants are counted in nanoseconds.
-/
namespace Neolaas
open PeerId

structure Ipv4Addr where
  a : UInt8
  b : UInt8
  c : UInt8
  d : UInt8
  deriving DecidableEq, Repr

/-- `Display for Ipv4Addr`. -/
def Ipv4Addr.display (ip : Ipv4Addr) : String :=
  toString ip.a ++ "." ++ toString ip.b ++ "." ++ toString ip.c ++ "." ++ toString ip.d

/-- Information about a discovered peer. The address is an `IpAddr::V4`. -/
structure PeerInfo where
  podName : String
  address : Ipv4Addr
  port : UInt16
  deriving DecidableEq, Repr

/-- A line with a peer's shortened text, if it is evaluated. `none` is its panic. -/
def PeerId.line {P : Type} [PeerId P] (evaluated : Bool) (peerId : P) : Option Unit :=
  if evaluated ∧ short (toBase58 peerId) = none then none else some ()

/-- Connection status of a peer. -/
inductive ConnectionStatus where
  | connected
  | disconnected
  | failed
  deriving DecidableEq, Repr

/-- The part of the configuration that the network state and its tasks read. -/
structure NetworkConfig where
  stalePeerMaxAge : ℕ
  failureThreshold : UInt32
  maxFailures : UInt32
  backoffBase : UInt64
  maxBackoffPower : UInt32

/-- `NetworkConfig::default`. -/
def NetworkConfig.default : NetworkConfig where
  stalePeerMaxAge := RestartPolicy.fromSecs 300
  failureThreshold := 3
  maxFailures := 10
  backoffBase := 2
  maxBackoffPower := 6

/-- The settings that the environment overrides, next to that part. -/
structure EnvConfig extends NetworkConfig where
  p2pPort : UInt16
  clusterId : String
  etcdEndpoints : List String
  podIp : String

namespace EnvConfig

def default : EnvConfig where
  toNetworkConfig := NetworkConfig.default
  p2pPort := 9000
  clusterId := "default"
  etcdEndpoints := ["http://etcd.infra.svc.cluster.local:2379"]
  podIp := "127.0.0.1"

/-- `str::parse::<u16>`: digits, after a plus sign or not, of a value that fits. -/
def parseU16 (s : String) : Option UInt16 :=
  let digits := match s.toList with
    | '+' :: rest => rest
    | all => all
  if digits ≠ [] ∧ ∀ c ∈ digits, c.isDigit = true then
    let value := digits.foldl (fun value c => 10 * value + (c.toNat - '0'.toNat)) 0
    if value < 2 ^ 16 then some (UInt16.ofNat value) else none
  else none

/-- `NetworkConfig::from_env`, given the variables that `std::env::var` finds. -/
def fromEnv (var : String → Option String) : EnvConfig :=
  let config := default
  let config := match (var "P2P_PORT").bind parseU16 with
    | some parsed => { config with p2pPort := parsed }
    | none => config
  let config := match var "CLUSTER_ID" with
    | some clusterId => { config with clusterId := clusterId }
    | none => config
  let config := match var "ETCD_ENDPOINTS" with
    | some endpoints => { config with etcdEndpoints := endpoints.splitOn "," }
    | none => config
  match var "POD_IP" with
  | some podIp => { config with podIp := podIp }
  | none => config

/-- No variable overrides what the network state and its tasks read. -/
theorem fromEnv_toNetworkConfig (var : String → Option String) :
    (fromEnv var).toNetworkConfig = NetworkConfig.default := by
  unfold fromEnv
  cases (var "P2P_PORT").bind parseU16 <;> cases var "CLUSTER_ID" <;>
    cases var "ETCD_ENDPOINTS" <;> cases var "POD_IP" <;> rfl

end EnvConfig

/-- Health and connection state of a single peer. -/
structure PeerConnectionState (P : Type) where
  peerId : P
  peerInfo : PeerInfo
  status : ConnectionStatus
  consecutiveFailures : UInt32
  lastSeen : ℕ
  lastFailure : Option ℕ
  connectedAt : Option ℕ

namespace PeerConnectionState

def new {P : Type} (now : ℕ) (peerId : P) (peerInfo : PeerInfo) : PeerConnectionState P where
  peerId := peerId
  peerInfo := peerInfo
  status := .disconnected
  consecutiveFailures := 0
  lastSeen := now
  lastFailure := none
  connectedAt := none

/-- Whether the peer is excluded from pings. The power of the backoff is of 64 bits. -/
def shouldSkipPing {P : Type} (config : NetworkConfig) (now : ℕ)
    (self : PeerConnectionState P) : Bool :=
  match self.status with
  | .connected => false
  | .disconnected =>
    if config.failureThreshold < self.consecutiveFailures then
      match self.lastFailure with
      | some lastFailure =>
        let power := min self.consecutiveFailures.toNat config.maxBackoffPower.toNat
        let backoff :=
          RestartPolicy.fromSecs (UInt64.ofNat (config.backoffBase.toNat ^ power)).toNat
        now - lastFailure < backoff
      | none => true
    else false
  | .failed => true

def markConnected {P : Type} (now : ℕ) (self : PeerConnectionState P) : PeerConnectionState P :=
  { self with
    status := .connected
    consecutiveFailures := 0
    lastSeen := now
    connectedAt := some now
    lastFailure := none }

def markDisconnected {P : Type} (now : ℕ) (self : PeerConnectionState P) :
    PeerConnectionState P :=
  { self with status := .disconnected, lastSeen := now, connectedAt := none }

def markFailure {P : Type} (config : NetworkConfig) (now : ℕ) (self : PeerConnectionState P) :
    PeerConnectionState P :=
  let consecutiveFailures := self.consecutiveFailures + 1
  { self with
    consecutiveFailures := consecutiveFailures
    lastFailure := some now
    lastSeen := now
    status := if config.maxFailures ≤ consecutiveFailures then .failed else .disconnected }

def markSuccess {P : Type} (now : ℕ) (self : PeerConnectionState P) : PeerConnectionState P :=
  { self with
    consecutiveFailures := 0
    lastSeen := now
    lastFailure := none
    status := if self.status = .disconnected then .connected else self.status }

end PeerConnectionState

/-- How a call ends: it returns, or one of its lines panics. Both leave a state. -/
inductive Ending (σ : Type) where
  | returned (self : σ)
  | panicked (self : σ)

namespace Ending

/-- The state that the call leaves. -/
def state {σ : Type} : Ending σ → σ
  | returned self => self
  | panicked self => self

/-- The state of a task that goes on after the call. -/
def survivor {σ : Type} : Ending σ → Option σ
  | returned self => some self
  | panicked _ => none

def map {σ τ : Type} (f : σ → τ) : Ending σ → Ending τ
  | returned self => returned (f self)
  | panicked self => panicked (f self)

/-- Go on with the state that a call returns. -/
def bind {σ : Type} (ending : Ending σ) (f : σ → Ending σ) : Ending σ :=
  match ending with
  | returned self => f self
  | panicked self => panicked self

/-- A line with a peer's shortened text, evaluated or not. -/
def afterLine {P σ : Type} [PeerId P] (evaluated : Bool) (peerId : P) (self : σ) : Ending σ :=
  match PeerId.line evaluated peerId with
  | some _ => returned self
  | none => panicked self

/-- A line that does not panic. -/
def Fits {P : Type} [PeerId P] (evaluated : Bool) (peerId : P) : Prop :=
  evaluated = true → (short (toBase58 peerId)).isSome = true

instance {P : Type} [PeerId P] (evaluated : Bool) (peerId : P) :
    Decidable (Fits evaluated peerId) := inferInstanceAs (Decidable (_ → _))

theorem line_eq_some_iff {P : Type} [PeerId P] (evaluated : Bool) (peerId : P) :
    PeerId.line evaluated peerId = some () ↔ Fits evaluated peerId := by
  unfold PeerId.line Fits
  cases evaluated <;> cases short (toBase58 peerId) <;> simp

theorem afterLine_of_fits {P σ : Type} [PeerId P] {evaluated : Bool} {peerId : P}
    (h : Fits evaluated peerId) (self : σ) : afterLine evaluated peerId self = returned self := by
  unfold afterLine
  rw [(line_eq_some_iff evaluated peerId).mpr h]

theorem afterLine_of_not_fits {P σ : Type} [PeerId P] {evaluated : Bool} {peerId : P}
    (h : ¬Fits evaluated peerId) (self : σ) :
    afterLine evaluated peerId self = panicked self := by
  have hline : PeerId.line evaluated peerId = none := by
    cases hl : PeerId.line evaluated peerId with
    | none => rfl
    | some u => exact absurd ((line_eq_some_iff evaluated peerId).mp hl) h
  unfold afterLine
  rw [hline]

/-- A bind returns when both of its calls do. -/
theorem bind_eq_returned {σ : Type} {ending : Ending σ} {f : σ → Ending σ} {t : σ} :
    ending.bind f = returned t ↔ ∃ s, ending = returned s ∧ f s = returned t := by
  cases ending with
  | returned s => simp [bind]
  | panicked s => simp [bind]

theorem map_eq_returned {σ τ : Type} {f : σ → τ} {ending : Ending σ} {t : τ} :
    ending.map f = returned t ↔ ∃ s, ending = returned s ∧ f s = t := by
  cases ending with
  | returned s => simp [map]
  | panicked s => simp [map]

theorem afterLine_eq_returned {P σ : Type} [PeerId P] {evaluated : Bool} {peerId : P}
    {self t : σ} : afterLine evaluated peerId self = returned t ↔
      Fits evaluated peerId ∧ self = t := by
  by_cases h : Fits evaluated peerId
  · rw [afterLine_of_fits h, returned.injEq, and_iff_right h]
  · rw [afterLine_of_not_fits h]
    simp [h]

@[simp] theorem afterLine_state {P σ : Type} [PeerId P] (evaluated : Bool) (peerId : P)
    (self : σ) : (afterLine evaluated peerId self).state = self := by
  unfold afterLine
  cases PeerId.line evaluated peerId <;> rfl

@[simp] theorem map_state {σ τ : Type} (f : σ → τ) (ending : Ending σ) :
    (ending.map f).state = f ending.state := by
  cases ending <;> rfl

end Ending

/-- Shared network state for tracking peers and connection status. `logDebug` and
`logTrace` say whether the debug and trace lines of its module are evaluated. -/
structure NetworkState (P : Type) where
  localPeerId : P
  peers : AList (fun _ : P => PeerConnectionState P)
  config : NetworkConfig
  logDebug : Bool
  logTrace : Bool

namespace NetworkState
open Ending

def new {P : Type} (localPeerId : P) (config : NetworkConfig) (logDebug logTrace : Bool) :
    NetworkState P where
  localPeerId := localPeerId
  peers := ∅
  config := config
  logDebug := logDebug
  logTrace := logTrace

/-- The entry of a peer is set. -/
def set {P : Type} [DecidableEq P] (peerId : P) (peer : PeerConnectionState P)
    (self : NetworkState P) : NetworkState P :=
  { self with peers := self.peers.insert peerId peer }

/-- The entry of a peer is taken out. -/
def forget {P : Type} [DecidableEq P] (peerId : P) (self : NetworkState P) : NetworkState P :=
  { self with peers := self.peers.erase peerId }

def hasPeer {P : Type} [DecidableEq P] (peerId : P) (self : NetworkState P) : Bool :=
  (self.peers.lookup peerId).isSome

def addPeer {P : Type} [DecidableEq P] [PeerId P] (now : ℕ) (peerId : P) (peerInfo : PeerInfo)
    (self : NetworkState P) : Ending (NetworkState P) :=
  if self.hasPeer peerId then .returned self
  else (afterLine self.logDebug peerId self).bind
    (fun self => .returned (self.set peerId (.new now peerId peerInfo)))

def markConnected {P : Type} [DecidableEq P] [PeerId P] (now : ℕ) (peerId : P)
    (self : NetworkState P) : Ending (NetworkState P) :=
  match self.peers.lookup peerId with
  | some peer => (afterLine self.logTrace peerId self).bind
      (fun self => .returned (self.set peerId (peer.markConnected now)))
  | none => .returned self

def markDisconnected {P : Type} [DecidableEq P] [PeerId P] (now : ℕ) (peerId : P)
    (self : NetworkState P) : Ending (NetworkState P) :=
  match self.peers.lookup peerId with
  | some peer => (afterLine self.logTrace peerId self).bind
      (fun self => .returned (self.set peerId (peer.markDisconnected now)))
  | none => .returned self

/-- The line about a failure comes after it. -/
def markFailure {P : Type} [DecidableEq P] [PeerId P] (now : ℕ) (peerId : P)
    (self : NetworkState P) : Ending (NetworkState P) :=
  match self.peers.lookup peerId with
  | some peer => afterLine self.logDebug peerId (self.set peerId (peer.markFailure self.config now))
  | none => .returned self

def markSuccess {P : Type} [DecidableEq P] (now : ℕ) (peerId : P) (self : NetworkState P) :
    NetworkState P :=
  match self.peers.lookup peerId with
  | some peer => self.set peerId (peer.markSuccess now)
  | none => self

/-- A peer that is not there is skipped. -/
def shouldSkipPing {P : Type} [DecidableEq P] (now : ℕ) (peerId : P) (self : NetworkState P) :
    Bool :=
  ((self.peers.lookup peerId).map (fun peer => peer.shouldSkipPing self.config now)).getD true

/-- The line about a removal comes after it. -/
def removePeer {P : Type} [DecidableEq P] [PeerId P] (peerId : P) (self : NetworkState P) :
    Ending (NetworkState P) :=
  if self.hasPeer peerId then afterLine self.logDebug peerId (self.forget peerId)
  else .returned self

/-- A failed peer that has not been seen for longer than an age. -/
def Stale {P : Type} (now maxAge : ℕ) (peer : PeerConnectionState P) : Prop :=
  peer.status = .failed ∧ maxAge < now - peer.lastSeen

instance {P : Type} (now maxAge : ℕ) (peer : PeerConnectionState P) :
    Decidable (Stale now maxAge peer) := inferInstanceAs (Decidable (_ ∧ _))

def stalePeers {P : Type} (now maxAge : ℕ) (self : NetworkState P) : List P :=
  (self.peers.entries.filter (fun entry => Stale now maxAge entry.2)).map Sigma.fst

/-- Remove peers one after the other, each after its line. -/
def removeStale {P : Type} [DecidableEq P] [PeerId P] :
    List P → NetworkState P → Ending (NetworkState P)
  | [], self => .returned self
  | peerId :: rest, self =>
    (afterLine self.logTrace peerId self).bind (fun self => removeStale rest (self.forget peerId))

/-- Remove the peers that have been in failed state longer than `maxAge`, in the
order in which the map lists them. -/
def cleanupStalePeers {P : Type} [DecidableEq P] [PeerId P] (now maxAge : ℕ)
    (order : List P → List P) (self : NetworkState P) : Ending (NetworkState P) :=
  removeStale (order (self.stalePeers now maxAge)) self

@[simp] theorem lookup_set {P : Type} [DecidableEq P] (peerId : P)
    (peer : PeerConnectionState P) (self : NetworkState P) (p : P) :
    (self.set peerId peer).peers.lookup p =
      if p = peerId then some peer else self.peers.lookup p := by
  by_cases h : p = peerId
  · subst h
    rw [if_pos rfl]
    exact AList.lookup_insert _
  · rw [if_neg h]
    exact AList.lookup_insert_ne h

@[simp] theorem lookup_forget {P : Type} [DecidableEq P] (peerId : P) (self : NetworkState P)
    (p : P) : (self.forget peerId).peers.lookup p =
      if p = peerId then none else self.peers.lookup p := by
  by_cases h : p = peerId
  · subst h
    rw [if_pos rfl]
    exact AList.lookup_erase _ _
  · rw [if_neg h]
    exact AList.lookup_erase_ne h

/-- Adding a peer that is not there makes a fresh entry. -/
theorem addPeer_of_fits {P : Type} [DecidableEq P] [PeerId P] (now : ℕ) (peerId : P)
    (peerInfo : PeerInfo) (self : NetworkState P)
    (h : self.hasPeer peerId = false → Fits self.logDebug peerId) :
    self.addPeer now peerId peerInfo = .returned (if self.hasPeer peerId then self
      else self.set peerId (.new now peerId peerInfo)) := by
  unfold addPeer
  by_cases hknown : self.hasPeer peerId = true
  · rw [if_pos hknown, if_pos hknown]
  · rw [if_neg hknown, if_neg hknown, afterLine_of_fits (h (by simpa using hknown))]
    rfl

/-- A removal empties the entry, whether its line panics or not. -/
theorem lookup_removePeer {P : Type} [DecidableEq P] [PeerId P] (peerId : P)
    (self : NetworkState P) (p : P) : (self.removePeer peerId).state.peers.lookup p =
      if p = peerId then none else self.peers.lookup p := by
  unfold removePeer
  by_cases hknown : self.hasPeer peerId = true
  · rw [if_pos hknown, afterLine_state, lookup_forget]
  · rw [if_neg hknown]
    by_cases hp : p = peerId
    · subst hp
      rw [if_pos rfl]
      exact Option.not_isSome_iff_eq_none.mp hknown
    · rw [if_neg hp]
      rfl

/-- A peer that is there is marked when the line about it fits. -/
theorem markConnected_of_fits {P : Type} [DecidableEq P] [PeerId P] {peerId : P}
    {peer : PeerConnectionState P} {self : NetworkState P} (now : ℕ)
    (hpeer : self.peers.lookup peerId = some peer) (h : Fits self.logTrace peerId) :
    self.markConnected now peerId = .returned (self.set peerId (peer.markConnected now)) := by
  unfold markConnected
  rw [hpeer]
  simp only [afterLine_of_fits h, Ending.bind]

theorem markDisconnected_of_fits {P : Type} [DecidableEq P] [PeerId P] {peerId : P}
    {peer : PeerConnectionState P} {self : NetworkState P} (now : ℕ)
    (hpeer : self.peers.lookup peerId = some peer) (h : Fits self.logTrace peerId) :
    self.markDisconnected now peerId =
      .returned (self.set peerId (peer.markDisconnected now)) := by
  unfold markDisconnected
  rw [hpeer]
  simp only [afterLine_of_fits h, Ending.bind]

/-- Otherwise the panic comes before the mark. -/
theorem markConnected_of_not_fits {P : Type} [DecidableEq P] [PeerId P] {peerId : P}
    {peer : PeerConnectionState P} {self : NetworkState P} (now : ℕ)
    (hpeer : self.peers.lookup peerId = some peer) (h : ¬Fits self.logTrace peerId) :
    self.markConnected now peerId = .panicked self := by
  unfold markConnected
  rw [hpeer]
  simp only [afterLine_of_not_fits h, Ending.bind]

/-- Setting the entry of a peer that is there leaves the peers that are there. -/
theorem hasPeer_set {P : Type} [DecidableEq P] {peerId : P} {peer : PeerConnectionState P}
    {self : NetworkState P} (hpeer : self.peers.lookup peerId = some peer)
    (peer' : PeerConnectionState P) (p : P) :
    (self.set peerId peer').hasPeer p = self.hasPeer p := by
  unfold hasPeer
  rw [lookup_set]
  by_cases hp : p = peerId
  · rw [if_pos hp, hp, hpeer]
    rfl
  · rw [if_neg hp]

end NetworkState

end Neolaas
