import Neolaas.Discovery
import Neolaas.LabelledRuns

/-!
# The discovery controller and its keep-alive task

The controller registers its node under a lease, converges, follows the watch and
revokes the lease when it shuts down. The task that keeps the lease alive runs
beside it until one of its own rounds fails, so a controller that ends in another
way leaves its registration behind. What etcd answers is part of the labels.
-/
namespace Neolaas
open PeerId LabelledRuns

/-- Why a loop over pairs or events stops before its end. -/
inductive Stop where
  | error
  | panicked
  deriving DecidableEq, Repr

namespace Outcome

/-- The outcome is the one that a stop foretells, and a state it leaves is in `I`. -/
def Follows {σ : Type} (I : σ → Prop) : Option Stop → Outcome σ → Prop
  | none, .ok t => I t
  | some .error, .error t => I t
  | some .panicked, .panicked => True
  | _, _ => False

theorem Follows.mono {σ : Type} {I J : σ → Prop} {stop : Option Stop} {out : Outcome σ}
    (h : Follows I stop out) (hIJ : ∀ t, I t → J t) : Follows J stop out := by
  cases out with
  | ok t =>
    cases stop with
    | none => exact hIJ t h
    | some stop => cases stop <;> exact h.elim
  | error t =>
    cases stop with
    | none => exact h.elim
    | some stop =>
      cases stop with
      | error => exact hIJ t h
      | panicked => exact h.elim
  | panicked =>
    cases stop with
    | none => exact h.elim
    | some stop =>
      cases stop with
      | error => exact h.elim
      | panicked => trivial

/-- The three ways in which an outcome follows a stop. -/
theorem Follows.cases {σ : Type} {I : σ → Prop} {stop : Option Stop} {out : Outcome σ}
    (h : Follows I stop out) : (∃ t, stop = none ∧ out = .ok t ∧ I t) ∨
      (∃ t, stop = some .error ∧ out = .error t ∧ I t) ∨
      stop = some .panicked ∧ out = .panicked := by
  unfold Follows at h
  split at h
  · exact Or.inl ⟨_, rfl, rfl, h⟩
  · exact Or.inr (Or.inl ⟨_, rfl, rfl, h⟩)
  · exact Or.inr (Or.inr ⟨rfl, rfl⟩)
  · exact h.elim

/-- A loop stops at its first element that stops it. -/
theorem forEach_follows {σ β : Type} {step : β → σ → Outcome σ} {stop : β → Option Stop}
    {I : σ → Prop} (hstep : ∀ b s, I s → Follows I (stop b) (step b s)) (bs : List β) (s : σ)
    (hs : I s) : Follows I (bs.findSome? stop) (forEach step bs s) := by
  induction bs generalizing s with
  | nil => exact hs
  | cons b bs ih =>
    have hb := hstep b s hs
    simp only [forEach, List.findSome?_cons]
    cases hout : step b s with
    | ok t =>
      rw [hout] at hb
      cases hstop : stop b with
      | none =>
        rw [hstop] at hb
        exact ih t hb
      | some stopped =>
        rw [hstop] at hb
        cases stopped <;> exact hb.elim
    | error t =>
      rw [hout] at hb
      cases hstop : stop b with
      | none =>
        rw [hstop] at hb
        exact hb.elim
      | some stopped =>
        rw [hstop] at hb
        exact hb
    | panicked =>
      rw [hout] at hb
      cases hstop : stop b with
      | none =>
        rw [hstop] at hb
        exact hb.elim
      | some stopped =>
        rw [hstop] at hb
        exact hb

end Outcome

namespace DiscoveryPhases

/-- A debug line about a peer whose text is too short panics. -/
def lineStop {P A : Type} [PeerId P] (self : DiscoveryPhases P A) (peerId : P) : Option Stop :=
  if self.logDebug ∧ short (toBase58 peerId) = none then some .panicked else none

/-- Why a pair of the snapshot stops the loop over them, if it does. -/
def kvStop {P A : Type} [SerdeJson] [DecidableEq P] [PeerId P] [Multiaddr A]
    (self : DiscoveryPhases P A) (kv : KeyValue) : Option Stop :=
  match kv.keyStr, kv.valueStr with
  | some key, some value => (self.decodePeer key value).bind (fun found => self.lineStop found.1)
  | _, _ => some .error

/-- Why an event stops the loop over the events of a response, if it does. -/
def eventStop {P A : Type} [SerdeJson] [DecidableEq P] [PeerId P] [Multiaddr A]
    (self : DiscoveryPhases P A) (event : WatchEvent) : Option Stop :=
  match event.eventType, event.kv with
  | _, none => none
  | .put, some kv => self.kvStop kv
  | .delete, some kv =>
    match kv.keyStr with
    | some key => (self.peerOfKey key).bind self.lineStop
    | none => some .error

/-- Why a message of the stream is not processed to its end, if it is not. -/
def messageStop {P A : Type} [SerdeJson] [DecidableEq P] [PeerId P] [Multiaddr A]
    (self : DiscoveryPhases P A) : Option WatchResponse → Option Stop
  | none => none
  | some resp => if resp.canceled then some .error else resp.events.findSome? self.eventStop

/-- What the phases keep while they follow etcd. -/
structure Keeps {P A : Type} (phases next : DiscoveryPhases P A) : Prop where
  node : phases.SameNode next
  logDebug : next.logDebug = phases.logDebug
  shutdown : .shutdown ∈ next.swarmTx ↔ .shutdown ∈ phases.swarmTx

theorem Keeps.refl {P A : Type} (self : DiscoveryPhases P A) : self.Keeps self :=
  ⟨⟨rfl, rfl⟩, rfl, Iff.rfl⟩

theorem Keeps.trans {P A : Type} {self mid next : DiscoveryPhases P A} (h : self.Keeps mid)
    (h' : mid.Keeps next) : self.Keeps next where
  node := ⟨h'.node.1.trans h.node.1, h'.node.2.trans h.node.2⟩
  logDebug := h'.logDebug.trans h.logDebug
  shutdown := h'.shutdown.trans h.shutdown

theorem Keeps.lineStop {P A : Type} [PeerId P] {self next : DiscoveryPhases P A}
    (h : self.Keeps next) (peerId : P) : next.lineStop peerId = self.lineStop peerId := by
  unfold DiscoveryPhases.lineStop
  rw [h.logDebug]

theorem Keeps.kvStop {P A : Type} [SerdeJson] [DecidableEq P] [PeerId P] [Multiaddr A]
    {self next : DiscoveryPhases P A} (h : self.Keeps next) (kv : KeyValue) :
    next.kvStop kv = self.kvStop kv := by
  unfold DiscoveryPhases.kvStop
  simp only [h.node.decodePeer, h.lineStop]

theorem Keeps.eventStop {P A : Type} [SerdeJson] [DecidableEq P] [PeerId P] [Multiaddr A]
    {self next : DiscoveryPhases P A} (h : self.Keeps next) (event : WatchEvent) :
    next.eventStop event = self.eventStop event := by
  have hline : next.lineStop = self.lineStop := funext h.lineStop
  unfold DiscoveryPhases.eventStop
  simp only [h.kvStop, h.node.peerOfKey, hline]

theorem keeps_addPeer {P A : Type} [DecidableEq P] (peerId : P) (addr : A)
    (self : DiscoveryPhases P A) : self.Keeps (self.addPeer peerId addr) where
  node := ⟨rfl, rfl⟩
  logDebug := rfl
  shutdown := by simp [addPeer]

theorem keeps_removePeer {P A : Type} [DecidableEq P] (peerId : P)
    (self : DiscoveryPhases P A) : self.Keeps (self.removePeer peerId) where
  node := ⟨rfl, rfl⟩
  logDebug := rfl
  shutdown := by simp [removePeer]

theorem keeps_notifySharding {P A : Type} (iter : Finset P → List P)
    (self : DiscoveryPhases P A) : self.Keeps (self.notifySharding iter) :=
  ⟨⟨rfl, rfl⟩, rfl, Iff.rfl⟩

theorem debugPeer_follows {P A : Type} [PeerId P] {I : DiscoveryPhases P A → Prop} (peerId : P)
    (self next : DiscoveryPhases P A) (hnext : I next) :
    Outcome.Follows I (self.lineStop peerId) (self.debugPeer peerId next) := by
  unfold lineStop debugPeer
  by_cases h : self.logDebug ∧ short (toBase58 peerId) = none
  · rw [if_pos h, if_pos h]
    trivial
  · rw [if_neg h, if_neg h]
    exact hnext

theorem convergeKv_follows {P A : Type} [SerdeJson] [DecidableEq P] [PeerId P] [Multiaddr A]
    (kv : KeyValue) (self : DiscoveryPhases P A) :
    Outcome.Follows self.Keeps (self.kvStop kv) (convergeKv kv self) := by
  unfold kvStop convergeKv
  cases kv.keyStr with
  | none => exact Keeps.refl self
  | some key =>
    cases kv.valueStr with
    | none => exact Keeps.refl self
    | some value =>
      cases hp : self.decodePeer key value with
      | none =>
        simp only [hp]
        exact Keeps.refl self
      | some found =>
        simp only [hp]
        exact debugPeer_follows found.1 self _ (keeps_addPeer found.1 found.2 self)

theorem processEvent_follows {P A : Type} [SerdeJson] [DecidableEq P] [PeerId P] [Multiaddr A]
    (iter : Finset P → List P) (event : WatchEvent) (self : DiscoveryPhases P A) :
    Outcome.Follows self.Keeps (self.eventStop event) (processEvent iter event self) := by
  obtain ⟨eventType, kv⟩ := event
  cases kv with
  | none => cases eventType <;> exact Keeps.refl self
  | some kv =>
    cases eventType with
    | put =>
      simp only [eventStop, kvStop, processEvent]
      cases kv.keyStr with
      | none => exact Keeps.refl self
      | some key =>
        cases kv.valueStr with
        | none => exact Keeps.refl self
        | some value =>
          cases hp : self.decodePeer key value with
          | none =>
            simp only [hp]
            exact Keeps.refl self
          | some found =>
            simp only [hp]
            refine debugPeer_follows found.1 self _ ?_
            exact (keeps_addPeer found.1 found.2 self).trans (keeps_notifySharding iter _)
    | delete =>
      simp only [eventStop, processEvent]
      cases kv.keyStr with
      | none => exact Keeps.refl self
      | some key =>
        cases hp : self.peerOfKey key with
        | none =>
          simp only [hp]
          exact Keeps.refl self
        | some peerId =>
          simp only [hp]
          refine debugPeer_follows peerId self _ ?_
          exact (keeps_removePeer peerId self).trans (keeps_notifySharding iter _)

/-- Convergence fails at the first pair that is no text and panics at the first
line that does. -/
theorem converge_follows {P A : Type} [SerdeJson] [DecidableEq P] [PeerId P] [Multiaddr A]
    (iter : Finset P → List P) (kvs : List KeyValue) (self : DiscoveryPhases P A) :
    Outcome.Follows self.Keeps (kvs.findSome? self.kvStop) (converge iter kvs self) := by
  have hloop : Outcome.Follows self.Keeps (kvs.findSome? self.kvStop)
      (Outcome.forEach convergeKv kvs self) := by
    refine Outcome.forEach_follows ?_ kvs self (Keeps.refl self)
    intro kv mid hmid
    rw [← hmid.kvStop kv]
    exact (convergeKv_follows kv mid).mono (fun next hnext => hmid.trans hnext)
  unfold converge
  cases hout : Outcome.forEach convergeKv kvs self with
  | ok done =>
    rw [hout] at hloop
    cases hstop : kvs.findSome? self.kvStop with
    | none =>
      rw [hstop] at hloop
      have hnotify := keeps_notifySharding iter done
      exact hloop.trans ⟨hnotify.node, hnotify.logDebug, hnotify.shutdown⟩
    | some stop =>
      rw [hstop] at hloop
      cases stop <;> exact hloop.elim
  | error failed =>
    rw [hout] at hloop
    exact hloop
  | panicked =>
    rw [hout] at hloop
    exact hloop

theorem processWatchEvent_follows {P A : Type} [SerdeJson] [DecidableEq P] [PeerId P]
    [Multiaddr A] (iter : Finset P → List P) (message : Option WatchResponse)
    (self : DiscoveryPhases P A) :
    Outcome.Follows self.Keeps (self.messageStop message)
      (processWatchEvent iter message self) := by
  cases message with
  | none => exact Keeps.refl self
  | some resp =>
    simp only [messageStop, processWatchEvent]
    by_cases hcanceled : resp.canceled = true
    · simp only [hcanceled, if_true]
      exact Keeps.refl self
    · simp only [hcanceled, if_false, Bool.false_eq_true]
      refine Outcome.forEach_follows ?_ resp.events self (Keeps.refl self)
      intro event mid hmid
      rw [← hmid.eventStop event]
      exact (processEvent_follows iter event mid).mono (fun next hnext => hmid.trans hnext)

end DiscoveryPhases

/-- Discovery controller state machine states. -/
inductive DiscoveryState where
  | initialization
  | registration
  | convergence
  | maintenance
  | terminating
  deriving DecidableEq, Repr

/-- The controller. Its receivers and its convergence sender are there until `run`
takes them. -/
structure DiscoveryController (P A : Type) where
  phases : DiscoveryPhases P A
  leaseId : Option ℤ
  shutdownRx : Bool
  internalShutdownRx : Bool
  convergenceTx : Bool
  state : DiscoveryState

/-- What made the controller shut down. -/
inductive ShutdownCause where
  | external
  | keepAliveFailure
  deriving DecidableEq, Repr

/-- The call that `run` waits for, or how it has ended. -/
inductive RunPoint where
  | status
  | leaseGrant
  | leaseKeepAlive (leaseId : ℤ)
  | put (leaseId : ℤ)
  | get
  | watch
  | select
  | reconnectDelay
  | rewatch
  | leaseRevoke (leaseId : ℤ) (cause : ShutdownCause)
  | deletePropagation (cause : ShutdownCause)
  | returned (ok : Bool)
  | panicked
  deriving DecidableEq, Repr

inductive KeepAliveTask where
  | notSpawned
  | running
  | stopped
  deriving DecidableEq, Repr

/-- How a round of the keep-alive task goes. -/
inductive KeepAliveRound where
  | ok
  | sendFailed
  | streamClosed
  | streamFailed
  deriving DecidableEq, Repr

/-- The controller with its keep-alive task, the queued shutdown signals and whether
their sender and the swarm's receiver are still there. `revokes` are the leases
whose revoke was attempted, and `leaseRevoked` says whether etcd has done it. -/
structure DiscoveryTasks (P A : Type) where
  controller : DiscoveryController P A
  point : RunPoint
  keepAlive : KeepAliveTask
  shutdown : ℕ
  shutdownTx : Bool
  internalShutdown : ℕ
  convergenceSignal : Bool
  swarmRx : Bool
  revokes : List ℤ
  leaseRevoked : Bool

namespace DiscoveryTasks

/-- A step of the controller with the answer it gets, of the keep-alive task, or of
the holders of the other ends of the channels. A listing orders the hash set of
peers. -/
inductive Label (P : Type) where
  | status (ok : Bool)
  | leaseGrant (leaseId : Option ℤ)
  | leaseKeepAlive (ok : Bool)
  | put (ok : Bool)
  | get (kvs : Option (List KeyValue)) (iter : Finset P → List P)
  | watch (ok : Bool)
  /-- `none` when reading the stream fails, `some none` at its end. -/
  | watchMessage (message : Option (Option WatchResponse)) (iter : Finset P → List P)
  | recvShutdown
  | recvInternalShutdown
  | reconnectDelay
  /-- Whether etcd revokes the lease. The answer is only logged. -/
  | leaseRevoke (revoked : Bool)
  | deletePropagation
  | keepAlive (round : KeepAliveRound)
  | sendShutdown
  | dropShutdownTx
  | dropSwarmRx

/-- A controller that is about to run. -/
def new {P A : Type} (clusterId : String) (localPeerId : P) (localAddr : A) (logDebug : Bool) :
    DiscoveryTasks P A where
  controller :=
    { phases := DiscoveryPhases.new clusterId localPeerId localAddr logDebug
      leaseId := none
      shutdownRx := true
      internalShutdownRx := true
      convergenceTx := true
      state := .initialization }
  point := .status
  keepAlive := .notSpawned
  shutdown := 0
  shutdownTx := true
  internalShutdown := 0
  convergenceSignal := false
  swarmRx := true
  revokes := []
  leaseRevoked := false

def setPhases {P A : Type} (phases : DiscoveryPhases P A) (s : DiscoveryTasks P A) :
    DiscoveryTasks P A :=
  { s with controller := { s.controller with phases := phases } }

/-- `run` goes on to a phase. -/
def enter {P A : Type} (state : DiscoveryState) (point : RunPoint) (s : DiscoveryTasks P A) :
    DiscoveryTasks P A :=
  { s with controller := { s.controller with state := state }, point := point }

def goTo {P A : Type} (point : RunPoint) (s : DiscoveryTasks P A) : DiscoveryTasks P A :=
  { s with point := point }

/-- The lease is there and the key put, so the keep-alive task is spawned. -/
def registered {P A : Type} (leaseId : ℤ) (s : DiscoveryTasks P A) : DiscoveryTasks P A :=
  { s with
    controller := { s.controller with leaseId := some leaseId, state := .convergence }
    keepAlive := .running
    point := .get }

/-- The end of convergence, with its signal if that was not sent before. -/
def converged {P A : Type} (s : DiscoveryTasks P A) : DiscoveryTasks P A :=
  { s with
    controller := { s.controller with convergenceTx := false, state := .maintenance }
    convergenceSignal := s.convergenceSignal || s.controller.convergenceTx
    point := .watch }

/-- The receivers are taken before the loop, and one that is missing is an error. -/
def takeReceivers {P A : Type} (s : DiscoveryTasks P A) : DiscoveryTasks P A :=
  if s.controller.shutdownRx then
    let s : DiscoveryTasks P A := { s with controller := { s.controller with shutdownRx := false } }
    if s.controller.internalShutdownRx then
      { s with
        controller := { s.controller with internalShutdownRx := false }
        point := .select }
    else s.goTo (.returned false)
  else s.goTo (.returned false)

/-- The end of `shutdown` and of the branch that called it. -/
def signalSwarm {P A : Type} (cause : ShutdownCause) (s : DiscoveryTasks P A) :
    DiscoveryTasks P A :=
  if s.swarmRx then
    let phases := s.controller.phases
    { s with
      controller :=
        { s.controller with phases := { phases with swarmTx := phases.swarmTx ++ [.shutdown] } }
      point := .returned (cause = .external) }
  else s.goTo (.returned false)

/-- The beginning of `shutdown`. -/
def shutDown {P A : Type} (cause : ShutdownCause) (s : DiscoveryTasks P A) :
    DiscoveryTasks P A :=
  match s.controller.leaseId with
  | some leaseId => s.enter .terminating (.leaseRevoke leaseId cause)
  | none => (s.enter .terminating s.point).signalSwarm cause

/-- One step of the controller or beside it. -/
def step {P A : Type} [SerdeJson] [DecidableEq P] [PeerId P] [Multiaddr A]
    (s : DiscoveryTasks P A) (l : Label P) : Option (DiscoveryTasks P A) :=
  match s.point, l with
  | .status, .status ok =>
    some (if ok then s.enter .registration .leaseGrant else s.goTo (.returned false))
  | .leaseGrant, .leaseGrant leaseId =>
    some (match leaseId with
      | some leaseId => s.goTo (.leaseKeepAlive leaseId)
      | none => s.goTo (.returned false))
  | .leaseKeepAlive leaseId, .leaseKeepAlive ok =>
    some (s.goTo (if ok then .put leaseId else .returned false))
  | .put leaseId, .put ok =>
    some (if ok then s.registered leaseId else s.goTo (.returned false))
  | .get, .get none _ => some (s.goTo (.returned false))
  | .get, .get (some kvs) iter =>
    some (match DiscoveryPhases.converge iter kvs s.controller.phases with
      | .ok phases => (s.setPhases phases).converged
      | .error phases => (s.setPhases phases).goTo (.returned false)
      | .panicked => s.goTo .panicked)
  | .watch, .watch ok => some (if ok then s.takeReceivers else s.goTo (.returned false))
  | .select, .watchMessage none _ => some (s.goTo .reconnectDelay)
  | .select, .watchMessage (some message) iter =>
    some (match DiscoveryPhases.processWatchEvent iter message s.controller.phases with
      | .ok phases => s.setPhases phases
      | .error phases => (s.setPhases phases).goTo .reconnectDelay
      | .panicked => s.goTo .panicked)
  | .select, .recvShutdown =>
    -- A channel without a sender wakes the branch as well.
    if 0 < s.shutdown ∨ s.shutdownTx = false then
      some ({ s with shutdown := s.shutdown - 1 }.shutDown .external)
    else none
  | .select, .recvInternalShutdown =>
    if 0 < s.internalShutdown then
      some ({ s with internalShutdown := s.internalShutdown - 1 }.shutDown .keepAliveFailure)
    else none
  | .reconnectDelay, .reconnectDelay => some (s.goTo .rewatch)
  | .rewatch, .watch ok => some (s.goTo (if ok then .select else .returned false))
  | .leaseRevoke leaseId cause, .leaseRevoke revoked =>
    some { s with
      revokes := s.revokes ++ [leaseId]
      leaseRevoked := s.leaseRevoked || revoked
      point := .deletePropagation cause }
  | .deletePropagation cause, .deletePropagation => some (s.signalSwarm cause)
  | _, .keepAlive round =>
    if s.keepAlive = .running then
      some (if round = .ok then s
        else { s with keepAlive := .stopped, internalShutdown := s.internalShutdown + 1 })
    else none
  | _, .sendShutdown =>
    if s.shutdownTx then some { s with shutdown := s.shutdown + 1 } else none
  | _, .dropShutdownTx => some { s with shutdownTx := false }
  | _, .dropSwarmRx => some { s with swarmRx := false }
  | _, _ => none

section
variable {P A : Type} [SerdeJson] [DecidableEq P] [PeerId P] [Multiaddr A]
  (s : DiscoveryTasks P A)

/-- A round of the keep-alive task is the same at every point of the controller. -/
theorem step_keepAlive (round : KeepAliveRound) :
    s.step (.keepAlive round) = if s.keepAlive = .running then
      some (if round = .ok then s
        else { s with keepAlive := .stopped, internalShutdown := s.internalShutdown + 1 })
      else none := by
  cases hp : s.point <;> simp only [step, hp]

theorem step_sendShutdown : s.step .sendShutdown =
    if s.shutdownTx then some { s with shutdown := s.shutdown + 1 } else none := by
  cases hp : s.point <;> simp only [step, hp]

theorem step_dropShutdownTx : s.step .dropShutdownTx = some { s with shutdownTx := false } := by
  cases hp : s.point <;> simp only [step, hp]

theorem step_dropSwarmRx : s.step .dropSwarmRx = some { s with swarmRx := false } := by
  cases hp : s.point <;> simp only [step, hp]

end

/-- The run has returned or panicked. -/
def Ended {P A : Type} (s : DiscoveryTasks P A) : Prop :=
  s.point = .panicked ∨ ∃ ok, s.point = .returned ok

/-- `register` has succeeded. -/
def Registered {P A : Type} (s : DiscoveryTasks P A) : Prop := s.controller.leaseId ≠ none

/-- The revoke of the lease was attempted and the swarm was told to shut down. -/
def HasShutDown {P A : Type} (s : DiscoveryTasks P A) : Prop :=
  (∃ leaseId ∈ s.revokes, s.controller.leaseId = some leaseId) ∧
    .shutdown ∈ s.controller.phases.swarmTx

/-- A run that has returned after it registered has shut down, or nothing keeps its
lease alive. -/
def TakesRegistration {P A : Type} (s : DiscoveryTasks P A) : Prop :=
  ∀ ok, s.point = .returned ok → s.Registered → s.HasShutDown ∨ s.keepAlive = .stopped

/-- No task refreshes the lease of a run that has ended. -/
def NoneRefreshes {P A : Type} (s : DiscoveryTasks P A) : Prop :=
  s.Ended → s.Registered → s.leaseRevoked = true ∨ s.keepAlive = .stopped

/-- Steps in which a run returns without having shut down: convergence fails, the
watch cannot be opened or opened again, or the swarm can no longer be told. -/
def leaves {P A : Type} [SerdeJson] [DecidableEq P] [PeerId P] [Multiaddr A]
    (s : DiscoveryTasks P A) (l : Label P) : Bool :=
  match s.point, l with
  | .get, .get none _ => true
  | .get, .get (some kvs) _ => kvs.findSome? s.controller.phases.kvStop = some .error
  | .watch, .watch ok => !ok
  | .rewatch, .watch ok => !ok
  | .deletePropagation _, .deletePropagation => !s.swarmRx
  | _, _ => false

/-- Steps in which a run ends while etcd has not revoked its lease. -/
def abandons {P A : Type} [SerdeJson] [DecidableEq P] [PeerId P] [Multiaddr A]
    (s : DiscoveryTasks P A) (l : Label P) : Bool :=
  match s.point, l with
  | .get, .get none _ => true
  | .get, .get (some kvs) _ => (kvs.findSome? s.controller.phases.kvStop).isSome
  | .watch, .watch ok => !ok
  | .rewatch, .watch ok => !ok
  | .select, .watchMessage (some message) _ =>
    s.controller.phases.messageStop message = some .panicked
  | .deletePropagation _, .deletePropagation => !s.leaseRevoked
  | _, _ => false

/-- The keep-alive task has stopped before a run leaves. -/
def LeavesStopped {P A : Type} [SerdeJson] [DecidableEq P] [PeerId P] [Multiaddr A]
    (s : DiscoveryTasks P A) (l : Label P) : Prop :=
  s.leaves l = true → s.keepAlive = .stopped

/-- The keep-alive task has stopped before a run abandons its lease. -/
def AbandonsStopped {P A : Type} [SerdeJson] [DecidableEq P] [PeerId P] [Multiaddr A]
    (s : DiscoveryTasks P A) (l : Label P) : Prop :=
  s.abandons l = true → s.keepAlive = .stopped

instance {P A : Type} [SerdeJson] [DecidableEq P] [PeerId P] [Multiaddr A]
    (s : DiscoveryTasks P A) (l : Label P) : Decidable (s.LeavesStopped l) :=
  inferInstanceAs (Decidable (_ → _))

instance {P A : Type} [SerdeJson] [DecidableEq P] [PeerId P] [Multiaddr A]
    (s : DiscoveryTasks P A) (l : Label P) : Decidable (s.AbandonsStopped l) :=
  inferInstanceAs (Decidable (_ → _))

/-- The shutdown has not begun. -/
structure Untouched {P A : Type} (s : DiscoveryTasks P A) : Prop where
  revokes : s.revokes = []
  leaseRevoked : s.leaseRevoked = false
  shutdown : .shutdown ∉ s.controller.phases.swarmTx

/-- What holds at each point of a run. -/
def Inv {P A : Type} (s : DiscoveryTasks P A) : Prop :=
  match s.point with
  | .status | .leaseGrant | .leaseKeepAlive _ | .put _ =>
    ¬ s.Registered ∧ s.controller.shutdownRx = true ∧ s.controller.internalShutdownRx = true ∧
      s.Untouched
  | .get | .watch =>
    s.Registered ∧ s.controller.shutdownRx = true ∧ s.controller.internalShutdownRx = true ∧
      s.Untouched
  | .select | .reconnectDelay | .rewatch => s.Registered ∧ s.Untouched
  | .leaseRevoke leaseId _ => s.controller.leaseId = some leaseId ∧ s.Untouched
  | .deletePropagation _ =>
    (∃ leaseId ∈ s.revokes, s.controller.leaseId = some leaseId) ∧
      .shutdown ∉ s.controller.phases.swarmTx
  | .returned _ | .panicked => True

/-- What a step does. -/
inductive Moves {P A : Type} [SerdeJson] [DecidableEq P] [PeerId P] [Multiaddr A]
    (s : DiscoveryTasks P A) (l : Label P) (t : DiscoveryTasks P A) : Prop
  | beside (hcontroller : t.controller = s.controller) (hpoint : t.point = s.point)
      (hrevokes : t.revokes = s.revokes) (hrevoked : t.leaseRevoked = s.leaseRevoked)
      (hstopped : s.keepAlive = .stopped → t.keepAlive = .stopped)
      (hleaves : s.leaves l = false) (habandons : s.abandons l = false)
  | onward (hinv : t.Inv) (hgoes : ¬ t.Ended) (hleaves : s.leaves l = false)
      (habandons : s.abandons l = false)
  | unregistered (hnone : ¬ t.Registered) (hended : t.Ended) (hleaves : s.leaves l = false)
      (habandons : s.abandons l = false)
  | left (hended : t.Ended) (hreg : t.Registered) (halive : t.keepAlive = s.keepAlive)
      (habandons : s.abandons l = !t.leaseRevoked)
      (hleaves : s.leaves l = true ↔ t.point ≠ .panicked ∧ ¬ t.HasShutDown)

theorem Untouched.of_keeps {P A : Type} {s t : DiscoveryTasks P A} (h : s.Untouched)
    (hrevokes : t.revokes = s.revokes) (hrevoked : t.leaseRevoked = s.leaseRevoked)
    (hphases : s.controller.phases.Keeps t.controller.phases) : t.Untouched where
  revokes := hrevokes.trans h.revokes
  leaseRevoked := hrevoked.trans h.leaseRevoked
  shutdown := fun hmem => h.shutdown (hphases.shutdown.mp hmem)

theorem Untouched.not_hasShutDown {P A : Type} {s : DiscoveryTasks P A} (h : s.Untouched) :
    ¬ s.HasShutDown := by
  intro hdown
  obtain ⟨⟨leaseId, hmem, -⟩, -⟩ := hdown
  rw [h.revokes] at hmem
  cases hmem

/-- A registered run that ends before its shutdown has begun. -/
theorem Moves.of_untouched {P A : Type} [SerdeJson] [DecidableEq P] [PeerId P] [Multiaddr A]
    {s t : DiscoveryTasks P A} {l : Label P} (h : t.Untouched) (hended : t.Ended)
    (hreg : t.Registered) (halive : t.keepAlive = s.keepAlive) (habandons : s.abandons l = true)
    (hleaves : s.leaves l = true ↔ t.point ≠ .panicked) : Moves s l t := by
  refine .left hended hreg halive ?_ ?_
  · rw [habandons, h.leaseRevoked]
    rfl
  · rw [hleaves]
    exact ⟨fun hpoint => ⟨hpoint, h.not_hasShutDown⟩, And.left⟩

/-- `signalSwarm` returns, and its message is sent if the swarm is there. -/
theorem signalSwarm_spec {P A : Type} (cause : ShutdownCause) (s : DiscoveryTasks P A) :
    (∃ ok, (s.signalSwarm cause).point = .returned ok) ∧
      (s.signalSwarm cause).controller.leaseId = s.controller.leaseId ∧
      (s.signalSwarm cause).revokes = s.revokes ∧
      (s.signalSwarm cause).leaseRevoked = s.leaseRevoked ∧
      (s.signalSwarm cause).keepAlive = s.keepAlive ∧
      (.shutdown ∈ (s.signalSwarm cause).controller.phases.swarmTx ↔
        .shutdown ∈ s.controller.phases.swarmTx ∨ s.swarmRx = true) := by
  unfold signalSwarm
  by_cases hswarm : s.swarmRx = true
  · rw [if_pos hswarm]
    exact ⟨⟨_, rfl⟩, rfl, rfl, rfl, rfl, by simp [hswarm]⟩
  · rw [if_neg hswarm]
    exact ⟨⟨_, rfl⟩, rfl, rfl, rfl, rfl, by simp [goTo, hswarm]⟩

/-- The status check of `initialize` is answered. -/
theorem status_moves {P A : Type} [SerdeJson] [DecidableEq P] [PeerId P] [Multiaddr A]
    {s t : DiscoveryTasks P A} (ok : Bool) (hinv : s.Inv)
    (h : s.step (.status ok) = some t) : Moves s (.status ok) t := by
  have hsame := DiscoveryPhases.Keeps.refl s.controller.phases
  cases hp : s.point <;> simp only [step, hp, reduceCtorEq] at h
  simp only [Inv, hp] at hinv
  obtain ⟨hreg, hrx, hirx, hunt⟩ := hinv
  have hl : s.leaves (.status ok) = false := by simp [leaves, hp]
  have ha : s.abandons (.status ok) = false := by simp [abandons, hp]
  cases ok with
  | true =>
    obtain rfl := Option.some.inj h
    exact .onward ⟨hreg, hrx, hirx, hunt.of_keeps rfl rfl hsame⟩
      (by simp [Ended, enter]) hl ha
  | false =>
    obtain rfl := Option.some.inj h
    exact .unregistered hreg (Or.inr ⟨false, rfl⟩) hl ha

/-- The grant of the lease is answered. -/
theorem leaseGrant_moves {P A : Type} [SerdeJson] [DecidableEq P] [PeerId P] [Multiaddr A]
    {s t : DiscoveryTasks P A} (leaseId : Option ℤ) (hinv : s.Inv)
    (h : s.step (.leaseGrant leaseId) = some t) : Moves s (.leaseGrant leaseId) t := by
  have hsame := DiscoveryPhases.Keeps.refl s.controller.phases
  cases hp : s.point <;> simp only [step, hp, reduceCtorEq] at h
  simp only [Inv, hp] at hinv
  obtain ⟨hreg, hrx, hirx, hunt⟩ := hinv
  have hl : s.leaves (.leaseGrant leaseId) = false := by simp [leaves, hp]
  have ha : s.abandons (.leaseGrant leaseId) = false := by simp [abandons, hp]
  cases leaseId with
  | some leaseId =>
    obtain rfl := Option.some.inj h
    exact .onward ⟨hreg, hrx, hirx, hunt.of_keeps rfl rfl hsame⟩ (by simp [Ended, goTo]) hl ha
  | none =>
    obtain rfl := Option.some.inj h
    exact .unregistered hreg (Or.inr ⟨false, rfl⟩) hl ha

/-- The opening of the keep-alive stream is answered. -/
theorem leaseKeepAlive_moves {P A : Type} [SerdeJson] [DecidableEq P] [PeerId P] [Multiaddr A]
    {s t : DiscoveryTasks P A} (ok : Bool) (hinv : s.Inv)
    (h : s.step (.leaseKeepAlive ok) = some t) : Moves s (.leaseKeepAlive ok) t := by
  have hsame := DiscoveryPhases.Keeps.refl s.controller.phases
  cases hp : s.point <;> simp only [step, hp, reduceCtorEq] at h
  simp only [Inv, hp] at hinv
  obtain ⟨hreg, hrx, hirx, hunt⟩ := hinv
  have hl : s.leaves (.leaseKeepAlive ok) = false := by simp [leaves, hp]
  have ha : s.abandons (.leaseKeepAlive ok) = false := by simp [abandons, hp]
  cases ok with
  | true =>
    obtain rfl := Option.some.inj h
    exact .onward ⟨hreg, hrx, hirx, hunt.of_keeps rfl rfl hsame⟩ (by simp [Ended, goTo]) hl ha
  | false =>
    obtain rfl := Option.some.inj h
    exact .unregistered hreg (Or.inr ⟨false, rfl⟩) hl ha

/-- The put of the registration is answered. -/
theorem put_moves {P A : Type} [SerdeJson] [DecidableEq P] [PeerId P] [Multiaddr A]
    {s t : DiscoveryTasks P A} (ok : Bool) (hinv : s.Inv)
    (h : s.step (.put ok) = some t) : Moves s (.put ok) t := by
  have hsame := DiscoveryPhases.Keeps.refl s.controller.phases
  cases hp : s.point <;> simp only [step, hp, reduceCtorEq] at h
  simp only [Inv, hp] at hinv
  obtain ⟨hreg, hrx, hirx, hunt⟩ := hinv
  have hl : s.leaves (.put ok) = false := by simp [leaves, hp]
  have ha : s.abandons (.put ok) = false := by simp [abandons, hp]
  cases ok with
  | true =>
    obtain rfl := Option.some.inj h
    exact .onward ⟨by simp [Registered, registered], hrx, hirx, hunt.of_keeps rfl rfl hsame⟩
      (by simp [Ended, registered]) hl ha
  | false =>
    obtain rfl := Option.some.inj h
    exact .unregistered hreg (Or.inr ⟨false, rfl⟩) hl ha

/-- The snapshot is answered, and converged on. -/
theorem get_moves {P A : Type} [SerdeJson] [DecidableEq P] [PeerId P] [Multiaddr A]
    {s t : DiscoveryTasks P A} (kvs : Option (List KeyValue)) (iter : Finset P → List P)
    (hinv : s.Inv)
    (h : s.step (.get kvs iter) = some t) : Moves s (.get kvs iter) t := by
  have hsame := DiscoveryPhases.Keeps.refl s.controller.phases
  cases hp : s.point <;> cases kvs <;> simp only [step, hp, reduceCtorEq] at h
  · simp only [Inv, hp] at hinv
    obtain ⟨hreg, hrx, hirx, hunt⟩ := hinv
    obtain rfl := Option.some.inj h
    exact .of_untouched (hunt.of_keeps rfl rfl hsame) (Or.inr ⟨false, rfl⟩) hreg rfl
      (by simp [abandons, hp]) (by simp [leaves, hp, goTo])
  · rename_i kvs
    simp only [Inv, hp] at hinv
    obtain ⟨hreg, hrx, hirx, hunt⟩ := hinv
    have hfollows := DiscoveryPhases.converge_follows iter kvs s.controller.phases
    have hl : s.leaves (.get (some kvs) iter) = true ↔
        kvs.findSome? s.controller.phases.kvStop = some .error := by simp [leaves, hp]
    have ha : s.abandons (.get (some kvs) iter) =
        (kvs.findSome? s.controller.phases.kvStop).isSome := by simp [abandons, hp]
    obtain ⟨phases, hstop, hout, hkeeps⟩ | ⟨phases, hstop, hout, hkeeps⟩ | ⟨hstop, hout⟩ :=
      hfollows.cases
    · rw [hout] at h
      obtain rfl := Option.some.inj h
      rw [hstop] at hl ha
      exact .onward ⟨hreg, hrx, hirx, hunt.of_keeps rfl rfl hkeeps⟩
        (by simp [Ended, converged]) (by simpa using hl) ha
    · rw [hout] at h
      obtain rfl := Option.some.inj h
      rw [hstop] at hl ha
      exact .of_untouched (hunt.of_keeps rfl rfl hkeeps) (Or.inr ⟨false, rfl⟩) hreg rfl ha
        (by simp [hl, goTo])
    · rw [hout] at h
      obtain rfl := Option.some.inj h
      rw [hstop] at hl ha
      exact .of_untouched (hunt.of_keeps rfl rfl hsame) (Or.inl rfl) hreg rfl ha
        (by simp [hl, goTo])

/-- The opening of the watch is answered, before the loop or in it. -/
theorem watch_moves {P A : Type} [SerdeJson] [DecidableEq P] [PeerId P] [Multiaddr A]
    {s t : DiscoveryTasks P A} (ok : Bool) (hinv : s.Inv)
    (h : s.step (.watch ok) = some t) : Moves s (.watch ok) t := by
  have hsame := DiscoveryPhases.Keeps.refl s.controller.phases
  cases hp : s.point <;> simp only [step, hp, reduceCtorEq] at h
  · simp only [Inv, hp] at hinv
    obtain ⟨hreg, hrx, hirx, hunt⟩ := hinv
    cases ok with
    | true =>
      simp only [takeReceivers, hrx, hirx, if_true] at h
      obtain rfl := Option.some.inj h
      exact .onward ⟨hreg, hunt.of_keeps rfl rfl hsame⟩ (by simp [Ended])
        (by simp [leaves, hp]) (by simp [abandons, hp])
    | false =>
      obtain rfl := Option.some.inj h
      exact .of_untouched (hunt.of_keeps rfl rfl hsame) (Or.inr ⟨false, rfl⟩) hreg rfl
        (by simp [abandons, hp]) (by simp [leaves, hp, goTo])
  · simp only [Inv, hp] at hinv
    obtain ⟨hreg, hunt⟩ := hinv
    cases ok with
    | true =>
      obtain rfl := Option.some.inj h
      exact .onward ⟨hreg, hunt.of_keeps rfl rfl hsame⟩ (by simp [Ended, goTo])
        (by simp [leaves, hp]) (by simp [abandons, hp])
    | false =>
      obtain rfl := Option.some.inj h
      exact .of_untouched (hunt.of_keeps rfl rfl hsame) (Or.inr ⟨false, rfl⟩) hreg rfl
        (by simp [abandons, hp]) (by simp [leaves, hp, goTo])

/-- The stream yields a message, its end or a failure. -/
theorem watchMessage_moves {P A : Type} [SerdeJson] [DecidableEq P] [PeerId P] [Multiaddr A]
    {s t : DiscoveryTasks P A} (message : Option (Option WatchResponse))
    (iter : Finset P → List P) (hinv : s.Inv)
    (h : s.step (.watchMessage message iter) = some t) :
    Moves s (.watchMessage message iter) t := by
  have hsame := DiscoveryPhases.Keeps.refl s.controller.phases
  cases hp : s.point <;> cases message <;> simp only [step, hp, reduceCtorEq] at h
  · simp only [Inv, hp] at hinv
    obtain ⟨hreg, hunt⟩ := hinv
    obtain rfl := Option.some.inj h
    exact .onward ⟨hreg, hunt.of_keeps rfl rfl hsame⟩ (by simp [Ended, goTo])
      (by simp [leaves, hp]) (by simp [abandons, hp])
  · rename_i message
    simp only [Inv, hp] at hinv
    obtain ⟨hreg, hunt⟩ := hinv
    have hfollows :=
      DiscoveryPhases.processWatchEvent_follows iter message s.controller.phases
    have hl : s.leaves (.watchMessage (some message) iter) = false := by simp [leaves, hp]
    have ha : s.abandons (.watchMessage (some message) iter) =
        decide (s.controller.phases.messageStop message = some .panicked) := by
      simp [abandons, hp]
    obtain ⟨phases, hstop, hout, hkeeps⟩ | ⟨phases, hstop, hout, hkeeps⟩ | ⟨hstop, hout⟩ :=
      hfollows.cases
    · rw [hout] at h
      obtain rfl := Option.some.inj h
      rw [hstop] at ha
      refine .onward ?_ ?_ hl ha
      · simp only [Inv, setPhases, hp]
        exact ⟨hreg, hunt.of_keeps rfl rfl hkeeps⟩
      · simp [Ended, setPhases, hp]
    · rw [hout] at h
      obtain rfl := Option.some.inj h
      rw [hstop] at ha
      exact .onward ⟨hreg, hunt.of_keeps rfl rfl hkeeps⟩ (by simp [Ended, goTo]) hl ha
    · rw [hout] at h
      obtain rfl := Option.some.inj h
      rw [hstop] at ha
      exact .of_untouched (hunt.of_keeps rfl rfl hsame) (Or.inl rfl) hreg rfl ha
        (by simp [hl, goTo])

/-- The loop is woken by the shutdown channel. -/
theorem recvShutdown_moves {P A : Type} [SerdeJson] [DecidableEq P] [PeerId P] [Multiaddr A]
    {s t : DiscoveryTasks P A} (hinv : s.Inv)
    (h : s.step .recvShutdown = some t) : Moves s .recvShutdown t := by
  have hsame := DiscoveryPhases.Keeps.refl s.controller.phases
  cases hp : s.point <;> simp only [step, hp, reduceCtorEq] at h
  simp only [Inv, hp] at hinv
  obtain ⟨hreg, hunt⟩ := hinv
  obtain ⟨leaseId, hlease⟩ := Option.ne_none_iff_exists'.mp hreg
  split_ifs at h with hqueued
  simp only [shutDown, hlease] at h
  obtain rfl := Option.some.inj h
  exact .onward ⟨hlease, hunt.of_keeps rfl rfl hsame⟩ (by simp [Ended, enter])
    (by simp [leaves, hp]) (by simp [abandons, hp])

/-- The loop is woken by the keep-alive task. -/
theorem recvInternalShutdown_moves {P A : Type} [SerdeJson] [DecidableEq P] [PeerId P] [Multiaddr A]
    {s t : DiscoveryTasks P A} (hinv : s.Inv)
    (h : s.step .recvInternalShutdown = some t) : Moves s .recvInternalShutdown t := by
  have hsame := DiscoveryPhases.Keeps.refl s.controller.phases
  cases hp : s.point <;> simp only [step, hp, reduceCtorEq] at h
  simp only [Inv, hp] at hinv
  obtain ⟨hreg, hunt⟩ := hinv
  obtain ⟨leaseId, hlease⟩ := Option.ne_none_iff_exists'.mp hreg
  split_ifs at h with hqueued
  simp only [shutDown, hlease] at h
  obtain rfl := Option.some.inj h
  exact .onward ⟨hlease, hunt.of_keeps rfl rfl hsame⟩ (by simp [Ended, enter])
    (by simp [leaves, hp]) (by simp [abandons, hp])

/-- The delay before the watch is opened again. -/
theorem reconnectDelay_moves {P A : Type} [SerdeJson] [DecidableEq P] [PeerId P] [Multiaddr A]
    {s t : DiscoveryTasks P A} (hinv : s.Inv)
    (h : s.step .reconnectDelay = some t) : Moves s .reconnectDelay t := by
  have hsame := DiscoveryPhases.Keeps.refl s.controller.phases
  cases hp : s.point <;> simp only [step, hp, reduceCtorEq] at h
  simp only [Inv, hp] at hinv
  obtain ⟨hreg, hunt⟩ := hinv
  obtain rfl := Option.some.inj h
  exact .onward ⟨hreg, hunt.of_keeps rfl rfl hsame⟩ (by simp [Ended, goTo])
    (by simp [leaves, hp]) (by simp [abandons, hp])

/-- The revoke of the lease is answered. -/
theorem leaseRevoke_moves {P A : Type} [SerdeJson] [DecidableEq P] [PeerId P] [Multiaddr A]
    {s t : DiscoveryTasks P A} (revoked : Bool) (hinv : s.Inv)
    (h : s.step (.leaseRevoke revoked) = some t) : Moves s (.leaseRevoke revoked) t := by
  cases hp : s.point <;> simp only [step, hp, reduceCtorEq] at h
  rename_i leaseId cause
  simp only [Inv, hp] at hinv
  obtain ⟨hlease, hunt⟩ := hinv
  obtain rfl := Option.some.inj h
  exact .onward ⟨⟨leaseId, by simp, hlease⟩, hunt.shutdown⟩ (by simp [Ended])
    (by simp [leaves, hp]) (by simp [abandons, hp])

/-- The shutdown comes to its end. -/
theorem deletePropagation_moves {P A : Type} [SerdeJson] [DecidableEq P] [PeerId P] [Multiaddr A]
    {s t : DiscoveryTasks P A} (hinv : s.Inv)
    (h : s.step .deletePropagation = some t) : Moves s .deletePropagation t := by
  have hsame := DiscoveryPhases.Keeps.refl s.controller.phases
  cases hp : s.point <;> simp only [step, hp, reduceCtorEq] at h
  rename_i cause
  simp only [Inv, hp] at hinv
  obtain ⟨⟨leaseId, hmem, hlease⟩, hshutdown⟩ := hinv
  have hreg : s.Registered := by simp [Registered, hlease]
  have ha : s.abandons .deletePropagation = !s.leaseRevoked := by simp [abandons, hp]
  have hl : s.leaves .deletePropagation = !s.swarmRx := by simp [leaves, hp]
  obtain rfl := Option.some.inj h
  obtain ⟨⟨ok, hpoint⟩, hsameLease, hrevokes, hrevoked, halive, hsent⟩ := s.signalSwarm_spec cause
  have hdone : HasShutDown (s.signalSwarm cause) ↔ s.swarmRx = true := by
    unfold HasShutDown
    rw [hrevokes, hsameLease, hsent]
    constructor
    · intro hdown
      exact hdown.2.resolve_left hshutdown
    · intro hswarm
      exact ⟨⟨leaseId, hmem, hlease⟩, Or.inr hswarm⟩
  refine .left (Or.inr ⟨ok, hpoint⟩) ?_ halive (by rw [ha, hrevoked]) ?_
  · unfold Registered
    rwa [hsameLease]
  · rw [hl, hdone, hpoint]
    simp

/-- A step of the keep-alive task or of the holders of the other ends of the channels. -/
theorem beside_moves {P A : Type} [SerdeJson] [DecidableEq P] [PeerId P] [Multiaddr A]
    {s t : DiscoveryTasks P A} {l : Label P}
    (hlabel : (∃ round, l = .keepAlive round) ∨ l = .sendShutdown ∨ l = .dropShutdownTx ∨
      l = .dropSwarmRx) (h : s.step l = some t) : Moves s l t := by
  have hl : s.leaves l = false := by
    obtain ⟨round, rfl⟩ | rfl | rfl | rfl := hlabel <;> cases hp : s.point <;> simp [leaves, hp]
  have ha : s.abandons l = false := by
    obtain ⟨round, rfl⟩ | rfl | rfl | rfl := hlabel <;> cases hp : s.point <;> simp [abandons, hp]
  obtain ⟨round, rfl⟩ | rfl | rfl | rfl := hlabel
  · rw [step_keepAlive] at h
    split_ifs at h
    · obtain rfl := Option.some.inj h
      exact .beside rfl rfl rfl rfl id hl ha
    · obtain rfl := Option.some.inj h
      exact .beside rfl rfl rfl rfl (fun _ => rfl) hl ha
  · rw [step_sendShutdown] at h
    split_ifs at h
    obtain rfl := Option.some.inj h
    exact .beside rfl rfl rfl rfl id hl ha
  · rw [step_dropShutdownTx] at h
    obtain rfl := Option.some.inj h
    exact .beside rfl rfl rfl rfl id hl ha
  · rw [step_dropSwarmRx] at h
    obtain rfl := Option.some.inj h
    exact .beside rfl rfl rfl rfl id hl ha

theorem step_moves {P A : Type} [SerdeJson] [DecidableEq P] [PeerId P] [Multiaddr A]
    {s t : DiscoveryTasks P A} {l : Label P} (hinv : s.Inv) (h : s.step l = some t) :
    Moves s l t := by
  cases l with
  | status ok => exact status_moves ok hinv h
  | leaseGrant leaseId => exact leaseGrant_moves leaseId hinv h
  | leaseKeepAlive ok => exact leaseKeepAlive_moves ok hinv h
  | put ok => exact put_moves ok hinv h
  | get kvs iter => exact get_moves kvs iter hinv h
  | watch ok => exact watch_moves ok hinv h
  | watchMessage message iter => exact watchMessage_moves message iter hinv h
  | recvShutdown => exact recvShutdown_moves hinv h
  | recvInternalShutdown => exact recvInternalShutdown_moves hinv h
  | reconnectDelay => exact reconnectDelay_moves hinv h
  | leaseRevoke revoked => exact leaseRevoke_moves revoked hinv h
  | deletePropagation => exact deletePropagation_moves hinv h
  | keepAlive round => exact beside_moves (Or.inl ⟨round, rfl⟩) h
  | sendShutdown => exact beside_moves (Or.inr (Or.inl rfl)) h
  | dropShutdownTx => exact beside_moves (Or.inr (Or.inr (Or.inl rfl))) h
  | dropSwarmRx => exact beside_moves (Or.inr (Or.inr (Or.inr rfl))) h

theorem Moves.inv {P A : Type} [SerdeJson] [DecidableEq P] [PeerId P] [Multiaddr A]
    {s t : DiscoveryTasks P A} {l : Label P} (h : Moves s l t) (hinv : s.Inv) : t.Inv := by
  have hended : t.Ended → t.Inv := by
    intro hended
    unfold Inv
    obtain hp | ⟨ok, hp⟩ := hended
    · rw [hp]
      trivial
    · rw [hp]
      trivial
  cases h with
  | beside hcontroller hpoint hrevokes hrevoked hstopped hleaves habandons =>
    have huntouched : s.Untouched → t.Untouched := by
      intro hunt
      refine hunt.of_keeps hrevokes hrevoked ?_
      rw [hcontroller]
      exact DiscoveryPhases.Keeps.refl _
    unfold Inv Registered at hinv ⊢
    rw [hpoint, hcontroller, hrevokes]
    cases hp : s.point <;> simp only [hp] at hinv ⊢ <;> simp_all
  | onward hinv hgoes hleaves habandons => exact hinv
  | unregistered hnone hended' hleaves habandons => exact hended hended'
  | left hended' hreg halive habandons hleaves => exact hended hended'

/-- A step keeps the promise of the registration exactly when the keep-alive task
has stopped or the run does not leave by it. -/
theorem Moves.takesRegistration_iff {P A : Type} [SerdeJson] [DecidableEq P] [PeerId P]
    [Multiaddr A] {s t : DiscoveryTasks P A} {l : Label P} (h : Moves s l t)
    (hs : s.TakesRegistration) : t.TakesRegistration ↔ s.LeavesStopped l := by
  cases h with
  | beside hcontroller hpoint hrevokes hrevoked hstopped hleaves habandons =>
    refine iff_of_true ?_ ?_
    · intro ok hok hreg
      unfold Registered at hreg
      rw [hcontroller] at hreg
      obtain hdown | hgone := hs ok (hpoint ▸ hok) hreg
      · left
        unfold HasShutDown at hdown ⊢
        rwa [hcontroller, hrevokes]
      · exact Or.inr (hstopped hgone)
    · simp [LeavesStopped, hleaves]
  | onward hinv hgoes hleaves habandons =>
    refine iff_of_true ?_ ?_
    · intro ok hok hreg
      exact absurd (Or.inr ⟨ok, hok⟩) hgoes
    · simp [LeavesStopped, hleaves]
  | unregistered hnone hended hleaves habandons =>
    refine iff_of_true ?_ ?_
    · intro ok hok hreg
      exact absurd hreg hnone
    · simp [LeavesStopped, hleaves]
  | left hended hreg halive habandons hleaves =>
    unfold LeavesStopped
    rw [hleaves, ← halive]
    constructor
    · intro ht hleft
      obtain ⟨hpoint, hsilent⟩ := hleft
      obtain ⟨ok, hok⟩ := hended.resolve_left hpoint
      exact (ht ok hok hreg).resolve_left hsilent
    · intro hstopped ok hok _
      by_cases hdown : t.HasShutDown
      · exact Or.inl hdown
      · exact Or.inr (hstopped ⟨by simp [hok], hdown⟩)

/-- A step leaves no refreshed lease behind exactly when the keep-alive task has
stopped or the run does not abandon its lease by it. -/
theorem Moves.noneRefreshes_iff {P A : Type} [SerdeJson] [DecidableEq P] [PeerId P]
    [Multiaddr A] {s t : DiscoveryTasks P A} {l : Label P} (h : Moves s l t)
    (hs : s.NoneRefreshes) : t.NoneRefreshes ↔ s.AbandonsStopped l := by
  cases h with
  | beside hcontroller hpoint hrevokes hrevoked hstopped hleaves habandons =>
    refine iff_of_true ?_ ?_
    · intro hended hreg
      unfold Ended at hended
      unfold Registered at hreg
      rw [hpoint] at hended
      rw [hcontroller] at hreg
      rw [hrevoked]
      exact (hs hended hreg).imp id hstopped
    · simp [AbandonsStopped, habandons]
  | onward hinv hgoes hleaves habandons =>
    exact iff_of_true (fun hended => absurd hended hgoes) (by simp [AbandonsStopped, habandons])
  | unregistered hnone hended hleaves habandons =>
    exact iff_of_true (fun _ hreg => absurd hreg hnone) (by simp [AbandonsStopped, habandons])
  | left hended hreg halive habandons hleaves =>
    unfold AbandonsStopped NoneRefreshes
    rw [habandons, halive]
    constructor
    · intro ht hheld
      exact (ht hended hreg).resolve_left (by simpa using hheld)
    · intro hstopped _ _
      cases hrevoked : t.leaseRevoked with
      | true => exact Or.inl rfl
      | false => exact Or.inr (hstopped (by simp [hrevoked]))

/-- Every run that leaves only with the keep-alive task stopped takes its registration
along, and in every run that abandons its lease only then no task refreshes it. A
next step keeps this exactly when it meets the condition too. -/
theorem registration_taken {P A : Type} [SerdeJson] [DecidableEq P] [PeerId P] [Multiaddr A]
    (clusterId : String) (localPeerId : P) (localAddr : A) (logDebug : Bool)
    (labels : List (Label P)) (s : DiscoveryTasks P A) :
    (Run (Guarded LeavesStopped (StepOf step)) (new clusterId localPeerId localAddr logDebug)
        labels s →
      s.TakesRegistration ∧
        ∀ l t, s.step l = some t → (t.TakesRegistration ↔ s.LeavesStopped l)) ∧
    (Run (Guarded AbandonsStopped (StepOf step)) (new clusterId localPeerId localAddr logDebug)
        labels s →
      s.NoneRefreshes ∧
        ∀ l t, s.step l = some t → (t.NoneRefreshes ↔ s.AbandonsStopped l)) := by
  have hinv : Inv (new clusterId localPeerId localAddr logDebug) :=
    ⟨fun hreg => hreg rfl, rfl, rfl, rfl, rfl, by simp [new, DiscoveryPhases.new]⟩
  constructor
  · intro hrun
    have hboth : s.Inv ∧ s.TakesRegistration := by
      refine hrun.invariant (I := fun s => s.Inv ∧ s.TakesRegistration) ?_ ?_
      · intro s l t hs hst
        have hmoves := step_moves hs.1 hst.2
        exact ⟨hmoves.inv hs.1, (hmoves.takesRegistration_iff hs.2).mpr hst.1⟩
      · exact ⟨hinv, fun ok hok => by cases hok⟩
    exact ⟨hboth.2, fun l t hst => (step_moves hboth.1 hst).takesRegistration_iff hboth.2⟩
  · intro hrun
    have hboth : s.Inv ∧ s.NoneRefreshes := by
      refine hrun.invariant (I := fun s => s.Inv ∧ s.NoneRefreshes) ?_ ?_
      · intro s l t hs hst
        have hmoves := step_moves hs.1 hst.2
        exact ⟨hmoves.inv hs.1, (hmoves.noneRefreshes_iff hs.2).mpr hst.1⟩
      · refine ⟨hinv, fun hended => ?_⟩
        obtain hp | ⟨ok, hp⟩ := hended
        · cases hp
        · cases hp
    exact ⟨hboth.2, fun l t hst => (step_moves hboth.1 hst).noneRefreshes_iff hboth.2⟩

/-- A run that is told to shut down takes its registration along. -/
theorem registration_taken_shutdown :
    let _ : SerdeJson := SerdeJson.knowing []
    ∃ (localPeerId : Base58Text) (labels : List (Label Base58Text))
      (s : DiscoveryTasks Base58Text Ip4Text),
      Run (StepOf step) (new "test" localPeerId ⟨"/ip4/10.0.0.1/tcp/5000"⟩ true) labels s ∧
      s.point = .returned true ∧ s.keepAlive = .running ∧ s.TakesRegistration ∧
      s.NoneRefreshes := by
  intro _
  let a := peerOf "12D3KooWAAAAAAAAAAAAAAAAAAAAAAAAAAAAAAAAAAAAAAAAAAAA"
  let s₀ : DiscoveryTasks Base58Text Ip4Text := new "test" a ⟨"/ip4/10.0.0.1/tcp/5000"⟩ true
  let labels : List (Label Base58Text) :=
    [.status true, .leaseGrant (some 7), .leaseKeepAlive true, .put true,
      .get (some []) (fun _ => [a]), .watch true, .sendShutdown, .recvShutdown,
      .leaseRevoke true, .deletePropagation]
  let ok : DiscoveryTasks Base58Text Ip4Text → Label Base58Text → Prop :=
    fun s l => s.LeavesStopped l ∧ s.AbandonsStopped l
  let _ : ∀ s l, Decidable (ok s l) := fun s l => inferInstanceAs (Decidable (_ ∧ _))
  obtain ⟨s, hrun, hpoint, halive⟩ : ∃ s ∈ labels.foldlM (guardedNext ok step) s₀,
      s.point = .returned true ∧ s.keepAlive = .running := by decide +kernel
  have hboth := Run.guarded_of_foldlM hrun
  have htaken := registration_taken "test" a ⟨"/ip4/10.0.0.1/tcp/5000"⟩ true labels s
  refine ⟨a, labels, s, hboth.mono (fun s l t h => h.2), hpoint, halive, ?_, ?_⟩
  · exact (htaken.1 (hboth.mono (fun s l t h => ⟨h.1.1, h.2⟩))).1
  · exact (htaken.2 (hboth.mono (fun s l t h => ⟨h.1.2, h.2⟩))).1

/-- The read of the peers fails while the keep-alive task runs: the run returns, and
the task goes on refreshing the lease. -/
theorem not_registration_taken : ¬∀ [SerdeJson] (clusterId : String) (localPeerId : Base58Text)
    (localAddr : Ip4Text) (logDebug : Bool) (labels : List (Label Base58Text))
    (s : DiscoveryTasks Base58Text Ip4Text),
    Run (StepOf step) (new clusterId localPeerId localAddr logDebug) labels s →
    s.TakesRegistration ∧ s.NoneRefreshes := by
  intro hclaim
  let _ : SerdeJson := SerdeJson.knowing []
  let a := peerOf "12D3KooWAAAAAAAAAAAAAAAAAAAAAAAAAAAAAAAAAAAAAAAAAAAA"
  let s₀ : DiscoveryTasks Base58Text Ip4Text := new "test" a ⟨"/ip4/10.0.0.1/tcp/5000"⟩ true
  let labels : List (Label Base58Text) :=
    [.status true, .leaseGrant (some 7), .leaseKeepAlive true, .put true,
      .get none (fun _ => [a]), .keepAlive .ok]
  obtain ⟨s, hrun, hpoint, halive, hlease, hrevokes⟩ : ∃ s ∈ labels.foldlM step s₀,
      s.point = .returned false ∧ s.keepAlive = .running ∧
        s.controller.leaseId.isSome = true ∧ s.revokes = [] := by decide +kernel
  have hreg : s.Registered := Option.isSome_iff_ne_none.mp hlease
  obtain ⟨⟨leaseId, hmem, -⟩, -⟩ | hstopped :=
    (hclaim "test" a _ true labels s (Run.of_foldlM hrun)).1 false hpoint hreg
  · rw [hrevokes] at hmem
    cases hmem
  · rw [halive] at hstopped
    cases hstopped

end DiscoveryTasks
end Neolaas
