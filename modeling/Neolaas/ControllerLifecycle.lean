import Neolaas.MaintenanceLoop

/-!
# The lifecycle of the discovery controller

The controller goes through its states in the order of the protocol and back to none.
The readiness of its node and the signal to the machine manager tell that it has
converged, its lease is revoked once at most, and nothing follows the message that
shuts down the swarm.
-/
namespace Neolaas
open LabelledRuns

namespace Outcome

/-- The state that the outcome leaves, if it leaves one. -/
def All {σ : Type} (I : σ → Prop) : Outcome σ → Prop
  | .ok s => I s
  | .error s => I s
  | .panicked => True

theorem all_forEach {σ β : Type} {step : β → σ → Outcome σ} {I : σ → Prop}
    (hstep : ∀ b s, I s → (step b s).All I) (bs : List β) (s : σ) (hs : I s) :
    (forEach step bs s).All I := by
  induction bs generalizing s with
  | nil => exact hs
  | cons b bs ih =>
    have hb := hstep b s hs
    unfold forEach
    cases hout : step b s with
    | ok t =>
      rw [hout] at hb
      exact ih t hb
    | error t =>
      rw [hout] at hb
      exact hb
    | panicked => trivial

end Outcome

namespace DiscoveryPhases

/-- What following etcd adds to the channels of the phases. -/
structure Feeds {P A : Type} (phases next : DiscoveryPhases P A) : Prop where
  readiness : next.readiness = phases.readiness
  commands : ∃ more, next.swarmTx = phases.swarmTx ++ more ∧ .shutdown ∉ more
  lists : phases.shardingTx <+: next.shardingTx

theorem Feeds.refl {P A : Type} (self : DiscoveryPhases P A) : self.Feeds self :=
  ⟨rfl, ⟨[], by simp, by simp⟩, List.prefix_refl _⟩

theorem Feeds.trans {P A : Type} {self mid next : DiscoveryPhases P A} (h : self.Feeds mid)
    (h' : mid.Feeds next) : self.Feeds next := by
  obtain ⟨first, hfirst, hquiet⟩ := h.commands
  obtain ⟨second, hsecond, hquiet'⟩ := h'.commands
  refine ⟨h'.readiness.trans h.readiness, ⟨first ++ second, ?_, ?_⟩, h.lists.trans h'.lists⟩
  · rw [hsecond, hfirst, List.append_assoc]
  · intro hmem
    obtain hmem | hmem := List.mem_append.mp hmem
    · exact hquiet hmem
    · exact hquiet' hmem

theorem feeds_addPeer {P A : Type} [DecidableEq P] (peerId : P) (addr : A)
    (self : DiscoveryPhases P A) : self.Feeds (self.addPeer peerId addr) :=
  ⟨rfl, ⟨[.addPeer peerId addr], rfl, by simp⟩, List.prefix_refl _⟩

theorem feeds_removePeer {P A : Type} [DecidableEq P] (peerId : P)
    (self : DiscoveryPhases P A) : self.Feeds (self.removePeer peerId) :=
  ⟨rfl, ⟨[.removePeer peerId], rfl, by simp⟩, List.prefix_refl _⟩

theorem feeds_notifySharding {P A : Type} (iter : Finset P → List P)
    (self : DiscoveryPhases P A) : self.Feeds (self.notifySharding iter) :=
  ⟨rfl, ⟨[], by simp [notifySharding], by simp⟩, List.prefix_append ..⟩

theorem debugPeer_feeds {P A : Type} [PeerId P] {start : DiscoveryPhases P A} (peerId : P)
    (self : DiscoveryPhases P A) {next : DiscoveryPhases P A} (hnext : start.Feeds next) :
    (self.debugPeer peerId next).All start.Feeds := by
  unfold debugPeer
  split_ifs
  · trivial
  · exact hnext

theorem convergeKv_feeds {P A : Type} [SerdeJson] [DecidableEq P] [PeerId P] [Multiaddr A]
    {start : DiscoveryPhases P A} (kv : KeyValue) (self : DiscoveryPhases P A)
    (h : start.Feeds self) : (convergeKv kv self).All start.Feeds := by
  unfold convergeKv
  cases kv.keyStr with
  | none => exact h
  | some key =>
    cases kv.valueStr with
    | none => exact h
    | some value =>
      cases hp : self.decodePeer key value with
      | none =>
        simp only [hp]
        exact h
      | some found =>
        simp only [hp]
        exact debugPeer_feeds found.1 self (h.trans (feeds_addPeer found.1 found.2 self))

theorem processEvent_feeds {P A : Type} [SerdeJson] [DecidableEq P] [PeerId P] [Multiaddr A]
    {start : DiscoveryPhases P A} (iter : Finset P → List P) (event : WatchEvent)
    (self : DiscoveryPhases P A) (h : start.Feeds self) :
    (processEvent iter event self).All start.Feeds := by
  obtain ⟨eventType, kv⟩ := event
  cases kv with
  | none => cases eventType <;> exact h
  | some kv =>
    cases eventType with
    | put =>
      simp only [processEvent]
      cases kv.keyStr with
      | none => exact h
      | some key =>
        cases kv.valueStr with
        | none => exact h
        | some value =>
          cases hp : self.decodePeer key value with
          | none =>
            simp only [hp]
            exact h
          | some found =>
            simp only [hp]
            refine debugPeer_feeds found.1 self (h.trans ?_)
            exact (feeds_addPeer found.1 found.2 self).trans (feeds_notifySharding iter _)
    | delete =>
      simp only [processEvent]
      cases kv.keyStr with
      | none => exact h
      | some key =>
        cases hp : self.peerOfKey key with
        | none =>
          simp only [hp]
          exact h
        | some peerId =>
          simp only [hp]
          refine debugPeer_feeds peerId self (h.trans ?_)
          exact (feeds_removePeer peerId self).trans (feeds_notifySharding iter _)

theorem processWatchEvent_feeds {P A : Type} [SerdeJson] [DecidableEq P] [PeerId P]
    [Multiaddr A] (iter : Finset P → List P) (message : Option WatchResponse)
    (self : DiscoveryPhases P A) : (processWatchEvent iter message self).All self.Feeds := by
  cases message with
  | none => exact Feeds.refl self
  | some resp =>
    simp only [processWatchEvent]
    split_ifs
    · exact Feeds.refl self
    · exact Outcome.all_forEach (processEvent_feeds iter) resp.events self (Feeds.refl self)

/-- Converging makes the node ready, with a list for sharding, or leaves it as it was. -/
theorem converge_feeds {P A : Type} [SerdeJson] [DecidableEq P] [PeerId P] [Multiaddr A]
    (iter : Finset P → List P) (kvs : List KeyValue) (self : DiscoveryPhases P A) :
    (∃ next, self.Feeds next ∧ converge iter kvs self = .ok (next.convergeDone iter)) ∨
      (∃ next, self.Feeds next ∧ converge iter kvs self = .error next) ∨
      converge iter kvs self = .panicked := by
  have hall := Outcome.all_forEach convergeKv_feeds kvs self (Feeds.refl self)
  unfold converge
  cases hout : Outcome.forEach convergeKv kvs self with
  | ok next =>
    rw [hout] at hall
    exact Or.inl ⟨next, hall, rfl⟩
  | error next =>
    rw [hout] at hall
    exact Or.inr (Or.inl ⟨next, hall, rfl⟩)
  | panicked => exact Or.inr (Or.inr rfl)

end DiscoveryPhases

/-- The order of the protocol. -/
def DiscoveryState.protocol : List DiscoveryState :=
  [.initialization, .registration, .convergence, .maintenance, .terminating]

/-- The place of a state in the protocol. -/
def DiscoveryState.phase : DiscoveryState → ℕ
  | initialization => 0
  | registration => 1
  | convergence => 2
  | maintenance => 3
  | terminating => 4

/-- The state in which the controller waits there. -/
def RunPoint.state : RunPoint → Option DiscoveryState
  | status => some .initialization
  | leaseGrant | leaseKeepAlive _ | put _ => some .registration
  | get => some .convergence
  | watch | select | reconnectDelay | rewatch => some .maintenance
  | leaseRevoke _ _ | deletePropagation _ => some .terminating
  | returned _ | panicked => none

/-- What the shutdown that is under way was caused by. -/
def RunPoint.cause : RunPoint → Option ShutdownCause
  | leaseRevoke _ cause | deletePropagation cause => some cause
  | _ => none

/-- A holder of the shutdown sender asks for a shutdown. -/
def DiscoveryTasks.Label.asks {P : Type} : DiscoveryTasks.Label P → Bool
  | sendShutdown => true
  | _ => false

/-- `readiness_check`, by its status code. -/
def readinessCheck {P A : Type} (s : DiscoveryTasks P A) : ℕ :=
  if s.controller.phases.readiness then 200 else 503

/-- A controller with the states that it has been in, in order, and whether it has been
asked to shut down. -/
structure LivedTasks (P A : Type) where
  tasks : DiscoveryTasks P A
  states : List DiscoveryState
  asked : Bool

namespace LivedTasks
open DiscoveryTasks

def start {P A : Type} (clusterId : String) (localPeerId : P) (localAddr : A) (logDebug : Bool) :
    LivedTasks P A where
  tasks := new clusterId localPeerId localAddr logDebug
  states := [.initialization]
  asked := false

def step {P A : Type} [SerdeJson] [DecidableEq P] [PeerId P] [Multiaddr A]
    (s : LivedTasks P A) (l : Label P) : Option (LivedTasks P A) :=
  (s.tasks.step l).map (fun t => {
    tasks := t
    states := if t.controller.state = s.tasks.controller.state then s.states
      else s.states ++ [t.controller.state]
    asked := s.asked || l.asks })

/-- A signal was sent on the shutdown channel, or its senders are all gone. -/
def ToldToStop {P A : Type} (s : LivedTasks P A) : Prop :=
  s.asked = true ∨ s.tasks.shutdownTx = false

end LivedTasks

namespace DiscoveryTasks

/-- The message that shuts down the swarm has been sent last, or not at all. -/
def SaysLast {P A : Type} (s : DiscoveryTasks P A) : Prop :=
  .shutdown ∉ s.controller.phases.swarmTx ∨
    s.controller.state = .terminating ∧ (∃ ok, s.point = .returned ok) ∧
    ∃ commands, .shutdown ∉ commands ∧
      s.controller.phases.swarmTx = commands ++ [.shutdown]

/-- The revoke of the lease, once it was attempted. -/
def RevokesOnce {P A : Type} (s : DiscoveryTasks P A) : Prop :=
  s.revokes = [] ∨ s.controller.state = .terminating ∧ s.revokes = s.controller.leaseId.toList

/-- A step that neither ends convergence nor belongs to the shutdown. -/
structure Onward {P A : Type} (s : DiscoveryTasks P A) (l : Label P) (t : DiscoveryTasks P A) :
    Prop where
  feeds : s.controller.phases.Feeds t.controller.phases
  signal : t.convergenceSignal = s.convergenceSignal
  sender : t.controller.convergenceTx = s.controller.convergenceTx
  revokes : t.revokes = s.revokes
  lease : s.controller.state = .terminating → t.controller.leaseId = s.controller.leaseId
  state : t.controller.state = s.controller.state ∨
    t.controller.state.phase = s.controller.state.phase + 1 ∧ t.controller.state ≠ .maintenance
  waits : ∀ state, t.point.state = some state → t.controller.state = state
  stays : (∃ ok, s.point = .returned ok) → t.point = s.point ∧ t.controller = s.controller
  failed : t.point = .returned true → s.point = .returned true
  queued : 0 < t.shutdown → 0 < s.shutdown ∨ l.asks = true
  senders : s.shutdownTx = false → t.shutdownTx = false
  cause : t.point.cause = some .external →
    s.point.cause = some .external ∨ 0 < s.shutdown ∨ s.shutdownTx = false

/-- What a step does to the lifecycle. -/
inductive Proceeds {P A : Type} (s : DiscoveryTasks P A) (l : Label P)
    (t : DiscoveryTasks P A) : Prop
  | onward (h : Onward s l t)
  | converges (next : DiscoveryPhases P A) (iter : Finset P → List P) (hpoint : s.point = .get)
      (hfeeds : s.controller.phases.Feeds next)
      (hnext : t = (s.setPhases (next.convergeDone iter)).converged)
  | revokes (leaseId : ℤ) (cause : ShutdownCause) (revoked : Bool)
      (hpoint : s.point = .leaseRevoke leaseId cause)
      (hnext : t = { s with
        revokes := s.revokes ++ [leaseId]
        leaseRevoked := s.leaseRevoked || revoked
        point := .deletePropagation cause })
  | tells (cause : ShutdownCause) (hpoint : s.point = .deletePropagation cause)
      (hnext : t = s.signalSwarm cause)

/-- A step beside the controller. -/
theorem Onward.beside {P A : Type} {s t : DiscoveryTasks P A} {l : Label P}
    (hcontroller : t.controller = s.controller) (hpoint : t.point = s.point)
    (hsignal : t.convergenceSignal = s.convergenceSignal) (hrevokes : t.revokes = s.revokes)
    (hqueued : 0 < t.shutdown → 0 < s.shutdown ∨ l.asks = true)
    (hsenders : s.shutdownTx = false → t.shutdownTx = false)
    (hwaits : ∀ state, s.point.state = some state → s.controller.state = state) :
    Onward s l t := by
  constructor
  · rw [hcontroller]
    exact .refl _
  · exact hsignal
  · rw [hcontroller]
  · exact hrevokes
  · intro _
    rw [hcontroller]
  · rw [hcontroller]
    exact Or.inl rfl
  · rw [hcontroller, hpoint]
    exact hwaits
  · intro _
    exact ⟨hpoint, hcontroller⟩
  · rw [hpoint]
    exact id
  · exact hqueued
  · exact hsenders
  · rw [hpoint]
    exact Or.inl

/-- The controller waits elsewhere, in the same state. -/
theorem Onward.goTo {P A : Type} (s : DiscoveryTasks P A) {l : Label P}
    {phases : DiscoveryPhases P A}
    (hfeeds : s.controller.phases.Feeds phases) {point : RunPoint}
    (hwaits : ∀ state, s.point.state = some state → s.controller.state = state)
    (hstate : point.state = s.point.state ∨ point.state = none)
    (hrunning : ∀ ok, s.point ≠ .returned ok) (hpoint : point ≠ .returned true)
    (hcause : point.cause = s.point.cause) : Onward s l ((s.setPhases phases).goTo point) where
  feeds := hfeeds
  signal := rfl
  sender := rfl
  revokes := rfl
  lease := fun _ => rfl
  state := Or.inl rfl
  waits := by
    intro state hsome
    obtain hsame | hnone := hstate
    · exact hwaits state (hsame.symm.trans hsome)
    · cases hnone.symm.trans hsome
  stays := fun ⟨ok, hok⟩ => absurd hok (hrunning ok)
  failed := fun hok => absurd hok hpoint
  queued := Or.inl
  senders := id
  cause := fun hexternal => Or.inl (hcause.symm.trans hexternal)

/-- The run of the controller goes on to the next state. -/
theorem Onward.enter {P A : Type} {s t : DiscoveryTasks P A} {l : Label P}
    (hphases : t.controller.phases = s.controller.phases)
    (hsignal : t.convergenceSignal = s.convergenceSignal)
    (hsender : t.controller.convergenceTx = s.controller.convergenceTx)
    (hrevokes : t.revokes = s.revokes)
    (hlease : s.controller.state = .terminating → t.controller.leaseId = s.controller.leaseId)
    (hstate : t.controller.state.phase = s.controller.state.phase + 1 ∧
      t.controller.state ≠ .maintenance)
    (hwaits : t.point.state = some t.controller.state) (hrunning : ∀ ok, s.point ≠ .returned ok)
    (hqueued : t.shutdown ≤ s.shutdown) (hsenders : t.shutdownTx = s.shutdownTx)
    (hcause : t.point.cause = some .external → 0 < s.shutdown ∨ s.shutdownTx = false) :
    Onward s l t := by
  constructor
  · rw [hphases]
    exact .refl _
  · exact hsignal
  · exact hsender
  · exact hrevokes
  · exact hlease
  · exact Or.inr hstate
  · intro state hsome
    exact Option.some.inj (hwaits.symm.trans hsome)
  · rintro ⟨ok, hok⟩
    exact absurd hok (hrunning ok)
  · intro hok
    rw [hok] at hwaits
    cases hwaits
  · exact fun hpending => Or.inl (hpending.trans_le hqueued)
  · exact hsenders.trans
  · exact fun hexternal => Or.inr (hcause hexternal)

/-- The status check of `initialize` is answered. -/
theorem status_proceeds {P A : Type} [SerdeJson] [DecidableEq P] [PeerId P] [Multiaddr A]
    {s t : DiscoveryTasks P A} {ok : Bool}
    (hwaits : ∀ state, s.point.state = some state → s.controller.state = state)
    (h : s.step (.status ok) = some t) : Proceeds s (.status ok) t := by
  have hsame := DiscoveryPhases.Feeds.refl s.controller.phases
  cases hp : s.point <;> simp only [step, hp, reduceCtorEq] at h
  have hstate := hwaits .initialization (by rw [hp]; rfl)
  cases ok with
  | true =>
    obtain rfl := Option.some.inj h
    refine .onward (.enter rfl rfl rfl rfl (fun _ => rfl) ?_ rfl (by simp [hp])
      le_rfl rfl (fun hexternal => by cases hexternal))
    rw [hstate]
    exact ⟨rfl, by simp [DiscoveryTasks.enter]⟩
  | false =>
    obtain rfl := Option.some.inj h
    exact .onward (.goTo s hsame hwaits (Or.inr rfl) (by simp [hp]) (by simp)
      (by rw [hp]; rfl))

/-- The grant of the lease is answered. -/
theorem leaseGrant_proceeds {P A : Type} [SerdeJson] [DecidableEq P] [PeerId P] [Multiaddr A]
    {s t : DiscoveryTasks P A} {leaseId : Option ℤ}
    (hwaits : ∀ state, s.point.state = some state → s.controller.state = state)
    (h : s.step (.leaseGrant leaseId) = some t) : Proceeds s (.leaseGrant leaseId) t := by
  have hsame := DiscoveryPhases.Feeds.refl s.controller.phases
  cases hp : s.point <;> simp only [step, hp, reduceCtorEq] at h
  cases leaseId with
  | some leaseId =>
    obtain rfl := Option.some.inj h
    exact .onward (.goTo s hsame hwaits (Or.inl (by rw [hp]; rfl)) (by simp [hp])
      (by simp) (by rw [hp]; rfl))
  | none =>
    obtain rfl := Option.some.inj h
    exact .onward (.goTo s hsame hwaits (Or.inr rfl) (by simp [hp]) (by simp)
      (by rw [hp]; rfl))

/-- The opening of the keep-alive stream is answered. -/
theorem leaseKeepAlive_proceeds {P A : Type} [SerdeJson] [DecidableEq P] [PeerId P] [Multiaddr A]
    {s t : DiscoveryTasks P A} {ok : Bool}
    (hwaits : ∀ state, s.point.state = some state → s.controller.state = state)
    (h : s.step (.leaseKeepAlive ok) = some t) : Proceeds s (.leaseKeepAlive ok) t := by
  have hsame := DiscoveryPhases.Feeds.refl s.controller.phases
  cases hp : s.point <;> simp only [step, hp, reduceCtorEq] at h
  cases ok with
  | true =>
    obtain rfl := Option.some.inj h
    exact .onward (.goTo s hsame hwaits (Or.inl (by rw [hp]; rfl)) (by simp [hp])
      (by simp) (by rw [hp]; rfl))
  | false =>
    obtain rfl := Option.some.inj h
    exact .onward (.goTo s hsame hwaits (Or.inr rfl) (by simp [hp]) (by simp)
      (by rw [hp]; rfl))

/-- The put of the registration is answered. -/
theorem put_proceeds {P A : Type} [SerdeJson] [DecidableEq P] [PeerId P] [Multiaddr A]
    {s t : DiscoveryTasks P A} {ok : Bool}
    (hwaits : ∀ state, s.point.state = some state → s.controller.state = state)
    (h : s.step (.put ok) = some t) : Proceeds s (.put ok) t := by
  have hsame := DiscoveryPhases.Feeds.refl s.controller.phases
  cases hp : s.point <;> simp only [step, hp, reduceCtorEq] at h
  have hstate := hwaits .registration (by rw [hp]; rfl)
  cases ok with
  | true =>
    obtain rfl := Option.some.inj h
    refine .onward (.enter rfl rfl rfl rfl (fun hterm => ?_) ?_ rfl (by simp [hp])
        le_rfl rfl (fun hexternal => by cases hexternal))
    · rw [hstate] at hterm
      cases hterm
    · rw [hstate]
      exact ⟨rfl, by simp [registered]⟩
  | false =>
    obtain rfl := Option.some.inj h
    exact .onward (.goTo s hsame hwaits (Or.inr rfl) (by simp [hp]) (by simp)
      (by rw [hp]; rfl))

/-- The snapshot is answered, and converged on. -/
theorem get_proceeds {P A : Type} [SerdeJson] [DecidableEq P] [PeerId P] [Multiaddr A]
    {s t : DiscoveryTasks P A} {kvs : Option (List KeyValue)} {iter : Finset P → List P}
    (hwaits : ∀ state, s.point.state = some state → s.controller.state = state)
    (h : s.step (.get kvs iter) = some t) : Proceeds s (.get kvs iter) t := by
  have hsame := DiscoveryPhases.Feeds.refl s.controller.phases
  cases hp : s.point <;> cases kvs <;> simp only [step, hp, reduceCtorEq] at h
  · obtain rfl := Option.some.inj h
    exact .onward (.goTo s hsame hwaits (Or.inr rfl) (by simp [hp]) (by simp)
      (by rw [hp]; rfl))
  · rename_i kvs
    obtain ⟨next, hfeeds, hout⟩ | ⟨next, hfeeds, hout⟩ | hout :=
      DiscoveryPhases.converge_feeds iter kvs s.controller.phases
    · rw [hout] at h
      exact .converges next iter hp hfeeds (Option.some.inj h).symm
    · rw [hout] at h
      obtain rfl := Option.some.inj h
      exact .onward (.goTo s hfeeds hwaits (Or.inr rfl) (by simp [hp]) (by simp)
        (by rw [hp]; rfl))
    · rw [hout] at h
      obtain rfl := Option.some.inj h
      exact .onward (.goTo s hsame hwaits (Or.inr rfl) (by simp [hp]) (by simp)
        (by rw [hp]; rfl))

/-- The opening of the watch is answered, before the loop or in it. -/
theorem watch_proceeds {P A : Type} [SerdeJson] [DecidableEq P] [PeerId P] [Multiaddr A]
    {s t : DiscoveryTasks P A} {ok : Bool} (hinv : s.Inv)
    (hwaits : ∀ state, s.point.state = some state → s.controller.state = state)
    (h : s.step (.watch ok) = some t) : Proceeds s (.watch ok) t := by
  have hsame := DiscoveryPhases.Feeds.refl s.controller.phases
  cases hp : s.point <;> simp only [step, hp, reduceCtorEq] at h
  · have hstate := hwaits .maintenance (by rw [hp]; rfl)
    simp only [Inv, hp] at hinv
    obtain ⟨-, hrx, hirx, -⟩ := hinv
    cases ok with
    | true =>
      simp only [takeReceivers, hrx, hirx, if_true] at h
      obtain rfl := Option.some.inj h
      refine .onward ⟨hsame, rfl, rfl, rfl, fun _ => rfl, Or.inl rfl, ?_, ?_, ?_, Or.inl, id, ?_⟩
      · intro state hsome
        rw [← Option.some.inj hsome]
        exact hstate
      · rintro ⟨ok, hok⟩
        rw [hp] at hok
        cases hok
      · intro hok
        cases hok
      · intro hexternal
        cases hexternal
    | false =>
      obtain rfl := Option.some.inj h
      exact .onward (.goTo s hsame hwaits (Or.inr rfl) (by simp [hp]) (by simp)
        (by rw [hp]; rfl))
  · cases ok with
    | true =>
      obtain rfl := Option.some.inj h
      exact .onward (.goTo s hsame hwaits (Or.inl (by rw [hp]; rfl)) (by simp [hp])
        (by simp) (by rw [hp]; rfl))
    | false =>
      obtain rfl := Option.some.inj h
      exact .onward (.goTo s hsame hwaits (Or.inr rfl) (by simp [hp]) (by simp)
        (by rw [hp]; rfl))

/-- The stream yields a message, its end or a failure. -/
theorem watchMessage_proceeds {P A : Type} [SerdeJson] [DecidableEq P] [PeerId P] [Multiaddr A]
    {s t : DiscoveryTasks P A} {message : Option (Option WatchResponse)} {iter : Finset P → List P}
    (hwaits : ∀ state, s.point.state = some state → s.controller.state = state)
    (h : s.step (.watchMessage message iter) = some t) :
    Proceeds s (.watchMessage message iter) t := by
  have hsame := DiscoveryPhases.Feeds.refl s.controller.phases
  cases hp : s.point <;> cases message <;> simp only [step, hp, reduceCtorEq] at h
  · obtain rfl := Option.some.inj h
    exact .onward (.goTo s hsame hwaits (Or.inl (by rw [hp]; rfl)) (by simp [hp])
      (by simp) (by rw [hp]; rfl))
  · rename_i message
    have hfeeds := DiscoveryPhases.processWatchEvent_feeds iter message s.controller.phases
    cases hout : DiscoveryPhases.processWatchEvent iter message s.controller.phases with
    | ok phases =>
      rw [hout] at h hfeeds
      obtain rfl := Option.some.inj h
      show Proceeds s _ ((s.setPhases phases).goTo s.point)
      exact .onward (.goTo s hfeeds hwaits (Or.inl rfl) (by simp [hp])
        (by rw [hp]; simp) rfl)
    | error phases =>
      rw [hout] at h hfeeds
      obtain rfl := Option.some.inj h
      exact .onward (.goTo s hfeeds hwaits (Or.inl (by rw [hp]; rfl)) (by simp [hp])
        (by simp) (by rw [hp]; rfl))
    | panicked =>
      rw [hout] at h
      obtain rfl := Option.some.inj h
      exact .onward (.goTo s hsame hwaits (Or.inr rfl) (by simp [hp]) (by simp)
        (by rw [hp]; rfl))

/-- The loop is woken by the shutdown channel, which has a signal or no sender. -/
theorem recvShutdown_proceeds {P A : Type} [SerdeJson] [DecidableEq P] [PeerId P] [Multiaddr A]
    {s t : DiscoveryTasks P A} (hinv : s.Inv)
    (hwaits : ∀ state, s.point.state = some state → s.controller.state = state)
    (h : s.step .recvShutdown = some t) : Proceeds s .recvShutdown t := by
  cases hp : s.point <;> simp only [step, hp, reduceCtorEq] at h
  have hstate := hwaits .maintenance (by rw [hp]; rfl)
  simp only [Inv, hp] at hinv
  obtain ⟨leaseId, hlease⟩ := Option.ne_none_iff_exists'.mp hinv.1
  split_ifs at h with hqueued
  simp only [shutDown, hlease] at h
  obtain rfl := Option.some.inj h
  refine .onward (.enter rfl rfl rfl rfl (fun _ => rfl) ?_ rfl (by simp [hp])
    (Nat.sub_le _ _) rfl (fun _ => hqueued))
  rw [hstate]
  exact ⟨rfl, by simp [DiscoveryTasks.enter]⟩

/-- The loop is woken by the keep-alive task. -/
theorem recvInternalShutdown_proceeds {P A : Type} [SerdeJson] [DecidableEq P] [PeerId P]
    [Multiaddr A]
    {s t : DiscoveryTasks P A} (hinv : s.Inv)
    (hwaits : ∀ state, s.point.state = some state → s.controller.state = state)
    (h : s.step .recvInternalShutdown = some t) : Proceeds s .recvInternalShutdown t := by
  cases hp : s.point <;> simp only [step, hp, reduceCtorEq] at h
  have hstate := hwaits .maintenance (by rw [hp]; rfl)
  simp only [Inv, hp] at hinv
  obtain ⟨leaseId, hlease⟩ := Option.ne_none_iff_exists'.mp hinv.1
  split_ifs at h
  simp only [shutDown, hlease] at h
  obtain rfl := Option.some.inj h
  refine .onward (.enter rfl rfl rfl rfl (fun _ => rfl) ?_ rfl (by simp [hp])
    le_rfl rfl (fun hexternal => by cases hexternal))
  rw [hstate]
  exact ⟨rfl, by simp [DiscoveryTasks.enter]⟩

/-- The delay before the watch is opened again. -/
theorem reconnectDelay_proceeds {P A : Type} [SerdeJson] [DecidableEq P] [PeerId P] [Multiaddr A]
    {s t : DiscoveryTasks P A}
    (hwaits : ∀ state, s.point.state = some state → s.controller.state = state)
    (h : s.step .reconnectDelay = some t) : Proceeds s .reconnectDelay t := by
  have hsame := DiscoveryPhases.Feeds.refl s.controller.phases
  cases hp : s.point <;> simp only [step, hp, reduceCtorEq] at h
  obtain rfl := Option.some.inj h
  exact .onward (.goTo s hsame hwaits (Or.inl (by rw [hp]; rfl)) (by simp [hp])
    (by simp) (by rw [hp]; rfl))

theorem step_proceeds {P A : Type} [SerdeJson] [DecidableEq P] [PeerId P] [Multiaddr A]
    {s t : DiscoveryTasks P A} {l : Label P} (hinv : s.Inv)
    (hwaits : ∀ state, s.point.state = some state → s.controller.state = state)
    (h : s.step l = some t) : Proceeds s l t := by
  cases l with
  | status ok => exact status_proceeds hwaits h
  | leaseGrant leaseId => exact leaseGrant_proceeds hwaits h
  | leaseKeepAlive ok => exact leaseKeepAlive_proceeds hwaits h
  | put ok => exact put_proceeds hwaits h
  | get kvs iter => exact get_proceeds hwaits h
  | watch ok => exact watch_proceeds hinv hwaits h
  | watchMessage message iter => exact watchMessage_proceeds hwaits h
  | recvShutdown => exact recvShutdown_proceeds hinv hwaits h
  | recvInternalShutdown => exact recvInternalShutdown_proceeds hinv hwaits h
  | reconnectDelay => exact reconnectDelay_proceeds hwaits h
  | leaseRevoke revoked =>
    cases hp : s.point <;> simp only [step, hp, reduceCtorEq] at h
    exact .revokes _ _ revoked hp (Option.some.inj h).symm
  | deletePropagation =>
    cases hp : s.point <;> simp only [step, hp, reduceCtorEq] at h
    exact .tells _ hp (Option.some.inj h).symm
  | keepAlive round =>
    rw [step_keepAlive] at h
    split_ifs at h
    · obtain rfl := Option.some.inj h
      exact .onward (.beside rfl rfl rfl rfl Or.inl id hwaits)
    · obtain rfl := Option.some.inj h
      exact .onward (.beside rfl rfl rfl rfl Or.inl id hwaits)
  | sendShutdown =>
    rw [step_sendShutdown] at h
    split_ifs at h
    obtain rfl := Option.some.inj h
    exact .onward (.beside rfl rfl rfl rfl (fun _ => Or.inr rfl) id hwaits)
  | dropShutdownTx =>
    rw [step_dropShutdownTx] at h
    obtain rfl := Option.some.inj h
    exact .onward (.beside rfl rfl rfl rfl Or.inl (fun _ => rfl) hwaits)
  | dropSwarmRx =>
    rw [step_dropSwarmRx] at h
    obtain rfl := Option.some.inj h
    exact .onward (.beside rfl rfl rfl rfl Or.inl id hwaits)

end DiscoveryTasks

namespace LivedTasks
open DiscoveryTasks

/-- What holds of a controller at any time. -/
structure Lives {P A : Type} (s : LivedTasks P A) : Prop where
  inv : s.tasks.Inv
  waits : ∀ state, s.tasks.point.state = some state → s.tasks.controller.state = state
  states : s.states = DiscoveryState.protocol.take (s.tasks.controller.state.phase + 1)
  ready : s.tasks.controller.phases.readiness = decide (3 ≤ s.tasks.controller.state.phase)
  signal : s.tasks.convergenceSignal = decide (3 ≤ s.tasks.controller.state.phase)
  sender : s.tasks.controller.convergenceTx = !s.tasks.convergenceSignal
  lists : s.tasks.convergenceSignal = true → s.tasks.controller.phases.shardingTx ≠ []
  revokes : s.tasks.RevokesOnce
  last : s.tasks.SaysLast
  queued : 0 < s.tasks.shutdown → s.asked = true
  told : s.tasks.point.cause = some .external → s.ToldToStop
  returned : s.tasks.point = .returned true → s.ToldToStop ∧ s.tasks.HasShutDown

theorem lives_start {P A : Type} (clusterId : String) (localPeerId : P) (localAddr : A)
    (logDebug : Bool) : (start clusterId localPeerId localAddr logDebug).Lives := by
  constructor
  · exact ⟨fun hreg => hreg rfl, rfl, rfl, rfl, rfl, by simp [start, new, DiscoveryPhases.new]⟩
  · intro state hsome
    exact Option.some.inj hsome
  · rfl
  · rfl
  · rfl
  · rfl
  · intro hsignal
    cases hsignal
  · exact Or.inl rfl
  · exact Or.inl (by simp [start, new, DiscoveryPhases.new])
  · intro hpending
    cases hpending
  · intro hexternal
    cases hexternal
  · intro hok
    cases hok

/-- The states follow the protocol, one at a time. -/
theorem states_step {s t : DiscoveryState} (states : List DiscoveryState)
    (h : states = DiscoveryState.protocol.take (s.phase + 1))
    (hnext : t = s ∨ t.phase = s.phase + 1) :
    (if t = s then states else states ++ [t]) = DiscoveryState.protocol.take (t.phase + 1) := by
  obtain rfl | hnext := hnext
  · rw [if_pos rfl]
    exact h
  · subst h
    cases s <;> cases t <;> first | rfl | cases hnext

/-- Only convergence brings the controller to the states in which its node is ready. -/
theorem ready_of_state {s t : DiscoveryState}
    (h : t = s ∨ t.phase = s.phase + 1 ∧ t ≠ .maintenance) :
    decide (3 ≤ t.phase) = decide (3 ≤ s.phase) := by
  obtain rfl | ⟨hnext, hne⟩ := h
  · rfl
  · cases s <;> cases t <;> first | rfl | exact absurd rfl hne | cases hnext

theorem Lives.onward {P A : Type} {s : LivedTasks P A} {t : DiscoveryTasks P A} {l : Label P}
    (hs : s.Lives) (hinv : t.Inv) (h : Onward s.tasks l t) :
    Lives {
      tasks := t
      states := if t.controller.state = s.tasks.controller.state then s.states
        else s.states ++ [t.controller.state]
      asked := s.asked || l.asks } := by
  have hready := ready_of_state h.state
  have htold : s.ToldToStop → (s.asked || l.asks) = true ∨ t.shutdownTx = false := by
    rintro (hasked | hgone)
    · exact Or.inl (by simp [hasked])
    · exact Or.inr (h.senders hgone)
  have hterminating : s.tasks.controller.state = .terminating →
      t.controller.state = .terminating := by
    intro hterm
    obtain hsame | ⟨hnext, -⟩ := h.state
    · exact hsame.trans hterm
    · rw [hterm] at hnext
      cases hstate : t.controller.state <;> rw [hstate] at hnext <;> cases hnext
  constructor
  · exact hinv
  · exact h.waits
  · exact states_step s.states hs.states (h.state.imp id And.left)
  · exact (h.feeds.readiness.trans hs.ready).trans hready.symm
  · exact (h.signal.trans hs.signal).trans hready.symm
  · show t.controller.convergenceTx = !t.convergenceSignal
    rw [h.sender, h.signal]
    exact hs.sender
  · intro hsignal
    have hbefore := hs.lists (h.signal.symm.trans hsignal)
    intro hnone
    have hprefix := h.feeds.lists
    rw [show t.controller.phases.shardingTx = [] from hnone] at hprefix
    exact hbefore (List.prefix_nil.mp hprefix)
  · obtain hnone | ⟨hterm, hrevoked⟩ := hs.revokes
    · exact Or.inl (h.revokes.trans hnone)
    · refine Or.inr ⟨hterminating hterm, ?_⟩
      show t.revokes = t.controller.leaseId.toList
      rw [h.revokes, h.lease hterm]
      exact hrevoked
  · obtain hquiet | ⟨hterm, hreturned, commands, hmore, hsent⟩ := hs.last
    · obtain ⟨more, hsent, hmore⟩ := h.feeds.commands
      refine Or.inl ?_
      show .shutdown ∉ t.controller.phases.swarmTx
      rw [hsent]
      intro hmem
      obtain hmem | hmem := List.mem_append.mp hmem
      · exact hquiet hmem
      · exact hmore hmem
    · obtain ⟨hpoint, hcontroller⟩ := h.stays hreturned
      refine Or.inr ⟨hterminating hterm, ?_, commands, hmore, ?_⟩
      · obtain ⟨ok, hok⟩ := hreturned
        exact ⟨ok, hpoint.trans hok⟩
      · show t.controller.phases.swarmTx = _
        rw [hcontroller]
        exact hsent
  · intro hpending
    obtain hbefore | hasks := h.queued hpending
    · simp [hs.queued hbefore]
    · simp [hasks]
  · intro hexternal
    obtain hbefore | hpending | hgone := h.cause hexternal
    · exact htold (hs.told hbefore)
    · exact htold (Or.inl (hs.queued hpending))
    · exact htold (Or.inr hgone)
  · intro hok
    have hok : t.point = .returned true := hok
    have hbefore := h.failed hok
    obtain ⟨-, hcontroller⟩ := h.stays ⟨true, hbefore⟩
    obtain ⟨hasked, hdown⟩ := hs.returned hbefore
    refine ⟨htold hasked, ?_⟩
    unfold HasShutDown at hdown ⊢
    rw [hcontroller, h.revokes]
    exact hdown

/-- The controller converges, and says so. -/
theorem Lives.converges {P A : Type} {s : LivedTasks P A} {t : DiscoveryTasks P A} {l : Label P}
    (hs : s.Lives) (hinv : t.Inv) {next : DiscoveryPhases P A} {iter : Finset P → List P}
    (hpoint : s.tasks.point = .get) (hfeeds : s.tasks.controller.phases.Feeds next)
    (hnext : t = (s.tasks.setPhases (next.convergeDone iter)).converged) :
    Lives {
      tasks := t
      states := if t.controller.state = s.tasks.controller.state then s.states
        else s.states ++ [t.controller.state]
      asked := s.asked || l.asks } := by
  have hasked : s.asked = true → (s.asked || l.asks) = true := Bool.or_inl
  have hstate := hs.waits .convergence (by rw [hpoint]; rfl)
  have hsignal := hs.signal
  have hsender := hs.sender
  rw [hstate] at hsignal
  rw [hsignal] at hsender
  subst hnext
  constructor
  · exact hinv
  · intro state hsome
    exact Option.some.inj hsome
  · refine states_step s.states hs.states (Or.inr ?_)
    rw [hstate]
    rfl
  · rfl
  · show (s.tasks.convergenceSignal || s.tasks.controller.convergenceTx) = true
    rw [hsignal, hsender]
    rfl
  · show false = !(s.tasks.convergenceSignal || s.tasks.controller.convergenceTx)
    rw [hsignal, hsender]
    rfl
  · intro _
    exact List.append_ne_nil_of_right_ne_nil _ (List.cons_ne_nil _ _)
  · obtain hnone | ⟨hterm, -⟩ := hs.revokes
    · exact Or.inl hnone
    · rw [hstate] at hterm
      cases hterm
  · obtain hquiet | ⟨hterm, -⟩ := hs.last
    · obtain ⟨more, hsent, hmore⟩ := hfeeds.commands
      refine Or.inl ?_
      show .shutdown ∉ next.swarmTx
      rw [hsent]
      intro hmem
      obtain hmem | hmem := List.mem_append.mp hmem
      · exact hquiet hmem
      · exact hmore hmem
    · rw [hstate] at hterm
      cases hterm
  · exact fun hpending => hasked (hs.queued hpending)
  · intro hexternal
    cases hexternal
  · intro hok
    cases hok

/-- The lease is revoked. -/
theorem Lives.revoked {P A : Type} {s : LivedTasks P A} {t : DiscoveryTasks P A} {l : Label P}
    (hs : s.Lives) (hinv : t.Inv) {leaseId : ℤ} {cause : ShutdownCause} {revoked : Bool}
    (hpoint : s.tasks.point = .leaseRevoke leaseId cause)
    (hnext : t = { s.tasks with
      revokes := s.tasks.revokes ++ [leaseId]
      leaseRevoked := s.tasks.leaseRevoked || revoked
      point := .deletePropagation cause }) :
    Lives {
      tasks := t
      states := if t.controller.state = s.tasks.controller.state then s.states
        else s.states ++ [t.controller.state]
      asked := s.asked || l.asks } := by
  have hasked : s.asked = true → (s.asked || l.asks) = true := Bool.or_inl
  have hstate := hs.waits .terminating (by rw [hpoint]; rfl)
  have hbefore := hs.inv
  simp only [DiscoveryTasks.Inv, hpoint] at hbefore
  obtain ⟨hlease, huntouched⟩ := hbefore
  subst hnext
  constructor
  · exact hinv
  · intro state hsome
    rw [← Option.some.inj hsome]
    exact hstate
  · exact states_step s.states hs.states (Or.inl rfl)
  · exact hs.ready
  · exact hs.signal
  · exact hs.sender
  · exact hs.lists
  · refine Or.inr ⟨hstate, ?_⟩
    show s.tasks.revokes ++ [leaseId] = s.tasks.controller.leaseId.toList
    rw [huntouched.revokes, hlease]
    rfl
  · exact Or.inl huntouched.shutdown
  · exact fun hpending => hasked (hs.queued hpending)
  · intro hexternal
    exact (hs.told (by rw [hpoint]; exact hexternal)).imp hasked id
  · intro hok
    cases hok

/-- The swarm is told, and the run is over. -/
theorem Lives.tells {P A : Type} {s : LivedTasks P A} {t : DiscoveryTasks P A} {l : Label P}
    (hs : s.Lives) (hinv : t.Inv) {cause : ShutdownCause}
    (hpoint : s.tasks.point = .deletePropagation cause)
    (hnext : t = s.tasks.signalSwarm cause) :
    Lives {
      tasks := t
      states := if t.controller.state = s.tasks.controller.state then s.states
        else s.states ++ [t.controller.state]
      asked := s.asked || l.asks } := by
  have hasked : s.asked = true → (s.asked || l.asks) = true := Bool.or_inl
  have hstate := hs.waits .terminating (by rw [hpoint]; rfl)
  have hbefore := hs.inv
  simp only [DiscoveryTasks.Inv, hpoint] at hbefore
  obtain ⟨⟨leaseId, hrevoked, hlease⟩, hquiet⟩ := hbefore
  subst hnext
  unfold signalSwarm at hinv ⊢
  by_cases hswarm : s.tasks.swarmRx = true
  · rw [if_pos hswarm] at hinv ⊢
    constructor
    · exact hinv
    · intro state hsome
      cases hsome
    · exact states_step s.states hs.states (Or.inl rfl)
    · exact hs.ready
    · exact hs.signal
    · exact hs.sender
    · exact hs.lists
    · exact hs.revokes
    · exact Or.inr ⟨hstate, ⟨_, rfl⟩, s.tasks.controller.phases.swarmTx, hquiet, rfl⟩
    · exact fun hpending => hasked (hs.queued hpending)
    · intro hexternal
      cases hexternal
    · intro hok
      have hexternal : cause = .external := of_decide_eq_true (RunPoint.returned.inj hok)
      constructor
      · exact (hs.told (by rw [hpoint, hexternal]; rfl)).imp hasked id
      · exact ⟨⟨leaseId, hrevoked, hlease⟩, List.mem_append_right _ List.mem_cons_self⟩
  · rw [if_neg hswarm] at hinv ⊢
    constructor
    · exact hinv
    · intro state hsome
      cases hsome
    · exact states_step s.states hs.states (Or.inl rfl)
    · exact hs.ready
    · exact hs.signal
    · exact hs.sender
    · exact hs.lists
    · exact hs.revokes
    · exact Or.inl hquiet
    · exact fun hpending => hasked (hs.queued hpending)
    · intro hexternal
      cases hexternal
    · intro hok
      cases hok

theorem Lives.step {P A : Type} [SerdeJson] [DecidableEq P] [PeerId P] [Multiaddr A]
    {s t : LivedTasks P A} {l : Label P} (hs : s.Lives) (h : s.step l = some t) : t.Lives := by
  obtain ⟨u, hstep, rfl⟩ := Option.map_eq_some_iff.mp h
  have hinv : u.Inv := (step_moves hs.inv hstep).inv hs.inv
  cases step_proceeds hs.inv hs.waits hstep with
  | onward honward => exact hs.onward hinv honward
  | converges next iter hpoint hfeeds hnext => exact hs.converges hinv hpoint hfeeds hnext
  | revokes leaseId cause revoked hpoint hnext => exact hs.revoked hinv hpoint hnext
  | tells cause hpoint hnext => exact hs.tells hinv hpoint hnext

/-- Only a signal that was sent counts as asking. -/
theorem asked_of_run {P A : Type} [SerdeJson] [DecidableEq P] [PeerId P] [Multiaddr A]
    {s t : LivedTasks P A} {labels : List (Label P)} (hrun : Run (StepOf step) s labels t)
    (hasked : t.asked = true) : s.asked = true ∨ .sendShutdown ∈ labels := by
  induction hrun with
  | nil s => exact Or.inl hasked
  | @cons s mid t l labels hstep hrest ih =>
    obtain hmid | hmem := ih hasked
    · obtain ⟨u, -, rfl⟩ := Option.map_eq_some_iff.mp hstep
      obtain hbefore | hasks := (Bool.or_eq_true _ _).mp hmid
      · exact Or.inl hbefore
      · cases l with
        | sendShutdown => exact Or.inr List.mem_cons_self
        | _ => cases hasks
    · exact Or.inr (List.mem_cons_of_mem l hmem)

/-- In every run of the controller with its keep-alive task its states follow the
protocol without gaps. The readiness probe answers with success and the machine
manager has its signal just from maintenance on, and by then sharding has a list of
peers. The lease that was granted is revoked at most once, only at the end, where the
message that shuts down the swarm is the last one and sent at most once. The run
returns without an error only after it has done both, and only when a signal was sent
on the shutdown channel or nobody was left to send one. -/
theorem lifecycle_in_order {P A : Type} [SerdeJson] [DecidableEq P] [PeerId P] [Multiaddr A]
    (clusterId : String) (localPeerId : P) (localAddr : A) (logDebug : Bool)
    (labels : List (Label P)) (s : LivedTasks P A)
    (hrun : Run (StepOf step) (start clusterId localPeerId localAddr logDebug) labels s) :
    (s.states <+: DiscoveryState.protocol ∧ s.states.getLast? = some s.tasks.controller.state) ∧
    (readinessCheck s.tasks = 200 ↔ .maintenance ∈ s.states) ∧
    (s.tasks.convergenceSignal = true ↔ .maintenance ∈ s.states) ∧
    (s.tasks.convergenceSignal = true → s.tasks.controller.phases.shardingTx ≠ []) ∧
    s.tasks.RevokesOnce ∧ s.tasks.SaysLast ∧
    (s.tasks.point = .returned true →
      (.sendShutdown ∈ labels ∨ s.tasks.shutdownTx = false) ∧ s.tasks.HasShutDown) := by
  have hs : s.Lives := hrun.invariant (fun _ _ _ hs hst => hs.step hst)
    (lives_start clusterId localPeerId localAddr logDebug)
  have hmem : .maintenance ∈ s.states ↔ 3 ≤ s.tasks.controller.state.phase := by
    rw [hs.states]
    cases s.tasks.controller.state <;> decide
  refine ⟨⟨?_, ?_⟩, ?_, ?_, hs.lists, hs.revokes, hs.last, ?_⟩
  · rw [hs.states]
    exact List.take_prefix ..
  · rw [hs.states]
    cases s.tasks.controller.state <;> rfl
  · rw [hmem]
    unfold readinessCheck
    rw [hs.ready]
    by_cases hphase : 3 ≤ s.tasks.controller.state.phase
    · simp [hphase]
    · simp [hphase]
  · rw [hmem, hs.signal]
    exact decide_eq_true_iff
  · intro hok
    obtain ⟨htold, hdown⟩ := hs.returned hok
    refine ⟨htold.imp ?_ id, hdown⟩
    intro hasked
    exact (asked_of_run hrun hasked).resolve_left Bool.false_ne_true

/-- A node that is told to shut down goes through the whole protocol. -/
theorem lifecycle_in_order_shutdown :
    let _ : SerdeJson := SerdeJson.knowing []
    ∃ (labels : List (Label Base58Text)) (s : LivedTasks Base58Text Ip4Text),
      s.states = DiscoveryState.protocol ∧ s.tasks.point = .returned true ∧
      readinessCheck s.tasks = 200 ∧
      (.sendShutdown ∈ labels ∨ s.tasks.shutdownTx = false) ∧ s.tasks.HasShutDown := by
  intro _
  let a := peerOf "12D3KooWAAAAAAAAAAAAAAAAAAAAAAAAAAAAAAAAAAAAAAAAAAAA"
  let labels : List (Label Base58Text) :=
    [.status true, .leaseGrant (some 7), .leaseKeepAlive true, .put true,
      .get (some []) (fun _ => [a]), .watch true, .sendShutdown, .recvShutdown,
      .leaseRevoke true, .deletePropagation]
  obtain ⟨s, hrun, hstates, hpoint⟩ :
      ∃ s ∈ labels.foldlM step (start "test" a (Ip4Text.mk "/ip4/10.0.0.1/tcp/5000") true),
        s.states = DiscoveryState.protocol ∧ s.tasks.point = .returned true := by
    decide +kernel
  obtain ⟨-, hready, -, -, -, -, hreturned⟩ :=
    lifecycle_in_order "test" a _ true labels s (Run.of_foldlM hrun)
  obtain ⟨htold, hdown⟩ := hreturned hpoint
  refine ⟨labels, s, hstates, hpoint, hready.mpr ?_, htold, hdown⟩
  rw [hstates]
  decide

end LivedTasks
end Neolaas
