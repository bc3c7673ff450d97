import Neolaas.BootstrapTopology

/-!
# The topologies of a node and its log

Discovery sends the coordinator one list after another, and the coordinator logs how
many peers it had and has. After the snapshot each list differs from the one before
by one peer at most, and the log tells of the lists in their order.
-/
namespace Neolaas
open AtomicProgram LabelledRuns

/-- Shard statistics response. -/
structure ShardStats where
  nodeCount : ℕ
  localPeerId : String
  deriving DecidableEq

/-- `Message<GetShardStats>`. -/
def ShardingCoordinator.handleGetShardStats {P : Type} [PeerId P]
    (self : ShardingCoordinator P) : ShardStats where
  nodeCount := self.hasher.nodeCount
  localPeerId := PeerId.toBase58 self.localPeerId

namespace Event

/-- Read a topology change after a number of nodes, which it has to start from. -/
def readTopology (count : ℕ) : Event → Option ℕ
  | topologyChange previous new => if previous = count then some new else none
  | _ => some count

/-- The number of nodes after a topology change. -/
def newCount : Event → Option ℕ
  | topologyChange _ new => some new
  | _ => none

end Event

/-- Other events tell nothing of the topology. -/
theorem read_of_not_topologyApplied {es : List Event} (h : ¬TopologyApplied es) (count : ℕ) :
    es.foldlM Event.readTopology count = some count ∧ es.filterMap Event.newCount = [] := by
  induction es with
  | nil => exact ⟨rfl, rfl⟩
  | cons e es ih =>
    have he : e.isTopologyChange = false := by
      by_contra hchange
      exact h ⟨e, List.mem_cons_self, by simpa using hchange⟩
    have hrest : ¬TopologyApplied es := by
      rintro ⟨e', hmem, hchange⟩
      exact h ⟨e', List.mem_cons_of_mem e hmem, hchange⟩
    obtain ⟨hread, hcounts⟩ := ih hrest
    cases e with
    | topologyChange previous new => cases he
    | _ => exact ⟨hread, hcounts⟩

/-- Two lists that differ by one peer at most. -/
def OnePeerApart {P : Type} (xs ys : List P) : Prop := ∃ p, ∀ q, q ≠ p → (q ∈ xs ↔ q ∈ ys)

namespace DiscoveryPhases

/-- Only other peers are decoded. -/
theorem decodePeer_ne {P A : Type} [SerdeJson] [DecidableEq P] [PeerId P] [Multiaddr A]
    {self : DiscoveryPhases P A} {key value : String} {found : P × A}
    (h : self.decodePeer key value = some found) : found.1 ≠ self.localPeerId := by
  unfold decodePeer at h
  obtain ⟨peerId, -, h⟩ := Option.bind_eq_some_iff.mp h
  split_ifs at h with hlocal
  obtain ⟨addr, -, hfound⟩ := Option.bind_eq_some_iff.mp h
  obtain rfl := Option.some.inj hfound
  exact hlocal

/-- A pair of the snapshot that does not fail adds a peer at most. -/
theorem convergeKv_cases {P A : Type} [SerdeJson] [DecidableEq P] [PeerId P] [Multiaddr A]
    {kv : KeyValue} {self next : DiscoveryPhases P A} (h : convergeKv kv self = .ok next) :
    next = self ∨ ∃ peerId addr, peerId ≠ self.localPeerId ∧ next = self.addPeer peerId addr := by
  unfold convergeKv at h
  split at h
  · split at h
    · rename_i peerId addr hfound
      exact Or.inr ⟨peerId, addr, decodePeer_ne hfound, debugPeer_eq_ok h⟩
    · exact Or.inl (Outcome.ok.inj h).symm
  · cases h

/-- An event that does not fail adds or removes a peer at most. -/
theorem processEvent_cases {P A : Type} [SerdeJson] [DecidableEq P] [PeerId P] [Multiaddr A]
    {iter : Finset P → List P} {event : WatchEvent} {self next : DiscoveryPhases P A}
    (h : processEvent iter event self = .ok next) : next = self ∨
      (∃ peerId addr, peerId ≠ self.localPeerId ∧
        next = (self.addPeer peerId addr).notifySharding iter) ∨
      ∃ peerId, next = (self.removePeer peerId).notifySharding iter := by
  obtain ⟨eventType, kv⟩ := event
  cases kv with
  | none =>
    cases eventType <;> exact Or.inl (Outcome.ok.inj h).symm
  | some kv =>
    cases eventType with
    | put =>
      simp only [processEvent] at h
      split at h
      · split at h
        · rename_i peerId addr hfound
          exact Or.inr (Or.inl ⟨peerId, addr, decodePeer_ne hfound, debugPeer_eq_ok h⟩)
        · exact Or.inl (Outcome.ok.inj h).symm
      · cases h
    | delete =>
      simp only [processEvent] at h
      split at h
      · split at h
        · rename_i peerId _
          exact Or.inr (Or.inr ⟨peerId, debugPeer_eq_ok h⟩)
        · exact Or.inl (Outcome.ok.inj h).symm
      · cases h

/-- So it changes one of the known peers at most. -/
theorem processEvent_known {P A : Type} [SerdeJson] [DecidableEq P] [PeerId P] [Multiaddr A]
    {iter : Finset P → List P} {event : WatchEvent} {self next : DiscoveryPhases P A}
    (h : processEvent iter event self = .ok next) :
    ∃ p, ∀ q, q ≠ p → (q ∈ self.knownPeers ↔ q ∈ next.knownPeers) := by
  obtain rfl | ⟨peerId, addr, -, rfl⟩ | ⟨peerId, rfl⟩ := processEvent_cases h
  · exact ⟨next.localPeerId, fun _ _ => Iff.rfl⟩
  · refine ⟨peerId, fun q hq => ?_⟩
    simp [notifySharding, addPeer, hq]
  · refine ⟨peerId, fun q hq => ?_⟩
    simp [notifySharding, removePeer, hq]

end DiscoveryPhases

theorem OnePeerApart.of_lists {P A : Type} [SerdeJson] [DecidableEq P] [PeerId P] [Multiaddr A]
    {iter : Finset P → List P} {event : WatchEvent} {self next : DiscoveryPhases P A}
    {xs ys : List P} (h : DiscoveryPhases.processEvent iter event self = .ok next)
    (hxs : Lists xs self.knownPeers) (hys : Lists ys next.knownPeers) : OnePeerApart xs ys := by
  have hmem : ∀ q, (q ∈ xs ↔ q ∈ self.knownPeers) ∧ (q ∈ ys ↔ q ∈ next.knownPeers) := by
    intro q
    rw [← hxs.2, ← hys.2, List.mem_toFinset, List.mem_toFinset]
    exact ⟨Iff.rfl, Iff.rfl⟩
  obtain ⟨p, hp⟩ := DiscoveryPhases.processEvent_known h
  refine ⟨p, fun q hq => ?_⟩
  rw [(hmem q).1, (hmem q).2]
  exact hp q hq

/-- A node with the peer lists that its coordinator has applied. -/
structure Charted (P A : Type) where
  node : Node P A
  applied : List (List P)

namespace Charted
open Node

/-- The list that a step has the coordinator apply. -/
def appliedBy {P A : Type} (s : Node P A) : Label P → List (List P)
  | .bridgeAsk =>
    match s.bridge with
    | .asking peers => if s.world.coordinatorAlive then [peers] else []
    | _ => []
  | _ => []

def step {P A : Type} [SerdeJson] [DecidableEq P] [PeerId P] [Multiaddr A] (score : Score P)
    (s : Charted P A) (l : Label P) : Option (Charted P A) :=
  (s.node.step score l).map (fun node => ⟨node, s.applied ++ appliedBy s.node l⟩)

/-- The lists that have been sent and not been lost. -/
def sent {P A : Type} (s : Charted P A) : List (List P) := s.applied ++ s.node.undelivered

/-- The topology of the coordinator: the list applied last, at first the node alone. -/
def topology {P A : Type} (localPeerId : P) (s : Charted P A) : List P :=
  s.applied.getLast?.getD [localPeerId]

/-- The lists that have been sent are one peer apart, and the last is of the known
peers. None is sent before the snapshot has been read. -/
structure Course {P A : Type} [DecidableEq P] (s : Charted P A) : Prop where
  chain : s.sent.IsChain OnePeerApart
  nodup : ∀ peers ∈ s.sent, peers.Nodup
  early : s.node.stage = .registering ∨ (∃ kvs, s.node.stage = .converging kvs) → s.sent = []
  last : ∀ peers ∈ s.sent.getLast?, Lists peers s.node.phases.knownPeers

/-- What the log and the coordinator say of the lists. -/
structure Logged {P A : Type} [PeerId P] (localPeerId : P) (s : Charted P A) : Prop where
  chain : s.applied.IsChain OnePeerApart
  nodup : ∀ peers ∈ s.applied, peers.Nodup
  hasher : s.node.world.coordinator.hasher = RendezvousHasher.new (s.topology localPeerId)
  reads : s.node.world.events.foldlM Event.readTopology 1 = some (s.topology localPeerId).length
  counts : s.node.world.events.filterMap Event.newCount = s.applied.map List.length

structure Charts {P A : Type} [SerdeJson] [DecidableEq P] [PeerId P] (score : Score P)
    (localPeerId : P) (s : Charted P A) : Prop where
  sound : s.node.Sound score (fun _ _ => True)
  logged : s.Logged localPeerId
  course : s.node.world.coordinatorAlive = true → s.Course

/-- A step that sends nothing keeps the course. -/
theorem Course.frame {P A : Type} [DecidableEq P] {s t : Charted P A} (hs : s.Course)
    (hsent : t.sent = s.sent) (hstage : t.node.stage = .registering ∨
      (∃ kvs, t.node.stage = .converging kvs) → s.sent = [])
    (hknown : s.sent ≠ [] → t.node.phases.knownPeers = s.node.phases.knownPeers) : t.Course := by
  constructor
  · rw [hsent]
    exact hs.chain
  · rw [hsent]
    exact hs.nodup
  · rw [hsent]
    exact hstage
  · intro peers hlast
    rw [hsent] at hlast
    have hne : s.sent ≠ [] := by
      intro hnil
      rw [hnil] at hlast
      cases hlast
    rw [hknown hne]
    exact hs.last peers hlast

/-- A list of the peers that are known afterwards is sent. -/
theorem Course.send {P A : Type} [DecidableEq P] {s t : Charted P A} {peers : List P}
    (hs : s.Course) (hsent : t.sent = s.sent ++ [peers])
    (hstage : t.node.stage ≠ .registering ∧ ∀ kvs, t.node.stage ≠ .converging kvs)
    (hpeers : Lists peers t.node.phases.knownPeers)
    (hapart : ∀ last ∈ s.sent.getLast?, OnePeerApart last peers) : t.Course := by
  constructor
  · rw [hsent]
    apply hs.chain.append (List.isChain_singleton peers)
    intro x hx y hy
    obtain rfl := Option.some.inj hy
    exact hapart x hx
  · rw [hsent]
    intro xs hxs
    obtain hxs | hxs := List.mem_append.mp hxs
    · exact hs.nodup xs hxs
    · obtain rfl := List.mem_singleton.mp hxs
      exact hpeers.1
  · rintro (hregistering | ⟨kvs, hconverging⟩)
    · exact absurd hregistering hstage.1
    · exact absurd hconverging (hstage.2 kvs)
  · intro xs hxs
    rw [hsent, List.getLast?_concat] at hxs
    obtain rfl := Option.some.inj hxs
    exact hpeers

theorem sent_append {P A : Type} {s : Charted P A} {t : Node P A} {more : List (List P)}
    (hbridge : t.bridge = s.node.bridge)
    (htx : t.phases.shardingTx = s.node.phases.shardingTx ++ more) :
    sent ⟨t, s.applied⟩ = s.sent ++ more := by
  unfold sent undelivered
  rw [hbridge, htx]
  cases s.node.bridge <;> simp

theorem phases_send {P A : Type} (message : ManagerMessage) (s : Node P A) :
    (s.send message).phases = s.phases := by
  unfold Node.send
  split_ifs <;> rfl

theorem Course.discover {P A : Type} [SerdeJson] [DecidableEq P] [PeerId P] [Multiaddr A]
    {s : Charted P A} {l : Label P} {phases : DiscoveryPhases P A} {stage : DiscoveryStage}
    {signal : Bool} (hs : s.Course) (h : Discovers s.node l phases stage signal) :
    (⟨{ s.node with phases := phases, stage := stage, convergenceSignal := signal },
      s.applied⟩ : Charted P A).Course := by
  cases h with
  | startConverge kvs hstage =>
    exact hs.frame rfl (fun _ => hs.early (Or.inl hstage)) (fun _ => rfl)
  | @convergeKv kv kvs phases hstage hkv =>
    have hnone := hs.early (Or.inr ⟨_, hstage⟩)
    refine hs.frame ?_ (fun _ => hnone) (fun hne => absurd hnone hne)
    unfold sent undelivered
    rw [Booting.convergeKv_shardingTx hkv]
  | @convergeError kv kvs phases hstage hkv =>
    have hnone := hs.early (Or.inr ⟨_, hstage⟩)
    rw [DiscoveryPhases.convergeKv_error hkv]
    exact hs.frame rfl (fun _ => hnone) (fun _ => rfl)
  | convergePanic hstage =>
    have hnone := hs.early (Or.inr ⟨_, hstage⟩)
    exact hs.frame rfl (fun _ => hnone) (fun _ => rfl)
  | convergeDone peers hstage hpeers =>
    have hnone := hs.early (Or.inr ⟨_, hstage⟩)
    refine hs.send (sent_append rfl rfl) (by simp) hpeers ?_
    intro last hlast
    rw [hnone] at hlast
    cases hlast
  | signalConvergence hstage => exact hs.frame rfl (by simp) (fun _ => rfl)
  | watchResponse events hstage => exact hs.frame rfl (by simp) (fun _ => rfl)
  | @processEvent peers event events phases hstage hevent hpeers =>
    obtain rfl | ⟨-, hsent⟩ := DiscoveryPhases.processEvent_sends hevent
    · exact hs.frame rfl (by simp) (fun _ => rfl)
    · refine hs.send (sent_append rfl hsent) (by simp) hpeers ?_
      intro last hlast
      exact OnePeerApart.of_lists hevent (hs.last last hlast) hpeers
  | @eventError peers event events phases hstage hevent =>
    rw [DiscoveryPhases.processEvent_error hevent]
    exact hs.frame rfl (by simp) (fun _ => rfl)
  | eventPanic hstage => exact hs.frame rfl (by simp) (fun _ => rfl)
  | stopDiscovery hstage => exact hs.frame rfl (by simp) (fun _ => rfl)

/-- The other tasks only move the lists along. -/
theorem Course.step {P A : Type} [SerdeJson] [DecidableEq P] [PeerId P] [Multiaddr A]
    {score : Score P} {s : Charted P A} {t : Node P A} {l : Label P} (hs : s.Course)
    (halive : s.node.world.coordinatorAlive = true) (h : Steps score s.node l t) :
    (⟨t, s.applied ++ appliedBy s.node l⟩ : Charted P A).Course := by
  have hstay : ∀ t : Node P A, t.undelivered = s.node.undelivered → t.stage = s.node.stage →
      t.phases.knownPeers = s.node.phases.knownPeers →
      (⟨t, s.applied ++ []⟩ : Charted P A).Course := by
    intro t hlists hstage hknown
    refine hs.frame ?_ ?_ (fun _ => hknown)
    · unfold sent
      rw [List.append_nil, hlists]
    · rw [hstage]
      exact hs.early
  cases h with
  | commit machineId specJson =>
    obtain ⟨etcd, watch, heq⟩ := commit_frame machineId specJson s.node
    rw [heq]
    exact hstay _ rfl rfl rfl
  | @forwardEvent c pending hw =>
    refine hstay _ (Booting.undelivered_send ..) (Booting.stage_send ..) ?_
    rw [phases_send]
  | discover hd =>
    have hnone : appliedBy s.node l = [] := by
      cases hd <;> rfl
    rw [hnone, List.append_nil]
    exact hs.discover hd
  | bridgeReceive hb hpeers =>
    refine hstay _ ?_ rfl rfl
    unfold undelivered
    rw [hb, hpeers]
  | @bridgeAsk peers hb =>
    refine hs.frame ?_ hs.early (fun _ => rfl)
    unfold sent undelivered
    simp only [appliedBy, hb, halive, if_true, List.append_assoc, List.singleton_append]
  | bridgeNotify hb =>
    refine hstay _ ?_ rfl rfl
    unfold undelivered
    rw [hb]
  | listen hn =>
    refine hstay _ ?_ ?_ ?_
    · exact Booting.undelivered_send _ ({ s.node with
        topologyNotices := s.node.topologyNotices - 1 } : Node P A)
    · exact Booting.stage_send _ ({ s.node with
        topologyNotices := s.node.topologyNotices - 1 } : Node P A)
    · simp only [phases_send]
  | sync hsignal =>
    refine hstay _ (Booting.undelivered_send ..) (Booting.stage_send ..) ?_
    simp only [phases_send]
  | _ => exact hstay _ rfl rfl rfl

/-- Only the bridge has the coordinator change its topology. -/
theorem coordinator_of_ne {P A : Type} [SerdeJson] [DecidableEq P] [PeerId P] [Multiaddr A]
    {score : Score P} {s t : Node P A} {l : Label P} (hs : s.Sound score (fun _ _ => True))
    (h : Steps score s l t) (hl : l ≠ .bridgeAsk) :
    t.world.coordinator = s.world.coordinator := by
  cases h with
  | commit machineId specJson =>
    obtain ⟨etcd, watch, heq⟩ := commit_frame machineId specJson s
    rw [heq]
  | forwardEvent hw => rw [send_world]
  | listen hn => simp only [send_world]
  | sync hsignal => simp only [send_world]
  | bridgeAsk hb => exact absurd rfl hl
  | advance hrunning hexec => exact (hs.advance hrunning hexec).frame.1
  | _ => rfl

/-- The coordinator applies a list and logs the numbers of peers. -/
theorem Logged.apply {P A : Type} [DecidableEq P] [PeerId P] {localPeerId : P}
    {s : Charted P A} {peers : List P} {t : Node P A} (hs : s.Logged localPeerId)
    (hcourse : s.Course) (hbridge : s.node.bridge = .asking peers)
    (halive : s.node.world.coordinatorAlive = true)
    (hworld : t.world = applyTopology peers s.node.world) :
    (⟨t, s.applied ++ [peers]⟩ : Charted P A).Logged localPeerId := by
  have hsent : s.sent = (s.applied ++ [peers]) ++ s.node.phases.shardingTx := by
    unfold sent undelivered
    simp only [hbridge, List.append_assoc, List.singleton_append]
  have htopology : (⟨t, s.applied ++ [peers]⟩ : Charted P A).topology localPeerId = peers := by
    unfold topology
    rw [List.getLast?_concat]
    rfl
  have hcount : s.node.world.coordinator.hasher.nodeCount = (s.topology localPeerId).length := by
    rw [hs.hasher]
    exact (RendezvousHasher.sortNodes_perm _).length_eq
  have hevents : t.world.events = s.node.world.events ++
      [.topologyChange s.node.world.coordinator.hasher.nodeCount peers.length] := by
    rw [hworld]
    simp only [applyTopology, halive, if_true, ShardingCoordinator.handleTopologyChanged]
  constructor
  · have hchain := hcourse.chain
    rw [hsent] at hchain
    exact hchain.left_of_append
  · intro xs hxs
    apply hcourse.nodup
    rw [hsent]
    exact List.mem_append_left _ hxs
  · rw [htopology, hworld]
    simp only [applyTopology, halive, if_true, ShardingCoordinator.handleTopologyChanged,
      RendezvousHasher.rebuild_eq_new]
  · rw [hevents, htopology, List.foldlM_append, hs.reads]
    simp [Event.readTopology, hcount]
  · rw [hevents, List.filterMap_append, hs.counts]
    simp [Event.newCount]

/-- A step that does not apply a list. -/
theorem Logged.quiet {P A : Type} [PeerId P] {localPeerId : P} {s : Charted P A} {t : Node P A}
    {es : List Event} (hs : s.Logged localPeerId)
    (hcoordinator : t.world.coordinator = s.node.world.coordinator)
    (hevents : t.world.events = s.node.world.events ++ es) (hquiet : ¬TopologyApplied es) :
    (⟨t, s.applied ++ []⟩ : Charted P A).Logged localPeerId := by
  obtain ⟨hread, hcounts⟩ := read_of_not_topologyApplied hquiet (s.topology localPeerId).length
  rw [List.append_nil]
  constructor
  · exact hs.chain
  · exact hs.nodup
  · rw [hcoordinator]
    exact hs.hasher
  · rw [hevents, List.foldlM_append, hs.reads]
    exact hread
  · rw [hevents, List.filterMap_append, hs.counts, hcounts, List.append_nil]

theorem Charts.step {P A : Type} [SerdeJson] [DecidableEq P] [PeerId P] [Multiaddr A]
    {score : Score P} {localPeerId : P} {s t : Charted P A} {l : Label P}
    (hs : s.Charts score localPeerId) (h : s.step score l = some t) :
    t.Charts score localPeerId := by
  obtain ⟨node, hnode, rfl⟩ := Option.map_eq_some_iff.mp h
  have hstep := Node.step_cases hnode
  refine ⟨(hs.sound.step (specsSatisfy_true s.node l) hstep).1, ?_, ?_⟩
  · by_cases hl : l = .bridgeAsk
    · subst hl
      obtain ⟨peers, hbridge, hworld⟩ := hstep.bridgeAsk_cases
      by_cases halive : s.node.world.coordinatorAlive = true
      · have hone : appliedBy s.node .bridgeAsk = [peers] := by
          simp only [appliedBy, hbridge, halive, if_true]
        rw [hone]
        exact hs.logged.apply (hs.course halive) hbridge halive hworld
      · have hnone : appliedBy s.node .bridgeAsk = [] := by
          simp only [appliedBy, hbridge, halive]
          rfl
        have hsame : node.world = s.node.world := by
          rw [hworld, applyTopology, if_neg halive]
        rw [hnone]
        have hevents : node.world.events = s.node.world.events ++ [] := by
          rw [hsame, List.append_nil]
        refine hs.logged.quiet (by rw [hsame]) hevents ?_
        rintro ⟨e, hmem, -⟩
        cases hmem
    · have hnone : appliedBy s.node l = [] := by
        cases l with
        | bridgeAsk => exact absurd rfl hl
        | _ => rfl
      obtain ⟨es, hlogs⟩ := hstep.logs hs.sound hl
      rw [hnone]
      exact hs.logged.quiet (coordinator_of_ne hs.sound hstep hl) hlogs.events hlogs.quiet
  · intro halive
    have hbefore := hstep.coordinatorAlive hs.sound halive
    exact (hs.course hbefore).step hbefore hstep

theorem charts_start {P A : Type} [SerdeJson] [DecidableEq P] [PeerId P] (score : Score P)
    {clusterId : String} {localPeerId : P} {localAddr : A} {logDebug : Bool} {nodeId : String}
    {etcd : Etcd} {now : ℤ} {s : Node P A}
    (h : Node.start clusterId localPeerId localAddr logDebug nodeId etcd now = some s) :
    (⟨s, []⟩ : Charted P A).Charts score localPeerId := by
  have hsound := sound_start score (fun _ _ => True) (fun _ _ _ => trivial) h
  obtain ⟨coordinator, hnew, rfl⟩ := Option.map_eq_some_iff.mp h
  obtain ⟨_, -, rfl⟩ := Option.map_eq_some_iff.mp hnew
  refine ⟨hsound, ⟨.nil, by simp, rfl, rfl, rfl⟩, fun _ => ⟨.nil, ?_, fun _ => rfl, ?_⟩⟩
  · intro peers hpeers
    cases hpeers
  · intro peers hpeers
    cases hpeers

/-- In every run of a node the coordinator applies duplicate-free lists of which each
differs from the one before by one peer at most. Its log tells their lengths in order,
each change starting from the count of the change before and the first from the node
alone, and the shard statistics count the peers of the list applied last. -/
theorem topologies_logged {P A : Type} [SerdeJson] [DecidableEq P] [PeerId P] [Multiaddr A]
    (score : Score P) (clusterId : String) (localPeerId : P) (localAddr : A) (logDebug : Bool)
    (nodeId : String) (etcd : Etcd) (now : ℤ) (s₀ : Node P A) (s : Charted P A)
    (labels : List (Label P))
    (hstart : Node.start clusterId localPeerId localAddr logDebug nodeId etcd now = some s₀)
    (hrun : Run (StepOf (step score)) ⟨s₀, []⟩ labels s) :
    s.applied.IsChain OnePeerApart ∧ (∀ peers ∈ s.applied, peers.Nodup) ∧
    s.node.world.events.filterMap Event.newCount = s.applied.map List.length ∧
    s.node.world.events.foldlM Event.readTopology 1 =
      some s.node.world.coordinator.handleGetShardStats.nodeCount ∧
    s.node.world.coordinator.handleGetShardStats.nodeCount = (s.topology localPeerId).length := by
  have hs : s.Charts score localPeerId := hrun.invariant
    (I := fun s => s.Charts score localPeerId) (fun _ _ _ hs hst => hs.step hst)
    (charts_start score hstart)
  have hcount : s.node.world.coordinator.handleGetShardStats.nodeCount =
      (s.topology localPeerId).length := by
    show s.node.world.coordinator.hasher.nodeCount = _
    rw [hs.logged.hasher]
    exact (RendezvousHasher.sortNodes_perm _).length_eq
  refine ⟨hs.logged.chain, hs.logged.nodup, hs.logged.counts, ?_, hcount⟩
  rw [hcount]
  exact hs.logged.reads

/-- A node converges alone and then sees a peer join. -/
theorem topologies_logged_join :
    let _ : SerdeJson := SerdeJson.knowing [otherMetadata.toJson]
    ∃ s : Charted Base58Text Ip4Text, s.applied.map List.length = [1, 2] ∧
      s.applied.IsChain OnePeerApart ∧
      s.node.world.events.filterMap Event.newCount = [1, 2] ∧
      s.node.world.events.foldlM Event.readTopology 1 = some 2 := by
  intro _
  let a := peerOf "12D3KooWAAAAAAAAAAAAAAAAAAAAAAAAAAAAAAAAAAAAAAAAAAAA"
  let b := peerOf "12D3KooWBBBBBBBBBBBBBBBBBBBBBBBBBBBBBBBBBBBBBBBBBBBB"
  let score : Score Base58Text := fun _ _ => 7
  let applies : List (Label Base58Text) := [.bridgeReceive, .bridgeAsk, .bridgeNotify]
  let joins : List (Label Base58Text) :=
    [.watchResponse [Etcd.event ⟨peerKey "lab" b, some otherMetadata.toJson.text⟩],
      .processEvent [a, b]]
  let labels := ([.startConverge [], .convergeDone [a], .signalConvergence] :
    List (Label Base58Text)) ++ applies ++ joins ++ applies
  obtain ⟨s₀, hstart, s, hrun, hlengths, hlast⟩ :
      ∃ s₀ ∈ Node.start "lab" a (Ip4Text.mk "/ip4/10.0.0.1/tcp/5000") false "node-a" ∅ 0,
      ∃ s ∈ labels.foldlM (step score) ⟨s₀, []⟩, s.applied.map List.length = [1, 2] ∧
        (s.topology a).length = 2 := by
    decide +kernel
  obtain ⟨hchain, -, hcounts, hreads, hstats⟩ := topologies_logged score "lab" a _ false "node-a"
    ∅ 0 s₀ s labels hstart (Run.of_foldlM hrun)
  rw [hlengths] at hcounts
  rw [hstats, hlast] at hreads
  exact ⟨s, hlengths, hchain, hcounts, hreads⟩

end Charted
end Neolaas
