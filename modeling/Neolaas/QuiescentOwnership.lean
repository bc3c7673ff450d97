import Neolaas.ManagerSettles
import Neolaas.NodeSteps

/-!
# Ownership in quiescent nodes

Between a topology change and the rebalance that answers it the actors of a node
may be misplaced, but then the bridge, a notice or a mailbox message still holds
the rebalance. So once nothing is on its way, the actors are those of the
machines that the node owns among the peers it knows.
-/
namespace Neolaas
open ChangeLog AtomicProgram LabelledRuns PeerId

namespace Node

/-- The peer lists that were sent to the coordinator and not yet applied. -/
def undelivered {P A : Type} (s : Node P A) : List (List P) :=
  match s.bridge with
  | .asking peers => peers :: s.phases.shardingTx
  | _ => s.phases.shardingTx

/-- A rebalance is due. -/
def Disturbed {P A : Type} (s : Node P A) : Prop :=
  s.bridge = .notifying ∨ 0 < s.topologyNotices ∨ .rebalanceActors ∈ s.mailbox

/-- The node is settled, or will be when the running handler has ended. -/
def OnCourse {P A : Type} [SerdeJson] [DecidableEq P] [PeerId P] (score : Score P)
    (s : Node P A) : Prop :=
  match s.running with
  | none => s.world.SettledIfAlive score
  | some (_, program) => Safe (World.steadySetting score Parses)
      (fun _ w => w.SettledIfAlive score) program s.world

/-- The world has a property, or will have it when the running handler has ended. -/
def Heading {P A : Type} [SerdeJson] [DecidableEq P] [PeerId P] (score : Score P)
    (Valid : String → String → Prop) (Q : World P → Prop) (s : Node P A) : Prop :=
  match s.running with
  | none => Q s.world
  | some (_, program) => Safe (World.steadySetting score Valid) (fun _ w => Q w) program s.world

/-- The last list on its way, or else the hasher, is of the known peers. -/
def Informed {P A : Type} [DecidableEq P] [PeerId P] (s : Node P A) : Prop :=
  match s.undelivered.getLast? with
  | some peers => Lists peers s.phases.knownPeers
  | none => s.world.coordinatorAlive = true →
      s.world.coordinator.hasher.BuiltOver s.phases.knownPeers

/-- What holds in every reached state: misplaced actors imply a rebalance that is
due, and an outdated hasher a list on its way. -/
structure Tracks {P A : Type} [SerdeJson] [DecidableEq P] [PeerId P] (score : Score P)
    (s : Node P A) : Prop where
  localPeerId : s.world.coordinator.localPeerId = s.phases.localPeerId
  specs : s.world.ValidSpecs Parses
  contained : s.world.Contained
  informed : (∀ kvs, s.stage ≠ .converging kvs) → s.stage ≠ .failed → s.Informed
  onCourse : s.managerAlive = true → ¬s.Disturbed → s.OnCourse score

theorem Heading.steady {P A : Type} [SerdeJson] [DecidableEq P] [PeerId P] {score : Score P}
    {Valid : String → String → Prop} {Q : World P → Prop} {s t : Node P A}
    (hs : s.Heading score Valid Q) (hQ : World.Attained score Valid Q)
    (hworld : World.Steady Valid s.world t.world) (hrunning : t.running = s.running) :
    t.Heading score Valid Q := by
  unfold Heading at hs ⊢
  rw [hrunning]
  cases hrun : s.running with
  | none =>
    simp only [hrun] at hs
    exact hQ.steady _ _ hworld hs
  | some task =>
    simp only [hrun] at hs
    exact hs.interfere hworld

theorem Informed.congr {P A : Type} [DecidableEq P] [PeerId P] {s t : Node P A}
    (hs : s.Informed) (hlists : t.undelivered = s.undelivered)
    (hknown : t.phases.knownPeers = s.phases.knownPeers)
    (hcoordinator : t.world.coordinator = s.world.coordinator)
    (halive : t.world.coordinatorAlive = true → s.world.coordinatorAlive = true) :
    t.Informed := by
  unfold Informed at hs ⊢
  rw [hlists, hknown, hcoordinator]
  cases hlast : s.undelivered.getLast? with
  | none =>
    simp only [hlast] at hs
    exact fun h => hs (halive h)
  | some peers =>
    simp only [hlast] at hs
    exact hs

/-- The list that was sent last is of the known peers. -/
theorem informed_of_sent {P A : Type} [DecidableEq P] [PeerId P] {t : Node P A} {peers : List P}
    {before : List (List P)} (hlists : t.phases.shardingTx = before ++ [peers])
    (hpeers : Lists peers t.phases.knownPeers) : t.Informed := by
  have hlast : t.undelivered.getLast? = some peers := by
    unfold undelivered
    cases t.bridge <;> simp [hlists, List.getLast?_cons]
  unfold Informed
  rw [hlast]
  exact hpeers

/-- Discovery keeps the node's identity and sends the peers that it knows. -/
theorem Informed.discover {P A : Type} [SerdeJson] [DecidableEq P] [PeerId P] [Multiaddr A]
    {s : Node P A} {l : Label P} {phases : DiscoveryPhases P A} {stage : DiscoveryStage}
    {signal : Bool} (hs : (∀ kvs, s.stage ≠ .converging kvs) → s.stage ≠ .failed → s.Informed)
    (h : Discovers s l phases stage signal) :
    phases.localPeerId = s.phases.localPeerId ∧
      ((∀ kvs, stage ≠ .converging kvs) → stage ≠ .failed → ({ s with
        phases := phases, stage := stage, convergenceSignal := signal } : Node P A).Informed) := by
  -- A step that leaves the phases alone and does not start from the snapshot.
  have hsame : ∀ (stage : DiscoveryStage) (signal : Bool),
      (∀ kvs, s.stage ≠ .converging kvs) → s.stage ≠ .failed →
      ({ s with phases := s.phases, stage := stage, convergenceSignal := signal } :
        Node P A).Informed :=
    fun _ _ hstage hfailed => (hs hstage hfailed).congr rfl rfl rfl id
  cases h with
  | startConverge kvs => exact ⟨rfl, fun h _ => absurd rfl (h kvs)⟩
  | @convergeKv kv kvs phases hstage hkv =>
    exact ⟨(DiscoveryPhases.convergeKv_ok hkv).1.2, fun h _ => absurd rfl (h kvs)⟩
  | @convergeError kv kvs phases hstage hkv =>
    rw [DiscoveryPhases.convergeKv_error hkv]
    exact ⟨rfl, fun _ h => absurd rfl h⟩
  | convergePanic => exact ⟨rfl, fun _ h => absurd rfl h⟩
  | convergeDone peers hstage hpeers =>
    exact ⟨rfl, fun _ _ => informed_of_sent rfl hpeers⟩
  | signalConvergence hstage =>
    exact ⟨rfl, fun _ _ => hsame _ _ (by simp [hstage]) (by simp [hstage])⟩
  | watchResponse events hstage =>
    exact ⟨rfl, fun _ _ => hsame _ _ (by simp [hstage]) (by simp [hstage])⟩
  | @processEvent peers event events phases hstage hevent hpeers =>
    obtain rfl | ⟨hnode, hsent⟩ := DiscoveryPhases.processEvent_sends hevent
    · exact ⟨rfl, fun _ _ => hsame _ _ (by simp [hstage]) (by simp [hstage])⟩
    · exact ⟨hnode.2, fun _ _ => informed_of_sent hsent hpeers⟩
  | @eventError peers event events phases hstage hevent =>
    rw [DiscoveryPhases.processEvent_error hevent]
    exact ⟨rfl, fun _ _ => hsame _ _ (by simp [hstage]) (by simp [hstage])⟩
  | eventPanic hstage =>
    exact ⟨rfl, fun _ _ => hsame _ _ (by simp [hstage]) (by simp [hstage])⟩
  | stopDiscovery hstage =>
    refine ⟨rfl, fun _ _ => hsame _ _ ?_ ?_⟩
    · intro kvs hkvs
      rw [hkvs] at hstage
      obtain h | h | h := hstage <;> cases h
    · intro hfailed
      rw [hfailed] at hstage
      obtain h | h | h := hstage <;> cases h

/-- Applying the oldest list makes the hasher that of the known peers, when no
other list is on its way. -/
theorem Informed.bridgeAsk {P A : Type} [DecidableEq P] [PeerId P] {s : Node P A}
    (hs : s.Informed) {peers : List P} (hbridge : s.bridge = .asking peers) :
    ({ s with world := applyTopology peers s.world, bridge := .notifying } :
      Node P A).Informed := by
  have hbefore : s.undelivered = peers :: s.phases.shardingTx := by
    unfold undelivered
    rw [hbridge]
  unfold Informed at hs ⊢
  rw [hbefore] at hs
  show match s.phases.shardingTx.getLast? with
    | some peers => Lists peers s.phases.knownPeers
    | none => _
  cases hrest : s.phases.shardingTx.getLast? with
  | some last =>
    simp only [List.getLast?_cons, hrest, Option.getD_some] at hs
    exact hs
  | none =>
    simp only [List.getLast?_cons, hrest, Option.getD_none] at hs
    intro halive
    unfold applyTopology at halive ⊢
    split_ifs at halive ⊢ with hcoordinator
    · exact ⟨peers, hs.2, Or.inl rfl⟩
    · exact absurd halive hcoordinator

/-- A step keeps the last list or the hasher that of the known peers. -/
theorem Informed.step {P A : Type} [SerdeJson] [DecidableEq P] [PeerId P] [Multiaddr A]
    {score : Score P} {Valid : String → String → Prop} {s t : Node P A} {l : Label P}
    (hs : (∀ kvs, s.stage ≠ .converging kvs) → s.stage ≠ .failed → s.Informed)
    (hsound : s.Sound score Valid) (h : Steps score s l t) :
    t.phases.localPeerId = s.phases.localPeerId ∧
      ((∀ kvs, t.stage ≠ .converging kvs) → t.stage ≠ .failed → t.Informed) := by
  have hcongr : ∀ t : Node P A, t.undelivered = s.undelivered → t.phases = s.phases →
      t.stage = s.stage → t.world.coordinator = s.world.coordinator →
      (t.world.coordinatorAlive = true → s.world.coordinatorAlive = true) →
      t.phases.localPeerId = s.phases.localPeerId ∧
        ((∀ kvs, t.stage ≠ .converging kvs) → t.stage ≠ .failed → t.Informed) := by
    intro t hlists hphases hstage hcoordinator halive
    rw [hphases, hstage]
    exact ⟨rfl, fun hc hf =>
      (hs hc hf).congr hlists (by rw [hphases]) hcoordinator halive⟩
  cases h with
  | commit machineId specJson =>
    obtain ⟨etcd, watch, heq⟩ := commit_frame machineId specJson s
    rw [heq]
    exact hcongr _ rfl rfl rfl rfl id
  | openWatch => exact hcongr _ rfl rfl rfl rfl id
  | loseWatch => exact hcongr _ rfl rfl rfl rfl id
  | forwardEvent =>
    unfold Node.send
    split_ifs <;> exact hcongr _ rfl rfl rfl rfl id
  | discover hd => exact Informed.discover hs hd
  | @bridgeReceive peers rest hbridge hpeers =>
    refine ⟨rfl, fun hc hf => (hs hc hf).congr ?_ rfl rfl id⟩
    simp [undelivered, hbridge, hpeers]
  | bridgeAsk hbridge => exact ⟨rfl, fun hc hf => (hs hc hf).bridgeAsk hbridge⟩
  | bridgeNotify hbridge =>
    refine hcongr _ ?_ rfl rfl rfl id
    simp [undelivered, hbridge]
  | listen =>
    unfold Node.send
    split_ifs <;> exact hcongr _ rfl rfl rfl rfl id
  | sync =>
    unfold Node.send
    split_ifs <;> exact hcongr _ rfl rfl rfl rfl id
  | handle => exact hcongr _ rfl rfl rfl rfl id
  | @advance message op next result world hrunning hexec =>
    obtain ⟨hcoordinator, -, halive⟩ := (hsound.advance hrunning hexec).frame
    exact hcongr _ rfl rfl rfl hcoordinator halive
  | panic => exact hcongr _ rfl rfl rfl rfl id
  | finish => exact hcongr _ rfl rfl rfl rfl id
  | ask => exact hcongr _ rfl rfl rfl rfl id
  | tick => exact hcongr _ rfl rfl rfl rfl id

/-- A message other than a rebalance disturbs nothing. -/
theorem disturbed_send {P A : Type} {message : ManagerMessage} {s : Node P A}
    (hne : message ≠ .rebalanceActors) : (s.send message).Disturbed ↔ s.Disturbed := by
  unfold send Disturbed
  split_ifs with halive
  · simp [hne.symm]
  · exact Iff.rfl

theorem changeMessage_ne (c : Change String String) : changeMessage c ≠ .rebalanceActors := by
  unfold changeMessage
  cases c.value <;> simp

/-- A step keeps an undisturbed node heading for what its handlers attain, or
disturbs it. -/
theorem Heading.step {P A : Type} [SerdeJson] [DecidableEq P] [PeerId P] [Multiaddr A]
    {score : Score P} {Valid : String → String → Prop} {Q : World P → Prop} {s t : Node P A}
    {l : Label P} (hQ : World.Attained score Valid Q)
    (hs : s.managerAlive = true → ¬s.Disturbed → s.Heading score Valid Q)
    (hcontained : s.world.Contained) (hspecs : s.world.ValidSpecs Valid)
    (hsound : s.Sound score Valid) (hl : s.SpecsSatisfy Valid l) (h : Steps score s l t)
    (halive : t.managerAlive = true) (hcalm : ¬t.Disturbed) : t.Heading score Valid Q := by
  have hrefl := World.Steady.refl Valid s.world
  cases h with
  | commit machineId specJson =>
    obtain ⟨-, -, heq⟩ | heq := commit_cases machineId specJson s
    · rw [heq] at halive hcalm ⊢
      exact hs halive hcalm
    · have hvalid : ∀ spec, specJson = some spec → Valid machineId spec := by
        intro spec hspec
        subst hspec
        exact hl
      rw [heq] at halive hcalm ⊢
      refine (hs halive hcalm).steady hQ ⟨?_, rfl, rfl⟩ rfl
      exact interferes_apply Valid s.world _ ⟨machineId, rfl, hvalid⟩
  | openWatch => exact (hs halive hcalm).steady hQ hrefl rfl
  | loseWatch => exact (hs halive hcalm).steady hQ hrefl rfl
  | @forwardEvent c pending hw =>
    rw [disturbed_send (changeMessage_ne c)] at hcalm
    rw [send_managerAlive] at halive
    refine (hs halive hcalm).steady hQ ?_ (send_running _ _)
    rw [send_world]
    exact hrefl
  | discover hd => exact (hs halive hcalm).steady hQ hrefl rfl
  | bridgeReceive hbridge =>
    refine (hs halive ?_).steady hQ hrefl rfl
    intro hdist
    apply hcalm
    obtain hb | hn := hdist
    · rw [hbridge] at hb
      cases hb
    · exact Or.inr hn
  | bridgeAsk hbridge => exact absurd (Or.inl rfl) hcalm
  | bridgeNotify hbridge => exact absurd (Or.inr (Or.inl (Nat.succ_pos _))) hcalm
  | listen hn =>
    have hmanager : s.managerAlive = true := by simpa using halive
    refine absurd (Or.inr (Or.inr ?_)) hcalm
    simp [Node.send, hmanager]
  | sync hsignal =>
    have hcalm' : ¬(s.send .syncAllMachines).Disturbed := hcalm
    rw [disturbed_send (by simp)] at hcalm'
    have hmanager : s.managerAlive = true := by simpa using halive
    refine (hs hmanager hcalm').steady hQ ?_ (send_running _ _)
    rw [send_world]
    exact hrefl
  | @handle machineIds message mailbox hrunning hmailbox hmanager hkeys =>
    show Safe _ _ _ _
    by_cases hmessage : message = .rebalanceActors
    · subst hmessage
      exact hQ.rebalance machineIds s.world hkeys hcontained hspecs
    · have hcalm' : ¬s.Disturbed := by
        intro hdist
        apply hcalm
        obtain hb | hn | hm := hdist
        · exact Or.inl hb
        · exact Or.inr (Or.inl hn)
        · rw [hmailbox, List.mem_cons] at hm
          exact Or.inr (Or.inr (hm.resolve_left (Ne.symm hmessage)))
      have hsettled := hs hmanager hcalm'
      unfold Heading at hsettled
      simp only [hrunning] at hsettled
      have hmem : message ∈ s.mailbox := by
        rw [hmailbox]
        exact List.mem_cons_self
      exact hQ.handler message (hsound.mailed message hmem) hmessage machineIds s.world
        hsound.content hsettled
  | @advance message op next result world hrunning hexec =>
    have hcourse := hs halive hcalm
    unfold Heading at hcourse ⊢
    simp only [hrunning] at hcourse
    exact (hcourse.advance hexec).2
  | panic => cases halive
  | @finish message reply listenerAsking hrunning =>
    have hcourse := hs halive hcalm
    unfold Heading at hcourse ⊢
    simp only [hrunning] at hcourse
    exact hcourse.finish
  | ask machineId message hm =>
    exact (hs halive hcalm).steady hQ
      ⟨interferes_ask Valid machineId message s.world, rfl, rfl⟩ rfl
  | tick now =>
    refine (hs halive hcalm).steady hQ ⟨?_, rfl, rfl⟩ rfl
    exact ⟨rfl, rfl, rfl, fun _ => Iff.rfl, ⟨[], by simp, by simp⟩, id⟩

theorem Tracks.step {P A : Type} [SerdeJson] [DecidableEq P] [PeerId P] [Multiaddr A]
    {score : Score P} {s t : Node P A} {l : Label P} (hs : s.Tracks score)
    (hsound : s.Sound score Parses) (hl : s.SpecsSatisfy Parses l) (h : Steps score s l t) :
    t.Tracks score := by
  have hworld := (hsound.step hl h).2
  obtain ⟨hlocal, hinformed⟩ := Informed.step hs.informed hsound h
  constructor
  · rw [hworld.localPeerId, hlocal]
    exact hs.localPeerId
  · exact hworld.validSpecs hs.specs
  · exact hworld.contained hs.contained
  · exact hinformed
  · exact Heading.step (World.attained_settledIfAlive score) hs.onCourse hs.contained hs.specs
      hsound hl h

theorem tracks_start {P A : Type} [SerdeJson] [DecidableEq P] [PeerId P] {score : Score P}
    {clusterId : String} {localPeerId : P} {localAddr : A} {logDebug : Bool} {nodeId : String}
    {etcd : Etcd} {now : ℤ} {s : Node P A}
    (h : start clusterId localPeerId localAddr logDebug nodeId etcd now = some s) :
    s.Tracks score := by
  obtain ⟨coordinator, hnew, rfl⟩ := Option.map_eq_some_iff.mp h
  obtain ⟨_, -, rfl⟩ := Option.map_eq_some_iff.mp hnew
  constructor
  · rfl
  · intro machineId specJson hget
    simp [MachineActorManagerActor.new] at hget
  · intro machineId hmem
    simp [MachineActorManagerActor.new] at hmem
  · intro _ _ _
    exact ⟨[localPeerId], by simp [DiscoveryPhases.new], Or.inl rfl⟩
  · intro _ _ _ machineId
    simp [MachineActorManagerActor.new]

/-- A state that a node reaches, over some content of etcd, while every spec that
is stored parses. -/
def Reached {P A : Type} [SerdeJson] [DecidableEq P] [PeerId P] [Multiaddr A] (score : Score P)
    (s : Node P A) : Prop :=
  ∃ clusterId localPeerId localAddr logDebug nodeId etcd now s₀ labels,
    start clusterId localPeerId localAddr logDebug nodeId etcd now = some s₀ ∧
      World.ValidContent Parses etcd ∧
      Run (Guarded (SpecsSatisfy Parses) (StepOf (Node.step score))) s₀ labels s

theorem Reached.tracks {P A : Type} [SerdeJson] [DecidableEq P] [PeerId P] [Multiaddr A]
    {score : Score P} {s : Node P A} (h : s.Reached score) : s.Tracks score := by
  obtain ⟨_, _, _, _, _, _, _, s₀, labels, hstart, hcontent, hrun⟩ := h
  have hs := hrun.invariant (I := fun s => s.Sound score Parses ∧ s.Tracks score) ?_
    ⟨sound_start score Parses hcontent hstart, tracks_start hstart⟩
  · exact hs.2
  · intro s l t hs hstep
    have hcases := step_cases hstep.2
    exact ⟨(hs.1.step hstep.1 hcases).1, hs.2.step hs.1 hstep.1 hcases⟩

/-- Nothing is on its way in the node: all channels and mailboxes are empty and
no task is in the middle of a step, and nobody has died. -/
structure Quiescent {P A : Type} (s : Node P A) : Prop where
  managerAlive : s.managerAlive = true
  coordinatorAlive : s.world.coordinatorAlive = true
  mailbox : s.mailbox = []
  running : s.running = none
  shardingTx : s.phases.shardingTx = []
  bridge : s.bridge = .waiting
  notices : s.topologyNotices = 0
  discovery : s.stage = .registering ∨ s.stage = .converged ∨ s.stage = .maintenance [] ∨
    s.stage = .stopped

instance {P A : Type} [DecidableEq P] (s : Node P A) : Decidable s.Quiescent :=
  decidable_of_iff (s.managerAlive = true ∧ s.world.coordinatorAlive = true ∧ s.mailbox = [] ∧
    s.running = none ∧ s.phases.shardingTx = [] ∧ s.bridge = .waiting ∧ s.topologyNotices = 0 ∧
    (s.stage = .registering ∨ s.stage = .converged ∨ s.stage = .maintenance [] ∨
      s.stage = .stopped))
    ⟨fun ⟨hm, hc, hbox, hrun, htx, hb, hn, hd⟩ => ⟨hm, hc, hbox, hrun, htx, hb, hn, hd⟩,
      fun h => ⟨h.managerAlive, h.coordinatorAlive, h.mailbox, h.running, h.shardingTx, h.bridge,
        h.notices, h.discovery⟩⟩

/-- A quiescent node is where it was heading, and its hasher is that of its peers. -/
theorem Quiescent.arrived {P A : Type} [SerdeJson] [DecidableEq P] [PeerId P] {score : Score P}
    {Valid : String → String → Prop} {Q : World P → Prop} {s : Node P A} (hq : s.Quiescent)
    (hinformed : (∀ kvs, s.stage ≠ .converging kvs) → s.stage ≠ .failed → s.Informed)
    (hheading : s.managerAlive = true → ¬s.Disturbed → s.Heading score Valid Q) :
    Q s.world ∧ s.world.coordinator.hasher.BuiltOver s.phases.knownPeers := by
  constructor
  · have hcalm : ¬s.Disturbed := by
      intro hdist
      obtain hb | hn | hm := hdist
      · rw [hq.bridge] at hb
        cases hb
      · rw [hq.notices] at hn
        omega
      · rw [hq.mailbox] at hm
        cases hm
    have hcourse := hheading hq.managerAlive hcalm
    unfold Heading at hcourse
    simp only [hq.running] at hcourse
    exact hcourse
  · have hstage := hq.discovery
    have hsent : s.Informed := by
      apply hinformed
      · intro kvs hkvs
        rw [hkvs] at hstage
        obtain h | h | h | h := hstage <;> cases h
      · intro hfailed
        rw [hfailed] at hstage
        obtain h | h | h | h := hstage <;> cases h
    unfold Informed undelivered at hsent
    simp only [hq.bridge, hq.shardingTx] at hsent
    exact hsent hq.coordinatorAlive

/-- A quiescent node has actors for the machines that it owns among its peers. -/
theorem Tracks.quiescent {P A : Type} [SerdeJson] [DecidableEq P] [PeerId P] [LawfulPeerId P]
    {score : Score P} {s : Node P A} (hs : s.Tracks score) (hq : s.Quiescent) {peers : List P}
    (hpeers : Lists peers s.phases.knownPeers) (machineId : String) :
    machineId ∈ s.world.manager.actors ↔ machineId ∈ s.world.manager.machineSpecs ∧
      (RendezvousHasher.new peers).lookup score machineId = some s.phases.localPeerId := by
  obtain ⟨hsettles, hbuilt⟩ := hq.arrived hs.informed hs.onCourse
  have hsettled : s.world.Settled score := hsettles hq.coordinatorAlive
  have hlisted : (RendezvousHasher.new peers).BuiltOver s.phases.knownPeers :=
    ⟨peers, hpeers.2, Or.inl rfl⟩
  rw [hsettled machineId]
  apply and_congr_right
  intro _
  rw [ShardingCoordinator.Owns, hs.localPeerId, hbuilt.lookup_iff toBase58_injective,
    hlisted.lookup_iff toBase58_injective]

/-- In every reached quiescent state of a node the machines with an actor are the
cached machines whose owner over the known peers is the local peer. So among
quiescent nodes with equal known peers and equal cached machines no machine has
two actors, and if the known peers are these nodes, every machine has one. -/
theorem quiescent_ownership {P A ι : Type} [SerdeJson] [DecidableEq P] [PeerId P]
    [LawfulPeerId P] [Multiaddr A] (score : Score P) (nodes : ι → Node P A)
    (hreached : ∀ i, (nodes i).Reached score) (hquiescent : ∀ i, (nodes i).Quiescent) :
    (∀ i peers, Lists peers (nodes i).phases.knownPeers → ∀ machineId,
      machineId ∈ (nodes i).world.manager.actors ↔
        machineId ∈ (nodes i).world.manager.machineSpecs ∧
          (RendezvousHasher.new peers).lookup score machineId =
            some (nodes i).phases.localPeerId) ∧
    ∀ known : Finset P, (∀ i, (nodes i).phases.knownPeers = known) →
      Function.Injective (fun i => (nodes i).phases.localPeerId) → ∀ machineId,
        (∀ i j, machineId ∈ (nodes i).world.manager.actors →
          machineId ∈ (nodes j).world.manager.actors → i = j) ∧
        (known.Nonempty → (∀ p ∈ known, ∃ i, (nodes i).phases.localPeerId = p) →
          (∀ i, machineId ∈ (nodes i).world.manager.machineSpecs) →
          ∃! i, machineId ∈ (nodes i).world.manager.actors) := by
  have hone : ∀ i peers, Lists peers (nodes i).phases.knownPeers → ∀ machineId,
      machineId ∈ (nodes i).world.manager.actors ↔
        machineId ∈ (nodes i).world.manager.machineSpecs ∧
          (RendezvousHasher.new peers).lookup score machineId =
            some (nodes i).phases.localPeerId :=
    fun i peers hpeers machineId => (hreached i).tracks.quiescent (hquiescent i) hpeers machineId
  refine ⟨hone, ?_⟩
  intro known hknown hinjective machineId
  have hlists : ∀ i, Lists known.toList (nodes i).phases.knownPeers :=
    fun i => ⟨known.nodup_toList, by rw [hknown i, Finset.toList_toFinset]⟩
  have hunique : ∀ i j, machineId ∈ (nodes i).world.manager.actors →
      machineId ∈ (nodes j).world.manager.actors → i = j := by
    intro i j hi hj
    have howner := ((hone i _ (hlists i) machineId).mp hi).2
    have howner' := ((hone j _ (hlists j) machineId).mp hj).2
    exact hinjective (Option.some.inj (howner.symm.trans howner'))
  refine ⟨hunique, ?_⟩
  intro hnonempty hmembers hcached
  have hne : known.toList ≠ [] := by
    rw [ne_eq, Finset.toList_eq_nil]
    exact hnonempty.ne_empty
  obtain ⟨owner, hmem, hlookup⟩ := RendezvousHasher.exists_lookup_new score hne machineId
  obtain ⟨i, hi⟩ := hmembers owner (Finset.mem_toList.mp hmem)
  have hactor : machineId ∈ (nodes i).world.manager.actors := by
    rw [hone i _ (hlists i) machineId, hi]
    exact ⟨hcached i, hlookup⟩
  exact ⟨i, hactor, fun j hj => hunique j i hj hactor⟩

/-- A run of a node of a cluster of two, through the initial sync of one machine
and the rebalance after it. The sync takes the given number of operations. -/
def twoNodeRun (spec : Json) (peers : List Base58Text) (other : Base58Text) (operations : ℕ) :
    List (Label Base58Text) :=
  ([.commit "m1" (some spec.text),
      .startConverge [KeyValue.ofText (peerKey "lab" other) otherMetadata.toJson.text],
      .convergeKv, .convergeDone peers, .signalConvergence, .bridgeReceive, .bridgeAsk,
      .bridgeNotify, .sync, .handle []] : List (Label Base58Text)) ++
    List.replicate operations Label.advance ++
    ([.finish, .listen, .handle ["m1"], .advance, .advance, .finish] : List (Label Base58Text))

/-- Two nodes of equal scores that have both converged and synced one machine. -/
theorem quiescent_ownership_two_nodes :
    let spec : Json := .object [("adminState", .string "available"), ("cluster", .string "lab")]
    let _ : SerdeJson := SerdeJson.knowing [spec, otherMetadata.toJson]
    ∃ nodes : Bool → Node Base58Text Ip4Text,
      (∀ i, (nodes i).Reached (fun _ _ => 7)) ∧ (∀ i, (nodes i).Quiescent) ∧
        ∃! i, "m1" ∈ (nodes i).world.manager.actors := by
  intro spec _
  let a := peerOf "12D3KooWAAAAAAAAAAAAAAAAAAAAAAAAAAAAAAAAAAAAAAAAAAAA"
  let b := peerOf "12D3KooWBBBBBBBBBBBBBBBBBBBBBBBBBBBBBBBBBBBBBBBBBBBB"
  let score : Score Base58Text := fun _ _ => 7
  let synced (p : Base58Text) (t : Node Base58Text Ip4Text) : Prop := t.Quiescent ∧
    t.phases.knownPeers = {a, b} ∧ t.phases.localPeerId = p ∧
    "m1" ∈ t.world.manager.machineSpecs
  have hempty : World.ValidContent Parses ∅ := fun _ _ h => by simp at h
  obtain ⟨s, hs, hruns⟩ :
      ∃ s ∈ start "lab" a (Ip4Text.mk "/ip4/10.0.0.1/tcp/5000") false "node-a" ∅ 0,
      ∃ t ∈ (twoNodeRun spec [a, b] b 5).foldlM
        (guardedNext (SpecsSatisfy Parses) (Node.step score)) s, synced a t := by
    decide +kernel
  obtain ⟨s', hs', hruns'⟩ :
      ∃ s ∈ start "lab" b (Ip4Text.mk "/ip4/10.0.0.2/tcp/5000") false "node-b" ∅ 0,
      ∃ t ∈ (twoNodeRun spec [a, b] a 6).foldlM
        (guardedNext (SpecsSatisfy Parses) (Node.step score)) s, synced b t := by
    decide +kernel
  obtain ⟨t, hrun, hquiet, hknown, hlocal, hspec⟩ := Run.exists_guarded_of_foldlM
    (SpecsSatisfy Parses) (Node.step score) (synced a) s (twoNodeRun spec [a, b] b 5) hruns
  obtain ⟨t', hrun', hquiet', hknown', hlocal', hspec'⟩ := Run.exists_guarded_of_foldlM
    (SpecsSatisfy Parses) (Node.step score) (synced b) s' (twoNodeRun spec [a, b] a 6) hruns'
  let nodes : Bool → Node Base58Text Ip4Text := fun i => if i then t' else t
  have hreached : ∀ i, (nodes i).Reached score := by
    intro i
    cases i with
    | false => exact ⟨_, _, _, _, _, _, _, s, _, hs, hempty, hrun⟩
    | true => exact ⟨_, _, _, _, _, _, _, s', _, hs', hempty, hrun'⟩
  have hquiescent : ∀ i, (nodes i).Quiescent := by
    intro i
    cases i with
    | false => exact hquiet
    | true => exact hquiet'
  refine ⟨nodes, hreached, hquiescent, ?_⟩
  apply ((quiescent_ownership score nodes hreached hquiescent).2 {a, b} ?_ ?_ "m1").2
  · simp
  · intro p hp
    rw [Finset.mem_insert, Finset.mem_singleton] at hp
    obtain rfl | rfl := hp
    · exact ⟨false, hlocal⟩
    · exact ⟨true, hlocal'⟩
  · intro i
    cases i with
    | false => exact hspec
    | true => exact hspec'
  · intro i
    cases i with
    | false => exact hknown
    | true => exact hknown'
  · intro i j hij
    have hne : a ≠ b := by decide
    cases i <;> cases j <;> simp_all [nodes]

end Node
end Neolaas
