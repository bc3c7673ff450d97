import Neolaas.ManagerSteps
import Neolaas.NodeSystem

/-!
# What a step of a node can do

Every label with the states between which it leads. From these cases follow the
soundness of a node, that its messages and stored machines are valid and its
running handler is within the manager's steps, and what a step does to the world
that the tasks share.
-/
namespace Neolaas
open ChangeLog AtomicProgram LabelledRuns

/-- The message that a change of a machine becomes. -/
def changeMessage (c : Change String String) : ManagerMessage :=
  let machineId := (stripPrefix machinesPrefix c.key).getD c.key
  match c.value with
  | some specJson => .etcdMachineEvent machineId .put (some specJson)
  | none => .etcdMachineEvent machineId .delete none

/-- Every event of a text key and a text value is forwarded. -/
theorem machineEvent_event (c : Change String String) :
    machineEvent (Etcd.event c) = some (changeMessage c) := by
  obtain ⟨key, value⟩ := c
  cases value with
  | none => simp [machineEvent, Etcd.event, changeMessage]
  | some value => simp [machineEvent, Etcd.event, changeMessage]

namespace Node

/-- The steps of the discovery controller: its phases, stage and signal after. -/
inductive Discovers {P A : Type} [SerdeJson] [DecidableEq P] [PeerId P] [Multiaddr A]
    (s : Node P A) : Label P → DiscoveryPhases P A → DiscoveryStage → Bool → Prop
  | startConverge (kvs : List KeyValue) (h : s.stage = .registering) :
    Discovers s (.startConverge kvs) s.phases (.converging kvs) s.convergenceSignal
  | convergeKv {kv : KeyValue} {kvs : List KeyValue} {phases : DiscoveryPhases P A}
    (h : s.stage = .converging (kv :: kvs)) (hkv : s.phases.convergeKv kv = .ok phases) :
    Discovers s .convergeKv phases (.converging kvs) s.convergenceSignal
  | convergeError {kv : KeyValue} {kvs : List KeyValue} {phases : DiscoveryPhases P A}
    (h : s.stage = .converging (kv :: kvs)) (hkv : s.phases.convergeKv kv = .error phases) :
    Discovers s .convergeKv phases .failed s.convergenceSignal
  | convergePanic {kv : KeyValue} {kvs : List KeyValue} (h : s.stage = .converging (kv :: kvs)) :
    Discovers s .convergeKv s.phases .failed s.convergenceSignal
  | convergeDone (peers : List P) (h : s.stage = .converging [])
    (hpeers : Lists peers s.phases.knownPeers) :
    Discovers s (.convergeDone peers) (s.phases.convergeDone (fun _ => peers)) .converged
      s.convergenceSignal
  | signalConvergence (h : s.stage = .converged) :
    Discovers s .signalConvergence s.phases (.maintenance []) true
  | watchResponse (events : List WatchEvent) (h : s.stage = .maintenance []) :
    Discovers s (.watchResponse events) s.phases (.maintenance events) s.convergenceSignal
  | processEvent {peers : List P} {event : WatchEvent} {events : List WatchEvent}
    {phases : DiscoveryPhases P A} (h : s.stage = .maintenance (event :: events))
    (hevent : s.phases.processEvent (fun _ => peers) event = .ok phases)
    (hpeers : Lists peers phases.knownPeers) :
    Discovers s (.processEvent peers) phases (.maintenance events) s.convergenceSignal
  | eventError {peers : List P} {event : WatchEvent} {events : List WatchEvent}
    {phases : DiscoveryPhases P A} (h : s.stage = .maintenance (event :: events))
    (hevent : s.phases.processEvent (fun _ => peers) event = .error phases) :
    Discovers s (.processEvent peers) phases (.maintenance []) s.convergenceSignal
  | eventPanic {peers : List P} {event : WatchEvent} {events : List WatchEvent}
    (h : s.stage = .maintenance (event :: events)) :
    Discovers s (.processEvent peers) s.phases .stopped s.convergenceSignal
  | stopDiscovery
    (h : s.stage = .registering ∨ s.stage = .converged ∨ s.stage = .maintenance []) :
    Discovers s .stopDiscovery s.phases .stopped s.convergenceSignal

/-- The steps of a node. -/
inductive Steps {P A : Type} [SerdeJson] [DecidableEq P] [PeerId P] [Multiaddr A]
    (score : Score P) (s : Node P A) : Label P → Node P A → Prop
  | commit (machineId : String) (specJson : Option String) :
    Steps score s (.commit machineId specJson) (s.commit machineId specJson)
  | openWatch (h : s.watch = none) : Steps score s .openWatch { s with watch := some [] }
  | forwardEvent {c : Change String String} {pending : List (Change String String)}
    (h : s.watch = some (c :: pending)) :
    Steps score s .forwardEvent
      (({ s with watch := some pending } : Node P A).send (changeMessage c))
  | loseWatch (h : s.watch ≠ none) : Steps score s .loseWatch { s with watch := none }
  | discover {l : Label P} {phases : DiscoveryPhases P A} {stage : DiscoveryStage}
    {convergenceSignal : Bool} (h : Discovers s l phases stage convergenceSignal) :
    Steps score s l { s with
      phases := phases, stage := stage, convergenceSignal := convergenceSignal }
  | bridgeReceive {peers : List P} {rest : List (List P)} (h : s.bridge = .waiting)
    (hpeers : s.phases.shardingTx = peers :: rest) :
    Steps score s .bridgeReceive { s with
      phases := { s.phases with shardingTx := rest }, bridge := .asking peers }
  | bridgeAsk {peers : List P} (h : s.bridge = .asking peers) :
    Steps score s .bridgeAsk { s with world := applyTopology peers s.world, bridge := .notifying }
  | bridgeNotify (h : s.bridge = .notifying) :
    Steps score s .bridgeNotify { s with
      topologyNotices := s.topologyNotices + 1, bridge := .waiting }
  | listen (h : 0 < s.topologyNotices) :
    Steps score s .listen { ({ s with topologyNotices := s.topologyNotices - 1 } :
      Node P A).send .rebalanceActors with listenerAsking := s.managerAlive }
  | sync (h : s.convergenceSignal = true) :
    Steps score s .sync { s.send .syncAllMachines with convergenceSignal := false }
  | handle {machineIds : List String} {message : ManagerMessage} {mailbox : List ManagerMessage}
    (hrunning : s.running = none) (hmailbox : s.mailbox = message :: mailbox)
    (halive : s.managerAlive = true)
    (hkeys : machineIds.Perm s.world.manager.machineSpecs.keys) :
    Steps score s (.handle machineIds) { s with
      mailbox := mailbox, running := some (message, message.handler machineIds), fetched := [] }
  | advance {message : ManagerMessage} {op : Op P} {next : op.Ret → Program P ManagerReply}
    {result : op.Ret} {world : World P} (hrunning : s.running = some (message, .step op next))
    (hexec : World.exec score op s.world = some (result, world)) :
    Steps score s .advance { s with
      world := world, running := some (message, next result)
      fetched := op.fetch result s.fetched }
  | panic : Steps score s .advance { s with
      managerAlive := false, running := none, mailbox := [], listenerAsking := false }
  | finish {message : ManagerMessage} {reply : ManagerReply} (listenerAsking : Bool)
    (hrunning : s.running = some (message, .done reply)) :
    Steps score s .finish { s with running := none, listenerAsking := listenerAsking }
  | ask (machineId : String) (message : ActorMessage) (h : machineId ∈ s.world.manager.actors) :
    Steps score s (.ask machineId message) { s with
      world := s.world.manage (s.world.ask s.world.now machineId message).2 }
  | tick (now : ℤ) : Steps score s (.tick now) { s with world := { s.world with now := now } }

theorem step_cases {P A : Type} [SerdeJson] [DecidableEq P] [PeerId P] [Multiaddr A]
    {score : Score P} {s t : Node P A} {l : Label P} (h : s.step score l = some t) :
    Steps score s l t := by
  cases l with
  | commit machineId specJson =>
    obtain rfl := Option.some.inj h
    exact .commit machineId specJson
  | openWatch =>
    simp only [step] at h
    split_ifs at h with hw
    obtain rfl := Option.some.inj h
    exact .openWatch hw
  | forwardEvent =>
    simp only [step] at h
    split at h
    · rename_i c pending hw
      rw [machineEvent_event] at h
      obtain rfl := Option.some.inj h
      exact .forwardEvent hw
    · cases h
  | loseWatch =>
    simp only [step] at h
    split_ifs at h with hw
    obtain rfl := Option.some.inj h
    exact .loseWatch hw
  | startConverge kvs =>
    simp only [step] at h
    split_ifs at h with hs
    obtain rfl := Option.some.inj h
    exact .discover (.startConverge kvs hs)
  | convergeKv =>
    simp only [step] at h
    split at h
    · rename_i kv kvs hs
      split at h
      · rename_i phases hkv
        obtain rfl := Option.some.inj h
        exact .discover (.convergeKv hs hkv)
      · rename_i phases hkv
        obtain rfl := Option.some.inj h
        exact .discover (.convergeError hs hkv)
      · obtain rfl := Option.some.inj h
        exact .discover (.convergePanic hs)
    · cases h
  | convergeDone peers =>
    simp only [step] at h
    split_ifs at h with hs
    obtain rfl := Option.some.inj h
    exact .discover (.convergeDone peers hs.1 hs.2)
  | signalConvergence =>
    simp only [step] at h
    split_ifs at h with hs
    obtain rfl := Option.some.inj h
    exact .discover (.signalConvergence hs)
  | watchResponse events =>
    simp only [step] at h
    split_ifs at h with hs
    obtain rfl := Option.some.inj h
    exact .discover (.watchResponse events hs)
  | processEvent peers =>
    simp only [step] at h
    split at h
    · rename_i event events hs
      split at h
      · rename_i phases hevent
        split_ifs at h with hpeers
        obtain rfl := Option.some.inj h
        exact .discover (.processEvent hs hevent hpeers)
      · rename_i phases hevent
        obtain rfl := Option.some.inj h
        exact .discover (.eventError hs hevent)
      · obtain rfl := Option.some.inj h
        exact .discover (.eventPanic hs)
    · cases h
  | stopDiscovery =>
    simp only [step] at h
    split_ifs at h with hs
    obtain rfl := Option.some.inj h
    exact .discover (.stopDiscovery hs)
  | bridgeReceive =>
    simp only [step] at h
    split at h
    · rename_i peers rest hb hpeers
      obtain rfl := Option.some.inj h
      exact .bridgeReceive hb hpeers
    · cases h
  | bridgeAsk =>
    simp only [step] at h
    split at h
    · rename_i peers hb
      obtain rfl := Option.some.inj h
      exact .bridgeAsk hb
    · cases h
  | bridgeNotify =>
    simp only [step] at h
    split at h
    · rename_i hb
      obtain rfl := Option.some.inj h
      exact .bridgeNotify hb
    · cases h
  | listen =>
    simp only [step] at h
    split_ifs at h with hn
    obtain rfl := Option.some.inj h
    exact .listen hn.2
  | sync =>
    simp only [step] at h
    split_ifs at h with hs
    obtain rfl := Option.some.inj h
    exact .sync hs
  | handle machineIds =>
    simp only [step] at h
    split at h
    · rename_i message mailbox hrunning hmailbox
      split_ifs at h with hok
      obtain rfl := Option.some.inj h
      exact .handle hrunning hmailbox hok.1 hok.2
    · cases h
  | advance =>
    simp only [step] at h
    split at h
    · rename_i message op next hrunning
      split at h
      · rename_i result world hexec
        obtain rfl := Option.some.inj h
        exact .advance hrunning hexec
      · obtain rfl := Option.some.inj h
        exact .panic
    · cases h
  | finish =>
    simp only [step] at h
    split at h
    · rename_i message reply hrunning
      obtain rfl := Option.some.inj h
      exact .finish _ hrunning
    · cases h
  | ask machineId message =>
    simp only [step] at h
    split_ifs at h with hm
    obtain rfl := Option.some.inj h
    exact .ask machineId message hm
  | tick now =>
    obtain rfl := Option.some.inj h
    exact .tick now

/-- A change of a machine to a valid spec, or its deletion. -/
def ValidChange (Valid : String → String → Prop) (c : Change String String) : Prop :=
  ∃ machineId, c.key = machinesPrefix ++ machineId ∧
    ∀ specJson, c.value = some specJson → Valid machineId specJson

theorem ValidChange.carries {Valid : String → String → Prop} {c : Change String String}
    (h : ValidChange Valid c) : (changeMessage c).Carries Valid := by
  obtain ⟨key, value⟩ := c
  obtain ⟨machineId, rfl, hvalid⟩ := h
  cases value with
  | none => trivial
  | some specJson => simpa [changeMessage, ManagerMessage.Carries] using hvalid specJson rfl

/-- Specs are committed only if they satisfy a condition. -/
def SpecsSatisfy {P A : Type} (Valid : String → String → Prop) (_s : Node P A) : Label P → Prop
  | .commit machineId (some specJson) => Valid machineId specJson
  | _ => True

instance {P A : Type} (Valid : String → String → Prop) [∀ id spec, Decidable (Valid id spec)]
    (s : Node P A) (l : Label P) : Decidable (s.SpecsSatisfy Valid l) :=
  match l with
  | .commit _ (some _) => inferInstanceAs (Decidable (Valid _ _))
  | .commit _ none => isTrue trivial
  | .openWatch | .forwardEvent | .loseWatch | .startConverge _ | .convergeKv | .convergeDone _
  | .signalConvergence | .watchResponse _ | .processEvent _ | .stopDiscovery | .bridgeReceive
  | .bridgeAsk | .bridgeNotify | .listen | .sync | .handle _ | .advance | .finish | .ask _ _
  | .tick _ => isTrue trivial

theorem specsSatisfy_true {P A : Type} (s : Node P A) (l : Label P) :
    s.SpecsSatisfy (fun _ _ => True) l := by
  unfold SpecsSatisfy
  split
  · trivial
  · trivial

/-- What is stored, on its way or cached satisfies a condition, and the running
handler stays within the manager's steps. -/
structure Sound {P A : Type} [SerdeJson] [DecidableEq P] [PeerId P] (score : Score P)
    (Valid : String → String → Prop) (s : Node P A) : Prop where
  content : World.ValidContent Valid s.world.etcd
  watched : ∀ c ∈ s.watch.getD [], ValidChange Valid c
  mailed : ∀ message ∈ s.mailbox, message.Carries Valid
  managed : ∀ message program, s.running = some (message, program) →
    Safe (World.managerSetting score Valid message.Asks) (fun _ _ => True) program s.world

/-- The next operation of the node's handler asks the coordinator. -/
def Asking {P A : Type} (s : Node P A) : Prop :=
  ∃ message op next, s.running = some (message, .step op next) ∧ message.Asks ∧ op.IsLookup

/-- What a step does to the world. -/
inductive Affects {P : Type} [SerdeJson] [DecidableEq P] [PeerId P] (score : Score P)
    (Valid : String → String → Prop) (asks : Prop) (w : World P) : World P → Prop
  | managed {w' : World P} (h : World.Managed score Valid asks w w') :
    Affects score Valid asks w w'
  | written (etcd : Etcd) (now : ℤ) :
    Affects score Valid asks w { w with etcd := etcd, now := now }
  | topology (peers : List P) : Affects score Valid asks w (applyTopology peers w)

theorem interferes_ask {P : Type} [SerdeJson] (Valid : String → String → Prop) (machineId : String)
    (message : ActorMessage) (w : World P) :
    World.Interferes Valid w (w.manage (w.ask w.now machineId message).2) where
  localPeerId := (Managing.ask_identity ..).1
  nodeId := (Managing.ask_identity ..).2
  specs := Managing.ask_specs ..
  actors := Managing.mem_actors_ask w.now machineId message w.toManaging
  events := Managing.ask_emits ..
  etcd := id

theorem interferes_topology {P : Type} [PeerId P] (Valid : String → String → Prop)
    (peers : List P) (w : World P) : World.Interferes Valid w (applyTopology peers w) := by
  unfold applyTopology
  by_cases h : w.coordinatorAlive = true
  · rw [if_pos h]
    refine ⟨rfl, rfl, rfl, fun _ => Iff.rfl, ⟨_, rfl, ?_⟩, id⟩
    intro e he
    obtain rfl := List.mem_singleton.mp he
    rintro ⟨_, _, _, hne⟩
    cases hne
  · rw [if_neg h]
    exact .refl Valid w

/-- Every way to affect the world keeps the actors among the cached machines. -/
theorem Affects.contained {P : Type} [SerdeJson] [DecidableEq P] [PeerId P] {score : Score P}
    {Valid : String → String → Prop} {asks : Prop} {w w' : World P}
    (h : Affects score Valid asks w w') (hw : w.Contained) : w'.Contained := by
  cases h with
  | managed h => exact h.contained hw
  | written etcd now => exact hw
  | topology peers =>
    obtain ⟨-, -, hspecs, hactors, -, -⟩ := interferes_topology Valid peers w
    intro id hid
    rw [hspecs]
    exact hw id ((hactors id).mp hid)

theorem Affects.localPeerId {P : Type} [SerdeJson] [DecidableEq P] [PeerId P] {score : Score P}
    {Valid : String → String → Prop} {asks : Prop} {w w' : World P}
    (h : Affects score Valid asks w w') :
    w'.coordinator.localPeerId = w.coordinator.localPeerId := by
  cases h with
  | managed h => rw [h.frame.1]
  | written etcd now => rfl
  | topology peers =>
    unfold applyTopology
    split_ifs <;> rfl

/-- Every way to affect the world keeps the cached specs valid. -/
theorem Affects.validSpecs {P : Type} [SerdeJson] [DecidableEq P] [PeerId P] {score : Score P}
    {Valid : String → String → Prop} {asks : Prop} {w w' : World P}
    (h : Affects score Valid asks w w') (hw : w.ValidSpecs Valid) : w'.ValidSpecs Valid := by
  cases h with
  | managed h => exact h.validSpecs hw
  | written etcd now => exact hw
  | topology peers =>
    intro id spec
    rw [(interferes_topology Valid peers w).specs]
    exact hw id spec

/-- A step that only lets the world be interfered with and receives valid changes
and messages keeps a node sound. -/
theorem Sound.frame {P A : Type} [SerdeJson] [DecidableEq P] [PeerId P] {score : Score P}
    {Valid : String → String → Prop} {s t : Node P A} (hs : s.Sound score Valid)
    (hworld : World.Interferes Valid s.world t.world)
    (hwatch : ∀ c ∈ t.watch.getD [], c ∈ s.watch.getD [] ∨ ValidChange Valid c)
    (hmailbox : ∀ message ∈ t.mailbox, message ∈ s.mailbox ∨ message.Carries Valid)
    (hrunning : ∀ task, t.running = some task → s.running = some task) :
    t.Sound score Valid where
  content := hworld.etcd hs.content
  watched c hc := (hwatch c hc).elim (hs.watched c) id
  mailed message hm := (hmailbox message hm).elim (hs.mailed message) id
  managed message program hrun := (hs.managed message program (hrunning _ hrun)).interfere hworld

theorem mem_mailbox_send {P A : Type} {message m : ManagerMessage} {s : Node P A}
    (h : m ∈ (s.send message).mailbox) : m ∈ s.mailbox ∨ m = message := by
  unfold send at h
  split_ifs at h
  · simpa using h
  · exact Or.inl h

@[simp] theorem send_world {P A : Type} (message : ManagerMessage) (s : Node P A) :
    (s.send message).world = s.world := by
  unfold send
  split_ifs <;> rfl

@[simp] theorem send_running {P A : Type} (message : ManagerMessage) (s : Node P A) :
    (s.send message).running = s.running := by
  unfold send
  split_ifs <;> rfl

@[simp] theorem send_fetched {P A : Type} (message : ManagerMessage) (s : Node P A) :
    (s.send message).fetched = s.fetched := by
  unfold send
  split_ifs <;> rfl

@[simp] theorem send_managerAlive {P A : Type} (message : ManagerMessage) (s : Node P A) :
    (s.send message).managerAlive = s.managerAlive := by
  unfold send
  split_ifs <;> rfl

@[simp] theorem send_watch {P A : Type} (message : ManagerMessage) (s : Node P A) :
    (s.send message).watch = s.watch := by
  unfold send
  split_ifs <;> rfl

/-- A valid message is sent. -/
theorem Sound.send {P A : Type} [SerdeJson] [DecidableEq P] [PeerId P] {score : Score P}
    {Valid : String → String → Prop} {s : Node P A} (hs : s.Sound score Valid)
    (message : ManagerMessage) (h : message.Carries Valid) :
    (s.send message).Sound score Valid := by
  refine hs.frame ?_ ?_ ?_ (by simp)
  · rw [send_world]
    exact .refl Valid s.world
  · rw [send_watch]
    exact fun _ hc => Or.inl hc
  · intro m hm
    obtain hm | rfl := mem_mailbox_send hm
    · exact Or.inl hm
    · exact Or.inr h

/-- A valid machine is stored, or a machine is deleted. -/
theorem interferes_apply {P : Type} (Valid : String → String → Prop) (w : World P)
    (c : Change String String) (h : ValidChange Valid c) :
    World.Interferes Valid w { w with etcd := w.etcd.apply c } := by
  refine ⟨rfl, rfl, rfl, fun _ => Iff.rfl, ⟨[], by simp, by simp⟩, ?_⟩
  intro hcontent machineId specJson hget
  have hget' := (Etcd.getElem?_apply w.etcd c _).symm.trans hget
  by_cases hkey : machinesPrefix ++ machineId = c.key
  · obtain ⟨machineId', hkey', hvalid⟩ := h
    obtain rfl := append_left_injective _ (hkey.trans hkey')
    rw [hkey, Change.apply_key] at hget'
    exact hvalid specJson hget'
  · rw [Change.apply_of_ne _ _ hkey] at hget'
    exact hcontent machineId specJson hget'

/-- A deletion of a machine that is not there is no change. -/
theorem commit_cases {P A : Type} (machineId : String) (specJson : Option String)
    (s : Node P A) :
    (specJson = none ∧ s.world.etcd[machinesPrefix ++ machineId]? = none ∧
        s.commit machineId specJson = s) ∨
      s.commit machineId specJson = { s with
        world := { s.world with etcd := s.world.etcd.apply ⟨machinesPrefix ++ machineId, specJson⟩ }
        watch := s.watch.map (fun pending =>
          pending ++ [⟨machinesPrefix ++ machineId, specJson⟩]) } := by
  by_cases h : specJson = none ∧ s.world.etcd[machinesPrefix ++ machineId]? = none
  · exact Or.inl ⟨h.1, h.2, if_pos h⟩
  · exact Or.inr (if_neg h)

/-- A write to etcd changes no more than the store and what the watch will deliver. -/
theorem commit_frame {P A : Type} (machineId : String) (specJson : Option String)
    (s : Node P A) : ∃ etcd watch, s.commit machineId specJson =
      { s with world := { s.world with etcd := etcd }, watch := watch } := by
  obtain ⟨-, -, heq⟩ | heq := commit_cases machineId specJson s
  · exact ⟨s.world.etcd, s.watch, heq⟩
  · exact ⟨_, _, heq⟩

theorem Sound.commit {P A : Type} [SerdeJson] [DecidableEq P] [PeerId P] {score : Score P}
    {Valid : String → String → Prop} {s : Node P A} (hs : s.Sound score Valid)
    (machineId : String) (specJson : Option String)
    (h : ∀ spec, specJson = some spec → Valid machineId spec) :
    (s.commit machineId specJson).Sound score Valid ∧ ∃ etcd, (s.commit machineId specJson).world =
      { s.world with etcd := etcd } := by
  have hchange : ValidChange Valid ⟨machinesPrefix ++ machineId, specJson⟩ := ⟨machineId, rfl, h⟩
  obtain ⟨-, -, heq⟩ | heq := commit_cases machineId specJson s
  · rw [heq]
    exact ⟨hs, s.world.etcd, rfl⟩
  · rw [heq]
    refine ⟨hs.frame (interferes_apply Valid s.world _ hchange) ?_ (fun _ hm => Or.inl hm)
      (fun _ hr => hr), _, rfl⟩
    intro c hc
    cases hw : s.watch with
    | none => simp [hw] at hc
    | some pending =>
      simp only [hw, Option.map_some, Option.getD_some, List.mem_append, List.mem_singleton] at hc ⊢
      obtain hc | rfl := hc
      · exact Or.inl hc
      · exact Or.inr hchange

/-- An operation of the running handler is a step of the manager. -/
theorem Sound.advance {P A : Type} [SerdeJson] [DecidableEq P] [PeerId P] {score : Score P}
    {Valid : String → String → Prop} {s : Node P A} (hs : s.Sound score Valid)
    {message : ManagerMessage} {op : Op P} {next : op.Ret → Program P ManagerReply}
    {result : op.Ret} {world : World P} (hrunning : s.running = some (message, .step op next))
    (hexec : World.exec score op s.world = some (result, world)) :
    World.Managed score Valid (message.Asks ∧ op.IsLookup) s.world world :=
  ((hs.managed message _ hrunning).advance hexec).1

/-- A step keeps a node sound and affects the world in one of the known ways. -/
theorem Sound.step {P A : Type} [SerdeJson] [DecidableEq P] [PeerId P] [Multiaddr A]
    {score : Score P} {Valid : String → String → Prop} {s t : Node P A} {l : Label P}
    (hs : s.Sound score Valid) (hl : s.SpecsSatisfy Valid l) (h : Steps score s l t) :
    t.Sound score Valid ∧ Affects score Valid s.Asking s.world t.world := by
  have hquiet : Affects score Valid s.Asking s.world s.world := .managed .quiet
  have hrefl := World.Interferes.refl Valid s.world
  cases h with
  | commit machineId specJson =>
    have hvalid : ∀ spec, specJson = some spec → Valid machineId spec := by
      intro spec hspec
      subst hspec
      exact hl
    obtain ⟨hsound, etcd, hworld⟩ := hs.commit machineId specJson hvalid
    rw [hworld]
    exact ⟨hsound, .written etcd s.world.now⟩
  | openWatch hw =>
    exact ⟨hs.frame hrefl (by simp) (fun _ hm => Or.inl hm) (fun _ hr => hr), hquiet⟩
  | @forwardEvent c pending hw =>
    rw [send_world]
    have hc : ValidChange Valid c := hs.watched c (by simp [hw])
    have hrest : ({ s with watch := some pending } : Node P A).Sound score Valid := by
      refine hs.frame hrefl ?_ (fun _ hm => Or.inl hm) (fun _ hr => hr)
      intro c' hc'
      exact Or.inl (by simpa [hw] using Or.inr hc')
    exact ⟨hrest.send _ hc.carries, hquiet⟩
  | loseWatch hw =>
    exact ⟨hs.frame hrefl (by simp) (fun _ hm => Or.inl hm) (fun _ hr => hr), hquiet⟩
  | discover hd =>
    exact ⟨hs.frame hrefl (fun _ hc => Or.inl hc) (fun _ hm => Or.inl hm) (fun _ hr => hr), hquiet⟩
  | bridgeReceive hb hpeers =>
    exact ⟨hs.frame hrefl (fun _ hc => Or.inl hc) (fun _ hm => Or.inl hm) (fun _ hr => hr), hquiet⟩
  | @bridgeAsk peers hb =>
    exact ⟨hs.frame (interferes_topology Valid peers s.world) (fun _ hc => Or.inl hc)
      (fun _ hm => Or.inl hm) (fun _ hr => hr), .topology peers⟩
  | bridgeNotify hb =>
    exact ⟨hs.frame hrefl (fun _ hc => Or.inl hc) (fun _ hm => Or.inl hm) (fun _ hr => hr), hquiet⟩
  | listen hn =>
    rw [send_world]
    have hnotice : ({ s with topologyNotices := s.topologyNotices - 1 } : Node P A).Sound
        score Valid :=
      hs.frame hrefl (fun _ hc => Or.inl hc) (fun _ hm => Or.inl hm) (fun _ hr => hr)
    have hsent := hnotice.send .rebalanceActors trivial
    exact ⟨hsent.frame (.refl ..) (fun _ hc => Or.inl hc) (fun _ hm => Or.inl hm)
      (fun _ hr => hr), hquiet⟩
  | sync hsignal =>
    rw [send_world]
    have hsent := hs.send .syncAllMachines trivial
    exact ⟨hsent.frame (.refl ..) (fun _ hc => Or.inl hc) (fun _ hm => Or.inl hm)
      (fun _ hr => hr), hquiet⟩
  | @handle machineIds message mailbox hrunning hmailbox halive hkeys =>
    refine ⟨⟨hs.content, hs.watched, ?_, ?_⟩, hquiet⟩
    · intro m hm
      exact hs.mailed m (by rw [hmailbox]; exact List.mem_cons_of_mem message hm)
    · intro m program hrun
      obtain ⟨rfl, rfl⟩ := Prod.mk.inj (Option.some.inj hrun)
      apply ManagerMessage.handler_managed score Valid message
      · exact hs.mailed message (by rw [hmailbox]; exact List.mem_cons_self)
      · exact hkeys.nodup_iff.mpr Std.ExtTreeMap.nodup_keys
      · exact hs.content
  | @advance message op next result world hrunning hexec =>
    have hguar := hs.advance hrunning hexec
    have hsafe := ((hs.managed message _ hrunning).advance hexec).2
    have hmono : message.Asks ∧ op.IsLookup → s.Asking :=
      fun hasks => ⟨message, op, next, hrunning, hasks.1, hasks.2⟩
    refine ⟨⟨?_, hs.watched, hs.mailed, ?_⟩, .managed (hguar.mono hmono)⟩
    · rw [hguar.frame.2.1]
      exact hs.content
    · intro m program hrun
      obtain ⟨rfl, rfl⟩ := Prod.mk.inj (Option.some.inj hrun)
      exact hsafe
  | panic => exact ⟨hs.frame hrefl (fun _ hc => Or.inl hc) (by simp) (by simp), hquiet⟩
  | finish listenerAsking hrunning =>
    exact ⟨hs.frame hrefl (fun _ hc => Or.inl hc) (fun _ hm => Or.inl hm) (by simp), hquiet⟩
  | ask machineId message hm =>
    exact ⟨hs.frame (interferes_ask Valid machineId message s.world) (fun _ hc => Or.inl hc)
      (fun _ hm => Or.inl hm) (fun _ hr => hr), .managed (.asked machineId message)⟩
  | tick now =>
    refine ⟨hs.frame ?_ (fun _ hc => Or.inl hc) (fun _ hm => Or.inl hm) (fun _ hr => hr),
      .written s.world.etcd now⟩
    exact ⟨rfl, rfl, rfl, fun _ => Iff.rfl, ⟨[], by simp, by simp⟩, id⟩

/-- A node starts sound over valid content. -/
theorem sound_start {P A : Type} [SerdeJson] [DecidableEq P] [PeerId P] (score : Score P)
    (Valid : String → String → Prop) {clusterId : String} {localPeerId : P} {localAddr : A}
    {logDebug : Bool} {nodeId : String} {etcd : Etcd} {now : ℤ} {s : Node P A}
    (hcontent : World.ValidContent Valid etcd)
    (h : start clusterId localPeerId localAddr logDebug nodeId etcd now = some s) :
    s.Sound score Valid := by
  obtain ⟨coordinator, -, rfl⟩ := Option.map_eq_some_iff.mp h
  exact ⟨hcontent, by simp, by simp, by simp⟩

end Node
end Neolaas
