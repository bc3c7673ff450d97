import Neolaas.Discovery
import Neolaas.LabelledRuns
import Neolaas.MachineManager

/-!
# A node with all its tasks

Discovery sends peer lists to a bridge task, which has the coordinator rebuild
its hasher and then notifies a listener, which asks the manager to rebalance. A
watch task forwards machine events to the manager, and the end of convergence
triggers the initial sync. Each label is one step of one task, so that runs are
the interleavings of all of them. What etcd answers to discovery is a parameter
of the labels. Range reads of the manager are answered, and discovery's own watch
stream does not end here.
-/
namespace Neolaas
open ChangeLog AtomicProgram

/-- How far the discovery controller has come. A response whose events are still
being processed is part of the maintenance stage. -/
inductive DiscoveryStage where
  | registering
  | converging (kvs : List KeyValue)
  | converged
  | maintenance (events : List WatchEvent)
  | stopped
  | failed
  deriving DecidableEq

/-- The bridge between the sharding channel and the actors. -/
inductive Bridge (P : Type) where
  | waiting
  | asking (peers : List P)
  | notifying
  deriving DecidableEq

/-- What a handler has got from etcd, after one more of its operations. -/
def Op.fetch {P : Type} : (op : Op P) → op.Ret → List KeyValue → List KeyValue
  | .getPrefix _, kvs, _ => kvs
  | .read, _, fetched => fetched
  | .modify _, _, fetched => fetched
  | .lookupMachine _, _, fetched => fetched

/-- The state of a node. The running handler has what etcd has answered to it so
far, and the open watch on the machines holds the committed changes that its task
has not yet forwarded. -/
structure Node (P A : Type) where
  world : World P
  managerAlive : Bool
  mailbox : List ManagerMessage
  running : Option (ManagerMessage × Program P ManagerReply)
  fetched : List KeyValue
  watch : Option (List (Change String String))
  phases : DiscoveryPhases P A
  stage : DiscoveryStage
  convergenceSignal : Bool
  bridge : Bridge P
  topologyNotices : ℕ
  listenerAsking : Bool

/-- The message that the watch task sends for an event, `none` when it skips it. -/
def machineEvent (event : WatchEvent) : Option ManagerMessage :=
  match event.kv with
  | none => none
  | some kv =>
    match kv.keyStr with
    | none => none
    | some key =>
      let machineId := (stripPrefix machinesPrefix key).getD key
      match event.eventType with
      | .put => some (.etcdMachineEvent machineId .put kv.valueStr)
      | .delete => some (.etcdMachineEvent machineId .delete none)

namespace Node

/-- One step of one task of the node. -/
inductive Label (P : Type) where
  /-- A machine is written to etcd, or deleted. -/
  | commit (machineId : String) (specJson : Option String)
  /-- The watch task. -/
  | openWatch
  | forwardEvent
  | loseWatch
  /-- The discovery controller. Listings are orders of the hash set of peers. -/
  | startConverge (kvs : List KeyValue)
  | convergeKv
  | convergeDone (peers : List P)
  | signalConvergence
  | watchResponse (events : List WatchEvent)
  | processEvent (peers : List P)
  | stopDiscovery
  /-- The bridge task. -/
  | bridgeReceive
  | bridgeAsk
  | bridgeNotify
  /-- The topology listener and the initial sync. -/
  | listen
  | sync
  /-- The manager takes a message, performs an operation, replies. -/
  | handle (machineIds : List String)
  | advance
  | finish
  /-- A machine actor handles a message of some client. -/
  | ask (machineId : String) (message : ActorMessage)
  | tick (now : ℤ)

/-- A node as it is initialized, over some content of etcd. -/
def start {P A : Type} [PeerId P] (clusterId : String) (localPeerId : P) (localAddr : A)
    (logDebug : Bool) (nodeId : String) (etcd : Etcd) (now : ℤ) : Option (Node P A) :=
  (ShardingCoordinator.new localPeerId [localPeerId]).map (fun coordinator =>
    { world := {
        manager := MachineActorManagerActor.new localPeerId nodeId
        events := []
        coordinator := coordinator
        coordinatorAlive := true
        etcd := etcd
        now := now }
      managerAlive := true
      mailbox := []
      running := none
      fetched := []
      watch := none
      phases := DiscoveryPhases.new clusterId localPeerId localAddr logDebug
      stage := .registering
      convergenceSignal := false
      bridge := .waiting
      topologyNotices := 0
      listenerAsking := false })

/-- A write to etcd, which an open watch will deliver. Deleting a machine that is
not there is no change. -/
def commit {P A : Type} (machineId : String) (specJson : Option String) (s : Node P A) :
    Node P A :=
  let c : Change String String := ⟨machinesPrefix ++ machineId, specJson⟩
  if c.value = none ∧ s.world.etcd[c.key]? = none then s
  else
    { s with
      world := { s.world with etcd := s.world.etcd.apply c }
      watch := s.watch.map (fun pending => pending ++ [c]) }

/-- A message for the manager, lost when the manager is dead. -/
def send {P A : Type} (message : ManagerMessage) (s : Node P A) : Node P A :=
  if s.managerAlive then { s with mailbox := s.mailbox ++ [message] } else s

/-- The coordinator handles a topology change, if it is alive. -/
def applyTopology {P : Type} [PeerId P] (peers : List P) (w : World P) : World P :=
  if w.coordinatorAlive then
    let (_, line, coordinator) := w.coordinator.handleTopologyChanged peers
    { w with coordinator := coordinator, events := w.events ++ [line] }
  else w

/-- The tasks of a node, one step at a time. -/
def step {P A : Type} [SerdeJson] [DecidableEq P] [PeerId P] [Multiaddr A] (score : Score P)
    (s : Node P A) : Label P → Option (Node P A)
  | .commit machineId specJson => some (s.commit machineId specJson)
  | .openWatch => if s.watch = none then some { s with watch := some [] } else none
  | .forwardEvent =>
    match s.watch with
    | some (c :: pending) =>
      let s := { s with watch := some pending }
      match machineEvent (Etcd.event c) with
      | some message => some (s.send message)
      | none => some s
    | _ => none
  | .loseWatch => if s.watch = none then none else some { s with watch := none }
  | .startConverge kvs =>
    if s.stage = .registering then some { s with stage := .converging kvs } else none
  | .convergeKv =>
    match s.stage with
    | .converging (kv :: kvs) =>
      match s.phases.convergeKv kv with
      | .ok phases => some { s with phases := phases, stage := .converging kvs }
      | .error phases => some { s with phases := phases, stage := .failed }
      | .panicked => some { s with stage := .failed }
    | _ => none
  | .convergeDone peers =>
    if s.stage = .converging [] ∧ Lists peers s.phases.knownPeers then
      some { s with phases := s.phases.convergeDone (fun _ => peers), stage := .converged }
    else none
  | .signalConvergence =>
    if s.stage = .converged then
      some { s with stage := .maintenance [], convergenceSignal := true }
    else none
  | .watchResponse events =>
    if s.stage = .maintenance [] then some { s with stage := .maintenance events } else none
  | .processEvent peers =>
    match s.stage with
    | .maintenance (event :: events) =>
      match s.phases.processEvent (fun _ => peers) event with
      | .ok phases =>
        if Lists peers phases.knownPeers then
          some { s with phases := phases, stage := .maintenance events }
        else none
      | .error phases => some { s with phases := phases, stage := .maintenance [] }
      | .panicked => some { s with stage := .stopped }
    | _ => none
  | .stopDiscovery =>
    if s.stage = .registering ∨ s.stage = .converged ∨ s.stage = .maintenance [] then
      some { s with stage := .stopped }
    else none
  | .bridgeReceive =>
    match s.bridge, s.phases.shardingTx with
    | .waiting, peers :: rest =>
      some { s with phases := { s.phases with shardingTx := rest }, bridge := .asking peers }
    | _, _ => none
  | .bridgeAsk =>
    match s.bridge with
    | .asking peers => some { s with world := applyTopology peers s.world, bridge := .notifying }
    | _ => none
  | .bridgeNotify =>
    match s.bridge with
    | .notifying =>
      some { s with topologyNotices := s.topologyNotices + 1, bridge := .waiting }
    | _ => none
  | .listen =>
    if s.listenerAsking = false ∧ 0 < s.topologyNotices then
      let s := { s with topologyNotices := s.topologyNotices - 1 }
      some { s.send .rebalanceActors with listenerAsking := s.managerAlive }
    else none
  | .sync =>
    if s.convergenceSignal then
      some { s.send .syncAllMachines with convergenceSignal := false }
    else none
  | .handle machineIds =>
    match s.running, s.mailbox with
    | none, message :: mailbox =>
      if s.managerAlive ∧ machineIds.Perm s.world.manager.machineSpecs.keys then
        some { s with
          mailbox := mailbox, running := some (message, message.handler machineIds), fetched := [] }
      else none
    | _, _ => none
  | .advance =>
    match s.running with
    | some (message, .step op next) =>
      match World.exec score op s.world with
      | some (result, world) =>
        some { s with
          world := world, running := some (message, next result)
          fetched := op.fetch result s.fetched }
      | none =>
        some { s with
          managerAlive := false, running := none, mailbox := [], listenerAsking := false }
    | _ => none
  | .finish =>
    match s.running with
    | some (message, .done _) =>
      some { s with
        running := none
        listenerAsking := if message = .rebalanceActors then false else s.listenerAsking }
    | _ => none
  | .ask machineId message =>
    if machineId ∈ s.world.manager.actors then
      some { s with world := { s.world with
        toManaging := (s.world.ask s.world.now machineId message).2 } }
    else none
  | .tick now => some { s with world := { s.world with now := now } }

end Node
end Neolaas
