import Neolaas.AtomicProgram
import Neolaas.Etcd
import Neolaas.MachineActor
import Neolaas.ShardingCoordinator
import Neolaas.Supervision

/-!
# The machine actor manager

The manager keeps the specs of all machines and the actors of those that the
node owns. Its handlers run one at a time but suspend whenever they ask the
coordinator or read etcd, so they are programs of atomic operations on a state
that they share with the rest of the node.
-/
namespace Neolaas
open AtomicProgram PeerId

/-- Prefix for machine keys in etcd. -/
def machinesPrefix : String := "/neolaas/machines/"

/-- Manages the machine actors of one node. An actor is kept with its state. -/
structure MachineActorManagerActor (P : Type) where
  localPeerId : P
  nodeId : String
  actors : Std.ExtTreeMap String MachineActor
  machineSpecs : Std.ExtTreeMap String String
  restartTrackers : Std.ExtTreeMap String RestartTracker
  restartPolicy : RestartPolicy

/-- `MachineActorManagerActor::new`. -/
def MachineActorManagerActor.new {P : Type} (localPeerId : P) (nodeId : String) :
    MachineActorManagerActor P where
  localPeerId := localPeerId
  nodeId := nodeId
  actors := ∅
  machineSpecs := ∅
  restartTrackers := ∅
  restartPolicy := RestartPolicy.default

/-- A manager and the events that its node has emitted. -/
structure Managing (P : Type) where
  manager : MachineActorManagerActor P
  events : List Event

namespace Managing

def emit {P : Type} (self : Managing P) (events : List Event) : Managing P :=
  { self with events := self.events ++ events }

@[simp] theorem emit_nil {P : Type} (self : Managing P) : self.emit [] = self := by
  simp [emit]

/-- Cache the spec for potential rebalancing. -/
def cacheSpec {P : Type} (machineId specJson : String) (self : Managing P) : Managing P :=
  { self with manager := { self.manager with
      machineSpecs := self.manager.machineSpecs.insert machineId specJson } }

/-- Remove the spec from the cache. -/
def uncacheSpec {P : Type} (machineId : String) (self : Managing P) : Managing P :=
  { self with manager := { self.manager with
      machineSpecs := self.manager.machineSpecs.erase machineId } }

/-- Ask a machine actor, which handles the message before it replies. -/
def ask {P : Type} [SerdeJson] (now : ℤ) (machineId : String) (message : ActorMessage)
    (self : Managing P) : Option ActorReply × Managing P :=
  match self.manager.actors[machineId]? with
  | some actor =>
    let (reply, acting) := Acting.handle now ⟨actor, self.events⟩ message
    (some reply, {
      manager := { self.manager with
        actors := self.manager.actors.insert machineId acting.actor }
      events := acting.events })
  | none => (none, self)

/-- The actor goes into the map with a fresh restart tracker. -/
def addActor {P : Type} (machineId : String) (actor : MachineActor) (self : Managing P) :
    Managing P where
  manager := { self.manager with
    actors := self.manager.actors.insert machineId actor
    restartTrackers := self.manager.restartTrackers.insert machineId
      (RestartTracker.new self.manager.restartPolicy) }
  events := self.events ++ [.recordActorSpawned "MachineActor",
    .actorSpawned "MachineActor" machineId self.manager.nodeId]

/-- Spawn a new machine actor for a locally-owned machine. The info line about a
spawned actor shortens the text of the local peer, and `none` is its panic. -/
def spawnMachineActor {P : Type} [SerdeJson] [PeerId P] (now : ℤ) (machineId specJson : String)
    (self : Managing P) : Option (Managing P) :=
  match MachineActor.withNodeId now machineId specJson self.manager.nodeId with
  | some actor =>
    (short (toBase58 self.manager.localPeerId)).map (fun _ => self.addActor machineId actor)
  | none => some self

/-- Stop a machine actor. -/
def stopMachineActor {P : Type} (machineId reason : String) (self : Managing P) : Managing P :=
  if self.manager.actors.contains machineId then
    { manager := { self.manager with
        actors := self.manager.actors.erase machineId
        restartTrackers := self.manager.restartTrackers.erase machineId }
      events := self.events ++ [.recordActorStopped "MachineActor" reason,
        .actorStopped "MachineActor" machineId reason self.manager.nodeId] }
  else self

/-- Stop an actor whose machine another node owns now. Both owners are shortened
for the event; `none` is the panic of a slice. -/
def transferOwnership {P : Type} [PeerId P] (machineId : String) (result : LookupResult P)
    (self : Managing P) : Option (Managing P) := do
  let previousOwner ← short (toBase58 self.manager.localPeerId)
  let newOwner ← short ((result.ownerPeer.map toBase58).getD "unknown")
  pure ((self.emit [.ownershipTransferred machineId previousOwner newOwner]).stopMachineActor
    machineId "ownership_transfer")

/-- Handle a machine DELETE event. -/
def handleMachineDelete {P : Type} (machineId : String) (self : Managing P) : Managing P :=
  (self.uncacheSpec machineId).stopMachineActor machineId "machine_deleted"

/-- Whether the tracker of a machine allows a restart, which it records. -/
def recordFailure {P : Type} (instant : ℕ) (machineId : String) (self : Managing P) :
    Bool × Managing P :=
  match self.manager.restartTrackers[machineId]? with
  | some tracker =>
    let (backoff, tracker) := tracker.recordRestart instant
    (backoff.isSome, { self with manager := { self.manager with
      restartTrackers := self.manager.restartTrackers.insert machineId tracker } })
  | none => (false, self)

/-- `self.actors.remove`, without the bookkeeping of a stop. -/
def dropActor {P : Type} (machineId : String) (self : Managing P) : Managing P :=
  { self with manager := { self.manager with actors := self.manager.actors.erase machineId } }

/-- No restart: the actor and its tracker are removed and a stop is counted. -/
def exceedLimit {P : Type} (machineId : String) (self : Managing P) : Managing P where
  manager := { self.manager with
    actors := self.manager.actors.erase machineId
    restartTrackers := self.manager.restartTrackers.erase machineId }
  events := self.events ++ [.recordActorStopped "MachineActor" "restart_limit_exceeded"]

/-- Handle a child actor panic or failure. `instant` is what `Instant::now` reads,
and `none` the panic of the line about a spawned actor. -/
def handleActorFailure {P : Type} [SerdeJson] [PeerId P] (now : ℤ) (instant : ℕ)
    (machineId error : String) (self : Managing P) : Option (Managing P) :=
  let (shouldRestart, self) := self.recordFailure instant machineId
  let self := self.emit
    [.actorPanicked "MachineActor" machineId error self.manager.nodeId shouldRestart]
  if shouldRestart then
    match self.manager.machineSpecs[machineId]? with
    | some specJson => (self.dropActor machineId).spawnMachineActor now machineId specJson
    | none => some self
  else some (self.exceedLimit machineId)

end Managing

/-- What the manager's handlers share with the rest of the node. -/
structure World (P : Type) extends Managing P where
  coordinator : ShardingCoordinator P
  coordinatorAlive : Bool
  etcd : Etcd
  now : ℤ

/-- The operations of a handler: read the manager's own fields, change them
without suspending, ask the coordinator, read a range of etcd. -/
inductive Op (P : Type) where
  | read
  | modify (f : ℤ → Managing P → Option (Managing P))
  | lookupMachine (machineId : String)
  | getPrefix (start : String)

def Op.Ret {P : Type} : Op P → Type
  | .read => MachineActorManagerActor P
  | .modify _ => Unit
  | .lookupMachine _ => Option (LookupResult P)
  | .getPrefix _ => List KeyValue

namespace World

/-- Ask the coordinator for the owner of a machine. The ask fails when the
coordinator is dead, or dies of the lookup. -/
def askLookup {P : Type} [DecidableEq P] [PeerId P] (score : Score P) (machineId : String)
    (w : World P) : Option (LookupResult P) × World P :=
  if w.coordinatorAlive then
    match w.coordinator.handleLookupMachine score machineId with
    | some (result, line) => (some result, { w with events := w.events ++ [line] })
    | none => (none, { w with coordinatorAlive := false })
  else (none, w)

/-- The effect of one operation, `none` when the manager panics. -/
def exec {P : Type} [DecidableEq P] [PeerId P] (score : Score P) :
    (op : Op P) → World P → Option (op.Ret × World P)
  | .read, w => some (w.manager, w)
  | .modify f, w => (f w.now w.toManaging).map (fun m => ((), { w with toManaging := m }))
  | .lookupMachine machineId, w => some (w.askLookup score machineId)
  | .getPrefix start, w => some (w.etcd.getPrefix start, w)

end World

/-- A handler of the manager. -/
abbrev Program (P α : Type) : Type := Prog (Op P) Op.Ret α

namespace Program

def read {P : Type} : Program P (MachineActorManagerActor P) := Prog.perform Op.read

def modify {P : Type} (f : ℤ → Managing P → Option (Managing P)) : Program P Unit :=
  Prog.perform (Op.modify f)

def lookupMachine {P : Type} (machineId : String) : Program P (Option (LookupResult P)) :=
  Prog.perform (Op.lookupMachine machineId)

def getPrefix {P : Type} (start : String) : Program P (List KeyValue) :=
  Prog.perform (Op.getPrefix start)

/-- Handle a machine PUT event (create or update). -/
def handleMachinePut {P : Type} [SerdeJson] [PeerId P] (machineId specJson : String) :
    Program P Unit := do
  modify (fun _ m => some (m.cacheSpec machineId specJson))
  let lookupResult ← lookupMachine machineId
  match lookupResult with
  | none => pure ()
  | some result =>
    let manager ← read
    if result.isLocal then
      if manager.actors.contains machineId then
        modify (fun now m => some (m.ask now machineId (.updateMachineSpec specJson)).2)
      else modify (fun now m => m.spawnMachineActor now machineId specJson)
    else if manager.actors.contains machineId then
      modify (fun _ m => m.transferOwnership machineId result)
    else pure ()

/-- Handle a machine DELETE event. -/
def handleMachineDelete {P : Type} (machineId : String) : Program P Unit :=
  modify (fun _ m => some (m.handleMachineDelete machineId))

/-- The machines in a range read, `none` when a key or a value is no UTF-8. -/
def decodeMachines (kvs : List KeyValue) : Option (List (String × String)) :=
  kvs.mapM (fun kv => do
    let key ← kv.keyStr
    let specJson ← kv.valueStr
    pure ((stripPrefix machinesPrefix key).getD key, specJson))

/-- Fetch all existing machines from etcd and handle each like a PUT. The result
says whether the fetch succeeded. -/
def syncAllMachines {P : Type} [SerdeJson] [PeerId P] : Program P Bool := do
  let kvs ← getPrefix machinesPrefix
  match decodeMachines kvs with
  | none => pure false
  | some machines =>
    machines.foldlM (fun _ machine => handleMachinePut machine.1 machine.2) ()
    pure true

/-- Look up one cached machine and note whether to stop or to spawn its actor. -/
def checkMachine {P : Type} (plan : List String × List (String × String)) (machineId : String) :
    Program P (List String × List (String × String)) := do
  let lookupResult ← lookupMachine machineId
  match lookupResult with
  | none => pure plan
  | some result =>
    let manager ← read
    let hasActor := manager.actors.contains machineId
    if result.isLocal && !hasActor then
      match manager.machineSpecs[machineId]? with
      | some specJson => pure (plan.1, plan.2 ++ [(machineId, specJson)])
      | none => pure plan
    else if !result.isLocal && hasActor then pure (plan.1 ++ [machineId], plan.2)
    else pure plan

/-- Rebalance actors after a topology change. `machineIds` are the keys of the
cached specs in the order in which the map lists them. -/
def rebalanceActors {P : Type} [SerdeJson] [PeerId P] (machineIds : List String) :
    Program P Unit := do
  let plan ← machineIds.foldlM checkMachine ([], [])
  plan.1.foldlM (fun _ machineId =>
    modify (fun _ m => some (m.stopMachineActor machineId "topology_rebalance"))) ()
  plan.2.foldlM (fun _ machine =>
    modify (fun now m => m.spawnMachineActor now machine.1 machine.2)) ()

end Program

/-- Result of the initial sync. -/
structure SyncResult where
  totalMachines : ℕ
  localActors : ℕ
  deriving DecidableEq

/-- Messages in the manager's mailbox. -/
inductive ManagerMessage where
  | etcdMachineEvent (machineId : String) (eventType : EventType) (specJson : Option String)
  | syncAllMachines
  | rebalanceActors
  deriving DecidableEq

/-- Replies to the messages. An event is told and not asked. -/
inductive ManagerReply where
  | unit
  | sync (result : SyncResult)
  deriving DecidableEq

/-- The handler of a message, given the order in which the spec map lists its keys. -/
def ManagerMessage.handler {P : Type} [SerdeJson] [PeerId P] (machineIds : List String) :
    ManagerMessage → Program P ManagerReply
  | .etcdMachineEvent machineId .put (some specJson) => do
    Program.handleMachinePut machineId specJson
    pure .unit
  | .etcdMachineEvent _ .put none => pure .unit
  | .etcdMachineEvent machineId .delete _ => do
    Program.handleMachineDelete machineId
    pure .unit
  | .syncAllMachines => do
    let fetched ← Program.syncAllMachines
    if fetched then
      let manager ← Program.read
      pure (.sync ⟨manager.machineSpecs.size, manager.actors.size⟩)
    else pure (.sync ⟨0, 0⟩)
  | .rebalanceActors => do
    Program.rebalanceActors machineIds
    pure .unit

end Neolaas
