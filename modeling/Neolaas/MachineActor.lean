import Neolaas.Events
import Neolaas.SerdeJson

/-!
# The machine actor

One actor manages the lifecycle of one machine. Its handlers run to completion
one at a time. `Acting` carries the actor together with the events that it has
emitted, and `now` is the clock in Unix seconds while a message is handled.
-/
namespace Neolaas

/-- Operational state of a machine actor. -/
inductive MachineState where
  | initializing
  | idle
  | booked
  | provisioning
  | deprovisioning
  | error
  deriving DecidableEq, Repr

/-- `Display for MachineState`. -/
def MachineState.display : MachineState → String
  | initializing => "initializing"
  | idle => "idle"
  | booked => "booked"
  | provisioning => "provisioning"
  | deprovisioning => "deprovisioning"
  | error => "error"

/-- The server's own machine specification. -/
structure MachineSpec where
  adminState : String
  cluster : String
  reservedFor : Option String
  labels : Std.ExtTreeMap String String
  deriving DecidableEq

/-- The derived `Deserialize for MachineSpec`. -/
def MachineSpec.ofJson (j : Json) : Option MachineSpec :=
  match j.slots ["adminState", "cluster", "reservedFor", "labels"] with
  | some [adminState, cluster, reservedFor, labels] => do
    pure {
      adminState := ← Json.required Json.asString adminState
      cluster := ← Json.required Json.asString cluster
      reservedFor := ← Json.defaulted none Json.asOptionString reservedFor
      labels := ← Json.defaulted ∅ Json.asStringMap labels }
  | _ => none

/-- `serde_json::from_str::<MachineSpec>`. -/
def MachineSpec.fromStr [SerdeJson] (specJson : String) : Option MachineSpec :=
  (SerdeJson.parse specJson).bind MachineSpec.ofJson

structure MachineActor where
  machineId : String
  spec : MachineSpec
  state : MachineState
  previousState : MachineState
  currentBooking : Option String
  lastActivity : ℤ
  nodeId : String
  deriving DecidableEq

/-- Create with an already-parsed spec and node ID. -/
def MachineActor.withSpecAndNodeId (now : ℤ) (machineId : String) (spec : MachineSpec)
    (nodeId : String) : MachineActor where
  machineId := machineId
  spec := spec
  state := .initializing
  previousState := .initializing
  currentBooking := none
  lastActivity := now
  nodeId := nodeId

/-- Create from the spec's text, `none` when it does not parse. -/
def MachineActor.withNodeId [SerdeJson] (now : ℤ) (machineId specJson nodeId : String) :
    Option MachineActor :=
  (MachineSpec.fromStr specJson).map
    (fun spec => MachineActor.withSpecAndNodeId now machineId spec nodeId)

/-- A machine actor and the events it has emitted. -/
structure Acting where
  actor : MachineActor
  events : List Event

namespace Acting

def emit (self : Acting) (event : Event) : Acting :=
  { self with events := self.events ++ [event] }

@[simp] theorem emit_actor (self : Acting) (event : Event) :
    (self.emit event).actor = self.actor := rfl

@[simp] theorem emit_events (self : Acting) (event : Event) :
    (self.emit event).events = self.events ++ [event] := rfl

/-- Transition to a new state, emitting an event. -/
def transitionTo (now : ℤ) (newState : MachineState) (self : Acting) : Acting :=
  if self.actor.state ≠ newState then
    let actor := { self.actor with
      previousState := self.actor.state, state := newState, lastActivity := now }
    Acting.emit { self with actor := actor } (.machineStateChanged actor.machineId
      actor.previousState.display actor.state.display actor.spec.adminState actor.spec.cluster)
  else self

/-- Transition to idle state after initialization. -/
def initializeActor (now : ℤ) (self : Acting) : Acting :=
  if self.actor.state = .initializing then self.transitionTo now .idle else self

end Acting

structure MachineStatus where
  machineId : String
  state : MachineState
  adminState : String
  cluster : String
  currentBooking : Option String
  lastActivity : Option ℤ
  deriving DecidableEq

/-- The reply to an update, a provision or a deprovision request. -/
structure RequestResult where
  success : Bool
  error : Option String
  deriving DecidableEq, Repr

/-- Provisioning configuration. -/
structure ProvisionConfig where
  image : String
  vlanId : Option UInt16
  metadata : Std.ExtTreeMap String String

/-- `format!("{:?}", s)` on ASCII text; other characters are left as they are. -/
def debugText (s : String) : String :=
  "\"" ++ String.join (s.toList.map fun c =>
    if c = '"' then "\\\"" else if c = '\\' then "\\\\" else if c = '\n' then "\\n"
    else if c = '\r' then "\\r" else if c = '\t' then "\\t" else if c.toNat = 0 then "\\0"
    else if c.toNat < 32 ∨ c.toNat = 127 then
      "\\u\x7b" ++ String.ofList (Nat.toDigits 16 c.toNat) ++ "\x7d"
    else c.toString) ++ "\""

/-- `format!("{:?}", o)` of an optional string. -/
def debugOption : Option String → String
  | none => "None"
  | some s => "Some(" ++ debugText s ++ ")"

namespace Acting

/-- `Message<GetMachineStatus>`. -/
def handleGetMachineStatus (now : ℤ) (self : Acting) : MachineStatus × Acting :=
  let self := self.initializeActor now
  ({ machineId := self.actor.machineId
     state := self.actor.state
     adminState := self.actor.spec.adminState
     cluster := self.actor.spec.cluster
     currentBooking := self.actor.currentBooking
     lastActivity := some self.actor.lastActivity }, self)

/-- `Message<UpdateMachineSpec>`. A text that does not parse changes nothing. -/
def handleUpdateMachineSpec [SerdeJson] (specJson : String) (self : Acting) :
    RequestResult × Acting :=
  match MachineSpec.fromStr specJson with
  | some newSpec =>
    (⟨true, none⟩, { self with actor := { self.actor with spec := newSpec } })
  | none => (⟨false, some (SerdeJson.errorText specJson)⟩, self)

/-- `Message<ProvisionMachine>`. The reservation is logged and not checked. -/
def handleProvisionMachine (now : ℤ) (bookingId : String) (_config : ProvisionConfig)
    (self : Acting) : RequestResult × Acting :=
  let self := self.initializeActor now
  if self.actor.state ≠ .idle then
    (⟨false, some ("Machine is not idle (current state: " ++ self.actor.state.display ++ ")")⟩,
      self)
  else if self.actor.spec.adminState ≠ "available" ∧ self.actor.spec.adminState ≠ "reserved" then
    (⟨false, some ("Machine admin state '" ++ self.actor.spec.adminState ++
      "' does not allow booking")⟩, self)
  else
    let self := { self with actor := { self.actor with currentBooking := some bookingId } }
    let self := self.transitionTo now .provisioning
    let self := self.emit (.bookingStarted self.actor.machineId bookingId self.actor.spec.cluster)
    let self := self.transitionTo now .booked
    (⟨true, none⟩, self)

/-- `Message<DeprovisionMachine>`. -/
def handleDeprovisionMachine (now : ℤ) (bookingId : String) (self : Acting) :
    RequestResult × Acting :=
  let self := self.initializeActor now
  if self.actor.currentBooking ≠ some bookingId then
    (⟨false, some ("Booking ID mismatch: expected " ++ debugOption self.actor.currentBooking ++
      ", got " ++ bookingId)⟩, self)
  else if self.actor.state ≠ .booked then
    (⟨false, some ("Machine is not booked (current state: " ++ self.actor.state.display ++ ")")⟩,
      self)
  else
    let self := self.transitionTo now .deprovisioning
    let self := self.transitionTo now .idle
    let self := self.emit
      (.bookingEnded self.actor.machineId bookingId self.actor.spec.cluster 0)
    let self := { self with actor := { self.actor with currentBooking := none } }
    (⟨true, none⟩, self)

/-- `Message<CheckOwnership>`: shut down when the machine is no longer local. -/
def handleCheckOwnership (isStillLocal : Bool) (_self : Acting) : Bool := !isStillLocal

end Acting

inductive ActorMessage where
  | getMachineStatus
  | updateMachineSpec (specJson : String)
  | provisionMachine (bookingId : String) (config : ProvisionConfig)
  | deprovisionMachine (bookingId : String)
  | checkOwnership (isStillLocal : Bool)

inductive ActorReply where
  | status (status : MachineStatus)
  | result (result : RequestResult)
  | ownership (shouldShutdown : Bool)
  deriving DecidableEq

/-- The handler that a message selects. -/
def Acting.handle [SerdeJson] (now : ℤ) (self : Acting) : ActorMessage → ActorReply × Acting
  | .getMachineStatus =>
    let (status, self) := self.handleGetMachineStatus now
    (.status status, self)
  | .updateMachineSpec specJson =>
    let (result, self) := self.handleUpdateMachineSpec specJson
    (.result result, self)
  | .provisionMachine bookingId config =>
    let (result, self) := self.handleProvisionMachine now bookingId config
    (.result result, self)
  | .deprovisionMachine bookingId =>
    let (result, self) := self.handleDeprovisionMachine now bookingId
    (.result result, self)
  | .checkOwnership isStillLocal => (.ownership (self.handleCheckOwnership isStillLocal), self)

end Neolaas
