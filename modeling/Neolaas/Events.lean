import Mathlib

/-!
# Structured events, metrics and log lines

One constructor for each emission that the modelled code makes, with the fields
it emits. The log lines of the sharding coordinator are kept next to the events
because statements about the order of lookups and topology changes read them.
-/
namespace Neolaas

inductive Event where
  | machineStateChanged (machineId previousState newState adminState cluster : String)
  | actorSpawned (actorType actorId nodeId : String)
  | actorStopped (actorType actorId reason nodeId : String)
  | actorPanicked (actorType actorId error nodeId : String) (willRestart : Bool)
  | bookingStarted (machineId bookingId cluster : String)
  | bookingEnded (machineId bookingId cluster : String) (durationSecs : ℕ)
  | ownershipTransferred (machineId previousOwner newOwner : String)
  /-- `metrics::record_actor_spawned`. -/
  | recordActorSpawned (actorType : String)
  /-- `metrics::record_actor_stopped`. -/
  | recordActorStopped (actorType reason : String)
  /-- The coordinator's line "Machine lookup". -/
  | machineLookup (machineId : String) (owner : Option String) (isLocal : Bool)
  /-- The coordinator's line "Topology change: rebuilding hash table". -/
  | topologyChange (previous new : ℕ)
  deriving DecidableEq, Repr

namespace Event

/-- The two states of a `machine_state_changed` event. -/
def stateChange : Event → Option (String × String)
  | machineStateChanged _ previousState newState _ _ => some (previousState, newState)
  | _ => none

end Event
end Neolaas
