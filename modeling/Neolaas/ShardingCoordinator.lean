import Neolaas.Events
import Neolaas.RendezvousHasher

/-!
# The sharding coordinator

The actor that answers which node owns a machine. Its log lines shorten peer
texts, so that constructing it and answering a lookup may panic.
-/
namespace Neolaas
open PeerId

/-- Coordinates machine ownership across the nodes of a cluster. -/
structure ShardingCoordinator (P : Type) where
  localPeerId : P
  hasher : RendezvousHasher P

/-- Result of a machine lookup. -/
structure LookupResult (P : Type) where
  machineId : String
  ownerPeer : Option P
  isLocal : Bool

/-- Acknowledgement of a topology change. -/
structure TopologyAck where
  previousCount : ℕ
  newCount : ℕ

namespace ShardingCoordinator

def new {P : Type} [PeerId P] (localPeerId : P) (initialPeers : List P) :
    Option (ShardingCoordinator P) :=
  (short (toBase58 localPeerId)).map (fun _ => ⟨localPeerId, RendezvousHasher.new initialPeers⟩)

/-- `Message<LookupMachine>` with its log line, `none` when the line panics. -/
def handleLookupMachine {P : Type} [DecidableEq P] [PeerId P] (score : Score P)
    (machineId : String) (self : ShardingCoordinator P) : Option (LookupResult P × Event) :=
  let ownerPeer := self.hasher.lookup score machineId
  let isLocal := decide (ownerPeer = some self.localPeerId)
  let ownerShort := match ownerPeer with
    | none => some none
    | some p => (short (toBase58 p)).map some
  ownerShort.map (fun owner =>
    (⟨machineId, ownerPeer, isLocal⟩, .machineLookup machineId owner isLocal))

/-- `Message<TopologyChanged>` with its log line. -/
def handleTopologyChanged {P : Type} [PeerId P] (peers : List P)
    (self : ShardingCoordinator P) : TopologyAck × Event × ShardingCoordinator P :=
  let previousCount := self.hasher.nodeCount
  let newCount := peers.length
  (⟨previousCount, newCount⟩, .topologyChange previousCount newCount,
    { self with hasher := self.hasher.rebuild peers })

/-- The machine belongs to the local node. -/
def Owns {P : Type} (score : Score P) (self : ShardingCoordinator P) (machineId : String) : Prop :=
  self.hasher.lookup score machineId = some self.localPeerId

/-- What an answered lookup says. -/
theorem handleLookupMachine_eq_some {P : Type} [DecidableEq P] [PeerId P] {score : Score P}
    {machineId : String} {self : ShardingCoordinator P} {result : LookupResult P} {line : Event}
    (h : self.handleLookupMachine score machineId = some (result, line)) :
    result.ownerPeer = self.hasher.lookup score machineId ∧
      (result.isLocal = true ↔ self.Owns score machineId) ∧
      ∃ owner, line = .machineLookup machineId owner result.isLocal := by
  unfold handleLookupMachine at h
  obtain ⟨owner, -, hpair⟩ := Option.map_eq_some_iff.mp h
  obtain ⟨rfl, rfl⟩ := Prod.mk.inj hpair
  exact ⟨rfl, decide_eq_true_iff, owner, rfl⟩

end ShardingCoordinator
end Neolaas
