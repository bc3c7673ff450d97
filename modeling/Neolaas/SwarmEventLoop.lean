import Neolaas.NetworkState

/-!
# The swarm's event loop

The event loop adds and removes the addresses of peers in the routing table and
keeps the discovered peers in the network state. Its debug lines shorten peer
texts; which lines are evaluated depends on the levels of its module and of the
module of the network state.
-/
namespace Neolaas
open PeerId

/-- A component of a multiaddress. -/
inductive Protocol where
  | ip4 (ip : Ipv4Addr)
  | tcp (port : UInt16)
  | other (text : String)
  deriving DecidableEq, Repr

/-- `Multiaddr::iter`. -/
class MultiaddrIter (A : Type) where
  iter : A → List Protocol

/-- The address text that `initialize_p2p_network` parses for the local node. -/
def localMultiaddr (podIp : String) (p2pPort : UInt16) : String :=
  "/ip4/" ++ podIp ++ "/tcp/" ++ toString p2pPort

/-- An event of the swarm, with what its handler reads of it. The last two stand for
the events that are only logged. -/
inductive SwarmEvent (P A : Type) where
  | connectionEstablished (peerId : P)
  | connectionClosed (peerId : P)
  | mdnsDiscovered (peers : List (P × A))
  | mdnsExpired (peers : List (P × A))
  | identifyReceived (peerId : P) (listenAddrs : List A)
  | tracedPeer (peerId : P)
  | other

/-- The event loop with the shared state that it changes. The levels are of its own
module. -/
structure SwarmTask (P A : Type) where
  kademlia : List (P × A)
  network : NetworkState P
  logInfo : Bool
  logDebug : Bool
  logTrace : Bool

namespace SwarmTask
open Ending

/-- The information derived from an address, if it has an IPv4 host and a TCP port. -/
def peerInfo {P A : Type} [PeerId P] [MultiaddrIter A] (peerId : P) (addr : A) :
    Option PeerInfo := do
  let address ← (MultiaddrIter.iter addr).findSome?
    (fun p => match p with | .ip4 ip => some ip | _ => none)
  let port ← (MultiaddrIter.iter addr).findSome?
    (fun p => match p with | .tcp port => some port | _ => none)
  pure { podName := "peer-" ++ toBase58 peerId, address := address, port := port }

/-- Handle the peers of an mDNS event one after the other. -/
def forPeers {P A : Type} (f : P × A → SwarmTask P A → Ending (SwarmTask P A)) :
    List (P × A) → SwarmTask P A → Ending (SwarmTask P A)
  | [], self => .returned self
  | found :: rest, self => (f found self).bind (forPeers f rest)

/-- Handle a single swarm event. `dials` says whether the dial of an address succeeds. -/
def handleSwarmEvent {P A : Type} [DecidableEq P] [PeerId P] (dials : A → Bool) (now : ℕ)
    (self : SwarmTask P A) : SwarmEvent P A → Ending (SwarmTask P A)
  | .connectionEstablished peerId =>
    (afterLine self.logInfo peerId self).bind (fun self =>
      (self.network.markConnected now peerId).map (fun network => { self with network := network }))
  | .connectionClosed peerId =>
    (afterLine self.logDebug peerId self).bind (fun self =>
      (self.network.markDisconnected now peerId).map
        (fun network => { self with network := network }))
  | .mdnsDiscovered peers => forPeers (fun found self =>
      (afterLine self.logDebug found.1 self).bind (fun self =>
        afterLine (self.logTrace && !dials found.2) found.1
          { self with kademlia := self.kademlia ++ [found] })) peers self
  | .mdnsExpired peers => forPeers (fun found self =>
      (afterLine self.logTrace found.1 self).bind (fun self =>
        .returned { self with
          kademlia := self.kademlia.filter (fun p => p.1 ≠ found.1) })) peers self
  | .identifyReceived peerId listenAddrs =>
    (afterLine self.logTrace peerId self).bind (fun self => .returned { self with
      kademlia := self.kademlia ++ listenAddrs.map (fun addr => (peerId, addr)) })
  | .tracedPeer peerId => afterLine self.logTrace peerId self
  | .other => .returned self

/-- Handle discovery commands from the etcd discovery controller. -/
def handleDiscoveryCommand {P A : Type} [DecidableEq P] [PeerId P] [MultiaddrIter A]
    (dials : A → Bool) (now : ℕ) (self : SwarmTask P A) :
    DiscoveryCommand P A → Ending (SwarmTask P A)
  | .addPeer peerId addr =>
    (afterLine self.logDebug peerId self).bind (fun self =>
      let self : SwarmTask P A := { self with kademlia := self.kademlia ++ [(peerId, addr)] }
      match peerInfo peerId addr with
      | none => .returned self
      | some info =>
        ((self.network.addPeer now peerId info).map
          (fun network => { self with network := network })).bind (fun self =>
            afterLine (self.logTrace && !dials addr) peerId self))
  | .removePeer peerId =>
    (afterLine self.logDebug peerId self).bind (fun self =>
      let self : SwarmTask P A :=
        { self with kademlia := self.kademlia.filter (fun p => p.1 ≠ peerId) }
      (self.network.removePeer peerId).map (fun network => { self with network := network }))
  | .shutdown => .returned self

/-- None of the lines about adding a peer is evaluated. -/
def Quiet {P A : Type} [DecidableEq P] (dials : A → Bool) (peerId : P) (addr : A)
    (self : SwarmTask P A) : Prop :=
  self.logDebug = false ∧ (self.network.logDebug = false ∨ self.network.hasPeer peerId = true) ∧
    (self.logTrace = false ∨ dials addr = true)

/-- A peer that the network state knows after its command. -/
def afterAdd {P A : Type} [DecidableEq P] (now : ℕ) (peerId : P) (addr : A) (info : PeerInfo)
    (self : SwarmTask P A) : SwarmTask P A :=
  { self with
    kademlia := self.kademlia ++ [(peerId, addr)]
    network := if self.network.hasPeer peerId then self.network
      else self.network.set peerId (.new now peerId info) }

/-- A peer that is not there yet is added exactly when the line about it fits. -/
theorem addPeer_eq_returned {P : Type} [DecidableEq P] [PeerId P] {now : ℕ} {peerId : P}
    {info : PeerInfo} {self next : NetworkState P} :
    self.addPeer now peerId info = .returned next ↔
      (self.hasPeer peerId = false → Fits self.logDebug peerId) ∧
      next = if self.hasPeer peerId then self else self.set peerId (.new now peerId info) := by
  constructor
  · intro h
    have hfits : self.hasPeer peerId = false → Fits self.logDebug peerId := by
      intro hnew
      unfold NetworkState.addPeer at h
      rw [hnew, if_neg Bool.false_ne_true] at h
      obtain ⟨s, hline, -⟩ := bind_eq_returned.mp h
      exact (afterLine_eq_returned.mp hline).1
    rw [NetworkState.addPeer_of_fits now peerId info self hfits] at h
    exact ⟨hfits, (Ending.returned.inj h).symm⟩
  · rintro ⟨hfits, rfl⟩
    exact NetworkState.addPeer_of_fits now peerId info self hfits

/-- Adding a peer goes through exactly when no line panics. -/
theorem handleDiscoveryCommand_addPeer {P A : Type} [DecidableEq P] [PeerId P] [MultiaddrIter A]
    (dials : A → Bool) (now : ℕ) (peerId : P) (addr : A) (info : PeerInfo) (self : SwarmTask P A)
    (hinfo : peerInfo peerId addr = some info) :
    self.handleDiscoveryCommand dials now (.addPeer peerId addr) =
        .returned (self.afterAdd now peerId addr info) ↔
      self.Quiet dials peerId addr ∨ (short (toBase58 peerId)).isSome = true := by
  have hlines : self.handleDiscoveryCommand dials now (.addPeer peerId addr) =
        .returned (self.afterAdd now peerId addr info) ↔
      Fits self.logDebug peerId ∧
      (self.network.hasPeer peerId = false → Fits self.network.logDebug peerId) ∧
      Fits (self.logTrace && !dials addr) peerId := by
    simp only [handleDiscoveryCommand, hinfo]
    constructor
    · intro h
      obtain ⟨s, hline, h⟩ := bind_eq_returned.mp h
      obtain ⟨hdebug, rfl⟩ := afterLine_eq_returned.mp hline
      obtain ⟨s, hadd, h⟩ := bind_eq_returned.mp h
      obtain ⟨network, hnetwork, rfl⟩ := map_eq_returned.mp hadd
      exact ⟨hdebug, (addPeer_eq_returned.mp hnetwork).1, (afterLine_eq_returned.mp h).1⟩
    · rintro ⟨hdebug, hstate, htrace⟩
      refine bind_eq_returned.mpr ⟨self, afterLine_of_fits hdebug self, ?_⟩
      refine bind_eq_returned.mpr
        ⟨self.afterAdd now peerId addr info, ?_, afterLine_of_fits htrace _⟩
      exact map_eq_returned.mpr ⟨_, addPeer_eq_returned.mpr ⟨hstate, rfl⟩, rfl⟩
  rw [hlines]
  unfold Quiet Fits
  by_cases hshort : (short (toBase58 peerId)).isSome = true
  · simp [hshort]
  · simp only [hshort]
    cases self.logDebug <;> cases self.network.logDebug <;>
      cases self.network.hasPeer peerId <;> cases self.logTrace <;> cases dials addr <;> simp

end SwarmTask

namespace Ip4Text

def decimal (digits : List Char) : ℕ := digits.foldl (fun n c => 10 * n + (c.toNat - '0'.toNat)) 0

/-- The components of a multiaddress text, after its leading separator. -/
def components : List (List Char) → List Protocol
  | ['i', 'p', '4'] :: host :: rest =>
    match (host.splitOn '.').map decimal with
    | [a, b, c, d] => .ip4 ⟨.ofNat a, .ofNat b, .ofNat c, .ofNat d⟩ :: components rest
    | _ => .other (String.ofList host) :: components rest
  | ['t', 'c', 'p'] :: port :: rest => .tcp (.ofNat (decimal port)) :: components rest
  | part :: rest => .other (String.ofList part) :: components rest
  | [] => []

instance : MultiaddrIter Ip4Text where
  iter addr := components ((addr.text.toList.splitOn '/').drop 1)

end Ip4Text

end Neolaas
