import Neolaas.Etcd
import Neolaas.PeerId
import Neolaas.SerdeJson

/-!
# Discovery phases

Peers register under a prefix of their cluster in etcd. A node reads all of them
once and then follows the watch of the prefix, keeping the set of known peers
that it hands to the sharding coordinator after each change. The order in which
a hash set lists its elements is a parameter.
-/
namespace Neolaas
open PeerId

/-- The interface of libp2p's `Multiaddr` used by discovery. -/
class Multiaddr (A : Type) where
  parse : String → Option A
  display : A → String

/-- Peer metadata stored in etcd. -/
structure PeerMetadata where
  multiaddr : String
  metaEntries : Std.ExtTreeMap String String
  shard : ℕ

namespace PeerMetadata

/-- The derived `Serialize for PeerMetadata`. -/
def toJson (m : PeerMetadata) : Json :=
  .object [("multiaddr", .string m.multiaddr), ("meta", Json.ofStringMap m.metaEntries),
    ("shard", .number (.posInt m.shard))]

/-- The derived `Deserialize for PeerMetadata`. -/
def ofJson (j : Json) : Option PeerMetadata :=
  match j.slots ["multiaddr", "meta", "shard"] with
  | some [multiaddr, metaEntries, shard] => do
    pure {
      multiaddr := ← Json.required Json.asString multiaddr
      metaEntries := ← Json.defaulted ∅ Json.asStringMap metaEntries
      shard := ← Json.defaulted 0 Json.asU32 shard }
  | _ => none

/-- `serde_json::from_str::<PeerMetadata>`. -/
def fromStr [SerdeJson] (value : String) : Option PeerMetadata :=
  (SerdeJson.parse value).bind ofJson

end PeerMetadata

/-- Commands from discovery to the swarm. -/
inductive DiscoveryCommand (P A : Type) where
  | addPeer (peerId : P) (addr : A)
  | removePeer (peerId : P)
  | shutdown
  deriving DecidableEq

/-- `EtcdOperations::peers_prefix`. -/
def peersPrefix (clusterId : String) : String := "/kameo/v1/clusters/" ++ clusterId ++ "/peers/"

/-- `EtcdOperations::peer_key`. -/
def peerKey {P : Type} [PeerId P] (clusterId : String) (peerId : P) : String :=
  peersPrefix clusterId ++ toBase58 peerId

/-- The state that the phases share. `swarmTx` and `shardingTx` are the channels
to the swarm and to sharding, `logDebug` whether debug lines are evaluated. -/
structure DiscoveryPhases (P A : Type) where
  clusterId : String
  localPeerId : P
  localAddr : A
  swarmTx : List (DiscoveryCommand P A)
  readiness : Bool
  knownPeers : Finset P
  shardingTx : List (List P)
  logDebug : Bool

/-- How a step of discovery ends: it goes on, it returns an error, it panics. -/
inductive Outcome (σ : Type) where
  | ok (self : σ)
  | error (self : σ)
  | panicked

namespace Outcome

/-- Run a step for each element until one fails. -/
def forEach {σ β : Type} (step : β → σ → Outcome σ) : List β → σ → Outcome σ
  | [], self => .ok self
  | b :: bs, self =>
    match step b self with
    | .ok self => forEach step bs self
    | .error self => .error self
    | .panicked => .panicked

end Outcome

/-- A response of a watch stream. -/
structure WatchResponse where
  canceled : Bool
  events : List WatchEvent

/-- A listing of a set, each element once. -/
def Lists {P : Type} [DecidableEq P] (peers : List P) (known : Finset P) : Prop :=
  peers.Nodup ∧ peers.toFinset = known

instance {P : Type} [DecidableEq P] (peers : List P) (known : Finset P) :
    Decidable (Lists peers known) := inferInstanceAs (Decidable (_ ∧ _))

namespace DiscoveryPhases

/-- Start with the local peer in the known set. -/
def new {P A : Type} (clusterId : String) (localPeerId : P) (localAddr : A) (logDebug : Bool) :
    DiscoveryPhases P A where
  clusterId := clusterId
  localPeerId := localPeerId
  localAddr := localAddr
  swarmTx := []
  readiness := false
  knownPeers := {localPeerId}
  shardingTx := []
  logDebug := logDebug

/-- Send the known peers, in the order in which the set lists them. -/
def notifySharding {P A : Type} (iter : Finset P → List P) (self : DiscoveryPhases P A) :
    DiscoveryPhases P A :=
  { self with shardingTx := self.shardingTx ++ [iter self.knownPeers] }

/-- The value that a node registers. -/
def metadata {P A : Type} [Multiaddr A] (self : DiscoveryPhases P A) : PeerMetadata where
  multiaddr := Multiaddr.display self.localAddr
  metaEntries := ∅
  shard := 0

/-- Phase 2, the put of the node's own key. -/
def register {P A : Type} [SerdeJson] [PeerId P] [Multiaddr A] (self : DiscoveryPhases P A)
    (etcd : Etcd) : Etcd :=
  etcd.insert (peerKey self.clusterId self.localPeerId) (SerdeJson.print self.metadata.toJson)

/-- The address in a registered value. -/
def peerAddr {A : Type} [SerdeJson] [Multiaddr A] (value : String) : Option A :=
  (PeerMetadata.fromStr value).bind (fun m => Multiaddr.parse m.multiaddr)

/-- The peer that a key names. -/
def peerOfKey {P A : Type} [PeerId P] (self : DiscoveryPhases P A) (key : String) : Option P :=
  (stripPrefix (peersPrefix self.clusterId) key).bind fromStr

/-- Another peer and its address, read from a key and a value. -/
def decodePeer {P A : Type} [SerdeJson] [DecidableEq P] [PeerId P] [Multiaddr A]
    (self : DiscoveryPhases P A) (key value : String) : Option (P × A) := do
  let peerId ← self.peerOfKey key
  if peerId = self.localPeerId then none
  else
    let addr ← peerAddr value
    pure (peerId, addr)

/-- A debug line with a peer's shortened text, before the work that follows it. -/
def debugPeer {P A : Type} [PeerId P] (peerId : P) (self : DiscoveryPhases P A)
    (next : DiscoveryPhases P A) : Outcome (DiscoveryPhases P A) :=
  if self.logDebug ∧ short (toBase58 peerId) = none then .panicked else .ok next

/-- A discovered peer goes to the swarm and into the known set. -/
def addPeer {P A : Type} [DecidableEq P] (peerId : P) (addr : A) (self : DiscoveryPhases P A) :
    DiscoveryPhases P A :=
  { self with
    swarmTx := self.swarmTx ++ [.addPeer peerId addr]
    knownPeers := insert peerId self.knownPeers }

def removePeer {P A : Type} [DecidableEq P] (peerId : P) (self : DiscoveryPhases P A) :
    DiscoveryPhases P A :=
  { self with
    swarmTx := self.swarmTx ++ [.removePeer peerId]
    knownPeers := self.knownPeers.erase peerId }

/-- One pair of the snapshot. A pair that is no UTF-8 is an error, any other that
does not decode is skipped. -/
def convergeKv {P A : Type} [SerdeJson] [DecidableEq P] [PeerId P] [Multiaddr A]
    (kv : KeyValue) (self : DiscoveryPhases P A) : Outcome (DiscoveryPhases P A) :=
  match kv.keyStr, kv.valueStr with
  | some key, some value =>
    match self.decodePeer key value with
    | some (peerId, addr) => self.debugPeer peerId (self.addPeer peerId addr)
    | none => .ok self
  | _, _ => .error self

/-- The end of phase 3: the topology goes to sharding and the node is ready. -/
def convergeDone {P A : Type} (iter : Finset P → List P) (self : DiscoveryPhases P A) :
    DiscoveryPhases P A :=
  { self.notifySharding iter with readiness := true }

/-- Phase 3 on the pairs that the range read returned. -/
def converge {P A : Type} [SerdeJson] [DecidableEq P] [PeerId P] [Multiaddr A]
    (iter : Finset P → List P) (kvs : List KeyValue) (self : DiscoveryPhases P A) :
    Outcome (DiscoveryPhases P A) :=
  match Outcome.forEach convergeKv kvs self with
  | .ok self => .ok (self.convergeDone iter)
  | failed => failed

/-- One event of a watch response. -/
def processEvent {P A : Type} [SerdeJson] [DecidableEq P] [PeerId P] [Multiaddr A]
    (iter : Finset P → List P) (event : WatchEvent) (self : DiscoveryPhases P A) :
    Outcome (DiscoveryPhases P A) :=
  match event.eventType, event.kv with
  | _, none => .ok self
  | .put, some kv =>
    match kv.keyStr, kv.valueStr with
    | some key, some value =>
      match self.decodePeer key value with
      | some (peerId, addr) =>
        self.debugPeer peerId ((self.addPeer peerId addr).notifySharding iter)
      | none => .ok self
    | _, _ => .error self
  | .delete, some kv =>
    match kv.keyStr with
    | some key =>
      match self.peerOfKey key with
      | some peerId => self.debugPeer peerId ((self.removePeer peerId).notifySharding iter)
      | none => .ok self
    | none => .error self

/-- Process one message of the stream. `none` is the end of the stream. -/
def processWatchEvent {P A : Type} [SerdeJson] [DecidableEq P] [PeerId P] [Multiaddr A]
    (iter : Finset P → List P) (message : Option WatchResponse) (self : DiscoveryPhases P A) :
    Outcome (DiscoveryPhases P A) :=
  match message with
  | none => .ok self
  | some resp =>
    if resp.canceled then .error self
    else Outcome.forEach (processEvent iter) resp.events self

/-- What an event changes in the set of known peers. -/
def peerChange {P A : Type} [SerdeJson] [DecidableEq P] [PeerId P] [Multiaddr A]
    (self : DiscoveryPhases P A) (c : ChangeLog.Change String String) :
    Option (ChangeLog.Change P Unit) :=
  match c.value with
  | some value => (self.decodePeer c.key value).map (fun found => ⟨found.1, some ()⟩)
  | none => (self.peerOfKey c.key).map (fun peerId => ⟨peerId, none⟩)

/-- The known peers as the content that peer changes act on. -/
def knownView {P A : Type} [DecidableEq P] (self : DiscoveryPhases P A) : P → Option Unit :=
  fun p => if p ∈ self.knownPeers then some () else none

@[simp] theorem knownView_addPeer {P A : Type} [DecidableEq P] (self : DiscoveryPhases P A)
    (peerId : P) (addr : A) : (self.addPeer peerId addr).knownView =
      ChangeLog.Change.apply self.knownView ⟨peerId, some ()⟩ := by
  funext p
  by_cases h : p = peerId
  · simp [knownView, addPeer, ChangeLog.Change.apply, h]
  · simp [knownView, addPeer, ChangeLog.Change.apply, h, Function.update_of_ne]

@[simp] theorem knownView_removePeer {P A : Type} [DecidableEq P] (self : DiscoveryPhases P A)
    (peerId : P) : (self.removePeer peerId).knownView =
      ChangeLog.Change.apply self.knownView ⟨peerId, none⟩ := by
  funext p
  by_cases h : p = peerId
  · simp [knownView, removePeer, ChangeLog.Change.apply, h]
  · simp [knownView, removePeer, ChangeLog.Change.apply, h, Function.update_of_ne]

@[simp] theorem knownView_notifySharding {P A : Type} [DecidableEq P]
    (iter : Finset P → List P) (self : DiscoveryPhases P A) :
    (self.notifySharding iter).knownView = self.knownView := rfl

/-- The same node of the same cluster. -/
def SameNode {P A : Type} (self next : DiscoveryPhases P A) : Prop :=
  next.clusterId = self.clusterId ∧ next.localPeerId = self.localPeerId

theorem SameNode.peerOfKey {P A : Type} [PeerId P] {self next : DiscoveryPhases P A}
    (h : self.SameNode next) (key : String) : next.peerOfKey key = self.peerOfKey key := by
  unfold DiscoveryPhases.peerOfKey
  rw [h.1]

theorem SameNode.decodePeer {P A : Type} [SerdeJson] [DecidableEq P] [PeerId P] [Multiaddr A]
    {self next : DiscoveryPhases P A} (h : self.SameNode next) (key value : String) :
    next.decodePeer key value = self.decodePeer key value := by
  unfold DiscoveryPhases.decodePeer
  rw [h.peerOfKey, h.2]

theorem SameNode.peerChange {P A : Type} [SerdeJson] [DecidableEq P] [PeerId P] [Multiaddr A]
    {self next : DiscoveryPhases P A} (h : self.SameNode next)
    (c : ChangeLog.Change String String) : next.peerChange c = self.peerChange c := by
  unfold DiscoveryPhases.peerChange
  cases c.value with
  | none => rw [h.peerOfKey]
  | some value => simp only [h.decodePeer]

/-- A node's key names it. -/
@[simp] theorem peerOfKey_peerKey {P A : Type} [PeerId P] [LawfulPeerId P]
    (self : DiscoveryPhases P A) (p : P) :
    self.peerOfKey (peerKey self.clusterId p) = some p := by
  unfold peerOfKey peerKey
  rw [stripPrefix_append, Option.bind_some]
  exact LawfulPeerId.fromStr_toBase58 p

/-- The registration of another peer is decoded, the node's own is passed over. -/
theorem decodePeer_peerKey {P A : Type} [SerdeJson] [DecidableEq P] [PeerId P] [LawfulPeerId P]
    [Multiaddr A] (self : DiscoveryPhases P A) (p : P) (value : String) :
    self.decodePeer (peerKey self.clusterId p) value =
      if p = self.localPeerId then none else (peerAddr value).map (fun addr => (p, addr)) := by
  unfold decodePeer
  rw [peerOfKey_peerKey]
  by_cases h : p = self.localPeerId
  · simp [h]
  · simp only [Option.bind_eq_bind, Option.bind_some, h, if_false, Option.pure_def]
    cases peerAddr (A := A) value <;> rfl

theorem debugPeer_eq_ok {P A : Type} [PeerId P] {peerId : P}
    {self next result : DiscoveryPhases P A} (h : self.debugPeer peerId next = .ok result) :
    result = next := by
  unfold debugPeer at h
  split_ifs at h
  exact (Outcome.ok.inj h).symm

theorem debugPeer_ne_error {P A : Type} [PeerId P] (peerId : P)
    (self next result : DiscoveryPhases P A) : self.debugPeer peerId next ≠ .error result := by
  unfold debugPeer
  split_ifs <;> simp

/-- What a processed event does to the known peers. -/
theorem processEvent_ok {P A : Type} [SerdeJson] [DecidableEq P] [PeerId P] [Multiaddr A]
    {iter : Finset P → List P} {c : ChangeLog.Change String String}
    {self next : DiscoveryPhases P A} (h : processEvent iter (Etcd.event c) self = .ok next) :
    self.SameNode next ∧
      next.knownView = ChangeLog.replay self.knownView (self.peerChange c).toList := by
  obtain ⟨key, value⟩ := c
  unfold peerChange
  cases value with
  | none =>
    simp only [Etcd.event, processEvent, KeyValue.keyStr_ofText] at h ⊢
    cases hp : self.peerOfKey key with
    | none =>
      simp only [hp] at h
      obtain rfl := Outcome.ok.inj h
      exact ⟨⟨rfl, rfl⟩, rfl⟩
    | some peerId =>
      simp only [hp] at h
      obtain rfl := debugPeer_eq_ok h
      exact ⟨⟨rfl, rfl⟩, knownView_removePeer self peerId⟩
  | some value =>
    simp only [Etcd.event, processEvent, KeyValue.keyStr_ofText, KeyValue.valueStr_ofText] at h ⊢
    cases hp : self.decodePeer key value with
    | none =>
      simp only [hp] at h
      obtain rfl := Outcome.ok.inj h
      exact ⟨⟨rfl, rfl⟩, rfl⟩
    | some found =>
      simp only [hp] at h
      obtain rfl := debugPeer_eq_ok h
      exact ⟨⟨rfl, rfl⟩, knownView_addPeer self found.1 found.2⟩

/-- An event with a text key and a text value is no error. -/
theorem processEvent_ne_error {P A : Type} [SerdeJson] [DecidableEq P] [PeerId P] [Multiaddr A]
    (iter : Finset P → List P) (c : ChangeLog.Change String String)
    (self next : DiscoveryPhases P A) : processEvent iter (Etcd.event c) self ≠ .error next := by
  obtain ⟨key, value⟩ := c
  cases value with
  | none =>
    simp only [Etcd.event, processEvent, KeyValue.keyStr_ofText]
    cases self.peerOfKey key with
    | none => simp
    | some peerId => exact debugPeer_ne_error peerId _ _ _
  | some value =>
    simp only [Etcd.event, processEvent, KeyValue.keyStr_ofText, KeyValue.valueStr_ofText]
    cases self.decodePeer key value with
    | none => simp
    | some found => exact debugPeer_ne_error found.1 _ _ _

/-- A processed event leaves the phases as they are or sends the peers that are
known after it. -/
theorem processEvent_sends {P A : Type} [SerdeJson] [DecidableEq P] [PeerId P] [Multiaddr A]
    {iter : Finset P → List P} {event : WatchEvent} {self next : DiscoveryPhases P A}
    (h : processEvent iter event self = .ok next) :
    next = self ∨ self.SameNode next ∧
      next.shardingTx = self.shardingTx ++ [iter next.knownPeers] := by
  obtain ⟨eventType, kv⟩ := event
  cases kv with
  | none =>
    cases eventType <;> exact Or.inl (Outcome.ok.inj h).symm
  | some kv =>
    cases eventType with
    | put =>
      cases hkey : kv.keyStr with
      | none => simp [processEvent, hkey] at h
      | some key =>
        cases hvalue : kv.valueStr with
        | none => simp [processEvent, hkey, hvalue] at h
        | some value =>
          simp only [processEvent, hkey, hvalue] at h
          cases hp : self.decodePeer key value with
          | none =>
            simp only [hp] at h
            exact Or.inl (Outcome.ok.inj h).symm
          | some found =>
            simp only [hp] at h
            obtain rfl := debugPeer_eq_ok h
            exact Or.inr ⟨⟨rfl, rfl⟩, rfl⟩
    | delete =>
      cases hkey : kv.keyStr with
      | none => simp [processEvent, hkey] at h
      | some key =>
        simp only [processEvent, hkey] at h
        cases hp : self.peerOfKey key with
        | none =>
          simp only [hp] at h
          exact Or.inl (Outcome.ok.inj h).symm
        | some peerId =>
          simp only [hp] at h
          obtain rfl := debugPeer_eq_ok h
          exact Or.inr ⟨⟨rfl, rfl⟩, rfl⟩

/-- A failed event has changed nothing. -/
theorem processEvent_error {P A : Type} [SerdeJson] [DecidableEq P] [PeerId P] [Multiaddr A]
    {iter : Finset P → List P} {event : WatchEvent} {self next : DiscoveryPhases P A}
    (h : processEvent iter event self = .error next) : next = self := by
  obtain ⟨eventType, kv⟩ := event
  cases kv with
  | none => cases eventType <;> cases h
  | some kv =>
    cases eventType with
    | put =>
      simp only [processEvent] at h
      split at h
      · split at h
        · exact absurd h (debugPeer_ne_error _ _ _ _)
        · cases h
      · exact (Outcome.error.inj h).symm
    | delete =>
      simp only [processEvent] at h
      split at h
      · split at h
        · exact absurd h (debugPeer_ne_error _ _ _ _)
        · cases h
      · exact (Outcome.error.inj h).symm

/-- The pair of a text key and a text value decodes to a peer. -/
def Names {P A : Type} [SerdeJson] [DecidableEq P] [PeerId P] [Multiaddr A]
    (self : DiscoveryPhases P A) (kv : KeyValue) (p : P) : Prop :=
  ∃ key value addr, kv.keyStr = some key ∧ kv.valueStr = some value ∧
    self.decodePeer key value = some (p, addr)

/-- What one pair of the snapshot does to the known peers. -/
theorem convergeKv_ok {P A : Type} [SerdeJson] [DecidableEq P] [PeerId P] [Multiaddr A]
    {kv : KeyValue} {self next : DiscoveryPhases P A} (h : convergeKv kv self = .ok next) :
    self.SameNode next ∧ ∀ p, p ∈ next.knownPeers ↔ p ∈ self.knownPeers ∨ self.Names kv p := by
  unfold convergeKv at h
  cases hkey : kv.keyStr with
  | none => simp [hkey] at h
  | some key =>
    cases hvalue : kv.valueStr with
    | none => simp [hkey, hvalue] at h
    | some value =>
      have hnames : ∀ p, self.Names kv p ↔ ∃ addr, self.decodePeer key value = some (p, addr) := by
        intro p
        simp [Names, hkey, hvalue]
      simp only [hkey, hvalue] at h
      cases hp : self.decodePeer key value with
      | none =>
        simp only [hp] at h
        obtain rfl := Outcome.ok.inj h
        refine ⟨⟨rfl, rfl⟩, fun p => ?_⟩
        rw [hnames, hp]
        simp
      | some found =>
        simp only [hp] at h
        obtain rfl := debugPeer_eq_ok h
        refine ⟨⟨rfl, rfl⟩, fun p => ?_⟩
        rw [hnames, hp, addPeer, Finset.mem_insert]
        constructor
        · intro hmem
          obtain rfl | hmem := hmem
          · exact Or.inr ⟨found.2, rfl⟩
          · exact Or.inl hmem
        · intro hmem
          obtain hmem | ⟨addr, haddr⟩ := hmem
          · exact Or.inr hmem
          · exact Or.inl (congrArg Prod.fst (Option.some.inj haddr)).symm

/-- A failed pair has changed nothing. -/
theorem convergeKv_error {P A : Type} [SerdeJson] [DecidableEq P] [PeerId P] [Multiaddr A]
    {kv : KeyValue} {self next : DiscoveryPhases P A} (h : convergeKv kv self = .error next) :
    next = self := by
  unfold convergeKv at h
  split at h
  · split at h
    · exact absurd h (debugPeer_ne_error _ _ _ _)
    · cases h
  · exact (Outcome.error.inj h).symm

/-- A completed snapshot adds the peers that its pairs name. -/
theorem forEach_convergeKv_ok {P A : Type} [SerdeJson] [DecidableEq P] [PeerId P] [Multiaddr A]
    {kvs : List KeyValue} {self next : DiscoveryPhases P A}
    (h : Outcome.forEach convergeKv kvs self = .ok next) :
    self.SameNode next ∧
      ∀ p, p ∈ next.knownPeers ↔ p ∈ self.knownPeers ∨ ∃ kv ∈ kvs, self.Names kv p := by
  induction kvs generalizing self with
  | nil =>
    obtain rfl := Outcome.ok.inj h
    exact ⟨⟨rfl, rfl⟩, by simp⟩
  | cons kv kvs ih =>
    simp only [Outcome.forEach] at h
    cases hkv : convergeKv kv self with
    | error failed => simp [hkv] at h
    | panicked => simp [hkv] at h
    | ok mid =>
      simp only [hkv] at h
      obtain ⟨hmid, hfirst⟩ := convergeKv_ok hkv
      obtain ⟨hnext, hrest⟩ := ih h
      refine ⟨⟨hnext.1.trans hmid.1, hnext.2.trans hmid.2⟩, fun p => ?_⟩
      have hsame : ∀ kv', mid.Names kv' p ↔ self.Names kv' p := by
        intro kv'
        simp only [Names, hmid.decodePeer]
      rw [hrest p, hfirst p]
      simp only [hsame, List.exists_mem_cons_iff, or_assoc]

/-- A snapshot of text keys and text values is no error. -/
theorem converge_ne_error {P A : Type} [SerdeJson] [DecidableEq P] [PeerId P] [Multiaddr A]
    {kvs : List KeyValue} (htext : ∀ kv ∈ kvs, kv.keyStr ≠ none ∧ kv.valueStr ≠ none)
    (iter : Finset P → List P) (self failed : DiscoveryPhases P A) :
    converge iter kvs self ≠ .error failed := by
  have hloop : ∀ self, Outcome.forEach convergeKv kvs self ≠ .error failed := by
    induction kvs with
    | nil => simp [Outcome.forEach]
    | cons kv kvs ih =>
      intro self
      have hrest := ih (fun kv' hmem => htext kv' (List.mem_cons_of_mem kv hmem))
      obtain ⟨hkey, hvalue⟩ := htext kv List.mem_cons_self
      obtain ⟨key, hkey⟩ := Option.ne_none_iff_exists'.mp hkey
      obtain ⟨value, hvalue⟩ := Option.ne_none_iff_exists'.mp hvalue
      simp only [Outcome.forEach, convergeKv, hkey, hvalue]
      cases self.decodePeer key value with
      | none => exact hrest self
      | some found =>
        simp only [debugPeer]
        by_cases hshort : self.logDebug ∧ short (toBase58 found.1) = none
        · simp [hshort]
        · simp only [if_neg hshort]
          exact hrest _
  unfold converge
  cases h : Outcome.forEach convergeKv kvs self with
  | ok done => simp
  | panicked => simp
  | error failed' =>
    intro he
    obtain rfl := Outcome.error.inj he
    exact hloop self h

end DiscoveryPhases

/-- A multiaddress of an IPv4 host, kept as its text. -/
structure Ip4Text where
  text : String
  deriving DecidableEq

instance : Multiaddr Ip4Text where
  parse s := if (stripPrefix "/ip4/" s).isSome then some ⟨s⟩ else none
  display addr := addr.text

/-- The metadata that another node registers. -/
def otherMetadata : PeerMetadata := ⟨"/ip4/10.0.0.2/tcp/5000", ∅, 0⟩

end Neolaas
