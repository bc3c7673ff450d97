import Neolaas.SwarmEventLoop

/-!
# A registration and its readers

The key and the value that a node registers travel through four encodings: the
key's text, the metadata's JSON, the address text and the address components.
Another cluster's prefix may be the start of the key, but what follows it then
contains a separator, which no peer's text does.
-/
namespace Neolaas
open PeerId

/-- Where the last separator falls is determined by the list. -/
theorem append_separator_injective {α : Type*} {sep : α} {xs ys us vs : List α} (hys : sep ∉ ys)
    (hvs : sep ∉ vs) (h : xs ++ sep :: ys = us ++ sep :: vs) : xs = us ∧ ys = vs := by
  obtain ⟨mid, hus, hmid⟩ | ⟨mid, hxs, hmid⟩ := List.append_eq_append_iff.mp h
  · cases mid with
    | nil =>
      rw [List.append_nil] at hus
      exact ⟨hus.symm, (List.cons.inj hmid).2⟩
    | cons a mid =>
      have hin : sep ∈ ys := by
        rw [(List.cons.inj hmid).2]
        exact List.mem_append_right mid List.mem_cons_self
      exact absurd hin hys
  · cases mid with
    | nil =>
      rw [List.append_nil] at hxs
      exact ⟨hxs, (List.cons.inj hmid).2.symm⟩
    | cons a mid =>
      have hin : sep ∈ vs := by
        rw [(List.cons.inj hmid).2]
        exact List.mem_append_right mid List.mem_cons_self
      exact absurd hin hvs

/-- A key with a name without separators belongs to the prefix of one cluster. -/
theorem peersPrefix_append_injective {c c' name name' : String} (hname : '/' ∉ name.toList)
    (hname' : '/' ∉ name'.toList) (h : peersPrefix c ++ name = peersPrefix c' ++ name') :
    c = c' ∧ name = name' := by
  have hlist : ∀ c name : String, (peersPrefix c ++ name).toList =
      ("/kameo/v1/clusters/".toList ++ (c.toList ++ "/peers".toList)) ++ '/' :: name.toList := by
    intro c name
    have hpeers : "/peers/".toList = "/peers".toList ++ ['/'] := by decide
    unfold peersPrefix
    simp only [String.toList_append, hpeers, List.append_assoc, List.singleton_append]
  have heq := congrArg String.toList h
  rw [hlist, hlist] at heq
  obtain ⟨hstart, hrest⟩ := append_separator_injective hname hname' heq
  have hcluster : c.toList = c'.toList :=
    List.append_cancel_right (List.append_cancel_left hstart)
  exact ⟨String.toList_inj.mp hcluster, String.toList_inj.mp hrest⟩

namespace PeerMetadata

/-- Metadata are read back as written. -/
theorem ofJson_toJson (m : PeerMetadata) (hshard : m.shard < 2 ^ 32) :
    ofJson m.toJson = some m := by
  have hslots : m.toJson.slots ["multiaddr", "meta", "shard"] =
      some [some (.string m.multiaddr), some (Json.ofStringMap m.metaEntries),
        some (.number (.posInt m.shard))] := by
    simp [toJson, Json.slots, Json.member]
  unfold ofJson
  rw [hslots]
  have hu32 : (Json.number (.posInt m.shard)).asU32 = some m.shard := if_pos hshard
  simp [Json.required, Json.defaulted, Json.asString, hu32]

end PeerMetadata

namespace DiscoveryPhases

/-- A key of another cluster names no peer, even if it starts with the prefix. -/
theorem peerOfKey_of_other_cluster {P A : Type} [PeerId P]
    (hparsed : ∀ (text : String) (p : P), fromStr text = some p → '/' ∉ text.toList)
    {c : String} {name : String} (hname : '/' ∉ name.toList) (self : DiscoveryPhases P A)
    (hne : self.clusterId ≠ c) : self.peerOfKey (peersPrefix c ++ name) = none := by
  rw [Option.eq_none_iff_forall_not_mem]
  intro p hp
  obtain ⟨rest, hrest, hparse⟩ := Option.bind_eq_some_iff.mp hp
  have hkey := stripPrefix_eq_some.mp hrest
  have hsame := peersPrefix_append_injective hname (hparsed rest p hparse) hkey
  exact hne hsame.1.symm

/-- The address that a node registers is read back. -/
theorem peerAddr_metadata {P A : Type} [SerdeJson] [Multiaddr A] (self : DiscoveryPhases P A)
    (hjson : SerdeJson.parse (SerdeJson.print self.metadata.toJson) = some self.metadata.toJson)
    (hround : Multiaddr.parse (Multiaddr.display self.localAddr) = some self.localAddr) :
    peerAddr (A := A) (SerdeJson.print self.metadata.toJson) = some self.localAddr := by
  unfold peerAddr PeerMetadata.fromStr
  rw [hjson, Option.bind_some, PeerMetadata.ofJson_toJson self.metadata (Nat.two_pow_pos 32),
    Option.bind_some]
  exact hround

/-- A pair that decodes is passed on, unless its debug line panics. -/
theorem debugPeer_eq_ok_iff {P A : Type} [PeerId P] (peerId : P)
    (self next : DiscoveryPhases P A) :
    self.debugPeer peerId next = .ok next ↔
      self.logDebug = false ∨ (short (toBase58 peerId)).isSome = true := by
  unfold debugPeer
  cases self.logDebug <;> cases short (toBase58 peerId) <;> simp

end DiscoveryPhases

/-- A registration has reached the routing table of another node, by the snapshot
and by the watch, and its address the network state. -/
structure Conveyed {P A : Type} [SerdeJson] [DecidableEq P] [PeerId P] [Multiaddr A]
    [MultiaddrIter A] (iter : Finset P → List P) (dials : A → Bool) (now : ℕ) (key value : String)
    (peerId : P) (addr : A) (info : PeerInfo) (reader : DiscoveryPhases P A)
    (task : SwarmTask P A) : Prop where
  converged : reader.convergeKv (KeyValue.ofText key value) = .ok (reader.addPeer peerId addr)
  watched : reader.processEvent iter (Etcd.event ⟨key, some value⟩) =
    .ok ((reader.addPeer peerId addr).notifySharding iter)
  derived : SwarmTask.peerInfo peerId addr = some info
  handled : task.handleDiscoveryCommand dials now (.addPeer peerId addr) =
    .returned (task.afterAdd now peerId addr info)

/-- A registration that decodes is conveyed exactly when no line about it panics. -/
theorem conveyed_iff {P A : Type} [SerdeJson] [DecidableEq P] [PeerId P] [Multiaddr A]
    [MultiaddrIter A] {iter : Finset P → List P} {dials : A → Bool} {now : ℕ}
    {key value : String} {peerId : P} {addr : A} {info : PeerInfo} {reader : DiscoveryPhases P A}
    {task : SwarmTask P A}
    (hdecode : reader.decodePeer key value = some (peerId, addr))
    (hinfo : SwarmTask.peerInfo peerId addr = some info) :
    Conveyed iter dials now key value peerId addr info reader task ↔
      reader.logDebug = false ∧ task.Quiet dials peerId addr ∨
        (short (toBase58 peerId)).isSome = true := by
  have hconverge : reader.convergeKv (KeyValue.ofText key value) =
      reader.debugPeer peerId (reader.addPeer peerId addr) := by
    unfold DiscoveryPhases.convergeKv
    simp only [KeyValue.keyStr_ofText, KeyValue.valueStr_ofText, hdecode]
  have hwatch : reader.processEvent iter (Etcd.event ⟨key, some value⟩) =
      reader.debugPeer peerId ((reader.addPeer peerId addr).notifySharding iter) := by
    simp only [DiscoveryPhases.processEvent, Etcd.event, KeyValue.keyStr_ofText,
      KeyValue.valueStr_ofText, hdecode]
  have hhandle := SwarmTask.handleDiscoveryCommand_addPeer dials now peerId addr info task hinfo
  constructor
  · intro h
    have hread := h.converged
    rw [hconverge, DiscoveryPhases.debugPeer_eq_ok_iff] at hread
    have hadd := hhandle.mp h.handled
    tauto
  · intro h
    have hread : reader.logDebug = false ∨ (short (toBase58 peerId)).isSome = true := by tauto
    refine ⟨?_, ?_, hinfo, hhandle.mpr (by tauto)⟩
    · rw [hconverge]
      exact (DiscoveryPhases.debugPeer_eq_ok_iff _ _ _).mpr hread
    · rw [hwatch]
      exact (DiscoveryPhases.debugPeer_eq_ok_iff _ _ _).mpr hread

/-- A key that names no peer of a node's cluster is passed over. -/
theorem DiscoveryPhases.passes_over {P A : Type} [SerdeJson] [DecidableEq P] [PeerId P]
    [Multiaddr A] (iter : Finset P → List P) (key : String) (reader : DiscoveryPhases P A)
    (hnone : reader.peerOfKey key = none) :
    (∀ value, reader.convergeKv (KeyValue.ofText key value) = .ok reader) ∧
      ∀ value, reader.processEvent iter (Etcd.event ⟨key, value⟩) = .ok reader := by
  constructor
  · intro value
    unfold convergeKv decodePeer
    simp [hnone]
  · intro value
    cases value with
    | none => simp [processEvent, Etcd.event, hnone]
    | some value => simp [processEvent, Etcd.event, decodePeer, hnone]

/-- What a node registers is stored, and another node of its cluster adds exactly
this peer with this address, host and port, exactly when no line that shortens the
peer's text panics. A node of another cluster passes over the key, with whatever
value and also when it is deleted. -/
theorem registration_round_trip {P A : Type} [SerdeJson] [DecidableEq P] [PeerId P]
    [LawfulPeerId P] [Multiaddr A] [MultiaddrIter A] (iter : Finset P → List P) (dials : A → Bool)
    (now : ℕ) (sender reader : DiscoveryPhases P A) (task : SwarmTask P A) (etcd : Etcd)
    (ip : Ipv4Addr) (port : UInt16)
    (hbase58 : ∀ p : P, '/' ∉ (toBase58 p).toList)
    (hparsed : ∀ (text : String) (p : P), fromStr text = some p → '/' ∉ text.toList)
    (hlocal : Multiaddr.parse (localMultiaddr ip.display port) = some sender.localAddr)
    (hiter : ∀ addr : A, Multiaddr.parse (localMultiaddr ip.display port) = some addr →
      MultiaddrIter.iter addr = [.ip4 ip, .tcp port])
    (hround : Multiaddr.parse (Multiaddr.display sender.localAddr) = some sender.localAddr)
    (hjson : SerdeJson.parse (SerdeJson.print sender.metadata.toJson) =
      some sender.metadata.toJson) :
    (sender.register etcd)[peerKey sender.clusterId sender.localPeerId]? =
      some (SerdeJson.print sender.metadata.toJson) ∧
    (reader.clusterId = sender.clusterId → reader.localPeerId ≠ sender.localPeerId →
      (Conveyed iter dials now (peerKey sender.clusterId sender.localPeerId)
          (SerdeJson.print sender.metadata.toJson) sender.localPeerId sender.localAddr
          ⟨"peer-" ++ toBase58 sender.localPeerId, ip, port⟩ reader task ↔
        reader.logDebug = false ∧ task.Quiet dials sender.localPeerId sender.localAddr ∨
          (short (toBase58 sender.localPeerId)).isSome = true)) ∧
    (reader.clusterId ≠ sender.clusterId →
      (∀ value, reader.convergeKv (KeyValue.ofText
        (peerKey sender.clusterId sender.localPeerId) value) = .ok reader) ∧
      ∀ value, reader.processEvent iter (Etcd.event
        ⟨peerKey sender.clusterId sender.localPeerId, value⟩) = .ok reader) := by
  refine ⟨Std.ExtTreeMap.getElem?_insert_self, ?_, ?_⟩
  · intro hcluster hother
    apply conveyed_iff
    · rw [← hcluster, DiscoveryPhases.decodePeer_peerKey, if_neg (Ne.symm hother),
        sender.peerAddr_metadata hjson hround]
      rfl
    · unfold SwarmTask.peerInfo
      rw [hiter sender.localAddr hlocal]
      rfl
  · intro hne
    exact reader.passes_over iter _
      (reader.peerOfKey_of_other_cluster hparsed (hbase58 sender.localPeerId) hne)

theorem Base58Text.no_separator (p : Base58Text) : '/' ∉ (toBase58 p).toList := by
  intro hin
  have hchar := List.all_eq_true.mp p.valid.2 '/' hin
  revert hchar
  decide

theorem Base58Text.parsed_no_separator (text : String) (p : Base58Text)
    (h : fromStr text = some p) : '/' ∉ text.toList := by
  have hparse : (if hv : text ≠ "" ∧ text.toList.all isBase58Char = true then
      some (⟨text, hv⟩ : Base58Text) else none) = some p := h
  split_ifs at hparse with hv
  exact no_separator ⟨text, hv⟩

/-- A registration in a cluster whose name contains another cluster's prefix. -/
theorem registration_round_trip_nested :
    ∃ (_ : SerdeJson) (sender : DiscoveryPhases Base58Text Ip4Text)
      (reader other : DiscoveryPhases Base58Text Ip4Text) (task : SwarmTask Base58Text Ip4Text),
      sender.clusterId = "lab/peers/x" ∧ other.clusterId = "lab" ∧
      Conveyed (fun _ => []) (fun _ => true) 0 (peerKey sender.clusterId sender.localPeerId)
        (SerdeJson.print sender.metadata.toJson) sender.localPeerId sender.localAddr
        ⟨"peer-" ++ toBase58 sender.localPeerId, ⟨10, 0, 0, 2⟩, 5000⟩ reader task ∧
      ∀ value, other.processEvent (fun _ => []) (Etcd.event
        ⟨peerKey sender.clusterId sender.localPeerId, value⟩) = .ok other := by
  let a := peerOf "12D3KooWAAAAAAAAAAAAAAAAAAAAAAAAAAAAAAAAAAAAAAAAAAAA"
  let b := peerOf "12D3KooWBBBBBBBBBBBBBBBBBBBBBBBBBBBBBBBBBBBBBBBBBBBB"
  let addr : Ip4Text := ⟨"/ip4/10.0.0.2/tcp/5000"⟩
  let json : SerdeJson := SerdeJson.knowing [otherMetadata.toJson]
  let sender := DiscoveryPhases.new "lab/peers/x" b addr false
  let reader : DiscoveryPhases Base58Text Ip4Text := DiscoveryPhases.new "lab/peers/x" a addr true
  let other : DiscoveryPhases Base58Text Ip4Text := DiscoveryPhases.new "lab" a addr true
  let task : SwarmTask Base58Text Ip4Text :=
    ⟨[], NetworkState.new a NetworkConfig.default true true, true, true, true⟩
  have hround : ∀ reader : DiscoveryPhases Base58Text Ip4Text, _ := fun reader =>
    registration_round_trip (fun _ => []) (fun _ => true) 0 sender reader task ∅ ⟨10, 0, 0, 2⟩ 5000
      Base58Text.no_separator Base58Text.parsed_no_separator (by decide +kernel)
      (fun addr' haddr => by
        obtain rfl : addr = addr' := by
          have hparse : Multiaddr.parse (localMultiaddr (Ipv4Addr.display ⟨10, 0, 0, 2⟩) 5000) =
              some addr := by decide +kernel
          exact Option.some.inj (hparse.symm.trans haddr)
        decide +kernel)
      (by decide +kernel) (SerdeJson.parse_knowing otherMetadata.toJson [])
  refine ⟨json, sender, reader, other, task, rfl, rfl, ?_, ?_⟩
  · exact ((hround reader).2.1 rfl (by decide +kernel)).mpr (Or.inr (by decide +kernel))
  · exact ((hround other).2.2 (by decide +kernel)).2

/-- With debug lines on, the registration of a short identifier makes its reader panic. -/
theorem not_registration_round_trip : ¬∀ [SerdeJson] (iter : Finset Base58Text → List Base58Text)
    (dials : Ip4Text → Bool) (now : ℕ) (sender reader : DiscoveryPhases Base58Text Ip4Text)
    (task : SwarmTask Base58Text Ip4Text) (ip : Ipv4Addr) (port : UInt16),
    Multiaddr.parse (localMultiaddr ip.display port) = some sender.localAddr →
    (∀ addr : Ip4Text, Multiaddr.parse (localMultiaddr ip.display port) = some addr →
      MultiaddrIter.iter addr = [.ip4 ip, .tcp port]) →
    Multiaddr.parse (Multiaddr.display sender.localAddr) = some sender.localAddr →
    SerdeJson.parse (SerdeJson.print sender.metadata.toJson) = some sender.metadata.toJson →
    reader.clusterId = sender.clusterId → reader.localPeerId ≠ sender.localPeerId →
    Conveyed iter dials now (peerKey sender.clusterId sender.localPeerId)
      (SerdeJson.print sender.metadata.toJson) sender.localPeerId sender.localAddr
      ⟨"peer-" ++ toBase58 sender.localPeerId, ip, port⟩ reader task := by
  intro hclaim
  let a := peerOf "12D3KooWAAAAAAAAAAAAAAAAAAAAAAAAAAAAAAAAAAAAAAAAAAAA"
  let b := peerOf "12D3KooWB"
  let addr : Ip4Text := ⟨"/ip4/10.0.0.2/tcp/5000"⟩
  let _ : SerdeJson := SerdeJson.knowing [otherMetadata.toJson]
  let sender := DiscoveryPhases.new "lab" b addr true
  let reader : DiscoveryPhases Base58Text Ip4Text := DiscoveryPhases.new "lab" a addr true
  let task : SwarmTask Base58Text Ip4Text :=
    ⟨[], NetworkState.new a NetworkConfig.default true false, true, true, false⟩
  have hparse : Multiaddr.parse (localMultiaddr (Ipv4Addr.display ⟨10, 0, 0, 2⟩) 5000) =
      some addr := by decide +kernel
  have hconveyed := hclaim (fun _ => []) (fun _ => true) 0 sender reader task ⟨10, 0, 0, 2⟩ 5000
    hparse (fun addr' haddr => by
      obtain rfl : addr = addr' := Option.some.inj (hparse.symm.trans haddr)
      decide +kernel)
    (by decide +kernel) (SerdeJson.parse_knowing otherMetadata.toJson []) rfl (by decide +kernel)
  have hdecode : reader.decodePeer (peerKey sender.clusterId sender.localPeerId)
      (SerdeJson.print sender.metadata.toJson) = some (b, addr) := by decide +kernel
  have hquiet := (conveyed_iff hdecode hconveyed.derived).mp hconveyed
  have hloud : ¬(reader.logDebug = false ∨ (short (toBase58 b)).isSome = true) := by
    decide +kernel
  exact hloud (hquiet.imp And.left id)

end Neolaas
