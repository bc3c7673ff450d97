import Neolaas.DiscoveryController

/-!
# Batches with records that do not decode

What a batch of records should do is what its well-formed records do, in order. The
loops over a snapshot and over the events of a response go on past most records that
do not decode, but leave at one that is no UTF-8.
-/
namespace Neolaas
open PeerId

namespace Outcome

/-- The state that is left, unless the step has panicked. -/
def left {σ : Type} : Outcome σ → Option σ
  | ok self => some self
  | error self => some self
  | panicked => none

/-- How a loop ends that applies its elements up to the first one that stops it. -/
def upTo {σ β : Type} (stop : β → Option Stop) (apply : σ → β → σ) (bs : List β) (s : σ) :
    Outcome σ :=
  let applied := (bs.takeWhile (fun b => (stop b).isNone)).foldl apply s
  match bs.findSome? stop with
  | none => .ok applied
  | some .error => .error applied
  | some .panicked => .panicked

theorem forEach_eq_upTo {σ β : Type} {step : β → σ → Outcome σ} {stop : β → Option Stop}
    {apply : σ → β → σ} {I : σ → Prop} (hkeeps : ∀ b s, I s → I (apply s b))
    (hstep : ∀ b s, I s → step b s = upTo stop apply [b] s) (bs : List β) (s : σ) (hs : I s) :
    forEach step bs s = upTo stop apply bs s := by
  induction bs generalizing s with
  | nil => rfl
  | cons b bs ih =>
    have hb := hstep b s hs
    unfold forEach
    cases hstop : stop b with
    | none =>
      have hone : step b s = .ok (apply s b) := by
        rw [hb]
        simp [upTo, hstop]
      rw [hone]
      simp only [ih (apply s b) (hkeeps b s hs)]
      simp [upTo, hstop]
    | some stopped =>
      have hone : step b s = upTo stop apply (b :: bs) s := by
        rw [hb]
        simp [upTo, hstop]
      rw [hone]
      cases stopped <;> simp [upTo, hstop]

end Outcome

namespace DiscoveryPhases

/-- The command that a pair of the snapshot stands for, if it is well-formed. -/
def kvCommand {P A : Type} [SerdeJson] [DecidableEq P] [PeerId P] [Multiaddr A]
    (self : DiscoveryPhases P A) (kv : KeyValue) : Option (DiscoveryCommand P A) := do
  let key ← kv.keyStr
  let value ← kv.valueStr
  let found ← self.decodePeer key value
  pure (.addPeer found.1 found.2)

/-- The command that an event stands for, if it is well-formed. -/
def eventCommand {P A : Type} [SerdeJson] [DecidableEq P] [PeerId P] [Multiaddr A]
    (self : DiscoveryPhases P A) (event : WatchEvent) : Option (DiscoveryCommand P A) :=
  match event.eventType, event.kv with
  | _, none => none
  | .put, some kv => self.kvCommand kv
  | .delete, some kv => (kv.keyStr.bind self.peerOfKey).map DiscoveryCommand.removePeer

/-- A command is sent and changes the known peers. -/
def obey {P A : Type} [DecidableEq P] (self : DiscoveryPhases P A)
    (command : DiscoveryCommand P A) : DiscoveryPhases P A :=
  { self with
    swarmTx := self.swarmTx ++ [command]
    knownPeers := match command with
      | .addPeer peerId _ => insert peerId self.knownPeers
      | .removePeer peerId => self.knownPeers.erase peerId
      | .shutdown => self.knownPeers }

/-- What the well-formed pairs of a snapshot do. -/
def obeySnapshot {P A : Type} [SerdeJson] [DecidableEq P] [PeerId P] [Multiaddr A]
    (iter : Finset P → List P) (kvs : List KeyValue) (self : DiscoveryPhases P A) :
    DiscoveryPhases P A :=
  ((kvs.filterMap self.kvCommand).foldl obey self).notifySharding iter

/-- What the well-formed events of a response do. -/
def obeyEvents {P A : Type} [SerdeJson] [DecidableEq P] [PeerId P] [Multiaddr A]
    (iter : Finset P → List P) (events : List WatchEvent) (self : DiscoveryPhases P A) :
    DiscoveryPhases P A :=
  (events.filterMap self.eventCommand).foldl
    (fun phases command => (phases.obey command).notifySharding iter) self

/-- The same known peers, the same commands, and the same topology sent last. -/
def SameEffects {P A : Type} (self other : DiscoveryPhases P A) : Prop :=
  self.knownPeers = other.knownPeers ∧ self.swarmTx = other.swarmTx ∧
    self.shardingTx.getLast? = other.shardingTx.getLast?

/-- An element with its command, if it has one. -/
def applying {P A β : Type} (f : DiscoveryPhases P A → DiscoveryCommand P A → DiscoveryPhases P A)
    (command : β → Option (DiscoveryCommand P A)) (self : DiscoveryPhases P A) (b : β) :
    DiscoveryPhases P A :=
  match command b with
  | some command => f self command
  | none => self

theorem foldl_applying {P A β : Type}
    (f : DiscoveryPhases P A → DiscoveryCommand P A → DiscoveryPhases P A)
    (command : β → Option (DiscoveryCommand P A)) (self : DiscoveryPhases P A) (bs : List β) :
    bs.foldl (applying f command) self = (bs.filterMap command).foldl f self := by
  induction bs generalizing self with
  | nil => rfl
  | cons b bs ih =>
    rw [List.foldl_cons, ih]
    unfold applying
    cases hcommand : command b with
    | none => simp [hcommand]
    | some command => simp [hcommand]

theorem Keeps.kvCommand {P A : Type} [SerdeJson] [DecidableEq P] [PeerId P] [Multiaddr A]
    {self next : DiscoveryPhases P A} (h : self.Keeps next) (kv : KeyValue) :
    next.kvCommand kv = self.kvCommand kv := by
  unfold DiscoveryPhases.kvCommand
  simp only [h.node.decodePeer]

theorem Keeps.eventCommand {P A : Type} [SerdeJson] [DecidableEq P] [PeerId P] [Multiaddr A]
    {self next : DiscoveryPhases P A} (h : self.Keeps next) (event : WatchEvent) :
    next.eventCommand event = self.eventCommand event := by
  have hpeer : next.peerOfKey = self.peerOfKey := funext h.node.peerOfKey
  unfold DiscoveryPhases.eventCommand
  simp only [h.kvCommand, hpeer]

/-- A command that discovery derives keeps what the phases keep. -/
theorem keeps_obey {P A : Type} [DecidableEq P] (self : DiscoveryPhases P A)
    {command : DiscoveryCommand P A} (h : command ≠ .shutdown) :
    self.Keeps (self.obey command) where
  node := ⟨rfl, rfl⟩
  logDebug := rfl
  shutdown := by
    have hne : DiscoveryCommand.shutdown ≠ command := h.symm
    simp [obey, hne]

theorem kvCommand_ne_shutdown {P A : Type} [SerdeJson] [DecidableEq P] [PeerId P] [Multiaddr A]
    {self : DiscoveryPhases P A} {kv : KeyValue} {command : DiscoveryCommand P A}
    (h : self.kvCommand kv = some command) : command ≠ .shutdown := by
  unfold kvCommand at h
  cases hkey : kv.keyStr with
  | none => simp [hkey] at h
  | some key =>
    cases hvalue : kv.valueStr with
    | none => simp [hkey, hvalue] at h
    | some value =>
      cases hfound : self.decodePeer key value with
      | none => simp [hkey, hvalue, hfound] at h
      | some found =>
        simp only [hkey, hvalue, hfound, Option.bind_eq_bind, Option.bind_some, Option.pure_def,
          Option.some.injEq] at h
        rw [← h]
        simp

theorem eventCommand_ne_shutdown {P A : Type} [SerdeJson] [DecidableEq P] [PeerId P]
    [Multiaddr A] {self : DiscoveryPhases P A} {event : WatchEvent}
    {command : DiscoveryCommand P A} (h : self.eventCommand event = some command) :
    command ≠ .shutdown := by
  obtain ⟨eventType, kv⟩ := event
  cases kv with
  | none => cases eventType <;> cases h
  | some kv =>
    cases eventType with
    | put =>
      have hkv : self.kvCommand kv = some command := h
      exact kvCommand_ne_shutdown hkv
    | delete =>
      obtain ⟨peerId, -, rfl⟩ := Option.map_eq_some_iff.mp h
      simp

/-- A pair is obeyed, or stops the loop. -/
theorem convergeKv_eq {P A : Type} [SerdeJson] [DecidableEq P] [PeerId P] [Multiaddr A]
    (kv : KeyValue) (self : DiscoveryPhases P A) :
    convergeKv kv self = Outcome.upTo self.kvStop (applying obey self.kvCommand) [kv] self := by
  unfold convergeKv Outcome.upTo kvStop applying kvCommand
  cases hkey : kv.keyStr with
  | none => simp [hkey]
  | some key =>
    cases hvalue : kv.valueStr with
    | none => simp [hkey, hvalue]
    | some value =>
      cases hfound : self.decodePeer key value with
      | none => simp [hkey, hvalue, hfound]
      | some found =>
        by_cases hline : self.logDebug ∧ short (toBase58 found.1) = none
        · simp [hkey, hvalue, hfound, debugPeer, lineStop, hline]
        · simp [hkey, hvalue, hfound, debugPeer, lineStop, hline]
          rfl

/-- An event is obeyed, or stops the loop. -/
theorem processEvent_eq {P A : Type} [SerdeJson] [DecidableEq P] [PeerId P] [Multiaddr A]
    (iter : Finset P → List P) (event : WatchEvent) (self : DiscoveryPhases P A) :
    processEvent iter event self = Outcome.upTo self.eventStop
      (applying (fun phases command => (phases.obey command).notifySharding iter)
        self.eventCommand) [event] self := by
  obtain ⟨eventType, kv⟩ := event
  unfold processEvent Outcome.upTo eventStop applying eventCommand
  cases kv with
  | none => cases eventType <;> simp
  | some kv =>
    cases eventType with
    | put =>
      unfold kvStop kvCommand
      cases hkey : kv.keyStr with
      | none => simp [hkey]
      | some key =>
        cases hvalue : kv.valueStr with
        | none => simp [hkey, hvalue]
        | some value =>
          cases hfound : self.decodePeer key value with
          | none => simp [hkey, hvalue, hfound]
          | some found =>
            by_cases hline : self.logDebug ∧ short (toBase58 found.1) = none
            · simp [hkey, hvalue, hfound, debugPeer, lineStop, hline]
            · simp [hkey, hvalue, hfound, debugPeer, lineStop, hline]
              rfl
    | delete =>
      cases hkey : kv.keyStr with
      | none => simp [hkey]
      | some key =>
        cases hpeer : self.peerOfKey key with
        | none => simp [hkey, hpeer]
        | some peerId =>
          by_cases hline : self.logDebug ∧ short (toBase58 peerId) = none
          · simp [hkey, hpeer, debugPeer, lineStop, hline]
          · simp [hkey, hpeer, debugPeer, lineStop, hline]
            rfl

/-- A loop over pairs obeys the commands of those before the one that stops it. -/
theorem forEach_convergeKv_eq {P A : Type} [SerdeJson] [DecidableEq P] [PeerId P] [Multiaddr A]
    (kvs : List KeyValue) (self : DiscoveryPhases P A) : Outcome.forEach convergeKv kvs self =
      Outcome.upTo self.kvStop (applying obey self.kvCommand) kvs self := by
  refine Outcome.forEach_eq_upTo (I := self.Keeps) ?_ ?_ kvs self (Keeps.refl self)
  · intro kv phases hphases
    unfold applying
    cases hcommand : self.kvCommand kv with
    | none => exact hphases
    | some command => exact hphases.trans (keeps_obey phases (kvCommand_ne_shutdown hcommand))
  · intro kv phases hphases
    have hstop : phases.kvStop = self.kvStop := funext hphases.kvStop
    have hcommand : phases.kvCommand = self.kvCommand := funext hphases.kvCommand
    rw [convergeKv_eq, hstop, hcommand]

theorem forEach_processEvent_eq {P A : Type} [SerdeJson] [DecidableEq P] [PeerId P]
    [Multiaddr A] (iter : Finset P → List P) (events : List WatchEvent)
    (self : DiscoveryPhases P A) : Outcome.forEach (processEvent iter) events self =
      Outcome.upTo self.eventStop (applying (fun phases command =>
        (phases.obey command).notifySharding iter) self.eventCommand) events self := by
  refine Outcome.forEach_eq_upTo (I := self.Keeps) ?_ ?_ events self (Keeps.refl self)
  · intro event phases hphases
    unfold applying
    cases hcommand : self.eventCommand event with
    | none => exact hphases
    | some command =>
      have hobeyed := keeps_obey phases (eventCommand_ne_shutdown hcommand)
      exact hphases.trans (hobeyed.trans (keeps_notifySharding iter _))
  · intro event phases hphases
    have hstop : phases.eventStop = self.eventStop := funext hphases.eventStop
    have hcommand : phases.eventCommand = self.eventCommand := funext hphases.eventCommand
    rw [processEvent_eq, hstop, hcommand]

/-- Obeyed commands are sent in order, after what was sent before. -/
theorem swarmTx_obeyEvents {P A : Type} [DecidableEq P] (iter : Finset P → List P)
    (commands : List (DiscoveryCommand P A)) (self : DiscoveryPhases P A) :
    (commands.foldl (fun phases command => (phases.obey command).notifySharding iter)
      self).swarmTx = self.swarmTx ++ commands := by
  induction commands generalizing self with
  | nil => simp
  | cons command commands ih =>
    rw [List.foldl_cons, ih]
    simp [obey, notifySharding]

theorem shardingTx_obey {P A : Type} [DecidableEq P] (commands : List (DiscoveryCommand P A))
    (self : DiscoveryPhases P A) : (commands.foldl obey self).shardingTx = self.shardingTx := by
  induction commands generalizing self with
  | nil => rfl
  | cons command commands ih =>
    rw [List.foldl_cons, ih]
    rfl

/-- An event whose line panics names a peer. -/
theorem eventCommand_of_panicked {P A : Type} [SerdeJson] [DecidableEq P] [PeerId P]
    [Multiaddr A] {self : DiscoveryPhases P A} {event : WatchEvent}
    (h : self.eventStop event = some .panicked) : self.eventCommand event ≠ none := by
  obtain ⟨eventType, kv⟩ := event
  cases kv with
  | none => cases eventType <;> cases h
  | some kv =>
    cases eventType with
    | put =>
      simp only [eventStop, kvStop] at h
      simp only [eventCommand, kvCommand]
      cases hkey : kv.keyStr with
      | none => simp [hkey] at h
      | some key =>
        cases hvalue : kv.valueStr with
        | none => simp [hkey, hvalue] at h
        | some value =>
          cases hfound : self.decodePeer key value with
          | none => simp [hkey, hvalue, hfound] at h
          | some found => simp [hfound]
    | delete =>
      simp only [eventStop] at h
      simp only [eventCommand]
      cases hkey : kv.keyStr with
      | none => simp [hkey] at h
      | some key =>
        cases hpeer : self.peerOfKey key with
        | none => simp [hkey, hpeer] at h
        | some peerId => simp [hpeer]

/-- Convergence on a snapshot has the effects of its well-formed pairs. -/
def SnapshotObeyed {P A : Type} [SerdeJson] [DecidableEq P] [PeerId P] [Multiaddr A]
    (iter : Finset P → List P) (kvs : List KeyValue) (self : DiscoveryPhases P A) : Prop :=
  ∃ phases, (converge iter kvs self).left = some phases ∧
    phases.SameEffects (obeySnapshot iter kvs self)

/-- Processing a response has the effects of its well-formed events. -/
def EventsObeyed {P A : Type} [SerdeJson] [DecidableEq P] [PeerId P] [Multiaddr A]
    (iter : Finset P → List P) (resp : WatchResponse) (self : DiscoveryPhases P A) : Prop :=
  ∃ phases, (processWatchEvent iter (some resp) self).left = some phases ∧
    phases.SameEffects (obeyEvents iter resp.events self)

/-- Fresh phases obey a snapshot exactly when none of its pairs stops the loop. -/
theorem snapshotObeyed_iff {P A : Type} [SerdeJson] [DecidableEq P] [PeerId P] [Multiaddr A]
    (iter : Finset P → List P) (kvs : List KeyValue) (self : DiscoveryPhases P A)
    (hfresh : self.shardingTx = []) :
    SnapshotObeyed iter kvs self ↔ kvs.findSome? self.kvStop = none := by
  unfold SnapshotObeyed converge
  rw [forEach_convergeKv_eq]
  unfold Outcome.upTo
  cases hstop : kvs.findSome? self.kvStop with
  | none =>
    have hall : kvs.takeWhile (fun kv => (self.kvStop kv).isNone) = kvs := by
      rw [List.takeWhile_eq_self_iff]
      intro kv hkv
      rw [List.findSome?_eq_none_iff.mp hstop kv hkv]
      rfl
    simp only [hall, foldl_applying, Outcome.left, iff_true]
    exact ⟨_, rfl, rfl, rfl, rfl⟩
  | some stop =>
    refine iff_of_false ?_ (by simp)
    cases stop with
    | panicked =>
      rintro ⟨phases, hleft, -⟩
      cases hleft
    | error =>
      rintro ⟨phases, hleft, -, -, hsent⟩
      -- The topology is sent at the end only.
      obtain rfl := Option.some.inj hleft
      rw [foldl_applying, shardingTx_obey, hfresh] at hsent
      simp [obeySnapshot, notifySharding] at hsent

/-- Phases obey a response exactly when no well-formed event comes after the one that
stops the loop, and a cancelled response has none at all. -/
theorem eventsObeyed_iff {P A : Type} [SerdeJson] [DecidableEq P] [PeerId P] [Multiaddr A]
    (iter : Finset P → List P) (resp : WatchResponse) (self : DiscoveryPhases P A) :
    EventsObeyed iter resp self ↔
      ∀ event ∈ (if resp.canceled then resp.events
        else resp.events.dropWhile (fun event => (self.eventStop event).isNone)),
        self.eventCommand event = none := by
  have hsplit := List.takeWhile_append_dropWhile
    (p := fun event => (self.eventStop event).isNone) (l := resp.events)
  unfold EventsObeyed processWatchEvent
  by_cases hcanceled : resp.canceled = true
  · simp only [hcanceled, if_true, Outcome.left, Option.some.injEq, exists_eq_left']
    rw [← List.filterMap_eq_nil_iff]
    constructor
    · intro h
      have hsent := h.2.1
      rw [obeyEvents, swarmTx_obeyEvents] at hsent
      simpa using hsent
    · intro h
      rw [obeyEvents, h]
      exact ⟨rfl, rfl, rfl⟩
  · simp only [if_neg hcanceled]
    rw [forEach_processEvent_eq, ← List.filterMap_eq_nil_iff]
    unfold Outcome.upTo
    generalize hbefore : resp.events.takeWhile (fun event => (self.eventStop event).isNone) =
      before at hsplit ⊢
    generalize hrest : resp.events.dropWhile (fun event => (self.eventStop event).isNone) =
      rest at hsplit ⊢
    have hcommands : resp.events.filterMap self.eventCommand =
        before.filterMap self.eventCommand ++ rest.filterMap self.eventCommand := by
      rw [← hsplit, List.filterMap_append]
    -- What is applied agrees with what should be unless commands are left.
    have happlied : SameEffects (before.foldl (applying (fun phases command =>
          (phases.obey command).notifySharding iter) self.eventCommand) self)
        (obeyEvents iter resp.events self) ↔ rest.filterMap self.eventCommand = [] := by
      rw [foldl_applying, obeyEvents, hcommands]
      constructor
      · intro h
        have hsent := h.2.1
        rw [swarmTx_obeyEvents, swarmTx_obeyEvents, List.append_cancel_left_eq] at hsent
        simpa using hsent
      · intro h
        rw [h, List.append_nil]
        exact ⟨rfl, rfl, rfl⟩
    cases hstop : resp.events.findSome? self.eventStop with
    | none => simpa [Outcome.left] using happlied
    | some stop =>
      cases stop with
      | error => simpa [Outcome.left] using happlied
      | panicked =>
        refine iff_of_false ?_ ?_
        · rintro ⟨phases, hleft, -⟩
          cases hleft
        · intro hnone
          obtain ⟨before', event, after, heq, hpanics, hgo⟩ := List.findSome?_eq_some_iff.mp hstop
          have hmem : event ∈ rest := by
            rw [← hrest, heq, List.dropWhile_append_of_pos (fun e he => by simp [hgo e he]),
              List.dropWhile_cons_of_neg (by simp [hpanics])]
            exact List.mem_cons_self
          exact eventCommand_of_panicked hpanics
            (List.filterMap_eq_nil_iff.mp hnone event hmem)

/-- Discovery has the effects of the well-formed records: on a snapshot exactly when each
pair is UTF-8 and no line about a peer panics, on a response exactly when no event of
a peer comes after one that is no UTF-8 or at whose line the loop panics. -/
theorem undecodable_dropped_iff {P A : Type} [SerdeJson] [DecidableEq P] [PeerId P]
    [Multiaddr A] (iter : Finset P → List P) (clusterId : String) (localPeerId : P)
    (localAddr : A) (logDebug : Bool) (kvs : List KeyValue) (resp : WatchResponse)
    (self : DiscoveryPhases P A) :
    (SnapshotObeyed iter kvs (new clusterId localPeerId localAddr logDebug) ↔
      ∀ kv ∈ kvs, kvStop (new clusterId localPeerId localAddr logDebug : DiscoveryPhases P A) kv =
        none) ∧
    (EventsObeyed iter resp self ↔
      ∀ event ∈ (if resp.canceled then resp.events
        else resp.events.dropWhile (fun event => (self.eventStop event).isNone)),
        self.eventCommand event = none) := by
  refine ⟨?_, eventsObeyed_iff iter resp self⟩
  rw [snapshotObeyed_iff iter kvs _ rfl, List.findSome?_eq_none_iff]

/-- A peer registers under a key that is no UTF-8, and the node never sends the topology
of the other one. The byte `0` puts the key before those of all peers in etcd's order. -/
theorem not_undecodable_dropped : ¬∀ [SerdeJson] (iter : Finset Base58Text → List Base58Text)
    (clusterId : String) (localPeerId : Base58Text) (localAddr : Ip4Text) (logDebug : Bool)
    (kvs : List KeyValue),
    SnapshotObeyed iter kvs (new clusterId localPeerId localAddr logDebug) := by
  intro hclaim
  let _ : SerdeJson := SerdeJson.knowing [otherMetadata.toJson]
  let a := peerOf "12D3KooWAAAAAAAAAAAAAAAAAAAAAAAAAAAAAAAAAAAAAAAAAAAA"
  let b := peerOf "12D3KooWBBBBBBBBBBBBBBBBBBBBBBBBBBBBBBBBBBBBBBBBBBBB"
  let self : DiscoveryPhases Base58Text Ip4Text := new "lab" a ⟨"/ip4/10.0.0.1/tcp/5000"⟩ false
  let kvs : List KeyValue :=
    [⟨((peersPrefix "lab").toUTF8.push 48).push 255, ByteArray.empty⟩,
      KeyValue.ofText (peerKey "lab" b) otherMetadata.toJson.text]
  obtain ⟨phases, hleft, -, -, hsent⟩ := hclaim (fun _ => [a, b]) "lab" a
    ⟨"/ip4/10.0.0.1/tcp/5000"⟩ false kvs
  have hnone : ((self.converge (fun _ => [a, b]) kvs).left.map
      (fun phases => phases.shardingTx.getLast?)) = some none := by
    decide +kernel
  rw [hleft] at hnone
  have hnot : phases.shardingTx.getLast? = none := Option.some.inj hnone
  rw [hnot] at hsent
  simp [obeySnapshot, notifySharding] at hsent

end DiscoveryPhases
end Neolaas
