import Neolaas.PeerMonitoring
import Neolaas.TopologyLog

/-!
# Discovery and the network state agree on the peers

Discovery keeps a set of known peers for sharding and sends a command to the swarm
for each change of it. The event loop handles the commands in their order, while
connections, pings and the cleanup change the network state as well. When the loop
has caught up, both have the same peers, but for those that a cleanup has forgotten.
-/
namespace Neolaas
open AtomicProgram LabelledRuns

/-- The peers that a command leaves announced. -/
def DiscoveryCommand.announcing {P A : Type} [DecidableEq P] (announced : Finset P) :
    DiscoveryCommand P A → Finset P
  | addPeer peerId _ => insert peerId announced
  | removePeer peerId => announced.erase peerId
  | shutdown => announced

namespace DiscoveryPhases

/-- The commands announce the known peers other than the node itself. -/
structure Commanded {P A : Type} [DecidableEq P] (phases : DiscoveryPhases P A) : Prop where
  announced : phases.swarmTx.foldl DiscoveryCommand.announcing ∅ =
    phases.knownPeers.erase phases.localPeerId
  others : ∀ p addr, .addPeer p addr ∈ phases.swarmTx → p ≠ phases.localPeerId

theorem Commanded.addPeer {P A : Type} [DecidableEq P] {self : DiscoveryPhases P A}
    (h : self.Commanded) {peerId : P} (hne : peerId ≠ self.localPeerId) (addr : A) :
    (self.addPeer peerId addr).Commanded := by
  constructor
  · show (self.swarmTx ++ [DiscoveryCommand.addPeer peerId addr]).foldl
      DiscoveryCommand.announcing ∅ = (insert peerId self.knownPeers).erase self.localPeerId
    rw [List.foldl_append, h.announced, Finset.erase_insert_of_ne hne]
    rfl
  · intro p a hmem
    obtain hmem | hmem := List.mem_append.mp hmem
    · exact h.others p a hmem
    · cases List.mem_singleton.mp hmem
      exact hne

theorem Commanded.removePeer {P A : Type} [DecidableEq P] {self : DiscoveryPhases P A}
    (h : self.Commanded) (peerId : P) : (self.removePeer peerId).Commanded := by
  constructor
  · show (self.swarmTx ++ [DiscoveryCommand.removePeer peerId]).foldl
      DiscoveryCommand.announcing ∅ = (self.knownPeers.erase peerId).erase self.localPeerId
    rw [List.foldl_append, h.announced, Finset.erase_right_comm]
    rfl
  · intro p a hmem
    obtain hmem | hmem := List.mem_append.mp hmem
    · exact h.others p a hmem
    · cases List.mem_singleton.mp hmem

/-- The next step of the phases sends commands for what it changes. -/
structure Commands {P A : Type} [DecidableEq P] (phases next : DiscoveryPhases P A) :
    Prop where
  commanded : phases.Commanded → next.Commanded
  sent : phases.swarmTx <+: next.swarmTx
  same : next.localPeerId = phases.localPeerId

theorem Commands.refl {P A : Type} [DecidableEq P] (self : DiscoveryPhases P A) :
    Commands self self := ⟨id, List.prefix_refl _, rfl⟩

/-- Lists for sharding are no commands. -/
theorem Commands.congr {P A : Type} [DecidableEq P] {self next next' : DiscoveryPhases P A}
    (h : Commands self next) (hlocal : next'.localPeerId = next.localPeerId)
    (hknown : next'.knownPeers = next.knownPeers) (hsent : next'.swarmTx = next.swarmTx) :
    Commands self next' where
  commanded hs := by
    obtain ⟨hannounced, hothers⟩ := h.commanded hs
    constructor
    · rw [hsent, hknown, hlocal]
      exact hannounced
    · rw [hsent, hlocal]
      exact hothers
  sent := by
    rw [hsent]
    exact h.sent
  same := hlocal.trans h.same

end DiscoveryPhases

namespace Node
open DiscoveryPhases

theorem Discovers.commands {P A : Type} [SerdeJson] [DecidableEq P] [PeerId P] [Multiaddr A]
    {s : Node P A} {l : Label P} {phases : DiscoveryPhases P A} {stage : DiscoveryStage}
    {signal : Bool} (h : Discovers s l phases stage signal) : Commands s.phases phases := by
  cases h with
  | @convergeKv kv kvs phases hstage hkv =>
    obtain rfl | ⟨peerId, addr, hne, rfl⟩ := convergeKv_cases hkv
    · exact .refl _
    · exact ⟨fun hs => hs.addPeer hne addr, List.prefix_append .., rfl⟩
  | @convergeError kv kvs phases hstage hkv =>
    rw [DiscoveryPhases.convergeKv_error hkv]
    exact .refl _
  | convergeDone peers hstage hpeers => exact (Commands.refl s.phases).congr rfl rfl rfl
  | @processEvent peers event events phases hstage hevent hpeers =>
    obtain rfl | ⟨peerId, addr, hne, rfl⟩ | ⟨peerId, rfl⟩ := processEvent_cases hevent
    · exact .refl _
    · have hadds : Commands s.phases (s.phases.addPeer peerId addr) :=
        ⟨fun hs => hs.addPeer hne addr, List.prefix_append .., rfl⟩
      exact hadds.congr rfl rfl rfl
    · have hremoves : Commands s.phases (s.phases.removePeer peerId) :=
        ⟨fun hs => hs.removePeer peerId, List.prefix_append .., rfl⟩
      exact hremoves.congr rfl rfl rfl
  | @eventError peers event events phases hstage hevent =>
    rw [DiscoveryPhases.processEvent_error hevent]
    exact .refl _
  | _ => exact .refl _

theorem Steps.commands {P A : Type} [SerdeJson] [DecidableEq P] [PeerId P] [Multiaddr A]
    {score : Score P} {s t : Node P A} {l : Label P} (h : Steps score s l t) :
    Commands s.phases t.phases := by
  have hsend : ∀ (message : ManagerMessage) (u : Node P A), u.phases = s.phases →
      Commands s.phases (u.send message).phases := by
    intro message u hu
    rw [Charted.phases_send, hu]
    exact .refl _
  cases h with
  | commit machineId specJson =>
    obtain ⟨etcd, watch, heq⟩ := commit_frame machineId specJson s
    rw [heq]
    exact .refl _
  | forwardEvent hw => exact hsend _ _ rfl
  | discover hd => exact hd.commands
  | bridgeReceive hb hpeers => exact (Commands.refl s.phases).congr rfl rfl rfl
  | listen hn => exact hsend .rebalanceActors { s with
      topologyNotices := s.topologyNotices - 1 } rfl
  | sync hsignal => exact hsend .syncAllMachines s rfl
  | _ => exact .refl _

end Node

namespace Monitoring

/-- The peers that are there stay or go, and only peers that are there are pinged. -/
structure Shrinks {P A : Type} [DecidableEq P] (s t : Monitoring P A) : Prop where
  announced : t.announced = s.announced
  alive : t.loopAlive = true → s.loopAlive = true
  peers : ∀ p, t.task.network.hasPeer p = true → s.task.network.hasPeer p = true
  pinging : ∀ p, t.pinging = some p → s.pinging = some p ∨ s.task.network.hasPeer p = true

/-- Every action but a command of discovery. -/
theorem act_shrinks {P A : Type} [DecidableEq P] [PeerId P] [MultiaddrIter A]
    {s t : Monitoring P A} {action : Action P A} (h : s.act action = some t)
    (hcommand : ∀ dials command, action ≠ .command dials command) : Shrinks s t := by
  cases action with
  | command dials command => exact absurd rfl (hcommand dials command)
  | swarm dials event =>
    simp only [Monitoring.act] at h
    split_ifs at h with halive
    obtain rfl := Option.some.inj h
    have hpeers := SwarmTask.handleSwarmEvent_hasPeer dials s.now s.task event
    unfold afterLoop
    cases hending : s.task.handleSwarmEvent dials s.now event with
    | returned task =>
      rw [hending] at hpeers
      exact ⟨rfl, id, fun p hp => (hpeers p).symm.trans hp, fun p => Or.inl⟩
    | panicked task =>
      rw [hending] at hpeers
      exact ⟨rfl, fun _ => halive, fun p hp => (hpeers p).symm.trans hp, fun p => Or.inl⟩
  | ping peerId =>
    simp only [Monitoring.act] at h
    split_ifs at h with hok
    obtain rfl := Option.some.inj h
    refine ⟨rfl, id, fun p => id, fun p hp => Or.inr ?_⟩
    obtain rfl := Option.some.inj hp
    exact hok.2.2.2.1
  | pong =>
    simp only [Monitoring.act] at h
    split at h
    · rename_i peerId hpinging
      obtain rfl := Option.some.inj h
      refine ⟨rfl, id, fun p hp => ?_, fun p hp => by cases hp⟩
      exact (NetworkState.hasPeer_markSuccess s.now peerId p s.task.network).symm.trans hp
    · cases h
  | pingFails =>
    simp only [Monitoring.act] at h
    split at h
    · rename_i peerId hpinging
      obtain rfl := Option.some.inj h
      obtain ⟨-, hloop, hannounced, -⟩ := hasPeer_pingFailed peerId peerId s
      refine ⟨hannounced, fun ht => hloop.symm.trans ht, fun p hp => ?_, fun p hp => by cases hp⟩
      exact (hasPeer_pingFailed peerId p s).1.symm.trans hp
    · cases h
  | cleanup order =>
    simp only [Monitoring.act] at h
    split_ifs at h
    obtain rfl := Option.some.inj h
    refine ⟨rfl, id, fun p hp => ?_, fun p => Or.inl⟩
    exact (NetworkState.hasPeer_removeStale order p s.task.network).1 hp

end Monitoring

/-- A peer that is added leaves the others. -/
theorem NetworkState.hasPeer_addPeer_of_ne {P : Type} [DecidableEq P] [PeerId P] (now : ℕ)
    {peerId : P} (info : PeerInfo) (self : NetworkState P) {p : P} (hp : p ≠ peerId) :
    (self.addPeer now peerId info).state.hasPeer p = self.hasPeer p := by
  unfold NetworkState.addPeer
  split_ifs
  · rfl
  · by_cases hline : Ending.Fits self.logDebug peerId
    · simp only [Ending.afterLine_of_fits hline, Ending.bind, Ending.state]
      unfold NetworkState.hasPeer
      rw [NetworkState.lookup_set, if_neg hp]
    · simp only [Ending.afterLine_of_not_fits hline, Ending.bind, Ending.state]

/-- Whether it ends or panics, a command brings in no peer but the one it adds. -/
theorem SwarmTask.hasPeer_of_command {P A : Type} [DecidableEq P] [PeerId P] [MultiaddrIter A]
    (dials : A → Bool) (now : ℕ) (self : SwarmTask P A) (command : DiscoveryCommand P A) {p : P}
    (h : (self.handleDiscoveryCommand dials now command).state.network.hasPeer p = true) :
    self.network.hasPeer p = true ∨ ∃ addr, command = .addPeer p addr := by
  cases command with
  | shutdown => exact Or.inl h
  | removePeer peerId =>
    left
    unfold handleDiscoveryCommand at h
    by_cases hline : Ending.Fits self.logDebug peerId
    · simp only [Ending.afterLine_of_fits hline, Ending.bind, Ending.map_state] at h
      unfold NetworkState.hasPeer at h ⊢
      rw [NetworkState.lookup_removePeer] at h
      split_ifs at h
      · cases h
      · exact h
    · simp only [Ending.afterLine_of_not_fits hline, Ending.bind, Ending.state] at h
      exact h
  | addPeer peerId addr =>
    by_cases hp : p = peerId
    · subst hp
      exact Or.inr ⟨addr, rfl⟩
    · left
      unfold handleDiscoveryCommand at h
      by_cases hline : Ending.Fits self.logDebug peerId
      · simp only [Ending.afterLine_of_fits hline, Ending.bind] at h
        cases hinfo : SwarmTask.peerInfo peerId addr with
        | none =>
          simp only [hinfo, Ending.state] at h
          exact h
        | some info =>
          have hsame := NetworkState.hasPeer_addPeer_of_ne now info self.network hp
          simp only [hinfo] at h
          cases hadd : self.network.addPeer now peerId info with
          | returned network =>
            rw [hadd] at h hsame
            simp only [Ending.map, Ending.afterLine_state] at h
            exact hsame.symm.trans h
          | panicked network =>
            rw [hadd] at h hsame
            simp only [Ending.map, Ending.state] at h
            exact hsame.symm.trans h
      · simp only [Ending.afterLine_of_not_fits hline, Ending.bind, Ending.state] at h
        exact h

/-- A removed peer is gone when the handler returns. -/
theorem SwarmTask.hasPeer_of_removed {P A : Type} [DecidableEq P] [PeerId P] [MultiaddrIter A]
    {dials : A → Bool} {now : ℕ} {self next : SwarmTask P A} {peerId : P}
    (h : self.handleDiscoveryCommand dials now (.removePeer peerId) = .returned next) :
    next.network.hasPeer peerId = false := by
  unfold handleDiscoveryCommand at h
  obtain ⟨self₁, hline, h⟩ := Ending.bind_eq_returned.mp h
  obtain ⟨-, rfl⟩ := Ending.afterLine_eq_returned.mp hline
  obtain ⟨network, hremove, rfl⟩ := Ending.map_eq_returned.mp h
  have hlookup := NetworkState.lookup_removePeer peerId self.network peerId
  simp only [hremove, Ending.state, if_true] at hlookup
  unfold NetworkState.hasPeer
  rw [hlookup]
  rfl

namespace Monitoring

/-- What a command of discovery does to the peers that are there. -/
structure Obeys {P A : Type} [DecidableEq P] (command : DiscoveryCommand P A)
    (s t : Monitoring P A) : Prop where
  announced : t.announced = command.announcing s.announced
  alive : s.loopAlive = true
  peers : ∀ p, t.task.network.hasPeer p = true →
    s.task.network.hasPeer p = true ∨ ∃ addr, command = .addPeer p addr
  removed : t.loopAlive = true → ∀ p, command = .removePeer p →
    t.task.network.hasPeer p = false
  pinging : t.pinging = s.pinging

theorem act_obeys {P A : Type} [DecidableEq P] [PeerId P] [MultiaddrIter A]
    {s t : Monitoring P A} {dials : A → Bool} {command : DiscoveryCommand P A}
    (h : s.act (.command dials command) = some t) : Obeys command s t := by
  simp only [Monitoring.act] at h
  split_ifs at h with hok
  obtain rfl := Option.some.inj h
  have hpeers := fun p => s.task.hasPeer_of_command dials s.now command (p := p)
  cases hending : s.task.handleDiscoveryCommand dials s.now command with
  | panicked task =>
    rw [hending] at hpeers
    cases command with
    | addPeer peerId addr => exact ⟨rfl, hok.1, hpeers, fun halive => (by cases halive), rfl⟩
    | removePeer peerId => exact ⟨rfl, hok.1, hpeers, fun halive => (by cases halive), rfl⟩
    | shutdown => exact ⟨rfl, hok.1, hpeers, fun halive => (by cases halive), rfl⟩
  | returned task =>
    rw [hending] at hpeers
    cases command with
    | addPeer peerId addr => exact ⟨rfl, hok.1, hpeers, fun _ p hp => (by cases hp), rfl⟩
    | removePeer peerId =>
      refine ⟨rfl, hok.1, hpeers, fun _ p hp => ?_, rfl⟩
      cases hp
      exact SwarmTask.hasPeer_of_removed hending
    | shutdown => exact ⟨rfl, hok.1, hpeers, fun _ p hp => (by cases hp), rfl⟩

end Monitoring

/-- The event loop hears a command. An address without a host or a port is only given to
Kademlia. -/
def Monitoring.hear {P A : Type} [DecidableEq P] [PeerId P] [MultiaddrIter A] (now : ℕ)
    (dials : A → Bool) (command : DiscoveryCommand P A) (s : Monitoring P A) :
    Option (Monitoring P A) :=
  if Usable command then s.step (now, .command dials command)
  else if s.now ≤ now ∧ s.loopAlive then
    some ({ s with now := now }.afterLoop (s.task.handleDiscoveryCommand dials now command))
  else none

/-- The peers that a command leaves heard of. -/
def DiscoveryCommand.heard {P A : Type} [DecidableEq P] [PeerId P] [MultiaddrIter A]
    (peers : Finset P) (command : DiscoveryCommand P A) : Finset P :=
  if Monitoring.Usable command then command.announcing peers else peers

/-- What has been heard is known, and the other way round for a peer that is only added
with addresses that have a host and a port. -/
theorem DiscoveryCommand.mem_heard {P A : Type} [DecidableEq P] [PeerId P] [MultiaddrIter A]
    (p : P) (commands : List (DiscoveryCommand P A)) (heard announced : Finset P)
    (hsub : p ∈ heard → p ∈ announced) :
    (p ∈ commands.foldl DiscoveryCommand.heard heard →
      p ∈ commands.foldl DiscoveryCommand.announcing announced) ∧
    ((∀ addr, .addPeer p addr ∈ commands → Monitoring.Usable (.addPeer p addr)) →
      (p ∈ announced → p ∈ heard) →
      p ∈ commands.foldl DiscoveryCommand.announcing announced →
      p ∈ commands.foldl DiscoveryCommand.heard heard) := by
  induction commands generalizing heard announced with
  | nil => exact ⟨hsub, fun _ h => h⟩
  | cons command rest ih =>
    have hnext : p ∈ DiscoveryCommand.heard heard command → p ∈ command.announcing announced := by
      unfold DiscoveryCommand.heard
      cases command with
      | addPeer peerId addr =>
        show _ → p ∈ insert peerId announced
        split_ifs
        · show p ∈ insert peerId heard → _
          simp only [Finset.mem_insert]
          exact Or.imp_right hsub
        · exact fun h => Finset.mem_insert_of_mem (hsub h)
      | removePeer peerId =>
        rw [if_pos (show Monitoring.Usable (DiscoveryCommand.removePeer (A := A) peerId) from
          trivial)]
        show p ∈ heard.erase peerId → p ∈ announced.erase peerId
        simp only [Finset.mem_erase]
        exact And.imp_right hsub
      | shutdown =>
        rw [if_pos (show Monitoring.Usable (DiscoveryCommand.shutdown (P := P) (A := A)) from
          trivial)]
        exact hsub
    obtain ⟨hheard, hback⟩ := ih _ _ hnext
    refine ⟨hheard, fun husable hsame => hback (fun addr hmem => husable addr
      (List.mem_cons_of_mem _ hmem)) ?_⟩
    unfold DiscoveryCommand.heard
    cases command with
    | addPeer peerId addr =>
      show p ∈ insert peerId announced → _
      intro hmem
      obtain rfl | hmem := Finset.mem_insert.mp hmem
      · rw [if_pos (husable addr List.mem_cons_self)]
        exact Finset.mem_insert_self ..
      · split_ifs
        · exact Finset.mem_insert_of_mem (hsame hmem)
        · exact hsame hmem
    | removePeer peerId =>
      rw [if_pos (show Monitoring.Usable (DiscoveryCommand.removePeer (A := A) peerId) from
        trivial)]
      show p ∈ announced.erase peerId → p ∈ heard.erase peerId
      simp only [Finset.mem_erase]
      exact And.imp_right hsame
    | shutdown =>
      rw [if_pos (show Monitoring.Usable (DiscoveryCommand.shutdown (P := P) (A := A)) from
        trivial)]
      exact hsame

/-- An address without a host or a port leaves the network state. -/
theorem SwarmTask.network_of_not_usable {P A : Type} [DecidableEq P] [PeerId P]
    [MultiaddrIter A] (dials : A → Bool) (now : ℕ) (self : SwarmTask P A)
    {command : DiscoveryCommand P A} (h : ¬Monitoring.Usable command) :
    (self.handleDiscoveryCommand dials now command).state.network = self.network := by
  cases command with
  | addPeer peerId addr =>
    have hinfo : SwarmTask.peerInfo peerId addr = none := by
      simpa [Monitoring.Usable] using h
    unfold handleDiscoveryCommand
    by_cases hline : Ending.Fits self.logDebug peerId
    · simp only [Ending.afterLine_of_fits hline, Ending.bind, hinfo, Ending.state]
    · simp only [Ending.afterLine_of_not_fits hline, Ending.bind, Ending.state]
  | removePeer peerId => exact absurd trivial h
  | shutdown => exact absurd trivial h

/-- A node with the tasks that monitor its peers, and how many of discovery's commands
the event loop has handled. -/
structure Viewing (P A : Type) where
  node : Node P A
  handled : ℕ
  monitoring : Monitoring P A

namespace Viewing

inductive Label (P A : Type) where
  | node (l : Node.Label P)
  | command (now : ℕ) (dials : A → Bool)
  | health (now : ℕ) (action : Monitoring.Action P A)

/-- A step of the node, the next command, or an action of the monitoring tasks. -/
def step {P A : Type} [SerdeJson] [DecidableEq P] [PeerId P] [Multiaddr A] [MultiaddrIter A]
    (score : Score P) (s : Viewing P A) : Label P A → Option (Viewing P A)
  | .node l => (s.node.step score l).map (fun node => { s with node := node })
  | .command now dials =>
    match s.node.phases.swarmTx[s.handled]? with
    | some command =>
      (s.monitoring.hear now dials command).map (fun monitoring =>
        { s with handled := s.handled + 1, monitoring := monitoring })
    | none => none
  | .health now action =>
    match action with
    | .command _ _ => none
    | _ => (s.monitoring.step (now, action)).map (fun monitoring =>
        { s with monitoring := monitoring })

/-- The commands that have been handled. -/
def commands {P A : Type} (s : Viewing P A) : List (DiscoveryCommand P A) :=
  s.node.phases.swarmTx.take s.handled

/-- The network state follows the handled commands. -/
structure Viewed {P A : Type} [DecidableEq P] [PeerId P] [MultiaddrIter A]
    (s : Viewing P A) : Prop where
  commanded : s.node.phases.Commanded
  handled : s.handled ≤ s.node.phases.swarmTx.length
  heard : s.monitoring.announced = s.commands.foldl DiscoveryCommand.heard ∅
  accounts : s.monitoring.Accounts
  known : s.monitoring.loopAlive = true →
    ∀ p, s.monitoring.task.network.hasPeer p = true → p ∈ s.monitoring.announced
  added : ∀ p, s.monitoring.task.network.hasPeer p = true → ∃ addr, .addPeer p addr ∈ s.commands
  pinging : ∀ p, s.monitoring.pinging = some p → ∃ addr, .addPeer p addr ∈ s.commands

theorem Viewed.node {P A : Type} [SerdeJson] [DecidableEq P] [PeerId P] [Multiaddr A]
    [MultiaddrIter A] {score : Score P} {s : Viewing P A} {t : Node P A} {l : Node.Label P}
    (hs : s.Viewed) (h : Node.Steps score s.node l t) : Viewed { s with node := t } := by
  have hcommands := h.commands
  have hsame : commands { s with node := t } = s.commands := by
    obtain ⟨rest, hrest⟩ := hcommands.sent
    unfold commands
    show t.phases.swarmTx.take s.handled = _
    rw [← hrest, List.take_append_of_le_length hs.handled]
  constructor
  · exact hcommands.commanded hs.commanded
  · exact hs.handled.trans hcommands.sent.length_le
  · rw [hsame]
    exact hs.heard
  · exact hs.accounts
  · exact hs.known
  · rw [hsame]
    exact hs.added
  · rw [hsame]
    exact hs.pinging

theorem commands_handled {P A : Type} {s : Viewing P A} {command : DiscoveryCommand P A}
    (hnext : s.node.phases.swarmTx[s.handled]? = some command) (t : Monitoring P A) :
    commands { s with handled := s.handled + 1, monitoring := t } = s.commands ++ [command] := by
  show s.node.phases.swarmTx.take (s.handled + 1) = s.node.phases.swarmTx.take s.handled ++ _
  rw [List.take_add_one, hnext]
  rfl

/-- The event loop handles the next command. -/
theorem Viewed.command {P A : Type} [DecidableEq P] [PeerId P] [MultiaddrIter A]
    {s : Viewing P A} {t : Monitoring P A} {now : ℕ} {dials : A → Bool}
    {command : DiscoveryCommand P A} (hs : s.Viewed)
    (hnext : s.node.phases.swarmTx[s.handled]? = some command)
    (husable : Monitoring.Usable command)
    (h : s.monitoring.step (now, .command dials command) = some t) :
    Viewed { s with handled := s.handled + 1, monitoring := t } := by
  have haccounts := hs.accounts.step h
  unfold Monitoring.step at h
  split_ifs at h
  have hobeys := Monitoring.act_obeys h
  have hcommands := commands_handled hnext t
  have hkept : ∀ p, (∃ addr, .addPeer p addr ∈ s.commands) →
      ∃ addr, DiscoveryCommand.addPeer p addr ∈ s.commands ++ [command] := by
    rintro p ⟨addr, hmem⟩
    exact ⟨addr, List.mem_append_left _ hmem⟩
  constructor
  · exact hs.commanded
  · exact (List.getElem?_eq_some_iff.mp hnext).fst
  · rw [hcommands, List.foldl_append, ← hs.heard]
    show t.announced = DiscoveryCommand.heard s.monitoring.announced command
    rw [DiscoveryCommand.heard, if_pos husable]
    exact hobeys.announced
  · exact haccounts
  · intro halive p hp
    show p ∈ t.announced
    rw [hobeys.announced]
    have hold : s.monitoring.task.network.hasPeer p = true → p ∈ s.monitoring.announced :=
      hs.known hobeys.alive p
    cases command with
    | shutdown =>
      obtain hbefore | ⟨addr, hadd⟩ := hobeys.peers p hp
      · exact hold hbefore
      · cases hadd
    | addPeer peerId addr =>
      show p ∈ insert peerId s.monitoring.announced
      obtain hbefore | ⟨addr, hadd⟩ := hobeys.peers p hp
      · exact Finset.mem_insert_of_mem (hold hbefore)
      · cases hadd
        exact Finset.mem_insert_self ..
    | removePeer peerId =>
      show p ∈ s.monitoring.announced.erase peerId
      obtain hbefore | ⟨addr, hadd⟩ := hobeys.peers p hp
      · refine Finset.mem_erase.mpr ⟨?_, hold hbefore⟩
        rintro rfl
        rw [show t.task.network.hasPeer p = false from hobeys.removed halive p rfl] at hp
        cases hp
      · cases hadd
  · intro p hp
    rw [hcommands]
    obtain hbefore | ⟨addr, hadd⟩ := hobeys.peers p hp
    · exact hkept p (hs.added p hbefore)
    · exact ⟨addr, List.mem_append_right _ (List.mem_singleton.mpr hadd.symm)⟩
  · intro p hp
    rw [hcommands]
    apply hkept p
    apply hs.pinging p
    rw [← hp]
    exact hobeys.pinging.symm

/-- A command that cannot be used leaves the peers that are there. -/
theorem Viewed.ignore {P A : Type} [DecidableEq P] [PeerId P] [MultiaddrIter A]
    {s : Viewing P A} {now : ℕ} {dials : A → Bool} {command : DiscoveryCommand P A} (hs : s.Viewed)
    (hnext : s.node.phases.swarmTx[s.handled]? = some command)
    (husable : ¬Monitoring.Usable command) (halive : s.monitoring.loopAlive = true) :
    Viewed { s with
      handled := s.handled + 1
      monitoring := { s.monitoring with now := now }.afterLoop
        (s.monitoring.task.handleDiscoveryCommand dials now command) } := by
  have hnetwork := s.monitoring.task.network_of_not_usable dials now husable
  obtain ⟨t, ht⟩ : ∃ t, t = { s.monitoring with now := now }.afterLoop
    (s.monitoring.task.handleDiscoveryCommand dials now command) := ⟨_, rfl⟩
  have hframe : t.announced = s.monitoring.announced ∧ t.cleaned = s.monitoring.cleaned ∧
      t.pinging = s.monitoring.pinging ∧ t.task.network = s.monitoring.task.network := by
    rw [ht]
    unfold Monitoring.afterLoop
    cases hending : s.monitoring.task.handleDiscoveryCommand dials now command with
    | returned task =>
      rw [hending] at hnetwork
      exact ⟨rfl, rfl, rfl, hnetwork⟩
    | panicked task =>
      rw [hending] at hnetwork
      exact ⟨rfl, rfl, rfl, hnetwork⟩
  obtain ⟨hannounced, hcleaned, hpinging, hsame⟩ := hframe
  rw [← ht]
  have hcommands := commands_handled hnext t
  have hkept : ∀ p, (∃ addr, .addPeer p addr ∈ s.commands) →
      ∃ addr, DiscoveryCommand.addPeer p addr ∈ s.commands ++ [command] := by
    rintro p ⟨addr, hmem⟩
    exact ⟨addr, List.mem_append_left _ hmem⟩
  constructor
  · exact hs.commanded
  · exact (List.getElem?_eq_some_iff.mp hnext).fst
  · rw [hcommands, List.foldl_append, ← hs.heard]
    show t.announced = DiscoveryCommand.heard s.monitoring.announced command
    rw [DiscoveryCommand.heard, if_neg husable]
    exact hannounced
  · refine hs.accounts.frame (fun p => ?_) (fun _ => halive) hannounced hcleaned
    show t.task.network.hasPeer p = _
    rw [hsame]
  · intro _ p hp
    have hbefore : s.monitoring.task.network.hasPeer p = true := by
      rw [← hsame]
      exact hp
    show p ∈ t.announced
    rw [hannounced]
    exact hs.known halive p hbefore
  · intro p hp
    have hbefore : s.monitoring.task.network.hasPeer p = true := by
      rw [← hsame]
      exact hp
    rw [hcommands]
    exact hkept p (hs.added p hbefore)
  · intro p hp
    rw [hcommands]
    apply hkept p
    apply hs.pinging p
    rw [← hpinging]
    exact hp

/-- The other tasks add no peer. -/
theorem Viewed.health {P A : Type} [DecidableEq P] [PeerId P] [MultiaddrIter A]
    {s : Viewing P A} {t : Monitoring P A} {now : ℕ} {action : Monitoring.Action P A}
    (hs : s.Viewed) (hcommand : ∀ dials command, action ≠ .command dials command)
    (h : s.monitoring.step (now, action) = some t) : Viewed { s with monitoring := t } := by
  have haccounts := hs.accounts.step h
  unfold Monitoring.step at h
  split_ifs at h
  have hshrinks := Monitoring.act_shrinks h hcommand
  constructor
  · exact hs.commanded
  · exact hs.handled
  · exact hshrinks.announced.trans hs.heard
  · exact haccounts
  · intro halive p hp
    show p ∈ t.announced
    rw [hshrinks.announced]
    exact hs.known (hshrinks.alive halive) p (hshrinks.peers p hp)
  · intro p hp
    exact hs.added p (hshrinks.peers p hp)
  · intro p hp
    obtain hbefore | hpeer := hshrinks.pinging p hp
    · exact hs.pinging p hbefore
    · exact hs.added p hpeer

theorem Viewed.step {P A : Type} [SerdeJson] [DecidableEq P] [PeerId P] [Multiaddr A]
    [MultiaddrIter A] {score : Score P} {s t : Viewing P A} {l : Label P A} (hs : s.Viewed)
    (h : s.step score l = some t) : t.Viewed := by
  cases l with
  | node l =>
    obtain ⟨node, hnode, rfl⟩ := Option.map_eq_some_iff.mp h
    exact hs.node (Node.step_cases hnode)
  | command now dials =>
    simp only [Viewing.step] at h
    split at h
    · rename_i command hnext
      obtain ⟨monitoring, hhear, rfl⟩ := Option.map_eq_some_iff.mp h
      unfold Monitoring.hear at hhear
      split_ifs at hhear with husable hready
      · exact hs.command hnext husable hhear
      · obtain rfl := Option.some.inj hhear
        exact hs.ignore hnext husable hready.2
    · cases h
  | health now action =>
    simp only [Viewing.step] at h
    split at h
    · cases h
    · rename_i hcommand
      obtain ⟨monitoring, hstep, rfl⟩ := Option.map_eq_some_iff.mp h
      exact hs.health hcommand hstep

theorem localPeerId_step {P A : Type} [SerdeJson] [DecidableEq P] [PeerId P] [Multiaddr A]
    [MultiaddrIter A] {score : Score P} {s t : Viewing P A} {l : Label P A}
    (h : s.step score l = some t) : t.node.phases.localPeerId = s.node.phases.localPeerId := by
  cases l with
  | node l =>
    obtain ⟨node, hnode, rfl⟩ := Option.map_eq_some_iff.mp h
    exact (Node.step_cases hnode).commands.same
  | command now dials =>
    simp only [Viewing.step] at h
    split at h
    · obtain ⟨monitoring, -, rfl⟩ := Option.map_eq_some_iff.mp h
      rfl
    · cases h
  | health now action =>
    simp only [Viewing.step] at h
    split at h
    · cases h
    · obtain ⟨monitoring, -, rfl⟩ := Option.map_eq_some_iff.mp h
      rfl

/-- A node and its monitoring tasks at their start. -/
def start {P A : Type} (node : Node P A) (config : NetworkConfig)
    (stateDebug stateTrace logInfo logDebug logTrace logWarn pingTrace : Bool) (now : ℕ) :
    Viewing P A where
  node := node
  handled := 0
  monitoring := Monitoring.start node.phases.localPeerId config stateDebug stateTrace logInfo
    logDebug logTrace logWarn pingTrace now

theorem localPeerId_start {P A : Type} [DecidableEq P] [PeerId P] {clusterId : String}
    {localPeerId : P} {localAddr : A} {debugLines : Bool} {nodeId : String} {etcd : Etcd}
    {now : ℤ} {s : Node P A}
    (h : Node.start clusterId localPeerId localAddr debugLines nodeId etcd now = some s) :
    s.phases.localPeerId = localPeerId := by
  obtain ⟨coordinator, -, rfl⟩ := Option.map_eq_some_iff.mp h
  rfl

theorem viewed_start {P A : Type} [DecidableEq P] [PeerId P] [MultiaddrIter A] {clusterId : String}
    {localPeerId : P} {localAddr : A} {debugLines : Bool} {nodeId : String} {etcd : Etcd}
    {now : ℤ} {s : Node P A} (config : NetworkConfig)
    (stateDebug stateTrace logInfo logDebug logTrace logWarn pingTrace : Bool) (t₀ : ℕ)
    (h : Node.start clusterId localPeerId localAddr debugLines nodeId etcd now = some s) :
    (start s config stateDebug stateTrace logInfo logDebug logTrace logWarn pingTrace
      t₀).Viewed := by
  obtain ⟨coordinator, -, rfl⟩ := Option.map_eq_some_iff.mp h
  refine ⟨⟨?_, ?_⟩, Nat.zero_le _, rfl, ?_, ?_, ?_, ?_⟩
  · show (∅ : Finset P) = ({localPeerId} : Finset P).erase localPeerId
    simp
  · intro p addr hmem
    cases hmem
  · intro _ p hp
    cases hp
  · intro _ p hp
    cases hp
  · intro p hp
    cases hp
  · intro p hp
    cases hp

/-- In every run of a node with its monitoring tasks, while the event loop is alive and
has handled the commands that discovery has sent, the peers in the network state are
known to discovery, other than the node itself and not forgotten by a cleanup since they
were last added. All such peers are there whose addresses have a host and a port. At all
times a peer that is being pinged is another one that discovery has added. -/
theorem views_agree {P A : Type} [SerdeJson] [DecidableEq P] [PeerId P] [Multiaddr A]
    [MultiaddrIter A] (score : Score P) (clusterId : String) (localPeerId : P) (localAddr : A)
    (debugLines : Bool) (nodeId : String) (etcd : Etcd) (now : ℤ) (config : NetworkConfig)
    (stateDebug stateTrace logInfo logDebug logTrace logWarn pingTrace : Bool) (t₀ : ℕ)
    (s₀ : Node P A) (s : Viewing P A) (labels : List (Label P A))
    (hstart : Node.start clusterId localPeerId localAddr debugLines nodeId etcd now = some s₀)
    (hrun : Run (StepOf (step score)) (start s₀ config stateDebug stateTrace logInfo logDebug
      logTrace logWarn pingTrace t₀) labels s) :
    (s.monitoring.loopAlive = true → s.handled = s.node.phases.swarmTx.length → ∀ p,
      (s.monitoring.task.network.hasPeer p = true →
        p ∈ s.node.phases.knownPeers ∧ p ≠ localPeerId ∧ p ∉ s.monitoring.cleaned) ∧
      ((∀ addr, .addPeer p addr ∈ s.node.phases.swarmTx →
          Monitoring.Usable (.addPeer p addr)) →
        p ∈ s.node.phases.knownPeers → p ≠ localPeerId → p ∉ s.monitoring.cleaned →
        s.monitoring.task.network.hasPeer p = true)) ∧
    ∀ p, s.monitoring.pinging = some p → p ≠ localPeerId ∧
      ∃ addr, .addPeer p addr ∈ s.node.phases.swarmTx := by
  obtain ⟨hs, hlocal⟩ : s.Viewed ∧ s.node.phases.localPeerId = localPeerId :=
    hrun.invariant (I := fun s => s.Viewed ∧ s.node.phases.localPeerId = localPeerId)
      (fun _ _ _ ⟨hs, hlocal⟩ hst => ⟨hs.step hst, (localPeerId_step hst).trans hlocal⟩)
      ⟨viewed_start config stateDebug stateTrace logInfo logDebug logTrace logWarn pingTrace t₀
        hstart, localPeerId_start hstart⟩
  have hothers : ∀ p addr, .addPeer p addr ∈ s.node.phases.swarmTx → p ≠ localPeerId := by
    intro p addr hmem
    rw [← hlocal]
    exact hs.commanded.others p addr hmem
  constructor
  · intro halive hall p
    obtain ⟨hin, hback⟩ := DiscoveryCommand.mem_heard p s.node.phases.swarmTx ∅ ∅ id
    have hannounced : s.monitoring.announced =
        s.node.phases.swarmTx.foldl DiscoveryCommand.heard ∅ := by
      rw [hs.heard, commands, hall, List.take_length]
    rw [hs.commanded.announced, ← hannounced, hlocal] at hin hback
    constructor
    · intro hp
      have hmem := hs.known halive p hp
      obtain ⟨hother, hknown⟩ := Finset.mem_erase.mp (hin hmem)
      exact ⟨hknown, hother, (hs.accounts halive p hmem).mp hp⟩
    · intro husable hknown hother hcleaned
      have hmem := hback husable id (Finset.mem_erase.mpr ⟨hother, hknown⟩)
      exact (hs.accounts halive p hmem).mpr hcleaned
  · intro p hp
    obtain ⟨addr, hadd⟩ := hs.pinging p hp
    have hsent := List.mem_of_mem_take hadd
    exact ⟨hothers p addr hsent, addr, hsent⟩

/-- A node finds a peer as it converges, and pings it once the event loop has heard of
it. -/
theorem views_agree_converging :
    let _ : SerdeJson := SerdeJson.knowing [otherMetadata.toJson]
    ∃ (b : Base58Text) (s : Viewing Base58Text Ip4Text), s.monitoring.pinging = some b ∧
      s.monitoring.task.network.hasPeer b = true ∧ b ∈ s.node.phases.knownPeers ∧
      b ≠ s.node.phases.localPeerId ∧ ∃ addr, .addPeer b addr ∈ s.node.phases.swarmTx := by
  intro _
  let a := peerOf "12D3KooWAAAAAAAAAAAAAAAAAAAAAAAAAAAAAAAAAAAAAAAAAAAA"
  let b := peerOf "12D3KooWBBBBBBBBBBBBBBBBBBBBBBBBBBBBBBBBBBBBBBBBBBBB"
  let score : Score Base58Text := fun _ _ => 7
  let kv := KeyValue.ofText (peerKey "lab" b) otherMetadata.toJson.text
  let labels : List (Label Base58Text Ip4Text) :=
    [.node (.startConverge [kv]), .node .convergeKv, .command 5 (fun _ => true),
      .health 6 (.ping b)]
  obtain ⟨s₀, hstart, s, hrun, hping, halive, hall, hpeer, hlocal⟩ :
      ∃ s₀ ∈ Node.start "lab" a (Ip4Text.mk "/ip4/10.0.0.1/tcp/5000") false "node-a" ∅ 0,
      ∃ s ∈ labels.foldlM (step score) (start s₀ .default true true true true true
        true true 4),
        s.monitoring.pinging = some b ∧ s.monitoring.loopAlive = true ∧
        s.handled = s.node.phases.swarmTx.length ∧
        s.monitoring.task.network.hasPeer b = true ∧ s.node.phases.localPeerId = a := by
    decide +kernel
  obtain ⟨hpeers, hpinging⟩ := views_agree score "lab" a _ false "node-a" ∅ 0 _ true true true
    true true true true 4 s₀ s labels hstart (Run.of_foldlM hrun)
  obtain ⟨hknown, -, -⟩ := (hpeers halive hall b).1 hpeer
  obtain ⟨hother, hadded⟩ := hpinging b hping
  refine ⟨b, s, hping, hpeer, hknown, ?_, hadded⟩
  rw [hlocal]
  exact hother

end Viewing
end Neolaas
