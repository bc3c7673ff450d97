import Neolaas.SwarmEventLoop

/-!
# Discovered peers in the network state

The entry of a discovered peer is made from the first of its addresses that has a host
and a port, and stays as it is until the peer is removed. An address without them
makes no entry.
-/
namespace Neolaas
open PeerId

namespace SwarmTask
open Ending

/-- A command with the time at which it is handled and the dials that would succeed. -/
structure Received (P A : Type) where
  now : ℕ
  dials : A → Bool
  command : DiscoveryCommand P A

/-- Handle commands one after the other. -/
def handleAll {P A : Type} [DecidableEq P] [PeerId P] [MultiaddrIter A] :
    List (Received P A) → SwarmTask P A → Ending (SwarmTask P A)
  | [], self => .returned self
  | received :: rest, self =>
    (self.handleDiscoveryCommand received.dials received.now received.command).bind
      (handleAll rest)

theorem handleAll_cons {P A : Type} [DecidableEq P] [PeerId P] [MultiaddrIter A]
    (received : Received P A) (rest : List (Received P A)) (self : SwarmTask P A) :
    handleAll (received :: rest) self =
      (self.handleDiscoveryCommand received.dials received.now received.command).bind
        (handleAll rest) := rfl

/-- The addresses with which a peer has been added since it was last removed. -/
def announce {P A : Type} [DecidableEq P] (p : P) (addrs : List A) :
    DiscoveryCommand P A → List A
  | .addPeer peerId addr => if peerId = p then addrs ++ [addr] else addrs
  | .removePeer peerId => if peerId = p then [] else addrs
  | .shutdown => addrs

theorem announce_addPeer {P A : Type} [DecidableEq P] (p peerId : P) (addr : A)
    (addrs : List A) : announce p addrs (.addPeer peerId addr) =
      if peerId = p then addrs ++ [addr] else addrs := rfl

theorem announce_removePeer {P A : Type} [DecidableEq P] (p peerId : P) (addrs : List A) :
    announce p addrs (.removePeer peerId) = if peerId = p then [] else addrs := rfl

def announced {P A : Type} [DecidableEq P] (p : P) (commands : List (Received P A)) : List A :=
  commands.foldl (fun addrs received => announce p addrs received.command) []

/-- No line about the command panics. -/
def LinesFit {P A : Type} [PeerId P] [MultiaddrIter A] (self : SwarmTask P A)
    (received : Received P A) : Prop :=
  match received.command with
  | .addPeer peerId addr => Fits self.logDebug peerId ∧
      ((SwarmTask.peerInfo peerId addr).isSome = true → Fits self.network.logDebug peerId ∧
        Fits (self.logTrace && !received.dials addr) peerId)
  | .removePeer peerId => Fits self.logDebug peerId
  | .shutdown => True

/-- The network state follows the commands: its peers are those that are announced, each
with the information of its last address. -/
def FollowsCommands {P A : Type} [DecidableEq P] [PeerId P] [MultiaddrIter A]
    (commands : List (Received P A)) (ending : Ending (SwarmTask P A)) : Prop :=
  ∃ task, ending = .returned task ∧ ∀ p,
    match (announced p commands).getLast? with
    | some addr => ∃ peer, task.network.peers.lookup p = some peer ∧
        SwarmTask.peerInfo p addr = some peer.peerInfo
    | none => task.network.peers.lookup p = none

/-- The first address with a host and a port has the information of the last address. -/
def Agree {P A : Type} [PeerId P] [MultiaddrIter A] (p : P) (addrs : List A) : Prop :=
  ∀ addr, addrs.getLast? = some addr → ∃ info,
    addrs.findSome? (SwarmTask.peerInfo p) = some info ∧ SwarmTask.peerInfo p addr = some info

/-- The same levels, before and after a command. -/
def SameLevels {P A : Type} (self next : SwarmTask P A) : Prop :=
  next.logDebug = self.logDebug ∧ next.logTrace = self.logTrace ∧
    next.network.logDebug = self.network.logDebug

theorem SameLevels.linesFit {P A : Type} [PeerId P] [MultiaddrIter A] {self next : SwarmTask P A}
    (h : self.SameLevels next) (received : Received P A) :
    next.LinesFit received ↔ self.LinesFit received := by
  unfold LinesFit
  rw [h.1, h.2.1, h.2.2]

/-- What the network state holds after commands: of each peer the first information
since its last removal. Lines about its peers do not panic. -/
structure Stores {P A : Type} [DecidableEq P] [PeerId P] [MultiaddrIter A]
    (history : List (Received P A)) (task : SwarmTask P A) : Prop where
  infos : ∀ p, (task.network.peers.lookup p).map PeerConnectionState.peerInfo =
    (announced p history).findSome? (SwarmTask.peerInfo p)
  fits : ∀ p, task.network.hasPeer p = true → Fits task.network.logDebug p

theorem announced_append {P A : Type} [DecidableEq P] (p : P) (history : List (Received P A))
    (received : Received P A) :
    announced p (history ++ [received]) = announce p (announced p history) received.command := by
  simp [announced]

/-- An address after those that a peer has. -/
theorem findSome?_announce_add {P A : Type} [DecidableEq P] [PeerId P] [MultiaddrIter A]
    (p peerId : P) (addr : A) (addrs : List A) :
    (announce p addrs (.addPeer peerId addr)).findSome? (SwarmTask.peerInfo p) =
      (addrs.findSome? (SwarmTask.peerInfo p)).or
        (if peerId = p then SwarmTask.peerInfo p addr else none) := by
  rw [announce_addPeer]
  by_cases hp : peerId = p
  · rw [if_pos hp, if_pos hp, List.findSome?_append]
    simp
  · rw [if_neg hp, if_neg hp, Option.or_none]

/-- What a command that goes through leaves in the network state. -/
theorem Stores.addPeer {P A : Type} [DecidableEq P] [PeerId P] [MultiaddrIter A]
    {history : List (Received P A)} {task : SwarmTask P A} (h : Stores history task)
    {received : Received P A} {peerId : P} {addr : A}
    (hcommand : received.command = .addPeer peerId addr) :
    (task.LinesFit received → ∃ next,
      task.handleDiscoveryCommand received.dials received.now received.command = .returned next ∧
        task.SameLevels next ∧ Stores (history ++ [received]) next) ∧
    (¬task.LinesFit received → ∃ next,
      task.handleDiscoveryCommand received.dials received.now received.command =
        .panicked next) := by
  have hinfos : ∀ p, (announced p (history ++ [received])).findSome? (SwarmTask.peerInfo p) =
      ((task.network.peers.lookup p).map PeerConnectionState.peerInfo).or
        (if peerId = p then SwarmTask.peerInfo p addr else none) := by
    intro p
    rw [announced_append, hcommand, findSome?_announce_add, h.infos p]
  rw [hcommand]
  simp only [LinesFit, hcommand, handleDiscoveryCommand]
  by_cases hline : Fits task.logDebug peerId
  · rw [afterLine_of_fits hline]
    simp only [Ending.bind]
    cases hinfo : SwarmTask.peerInfo peerId addr with
    | none =>
      have hnone : ∀ p, (if peerId = p then SwarmTask.peerInfo p addr else none) = none := by
        intro p
        split_ifs with hp
        · rw [← hp]
          exact hinfo
        · rfl
      refine ⟨fun _ => ⟨_, rfl, ⟨rfl, rfl, rfl⟩, ?_, h.fits⟩, fun hnot => ?_⟩
      · intro p
        rw [hinfos p, hnone p, Option.or_none]
      · exact absurd ⟨hline, fun hsome => by cases hsome⟩ hnot
    | some info =>
      have hdebug : (Fits task.network.logDebug peerId ∧
          Fits (task.logTrace && !received.dials addr) peerId) ↔
          (task.network.hasPeer peerId = false → Fits task.network.logDebug peerId) ∧
          Fits (task.logTrace && !received.dials addr) peerId := by
        apply and_congr_left
        intro _
        constructor
        · exact fun hfits _ => hfits
        · intro hfits
          by_cases hknown : task.network.hasPeer peerId = true
          · exact h.fits peerId hknown
          · exact hfits (by simpa using hknown)
      simp only [hline, true_and, Option.isSome_some, true_implies, hdebug]
      constructor
      · rintro ⟨hadded, htrace⟩
        rw [NetworkState.addPeer_of_fits _ _ _ _ hadded]
        simp only [Ending.map]
        rw [afterLine_of_fits htrace]
        refine ⟨_, rfl, ⟨rfl, rfl, ?_⟩, ?_, ?_⟩
        · show NetworkState.logDebug (if _ then _ else _) = _
          split_ifs <;> rfl
        · intro p
          rw [hinfos p]
          show (AList.lookup p (NetworkState.peers (if _ then _ else _))).map _ = _
          by_cases hknown : task.network.hasPeer peerId = true
          · rw [if_pos hknown]
            by_cases hp : peerId = p
            · subst hp
              obtain ⟨peer, hpeer⟩ := Option.isSome_iff_exists.mp hknown
              rw [hpeer]
              rfl
            · rw [if_neg hp, Option.or_none]
          · rw [if_neg hknown, NetworkState.lookup_set]
            by_cases hp : peerId = p
            · subst hp
              have hempty : task.network.peers.lookup peerId = none :=
                Option.not_isSome_iff_eq_none.mp hknown
              rw [if_pos rfl, if_pos rfl, hempty, hinfo]
              rfl
            · rw [if_neg (Ne.symm hp), if_neg hp, Option.or_none]
        · intro p hp
          show Fits (NetworkState.logDebug (if _ then _ else _)) p
          by_cases hknown : task.network.hasPeer peerId = true
          · simp only [if_pos hknown] at hp ⊢
            exact h.fits p hp
          · simp only [if_neg hknown] at hp ⊢
            simp only [NetworkState.hasPeer, NetworkState.lookup_set] at hp
            by_cases hpeer : p = peerId
            · rw [hpeer]
              exact hadded (by simpa using hknown)
            · rw [if_neg hpeer] at hp
              exact h.fits p hp
      · intro hnot
        by_cases hadded : task.network.hasPeer peerId = false → Fits task.network.logDebug peerId
        · rw [NetworkState.addPeer_of_fits _ _ _ _ hadded]
          simp only [Ending.map]
          have htrace : ¬Fits (task.logTrace && !received.dials addr) peerId :=
            fun hfits => hnot ⟨hadded, hfits⟩
          rw [afterLine_of_not_fits htrace]
          exact ⟨_, rfl⟩
        · obtain ⟨hnew, hshort⟩ := Classical.not_imp.mp hadded
          unfold NetworkState.addPeer
          rw [if_neg (by simp [hnew]), afterLine_of_not_fits hshort]
          exact ⟨_, rfl⟩
  · rw [afterLine_of_not_fits hline]
    exact ⟨fun hfits => absurd hfits.1 hline, fun _ => ⟨_, rfl⟩⟩

theorem Stores.removePeer {P A : Type} [DecidableEq P] [PeerId P] [MultiaddrIter A]
    {history : List (Received P A)} {task : SwarmTask P A} (h : Stores history task)
    {received : Received P A} {peerId : P} (hcommand : received.command = .removePeer peerId) :
    (task.LinesFit received → ∃ next,
      task.handleDiscoveryCommand received.dials received.now received.command = .returned next ∧
        task.SameLevels next ∧ Stores (history ++ [received]) next) ∧
    (¬task.LinesFit received → ∃ next,
      task.handleDiscoveryCommand received.dials received.now received.command =
        .panicked next) := by
  rw [hcommand]
  simp only [LinesFit, hcommand, handleDiscoveryCommand]
  by_cases hline : Fits task.logDebug peerId
  · rw [afterLine_of_fits hline]
    simp only [Ending.bind]
    -- The peer is known only if a line about it fits.
    have hremoved : ∃ network, task.network.removePeer peerId = .returned network ∧
        network.logDebug = task.network.logDebug := by
      unfold NetworkState.removePeer
      by_cases hknown : task.network.hasPeer peerId = true
      · rw [if_pos hknown, afterLine_of_fits (h.fits peerId hknown)]
        exact ⟨_, rfl, rfl⟩
      · rw [if_neg hknown]
        exact ⟨_, rfl, rfl⟩
    obtain ⟨network, hnetwork, hlevel⟩ := hremoved
    have hlookup : ∀ p, network.peers.lookup p =
        if p = peerId then none else task.network.peers.lookup p := by
      intro p
      have hstate := NetworkState.lookup_removePeer peerId task.network p
      rw [hnetwork] at hstate
      exact hstate
    rw [hnetwork]
    refine ⟨fun _ => ⟨_, rfl, ⟨rfl, rfl, hlevel⟩, ?_, ?_⟩, fun hnot => absurd hline hnot⟩
    · intro p
      show (network.peers.lookup p).map _ = _
      rw [hlookup p, announced_append, hcommand, announce_removePeer]
      by_cases hp : p = peerId
      · rw [if_pos hp, if_pos hp.symm]
        rfl
      · rw [if_neg hp, if_neg (Ne.symm hp)]
        exact h.infos p
    · intro p hp
      show Fits network.logDebug p
      have hknown : (network.peers.lookup p).isSome = true := hp
      rw [hlevel]
      rw [hlookup p] at hknown
      split_ifs at hknown
      · cases hknown
      · exact h.fits p hknown
  · rw [afterLine_of_not_fits hline]
    exact ⟨fun hfits => absurd hfits hline, fun _ => ⟨_, rfl⟩⟩

/-- A command goes through exactly when its lines fit. -/
theorem Stores.step {P A : Type} [DecidableEq P] [PeerId P] [MultiaddrIter A]
    {history : List (Received P A)} {task : SwarmTask P A} (h : Stores history task)
    (received : Received P A) :
    (task.LinesFit received → ∃ next,
      task.handleDiscoveryCommand received.dials received.now received.command = .returned next ∧
        task.SameLevels next ∧ Stores (history ++ [received]) next) ∧
    (¬task.LinesFit received → ∃ next,
      task.handleDiscoveryCommand received.dials received.now received.command =
        .panicked next) := by
  cases hcommand : received.command with
  | addPeer peerId addr =>
    rw [← hcommand]
    exact h.addPeer hcommand
  | removePeer peerId =>
    rw [← hcommand]
    exact h.removePeer hcommand
  | shutdown =>
    refine ⟨fun _ => ⟨task, rfl, ⟨rfl, rfl, rfl⟩, ?_, h.fits⟩, fun hnot => ?_⟩
    · intro p
      rw [announced_append, hcommand]
      exact h.infos p
    · simp [LinesFit, hcommand] at hnot

/-- All commands go through exactly when the lines of all of them fit. -/
theorem Stores.run {P A : Type} [DecidableEq P] [PeerId P] [MultiaddrIter A]
    {history : List (Received P A)} {task : SwarmTask P A} (h : Stores history task)
    (commands : List (Received P A)) :
    ((∀ received ∈ commands, task.LinesFit received) → ∃ next,
      handleAll commands task = .returned next ∧ Stores (history ++ commands) next) ∧
    ((∃ received ∈ commands, ¬task.LinesFit received) → ∃ next,
      handleAll commands task = .panicked next) := by
  induction commands generalizing history task with
  | nil =>
    refine ⟨fun _ => ⟨task, rfl, ?_⟩, by simp⟩
    rw [List.append_nil]
    exact h
  | cons received commands ih =>
    obtain ⟨hgoes, hpanics⟩ := h.step received
    by_cases hfits : task.LinesFit received
    · obtain ⟨next, hnext, hlevels, hstores⟩ := hgoes hfits
      obtain ⟨hall, hsome⟩ := ih hstores
      have hsame : ∀ r, next.LinesFit r ↔ task.LinesFit r := hlevels.linesFit
      simp only [hsame] at hall hsome
      have hrun : handleAll (received :: commands) task = handleAll commands next := by
        rw [handleAll_cons, hnext]
        rfl
      rw [hrun, List.forall_mem_cons, List.exists_mem_cons_iff, ← List.append_cons] at *
      exact ⟨fun hrest => hall hrest.2, fun hrest => hsome (hrest.resolve_left (not_not.mpr hfits))⟩
    · obtain ⟨next, hnext⟩ := hpanics hfits
      refine ⟨fun hall => absurd (hall received List.mem_cons_self) hfits, fun _ => ⟨next, ?_⟩⟩
      rw [handleAll_cons, hnext]
      rfl

/-- A fresh network state follows any commands exactly when all lines about them fit and,
for each peer that is announced in the end, the first of its addresses since its last
removal that has a host and a port has those of its last address. -/
theorem follows_commands_iff {P A : Type} [DecidableEq P] [PeerId P] [MultiaddrIter A]
    (kademlia : List (P × A)) (localPeerId : P) (config : NetworkConfig)
    (stateDebug stateTrace logInfo logDebug logTrace : Bool) (commands : List (Received P A)) :
    let task : SwarmTask P A := ⟨kademlia, NetworkState.new localPeerId config stateDebug
      stateTrace, logInfo, logDebug, logTrace⟩
    FollowsCommands commands (handleAll commands task) ↔
      (∀ received ∈ commands, task.LinesFit received) ∧ ∀ p, Agree p (announced p commands) := by
  intro task
  have hfresh : Stores [] task := by
    refine ⟨fun p => rfl, fun p hp => ?_⟩
    have hempty : task.network.peers.lookup p = none := rfl
    rw [NetworkState.hasPeer, hempty] at hp
    cases hp
  obtain ⟨hgoes, hpanics⟩ := hfresh.run commands
  rw [List.nil_append] at hgoes
  by_cases hfits : ∀ received ∈ commands, task.LinesFit received
  · obtain ⟨next, hrun, hstores⟩ := hgoes hfits
    rw [and_iff_right hfits]
    -- What the entry of each peer is, against what it should be.
    have hpeer : ∀ p, (match (announced p commands).getLast? with
        | some addr => ∃ peer, next.network.peers.lookup p = some peer ∧
            SwarmTask.peerInfo p addr = some peer.peerInfo
        | none => next.network.peers.lookup p = none) ↔ Agree p (announced p commands) := by
      intro p
      have hinfos := hstores.infos p
      unfold Agree
      cases hlast : (announced p commands).getLast? with
      | none =>
        have hnil := List.getLast?_eq_none_iff.mp hlast
        rw [hnil] at hinfos
        have hempty : next.network.peers.lookup p = none := Option.map_eq_none_iff.mp hinfos
        simp [hempty]
      | some addr =>
        simp only [Option.some.injEq, forall_eq', ← hinfos]
        constructor
        · rintro ⟨peer, hlookup, hinfo⟩
          exact ⟨peer.peerInfo, by rw [hlookup]; rfl, hinfo⟩
        · rintro ⟨info, hstored, hinfo⟩
          obtain ⟨peer, hlookup, rfl⟩ := Option.map_eq_some_iff.mp hstored
          exact ⟨peer, hlookup, hinfo⟩
    constructor
    · rintro ⟨task', hrun', hall⟩ p
      have heq : next = task' := Ending.returned.inj (hrun.symm.trans hrun')
      rw [← hpeer p, heq]
      exact hall p
    · intro hagree
      exact ⟨next, hrun, fun p => (hpeer p).mpr (hagree p)⟩
  · constructor
    · rintro ⟨task', hrun, -⟩
      have hexists : ∃ received ∈ commands, ¬task.LinesFit received := by
        simpa using hfits
      obtain ⟨next, hpanic⟩ := hpanics hexists
      rw [hrun] at hpanic
      cases hpanic
    · exact fun h => absurd h.1 hfits

/-- A peer that is added again with another address keeps the entry of the first. -/
theorem not_follows_commands : ¬∀ (kademlia : List (Base58Text × Ip4Text))
    (localPeerId : Base58Text) (config : NetworkConfig)
    (stateDebug stateTrace logInfo logDebug logTrace : Bool)
    (commands : List (Received Base58Text Ip4Text)),
    FollowsCommands commands (handleAll commands ⟨kademlia, NetworkState.new localPeerId config
      stateDebug stateTrace, logInfo, logDebug, logTrace⟩) := by
  intro hclaim
  let a := peerOf "12D3KooWAAAAAAAAAAAAAAAAAAAAAAAAAAAAAAAAAAAAAAAAAAAA"
  let b := peerOf "12D3KooWBBBBBBBBBBBBBBBBBBBBBBBBBBBBBBBBBBBBBBBBBBBB"
  let moved : Ip4Text := ⟨"/ip4/10.0.0.2/tcp/5000"⟩
  let commands : List (Received Base58Text Ip4Text) :=
    [⟨0, fun _ => true, .addPeer b ⟨"/ip4/10.0.0.1/tcp/5000"⟩⟩,
      ⟨1, fun _ => true, .addPeer b moved⟩]
  let task : SwarmTask Base58Text Ip4Text :=
    ⟨[], NetworkState.new a NetworkConfig.default false false, true, false, false⟩
  obtain ⟨next, hrun, hfollows⟩ := hclaim [] a NetworkConfig.default false false true false false
    commands
  have hb := hfollows b
  have hlast : (announced b commands).getLast? = some moved := by decide +kernel
  have hstored : ((handleAll commands task).state.network.peers.lookup b).map
      PeerConnectionState.peerInfo ≠ SwarmTask.peerInfo b moved := by
    decide +kernel
  rw [hlast] at hb
  obtain ⟨peer, hlookup, hinfo⟩ := hb
  have hstate : (handleAll commands task).state = next := by
    rw [hrun]
    rfl
  rw [hstate, hlookup, hinfo] at hstored
  exact hstored rfl

end SwarmTask
end Neolaas
