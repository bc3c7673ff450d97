import Neolaas.LabelledRuns
import Neolaas.SwarmEventLoop

/-!
# The status of a peer and its connections

Several connections to one peer may be open at once. The network state keeps a single
status for the peer, which each established connection sets and each closed one
clears.
-/
namespace Neolaas
open PeerId LabelledRuns Ending

/-- The event loop beside the open connections, each of a peer and with a number. -/
structure Connections (P A : Type) where
  task : SwarmTask P A
  alive : Bool
  opened : List (P × ℕ)

namespace Connections

/-- A connection is established or closed at some time. -/
inductive Label (P : Type) where
  | established (peerId : P) (connectionId now : ℕ)
  | closed (peerId : P) (connectionId now : ℕ)

/-- The event loop before the first connection. -/
def start {P A : Type} (task : SwarmTask P A) : Connections P A := ⟨task, true, []⟩

/-- The event loop goes on unless its handler panics. -/
def handled {P A : Type} (opened : List (P × ℕ)) : Ending (SwarmTask P A) → Connections P A
  | .returned task => ⟨task, true, opened⟩
  | .panicked task => ⟨task, false, opened⟩

/-- The events of peers in the network state. Only an open connection closes. -/
def step {P A : Type} [DecidableEq P] [PeerId P] (s : Connections P A) :
    Label P → Option (Connections P A)
  | .established peerId connectionId now =>
    if s.alive ∧ s.task.network.hasPeer peerId ∧ (peerId, connectionId) ∉ s.opened then
      some (handled ((peerId, connectionId) :: s.opened)
        (s.task.handleSwarmEvent (fun _ => true) now (.connectionEstablished peerId)))
    else none
  | .closed peerId connectionId now =>
    if s.alive ∧ s.task.network.hasPeer peerId ∧ (peerId, connectionId) ∈ s.opened then
      some (handled (s.opened.filter (· ≠ (peerId, connectionId)))
        (s.task.handleSwarmEvent (fun _ => true) now (.connectionClosed peerId)))
    else none

/-- A peer of the network state is connected exactly when it has an open connection. -/
def StatusFollows {P A : Type} [DecidableEq P] (s : Connections P A) : Prop :=
  ∀ p peer, s.task.network.peers.lookup p = some peer →
    (peer.status = .connected ↔ ∃ connectionId, (p, connectionId) ∈ s.opened)

/-- A connection closes only as the last one of its peer, and the lines about both
kinds of events do not panic. -/
def ClosesLast {P A : Type} [PeerId P] (s : Connections P A) : Label P → Prop
  | .established peerId _ _ =>
    Fits s.task.logInfo peerId ∧ Fits s.task.network.logTrace peerId
  | .closed peerId connectionId _ =>
    (∀ connection ∈ s.opened, connection.1 = peerId → connection.2 = connectionId) ∧
      Fits s.task.logDebug peerId ∧ Fits s.task.network.logTrace peerId

instance {P A : Type} [DecidableEq P] [PeerId P] (s : Connections P A) (l : Label P) :
    Decidable (s.ClosesLast l) :=
  match l with
  | .established _ _ _ => inferInstanceAs (Decidable (_ ∧ _))
  | .closed peerId connectionId _ => inferInstanceAs (Decidable ((∀ connection ∈ s.opened,
      connection.1 = peerId → connection.2 = connectionId) ∧ _ ∧ _))

/-- An event that sets the entry of its peer and leaves the connections of others. -/
theorem StatusFollows.set {P A : Type} [DecidableEq P] {s t : Connections P A}
    (hs : s.StatusFollows) (peerId : P) (peer : PeerConnectionState P)
    (hnetwork : ∀ p, t.task.network.peers.lookup p =
      if p = peerId then some peer else s.task.network.peers.lookup p)
    (hpeer : peer.status = .connected ↔ ∃ connectionId, (peerId, connectionId) ∈ t.opened)
    (hothers : ∀ p connectionId, p ≠ peerId →
      ((p, connectionId) ∈ t.opened ↔ (p, connectionId) ∈ s.opened)) : t.StatusFollows := by
  intro p peer' hlookup
  rw [hnetwork p] at hlookup
  by_cases hp : p = peerId
  · rw [if_pos hp] at hlookup
    obtain rfl := Option.some.inj hlookup
    rw [hp]
    exact hpeer
  · rw [if_neg hp] at hlookup
    rw [hs p peer' hlookup]
    exact exists_congr (fun connectionId => (hothers p connectionId hp).symm)

theorem StatusFollows.established {P A : Type} [DecidableEq P] [PeerId P]
    {s t : Connections P A} (hs : s.StatusFollows) {peerId : P} {connectionId now : ℕ}
    (hok : s.ClosesLast (.established peerId connectionId now))
    (h : s.step (.established peerId connectionId now) = some t) : t.StatusFollows := by
  simp only [step] at h
  split_ifs at h with hstep
  obtain ⟨peer, hpeer⟩ := Option.isSome_iff_exists.mp hstep.2.1
  simp only [SwarmTask.handleSwarmEvent, afterLine_of_fits hok.1, Ending.bind,
    NetworkState.markConnected_of_fits now hpeer hok.2, Ending.map] at h
  obtain rfl := Option.some.inj h
  apply hs.set peerId (peer.markConnected now)
  · exact fun p => NetworkState.lookup_set peerId _ _ p
  · exact iff_of_true rfl ⟨connectionId, List.mem_cons_self⟩
  · intro p connectionId' hp
    show (p, connectionId') ∈ (peerId, connectionId) :: s.opened ↔ _
    rw [List.mem_cons]
    apply or_iff_right
    intro heq
    exact hp (Prod.mk.inj heq).1

theorem StatusFollows.closed {P A : Type} [DecidableEq P] [PeerId P] {s t : Connections P A}
    (hs : s.StatusFollows) {peerId : P} {connectionId now : ℕ}
    (hok : s.ClosesLast (.closed peerId connectionId now))
    (h : s.step (.closed peerId connectionId now) = some t) : t.StatusFollows := by
  simp only [step] at h
  split_ifs at h with hstep
  obtain ⟨peer, hpeer⟩ := Option.isSome_iff_exists.mp hstep.2.1
  obtain ⟨hlast, hline, htrace⟩ := hok
  simp only [SwarmTask.handleSwarmEvent, afterLine_of_fits hline, Ending.bind,
    NetworkState.markDisconnected_of_fits now hpeer htrace, Ending.map] at h
  obtain rfl := Option.some.inj h
  have hmem : ∀ c : P × ℕ, c ∈ s.opened.filter (· ≠ (peerId, connectionId)) ↔
      c ∈ s.opened ∧ c ≠ (peerId, connectionId) := by
    intro c
    rw [List.mem_filter, decide_eq_true_eq]
  apply hs.set peerId (peer.markDisconnected now)
  · exact fun p => NetworkState.lookup_set peerId _ _ p
  · -- No connection of the peer is left.
    apply iff_of_false
    · intro hstatus
      cases hstatus
    · rintro ⟨connectionId', hin⟩
      obtain ⟨hopen, hne⟩ := (hmem _).mp hin
      have heq : connectionId' = connectionId := hlast _ hopen rfl
      rw [heq] at hne
      exact hne rfl
  · intro p connectionId' hp
    show (p, connectionId') ∈ s.opened.filter _ ↔ _
    rw [hmem]
    apply and_iff_left
    intro heq
    exact hp (Prod.mk.inj heq).1

/-- Among peers none of which is connected at first, every run in which a connection
closes only as the last one of its peer, and no line panics, keeps each status in
agreement with the open connections. -/
theorem status_follows_connections {P A : Type} [DecidableEq P] [PeerId P]
    (task : SwarmTask P A) (labels : List (Label P)) (s : Connections P A)
    (hfresh : ∀ p peer, task.network.peers.lookup p = some peer → peer.status ≠ .connected)
    (hrun : Run (Guarded ClosesLast (StepOf step)) (start task) labels s) : s.StatusFollows := by
  refine hrun.invariant (I := StatusFollows) ?_ ?_
  · intro t l t' ht hstep
    cases l with
    | established peerId connectionId now => exact ht.established hstep.1 hstep.2
    | closed peerId connectionId now => exact ht.closed hstep.1 hstep.2
  · intro p peer hlookup
    apply iff_of_false (hfresh p peer hlookup)
    rintro ⟨connectionId, hmem⟩
    cases hmem

/-- An event loop that knows one peer, at some level of its lines. -/
def knowing (b : Base58Text) : SwarmTask Base58Text Ip4Text where
  kademlia := []
  network := (NetworkState.new (peerOf "12D3KooWA") NetworkConfig.default true true).set b
    (.new 0 b ⟨"peer-b", ⟨10, 0, 0, 2⟩, 5000⟩)
  logInfo := true
  logDebug := true
  logTrace := true

theorem knowing_fresh (b p : Base58Text) (peer : PeerConnectionState Base58Text)
    (h : (knowing b).network.peers.lookup p = some peer) : peer.status ≠ .connected := by
  rw [knowing, NetworkState.lookup_set] at h
  split_ifs at h
  · obtain rfl := Option.some.inj h
    simp [PeerConnectionState.new]
  · cases h

/-- One connection after the other. -/
theorem status_follows_connections_twice :
    let b := peerOf "12D3KooWBBBBBBBBBBBBBBBBBBBBBBBBBBBBBBBBBBBBBBBBBBBB"
    let labels := [Label.established b 1 10, .closed b 1 20, .established b 2 30]
    ∃ s : Connections Base58Text Ip4Text,
      Run (Guarded ClosesLast (StepOf step)) (start (knowing b)) labels s ∧ s.StatusFollows := by
  intro b labels
  obtain ⟨s, hrun⟩ : ∃ s, s ∈ labels.foldlM (guardedNext ClosesLast step) (start (knowing b)) := by
    apply Option.isSome_iff_exists.mp
    decide +kernel
  have hguarded := Run.guarded_of_foldlM hrun
  exact ⟨s, hguarded, status_follows_connections (knowing b) labels s (knowing_fresh b) hguarded⟩

/-- Of two open connections of a peer one closes, and the peer counts as disconnected. -/
theorem not_status_follows_connections : ¬∀ (task : SwarmTask Base58Text Ip4Text)
    (labels : List (Label Base58Text)) (s : Connections Base58Text Ip4Text),
    (∀ p peer, task.network.peers.lookup p = some peer → peer.status ≠ .connected) →
    Run (StepOf step) (start task) labels s → s.StatusFollows := by
  intro hclaim
  let b := peerOf "12D3KooWBBBBBBBBBBBBBBBBBBBBBBBBBBBBBBBBBBBBBBBBBBBB"
  let labels := [Label.established b 1 10, .established b 2 20, .closed b 1 30]
  obtain ⟨s, hrun, hopened, hstatus⟩ : ∃ s ∈ labels.foldlM step (start (knowing b)),
      (b, 2) ∈ s.opened ∧ (s.task.network.peers.lookup b).map PeerConnectionState.status =
        some .disconnected := by
    decide +kernel
  obtain ⟨peer, hpeer, hdisconnected⟩ := Option.map_eq_some_iff.mp hstatus
  have hconnected :=
    (hclaim (knowing b) labels s (knowing_fresh b) (Run.of_foldlM hrun) b peer hpeer).mpr
    ⟨2, hopened⟩
  rw [hdisconnected] at hconnected
  cases hconnected

end Connections
end Neolaas
