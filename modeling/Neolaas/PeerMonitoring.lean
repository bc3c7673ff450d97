import Neolaas.LabelledRuns
import Neolaas.SwarmEventLoop

/-!
# The monitoring of discovered peers

The event loop, the ping loop and the cleanup loop share the network state. Discovery
announces a peer once; the cleanup forgets it when it has failed for long enough, and
what its connections tell afterwards is lost until discovery announces it again.
-/
namespace Neolaas
open PeerId LabelledRuns Ending

namespace NetworkState

/-- The peer is there and connected. -/
def Monitored {P : Type} [DecidableEq P] (self : NetworkState P) (p : P) : Prop :=
  (self.peers.lookup p).map PeerConnectionState.status = some .connected

instance {P : Type} [DecidableEq P] (self : NetworkState P) (p : P) :
    Decidable (self.Monitored p) := inferInstanceAs (Decidable (_ = _))

theorem Monitored.hasPeer {P : Type} [DecidableEq P] {self : NetworkState P} {p : P}
    (h : self.Monitored p) : self.hasPeer p = true := by
  obtain ⟨peer, hpeer, -⟩ := Option.map_eq_some_iff.mp h
  exact Option.isSome_iff_exists.mpr ⟨peer, hpeer⟩

/-- A connected peer is pinged. -/
theorem Monitored.shouldSkipPing {P : Type} [DecidableEq P] {self : NetworkState P} {p : P}
    (h : self.Monitored p) (now : ℕ) : self.shouldSkipPing now p = false := by
  obtain ⟨peer, hpeer, hstatus⟩ := Option.map_eq_some_iff.mp h
  unfold NetworkState.shouldSkipPing PeerConnectionState.shouldSkipPing
  rw [hpeer, Option.map_some, hstatus]
  rfl

/-- Marks leave the peers that are there. -/
theorem hasPeer_markConnected {P : Type} [DecidableEq P] [PeerId P] (now : ℕ) (peerId p : P)
    (self : NetworkState P) :
    (self.markConnected now peerId).state.hasPeer p = self.hasPeer p := by
  unfold markConnected
  cases hpeer : self.peers.lookup peerId with
  | none => rfl
  | some peer =>
    by_cases hline : Fits self.logTrace peerId
    · simp only [afterLine_of_fits hline, Ending.bind]
      exact hasPeer_set hpeer _ p
    · simp only [afterLine_of_not_fits hline, Ending.bind]
      rfl

theorem hasPeer_markDisconnected {P : Type} [DecidableEq P] [PeerId P] (now : ℕ) (peerId p : P)
    (self : NetworkState P) :
    (self.markDisconnected now peerId).state.hasPeer p = self.hasPeer p := by
  unfold markDisconnected
  cases hpeer : self.peers.lookup peerId with
  | none => rfl
  | some peer =>
    by_cases hline : Fits self.logTrace peerId
    · simp only [afterLine_of_fits hline, Ending.bind]
      exact hasPeer_set hpeer _ p
    · simp only [afterLine_of_not_fits hline, Ending.bind]
      rfl

theorem hasPeer_markFailure {P : Type} [DecidableEq P] [PeerId P] (now : ℕ) (peerId p : P)
    (self : NetworkState P) :
    (self.markFailure now peerId).state.hasPeer p = self.hasPeer p := by
  unfold markFailure
  cases hpeer : self.peers.lookup peerId with
  | none => rfl
  | some peer =>
    simp only [afterLine_state]
    exact hasPeer_set hpeer _ p

theorem hasPeer_markSuccess {P : Type} [DecidableEq P] (now : ℕ) (peerId p : P)
    (self : NetworkState P) : (self.markSuccess now peerId).hasPeer p = self.hasPeer p := by
  unfold markSuccess
  cases hpeer : self.peers.lookup peerId with
  | none => rfl
  | some peer => exact hasPeer_set hpeer _ p

/-- Removing stale peers only removes, and only those. -/
theorem hasPeer_removeStale {P : Type} [DecidableEq P] [PeerId P] (order : List P) (p : P)
    (self : NetworkState P) :
    ((removeStale order self).state.hasPeer p = true → self.hasPeer p = true) ∧
      (self.hasPeer p = true → (removeStale order self).state.hasPeer p = false → p ∈ order) := by
  induction order generalizing self with
  | nil =>
    refine ⟨id, fun hin hout => ?_⟩
    rw [removeStale, Ending.state, hin] at hout
    cases hout
  | cons peerId rest ih =>
    have hforget : (self.forget peerId).hasPeer p = true ↔ p ≠ peerId ∧ self.hasPeer p = true := by
      unfold hasPeer
      rw [lookup_forget]
      by_cases hp : p = peerId <;> simp [hp]
    unfold removeStale
    by_cases hline : Fits self.logTrace peerId
    · simp only [afterLine_of_fits hline, Ending.bind]
      obtain ⟨hkeeps, hremoves⟩ := ih (self.forget peerId)
      constructor
      · exact fun h => (hforget.mp (hkeeps h)).2
      · intro hin hout
        by_cases hp : p = peerId
        · exact hp ▸ List.mem_cons_self
        · exact List.mem_cons_of_mem _ (hremoves (hforget.mpr ⟨hp, hin⟩) hout)
    · simp only [afterLine_of_not_fits hline, Ending.bind]
      refine ⟨id, fun hin hout => ?_⟩
      rw [Ending.state, hin] at hout
      cases hout

end NetworkState

namespace SwarmTask

/-- The peers that are there stay the same in all events of the swarm. -/
theorem forPeers_network {P A : Type} {f : P × A → SwarmTask P A → Ending (SwarmTask P A)}
    (hf : ∀ found self, (f found self).state.network = self.network) (peers : List (P × A))
    (self : SwarmTask P A) : (forPeers f peers self).state.network = self.network := by
  induction peers generalizing self with
  | nil => rfl
  | cons found rest ih =>
    have hfirst := hf found self
    unfold forPeers
    cases hfound : f found self with
    | returned next =>
      rw [hfound] at hfirst
      exact (ih next).trans hfirst
    | panicked next =>
      rw [hfound] at hfirst
      exact hfirst

theorem handleSwarmEvent_hasPeer {P A : Type} [DecidableEq P] [PeerId P] (dials : A → Bool)
    (now : ℕ) (self : SwarmTask P A) (event : SwarmEvent P A) (p : P) :
    (self.handleSwarmEvent dials now event).state.network.hasPeer p = self.network.hasPeer p := by
  cases event with
  | connectionEstablished peerId =>
    unfold handleSwarmEvent
    by_cases hline : Fits self.logInfo peerId
    · simp only [afterLine_of_fits hline, Ending.bind, map_state]
      exact NetworkState.hasPeer_markConnected now peerId p self.network
    · simp only [afterLine_of_not_fits hline, Ending.bind]
      rfl
  | connectionClosed peerId =>
    unfold handleSwarmEvent
    by_cases hline : Fits self.logDebug peerId
    · simp only [afterLine_of_fits hline, Ending.bind, map_state]
      exact NetworkState.hasPeer_markDisconnected now peerId p self.network
    · simp only [afterLine_of_not_fits hline, Ending.bind]
      rfl
  | mdnsDiscovered peers =>
    have hsame : (self.handleSwarmEvent dials now (.mdnsDiscovered peers)).state.network =
        self.network := by
      apply forPeers_network
      intro found task
      by_cases hline : Fits task.logDebug found.1
      · simp only [afterLine_of_fits hline, Ending.bind, afterLine_state]
      · simp only [afterLine_of_not_fits hline, Ending.bind]
        rfl
    rw [hsame]
  | mdnsExpired peers =>
    have hsame : (self.handleSwarmEvent dials now (.mdnsExpired peers)).state.network =
        self.network := by
      apply forPeers_network
      intro found task
      by_cases hline : Fits task.logTrace found.1
      · simp only [afterLine_of_fits hline, Ending.bind]
        rfl
      · simp only [afterLine_of_not_fits hline, Ending.bind]
        rfl
    rw [hsame]
  | identifyReceived peerId listenAddrs =>
    unfold handleSwarmEvent
    by_cases hline : Fits self.logTrace peerId
    · simp only [afterLine_of_fits hline, Ending.bind]
      rfl
    · simp only [afterLine_of_not_fits hline, Ending.bind]
      rfl
  | tracedPeer peerId =>
    unfold handleSwarmEvent
    rw [afterLine_state]
  | other => rfl

/-- Adding a peer with a host and a port adds it to those that are there. -/
theorem hasPeer_of_addPeer {P A : Type} [DecidableEq P] [PeerId P] [MultiaddrIter A]
    {dials : A → Bool} {now : ℕ} {self next : SwarmTask P A} {peerId : P} {addr : A}
    (hinfo : (SwarmTask.peerInfo peerId addr).isSome = true)
    (h : self.handleDiscoveryCommand dials now (.addPeer peerId addr) = .returned next) (p : P) :
    next.network.hasPeer p = true ↔ p = peerId ∨ self.network.hasPeer p = true := by
  obtain ⟨info, hinfo⟩ := Option.isSome_iff_exists.mp hinfo
  unfold handleDiscoveryCommand at h
  obtain ⟨self₁, hline, h⟩ := bind_eq_returned.mp h
  obtain ⟨-, rfl⟩ := afterLine_eq_returned.mp hline
  simp only [hinfo] at h
  obtain ⟨self₂, hmap, hdial⟩ := bind_eq_returned.mp h
  obtain ⟨-, rfl⟩ := afterLine_eq_returned.mp hdial
  obtain ⟨network, hadd, rfl⟩ := map_eq_returned.mp hmap
  unfold NetworkState.addPeer at hadd
  by_cases hknown : self.network.hasPeer peerId = true
  · rw [if_pos hknown] at hadd
    have hsame : self.network = network := Ending.returned.inj hadd
    rw [← hsame]
    constructor
    · exact Or.inr
    · intro hp
      obtain rfl | hp := hp
      · exact hknown
      · exact hp
  · rw [if_neg hknown] at hadd
    obtain ⟨network₁, hnew, hset⟩ := bind_eq_returned.mp hadd
    obtain ⟨-, rfl⟩ := afterLine_eq_returned.mp hnew
    have hsame : self.network.set peerId (.new now peerId info) = network :=
      Ending.returned.inj hset
    rw [← hsame]
    simp only [NetworkState.hasPeer, NetworkState.lookup_set]
    by_cases hp : p = peerId <;> simp [hp]

/-- Removing a peer leaves the others. -/
theorem hasPeer_of_removePeer {P A : Type} [DecidableEq P] [PeerId P] [MultiaddrIter A]
    {dials : A → Bool} {now : ℕ} {self next : SwarmTask P A} {peerId : P}
    (h : self.handleDiscoveryCommand dials now (.removePeer peerId) = .returned next) {p : P}
    (hp : p ≠ peerId) : next.network.hasPeer p = self.network.hasPeer p := by
  unfold handleDiscoveryCommand at h
  obtain ⟨self₁, hline, h⟩ := bind_eq_returned.mp h
  obtain ⟨-, rfl⟩ := afterLine_eq_returned.mp hline
  obtain ⟨network, hremove, rfl⟩ := map_eq_returned.mp h
  have hlookup := NetworkState.lookup_removePeer peerId self.network p
  simp only [hremove, Ending.state, if_neg hp] at hlookup
  unfold NetworkState.hasPeer
  rw [hlookup]

end SwarmTask

/-- The three tasks beside the state that they share. `logWarn` and `pingTrace` are
levels of the ping loop. `announced` are the peers whose last command added them, and
`cleaned` those that a cleanup has forgotten since they were last added. -/
structure Monitoring (P A : Type) where
  task : SwarmTask P A
  loopAlive : Bool
  pingAlive : Bool
  cleanupAlive : Bool
  pinging : Option P
  logWarn : Bool
  pingTrace : Bool
  now : ℕ
  announced : Finset P
  cleaned : Finset P

namespace Monitoring

/-- What one of the tasks does next. `cleanup` gets the order in which the map lists
the stale peers. -/
inductive Action (P A : Type) where
  | command (dials : A → Bool) (command : DiscoveryCommand P A)
  | swarm (dials : A → Bool) (event : SwarmEvent P A)
  | ping (peerId : P)
  | pong
  | pingFails
  | cleanup (order : List P)

/-- The tasks at their start, over a fresh network state. -/
def start {P A : Type} (localPeerId : P) (config : NetworkConfig)
    (stateDebug stateTrace logInfo logDebug logTrace logWarn pingTrace : Bool) (now : ℕ) :
    Monitoring P A where
  task := ⟨[], NetworkState.new localPeerId config stateDebug stateTrace, logInfo, logDebug,
    logTrace⟩
  loopAlive := true
  pingAlive := true
  cleanupAlive := true
  pinging := none
  logWarn := logWarn
  pingTrace := pingTrace
  now := now
  announced := ∅
  cleaned := ∅

def setNetwork {P A : Type} (network : NetworkState P) (s : Monitoring P A) : Monitoring P A :=
  { s with task := { s.task with network := network } }

/-- The event loop goes on unless its handler panics. -/
def afterLoop {P A : Type} (ending : Ending (SwarmTask P A)) (s : Monitoring P A) :
    Monitoring P A :=
  match ending with
  | .returned task => { s with task := task }
  | .panicked task => { s with task := task, loopAlive := false }

def note {P A : Type} [DecidableEq P] (s : Monitoring P A) :
    DiscoveryCommand P A → Monitoring P A
  | .addPeer peerId _ =>
    { s with announced := insert peerId s.announced, cleaned := s.cleaned.erase peerId }
  | .removePeer peerId => { s with announced := s.announced.erase peerId }
  | .shutdown => s

/-- An address that is added has a host and a port. -/
def Usable {P A : Type} [PeerId P] [MultiaddrIter A] : DiscoveryCommand P A → Prop
  | .addPeer peerId addr => (SwarmTask.peerInfo peerId addr).isSome = true
  | _ => True

instance {P A : Type} [PeerId P] [MultiaddrIter A] (command : DiscoveryCommand P A) :
    Decidable (Usable command) :=
  match command with
  | .addPeer _ _ => inferInstanceAs (Decidable (_ = _))
  | .removePeer _ | .shutdown => isTrue trivial

/-- The ping loop has waited for an answer in vain. A peer that has been removed in the
meantime is only logged. -/
def pingFailed {P A : Type} [DecidableEq P] [PeerId P] (peerId : P) (s : Monitoring P A) :
    Monitoring P A :=
  if s.task.network.hasPeer peerId then
    match PeerId.line s.logWarn peerId with
    | some _ =>
      match s.task.network.markFailure s.now peerId with
      | .returned network => s.setNetwork network
      | .panicked network => { s.setNetwork network with pingAlive := false }
    | none => { s with pingAlive := false }
  else { s with pingAlive := (PeerId.line s.pingTrace peerId).isSome }

/-- A tick of the cleanup loop. -/
def cleanedUp {P A : Type} [DecidableEq P] [PeerId P] (order : List P) (s : Monitoring P A) :
    Monitoring P A :=
  let ending := s.task.network.cleanupStalePeers s.now s.task.network.config.stalePeerMaxAge
    (fun _ => order)
  let gone := order.filter (fun p => !ending.state.hasPeer p)
  { s.setNetwork ending.state with
    cleanupAlive := match ending with
      | .returned _ => true
      | .panicked _ => false
    cleaned := s.cleaned ∪ gone.toFinset }

/-- One action at the current time. -/
def act {P A : Type} [DecidableEq P] [PeerId P] [MultiaddrIter A] (s : Monitoring P A) :
    Action P A → Option (Monitoring P A)
  | .command dials command =>
    if s.loopAlive ∧ Usable command then
      some ((s.afterLoop (s.task.handleDiscoveryCommand dials s.now command)).note command)
    else none
  | .swarm dials event =>
    if s.loopAlive then some (s.afterLoop (s.task.handleSwarmEvent dials s.now event)) else none
  | .ping peerId =>
    if s.pingAlive ∧ s.pinging = none ∧ peerId ≠ s.task.network.localPeerId ∧
        s.task.network.hasPeer peerId ∧ ¬s.task.network.shouldSkipPing s.now peerId then
      some { s with pinging := some peerId }
    else none
  | .pong =>
    match s.pinging with
    | some peerId =>
      some { s.setNetwork (s.task.network.markSuccess s.now peerId) with pinging := none }
    | none => none
  | .pingFails =>
    match s.pinging with
    | some peerId => some { s.pingFailed peerId with pinging := none }
    | none => none
  | .cleanup order =>
    if s.cleanupAlive ∧
        order.Perm (s.task.network.stalePeers s.now s.task.network.config.stalePeerMaxAge) then
      some (s.cleanedUp order)
    else none

/-- An action at a time no earlier than the last one. -/
def step {P A : Type} [DecidableEq P] [PeerId P] [MultiaddrIter A] (s : Monitoring P A)
    (l : ℕ × Action P A) : Option (Monitoring P A) :=
  if s.now ≤ l.1 then act { s with now := l.1 } l.2 else none

/-- While the event loop is alive, an announced peer is there unless it has been cleaned
up. -/
def Accounts {P A : Type} [DecidableEq P] (s : Monitoring P A) : Prop :=
  s.loopAlive = true → ∀ p ∈ s.announced, s.task.network.hasPeer p = true ↔ p ∉ s.cleaned

/-- An action that leaves the peers that are there. -/
theorem Accounts.frame {P A : Type} [DecidableEq P] {s t : Monitoring P A} (hs : s.Accounts)
    (hpeers : ∀ p, t.task.network.hasPeer p = s.task.network.hasPeer p)
    (halive : t.loopAlive = true → s.loopAlive = true) (hannounced : t.announced = s.announced)
    (hcleaned : t.cleaned = s.cleaned) : t.Accounts := by
  intro ht p hp
  rw [hpeers p, hcleaned]
  rw [hannounced] at hp
  exact hs (halive ht) p hp

theorem Accounts.command {P A : Type} [DecidableEq P] [PeerId P] [MultiaddrIter A]
    {s : Monitoring P A} (hs : s.Accounts) (dials : A → Bool) (command : DiscoveryCommand P A)
    (husable : Usable command) (hloop : s.loopAlive = true) :
    ((s.afterLoop (s.task.handleDiscoveryCommand dials s.now command)).note command).Accounts := by
  cases hending : s.task.handleDiscoveryCommand dials s.now command with
  | panicked task =>
    intro halive
    cases command <;> cases halive
  | returned task =>
    intro _ p hp
    cases command with
    | shutdown =>
      obtain rfl := Ending.returned.inj hending
      exact hs hloop p hp
    | addPeer peerId addr =>
      show task.network.hasPeer p = true ↔ p ∉ s.cleaned.erase peerId
      rw [SwarmTask.hasPeer_of_addPeer husable hending p, Finset.mem_erase]
      by_cases heq : p = peerId
      · simp [heq]
      · have hold : p ∈ s.announced := Finset.mem_of_mem_insert_of_ne hp heq
        simp [heq, hs hloop p hold]
    | removePeer peerId =>
      obtain ⟨hne, hold⟩ := Finset.mem_erase.mp hp
      show task.network.hasPeer p = true ↔ p ∉ s.cleaned
      rw [SwarmTask.hasPeer_of_removePeer hending hne]
      exact hs hloop p hold

theorem hasPeer_pingFailed {P A : Type} [DecidableEq P] [PeerId P] (peerId p : P)
    (s : Monitoring P A) :
    (s.pingFailed peerId).task.network.hasPeer p = s.task.network.hasPeer p ∧
      (s.pingFailed peerId).loopAlive = s.loopAlive ∧
      (s.pingFailed peerId).announced = s.announced ∧
      (s.pingFailed peerId).cleaned = s.cleaned := by
  have hmark := NetworkState.hasPeer_markFailure s.now peerId p s.task.network
  unfold pingFailed
  split_ifs
  · cases PeerId.line s.logWarn peerId with
    | none => exact ⟨rfl, rfl, rfl, rfl⟩
    | some u =>
      cases hending : s.task.network.markFailure s.now peerId with
      | returned network =>
        rw [hending] at hmark
        exact ⟨hmark, rfl, rfl, rfl⟩
      | panicked network =>
        rw [hending] at hmark
        exact ⟨hmark, rfl, rfl, rfl⟩
  · exact ⟨rfl, rfl, rfl, rfl⟩

/-- What a cleanup takes away it notes. -/
theorem Accounts.cleanup {P A : Type} [DecidableEq P] [PeerId P] {s : Monitoring P A}
    (hs : s.Accounts) (order : List P) : (s.cleanedUp order).Accounts := by
  intro halive p hp
  obtain ⟨hkeeps, hremoves⟩ := NetworkState.hasPeer_removeStale order p s.task.network
  have hbefore := hs halive p hp
  show (NetworkState.removeStale order s.task.network).state.hasPeer p = true ↔
    p ∉ s.cleaned ∪ (order.filter (fun p =>
      !(NetworkState.removeStale order s.task.network).state.hasPeer p)).toFinset
  rw [Finset.mem_union, List.mem_toFinset, List.mem_filter, not_or]
  cases hafter : (NetworkState.removeStale order s.task.network).state.hasPeer p with
  | true =>
    have hold := hbefore.mp (hkeeps hafter)
    simp [hold]
  | false =>
    refine iff_of_false Bool.false_ne_true ?_
    rintro ⟨hnot, hout⟩
    exact hout ⟨hremoves (hbefore.mpr hnot) hafter, rfl⟩

theorem Accounts.act {P A : Type} [DecidableEq P] [PeerId P] [MultiaddrIter A]
    {s t : Monitoring P A} {action : Action P A} (hs : s.Accounts)
    (h : s.act action = some t) : t.Accounts := by
  cases action with
  | command dials command =>
    simp only [Monitoring.act] at h
    split_ifs at h with hok
    obtain rfl := Option.some.inj h
    exact hs.command dials command hok.2 hok.1
  | swarm dials event =>
    simp only [Monitoring.act] at h
    split_ifs at h with halive
    obtain rfl := Option.some.inj h
    have hpeers := SwarmTask.handleSwarmEvent_hasPeer dials s.now s.task event
    unfold afterLoop
    cases hending : s.task.handleSwarmEvent dials s.now event with
    | returned task =>
      rw [hending] at hpeers
      exact hs.frame hpeers id rfl rfl
    | panicked task =>
      rw [hending] at hpeers
      exact hs.frame hpeers (fun _ => halive) rfl rfl
  | ping peerId =>
    simp only [Monitoring.act] at h
    split_ifs at h
    obtain rfl := Option.some.inj h
    exact hs.frame (fun _ => rfl) id rfl rfl
  | pong =>
    simp only [Monitoring.act] at h
    split at h
    · rename_i peerId hpinging
      obtain rfl := Option.some.inj h
      exact hs.frame (fun p => NetworkState.hasPeer_markSuccess s.now peerId p s.task.network) id
        rfl rfl
    · cases h
  | pingFails =>
    simp only [Monitoring.act] at h
    split at h
    · rename_i peerId hpinging
      obtain rfl := Option.some.inj h
      obtain ⟨-, hloop, hannounced, hcleaned⟩ := hasPeer_pingFailed peerId peerId s
      refine hs.frame (fun p => (hasPeer_pingFailed peerId p s).1) ?_ hannounced hcleaned
      intro halive
      rw [← hloop]
      exact halive
    · cases h
  | cleanup order =>
    simp only [Monitoring.act] at h
    split_ifs at h
    obtain rfl := Option.some.inj h
    exact hs.cleanup order

theorem Accounts.step {P A : Type} [DecidableEq P] [PeerId P] [MultiaddrIter A]
    {s t : Monitoring P A} {l : ℕ × Action P A} (hs : s.Accounts) (h : s.step l = some t) :
    t.Accounts := by
  unfold Monitoring.step at h
  split_ifs at h
  have hnow : Accounts { s with now := l.1 } := hs
  exact hnow.act h

/-- In every run, when a connection to an announced peer is established, the peer is
connected in the network state right after exactly when no cleanup has forgotten it
since it was last added and no line about it panics, unless it was connected already.
It is then there and not skipped by pings. -/
theorem recovered_iff {P A : Type} [DecidableEq P] [PeerId P] [MultiaddrIter A]
    (localPeerId : P) (config : NetworkConfig)
    (stateDebug stateTrace logInfo logDebug logTrace logWarn pingTrace : Bool) (t₀ : ℕ)
    (labels : List (ℕ × Action P A)) (s t : Monitoring P A) (p : P) (now : ℕ) (dials : A → Bool)
    (hrun : Run (StepOf step) (start localPeerId config stateDebug stateTrace logInfo logDebug
      logTrace logWarn pingTrace t₀) labels s)
    (hannounced : p ∈ s.announced)
    (hstep : s.step (now, .swarm dials (.connectionEstablished p)) = some t) :
    (t.task.network.Monitored p ↔ p ∉ s.cleaned ∧
      (Fits s.task.logInfo p ∧ Fits s.task.network.logTrace p ∨ s.task.network.Monitored p)) ∧
    (t.task.network.Monitored p → t.task.network.hasPeer p = true ∧
      ∀ later, t.task.network.shouldSkipPing later p = false) := by
  refine ⟨?_, fun h => ⟨h.hasPeer, h.shouldSkipPing⟩⟩
  have haccounts : s.Accounts := by
    refine hrun.invariant (I := Accounts) (fun _ _ _ hs h => hs.step h) ?_
    intro _ q hq
    cases hq
  simp only [step, act] at hstep
  split_ifs at hstep with hnow halive
  obtain rfl := Option.some.inj hstep
  have hknown := haccounts halive p hannounced
  simp only [SwarmTask.handleSwarmEvent]
  by_cases hinfo : Fits s.task.logInfo p
  · simp only [afterLine_of_fits hinfo, Ending.bind]
    cases hpeer : s.task.network.peers.lookup p with
    | none =>
      have hcleaned : ¬p ∉ s.cleaned := by
        rw [← hknown, NetworkState.hasPeer, hpeer]
        exact Bool.false_ne_true
      have hmark : s.task.network.markConnected now p = .returned s.task.network := by
        unfold NetworkState.markConnected
        rw [hpeer]
      rw [hmark]
      refine iff_of_false ?_ (fun h => hcleaned h.1)
      intro hmonitored
      have hpresent := hmonitored.hasPeer
      exact hcleaned (hknown.mp hpresent)
    | some peer =>
      have hcleaned : p ∉ s.cleaned := by
        rw [← hknown, NetworkState.hasPeer, hpeer]
        rfl
      rw [and_iff_right hcleaned, and_iff_right hinfo]
      by_cases htrace : Fits s.task.network.logTrace p
      · rw [NetworkState.markConnected_of_fits now hpeer htrace]
        refine iff_of_true ?_ (Or.inl htrace)
        show ((s.task.network.set p (peer.markConnected now)).peers.lookup p).map _ = _
        rw [NetworkState.lookup_set, if_pos rfl]
        rfl
      · rw [NetworkState.markConnected_of_not_fits now hpeer htrace, or_iff_right htrace]
        rfl
  · simp only [afterLine_of_not_fits hinfo, Ending.bind]
    have hnot : ¬(Fits s.task.logInfo p ∧ Fits s.task.network.logTrace p) := fun h => hinfo h.1
    rw [or_iff_right hnot]
    constructor
    · exact fun h => ⟨hknown.mp (NetworkState.Monitored.hasPeer h), h⟩
    · exact fun h => h.2

/-- Ten failed pings, 100 seconds apart. -/
def tenFailures (b : Base58Text) : List (ℕ × Action Base58Text Ip4Text) :=
  (List.range 10).flatMap (fun k =>
    [(RestartPolicy.fromSecs (100 * k), .ping b), (RestartPolicy.fromSecs (100 * k), .pingFails)])

/-- A peer fails, and connects before a cleanup. -/
theorem recovered_iff_failed :
    let b := peerOf "12D3KooWBBBBBBBBBBBBBBBBBBBBBBBBBBBBBBBBBBBBBBBBBBBB"
    ∃ s t : Monitoring Base58Text Ip4Text,
      s.step (RestartPolicy.fromSecs 2000, .swarm (fun _ => true) (.connectionEstablished b)) =
        some t ∧ ¬s.task.network.Monitored b ∧ b ∉ s.cleaned ∧ t.task.network.Monitored b := by
  intro b
  let a := peerOf "12D3KooWAAAAAAAAAAAAAAAAAAAAAAAAAAAAAAAAAAAAAAAAAAAA"
  let labels : List (ℕ × Action Base58Text Ip4Text) :=
    (0, .command (fun _ => true) (.addPeer b ⟨"/ip4/10.0.0.2/tcp/5000"⟩)) :: tenFailures b
  obtain ⟨s, hs, hannounced, hfailed, hcleaned, hfits, hsome⟩ :
      ∃ s ∈ labels.foldlM step (start a NetworkConfig.default true true true true true true true 0),
        b ∈ s.announced ∧ ¬s.task.network.Monitored b ∧ b ∉ s.cleaned ∧
        (Fits s.task.logInfo b ∧ Fits s.task.network.logTrace b) ∧
        (s.step (RestartPolicy.fromSecs 2000, .swarm (fun _ => true)
          (.connectionEstablished b))).isSome = true := by
    decide +kernel
  obtain ⟨t, ht⟩ := Option.isSome_iff_exists.mp hsome
  have hrecovered := recovered_iff a NetworkConfig.default true true true true true true true 0
    labels s t b _ _ (Run.of_foldlM hs) hannounced ht
  exact ⟨s, t, ht, hfailed, hcleaned, hrecovered.1.mpr ⟨hcleaned, Or.inl hfits⟩⟩

/-- A peer fails, is cleaned up and connects again: it stays unknown. -/
theorem not_recovered : ¬∀ (localPeerId : Base58Text) (config : NetworkConfig)
    (stateDebug stateTrace logInfo logDebug logTrace logWarn pingTrace : Bool) (t₀ : ℕ)
    (labels : List (ℕ × Action Base58Text Ip4Text)) (s t : Monitoring Base58Text Ip4Text)
    (p : Base58Text) (now : ℕ) (dials : Ip4Text → Bool),
    Run (StepOf step) (start localPeerId config stateDebug stateTrace logInfo logDebug
      logTrace logWarn pingTrace t₀) labels s → p ∈ s.announced →
    s.step (now, .swarm dials (.connectionEstablished p)) = some t →
      t.task.network.Monitored p := by
  intro hclaim
  let a := peerOf "12D3KooWAAAAAAAAAAAAAAAAAAAAAAAAAAAAAAAAAAAAAAAAAAAA"
  let b := peerOf "12D3KooWBBBBBBBBBBBBBBBBBBBBBBBBBBBBBBBBBBBBBBBBBBBB"
  let labels : List (ℕ × Action Base58Text Ip4Text) :=
    (0, .command (fun _ => true) (.addPeer b ⟨"/ip4/10.0.0.2/tcp/5000"⟩)) :: tenFailures b ++
      [(RestartPolicy.fromSecs 1260, .cleanup [b])]
  obtain ⟨s, hs, hannounced, t, ht, hnot⟩ :
      ∃ s ∈ labels.foldlM step
        (start a NetworkConfig.default false false true false false true false 0),
      b ∈ s.announced ∧ ∃ t ∈ s.step (RestartPolicy.fromSecs 2000,
        .swarm (fun _ => true) (.connectionEstablished b)), ¬t.task.network.Monitored b := by
    decide +kernel
  exact hnot (hclaim a NetworkConfig.default false false true false false true false 0 labels s t b
    _ _ (Run.of_foldlM hs) hannounced ht)

end Monitoring
end Neolaas
