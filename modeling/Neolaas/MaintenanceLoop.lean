import Neolaas.DiscoveryController

/-!
# The maintenance loop between its watch and its lease

The loop hears of the end of its stream and of its lease only through the answers it
gets. An answer that it takes for a success leaves it with a stream that has ended or
a lease that is gone.
-/
namespace Neolaas
open LabelledRuns PeerId

namespace RunPoint

/-- The run may still come to the loop or is in it. -/
def Listens : RunPoint → Prop
  | leaseRevoke _ _ | deletePropagation _ | returned _ | panicked => False
  | _ => True

/-- The node is not registered yet. -/
def Registering : RunPoint → Prop
  | status | leaseGrant | leaseKeepAlive _ | put _ => True
  | _ => False

end RunPoint

namespace DiscoveryTasks

/-- The keep-alive task and its queued signals are as before. -/
structure SameLease {P A : Type} (s t : DiscoveryTasks P A) : Prop where
  keepAlive : t.keepAlive = s.keepAlive
  internalShutdown : t.internalShutdown = s.internalShutdown

/-- What a step does to the loop, by what has answered. -/
inductive Goes {P A : Type} [SerdeJson] [DecidableEq P] [PeerId P] [Multiaddr A]
    (s : DiscoveryTasks P A) (l : Label P) (t : DiscoveryTasks P A) : Prop
  | keepAlive (round : KeepAliveRound) (hlabel : l = .keepAlive round)
      (hrunning : s.keepAlive = .running)
      (hnext : t = if round = .ok then s
        else { s with keepAlive := .stopped, internalShutdown := s.internalShutdown + 1 })
  | spawns (leaseId : ℤ) (hlabel : l = .put true) (hpoint : s.point = .put leaseId)
      (hnext : t = s.registered leaseId)
  | opens (hlabel : l = .watch true) (hsame : s.SameLease t) (hlistens : s.point.Listens)
      (hregistering : ¬t.point.Registering)
  | polls (message : Option (Option WatchResponse)) (iter : Finset P → List P)
      (hlabel : l = .watchMessage message iter) (hpoint : s.point = .select)
      (hsame : s.SameLease t) (hregistering : ¬t.point.Registering)
      (hstays : t.point = .select ↔ ∃ m phases, message = some m ∧
        DiscoveryPhases.processWatchEvent iter m s.controller.phases = .ok phases)
  | onward (hlabel : l ≠ .watch true ∧ (∀ message iter, l ≠ .watchMessage message iter) ∧
        ∀ round, l ≠ .keepAlive round) (hsame : s.SameLease t)
      (hlistens : t.point.Listens → s.point.Listens)
      (hregistering : t.point.Registering → s.point.Registering)
      (hselect : t.point = .select → s.point = .select)
  | ends (hlabel : l ≠ .watch true ∧ (∀ message iter, l ≠ .watchMessage message iter) ∧
        ∀ round, l ≠ .keepAlive round) (hkeepAlive : t.keepAlive = s.keepAlive)
      (hlistens : ¬t.point.Listens)

theorem signalSwarm_ends {P A : Type} (cause : ShutdownCause) (s : DiscoveryTasks P A) :
    ¬(s.signalSwarm cause).point.Listens := by
  obtain ⟨⟨ok, hpoint⟩, -⟩ := s.signalSwarm_spec cause
  rw [hpoint]
  exact id

theorem shutDown_ends {P A : Type} (cause : ShutdownCause) (s : DiscoveryTasks P A) :
    (s.shutDown cause).keepAlive = s.keepAlive ∧ ¬(s.shutDown cause).point.Listens := by
  unfold shutDown
  cases s.controller.leaseId with
  | some leaseId => exact ⟨rfl, id⟩
  | none =>
    obtain ⟨-, -, -, -, hkeepAlive, -⟩ := (s.enter .terminating s.point).signalSwarm_spec cause
    exact ⟨hkeepAlive, signalSwarm_ends cause _⟩

theorem takeReceivers_goes {P A : Type} (s : DiscoveryTasks P A) :
    s.SameLease s.takeReceivers ∧ ¬s.takeReceivers.point.Registering := by
  unfold takeReceivers
  by_cases hrx : s.controller.shutdownRx = true
  · by_cases hirx : s.controller.internalShutdownRx = true
    · simp only [hrx, hirx, if_true]
      exact ⟨⟨rfl, rfl⟩, id⟩
    · simp only [hrx, hirx, if_true, if_false, Bool.false_eq_true]
      exact ⟨⟨rfl, rfl⟩, id⟩
  · simp only [hrx, if_false, Bool.false_eq_true]
    exact ⟨⟨rfl, rfl⟩, id⟩

/-- The first connection is answered. -/
theorem status_goes {P A : Type} [SerdeJson] [DecidableEq P] [PeerId P] [Multiaddr A]
    {s t : DiscoveryTasks P A} {ok : Bool} (h : s.step (.status ok) = some t) :
    Goes s (.status ok) t := by
  cases hp : s.point <;> simp only [step, hp, reduceCtorEq] at h
  cases ok with
  | true =>
    obtain rfl := Option.some.inj h
    exact .onward (by simp) ⟨rfl, rfl⟩ (by simp [hp, RunPoint.Listens])
      (by simp [hp, RunPoint.Registering]) (by simp [enter])
  | false =>
    obtain rfl := Option.some.inj h
    exact .ends (by simp) rfl id

/-- The lease is granted, or is not. -/
theorem leaseGrant_goes {P A : Type} [SerdeJson] [DecidableEq P] [PeerId P] [Multiaddr A]
    {s t : DiscoveryTasks P A} {leaseId : Option ℤ} (h : s.step (.leaseGrant leaseId) = some t) :
    Goes s (.leaseGrant leaseId) t := by
  cases hp : s.point <;> simp only [step, hp, reduceCtorEq] at h
  cases leaseId with
  | some leaseId =>
    obtain rfl := Option.some.inj h
    exact .onward (by simp) ⟨rfl, rfl⟩ (by simp [hp, RunPoint.Listens])
      (by simp [hp, RunPoint.Registering]) (by simp [goTo])
  | none =>
    obtain rfl := Option.some.inj h
    exact .ends (by simp) rfl id

/-- The keep-alive stream is opened, or is not. -/
theorem leaseKeepAlive_goes {P A : Type} [SerdeJson] [DecidableEq P] [PeerId P] [Multiaddr A]
    {s t : DiscoveryTasks P A} {ok : Bool} (h : s.step (.leaseKeepAlive ok) = some t) :
    Goes s (.leaseKeepAlive ok) t := by
  cases hp : s.point <;> simp only [step, hp, reduceCtorEq] at h
  cases ok with
  | true =>
    obtain rfl := Option.some.inj h
    exact .onward (by simp) ⟨rfl, rfl⟩ (by simp [hp, RunPoint.Listens])
      (by simp [hp, RunPoint.Registering]) (by simp [goTo])
  | false =>
    obtain rfl := Option.some.inj h
    exact .ends (by simp) rfl id

/-- The node's own record is written, and the keep-alive task starts. -/
theorem put_goes {P A : Type} [SerdeJson] [DecidableEq P] [PeerId P] [Multiaddr A]
    {s t : DiscoveryTasks P A} {ok : Bool} (h : s.step (.put ok) = some t) :
    Goes s (.put ok) t := by
  cases hp : s.point <;> simp only [step, hp, reduceCtorEq] at h
  cases ok with
  | true =>
    obtain rfl := Option.some.inj h
    exact .spawns _ rfl hp rfl
  | false =>
    obtain rfl := Option.some.inj h
    exact .ends (by simp) rfl id

/-- The snapshot is read. -/
theorem get_goes {P A : Type} [SerdeJson] [DecidableEq P] [PeerId P] [Multiaddr A]
    {s t : DiscoveryTasks P A} {kvs : Option (List KeyValue)} {iter : Finset P → List P}
    (h : s.step (.get kvs iter) = some t) : Goes s (.get kvs iter) t := by
  cases hp : s.point <;> cases kvs <;> simp only [step, hp, reduceCtorEq] at h
  · obtain rfl := Option.some.inj h
    exact .ends (by simp) rfl id
  · rename_i kvs
    cases hout : DiscoveryPhases.converge iter kvs s.controller.phases with
    | ok phases =>
      rw [hout] at h
      obtain rfl := Option.some.inj h
      exact .onward (by simp) ⟨rfl, rfl⟩ (by simp [hp, RunPoint.Listens])
        (by simp [converged, RunPoint.Registering]) (by simp [converged])
    | error phases =>
      rw [hout] at h
      obtain rfl := Option.some.inj h
      exact .ends (by simp) rfl id
    | panicked =>
      rw [hout] at h
      obtain rfl := Option.some.inj h
      exact .ends (by simp) rfl id

/-- The watch is opened, the first time or again. -/
theorem watch_goes {P A : Type} [SerdeJson] [DecidableEq P] [PeerId P] [Multiaddr A]
    {s t : DiscoveryTasks P A} {ok : Bool} (h : s.step (.watch ok) = some t) :
    Goes s (.watch ok) t := by
  cases ok with
  | true =>
    cases hp : s.point <;> simp only [step, hp, reduceCtorEq] at h
    · obtain rfl := Option.some.inj h
      obtain ⟨hsame, hregistering⟩ := s.takeReceivers_goes
      exact .opens rfl hsame (by simp [hp, RunPoint.Listens]) hregistering
    · obtain rfl := Option.some.inj h
      exact .opens rfl ⟨rfl, rfl⟩ (by simp [hp, RunPoint.Listens]) id
  | false =>
    cases hp : s.point <;> simp only [step, hp, reduceCtorEq] at h
    · obtain rfl := Option.some.inj h
      exact .ends (by simp) rfl id
    · obtain rfl := Option.some.inj h
      exact .ends (by simp) rfl id

/-- The watch stream answers. -/
theorem watchMessage_goes {P A : Type} [SerdeJson] [DecidableEq P] [PeerId P] [Multiaddr A]
    {s t : DiscoveryTasks P A} {message : Option (Option WatchResponse)}
    {iter : Finset P → List P} (h : s.step (.watchMessage message iter) = some t) :
    Goes s (.watchMessage message iter) t := by
  cases hp : s.point <;> cases message <;> simp only [step, hp, reduceCtorEq] at h
  · obtain rfl := Option.some.inj h
    exact .polls none iter rfl hp ⟨rfl, rfl⟩ id (by simp [goTo])
  · rename_i message
    cases hout : DiscoveryPhases.processWatchEvent iter message s.controller.phases with
    | ok phases =>
      rw [hout] at h
      obtain rfl := Option.some.inj h
      refine .polls (some message) iter rfl hp ⟨rfl, rfl⟩ ?_ ?_
      · simp [setPhases, hp, RunPoint.Registering]
      · exact iff_of_true hp ⟨message, phases, rfl, hout⟩
    | error phases =>
      rw [hout] at h
      obtain rfl := Option.some.inj h
      exact .polls (some message) iter rfl hp ⟨rfl, rfl⟩ id (by simp [goTo, hout])
    | panicked =>
      rw [hout] at h
      obtain rfl := Option.some.inj h
      exact .polls (some message) iter rfl hp ⟨rfl, rfl⟩ id (by simp [goTo, hout])

/-- A signal wakes the loop, which shuts down. -/
theorem wakes_goes {P A : Type} [SerdeJson] [DecidableEq P] [PeerId P] [Multiaddr A]
    {s t : DiscoveryTasks P A} {l : Label P}
    (hlabel : l = .recvShutdown ∨ l = .recvInternalShutdown) (h : s.step l = some t) :
    Goes s l t := by
  obtain rfl | rfl := hlabel
  · cases hp : s.point <;> simp only [step, hp, reduceCtorEq] at h
    split_ifs at h
    obtain rfl := Option.some.inj h
    obtain ⟨hkeepAlive, hends⟩ :=
      ({ s with shutdown := s.shutdown - 1 } : DiscoveryTasks P A).shutDown_ends .external
    exact .ends (by simp) hkeepAlive hends
  · cases hp : s.point <;> simp only [step, hp, reduceCtorEq] at h
    split_ifs at h
    obtain rfl := Option.some.inj h
    obtain ⟨hkeepAlive, hends⟩ := ({ s with internalShutdown := s.internalShutdown - 1 } :
      DiscoveryTasks P A).shutDown_ends .keepAliveFailure
    exact .ends (by simp) hkeepAlive hends

/-- The delay before the watch is opened again. -/
theorem reconnectDelay_goes {P A : Type} [SerdeJson] [DecidableEq P] [PeerId P] [Multiaddr A]
    {s t : DiscoveryTasks P A} (h : s.step .reconnectDelay = some t) :
    Goes s .reconnectDelay t := by
  cases hp : s.point <;> simp only [step, hp, reduceCtorEq] at h
  obtain rfl := Option.some.inj h
  exact .onward (by simp) ⟨rfl, rfl⟩ (by simp [hp, RunPoint.Listens])
    (by simp [goTo, RunPoint.Registering]) (by simp [goTo])

/-- The shutdown goes on to its end. -/
theorem shuttingDown_goes {P A : Type} [SerdeJson] [DecidableEq P] [PeerId P] [Multiaddr A]
    {s t : DiscoveryTasks P A} {l : Label P}
    (hlabel : (∃ revoked, l = .leaseRevoke revoked) ∨ l = .deletePropagation)
    (h : s.step l = some t) : Goes s l t := by
  obtain ⟨revoked, rfl⟩ | rfl := hlabel
  · cases hp : s.point <;> simp only [step, hp, reduceCtorEq] at h
    obtain rfl := Option.some.inj h
    exact .ends (by simp) rfl id
  · cases hp : s.point <;> simp only [step, hp, reduceCtorEq] at h
    rename_i cause
    obtain rfl := Option.some.inj h
    obtain ⟨-, -, -, -, hkeepAlive, -⟩ := s.signalSwarm_spec cause
    exact .ends (by simp) hkeepAlive (signalSwarm_ends cause s)

/-- The keep-alive task goes round once. -/
theorem keepAlive_goes {P A : Type} [SerdeJson] [DecidableEq P] [PeerId P] [Multiaddr A]
    {s t : DiscoveryTasks P A} {round : KeepAliveRound} (h : s.step (.keepAlive round) = some t) :
    Goes s (.keepAlive round) t := by
  rw [step_keepAlive] at h
  split_ifs at h with hrunning hok
  · obtain rfl := Option.some.inj h
    exact .keepAlive round rfl hrunning (if_pos hok).symm
  · obtain rfl := Option.some.inj h
    exact .keepAlive round rfl hrunning (if_neg hok).symm

/-- A step of the holders of the other ends of the channels. -/
theorem beside_goes {P A : Type} [SerdeJson] [DecidableEq P] [PeerId P] [Multiaddr A]
    {s t : DiscoveryTasks P A} {l : Label P}
    (hlabel : l = .sendShutdown ∨ l = .dropShutdownTx ∨ l = .dropSwarmRx)
    (h : s.step l = some t) : Goes s l t := by
  obtain rfl | rfl | rfl := hlabel
  · rw [step_sendShutdown] at h
    split_ifs at h
    obtain rfl := Option.some.inj h
    exact .onward (by simp) ⟨rfl, rfl⟩ id id id
  · rw [step_dropShutdownTx] at h
    obtain rfl := Option.some.inj h
    exact .onward (by simp) ⟨rfl, rfl⟩ id id id
  · rw [step_dropSwarmRx] at h
    obtain rfl := Option.some.inj h
    exact .onward (by simp) ⟨rfl, rfl⟩ id id id

theorem step_goes {P A : Type} [SerdeJson] [DecidableEq P] [PeerId P] [Multiaddr A]
    {s t : DiscoveryTasks P A} {l : Label P} (h : s.step l = some t) : Goes s l t := by
  cases l with
  | status ok => exact status_goes h
  | leaseGrant leaseId => exact leaseGrant_goes h
  | leaseKeepAlive ok => exact leaseKeepAlive_goes h
  | put ok => exact put_goes h
  | get kvs iter => exact get_goes h
  | watch ok => exact watch_goes h
  | watchMessage message iter => exact watchMessage_goes h
  | recvShutdown => exact wakes_goes (Or.inl rfl) h
  | recvInternalShutdown => exact wakes_goes (Or.inr rfl) h
  | reconnectDelay => exact reconnectDelay_goes h
  | leaseRevoke revoked => exact shuttingDown_goes (Or.inl ⟨revoked, rfl⟩) h
  | deletePropagation => exact shuttingDown_goes (Or.inr rfl) h
  | keepAlive round => exact keepAlive_goes h
  | sendShutdown => exact beside_goes (Or.inl rfl) h
  | dropShutdownTx => exact beside_goes (Or.inr (Or.inl rfl)) h
  | dropSwarmRx => exact beside_goes (Or.inr (Or.inr rfl)) h

end DiscoveryTasks

/-- What the controller's watch stream has come to. -/
inductive StreamState where
  | unopened
  | live
  | cancelled
  | failed
  | ended
  deriving DecidableEq

/-- The stream after it has answered. -/
def StreamState.after : Option (Option WatchResponse) → StreamState → StreamState
  | none, _ => .failed
  | some none, _ => .ended
  | some (some resp), stream => if resp.canceled then .cancelled else stream

/-- The controller beside its watch stream. -/
structure WatchedTasks (P A : Type) where
  tasks : DiscoveryTasks P A
  stream : StreamState

namespace WatchedTasks
open DiscoveryTasks

def start {P A : Type} (clusterId : String) (localPeerId : P) (localAddr : A) (logDebug : Bool) :
    WatchedTasks P A where
  tasks := .new clusterId localPeerId localAddr logDebug
  stream := .unopened

/-- The stream after a step. Each watch that is opened has a stream of its own. -/
def streamAfter {P : Type} (stream : StreamState) : Label P → StreamState
  | .watch true => .live
  | .watchMessage message _ => stream.after message
  | _ => stream

/-- An answer that the stream cannot give: one that has ended yields its end for ever. -/
def impossible {P : Type} (stream : StreamState) : Label P → Bool
  | .watchMessage (some none) _ => false
  | .watchMessage _ _ => stream = .ended
  | _ => false

def step {P A : Type} [SerdeJson] [DecidableEq P] [PeerId P] [Multiaddr A]
    (s : WatchedTasks P A) (l : Label P) : Option (WatchedTasks P A) :=
  if impossible s.stream l then none
  else (s.tasks.step l).map (fun tasks => ⟨tasks, streamAfter s.stream l⟩)

/-- The loop polls no stream but one that is live. -/
def PollsLive {P A : Type} (s : WatchedTasks P A) : Prop :=
  s.tasks.point = .select → s.stream = .live

/-- The step is not the end of the stream. -/
def NotEnd {P A : Type} (_s : WatchedTasks P A) (l : Label P) : Prop :=
  ∀ iter, l ≠ .watchMessage (some none) iter

instance {P A : Type} (s : WatchedTasks P A) (l : Label P) : Decidable (s.NotEnd l) :=
  match l with
  | .watchMessage (some none) iter => isFalse (fun h => h iter rfl)
  | .watchMessage none _ | .watchMessage (some (some _)) _ => isTrue (by simp [NotEnd])
  | .status _ | .leaseGrant _ | .leaseKeepAlive _ | .put _ | .get _ _ | .watch _
  | .recvShutdown | .recvInternalShutdown | .reconnectDelay | .leaseRevoke _
  | .deletePropagation | .keepAlive _ | .sendShutdown | .dropShutdownTx | .dropSwarmRx =>
    isTrue (by simp [NotEnd])

/-- A step goes on to poll live streams only exactly when it is not the end of the one
it has polled. -/
theorem step_pollsLive {P A : Type} [SerdeJson] [DecidableEq P] [PeerId P] [Multiaddr A]
    {s t : WatchedTasks P A} {l : Label P} (hs : s.PollsLive) (h : s.step l = some t) :
    t.PollsLive ↔ s.NotEnd l := by
  unfold step at h
  split_ifs at h
  obtain ⟨tasks, hstep, rfl⟩ := Option.map_eq_some_iff.mp h
  have hsame : (∀ message iter, l ≠ .watchMessage message iter) → l ≠ .watch true →
      streamAfter s.stream l = s.stream := by
    intro hmessage hwatch
    cases l with
    | watchMessage message iter => exact absurd rfl (hmessage message iter)
    | watch ok =>
      cases ok with
      | true => exact absurd rfl hwatch
      | false => rfl
    | _ => rfl
  cases step_goes hstep with
  | keepAlive round hlabel hrunning hnext =>
    obtain rfl := hlabel
    refine iff_of_true ?_ (by simp [NotEnd])
    intro hpoint
    apply hs
    rw [hnext] at hpoint
    split_ifs at hpoint
    · exact hpoint
    · exact hpoint
  | spawns leaseId hlabel hpoint hnext =>
    obtain rfl := hlabel
    refine iff_of_true ?_ (by simp [NotEnd])
    intro hselect
    rw [hnext] at hselect
    cases hselect
  | opens hlabel hlease hlistens hregistering =>
    obtain rfl := hlabel
    exact iff_of_true (fun _ => rfl) (by simp [NotEnd])
  | polls message iter hlabel hpoint hlease hregistering hstays =>
    obtain rfl := hlabel
    match message with
    | none =>
      refine iff_of_true ?_ (by simp [NotEnd])
      intro hselect
      obtain ⟨m, phases, hm, -⟩ := hstays.mp hselect
      cases hm
    | some none =>
      refine iff_of_false ?_ (fun hnot => hnot iter rfl)
      intro hlive
      have hselect := hstays.mpr ⟨none, s.tasks.controller.phases, rfl, rfl⟩
      cases hlive hselect
    | some (some resp) =>
      refine iff_of_true ?_ (by simp [NotEnd])
      intro hselect
      obtain ⟨m, phases, hm, hok⟩ := hstays.mp hselect
      obtain rfl := Option.some.inj hm
      show (if resp.canceled then _ else s.stream) = _
      by_cases hcanceled : resp.canceled = true
      · simp [DiscoveryPhases.processWatchEvent, hcanceled] at hok
      · rw [if_neg hcanceled]
        exact hs hpoint
  | onward hlabel hlease hlistens hregistering hselect =>
    refine iff_of_true ?_ (fun iter => hlabel.2.1 _ iter)
    intro hpoint
    show streamAfter s.stream l = .live
    rw [hsame hlabel.2.1 hlabel.1]
    exact hs (hselect hpoint)
  | ends hlabel hkeepAlive hlistens =>
    refine iff_of_true ?_ (fun iter => hlabel.2.1 _ iter)
    intro hpoint
    have hpoint' : tasks.point = .select := hpoint
    rw [hpoint'] at hlistens
    exact absurd trivial hlistens

/-- In every run in which no stream ends, a stream that has been cancelled or has failed
is not polled again. A next step keeps this exactly when it is not the end of the
stream. -/
theorem dead_watch_replaced {P A : Type} [SerdeJson] [DecidableEq P] [PeerId P] [Multiaddr A]
    (clusterId : String) (localPeerId : P) (localAddr : A) (logDebug : Bool)
    (labels : List (Label P)) (s : WatchedTasks P A)
    (h : Run (Guarded NotEnd (StepOf step)) (start clusterId localPeerId localAddr logDebug)
      labels s) :
    s.PollsLive ∧ ∀ l t, s.step l = some t → (t.PollsLive ↔ s.NotEnd l) := by
  have hlive : s.PollsLive := by
    refine h.invariant (I := PollsLive) ?_ ?_
    · intro s l t hs hst
      exact (step_pollsLive hs hst.2).mpr hst.1
    · intro hpoint
      cases hpoint
  exact ⟨hlive, fun l t hst => step_pollsLive hlive hst⟩

/-- The labels of a registration up to the first poll of the stream. -/
def untilSelect (a : Base58Text) : List (Label Base58Text) :=
  [.status true, .leaseGrant (some 7), .leaseKeepAlive true, .put true,
    .get (some []) (fun _ => [a]), .watch true]

/-- A cancelled stream is replaced before the next poll. -/
theorem dead_watch_replaced_cancelled :
    let _ : SerdeJson := SerdeJson.knowing []
    ∃ (localPeerId : Base58Text) (labels : List (Label Base58Text))
      (s : WatchedTasks Base58Text Ip4Text),
      Run (Guarded NotEnd (StepOf step)) (start "lab" localPeerId ⟨"/ip4/10.0.0.1/tcp/5000"⟩ false)
        labels s ∧
      (.watchMessage (some (some ⟨true, []⟩)) (fun _ => [])) ∈ labels ∧
      s.tasks.point = .select ∧ s.PollsLive := by
  intro _
  let a := peerOf "12D3KooWAAAAAAAAAAAAAAAAAAAAAAAAAAAAAAAAAAAAAAAAAAAA"
  let s₀ : WatchedTasks Base58Text Ip4Text := start "lab" a ⟨"/ip4/10.0.0.1/tcp/5000"⟩ false
  let labels : List (Label Base58Text) := untilSelect a ++
    [.watchMessage (some (some ⟨true, []⟩)) (fun _ => []), .reconnectDelay, .watch true]
  obtain ⟨s, hrun, hpoint⟩ : ∃ s ∈ labels.foldlM (guardedNext NotEnd step) s₀,
      s.tasks.point = .select := by decide +kernel
  have hguarded := Run.guarded_of_foldlM hrun
  have hlive := dead_watch_replaced "lab" a ⟨"/ip4/10.0.0.1/tcp/5000"⟩ false labels s hguarded
  exact ⟨a, labels, s, hguarded, by simp [labels], hpoint, hlive.1⟩

/-- The stream ends, and the loop polls it again. -/
theorem not_dead_watch_replaced : ¬∀ [SerdeJson] (clusterId : String) (localPeerId : Base58Text)
    (localAddr : Ip4Text) (logDebug : Bool) (labels : List (Label Base58Text))
    (s : WatchedTasks Base58Text Ip4Text),
    Run (StepOf step) (start clusterId localPeerId localAddr logDebug) labels s →
    s.PollsLive := by
  intro hclaim
  let _ : SerdeJson := SerdeJson.knowing []
  let a := peerOf "12D3KooWAAAAAAAAAAAAAAAAAAAAAAAAAAAAAAAAAAAAAAAAAAAA"
  let s₀ : WatchedTasks Base58Text Ip4Text := start "lab" a ⟨"/ip4/10.0.0.1/tcp/5000"⟩ false
  let labels : List (Label Base58Text) := untilSelect a ++
    [.watchMessage (some none) (fun _ => []), .watchMessage (some none) (fun _ => [])]
  obtain ⟨s, hrun, hpoint, hstream⟩ : ∃ s ∈ labels.foldlM step s₀,
      s.tasks.point = .select ∧ s.stream = .ended := by decide +kernel
  have hlive := hclaim "lab" a ⟨"/ip4/10.0.0.1/tcp/5000"⟩ false labels s (Run.of_foldlM hrun) hpoint
  rw [hstream] at hlive
  cases hlive

end WatchedTasks

/-- How a round of the keep-alive task is answered. -/
inductive KeepAliveOutcome where
  | sendError
  | streamError
  | endOfStream
  | response (ttl : ℤ)
  deriving DecidableEq, Repr

namespace KeepAliveOutcome

/-- What `spawn_keepalive_task` makes of an answer. A response of any TTL is fine. -/
def round : KeepAliveOutcome → KeepAliveRound
  | sendError => .sendFailed
  | streamError => .streamFailed
  | endOfStream => .streamClosed
  | response _ => .ok

/-- The answer shows that the lease is not alive. -/
def showsLost : KeepAliveOutcome → Bool
  | response ttl => ttl ≤ 0
  | _ => true

end KeepAliveOutcome

namespace RunPoint

/-- The loop is running. -/
def inLoop : RunPoint → Bool
  | select | reconnectDelay | rewatch => true
  | _ => false

/-- The steps of the controller that are left to the end of a shutdown, if the loop
takes the signal when it comes to it. -/
def stepsLeft : RunPoint → ℕ
  | reconnectDelay => 5
  | rewatch => 4
  | select => 3
  | leaseRevoke _ _ => 2
  | deletePropagation _ => 1
  | _ => 0

theorem stepsLeft_le (point : RunPoint) : point.stepsLeft ≤ 5 := by
  cases point <;> simp [stepsLeft]

end RunPoint

namespace DiscoveryTasks

/-- The step is one of the controller's run. -/
def Label.own {P : Type} : Label P → Bool
  | keepAlive _ | sendShutdown | dropShutdownTx | dropSwarmRx => false
  | _ => true

/-- `select!` takes the branch of the watch. -/
def Label.passes {P : Type} : Label P → Bool
  | watchMessage _ _ => true
  | _ => false

/-- The shutdown has run to its end: the revoke of the lease was attempted, and the
swarm was told if it is there. -/
def ShutDown {P A : Type} (s : DiscoveryTasks P A) : Prop :=
  (∃ ok, s.point = .returned ok) ∧ (∃ leaseId ∈ s.revokes, s.controller.leaseId = some leaseId) ∧
    (s.swarmRx = true → .shutdown ∈ s.controller.phases.swarmTx)

/-- The signal waits for the loop, or the shutdown is under way or has run to its end. -/
def ShuttingDown {P A : Type} (s : DiscoveryTasks P A) : Prop :=
  match s.point with
  | .select | .reconnectDelay | .rewatch => 0 < s.internalShutdown
  | .leaseRevoke leaseId _ => s.controller.leaseId = some leaseId
  | .deletePropagation _ => ∃ leaseId ∈ s.revokes, s.controller.leaseId = some leaseId
  | .returned _ => s.ShutDown
  | _ => False

/-- The loop is left without a shutdown: the watch cannot be opened again, or a line
about an event panics. -/
def forsakes {P A : Type} [SerdeJson] [DecidableEq P] [PeerId P] [Multiaddr A]
    (s : DiscoveryTasks P A) (l : Label P) : Bool :=
  match s.point, l with
  | .rewatch, .watch ok => !ok
  | .select, .watchMessage (some message) _ =>
    s.controller.phases.messageStop message = some .panicked
  | _, _ => false

/-- A step goes on with the shutdown, unless it forsakes it. -/
structure GoesOn {P A : Type} [SerdeJson] [DecidableEq P] [PeerId P] [Multiaddr A]
    (s : DiscoveryTasks P A) (l : Label P) (t : DiscoveryTasks P A) : Prop where
  keeps : t.ShuttingDown ↔ s.forsakes l = false
  fewer : s.forsakes l = false →
    t.point.stepsLeft + l.own.toNat ≤ s.point.stepsLeft + 3 * l.passes.toNat

section
variable {P A : Type} {s t : DiscoveryTasks P A}

theorem shuttingDown_of_inLoop (hloop : s.point.inLoop = true) :
    s.ShuttingDown ↔ 0 < s.internalShutdown := by
  unfold ShuttingDown
  cases hp : s.point <;> simp_all [RunPoint.inLoop]

/-- A step beside the controller leaves its shutdown where it is. -/
theorem ShuttingDown.beside (hs : s.ShuttingDown) (hpoint : t.point = s.point)
    (hcontroller : t.controller = s.controller) (hrevokes : t.revokes = s.revokes)
    (hpending : s.internalShutdown ≤ t.internalShutdown)
    (hswarm : t.swarmRx = true → s.swarmRx = true) : t.ShuttingDown := by
  unfold ShuttingDown at hs ⊢
  rw [hpoint, hcontroller, hrevokes]
  cases hp : s.point <;> simp only [hp] at hs ⊢
  case returned ok =>
    obtain ⟨hreturned, hrevoked, htold⟩ := hs
    refine ⟨hpoint ▸ hreturned, ?_, ?_⟩
    · rw [hcontroller, hrevokes]
      exact hrevoked
    · rw [hcontroller]
      exact fun hrx => htold (hswarm hrx)
  all_goals first | exact hs | exact hs.trans_le hpending

/-- The loop takes a signal, and the shutdown begins. -/
theorem shutDown_shuttingDown (cause : ShutdownCause) (hreg : s.Registered) :
    (s.shutDown cause).ShuttingDown ∧ (s.shutDown cause).point.stepsLeft = 2 := by
  obtain ⟨leaseId, hlease⟩ := Option.ne_none_iff_exists'.mp hreg
  unfold shutDown
  rw [hlease]
  exact ⟨hlease, rfl⟩

/-- The swarm is told, or is not there. -/
theorem signalSwarm_shutDown (cause : ShutdownCause)
    (h : ∃ leaseId ∈ s.revokes, s.controller.leaseId = some leaseId) :
    (s.signalSwarm cause).ShutDown := by
  obtain ⟨hpoint, hlease, hrevokes, -, -, hsent⟩ := s.signalSwarm_spec cause
  refine ⟨hpoint, ?_, ?_⟩
  · rw [hlease, hrevokes]
    exact h
  · intro hswarm
    have hthere : s.swarmRx = true := by
      unfold signalSwarm at hswarm
      split_ifs at hswarm with hrx
      · exact hrx
      · exact absurd hswarm hrx
    exact hsent.mpr (Or.inr hthere)

end

section
variable {P A : Type} [SerdeJson] [DecidableEq P] [PeerId P] [Multiaddr A]
  {s t : DiscoveryTasks P A}

/-- The watch is opened again, or the run is over without a revoke. -/
theorem ShuttingDown.rewatch (hs : s.ShuttingDown) (hinv : s.Inv) {ok : Bool}
    (h : s.step (.watch ok) = some t) : GoesOn s (.watch ok) t := by
  cases hp : s.point <;> simp only [step, hp, reduceCtorEq] at h
  · simp only [ShuttingDown, hp] at hs
  · have hpending : 0 < s.internalShutdown := by simpa only [ShuttingDown, hp] using hs
    simp only [Inv, hp] at hinv
    cases ok with
    | true =>
      obtain rfl := Option.some.inj h
      exact ⟨iff_of_true hpending (by simp [forsakes, hp]), fun _ => by rw [hp]; exact le_rfl⟩
    | false =>
      obtain rfl := Option.some.inj h
      refine ⟨iff_of_false ?_ (by simp [forsakes, hp]), by simp [forsakes, hp]⟩
      rintro ⟨-, ⟨leaseId, hmem, -⟩, -⟩
      have hmem' : leaseId ∈ s.revokes := hmem
      rw [hinv.2.revokes] at hmem'
      cases hmem'

/-- `select!` passes over the signal, and the loop comes back to it unless a line
panics. -/
theorem ShuttingDown.watchMessage (hs : s.ShuttingDown)
    {message : Option (Option WatchResponse)} {iter : Finset P → List P}
    (h : s.step (.watchMessage message iter) = some t) :
    GoesOn s (.watchMessage message iter) t := by
  cases hp : s.point <;> cases message <;> simp only [step, hp, reduceCtorEq] at h
  · have hpending : 0 < s.internalShutdown := by simpa only [ShuttingDown, hp] using hs
    obtain rfl := Option.some.inj h
    exact ⟨iff_of_true hpending (by simp [forsakes, hp]), fun _ => by rw [hp]; exact le_rfl⟩
  · rename_i message
    have hpending : 0 < s.internalShutdown := by simpa only [ShuttingDown, hp] using hs
    have hforsakes : s.forsakes (.watchMessage (some message) iter) =
        decide (s.controller.phases.messageStop message = some .panicked) := by
      simp [forsakes, hp]
    obtain ⟨phases, hstop, hout, -⟩ | ⟨phases, hstop, hout, -⟩ | ⟨hstop, hout⟩ :=
      (DiscoveryPhases.processWatchEvent_follows iter message s.controller.phases).cases
    · rw [hout] at h
      obtain rfl := Option.some.inj h
      have hpoint : (s.setPhases phases).point = .select := hp
      refine ⟨iff_of_true ?_ (by simp [hforsakes, hstop]), fun _ => ?_⟩
      · rw [shuttingDown_of_inLoop (by rw [hpoint]; rfl)]
        exact hpending
      · rw [hpoint, hp]
        show 3 + 1 ≤ 3 + 3
        omega
    · rw [hout] at h
      obtain rfl := Option.some.inj h
      exact ⟨iff_of_true hpending (by simp [hforsakes, hstop]), fun _ => by rw [hp]; exact le_rfl⟩
    · rw [hout] at h
      obtain rfl := Option.some.inj h
      exact ⟨iff_of_false id (by simp [hforsakes, hstop]), by simp [hforsakes, hstop]⟩

/-- `select!` takes a signal. -/
theorem goesOn_of_wakes (hinv : s.Inv) {l : Label P}
    (hlabel : l = .recvShutdown ∨ l = .recvInternalShutdown) (h : s.step l = some t) :
    GoesOn s l t := by
  have hforsakes : s.forsakes l = false := by
    obtain rfl | rfl := hlabel <;> cases hp : s.point <;> simp [forsakes, hp]
  have hgoes : ∀ (s' : DiscoveryTasks P A) (cause : ShutdownCause), s.point = .select →
      s'.controller = s.controller → t = s'.shutDown cause → GoesOn s l t := by
    rintro s' cause hp hcontroller rfl
    simp only [Inv, hp] at hinv
    have hreg : s'.Registered := by
      unfold Registered
      rw [hcontroller]
      exact hinv.1
    obtain ⟨hshutting, hleft⟩ := shutDown_shuttingDown cause hreg
    refine ⟨iff_of_true hshutting hforsakes, fun _ => ?_⟩
    rw [hleft, hp]
    obtain rfl | rfl := hlabel <;> exact le_rfl
  obtain rfl | rfl := hlabel
  · cases hp : s.point <;> simp only [step, hp, reduceCtorEq] at h
    split_ifs at h
    exact hgoes { s with point := .select, shutdown := s.shutdown - 1 } .external hp rfl
      (Option.some.inj h).symm
  · cases hp : s.point <;> simp only [step, hp, reduceCtorEq] at h
    split_ifs at h
    exact hgoes { s with point := .select, internalShutdown := s.internalShutdown - 1 }
      .keepAliveFailure hp rfl (Option.some.inj h).symm

/-- The calls of the shutdown itself, and the delay before a watch. -/
theorem ShuttingDown.calls (hs : s.ShuttingDown) {l : Label P}
    (hlabel : l = .reconnectDelay ∨ (∃ revoked, l = .leaseRevoke revoked) ∨
      l = .deletePropagation) (h : s.step l = some t) : GoesOn s l t := by
  have hforsakes : s.forsakes l = false := by
    obtain rfl | ⟨revoked, rfl⟩ | rfl := hlabel <;> cases hp : s.point <;> simp [forsakes, hp]
  obtain rfl | ⟨revoked, rfl⟩ | rfl := hlabel
  · cases hp : s.point <;> simp only [step, hp, reduceCtorEq] at h
    have hpending : 0 < s.internalShutdown := by simpa only [ShuttingDown, hp] using hs
    obtain rfl := Option.some.inj h
    exact ⟨iff_of_true hpending hforsakes, fun _ => by rw [hp]; exact le_rfl⟩
  · cases hp : s.point <;> simp only [step, hp, reduceCtorEq] at h
    rename_i leaseId cause
    have hlease : s.controller.leaseId = some leaseId := by
      simpa only [ShuttingDown, hp] using hs
    obtain rfl := Option.some.inj h
    refine ⟨iff_of_true ⟨leaseId, ?_, hlease⟩ hforsakes, fun _ => by rw [hp]; exact le_rfl⟩
    exact List.mem_append_right _ (List.mem_singleton_self leaseId)
  · cases hp : s.point <;> simp only [step, hp, reduceCtorEq] at h
    rename_i cause
    have hrevoked : ∃ leaseId ∈ s.revokes, s.controller.leaseId = some leaseId := by
      simpa only [ShuttingDown, hp] using hs
    obtain rfl := Option.some.inj h
    have hdone := signalSwarm_shutDown cause hrevoked
    obtain ⟨ok, hpoint⟩ := hdone.1
    refine ⟨iff_of_true ?_ hforsakes, fun _ => ?_⟩
    · unfold ShuttingDown
      rw [hpoint]
      exact hdone
    · rw [hpoint, hp]
      exact le_rfl

theorem ShuttingDown.step (hs : s.ShuttingDown) (hinv : s.Inv) {l : Label P}
    (h : s.step l = some t) : GoesOn s l t := by
  -- A step that is none of the controller's.
  have hbeside : s.forsakes l = false → l.own = false → t.point = s.point → t.ShuttingDown →
      GoesOn s l t := by
    intro hforsakes hown hpoint ht
    refine ⟨iff_of_true ht hforsakes, fun _ => ?_⟩
    rw [hpoint, hown]
    exact Nat.le_add_right _ _
  cases l with
  | watch ok => exact hs.rewatch hinv h
  | watchMessage message iter => exact hs.watchMessage h
  | recvShutdown => exact goesOn_of_wakes hinv (Or.inl rfl) h
  | recvInternalShutdown => exact goesOn_of_wakes hinv (Or.inr rfl) h
  | reconnectDelay => exact hs.calls (Or.inl rfl) h
  | leaseRevoke revoked => exact hs.calls (Or.inr (Or.inl ⟨revoked, rfl⟩)) h
  | deletePropagation => exact hs.calls (Or.inr (Or.inr rfl)) h
  | keepAlive round =>
    have hforsakes : s.forsakes (.keepAlive round) = false := by
      cases hp : s.point <;> simp [forsakes, hp]
    rw [step_keepAlive] at h
    split_ifs at h
    · obtain rfl := Option.some.inj h
      exact hbeside hforsakes rfl rfl hs
    · obtain rfl := Option.some.inj h
      exact hbeside hforsakes rfl rfl (hs.beside rfl rfl rfl (Nat.le_succ _) id)
  | sendShutdown =>
    rw [step_sendShutdown] at h
    split_ifs at h
    obtain rfl := Option.some.inj h
    refine hbeside ?_ rfl rfl (hs.beside rfl rfl rfl le_rfl id)
    cases hp : s.point <;> simp [forsakes, hp]
  | dropShutdownTx =>
    rw [step_dropShutdownTx] at h
    obtain rfl := Option.some.inj h
    refine hbeside ?_ rfl rfl (hs.beside rfl rfl rfl le_rfl id)
    cases hp : s.point <;> simp [forsakes, hp]
  | dropSwarmRx =>
    rw [step_dropSwarmRx] at h
    obtain rfl := Option.some.inj h
    refine hbeside ?_ rfl rfl (hs.beside rfl rfl rfl le_rfl (by simp))
    cases hp : s.point <;> simp [forsakes, hp]
  | status | leaseGrant | leaseKeepAlive | put =>
    cases hp : s.point <;> simp only [DiscoveryTasks.step, hp, reduceCtorEq] at h
    simp only [ShuttingDown, hp] at hs
  | get kvs iter =>
    cases hp : s.point <;> cases kvs <;>
      simp only [DiscoveryTasks.step, hp, reduceCtorEq] at h
    all_goals simp only [ShuttingDown, hp] at hs

/-- A shutdown that is not at its end can go on, and without passing over the signal. -/
theorem ShuttingDown.goes_on_or_done (hs : s.ShuttingDown) :
    (∃ l t, l.own = true ∧ l.passes = false ∧ s.step l = some t) ∨ s.ShutDown := by
  have hgoes : ∀ l : Label P, l.own = true → l.passes = false → (s.step l).isSome = true →
      (∃ l t, l.own = true ∧ l.passes = false ∧ s.step l = some t) ∨ s.ShutDown := by
    intro l hown hpasses hsome
    obtain ⟨t, ht⟩ := Option.isSome_iff_exists.mp hsome
    exact Or.inl ⟨l, t, hown, hpasses, ht⟩
  cases hp : s.point
  case returned ok =>
    right
    simpa only [ShuttingDown, hp] using hs
  case select =>
    have hpending : 0 < s.internalShutdown := by simpa only [ShuttingDown, hp] using hs
    exact hgoes .recvInternalShutdown rfl rfl (by simp [DiscoveryTasks.step, hp, hpending])
  case reconnectDelay =>
    exact hgoes .reconnectDelay rfl rfl (by simp [DiscoveryTasks.step, hp])
  case rewatch =>
    exact hgoes (.watch true) rfl rfl (by simp [DiscoveryTasks.step, hp])
  case leaseRevoke leaseId cause =>
    exact hgoes (.leaseRevoke true) rfl rfl (by simp [DiscoveryTasks.step, hp])
  case deletePropagation cause =>
    exact hgoes .deletePropagation rfl rfl (by simp [DiscoveryTasks.step, hp])
  all_goals simp only [ShuttingDown, hp] at hs

end

end DiscoveryTasks

/-- The controller with its keep-alive task. An answer to this one may have shown that
the lease is not alive, and then a shutdown is due of the loop, if it was running or has
run since. -/
structure LeasedTasks (P A : Type) where
  tasks : DiscoveryTasks P A
  lost : Bool
  due : Bool

namespace LeasedTasks
open DiscoveryTasks

/-- A round of the keep-alive task, or a step of another. -/
inductive Label (P : Type) where
  | keepAlive (outcome : KeepAliveOutcome)
  | other (label : DiscoveryTasks.Label P)

def start {P A : Type} (clusterId : String) (localPeerId : P) (localAddr : A) (logDebug : Bool) :
    LeasedTasks P A where
  tasks := .new clusterId localPeerId localAddr logDebug
  lost := false
  due := false

/-- The tasks have made a step, and an answer may have shown the loss. -/
def after {P A : Type} (s : LeasedTasks P A) (lost : Bool) (tasks : DiscoveryTasks P A) :
    LeasedTasks P A := ⟨tasks, lost, s.due || (lost && tasks.point.inLoop)⟩

def step {P A : Type} [SerdeJson] [DecidableEq P] [PeerId P] [Multiaddr A]
    (s : LeasedTasks P A) : Label P → Option (LeasedTasks P A)
  | .keepAlive outcome =>
    (s.tasks.step (.keepAlive outcome.round)).map (s.after (s.lost || outcome.showsLost))
  | .other (.keepAlive _) => none
  | .other label => (s.tasks.step label).map (s.after s.lost)

/-- The controller's own steps. -/
def Label.own {P : Type} : Label P → Bool
  | keepAlive _ => false
  | other label => label.own

/-- `select!` takes the branch of the watch. -/
def Label.passes {P : Type} : Label P → Bool
  | keepAlive _ => false
  | other label => label.passes

/-- The keep-alive task has sent its signal and stopped exactly when an answer has shown
that the lease is not alive. The signal waits until the controller receives it, and a
loop that it finds running ends by a shutdown only. -/
structure Noticed {P A : Type} (s : LeasedTasks P A) : Prop where
  signalled : s.tasks.keepAlive = .stopped ↔ s.lost = true
  pending : s.tasks.keepAlive = .stopped → s.tasks.point.Listens → 0 < s.tasks.internalShutdown
  shutsDown : s.due = true → s.tasks.ShuttingDown

/-- The step is no response about a lease that is gone and, after a loss was shown, does
not leave the loop without a shutdown. -/
def Heeds {P A : Type} [SerdeJson] [DecidableEq P] [PeerId P] [Multiaddr A]
    (s : LeasedTasks P A) : Label P → Prop
  | .keepAlive (.response ttl) => 0 < ttl
  | .keepAlive _ => True
  | .other label => s.lost = true → s.tasks.forsakes label = false

instance {P A : Type} [SerdeJson] [DecidableEq P] [PeerId P] [Multiaddr A]
    (s : LeasedTasks P A) (l : Label P) : Decidable (s.Heeds l) :=
  match l with
  | .keepAlive (.response ttl) => inferInstanceAs (Decidable (0 < ttl))
  | .keepAlive .sendError | .keepAlive .streamError | .keepAlive .endOfStream => isTrue trivial
  | .other _ => inferInstanceAs (Decidable (_ → _))

/-- What holds while the answers about the lease are noticed. -/
structure Leased {P A : Type} [SerdeJson] [DecidableEq P] [PeerId P] [Multiaddr A]
    (s : LeasedTasks P A) : Prop where
  inv : s.tasks.Inv
  unspawned : s.tasks.point.Registering → s.tasks.keepAlive = .notSpawned
  noticed : s.Noticed
  looped : s.lost = true → s.tasks.point.inLoop = true → s.due = true
  shown : s.due = true → s.lost = true

/-- The signal that waits for a loop is all that its shutdown needs. -/
theorem shuttingDown_of_pending {P A : Type} {s : LeasedTasks P A}
    (hpending : s.tasks.keepAlive = .stopped → s.tasks.point.Listens →
      0 < s.tasks.internalShutdown)
    (hstopped : s.tasks.keepAlive = .stopped) (hloop : s.tasks.point.inLoop = true) :
    s.tasks.ShuttingDown := by
  rw [shuttingDown_of_inLoop hloop]
  refine hpending hstopped ?_
  revert hloop
  unfold RunPoint.inLoop RunPoint.Listens
  cases s.tasks.point <;> simp

/-- A loop that is due to end goes on with its shutdown when a step does. -/
theorem Noticed.of_goesOn {P A : Type} {s : LeasedTasks P A} {tasks : DiscoveryTasks P A}
    {lost : Bool} (hsignalled : tasks.keepAlive = .stopped ↔ lost = true)
    (hpending : tasks.keepAlive = .stopped → tasks.point.Listens → 0 < tasks.internalShutdown)
    (hgoes : s.due = true → tasks.ShuttingDown) : (s.after lost tasks).Noticed where
  signalled := hsignalled
  pending := hpending
  shutsDown := by
    intro hdue
    obtain hdue | hloop := Bool.or_eq_true_iff.mp hdue
    · exact hgoes hdue
    · obtain ⟨hlost, hloop⟩ := Bool.and_eq_true_iff.mp hloop
      exact shuttingDown_of_pending (s := s.after lost tasks) hpending (hsignalled.mpr hlost) hloop

theorem looped_after {P A : Type} (s : LeasedTasks P A) (lost : Bool)
    (tasks : DiscoveryTasks P A) (hlost : (s.after lost tasks).lost = true)
    (hloop : (s.after lost tasks).tasks.point.inLoop = true) :
    (s.after lost tasks).due = true := by
  have hlost' : lost = true := hlost
  have hloop' : tasks.point.inLoop = true := hloop
  simp [after, hlost', hloop']

theorem shown_after {P A : Type} {s : LeasedTasks P A} (hs : s.due = true → s.lost = true)
    {lost : Bool} (tasks : DiscoveryTasks P A) (hlost : s.lost = true → lost = true)
    (hdue : (s.after lost tasks).due = true) : (s.after lost tasks).lost = true := by
  obtain hdue | hloop := Bool.or_eq_true_iff.mp hdue
  · exact hlost (hs hdue)
  · exact (Bool.and_eq_true_iff.mp hloop).1

/-- The signals of the keep-alive task over a step of the controller, of its clients or
of the swarm. -/
theorem Leased.signals {P A : Type} [SerdeJson] [DecidableEq P] [PeerId P] [Multiaddr A]
    {s : LeasedTasks P A} {tasks : DiscoveryTasks P A} {label : DiscoveryTasks.Label P}
    (hs : s.Leased) (hlabel : ∀ round, label ≠ .keepAlive round)
    (h : s.tasks.step label = some tasks) :
    (tasks.keepAlive = .stopped ↔ s.lost = true) ∧
      (tasks.keepAlive = .stopped → tasks.point.Listens → 0 < tasks.internalShutdown) ∧
      (tasks.point.Registering → tasks.keepAlive = .notSpawned) := by
  cases step_goes h with
  | keepAlive round heq hrunning hnext => exact absurd heq (hlabel round)
  | spawns leaseId heq hpoint hnext =>
    have hidle : s.tasks.keepAlive = .notSpawned := hs.unspawned (by rw [hpoint]; trivial)
    have hheld : ¬s.lost = true := by
      rw [← hs.noticed.signalled, hidle]
      simp
    obtain rfl := hnext
    refine ⟨iff_of_false (by simp [registered]) hheld, ?_, fun hregistering => hregistering.elim⟩
    intro hstopped
    cases hstopped
  | opens heq hsame hlistens hregistering =>
    refine ⟨?_, ?_, fun h => absurd h hregistering⟩
    · rw [hsame.keepAlive]
      exact hs.noticed.signalled
    · intro hstopped _
      rw [hsame.keepAlive] at hstopped
      rw [hsame.internalShutdown]
      exact hs.noticed.pending hstopped hlistens
  | polls message iter heq hpoint hsame hregistering hstays =>
    refine ⟨?_, ?_, fun h => absurd h hregistering⟩
    · rw [hsame.keepAlive]
      exact hs.noticed.signalled
    · intro hstopped _
      rw [hsame.keepAlive] at hstopped
      rw [hsame.internalShutdown]
      exact hs.noticed.pending hstopped (by rw [hpoint]; trivial)
  | onward heq hsame hlistens hregistering hselect =>
    refine ⟨?_, ?_, ?_⟩
    · rw [hsame.keepAlive]
      exact hs.noticed.signalled
    · intro hstopped hpoint
      rw [hsame.keepAlive] at hstopped
      rw [hsame.internalShutdown]
      exact hs.noticed.pending hstopped (hlistens hpoint)
    · intro h
      rw [hsame.keepAlive]
      exact hs.unspawned (hregistering h)
  | ends heq hkeepAlive hlistens =>
    refine ⟨?_, fun _ hpoint => absurd hpoint hlistens, ?_⟩
    · rw [hkeepAlive]
      exact hs.noticed.signalled
    · intro hregistering
      refine absurd ?_ hlistens
      unfold RunPoint.Registering at hregistering
      unfold RunPoint.Listens
      cases hp : tasks.point <;> simp_all

/-- Only a loop can be left without a shutdown. -/
theorem inLoop_of_forsakes {P A : Type} [SerdeJson] [DecidableEq P] [PeerId P] [Multiaddr A]
    {s : DiscoveryTasks P A} {label : DiscoveryTasks.Label P} (h : s.forsakes label = true) :
    s.point.inLoop = true := by
  unfold forsakes at h
  split at h
  · rename_i hp
    rw [hp]
    rfl
  · rename_i hp
    rw [hp]
    rfl
  · cases h

/-- A step of the controller, of its clients or of the swarm keeps what holds unless the
loop is left without the shutdown that is due. -/
theorem Leased.other {P A : Type} [SerdeJson] [DecidableEq P] [PeerId P] [Multiaddr A]
    {s : LeasedTasks P A} {tasks : DiscoveryTasks P A} {label : DiscoveryTasks.Label P}
    (hs : s.Leased) (hlabel : ∀ round, label ≠ .keepAlive round)
    (h : s.tasks.step label = some tasks) :
    (s.Heeds (.other label) → (s.after s.lost tasks).Leased) ∧
      ((s.after s.lost tasks).Noticed → s.Heeds (.other label)) := by
  have hinv : tasks.Inv := (step_moves hs.inv h).inv hs.inv
  obtain ⟨hsignalled, hpending, hunspawned⟩ := hs.signals hlabel h
  constructor
  · intro hheeds
    refine ⟨hinv, hunspawned, .of_goesOn hsignalled hpending ?_, looped_after s s.lost tasks,
      shown_after hs.shown tasks id⟩
    intro hdue
    rw [((hs.noticed.shutsDown hdue).step hs.inv h).keeps]
    exact hheeds (hs.shown hdue)
  · intro hnoticed hlost
    by_contra hforsakes
    rw [Bool.not_eq_false] at hforsakes
    have hdue : s.due = true := hs.looped hlost (inLoop_of_forsakes hforsakes)
    have hshutting := hs.noticed.shutsDown hdue
    have hafter := hnoticed.shutsDown (by simp [after, hdue])
    rw [show (s.after s.lost tasks).tasks = tasks from rfl,
      (hshutting.step hs.inv h).keeps, hforsakes] at hafter
    cases hafter

/-- A round of the keep-alive task keeps what holds unless a response says that the
lease is gone. -/
theorem Leased.keepAlive {P A : Type} [SerdeJson] [DecidableEq P] [PeerId P] [Multiaddr A]
    {s t : LeasedTasks P A} {outcome : KeepAliveOutcome} (hs : s.Leased)
    (h : s.step (.keepAlive outcome) = some t) :
    (s.Heeds (.keepAlive outcome) → t.Leased) ∧ (t.Noticed → s.Heeds (.keepAlive outcome)) := by
  obtain ⟨tasks, hstep, rfl⟩ := Option.map_eq_some_iff.mp h
  have hinv : tasks.Inv := (step_moves hs.inv hstep).inv hs.inv
  have hround := hstep
  rw [step_keepAlive] at hstep
  have hrunning : s.tasks.keepAlive = .running := by
    by_contra hnot
    rw [if_neg hnot] at hstep
    cases hstep
  rw [if_pos hrunning] at hstep
  have htasks := (Option.some.inj hstep).symm
  have hheld : s.lost = false := by
    have hnot : ¬s.lost = true := by
      rw [← hs.noticed.signalled, hrunning]
      simp
    simpa using hnot
  have hspawned : ¬s.tasks.point.Registering := by
    intro hregistering
    rw [hs.unspawned hregistering] at hrunning
    cases hrunning
  have hundue : ¬s.due = true := by
    intro hdue
    rw [hs.shown hdue] at hheld
    cases hheld
  rw [hheld, Bool.false_or]
  have hleased : (tasks.keepAlive = .stopped ↔ outcome.showsLost = true) →
      (tasks.keepAlive = .stopped → tasks.point.Listens → 0 < tasks.internalShutdown) →
      tasks.point = s.tasks.point → (s.after outcome.showsLost tasks).Leased := by
    intro hsignalled hpending hpoint
    refine ⟨hinv, fun hreg => ?_, .of_goesOn hsignalled hpending (fun hdue => absurd hdue hundue),
      looped_after s _ tasks, shown_after hs.shown tasks (by simp [hheld])⟩
    have hreg' : tasks.point.Registering := hreg
    rw [hpoint] at hreg'
    exact absurd hreg' hspawned
  cases outcome with
  | response ttl =>
    obtain rfl : tasks = s.tasks := htasks.trans (if_pos rfl)
    constructor
    · intro hpos
      have hshows : (KeepAliveOutcome.response ttl).showsLost = false := by
        simpa [KeepAliveOutcome.showsLost, Heeds] using hpos
      refine hleased ?_ ?_ rfl
      · rw [hshows]
        exact iff_of_false (fun hstopped => by cases hrunning.symm.trans hstopped) (by simp)
      · intro hstopped
        cases hrunning.symm.trans hstopped
    · intro hnoticed
      by_contra hgone
      have hshows : (KeepAliveOutcome.response ttl).showsLost = true := by
        simpa [KeepAliveOutcome.showsLost, Heeds] using hgone
      cases hrunning.symm.trans (hnoticed.signalled.mpr hshows)
  | sendError | streamError | endOfStream =>
    obtain rfl := htasks.trans (if_neg (by simp [KeepAliveOutcome.round]))
    exact ⟨fun _ => hleased (iff_of_true rfl rfl) (fun _ _ => Nat.succ_pos _) rfl,
      fun _ => trivial⟩

/-- A step is a round of the keep-alive task, or one of the other tasks. -/
theorem step_cases {P A : Type} [SerdeJson] [DecidableEq P] [PeerId P] [Multiaddr A]
    {s t : LeasedTasks P A} {l : Label P} (h : s.step l = some t) :
    (∃ outcome, l = .keepAlive outcome) ∨ ∃ label tasks, l = .other label ∧
      (∀ round, label ≠ .keepAlive round) ∧ s.tasks.step label = some tasks ∧
      t = s.after s.lost tasks := by
  cases l with
  | keepAlive outcome => exact Or.inl ⟨outcome, rfl⟩
  | other label =>
    have hlabel : ∀ round, label ≠ .keepAlive round := by
      rintro round rfl
      cases h
    have hstep : (s.tasks.step label).map (s.after s.lost) = some t := by
      cases label with
      | keepAlive round => exact absurd rfl (hlabel round)
      | _ => exact h
    obtain ⟨tasks, htasks, rfl⟩ := Option.map_eq_some_iff.mp hstep
    exact Or.inr ⟨label, tasks, rfl, hlabel, htasks, rfl⟩

theorem step_leased {P A : Type} [SerdeJson] [DecidableEq P] [PeerId P] [Multiaddr A]
    {s t : LeasedTasks P A} {l : Label P} (hs : s.Leased) (h : s.step l = some t) :
    (s.Heeds l → t.Leased) ∧ (t.Noticed → s.Heeds l) := by
  obtain ⟨outcome, rfl⟩ | ⟨label, tasks, rfl, hlabel, htasks, rfl⟩ := step_cases h
  · exact hs.keepAlive h
  · exact hs.other hlabel htasks

/-- A step of a loop that is due to end, with what is left to its end. -/
theorem step_fewer {P A : Type} [SerdeJson] [DecidableEq P] [PeerId P] [Multiaddr A]
    {s t : LeasedTasks P A} {l : Label P} (hs : s.Leased) (hdue : s.due = true)
    (hheeds : s.Heeds l) (h : s.step l = some t) :
    t.due = true ∧ t.tasks.point.stepsLeft + l.own.toNat ≤
      s.tasks.point.stepsLeft + 3 * l.passes.toNat := by
  have hshutting := hs.noticed.shutsDown hdue
  obtain ⟨outcome, rfl⟩ | ⟨label, tasks, rfl, hlabel, htasks, rfl⟩ := step_cases h
  · obtain ⟨tasks, hstep, rfl⟩ := Option.map_eq_some_iff.mp h
    refine ⟨by simp [after, hdue], ?_⟩
    have hforsakes : s.tasks.forsakes (.keepAlive outcome.round) = false := by
      cases hp : s.tasks.point <;> simp [forsakes, hp]
    exact (hshutting.step hs.inv hstep).fewer hforsakes
  · refine ⟨by simp [after, hdue], ?_⟩
    exact (hshutting.step hs.inv htasks).fewer (hheeds (hs.shown hdue))

/-- The run of a loop that is due to end has few steps of the controller. -/
theorem run_fewer {P A : Type} [SerdeJson] [DecidableEq P] [PeerId P] [Multiaddr A]
    {s t : LeasedTasks P A} {labels : List (Label P)} (hs : s.Leased) (hdue : s.due = true)
    (h : Run (Guarded Heeds (StepOf step)) s labels t) :
    t.Leased ∧ t.due = true ∧ t.tasks.point.stepsLeft + labels.countP Label.own ≤
      s.tasks.point.stepsLeft + 3 * labels.countP Label.passes := by
  induction h with
  | nil s => exact ⟨hs, hdue, le_rfl⟩
  | @cons s mid t l labels hstep _ ih =>
    obtain ⟨hmid, hfewer⟩ := step_fewer hs hdue hstep.1 hstep.2
    obtain ⟨ht, htdue, hrest⟩ := ih ((step_leased hs hstep.2).1 hstep.1) hmid
    refine ⟨ht, htdue, ?_⟩
    rw [List.countP_cons, List.countP_cons]
    cases hown : l.own <;> cases hpasses : l.passes <;>
      simp only [hown, hpasses, Bool.toNat_true, Bool.toNat_false, if_true, if_false,
        Bool.false_eq_true] at hfewer ⊢ <;> omega

/-- In every run in which no response is about a lease that is gone, and no loop is left
without its shutdown after a loss was shown, the loss of the lease is noticed when it
is shown. A next step keeps this exactly when it is of that kind. A loop that is due
to end does so: the controller has few steps left, apart from those by which `select!`
passes over the signal, and goes on with them until the shutdown has run. -/
theorem lost_lease_noticed {P A : Type} [SerdeJson] [DecidableEq P] [PeerId P] [Multiaddr A]
    (clusterId : String) (localPeerId : P) (localAddr : A) (logDebug : Bool)
    (labels : List (Label P)) (s : LeasedTasks P A)
    (h : Run (Guarded Heeds (StepOf step)) (start clusterId localPeerId localAddr logDebug)
      labels s) :
    s.Noticed ∧ (∀ l t, s.step l = some t → (t.Noticed ↔ s.Heeds l)) ∧
    (s.lost = true → s.tasks.point.inLoop = true →
      ∀ labels' t, Run (Guarded Heeds (StepOf step)) s labels' t →
        labels'.countP Label.own ≤ 3 * labels'.countP Label.passes + 5 ∧
        ((∃ label tasks, label.own = true ∧ label.passes = false ∧
            t.tasks.step label = some tasks) ∨ t.tasks.ShutDown)) := by
  have hleased : s.Leased := by
    refine h.invariant (I := Leased) ?_ ?_
    · intro s l t hs hst
      exact (step_leased hs hst.2).1 hst.1
    · have hinv : DiscoveryTasks.Inv (new clusterId localPeerId localAddr logDebug) :=
        ⟨fun hreg => hreg rfl, rfl, rfl, rfl, rfl, by simp [new, DiscoveryPhases.new]⟩
      refine ⟨hinv, fun _ => rfl, ⟨?_, ?_, ?_⟩, ?_, ?_⟩ <;> simp [start, new]
  refine ⟨hleased.noticed, fun l t hst => ?_, fun hlost hloop labels' t hrun => ?_⟩
  · obtain ⟨hkeeps, honly⟩ := step_leased hleased hst
    exact ⟨honly, fun hheeds => (hkeeps hheeds).noticed⟩
  · obtain ⟨ht, hdue, hfewer⟩ := run_fewer hleased (hleased.looped hlost hloop) hrun
    refine ⟨?_, (ht.noticed.shutsDown hdue).goes_on_or_done⟩
    have hleft := s.tasks.point.stepsLeft_le
    omega

/-- The task's stream fails in the second round, and the signal waits for the loop, which
passes over it once, opens its watch again and then shuts down. -/
theorem lost_lease_noticed_stream :
    let _ : SerdeJson := SerdeJson.knowing []
    ∃ (localPeerId : Base58Text) (labels labels' : List (Label Base58Text))
      (s t : LeasedTasks Base58Text Ip4Text),
      Run (Guarded Heeds (StepOf step))
        (start "lab" localPeerId ⟨"/ip4/10.0.0.1/tcp/5000"⟩ false) labels s ∧
      s.tasks.point = .select ∧ s.lost = true ∧ s.Noticed ∧
      Run (Guarded Heeds (StepOf step)) s labels' t ∧
      labels'.countP Label.own ≤ 3 * labels'.countP Label.passes + 5 ∧ t.tasks.ShutDown := by
  intro _
  let a := peerOf "12D3KooWAAAAAAAAAAAAAAAAAAAAAAAAAAAAAAAAAAAAAAAAAAAA"
  let s₀ : LeasedTasks Base58Text Ip4Text := start "lab" a ⟨"/ip4/10.0.0.1/tcp/5000"⟩ false
  let labels : List (Label Base58Text) := (WatchedTasks.untilSelect a).map .other ++
    [.keepAlive (.response 60), .keepAlive .streamError]
  let labels' : List (Label Base58Text) := [.other (.watchMessage none (fun _ => [])),
    .other .reconnectDelay, .other (.watch true), .other .recvInternalShutdown,
    .other (.leaseRevoke true), .other .deletePropagation]
  obtain ⟨s, hrun, hpoint, hlost, t, hrun', hend⟩ :
      ∃ s ∈ labels.foldlM (guardedNext Heeds step) s₀,
      s.tasks.point = .select ∧ s.lost = true ∧
      ∃ t ∈ labels'.foldlM (guardedNext Heeds step) s, t.tasks.point = .returned false := by
    decide +kernel
  have hguarded := Run.guarded_of_foldlM hrun
  have hguarded' := Run.guarded_of_foldlM hrun'
  obtain ⟨hnoticed, -, hshuts⟩ :=
    lost_lease_noticed "lab" a ⟨"/ip4/10.0.0.1/tcp/5000"⟩ false labels s hguarded
  obtain ⟨hfew, hdone⟩ := hshuts hlost (by rw [hpoint]; rfl) labels' t hguarded'
  refine ⟨a, labels, labels', s, t, hguarded, hpoint, hlost, hnoticed, hguarded', hfew, ?_⟩
  obtain ⟨label, tasks, hown, -, hstep⟩ | hdone := hdone
  · cases label <;> simp [DiscoveryTasks.step, hend, DiscoveryTasks.Label.own] at hown hstep
  · exact hdone

/-- A response says that the lease has expired, and the task takes it for a success. -/
theorem not_lost_lease_noticed : ¬∀ [SerdeJson] (clusterId : String) (localPeerId : Base58Text)
    (localAddr : Ip4Text) (logDebug : Bool) (labels : List (Label Base58Text))
    (s : LeasedTasks Base58Text Ip4Text),
    Run (StepOf step) (start clusterId localPeerId localAddr logDebug) labels s → s.Noticed := by
  intro hclaim
  let _ : SerdeJson := SerdeJson.knowing []
  let a := peerOf "12D3KooWAAAAAAAAAAAAAAAAAAAAAAAAAAAAAAAAAAAAAAAAAAAA"
  let s₀ : LeasedTasks Base58Text Ip4Text := start "lab" a ⟨"/ip4/10.0.0.1/tcp/5000"⟩ false
  let labels : List (Label Base58Text) :=
    (WatchedTasks.untilSelect a).map .other ++ [.keepAlive (.response 0)]
  obtain ⟨s, hrun, halive, hlost⟩ : ∃ s ∈ labels.foldlM step s₀,
      s.tasks.keepAlive = .running ∧ s.lost = true := by decide +kernel
  have hnoticed := hclaim "lab" a ⟨"/ip4/10.0.0.1/tcp/5000"⟩ false labels s (Run.of_foldlM hrun)
  have hstopped := hnoticed.signalled.mpr hlost
  rw [halive] at hstopped
  cases hstopped

end LeasedTasks
end Neolaas
