import Neolaas.MachinePlacement
import Neolaas.PeerFeed
import Neolaas.Registration

/-!
# The registrations of a cluster

The nodes of a cluster register in etcd, read one another's registrations and
follow them by a watch. A registration ends with its lease. What one node knows of
the others is what its feed has delivered, so nodes that have processed their
watches know exactly the registered ones, and these share the machines.
-/
namespace Neolaas
open ChangeLog AtomicProgram LabelledRuns PeerId

namespace Node

/-- A step of a node is one of discovery, takes a peer list from the channel, or
leaves discovery as it is. -/
theorem Steps.phases_cases {P A : Type} [SerdeJson] [DecidableEq P] [PeerId P] [Multiaddr A]
    {score : Score P} {s t : Node P A} {l : Label P} (h : Steps score s l t) :
    (t.phases = s.phases ∧ t.stage = s.stage) ∨
    (∃ peers rest, s.phases.shardingTx = peers :: rest ∧ t.stage = s.stage ∧
      t.phases = { s.phases with shardingTx := rest }) ∨
    ∃ signal, Discovers s l t.phases t.stage signal := by
  have hsend : ∀ (message : ManagerMessage) (s : Node P A),
      (s.send message).phases = s.phases ∧ (s.send message).stage = s.stage := by
    intro message s
    unfold send
    split_ifs <;> exact ⟨rfl, rfl⟩
  cases h with
  | commit machineId specJson =>
    obtain ⟨etcd, watch, heq⟩ := commit_frame machineId specJson s
    rw [heq]
    exact Or.inl ⟨rfl, rfl⟩
  | forwardEvent hw => exact Or.inl (hsend _ _)
  | discover hd => exact Or.inr (Or.inr ⟨_, hd⟩)
  | bridgeReceive hb hpeers => exact Or.inr (Or.inl ⟨_, _, hpeers, rfl, rfl⟩)
  | listen hn => exact Or.inl (hsend _ { s with topologyNotices := s.topologyNotices - 1 })
  | sync hsignal => exact Or.inl (hsend _ s)
  | _ => exact Or.inl ⟨rfl, rfl⟩

end Node

namespace PeerFeed

/-- A feed tracks through its known peers only. -/
theorem Tracks.congr {P A : Type} [SerdeJson] [DecidableEq P] [PeerId P] [Multiaddr A]
    {s : PeerFeed P A} (hs : s.Tracks) {phases : DiscoveryPhases P A}
    (hnode : s.phases.SameNode phases) (hknown : phases.knownPeers = s.phases.knownPeers) :
    ({ s with phases := phases } : PeerFeed P A).Tracks := by
  have hkey : ∀ p, ({ s with phases := phases } : PeerFeed P A).key p = s.key p := by
    intro p
    show peerKey phases.clusterId p = peerKey s.phases.clusterId p
    rw [hnode.1]
  constructor
  · intro name value hget
    rw [hnode.1] at hget
    rw [hnode.2]
    exact hs.clean name value hget
  · intro c hc
    obtain ⟨p, hp, hvalue⟩ := hs.pending c hc
    exact ⟨p, hp.trans (hkey p).symm, hvalue⟩
  · exact hs.closed
  · intro hearly
    show phases.knownPeers = {phases.localPeerId}
    rw [hknown, hnode.2]
    exact hs.fresh hearly
  · intro hstage p hp
    have hne : p ≠ s.phases.localPeerId := by
      rw [← hnode.2]
      exact hp
    have hview : phases.knownView = s.phases.knownView := by
      unfold DiscoveryPhases.knownView
      rw [hknown]
    have hchanges : ({ s with phases := phases } : PeerFeed P A).pendingChanges =
        s.pendingChanges := by
      unfold pendingChanges
      rw [show phases.peerChange = s.phases.peerChange from funext hnode.peerChange]
    have hregistered : ({ s with phases := phases } : PeerFeed P A).registeredView =
        s.registeredView := by
      funext q
      unfold registeredView
      rw [hkey]
    rw [hchanges, hregistered]
    show Follows phases.knownView s.pendingChanges s.registeredView p
    rw [hview]
    exact hs.follows hstage p hne

/-- A feed without pending events knows the registered peers. -/
theorem Tracks.drained {P A : Type} [SerdeJson] [DecidableEq P] [PeerId P] [Multiaddr A]
    {s : PeerFeed P A} (hs : s.Tracks) (hstage : s.stage = .converged) (hwatch : s.watch = some [])
    {p : P} (hp : p ≠ s.phases.localPeerId) : p ∈ s.phases.knownPeers ↔ s.Registered p := by
  have hfollows := hs.follows hstage p hp
  have hpending : s.pendingChanges = [] := by simp [pendingChanges, hwatch]
  rw [hpending] at hfollows
  have heq := hfollows.drained
  unfold DiscoveryPhases.knownView registeredView at heq
  unfold Registered
  by_cases hknown : p ∈ s.phases.knownPeers
  · rw [if_pos hknown] at heq
    refine ⟨fun _ hnone => ?_, fun _ => hknown⟩
    rw [hnone] at heq
    cases heq
  · rw [if_neg hknown] at heq
    have hnone := Option.map_eq_none_iff.mp heq.symm
    exact ⟨fun h => absurd h hknown, fun h => absurd hnone h⟩

end PeerFeed

/-- One node's discovery beside the registrations in etcd: whether the node's own
put is done, and its open watch. -/
structure Member (P A : Type) where
  phases : DiscoveryPhases P A
  stage : DiscoveryStage
  peers : Etcd
  joined : Bool
  watch : Option (List (Change String String))

namespace Member

/-- The key of the member's own registration. -/
def key {P A : Type} [PeerId P] (m : Member P A) : String :=
  peerKey m.phases.clusterId m.phases.localPeerId

def Registered {P A : Type} [PeerId P] (m : Member P A) : Prop := m.peers[m.key]? ≠ none

/-- A change of the registrations, which an open watch will deliver. -/
def commit {P A : Type} (c : Change String String) (m : Member P A) : Member P A :=
  { m with peers := m.peers.apply c, watch := m.watch.map (fun pending => pending ++ [c]) }

/-- The member as a feed. What it reads of a response is still pending. -/
def feed {P A : Type} (m : Member P A) (phases : DiscoveryPhases P A) (stage : FeedStage)
    (reading : List (Change String String)) : PeerFeed P A where
  etcd := m.peers
  phases := phases
  stage := stage
  watch := m.watch.map (fun pending => reading ++ pending)

theorem feed_commit {P A : Type} (m : Member P A) (c : Change String String)
    (phases : DiscoveryPhases P A) (stage : FeedStage) (reading : List (Change String String)) :
    (m.commit c).feed phases stage reading = (m.feed phases stage reading).commit c := by
  unfold feed commit PeerFeed.commit
  cases m.watch with
  | none => rfl
  | some pending => simp only [Option.map_some, List.append_assoc]

/-- What a member in maintenance has read and not yet processed. No change about a
registered member itself is under way. -/
structure Reads {P A : Type} [SerdeJson] [DecidableEq P] [PeerId P] [Multiaddr A]
    (m : Member P A) (events : List WatchEvent) (reading : List (Change String String)) :
    Prop where
  events : events = reading.map Etcd.event
  closed : m.watch = none → reading = []
  tracks : (m.feed m.phases .converged reading).Tracks
  own : m.Registered → ∀ c ∈ reading ++ m.watch.getD [], c.key ≠ m.key

/-- Discovery is on track at its stage. While it reads the snapshot, it will be
once the rest is read. -/
def Follows {P A : Type} [SerdeJson] [DecidableEq P] [PeerId P] [Multiaddr A]
    (m : Member P A) : Prop :=
  match m.stage with
  | .registering => m.watch = none ∧ m.phases.shardingTx = [] ∧
      (m.feed m.phases (if m.joined then .registered else .started) []).Tracks
  | .converging kvs => m.watch = none ∧ m.phases.shardingTx = [] ∧
      ∀ done, Outcome.forEach DiscoveryPhases.convergeKv kvs m.phases = .ok done →
        (m.feed done .converged []).Tracks
  | .converged => m.watch = none ∧ (m.feed m.phases .converged []).Tracks
  | .maintenance events => ∃ reading, m.Reads events reading
  | .stopped | .failed => True

/-- What holds of a member in every reached state. -/
structure Sound {P A : Type} [SerdeJson] [DecidableEq P] [PeerId P] [Multiaddr A]
    (clusterId : String) (p : P) (m : Member P A) : Prop where
  clusterId : m.phases.clusterId = clusterId
  localPeerId : m.phases.localPeerId = p
  readable : m.stage = .registering →
    (DiscoveryPhases.peerAddr (A := A) (SerdeJson.print m.phases.metadata.toJson)).isSome
  follows : m.Follows
  known : m.Registered → p ∈ m.phases.knownPeers

/-- The member has an open watch, or is before its snapshot or past its watch. -/
def Covered {P A : Type} (m : Member P A) : Prop :=
  m.watch ≠ none ∨ m.stage = .registering ∨ m.stage = .stopped ∨ m.stage = .failed

instance {P A : Type} (m : Member P A) : Decidable m.Covered :=
  inferInstanceAs (Decidable (_ ∨ _ ∨ _ ∨ _))

/-- The registration of another member keeps a member on track that does not miss
it, and so does the end of any registration. -/
theorem Sound.commit {P A : Type} [SerdeJson] [DecidableEq P] [PeerId P] [LawfulPeerId P]
    [Multiaddr A] {clusterId : String} {q : P} {m : Member P A} (hm : m.Sound clusterId q) (p : P)
    (value : Option String)
    (hvalue : ∀ v, value = some v → (DiscoveryPhases.peerAddr (A := A) v).isSome)
    (hown : p = q → value = none) (hcovered : p = q ∨ m.Covered) :
    (m.commit ⟨peerKey clusterId p, value⟩).Sound clusterId q := by
  have hkey : m.key = peerKey clusterId q := by
    unfold key
    rw [hm.clusterId, hm.localPeerId]
  -- The change leaves the own registration alone or ends it.
  have hregistered : (m.commit ⟨peerKey clusterId p, value⟩).Registered →
      p ≠ q ∧ m.Registered := by
    intro hreg
    have hget : (m.commit ⟨peerKey clusterId p, value⟩).peers[m.key]? =
        Change.apply (fun k => m.peers[k]?) ⟨peerKey clusterId p, value⟩ m.key :=
      Etcd.getElem?_apply ..
    have hreg' : (m.commit ⟨peerKey clusterId p, value⟩).peers[m.key]? ≠ none := hreg
    rw [hget] at hreg'
    by_cases hpq : p = q
    · rw [hkey, hpq, hown hpq, Change.apply, Function.update_self] at hreg'
      exact absurd rfl hreg'
    · have hne : m.key ≠ peerKey clusterId p := by
        rw [hkey]
        exact fun he => hpq (toBase58_injective (append_left_injective _ he)).symm
      rw [Change.apply_of_ne _ _ hne] at hreg'
      exact ⟨hpq, hreg'⟩
  -- Every feed of the member is on track after the change.
  have htracks : ∀ (phases : DiscoveryPhases P A) (stage : FeedStage)
      (reading : List (Change String String)), m.phases.SameNode phases →
      (stage = .converged → m.watch ≠ none ∨ p = q) → (m.feed phases stage reading).Tracks →
      ((m.commit ⟨peerKey clusterId p, value⟩).feed phases stage reading).Tracks := by
    intro phases stage reading hsame hgap hfeed
    have hcluster : phases.clusterId = clusterId := hsame.1.trans hm.clusterId
    have hlocal : phases.localPeerId = q := hsame.2.trans hm.localPeerId
    rw [feed_commit, ← hcluster]
    apply hfeed.commit p value hvalue
    intro hstage
    obtain hopen | hpq := hgap hstage
    · left
      show m.watch.map _ ≠ none
      rw [ne_eq, Option.map_eq_none_iff]
      exact hopen
    · exact Or.inr (Or.inl (hpq.trans hlocal.symm))
  constructor
  · exact hm.clusterId
  · exact hm.localPeerId
  · exact hm.readable
  · have hfollows := hm.follows
    have hself : m.phases.SameNode m.phases := ⟨rfl, rfl⟩
    have hstage : (m.commit ⟨peerKey clusterId p, value⟩).stage = m.stage := rfl
    cases h : m.stage with
    | registering =>
      simp only [Follows, hstage, h] at hfollows ⊢
      obtain ⟨hwatch, hsent, hfeed⟩ := hfollows
      refine ⟨by simp [Member.commit, hwatch], hsent, htracks _ _ _ hself ?_ hfeed⟩
      intro hconverged
      split_ifs at hconverged
    | converging kvs =>
      simp only [Follows, hstage, h] at hfollows ⊢
      obtain ⟨hwatch, hsent, hfeed⟩ := hfollows
      refine ⟨by simp [Member.commit, hwatch], hsent, fun done hdone => ?_⟩
      refine htracks _ _ _ (DiscoveryPhases.forEach_convergeKv_ok hdone).1 ?_ (hfeed done hdone)
      exact fun _ => Or.inr
        (hcovered.resolve_right (fun hc => hc.elim (absurd hwatch) (by simp [h])))
    | converged =>
      simp only [Follows, hstage, h] at hfollows ⊢
      obtain ⟨hwatch, hfeed⟩ := hfollows
      refine ⟨by simp [Member.commit, hwatch], htracks _ _ _ hself ?_ hfeed⟩
      exact fun _ => Or.inr
        (hcovered.resolve_right (fun hc => hc.elim (absurd hwatch) (by simp [h])))
    | maintenance events =>
      simp only [Follows, hstage, h] at hfollows ⊢
      obtain ⟨reading, hreads⟩ := hfollows
      refine ⟨reading, hreads.events, ?_, htracks _ _ _ hself ?_ hreads.tracks, ?_⟩
      · intro hwatch
        exact hreads.closed (Option.map_eq_none_iff.mp hwatch)
      · intro _
        obtain hpq | hopen | hearly := hcovered
        · exact Or.inr hpq
        · exact Or.inl hopen
        · simp [h] at hearly
      · intro hreg c hc
        obtain ⟨hpq, hbefore⟩ := hregistered hreg
        show c.key ≠ m.key
        rw [List.mem_append] at hc
        have hold := hreads.own hbefore c
        rw [List.mem_append] at hold
        obtain hc | hc := hc
        · exact hold (Or.inl hc)
        · cases hw : m.watch with
          | none => simp [Member.commit, hw] at hc
          | some pending =>
            simp only [Member.commit, hw, Option.map_some, Option.getD_some, List.mem_append,
              List.mem_singleton] at hc
            obtain hc | rfl := hc
            · exact hold (Or.inr (by rwa [hw]))
            · rw [hkey]
              exact fun he => hpq (toBase58_injective (append_left_injective _ he))
    | stopped => simp only [Follows, hstage, h]
    | failed => simp only [Follows, hstage, h]
  · intro hreg
    exact hm.known (hregistered hreg).2

/-- The member's own put. -/
theorem Sound.register {P A : Type} [SerdeJson] [DecidableEq P] [PeerId P] [Multiaddr A]
    {clusterId : String} {p : P} {m : Member P A} (hm : m.Sound clusterId p)
    (hstage : m.stage = .registering) (hjoined : m.joined = false) :
    ({ m with peers := m.phases.register m.peers, joined := true } : Member P A).Sound
      clusterId p := by
  have hfollows := hm.follows
  simp only [Follows, hstage, hjoined, Bool.false_eq_true, if_false] at hfollows
  obtain ⟨hwatch, hsent, hfeed⟩ := hfollows
  constructor
  · exact hm.clusterId
  · exact hm.localPeerId
  · exact hm.readable
  · simp only [Follows, hstage, if_true]
    exact ⟨hwatch, hsent, hfeed.registerSelf rfl⟩
  · intro _
    have hfresh : m.phases.knownPeers = {m.phases.localPeerId} := hfeed.fresh (Or.inl rfl)
    show p ∈ m.phases.knownPeers
    rw [hfresh, hm.localPeerId]
    exact Finset.mem_singleton_self p

/-- The snapshot of the registrations, before any pair of it is processed. -/
theorem Sound.startConverge {P A : Type} [SerdeJson] [DecidableEq P] [PeerId P] [LawfulPeerId P]
    [Multiaddr A] {clusterId : String} {p : P} {m : Member P A} (hm : m.Sound clusterId p)
    (hstage : m.stage = .registering) (hjoined : m.joined = true) :
    ({ m with stage := .converging (m.peers.getPrefix (peersPrefix m.phases.clusterId)) } :
      Member P A).Sound clusterId p := by
  have hfollows := hm.follows
  simp only [Follows, hstage, hjoined, if_true] at hfollows
  obtain ⟨hwatch, hsent, hfeed⟩ := hfollows
  constructor
  · exact hm.clusterId
  · exact hm.localPeerId
  · intro h
    cases h
  · simp only [Follows]
    refine ⟨hwatch, hsent, fun done hdone => ?_⟩
    have hconverge : m.phases.converge (fun known => known.toList)
        (m.peers.getPrefix (peersPrefix m.phases.clusterId)) =
          .ok (done.convergeDone (fun known => known.toList)) := by
      unfold DiscoveryPhases.converge
      rw [hdone]
    exact (hfeed.converge rfl hconverge).congr ⟨rfl, rfl⟩ rfl
  · exact hm.known

/-- A watch is opened in maintenance. What is committed from then on is pending. -/
theorem Sound.openWatch {P A : Type} [SerdeJson] [DecidableEq P] [PeerId P] [LawfulPeerId P]
    [Multiaddr A] {clusterId : String} {p : P} {m : Member P A} (hm : m.Sound clusterId p)
    (hstage : m.stage = .maintenance []) (hwatch : m.watch = none) :
    ({ m with watch := some [] } : Member P A).Sound clusterId p := by
  have hfollows := hm.follows
  simp only [Follows, hstage] at hfollows
  obtain ⟨reading, hreads⟩ := hfollows
  obtain rfl := hreads.closed hwatch
  have hopen : (m.feed m.phases .converged []).step .enterMaintenance =
      some (({ m with watch := some [] } : Member P A).feed m.phases .converged []) := by
    simp [PeerFeed.step, feed, hwatch]
  constructor
  · exact hm.clusterId
  · exact hm.localPeerId
  · exact hm.readable
  · simp only [Follows, hstage]
    refine ⟨[], rfl, fun _ => rfl, hreads.tracks.step (fun _ => trivial) hopen, ?_⟩
    intro _ c hc
    simp at hc
  · exact hm.known

/-- A watch is lost between two responses, without pending events of others. -/
theorem Sound.loseWatch {P A : Type} [SerdeJson] [DecidableEq P] [PeerId P] [LawfulPeerId P]
    [Multiaddr A] {clusterId : String} {p : P} {m : Member P A} (hm : m.Sound clusterId p)
    (hstage : m.stage = .maintenance [])
    (hown : ∀ pending ∈ m.watch, ∀ c ∈ pending, c.key = m.key) :
    ({ m with watch := none } : Member P A).Sound clusterId p := by
  have hfollows := hm.follows
  simp only [Follows, hstage] at hfollows
  obtain ⟨reading, hreads⟩ := hfollows
  obtain rfl := List.map_eq_nil_iff.mp hreads.events.symm
  have htracks : (({ m with watch := none } : Member P A).feed m.phases .converged []).Tracks := by
    apply hreads.tracks.loseWatch
    intro _ pending hpending c hc
    simp only [feed, List.nil_append, Option.map_id'] at hpending
    exact hown pending hpending c hc
  constructor
  · exact hm.clusterId
  · exact hm.localPeerId
  · exact hm.readable
  · simp only [Follows, hstage]
    refine ⟨[], rfl, fun _ => rfl, htracks, ?_⟩
    intro _ c hc
    simp at hc
  · exact hm.known

/-- A response takes events from the watch. -/
theorem Sound.respond {P A : Type} [SerdeJson] [DecidableEq P] [PeerId P] [Multiaddr A]
    {clusterId : String} {p : P} {m : Member P A} (hm : m.Sound clusterId p)
    (hstage : m.stage = .maintenance []) {pending : List (Change String String)}
    (hwatch : m.watch = some pending) (n : ℕ) :
    ({ m with
        stage := .maintenance ((pending.take n).map Etcd.event)
        watch := some (pending.drop n) } : Member P A).Sound clusterId p := by
  have hfollows := hm.follows
  simp only [Follows, hstage] at hfollows
  obtain ⟨reading, hreads⟩ := hfollows
  obtain rfl := List.map_eq_nil_iff.mp hreads.events.symm
  constructor
  · exact hm.clusterId
  · exact hm.localPeerId
  · intro h
    cases h
  · simp only [Follows]
    refine ⟨pending.take n, rfl, (by simp), ?_, ?_⟩
    · have hfeed := hreads.tracks
      simpa only [feed, hwatch, Option.map_some, List.nil_append, List.take_append_drop] using hfeed
    · intro hreg c hc
      apply hreads.own hreg c
      simpa only [hwatch, Option.getD_some, List.nil_append, List.take_append_drop] using hc
  · exact hm.known

/-- A member processes the next event of a response. -/
theorem Sound.processEvent {P A : Type} [SerdeJson] [DecidableEq P] [PeerId P] [LawfulPeerId P]
    [Multiaddr A] {clusterId : String} {p : P} {m : Member P A} (hm : m.Sound clusterId p)
    {event : WatchEvent} {events : List WatchEvent}
    (hstage : m.stage = .maintenance (event :: events))
    {iter : Finset P → List P} {phases : DiscoveryPhases P A}
    (h : m.phases.processEvent iter event = .ok phases) :
    ({ m with phases := phases, stage := .maintenance events } : Member P A).Sound clusterId p := by
  have hfollows := hm.follows
  simp only [Follows, hstage] at hfollows
  obtain ⟨reading, hreads⟩ := hfollows
  obtain ⟨c, rest, rfl, rfl, hevents⟩ := List.map_eq_cons_iff.mp hreads.events.symm
  obtain ⟨hsame, hview⟩ := DiscoveryPhases.processEvent_ok h
  obtain ⟨pending, hwatch⟩ : ∃ pending, m.watch = some pending := by
    rw [← Option.ne_none_iff_exists']
    intro hnone
    cases hreads.closed hnone
  have hpending : (m.feed m.phases .converged (c :: rest)).watch =
      some (c :: (rest ++ pending)) := by
    simp [feed, hwatch]
  have hkey : ({ m with phases := phases, stage := .maintenance events } : Member P A).key =
      m.key := by
    unfold key
    rw [hsame.1, hsame.2]
  constructor
  · exact hsame.1.trans hm.clusterId
  · exact hsame.2.trans hm.localPeerId
  · intro hearly
    cases hearly
  · simp only [Follows]
    refine ⟨rest, hevents.symm, ?_, ?_, ?_⟩
    · intro hnone
      simp [hwatch] at hnone
    · have htracks := hreads.tracks.deliver hpending h
      simpa only [feed, hwatch, Option.map_some] using htracks
    · intro hreg c' hc'
      rw [hkey]
      unfold Registered at hreg
      rw [hkey] at hreg
      exact hreads.own hreg c' (by simpa using Or.inr hc')
  · intro hreg
    unfold Registered at hreg
    rw [hkey] at hreg
    have hmem := hm.known hreg
    -- The event is about another member, so that the member goes on knowing itself.
    obtain ⟨q, hq, hvalue⟩ := hreads.tracks.pending c (by simp [hpending])
    have hqp : q ≠ p := by
      rintro rfl
      apply hreads.own hreg c (by simp)
      unfold key
      rw [hm.localPeerId]
      exact hq
    have hchange : ¬Touches (m.phases.peerChange c).toList p := by
      rintro ⟨change, hin, rfl⟩
      have hkeys := (PeerFeed.peerChange_registration (m.feed m.phases .converged (c :: rest)) q
        c.value hvalue).2 change
      rw [← hq] at hkeys
      exact hqp (hkeys (Option.mem_toList.mp hin)).symm
    have hknown : phases.knownView p = m.phases.knownView p := by
      rw [hview]
      exact replay_of_not_touches hchange
    unfold DiscoveryPhases.knownView at hknown
    rw [if_pos hmem] at hknown
    by_contra hnot
    rw [if_neg hnot] at hknown
    cases hknown

end Member

/-- The steps that carry an answer of etcd about the peers. -/
def Node.Label.readsPeers {P : Type} : Node.Label P → Bool
  | .startConverge _ | .watchResponse _ => true
  | _ => false

namespace Member

/-- A member whose discovery has ended is on track. -/
theorem Sound.ended {P A : Type} [SerdeJson] [DecidableEq P] [PeerId P] [Multiaddr A]
    {clusterId : String} {p : P} {m : Member P A} (hm : m.Sound clusterId p)
    {stage : DiscoveryStage} (hstage : stage = .stopped ∨ stage = .failed) :
    ({ m with stage := stage } : Member P A).Sound clusterId p := by
  refine ⟨hm.clusterId, hm.localPeerId, ?_, ?_, hm.known⟩
  · intro hearly
    obtain rfl | rfl := hstage
    · cases hearly
    · cases hearly
  · obtain rfl | rfl := hstage
    · simp only [Follows]
    · simp only [Follows]

/-- A member's discovery steps on without a new answer. -/
theorem Sound.discover {P A : Type} [SerdeJson] [DecidableEq P] [PeerId P] [LawfulPeerId P]
    [Multiaddr A] {clusterId : String} {p : P} {s : Node P A} {peers : Etcd} {joined : Bool}
    {watch : Option (List (Change String String))}
    (hm : (⟨s.phases, s.stage, peers, joined, watch⟩ : Member P A).Sound clusterId p)
    {l : Node.Label P} (hl : l.readsPeers = false) {phases : DiscoveryPhases P A}
    {stage : DiscoveryStage} {signal : Bool} (h : Node.Discovers s l phases stage signal) :
    (⟨phases, stage, peers, joined, watch⟩ : Member P A).Sound clusterId p := by
  have hfollows := hm.follows
  cases h with
  | startConverge kvs hstage => cases hl
  | watchResponse events hstage => cases hl
  | convergeKv hstage hkv =>
    obtain ⟨hsame, hknown⟩ := DiscoveryPhases.convergeKv_ok hkv
    simp only [Follows, hstage] at hfollows
    obtain ⟨hwatch, hsent, hfeed⟩ := hfollows
    constructor
    · exact hsame.1.trans hm.clusterId
    · exact hsame.2.trans hm.localPeerId
    · intro hearly
      cases hearly
    · simp only [Follows]
      refine ⟨hwatch, (Booting.convergeKv_shardingTx hkv).trans hsent, fun done hdone => ?_⟩
      apply hfeed done
      simp only [Outcome.forEach, hkv]
      exact hdone
    · intro hreg
      unfold Registered key at hreg
      rw [hsame.1, hsame.2] at hreg
      exact (hknown p).mpr (Or.inl (hm.known hreg))
  | convergeError hstage hkv =>
    rw [DiscoveryPhases.convergeKv_error hkv]
    exact hm.ended (by simp)
  | convergePanic hstage => exact hm.ended (by simp)
  | convergeDone order hstage hpeers =>
    simp only [Follows, hstage] at hfollows
    obtain ⟨hwatch, hsent, hfeed⟩ := hfollows
    refine ⟨hm.clusterId, hm.localPeerId, by simp, ?_, hm.known⟩
    simp only [Follows]
    exact ⟨hwatch, (hfeed s.phases rfl).congr ⟨rfl, rfl⟩ rfl⟩
  | signalConvergence hstage =>
    simp only [Follows, hstage] at hfollows
    obtain ⟨hwatch, hfeed⟩ := hfollows
    refine ⟨hm.clusterId, hm.localPeerId, by simp, ?_, hm.known⟩
    simp only [Follows]
    refine ⟨[], rfl, fun _ => rfl, hfeed, ?_⟩
    intro _ c hc
    simp [hwatch] at hc
  | processEvent hstage hevent hpeers => exact hm.processEvent hstage hevent
  | eventError hstage hevent =>
    simp only [Follows, hstage] at hfollows
    obtain ⟨reading, hreads⟩ := hfollows
    obtain ⟨c, rest, rfl, rfl, -⟩ := List.map_eq_cons_iff.mp hreads.events.symm
    exact absurd hevent (DiscoveryPhases.processEvent_ne_error _ _ _ _)
  | eventPanic hstage => exact hm.ended (by simp)
  | stopDiscovery hstage => exact hm.ended (by simp)

/-- A step of the node without a new answer keeps its member sound. -/
theorem Sound.node {P A : Type} [SerdeJson] [DecidableEq P] [PeerId P] [LawfulPeerId P]
    [Multiaddr A] {clusterId : String} {p : P} {score : Score P} {s t : Node P A} {peers : Etcd}
    {joined : Bool} {watch : Option (List (Change String String))}
    (hm : (⟨s.phases, s.stage, peers, joined, watch⟩ : Member P A).Sound clusterId p)
    {l : Node.Label P} (hl : l.readsPeers = false) (h : Node.Steps score s l t) :
    (⟨t.phases, t.stage, peers, joined, watch⟩ : Member P A).Sound clusterId p := by
  obtain ⟨hphases, hstage⟩ | ⟨order, rest, htx, hstage, hphases⟩ | ⟨signal, hd⟩ := h.phases_cases
  · rw [hphases, hstage]
    exact hm
  · rw [hphases, hstage]
    refine ⟨hm.clusterId, hm.localPeerId, hm.readable, ?_, hm.known⟩
    have hfollows := hm.follows
    cases h : s.stage with
    | registering =>
      simp only [Follows, h, htx] at hfollows
      cases hfollows.2.1
    | converging kvs =>
      simp only [Follows, h, htx] at hfollows
      cases hfollows.2.1
    | converged =>
      simp only [Follows, h] at hfollows ⊢
      exact ⟨hfollows.1, hfollows.2.congr ⟨rfl, rfl⟩ rfl⟩
    | maintenance events =>
      simp only [Follows, h] at hfollows ⊢
      obtain ⟨reading, hreads⟩ := hfollows
      exact ⟨reading, hreads.events, hreads.closed, hreads.tracks.congr ⟨rfl, rfl⟩ rfl, hreads.own⟩
    | stopped => simp only [Follows]
    | failed => simp only [Follows]
  · exact hm.discover hl hd

end Member

/-- A cluster with the registrations of its nodes, which of the nodes have put
theirs, and the watches of their discovery. -/
structure PeerCluster (ι P A : Type) where
  cluster : Cluster ι P A
  peers : Etcd
  joined : ι → Bool
  watches : ι → Option (List (Change String String))

namespace PeerCluster

/-- A step of the cluster without an answer of etcd about the peers, or one with it. -/
inductive Label (ι P : Type) where
  | cluster (l : ClusterLabel ι P)
  | register (i : ι)
  /-- The lease of a node is revoked or expires. -/
  | deregister (i : ι)
  | converge (i : ι)
  | openWatch (i : ι)
  /-- A response with the first pending events. -/
  | respond (i : ι) (events : ℕ)
  | loseWatch (i : ι)

/-- The discovery of a node beside the registrations. -/
def member {ι P A : Type} (s : PeerCluster ι P A) (i : ι) : Member P A where
  phases := (s.cluster.nodes i).phases
  stage := (s.cluster.nodes i).stage
  peers := s.peers
  joined := s.joined i
  watch := s.watches i

def Registered {ι P A : Type} [PeerId P] (s : PeerCluster ι P A) (i : ι) : Prop :=
  (s.member i).Registered

instance {ι P A : Type} [PeerId P] (s : PeerCluster ι P A) (i : ι) : Decidable (s.Registered i) :=
  inferInstanceAs (Decidable (¬_ = _))

/-- A change of the registrations reaches every open watch. -/
def commit {ι P A : Type} (c : Change String String) (s : PeerCluster ι P A) :
    PeerCluster ι P A :=
  { s with
    peers := s.peers.apply c
    watches := fun i => (s.watches i).map (fun pending => pending ++ [c]) }

/-- The own put of a node. -/
def registration {P A : Type} [SerdeJson] [PeerId P] [Multiaddr A] (phases : DiscoveryPhases P A) :
    Change String String :=
  ⟨peerKey phases.clusterId phases.localPeerId, some (SerdeJson.print phases.metadata.toJson)⟩

def readsPeers {ι P : Type} : ClusterLabel ι P → Bool
  | .commit _ _ => false
  | .node _ l => l.readsPeers

/-- Nodes put their registrations once, read them all, then watch them, and lose
them with their leases. -/
def step {ι P A : Type} [DecidableEq ι] [SerdeJson] [DecidableEq P] [PeerId P] [Multiaddr A]
    (score : Score P) (s : PeerCluster ι P A) : Label ι P → Option (PeerCluster ι P A)
  | .cluster l =>
    if readsPeers l then none
    else (s.cluster.step score l).map (fun cluster => { s with cluster := cluster })
  | .register i =>
    if s.joined i = false ∧ (s.member i).stage = .registering then
      some { s.commit (registration (s.member i).phases) with
        joined := Function.update s.joined i true }
    else none
  | .deregister i =>
    if s.Registered i then some (s.commit ⟨(s.member i).key, none⟩) else none
  | .converge i =>
    if s.joined i = true then
      let kvs := s.peers.getPrefix (peersPrefix (s.member i).phases.clusterId)
      (s.cluster.step score (.node i (.startConverge kvs))).map
        (fun cluster => { s with cluster := cluster })
    else none
  | .openWatch i =>
    if s.watches i = none ∧ (s.member i).stage = .maintenance [] then
      some { s with watches := Function.update s.watches i (some []) }
    else none
  | .respond i events =>
    match s.watches i with
    | some pending =>
      let response := (pending.take events).map Etcd.event
      (s.cluster.step score (.node i (.watchResponse response))).map (fun cluster =>
        { s with
          cluster := cluster
          watches := Function.update s.watches i (some (pending.drop events)) })
    | none => none
  | .loseWatch i =>
    if s.watches i ≠ none ∧ (s.member i).stage = .maintenance [] then
      some { s with watches := Function.update s.watches i none }
    else none

/-- The nodes of one cluster before their registrations, each with an identity and
an address of its own. -/
structure Starts {ι P A : Type} [PeerId P] (s : PeerCluster ι P A) : Prop where
  cluster : s.cluster.Starts
  sameCluster : ∀ i j, (s.member i).phases.clusterId = (s.member j).phases.clusterId
  injective : Function.Injective (fun i => (s.member i).phases.localPeerId)
  peers : s.peers = ∅
  joined : ∀ i, s.joined i = false
  watches : ∀ i, s.watches i = none

/-- The steps of the machines are careful, registrations come and go while the
other nodes that have read them are watching, and a watch is lost only when
nothing about others is pending. -/
def Careful {ι P A : Type} [SerdeJson] [PeerId P] (s : PeerCluster ι P A) : Label ι P → Prop
  | .cluster l => s.cluster.Careful l
  | .register i | .deregister i => ∀ j, j = i ∨ (s.member j).Covered
  | .loseWatch i => ∀ pending ∈ s.watches i, ∀ c ∈ pending, c.key = (s.member i).key
  | .converge _ | .openWatch _ | .respond _ _ => True

instance {ι P A : Type} [Fintype ι] [DecidableEq ι] [SerdeJson] [PeerId P]
    (s : PeerCluster ι P A) (l : Label ι P) : Decidable (s.Careful l) :=
  match l with
  | .cluster l => inferInstanceAs (Decidable (s.cluster.Careful l))
  | .register _ | .deregister _ => inferInstanceAs (Decidable (∀ _, _ ∨ _))
  | .loseWatch i => inferInstanceAs (Decidable (∀ pending ∈ s.watches i, ∀ c ∈ pending, _ = _))
  | .converge _ | .openWatch _ | .respond _ _ => inferInstanceAs (Decidable True)

/-- Every member is sound, every registration is a member's, and the nodes are
settling. -/
structure Sound {ι P A : Type} [SerdeJson] [DecidableEq P] [PeerId P] [Multiaddr A]
    (score : Score P) (clusterId : String) (ids : ι → P) (s : PeerCluster ι P A) : Prop where
  members : ∀ i, (s.member i).Sound clusterId (ids i)
  named : ∀ p, s.peers[peerKey clusterId p]? ≠ none → ∃ i, ids i = p
  settling : s.cluster.Settling score

/-- A changed registration is that of a member. -/
theorem named_commit {ι P A : Type} [PeerId P] [LawfulPeerId P] {clusterId : String} {ids : ι → P}
    {s : PeerCluster ι P A} (hnamed : ∀ p, s.peers[peerKey clusterId p]? ≠ none → ∃ i, ids i = p)
    (i : ι) (value : Option String) (p : P)
    (h : (s.commit ⟨peerKey clusterId (ids i), value⟩).peers[peerKey clusterId p]? ≠ none) :
    ∃ i, ids i = p := by
  by_cases hp : p = ids i
  · exact ⟨i, hp.symm⟩
  · apply hnamed p
    have hne : peerKey clusterId p ≠ peerKey clusterId (ids i) :=
      fun he => hp (toBase58_injective (append_left_injective _ he))
    have hget : (s.commit ⟨peerKey clusterId (ids i), value⟩).peers[peerKey clusterId p]? =
        Change.apply (fun k => s.peers[k]?) ⟨peerKey clusterId (ids i), value⟩
          (peerKey clusterId p) := Etcd.getElem?_apply ..
    rwa [hget, Change.apply_of_ne _ _ hne] at h

/-- One node has stepped, without a word about the peers. -/
theorem Sound.node {ι P A : Type} [DecidableEq ι] [SerdeJson] [DecidableEq P] [PeerId P]
    [LawfulPeerId P] [Multiaddr A] {score : Score P} {clusterId : String} {ids : ι → P}
    {s : PeerCluster ι P A} (hs : s.Sound score clusterId ids) {l : ClusterLabel ι P}
    (hreads : readsPeers l = false) (hcareful : s.cluster.Careful l)
    {cluster : Cluster ι P A} (h : s.cluster.step score l = some cluster) :
    ({ s with cluster := cluster } : PeerCluster ι P A).Sound score clusterId ids := by
  refine ⟨?_, hs.named, hs.settling.step hcareful h⟩
  intro i
  obtain ⟨machineId, specJson, new, rfl, -, rfl⟩ | ⟨j, l', t, rfl, hstep, rfl⟩ :=
    Cluster.step_cases h
  · have hcommit : Node.Steps score (s.cluster.nodes i) (.commit machineId specJson)
        ((s.cluster.nodes i).commit machineId specJson) := .commit machineId specJson
    exact (hs.members i).node rfl hcommit
  · by_cases hij : i = j
    · subst hij
      have hsound := (hs.members i).node hreads hstep
      unfold member
      simp only [Function.update_self]
      exact hsound
    · unfold member
      simp only [Function.update_of_ne hij]
      exact hs.members i

/-- One node has got an answer about the peers. -/
theorem Sound.answer {ι P A : Type} [DecidableEq ι] [SerdeJson] [DecidableEq P] [PeerId P]
    [Multiaddr A] {score : Score P} {clusterId : String} {ids : ι → P} {s : PeerCluster ι P A}
    (hs : s.Sound score clusterId ids) {i : ι} {l : Node.Label P} {t : Node P A}
    {log : List (ClusterRecord ι)} (hcareful : s.cluster.Careful (.node i l))
    (h : s.cluster.step score (.node i l) = some ⟨Function.update s.cluster.nodes i t, log⟩)
    (hphases : t.phases = (s.cluster.nodes i).phases)
    (watch : Option (List (Change String String)))
    (hmember : ({ s.member i with stage := t.stage, watch := watch } : Member P A).Sound
      clusterId (ids i)) :
    ({ s with
        cluster := ⟨Function.update s.cluster.nodes i t, log⟩
        watches := Function.update s.watches i watch } : PeerCluster ι P A).Sound
      score clusterId ids := by
  refine ⟨?_, hs.named, hs.settling.step hcareful h⟩
  intro j
  unfold member
  by_cases hij : j = i
  · subst hij
    simp only [Function.update_self, hphases]
    exact hmember
  · simp only [Function.update_of_ne hij]
    exact hs.members j

theorem registration_eq {ι P A : Type} [SerdeJson] [DecidableEq P] [PeerId P]
    [Multiaddr A] {score : Score P} {clusterId : String} {ids : ι → P} {s : PeerCluster ι P A}
    (hs : s.Sound score clusterId ids) (i : ι) : registration (s.member i).phases =
      ⟨peerKey clusterId (ids i), some (SerdeJson.print (s.member i).phases.metadata.toJson)⟩ := by
  unfold registration
  rw [(hs.members i).clusterId, (hs.members i).localPeerId]

theorem Sound.register {ι P A : Type} [DecidableEq ι] [SerdeJson] [DecidableEq P] [PeerId P]
    [LawfulPeerId P] [Multiaddr A] {score : Score P} {clusterId : String} {ids : ι → P}
    (hids : Function.Injective ids) {s : PeerCluster ι P A} (hs : s.Sound score clusterId ids)
    {i : ι} (hstage : (s.member i).stage = .registering) (hjoined : s.joined i = false)
    (hcovered : ∀ j, j = i ∨ (s.member j).Covered) :
    ({ s.commit (registration (s.member i).phases) with
        joined := Function.update s.joined i true } : PeerCluster ι P A).Sound
      score clusterId ids := by
  have hm := hs.members i
  refine ⟨?_, ?_, hs.settling⟩
  · intro j
    by_cases hij : j = i
    · subst hij
      have hfollows := hm.follows
      simp only [Member.Follows, hstage] at hfollows
      have hwatch : s.watches j = none := hfollows.1
      have hsound := hm.register hstage hjoined
      unfold member commit
      simp only [Function.update_self, hwatch, Option.map_none]
      unfold member at hsound
      simp only [hwatch] at hsound
      exact hsound
    · have hne : ids i ≠ ids j := fun he => hij (hids he).symm
      have hsound := (hs.members j).commit (ids i)
        (some (SerdeJson.print (s.member i).phases.metadata.toJson))
        (fun v hv => (Option.some.inj hv) ▸ hm.readable hstage) (fun he => absurd he hne)
        (Or.inr ((hcovered j).resolve_left hij))
      rw [← registration_eq hs i] at hsound
      unfold member
      simp only [Function.update_of_ne hij]
      exact hsound
  · intro p hp
    rw [registration_eq hs i] at hp
    exact named_commit hs.named i _ p hp

theorem Sound.deregister {ι P A : Type} [SerdeJson] [DecidableEq P] [PeerId P]
    [LawfulPeerId P] [Multiaddr A] {score : Score P} {clusterId : String} {ids : ι → P}
    {s : PeerCluster ι P A} (hs : s.Sound score clusterId ids) (i : ι)
    (hcovered : ∀ j, j = i ∨ (s.member j).Covered) :
    (s.commit ⟨(s.member i).key, none⟩).Sound score clusterId ids := by
  have hkey : (s.member i).key = peerKey clusterId (ids i) := by
    unfold Member.key
    rw [(hs.members i).clusterId, (hs.members i).localPeerId]
  rw [hkey]
  refine ⟨?_, named_commit hs.named i none, hs.settling⟩
  intro j
  apply (hs.members j).commit (ids i) none (by simp) (fun _ => rfl)
  obtain rfl | hcov := hcovered j
  · exact Or.inl rfl
  · exact Or.inr hcov

/-- Another watch of one node. -/
theorem Sound.setWatch {ι P A : Type} [DecidableEq ι] [SerdeJson] [DecidableEq P] [PeerId P]
    [Multiaddr A] {score : Score P} {clusterId : String} {ids : ι → P} {s : PeerCluster ι P A}
    (hs : s.Sound score clusterId ids) (i : ι) (watch : Option (List (Change String String)))
    (hmember : ({ s.member i with watch := watch } : Member P A).Sound clusterId (ids i)) :
    ({ s with watches := Function.update s.watches i watch } : PeerCluster ι P A).Sound
      score clusterId ids := by
  refine ⟨?_, hs.named, hs.settling⟩
  intro j
  unfold member
  by_cases hij : j = i
  · subst hij
    simp only [Function.update_self]
    exact hmember
  · simp only [Function.update_of_ne hij]
    exact hs.members j

theorem Sound.step {ι P A : Type} [DecidableEq ι] [SerdeJson] [DecidableEq P] [PeerId P]
    [LawfulPeerId P] [Multiaddr A] {score : Score P} {clusterId : String} {ids : ι → P}
    (hids : Function.Injective ids) {s t : PeerCluster ι P A} {l : Label ι P}
    (hs : s.Sound score clusterId ids) (hcareful : s.Careful l)
    (h : s.step score l = some t) : t.Sound score clusterId ids := by
  cases l with
  | cluster l =>
    simp only [PeerCluster.step] at h
    split_ifs at h with hreads
    obtain ⟨cluster, hcluster, rfl⟩ := Option.map_eq_some_iff.mp h
    exact hs.node (by simpa using hreads) hcareful hcluster
  | register i =>
    simp only [PeerCluster.step] at h
    split_ifs at h with hready
    obtain rfl := Option.some.inj h
    exact hs.register hids hready.2 hready.1 hcareful
  | deregister i =>
    simp only [PeerCluster.step] at h
    split_ifs at h
    obtain rfl := Option.some.inj h
    exact hs.deregister i hcareful
  | converge i =>
    simp only [PeerCluster.step] at h
    split_ifs at h with hjoined
    obtain ⟨cluster, hcluster, rfl⟩ := Option.map_eq_some_iff.mp h
    obtain ⟨node, hnode, rfl⟩ := Option.map_eq_some_iff.mp hcluster
    simp only [Node.step] at hnode
    split_ifs at hnode with hstage
    obtain rfl := Option.some.inj hnode
    have hquiet : s.cluster.Careful (.node i (.startConverge
        (s.peers.getPrefix (peersPrefix (s.member i).phases.clusterId)))) := ⟨trivial, trivial⟩
    have hsound := hs.answer hquiet hcluster rfl (s.watches i)
      ((hs.members i).startConverge hstage hjoined)
    rwa [Function.update_eq_self] at hsound
  | openWatch i =>
    simp only [PeerCluster.step] at h
    split_ifs at h with hready
    obtain rfl := Option.some.inj h
    exact hs.setWatch i _ ((hs.members i).openWatch hready.2 hready.1)
  | respond i events =>
    simp only [PeerCluster.step] at h
    cases hwatch : s.watches i with
    | none => simp [hwatch] at h
    | some pending =>
      simp only [hwatch] at h
      obtain ⟨cluster, hcluster, rfl⟩ := Option.map_eq_some_iff.mp h
      obtain ⟨node, hnode, rfl⟩ := Option.map_eq_some_iff.mp hcluster
      simp only [Node.step] at hnode
      split_ifs at hnode with hstage
      obtain rfl := Option.some.inj hnode
      have hquiet : s.cluster.Careful (.node i (.watchResponse
          ((pending.take events).map Etcd.event))) := ⟨trivial, trivial⟩
      exact hs.answer hquiet hcluster rfl _
        ((hs.members i).respond hstage hwatch events)
  | loseWatch i =>
    simp only [PeerCluster.step] at h
    split_ifs at h with hready
    obtain rfl := Option.some.inj h
    exact hs.setWatch i _ ((hs.members i).loseWatch hready.2 hcareful)

/-- Registered nodes that are settled and have processed their watches know the
registered nodes. -/
theorem Sound.known_iff {ι P A : Type} [SerdeJson] [DecidableEq P] [PeerId P]
    [Multiaddr A] {score : Score P} {clusterId : String} {ids : ι → P}
    {s : PeerCluster ι P A} (hs : s.Sound score clusterId ids) {i : ι} (hi : s.Registered i)
    (hstage : (s.cluster.nodes i).stage = .maintenance []) (hwatch : s.watches i = some [])
    (p : P) :
    p ∈ (s.cluster.nodes i).phases.knownPeers ↔
      ∃ j, s.Registered j ∧ (s.cluster.nodes j).phases.localPeerId = p := by
  have hm := hs.members i
  have hlocal : ∀ j, (s.cluster.nodes j).phases.localPeerId = ids j :=
    fun j => (hs.members j).localPeerId
  have hregistered : ∀ j, s.Registered j ↔ s.peers[peerKey clusterId (ids j)]? ≠ none := by
    intro j
    unfold Registered Member.Registered Member.key
    rw [(hs.members j).clusterId, (hs.members j).localPeerId]
    rfl
  have hall : s.peers[peerKey clusterId p]? ≠ none ↔
      ∃ j, s.Registered j ∧ (s.cluster.nodes j).phases.localPeerId = p := by
    constructor
    · intro hp
      obtain ⟨j, rfl⟩ := hs.named p hp
      exact ⟨j, (hregistered j).mpr hp, hlocal j⟩
    · rintro ⟨j, hj, rfl⟩
      rw [hlocal j]
      exact (hregistered j).mp hj
  rw [← hall]
  by_cases hp : p = ids i
  · subst hp
    exact ⟨fun _ => (hregistered i).mp hi, fun _ => hm.known hi⟩
  · have hfollows := hm.follows
    have hstage' : (s.member i).stage = .maintenance [] := hstage
    simp only [Member.Follows, hstage'] at hfollows
    obtain ⟨reading, hreads⟩ := hfollows
    obtain rfl := List.map_eq_nil_iff.mp hreads.events.symm
    have hne : p ≠ (s.member i).phases.localPeerId := by
      rw [hm.localPeerId]
      exact hp
    have hdrained := hreads.tracks.drained rfl (by simp [Member.feed, member, hwatch]) hne
    unfold PeerFeed.Registered PeerFeed.key at hdrained
    simp only [Member.feed, hm.clusterId] at hdrained
    exact hdrained

theorem Sound.start {ι P A : Type} [SerdeJson] [DecidableEq P] [PeerId P] [Multiaddr A]
    {score : Score P} {s : PeerCluster ι P A} (h : s.Starts) (i₀ : ι)
    (hcontent : ∀ i, World.ValidContent Parses (s.cluster.nodes i).world.etcd)
    (hreadable : ∀ i, (DiscoveryPhases.peerAddr (A := A)
      (SerdeJson.print (s.member i).phases.metadata.toJson)).isSome) :
    s.Sound score (s.member i₀).phases.clusterId (fun i => (s.member i).phases.localPeerId) := by
  refine ⟨?_, ?_, Cluster.Settling.start h.cluster hcontent⟩
  · intro i
    obtain ⟨etcd, hnodes, -⟩ := h.cluster
    obtain ⟨cid, p, addr, logDebug, nodeId, now, hstart⟩ := hnodes i
    obtain ⟨coordinator, -, hnode⟩ := Option.map_eq_some_iff.mp hstart
    have hstage : (s.member i).stage = .registering := by
      unfold member
      rw [← hnode]
    have hphases : (s.member i).phases = DiscoveryPhases.new cid p addr logDebug := by
      unfold member
      rw [← hnode]
    refine ⟨h.sameCluster i i₀, rfl, fun _ => hreadable i, ?_, ?_⟩
    · simp only [Member.Follows, hstage]
      refine ⟨h.watches i, by rw [hphases]; rfl, ?_⟩
      have hjoined : (s.member i).joined = false := h.joined i
      have hfeed : (s.member i).feed (s.member i).phases .started [] =
          PeerFeed.start cid p addr logDebug := by
        unfold Member.feed PeerFeed.start
        rw [hphases]
        unfold member
        rw [h.peers, h.watches i]
        rfl
      rw [hjoined, if_neg Bool.false_ne_true, hfeed]
      exact PeerFeed.tracks_start ..
    · intro hreg
      unfold Member.Registered at hreg
      have hpeers : (s.member i).peers = ∅ := h.peers
      rw [hpeers] at hreg
      simp at hreg
  · intro p hp
    rw [h.peers] at hp
    simp at hp

/-- Registered nodes at rest share the stored machines among them. -/
theorem Sound.shared {ι P A : Type} [SerdeJson] [DecidableEq P] [PeerId P] [LawfulPeerId P]
    [Multiaddr A] {score : Score P} {clusterId : String} {ids : ι → P}
    (hids : Function.Injective ids) {s : PeerCluster ι P A} (hs : s.Sound score clusterId ids)
    (hsettled : ∀ i, s.Registered i → (s.cluster.nodes i).Settled ∧ s.watches i = some [])
    {i : ι} (hi : s.Registered i) (machineId : String)
    (hstored : ((s.cluster.nodes i).world.etcd[machinesPrefix ++ machineId]?).isSome = true) :
    ∃! j, s.Registered j ∧ machineId ∈ (s.cluster.nodes j).world.manager.actors := by
  have hlocal : ∀ j, (s.cluster.nodes j).phases.localPeerId = ids j :=
    fun j => (hs.members j).localPeerId
  have hknown : ∀ j, s.Registered j → ∀ p, p ∈ (s.cluster.nodes j).phases.knownPeers ↔
      ∃ k, s.Registered k ∧ (s.cluster.nodes k).phases.localPeerId = p := by
    intro j hj p
    obtain ⟨hsettledj, hwatch⟩ := hsettled j hj
    exact hs.known_iff hj hsettledj.maintenance hwatch p
  let known := (s.cluster.nodes i).phases.knownPeers
  have hsame : ∀ j, s.Registered j → (s.cluster.nodes j).phases.knownPeers = known := by
    intro j hj
    ext p
    rw [hknown j hj p, hknown i hi p]
  have hactors : ∀ j, s.Registered j → (machineId ∈ (s.cluster.nodes j).world.manager.actors ↔
      (RendezvousHasher.new known.toList).lookup score machineId = some (ids j)) := by
    intro j hj
    have hlists : Lists known.toList (s.cluster.nodes j).phases.knownPeers := by
      rw [hsame j hj]
      exact ⟨known.nodup_toList, Finset.toList_toFinset known⟩
    have hstoredj :
        ((s.cluster.nodes j).world.etcd[machinesPrefix ++ machineId]?).isSome = true := by
      rw [hs.settling.shared j i]
      exact hstored
    rw [(hs.settling.nodes j).actors (hsettled j hj).1 hlists machineId, hlocal j]
    exact and_iff_right hstoredj
  have hne : known.toList ≠ [] := by
    have hmem : ids i ∈ known := (hknown i hi _).mpr ⟨i, hi, hlocal i⟩
    intro hnil
    rw [Finset.toList_eq_nil] at hnil
    rw [hnil] at hmem
    exact Finset.notMem_empty _ hmem
  obtain ⟨owner, hmem, hlookup⟩ := RendezvousHasher.exists_lookup_new score hne machineId
  obtain ⟨j, hj, hjowner⟩ := (hknown i hi owner).mp (Finset.mem_toList.mp hmem)
  rw [hlocal j] at hjowner
  refine ⟨j, ⟨hj, (hactors j hj).mpr (hlookup.trans (congrArg some hjowner.symm))⟩, ?_⟩
  rintro k ⟨hk, hkactor⟩
  have howner := hlookup.symm.trans ((hactors k hk).mp hkactor)
  apply hids
  rw [← Option.some.inj howner, hjowner]

end PeerCluster
end Neolaas
