import Neolaas.ClusterBookings
import Neolaas.MachineFeed
import Neolaas.NodeRest

/-!
# The placement of machines in a cluster at rest

A node that has converged and has nothing left to do has cached exactly the stored
machines, provided that its watch missed nothing harmful, and has actors for those
that it owns. So a cluster of such nodes that know one another has one actor for
each stored machine.
-/
namespace Neolaas
open ChangeLog AtomicProgram LabelledRuns

namespace Node

/-- Stored specs parse, and the watch misses only what does no harm. -/
def Careful {P A : Type} [SerdeJson] (s : Node P A) (l : Label P) : Prop :=
  s.SpecsSatisfy Parses l ∧ s.NoGap l

instance {P A : Type} [SerdeJson] (s : Node P A) (l : Label P) : Decidable (s.Careful l) :=
  inferInstanceAs (Decidable (_ ∧ _))

theorem start_etcd {P A : Type} [PeerId P] {clusterId : String} {localPeerId : P}
    {localAddr : A} {logDebug : Bool} {nodeId : String} {etcd : Etcd} {now : ℤ} {s : Node P A}
    (h : start clusterId localPeerId localAddr logDebug nodeId etcd now = some s) :
    s.world.etcd = etcd := by
  obtain ⟨coordinator, -, rfl⟩ := Option.map_eq_some_iff.mp h
  rfl

/-- Discovery has fired its signal and follows the watch of the peers. -/
def Maintaining {P A : Type} (s : Node P A) : Prop := ∃ events, s.stage = .maintenance events

/-- The initial sync stays ahead when it is not lost from the mailbox. -/
theorem SyncAhead.frame {P A : Type} {s t : Node P A} (h : s.SyncAhead)
    (hreading : s.reading = false) (hstage : t.stage = s.stage)
    (hsignal : t.convergenceSignal = s.convergenceSignal)
    (hmailbox : ManagerMessage.syncAllMachines ∈ s.mailbox →
      .syncAllMachines ∈ t.mailbox ∨ t.reading = true) : t.SyncAhead := by
  obtain hearly | hfired | hmail | hread := h
  · left
    rw [hstage]
    exact hearly
  · right
    left
    rw [hsignal]
    exact hfired
  · exact Or.inr (Or.inr (hmailbox hmail))
  · rw [hreading] at hread
    cases hread

theorem mem_send {P A : Type} {message m : ManagerMessage} {s : Node P A} (h : m ∈ s.mailbox) :
    m ∈ (s.send message).mailbox := by
  unfold send
  split_ifs
  · exact List.mem_append_left _ h
  · exact h

/-- Discovery enters maintenance from the end of convergence only. -/
theorem maintaining_before {P A : Type} [SerdeJson] [DecidableEq P] [PeerId P] [Multiaddr A]
    {score : Score P} {s t : Node P A} {l : Label P} (h : Steps score s l t)
    (ht : t.Maintaining) : s.Maintaining ∨ s.stage = .converged := by
  obtain ⟨events, hstage⟩ := ht
  cases h with
  | commit machineId specJson =>
    obtain ⟨etcd, watch, heq⟩ := commit_frame machineId specJson s
    rw [heq] at hstage
    exact Or.inl ⟨events, hstage⟩
  | forwardEvent hw =>
    rw [Booting.stage_send] at hstage
    exact Or.inl ⟨events, hstage⟩
  | listen hn =>
    left
    refine ⟨events, ?_⟩
    rw [← hstage]
    exact (Booting.stage_send _ ({ s with topologyNotices := s.topologyNotices - 1 } :
      Node P A)).symm
  | sync hsignal =>
    left
    refine ⟨events, ?_⟩
    rw [← hstage]
    exact (Booting.stage_send _ s).symm
  | discover hd =>
    cases hd with
    | signalConvergence hconverged => exact Or.inr hconverged
    | watchResponse _ hbefore => exact Or.inl ⟨_, hbefore⟩
    | processEvent hbefore hevent hpeers => exact Or.inl ⟨_, hbefore⟩
    | eventError hbefore hevent => exact Or.inl ⟨_, hbefore⟩
    | _ => cases hstage
  | _ => exact Or.inl ⟨events, hstage⟩

/-- Past convergence, only the manager takes up the initial sync. -/
theorem syncAhead_maintained {P A : Type} [SerdeJson] [DecidableEq P] [PeerId P] [Multiaddr A]
    {score : Score P} {s t : Node P A} {l : Label P} (h : Steps score s l t) (ht : t.Maintaining)
    (halive : t.managerAlive = true) (hahead : s.SyncAhead) (hreading : s.reading = false) :
    t.SyncAhead := by
  cases h with
  | commit machineId specJson =>
    obtain ⟨etcd, watch, heq⟩ := commit_frame machineId specJson s
    rw [heq]
    exact hahead.frame hreading rfl rfl Or.inl
  | forwardEvent hw =>
    refine hahead.frame hreading (Booting.stage_send ..) ?_ (fun hmail => Or.inl (mem_send hmail))
    unfold send
    split_ifs <;> rfl
  | @discover l phases stage signal hd =>
    obtain ⟨events, hstage⟩ := ht
    cases hd with
    | signalConvergence hconverged => exact Or.inr (Or.inl rfl)
    | watchResponse _ hbefore =>
      obtain hearly | hrest := hahead
      · rw [hbefore] at hearly
        exact hearly.elim
      · exact Or.inr hrest
    | processEvent hbefore hevent hpeers =>
      obtain hearly | hrest := hahead
      · rw [hbefore] at hearly
        exact hearly.elim
      · exact Or.inr hrest
    | eventError hbefore hevent =>
      obtain hearly | hrest := hahead
      · rw [hbefore] at hearly
        exact hearly.elim
      · exact Or.inr hrest
    | _ => cases hstage
  | listen hn =>
    refine hahead.frame hreading ?_ ?_ (fun hmail => Or.inl ?_)
    · exact Booting.stage_send _ ({ s with topologyNotices := s.topologyNotices - 1 } : Node P A)
    · unfold send
      split_ifs <;> rfl
    · exact mem_send (s := { s with topologyNotices := s.topologyNotices - 1 }) hmail
  | sync hsignal =>
    have hmanager : s.managerAlive = true := by simpa using halive
    right
    right
    left
    show ManagerMessage.syncAllMachines ∈ (s.send .syncAllMachines).mailbox
    unfold send
    rw [if_pos hmanager]
    exact List.mem_append_right _ (List.mem_singleton.mpr rfl)
  | @handle machineIds message mailbox hrunning hmailbox hmanager hkeys =>
    refine hahead.frame hreading rfl rfl ?_
    intro hmail
    rw [hmailbox] at hmail
    obtain rfl | hmail := List.mem_cons.mp hmail
    · exact Or.inr rfl
    · exact Or.inl hmail
  | advance hrunning hexec => exact hahead.frame hreading rfl rfl Or.inl
  | panic => cases halive
  | finish listenerAsking hrunning => exact hahead.frame hreading rfl rfl Or.inl
  | openWatch hw => exact hahead.frame hreading rfl rfl Or.inl
  | loseWatch hw => exact hahead.frame hreading rfl rfl Or.inl
  | bridgeReceive hb hpeers => exact hahead.frame hreading rfl rfl Or.inl
  | bridgeAsk hb => exact hahead.frame hreading rfl rfl Or.inl
  | bridgeNotify hb => exact hahead.frame hreading rfl rfl Or.inl
  | ask machineId message hm => exact hahead.frame hreading rfl rfl Or.inl
  | tick now => exact hahead.frame hreading rfl rfl Or.inl

/-- What holds of a node in every careful run: the actors and the hasher are on their
way, and so is the cache once discovery has fired its signal. -/
structure Settling {P A : Type} [SerdeJson] [DecidableEq P] [PeerId P] (score : Score P)
    (s : Node P A) : Prop where
  sound : s.Sound score Parses
  tracks : s.Tracks score
  syncing : s.Syncing score
  keeps : s.managerAlive = true → s.Maintaining → s.Keeps score

theorem Settling.step {P A : Type} [SerdeJson] [DecidableEq P] [PeerId P] [Multiaddr A]
    {score : Score P} {s t : Node P A} {l : Label P} (hs : s.Settling score)
    (hl : s.Careful l) (h : Steps score s l t) : t.Settling score := by
  constructor
  · exact (hs.sound.step hl.1 h).1
  · exact hs.tracks.step hs.sound hl.1 h
  · exact hs.syncing.step hl.2 h
  · intro halive ht
    have halive' := managerAlive_step h halive
    have hkeeps : s.Keeps score := by
      obtain hmaintaining | hconverged := maintaining_before h ht
      · exact hs.keeps halive' hmaintaining
      · apply hs.syncing.keeps halive'
        unfold syncs
        rw [if_pos (by rw [hconverged]; trivial)]
        omega
    exact hkeeps.step hs.syncing.sound hl.2 h halive
      (syncAhead_maintained h ht halive)

theorem settling_start {P A : Type} [SerdeJson] [DecidableEq P] [PeerId P] {score : Score P}
    {clusterId : String} {localPeerId : P} {localAddr : A} {logDebug : Bool} {nodeId : String}
    {etcd : Etcd} {now : ℤ} {s : Node P A} (hcontent : World.ValidContent Parses etcd)
    (h : start clusterId localPeerId localAddr logDebug nodeId etcd now = some s) :
    s.Settling score := by
  refine ⟨sound_start score Parses hcontent h, tracks_start h, syncing_start score h, ?_⟩
  obtain ⟨coordinator, -, rfl⟩ := Option.map_eq_some_iff.mp h
  rintro - ⟨events, hstage⟩
  cases hstage

/-- A node that follows its peers, has nothing left to do and has lost neither its
manager nor its coordinator. -/
structure Settled {P A : Type} (s : Node P A) : Prop where
  idle : s.Idle
  maintenance : s.stage = .maintenance []
  managerAlive : s.managerAlive = true
  coordinatorAlive : s.world.coordinatorAlive = true

instance {P A : Type} [DecidableEq P] (s : Node P A) : Decidable s.Idle :=
  decidable_of_iff (s.running.isNone = true ∧ s.mailbox = [] ∧ s.topologyNotices = 0 ∧
    s.convergenceSignal = false ∧ s.bridge = .waiting ∧ s.phases.shardingTx = [] ∧
    s.watch = some [] ∧ (s.stage = .registering ∨ s.stage = .maintenance [] ∨
      s.stage = .stopped ∨ s.stage = .failed))
    ⟨fun ⟨hrun, hbox, hn, hsig, hb, htx, hw, hst⟩ =>
        ⟨Option.isNone_iff_eq_none.mp hrun, hbox, hn, hsig, hb, htx, hw, hst⟩,
      fun h => ⟨Option.isNone_iff_eq_none.mpr h.running, h.mailbox, h.notices, h.signal, h.bridge,
        h.shardingTx, h.watch, h.stage⟩⟩

instance {P A : Type} [DecidableEq P] (s : Node P A) : Decidable s.Settled :=
  decidable_of_iff (s.Idle ∧ s.stage = .maintenance [] ∧ s.managerAlive = true ∧
    s.world.coordinatorAlive = true)
    ⟨fun ⟨hidle, hst, hm, hc⟩ => ⟨hidle, hst, hm, hc⟩,
      fun h => ⟨h.idle, h.maintenance, h.managerAlive, h.coordinatorAlive⟩⟩

theorem Settled.quiescent {P A : Type} {s : Node P A} (h : s.Settled) : s.Quiescent where
  managerAlive := h.managerAlive
  coordinatorAlive := h.coordinatorAlive
  mailbox := h.idle.mailbox
  running := h.idle.running
  shardingTx := h.idle.shardingTx
  bridge := h.idle.bridge
  notices := h.idle.notices
  discovery := Or.inr (Or.inr (Or.inl h.maintenance))

/-- No sync is ahead of a settled node. -/
theorem Settled.not_syncAhead {P A : Type} {s : Node P A} (h : s.Settled) : ¬s.SyncAhead := by
  intro hahead
  obtain hearly | hsignal | hmail | hread := hahead
  · rw [h.maintenance] at hearly
    exact hearly
  · rw [h.idle.signal] at hsignal
    cases hsignal
  · rw [h.idle.mailbox] at hmail
    cases hmail
  · unfold reading at hread
    rw [h.idle.running] at hread
    cases hread

/-- The cache of a settled node is the stored machines. -/
theorem Settling.cached {P A : Type} [SerdeJson] [DecidableEq P] [PeerId P] {score : Score P}
    {s : Node P A} (hs : s.Settling score) (h : s.Settled) :
    s.world.cached = s.world.stored := by
  obtain ⟨cache, hheads, hcovers⟩ := hs.keeps h.managerAlive ⟨[], h.maintenance⟩
  have hcached : s.world.cached = cache := by
    unfold Heads at hheads
    simpa only [h.idle.running] using hheads
  have hwatched : s.watched = [] := by
    unfold watched
    rw [h.idle.watch]
    rfl
  funext machineId
  obtain hfollows | ⟨hahead, -⟩ := hcovers machineId
  · rw [h.idle.mailbox, hwatched] at hfollows
    rw [hcached]
    exact hfollows.drained
  · exact absurd hahead h.not_syncAhead

/-- The actors of a settled node are those of the stored machines that it owns. -/
theorem Settling.actors {P A : Type} [SerdeJson] [DecidableEq P] [PeerId P] [LawfulPeerId P]
    {score : Score P} {s : Node P A} (hs : s.Settling score) (h : s.Settled) {peers : List P}
    (hpeers : Lists peers s.phases.knownPeers) (machineId : String) :
    machineId ∈ s.world.manager.actors ↔
      (s.world.etcd[machinesPrefix ++ machineId]?).isSome = true ∧
        (RendezvousHasher.new peers).lookup score machineId = some s.phases.localPeerId := by
  have hstored : s.world.manager.machineSpecs[machineId]? =
      s.world.etcd[machinesPrefix ++ machineId]? := congrFun (hs.cached h) machineId
  rw [hs.tracks.quiescent h.quiescent hpeers machineId, ← hstored,
    Std.ExtTreeMap.mem_iff_isSome_getElem?]

/-- Only a commit writes to etcd. -/
theorem Steps.etcd {P A : Type} [SerdeJson] [DecidableEq P] [PeerId P] [Multiaddr A]
    {score : Score P} {s t : Node P A} {l : Label P} (h : Steps score s l t)
    (hsound : s.Sound score Parses) (hl : ∀ machineId specJson, l ≠ .commit machineId specJson) :
    t.world.etcd = s.world.etcd := by
  cases h with
  | commit machineId specJson => exact absurd rfl (hl machineId specJson)
  | advance hrunning hexec => exact (hsound.advance hrunning hexec).frame.2.1
  | forwardEvent hw => rw [send_world]
  | listen hn =>
    show (({ s with topologyNotices := s.topologyNotices - 1 } : Node P A).send
      .rebalanceActors).world.etcd = s.world.etcd
    rw [send_world]
  | sync hsignal =>
    show (s.send .syncAllMachines).world.etcd = s.world.etcd
    rw [send_world]
  | @bridgeAsk peers hb =>
    show (applyTopology peers s.world).etcd = s.world.etcd
    unfold applyTopology
    split_ifs <;> rfl
  | _ => rfl

end Node

namespace Cluster

/-- Stored specs parse, and no node's watch misses anything harmful. -/
def Careful {ι P A : Type} [SerdeJson] (c : Cluster ι P A) : ClusterLabel ι P → Prop
  | .commit machineId specJson => ∀ i, (c.nodes i).Careful (.commit machineId specJson)
  | .node i l => (c.nodes i).Careful l

instance {ι P A : Type} [Fintype ι] [SerdeJson] (c : Cluster ι P A) (l : ClusterLabel ι P) :
    Decidable (c.Careful l) :=
  match l with
  | .commit _ _ => inferInstanceAs (Decidable (∀ _, _))
  | .node _ _ => inferInstanceAs (Decidable (_ ∧ _))

/-- Every node is settling, over the same content of etcd. -/
structure Settling {ι P A : Type} [SerdeJson] [DecidableEq P] [PeerId P] (score : Score P)
    (c : Cluster ι P A) : Prop where
  nodes : ∀ i, (c.nodes i).Settling score
  shared : ∀ i j, (c.nodes i).world.etcd = (c.nodes j).world.etcd

theorem Settling.start {ι P A : Type} [SerdeJson] [DecidableEq P] [PeerId P] {score : Score P}
    {c : Cluster ι P A} (h : c.Starts)
    (hcontent : ∀ i, World.ValidContent Parses (c.nodes i).world.etcd) : c.Settling score := by
  obtain ⟨etcd, hnodes, -⟩ := h
  have hetcd : ∀ i, (c.nodes i).world.etcd = etcd := by
    intro i
    obtain ⟨_, _, _, _, _, _, hstart⟩ := hnodes i
    exact Node.start_etcd hstart
  constructor
  · intro i
    obtain ⟨_, _, _, _, _, _, hstart⟩ := hnodes i
    have hvalid := hcontent i
    rw [hetcd i] at hvalid
    exact Node.settling_start hvalid hstart
  · intro i j
    rw [hetcd i, hetcd j]

theorem commit_etcd {P A : Type} (machineId : String) (specJson : Option String)
    {s t : Node P A} (h : s.world.etcd = t.world.etcd) :
    (s.commit machineId specJson).world.etcd = (t.commit machineId specJson).world.etcd := by
  unfold Node.commit
  simp only [h]
  split_ifs
  · exact h
  · rfl

theorem Settling.step {ι P A : Type} [DecidableEq ι] [SerdeJson] [DecidableEq P] [PeerId P]
    [Multiaddr A] {score : Score P} {c c' : Cluster ι P A} {l : ClusterLabel ι P}
    (hc : c.Settling score) (hl : c.Careful l) (h : c.step score l = some c') :
    c'.Settling score := by
  cases l with
  | commit machineId specJson =>
    obtain rfl := Option.some.inj h
    constructor
    · intro i
      exact (hc.nodes i).step (hl i) (.commit machineId specJson)
    · intro i j
      exact commit_etcd machineId specJson (hc.shared i j)
  | node i l =>
    obtain ⟨machineId, specJson, new, hlabel, -⟩ | ⟨j, l', t, hlabel, hstep, rfl⟩ := step_cases h
    · cases hlabel
    · cases hlabel
      have ht := (hc.nodes i).step hl hstep
      have hetcd : t.world.etcd = (c.nodes i).world.etcd := by
        apply hstep.etcd (hc.nodes i).sound
        rintro machineId specJson rfl
        cases h
      constructor
      · intro j
        show (Function.update c.nodes i t j).Settling score
        by_cases hj : j = i
        · rw [hj, Function.update_self]
          exact ht
        · rw [Function.update_of_ne hj]
          exact hc.nodes j
      · have hsame : ∀ j, (Function.update c.nodes i t j).world.etcd =
            (c.nodes j).world.etcd := by
          intro j
          by_cases hj : j = i
          · rw [hj, Function.update_self]
            exact hetcd
          · rw [Function.update_of_ne hj]
        intro j k
        show (Function.update c.nodes i t j).world.etcd = (Function.update c.nodes i t k).world.etcd
        rw [hsame j, hsame k]
        exact hc.shared j k

end Cluster
end Neolaas
