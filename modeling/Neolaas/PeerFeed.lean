import Neolaas.Discovery
import Neolaas.LabelledRuns

/-!
# Known peers and registered peers

A node's discovery against the registrations of its cluster: the node registers,
reads all registrations once, and follows a watch that it opens after the read
and again after each failure. A watch delivers what is committed while it is
open. What is committed in between reaches nobody.
-/
namespace Neolaas
open ChangeLog LabelledRuns PeerId

/-- How far the controller has come. -/
inductive FeedStage where
  | started
  | registered
  | converged
  | stopped
  deriving DecidableEq

/-- The registrations in etcd beside one node's discovery. The open watch holds
the committed changes that the node has not yet processed. -/
structure PeerFeed (P A : Type) where
  etcd : Etcd
  phases : DiscoveryPhases P A
  stage : FeedStage
  watch : Option (List (Change String String))

namespace PeerFeed

inductive Label (P : Type) where
  | register (p : P) (value : String)
  | deregister (p : P)
  | registerSelf
  | converge (peers : List P)
  | enterMaintenance
  | deliver (peers : List P)
  | loseWatch

/-- A node before its registration. -/
def start {P A : Type} (clusterId : String) (localPeerId : P) (localAddr : A) (logDebug : Bool) :
    PeerFeed P A where
  etcd := ∅
  phases := DiscoveryPhases.new clusterId localPeerId localAddr logDebug
  stage := .started
  watch := none

/-- The key of a peer in the node's cluster. -/
def key {P A : Type} [PeerId P] (s : PeerFeed P A) (p : P) : String :=
  peerKey s.phases.clusterId p

/-- A write to etcd, which an open watch will deliver. -/
def commit {P A : Type} (s : PeerFeed P A) (c : Change String String) : PeerFeed P A :=
  { s with etcd := s.etcd.apply c, watch := s.watch.map (fun pending => pending ++ [c]) }

/-- Peers register values that decode, and leave. The node takes its phases in
order, processes the events of its watch, loses the watch and opens another. -/
def step {P A : Type} [SerdeJson] [DecidableEq P] [PeerId P] [Multiaddr A]
    (s : PeerFeed P A) : Label P → Option (PeerFeed P A)
  | .register p value =>
    if (DiscoveryPhases.peerAddr (A := A) value).isSome then
      some (s.commit ⟨s.key p, some value⟩)
    else none
  | .deregister p =>
    if s.etcd[s.key p]?.isSome then some (s.commit ⟨s.key p, none⟩) else none
  | .registerSelf =>
    if s.stage = .started then
      some { s with etcd := s.phases.register s.etcd, stage := .registered }
    else none
  | .converge peers =>
    if s.stage = .registered then
      match s.phases.converge (fun _ => peers)
          (s.etcd.getPrefix (peersPrefix s.phases.clusterId)) with
      | .ok phases =>
        if Lists peers phases.knownPeers then
          some { s with phases := phases, stage := .converged }
        else none
      | .error phases => some { s with phases := phases, stage := .stopped }
      | .panicked => some { s with stage := .stopped }
    else none
  | .enterMaintenance =>
    if s.stage = .converged ∧ s.watch = none then some { s with watch := some [] } else none
  | .deliver peers =>
    match s.watch with
    | some (c :: pending) =>
      match s.phases.processEvent (fun _ => peers) (Etcd.event c) with
      | .ok phases =>
        if Lists peers phases.knownPeers then
          some { s with phases := phases, watch := some pending }
        else none
      | .error phases => some { s with phases := phases, watch := none }
      | .panicked => some { s with stage := .stopped, watch := none }
    | _ => none
  | .loseWatch => if s.watch = none then none else some { s with watch := none }

/-- A peer that is registered in the node's cluster. -/
def Registered {P A : Type} [PeerId P] (s : PeerFeed P A) (p : P) : Prop :=
  s.etcd[s.key p]? ≠ none

instance {P A : Type} [PeerId P] (s : PeerFeed P A) (p : P) : Decidable (s.Registered p) :=
  inferInstanceAs (Decidable (¬_ = _))

/-- No event of another peer goes missing: after the snapshot, peers come and go
only while a watch is open, and a watch is lost only when none of its pending
events is about another peer. -/
def NoGap {P A : Type} [PeerId P] (s : PeerFeed P A) (l : Label P) : Prop :=
  s.stage = .converged →
    match l with
    | .register p _ => s.watch ≠ none ∨ p = s.phases.localPeerId ∨ s.Registered p
    | .deregister p => s.watch ≠ none ∨ p = s.phases.localPeerId
    | .loseWatch => ∀ pending ∈ s.watch, ∀ c ∈ pending, c.key = s.key s.phases.localPeerId
    | _ => True

instance {P A : Type} [DecidableEq P] [PeerId P] (s : PeerFeed P A) (l : Label P) :
    Decidable (s.NoGap l) :=
  match l with
  | .register _ _ => inferInstanceAs (Decidable (_ → _ ∨ _ ∨ _))
  | .deregister _ => inferInstanceAs (Decidable (_ → _ ∨ _))
  | .loseWatch => inferInstanceAs (Decidable (_ → ∀ pending ∈ s.watch, ∀ c ∈ pending, _ = _))
  | .registerSelf | .converge _ | .enterMaintenance | .deliver _ =>
    inferInstanceAs (Decidable (_ → True))

/-- The registrations as a content that changes of peers act on. -/
def registeredView {P A : Type} [PeerId P] (s : PeerFeed P A) : P → Option Unit :=
  fun p => s.etcd[s.key p]?.map (fun _ => ())

/-- What the pending events will change in the known peers. -/
def pendingChanges {P A : Type} [SerdeJson] [DecidableEq P] [PeerId P] [Multiaddr A]
    (s : PeerFeed P A) : List (Change P Unit) :=
  (s.watch.getD []).filterMap s.phases.peerChange

/-- A change to the registration of a peer: a value that decodes, or its end. -/
def IsRegistration {P A : Type} [SerdeJson] [PeerId P] [Multiaddr A] (s : PeerFeed P A)
    (c : Change String String) : Prop :=
  ∃ p, c.key = s.key p ∧
    ∀ value, c.value = some value → (DiscoveryPhases.peerAddr (A := A) value).isSome

/-- The content of the cluster's prefix: decodable values of other peers, and the
node's own value. -/
def Clean {P A : Type} [SerdeJson] [PeerId P] [Multiaddr A] (s : PeerFeed P A) : Prop :=
  ∀ name value, s.etcd[peersPrefix s.phases.clusterId ++ name]? = some value →
    ∃ p, name = toBase58 p ∧ (p = s.phases.localPeerId ∨
      (DiscoveryPhases.peerAddr (A := A) value).isSome)

/-- What holds in every reached state while no event goes missing: the known peers
follow the registrations through the pending events. -/
structure Tracks {P A : Type} [SerdeJson] [DecidableEq P] [PeerId P] [Multiaddr A]
    (s : PeerFeed P A) : Prop where
  clean : s.Clean
  pending : ∀ c ∈ s.watch.getD [], s.IsRegistration c
  closed : s.stage ≠ .converged → s.watch = none
  fresh : s.stage = .started ∨ s.stage = .registered →
    s.phases.knownPeers = {s.phases.localPeerId}
  follows : s.stage = .converged → ∀ p, p ≠ s.phases.localPeerId →
    Follows s.phases.knownView s.pendingChanges s.registeredView p

/-- A registration of another peer is seen as its change, the node's own at most
as a change of the node. -/
theorem peerChange_registration {P A : Type} [SerdeJson] [DecidableEq P] [PeerId P]
    [LawfulPeerId P] [Multiaddr A] (s : PeerFeed P A) (p : P) (value : Option String)
    (hvalue : ∀ v, value = some v → (DiscoveryPhases.peerAddr (A := A) v).isSome) :
    (p ≠ s.phases.localPeerId →
      s.phases.peerChange ⟨s.key p, value⟩ = some ⟨p, value.map (fun _ => ())⟩) ∧
    ∀ change, s.phases.peerChange ⟨s.key p, value⟩ = some change → change.key = p := by
  unfold DiscoveryPhases.peerChange key
  cases value with
  | none => simp
  | some v =>
    obtain ⟨addr, haddr⟩ := Option.isSome_iff_exists.mp (hvalue v rfl)
    simp only [DiscoveryPhases.decodePeer_peerKey, haddr, Option.map_some]
    by_cases hp : p = s.phases.localPeerId
    · simp [hp]
    · simp [hp]

/-- A committed registration changes the registered peers as its event says. -/
theorem registeredView_commit {P A : Type} [PeerId P] [DecidableEq P]
    (hinj : Function.Injective (toBase58 : P → String)) (s : PeerFeed P A) (p : P)
    (value : Option String) : (s.commit ⟨s.key p, value⟩).registeredView =
      Change.apply s.registeredView ⟨p, value.map (fun _ => ())⟩ := by
  funext q
  have hget : (s.commit ⟨s.key p, value⟩).registeredView q =
      (Change.apply (fun k => s.etcd[k]?) ⟨s.key p, value⟩ (s.key q)).map (fun _ => ()) :=
    congrArg (Option.map _) (Etcd.getElem?_apply ..)
  rw [hget]
  by_cases h : q = p
  · rw [h, Change.apply, Change.apply, Function.update_self, Function.update_self]
  · have hne : s.key q ≠ s.key p := fun he => h (hinj (append_left_injective _ he))
    rw [Change.apply, Change.apply, Function.update_of_ne hne, Function.update_of_ne h]
    rfl

theorem tracks_start {P A : Type} [SerdeJson] [DecidableEq P] [PeerId P] [Multiaddr A]
    (clusterId : String) (localPeerId : P) (localAddr : A) (logDebug : Bool) :
    (start clusterId localPeerId localAddr logDebug).Tracks where
  clean name value h := by simp [start] at h
  pending c h := by simp [start] at h
  closed _ := rfl
  fresh _ := rfl
  follows h := by cases h

/-- A committed registration that does not go missing keeps the view on track. -/
theorem Tracks.commit {P A : Type} [SerdeJson] [DecidableEq P] [PeerId P] [LawfulPeerId P]
    [Multiaddr A] {s : PeerFeed P A} (hs : s.Tracks) (p : P) (value : Option String)
    (hvalue : ∀ v, value = some v → (DiscoveryPhases.peerAddr (A := A) v).isSome)
    (hgap : s.stage = .converged → s.watch ≠ none ∨ p = s.phases.localPeerId ∨
      (s.Registered p ∧ value ≠ none)) : (s.commit ⟨s.key p, value⟩).Tracks := by
  have hview := registeredView_commit toBase58_injective s p value
  obtain ⟨hother, hkeys⟩ := peerChange_registration s p value hvalue
  constructor
  · intro name v hget
    have hget' : Change.apply (fun k => s.etcd[k]?) ⟨s.key p, value⟩
        (peersPrefix s.phases.clusterId ++ name) = some v :=
      (Etcd.getElem?_apply ..).symm.trans hget
    by_cases hname : peersPrefix s.phases.clusterId ++ name = s.key p
    · rw [hname, Change.apply, Function.update_self] at hget'
      exact ⟨p, append_left_injective _ hname, Or.inr (hvalue v hget')⟩
    · rw [Change.apply, Function.update_of_ne hname] at hget'
      exact hs.clean name v hget'
  · intro c hc
    simp only [PeerFeed.commit] at hc
    cases hw : s.watch with
    | none => simp [hw] at hc
    | some pending =>
      simp only [hw, Option.map_some, Option.getD_some, List.mem_append, List.mem_singleton] at hc
      obtain hc | rfl := hc
      · exact hs.pending c (by simpa [hw] using hc)
      · exact ⟨p, rfl, hvalue⟩
  · intro hstage
    simp [PeerFeed.commit, hs.closed hstage]
  · exact hs.fresh
  · intro hstage q hq
    have hfollows := hs.follows hstage q hq
    rw [hview]
    cases hw : s.watch with
    | none =>
      have hpending : (s.commit ⟨s.key p, value⟩).pendingChanges = s.pendingChanges := by
        simp [pendingChanges, PeerFeed.commit, hw]
      rw [hpending]
      apply hfollows.of_store_eq
      by_cases hqp : q = p
      · obtain hopen | rfl | ⟨hreg, hput⟩ := hgap hstage
        · exact absurd hw hopen
        · exact absurd hqp hq
        · subst hqp
          obtain ⟨v, rfl⟩ := Option.ne_none_iff_exists'.mp hput
          obtain ⟨w, hreg⟩ := Option.ne_none_iff_exists'.mp hreg
          rw [Change.apply, Function.update_self]
          simp [registeredView, hreg]
      · exact Change.apply_of_ne _ _ hqp
    | some pending =>
      have hpending : (s.commit ⟨s.key p, value⟩).pendingChanges =
          s.pendingChanges ++ (s.phases.peerChange ⟨s.key p, value⟩).toList := by
        simp only [pendingChanges, PeerFeed.commit, hw, Option.map_some, Option.getD_some,
          List.filterMap_append, List.filterMap_cons, List.filterMap_nil]
        cases s.phases.peerChange ⟨s.key p, value⟩ <;> rfl
      rw [hpending]
      by_cases hp : p = s.phases.localPeerId
      · have hqp : q ≠ p := fun he => hq (he.trans hp)
        rw [Follows.append_iff]
        · exact hfollows.of_store_eq (Change.apply_of_ne _ _ hqp)
        · rintro ⟨change, hmem, hkey⟩
          have hk := hkeys change (Option.mem_toList.mp hmem)
          exact hqp (hkey.symm.trans hk)
      · rw [hother hp]
        exact hfollows.commit _

/-- The node's own registration comes before the snapshot. -/
theorem Tracks.registerSelf {P A : Type} [SerdeJson] [DecidableEq P] [PeerId P]
    [Multiaddr A] {s : PeerFeed P A} (hs : s.Tracks) (hstage : s.stage = .started) :
    ({ s with etcd := s.phases.register s.etcd, stage := .registered } : PeerFeed P A).Tracks where
  clean name value hget := by
    simp only [DiscoveryPhases.register, Std.ExtTreeMap.getElem?_insert] at hget
    by_cases hname : peerKey s.phases.clusterId s.phases.localPeerId =
        peersPrefix s.phases.clusterId ++ name
    · exact ⟨s.phases.localPeerId, (append_left_injective _ hname).symm, Or.inl rfl⟩
    · rw [if_neg (by simpa using hname)] at hget
      exact hs.clean name value hget
  pending := hs.pending
  closed _ := hs.closed (by simp [hstage])
  fresh _ := hs.fresh (Or.inl hstage)
  follows h := by cases h

/-- The snapshot makes the known peers those that are registered. -/
theorem Tracks.converge {P A : Type} [SerdeJson] [DecidableEq P] [PeerId P] [LawfulPeerId P]
    [Multiaddr A] {s : PeerFeed P A} (hs : s.Tracks) (hstage : s.stage = .registered)
    {iter : Finset P → List P} {phases : DiscoveryPhases P A}
    (h : s.phases.converge iter (s.etcd.getPrefix (peersPrefix s.phases.clusterId)) =
      .ok phases) :
    ({ s with phases := phases, stage := .converged } : PeerFeed P A).Tracks := by
  have hwatch : s.watch = none := hs.closed (by simp [hstage])
  obtain ⟨hsame, hknown⟩ : s.phases.SameNode phases ∧ ∀ p, p ∈ phases.knownPeers ↔
      p ∈ s.phases.knownPeers ∨
        ∃ kv ∈ s.etcd.getPrefix (peersPrefix s.phases.clusterId), s.phases.Names kv p := by
    unfold DiscoveryPhases.converge at h
    cases hloop : Outcome.forEach DiscoveryPhases.convergeKv
        (s.etcd.getPrefix (peersPrefix s.phases.clusterId)) s.phases with
    | error failed => simp [hloop] at h
    | panicked => simp [hloop] at h
    | ok done =>
      simp only [hloop] at h
      obtain rfl := Outcome.ok.inj h
      have hdone := DiscoveryPhases.forEach_convergeKv_ok hloop
      exact hdone
  have hkey : ∀ p, peerKey phases.clusterId p = s.key p := fun p => by rw [hsame.1, key]
  -- A pair of the snapshot names exactly the other peer that it registers.
  have hnames : ∀ p, p ≠ s.phases.localPeerId →
      ((∃ kv ∈ s.etcd.getPrefix (peersPrefix s.phases.clusterId), s.phases.Names kv p) ↔
        s.Registered p) := by
    intro p hp
    constructor
    · rintro ⟨kv, hmem, key, value, addr, hkey, hvalue, hdecode⟩
      obtain ⟨name, v, hget, rfl⟩ := Etcd.mem_getPrefix.mp hmem
      obtain ⟨q, rfl, -⟩ := hs.clean name v hget
      rw [KeyValue.keyStr_ofText] at hkey
      obtain rfl := Option.some.inj hkey
      have hq := DiscoveryPhases.decodePeer_peerKey s.phases q value
      rw [peerKey, hdecode] at hq
      split_ifs at hq
      obtain ⟨_, -, hpair⟩ := Option.map_eq_some_iff.mp hq.symm
      obtain rfl := congrArg Prod.fst hpair
      unfold Registered key peerKey
      simp [hget]
    · intro hreg
      obtain ⟨value, hget⟩ := Option.ne_none_iff_exists'.mp hreg
      obtain ⟨q, hq, hdec⟩ := hs.clean (toBase58 p) value hget
      obtain rfl := toBase58_injective hq
      obtain ⟨addr, haddr⟩ := Option.isSome_iff_exists.mp (hdec.resolve_left hp)
      refine ⟨KeyValue.ofText (s.key p) value, Etcd.mem_getPrefix.mpr ⟨_, _, hget, rfl⟩,
        s.key p, value, addr, by simp, by simp, ?_⟩
      rw [key, DiscoveryPhases.decodePeer_peerKey, if_neg hp, haddr]
      rfl
  constructor
  · intro name value hget
    rw [hsame.1] at hget
    rw [hsame.2]
    exact hs.clean name value hget
  · intro c hc
    simp [hwatch] at hc
  · intro hne
    exact absurd rfl hne
  · intro hearly
    obtain he | he := hearly <;> cases he
  · intro _ p hp
    rw [hsame.2] at hp
    have hmem : p ∈ phases.knownPeers ↔ s.Registered p := by
      rw [hknown p, hs.fresh (Or.inr hstage), hnames p hp]
      simp [hp]
    have hpending : ({ s with phases := phases, stage := .converged } :
        PeerFeed P A).pendingChanges = [] := by
      simp [pendingChanges, hwatch]
    rw [hpending]
    show (if p ∈ phases.knownPeers then some () else none) =
      s.etcd[peerKey phases.clusterId p]?.map (fun _ => ())
    rw [hkey]
    by_cases hreg : s.Registered p
    · obtain ⟨v, hget⟩ := Option.ne_none_iff_exists'.mp hreg
      rw [if_pos (hmem.mpr hreg), hget]
      rfl
    · have hnone : s.etcd[s.key p]? = none := not_not.mp hreg
      rw [if_neg (fun hk => hreg (hmem.mp hk)), hnone]
      rfl

/-- A processed event has reached the known peers. -/
theorem Tracks.deliver {P A : Type} [SerdeJson] [DecidableEq P] [PeerId P] [Multiaddr A]
    {s : PeerFeed P A} (hs : s.Tracks) {c : Change String String}
    {rest : List (Change String String)} (hw : s.watch = some (c :: rest))
    {iter : Finset P → List P} {phases : DiscoveryPhases P A}
    (h : s.phases.processEvent iter (Etcd.event c) = .ok phases) :
    ({ s with phases := phases, watch := some rest } : PeerFeed P A).Tracks := by
  obtain ⟨hsame, hview⟩ := DiscoveryPhases.processEvent_ok h
  have hstage : s.stage = .converged := by
    by_contra hne
    rw [hs.closed hne] at hw
    cases hw
  constructor
  · intro name value hget
    rw [hsame.1] at hget
    rw [hsame.2]
    exact hs.clean name value hget
  · intro c' hc'
    obtain ⟨p, hkey, hvalue⟩ := hs.pending c' (by simpa [hw] using Or.inr hc')
    refine ⟨p, ?_, hvalue⟩
    rw [hkey, key, key, hsame.1]
  · intro hne
    exact absurd hstage hne
  · intro hearly
    rw [hstage] at hearly
    obtain he | he := hearly <;> cases he
  · intro _ p hp
    rw [hsame.2] at hp
    have hfollows := hs.follows hstage p hp
    have hpending : s.pendingChanges = (s.phases.peerChange c).toList ++
        ({ s with phases := phases, watch := some rest } : PeerFeed P A).pendingChanges := by
      have hchange : phases.peerChange = s.phases.peerChange := funext hsame.peerChange
      simp only [pendingChanges, hw, Option.getD_some, hchange, List.filterMap_cons]
      cases s.phases.peerChange c <;> rfl
    have hstore : ({ s with phases := phases, watch := some rest } : PeerFeed P A).registeredView =
        s.registeredView := by
      unfold registeredView key
      rw [hsame.1]
    rw [hstore]
    unfold Follows at hfollows ⊢
    rw [hpending, replay_append, ← hview] at hfollows
    exact hfollows

/-- Losing a watch without pending events of other peers loses nothing. -/
theorem Tracks.loseWatch {P A : Type} [SerdeJson] [DecidableEq P] [PeerId P] [LawfulPeerId P]
    [Multiaddr A] {s : PeerFeed P A} (hs : s.Tracks)
    (hown : s.stage = .converged → ∀ pending, s.watch = some pending →
      ∀ c ∈ pending, c.key = s.key s.phases.localPeerId) :
    ({ s with watch := none } : PeerFeed P A).Tracks where
  clean := hs.clean
  pending c hc := by simp at hc
  closed _ := rfl
  fresh := hs.fresh
  follows hstage p hp := by
    have hfollows := hs.follows hstage p hp
    have huntouched : ¬Touches s.pendingChanges p := by
      rintro ⟨change, hmem, hkey⟩
      obtain ⟨c, hc, hchange⟩ := List.mem_filterMap.mp hmem
      cases hw : s.watch with
      | none => simp [hw] at hc
      | some pending =>
        have hin : c ∈ pending := by simpa [hw] using hc
        have hck := hown hstage pending hw c hin
        obtain ⟨q, hq, hvalue⟩ := hs.pending c hc
        have hqp : q = s.phases.localPeerId :=
          toBase58_injective (append_left_injective _ (hq.symm.trans hck))
        have hkeys := (peerChange_registration s q c.value hvalue).2 change
        rw [← hq] at hkeys
        exact hp (hkey.symm.trans ((hkeys hchange).trans hqp))
    have hnil : ({ s with watch := none } : PeerFeed P A).pendingChanges = [] := rfl
    rw [hnil]
    rw [← List.nil_append s.pendingChanges, Follows.append_iff huntouched] at hfollows
    exact hfollows

/-- A controller that has stopped needs no view. -/
theorem Tracks.stop {P A : Type} [SerdeJson] [DecidableEq P] [PeerId P] [Multiaddr A]
    {s : PeerFeed P A} (hs : s.Tracks) {phases : DiscoveryPhases P A}
    (hsame : s.phases.SameNode phases) :
    ({ s with phases := phases, stage := .stopped, watch := none } : PeerFeed P A).Tracks where
  clean name value hget := by
    rw [hsame.1] at hget
    rw [hsame.2]
    exact hs.clean name value hget
  pending c hc := by simp at hc
  closed _ := rfl
  fresh h := by obtain he | he := h <;> cases he
  follows h := by cases h

/-- A step that lets no event go missing keeps the view on track. -/
theorem Tracks.step {P A : Type} [SerdeJson] [DecidableEq P] [PeerId P] [LawfulPeerId P]
    [Multiaddr A] {s t : PeerFeed P A} {l : Label P} (hs : s.Tracks) (hgap : s.NoGap l)
    (h : s.step l = some t) : t.Tracks := by
  cases l with
  | register p value =>
    simp only [PeerFeed.step] at h
    split_ifs at h with hvalue
    obtain rfl := Option.some.inj h
    apply hs.commit
    · intro v hv
      obtain rfl := Option.some.inj hv
      exact hvalue
    · intro hstage
      obtain hopen | hown | hreg := hgap hstage
      · exact Or.inl hopen
      · exact Or.inr (Or.inl hown)
      · exact Or.inr (Or.inr ⟨hreg, by simp⟩)
  | deregister p =>
    simp only [PeerFeed.step] at h
    split_ifs at h
    obtain rfl := Option.some.inj h
    apply hs.commit
    · intro v hv
      cases hv
    · intro hstage
      obtain hopen | hown := hgap hstage
      · exact Or.inl hopen
      · exact Or.inr (Or.inl hown)
  | registerSelf =>
    simp only [PeerFeed.step] at h
    split_ifs at h with hstage
    obtain rfl := Option.some.inj h
    exact hs.registerSelf hstage
  | converge peers =>
    simp only [PeerFeed.step] at h
    split_ifs at h with hstage
    have hwatch : s.watch = none := hs.closed (by simp [hstage])
    cases hc : s.phases.converge (fun _ => peers)
        (s.etcd.getPrefix (peersPrefix s.phases.clusterId)) with
    | ok phases =>
      simp only [hc] at h
      split_ifs at h
      obtain rfl := Option.some.inj h
      exact hs.converge hstage hc
    | error failed =>
      refine absurd hc (DiscoveryPhases.converge_ne_error ?_ _ _ _)
      intro kv hmem
      obtain ⟨name, value, -, rfl⟩ := Etcd.mem_getPrefix.mp hmem
      simp
    | panicked =>
      simp only [hc] at h
      obtain rfl := Option.some.inj h
      have hsame : s.phases.SameNode s.phases := ⟨rfl, rfl⟩
      have hstop := hs.stop hsame
      rwa [← hwatch] at hstop
  | enterMaintenance =>
    simp only [PeerFeed.step] at h
    split_ifs at h with hopen
    obtain ⟨hstage, hwatch⟩ := hopen
    obtain rfl := Option.some.inj h
    have hpending : ({ s with watch := some [] } : PeerFeed P A).pendingChanges =
        s.pendingChanges := by
      simp [pendingChanges, hwatch]
    refine ⟨hs.clean, ?_, fun hne => absurd hstage hne, hs.fresh, ?_⟩
    · intro c hc
      simp at hc
    · intro _ p hp
      rw [hpending]
      exact hs.follows hstage p hp
  | deliver peers =>
    simp only [PeerFeed.step] at h
    cases hw : s.watch with
    | none => simp [hw] at h
    | some pending =>
      cases pending with
      | nil => simp [hw] at h
      | cons c rest =>
        simp only [hw] at h
        cases hc : s.phases.processEvent (fun _ => peers) (Etcd.event c) with
        | ok phases =>
          simp only [hc] at h
          split_ifs at h
          obtain rfl := Option.some.inj h
          exact hs.deliver hw hc
        | error failed => exact absurd hc (DiscoveryPhases.processEvent_ne_error _ _ _ _)
        | panicked =>
          simp only [hc] at h
          obtain rfl := Option.some.inj h
          exact hs.stop ⟨rfl, rfl⟩
  | loseWatch =>
    simp only [PeerFeed.step] at h
    split_ifs at h
    obtain rfl := Option.some.inj h
    exact hs.loseWatch (fun hstage pending hw => hgap hstage pending hw)

/-- In every run in which no event goes missing, a node that has processed all
events of its open watch knows exactly the other peers that are registered. -/
theorem known_peers_registered {P A : Type} [SerdeJson] [DecidableEq P] [PeerId P]
    [LawfulPeerId P] [Multiaddr A] (clusterId : String) (localPeerId : P) (localAddr : A)
    (logDebug : Bool) (labels : List (Label P)) (s : PeerFeed P A)
    (h : Run (Guarded NoGap (StepOf PeerFeed.step))
      (start clusterId localPeerId localAddr logDebug) labels s) (hdrained : s.watch = some []) :
    ∀ p, p ∈ s.phases.knownPeers.erase s.phases.localPeerId ↔
      p ≠ s.phases.localPeerId ∧ s.Registered p := by
  have hs : s.Tracks := h.invariant (I := Tracks)
    (fun _ _ _ hs hstep => hs.step hstep.1 hstep.2) (tracks_start ..)
  have hstage : s.stage = .converged := by
    by_contra hne
    rw [hs.closed hne] at hdrained
    cases hdrained
  intro p
  rw [Finset.mem_erase]
  apply and_congr_right
  intro hp
  have hfollows := hs.follows hstage p hp
  have hpending : s.pendingChanges = [] := by simp [pendingChanges, hdrained]
  rw [hpending] at hfollows
  have heq := hfollows.drained
  unfold DiscoveryPhases.knownView registeredView at heq
  unfold Registered
  by_cases hk : p ∈ s.phases.knownPeers
  · rw [if_pos hk] at heq
    simp only [hk, true_iff]
    intro hnone
    simp [hnone] at heq
  · rw [if_neg hk] at heq
    simp only [hk, false_iff, not_not]
    exact Option.map_eq_none_iff.mp heq.symm

/-- A peer that registers before the snapshot and leaves while the watch is open. -/
theorem known_peers_registered_leave :
    let _ : SerdeJson := SerdeJson.knowing [otherMetadata.toJson]
    let a := peerOf "12D3KooWA"
    let b := peerOf "12D3KooWB"
    ∃ s : PeerFeed Base58Text Ip4Text,
      Run (Guarded NoGap (StepOf PeerFeed.step)) (start "lab" a ⟨"/ip4/10.0.0.1/tcp/5000"⟩ false)
        [.registerSelf, .register b otherMetadata.toJson.text, .converge [a, b],
          .enterMaintenance, .deregister b, .deliver [a]] s ∧
      (b ∈ s.phases.knownPeers.erase s.phases.localPeerId ↔
        b ≠ s.phases.localPeerId ∧ s.Registered b) := by
  intro _ a b
  obtain ⟨s, hs, hdrained⟩ := Run.exists_guarded_of_foldlM NoGap PeerFeed.step
    (fun s : PeerFeed Base58Text Ip4Text => s.watch = some [])
    (start "lab" a ⟨"/ip4/10.0.0.1/tcp/5000"⟩ false)
    [.registerSelf, .register b otherMetadata.toJson.text, .converge [a, b],
      .enterMaintenance, .deregister b, .deliver [a]] (by decide +kernel)
  exact ⟨s, hs, known_peers_registered _ _ _ _ _ s hs hdrained b⟩

/-- A peer that registers between the snapshot and the first watch stays unknown
although the watch has no events left. -/
theorem not_known_peers_registered : ¬∀ [SerdeJson] (clusterId : String) (localPeerId : Base58Text)
    (localAddr : Ip4Text) (logDebug : Bool) (labels : List (Label Base58Text))
    (s : PeerFeed Base58Text Ip4Text),
    Run (StepOf PeerFeed.step) (start clusterId localPeerId localAddr logDebug) labels s →
      s.watch = some [] → ∀ p, p ∈ s.phases.knownPeers.erase s.phases.localPeerId ↔
        p ≠ s.phases.localPeerId ∧ s.Registered p := by
  intro hclaim
  let _ : SerdeJson := SerdeJson.knowing [otherMetadata.toJson]
  obtain ⟨s, hs, hdrained, hnot⟩ := Run.exists_of_foldlM PeerFeed.step
    (fun s : PeerFeed Base58Text Ip4Text => s.watch = some [] ∧
      ¬(peerOf "12D3KooWB" ∈ s.phases.knownPeers.erase s.phases.localPeerId ↔
        peerOf "12D3KooWB" ≠ s.phases.localPeerId ∧ s.Registered (peerOf "12D3KooWB")))
    (start "lab" (peerOf "12D3KooWA") ⟨"/ip4/10.0.0.1/tcp/5000"⟩ false)
    [.registerSelf, .converge [peerOf "12D3KooWA"],
      .register (peerOf "12D3KooWB") otherMetadata.toJson.text, .enterMaintenance]
    (by decide +kernel)
  exact hnot (hclaim _ _ _ _ _ s hs hdrained (peerOf "12D3KooWB"))

end PeerFeed
end Neolaas
