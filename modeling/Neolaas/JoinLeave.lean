import Neolaas.RebalanceReplay

/-!
# A peer joins or leaves

Rendezvous hashing moves keys to a newcomer or from a leaver only, so that a
rebalance after a join only stops actors and one after a leave only spawns them.
A lookup that panics ends the rebalance early: the machines that change hands
must come before it in the order of the spec map.
-/
namespace Neolaas
open AtomicProgram PeerId

namespace RendezvousHasher

/-- The owner after a join is the newcomer or the owner before. -/
theorem lookup_joined {P : Type} [DecidableEq P] [PeerId P]
    (hinj : Function.Injective (toBase58 : P → String)) (score : Score P) {peers joined : List P}
    {p : P} (hne : peers ≠ []) (hjoined : ∀ q, q ∈ joined ↔ q = p ∨ q ∈ peers) (key : String) :
    (new joined).lookup score key = some p ∨
      (new joined).lookup score key = (new peers).lookup score key := by
  have hset : joined.toFinset = insert p peers.toFinset := by
    ext q
    rw [List.mem_toFinset, Finset.mem_insert, List.mem_toFinset, hjoined]
  have hnonempty : peers.toFinset.Nonempty := by
    rw [List.toFinset_nonempty_iff]
    exact hne
  obtain ⟨owner, -, hlookup, -, hadd⟩ := minimal_disruption hinj score key peers.toFinset hnonempty
    (new peers) ⟨peers, rfl, Or.inl rfl⟩
  rw [hlookup]
  exact hadd p (new joined) ⟨joined, hset, Or.inl rfl⟩

/-- The owner before a leave is the leaver or the owner after. -/
theorem lookup_left {P : Type} [DecidableEq P] [PeerId P]
    (hinj : Function.Injective (toBase58 : P → String)) (score : Score P) {peers left : List P}
    {p : P} (hne : peers ≠ []) (hleft : ∀ q, q ∈ left ↔ q ≠ p ∧ q ∈ peers) (key : String) :
    (new peers).lookup score key = some p ∨
      (new left).lookup score key = (new peers).lookup score key := by
  have hset : left.toFinset = peers.toFinset.erase p := by
    ext q
    rw [List.mem_toFinset, Finset.mem_erase, List.mem_toFinset, hleft]
  have hnonempty : peers.toFinset.Nonempty := by
    rw [List.toFinset_nonempty_iff]
    exact hne
  obtain ⟨owner, hmem, hlookup, hremove, -⟩ := minimal_disruption hinj score key peers.toFinset
    hnonempty (new peers) ⟨peers, rfl, Or.inl rfl⟩
  rw [hlookup]
  by_cases howner : owner = p
  · exact Or.inl (congrArg some howner)
  · exact Or.inr (hremove (peers.toFinset.erase p) (Finset.erase_subset p _)
      (Finset.mem_erase.mpr ⟨howner, hmem⟩) (new left) ⟨left, hset, Or.inl rfl⟩)

/-- The text of the owner, if there is one, is long enough to be shortened. -/
def ownerShortens {P : Type} [PeerId P] (score : Score P) (self : RendezvousHasher P)
    (key : String) : Bool :=
  (self.lookup score key).all (fun p => (short (toBase58 p)).isSome)

end RendezvousHasher

/-- A lookup panics exactly over an owner whose text is too short. -/
theorem ShardingCoordinator.answers_eq_ownerShortens {P : Type} [DecidableEq P] [PeerId P]
    (score : Score P) (self : ShardingCoordinator P) :
    self.answers score = self.hasher.ownerShortens score := by
  ext1 key
  rw [Bool.eq_iff_iff, answers_iff, RendezvousHasher.ownerShortens]
  cases self.hasher.lookup score key <;> simp

namespace World

/-- A node of the listed peers that has exactly the actors that it should. -/
structure OwnsExactly {P : Type} [PeerId P] (score : Score P) (peers : List P)
    (w : World P) : Prop where
  coordinator : ShardingCoordinator.new w.manager.localPeerId peers = some w.coordinator
  alive : w.coordinatorAlive = true
  listed : w.manager.localPeerId ∈ peers
  actors : w.Settled score

/-- No actor is spawned, the stopped ones are those of machines that the newcomer
owns, and every other one is as it was. -/
def JoinDisturbs {P : Type} [DecidableEq P] [PeerId P] (score : Score P) (joined : List P) (p : P)
    (w w' : World P) : Prop :=
  ∃ es, w'.events = w.events ++ es ∧ es.filterMap Event.spawned = [] ∧
    (∀ id, id ∈ es.filterMap Event.stopped ↔ id ∈ w.manager.actors ∧
      (RendezvousHasher.new joined).lookup score id = some p) ∧
    ∀ id : String, w'.manager.actors[id]? =
      if (RendezvousHasher.new joined).lookup score id = some p then none
      else w.manager.actors[id]?

/-- The machines of the leaver that become local. -/
def Inherits {P : Type} [PeerId P] (score : Score P) (peers left : List P) (p : P) (w : World P)
    (machineId : String) : Prop :=
  machineId ∈ w.manager.machineSpecs ∧
    (RendezvousHasher.new peers).lookup score machineId = some p ∧
    (RendezvousHasher.new left).lookup score machineId = some w.manager.localPeerId

/-- No actor is stopped or changed, and if all cached specs parse, the spawned ones
are those of the machines that the node inherits from the leaver. -/
def LeaveDisturbs {P : Type} [SerdeJson] [PeerId P] (score : Score P) (peers left : List P) (p : P)
    (w w' : World P) : Prop :=
  ∃ es, w'.events = w.events ++ es ∧ es.filterMap Event.stopped = [] ∧
    (∀ id ∈ w.manager.actors, w'.manager.actors[id]? = w.manager.actors[id]?) ∧
    (w.ValidSpecs Parses →
      (∀ id, id ∈ es.filterMap Event.spawned ↔ w.Inherits score peers left p id) ∧
      ∀ id, id ∈ w'.manager.actors ↔ id ∈ w.manager.actors ∨ w.Inherits score peers left p id)

/-- The node after its coordinator has applied a peer list. -/
theorem OwnsExactly.applyTopology {P : Type} [PeerId P] {score : Score P} {peers : List P}
    {w : World P} (h : w.OwnsExactly score peers) (peers' : List P) :
    ∃ line : Event, line.stopped = none ∧ line.spawned = none ∧
      Node.applyTopology peers' w = { w with
        coordinator := ⟨w.manager.localPeerId, RendezvousHasher.new peers'⟩
        events := w.events ++ [line] } := by
  obtain ⟨text, -, hcoordinator⟩ := Option.map_eq_some_iff.mp h.coordinator
  refine ⟨.topologyChange w.coordinator.hasher.nodeCount peers'.length, rfl, rfl, ?_⟩
  unfold Node.applyTopology
  rw [if_pos h.alive, ← hcoordinator]
  rfl

theorem OwnsExactly.mem_actors {P : Type} [PeerId P] {score : Score P} {peers : List P}
    {w : World P} (h : w.OwnsExactly score peers) (id : String) :
    id ∈ w.manager.actors ↔ id ∈ w.manager.machineSpecs ∧
      (RendezvousHasher.new peers).lookup score id = some w.manager.localPeerId := by
  obtain ⟨text, -, hcoordinator⟩ := Option.map_eq_some_iff.mp h.coordinator
  rw [h.actors id, ← hcoordinator]
  rfl

/-- The rebalance that follows a change of the peers, alone. -/
theorem OwnsExactly.rebalance {P : Type} [SerdeJson] [DecidableEq P] [PeerId P] {score : Score P}
    {peers : List P} {w : World P} (h : w.OwnsExactly score peers) (peers' : List P)
    (machineIds : List String) (hkeys : machineIds.Perm w.manager.machineSpecs.keys) :
    ∃ w' es, (Node.applyTopology peers' w).handleAlone score .rebalanceActors machineIds = some w' ∧
      w'.events = w.events ++ es ∧
      (∀ id, id ∈ es.filterMap Event.stopped ↔
        id ∈ machineIds.takeWhile ((RendezvousHasher.new peers').ownerShortens score) ∧
        id ∈ w.manager.actors ∧
        (RendezvousHasher.new peers').lookup score id ≠ some w.manager.localPeerId) ∧
      (∀ id, id ∈ es.filterMap Event.spawned ↔
        id ∈ machineIds.takeWhile ((RendezvousHasher.new peers').ownerShortens score) ∧
        id ∉ w.manager.actors ∧
        (RendezvousHasher.new peers').lookup score id = some w.manager.localPeerId ∧
        (w.born w.now id).isSome = true) ∧
      (∀ id ∈ machineIds.takeWhile ((RendezvousHasher.new peers').ownerShortens score),
        w'.manager.actors[id]? =
          if (RendezvousHasher.new peers').lookup score id = some w.manager.localPeerId then
            w.manager.actors[id]?.or (w.born w.now id)
          else none) ∧
      ∀ id ∉ machineIds.takeWhile ((RendezvousHasher.new peers').ownerShortens score),
        w'.manager.actors[id]? = w.manager.actors[id]? := by
  obtain ⟨line, hstopped, hspawned, heq⟩ := h.applyTopology peers'
  obtain ⟨text, htext, -⟩ := Option.map_eq_some_iff.mp h.coordinator
  rw [heq]
  obtain ⟨w', hrun, -, hdone⟩ := rebalance_alone score machineIds { w with
    coordinator := ⟨w.manager.localPeerId, RendezvousHasher.new peers'⟩
    events := w.events ++ [line] } h.alive (by rw [htext]; rfl) hkeys
  rw [ShardingCoordinator.answers_eq_ownerShortens] at hdone
  obtain ⟨es, hevents, hstop, hspawn⟩ := hdone.events
  refine ⟨w', line :: es, hrun, ?_, ?_, ?_, hdone.actors, fun id hid => (hdone.others id hid).1⟩
  · rw [hevents, List.append_assoc]
    rfl
  · intro id
    rw [List.filterMap_cons_none hstopped]
    exact hstop id
  · intro id
    rw [List.filterMap_cons_none hspawned]
    exact hspawn id

/-- A rebalance after a join disturbs what it must, exactly when the machines that
the newcomer takes over are looked up before a lookup panics. -/
theorem OwnsExactly.join {P : Type} [SerdeJson] [DecidableEq P] [PeerId P]
    (hinj : Function.Injective (toBase58 : P → String)) {score : Score P} {peers joined : List P}
    {p : P} {w : World P} (h : w.OwnsExactly score peers) (hp : p ≠ w.manager.localPeerId)
    (hjoined : ∀ q, q ∈ joined ↔ q = p ∨ q ∈ peers) (machineIds : List String)
    (hkeys : machineIds.Perm w.manager.machineSpecs.keys) :
    ∃ w', (Node.applyTopology joined w).handleAlone score .rebalanceActors machineIds = some w' ∧
      (w.JoinDisturbs score joined p w' ↔ ∀ id ∈ w.manager.actors,
        (RendezvousHasher.new joined).lookup score id = some p →
        id ∈ machineIds.takeWhile
          ((RendezvousHasher.new joined).ownerShortens score)) := by
  have hne : peers ≠ [] := List.ne_nil_of_mem h.listed
  obtain ⟨w', es, hrun, hevents, hstop, hspawn, hlooked, hothers⟩ :=
    h.rebalance joined machineIds hkeys
  refine ⟨w', hrun, ?_⟩
  revert hstop hspawn hlooked hothers
  generalize machineIds.takeWhile
    ((RendezvousHasher.new joined).ownerShortens score) = looked
  intro hstop hspawn hlooked hothers
  -- A machine with an actor stays local or becomes the newcomer's, and no other becomes local.
  have hkept : ∀ id ∈ w.manager.actors,
      (RendezvousHasher.new joined).lookup score id ≠ some w.manager.localPeerId ↔
        (RendezvousHasher.new joined).lookup score id = some p := by
    intro id hid
    have hlocal := ((h.mem_actors id).mp hid).2
    obtain hnew | hsame := RendezvousHasher.lookup_joined hinj score hne hjoined id
    · rw [hnew]
      exact iff_of_true (fun he => hp (Option.some.inj he)) rfl
    · rw [hsame, hlocal]
      exact iff_of_false (fun hn => hn rfl) (fun he => hp (Option.some.inj he).symm)
  have hnospawn : es.filterMap Event.spawned = [] := by
    rw [List.eq_nil_iff_forall_not_mem]
    intro id hid
    obtain ⟨-, hnone, hlocal, hborn⟩ := (hspawn id).mp hid
    have hold : (RendezvousHasher.new peers).lookup score id = some w.manager.localPeerId := by
      obtain hnew | hsame := RendezvousHasher.lookup_joined hinj score hne hjoined id
      · exact absurd (Option.some.inj (hnew.symm.trans hlocal)) hp
      · rw [← hsame, hlocal]
    apply hnone
    rw [h.mem_actors]
    refine ⟨?_, hold⟩
    obtain ⟨actor, hactor⟩ := Option.isSome_iff_exists.mp hborn
    obtain ⟨specJson, hspec, -⟩ := Option.bind_eq_some_iff.mp hactor
    rw [Std.ExtTreeMap.mem_iff_isSome_getElem?, hspec]
    rfl
  constructor
  · rintro ⟨es', hevents', -, hstop', -⟩ id hid hnew
    have hsame : es' = es := List.append_cancel_left (hevents'.symm.trans hevents)
    rw [hsame] at hstop'
    exact ((hstop id).mp ((hstop' id).mpr ⟨hid, hnew⟩)).1
  · intro hcan
    refine ⟨es, hevents, hnospawn, ?_, ?_⟩
    · intro id
      rw [hstop id]
      constructor
      · rintro ⟨-, hid, hforeign⟩
        exact ⟨hid, (hkept id hid).mp hforeign⟩
      · rintro ⟨hid, hnew⟩
        exact ⟨hcan id hid hnew, hid, (hkept id hid).mpr hnew⟩
    · intro id
      by_cases hid : id ∈ w.manager.actors
      · obtain ⟨actor, hactor⟩ :=
          Option.isSome_iff_exists.mp (Std.ExtTreeMap.mem_iff_isSome_getElem?.mp hid)
        by_cases hnew : (RendezvousHasher.new joined).lookup score id = some p
        · rw [if_pos hnew, hlooked id (hcan id hid hnew), if_neg ((hkept id hid).mpr hnew)]
        · have hlocal : (RendezvousHasher.new joined).lookup score id =
              some w.manager.localPeerId := by
            by_contra hforeign
            exact hnew ((hkept id hid).mp hforeign)
          rw [if_neg hnew]
          by_cases hin : id ∈ looked
          · rw [hlooked id hin, if_pos hlocal, hactor, Option.some_or]
          · exact hothers id hin
      · have hnone : w.manager.actors[id]? = none := Std.ExtTreeMap.getElem?_eq_none hid
        rw [hnone, ite_self]
        by_cases hin : id ∈ looked
        · rw [hlooked id hin]
          split_ifs with hlocal
          · rw [hnone, Option.none_or]
            have hquiet : id ∉ es.filterMap Event.spawned := by
              rw [hnospawn]
              exact List.not_mem_nil
            rw [hspawn id] at hquiet
            by_contra hborn
            exact hquiet ⟨hin, hid, hlocal, Option.isSome_iff_ne_none.mpr hborn⟩
          · rfl
        · rw [hothers id hin, hnone]

/-- A rebalance after a leave disturbs what it must, exactly when the machines that
the node inherits are looked up before a lookup panics, or some spec does not parse. -/
theorem OwnsExactly.leave {P : Type} [SerdeJson] [DecidableEq P] [PeerId P]
    (hinj : Function.Injective (toBase58 : P → String)) {score : Score P} {peers left : List P}
    {p : P} {w : World P} (h : w.OwnsExactly score peers) (hp : p ≠ w.manager.localPeerId)
    (hleft : ∀ q, q ∈ left ↔ q ≠ p ∧ q ∈ peers) (machineIds : List String)
    (hkeys : machineIds.Perm w.manager.machineSpecs.keys) :
    ∃ w', (Node.applyTopology left w).handleAlone score .rebalanceActors machineIds = some w' ∧
      (w.LeaveDisturbs score peers left p w' ↔ (w.ValidSpecs Parses →
        ∀ id, w.Inherits score peers left p id → id ∈ machineIds.takeWhile
          ((RendezvousHasher.new left).ownerShortens score))) := by
  have hne : peers ≠ [] := List.ne_nil_of_mem h.listed
  obtain ⟨w', es, hrun, hevents, hstop, hspawn, hlooked, hothers⟩ :=
    h.rebalance left machineIds hkeys
  refine ⟨w', hrun, ?_⟩
  have hcached : ∀ id ∈ machineIds.takeWhile
      ((RendezvousHasher.new left).ownerShortens score), id ∈ w.manager.machineSpecs :=
    fun id hid => Std.ExtTreeMap.mem_keys.mp (hkeys.mem_iff.mp (List.takeWhile_subset _ hid))
  revert hstop hspawn hlooked hothers hcached
  generalize machineIds.takeWhile
    ((RendezvousHasher.new left).ownerShortens score) = looked
  intro hstop hspawn hlooked hothers hcached
  -- A local machine stays local, and one that becomes local was the leaver's.
  have hkept : ∀ id ∈ w.manager.actors,
      (RendezvousHasher.new left).lookup score id = some w.manager.localPeerId := by
    intro id hid
    have hlocal := ((h.mem_actors id).mp hid).2
    obtain hold | hsame := RendezvousHasher.lookup_left hinj score hne hleft id
    · exact absurd (Option.some.inj (hold.symm.trans hlocal)) hp
    · rw [hsame, hlocal]
  have hinherits : ∀ id ∈ w.manager.machineSpecs, id ∉ w.manager.actors →
      (RendezvousHasher.new left).lookup score id = some w.manager.localPeerId →
      w.Inherits score peers left p id := by
    intro id hspec hnone hlocal
    obtain hold | hsame := RendezvousHasher.lookup_left hinj score hne hleft id
    · exact ⟨hspec, hold, hlocal⟩
    · exact absurd ((h.mem_actors id).mpr ⟨hspec, hsame.symm.trans hlocal⟩) hnone
  have hfree : ∀ id, w.Inherits score peers left p id → id ∉ w.manager.actors := by
    rintro id ⟨-, hold, -⟩ hid
    exact hp (Option.some.inj (hold.symm.trans ((h.mem_actors id).mp hid).2))
  have hborn : w.ValidSpecs Parses → ∀ id ∈ w.manager.machineSpecs,
      (w.born w.now id).isSome = true := by
    intro hparses id hspec
    obtain ⟨specJson, hget⟩ :=
      Option.isSome_iff_exists.mp (Std.ExtTreeMap.mem_iff_isSome_getElem?.mp hspec)
    exact Managing.isSome_born hget (hparses id specJson hget)
  have hnostop : es.filterMap Event.stopped = [] := by
    rw [List.eq_nil_iff_forall_not_mem]
    intro id hid
    obtain ⟨-, hactor, hforeign⟩ := (hstop id).mp hid
    exact hforeign (hkept id hactor)
  have hsame : ∀ id ∈ w.manager.actors, w'.manager.actors[id]? = w.manager.actors[id]? := by
    intro id hid
    obtain ⟨actor, hactor⟩ :=
      Option.isSome_iff_exists.mp (Std.ExtTreeMap.mem_iff_isSome_getElem?.mp hid)
    by_cases hin : id ∈ looked
    · rw [hlooked id hin, if_pos (hkept id hid), hactor, Option.some_or]
    · exact hothers id hin
  constructor
  · rintro ⟨es', hevents', -, -, hspawn'⟩ hparses id hid
    have hes : es' = es := List.append_cancel_left (hevents'.symm.trans hevents)
    rw [hes] at hspawn'
    exact ((hspawn id).mp (((hspawn' hparses).1 id).mpr hid)).1
  · intro hcan
    refine ⟨es, hevents, hnostop, hsame, fun hparses => ⟨fun id => ?_, fun id => ?_⟩⟩
    · rw [hspawn id]
      constructor
      · rintro ⟨hin, hnone, hlocal, -⟩
        exact hinherits id (hcached id hin) hnone hlocal
      · intro hid
        exact ⟨hcan hparses id hid, hfree id hid, hid.2.2, hborn hparses id hid.1⟩
    · by_cases hid : id ∈ w.manager.actors
      · rw [Std.ExtTreeMap.mem_iff_isSome_getElem?, hsame id hid,
          ← Std.ExtTreeMap.mem_iff_isSome_getElem?]
        exact iff_of_true hid (Or.inl hid)
      · rw [or_iff_right hid]
        have hnone : w.manager.actors[id]? = none := Std.ExtTreeMap.getElem?_eq_none hid
        constructor
        · intro hin'
          rw [Std.ExtTreeMap.mem_iff_isSome_getElem?] at hin'
          by_cases hin : id ∈ looked
          · rw [hlooked id hin] at hin'
            split_ifs at hin' with hlocal
            · exact hinherits id (hcached id hin) hid hlocal
            · cases hin'
          · rw [hothers id hin, hnone] at hin'
            cases hin'
        · intro hinherit
          rw [Std.ExtTreeMap.mem_iff_isSome_getElem?, hlooked id (hcan hparses id hinherit),
            if_pos hinherit.2.2, hnone, Option.none_or]
          exact hborn hparses id hinherit.1

/-- A join stops the actors of the machines that the newcomer takes over and leaves
the rest alone, a leave spawns those of the machines that the node inherits and
leaves the rest alone: exactly when every machine that changes hands comes, in the
order of the spec map, before the first one whose new owner's text is too short. -/
theorem join_leave_disturb {P : Type} [SerdeJson] [DecidableEq P] [PeerId P] [LawfulPeerId P]
    (score : Score P) (peers joined left : List P) (p : P) (w : World P)
    (h : w.OwnsExactly score peers) (hp : p ≠ w.manager.localPeerId)
    (hjoined : ∀ q, q ∈ joined ↔ q = p ∨ q ∈ peers)
    (hleft : ∀ q, q ∈ left ↔ q ≠ p ∧ q ∈ peers) (machineIds : List String)
    (hkeys : machineIds.Perm w.manager.machineSpecs.keys) :
    (∃ w', (Node.applyTopology joined w).handleAlone score .rebalanceActors machineIds = some w' ∧
      (w.JoinDisturbs score joined p w' ↔ ∀ id ∈ w.manager.actors,
        (RendezvousHasher.new joined).lookup score id = some p →
        id ∈ machineIds.takeWhile
          ((RendezvousHasher.new joined).ownerShortens score))) ∧
    ∃ w', (Node.applyTopology left w).handleAlone score .rebalanceActors machineIds = some w' ∧
      (w.LeaveDisturbs score peers left p w' ↔ (w.ValidSpecs Parses →
        ∀ id, w.Inherits score peers left p id → id ∈ machineIds.takeWhile
          ((RendezvousHasher.new left).ownerShortens score))) :=
  ⟨h.join toBase58_injective hp hjoined machineIds hkeys,
    h.leave toBase58_injective hp hleft machineIds hkeys⟩

/-- The only node of a cluster with one machine. -/
def soleNode {P : Type} [PeerId P] (localPeerId : P) (nodeId specJson : String)
    (spec : MachineSpec) : World P where
  manager := { MachineActorManagerActor.new localPeerId nodeId with
    actors := (∅ : Std.ExtTreeMap String MachineActor).insert "m1"
      (MachineActor.withSpecAndNodeId 0 "m1" spec nodeId)
    machineSpecs := (∅ : Std.ExtTreeMap String String).insert "m1" specJson }
  events := []
  coordinator := ⟨localPeerId, RendezvousHasher.new [localPeerId]⟩
  coordinatorAlive := true
  etcd := ∅
  now := 0

theorem soleNode_ownsExactly {P : Type} [PeerId P] (score : Score P) (localPeerId : P)
    (nodeId specJson : String) (spec : MachineSpec)
    (hshort : (short (toBase58 localPeerId)).isSome = true) :
    (soleNode localPeerId nodeId specJson spec).OwnsExactly score [localPeerId] := by
  obtain ⟨text, htext⟩ := Option.isSome_iff_exists.mp hshort
  refine ⟨?_, rfl, List.mem_singleton_self localPeerId, fun id => ?_⟩
  · show (short (toBase58 localPeerId)).map _ = _
    rw [htext]
    rfl
  · obtain ⟨p, hp, hlookup⟩ := RendezvousHasher.exists_lookup_new score
      (List.cons_ne_nil localPeerId []) id
    rw [List.mem_singleton.mp hp] at hlookup
    show id ∈ (∅ : Std.ExtTreeMap String MachineActor).insert "m1" _ ↔
      id ∈ (∅ : Std.ExtTreeMap String String).insert "m1" _ ∧ _
    rw [Std.ExtTreeMap.mem_insert, Std.ExtTreeMap.mem_insert]
    simp only [Std.ExtTreeMap.not_mem_empty, or_false]
    exact (and_iff_left hlookup).symm

/-- A second peer takes the only machine over. -/
theorem join_leave_disturb_taken :
    let _ : SerdeJson := SerdeJson.knowing []
    ∃ (score : Score Base58Text) (a b : Base58Text) (w w' : World Base58Text),
      "m1" ∈ w.manager.actors ∧
      (Node.applyTopology [a, b] w).handleAlone score .rebalanceActors ["m1"] = some w' ∧
      w.JoinDisturbs score [a, b] b w' ∧ "m1" ∉ w'.manager.actors := by
  intro _
  let a := peerOf "12D3KooWAAAAAAAAAAAAAAAAAAAAAAAAAAAAAAAAAAAAAAAAAAAA"
  let b := peerOf "12D3KooWBBBBBBBBBBBBBBBBBBBBBBBBBBBBBBBBBBBBBBBBBBBB"
  let score : Score Base58Text := fun _ _ => 7
  let w := soleNode a "node-a" "" ⟨"available", "lab", none, ∅⟩
  have howns : w.OwnsExactly score [a] := soleNode_ownsExactly score a _ _ _ (by decide +kernel)
  have hab : b ≠ a := by decide +kernel
  have hkeys : ["m1"].Perm w.manager.machineSpecs.keys := by decide +kernel
  have hlookup : (RendezvousHasher.new [a, b]).lookup score "m1" = some b := by decide +kernel
  have hfirst : "m1" ∈ ["m1"].takeWhile ((RendezvousHasher.new [a, b]).ownerShortens score) := by
    decide +kernel
  obtain ⟨⟨w', hrun, hjoin⟩, -⟩ := join_leave_disturb score [a] [a, b] [a] b w howns hab
    (fun q => by simp [or_comm]) (fun q => by
      rw [List.mem_singleton]
      exact ⟨fun hq => ⟨fun hb => hab (hb.symm.trans hq), hq⟩, fun hq => hq.2⟩) ["m1"] hkeys
  have hactor : "m1" ∈ w.manager.actors := Std.ExtTreeMap.mem_insert_self
  have hdisturbs : w.JoinDisturbs score [a, b] b w' := by
    refine hjoin.mpr (fun id hid _ => ?_)
    have hid' : id = "m1" := by
      have hspec := Std.ExtTreeMap.mem_keys.mpr ((howns.mem_actors id).mp hid).1
      exact List.mem_singleton.mp (hkeys.mem_iff.mpr hspec)
    rw [hid']
    exact hfirst
  refine ⟨score, a, b, w, w', hactor, hrun, hdisturbs, ?_⟩
  obtain ⟨es, -, -, -, hactors⟩ := hdisturbs
  rw [Std.ExtTreeMap.mem_iff_isSome_getElem?, hactors "m1", if_pos hlookup]
  exact Bool.false_ne_true

/-- A second peer with a short identifier takes the only machine over: the lookup
panics, and the actor is not stopped. -/
theorem not_join_leave_disturb : ¬∀ [SerdeJson] (score : Score Base58Text)
    (peers joined left : List Base58Text) (p : Base58Text) (w : World Base58Text),
    w.OwnsExactly score peers → p ≠ w.manager.localPeerId →
    (∀ q, q ∈ joined ↔ q = p ∨ q ∈ peers) → (∀ q, q ∈ left ↔ q ≠ p ∧ q ∈ peers) →
    ∀ machineIds : List String, machineIds.Perm w.manager.machineSpecs.keys →
    (∃ w', (Node.applyTopology joined w).handleAlone score .rebalanceActors machineIds = some w' ∧
      w.JoinDisturbs score joined p w') ∧
    ∃ w', (Node.applyTopology left w).handleAlone score .rebalanceActors machineIds = some w' ∧
      w.LeaveDisturbs score peers left p w' := by
  intro hclaim
  let _ : SerdeJson := SerdeJson.knowing []
  let a := peerOf "12D3KooWAAAAAAAAAAAAAAAAAAAAAAAAAAAAAAAAAAAAAAAAAAAA"
  let b := peerOf "12D3KooWB"
  let score : Score Base58Text := fun _ _ => 7
  let w := soleNode a "node-a" "" ⟨"available", "lab", none, ∅⟩
  have howns : w.OwnsExactly score [a] := soleNode_ownsExactly score a _ _ _ (by decide +kernel)
  have hab : b ≠ a := by decide +kernel
  have hkeys : ["m1"].Perm w.manager.machineSpecs.keys := by decide +kernel
  have hlookup : (RendezvousHasher.new [a, b]).lookup score "m1" = some b := by decide +kernel
  obtain ⟨⟨w', hrun, es, -, -, -, hactors⟩, -⟩ := hclaim score [a] [a, b] [a] b w howns hab
    (fun q => by simp [or_comm]) (fun q => by
      rw [List.mem_singleton]
      exact ⟨fun hq => ⟨fun hb => hab (hb.symm.trans hq), hq⟩, fun hq => hq.2⟩) ["m1"] hkeys
  have hkept : ∀ v ∈ (Node.applyTopology [a, b] w).handleAlone score .rebalanceActors ["m1"],
      "m1" ∈ v.manager.actors := by decide +kernel
  have hactor := hkept w' hrun
  rw [Std.ExtTreeMap.mem_iff_isSome_getElem?, hactors "m1", if_pos hlookup] at hactor
  exact Bool.false_ne_true hactor

end World
end Neolaas
