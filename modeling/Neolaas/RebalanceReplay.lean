import Neolaas.ManagerAlone
import Neolaas.ManagerSettles

/-!
# A rebalance and the puts that it stands for

Under a fixed topology a rebalance and a put of every cached machine lead to the
same actors. Both paths walk the cached machines, so both rest on the invariant
that every actor is of a cached machine.
-/
namespace Neolaas
open AtomicProgram LabelledRuns PeerId

namespace Managing

/-- Two managers with the same fields and entries. -/
theorem SameCache.manager_eq {P : Type} {m m' : Managing P} (h : SameCache m m')
    (hactors : ∀ id : String, m'.manager.actors[id]? = m.manager.actors[id]?)
    (htrackers : ∀ id : String, m'.manager.restartTrackers[id]? = m.manager.restartTrackers[id]?) :
    m'.manager = m.manager := by
  obtain ⟨⟨localPeerId, nodeId, actors, specs, trackers, policy⟩, events⟩ := m
  obtain ⟨⟨localPeerId', nodeId', actors', specs', trackers', policy'⟩, events'⟩ := m'
  obtain ⟨hlocal, hnode, hspecs, hpolicy⟩ := h
  have hactors' : actors' = actors := Std.ExtTreeMap.ext_getElem? @hactors
  have htrackers' : trackers' = trackers := Std.ExtTreeMap.ext_getElem? @htrackers
  simp only at hlocal hnode hspecs hpolicy
  rw [hlocal, hnode, hspecs, hpolicy, hactors', htrackers']

theorem isSome_born {P : Type} [SerdeJson] {now : ℤ} {m : Managing P} {id specJson : String}
    (hspec : m.manager.machineSpecs[id]? = some specJson) (hparses : Parses id specJson) :
    (m.born now id).isSome = true := by
  obtain ⟨spec, hspec'⟩ := Option.isSome_iff_exists.mp hparses
  unfold born
  rw [hspec, Option.bind_some, MachineActor.withNodeId, hspec']
  rfl

/-- Caching a spec that is cached already. -/
theorem cacheSpec_of_cached {P : Type} {m : Managing P} {id specJson : String}
    (hspec : m.manager.machineSpecs[id]? = some specJson) : m.cacheSpec id specJson = m := by
  have hsame : m.manager.machineSpecs.insert id specJson = m.manager.machineSpecs := by
    apply Std.ExtTreeMap.ext_getElem?
    intro key
    rw [Std.ExtTreeMap.getElem?_insert]
    split_ifs with hkey
    · obtain rfl : id = key := by simpa using hkey
      exact hspec.symm
    · rfl
  unfold cacheSpec
  rw [hsame]

end Managing

namespace World

/-- The actors after a rebalance that has looked every cached machine up. -/
theorem Rebalanced.mem_actors {P : Type} [SerdeJson] [DecidableEq P] {score : Score P}
    {looked : List String} {w w' : World P} (h : Rebalanced score looked w w')
    (hlooked : ∀ id ∈ w.manager.machineSpecs, id ∈ looked) (hcontained : w.Contained)
    (hcached : ∀ id ∈ looked, id ∈ w.manager.machineSpecs) (hparses : w.ValidSpecs Parses)
    (id : String) : id ∈ w'.manager.actors ↔
      id ∈ w.manager.machineSpecs ∧ w.coordinator.Owns score id := by
  by_cases hid : id ∈ looked
  · rw [Std.ExtTreeMap.mem_iff_isSome_getElem?, h.actors id hid]
    obtain ⟨specJson, hspec⟩ := Option.isSome_iff_exists.mp
      (Std.ExtTreeMap.mem_iff_isSome_getElem?.mp (hcached id hid))
    have hborn : (w.toManaging.born w.now id).isSome = true :=
      Managing.isSome_born hspec (hparses id specJson hspec)
    by_cases hown : w.coordinator.Owns score id
    · simp [hown, hborn, hcached id hid]
    · simp [hown]
  · have hspec : id ∉ w.manager.machineSpecs := fun hin => hid (hlooked id hin)
    have hactor : id ∉ w.manager.actors := fun hin => hspec (hcontained id hin)
    rw [Std.ExtTreeMap.mem_iff_isSome_getElem?, (h.others id hid).1,
      ← Std.ExtTreeMap.mem_iff_isSome_getElem?]
    simp [hspec, hactor]

/-- The lookups of a rebalance in two orders, with the same result. -/
theorem Rebalanced.manager_eq {P : Type} [SerdeJson] [DecidableEq P] {score : Score P}
    {looked looked' : List String} {w w' w'' : World P} (h : Rebalanced score looked w w')
    (h' : Rebalanced score looked' w w'') (hlooked : ∀ id, id ∈ looked' ↔ id ∈ looked) :
    w''.manager = w'.manager := by
  have hsame : Managing.SameCache w'.toManaging w''.toManaging :=
    ⟨h'.cache.1.trans h.cache.1.symm, h'.cache.2.trans h.cache.2.symm,
      h'.cache.3.trans h.cache.3.symm, h'.cache.4.trans h.cache.4.symm⟩
  apply hsame.manager_eq
  · intro id
    by_cases hid : id ∈ looked
    · rw [h'.actors id ((hlooked id).mpr hid), h.actors id hid]
    · rw [(h'.others id (fun hin => hid ((hlooked id).mp hin))).1, (h.others id hid).1]
  · intro id
    by_cases hid : id ∈ looked
    · rw [h'.trackers id ((hlooked id).mpr hid), h.trackers id hid]
    · rw [(h'.others id (fun hin => hid ((hlooked id).mp hin))).2, (h.others id hid).2]

/-- A rebalance of a manager whose actors are as they should be. -/
theorem Rebalanced.again {P : Type} [SerdeJson] [DecidableEq P] {score : Score P}
    {looked : List String} {w w' : World P} (h : Rebalanced score looked w w')
    (hsettled : ∀ id ∈ looked, w.coordinator.Owns score id ↔ id ∈ w.manager.actors) :
    w'.manager = w.manager := by
  apply h.cache.manager_eq
  · intro id
    by_cases hid : id ∈ looked
    · rw [h.actors id hid]
      by_cases hown : w.coordinator.Owns score id
      · obtain ⟨actor, hactor⟩ := Option.isSome_iff_exists.mp
          (Std.ExtTreeMap.mem_iff_isSome_getElem?.mp ((hsettled id hid).mp hown))
        rw [if_pos hown, hactor, Option.some_or]
      · have hactor : id ∉ w.manager.actors := fun hin => hown ((hsettled id hid).mpr hin)
        rw [if_neg hown, Std.ExtTreeMap.getElem?_eq_none hactor]
    · exact (h.others id hid).1
  · intro id
    by_cases hid : id ∈ looked
    · rw [h.trackers id hid]
      by_cases hown : w.coordinator.Owns score id
      · rw [if_pos ((hsettled id hid).mp hown), if_pos hown]
      · rw [if_neg (fun hin => hown ((hsettled id hid).mpr hin)), if_neg hown]
    · exact (h.others id hid).2

/-- A rebalance alone, all of its lookups answered. -/
theorem rebalance_answered {P : Type} [SerdeJson] [DecidableEq P] [PeerId P] (score : Score P)
    (machineIds : List String) (w : World P) (halive : w.coordinatorAlive = true)
    (hlocal : (short (toBase58 w.manager.localPeerId)).isSome = true)
    (hanswers : ∀ id ∈ w.manager.machineSpecs, w.coordinator.answers score id = true)
    (hkeys : machineIds.Perm w.manager.machineSpecs.keys) :
    ∃ w', w.handleAlone score .rebalanceActors machineIds = some w' ∧
      w'.coordinatorAlive = true ∧ Rebalanced score machineIds w w' := by
  have hall : ∀ id ∈ machineIds, w.coordinator.answers score id = true :=
    fun id hid => hanswers id (Std.ExtTreeMap.mem_keys.mp (hkeys.mem_iff.mp hid))
  obtain ⟨w', hrun, halive', hdone⟩ := rebalance_alone score machineIds w halive hlocal hkeys
  refine ⟨w', hrun, ?_, ?_⟩
  · rw [halive', List.all_eq_true]
    exact hall
  · rw [List.takeWhile_eq_self_iff.mpr hall] at hdone
    exact hdone

/-- What a put of a cached machine leaves behind. -/
structure PutAgain {P : Type} (score : Score P) (machineId : String) (w w' : World P) : Prop where
  coordinator : w'.coordinator = w.coordinator
  alive : w'.coordinatorAlive = true
  localPeerId : w'.manager.localPeerId = w.manager.localPeerId
  specs : w'.manager.machineSpecs = w.manager.machineSpecs
  machine : machineId ∈ w'.manager.actors ↔ w.coordinator.Owns score machineId
  others : ∀ id, id ≠ machineId → (id ∈ w'.manager.actors ↔ id ∈ w.manager.actors)

/-- A put of a cached machine alone, its lookup answered with an owner. -/
theorem put_alone {P : Type} [SerdeJson] [DecidableEq P] [PeerId P] (score : Score P)
    (machineId specJson : String) (machineIds : List String) (w : World P)
    (halive : w.coordinatorAlive = true)
    (hlocal : (short (toBase58 w.manager.localPeerId)).isSome = true)
    (hspec : w.manager.machineSpecs[machineId]? = some specJson)
    (hparses : Parses machineId specJson)
    (hanswers : w.coordinator.answers score machineId = true)
    (howner : w.coordinator.hasher.lookup score machineId ≠ none) :
    ∃ w', w.handleAlone score (.etcdMachineEvent machineId .put (some specJson)) machineIds =
      some w' ∧ PutAgain score machineId w w' := by
  have hcached : w.manage (w.cacheSpec machineId specJson) = w := by
    rw [Managing.cacheSpec_of_cached hspec]
    rfl
  obtain ⟨result, owner, hask, howns, hisLocal⟩ := askLookup_of_answers halive hanswers
  obtain ⟨text, htext⟩ := Option.isSome_iff_exists.mp hlocal
  let v : World P :=
    { w with events := w.events ++ [.machineLookup machineId owner result.isLocal] }
  have hput : w.handleAlone score (.etcdMachineEvent machineId .put (some specJson)) machineIds =
      ((if result.isLocal then
          if v.manager.actors.contains machineId then
            Program.modify (fun now m => some (m.ask now machineId (.updateMachineSpec specJson)).2)
          else Program.modify (fun now m => m.spawnMachineActor now machineId specJson)
        else if v.manager.actors.contains machineId then
          Program.modify (fun _ m => m.transferOwnership machineId result)
        else pure () : Program P Unit).run (exec score) v).map Prod.snd := by
    unfold handleAlone ManagerMessage.handler Program.handleMachinePut
    rw [Prog.run_bind, Program.run_modify_bind, Option.bind_some, hcached,
      Program.run_lookupMachine, hask]
    simp only [Program.run_read]
    generalize Prog.run (exec score) _ _ = outcome
    cases outcome <;> rfl
  rw [hput]
  -- The four branches change nothing but the machine's own actor.
  by_cases hown : w.coordinator.Owns score machineId
  · rw [if_pos (hisLocal.trans (decide_eq_true hown))]
    cases hactor : v.manager.actors.contains machineId with
    | true =>
      have hin : machineId ∈ w.manager.actors := Std.ExtTreeMap.contains_iff_mem.mp hactor
      refine ⟨v.manage (v.ask v.now machineId (.updateMachineSpec specJson)).2, rfl, rfl, halive,
        (Managing.ask_identity ..).1, Managing.ask_specs .., ?_, ?_⟩
      · rw [manage_toManaging, Managing.mem_actors_ask]
        exact iff_of_true hin hown
      · exact fun id _ => Managing.mem_actors_ask ..
    | false =>
      obtain ⟨spec, hspec'⟩ := Option.isSome_iff_exists.mp hparses
      have hspawn : v.spawnMachineActor v.now machineId specJson = some (v.addActor machineId
          (MachineActor.withSpecAndNodeId v.now machineId spec v.manager.nodeId)) := by
        have htext' : short (toBase58 v.manager.localPeerId) = some text := htext
        simp [Managing.spawnMachineActor, MachineActor.withNodeId, hspec', htext']
      rw [if_neg Bool.false_ne_true, Program.run_modify, hspawn]
      refine ⟨_, rfl, rfl, halive, rfl, rfl, ?_, ?_⟩
      · rw [manage_toManaging, Managing.mem_actors_addActor]
        exact iff_of_true (Or.inl rfl) hown
      · intro id hid
        rw [manage_toManaging, Managing.mem_actors_addActor]
        exact or_iff_right hid
  · rw [if_neg (by rw [hisLocal, decide_eq_false hown]; exact Bool.false_ne_true)]
    cases hactor : v.manager.actors.contains machineId with
    | true =>
      obtain ⟨p, hp⟩ := Option.ne_none_iff_exists'.mp howner
      obtain ⟨newOwner, hnew⟩ :=
        Option.isSome_iff_exists.mp ((w.coordinator.answers_iff score machineId).mp hanswers p hp)
      have htransfer : v.transferOwnership machineId result = some ((v.emit
          [.ownershipTransferred machineId text newOwner]).stopMachineActor machineId
            "ownership_transfer") := by
        have htext' : short (toBase58 v.manager.localPeerId) = some text := htext
        simp [Managing.transferOwnership, howns, hp, htext', hnew]
      rw [if_pos rfl, Program.run_modify, htransfer]
      refine ⟨_, rfl, rfl, halive, ?_, Managing.stopMachineActor_specs .., ?_, ?_⟩
      · exact (Managing.stopMachineActor_sameCache ..).localPeerId
      · rw [manage_toManaging, Managing.mem_actors_stopMachineActor]
        exact iff_of_false (fun hin => hin.1 rfl) hown
      · intro id hid
        rw [manage_toManaging, Managing.mem_actors_stopMachineActor]
        exact and_iff_right hid
    | false =>
      rw [if_neg Bool.false_ne_true]
      refine ⟨v, rfl, rfl, halive, rfl, rfl, ?_, fun _ _ => Iff.rfl⟩
      refine iff_of_false ?_ hown
      intro hin
      rw [Std.ExtTreeMap.contains_iff_mem.mpr hin] at hactor
      cases hactor

/-- Puts of cached machines, one after the other. -/
theorem puts_alone {P : Type} [SerdeJson] [DecidableEq P] [PeerId P] (score : Score P)
    (machines : List (String × String)) (w : World P) (halive : w.coordinatorAlive = true)
    (hlocal : (short (toBase58 w.manager.localPeerId)).isSome = true)
    (hcached : ∀ machine ∈ machines, w.manager.machineSpecs[machine.1]? = some machine.2)
    (hparses : ∀ machine ∈ machines, Parses machine.1 machine.2)
    (hanswers : ∀ machine ∈ machines, w.coordinator.answers score machine.1 = true)
    (howner : ∀ machine ∈ machines, w.coordinator.hasher.lookup score machine.1 ≠ none) :
    ∃ w', machines.foldlM (fun w machine =>
        w.handleAlone score (.etcdMachineEvent machine.1 .put (some machine.2)) []) w = some w' ∧
      (∀ id ∈ machines.map Prod.fst, id ∈ w'.manager.actors ↔ w.coordinator.Owns score id) ∧
      ∀ id ∉ machines.map Prod.fst, id ∈ w'.manager.actors ↔ id ∈ w.manager.actors := by
  induction machines generalizing w with
  | nil => exact ⟨w, rfl, by simp, by simp⟩
  | cons machine rest ih =>
    obtain ⟨w₁, hput, hagain⟩ := put_alone score machine.1 machine.2 [] w halive hlocal
      (hcached machine List.mem_cons_self) (hparses machine List.mem_cons_self)
      (hanswers machine List.mem_cons_self) (howner machine List.mem_cons_self)
    have hlocal₁ : (short (toBase58 w₁.manager.localPeerId)).isSome = true := by
      rw [hagain.localPeerId]
      exact hlocal
    obtain ⟨w', hputs, hin, hout⟩ := ih w₁ hagain.alive hlocal₁
      (fun m hm => by rw [hagain.specs]; exact hcached m (List.mem_cons_of_mem _ hm))
      (fun m hm => hparses m (List.mem_cons_of_mem _ hm))
      (fun m hm => by rw [hagain.coordinator]; exact hanswers m (List.mem_cons_of_mem _ hm))
      (fun m hm => by rw [hagain.coordinator]; exact howner m (List.mem_cons_of_mem _ hm))
    refine ⟨w', ?_, ?_, ?_⟩
    · rw [List.foldlM_cons, hput]
      exact hputs
    · intro id hid
      by_cases hrest : id ∈ rest.map Prod.fst
      · rw [hin id hrest, hagain.coordinator]
      · have hhead : id = machine.1 := by
          rw [List.map_cons, List.mem_cons] at hid
          exact hid.resolve_right hrest
        rw [hout id hrest, hhead, hagain.machine]
    · intro id hid
      rw [List.map_cons, List.mem_cons, not_or] at hid
      rw [hout id hid.2, hagain.others id hid.1]

/-- A manager in a run: it and its coordinator are of the same peer, and every actor
is of a cached machine. -/
structure Placed {P : Type} (localPeerId : P) (w : World P) : Prop where
  manager : w.manager.localPeerId = localPeerId
  coordinator : w.coordinator.localPeerId = localPeerId
  contained : w.Contained

theorem Managed.localPeerId {P : Type} [SerdeJson] [DecidableEq P] [PeerId P] {score : Score P}
    {Valid : String → String → Prop} {asks : Prop} {w w' : World P}
    (h : Managed score Valid asks w w') : w'.manager.localPeerId = w.manager.localPeerId := by
  cases h with
  | quiet => rfl
  | lookedUp machineId => rw [(askLookup_frame score machineId w).1]
  | cached machineId specJson hvalid => rfl
  | deleted machineId => exact (Managing.stopMachineActor_sameCache ..).localPeerId
  | asked machineId message => exact (Managing.ask_identity ..).1
  | spawned machineId specJson actor hspec hnone hlookup hactor => rfl
  | stopped machineId reason lines hlookup hlines =>
    exact (Managing.stopMachineActor_sameCache ..).localPeerId

theorem Placed.affects {P : Type} [SerdeJson] [DecidableEq P] [PeerId P] {score : Score P}
    {Valid : String → String → Prop} {asks : Prop} {localPeerId : P} {w w' : World P}
    (hw : w.Placed localPeerId) (h : Node.Affects score Valid asks w w') :
    w'.Placed localPeerId := by
  refine ⟨?_, h.localPeerId.trans hw.coordinator, h.contained hw.contained⟩
  rw [← hw.manager]
  cases h with
  | managed h => exact h.localPeerId
  | written etcd now => rfl
  | topology peers => exact (Node.interferes_topology Valid peers w).localPeerId

theorem Placed.fails {P : Type} [SerdeJson] {now : ℤ} {instant : ℕ} {machineId error : String}
    {localPeerId : P} {w : World P} {m : Managing P} (hw : w.Placed localPeerId)
    (h : w.Fails now instant machineId error m) : (w.manage m).Placed localPeerId := by
  obtain ⟨hactors, hspecs, -, -, -⟩ :=
    Managing.noteFailure_frame instant machineId error w.toManaging
  have hlocal : (w.noteFailure instant machineId error).manager.localPeerId = localPeerId := by
    rw [← hw.manager]
    obtain ⟨-, heq | ⟨tracker, -, heq⟩⟩ :=
      Managing.recordFailure_cases instant machineId w.toManaging
    · rw [Managing.noteFailure, heq]
      rfl
    · rw [Managing.noteFailure, heq]
      rfl
  have hkept : ∀ id, id ∈ (w.noteFailure instant machineId error).manager.actors →
      id ∈ (w.noteFailure instant machineId error).manager.machineSpecs := by
    rw [hactors, hspecs]
    exact hw.contained
  cases h with
  | uncached hrestart hspec => exact ⟨hlocal, hw.coordinator, hkept⟩
  | unparsed hrestart hspec hparse =>
    exact ⟨hlocal, hw.coordinator, fun id hid => hkept id (Std.ExtTreeMap.mem_of_mem_erase hid)⟩
  | @restarted specJson actor hrestart hspec hactor =>
    refine ⟨hlocal, hw.coordinator, fun id hid => ?_⟩
    rw [manage_toManaging, Managing.mem_actors_addActor] at hid
    obtain rfl | hid := hid
    · show id ∈ (w.noteFailure instant id error).manager.machineSpecs
      rw [hspecs, Std.ExtTreeMap.mem_iff_isSome_getElem?, hspec]
      rfl
    · exact hkept id (Std.ExtTreeMap.mem_of_mem_erase hid)
  | exceeded hrestart =>
    exact ⟨hlocal, hw.coordinator, fun id hid => hkept id (Std.ExtTreeMap.mem_of_mem_erase hid)⟩

end World

namespace Supervised

/-- In every run the manager is placed as it was at the start. -/
theorem placed_of_run {P : Type} [SerdeJson] [DecidableEq P] [PeerId P] {score : Score P}
    {policy : RestartPolicy} {localPeerId : P} {nodeId : String} {peers : List P} {etcd : Etcd}
    {now : ℤ} {s₀ s : Supervised P} {labels : List (Label P)}
    (hstart : start policy localPeerId nodeId peers etcd now = some s₀)
    (h : Run (StepOf (Supervised.step score)) s₀ labels s) :
    s.world.Placed localPeerId ∧ (short (toBase58 localPeerId)).isSome = true := by
  obtain ⟨coordinator, hnew, hs₀⟩ := Option.map_eq_some_iff.mp hstart
  obtain ⟨text, htext, hcoordinator⟩ := Option.map_eq_some_iff.mp hnew
  refine ⟨?_, by rw [htext]; rfl⟩
  have hinv : s.Sound score ∧ s.world.Placed localPeerId := by
    refine h.invariant (I := fun s => s.Sound score ∧ s.world.Placed localPeerId) ?_
      ⟨sound_start score hstart, ?_⟩
    · rintro s l t ⟨hsound, hs⟩ hstep
      obtain ⟨hsound', heffect⟩ := hsound.step (step_cases hstep)
      refine ⟨hsound', ?_⟩
      generalize t.world = w' at heffect
      cases heffect with
      | affects h => exact hs.affects h
      | fail h => exact hs.fails (Managing.handleActorFailure_cases h)
    · rw [← hs₀]
      refine ⟨rfl, by rw [← hcoordinator], ?_⟩
      simp [World.Contained, MachineActorManagerActor.new]
  exact hinv.2

/-- A rebalance under a topology that answers lookups leaves exactly the actors of
the cached machines that the node owns, as do puts of all cached machines in any
order. It does not depend on the order of the map, changes nothing when it is
repeated, and leaves the actors alone that it keeps. -/
theorem rebalance_replays {P : Type} [SerdeJson] [DecidableEq P] [PeerId P] (score : Score P)
    (policy : RestartPolicy) (localPeerId : P) (nodeId : String) (peers : List P) (etcd : Etcd)
    (now : ℤ) (s₀ s : Supervised P) (labels : List (Label P))
    (hstart : start policy localPeerId nodeId peers etcd now = some s₀)
    (h : Run (StepOf (Supervised.step score)) s₀ labels s)
    (hparses : s.world.ValidSpecs Parses) (topology : List P) (hne : topology ≠ [])
    (w : World P) (hw : w = Node.applyTopology topology s.world)
    (halive : w.coordinatorAlive = true)
    (hanswers : ∀ machineId ∈ w.manager.machineSpecs,
      w.coordinator.answers score machineId = true)
    (machineIds : List String) (hkeys : machineIds.Perm w.manager.machineSpecs.keys) :
    ∃ w', w.handleAlone score .rebalanceActors machineIds = some w' ∧
      (∀ machineId, machineId ∈ w'.manager.actors ↔ machineId ∈ s.world.manager.machineSpecs ∧
        (RendezvousHasher.new topology).lookup score machineId = some localPeerId) ∧
      (∀ machines : List (String × String), machines.Perm w.manager.machineSpecs.toList →
        ∃ w'', machines.foldlM (fun w machine => w.handleAlone score
            (.etcdMachineEvent machine.1 .put (some machine.2)) []) w = some w'' ∧
          ∀ machineId, machineId ∈ w''.manager.actors ↔ machineId ∈ w'.manager.actors) ∧
      (∀ machineIds' : List String, machineIds'.Perm w.manager.machineSpecs.keys →
        ∃ w'', w.handleAlone score .rebalanceActors machineIds' = some w'' ∧
          w''.manager = w'.manager) ∧
      (∀ (later : ℤ) (machineIds' : List String), machineIds'.Perm w'.manager.machineSpecs.keys →
        ∃ w'', ({ w' with now := later } : World P).handleAlone score .rebalanceActors
          machineIds' = some w'' ∧ w''.manager = w'.manager) ∧
      ∀ (machineId : String) (actor actor' : MachineActor),
        s.world.manager.actors[machineId]? = some actor →
        w'.manager.actors[machineId]? = some actor' → actor' = actor := by
  obtain ⟨hplaced, hshort⟩ := placed_of_run hstart h
  have hplacedW : w.Placed localPeerId := by
    rw [hw]
    have haffects : Node.Affects score Parses False s.world
        (Node.applyTopology topology s.world) := Node.Affects.topology topology
    exact hplaced.affects haffects
  -- The coordinator lives, so that it has applied the topology.
  have hworld : w.manager = s.world.manager ∧
      w.coordinator.hasher = RendezvousHasher.new topology := by
    unfold Node.applyTopology at hw
    by_cases hcoordinator : s.world.coordinatorAlive = true
    · rw [if_pos hcoordinator] at hw
      rw [hw]
      exact ⟨rfl, rfl⟩
    · rw [if_neg hcoordinator] at hw
      exact absurd (hw ▸ halive) hcoordinator
  obtain ⟨hmanager, hhasher⟩ := hworld
  have hparsesW : w.ValidSpecs Parses := by
    intro id specJson hspec
    rw [hmanager] at hspec
    exact hparses id specJson hspec
  have hlocal : (short (toBase58 w.manager.localPeerId)).isSome = true := by
    rw [hplacedW.manager]
    exact hshort
  have hmem : ∀ {ids : List String}, ids.Perm w.manager.machineSpecs.keys →
      ∀ id, id ∈ ids ↔ id ∈ w.manager.machineSpecs := fun hperm id =>
    hperm.mem_iff.trans Std.ExtTreeMap.mem_keys
  obtain ⟨w', hrun, halive', hdone⟩ :=
    World.rebalance_answered score machineIds w halive hlocal hanswers hkeys
  have hactors := hdone.mem_actors (fun id hid => (hmem hkeys id).mpr hid) hplacedW.contained
    (fun id hid => (hmem hkeys id).mp hid) hparsesW
  refine ⟨w', hrun, ?_, ?_, ?_, ?_, ?_⟩
  · intro id
    rw [hactors id, hmanager, ShardingCoordinator.Owns, hhasher, hplacedW.coordinator]
  · intro machines hperm
    have hcached : ∀ machine ∈ machines, w.manager.machineSpecs[machine.1]? = some machine.2 :=
      fun machine hin => Std.ExtTreeMap.mem_toList_iff_getElem?_eq_some.mp (hperm.mem_iff.mp hin)
    have hspecs : ∀ machine ∈ machines, machine.1 ∈ w.manager.machineSpecs := by
      intro machine hin
      rw [Std.ExtTreeMap.mem_iff_isSome_getElem?, hcached machine hin]
      rfl
    obtain ⟨w'', hputs, hin, hout⟩ := World.puts_alone score machines w halive hlocal hcached
      (fun machine hm => hparsesW machine.1 machine.2 (hcached machine hm))
      (fun machine hm => hanswers machine.1 (hspecs machine hm)) (fun machine _ => by
        rw [hhasher, ne_eq, RendezvousHasher.lookup_new_eq_none]
        exact hne)
    refine ⟨w'', hputs, fun id => ?_⟩
    rw [hactors id]
    by_cases hid : id ∈ w.manager.machineSpecs
    · obtain ⟨specJson, hspec⟩ :=
        Option.isSome_iff_exists.mp (Std.ExtTreeMap.mem_iff_isSome_getElem?.mp hid)
      have hlisted : (id, specJson) ∈ machines := hperm.mem_iff.mpr
        (Std.ExtTreeMap.mem_toList_iff_getElem?_eq_some.mpr hspec)
      rw [hin id (List.mem_map.mpr ⟨_, hlisted, rfl⟩)]
      exact (and_iff_right hid).symm
    · have hnot : id ∉ machines.map Prod.fst := by
        intro hlisted
        obtain ⟨machine, hm, rfl⟩ := List.mem_map.mp hlisted
        exact hid (hspecs machine hm)
      rw [hout id hnot]
      exact iff_of_false (fun hactor => hid (hplacedW.contained id hactor)) (fun h => hid h.1)
  · intro machineIds' hkeys'
    obtain ⟨w'', hrun', -, hdone'⟩ :=
      World.rebalance_answered score machineIds' w halive hlocal hanswers hkeys'
    refine ⟨w'', hrun', hdone.manager_eq hdone' (fun id => ?_)⟩
    rw [hmem hkeys, hmem hkeys']
  · intro later machineIds' hkeys'
    obtain ⟨w'', hrun', -, hagain⟩ := World.rebalance_answered score machineIds'
      { w' with now := later } halive' (by rw [hdone.cache.localPeerId]; exact hlocal)
      (by rw [hdone.coordinator, hdone.cache.machineSpecs]; exact hanswers) hkeys'
    refine ⟨w'', hrun', hagain.again (fun id hid => ?_)⟩
    have hspec : id ∈ w.manager.machineSpecs := by
      rw [← hdone.cache.machineSpecs]
      exact Std.ExtTreeMap.mem_keys.mp (hkeys'.mem_iff.mp hid)
    show w'.coordinator.Owns score id ↔ id ∈ w'.manager.actors
    rw [hactors id, hdone.coordinator]
    exact (and_iff_right hspec).symm
  · intro id actor actor' hbefore hafter
    rw [← hmanager] at hbefore
    have hin : id ∈ machineIds := by
      rw [hmem hkeys]
      apply hplacedW.contained
      rw [Std.ExtTreeMap.mem_iff_isSome_getElem?, hbefore]
      rfl
    rw [hdone.actors id hin, hbefore] at hafter
    split_ifs at hafter
    exact (Option.some.inj hafter).symm

/-- Two machines, one of which a second peer takes over. -/
theorem rebalance_replays_join :
    let spec : Json := .object [("adminState", .string "available"), ("cluster", .string "lab")]
    let _ : SerdeJson := SerdeJson.knowing [spec]
    ∃ (score : Score Base58Text) (a b : Base58Text) (w w' : World Base58Text),
      "m1" ∈ w.manager.actors ∧ (RendezvousHasher.new [a, b]).lookup score "m1" = some b ∧
      w.handleAlone score .rebalanceActors ["m2", "m1"] = some w' ∧
      ∀ machineId, machineId ∈ w'.manager.actors ↔ machineId ∈ w.manager.machineSpecs ∧
        (RendezvousHasher.new [a, b]).lookup score machineId = some a := by
  intro spec _
  let a := peerOf "12D3KooWAAAAAAAAAAAAAAAAAAAAAAAAAAAAAAAAAAAAAAAAAAAA"
  let b := peerOf "12D3KooWBBBBBBBBBBBBBBBBBBBBBBBBBBBBBBBBBBBBBBBBBBBB"
  let score : Score Base58Text := fun id p => if id = "m1" ∧ p = a then 3 else 7
  let labels := ownPut "m1" spec.text [] ++ ownPut "m2" spec.text ["m1"]
  obtain ⟨s₀, hstart, s, hrun, hin, hspecs, halive, hanswers, hkeys⟩ :
      ∃ s₀ ∈ start RestartPolicy.default a "node-a" [a] ∅ 0,
      ∃ s ∈ labels.foldlM (Supervised.step score) s₀,
        "m1" ∈ s.world.manager.actors ∧
        (∀ machine ∈ s.world.manager.machineSpecs.toList, machine.2 = spec.text) ∧
        (Node.applyTopology [a, b] s.world).coordinatorAlive = true ∧
        (∀ machineId ∈ (Node.applyTopology [a, b] s.world).manager.machineSpecs.keys,
          (Node.applyTopology [a, b] s.world).coordinator.answers score machineId = true) ∧
        ["m2", "m1"].Perm (Node.applyTopology [a, b] s.world).manager.machineSpecs.keys := by
    decide +kernel
  have hparses : s.world.ValidSpecs Parses := by
    intro id specJson hspec
    obtain rfl := hspecs (id, specJson) (Std.ExtTreeMap.mem_toList_iff_getElem?_eq_some.mpr hspec)
    show (MachineSpec.fromStr spec.text).isSome = true
    decide +kernel
  have hmanager : (Node.applyTopology [a, b] s.world).manager = s.world.manager := by
    unfold Node.applyTopology
    split_ifs <;> rfl
  obtain ⟨w', hrebalance, hactors, -⟩ := rebalance_replays score _ a "node-a" [a] ∅ 0 s₀ s labels
    hstart (Run.of_foldlM hrun)
    hparses [a, b] (by simp) _ rfl halive
    (fun id hid => hanswers id (Std.ExtTreeMap.mem_keys.mpr hid)) ["m2", "m1"] hkeys
  refine ⟨score, a, b, _, w', ?_, by decide +kernel, hrebalance, ?_⟩
  · rw [hmanager]
    exact hin
  · rw [hmanager]
    exact hactors

end Supervised
end Neolaas
