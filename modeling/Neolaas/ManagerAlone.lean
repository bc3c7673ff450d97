import Neolaas.ManagerRuns

/-!
# Handlers that run alone

When nothing happens between its operations, a handler's result is a function of
the state it starts in. A rebalance comes to a plan over the machines up to the
first lookup that is not answered, since the coordinator dies of that one.
-/
namespace Neolaas
open AtomicProgram PeerId

namespace Event

/-- The machine whose actor an event announces as spawned. -/
def spawned : Event → Option String
  | actorSpawned _ actorId _ => some actorId
  | _ => none

/-- The machine whose actor an event announces as stopped. -/
def stopped : Event → Option String
  | actorStopped _ actorId _ _ => some actorId
  | _ => none

theorem IsLookup.spawned {e : Event} (h : e.IsLookup) : e.spawned = none := by
  obtain ⟨machineId, owner, isLocal, rfl⟩ := h
  rfl

theorem IsLookup.stopped {e : Event} (h : e.IsLookup) : e.stopped = none := by
  obtain ⟨machineId, owner, isLocal, rfl⟩ := h
  rfl

end Event

namespace ShardingCoordinator

instance {P : Type} [DecidableEq P] (score : Score P) (self : ShardingCoordinator P)
    (machineId : String) : Decidable (self.Owns score machineId) :=
  inferInstanceAs (Decidable (_ = _))

/-- A lookup of the machine is answered. -/
def answers {P : Type} [DecidableEq P] [PeerId P] (score : Score P)
    (self : ShardingCoordinator P) (machineId : String) : Bool :=
  (self.handleLookupMachine score machineId).isSome

/-- The text of the owner, if there is one, must be long enough. -/
theorem answers_iff {P : Type} [DecidableEq P] [PeerId P] (score : Score P)
    (self : ShardingCoordinator P) (machineId : String) :
    self.answers score machineId = true ↔
      ∀ p, self.hasher.lookup score machineId = some p → (short (toBase58 p)).isSome = true := by
  unfold answers handleLookupMachine
  cases self.hasher.lookup score machineId with
  | none => simp
  | some p => simp

end ShardingCoordinator

namespace World

/-- The manager handles a message while the rest of the node stands still. -/
def handleAlone {P : Type} [SerdeJson] [DecidableEq P] [PeerId P] (score : Score P)
    (message : ManagerMessage) (machineIds : List String) (w : World P) : Option (World P) :=
  ((message.handler machineIds).run (exec score) w).map Prod.snd

theorem askLookup_of_answers {P : Type} [DecidableEq P] [PeerId P] {score : Score P}
    {machineId : String} {w : World P} (halive : w.coordinatorAlive = true)
    (h : w.coordinator.answers score machineId = true) :
    ∃ result owner, w.askLookup score machineId = (some result,
        { w with events := w.events ++ [.machineLookup machineId owner result.isLocal] }) ∧
      result.ownerPeer = w.coordinator.hasher.lookup score machineId ∧
      result.isLocal = decide (w.coordinator.Owns score machineId) := by
  obtain ⟨⟨result, line⟩, hlookup⟩ := Option.isSome_iff_exists.mp h
  have hres : (w.askLookup score machineId).1 = some result := by
    simp [askLookup, halive, hlookup]
  obtain ⟨howner, hlocal, owner, heq⟩ := askLookup_some hres
  refine ⟨result, owner, Prod.ext hres heq, howner, ?_⟩
  by_cases hown : w.coordinator.Owns score machineId
  · rw [hlocal.mpr hown, decide_eq_true hown]
  · rw [decide_eq_false hown]
    exact Bool.eq_false_iff.mpr (fun h => hown (hlocal.mp h))

/-- The coordinator is dead afterwards, if it has not been before. -/
theorem askLookup_of_not_answers {P : Type} [DecidableEq P] [PeerId P] {score : Score P}
    {machineId : String} {w : World P}
    (h : w.coordinatorAlive = false ∨ w.coordinator.answers score machineId = false) :
    w.askLookup score machineId = (none, { w with coordinatorAlive := false }) := by
  have hres : (w.askLookup score machineId).1 = none := by
    obtain hdead | hno := h
    · simp [askLookup, hdead]
    · have hnone : w.coordinator.handleLookupMachine score machineId = none := by
        simpa [ShardingCoordinator.answers] using hno
      unfold askLookup
      split_ifs
      · rw [hnone]
      · rfl
  exact Prod.ext hres (askLookup_none hres)

end World

namespace Program
open World

theorem run_lookupMachine {P α : Type} [DecidableEq P] [PeerId P] (score : Score P)
    (machineId : String) (f : Option (LookupResult P) → Program P α) (w : World P) :
    (lookupMachine machineId >>= f).run (exec score) w =
      (f (w.askLookup score machineId).1).run (exec score) (w.askLookup score machineId).2 := rfl

theorem run_read {P α : Type} [DecidableEq P] [PeerId P] (score : Score P)
    (f : MachineActorManagerActor P → Program P α) (w : World P) :
    (read >>= f).run (exec score) w = (f w.manager).run (exec score) w := rfl

theorem run_modify {P : Type} [DecidableEq P] [PeerId P] (score : Score P)
    (g : ℤ → Managing P → Option (Managing P)) (w : World P) :
    (modify g).run (exec score) w =
      (g w.now w.toManaging).map (fun m => ((), w.manage m)) := by
  exact Prog.run_perform (exec score) (Op.modify g) w

theorem run_modify_bind {P α : Type} [DecidableEq P] [PeerId P] (score : Score P)
    (g : ℤ → Managing P → Option (Managing P)) (f : Unit → Program P α) (w : World P) :
    (modify g >>= f).run (exec score) w =
      (g w.now w.toManaging).bind (fun m => (f ()).run (exec score) (w.manage m)) := by
  rw [Prog.run_bind, run_modify]
  cases g w.now w.toManaging <;> rfl

/-- The machines among the given ones whose actors a rebalance stops. -/
def toStop {P : Type} [DecidableEq P] (score : Score P) (w : World P) (machineIds : List String) :
    List String :=
  machineIds.filter (fun machineId =>
    !decide (w.coordinator.Owns score machineId) && w.manager.actors.contains machineId)

/-- The machines among the given ones for which it spawns actors, with their specs. -/
def toSpawn {P : Type} [DecidableEq P] (score : Score P) (w : World P)
    (machineIds : List String) : List (String × String) :=
  machineIds.filterMap (fun machineId =>
    if decide (w.coordinator.Owns score machineId) && !w.manager.actors.contains machineId then
      w.manager.machineSpecs[machineId]?.map (fun specJson => (machineId, specJson))
    else none)

theorem checkMachine_run {P : Type} [SerdeJson] [DecidableEq P] [PeerId P] (score : Score P)
    (plan : List String × List (String × String)) (machineId : String) (w : World P)
    (halive : w.coordinatorAlive = true) (h : w.coordinator.answers score machineId = true) :
    ∃ line : Event, line.IsLookup ∧
      (checkMachine plan machineId).run (exec score) w =
        some ((plan.1 ++ toStop score w [machineId], plan.2 ++ toSpawn score w [machineId]),
          { w with events := w.events ++ [line] }) := by
  obtain ⟨result, owner, hask, -, hlocal⟩ := askLookup_of_answers halive h
  refine ⟨.machineLookup machineId owner result.isLocal, ⟨_, _, _, rfl⟩, ?_⟩
  unfold checkMachine
  rw [run_lookupMachine, hask]
  simp only [run_read, hlocal, toStop, toSpawn]
  by_cases hown : w.coordinator.Owns score machineId
  · cases hactor : w.manager.actors.contains machineId with
    | true => simp [hown, hactor, Prog.run_pure]
    | false =>
      cases hspec : w.manager.machineSpecs[machineId]? <;>
        simp [hown, hactor, hspec, Prog.run_pure]
  · cases hactor : w.manager.actors.contains machineId <;> simp [hown, hactor, Prog.run_pure]

theorem checkMachine_run_of_not_answers {P : Type} [SerdeJson] [DecidableEq P] [PeerId P]
    (score : Score P) (plan : List String × List (String × String)) (machineId : String)
    (w : World P)
    (h : w.coordinatorAlive = false ∨ w.coordinator.answers score machineId = false) :
    (checkMachine plan machineId).run (exec score) w =
      some (plan, { w with coordinatorAlive := false }) := by
  unfold checkMachine
  rw [run_lookupMachine, askLookup_of_not_answers h]
  rfl

/-- Nothing comes of the checks once the coordinator is dead. -/
theorem checkMachines_run_of_dead {P : Type} [SerdeJson] [DecidableEq P] [PeerId P]
    (score : Score P) (plan : List String × List (String × String)) (machineIds : List String)
    (w : World P) (hdead : w.coordinatorAlive = false) :
    (machineIds.foldlM checkMachine plan).run (exec score) w = some (plan, w) := by
  induction machineIds with
  | nil => rfl
  | cons machineId rest ih =>
    rw [List.foldlM_cons, Prog.run_bind, checkMachine_run_of_not_answers score plan machineId w
      (Or.inl hdead), Option.bind_some]
    have hw : { w with coordinatorAlive := false } = w := by
      rw [← hdead]
    rw [hw]
    exact ih

/-- The checks of a rebalance: the plan covers the machines up to the first lookup
that is not answered. -/
theorem checkMachines_run {P : Type} [SerdeJson] [DecidableEq P] [PeerId P] (score : Score P)
    (plan : List String × List (String × String)) (machineIds : List String) (w : World P)
    (halive : w.coordinatorAlive = true) :
    ∃ lines : List Event, (∀ e ∈ lines, e.IsLookup) ∧
      (machineIds.foldlM checkMachine plan).run (exec score) w =
        some ((plan.1 ++ toStop score w (machineIds.takeWhile (w.coordinator.answers score)),
          plan.2 ++ toSpawn score w (machineIds.takeWhile (w.coordinator.answers score))),
          { w with
            events := w.events ++ lines
            coordinatorAlive := machineIds.all (w.coordinator.answers score) }) := by
  induction machineIds generalizing plan w with
  | nil =>
    refine ⟨[], by simp, ?_⟩
    cases w
    simp_all [toStop, toSpawn, Prog.run_pure]
  | cons machineId rest ih =>
    rw [List.foldlM_cons, Prog.run_bind]
    cases h : w.coordinator.answers score machineId with
    | true =>
      obtain ⟨line, hline, hrun⟩ := checkMachine_run score plan machineId w halive h
      rw [hrun, Option.bind_some]
      obtain ⟨lines, hlines, hrest⟩ := ih
        (plan.1 ++ toStop score w [machineId], plan.2 ++ toSpawn score w [machineId])
        { w with events := w.events ++ [line] } halive
      refine ⟨line :: lines, ?_, ?_⟩
      · intro e he
        obtain rfl | he := List.mem_cons.mp he
        · exact hline
        · exact hlines e he
      · rw [hrest]
        have hcons : ∀ ids, toStop score w (machineId :: ids) =
            toStop score w [machineId] ++ toStop score w ids ∧
            toSpawn score w (machineId :: ids) =
              toSpawn score w [machineId] ++ toSpawn score w ids :=
          fun ids => ⟨List.filter_append [machineId] ids, List.filterMap_append (l := [machineId])⟩
        obtain ⟨hstop, hspawn⟩ := hcons (rest.takeWhile (w.coordinator.answers score))
        rw [List.takeWhile_cons_of_pos h, hstop, hspawn, List.all_cons, h]
        simp only [List.append_assoc, List.cons_append, List.nil_append, Bool.true_and]
        rfl
    | false =>
      rw [checkMachine_run_of_not_answers score plan machineId w (Or.inr h), Option.bind_some,
        checkMachines_run_of_dead score plan rest _ rfl]
      refine ⟨[], by simp, ?_⟩
      rw [List.takeWhile_cons_of_neg (by simp [h]), List.all_cons, h]
      simp [toStop, toSpawn]

/-- A loop of changes of the manager's own fields, alone. -/
theorem foldlM_modify_run {P β : Type} [DecidableEq P] [PeerId P] (score : Score P)
    (f : ℤ → β → Managing P → Option (Managing P)) (xs : List β) (w : World P) :
    (xs.foldlM (fun _ x => modify (fun now m => f now x m)) ()).run (exec score) w =
      (xs.foldlM (fun m x => f w.now x m) w.toManaging).map (fun m => ((), w.manage m)) := by
  induction xs generalizing w with
  | nil => rfl
  | cons x xs ih =>
    rw [List.foldlM_cons, List.foldlM_cons, run_modify_bind]
    cases f w.now x w.toManaging with
    | none => rfl
    | some m => exact ih (w.manage m)

end Program

namespace Managing

/-- The maps of actors and of trackers may differ. -/
structure SameCache {P : Type} (m m' : Managing P) : Prop where
  localPeerId : m'.manager.localPeerId = m.manager.localPeerId
  nodeId : m'.manager.nodeId = m.manager.nodeId
  machineSpecs : m'.manager.machineSpecs = m.manager.machineSpecs
  restartPolicy : m'.manager.restartPolicy = m.manager.restartPolicy

theorem SameCache.trans {P : Type} {m m' m'' : Managing P} (h : SameCache m m')
    (h' : SameCache m' m'') : SameCache m m'' :=
  ⟨h'.localPeerId.trans h.localPeerId, h'.nodeId.trans h.nodeId,
    h'.machineSpecs.trans h.machineSpecs, h'.restartPolicy.trans h.restartPolicy⟩

theorem stopMachineActor_sameCache {P : Type} (machineId reason : String) (m : Managing P) :
    SameCache m (m.stopMachineActor machineId reason) := by
  unfold stopMachineActor
  split_ifs <;> exact ⟨rfl, rfl, rfl, rfl⟩

/-- Stopping the actors of some machines: they and their trackers are gone. -/
theorem stopActors_spec {P : Type} (reason : String) (machineIds : List String)
    (m : Managing P) (hnodup : machineIds.Nodup)
    (hactors : ∀ machineId ∈ machineIds, machineId ∈ m.manager.actors) :
    ∃ m' es, machineIds.foldlM (fun m id => some (m.stopMachineActor id reason)) m = some m' ∧
      SameCache m m' ∧
      (∀ id ∈ machineIds, m'.manager.actors[id]? = none ∧
        m'.manager.restartTrackers[id]? = none) ∧
      (∀ id ∉ machineIds, m'.manager.actors[id]? = m.manager.actors[id]? ∧
        m'.manager.restartTrackers[id]? = m.manager.restartTrackers[id]?) ∧
      m'.events = m.events ++ es ∧ es.filterMap Event.stopped = machineIds ∧
      es.filterMap Event.spawned = [] := by
  induction machineIds generalizing m with
  | nil => exact ⟨m, [], rfl, ⟨rfl, rfl, rfl, rfl⟩, by simp, by simp, by simp, rfl, rfl⟩
  | cons machineId rest ih =>
    obtain ⟨hfresh, hrest⟩ := List.nodup_cons.mp hnodup
    have hactor := hactors machineId List.mem_cons_self
    have hremain : ∀ id ∈ rest,
        id ∈ (m.stopMachineActor machineId reason).manager.actors := by
      intro id hid
      rw [mem_actors_stopMachineActor]
      exact ⟨fun he => hfresh (he ▸ hid), hactors id (List.mem_cons_of_mem machineId hid)⟩
    obtain ⟨m', es, hrun, hsame, hgone, hkept, hevents, hstopped, hspawned⟩ :=
      ih (m.stopMachineActor machineId reason) hrest hremain
    have hstop : m.stopMachineActor machineId reason =
        { manager := { m.manager with
            actors := m.manager.actors.erase machineId
            restartTrackers := m.manager.restartTrackers.erase machineId }
          events := m.events ++ [.recordActorStopped "MachineActor" reason,
            .actorStopped "MachineActor" machineId reason m.manager.nodeId] } := by
      unfold stopMachineActor
      rw [if_pos (Std.ExtTreeMap.contains_iff_mem.mpr hactor)]
    refine ⟨m', .recordActorStopped "MachineActor" reason ::
        .actorStopped "MachineActor" machineId reason m.manager.nodeId :: es, hrun,
      (stopMachineActor_sameCache machineId reason m).trans hsame, ?_, ?_, ?_, ?_, ?_⟩
    · intro id hid
      obtain rfl | hid := List.mem_cons.mp hid
      · obtain ⟨hactors', htrackers⟩ := hkept id hfresh
        rw [hactors', htrackers, hstop]
        exact ⟨Std.ExtTreeMap.getElem?_erase_self, Std.ExtTreeMap.getElem?_erase_self⟩
      · exact hgone id hid
    · intro id hid
      rw [List.mem_cons, not_or] at hid
      obtain ⟨hactors', htrackers⟩ := hkept id hid.2
      rw [hactors', htrackers, hstop, Std.ExtTreeMap.getElem?_erase,
        Std.ExtTreeMap.getElem?_erase]
      simp [Ne.symm hid.1]
    · rw [hevents, hstop]
      simp
    · show machineId :: es.filterMap Event.stopped = machineId :: rest
      rw [hstopped]
    · rw [List.filterMap_cons_none rfl, List.filterMap_cons_none rfl, hspawned]

/-- The actor that a machine's cached spec gives, if it parses. -/
def born {P : Type} [SerdeJson] (now : ℤ) (m : Managing P) (machineId : String) :
    Option MachineActor :=
  m.manager.machineSpecs[machineId]?.bind
    (fun specJson => MachineActor.withNodeId now machineId specJson m.manager.nodeId)

/-- Spawning actors of cached machines that have none: those whose specs parse
get a fresh actor and a fresh tracker. -/
theorem spawnActors_spec {P : Type} [SerdeJson] [PeerId P] (now : ℤ)
    (machines : List (String × String)) (m : Managing P)
    (hlocal : (short (toBase58 m.manager.localPeerId)).isSome = true)
    (hnodup : (machines.map Prod.fst).Nodup)
    (hactors : ∀ machine ∈ machines, machine.1 ∉ m.manager.actors)
    (hspecs : ∀ machine ∈ machines, m.manager.machineSpecs[machine.1]? = some machine.2) :
    ∃ m' es,
      machines.foldlM (fun m machine => m.spawnMachineActor now machine.1 machine.2) m = some m' ∧
      SameCache m m' ∧
      (∀ id ∈ machines.map Prod.fst, m'.manager.actors[id]? = m.born now id ∧
        m'.manager.restartTrackers[id]? =
          ((m.born now id).map (fun _ => RestartTracker.new m.manager.restartPolicy)).or
            m.manager.restartTrackers[id]?) ∧
      (∀ id ∉ machines.map Prod.fst, m'.manager.actors[id]? = m.manager.actors[id]? ∧
        m'.manager.restartTrackers[id]? = m.manager.restartTrackers[id]?) ∧
      m'.events = m.events ++ es ∧ es.filterMap Event.stopped = [] ∧
      ∀ id, id ∈ es.filterMap Event.spawned ↔
        id ∈ machines.map Prod.fst ∧ (m.born now id).isSome = true := by
  induction machines generalizing m with
  | nil => exact ⟨m, [], rfl, ⟨rfl, rfl, rfl, rfl⟩, by simp, by simp, by simp, rfl, by simp⟩
  | cons machine rest ih =>
    obtain ⟨machineId, specJson⟩ := machine
    rw [List.map_cons, List.nodup_cons] at hnodup
    obtain ⟨hfresh, hrest⟩ := hnodup
    have hspecs' : ∀ machine ∈ rest, m.manager.machineSpecs[machine.1]? = some machine.2 :=
      fun machine hin => hspecs machine (List.mem_cons_of_mem _ hin)
    have hborn : m.born now machineId =
        MachineActor.withNodeId now machineId specJson m.manager.nodeId := by
      simp [born, hspecs _ List.mem_cons_self]
    rw [List.map_cons]
    cases hactor : MachineActor.withNodeId now machineId specJson m.manager.nodeId with
    | none =>
      have hspawn : m.spawnMachineActor now machineId specJson = some m := by
        simp [spawnMachineActor, hactor]
      have hnone : m.manager.actors[machineId]? = none :=
        Std.ExtTreeMap.getElem?_eq_none (hactors _ List.mem_cons_self)
      obtain ⟨m', es, hrun, hsame, hnew, hkept, hevents, hstopped, hspawned⟩ := ih m hlocal
        hrest (fun machine hin => hactors machine (List.mem_cons_of_mem _ hin)) hspecs'
      refine ⟨m', es, ?_, hsame, ?_, ?_, hevents, hstopped, ?_⟩
      · rw [List.foldlM_cons, hspawn]
        exact hrun
      · intro id hid
        obtain rfl | hid := List.mem_cons.mp hid
        · obtain ⟨hactors', htrackers⟩ := hkept _ hfresh
          rw [hactors', htrackers, hborn, hactor, hnone]
          exact ⟨rfl, rfl⟩
        · exact hnew id hid
      · intro id hid
        exact hkept id (fun hin => hid (List.mem_cons_of_mem _ hin))
      · intro id
        rw [hspawned id, List.mem_cons]
        by_cases hid : id = machineId
        · rw [hid, hborn, hactor]
          simp
        · simp [hid]
    | some actor =>
      obtain ⟨text, htext⟩ := Option.isSome_iff_exists.mp hlocal
      have hspawn : m.spawnMachineActor now machineId specJson =
          some (m.addActor machineId actor) := by
        simp [spawnMachineActor, hactor, htext]
      have hfree : ∀ machine ∈ rest, machine.1 ∉ (m.addActor machineId actor).manager.actors := by
        intro machine hin
        rw [mem_actors_addActor, not_or]
        refine ⟨fun he => hfresh ?_, hactors machine (List.mem_cons_of_mem _ hin)⟩
        exact List.mem_map.mpr ⟨machine, hin, he⟩
      obtain ⟨m', es, hrun, hsame, hnew, hkept, hevents, hstopped, hspawned⟩ :=
        ih (m.addActor machineId actor) hlocal hrest hfree hspecs'
      have hother : ∀ id, id ≠ machineId →
          (m.addActor machineId actor).manager.actors[id]? = m.manager.actors[id]? ∧
          (m.addActor machineId actor).manager.restartTrackers[id]? =
            m.manager.restartTrackers[id]? := by
        intro id hid
        simp [addActor, Std.ExtTreeMap.getElem?_insert, Ne.symm hid]
      refine ⟨m', .recordActorSpawned "MachineActor" ::
          .actorSpawned "MachineActor" machineId m.manager.nodeId :: es, ?_,
        ⟨hsame.1, hsame.2, hsame.3, hsame.4⟩, ?_, ?_, ?_, ?_, ?_⟩
      · rw [List.foldlM_cons, hspawn]
        exact hrun
      · intro id hid
        obtain rfl | hid := List.mem_cons.mp hid
        · obtain ⟨hactors', htrackers⟩ := hkept _ hfresh
          rw [hactors', htrackers, hborn, hactor]
          exact ⟨Std.ExtTreeMap.getElem?_insert_self, Std.ExtTreeMap.getElem?_insert_self⟩
        · have hne : id ≠ machineId := fun he => hfresh (he ▸ hid)
          obtain ⟨hactors', htrackers⟩ := hnew id hid
          rw [hactors', htrackers, (hother id hne).2]
          exact ⟨rfl, rfl⟩
      · intro id hid
        rw [List.mem_cons, not_or] at hid
        obtain ⟨hactors', htrackers⟩ := hkept id hid.2
        rw [hactors', htrackers]
        exact hother id hid.1
      · rw [hevents]
        simp [addActor]
      · rw [List.filterMap_cons_none rfl, List.filterMap_cons_none rfl, hstopped]
      · intro id
        have htail : id ∈ es.filterMap Event.spawned ↔
            id ∈ rest.map Prod.fst ∧ (m.born now id).isSome = true := hspawned id
        show id ∈ machineId :: es.filterMap Event.spawned ↔ _
        rw [List.mem_cons, htail, List.mem_cons]
        by_cases hid : id = machineId
        · rw [hid, hborn, hactor]
          simp
        · simp [hid]

end Managing

namespace World

/-- A rebalance after the given machines have been looked up. Of these, a machine
of another node loses its actor, and a local one without actor gets the one that
its cached spec gives. -/
structure Rebalanced {P : Type} [SerdeJson] [DecidableEq P] (score : Score P) (looked : List String)
    (w w' : World P) : Prop where
  coordinator : w'.coordinator = w.coordinator
  now : w'.now = w.now
  cache : Managing.SameCache w.toManaging w'.toManaging
  actors : ∀ id ∈ looked, w'.manager.actors[id]? =
    if w.coordinator.Owns score id then w.manager.actors[id]?.or (w.born w.now id) else none
  trackers : ∀ id ∈ looked, w'.manager.restartTrackers[id]? =
    if id ∈ w.manager.actors then
      if w.coordinator.Owns score id then w.manager.restartTrackers[id]? else none
    else if w.coordinator.Owns score id then
      ((w.born w.now id).map (fun _ => RestartTracker.new w.manager.restartPolicy)).or
        w.manager.restartTrackers[id]?
    else w.manager.restartTrackers[id]?
  others : ∀ id ∉ looked, w'.manager.actors[id]? = w.manager.actors[id]? ∧
    w'.manager.restartTrackers[id]? = w.manager.restartTrackers[id]?
  events : ∃ es, w'.events = w.events ++ es ∧
    (∀ id, id ∈ es.filterMap Event.stopped ↔
      id ∈ looked ∧ id ∈ w.manager.actors ∧ ¬w.coordinator.Owns score id) ∧
    (∀ id, id ∈ es.filterMap Event.spawned ↔ id ∈ looked ∧ id ∉ w.manager.actors ∧
      w.coordinator.Owns score id ∧ (w.born w.now id).isSome = true)

end World

namespace Program
open World

theorem mem_toStop {P : Type} [DecidableEq P] (score : Score P) (w : World P)
    (machineIds : List String) (id : String) :
    id ∈ toStop score w machineIds ↔
      id ∈ machineIds ∧ ¬w.coordinator.Owns score id ∧ id ∈ w.manager.actors := by
  unfold toStop
  rw [List.mem_filter]
  simp

theorem mem_toSpawn {P : Type} [DecidableEq P] (score : Score P) (w : World P)
    (machineIds : List String) (machine : String × String) :
    machine ∈ toSpawn score w machineIds ↔ machine.1 ∈ machineIds ∧
      w.coordinator.Owns score machine.1 ∧ machine.1 ∉ w.manager.actors ∧
      w.manager.machineSpecs[machine.1]? = some machine.2 := by
  obtain ⟨machineId, specJson⟩ := machine
  unfold toSpawn
  rw [List.mem_filterMap]
  constructor
  · rintro ⟨id, hid, hpair⟩
    split_ifs at hpair with hcan
    obtain ⟨spec, hspec, heq⟩ := Option.map_eq_some_iff.mp hpair
    obtain ⟨rfl, rfl⟩ := Prod.mk.inj heq
    obtain ⟨hown, hactor⟩ := Bool.and_eq_true_iff.mp hcan
    refine ⟨hid, of_decide_eq_true hown, ?_, hspec⟩
    intro hin
    have hfree : w.manager.actors.contains id = false := by simpa using hactor
    rw [Std.ExtTreeMap.contains_iff_mem.mpr hin] at hfree
    cases hfree
  · rintro ⟨hid, hown, hactor, hspec⟩
    refine ⟨machineId, hid, ?_⟩
    have hspec' : w.manager.machineSpecs[machineId]? = some specJson := hspec
    simp [hown, hactor, hspec']

theorem toSpawn_nodup {P : Type} [DecidableEq P] (score : Score P) (w : World P)
    {machineIds : List String} (hnodup : machineIds.Nodup) :
    ((toSpawn score w machineIds).map Prod.fst).Nodup := by
  have hsub : ((toSpawn score w machineIds).map Prod.fst).Sublist machineIds := by
    induction machineIds with
    | nil => simp [toSpawn]
    | cons machineId rest ih =>
      have hrest := ih (List.nodup_cons.mp hnodup).2
      unfold toSpawn at hrest ⊢
      rw [List.filterMap_cons]
      split
      · exact hrest.cons machineId
      · rename_i machine hmachine
        split_ifs at hmachine
        obtain ⟨spec, -, rfl⟩ := Option.map_eq_some_iff.mp hmachine
        exact hrest.cons_cons machineId
  exact hsub.nodup hnodup

/-- The keys of the plan to spawn. -/
theorem mem_keys_toSpawn {P : Type} [DecidableEq P] (score : Score P) (w : World P)
    (machineIds : List String) (id : String) :
    id ∈ (toSpawn score w machineIds).map Prod.fst ↔ id ∈ machineIds ∧
      w.coordinator.Owns score id ∧ id ∉ w.manager.actors ∧ id ∈ w.manager.machineSpecs := by
  rw [List.mem_map]
  constructor
  · rintro ⟨machine, hmachine, rfl⟩
    obtain ⟨hid, hown, hactor, hspec⟩ := (mem_toSpawn score w machineIds machine).mp hmachine
    refine ⟨hid, hown, hactor, ?_⟩
    rw [Std.ExtTreeMap.mem_iff_isSome_getElem?, hspec]
    rfl
  · rintro ⟨hid, hown, hactor, hspec⟩
    obtain ⟨specJson, hget⟩ :=
      Option.isSome_iff_exists.mp (Std.ExtTreeMap.mem_iff_isSome_getElem?.mp hspec)
    exact ⟨(id, specJson), (mem_toSpawn score w machineIds _).mpr ⟨hid, hown, hactor, hget⟩, rfl⟩

/-- What the manager's own fields are after the plan has been carried out. -/
structure CarriedOut {P : Type} [SerdeJson] [DecidableEq P] (score : Score P)
    (looked : List String) (w : World P) (m : Managing P) (es : List Event) : Prop where
  cache : Managing.SameCache w.toManaging m
  stop : ∀ id ∈ toStop score w looked, m.manager.actors[id]? = none ∧
    m.manager.restartTrackers[id]? = none
  spawn : ∀ id ∈ (toSpawn score w looked).map Prod.fst,
    m.manager.actors[id]? = w.born w.now id ∧ m.manager.restartTrackers[id]? =
      ((w.born w.now id).map (fun _ => RestartTracker.new w.manager.restartPolicy)).or
        w.manager.restartTrackers[id]?
  kept : ∀ id, id ∉ toStop score w looked → id ∉ (toSpawn score w looked).map Prod.fst →
    m.manager.actors[id]? = w.manager.actors[id]? ∧
      m.manager.restartTrackers[id]? = w.manager.restartTrackers[id]?
  events : m.events = w.events ++ es
  stopped : es.filterMap Event.stopped = toStop score w looked
  spawned : ∀ id, id ∈ es.filterMap Event.spawned ↔
    id ∈ (toSpawn score w looked).map Prod.fst ∧ (w.born w.now id).isSome = true

/-- No machine is both stopped and spawned, so that the two phases do not meet. -/
theorem toStop_disjoint {P : Type} [DecidableEq P] (score : Score P) (w : World P)
    {looked : List String} {id : String} (hspawn : id ∈ (toSpawn score w looked).map Prod.fst) :
    id ∉ toStop score w looked := by
  intro hstop
  exact ((mem_toStop score w looked id).mp hstop).2.1
    ((mem_keys_toSpawn score w looked id).mp hspawn).2.1

theorem carryOut {P : Type} [SerdeJson] [DecidableEq P] [PeerId P] (score : Score P)
    (looked : List String) (w : World P) (hnodup : looked.Nodup)
    (hlocal : (short (toBase58 w.manager.localPeerId)).isSome = true) :
    ∃ m₁ m₂ es, (toStop score w looked).foldlM
        (fun m id => some (m.stopMachineActor id "topology_rebalance")) w.toManaging = some m₁ ∧
      (toSpawn score w looked).foldlM
        (fun m machine => m.spawnMachineActor w.now machine.1 machine.2) m₁ = some m₂ ∧
      CarriedOut score looked w m₂ es := by
  obtain ⟨m₁, stops, hstops, hsame₁, hgone, hkept₁, hevents₁, hstopped₁, hspawned₁⟩ :=
    Managing.stopActors_spec "topology_rebalance" (toStop score w looked) w.toManaging
      (hnodup.filter _) (fun id hid => ((mem_toStop score w looked id).mp hid).2.2)
  have hfree : ∀ machine ∈ toSpawn score w looked, machine.1 ∉ m₁.manager.actors := by
    intro machine hmachine
    obtain ⟨-, -, hactor, -⟩ := (mem_toSpawn score w looked machine).mp hmachine
    have hnot := toStop_disjoint score w (List.mem_map.mpr ⟨machine, hmachine, rfl⟩)
    rw [Std.ExtTreeMap.mem_iff_isSome_getElem?, (hkept₁ machine.1 hnot).1,
      ← Std.ExtTreeMap.mem_iff_isSome_getElem?]
    exact hactor
  have hspecs : ∀ machine ∈ toSpawn score w looked,
      m₁.manager.machineSpecs[machine.1]? = some machine.2 := by
    intro machine hmachine
    rw [hsame₁.machineSpecs]
    exact ((mem_toSpawn score w looked machine).mp hmachine).2.2.2
  have hlocal₁ : (short (toBase58 m₁.manager.localPeerId)).isSome = true := by
    rw [hsame₁.localPeerId]
    exact hlocal
  obtain ⟨m₂, spawns, hspawns, hsame₂, hnew, hkept₂, hevents₂, hstopped₂, hspawned₂⟩ :=
    Managing.spawnActors_spec w.now (toSpawn score w looked) m₁ hlocal₁
      (toSpawn_nodup score w hnodup) hfree hspecs
  have hborn : ∀ id, m₁.born w.now id = w.born w.now id := by
    intro id
    unfold Managing.born
    rw [hsame₁.machineSpecs, hsame₁.nodeId]
  refine ⟨m₁, m₂, stops ++ spawns, hstops, hspawns, hsame₁.trans hsame₂, ?_, ?_, ?_, ?_, ?_, ?_⟩
  · intro id hid
    obtain ⟨hactors, htrackers⟩ := hkept₂ id (fun hin => toStop_disjoint score w hin hid)
    rw [hactors, htrackers]
    exact hgone id hid
  · intro id hid
    obtain ⟨hactors, htrackers⟩ := hnew id hid
    rw [hactors, htrackers, hborn, hsame₁.restartPolicy,
      (hkept₁ id (toStop_disjoint score w hid)).2]
    exact ⟨rfl, rfl⟩
  · intro id hstop hspawn
    obtain ⟨hactors, htrackers⟩ := hkept₂ id hspawn
    rw [hactors, htrackers]
    exact hkept₁ id hstop
  · rw [hevents₂, hevents₁, List.append_assoc]
  · rw [List.filterMap_append, hstopped₁, hstopped₂, List.append_nil]
  · intro id
    rw [List.filterMap_append, hspawned₁, List.nil_append, hspawned₂, hborn]

/-- Carrying out the plan for the machines that have been looked up. -/
theorem CarriedOut.rebalanced {P : Type} [SerdeJson] [DecidableEq P] {score : Score P}
    {looked : List String} {w : World P} {m : Managing P} {es : List Event}
    (h : CarriedOut score looked w m es)
    (hcached : ∀ id ∈ looked, id ∈ w.manager.machineSpecs) :
    Rebalanced score looked w (w.manage m) := by
  have hstop := mem_toStop score w looked
  have hspawn := mem_keys_toSpawn score w looked
  refine ⟨rfl, rfl, h.cache, ?_, ?_, ?_, es, h.events, ?_, ?_⟩
  · intro id hid
    rw [manage_toManaging]
    by_cases hown : w.coordinator.Owns score id
    · rw [if_pos hown]
      by_cases hactor : id ∈ w.manager.actors
      · obtain ⟨actor, hget⟩ :=
          Option.isSome_iff_exists.mp (Std.ExtTreeMap.mem_iff_isSome_getElem?.mp hactor)
        rw [(h.kept id (fun hin => ((hstop id).mp hin).2.1 hown)
          (fun hin => ((hspawn id).mp hin).2.2.1 hactor)).1, hget, Option.some_or]
      · rw [Std.ExtTreeMap.getElem?_eq_none hactor, Option.none_or]
        exact (h.spawn id ((hspawn id).mpr ⟨hid, hown, hactor, hcached id hid⟩)).1
    · rw [if_neg hown]
      by_cases hactor : id ∈ w.manager.actors
      · exact (h.stop id ((hstop id).mpr ⟨hid, hown, hactor⟩)).1
      · rw [(h.kept id (fun hin => hactor ((hstop id).mp hin).2.2)
          (fun hin => hown ((hspawn id).mp hin).2.1)).1, Std.ExtTreeMap.getElem?_eq_none hactor]
  · intro id hid
    rw [manage_toManaging]
    by_cases hactor : id ∈ w.manager.actors
    · rw [if_pos hactor]
      by_cases hown : w.coordinator.Owns score id
      · rw [if_pos hown]
        exact (h.kept id (fun hin => ((hstop id).mp hin).2.1 hown)
          (fun hin => ((hspawn id).mp hin).2.2.1 hactor)).2
      · rw [if_neg hown]
        exact (h.stop id ((hstop id).mpr ⟨hid, hown, hactor⟩)).2
    · rw [if_neg hactor]
      by_cases hown : w.coordinator.Owns score id
      · rw [if_pos hown]
        exact (h.spawn id ((hspawn id).mpr ⟨hid, hown, hactor, hcached id hid⟩)).2
      · rw [if_neg hown]
        exact (h.kept id (fun hin => hactor ((hstop id).mp hin).2.2)
          (fun hin => hown ((hspawn id).mp hin).2.1)).2
  · intro id hid
    exact h.kept id (fun hin => hid ((hstop id).mp hin).1) (fun hin => hid ((hspawn id).mp hin).1)
  · intro id
    rw [h.stopped, hstop]
    tauto
  · intro id
    rw [h.spawned, hspawn]
    constructor
    · rintro ⟨⟨hid, hown, hfree, -⟩, hsome⟩
      exact ⟨hid, hfree, hown, hsome⟩
    · rintro ⟨hid, hfree, hown, hsome⟩
      exact ⟨⟨hid, hown, hfree, hcached id hid⟩, hsome⟩

/-- A rebalance that runs alone covers the machines up to the first lookup that is
not answered. -/
theorem rebalanceActors_run {P : Type} [SerdeJson] [DecidableEq P] [PeerId P] (score : Score P)
    (machineIds : List String) (w : World P) (halive : w.coordinatorAlive = true)
    (hlocal : (short (toBase58 w.manager.localPeerId)).isSome = true)
    (hkeys : machineIds.Perm w.manager.machineSpecs.keys) :
    ∃ w', (rebalanceActors machineIds).run (exec score) w = some ((), w') ∧
      w'.coordinatorAlive = machineIds.all (w.coordinator.answers score) ∧
      Rebalanced score (machineIds.takeWhile (w.coordinator.answers score)) w w' := by
  have hcached : ∀ id ∈ machineIds.takeWhile (w.coordinator.answers score),
      id ∈ w.manager.machineSpecs := fun id hid =>
    Std.ExtTreeMap.mem_keys.mp (hkeys.mem_iff.mp (List.takeWhile_subset _ hid))
  have hnodup : (machineIds.takeWhile (w.coordinator.answers score)).Nodup :=
    (List.takeWhile_sublist _).nodup (hkeys.nodup_iff.mpr Std.ExtTreeMap.nodup_keys)
  obtain ⟨lines, hlines, hcheck⟩ := checkMachines_run score ([], []) machineIds w halive
  revert hcached hnodup hcheck
  generalize machineIds.takeWhile (w.coordinator.answers score) = looked
  intro hcached hnodup hcheck
  let w₀ : World P := { w with
    events := w.events ++ lines
    coordinatorAlive := machineIds.all (w.coordinator.answers score) }
  obtain ⟨m₁, m₂, es, hstops, hspawns, hcarried⟩ := carryOut score looked w₀ hnodup hlocal
  refine ⟨w₀.manage m₂, ?_, rfl, ?_⟩
  · have hplan : (machineIds.foldlM checkMachine ([], [])).run (exec score) w =
        some ((toStop score w₀ looked, toSpawn score w₀ looked), w₀) := hcheck
    have hstopRun := foldlM_modify_run score (fun _ machineId m =>
      some (m.stopMachineActor machineId "topology_rebalance")) (toStop score w₀ looked) w₀
    have hspawnRun := foldlM_modify_run score (fun now (machine : String × String) m =>
      m.spawnMachineActor now machine.1 machine.2) (toSpawn score w₀ looked) (w₀.manage m₁)
    rw [hstops] at hstopRun
    rw [show List.foldlM (fun m (machine : String × String) =>
      m.spawnMachineActor (w₀.manage m₁).now machine.1 machine.2) (w₀.manage m₁).toManaging
      (toSpawn score w₀ looked) = some m₂ from hspawns] at hspawnRun
    unfold rebalanceActors
    rw [Prog.run_bind, hplan, Option.bind_some, Prog.run_bind, hstopRun]
    exact hspawnRun
  · obtain ⟨hcoordinator, hnow, hsame, hactors, htrackers, hothers, es', hevents, hstop, hspawn⟩ :=
      hcarried.rebalanced hcached
    refine ⟨hcoordinator, hnow, ⟨hsame.1, hsame.2, hsame.3, hsame.4⟩, hactors, htrackers, hothers,
      lines ++ es', ?_, ?_, ?_⟩
    · rw [hevents, ← List.append_assoc]
    · intro id
      have hquiet : lines.filterMap Event.stopped = [] :=
        List.filterMap_eq_nil_iff.mpr (fun e he => (hlines e he).stopped)
      rw [List.filterMap_append, hquiet]
      exact hstop id
    · intro id
      have hquiet : lines.filterMap Event.spawned = [] :=
        List.filterMap_eq_nil_iff.mpr (fun e he => (hlines e he).spawned)
      rw [List.filterMap_append, hquiet]
      exact hspawn id

end Program

namespace World

/-- A rebalance alone, from the manager's mailbox. -/
theorem rebalance_alone {P : Type} [SerdeJson] [DecidableEq P] [PeerId P] (score : Score P)
    (machineIds : List String) (w : World P) (halive : w.coordinatorAlive = true)
    (hlocal : (short (toBase58 w.manager.localPeerId)).isSome = true)
    (hkeys : machineIds.Perm w.manager.machineSpecs.keys) :
    ∃ w', w.handleAlone score .rebalanceActors machineIds = some w' ∧
      w'.coordinatorAlive = machineIds.all (w.coordinator.answers score) ∧
      Rebalanced score (machineIds.takeWhile (w.coordinator.answers score)) w w' := by
  obtain ⟨w', hrun, hrest⟩ := Program.rebalanceActors_run score machineIds w halive hlocal hkeys
  refine ⟨w', ?_, hrest⟩
  unfold handleAlone ManagerMessage.handler
  rw [Prog.run_bind, hrun]
  rfl

end World
end Neolaas
