import Neolaas.NodeSystem
import Neolaas.RebalanceReplay

/-!
# The initial sync and the watch

Both hand the records under the machines prefix to the same handler. The sync decodes
them all before it handles any, while the watch decodes each by itself.
-/
namespace Neolaas
open AtomicProgram PeerId

/-- A text whose bytes start with those of another. -/
theorem eq_append_of_toUTF8 {start key : String} {rest : ByteArray}
    (h : key.toUTF8 = start.toUTF8 ++ rest) : ∃ name, key = start ++ name := by
  have hkey : key.toByteArray = start.toByteArray ++ rest := h
  have hsize : key.utf8ByteSize = start.utf8ByteSize + rest.size := by
    rw [← String.size_toByteArray, hkey, ByteArray.size_append, String.size_toByteArray]
  have hvalid : (⟨start.utf8ByteSize⟩ : String.Pos.Raw).IsValid key := by
    rw [String.Pos.Raw.isValid_iff_isValidUTF8_extract_zero]
    constructor
    · show start.utf8ByteSize ≤ key.utf8ByteSize
      omega
    · rw [hkey, ByteArray.extract_append_eq_left String.size_toByteArray.symm]
      exact start.isValidUTF8
  have hrest : rest.IsValidUTF8 := by
    have hend := hvalid.isValidUTF8_extract_utf8ByteSize
    rwa [hsize, hkey, ByteArray.extract_append_eq_right String.size_toByteArray.symm
      (by rw [String.size_toByteArray])] at hend
  refine ⟨⟨rest, hrest⟩, ?_⟩
  apply String.toByteArray_inj.mp
  rw [String.toByteArray_append, hkey]

/-- What etcd may hold under a start, in bytes: no key twice. -/
structure RangeContent (start : String) where
  kvs : List KeyValue
  distinct : (kvs.map KeyValue.key).Nodup
  within : ∀ kv ∈ kvs, ∃ rest, kv.key = start.toUTF8 ++ rest

namespace Program

/-- The machine that a pair stands for, `none` when its key or value is no UTF-8. -/
def decodeMachine (kv : KeyValue) : Option (String × String) := do
  let key ← kv.keyStr
  let specJson ← kv.valueStr
  pure ((stripPrefix machinesPrefix key).getD key, specJson)

/-- One pair that does not decode fails them all. -/
theorem decodeMachines_eq (kvs : List KeyValue) : decodeMachines kvs =
    if ∀ kv ∈ kvs, (decodeMachine kv).isSome = true then some (kvs.filterMap decodeMachine)
    else none := by
  induction kvs with
  | nil => simp [decodeMachines]
  | cons kv kvs ih =>
    have hcons : decodeMachines (kv :: kvs) = (decodeMachine kv).bind
        (fun machine => (decodeMachines kvs).map (fun machines => machine :: machines)) := by
      unfold decodeMachines
      rw [List.mapM_cons]
      simp only [Option.map_eq_bind]
      rfl
    rw [hcons, ih]
    cases hkv : decodeMachine kv with
    | none => simp [hkv]
    | some machine =>
      by_cases hall : ∀ kv ∈ kvs, (decodeMachine kv).isSome = true
      · have hcons' : ∀ kv' ∈ kv :: kvs, (decodeMachine kv').isSome = true := by
          intro kv' hkv'
          obtain rfl | hin := List.mem_cons.mp hkv'
          · rw [hkv]
            rfl
          · exact hall kv' hin
        rw [if_pos hall, if_pos hcons', List.filterMap_cons_some hkv]
        rfl
      · have hrest : ¬∀ kv' ∈ kv :: kvs, (decodeMachine kv').isSome = true := fun h =>
          hall (fun kv' hkv' => h kv' (List.mem_cons_of_mem _ hkv'))
        rw [if_neg hall, if_neg hrest]
        rfl

/-- The names of the machines in a range are distinct. -/
theorem decodeMachine_nodup (content : RangeContent machinesPrefix) :
    ((content.kvs.filterMap decodeMachine).map Prod.fst).Nodup := by
  have hkey : ∀ kv ∈ content.kvs, ∀ machine, decodeMachine kv = some machine →
      kv.key = (machinesPrefix ++ machine.1).toUTF8 := by
    intro kv hkv machine hmachine
    unfold decodeMachine at hmachine
    obtain ⟨key, hkeyStr, hrest⟩ := Option.bind_eq_some_iff.mp hmachine
    obtain ⟨specJson, -, hpair⟩ := Option.bind_eq_some_iff.mp hrest
    obtain rfl := Option.some.inj hpair
    have hbytes : kv.key = key.toUTF8 := by
      unfold KeyValue.keyStr String.fromUTF8? at hkeyStr
      split_ifs at hkeyStr with hvalid
      rw [← Option.some.inj hkeyStr]
      rfl
    obtain ⟨rest, hwithin⟩ := content.within kv hkv
    obtain ⟨name, rfl⟩ := eq_append_of_toUTF8 (hbytes.symm.trans hwithin)
    rw [hbytes, stripPrefix_append, Option.getD_some]
  have hdistinct := content.distinct
  generalize content.kvs = kvs at hkey hdistinct ⊢
  induction kvs with
  | nil => simp
  | cons kv kvs ih =>
    rw [List.map_cons, List.nodup_cons] at hdistinct
    have hrest := ih (fun kv' hkv' => hkey kv' (List.mem_cons_of_mem kv hkv')) hdistinct.2
    cases hkv : decodeMachine kv with
    | none =>
      rw [List.filterMap_cons_none hkv]
      exact hrest
    | some machine =>
      rw [List.filterMap_cons_some hkv, List.map_cons, List.nodup_cons]
      refine ⟨?_, hrest⟩
      intro hin
      obtain ⟨other, hother, hname⟩ := List.mem_map.mp hin
      obtain ⟨kv', hkv', hdecoded⟩ := List.mem_filterMap.mp hother
      apply hdistinct.1
      rw [hkey kv List.mem_cons_self machine hkv, ← hname,
        ← hkey kv' (List.mem_cons_of_mem kv hkv') other hdecoded]
      exact List.mem_map.mpr ⟨kv', hkv', rfl⟩

end Program

namespace Managing

theorem spawnMachineActor_of_none {P : Type} [SerdeJson] [PeerId P] {now : ℤ}
    {machineId specJson : String} {self : Managing P}
    (h : MachineActor.withNodeId now machineId specJson self.manager.nodeId = none) :
    self.spawnMachineActor now machineId specJson = some self := by
  unfold spawnMachineActor
  rw [h]

theorem spawnMachineActor_of_some {P : Type} [SerdeJson] [PeerId P] {now : ℤ}
    {machineId specJson text : String} {actor : MachineActor} {self : Managing P}
    (h : MachineActor.withNodeId now machineId specJson self.manager.nodeId = some actor)
    (htext : short (toBase58 self.manager.localPeerId) = some text) :
    self.spawnMachineActor now machineId specJson = some (self.addActor machineId actor) := by
  unfold spawnMachineActor
  rw [h, htext]
  rfl

end Managing

namespace World

/-- A node whose manager has handled no message yet. -/
def fresh {P : Type} (localPeerId : P) (nodeId : String) (hasher : RendezvousHasher P) (now : ℤ) :
    World P where
  manager := MachineActorManagerActor.new localPeerId nodeId
  events := []
  coordinator := ⟨localPeerId, hasher⟩
  coordinatorAlive := true
  etcd := ∅
  now := now

/-- The sync of the given pairs while the rest of the node stands still. -/
def syncAlone {P : Type} [SerdeJson] [DecidableEq P] [PeerId P] (score : Score P)
    (kvs : List KeyValue) (w : World P) : Option (World P) :=
  ((Program.syncRead kvs).run (exec score) w).map Prod.snd

/-- The manager receives a put event for each of the given pairs. -/
def watchAlone {P : Type} [SerdeJson] [DecidableEq P] [PeerId P] (score : Score P)
    (kvs : List KeyValue) (w : World P) : Option (World P) :=
  kvs.foldlM (fun w kv =>
    match machineEvent ⟨.put, some kv⟩ with
    | some message => w.handleAlone score message []
    | none => some w) w

/-- A put of each of the given machines. -/
def putsAlone {P : Type} [SerdeJson] [DecidableEq P] [PeerId P] (score : Score P)
    (machines : List (String × String)) (w : World P) : Option (World P) :=
  machines.foldlM (fun w machine =>
    w.handleAlone score (.etcdMachineEvent machine.1 .put (some machine.2)) []) w

/-- The sync of what the store holds is the handler's. -/
theorem handleAlone_syncAllMachines {P : Type} [SerdeJson] [DecidableEq P] [PeerId P]
    (score : Score P) (machineIds : List String) (w : World P) :
    w.handleAlone score .syncAllMachines machineIds =
      w.syncAlone score (w.etcd.getPrefix machinesPrefix) := by
  have hread : ∀ (fetched : Bool) (v : World P),
      ((if fetched then do
          let manager ← Program.read
          pure (.sync ⟨manager.machineSpecs.size, manager.actors.size⟩)
        else pure (.sync ⟨0, 0⟩) : Program P ManagerReply).run (exec score) v).map Prod.snd =
      some v := by
    intro fetched v
    cases fetched <;> rfl
  unfold handleAlone ManagerMessage.handler syncAlone
  rw [Program.syncAllMachines_eq, Prog.run_bind, Prog.run_bind]
  show (((Program.syncRead (w.etcd.getPrefix machinesPrefix)).run (exec score) w).bind _).map
    Prod.snd = _
  cases (Program.syncRead (w.etcd.getPrefix machinesPrefix)).run (exec score) w with
  | none => rfl
  | some result => exact hread result.1 result.2

theorem handleAlone_put {P : Type} [SerdeJson] [DecidableEq P] [PeerId P] (score : Score P)
    (machineId specJson : String) (w : World P) :
    w.handleAlone score (.etcdMachineEvent machineId .put (some specJson)) [] =
      ((Program.handleMachinePut machineId specJson).run (exec score) w).map Prod.snd := by
  unfold handleAlone ManagerMessage.handler
  rw [Prog.run_bind]
  cases (Program.handleMachinePut machineId specJson : Program P Unit).run (exec score) w <;> rfl

/-- The sync handles all of the pairs or none. -/
theorem syncAlone_eq {P : Type} [SerdeJson] [DecidableEq P] [PeerId P] (score : Score P)
    (kvs : List KeyValue) (w : World P) : w.syncAlone score kvs =
      if ∀ kv ∈ kvs, (Program.decodeMachine kv).isSome = true then
        w.putsAlone score (kvs.filterMap Program.decodeMachine)
      else some w := by
  have hputs : ∀ (machines : List (String × String)) (w : World P),
      (((machines.foldlM (fun _ machine => Program.handleMachinePut machine.1 machine.2) ()) >>=
        fun _ => pure true : Program P Bool).run (exec score) w).map Prod.snd =
      w.putsAlone score machines := by
    intro machines
    induction machines with
    | nil => exact fun w => rfl
    | cons machine machines ih =>
      intro w
      unfold putsAlone
      rw [List.foldlM_cons, List.foldlM_cons, handleAlone_put, Prog.run_bind, Prog.run_bind]
      cases hput : (Program.handleMachinePut machine.1 machine.2 : Program P Unit).run
          (exec score) w with
      | none => rfl
      | some result =>
        have hrest := ih result.2
        rw [Prog.run_bind] at hrest
        exact hrest
  unfold syncAlone Program.syncRead
  rw [Program.decodeMachines_eq]
  by_cases hall : ∀ kv ∈ kvs, (Program.decodeMachine kv).isSome = true
  · rw [if_pos hall, if_pos hall]
    exact hputs _ w
  · rw [if_neg hall, if_neg hall]
    rfl

theorem machineEvent_put (kv : KeyValue) : machineEvent ⟨.put, some kv⟩ =
    kv.keyStr.map (fun key =>
      .etcdMachineEvent ((stripPrefix machinesPrefix key).getD key) .put kv.valueStr) := by
  unfold machineEvent
  cases hkey : kv.keyStr with
  | none => simp [hkey]
  | some key => simp [hkey]

/-- The watch skips the pairs that do not decode. -/
theorem watchAlone_eq {P : Type} [SerdeJson] [DecidableEq P] [PeerId P] (score : Score P)
    (kvs : List KeyValue) (w : World P) :
    w.watchAlone score kvs = w.putsAlone score (kvs.filterMap Program.decodeMachine) := by
  unfold watchAlone putsAlone
  induction kvs generalizing w with
  | nil => rfl
  | cons kv kvs ih =>
    have hevent := machineEvent_put kv
    rw [List.foldlM_cons, hevent]
    cases hkey : kv.keyStr with
    | none =>
      have hdecode : Program.decodeMachine kv = none := by simp [Program.decodeMachine, hkey]
      rw [List.filterMap_cons_none hdecode]
      exact ih w
    | some key =>
      cases hvalue : kv.valueStr with
      | none =>
        have hdecode : Program.decodeMachine kv = none := by
          simp [Program.decodeMachine, hkey, hvalue]
        rw [List.filterMap_cons_none hdecode]
        exact ih w
      | some specJson =>
        have hdecode : Program.decodeMachine kv =
            some ((stripPrefix machinesPrefix key).getD key, specJson) := by
          simp [Program.decodeMachine, hkey, hvalue]
        rw [List.filterMap_cons_some hdecode, List.foldlM_cons]
        congr 1
        funext v
        exact ih v

/-- The machines among those put one after the other whose lookups are answered. -/
def reached {P : Type} [DecidableEq P] [PeerId P] (score : Score P)
    (machines : List (String × String)) (w : World P) : List (String × String) :=
  if w.coordinatorAlive then
    machines.takeWhile (fun machine => w.coordinator.answers score machine.1)
  else []

/-- Machines without actors have been put: their specs are cached, and those among
them that have been found local have the actors that their specs give. -/
structure PutInto {P : Type} [SerdeJson] [DecidableEq P] [PeerId P] (score : Score P)
    (machines : List (String × String)) (w w' : World P) : Prop where
  coordinator : w'.coordinator = w.coordinator
  now : w'.now = w.now
  localPeerId : w'.manager.localPeerId = w.manager.localPeerId
  nodeId : w'.manager.nodeId = w.manager.nodeId
  alive : w'.coordinatorAlive =
    (w.coordinatorAlive && machines.all (fun machine => w.coordinator.answers score machine.1))
  spec : ∀ machine ∈ machines, w'.manager.machineSpecs[machine.1]? = some machine.2
  actor : ∀ machine ∈ machines, w'.manager.actors[machine.1]? =
    if machine ∈ w.reached score machines ∧ w.coordinator.Owns score machine.1 then
      MachineActor.withNodeId w.now machine.1 machine.2 w.manager.nodeId
    else none
  others : ∀ id ∉ machines.map Prod.fst,
    w'.manager.machineSpecs[id]? = w.manager.machineSpecs[id]? ∧
      w'.manager.actors[id]? = w.manager.actors[id]?

/-- A put of one machine without actor. -/
theorem put_into {P : Type} [SerdeJson] [DecidableEq P] [PeerId P] (score : Score P)
    (machine : String × String) (w : World P)
    (hpeer : w.coordinator.localPeerId = w.manager.localPeerId)
    (hactor : machine.1 ∉ w.manager.actors) :
    ∃ w', w.handleAlone score (.etcdMachineEvent machine.1 .put (some machine.2)) [] = some w' ∧
      PutInto score [machine] w w' := by
  obtain ⟨machineId, specJson⟩ := machine
  let v : World P := w.manage (w.cacheSpec machineId specJson)
  have hnone : w.manager.actors[machineId]? = none := Std.ExtTreeMap.getElem?_eq_none hactor
  have hcontains : v.manager.actors.contains machineId = false :=
    Bool.eq_false_iff.mpr (fun h => hactor (Std.ExtTreeMap.contains_iff_mem.mp h))
  -- What holds however the lookup ends.
  have hput : ∀ w' : World P, w'.coordinator = w.coordinator → w'.now = w.now →
      w'.manager.localPeerId = w.manager.localPeerId → w'.manager.nodeId = w.manager.nodeId →
      w'.coordinatorAlive = (w.coordinatorAlive && w.coordinator.answers score machineId) →
      w'.manager.machineSpecs = w.manager.machineSpecs.insert machineId specJson →
      (w'.manager.actors[machineId]? =
        if (w.coordinatorAlive = true ∧ w.coordinator.answers score machineId = true) ∧
            w.coordinator.Owns score machineId then
          MachineActor.withNodeId w.now machineId specJson w.manager.nodeId
        else none) →
      (∀ id, id ≠ machineId → w'.manager.actors[id]? = w.manager.actors[id]?) →
      PutInto score [(machineId, specJson)] w w' := by
    intro w' hcoordinator hnow hlocal hnode halive hspecs hown hothers
    refine ⟨hcoordinator, hnow, hlocal, hnode, by simpa using halive, ?_, ?_, ?_⟩
    · intro machine hmachine
      obtain rfl := List.mem_singleton.mp hmachine
      rw [hspecs]
      exact Std.ExtTreeMap.getElem?_insert_self
    · intro machine hmachine
      obtain rfl := List.mem_singleton.mp hmachine
      have hreached : (machineId, specJson) ∈ w.reached score [(machineId, specJson)] ↔
          w.coordinatorAlive = true ∧ w.coordinator.answers score machineId = true := by
        unfold reached
        cases w.coordinatorAlive <;> cases h : w.coordinator.answers score machineId <;> simp [h]
      simp only [hreached]
      exact hown
    · intro id hid
      have hne : id ≠ machineId := by simpa using hid
      refine ⟨?_, hothers id hne⟩
      rw [hspecs, Std.ExtTreeMap.getElem?_insert]
      simp [hne.symm]
  have hrun : w.handleAlone score (.etcdMachineEvent machineId .put (some specJson)) [] =
      ((Program.putAnswered machineId specJson (v.askLookup score machineId).1).run (exec score)
        (v.askLookup score machineId).2).map Prod.snd := by
    rw [handleAlone_put]
    rfl
  rw [hrun]
  by_cases hanswered : w.coordinatorAlive = true ∧ w.coordinator.answers score machineId = true
  · obtain ⟨halive, hanswers⟩ := hanswered
    obtain ⟨result, owner, hask, -, hisLocal⟩ := askLookup_of_answers (w := v) halive hanswers
    let u : World P :=
      { v with events := v.events ++ [.machineLookup machineId owner result.isLocal] }
    have hcontains' : u.manager.actors.contains machineId = false := hcontains
    rw [show v.askLookup score machineId = (some result, u) from hask]
    simp only [Program.putAnswered, Program.run_read]
    by_cases hown : w.coordinator.Owns score machineId
    · rw [if_pos (hisLocal.trans (decide_eq_true hown)), hcontains',
        if_neg Bool.false_ne_true, Program.run_modify]
      cases hparses : MachineActor.withNodeId w.now machineId specJson w.manager.nodeId with
      | none =>
        have hspawn : u.spawnMachineActor u.now machineId specJson = some u.toManaging :=
          Managing.spawnMachineActor_of_none hparses
        rw [hspawn]
        refine ⟨_, rfl, hput _ rfl rfl rfl rfl ?_ rfl ?_ (fun id _ => rfl)⟩
        · rw [halive, hanswers]
          exact halive
        · rw [if_pos ⟨⟨halive, hanswers⟩, hown⟩, hparses]
          exact hnone
      | some actor =>
        have hlocal := (w.coordinator.answers_iff score machineId).mp hanswers _ hown
        rw [hpeer] at hlocal
        obtain ⟨text, htext⟩ := Option.isSome_iff_exists.mp hlocal
        have hspawn : u.spawnMachineActor u.now machineId specJson =
            some (u.addActor machineId actor) :=
          Managing.spawnMachineActor_of_some hparses htext
        rw [hspawn]
        refine ⟨_, rfl, hput _ rfl rfl rfl rfl ?_ rfl ?_ ?_⟩
        · rw [halive, hanswers]
          exact halive
        · rw [if_pos ⟨⟨halive, hanswers⟩, hown⟩, hparses]
          exact Std.ExtTreeMap.getElem?_insert_self
        · intro id hid
          show (w.manager.actors.insert machineId actor)[id]? = _
          rw [Std.ExtTreeMap.getElem?_insert]
          simp [hid.symm]
    · rw [if_neg (fun h => hown (of_decide_eq_true (hisLocal.symm.trans h))), hcontains',
        if_neg Bool.false_ne_true]
      refine ⟨_, rfl, hput _ rfl rfl rfl rfl ?_ rfl ?_ (fun id _ => rfl)⟩
      · rw [halive, hanswers]
        exact halive
      · rw [if_neg (fun h => hown h.2)]
        exact hnone
  · have hnot : v.coordinatorAlive = false ∨ v.coordinator.answers score machineId = false := by
      have hw : w.coordinatorAlive = false ∨ w.coordinator.answers score machineId = false := by
        rw [not_and_or] at hanswered
        simpa using hanswered
      exact hw
    rw [askLookup_of_not_answers hnot]
    refine ⟨_, rfl, hput _ rfl rfl rfl rfl ?_ rfl ?_ (fun id _ => rfl)⟩
    · symm
      rw [Bool.and_eq_false_iff]
      exact hnot
    · rw [if_neg (fun h => hanswered h.1)]
      exact hnone

/-- Puts of machines without actors, one after the other. -/
theorem puts_into {P : Type} [SerdeJson] [DecidableEq P] [PeerId P] (score : Score P)
    (machines : List (String × String)) (w : World P)
    (hpeer : w.coordinator.localPeerId = w.manager.localPeerId)
    (hnodup : (machines.map Prod.fst).Nodup)
    (hactors : ∀ machine ∈ machines, machine.1 ∉ w.manager.actors) :
    ∃ w', w.putsAlone score machines = some w' ∧ PutInto score machines w w' := by
  induction machines generalizing w with
  | nil =>
    refine ⟨w, rfl, rfl, rfl, rfl, rfl, by simp, by simp, by simp, fun id _ => ⟨rfl, rfl⟩⟩
  | cons machine rest ih =>
    rw [List.map_cons, List.nodup_cons] at hnodup
    obtain ⟨hfresh, hrest⟩ := hnodup
    obtain ⟨w₁, hrun₁, hput₁⟩ := put_into score machine w hpeer
      (hactors machine List.mem_cons_self)
    have hother : ∀ other ∈ rest, other.1 ∉ [machine].map Prod.fst := by
      intro other hin he
      have heq : other.1 = machine.1 := by simpa using he
      exact hfresh (heq ▸ List.mem_map.mpr ⟨other, hin, rfl⟩)
    have hpeer₁ : w₁.coordinator.localPeerId = w₁.manager.localPeerId := by
      rw [hput₁.coordinator, hput₁.localPeerId, hpeer]
    have hactors₁ : ∀ other ∈ rest, other.1 ∉ w₁.manager.actors := by
      intro other hin hactor
      apply hactors other (List.mem_cons_of_mem machine hin)
      rw [Std.ExtTreeMap.mem_iff_isSome_getElem?, (hput₁.others other.1 (hother other hin)).2]
        at hactor
      exact Std.ExtTreeMap.mem_iff_isSome_getElem?.mpr hactor
    obtain ⟨w', hrun, hput⟩ := ih w₁ hpeer₁ hrest hactors₁
    have halive₁ : w₁.coordinatorAlive =
        (w.coordinatorAlive && w.coordinator.answers score machine.1) := by
      simpa using hput₁.alive
    -- The first lookup that is not answered ends the machines that are reached.
    have hreached : ∀ other, other ∈ w.reached score (machine :: rest) ↔
        (other = machine ∧ machine ∈ w.reached score [machine]) ∨
          other ∈ w₁.reached score rest := by
      intro other
      unfold reached
      rw [halive₁, hput₁.coordinator]
      cases w.coordinatorAlive with
      | false => simp
      | true =>
        cases hanswers : w.coordinator.answers score machine.1 <;> simp [hanswers]
    refine ⟨w', ?_, hput.coordinator.trans hput₁.coordinator, hput.now.trans hput₁.now,
      hput.localPeerId.trans hput₁.localPeerId, hput.nodeId.trans hput₁.nodeId, ?_, ?_, ?_, ?_⟩
    · unfold putsAlone
      rw [List.foldlM_cons, hrun₁]
      exact hrun
    · rw [hput.alive, halive₁, hput₁.coordinator, List.all_cons, Bool.and_assoc]
    · intro other hmem
      obtain rfl | hin := List.mem_cons.mp hmem
      · rw [(hput.others other.1 hfresh).1]
        exact hput₁.spec other List.mem_cons_self
      · exact hput.spec other hin
    · intro other hmem
      obtain rfl | hin := List.mem_cons.mp hmem
      · have hout : other ∉ w₁.reached score rest := by
          intro hout
          apply hfresh
          unfold reached at hout
          split_ifs at hout
          · exact List.mem_map.mpr ⟨other, List.takeWhile_subset _ hout, rfl⟩
          · cases hout
        rw [(hput.others other.1 hfresh).2, hput₁.actor other List.mem_cons_self]
        simp only [hreached, hout, or_false, true_and]
      · have hne : other ≠ machine := by
          rintro rfl
          exact hfresh (List.mem_map.mpr ⟨other, hin, rfl⟩)
        rw [hput.actor other hin, hput₁.coordinator, hput₁.now, hput₁.nodeId]
        simp only [hreached, hne, false_and, false_or]
    · intro id hid
      rw [List.map_cons, List.mem_cons, not_or] at hid
      obtain ⟨hspec, hactor⟩ := hput.others id hid.2
      obtain ⟨hspec₁, hactor₁⟩ := hput₁.others id (by simpa using hid.1)
      exact ⟨hspec.trans hspec₁, hactor.trans hactor₁⟩

/-- The same cached specs, and the same actors with the same specs. -/
structure SameMachines {P : Type} (w w' : World P) : Prop where
  specs : w'.manager.machineSpecs = w.manager.machineSpecs
  actors : ∀ id : String, w'.manager.actors[id]?.map MachineActor.spec =
    w.manager.actors[id]?.map MachineActor.spec

/-- The sync of the content and the watch of its pairs in any order come to the same. -/
def SyncAgrees {P : Type} [SerdeJson] [DecidableEq P] [PeerId P] (score : Score P)
    (content : RangeContent machinesPrefix) (w : World P) : Prop :=
  ∀ kvs : List KeyValue, kvs.Perm content.kvs → ∃ synced watched,
    w.syncAlone score content.kvs = some synced ∧ w.watchAlone score kvs = some watched ∧
      SameMachines synced watched

/-- A local machine whose lookup is answered and whose spec parses. -/
def Startable {P : Type} [SerdeJson] [DecidableEq P] [PeerId P] (score : Score P)
    (coordinator : ShardingCoordinator P) (machine : String × String) : Prop :=
  coordinator.Owns score machine.1 ∧ coordinator.answers score machine.1 = true ∧
    Parses machine.1 machine.2

theorem isSome_withNodeId_iff [SerdeJson] (now : ℤ) (machineId specJson nodeId : String) :
    (MachineActor.withNodeId now machineId specJson nodeId).isSome = true ↔
      Parses machineId specJson := by
  unfold MachineActor.withNodeId Parses
  rw [Option.isSome_map]

theorem mem_reached {P : Type} [DecidableEq P] [PeerId P] {score : Score P}
    {machines : List (String × String)} {w : World P} {machine : String × String}
    (h : machine ∈ w.reached score machines) : w.coordinator.answers score machine.1 = true := by
  unfold reached at h
  split_ifs at h
  · have hall := List.all_takeWhile
      (p := fun machine : String × String => w.coordinator.answers score machine.1) (l := machines)
    exact List.all_eq_true.mp hall machine h
  · cases h

theorem reached_of_answered {P : Type} [DecidableEq P] [PeerId P] {score : Score P}
    {machines : List (String × String)} {w : World P} (halive : w.coordinatorAlive = true)
    (hall : ∀ machine ∈ machines, w.coordinator.answers score machine.1 = true) :
    w.reached score machines = machines := by
  unfold reached
  rw [if_pos halive, List.takeWhile_eq_self_iff]
  exact hall

/-- Puts in two orders, if every lookup is answered or no actor comes of any. -/
theorem PutInto.sameMachines {P : Type} [SerdeJson] [DecidableEq P] [PeerId P] {score : Score P}
    {machines machines' : List (String × String)} {w w₁ w₂ : World P}
    (hperm : machines'.Perm machines) (halive : w.coordinatorAlive = true)
    (h₁ : PutInto score machines w w₁) (h₂ : PutInto score machines' w w₂)
    (hsafe : (∀ machine ∈ machines, w.coordinator.answers score machine.1 = true) ∨
      ∀ machine ∈ machines, ¬Startable score w.coordinator machine) :
    SameMachines w₁ w₂ := by
  have hnames : ∀ id, id ∈ machines'.map Prod.fst ↔ id ∈ machines.map Prod.fst :=
    fun id => (hperm.map Prod.fst).mem_iff
  constructor
  · apply Std.ExtTreeMap.ext_getElem?
    intro id
    by_cases hid : id ∈ machines.map Prod.fst
    · obtain ⟨machine, hmachine, rfl⟩ := List.mem_map.mp hid
      rw [h₁.spec machine hmachine, h₂.spec machine (hperm.mem_iff.mpr hmachine)]
    · rw [(h₁.others id hid).1, (h₂.others id (fun h => hid ((hnames id).mp h))).1]
  · intro id
    by_cases hid : id ∈ machines.map Prod.fst
    · obtain ⟨machine, hmachine, rfl⟩ := List.mem_map.mp hid
      have hmachine' := hperm.mem_iff.mpr hmachine
      rw [h₁.actor machine hmachine, h₂.actor machine hmachine']
      obtain hall | hnone := hsafe
      · have hall' : ∀ machine ∈ machines', w.coordinator.answers score machine.1 = true :=
          fun machine h => hall machine (hperm.mem_iff.mp h)
        rw [reached_of_answered halive hall, reached_of_answered halive hall']
        simp only [hmachine, hmachine', true_and]
      · -- Neither order has an actor for the machine.
        have hno : ∀ l, (if machine ∈ w.reached score l ∧ w.coordinator.Owns score machine.1 then
            MachineActor.withNodeId w.now machine.1 machine.2 w.manager.nodeId else none) =
            none := by
          intro l
          split_ifs with h
          · have hparses : ¬Parses machine.1 machine.2 :=
              fun hp => hnone machine hmachine ⟨h.2, mem_reached h.1, hp⟩
            rw [← isSome_withNodeId_iff w.now machine.1 machine.2 w.manager.nodeId] at hparses
            simpa using hparses
          · rfl
        rw [hno, hno]
    · rw [(h₁.others id hid).2, (h₂.others id (fun h => hid ((hnames id).mp h))).2]

section
variable {P : Type} [SerdeJson] [DecidableEq P] [PeerId P] (score : Score P) {localPeerId : P}
  {nodeId : String} {hasher : RendezvousHasher P} {now : ℤ} {content : RangeContent machinesPrefix}

variable (localPeerId nodeId hasher now) in
/-- The values that decode are put into a fresh world in whatever order they come. -/
theorem fresh_putsAlone {kvs : List KeyValue} (hperm : kvs.Perm content.kvs) :
    ∃ w', (fresh localPeerId nodeId hasher now).putsAlone score
        (kvs.filterMap Program.decodeMachine) = some w' ∧
      PutInto score (kvs.filterMap Program.decodeMachine)
        (fresh localPeerId nodeId hasher now) w' := by
  have hnodup := Program.decodeMachine_nodup content
  refine puts_into score _ _ rfl ?_ (fun machine _ h => absurd h Std.ExtTreeMap.not_mem_empty)
  exact ((hperm.filterMap Program.decodeMachine).map Prod.fst).nodup_iff.mpr hnodup

/-- A machine that can be started and one whose lookup ends the coordinator: it starts
if it comes first, and not if the other does. -/
theorem SyncAgrees.not_startable
    (hagrees : SyncAgrees score content (fresh localPeerId nodeId hasher now))
    {machine killer : String × String}
    (hmachine : machine ∈ content.kvs.filterMap Program.decodeMachine)
    (hkiller : killer ∈ content.kvs.filterMap Program.decodeMachine)
    (hanswers : ¬ShardingCoordinator.answers score ⟨localPeerId, hasher⟩ killer.1 = true) :
    ¬Startable score ⟨localPeerId, hasher⟩ machine := by
  intro hstart
  let w := fresh localPeerId nodeId hasher now
  have halive : w.coordinatorAlive = true := rfl
  obtain ⟨kv, hkv, hdecoded⟩ := List.mem_filterMap.mp hmachine
  obtain ⟨kv', hkv', hdecoded'⟩ := List.mem_filterMap.mp hkiller
  have hfirst : (kv :: content.kvs.erase kv).Perm content.kvs := (List.perm_cons_erase hkv).symm
  have hsecond : (kv' :: content.kvs.erase kv').Perm content.kvs :=
    (List.perm_cons_erase hkv').symm
  obtain ⟨synced, watched, hsync, hwatch, hsame⟩ := hagrees _ hfirst
  obtain ⟨synced', watched', hsync', hwatch', hsame'⟩ := hagrees _ hsecond
  obtain rfl := Option.some.inj (hsync.symm.trans hsync')
  obtain ⟨w₁, hrun₁, hput₁⟩ := fresh_putsAlone score localPeerId nodeId hasher now hfirst
  obtain ⟨w₂, hrun₂, hput₂⟩ := fresh_putsAlone score localPeerId nodeId hasher now hsecond
  rw [watchAlone_eq] at hwatch hwatch'
  obtain rfl := Option.some.inj (hwatch.symm.trans hrun₁)
  obtain rfl := Option.some.inj (hwatch'.symm.trans hrun₂)
  have hactor := hput₁.actor machine
    (((hfirst.filterMap Program.decodeMachine).mem_iff).mpr hmachine)
  have hactor' := hput₂.actor machine
    (((hsecond.filterMap Program.decodeMachine).mem_iff).mpr hmachine)
  have hreached : machine ∈ w.reached score
      ((kv :: content.kvs.erase kv).filterMap Program.decodeMachine) := by
    have hmem : w.coordinator.answers score machine.1 = true := hstart.2.1
    rw [List.filterMap_cons_some hdecoded]
    unfold reached
    rw [if_pos halive, List.takeWhile_cons, if_pos hmem]
    exact List.mem_cons_self
  have hnot : w.reached score
      ((kv' :: content.kvs.erase kv').filterMap Program.decodeMachine) = [] := by
    have hno : ¬w.coordinator.answers score killer.1 = true := hanswers
    rw [List.filterMap_cons_some hdecoded']
    unfold reached
    rw [if_pos halive, List.takeWhile_cons, if_neg hno]
  rw [if_pos ⟨hreached, hstart.1⟩] at hactor
  rw [hnot, if_neg (fun h => List.not_mem_nil h.1)] at hactor'
  have hspecs := (hsame.actors machine.1).trans (hsame'.actors machine.1).symm
  rw [hactor, hactor'] at hspecs
  have hsome := (isSome_withNodeId_iff w.now machine.1 machine.2 w.manager.nodeId).mpr
    hstart.2.2
  obtain ⟨actor, heq⟩ := Option.isSome_iff_exists.mp hsome
  rw [heq] at hspecs
  cases hspecs

/-- A sync that fails caches nothing, so no value may decode. -/
theorem SyncAgrees.decodes_none
    (hagrees : SyncAgrees score content (fresh localPeerId nodeId hasher now))
    (hall : ¬∀ kv ∈ content.kvs, (Program.decodeMachine kv).isSome = true) {kv : KeyValue}
    (hkv : kv ∈ content.kvs) : Program.decodeMachine kv = none := by
  by_contra hdecoded
  obtain ⟨machine, hmachine⟩ := Option.ne_none_iff_exists'.mp hdecoded
  obtain ⟨synced, watched, hsync, hwatch, hsame⟩ := hagrees _ (List.Perm.refl _)
  obtain ⟨w₁, hrun₁, hput₁⟩ :=
    fresh_putsAlone score localPeerId nodeId hasher now (List.Perm.refl _)
  rw [syncAlone_eq, if_neg hall] at hsync
  obtain rfl := Option.some.inj hsync
  rw [watchAlone_eq] at hwatch
  obtain rfl := Option.some.inj (hwatch.symm.trans hrun₁)
  have hspec := hput₁.spec machine (List.mem_filterMap.mpr ⟨kv, hkv, hmachine⟩)
  rw [hsame.specs] at hspec
  have hnone : (fresh localPeerId nodeId hasher now).manager.machineSpecs[machine.1]? = none :=
    Std.ExtTreeMap.getElem?_empty
  rw [hnone] at hspec
  cases hspec

end

/-- The sync agrees with the watch exactly when all records decode and every lookup is
answered, or nothing comes of the records anyway. -/
theorem sync_agrees_iff {P : Type} [SerdeJson] [DecidableEq P] [PeerId P] (score : Score P)
    (localPeerId : P) (nodeId : String) (hasher : RendezvousHasher P) (now : ℤ)
    (content : RangeContent machinesPrefix) :
    SyncAgrees score content (fresh localPeerId nodeId hasher now) ↔
      (∀ kv ∈ content.kvs, Program.decodeMachine kv = none) ∨
      ((∀ kv ∈ content.kvs, (Program.decodeMachine kv).isSome = true) ∧
        ((∀ machine ∈ content.kvs.filterMap Program.decodeMachine,
          ShardingCoordinator.answers score ⟨localPeerId, hasher⟩ machine.1 = true) ∨
        ∀ machine ∈ content.kvs.filterMap Program.decodeMachine,
          ¬Startable score ⟨localPeerId, hasher⟩ machine)) := by
  constructor
  · intro hagrees
    by_cases hall : ∀ kv ∈ content.kvs, (Program.decodeMachine kv).isSome = true
    · refine Or.inr ⟨hall, ?_⟩
      by_contra hunsafe
      rw [not_or] at hunsafe
      obtain ⟨hdies, hstarts⟩ := hunsafe
      push Not at hdies hstarts
      obtain ⟨killer, hkiller, hanswers⟩ := hdies
      obtain ⟨machine, hmachine, hstart⟩ := hstarts
      exact hagrees.not_startable score hmachine hkiller hanswers hstart
    · exact Or.inl (fun kv hkv => hagrees.decodes_none score hall hkv)
  · intro hcondition kvs hperm
    obtain ⟨watched, hrun, hput⟩ := fresh_putsAlone score localPeerId nodeId hasher now hperm
    obtain ⟨synced, hrun', hput'⟩ :=
      fresh_putsAlone score localPeerId nodeId hasher now (List.Perm.refl _)
    have hperm' := hperm.filterMap Program.decodeMachine
    obtain hnone | ⟨hall, hsafe⟩ := hcondition
    · have hempty : content.kvs.filterMap Program.decodeMachine = [] :=
        List.filterMap_eq_nil_iff.mpr hnone
      have hempty' : kvs.filterMap Program.decodeMachine = [] := by
        rw [hempty] at hperm'
        exact hperm'.eq_nil
      let w := fresh localPeerId nodeId hasher now
      refine ⟨w, w, ?_, ?_, rfl, fun id => rfl⟩
      · rw [syncAlone_eq, hempty]
        exact ite_self _
      · rw [watchAlone_eq, hempty']
        rfl
    · refine ⟨synced, watched, ?_, ?_, PutInto.sameMachines hperm' rfl hput' hput hsafe⟩
      · rw [syncAlone_eq, if_pos hall]
        exact hrun'
      · rw [watchAlone_eq]
        exact hrun

/-- One value that is no UTF-8, and the sync starts no actor of the other machine. -/
theorem not_sync_agrees : ¬∀ [SerdeJson] (score : Score Base58Text) (localPeerId : Base58Text)
    (nodeId : String) (hasher : RendezvousHasher Base58Text) (now : ℤ)
    (content : RangeContent machinesPrefix),
    SyncAgrees score content (fresh localPeerId nodeId hasher now) := by
  intro hclaim
  let spec : Json := .object [("adminState", .string "available"), ("cluster", .string "lab")]
  let _ : SerdeJson := SerdeJson.knowing [spec]
  let a := peerOf "12D3KooWAAAAAAAAAAAAAAAAAAAAAAAAAAAAAAAAAAAAAAAAAAAA"
  let content : RangeContent machinesPrefix := {
    kvs := [⟨(machinesPrefix ++ "m1").toUTF8, ByteArray.empty.push 255⟩,
      KeyValue.ofText (machinesPrefix ++ "m2") spec.text]
    distinct := by decide +kernel
    within := by
      intro kv hkv
      obtain rfl | hkv := List.mem_cons.mp hkv
      · exact ⟨"m1".toUTF8, by decide +kernel⟩
      · obtain rfl := List.mem_singleton.mp hkv
        exact ⟨"m2".toUTF8, by decide +kernel⟩ }
  obtain ⟨synced, watched, hsync, hwatch, hspecs, -⟩ := hclaim (fun _ _ => 0) a "node"
    (RendezvousHasher.new [a]) 0 content content.kvs (List.Perm.refl _)
  have hdiffer : ((fresh a "node" (RendezvousHasher.new [a]) 0).syncAlone (fun _ _ => 0)
        content.kvs).map (fun w => w.manager.machineSpecs.size) = some 0 ∧
      ((fresh a "node" (RendezvousHasher.new [a]) 0).watchAlone (fun _ _ => 0)
        content.kvs).map (fun w => w.manager.machineSpecs.size) = some 1 := by
    decide +kernel
  rw [hsync, hwatch] at hdiffer
  obtain ⟨hzero, hone⟩ := hdiffer
  have hsize := congrArg Std.ExtTreeMap.size hspecs
  have h₀ : synced.manager.machineSpecs.size = 0 := Option.some.inj hzero
  have h₁ : watched.manager.machineSpecs.size = 1 := Option.some.inj hone
  omega

end World
end Neolaas
