import Neolaas.ManagerSteps

/-!
# Handlers under a fixed topology

While the coordinator's hasher stays the same, a put, a delete and a sync keep
the actors of a node those of its own cached machines, and a rebalance makes
them so from any cache. If the coordinator dies of a lookup, nothing is said.
-/
namespace Neolaas
open AtomicProgram

/-- A spec that the server parses. -/
def Parses [SerdeJson] (_machineId specJson : String) : Prop :=
  (MachineSpec.fromStr specJson).isSome = true

instance [SerdeJson] (machineId specJson : String) : Decidable (Parses machineId specJson) :=
  inferInstanceAs (Decidable (_ = _))

namespace World

/-- The machines with an actor are the cached machines of the local node. -/
def Settled {P : Type} (score : Score P) (w : World P) : Prop :=
  ∀ machineId, machineId ∈ w.manager.actors ↔
    machineId ∈ w.manager.machineSpecs ∧ w.coordinator.Owns score machineId

/-- A cached machine, with every other machine settled. -/
structure SettledBut {P : Type} (score : Score P) (machineId : String) (w : World P) : Prop where
  others : ∀ id, id ≠ machineId → (id ∈ w.manager.actors ↔
    id ∈ w.manager.machineSpecs ∧ w.coordinator.Owns score id)
  cached : machineId ∈ w.manager.machineSpecs

/-- Interference that leaves the coordinator alone. -/
structure Steady {P : Type} (Valid : String → String → Prop) (w w' : World P) : Prop where
  interferes : Interferes Valid w w'
  coordinator : w'.coordinator = w.coordinator
  alive : w'.coordinatorAlive = w.coordinatorAlive

theorem Steady.refl {P : Type} (Valid : String → String → Prop) (w : World P) :
    Steady Valid w w := ⟨.refl Valid w, rfl, rfl⟩

theorem Steady.trans {P : Type} {Valid : String → String → Prop} {w w' w'' : World P}
    (h : Steady Valid w w') (h' : Steady Valid w' w'') : Steady Valid w w'' :=
  ⟨h.interferes.trans h'.interferes, h'.coordinator.trans h.coordinator, h'.alive.trans h.alive⟩

theorem Steady.settled {P : Type} {Valid : String → String → Prop} {score : Score P}
    {w w' : World P} (hr : Steady Valid w w') (h : w.Settled score) : w'.Settled score := by
  intro id
  rw [hr.interferes.actors, hr.interferes.specs, hr.coordinator]
  exact h id

theorem Steady.settledBut {P : Type} {Valid : String → String → Prop} {score : Score P}
    {machineId : String} {w w' : World P} (hr : Steady Valid w w')
    (h : w.SettledBut score machineId) : w'.SettledBut score machineId := by
  constructor
  · intro id hne
    rw [hr.interferes.actors, hr.interferes.specs, hr.coordinator]
    exact h.others id hne
  · rw [hr.interferes.specs]
    exact h.cached

/-- Giving the remaining machine an actor exactly when it is local settles the world. -/
theorem SettledBut.settled {P : Type} {score : Score P} {machineId : String} {w : World P}
    (h : w.SettledBut score machineId) {m : Managing P}
    (hspecs : m.manager.machineSpecs = w.manager.machineSpecs)
    (hothers : ∀ id, id ≠ machineId → (id ∈ m.manager.actors ↔ id ∈ w.manager.actors))
    (hmachine : machineId ∈ m.manager.actors ↔ w.coordinator.Owns score machineId) :
    (w.manage m).Settled score := by
  intro id
  simp only [manage_toManaging, manage_coordinator, hspecs]
  by_cases hid : id = machineId
  · rw [hid, hmachine]
    simp [h.cached]
  · rw [hothers id hid]
    exact h.others id hid

/-- Handlers run while the topology stays the same. -/
def steadySetting {P : Type} [DecidableEq P] [PeerId P] (score : Score P)
    (Valid : String → String → Prop) : Setting (Op P) Op.Ret (World P) where
  exec := exec score
  rely := Steady Valid
  guar _ _ _ := True
  rely_refl := Steady.refl Valid
  rely_trans _ _ _ h h' := h.trans h'

/-- The postcondition of the handlers: if lookups still work, the node is settled. -/
def SettledIfAlive {P : Type} (score : Score P) (w : World P) : Prop :=
  w.coordinatorAlive = true → w.Settled score

theorem Steady.settledIfAlive {P : Type} {Valid : String → String → Prop} {score : Score P}
    {w w' : World P} (hr : Steady Valid w w') (h : w.SettledIfAlive score) :
    w'.SettledIfAlive score := fun halive => hr.settled (h (hr.alive ▸ halive))


end World

namespace Managing

/-- A spec that parses is spawned. -/
theorem spawnMachineActor_of_parses {P : Type} [SerdeJson] [PeerId P] {now : ℤ}
    {machineId specJson : String} {self m : Managing P} (hparses : Parses machineId specJson)
    (h : self.spawnMachineActor now machineId specJson = some m) :
    ∃ actor, m = self.addActor machineId actor := by
  obtain ⟨hnone, -⟩ | ⟨actor, -, rfl⟩ := Program.spawnMachineActor_cases h
  · rw [Parses, hnone] at hparses
    cases hparses
  · exact ⟨actor, rfl⟩

end Managing

namespace Program
open World

theorem handleMachinePut_settles {P : Type} [SerdeJson] [DecidableEq P] [PeerId P]
    (score : Score P) (machineId specJson : String) (hparses : Parses machineId specJson)
    (w : World P) (h : w.SettledIfAlive score) :
    Safe (steadySetting score Parses) (fun _ t => t.SettledIfAlive score)
      (handleMachinePut machineId specJson) w := by
  unfold handleMachinePut
  apply safe_modify_bind rfl
  intro w₁ hr₁ m hm
  obtain rfl := Option.some.inj hm
  refine ⟨trivial, ?_⟩
  -- From here on the machine is cached and only its own actor may be amiss.
  have hcached : (w₁.manage (w₁.cacheSpec machineId specJson)).coordinatorAlive = true →
      (w₁.manage (w₁.cacheSpec machineId specJson)).SettledBut score machineId := by
    intro halive
    refine ⟨?_, Std.ExtTreeMap.mem_insert_self⟩
    intro id hne
    have hid := hr₁.settledIfAlive h halive id
    simp only [manage_toManaging, manage_coordinator, Managing.cacheSpec,
      Std.ExtTreeMap.mem_insert]
    rw [hid]
    simp [Ne.symm hne]
  generalize w₁.manage (w₁.cacheSpec machineId specJson) = v at hcached ⊢
  apply safe_lookupMachine rfl
  intro w₂ hr₂
  refine ⟨trivial, ?_⟩
  cases hres : (w₂.askLookup score machineId).1 with
  | none =>
    refine Safe.pure (fun w₃ hr₃ halive => ?_)
    rw [hr₃.alive, askLookup_none hres] at halive
    cases halive
  | some result =>
    obtain ⟨-, hlocal, owner, heq⟩ := askLookup_some hres
    rw [heq]
    apply safe_read rfl
    intro w₃ hr₃
    refine ⟨trivial, ?_⟩
    -- What is known at the last operation, whichever it is.
    have hlast : ∀ w₄, Steady Parses w₃ w₄ → (result.isLocal = true ↔
        w₄.coordinator.Owns score machineId) ∧
        (machineId ∈ w₄.manager.actors ↔ w₃.manager.actors.contains machineId = true) ∧
        (w₄.coordinatorAlive = true → w₄.SettledBut score machineId) := by
      intro w₄ hr₄
      refine ⟨?_, ?_, ?_⟩
      · rw [hr₄.coordinator, hr₃.coordinator, hlocal]
      · rw [hr₄.interferes.actors, Std.ExtTreeMap.contains_iff_mem]
      · intro halive
        rw [hr₄.alive, hr₃.alive] at halive
        have hv := hr₂.settledBut (hcached (hr₂.alive ▸ halive))
        exact hr₄.settledBut (hr₃.settledBut ⟨hv.others, hv.cached⟩)
    by_cases hown : result.isLocal = true
    · rw [if_pos hown]
      by_cases hactor : w₃.manager.actors.contains machineId = true
      · rw [if_pos hactor]
        apply safe_modify rfl
        intro w₄ hr₄ m hm
        obtain rfl := Option.some.inj hm
        obtain ⟨howns, hin, hbut⟩ := hlast w₄ hr₄
        refine ⟨trivial, fun w₅ hr₅ => hr₅.settledIfAlive (fun halive => ?_)⟩
        apply (hbut halive).settled
        · exact Managing.ask_specs ..
        · exact fun id _ => Managing.mem_actors_ask ..
        · rw [Managing.mem_actors_ask, hin, ← howns]
          simp [hactor, hown]
      · rw [if_neg hactor]
        apply safe_modify rfl
        intro w₄ hr₄ m hm
        obtain ⟨actor, rfl⟩ := Managing.spawnMachineActor_of_parses hparses hm
        obtain ⟨howns, hin, hbut⟩ := hlast w₄ hr₄
        refine ⟨trivial, fun w₅ hr₅ => hr₅.settledIfAlive (fun halive => ?_)⟩
        apply (hbut halive).settled
        · exact Managing.addActor_specs ..
        · intro id hne
          rw [Managing.mem_actors_addActor]
          simp [hne]
        · rw [Managing.mem_actors_addActor, ← howns]
          simp [hown]
    · rw [if_neg hown]
      by_cases hactor : w₃.manager.actors.contains machineId = true
      · rw [if_pos hactor]
        apply safe_modify rfl
        intro w₄ hr₄ m hm
        obtain ⟨previous, new, rfl⟩ := transferOwnership_eq_some hm
        obtain ⟨howns, hin, hbut⟩ := hlast w₄ hr₄
        refine ⟨trivial, fun w₅ hr₅ => hr₅.settledIfAlive (fun halive => ?_)⟩
        apply (hbut halive).settled
        · exact Managing.stopMachineActor_specs ..
        · intro id hne
          rw [Managing.mem_actors_stopMachineActor]
          simp [hne, Managing.emit]
        · rw [Managing.mem_actors_stopMachineActor, ← howns]
          simp [hown]
      · rw [if_neg hactor]
        refine Safe.pure (fun w₄ hr₄ halive => ?_)
        obtain ⟨howns, hin, hbut⟩ := hlast w₄ hr₄
        refine (hbut halive).settled (m := w₄.toManaging) rfl (fun _ _ => Iff.rfl) ?_
        rw [hin, ← howns]
        simp [hactor, hown]

theorem handleMachineDelete_settles {P : Type} [SerdeJson] [DecidableEq P] [PeerId P]
    (score : Score P) (machineId : String) (w : World P) (h : w.SettledIfAlive score) :
    Safe (steadySetting score Parses) (fun _ t => t.SettledIfAlive score)
      (handleMachineDelete machineId) w := by
  apply safe_modify rfl
  intro w₁ hr₁ m hm
  obtain rfl := Option.some.inj hm
  refine ⟨trivial, fun w₂ hr₂ => hr₂.settledIfAlive (fun halive id => ?_)⟩
  have hid := hr₁.settledIfAlive h halive id
  simp only [manage_toManaging, manage_coordinator, Managing.handleMachineDelete,
    Managing.mem_actors_stopMachineActor, Managing.stopMachineActor_specs, Managing.uncacheSpec,
    Std.ExtTreeMap.mem_erase]
  rw [hid]
  by_cases he : id = machineId
  · simp [he]
  · simp [he, Ne.symm he]

theorem syncAllMachines_settles {P : Type} [SerdeJson] [DecidableEq P] [PeerId P]
    (score : Score P) (w : World P) (hcontent : ValidContent Parses w.etcd)
    (h : w.SettledIfAlive score) :
    Safe (steadySetting score Parses) (fun _ t => t.SettledIfAlive score) syncAllMachines w := by
  unfold syncAllMachines
  apply safe_getPrefix rfl
  intro w₁ hr₁
  refine ⟨trivial, ?_⟩
  obtain ⟨machines, hmachines, hmem⟩ := decodeMachines_getPrefix w₁.etcd
  rw [hmachines]
  apply Safe.bind
  have hall : ∀ machine ∈ machines, Parses machine.1 machine.2 := by
    intro machine hin
    exact hr₁.interferes.etcd hcontent machine.1 machine.2 ((hmem machine.1 machine.2).mp hin)
  refine (Safe.foldlM (fun (rest : List (String × String)) (_ : Unit) t =>
      (∀ machine ∈ rest, Parses machine.1 machine.2) ∧ t.SettledIfAlive score)
    ?_ ?_ ⟨hall, hr₁.settledIfAlive h⟩).mono ?_
  · intro rest _ t t' ht hr
    exact ⟨ht.1, hr.settledIfAlive ht.2⟩
  · intro machine rest _ t ht
    refine (handleMachinePut_settles score machine.1 machine.2
      (ht.1 machine List.mem_cons_self) t ht.2).mono ?_
    intro _ t' ht'
    exact ⟨fun machine' hin => ht.1 machine' (List.mem_cons_of_mem machine hin), ht'⟩
  · intro _ t ht
    exact Safe.pure (fun t' hr => hr.settledIfAlive ht.2)

/-- The machines that have an actor once a plan is carried out. -/
def WillHold {P : Type} (toStop : List String) (toSpawn : List (String × String)) (w : World P)
    (machineId : String) : Prop :=
  (machineId ∈ w.manager.actors ∧ machineId ∉ toStop) ∨ machineId ∈ toSpawn.map Prod.fst

/-- A plan in which the machines that remain to be checked do not occur, and
which is right about the others. -/
structure Surveyed {P : Type} [SerdeJson] (score : Score P) (rest : List String)
    (plan : List String × List (String × String)) (w : World P) : Prop where
  nodup : rest.Nodup
  contained : w.Contained
  parses : w.ValidSpecs Parses
  toStop : ∀ machineId ∈ plan.1, machineId ∉ rest
  toSpawn : ∀ machine ∈ plan.2, machine.1 ∉ rest ∧
    w.manager.machineSpecs[machine.1]? = some machine.2
  right : w.coordinatorAlive = true → ∀ machineId ∈ w.manager.machineSpecs, machineId ∉ rest →
    (WillHold plan.1 plan.2 w machineId ↔ w.coordinator.Owns score machineId)

theorem Surveyed.steady {P : Type} [SerdeJson] {score : Score P} {rest : List String}
    {plan : List String × List (String × String)} {w w' : World P}
    (h : Surveyed score rest plan w) (hr : Steady Parses w w') :
    Surveyed score rest plan w' := by
  constructor
  · exact h.nodup
  · intro id hid
    rw [hr.interferes.specs]
    exact h.contained id ((hr.interferes.actors id).mp hid)
  · intro id specJson hspec
    rw [hr.interferes.specs] at hspec
    exact h.parses id specJson hspec
  · exact h.toStop
  · intro machine hin
    rw [hr.interferes.specs]
    exact h.toSpawn machine hin
  · intro halive id hid hrest
    rw [hr.interferes.specs] at hid
    rw [hr.coordinator, ← h.right (hr.alive ▸ halive) id hid hrest]
    unfold WillHold
    rw [hr.interferes.actors]

/-- Checking one more machine: the plan stays right when it is right about it. -/
theorem Surveyed.check {P : Type} [SerdeJson] {score : Score P} {machineId : String}
    {rest : List String} {plan : List String × List (String × String)} {w : World P}
    (h : Surveyed score (machineId :: rest) plan w) (stop : List String)
    (spawn : List (String × String)) (hstop : ∀ id ∈ stop, id = machineId)
    (hspawn : ∀ machine ∈ spawn, machine.1 = machineId ∧
      w.manager.machineSpecs[machine.1]? = some machine.2)
    (hright : w.coordinatorAlive = true → machineId ∈ w.manager.machineSpecs →
      (WillHold stop spawn w machineId ↔ w.coordinator.Owns score machineId)) :
    Surveyed score rest (plan.1 ++ stop, plan.2 ++ spawn) w := by
  obtain ⟨hfresh, hnodup⟩ := List.nodup_cons.mp h.nodup
  have hnotStop : machineId ∉ plan.1 := fun hin => h.toStop machineId hin List.mem_cons_self
  have hnotSpawn : machineId ∉ plan.2.map Prod.fst := by
    intro hin
    obtain ⟨machine, hmem, heq⟩ := List.mem_map.mp hin
    exact (h.toSpawn machine hmem).1 (heq ▸ List.mem_cons_self)
  constructor
  · exact hnodup
  · exact h.contained
  · exact h.parses
  · intro id hin
    obtain hin | hin := List.mem_append.mp hin
    · exact fun hrest => h.toStop id hin (List.mem_cons_of_mem machineId hrest)
    · exact hstop id hin ▸ hfresh
  · intro machine hin
    obtain hin | hin := List.mem_append.mp hin
    · obtain ⟨hrest, hspec⟩ := h.toSpawn machine hin
      exact ⟨fun hmem => hrest (List.mem_cons_of_mem machineId hmem), hspec⟩
    · obtain ⟨heq, hspec⟩ := hspawn machine hin
      exact ⟨heq ▸ hfresh, hspec⟩
  · intro halive id hid hrest
    by_cases he : id = machineId
    · subst he
      rw [← hright halive hid]
      unfold WillHold
      simp [hnotStop, hnotSpawn]
    · rw [← h.right halive id hid (by simp [he, hrest])]
      unfold WillHold
      have hs : id ∉ stop := fun hin => he (hstop id hin)
      have hp : id ∉ spawn.map Prod.fst := by
        intro hin
        obtain ⟨machine, hmem, heq⟩ := List.mem_map.mp hin
        exact he (heq.symm.trans (hspawn machine hmem).1)
      simp only [List.mem_append, List.map_append, hs, hp, or_false]

theorem checkMachine_surveys {P : Type} [SerdeJson] [DecidableEq P] [PeerId P]
    (score : Score P) (machineId : String) (rest : List String)
    (plan : List String × List (String × String)) (w : World P)
    (h : Surveyed score (machineId :: rest) plan w) :
    Safe (steadySetting score Parses) (fun plan' t => Surveyed score rest plan' t)
      (checkMachine plan machineId) w := by
  unfold checkMachine
  apply safe_lookupMachine rfl
  intro w₁ hr₁
  refine ⟨trivial, ?_⟩
  have h₁ := h.steady hr₁
  have hplan : plan = (plan.1 ++ [], plan.2 ++ []) := by simp
  cases hres : (w₁.askLookup score machineId).1 with
  | none =>
    rw [askLookup_none hres]
    refine Safe.pure (fun w₂ hr₂ => Surveyed.steady ?_ hr₂)
    -- The coordinator is dead, so that the plan need not be right.
    have hdead : Surveyed score (machineId :: rest) plan
        { w₁ with coordinatorAlive := false } :=
      ⟨h₁.nodup, h₁.contained, h₁.parses, h₁.toStop, h₁.toSpawn, fun halive => by cases halive⟩
    rw [hplan]
    exact hdead.check [] [] (by simp) (by simp) (fun halive => by cases halive)
  | some result =>
    obtain ⟨-, hlocal, owner, heq⟩ := askLookup_some hres
    rw [heq]
    apply safe_read rfl
    intro w₂ hr₂
    refine ⟨trivial, ?_⟩
    have hlogged : Surveyed score (machineId :: rest) plan { w₁ with
        events := w₁.events ++ [.machineLookup machineId owner result.isLocal] } :=
      ⟨h₁.nodup, h₁.contained, h₁.parses, h₁.toStop, h₁.toSpawn, h₁.right⟩
    have h₂ := hlogged.steady hr₂
    have hlocal₂ : result.isLocal = true ↔ w₂.coordinator.Owns score machineId := by
      rw [hr₂.coordinator, hlocal]
    have hactor : w₂.manager.actors.contains machineId = true ↔ machineId ∈ w₂.manager.actors :=
      Std.ExtTreeMap.contains_iff_mem
    by_cases hspawn : (result.isLocal && !w₂.manager.actors.contains machineId) = true
    · simp only [hspawn, if_true]
      obtain ⟨hown, hnone⟩ := Bool.and_eq_true_iff.mp hspawn
      cases hspec : w₂.manager.machineSpecs[machineId]? with
      | none =>
        refine Safe.pure (fun w₃ hr₃ => Surveyed.steady ?_ hr₃)
        rw [hplan]
        refine h₂.check [] [] (by simp) (by simp) (fun _ hin => ?_)
        rw [Std.ExtTreeMap.mem_iff_isSome_getElem?, hspec] at hin
        cases hin
      | some specJson =>
        refine Safe.pure (fun w₃ hr₃ => Surveyed.steady ?_ hr₃)
        have hcheck := h₂.check [] [(machineId, specJson)] (by simp)
          (by simpa using hspec) (fun _ _ => by simp [WillHold, ← hlocal₂, hown])
        rwa [List.append_nil] at hcheck
    · simp only [hspawn]
      by_cases hstop : (!result.isLocal && w₂.manager.actors.contains machineId) = true
      · simp only [hstop, if_true]
        refine Safe.pure (fun w₃ hr₃ => Surveyed.steady ?_ hr₃)
        obtain ⟨hown, hin⟩ := Bool.and_eq_true_iff.mp hstop
        have hforeign : ¬w₂.coordinator.Owns score machineId := by
          rw [← hlocal₂]
          simpa using hown
        have hcheck := h₂.check [machineId] [] (by simp) (by simp)
          (fun _ _ => by simp [WillHold, hforeign])
        rwa [List.append_nil] at hcheck
      · simp only [hstop]
        refine Safe.pure (fun w₃ hr₃ => Surveyed.steady ?_ hr₃)
        rw [hplan]
        refine h₂.check [] [] (by simp) (by simp) (fun _ _ => ?_)
        unfold WillHold
        rw [← hactor, ← hlocal₂]
        revert hspawn hstop
        cases result.isLocal <;> cases w₂.manager.actors.contains machineId <;> simp

theorem rebalanceActors_settles {P : Type} [SerdeJson] [DecidableEq P] [PeerId P]
    (score : Score P) (machineIds : List String) (w : World P)
    (hkeys : machineIds.Perm w.manager.machineSpecs.keys) (hcontained : w.Contained)
    (hparses : w.ValidSpecs Parses) :
    Safe (steadySetting score Parses) (fun _ t => t.SettledIfAlive score)
      (rebalanceActors machineIds) w := by
  unfold rebalanceActors
  apply Safe.bind
  have hstart : Surveyed score machineIds (([], []) : List String × List (String × String)) w := by
    refine ⟨hkeys.nodup_iff.mpr Std.ExtTreeMap.nodup_keys, hcontained, hparses, by simp, by simp,
      ?_⟩
    intro _ id hid hrest
    exact absurd (hkeys.mem_iff.mpr (Std.ExtTreeMap.mem_keys.mpr hid)) hrest
  refine (Safe.foldlM (fun rest plan t => Surveyed score rest plan t)
    (fun _ _ _ _ h hr => h.steady hr)
    (fun machineId rest plan t h => checkMachine_surveys score machineId rest plan t h)
    hstart).mono ?_
  intro plan w₁ hplan
  -- What the plan comes to, for cached and other machines alike.
  have hall : w₁.coordinatorAlive = true → ∀ id, WillHold plan.1 plan.2 w₁ id ↔
      id ∈ w₁.manager.machineSpecs ∧ w₁.coordinator.Owns score id := by
    intro halive id
    by_cases hid : id ∈ w₁.manager.machineSpecs
    · simp only [hid, true_and]
      exact hplan.right halive id hid List.not_mem_nil
    · simp only [hid, false_and, iff_false]
      intro hwill
      obtain ⟨hactor, -⟩ | hspawn := hwill
      · exact hid (hplan.contained id hactor)
      · obtain ⟨machine, hmem, rfl⟩ := List.mem_map.mp hspawn
        have hspec := (hplan.toSpawn machine hmem).2
        exact hid ((Std.ExtTreeMap.getElem?_eq_some_iff.mp hspec).fst)
  have hspecs : ∀ machine ∈ plan.2, Parses machine.1 machine.2 := fun machine hin =>
    hplan.parses machine.1 machine.2 (hplan.toSpawn machine hin).2
  apply Safe.bind
  refine (Safe.foldlM (fun (toStop : List String) (_ : Unit) t => t.coordinatorAlive = true →
      ∀ id, WillHold toStop plan.2 t id ↔
        id ∈ t.manager.machineSpecs ∧ t.coordinator.Owns score id) ?_ ?_ hall).mono ?_
  · intro toStop _ t t' ht hr halive id
    rw [hr.interferes.specs, hr.coordinator, ← ht (hr.alive ▸ halive) id]
    unfold WillHold
    rw [hr.interferes.actors]
  · intro machineId toStop _ t ht
    apply safe_modify rfl
    intro t₁ hr₁ m hm
    obtain rfl := Option.some.inj hm
    refine ⟨trivial, fun t₂ hr₂ halive id => ?_⟩
    rw [hr₂.alive, manage_coordinatorAlive, hr₁.alive] at halive
    rw [hr₂.interferes.specs, hr₂.coordinator, manage_toManaging, manage_coordinator,
      Managing.stopMachineActor_specs, hr₁.interferes.specs, hr₁.coordinator, ← ht halive id]
    unfold WillHold
    rw [hr₂.interferes.actors, manage_toManaging, Managing.mem_actors_stopMachineActor,
      hr₁.interferes.actors, List.mem_cons, not_or]
    tauto
  · intro _ w₂ h₂
    refine (Safe.foldlM (fun (toSpawn : List (String × String)) (_ : Unit) t =>
        (∀ machine ∈ toSpawn, Parses machine.1 machine.2) ∧ (t.coordinatorAlive = true →
          ∀ id, WillHold [] toSpawn t id ↔
            id ∈ t.manager.machineSpecs ∧ t.coordinator.Owns score id)) ?_ ?_
      ⟨hspecs, h₂⟩).mono ?_
    · intro toSpawn _ t t' ht hr
      refine ⟨ht.1, fun halive id => ?_⟩
      rw [hr.interferes.specs, hr.coordinator, ← ht.2 (hr.alive ▸ halive) id]
      unfold WillHold
      rw [hr.interferes.actors]
    · intro machine toSpawn _ t ht
      apply safe_modify rfl
      intro t₁ hr₁ m hm
      obtain ⟨actor, rfl⟩ :=
        Managing.spawnMachineActor_of_parses (ht.1 machine List.mem_cons_self) hm
      refine ⟨trivial, fun t₂ hr₂ =>
        ⟨fun machine' hin => ht.1 machine' (List.mem_cons_of_mem machine hin), ?_⟩⟩
      intro halive id
      rw [hr₂.alive, manage_coordinatorAlive, hr₁.alive] at halive
      rw [hr₂.interferes.specs, hr₂.coordinator, manage_toManaging, manage_coordinator,
        Managing.addActor_specs, hr₁.interferes.specs, hr₁.coordinator, ← ht.2 halive id]
      unfold WillHold
      rw [hr₂.interferes.actors, manage_toManaging, Managing.mem_actors_addActor,
        hr₁.interferes.actors, List.map_cons, List.mem_cons]
      tauto
    · intro _ t ht halive id
      rw [← ht.2 halive id]
      simp [WillHold]

end Program

/-- Every handler but the rebalance keeps the node settled. -/
theorem ManagerMessage.handler_settles {P : Type} [SerdeJson] [DecidableEq P] [PeerId P]
    (score : Score P) (message : ManagerMessage) (hcarries : message.Carries Parses)
    (hne : message ≠ .rebalanceActors) (machineIds : List String) (w : World P)
    (hcontent : World.ValidContent Parses w.etcd) (h : w.SettledIfAlive score) :
    Safe (World.steadySetting score Parses) (fun _ t => t.SettledIfAlive score)
      (message.handler machineIds) w := by
  have hpure : ∀ (reply : ManagerReply) (t : World P), t.SettledIfAlive score →
      Safe (World.steadySetting score Parses) (fun _ t' => t'.SettledIfAlive score)
        (pure reply) t :=
    fun _ _ ht => Safe.pure (fun _ hr => hr.settledIfAlive ht)
  match message with
  | .etcdMachineEvent machineId .put (some specJson) =>
    apply Safe.bind
    exact (Program.handleMachinePut_settles score machineId specJson hcarries w h).mono
      (fun _ t ht => hpure _ t ht)
  | .etcdMachineEvent _ .put none => exact hpure _ w h
  | .etcdMachineEvent machineId .delete _ =>
    apply Safe.bind
    exact (Program.handleMachineDelete_settles score machineId w h).mono
      (fun _ t ht => hpure _ t ht)
  | .syncAllMachines =>
    apply Safe.bind
    refine (Program.syncAllMachines_settles score w hcontent h).mono ?_
    intro fetched t ht
    cases fetched with
    | true =>
      apply Program.safe_read rfl
      exact fun w' hr => ⟨trivial, hpure _ w' (hr.settledIfAlive ht)⟩
    | false => exact hpure _ t ht
  | .rebalanceActors => exact absurd rfl hne

/-- What the handlers make of a property under a fixed topology: a rebalance brings
it about, and the other handlers keep it. -/
structure World.Attained {P : Type} [SerdeJson] [DecidableEq P] [PeerId P] (score : Score P)
    (Valid : String → String → Prop) (Q : World P → Prop) : Prop where
  steady : ∀ w w', World.Steady Valid w w' → Q w → Q w'
  rebalance : ∀ (machineIds : List String) (w : World P),
    machineIds.Perm w.manager.machineSpecs.keys → w.Contained → w.ValidSpecs Valid →
    Safe (World.steadySetting score Valid) (fun _ t => Q t)
      (ManagerMessage.rebalanceActors.handler machineIds) w
  handler : ∀ message : ManagerMessage, message.Carries Valid → message ≠ .rebalanceActors →
    ∀ (machineIds : List String) (w : World P), World.ValidContent Valid w.etcd → Q w →
    Safe (World.steadySetting score Valid) (fun _ t => Q t) (message.handler machineIds) w

/-- A rebalance settles the node from any cache that holds its actors' machines. -/
theorem ManagerMessage.rebalance_settles {P : Type} [SerdeJson] [DecidableEq P] [PeerId P]
    (score : Score P) (machineIds : List String) (w : World P)
    (hkeys : machineIds.Perm w.manager.machineSpecs.keys) (hcontained : w.Contained)
    (hparses : w.ValidSpecs Parses) :
    Safe (World.steadySetting score Parses) (fun _ t => t.SettledIfAlive score)
      (ManagerMessage.rebalanceActors.handler machineIds) w := by
  apply Safe.bind
  refine (Program.rebalanceActors_settles score machineIds w hkeys hcontained hparses).mono ?_
  intro _ t ht
  exact Safe.pure (fun t' hr => hr.settledIfAlive ht)

/-- Settledness, over specs that parse. -/
theorem World.attained_settledIfAlive {P : Type} [SerdeJson] [DecidableEq P] [PeerId P]
    (score : Score P) : World.Attained score Parses (World.SettledIfAlive score) where
  steady _ _ hr h := hr.settledIfAlive h
  rebalance := ManagerMessage.rebalance_settles score
  handler message hcarries hne machineIds w hcontent h :=
    ManagerMessage.handler_settles score message hcarries hne machineIds w hcontent h

end Neolaas
