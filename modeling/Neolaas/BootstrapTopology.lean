import Neolaas.QuiescentOwnership

/-!
# The topology on which actors are spawned

The coordinator starts with the local peer alone, and the list that the end of
convergence sends is the first that it is asked to apply. The initial sync waits
for the end of convergence but not for the coordinator, and the watch task waits
for neither, so that each of them may have a machine looked up too early. A
rebalance is only asked for after a list has been applied.
-/
namespace Neolaas
open AtomicProgram LabelledRuns

/-- The line of an applied peer list. -/
def Event.isTopologyChange : Event → Bool
  | topologyChange .. => true
  | _ => false

/-- The log has the line of an applied peer list. -/
def TopologyApplied (events : List Event) : Prop := ∃ e ∈ events, e.isTopologyChange = true

instance (events : List Event) : Decidable (TopologyApplied events) :=
  inferInstanceAs (Decidable (∃ e ∈ events, e.isTopologyChange = true))

theorem topologyApplied_append (events es : List Event) :
    TopologyApplied (events ++ es) ↔ TopologyApplied events ∨ TopologyApplied es := by
  unfold TopologyApplied
  constructor
  · rintro ⟨e, hmem, hline⟩
    obtain hmem | hmem := List.mem_append.mp hmem
    · exact Or.inl ⟨e, hmem, hline⟩
    · exact Or.inr ⟨e, hmem, hline⟩
  · rintro (⟨e, hmem, hline⟩ | ⟨e, hmem, hline⟩)
    · exact ⟨e, List.mem_append_left es hmem, hline⟩
    · exact ⟨e, List.mem_append_right events hmem, hline⟩

theorem TopologyApplied.append {events : List Event} (h : TopologyApplied events)
    (es : List Event) : TopologyApplied (events ++ es) :=
  (topologyApplied_append events es).mpr (Or.inl h)

/-- What has the first applied list is longer than what comes before that list. -/
theorem TopologyApplied.lt_length {es rest : List Event} {k : ℕ} (h : TopologyApplied es)
    (hk : ¬TopologyApplied ((es ++ rest).take k)) : k < es.length := by
  by_contra hle
  apply hk
  have htake : es.take k = es := List.take_of_length_le (by omega)
  rw [List.take_append, htake]
  exact h.append _

/-- A machine was found local after a peer list had been applied. -/
def FoundLocal (events : List Event) (machineId : String) : Prop :=
  ∃ before owner after, events = before ++ Event.machineLookup machineId owner true :: after ∧
    TopologyApplied before

namespace FoundLocal

theorem append {events : List Event} {machineId : String} (h : FoundLocal events machineId)
    (es : List Event) : FoundLocal (events ++ es) machineId := by
  obtain ⟨before, owner, after, heq, happlied⟩ := h
  refine ⟨before, owner, after ++ es, ?_, happlied⟩
  rw [heq, List.append_assoc, List.cons_append]

theorem snoc {events : List Event} {machineId : String} (owner : Option String)
    (h : TopologyApplied events) :
    FoundLocal (events ++ [.machineLookup machineId owner true]) machineId :=
  ⟨events, owner, [], rfl, h⟩

/-- The last lookup of a machine comes no earlier than one that found it local. -/
theorem last {events : List Event} {machineId : String} (h : FoundLocal events machineId)
    (hlast : LastLookup events machineId true) :
    ∃ before owner after, events = before ++ Event.machineLookup machineId owner true :: after ∧
      TopologyApplied before ∧
      ∀ owner' isLocal', .machineLookup machineId owner' isLocal' ∉ after := by
  obtain ⟨before, owner, after, heq, happlied⟩ := h
  obtain ⟨before', owner', after', heq', hafter⟩ := hlast
  refine ⟨before', owner', after', heq', ?_, hafter⟩
  -- Otherwise the lookup that found it local is among what follows the last one.
  obtain ⟨es, hes, hrest⟩ | ⟨es, hes, hrest⟩ :=
    List.append_eq_append_iff.mp (heq.symm.trans heq')
  · rw [hes]
    exact happlied.append es
  · cases es with
    | nil =>
      rw [List.append_nil] at hes
      rw [← hes]
      exact happlied
    | cons e es =>
      rw [List.cons_append] at hrest
      obtain ⟨-, htail⟩ := List.cons.inj hrest
      have hmem : Event.machineLookup machineId owner true ∈ after' := by
        rw [htail]
        exact List.mem_append_right es List.mem_cons_self
      exact absurd hmem (hafter owner true)

end FoundLocal

namespace World

/-- The coordinator has applied a peer list, or is dead. -/
def Topologized {P : Type} (w : World P) : Prop :=
  w.coordinatorAlive = true → TopologyApplied w.events

instance {P : Type} (w : World P) : Decidable w.Topologized := inferInstanceAs (Decidable (_ → _))

/-- A lookup of the machine comes late enough, or no actor comes of it. -/
def MayBeFound {P : Type} [SerdeJson] (w : World P) (machineId : String) : Prop :=
  w.Topologized ∨ ∀ specJson ∈ w.manager.machineSpecs[machineId]?,
    MachineSpec.fromStr specJson = none

instance {P : Type} [SerdeJson] (w : World P) (machineId : String) :
    Decidable (w.MayBeFound machineId) :=
  inferInstanceAs (Decidable (_ ∨ ∀ specJson ∈ w.manager.machineSpecs[machineId]?, _ = none))

/-- The log grows, nobody else changes the cache, and the coordinator stays dead. -/
structure Prolongs {P : Type} (w w' : World P) : Prop where
  specs : w'.manager.machineSpecs = w.manager.machineSpecs
  events : ∃ es, w'.events = w.events ++ es
  alive : w'.coordinatorAlive = true → w.coordinatorAlive = true

namespace Prolongs

theorem refl {P : Type} (w : World P) : Prolongs w w := ⟨rfl, ⟨[], by simp⟩, id⟩

theorem trans {P : Type} {w w' w'' : World P} (h : Prolongs w w') (h' : Prolongs w' w'') :
    Prolongs w w'' := by
  obtain ⟨es, hes⟩ := h.events
  obtain ⟨es', hes'⟩ := h'.events
  refine ⟨h'.specs.trans h.specs, ⟨es ++ es', ?_⟩, fun halive => h.alive (h'.alive halive)⟩
  rw [hes', hes, List.append_assoc]

theorem topologized {P : Type} {w w' : World P} (h : Prolongs w w') (hw : w.Topologized) :
    w'.Topologized := by
  intro halive
  obtain ⟨es, hes⟩ := h.events
  rw [hes]
  exact (hw (h.alive halive)).append es

theorem foundLocal {P : Type} {w w' : World P} (h : Prolongs w w') {machineId : String}
    (hw : FoundLocal w.events machineId) : FoundLocal w'.events machineId := by
  obtain ⟨es, hes⟩ := h.events
  rw [hes]
  exact hw.append es

end Prolongs

/-- Actors are spawned of machines found local. -/
def SpawnsFound {P : Type} (w w' : World P) : Prop :=
  ∀ machineId ∈ w'.manager.actors, machineId ∈ w.manager.actors ∨ FoundLocal w.events machineId

open Classical in
/-- Handlers run while the log may grow, and look up only what they may. -/
noncomputable def bootstrapSetting {P : Type} [DecidableEq P] [PeerId P] (score : Score P)
    (ok : String → World P → Prop) : Setting (Op P) Op.Ret (World P) where
  exec
    | .lookupMachine machineId => fun w =>
      if ok machineId w then exec score (.lookupMachine machineId) w else none
    | op => exec score op
  rely := Prolongs
  guar _ := SpawnsFound
  rely_refl := Prolongs.refl
  rely_trans _ _ _ h h' := h.trans h'

theorem askLookup_alive {P : Type} [DecidableEq P] [PeerId P] {score : Score P}
    {machineId : String} {w : World P} {result : LookupResult P}
    (h : (w.askLookup score machineId).1 = some result) : w.coordinatorAlive = true := by
  unfold askLookup at h
  by_cases halive : w.coordinatorAlive = true
  · exact halive
  · rw [if_neg halive] at h
    cases h

end World

namespace Program
open World

section
variable {P : Type} [DecidableEq P] [PeerId P] {score : Score P} {ok : String → World P → Prop}

theorem found_lookupMachine {α : Type} {Q : α → World P → Prop} {machineId : String}
    {f : Option (LookupResult P) → Program P α} {w : World P}
    (h : ∀ w', Prolongs w w' → ok machineId w' →
      Safe (bootstrapSetting score ok) Q (f (w'.askLookup score machineId).1)
        (w'.askLookup score machineId).2) :
    Safe (bootstrapSetting score ok) Q (lookupMachine machineId >>= f) w := by
  apply Safe.perform_bind
  intro w' hr r t he
  simp only [bootstrapSetting] at he
  split_ifs at he with hok
  obtain ⟨rfl, rfl⟩ := Prod.mk.inj (Option.some.inj he)
  have hspawns : SpawnsFound w' (w'.askLookup score machineId).2 := by
    intro id
    rw [(askLookup_frame score machineId w').1]
    exact Or.inl
  exact ⟨hspawns, h w' hr hok⟩

/-- A change of the manager that spawns no actor. -/
theorem found_modify {g : ℤ → Managing P → Option (Managing P)} {w : World P}
    (h : ∀ w', Prolongs w w' → ∀ m, g w'.now w'.toManaging = some m →
      SpawnsFound w' (w'.manage m)) :
    Safe (bootstrapSetting score ok) (fun _ _ => True) (modify g) w := by
  apply safe_modify rfl
  intro w' hr m hm
  exact ⟨h w' hr m hm, fun _ _ => trivial⟩

end

/-- A put spawns its machine only if it may be found. -/
theorem handleMachinePut_found {P : Type} [SerdeJson] [DecidableEq P] [PeerId P]
    {score : Score P} {ok : String → World P → Prop}
    (hok : ∀ machineId w, ok machineId w → w.MayBeFound machineId)
    (machineId specJson : String) (w : World P) :
    Safe (bootstrapSetting score ok) (fun _ _ => True) (handleMachinePut machineId specJson) w := by
  unfold handleMachinePut
  apply safe_modify_bind rfl
  intro w₁ _ m hm
  obtain rfl := Option.some.inj hm
  refine ⟨fun _ hid => Or.inl hid, ?_⟩
  apply found_lookupMachine
  intro w₂ hr₂ hmay
  have hspec : w₂.manager.machineSpecs[machineId]? = some specJson := by
    rw [hr₂.specs]
    exact Std.ExtTreeMap.getElem?_insert_self
  cases hres : (w₂.askLookup score machineId).1 with
  | none => exact Safe.pure (fun _ _ => trivial)
  | some result =>
    obtain ⟨-, -, owner, heq⟩ := askLookup_some hres
    -- A machine found local is found late, or its spec does not parse.
    have hfound : result.isLocal = true → MachineSpec.fromStr specJson = none ∨
        FoundLocal (w₂.askLookup score machineId).2.events machineId := by
      intro hlocal
      rw [heq, hlocal]
      obtain htopology | hspecs := hok machineId w₂ hmay
      · exact Or.inr (FoundLocal.snoc owner (htopology (askLookup_alive hres)))
      · exact Or.inl (hspecs specJson hspec)
    apply safe_read rfl
    intro w₃ hr₃
    refine ⟨fun _ hid => Or.inl hid, ?_⟩
    by_cases hlocal : result.isLocal = true
    · rw [if_pos hlocal]
      by_cases hactor : w₃.manager.actors.contains machineId = true
      · rw [if_pos hactor]
        apply found_modify
        intro w₄ _ m hm id hid
        obtain rfl := Option.some.inj hm
        exact Or.inl ((Managing.mem_actors_ask ..).mp hid)
      · rw [if_neg hactor]
        apply found_modify
        intro w₄ hr₄ m hm id hid
        obtain ⟨-, rfl⟩ | ⟨actor, hnew, rfl⟩ := spawnMachineActor_cases hm
        · exact Or.inl hid
        · rw [manage_toManaging, Managing.mem_actors_addActor] at hid
          obtain rfl | hid := hid
          · obtain hparse | hlast := hfound hlocal
            · rw [MachineActor.withNodeId, hparse] at hnew
              cases hnew
            · exact Or.inr (hr₄.foundLocal (hr₃.foundLocal hlast))
          · exact Or.inl hid
    · rw [if_neg hlocal]
      by_cases hactor : w₃.manager.actors.contains machineId = true
      · rw [if_pos hactor]
        apply found_modify
        intro w₄ _ m hm id hid
        obtain ⟨previous, new, rfl⟩ := transferOwnership_eq_some hm
        rw [manage_toManaging, Managing.mem_actors_stopMachineActor] at hid
        exact Or.inl hid.2
      · rw [if_neg hactor]
        exact Safe.pure (fun _ _ => trivial)

/-- The puts of a sync spawn only machines that may be found. -/
theorem syncAllMachines_found {P : Type} [SerdeJson] [DecidableEq P] [PeerId P]
    {score : Score P} {ok : String → World P → Prop}
    (hok : ∀ machineId w, ok machineId w → w.MayBeFound machineId) (w : World P) :
    Safe (bootstrapSetting score ok) (fun _ _ => True) syncAllMachines w := by
  unfold syncAllMachines
  apply safe_getPrefix rfl
  intro w₁ _
  refine ⟨fun _ hid => Or.inl hid, ?_⟩
  cases decodeMachines (w₁.etcd.getPrefix machinesPrefix) with
  | none => exact Safe.pure (fun _ _ => trivial)
  | some machines =>
    apply Safe.bind
    refine (Safe.foldlM (fun _ _ _ => True) (fun _ _ _ _ _ _ => trivial) ?_ trivial).mono
      (fun _ _ _ => Safe.pure (fun _ _ => trivial))
    intro machine _ _ t _
    exact handleMachinePut_found hok machine.1 machine.2 t

/-- The plan of a rebalance spawns machines found local. -/
def PlansFound {P : Type} (plan : List (String × String)) (w : World P) : Prop :=
  w.Topologized ∧ ∀ machine ∈ plan, FoundLocal w.events machine.1

theorem PlansFound.prolongs {P : Type} {plan : List (String × String)} {w w' : World P}
    (h : PlansFound plan w) (hr : Prolongs w w') : PlansFound plan w' :=
  ⟨hr.topologized h.1, fun machine hin => hr.foundLocal (h.2 machine hin)⟩

theorem checkMachine_found {P : Type} [DecidableEq P] [PeerId P] {score : Score P}
    {ok : String → World P → Prop} (plan : List String × List (String × String))
    (machineId : String) (w : World P) (h : PlansFound plan.2 w) :
    Safe (bootstrapSetting score ok) (fun plan' t => PlansFound plan'.2 t)
      (checkMachine plan machineId) w := by
  unfold checkMachine
  apply found_lookupMachine
  intro w₁ hr₁ _
  have hplan := h.prolongs hr₁
  have hkeep : ∀ t, PlansFound plan.2 t → ∀ toStop,
      Safe (bootstrapSetting score ok) (fun plan' t => PlansFound plan'.2 t)
        (pure (toStop, plan.2) : Program P (List String × List (String × String))) t :=
    fun t ht _ => Safe.pure (fun t' hr => ht.prolongs hr)
  cases hres : (w₁.askLookup score machineId).1 with
  | none =>
    have hdead := askLookup_none hres
    rw [hdead]
    refine hkeep { w₁ with coordinatorAlive := false } ⟨?_, hplan.2⟩ plan.1
    intro halive
    cases halive
  | some result =>
    obtain ⟨-, -, owner, heq⟩ := askLookup_some hres
    have hprolongs : Prolongs w₁ (w₁.askLookup score machineId).2 := by
      rw [heq]
      exact ⟨rfl, ⟨_, rfl⟩, id⟩
    have hplan₁ := hplan.prolongs hprolongs
    have hfound : result.isLocal = true →
        FoundLocal (w₁.askLookup score machineId).2.events machineId := by
      intro hlocal
      rw [heq, hlocal]
      exact FoundLocal.snoc owner (hplan.1 (askLookup_alive hres))
    apply safe_read rfl
    intro w₂ hr₂
    refine ⟨fun _ hid => Or.inl hid, ?_⟩
    have hplan₂ := hplan₁.prolongs hr₂
    by_cases hspawn : (result.isLocal && !w₂.manager.actors.contains machineId) = true
    · simp only [hspawn, if_true]
      cases hspec : w₂.manager.machineSpecs[machineId]? with
      | none => exact hkeep w₂ hplan₂ plan.1
      | some specJson =>
        have hlocal : result.isLocal = true := (Bool.and_eq_true_iff.mp hspawn).1
        refine Safe.pure (fun w₃ hr₃ => PlansFound.prolongs ⟨hplan₂.1, ?_⟩ hr₃)
        intro machine hin
        obtain hin | hin := List.mem_append.mp hin
        · exact hplan₂.2 machine hin
        · obtain rfl := List.mem_singleton.mp hin
          exact hr₂.foundLocal (hfound hlocal)
    · by_cases hstop : (!result.isLocal && w₂.manager.actors.contains machineId) = true
      · simp only [hspawn, hstop, if_true]
        exact hkeep w₂ hplan₂ _
      · simp only [hspawn, hstop]
        exact hkeep w₂ hplan₂ plan.1

/-- A rebalance after a list has been applied spawns machines found local. -/
theorem rebalanceActors_found {P : Type} [SerdeJson] [DecidableEq P] [PeerId P]
    {score : Score P} {ok : String → World P → Prop} (machineIds : List String) (w : World P)
    (h : w.Topologized) :
    Safe (bootstrapSetting score ok) (fun _ _ => True) (rebalanceActors machineIds) w := by
  unfold rebalanceActors
  apply Safe.bind
  refine (Safe.foldlM (fun _ (plan : List String × List (String × String)) t =>
    PlansFound plan.2 t) (fun _ _ _ _ ht hr => ht.prolongs hr)
    (fun machineId _ plan t ht => checkMachine_found plan machineId t ht) ⟨h, by simp⟩).mono ?_
  intro plan t hplan
  apply Safe.bind
  refine (Safe.foldlM (fun _ (_ : Unit) t => PlansFound plan.2 t)
    (fun _ _ _ _ ht hr => ht.prolongs hr) ?_ hplan).mono ?_
  · intro machineId _ _ t ht
    apply safe_modify rfl
    intro t₁ hr₁ m hm
    obtain rfl := Option.some.inj hm
    constructor
    · intro id hid
      rw [manage_toManaging, Managing.mem_actors_stopMachineActor] at hid
      exact Or.inl hid.2
    · intro t₂ hr₂
      have ht₁ := ht.prolongs hr₁
      refine PlansFound.prolongs ?_ hr₂
      unfold Managing.stopMachineActor
      split_ifs
      · exact ⟨fun halive => (ht₁.1 halive).append _,
          fun machine hin => (ht₁.2 machine hin).append _⟩
      · exact ht₁
  · intro _ t ht
    refine (Safe.foldlM (fun rest (_ : Unit) t => PlansFound rest t)
      (fun _ _ _ _ ht hr => ht.prolongs hr) ?_ ht).mono (fun _ _ _ => trivial)
    intro machine rest _ t ht
    apply safe_modify rfl
    intro t₁ hr₁ m hm
    have ht₁ := ht.prolongs hr₁
    have hrest : PlansFound rest t₁ :=
      ⟨ht₁.1, fun machine' hin => ht₁.2 machine' (List.mem_cons_of_mem machine hin)⟩
    obtain ⟨-, rfl⟩ | ⟨actor, -, rfl⟩ := spawnMachineActor_cases hm
    · exact ⟨fun _ hid => Or.inl hid, fun t₂ hr₂ => hrest.prolongs hr₂⟩
    · constructor
      · intro id hid
        rw [manage_toManaging, Managing.mem_actors_addActor] at hid
        obtain rfl | hid := hid
        · exact Or.inr (ht₁.2 machine List.mem_cons_self)
        · exact Or.inl hid
      · intro t₂ hr₂
        refine PlansFound.prolongs ?_ hr₂
        exact ⟨fun halive => (hrest.1 halive).append _,
          fun machine' hin => (hrest.2 machine' hin).append _⟩

end Program

/-- A handler may look a machine up. A rebalance may look up any. -/
def ManagerMessage.MayFind {P : Type} [SerdeJson] (message : ManagerMessage) (machineId : String)
    (w : World P) : Prop := message = .rebalanceActors ∨ w.MayBeFound machineId

instance {P : Type} [SerdeJson] (message : ManagerMessage) (machineId : String) (w : World P) :
    Decidable (message.MayFind machineId w) := inferInstanceAs (Decidable (_ ∨ _))

/-- Every handler spawns machines found local while its lookups may be made. A
rebalance needs a list that has been applied. -/
theorem ManagerMessage.handler_found {P : Type} [SerdeJson] [DecidableEq P] [PeerId P]
    (score : Score P) (message : ManagerMessage) (machineIds : List String) (w : World P)
    (h : message = .rebalanceActors → w.Topologized) :
    Safe (World.bootstrapSetting score message.MayFind) (fun _ _ => True)
      (message.handler machineIds) w := by
  have hpure : ∀ (reply : ManagerReply) (t : World P),
      Safe (World.bootstrapSetting score message.MayFind) (fun _ _ => True) (pure reply) t :=
    fun _ _ => Safe.pure (fun _ _ => trivial)
  have hok : message ≠ .rebalanceActors → ∀ id (t : World P), message.MayFind id t →
      t.MayBeFound id := fun hne id t hmay => hmay.resolve_left hne
  match message with
  | .etcdMachineEvent machineId .put (some specJson) =>
    apply Safe.bind
    exact (Program.handleMachinePut_found (hok (by simp)) machineId specJson w).mono
      (fun _ t _ => hpure _ t)
  | .etcdMachineEvent _ .put none => exact hpure _ w
  | .etcdMachineEvent machineId .delete _ =>
    apply Safe.bind
    refine (Program.found_modify ?_).mono (fun _ t _ => hpure _ t)
    intro t _ m hm id hid
    obtain rfl := Option.some.inj hm
    rw [World.manage_toManaging, Managing.handleMachineDelete,
      Managing.mem_actors_stopMachineActor] at hid
    exact Or.inl hid.2
  | .syncAllMachines =>
    apply Safe.bind
    refine (Program.syncAllMachines_found (hok (by simp)) w).mono ?_
    intro fetched t _
    cases fetched with
    | true =>
      apply Program.safe_read rfl
      exact fun t' _ => ⟨fun _ hid => Or.inl hid, hpure _ t'⟩
    | false => exact hpure _ t
  | .rebalanceActors =>
    apply Safe.bind
    exact (Program.rebalanceActors_found machineIds w (h rfl)).mono (fun _ t _ => hpure _ t)

/-- The line of a spawned actor. -/
def Event.IsSpawn (machineId : String) (e : Event) : Prop :=
  ∃ actorType nodeId, e = .actorSpawned actorType machineId nodeId

/-- The line of neither a spawned actor nor an applied peer list. -/
def Event.IsOther : Event → Prop
  | topologyChange .. => False
  | actorSpawned .. => False
  | _ => True

theorem Event.OfActor.isOther {machineId : String} {e : Event} (h : e.OfActor machineId) :
    e.IsOther := by
  cases e with
  | topologyChange => exact h
  | actorSpawned => exact h
  | _ => trivial

/-- What a step of the manager logs: no topology change, and a spawn only for a
machine without actor whose last lookup was local. -/
structure World.Logs {P : Type} (w w' : World P) (es : List Event) : Prop where
  events : w'.events = w.events ++ es
  quiet : ¬TopologyApplied es
  spawns : ∀ machineId, ∀ e ∈ es, e.IsSpawn machineId → (∀ e' ∈ es, ¬e'.IsLookup) ∧
    machineId ∉ w.manager.actors ∧ machineId ∈ w'.manager.actors ∧
    LastLookup w.events machineId true

theorem World.Logs.of_other {P : Type} {w w' : World P} {es : List Event}
    (h : w'.events = w.events ++ es) (hes : ∀ e ∈ es, e.IsOther) : World.Logs w w' es where
  events := h
  quiet := by
    rintro ⟨e, hmem, hline⟩
    have hother := hes e hmem
    cases e with
    | topologyChange => exact hother
    | _ => cases hline
  spawns := by
    rintro machineId e hmem ⟨actorType, nodeId, rfl⟩
    exact (hes _ hmem).elim

/-- A stopped actor logs its stop after other lines. -/
theorem World.Logs.stop {P : Type} (machineId reason : String) (w : World P) (m : Managing P)
    (es : List Event) (hm : m.events = w.events ++ es) (hes : ∀ e ∈ es, e.IsOther) :
    ∃ es, World.Logs w (w.manage (m.stopMachineActor machineId reason)) es := by
  unfold Managing.stopMachineActor
  split_ifs with hactor
  · refine ⟨es ++ [.recordActorStopped "MachineActor" reason,
      .actorStopped "MachineActor" machineId reason m.manager.nodeId], World.Logs.of_other ?_ ?_⟩
    · rw [World.manage_toManaging, hm, List.append_assoc]
    · intro e he
      obtain he | he := List.mem_append.mp he
      · exact hes e he
      · simp only [List.mem_cons, List.not_mem_nil, or_false] at he
        obtain rfl | rfl := he
        · trivial
        · trivial
  · exact ⟨es, World.Logs.of_other hm hes⟩

theorem World.Managed.logs {P : Type} [SerdeJson] [DecidableEq P] [PeerId P] {score : Score P}
    {Valid : String → String → Prop} {asks : Prop} {w w' : World P}
    (h : World.Managed score Valid asks w w') : ∃ es, World.Logs w w' es := by
  have hsame : ∀ w' : World P, w'.events = w.events → ∃ es, World.Logs w w' es := by
    intro w' hw
    refine ⟨[], World.Logs.of_other ?_ (by simp)⟩
    rw [hw, List.append_nil]
  cases h with
  | quiet => exact hsame w rfl
  | lookedUp machineId =>
    cases hres : (w.askLookup score machineId).1 with
    | none =>
      apply hsame
      rw [World.askLookup_none hres]
    | some result =>
      obtain ⟨-, -, owner, heq⟩ := World.askLookup_some hres
      rw [heq]
      refine ⟨[.machineLookup machineId owner result.isLocal], World.Logs.of_other rfl ?_⟩
      intro e he
      obtain rfl := List.mem_singleton.mp he
      trivial
  | cached machineId specJson => exact hsame _ rfl
  | deleted machineId =>
    have hevents : (w.uncacheSpec machineId).events = w.events ++ [] := (List.append_nil _).symm
    exact World.Logs.stop machineId "machine_deleted" w (w.uncacheSpec machineId) [] hevents
      (by simp)
  | asked machineId message =>
    unfold Managing.ask
    cases hactor : w.manager.actors[machineId]? with
    | none => exact hsame _ rfl
    | some actor =>
      obtain ⟨-, es, hes, hof⟩ := Acting.handle_emits w.now ⟨actor, w.events⟩ message
      exact ⟨es, World.Logs.of_other hes (fun e he => (hof e he).isOther)⟩
  | spawned machineId specJson actor hspec hnone hlookup hactor =>
    refine ⟨_, rfl, ?_, ?_⟩
    · rintro ⟨e, hmem, hline⟩
      simp only [List.mem_cons, List.not_mem_nil, or_false] at hmem
      obtain rfl | rfl := hmem
      · cases hline
      · cases hline
    · rintro machineId' e hmem ⟨actorType, nodeId, rfl⟩
      simp only [List.mem_cons, List.not_mem_nil, or_false, reduceCtorEq, false_or,
        Event.actorSpawned.injEq] at hmem
      obtain ⟨-, rfl, -⟩ := hmem
      refine ⟨?_, hnone, ?_, hlookup⟩
      · rintro e he ⟨id, owner, isLocal, rfl⟩
        simp at he
      · rw [World.manage_toManaging, Managing.mem_actors_addActor]
        exact Or.inl rfl
  | stopped machineId reason lines hlookup hlines =>
    apply World.Logs.stop machineId reason w (w.emit lines) lines rfl
    intro e he
    obtain ⟨previous, new, rfl⟩ := hlines e he
    trivial

namespace Node

/-- What a step of a node logs, unless the coordinator is asked to apply a peer list. -/
theorem Steps.logs {P A : Type} [SerdeJson] [DecidableEq P] [PeerId P] [Multiaddr A]
    {score : Score P} {Valid : String → String → Prop} {s t : Node P A} {l : Label P}
    (hs : s.Sound score Valid) (h : Steps score s l t) (hl : l ≠ .bridgeAsk) :
    ∃ es, World.Logs s.world t.world es := by
  have hsame : ∀ w : World P, w.events = s.world.events → ∃ es, World.Logs s.world w es := by
    intro w hw
    refine ⟨[], World.Logs.of_other ?_ (by simp)⟩
    rw [hw, List.append_nil]
  cases h with
  | commit machineId specJson =>
    obtain ⟨etcd, watch, heq⟩ := commit_frame machineId specJson s
    exact hsame _ (by rw [heq])
  | forwardEvent hw => exact hsame _ (by rw [send_world])
  | listen hn => exact hsame _ (by rw [send_world])
  | sync hsignal => exact hsame _ (by rw [send_world])
  | bridgeAsk hb => exact absurd rfl hl
  | advance hrunning hexec => exact (hs.advance hrunning hexec).logs
  | ask machineId message hm =>
    have hmanaged : World.Managed score Valid False s.world
        (s.world.manage (s.world.ask s.world.now machineId message).2) := .asked machineId message
    exact hmanaged.logs
  | _ => exact hsame _ rfl

theorem Steps.bridgeAsk_cases {P A : Type} [SerdeJson] [DecidableEq P] [PeerId P] [Multiaddr A]
    {score : Score P} {s t : Node P A} (h : Steps score s .bridgeAsk t) :
    ∃ peers, s.bridge = .asking peers ∧ t.world = applyTopology peers s.world := by
  cases h with
  | bridgeAsk hb => exact ⟨_, hb, rfl⟩
  | discover hd => cases hd

/-- A dead coordinator stays dead. -/
theorem Steps.coordinatorAlive {P A : Type} [SerdeJson] [DecidableEq P] [PeerId P] [Multiaddr A]
    {score : Score P} {Valid : String → String → Prop} {s t : Node P A} {l : Label P}
    (hs : s.Sound score Valid) (h : Steps score s l t)
    (halive : t.world.coordinatorAlive = true) : s.world.coordinatorAlive = true := by
  cases h with
  | commit machineId specJson =>
    obtain ⟨etcd, watch, heq⟩ := commit_frame machineId specJson s
    rwa [heq] at halive
  | forwardEvent hw => rwa [send_world] at halive
  | listen hn => rwa [send_world] at halive
  | sync hsignal => rwa [send_world] at halive
  | bridgeAsk hb =>
    unfold applyTopology at halive
    split_ifs at halive with hbefore
    · exact hbefore
    · exact absurd halive hbefore
  | advance hrunning hexec => exact (hs.advance hrunning hexec).frame.2.2 halive
  | _ => exact halive

/-- The coordinator logs the peer list that it applies. -/
theorem applyTopology_events {P : Type} [PeerId P] (peers : List P) (w : World P) :
    ∃ es, (applyTopology peers w).events = w.events ++ es ∧
      ∀ e ∈ es, e.isTopologyChange = true := by
  unfold applyTopology
  split_ifs
  · refine ⟨_, rfl, ?_⟩
    intro e he
    obtain rfl := List.mem_singleton.mp he
    rfl
  · exact ⟨[], by simp, by simp⟩

theorem applyTopology_topologized {P : Type} [PeerId P] (peers : List P) (w : World P) :
    (applyTopology peers w).Topologized := by
  unfold applyTopology
  split_ifs with halive
  · exact fun _ => ⟨_, List.mem_append_right _ List.mem_cons_self, rfl⟩
  · exact fun h => absurd h halive

theorem Steps.topologized {P A : Type} [SerdeJson] [DecidableEq P] [PeerId P] [Multiaddr A]
    {score : Score P} {Valid : String → String → Prop} {s t : Node P A} {l : Label P}
    (hs : s.Sound score Valid) (h : Steps score s l t) (hw : s.world.Topologized) :
    t.world.Topologized := by
  by_cases hl : l = .bridgeAsk
  · subst hl
    obtain ⟨peers, -, heq⟩ := h.bridgeAsk_cases
    rw [heq]
    exact applyTopology_topologized peers s.world
  · obtain ⟨es, hlogs⟩ := h.logs hs hl
    intro halive
    rw [hlogs.events]
    exact (hw (h.coordinatorAlive hs halive)).append es

theorem Disturbed.of_send {P A : Type} {s : Node P A} {message : ManagerMessage}
    (hne : message ≠ .rebalanceActors) (h : (s.send message).Disturbed) : s.Disturbed := by
  unfold send at h
  split_ifs at h
  · obtain hbridge | hnotices | hmailbox := h
    · exact Or.inl hbridge
    · exact Or.inr (Or.inl hnotices)
    · obtain hin | hin := List.mem_append.mp hmailbox
      · exact Or.inr (Or.inr hin)
      · exact absurd (List.mem_singleton.mp hin).symm hne
  · exact h

/-- A rebalance is due only after a list has been applied. -/
theorem Steps.disturbed {P A : Type} [SerdeJson] [DecidableEq P] [PeerId P] [Multiaddr A]
    {score : Score P} {Valid : String → String → Prop} {s t : Node P A} {l : Label P}
    (hs : s.Sound score Valid) (h : Steps score s l t)
    (hprompted : s.Disturbed → s.world.Topologized) (ht : t.Disturbed) :
    t.world.Topologized := by
  have hbefore : s.Disturbed → t.world.Topologized :=
    fun hdisturbed => h.topologized hs (hprompted hdisturbed)
  cases h with
  | commit machineId specJson =>
    obtain ⟨etcd, watch, heq⟩ := commit_frame machineId specJson s
    rw [heq] at ht
    exact hbefore ht
  | @forwardEvent c pending hw =>
    apply hbefore
    have hne : changeMessage c ≠ .rebalanceActors := by
      unfold changeMessage
      cases c.value <;> simp
    have hrest : ({ s with watch := some pending } : Node P A).Disturbed := ht.of_send hne
    exact hrest
  | listen hn => exact hbefore (Or.inr (Or.inl hn))
  | sync hsignal =>
    apply hbefore
    have hne : ManagerMessage.syncAllMachines ≠ .rebalanceActors := by simp
    exact Disturbed.of_send hne ht
  | @bridgeAsk peers hb => exact applyTopology_topologized peers s.world
  | bridgeNotify hb => exact hbefore (Or.inl hb)
  | handle hrunning hmailbox =>
    apply hbefore
    obtain hbridge | hnotices | hin := ht
    · exact Or.inl hbridge
    · exact Or.inr (Or.inl hnotices)
    · refine Or.inr (Or.inr ?_)
      rw [hmailbox]
      exact List.mem_cons_of_mem _ hin
  | panic =>
    apply hbefore
    obtain hbridge | hnotices | hin := ht
    · exact Or.inl hbridge
    · exact Or.inr (Or.inl hnotices)
    · cases hin
  | bridgeReceive hb hpeers =>
    apply hbefore
    obtain hbridge | hrest := ht
    · cases hbridge
    · exact Or.inr hrest
  | _ => exact hbefore ht

/-- The running handler spawns machines found local while its lookups may be made. -/
def Finds {P A : Type} [SerdeJson] [DecidableEq P] [PeerId P] (score : Score P)
    (s : Node P A) : Prop :=
  ∀ message program, s.running = some (message, program) →
    Safe (World.bootstrapSetting score message.MayFind) (fun _ _ => True) program s.world

/-- Lookups are made only when they may. -/
def LooksUp {P A : Type} [SerdeJson] (s : Node P A) : Label P → Prop
  | .advance =>
    match s.running with
    | some (message, .step (.lookupMachine machineId) _) => message.MayFind machineId s.world
    | _ => True
  | _ => True

instance {P A : Type} [SerdeJson] (s : Node P A) (l : Label P) : Decidable (s.LooksUp l) :=
  match l with
  | .advance =>
    match h : s.running with
    | some (message, .step (.lookupMachine machineId) _) =>
      decidable_of_iff (message.MayFind machineId s.world) (by simp only [LooksUp, h])
    | some (_, .step .read _) | some (_, .step (.modify _) _) | some (_, .step (.getPrefix _) _)
    | some (_, .done _) | none => isTrue (by simp only [LooksUp, h])
  | .commit .. | .openWatch | .forwardEvent | .loseWatch | .startConverge _ | .convergeKv
  | .convergeDone _ | .signalConvergence | .watchResponse _ | .processEvent _ | .stopDiscovery
  | .bridgeReceive | .bridgeAsk | .bridgeNotify | .listen | .sync | .handle _ | .finish | .ask ..
  | .tick _ => isTrue trivial

theorem Finds.frame {P A : Type} [SerdeJson] [DecidableEq P] [PeerId P] {score : Score P}
    {s t : Node P A} (hs : s.Finds score)
    (hrunning : ∀ task, t.running = some task → s.running = some task)
    (hworld : World.Prolongs s.world t.world) : t.Finds score :=
  fun message program hrun => (hs message program (hrunning _ hrun)).interfere hworld

/-- An operation that may be made spawns machines found local. -/
theorem Finds.advance {P A : Type} [SerdeJson] [DecidableEq P] [PeerId P] {score : Score P}
    {s : Node P A} (hs : s.Finds score) (hl : s.LooksUp .advance) {message : ManagerMessage}
    {op : Op P} {next : op.Ret → Program P ManagerReply} {result : op.Ret} {world : World P}
    (hrunning : s.running = some (message, .step op next))
    (hexec : World.exec score op s.world = some (result, world)) :
    World.SpawnsFound s.world world ∧
      Safe (World.bootstrapSetting score message.MayFind) (fun _ _ => True) (next result)
        world := by
  have hguarded : (World.bootstrapSetting score message.MayFind).exec op s.world =
      some (result, world) := by
    cases op with
    | lookupMachine machineId =>
      have hmay : message.MayFind machineId s.world := by
        simpa only [LooksUp, hrunning] using hl
      exact (if_pos hmay).trans hexec
    | read => exact hexec
    | modify f => exact hexec
    | getPrefix start => exact hexec
  exact (hs message _ hrunning).advance hguarded

theorem Finds.step {P A : Type} [SerdeJson] [DecidableEq P] [PeerId P] [Multiaddr A]
    {score : Score P} {s t : Node P A} {l : Label P} (hs : s.Finds score) (hl : s.LooksUp l)
    (hprompted : s.Disturbed → s.world.Topologized) (h : Steps score s l t) : t.Finds score := by
  have hsame := World.Prolongs.refl s.world
  cases h with
  | commit machineId specJson =>
    obtain ⟨etcd, watch, heq⟩ := commit_frame machineId specJson s
    rw [heq]
    exact hs.frame (fun _ h => h) ⟨rfl, ⟨[], by simp⟩, id⟩
  | forwardEvent hw => exact hs.frame (by simp) (by rw [send_world]; exact hsame)
  | listen hn => exact hs.frame (by simp) (by rw [send_world]; exact hsame)
  | sync hsignal => exact hs.frame (by simp) (by rw [send_world]; exact hsame)
  | @bridgeAsk peers hb =>
    obtain ⟨-, -, hspecs, -, ⟨es, hes, -⟩, -⟩ :=
      interferes_topology (fun _ _ => True) peers s.world
    refine hs.frame (fun _ h => h) ⟨hspecs, ⟨es, hes⟩, ?_⟩
    unfold applyTopology
    split_ifs <;> exact id
  | @handle machineIds message mailbox hrunning hmailbox halive hkeys =>
    intro m program hrun
    obtain ⟨rfl, rfl⟩ := Prod.mk.inj (Option.some.inj hrun)
    apply message.handler_found score machineIds s.world
    rintro rfl
    refine hprompted (Or.inr (Or.inr ?_))
    rw [hmailbox]
    exact List.mem_cons_self
  | advance hrunning hexec =>
    intro m program hrun
    obtain ⟨rfl, rfl⟩ := Prod.mk.inj (Option.some.inj hrun)
    exact (hs.advance hl hrunning hexec).2
  | panic => exact hs.frame (by simp) hsame
  | finish listenerAsking hrunning => exact hs.frame (by simp) hsame
  | ask machineId message hm =>
    obtain ⟨-, -, hspecs, -, ⟨es, hes, -⟩, -⟩ :=
      interferes_ask (fun _ _ => True) machineId message s.world
    exact hs.frame (fun _ h => h) ⟨hspecs, ⟨es, hes⟩, id⟩
  | tick now => exact hs.frame (fun _ h => h) ⟨rfl, ⟨[], by simp⟩, id⟩
  | _ => exact hs.frame (fun _ h => h) hsame

/-- Every step spawns machines found local. -/
theorem Finds.spawnsFound {P A : Type} [SerdeJson] [DecidableEq P] [PeerId P] [Multiaddr A]
    {score : Score P} {s t : Node P A} {l : Label P} (hs : s.Finds score) (hl : s.LooksUp l)
    (h : Steps score s l t) : World.SpawnsFound s.world t.world := by
  have hsame : World.SpawnsFound s.world s.world := fun _ hid => Or.inl hid
  cases h with
  | commit machineId specJson =>
    obtain ⟨etcd, watch, heq⟩ := commit_frame machineId specJson s
    rw [heq]
    exact hsame
  | forwardEvent hw =>
    rw [send_world]
    exact hsame
  | listen hn =>
    rw [send_world]
    exact hsame
  | sync hsignal =>
    rw [send_world]
    exact hsame
  | @bridgeAsk peers hb =>
    intro id hid
    exact Or.inl (((interferes_topology (fun _ _ => True) peers s.world).actors id).mp hid)
  | advance hrunning hexec => exact (hs.advance hl hrunning hexec).1
  | ask machineId message hm =>
    intro id hid
    exact Or.inl ((Managing.mem_actors_ask ..).mp hid)
  | _ => exact hsame

end Node

/-- A node with the peer list that converge has sent, and how long the log was when
the coordinator applied that list. -/
structure Booting (P A : Type) where
  node : Node P A
  converged : Option (List P)
  appliedAt : Option ℕ

namespace Booting
open Node

def start {P A : Type} [PeerId P] (clusterId : String) (localPeerId : P) (localAddr : A)
    (logDebug : Bool) (nodeId : String) (etcd : Etcd) (now : ℤ) : Option (Booting P A) :=
  (Node.start clusterId localPeerId localAddr logDebug nodeId etcd now).map
    (fun node => ⟨node, none, none⟩)

/-- The coordinator is asked for the first time to apply the list that converge sent. -/
def AppliesConverged {P A : Type} (s : Booting P A) : Prop :=
  s.appliedAt = none ∧ s.node.world.coordinatorAlive = true ∧
    ∃ peers ∈ s.converged, s.node.bridge = .asking peers

instance {P A : Type} [DecidableEq P] (s : Booting P A) : Decidable s.AppliesConverged :=
  inferInstanceAs (Decidable (_ ∧ _ ∧ ∃ peers ∈ s.converged, s.node.bridge = .asking peers))

def convergedBy {P A : Type} (s : Booting P A) : Label P → Option (List P)
  | .convergeDone peers => some peers
  | _ => s.converged

def appliedBy {P A : Type} [DecidableEq P] (s : Booting P A) : Label P → Option ℕ
  | .bridgeAsk => if s.AppliesConverged then some s.node.world.events.length else s.appliedAt
  | _ => s.appliedAt

def step {P A : Type} [SerdeJson] [DecidableEq P] [PeerId P] [Multiaddr A] (score : Score P)
    (s : Booting P A) (l : Label P) : Option (Booting P A) :=
  (s.node.step score l).map (fun node => ⟨node, s.convergedBy l, s.appliedBy l⟩)

/-- The last lookup of a machine found it local, and was answered after the coordinator
had applied the list that converge sent. -/
def LookedUpConverged {P A : Type} (s : Booting P A) (before : List Event) (machineId : String) :
    Prop :=
  ∃ k, s.appliedAt = some k ∧ ∃ es owner es',
    before = es ++ Event.machineLookup machineId owner true :: es' ∧ k < es.length ∧
    ∀ owner' isLocal', .machineLookup machineId owner' isLocal' ∉ es'

/-- Each actor was spawned on such a lookup. -/
def SpawnsConverged {P A : Type} (s : Booting P A) : Prop :=
  ∀ before actorType machineId nodeId after,
    s.node.world.events = before ++ Event.actorSpawned actorType machineId nodeId :: after →
    s.LookedUpConverged before machineId

/-- A lookup for a put or for the initial sync is made only after the coordinator has
applied a list, unless no actor can come of it. -/
def LooksUpConverged {P A : Type} [SerdeJson] (s : Booting P A) (l : Label P) : Prop :=
  s.node.LooksUp l

instance {P A : Type} [SerdeJson] (s : Booting P A) (l : Label P) :
    Decidable (s.LooksUpConverged l) := inferInstanceAs (Decidable (s.node.LooksUp l))

/-- No list has been sent, or the list of converge is the first on its way. -/
def Queued {P A : Type} (s : Booting P A) : Prop :=
  match s.node.stage with
  | .registering | .converging _ => s.converged = none ∧ s.node.undelivered = []
  | .converged | .maintenance _ =>
    ∃ peers rest, s.converged = some peers ∧ s.node.undelivered = peers :: rest
  | .stopped | .failed => s.node.undelivered.head? = s.converged

/-- The first list that was applied is that of converge. -/
structure FirstApplied {P A : Type} (s : Booting P A) : Prop where
  notYet : s.appliedAt = none → ¬TopologyApplied s.node.world.events
  since : ∀ k, s.appliedAt = some k → TopologyApplied s.node.world.events ∧
    ¬TopologyApplied (s.node.world.events.take k)

/-- What holds in every state that is reached while lookups are made late enough. -/
structure Boots {P A : Type} [SerdeJson] [DecidableEq P] [PeerId P] (score : Score P)
    (s : Booting P A) : Prop where
  sound : s.node.Sound score (fun _ _ => True)
  finds : s.node.Finds score
  prompted : s.node.Disturbed → s.node.world.Topologized
  queued : s.appliedAt = none → s.node.world.coordinatorAlive = true → s.Queued
  first : s.FirstApplied
  spawns : s.SpawnsConverged

theorem Queued.congr {P A : Type} {s t : Booting P A} (hs : s.Queued)
    (hstage : t.node.stage = s.node.stage) (hconverged : t.converged = s.converged)
    (hlists : t.node.undelivered = s.node.undelivered) : t.Queued := by
  unfold Queued at hs ⊢
  rw [hstage, hconverged, hlists]
  exact hs

/-- The list that the coordinator is asked to apply is that of converge. -/
theorem Queued.asking {P A : Type} {s : Booting P A} (hs : s.Queued) {peers : List P}
    (hbridge : s.node.bridge = .asking peers) : s.converged = some peers := by
  have hlists : s.node.undelivered = peers :: s.node.phases.shardingTx := by
    unfold undelivered
    rw [hbridge]
  unfold Queued at hs
  rw [hlists] at hs
  cases hstage : s.node.stage with
  | registering => simp [hstage] at hs
  | converging kvs => simp [hstage] at hs
  | converged =>
    simp only [hstage] at hs
    obtain ⟨peers', rest, hconverged, hcons⟩ := hs
    rw [hconverged, (List.cons.inj hcons).1]
  | maintenance events =>
    simp only [hstage] at hs
    obtain ⟨peers', rest, hconverged, hcons⟩ := hs
    rw [hconverged, (List.cons.inj hcons).1]
  | stopped =>
    simp only [hstage] at hs
    exact hs.symm
  | failed =>
    simp only [hstage] at hs
    exact hs.symm

/-- A pair of the snapshot sends no peer list. -/
theorem convergeKv_shardingTx {P A : Type} [SerdeJson] [DecidableEq P] [PeerId P] [Multiaddr A]
    {kv : KeyValue} {phases next : DiscoveryPhases P A} (h : phases.convergeKv kv = .ok next) :
    next.shardingTx = phases.shardingTx := by
  unfold DiscoveryPhases.convergeKv at h
  split at h
  · split at h
    · obtain rfl := DiscoveryPhases.debugPeer_eq_ok h
      rfl
    · obtain rfl := Outcome.ok.inj h
      rfl
  · cases h

/-- The first list that discovery sends is that of converge. -/
theorem Queued.discover {P A : Type} [SerdeJson] [DecidableEq P] [PeerId P] [Multiaddr A]
    {s t : Booting P A} {l : Label P} {phases : DiscoveryPhases P A} {stage : DiscoveryStage}
    {signal : Bool} (hs : s.Queued) (h : Discovers s.node l phases stage signal)
    (hto : t.node.stage = stage) (hphases : t.node.phases = phases)
    (hbridge : t.node.bridge = s.node.bridge) (hconverged : t.converged = s.convergedBy l) :
    t.Queued := by
  -- What is on its way grows by what discovery sends.
  have hgrows : ∀ sent, phases.shardingTx = s.node.phases.shardingTx ++ sent →
      t.node.undelivered = s.node.undelivered ++ sent := by
    intro sent hsent
    unfold undelivered
    rw [hbridge, hphases, hsent]
    cases s.node.bridge <;> rfl
  have hkeeps : phases.shardingTx = s.node.phases.shardingTx →
      t.node.undelivered = s.node.undelivered := by
    intro hsent
    have hnil := hgrows [] (by rw [hsent, List.append_nil])
    rwa [List.append_nil] at hnil
  unfold Queued at hs ⊢
  rw [hto, hconverged]
  cases h with
  | startConverge kvs hstage =>
    rw [hkeeps rfl]
    simp only [hstage] at hs
    exact hs
  | convergeKv hstage hkv =>
    rw [hkeeps (convergeKv_shardingTx hkv)]
    simp only [hstage] at hs
    exact hs
  | convergeError hstage hkv =>
    have hsame := DiscoveryPhases.convergeKv_error hkv
    rw [hkeeps (by rw [hsame])]
    simp only [hstage] at hs
    rw [hs.2]
    exact hs.1.symm
  | convergePanic hstage =>
    rw [hkeeps rfl]
    simp only [hstage] at hs
    rw [hs.2]
    exact hs.1.symm
  | convergeDone peers hstage hpeers =>
    simp only [hstage] at hs
    refine ⟨peers, [], rfl, ?_⟩
    rw [hgrows [peers] rfl, hs.2, List.nil_append]
  | signalConvergence hstage =>
    rw [hkeeps rfl]
    simp only [hstage] at hs
    exact hs
  | watchResponse events hstage =>
    rw [hkeeps rfl]
    simp only [hstage] at hs
    exact hs
  | @processEvent peers event events phases hstage hevent hpeers =>
    simp only [hstage] at hs
    obtain ⟨first, rest, hfirst, hlists⟩ := hs
    obtain rfl | ⟨-, hsent⟩ := DiscoveryPhases.processEvent_sends hevent
    · exact ⟨first, rest, hfirst, (hkeeps rfl).trans hlists⟩
    · refine ⟨first, rest ++ [peers], hfirst, ?_⟩
      rw [hgrows [peers] hsent, hlists, List.cons_append]
  | eventError hstage hevent =>
    have hsame := DiscoveryPhases.processEvent_error hevent
    rw [hkeeps (by rw [hsame])]
    simp only [hstage] at hs
    exact hs
  | eventPanic hstage =>
    simp only [hstage] at hs
    obtain ⟨first, rest, hfirst, hlists⟩ := hs
    show t.node.undelivered.head? = s.converged
    rw [hkeeps rfl, hlists, hfirst, List.head?_cons]
  | stopDiscovery hstage =>
    show t.node.undelivered.head? = s.converged
    rw [hkeeps rfl]
    obtain hstage | hstage | hstage := hstage
    · simp only [hstage] at hs
      rw [hs.1, hs.2, List.head?_nil]
    · simp only [hstage] at hs
      obtain ⟨first, rest, hfirst, hlists⟩ := hs
      rw [hlists, hfirst, List.head?_cons]
    · simp only [hstage] at hs
      obtain ⟨first, rest, hfirst, hlists⟩ := hs
      rw [hlists, hfirst, List.head?_cons]

theorem undelivered_send {P A : Type} (message : ManagerMessage) (s : Node P A) :
    (s.send message).undelivered = s.undelivered := by
  unfold send
  split_ifs <;> rfl

theorem stage_send {P A : Type} (message : ManagerMessage) (s : Node P A) :
    (s.send message).stage = s.stage := by
  unfold send
  split_ifs <;> rfl

/-- The other tasks leave the lists in their order. -/
theorem Queued.step {P A : Type} [SerdeJson] [DecidableEq P] [PeerId P] [Multiaddr A]
    {score : Score P} {s : Booting P A} {node : Node P A} {l : Label P} (hs : s.Queued)
    (h : Steps score s.node l node) (hl : l ≠ .bridgeAsk) :
    (⟨node, s.convergedBy l, s.appliedBy l⟩ : Booting P A).Queued := by
  cases h with
  | commit machineId specJson =>
    obtain ⟨etcd, watch, heq⟩ := commit_frame machineId specJson s.node
    rw [heq]
    exact hs.congr rfl rfl rfl
  | forwardEvent hw => exact hs.congr (stage_send ..) rfl (undelivered_send ..)
  | listen hn => exact hs.congr (stage_send ..) rfl (undelivered_send ..)
  | sync hsignal => exact hs.congr (stage_send ..) rfl (undelivered_send ..)
  | discover hd => exact hs.discover hd rfl rfl rfl rfl
  | bridgeAsk hb => exact absurd rfl hl
  | bridgeReceive hb hpeers =>
    refine hs.congr rfl rfl ?_
    unfold undelivered
    rw [hb, hpeers]
  | bridgeNotify hb =>
    refine hs.congr rfl rfl ?_
    unfold undelivered
    rw [hb]
  | _ => exact hs.congr rfl rfl rfl

theorem step_cases {P A : Type} [SerdeJson] [DecidableEq P] [PeerId P] [Multiaddr A]
    {score : Score P} {s t : Booting P A} {l : Label P} (h : s.step score l = some t) :
    ∃ node, Steps score s.node l node ∧ t = ⟨node, s.convergedBy l, s.appliedBy l⟩ := by
  obtain ⟨node, hnode, rfl⟩ := Option.map_eq_some_iff.mp h
  exact ⟨node, Node.step_cases hnode, rfl⟩

theorem appliedBy_of_ne {P A : Type} [DecidableEq P] {s : Booting P A} {l : Label P}
    (hl : l ≠ .bridgeAsk) : s.appliedBy l = s.appliedAt := by
  cases l with
  | bridgeAsk => exact absurd rfl hl
  | _ => rfl

/-- The place of the first applied list does not change. -/
theorem appliedBy_of_some {P A : Type} [DecidableEq P] {s : Booting P A} {k : ℕ}
    (h : s.appliedAt = some k) (l : Label P) : s.appliedBy l = some k := by
  by_cases hl : l = .bridgeAsk
  · subst hl
    have hnot : ¬s.AppliesConverged := by
      rintro ⟨hnone, -⟩
      rw [h] at hnone
      cases hnone
    exact (if_neg hnot).trans h
  · rw [appliedBy_of_ne hl, h]

/-- Lines that are no applied list leave the place of the first one. -/
theorem FirstApplied.append {P A : Type} {s t : Booting P A} (hs : s.FirstApplied)
    (happlied : t.appliedAt = s.appliedAt) {es : List Event}
    (hevents : t.node.world.events = s.node.world.events ++ es)
    (hes : TopologyApplied es → s.appliedAt ≠ none) : t.FirstApplied := by
  constructor
  · intro hnone
    rw [happlied] at hnone
    rw [hevents, topologyApplied_append]
    rintro (hbefore | hnew)
    · exact hs.notYet hnone hbefore
    · exact hes hnew hnone
  · intro k hk
    rw [happlied] at hk
    obtain ⟨hin, hout⟩ := hs.since k hk
    have hall : ¬TopologyApplied ((s.node.world.events ++ []).take k) := by
      rwa [List.append_nil]
    have hlt : k < s.node.world.events.length := hin.lt_length hall
    rw [hevents, List.take_append_of_le_length (by omega)]
    exact ⟨hin.append es, hout⟩

/-- The coordinator applies a peer list. -/
theorem FirstApplied.bridgeAsk {P A : Type} [DecidableEq P] [PeerId P] {s t : Booting P A}
    (hs : s.FirstApplied) {peers : List P}
    (hqueued : s.appliedAt = none → s.node.world.coordinatorAlive = true → s.Queued)
    (hbridge : s.node.bridge = .asking peers)
    (hworld : t.node.world = applyTopology peers s.node.world)
    (happlied : t.appliedAt = s.appliedBy .bridgeAsk) : t.FirstApplied := by
  by_cases halive : s.node.world.coordinatorAlive = true
  · have hevents : ∃ previous new, t.node.world.events =
        s.node.world.events ++ [.topologyChange previous new] := by
      rw [hworld, applyTopology, if_pos halive]
      exact ⟨_, _, rfl⟩
    obtain ⟨previous, new, hevents⟩ := hevents
    cases hfirst : s.appliedAt with
    | none =>
      -- The list is that of converge, and the log has no other before it.
      have hconverged := (hqueued hfirst halive).asking hbridge
      have happlies : s.AppliesConverged := ⟨hfirst, halive, peers, hconverged, hbridge⟩
      have hlength : t.appliedAt = some s.node.world.events.length :=
        happlied.trans (if_pos happlies)
      constructor
      · intro hnone
        rw [hlength] at hnone
        cases hnone
      · intro k hk
        obtain rfl := Option.some.inj (hlength.symm.trans hk)
        rw [hevents, List.take_left]
        refine ⟨?_, hs.notYet hfirst⟩
        exact ⟨_, List.mem_append_right _ List.mem_cons_self, rfl⟩
    | some k =>
      refine hs.append ?_ hevents (fun _ => by simp [hfirst])
      rw [happlied, appliedBy_of_some hfirst, hfirst]
  · have hnot : ¬s.AppliesConverged := fun h => halive h.2.1
    have hevents : t.node.world.events = s.node.world.events ++ [] := by
      rw [hworld, applyTopology, if_neg halive, List.append_nil]
    apply hs.append (happlied.trans (if_neg hnot)) hevents
    rintro ⟨e, hmem, -⟩
    cases hmem

theorem LookedUpConverged.keeps {P A : Type} {s t : Booting P A}
    (happlied : ∀ k, s.appliedAt = some k → t.appliedAt = some k) {before : List Event}
    {machineId : String} (h : s.LookedUpConverged before machineId) :
    t.LookedUpConverged before machineId := by
  obtain ⟨k, hk, hlookup⟩ := h
  exact ⟨k, happlied k hk, hlookup⟩

/-- New lines that spawn only on such lookups. -/
theorem SpawnsConverged.append {P A : Type} {s t : Booting P A} (hs : s.SpawnsConverged)
    (happlied : ∀ k, s.appliedAt = some k → t.appliedAt = some k) {es : List Event}
    (hevents : t.node.world.events = s.node.world.events ++ es)
    (hes : ∀ before actorType machineId nodeId after,
      es = before ++ Event.actorSpawned actorType machineId nodeId :: after →
      t.LookedUpConverged (s.node.world.events ++ before) machineId) : t.SpawnsConverged := by
  intro before actorType machineId nodeId after hsplit
  rw [hevents] at hsplit
  obtain ⟨new, hbefore, hnew⟩ | ⟨old, hold, htail⟩ := List.append_eq_append_iff.mp hsplit
  · rw [hbefore]
    exact hes new actorType machineId nodeId after hnew
  · cases old with
    | nil =>
      rw [List.append_nil] at hold
      have hempty : t.LookedUpConverged (s.node.world.events ++ []) machineId :=
        hes [] actorType machineId nodeId after htail.symm
      rwa [List.append_nil, hold] at hempty
    | cons e old =>
      obtain ⟨rfl, -⟩ := List.cons.inj htail
      exact (hs before actorType machineId nodeId old hold).keeps happlied

/-- An actor is spawned of a machine that was found local late enough. -/
theorem LookedUpConverged.of_spawn {P A : Type} {s t : Booting P A} (hfirst : s.FirstApplied)
    (happlied : ∀ k, s.appliedAt = some k → t.appliedAt = some k) {machineId : String}
    (hfound : FoundLocal s.node.world.events machineId)
    (hlast : LastLookup s.node.world.events machineId true) {new : List Event}
    (hnew : ∀ e ∈ new, ¬e.IsLookup) :
    t.LookedUpConverged (s.node.world.events ++ new) machineId := by
  obtain ⟨es, owner, es', heq, hes, hafter⟩ := hfound.last hlast
  cases hk : s.appliedAt with
  | none =>
    have hnot := hfirst.notYet hk
    rw [heq] at hnot
    exact absurd (hes.append _) hnot
  | some k =>
    obtain ⟨-, hout⟩ := hfirst.since k hk
    rw [heq] at hout
    refine ⟨k, happlied k hk, es, owner, es' ++ new, ?_, hes.lt_length hout, ?_⟩
    · rw [heq, List.append_assoc, List.cons_append]
    · intro owner' isLocal' hin
      obtain hin | hin := List.mem_append.mp hin
      · exact hafter owner' isLocal' hin
      · exact hnew _ hin ⟨machineId, owner', isLocal', rfl⟩

/-- A step that makes its lookup late enough. -/
theorem Boots.step {P A : Type} [SerdeJson] [DecidableEq P] [PeerId P] [Multiaddr A]
    {score : Score P} {s t : Booting P A} {l : Label P} (hs : s.Boots score)
    (hl : s.LooksUpConverged l) (h : s.step score l = some t) : t.Boots score := by
  obtain ⟨node, hnode, rfl⟩ := step_cases h
  have happlied : ∀ k, s.appliedAt = some k → s.appliedBy l = some k :=
    fun k hk => appliedBy_of_some hk l
  have hsound := (hs.sound.step (specsSatisfy_true s.node l) hnode).1
  have hfinds := hs.finds.step hl hs.prompted hnode
  have hprompted := hnode.disturbed hs.sound hs.prompted
  by_cases hask : l = .bridgeAsk
  · subst hask
    obtain ⟨peers, hbridge, hworld⟩ := hnode.bridgeAsk_cases
    refine ⟨hsound, hfinds, hprompted, ?_, hs.first.bridgeAsk hs.queued hbridge hworld rfl, ?_⟩
    · -- A living coordinator has now applied the list of converge.
      intro hnone halive
      have hbefore := hnode.coordinatorAlive hs.sound halive
      cases hk : s.appliedAt with
      | none =>
        have happlies : s.AppliesConverged :=
          ⟨hk, hbefore, peers, (hs.queued hk hbefore).asking hbridge, hbridge⟩
        rw [appliedBy, if_pos happlies] at hnone
        cases hnone
      | some k =>
        rw [happlied k hk] at hnone
        cases hnone
    · obtain ⟨es, hevents, hlines⟩ := applyTopology_events peers s.node.world
      rw [← hworld] at hevents
      apply hs.spawns.append happlied hevents
      rintro before actorType machineId nodeId after rfl
      have hline := hlines _ (List.mem_append_right before List.mem_cons_self)
      cases hline
  · have hkept : s.appliedBy l = s.appliedAt := appliedBy_of_ne hask
    obtain ⟨es, hes⟩ := hnode.logs hs.sound hask
    refine ⟨hsound, hfinds, hprompted, ?_, ?_, ?_⟩
    · intro hnone halive
      rw [hkept] at hnone
      exact (hs.queued hnone (hnode.coordinatorAlive hs.sound halive)).step hnode hask
    · exact hs.first.append hkept hes.events (fun h => absurd h hes.quiet)
    · apply hs.spawns.append happlied hes.events
      rintro before actorType machineId nodeId after rfl
      obtain ⟨hnew, hout, hin, hlast⟩ := hes.spawns machineId _
        (List.mem_append_right before List.mem_cons_self) ⟨actorType, nodeId, rfl⟩
      have hfound := (hs.finds.spawnsFound hl hnode machineId hin).resolve_left hout
      apply LookedUpConverged.of_spawn hs.first happlied hfound hlast
      exact fun e he => hnew e (List.mem_append_left _ he)

theorem boots_start {P A : Type} [SerdeJson] [DecidableEq P] [PeerId P] (score : Score P)
    {clusterId : String} {localPeerId : P} {localAddr : A} {logDebug : Bool} {nodeId : String}
    {etcd : Etcd} {now : ℤ} {s : Booting P A}
    (h : start clusterId localPeerId localAddr logDebug nodeId etcd now = some s) :
    s.Boots score := by
  obtain ⟨node, hnode, rfl⟩ := Option.map_eq_some_iff.mp h
  have hsound := sound_start score (fun _ _ => True) (fun _ _ _ => trivial) hnode
  obtain ⟨coordinator, -, rfl⟩ := Option.map_eq_some_iff.mp hnode
  refine ⟨hsound, ?_, ?_, fun _ _ => ⟨rfl, rfl⟩, ⟨?_, ?_⟩, ?_⟩
  · intro message program hrun
    cases hrun
  · rintro (hbridge | hnotices | hmailbox)
    · cases hbridge
    · cases hnotices
    · cases hmailbox
  · rintro - ⟨e, hmem, -⟩
    cases hmem
  · intro k hk
    cases hk
  · intro before actorType machineId nodeId after hsplit
    have hmem : Event.actorSpawned actorType machineId nodeId ∈ ([] : List Event) := by
      rw [show ([] : List Event) = _ from hsplit]
      exact List.mem_append_right before List.mem_cons_self
    cases hmem

/-- In every run whose lookups are made late enough, each actor is spawned on a lookup
that was answered after the coordinator had applied the list that converge sent. -/
theorem spawned_on_converged {P A : Type} [SerdeJson] [DecidableEq P] [PeerId P] [Multiaddr A]
    (score : Score P) (clusterId : String) (localPeerId : P) (localAddr : A) (logDebug : Bool)
    (nodeId : String) (etcd : Etcd) (now : ℤ) (s₀ s : Booting P A) (labels : List (Label P))
    (hstart : start clusterId localPeerId localAddr logDebug nodeId etcd now = some s₀)
    (h : Run (Guarded LooksUpConverged (StepOf (Booting.step score))) s₀ labels s) :
    s.SpawnsConverged := by
  have hboots : s.Boots score := h.invariant (I := fun s => s.Boots score)
    (fun _ _ _ hs hstep => hs.step hstep.1 hstep.2) (boots_start score hstart)
  exact hboots.spawns

/-- The put of a machine reaches the manager after the coordinator has applied the list
that converge sent. -/
theorem spawned_on_converged_put :
    let spec : Json := .object [("adminState", .string "available"), ("cluster", .string "lab")]
    let _ : SerdeJson := SerdeJson.knowing [spec]
    ∃ s : Booting Base58Text Ip4Text, s.SpawnsConverged ∧
      s.node.world.events.getLast? = some (.actorSpawned "MachineActor" "m1" "node-a") := by
  intro spec _
  let a := peerOf "12D3KooWAAAAAAAAAAAAAAAAAAAAAAAAAAAAAAAAAAAAAAAAAAAA"
  let score : Score Base58Text := fun _ _ => 7
  let labels : List (Label Base58Text) := [.startConverge [], .convergeDone [a],
    .signalConvergence, .bridgeReceive, .bridgeAsk, .openWatch, .commit "m1" (some spec.text),
    .forwardEvent, .handle [], .advance, .advance, .advance, .advance]
  obtain ⟨s₀, hstart, s, hrun, hspawned⟩ :
      ∃ s₀ ∈ start "lab" a (Ip4Text.mk "/ip4/10.0.0.1/tcp/5000") false "node-a" ∅ 0,
      ∃ s ∈ labels.foldlM (guardedNext LooksUpConverged (Booting.step score)) s₀,
        s.node.world.events.getLast? = some (.actorSpawned "MachineActor" "m1" "node-a") := by
    decide +kernel
  exact ⟨s, spawned_on_converged score "lab" a _ false "node-a" ∅ 0 s₀ s labels hstart
    (Run.guarded_of_foldlM hrun), hspawned⟩

/-- The put of a machine reaches the manager before the end of convergence. -/
theorem not_spawned_on_converged : ¬∀ [SerdeJson] (score : Score Base58Text) (clusterId : String)
    (localPeerId : Base58Text) (localAddr : Ip4Text) (logDebug : Bool) (nodeId : String)
    (etcd : Etcd) (now : ℤ) (s₀ s : Booting Base58Text Ip4Text)
    (labels : List (Label Base58Text)),
    start clusterId localPeerId localAddr logDebug nodeId etcd now = some s₀ →
      Run (StepOf (Booting.step score)) s₀ labels s → s.SpawnsConverged := by
  intro hclaim
  let spec : Json := .object [("adminState", .string "available"), ("cluster", .string "lab")]
  let _ : SerdeJson := SerdeJson.knowing [spec]
  let a := peerOf "12D3KooWAAAAAAAAAAAAAAAAAAAAAAAAAAAAAAAAAAAAAAAAAAAA"
  let score : Score Base58Text := fun _ _ => 7
  let labels : List (Label Base58Text) := [.openWatch, .commit "m1" (some spec.text),
    .forwardEvent, .handle [], .advance, .advance, .advance, .advance]
  obtain ⟨s₀, hstart, s, hrun, hspawned, hnone⟩ :
      ∃ s₀ ∈ start "lab" a (Ip4Text.mk "/ip4/10.0.0.1/tcp/5000") false "node-a" ∅ 0,
      ∃ s ∈ labels.foldlM (Booting.step score) s₀,
        s.node.world.events.getLast? = some (.actorSpawned "MachineActor" "m1" "node-a") ∧
        s.appliedAt = none := by
    decide +kernel
  obtain ⟨before, hevents⟩ := List.getLast?_eq_some_iff.mp hspawned
  have hspawns := hclaim score "lab" a _ false "node-a" ∅ 0 s₀ s labels hstart
    (Run.of_foldlM hrun)
  obtain ⟨k, hk, -⟩ := hspawns before "MachineActor" "m1" "node-a" [] hevents
  rw [hnone] at hk
  cases hk

end Booting
end Neolaas
