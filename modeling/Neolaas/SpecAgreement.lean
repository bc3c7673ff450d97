import Neolaas.ManagerCache
import Neolaas.ManagerRuns
import Neolaas.ManagerSettles

/-!
# The cached specs and the specs of the actors

A put writes the cache before it looks the machine up. The actor follows if the
lookup is answered and the spec parses, or goes if the machine is another node's.
Otherwise the cache and the actor disagree until the machine is put again.
-/
namespace Neolaas
open ChangeLog AtomicProgram LabelledRuns

/-- Only an update changes the spec of an actor. -/
theorem Acting.handle_spec [SerdeJson] (now : ℤ) (self : Acting) (message : ActorMessage)
    (hne : ∀ specJson, message ≠ .updateMachineSpec specJson) :
    (self.handle now message).2.actor.spec = self.actor.spec := by
  cases message with
  | getMachineStatus => exact initializeActor_spec now self
  | checkOwnership isStillLocal => rfl
  | updateMachineSpec specJson => exact absurd rfl (hne specJson)
  | provisionMachine b config =>
    simp only [handle]
    obtain ⟨-, -, heq⟩ | ⟨-, error, heq⟩ := handleProvisionMachine_cases now b config self
    · rw [heq]
      exact initializeActor_spec now self
    · rw [heq]
      exact initializeActor_spec now self
  | deprovisionMachine b =>
    simp only [handle]
    obtain ⟨-, -, heq⟩ | ⟨error, heq⟩ := handleDeprovisionMachine_cases now b self
    · rw [heq]
      exact initializeActor_spec now self
    · rw [heq]
      exact initializeActor_spec now self

namespace Managing

/-- Asking one actor leaves the others alone. -/
theorem ask_actors_of_ne {P : Type} [SerdeJson] (now : ℤ) {machineId id : String}
    (message : ActorMessage) (m : Managing P) (hid : id ≠ machineId) :
    (m.ask now machineId message).2.manager.actors[id]? = m.manager.actors[id]? := by
  unfold ask
  cases m.manager.actors[machineId]? with
  | none => rfl
  | some actor => simp [Std.ExtTreeMap.getElem?_insert, Ne.symm hid]

/-- Asking anything but an update leaves the specs of all actors alone. -/
theorem ask_actorSpec {P : Type} [SerdeJson] (now : ℤ) (machineId : String)
    {message : ActorMessage} (m : Managing P)
    (hne : ∀ specJson, message ≠ .updateMachineSpec specJson) (id : String) :
    ((m.ask now machineId message).2.manager.actors[id]?).map MachineActor.spec =
      (m.manager.actors[id]?).map MachineActor.spec := by
  by_cases hid : id = machineId
  · unfold ask
    cases hget : m.manager.actors[machineId]? with
    | none => rfl
    | some actor => simp [hid, hget, Acting.handle_spec now ⟨actor, m.events⟩ message hne]
  · rw [ask_actors_of_ne now message m hid]

/-- An update with a text that parses gives the actor its spec. -/
theorem ask_update_spec {P : Type} [SerdeJson] (now : ℤ) {machineId specJson : String}
    {spec : MachineSpec} {m : Managing P} (hspec : MachineSpec.fromStr specJson = some spec)
    (hactor : machineId ∈ m.manager.actors) :
    ((m.ask now machineId (.updateMachineSpec specJson)).2.manager.actors[machineId]?).map
      MachineActor.spec = some spec := by
  obtain ⟨actor, hget⟩ := Option.isSome_iff_exists.mp
    (Std.ExtTreeMap.mem_iff_isSome_getElem?.mp hactor)
  unfold ask
  simp [hget, Acting.handle, Acting.handleUpdateMachineSpec, hspec]

theorem stopMachineActor_actors_of_ne {P : Type} {machineId id : String} (reason : String)
    (m : Managing P) (hid : id ≠ machineId) :
    (m.stopMachineActor machineId reason).manager.actors[id]? = m.manager.actors[id]? := by
  unfold stopMachineActor
  split_ifs
  · simp [Std.ExtTreeMap.getElem?_erase, Ne.symm hid]
  · rfl

theorem addActor_actors {P : Type} (machineId : String) (actor : MachineActor) (m : Managing P)
    (id : String) : (m.addActor machineId actor).manager.actors[id]? =
      if id = machineId then some actor else m.manager.actors[id]? := by
  by_cases hid : id = machineId
  · simp [addActor, hid]
  · simp [addActor, Std.ExtTreeMap.getElem?_insert, hid, Ne.symm hid]

end Managing

/-- An actor has the spec that its text parses to. -/
theorem MachineActor.withNodeId_spec [SerdeJson] {now : ℤ} {machineId specJson nodeId : String}
    {actor : MachineActor}
    (h : MachineActor.withNodeId now machineId specJson nodeId = some actor) :
    MachineSpec.fromStr specJson = some actor.spec := by
  obtain ⟨spec, hspec, rfl⟩ := Option.map_eq_some_iff.mp h
  exact hspec

namespace World

/-- The specs of the actors by machine. -/
def actorSpecs {P : Type} (w : World P) : String → Option MachineSpec :=
  fun machineId => (w.manager.actors[machineId]?).map MachineActor.spec

/-- If the machine has an actor, its spec is what the cached text parses to. -/
def AgreesAt {P : Type} [SerdeJson] (w : World P) (machineId : String) : Prop :=
  ∀ spec, w.actorSpecs machineId = some spec →
    ∃ specJson, w.cached machineId = some specJson ∧ MachineSpec.fromStr specJson = some spec

instance {P : Type} [SerdeJson] (w : World P) (machineId : String) :
    Decidable (w.AgreesAt machineId) :=
  decidable_of_iff (∀ spec ∈ w.actorSpecs machineId, ∃ specJson ∈ w.cached machineId,
    MachineSpec.fromStr specJson = some spec) Iff.rfl

/-- The cached specs and the actors agree. -/
def Agrees {P : Type} [SerdeJson] (w : World P) : Prop := ∀ machineId, w.AgreesAt machineId

theorem actorSpecs_isSome {P : Type} (w : World P) (machineId : String) :
    (w.actorSpecs machineId).isSome = true ↔ machineId ∈ w.manager.actors := by
  unfold actorSpecs
  rw [Option.isSome_map, Std.ExtTreeMap.mem_iff_isSome_getElem?]

theorem AgreesAt.of_not_mem {P : Type} [SerdeJson] {w : World P} {machineId : String}
    (h : machineId ∉ w.manager.actors) : w.AgreesAt machineId := by
  intro spec hspec
  rw [← actorSpecs_isSome, hspec] at h
  exact absurd rfl h

theorem AgreesAt.congr {P : Type} [SerdeJson] {w w' : World P} {machineId : String}
    (h : w.AgreesAt machineId) (hcached : w'.cached machineId = w.cached machineId)
    (hactors : w'.actorSpecs machineId = w.actorSpecs machineId) : w'.AgreesAt machineId := by
  intro spec hspec
  rw [hcached]
  exact h spec (hactors ▸ hspec)

/-- Neither the cached specs nor those of the actors change. -/
structure SameSpecs {P : Type} (w w' : World P) : Prop where
  cached : w'.cached = w.cached
  actors : w'.actorSpecs = w.actorSpecs

theorem SameSpecs.agreesAt {P : Type} [SerdeJson] {w w' : World P} (hr : SameSpecs w w')
    {machineId : String} (h : w.AgreesAt machineId) : w'.AgreesAt machineId :=
  h.congr (congrFun hr.cached machineId) (congrFun hr.actors machineId)

theorem SameSpecs.agrees {P : Type} [SerdeJson] {w w' : World P} (hr : SameSpecs w w')
    (h : w.Agrees) : w'.Agrees := fun machineId => hr.agreesAt (h machineId)

theorem SameSpecs.mem_actors {P : Type} {w w' : World P} (hr : SameSpecs w w')
    (machineId : String) : machineId ∈ w'.manager.actors ↔ machineId ∈ w.manager.actors := by
  rw [← actorSpecs_isSome, ← actorSpecs_isSome, hr.actors]

theorem SameSpecs.of_manager {P : Type} {w w' : World P} (h : w'.manager = w.manager) :
    SameSpecs w w' := by
  constructor
  · unfold World.cached
    rw [h]
  · unfold actorSpecs
    rw [h]

/-- A stopped actor agrees with anything. -/
theorem Agrees.stop {P : Type} [SerdeJson] {w : World P} (h : w.Agrees)
    (machineId reason : String) : (w.manage (w.stopMachineActor machineId reason)).Agrees := by
  intro id
  by_cases hid : id = machineId
  · apply AgreesAt.of_not_mem
    rw [manage_toManaging, Managing.mem_actors_stopMachineActor]
    exact fun hin => hin.1 hid
  · refine (h id).congr ?_ ?_
    · unfold cached
      rw [manage_toManaging, Managing.stopMachineActor_specs]
    · unfold actorSpecs
      rw [manage_toManaging, Managing.stopMachineActor_actors_of_ne _ _ hid]

/-- An actor that is spawned from the cache agrees with it. -/
theorem Agrees.add {P : Type} [SerdeJson] {w : World P} (h : w.Agrees) {now : ℤ}
    {machineId specJson nodeId : String} {actor : MachineActor}
    (hspec : w.cached machineId = some specJson)
    (hactor : MachineActor.withNodeId now machineId specJson nodeId = some actor) :
    (w.manage (w.addActor machineId actor)).Agrees := by
  intro id
  by_cases hid : id = machineId
  · intro spec hget
    unfold actorSpecs at hget
    rw [manage_toManaging, Managing.addActor_actors, if_pos hid] at hget
    obtain rfl := Option.some.inj hget
    refine ⟨specJson, ?_, MachineActor.withNodeId_spec hactor⟩
    rw [hid]
    exact hspec
  · refine (h id).congr rfl ?_
    unfold actorSpecs
    rw [manage_toManaging, Managing.addActor_actors, if_neg hid]

open Classical in
/-- Handlers run while nobody else changes specs, and look up only what they may. -/
noncomputable def agreementSetting {P : Type} [DecidableEq P] [PeerId P] (score : Score P)
    (ok : String → World P → Prop) : Setting (Op P) Op.Ret (World P) where
  exec
    | .lookupMachine machineId => fun w =>
      if ok machineId w then exec score (.lookupMachine machineId) w else none
    | op => exec score op
  rely := SameSpecs
  guar _ _ _ := True
  rely_refl _ := ⟨rfl, rfl⟩
  rely_trans _ _ _ h h' := ⟨h'.cached.trans h.cached, h'.actors.trans h.actors⟩

/-- A put of the machine may look it up: the new spec is no news to the actor, or the
lookup is answered and, if it says that the machine is local, the spec parses. -/
def Followable {P : Type} [SerdeJson] [DecidableEq P] [PeerId P] (score : Score P)
    (machineId : String) (w : World P) : Prop :=
  w.AgreesAt machineId ∨ (((w.askLookup score machineId).1).isSome = true ∧
    (w.coordinator.hasher.isLocal score machineId w.coordinator.localPeerId = true →
      ∃ specJson ∈ w.manager.machineSpecs[machineId]?, Parses machineId specJson))

instance {P : Type} [SerdeJson] [DecidableEq P] [PeerId P] (score : Score P) (machineId : String)
    (w : World P) : Decidable (w.Followable score machineId) :=
  inferInstanceAs (Decidable (_ ∨ (_ ∧ (_ → ∃ specJson ∈ _, Parses machineId specJson))))

end World

namespace Program
open World

section
variable {P : Type} [DecidableEq P] [PeerId P] {score : Score P}
  {ok : String → World P → Prop}

theorem agree_read {α : Type} {Q : α → World P → Prop}
    {f : MachineActorManagerActor P → Program P α} {w : World P}
    (h : ∀ w', SameSpecs w w' → Safe (agreementSetting score ok) Q (f w'.manager) w') :
    Safe (agreementSetting score ok) Q (read >>= f) w :=
  safe_read rfl (fun w' hr => ⟨trivial, h w' hr⟩)

theorem agree_lookupMachine {α : Type} {Q : α → World P → Prop} {machineId : String}
    {f : Option (LookupResult P) → Program P α} {w : World P}
    (h : ∀ w', SameSpecs w w' → ok machineId w' → ∀ result,
      (w'.askLookup score machineId).1 = result → ∀ w'', SameSpecs w' w'' →
      Safe (agreementSetting score ok) Q (f result) w'') :
    Safe (agreementSetting score ok) Q (lookupMachine machineId >>= f) w := by
  apply Safe.perform_bind
  intro w' hr r t he
  simp only [agreementSetting] at he
  split_ifs at he with hok
  obtain ⟨rfl, rfl⟩ := Prod.mk.inj (Option.some.inj he)
  refine ⟨trivial, h w' hr hok _ rfl _ (SameSpecs.of_manager ?_)⟩
  exact (askLookup_frame score machineId w').1

theorem agree_modify_bind {α : Type} {Q : α → World P → Prop}
    {g : ℤ → Managing P → Option (Managing P)} {f : Unit → Program P α} {w : World P}
    (h : ∀ w', SameSpecs w w' → ∀ m, g w'.now w'.toManaging = some m →
      Safe (agreementSetting score ok) Q (f ()) (w'.manage m)) :
    Safe (agreementSetting score ok) Q (modify g >>= f) w :=
  safe_modify_bind rfl (fun w' hr m hm => ⟨trivial, h w' hr m hm⟩)

/-- A change of the manager to what interference keeps. -/
theorem agree_modify_of {Q : World P → Prop} (hstable : ∀ t t', Q t → SameSpecs t t' → Q t')
    {g : ℤ → Managing P → Option (Managing P)} {w : World P}
    (h : ∀ w', SameSpecs w w' → ∀ m, g w'.now w'.toManaging = some m → Q (w'.manage m)) :
    Safe (agreementSetting score ok) (fun _ t => Q t) (modify g) w := by
  apply safe_modify rfl
  intro w' hr m hm
  exact ⟨trivial, fun w'' hr' => hstable _ w'' (h w' hr m hm) hr'⟩

/-- A change of the manager after which the specs agree. -/
theorem agree_modify [SerdeJson] {g : ℤ → Managing P → Option (Managing P)} {w : World P}
    (h : ∀ w', SameSpecs w w' → ∀ m, g w'.now w'.toManaging = some m → (w'.manage m).Agrees) :
    Safe (agreementSetting score ok) (fun _ t => t.Agrees) (modify g) w :=
  agree_modify_of (fun _ _ ht hr => hr.agrees ht) h

theorem agree_pure [SerdeJson] {α : Type} {w : World P} (a : α) (h : w.Agrees) :
    Safe (agreementSetting score ok) (fun _ t => t.Agrees) (pure a : Program P α) w :=
  Safe.pure (fun _ hr => SameSpecs.agrees hr h)

end

/-- A put keeps the specs in agreement when it may look its machine up. -/
theorem handleMachinePut_agrees {P : Type} [SerdeJson] [DecidableEq P] [PeerId P]
    {score : Score P} {ok : String → World P → Prop}
    (hok : ∀ machineId w, ok machineId w → w.Followable score machineId)
    (machineId specJson : String) (w : World P) (h : w.Agrees) :
    Safe (agreementSetting score ok) (fun _ t => t.Agrees)
      (handleMachinePut machineId specJson) w := by
  unfold handleMachinePut
  apply agree_modify_bind
  intro w₁ hr₁ m hm
  obtain rfl := Option.some.inj hm
  -- From here on only the machine itself may disagree, and its new spec is cached.
  have hput : (∀ id, id ≠ machineId →
        (w₁.manage (w₁.cacheSpec machineId specJson)).AgreesAt id) ∧
      (w₁.manage (w₁.cacheSpec machineId specJson)).cached machineId = some specJson := by
    constructor
    · intro id hid
      refine (hr₁.agreesAt (h id)).congr ?_ rfl
      simp [cached, Managing.cacheSpec, Std.ExtTreeMap.getElem?_insert, Ne.symm hid]
    · simp [cached, Managing.cacheSpec]
  generalize w₁.manage (w₁.cacheSpec machineId specJson) = v at hput ⊢
  obtain ⟨hothers, hcached⟩ := hput
  -- It is enough that the machine agrees in the end.
  have hend : ∀ (t : World P) (m : Managing P), SameSpecs v t →
      m.manager.machineSpecs = t.manager.machineSpecs →
      (∀ id, id ≠ machineId → m.manager.actors[id]? = t.manager.actors[id]?) →
      (t.manage m).AgreesAt machineId → (t.manage m).Agrees := by
    intro t m hr hspecs hactors hmachine id
    by_cases hid : id = machineId
    · rw [hid]
      exact hmachine
    · refine (hr.agreesAt (hothers id hid)).congr ?_ ?_
      · unfold cached
        rw [manage_toManaging, hspecs]
      · unfold actorSpecs
        rw [manage_toManaging, hactors id hid]
  apply agree_lookupMachine
  intro w₂ hr₂ hmay result hresult w₃ hr₃
  have hfollow := hok machineId w₂ hmay
  have hr : SameSpecs v w₃ := (agreementSetting score ok).rely_trans _ _ _ hr₂ hr₃
  have hrest : w₃.manage w₃.toManaging = w₃ := rfl
  cases result with
  | none =>
    apply agree_pure
    rw [← hrest]
    apply hend w₃ w₃.toManaging hr rfl (fun _ _ => rfl)
    obtain hagrees | ⟨hanswered, -⟩ := hfollow
    · exact hr₃.agreesAt hagrees
    · rw [hresult] at hanswered
      cases hanswered
  | some result =>
    obtain ⟨-, hlocal, -⟩ := askLookup_some hresult
    apply agree_read
    intro w₄ hr₄
    have hr' : SameSpecs v w₄ := (agreementSetting score ok).rely_trans _ _ _ hr hr₄
    by_cases hown : result.isLocal = true
    · rw [if_pos hown]
      by_cases hactor : w₄.manager.actors.contains machineId = true
      · rw [if_pos hactor]
        apply agree_modify
        intro w₅ hr₅ m hm
        obtain rfl := Option.some.inj hm
        have hin₄ : machineId ∈ w₄.manager.actors := Std.ExtTreeMap.contains_iff_mem.mp hactor
        have hin₅ := (hr₅.mem_actors machineId).mpr hin₄
        have hin₂ := (hr₃.mem_actors machineId).mp ((hr₄.mem_actors machineId).mp hin₄)
        have hr'' : SameSpecs v w₅ := (agreementSetting score ok).rely_trans _ _ _ hr' hr₅
        have hcached₂ : w₂.cached machineId = some specJson :=
          (congrFun hr₂.cached machineId).trans hcached
        obtain ⟨spec, hspec⟩ : ∃ spec, MachineSpec.fromStr specJson = some spec := by
          obtain hagrees | ⟨-, hparses⟩ := hfollow
          · obtain ⟨spec, hspec⟩ :=
              Option.isSome_iff_exists.mp ((actorSpecs_isSome w₂ machineId).mpr hin₂)
            obtain ⟨text, htext, hparse⟩ := hagrees spec hspec
            obtain rfl : text = specJson := Option.some.inj (htext.symm.trans hcached₂)
            exact ⟨spec, hparse⟩
          · obtain ⟨text, htext, hparse⟩ := hparses (decide_eq_true (hlocal.mp hown))
            obtain rfl : text = specJson := Option.some.inj (htext.symm.trans hcached₂)
            exact Option.isSome_iff_exists.mp hparse
        apply hend w₅ _ hr'' (Managing.ask_specs ..)
        · exact fun id hid => Managing.ask_actors_of_ne w₅.now _ w₅.toManaging hid
        · intro spec' hspec'
          unfold actorSpecs at hspec'
          rw [manage_toManaging, Managing.ask_update_spec w₅.now hspec hin₅] at hspec'
          obtain rfl := Option.some.inj hspec'
          refine ⟨specJson, ?_, hspec⟩
          unfold cached
          rw [manage_toManaging, Managing.ask_specs]
          exact (congrFun hr''.cached machineId).trans hcached
      · rw [if_neg hactor]
        apply agree_modify
        intro w₅ hr₅ m hm
        have hr'' : SameSpecs v w₅ := (agreementSetting score ok).rely_trans _ _ _ hr' hr₅
        have hout : machineId ∉ w₅.manager.actors := fun hin =>
          hactor (Std.ExtTreeMap.contains_iff_mem.mpr ((hr₅.mem_actors machineId).mp hin))
        obtain ⟨-, rfl⟩ | ⟨actor, hnew, rfl⟩ := spawnMachineActor_cases hm
        · exact hend w₅ _ hr'' rfl (fun _ _ => rfl) (AgreesAt.of_not_mem hout)
        · apply hend w₅ _ hr'' (Managing.addActor_specs ..)
          · intro id hid
            rw [Managing.addActor_actors, if_neg hid]
          · intro spec hspec
            unfold actorSpecs at hspec
            rw [manage_toManaging, Managing.addActor_actors, if_pos rfl] at hspec
            obtain rfl := Option.some.inj hspec
            refine ⟨specJson, ?_, MachineActor.withNodeId_spec hnew⟩
            exact (congrFun hr''.cached machineId).trans hcached
    · rw [if_neg hown]
      by_cases hactor : w₄.manager.actors.contains machineId = true
      · rw [if_pos hactor]
        apply agree_modify
        intro w₅ hr₅ m hm
        have hr'' : SameSpecs v w₅ := (agreementSetting score ok).rely_trans _ _ _ hr' hr₅
        obtain ⟨previous, new, rfl⟩ := transferOwnership_eq_some hm
        refine hend w₅ _ hr'' ?_ ?_ ?_
        · exact Managing.stopMachineActor_specs ..
        · intro id hid
          rw [Managing.stopMachineActor_actors_of_ne _ _ hid]
          rfl
        · apply AgreesAt.of_not_mem
          rw [manage_toManaging, Managing.mem_actors_stopMachineActor]
          exact fun hin => hin.1 rfl
      · rw [if_neg hactor]
        apply agree_pure
        have hsame : w₄.manage w₄.toManaging = w₄ := rfl
        rw [← hsame]
        apply hend w₄ w₄.toManaging hr' rfl (fun _ _ => rfl)
        exact AgreesAt.of_not_mem (fun hin => hactor (Std.ExtTreeMap.contains_iff_mem.mpr hin))

/-- A delete takes the cached spec and the actor away together. -/
theorem handleMachineDelete_agrees {P : Type} [SerdeJson] [DecidableEq P] [PeerId P]
    {score : Score P} {ok : String → World P → Prop} (machineId : String) (w : World P)
    (h : w.Agrees) :
    Safe (agreementSetting score ok) (fun _ t => t.Agrees) (handleMachineDelete machineId) w := by
  apply agree_modify
  intro w₁ hr₁ m hm id
  obtain rfl := Option.some.inj hm
  by_cases hid : id = machineId
  · apply AgreesAt.of_not_mem
    rw [manage_toManaging, Managing.handleMachineDelete, Managing.mem_actors_stopMachineActor]
    exact fun hin => hin.1 hid
  · refine (hr₁.agreesAt (h id)).congr ?_ ?_
    · unfold cached
      rw [manage_toManaging, Managing.handleMachineDelete, Managing.stopMachineActor_specs]
      simp [Managing.uncacheSpec, Std.ExtTreeMap.getElem?_erase, Ne.symm hid]
    · unfold actorSpecs
      rw [manage_toManaging, Managing.handleMachineDelete,
        Managing.stopMachineActor_actors_of_ne _ _ hid]
      rfl

/-- The puts of a sync keep the specs in agreement when they may look up. -/
theorem syncAllMachines_agrees {P : Type} [SerdeJson] [DecidableEq P] [PeerId P]
    {score : Score P} {ok : String → World P → Prop}
    (hok : ∀ machineId w, ok machineId w → w.Followable score machineId) (w : World P)
    (h : w.Agrees) :
    Safe (agreementSetting score ok) (fun _ t => t.Agrees) syncAllMachines w := by
  unfold syncAllMachines
  apply Safe.perform_bind
  intro w₁ hr₁ kvs t he
  obtain ⟨rfl, rfl⟩ := Prod.mk.inj (Option.some.inj he)
  refine ⟨trivial, ?_⟩
  have h₁ : w₁.Agrees := SameSpecs.agrees hr₁ h
  cases decodeMachines (w₁.etcd.getPrefix machinesPrefix) with
  | none => exact agree_pure false h₁
  | some machines =>
    apply Safe.bind
    refine (Safe.foldlM (E := agreementSetting score ok) (fun _ (_ : Unit) t => t.Agrees) ?_ ?_
      h₁).mono ?_
    · exact fun _ _ _ _ ht hr => SameSpecs.agrees hr ht
    · exact fun machine _ _ t ht => handleMachinePut_agrees hok machine.1 machine.2 t ht
    · exact fun _ t ht => agree_pure true ht

/-- A rebalance spawns from the cache, and so keeps the specs in agreement. -/
theorem rebalanceActors_agrees {P : Type} [SerdeJson] [DecidableEq P] [PeerId P]
    {score : Score P} {ok : String → World P → Prop} (machineIds : List String) (w : World P)
    (h : w.Agrees) :
    Safe (agreementSetting score ok) (fun _ t => t.Agrees) (rebalanceActors machineIds) w := by
  unfold rebalanceActors
  apply Safe.bind
  -- The plan holds specs from the cache.
  let FromCache (plan : List (String × String)) (t : World P) : Prop :=
    t.Agrees ∧ ∀ machine ∈ plan, t.cached machine.1 = some machine.2
  have hstable : ∀ plan (t t' : World P), FromCache plan t → SameSpecs t t' →
      FromCache plan t' := by
    intro plan t t' ht hr
    refine ⟨hr.agrees ht.1, fun machine hin => ?_⟩
    rw [hr.cached]
    exact ht.2 machine hin
  refine (Safe.foldlM (E := agreementSetting score ok)
    (fun _ (plan : List String × List (String × String)) t => FromCache plan.2 t) ?_ ?_
    ⟨h, by simp⟩).mono ?_
  · exact fun _ plan t t' ht hr => hstable plan.2 t t' ht hr
  · intro machineId _ plan t ht
    unfold checkMachine
    apply agree_lookupMachine
    intro t₁ hr₁ _ result _ t₂ hr₂
    have ht₂ := hstable plan.2 t₁ t₂ (hstable plan.2 t t₁ ht hr₁) hr₂
    have hpure : ∀ u, FromCache plan.2 u → ∀ plan', plan'.2 = plan.2 →
        Safe (agreementSetting score ok) (fun plan' t => FromCache plan'.2 t)
          (pure plan' : Program P (List String × List (String × String))) u := by
      intro u hu plan' hplan
      refine Safe.pure (fun u' hr => ?_)
      rw [hplan]
      exact hstable plan.2 u u' hu hr
    cases result with
    | none => exact hpure t₂ ht₂ plan rfl
    | some result =>
      apply agree_read
      intro t₃ hr₃
      have ht₃ := hstable plan.2 t₂ t₃ ht₂ hr₃
      by_cases hspawn : (result.isLocal && !t₃.manager.actors.contains machineId) = true
      · simp only [hspawn, if_true]
        cases hspec : t₃.manager.machineSpecs[machineId]? with
        | none => exact hpure t₃ ht₃ plan rfl
        | some specJson =>
          refine Safe.pure (fun t₄ hr₄ => hstable _ t₃ t₄ ⟨ht₃.1, ?_⟩ hr₄)
          intro machine hin
          obtain hin | hin := List.mem_append.mp hin
          · exact ht₃.2 machine hin
          · obtain rfl := List.mem_singleton.mp hin
            exact hspec
      · by_cases hstop : (!result.isLocal && t₃.manager.actors.contains machineId) = true
        · simp only [hspawn, hstop, if_true]
          exact hpure t₃ ht₃ _ rfl
        · simp only [hspawn, hstop]
          exact hpure t₃ ht₃ _ rfl
  · intro plan t ht
    apply Safe.bind
    refine (Safe.foldlM (E := agreementSetting score ok)
      (fun _ (_ : Unit) t => FromCache plan.2 t) ?_ ?_ ht).mono ?_
    · exact fun _ _ t t' ht hr => hstable plan.2 t t' ht hr
    · intro machineId _ _ t ht
      apply agree_modify_of (hstable plan.2)
      intro t₁ hr₁ m hm
      obtain rfl := Option.some.inj hm
      have ht₁ := hstable plan.2 t t₁ ht hr₁
      refine ⟨ht₁.1.stop machineId _, fun machine hin => ?_⟩
      unfold cached
      rw [manage_toManaging, Managing.stopMachineActor_specs]
      exact ht₁.2 machine hin
    · intro _ t ht
      refine (Safe.foldlM (E := agreementSetting score ok)
        (fun rest (_ : Unit) t => FromCache rest t) ?_ ?_ ht).mono (fun _ _ ht => ht.1)
      · exact fun rest _ t t' ht hr => hstable rest t t' ht hr
      · intro machine rest _ t ht
        apply agree_modify_of (hstable rest)
        intro t₁ hr₁ m hm
        have ht₁ := hstable _ t t₁ ht hr₁
        have hrest : ∀ machine ∈ rest, t₁.cached machine.1 = some machine.2 :=
          fun machine' hin => ht₁.2 machine' (List.mem_cons_of_mem machine hin)
        obtain ⟨-, rfl⟩ | ⟨actor, hactor, rfl⟩ := spawnMachineActor_cases hm
        · exact ⟨ht₁.1, hrest⟩
        · exact ⟨ht₁.1.add (ht₁.2 machine List.mem_cons_self) hactor, hrest⟩

end Program

/-- A handler may look a machine up. A rebalance may look up any. -/
def ManagerMessage.MayLookup {P : Type} [SerdeJson] [DecidableEq P] [PeerId P] (score : Score P)
    (message : ManagerMessage) (machineId : String) (w : World P) : Prop :=
  message = .rebalanceActors ∨ w.Followable score machineId

instance {P : Type} [SerdeJson] [DecidableEq P] [PeerId P] (score : Score P)
    (message : ManagerMessage) (machineId : String) (w : World P) :
    Decidable (message.MayLookup score machineId w) := inferInstanceAs (Decidable (_ ∨ _))

/-- Every handler keeps the specs in agreement while its lookups may be made. -/
theorem ManagerMessage.handler_agrees {P : Type} [SerdeJson] [DecidableEq P] [PeerId P]
    (score : Score P) (message : ManagerMessage) (machineIds : List String) (w : World P)
    (h : w.Agrees) :
    Safe (World.agreementSetting score (message.MayLookup score)) (fun _ t => t.Agrees)
      (message.handler machineIds) w := by
  match message with
  | .etcdMachineEvent machineId .put (some specJson) =>
    apply Safe.bind
    have hok : ∀ id (t : World P), ManagerMessage.MayLookup score
        (.etcdMachineEvent machineId .put (some specJson)) id t → t.Followable score id :=
      fun id t hmay => hmay.resolve_left (by simp)
    exact (Program.handleMachinePut_agrees hok machineId specJson w h).mono
      (fun _ _ ht => Program.agree_pure _ ht)
  | .etcdMachineEvent _ .put none => exact Program.agree_pure _ h
  | .etcdMachineEvent machineId .delete _ =>
    apply Safe.bind
    exact (Program.handleMachineDelete_agrees machineId w h).mono
      (fun _ _ ht => Program.agree_pure _ ht)
  | .syncAllMachines =>
    apply Safe.bind
    have hok : ∀ id (t : World P), ManagerMessage.MayLookup score .syncAllMachines id t →
        t.Followable score id := fun id t hmay => hmay.resolve_left (by simp)
    refine (Program.syncAllMachines_agrees hok w h).mono ?_
    intro fetched t ht
    cases fetched with
    | true =>
      apply Program.agree_read
      exact fun t' hr => Program.agree_pure _ (World.SameSpecs.agrees hr ht)
    | false => exact Program.agree_pure _ ht
  | .rebalanceActors =>
    apply Safe.bind
    exact (Program.rebalanceActors_agrees machineIds w h).mono
      (fun _ _ ht => Program.agree_pure _ ht)

/-- The handling of a failure keeps the specs in agreement. -/
theorem World.Agrees.fails {P : Type} [SerdeJson] {now : ℤ} {instant : ℕ}
    {machineId error : String} {w : World P} {m : Managing P} (hw : w.Agrees)
    (h : w.Fails now instant machineId error m) : (w.manage m).Agrees := by
  obtain ⟨hactors, hspecs, -, -, -⟩ :=
    Managing.noteFailure_frame instant machineId error w.toManaging
  have hnoted : (w.manage (w.noteFailure instant machineId error)).Agrees := by
    intro id
    refine (hw id).congr ?_ ?_
    · unfold World.cached
      rw [World.manage_toManaging, hspecs]
    · unfold World.actorSpecs
      rw [World.manage_toManaging, hactors]
  have hdropped : (w.manage ((w.noteFailure instant machineId error).dropActor
      machineId)).Agrees := by
    intro id
    by_cases hid : id = machineId
    · apply World.AgreesAt.of_not_mem
      rw [hid]
      simp [Managing.dropActor]
    · refine (hnoted id).congr rfl ?_
      unfold World.actorSpecs
      simp [Managing.dropActor, Std.ExtTreeMap.getElem?_erase, Ne.symm hid]
  cases h with
  | uncached hrestart hspec => exact hnoted
  | unparsed hrestart hspec hparse => exact hdropped
  | restarted hrestart hspec hactor =>
    refine World.Agrees.add hdropped ?_ hactor
    unfold World.cached
    rw [World.manage_toManaging, Managing.dropActor, hspecs]
    exact hspec
  | exceeded hrestart => exact fun id => (hdropped id).congr rfl rfl

namespace Supervised

/-- Lookups are made only when they may, and clients do not update specs. -/
def LooksUp {P : Type} [SerdeJson] [DecidableEq P] [PeerId P] (score : Score P)
    (s : Supervised P) : Label P → Prop
  | .advance =>
    match s.running with
    | some (message, .step (.lookupMachine machineId) _) =>
      message.MayLookup score machineId s.world
    | _ => True
  | .ask _ (.updateMachineSpec _) => False
  | _ => True

instance {P : Type} [SerdeJson] [DecidableEq P] [PeerId P] (score : Score P) (s : Supervised P)
    (l : Label P) : Decidable (s.LooksUp score l) :=
  match l with
  | .advance =>
    match h : s.running with
    | some (message, .step (.lookupMachine machineId) _) =>
      decidable_of_iff (message.MayLookup score machineId s.world) (by simp only [LooksUp, h])
    | some (_, .step .read _) | some (_, .step (.modify _) _) | some (_, .step (.getPrefix _) _)
    | some (_, .done _) | none => isTrue (by simp only [LooksUp, h])
  | .ask _ (.updateMachineSpec _) => isFalse id
  | .ask _ .getMachineStatus | .ask _ (.provisionMachine ..) | .ask _ (.deprovisionMachine _)
  | .ask _ (.checkOwnership _) | .handle .. | .finish | .fail .. | .topology _ | .write _
  | .tick _ => isTrue trivial

/-- The specs agree, or will when the running handler has ended. -/
def Agreeing {P : Type} [SerdeJson] [DecidableEq P] [PeerId P] (score : Score P)
    (s : Supervised P) : Prop :=
  match s.running with
  | none => s.world.Agrees
  | some (message, program) =>
    Safe (World.agreementSetting score (message.MayLookup score)) (fun _ t => t.Agrees)
      program s.world

theorem Agreeing.frame {P : Type} [SerdeJson] [DecidableEq P] [PeerId P] {score : Score P}
    {s t : Supervised P} (hs : s.Agreeing score) (hrunning : t.running = s.running)
    (hworld : World.SameSpecs s.world t.world) : t.Agreeing score := by
  unfold Agreeing at hs ⊢
  rw [hrunning]
  cases hrun : s.running with
  | none =>
    simp only [hrun] at hs
    exact hworld.agrees hs
  | some task =>
    simp only [hrun] at hs
    exact hs.interfere hworld

theorem Agreeing.step {P : Type} [SerdeJson] [DecidableEq P] [PeerId P] {score : Score P}
    {s t : Supervised P} {l : Label P} (hs : s.Agreeing score) (hl : s.LooksUp score l)
    (h : Steps score s l t) (halive : t.alive = true) : t.Agreeing score := by
  cases h with
  | @handle message machineIds hrunning hkeys =>
    unfold Agreeing at hs
    simp only [hrunning] at hs
    exact message.handler_agrees score machineIds s.world hs
  | @advance message op next result world hrunning hexec =>
    unfold Agreeing at hs
    simp only [hrunning] at hs
    have hguarded : (World.agreementSetting score (message.MayLookup score)).exec op s.world =
        some (result, world) := by
      cases op with
      | lookupMachine machineId =>
        have hmay : message.MayLookup score machineId s.world := by
          simpa only [LooksUp, hrunning] using hl
        exact (if_pos hmay).trans hexec
      | read => exact hexec
      | modify f => exact hexec
      | getPrefix start => exact hexec
    exact (hs.advance hguarded).2
  | panic => cases halive
  | @finish message reply hrunning =>
    unfold Agreeing at hs
    simp only [hrunning] at hs
    exact hs.finish
  | fail hrunning hm =>
    unfold Agreeing at hs ⊢
    simp only [hrunning] at hs ⊢
    exact hs.fails (Managing.handleActorFailure_cases hm)
  | failPanic hnone => cases halive
  | topology peers =>
    refine hs.frame rfl (World.SameSpecs.of_manager ?_)
    unfold Node.applyTopology
    split_ifs <;> rfl
  | write etcd => exact hs.frame rfl (World.SameSpecs.of_manager rfl)
  | @ask machineId message hmem =>
    refine hs.frame rfl ⟨?_, ?_⟩
    · unfold World.cached
      rw [World.manage_toManaging, Managing.ask_specs]
    · funext id
      have hne : ∀ specJson, message ≠ .updateMachineSpec specJson := by
        rintro specJson rfl
        exact hl
      exact Managing.ask_actorSpec s.world.now machineId s.world.toManaging hne id
  | tick now => exact hs.frame rfl (World.SameSpecs.of_manager rfl)

theorem alive_step {P : Type} [SerdeJson] [DecidableEq P] [PeerId P] {score : Score P}
    {s t : Supervised P} {l : Label P} (h : Steps score s l t) (halive : t.alive = true) :
    s.alive = true := by
  cases h with
  | panic => cases halive
  | failPanic hnone => cases halive
  | _ => exact halive

/-- In every run whose lookups may be made, whenever a living manager is idle, the
cached spec of every machine with an actor parses to the spec of the actor. -/
theorem specs_agree {P : Type} [SerdeJson] [DecidableEq P] [PeerId P] (score : Score P)
    (policy : RestartPolicy) (localPeerId : P) (nodeId : String) (peers : List P) (etcd : Etcd)
    (now : ℤ) (s₀ s : Supervised P) (labels : List (Label P))
    (hstart : start policy localPeerId nodeId peers etcd now = some s₀)
    (h : Run (Guarded (LooksUp score) (StepOf (Supervised.step score))) s₀ labels s)
    (halive : s.alive = true) (hidle : s.running = none) (machineId : String)
    (actor : MachineActor) (hactor : s.world.manager.actors[machineId]? = some actor) :
    ∃ specJson, s.world.manager.machineSpecs[machineId]? = some specJson ∧
      MachineSpec.fromStr specJson = some actor.spec := by
  have hagreeing : s.alive = true → s.Agreeing score := by
    refine h.invariant (I := fun s => s.alive = true → s.Agreeing score) ?_ ?_
    · intro s l t hs hstep hlive
      have hcases := step_cases hstep.2
      exact (hs (alive_step hcases hlive)).step hstep.1 hcases hlive
    · intro _
      obtain ⟨coordinator, -, rfl⟩ := Option.map_eq_some_iff.mp hstart
      intro id spec hspec
      simp [World.actorSpecs, MachineActorManagerActor.new] at hspec
  have hworld := hagreeing halive
  unfold Agreeing at hworld
  simp only [hidle] at hworld
  apply hworld machineId
  unfold World.actorSpecs
  rw [hactor]
  rfl

/-- A machine whose actor is given another spec. -/
theorem specs_agree_updated :
    let spec : Json := .object [("adminState", .string "available"), ("cluster", .string "lab")]
    let spec' : Json := .object [("adminState", .string "reserved"), ("cluster", .string "lab")]
    let _ : SerdeJson := SerdeJson.knowing [spec, spec']
    ∃ (s : Supervised Base58Text) (actor : MachineActor),
      s.world.manager.actors["m1"]? = some actor ∧ actor.spec.adminState = "reserved" ∧
      ∃ specJson, s.world.manager.machineSpecs["m1"]? = some specJson ∧
        MachineSpec.fromStr specJson = some actor.spec := by
  intro spec spec' _
  let a := peerOf "12D3KooWAAAAAAAAAAAAAAAAAAAAAAAAAAAAAAAAAAAAAAAAAAAA"
  let score : Score Base58Text := fun _ _ => 7
  let labels := ownPut "m1" spec.text [] ++ ownPut "m1" spec'.text ["m1"]
  obtain ⟨s₀, hstart, s, hrun, halive, hidle, actor, hactor, hstate⟩ :
      ∃ s₀ ∈ start RestartPolicy.default a "node-a" [a] ∅ 0,
      ∃ s ∈ labels.foldlM (guardedNext (LooksUp score) (Supervised.step score)) s₀,
        s.alive = true ∧ s.running.isNone = true ∧
        ∃ actor ∈ s.world.manager.actors["m1"]?, actor.spec.adminState = "reserved" := by
    decide +kernel
  exact ⟨s, actor, hactor, hstate, specs_agree score _ a "node-a" [a] ∅ 0 s₀ s labels hstart
    (Run.guarded_of_foldlM hrun) halive (Option.isNone_iff_eq_none.mp hidle) "m1" actor hactor⟩

/-- A put that does not parse replaces the cached spec of a running actor. -/
theorem not_specs_agree : ¬∀ [SerdeJson] (score : Score Base58Text) (policy : RestartPolicy)
    (localPeerId : Base58Text) (nodeId : String) (peers : List Base58Text) (etcd : Etcd) (now : ℤ)
    (s₀ s : Supervised Base58Text) (labels : List (Label Base58Text)),
    start policy localPeerId nodeId peers etcd now = some s₀ →
      Run (StepOf (Supervised.step score)) s₀ labels s → s.alive = true → s.running = none →
      ∀ (machineId : String) (actor : MachineActor),
        s.world.manager.actors[machineId]? = some actor →
        ∃ specJson, s.world.manager.machineSpecs[machineId]? = some specJson ∧
          MachineSpec.fromStr specJson = some actor.spec := by
  intro hclaim
  let spec : Json := .object [("adminState", .string "available"), ("cluster", .string "lab")]
  let _ : SerdeJson := SerdeJson.knowing [spec]
  let a := peerOf "12D3KooWAAAAAAAAAAAAAAAAAAAAAAAAAAAAAAAAAAAAAAAAAAAA"
  let score : Score Base58Text := fun _ _ => 7
  let labels := ownPut "m1" spec.text [] ++ ownPut "m1" "\x7b" ["m1"]
  obtain ⟨s₀, hstart, s, hrun, halive, hidle, ⟨actor, hactor, -⟩, hcached⟩ :
      ∃ s₀ ∈ start RestartPolicy.default a "node-a" [a] ∅ 0,
      ∃ s ∈ labels.foldlM (Supervised.step score) s₀,
        s.alive = true ∧ s.running.isNone = true ∧
        (∃ actor ∈ s.world.manager.actors["m1"]?, actor.machineId = "m1") ∧
        ∀ specJson ∈ s.world.manager.machineSpecs["m1"]?, MachineSpec.fromStr specJson = none := by
    decide +kernel
  obtain ⟨specJson, hspec, hparse⟩ := hclaim score _ a "node-a" [a] ∅ 0 s₀ s labels hstart
    (Run.of_foldlM hrun) halive (Option.isNone_iff_eq_none.mp hidle) "m1" actor hactor
  rw [hcached specJson hspec] at hparse
  cases hparse

end Supervised
end Neolaas
