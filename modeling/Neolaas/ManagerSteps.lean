import Neolaas.MachineLifecycle
import Neolaas.MachineManager

/-!
# What the manager does in one step

Each operation of a handler does one of a few things, with what the handler has
found out before as its licence: an actor is spawned only for a cached machine
without actor whose last lookup was local, and stopped by a rebalance or a
transfer only when the last lookup was not. This holds under any interference
that leaves the manager's own maps alone.
-/
namespace Neolaas
open AtomicProgram

namespace Event

/-- A lookup line of the coordinator. -/
def IsLookup (e : Event) : Prop :=
  ∃ machineId owner isLocal, e = machineLookup machineId owner isLocal

/-- An event that an actor of a machine emits. -/
def OfActor (machineId : String) : Event → Prop
  | machineStateChanged id .. => id = machineId
  | bookingStarted id .. => id = machineId
  | bookingEnded id .. => id = machineId
  | _ => False

theorem OfActor.not_isLookup {machineId : String} {e : Event} (h : e.OfActor machineId) :
    ¬e.IsLookup := by
  rintro ⟨id, owner, isLocal, rfl⟩
  exact h

end Event

/-- The last lookup of a machine had the given answer. -/
def LastLookup (events : List Event) (machineId : String) (isLocal : Bool) : Prop :=
  ∃ before owner after, events = before ++ Event.machineLookup machineId owner isLocal :: after ∧
    ∀ owner' isLocal', .machineLookup machineId owner' isLocal' ∉ after

namespace LastLookup

theorem snoc (events : List Event) (machineId : String) (owner : Option String) (isLocal : Bool) :
    LastLookup (events ++ [.machineLookup machineId owner isLocal]) machineId isLocal :=
  ⟨events, owner, [], rfl, by simp⟩

/-- Later events keep the last lookup unless they look the machine up. -/
theorem append {events : List Event} {machineId : String} {isLocal : Bool}
    (h : LastLookup events machineId isLocal) (es : List Event)
    (hes : ∀ owner' isLocal', .machineLookup machineId owner' isLocal' ∉ es) :
    LastLookup (events ++ es) machineId isLocal := by
  obtain ⟨before, owner, after, rfl, hafter⟩ := h
  refine ⟨before, owner, after ++ es, by simp, ?_⟩
  intro owner' isLocal' hmem
  obtain hmem | hmem := List.mem_append.mp hmem
  · exact hafter owner' isLocal' hmem
  · exact hes owner' isLocal' hmem

end LastLookup

/-- A handled message keeps the actor's identity and emits events of its machine. -/
theorem Acting.handle_emits [SerdeJson] (now : ℤ) (self : Acting) (message : ActorMessage) :
    (self.handle now message).2.actor.machineId = self.actor.machineId ∧
      ∃ es, (self.handle now message).2.events = self.events ++ es ∧
        ∀ e ∈ es, e.OfActor self.actor.machineId := by
  have hinit : (self.initializeActor now).actor.machineId = self.actor.machineId ∧
      ∃ es, (self.initializeActor now).events = self.events ++ es ∧
        ∀ e ∈ es, e.OfActor self.actor.machineId := by
    refine ⟨initializeActor_machineId now self, ?_⟩
    by_cases h : self.actor.state = .initializing
    · rw [initializeActor_of_eq now self h]
      exact ⟨_, rfl, by simp [Event.OfActor]⟩
    · rw [initializeActor_of_ne now self h]
      exact ⟨[], by simp, by simp⟩
  obtain ⟨hid, es, hes, hof⟩ := hinit
  -- Further events of the same machine after the initialization.
  have hmore : ∀ more, (∀ e ∈ more, Event.OfActor self.actor.machineId e) →
      ∃ all, (self.initializeActor now).events ++ more = self.events ++ all ∧
        ∀ e ∈ all, Event.OfActor self.actor.machineId e := by
    intro more hmore
    refine ⟨es ++ more, by rw [hes, List.append_assoc], ?_⟩
    intro e he
    obtain he | he := List.mem_append.mp he
    · exact hof e he
    · exact hmore e he
  cases message with
  | getMachineStatus => exact ⟨hid, es, hes, hof⟩
  | checkOwnership isStillLocal => exact ⟨rfl, [], by simp [handle], by simp⟩
  | updateMachineSpec specJson =>
    simp only [handle, handleUpdateMachineSpec]
    cases MachineSpec.fromStr specJson <;> exact ⟨rfl, [], by simp, by simp⟩
  | provisionMachine b config =>
    simp only [handle]
    obtain ⟨-, -, heq⟩ | ⟨-, error, heq⟩ := handleProvisionMachine_cases now b config self
    · rw [heq]
      refine ⟨hid, ?_⟩
      exact hmore _ (by simp [Event.OfActor])
    · rw [heq]
      exact ⟨hid, es, hes, hof⟩
  | deprovisionMachine b =>
    simp only [handle]
    obtain ⟨-, -, heq⟩ | ⟨error, heq⟩ := handleDeprovisionMachine_cases now b self
    · rw [heq]
      refine ⟨hid, ?_⟩
      exact hmore _ (by simp [Event.OfActor])
    · rw [heq]
      exact ⟨hid, es, hes, hof⟩

namespace Managing

@[simp] theorem ask_specs {P : Type} [SerdeJson] (now : ℤ) (machineId : String)
    (message : ActorMessage) (m : Managing P) :
    (m.ask now machineId message).2.manager.machineSpecs = m.manager.machineSpecs := by
  unfold ask
  cases m.manager.actors[machineId]? <;> rfl

/-- Asking an actor neither creates nor removes one. -/
@[simp] theorem mem_actors_ask {P : Type} [SerdeJson] (now : ℤ) (machineId : String)
    (message : ActorMessage) (m : Managing P) (id : String) :
    id ∈ (m.ask now machineId message).2.manager.actors ↔ id ∈ m.manager.actors := by
  unfold ask
  cases h : m.manager.actors[machineId]? with
  | none => rfl
  | some actor =>
    have hmem : machineId ∈ m.manager.actors :=
      (Std.ExtTreeMap.getElem?_eq_some_iff.mp h).fst
    simp only [Std.ExtTreeMap.mem_insert]
    constructor
    · intro hid
      obtain heq | hid := hid
      · obtain rfl : machineId = id := by simpa using heq
        exact hmem
      · exact hid
    · exact Or.inr

@[simp] theorem stopMachineActor_specs {P : Type} (machineId reason : String) (m : Managing P) :
    (m.stopMachineActor machineId reason).manager.machineSpecs = m.manager.machineSpecs := by
  unfold stopMachineActor
  split_ifs <;> rfl

@[simp] theorem mem_actors_stopMachineActor {P : Type} (machineId reason : String)
    (m : Managing P) (id : String) :
    id ∈ (m.stopMachineActor machineId reason).manager.actors ↔
      id ≠ machineId ∧ id ∈ m.manager.actors := by
  unfold stopMachineActor
  by_cases h : m.manager.actors.contains machineId = true
  · rw [if_pos h, Std.ExtTreeMap.mem_erase]
    have hcompare : ¬compare machineId id = .eq ↔ id ≠ machineId := by
      rw [ne_comm]
      simp
    exact and_congr_left' hcompare
  · rw [if_neg h]
    constructor
    · intro hid
      refine ⟨?_, hid⟩
      intro heq
      exact h (Std.ExtTreeMap.contains_iff_mem.mpr (heq ▸ hid))
    · exact And.right

@[simp] theorem mem_actors_addActor {P : Type} (machineId : String) (actor : MachineActor)
    (m : Managing P) (id : String) :
    id ∈ (m.addActor machineId actor).manager.actors ↔
      id = machineId ∨ id ∈ m.manager.actors := by
  rw [addActor, Std.ExtTreeMap.mem_insert]
  have hcompare : compare machineId id = .eq ↔ id = machineId := by
    rw [eq_comm (a := id)]
    simp
  exact or_congr_left hcompare

@[simp] theorem addActor_specs {P : Type} (machineId : String) (actor : MachineActor)
    (m : Managing P) : (m.addActor machineId actor).manager.machineSpecs =
      m.manager.machineSpecs := rfl

/-- A served message appends events of the actor's machine. -/
theorem ask_emits {P : Type} [SerdeJson] (now : ℤ) (machineId : String) (message : ActorMessage)
    (m : Managing P) : ∃ es, (m.ask now machineId message).2.events = m.events ++ es ∧
      ∀ e ∈ es, ¬e.IsLookup := by
  unfold ask
  cases h : m.manager.actors[machineId]? with
  | none => exact ⟨[], by simp, by simp⟩
  | some actor =>
    obtain ⟨-, es, hes, hof⟩ := Acting.handle_emits now ⟨actor, m.events⟩ message
    exact ⟨es, hes, fun e he => (hof e he).not_isLookup⟩

/-- Asking an actor leaves the identity of the manager alone. -/
theorem ask_identity {P : Type} [SerdeJson] (now : ℤ) (machineId : String)
    (message : ActorMessage) (m : Managing P) :
    (m.ask now machineId message).2.manager.localPeerId = m.manager.localPeerId ∧
      (m.ask now machineId message).2.manager.nodeId = m.manager.nodeId := by
  unfold ask
  cases m.manager.actors[machineId]? <;> exact ⟨rfl, rfl⟩

end Managing

/-- The operation asks the coordinator. -/
def Op.IsLookup {P : Type} : Op P → Prop
  | .lookupMachine _ => True
  | _ => False

namespace World

/-- The world with the manager's part replaced. -/
def manage {P : Type} (w : World P) (m : Managing P) : World P := { w with toManaging := m }

@[simp] theorem manage_toManaging {P : Type} (w : World P) (m : Managing P) :
    (w.manage m).toManaging = m := rfl

@[simp] theorem manage_coordinator {P : Type} (w : World P) (m : Managing P) :
    (w.manage m).coordinator = w.coordinator := rfl

@[simp] theorem manage_coordinatorAlive {P : Type} (w : World P) (m : Managing P) :
    (w.manage m).coordinatorAlive = w.coordinatorAlive := rfl

@[simp] theorem manage_etcd {P : Type} (w : World P) (m : Managing P) :
    (w.manage m).etcd = w.etcd := rfl

/-- The stored machines all satisfy a condition. -/
def ValidContent (Valid : String → String → Prop) (etcd : Etcd) : Prop :=
  ∀ machineId specJson, etcd[machinesPrefix ++ machineId]? = some specJson →
    Valid machineId specJson

/-- What the rest of the node may do to the world between two operations. Actors
serve their messages, but they are neither created nor removed. -/
structure Interferes {P : Type} (Valid : String → String → Prop) (w w' : World P) : Prop where
  localPeerId : w'.manager.localPeerId = w.manager.localPeerId
  nodeId : w'.manager.nodeId = w.manager.nodeId
  specs : w'.manager.machineSpecs = w.manager.machineSpecs
  actors : ∀ machineId, machineId ∈ w'.manager.actors ↔ machineId ∈ w.manager.actors
  events : ∃ es, w'.events = w.events ++ es ∧ ∀ e ∈ es, ¬e.IsLookup
  etcd : ValidContent Valid w.etcd → ValidContent Valid w'.etcd

theorem Interferes.refl {P : Type} (Valid : String → String → Prop) (w : World P) :
    Interferes Valid w w := ⟨rfl, rfl, rfl, fun _ => Iff.rfl, ⟨[], by simp, by simp⟩, id⟩

theorem Interferes.trans {P : Type} {Valid : String → String → Prop} {w w' w'' : World P}
    (h : Interferes Valid w w') (h' : Interferes Valid w' w'') : Interferes Valid w w'' := by
  obtain ⟨es, hes, hnot⟩ := h.events
  obtain ⟨es', hes', hnot'⟩ := h'.events
  refine ⟨h'.localPeerId.trans h.localPeerId, h'.nodeId.trans h.nodeId, h'.specs.trans h.specs,
    fun id => (h'.actors id).trans (h.actors id), ⟨es ++ es', ?_, ?_⟩,
    fun hv => h'.etcd (h.etcd hv)⟩
  · rw [hes', hes, List.append_assoc]
  · intro e he
    obtain he | he := List.mem_append.mp he
    · exact hnot e he
    · exact hnot' e he

theorem Interferes.lastLookup {P : Type} {Valid : String → String → Prop} {w w' : World P}
    (h : Interferes Valid w w') {machineId : String} {isLocal : Bool}
    (hl : LastLookup w.events machineId isLocal) : LastLookup w'.events machineId isLocal := by
  obtain ⟨es, hes, hnot⟩ := h.events
  rw [hes]
  exact hl.append es (fun owner b hmem => hnot _ hmem ⟨_, _, _, rfl⟩)

/-- What one operation of the manager does to the world. A lookup needs the
permission `asks`. -/
inductive Managed {P : Type} [SerdeJson] [DecidableEq P] [PeerId P] (score : Score P)
    (Valid : String → String → Prop) (asks : Prop) (w : World P) : World P → Prop
  | quiet : Managed score Valid asks w w
  | lookedUp (machineId : String) (h : asks) :
    Managed score Valid asks w (w.askLookup score machineId).2
  | cached (machineId specJson : String) (hvalid : Valid machineId specJson) :
    Managed score Valid asks w (w.manage (w.cacheSpec machineId specJson))
  | deleted (machineId : String) :
    Managed score Valid asks w (w.manage (w.handleMachineDelete machineId))
  | asked (machineId : String) (message : ActorMessage) :
    Managed score Valid asks w (w.manage (w.ask w.now machineId message).2)
  | spawned (machineId specJson : String) (actor : MachineActor)
    (hspec : w.manager.machineSpecs[machineId]? = some specJson)
    (hnone : machineId ∉ w.manager.actors) (hlookup : LastLookup w.events machineId true)
    (hactor : MachineActor.withNodeId w.now machineId specJson w.manager.nodeId = some actor) :
    Managed score Valid asks w (w.manage (w.addActor machineId actor))
  | stopped (machineId reason : String) (lines : List Event)
    (hlookup : LastLookup w.events machineId false)
    (hlines : ∀ e ∈ lines, ∃ previous new, e = .ownershipTransferred machineId previous new) :
    Managed score Valid asks w
      (w.manage ((w.emit lines).stopMachineActor machineId reason))

theorem Managed.mono {P : Type} [SerdeJson] [DecidableEq P] [PeerId P] {score : Score P}
    {Valid : String → String → Prop} {asks asks' : Prop} {w w' : World P} (himp : asks → asks')
    (h : Managed score Valid asks w w') : Managed score Valid asks' w w' := by
  cases h with
  | quiet => exact .quiet
  | lookedUp machineId h => exact .lookedUp machineId (himp h)
  | cached machineId specJson hvalid => exact .cached machineId specJson hvalid
  | deleted machineId => exact .deleted machineId
  | asked machineId message => exact .asked machineId message
  | spawned machineId specJson actor hspec hnone hlookup hactor =>
    exact .spawned machineId specJson actor hspec hnone hlookup hactor
  | stopped machineId reason lines hlookup hlines =>
    exact .stopped machineId reason lines hlookup hlines

/-- Handlers run against interference, within the manager's steps. Only lookups
ask the coordinator, and only in handlers that may. -/
def managerSetting {P : Type} [SerdeJson] [DecidableEq P] [PeerId P] (score : Score P)
    (Valid : String → String → Prop) (asks : Prop) : Setting (Op P) Op.Ret (World P) where
  exec := exec score
  rely := Interferes Valid
  guar op := Managed score Valid (asks ∧ op.IsLookup)
  rely_refl := Interferes.refl Valid
  rely_trans _ _ _ h h' := h.trans h'

/-- An answered lookup is logged and changes nothing else. -/
theorem askLookup_some {P : Type} [DecidableEq P] [PeerId P] {score : Score P}
    {machineId : String} {w : World P} {result : LookupResult P}
    (h : (w.askLookup score machineId).1 = some result) :
    result.ownerPeer = w.coordinator.hasher.lookup score machineId ∧
      (result.isLocal = true ↔ w.coordinator.Owns score machineId) ∧
      ∃ owner, (w.askLookup score machineId).2 =
        { w with events := w.events ++ [.machineLookup machineId owner result.isLocal] } := by
  unfold askLookup at h ⊢
  by_cases halive : w.coordinatorAlive = true
  · simp only [halive, if_true] at h ⊢
    cases hl : w.coordinator.handleLookupMachine score machineId with
    | none => simp [hl] at h
    | some found =>
      obtain ⟨result', line⟩ := found
      simp only [hl] at h ⊢
      obtain rfl := Option.some.inj h
      obtain ⟨howner, hlocal, owner, rfl⟩ := ShardingCoordinator.handleLookupMachine_eq_some hl
      exact ⟨howner, hlocal, owner, rfl⟩
  · simp [halive] at h

/-- A failed lookup leaves the coordinator dead and changes nothing else. -/
theorem askLookup_none {P : Type} [DecidableEq P] [PeerId P] {score : Score P}
    {machineId : String} {w : World P} (h : (w.askLookup score machineId).1 = none) :
    (w.askLookup score machineId).2 = { w with coordinatorAlive := false } := by
  unfold askLookup at h ⊢
  by_cases halive : w.coordinatorAlive = true
  · simp only [halive, if_true] at h ⊢
    cases hl : w.coordinator.handleLookupMachine score machineId with
    | none => rfl
    | some found => simp [hl] at h
  · have hdead : w.coordinatorAlive = false := by simpa using halive
    simp only [hdead]
    cases w
    simp_all

/-- Lookups leave the manager's fields and etcd alone. -/
theorem askLookup_frame {P : Type} [DecidableEq P] [PeerId P] (score : Score P)
    (machineId : String) (w : World P) :
    (w.askLookup score machineId).2.manager = w.manager ∧
      (w.askLookup score machineId).2.coordinator = w.coordinator ∧
      (w.askLookup score machineId).2.etcd = w.etcd := by
  cases h : (w.askLookup score machineId).1 with
  | none =>
    rw [askLookup_none h]
    exact ⟨rfl, rfl, rfl⟩
  | some result =>
    obtain ⟨-, -, owner, heq⟩ := askLookup_some h
    rw [heq]
    exact ⟨rfl, rfl, rfl⟩

/-- The manager writes neither to the coordinator nor to etcd, and does not bring
the coordinator back. -/
theorem Managed.frame {P : Type} [SerdeJson] [DecidableEq P] [PeerId P] {score : Score P}
    {Valid : String → String → Prop} {asks : Prop} {w w' : World P}
    (h : Managed score Valid asks w w') :
    w'.coordinator = w.coordinator ∧ w'.etcd = w.etcd ∧
      (w'.coordinatorAlive = true → w.coordinatorAlive = true) := by
  cases h with
  | lookedUp machineId =>
    obtain ⟨-, hcoordinator, hetcd⟩ := askLookup_frame score machineId w
    refine ⟨hcoordinator, hetcd, ?_⟩
    cases hres : (w.askLookup score machineId).1 with
    | none =>
      rw [askLookup_none hres]
      intro halive
      cases halive
    | some result =>
      obtain ⟨-, -, owner, heq⟩ := askLookup_some hres
      rw [heq]
      exact id
  | quiet => exact ⟨rfl, rfl, id⟩
  | cached => exact ⟨rfl, rfl, id⟩
  | deleted => exact ⟨rfl, rfl, id⟩
  | asked => exact ⟨rfl, rfl, id⟩
  | spawned => exact ⟨rfl, rfl, id⟩
  | stopped => exact ⟨rfl, rfl, id⟩

/-- Every actor is of a cached machine. -/
def Contained {P : Type} (w : World P) : Prop :=
  ∀ machineId, machineId ∈ w.manager.actors → machineId ∈ w.manager.machineSpecs

/-- Every cached spec satisfies a condition. -/
def ValidSpecs {P : Type} (Valid : String → String → Prop) (w : World P) : Prop :=
  ∀ machineId specJson, w.manager.machineSpecs[machineId]? = some specJson →
    Valid machineId specJson

/-- The manager spawns actors of cached machines only, and a machine leaves the
cache together with its actor. -/
theorem Managed.contained {P : Type} [SerdeJson] [DecidableEq P] [PeerId P] {score : Score P}
    {Valid : String → String → Prop} {asks : Prop} {w w' : World P}
    (h : Managed score Valid asks w w') (hw : w.Contained) : w'.Contained := by
  cases h with
  | quiet => exact hw
  | lookedUp machineId =>
    intro id
    rw [(askLookup_frame score machineId w).1]
    exact hw id
  | cached machineId specJson =>
    intro id hid
    exact Std.ExtTreeMap.mem_insert.mpr (Or.inr (hw id hid))
  | deleted machineId =>
    intro id hid
    simp only [manage_toManaging, Managing.handleMachineDelete,
      Managing.mem_actors_stopMachineActor] at hid
    simp only [manage_toManaging, Managing.handleMachineDelete, Managing.stopMachineActor_specs,
      Managing.uncacheSpec, Std.ExtTreeMap.mem_erase]
    exact ⟨by simpa using Ne.symm hid.1, hw id hid.2⟩
  | asked machineId message =>
    intro id hid
    rw [manage_toManaging, Managing.mem_actors_ask] at hid
    rw [manage_toManaging, Managing.ask_specs]
    exact hw id hid
  | spawned machineId specJson actor hspec =>
    intro id hid
    rw [manage_toManaging, Managing.mem_actors_addActor] at hid
    obtain rfl | hid := hid
    · exact Std.ExtTreeMap.mem_iff_isSome_getElem?.mpr (by simp [hspec])
    · exact hw id hid
  | stopped machineId reason lines =>
    intro id hid
    rw [manage_toManaging, Managing.mem_actors_stopMachineActor] at hid
    rw [manage_toManaging, Managing.stopMachineActor_specs]
    exact hw id hid.2

/-- The manager caches valid specs only. -/
theorem Managed.validSpecs {P : Type} [SerdeJson] [DecidableEq P] [PeerId P] {score : Score P}
    {Valid : String → String → Prop} {asks : Prop} {w w' : World P}
    (h : Managed score Valid asks w w') (hw : w.ValidSpecs Valid) : w'.ValidSpecs Valid := by
  cases h with
  | quiet => exact hw
  | lookedUp machineId =>
    intro id spec
    rw [(askLookup_frame score machineId w).1]
    exact hw id spec
  | cached machineId specJson hvalid =>
    intro id spec hget
    simp only [manage_toManaging, Managing.cacheSpec, Std.ExtTreeMap.getElem?_insert] at hget
    split_ifs at hget with he
    · obtain rfl : machineId = id := by simpa using he
      obtain rfl := Option.some.inj hget
      exact hvalid
    · exact hw id spec hget
  | deleted machineId =>
    intro id spec hget
    simp only [manage_toManaging, Managing.handleMachineDelete, Managing.stopMachineActor_specs,
      Managing.uncacheSpec, Std.ExtTreeMap.getElem?_erase] at hget
    split_ifs at hget
    exact hw id spec hget
  | asked machineId message =>
    intro id spec
    rw [manage_toManaging, Managing.ask_specs]
    exact hw id spec
  | spawned => exact hw
  | stopped machineId reason lines =>
    intro id spec
    rw [manage_toManaging, Managing.stopMachineActor_specs]
    exact hw id spec

end World

namespace Program

theorem safe_read {P β : Type} {E : Setting (Op P) Op.Ret (World P)}
    {Q : β → World P → Prop} {f : MachineActorManagerActor P → Program P β} {w : World P}
    (hE : E.exec .read = fun t => some (t.manager, t))
    (h : ∀ w', E.rely w w' → E.guar .read w' w' ∧ Safe E Q (f w'.manager) w') :
    Safe E Q (read >>= f) w := by
  apply Safe.perform_bind
  intro w' hr r t he
  rw [hE] at he
  obtain ⟨rfl, rfl⟩ := Prod.mk.inj (Option.some.inj he)
  exact h w' hr

theorem safe_lookupMachine {P β : Type} [DecidableEq P] [PeerId P] {score : Score P}
    {E : Setting (Op P) Op.Ret (World P)} {Q : β → World P → Prop} {machineId : String}
    {f : Option (LookupResult P) → Program P β} {w : World P}
    (hE : E.exec (.lookupMachine machineId) = World.exec score (.lookupMachine machineId))
    (h : ∀ w', E.rely w w' →
      E.guar (.lookupMachine machineId) w' (w'.askLookup score machineId).2 ∧
      Safe E Q (f (w'.askLookup score machineId).1) (w'.askLookup score machineId).2) :
    Safe E Q (lookupMachine machineId >>= f) w := by
  apply Safe.perform_bind
  intro w' hr r t he
  rw [hE] at he
  obtain ⟨rfl, rfl⟩ := Prod.mk.inj (Option.some.inj he)
  exact h w' hr

theorem safe_getPrefix {P β : Type} {E : Setting (Op P) Op.Ret (World P)}
    {Q : β → World P → Prop} {start : String} {f : List KeyValue → Program P β} {w : World P}
    (hE : E.exec (.getPrefix start) = fun t => some (t.etcd.getPrefix start, t))
    (h : ∀ w', E.rely w w' → E.guar (.getPrefix start) w' w' ∧
      Safe E Q (f (w'.etcd.getPrefix start)) w') :
    Safe E Q (getPrefix start >>= f) w := by
  apply Safe.perform_bind
  intro w' hr r t he
  rw [hE] at he
  obtain ⟨rfl, rfl⟩ := Prod.mk.inj (Option.some.inj he)
  exact h w' hr

/-- A change of the manager's own fields at the end of a handler. -/
theorem safe_modify {P : Type} {E : Setting (Op P) Op.Ret (World P)}
    {Q : Unit → World P → Prop} {g : ℤ → Managing P → Option (Managing P)} {w : World P}
    (hE : E.exec (.modify g) = fun t => (g t.now t.toManaging).map (fun m => ((), t.manage m)))
    (h : ∀ w', E.rely w w' → ∀ m, g w'.now w'.toManaging = some m →
      E.guar (.modify g) w' (w'.manage m) ∧ ∀ w'', E.rely (w'.manage m) w'' → Q () w'') :
    Safe E Q (modify g) w := by
  intro w' hr r t he
  rw [hE] at he
  obtain ⟨m, hm, hpair⟩ := Option.map_eq_some_iff.mp he
  obtain ⟨rfl, rfl⟩ := Prod.mk.inj hpair
  exact h w' hr m hm

theorem safe_modify_bind {P β : Type} {E : Setting (Op P) Op.Ret (World P)}
    {Q : β → World P → Prop} {g : ℤ → Managing P → Option (Managing P)}
    {f : Unit → Program P β} {w : World P}
    (hE : E.exec (.modify g) = fun t => (g t.now t.toManaging).map (fun m => ((), t.manage m)))
    (h : ∀ w', E.rely w w' → ∀ m, g w'.now w'.toManaging = some m →
      E.guar (.modify g) w' (w'.manage m) ∧ Safe E Q (f ()) (w'.manage m)) :
    Safe E Q (modify g >>= f) w := by
  apply Safe.perform_bind
  intro w' hr r t he
  rw [hE] at he
  obtain ⟨m, hm, hpair⟩ := Option.map_eq_some_iff.mp he
  obtain ⟨rfl, rfl⟩ := Prod.mk.inj hpair
  exact h w' hr m hm

/-- A put once its lookup is answered. -/
def putAnswered {P : Type} [SerdeJson] [PeerId P] (machineId specJson : String) :
    Option (LookupResult P) → Program P Unit
  | none => pure ()
  | some result => do
    let manager ← read
    if result.isLocal then
      if manager.actors.contains machineId then
        modify (fun now m => some (m.ask now machineId (.updateMachineSpec specJson)).2)
      else modify (fun now m => m.spawnMachineActor now machineId specJson)
    else if manager.actors.contains machineId then
      modify (fun _ m => m.transferOwnership machineId result)
    else pure ()

/-- The sync once the range has been read. -/
def syncRead {P : Type} [SerdeJson] [PeerId P] (kvs : List KeyValue) : Program P Bool :=
  match decodeMachines kvs with
  | none => pure false
  | some machines => do
    machines.foldlM (fun _ machine => handleMachinePut machine.1 machine.2) ()
    pure true

theorem syncAllMachines_eq {P : Type} [SerdeJson] [PeerId P] :
    (syncAllMachines : Program P Bool) = getPrefix machinesPrefix >>= syncRead := by
  unfold syncAllMachines
  congr 1

/-- The machines of a range read are decoded with their stored specs. -/
theorem decodeMachines_getPrefix (etcd : Etcd) :
    ∃ machines, decodeMachines (etcd.getPrefix machinesPrefix) = some machines ∧
      ∀ machineId specJson, (machineId, specJson) ∈ machines ↔
        etcd[machinesPrefix ++ machineId]? = some specJson := by
  have hmap : ∀ l : List (String × String),
      decodeMachines (l.map (fun kv => KeyValue.ofText kv.1 kv.2)) =
        some (l.map (fun kv => ((stripPrefix machinesPrefix kv.1).getD kv.1, kv.2))) := by
    intro l
    unfold decodeMachines
    induction l with
    | nil => rfl
    | cons kv l ih =>
      rw [List.map_cons, List.mapM_cons, ih]
      simp
  refine ⟨_, hmap _, ?_⟩
  intro machineId specJson
  rw [← Std.ExtTreeMap.mem_toList_iff_getElem?_eq_some]
  constructor
  · intro hmem
    obtain ⟨⟨key, value⟩, hin, hpair⟩ := List.mem_map.mp hmem
    obtain ⟨hstored, hsome⟩ := List.mem_filter.mp hin
    obtain ⟨name, hname⟩ := Option.isSome_iff_exists.mp hsome
    obtain ⟨rfl, rfl⟩ := Prod.mk.inj hpair
    have hkey := stripPrefix_eq_some.mp hname
    simp only at hname hkey hstored ⊢
    rw [hname, Option.getD_some, ← hkey]
    exact hstored
  · intro hmem
    refine List.mem_map.mpr ⟨(machinesPrefix ++ machineId, specJson), ?_, by simp⟩
    exact List.mem_filter.mpr ⟨hmem, by simp⟩

/-- Spawning without a licence does nothing, when the spec does not parse. -/
theorem spawnMachineActor_cases {P : Type} [SerdeJson] [PeerId P] {now : ℤ}
    {machineId specJson : String} {self m : Managing P}
    (h : self.spawnMachineActor now machineId specJson = some m) :
    (MachineSpec.fromStr specJson = none ∧ m = self) ∨
      ∃ actor, MachineActor.withNodeId now machineId specJson self.manager.nodeId = some actor ∧
        m = self.addActor machineId actor := by
  unfold Managing.spawnMachineActor at h
  cases hactor : MachineActor.withNodeId now machineId specJson self.manager.nodeId with
  | none =>
    rw [hactor] at h
    exact Or.inl ⟨Option.map_eq_none_iff.mp hactor, (Option.some.inj h).symm⟩
  | some actor =>
    rw [hactor] at h
    obtain ⟨_, -, rfl⟩ := Option.map_eq_some_iff.mp h
    exact Or.inr ⟨actor, rfl, rfl⟩

/-- A transfer emits its event and stops the actor. -/
theorem transferOwnership_eq_some {P : Type} [PeerId P] {machineId : String}
    {result : LookupResult P} {self m : Managing P}
    (h : self.transferOwnership machineId result = some m) :
    ∃ previous new, m = (self.emit [.ownershipTransferred machineId previous new]).stopMachineActor
      machineId "ownership_transfer" := by
  unfold Managing.transferOwnership at h
  obtain ⟨previous, -, h⟩ := Option.bind_eq_some_iff.mp h
  obtain ⟨new, -, h⟩ := Option.bind_eq_some_iff.mp h
  exact ⟨previous, new, (Option.some.inj h).symm⟩

open World

theorem handleMachinePut_managed {P : Type} [SerdeJson] [DecidableEq P] [PeerId P]
    (score : Score P) (Valid : String → String → Prop) (machineId specJson : String)
    (hvalid : Valid machineId specJson) (w : World P) :
    Safe (managerSetting score Valid True) (fun _ _ => True)
      (handleMachinePut machineId specJson) w := by
  unfold handleMachinePut
  apply safe_modify_bind rfl
  intro w₁ _ m hm
  obtain rfl := Option.some.inj hm
  refine ⟨.cached machineId specJson hvalid, ?_⟩
  apply safe_lookupMachine rfl
  intro w₂ hr₂
  refine ⟨.lookedUp machineId ⟨trivial, trivial⟩, ?_⟩
  have hspec₂ : w₂.manager.machineSpecs[machineId]? = some specJson := by
    rw [hr₂.specs]
    exact Std.ExtTreeMap.getElem?_insert_self
  cases hres : (w₂.askLookup score machineId).1 with
  | none => exact Safe.pure (fun _ _ => trivial)
  | some result =>
    obtain ⟨-, -, owner, heq⟩ := askLookup_some hres
    have hlast : LastLookup (w₂.askLookup score machineId).2.events machineId result.isLocal := by
      rw [heq]
      exact LastLookup.snoc ..
    have hspec : (w₂.askLookup score machineId).2.manager.machineSpecs[machineId]? =
        some specJson := by
      rw [heq]
      exact hspec₂
    apply safe_read rfl
    intro w₃ hr₃
    refine ⟨.quiet, ?_⟩
    cases hlocal : result.isLocal with
    | true =>
      rw [hlocal] at hlast
      simp only [if_true]
      by_cases hactor : w₃.manager.actors.contains machineId = true
      · rw [if_pos hactor]
        apply safe_modify rfl
        intro w₄ _ m hm
        obtain rfl := Option.some.inj hm
        exact ⟨.asked machineId (.updateMachineSpec specJson), fun _ _ => trivial⟩
      · rw [if_neg hactor]
        apply safe_modify rfl
        intro w₄ hr₄ m hm
        refine ⟨?_, fun _ _ => trivial⟩
        obtain ⟨-, rfl⟩ | ⟨actor, hnew, rfl⟩ := spawnMachineActor_cases hm
        · exact .quiet
        · apply Managed.spawned machineId specJson actor
          · rw [hr₄.specs, hr₃.specs, hspec]
          · rw [hr₄.actors]
            exact fun hmem => hactor (Std.ExtTreeMap.contains_iff_mem.mpr hmem)
          · exact hr₄.lastLookup (hr₃.lastLookup hlast)
          · exact hnew
    | false =>
      rw [hlocal] at hlast
      simp only [Bool.false_eq_true, if_false]
      by_cases hactor : w₃.manager.actors.contains machineId = true
      · rw [if_pos hactor]
        apply safe_modify rfl
        intro w₄ hr₄ m hm
        refine ⟨?_, fun _ _ => trivial⟩
        obtain ⟨previous, new, rfl⟩ := transferOwnership_eq_some hm
        apply Managed.stopped
        · exact hr₄.lastLookup (hr₃.lastLookup hlast)
        · intro e he
          exact ⟨previous, new, List.mem_singleton.mp he⟩
      · rw [if_neg hactor]
        exact Safe.pure (fun _ _ => trivial)

theorem handleMachineDelete_managed {P : Type} [SerdeJson] [DecidableEq P] [PeerId P]
    (score : Score P) (Valid : String → String → Prop) (asks : Prop) (machineId : String)
    (w : World P) : Safe (managerSetting score Valid asks) (fun _ _ => True)
      (handleMachineDelete machineId) w := by
  apply safe_modify rfl
  intro w' _ m hm
  obtain rfl := Option.some.inj hm
  exact ⟨.deleted machineId, fun _ _ => trivial⟩

theorem syncAllMachines_managed {P : Type} [SerdeJson] [DecidableEq P] [PeerId P]
    (score : Score P) (Valid : String → String → Prop) (w : World P)
    (hvalid : ValidContent Valid w.etcd) :
    Safe (managerSetting score Valid True) (fun _ _ => True) syncAllMachines w := by
  unfold syncAllMachines
  apply safe_getPrefix rfl
  intro w' hr
  refine ⟨.quiet, ?_⟩
  obtain ⟨machines, hmachines, hmem⟩ := decodeMachines_getPrefix w'.etcd
  rw [hmachines]
  apply Safe.bind
  have hall : ∀ machine ∈ machines, Valid machine.1 machine.2 := by
    intro machine hin
    exact hr.etcd hvalid machine.1 machine.2 ((hmem machine.1 machine.2).mp hin)
  refine (Safe.foldlM
    (fun (rest : List (String × String)) _ _ => ∀ machine ∈ rest, Valid machine.1 machine.2)
    (fun _ _ _ _ h _ => h) ?_ hall).mono (fun _ _ _ => Safe.pure (fun _ _ => trivial))
  intro machine rest _ t hrest
  refine (handleMachinePut_managed score Valid machine.1 machine.2
    (hrest machine List.mem_cons_self) t).mono ?_
  intro _ _ _ machine' hin
  exact hrest machine' (List.mem_cons_of_mem machine hin)

/-- A machine whose actor a rebalance may spawn: cached, without actor, and local
at its last lookup. -/
def Spawnable {P : Type} (w : World P) (machine : String × String) : Prop :=
  w.manager.machineSpecs[machine.1]? = some machine.2 ∧ machine.1 ∉ w.manager.actors ∧
    LastLookup w.events machine.1 true

theorem Spawnable.interfere {P : Type} {Valid : String → String → Prop} {w w' : World P}
    {machine : String × String} (h : Spawnable w machine) (hr : Interferes Valid w w') :
    Spawnable w' machine := by
  obtain ⟨hspec, hnone, hlookup⟩ := h
  refine ⟨by rw [hr.specs, hspec], ?_, hr.lastLookup hlookup⟩
  rw [hr.actors]
  exact hnone

/-- Stopping an actor leaves the plan to spawn others in force. -/
theorem Spawnable.stop {P : Type} {w : World P} {machine : String × String}
    (h : Spawnable w machine) (machineId reason : String) :
    Spawnable (w.manage (w.stopMachineActor machineId reason)) machine := by
  obtain ⟨hspec, hnone, hlookup⟩ := h
  unfold Managing.stopMachineActor
  by_cases hactor : w.manager.actors.contains machineId = true
  · rw [if_pos hactor]
    refine ⟨hspec, ?_, hlookup.append _ (by simp)⟩
    intro hmem
    exact hnone (Std.ExtTreeMap.mem_of_mem_erase hmem)
  · rw [if_neg hactor]
    exact ⟨hspec, hnone, hlookup⟩

/-- Spawning one actor leaves the plan to spawn others in force. -/
theorem Spawnable.add {P : Type} {w : World P} {machine : String × String}
    (h : Spawnable w machine) {machineId : String} (hne : machine.1 ≠ machineId)
    (actor : MachineActor) : Spawnable (w.manage (w.addActor machineId actor)) machine := by
  obtain ⟨hspec, hnone, hlookup⟩ := h
  refine ⟨hspec, ?_, hlookup.append _ (by simp)⟩
  intro hmem
  obtain heq | hmem := Std.ExtTreeMap.mem_insert.mp hmem
  · have he : machineId = machine.1 := by simpa using heq
    exact hne he.symm
  · exact hnone hmem

/-- The plan of a rebalance after some of the machines have been checked. -/
structure Planned {P : Type} (rest : List String) (plan : List String × List (String × String))
    (w : World P) : Prop where
  nodup : rest.Nodup
  stop : ∀ machineId ∈ plan.1, machineId ∉ rest ∧ LastLookup w.events machineId false
  spawn : ∀ machine ∈ plan.2, machine.1 ∉ rest ∧ Spawnable w machine
  once : (plan.2.map Prod.fst).Nodup

theorem Planned.interfere {P : Type} {Valid : String → String → Prop} {rest : List String}
    {plan : List String × List (String × String)} {w w' : World P} (h : Planned rest plan w)
    (hr : Interferes Valid w w') : Planned rest plan w' where
  nodup := h.nodup
  stop machineId hmem := ⟨(h.stop machineId hmem).1, hr.lastLookup (h.stop machineId hmem).2⟩
  spawn machine hmem := ⟨(h.spawn machine hmem).1, (h.spawn machine hmem).2.interfere hr⟩
  once := h.once

/-- A lookup of the next machine does not affect the plan for those before it. -/
theorem Planned.lookup {P : Type} [DecidableEq P] [PeerId P] (score : Score P) {machineId : String}
    {rest : List String} {plan : List String × List (String × String)} {w : World P}
    (h : Planned (machineId :: rest) plan w) :
    Planned rest plan (w.askLookup score machineId).2 := by
  obtain ⟨hnot, hnodup⟩ := List.nodup_cons.mp h.nodup
  have hlast : ∀ id isLocal, id ≠ machineId → LastLookup w.events id isLocal →
      LastLookup (w.askLookup score machineId).2.events id isLocal := by
    intro id isLocal hne hl
    cases hres : (w.askLookup score machineId).1 with
    | none =>
      rw [askLookup_none hres]
      exact hl
    | some result =>
      obtain ⟨-, -, owner, heq⟩ := askLookup_some hres
      rw [heq]
      refine hl.append _ ?_
      intro owner' isLocal' hmem
      simp only [List.mem_singleton, Event.machineLookup.injEq] at hmem
      exact hne hmem.1
  have hframe := (askLookup_frame score machineId w).1
  constructor
  · exact hnodup
  · intro id hmem
    obtain ⟨hid, hl⟩ := h.stop id hmem
    rw [List.mem_cons, not_or] at hid
    exact ⟨hid.2, hlast id false hid.1 hl⟩
  · intro machine hmem
    obtain ⟨hid, hspec, hnone, hl⟩ := h.spawn machine hmem
    rw [List.mem_cons, not_or] at hid
    exact ⟨hid.2, by rw [hframe, hspec], by rwa [hframe], hlast machine.1 true hid.1 hl⟩
  · exact h.once

theorem checkMachine_managed {P : Type} [SerdeJson] [DecidableEq P] [PeerId P]
    (score : Score P) (Valid : String → String → Prop) (machineId : String) (rest : List String)
    (plan : List String × List (String × String)) (w : World P)
    (h : Planned (machineId :: rest) plan w) :
    Safe (managerSetting score Valid True) (fun plan' t => Planned rest plan' t)
      (checkMachine plan machineId) w := by
  unfold checkMachine
  apply safe_lookupMachine rfl
  intro w₁ hr₁
  refine ⟨.lookedUp machineId ⟨trivial, trivial⟩, ?_⟩
  have hplan := (h.interfere hr₁).lookup score
  have hhead : ∀ machine ∈ plan.2, machine.1 ≠ machineId := by
    intro machine hmem he
    exact (h.spawn machine hmem).1 (by rw [he]; exact List.mem_cons_self)
  have hfresh : machineId ∉ rest := (List.nodup_cons.mp h.nodup).1
  cases hres : (w₁.askLookup score machineId).1 with
  | none => exact Safe.pure (fun _ hr => hplan.interfere hr)
  | some result =>
    obtain ⟨-, -, owner, heq⟩ := askLookup_some hres
    have hlast : LastLookup (w₁.askLookup score machineId).2.events machineId result.isLocal := by
      rw [heq]
      exact LastLookup.snoc ..
    apply safe_read rfl
    intro w₂ hr₂
    refine ⟨.quiet, ?_⟩
    have hplan₂ := hplan.interfere hr₂
    have hlast₂ := hr₂.lastLookup hlast
    by_cases hspawn : (result.isLocal && !w₂.manager.actors.contains machineId) = true
    · simp only [hspawn, if_true]
      obtain ⟨hlocal, hnone⟩ := Bool.and_eq_true_iff.mp hspawn
      rw [hlocal] at hlast₂
      cases hspec : w₂.manager.machineSpecs[machineId]? with
      | none => exact Safe.pure (fun _ hr => hplan₂.interfere hr)
      | some specJson =>
        refine Safe.pure (fun w₃ hr₃ => Planned.interfere ?_ hr₃)
        constructor
        · exact hplan₂.nodup
        · exact hplan₂.stop
        · intro machine hmem
          obtain hmem | hmem := List.mem_append.mp hmem
          · exact hplan₂.spawn machine hmem
          · obtain rfl := List.mem_singleton.mp hmem
            refine ⟨hfresh, hspec, ?_, hlast₂⟩
            intro hin
            rw [Std.ExtTreeMap.contains_iff_mem.mpr hin] at hnone
            cases hnone
        · rw [List.map_append, List.nodup_append]
          refine ⟨hplan₂.once, by simp, ?_⟩
          intro id hid id' hid' he
          obtain ⟨machine, hmem, rfl⟩ := List.mem_map.mp hid
          obtain rfl : id' = machineId := by simpa using hid'
          exact hhead machine hmem he
    · simp only [hspawn]
      by_cases hstop : (!result.isLocal && w₂.manager.actors.contains machineId) = true
      · simp only [hstop, if_true]
        refine Safe.pure (fun w₃ hr₃ => Planned.interfere ?_ hr₃)
        have hlocal : result.isLocal = false := by
          have hleft := (Bool.and_eq_true_iff.mp hstop).1
          simpa using hleft
        rw [hlocal] at hlast₂
        constructor
        · exact hplan₂.nodup
        · intro id hmem
          obtain hmem | hmem := List.mem_append.mp hmem
          · exact hplan₂.stop id hmem
          · obtain rfl := List.mem_singleton.mp hmem
            exact ⟨hfresh, hlast₂⟩
        · exact hplan₂.spawn
        · exact hplan₂.once
      · simp only [hstop]
        exact Safe.pure (fun _ hr => hplan₂.interfere hr)

theorem rebalanceActors_managed {P : Type} [SerdeJson] [DecidableEq P] [PeerId P]
    (score : Score P) (Valid : String → String → Prop) (machineIds : List String)
    (hnodup : machineIds.Nodup) (w : World P) :
    Safe (managerSetting score Valid True) (fun _ _ => True) (rebalanceActors machineIds) w := by
  unfold rebalanceActors
  apply Safe.bind
  have hstart : Planned machineIds (([], []) : List String × List (String × String)) w :=
    ⟨hnodup, by simp, by simp, by simp⟩
  refine (Safe.foldlM (fun rest plan t => Planned rest plan t)
    (fun _ _ _ _ h hr => h.interfere hr)
    (fun machineId rest plan t h => checkMachine_managed score Valid machineId rest plan t h)
    hstart).mono ?_
  intro plan w₁ hplan
  apply Safe.bind
  -- Stopping: what remains to be stopped was not local, what will be spawned stays spawnable.
  refine (Safe.foldlM (fun (toStop : List String) (_ : Unit) t =>
      (∀ machineId ∈ toStop, LastLookup t.events machineId false) ∧
        ∀ machine ∈ plan.2, Spawnable t machine) ?_ ?_
    ⟨fun id hid => (hplan.stop id hid).2, fun machine hm => (hplan.spawn machine hm).2⟩).mono ?_
  · intro toStop _ t t' h hr
    exact ⟨fun id hid => hr.lastLookup (h.1 id hid),
      fun machine hm => (h.2 machine hm).interfere hr⟩
  · intro machineId toStop _ t h
    apply safe_modify rfl
    intro t₁ hr₁ m hm
    obtain rfl := Option.some.inj hm
    have hlast := hr₁.lastLookup (h.1 machineId List.mem_cons_self)
    refine ⟨?_, ?_⟩
    · have hstop : ∀ asks : Prop, Managed score Valid asks t₁
          (t₁.manage ((t₁.emit []).stopMachineActor machineId "topology_rebalance")) :=
        fun _ => .stopped machineId "topology_rebalance" [] hlast (by simp)
      rw [Managing.emit_nil] at hstop
      exact hstop _
    · intro t₂ hr₂
      refine ⟨fun id hid => hr₂.lastLookup ?_, fun machine hm => ?_⟩
      · have hid' := hr₁.lastLookup (h.1 id (List.mem_cons_of_mem machineId hid))
        unfold Managing.stopMachineActor
        by_cases hactor : t₁.manager.actors.contains machineId = true
        · rw [if_pos hactor]
          exact hid'.append _ (by simp)
        · rw [if_neg hactor]
          exact hid'
      · exact (((h.2 machine hm).interfere hr₁).stop machineId _).interfere hr₂
  · intro _ w₂ h₂
    -- Spawning: the machines that remain are spawnable and listed once.
    refine (Safe.foldlM (fun (toSpawn : List (String × String)) (_ : Unit) t =>
        (toSpawn.map Prod.fst).Nodup ∧ ∀ machine ∈ toSpawn, Spawnable t machine) ?_ ?_
      ⟨hplan.once, h₂.2⟩).mono (fun _ _ _ => trivial)
    · intro toSpawn _ t t' h hr
      exact ⟨h.1, fun machine hm => (h.2 machine hm).interfere hr⟩
    · intro machine toSpawn _ t h
      rw [List.map_cons, List.nodup_cons] at h
      obtain ⟨⟨hnot, hrest⟩, hspawnable⟩ := h
      apply safe_modify rfl
      intro t₁ hr₁ m hm
      have hmachine := (hspawnable machine List.mem_cons_self).interfere hr₁
      have hothers : ∀ machine' ∈ toSpawn, Spawnable t₁ machine' :=
        fun machine' hin => (hspawnable machine' (List.mem_cons_of_mem machine hin)).interfere hr₁
      obtain ⟨-, rfl⟩ | ⟨actor, hactor, rfl⟩ := spawnMachineActor_cases hm
      · exact ⟨.quiet, fun t₂ hr₂ =>
          ⟨hrest, fun machine' hin => (hothers machine' hin).interfere hr₂⟩⟩
      · refine ⟨.spawned machine.1 machine.2 actor hmachine.1 hmachine.2.1 hmachine.2.2 hactor, ?_⟩
        intro t₂ hr₂
        refine ⟨hrest, fun machine' hin => Spawnable.interfere ?_ hr₂⟩
        apply (hothers machine' hin).add
        intro he
        exact hnot (he ▸ List.mem_map_of_mem hin)

end Program

/-- The messages whose handlers look machines up. -/
def ManagerMessage.Asks : ManagerMessage → Prop
  | .etcdMachineEvent _ .put (some _) => True
  | .etcdMachineEvent .. => False
  | .syncAllMachines => True
  | .rebalanceActors => True

/-- The spec that a message carries satisfies a condition. -/
def ManagerMessage.Carries (Valid : String → String → Prop) : ManagerMessage → Prop
  | .etcdMachineEvent machineId .put (some specJson) => Valid machineId specJson
  | _ => True

/-- Every handler does the manager's steps, whatever the rest of the node does
between its operations. -/
theorem ManagerMessage.handler_managed {P : Type} [SerdeJson] [DecidableEq P] [PeerId P]
    (score : Score P) (Valid : String → String → Prop) (message : ManagerMessage)
    (hcarries : message.Carries Valid) (machineIds : List String) (hnodup : machineIds.Nodup)
    (w : World P) (hcontent : World.ValidContent Valid w.etcd) :
    Safe (World.managerSetting score Valid message.Asks) (fun _ _ => True)
      (message.handler machineIds) w := by
  have hpure : ∀ (asks : Prop) (reply : ManagerReply) (t : World P),
      Safe (World.managerSetting score Valid asks) (fun _ _ => True) (pure reply) t :=
    fun _ _ _ => Safe.pure (fun _ _ => trivial)
  match message with
  | .etcdMachineEvent machineId .put (some specJson) =>
    apply Safe.bind
    exact (Program.handleMachinePut_managed score Valid machineId specJson hcarries w).mono
      (fun _ t _ => hpure _ _ t)
  | .etcdMachineEvent _ .put none => exact hpure _ _ w
  | .etcdMachineEvent machineId .delete _ =>
    apply Safe.bind
    exact (Program.handleMachineDelete_managed score Valid _ machineId w).mono
      (fun _ t _ => hpure _ _ t)
  | .syncAllMachines =>
    apply Safe.bind
    refine (Program.syncAllMachines_managed score Valid w hcontent).mono ?_
    intro fetched t _
    cases fetched with
    | true =>
      apply Program.safe_read rfl
      exact fun w' _ => ⟨.quiet, hpure _ _ w'⟩
    | false => exact hpure _ _ t
  | .rebalanceActors =>
    apply Safe.bind
    exact (Program.rebalanceActors_managed score Valid machineIds hnodup w).mono
      (fun _ t _ => hpure _ _ t)

end Neolaas
