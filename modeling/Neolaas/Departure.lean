import Neolaas.DiscoveryController
import Neolaas.MachineIntake
import Neolaas.QuiescentOwnership
import Neolaas.SwarmEventLoop

/-!
# A node whose keep-alive task has failed

The controller revokes its lease and tells the swarm, which only logs it. Nothing
on this way reaches the known peers, sharding or the manager, so that the node
keeps the actors of the machines that it owned among the peers it knew.
-/
namespace Neolaas
open AtomicProgram ChangeLog LabelledRuns PeerId

namespace World

/-- If lookups still work, every actor's machine belongs to the local node. -/
def OwnsActors {P : Type} (score : Score P) (w : World P) : Prop :=
  w.coordinatorAlive = true → ∀ machineId ∈ w.manager.actors, w.coordinator.Owns score machineId

theorem OwnsActors.steady {P : Type} {Valid : String → String → Prop} {score : Score P}
    {w w' : World P} (h : w.OwnsActors score) (hr : Steady Valid w w') : w'.OwnsActors score := by
  intro halive machineId hactor
  rw [hr.coordinator]
  exact h (hr.alive ▸ halive) machineId ((hr.interferes.actors machineId).mp hactor)

/-- Actors may go, and the actors of owned machines may come. -/
theorem OwnsActors.manage {P : Type} {score : Score P} {w : World P} (h : w.OwnsActors score)
    {m : Managing P} (hactors : w.coordinatorAlive = true → ∀ machineId ∈ m.manager.actors,
      machineId ∈ w.manager.actors ∨ w.coordinator.Owns score machineId) :
    (w.manage m).OwnsActors score := by
  intro halive machineId hactor
  obtain hold | hown := hactors halive machineId hactor
  · exact h halive machineId hold
  · exact hown

end World

namespace Program
open World

/-- A spawn adds no actor but that of its machine. -/
theorem mem_actors_spawnMachineActor {P : Type} [SerdeJson] [PeerId P] {now : ℤ}
    {machineId specJson id : String} {self m : Managing P}
    (h : self.spawnMachineActor now machineId specJson = some m) (hid : id ∈ m.manager.actors) :
    id ∈ self.manager.actors ∨ id = machineId := by
  obtain ⟨-, rfl⟩ | ⟨actor, -, rfl⟩ := spawnMachineActor_cases h
  · exact Or.inl hid
  · rw [Managing.mem_actors_addActor] at hid
    exact hid.symm

theorem handleMachinePut_ownsActors {P : Type} [SerdeJson] [DecidableEq P] [PeerId P]
    (score : Score P) (Valid : String → String → Prop) (machineId specJson : String) (w : World P)
    (h : w.OwnsActors score) :
    Safe (steadySetting score Valid) (fun _ t => t.OwnsActors score)
      (handleMachinePut machineId specJson) w := by
  unfold handleMachinePut
  apply safe_modify_bind rfl
  intro w₁ hr₁ m hm
  obtain rfl := Option.some.inj hm
  refine ⟨trivial, ?_⟩
  have hcached : (w₁.manage (w₁.cacheSpec machineId specJson)).OwnsActors score :=
    (h.steady hr₁).manage (fun _ id hid => Or.inl hid)
  generalize w₁.manage (w₁.cacheSpec machineId specJson) = v at hcached ⊢
  apply safe_lookupMachine rfl
  intro w₂ hr₂
  refine ⟨trivial, ?_⟩
  have h₂ := hcached.steady hr₂
  cases hres : (w₂.askLookup score machineId).1 with
  | none =>
    refine Safe.pure (fun w₃ hr₃ halive => ?_)
    rw [hr₃.alive, askLookup_none hres] at halive
    cases halive
  | some result =>
    obtain ⟨-, hlocal, owner, heq⟩ := askLookup_some hres
    rw [heq]
    have hlogged : OwnsActors score
        { w₂ with events := w₂.events ++ [.machineLookup machineId owner result.isLocal] } := h₂
    apply safe_read rfl
    intro w₃ hr₃
    refine ⟨trivial, ?_⟩
    have h₃ := hlogged.steady hr₃
    by_cases hown : result.isLocal = true
    · rw [if_pos hown]
      by_cases hactor : w₃.manager.actors.contains machineId = true
      · rw [if_pos hactor]
        apply safe_modify rfl
        intro w₄ hr₄ m hm
        obtain rfl := Option.some.inj hm
        refine ⟨trivial, fun w₅ hr₅ => OwnsActors.steady ?_ hr₅⟩
        refine (h₃.steady hr₄).manage (fun _ id hid => ?_)
        exact Or.inl ((Managing.mem_actors_ask ..).mp hid)
      · rw [if_neg hactor]
        apply safe_modify rfl
        intro w₄ hr₄ m hm
        refine ⟨trivial, fun w₅ hr₅ => OwnsActors.steady ?_ hr₅⟩
        refine (h₃.steady hr₄).manage (fun _ id hid => ?_)
        obtain hold | rfl := mem_actors_spawnMachineActor hm hid
        · exact Or.inl hold
        · right
          rw [hr₄.coordinator, hr₃.coordinator]
          exact hlocal.mp hown
    · rw [if_neg hown]
      by_cases hactor : w₃.manager.actors.contains machineId = true
      · rw [if_pos hactor]
        apply safe_modify rfl
        intro w₄ hr₄ m hm
        obtain ⟨previous, new, rfl⟩ := transferOwnership_eq_some hm
        refine ⟨trivial, fun w₅ hr₅ => OwnsActors.steady ?_ hr₅⟩
        refine (h₃.steady hr₄).manage (fun _ id hid => ?_)
        exact Or.inl ((Managing.mem_actors_stopMachineActor ..).mp hid).2
      · rw [if_neg hactor]
        exact Safe.pure (fun w₄ hr₄ => h₃.steady hr₄)

theorem handleMachineDelete_ownsActors {P : Type} [SerdeJson] [DecidableEq P] [PeerId P]
    (score : Score P) (Valid : String → String → Prop) (machineId : String) (w : World P)
    (h : w.OwnsActors score) :
    Safe (steadySetting score Valid) (fun _ t => t.OwnsActors score)
      (handleMachineDelete machineId) w := by
  apply safe_modify rfl
  intro w₁ hr₁ m hm
  obtain rfl := Option.some.inj hm
  refine ⟨trivial, fun w₂ hr₂ => OwnsActors.steady ?_ hr₂⟩
  refine (h.steady hr₁).manage (fun _ id hid => ?_)
  exact Or.inl ((Managing.mem_actors_stopMachineActor ..).mp hid).2

theorem syncAllMachines_ownsActors {P : Type} [SerdeJson] [DecidableEq P] [PeerId P]
    (score : Score P) (Valid : String → String → Prop) (w : World P) (h : w.OwnsActors score) :
    Safe (steadySetting score Valid) (fun _ t => t.OwnsActors score) syncAllMachines w := by
  unfold syncAllMachines
  apply safe_getPrefix rfl
  intro w₁ hr₁
  refine ⟨trivial, ?_⟩
  have h₁ := h.steady hr₁
  cases decodeMachines (w₁.etcd.getPrefix machinesPrefix) with
  | none => exact Safe.pure (fun w₂ hr₂ => h₁.steady hr₂)
  | some machines =>
    apply Safe.bind
    refine (Safe.foldlM (fun (_ : List (String × String)) (_ : Unit) t => t.OwnsActors score)
      (fun _ _ _ _ ht hr => ht.steady hr) ?_ h₁).mono ?_
    · intro machine _ _ t ht
      exact handleMachinePut_ownsActors score Valid machine.1 machine.2 t ht
    · intro _ t ht
      exact Safe.pure (fun t' hr => ht.steady hr)

/-- The plan of a rebalance after some of the machines have been checked: an actor
that stays is owned, and so is one that comes. -/
def Foreseen {P : Type} (score : Score P) (rest : List String)
    (plan : List String × List (String × String)) (w : World P) : Prop :=
  w.coordinatorAlive = true →
    (∀ id ∈ w.manager.actors, id ∉ rest → id ∉ plan.1 → w.coordinator.Owns score id) ∧
    ∀ machine ∈ plan.2, w.coordinator.Owns score machine.1

theorem Foreseen.steady {P : Type} {Valid : String → String → Prop} {score : Score P}
    {rest : List String} {plan : List String × List (String × String)} {w w' : World P}
    (h : Foreseen score rest plan w) (hr : Steady Valid w w') : Foreseen score rest plan w' := by
  intro halive
  obtain ⟨hstay, hcome⟩ := h (hr.alive ▸ halive)
  rw [hr.coordinator]
  refine ⟨fun id hid => hstay id ((hr.interferes.actors id).mp hid), hcome⟩

theorem checkMachine_foresees {P : Type} [SerdeJson] [DecidableEq P] [PeerId P]
    (score : Score P) (Valid : String → String → Prop) (machineId : String) (rest : List String)
    (plan : List String × List (String × String)) (w : World P)
    (h : Foreseen score (machineId :: rest) plan w) :
    Safe (steadySetting score Valid) (fun plan' t => Foreseen score rest plan' t)
      (checkMachine plan machineId) w := by
  unfold checkMachine
  apply safe_lookupMachine rfl
  intro w₁ hr₁
  refine ⟨trivial, ?_⟩
  have h₁ := h.steady hr₁
  cases hres : (w₁.askLookup score machineId).1 with
  | none =>
    refine Safe.pure (fun w₂ hr₂ halive => ?_)
    rw [hr₂.alive, askLookup_none hres] at halive
    cases halive
  | some result =>
    obtain ⟨-, hlocal, owner, heq⟩ := askLookup_some hres
    rw [heq]
    have hlogged : Foreseen score (machineId :: rest) plan
        { w₁ with events := w₁.events ++ [.machineLookup machineId owner result.isLocal] } := h₁
    apply safe_read rfl
    intro w₂ hr₂
    refine ⟨trivial, ?_⟩
    have h₂ := hlogged.steady hr₂
    have hlocal₂ : result.isLocal = true ↔ w₂.coordinator.Owns score machineId := by
      rw [hr₂.coordinator, hlocal]
    have hactor : w₂.manager.actors.contains machineId = true ↔ machineId ∈ w₂.manager.actors :=
      Std.ExtTreeMap.contains_iff_mem
    -- The plan is the same and the machine has no actor or is owned.
    have hkept : (machineId ∈ w₂.manager.actors → w₂.coordinator.Owns score machineId) →
        Foreseen score rest plan w₂ := by
      intro hmachine halive
      obtain ⟨hstay, hcome⟩ := h₂ halive
      refine ⟨fun id hid hrest hstop => ?_, hcome⟩
      by_cases he : id = machineId
      · rw [he]
        exact hmachine (he ▸ hid)
      · exact hstay id hid (by simp [he, hrest]) hstop
    by_cases hspawn : (result.isLocal && !w₂.manager.actors.contains machineId) = true
    · simp only [hspawn, if_true]
      obtain ⟨hown, hnone⟩ := Bool.and_eq_true_iff.mp hspawn
      have hmachine := hkept (fun _ => hlocal₂.mp hown)
      cases w₂.manager.machineSpecs[machineId]? with
      | none => exact Safe.pure (fun w₃ hr₃ => hmachine.steady hr₃)
      | some specJson =>
        refine Safe.pure (fun w₃ hr₃ => Foreseen.steady (w := w₂) ?_ hr₃)
        intro halive
        obtain ⟨hstay, hcome⟩ := hmachine halive
        refine ⟨hstay, fun machine hin => ?_⟩
        obtain hin | hin := List.mem_append.mp hin
        · exact hcome machine hin
        · rw [List.mem_singleton.mp hin]
          exact hlocal₂.mp hown
    · simp only [hspawn]
      by_cases hstop : (!result.isLocal && w₂.manager.actors.contains machineId) = true
      · simp only [hstop, if_true]
        refine Safe.pure (fun w₃ hr₃ => Foreseen.steady (w := w₂) ?_ hr₃)
        intro halive
        obtain ⟨hstay, hcome⟩ := h₂ halive
        refine ⟨fun id hid hrest hplan => ?_, hcome⟩
        rw [List.mem_append, List.mem_singleton, not_or] at hplan
        exact hstay id hid (by simp [hplan.2, hrest]) hplan.1
      · simp only [hstop]
        refine Safe.pure (fun w₃ hr₃ => Foreseen.steady (hkept ?_) hr₃)
        intro hin
        rw [← hlocal₂]
        have hcontains := hactor.mpr hin
        revert hstop
        rw [hcontains]
        cases result.isLocal <;> simp

theorem rebalanceActors_ownsActors {P : Type} [SerdeJson] [DecidableEq P] [PeerId P]
    (score : Score P) (Valid : String → String → Prop) (machineIds : List String) (w : World P)
    (hkeys : machineIds.Perm w.manager.machineSpecs.keys) (hcontained : w.Contained) :
    Safe (steadySetting score Valid) (fun _ t => t.OwnsActors score)
      (rebalanceActors machineIds) w := by
  unfold rebalanceActors
  apply Safe.bind
  have hstart : Foreseen score machineIds (([], []) : List String × List (String × String)) w := by
    refine fun _ => ⟨fun id hid hrest _ => ?_, by simp⟩
    exact absurd (hkeys.mem_iff.mpr (Std.ExtTreeMap.mem_keys.mpr (hcontained id hid))) hrest
  refine (Safe.foldlM (fun rest plan t => Foreseen score rest plan t)
    (fun _ _ _ _ h hr => h.steady hr)
    (fun machineId rest plan t h => checkMachine_foresees score Valid machineId rest plan t h)
    hstart).mono ?_
  intro plan w₁ hplan
  apply Safe.bind
  -- Once nothing remains to be checked, the machines that remain to be stopped play its part.
  refine (Safe.foldlM (fun (toStop : List String) (_ : Unit) t =>
    Foreseen score [] (toStop, plan.2) t) (fun _ _ _ _ h hr => h.steady hr) ?_ hplan).mono ?_
  · intro machineId toStop _ t ht
    apply safe_modify rfl
    intro t₁ hr₁ m hm
    obtain rfl := Option.some.inj hm
    refine ⟨trivial, fun t₂ hr₂ => Foreseen.steady ?_ hr₂⟩
    intro halive
    obtain ⟨hstay, hcome⟩ := ht.steady hr₁ halive
    refine ⟨fun id hid hrest hstop => ?_, hcome⟩
    obtain ⟨hne, hin⟩ := (Managing.mem_actors_stopMachineActor ..).mp hid
    exact hstay id hin hrest (by simp [hne, hstop])
  · intro _ w₂ h₂
    refine (Safe.foldlM (fun (toSpawn : List (String × String)) (_ : Unit) t =>
      Foreseen score [] ([], toSpawn) t) (fun _ _ _ _ h hr => h.steady hr) ?_ h₂).mono ?_
    · intro machine toSpawn _ t ht
      apply safe_modify rfl
      intro t₁ hr₁ m hm
      refine ⟨trivial, fun t₂ hr₂ => Foreseen.steady ?_ hr₂⟩
      intro halive
      obtain ⟨hstay, hcome⟩ := ht.steady hr₁ halive
      refine ⟨fun id hid hrest hstop => ?_, fun machine' hin =>
        hcome machine' (List.mem_cons_of_mem machine hin)⟩
      obtain hin | rfl := mem_actors_spawnMachineActor hm hid
      · exact hstay id hin hrest hstop
      · exact hcome machine List.mem_cons_self
    · intro _ t ht halive id hid
      exact (ht halive).1 id hid List.not_mem_nil List.not_mem_nil

end Program

/-- Owning the machines of all actors, over any specs. -/
theorem World.attained_ownsActors {P : Type} [SerdeJson] [DecidableEq P] [PeerId P]
    (score : Score P) (Valid : String → String → Prop) :
    World.Attained score Valid (World.OwnsActors score) where
  steady _ _ hr h := h.steady hr
  rebalance machineIds w hkeys hcontained _ := by
    apply Safe.bind
    refine (Program.rebalanceActors_ownsActors score Valid machineIds w hkeys hcontained).mono ?_
    intro _ t ht
    exact Safe.pure (fun t' hr => ht.steady hr)
  handler message _ hne machineIds w _ h := by
    have hpure : ∀ (reply : ManagerReply) (t : World P), t.OwnsActors score →
        Safe (World.steadySetting score Valid) (fun _ t' => t'.OwnsActors score)
          (pure reply) t :=
      fun _ _ ht => Safe.pure (fun _ hr => ht.steady hr)
    match message with
    | .etcdMachineEvent machineId .put (some specJson) =>
      apply Safe.bind
      exact (Program.handleMachinePut_ownsActors score Valid machineId specJson w h).mono
        (fun _ t ht => hpure _ t ht)
    | .etcdMachineEvent _ .put none => exact hpure _ w h
    | .etcdMachineEvent machineId .delete _ =>
      apply Safe.bind
      exact (Program.handleMachineDelete_ownsActors score Valid machineId w h).mono
        (fun _ t ht => hpure _ t ht)
    | .syncAllMachines =>
      apply Safe.bind
      refine (Program.syncAllMachines_ownsActors score Valid w h).mono ?_
      intro fetched t ht
      cases fetched with
      | true =>
        apply Program.safe_read rfl
        exact fun w' hr => ⟨trivial, hpure _ w' (ht.steady hr)⟩
      | false => exact hpure _ t ht
    | .rebalanceActors => exact absurd rfl hne

namespace Node

/-- A node whose stored specs are valid and whose manager heads for a property. -/
structure Course {P A : Type} [SerdeJson] [DecidableEq P] [PeerId P] (score : Score P)
    (Valid : String → String → Prop) (Q : World P → Prop) (s : Node P A) : Prop where
  localPeerId : s.world.coordinator.localPeerId = s.phases.localPeerId
  sound : s.Sound score Valid
  specs : s.world.ValidSpecs Valid
  contained : s.world.Contained
  informed : (∀ kvs, s.stage ≠ .converging kvs) → s.stage ≠ .failed → s.Informed
  heading : s.managerAlive = true → ¬s.Disturbed → s.Heading score Valid Q

theorem Course.step {P A : Type} [SerdeJson] [DecidableEq P] [PeerId P] [Multiaddr A]
    {score : Score P} {Valid : String → String → Prop} {Q : World P → Prop} {s t : Node P A}
    {l : Label P} (hs : s.Course score Valid Q) (hQ : World.Attained score Valid Q)
    (hl : s.SpecsSatisfy Valid l) (h : Steps score s l t) : t.Course score Valid Q := by
  obtain ⟨hsound, hworld⟩ := hs.sound.step hl h
  obtain ⟨hlocal, hinformed⟩ := Informed.step hs.informed hs.sound h
  constructor
  · rw [hworld.localPeerId, hlocal]
    exact hs.localPeerId
  · exact hsound
  · exact hworld.validSpecs hs.specs
  · exact hworld.contained hs.contained
  · exact hinformed
  · exact Heading.step hQ hs.heading hs.contained hs.specs hs.sound hl h

theorem course_start {P A : Type} [SerdeJson] [DecidableEq P] [PeerId P] {score : Score P}
    {Valid : String → String → Prop} {Q : World P → Prop} {clusterId : String} {localPeerId : P}
    {localAddr : A} {logDebug : Bool} {nodeId : String} {etcd : Etcd} {now : ℤ} {s : Node P A}
    (hcontent : World.ValidContent Valid etcd)
    (hempty : ∀ w : World P, w.manager.actors = ∅ → w.manager.machineSpecs = ∅ → Q w)
    (h : start clusterId localPeerId localAddr logDebug nodeId etcd now = some s) :
    s.Course score Valid Q := by
  have htracks : s.Tracks score := tracks_start h
  have hsound := sound_start score Valid hcontent h
  obtain ⟨coordinator, -, rfl⟩ := Option.map_eq_some_iff.mp h
  constructor
  · exact htracks.localPeerId
  · exact hsound
  · intro machineId specJson hget
    simp [MachineActorManagerActor.new] at hget
  · exact htracks.contained
  · exact htracks.informed
  · intro _ _
    exact hempty _ rfl rfl

/-- What the swarm takes from its channel concerns no one else. -/
theorem Course.swarmTx {P A : Type} [SerdeJson] [DecidableEq P] [PeerId P] {score : Score P}
    {Valid : String → String → Prop} {Q : World P → Prop} {s : Node P A}
    (hs : s.Course score Valid Q) (swarmTx : List (DiscoveryCommand P A)) :
    ({ s with phases := { s.phases with swarmTx := swarmTx } } :
      Node P A).Course score Valid Q where
  localPeerId := hs.localPeerId
  sound := ⟨hs.sound.content, hs.sound.watched, hs.sound.mailed, hs.sound.managed⟩
  specs := hs.specs
  contained := hs.contained
  informed hc hf := (hs.informed hc hf).congr rfl rfl rfl id
  heading := hs.heading

/-- The controller has ended, over these known peers. -/
structure Frozen {P A : Type} (localPeerId : P) (known : Finset P) (s : Node P A) : Prop where
  stage : s.stage = .stopped
  localPeerId : s.phases.localPeerId = localPeerId
  knownPeers : s.phases.knownPeers = known

theorem Frozen.step {P A : Type} [SerdeJson] [DecidableEq P] [PeerId P] [Multiaddr A]
    {score : Score P} {localPeerId : P} {known : Finset P} {s t : Node P A} {l : Label P}
    (hs : s.Frozen localPeerId known) (h : Steps score s l t) : t.Frozen localPeerId known := by
  have hstage := hs.stage
  cases h with
  | discover hd =>
    exfalso
    cases hd <;> simp_all
  | commit machineId specJson =>
    unfold Node.commit
    dsimp only
    split_ifs <;> exact ⟨hstage, hs.localPeerId, hs.knownPeers⟩
  | forwardEvent hw =>
    unfold Node.send
    split_ifs <;> exact ⟨hstage, hs.localPeerId, hs.knownPeers⟩
  | listen hn =>
    unfold Node.send
    split_ifs <;> exact ⟨hstage, hs.localPeerId, hs.knownPeers⟩
  | sync hsignal =>
    unfold Node.send
    split_ifs <;> exact ⟨hstage, hs.localPeerId, hs.knownPeers⟩
  | openWatch hw => exact ⟨hstage, hs.localPeerId, hs.knownPeers⟩
  | loseWatch hw => exact ⟨hstage, hs.localPeerId, hs.knownPeers⟩
  | bridgeReceive hb hpeers => exact ⟨hstage, hs.localPeerId, hs.knownPeers⟩
  | bridgeAsk hb => exact ⟨hstage, hs.localPeerId, hs.knownPeers⟩
  | bridgeNotify hb => exact ⟨hstage, hs.localPeerId, hs.knownPeers⟩
  | handle => exact ⟨hstage, hs.localPeerId, hs.knownPeers⟩
  | advance => exact ⟨hstage, hs.localPeerId, hs.knownPeers⟩
  | panic => exact ⟨hstage, hs.localPeerId, hs.knownPeers⟩
  | finish => exact ⟨hstage, hs.localPeerId, hs.knownPeers⟩
  | ask => exact ⟨hstage, hs.localPeerId, hs.knownPeers⟩
  | tick => exact ⟨hstage, hs.localPeerId, hs.knownPeers⟩

end Node

/-- How far the shutdown after a keep-alive failure has come. -/
inductive Teardown where
  | notBegun
  | leaseRevoke
  | deletePropagation
  | finished
  deriving DecidableEq, Repr

/-- A node with its keep-alive task, the controller's shutdown and the event loop of
the swarm, which is gone once one of its lines has panicked. -/
structure Process (P A : Type) where
  node : Node P A
  swarm : Option (SwarmTask P A)
  keepAlive : KeepAliveTask
  internalShutdown : ℕ
  teardown : Teardown

namespace Process

inductive Label (P A : Type) where
  | node (l : Node.Label P)
  /-- The end of registration spawns the keep-alive task. -/
  | register
  | keepAliveFails
  | recvInternalShutdown
  | leaseRevoke
  | deletePropagation
  | swarmReceive (dials : A → Bool) (now : ℕ)

/-- The label begins convergence. -/
def StartsConverge {P : Type} : Node.Label P → Bool
  | .startConverge _ => true
  | _ => false

/-- A process as it is initialized. -/
def start {P A : Type} [PeerId P] (clusterId : String) (localPeerId : P) (localAddr : A)
    (logDebug : Bool) (nodeId : String) (etcd : Etcd) (now : ℤ) (swarm : SwarmTask P A) :
    Option (Process P A) :=
  (Node.start clusterId localPeerId localAddr logDebug nodeId etcd now).map (fun node =>
    { node := node
      swarm := some swarm
      keepAlive := .notSpawned
      internalShutdown := 0
      teardown := .notBegun })

def setSwarmTx {P A : Type} (swarmTx : List (DiscoveryCommand P A)) (s : Process P A) :
    Process P A :=
  { s with node := { s.node with phases := { s.node.phases with swarmTx := swarmTx } } }

def step {P A : Type} [SerdeJson] [DecidableEq P] [PeerId P] [Multiaddr A] [MultiaddrIter A]
    (score : Score P) (s : Process P A) : Label P A → Option (Process P A)
  | .node l =>
    if StartsConverge l ∧ s.keepAlive = .notSpawned then none
    else (s.node.step score l).map (fun node => { s with node := node })
  | .register =>
    if s.node.stage = .registering ∧ s.keepAlive = .notSpawned then
      some { s with keepAlive := .running }
    else none
  | .keepAliveFails =>
    if s.keepAlive = .running then
      some { s with keepAlive := .stopped, internalShutdown := s.internalShutdown + 1 }
    else none
  | .recvInternalShutdown =>
    if s.node.stage = .maintenance [] ∧ 0 < s.internalShutdown then
      some { s with
        node := { s.node with stage := .stopped }
        internalShutdown := s.internalShutdown - 1
        teardown := .leaseRevoke }
    else none
  | .leaseRevoke =>
    if s.teardown = .leaseRevoke then some { s with teardown := .deletePropagation } else none
  | .deletePropagation =>
    if s.teardown = .deletePropagation then
      let s : Process P A := { s with teardown := .finished }
      -- A send to a swarm that is gone fails and is lost.
      some (if s.swarm.isSome then s.setSwarmTx (s.node.phases.swarmTx ++ [.shutdown]) else s)
    else none
  | .swarmReceive dials now =>
    match s.swarm, s.node.phases.swarmTx with
    | some swarm, command :: rest =>
      some { s.setSwarmTx rest with
        swarm := (swarm.handleDiscoveryCommand dials now command).survivor }
    | _, _ => none

/-- The changes that a step hands to the manager. -/
def takes {P A : Type} (s : Process P A) : Label P A → List (Change String String)
  | .node l => s.node.takes l
  | _ => []

/-- The changes that reach the manager in the course of the labels, with the messages
that it takes and with etcd's answer to a sync. -/
def arrivals {P A : Type} [SerdeJson] [DecidableEq P] [PeerId P] [Multiaddr A] [MultiaddrIter A]
    (score : Score P) : Process P A → List (Label P A) → List (Change String String)
  | _, [] => []
  | s, l :: labels => s.takes l ++ (s.step score l).elim [] (fun t => arrivals score t labels)

/-- The specs that a label commits parse. -/
def SpecsParse {P A : Type} [SerdeJson] (_s : Process P A) : Label P A → Prop
  | .node (.commit machineId (some specJson)) => Parses machineId specJson
  | _ => True

/-- Every channel and mailbox of the node is empty and no task is in the middle of
a step, after a shutdown. -/
structure Drained {P A : Type} (s : Process P A) : Prop where
  teardown : s.teardown = .finished
  swarmTx : s.swarm = none ∨ s.node.phases.swarmTx = []
  shardingTx : s.node.phases.shardingTx = []
  bridge : s.node.bridge = .waiting
  notices : s.node.topologyNotices = 0
  convergenceSignal : s.node.convergenceSignal = false
  watch : s.node.watch.getD [] = []
  mailbox : s.node.mailbox = []
  running : s.node.running = none

instance {P A : Type} [DecidableEq P] [DecidableEq A] (s : Process P A) : Decidable s.Drained :=
  decidable_of_iff (s.teardown = .finished ∧ (s.swarm.isNone = true ∨ s.node.phases.swarmTx = []) ∧
    s.node.phases.shardingTx = [] ∧ s.node.bridge = .waiting ∧ s.node.topologyNotices = 0 ∧
    s.node.convergenceSignal = false ∧ s.node.watch.getD [] = [] ∧ s.node.mailbox = [] ∧
    s.node.running.isNone = true)
    ⟨fun ⟨ht, hs, htx, hb, hn, hc, hw, hm, hr⟩ =>
      ⟨ht, hs.imp Option.isNone_iff_eq_none.mp id, htx, hb, hn, hc, hw, hm,
        Option.isNone_iff_eq_none.mp hr⟩,
      fun h => ⟨h.teardown, h.swarmTx.imp Option.isNone_iff_eq_none.mpr id, h.shardingTx, h.bridge,
        h.notices, h.convergenceSignal, h.watch, h.mailbox,
        Option.isNone_iff_eq_none.mpr h.running⟩⟩

/-- The manager, if it is alive, holds no actor. -/
def HoldsNone {P A : Type} (s : Process P A) : Prop :=
  s.node.managerAlive = true → ∀ machineId, machineId ∉ s.node.world.manager.actors

/-- Among the peers no machine belongs to the local node of which a spec is cached,
or still reaches the manager with the given changes, if the last of them has one. -/
def OwnsNone {P A : Type} [DecidableEq P] [PeerId P] (score : Score P) (peers : List P)
    (arriving : List (Change String String)) (s : Process P A) : Prop :=
  ∀ machineId, s.node.expects (s.node.inHand ++ arriving) machineId ≠ none →
    (RendezvousHasher.new peers).lookup score machineId ≠ some s.node.phases.localPeerId

/-- A step is one of the node, with some content of the swarm's channel. -/
theorem step_node {P A : Type} [SerdeJson] [DecidableEq P] [PeerId P] [Multiaddr A]
    [MultiaddrIter A] {score : Score P} {s t : Process P A} {l : Label P A}
    (h : s.step score l = some t) :
    (∃ nl node, l = .node nl ∧ s.node.step score nl = some node ∧ t.node = node) ∨
    s.takes l = [] ∧
      ((∃ swarmTx, t.node = { s.node with phases := { s.node.phases with swarmTx := swarmTx } }) ∨
        s.node.stage = .maintenance [] ∧ t.node = { s.node with stage := .stopped }) := by
  have hsame : ∀ t : Process P A, t.node = s.node → ∃ swarmTx,
      t.node = { s.node with phases := { s.node.phases with swarmTx := swarmTx } } :=
    fun t ht => ⟨s.node.phases.swarmTx, ht⟩
  cases l with
  | node nl =>
    simp only [step] at h
    split_ifs at h
    obtain ⟨node, hnode, rfl⟩ := Option.map_eq_some_iff.mp h
    exact Or.inl ⟨nl, node, rfl, hnode, rfl⟩
  | register =>
    simp only [step] at h
    split_ifs at h
    obtain rfl := Option.some.inj h
    exact Or.inr ⟨rfl, Or.inl (hsame _ rfl)⟩
  | keepAliveFails =>
    simp only [step] at h
    split_ifs at h
    obtain rfl := Option.some.inj h
    exact Or.inr ⟨rfl, Or.inl (hsame _ rfl)⟩
  | recvInternalShutdown =>
    simp only [step] at h
    split_ifs at h with hstage
    obtain rfl := Option.some.inj h
    exact Or.inr ⟨rfl, Or.inr ⟨hstage.1, rfl⟩⟩
  | leaseRevoke =>
    simp only [step] at h
    split_ifs at h
    obtain rfl := Option.some.inj h
    exact Or.inr ⟨rfl, Or.inl (hsame _ rfl)⟩
  | deletePropagation =>
    simp only [step] at h
    split_ifs at h
    · obtain rfl := Option.some.inj h
      exact Or.inr ⟨rfl, Or.inl ⟨_, rfl⟩⟩
    · obtain rfl := Option.some.inj h
      exact Or.inr ⟨rfl, Or.inl (hsame _ rfl)⟩
  | swarmReceive dials now =>
    simp only [step] at h
    split at h
    · obtain rfl := Option.some.inj h
      exact Or.inr ⟨rfl, Or.inl ⟨_, rfl⟩⟩
    · cases h

theorem step_course {P A : Type} [SerdeJson] [DecidableEq P] [PeerId P] [Multiaddr A]
    [MultiaddrIter A] {score : Score P} {Valid : String → String → Prop} {Q : World P → Prop}
    {s t : Process P A} {l : Label P A} (hs : s.node.Course score Valid Q)
    (hQ : World.Attained score Valid Q)
    (hl : ∀ nl, l = .node nl → s.node.SpecsSatisfy Valid nl) (h : s.step score l = some t) :
    t.node.Course score Valid Q := by
  obtain ⟨nl, node, hlabel, hnode, ht⟩ | ⟨-, ⟨swarmTx, ht⟩ | ⟨hstage, ht⟩⟩ := step_node h
  · rw [ht]
    exact hs.step hQ (hl nl hlabel) (Node.step_cases hnode)
  · rw [ht]
    exact hs.swarmTx swarmTx
  · rw [ht]
    have hstop : Node.Steps score s.node .stopDiscovery { s.node with stage := .stopped } :=
      .discover (.stopDiscovery (Or.inr (Or.inr hstage)))
    refine hs.step hQ ?_ hstop
    trivial

theorem step_frozen {P A : Type} [SerdeJson] [DecidableEq P] [PeerId P] [Multiaddr A]
    [MultiaddrIter A] {score : Score P} {localPeerId : P} {known : Finset P} {s t : Process P A}
    {l : Label P A} (hs : s.node.Frozen localPeerId known) (h : s.step score l = some t) :
    t.node.Frozen localPeerId known := by
  obtain ⟨nl, node, -, hnode, ht⟩ | ⟨-, ⟨swarmTx, ht⟩ | ⟨hstage, ht⟩⟩ := step_node h
  · rw [ht]
    exact hs.step (Node.step_cases hnode)
  · rw [ht]
    exact ⟨hs.stage, hs.localPeerId, hs.knownPeers⟩
  · rw [ht]
    exact ⟨rfl, hs.localPeerId, hs.knownPeers⟩

/-- Along labels that satisfy a condition every run is guarded by it. -/
theorem run_course {P A : Type} [SerdeJson] [DecidableEq P] [PeerId P] [Multiaddr A]
    [MultiaddrIter A] {score : Score P} {Valid : String → String → Prop} {Q : World P → Prop}
    {s t : Process P A} {labels : List (Label P A)} (hQ : World.Attained score Valid Q)
    (hl : ∀ nl, .node nl ∈ labels → ∀ node : Node P A, node.SpecsSatisfy Valid nl)
    (hrun : Run (StepOf (step score)) s labels t) (hs : s.node.Course score Valid Q) :
    t.node.Course score Valid Q := by
  induction hrun with
  | nil s => exact hs
  | @cons s mid t l ls hstep hrest ih =>
    apply ih
    · intro nl hmem
      exact hl nl (List.mem_cons_of_mem l hmem)
    · apply step_course hs hQ ?_ hstep
      intro nl hlabel
      exact hl nl (hlabel ▸ List.mem_cons_self) s.node

theorem step_managerAlive {P A : Type} [SerdeJson] [DecidableEq P] [PeerId P] [Multiaddr A]
    [MultiaddrIter A] {score : Score P} {s t : Process P A} {l : Label P A}
    (h : s.step score l = some t) (halive : t.node.managerAlive = true) :
    s.node.managerAlive = true := by
  obtain ⟨nl, node, -, hnode, ht⟩ | ⟨-, ⟨swarmTx, ht⟩ | ⟨hstage, ht⟩⟩ := step_node h
  · rw [ht] at halive
    exact Node.managerAlive_step (Node.step_cases hnode) halive
  · rwa [ht] at halive
  · rwa [ht] at halive

/-- A step moves the cache for which the manager heads by what it hands to it. -/
theorem step_heads {P A : Type} [SerdeJson] [DecidableEq P] [PeerId P] [Multiaddr A]
    [MultiaddrIter A] {score : Score P} {s t : Process P A} {l : Label P A}
    {cache : String → Option String} (hs : s.node.Heads score cache)
    (h : s.step score l = some t) (halive : t.node.managerAlive = true) :
    t.node.Heads score (replay cache (s.takes l)) := by
  obtain ⟨nl, node, rfl, hnode, ht⟩ | ⟨htakes, ⟨swarmTx, ht⟩ | ⟨hstage, ht⟩⟩ := step_node h
  · rw [ht] at halive ⊢
    exact hs.step (Node.step_cases hnode) halive
  · rw [ht, htakes]
    exact hs.frame rfl rfl rfl
  · rw [ht, htakes]
    exact hs.frame rfl rfl rfl

theorem run_managerAlive {P A : Type} [SerdeJson] [DecidableEq P] [PeerId P] [Multiaddr A]
    [MultiaddrIter A] {score : Score P} {s t : Process P A} {labels : List (Label P A)}
    (hrun : Run (StepOf (step score)) s labels t) (halive : t.node.managerAlive = true) :
    s.node.managerAlive = true := by
  induction hrun with
  | nil s => exact halive
  | cons hstep _ ih => exact step_managerAlive hstep (ih halive)

/-- A run moves that cache by all that reaches the manager. -/
theorem run_heads {P A : Type} [SerdeJson] [DecidableEq P] [PeerId P] [Multiaddr A]
    [MultiaddrIter A] {score : Score P} {s t : Process P A} {labels : List (Label P A)}
    (hrun : Run (StepOf (step score)) s labels t) (halive : t.node.managerAlive = true)
    {cache : String → Option String} (hs : s.node.Heads score cache) :
    t.node.Heads score (replay cache (arrivals score s labels)) := by
  induction hrun generalizing cache with
  | nil s => exact hs
  | @cons s mid t l labels hstep hrest ih =>
    have hmid : mid.node.managerAlive = true := run_managerAlive hrest halive
    have hnext : s.step score l = some mid := hstep
    rw [arrivals, hnext, Option.elim_some, replay_append]
    exact ih halive (step_heads hs hstep hmid)

/-- A drained process is quiescent while its actors' tasks are alive. -/
theorem Drained.quiescent {P A : Type} {s : Process P A} (h : s.Drained)
    (hstage : s.node.stage = .stopped) (hmanager : s.node.managerAlive = true)
    (hcoordinator : s.node.world.coordinatorAlive = true) : s.node.Quiescent where
  managerAlive := hmanager
  coordinatorAlive := hcoordinator
  mailbox := h.mailbox
  running := h.running
  shardingTx := h.shardingTx
  bridge := h.bridge
  notices := h.notices
  discovery := Or.inr (Or.inr (Or.inr hstage))

/-- What is cached at the end of a shutdown is what was cached when it began, with what
was in hand then and has reached the manager since. -/
theorem cached_of_drained {P A : Type} [SerdeJson] [DecidableEq P] [PeerId P] [Multiaddr A]
    [MultiaddrIter A] {score : Score P} {s₀ s₁ s₂ s : Process P A}
    {before after : List (Label P A)} (hstart : s₀.node.Heads score (fun _ => none))
    (hbefore : Run (StepOf (step score)) s₀ before s₁)
    (hshutdown : s₁.step score .recvInternalShutdown = some s₂)
    (hafter : Run (StepOf (step score)) s₂ after s) (hdrained : s.Drained)
    (halive : s.node.managerAlive = true) (machineId : String) :
    s.node.world.manager.machineSpecs[machineId]? =
      s₁.node.expects (s₁.node.inHand ++ arrivals score s₂ after) machineId := by
  have hbegun : s₂.node.managerAlive = true := run_managerAlive hafter halive
  have hbegins : s₁.node.managerAlive = true := step_managerAlive hshutdown hbegun
  have hheads := run_heads hbefore hbegins hstart
  have hend := (run_heads hafter halive (step_heads hheads hshutdown hbegun)).replay_inHand
  rw [Node.inHand_of_idle hdrained.running, replay_nil] at hend
  rw [hheads.expects_eq]
  exact congrFun hend machineId

/-- In every run in which the controller shuts down because of a keep-alive failure,
once the node is drained its known peers are those of the beginning of the shutdown.
If the coordinator is alive, the manager then holds no actor when among these peers
no machine belongs to the local node that was cached or has reached the manager since.
Where all specs parse, it holds none only then. -/
theorem departed_holds_none {P A : Type} [SerdeJson] [DecidableEq P] [PeerId P] [LawfulPeerId P]
    [Multiaddr A] [MultiaddrIter A] (score : Score P) (clusterId : String) (localPeerId : P)
    (localAddr : A) (logDebug : Bool) (nodeId : String) (etcd : Etcd) (now : ℤ)
    (swarm : SwarmTask P A) (s₀ s₁ s₂ s : Process P A) (before after : List (Label P A))
    (hstart : start clusterId localPeerId localAddr logDebug nodeId etcd now swarm = some s₀)
    (hbefore : Run (StepOf (step score)) s₀ before s₁)
    (hshutdown : s₁.step score .recvInternalShutdown = some s₂)
    (hafter : Run (StepOf (step score)) s₂ after s) (hdrained : s.Drained)
    (peers : List P) (hpeers : Lists peers s₁.node.phases.knownPeers) :
    s.node.phases.knownPeers = s₁.node.phases.knownPeers ∧
    (s.node.world.coordinatorAlive = true → s₁.OwnsNone score peers (arrivals score s₂ after) →
      s.HoldsNone) ∧
    (World.ValidContent Parses etcd → (∀ l ∈ before ++ after, s₀.SpecsParse l) →
      s.node.managerAlive = true → s.node.world.coordinatorAlive = true →
      (s.HoldsNone ↔ s₁.OwnsNone score peers (arrivals score s₂ after))) := by
  obtain ⟨node, hnode, rfl⟩ := Option.map_eq_some_iff.mp hstart
  have hlabels : Run (StepOf (step score)) _ (before ++ .recvInternalShutdown :: after) s :=
    hbefore.append (.cons hshutdown hafter)
  have hfrozen : s.node.Frozen s₁.node.phases.localPeerId s₁.node.phases.knownPeers := by
    refine Run.invariant (I := fun t : Process P A =>
      t.node.Frozen s₁.node.phases.localPeerId s₁.node.phases.knownPeers) ?_ hafter ?_
    · intro t l t' ht hstep
      exact step_frozen ht hstep
    · simp only [step] at hshutdown
      split_ifs at hshutdown
      obtain rfl := Option.some.inj hshutdown
      exact ⟨rfl, rfl, rfl⟩
  have hlisted : (RendezvousHasher.new peers).BuiltOver s.node.phases.knownPeers :=
    ⟨peers, hpeers.2.trans hfrozen.knownPeers.symm, Or.inl rfl⟩
  -- Lookups of the coordinator and lookups among the listed peers agree.
  have howns : ∀ {Valid : String → String → Prop} {Q : World P → Prop},
      s.node.Course score Valid Q → s.node.Quiescent → ∀ id,
        (s.node.world.coordinator.Owns score id ↔
          (RendezvousHasher.new peers).lookup score id = some s₁.node.phases.localPeerId) := by
    intro Valid Q hcourse hquiet id
    have hbuilt := (hquiet.arrived hcourse.informed hcourse.heading).2
    rw [ShardingCoordinator.Owns, hcourse.localPeerId, hbuilt.lookup_iff toBase58_injective,
      hlisted.lookup_iff toBase58_injective, hfrozen.localPeerId]
  have hcached : s.node.managerAlive = true → ∀ id,
      (id ∈ s.node.world.manager.machineSpecs ↔
        s₁.node.expects (s₁.node.inHand ++ arrivals score s₂ after) id ≠ none) := by
    intro hmanager id
    rw [← cached_of_drained (Node.heads_start score hnode) hbefore hshutdown hafter hdrained
      hmanager id, Std.ExtTreeMap.mem_iff_isSome_getElem?]
    exact Option.isSome_iff_ne_none
  refine ⟨hfrozen.knownPeers, ?_, ?_⟩
  · intro hcoordinator hnone hmanager id hid
    have hquiet := hdrained.quiescent hfrozen.stage hmanager hcoordinator
    have hcourse : s.node.Course score (fun _ _ => True) (World.OwnsActors score) := by
      refine run_course (World.attained_ownsActors score _) ?_ hlabels ?_
      · exact fun nl _ node' => Node.specsSatisfy_true node' nl
      · refine Node.course_start (fun _ _ _ => trivial) ?_ hnode
        intro w hactors _ _ id' hid'
        rw [hactors] at hid'
        simp at hid'
    have hown := (hquiet.arrived hcourse.informed hcourse.heading).1 hcoordinator id hid
    have hspec := (hcached hmanager id).mp (hcourse.contained id hid)
    exact hnone id hspec ((howns hcourse hquiet id).mp hown)
  · intro hcontent hparses hmanager hcoordinator
    have hquiet := hdrained.quiescent hfrozen.stage hmanager hcoordinator
    have hcourse : s.node.Course score Parses (fun w => w.SettledIfAlive score) := by
      refine run_course (World.attained_settledIfAlive score) ?_ hlabels ?_
      · intro nl hmem node'
        have hmem' : Label.node nl ∈ before ++ after := by simpa using hmem
        have hspec := hparses _ hmem'
        unfold Node.SpecsSatisfy
        split
        · exact hspec
        · trivial
      · refine Node.course_start hcontent ?_ hnode
        intro w hactors hspecs _ id'
        rw [hactors, hspecs]
        simp
    have hsettled := (hquiet.arrived hcourse.informed hcourse.heading).1 hcoordinator
    constructor
    · intro hholds id hid hlookup
      have hspec := (hcached hmanager id).mpr hid
      exact hholds hmanager id
        ((hsettled id).mpr ⟨hspec, (howns hcourse hquiet id).mpr hlookup⟩)
    · intro hnone _ id hid
      obtain ⟨hspec, hown⟩ := (hsettled id).mp hid
      exact hnone id ((hcached hmanager id).mp hspec) ((howns hcourse hquiet id).mp hown)

/-- A run of a node that is alone, through the initial sync of one machine and the
rebalance after it. -/
def soleRun (spec : Json) (a : Base58Text) : List (Label Base58Text Ip4Text) :=
  ([.node (.commit "m1" (some spec.text)), .register, .node (.startConverge []),
      .node (.convergeDone [a]), .node .signalConvergence, .node .bridgeReceive,
      .node .bridgeAsk, .node .bridgeNotify, .node .sync, .node (.handle [])] :
        List (Label Base58Text Ip4Text)) ++
    List.replicate 6 (Label.node .advance) ++
    ([.node .finish, .node .listen, .node (.handle ["m1"]), .node .advance, .node .advance,
      .node .finish] : List (Label Base58Text Ip4Text))

/-- The node's own registration is seen to go, and the rebalance stops its actor. -/
def ownDelete (a : Base58Text) : List (Label Base58Text Ip4Text) :=
  [.node (.watchResponse [Etcd.event ⟨peerKey "lab" a, none⟩]), .node (.processEvent []),
    .node .bridgeReceive, .node .bridgeAsk, .node .bridgeNotify, .node .listen,
    .node (.handle ["m1"]), .node .advance, .node .advance, .node .advance, .node .finish]

/-- A node that has seen its own registration go, and whose keep-alive task fails
then, ends without actors. -/
theorem departed_holds_none_own_delete :
    let spec : Json := .object [("adminState", .string "available"), ("cluster", .string "lab")]
    let _ : SerdeJson := SerdeJson.knowing [spec]
    ∃ (s₀ s₁ s : Process Base58Text Ip4Text) (before after : List (Label Base58Text Ip4Text)),
      Run (StepOf (step (fun _ _ => 7))) s₀ before s₁ ∧ s₁.node.phases.knownPeers = ∅ ∧
      Run (StepOf (step (fun _ _ => 7))) s₁ (.recvInternalShutdown :: after) s ∧ s.Drained ∧
      "m1" ∈ s.node.world.manager.machineSpecs ∧ s.HoldsNone := by
  intro spec _
  let a := peerOf "12D3KooWAAAAAAAAAAAAAAAAAAAAAAAAAAAAAAAAAAAAAAAAAAAA"
  let score : Score Base58Text := fun _ _ => 7
  let swarm : SwarmTask Base58Text Ip4Text :=
    ⟨[], NetworkState.new a NetworkConfig.default true true, true, true, true⟩
  let after : List (Label Base58Text Ip4Text) :=
    [.leaseRevoke, .deletePropagation, .swarmReceive (fun _ => true) 0,
      .swarmReceive (fun _ => true) 0]
  obtain ⟨s₀, hstart, s₁, hbefore, hpeers, s₂, hshutdown, s, hafter, hdrained, halive, hcached⟩ :
      ∃ s₀ ∈ start "lab" a (Ip4Text.mk "/ip4/10.0.0.1/tcp/5000") false "node-a" ∅ 0 swarm,
      ∃ s₁ ∈ (soleRun spec a ++ ownDelete a ++ [Label.keepAliveFails]).foldlM (step score) s₀,
      Lists [] s₁.node.phases.knownPeers ∧ ∃ s₂ ∈ s₁.step score .recvInternalShutdown,
      ∃ s ∈ after.foldlM (step score) s₂, s.Drained ∧ s.node.world.coordinatorAlive = true ∧
        "m1" ∈ s.node.world.manager.machineSpecs := by
    decide +kernel
  have hrun := Run.of_foldlM hbefore
  have hrest := Run.of_foldlM hafter
  have hdeparted := departed_holds_none score "lab" a _ false "node-a" ∅ 0 swarm s₀ s₁ s₂ s _ after
    hstart hrun hshutdown hrest hdrained [] hpeers
  refine ⟨s₀, s₁, s, _, after, hrun, hpeers.2.symm, .cons hshutdown hrest, hdrained, hcached, ?_⟩
  exact hdeparted.2.1 halive (fun _ _ => by simp [RendezvousHasher.new, RendezvousHasher.lookup])

/-- The keep-alive task of a node that is alone fails: the node is drained after the
shutdown, and its actor is still there. -/
theorem not_departed_holds_none : ¬∀ [SerdeJson] (score : Score Base58Text) (clusterId : String)
    (localPeerId : Base58Text) (localAddr : Ip4Text) (logDebug : Bool) (nodeId : String)
    (etcd : Etcd) (now : ℤ) (swarm : SwarmTask Base58Text Ip4Text)
    (s₀ s₁ s₂ s : Process Base58Text Ip4Text) (before after : List (Label Base58Text Ip4Text)),
    start clusterId localPeerId localAddr logDebug nodeId etcd now swarm = some s₀ →
    Run (StepOf (step score)) s₀ before s₁ → s₁.step score .recvInternalShutdown = some s₂ →
    Run (StepOf (step score)) s₂ after s → s.Drained → s.HoldsNone := by
  intro hclaim
  let spec : Json := .object [("adminState", .string "available"), ("cluster", .string "lab")]
  let _ : SerdeJson := SerdeJson.knowing [spec]
  let a := peerOf "12D3KooWAAAAAAAAAAAAAAAAAAAAAAAAAAAAAAAAAAAAAAAAAAAA"
  let score : Score Base58Text := fun _ _ => 7
  let swarm : SwarmTask Base58Text Ip4Text :=
    ⟨[], NetworkState.new a NetworkConfig.default true true, true, true, true⟩
  let after : List (Label Base58Text Ip4Text) :=
    [.leaseRevoke, .deletePropagation, .swarmReceive (fun _ => true) 0]
  obtain ⟨s₀, hstart, s₁, hbefore, s₂, hshutdown, s, hafter, hdrained, halive, hactor⟩ :
      ∃ s₀ ∈ start "lab" a (Ip4Text.mk "/ip4/10.0.0.1/tcp/5000") false "node-a" ∅ 0 swarm,
      ∃ s₁ ∈ (soleRun spec a ++ [Label.keepAliveFails]).foldlM (step score) s₀,
      ∃ s₂ ∈ s₁.step score .recvInternalShutdown, ∃ s ∈ after.foldlM (step score) s₂,
        s.Drained ∧ s.node.managerAlive = true ∧ "m1" ∈ s.node.world.manager.actors := by
    decide +kernel
  exact hclaim score "lab" a _ false "node-a" ∅ 0 swarm s₀ s₁ s₂ s _ after hstart
    (Run.of_foldlM hbefore) hshutdown (Run.of_foldlM hafter) hdrained halive "m1" hactor

end Process
end Neolaas
