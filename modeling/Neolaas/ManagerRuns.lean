import Neolaas.NodeSteps

/-!
# Runs of one manager

A manager that handles messages and failures of its actors, one at a time, while
the topology and etcd change between any two operations of a handler. The failures
that it has handled are kept with their instants, for statements about them.
-/
namespace Neolaas
open AtomicProgram LabelledRuns

namespace Managing

/-- The tracker of a machine has room for another restart. -/
def Restartable {P : Type} (instant : ℕ) (machineId : String) (self : Managing P) : Prop :=
  ∃ tracker ∈ self.manager.restartTrackers[machineId]?,
    (tracker.recent instant).length < tracker.policy.maxRestarts.toNat

instance {P : Type} (instant : ℕ) (machineId : String) (self : Managing P) :
    Decidable (self.Restartable instant machineId) :=
  inferInstanceAs (Decidable (∃ tracker ∈ self.manager.restartTrackers[machineId]?, _))

/-- A failure is recorded in the machine's tracker and nowhere else. -/
theorem recordFailure_cases {P : Type} (instant : ℕ) (machineId : String) (self : Managing P) :
    ((self.recordFailure instant machineId).1 = true ↔ self.Restartable instant machineId) ∧
      ((self.recordFailure instant machineId).2 = self ∨
        ∃ tracker ∈ self.manager.restartTrackers[machineId]?,
          (self.recordFailure instant machineId).2 = { self with manager := { self.manager with
            restartTrackers := self.manager.restartTrackers.insert machineId
              (tracker.recordRestart instant).2 } }) := by
  unfold recordFailure Restartable
  cases h : self.manager.restartTrackers[machineId]? with
  | none => simp
  | some tracker =>
    refine ⟨?_, Or.inr ⟨tracker, rfl, rfl⟩⟩
    rw [RestartTracker.recordRestart_isSome]
    simp

/-- The failure is recorded and its event emitted. -/
def noteFailure {P : Type} (instant : ℕ) (machineId error : String) (self : Managing P) :
    Managing P :=
  (self.recordFailure instant machineId).2.emit [.actorPanicked "MachineActor" machineId error
    (self.recordFailure instant machineId).2.manager.nodeId
    (self.recordFailure instant machineId).1]

/-- The manager's fields but the trackers are as before, and one event is new. -/
theorem noteFailure_frame {P : Type} (instant : ℕ) (machineId error : String)
    (self : Managing P) :
    (self.noteFailure instant machineId error).manager.actors = self.manager.actors ∧
      (self.noteFailure instant machineId error).manager.machineSpecs =
        self.manager.machineSpecs ∧
      (self.noteFailure instant machineId error).manager.nodeId = self.manager.nodeId ∧
      (∀ id, id ∈ (self.noteFailure instant machineId error).manager.restartTrackers ↔
        id ∈ self.manager.restartTrackers) ∧
      ∃ restarted, (self.noteFailure instant machineId error).events = self.events ++
        [.actorPanicked "MachineActor" machineId error self.manager.nodeId restarted] := by
  unfold noteFailure emit
  obtain ⟨-, heq | ⟨tracker, htracker, heq⟩⟩ := recordFailure_cases instant machineId self
  · rw [heq]
    exact ⟨rfl, rfl, rfl, fun _ => Iff.rfl, _, rfl⟩
  · rw [heq]
    refine ⟨rfl, rfl, rfl, fun id => ?_, _, rfl⟩
    simp only [Std.ExtTreeMap.mem_insert]
    constructor
    · intro hid
      obtain hcompare | hid := hid
      · obtain rfl : machineId = id := by simpa using hcompare
        rw [Std.ExtTreeMap.mem_iff_isSome_getElem?, htracker]
        rfl
      · exact hid
    · exact Or.inr

/-- How the handling of a failure ends. -/
inductive Fails {P : Type} [SerdeJson] (now : ℤ) (instant : ℕ) (machineId error : String)
    (self : Managing P) : Managing P → Prop
  | uncached (hrestart : self.Restartable instant machineId)
    (hspec : self.manager.machineSpecs[machineId]? = none) :
    Fails now instant machineId error self (self.noteFailure instant machineId error)
  | unparsed {specJson : String} (hrestart : self.Restartable instant machineId)
    (hspec : self.manager.machineSpecs[machineId]? = some specJson)
    (hparse : MachineSpec.fromStr specJson = none) :
    Fails now instant machineId error self
      ((self.noteFailure instant machineId error).dropActor machineId)
  | restarted {specJson : String} {actor : MachineActor}
    (hrestart : self.Restartable instant machineId)
    (hspec : self.manager.machineSpecs[machineId]? = some specJson)
    (hactor : MachineActor.withNodeId now machineId specJson self.manager.nodeId = some actor) :
    Fails now instant machineId error self
      (((self.noteFailure instant machineId error).dropActor machineId).addActor machineId actor)
  | exceeded (hrestart : ¬self.Restartable instant machineId) :
    Fails now instant machineId error self
      ((self.noteFailure instant machineId error).exceedLimit machineId)

theorem handleActorFailure_eq {P : Type} [SerdeJson] [PeerId P] (now : ℤ) (instant : ℕ)
    (machineId error : String) (self : Managing P) :
    self.handleActorFailure now instant machineId error =
      if (self.recordFailure instant machineId).1 then
        match (self.noteFailure instant machineId error).manager.machineSpecs[machineId]? with
        | some specJson => ((self.noteFailure instant machineId error).dropActor
            machineId).spawnMachineActor now machineId specJson
        | none => some (self.noteFailure instant machineId error)
      else some ((self.noteFailure instant machineId error).exceedLimit machineId) := rfl

theorem handleActorFailure_cases {P : Type} [SerdeJson] [PeerId P] {now : ℤ} {instant : ℕ}
    {machineId error : String} {self m : Managing P}
    (h : self.handleActorFailure now instant machineId error = some m) :
    Fails now instant machineId error self m := by
  obtain ⟨hrestart, -⟩ := recordFailure_cases instant machineId self
  obtain ⟨-, hspecs, hnode, -, -⟩ := noteFailure_frame instant machineId error self
  rw [handleActorFailure_eq, hspecs] at h
  by_cases hallowed : (self.recordFailure instant machineId).1 = true
  · rw [if_pos hallowed] at h
    have hroom := hrestart.mp hallowed
    cases hspec : self.manager.machineSpecs[machineId]? with
    | none =>
      simp only [hspec] at h
      obtain rfl := Option.some.inj h
      exact .uncached hroom hspec
    | some specJson =>
      simp only [hspec] at h
      obtain ⟨hnone, rfl⟩ | ⟨actor, hactor, rfl⟩ := Program.spawnMachineActor_cases h
      · exact .unparsed hroom hspec hnone
      · refine .restarted hroom hspec ?_
        rw [← hnode]
        exact hactor
  · rw [if_neg hallowed] at h
    obtain rfl := Option.some.inj h
    exact .exceeded (fun hroom => hallowed (hrestart.mpr hroom))

/-- Handling a failure panics only over a spec that has been parsed. -/
theorem handleActorFailure_none {P : Type} [SerdeJson] [PeerId P] {now : ℤ} {instant : ℕ}
    {machineId error : String} {self : Managing P}
    (h : self.handleActorFailure now instant machineId error = none) :
    ∃ specJson actor, self.manager.machineSpecs[machineId]? = some specJson ∧
      MachineActor.withNodeId now machineId specJson self.manager.nodeId = some actor := by
  obtain ⟨-, hspecs, hnode, -, -⟩ := noteFailure_frame instant machineId error self
  rw [handleActorFailure_eq, hspecs] at h
  split_ifs at h
  cases hspec : self.manager.machineSpecs[machineId]? with
  | none => simp [hspec] at h
  | some specJson =>
    simp only [hspec] at h
    unfold spawnMachineActor at h
    split at h
    · rename_i actor hactor
      rw [← hnode]
      exact ⟨specJson, actor, rfl, hactor⟩
    · cases h

@[simp] theorem ask_trackers {P : Type} [SerdeJson] (now : ℤ) (machineId : String)
    (message : ActorMessage) (m : Managing P) :
    (m.ask now machineId message).2.manager.restartTrackers = m.manager.restartTrackers := by
  unfold ask
  cases m.manager.actors[machineId]? <;> rfl

end Managing

/-- A handled failure of a machine's actor, and whether it was to be restarted. -/
structure Failure where
  machineId : String
  instant : ℕ
  restarted : Bool
  deriving DecidableEq

/-- A manager with what it shares with its node, and its history of failures. -/
structure Supervised (P : Type) where
  world : World P
  running : Option (ManagerMessage × Program P ManagerReply)
  alive : Bool
  failures : List Failure

namespace Supervised

inductive Label (P : Type) where
  /-- The manager takes a message, performs an operation, replies. -/
  | handle (message : ManagerMessage) (machineIds : List String)
  | advance
  | finish
  /-- The manager handles the failure of an actor. -/
  | fail (machineId error : String) (instant : ℕ)
  /-- The coordinator applies a peer list, etcd changes, an actor serves a client. -/
  | topology (peers : List P)
  | write (etcd : Etcd)
  | ask (machineId : String) (message : ActorMessage)
  | tick (now : ℤ)

/-- A fresh manager with the given policy, over some topology and content of etcd. -/
def start {P : Type} [PeerId P] (policy : RestartPolicy) (localPeerId : P) (nodeId : String)
    (peers : List P) (etcd : Etcd) (now : ℤ) : Option (Supervised P) :=
  (ShardingCoordinator.new localPeerId peers).map (fun coordinator =>
    { world := {
        manager := { MachineActorManagerActor.new localPeerId nodeId with restartPolicy := policy }
        events := []
        coordinator := coordinator
        coordinatorAlive := true
        etcd := etcd
        now := now }
      running := none
      alive := true
      failures := [] })

def step {P : Type} [SerdeJson] [DecidableEq P] [PeerId P] (score : Score P) (s : Supervised P) :
    Label P → Option (Supervised P)
  | .handle message machineIds =>
    if s.running.isNone ∧ s.alive ∧ machineIds.Perm s.world.manager.machineSpecs.keys then
      some { s with running := some (message, message.handler machineIds) }
    else none
  | .advance =>
    match s.running with
    | some (message, .step op next) =>
      match World.exec score op s.world with
      | some (result, world) =>
        some { s with world := world, running := some (message, next result) }
      | none => some { s with alive := false, running := none }
    | _ => none
  | .finish =>
    match s.running with
    | some (_, .done _) => some { s with running := none }
    | _ => none
  | .fail machineId error instant =>
    if s.running.isNone ∧ s.alive then
      let failure : Failure := ⟨machineId, instant, (s.world.recordFailure instant machineId).1⟩
      let s := { s with failures := s.failures ++ [failure] }
      match s.world.handleActorFailure s.world.now instant machineId error with
      | some m => some { s with world := s.world.manage m }
      | none => some { s with alive := false }
    else none
  | .topology peers => some { s with world := Node.applyTopology peers s.world }
  | .write etcd => some { s with world := { s.world with etcd := etcd } }
  | .ask machineId message =>
    if machineId ∈ s.world.manager.actors then
      some { s with world := s.world.manage (s.world.ask s.world.now machineId message).2 }
    else none
  | .tick now => some { s with world := { s.world with now := now } }

/-- The failure that a step handles. -/
def failureOf {P : Type} (s : Supervised P) (machineId : String) (instant : ℕ) : Failure :=
  ⟨machineId, instant, (s.world.recordFailure instant machineId).1⟩

/-- The steps of a supervised manager. -/
inductive Steps {P : Type} [SerdeJson] [DecidableEq P] [PeerId P] (score : Score P)
    (s : Supervised P) : Label P → Supervised P → Prop
  | handle {message : ManagerMessage} {machineIds : List String} (hrunning : s.running = none)
    (hkeys : machineIds.Perm s.world.manager.machineSpecs.keys) :
    Steps score s (.handle message machineIds)
      { s with running := some (message, message.handler machineIds) }
  | advance {message : ManagerMessage} {op : Op P} {next : op.Ret → Program P ManagerReply}
    {result : op.Ret} {world : World P} (hrunning : s.running = some (message, .step op next))
    (hexec : World.exec score op s.world = some (result, world)) :
    Steps score s .advance { s with world := world, running := some (message, next result) }
  | panic : Steps score s .advance { s with alive := false, running := none }
  | finish {message : ManagerMessage} {reply : ManagerReply}
    (hrunning : s.running = some (message, .done reply)) :
    Steps score s .finish { s with running := none }
  | fail {machineId error : String} {instant : ℕ} {m : Managing P} (hrunning : s.running = none)
    (h : s.world.handleActorFailure s.world.now instant machineId error = some m) :
    Steps score s (.fail machineId error instant) { s with
      world := s.world.manage m, failures := s.failures ++ [s.failureOf machineId instant] }
  | failPanic {machineId error : String} {instant : ℕ}
    (h : s.world.handleActorFailure s.world.now instant machineId error = none) :
    Steps score s (.fail machineId error instant) { s with
      alive := false, failures := s.failures ++ [s.failureOf machineId instant] }
  | topology (peers : List P) :
    Steps score s (.topology peers) { s with world := Node.applyTopology peers s.world }
  | write (etcd : Etcd) :
    Steps score s (.write etcd) { s with world := { s.world with etcd := etcd } }
  | ask {machineId : String} {message : ActorMessage} (h : machineId ∈ s.world.manager.actors) :
    Steps score s (.ask machineId message) { s with
      world := s.world.manage (s.world.ask s.world.now machineId message).2 }
  | tick (now : ℤ) : Steps score s (.tick now) { s with world := { s.world with now := now } }

theorem step_cases {P : Type} [SerdeJson] [DecidableEq P] [PeerId P] {score : Score P}
    {s t : Supervised P} {l : Label P} (h : s.step score l = some t) : Steps score s l t := by
  cases l with
  | handle message machineIds =>
    simp only [step] at h
    split_ifs at h with hcan
    obtain rfl := Option.some.inj h
    exact .handle (Option.isNone_iff_eq_none.mp hcan.1) hcan.2.2
  | advance =>
    simp only [step] at h
    split at h
    · rename_i message op next hrunning
      split at h
      · rename_i result world hexec
        obtain rfl := Option.some.inj h
        exact .advance hrunning hexec
      · obtain rfl := Option.some.inj h
        exact .panic
    · cases h
  | finish =>
    simp only [step] at h
    split at h
    · rename_i message reply hrunning
      obtain rfl := Option.some.inj h
      exact .finish hrunning
    · cases h
  | fail machineId error instant =>
    simp only [step] at h
    split_ifs at h with hcan
    have hrunning := Option.isNone_iff_eq_none.mp hcan.1
    split at h
    · rename_i m hm
      obtain rfl := Option.some.inj h
      exact .fail hrunning hm
    · rename_i hnone
      obtain rfl := Option.some.inj h
      exact .failPanic hnone
  | topology peers =>
    obtain rfl := Option.some.inj h
    exact .topology peers
  | write etcd =>
    obtain rfl := Option.some.inj h
    exact .write etcd
  | ask machineId message =>
    simp only [step] at h
    split_ifs at h with hmem
    obtain rfl := Option.some.inj h
    exact .ask hmem
  | tick now =>
    obtain rfl := Option.some.inj h
    exact .tick now

/-- The running handler stays within the manager's steps. -/
def Sound {P : Type} [SerdeJson] [DecidableEq P] [PeerId P] (score : Score P)
    (s : Supervised P) : Prop :=
  ∀ message program, s.running = some (message, program) →
    Safe (World.managerSetting score (fun _ _ => True) message.Asks) (fun _ _ => True)
      program s.world

/-- What a step does to the world: what a node's step does, or the handling of a
failure. -/
inductive Effect {P : Type} [SerdeJson] [DecidableEq P] [PeerId P] (score : Score P)
    (w : World P) : Label P → World P → Prop
  | affects {l : Label P} {w' : World P} (h : Node.Affects score (fun _ _ => True) True w w') :
    Effect score w l w'
  | fail {machineId error : String} {instant : ℕ} {m : Managing P}
    (h : w.handleActorFailure w.now instant machineId error = some m) :
    Effect score w (.fail machineId error instant) (w.manage m)

theorem Effect.affects_of_ne {P : Type} [SerdeJson] [DecidableEq P] [PeerId P] {score : Score P}
    {w w' : World P} {l : Label P} (h : Effect score w l w')
    (hne : ∀ machineId error instant, l ≠ .fail machineId error instant) :
    Node.Affects score (fun _ _ => True) True w w' := by
  cases h with
  | affects h => exact h
  | @fail machineId error instant m h => exact absurd rfl (hne machineId error instant)

theorem Sound.step {P : Type} [SerdeJson] [DecidableEq P] [PeerId P] {score : Score P}
    {s t : Supervised P} {l : Label P} (hs : s.Sound score) (h : Steps score s l t) :
    t.Sound score ∧ Effect score s.world l t.world := by
  have hquiet : Effect score s.world l s.world := .affects (.managed .quiet)
  -- Interference keeps the running handler where it is.
  have hframe : ∀ world, World.Interferes (fun _ _ => True) s.world world →
      ({ s with world := world } : Supervised P).Sound score :=
    fun world hw message program hrun => (hs message program hrun).interfere hw
  cases h with
  | @handle message machineIds hrunning hkeys =>
    refine ⟨?_, hquiet⟩
    intro m program hrun
    obtain ⟨rfl, rfl⟩ := Prod.mk.inj (Option.some.inj hrun)
    apply ManagerMessage.handler_managed score (fun _ _ => True) message
    · unfold ManagerMessage.Carries
      split <;> trivial
    · exact hkeys.nodup_iff.mpr Std.ExtTreeMap.nodup_keys
    · exact fun _ _ _ => trivial
  | @advance message op next result world hrunning hexec =>
    obtain ⟨hguar, hsafe⟩ := (hs message _ hrunning).advance hexec
    refine ⟨?_, .affects (.managed (hguar.mono (fun _ => trivial)))⟩
    intro m program hrun
    obtain ⟨rfl, rfl⟩ := Prod.mk.inj (Option.some.inj hrun)
    exact hsafe
  | panic =>
    refine ⟨?_, hquiet⟩
    intro message program hrun
    cases hrun
  | finish hrunning =>
    refine ⟨?_, hquiet⟩
    intro message program hrun
    cases hrun
  | fail hrunning hm =>
    refine ⟨?_, .fail hm⟩
    intro message program hrun
    have hidle : s.running = some (message, program) := hrun
    rw [hrunning] at hidle
    cases hidle
  | failPanic hnone => exact ⟨hs, hquiet⟩
  | topology peers =>
    exact ⟨hframe _ (Node.interferes_topology _ peers s.world), .affects (.topology peers)⟩
  | write etcd =>
    refine ⟨hframe _ ?_, .affects (.written etcd s.world.now)⟩
    exact ⟨rfl, rfl, rfl, fun _ => Iff.rfl, ⟨[], by simp, by simp⟩, fun _ _ _ _ => trivial⟩
  | @ask machineId message hmem =>
    exact ⟨hframe _ (Node.interferes_ask _ machineId message s.world),
      .affects (.managed (.asked machineId message))⟩
  | tick now =>
    refine ⟨hframe _ ?_, .affects (.written s.world.etcd now)⟩
    exact ⟨rfl, rfl, rfl, fun _ => Iff.rfl, ⟨[], by simp, by simp⟩, id⟩

theorem sound_start {P : Type} [SerdeJson] [DecidableEq P] [PeerId P] (score : Score P)
    {policy : RestartPolicy} {localPeerId : P} {nodeId : String} {peers : List P} {etcd : Etcd}
    {now : ℤ} {s : Supervised P}
    (h : start policy localPeerId nodeId peers etcd now = some s) : s.Sound score := by
  obtain ⟨coordinator, -, rfl⟩ := Option.map_eq_some_iff.mp h
  intro message program hrun
  cases hrun

/-- The steps that handle a put of a machine that the manager owns. -/
def ownPut (machineId specJson : String) (machineIds : List String) : List (Label Base58Text) :=
  [.handle (.etcdMachineEvent machineId .put (some specJson)) machineIds,
    .advance, .advance, .advance, .advance, .finish]

end Supervised
end Neolaas
