import Neolaas.ManagerRuns
import Neolaas.ManagerSettles

/-!
# The restart limit

A tracker counts the restarts that it allows, but a successful restart replaces it
by a fresh one. So the limit is kept when an actor does not fail more often than
it allows, and an actor that can always be restarted always is.
-/
namespace Neolaas
open AtomicProgram LabelledRuns

namespace World

/-- The manager and its trackers have the given policy. -/
structure Governed {P : Type} (policy : RestartPolicy) (w : World P) : Prop where
  manager : w.manager.restartPolicy = policy
  trackers : ∀ (machineId : String) (tracker : RestartTracker),
    w.manager.restartTrackers[machineId]? = some tracker → tracker.policy = policy

/-- If the machine has an actor, its tracker is fresh. -/
def FreshTracker {P : Type} (policy : RestartPolicy) (machineId : String) (w : World P) : Prop :=
  machineId ∈ w.manager.actors →
    w.manager.restartTrackers[machineId]? = some (RestartTracker.new policy)

/-- What may become of the tracker of one machine: it stays while no actor comes, a
fresh one comes, or it goes with the actor. -/
def TrackerMoves {P : Type} (w w' : World P) (machineId : String) : Prop :=
  (w'.manager.restartTrackers[machineId]? = w.manager.restartTrackers[machineId]? ∧
      (machineId ∈ w'.manager.actors → machineId ∈ w.manager.actors)) ∨
    w'.manager.restartTrackers[machineId]? =
      some (RestartTracker.new w.manager.restartPolicy) ∨
    w'.manager.restartTrackers[machineId]? = none ∧ machineId ∉ w'.manager.actors

theorem TrackerMoves.fresh {P : Type} {w w' : World P} {policy : RestartPolicy}
    {machineId : String} (h : TrackerMoves w w' machineId)
    (hw : w.FreshTracker policy machineId) (hpolicy : w.manager.restartPolicy = policy) :
    w'.FreshTracker policy machineId := by
  intro hactor
  obtain ⟨hsame, hbefore⟩ | hnew | ⟨-, hgone⟩ := h
  · rw [hsame]
    exact hw (hbefore hactor)
  · rw [hnew, hpolicy]
  · exact absurd hactor hgone

theorem TrackerMoves.governed {P : Type} {w w' : World P} {policy : RestartPolicy}
    (h : ∀ machineId, TrackerMoves w w' machineId) (hw : w.Governed policy)
    (hpolicy : w'.manager.restartPolicy = w.manager.restartPolicy) : w'.Governed policy := by
  refine ⟨hpolicy.trans hw.manager, fun machineId tracker hget => ?_⟩
  obtain ⟨hsame, -⟩ | hnew | ⟨hnone, -⟩ := h machineId
  · exact hw.trackers machineId tracker (hsame ▸ hget)
  · rw [hnew] at hget
    obtain rfl := Option.some.inj hget
    exact hw.manager
  · rw [hnone] at hget
    cases hget

theorem TrackerMoves.stop {P : Type} (machineId reason : String) (w : World P) (m : Managing P)
    (hactors : m.manager.actors = w.manager.actors)
    (htrackers : m.manager.restartTrackers = w.manager.restartTrackers) (id : String) :
    TrackerMoves w (w.manage (m.stopMachineActor machineId reason)) id := by
  unfold TrackerMoves
  rw [manage_toManaging, Managing.mem_actors_stopMachineActor, hactors]
  unfold Managing.stopMachineActor
  by_cases h : m.manager.actors.contains machineId = true
  · rw [if_pos h, htrackers, Std.ExtTreeMap.getElem?_erase]
    by_cases hid : id = machineId
    · right
      right
      simp [hid]
    · left
      rw [if_neg (by simpa using Ne.symm hid)]
      exact ⟨rfl, And.right⟩
  · rw [if_neg h, htrackers]
    exact Or.inl ⟨rfl, And.right⟩

theorem TrackerMoves.add {P : Type} (machineId : String) (actor : MachineActor) (w : World P)
    (id : String) : TrackerMoves w (w.manage (w.addActor machineId actor)) id := by
  unfold TrackerMoves
  rw [manage_toManaging, Managing.mem_actors_addActor]
  by_cases hid : id = machineId
  · right
    left
    simp [Managing.addActor, hid]
  · left
    simp [Managing.addActor, Std.ExtTreeMap.getElem?_insert, hid, Ne.symm hid]

/-- What a node does to its manager moves the trackers so, under the same policy. -/
theorem affects_trackers {P : Type} [SerdeJson] [DecidableEq P] [PeerId P] {score : Score P}
    {Valid : String → String → Prop} {asks : Prop} {w w' : World P}
    (h : Node.Affects score Valid asks w w') :
    w'.manager.restartPolicy = w.manager.restartPolicy ∧
      ∀ machineId, TrackerMoves w w' machineId := by
  have hsame : ∀ w' : World P, w'.manager.actors = w.manager.actors →
      w'.manager.restartTrackers = w.manager.restartTrackers →
      ∀ machineId, TrackerMoves w w' machineId := by
    intro w' hactors htrackers machineId
    left
    rw [hactors, htrackers]
    exact ⟨rfl, id⟩
  cases h with
  | managed h =>
    cases h with
    | quiet => exact ⟨rfl, hsame w rfl rfl⟩
    | lookedUp machineId hasks =>
      have hmanager := (askLookup_frame score machineId w).1
      rw [hmanager]
      exact ⟨rfl, hsame _ (by rw [hmanager]) (by rw [hmanager])⟩
    | cached machineId specJson hvalid => exact ⟨rfl, hsame _ rfl rfl⟩
    | deleted machineId =>
      refine ⟨?_, TrackerMoves.stop machineId "machine_deleted" w (w.uncacheSpec machineId) rfl rfl⟩
      show ((w.uncacheSpec machineId).stopMachineActor machineId _).manager.restartPolicy = _
      unfold Managing.stopMachineActor
      split_ifs <;> rfl
    | asked machineId message =>
      refine ⟨?_, fun id => Or.inl ?_⟩
      · rw [manage_toManaging]
        unfold Managing.ask
        cases w.manager.actors[machineId]? <;> rfl
      · rw [manage_toManaging, Managing.mem_actors_ask, Managing.ask_trackers]
        exact ⟨rfl, fun hid => hid⟩
    | spawned machineId specJson actor hspec hnone hlookup hactor =>
      exact ⟨rfl, TrackerMoves.add machineId actor w⟩
    | stopped machineId reason lines hlookup hlines =>
      refine ⟨?_, TrackerMoves.stop machineId reason w (w.emit lines) rfl rfl⟩
      show ((w.emit lines).stopMachineActor machineId reason).manager.restartPolicy = _
      unfold Managing.stopMachineActor
      split_ifs <;> rfl
  | written etcd now => exact ⟨rfl, hsame _ rfl rfl⟩
  | topology peers =>
    unfold Node.applyTopology
    split_ifs <;> exact ⟨rfl, hsame _ rfl rfl⟩

/-- A noted failure changes the tracker of its machine, which keeps its policy. -/
theorem noteFailure_tracker {P : Type} (instant : ℕ) (machineId error : String)
    (m : Managing P) (id : String) :
    (m.noteFailure instant machineId error).manager.restartPolicy = m.manager.restartPolicy ∧
      (id ≠ machineId → (m.noteFailure instant machineId error).manager.restartTrackers[id]? =
        m.manager.restartTrackers[id]?) ∧
      ∀ tracker, (m.noteFailure instant machineId error).manager.restartTrackers[id]? =
        some tracker → ∃ old, m.manager.restartTrackers[id]? = some old ∧
          tracker.policy = old.policy := by
  unfold Managing.noteFailure Managing.emit
  obtain ⟨-, heq | ⟨old, hold, heq⟩⟩ := Managing.recordFailure_cases instant machineId m
  · rw [heq]
    exact ⟨rfl, fun _ => rfl, fun tracker htracker => ⟨tracker, htracker, rfl⟩⟩
  · rw [heq]
    refine ⟨rfl, ?_, ?_⟩
    · intro hid
      simp [Std.ExtTreeMap.getElem?_insert, Ne.symm hid]
    · intro tracker htracker
      by_cases hid : id = machineId
      · subst hid
        simp only [Std.ExtTreeMap.getElem?_insert_self] at htracker
        obtain rfl := Option.some.inj htracker
        exact ⟨old, hold, old.recordRestart_policy instant⟩
      · simp only [Std.ExtTreeMap.getElem?_insert] at htracker
        rw [if_neg (by simpa using Ne.symm hid)] at htracker
        exact ⟨tracker, htracker, rfl⟩

theorem Governed.fails {P : Type} [SerdeJson] {now : ℤ} {instant : ℕ} {machineId error : String}
    {policy : RestartPolicy} {w : World P} {m : Managing P} (hw : w.Governed policy)
    (h : w.Fails now instant machineId error m) : (w.manage m).Governed policy := by
  have hpolicy := (noteFailure_tracker instant machineId error w.toManaging "").1.trans hw.manager
  have hnoted : ∀ (id : String) (tracker : RestartTracker),
      (w.noteFailure instant machineId error).manager.restartTrackers[id]? = some tracker →
        tracker.policy = policy := by
    intro id tracker htracker
    obtain ⟨old, hold, heq⟩ :=
      (noteFailure_tracker instant machineId error w.toManaging id).2.2 tracker htracker
    rw [heq]
    exact hw.trackers id old hold
  cases h with
  | uncached hrestart hspec => exact ⟨hpolicy, hnoted⟩
  | unparsed hrestart hspec hparse => exact ⟨hpolicy, hnoted⟩
  | restarted hrestart hspec hactor =>
    refine ⟨hpolicy, fun id tracker htracker => ?_⟩
    simp only [manage_toManaging, Managing.addActor, Managing.dropActor,
      Std.ExtTreeMap.getElem?_insert] at htracker
    split_ifs at htracker
    · obtain rfl := Option.some.inj htracker
      exact hpolicy
    · exact hnoted id tracker htracker
  | exceeded hrestart =>
    refine ⟨hpolicy, fun id tracker htracker => ?_⟩
    simp only [manage_toManaging, Managing.exceedLimit, Std.ExtTreeMap.getElem?_erase] at htracker
    split_ifs at htracker
    exact hnoted id tracker htracker

/-- The failure of another machine leaves a tracker fresh. -/
theorem FreshTracker.fails_other {P : Type} [SerdeJson] {now : ℤ} {instant : ℕ}
    {machineId error id : String} {policy : RestartPolicy} {w : World P} {m : Managing P}
    (hw : w.FreshTracker policy id) (h : w.Fails now instant machineId error m)
    (hid : id ≠ machineId) : (w.manage m).FreshTracker policy id := by
  obtain ⟨hactors, -, -, -, -⟩ := Managing.noteFailure_frame instant machineId error w.toManaging
  have htracker := (noteFailure_tracker instant machineId error w.toManaging id).2.1 hid
  unfold FreshTracker at hw ⊢
  cases h with
  | uncached hrestart hspec =>
    rw [manage_toManaging, hactors, htracker]
    exact hw
  | unparsed hrestart hspec hparse =>
    intro hmem
    rw [manage_toManaging, Managing.dropActor, hactors] at hmem
    rw [manage_toManaging, Managing.dropActor, htracker]
    exact hw (Std.ExtTreeMap.mem_of_mem_erase hmem)
  | restarted hrestart hspec hactor =>
    intro hmem
    rw [manage_toManaging, Managing.mem_actors_addActor, Managing.dropActor, hactors] at hmem
    simp only [manage_toManaging, Managing.addActor, Managing.dropActor,
      Std.ExtTreeMap.getElem?_insert]
    rw [if_neg (by simpa using Ne.symm hid), htracker]
    exact hw (Std.ExtTreeMap.mem_of_mem_erase (hmem.resolve_left hid))
  | exceeded hrestart =>
    intro hmem
    rw [manage_toManaging, Managing.exceedLimit, hactors] at hmem
    simp only [manage_toManaging, Managing.exceedLimit, Std.ExtTreeMap.getElem?_erase]
    rw [if_neg (by simpa using Ne.symm hid), htracker]
    exact hw (Std.ExtTreeMap.mem_of_mem_erase hmem)

/-- A machine with a fresh tracker is allowed a restart if the policy has any. -/
theorem FreshTracker.restartable {P : Type} {policy : RestartPolicy} {machineId : String}
    {w : World P} (hw : w.FreshTracker policy machineId) (hactor : machineId ∈ w.manager.actors)
    (hmax : policy.maxRestarts ≠ 0) (instant : ℕ) : w.Restartable instant machineId := by
  refine ⟨_, hw hactor, ?_⟩
  show 0 < policy.maxRestarts.toNat
  rw [Nat.pos_iff_ne_zero]
  intro hzero
  exact hmax (UInt32.toNat_inj.mp hzero)

/-- The restart of a machine whose spec parses gives it a fresh tracker again. -/
theorem FreshTracker.fails_self {P : Type} [SerdeJson] {now : ℤ} {instant : ℕ}
    {machineId error : String} {policy : RestartPolicy} {w : World P} {m : Managing P}
    (hw : w.Governed policy) (hrestart : w.Restartable instant machineId)
    (hspec : ∃ specJson ∈ w.manager.machineSpecs[machineId]?, Parses machineId specJson)
    (h : w.Fails now instant machineId error m) :
    (w.manage m).FreshTracker policy machineId := by
  obtain ⟨specJson, hget, hparses⟩ := hspec
  intro _
  cases h with
  | uncached _ hnone =>
    rw [hnone] at hget
    cases hget
  | unparsed _ hspec hparse =>
    rw [hspec] at hget
    obtain rfl := Option.some.inj hget
    rw [Parses, hparse] at hparses
    cases hparses
  | restarted _ hspec hactor =>
    have hpolicy := (noteFailure_tracker instant machineId error w.toManaging "").1
    simp only [manage_toManaging, Managing.addActor, Managing.dropActor,
      Std.ExtTreeMap.getElem?_insert_self, hpolicy, hw.manager]
  | exceeded hnot => exact absurd hrestart hnot

end World

namespace Supervised

/-- The instant at which a step handles a failure of the machine. -/
def Label.failedAt {P : Type} (machineId : String) : Label P → Option ℕ
  | .fail id _ instant => if id = machineId then some instant else none
  | _ => none

/-- How many of the instants are in the closed interval of the given length. -/
def countIn (instants : List ℕ) (start length : ℕ) : ℕ :=
  instants.countP (fun instant => start ≤ instant ∧ instant ≤ start + length)

/-- The instants at which a machine was restarted. -/
def restartsOf {P : Type} (s : Supervised P) (machineId : String) : List ℕ :=
  (s.failures.filter (fun f => f.machineId = machineId ∧ f.restarted)).map Failure.instant

/-- In every interval of the window's length the machine is restarted at most as
often as the policy allows. -/
def LimitBinds {P : Type} (policy : RestartPolicy) (machineId : String) (s : Supervised P) :
    Prop :=
  ∀ start, countIn (s.restartsOf machineId) start policy.window ≤ policy.maxRestarts.toNat

/-- The policy allows no restart, or the machine fails at most as often as it
allows in every interval of the window's length. -/
def Sparse {P : Type} (policy : RestartPolicy) (machineId : String) (labels : List (Label P)) :
    Prop :=
  policy.maxRestarts = 0 ∨ ∀ start,
    countIn (labels.filterMap (Label.failedAt machineId)) start policy.window ≤
      policy.maxRestarts.toNat

/-- When the machine fails it has an actor and a cached spec that parses. -/
def Running {P : Type} [SerdeJson] (machineId : String) (s : Supervised P) : Label P → Prop
  | .fail id _ _ => id = machineId → machineId ∈ s.world.manager.actors ∧
    ∃ specJson ∈ s.world.manager.machineSpecs[machineId]?, Parses machineId specJson
  | _ => True

instance {P : Type} [SerdeJson] (machineId : String) (s : Supervised P) (l : Label P) :
    Decidable (s.Running machineId l) :=
  match l with
  | .fail _ _ _ => inferInstanceAs (Decidable (_ → _ ∧ ∃ specJson ∈ _, Parses _ specJson))
  | .handle _ _ | .advance | .finish | .topology _ | .write _ | .ask _ _ | .tick _ => isTrue trivial

theorem step_failures {P : Type} [SerdeJson] [DecidableEq P] [PeerId P] {score : Score P}
    {s t : Supervised P} {l : Label P} (h : Steps score s l t) :
    (∃ machineId error instant, l = .fail machineId error instant ∧
      t.failures = s.failures ++ [s.failureOf machineId instant]) ∨
    ((∀ machineId, l.failedAt machineId = none) ∧ t.failures = s.failures) := by
  cases h with
  | fail hrunning hm => exact Or.inl ⟨_, _, _, rfl, rfl⟩
  | failPanic hnone => exact Or.inl ⟨_, _, _, rfl, rfl⟩
  | _ => exact Or.inr ⟨fun _ => rfl, rfl⟩

/-- The failures of a machine that a run adds are those that its steps handle. -/
theorem failures_run {P : Type} [SerdeJson] [DecidableEq P] [PeerId P] {score : Score P}
    (machineId : String) {s t : Supervised P} {labels : List (Label P)}
    (h : Run (StepOf (Supervised.step score)) s labels t) :
    (t.failures.filter (fun f => f.machineId = machineId)).map Failure.instant =
      (s.failures.filter (fun f => f.machineId = machineId)).map Failure.instant ++
        labels.filterMap (Label.failedAt machineId) := by
  induction h with
  | nil s => simp
  | @cons s u t l labels hstep _ ih =>
    rw [ih]
    obtain ⟨id, error, instant, rfl, hfailures⟩ | ⟨hnone, hfailures⟩ :=
      step_failures (step_cases hstep)
    · rw [hfailures]
      by_cases hid : id = machineId
      · simp [hid, failureOf, Label.failedAt]
      · simp [hid, failureOf, Label.failedAt]
    · rw [hfailures, List.filterMap_cons, hnone machineId]

theorem governed_step {P : Type} [SerdeJson] [DecidableEq P] [PeerId P] {score : Score P}
    {policy : RestartPolicy} {s t : Supervised P} {l : Label P} (hsound : s.Sound score)
    (hs : s.world.Governed policy) (h : Steps score s l t) : t.world.Governed policy := by
  have haffects := (hsound.step h).2.affects_of_ne
  cases h with
  | fail hrunning hm => exact hs.fails (Managing.handleActorFailure_cases hm)
  | failPanic hnone => exact hs
  | _ =>
    obtain ⟨hpolicy, hmoves⟩ := World.affects_trackers (haffects (by simp))
    exact World.TrackerMoves.governed hmoves hs hpolicy

theorem governed_start {P : Type} [PeerId P] {policy : RestartPolicy} {localPeerId : P}
    {nodeId : String} {peers : List P} {etcd : Etcd} {now : ℤ} {s : Supervised P}
    (h : start policy localPeerId nodeId peers etcd now = some s) : s.world.Governed policy := by
  obtain ⟨coordinator, -, rfl⟩ := Option.map_eq_some_iff.mp h
  refine ⟨rfl, fun machineId tracker hget => ?_⟩
  simp [MachineActorManagerActor.new] at hget

/-- Without allowed restarts nothing is restarted. -/
theorem not_restarted_of_zero {P : Type} [SerdeJson] [DecidableEq P] [PeerId P]
    {score : Score P} {policy : RestartPolicy} {localPeerId : P} {nodeId : String}
    {peers : List P} {etcd : Etcd} {now : ℤ} {s₀ s : Supervised P} {labels : List (Label P)}
    (hstart : start policy localPeerId nodeId peers etcd now = some s₀)
    (h : Run (StepOf (Supervised.step score)) s₀ labels s) (hzero : policy.maxRestarts = 0) :
    ∀ f ∈ s.failures, f.restarted = false := by
  have hinv : s.Sound score ∧ s.world.Governed policy ∧
      ∀ f ∈ s.failures, f.restarted = false := by
    refine h.invariant (I := fun s => s.Sound score ∧ s.world.Governed policy ∧
      ∀ f ∈ s.failures, f.restarted = false) ?_
      ⟨sound_start score hstart, governed_start hstart, ?_⟩
    · rintro s l t ⟨hsound, hs, hnone⟩ hstep
      have hcases := step_cases hstep
      refine ⟨(hsound.step hcases).1, governed_step hsound hs hcases, ?_⟩
      obtain ⟨id, error, instant, rfl, hfailures⟩ | ⟨-, hfailures⟩ := step_failures hcases
      · rw [hfailures]
        intro f hf
        obtain hf | hf := List.mem_append.mp hf
        · exact hnone f hf
        · obtain rfl := List.mem_singleton.mp hf
          by_contra hrestarted
          have htrue : (s.world.recordFailure instant id).1 = true := by
            simpa [failureOf] using hrestarted
          obtain ⟨tracker, htracker, hroom⟩ :=
            (Managing.recordFailure_cases instant id s.world.toManaging).1.mp htrue
          rw [hs.trackers id tracker htracker, hzero] at hroom
          exact absurd hroom (Nat.not_lt_zero _)
      · rw [hfailures]
        exact hnone
    · obtain ⟨coordinator, -, rfl⟩ := Option.map_eq_some_iff.mp hstart
      simp
  exact hinv.2.2

/-- A machine that can always be restarted always is. -/
theorem restarted_of_running {P : Type} [SerdeJson] [DecidableEq P] [PeerId P]
    {score : Score P} {policy : RestartPolicy} {localPeerId : P} {nodeId : String}
    {peers : List P} {etcd : Etcd} {now : ℤ} {s₀ s : Supervised P} {labels : List (Label P)}
    (machineId : String) (hstart : start policy localPeerId nodeId peers etcd now = some s₀)
    (h : Run (Guarded (Running machineId) (StepOf (Supervised.step score))) s₀ labels s)
    (hmax : policy.maxRestarts ≠ 0) :
    ∀ f ∈ s.failures, f.machineId = machineId → f.restarted = true := by
  have hinv : (s.Sound score ∧ s.world.Governed policy) ∧
      s.world.FreshTracker policy machineId ∧
      ∀ f ∈ s.failures, f.machineId = machineId → f.restarted = true := by
    refine h.invariant (I := fun s => (s.Sound score ∧ s.world.Governed policy) ∧
      s.world.FreshTracker policy machineId ∧
      ∀ f ∈ s.failures, f.machineId = machineId → f.restarted = true) ?_
      ⟨⟨sound_start score hstart, governed_start hstart⟩, ?_⟩
    · rintro s l t ⟨⟨hsound, hs⟩, hfresh, hall⟩ ⟨hok, hstep⟩
      have hcases := step_cases hstep
      refine ⟨⟨(hsound.step hcases).1, governed_step hsound hs hcases⟩, ?_, ?_⟩
      · have haffects := (hsound.step hcases).2.affects_of_ne
        cases hcases with
        | @fail id error instant m hrunning hm =>
          have hfails := Managing.handleActorFailure_cases hm
          by_cases hid : id = machineId
          · subst hid
            obtain ⟨hactor, hspec⟩ := hok rfl
            exact World.FreshTracker.fails_self hs (hfresh.restartable hactor hmax instant)
              hspec hfails
          · exact hfresh.fails_other hfails (Ne.symm hid)
        | failPanic hnone => exact hfresh
        | _ =>
          obtain ⟨-, hmoves⟩ := World.affects_trackers (haffects (by simp))
          exact (hmoves machineId).fresh hfresh hs.manager
      · obtain ⟨id, error, instant, rfl, hfailures⟩ | ⟨-, hfailures⟩ := step_failures hcases
        · rw [hfailures]
          intro f hf hmachine
          obtain hf | hf := List.mem_append.mp hf
          · exact hall f hf hmachine
          · obtain rfl := List.mem_singleton.mp hf
            have hid : id = machineId := hmachine
            subst hid
            obtain ⟨hactor, -⟩ := hok rfl
            exact (Managing.recordFailure_cases instant id s.world.toManaging).1.mpr
              (hfresh.restartable hactor hmax instant)
        · rw [hfailures]
          exact hall
    · obtain ⟨coordinator, -, rfl⟩ := Option.map_eq_some_iff.mp hstart
      refine ⟨?_, by simp⟩
      intro hmem
      simp [MachineActorManagerActor.new] at hmem
  exact hinv.2.2

/-- In every run the restart limit of a machine is kept if the machine fails
sparsely. In runs in which the machine can be restarted whenever it fails, the
limit is kept only then, because every failure restarts it. -/
theorem restart_limit {P : Type} [SerdeJson] [DecidableEq P] [PeerId P] (score : Score P)
    (policy : RestartPolicy) (localPeerId : P) (nodeId : String) (peers : List P) (etcd : Etcd)
    (now : ℤ) (machineId : String) (s₀ s : Supervised P) (labels : List (Label P))
    (hstart : start policy localPeerId nodeId peers etcd now = some s₀)
    (h : Run (StepOf (Supervised.step score)) s₀ labels s) :
    (Sparse policy machineId labels → s.LimitBinds policy machineId) ∧
    (Run (Guarded (Running machineId) (StepOf (Supervised.step score))) s₀ labels s →
      (s.LimitBinds policy machineId ↔ Sparse policy machineId labels)) := by
  have hinstants : (s.failures.filter (fun f => f.machineId = machineId)).map Failure.instant =
      labels.filterMap (Label.failedAt machineId) := by
    rw [failures_run machineId h]
    obtain ⟨coordinator, -, rfl⟩ := Option.map_eq_some_iff.mp hstart
    rfl
  have hzero : policy.maxRestarts = 0 → s.LimitBinds policy machineId := by
    intro hmax start
    have hnone := not_restarted_of_zero hstart h hmax
    have hempty : s.restartsOf machineId = [] := by
      unfold restartsOf
      rw [List.map_eq_nil_iff, List.filter_eq_nil_iff]
      intro f hf
      simp [hnone f hf]
    rw [hempty]
    exact Nat.zero_le _
  -- Restarts are failures, and in a run of restartable failures all of them are.
  have hfewer : ∀ start, countIn (s.restartsOf machineId) start policy.window ≤
      countIn (labels.filterMap (Label.failedAt machineId)) start policy.window := by
    intro start
    rw [← hinstants]
    have hsublist : (s.failures.filter (fun f => f.machineId = machineId ∧ f.restarted)).Sublist
        (s.failures.filter (fun f => f.machineId = machineId)) := by
      apply List.monotone_filter_right
      intro f hf
      simp only [Bool.decide_and, Bool.and_eq_true] at hf
      exact hf.1
    exact (hsublist.map Failure.instant).countP_le
  refine ⟨?_, ?_⟩
  · rintro (hmax | hsparse)
    · exact hzero hmax
    · exact fun start => (hfewer start).trans (hsparse start)
  · intro hrunning
    by_cases hmax : policy.maxRestarts = 0
    · exact iff_of_true (hzero hmax) (Or.inl hmax)
    · have hall := restarted_of_running machineId hstart hrunning hmax
      have hevery : s.restartsOf machineId = labels.filterMap (Label.failedAt machineId) := by
        rw [← hinstants]
        unfold restartsOf
        congr 1
        apply List.filter_congr
        intro f hf
        simpa using hall f hf
      unfold LimitBinds Sparse
      rw [hevery]
      simp [hmax]

/-- A machine that fails twice, further apart than the window. -/
theorem restart_limit_apart :
    let spec : Json := .object [("adminState", .string "available"), ("cluster", .string "lab")]
    let _ : SerdeJson := SerdeJson.knowing [spec]
    let policy : RestartPolicy := ⟨1, 10, 1, 1⟩
    ∃ s : Supervised Base58Text, s.failures = [⟨"m1", 5, true⟩, ⟨"m1", 25, true⟩] ∧
      s.LimitBinds policy "m1" := by
  intro spec _ policy
  let a := peerOf "12D3KooWAAAAAAAAAAAAAAAAAAAAAAAAAAAAAAAAAAAAAAAAAAAA"
  let score : Score Base58Text := fun _ _ => 7
  let labels := ownPut "m1" spec.text [] ++ [.fail "m1" "panic" 5, .fail "m1" "panic" 25]
  obtain ⟨s₀, hstart, s, hrun, hfailures⟩ :
      ∃ s₀ ∈ start policy a "node-a" [a] ∅ 0,
      ∃ s ∈ labels.foldlM (Supervised.step score) s₀,
        s.failures = [⟨"m1", 5, true⟩, ⟨"m1", 25, true⟩] := by
    decide +kernel
  refine ⟨s, hfailures, (restart_limit score policy a "node-a" [a] ∅ 0 "m1" s₀ s labels hstart
    (Run.of_foldlM hrun)).1 (Or.inr ?_)⟩
  intro start
  show countIn [5, 25] start 10 ≤ 1
  unfold countIn
  by_cases h : start ≤ 5
  · have hlater : ¬25 ≤ start + 10 := by omega
    simp [List.countP_cons, hlater]
    split_ifs
    omega
  · simp [List.countP_cons, h]
    split_ifs
    · simp
    · simp

/-- The machine is not deleted and stays owned, and time does not go back. -/
def StaysOwned {P : Type} [DecidableEq P] [PeerId P] (score : Score P) (machineId : String)
    (s : Supervised P) : Label P → Prop
  | .handle (.etcdMachineEvent id .delete _) _ => id ≠ machineId
  | .topology peers =>
    (RendezvousHasher.new peers).isLocal score machineId s.world.coordinator.localPeerId = true
  | .fail _ _ instant => ∀ f ∈ s.failures, f.instant ≤ instant
  | _ => True

instance {P : Type} [DecidableEq P] [PeerId P] (score : Score P) (machineId : String)
    (s : Supervised P) (l : Label P) : Decidable (s.StaysOwned score machineId l) := by
  unfold StaysOwned
  split <;> infer_instance

/-- Six failures at one instant are six restarts under the default policy of five. -/
theorem not_restart_limit : ¬∀ [SerdeJson] (score : Score Base58Text) (policy : RestartPolicy)
    (localPeerId : Base58Text) (nodeId : String) (peers : List Base58Text) (etcd : Etcd) (now : ℤ)
    (machineId : String) (s₀ s : Supervised Base58Text) (labels : List (Label Base58Text)),
    start policy localPeerId nodeId peers etcd now = some s₀ →
      (RendezvousHasher.new peers).isLocal score machineId localPeerId = true →
      Run (Guarded (StaysOwned score machineId) (StepOf (Supervised.step score))) s₀ labels s →
      s.LimitBinds policy machineId := by
  intro hclaim
  let spec : Json := .object [("adminState", .string "available"), ("cluster", .string "lab")]
  let _ : SerdeJson := SerdeJson.knowing [spec]
  let a := peerOf "12D3KooWAAAAAAAAAAAAAAAAAAAAAAAAAAAAAAAAAAAAAAAAAAAA"
  let score : Score Base58Text := fun _ _ => 7
  let labels := ownPut "m1" spec.text [] ++ List.replicate 6 (.fail "m1" "panic" 5)
  obtain ⟨s₀, hstart, s, hrun, hrestarts⟩ :
      ∃ s₀ ∈ start RestartPolicy.default a "node-a" [a] ∅ 0,
      ∃ s ∈ labels.foldlM (guardedNext (StaysOwned score "m1") (Supervised.step score)) s₀,
        s.restartsOf "m1" = List.replicate 6 5 := by
    decide +kernel
  have hbound := hclaim score RestartPolicy.default a "node-a" [a] ∅ 0 "m1" s₀ s labels hstart
    (by decide) (Run.guarded_of_foldlM hrun) 0
  rw [hrestarts] at hbound
  exact absurd hbound (by decide)

end Supervised
end Neolaas
