import Neolaas.ManagerRuns
import Neolaas.ManagerSettles

/-!
# The manager's maps

Spawns and stops change the actors and the restart trackers together, and an
actor is of a cached machine. A restart takes the actor out of its map alone and
leaves the tracker to the spawn that follows, which fails when the cached spec
does not parse.
-/
namespace Neolaas
open AtomicProgram LabelledRuns

/-- An actor is made from a spec that parses. -/
theorem parses_of_withNodeId [SerdeJson] {now : ℤ} {machineId specJson nodeId : String}
    {actor : MachineActor}
    (h : MachineActor.withNodeId now machineId specJson nodeId = some actor) :
    Parses machineId specJson := by
  obtain ⟨spec, hspec, -⟩ := Option.map_eq_some_iff.mp h
  rw [Parses, hspec]
  rfl

namespace World

/-- The trackers are those of the actors, and both are of cached machines. -/
structure Bookkept {P : Type} (w : World P) : Prop where
  trackers : ∀ machineId, machineId ∈ w.manager.restartTrackers ↔ machineId ∈ w.manager.actors
  contained : w.Contained

end World

namespace Managing

@[simp] theorem mem_trackers_addActor {P : Type} (machineId : String) (actor : MachineActor)
    (m : Managing P) (id : String) :
    id ∈ (m.addActor machineId actor).manager.restartTrackers ↔
      id = machineId ∨ id ∈ m.manager.restartTrackers := by
  rw [addActor, Std.ExtTreeMap.mem_insert]
  have hcompare : compare machineId id = .eq ↔ id = machineId := by
    rw [eq_comm (a := id)]
    simp
  exact or_congr_left hcompare

/-- A stop changes the actors and the trackers together. -/
theorem stopMachineActor_trackers {P : Type} (machineId reason : String) (m : Managing P)
    (h : ∀ id, id ∈ m.manager.restartTrackers ↔ id ∈ m.manager.actors) (id : String) :
    id ∈ (m.stopMachineActor machineId reason).manager.restartTrackers ↔
      id ∈ (m.stopMachineActor machineId reason).manager.actors := by
  unfold stopMachineActor
  split_ifs
  · simp only [Std.ExtTreeMap.mem_erase, h]
  · exact h id

end Managing

namespace World

/-- Every way in which a node affects its manager keeps the maps in agreement. -/
theorem Bookkept.affects {P : Type} [SerdeJson] [DecidableEq P] [PeerId P] {score : Score P}
    {Valid : String → String → Prop} {asks : Prop} {w w' : World P} (hw : w.Bookkept)
    (h : Node.Affects score Valid asks w w') : w'.Bookkept := by
  refine ⟨?_, h.contained hw.contained⟩
  intro id
  have hid := hw.trackers id
  cases h with
  | managed h =>
    cases h with
    | quiet => exact hid
    | lookedUp machineId => rwa [(askLookup_frame score machineId w).1]
    | cached machineId specJson hvalid => exact hid
    | deleted machineId =>
      exact Managing.stopMachineActor_trackers machineId _ (w.uncacheSpec machineId) hw.trackers id
    | asked machineId message =>
      rw [manage_toManaging, Managing.mem_actors_ask, Managing.ask_trackers]
      exact hid
    | spawned machineId specJson actor hspec hnone hlookup hactor =>
      rw [manage_toManaging, Managing.mem_actors_addActor, Managing.mem_trackers_addActor, hid]
    | stopped machineId reason lines hlookup hlines =>
      exact Managing.stopMachineActor_trackers machineId reason (w.emit lines) hw.trackers id
  | written etcd now => exact hid
  | topology peers =>
    unfold Node.applyTopology
    split_ifs <;> exact hid

/-- A failure leaves the maps in agreement exactly when the machine is not to be
restarted or its cached spec parses. -/
theorem Bookkept.fails {P : Type} [SerdeJson] {now : ℤ} {instant : ℕ} {machineId error : String}
    {w : World P} {m : Managing P} (hw : w.Bookkept)
    (h : w.Fails now instant machineId error m) :
    (w.manage m).Bookkept ↔ (w.Restartable instant machineId →
      ∃ specJson ∈ w.manager.machineSpecs[machineId]?, Parses machineId specJson) := by
  obtain ⟨hactors, hspecs, -, htrackers, -⟩ :=
    Managing.noteFailure_frame instant machineId error w.toManaging
  -- A machine that may restart has a tracker, so an actor, so a cached spec.
  have hcached : w.Restartable instant machineId → machineId ∈ w.manager.machineSpecs := by
    rintro ⟨tracker, htracker, -⟩
    apply hw.contained
    rw [← hw.trackers, Std.ExtTreeMap.mem_iff_isSome_getElem?, htracker]
    rfl
  cases h with
  | uncached hrestart hspec =>
    have hin := hcached hrestart
    rw [Std.ExtTreeMap.mem_iff_isSome_getElem?, hspec] at hin
    cases hin
  | @unparsed specJson hrestart hspec hparse =>
    constructor
    · intro hkept
      have hin : machineId ∈ w.manager.restartTrackers := by
        obtain ⟨tracker, htracker, -⟩ := hrestart
        rw [Std.ExtTreeMap.mem_iff_isSome_getElem?, htracker]
        rfl
      have hactor := (hkept.trackers machineId).mp ((htrackers machineId).mpr hin)
      simp [Managing.dropActor] at hactor
    · intro hgood
      obtain ⟨spec, hget, hparses⟩ := hgood hrestart
      rw [hspec] at hget
      obtain rfl := Option.some.inj hget
      rw [Parses, hparse] at hparses
      cases hparses
  | @restarted specJson actor hrestart hspec hactor =>
    refine iff_of_true ⟨fun id => ?_, fun id hid => ?_⟩ (fun _ => ⟨specJson, hspec, ?_⟩)
    · rw [manage_toManaging, Managing.mem_actors_addActor, Managing.mem_trackers_addActor]
      simp only [Managing.dropActor, htrackers, hactors, Std.ExtTreeMap.mem_erase, hw.trackers]
      by_cases he : id = machineId
      · simp [he]
      · simp [he, Ne.symm he]
    · rw [manage_toManaging, Managing.mem_actors_addActor] at hid
      rw [manage_toManaging, Managing.addActor_specs, Managing.dropActor, hspecs]
      obtain rfl | hid := hid
      · exact hcached hrestart
      · rw [Managing.dropActor, hactors] at hid
        exact hw.contained id (Std.ExtTreeMap.mem_of_mem_erase hid)
    · exact parses_of_withNodeId hactor
  | exceeded hrestart =>
    refine iff_of_true ⟨fun id => ?_, fun id hid => ?_⟩ (fun h => absurd h hrestart)
    · simp only [manage_toManaging, Managing.exceedLimit, Std.ExtTreeMap.mem_erase, htrackers,
        hactors, hw.trackers]
    · rw [manage_toManaging, Managing.exceedLimit, hactors] at hid
      rw [manage_toManaging, Managing.exceedLimit, hspecs]
      exact hw.contained id (Std.ExtTreeMap.mem_of_mem_erase hid)

end World

namespace Supervised

/-- A failed machine that is to be restarted has a cached spec that parses. -/
def RestartsParse {P : Type} [SerdeJson] (s : Supervised P) : Label P → Prop
  | .fail machineId _ instant => s.world.Restartable instant machineId →
    ∃ specJson ∈ s.world.manager.machineSpecs[machineId]?, Parses machineId specJson
  | _ => True

instance {P : Type} [SerdeJson] (s : Supervised P) (l : Label P) : Decidable (s.RestartsParse l) :=
  match l with
  | .fail _ _ _ => inferInstanceAs (Decidable (_ → ∃ specJson ∈ _, Parses _ specJson))
  | .handle _ _ | .advance | .finish | .topology _ | .write _ | .ask _ _ | .tick _ => isTrue trivial

/-- A step from maps in agreement leads to maps in agreement exactly when it meets
the condition. -/
theorem bookkept_step {P : Type} [SerdeJson] [DecidableEq P] [PeerId P] {score : Score P}
    {s t : Supervised P} {l : Label P} (hsound : s.Sound score) (hs : s.world.Bookkept)
    (h : s.step score l = some t) : t.world.Bookkept ↔ s.RestartsParse l := by
  have hcases := step_cases h
  have haffects := (hsound.step hcases).2.affects_of_ne
  cases hcases with
  | fail hrunning hm => exact hs.fails (Managing.handleActorFailure_cases hm)
  | failPanic hnone =>
    obtain ⟨specJson, actor, hspec, hactor⟩ := Managing.handleActorFailure_none hnone
    exact iff_of_true hs (fun _ => ⟨specJson, hspec, parses_of_withNodeId hactor⟩)
  | _ => exact iff_of_true (hs.affects (haffects (by simp))) trivial

/-- In every run in which each machine that is to be restarted has a cached spec
that parses, the restart trackers are always those of the actors, and both are of
cached machines. The first step that breaks the condition breaks this too. -/
theorem manager_bookkeeping {P : Type} [SerdeJson] [DecidableEq P] [PeerId P] (score : Score P)
    (policy : RestartPolicy) (localPeerId : P) (nodeId : String) (peers : List P) (etcd : Etcd)
    (now : ℤ) (s₀ s : Supervised P) (labels : List (Label P))
    (hstart : start policy localPeerId nodeId peers etcd now = some s₀)
    (h : Run (Guarded RestartsParse (StepOf (Supervised.step score))) s₀ labels s) :
    (∀ machineId, machineId ∈ s.world.manager.restartTrackers ↔
      machineId ∈ s.world.manager.actors) ∧
    (∀ machineId ∈ s.world.manager.actors, machineId ∈ s.world.manager.machineSpecs) ∧
    ∀ l t, s.step score l = some t → (t.world.Bookkept ↔ s.RestartsParse l) := by
  have hinv : s.Sound score ∧ s.world.Bookkept := by
    refine h.invariant (I := fun s => s.Sound score ∧ s.world.Bookkept) ?_
      ⟨sound_start score hstart, ?_⟩
    · rintro s l t ⟨hsound, hs⟩ ⟨hok, hstep⟩
      exact ⟨(hsound.step (step_cases hstep)).1, (bookkept_step hsound hs hstep).mpr hok⟩
    · obtain ⟨coordinator, -, rfl⟩ := Option.map_eq_some_iff.mp hstart
      constructor
      · simp [MachineActorManagerActor.new]
      · simp [World.Contained, MachineActorManagerActor.new]
  exact ⟨hinv.2.trackers, hinv.2.contained, fun l t hstep => bookkept_step hinv.1 hinv.2 hstep⟩

/-- A machine whose actor is restarted. -/
theorem manager_bookkeeping_restart :
    let spec : Json := .object [("adminState", .string "available"), ("cluster", .string "lab")]
    let _ : SerdeJson := SerdeJson.knowing [spec]
    ∃ s : Supervised Base58Text, s.failures = [⟨"m1", 5, true⟩] ∧
      "m1" ∈ s.world.manager.restartTrackers ∧
      (∀ machineId, machineId ∈ s.world.manager.restartTrackers ↔
        machineId ∈ s.world.manager.actors) := by
  intro spec _
  let a := peerOf "12D3KooWAAAAAAAAAAAAAAAAAAAAAAAAAAAAAAAAAAAAAAAAAAAA"
  let score : Score Base58Text := fun _ _ => 7
  let labels := ownPut "m1" spec.text [] ++ [.fail "m1" "panic" 5]
  obtain ⟨s₀, hstart, s, hrun, hfailures, htracker⟩ :
      ∃ s₀ ∈ start RestartPolicy.default a "node-a" [a] ∅ 0,
      ∃ s ∈ labels.foldlM (guardedNext RestartsParse (Supervised.step score)) s₀,
        s.failures = [⟨"m1", 5, true⟩] ∧ "m1" ∈ s.world.manager.restartTrackers := by
    decide +kernel
  have hkept := manager_bookkeeping score _ a "node-a" [a] ∅ 0 s₀ s labels hstart
    (Run.guarded_of_foldlM hrun)
  exact ⟨s, hfailures, htracker, hkept.1⟩

/-- A machine whose spec was overwritten by one that does not parse loses its actor
in the restart and keeps its tracker. -/
theorem not_manager_bookkeeping : ¬∀ [SerdeJson] (score : Score Base58Text)
    (policy : RestartPolicy) (localPeerId : Base58Text) (nodeId : String)
    (peers : List Base58Text) (etcd : Etcd) (now : ℤ) (s₀ s : Supervised Base58Text)
    (labels : List (Label Base58Text)),
    start policy localPeerId nodeId peers etcd now = some s₀ →
      Run (StepOf (Supervised.step score)) s₀ labels s → s.running = none →
      (∀ machineId, machineId ∈ s.world.manager.restartTrackers ↔
        machineId ∈ s.world.manager.actors) ∧
      ∀ machineId ∈ s.world.manager.actors, machineId ∈ s.world.manager.machineSpecs := by
  intro hclaim
  let spec : Json := .object [("adminState", .string "available"), ("cluster", .string "lab")]
  let _ : SerdeJson := SerdeJson.knowing [spec]
  let a := peerOf "12D3KooWAAAAAAAAAAAAAAAAAAAAAAAAAAAAAAAAAAAAAAAAAAAA"
  let score : Score Base58Text := fun _ _ => 7
  let labels := ownPut "m1" spec.text [] ++ ownPut "m1" "\x7b" ["m1"] ++ [.fail "m1" "panic" 5]
  obtain ⟨s₀, hstart, s, hrun, hidle, htracker, hactor⟩ :
      ∃ s₀ ∈ start RestartPolicy.default a "node-a" [a] ∅ 0,
      ∃ s ∈ labels.foldlM (Supervised.step score) s₀, s.running.isNone = true ∧
        "m1" ∈ s.world.manager.restartTrackers ∧ "m1" ∉ s.world.manager.actors := by
    decide +kernel
  have hkept := hclaim score _ a "node-a" [a] ∅ 0 s₀ s labels hstart (Run.of_foldlM hrun)
    (Option.isNone_iff_eq_none.mp hidle)
  exact hactor ((hkept.1 "m1").mp htracker)

end Supervised
end Neolaas
