import Neolaas.ManagerBookkeeping
import Neolaas.RestartLimit

/-!
# The gauge of machine actors

Spawns and stops are recorded on a gauge. It counts the actors as long as actors
come and go through spawn and stop; the handling of a failure records a spawn for
an actor that replaces another, and a stop for an actor that may not exist. A manager
whose policy allows restarts gets no failure right.
-/
namespace Neolaas
open AtomicProgram LabelledRuns

namespace Event

/-- What a recorded event adds to the gauge `neolaas_actor_count` of an actor type. -/
def gaugeChange (actorType : String) : Event → ℤ
  | recordActorSpawned recorded => if recorded = actorType then 1 else 0
  | recordActorStopped recorded _ => if recorded = actorType then -1 else 0
  | _ => 0

theorem OfActor.gaugeChange {machineId : String} {e : Event} (h : e.OfActor machineId)
    (actorType : String) : e.gaugeChange actorType = 0 := by
  cases e <;> first | rfl | exact h.elim

end Event

/-- The value of the gauge of an actor type after the recorded events. -/
def gauge (actorType : String) (events : List Event) : ℤ :=
  (events.map (Event.gaugeChange actorType)).sum

theorem gauge_append (actorType : String) (events more : List Event) :
    gauge actorType (events ++ more) = gauge actorType events + gauge actorType more := by
  simp [gauge]

/-- Events that are not recorded on the gauge leave it alone. -/
theorem gauge_append_of_zero {actorType : String} (events : List Event) {more : List Event}
    (h : ∀ e ∈ more, e.gaugeChange actorType = 0) :
    gauge actorType (events ++ more) = gauge actorType events := by
  have hzero : gauge actorType more = 0 := by
    unfold gauge
    apply List.sum_eq_zero
    intro change hchange
    obtain ⟨e, he, rfl⟩ := List.mem_map.mp hchange
    exact h e he
  rw [gauge_append, hzero, add_zero]

/-- Erasing a key takes one entry if the key is there. -/
theorem size_erase_eq {V : Type} (t : Std.ExtTreeMap String V) (key : String) :
    ((t.erase key).size : ℤ) = t.size - if key ∈ t then 1 else 0 := by
  rw [Std.ExtTreeMap.size_erase]
  by_cases h : key ∈ t
  · have hne : t.size ≠ 0 := by
      intro hzero
      rw [Std.ExtTreeMap.eq_empty_iff_size_eq_zero.mpr hzero] at h
      exact Std.ExtTreeMap.not_mem_empty h
    rw [if_pos h, if_pos (Std.ExtTreeMap.contains_iff_mem.mpr h)]
    omega
  · rw [if_neg h, if_neg (fun hc => h (Std.ExtTreeMap.contains_iff_mem.mp hc))]
    omega

/-- Inserting a key adds one entry unless the key is there. -/
theorem size_insert_eq {V : Type} (t : Std.ExtTreeMap String V) (key : String) (value : V) :
    ((t.insert key value).size : ℤ) = t.size + if key ∈ t then 0 else 1 := by
  rw [Std.ExtTreeMap.size_insert]
  by_cases h : key ∈ t
  · rw [if_pos h, if_pos (Std.ExtTreeMap.contains_iff_mem.mpr h)]
    omega
  · rw [if_neg h, if_neg (fun hc => h (Std.ExtTreeMap.contains_iff_mem.mp hc))]
    omega

namespace Managing

/-- The gauge shows the number of machine actors. -/
def Gauged {P : Type} (m : Managing P) : Prop :=
  gauge "MachineActor" m.events = m.manager.actors.size

instance {P : Type} (m : Managing P) : Decidable m.Gauged := inferInstanceAs (Decidable (_ = _))

/-- Events that are not recorded on the gauge, with as many actors as before. -/
theorem Gauged.append {P : Type} {m m' : Managing P} (hm : m.Gauged) (es : List Event)
    (hevents : m'.events = m.events ++ es) (hes : ∀ e ∈ es, e.gaugeChange "MachineActor" = 0)
    (hactors : m'.manager.actors.size = m.manager.actors.size) : m'.Gauged := by
  unfold Gauged
  rw [hevents, gauge_append_of_zero m.events hes, hactors]
  exact hm

theorem Gauged.stopMachineActor {P : Type} {m : Managing P} (hm : m.Gauged)
    (machineId reason : String) : (m.stopMachineActor machineId reason).Gauged := by
  unfold Managing.stopMachineActor
  by_cases h : m.manager.actors.contains machineId = true
  · have hin : machineId ∈ m.manager.actors := Std.ExtTreeMap.contains_iff_mem.mp h
    rw [if_pos h]
    unfold Gauged at hm ⊢
    rw [gauge_append, hm, size_erase_eq, if_pos hin]
    simp [gauge, Event.gaugeChange]
    omega
  · rw [if_neg h]
    exact hm

/-- A spawn is right on the gauge if the machine has no actor. -/
theorem gauge_addActor {P : Type} (machineId : String) (actor : MachineActor) (m : Managing P) :
    gauge "MachineActor" (m.addActor machineId actor).events =
      gauge "MachineActor" m.events + 1 := by
  rw [addActor, gauge_append]
  simp [gauge, Event.gaugeChange]

theorem Gauged.addActor {P : Type} {m : Managing P} (hm : m.Gauged) {machineId : String}
    (actor : MachineActor) (hnone : machineId ∉ m.manager.actors) :
    (m.addActor machineId actor).Gauged := by
  unfold Gauged at hm ⊢
  rw [gauge_addActor, hm, Managing.addActor, size_insert_eq, if_neg hnone]

theorem Gauged.ask {P : Type} [SerdeJson] {m : Managing P} (hm : m.Gauged) (now : ℤ)
    (machineId : String) (message : ActorMessage) : (m.ask now machineId message).2.Gauged := by
  unfold Managing.ask
  cases h : m.manager.actors[machineId]? with
  | none => exact hm
  | some actor =>
    obtain ⟨-, es, hes, hof⟩ := Acting.handle_emits now ⟨actor, m.events⟩ message
    have hin : machineId ∈ m.manager.actors :=
      (Std.ExtTreeMap.getElem?_eq_some_iff.mp h).fst
    refine hm.append es hes (fun e he => (hof e he).gaugeChange _) ?_
    rw [Std.ExtTreeMap.size_insert, if_pos (Std.ExtTreeMap.contains_iff_mem.mpr hin)]

/-- The handling of a failure is right on the gauge when it gives up on an existing
actor, and when it restarts a machine without actor or without spec. -/
def FailureCounts {P : Type} (instant : ℕ) (machineId : String) (m : Managing P) : Prop :=
  if m.Restartable instant machineId then
    machineId ∉ m.manager.actors ∨ machineId ∉ m.manager.machineSpecs
  else machineId ∈ m.manager.actors

instance {P : Type} (instant : ℕ) (machineId : String) (m : Managing P) :
    Decidable (m.FailureCounts instant machineId) :=
  inferInstanceAs (Decidable (if m.Restartable instant machineId then
    machineId ∉ m.manager.actors ∨ machineId ∉ m.manager.machineSpecs
  else machineId ∈ m.manager.actors))

theorem Gauged.fails {P : Type} [SerdeJson] {now : ℤ} {instant : ℕ} {machineId error : String}
    {m m' : Managing P} (hm : m.Gauged) (h : m.Fails now instant machineId error m') :
    m'.Gauged ↔ m.FailureCounts instant machineId := by
  obtain ⟨hactors, hspecs, -, -, restarted, hevents⟩ :=
    noteFailure_frame instant machineId error m
  have hgauge : gauge "MachineActor" (m.noteFailure instant machineId error).events =
      m.manager.actors.size := by
    rw [hevents, gauge_append_of_zero, hm]
    simp [Event.gaugeChange]
  unfold FailureCounts
  cases h with
  | uncached hrestart hspec =>
    have hout : machineId ∉ m.manager.machineSpecs := by
      rw [Std.ExtTreeMap.mem_iff_isSome_getElem?, hspec]
      simp
    rw [if_pos hrestart]
    refine iff_of_true ?_ (Or.inr hout)
    unfold Gauged
    rw [hgauge, hactors]
  | @unparsed specJson hrestart hspec hparse =>
    have hin : machineId ∈ m.manager.machineSpecs := by
      rw [Std.ExtTreeMap.mem_iff_isSome_getElem?, hspec]
      rfl
    rw [if_pos hrestart]
    simp only [hin, not_true, or_false]
    unfold Gauged
    rw [dropActor, hgauge, size_erase_eq, hactors]
    split_ifs with hactor
    · simp only [hactor, not_true, iff_false]
      omega
    · simp [hactor]
  | @restarted specJson actor hrestart hspec hactor =>
    have hin : machineId ∈ m.manager.machineSpecs := by
      rw [Std.ExtTreeMap.mem_iff_isSome_getElem?, hspec]
      rfl
    rw [if_pos hrestart]
    simp only [hin, not_true, or_false]
    unfold Gauged
    rw [gauge_addActor, Managing.addActor, size_insert_eq, dropActor, hgauge, size_erase_eq,
      hactors]
    have hgone : machineId ∉ m.manager.actors.erase machineId := by simp
    rw [if_neg hgone]
    split_ifs with hactor'
    · simp [hactor']
    · simp [hactor']
  | exceeded hrestart =>
    rw [if_neg hrestart]
    unfold Gauged
    rw [exceedLimit, gauge_append, hgauge, size_erase_eq, hactors]
    split_ifs with hactor
    · simp [hactor, gauge, Event.gaugeChange]
      omega
    · simp [hactor, gauge, Event.gaugeChange]

/-- Every way in which a node affects its manager is right on the gauge. -/
theorem Gauged.affects {P : Type} [SerdeJson] [DecidableEq P] [PeerId P] {score : Score P}
    {Valid : String → String → Prop} {asks : Prop} {w w' : World P} (hw : w.Gauged)
    (h : Node.Affects score Valid asks w w') : w'.Gauged := by
  cases h with
  | managed h =>
    cases h with
    | quiet => exact hw
    | lookedUp machineId hasks =>
      cases hres : (w.askLookup score machineId).1 with
      | none =>
        rw [World.askLookup_none hres]
        exact hw
      | some result =>
        obtain ⟨-, -, owner, heq⟩ := World.askLookup_some hres
        rw [heq]
        exact hw.append _ rfl (by simp [Event.gaugeChange]) rfl
    | cached machineId specJson hvalid => exact hw
    | deleted machineId =>
      have huncached : (w.uncacheSpec machineId).Gauged := hw
      exact huncached.stopMachineActor machineId "machine_deleted"
    | asked machineId message => exact hw.ask w.now machineId message
    | spawned machineId specJson actor hspec hnone hlookup hactor => exact hw.addActor actor hnone
    | stopped machineId reason lines hlookup hlines =>
      have hemitted : (w.emit lines).Gauged := by
        refine hw.append lines rfl ?_ rfl
        intro e he
        obtain ⟨previous, new, rfl⟩ := hlines e he
        rfl
      exact hemitted.stopMachineActor machineId reason
  | written etcd now => exact hw
  | topology peers =>
    unfold Node.applyTopology
    split_ifs
    · exact hw.append _ rfl (by simp [ShardingCoordinator.handleTopologyChanged,
        Event.gaugeChange]) rfl
    · exact hw

end Managing

namespace Supervised

/-- Every failure is handled in a way that is right on the gauge. -/
def FailuresCount {P : Type} (s : Supervised P) : Label P → Prop
  | .fail machineId _ instant => s.world.FailureCounts instant machineId
  | _ => True

instance {P : Type} (s : Supervised P) (l : Label P) : Decidable (s.FailuresCount l) :=
  match l with
  | .fail _ _ _ => inferInstanceAs (Decidable (Managing.FailureCounts _ _ _))
  | .handle _ _ | .advance | .finish | .topology _ | .write _ | .ask _ _ | .tick _ => isTrue trivial

/-- A step from a right gauge leads to a right gauge exactly when it meets the
condition, unless the manager dies of it. -/
theorem gauged_step {P : Type} [SerdeJson] [DecidableEq P] [PeerId P] {score : Score P}
    {s t : Supervised P} {l : Label P} (hsound : s.Sound score) (hs : s.world.Gauged)
    (h : s.step score l = some t) :
    (s.FailuresCount l → t.world.Gauged) ∧
      (t.alive = true → t.world.Gauged → s.FailuresCount l) := by
  have hcases := step_cases h
  have haffects := (hsound.step hcases).2.affects_of_ne
  cases hcases with
  | fail hrunning hm =>
    have hiff := Managing.Gauged.fails hs (Managing.handleActorFailure_cases hm)
    exact ⟨hiff.mpr, fun _ => hiff.mp⟩
  | failPanic hnone => exact ⟨fun _ => hs, fun halive => by cases halive⟩
  | _ => exact ⟨fun _ => Managing.Gauged.affects hs (haffects (by simp)), fun _ _ => trivial⟩

/-- An actor with a fresh tracker may be restarted, which is wrong on the gauge, and
without an actor there is no tracker, so that a stop is recorded. -/
theorem not_failureCounts {P : Type} {policy : RestartPolicy} {w : World P} (hw : w.Bookkept)
    (hfresh : ∀ machineId, w.FreshTracker policy machineId) (hmax : policy.maxRestarts ≠ 0)
    (instant : ℕ) (machineId : String) : ¬w.FailureCounts instant machineId := by
  unfold Managing.FailureCounts
  by_cases hactor : machineId ∈ w.manager.actors
  · rw [if_pos ((hfresh machineId).restartable hactor hmax instant)]
    rintro (hnone | hnone)
    · exact hnone hactor
    · exact hnone (hw.contained machineId hactor)
  · have hroom : ¬w.Restartable instant machineId := by
      rintro ⟨tracker, htracker, -⟩
      apply hactor
      rw [← hw.trackers, Std.ExtTreeMap.mem_iff_isSome_getElem?, htracker]
      rfl
    rw [if_neg hroom]
    exact hactor

/-- In a run that meets the condition under a policy with restarts, the trackers are
those of the actors and fresh. -/
theorem fresh_of_run {P : Type} [SerdeJson] [DecidableEq P] [PeerId P] {score : Score P}
    {policy : RestartPolicy} {localPeerId : P} {nodeId : String} {peers : List P} {etcd : Etcd}
    {now : ℤ} {s₀ s : Supervised P} {labels : List (Label P)}
    (hstart : start policy localPeerId nodeId peers etcd now = some s₀)
    (h : Run (Guarded FailuresCount (StepOf (Supervised.step score))) s₀ labels s)
    (hmax : policy.maxRestarts ≠ 0) :
    s.world.Bookkept ∧ ∀ machineId, s.world.FreshTracker policy machineId := by
  have hinv : s.Sound score ∧ s.world.Governed policy ∧ s.world.Bookkept ∧
      ∀ machineId, s.world.FreshTracker policy machineId := by
    refine h.invariant (I := fun s => s.Sound score ∧ s.world.Governed policy ∧
      s.world.Bookkept ∧ ∀ machineId, s.world.FreshTracker policy machineId) ?_
      ⟨sound_start score hstart, governed_start hstart, ?_⟩
    · rintro s l t ⟨hsound, hgoverned, hkept, hfresh⟩ ⟨hok, hstep⟩
      have hcases := step_cases hstep
      have haffects := (hsound.step hcases).2.affects_of_ne
      refine ⟨(hsound.step hcases).1, governed_step hsound hgoverned hcases, ?_⟩
      cases hcases with
      | fail hrunning hm => exact absurd hok (not_failureCounts hkept hfresh hmax _ _)
      | failPanic hnone => exact ⟨hkept, hfresh⟩
      | _ =>
        obtain ⟨-, hmoves⟩ := World.affects_trackers (haffects (by simp))
        exact ⟨hkept.affects (haffects (by simp)),
          fun machineId => (hmoves machineId).fresh (hfresh machineId) hgoverned.manager⟩
    · obtain ⟨coordinator, -, rfl⟩ := Option.map_eq_some_iff.mp hstart
      refine ⟨⟨?_, ?_⟩, ?_⟩
      · simp [MachineActorManagerActor.new]
      · simp [World.Contained, MachineActorManagerActor.new]
      · intro machineId hactor
        simp [MachineActorManagerActor.new] at hactor
  exact hinv.2.2

/-- In every run in which each failure is handled in a way that is right on the
gauge, the recorded spawns less the recorded stops are always as many as there are
actors. The first step that breaks the condition breaks this too. Under a policy that
allows restarts every failure does. -/
theorem gauge_counts_actors {P : Type} [SerdeJson] [DecidableEq P] [PeerId P] (score : Score P)
    (policy : RestartPolicy) (localPeerId : P) (nodeId : String) (peers : List P) (etcd : Etcd)
    (now : ℤ) (s₀ s : Supervised P) (labels : List (Label P))
    (hstart : start policy localPeerId nodeId peers etcd now = some s₀)
    (h : Run (Guarded FailuresCount (StepOf (Supervised.step score))) s₀ labels s) :
    gauge "MachineActor" s.world.events = s.world.manager.actors.size ∧
    (∀ l t, s.step score l = some t → t.alive = true →
      (gauge "MachineActor" t.world.events = t.world.manager.actors.size ↔ s.FailuresCount l)) ∧
    (policy.maxRestarts ≠ 0 →
      ∀ machineId error instant, ¬s.FailuresCount (.fail machineId error instant)) := by
  have hinv : s.Sound score ∧ s.world.Gauged := by
    refine h.invariant (I := fun s => s.Sound score ∧ s.world.Gauged) ?_
      ⟨sound_start score hstart, ?_⟩
    · rintro s l t ⟨hsound, hs⟩ ⟨hok, hstep⟩
      exact ⟨(hsound.step (step_cases hstep)).1, (gauged_step hsound hs hstep).1 hok⟩
    · obtain ⟨coordinator, -, rfl⟩ := Option.map_eq_some_iff.mp hstart
      simp [MachineActorManagerActor.new, Managing.Gauged, gauge]
  refine ⟨hinv.2, fun l t hstep halive => ?_, fun hmax machineId error instant => ?_⟩
  · obtain ⟨hkeeps, hneeds⟩ := gauged_step hinv.1 hinv.2 hstep
    exact ⟨hneeds halive, hkeeps⟩
  · obtain ⟨hkept, hfresh⟩ := fresh_of_run hstart h hmax
    exact not_failureCounts hkept hfresh hmax instant machineId

/-- Two machines, one of which is deleted again. -/
theorem gauge_counts_actors_deleted :
    let spec : Json := .object [("adminState", .string "available"), ("cluster", .string "lab")]
    let _ : SerdeJson := SerdeJson.knowing [spec]
    ∃ s : Supervised Base58Text, s.world.manager.actors.size = 1 ∧
      gauge "MachineActor" s.world.events = s.world.manager.actors.size ∧
      ¬s.FailuresCount (.fail "m2" "panic" 5) := by
  intro spec _
  let a := peerOf "12D3KooWAAAAAAAAAAAAAAAAAAAAAAAAAAAAAAAAAAAAAAAAAAAA"
  let score : Score Base58Text := fun _ _ => 7
  let labels := ownPut "m1" spec.text [] ++ ownPut "m2" spec.text ["m1"] ++
    [.handle (.etcdMachineEvent "m1" .delete none) ["m1", "m2"], .advance, .finish]
  obtain ⟨s₀, hstart, s, hrun, hsize⟩ :
      ∃ s₀ ∈ start RestartPolicy.default a "node-a" [a] ∅ 0,
      ∃ s ∈ labels.foldlM (guardedNext FailuresCount (Supervised.step score)) s₀,
        s.world.manager.actors.size = 1 := by
    decide +kernel
  have hgauge := gauge_counts_actors score _ a "node-a" [a] ∅ 0 s₀ s labels hstart
    (Run.guarded_of_foldlM hrun)
  exact ⟨s, hsize, hgauge.1, hgauge.2.2 (by decide) "m2" "panic" 5⟩

/-- A restarted actor is counted twice. -/
theorem not_gauge_counts_actors : ¬∀ [SerdeJson] (score : Score Base58Text)
    (policy : RestartPolicy) (localPeerId : Base58Text) (nodeId : String)
    (peers : List Base58Text) (etcd : Etcd) (now : ℤ) (s₀ s : Supervised Base58Text)
    (labels : List (Label Base58Text)),
    start policy localPeerId nodeId peers etcd now = some s₀ →
      Run (StepOf (Supervised.step score)) s₀ labels s → s.running = none →
      gauge "MachineActor" s.world.events = s.world.manager.actors.size := by
  intro hclaim
  let spec : Json := .object [("adminState", .string "available"), ("cluster", .string "lab")]
  let _ : SerdeJson := SerdeJson.knowing [spec]
  let a := peerOf "12D3KooWAAAAAAAAAAAAAAAAAAAAAAAAAAAAAAAAAAAAAAAAAAAA"
  let score : Score Base58Text := fun _ _ => 7
  let labels := ownPut "m1" spec.text [] ++ [.fail "m1" "panic" 5]
  obtain ⟨s₀, hstart, s, hrun, hidle, hgauge⟩ :
      ∃ s₀ ∈ start RestartPolicy.default a "node-a" [a] ∅ 0,
      ∃ s ∈ labels.foldlM (Supervised.step score) s₀, s.running.isNone = true ∧
        ¬gauge "MachineActor" s.world.events = s.world.manager.actors.size := by
    decide +kernel
  exact hgauge (hclaim score _ a "node-a" [a] ∅ 0 s₀ s labels hstart (Run.of_foldlM hrun)
    (Option.isNone_iff_eq_none.mp hidle))

end Supervised
end Neolaas
