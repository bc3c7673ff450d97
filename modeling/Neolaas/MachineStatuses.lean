import Neolaas.BootstrapTopology
import Neolaas.EventReplay

/-!
# The statuses of all machines

`GET /actors/machines` has the manager ask its actors one after the other. While it
does so the manager handles no other message, but the other tasks of the node go on
and clients book machines. What the reply says of each machine was true at a moment
of the survey.
-/
namespace Neolaas
open AtomicProgram LabelledRuns

/-- What a survey has yet to ask, what it has been told, and how long the log of the
node was when it began. -/
structure Survey where
  machineIds : List String
  statuses : List MachineStatus
  since : ℕ
  deriving DecidableEq

/-- A node whose manager may be handling `GetAllMachineStatuses`. -/
structure Surveying (P A : Type) where
  node : Node P A
  survey : Option Survey

/-- The statuses that a reply of an actor adds. A failed ask is skipped. -/
def ActorReply.statuses : Option ActorReply → List MachineStatus
  | some (.status reported) => [reported]
  | _ => []

namespace Surveying

inductive Label (P : Type) where
  | node (l : Node.Label P)
  /-- The manager takes the message, and lists its actors in some order. -/
  | handle (machineIds : List String)
  /-- The next actor is asked for its status. -/
  | askStatus

/-- The manager takes its next message. -/
def Takes {P : Type} : Node.Label P → Prop
  | .handle _ => True
  | _ => False

instance {P : Type} : DecidablePred (Takes (P := P)) := fun l =>
  match l with
  | .handle _ => isTrue trivial
  | .commit _ _ | .openWatch | .forwardEvent | .loseWatch | .startConverge _ | .convergeKv
  | .convergeDone _ | .signalConvergence | .watchResponse _ | .processEvent _ | .stopDiscovery
  | .bridgeReceive | .bridgeAsk | .bridgeNotify | .listen | .sync | .advance | .finish
  | .ask _ _ | .tick _ => isFalse id

/-- A step of the node, whose manager is busy during a survey, or a step of a survey. -/
def step {P A : Type} [SerdeJson] [DecidableEq P] [PeerId P] [Multiaddr A] (score : Score P)
    (s : Surveying P A) : Label P → Option (Surveying P A)
  | .node l =>
    if s.survey.isSome ∧ Takes l then none
    else (s.node.step score l).map (fun node => { s with node := node })
  | .handle machineIds =>
    if s.survey.isNone ∧ s.node.running.isNone ∧ s.node.managerAlive ∧
        machineIds.Perm s.node.world.manager.actors.keys then
      some { s with survey := some ⟨machineIds, [], s.node.world.events.length⟩ }
    else none
  | .askStatus =>
    match s.survey with
    | some ⟨machineId :: machineIds, statuses, since⟩ =>
      let (reply, m) := s.node.world.ask s.node.world.now machineId .getMachineStatus
      some {
        node := { s.node with world := { s.node.world with toManaging := m } }
        survey := some ⟨machineIds, statuses ++ ActorReply.statuses reply, since⟩ }
    | _ => none

end Surveying

/-- The log told at some moment, since when it had a given length, that a machine
has an actor in this state with this booking. -/
def Told (log : List Event) (since : ℕ) (status : MachineStatus) : Prop :=
  ∃ seen, seen <+: log ∧ since ≤ seen.length ∧
    seen.foldlM (Event.observe status.machineId) none =
      some (some ⟨status.state, status.currentBooking⟩)

theorem Told.mono {log log' : List Event} {since : ℕ} {status : MachineStatus}
    (h : Told log since status) (hlog : log <+: log') : Told log' since status := by
  obtain ⟨seen, hseen, hrest⟩ := h
  exact ⟨seen, hseen.trans hlog, hrest⟩

/-- A status is asked of an actor that has left its first state. -/
def MachineStatus.Sensible (status : MachineStatus) : Prop :=
  (status.state = .idle ∧ status.currentBooking = none) ∨
    (status.state = .booked ∧ status.currentBooking.isSome = true)

/-- A well-formed actor replies with its state and its booking as they are after its
initialization. -/
theorem Managing.ask_status {P : Type} [SerdeJson] (now : ℤ) {machineId : String}
    {m : Managing P} {a : MachineActor} (hactor : m.manager.actors[machineId]? = some a)
    (hwell : a.WellFormed) : ∃ status,
      (m.ask now machineId .getMachineStatus).1 = some (.status status) ∧
      status.machineId = a.machineId ∧ status.Sensible ∧
      ((m.ask now machineId .getMachineStatus).2.manager.actors[machineId]?).map
        MachineActor.view = some ⟨status.state, status.currentBooking⟩ := by
  have hask : m.ask now machineId .getMachineStatus =
      (some (.status (Acting.handleGetMachineStatus now ⟨a, m.events⟩).1), {
        manager := { m.manager with
          actors := m.manager.actors.insert machineId
            (Acting.initializeActor now ⟨a, m.events⟩).actor }
        events := (Acting.initializeActor now ⟨a, m.events⟩).events }) := by
    unfold ask
    rw [hactor]
    rfl
  refine ⟨(Acting.handleGetMachineStatus now ⟨a, m.events⟩).1, ?_, ?_, ?_, ?_⟩
  · rw [hask]
  · exact Acting.initializeActor_machineId now ⟨a, m.events⟩
  · unfold MachineStatus.Sensible Acting.handleGetMachineStatus
    simp only [Acting.initializeActor_state, Acting.initializeActor_currentBooking]
    have hbooking := hwell.booking
    obtain hstate | hstate | hstate := hwell.state
    · rw [if_pos hstate]
      left
      refine ⟨rfl, ?_⟩
      rw [hstate] at hbooking
      simpa using hbooking
    · rw [if_neg (by simp [hstate])]
      left
      refine ⟨hstate, ?_⟩
      rw [hstate] at hbooking
      simpa using hbooking
    · rw [if_neg (by simp [hstate])]
      exact Or.inr ⟨hstate, hbooking.mpr hstate⟩
  · rw [hask]
    simp only [Std.ExtTreeMap.getElem?_insert_self, Option.map_some]
    rfl

namespace Node

/-- The log of a node grows. -/
theorem Steps.events_grow {P A : Type} [SerdeJson] [DecidableEq P] [PeerId P] [Multiaddr A]
    {score : Score P} {s t : Node P A} {l : Label P} (hs : s.Sound score (fun _ _ => True))
    (h : Steps score s l t) : s.world.events <+: t.world.events := by
  by_cases hl : l = .bridgeAsk
  · subst hl
    obtain ⟨peers, -, hworld⟩ := h.bridgeAsk_cases
    rw [hworld]
    unfold applyTopology
    split_ifs
    · exact List.prefix_append ..
    · exact List.prefix_refl _
  · obtain ⟨es, hlogs⟩ := h.logs hs hl
    rw [hlogs.events]
    exact List.prefix_append ..

/-- While no handler runs and none is taken up, the node keeps its actors. -/
theorem mem_actors_of_idle {P A : Type} [SerdeJson] [DecidableEq P] [PeerId P] [Multiaddr A]
    {score : Score P} {s t : Node P A} {l : Label P} (h : s.step score l = some t)
    (hrunning : s.running = none) (hl : ¬Surveying.Takes l) :
    t.running = none ∧ ∀ machineId, machineId ∈ t.world.manager.actors ↔
      machineId ∈ s.world.manager.actors := by
  cases step_cases h with
  | commit machineId specJson =>
    obtain ⟨etcd, watch, heq⟩ := commit_frame machineId specJson s
    rw [heq]
    exact ⟨hrunning, fun _ => Iff.rfl⟩
  | forwardEvent hw =>
    rw [send_world, send_running]
    exact ⟨hrunning, fun _ => Iff.rfl⟩
  | listen hn =>
    simp only [send_world, send_running]
    exact ⟨hrunning, fun _ => trivial⟩
  | sync hsignal =>
    simp only [send_world, send_running]
    exact ⟨hrunning, fun _ => trivial⟩
  | handle => exact absurd trivial hl
  | advance hrun hexec =>
    rw [hrunning] at hrun
    cases hrun
  | panic =>
    simp only [step, hrunning] at h
    cases h
  | finish listenerAsking hrun =>
    rw [hrunning] at hrun
    cases hrun
  | @bridgeAsk peers hb =>
    refine ⟨hrunning, ?_⟩
    exact (interferes_topology (fun _ _ => True) peers s.world).actors
  | ask machineId message hm =>
    exact ⟨hrunning, Managing.mem_actors_ask s.world.now machineId message s.world.toManaging⟩
  | _ => exact ⟨hrunning, fun _ => Iff.rfl⟩

end Node

namespace Surveying

/-- During a survey no handler runs, what has been asked and what has not are the
machines with actors, and what has been told was true. -/
structure Telling {P A : Type} (node : Node P A) (survey : Survey) : Prop where
  running : node.running = none
  since : survey.since ≤ node.world.events.length
  nodup : (survey.statuses.map MachineStatus.machineId ++ survey.machineIds).Nodup
  actors : ∀ machineId, machineId ∈ survey.statuses.map MachineStatus.machineId ++
    survey.machineIds ↔ machineId ∈ node.world.manager.actors
  told : ∀ status ∈ survey.statuses,
    status.Sensible ∧ Told node.world.events survey.since status

/-- The node is observed, and its survey goes well. -/
structure Truthful {P A : Type} [SerdeJson] [DecidableEq P] [PeerId P] (score : Score P)
    (s : Surveying P A) : Prop where
  observed : s.node.Observed score
  telling : ∀ survey, s.survey = some survey → Telling s.node survey

/-- A step of the node that keeps its actors keeps what has been told. -/
theorem Telling.node {P A : Type} [SerdeJson] [DecidableEq P] [PeerId P] [Multiaddr A]
    {score : Score P} {s t : Node P A} {l : Node.Label P} {survey : Survey}
    (hs : Telling s survey) (hsound : s.Sound score (fun _ _ => True))
    (h : s.step score l = some t) (hl : ¬Takes l) : Telling t survey := by
  have hprefix := (Node.step_cases h).events_grow hsound
  obtain ⟨hrunning, hactors⟩ := Node.mem_actors_of_idle h hs.running hl
  constructor
  · exact hrunning
  · exact hs.since.trans hprefix.length_le
  · exact hs.nodup
  · intro machineId
    rw [hactors machineId]
    exact hs.actors machineId
  · intro status hstatus
    obtain ⟨hsensible, htold⟩ := hs.told status hstatus
    exact ⟨hsensible, htold.mono hprefix⟩

/-- Asking the next actor is a step of the node, and tells what the log tells. -/
theorem Truthful.askStatus {P A : Type} [SerdeJson] [DecidableEq P] [PeerId P] [Multiaddr A]
    {score : Score P} {s t : Surveying P A} (hs : s.Truthful score)
    (h : s.step score .askStatus = some t) : t.Truthful score := by
  obtain ⟨node, survey⟩ := s
  simp only [step] at h
  split at h
  · rename_i machineId machineIds statuses since
    obtain rfl := Option.some.inj h
    have htelling := hs.telling _ rfl
    have hmem : machineId ∈ node.world.manager.actors := by
      rw [← htelling.actors machineId]
      exact List.mem_append_right _ List.mem_cons_self
    obtain ⟨a, hactor⟩ := Option.isSome_iff_exists.mp
      (Std.ExtTreeMap.mem_iff_isSome_getElem?.mp hmem)
    obtain ⟨hname, hwell⟩ := hs.observed.recounted.named machineId a hactor
    obtain ⟨status, hreply, hid, hsensible, hview⟩ :=
      Managing.ask_status node.world.now hactor hwell
    rw [hname] at hid
    have hstep : node.step score (.ask machineId .getMachineStatus) = some { node with
        world := node.world.manage
          (node.world.ask node.world.now machineId .getMachineStatus).2 } := by
      simp only [Node.step]
      rw [if_pos hmem]
      rfl
    have hobserved := hs.observed.step (Node.step_cases hstep)
    have hkept := htelling.node hs.observed.sound hstep id
    refine ⟨hobserved, ?_⟩
    intro survey hsurvey
    obtain rfl := Option.some.inj hsurvey
    rw [hreply]
    have hnames : (statuses ++ ActorReply.statuses (some (.status status))).map
        MachineStatus.machineId ++ machineIds =
        statuses.map MachineStatus.machineId ++ machineId :: machineIds := by
      simp [ActorReply.statuses, hid]
    constructor
    · exact hkept.running
    · exact hkept.since
    · show List.Nodup (_ ++ _)
      rw [hnames]
      exact htelling.nodup
    · intro id
      show id ∈ _ ++ _ ↔ _
      rw [hnames]
      exact hkept.actors id
    · intro st hst
      obtain hst | hst := List.mem_append.mp hst
      · exact hkept.told st hst
      · obtain rfl := List.mem_singleton.mp hst
        refine ⟨hsensible, _, List.prefix_refl _, hkept.since, ?_⟩
        rw [hid]
        exact (hobserved.recounted.recounts machineId).trans (congrArg some hview)
  · cases h

theorem Truthful.step {P A : Type} [SerdeJson] [DecidableEq P] [PeerId P] [Multiaddr A]
    {score : Score P} {s t : Surveying P A} {l : Label P} (hs : s.Truthful score)
    (h : s.step score l = some t) : t.Truthful score := by
  cases l with
  | node l =>
    simp only [Surveying.step] at h
    split_ifs at h with hbusy
    obtain ⟨node, hnode, rfl⟩ := Option.map_eq_some_iff.mp h
    refine ⟨hs.observed.step (Node.step_cases hnode), ?_⟩
    intro survey hsurvey
    have hl : ¬Takes l := fun htakes => hbusy ⟨Option.isSome_of_eq_some hsurvey, htakes⟩
    exact (hs.telling survey hsurvey).node hs.observed.sound hnode hl
  | handle machineIds =>
    simp only [Surveying.step] at h
    split_ifs at h with hok
    obtain rfl := Option.some.inj h
    obtain ⟨-, hrunning, -, hkeys⟩ := hok
    refine ⟨hs.observed, ?_⟩
    intro survey hsurvey
    obtain rfl := Option.some.inj hsurvey
    constructor
    · exact Option.isNone_iff_eq_none.mp hrunning
    · exact Nat.le_refl _
    · exact hkeys.nodup_iff.mpr Std.ExtTreeMap.nodup_keys
    · intro machineId
      show machineId ∈ machineIds ↔ _
      rw [hkeys.mem_iff, Std.ExtTreeMap.mem_keys]
    · intro status hstatus
      cases hstatus
  | askStatus => exact hs.askStatus h

end Surveying
end Neolaas
