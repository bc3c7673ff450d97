import Neolaas.LabelledRuns
import Neolaas.MachineActor

/-!
# The lifecycle of a machine actor

Between messages the actor is initializing, idle or booked and holds a booking
exactly when booked. Its state change events are a walk along the edges of the
lifecycle, its successful requests an alternation of provisions and matching
deprovisions.
-/
namespace Neolaas
open LabelledRuns

/-- What holds of an actor between two messages. -/
structure MachineActor.WellFormed (a : MachineActor) : Prop where
  state : a.state = .initializing ∨ a.state = .idle ∨ a.state = .booked
  booking : a.currentBooking.isSome = true ↔ a.state = .booked

/-- The transitions of the lifecycle. -/
inductive MachineState.Edge : MachineState → MachineState → Prop
  | initialized : Edge .initializing .idle
  | provision : Edge .idle .provisioning
  | book : Edge .provisioning .booked
  | deprovision : Edge .booked .deprovisioning
  | release : Edge .deprovisioning .idle

/-- A state change event that follows an edge of the lifecycle. -/
def MachineState.Change (s : MachineState) (change : String × String) (t : MachineState) : Prop :=
  s.Edge t ∧ change = (s.display, t.display)

/-- The successful requests of a history, without the others. -/
inductive BookingStep where
  | provisioned (bookingId : String)
  | deprovisioned (bookingId : String)
  deriving DecidableEq, Repr

/-- The booking held before and after a successful request. -/
inductive BookingStep.Takes : Option String → BookingStep → Option String → Prop
  | provisioned (b : String) : Takes none (.provisioned b) (some b)
  | deprovisioned (b : String) : Takes (some b) (.deprovisioned b) none

/-- The successful request that an exchange of message and reply amounts to. -/
def bookingStep : ActorMessage × ActorReply → Option BookingStep
  | (.provisionMachine b _, .result ⟨true, _⟩) => some (.provisioned b)
  | (.deprovisionMachine b, .result ⟨true, _⟩) => some (.deprovisioned b)
  | _ => none

/-- Provisions and deprovisions in turn, each deprovision with the booking of
the provision before it. -/
def Alternates : List BookingStep → Prop
  | [] => True
  | [.provisioned _] => True
  | .provisioned b :: .deprovisioned b' :: rest => b' = b ∧ Alternates rest
  | _ => False

/-- Requests that walk from no booking alternate. -/
theorem alternates_of_run : ∀ (steps : List BookingStep) (o : Option String),
    Run BookingStep.Takes none steps o → Alternates steps
  | [], _, _ => trivial
  | [.provisioned _], _, _ => trivial
  | [.deprovisioned _], _, h => by cases h with | cons hs _ => cases hs
  | .deprovisioned _ :: _ :: _, _, h => by cases h with | cons hs _ => cases hs
  | .provisioned _ :: .provisioned _ :: _, _, h => by
    cases h with | cons hs ht => cases hs; cases ht with | cons hs _ => cases hs
  | .provisioned _ :: .deprovisioned _ :: rest, o, h => by
    cases h with
    | cons hs ht =>
      cases hs
      cases ht with
      | cons hs ht =>
        cases hs
        exact ⟨rfl, alternates_of_run rest o ht⟩

namespace Acting

theorem initializeActor_of_ne (now : ℤ) (self : Acting) (h : self.actor.state ≠ .initializing) :
    self.initializeActor now = self := if_neg h

/-- The first message of an actor makes it idle. -/
theorem initializeActor_of_eq (now : ℤ) (self : Acting) (h : self.actor.state = .initializing) :
    self.initializeActor now =
      { actor := { self.actor with
          previousState := .initializing, state := .idle, lastActivity := now }
        events := self.events ++ [.machineStateChanged self.actor.machineId "initializing" "idle"
          self.actor.spec.adminState self.actor.spec.cluster] } := by
  simp [initializeActor, transitionTo, emit, h, MachineState.display]

@[simp] theorem initializeActor_spec (now : ℤ) (self : Acting) :
    (self.initializeActor now).actor.spec = self.actor.spec := by
  by_cases h : self.actor.state = .initializing
  · rw [initializeActor_of_eq now self h]
  · rw [initializeActor_of_ne now self h]

@[simp] theorem initializeActor_currentBooking (now : ℤ) (self : Acting) :
    (self.initializeActor now).actor.currentBooking = self.actor.currentBooking := by
  by_cases h : self.actor.state = .initializing
  · rw [initializeActor_of_eq now self h]
  · rw [initializeActor_of_ne now self h]

@[simp] theorem initializeActor_machineId (now : ℤ) (self : Acting) :
    (self.initializeActor now).actor.machineId = self.actor.machineId := by
  by_cases h : self.actor.state = .initializing
  · rw [initializeActor_of_eq now self h]
  · rw [initializeActor_of_ne now self h]

theorem initializeActor_state (now : ℤ) (self : Acting) :
    (self.initializeActor now).actor.state =
      if self.actor.state = .initializing then .idle else self.actor.state := by
  by_cases h : self.actor.state = .initializing
  · rw [initializeActor_of_eq now self h, if_pos h]
  · rw [initializeActor_of_ne now self h, if_neg h]

/-- The admission rule of a provision request. -/
def bookable (spec : MachineSpec) : Prop :=
  spec.adminState = "available" ∨ spec.adminState = "reserved"

instance (spec : MachineSpec) : Decidable (bookable spec) :=
  inferInstanceAs (Decidable (_ ∨ _))

/-- What a successful provision makes of an idle actor. -/
def provisioned (now : ℤ) (bookingId : String) (self : Acting) : Acting where
  actor := { self.actor with
    state := .booked, previousState := .provisioning
    currentBooking := some bookingId, lastActivity := now }
  events := self.events ++
    [.machineStateChanged self.actor.machineId "idle" "provisioning"
        self.actor.spec.adminState self.actor.spec.cluster,
      .bookingStarted self.actor.machineId bookingId self.actor.spec.cluster,
      .machineStateChanged self.actor.machineId "provisioning" "booked"
        self.actor.spec.adminState self.actor.spec.cluster]

/-- What a successful deprovision makes of a booked actor. -/
def deprovisioned (now : ℤ) (bookingId : String) (self : Acting) : Acting where
  actor := { self.actor with
    state := .idle, previousState := .deprovisioning
    currentBooking := none, lastActivity := now }
  events := self.events ++
    [.machineStateChanged self.actor.machineId "booked" "deprovisioning"
        self.actor.spec.adminState self.actor.spec.cluster,
      .machineStateChanged self.actor.machineId "deprovisioning" "idle"
        self.actor.spec.adminState self.actor.spec.cluster,
      .bookingEnded self.actor.machineId bookingId self.actor.spec.cluster 0]

/-- A provision succeeds on an idle machine of a bookable admin state, and does
no more than initialize the actor otherwise. -/
theorem handleProvisionMachine_cases (now : ℤ) (b : String) (config : ProvisionConfig)
    (self : Acting) :
    ((self.initializeActor now).actor.state = .idle ∧ bookable self.actor.spec ∧
      self.handleProvisionMachine now b config =
        (⟨true, none⟩, (self.initializeActor now).provisioned now b)) ∨
    (¬((self.initializeActor now).actor.state = .idle ∧ bookable self.actor.spec) ∧
      ∃ error, self.handleProvisionMachine now b config =
        (⟨false, some error⟩, self.initializeActor now)) := by
  have hspec := initializeActor_spec now self
  unfold handleProvisionMachine bookable
  generalize self.initializeActor now = init at hspec ⊢
  by_cases hidle : init.actor.state = .idle
  · by_cases hadmin : self.actor.spec.adminState = "available" ∨
        self.actor.spec.adminState = "reserved"
    · refine Or.inl ⟨hidle, hadmin, ?_⟩
      have hnot : ¬(init.actor.spec.adminState ≠ "available" ∧
          init.actor.spec.adminState ≠ "reserved") := by rw [hspec]; tauto
      simp only [ne_eq, hidle, not_true_eq_false, if_false] at hnot ⊢
      rw [if_neg hnot]
      simp [transitionTo, emit, provisioned, MachineState.display]
    · refine Or.inr ⟨fun h => hadmin h.2, ?_⟩
      have hyes : init.actor.spec.adminState ≠ "available" ∧
          init.actor.spec.adminState ≠ "reserved" := by rw [hspec]; tauto
      simp only [ne_eq, hidle, not_true_eq_false, if_false] at hyes ⊢
      rw [if_pos hyes]
      exact ⟨_, rfl⟩
  · refine Or.inr ⟨fun h => hidle h.1, ?_⟩
    simp only [ne_eq, hidle, not_false_eq_true, if_true]
    exact ⟨_, rfl⟩

/-- A deprovision succeeds on a booked machine for its own booking. -/
theorem handleDeprovisionMachine_cases (now : ℤ) (b : String) (self : Acting) :
    ((self.initializeActor now).actor.state = .booked ∧ self.actor.currentBooking = some b ∧
      self.handleDeprovisionMachine now b =
        (⟨true, none⟩, (self.initializeActor now).deprovisioned now b)) ∨
    ∃ error, self.handleDeprovisionMachine now b =
      (⟨false, some error⟩, self.initializeActor now) := by
  have hbooking := initializeActor_currentBooking now self
  unfold handleDeprovisionMachine
  generalize self.initializeActor now = init at hbooking ⊢
  rw [← hbooking]
  by_cases hb : init.actor.currentBooking = some b
  · by_cases hs : init.actor.state = .booked
    · refine Or.inl ⟨hs, hb, ?_⟩
      simp [transitionTo, emit, hs, hb, deprovisioned, MachineState.display]
    · refine Or.inr ?_
      simp only [ne_eq, hb, not_true_eq_false, if_false, hs, not_false_eq_true, if_true]
      exact ⟨_, rfl⟩
  · refine Or.inr ?_
    simp only [ne_eq, hb, not_false_eq_true, if_true]
    exact ⟨_, rfl⟩

/-- The events from one point on walk from the state before to the state after. -/
def Walks (self next : Acting) : Prop :=
  ∃ emitted, next.events = self.events ++ emitted ∧
    Run MachineState.Change self.actor.state (emitted.filterMap Event.stateChange)
      next.actor.state

theorem Walks.of_eq {self next : Acting} (hevents : next.events = self.events)
    (hstate : next.actor.state = self.actor.state) : Walks self next := by
  refine ⟨[], by simpa using hevents, ?_⟩
  rw [hstate]
  exact .nil _

theorem Walks.trans {self mid next : Acting} (h : Walks self mid) (h' : Walks mid next) :
    Walks self next := by
  obtain ⟨es, hes, hrun⟩ := h
  obtain ⟨es', hes', hrun'⟩ := h'
  refine ⟨es ++ es', by rw [hes', hes, List.append_assoc], ?_⟩
  rw [List.filterMap_append]
  exact hrun.append hrun'

theorem initializeActor_walks (now : ℤ) (self : Acting) :
    Walks self (self.initializeActor now) := by
  by_cases h : self.actor.state = .initializing
  · rw [initializeActor_of_eq now self h]
    refine ⟨_, rfl, ?_⟩
    rw [h]
    exact Run.single ⟨.initialized, rfl⟩
  · rw [initializeActor_of_ne now self h]
    exact Walks.of_eq rfl rfl

theorem initializeActor_wellFormed (now : ℤ) (self : Acting) (h : self.actor.WellFormed) :
    (self.initializeActor now).actor.WellFormed := by
  by_cases hs : self.actor.state = .initializing
  · have hnone : self.actor.currentBooking = none := by
      have hb := h.booking
      rw [hs] at hb
      simpa using hb
    rw [initializeActor_of_eq now self hs]
    exact ⟨Or.inr (Or.inl rfl), by simp [hnone]⟩
  · rwa [initializeActor_of_ne now self hs]

theorem provisioned_walks (now : ℤ) (b : String) (self : Acting)
    (h : self.actor.state = .idle) : Walks self (self.provisioned now b) := by
  refine ⟨_, rfl, ?_⟩
  rw [h]
  exact .cons ⟨.provision, rfl⟩ (Run.single ⟨.book, rfl⟩)

theorem deprovisioned_walks (now : ℤ) (b : String) (self : Acting)
    (h : self.actor.state = .booked) : Walks self (self.deprovisioned now b) := by
  refine ⟨_, rfl, ?_⟩
  rw [h]
  exact .cons ⟨.deprovision, rfl⟩ (Run.single ⟨.release, rfl⟩)

/-- Neither state, apart from the first transition to idle, nor booking nor spec
has changed. -/
def Unchanged (self next : MachineActor) : Prop :=
  (next.state = self.state ∨ (self.state = .initializing ∧ next.state = .idle)) ∧
    next.currentBooking = self.currentBooking ∧ next.spec = self.spec

theorem unchanged_initializeActor (now : ℤ) (self : Acting) :
    Unchanged self.actor (self.initializeActor now).actor := by
  refine ⟨?_, by simp, by simp⟩
  by_cases h : self.actor.state = .initializing
  · exact Or.inr ⟨h, by rw [initializeActor_state, if_pos h]⟩
  · exact Or.inl (by rw [initializeActor_state, if_neg h])

/-- What one message with its reply does to a well-formed actor. -/
structure Progress (before : Acting) (message : ActorMessage) (reply : ActorReply)
    (next : Acting) : Prop where
  wellFormed : next.actor.WellFormed
  walks : Walks before next
  booking : Run BookingStep.Takes before.actor.currentBooking
    (bookingStep (message, reply)).toList next.actor.currentBooking
  refused : ∀ error, reply = .result ⟨false, error⟩ → Unchanged before.actor next.actor

/-- A message that counts as no booking step and leaves the actor initialized. -/
theorem Progress.of_initializeActor (now : ℤ) (self : Acting) (h : self.actor.WellFormed)
    (message : ActorMessage) (reply : ActorReply) (hb : bookingStep (message, reply) = none) :
    Progress self message reply (self.initializeActor now) where
  wellFormed := initializeActor_wellFormed now self h
  walks := initializeActor_walks now self
  booking := by
    rw [hb, initializeActor_currentBooking]
    exact .nil _
  refused _ _ := unchanged_initializeActor now self

theorem provision_progress [SerdeJson] (now : ℤ) (self : Acting) (h : self.actor.WellFormed)
    (b : String) (config : ProvisionConfig) :
    Progress self (.provisionMachine b config) (self.handle now (.provisionMachine b config)).1
      (self.handle now (.provisionMachine b config)).2 := by
  simp only [handle]
  obtain ⟨hidle, -, heq⟩ | ⟨-, error, heq⟩ := handleProvisionMachine_cases now b config self
  · have hwf := initializeActor_wellFormed now self h
    have hnone : self.actor.currentBooking = none := by
      have hb := hwf.booking
      rw [hidle, initializeActor_currentBooking] at hb
      simpa using hb
    rw [heq]
    constructor
    · exact ⟨Or.inr (Or.inr rfl), by simp [provisioned]⟩
    · exact (initializeActor_walks now self).trans (provisioned_walks now b _ hidle)
    · rw [hnone]
      exact Run.single (.provisioned b)
    · intro error he
      simp at he
  · rw [heq]
    exact Progress.of_initializeActor now self h _ _ rfl

theorem deprovision_progress [SerdeJson] (now : ℤ) (self : Acting) (h : self.actor.WellFormed)
    (b : String) :
    Progress self (.deprovisionMachine b) (self.handle now (.deprovisionMachine b)).1
      (self.handle now (.deprovisionMachine b)).2 := by
  simp only [handle]
  obtain ⟨hbooked, hb, heq⟩ | ⟨error, heq⟩ := handleDeprovisionMachine_cases now b self
  · rw [heq]
    constructor
    · exact ⟨Or.inr (Or.inl rfl), by simp [deprovisioned]⟩
    · exact (initializeActor_walks now self).trans (deprovisioned_walks now b _ hbooked)
    · rw [hb]
      exact Run.single (.deprovisioned b)
    · intro error he
      simp at he
  · rw [heq]
    exact Progress.of_initializeActor now self h _ _ rfl

theorem update_progress [SerdeJson] (now : ℤ) (self : Acting) (h : self.actor.WellFormed)
    (specJson : String) :
    Progress self (.updateMachineSpec specJson) (self.handle now (.updateMachineSpec specJson)).1
      (self.handle now (.updateMachineSpec specJson)).2 := by
  simp only [handle, handleUpdateMachineSpec]
  cases MachineSpec.fromStr specJson with
  | none => exact ⟨h, Walks.of_eq rfl rfl, .nil _, fun _ _ => ⟨Or.inl rfl, rfl, rfl⟩⟩
  | some spec =>
    refine ⟨⟨h.state, h.booking⟩, Walks.of_eq rfl rfl, .nil _, ?_⟩
    intro error he
    simp at he

/-- Each message makes progress. -/
theorem handle_progress [SerdeJson] (now : ℤ) (self : Acting) (h : self.actor.WellFormed)
    (message : ActorMessage) :
    Progress self message (self.handle now message).1 (self.handle now message).2 := by
  cases message with
  | getMachineStatus => exact Progress.of_initializeActor now self h _ _ rfl
  | updateMachineSpec specJson => exact update_progress now self h specJson
  | provisionMachine b config => exact provision_progress now self h b config
  | deprovisionMachine b => exact deprovision_progress now self h b
  | checkOwnership isStillLocal =>
    exact ⟨h, Walks.of_eq rfl rfl, .nil _, fun _ _ => ⟨Or.inl rfl, rfl, rfl⟩⟩

/-- Handle a history of messages, each at its time, and keep the exchanges. -/
def serve [SerdeJson] (self : Acting) :
    List (ℤ × ActorMessage) → List (ActorMessage × ActorReply) × Acting
  | [] => ([], self)
  | (now, message) :: rest =>
    let (reply, next) := self.handle now message
    let (exchanges, last) := serve next rest
    ((message, reply) :: exchanges, last)

/-- A history keeps the actor well-formed, walks on, and takes the booking steps
that its exchanges amount to. -/
theorem serve_progress [SerdeJson] (history : List (ℤ × ActorMessage)) (self : Acting)
    (h : self.actor.WellFormed) :
    (self.serve history).2.actor.WellFormed ∧ Walks self (self.serve history).2 ∧
      Run BookingStep.Takes self.actor.currentBooking
        ((self.serve history).1.filterMap bookingStep)
        (self.serve history).2.actor.currentBooking := by
  induction history generalizing self with
  | nil => exact ⟨h, Walks.of_eq rfl rfl, .nil _⟩
  | cons entry rest ih =>
    obtain ⟨now, message⟩ := entry
    have hp := handle_progress now self h message
    obtain ⟨hwf, hwalks, hrun⟩ := ih (self.handle now message).2 hp.wellFormed
    refine ⟨hwf, hp.walks.trans hwalks, ?_⟩
    have hsteps : (self.serve ((now, message) :: rest)).1.filterMap bookingStep =
        (bookingStep (message, (self.handle now message).1)).toList ++
          ((self.handle now message).2.serve rest).1.filterMap bookingStep := by
      simp only [serve, List.filterMap_cons]
      cases bookingStep (message, (self.handle now message).1) <;> rfl
    rw [hsteps]
    exact hp.booking.append hrun

/-- A new actor, before its first message. -/
def start (now : ℤ) (machineId : String) (spec : MachineSpec) (nodeId : String) : Acting :=
  ⟨MachineActor.withSpecAndNodeId now machineId spec nodeId, []⟩

theorem start_wellFormed (now : ℤ) (machineId : String) (spec : MachineSpec) (nodeId : String) :
    (start now machineId spec nodeId).actor.WellFormed := ⟨Or.inl rfl, by
  simp [start, MachineActor.withSpecAndNodeId]⟩

/-- After every history of a new actor: state and booking are paired, the
successful requests alternate, a refused request changes nothing, and the state
change events are one walk from initializing to the current state. -/
theorem machine_lifecycle [SerdeJson] (created : ℤ) (machineId nodeId : String)
    (spec : MachineSpec) (history : List (ℤ × ActorMessage)) :
    let exchanges := ((start created machineId spec nodeId).serve history).1
    let self := ((start created machineId spec nodeId).serve history).2
    ((self.actor.state = .initializing ∨ self.actor.state = .idle ∨ self.actor.state = .booked) ∧
      (self.actor.currentBooking.isSome = true ↔ self.actor.state = .booked)) ∧
    Alternates (exchanges.filterMap bookingStep) ∧
    (∀ now message error, (self.handle now message).1 = .result ⟨false, error⟩ →
      Unchanged self.actor (self.handle now message).2.actor) ∧
    Run MachineState.Change .initializing (self.events.filterMap Event.stateChange)
      self.actor.state := by
  intro exchanges self
  obtain ⟨hwf, ⟨emitted, hevents, hwalk⟩, hrun⟩ :=
    serve_progress history (start created machineId spec nodeId)
      (start_wellFormed created machineId spec nodeId)
  refine ⟨⟨hwf.state, hwf.booking⟩, alternates_of_run _ _ hrun, ?_, ?_⟩
  · intro now message error he
    exact (handle_progress now self hwf message).refused error he
  · have hself : self.events = emitted := hevents
    rw [hself]
    exact hwalk

end Acting
end Neolaas
