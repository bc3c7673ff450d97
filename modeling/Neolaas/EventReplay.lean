import Neolaas.ActorGauge
import Neolaas.ClusterBookings
import Neolaas.ManagerBookkeeping

/-!
# What the event log tells of the actors

A reader of a node's structured events follows each machine on its own: it takes
the actor's spawn and stop, its state changes along the lifecycle and its
bookings, and refuses an event that does not fit what it knows. On every run the
reader takes the whole log and ends with the actors as they are.
-/
namespace Neolaas
open AtomicProgram LabelledRuns

/-- The state that a state leads to, with one message or in the middle of one. -/
def MachineState.successor : MachineState → Option MachineState
  | initializing => some idle
  | idle => some provisioning
  | provisioning => some booked
  | booked => some deprovisioning
  | deprovisioning => some idle
  | error => none

/-- What the events of a machine tell of its actor. -/
structure ActorView where
  state : MachineState
  currentBooking : Option String
  deriving DecidableEq

def MachineActor.view (a : MachineActor) : ActorView := ⟨a.state, a.currentBooking⟩

namespace Event

/-- The machine whose actor an event is about. -/
def about : Event → Option String
  | machineStateChanged machineId .. => some machineId
  | actorSpawned _ actorId _ => some actorId
  | actorStopped _ actorId .. => some actorId
  | bookingStarted machineId .. => some machineId
  | bookingEnded machineId .. => some machineId
  | _ => none

/-- An event of a machine as a reader takes it who knows of the given actor, or of
none. The reader refuses it when it does not fit. -/
def take (view : Option ActorView) : Event → Option (Option ActorView)
  | actorSpawned .. => if view = none then some (some ⟨.initializing, none⟩) else none
  | actorStopped .. => view.map (fun _ => none)
  | machineStateChanged _ previousState newState _ _ => do
    let v ← view
    let next ← v.state.successor
    if v.state.display = previousState ∧ next.display = newState then
      some (some { v with state := next })
    else none
  | bookingStarted _ bookingId _ => do
    let v ← view
    if v.state = .provisioning ∧ v.currentBooking = none then
      some (some { v with currentBooking := some bookingId })
    else none
  | bookingEnded _ bookingId _ _ => do
    let v ← view
    if v.state = .idle ∧ v.currentBooking = some bookingId then
      some (some { v with currentBooking := none })
    else none
  | _ => none

/-- The reader of one machine passes over the events of all others. -/
def observe (machineId : String) (view : Option ActorView) (e : Event) :
    Option (Option ActorView) :=
  if e.about = some machineId then e.take view else some view

end Event

/-- The events lead the reader of a machine from one view to another. -/
def Recounts (machineId : String) (before : Option ActorView) (events : List Event)
    (after : Option ActorView) : Prop :=
  events.foldlM (Event.observe machineId) before = some after

instance (machineId : String) (before : Option ActorView) (events : List Event)
    (after : Option ActorView) : Decidable (Recounts machineId before events after) :=
  inferInstanceAs (Decidable (_ = _))

namespace Recounts

theorem append {machineId : String} {u v w : Option ActorView} {es es' : List Event}
    (h : Recounts machineId u es v) (h' : Recounts machineId v es' w) :
    Recounts machineId u (es ++ es') w := by
  unfold Recounts at h h' ⊢
  rw [List.foldlM_append, h]
  exact h'

theorem cons {machineId : String} {u v w : Option ActorView} {e : Event} {es : List Event}
    (h : e.observe machineId u = some v) (h' : Recounts machineId v es w) :
    Recounts machineId u (e :: es) w := by
  unfold Recounts at h' ⊢
  rw [List.foldlM_cons, h]
  exact h'

/-- Events about other machines tell nothing. -/
theorem of_others {machineId : String} {es : List Event}
    (h : ∀ e ∈ es, Event.about e ≠ some machineId) (v : Option ActorView) :
    Recounts machineId v es v := by
  induction es with
  | nil => rfl
  | cons e es ih =>
    have hhead : e.observe machineId v = some v := if_neg (h e List.mem_cons_self)
    exact cons hhead (ih (fun e' he' => h e' (List.mem_cons_of_mem e he')))

end Recounts

theorem Event.OfActor.about {machineId : String} {e : Event} (h : e.OfActor machineId) :
    e.about = some machineId := by
  cases e with
  | machineStateChanged id => exact congrArg some h
  | bookingStarted id => exact congrArg some h
  | bookingEnded id => exact congrArg some h
  | actorSpawned => cases h
  | actorStopped => cases h
  | actorPanicked => cases h
  | ownershipTransferred => cases h
  | recordActorSpawned => cases h
  | recordActorStopped => cases h
  | machineLookup => cases h
  | topologyChange => cases h

namespace Acting

theorem initializeActor_recounts (now : ℤ) (self : Acting) :
    ∃ es, (self.initializeActor now).events = self.events ++ es ∧
      Recounts self.actor.machineId (some self.actor.view) es
        (some (self.initializeActor now).actor.view) := by
  by_cases h : self.actor.state = .initializing
  · rw [initializeActor_of_eq now self h]
    refine ⟨_, rfl, ?_⟩
    apply Recounts.cons (v := some ⟨.idle, self.actor.currentBooking⟩)
    · simp [Event.observe, Event.about, Event.take, MachineActor.view, h,
        MachineState.successor, MachineState.display]
    · rfl
  · rw [initializeActor_of_ne now self h]
    exact ⟨[], by simp, rfl⟩

/-- The three events of a successful provision. -/
theorem provisioned_recounts (now : ℤ) (b : String) (self : Acting)
    (hstate : self.actor.state = .idle) (hbooking : self.actor.currentBooking = none) :
    ∃ es, (self.provisioned now b).events = self.events ++ es ∧
      Recounts self.actor.machineId (some self.actor.view) es
        (some (self.provisioned now b).actor.view) := by
  refine ⟨_, rfl, ?_⟩
  apply Recounts.cons (v := some ⟨.provisioning, none⟩)
  · simp [Event.observe, Event.about, Event.take, MachineActor.view, hstate, hbooking,
      MachineState.successor, MachineState.display]
  · apply Recounts.cons (v := some ⟨.provisioning, some b⟩)
    · simp [Event.observe, Event.about, Event.take]
    · apply Recounts.cons (v := some ⟨.booked, some b⟩)
      · simp [Event.observe, Event.about, Event.take, MachineState.successor,
          MachineState.display]
      · rfl

/-- The three events of a successful deprovision. -/
theorem deprovisioned_recounts (now : ℤ) (b : String) (self : Acting)
    (hstate : self.actor.state = .booked) (hbooking : self.actor.currentBooking = some b) :
    ∃ es, (self.deprovisioned now b).events = self.events ++ es ∧
      Recounts self.actor.machineId (some self.actor.view) es
        (some (self.deprovisioned now b).actor.view) := by
  refine ⟨_, rfl, ?_⟩
  apply Recounts.cons (v := some ⟨.deprovisioning, some b⟩)
  · simp [Event.observe, Event.about, Event.take, MachineActor.view, hstate, hbooking,
      MachineState.successor, MachineState.display]
  · apply Recounts.cons (v := some ⟨.idle, some b⟩)
    · simp [Event.observe, Event.about, Event.take, MachineState.successor,
        MachineState.display]
    · apply Recounts.cons (v := some ⟨.idle, none⟩)
      · simp [Event.observe, Event.about, Event.take]
      · rfl

/-- A reader of the machine can follow every message that its actor handles. -/
theorem handle_recounts [SerdeJson] (now : ℤ) (self : Acting) (h : self.actor.WellFormed)
    (message : ActorMessage) :
    ∃ es, (self.handle now message).2.events = self.events ++ es ∧
      Recounts self.actor.machineId (some self.actor.view) es
        (some (self.handle now message).2.actor.view) := by
  have hinit := initializeActor_recounts now self
  -- A further event list of the initialized actor.
  have hmore : ∀ next : Acting, (∃ es, next.events = (self.initializeActor now).events ++ es ∧
      Recounts (self.initializeActor now).actor.machineId
        (some (self.initializeActor now).actor.view) es (some next.actor.view)) →
      ∃ es, next.events = self.events ++ es ∧
        Recounts self.actor.machineId (some self.actor.view) es (some next.actor.view) := by
    rintro next ⟨es', hes', hnext⟩
    obtain ⟨es, hes, hfirst⟩ := hinit
    rw [initializeActor_machineId] at hnext
    refine ⟨es ++ es', ?_, hfirst.append hnext⟩
    rw [hes', hes, List.append_assoc]
  cases message with
  | getMachineStatus => exact hinit
  | checkOwnership isStillLocal => exact ⟨[], by simp [handle], rfl⟩
  | updateMachineSpec specJson =>
    simp only [handle, handleUpdateMachineSpec]
    cases MachineSpec.fromStr specJson with
    | none => exact ⟨[], by simp, rfl⟩
    | some spec => exact ⟨[], by simp, rfl⟩
  | provisionMachine b config =>
    simp only [handle]
    obtain ⟨hidle, -, heq⟩ | ⟨-, error, heq⟩ := handleProvisionMachine_cases now b config self
    · rw [heq]
      have hnone : (self.initializeActor now).actor.currentBooking = none := by
        have hwf := (initializeActor_wellFormed now self h).booking
        rw [hidle] at hwf
        simpa using hwf
      exact hmore _ (provisioned_recounts now b _ hidle hnone)
    · rw [heq]
      exact hinit
  | deprovisionMachine b =>
    simp only [handle]
    obtain ⟨hbooked, hb, heq⟩ | ⟨error, heq⟩ := handleDeprovisionMachine_cases now b self
    · rw [heq]
      apply hmore
      apply deprovisioned_recounts now b _ hbooked
      rw [initializeActor_currentBooking, hb]
    · rw [heq]
      exact hinit

end Acting

namespace World

/-- The reader of each machine ends its reading of the log with the actor that the
manager has, and actors are kept under their own names. -/
structure Recounted {P : Type} (w : World P) : Prop where
  named : ∀ (machineId : String) (a : MachineActor),
    w.manager.actors[machineId]? = some a → a.machineId = machineId ∧ a.WellFormed
  recounts : ∀ machineId : String, Recounts machineId none w.events
    ((w.manager.actors[machineId]?).map MachineActor.view)

namespace Recounted

/-- New events that are about one machine at most change what is read of no other. -/
theorem update {P : Type} {w w' : World P} (hw : w.Recounted) (machineId : String)
    (es : List Event) (hevents : w'.events = w.events ++ es)
    (habout : ∀ e ∈ es, ∀ id, Event.about e = some id → id = machineId)
    (hothers : ∀ id : String, id ≠ machineId →
      w'.manager.actors[id]? = w.manager.actors[id]?)
    (hnamed : ∀ a : MachineActor, w'.manager.actors[machineId]? = some a →
      a.machineId = machineId ∧ a.WellFormed)
    (hself : Recounts machineId ((w.manager.actors[machineId]?).map MachineActor.view) es
      ((w'.manager.actors[machineId]?).map MachineActor.view)) : w'.Recounted := by
  constructor
  · intro id a hget
    by_cases hid : id = machineId
    · subst hid
      exact hnamed a hget
    · rw [hothers id hid] at hget
      exact hw.named id a hget
  · intro id
    rw [hevents]
    apply (hw.recounts id).append
    by_cases hid : id = machineId
    · subst hid
      exact hself
    · rw [hothers id hid]
      apply Recounts.of_others
      intro e he hsome
      exact hid (habout e he id hsome)

/-- Events about no actor, and the same actors. -/
theorem quiet {P : Type} {w w' : World P} (hw : w.Recounted) (es : List Event)
    (hevents : w'.events = w.events ++ es) (habout : ∀ e ∈ es, Event.about e = none)
    (hactors : w'.manager.actors = w.manager.actors) : w'.Recounted := by
  constructor
  · intro id a hget
    rw [hactors] at hget
    exact hw.named id a hget
  · intro id
    rw [hevents, hactors]
    apply (hw.recounts id).append
    apply Recounts.of_others
    intro e he hsome
    rw [habout e he] at hsome
    cases hsome

/-- The actor of a machine is stopped, after lines about no actor. -/
theorem stop {P : Type} {w : World P} (hw : w.Recounted) {m : Managing P} (lines : List Event)
    (hevents : m.events = w.events ++ lines) (habout : ∀ e ∈ lines, Event.about e = none)
    (hactors : m.manager.actors = w.manager.actors) (machineId reason : String) :
    (w.manage (m.stopMachineActor machineId reason)).Recounted := by
  by_cases hmem : m.manager.actors.contains machineId = true
  · have hstop : (m.stopMachineActor machineId reason).events = w.events ++
        (lines ++ [.recordActorStopped "MachineActor" reason,
          .actorStopped "MachineActor" machineId reason m.manager.nodeId]) := by
      unfold Managing.stopMachineActor
      rw [if_pos hmem, hevents, List.append_assoc]
    have hgone : (m.stopMachineActor machineId reason).manager.actors[machineId]? = none := by
      apply Std.ExtTreeMap.getElem?_eq_none
      rw [Managing.mem_actors_stopMachineActor]
      exact fun h => h.1 rfl
    obtain ⟨a, ha⟩ := Option.isSome_iff_exists.mp
      (Std.ExtTreeMap.mem_iff_isSome_getElem?.mp (Std.ExtTreeMap.contains_iff_mem.mp hmem))
    refine hw.update machineId _ hstop ?_ ?_ ?_ ?_
    · intro e he id hsome
      obtain he | he := List.mem_append.mp he
      · rw [habout e he] at hsome
        cases hsome
      · simp only [List.mem_cons, List.not_mem_nil, or_false] at he
        obtain rfl | rfl := he
        · cases hsome
        · exact (Option.some.inj hsome).symm
    · intro id hid
      rw [manage_toManaging, Managing.stopMachineActor_actors_of_ne reason m hid, hactors]
    · intro a' hget
      rw [manage_toManaging, hgone] at hget
      cases hget
    · rw [manage_toManaging, hgone, ← hactors, ha]
      apply (Recounts.of_others (fun e he hsome => ?_) _).append (v := some a.view)
      · apply Recounts.cons (v := some a.view)
        · rfl
        · apply Recounts.cons (v := none)
          · simp [Event.observe, Event.about, Event.take]
          · rfl
      · rw [habout e he] at hsome
        cases hsome
  · have hsame : m.stopMachineActor machineId reason = m := by
      unfold Managing.stopMachineActor
      rw [if_neg hmem]
    rw [hsame]
    exact hw.quiet lines hevents habout hactors

/-- An actor handles a message. -/
theorem ask {P : Type} [SerdeJson] {w : World P} (hw : w.Recounted) (machineId : String)
    (message : ActorMessage) :
    (w.manage (w.ask w.now machineId message).2).Recounted := by
  cases hactor : w.manager.actors[machineId]? with
  | none =>
    have hsame : (w.ask w.now machineId message).2 = w.toManaging := by
      simp [Managing.ask, hactor]
    rw [hsame]
    exact hw
  | some a =>
    obtain ⟨hname, hwf⟩ := hw.named machineId a hactor
    obtain ⟨es, hes, hrecounts⟩ := Acting.handle_recounts w.now ⟨a, w.events⟩ hwf message
    obtain ⟨hkept, es', hes', hof⟩ := Acting.handle_emits w.now ⟨a, w.events⟩ message
    have hsame : es' = es := List.append_cancel_left (hes'.symm.trans hes)
    have hafter : (w.manage (w.ask w.now machineId message).2).manager.actors[machineId]? =
        some (Acting.handle w.now ⟨a, w.events⟩ message).2.actor := by
      simp [Managing.ask, hactor]
    refine hw.update machineId es ?_ ?_ ?_ ?_ ?_
    · simp only [manage_toManaging, Managing.ask, hactor]
      exact hes
    · intro e he id hsome
      rw [(hof e (hsame ▸ he)).about] at hsome
      exact (Option.some.inj hsome).symm.trans hname
    · intro id hid
      exact Managing.ask_actors_of_ne w.now message w.toManaging hid
    · intro a' hget
      rw [hafter] at hget
      obtain rfl := Option.some.inj hget
      exact ⟨hkept.trans hname,
        (Acting.handle_progress w.now ⟨a, w.events⟩ hwf message).wellFormed⟩
    · rw [hafter, hactor]
      have hself : Recounts a.machineId (some a.view) es _ := hrecounts
      rw [hname] at hself
      exact hself

/-- An actor is spawned for a machine that has none. -/
theorem add {P : Type} [SerdeJson] {w : World P} (hw : w.Recounted)
    {machineId specJson nodeId : String} {actor : MachineActor}
    (hnone : machineId ∉ w.manager.actors)
    (hactor : MachineActor.withNodeId w.now machineId specJson nodeId = some actor) :
    (w.manage (w.addActor machineId actor)).Recounted := by
  obtain ⟨spec, -, rfl⟩ := Option.map_eq_some_iff.mp hactor
  refine hw.update machineId [.recordActorSpawned "MachineActor",
    .actorSpawned "MachineActor" machineId w.manager.nodeId] rfl ?_ ?_ ?_ ?_
  · intro e he id hsome
    simp only [List.mem_cons, List.not_mem_nil, or_false] at he
    obtain rfl | rfl := he
    · cases hsome
    · exact (Option.some.inj hsome).symm
  · intro id hid
    rw [manage_toManaging, Managing.addActor_actors, if_neg hid]
  · intro a hget
    rw [manage_toManaging, Managing.addActor_actors, if_pos rfl] at hget
    obtain rfl := Option.some.inj hget
    exact ⟨rfl, Or.inl rfl, by simp [MachineActor.withSpecAndNodeId]⟩
  · rw [manage_toManaging, Managing.addActor_actors, if_pos rfl,
      Std.ExtTreeMap.getElem?_eq_none hnone]
    apply Recounts.cons (v := none)
    · rfl
    · apply Recounts.cons (v := some ⟨.initializing, none⟩)
      · simp [Event.observe, Event.about, Event.take]
      · rfl

/-- Whatever a node does to its world, its log goes on telling the actors. -/
theorem affects {P : Type} [SerdeJson] [DecidableEq P] [PeerId P] {score : Score P}
    {Valid : String → String → Prop} {asks : Prop} {w w' : World P} (hw : w.Recounted)
    (h : Node.Affects score Valid asks w w') : w'.Recounted := by
  cases h with
  | managed h =>
    cases h with
    | quiet => exact hw
    | lookedUp machineId =>
      cases hres : (w.askLookup score machineId).1 with
      | none =>
        rw [askLookup_none hres]
        exact hw.quiet [] (by simp) (by simp) rfl
      | some result =>
        obtain ⟨-, -, owner, heq⟩ := askLookup_some hres
        rw [heq]
        exact hw.quiet _ rfl (by simp [Event.about]) rfl
    | cached machineId specJson =>
      refine hw.quiet [] ?_ (by simp) rfl
      rw [List.append_nil]
      rfl
    | deleted machineId =>
      exact hw.stop (m := w.uncacheSpec machineId) []
        (by simp [Managing.uncacheSpec]) (by simp) rfl machineId "machine_deleted"
    | asked machineId message => exact hw.ask machineId message
    | spawned machineId specJson actor hspec hnone hlookup hactor => exact hw.add hnone hactor
    | stopped machineId reason lines hlookup hlines =>
      refine hw.stop (m := w.emit lines) lines rfl ?_ rfl machineId reason
      intro e he
      obtain ⟨previous, new, rfl⟩ := hlines e he
      rfl
  | written etcd now => exact hw.quiet [] (by simp) (by simp) rfl
  | topology peers =>
    unfold Node.applyTopology
    split_ifs
    · refine hw.quiet _ rfl ?_ rfl
      simp [ShardingCoordinator.handleTopologyChanged, Event.about]
    · exact hw

end Recounted
end World

namespace Node

/-- The log, the gauge and the trackers of a node are right about its actors. -/
structure Observed {P A : Type} [SerdeJson] [DecidableEq P] [PeerId P] (score : Score P)
    (s : Node P A) : Prop where
  sound : s.Sound score (fun _ _ => True)
  recounted : s.world.Recounted
  gauged : s.world.Gauged
  bookkept : s.world.Bookkept

theorem Observed.step {P A : Type} [SerdeJson] [DecidableEq P] [PeerId P] [Multiaddr A]
    {score : Score P} {s t : Node P A} {l : Label P} (hs : s.Observed score)
    (h : Steps score s l t) : t.Observed score := by
  obtain ⟨hsound, haffects⟩ := hs.sound.step (specsSatisfy_true s l) h
  exact ⟨hsound, hs.recounted.affects haffects, hs.gauged.affects haffects,
    hs.bookkept.affects haffects⟩

end Node
end Neolaas
