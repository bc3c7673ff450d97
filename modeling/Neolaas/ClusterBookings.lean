import Neolaas.QuiescentOwnership
import Neolaas.SpecAgreement

/-!
# Bookings in a cluster

A cluster is any family of nodes over one etcd, and a history records the
successful provisions and deprovisions, the actors that managers have stopped and
the deleted machines. A booking is kept by the actor that took it and nowhere
else, so it excludes others as long as that actor stays and no other node has one.
-/
namespace Neolaas
open AtomicProgram LabelledRuns

/-- A well-formed actor with a booking. -/
structure MachineActor.Holds (a : MachineActor) (bookingId : String) : Prop where
  wellFormed : a.WellFormed
  booking : a.currentBooking = some bookingId

/-- State and booking say whether an actor is well-formed. -/
theorem MachineActor.WellFormed.congr {a a' : MachineActor} (h : a.WellFormed)
    (hstate : a'.state = a.state) (hbooking : a'.currentBooking = a.currentBooking) :
    a'.WellFormed where
  state := by
    rw [hstate]
    exact h.state
  booking := by
    rw [hstate, hbooking]
    exact h.booking

/-- An actor that holds a booking is booked. -/
theorem MachineActor.Holds.state {a : MachineActor} {b : String} (h : a.Holds b) :
    a.state = .booked := by
  have hsome : a.currentBooking.isSome = true := by rw [h.booking]; rfl
  exact h.wellFormed.booking.mp hsome

/-- No edge of the lifecycle leads back to the first state. -/
theorem MachineState.initializing_of_run {s t : MachineState} {changes : List (String × String)}
    (h : Run MachineState.Change s changes t) (ht : t = .initializing) : s = .initializing := by
  induction h with
  | nil s => exact ht
  | cons hchange _ ih =>
    obtain ⟨hedge, -⟩ := hchange
    rw [ih ht] at hedge
    cases hedge

namespace Acting

/-- A message leaves an actor its booking, unless it is the deprovision of it. -/
theorem handle_holds [SerdeJson] (now : ℤ) (self : Acting) {b : String}
    (h : self.actor.Holds b) (message : ActorMessage) :
    (bookingStep (message, (self.handle now message).1) = none ∧
        (self.handle now message).2.actor.Holds b) ∨
      bookingStep (message, (self.handle now message).1) = some (.deprovisioned b) := by
  have hp := handle_progress now self h.wellFormed message
  have hrun := hp.booking
  rw [h.booking] at hrun
  cases hstep : bookingStep (message, (self.handle now message).1) with
  | none =>
    rw [hstep] at hrun
    refine Or.inl ⟨rfl, hp.wellFormed, ?_⟩
    generalize (self.handle now message).2.actor.currentBooking = held at hrun ⊢
    cases hrun
    rfl
  | some step =>
    rw [hstep] at hrun
    obtain _ | ⟨htakes, -⟩ := hrun
    cases htakes
    exact Or.inr rfl

/-- A successful provision finds no booking and leaves its own. -/
theorem handle_provisioned [SerdeJson] {now : ℤ} {self : Acting} {b : String}
    {message : ActorMessage} (h : self.actor.WellFormed)
    (hstep : bookingStep (message, (self.handle now message).1) = some (.provisioned b)) :
    self.actor.currentBooking = none ∧ (self.handle now message).2.actor.Holds b := by
  have hp := handle_progress now self h message
  have hrun := hp.booking
  rw [hstep] at hrun
  have hends : ∀ before after : Option String,
      Run BookingStep.Takes before [.provisioned b] after → before = none ∧ after = some b := by
    intro before after hrun
    obtain _ | ⟨htakes, hrest⟩ := hrun
    cases htakes
    cases hrest
    exact ⟨rfl, rfl⟩
  obtain ⟨hbefore, hafter⟩ := hends _ _ hrun
  exact ⟨hbefore, hp.wellFormed, hafter⟩

/-- An actor that has been initialized is not initializing again. -/
theorem handle_ne_initializing [SerdeJson] (now : ℤ) (self : Acting) (message : ActorMessage)
    (h : self.actor.WellFormed) (hstate : self.actor.state ≠ .initializing) :
    (self.handle now message).2.actor.state ≠ .initializing := by
  intro hnext
  obtain ⟨emitted, -, hrun⟩ := (handle_progress now self h message).walks
  exact hstate (MachineState.initializing_of_run hrun hnext)

end Acting

/-- Every actor after an operation has the state and the booking from before, or
is new. -/
def KeepsBookings {P : Type} (m m' : MachineActorManagerActor P) : Prop :=
  ∀ (machineId : String) (a' : MachineActor), m'.actors[machineId]? = some a' →
    (∃ a : MachineActor, m.actors[machineId]? = some a ∧ a'.state = a.state ∧
      a'.currentBooking = a.currentBooking) ∨
    (a'.state = .initializing ∧ a'.currentBooking = none)

namespace KeepsBookings

theorem of_actors {P : Type} {m m' : MachineActorManagerActor P} (h : m'.actors = m.actors) :
    KeepsBookings m m' := by
  intro machineId a' hget
  rw [h] at hget
  exact Or.inl ⟨a', hget, rfl, rfl⟩

/-- A stopped actor is gone, the others are as before. -/
theorem stop {P : Type} (machineId reason : String) (m : Managing P) :
    KeepsBookings m.manager (m.stopMachineActor machineId reason).manager := by
  intro id a' hget
  have hid : id ≠ machineId := by
    have hmem : id ∈ (m.stopMachineActor machineId reason).manager.actors :=
      (Std.ExtTreeMap.getElem?_eq_some_iff.mp hget).fst
    exact ((Managing.mem_actors_stopMachineActor machineId reason m id).mp hmem).1
  rw [Managing.stopMachineActor_actors_of_ne reason m hid] at hget
  exact Or.inl ⟨a', hget, rfl, rfl⟩

/-- A spawned actor is new. -/
theorem spawn {P : Type} [SerdeJson] [PeerId P] {now : ℤ} {machineId specJson : String}
    {m m' : Managing P} (h : m.spawnMachineActor now machineId specJson = some m') :
    KeepsBookings m.manager m'.manager := by
  obtain ⟨-, rfl⟩ | ⟨actor, hactor, rfl⟩ := Program.spawnMachineActor_cases h
  · exact of_actors rfl
  · obtain ⟨spec, -, rfl⟩ := Option.map_eq_some_iff.mp hactor
    intro id a' hget
    rw [Managing.addActor_actors] at hget
    split_ifs at hget with hid
    · obtain rfl := Option.some.inj hget
      exact Or.inr ⟨rfl, rfl⟩
    · exact Or.inl ⟨a', hget, rfl, rfl⟩

/-- An update of the spec changes neither state nor booking. -/
theorem update {P : Type} [SerdeJson] (now : ℤ) (machineId specJson : String) (m : Managing P) :
    KeepsBookings m.manager (m.ask now machineId (.updateMachineSpec specJson)).2.manager := by
  intro id a' hget
  by_cases hid : id = machineId
  · subst hid
    unfold Managing.ask at hget
    cases hactor : m.manager.actors[id]? with
    | none => simp [hactor] at hget
    | some actor =>
      simp only [hactor, Std.ExtTreeMap.getElem?_insert_self] at hget
      obtain rfl := Option.some.inj hget
      refine Or.inl ⟨actor, rfl, ?_⟩
      simp only [Acting.handle, Acting.handleUpdateMachineSpec]
      cases MachineSpec.fromStr specJson with
      | none => exact ⟨rfl, rfl⟩
      | some spec => exact ⟨rfl, rfl⟩
  · rw [Managing.ask_actors_of_ne now _ m hid] at hget
    exact Or.inl ⟨a', hget, rfl, rfl⟩

end KeepsBookings

/-- Handlers run against any interference and keep the bookings. -/
def bookingSetting {P : Type} [DecidableEq P] [PeerId P] (score : Score P) :
    Setting (Op P) Op.Ret (World P) where
  exec := World.exec score
  rely _ _ := True
  guar _ w w' := KeepsBookings w.manager w'.manager
  rely_refl _ := trivial
  rely_trans _ _ _ _ _ := trivial

namespace Program
open World

section
variable {P : Type} [DecidableEq P] [PeerId P] (score : Score P)

theorem keeps_lookup (machineId : String) (w : World P) :
    KeepsBookings w.manager (w.askLookup score machineId).2.manager := by
  apply KeepsBookings.of_actors
  rw [(askLookup_frame score machineId w).1]

theorem handleMachinePut_keeps [SerdeJson] (machineId specJson : String) (w : World P) :
    Safe (bookingSetting score) (fun _ _ => True) (handleMachinePut machineId specJson) w := by
  unfold handleMachinePut
  apply safe_modify_bind rfl
  intro w₁ _ m hm
  obtain rfl := Option.some.inj hm
  refine ⟨.of_actors rfl, ?_⟩
  apply safe_lookupMachine rfl
  intro w₂ _
  refine ⟨keeps_lookup score machineId w₂, ?_⟩
  cases (w₂.askLookup score machineId).1 with
  | none => exact Safe.pure (fun _ _ => trivial)
  | some result =>
    apply safe_read rfl
    intro w₃ _
    refine ⟨.of_actors rfl, ?_⟩
    cases result.isLocal with
    | true =>
      simp only [if_true]
      by_cases hactor : w₃.manager.actors.contains machineId = true
      · rw [if_pos hactor]
        apply safe_modify rfl
        intro w₄ _ m hm
        obtain rfl := Option.some.inj hm
        exact ⟨.update w₄.now machineId specJson w₄.toManaging, fun _ _ => trivial⟩
      · rw [if_neg hactor]
        apply safe_modify rfl
        intro w₄ _ m hm
        exact ⟨.spawn hm, fun _ _ => trivial⟩
    | false =>
      simp only [Bool.false_eq_true, if_false]
      by_cases hactor : w₃.manager.actors.contains machineId = true
      · rw [if_pos hactor]
        apply safe_modify rfl
        intro w₄ _ m hm
        obtain ⟨previous, new, rfl⟩ := transferOwnership_eq_some hm
        exact ⟨.stop machineId "ownership_transfer" (w₄.emit _), fun _ _ => trivial⟩
      · rw [if_neg hactor]
        exact Safe.pure (fun _ _ => trivial)

theorem handleMachineDelete_keeps (machineId : String) (w : World P) :
    Safe (bookingSetting score) (fun _ _ => True) (handleMachineDelete machineId) w := by
  apply safe_modify rfl
  intro w' _ m hm
  obtain rfl := Option.some.inj hm
  exact ⟨.stop machineId "machine_deleted" (w'.uncacheSpec machineId), fun _ _ => trivial⟩

theorem syncAllMachines_keeps [SerdeJson] (w : World P) :
    Safe (bookingSetting score) (fun _ _ => True) syncAllMachines w := by
  unfold syncAllMachines
  apply safe_getPrefix rfl
  intro w' _
  refine ⟨.of_actors rfl, ?_⟩
  cases decodeMachines (w'.etcd.getPrefix machinesPrefix) with
  | none => exact Safe.pure (fun _ _ => trivial)
  | some machines =>
    apply Safe.bind
    refine (Safe.foldlM (fun _ _ _ => True) (fun _ _ _ _ _ _ => trivial) ?_ trivial).mono
      (fun _ _ _ => Safe.pure (fun _ _ => trivial))
    intro machine rest _ t _
    exact handleMachinePut_keeps score machine.1 machine.2 t

theorem checkMachine_keeps (plan : List String × List (String × String)) (machineId : String)
    (w : World P) :
    Safe (bookingSetting score) (fun _ _ => True) (checkMachine plan machineId) w := by
  unfold checkMachine
  apply safe_lookupMachine rfl
  intro w₁ _
  refine ⟨keeps_lookup score machineId w₁, ?_⟩
  have hdone : ∀ (plan : List String × List (String × String)) (t : World P),
      Safe (bookingSetting score) (fun _ _ => True) (pure plan) t :=
    fun _ _ => Safe.pure (fun _ _ => trivial)
  cases (w₁.askLookup score machineId).1 with
  | none => exact hdone _ _
  | some result =>
    apply safe_read rfl
    intro w₂ _
    refine ⟨.of_actors rfl, ?_⟩
    dsimp only
    split_ifs
    · cases w₂.manager.machineSpecs[machineId]? with
      | none => exact hdone _ _
      | some specJson => exact hdone _ _
    · exact hdone _ _
    · exact hdone _ _

theorem rebalanceActors_keeps [SerdeJson] (machineIds : List String) (w : World P) :
    Safe (bookingSetting score) (fun _ _ => True) (rebalanceActors machineIds) w := by
  unfold rebalanceActors
  apply Safe.bind
  refine (Safe.foldlM (fun _ _ _ => True) (fun _ _ _ _ _ _ => trivial)
    (fun machineId _ plan t _ => checkMachine_keeps score plan machineId t) trivial).mono ?_
  intro plan w₁ _
  apply Safe.bind
  refine (Safe.foldlM (fun _ _ _ => True) (fun _ _ _ _ _ _ => trivial) ?_ trivial).mono ?_
  · intro machineId _ _ t _
    apply safe_modify rfl
    intro t₁ _ m hm
    obtain rfl := Option.some.inj hm
    exact ⟨.stop machineId "topology_rebalance" t₁.toManaging, fun _ _ => trivial⟩
  · intro _ w₂ _
    refine (Safe.foldlM (fun _ _ _ => True) (fun _ _ _ _ _ _ => trivial) ?_ trivial).mono
      (fun _ _ _ => trivial)
    intro machine _ _ t _
    apply safe_modify rfl
    intro t₁ _ m hm
    exact ⟨.spawn hm, fun _ _ => trivial⟩

end
end Program

/-- No handler of the manager takes or ends a booking. -/
theorem ManagerMessage.handler_keeps {P : Type} [SerdeJson] [DecidableEq P] [PeerId P]
    (score : Score P) (message : ManagerMessage) (machineIds : List String) (w : World P) :
    Safe (bookingSetting score) (fun _ _ => True) (message.handler machineIds) w := by
  have hpure : ∀ (reply : ManagerReply) (t : World P),
      Safe (bookingSetting score) (fun _ _ => True) (pure reply) t :=
    fun _ _ => Safe.pure (fun _ _ => trivial)
  match message with
  | .etcdMachineEvent machineId .put (some specJson) =>
    apply Safe.bind
    exact (Program.handleMachinePut_keeps score machineId specJson w).mono (fun _ t _ => hpure _ t)
  | .etcdMachineEvent _ .put none => exact hpure _ w
  | .etcdMachineEvent machineId .delete _ =>
    apply Safe.bind
    exact (Program.handleMachineDelete_keeps score machineId w).mono (fun _ t _ => hpure _ t)
  | .syncAllMachines =>
    apply Safe.bind
    refine (Program.syncAllMachines_keeps score w).mono ?_
    intro fetched t _
    cases fetched with
    | true =>
      apply Program.safe_read rfl
      exact fun w' _ => ⟨.of_actors rfl, hpure _ w'⟩
    | false => exact hpure _ t
  | .rebalanceActors =>
    apply Safe.bind
    exact (Program.rebalanceActors_keeps score machineIds w).mono (fun _ t _ => hpure _ t)

/-- An actor that outlives an operation of the manager is the same, or has handled
a message. -/
theorem World.Managed.actor_cases {P : Type} [SerdeJson] [DecidableEq P] [PeerId P]
    {score : Score P} {Valid : String → String → Prop} {asks : Prop} {w w' : World P}
    (h : World.Managed score Valid asks w w') {machineId : String} {a a' : MachineActor}
    (ha : w.manager.actors[machineId]? = some a) (ha' : w'.manager.actors[machineId]? = some a') :
    a' = a ∨ ∃ message, a' = (Acting.handle w.now ⟨a, w.events⟩ message).2.actor := by
  have hmem : machineId ∈ w.manager.actors := (Std.ExtTreeMap.getElem?_eq_some_iff.mp ha).fst
  have hmem' : machineId ∈ w'.manager.actors := (Std.ExtTreeMap.getElem?_eq_some_iff.mp ha').fst
  have hsame : w'.manager.actors[machineId]? = w.manager.actors[machineId]? → a' = a := by
    intro heq
    rw [ha, ha'] at heq
    exact Option.some.inj heq
  cases h with
  | quiet => exact Or.inl (hsame rfl)
  | lookedUp id =>
    refine Or.inl (hsame ?_)
    rw [(World.askLookup_frame score id w).1]
  | cached id specJson => exact Or.inl (hsame rfl)
  | deleted id =>
    refine Or.inl (hsame ?_)
    have hne := ((Managing.mem_actors_stopMachineActor id "machine_deleted" _ machineId).mp
      hmem').1
    exact Managing.stopMachineActor_actors_of_ne "machine_deleted" (w.uncacheSpec id) hne
  | asked id message =>
    by_cases hid : machineId = id
    · subst hid
      refine Or.inr ⟨message, ?_⟩
      simp only [World.manage_toManaging, Managing.ask, ha,
        Std.ExtTreeMap.getElem?_insert_self] at ha'
      exact (Option.some.inj ha').symm
    · exact Or.inl (hsame (Managing.ask_actors_of_ne w.now message w.toManaging hid))
  | spawned id specJson actor hspec hnone =>
    refine Or.inl (hsame ?_)
    have hne : machineId ≠ id := by
      intro heq
      exact hnone (heq ▸ hmem)
    rw [World.manage_toManaging, Managing.addActor_actors, if_neg hne]
  | stopped id reason lines =>
    refine Or.inl (hsame ?_)
    have hne := ((Managing.mem_actors_stopMachineActor id reason _ machineId).mp hmem').1
    exact Managing.stopMachineActor_actors_of_ne reason (w.emit lines) hne

/-- An operation that keeps bookings leaves an actor the one that it holds. -/
theorem World.Managed.holds {P : Type} [SerdeJson] [DecidableEq P] [PeerId P]
    {score : Score P} {Valid : String → String → Prop} {asks : Prop} {w w' : World P}
    (h : World.Managed score Valid asks w w') (hkeeps : KeepsBookings w.manager w'.manager)
    {machineId b : String} {a a' : MachineActor}
    (ha : w.manager.actors[machineId]? = some a) (hb : a.Holds b)
    (ha' : w'.manager.actors[machineId]? = some a') : a'.Holds b := by
  have hinit : a'.state ≠ .initializing := by
    have hbooked : a.state ≠ .initializing := by
      rw [hb.state]
      decide
    obtain rfl | ⟨message, rfl⟩ := h.actor_cases ha ha'
    · exact hbooked
    · exact Acting.handle_ne_initializing w.now ⟨a, w.events⟩ message hb.wellFormed hbooked
  obtain ⟨a₀, ha₀, hstate, hbooking⟩ | ⟨hnew, -⟩ := hkeeps machineId a' ha'
  · rw [ha] at ha₀
    obtain rfl := Option.some.inj ha₀
    exact ⟨hb.wellFormed.congr hstate hbooking, hbooking.trans hb.booking⟩
  · exact absurd hnew hinit

namespace Node

/-- The machine and the successful request of a step in which an actor handles a
message. -/
def served {P A : Type} [SerdeJson] (s : Node P A) : Label P → Option (String × BookingStep)
  | .ask machineId message =>
    ((s.world.ask s.world.now machineId message).1.bind
      (fun reply => bookingStep (message, reply))).map (fun step => (machineId, step))
  | _ => none

/-- The machines whose actors are gone after a step. -/
def stopped {P A : Type} (s t : Node P A) : List String :=
  s.world.manager.actors.keys.filter (fun machineId => machineId ∉ t.world.manager.actors)

/-- A running handler keeps the bookings, and actors are well-formed. -/
structure Bookkept {P A : Type} [SerdeJson] [DecidableEq P] [PeerId P] (score : Score P)
    (s : Node P A) : Prop where
  sound : s.Sound score (fun _ _ => True)
  wellFormed : ∀ (machineId : String) (a : MachineActor),
    s.world.manager.actors[machineId]? = some a → a.WellFormed
  running : ∀ message program, s.running = some (message, program) →
    Safe (bookingSetting score) (fun _ _ => True) program s.world

/-- What a step does to the actors: nothing, an operation of the manager, or an
actor handles a message. -/
inductive Touches {P A : Type} [SerdeJson] [DecidableEq P] [PeerId P] (score : Score P)
    (s : Node P A) : Label P → World P → Prop
  | alone {l : Label P} {w : World P} (hserved : s.served l = none)
    (hactors : w.manager.actors = s.world.manager.actors) : Touches score s l w
  | operation {l : Label P} {w : World P} (hserved : s.served l = none)
    (hmanaged : World.Managed score (fun _ _ => True) True s.world w)
    (hkeeps : KeepsBookings s.world.manager w.manager) : Touches score s l w
  | served {machineId : String} (message : ActorMessage) {actor : MachineActor}
    (hactor : s.world.manager.actors[machineId]? = some actor) :
    Touches score s (.ask machineId message)
      (s.world.manage (s.world.ask s.world.now machineId message).2)

/-- A step keeps a node bookkept and touches its actors in one of the known ways. -/
theorem Bookkept.step {P A : Type} [SerdeJson] [DecidableEq P] [PeerId P] [Multiaddr A]
    {score : Score P} {s t : Node P A} {l : Label P} (hs : s.Bookkept score)
    (h : Steps score s l t) : t.Bookkept score ∧ Touches score s l t.world := by
  have hsound := (hs.sound.step (specsSatisfy_true s l) h).1
  -- The handler has not moved, and the actors are as before.
  have hframe : t.world.manager.actors = s.world.manager.actors →
      (∀ task, t.running = some task → s.running = some task) → t.Bookkept score := by
    intro hactors hrunning
    refine ⟨hsound, ?_, ?_⟩
    · intro id a hget
      rw [hactors] at hget
      exact hs.wellFormed id a hget
    · intro message program hrun
      exact (hs.running message program (hrunning _ hrun)).interfere trivial
  cases h with
  | commit machineId specJson =>
    obtain ⟨etcd, watch, heq⟩ := commit_frame machineId specJson s
    rw [heq] at hsound hframe ⊢
    exact ⟨hframe rfl (fun _ => id), .alone rfl rfl⟩
  | openWatch hw => exact ⟨hframe rfl (fun _ => id), .alone rfl rfl⟩
  | forwardEvent hw =>
    have hactors : ∀ (s' : Node P A) message,
        (s'.send message).world.manager.actors = s'.world.manager.actors := by simp
    exact ⟨hframe (hactors _ _) (by simp), .alone rfl (hactors _ _)⟩
  | loseWatch hw => exact ⟨hframe rfl (fun _ => id), .alone rfl rfl⟩
  | discover hd =>
    have hserved : s.served l = none := by cases hd <;> rfl
    exact ⟨hframe rfl (fun _ => id), .alone hserved rfl⟩
  | bridgeReceive hb hpeers => exact ⟨hframe rfl (fun _ => id), .alone rfl rfl⟩
  | @bridgeAsk peers hb =>
    have hactors : (applyTopology peers s.world).manager.actors = s.world.manager.actors := by
      unfold applyTopology
      split_ifs <;> rfl
    exact ⟨hframe hactors (fun _ => id), .alone rfl hactors⟩
  | bridgeNotify hb => exact ⟨hframe rfl (fun _ => id), .alone rfl rfl⟩
  | listen hn =>
    exact ⟨hframe (by simp) (by simp), .alone rfl (by simp)⟩
  | sync hsignal => exact ⟨hframe (by simp) (by simp), .alone rfl (by simp)⟩
  | @handle machineIds message mailbox hrunning hmailbox halive hkeys =>
    refine ⟨⟨hsound, hs.wellFormed, ?_⟩, .alone rfl rfl⟩
    intro m program hrun
    obtain ⟨rfl, rfl⟩ := Prod.mk.inj (Option.some.inj hrun)
    exact message.handler_keeps score machineIds s.world
  | @advance message op next result world hrunning hexec =>
    have hmanaged := (hs.sound.advance hrunning hexec).mono (fun _ => trivial)
    obtain ⟨hkeeps, hsafe⟩ := (hs.running message _ hrunning).advance hexec
    refine ⟨⟨hsound, ?_, ?_⟩, .operation rfl hmanaged hkeeps⟩
    · intro id a' hget
      obtain ⟨a, ha, hstate, hbooking⟩ | ⟨hstate, hbooking⟩ := hkeeps id a' hget
      · exact (hs.wellFormed id a ha).congr hstate hbooking
      · exact ⟨Or.inl hstate, by simp [hstate, hbooking]⟩
    · intro m program hrun
      obtain ⟨rfl, rfl⟩ := Prod.mk.inj (Option.some.inj hrun)
      exact hsafe
  | panic => exact ⟨hframe rfl (by simp), .alone rfl rfl⟩
  | finish listenerAsking hrunning => exact ⟨hframe rfl (by simp), .alone rfl rfl⟩
  | ask machineId message hm =>
    obtain ⟨actor, hactor⟩ := Option.isSome_iff_exists.mp
      (Std.ExtTreeMap.mem_iff_isSome_getElem?.mp hm)
    refine ⟨⟨hsound, ?_, ?_⟩, .served message hactor⟩
    · intro id a' hget
      by_cases hid : id = machineId
      · subst hid
        simp only [World.manage_toManaging, Managing.ask, hactor,
          Std.ExtTreeMap.getElem?_insert_self] at hget
        obtain rfl := Option.some.inj hget
        exact (Acting.handle_progress s.world.now ⟨actor, s.world.events⟩
          (hs.wellFormed id actor hactor) message).wellFormed
      · rw [World.manage_toManaging, Managing.ask_actors_of_ne _ _ _ hid] at hget
        exact hs.wellFormed id a' hget
    · intro m program hrun
      exact (hs.running m program hrun).interfere trivial
  | tick now => exact ⟨hframe rfl (fun _ => id), .alone rfl rfl⟩

theorem served_ask {P A : Type} [SerdeJson] {s : Node P A} {machineId : String}
    {actor : MachineActor} (hactor : s.world.manager.actors[machineId]? = some actor)
    (message : ActorMessage) :
    s.served (.ask machineId message) =
      (bookingStep (message, (Acting.handle s.world.now ⟨actor, s.world.events⟩ message).1)).map
        (fun step => (machineId, step)) := by
  simp [served, Managing.ask, hactor]

/-- An actor that a step leaves keeps the booking that it holds, unless the step
ends it. -/
theorem Touches.holds {P A : Type} [SerdeJson] [DecidableEq P] [PeerId P] {score : Score P}
    {s : Node P A} {l : Label P} {w : World P} (h : Touches score s l w) {machineId b : String}
    {a : MachineActor} (ha : s.world.manager.actors[machineId]? = some a) (hb : a.Holds b)
    (hserved : s.served l ≠ some (machineId, .deprovisioned b))
    (hmem : machineId ∈ w.manager.actors) :
    ∃ a', w.manager.actors[machineId]? = some a' ∧ a'.Holds b := by
  obtain ⟨a', ha'⟩ := Option.isSome_iff_exists.mp
    (Std.ExtTreeMap.mem_iff_isSome_getElem?.mp hmem)
  refine ⟨a', ha', ?_⟩
  cases h with
  | alone _ hactors =>
    rw [hactors, ha] at ha'
    obtain rfl := Option.some.inj ha'
    exact hb
  | operation _ hmanaged hkeeps => exact hmanaged.holds hkeeps ha hb ha'
  | @served id message actor hactor =>
    rw [served_ask hactor] at hserved
    by_cases hid : machineId = id
    · subst hid
      rw [ha] at hactor
      obtain rfl := Option.some.inj hactor
      simp only [World.manage_toManaging, Managing.ask, ha,
        Std.ExtTreeMap.getElem?_insert_self] at ha'
      obtain rfl := Option.some.inj ha'
      obtain ⟨-, hholds⟩ | hstep := Acting.handle_holds s.world.now ⟨a, s.world.events⟩ hb message
      · exact hholds
      · rw [hstep] at hserved
        exact absurd rfl hserved
    · rw [World.manage_toManaging, Managing.ask_actors_of_ne _ _ _ hid, ha] at ha'
      obtain rfl := Option.some.inj ha'
      exact hb

/-- A provision succeeds on an actor without booking, which then holds it. -/
theorem Touches.provisioned {P A : Type} [SerdeJson] [DecidableEq P] [PeerId P]
    {score : Score P} {s : Node P A} {l : Label P} {w : World P} (h : Touches score s l w)
    (hs : s.Bookkept score) {machineId b : String}
    (hserved : s.served l = some (machineId, .provisioned b)) :
    (∃ a, s.world.manager.actors[machineId]? = some a ∧ a.currentBooking = none) ∧
      ∃ a', w.manager.actors[machineId]? = some a' ∧ a'.Holds b := by
  cases h with
  | alone hnone => simp [hnone] at hserved
  | operation hnone => simp [hnone] at hserved
  | @served id message actor hactor =>
    rw [served_ask hactor] at hserved
    obtain ⟨step, hstep, hpair⟩ := Option.map_eq_some_iff.mp hserved
    obtain ⟨rfl, rfl⟩ := Prod.mk.inj hpair
    obtain ⟨hnone, hholds⟩ :=
      Acting.handle_provisioned (hs.wellFormed id actor hactor) hstep
    refine ⟨⟨actor, hactor, hnone⟩, _, ?_, hholds⟩
    simp [Managing.ask, hactor]

theorem mem_stopped {P A : Type} {s t : Node P A} {machineId : String} :
    machineId ∈ s.stopped t ↔
      machineId ∈ s.world.manager.actors ∧ machineId ∉ t.world.manager.actors := by
  simp [stopped]

theorem bookkept_start {P A : Type} [SerdeJson] [DecidableEq P] [PeerId P] (score : Score P)
    {clusterId : String} {localPeerId : P} {localAddr : A} {logDebug : Bool} {nodeId : String}
    {etcd : Etcd} {now : ℤ} {s : Node P A}
    (h : start clusterId localPeerId localAddr logDebug nodeId etcd now = some s) :
    s.Bookkept score := by
  have hsound := sound_start score (fun _ _ => True) (fun _ _ _ => trivial) h
  obtain ⟨coordinator, -, rfl⟩ := Option.map_eq_some_iff.mp h
  refine ⟨hsound, ?_, by simp⟩
  intro machineId a hget
  simp [MachineActorManagerActor.new] at hget

end Node

/-- What the history of a cluster records. -/
inductive ClusterRecord (ι : Type) where
  /-- An actor of a node has served a provision or a deprovision. -/
  | served (node : ι) (machineId : String) (step : BookingStep)
  /-- A node has an actor of the machine no longer. -/
  | stopped (node : ι) (machineId : String)
  /-- The machine is deleted from etcd. -/
  | deleted (machineId : String)
  deriving DecidableEq

/-- The nodes of a cluster and its history. -/
structure Cluster (ι P A : Type) where
  nodes : ι → Node P A
  log : List (ClusterRecord ι)

/-- A write to etcd, which every node watches, or a step of one node. -/
inductive ClusterLabel (ι P : Type) where
  | commit (machineId : String) (specJson : Option String)
  | node (i : ι) (l : Node.Label P)

namespace Cluster

/-- What a step of one node adds to the history. -/
def records {ι P A : Type} [SerdeJson] (i : ι) (s : Node P A) (l : Node.Label P) (t : Node P A) :
    List (ClusterRecord ι) :=
  ((s.served l).map (fun served => .served i served.1 served.2)).toList ++
    (s.stopped t).map (.stopped i)

/-- One step of the cluster. -/
def step {ι P A : Type} [DecidableEq ι] [SerdeJson] [DecidableEq P] [PeerId P] [Multiaddr A]
    (score : Score P) (c : Cluster ι P A) : ClusterLabel ι P → Option (Cluster ι P A)
  | .commit machineId specJson => some {
      nodes := fun i => (c.nodes i).commit machineId specJson
      log := c.log ++ if specJson = none then [.deleted machineId] else [] }
  | .node _ (.commit _ _) => none
  | .node i l => ((c.nodes i).step score l).map (fun t => {
      nodes := Function.update c.nodes i t
      log := c.log ++ records i (c.nodes i) l t })

/-- All nodes as they are initialized, over the same content of etcd. -/
def Starts {ι P A : Type} [PeerId P] (c : Cluster ι P A) : Prop :=
  ∃ etcd : Etcd, (∀ i, ∃ clusterId localPeerId localAddr logDebug nodeId now,
    Node.start clusterId localPeerId localAddr logDebug nodeId etcd now = some (c.nodes i)) ∧
    c.log = []

/-- Between two successful provisions of a machine, on whichever nodes, either the
first booking is ended or the machine is deleted. -/
def NoDoubleBooking {ι : Type} (log : List (ClusterRecord ι)) : Prop :=
  ∀ before i machineId b between j b' after,
    log = before ++ ClusterRecord.served i machineId (.provisioned b) ::
      between ++ ClusterRecord.served j machineId (.provisioned b') :: after →
    (∃ k, .served k machineId (.deprovisioned b) ∈ between) ∨ .deleted machineId ∈ between

/-- A provision on a node has succeeded, and since then neither has its
deprovision there nor has the node lost the actor. -/
def Outstanding {ι : Type} (log : List (ClusterRecord ι)) (i : ι) (machineId b : String) : Prop :=
  ∃ before after, log = before ++ ClusterRecord.served i machineId (.provisioned b) :: after ∧
    .served i machineId (.deprovisioned b) ∉ after ∧ .stopped i machineId ∉ after

/-- What is outstanding after new records is outstanding among them, or before
and not closed by them. -/
theorem Outstanding.append {ι : Type} {log new : List (ClusterRecord ι)} {i : ι}
    {machineId b : String} (h : Outstanding (log ++ new) i machineId b) :
    Outstanding new i machineId b ∨ (Outstanding log i machineId b ∧
      .served i machineId (.deprovisioned b) ∉ new ∧ .stopped i machineId ∉ new) := by
  obtain ⟨before, after, heq, hserved, hstopped⟩ := h
  obtain ⟨more, rfl, hnew⟩ | ⟨more, hlog, hmore⟩ := List.append_eq_append_iff.mp heq
  · exact Or.inl ⟨more, after, hnew, hserved, hstopped⟩
  · cases more with
    | nil => exact Or.inl ⟨[], after, hmore.symm, hserved, hstopped⟩
    | cons record more =>
      rw [List.cons_append] at hmore
      obtain ⟨rfl, rfl⟩ := List.cons.inj hmore
      rw [List.mem_append, not_or] at hserved hstopped
      exact Or.inr ⟨⟨before, more, hlog, hserved.1, hstopped.1⟩, hserved.2, hstopped.2⟩

theorem mem_records_served {ι P A : Type} [SerdeJson] {i j : ι} {s t : Node P A}
    {l : Node.Label P} {machineId : String} {step : BookingStep} :
    .served j machineId step ∈ records i s l t ↔ j = i ∧ s.served l = some (machineId, step) := by
  simp only [records, List.mem_append, Option.mem_toList, Option.map_eq_some_iff, List.mem_map,
    reduceCtorEq, and_false, exists_false, or_false, ClusterRecord.served.injEq]
  constructor
  · rintro ⟨⟨id, step'⟩, hserved, rfl, rfl, rfl⟩
    exact ⟨rfl, hserved⟩
  · rintro ⟨rfl, hserved⟩
    exact ⟨(machineId, step), hserved, rfl, rfl, rfl⟩

theorem mem_records_stopped {ι P A : Type} [SerdeJson] {i j : ι} {s t : Node P A}
    {l : Node.Label P} {machineId : String} :
    .stopped j machineId ∈ records i s l t ↔ j = i ∧ machineId ∈ s.stopped t := by
  simp only [records, List.mem_append, Option.mem_toList, Option.map_eq_some_iff, List.mem_map,
    reduceCtorEq, and_false, exists_false, false_or, ClusterRecord.stopped.injEq]
  constructor
  · rintro ⟨id, hmem, rfl, rfl⟩
    exact ⟨rfl, hmem⟩
  · rintro ⟨rfl, hmem⟩
    exact ⟨machineId, hmem, rfl, rfl⟩

/-- A step of the cluster is a write to etcd or a step of one node. -/
theorem step_cases {ι P A : Type} [DecidableEq ι] [SerdeJson] [DecidableEq P] [PeerId P]
    [Multiaddr A] {score : Score P} {c c' : Cluster ι P A} {l : ClusterLabel ι P}
    (h : c.step score l = some c') :
    (∃ machineId specJson new, l = .commit machineId specJson ∧
      (∀ r ∈ new, r = .deleted machineId) ∧
      c' = ⟨fun i => (c.nodes i).commit machineId specJson, c.log ++ new⟩) ∨
    ∃ i l' t, l = .node i l' ∧ Node.Steps score (c.nodes i) l' t ∧
      c' = ⟨Function.update c.nodes i t, c.log ++ records i (c.nodes i) l' t⟩ := by
  unfold step at h
  split at h
  · rename_i machineId specJson
    refine Or.inl ⟨machineId, specJson, _, rfl, ?_, (Option.some.inj h).symm⟩
    intro r hr
    split_ifs at hr with hspec
    · exact List.mem_singleton.mp hr
    · simp at hr
  · cases h
  · rename_i i l' _
    obtain ⟨t, ht, heq⟩ := Option.map_eq_some_iff.mp h
    exact Or.inr ⟨i, l', t, rfl, Node.step_cases ht, heq.symm⟩

/-- Every node is bookkept, and the actor that took an outstanding booking holds
it. -/
structure Booked {ι P A : Type} [SerdeJson] [DecidableEq P] [PeerId P] (score : Score P)
    (c : Cluster ι P A) : Prop where
  bookkept : ∀ i, (c.nodes i).Bookkept score
  held : ∀ i machineId b, Outstanding c.log i machineId b →
    ∃ a, (c.nodes i).world.manager.actors[machineId]? = some a ∧ a.Holds b

theorem Booked.start {ι P A : Type} [SerdeJson] [DecidableEq P] [PeerId P] {score : Score P}
    {c : Cluster ι P A} (h : c.Starts) : c.Booked score := by
  obtain ⟨etcd, hnodes, hlog⟩ := h
  constructor
  · intro i
    obtain ⟨_, _, _, _, _, _, hstart⟩ := hnodes i
    exact Node.bookkept_start score hstart
  · intro i machineId b hout
    obtain ⟨before, after, heq, -, -⟩ := hout
    simp [hlog] at heq

/-- A write to etcd leaves all actors and the bookings on record. -/
theorem Booked.commit {ι P A : Type} [SerdeJson] [DecidableEq P] [PeerId P] [Multiaddr A]
    {score : Score P} {c : Cluster ι P A} (hc : c.Booked score) (machineId : String)
    (specJson : Option String) {new : List (ClusterRecord ι)}
    (hnew : ∀ r ∈ new, r = .deleted machineId) :
    Booked score (⟨fun i => (c.nodes i).commit machineId specJson, c.log ++ new⟩ :
      Cluster ι P A) := by
  constructor
  · intro i
    exact ((hc.bookkept i).step (.commit machineId specJson)).1
  · intro i id b hout
    obtain hout | ⟨hout, -, -⟩ := hout.append
    · obtain ⟨before, after, heq, -, -⟩ := hout
      have hmem : .served i id (.provisioned b) ∈ new := by rw [heq]; simp
      have hdeleted := hnew _ hmem
      cases hdeleted
    · obtain ⟨a, ha, hb⟩ := hc.held i id b hout
      refine ⟨a, ?_, hb⟩
      show ((c.nodes i).commit machineId specJson).world.manager.actors[id]? = some a
      obtain ⟨etcd, watch, heq⟩ := Node.commit_frame machineId specJson (c.nodes i)
      rw [heq]
      exact ha

/-- A step of one node keeps the bookings on record with their actors. -/
theorem Booked.node {ι P A : Type} [DecidableEq ι] [SerdeJson] [DecidableEq P] [PeerId P]
    [Multiaddr A] {score : Score P} {c : Cluster ι P A} (hc : c.Booked score) {i : ι}
    {l : Node.Label P} {t : Node P A} (h : Node.Steps score (c.nodes i) l t) :
    Booked score (⟨Function.update c.nodes i t, c.log ++ records i (c.nodes i) l t⟩ :
      Cluster ι P A) := by
  obtain ⟨ht, htouches⟩ := (hc.bookkept i).step h
  constructor
  · intro j
    show (Function.update c.nodes i t j).Bookkept score
    by_cases hj : j = i
    · rw [hj, Function.update_self]
      exact ht
    · rw [Function.update_of_ne hj]
      exact hc.bookkept j
  · intro j id b hout
    show ∃ a, (Function.update c.nodes i t j).world.manager.actors[id]? = some a ∧ a.Holds b
    obtain hout | ⟨hout, hserved, hstopped⟩ := hout.append
    · obtain ⟨before, after, heq, -, -⟩ := hout
      have hmem : .served j id (.provisioned b) ∈ records i (c.nodes i) l t := by rw [heq]; simp
      obtain ⟨rfl, hprovisioned⟩ := mem_records_served.mp hmem
      rw [Function.update_self]
      exact (htouches.provisioned (hc.bookkept j) hprovisioned).2
    · obtain ⟨a, ha, hb⟩ := hc.held j id b hout
      by_cases hj : j = i
      · subst hj
        rw [Function.update_self]
        rw [mem_records_served, not_and] at hserved
        rw [mem_records_stopped, not_and, Node.mem_stopped, not_and, not_not] at hstopped
        have hmem : id ∈ (c.nodes j).world.manager.actors :=
          (Std.ExtTreeMap.getElem?_eq_some_iff.mp ha).fst
        exact htouches.holds ha hb (hserved rfl) (hstopped rfl hmem)
      · rw [Function.update_of_ne hj]
        exact ⟨a, ha, hb⟩

theorem Booked.step {ι P A : Type} [DecidableEq ι] [SerdeJson] [DecidableEq P] [PeerId P]
    [Multiaddr A] {score : Score P} {c c' : Cluster ι P A} {l : ClusterLabel ι P}
    (hc : c.Booked score) (h : c.step score l = some c') : c'.Booked score := by
  obtain ⟨machineId, specJson, new, -, hnew, rfl⟩ | ⟨i, l', t, -, hstep, rfl⟩ := step_cases h
  · exact hc.commit machineId specJson hnew
  · exact hc.node hstep

/-- While a provision is outstanding on a node, no provision of the machine succeeds
there, nor on a node that has no actor for the machine. -/
theorem no_double_booking {ι P A : Type} [DecidableEq ι] [SerdeJson] [DecidableEq P] [PeerId P]
    [Multiaddr A] (score : Score P) {c₀ c c' : Cluster ι P A}
    {labels : List (ClusterLabel ι P)} (hstart : c₀.Starts)
    (hrun : Run (StepOf (Cluster.step score)) c₀ labels c) {i : ι} {machineId b : String}
    (hout : Outstanding c.log i machineId b)
    {l : ClusterLabel ι P} (hstep : c.step score l = some c') :
    ∃ new, c'.log = c.log ++ new ∧
      ∀ j b', j = i ∨ machineId ∉ (c.nodes j).world.manager.actors →
        .served j machineId (.provisioned b') ∉ new := by
  have hc : c.Booked score :=
    hrun.invariant (fun _ _ _ hs hst => Booked.step hs hst) (Booked.start hstart)
  obtain ⟨id, specJson, new, -, hnew, rfl⟩ | ⟨j, l', t, -, hsteps, rfl⟩ := step_cases hstep
  · refine ⟨new, rfl, ?_⟩
    intro j b' _ hmem
    have hdeleted := hnew _ hmem
    cases hdeleted
  · refine ⟨records j (c.nodes j) l' t, rfl, ?_⟩
    intro k b' hnode hmem
    obtain ⟨rfl, hserved⟩ := mem_records_served.mp hmem
    obtain ⟨-, htouches⟩ := (hc.bookkept k).step hsteps
    obtain ⟨⟨a, ha, hnone⟩, -⟩ := htouches.provisioned (hc.bookkept k) hserved
    obtain rfl | hnoactor := hnode
    · obtain ⟨a', ha', hholds⟩ := hc.held k machineId b hout
      rw [ha] at ha'
      obtain rfl := Option.some.inj ha'
      have hbooking := hholds.booking
      rw [hnone] at hbooking
      cases hbooking
    · have hmem : machineId ∈ (c.nodes k).world.manager.actors :=
        (Std.ExtTreeMap.getElem?_eq_some_iff.mp ha).fst
      exact hnoactor hmem

/-- A node converges on the given peers, of which it reads those that are registered
before it, syncs the one machine, which it owns, and its actor is asked to provision
it. -/
def bookingRun (registered peers : List Base58Text) (booking : String) :
    List (Node.Label Base58Text) :=
  Node.Label.startConverge (registered.map
      (fun p => KeyValue.ofText (peerKey "lab" p) otherMetadata.toJson.text)) ::
    List.replicate registered.length Node.Label.convergeKv ++
    ([.convergeDone peers, .signalConvergence, .bridgeReceive, .bridgeAsk, .bridgeNotify, .sync,
      .handle []] : List (Node.Label Base58Text)) ++
    List.replicate 6 Node.Label.advance ++
    ([.finish, .ask "m1" (.provisionMachine booking ⟨"image", none, ∅⟩)] :
      List (Node.Label Base58Text))

/-- A node sees a peer join or leave and rebalances the one machine. -/
def topologyRun (p : Base58Text) (metadata : Option String) (peers : List Base58Text) :
    List (Node.Label Base58Text) :=
  [.watchResponse [Etcd.event ⟨peerKey "lab" p, metadata⟩], .processEvent peers,
    .bridgeReceive, .bridgeAsk, .bridgeNotify, .listen, .handle ["m1"], .advance, .advance,
    .advance, .finish]

/-- A booked machine of a cluster of two whose nodes both have an actor for it: the
second provision on the first node is refused, though the other node would take it. -/
theorem no_double_booking_refused :
    let spec : Json := .object [("adminState", .string "available"), ("cluster", .string "lab")]
    let _ : SerdeJson := SerdeJson.knowing [spec, otherMetadata.toJson]
    ∃ (c₀ c c' : Cluster Bool Base58Text Ip4Text) (labels : List (ClusterLabel Bool Base58Text)),
      c₀.Starts ∧ Run (StepOf (step (fun _ _ => 7))) c₀ labels c ∧
      Outstanding c.log false "m1" "b1" ∧ "m1" ∈ (c.nodes true).world.manager.actors ∧
      c.step (fun _ _ => 7)
        (.node false (.ask "m1" (.provisionMachine "b2" ⟨"image", none, ∅⟩))) = some c' ∧
      ∃ new, c'.log = c.log ++ new ∧
        ∀ j b', j = false ∨ "m1" ∉ (c.nodes j).world.manager.actors →
          .served j "m1" (.provisioned b') ∉ new := by
  intro spec _
  let a := peerOf "12D3KooWAAAAAAAAAAAAAAAAAAAAAAAAAAAAAAAAAAAAAAAAAAAA"
  let b := peerOf "12D3KooWBBBBBBBBBBBBBBBBBBBBBBBBBBBBBBBBBBBBBBBBBBBB"
  let score : Score Base58Text := fun _ _ => 7
  let overlapping : List (ClusterLabel Bool Base58Text) :=
    .commit "m1" (some spec.text) :: (bookingRun [] [a] "b1").map (.node false) ++
      (bookingRun [a] [a, b] "b2").dropLast.map (.node true)
  obtain ⟨s, hs, s', hs', c, hrun, hlog, hactor, c', hstep⟩ :
      ∃ s ∈ Node.start "lab" a (Ip4Text.mk "/ip4/10.0.0.1/tcp/5000") false "node-a" ∅ 0,
      ∃ s' ∈ Node.start "lab" b (Ip4Text.mk "/ip4/10.0.0.2/tcp/5000") false "node-b" ∅ 0,
      ∃ c ∈ overlapping.foldlM (step score)
        (⟨fun i => if i then s' else s, []⟩ : Cluster Bool Base58Text Ip4Text),
      c.log = [.served false "m1" (.provisioned "b1")] ∧
        "m1" ∈ (c.nodes true).world.manager.actors ∧
        ∃ c' ∈ c.step score
          (.node false (.ask "m1" (.provisionMachine "b2" ⟨"image", none, ∅⟩))), True := by
    decide +kernel
  have hstart : (⟨fun i => if i then s' else s, []⟩ : Cluster Bool Base58Text Ip4Text).Starts := by
    refine ⟨∅, ?_, rfl⟩
    intro i
    cases i with
    | false => exact ⟨_, _, _, _, _, _, hs⟩
    | true => exact ⟨_, _, _, _, _, _, hs'⟩
  have hout : Outstanding c.log false "m1" "b1" := ⟨[], [], hlog, by simp, by simp⟩
  exact ⟨_, c, c', _, hstart, Run.of_foldlM hrun, hout, hactor, hstep.1,
    no_double_booking score hstart (Run.of_foldlM hrun) hout hstep.1⟩

/-- A machine is booked twice: by two nodes that both have an actor for it, and by
one node whose actor a rebalance has stopped in between. -/
theorem double_booking :
    let spec : Json := .object [("adminState", .string "available"), ("cluster", .string "lab")]
    let _ : SerdeJson := SerdeJson.knowing [spec, otherMetadata.toJson]
    (∃ (c₀ c : Cluster Bool Base58Text Ip4Text) (labels : List (ClusterLabel Bool Base58Text)),
      c₀.Starts ∧ Run (StepOf (step (fun _ _ => 7))) c₀ labels c ∧ ¬NoDoubleBooking c.log ∧
      ∀ i, .stopped i "m1" ∉ c.log) ∧
    ∃ (c₀ c : Cluster Bool Base58Text Ip4Text) (labels : List (ClusterLabel Bool Base58Text)),
      c₀.Starts ∧ Run (StepOf (step (fun _ _ => 7))) c₀ labels c ∧ ¬NoDoubleBooking c.log ∧
      "m1" ∉ (c.nodes true).world.manager.actors := by
  intro spec _
  let a := peerOf "12D3KooWAAAAAAAAAAAAAAAAAAAAAAAAAAAAAAAAAAAAAAAAAAAA"
  let b := peerOf "12D3KooWBBBBBBBBBBBBBBBBBBBBBBBBBBBBBBBBBBBBBBBBBBBB"
  let score : Score Base58Text := fun _ _ => 7
  let overlapping : List (ClusterLabel Bool Base58Text) :=
    .commit "m1" (some spec.text) :: (bookingRun [] [a] "b1").map (.node false) ++
      (bookingRun [a] [a, b] "b2").map (.node true)
  let transferring : List (ClusterLabel Bool Base58Text) :=
    .commit "m1" (some spec.text) :: (bookingRun [] [a] "b1" ++
      topologyRun b (some otherMetadata.toJson.text) [a, b] ++ topologyRun b none [a] ++
      [Node.Label.ask "m1" (.provisionMachine "b2" ⟨"image", none, ∅⟩)]).map (.node false)
  obtain ⟨s, hs, s', hs', c₁, hrun₁, hlog₁, c₂, hrun₂, hlog₂, halone⟩ :
      ∃ s ∈ Node.start "lab" a (Ip4Text.mk "/ip4/10.0.0.1/tcp/5000") false "node-a" ∅ 0,
      ∃ s' ∈ Node.start "lab" b (Ip4Text.mk "/ip4/10.0.0.2/tcp/5000") false "node-b" ∅ 0,
      ∃ c₁ ∈ overlapping.foldlM (step score)
        (⟨fun i => if i then s' else s, []⟩ : Cluster Bool Base58Text Ip4Text),
      c₁.log = [.served false "m1" (.provisioned "b1"), .served true "m1" (.provisioned "b2")] ∧
      ∃ c₂ ∈ transferring.foldlM (step score)
        (⟨fun i => if i then s' else s, []⟩ : Cluster Bool Base58Text Ip4Text),
      c₂.log = [.served false "m1" (.provisioned "b1"), .stopped false "m1",
        .served false "m1" (.provisioned "b2")] ∧
        "m1" ∉ (c₂.nodes true).world.manager.actors := by
    decide +kernel
  have hstart : (⟨fun i => if i then s' else s, []⟩ : Cluster Bool Base58Text Ip4Text).Starts := by
    refine ⟨∅, ?_, rfl⟩
    intro i
    cases i with
    | false => exact ⟨_, _, _, _, _, _, hs⟩
    | true => exact ⟨_, _, _, _, _, _, hs'⟩
  refine ⟨⟨_, c₁, _, hstart, Run.of_foldlM hrun₁, ?_, ?_⟩,
    ⟨_, c₂, _, hstart, Run.of_foldlM hrun₂, ?_, halone⟩⟩
  · intro hclaim
    have hended := hclaim [] false "m1" "b1" [] true "b2" [] hlog₁
    simp at hended
  · intro i
    rw [hlog₁]
    simp
  · intro hclaim
    have hended := hclaim [] false "m1" "b1" [.stopped false "m1"] false "b2" [] hlog₂
    simp at hended

end Cluster
end Neolaas
