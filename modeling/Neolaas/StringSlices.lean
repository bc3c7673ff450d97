import Neolaas.DiscoveryController
import Neolaas.JoinLeave
import Neolaas.RebalanceReplay

/-!
# The slices of peer texts

Log lines and events shorten the texts of peers by slicing them from byte 46. The
coordinator does so with the owner of every machine that it looks up, the watch
with every peer that it names, and a put with the owner that takes a machine
over, for which a placeholder stands when there is no peer at all.
-/
namespace Neolaas
open AtomicProgram LabelledRuns PeerId

namespace World

/-- The text of the local peer can be shortened. -/
def ShortensLocal {P : Type} [PeerId P] (w : World P) : Prop :=
  (short (toBase58 w.manager.localPeerId)).isSome = true

theorem ShortensLocal.interfere {P : Type} [PeerId P] {Valid : String → String → Prop}
    {w w' : World P} (h : w.ShortensLocal) (hr : Interferes Valid w w') : w'.ShortensLocal := by
  unfold ShortensLocal
  rw [hr.localPeerId]
  exact h

/-- A lookup finds no owner whose text is too short. -/
def OwnerShortens {P : Type} [PeerId P] (score : Score P) (w : World P) : Op P → Prop
  | .lookupMachine machineId =>
    w.coordinatorAlive = true → w.coordinator.hasher.ownerShortens score machineId = true
  | _ => True

/-- Outside of a rebalance, a lookup of a machine with an actor finds an owner. -/
def OwnerFound {P : Type} [PeerId P] (score : Score P) (message : ManagerMessage) (w : World P) :
    Op P → Prop
  | .lookupMachine machineId => message ≠ .rebalanceActors → w.coordinatorAlive = true →
      machineId ∈ w.manager.actors → w.coordinator.hasher.lookup score machineId ≠ none
  | _ => True

end World

namespace Program
open World

/-- Handlers run against interference, and their lookups meet both conditions. -/
def Slices {P α : Type} [SerdeJson] [DecidableEq P] [PeerId P] (score : Score P)
    (message : ManagerMessage) (Q : α → World P → Prop) : Program P α → World P → Prop :=
  Unstuck (managerSetting score (fun _ _ => True) True)
    (fun op w => w.OwnerShortens score op ∧ w.OwnerFound score message op) Q

theorem slices_read {P β : Type} [SerdeJson] [DecidableEq P] [PeerId P] {score : Score P}
    {message : ManagerMessage} {Q : β → World P → Prop}
    {f : MachineActorManagerActor P → Program P β} {w : World P}
    (h : ∀ w', Interferes (fun _ _ => True) w w' → Slices score message Q (f w'.manager) w') :
    Slices score message Q (read >>= f) w := by
  apply Unstuck.perform_bind
  intro w' hr _
  exact ⟨w'.manager, w', rfl, h w' hr⟩

theorem slices_lookupMachine {P β : Type} [SerdeJson] [DecidableEq P] [PeerId P]
    {score : Score P} {message : ManagerMessage} {Q : β → World P → Prop} {machineId : String}
    {f : Option (LookupResult P) → Program P β} {w : World P}
    (h : ∀ w', Interferes (fun _ _ => True) w w' →
      w'.OwnerShortens score (.lookupMachine machineId) →
      w'.OwnerFound score message (.lookupMachine machineId) →
      Slices score message Q (f (w'.askLookup score machineId).1)
        (w'.askLookup score machineId).2) :
    Slices score message Q (lookupMachine machineId >>= f) w := by
  apply Unstuck.perform_bind
  intro w' hr hop
  exact ⟨_, _, rfl, h w' hr hop.1 hop.2⟩

theorem slices_modify_bind {P β : Type} [SerdeJson] [DecidableEq P] [PeerId P] {score : Score P}
    {message : ManagerMessage} {Q : β → World P → Prop}
    {g : ℤ → Managing P → Option (Managing P)} {f : Unit → Program P β} {w : World P}
    (h : ∀ w', Interferes (fun _ _ => True) w w' → ∃ m, g w'.now w'.toManaging = some m ∧
      Slices score message Q (f ()) (w'.manage m)) :
    Slices score message Q (modify g >>= f) w := by
  apply Unstuck.perform_bind
  intro w' hr _
  obtain ⟨m, hm, hnext⟩ := h w' hr
  refine ⟨(), w'.manage m, ?_, hnext⟩
  show (g w'.now w'.toManaging).map _ = _
  rw [hm]
  rfl

theorem slices_modify {P : Type} [SerdeJson] [DecidableEq P] [PeerId P] {score : Score P}
    {message : ManagerMessage} {Q : Unit → World P → Prop}
    {g : ℤ → Managing P → Option (Managing P)} {w : World P}
    (h : ∀ w', Interferes (fun _ _ => True) w w' → ∃ m, g w'.now w'.toManaging = some m ∧
      ∀ w'', Interferes (fun _ _ => True) (w'.manage m) w'' → Q () w'') :
    Slices score message Q (modify g) w := by
  intro w' hr _
  obtain ⟨m, hm, hnext⟩ := h w' hr
  refine ⟨(), w'.manage m, ?_, hnext⟩
  show (g w'.now w'.toManaging).map _ = _
  rw [hm]
  rfl

/-- A spawn goes through when the text of the local peer can be shortened. -/
theorem spawnMachineActor_slices {P : Type} [SerdeJson] [PeerId P] (now : ℤ)
    (machineId specJson : String) (self : Managing P)
    (h : (short (toBase58 self.manager.localPeerId)).isSome = true) :
    ∃ m, self.spawnMachineActor now machineId specJson = some m ∧
      m.manager.localPeerId = self.manager.localPeerId := by
  obtain ⟨text, htext⟩ := Option.isSome_iff_exists.mp h
  unfold Managing.spawnMachineActor
  cases MachineActor.withNodeId now machineId specJson self.manager.nodeId with
  | none => exact ⟨self, rfl, rfl⟩
  | some actor =>
    rw [htext]
    exact ⟨self.addActor machineId actor, rfl, rfl⟩

/-- A transfer goes through when the texts of both owners can be shortened. -/
theorem transferOwnership_slices {P : Type} [PeerId P] (machineId : String)
    (result : LookupResult P) (self : Managing P) (p : P) (howner : result.ownerPeer = some p)
    (hlocal : (short (toBase58 self.manager.localPeerId)).isSome = true)
    (hp : (short (toBase58 p)).isSome = true) :
    ∃ m, self.transferOwnership machineId result = some m ∧
      m.manager.localPeerId = self.manager.localPeerId := by
  obtain ⟨previous, hprevious⟩ := Option.isSome_iff_exists.mp hlocal
  obtain ⟨new, hnew⟩ := Option.isSome_iff_exists.mp hp
  refine ⟨_, ?_, (Managing.stopMachineActor_sameCache machineId "ownership_transfer"
    (self.emit [.ownershipTransferred machineId previous new])).localPeerId⟩
  simp [Managing.transferOwnership, hprevious, howner, hnew]

theorem handleMachinePut_slices {P : Type} [SerdeJson] [DecidableEq P] [PeerId P]
    (score : Score P) (message : ManagerMessage) (hmessage : message ≠ .rebalanceActors)
    (machineId specJson : String) (w : World P) (h : w.ShortensLocal) :
    Slices score message (fun _ t => t.ShortensLocal) (handleMachinePut machineId specJson) w := by
  unfold handleMachinePut
  apply slices_modify_bind
  intro w₁ hr₁
  refine ⟨_, rfl, ?_⟩
  have hbefore : w₁.ShortensLocal := h.interfere hr₁
  have h₁ : (w₁.manage (w₁.cacheSpec machineId specJson)).ShortensLocal := hbefore
  generalize w₁.manage (w₁.cacheSpec machineId specJson) = v at h₁ ⊢
  apply slices_lookupMachine
  intro w₂ hr₂ hshortens hfound
  have h₂ := h₁.interfere hr₂
  cases hres : (w₂.askLookup score machineId).1 with
  | none =>
    rw [askLookup_none hres]
    exact Unstuck.pure (fun w₃ hr₃ =>
      ShortensLocal.interfere (w := { w₂ with coordinatorAlive := false }) h₂ hr₃)
  | some result =>
    obtain ⟨howner, hlocal, owner, heq⟩ := askLookup_some hres
    have halive : w₂.coordinatorAlive = true := by
      by_contra hdead
      simp [askLookup, hdead] at hres
    rw [heq]
    apply slices_read
    intro w₃ hr₃
    have h₃ : w₃.ShortensLocal := by
      unfold ShortensLocal
      rw [hr₃.localPeerId]
      exact h₂
    by_cases hown : result.isLocal = true
    · rw [if_pos hown]
      by_cases hactor : w₃.manager.actors.contains machineId = true
      · rw [if_pos hactor]
        apply slices_modify
        intro w₄ hr₄
        refine ⟨_, rfl, fun w₅ hr₅ => ?_⟩
        unfold ShortensLocal
        rw [hr₅.localPeerId, manage_toManaging, (Managing.ask_identity ..).1, hr₄.localPeerId]
        exact h₃
      · rw [if_neg hactor]
        apply slices_modify
        intro w₄ hr₄
        obtain ⟨m, hm, hsame⟩ := spawnMachineActor_slices w₄.now machineId specJson w₄.toManaging
          (h₃.interfere hr₄)
        refine ⟨m, hm, fun w₅ hr₅ => ?_⟩
        unfold ShortensLocal
        rw [hr₅.localPeerId, manage_toManaging, hsame, hr₄.localPeerId]
        exact h₃
    · rw [if_neg hown]
      by_cases hactor : w₃.manager.actors.contains machineId = true
      · rw [if_pos hactor]
        -- The machine had its actor at the lookup, so that the lookup found an owner.
        have hin : machineId ∈ w₂.manager.actors :=
          (hr₃.actors machineId).mp (Std.ExtTreeMap.contains_iff_mem.mp hactor)
        obtain ⟨p, hp⟩ := Option.ne_none_iff_exists'.mp (hfound hmessage halive hin)
        have htext := hshortens halive
        rw [RendezvousHasher.ownerShortens, hp, Option.all_some] at htext
        apply slices_modify
        intro w₄ hr₄
        obtain ⟨m, hm, hsame⟩ := transferOwnership_slices machineId result w₄.toManaging p
          (howner.trans hp) (h₃.interfere hr₄) htext
        refine ⟨m, hm, fun w₅ hr₅ => ?_⟩
        unfold ShortensLocal
        rw [hr₅.localPeerId, manage_toManaging, hsame, hr₄.localPeerId]
        exact h₃
      · rw [if_neg hactor]
        exact Unstuck.pure (fun w₄ hr₄ => h₃.interfere hr₄)

theorem syncAllMachines_slices {P : Type} [SerdeJson] [DecidableEq P] [PeerId P]
    (score : Score P) (w : World P) (h : w.ShortensLocal) :
    Slices score .syncAllMachines (fun _ t => t.ShortensLocal) syncAllMachines w := by
  unfold syncAllMachines
  apply Unstuck.perform_bind
  intro w₁ hr₁ _
  refine ⟨w₁.etcd.getPrefix machinesPrefix, w₁, rfl, ?_⟩
  have h₁ : w₁.ShortensLocal := h.interfere hr₁
  cases decodeMachines (w₁.etcd.getPrefix machinesPrefix) with
  | none => exact Unstuck.pure (fun w₂ hr₂ => h₁.interfere hr₂)
  | some machines =>
    apply Unstuck.bind
    refine (Unstuck.foldlM (fun (_ : List (String × String)) (_ : Unit) t => t.ShortensLocal)
      (fun _ _ _ _ ht hr => ht.interfere hr) ?_ h₁).mono ?_
    · intro machine _ _ t ht
      exact handleMachinePut_slices score .syncAllMachines (by decide) machine.1 machine.2 t ht
    · intro _ t ht
      exact Unstuck.pure (fun t' hr => ht.interfere hr)

theorem rebalanceActors_slices {P : Type} [SerdeJson] [DecidableEq P] [PeerId P]
    (score : Score P) (machineIds : List String) (w : World P) (h : w.ShortensLocal) :
    Slices score .rebalanceActors (fun _ _ => True) (rebalanceActors machineIds) w := by
  unfold rebalanceActors
  apply Unstuck.bind
  refine (Unstuck.foldlM (fun (_ : List String) (_ : List String × List (String × String)) t =>
    t.ShortensLocal) (fun _ _ _ _ ht hr => ht.interfere hr) ?_ h).mono ?_
  · intro machineId _ plan t ht
    unfold checkMachine
    apply slices_lookupMachine
    intro t₁ hr₁ _ _
    have h₁ : ShortensLocal (t₁.askLookup score machineId).2 := by
      unfold ShortensLocal
      rw [(askLookup_frame score machineId t₁).1]
      exact ht.interfere hr₁
    cases (t₁.askLookup score machineId).1 with
    | none => exact Unstuck.pure (fun t₂ hr₂ => h₁.interfere hr₂)
    | some result =>
      apply slices_read
      intro t₂ hr₂
      have h₂ := h₁.interfere hr₂
      have hpure : ∀ plan' : List String × List (String × String),
          Slices score .rebalanceActors (fun _ t => t.ShortensLocal) (pure plan') t₂ :=
        fun _ => Unstuck.pure (fun t₃ hr₃ => h₂.interfere hr₃)
      dsimp only
      split_ifs
      · cases t₂.manager.machineSpecs[machineId]? <;> exact hpure _
      · exact hpure _
      · exact hpure _
  · intro plan w₁ h₁
    apply Unstuck.bind
    refine (Unstuck.foldlM (fun (_ : List String) (_ : Unit) t => t.ShortensLocal)
      (fun _ _ _ _ ht hr => ht.interfere hr) ?_ h₁).mono ?_
    · intro machineId _ _ t ht
      apply slices_modify
      intro t₁ hr₁
      refine ⟨_, rfl, fun t₂ hr₂ => ?_⟩
      unfold ShortensLocal
      rw [hr₂.localPeerId, manage_toManaging, (Managing.stopMachineActor_sameCache ..).localPeerId]
      exact ht.interfere hr₁
    · intro _ w₂ h₂
      refine (Unstuck.foldlM (fun (_ : List (String × String)) (_ : Unit) t => t.ShortensLocal)
        (fun _ _ _ _ ht hr => ht.interfere hr) ?_ h₂).mono (fun _ _ _ => trivial)
      intro machine _ _ t ht
      apply slices_modify
      intro t₁ hr₁
      have h₁ : t₁.ShortensLocal := ht.interfere hr₁
      obtain ⟨m, hm, hsame⟩ :=
        spawnMachineActor_slices t₁.now machine.1 machine.2 t₁.toManaging h₁
      refine ⟨m, hm, fun t₂ hr₂ => ?_⟩
      unfold ShortensLocal
      rw [hr₂.localPeerId, manage_toManaging, hsame]
      exact h₁

end Program

/-- No handler takes a slice out of bounds while its lookups meet both conditions. -/
theorem ManagerMessage.handler_slices {P : Type} [SerdeJson] [DecidableEq P] [PeerId P]
    (score : Score P) (message : ManagerMessage) (machineIds : List String) (w : World P)
    (h : w.ShortensLocal) :
    Program.Slices score message (fun _ _ => True) (message.handler machineIds) w := by
  have hpure : ∀ (m : ManagerMessage) (reply : ManagerReply) (t : World P),
      Program.Slices score m (fun _ _ => True) (pure reply) t :=
    fun _ _ _ => Unstuck.pure (fun _ _ => trivial)
  match message with
  | .etcdMachineEvent machineId .put (some specJson) =>
    apply Unstuck.bind
    exact (Program.handleMachinePut_slices score _ (by simp) machineId specJson w h).mono
      (fun _ t _ => hpure _ _ t)
  | .etcdMachineEvent _ .put none => exact hpure _ _ w
  | .etcdMachineEvent machineId .delete _ =>
    apply Unstuck.bind
    apply Program.slices_modify
    intro w₁ _
    exact ⟨_, rfl, fun w₂ _ => hpure _ _ w₂⟩
  | .syncAllMachines =>
    apply Unstuck.bind
    refine (Program.syncAllMachines_slices score w h).mono ?_
    intro fetched t _
    cases fetched with
    | true =>
      apply Program.slices_read
      exact fun w' _ => hpure _ _ w'
    | false => exact hpure _ _ t
  | .rebalanceActors =>
    apply Unstuck.bind
    exact (Program.rebalanceActors_slices score machineIds w h).mono (fun _ t _ => hpure _ _ t)

namespace World

instance {P : Type} [PeerId P] (score : Score P) (w : World P) (op : Op P) :
    Decidable (w.OwnerShortens score op) :=
  match op with
  | .lookupMachine _ => inferInstanceAs (Decidable (_ → _))
  | .read | .modify _ | .getPrefix _ => isTrue trivial

instance {P : Type} [DecidableEq P] [PeerId P] (score : Score P) (message : ManagerMessage)
    (w : World P) (op : Op P) : Decidable (w.OwnerFound score message op) :=
  match op with
  | .lookupMachine _ => inferInstanceAs (Decidable (_ → _ → _ → _))
  | .read | .modify _ | .getPrefix _ => isTrue trivial

/-- The coordinator survives the operations that meet the first condition. -/
theorem coordinatorAlive_exec {P : Type} [DecidableEq P] [PeerId P] {score : Score P} {op : Op P}
    {w w' : World P} {result : op.Ret} (h : w.OwnerShortens score op)
    (hexec : exec score op w = some (result, w')) (halive : w.coordinatorAlive = true) :
    w'.coordinatorAlive = true := by
  cases op with
  | read =>
    obtain ⟨-, rfl⟩ := Prod.mk.inj (Option.some.inj hexec)
    exact halive
  | modify f =>
    obtain ⟨m, -, hpair⟩ := Option.map_eq_some_iff.mp hexec
    obtain ⟨-, rfl⟩ := Prod.mk.inj hpair
    exact halive
  | lookupMachine machineId =>
    have hanswers : w.coordinator.answers score machineId = true := by
      rw [ShardingCoordinator.answers_eq_ownerShortens]
      exact h halive
    obtain ⟨answer, owner, hask, -, -⟩ := askLookup_of_answers halive hanswers
    have heq : w.askLookup score machineId = (result, w') := Option.some.inj hexec
    rw [hask] at heq
    obtain ⟨-, rfl⟩ := Prod.mk.inj heq
    exact halive
  | getPrefix start =>
    obtain ⟨-, rfl⟩ := Prod.mk.inj (Option.some.inj hexec)
    exact halive

end World

namespace Node

/-- Whatever the step shortens is long enough: the owner that a lookup finds, which
outside of a rebalance must be there for a machine with an actor, and the peer
that a debug line of the watch names. -/
def SlicesFit {P A : Type} [SerdeJson] [DecidableEq P] [PeerId P] [Multiaddr A]
    (score : Score P) (s : Node P A) : Label P → Prop
  | .advance =>
    match s.running with
    | some (message, .step op _) =>
      s.world.OwnerShortens score op ∧ s.world.OwnerFound score message op
    | _ => True
  | .processEvent _ =>
    match s.stage with
    | .maintenance (event :: _) => s.phases.eventStop event ≠ some .panicked
    | _ => True
  | _ => True

instance {P A : Type} [SerdeJson] [DecidableEq P] [PeerId P] [Multiaddr A] (score : Score P)
    (s : Node P A) (l : Label P) : Decidable (s.SlicesFit score l) :=
  match l with
  | .advance =>
    match h : s.running with
    | some (message, .step op _) =>
      decidable_of_iff (s.world.OwnerShortens score op ∧ s.world.OwnerFound score message op)
        (by simp only [SlicesFit, h])
    | some (_, .done _) | none => isTrue (by simp only [SlicesFit, h])
  | .processEvent _ =>
    match h : s.stage with
    | .maintenance (event :: _) =>
      decidable_of_iff (s.phases.eventStop event ≠ some .panicked) (by simp only [SlicesFit, h])
    | .maintenance [] | .registering | .converging _ | .converged | .stopped | .failed =>
      isTrue (by simp only [SlicesFit, h])
  | .commit .. | .openWatch | .forwardEvent | .loseWatch | .startConverge _ | .convergeKv
  | .convergeDone _ | .signalConvergence | .watchResponse _ | .stopDiscovery | .bridgeReceive
  | .bridgeAsk | .bridgeNotify | .listen | .sync | .handle _ | .finish | .ask .. | .tick _ =>
    isTrue trivial

/-- The step takes a slice out of bounds: it ends the manager, the coordinator or
the discovery controller. -/
def SliceFails {P A : Type} [SerdeJson] [DecidableEq P] [PeerId P] [Multiaddr A]
    (score : Score P) (s : Node P A) : Label P → Prop
  | .advance =>
    match s.running with
    | some (_, .step op _) =>
      match World.exec score op s.world with
      | some (_, world) => s.world.coordinatorAlive = true ∧ world.coordinatorAlive = false
      | none => True
    | _ => False
  | .processEvent peers =>
    match s.stage with
    | .maintenance (event :: _) => s.phases.processEvent (fun _ => peers) event = .panicked
    | _ => False
  | _ => False

/-- The manager and the coordinator are alive, and no handler can get stuck on an
allowed lookup. -/
structure Sliced {P A : Type} [SerdeJson] [DecidableEq P] [PeerId P] (score : Score P)
    (s : Node P A) : Prop where
  manager : s.managerAlive = true
  coordinator : s.world.coordinatorAlive = true
  localPeer : s.world.ShortensLocal
  managed : ∀ message program, s.running = some (message, program) →
    Program.Slices score message (fun _ _ => True) program s.world

/-- A step that only lets the world be interfered with. -/
theorem Sliced.frame {P A : Type} [SerdeJson] [DecidableEq P] [PeerId P] {score : Score P}
    {s t : Node P A} (hs : s.Sliced score)
    (hworld : World.Interferes (fun _ _ => True) s.world t.world)
    (hmanager : t.managerAlive = s.managerAlive)
    (hcoordinator : t.world.coordinatorAlive = s.world.coordinatorAlive)
    (hrunning : ∀ task, t.running = some task → s.running = some task) : t.Sliced score where
  manager := hmanager.trans hs.manager
  coordinator := hcoordinator.trans hs.coordinator
  localPeer := hs.localPeer.interfere hworld
  managed message program hrun :=
    (hs.managed message program (hrunning _ hrun)).interfere hworld

/-- The next operation of the manager goes through if its slices fit. -/
theorem Sliced.exec {P A : Type} [SerdeJson] [DecidableEq P] [PeerId P] [Multiaddr A]
    {score : Score P} {s : Node P A} (hs : s.Sliced score) (hfit : s.SlicesFit score .advance)
    {message : ManagerMessage} {op : Op P} {next : op.Ret → Program P ManagerReply}
    (hrunning : s.running = some (message, .step op next)) :
    ∃ result world, World.exec score op s.world = some (result, world) ∧
      world.coordinatorAlive = true ∧
      Program.Slices score message (fun _ _ => True) (next result) world := by
  simp only [SlicesFit, hrunning] at hfit
  obtain ⟨result, world, hexec, hnext⟩ := (hs.managed message _ hrunning).advance hfit
  exact ⟨result, world, hexec, World.coordinatorAlive_exec hfit.1 hexec hs.coordinator, hnext⟩

theorem Sliced.advance {P A : Type} [SerdeJson] [DecidableEq P] [PeerId P] [Multiaddr A]
    {score : Score P} {s t : Node P A} (hs : s.Sliced score)
    (hsound : s.Sound score (fun _ _ => True)) (hfit : s.SlicesFit score .advance)
    (h : s.step score .advance = some t) : t.Sliced score := by
  simp only [step] at h
  split at h
  · rename_i message op next hrunning
    obtain ⟨result, world, hexec, halive, hnext⟩ := hs.exec hfit hrunning
    have hlocal := (hsound.advance hrunning hexec).localPeerId
    simp only [hexec] at h
    obtain rfl := Option.some.inj h
    refine ⟨hs.manager, halive, ?_, ?_⟩
    · show (short (toBase58 world.manager.localPeerId)).isSome = true
      rw [hlocal]
      exact hs.localPeer
    · intro m program hrun
      obtain ⟨rfl, rfl⟩ := Prod.mk.inj (Option.some.inj hrun)
      exact hnext
  · cases h

theorem Sliced.step {P A : Type} [SerdeJson] [DecidableEq P] [PeerId P] [Multiaddr A]
    {score : Score P} {s t : Node P A} {l : Label P} (hs : s.Sliced score)
    (hsound : s.Sound score (fun _ _ => True)) (hfit : s.SlicesFit score l)
    (h : s.step score l = some t) : t.Sliced score := by
  have hrefl := World.Interferes.refl (fun _ _ => True) s.world
  by_cases hl : l = .advance
  · subst hl
    exact hs.advance hsound hfit h
  cases step_cases h with
  | commit machineId specJson =>
    obtain ⟨-, -, heq⟩ | heq := commit_cases machineId specJson s
    · rw [heq]
      exact hs
    · rw [heq]
      exact hs.frame (interferes_apply _ s.world _ ⟨machineId, rfl, fun _ _ => trivial⟩) rfl rfl
        (fun _ hr => hr)
  | openWatch hw => exact hs.frame hrefl rfl rfl (fun _ hr => hr)
  | @forwardEvent c pending hw =>
    refine hs.frame ?_ (send_managerAlive ..) ?_ (by simp)
    · rw [send_world]
      exact hrefl
    · rw [send_world]
  | loseWatch hw => exact hs.frame hrefl rfl rfl (fun _ hr => hr)
  | discover hd => exact hs.frame hrefl rfl rfl (fun _ hr => hr)
  | bridgeReceive hb hpeers => exact hs.frame hrefl rfl rfl (fun _ hr => hr)
  | @bridgeAsk peers hb =>
    refine hs.frame (interferes_topology _ peers s.world) rfl ?_ (fun _ hr => hr)
    show (applyTopology peers s.world).coordinatorAlive = s.world.coordinatorAlive
    unfold applyTopology
    split_ifs <;> rfl
  | bridgeNotify hb => exact hs.frame hrefl rfl rfl (fun _ hr => hr)
  | listen hn =>
    refine hs.frame ?_ (send_managerAlive ..) ?_ (by simp)
    · rw [send_world]
      exact hrefl
    · rw [send_world]
  | sync hsignal =>
    refine hs.frame ?_ (send_managerAlive ..) ?_ (by simp)
    · rw [send_world]
      exact hrefl
    · rw [send_world]
  | @handle machineIds message mailbox hrunning hmailbox halive hkeys =>
    refine ⟨hs.manager, hs.coordinator, hs.localPeer, ?_⟩
    intro m program hrun
    obtain ⟨rfl, rfl⟩ := Prod.mk.inj (Option.some.inj hrun)
    exact message.handler_slices score machineIds s.world hs.localPeer
  | advance => exact absurd rfl hl
  | panic => exact absurd rfl hl
  | finish listenerAsking hrunning => exact hs.frame hrefl rfl rfl (by simp)
  | ask machineId message hm =>
    exact hs.frame (interferes_ask _ machineId message s.world) rfl rfl (fun _ hr => hr)
  | tick now =>
    refine hs.frame ?_ rfl rfl (fun _ hr => hr)
    exact ⟨rfl, rfl, rfl, fun _ => Iff.rfl, ⟨[], by simp, by simp⟩, id⟩

/-- No step whose slices fit takes a slice out of bounds. -/
theorem Sliced.not_fails {P A : Type} [SerdeJson] [DecidableEq P] [PeerId P] [Multiaddr A]
    {score : Score P} {s : Node P A} {l : Label P} (hs : s.Sliced score)
    (hfit : s.SlicesFit score l) : ¬s.SliceFails score l := by
  intro hfails
  unfold SliceFails at hfails
  split at hfails
  · split at hfails
    · rename_i message op next hrunning
      obtain ⟨result, world, hexec, halive, -⟩ := hs.exec hfit hrunning
      rw [hexec] at hfails
      have hdead : world.coordinatorAlive = false := hfails.2
      rw [halive] at hdead
      cases hdead
    · exact hfails
  · split at hfails
    · rename_i peers _ event events hstage
      simp only [SlicesFit, hstage] at hfit
      obtain ⟨_, -, hok, -⟩ | ⟨_, -, herror, -⟩ | ⟨hstop, -⟩ :=
        (DiscoveryPhases.processEvent_follows (fun _ => peers) event s.phases).cases
      · rw [hok] at hfails
        cases hfails
      · rw [herror] at hfails
        cases hfails
      · exact hfit hstop
    · exact hfails
  · exact hfails

theorem sliced_start {P A : Type} [SerdeJson] [DecidableEq P] [PeerId P] (score : Score P)
    {clusterId : String} {localPeerId : P} {localAddr : A} {logDebug : Bool} {nodeId : String}
    {etcd : Etcd} {now : ℤ} {s : Node P A}
    (h : start clusterId localPeerId localAddr logDebug nodeId etcd now = some s) :
    s.Sliced score := by
  obtain ⟨coordinator, hnew, rfl⟩ := Option.map_eq_some_iff.mp h
  obtain ⟨text, htext, -⟩ := Option.map_eq_some_iff.mp hnew
  refine ⟨rfl, rfl, ?_, by simp⟩
  exact Option.isSome_iff_exists.mpr ⟨text, htext⟩

/-- In every run all of whose steps shorten only what is long enough, the manager and
the coordinator stay alive, and no next step of that kind takes a slice out of
bounds. -/
theorem slices_in_bounds {P A : Type} [SerdeJson] [DecidableEq P] [PeerId P] [Multiaddr A]
    (score : Score P) (clusterId : String) (localPeerId : P) (localAddr : A) (logDebug : Bool)
    (nodeId : String) (etcd : Etcd) (now : ℤ) (s₀ s : Node P A) (labels : List (Label P))
    (hstart : start clusterId localPeerId localAddr logDebug nodeId etcd now = some s₀)
    (hrun : Run (Guarded (SlicesFit score) (StepOf (step score))) s₀ labels s) :
    s.managerAlive = true ∧ s.world.coordinatorAlive = true ∧
      ∀ l, s.SlicesFit score l → ¬s.SliceFails score l := by
  have hinv : s.Sound score (fun _ _ => True) ∧ s.Sliced score := by
    refine hrun.invariant (I := fun s => s.Sound score (fun _ _ => True) ∧ s.Sliced score) ?_
      ⟨sound_start score _ (fun _ _ _ => trivial) hstart, sliced_start score hstart⟩
    intro t l t' ht hstep
    have hsound := (ht.1.step (specsSatisfy_true t l) (step_cases hstep.2)).1
    exact ⟨hsound, ht.2.step ht.1 hstep.1 hstep.2⟩
  exact ⟨hinv.2.manager, hinv.2.coordinator, fun l hfit => hinv.2.not_fails hfit⟩

/-- A node that is alone spawns the actor of its machine in the initial sync, and sees
its own registration go. -/
def emptied (spec : Json) (a : Base58Text) : List (Label Base58Text) :=
  ([.commit "m1" (some spec.text), .startConverge [], .convergeDone [a], .signalConvergence,
      .bridgeReceive, .bridgeAsk, .bridgeNotify, .sync, .handle []] : List (Label Base58Text)) ++
    List.replicate 6 Label.advance ++
    ([.finish, .openWatch, .watchResponse [Etcd.event ⟨peerKey "lab" a, none⟩],
      .processEvent [], .bridgeReceive, .bridgeAsk] : List (Label Base58Text))

/-- A machine is written over the empty topology, and the rebalance comes first. -/
theorem slices_in_bounds_emptied :
    let spec : Json := .object [("adminState", .string "available"), ("cluster", .string "lab")]
    let _ : SerdeJson := SerdeJson.knowing [spec]
    ∃ (s₀ s : Node Base58Text Ip4Text) (labels : List (Label Base58Text)),
      Run (Guarded (SlicesFit (fun _ _ => 7)) (StepOf (step (fun _ _ => 7)))) s₀ labels s ∧
      s.world.coordinator.hasher.lookup (fun _ _ => 7) "m1" = none ∧ s.managerAlive = true := by
  intro spec _
  let a := peerOf "12D3KooWAAAAAAAAAAAAAAAAAAAAAAAAAAAAAAAAAAAAAAAAAAAA"
  let score : Score Base58Text := fun _ _ => 7
  let labels : List (Label Base58Text) := emptied spec a ++
    [.bridgeNotify, .listen, .handle ["m1"], .advance, .advance, .advance, .finish,
      .commit "m1" (some spec.text), .forwardEvent, .handle ["m1"], .advance, .advance, .advance,
      .finish]
  obtain ⟨s₀, hstart, s, hrun, hlookup⟩ :
      ∃ s₀ ∈ start "lab" a (Ip4Text.mk "/ip4/10.0.0.1/tcp/5000") false "node-a" ∅ 0,
      ∃ s ∈ labels.foldlM (guardedNext (SlicesFit score) (step score)) s₀,
      s.world.coordinator.hasher.lookup score "m1" = none := by
    decide +kernel
  have hguarded := Run.guarded_of_foldlM hrun
  exact ⟨s₀, s, labels, hguarded, hlookup,
    (slices_in_bounds score "lab" a _ false "node-a" ∅ 0 s₀ s labels hstart hguarded).1⟩

/-- A machine is written over the empty topology, and its put comes before the
rebalance: the placeholder is too short, and the manager dies. -/
theorem not_slices_in_bounds : ¬∀ [SerdeJson] (score : Score Base58Text) (clusterId : String)
    (localPeerId : Base58Text) (localAddr : Ip4Text) (logDebug : Bool) (nodeId : String)
    (etcd : Etcd) (now : ℤ) (s₀ s : Node Base58Text Ip4Text) (labels : List (Label Base58Text)),
    start clusterId localPeerId localAddr logDebug nodeId etcd now = some s₀ →
    Run (StepOf (step score)) s₀ labels s →
    s.managerAlive = true ∧ s.world.coordinatorAlive = true ∧ ∀ l, ¬s.SliceFails score l := by
  intro hclaim
  let spec : Json := .object [("adminState", .string "available"), ("cluster", .string "lab")]
  let _ : SerdeJson := SerdeJson.knowing [spec]
  let a := peerOf "12D3KooWAAAAAAAAAAAAAAAAAAAAAAAAAAAAAAAAAAAAAAAAAAAA"
  let score : Score Base58Text := fun _ _ => 7
  let labels : List (Label Base58Text) := emptied spec a ++
    [.commit "m1" (some spec.text), .forwardEvent, .handle ["m1"], .advance, .advance, .advance,
      .advance]
  obtain ⟨s₀, hstart, s, hrun, hdead⟩ :
      ∃ s₀ ∈ start "lab" a (Ip4Text.mk "/ip4/10.0.0.1/tcp/5000") false "node-a" ∅ 0,
      ∃ s ∈ labels.foldlM (step score) s₀, s.managerAlive = false := by
    decide +kernel
  have halive := (hclaim score "lab" a _ false "node-a" ∅ 0 s₀ s labels hstart
    (Run.of_foldlM hrun)).1
  rw [hdead] at halive
  cases halive

end Node
end Neolaas
