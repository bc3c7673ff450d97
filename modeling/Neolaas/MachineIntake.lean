import Neolaas.ManagerCache
import Neolaas.NodeSteps

/-!
# What reaches the manager's cache

The manager takes its messages from the mailbox one at a time, and a sync takes
what etcd answers. From the cache, the rest of the message in hand and what is
still taken from then on follows what the cache holds whenever the manager is idle.
-/
namespace Neolaas
open ChangeLog AtomicProgram LabelledRuns

namespace Node

/-- A sync is running and about to read the machines. -/
def reading {P A : Type} (s : Node P A) : Bool :=
  match s.running with
  | some (.syncAllMachines, .step (.getPrefix _) _) => true
  | _ => false

/-- The changes that the running handler makes to the cache. A sync puts what etcd
has answered to it, and any other message has its own change. -/
def inHand {P A : Type} (s : Node P A) : List (Change String String) :=
  match s.running with
  | none => []
  | some (message, _) =>
    if message = .syncAllMachines then Program.machinePuts s.fetched
    else message.cacheChange.toList

/-- The changes that a step hands to the manager, with a message or with etcd's
answer to a sync. -/
def takes {P A : Type} (s : Node P A) : Label P → List (Change String String)
  | .handle _ => (s.mailbox.head?.bind ManagerMessage.cacheChange).toList
  | .advance =>
    if s.reading then Program.machinePuts (s.world.etcd.getPrefix machinesPrefix) else []
  | _ => []

/-- What is cached of a machine once the changes have reached the manager: the last
of them decides, and without one it is what is cached now. -/
def expects {P A : Type} (s : Node P A) (changes : List (Change String String))
    (machineId : String) : Option String :=
  (lastOf changes machineId).getD (s.world.cached machineId)

/-- The cache will be the given one when the running handler has ended, or is the
given one and the handler is about to read. -/
def Heads {P A : Type} [SerdeJson] [DecidableEq P] [PeerId P] (score : Score P) (s : Node P A)
    (cache : String → Option String) : Prop :=
  match s.running with
  | none => s.world.cached = cache
  | some (message, program) =>
    (s.world.cached = cache ∧ s.fetched = [] ∧ message = .syncAllMachines ∧
      ∃ machineIds, program = ManagerMessage.syncAllMachines.handler machineIds) ∨
    (replay s.world.cached s.inHand = cache ∧ World.Leads score cache program s.world)

/-- A handler that leads somewhere is not about to read. -/
theorem reading_of_leads {P A : Type} [DecidableEq P] [PeerId P] {score : Score P} {s : Node P A}
    {cache : String → Option String} {message : ManagerMessage} {program : Program P ManagerReply}
    (hrunning : s.running = some (message, program))
    (h : World.Leads score cache program s.world) : s.reading = false := by
  have hnot : ∀ start next, program ≠ .step (.getPrefix start) next := by
    rintro start next rfl
    have hguar := (h.advance (r := s.world.etcd.getPrefix start) (t := s.world) rfl).1.1
    exact hguar start rfl
  unfold reading
  rw [hrunning]
  split
  · rename_i start next heq
    cases heq
    exact absurd rfl (hnot start next)
  · rfl

theorem reading_of_sync {P A : Type} [SerdeJson] [PeerId P] [DecidableEq P] {s : Node P A}
    {machineIds : List String} (hrunning : s.running =
      some (.syncAllMachines, ManagerMessage.syncAllMachines.handler machineIds)) :
    s.reading = true := by
  unfold reading
  rw [hrunning]
  rfl

theorem reading_congr {P A : Type} {s t : Node P A} (hrunning : t.running = s.running) :
    t.reading = s.reading := by
  unfold reading
  rw [hrunning]

theorem inHand_of_idle {P A : Type} {s : Node P A} (hrunning : s.running = none) :
    s.inHand = [] := by
  unfold inHand
  rw [hrunning]

theorem inHand_of_message {P A : Type} {s : Node P A} {message : ManagerMessage}
    {program : Program P ManagerReply} (hrunning : s.running = some (message, program))
    (hne : message ≠ .syncAllMachines) : s.inHand = message.cacheChange.toList := by
  unfold inHand
  rw [hrunning]
  exact if_neg hne

theorem inHand_of_sync {P A : Type} {s : Node P A} {program : Program P ManagerReply}
    (hrunning : s.running = some (.syncAllMachines, program)) :
    s.inHand = Program.machinePuts s.fetched := by
  unfold inHand
  rw [hrunning]
  exact if_pos rfl

/-- The same message stays in hand while nothing is read. -/
theorem inHand_congr {P A : Type} {s t : Node P A}
    (hrunning : t.running.map Prod.fst = s.running.map Prod.fst)
    (hfetched : t.fetched = s.fetched) : t.inHand = s.inHand := by
  unfold inHand
  rw [hfetched]
  cases hs : s.running with
  | none =>
    rw [hs, Option.map_none, Option.map_eq_none_iff] at hrunning
    rw [hrunning]
  | some task =>
    rw [hs, Option.map_some] at hrunning
    obtain ⟨task', ht, hmessage⟩ := Option.map_eq_some_iff.mp hrunning
    rw [ht]
    simp only [hmessage]

/-- The cache with the changes in hand is the one for which the handler heads. -/
theorem Heads.replay_inHand {P A : Type} [SerdeJson] [DecidableEq P] [PeerId P]
    {score : Score P} {s : Node P A} {cache : String → Option String}
    (h : s.Heads score cache) : replay s.world.cached s.inHand = cache := by
  unfold Heads at h
  cases hrunning : s.running with
  | none =>
    simp only [hrunning] at h
    rw [inHand_of_idle hrunning, replay_nil, h]
  | some task =>
    obtain ⟨message, program⟩ := task
    simp only [hrunning] at h
    obtain ⟨hcached, hfetched, rfl, -⟩ | ⟨hreplay, -⟩ := h
    · rw [inHand_of_sync hrunning, hfetched]
      exact hcached
    · exact hreplay

/-- The cache that is to be expected is the one for which the handler heads, with the
changes. -/
theorem Heads.expects_eq {P A : Type} [SerdeJson] [DecidableEq P] [PeerId P] {score : Score P}
    {s : Node P A} {cache : String → Option String} (h : s.Heads score cache)
    (changes : List (Change String String)) (machineId : String) :
    s.expects (s.inHand ++ changes) machineId = replay cache changes machineId := by
  unfold expects
  rw [← replay_eq_lastOf, replay_append, h.replay_inHand]

/-- What the rest of the node does to the world leaves the cache alone. -/
theorem Heads.frame {P A : Type} [SerdeJson] [DecidableEq P] [PeerId P] {score : Score P}
    {s t : Node P A} {cache : String → Option String} (h : s.Heads score cache)
    (hrunning : t.running = s.running) (hfetched : t.fetched = s.fetched)
    (hcached : t.world.cached = s.world.cached) : t.Heads score cache := by
  have hinHand : t.inHand = s.inHand := inHand_congr (by rw [hrunning]) hfetched
  unfold Heads at h ⊢
  rw [hrunning, hinHand, hfetched, hcached]
  cases hrun : s.running with
  | none =>
    simp only [hrun] at h
    exact h
  | some task =>
    simp only [hrun] at h
    obtain hsync | ⟨hreplay, hleads⟩ := h
    · exact Or.inl hsync
    · exact Or.inr ⟨hreplay, hleads.interfere hcached⟩

/-- The manager takes a message. -/
theorem Heads.handle {P A : Type} [SerdeJson] [DecidableEq P] [PeerId P] {score : Score P}
    {s t : Node P A} {cache : String → Option String} {message : ManagerMessage}
    {machineIds : List String} (h : s.Heads score cache) (hrunning : s.running = none)
    (hworld : t.world = s.world) (hfetched : t.fetched = [])
    (htask : t.running = some (message, message.handler machineIds)) :
    t.Heads score (replay cache message.cacheChange.toList) := by
  have hcached : s.world.cached = cache := by
    unfold Heads at h
    simpa [hrunning] using h
  unfold Heads
  rw [htask, hworld]
  by_cases hsync : message = .syncAllMachines
  · subst hsync
    exact Or.inl ⟨hcached, hfetched, rfl, machineIds, rfl⟩
  · right
    rw [inHand_of_message htask hsync, hcached]
    refine ⟨rfl, ?_⟩
    rw [← hcached]
    exact message.handler_leads score hsync machineIds s.world

/-- The running handler performs an operation. A sync takes what it reads. -/
theorem Heads.advance {P A : Type} [SerdeJson] [DecidableEq P] [PeerId P] {score : Score P}
    {s t : Node P A} {cache : String → Option String} {message : ManagerMessage} {op : Op P}
    {next : op.Ret → Program P ManagerReply} {result : op.Ret} (h : s.Heads score cache)
    (hrunning : s.running = some (message, .step op next))
    (hexec : World.exec score op s.world = some (result, t.world))
    (hfetched : t.fetched = op.fetch result s.fetched)
    (htask : t.running = some (message, next result)) :
    t.Heads score (replay cache (s.takes .advance)) := by
  unfold Heads at h
  simp only [hrunning] at h
  obtain ⟨hcached, -, rfl, machineIds, hprogram⟩ | ⟨hreplay, hleads⟩ := h
  · obtain ⟨next', hhandler, hleads⟩ := ManagerMessage.sync_leads (P := P) machineIds
    rw [hhandler] at hprogram
    cases hprogram
    obtain ⟨hresult, hworld⟩ := Prod.mk.inj (Option.some.inj hexec)
    have hreading : s.reading = true := by simp [reading, hrunning]
    have htakes : s.takes .advance =
        Program.machinePuts (s.world.etcd.getPrefix machinesPrefix) := if_pos hreading
    have hread : t.fetched = s.world.etcd.getPrefix machinesPrefix := hfetched.trans hresult.symm
    have hlead := hleads score s.world
    rw [hcached, hresult] at hlead
    unfold Heads
    rw [htask, inHand_of_sync htask, hread, htakes, ← hworld, hcached]
    exact Or.inr ⟨rfl, hresult ▸ hlead⟩
  · obtain ⟨⟨hread, hmoves⟩, hnext⟩ := hleads.advance hexec
    have hreading : s.reading = false := reading_of_leads hrunning hleads
    have htakes : s.takes .advance = [] := if_neg (by simp [hreading])
    have hsame : t.fetched = s.fetched := by
      rw [hfetched]
      cases op with
      | getPrefix start => exact absurd rfl (hread start)
      | read => rfl
      | modify f => rfl
      | lookupMachine machineId => rfl
    have hinHand : t.inHand = s.inHand := inHand_congr (by rw [htask, hrunning]; rfl) hsame
    unfold Heads
    rw [htask, htakes, replay_nil, hinHand]
    refine Or.inr ⟨?_, hnext⟩
    rw [← hreplay] at hmoves ⊢
    exact replay_of_moves hmoves

/-- A step of the node moves the cache for which the handler heads by what it hands
to the manager. -/
theorem Heads.step {P A : Type} [SerdeJson] [DecidableEq P] [PeerId P] [Multiaddr A]
    {score : Score P} {s t : Node P A} {l : Label P} {cache : String → Option String}
    (hs : s.Heads score cache) (h : Steps score s l t) (halive : t.managerAlive = true) :
    t.Heads score (replay cache (s.takes l)) := by
  cases h with
  | commit machineId specJson =>
    obtain ⟨etcd, watch, heq⟩ := commit_frame machineId specJson s
    rw [heq]
    exact hs.frame rfl rfl rfl
  | forwardEvent hw =>
    exact hs.frame (send_running _ _) (send_fetched _ _) (congrArg World.cached (send_world _ _))
  | discover hd =>
    have htakes : s.takes l = [] := by cases hd <;> rfl
    rw [htakes]
    exact hs.frame rfl rfl rfl
  | @bridgeAsk peers hb =>
    have hcached : (applyTopology peers s.world).cached = s.world.cached := by
      unfold applyTopology
      split_ifs <;> rfl
    exact hs.frame rfl rfl hcached
  | listen hn =>
    exact hs.frame (send_running _ _) (send_fetched _ _) (congrArg World.cached (send_world _ _))
  | sync hsignal =>
    exact hs.frame (send_running _ _) (send_fetched _ _) (congrArg World.cached (send_world _ _))
  | @handle machineIds message mailbox hrunning hmailbox hmanager hkeys =>
    have htakes : s.takes (.handle machineIds) = message.cacheChange.toList := by
      simp [takes, hmailbox]
    rw [htakes]
    exact hs.handle hrunning rfl rfl rfl
  | advance hrunning hexec => exact hs.advance hrunning hexec rfl rfl
  | panic => cases halive
  | @finish message reply listenerAsking hrunning =>
    have hcached : s.world.cached = cache := by
      unfold Heads at hs
      simp only [hrunning] at hs
      obtain ⟨hcached, -⟩ | ⟨-, hleads⟩ := hs
      · exact hcached
      · exact hleads s.world rfl
    exact hcached
  | ask machineId message hm =>
    refine hs.frame rfl rfl ?_
    unfold World.cached
    rw [World.manage_toManaging, Managing.ask_specs]
  | openWatch hw => exact hs.frame rfl rfl rfl
  | loseWatch hw => exact hs.frame rfl rfl rfl
  | bridgeReceive hb hpeers => exact hs.frame rfl rfl rfl
  | bridgeNotify hb => exact hs.frame rfl rfl rfl
  | tick now => exact hs.frame rfl rfl rfl

/-- A node starts with an empty cache. -/
theorem heads_start {P A : Type} [SerdeJson] [DecidableEq P] [PeerId P] (score : Score P)
    {clusterId : String} {localPeerId : P} {localAddr : A} {logDebug : Bool} {nodeId : String}
    {etcd : Etcd} {now : ℤ} {s : Node P A}
    (h : start clusterId localPeerId localAddr logDebug nodeId etcd now = some s) :
    s.Heads score (fun _ => none) := by
  obtain ⟨coordinator, -, rfl⟩ := Option.map_eq_some_iff.mp h
  funext machineId
  simp [World.cached, MachineActorManagerActor.new]

theorem managerAlive_step {P A : Type} [SerdeJson] [DecidableEq P] [PeerId P] [Multiaddr A]
    {score : Score P} {s t : Node P A} {l : Label P} (h : Steps score s l t)
    (halive : t.managerAlive = true) : s.managerAlive = true := by
  cases h with
  | commit machineId specJson =>
    obtain ⟨etcd, watch, heq⟩ := commit_frame machineId specJson s
    rwa [heq] at halive
  | forwardEvent hw => rwa [send_managerAlive] at halive
  | listen hn => simpa using halive
  | sync hsignal => simpa using halive
  | panic => cases halive
  | _ => exact halive

end Node
end Neolaas
