import Neolaas.BootstrapTopology
import Neolaas.QuiescentOwnership
import Neolaas.RestingRuns

/-!
# The tasks between discovery and the actors come to rest

What a node has still to do with what it has read is on its way in one of its
channels, and each step of its tasks moves it towards the manager or ends it. So
when peers, machines and clients give it no more work, these tasks stop after
finitely many steps. They rest only with empty channels, and then the actors are
those of the machines that the node owns. That discovery polls its stream again
when it has ended, and the loops on a timer, are no steps of these tasks.
-/
namespace Neolaas
open ChangeLog AtomicProgram LabelledRuns

namespace Node

/-- A step with what the node has already read, which needs nothing new from etcd, the
clock or clients. -/
def Own {P : Type} : Label P → Prop
  | .openWatch | .forwardEvent | .convergeKv | .convergeDone _ | .signalConvergence
  | .processEvent _ | .bridgeReceive | .bridgeAsk | .bridgeNotify | .listen | .sync
  | .handle _ | .advance | .finish => True
  | .commit _ _ | .loseWatch | .startConverge _ | .watchResponse _ | .stopDiscovery
  | .ask _ _ | .tick _ => False

/-- Nothing is left to do: the channels are empty, no task is in the middle of a
step, a watch is open and has delivered everything. -/
structure Idle {P A : Type} (s : Node P A) : Prop where
  running : s.running = none
  mailbox : s.mailbox = []
  notices : s.topologyNotices = 0
  signal : s.convergenceSignal = false
  bridge : s.bridge = .waiting
  shardingTx : s.phases.shardingTx = []
  watch : s.watch = some []
  stage : s.stage = .registering ∨ s.stage = .maintenance [] ∨ s.stage = .stopped ∨
    s.stage = .failed

/-- The listener waits only for a rebalance that the manager has or will get to, and
a dead manager has no messages. -/
structure Listening {P A : Type} (s : Node P A) : Prop where
  asked : s.listenerAsking = true → .rebalanceActors ∈ s.mailbox ∨
    s.running.map Prod.fst = some .rebalanceActors
  buried : s.managerAlive = false → s.mailbox = []

theorem Listening.send {P A : Type} {s : Node P A} (message : ManagerMessage)
    (h : s.Listening) : (s.send message).Listening := by
  unfold Node.send
  split_ifs with halive
  · constructor
    · intro hasking
      exact (h.asked hasking).imp (List.mem_append_left _) id
    · intro hdead
      exact absurd halive (by simpa using hdead)
  · exact h

/-- The listener stops waiting when its request is answered. -/
theorem asking_of_finish {P A : Type} [SerdeJson] [DecidableEq P] [PeerId P] [Multiaddr A]
    {score : Score P} {s t : Node P A} (h : s.step score .finish = some t)
    (hasking : t.listenerAsking = true) :
    s.listenerAsking = true ∧ s.running.map Prod.fst ≠ some .rebalanceActors := by
  simp only [step] at h
  split at h
  · rename_i message reply hrunning
    obtain rfl := Option.some.inj h
    by_cases hmessage : message = .rebalanceActors
    · simp only [if_pos hmessage, Bool.false_eq_true] at hasking
    · simp only [if_neg hmessage] at hasking
      refine ⟨hasking, ?_⟩
      rw [hrunning]
      intro heq
      exact hmessage (Option.some.inj heq)
  · cases h

theorem Listening.step {P A : Type} [SerdeJson] [DecidableEq P] [PeerId P] [Multiaddr A]
    {score : Score P} {s t : Node P A} {l : Label P} (hs : s.Listening)
    (h : s.step score l = some t) : t.Listening := by
  cases step_cases h with
  | commit machineId specJson =>
    obtain ⟨etcd, watch, heq⟩ := commit_frame machineId specJson s
    rw [heq]
    exact ⟨hs.asked, hs.buried⟩
  | forwardEvent hw => exact Listening.send _ ⟨hs.asked, hs.buried⟩
  | listen hn =>
    unfold Node.send
    split_ifs with halive
    · constructor
      · intro _
        exact Or.inl (List.mem_append_right _ (List.mem_singleton.mpr rfl))
      · intro hdead
        exact absurd halive (by simpa using hdead)
    · constructor
      · intro hasking
        exact absurd hasking halive
      · exact hs.buried
  | sync hsignal =>
    have hsent := Listening.send .syncAllMachines hs
    exact ⟨hsent.asked, hsent.buried⟩
  | @handle machineIds message mailbox hrunning hmailbox halive hkeys =>
    constructor
    · intro hasking
      obtain hmail | hrun := hs.asked hasking
      · rw [hmailbox] at hmail
        obtain heq | hmail := List.mem_cons.mp hmail
        · right
          rw [heq]
          rfl
        · exact Or.inl hmail
      · rw [hrunning] at hrun
        cases hrun
    · intro hdead
      exact absurd halive (by simpa using hdead)
  | @advance message op next result world hrunning hexec =>
    constructor
    · intro hasking
      have hasked := hs.asked hasking
      rwa [hrunning] at hasked
    · exact hs.buried
  | panic =>
    constructor
    · intro hasking
      cases hasking
    · intro _
      rfl
  | finish listenerAsking hrunning =>
    constructor
    · intro hasking
      obtain ⟨hbefore, hother⟩ := asking_of_finish h hasking
      exact Or.inl ((hs.asked hbefore).resolve_right hother)
    · exact hs.buried
  | _ => exact ⟨hs.asked, hs.buried⟩

end Node

namespace Node

end Node
end Neolaas
