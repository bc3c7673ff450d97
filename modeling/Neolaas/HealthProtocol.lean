import Neolaas.ActorAsks
import Neolaas.PeerMonitoring

/-!
# Pings between the nodes

In each round the ping loop of a node asks the health actors of the peers that it
monitors, one after the other. A ping may be lost, or handled when the loop no longer
waits for it; a peer is marked as reached only when its actor has handled the ping of
this round. The HTTP handlers ask the same actors for their counters, and to
acknowledge broadcasts.
-/
namespace Neolaas
open ActorAsks LabelledRuns

/-- Ping message sent from one peer to another. -/
structure PingMessage (P : Type) where
  fromNode : String
  fromPeer : P
  sequence : UInt64
  timestamp : ℤ
  deriving DecidableEq

/-- Response to a ping message. -/
structure PongReply where
  fromNode : String
  receivedSequence : UInt64
  deriving DecidableEq

/-- Broadcast message to all peers. -/
structure BroadcastMessage (P : Type) where
  fromNode : String
  fromPeer : P
  content : String
  timestamp : ℤ
  deriving DecidableEq

/-- Acknowledgment of broadcast receipt. -/
structure AckReply where
  fromNode : String
  success : Bool
  deriving DecidableEq

/-- Statistics response. -/
structure StatsReply where
  nodeId : String
  pingsReceived : UInt64
  pongsSent : UInt64
  deriving DecidableEq

/-- The messages that a health actor handles. -/
inductive HealthMessage (P : Type) where
  | ping (msg : PingMessage P)
  | broadcast (msg : BroadcastMessage P)
  | getStats
  deriving DecidableEq

inductive HealthReply where
  | pong (reply : PongReply)
  | ack (reply : AckReply)
  | stats (reply : StatsReply)
  deriving DecidableEq

/-- The message counts as a ping. -/
def HealthMessage.isPing {P : Type} : HealthMessage P → Bool
  | ping _ => true
  | broadcast _ | getStats => false

/-- Actor that handles ping/pong health checks and broadcast messages. -/
structure HealthActor where
  nodeId : String
  pingCount : UInt64
  pongCount : UInt64
  deriving DecidableEq

namespace HealthActor

def new (nodeId : String) : HealthActor := ⟨nodeId, 0, 0⟩

def handle {P : Type} (self : HealthActor) : HealthMessage P → HealthActor × HealthReply
  | .ping msg =>
    let self := { self with pingCount := self.pingCount + 1 }
    let fromNode := self.nodeId
    let self := { self with pongCount := self.pongCount + 1 }
    (self, .pong ⟨fromNode, msg.sequence⟩)
  | .broadcast _ => (self, .ack ⟨self.nodeId, true⟩)
  | .getStats => (self, .stats ⟨self.nodeId, self.pingCount, self.pongCount⟩)

/-- The actor of a node that has handled this many pings. -/
def pinged (nodeId : String) (pings : ℕ) : HealthActor :=
  ⟨nodeId, UInt64.ofNat pings, UInt64.ofNat pings⟩

/-- Only a ping moves the counters, and it moves both. -/
theorem handle_pinged {P : Type} (nodeId : String) (pings : ℕ) (message : HealthMessage P) :
    ((pinged nodeId pings).handle message).1 =
      pinged nodeId (pings + if message.isPing then 1 else 0) := by
  cases message with
  | ping msg =>
    show (⟨nodeId, UInt64.ofNat pings + 1, UInt64.ofNat pings + 1⟩ : HealthActor) =
      ⟨nodeId, UInt64.ofNat (pings + 1), UInt64.ofNat (pings + 1)⟩
    rw [UInt64.ofNat_add]
    rfl
  | broadcast msg => rfl
  | getStats => rfl

end HealthActor

/-- Who waits for a reply: the ping loop of a node, or a handler of an HTTP request by
its place among them. -/
inductive Asker (P : Type) where
  | pingLoop (p : P)
  | handler (index : ℕ)
  deriving DecidableEq

/-- What the lookup of remote actors yields: the node that it reaches, and its peer id
when the actor id has one. -/
structure RemotePing (P : Type) where
  node : P
  peerId : Option P
  peerId_eq : ∀ p ∈ peerId, p = node

abbrev HealthAsk (P : Type) := Ask P (Asker P) (HealthMessage P)

abbrev HealthAsks (P : Type) := Asks P (Asker P) HealthActor (HealthMessage P) HealthReply

/-- The handled messages with their replies. -/
abbrev HealthLog (P : Type) := List (HealthAsk P × HealthReply)

/-- The pings that the actor of `p` has handled. -/
def pingsHandled {P : Type} [DecidableEq P] (p : P) (handled : HealthLog P) : ℕ :=
  handled.countP (fun h => h.1.target = p && h.1.message.isPing)

/-- Both counters of an actor are the number of pings that it has handled. -/
theorem stateAfter_eq_pinged {P : Type} [DecidableEq P] (nodeIds : P → String) (p : P)
    (handled : HealthLog P) :
    stateAfter HealthActor.handle (fun q => .new (nodeIds q)) p handled =
      .pinged (nodeIds p) (pingsHandled p handled) := by
  induction handled using List.reverseRecOn with
  | nil => rfl
  | append_singleton handled h ih =>
    obtain ⟨ask, reply⟩ := h
    rw [Asks.stateAfter_append, ih, HealthActor.handle_pinged]
    unfold pingsHandled
    rw [List.countP_append, List.countP_singleton]
    by_cases htarget : ask.target = p
    · simp only [htarget, if_true, decide_true, Bool.true_and]
    · simp only [htarget, if_false, decide_false, Bool.false_and, Nat.add_zero,
        Bool.false_eq_true]

/-- Where the ping loop of a node is. `waiting` is the number of the ping whose reply it
waits for. -/
structure PingLoop where
  sequence : UInt64
  inRound : Bool
  waiting : Option ℕ
  deriving DecidableEq

/-- A reply for which a loop has marked a peer as reached, in the round of this sequence. -/
structure Credit (P : Type) where
  loop : P
  marked : Option P
  sequence : UInt64
  ask : HealthAsk P
  reply : HealthReply

/-- The actor of the peer that was marked has handled a ping of the same round, and
the reply says so. -/
structure Credit.Earned {P : Type} (nodeIds : P → String) (handled : HealthLog P)
    (c : Credit P) : Prop where
  asker : c.ask.asker = .pingLoop c.loop
  marked : c.marked = some c.ask.target
  message : ∃ timestamp, c.ask.message = .ping ⟨nodeIds c.loop, c.loop, c.sequence, timestamp⟩
  handled : (c.ask, c.reply) ∈ handled
  reply : c.reply = .pong ⟨nodeIds c.ask.target, c.sequence⟩

/-- The nodes with their monitoring tasks and ping loops, and the network between their
health actors. -/
structure HealthNet (P A : Type) where
  monitoring : P → Monitoring P A
  loops : P → PingLoop
  asks : HealthAsks P
  credits : List (Credit P)

namespace HealthNet

inductive Label (P A : Type) where
  /-- The event loop or the cleanup of a node. -/
  | monitor (p : P) (now : ℕ) (action : Monitoring.Action P A)
  | tick (p : P)
  | endRound (p : P)
  | ping (p : P) (now : ℕ) (found : RemotePing P) (timestamp : ℤ)
  | pong (p : P) (now : ℕ)
  | pingFails (p : P) (now : ℕ)
  | deliver (id : ℕ)
  /-- A handler of an HTTP request asks an actor. -/
  | request (index : ℕ) (target : P) (message : HealthMessage P)

def setLoop {P A : Type} [DecidableEq P] (p : P) (monitoring : Monitoring P A) (loop : PingLoop)
    (s : HealthNet P A) : HealthNet P A :=
  { s with
    monitoring := Function.update s.monitoring p monitoring
    loops := Function.update s.loops p loop }

@[simp] theorem setLoop_loops_self {P A : Type} [DecidableEq P] (p : P)
    (monitoring : Monitoring P A) (loop : PingLoop) (s : HealthNet P A) :
    (s.setLoop p monitoring loop).loops p = loop := Function.update_self ..

@[simp] theorem setLoop_monitoring_self {P A : Type} [DecidableEq P] (p : P)
    (monitoring : Monitoring P A) (loop : PingLoop) (s : HealthNet P A) :
    (s.setLoop p monitoring loop).monitoring p = monitoring := Function.update_self ..

theorem setLoop_loops_of_ne {P A : Type} [DecidableEq P] {p q : P} (hq : q ≠ p)
    (monitoring : Monitoring P A) (loop : PingLoop) (s : HealthNet P A) :
    (s.setLoop p monitoring loop).loops q = s.loops q := by
  unfold setLoop
  exact Function.update_of_ne hq loop s.loops

theorem setLoop_monitoring_of_ne {P A : Type} [DecidableEq P] {p q : P} (hq : q ≠ p)
    (monitoring : Monitoring P A) (loop : PingLoop) (s : HealthNet P A) :
    (s.setLoop p monitoring loop).monitoring q = s.monitoring q := by
  unfold setLoop
  exact Function.update_of_ne hq monitoring s.monitoring

/-- A loop has marked a peer as reached. -/
def credit {P A : Type} (c : Credit P) (s : HealthNet P A) : HealthNet P A :=
  { s with credits := s.credits ++ [c] }

/-- Nodes that have just started. -/
def start {P A : Type} (nodeIds : P → String) (monitoring : P → Monitoring P A) :
    HealthNet P A where
  monitoring := monitoring
  loops := fun _ => ⟨0, false, none⟩
  asks := .start (fun p => .new (nodeIds p))
  credits := []

/-- The ping loop of `p` asks a remote actor. The checks that let it ask are those of the
monitoring. -/
def sendPing {P A : Type} [DecidableEq P] (nodeIds : P → String) (p : P) (target : P)
    (timestamp : ℤ) (monitoring : Monitoring P A) (s : HealthNet P A) : HealthNet P A :=
  let loop := s.loops p
  { s.setLoop p monitoring { loop with waiting := some s.asks.nextId } with
    asks := s.asks.send (.pingLoop p) target
      (.ping ⟨nodeIds p, p, loop.sequence, timestamp⟩) }

def step {P A : Type} [DecidableEq P] [PeerId P] [MultiaddrIter A] (nodeIds : P → String)
    (s : HealthNet P A) : Label P A → Option (HealthNet P A)
  | .monitor p now action =>
    match action with
    | .ping _ | .pong | .pingFails => none
    | .command _ _ | .swarm _ _ | .cleanup _ =>
      ((s.monitoring p).step (now, action)).map (fun monitoring =>
        s.setLoop p monitoring (s.loops p))
  | .tick p =>
    let loop := s.loops p
    if (s.monitoring p).pingAlive ∧ ¬loop.inRound then
      some (s.setLoop p (s.monitoring p) ⟨loop.sequence + 1, true, none⟩)
    else none
  | .endRound p =>
    let loop := s.loops p
    if (s.monitoring p).pingAlive ∧ loop.inRound ∧ loop.waiting.isNone then
      some (s.setLoop p (s.monitoring p) { loop with inRound := false })
    else none
  | .ping p now found timestamp =>
    match found.peerId with
    | some peerId =>
      if (s.loops p).inRound then
        ((s.monitoring p).step (now, .ping peerId)).map (fun monitoring =>
          s.sendPing nodeIds p found.node timestamp monitoring)
      else none
    | none => none
  | .pong p now =>
    let loop := s.loops p
    match loop.waiting.bind (fun id => s.asks.answer id) with
    | some (ask, reply) =>
      ((s.monitoring p).step (now, .pong)).map (fun monitoring =>
        (s.setLoop p monitoring { loop with waiting := none }).credit
          ⟨p, (s.monitoring p).pinging, loop.sequence, ask, reply⟩)
    | none => none
  | .pingFails p now =>
    let loop := s.loops p
    if loop.waiting.isSome then
      ((s.monitoring p).step (now, .pingFails)).map (fun monitoring =>
        s.setLoop p monitoring { loop with waiting := none })
    else none
  | .deliver id => (s.asks.deliver HealthActor.handle id).map (fun asks => { s with asks := asks })
  | .request index target message =>
    if message.isPing then none
    else some { s with asks := s.asks.send (.handler index) target message }

end HealthNet

namespace Monitoring

def Action.isPong {P A : Type} : Action P A → Bool
  | pong => true
  | command _ _ | swarm _ _ | ping _ | pingFails | cleanup _ => false

/-- Only the ping loop changes whom it waits for. -/
theorem step_pinging {P A : Type} [DecidableEq P] [PeerId P] [MultiaddrIter A]
    {s t : Monitoring P A} {now : ℕ} {action : Action P A} (h : s.step (now, action) = some t)
    (hping : ∀ p, action ≠ .ping p) (hpong : action ≠ .pong) (hfails : action ≠ .pingFails) :
    t.pinging = s.pinging := by
  unfold Monitoring.step at h
  split_ifs at h
  cases action with
  | command dials command =>
    simp only [Monitoring.act] at h
    split_ifs at h
    obtain rfl := Option.some.inj h
    unfold afterLoop
    cases s.task.handleDiscoveryCommand dials now command <;> cases command <;> rfl
  | swarm dials event =>
    simp only [Monitoring.act] at h
    split_ifs at h
    obtain rfl := Option.some.inj h
    unfold afterLoop
    cases s.task.handleSwarmEvent dials now event <;> rfl
  | cleanup order =>
    simp only [Monitoring.act] at h
    split_ifs at h
    obtain rfl := Option.some.inj h
    rfl
  | ping p => exact absurd rfl (hping p)
  | pong => exact absurd rfl hpong
  | pingFails => exact absurd rfl hfails

/-- The loop waits for the peer that it asks. -/
theorem pinging_of_ping {P A : Type} [DecidableEq P] [PeerId P] [MultiaddrIter A]
    {s t : Monitoring P A} {now : ℕ} {peerId : P} (h : s.step (now, .ping peerId) = some t) :
    t.pinging = some peerId := by
  unfold Monitoring.step at h
  split_ifs at h
  simp only [Monitoring.act] at h
  split_ifs at h
  obtain rfl := Option.some.inj h
  rfl

end Monitoring

namespace HealthNet

/-- The ping whose reply the loop of `p` waits for has been sent to the peer that it
is about to mark, in this round, and has earned it nothing yet. -/
structure Waits {P A : Type} (nodeIds : P → String) (p : P) (id : ℕ) (s : HealthNet P A) :
    Prop where
  sent : ∃ ask ∈ s.asks.sent, ask.id = id ∧ ask.asker = .pingLoop p ∧
    (s.monitoring p).pinging = some ask.target ∧
    ∃ timestamp, ask.message = .ping ⟨nodeIds p, p, (s.loops p).sequence, timestamp⟩
  fresh : ∀ c ∈ s.credits, c.ask.id ≠ id

/-- Each credit is earned, by a ping of its own, and each node runs its monitoring. -/
structure Answered {P A : Type} [DecidableEq P] [PeerId P] [MultiaddrIter A]
    (nodeIds : P → String) (init : P → Monitoring P A) (s : HealthNet P A) : Prop where
  sound : s.asks.Sound HealthActor.handle (fun p => .new (nodeIds p))
  waits : ∀ p id, (s.loops p).waiting = some id → s.Waits nodeIds p id
  credits : ∀ c ∈ s.credits, c.Earned nodeIds s.asks.handled
  nodup : (s.credits.map (fun c => c.ask.id)).Nodup
  runs : ∀ p, ∃ actions, Run (StepOf Monitoring.step) (init p) actions (s.monitoring p) ∧
    actions.countP (fun l => l.2.isPong) = s.credits.countP (fun c => c.loop = p)

/-- A node goes on, and its loop waits for what it has asked. -/
theorem Answered.setLoop {P A : Type} [DecidableEq P] [PeerId P] [MultiaddrIter A]
    {nodeIds : P → String} {init : P → Monitoring P A} {s : HealthNet P A}
    (hs : s.Answered nodeIds init) {p : P} {monitoring : Monitoring P A} {loop : PingLoop}
    {actions : List (ℕ × Monitoring.Action P A)}
    (hrun : Run (StepOf Monitoring.step) (s.monitoring p) actions monitoring)
    (hquiet : actions.countP (fun l => l.2.isPong) = 0)
    (hwaits : ∀ id, loop.waiting = some id → (s.setLoop p monitoring loop).Waits nodeIds p id) :
    (s.setLoop p monitoring loop).Answered nodeIds init := by
  refine ⟨hs.sound, ?_, hs.credits, hs.nodup, ?_⟩
  · intro q id hid
    by_cases hq : q = p
    · subst hq
      rw [setLoop_loops_self] at hid
      exact hwaits id hid
    · rw [setLoop_loops_of_ne hq] at hid
      obtain ⟨hsent, hfresh⟩ := hs.waits q id hid
      refine ⟨?_, hfresh⟩
      rw [setLoop_monitoring_of_ne hq, setLoop_loops_of_ne hq]
      exact hsent
  · intro q
    obtain ⟨before, hbefore, hcount⟩ := hs.runs q
    by_cases hq : q = p
    · subst hq
      refine ⟨before ++ actions, ?_, ?_⟩
      · rw [setLoop_monitoring_self]
        exact hbefore.append hrun
      · rw [List.countP_append, hquiet, Nat.add_zero, hcount]
        rfl
    · refine ⟨before, ?_, hcount⟩
      rw [setLoop_monitoring_of_ne hq]
      exact hbefore

/-- Another message is on its way. -/
theorem Answered.send {P A : Type} [DecidableEq P] [PeerId P] [MultiaddrIter A]
    {nodeIds : P → String} {init : P → Monitoring P A} {s : HealthNet P A}
    (hs : s.Answered nodeIds init) (asker : Asker P) (target : P) (message : HealthMessage P) :
    Answered nodeIds init { s with asks := s.asks.send asker target message } := by
  refine ⟨hs.sound.send asker target message, ?_, hs.credits, hs.nodup, hs.runs⟩
  intro p id hid
  obtain ⟨⟨ask, hmem, hask⟩, hfresh⟩ := hs.waits p id hid
  have hstill := (Asks.mem_sent_send asker target message s.asks ask).mpr (Or.inl hmem)
  exact ⟨⟨ask, hstill, hask⟩, hfresh⟩

/-- The loop pings the peer that it monitors. -/
theorem Answered.ping {P A : Type} [DecidableEq P] [PeerId P] [MultiaddrIter A]
    {nodeIds : P → String} {init : P → Monitoring P A} {s : HealthNet P A}
    (hs : s.Answered nodeIds init) {p target : P} {now : ℕ} {timestamp : ℤ}
    {monitoring : Monitoring P A}
    (hstep : (s.monitoring p).step (now, .ping target) = some monitoring) :
    (s.sendPing nodeIds p target timestamp monitoring).Answered nodeIds init := by
  let message : HealthMessage P := .ping ⟨nodeIds p, p, (s.loops p).sequence, timestamp⟩
  have hsent := hs.send (.pingLoop p) target message
  show (HealthNet.setLoop p monitoring { s.loops p with waiting := some s.asks.nextId }
    { s with asks := s.asks.send (.pingLoop p) target message }).Answered nodeIds init
  refine hsent.setLoop (.single hstep) rfl ?_
  intro id hid
  obtain rfl : s.asks.nextId = id := Option.some.inj hid
  constructor
  · refine ⟨s.asks.ask (.pingLoop p) target message, ?_, rfl, rfl, ?_, timestamp, ?_⟩
    · exact (Asks.mem_sent_send (.pingLoop p) target message s.asks _).mpr (Or.inr rfl)
    · rw [setLoop_monitoring_self]
      exact Monitoring.pinging_of_ping hstep
    · rw [setLoop_loops_self]
      rfl
  · intro c hc heq
    have hlt := hs.sound.numbered c.ask (Asks.mem_sent_of_handled (hs.credits c hc).handled)
    omega

/-- The actor's reply comes back to the loop. -/
theorem Answered.pong {P A : Type} [DecidableEq P] [PeerId P] [MultiaddrIter A]
    {nodeIds : P → String} {init : P → Monitoring P A} {s : HealthNet P A}
    (hs : s.Answered nodeIds init) {p : P} {now id : ℕ} {ask : HealthAsk P}
    {reply : HealthReply} {monitoring : Monitoring P A}
    (hid : (s.loops p).waiting = some id) (hanswer : s.asks.answer id = some (ask, reply))
    (hstep : (s.monitoring p).step (now, .pong) = some monitoring) :
    ((s.setLoop p monitoring { s.loops p with waiting := none }).credit
      ⟨p, (s.monitoring p).pinging, (s.loops p).sequence, ask, reply⟩).Answered nodeIds init := by
  obtain ⟨⟨asked, hmem, rfl, hasker, hpinging, timestamp, hmessage⟩, hfresh⟩ := hs.waits p id hid
  obtain ⟨rfl, hhandled⟩ := hs.sound.handled_of_answer hmem hanswer
  obtain ⟨before, -, -, hreply⟩ := hs.sound.reply_of_handled hhandled
  have hpong : reply = .pong ⟨nodeIds ask.target, (s.loops p).sequence⟩ := by
    rw [hreply, hmessage, stateAfter_eq_pinged]
    rfl
  refine ⟨hs.sound, ?_, ?_, ?_, ?_⟩
  · intro q other hother
    have hother : ((s.setLoop p monitoring { s.loops p with waiting := none }).loops q).waiting =
        some other := hother
    by_cases hq : q = p
    · subst hq
      rw [setLoop_loops_self] at hother
      cases hother
    · rw [setLoop_loops_of_ne hq] at hother
      obtain ⟨⟨ask', hmem', rfl, hasker', hrest⟩, hfresh'⟩ := hs.waits q other hother
      constructor
      · refine ⟨ask', hmem', rfl, hasker', ?_⟩
        show ((s.setLoop p monitoring
          { s.loops p with waiting := none }).monitoring q).pinging = _ ∧
          ∃ timestamp, ask'.message = .ping ⟨nodeIds q, q, ((s.setLoop p monitoring
            { s.loops p with waiting := none }).loops q).sequence, timestamp⟩
        rw [setLoop_monitoring_of_ne hq, setLoop_loops_of_ne hq]
        exact hrest
      · intro c hc
        obtain hc | hc := List.mem_append.mp hc
        · exact hfresh' c hc
        · rw [List.mem_singleton.mp hc]
          intro heq
          have hsame := hs.sound.ext_id hmem hmem' heq
          rw [hsame, hasker'] at hasker
          exact hq (Asker.pingLoop.inj hasker)
  · intro c hc
    obtain hc | hc := List.mem_append.mp hc
    · exact hs.credits c hc
    · rw [List.mem_singleton.mp hc]
      exact ⟨hasker, hpinging, ⟨timestamp, hmessage⟩, hhandled, hpong⟩
  · unfold credit
    rw [List.map_append]
    refine hs.nodup.append (List.nodup_singleton _) ?_
    intro other hother hsame
    obtain ⟨c, hc, rfl⟩ := List.mem_map.mp hother
    exact hfresh c hc (List.mem_singleton.mp hsame)
  · intro q
    obtain ⟨actions, hrun, hcount⟩ := hs.runs q
    unfold credit
    rw [List.countP_append, List.countP_singleton]
    show ∃ actions, Run _ _ actions _ ∧ _ = s.credits.countP (fun c => c.loop = q) + _
    by_cases hq : q = p
    · subst hq
      refine ⟨actions ++ [(now, .pong)], ?_, ?_⟩
      · rw [setLoop_monitoring_self]
        exact hrun.append (.single hstep)
      · rw [List.countP_append, hcount]
        simp [Monitoring.Action.isPong]
    · refine ⟨actions, ?_, ?_⟩
      · rw [setLoop_monitoring_of_ne hq]
        exact hrun
      · simp [Ne.symm hq, hcount]

/-- An actor handles a message. -/
theorem Answered.deliver {P A : Type} [DecidableEq P] [PeerId P] [MultiaddrIter A]
    {nodeIds : P → String} {init : P → Monitoring P A} {s : HealthNet P A}
    (hs : s.Answered nodeIds init) {id : ℕ} {asks : HealthAsks P}
    (h : s.asks.deliver HealthActor.handle id = some asks) :
    Answered nodeIds init { s with asks := asks } := by
  have hperm := Asks.sent_deliver h
  refine ⟨hs.sound.deliver h, ?_, ?_, hs.nodup, hs.runs⟩
  · intro p other hother
    obtain ⟨⟨ask, hmem, hask⟩, hfresh⟩ := hs.waits p other hother
    exact ⟨⟨ask, hperm.mem_iff.mpr hmem, hask⟩, hfresh⟩
  · intro c hc
    obtain ⟨hasker, hmarked, hmessage, hhandled, hreply⟩ := hs.credits c hc
    obtain ⟨before, a, after, -, -, rfl⟩ := Asks.deliver_cases h
    exact ⟨hasker, hmarked, hmessage, List.mem_append_left _ hhandled, hreply⟩

theorem Answered.step {P A : Type} [DecidableEq P] [PeerId P] [MultiaddrIter A]
    {nodeIds : P → String} {init : P → Monitoring P A} {s t : HealthNet P A} {l : Label P A}
    (hs : s.Answered nodeIds init) (h : s.step nodeIds l = some t) : t.Answered nodeIds init := by
  cases l with
  | monitor p now action =>
    have hother : ∀ monitoring, (s.monitoring p).step (now, action) = some monitoring →
        (∀ q, action ≠ .ping q) → action ≠ .pong → action ≠ .pingFails →
        (s.setLoop p monitoring (s.loops p)).Answered nodeIds init := by
      intro monitoring hstep hping hpong hfails
      refine hs.setLoop (.single hstep) ?_ (fun id hid => ?_)
      · cases action <;> first | rfl | exact absurd rfl hpong
      · obtain ⟨hsent, hfresh⟩ := hs.waits p id hid
        refine ⟨?_, hfresh⟩
        rw [setLoop_monitoring_self, setLoop_loops_self,
          Monitoring.step_pinging hstep hping hpong hfails]
        exact hsent
    cases action with
    | command dials command =>
      obtain ⟨monitoring, hstep, rfl⟩ := Option.map_eq_some_iff.mp h
      exact hother monitoring hstep (by simp) (by simp) (by simp)
    | swarm dials event =>
      obtain ⟨monitoring, hstep, rfl⟩ := Option.map_eq_some_iff.mp h
      exact hother monitoring hstep (by simp) (by simp) (by simp)
    | cleanup order =>
      obtain ⟨monitoring, hstep, rfl⟩ := Option.map_eq_some_iff.mp h
      exact hother monitoring hstep (by simp) (by simp) (by simp)
    | ping _ => cases h
    | pong => cases h
    | pingFails => cases h
  | tick p =>
    simp only [HealthNet.step] at h
    split_ifs at h
    obtain rfl := Option.some.inj h
    exact hs.setLoop (.nil _) rfl (fun id hid => by cases hid)
  | endRound p =>
    simp only [HealthNet.step] at h
    split_ifs at h with hready
    obtain rfl := Option.some.inj h
    refine hs.setLoop (.nil _) rfl (fun id hid => ?_)
    have hid : (s.loops p).waiting = some id := hid
    rw [hid] at hready
    cases hready.2.2
  | ping p now found timestamp =>
    simp only [HealthNet.step] at h
    split at h
    · rename_i peerId hpeer
      split_ifs at h
      obtain ⟨monitoring, hstep, rfl⟩ := Option.map_eq_some_iff.mp h
      obtain rfl := found.peerId_eq peerId hpeer
      exact hs.ping hstep
    · cases h
  | pong p now =>
    simp only [HealthNet.step] at h
    split at h
    · rename_i ask reply hwaiting
      obtain ⟨id, hid, hanswer⟩ := Option.bind_eq_some_iff.mp hwaiting
      obtain ⟨monitoring, hstep, rfl⟩ := Option.map_eq_some_iff.mp h
      exact hs.pong hid hanswer hstep
    · cases h
  | pingFails p now =>
    simp only [HealthNet.step] at h
    split_ifs at h
    obtain ⟨monitoring, hstep, rfl⟩ := Option.map_eq_some_iff.mp h
    exact hs.setLoop (.single hstep) rfl (fun id hid => by cases hid)
  | deliver id =>
    obtain ⟨asks, hdeliver, rfl⟩ := Option.map_eq_some_iff.mp h
    exact hs.deliver hdeliver
  | request index target message =>
    simp only [HealthNet.step] at h
    split_ifs at h
    obtain rfl := Option.some.inj h
    exact hs.send (.handler index) target message

theorem answered_start {P A : Type} [DecidableEq P] [PeerId P] [MultiaddrIter A]
    (nodeIds : P → String) (init : P → Monitoring P A) :
    (start nodeIds init).Answered nodeIds init := by
  refine ⟨Asks.sound_start _ _, ?_, ?_, List.nodup_nil, fun p => ⟨[], .nil _, rfl⟩⟩
  · intro p id hid
    cases hid
  · intro c hc
    cases hc

/-- Credits for one peer are earned by different pings that its actor has handled. -/
theorem Answered.credits_le {P A : Type} [DecidableEq P] [PeerId P] [MultiaddrIter A]
    {nodeIds : P → String} {init : P → Monitoring P A} {s : HealthNet P A}
    (hs : s.Answered nodeIds init) (p : P) :
    s.credits.countP (fun c => c.marked = some p) ≤ pingsHandled p s.asks.handled := by
  unfold pingsHandled
  rw [List.countP_eq_length_filter, List.countP_eq_length_filter]
  let earned := (s.credits.filter (fun c => c.marked = some p)).map (fun c => (c.ask, c.reply))
  have hids : (earned.map (fun h => h.1.id)).Nodup := by
    rw [List.map_map]
    exact hs.nodup.sublist (List.filter_sublist.map _)
  have hmem : earned ⊆ s.asks.handled.filter
      (fun h => decide (h.1.target = p) && h.1.message.isPing) := by
    intro h hh
    obtain ⟨c, hc, rfl⟩ := List.mem_map.mp hh
    obtain ⟨hcredit, hmarked⟩ := List.mem_filter.mp hc
    obtain ⟨-, htarget, ⟨timestamp, hmessage⟩, hhandled, -⟩ := hs.credits c hcredit
    have hsame : c.ask.target = p := by
      have hp : c.marked = some p := of_decide_eq_true hmarked
      exact Option.some.inj (htarget.symm.trans hp)
    refine List.mem_filter.mpr ⟨hhandled, ?_⟩
    simp [hsame, hmessage, HealthMessage.isPing]
  have hle := (List.subperm_of_subset hids.of_map hmem).length_le
  rw [List.length_map] at hle
  exact hle

/-- In every run of the nodes' loops and health actors, with messages lost and delayed
in any way: both counters of an actor are the number of pings that it has handled, no
more than have been sent to it. Each peer that a loop marks as reached has handled a
ping of that loop in that round and replied with its number, another ping each time,
and the monitoring of a node runs with as many answers as its loop has got. -/
theorem pings_answered {P A : Type} [DecidableEq P] [PeerId P] [MultiaddrIter A]
    (nodeIds : P → String) (init : P → Monitoring P A) (s : HealthNet P A)
    (labels : List (Label P A))
    (hrun : Run (StepOf (step nodeIds)) (start nodeIds init) labels s) (p : P) :
    s.asks.actors p = .pinged (nodeIds p) (pingsHandled p s.asks.handled) ∧
    pingsHandled p s.asks.handled ≤
      s.asks.sent.countP (fun a => a.target = p && a.message.isPing) ∧
    (∀ c ∈ s.credits, c.Earned nodeIds s.asks.handled) ∧
    (s.credits.map (fun c => c.ask.id)).Nodup ∧
    s.credits.countP (fun c => c.marked = some p) ≤ pingsHandled p s.asks.handled ∧
    ∃ actions, Run (StepOf Monitoring.step) (init p) actions (s.monitoring p) ∧
      actions.countP (fun l => l.2.isPong) = s.credits.countP (fun c => c.loop = p) := by
  have hs : s.Answered nodeIds init :=
    hrun.invariant (fun _ _ _ hs hst => hs.step hst) (answered_start nodeIds init)
  refine ⟨?_, ?_, hs.credits, hs.nodup, hs.credits_le p, hs.runs p⟩
  · rw [hs.sound.actors p]
    exact stateAfter_eq_pinged nodeIds p s.asks.handled
  · have hsent : pingsHandled p s.asks.handled = (s.asks.handled.map Prod.fst).countP
        (fun a => a.target = p && a.message.isPing) := by
      rw [List.countP_map]
      rfl
    rw [hsent, Asks.sent, List.countP_append]
    omega

/-- A node pings another, whose reply comes back. -/
theorem pings_answered_once :
    ∃ (b : Base58Text) (s : HealthNet Base58Text Ip4Text), s.credits.length = 1 ∧
      (∀ c ∈ s.credits, c.marked = some b ∧ (c.ask, c.reply) ∈ s.asks.handled) ∧
      s.asks.actors b = .pinged "node-b" (pingsHandled b s.asks.handled) := by
  let a := peerOf "12D3KooWAAAAAAAAAAAAAAAAAAAAAAAAAAAAAAAAAAAAAAAAAAAA"
  let b := peerOf "12D3KooWBBBBBBBBBBBBBBBBBBBBBBBBBBBBBBBBBBBBBBBBBBBB"
  let nodeIds : Base58Text → String := fun p => if p = b then "node-b" else "node-a"
  let init : Base58Text → Monitoring Base58Text Ip4Text := fun p =>
    Monitoring.start p .default true true true true true true true 4
  let found : RemotePing Base58Text := ⟨b, some b, fun _ h => (Option.some.inj h).symm⟩
  let labels : List (Label Base58Text Ip4Text) :=
    [.monitor a 5 (.command (fun _ => true) (.addPeer b (Ip4Text.mk "/ip4/10.0.0.2/tcp/5000"))),
      .tick a, .ping a 6 found 1700000000, .deliver 0, .pong a 7]
  obtain ⟨s, hrun, hlength, hmarked⟩ :
      ∃ s ∈ labels.foldlM (step nodeIds) (start nodeIds init), s.credits.length = 1 ∧
        ∀ c ∈ s.credits, c.marked = some b := by
    decide +kernel
  obtain ⟨hactor, -, hearned, -⟩ := pings_answered nodeIds init s labels (Run.of_foldlM hrun) b
  have hname : nodeIds b = "node-b" := if_pos rfl
  rw [hname] at hactor
  exact ⟨b, s, hlength, fun c hc => ⟨hmarked c hc, (hearned c hc).handled⟩, hactor⟩

end HealthNet
end Neolaas
