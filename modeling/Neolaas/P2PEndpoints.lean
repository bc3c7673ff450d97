import Neolaas.HealthProtocol

/-!
# The HTTP endpoints of the peer network

`get_p2p_stats` asks the health actors of the node and of all others for their
counters, and `broadcast_message` has the others acknowledge a text. A handler waits
for one actor at a time while the nodes go on pinging each other.
-/
namespace Neolaas
open ActorAsks LabelledRuns

/-- What the handlers need of the shared application state. `pingActor` is the node
whose health actor it refers to. -/
structure AppState (P : Type) where
  nodeId : String
  peerId : Option P
  pingActor : Option P
  deriving DecidableEq

structure LocalStats where
  pingsReceived : UInt64
  pongsSent : UInt64
  deriving DecidableEq

structure RemotePeerStats where
  peerId : String
  nodeId : String
  pingsReceived : UInt64
  pongsSent : UInt64
  reachable : Bool
  deriving DecidableEq

/-- P2P statistics response. -/
structure P2PStatsResponse where
  nodeId : String
  peerId : String
  localStats : LocalStats
  remotePeers : List RemotePeerStats
  deriving DecidableEq

/-- Broadcast message response. -/
structure BroadcastResponse where
  message : String
  peersReached : ℕ
  peersFailed : ℕ
  deriving DecidableEq

inductive P2PResponse where
  | stats (response : P2PStatsResponse)
  | broadcast (response : BroadcastResponse)
  deriving DecidableEq

/-- The statistics that have been reported. -/
def P2PResponse.statsOf : Except (ℕ × String) P2PResponse → Option P2PStatsResponse
  | .ok (.stats response) => some response
  | .ok (.broadcast _) | .error _ => none

/-- What a handler has collected. -/
inductive P2PProgress where
  | stats (localStats : Option LocalStats) (remotePeers : List RemotePeerStats)
  | broadcast (content : String) (peersReached peersFailed : ℕ)
  deriving DecidableEq

/-- A handler. `waiting` is the number of its ask, with the remote actor that it is for
unless that is the node's own. `asked` are the remote actors that it is done with, and
whether each has replied; `since` is how many messages the actors had handled when the
request came. -/
structure P2PHandler (P : Type) where
  app : AppState P
  progress : P2PProgress
  waiting : Option (ℕ × Option (RemotePing P))
  asked : List (RemotePing P × Bool)
  since : ℕ
  response : Option (Except (ℕ × String) P2PResponse)

/-- The nodes with the handlers of their HTTP requests. -/
structure P2PApi (P A : Type) where
  net : HealthNet P A
  handlers : List (P2PHandler P)

/-- A remote actor as the responses name it. -/
def RemotePing.name {P : Type} [PeerId P] (found : RemotePing P) : String :=
  (found.peerId.map PeerId.toBase58).getD "unknown"

namespace P2PHandler

/-- It neither waits for an actor nor has it responded. -/
def idle {P : Type} (h : P2PHandler P) : Bool := h.waiting.isNone && h.response.isNone

/-- What it sends to the others. -/
def message {P : Type} (peerId : P) (timestamp : ℤ) (h : P2PHandler P) : HealthMessage P :=
  match h.progress with
  | .stats _ _ => .getStats
  | .broadcast content _ _ => .broadcast ⟨h.app.nodeId, peerId, content, timestamp⟩

/-- A reply to what it waits for. -/
def receive {P : Type} [PeerId P] (h : P2PHandler P) :
    Option (RemotePing P) → HealthReply → Option (P2PHandler P)
  | none, .stats reply =>
    match h.progress with
    | .stats _ remotePeers =>
      some { h with
        progress := .stats (some ⟨reply.pingsReceived, reply.pongsSent⟩) remotePeers
        waiting := none }
    | .broadcast _ _ _ => none
  | some found, .stats reply =>
    match h.progress with
    | .stats localStats remotePeers =>
      some { h with
        progress := .stats localStats (remotePeers ++
          [⟨found.name, reply.nodeId, reply.pingsReceived, reply.pongsSent, true⟩])
        waiting := none
        asked := h.asked ++ [(found, true)] }
    | .broadcast _ _ _ => none
  | some found, .ack reply =>
    match h.progress with
    | .broadcast content peersReached peersFailed =>
      some { h with
        progress :=
          if reply.success then .broadcast content (peersReached + 1) peersFailed
          else .broadcast content peersReached (peersFailed + 1)
        waiting := none
        asked := h.asked ++ [(found, reply.success)] }
    | .stats _ _ => none
  | _, _ => none

/-- The ask has failed. -/
def fail {P : Type} [PeerId P] (error : String) (h : P2PHandler P) :
    Option (RemotePing P) → P2PHandler P
  | none =>
    { h with
      waiting := none
      response := some (.error (500, "Failed to get local stats: " ++ error)) }
  | some found =>
    match h.progress with
    | .stats localStats remotePeers =>
      { h with
        progress := .stats localStats (remotePeers ++ [⟨found.name, "unknown", 0, 0, false⟩])
        waiting := none
        asked := h.asked ++ [(found, false)] }
    | .broadcast content peersReached peersFailed =>
      { h with
        progress := .broadcast content peersReached (peersFailed + 1)
        waiting := none
        asked := h.asked ++ [(found, false)] }

/-- The lookup has no more actors. -/
def respond {P : Type} [PeerId P] (peerId : P) (h : P2PHandler P) : Option (P2PHandler P) :=
  match h.progress with
  | .stats (some localStats) remotePeers =>
    some { h with response := some (.ok (.stats
      ⟨h.app.nodeId, PeerId.toBase58 peerId, localStats, remotePeers⟩)) }
  | .stats none _ => none
  | .broadcast content peersReached peersFailed =>
    some { h with response := some (.ok (.broadcast
      ⟨"Broadcast sent: '" ++ content ++ "'", peersReached, peersFailed⟩)) }

/-- A request comes in. -/
def new {P : Type} (app : AppState P) (progress : P2PProgress) (since : ℕ) : P2PHandler P where
  app := app
  progress := progress
  waiting := none
  asked := []
  since := since
  response := none

/-- The network is not there yet. -/
def unavailable {P : Type} (error : String) (h : P2PHandler P) : P2PHandler P :=
  { h with response := some (.error (503, error)) }

end P2PHandler

namespace P2PApi

inductive Label (P A : Type) where
  | net (l : HealthNet.Label P A)
  | getP2pStats (app : AppState P)
  | broadcastMessage (app : AppState P) (content : String)
  /-- The lookup yields an actor. -/
  | found (index : ℕ) (found : RemotePing P) (timestamp : ℤ)
  | replied (index : ℕ)
  | failed (index : ℕ) (error : String)
  | respond (index : ℕ)

/-- A handler asks an actor and waits for it. -/
def ask {P A : Type} (index : ℕ) (target : P) (message : HealthMessage P)
    (who : Option (RemotePing P)) (h : P2PHandler P) (s : P2PApi P A) : P2PApi P A where
  net := { s.net with asks := s.net.asks.send (.handler index) target message }
  handlers := s.handlers.set index { h with waiting := some (s.net.asks.nextId, who) }

/-- A new handler, at the end of the others. -/
def accept {P A : Type} (h : P2PHandler P) (s : P2PApi P A) : P2PApi P A :=
  { s with handlers := s.handlers ++ [h] }

def step {P A : Type} [DecidableEq P] [PeerId P] [MultiaddrIter A] (nodeIds : P → String)
    (s : P2PApi P A) : Label P A → Option (P2PApi P A)
  | .net l =>
    match l with
    | .request _ _ _ => none
    | _ => (s.net.step nodeIds l).map (fun net => { s with net := net })
  | .getP2pStats app =>
    let h := P2PHandler.new app (.stats none []) s.net.asks.handled.length
    match app.peerId, app.pingActor with
    | none, _ => some (s.accept (h.unavailable "P2P network not initialized"))
    | some _, none => some (s.accept (h.unavailable "Ping actor not available"))
    | some _, some pingActor =>
      some ((s.accept h).ask s.handlers.length pingActor .getStats none h)
  | .broadcastMessage app content =>
    let h := P2PHandler.new app (.broadcast content 0 0) s.net.asks.handled.length
    match app.peerId with
    | none => some (s.accept (h.unavailable "P2P network not initialized"))
    | some _ => some (s.accept h)
  | .found index found timestamp =>
    match s.handlers[index]? with
    | some h =>
      match h.app.peerId with
      | some peerId =>
        if h.idle then
          if found.peerId = some peerId then some s
          else some (s.ask index found.node (h.message peerId timestamp) (some found) h)
        else none
      | none => none
    | none => none
  | .replied index =>
    match s.handlers[index]? with
    | some h =>
      match h.waiting with
      | some (id, who) =>
        ((s.net.asks.answer id).bind (fun replied => h.receive who replied.2)).map (fun h =>
          { s with handlers := s.handlers.set index h })
      | none => none
    | none => none
  | .failed index error =>
    match s.handlers[index]? with
    | some h => h.waiting.map (fun waiting =>
        { s with handlers := s.handlers.set index (h.fail error waiting.2) })
    | none => none
  | .respond index =>
    match s.handlers[index]? with
    | some h =>
      match h.app.peerId with
      | some peerId =>
        if h.idle then
          (h.respond peerId).map (fun h => { s with handlers := s.handlers.set index h })
        else none
      | none => none
    | none => none

end P2PApi

/-- Both counters are the number of pings that the actor of `p` had handled at a moment
since the log had this length. -/
def CountersTold {P : Type} [DecidableEq P] (p : P) (log : HealthLog P) (since : ℕ)
    (pings pongs : UInt64) : Prop :=
  ∃ before, before <+: log ∧ since ≤ before.length ∧
    pings = UInt64.ofNat (pingsHandled p before) ∧ pongs = pings

theorem CountersTold.mono {P : Type} [DecidableEq P] {p : P} {log log' : HealthLog P}
    {since : ℕ} {pings pongs : UInt64} (h : CountersTold p log since pings pongs)
    (hlog : log <+: log') : CountersTold p log' since pings pongs := by
  obtain ⟨before, hbefore, hrest⟩ := h
  exact ⟨before, hbefore.trans hlog, hrest⟩

/-- The entry of a remote actor that has replied or not. -/
structure RemotePeerStats.Describes {P : Type} [DecidableEq P] [PeerId P] (nodeIds : P → String)
    (log : HealthLog P) (since : ℕ) (asked : RemotePing P × Bool) (entry : RemotePeerStats) :
    Prop where
  peerId : entry.peerId = asked.1.name
  reachable : entry.reachable = asked.2
  told : asked.2 = true → entry.nodeId = nodeIds asked.1.node ∧
    CountersTold asked.1.node log since entry.pingsReceived entry.pongsSent
  unknown : asked.2 = false →
    entry.nodeId = "unknown" ∧ entry.pingsReceived = 0 ∧ entry.pongsSent = 0

/-- The actor has handled a broadcast of this text since the log had this length. -/
def Heard {P : Type} (log : HealthLog P) (since : ℕ) (app : AppState P) (content : String)
    (found : RemotePing P) : Prop :=
  ∃ peerId ask reply timestamp, app.peerId = some peerId ∧ (ask, reply) ∈ log ∧
    ask.target = found.node ∧ since ≤ ask.since ∧
    ask.message = .broadcast ⟨app.nodeId, peerId, content, timestamp⟩

namespace P2PHandler

/-- What has been collected is what the actors have replied. -/
def Collected {P : Type} [DecidableEq P] [PeerId P] (nodeIds : P → String) (log : HealthLog P)
    (h : P2PHandler P) : Prop :=
  match h.progress with
  | .stats localStats remotePeers =>
    (∀ stats ∈ localStats, ∃ own ∈ h.app.pingActor,
      CountersTold own log h.since stats.pingsReceived stats.pongsSent) ∧
    List.Forall₂ (RemotePeerStats.Describes nodeIds log h.since) h.asked remotePeers
  | .broadcast content peersReached peersFailed =>
    peersReached = h.asked.countP Prod.snd ∧ peersReached + peersFailed = h.asked.length ∧
    ∀ found, (found, true) ∈ h.asked → Heard log h.since h.app content found

/-- What a handler waits for has been sent to the actor that it has found. -/
def Sent {P : Type} (h : P2PHandler P) (ask : HealthAsk P) : Option (RemotePing P) → Prop
  | none => (∃ localStats remotePeers, h.progress = .stats localStats remotePeers) ∧
      ask.message = .getStats ∧ h.app.pingActor = some ask.target
  | some found => found.node = ask.target ∧ found.peerId ≠ h.app.peerId ∧
      ∃ peerId timestamp, h.app.peerId = some peerId ∧ ask.message = h.message peerId timestamp

/-- The response says what has been collected. -/
def Responds {P : Type} [PeerId P] (h : P2PHandler P) : Except (ℕ × String) P2PResponse → Prop
  | .ok (.stats r) => h.progress = .stats (some r.localStats) r.remotePeers ∧
      r.nodeId = h.app.nodeId ∧ h.app.peerId.map PeerId.toBase58 = some r.peerId
  | .ok (.broadcast r) => ∃ content, h.progress = .broadcast content r.peersReached r.peersFailed ∧
      r.message = "Broadcast sent: '" ++ content ++ "'"
  | .error (status, _) =>
    status = 500 ∨ status = 503 ∧ (h.app.peerId = none ∨ h.app.pingActor = none)

/-- A handler at any time of its request. -/
structure Handling {P : Type} [DecidableEq P] [PeerId P] (nodeIds : P → String)
    (asks : HealthAsks P) (h : P2PHandler P) : Prop where
  since : h.since ≤ asks.handled.length
  awaits : ∀ id who, h.waiting = some (id, who) →
    ∃ ask ∈ asks.sent, ask.id = id ∧ h.since ≤ ask.since ∧ h.Sent ask who
  collected : h.Collected nodeIds asks.handled
  others : ∀ asked ∈ h.asked, asked.1.peerId ≠ h.app.peerId
  quiet : h.response.isSome = true → h.waiting = none
  responds : ∀ response, h.response = some response → h.Responds response

end P2PHandler

/-- Asks are not forgotten. -/
structure HealthGrows {P : Type} (asks next : HealthAsks P) : Prop where
  sent : ∀ ask ∈ asks.sent, ask ∈ next.sent
  handled : asks.handled <+: next.handled

theorem HealthGrows.refl {P : Type} (asks : HealthAsks P) : HealthGrows asks asks :=
  ⟨fun _ h => h, List.prefix_refl _⟩

theorem healthGrows_send {P : Type} (asker : Asker P) (target : P) (message : HealthMessage P)
    (asks : HealthAsks P) : HealthGrows asks (asks.send asker target message) :=
  ⟨fun ask h => (Asks.mem_sent_send asker target message asks ask).mpr (Or.inl h),
    List.prefix_refl _⟩

theorem HealthNet.step_grows {P A : Type} [DecidableEq P] [PeerId P] [MultiaddrIter A]
    {nodeIds : P → String} {s t : HealthNet P A} {l : HealthNet.Label P A}
    (h : s.step nodeIds l = some t) : HealthGrows s.asks t.asks := by
  cases l with
  | monitor p now action =>
    cases action with
    | command dials command =>
      obtain ⟨monitoring, hstep, rfl⟩ := Option.map_eq_some_iff.mp h
      exact .refl _
    | swarm dials event =>
      obtain ⟨monitoring, hstep, rfl⟩ := Option.map_eq_some_iff.mp h
      exact .refl _
    | cleanup order =>
      obtain ⟨monitoring, hstep, rfl⟩ := Option.map_eq_some_iff.mp h
      exact .refl _
    | ping _ => cases h
    | pong => cases h
    | pingFails => cases h
  | tick p =>
    simp only [HealthNet.step] at h
    split_ifs at h
    obtain rfl := Option.some.inj h
    exact .refl _
  | endRound p =>
    simp only [HealthNet.step] at h
    split_ifs at h
    obtain rfl := Option.some.inj h
    exact .refl _
  | ping p now found timestamp =>
    simp only [HealthNet.step] at h
    split at h
    · split_ifs at h
      obtain ⟨monitoring, hstep, rfl⟩ := Option.map_eq_some_iff.mp h
      exact healthGrows_send ..
    · cases h
  | pong p now =>
    simp only [HealthNet.step] at h
    split at h
    · obtain ⟨monitoring, hstep, rfl⟩ := Option.map_eq_some_iff.mp h
      exact .refl _
    · cases h
  | pingFails p now =>
    simp only [HealthNet.step] at h
    split_ifs at h
    obtain ⟨monitoring, hstep, rfl⟩ := Option.map_eq_some_iff.mp h
    exact .refl _
  | deliver id =>
    obtain ⟨asks, hdeliver, rfl⟩ := Option.map_eq_some_iff.mp h
    refine ⟨fun ask hask => (Asks.sent_deliver hdeliver).mem_iff.mpr hask, ?_⟩
    obtain ⟨before, a, after, -, -, rfl⟩ := Asks.deliver_cases hdeliver
    exact List.prefix_append ..
  | request index target message =>
    simp only [HealthNet.step] at h
    split_ifs at h
    obtain rfl := Option.some.inj h
    exact healthGrows_send ..

namespace P2PHandler

theorem Collected.mono {P : Type} [DecidableEq P] [PeerId P] {nodeIds : P → String}
    {log log' : HealthLog P} {h : P2PHandler P} (hh : h.Collected nodeIds log)
    (hlog : log <+: log') : h.Collected nodeIds log' := by
  unfold Collected at hh ⊢
  split at hh
  · obtain ⟨hlocal, hremote⟩ := hh
    constructor
    · intro stats hstats
      obtain ⟨own, hown, htold⟩ := hlocal stats hstats
      exact ⟨own, hown, htold.mono hlog⟩
    · refine hremote.imp (fun asked entry hentry => ?_)
      obtain ⟨hpeer, hreachable, htold, hunknown⟩ := hentry
      refine ⟨hpeer, hreachable, fun hreplied => ?_, hunknown⟩
      obtain ⟨hname, hcounters⟩ := htold hreplied
      exact ⟨hname, hcounters.mono hlog⟩
  · obtain ⟨hreached, htotal, hheard⟩ := hh
    refine ⟨hreached, htotal, fun found hfound => ?_⟩
    obtain ⟨peerId, ask, reply, timestamp, hpeer, hmem, hrest⟩ := hheard found hfound
    exact ⟨peerId, ask, reply, timestamp, hpeer, hlog.subset hmem, hrest⟩

theorem Handling.mono {P : Type} [DecidableEq P] [PeerId P] {nodeIds : P → String}
    {asks next : HealthAsks P} {h : P2PHandler P} (hh : h.Handling nodeIds asks)
    (hgrows : HealthGrows asks next) : h.Handling nodeIds next := by
  obtain ⟨hsince, hawaits, hcollected, hothers, hquiet, hresponds⟩ := hh
  refine ⟨hsince.trans hgrows.handled.length_le, ?_, hcollected.mono hgrows.handled, hothers,
    hquiet, hresponds⟩
  intro id who hwaiting
  obtain ⟨ask, hmem, hrest⟩ := hawaits id who hwaiting
  exact ⟨ask, hgrows.sent ask hmem, hrest⟩

/-- A handler sends its next ask. -/
theorem Handling.ask {P : Type} [DecidableEq P] [PeerId P] {nodeIds : P → String}
    {asks : HealthAsks P} {h : P2PHandler P} (hh : h.Handling nodeIds asks)
    (hresponse : h.response = none) (asker : Asker P) (target : P) (message : HealthMessage P)
    {who : Option (RemotePing P)} (hsent : h.Sent (asks.ask asker target message) who) :
    Handling nodeIds (asks.send asker target message)
      { h with waiting := some (asks.nextId, who) } := by
  obtain ⟨hsince, -, hcollected, hothers, -, hresponds⟩ :=
    hh.mono (healthGrows_send asker target message asks)
  refine ⟨hsince, ?_, hcollected, hothers, ?_, hresponds⟩
  · intro id asked hwaiting
    obtain ⟨rfl, rfl⟩ := Prod.mk.inj (Option.some.inj hwaiting)
    exact ⟨asks.ask asker target message,
      (Asks.mem_sent_send asker target message asks _).mpr (Or.inr rfl), rfl, hh.since, hsent⟩
  · intro hsome
    have hsome : h.response.isSome = true := hsome
    rw [hresponse] at hsome
    cases hsome

/-- A reply to an ask for the counters tells them as they were at a moment since. -/
theorem countersTold_of_handled {P : Type} [DecidableEq P] {nodeIds : P → String}
    {asks : HealthAsks P} (hsound : asks.Sound HealthActor.handle (fun p => .new (nodeIds p)))
    {ask : HealthAsk P} {reply : HealthReply} (hhandled : (ask, reply) ∈ asks.handled)
    (hmessage : ask.message = .getStats) {since : ℕ} (hsince : since ≤ ask.since) :
    ∃ stats : StatsReply, reply = .stats stats ∧ stats.nodeId = nodeIds ask.target ∧
      CountersTold ask.target asks.handled since stats.pingsReceived stats.pongsSent := by
  obtain ⟨before, hbefore, hlater, hreply⟩ := hsound.reply_of_handled hhandled
  rw [hmessage, stateAfter_eq_pinged] at hreply
  exact ⟨_, hreply, rfl, before, hbefore, hsince.trans hlater, rfl, rfl⟩

theorem handled_of_broadcast {P : Type} [DecidableEq P] {nodeIds : P → String}
    {asks : HealthAsks P} (hsound : asks.Sound HealthActor.handle (fun p => .new (nodeIds p)))
    {ask : HealthAsk P} {reply : HealthReply} (hhandled : (ask, reply) ∈ asks.handled)
    {msg : BroadcastMessage P} (hmessage : ask.message = .broadcast msg) :
    reply = .ack ⟨nodeIds ask.target, true⟩ := by
  obtain ⟨before, -, -, hreply⟩ := hsound.reply_of_handled hhandled
  rw [hmessage, stateAfter_eq_pinged] at hreply
  exact hreply

/-- The next entry of a list that describes what has been asked. -/
theorem describes_append {P : Type} [DecidableEq P] [PeerId P] {nodeIds : P → String}
    {log : HealthLog P} {since : ℕ} {asked : List (RemotePing P × Bool)}
    {entries : List RemotePeerStats}
    (h : List.Forall₂ (RemotePeerStats.Describes nodeIds log since) asked entries)
    {found : RemotePing P × Bool} {entry : RemotePeerStats}
    (hentry : entry.Describes nodeIds log since found) :
    List.Forall₂ (RemotePeerStats.Describes nodeIds log since) (asked ++ [found])
      (entries ++ [entry]) := List.rel_append h (.cons hentry .nil)

/-- A handler is done with a remote actor. -/
theorem Handling.next {P : Type} [DecidableEq P] [PeerId P] {nodeIds : P → String}
    {asks : HealthAsks P} {h : P2PHandler P} (hh : h.Handling nodeIds asks)
    {found : RemotePing P} (hother : found.peerId ≠ h.app.peerId) {id : ℕ}
    (hwaiting : h.waiting = some (id, some found)) (replied : Bool) (progress : P2PProgress)
    (hcollected : Collected nodeIds asks.handled
      { h with progress := progress, waiting := none, asked := h.asked ++ [(found, replied)] }) :
    Handling nodeIds asks
      { h with progress := progress, waiting := none, asked := h.asked ++ [(found, replied)] } := by
  have hnone : h.response = none := by
    cases hresponse : h.response with
    | none => rfl
    | some response =>
      have hquiet := hh.quiet (by rw [hresponse]; rfl)
      rw [hwaiting] at hquiet
      cases hquiet
  refine ⟨hh.since, fun id who hwho => (by cases hwho), hcollected, ?_, fun _ => rfl, ?_⟩
  · intro asked hasked
    obtain hasked | hasked := List.mem_append.mp hasked
    · exact hh.others asked hasked
    · rw [List.mem_singleton.mp hasked]
      exact hother
  · intro response hresponse
    have hresponse : h.response = some response := hresponse
    rw [hnone] at hresponse
    cases hresponse

/-- A handler takes the reply that it waits for. -/
theorem Handling.receive {P : Type} [DecidableEq P] [PeerId P] {nodeIds : P → String}
    {asks : HealthAsks P} {h next : P2PHandler P}
    (hsound : asks.Sound HealthActor.handle (fun p => .new (nodeIds p)))
    (hh : h.Handling nodeIds asks) {id : ℕ} {who : Option (RemotePing P)}
    (hwaiting : h.waiting = some (id, who)) {replied : HealthAsk P × HealthReply}
    (hanswer : asks.answer id = some replied) (hnext : h.receive who replied.2 = some next) :
    next.Handling nodeIds asks := by
  obtain ⟨ask, reply⟩ := replied
  obtain ⟨sent, hmem, rfl, hsince, hsent⟩ := hh.awaits id who hwaiting
  obtain ⟨rfl, hhandled⟩ := hsound.handled_of_answer hmem hanswer
  have hcollected := hh.collected
  unfold Collected at hcollected
  cases who with
  | none =>
    obtain ⟨⟨localStats, remotePeers, hprogress⟩, hmessage, hown⟩ := hsent
    obtain ⟨stats, rfl, -, htold⟩ := countersTold_of_handled hsound hhandled hmessage hsince
    simp only [P2PHandler.receive, hprogress] at hnext
    obtain rfl := Option.some.inj hnext
    rw [hprogress] at hcollected
    refine ⟨hh.since, fun id who hwho => (by cases hwho), ⟨?_, hcollected.2⟩, hh.others,
      fun _ => rfl, ?_⟩
    · intro found hfound
      obtain rfl := Option.some.inj hfound
      exact ⟨ask.target, hown, htold⟩
    · intro response hresponse
      have hquiet := hh.quiet (by rw [show h.response = some response from hresponse]; rfl)
      rw [hwaiting] at hquiet
      cases hquiet
  | some found =>
    obtain ⟨hnode, hother, peerId, timestamp, hpeer, hmessage⟩ := hsent
    cases hprogress : h.progress with
    | stats localStats remotePeers =>
      rw [hprogress] at hcollected
      simp only [P2PHandler.message, hprogress] at hmessage
      obtain ⟨stats, rfl, hname, htold⟩ := countersTold_of_handled hsound hhandled hmessage hsince
      simp only [P2PHandler.receive, hprogress] at hnext
      obtain rfl := Option.some.inj hnext
      refine hh.next hother hwaiting true _ ⟨hcollected.1, describes_append hcollected.2 ?_⟩
      refine ⟨rfl, rfl, fun _ => ?_, fun hfalse => (by cases hfalse)⟩
      rw [hnode]
      exact ⟨hname, htold⟩
    | broadcast content peersReached peersFailed =>
      rw [hprogress] at hcollected
      obtain ⟨hreached, htotal, hheard⟩ := hcollected
      simp only [P2PHandler.message, hprogress] at hmessage
      obtain rfl := handled_of_broadcast hsound hhandled hmessage
      simp only [P2PHandler.receive, hprogress, if_true] at hnext
      obtain rfl := Option.some.inj hnext
      refine hh.next hother hwaiting true _ ⟨?_, ?_, ?_⟩
      · rw [List.countP_append, ← hreached]
        rfl
      · rw [List.length_append, ← htotal]
        simp only [List.length_singleton]
        omega
      · intro remote hremote
        obtain hremote | hremote := List.mem_append.mp hremote
        · exact hheard remote hremote
        · obtain ⟨rfl, -⟩ := Prod.mk.inj (List.mem_singleton.mp hremote)
          exact ⟨peerId, ask, _, timestamp, hpeer, hhandled, hnode.symm, hsince, hmessage⟩

/-- A handler goes on when its ask has failed. -/
theorem Handling.fail {P : Type} [DecidableEq P] [PeerId P] {nodeIds : P → String}
    {asks : HealthAsks P} {h : P2PHandler P} (hh : h.Handling nodeIds asks) {id : ℕ}
    {who : Option (RemotePing P)} (hwaiting : h.waiting = some (id, who)) (error : String) :
    (h.fail error who).Handling nodeIds asks := by
  obtain ⟨sent, -, -, -, hsent⟩ := hh.awaits id who hwaiting
  have hcollected := hh.collected
  unfold Collected at hcollected
  cases who with
  | none =>
    refine ⟨hh.since, fun id who hwho => (by cases hwho), hh.collected, hh.others,
      fun _ => rfl, ?_⟩
    intro response hresponse
    obtain rfl := Option.some.inj hresponse
    exact Or.inl rfl
  | some found =>
    obtain ⟨-, hother, -⟩ := hsent
    unfold P2PHandler.fail
    cases hprogress : h.progress with
    | stats localStats remotePeers =>
      rw [hprogress] at hcollected
      refine hh.next hother hwaiting false _ ⟨hcollected.1, describes_append hcollected.2 ?_⟩
      exact ⟨rfl, rfl, fun htrue => (by cases htrue), fun _ => ⟨rfl, rfl, rfl⟩⟩
    | broadcast content peersReached peersFailed =>
      rw [hprogress] at hcollected
      obtain ⟨hreached, htotal, hheard⟩ := hcollected
      refine hh.next hother hwaiting false _ ⟨?_, ?_, ?_⟩
      · rw [List.countP_append, ← hreached]
        rfl
      · rw [List.length_append, ← htotal]
        simp only [List.length_singleton]
        omega
      · intro remote hremote
        obtain hremote | hremote := List.mem_append.mp hremote
        · exact hheard remote hremote
        · cases (Prod.mk.inj (List.mem_singleton.mp hremote)).2

/-- A handler responds with what it has collected. -/
theorem Handling.respond {P : Type} [DecidableEq P] [PeerId P] {nodeIds : P → String}
    {asks : HealthAsks P} {h next : P2PHandler P} (hh : h.Handling nodeIds asks) {peerId : P}
    (hpeer : h.app.peerId = some peerId) (hidle : h.idle = true)
    (hnext : h.respond peerId = some next) : next.Handling nodeIds asks := by
  have hwaiting : h.waiting = none := by
    have hboth := (Bool.and_eq_true ..).mp hidle
    exact Option.isNone_iff_eq_none.mp hboth.1
  unfold P2PHandler.respond at hnext
  split at hnext
  · rename_i localStats remotePeers hprogress
    obtain rfl := Option.some.inj hnext
    refine ⟨hh.since, hh.awaits, hh.collected, hh.others, fun _ => hwaiting, ?_⟩
    intro response hresponse
    obtain rfl := Option.some.inj hresponse
    refine ⟨hprogress, rfl, ?_⟩
    show h.app.peerId.map PeerId.toBase58 = _
    rw [hpeer]
    rfl
  · cases hnext
  · rename_i content peersReached peersFailed hprogress
    obtain rfl := Option.some.inj hnext
    refine ⟨hh.since, hh.awaits, hh.collected, hh.others, fun _ => hwaiting, ?_⟩
    intro response hresponse
    obtain rfl := Option.some.inj hresponse
    exact ⟨content, hprogress, rfl⟩

theorem handling_new {P : Type} [DecidableEq P] [PeerId P] (nodeIds : P → String)
    (asks : HealthAsks P) (app : AppState P) {progress : P2PProgress}
    (hprogress : progress = .stats none [] ∨ ∃ content, progress = .broadcast content 0 0) :
    (new app progress asks.handled.length).Handling nodeIds asks := by
  refine ⟨le_refl _, fun id who hwho => (by cases hwho), ?_, fun asked hasked => (by cases hasked),
    fun _ => rfl, fun response hresponse => (by cases hresponse)⟩
  obtain rfl | ⟨content, rfl⟩ := hprogress
  · exact ⟨fun stats hstats => (by cases hstats), .nil⟩
  · exact ⟨rfl, rfl, fun found hfound => (by cases hfound)⟩

theorem Handling.unavailable {P : Type} [DecidableEq P] [PeerId P] {nodeIds : P → String}
    {asks : HealthAsks P} {h : P2PHandler P} (hh : h.Handling nodeIds asks)
    (hwaiting : h.waiting = none) (hmissing : h.app.peerId = none ∨ h.app.pingActor = none)
    (error : String) : (h.unavailable error).Handling nodeIds asks := by
  refine ⟨hh.since, hh.awaits, hh.collected, hh.others, fun _ => hwaiting, ?_⟩
  intro response hresponse
  obtain rfl := Option.some.inj hresponse
  exact Or.inr ⟨rfl, hmissing⟩

end P2PHandler

namespace P2PApi

/-- The nodes run as ever, and each handler is somewhere in its request. -/
structure Serves {P A : Type} [DecidableEq P] [PeerId P] [MultiaddrIter A]
    (nodeIds : P → String) (init : P → Monitoring P A) (s : P2PApi P A) : Prop where
  net : s.net.Answered nodeIds init
  handlers : ∀ h ∈ s.handlers, h.Handling nodeIds s.net.asks

/-- A step of a handler is none of the nodes, or its ask. -/
theorem step_net {P A : Type} [DecidableEq P] [PeerId P] [MultiaddrIter A] {nodeIds : P → String}
    {s t : P2PApi P A} {l : Label P A} (h : s.step nodeIds l = some t) :
    t.net = s.net ∨ ∃ l', s.net.step nodeIds l' = some t.net := by
  have hask : ∀ index target (message : HealthMessage P) who handler (u : P2PApi P A),
      message.isPing = false → u.net = s.net →
      ∃ l', s.net.step nodeIds l' = some (u.ask index target message who handler).net := by
    intro index target message who handler u hping hu
    refine ⟨.request index target message, ?_⟩
    show (if message.isPing then none else some _) = _
    rw [hping, ← hu]
    rfl
  cases l with
  | net l =>
    cases l with
    | request index target message => cases h
    | _ =>
      obtain ⟨net, hnet, rfl⟩ := Option.map_eq_some_iff.mp h
      exact Or.inr ⟨_, hnet⟩
  | getP2pStats app =>
    simp only [P2PApi.step] at h
    split at h
    · obtain rfl := Option.some.inj h
      exact Or.inl rfl
    · obtain rfl := Option.some.inj h
      exact Or.inl rfl
    · obtain rfl := Option.some.inj h
      exact Or.inr (hask _ _ _ _ _ _ rfl rfl)
  | broadcastMessage app content =>
    simp only [P2PApi.step] at h
    split at h
    · obtain rfl := Option.some.inj h
      exact Or.inl rfl
    · obtain rfl := Option.some.inj h
      exact Or.inl rfl
  | found index found timestamp =>
    simp only [P2PApi.step] at h
    split at h
    · rename_i handler hhandler
      split at h
      · split_ifs at h
        · obtain rfl := Option.some.inj h
          exact Or.inl rfl
        · obtain rfl := Option.some.inj h
          refine Or.inr (hask _ _ _ _ _ _ ?_ rfl)
          unfold P2PHandler.message
          cases handler.progress <;> rfl
      · cases h
    · cases h
  | replied index =>
    simp only [P2PApi.step] at h
    split at h
    · split at h
      · obtain ⟨handler, -, rfl⟩ := Option.map_eq_some_iff.mp h
        exact Or.inl rfl
      · cases h
    · cases h
  | failed index error =>
    simp only [P2PApi.step] at h
    split at h
    · obtain ⟨waiting, -, rfl⟩ := Option.map_eq_some_iff.mp h
      exact Or.inl rfl
    · cases h
  | respond index =>
    simp only [P2PApi.step] at h
    split at h
    · split at h
      · split_ifs at h
        obtain ⟨handler, -, rfl⟩ := Option.map_eq_some_iff.mp h
        exact Or.inl rfl
      · cases h
    · cases h

/-- One handler goes on. -/
theorem Serves.set {P A : Type} [DecidableEq P] [PeerId P] [MultiaddrIter A]
    {nodeIds : P → String} {init : P → Monitoring P A} {s : P2PApi P A}
    (hs : s.Serves nodeIds init) (index : ℕ) {h : P2PHandler P}
    (hh : h.Handling nodeIds s.net.asks) :
    Serves nodeIds init { s with handlers := s.handlers.set index h } := by
  refine ⟨hs.net, fun other hother => ?_⟩
  obtain hother | rfl := List.mem_or_eq_of_mem_set hother
  · exact hs.handlers other hother
  · exact hh

theorem Serves.accept {P A : Type} [DecidableEq P] [PeerId P] [MultiaddrIter A]
    {nodeIds : P → String} {init : P → Monitoring P A} {s : P2PApi P A}
    (hs : s.Serves nodeIds init) {h : P2PHandler P} (hh : h.Handling nodeIds s.net.asks) :
    (s.accept h).Serves nodeIds init := by
  refine ⟨hs.net, fun other hother => ?_⟩
  obtain hother | hother := List.mem_append.mp hother
  · exact hs.handlers other hother
  · rw [List.mem_singleton.mp hother]
    exact hh

/-- One handler asks an actor, and the others wait as they did. -/
theorem Serves.ask {P A : Type} [DecidableEq P] [PeerId P] [MultiaddrIter A]
    {nodeIds : P → String} {init : P → Monitoring P A} {s : P2PApi P A}
    (hs : s.Serves nodeIds init) {h : P2PHandler P} (hh : h.Handling nodeIds s.net.asks)
    (hresponse : h.response = none) (index : ℕ) (target : P) (message : HealthMessage P)
    {who : Option (RemotePing P)}
    (hsent : h.Sent (s.net.asks.ask (.handler index) target message) who) :
    (s.ask index target message who h).Serves nodeIds init := by
  refine ⟨hs.net.send (.handler index) target message, fun other hother => ?_⟩
  obtain hother | rfl := List.mem_or_eq_of_mem_set hother
  · exact (hs.handlers other hother).mono (healthGrows_send ..)
  · exact hh.ask hresponse (.handler index) target message hsent

theorem Serves.step {P A : Type} [DecidableEq P] [PeerId P] [MultiaddrIter A]
    {nodeIds : P → String} {init : P → Monitoring P A} {s t : P2PApi P A} {l : Label P A}
    (hs : s.Serves nodeIds init) (h : s.step nodeIds l = some t) : t.Serves nodeIds init := by
  cases l with
  | net l =>
    cases l with
    | request index target message => cases h
    | _ =>
      obtain ⟨net, hnet, rfl⟩ := Option.map_eq_some_iff.mp h
      refine ⟨hs.net.step hnet, fun handler hmem => ?_⟩
      exact (hs.handlers handler hmem).mono (HealthNet.step_grows hnet)
  | getP2pStats app =>
    have hnew := P2PHandler.handling_new nodeIds s.net.asks app (Or.inl rfl)
    simp only [P2PApi.step] at h
    split at h
    · rename_i hpeer
      obtain rfl := Option.some.inj h
      exact hs.accept (hnew.unavailable rfl (Or.inl hpeer) _)
    · rename_i peerId hpeer hactor
      obtain rfl := Option.some.inj h
      exact hs.accept (hnew.unavailable rfl (Or.inr hactor) _)
    · rename_i peerId pingActor hpeer hactor
      obtain rfl := Option.some.inj h
      exact (hs.accept hnew).ask hnew rfl _ _ _ ⟨⟨none, [], rfl⟩, rfl, hactor⟩
  | broadcastMessage app content =>
    have hnew := P2PHandler.handling_new nodeIds s.net.asks app (Or.inr ⟨content, rfl⟩)
    simp only [P2PApi.step] at h
    split at h
    · rename_i hpeer
      obtain rfl := Option.some.inj h
      exact hs.accept (hnew.unavailable rfl (Or.inl hpeer) _)
    · obtain rfl := Option.some.inj h
      exact hs.accept hnew
  | found index found timestamp =>
    simp only [P2PApi.step] at h
    split at h
    · rename_i handler hhandler
      have hhandling := hs.handlers handler (List.mem_of_getElem? hhandler)
      split at h
      · rename_i peerId hpeer
        split_ifs at h with hidle hself
        · obtain rfl := Option.some.inj h
          exact hs
        · obtain rfl := Option.some.inj h
          have hboth := (Bool.and_eq_true ..).mp hidle
          refine hs.ask hhandling (Option.isNone_iff_eq_none.mp hboth.2) _ _ _ ?_
          refine ⟨rfl, ?_, peerId, timestamp, hpeer, rfl⟩
          rw [hpeer]
          exact hself
      · cases h
    · cases h
  | replied index =>
    simp only [P2PApi.step] at h
    split at h
    · rename_i handler hhandler
      have hhandling := hs.handlers handler (List.mem_of_getElem? hhandler)
      split at h
      · rename_i id who hwaiting
        obtain ⟨next, hnext, rfl⟩ := Option.map_eq_some_iff.mp h
        obtain ⟨replied, hanswer, hreceive⟩ := Option.bind_eq_some_iff.mp hnext
        exact hs.set index (hhandling.receive hs.net.sound hwaiting hanswer hreceive)
      · cases h
    · cases h
  | failed index error =>
    simp only [P2PApi.step] at h
    split at h
    · rename_i handler hhandler
      have hhandling := hs.handlers handler (List.mem_of_getElem? hhandler)
      obtain ⟨⟨id, who⟩, hwaiting, rfl⟩ := Option.map_eq_some_iff.mp h
      exact hs.set index (hhandling.fail hwaiting error)
    · cases h
  | respond index =>
    simp only [P2PApi.step] at h
    split at h
    · rename_i handler hhandler
      have hhandling := hs.handlers handler (List.mem_of_getElem? hhandler)
      split at h
      · rename_i peerId hpeer
        split_ifs at h with hidle
        obtain ⟨next, hnext, rfl⟩ := Option.map_eq_some_iff.mp h
        exact hs.set index (hhandling.respond hpeer hidle hnext)
      · cases h
    · cases h

end P2PApi

/-- What a response may claim. Its node is that of the handler. Local counters and those
of actors that replied are what they were at a moment since the request, with an entry
for each other actor that was found. The broadcast counts those actors, and all that it
has reached have handled it. -/
def P2PHandler.Tells {P : Type} [DecidableEq P] [PeerId P] (nodeIds : P → String)
    (log : HealthLog P) (h : P2PHandler P) : Except (ℕ × String) P2PResponse → Prop
  | .ok (.stats r) =>
    r.nodeId = h.app.nodeId ∧ h.app.peerId.map PeerId.toBase58 = some r.peerId ∧
    (∃ own ∈ h.app.pingActor,
      CountersTold own log h.since r.localStats.pingsReceived r.localStats.pongsSent) ∧
    List.Forall₂ (RemotePeerStats.Describes nodeIds log h.since) h.asked r.remotePeers
  | .ok (.broadcast r) =>
    r.peersReached = h.asked.countP Prod.snd ∧ r.peersReached + r.peersFailed = h.asked.length ∧
    ∃ content, r.message = "Broadcast sent: '" ++ content ++ "'" ∧
      ∀ found, (found, true) ∈ h.asked → Heard log h.since h.app content found
  | .error (status, _) =>
    status = 500 ∨ status = 503 ∧ (h.app.peerId = none ∨ h.app.pingActor = none)

namespace P2PApi

/-- In every run of the nodes and any number of handlers, the nodes run as the net of
health actors does, no handler has asked or is asking the node that it names itself, and
each response tells what the health actors have done since its request. -/
theorem responses_told {P A : Type} [DecidableEq P] [PeerId P] [MultiaddrIter A]
    (nodeIds : P → String) (init : P → Monitoring P A) (s : P2PApi P A) (labels : List (Label P A))
    (hrun : Run (StepOf (step nodeIds)) ⟨.start nodeIds init, []⟩ labels s) :
    (∃ own, Run (StepOf (HealthNet.step nodeIds)) (.start nodeIds init) own s.net) ∧
    ∀ h ∈ s.handlers, (∀ asked ∈ h.asked, asked.1.peerId ≠ h.app.peerId) ∧
      (∀ id found, h.waiting = some (id, some found) → found.peerId ≠ h.app.peerId) ∧
      ∀ response, h.response = some response → h.Tells nodeIds s.net.asks.handled response := by
  constructor
  · refine hrun.invariant (I := fun s => ∃ own, Run (StepOf (HealthNet.step nodeIds))
      (.start nodeIds init) own s.net) ?_ ⟨[], .nil _⟩
    intro s l t hs hst
    obtain ⟨own, hown⟩ := hs
    obtain hsame | ⟨l', hnet⟩ := step_net hst
    · rw [hsame]
      exact ⟨own, hown⟩
    · exact ⟨own ++ [l'], hown.append (.single hnet)⟩
  · have hs : s.Serves nodeIds init := hrun.invariant (fun _ _ _ hs hst => hs.step hst)
      ⟨HealthNet.answered_start nodeIds init, fun h hmem => (by cases hmem)⟩
    intro h hmem
    obtain ⟨-, hawaits, hcollected, hothers, -, hresponds⟩ := hs.handlers h hmem
    refine ⟨hothers, fun id found hwaiting => ?_, fun response hresponse => ?_⟩
    · obtain ⟨ask, -, -, -, hsent⟩ := hawaits id (some found) hwaiting
      exact hsent.2.1
    have hsays := hresponds response hresponse
    unfold P2PHandler.Collected at hcollected
    cases response with
    | error failure => exact hsays
    | ok told =>
      cases told with
      | stats r =>
        obtain ⟨hprogress, hnode, hpeer⟩ := hsays
        rw [hprogress] at hcollected
        exact ⟨hnode, hpeer, hcollected.1 r.localStats rfl, hcollected.2⟩
      | broadcast r =>
        obtain ⟨content, hprogress, hmessage⟩ := hsays
        rw [hprogress] at hcollected
        obtain ⟨hreached, htotal, hheard⟩ := hcollected
        exact ⟨hreached, htotal, content, hmessage, hheard⟩

/-- A node that has pinged another asks it for its counters. -/
theorem responses_told_pinged :
    ∃ (s : P2PApi Base58Text Ip4Text) (h : P2PHandler Base58Text) (r : P2PStatsResponse)
      (nodeIds : Base58Text → String), h ∈ s.handlers ∧ h.response = some (.ok (.stats r)) ∧
      r.remotePeers.map RemotePeerStats.pingsReceived = [1] ∧ List.Forall₂
        (RemotePeerStats.Describes nodeIds s.net.asks.handled h.since) h.asked r.remotePeers := by
  let a := peerOf "12D3KooWAAAAAAAAAAAAAAAAAAAAAAAAAAAAAAAAAAAAAAAAAAAA"
  let b := peerOf "12D3KooWBBBBBBBBBBBBBBBBBBBBBBBBBBBBBBBBBBBBBBBBBBBB"
  let nodeIds : Base58Text → String := fun p => if p = b then "node-b" else "node-a"
  let init : Base58Text → Monitoring Base58Text Ip4Text := fun p =>
    Monitoring.start p .default true true true true true true true 4
  let remote : RemotePing Base58Text := ⟨b, some b, fun _ h => (Option.some.inj h).symm⟩
  let app : AppState Base58Text := ⟨"node-a", some a, some a⟩
  let nodes : List (HealthNet.Label Base58Text Ip4Text) :=
    [.monitor a 5 (.command (fun _ => true) (.addPeer b (Ip4Text.mk "/ip4/10.0.0.2/tcp/5000"))),
      .tick a, .ping a 6 remote 1700000000, .deliver 0, .pong a 7]
  let labels : List (Label Base58Text Ip4Text) := nodes.map .net ++ [.getP2pStats app,
    .net (.deliver 1), .replied 0, .found 0 remote 1700000001, .net (.deliver 2), .replied 0,
    .respond 0]
  obtain ⟨s, hrun, h, hmem, r, -, hresponse, hpings⟩ :
      ∃ s ∈ labels.foldlM (step nodeIds) ⟨.start nodeIds init, []⟩, ∃ h ∈ s.handlers,
        ∃ r ∈ h.response.bind P2PResponse.statsOf, h.response = some (.ok (.stats r)) ∧
        r.remotePeers.map RemotePeerStats.pingsReceived = [1] := by
    decide +kernel
  obtain ⟨-, hhandlers⟩ := responses_told nodeIds init s labels (Run.of_foldlM hrun)
  obtain ⟨-, -, htells⟩ := hhandlers h hmem
  obtain ⟨-, -, -, hdescribes⟩ := htells _ hresponse
  exact ⟨s, h, r, nodeIds, hmem, hresponse, hpings, hdescribes⟩

end P2PApi
end Neolaas
