import Neolaas.MachineIntake

/-!
# The manager's cache and the machines in etcd

The manager learns of machines from one snapshot and from a watch that is opened
without a revision, again after each failure. What is committed while no watch is
open reaches the cache only through the snapshot, if that comes later, and a
snapshot does not take machines out of the cache.
-/
namespace Neolaas
open ChangeLog AtomicProgram LabelledRuns

/-- The change of a machine that a change of its key is. -/
def machineChange (c : Change String String) : Change String String :=
  ⟨(stripPrefix machinesPrefix c.key).getD c.key, c.value⟩

@[simp] theorem cacheChange_changeMessage (c : Change String String) :
    (changeMessage c).cacheChange = some (machineChange c) := by
  obtain ⟨key, value⟩ := c
  cases value <;> rfl

@[simp] theorem machineChange_key (machineId : String) (specJson : Option String) :
    machineChange ⟨machinesPrefix ++ machineId, specJson⟩ = ⟨machineId, specJson⟩ := by
  simp [machineChange]

/-- A write to a machine's key changes the stored machines. -/
theorem World.stored_apply {P : Type} (w : World P) (machineId : String)
    (specJson : Option String) :
    World.stored { w with etcd := w.etcd.apply ⟨machinesPrefix ++ machineId, specJson⟩ } =
      Change.apply w.stored ⟨machineId, specJson⟩ := by
  ext1 id
  have hget : World.stored
      { w with etcd := w.etcd.apply ⟨machinesPrefix ++ machineId, specJson⟩ } id =
      Change.apply (fun k => w.etcd[k]?) ⟨machinesPrefix ++ machineId, specJson⟩
        (machinesPrefix ++ id) := Etcd.getElem?_apply ..
  rw [hget]
  by_cases h : id = machineId
  · rw [h, Change.apply, Change.apply, Function.update_self, Function.update_self]
  · have hne : machinesPrefix ++ id ≠ machinesPrefix ++ machineId :=
      fun he => h (append_left_injective _ he)
    rw [Change.apply, Change.apply, Function.update_of_ne hne, Function.update_of_ne h]
    rfl

/-- Discovery has not fired its signal and has not ended. -/
def DiscoveryStage.Early : DiscoveryStage → Prop
  | .registering | .converging _ | .converged => True
  | .maintenance _ | .stopped | .failed => False

instance : DecidablePred DiscoveryStage.Early
  | .registering | .converging _ | .converged => isTrue trivial
  | .maintenance _ | .stopped | .failed => isFalse id

namespace Node

/-- The initial sync has yet to read the machines. -/
def SyncAhead {P A : Type} (s : Node P A) : Prop :=
  s.stage.Early ∨ s.convergenceSignal = true ∨ .syncAllMachines ∈ s.mailbox ∨ s.reading = true

instance {P A : Type} (s : Node P A) : Decidable s.SyncAhead :=
  inferInstanceAs (Decidable (_ ∨ _ ∨ _ ∨ _))

/-- The changes that messages make to the cache. -/
def cacheChanges (messages : List ManagerMessage) : List (Change String String) :=
  messages.filterMap ManagerMessage.cacheChange

theorem cacheChanges_cons (message : ManagerMessage) (messages : List ManagerMessage) :
    cacheChanges (message :: messages) =
      message.cacheChange.toList ++ cacheChanges messages := by
  unfold cacheChanges
  cases h : message.cacheChange <;> simp [h]

@[simp] theorem cacheChanges_nil : cacheChanges [] = [] := rfl

theorem cacheChanges_append (xs ys : List ManagerMessage) :
    cacheChanges (xs ++ ys) = cacheChanges xs ++ cacheChanges ys := List.filterMap_append

@[simp] theorem cacheChanges_singleton (message : ManagerMessage) :
    cacheChanges [message] = message.cacheChange.toList := by
  rw [cacheChanges_cons]
  exact List.append_nil _

/-- The changes in the mailbox that the initial sync reads after. -/
def ahead {P A : Type} (s : Node P A) : List (Change String String) :=
  if s.reading then [] else cacheChanges (s.mailbox.takeWhile (· ≠ .syncAllMachines))

/-- The changes in the mailbox that come after the initial sync. -/
def behind {P A : Type} (s : Node P A) : List (Change String String) :=
  if s.reading then cacheChanges s.mailbox
  else cacheChanges (s.mailbox.dropWhile (· ≠ .syncAllMachines))

/-- The changes of machines that the open watch will deliver. -/
def watched {P A : Type} (s : Node P A) : List (Change String String) :=
  (s.watch.getD []).map machineChange

/-- Missing a change of a machine to the given spec does no harm: what is in hand and
in the mailbox brings the cache there anyway, or the initial sync will. The sync
brings it there if no other change of the machine comes after the sync, and the
machine is stored or not in the cache that the sync finds. -/
def Harmless {P A : Type} (s : Node P A) (machineId : String) (specJson : Option String) : Prop :=
  s.expects (s.inHand ++ cacheChanges s.mailbox) machineId = specJson ∨
    (s.SyncAhead ∧ ¬Touches s.behind machineId ∧
      (s.expects (s.inHand ++ s.ahead) machineId = none ∨ specJson ≠ none))

instance {P A : Type} (s : Node P A) (machineId : String) (specJson : Option String) :
    Decidable (s.Harmless machineId specJson) :=
  inferInstanceAs (Decidable (
    s.expects (s.inHand ++ cacheChanges s.mailbox) machineId = specJson ∨
    (s.SyncAhead ∧ ¬(∃ c ∈ s.behind, c.key = machineId) ∧
      (s.expects (s.inHand ++ s.ahead) machineId = none ∨ specJson ≠ none))))

/-- The watch misses only what does no harm. It misses what is committed while it
is not open, and loses what it has not delivered. -/
def NoGap {P A : Type} (s : Node P A) : Label P → Prop
  | .commit machineId specJson => s.watch = none → s.Harmless machineId specJson
  | .loseWatch => ∀ c ∈ s.watched, s.Harmless c.key (s.world.stored c.key)
  | _ => True

instance {P A : Type} (s : Node P A) (l : Label P) : Decidable (s.NoGap l) :=
  match l with
  | .commit _ _ => inferInstanceAs (Decidable (_ → _))
  | .loseWatch => inferInstanceAs (Decidable (∀ c ∈ s.watched, _))
  | .openWatch | .forwardEvent | .startConverge _ | .convergeKv | .convergeDone _
  | .signalConvergence | .watchResponse _ | .processEvent _ | .stopDiscovery | .bridgeReceive
  | .bridgeAsk | .bridgeNotify | .listen | .sync | .handle _ | .advance | .finish | .ask _ _
  | .tick _ => isTrue trivial

/-- The pending changes bring a cache to the stored spec of a machine, or the
initial sync will. -/
def Covers {P A : Type} (s : Node P A) (cache : String → Option String) (machineId : String) :
    Prop :=
  Follows cache (cacheChanges s.mailbox ++ s.watched) s.world.stored machineId ∨
    (s.SyncAhead ∧ Repairable cache s.ahead (s.behind ++ s.watched) s.world.stored machineId)

/-- The cache to which the running handler leads is covered. -/
def Keeps {P A : Type} [SerdeJson] [DecidableEq P] [PeerId P] (score : Score P) (s : Node P A) :
    Prop := ∃ cache, s.Heads score cache ∧ ∀ machineId, s.Covers cache machineId

/-- A step that changes neither the stored machines nor what is pending. -/
theorem Covers.frame {P A : Type} {s t : Node P A} {cache : String → Option String}
    {machineId : String} (h : s.Covers cache machineId) (hrunning : t.running = s.running)
    (hstored : t.world.stored = s.world.stored) (hmailbox : t.mailbox = s.mailbox)
    (hwatched : t.watched = s.watched) (hahead : s.SyncAhead → t.SyncAhead) :
    t.Covers cache machineId := by
  unfold Covers ahead behind at h ⊢
  rw [reading_congr hrunning, hmailbox, hwatched, hstored]
  exact h.imp id (And.imp_left hahead)

/-- A message that arrives comes after the initial sync, or ahead of it if the
sync has yet to arrive. -/
theorem split_receive {P A : Type} {s t : Node P A} {message : ManagerMessage}
    (hrunning : t.running = s.running) (hmailbox : t.mailbox = s.mailbox ++ [message]) :
    (t.ahead = s.ahead ∧ t.behind = s.behind ++ message.cacheChange.toList) ∨
      (s.behind = [] ∧ t.behind = [] ∧ t.ahead = s.ahead ++ message.cacheChange.toList) := by
  unfold ahead behind
  rw [reading_congr hrunning, hmailbox]
  by_cases hreading : s.reading = true
  · simp only [hreading, if_true]
    exact Or.inl ⟨by simp, by rw [cacheChanges_append, cacheChanges_singleton]⟩
  · simp only [hreading]
    by_cases hsync : ∀ m ∈ s.mailbox, m ≠ .syncAllMachines
    · have hpos : ∀ m ∈ s.mailbox, decide (m ≠ ManagerMessage.syncAllMachines) = true :=
        fun m hm => by simpa using hsync m hm
      simp only [Bool.false_eq_true, if_false]
      rw [List.takeWhile_append_of_pos hpos, List.dropWhile_append_of_pos hpos,
        List.takeWhile_eq_self_iff.mpr hpos, List.dropWhile_eq_nil_iff.mpr hpos]
      by_cases hm : message = .syncAllMachines
      · subst hm
        exact Or.inl (by simp [cacheChanges, ManagerMessage.cacheChange])
      · refine Or.inr ⟨by simp [cacheChanges], by simp [hm, cacheChanges], ?_⟩
        rw [cacheChanges_append]
        simp [hm]
    · have hdrop : s.mailbox.dropWhile (· ≠ ManagerMessage.syncAllMachines) ≠ [] := by
        rw [ne_eq, List.dropWhile_eq_nil_iff]
        intro hall
        exact hsync (fun m hm => by simpa using hall m hm)
      have htake : (s.mailbox ++ [message]).takeWhile (· ≠ ManagerMessage.syncAllMachines) =
          s.mailbox.takeWhile (· ≠ ManagerMessage.syncAllMachines) := by
        rw [List.takeWhile_append, if_neg]
        intro hlength
        apply hdrop
        have hsplit := congrArg List.length
          (List.takeWhile_append_dropWhile
            (p := (· ≠ ManagerMessage.syncAllMachines)) (l := s.mailbox))
        rw [List.length_append] at hsplit
        exact List.length_eq_zero_iff.mp (by omega)
      simp only [Bool.false_eq_true, if_false]
      rw [htake, List.dropWhile_append, if_neg (by simpa using hdrop), cacheChanges_append,
        cacheChanges_singleton]
      exact Or.inl ⟨rfl, rfl⟩

/-- A message that arrives, the change of which the watch no longer holds. -/
theorem Covers.receive {P A : Type} {s t : Node P A} {cache : String → Option String}
    {machineId : String} (message : ManagerMessage) (h : s.Covers cache machineId)
    (hrunning : t.running = s.running) (hworld : t.world = s.world)
    (hmailbox : t.mailbox = s.mailbox ++ [message])
    (hwatched : s.watched = message.cacheChange.toList ++ t.watched)
    (hahead : s.SyncAhead → t.SyncAhead) : t.Covers cache machineId := by
  obtain hfollows | ⟨hsync, hrepair⟩ := h
  · left
    rw [hmailbox, cacheChanges_append, cacheChanges_singleton, List.append_assoc, ← hwatched,
      hworld]
    exact hfollows
  · right
    refine ⟨hahead hsync, ?_⟩
    rw [hworld]
    rw [hwatched] at hrepair
    obtain ⟨ha, hb⟩ | ⟨hs, ht, ha⟩ := split_receive hrunning hmailbox
    · rw [ha, hb, List.append_assoc]
      exact hrepair
    · rw [hs, List.nil_append] at hrepair
      rw [ha, ht, List.nil_append]
      exact hrepair.advance

/-- A committed change that an open watch will deliver. -/
theorem Covers.commit_watched {P A : Type} {s t : Node P A} {cache : String → Option String}
    {machineId : String} {c : Change String String} (h : s.Covers cache machineId)
    (hrunning : t.running = s.running) (hstored : t.world.stored = Change.apply s.world.stored c)
    (hmailbox : t.mailbox = s.mailbox) (hwatched : t.watched = s.watched ++ [c])
    (hahead : s.SyncAhead → t.SyncAhead) : t.Covers cache machineId := by
  unfold Covers ahead behind
  rw [reading_congr hrunning, hmailbox, hwatched, hstored, ← List.append_assoc]
  by_cases hkey : c.key = machineId
  · subst hkey
    exact Or.inl (Follows.commit_key cache s.world.stored _ c)
  · have hother : Change.apply s.world.stored c machineId = s.world.stored machineId :=
      Change.apply_of_ne _ c (Ne.symm hkey)
    obtain hfollows | ⟨hsync, hrepair⟩ := h
    · exact Or.inl (hfollows.commit c)
    · right
      refine ⟨hahead hsync, ?_⟩
      rw [← List.append_assoc]
      apply Repairable.append _ (by simpa using hkey)
      exact hrepair.of_store_eq hother

/-- A harmless missed change of a machine leaves it covered. -/
theorem Harmless.covers {P A : Type} [SerdeJson] [DecidableEq P] [PeerId P] {score : Score P}
    {s t : Node P A} {machineId : String} {specJson : Option String}
    {cache : String → Option String} (h : s.Harmless machineId specJson)
    (hheads : s.Heads score cache) (hrunning : t.running = s.running)
    (hmailbox : t.mailbox = s.mailbox) (hwatched : t.watched = [])
    (hstored : t.world.stored machineId = specJson) (hahead : s.SyncAhead → t.SyncAhead) :
    t.Covers cache machineId := by
  unfold Harmless at h
  rw [hheads.expects_eq, hheads.expects_eq] at h
  unfold Covers ahead behind
  rw [reading_congr hrunning, hmailbox, hwatched, List.append_nil, List.append_nil]
  obtain hbrings | ⟨hsync, hnot, hvalue⟩ := h
  · left
    unfold Follows
    rw [hbrings, hstored]
  · right
    refine ⟨hahead hsync, hnot, ?_⟩
    rw [hstored]
    exact hvalue

/-- The manager takes a message. -/
theorem Covers.handle {P A : Type} {s t : Node P A} {cache : String → Option String}
    {machineId : String} {message : ManagerMessage} (h : s.Covers cache machineId)
    (hidle : s.reading = false) (hworld : t.world = s.world)
    (hmailbox : s.mailbox = message :: t.mailbox)
    (hreading : t.reading = decide (message = .syncAllMachines))
    (hwatched : t.watched = s.watched) (hstage : t.stage = s.stage)
    (hsignal : t.convergenceSignal = s.convergenceSignal) :
    t.Covers (replay cache message.cacheChange.toList) machineId := by
  by_cases hsync : message = .syncAllMachines
  · subst hsync
    rw [decide_eq_true rfl] at hreading
    unfold Covers ahead behind at h ⊢
    simp only [hidle, hmailbox, hreading, if_true, hwatched, hworld] at h ⊢
    obtain hfollows | ⟨-, hrepair⟩ := h
    · left
      simpa [cacheChanges_cons, ManagerMessage.cacheChange] using hfollows
    · right
      refine ⟨Or.inr (Or.inr (Or.inr hreading)), ?_⟩
      simpa [cacheChanges_cons, ManagerMessage.cacheChange] using hrepair
  · rw [decide_eq_false hsync] at hreading
    unfold Covers ahead behind at h ⊢
    simp only [hidle, hmailbox, hreading, hwatched, hworld, cacheChanges_cons, hsync, ne_eq,
      not_false_eq_true, decide_true, List.takeWhile_cons_of_pos, List.dropWhile_cons_of_pos,
      Bool.false_eq_true, if_false, List.append_assoc] at h ⊢
    obtain hfollows | ⟨hahead, hrepair⟩ := h
    · exact Or.inl (Follows.deliver.mp hfollows)
    · right
      refine ⟨?_, hrepair.deliver⟩
      unfold SyncAhead at hahead ⊢
      rw [hidle, hmailbox, List.mem_cons] at hahead
      rw [hstage, hsignal, hreading]
      simpa [Ne.symm hsync] using hahead

/-- A sync reads, which repairs the cache. -/
theorem Covers.read {P A : Type} {s t : Node P A} {cache : String → Option String}
    {machineId : String} (h : s.Covers cache machineId) (hreading : s.reading = true)
    (hmailbox : t.mailbox = s.mailbox) (hwatched : t.watched = s.watched)
    (hstored : t.world.stored = s.world.stored) :
    t.Covers (overlay cache s.world.stored) machineId := by
  left
  rw [hmailbox, hwatched, hstored]
  unfold Covers ahead behind at h
  simp only [hreading, if_true] at h
  exact Follows.overlay (h.imp id And.right)

/-- The running handler performs an operation. The first one of a sync repairs
the cache. -/
theorem Covers.advance {P A : Type} {s t : Node P A} {cache : String → Option String}
    {machineId : String} (h : s.Covers cache machineId) (hafter : t.reading = false)
    (hmailbox : t.mailbox = s.mailbox) (hwatched : t.watched = s.watched)
    (hstored : t.world.stored = s.world.stored) (hstage : t.stage = s.stage)
    (hsignal : t.convergenceSignal = s.convergenceSignal) :
    t.Covers (replay cache (s.takes .advance)) machineId := by
  by_cases hreading : s.reading = true
  · have htakes : s.takes .advance =
        Program.machinePuts (s.world.etcd.getPrefix machinesPrefix) := if_pos hreading
    rw [htakes, Program.replay_machinePuts]
    exact h.read hreading hmailbox hwatched hstored
  · have htakes : s.takes .advance = [] := if_neg hreading
    have hbefore : s.reading = false := by simpa using hreading
    rw [htakes, replay_nil]
    unfold Covers ahead behind SyncAhead at h ⊢
    rw [hmailbox, hwatched, hstored, hstage, hsignal, hafter]
    rw [hbefore] at h
    exact h

/-- A message that is taken is not the sync, or is about to read. -/
theorem reading_of_handle {P A : Type} [SerdeJson] [DecidableEq P] [PeerId P] (score : Score P)
    {t : Node P A} {message : ManagerMessage} {machineIds : List String}
    (htask : t.running = some (message, message.handler machineIds)) :
    t.reading = decide (message = .syncAllMachines) := by
  by_cases hsync : message = .syncAllMachines
  · subst hsync
    exact reading_of_sync htask
  · rw [decide_eq_false hsync]
    exact reading_of_leads htask (message.handler_leads score hsync machineIds t.world)

/-- After an operation the running handler is not about to read. -/
theorem Heads.reading_advance {P A : Type} [SerdeJson] [DecidableEq P] [PeerId P]
    {score : Score P} {s t : Node P A} {cache : String → Option String}
    {message : ManagerMessage} {op : Op P} {next : op.Ret → Program P ManagerReply}
    {result : op.Ret} (h : s.Heads score cache)
    (hrunning : s.running = some (message, .step op next))
    (hexec : World.exec score op s.world = some (result, t.world))
    (htask : t.running = some (message, next result)) : t.reading = false := by
  unfold Heads at h
  simp only [hrunning] at h
  obtain ⟨-, -, rfl, machineIds, hprogram⟩ | ⟨-, hleads⟩ := h
  · obtain ⟨next', hhandler, hleads⟩ := ManagerMessage.sync_leads (P := P) machineIds
    rw [hhandler] at hprogram
    cases hprogram
    obtain ⟨hresult, hworld⟩ := Prod.mk.inj (Option.some.inj hexec)
    have hlead := hleads score s.world
    rw [hresult, hworld] at hlead
    exact reading_of_leads htask hlead
  · exact reading_of_leads htask (hleads.advance hexec).2

/-- A change of a machine is committed, and is pending or missed without harm. -/
theorem Covers.commit {P A : Type} [SerdeJson] [DecidableEq P] [PeerId P] {score : Score P}
    {s : Node P A} {cache : String → Option String} {id machineId : String}
    {specJson : Option String} (hcover : s.Covers cache id) (hheads : s.Heads score cache)
    (hgap : s.NoGap (.commit machineId specJson))
    (hahead : s.SyncAhead → (s.commit machineId specJson).SyncAhead) :
    (s.commit machineId specJson).Covers cache id := by
  obtain ⟨-, -, heq⟩ | heq := commit_cases machineId specJson s
  · rw [heq]
    exact hcover
  · rw [heq] at hahead ⊢
    have hstored := s.world.stored_apply machineId specJson
    cases hw : s.watch with
    | some pending =>
      refine hcover.commit_watched (c := ⟨machineId, specJson⟩) rfl hstored rfl ?_ hahead
      simp [watched, hw]
    | none =>
      have hharmless : s.Harmless machineId specJson := hgap hw
      by_cases hid : id = machineId
      · subst hid
        refine hharmless.covers hheads rfl rfl ?_ ?_ hahead
        · simp [watched]
        · rw [hstored]
          exact Change.apply_key s.world.stored ⟨id, specJson⟩
      · have hother : World.stored { s.world with
            etcd := s.world.etcd.apply ⟨machinesPrefix ++ machineId, specJson⟩ } id =
            s.world.stored id := by
          rw [hstored]
          exact Change.apply_of_ne s.world.stored ⟨machineId, specJson⟩ hid
        unfold Covers watched at hcover ⊢
        simp only [hw, Option.map_none] at hcover ⊢
        obtain hfollows | ⟨hsync, hrepair⟩ := hcover
        · exact Or.inl (hfollows.of_store_eq hother)
        · have hsync' := hahead hsync
          simp only [hw, Option.map_none] at hsync'
          exact Or.inr ⟨hsync', hrepair.of_store_eq hother⟩

/-- The watch is lost with what it has not delivered, which does no harm. -/
theorem Covers.loseWatch {P A : Type} [SerdeJson] [DecidableEq P] [PeerId P] {score : Score P}
    {s : Node P A} {cache : String → Option String} {id : String} (hcover : s.Covers cache id)
    (hheads : s.Heads score cache) (hgap : s.NoGap .loseWatch)
    (hahead : s.SyncAhead → ({ s with watch := none } : Node P A).SyncAhead) :
    ({ s with watch := none } : Node P A).Covers cache id := by
  by_cases htouch : Touches s.watched id
  · obtain ⟨c, hc, rfl⟩ := htouch
    exact (hgap c hc).covers hheads rfl rfl rfl rfl hahead
  · obtain hfollows | ⟨hsync, hrepair⟩ := hcover
    · left
      rw [Follows.append_iff htouch] at hfollows
      show Follows cache (cacheChanges s.mailbox ++ []) s.world.stored id
      rwa [List.append_nil]
    · right
      refine ⟨hahead hsync, ?_, hrepair.2⟩
      show ¬Touches (s.behind ++ []) id
      have hnot := hrepair.1
      rw [touches_append, not_or] at hnot
      rw [List.append_nil]
      exact hnot.1

/-- A step that misses nothing harmful keeps the cache on its way to the stored
machines, unless it ends discovery before the initial sync. -/
theorem Keeps.step {P A : Type} [SerdeJson] [DecidableEq P] [PeerId P] [Multiaddr A]
    {score : Score P} {s t : Node P A} {l : Label P} (hs : s.Keeps score)
    (hsound : s.Sound score (fun _ _ => True)) (hgap : s.NoGap l)
    (h : Steps score s l t) (halive : t.managerAlive = true)
    (hahead : s.SyncAhead → s.reading = false → t.SyncAhead) : t.Keeps score := by
  have hsame : t.running = s.running → s.SyncAhead → t.SyncAhead := by
    intro hrunning hsync
    cases hreading : s.reading with
    | true =>
      refine Or.inr (Or.inr (Or.inr ?_))
      rw [reading_congr hrunning]
      exact hreading
    | false => exact hahead hsync hreading
  obtain ⟨cache, hheads, hcovers⟩ := hs
  refine ⟨replay cache (s.takes l), hheads.step h halive, fun id => ?_⟩
  have hcover := hcovers id
  cases h with
  | commit machineId specJson =>
    refine hcover.commit hheads hgap (hsame ?_)
    obtain ⟨etcd, watch, heq⟩ := commit_frame machineId specJson s
    rw [heq]
  | openWatch hw =>
    refine hcover.frame rfl rfl rfl ?_ (hsame rfl)
    unfold watched
    rw [hw]
    rfl
  | @forwardEvent c pending hw =>
    have hmanager : s.managerAlive = true := by simpa using halive
    refine hcover.receive (changeMessage c) (send_running _ _) (send_world _ _) ?_ ?_
      (hsame (send_running _ _))
    · simp [Node.send, hmanager]
    · unfold watched
      rw [send_watch, cacheChange_changeMessage, hw]
      rfl
  | loseWatch hw =>
    exact hcover.loseWatch hheads hgap (hsame rfl)
  | discover hd =>
    have htakes : s.takes l = [] := by cases hd <;> rfl
    rw [htakes]
    exact hcover.frame rfl rfl rfl rfl (hsame rfl)
  | bridgeReceive hb hpeers => exact hcover.frame rfl rfl rfl rfl (hsame rfl)
  | @bridgeAsk peers hb =>
    have hstored : (applyTopology peers s.world).stored = s.world.stored := by
      unfold applyTopology
      split_ifs <;> rfl
    exact hcover.frame rfl hstored rfl rfl (hsame rfl)
  | bridgeNotify hb => exact hcover.frame rfl rfl rfl rfl (hsame rfl)
  | listen hn =>
    have hmanager : s.managerAlive = true := by simpa using halive
    have hrunning : (({ s with topologyNotices := s.topologyNotices - 1 } : Node P A).send
        .rebalanceActors).running = s.running := send_running _ _
    refine hcover.receive .rebalanceActors hrunning (send_world _ _) ?_ ?_ (hsame hrunning)
    · simp [Node.send, hmanager]
    · unfold watched
      show (s.watch.getD []).map machineChange = [] ++ _
      rw [List.nil_append]
      simp only [send_watch]
  | sync hsignal =>
    have hmanager : s.managerAlive = true := by simpa using halive
    have hrunning : (s.send .syncAllMachines).running = s.running := send_running _ _
    refine hcover.receive .syncAllMachines hrunning (send_world _ _) ?_ ?_ (hsame hrunning)
    · simp [Node.send, hmanager]
    · unfold watched
      show (s.watch.getD []).map machineChange = [] ++ _
      rw [List.nil_append]
      simp only [send_watch]
  | @handle machineIds message mailbox hrunning hmailbox hmanager hkeys =>
    have htakes : s.takes (.handle machineIds) = message.cacheChange.toList := by
      simp [takes, hmailbox]
    have hidle : s.reading = false := by simp [reading, hrunning]
    rw [htakes]
    exact hcover.handle hidle rfl hmailbox (reading_of_handle score rfl) rfl rfl rfl
  | @advance message op next result world hrunning hexec =>
    have hetcd := (hsound.advance hrunning hexec).frame.2.1
    refine hcover.advance (hheads.reading_advance hrunning hexec rfl) rfl rfl ?_ rfl rfl
    unfold World.stored
    rw [hetcd]
  | panic => cases halive
  | @finish message reply listenerAsking hrunning =>
    have hreading : s.reading = false := by simp [reading, hrunning]
    show Covers _ cache id
    unfold Covers ahead behind SyncAhead at hcover ⊢
    rw [hreading] at hcover
    exact hcover
  | ask machineId message hm => exact hcover.frame rfl rfl rfl rfl (hsame rfl)
  | tick now => exact hcover.frame rfl rfl rfl rfl (hsame rfl)

/-- The initial syncs that are still to come, on their way or running. -/
def syncs {P A : Type} (s : Node P A) : ℕ :=
  (if s.stage.Early then 1 else 0) + (if s.convergenceSignal then 1 else 0) +
    s.mailbox.count .syncAllMachines +
    (if s.running.map Prod.fst = some .syncAllMachines then 1 else 0)

theorem changeMessage_ne_sync (c : Change String String) :
    changeMessage c ≠ .syncAllMachines := by
  unfold changeMessage
  cases c.value <;> simp

/-- A message other than the sync adds no sync. -/
theorem syncs_send {P A : Type} {message : ManagerMessage} (hne : message ≠ .syncAllMachines)
    (s : Node P A) : (s.send message).syncs = s.syncs := by
  unfold syncs send
  by_cases halive : s.managerAlive = true
  · simp only [if_pos halive, List.count_append, List.count_singleton, beq_iff_eq, hne, if_false,
      Nat.add_zero]
  · simp only [if_neg halive]

/-- No step adds an initial sync. -/
theorem syncs_step {P A : Type} [SerdeJson] [DecidableEq P] [PeerId P] [Multiaddr A]
    {score : Score P} {s t : Node P A} {l : Label P} (h : Steps score s l t) :
    t.syncs ≤ s.syncs := by
  cases h with
  | commit machineId specJson =>
    obtain ⟨etcd, watch, heq⟩ := commit_frame machineId specJson s
    rw [heq]
    exact le_rfl
  | openWatch => exact le_rfl
  | @forwardEvent c pending hw =>
    rw [syncs_send (changeMessage_ne_sync c)]
    exact le_rfl
  | loseWatch => exact le_rfl
  | discover hd =>
    unfold syncs
    cases hd with
    | signalConvergence hstage =>
      have hearly : s.stage.Early := by
        rw [hstage]
        trivial
      have hlater : ¬(DiscoveryStage.maintenance []).Early := id
      rw [if_pos hearly, if_neg hlater, if_pos rfl]
      show _ + s.mailbox.count _ + (if s.running.map _ = _ then 1 else 0) ≤ _
      omega
    | startConverge kvs hstage => simp [hstage, DiscoveryStage.Early]
    | convergeKv hstage hkv => simp [hstage, DiscoveryStage.Early]
    | convergeError hstage hkv => simp [hstage, DiscoveryStage.Early]
    | convergePanic hstage => simp [hstage, DiscoveryStage.Early]
    | convergeDone peers hstage hpeers => simp [hstage, DiscoveryStage.Early]
    | watchResponse events hstage => simp [hstage, DiscoveryStage.Early]
    | processEvent hstage hevent hpeers => simp [hstage, DiscoveryStage.Early]
    | eventError hstage hevent => simp [hstage, DiscoveryStage.Early]
    | eventPanic hstage => simp [hstage, DiscoveryStage.Early]
    | stopDiscovery hstage => simp [DiscoveryStage.Early]
  | bridgeReceive => exact le_rfl
  | bridgeAsk => exact le_rfl
  | bridgeNotify => exact le_rfl
  | listen hn =>
    have hne : ManagerMessage.rebalanceActors ≠ .syncAllMachines := by simp
    exact (syncs_send hne { s with topologyNotices := s.topologyNotices - 1 }).le
  | sync hsignal =>
    unfold syncs send
    split_ifs <;> simp_all <;> omega
  | @handle machineIds message mailbox hrunning hmailbox halive hkeys =>
    unfold syncs
    rw [hrunning, hmailbox, List.count_cons]
    simp only [Option.map_some, Option.map_none, Option.some.injEq, beq_iff_eq, reduceCtorEq,
      if_false]
    omega
  | @advance message op next result world hrunning hexec =>
    unfold syncs
    rw [hrunning]
    exact le_rfl
  | panic =>
    unfold syncs
    simp
    omega
  | finish listenerAsking hrunning =>
    unfold syncs
    simp
  | ask => exact le_rfl
  | tick => exact le_rfl

/-- What comes to run is a sync only if it was running or is about to read. -/
theorem running_sync_step {P A : Type} [SerdeJson] [DecidableEq P] [PeerId P] [Multiaddr A]
    {score : Score P} {s t : Node P A} {l : Label P} (h : Steps score s l t)
    (hsync : t.running.map Prod.fst = some .syncAllMachines) :
    s.running.map Prod.fst = some .syncAllMachines ∨ t.reading = true := by
  cases h with
  | commit machineId specJson =>
    obtain ⟨etcd, watch, heq⟩ := commit_frame machineId specJson s
    rw [heq] at hsync
    exact Or.inl hsync
  | forwardEvent hw =>
    rw [send_running] at hsync
    exact Or.inl hsync
  | listen hn =>
    have hrunning : (({ s with topologyNotices := s.topologyNotices - 1 } : Node P A).send
        .rebalanceActors).running = s.running := send_running _ _
    exact Or.inl (hrunning ▸ hsync)
  | sync hsignal =>
    have hrunning : (s.send .syncAllMachines).running = s.running := send_running _ _
    exact Or.inl (hrunning ▸ hsync)
  | handle hrunning hmailbox halive hkeys =>
    obtain rfl := Option.some.inj hsync
    exact Or.inr (reading_of_sync rfl)
  | advance hrunning hexec =>
    rw [hrunning]
    exact Or.inl hsync
  | panic => cases hsync
  | finish listenerAsking hrunning => cases hsync
  | openWatch => exact Or.inl hsync
  | loseWatch => exact Or.inl hsync
  | discover => exact Or.inl hsync
  | bridgeReceive => exact Or.inl hsync
  | bridgeAsk => exact Or.inl hsync
  | bridgeNotify => exact Or.inl hsync
  | ask => exact Or.inl hsync
  | tick => exact Or.inl hsync

/-- The initial sync has been carried out and is about to be answered. -/
def Synced {P A : Type} (s : Node P A) : Prop :=
  match s.running with
  | some (.syncAllMachines, .done _) => True
  | _ => False

instance {P A : Type} (s : Node P A) : Decidable s.Synced := by
  unfold Synced
  split <;> infer_instance

/-- A watch is open and has no events left, and the manager lives and is idle. -/
def Drained {P A : Type} (s : Node P A) : Prop :=
  s.watch = some [] ∧ s.mailbox = [] ∧ s.running.isNone = true ∧ s.managerAlive = true

instance {P A : Type} (s : Node P A) : Decidable s.Drained :=
  inferInstanceAs (Decidable (_ ∧ _ ∧ _ ∧ _))

/-- Until the initial sync has been handled: there is at most one, and the cache
is on its way as long as there is one. -/
structure Syncing {P A : Type} [SerdeJson] [DecidableEq P] [PeerId P] (score : Score P)
    (s : Node P A) : Prop where
  sound : s.Sound score (fun _ _ => True)
  contained : s.world.Contained
  single : s.syncs ≤ 1
  keeps : s.managerAlive = true → 0 < s.syncs → s.Keeps score

/-- From then on no sync is ahead and the cache stays on its way. -/
structure Following {P A : Type} [SerdeJson] [DecidableEq P] [PeerId P] (score : Score P)
    (s : Node P A) : Prop where
  sound : s.Sound score (fun _ _ => True)
  contained : s.world.Contained
  past : s.managerAlive = true → ¬s.SyncAhead
  keeps : s.managerAlive = true → s.Keeps score

/-- A sync that is ahead and not reading is still counted apart from the running one. -/
theorem SyncAhead.syncs {P A : Type} {s : Node P A} (h : s.SyncAhead)
    (hreading : s.reading = false) :
    1 + (if s.running.map Prod.fst = some .syncAllMachines then 1 else 0) ≤ s.syncs := by
  unfold Node.syncs
  obtain hearly | hsignal | hmailbox | hread := h
  · rw [if_pos hearly]
    omega
  · rw [if_pos hsignal]
    omega
  · have hcount := List.count_pos_iff.mpr hmailbox
    omega
  · rw [hreading] at hread
    cases hread

theorem syncAhead_or_running {P A : Type} {s : Node P A} (h : 0 < s.syncs) :
    s.SyncAhead ∨ s.running.map Prod.fst = some .syncAllMachines := by
  by_contra hnot
  rw [not_or] at hnot
  obtain ⟨hahead, hrunning⟩ := hnot
  unfold SyncAhead at hahead
  rw [not_or, not_or, not_or] at hahead
  obtain ⟨hearly, hsignal, hmailbox, -⟩ := hahead
  unfold Node.syncs at h
  rw [if_neg hearly, if_neg hsignal, if_neg hrunning, List.count_eq_zero.mpr hmailbox] at h
  exact absurd h (by omega)

theorem Syncing.step {P A : Type} [SerdeJson] [DecidableEq P] [PeerId P] [Multiaddr A]
    {score : Score P} {s t : Node P A} {l : Label P} (hs : s.Syncing score)
    (hgap : s.NoGap l) (h : Steps score s l t) : t.Syncing score := by
  obtain ⟨hsound, haffects⟩ := hs.sound.step (specsSatisfy_true s l) h
  have hfewer := syncs_step h
  constructor
  · exact hsound
  · exact haffects.contained hs.contained
  · exact hfewer.trans hs.single
  · intro halive hsyncs
    have hkeeps := hs.keeps (managerAlive_step h halive) (by omega)
    refine hkeeps.step hs.sound hgap h halive ?_
    intro hahead hreading
    have hcount := hahead.syncs hreading
    have hsingle := hs.single
    have hidle : ¬s.running.map Prod.fst = some .syncAllMachines := by
      intro hrunning
      rw [if_pos hrunning] at hcount
      omega
    obtain hahead' | hrunning' := syncAhead_or_running hsyncs
    · exact hahead'
    · obtain hrunning | hread := running_sync_step h hrunning'
      · exact absurd hrunning hidle
      · exact Or.inr (Or.inr (Or.inr hread))

/-- With the cache on its way, no step brings a sync about. -/
theorem syncAhead_step {P A : Type} [SerdeJson] [DecidableEq P] [PeerId P] [Multiaddr A]
    {score : Score P} {s t : Node P A} {l : Label P} (hs : s.Keeps score) (h : Steps score s l t)
    (hpast : ¬s.SyncAhead) : ¬t.SyncAhead := by
  have hreading : s.reading = false := by
    by_contra hread
    exact hpast (Or.inr (Or.inr (Or.inr (by simpa using hread))))
  -- A message other than the sync is sent.
  have hsend : ∀ message (u : Node P A), message ≠ .syncAllMachines →
      (u.send message).SyncAhead → u.SyncAhead := by
    intro message u hne hahead
    unfold send at hahead
    split_ifs at hahead with halive
    · obtain hearly | hsignal | hmailbox | hread := hahead
      · exact Or.inl hearly
      · exact Or.inr (Or.inl hsignal)
      · obtain hmailbox | hmessage := List.mem_append.mp hmailbox
        · exact Or.inr (Or.inr (Or.inl hmailbox))
        · exact absurd (List.mem_singleton.mp hmessage).symm hne
      · exact Or.inr (Or.inr (Or.inr hread))
    · exact hahead
  intro hahead
  apply hpast
  cases h with
  | commit machineId specJson =>
    obtain ⟨etcd, watch, heq⟩ := commit_frame machineId specJson s
    rwa [heq] at hahead
  | @forwardEvent c pending hw =>
    exact hsend _ { s with watch := some pending } (changeMessage_ne_sync c) hahead
  | discover hd =>
    obtain hearly | hsignal | hrest := hahead
    · left
      cases hd with
      | startConverge kvs hstage => rw [hstage]; trivial
      | convergeKv hstage hkv => rw [hstage]; trivial
      | convergeDone peers hstage hpeers => rw [hstage]; trivial
      | _ => exact hearly.elim
    · cases hd with
      | signalConvergence hstage =>
        left
        rw [hstage]
        trivial
      | _ => exact Or.inr (Or.inl hsignal)
    · exact Or.inr (Or.inr hrest)
  | listen hn =>
    exact hsend .rebalanceActors { s with topologyNotices := s.topologyNotices - 1 } (by simp)
      hahead
  | sync hsignal => exact Or.inr (Or.inl hsignal)
  | @handle machineIds message mailbox hrunning hmailbox hmanager hkeys =>
    have hin : ∀ m ∈ message :: mailbox, m ∈ s.mailbox := fun m hm => hmailbox ▸ hm
    obtain hearly | hsignal | hmail | hread := hahead
    · exact Or.inl hearly
    · exact Or.inr (Or.inl hsignal)
    · exact Or.inr (Or.inr (Or.inl (hin _ (List.mem_cons_of_mem message hmail))))
    · rw [reading_of_handle score rfl, decide_eq_true_iff] at hread
      exact Or.inr (Or.inr (Or.inl (hin _ (hread ▸ List.mem_cons_self))))
  | @advance message op next result world hrunning hexec =>
    obtain hearly | hsignal | hmail | hread := hahead
    · exact Or.inl hearly
    · exact Or.inr (Or.inl hsignal)
    · exact Or.inr (Or.inr (Or.inl hmail))
    · -- After an operation the handler has read already.
      obtain ⟨cache, hheads, -⟩ := hs
      have hafter := hheads.reading_advance (t := { s with
        world := world, running := some (message, next result)
        fetched := op.fetch result s.fetched }) hrunning hexec rfl
      rw [hafter] at hread
      cases hread
  | panic =>
    obtain hearly | hsignal | hmail | hread := hahead
    · exact Or.inl hearly
    · exact Or.inr (Or.inl hsignal)
    · cases hmail
    · cases hread
  | finish listenerAsking hrunning =>
    obtain hearly | hsignal | hmail | hread := hahead
    · exact Or.inl hearly
    · exact Or.inr (Or.inl hsignal)
    · exact Or.inr (Or.inr (Or.inl hmail))
    · cases hread
  | openWatch => exact hahead
  | loseWatch => exact hahead
  | bridgeReceive => exact hahead
  | bridgeAsk => exact hahead
  | bridgeNotify => exact hahead
  | ask => exact hahead
  | tick => exact hahead

theorem Following.step {P A : Type} [SerdeJson] [DecidableEq P] [PeerId P] [Multiaddr A]
    {score : Score P} {s t : Node P A} {l : Label P} (hs : s.Following score)
    (hgap : s.NoGap l) (h : Steps score s l t) : t.Following score := by
  obtain ⟨hsound, haffects⟩ := hs.sound.step (specsSatisfy_true s l) h
  have hkeeps : t.managerAlive = true → s.Keeps score :=
    fun halive => hs.keeps (managerAlive_step h halive)
  have hpast : t.managerAlive = true → ¬s.SyncAhead :=
    fun halive => hs.past (managerAlive_step h halive)
  constructor
  · exact hsound
  · exact haffects.contained hs.contained
  · intro halive
    exact syncAhead_step (hkeeps halive) h (hpast halive)
  · intro halive
    refine (hkeeps halive).step hs.sound hgap h halive ?_
    intro hahead _
    exact absurd hahead (hpast halive)

theorem syncing_start {P A : Type} [SerdeJson] [DecidableEq P] [PeerId P] (score : Score P)
    {clusterId : String} {localPeerId : P} {localAddr : A} {logDebug : Bool} {nodeId : String}
    {etcd : Etcd} {now : ℤ} {s : Node P A}
    (h : start clusterId localPeerId localAddr logDebug nodeId etcd now = some s) :
    s.Syncing score := by
  have hsound := sound_start score (fun _ _ => True) (fun _ _ _ => trivial) h
  obtain ⟨coordinator, -, rfl⟩ := Option.map_eq_some_iff.mp h
  constructor
  · exact hsound
  · intro machineId hmem
    simp [MachineActorManagerActor.new] at hmem
  · simp [syncs]
    split_ifs <;> omega
  · intro _ _
    refine ⟨fun _ => none, ?_, fun machineId => ?_⟩
    · funext machineId
      simp [World.cached, MachineActorManagerActor.new]
    · -- Nothing is pending, and the sync finds an empty cache.
      right
      refine ⟨Or.inl trivial, ?_, Or.inl ?_⟩
      · simp [behind, watched, Touches, cacheChanges]
      · simp [ahead, cacheChanges]

/-- In every run in which the watch misses nothing harmful, once the initial sync
has been handled, an open watch without events and an idle manager mean that the
cache holds exactly the stored machines, and that every actor is of one of them. -/
theorem machine_specs_stored {P A : Type} [SerdeJson] [DecidableEq P] [PeerId P] [Multiaddr A]
    (score : Score P) (clusterId : String) (localPeerId : P) (localAddr : A) (logDebug : Bool)
    (nodeId : String) (etcd : Etcd) (now : ℤ) (s₀ s₁ s : Node P A)
    (labels₁ labels₂ : List (Label P))
    (hstart : start clusterId localPeerId localAddr logDebug nodeId etcd now = some s₀)
    (hbefore : Run (Guarded (NoGap) (StepOf (Node.step score))) s₀ labels₁ s₁)
    (hsynced : s₁.Synced)
    (hafter : Run (Guarded (NoGap) (StepOf (Node.step score))) s₁ labels₂ s)
    (hdrained : s.Drained) :
    (∀ machineId, s.world.manager.machineSpecs[machineId]? =
      s.world.etcd[machinesPrefix ++ machineId]?) ∧
    ∀ machineId ∈ s.world.manager.actors,
      (s.world.etcd[machinesPrefix ++ machineId]?).isSome = true := by
  obtain ⟨hwatch, hmailbox, hidle, halive⟩ := hdrained
  have hsyncing : s₁.Syncing score := hbefore.invariant
    (fun _ _ _ hs hst => hs.step hst.1 (step_cases hst.2)) (syncing_start score hstart)
  -- The sync that is being answered was the last one.
  obtain ⟨reply, hrunning⟩ : ∃ reply, s₁.running = some (.syncAllMachines, .done reply) := by
    unfold Synced at hsynced
    split at hsynced
    · rename_i reply hrunning
      exact ⟨reply, hrunning⟩
    · exact hsynced.elim
  have hreading : s₁.reading = false := by simp [reading, hrunning]
  have hcount : 0 < s₁.syncs := by
    unfold syncs
    rw [hrunning]
    simp
  have hpast : ¬s₁.SyncAhead := by
    intro hahead
    have hmore := hahead.syncs hreading
    have hsingle := hsyncing.single
    rw [hrunning, Option.map_some, if_pos rfl] at hmore
    omega
  have hfollowing : s.Following score := hafter.invariant
    (fun _ _ _ hs hst => hs.step hst.1 (step_cases hst.2))
    ⟨hsyncing.sound, hsyncing.contained, fun _ => hpast, fun h => hsyncing.keeps h hcount⟩
  obtain ⟨cache, hheads, hcovers⟩ := hfollowing.keeps halive
  have hcached : s.world.cached = cache := by
    unfold Heads at hheads
    rw [Option.isNone_iff_eq_none] at hidle
    simpa [hidle] using hheads
  have hequal : ∀ machineId, s.world.cached machineId = s.world.stored machineId := by
    intro machineId
    obtain hfollows | ⟨hahead, -⟩ := hcovers machineId
    · rw [hcached]
      have hwatched : s.watched = [] := by
        unfold watched
        rw [hwatch]
        rfl
      rw [hmailbox, hwatched] at hfollows
      exact hfollows.drained
    · exact absurd hahead (hfollowing.past halive)
  refine ⟨hequal, fun machineId hactor => ?_⟩
  have hspec := hfollowing.contained machineId hactor
  have hstored : s.world.manager.machineSpecs[machineId]? =
    s.world.etcd[machinesPrefix ++ machineId]? := hequal machineId
  rw [← hstored]
  exact Std.ExtTreeMap.mem_iff_isSome_getElem?.mp hspec

/-- A node alone in its cluster converges and syncs while a watch is open. The sync
takes the given number of operations. -/
def syncRun (localPeerId : Base58Text) (operations : ℕ) : List (Label Base58Text) :=
  ([.openWatch,
      .startConverge [KeyValue.ofText (peerKey "lab" localPeerId) otherMetadata.toJson.text],
      .convergeKv, .convergeDone [localPeerId], .signalConvergence, .sync, .handle []] :
        List (Label Base58Text)) ++
    List.replicate operations Label.advance

/-- A machine that is stored before the watch opens, and another that is deleted
while it is open. -/
theorem machine_specs_stored_delete :
    let spec : Json := .object [("adminState", .string "available"), ("cluster", .string "lab")]
    let _ : SerdeJson := SerdeJson.knowing [spec]
    ∃ s : Node Base58Text Ip4Text,
      (∀ machineId, s.world.manager.machineSpecs[machineId]? =
        s.world.etcd[machinesPrefix ++ machineId]?) ∧
      (∀ machineId ∈ s.world.manager.actors,
        (s.world.etcd[machinesPrefix ++ machineId]?).isSome = true) ∧
      "m2" ∈ s.world.manager.actors ∧ "m1" ∉ s.world.manager.machineSpecs := by
  intro spec _
  let a := peerOf "12D3KooWAAAAAAAAAAAAAAAAAAAAAAAAAAAAAAAAAAAAAAAAAAAA"
  let score : Score Base58Text := fun _ _ => 7
  let etcd : Etcd := Std.ExtTreeMap.ofList [("/neolaas/machines/m1", spec.text)]
  let before := .commit "m2" (some spec.text) :: syncRun a 10
  let after : List (Label Base58Text) :=
    [.finish, .commit "m1" none, .forwardEvent, .handle ["m1", "m2"], .advance, .finish,
      .loseWatch, .openWatch]
  obtain ⟨s₀, hstart, s₁, hrun₁, hsynced, s, hrun₂, hdrained, hprop⟩ :
      ∃ s₀ ∈ start "lab" a (Ip4Text.mk "/ip4/10.0.0.1/tcp/5000") false "node-a" etcd 0,
      ∃ s₁ ∈ before.foldlM (guardedNext (NoGap) (Node.step score)) s₀, s₁.Synced ∧
      ∃ s ∈ after.foldlM (guardedNext (NoGap) (Node.step score)) s₁, s.Drained ∧
        "m2" ∈ s.world.manager.actors ∧ "m1" ∉ s.world.manager.machineSpecs := by
    decide +kernel
  obtain ⟨hequal, hactors⟩ := machine_specs_stored score "lab" a _ false "node-a" etcd 0 s₀ s₁ s
    before after hstart (Run.guarded_of_foldlM hrun₁) hsynced (Run.guarded_of_foldlM hrun₂) hdrained
  exact ⟨s, hequal, hactors, hprop⟩

/-- A machine that is deleted after the sync and before the watch is opened again
stays in the cache and keeps its actor. -/
theorem not_machine_specs_stored : ¬∀ [SerdeJson] (score : Score Base58Text) (clusterId : String)
    (localPeerId : Base58Text) (localAddr : Ip4Text) (logDebug : Bool) (nodeId : String)
    (etcd : Etcd) (now : ℤ) (s₀ s₁ s : Node Base58Text Ip4Text)
    (labels₁ labels₂ : List (Label Base58Text)),
    start clusterId localPeerId localAddr logDebug nodeId etcd now = some s₀ →
      Run (StepOf (Node.step score)) s₀ labels₁ s₁ → s₁.Synced →
      Run (StepOf (Node.step score)) s₁ labels₂ s → s.Drained →
      (∀ machineId, s.world.manager.machineSpecs[machineId]? =
        s.world.etcd[machinesPrefix ++ machineId]?) ∧
      ∀ machineId ∈ s.world.manager.actors,
        (s.world.etcd[machinesPrefix ++ machineId]?).isSome = true := by
  intro hclaim
  let spec : Json := .object [("adminState", .string "available"), ("cluster", .string "lab")]
  let _ : SerdeJson := SerdeJson.knowing [spec]
  let a := peerOf "12D3KooWAAAAAAAAAAAAAAAAAAAAAAAAAAAAAAAAAAAAAAAAAAAA"
  let score : Score Base58Text := fun _ _ => 7
  let etcd : Etcd := Std.ExtTreeMap.ofList [("/neolaas/machines/m1", spec.text)]
  let after : List (Label Base58Text) :=
    [.finish, .loseWatch, .commit "m1" none, .openWatch]
  obtain ⟨s₀, hstart, s₁, hrun₁, hsynced, s, hrun₂, hdrained, hactor, hgone⟩ :
      ∃ s₀ ∈ start "lab" a (Ip4Text.mk "/ip4/10.0.0.1/tcp/5000") false "node-a" etcd 0,
      ∃ s₁ ∈ (syncRun a 6).foldlM (Node.step score) s₀, s₁.Synced ∧
      ∃ s ∈ after.foldlM (Node.step score) s₁, s.Drained ∧
        "m1" ∈ s.world.manager.actors ∧ s.world.etcd[machinesPrefix ++ "m1"]? = none := by
    decide +kernel
  have hstored := (hclaim score _ _ _ _ _ _ _ s₀ s₁ s _ _ hstart (Run.of_foldlM hrun₁) hsynced
    (Run.of_foldlM hrun₂) hdrained).2 "m1" hactor
  rw [hgone] at hstored
  cases hstored

end Node
end Neolaas
