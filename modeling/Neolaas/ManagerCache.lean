import Neolaas.ManagerSteps

/-!
# What handlers do to the cached specs

Whatever happens between its operations, a put and a delete change one cached
spec, a rebalance changes none, and a sync lays the content of etcd over the
cache, as it is when the sync reads it.
-/
namespace Neolaas
open ChangeLog AtomicProgram

/-- The change that a message makes to the cached specs. -/
def ManagerMessage.cacheChange : ManagerMessage → Option (Change String String)
  | .etcdMachineEvent machineId .put (some specJson) => some ⟨machineId, some specJson⟩
  | .etcdMachineEvent _ .put none => none
  | .etcdMachineEvent machineId .delete _ => some ⟨machineId, none⟩
  | .syncAllMachines => none
  | .rebalanceActors => none

namespace World

/-- The cached specs by machine. -/
def cached {P : Type} (w : World P) : String → Option String :=
  fun machineId => w.manager.machineSpecs[machineId]?

/-- The specs in etcd by machine. -/
def stored {P : Type} (w : World P) : String → Option String :=
  fun machineId => w.etcd[machinesPrefix ++ machineId]?

/-- Handlers run while nobody else changes the cache. They read no range, and what
they change in the cache they change to its target. -/
def cacheSetting {P : Type} [DecidableEq P] [PeerId P] (score : Score P)
    (target : String → Option String) : Setting (Op P) Op.Ret (World P) where
  exec := exec score
  rely w w' := w'.cached = w.cached
  guar op w w' := (∀ start, op ≠ .getPrefix start) ∧
    ∀ machineId, w'.cached machineId = w.cached machineId ∨
      w'.cached machineId = target machineId
  rely_refl _ := rfl
  rely_trans _ _ _ h h' := h'.trans h

/-- The program ends with the given cache, on its way to the target. -/
def LeadsBy {P α : Type} [DecidableEq P] [PeerId P] (score : Score P)
    (target cache : String → Option String) (program : Program P α) (w : World P) : Prop :=
  Safe (cacheSetting score target) (fun _ t => t.cached = cache) program w

/-- The program ends with the given cache. -/
def Leads {P α : Type} [DecidableEq P] [PeerId P] (score : Score P)
    (cache : String → Option String) (program : Program P α) (w : World P) : Prop :=
  LeadsBy score cache cache program w

end World

namespace Program
open World

theorem leads_pure {P α : Type} [DecidableEq P] [PeerId P] (score : Score P)
    {target cache : String → Option String} (a : α) {w : World P} (h : w.cached = cache) :
    LeadsBy score target cache (pure a : Program P α) w :=
  Safe.pure (fun _ hr => hr.trans h)

/-- A change of the manager that leaves the cache as it is to be. -/
theorem leads_modify {P : Type} [DecidableEq P] [PeerId P] (score : Score P)
    {target cache : String → Option String} {g : ℤ → Managing P → Option (Managing P)}
    {w : World P}
    (hmoves : ∀ machineId, cache machineId = w.cached machineId ∨
      cache machineId = target machineId)
    (h : ∀ t : World P, t.cached = w.cached → ∀ m, g t.now t.toManaging = some m →
      (t.manage m).cached = cache) : LeadsBy score target cache (modify g) w := by
  apply safe_modify rfl
  intro t hr m hm
  have hcached := h t hr m hm
  refine ⟨⟨fun _ hop => (by cases hop), fun machineId => ?_⟩, fun t' hr' => ?_⟩
  · have hbefore : t.cached = w.cached := hr
    rw [hcached, hbefore]
    exact hmoves machineId
  · exact Eq.trans hr' hcached

/-- A change of the manager that leaves the cache alone. -/
theorem leads_keep {P : Type} [DecidableEq P] [PeerId P] (score : Score P)
    {target cache : String → Option String} {g : ℤ → Managing P → Option (Managing P)}
    {w : World P} (hcached : w.cached = cache)
    (h : ∀ (t : World P) (m : Managing P), g t.now t.toManaging = some m →
      (t.manage m).cached = t.cached) : LeadsBy score target cache (modify g) w := by
  apply leads_modify
  · intro machineId
    rw [hcached]
    exact Or.inl rfl
  · intro t ht m hm
    rw [h t m hm, ht, hcached]

/-- A lookup does not touch the cache. -/
theorem leads_lookupMachine {P α : Type} [DecidableEq P] [PeerId P] {score : Score P}
    {target cache : String → Option String} {machineId : String}
    {f : Option (LookupResult P) → Program P α} {w : World P}
    (h : ∀ (result : Option (LookupResult P)) (t : World P), t.cached = w.cached →
      LeadsBy score target cache (f result) t) :
    LeadsBy score target cache (lookupMachine machineId >>= f) w := by
  apply safe_lookupMachine rfl
  intro t hr
  have hsame : (t.askLookup score machineId).2.cached = t.cached := by
    unfold cached
    rw [(askLookup_frame score machineId t).1]
  refine ⟨⟨fun _ hop => (by cases hop), fun id => Or.inl (congrFun hsame id)⟩, h _ _ ?_⟩
  exact hsame.trans hr

theorem leads_read {P α : Type} [DecidableEq P] [PeerId P] {score : Score P}
    {target cache : String → Option String} {f : MachineActorManagerActor P → Program P α}
    {w : World P}
    (h : ∀ t : World P, t.cached = w.cached → LeadsBy score target cache (f t.manager) t) :
    LeadsBy score target cache (read >>= f) w := by
  apply safe_read rfl
  intro t hr
  exact ⟨⟨fun _ hop => (by cases hop), fun _ => Or.inl rfl⟩, h t hr⟩

/-- A put caches its spec and nothing else. -/
theorem handleMachinePut_leads {P : Type} [SerdeJson] [DecidableEq P] [PeerId P]
    (score : Score P) (machineId specJson : String) {target : String → Option String}
    (htarget : target machineId = some specJson) (w : World P) :
    LeadsBy score target (Change.apply w.cached ⟨machineId, some specJson⟩)
      (handleMachinePut machineId specJson) w := by
  unfold handleMachinePut
  apply safe_modify_bind rfl
  intro w₁ hr₁ m hm
  obtain rfl := Option.some.inj hm
  have hcached : (w₁.manage (w₁.cacheSpec machineId specJson)).cached =
      Change.apply w.cached ⟨machineId, some specJson⟩ := by
    have hr : w₁.cached = w.cached := hr₁
    rw [← hr]
    ext1 id
    by_cases hid : id = machineId
    · subst hid
      simp [cached, Managing.cacheSpec, Change.apply]
    · simp [cached, Managing.cacheSpec, Change.apply, Function.update_of_ne hid,
        Std.ExtTreeMap.getElem?_insert, Ne.symm hid]
  refine ⟨⟨fun _ hop => (by cases hop), fun id => ?_⟩, ?_⟩
  · rw [hcached]
    by_cases hid : id = machineId
    · subst hid
      exact Or.inr ((Change.apply_key w.cached ⟨id, some specJson⟩).trans htarget.symm)
    · have hr : w₁.cached = w.cached := hr₁
      rw [hr]
      exact Or.inl (Change.apply_of_ne w.cached ⟨machineId, some specJson⟩ hid)
  rw [← hcached]
  generalize w₁.manage (w₁.cacheSpec machineId specJson) = v
  -- Whatever the lookup says, the rest leaves the cache alone.
  apply leads_lookupMachine
  intro result w₂ hr₂
  cases result with
  | none => exact leads_pure score () hr₂
  | some result =>
    apply leads_read
    intro w₃ hr₃
    have hw₃ : w₃.cached = v.cached := hr₃.trans hr₂
    by_cases hlocal : result.isLocal = true
    · rw [if_pos hlocal]
      by_cases hactor : w₃.manager.actors.contains machineId = true
      · rw [if_pos hactor]
        apply leads_keep score hw₃
        intro t m hm
        obtain rfl := Option.some.inj hm
        unfold cached
        rw [manage_toManaging, Managing.ask_specs]
      · rw [if_neg hactor]
        apply leads_keep score hw₃
        intro t m hm
        obtain ⟨-, rfl⟩ | ⟨actor, -, rfl⟩ := spawnMachineActor_cases hm
        · rfl
        · rfl
    · rw [if_neg hlocal]
      by_cases hactor : w₃.manager.actors.contains machineId = true
      · rw [if_pos hactor]
        apply leads_keep score hw₃
        intro t m hm
        obtain ⟨previous, new, rfl⟩ := transferOwnership_eq_some hm
        unfold cached
        rw [manage_toManaging, Managing.stopMachineActor_specs]
        rfl
      · rw [if_neg hactor]
        exact leads_pure score () hw₃

/-- A delete takes its spec out of the cache. -/
theorem handleMachineDelete_leads {P : Type} [DecidableEq P] [PeerId P]
    (score : Score P) (machineId : String) (w : World P) :
    Leads score (Change.apply w.cached ⟨machineId, none⟩) (handleMachineDelete machineId) w := by
  apply leads_modify score (fun _ => Or.inr rfl)
  intro t ht m hm
  obtain rfl := Option.some.inj hm
  rw [← ht]
  ext1 id
  unfold cached
  rw [manage_toManaging, Managing.handleMachineDelete, Managing.stopMachineActor_specs]
  by_cases hid : id = machineId
  · subst hid
    simp [Managing.uncacheSpec, Change.apply]
  · simp [Managing.uncacheSpec, Change.apply, Function.update_of_ne hid,
      Std.ExtTreeMap.getElem?_erase, Ne.symm hid]

/-- A loop whose steps keep the cache keeps it. -/
theorem foldlM_leads {P β γ : Type} [DecidableEq P] [PeerId P] {score : Score P}
    {target cache : String → Option String} {f : γ → β → Program P γ} (bs : List β)
    (hbody : ∀ b acc (t : World P), t.cached = cache → LeadsBy score target cache (f acc b) t)
    (acc : γ) {w : World P} (h : w.cached = cache) :
    LeadsBy score target cache (bs.foldlM f acc) w := by
  exact Safe.foldlM (E := cacheSetting score target) (fun _ _ t => t.cached = cache)
    (fun _ _ _ _ ht hr => Eq.trans hr ht) (fun b _ acc t ht => hbody b acc t ht) h

/-- A rebalance leaves the cache alone. -/
theorem rebalanceActors_leads {P : Type} [SerdeJson] [DecidableEq P] [PeerId P]
    (score : Score P) (machineIds : List String) (w : World P) :
    Leads score w.cached (rebalanceActors machineIds) w := by
  unfold rebalanceActors
  apply Safe.bind
  refine (foldlM_leads machineIds ?_ ([], []) rfl).mono ?_
  · intro machineId plan t ht
    unfold checkMachine
    apply leads_lookupMachine
    intro result t₁ ht₁
    cases result with
    | none => exact leads_pure score plan (ht₁.trans ht)
    | some result =>
      apply leads_read
      intro t₂ ht₂
      have hpure : ∀ plan : List String × List (String × String),
          LeadsBy score w.cached w.cached (pure plan) t₂ := fun plan =>
        leads_pure score plan ((ht₂.trans ht₁).trans ht)
      by_cases hspawn : (result.isLocal && !t₂.manager.actors.contains machineId) = true
      · simp only [hspawn, if_true]
        cases t₂.manager.machineSpecs[machineId]? <;> exact hpure _
      · by_cases hstop : (!result.isLocal && t₂.manager.actors.contains machineId) = true
        · simp only [hspawn, hstop, if_true]
          exact hpure _
        · simp only [hspawn, hstop]
          exact hpure _
  · intro plan t ht
    apply Safe.bind
    refine (foldlM_leads plan.1 ?_ () ht).mono ?_
    · intro machineId _ t₁ ht₁
      apply leads_keep score ht₁
      intro t₂ m hm
      obtain rfl := Option.some.inj hm
      unfold cached
      rw [manage_toManaging, Managing.stopMachineActor_specs]
    · intro _ t₁ ht₁
      refine foldlM_leads plan.2 ?_ () ht₁
      intro machine _ t₂ ht₂
      apply leads_keep score ht₂
      intro t₃ m hm
      obtain ⟨-, rfl⟩ | ⟨actor, -, rfl⟩ := spawnMachineActor_cases hm
      · rfl
      · rfl

/-- The puts of a sync that has got the given answer. -/
def machinePuts (kvs : List KeyValue) : List (Change String String) :=
  ((decodeMachines kvs).getD []).map (fun machine => ⟨machine.1, some machine.2⟩)

/-- The puts lay the machines that the sync has read over a cache. -/
theorem replay_machinePuts {P : Type} (cache : String → Option String) (w : World P) :
    replay cache (machinePuts (w.etcd.getPrefix machinesPrefix)) = overlay cache w.stored := by
  obtain ⟨machines, hmachines, hmem⟩ := decodeMachines_getPrefix w.etcd
  unfold machinePuts
  rw [hmachines, Option.getD_some]
  apply replay_eq_overlay
  · intro c hc
    obtain ⟨machine, hin, rfl⟩ := List.mem_map.mp hc
    exact ⟨by simp, (hmem machine.1 machine.2).mp hin⟩
  · intro machineId hne
    obtain ⟨specJson, hspec⟩ := Option.ne_none_iff_exists'.mp hne
    exact ⟨_, List.mem_map_of_mem ((hmem machineId specJson).mpr hspec), rfl⟩

/-- A sync puts one machine after another. -/
theorem syncMachines_leads {P : Type} [SerdeJson] [DecidableEq P] [PeerId P]
    (score : Score P) (machines : List (String × String)) {target : String → Option String}
    (w : World P) (htarget : ∀ machine ∈ machines, target machine.1 = some machine.2)
    (hreplay : replay w.cached (machines.map (fun machine => ⟨machine.1, some machine.2⟩)) =
      target) :
    Leads score target
      (machines.foldlM (fun _ machine => handleMachinePut machine.1 machine.2) ()) w := by
  refine (Safe.foldlM (E := cacheSetting score target) (fun rest _ (t : World P) =>
    (∀ machine ∈ rest, target machine.1 = some machine.2) ∧
      replay t.cached (rest.map (fun machine => ⟨machine.1, some machine.2⟩)) = target) ?_ ?_
    ⟨htarget, hreplay⟩).mono (fun _ _ ht => ht.2)
  · intro rest _ t t' ht hr
    have hr' : t'.cached = t.cached := hr
    rw [hr']
    exact ht
  · intro machine rest _ t ht
    have hput := ht.1 machine List.mem_cons_self
    refine (handleMachinePut_leads score machine.1 machine.2 hput t).mono ?_
    intro _ t' ht'
    refine ⟨fun m hm => ht.1 m (List.mem_cons_of_mem machine hm), ?_⟩
    rw [ht']
    exact ht.2

end Program

/-- Every handler but the sync makes the change of its message. -/
theorem ManagerMessage.handler_leads {P : Type} [SerdeJson] [DecidableEq P] [PeerId P]
    (score : Score P) (message : ManagerMessage) (hne : message ≠ .syncAllMachines)
    (machineIds : List String) (w : World P) :
    World.Leads score (replay w.cached message.cacheChange.toList)
      (message.handler machineIds) w := by
  match message with
  | .etcdMachineEvent machineId .put (some specJson) =>
    apply Safe.bind
    have htarget := Change.apply_key w.cached ⟨machineId, some specJson⟩
    exact (Program.handleMachinePut_leads score machineId specJson htarget w).mono
      (fun _ _ ht => Program.leads_pure score _ ht)
  | .etcdMachineEvent _ .put none => exact Program.leads_pure score _ rfl
  | .etcdMachineEvent machineId .delete _ =>
    apply Safe.bind
    exact (Program.handleMachineDelete_leads score machineId w).mono
      (fun _ _ ht => Program.leads_pure score _ ht)
  | .syncAllMachines => exact absurd rfl hne
  | .rebalanceActors =>
    apply Safe.bind
    exact (Program.rebalanceActors_leads score machineIds w).mono
      (fun _ _ ht => Program.leads_pure score _ ht)

/-- A sync reads the machines first, and what it has read goes over the cache. -/
theorem ManagerMessage.sync_leads {P : Type} [SerdeJson] [DecidableEq P] [PeerId P]
    (machineIds : List String) :
    ∃ next : List KeyValue → Program P ManagerReply,
      ManagerMessage.syncAllMachines.handler machineIds = .step (.getPrefix machinesPrefix) next ∧
      ∀ (score : Score P) (w : World P),
        World.Leads score (replay w.cached (Program.machinePuts (w.etcd.getPrefix machinesPrefix)))
          (next (w.etcd.getPrefix machinesPrefix)) w := by
  let answer (fetched : Bool) : Program P ManagerReply :=
    if fetched then do
      let manager ← Program.read
      pure (.sync ⟨manager.machineSpecs.size, manager.actors.size⟩)
    else pure (.sync ⟨0, 0⟩)
  refine ⟨fun kvs => Program.syncRead kvs >>= answer, rfl, ?_⟩
  intro score w
  obtain ⟨machines, hmachines, hmem⟩ := Program.decodeMachines_getPrefix w.etcd
  have hputs : Program.syncRead (P := P) (w.etcd.getPrefix machinesPrefix) = (do
      machines.foldlM (fun _ machine => Program.handleMachinePut machine.1 machine.2) ()
      pure true) := by
    unfold Program.syncRead
    rw [hmachines]
  show World.Leads score _ (Program.syncRead (w.etcd.getPrefix machinesPrefix) >>= answer) w
  rw [hputs]
  have hreplay := Program.replay_machinePuts w.cached w
  have htarget : ∀ machine ∈ machines, overlay w.cached w.stored machine.1 = some machine.2 := by
    intro machine hin
    have hstored : w.stored machine.1 = some machine.2 := (hmem machine.1 machine.2).mp hin
    unfold overlay
    rw [hstored]
    rfl
  rw [hreplay]
  unfold Program.machinePuts at hreplay
  rw [hmachines, Option.getD_some] at hreplay
  apply Safe.bind
  apply Safe.bind
  refine (Program.syncMachines_leads score machines w htarget hreplay).mono ?_
  intro _ t ht
  refine (Program.leads_pure score true ht).mono ?_
  intro fetched t' ht'
  cases fetched with
  | true =>
    apply Program.leads_read
    exact fun u hu => Program.leads_pure score _ (hu.trans ht')
  | false => exact Program.leads_pure score _ ht'

end Neolaas
