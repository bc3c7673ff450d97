import Neolaas.Etcd
import Neolaas.LabelledRuns
import Neolaas.OperatorCrds

/-!
# The operator's mirror in etcd

One controller for each kind reconciles the objects of all namespaces. It keeps
the spec of an object under the kind's prefix followed by the object's name, and
kube's finalizer tells it whether to apply the object or to clean up after it.
-/
namespace Neolaas.Operator
open LabelledRuns

def machinesPrefix : String := "/neolaas/machines/"
def switchesPrefix : String := "/neolaas/switches/"
def vlansPrefix : String := "/neolaas/vlans/"

namespace EtcdSync

def put [SerdeJson] (key : String) (value : Json) (etcd : Etcd) : Etcd :=
  etcd.insert key (SerdeJson.print value)

def delete (key : String) (etcd : Etcd) : Etcd := etcd.erase key

def putMachine [SerdeJson] (name : String) (spec : MachineSpec) (etcd : Etcd) : Etcd :=
  put (machinesPrefix ++ name) spec.toJson etcd

def deleteMachine (name : String) (etcd : Etcd) : Etcd := delete (machinesPrefix ++ name) etcd

def putSwitch [SerdeJson] (name : String) (spec : SwitchSpec) (etcd : Etcd) : Etcd :=
  put (switchesPrefix ++ name) spec.toJson etcd

def deleteSwitch (name : String) (etcd : Etcd) : Etcd := delete (switchesPrefix ++ name) etcd

def putVlan [SerdeJson] (name : String) (spec : VlanSpec) (etcd : Etcd) : Etcd :=
  put (vlansPrefix ++ name) spec.toJson etcd

def deleteVlan (name : String) (etcd : Etcd) : Etcd := delete (vlansPrefix ++ name) etcd

end EtcdSync

/-- What the finalizer asks of a controller. -/
inductive FinalizerEvent (σ : Type) where
  | apply (spec : σ)
  | cleanup

/-- A controller's `reconcile`. The namespace selects the finalizer's API only. -/
def reconcile {σ : Type} (put : String → σ → Etcd → Etcd) (delete : String → Etcd → Etcd)
    (_ns name : String) (event : FinalizerEvent σ) (etcd : Etcd) : Etcd :=
  match event with
  | .apply spec => put name spec etcd
  | .cleanup => delete name etcd

def MachineController.reconcile [SerdeJson] :
    String → String → FinalizerEvent MachineSpec → Etcd → Etcd :=
  Operator.reconcile EtcdSync.putMachine EtcdSync.deleteMachine

def SwitchController.reconcile [SerdeJson] :
    String → String → FinalizerEvent SwitchSpec → Etcd → Etcd :=
  Operator.reconcile EtcdSync.putSwitch EtcdSync.deleteSwitch

def VlanController.reconcile [SerdeJson] :
    String → String → FinalizerEvent VlanSpec → Etcd → Etcd :=
  Operator.reconcile EtcdSync.putVlan EtcdSync.deleteVlan

/-- The kinds of the operator's resources. -/
inductive Kind where
  | machine
  | switch
  | vlan
  deriving DecidableEq

namespace Kind

abbrev Spec : Kind → Type
  | machine => MachineSpec
  | switch => SwitchSpec
  | vlan => VlanSpec

def toJson : (kind : Kind) → kind.Spec → Json
  | machine => MachineSpec.toJson
  | switch => SwitchSpec.toJson
  | vlan => VlanSpec.toJson

def keysPrefix : Kind → String
  | machine => machinesPrefix
  | switch => switchesPrefix
  | vlan => vlansPrefix

/-- The controller of a kind. -/
def reconcile [SerdeJson] :
    (kind : Kind) → String → String → FinalizerEvent kind.Spec → Etcd → Etcd
  | machine => MachineController.reconcile
  | switch => SwitchController.reconcile
  | vlan => VlanController.reconcile

theorem reconcile_apply [SerdeJson] (kind : Kind) (ns name : String) (spec : kind.Spec)
    (etcd : Etcd) : kind.reconcile ns name (.apply spec) etcd =
      etcd.insert (kind.keysPrefix ++ name) (SerdeJson.print (kind.toJson spec)) := by
  cases kind <;> rfl

theorem reconcile_cleanup [SerdeJson] (kind : Kind) (ns name : String) (etcd : Etcd) :
    kind.reconcile ns name .cleanup etcd = etcd.erase (kind.keysPrefix ++ name) := by
  cases kind <;> rfl

/-- Keys of different kinds differ, as do keys of different names. -/
theorem key_injective {k k' : Kind} {name name' : String}
    (h : k.keysPrefix ++ name = k'.keysPrefix ++ name') : k = k' ∧ name = name' := by
  have hlist := congrArg String.toList h
  cases k <;> cases k' <;>
    simp [keysPrefix, machinesPrefix, switchesPrefix, vlansPrefix, String.toList_append] at hlist
  all_goals exact ⟨rfl, String.toList_inj.mp hlist⟩

end Kind

/-- The identity of an object in the API server. -/
structure ObjectRef where
  kind : Kind
  ns : String
  name : String
  deriving DecidableEq

/-- The key under which the operator keeps an object. -/
def ObjectRef.key (ref : ObjectRef) : String := ref.kind.keysPrefix ++ ref.name

/-- An object of the API server. A deleted one is there until its cleanup, and
`reconciled` says whether a reconcile has run since the last change. -/
structure Object (kind : Kind) where
  spec : kind.Spec
  deleted : Bool
  reconciled : Bool

/-- The objects of the API server beside the content of etcd. -/
structure Mirror where
  objects : (ref : ObjectRef) → Option (Object ref.kind)
  etcd : Etcd

namespace Mirror

inductive Label where
  | change (ref : ObjectRef) (spec : ref.kind.Spec)
  | delete (ref : ObjectRef)
  | reconcile (ref : ObjectRef)

/-- The object that a step is about. -/
def Label.ref : Label → ObjectRef
  | .change ref _ => ref
  | .delete ref => ref
  | .reconcile ref => ref

/-- A user creates, changes or deletes an object, or a controller reconciles one. -/
def step [SerdeJson] (s : Mirror) : Label → Option Mirror
  | .change ref spec =>
    if (s.objects ref).all (fun obj => !obj.deleted) then
      some { s with objects := Function.update s.objects ref (some ⟨spec, false, false⟩) }
    else none
  | .delete ref =>
    (s.objects ref).map (fun obj =>
      { s with objects := Function.update s.objects ref (some { obj with deleted := true }) })
  | .reconcile ref =>
    (s.objects ref).map (fun obj =>
      if obj.deleted then
        { objects := Function.update s.objects ref none
          etcd := ref.kind.reconcile ref.ns ref.name .cleanup s.etcd }
      else
        { objects := Function.update s.objects ref (some { obj with reconciled := true })
          etcd := ref.kind.reconcile ref.ns ref.name (.apply obj.spec) s.etcd })

/-- No objects yet, and anything in etcd. -/
def start (etcd : Etcd) : Mirror := ⟨fun _ => none, etcd⟩

def IsLive (s : Mirror) (ref : ObjectRef) (obj : Object ref.kind) : Prop :=
  s.objects ref = some obj ∧ obj.deleted = false

/-- A reconcile leaves the entries of the other live objects as they are. -/
def Frames (s : Mirror) (l : Label) (t : Mirror) : Prop :=
  ∀ ref, l = .reconcile ref → ∀ other obj, s.IsLive other obj → other ≠ ref →
    t.etcd[other.key]? = s.etcd[other.key]?

/-- Every live object has been reconciled since its last change. -/
def Settled (s : Mirror) : Prop := ∀ ref obj, s.IsLive ref obj → obj.reconciled = true

/-- Every live object has an entry of its own, and the entry holds its spec. -/
def Faithful [SerdeJson] (s : Mirror) : Prop :=
  ∀ ref obj, s.IsLive ref obj →
    s.etcd[ref.key]? = some (SerdeJson.print (ref.kind.toJson obj.spec)) ∧
    ∀ other obj', s.IsLive other obj' → other.key = ref.key → other = ref

/-- A reconcile of an object whose kind and name no other live object has. -/
def Alone (s : Mirror) (l : Label) : Prop :=
  ∀ ref, l = .reconcile ref → ∀ other obj, s.IsLive other obj →
    other.kind = ref.kind → other.name = ref.name → other = ref

/-- What holds of the reconciled objects while every reconcile is alone: they
have their entries, each a key of its own. -/
structure Synced [SerdeJson] (s : Mirror) : Prop where
  entry : ∀ ref obj, s.IsLive ref obj → obj.reconciled = true →
    s.etcd[ref.key]? = some (SerdeJson.print (ref.kind.toJson obj.spec))
  own : ∀ ref obj other obj', s.IsLive ref obj → obj.reconciled = true →
    s.IsLive other obj' → obj'.reconciled = true → other.key = ref.key → other = ref

theorem synced_start [SerdeJson] (etcd : Etcd) : (start etcd).Synced := by
  constructor
  · intro ref obj h
    cases h.1
  · intro ref obj other obj' h
    cases h.1

/-- A reconcile writes or erases the entry of its object and no other one. -/
theorem reconcile_etcd [SerdeJson] {s t : Mirror} {ref : ObjectRef}
    (h : s.step (.reconcile ref) = some t) (key : String) (hkey : key ≠ ref.key) :
    t.etcd[key]? = s.etcd[key]? := by
  obtain ⟨obj, -, ht⟩ := Option.map_eq_some_iff.mp h
  have hne : ref.kind.keysPrefix ++ ref.name ≠ key := fun he => hkey he.symm
  by_cases hd : obj.deleted = true
  · rw [if_pos hd, Kind.reconcile_cleanup] at ht
    rw [← ht]
    simp [Std.ExtTreeMap.getElem?_erase, hne]
  · rw [if_neg hd, Kind.reconcile_apply] at ht
    rw [← ht]
    simp [Std.ExtTreeMap.getElem?_insert, hne]

/-- A step changes no object but its own. -/
theorem step_objects [SerdeJson] {s t : Mirror} {l : Label} (h : s.step l = some t)
    {other : ObjectRef} (hne : other ≠ l.ref) : t.objects other = s.objects other := by
  cases l with
  | change ref spec =>
    simp only [step] at h
    split_ifs at h
    obtain rfl := Option.some.inj h
    exact Function.update_of_ne hne ..
  | delete ref =>
    obtain ⟨obj, -, rfl⟩ := Option.map_eq_some_iff.mp h
    exact Function.update_of_ne hne ..
  | reconcile ref =>
    obtain ⟨obj, -, rfl⟩ := Option.map_eq_some_iff.mp h
    by_cases hd : obj.deleted = true
    · rw [if_pos hd]
      exact Function.update_of_ne hne ..
    · rw [if_neg hd]
      exact Function.update_of_ne hne ..

/-- Only a reconcile leaves its object live and reconciled, with an entry that
holds its spec. -/
theorem step_subject [SerdeJson] {s t : Mirror} {l : Label} (h : s.step l = some t)
    {obj : Object l.ref.kind} (hlive : t.IsLive l.ref obj) (hrec : obj.reconciled = true) :
    l = .reconcile l.ref ∧
      t.etcd[l.ref.key]? = some (SerdeJson.print (l.ref.kind.toJson obj.spec)) := by
  obtain ⟨hobj, hdeleted⟩ := hlive
  cases l with
  | change ref spec =>
    simp only [step] at h
    split_ifs at h
    obtain rfl := Option.some.inj h
    have hself : Function.update s.objects ref (some ⟨spec, false, false⟩) ref = some obj := hobj
    rw [Function.update_self] at hself
    obtain rfl := Option.some.inj hself
    simp at hrec
  | delete ref =>
    obtain ⟨before, -, rfl⟩ := Option.map_eq_some_iff.mp h
    have hself : Function.update s.objects ref (some { before with deleted := true }) ref =
      some obj := hobj
    rw [Function.update_self] at hself
    obtain rfl := Option.some.inj hself
    simp at hdeleted
  | reconcile ref =>
    obtain ⟨before, -, ht⟩ := Option.map_eq_some_iff.mp h
    by_cases hd : before.deleted = true
    · rw [if_pos hd] at ht
      obtain rfl := ht
      have hself : Function.update s.objects ref none ref = some obj := hobj
      rw [Function.update_self] at hself
      cases hself
    · rw [if_neg hd, Kind.reconcile_apply] at ht
      obtain rfl := ht
      have hself : Function.update s.objects ref (some { before with reconciled := true }) ref =
        some obj := hobj
      rw [Function.update_self] at hself
      obtain rfl := Option.some.inj hself
      exact ⟨rfl, Std.ExtTreeMap.getElem?_insert_self⟩

/-- A step whose reconcile is alone leaves the entries of other live objects. -/
theorem entry_of_alone [SerdeJson] {s t : Mirror} {l : Label} (halone : s.Alone l)
    (h : s.step l = some t) {other : ObjectRef} {obj : Object other.kind}
    (hlive : s.IsLive other obj) (hne : other ≠ l.ref) :
    t.etcd[other.key]? = s.etcd[other.key]? := by
  cases l with
  | change ref spec =>
    simp only [step] at h
    split_ifs at h
    obtain rfl := Option.some.inj h
    rfl
  | delete ref =>
    obtain ⟨before, -, rfl⟩ := Option.map_eq_some_iff.mp h
    rfl
  | reconcile ref =>
    apply reconcile_etcd h
    intro hkey
    obtain ⟨hkind, hname⟩ := Kind.key_injective hkey
    exact hne (halone ref rfl other obj hlive hkind hname)

theorem frames_of_alone [SerdeJson] {s t : Mirror} {l : Label} (halone : s.Alone l)
    (h : s.step l = some t) : Frames s l t := by
  intro ref hl other obj hlive hne
  have href : l.ref = ref := by rw [hl, Label.ref]
  exact entry_of_alone halone h hlive (by rwa [href])

theorem synced_step [SerdeJson] {s t : Mirror} {l : Label} (halone : s.Alone l)
    (h : s.step l = some t) (hs : s.Synced) : t.Synced := by
  have hkeep : ∀ ref obj, t.IsLive ref obj → ref ≠ l.ref → s.IsLive ref obj := by
    intro ref obj hlive hne
    exact ⟨(step_objects h hne).symm.trans hlive.1, hlive.2⟩
  -- The step's own object has the key of no other live object.
  have hown : ∀ obj other obj', t.IsLive l.ref obj → obj.reconciled = true →
      t.IsLive other obj' → other.key = l.ref.key → other = l.ref := by
    intro obj other obj' hlive hrec hlive' hkey
    by_contra hne
    obtain ⟨hkind, hname⟩ := Kind.key_injective hkey
    have hl := (step_subject h hlive hrec).1
    exact hne (halone l.ref hl other obj' (hkeep other obj' hlive' hne) hkind hname)
  constructor
  · intro ref obj hlive hrec
    by_cases hne : ref = l.ref
    · subst hne
      exact (step_subject h hlive hrec).2
    · have hbefore := hkeep ref obj hlive hne
      rw [entry_of_alone halone h hbefore hne]
      exact hs.entry ref obj hbefore hrec
  · intro ref obj other obj' hlive hrec hlive' hrec' hkey
    by_cases hne : ref = l.ref
    · subst hne
      exact hown obj other obj' hlive hrec hlive' hkey
    · by_cases hne' : other = l.ref
      · subst hne'
        exact (hown obj' ref obj hlive' hrec' hlive hkey.symm).symm
      · exact hs.own ref obj other obj' (hkeep ref obj hlive hne) hrec
          (hkeep other obj' hlive' hne') hrec' hkey

theorem Synced.faithful [SerdeJson] {s : Mirror} (hs : s.Synced) (hsettled : s.Settled) :
    s.Faithful := by
  intro ref obj hlive
  have hrec := hsettled ref obj hlive
  refine ⟨hs.entry ref obj hlive hrec, ?_⟩
  intro other obj' hlive' hkey
  exact hs.own ref obj other obj' hlive hrec hlive' (hsettled other obj' hlive') hkey

/-- In every run whose reconciles are each alone with their kind and name, a
reconcile leaves the entries of other live objects, and once all live objects
are reconciled each has its own entry with its own spec. -/
theorem mirror_faithful [SerdeJson] (etcd : Etcd) (labels : List Label) (s : Mirror)
    (h : Run (Guarded Alone (StepOf step)) (start etcd) labels s) :
    (s.Settled → s.Faithful) ∧ ∀ l t, s.Alone l → s.step l = some t → Frames s l t := by
  have hs : s.Synced := h.invariant (I := Synced)
    (fun _ _ _ hs hstep => synced_step hstep.1 hstep.2 hs) (synced_start etcd)
  exact ⟨hs.faithful, fun l t halone hstep => frames_of_alone halone hstep⟩

/-- A machine of the lab in the given cluster, without interfaces. -/
def bareMachine (cluster : String) : MachineSpec where
  interfaces := []
  bmc := ⟨.v4 #v[10, 1, 1, 102], .ipmi, "bmc-creds-default", false⟩
  adminState := .available
  cluster := cluster
  reservedFor := none
  labels := ∅

/-- Two machines of different names in two namespaces are mirrored. -/
theorem mirror_faithful_two_names :
    let _ : SerdeJson := SerdeJson.knowing []
    let labels : List Label :=
      [.change ⟨.machine, "lab-a", "m1"⟩ (bareMachine "a"), .reconcile ⟨.machine, "lab-a", "m1"⟩,
        .change ⟨.machine, "lab-b", "m2"⟩ (bareMachine "b"), .reconcile ⟨.machine, "lab-b", "m2"⟩]
    ∃ s, Run (Guarded Alone (StepOf step)) (start ∅) labels s ∧ s.Settled ∧ s.Faithful := by
  intro _ labels
  have hrun : ∃ s, Run (Guarded Alone (StepOf step)) (start ∅) labels s ∧ s.Settled := by
    refine ⟨_, .cons ⟨?_, rfl⟩ (.cons ⟨?_, rfl⟩ (.cons ⟨?_, rfl⟩ (.cons ⟨?_, rfl⟩ (.nil _)))), ?_⟩
    · intro ref hl
      cases hl
    · intro ref hl other obj hlive hkind hname
      cases hl
      by_contra hne
      have hobj := hlive.1
      simp [Function.update_of_ne hne, start] at hobj
    · intro ref hl
      cases hl
    · intro ref hl other obj hlive hkind hname
      cases hl
      by_contra hne
      have hne' : other ≠ ⟨.machine, "lab-a", "m1"⟩ := by
        rintro rfl
        simp at hname
      have hobj := hlive.1
      simp [Function.update_of_ne hne, Function.update_of_ne hne', start] at hobj
    · rintro ref obj ⟨hobj, -⟩
      by_cases hsecond : ref = ⟨.machine, "lab-b", "m2"⟩
      · subst hsecond
        obtain rfl := Option.some.inj hobj
        rfl
      · by_cases hfirst : ref = ⟨.machine, "lab-a", "m1"⟩
        · subst hfirst
          obtain rfl := Option.some.inj hobj
          rfl
        · simp [Function.update_of_ne hfirst, Function.update_of_ne hsecond, start] at hobj
  obtain ⟨s, hs, hsettled⟩ := hrun
  exact ⟨s, hs, hsettled, (mirror_faithful ∅ labels s hs).1 hsettled⟩

/-- The objects of one name in two namespaces share an entry: cleaning up after
the second object removes the entry of the first, which is live and reconciled. -/
theorem not_mirror_faithful : ¬∀ [SerdeJson] (etcd : Etcd) (labels : List Label) (s : Mirror),
    Run (StepOf step) (start etcd) labels s →
      (s.Settled → s.Faithful) ∧ ∀ l t, s.step l = some t → Frames s l t := by
  intro hclaim
  let _ : SerdeJson := SerdeJson.knowing []
  have hrun : Run (StepOf step) (start ∅)
      [.change ⟨.machine, "lab-a", "m1"⟩ (bareMachine "a"), .reconcile ⟨.machine, "lab-a", "m1"⟩,
        .change ⟨.machine, "lab-b", "m1"⟩ (bareMachine "b"), .reconcile ⟨.machine, "lab-b", "m1"⟩,
        .delete ⟨.machine, "lab-b", "m1"⟩] _ := Run.of_foldlM rfl
  have hframes := (hclaim ∅ _ _ hrun).2 (.reconcile ⟨.machine, "lab-b", "m1"⟩) _ rfl
    ⟨.machine, "lab-b", "m1"⟩ rfl ⟨.machine, "lab-a", "m1"⟩ _ ⟨rfl, rfl⟩ (by decide)
  revert hframes
  decide

end Mirror
end Neolaas.Operator
