import Neolaas.MachinePlacement
import Neolaas.OperatorSync
import Neolaas.SpecRoundTrip

/-!
# From a machine in the API server to its actor

The operator and the cluster share etcd. The operator's controller of machines is
the only one who writes machines, and every node watches them. So once the operator
has reconciled everything and the nodes are settled, the machines with actors are
those of the API server.
-/
namespace Neolaas
open ChangeLog AtomicProgram LabelledRuns
open Operator (Mirror Kind ObjectRef)

/-- The operator beside the cluster. -/
structure Deployment (ι P A : Type) where
  mirror : Mirror
  cluster : Cluster ι P A

/-- A step of the API server or of a controller, or a step of a node. -/
inductive DeploymentLabel (ι P : Type) where
  | operator (l : Mirror.Label)
  | node (i : ι) (l : Node.Label P)

/-- The stored machines by their names. -/
def storedMachines (etcd : Etcd) : String → Option String :=
  fun machineId => etcd[machinesPrefix ++ machineId]?

/-- The text of a spec is read back as it was written. -/
def Readable [SerdeJson] (kind : Kind) (spec : kind.Spec) : Prop :=
  SerdeJson.parse (SerdeJson.print (kind.toJson spec)) = some (kind.toJson spec)

/-- The spec of the server that has the members of a spec of the operator. -/
def MachineSpec.ofOperator (spec : Operator.MachineSpec) : MachineSpec where
  adminState := spec.adminState.name
  cluster := spec.cluster
  reservedFor := spec.reservedFor
  labels := spec.labels

namespace Deployment

/-- The machine that a reconcile writes, and its spec, `none` to delete it. -/
def written [SerdeJson] (s : Mirror) : Mirror.Label → Option (String × Option String)
  | .reconcile ⟨.machine, ns, name⟩ =>
    (s.objects ⟨.machine, ns, name⟩).map (fun obj =>
      (name, if obj.deleted then none else
        some (SerdeJson.print (Operator.MachineSpec.toJson obj.spec))))
  | _ => none

/-- One step of the deployment. -/
def step {ι P A : Type} [DecidableEq ι] [SerdeJson] [DecidableEq P] [PeerId P] [Multiaddr A]
    (score : Score P) (d : Deployment ι P A) : DeploymentLabel ι P → Option (Deployment ι P A)
  | .operator l =>
    (d.mirror.step l).bind (fun mirror =>
      match written d.mirror l with
      | some (machineId, specJson) =>
        (d.cluster.step score (.commit machineId specJson)).map (fun cluster => ⟨mirror, cluster⟩)
      | none => some { d with mirror := mirror })
  | .node i l =>
    (d.cluster.step score (.node i l)).map (fun cluster => { d with cluster := cluster })

/-- No objects yet and all nodes initialized, over one content of etcd. -/
def Starts {ι P A : Type} [PeerId P] (etcd : Etcd) (d : Deployment ι P A) : Prop :=
  d.mirror = Mirror.start etcd ∧ d.cluster.Starts ∧ ∀ i, (d.cluster.nodes i).world.etcd = etcd

/-- Reconciles are alone with their kind and name, specs are readable, and no node's
watch misses anything harmful. -/
def Careful {ι P A : Type} [SerdeJson] (d : Deployment ι P A) : DeploymentLabel ι P → Prop
  | .operator l => d.mirror.Alone l ∧
      (∀ ref spec, l = .change ref spec → Readable ref.kind spec) ∧
      ∀ machineId specJson, written d.mirror l = some (machineId, specJson) →
        ∀ i, (d.cluster.nodes i).NoGap (.commit machineId specJson)
  | .node i l => (d.cluster.nodes i).Careful l

/-- What holds in every careful run over the content that etcd had at first. -/
structure Mirrored {ι P A : Type} [SerdeJson] [DecidableEq P] [PeerId P] (score : Score P)
    (etcd : Etcd) (d : Deployment ι P A) : Prop where
  synced : d.mirror.Synced
  settling : d.cluster.Settling score
  shared : ∀ i, storedMachines (d.cluster.nodes i).world.etcd = storedMachines d.mirror.etcd
  readable : ∀ ref obj, d.mirror.objects ref = some obj → Readable ref.kind obj.spec
  owed : ∀ name, (storedMachines d.mirror.etcd name).isSome = true →
    (storedMachines etcd name).isSome = true ∨
      ∃ ns obj, d.mirror.objects ⟨.machine, ns, name⟩ = some obj

/-- A commit of a machine is a change of the stored machines. -/
theorem storedMachines_commit {P A : Type} (machineId : String) (specJson : Option String)
    (s : Node P A) : storedMachines (s.commit machineId specJson).world.etcd =
      Function.update (storedMachines s.world.etcd) machineId specJson := by
  obtain ⟨rfl, hnone, heq⟩ | heq := Node.commit_cases machineId specJson s
  · rw [heq]
    exact (Function.update_eq_self_iff.mpr hnone.symm).symm
  · rw [heq]
    exact s.world.stored_apply machineId specJson

/-- Only the reconcile of a machine writes a machine. -/
theorem written_eq_some [SerdeJson] {s : Mirror} {l : Mirror.Label} {machineId : String}
    {specJson : Option String} (h : written s l = some (machineId, specJson)) :
    ∃ ns obj, l = .reconcile ⟨.machine, ns, machineId⟩ ∧
      s.objects ⟨.machine, ns, machineId⟩ = some obj ∧
      specJson = if obj.deleted then none else
        some (SerdeJson.print (Operator.MachineSpec.toJson obj.spec)) := by
  cases l with
  | change ref spec => cases h
  | delete ref => cases h
  | reconcile ref =>
    obtain ⟨kind, ns, name⟩ := ref
    cases kind with
    | switch => cases h
    | vlan => cases h
    | machine =>
      obtain ⟨obj, hobj, heq⟩ := Option.map_eq_some_iff.mp h
      obtain ⟨rfl, rfl⟩ := Prod.mk.inj heq
      exact ⟨ns, obj, rfl, hobj, rfl⟩

theorem storedMachines_of_written [SerdeJson] {s t : Mirror} {l : Mirror.Label}
    (h : s.step l = some t) {machineId : String} {specJson : Option String}
    (hw : written s l = some (machineId, specJson)) :
    storedMachines t.etcd = Function.update (storedMachines s.etcd) machineId specJson := by
  obtain ⟨ns, obj, rfl, hobj, rfl⟩ := written_eq_some hw
  funext name
  by_cases hname : name = machineId
  · subst hname
    rw [Function.update_self]
    obtain ⟨obj', hobj', ht⟩ := Option.map_eq_some_iff.mp h
    rw [hobj] at hobj'
    obtain rfl := Option.some.inj hobj'
    by_cases hd : obj.deleted = true
    · rw [if_pos hd, Kind.reconcile_cleanup] at ht
      rw [← ht, if_pos hd]
      exact Std.ExtTreeMap.getElem?_erase_self
    · rw [if_neg hd, Kind.reconcile_apply] at ht
      rw [← ht, if_neg hd]
      exact Std.ExtTreeMap.getElem?_insert_self
  · rw [Function.update_of_ne hname]
    apply Mirror.reconcile_etcd h
    intro hkey
    exact hname (@Kind.key_injective .machine .machine _ _ hkey).2

theorem storedMachines_of_not_written [SerdeJson] {s t : Mirror} {l : Mirror.Label}
    (h : s.step l = some t) (hw : written s l = none) :
    storedMachines t.etcd = storedMachines s.etcd := by
  cases l with
  | change ref spec =>
    simp only [Mirror.step] at h
    split_ifs at h
    obtain rfl := Option.some.inj h
    rfl
  | delete ref =>
    obtain ⟨obj, -, rfl⟩ := Option.map_eq_some_iff.mp h
    rfl
  | reconcile ref =>
    obtain ⟨kind, ns, name⟩ := ref
    funext machineId
    apply Mirror.reconcile_etcd h
    intro hkey
    have hkind : Kind.machine = kind := (Kind.key_injective (k := .machine) hkey).1
    subst hkind
    obtain ⟨obj, hobj, -⟩ := Option.map_eq_some_iff.mp h
    rw [written, hobj] at hw
    cases hw

/-- A readable spec parses to the members that the server has. -/
theorem fromStr_of_readable [SerdeJson] {spec : Operator.MachineSpec}
    (h : Readable .machine spec) :
    MachineSpec.fromStr (SerdeJson.print spec.toJson) = some (MachineSpec.ofOperator spec) := by
  unfold Readable Kind.toJson at h
  unfold MachineSpec.fromStr
  rw [h, Option.bind_some]
  exact ofJson_toJson spec

/-- A step of the mirror leaves every object readable. -/
theorem readable_step [SerdeJson] {s t : Mirror} {l : Mirror.Label} (h : s.step l = some t)
    (hs : ∀ ref obj, s.objects ref = some obj → Readable ref.kind obj.spec)
    (hl : ∀ ref spec, l = .change ref spec → Readable ref.kind spec) :
    ∀ ref obj, t.objects ref = some obj → Readable ref.kind obj.spec := by
  intro ref obj hobj
  by_cases hne : ref = l.ref
  · subst hne
    cases l with
    | change ref spec =>
      simp only [Mirror.step] at h
      split_ifs at h
      obtain rfl := Option.some.inj h
      have hself : Function.update s.objects ref (some ⟨spec, false, false⟩) ref = some obj := hobj
      rw [Function.update_self] at hself
      obtain rfl := Option.some.inj hself
      exact hl ref spec rfl
    | delete ref =>
      obtain ⟨before, hbefore, rfl⟩ := Option.map_eq_some_iff.mp h
      have hself : Function.update s.objects ref (some { before with deleted := true }) ref =
        some obj := hobj
      rw [Function.update_self] at hself
      obtain rfl := Option.some.inj hself
      exact hs ref before hbefore
    | reconcile ref =>
      obtain ⟨before, hbefore, ht⟩ := Option.map_eq_some_iff.mp h
      by_cases hd : before.deleted = true
      · rw [if_pos hd] at ht
        obtain rfl := ht
        have hself : Function.update s.objects ref none ref = some obj := hobj
        rw [Function.update_self] at hself
        cases hself
      · rw [if_neg hd] at ht
        obtain rfl := ht
        have hself : Function.update s.objects ref (some { before with reconciled := true }) ref =
          some obj := hobj
        rw [Function.update_self] at hself
        obtain rfl := Option.some.inj hself
        exact hs ref before hbefore
  · rw [Mirror.step_objects h hne] at hobj
    exact hs ref obj hobj

/-- Objects other than the one cleaned up are still there. -/
theorem objects_step [SerdeJson] {s t : Mirror} {l : Mirror.Label} (h : s.step l = some t)
    {ref : ObjectRef} {obj : Operator.Object ref.kind} (hobj : s.objects ref = some obj)
    (hcleaned : l = .reconcile ref → obj.deleted = false) : ∃ obj', t.objects ref = some obj' := by
  by_cases hne : ref = l.ref
  · subst hne
    cases l with
    | change ref spec =>
      simp only [Mirror.step] at h
      split_ifs at h
      obtain rfl := Option.some.inj h
      exact ⟨_, Function.update_self ..⟩
    | delete ref =>
      obtain ⟨before, -, rfl⟩ := Option.map_eq_some_iff.mp h
      exact ⟨_, Function.update_self ..⟩
    | reconcile ref =>
      obtain ⟨before, hbefore, ht⟩ := Option.map_eq_some_iff.mp h
      have hsame : before = obj := Option.some.inj (hbefore.symm.trans hobj)
      subst hsame
      have hlive := hcleaned rfl
      rw [hlive, if_neg (by simp)] at ht
      obtain rfl := ht
      exact ⟨_, Function.update_self ..⟩
  · exact ⟨obj, (Mirror.step_objects h hne).trans hobj⟩

theorem Mirrored.operator {ι P A : Type} [DecidableEq ι] [SerdeJson] [DecidableEq P] [PeerId P]
    [Multiaddr A] {score : Score P} {etcd : Etcd} {d d' : Deployment ι P A} {l : Mirror.Label}
    (hd : d.Mirrored score etcd) (hl : d.Careful (.operator l))
    (h : d.step score (.operator l) = some d') : d'.Mirrored score etcd := by
  obtain ⟨halone, hchange, hgap⟩ := hl
  obtain ⟨mirror, hmirror, h⟩ := Option.bind_eq_some_iff.mp h
  have hsynced := Mirror.synced_step halone hmirror hd.synced
  have hreadable := readable_step hmirror hd.readable hchange
  cases hw : written d.mirror l with
  | none =>
    simp only [hw] at h
    obtain rfl := Option.some.inj h
    have hstored := storedMachines_of_not_written hmirror hw
    refine ⟨hsynced, hd.settling, ?_, hreadable, ?_⟩
    · intro i
      show _ = storedMachines mirror.etcd
      rw [hstored]
      exact hd.shared i
    · intro name hname
      rw [show storedMachines mirror.etcd = _ from hstored] at hname
      obtain hfirst | ⟨ns, obj, hobj⟩ := hd.owed name hname
      · exact Or.inl hfirst
      · right
        refine ⟨ns, objects_step hmirror hobj ?_⟩
        rintro rfl
        rw [written, hobj] at hw
        cases hw
  | some write =>
    obtain ⟨machineId, specJson⟩ := write
    simp only [hw] at h
    obtain ⟨cluster, hcluster, rfl⟩ := Option.map_eq_some_iff.mp h
    have hstored := storedMachines_of_written hmirror hw
    obtain ⟨ns, obj, rfl, hobj, hspec⟩ := written_eq_some hw
    have hparses : ∀ i, (d.cluster.nodes i).SpecsSatisfy Parses (.commit machineId specJson) := by
      intro i
      rw [hspec]
      by_cases hdeleted : obj.deleted = true
      · rw [if_pos hdeleted]
        trivial
      · rw [if_neg hdeleted]
        show (MachineSpec.fromStr _).isSome = true
        rw [fromStr_of_readable (hd.readable _ obj hobj)]
        rfl
    have hsettling : cluster.Settling score := by
      refine hd.settling.step ?_ hcluster
      intro i
      exact ⟨hparses i, hgap machineId specJson hw i⟩
    obtain rfl := Option.some.inj hcluster
    refine ⟨hsynced, hsettling, ?_, hreadable, ?_⟩
    · intro i
      show storedMachines ((d.cluster.nodes i).commit machineId specJson).world.etcd =
        storedMachines mirror.etcd
      rw [storedMachines_commit, hstored, hd.shared i]
    · intro name hname
      rw [show storedMachines mirror.etcd = _ from hstored] at hname
      by_cases hself : name = machineId
      · subst hself
        rw [Function.update_self, hspec] at hname
        by_cases hdeleted : obj.deleted = true
        · rw [if_pos hdeleted] at hname
          cases hname
        · exact Or.inr ⟨ns, objects_step hmirror hobj (fun _ => by simpa using hdeleted)⟩
      · rw [Function.update_of_ne hself] at hname
        obtain hfirst | ⟨ns', obj', hobj'⟩ := hd.owed name hname
        · exact Or.inl hfirst
        · right
          refine ⟨ns', objects_step hmirror hobj' ?_⟩
          intro heq
          cases heq
          exact absurd rfl hself

theorem Mirrored.node {ι P A : Type} [DecidableEq ι] [SerdeJson] [DecidableEq P] [PeerId P]
    [Multiaddr A] {score : Score P} {etcd : Etcd} {d d' : Deployment ι P A} {i : ι}
    {l : Node.Label P} (hd : d.Mirrored score etcd) (hl : d.Careful (.node i l))
    (h : d.step score (.node i l) = some d') : d'.Mirrored score etcd := by
  obtain ⟨cluster, hcluster, rfl⟩ := Option.map_eq_some_iff.mp h
  have hetcd : ∀ j, (cluster.nodes j).world.etcd = (d.cluster.nodes j).world.etcd := by
    obtain ⟨_, _, _, hlabel, -⟩ | ⟨k, l', t, hlabel, hstep, rfl⟩ := Cluster.step_cases hcluster
    · cases hlabel
    · cases hlabel
      have ht : t.world.etcd = (d.cluster.nodes i).world.etcd := by
        apply hstep.etcd (hd.settling.nodes i).sound
        rintro machineId specJson rfl
        cases hcluster
      intro j
      show (Function.update d.cluster.nodes i t j).world.etcd = _
      by_cases hj : j = i
      · rw [hj, Function.update_self]
        exact ht
      · rw [Function.update_of_ne hj]
  refine ⟨hd.synced, hd.settling.step (l := .node i l) hl hcluster, ?_, hd.readable, hd.owed⟩
  intro j
  show storedMachines (cluster.nodes j).world.etcd = _
  rw [hetcd j]
  exact hd.shared j

end Deployment
end Neolaas
