import Neolaas.OperatorSync

/-!
# Reconciles that fail

The controllers reconcile an object from what their watch has shown of it, one
reconcile at a time. Calls to etcd and to the API server can fail before or after
they take effect, reconciles can be behind, and the operator can restart. What kube
does around the operator's own calls is a parameter, with its documented flow as
hypotheses: the finalizer is put before the first apply and taken after a cleanup,
and a reconcile that has returned comes again when its action or a change asks for it.
No other finalizer holds the objects.
-/
namespace Neolaas.Operator
open LabelledRuns

/-- An object of the API server. It goes when it is deleting and has no finalizer. -/
structure ApiObject (σ : Type) where
  uid : ℕ
  spec : σ
  finalizer : Bool
  deleting : Bool

/-- The call that a running reconcile waits for, with the object that it was given. -/
inductive ReconcileCall (σ : Type) where
  | addFinalizer (obj : ApiObject σ)
  | apply (obj : ApiObject σ)
  | cleanup (obj : ApiObject σ)
  | removeFinalizer (obj : ApiObject σ)

def ReconcileCall.obj {σ : Type} : ReconcileCall σ → ApiObject σ
  | .addFinalizer obj | .apply obj | .cleanup obj | .removeFinalizer obj => obj

/-- When the controller reconciles next: on a change only, after the time of
`Action::requeue` or of `error_policy`, or now. -/
inductive Schedule where
  | awaitChange
  | requeue
  | retry
  | now
  deriving DecidableEq

/-- The API server drops an object that is deleting and has no finalizer. -/
def ApiObject.stored {σ : Type} (obj : ApiObject σ) : Option (ApiObject σ) :=
  if obj.deleting = true ∧ obj.finalizer = false then none else some obj

/-- What the operator uses of kube: the first call that `finalizer` makes for the object
that it is given and the next one after a call that has succeeded, `none` when it
returns; what its patches make of the API server's object, `none` when they are refused;
and the next reconcile, from what is due already and what the returned action asks for. -/
structure Kube (σ : Type) where
  finalizer : ApiObject σ → Option (ReconcileCall σ)
  next : ReconcileCall σ → Option (ReconcileCall σ)
  addFinalizer : ApiObject σ → Option (ApiObject σ)
  removeFinalizer : ApiObject σ → Option (ApiObject σ)
  reschedule : Schedule → Schedule → Schedule

namespace Kube

/-- The documented flow. An object gets the finalizer before its first apply, and loses
it after a cleanup that has succeeded. A patch changes the finalizer and nothing else,
and is refused where it has nothing to change. A change comes before what an action asks
for. -/
structure Documented {σ : Type} (kube : Kube σ) : Prop where
  adds : ∀ obj, obj.finalizer = false → obj.deleting = false →
    kube.finalizer obj = some (.addFinalizer obj)
  applies : ∀ obj, obj.finalizer = true → obj.deleting = false →
    kube.finalizer obj = some (.apply obj)
  cleansUp : ∀ obj, obj.finalizer = true → obj.deleting = true →
    kube.finalizer obj = some (.cleanup obj)
  applied : ∀ obj, kube.next (.apply obj) = none
  cleanedUp : ∀ obj, kube.next (.cleanup obj) = some (.removeFinalizer obj)
  added : ∀ obj, obj.finalizer = false → obj.deleting = false →
    kube.addFinalizer obj = some { obj with finalizer := true }
  notAdded : ∀ obj, obj.finalizer = true ∨ obj.deleting = true → kube.addFinalizer obj = none
  removed : ∀ obj, obj.finalizer = true →
    kube.removeFinalizer obj = some { obj with finalizer := false }
  notRemoved : ∀ obj, obj.finalizer = false → kube.removeFinalizer obj = none
  changed : ∀ asked, kube.reschedule .now asked = .now
  asked : ∀ due asked, due ≠ .now → kube.reschedule due asked = asked

/-- A kube that does what is documented. -/
def reference (σ : Type) : Kube σ where
  finalizer obj :=
    match obj.finalizer, obj.deleting with
    | false, false => some (.addFinalizer obj)
    | true, false => some (.apply obj)
    | true, true => some (.cleanup obj)
    | false, true => none
  next
    | .cleanup obj => some (.removeFinalizer obj)
    | .addFinalizer _ | .apply _ | .removeFinalizer _ => none
  addFinalizer obj :=
    if obj.finalizer ∨ obj.deleting then none else some { obj with finalizer := true }
  removeFinalizer obj := if obj.finalizer then some { obj with finalizer := false } else none
  reschedule due asked := if due = .now then .now else asked

theorem documented_reference (σ : Type) : (reference σ).Documented where
  adds obj hf hd := by simp [reference, hf, hd]
  applies obj hf hd := by simp [reference, hf, hd]
  cleansUp obj hf hd := by simp [reference, hf, hd]
  applied _ := rfl
  cleanedUp _ := rfl
  added obj hf hd := by simp [reference, hf, hd]
  notAdded obj h := if_pos h
  removed obj hf := by simp [reference, hf]
  notRemoved obj hf := by simp [reference, hf]
  changed _ := rfl
  asked due asked h := if_neg h

end Kube

/-- One object with its controller: what the watch has shown last and has yet to
show, the running reconcile, and the next one. -/
structure Handled (σ : Type) where
  object : Option (ApiObject σ)
  uids : ℕ
  seen : Option (ApiObject σ)
  unseen : List (Option (ApiObject σ))
  call : Option (ReconcileCall σ)
  schedule : Schedule

namespace Handled

/-- No object yet. -/
def new (σ : Type) : Handled σ := ⟨none, 0, none, [], none, .awaitChange⟩

/-- What happens to an object and its controller. A call may take effect and still
fail. -/
inductive Act (σ : Type) where
  | create (spec : σ)
  | change (spec : σ)
  | delete
  | watch
  | relist
  | restart
  /-- A reconcile starts, and gets its client or not. -/
  | start (client : Bool)
  | callEtcd (done ok : Bool)
  | patch (done ok : Bool)

/-- The API server has another version of the object. -/
def record {σ : Type} (object : Option (ApiObject σ)) (h : Handled σ) : Handled σ :=
  { h with object := object, unseen := h.unseen ++ [object] }

/-- The reconcile returns an action. -/
def finish {σ : Type} (kube : Kube σ) (action : Schedule) (h : Handled σ) : Handled σ :=
  { h with call := none, schedule := kube.reschedule h.schedule action }

/-- The finalizer makes a call, or the reconcile returns an action. -/
def proceed {σ : Type} (kube : Kube σ) (call : Option (ReconcileCall σ)) (action : Schedule)
    (h : Handled σ) : Handled σ :=
  match call with
  | some call => { h with call := some call }
  | none => h.finish kube action

/-- A patch of the object. -/
def patchObject {σ : Type} (kube : Kube σ) (done ok : Bool)
    (change : ApiObject σ → Option (ApiObject σ)) (h : Handled σ) : Option (Handled σ) :=
  if done then
    (h.object.bind change).map (fun obj =>
      (h.record obj.stored).finish kube (if ok then .awaitChange else .retry))
  else some (h.finish kube .retry)

/-- One step, and the event whose effect on etcd is its own. -/
def step {σ : Type} (kube : Kube σ) (h : Handled σ) :
    Act σ → Option (Handled σ × Option (FinalizerEvent σ))
  | .create spec =>
    if h.object.isNone then
      some ({ h.record (some ⟨h.uids, spec, false, false⟩) with uids := h.uids + 1 }, none)
    else none
  | .change spec =>
    h.object.map (fun obj => (h.record (some { obj with spec := spec }), none))
  | .delete =>
    match h.object with
    | none => none
    | some obj =>
      if obj.deleting then none
      else some (h.record ({ obj with deleting := true } : ApiObject σ).stored, none)
  | .watch =>
    match h.unseen with
    | [] => none
    | object :: unseen => some ({ h with seen := object, unseen := unseen, schedule := .now }, none)
  | .relist => some ({ h with seen := h.object, unseen := [], schedule := .now }, none)
  | .restart =>
    some ({ h with seen := h.object, unseen := [], call := none, schedule := .now }, none)
  | .start client =>
    if h.call.isSome ∨ h.schedule = .awaitChange then none
    else
      let h := { h with schedule := .awaitChange }
      match h.seen with
      | none => some (h, none)
      | some obj =>
        some (if client then h.proceed kube (kube.finalizer obj) .awaitChange
          else h.finish kube .retry, none)
  | .callEtcd done ok =>
    if ok = true ∧ done = false then none
    else
      match h.call with
      | some (.apply obj) =>
        some (if ok then h.proceed kube (kube.next (.apply obj)) .requeue
            else h.finish kube .retry,
          if done then some (.apply obj.spec) else none)
      | some (.cleanup obj) =>
        some (if ok then h.proceed kube (kube.next (.cleanup obj)) .awaitChange
            else h.finish kube .retry,
          if done then some .cleanup else none)
      | _ => none
  | .patch done ok =>
    if ok = true ∧ done = false then none
    else
      match h.call with
      | some (.addFinalizer _) =>
        (h.patchObject kube done ok kube.addFinalizer).map (fun h => (h, none))
      | some (.removeFinalizer _) =>
        (h.patchObject kube done ok kube.removeFinalizer).map (fun h => (h, none))
      | _ => none

end Handled

namespace ApiObject

/-- Where a version stands among those of all objects of the name. -/
def age {σ : Type} (obj : ApiObject σ) : ℕ :=
  3 * obj.uid + if obj.deleting then 2 else if obj.finalizer then 1 else 0

theorem age_le {σ : Type} (obj : ApiObject σ) : obj.age ≤ 3 * obj.uid + 2 := by
  unfold age
  split_ifs <;> omega

theorem le_age {σ : Type} (obj : ApiObject σ) : 3 * obj.uid ≤ obj.age := by
  unfold age
  omega

theorem age_of_deleting {σ : Type} {obj : ApiObject σ} (h : obj.deleting = true) :
    obj.age = 3 * obj.uid + 2 := by
  unfold age
  rw [if_pos h]

theorem lt_age_of_finalizer {σ : Type} {obj : ApiObject σ} (h : obj.finalizer = true) :
    3 * obj.uid < obj.age := by
  unfold age
  split_ifs
  · omega
  · omega

theorem age_of_bare {σ : Type} {obj : ApiObject σ} (hd : obj.deleting = false)
    (hf : obj.finalizer = false) : obj.age = 3 * obj.uid := by
  simp [age, hd, hf]

theorem age_lt_of_not_deleting {σ : Type} {obj : ApiObject σ} (h : obj.deleting = false) :
    obj.age < 3 * obj.uid + 2 := by
  unfold age
  rw [if_neg (by simp [h])]
  split_ifs <;> omega

end ApiObject

namespace Handled

/-- What the controller may still act on: the object of its running reconcile, then
what its watch has shown and will show. -/
def versions {σ : Type} (h : Handled σ) : List (Option (ApiObject σ)) :=
  h.call.map ReconcileCall.obj :: h.seen :: h.unseen

/-- No version is later than this. -/
def frontier {σ : Type} (object : Option (ApiObject σ)) (uids : ℕ) : ℕ :=
  object.elim (3 * uids) ApiObject.age

def Before {σ : Type} (x y : Option (ApiObject σ)) : Prop :=
  ∀ v ∈ x, ∀ w ∈ y, v.age ≤ w.age

/-- The versions are in order up to the present one. An object that had the
finalizer is there until a reconcile of its deletion has run, and the finalizer of
a later object comes after that. -/
structure Ordered {σ : Type} (h : Handled σ) : Prop where
  latest : h.unseen.getLastD h.seen = h.object
  ordered : h.versions.Pairwise Before
  bounded : ∀ v, some v ∈ h.versions → v.age ≤ frontier h.object h.uids
  uids : ∀ obj ∈ h.object, obj.uid < h.uids
  finalized : ∀ v, some v ∈ h.versions → v.deleting = true → v.finalizer = true
  remains : ∀ v, some v ∈ h.versions → v.finalizer = true →
    (∃ obj ∈ h.object, obj.uid = v.uid) ∨ ∀ w, some w ∈ h.versions → 3 * v.uid + 2 ≤ w.age
  fresh : ∀ v, some v ∈ h.versions → v.deleting = true →
    ∀ obj ∈ h.object, obj.uid = v.uid ∨ obj.finalizer = false

/-- The object itself is among the versions. -/
theorem Ordered.object_mem {σ : Type} {h : Handled σ} (hs : h.Ordered) :
    h.object ∈ h.versions := by
  rw [← hs.latest]
  exact List.mem_cons_of_mem _ List.getLastD_mem_cons

/-- The controller has moved on among the versions that it had. -/
theorem Ordered.narrow {σ : Type} {h h' : Handled σ} (hs : h.Ordered)
    (hobject : h'.object = h.object) (huids : h'.uids = h.uids)
    (hlatest : h'.unseen.getLastD h'.seen = h'.object) (hordered : h'.versions.Pairwise Before)
    (hsub : ∀ v, some v ∈ h'.versions → some v ∈ h.versions) : h'.Ordered where
  latest := hlatest
  ordered := hordered
  bounded v hv := by
    rw [hobject, huids]
    exact hs.bounded v (hsub v hv)
  uids obj hobj := by
    rw [huids]
    rw [hobject] at hobj
    exact hs.uids obj hobj
  finalized v hv := hs.finalized v (hsub v hv)
  remains v hv hf := by
    rw [hobject]
    obtain hthere | hpast := hs.remains v (hsub v hv) hf
    · exact Or.inl hthere
    · exact Or.inr (fun w hw => hpast w (hsub w hw))
  fresh v hv hd obj hobj := by
    rw [hobject] at hobj
    exact hs.fresh v (hsub v hv) hd obj hobj

/-- The API server has a later version, or none after an object without finalizer
or one whose deletion is being reconciled. -/
theorem Ordered.record {σ : Type} {h : Handled σ} (hs : h.Ordered)
    (object : Option (ApiObject σ)) (uids : ℕ)
    (hlater : frontier h.object h.uids ≤ frontier object uids)
    (huids : ∀ obj ∈ object, obj.uid < uids)
    (hfinalized : ∀ obj ∈ object, obj.deleting = true → obj.finalizer = true)
    (hkeeps : ∀ obj ∈ h.object, (∃ obj' ∈ object, obj'.uid = obj.uid) ∨ obj.finalizer = false ∨
      ∀ w, some w ∈ h.versions → 3 * obj.uid + 2 ≤ w.age)
    (hfresh : ∀ obj' ∈ object, obj'.finalizer = false ∨
      (∃ obj ∈ h.object, obj.uid = obj'.uid ∧ obj.finalizer = true) ∨
      ∀ v, some v ∈ h.versions → v.deleting = true → obj'.uid = v.uid) :
    ({ h.record object with uids := uids } : Handled σ).Ordered := by
  have hversions : ({ h.record object with uids := uids } : Handled σ).versions =
      h.versions ++ [object] := rfl
  have hmem : ∀ v, some v ∈ h.versions ++ [object] ↔ some v ∈ h.versions ∨ object = some v := by
    intro v
    rw [List.mem_append, List.mem_singleton, eq_comm (a := some v)]
  have hpresent : ∀ v, object = some v → frontier h.object h.uids ≤ v.age := by
    rintro v rfl
    exact hlater
  constructor
  · show (h.unseen ++ [object]).getLastD h.seen = object
    simp
  · rw [hversions, List.pairwise_append]
    refine ⟨hs.ordered, List.pairwise_singleton _ _, ?_⟩
    intro x hx y hy v hv w hw
    obtain rfl := List.mem_singleton.mp hy
    obtain rfl := Option.mem_def.mp hv
    exact (hs.bounded v hx).trans (hpresent w hw)
  · intro v hv
    rw [hversions, hmem] at hv
    show v.age ≤ frontier object uids
    obtain hv | rfl := hv
    · exact (hs.bounded v hv).trans hlater
    · exact le_refl _
  · exact huids
  · intro v hv
    rw [hversions, hmem] at hv
    obtain hv | hv := hv
    · exact hs.finalized v hv
    · exact hfinalized v hv
  · intro v hv hf
    rw [hversions] at hv ⊢
    show (∃ obj ∈ object, obj.uid = v.uid) ∨ _
    rw [hmem] at hv
    obtain hv | hv := hv
    · have hpast : (∀ w, some w ∈ h.versions → 3 * v.uid + 2 ≤ w.age) →
          ∀ w, some w ∈ h.versions ++ [object] → 3 * v.uid + 2 ≤ w.age := by
        intro hpast w hw
        obtain hw | hw := (hmem w).mp hw
        · exact hpast w hw
        · exact ((hpast v hv).trans (hs.bounded v hv)).trans (hpresent w hw)
      obtain ⟨obj, hobj, huid⟩ | hold := hs.remains v hv hf
      · obtain ⟨obj', hobj', huid'⟩ | hbare | hafter := hkeeps obj hobj
        · exact Or.inl ⟨obj', hobj', huid'.trans huid⟩
        · -- A version with the finalizer is later than an object without.
          exfalso
          have hobj' := Option.mem_def.mp hobj
          have hin : some obj ∈ h.versions := hobj' ▸ hs.object_mem
          have hdeleting : obj.deleting = false := by
            by_contra hd
            have hd' := hs.finalized obj hin (by simpa using hd)
            rw [hbare] at hd'
            cases hd'
          have hle := hs.bounded v hv
          rw [hobj'] at hle
          have hle' : v.age ≤ obj.age := hle
          have hage := ApiObject.age_of_bare hdeleting hbare
          have hlt := ApiObject.lt_age_of_finalizer hf
          omega
        · rw [huid] at hafter
          exact Or.inr (hpast hafter)
      · exact Or.inr (hpast hold)
    · exact Or.inl ⟨v, hv, rfl⟩
  · intro v hv hd obj' hobj'
    rw [hversions, hmem] at hv
    obtain hv | hv := hv
    · obtain hbare | ⟨obj, hobj, huid, hf⟩ | hall := hfresh obj' hobj'
      · exact Or.inr hbare
      · obtain hsame | hbare := hs.fresh v hv hd obj hobj
        · exact Or.inl (huid.symm.trans hsame)
        · rw [hf] at hbare
          cases hbare
      · exact Or.inl (hall v hv hd)
    · have hobj : object = some obj' := hobj'
      rw [hv] at hobj
      exact Or.inl (congrArg ApiObject.uid (Option.some.inj hobj)).symm

theorem Ordered.call_le {σ : Type} {h : Handled σ} (hs : h.Ordered) {call : ReconcileCall σ}
    (hcall : h.call = some call) {w : ApiObject σ} (hw : some w ∈ h.versions) :
    call.obj.age ≤ w.age := by
  have hordered := hs.ordered
  unfold versions at hordered hw
  rw [hcall, Option.map_some] at hordered hw
  obtain hw | hw := List.mem_cons.mp hw
  · rw [Option.some.inj hw]
  · exact (List.pairwise_cons.mp hordered).1 _ hw _ rfl _ rfl

theorem call_mem {σ : Type} {h : Handled σ} {call : ReconcileCall σ} (hcall : h.call = some call) :
    some call.obj ∈ h.versions := by
  unfold versions
  rw [hcall]
  exact List.mem_cons_self

/-- The object of a running apply is there and has the finalizer. -/
theorem Ordered.finalizer_of_apply {σ : Type} {h : Handled σ} (hs : h.Ordered)
    {applied : ApiObject σ} (hcall : h.call = some (.apply applied))
    (hf : applied.finalizer = true) (hd : applied.deleting = false) :
    ∃ obj ∈ h.object, obj.finalizer = true := by
  have hmem : some applied ∈ h.versions := call_mem hcall
  obtain ⟨obj, hobj, huid⟩ | hpast := hs.remains applied hmem hf
  · refine ⟨obj, hobj, ?_⟩
    have hobj' := Option.mem_def.mp hobj
    have hin : some obj ∈ h.versions := hobj' ▸ hs.object_mem
    by_contra hbare
    have hbare' : obj.finalizer = false := by simpa using hbare
    have hdeleting : obj.deleting = false := by
      by_contra hdel
      exact hbare (hs.finalized obj hin (by simpa using hdel))
    have hle : applied.age ≤ obj.age := hs.call_le hcall hin
    have hage := ApiObject.age_of_bare hdeleting hbare'
    have hlt := ApiObject.lt_age_of_finalizer hf
    omega
  · have hlt := ApiObject.age_lt_of_not_deleting hd
    have hle := hpast applied hmem
    omega

/-- The object whose finalizer a reconcile of a deletion finds is the deleted one,
and no version before its deletion is left. -/
theorem Ordered.deleting_of_remove {σ : Type} {h : Handled σ} (hs : h.Ordered)
    {removed obj : ApiObject σ} (hcall : h.call = some (.removeFinalizer removed))
    (hd : removed.deleting = true) (hobj : h.object = some obj) (hf : obj.finalizer = true) :
    obj.deleting = true ∧ ∀ w, some w ∈ h.versions → 3 * obj.uid + 2 ≤ w.age := by
  have hage := ApiObject.age_of_deleting hd
  have huid : obj.uid = removed.uid := by
    obtain hsame | hbare := hs.fresh removed (call_mem hcall) hd obj hobj
    · exact hsame
    · rw [hf] at hbare
      cases hbare
  have hpast : ∀ w, some w ∈ h.versions → 3 * obj.uid + 2 ≤ w.age := by
    intro w hw
    have hle : removed.age ≤ w.age := hs.call_le hcall hw
    omega
  refine ⟨?_, hpast⟩
  have hin : some obj ∈ h.versions := hobj ▸ hs.object_mem
  by_contra hnot
  have hlt := ApiObject.age_lt_of_not_deleting (by simpa using hnot : obj.deleting = false)
  have hle := hpast obj hin
  omega

/-- While a reconcile puts the finalizer, no version of an earlier object is left
that is deleting. -/
theorem Ordered.fresh_of_add {σ : Type} {h : Handled σ} (hs : h.Ordered)
    {added obj : ApiObject σ} (hcall : h.call = some (.addFinalizer added))
    (hf : added.finalizer = false) (hd : added.deleting = false) (hobj : h.object = some obj)
    {v : ApiObject σ} (hv : some v ∈ h.versions) (hdeleting : v.deleting = true) :
    obj.uid = v.uid := by
  obtain ⟨obj', hobj', huid⟩ | hpast := hs.remains v hv (hs.finalized v hv hdeleting)
  · rw [hobj] at hobj'
    rw [Option.some.inj hobj']
    exact huid
  · exfalso
    have hage := ApiObject.age_of_deleting hdeleting
    have hbare := ApiObject.age_of_bare hd hf
    have hle : added.age ≤ v.age := hs.call_le hcall hv
    have hge : 3 * v.uid + 2 ≤ added.age := hpast added (call_mem hcall)
    omega

/-- A returned reconcile. -/
theorem Ordered.finish {σ : Type} {h : Handled σ} (hs : h.Ordered) (kube : Kube σ)
    (action : Schedule) : (h.finish kube action).Ordered := by
  apply hs.narrow
  · rfl
  · rfl
  · exact hs.latest
  · have hordered := List.pairwise_cons.mp hs.ordered
    refine List.pairwise_cons.mpr ⟨?_, hordered.2⟩
    intro y _ v hv
    cases hv
  · intro v hv
    obtain hv | hv := List.mem_cons.mp hv
    · cases hv
    · exact List.mem_cons_of_mem _ hv

/-- A reconcile starts with what was seen. -/
theorem Ordered.call {σ : Type} {h : Handled σ} (hs : h.Ordered) (call : ReconcileCall σ)
    (schedule : Schedule) (hseen : h.seen = some call.obj) :
    ({ h with call := some call, schedule := schedule } : Handled σ).Ordered := by
  apply hs.narrow
  · rfl
  · rfl
  · exact hs.latest
  · have hordered := (List.pairwise_cons.mp hs.ordered).2
    refine List.pairwise_cons.mpr ⟨?_, hordered⟩
    rw [hseen] at hordered ⊢
    intro y hy
    obtain rfl | hy := List.mem_cons.mp hy
    · intro v hv w hw
      rw [← Option.some.inj hv, ← Option.some.inj hw]
    · exact (List.pairwise_cons.mp hordered).1 y hy
  · intro v hv
    obtain hv | hv := List.mem_cons.mp hv
    · rw [hv, Option.map_some, ← hseen]
      exact List.mem_cons_of_mem _ List.mem_cons_self
    · exact List.mem_cons_of_mem _ hv

/-- The watch lists anew. -/
theorem Ordered.relist {σ : Type} {h : Handled σ} (hs : h.Ordered)
    (call : Option (ReconcileCall σ)) (schedule : Schedule)
    (hcall : call = h.call ∨ call = none) :
    ({ h with seen := h.object, unseen := [], call := call, schedule := schedule } :
      Handled σ).Ordered := by
  have hmem : ∀ v, call.map ReconcileCall.obj = some v → some v ∈ h.versions := by
    intro v hv
    obtain rfl | rfl := hcall
    · unfold versions
      rw [hv]
      exact List.mem_cons_self
    · cases hv
  apply hs.narrow
  · rfl
  · rfl
  · rfl
  · refine List.pairwise_cons.mpr ⟨?_, List.pairwise_singleton _ _⟩
    intro y hy v hv w hw
    obtain rfl := List.mem_singleton.mp hy
    have hle := hs.bounded v (hmem v hv)
    have hw' : h.object = some w := hw
    rw [hw'] at hle
    exact hle
  · intro v hv
    obtain hv | hv := List.mem_cons.mp hv
    · exact hmem v hv.symm
    · rw [List.mem_singleton.mp hv]
      exact hs.object_mem

/-- The watch shows the next version. -/
theorem Ordered.watch {σ : Type} {h : Handled σ} (hs : h.Ordered)
    {object : Option (ApiObject σ)} {unseen : List (Option (ApiObject σ))}
    (hunseen : h.unseen = object :: unseen) :
    ({ h with seen := object, unseen := unseen, schedule := .now } : Handled σ).Ordered := by
  have hsub : (h.call.map ReconcileCall.obj :: object :: unseen).Sublist h.versions := by
    unfold versions
    rw [hunseen]
    exact (List.sublist_cons_self _ _).cons_cons _
  apply hs.narrow
  · rfl
  · rfl
  · have hlatest := hs.latest
    rw [hunseen, List.getLastD_cons] at hlatest
    exact hlatest
  · exact hs.ordered.sublist hsub
  · intro v hv
    exact hsub.subset hv

end Handled

namespace ReconcileCall

/-- What a reconcile has found of the object that it was given. -/
def Fits {σ : Type} : ReconcileCall σ → Prop
  | .addFinalizer obj => obj.finalizer = false ∧ obj.deleting = false
  | .apply obj => obj.finalizer = true ∧ obj.deleting = false
  | .cleanup obj | .removeFinalizer obj => obj.finalizer = true ∧ obj.deleting = true

end ReconcileCall

/-- The entry of an object after an event. -/
def FinalizerEvent.entry {σ : Type} (value : σ → String) :
    Option (FinalizerEvent σ) → Option String → Option String
  | none, entry => entry
  | some (.apply spec), _ => some (value spec)
  | some .cleanup, _ => none

namespace Handled

/-- Everything has been seen and reconciled, and the last reconcile did not fail. -/
def AtRest {σ : Type} (h : Handled σ) : Prop :=
  h.unseen = [] ∧ h.call.isNone = true ∧ (h.schedule = .awaitChange ∨ h.schedule = .requeue)

instance {σ : Type} (h : Handled σ) : Decidable h.AtRest :=
  inferInstanceAs (Decidable (_ ∧ _ ∧ _))

/-- The entry is there only for an object with the finalizer, and after a successful
reconcile without a later change in sight it holds the spec that was seen. -/
structure Kept {σ : Type} (value : σ → String) (h : Handled σ) (entry : Option String) :
    Prop where
  ordered : h.Ordered
  fits : ∀ call, h.call = some call → call.Fits
  owned : entry ≠ none → ∃ obj ∈ h.object, obj.finalizer = true
  erased : ∀ obj, h.call = some (.removeFinalizer obj) → entry = none
  busy : ∀ call, h.call = some call → h.schedule ≠ .now →
    h.schedule = .awaitChange ∧ h.seen = some call.obj
  synced : h.schedule = .requeue →
    ∃ obj, h.seen = some obj ∧ obj.deleting = false ∧ entry = some (value obj.spec)
  waits : h.schedule = .awaitChange → h.call = none → h.unseen = [] → h.object = none

section
variable {σ : Type} {value : σ → String} {h : Handled σ} {entry : Option String} {kube : Kube σ}

/-- At rest the entry is that of the object as it is. -/
theorem Kept.atRest (hk : h.Kept value entry) (hrest : h.AtRest) :
    entry = h.object.map (fun obj => value obj.spec) := by
  obtain ⟨hunseen, hcall, hschedule⟩ := hrest
  have hlatest := hk.ordered.latest
  rw [hunseen, List.getLastD_nil] at hlatest
  obtain hawait | hrequeue := hschedule
  · have hnone := hk.waits hawait (Option.isNone_iff_eq_none.mp hcall) hunseen
    rw [hnone, Option.map_none]
    by_contra hentry
    obtain ⟨obj, hobj, -⟩ := hk.owned hentry
    rw [hnone] at hobj
    cases hobj
  · obtain ⟨obj, hseen, -, hentry⟩ := hk.synced hrequeue
    rw [← hlatest, hseen, hentry, Option.map_some]

/-- A new version of the object. -/
theorem Kept.record (hk : h.Kept value entry) (object : Option (ApiObject σ)) (uids : ℕ)
    (hordered : ({ h.record object with uids := uids } : Handled σ).Ordered)
    (howned : entry ≠ none → ∃ obj ∈ object, obj.finalizer = true) :
    ({ h.record object with uids := uids } : Handled σ).Kept value entry where
  ordered := hordered
  fits := hk.fits
  owned := howned
  erased := hk.erased
  busy := hk.busy
  synced := hk.synced
  waits _ _ hunseen := by
    have hnil : h.unseen ++ [object] = [] := hunseen
    simp at hnil

/-- A returned reconcile. -/
theorem Kept.finish (hkube : kube.Documented) (action : Schedule) (hordered : h.Ordered)
    (howned : entry ≠ none → ∃ obj ∈ h.object, obj.finalizer = true)
    (hsynced : action = .requeue → h.schedule ≠ .now →
      ∃ obj, h.seen = some obj ∧ obj.deleting = false ∧ entry = some (value obj.spec))
    (hwaits : action = .awaitChange → h.unseen = [] → h.object = none) :
    (h.finish kube action).Kept value entry := by
  have hschedule : ∀ other, other ≠ Schedule.now → (h.finish kube action).schedule = other →
      action = other ∧ h.schedule ≠ .now := by
    intro other hother heq
    have hasked : kube.reschedule h.schedule action = other := heq
    by_cases hnow : h.schedule = .now
    · rw [hnow, hkube.changed] at hasked
      exact absurd hasked.symm hother
    · rw [hkube.asked _ _ hnow] at hasked
      exact ⟨hasked, hnow⟩
  constructor
  · exact hordered.finish kube action
  · intro call hcall
    cases hcall
  · exact howned
  · intro obj hcall
    cases hcall
  · intro call hcall
    cases hcall
  · intro hrequeue
    obtain ⟨hsame, hnow⟩ := hschedule _ (by decide) hrequeue
    exact hsynced hsame hnow
  · intro hawait _ hunseen
    exact hwaits (hschedule _ (by decide) hawait).1 hunseen

/-- A reconcile starts with what was seen. -/
theorem Kept.start (hkube : kube.Documented) (hk : h.Kept value entry) {obj : ApiObject σ}
    (hseen : h.seen = some obj) :
    (({ h with schedule := .awaitChange } : Handled σ).proceed kube (kube.finalizer obj)
      .awaitChange).Kept value entry := by
  have hmem : some obj ∈ h.versions := by
    unfold versions
    rw [hseen]
    exact List.mem_cons_of_mem _ List.mem_cons_self
  have hcall : ∀ call : ReconcileCall σ, call.obj = obj → call.Fits →
      (∀ removed, call ≠ .removeFinalizer removed) →
      ({ h with call := some call, schedule := .awaitChange } : Handled σ).Kept value entry := by
    intro call hobj hfits hremove
    have hgiven : h.seen = some call.obj := hseen.trans (congrArg some hobj.symm)
    constructor
    · exact hk.ordered.call call .awaitChange hgiven
    · intro call' hcall'
      rw [← Option.some.inj hcall']
      exact hfits
    · exact hk.owned
    · intro removed hcall'
      exact absurd (Option.some.inj hcall') (hremove removed)
    · intro call' hcall' _
      rw [← Option.some.inj hcall']
      exact ⟨rfl, hgiven⟩
    · intro hrequeue
      cases hrequeue
    · intro _ hnone
      cases hnone
  cases hf : obj.finalizer with
  | false =>
    cases hd : obj.deleting with
    | false =>
      rw [hkube.adds obj hf hd]
      exact hcall (.addFinalizer obj) rfl ⟨hf, hd⟩ (by simp)
    | true =>
      have hfinalized := hk.ordered.finalized obj hmem hd
      rw [hf] at hfinalized
      cases hfinalized
  | true =>
    cases hd : obj.deleting with
    | false =>
      rw [hkube.applies obj hf hd]
      exact hcall (.apply obj) rfl ⟨hf, hd⟩ (by simp)
    | true =>
      rw [hkube.cleansUp obj hf hd]
      exact hcall (.cleanup obj) rfl ⟨hf, hd⟩ (by simp)

/-- Another version of the same object. -/
theorem Ordered.revise (hs : h.Ordered) {obj : ApiObject σ} (hobj : h.object = some obj)
    (obj' : ApiObject σ) (huid : obj'.uid = obj.uid) (hage : obj.age ≤ obj'.age)
    (hfinalized : obj'.deleting = true → obj'.finalizer = true)
    (hfresh : obj'.finalizer = false ∨ obj.finalizer = true ∨
      ∀ v, some v ∈ h.versions → v.deleting = true → obj'.uid = v.uid) :
    (h.record (some obj')).Ordered := by
  apply hs.record (some obj') h.uids
  · rw [hobj]
    exact hage
  · intro later hlater
    obtain rfl := Option.some.inj hlater
    rw [huid]
    exact hs.uids obj hobj
  · intro later hlater
    obtain rfl := Option.some.inj hlater
    exact hfinalized
  · intro before hbefore
    rw [hobj] at hbefore
    exact Or.inl ⟨obj', rfl, huid.trans (congrArg ApiObject.uid (Option.some.inj hbefore))⟩
  · intro later hlater
    obtain rfl := Option.some.inj hlater
    obtain hbare | hf | hall := hfresh
    · exact Or.inl hbare
    · exact Or.inr (Or.inl ⟨obj, hobj, huid.symm, hf⟩)
    · exact Or.inr (Or.inr hall)

/-- The object goes. -/
theorem Ordered.vanish (hs : h.Ordered) {obj : ApiObject σ} (hobj : h.object = some obj)
    (hpast : obj.finalizer = false ∨ ∀ w, some w ∈ h.versions → 3 * obj.uid + 2 ≤ w.age) :
    (h.record none).Ordered := by
  apply hs.record none h.uids
  · rw [hobj]
    have huid : obj.uid < h.uids := hs.uids obj hobj
    have hage := obj.age_le
    show obj.age ≤ 3 * h.uids
    omega
  · rintro - ⟨⟩
  · rintro - ⟨⟩
  · intro before hbefore
    rw [hobj] at hbefore
    obtain rfl := Option.some.inj hbefore
    exact Or.inr hpast
  · rintro - ⟨⟩

theorem Kept.create (hk : h.Kept value entry) (hnone : h.object = none) (spec : σ) :
    ({ h.record (some ⟨h.uids, spec, false, false⟩) with uids := h.uids + 1 } :
      Handled σ).Kept value entry := by
  apply hk.record
  · apply hk.ordered.record
    · rw [hnone]
      exact ApiObject.le_age ⟨h.uids, spec, false, false⟩
    · rintro - ⟨⟩
      exact Nat.lt_succ_self _
    · rintro - ⟨⟩ hd
      cases hd
    · intro obj hobj
      rw [hnone] at hobj
      cases hobj
    · rintro - ⟨⟩
      exact Or.inl rfl
  · intro hentry
    obtain ⟨obj, hobj, -⟩ := hk.owned hentry
    rw [hnone] at hobj
    cases hobj

theorem Kept.change (hk : h.Kept value entry) {obj : ApiObject σ} (hobj : h.object = some obj)
    (spec : σ) : (h.record (some { obj with spec := spec })).Kept value entry := by
  apply hk.record _ h.uids
  · apply hk.ordered.revise hobj { obj with spec := spec }
    · rfl
    · exact le_refl obj.age
    · intro hd
      exact hk.ordered.finalized obj (hobj ▸ hk.ordered.object_mem) hd
    · cases hf : obj.finalizer with
      | false => exact Or.inl rfl
      | true => exact Or.inr (Or.inl rfl)
  · intro hentry
    obtain ⟨obj', hobj', hf⟩ := hk.owned hentry
    rw [hobj] at hobj'
    obtain rfl := Option.some.inj hobj'
    exact ⟨_, rfl, hf⟩

/-- The deletion of an object with the finalizer. -/
theorem Kept.delete (hk : h.Kept value entry) {obj : ApiObject σ} (hobj : h.object = some obj)
    (hf : obj.finalizer = true) :
    (h.record (some { obj with deleting := true })).Kept value entry := by
  apply hk.record _ h.uids
  · apply hk.ordered.revise hobj { obj with deleting := true }
    · rfl
    · have hage : ({ obj with deleting := true } : ApiObject σ).age = 3 * obj.uid + 2 :=
        ApiObject.age_of_deleting rfl
      rw [hage]
      exact obj.age_le
    · exact fun _ => hf
    · exact Or.inr (Or.inl hf)
  · exact fun _ => ⟨_, rfl, hf⟩

/-- The deletion of an object without. -/
theorem Kept.vanish (hk : h.Kept value entry) {obj : ApiObject σ} (hobj : h.object = some obj)
    (hf : obj.finalizer = false) : (h.record none).Kept value entry := by
  apply hk.record _ h.uids (hk.ordered.vanish hobj (Or.inl hf))
  intro hentry
  obtain ⟨obj', hobj', hf'⟩ := hk.owned hentry
  rw [hobj] at hobj'
  rw [← Option.some.inj hobj', hf] at hf'
  cases hf'

/-- The watch goes on. -/
theorem Kept.reschedule (hk : h.Kept value entry) {h' : Handled σ} (hordered : h'.Ordered)
    (hobject : h'.object = h.object) (hcall : h'.call = h.call ∨ h'.call = none)
    (hnow : h'.schedule = .now) : h'.Kept value entry := by
  have hsame : ∀ call, h'.call = some call → h.call = some call := by
    intro call hsome
    obtain heq | hnone := hcall
    · exact heq.symm.trans hsome
    · rw [hnone] at hsome
      cases hsome
  constructor
  · exact hordered
  · exact fun call hsome => hk.fits call (hsame call hsome)
  · rw [hobject]
    exact hk.owned
  · exact fun obj hsome => hk.erased obj (hsame _ hsome)
  · exact fun _ _ hne => absurd hnow hne
  · intro hrequeue
    rw [hnow] at hrequeue
    cases hrequeue
  · intro hawait
    rw [hnow] at hawait
    cases hawait

/-- A patch of the object ends its reconcile. -/
theorem Kept.patched (hkube : kube.Documented) {object : Option (ApiObject σ)}
    (hordered : (h.record object).Ordered)
    (howned : entry ≠ none → ∃ obj ∈ object, obj.finalizer = true) (ok : Bool) :
    ((h.record object).finish kube (if ok then .awaitChange else .retry)).Kept value entry := by
  apply Kept.finish hkube _ hordered howned
  · intro hrequeue
    split_ifs at hrequeue
  · intro _ hunseen
    have hnil : h.unseen ++ [object] = [] := hunseen
    simp at hnil

theorem Kept.addFinalizer (hkube : kube.Documented) (hk : h.Kept value entry)
    {added : ApiObject σ} (hcall : h.call = some (.addFinalizer added)) {obj : ApiObject σ}
    (h' : h.object.bind kube.addFinalizer = some obj) (ok : Bool) :
    ((h.record obj.stored).finish kube (if ok then .awaitChange else .retry)).Kept
      value entry := by
  obtain ⟨before, hobj, hadd⟩ := Option.bind_eq_some_iff.mp h'
  obtain ⟨hf, hd⟩ := hk.fits _ hcall
  by_cases hbare : before.finalizer = true ∨ before.deleting = true
  · rw [hkube.notAdded before hbare] at hadd
    cases hadd
  have hf' : before.finalizer = false := by simpa using (not_or.mp hbare).1
  have hd' : before.deleting = false := by simpa using (not_or.mp hbare).2
  rw [hkube.added before hf' hd'] at hadd
  obtain rfl := Option.some.inj hadd
  have hstored : ({ before with finalizer := true } : ApiObject σ).stored =
      some { before with finalizer := true } := by
    simp [ApiObject.stored]
  rw [hstored]
  apply Kept.patched hkube _ (fun _ => ⟨{ before with finalizer := true }, rfl, rfl⟩)
  apply hk.ordered.revise hobj { before with finalizer := true }
  · rfl
  · rw [ApiObject.age_of_bare hd' hf']
    exact ApiObject.le_age { before with finalizer := true }
  · exact fun _ => rfl
  · exact Or.inr (Or.inr (fun v hv hdel => hk.ordered.fresh_of_add hcall hf hd hobj hv hdel))

theorem Kept.removeFinalizer (hkube : kube.Documented) (hk : h.Kept value entry)
    {removed : ApiObject σ} (hcall : h.call = some (.removeFinalizer removed))
    {obj : ApiObject σ} (h' : h.object.bind kube.removeFinalizer = some obj) (ok : Bool) :
    ((h.record obj.stored).finish kube (if ok then .awaitChange else .retry)).Kept
      value entry := by
  obtain ⟨before, hobj, hremove⟩ := Option.bind_eq_some_iff.mp h'
  cases hf : before.finalizer with
  | false =>
    rw [hkube.notRemoved before hf] at hremove
    cases hremove
  | true =>
    -- The object is the deleted one, which goes.
    obtain ⟨hd, hpast⟩ := hk.ordered.deleting_of_remove hcall (hk.fits _ hcall).2 hobj hf
    rw [hkube.removed before hf] at hremove
    obtain rfl := Option.some.inj hremove
    have hgone : ({ before with finalizer := false } : ApiObject σ).stored = none := by
      simp [ApiObject.stored, hd]
    rw [hgone]
    apply Kept.patched hkube (hk.ordered.vanish hobj (Or.inr hpast))
    exact fun hentry => absurd (hk.erased removed hcall) hentry

/-- A patch takes effect or leaves the object as it is. -/
theorem Kept.patchObject (hkube : kube.Documented) (hk : h.Kept value entry)
    {change : ApiObject σ → Option (ApiObject σ)} {done ok : Bool} {next : Handled σ}
    (hpatched : ∀ obj, h.object.bind change = some obj → ((h.record obj.stored).finish kube
      (if ok then .awaitChange else .retry)).Kept value entry)
    (hnext : h.patchObject kube done ok change = some next) : next.Kept value entry := by
  unfold Handled.patchObject at hnext
  cases done with
  | true =>
    rw [if_pos rfl] at hnext
    obtain ⟨object, hobject, rfl⟩ := Option.map_eq_some_iff.mp hnext
    exact hpatched object hobject
  | false =>
    rw [if_neg Bool.false_ne_true] at hnext
    obtain rfl := Option.some.inj hnext
    apply Kept.finish hkube _ hk.ordered hk.owned
    · intro hrequeue
      cases hrequeue
    · intro hawait
      cases hawait

theorem Kept.apply (hkube : kube.Documented) (hk : h.Kept value entry) {obj : ApiObject σ}
    (hcall : h.call = some (.apply obj)) {done ok : Bool} (hdone : ¬(ok = true ∧ done = false)) :
    (if ok then h.proceed kube (kube.next (.apply obj)) .requeue
      else h.finish kube .retry).Kept value
      (FinalizerEvent.entry value (if done then some (.apply obj.spec) else none) entry) := by
  have hreturns : (if ok then h.proceed kube (kube.next (.apply obj)) .requeue
      else h.finish kube .retry) = h.finish kube (if ok then .requeue else .retry) := by
    rw [hkube.applied]
    split_ifs <;> rfl
  rw [hreturns]
  apply Kept.finish hkube _ hk.ordered
  · obtain ⟨hf, hd⟩ := hk.fits _ hcall
    cases done with
    | false => exact hk.owned
    | true => exact fun _ => hk.ordered.finalizer_of_apply hcall hf hd
  · intro hrequeue hnow
    cases ok with
    | false => cases hrequeue
    | true =>
      obtain rfl : done = true := by simpa using hdone
      exact ⟨obj, (hk.busy _ hcall hnow).2, (hk.fits _ hcall).2, rfl⟩
  · intro hawait
    split_ifs at hawait

theorem Kept.cleanup (hkube : kube.Documented) (hk : h.Kept value entry) {obj : ApiObject σ}
    (hcall : h.call = some (.cleanup obj)) {done ok : Bool} (hdone : ¬(ok = true ∧ done = false)) :
    (if ok then h.proceed kube (kube.next (.cleanup obj)) .awaitChange
      else h.finish kube .retry).Kept value
      (FinalizerEvent.entry value (if done then some .cleanup else none) entry) := by
  rw [hkube.cleanedUp]
  unfold proceed
  cases ok with
  | false =>
    rw [if_neg Bool.false_ne_true]
    apply Kept.finish hkube _ hk.ordered
    · cases done with
      | false => exact hk.owned
      | true => exact fun hentry => absurd rfl hentry
    · intro hrequeue
      cases hrequeue
    · intro hawait
      cases hawait
  | true =>
    obtain rfl : done = true := by simpa using hdone
    have hversions : ({ h with call := some (.removeFinalizer obj) } : Handled σ).versions =
        h.versions := by
      unfold versions
      rw [hcall]
      rfl
    have hbusy := hk.busy _ hcall
    rw [if_pos rfl, if_pos rfl]
    constructor
    · apply hk.ordered.narrow
      · rfl
      · rfl
      · exact hk.ordered.latest
      · rw [hversions]
        exact hk.ordered.ordered
      · rw [hversions]
        exact fun _ hv => hv
    · intro call hsome
      rw [← Option.some.inj hsome]
      exact hk.fits (.cleanup obj) hcall
    · exact fun hentry => absurd rfl hentry
    · exact fun _ _ => rfl
    · intro call hsome hnow
      rw [← Option.some.inj hsome]
      exact hbusy hnow
    · intro hrequeue
      have hrequeue' : h.schedule = .requeue := hrequeue
      have hawait := (hbusy (by simp [hrequeue'])).1
      rw [hrequeue'] at hawait
      cases hawait
    · intro _ hnone
      cases hnone

/-- The runner takes up the object that it last saw. -/
theorem Kept.started (hkube : kube.Documented) (hk : h.Kept value entry) {client : Bool}
    {h' : Handled σ} {event : Option (FinalizerEvent σ)}
    (hstep : h.step kube (.start client) = some (h', event)) :
    h'.Kept value (FinalizerEvent.entry value event entry) := by
  simp only [Handled.step] at hstep
  by_cases hready : h.call.isSome = true ∨ h.schedule = .awaitChange
  · rw [if_pos hready] at hstep
    cases hstep
  rw [if_neg hready] at hstep
  have hidle : h.call = none := by simpa using (not_or.mp hready).1
  have hordered : ({ h with schedule := .awaitChange } : Handled σ).Ordered :=
    hk.ordered.narrow rfl rfl hk.ordered.latest hk.ordered.ordered (fun _ hv => hv)
  cases hseen : h.seen with
  | none =>
    simp only [hseen] at hstep
    obtain ⟨rfl, rfl⟩ := Prod.mk.inj (Option.some.inj hstep)
    rw [← hseen]
    refine ⟨hordered, hk.fits, hk.owned, hk.erased, ?_, ?_, ?_⟩
    · intro call hsome
      rw [hidle] at hsome
      cases hsome
    · intro hrequeue
      cases hrequeue
    · intro _ _ hunseen
      have hlatest := hk.ordered.latest
      have hunseen' : h.unseen = [] := hunseen
      rw [hunseen', List.getLastD_nil, hseen] at hlatest
      exact hlatest.symm
  | some obj =>
    simp only [hseen] at hstep
    cases client with
    | false =>
      obtain ⟨rfl, rfl⟩ := Prod.mk.inj (Option.some.inj hstep)
      rw [← hseen, if_neg Bool.false_ne_true]
      apply Kept.finish hkube _ hordered hk.owned
      · intro hrequeue
        cases hrequeue
      · intro hawait
        cases hawait
    | true =>
      obtain ⟨rfl, rfl⟩ := Prod.mk.inj (Option.some.inj hstep)
      rw [← hseen, if_pos rfl]
      exact hk.start hkube hseen

/-- The etcd call of a reconcile is answered. -/
theorem Kept.called (hkube : kube.Documented) (hk : h.Kept value entry) {done ok : Bool}
    {h' : Handled σ} {event : Option (FinalizerEvent σ)}
    (hstep : h.step kube (.callEtcd done ok) = some (h', event)) :
    h'.Kept value (FinalizerEvent.entry value event entry) := by
  simp only [Handled.step] at hstep
  by_cases hdone : ok = true ∧ done = false
  · rw [if_pos hdone] at hstep
    cases hstep
  rw [if_neg hdone] at hstep
  cases hcall : h.call with
  | none => simp [hcall] at hstep
  | some call =>
    simp only [hcall] at hstep
    cases call with
    | addFinalizer obj => cases hstep
    | removeFinalizer obj => cases hstep
    | apply obj =>
      obtain ⟨rfl, rfl⟩ := Prod.mk.inj (Option.some.inj hstep)
      exact hk.apply hkube hcall hdone
    | cleanup obj =>
      obtain ⟨rfl, rfl⟩ := Prod.mk.inj (Option.some.inj hstep)
      exact hk.cleanup hkube hcall hdone

/-- The patch of the finalizer is answered. -/
theorem Kept.patch (hkube : kube.Documented) (hk : h.Kept value entry) {done ok : Bool}
    {h' : Handled σ} {event : Option (FinalizerEvent σ)}
    (hstep : h.step kube (.patch done ok) = some (h', event)) :
    h'.Kept value (FinalizerEvent.entry value event entry) := by
  simp only [Handled.step] at hstep
  by_cases hdone : ok = true ∧ done = false
  · rw [if_pos hdone] at hstep
    cases hstep
  rw [if_neg hdone] at hstep
  cases hcall : h.call with
  | none => simp [hcall] at hstep
  | some call =>
    simp only [hcall] at hstep
    cases call with
    | addFinalizer obj =>
      obtain ⟨next, hnext, heq⟩ := Option.map_eq_some_iff.mp hstep
      obtain ⟨rfl, rfl⟩ := Prod.mk.inj heq
      exact hk.patchObject hkube (fun obj hobj => hk.addFinalizer hkube hcall hobj ok) hnext
    | removeFinalizer obj =>
      obtain ⟨next, hnext, heq⟩ := Option.map_eq_some_iff.mp hstep
      obtain ⟨rfl, rfl⟩ := Prod.mk.inj heq
      exact hk.patchObject hkube (fun obj hobj => hk.removeFinalizer hkube hcall hobj ok) hnext
    | apply obj => cases hstep
    | cleanup obj => cases hstep

theorem Kept.step (hkube : kube.Documented) (hk : h.Kept value entry) {a : Act σ}
    {h' : Handled σ} {event : Option (FinalizerEvent σ)}
    (hstep : h.step kube a = some (h', event)) :
    h'.Kept value (FinalizerEvent.entry value event entry) := by
  cases a with
  | create spec =>
    simp only [Handled.step] at hstep
    split_ifs at hstep with hnone
    obtain ⟨rfl, rfl⟩ := Prod.mk.inj (Option.some.inj hstep)
    exact hk.create (Option.isNone_iff_eq_none.mp hnone) spec
  | change spec =>
    simp only [Handled.step] at hstep
    obtain ⟨obj, hobj, heq⟩ := Option.map_eq_some_iff.mp hstep
    obtain ⟨rfl, rfl⟩ := Prod.mk.inj heq
    exact hk.change hobj spec
  | delete =>
    simp only [Handled.step] at hstep
    cases hobj : h.object with
    | none => simp [hobj] at hstep
    | some obj =>
      simp only [hobj] at hstep
      split_ifs at hstep with hd
      obtain ⟨rfl, rfl⟩ := Prod.mk.inj (Option.some.inj hstep)
      by_cases hf : obj.finalizer = true
      · rw [ApiObject.stored, if_neg (by simp [hf])]
        exact hk.delete hobj hf
      · rw [ApiObject.stored, if_pos (by simpa using hf)]
        exact hk.vanish hobj (by simpa using hf)
  | watch =>
    simp only [Handled.step] at hstep
    cases hunseen : h.unseen with
    | nil => simp [hunseen] at hstep
    | cons object unseen =>
      simp only [hunseen] at hstep
      obtain ⟨rfl, rfl⟩ := Prod.mk.inj (Option.some.inj hstep)
      exact hk.reschedule (hk.ordered.watch hunseen) rfl (Or.inl rfl) rfl
  | relist =>
    simp only [Handled.step] at hstep
    obtain ⟨rfl, rfl⟩ := Prod.mk.inj (Option.some.inj hstep)
    exact hk.reschedule (hk.ordered.relist h.call .now (Or.inl rfl)) rfl (Or.inl rfl) rfl
  | restart =>
    simp only [Handled.step] at hstep
    obtain ⟨rfl, rfl⟩ := Prod.mk.inj (Option.some.inj hstep)
    exact hk.reschedule (hk.ordered.relist none .now (Or.inr rfl)) rfl (Or.inr rfl) rfl
  | start client => exact hk.started hkube hstep
  | callEtcd done ok => exact hk.called hkube hstep
  | patch done ok => exact hk.patch hkube hstep

theorem kept_new (value : σ → String) : (new σ).Kept value none := by
  have hversions : ∀ v, some v ∉ (new σ).versions := by
    intro v hv
    simp [versions, new] at hv
  constructor
  · constructor
    · rfl
    · simp [versions, new, Before]
    · exact fun v hv => absurd hv (hversions v)
    · rintro - ⟨⟩
    · exact fun v hv => absurd hv (hversions v)
    · exact fun v hv => absurd hv (hversions v)
    · exact fun v hv => absurd hv (hversions v)
  · rintro - ⟨⟩
  · exact fun hentry => absurd rfl hentry
  · rintro - ⟨⟩
  · rintro - ⟨⟩
  · rintro ⟨⟩
  · exact fun _ _ _ => rfl

/-- The steps of the controller itself, whose calls succeed or not. -/
def Act.Own : Act σ → Prop
  | .watch | .relist | .start _ | .callEtcd _ _ | .patch _ _ => True
  | .create _ | .change _ | .delete | .restart => False

/-- A step with what it leaves of the entry. -/
def stepEntry (kube : Kube σ) (value : σ → String) (s : Handled σ × Option String) (a : Act σ) :
    Option (Handled σ × Option String) :=
  (s.1.step kube a).map (fun next => (next.1, FinalizerEvent.entry value next.2 s.2))

theorem Kept.stepEntry (hkube : kube.Documented) {s t : Handled σ × Option String}
    (hk : s.1.Kept value s.2) {a : Act σ} (h : Handled.stepEntry kube value s a = some t) :
    t.1.Kept value t.2 := by
  obtain ⟨⟨next, event⟩, hnext, rfl⟩ := Option.map_eq_some_iff.mp h
  exact hk.step hkube hnext

/-- The spec of an object that is to stay. -/
def wanted (h : Handled σ) : Option σ :=
  (h.object.filter (fun obj => !obj.deleting)).map ApiObject.spec

/-- The controller's own steps can lead to rest, with an object of this spec or
with none. -/
def Rests (kube : Kube σ) (value : σ → String) (spec : Option σ)
    (s : Handled σ × Option String) : Prop :=
  ∃ acts t, (∀ a ∈ acts, Act.Own a) ∧ Run (StepOf (stepEntry kube value)) s acts t ∧
    t.1.AtRest ∧ t.1.object.map ApiObject.spec = spec

theorem Rests.here {spec : Option σ} {s : Handled σ × Option String} (hrest : s.1.AtRest)
    (hspec : s.1.object.map ApiObject.spec = spec) : Rests kube value spec s :=
  ⟨[], s, by simp, .nil s, hrest, hspec⟩

theorem Rests.step {spec : Option σ} {s t : Handled σ × Option String}
    (ht : Rests kube value spec t) (a : Act σ) (hown : a.Own)
    (h : stepEntry kube value s a = some t) : Rests kube value spec s := by
  obtain ⟨acts, u, hacts, hrun, hrest⟩ := ht
  exact ⟨a :: acts, u, List.forall_mem_cons.mpr ⟨hown, hacts⟩, .cons h hrun, hrest⟩

section
variable {schedule : Schedule} (hkube : kube.Documented)
  (hdue : schedule = .retry ∨ schedule = .now) (uids : ℕ)
include hdue

/-- Without an object there is nothing to do. -/
theorem rests_gone (entry : Option String) :
    Rests kube value none (⟨none, uids, none, [], none, schedule⟩, entry) := by
  have hrest : Rests kube value none (⟨none, uids, none, [], none, .awaitChange⟩, entry) :=
    .here ⟨rfl, rfl, Or.inl rfl⟩ rfl
  refine hrest.step (.start true) trivial ?_
  obtain rfl | rfl := hdue <;> rfl

/-- A reconcile that is due starts with the call that the finalizer makes. -/
theorem rests_call {obj : ApiObject σ} {call : ReconcileCall σ} {spec : Option σ}
    {entry : Option String} (hcall : kube.finalizer obj = some call)
    (hrests : Rests kube value spec
      (⟨some obj, uids, some obj, [], some call, .awaitChange⟩, entry)) :
    Rests kube value spec (⟨some obj, uids, some obj, [], none, schedule⟩, entry) := by
  refine hrests.step (.start true) trivial ?_
  obtain rfl | rfl := hdue <;>
    simp [stepEntry, Handled.step, proceed, hcall, FinalizerEvent.entry]

include hkube

/-- An object with the finalizer is applied. -/
theorem rests_present (uid : ℕ) (spec : σ) (entry : Option String) :
    Rests kube value (some spec) (⟨some ⟨uid, spec, true, false⟩, uids,
      some ⟨uid, spec, true, false⟩, [], none, schedule⟩, entry) := by
  let obj : ApiObject σ := ⟨uid, spec, true, false⟩
  have hrest : Rests kube value (some spec)
      (⟨some obj, uids, some obj, [], none, .requeue⟩, some (value spec)) :=
    .here ⟨rfl, rfl, Or.inr rfl⟩ rfl
  refine rests_call hdue uids (hkube.applies obj rfl rfl)
    (hrest.step (.callEtcd true true) trivial ?_)
  have hrequeue := hkube.asked .awaitChange .requeue (by decide)
  simp [stepEntry, Handled.step, proceed, finish, hkube.applied, hrequeue,
    FinalizerEvent.entry, obj]

/-- One without gets it, and the watch shows that. -/
theorem rests_bare (uid : ℕ) (spec : σ) (entry : Option String) :
    Rests kube value (some spec) (⟨some ⟨uid, spec, false, false⟩, uids,
      some ⟨uid, spec, false, false⟩, [], none, schedule⟩, entry) := by
  let bare : ApiObject σ := ⟨uid, spec, false, false⟩
  let obj : ApiObject σ := ⟨uid, spec, true, false⟩
  have hadded : Rests kube value (some spec)
      (⟨some obj, uids, some bare, [some obj], none, .awaitChange⟩, entry) :=
    (rests_present hkube (Or.inr rfl) uids uid spec entry).step .watch trivial rfl
  refine rests_call hdue uids (hkube.adds bare rfl rfl) (hadded.step (.patch true true) trivial ?_)
  have hawait := hkube.asked .awaitChange .awaitChange (by decide)
  simp [stepEntry, Handled.step, patchObject, finish, record, hkube.added, hawait,
    ApiObject.stored, FinalizerEvent.entry, obj, bare]

/-- A deleted object is cleaned up after, and goes. -/
theorem rests_deleting (uid : ℕ) (spec : σ) (entry : Option String) :
    Rests kube value none (⟨some ⟨uid, spec, true, true⟩, uids, some ⟨uid, spec, true, true⟩,
      [], none, schedule⟩, entry) := by
  let obj : ApiObject σ := ⟨uid, spec, true, true⟩
  have hremoved : Rests kube value none
      (⟨none, uids, some obj, [none], none, .awaitChange⟩, none) :=
    (rests_gone (Or.inr rfl) uids none).step .watch trivial rfl
  have hremove : Rests kube value none
      (⟨some obj, uids, some obj, [], some (.removeFinalizer obj), .awaitChange⟩, none) := by
    refine hremoved.step (.patch true true) trivial ?_
    have hpatch := hkube.removed obj rfl
    have hawait := hkube.asked .awaitChange .awaitChange (by decide)
    simp [stepEntry, Handled.step, patchObject, finish, record, hpatch, hawait, ApiObject.stored,
      FinalizerEvent.entry, obj]
  refine rests_call hdue uids (hkube.cleansUp obj rfl rfl)
    (hremove.step (.callEtcd true true) trivial ?_)
  simp [stepEntry, Handled.step, proceed, hkube.cleanedUp, FinalizerEvent.entry, obj]

end

/-- A reconcile is due of an object as it is. -/
theorem Kept.rests_due (hkube : kube.Documented) (hk : h.Kept value entry) (hcall : h.call = none)
    (hunseen : h.unseen = []) (hdue : h.schedule = .retry ∨ h.schedule = .now) :
    Rests kube value h.wanted (h, entry) := by
  obtain ⟨object, uids, seen, unseen, call, schedule⟩ := h
  obtain rfl : call = none := hcall
  obtain rfl : unseen = [] := hunseen
  obtain rfl : seen = object := hk.ordered.latest
  cases seen with
  | none => exact rests_gone hdue uids entry
  | some obj =>
    have hfinalized := hk.ordered.finalized obj (by simp [versions])
    obtain ⟨uid, spec, finalizer, deleting⟩ := obj
    cases deleting with
    | true =>
      obtain rfl : finalizer = true := hfinalized rfl
      exact rests_deleting hkube hdue uids uid spec entry
    | false =>
      cases finalizer with
      | true => exact rests_present hkube hdue uids uid spec entry
      | false => exact rests_bare hkube hdue uids uid spec entry

/-- A controller that has seen everything and runs no reconcile. -/
theorem Kept.rests_idle (hkube : kube.Documented) (hk : h.Kept value entry) (hcall : h.call = none)
    (hunseen : h.unseen = []) : Rests kube value h.wanted (h, entry) := by
  have hlatest := hk.ordered.latest
  rw [hunseen, List.getLastD_nil] at hlatest
  cases hschedule : h.schedule with
  | awaitChange =>
    have hnone := hk.waits hschedule hcall hunseen
    refine .here ⟨hunseen, by rw [hcall]; rfl, Or.inl hschedule⟩ ?_
    simp [wanted, hnone]
  | requeue =>
    obtain ⟨obj, hseen, hd, -⟩ := hk.synced hschedule
    refine .here ⟨hunseen, by rw [hcall]; rfl, Or.inr hschedule⟩ ?_
    simp [wanted, ← hlatest, hseen, hd]
  | retry => exact hk.rests_due hkube hcall hunseen (Or.inl hschedule)
  | now => exact hk.rests_due hkube hcall hunseen (Or.inr hschedule)

/-- A controller that runs no reconcile. -/
theorem Kept.rests_free (hkube : kube.Documented) (unseen : List (Option (ApiObject σ)))
    {h : Handled σ} (hk : h.Kept value entry) (hcall : h.call = none)
    (hunseen : h.unseen = unseen) : Rests kube value h.wanted (h, entry) := by
  induction unseen generalizing h with
  | nil => exact hk.rests_idle hkube hcall hunseen
  | cons object unseen ih =>
    let next : Handled σ := { h with seen := object, unseen := unseen, schedule := .now }
    have hstep : Handled.stepEntry kube value (h, entry) .watch = some (next, entry) := by
      simp only [Handled.stepEntry, Handled.step, hunseen]
      rfl
    have hrests : Rests kube value next.wanted (next, entry) :=
      ih (hk.stepEntry hkube hstep) hcall rfl
    exact hrests.step .watch trivial hstep

/-- From wherever it is, the controller can bring about what is wanted. -/
theorem Kept.rests (hkube : kube.Documented) (hk : h.Kept value entry) :
    Rests kube value h.wanted (h, entry) := by
  have hfail : ∀ a : Act σ, a.Own →
      Handled.stepEntry kube value (h, entry) a = some (h.finish kube .retry, entry) →
      Rests kube value h.wanted (h, entry) := by
    intro a hown hstep
    have hrests : Rests kube value h.wanted (h.finish kube .retry, entry) :=
      Kept.rests_free hkube _ (hk.stepEntry hkube hstep) rfl rfl
    exact hrests.step a hown hstep
  cases hcall : h.call with
  | none => exact Kept.rests_free hkube _ hk hcall rfl
  | some call =>
    -- The call in progress fails without effect.
    cases call with
    | addFinalizer obj =>
      exact hfail (.patch false false) trivial
        (by simp [Handled.stepEntry, Handled.step, hcall, Handled.patchObject,
          FinalizerEvent.entry])
    | apply obj =>
      exact hfail (.callEtcd false false) trivial
        (by simp [Handled.stepEntry, Handled.step, hcall, FinalizerEvent.entry])
    | cleanup obj =>
      exact hfail (.callEtcd false false) trivial
        (by simp [Handled.stepEntry, Handled.step, hcall, FinalizerEvent.entry])
    | removeFinalizer obj =>
      exact hfail (.patch false false) trivial
        (by simp [Handled.stepEntry, Handled.step, hcall, Handled.patchObject,
          FinalizerEvent.entry])

/-- The entry is then what is wanted. -/
theorem Kept.attains (hkube : kube.Documented) (hk : h.Kept value entry) :
    ∃ acts t, (∀ a ∈ acts, Act.Own a) ∧
      Run (StepOf (Handled.stepEntry kube value)) (h, entry) acts t ∧ t.1.AtRest ∧
      t.2 = h.wanted.map value := by
  obtain ⟨acts, t, hacts, hrun, hrest, hspec⟩ := hk.rests hkube
  have hkept : t.1.Kept value t.2 :=
    hrun.invariant (I := fun s => s.1.Kept value s.2)
      (fun _ _ _ hs hst => hs.stepEntry hkube hst) hk
  refine ⟨acts, t, hacts, hrun, hrest, ?_⟩
  rw [hkept.atRest hrest, ← hspec, Option.map_map]
  rfl

end

end Handled

/-- The objects with their controllers beside etcd. -/
structure Controllers where
  handled : (ref : ObjectRef) → Handled ref.kind.Spec
  etcd : Etcd

namespace Controllers

inductive Label where
  | act (ref : ObjectRef) (a : Handled.Act ref.kind.Spec)

/-- The object that a step is about. -/
def Label.ref : Label → ObjectRef
  | .act ref _ => ref

/-- Etcd takes the call of a reconcile. -/
def reconciled [SerdeJson] (ref : ObjectRef) :
    Option (FinalizerEvent ref.kind.Spec) → Etcd → Etcd
  | none, etcd => etcd
  | some event, etcd => ref.kind.reconcile ref.ns ref.name event etcd

/-- One step, with kube for each kind of objects. -/
def step [SerdeJson] (kube : (kind : Kind) → Kube kind.Spec) (s : Controllers) :
    Label → Option Controllers
  | .act ref a => ((s.handled ref).step (kube ref.kind) a).map (fun next =>
      { handled := Function.update s.handled ref next.1
        etcd := reconciled ref next.2 s.etcd })

def start (etcd : Etcd) : Controllers := ⟨fun ref => .new ref.kind.Spec, etcd⟩

/-- No other object of the kind and name. -/
def Alone (ref : ObjectRef) (_ : Controllers) (l : Label) : Prop :=
  l.ref.key = ref.key → l.ref = ref

instance (ref : ObjectRef) (s : Controllers) (l : Label) : Decidable (Alone ref s l) :=
  inferInstanceAs (Decidable (_ → _))

/-- What the operator keeps for an object. -/
def value [SerdeJson] (kind : Kind) (spec : kind.Spec) : String :=
  SerdeJson.print (kind.toJson spec)

theorem reconciled_self [SerdeJson] (ref : ObjectRef)
    (event : Option (FinalizerEvent ref.kind.Spec)) (etcd : Etcd) :
    (reconciled ref event etcd)[ref.key]? =
      FinalizerEvent.entry (value ref.kind) event etcd[ref.key]? := by
  cases event with
  | none => rfl
  | some event =>
    cases event with
    | apply spec =>
      show (ref.kind.reconcile ref.ns ref.name (.apply spec) etcd)[ref.key]? = _
      rw [Kind.reconcile_apply]
      exact Std.ExtTreeMap.getElem?_insert_self
    | cleanup =>
      show (ref.kind.reconcile ref.ns ref.name .cleanup etcd)[ref.key]? = _
      rw [Kind.reconcile_cleanup]
      exact Std.ExtTreeMap.getElem?_erase_self

theorem reconciled_of_ne [SerdeJson] (ref : ObjectRef)
    (event : Option (FinalizerEvent ref.kind.Spec)) (etcd : Etcd) {key : String}
    (hkey : ref.key ≠ key) : (reconciled ref event etcd)[key]? = etcd[key]? := by
  have hne : ref.kind.keysPrefix ++ ref.name ≠ key := hkey
  cases event with
  | none => rfl
  | some event =>
    cases event with
    | apply spec =>
      show (ref.kind.reconcile ref.ns ref.name (.apply spec) etcd)[key]? = _
      rw [Kind.reconcile_apply]
      simp [Std.ExtTreeMap.getElem?_insert, hne]
    | cleanup =>
      show (ref.kind.reconcile ref.ns ref.name .cleanup etcd)[key]? = _
      rw [Kind.reconcile_cleanup]
      simp [Std.ExtTreeMap.getElem?_erase, hne]

theorem kept_step [SerdeJson] {kube : (kind : Kind) → Kube kind.Spec}
    (hkube : ∀ kind, (kube kind).Documented) {ref : ObjectRef} {s t : Controllers} {l : Label}
    (hs : (s.handled ref).Kept (value ref.kind) s.etcd[ref.key]?) (halone : Alone ref s l)
    (h : s.step kube l = some t) : (t.handled ref).Kept (value ref.kind) t.etcd[ref.key]? := by
  cases l with
  | act other a =>
    obtain ⟨⟨next, event⟩, hnext, rfl⟩ := Option.map_eq_some_iff.mp h
    by_cases heq : other = ref
    · subst heq
      show (Function.update s.handled other next other).Kept _ (reconciled other event s.etcd)[_]?
      rw [Function.update_self, reconciled_self]
      exact hs.step (hkube _) hnext
    · have hkey : other.key ≠ ref.key := fun hkey => heq (halone hkey)
      show (Function.update s.handled other next ref).Kept _ (reconciled other event s.etcd)[_]?
      rw [Function.update_of_ne (Ne.symm heq), reconciled_of_ne other event s.etcd hkey]
      exact hs

/-- A step of the object's own controller. -/
def Label.Own (ref : ObjectRef) (l : Label) : Prop :=
  ∃ a : Handled.Act ref.kind.Spec, a.Own ∧ l = .act ref a

/-- What one controller does with an object and its entry, the operator does. -/
theorem run_of_stepEntry [SerdeJson] {kube : (kind : Kind) → Kube kind.Spec} {ref : ObjectRef}
    {p q : Handled ref.kind.Spec × Option String} {acts : List (Handled.Act ref.kind.Spec)}
    (h : Run (StepOf (Handled.stepEntry (kube ref.kind) (value ref.kind))) p acts q)
    {s : Controllers} (hhandled : s.handled ref = p.1) (hentry : s.etcd[ref.key]? = p.2) :
    ∃ t, Run (StepOf (step kube)) s (acts.map (.act ref)) t ∧
      t.handled ref = q.1 ∧ t.etcd[ref.key]? = q.2 := by
  induction h generalizing s with
  | nil p => exact ⟨s, .nil s, hhandled, hentry⟩
  | @cons p p' q a acts hstep _ ih =>
    obtain ⟨next, hnext, rfl⟩ := Option.map_eq_some_iff.mp hstep
    let s' : Controllers :=
      { handled := Function.update s.handled ref next.1, etcd := reconciled ref next.2 s.etcd }
    have hs' : s.step kube (.act ref a) = some s' := by
      simp only [step, hhandled, hnext, Option.map_some]
      rfl
    obtain ⟨t, hrun, ht⟩ := ih (s := s') (Function.update_self ..)
      ((reconciled_self ref next.2 s.etcd).trans (by rw [hentry]))
    exact ⟨t, .cons hs' hrun, ht⟩

/-- In every run in which kube does what it documents and no other object has the kind
and name of an object, which has no entry at first: its entry in etcd is there only while
the object is there with the finalizer, whatever calls fail and however late the
controller is; once the controller is at rest the entry is exactly the object's spec; and
the controller's own steps can always be taken to rest, with the entry of the object
unless that is being deleted. -/
theorem reconciles_mirror [SerdeJson] (kube : (kind : Kind) → Kube kind.Spec)
    (hkube : ∀ kind, (kube kind).Documented) (etcd : Etcd) (ref : ObjectRef)
    (labels : List Label) (s : Controllers) (hfresh : etcd[ref.key]? = none)
    (h : Run (Guarded (Alone ref) (StepOf (step kube))) (start etcd) labels s) :
    (s.etcd[ref.key]? ≠ none → ∃ obj ∈ (s.handled ref).object, obj.finalizer = true) ∧
    ((s.handled ref).AtRest → s.etcd[ref.key]? =
      (s.handled ref).object.map (fun obj => SerdeJson.print (ref.kind.toJson obj.spec))) ∧
    ∃ own t, (∀ l ∈ own, Label.Own ref l) ∧ Run (StepOf (step kube)) s own t ∧
      (t.handled ref).AtRest ∧ t.etcd[ref.key]? =
        (s.handled ref).wanted.map (fun spec => SerdeJson.print (ref.kind.toJson spec)) := by
  have hstart : ((start etcd).handled ref).Kept (value ref.kind) (start etcd).etcd[ref.key]? := by
    show (Handled.new ref.kind.Spec).Kept _ etcd[ref.key]?
    rw [hfresh]
    exact Handled.kept_new _
  have hs : (s.handled ref).Kept (value ref.kind) s.etcd[ref.key]? :=
    h.invariant (I := fun s => (s.handled ref).Kept (value ref.kind) s.etcd[ref.key]?)
      (fun _ _ _ hs hstep => kept_step hkube hs hstep.1 hstep.2) hstart
  refine ⟨hs.owned, hs.atRest, ?_⟩
  obtain ⟨acts, ⟨handled, entry⟩, hacts, hrun, hrest, hentry⟩ := hs.attains (hkube ref.kind)
  obtain ⟨t, ht, hhandled, hetcd⟩ := run_of_stepEntry hrun rfl rfl
  refine ⟨acts.map (.act ref), t, ?_, ht, ?_, hetcd.trans hentry⟩
  · intro l hl
    obtain ⟨a, ha, rfl⟩ := List.mem_map.mp hl
    exact ⟨a, hacts a ha, rfl⟩
  · rw [hhandled]
    exact hrest

/-- A machine's first write takes effect and fails. Its entry is there, and the
machine is at rest after another. -/
theorem reconciles_mirror_retried :
    let _ : SerdeJson := SerdeJson.knowing []
    let ref : ObjectRef := ⟨.machine, "lab-a", "m1"⟩
    let spec := Mirror.bareMachine "a"
    ∃ labels s, Run (Guarded (Alone ref) (StepOf (step fun kind => .reference kind.Spec)))
      (start ∅) labels s ∧
      s.etcd[ref.key]? = some (SerdeJson.print (Kind.machine.toJson spec)) := by
  intro _ ref spec
  let acts : List (Handled.Act ref.kind.Spec) :=
    [.create spec, .watch, .start true, .patch true true, .watch, .start true,
      .callEtcd true false, .start true, .callEtcd true true]
  let labels := acts.map (Label.act ref)
  let kube : (kind : Kind) → Kube kind.Spec := fun kind => .reference kind.Spec
  obtain ⟨s, hs, hrest, hobject⟩ :
      ∃ s ∈ labels.foldlM (guardedNext (Alone ref) (step kube)) (start ∅),
      (s.handled ref).AtRest ∧
      (s.handled ref).object.map ApiObject.spec = some spec := ⟨_, rfl, by decide, rfl⟩
  have hrun := Run.guarded_of_foldlM hs
  refine ⟨labels, s, hrun, ?_⟩
  have hkube : ∀ kind, (kube kind).Documented := fun kind => Kube.documented_reference kind.Spec
  rw [(reconciles_mirror kube hkube ∅ ref labels s (by simp) hrun).2.1 hrest]
  have hmap := congrArg
    (Option.map (fun spec => SerdeJson.print (Kind.machine.toJson spec))) hobject
  rwa [Option.map_map] at hmap

end Controllers
end Neolaas.Operator
