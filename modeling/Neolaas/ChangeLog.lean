import Mathlib

/-!
# Logs of changes and views that follow a store

A change gives one key a value or takes its value away. A view follows a store
when replaying the changes that have not yet reached the view gives the store's
content. A snapshot of the store laid over a view repairs the keys on which the
view has missed changes, except for a key that the store no longer has.
-/
namespace Neolaas.ChangeLog

/-- A change of one key. The value `none` deletes the key. -/
structure Change (κ ν : Type*) where
  key : κ
  value : Option ν
  deriving DecidableEq

/-- The content after a change. -/
def Change.apply {κ ν : Type*} [DecidableEq κ] (m : κ → Option ν) (c : Change κ ν) :
    κ → Option ν := Function.update m c.key c.value

@[simp] theorem Change.apply_key {κ ν : Type*} [DecidableEq κ] (m : κ → Option ν)
    (c : Change κ ν) : c.apply m c.key = c.value := Function.update_self ..

theorem Change.apply_of_ne {κ ν : Type*} [DecidableEq κ] (m : κ → Option ν) (c : Change κ ν)
    {k : κ} (h : k ≠ c.key) : c.apply m k = m k := Function.update_of_ne h ..

/-- The content after a log of changes, the first change first. -/
def replay {κ ν : Type*} [DecidableEq κ] (m : κ → Option ν) (log : List (Change κ ν)) :
    κ → Option ν := log.foldl Change.apply m

@[simp] theorem replay_nil {κ ν : Type*} [DecidableEq κ] (m : κ → Option ν) :
    replay m [] = m := rfl

@[simp] theorem replay_cons {κ ν : Type*} [DecidableEq κ] (m : κ → Option ν) (c : Change κ ν)
    (log : List (Change κ ν)) : replay m (c :: log) = replay (c.apply m) log := rfl

theorem replay_append {κ ν : Type*} [DecidableEq κ] (m : κ → Option ν)
    (log log' : List (Change κ ν)) : replay m (log ++ log') = replay (replay m log) log' :=
  List.foldl_append

/-- Some change of the log is about the key. -/
def Touches {κ ν : Type*} (log : List (Change κ ν)) (k : κ) : Prop := ∃ c ∈ log, c.key = k

@[simp] theorem not_touches_nil {κ ν : Type*} (k : κ) : ¬Touches ([] : List (Change κ ν)) k := by
  simp [Touches]

@[simp] theorem touches_cons {κ ν : Type*} (c : Change κ ν) (log : List (Change κ ν)) (k : κ) :
    Touches (c :: log) k ↔ c.key = k ∨ Touches log k := by
  simp [Touches]

@[simp] theorem touches_append {κ ν : Type*} (log log' : List (Change κ ν)) (k : κ) :
    Touches (log ++ log') k ↔ Touches log k ∨ Touches log' k := by
  simp [Touches, or_and_right, exists_or]

/-- A key's content after a replay depends on its content before only. -/
theorem replay_congr {κ ν : Type*} [DecidableEq κ] {m m' : κ → Option ν} {k : κ}
    (h : m k = m' k) (log : List (Change κ ν)) : replay m log k = replay m' log k := by
  induction log generalizing m m' with
  | nil => exact h
  | cons c log ih =>
    apply ih
    by_cases hk : k = c.key
    · rw [hk, Change.apply_key, Change.apply_key]
    · rw [Change.apply_of_ne m c hk, Change.apply_of_ne m' c hk, h]

theorem replay_of_not_touches {κ ν : Type*} [DecidableEq κ] {m : κ → Option ν} {k : κ}
    {log : List (Change κ ν)} (h : ¬Touches log k) : replay m log k = m k := by
  induction log generalizing m with
  | nil => rfl
  | cons c log ih =>
    rw [touches_cons, not_or] at h
    rw [replay_cons, ih h.2]
    exact Change.apply_of_ne m c (fun hk => h.1 hk.symm)

/-- The last change of a key decides, whatever the key was before. -/
theorem replay_of_touches {κ ν : Type*} [DecidableEq κ] {k : κ} {log : List (Change κ ν)}
    (h : Touches log k) (m m' : κ → Option ν) : replay m log k = replay m' log k := by
  induction log generalizing m m' with
  | nil => exact absurd h (not_touches_nil k)
  | cons c log ih =>
    rw [replay_cons, replay_cons]
    by_cases hrest : Touches log k
    · exact ih hrest (c.apply m) (c.apply m')
    · have hk : c.key = k := ((touches_cons c log k).mp h).resolve_right hrest
      rw [replay_of_not_touches hrest, replay_of_not_touches hrest, ← hk]
      simp

/-- A log brings a view on its way to where it brought the view from the start. -/
theorem replay_of_moves {κ ν : Type*} [DecidableEq κ] {m m' : κ → Option ν}
    {log : List (Change κ ν)} (h : ∀ k, m' k = m k ∨ m' k = replay m log k) :
    replay m' log = replay m log := by
  funext k
  by_cases hk : Touches log k
  · exact replay_of_touches hk m' m
  · have hkeep := replay_of_not_touches (m := m) hk
    rw [replay_of_not_touches hk, hkeep]
    obtain hsame | hmoved := h k
    · exact hsame
    · rw [hmoved, hkeep]

/-- What the last change of a key in a log has given it. -/
def lastOf {κ ν : Type*} [DecidableEq κ] (log : List (Change κ ν)) (k : κ) : Option (Option ν) :=
  (log.filter (fun c => c.key = k)).getLast?.map Change.value

/-- The last change of a key decides; without one the key is as before. -/
theorem replay_eq_lastOf {κ ν : Type*} [DecidableEq κ] (m : κ → Option ν)
    (log : List (Change κ ν)) (k : κ) : replay m log k = (lastOf log k).getD (m k) := by
  induction log using List.reverseRecOn with
  | nil => rfl
  | append_singleton log c ih =>
    rw [replay_append, replay_cons, replay_nil]
    by_cases hk : c.key = k
    · obtain rfl := hk
      rw [Change.apply_key]
      simp [lastOf]
    · rw [Change.apply_of_ne _ c (fun h => hk h.symm), ih]
      simp [lastOf, hk]

theorem lastOf_eq_none_iff {κ ν : Type*} [DecidableEq κ] {log : List (Change κ ν)} {k : κ} :
    lastOf log k = none ↔ ¬Touches log k := by
  unfold lastOf Touches
  simp

theorem lastOf_mem {κ ν : Type*} [DecidableEq κ] {log : List (Change κ ν)} {k : κ}
    {value : Option ν} (h : lastOf log k = some value) : ⟨k, value⟩ ∈ log := by
  unfold lastOf at h
  obtain ⟨c, hc, rfl⟩ := Option.map_eq_some_iff.mp h
  obtain ⟨hmem, hkey⟩ := List.mem_filter.mp (List.mem_of_getLast? hc)
  obtain rfl : c.key = k := by simpa using hkey
  exact hmem

/-- The view has the store's content of a key as soon as the pending changes
have reached it. -/
def Follows {κ ν : Type*} [DecidableEq κ] (view : κ → Option ν) (pending : List (Change κ ν))
    (store : κ → Option ν) (k : κ) : Prop := replay view pending k = store k

namespace Follows

/-- A view without pending changes has the content. -/
theorem drained {κ ν : Type*} [DecidableEq κ] {view store : κ → Option ν} {k : κ}
    (h : Follows view [] store k) : view k = store k := h

/-- A committed change that is pending for the view. -/
theorem commit {κ ν : Type*} [DecidableEq κ] {view store : κ → Option ν}
    {pending : List (Change κ ν)} {k : κ} (h : Follows view pending store k) (c : Change κ ν) :
    Follows view (pending ++ [c]) (c.apply store) k := by
  unfold Follows
  rw [replay_append]
  exact replay_congr h [c]

/-- What happens to other keys of the store does not matter. -/
theorem of_store_eq {κ ν : Type*} [DecidableEq κ] {view store store' : κ → Option ν}
    {pending : List (Change κ ν)} {k : κ} (h : Follows view pending store k)
    (hs : store' k = store k) : Follows view pending store' k := Eq.trans h hs.symm

/-- The first pending changes reach the view. -/
theorem deliver {κ ν : Type*} [DecidableEq κ] {view store : κ → Option ν}
    {delivered pending : List (Change κ ν)} {k : κ} :
    Follows view (delivered ++ pending) store k ↔
      Follows (replay view delivered) pending store k := by
  unfold Follows
  rw [replay_append]

/-- A committed and pending change repairs its own key. -/
theorem commit_key {κ ν : Type*} [DecidableEq κ] (view store : κ → Option ν)
    (pending : List (Change κ ν)) (c : Change κ ν) :
    Follows view (pending ++ [c]) (c.apply store) c.key := by
  unfold Follows
  rw [replay_append, Change.apply_key]
  exact Change.apply_key _ c

/-- Pending changes of other keys at the end of the log do not matter. -/
theorem append_iff {κ ν : Type*} [DecidableEq κ] {view store : κ → Option ν}
    {pending rest : List (Change κ ν)} {k : κ} (hrest : ¬Touches rest k) :
    Follows view (pending ++ rest) store k ↔ Follows view pending store k := by
  unfold Follows
  rw [replay_append, replay_of_not_touches hrest]

end Follows

/-- A snapshot laid over a view. A key without value in the snapshot stays. -/
def overlay {κ ν : Type*} (view snapshot : κ → Option ν) : κ → Option ν :=
  fun k => (snapshot k).or (view k)

/-- Replaying the entries of a snapshot lays it over the view. -/
theorem replay_eq_overlay {κ ν : Type*} [DecidableEq κ] {view snapshot : κ → Option ν}
    {log : List (Change κ ν)} (hsound : ∀ c ∈ log, c.value ≠ none ∧ snapshot c.key = c.value)
    (hcomplete : ∀ k, snapshot k ≠ none → Touches log k) :
    replay view log = overlay view snapshot := by
  have hlast : ∀ (log : List (Change κ ν)) (view : κ → Option ν) (k : κ),
      (∀ c ∈ log, snapshot c.key = c.value) → Touches log k → replay view log k = snapshot k := by
    intro log
    induction log with
    | nil => exact fun _ k _ h => absurd h (not_touches_nil k)
    | cons c log ih =>
      intro view k hlog htouch
      have hrest : ∀ c' ∈ log, snapshot c'.key = c'.value :=
        fun c' hc' => hlog c' (List.mem_cons_of_mem c hc')
      rw [replay_cons]
      by_cases hk : Touches log k
      · exact ih _ k hrest hk
      · obtain rfl := ((touches_cons c log k).mp htouch).resolve_right hk
        rw [replay_of_not_touches hk, Change.apply_key]
        exact (hlog c List.mem_cons_self).symm
  ext1 k
  unfold overlay
  by_cases hk : Touches log k
  · rw [hlast log view k (fun c hc => (hsound c hc).2) hk]
    obtain ⟨c, hc, rfl⟩ := hk
    obtain ⟨hvalue, hget⟩ := hsound c hc
    obtain ⟨v, hv⟩ := Option.ne_none_iff_exists'.mp hvalue
    rw [hget, hv]
    rfl
  · have hnone : snapshot k = none := by
      by_contra hne
      exact hk (hcomplete k hne)
    rw [replay_of_not_touches hk, hnone]
    rfl

/-- A snapshot taken once the changes `ahead` have reached the view repairs the
key: no change of it is `behind`, and the view does not keep what the store no
longer has. -/
def Repairable {κ ν : Type*} [DecidableEq κ] (view : κ → Option ν)
    (ahead behind : List (Change κ ν)) (store : κ → Option ν) (k : κ) : Prop :=
  ¬Touches behind k ∧ (replay view ahead k = none ∨ store k ≠ none)

namespace Repairable

theorem of_store_eq {κ ν : Type*} [DecidableEq κ] {view store store' : κ → Option ν}
    {ahead behind : List (Change κ ν)} {k : κ} (h : Repairable view ahead behind store k)
    (hs : store' k = store k) : Repairable view ahead behind store' k := by
  unfold Repairable at h ⊢
  rwa [hs]

/-- A change of another key that comes behind the snapshot. -/
theorem append {κ ν : Type*} [DecidableEq κ] {view store : κ → Option ν}
    {ahead behind : List (Change κ ν)} {k : κ} (h : Repairable view ahead behind store k)
    {rest : List (Change κ ν)} (hrest : ¬Touches rest k) :
    Repairable view ahead (behind ++ rest) store k := by
  refine ⟨?_, h.2⟩
  rw [touches_append, not_or]
  exact ⟨h.1, hrest⟩

/-- The first change behind the snapshot may as well come ahead of it. -/
theorem advance {κ ν : Type*} [DecidableEq κ] {view store : κ → Option ν}
    {ahead first behind : List (Change κ ν)} {k : κ}
    (h : Repairable view ahead (first ++ behind) store k) :
    Repairable view (ahead ++ first) behind store k := by
  obtain ⟨hnot, hvalue⟩ := h
  rw [touches_append, not_or] at hnot
  refine ⟨hnot.2, ?_⟩
  rwa [replay_append, replay_of_not_touches hnot.1]

/-- The first changes ahead of the snapshot reach the view. -/
theorem deliver {κ ν : Type*} [DecidableEq κ] {view store : κ → Option ν}
    {first ahead behind : List (Change κ ν)} {k : κ}
    (h : Repairable view (first ++ ahead) behind store k) :
    Repairable (replay view first) ahead behind store k := by
  unfold Repairable at h ⊢
  rwa [replay_append] at h

end Repairable

/-- The snapshot repairs what it can and keeps what follows the store. -/
theorem Follows.overlay {κ ν : Type*} [DecidableEq κ] {view store : κ → Option ν}
    {pending : List (Change κ ν)} {k : κ}
    (h : Follows view pending store k ∨ Repairable view [] pending store k) :
    Follows (overlay view store) pending store k := by
  unfold Follows ChangeLog.overlay
  by_cases ht : Touches pending k
  · have hf : Follows view pending store k := h.resolve_right (fun hr => hr.1 ht)
    rw [replay_of_touches ht _ view]
    exact hf
  · rw [replay_of_not_touches ht]
    cases hs : store k with
    | some v => rfl
    | none =>
      have hview : view k = none := by
        obtain hf | ⟨-, hnone | hsome⟩ := h
        · unfold Follows at hf
          rw [replay_of_not_touches ht] at hf
          rw [hf, hs]
        · exact hnone
        · exact absurd hs hsome
      rw [hview]
      rfl

end Neolaas.ChangeLog
