import Mathlib

/-!
# The last maximum of a list by key

A scan keeps the later of two elements unless its key is strictly smaller, so
ties go to the end of the list. On a list sorted by a second key the scan
therefore maximizes the pair of both keys, and when the second key separates
the elements the winner depends on the set of elements alone.
-/
namespace Neolaas.LastMaximum

/-- One comparison of the scan. The later element wins a tie. -/
def later {α κ : Type*} [LinearOrder κ] (f : α → κ) (x y : α) : α :=
  if f y < f x then x else y

/-- The last of the elements whose key is greatest. -/
def maxByKey {α κ : Type*} [LinearOrder κ] (f : α → κ) : List α → Option α
  | [] => none
  | a :: l => some (l.foldl (later f) a)

@[simp] theorem maxByKey_nil {α κ : Type*} [LinearOrder κ] (f : α → κ) :
    maxByKey f [] = none := rfl

@[simp] theorem maxByKey_eq_none {α κ : Type*} [LinearOrder κ] (f : α → κ) (l : List α) :
    maxByKey f l = none ↔ l = [] := by
  cases l <;> simp [maxByKey]

/-- What precedes the chosen element has no greater key, what follows it has a
strictly smaller one. -/
theorem foldl_later_split {α κ : Type*} [LinearOrder κ] (f : α → κ) (a m : α) (l : List α)
    (h : l.foldl (later f) a = m) :
    ∃ front back, a :: l = front ++ m :: back ∧
      (∀ x ∈ front, f x ≤ f m) ∧ ∀ x ∈ back, f x < f m := by
  induction l generalizing a with
  | nil => exact ⟨[], [], by simpa using h, by simp, by simp⟩
  | cons b l ih =>
    rw [List.foldl_cons] at h
    by_cases hb : f b < f a
    · rw [show later f a b = a from if_pos hb] at h
      obtain ⟨front, back, heq, hfront, hback⟩ := ih a h
      cases front with
      | nil =>
        obtain ⟨rfl, rfl⟩ := List.cons.inj heq
        refine ⟨[], b :: l, rfl, by simp, ?_⟩
        intro x hx
        rcases List.mem_cons.mp hx with rfl | hx
        · exact hb
        · exact hback x hx
      | cons c front =>
        obtain ⟨rfl, hl⟩ := List.cons.inj heq
        refine ⟨a :: b :: front, back, by simp [hl], ?_, hback⟩
        have ha := hfront a List.mem_cons_self
        intro x hx
        rcases List.mem_cons.mp hx with rfl | hx
        · exact ha
        · rcases List.mem_cons.mp hx with rfl | hx
          · exact hb.le.trans ha
          · exact hfront x (List.mem_cons_of_mem a hx)
    · rw [show later f a b = b from if_neg hb] at h
      obtain ⟨front, back, heq, hfront, hback⟩ := ih b h
      have hbm : f b ≤ f m := by
        have hmem : b ∈ front ++ m :: back := by rw [← heq]; exact List.mem_cons_self
        rcases List.mem_append.mp hmem with hf | hf
        · exact hfront b hf
        · rcases List.mem_cons.mp hf with rfl | hf
          · exact le_rfl
          · exact (hback b hf).le
      refine ⟨a :: front, back, by rw [heq]; rfl, ?_, hback⟩
      intro x hx
      rcases List.mem_cons.mp hx with rfl | hx
      · exact (not_lt.mp hb).trans hbm
      · exact hfront x hx

/-- An element of a set whose rank no element of the set exceeds. -/
structure Wins {α κ : Type*} [LinearOrder κ] (rank : α → κ) (s : Set α) (m : α) : Prop where
  mem : m ∈ s
  max : IsMaxOn rank s m

namespace Wins

theorem unique {α κ : Type*} [LinearOrder κ] {rank : α → κ} (hinj : Function.Injective rank)
    {s : Set α} {m m' : α} (h : Wins rank s m) (h' : Wins rank s m') : m = m' :=
  hinj (le_antisymm (h'.max h.mem) (h.max h'.mem))

/-- Removing elements other than the winner keeps the winner. -/
theorem subset {α κ : Type*} [LinearOrder κ] {rank : α → κ} {s t : Set α} {m : α}
    (h : Wins rank s m) (hts : t ⊆ s) (hm : m ∈ t) : Wins rank t m :=
  ⟨hm, h.max.on_subset hts⟩

/-- A newcomer wins or leaves the winner in place. -/
theorem of_insert {α κ : Type*} [LinearOrder κ] {rank : α → κ}
    (hinj : Function.Injective rank) {s : Set α} {p m m' : α}
    (h : Wins rank s m) (h' : Wins rank (insert p s) m') : m' = p ∨ m' = m := by
  rcases h'.mem with hp | hs
  · exact Or.inl hp
  · exact Or.inr ((h'.subset (Set.subset_insert p s) hs).unique hinj h)

end Wins

/-- On a list sorted by `t` the scan by `f` finds the maximum of the pair. -/
theorem maxByKey_wins {α κ τ : Type*} [LinearOrder κ] [LinearOrder τ] (f : α → κ) (t : α → τ)
    {l : List α} (hsorted : l.Pairwise (fun x y => t x ≤ t y)) {m : α}
    (h : maxByKey f l = some m) : Wins (fun x => toLex (f x, t x)) {x | x ∈ l} m := by
  cases l with
  | nil => simp at h
  | cons a l =>
    obtain ⟨front, back, heq, hfront, hback⟩ :=
      foldl_later_split f a m l (Option.some.inj h)
    rw [heq] at hsorted ⊢
    refine ⟨by simp, ?_⟩
    intro x hx
    rw [Set.mem_ofPred_eq, Prod.Lex.toLex_le_toLex]
    rcases List.mem_append.mp hx with hx | hx
    · have htx : t x ≤ t m :=
        (List.pairwise_append.mp hsorted).2.2 x hx m List.mem_cons_self
      rcases (hfront x hx).lt_or_eq with hlt | he
      · exact Or.inl hlt
      · exact Or.inr ⟨he, htx⟩
    · rcases List.mem_cons.mp hx with rfl | hx
      · exact Or.inr ⟨rfl, le_rfl⟩
      · exact Or.inl (hback x hx)

end Neolaas.LastMaximum
