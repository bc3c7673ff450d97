import Mathlib

/-!
# Programs of atomic operations under interference

A program performs operations on a shared state one at a time. Between two of
them the environment changes the state within a rely relation, and each of the
program's own operations stays within its guarantee. `Safe` says so of every
execution from a state, together with what holds at the end.
-/
namespace Neolaas.AtomicProgram

/-- A program over operations, each with its type of results. -/
inductive Prog (Op : Type) (Ret : Op → Type) (α : Type) where
  | done (a : α)
  | step (op : Op) (next : Ret op → Prog Op Ret α)

namespace Prog

def bind {Op : Type} {Ret : Op → Type} {α β : Type} :
    Prog Op Ret α → (α → Prog Op Ret β) → Prog Op Ret β
  | done a, f => f a
  | step op next, f => step op (fun r => (next r).bind f)

instance {Op : Type} {Ret : Op → Type} : Monad (Prog Op Ret) where
  pure := done
  bind := bind

/-- The program alone, to its end. `none` when an operation ends it. -/
def run {Op : Type} {Ret : Op → Type} {σ α : Type}
    (exec : (op : Op) → σ → Option (Ret op × σ)) : Prog Op Ret α → σ → Option (α × σ)
  | done a, s => some (a, s)
  | step op next, s =>
    match exec op s with
    | some (r, t) => (next r).run exec t
    | none => none

/-- The program of one operation. -/
def perform {Op : Type} {Ret : Op → Type} (op : Op) : Prog Op Ret (Ret op) := step op done

theorem run_pure {Op : Type} {Ret : Op → Type} {σ α : Type}
    (exec : (op : Op) → σ → Option (Ret op × σ)) (a : α) (s : σ) :
    (pure a : Prog Op Ret α).run exec s = some (a, s) := rfl

/-- One program after another, each alone. -/
theorem run_bind {Op : Type} {Ret : Op → Type} {σ α β : Type}
    (exec : (op : Op) → σ → Option (Ret op × σ)) (p : Prog Op Ret α) (f : α → Prog Op Ret β)
    (s : σ) : (p >>= f).run exec s = (p.run exec s).bind (fun r => (f r.1).run exec r.2) := by
  induction p generalizing s with
  | done a => rfl
  | step op next ih =>
    show (step op (fun r => (next r).bind f)).run exec s = _
    simp only [run]
    cases exec op s with
    | none => rfl
    | some result => exact ih result.1 result.2

theorem run_perform {Op : Type} {Ret : Op → Type} {σ : Type}
    (exec : (op : Op) → σ → Option (Ret op × σ)) (op : Op) (s : σ) :
    (perform op : Prog Op Ret (Ret op)).run exec s = exec op s := by
  simp only [perform, run]
  cases exec op s <;> rfl

end Prog

/-- The state that a program runs on: the effect of each operation, `none` for an
operation that ends the program, and the bounds of interference and program. -/
structure Setting (Op : Type) (Ret : Op → Type) (σ : Type) where
  exec : (op : Op) → σ → Option (Ret op × σ)
  rely : σ → σ → Prop
  guar : Op → σ → σ → Prop
  rely_refl : ∀ s, rely s s
  rely_trans : ∀ s t u, rely s t → rely t u → rely s u

/-- Every operation stays within the guarantee, whatever the environment does
within the rely relation, and the end state has the postcondition. -/
def Safe {Op : Type} {Ret : Op → Type} {σ α : Type} (E : Setting Op Ret σ)
    (Q : α → σ → Prop) : Prog Op Ret α → σ → Prop
  | .done a, s => ∀ s', E.rely s s' → Q a s'
  | .step op next, s => ∀ s', E.rely s s' → ∀ r t, E.exec op s' = some (r, t) →
      E.guar op s' t ∧ Safe E Q (next r) t

namespace Safe

/-- Interference keeps a program safe. -/
theorem interfere {Op : Type} {Ret : Op → Type} {σ α : Type} {E : Setting Op Ret σ}
    {Q : α → σ → Prop} {p : Prog Op Ret α} {s t : σ} (h : Safe E Q p s) (hr : E.rely s t) :
    Safe E Q p t := by
  cases p with
  | done a => exact fun s' hs' => h s' (E.rely_trans _ _ _ hr hs')
  | step op next => exact fun s' hs' => h s' (E.rely_trans _ _ _ hr hs')

/-- The next operation stays within the guarantee and leaves a safe program. -/
theorem advance {Op : Type} {Ret : Op → Type} {σ α : Type} {E : Setting Op Ret σ}
    {Q : α → σ → Prop} {op : Op} {next : Ret op → Prog Op Ret α} {s t : σ} {r : Ret op}
    (h : Safe E Q (.step op next) s) (he : E.exec op s = some (r, t)) :
    E.guar op s t ∧ Safe E Q (next r) t := h s (E.rely_refl s) r t he

/-- A finished program has its postcondition. -/
theorem finish {Op : Type} {Ret : Op → Type} {σ α : Type} {E : Setting Op Ret σ}
    {Q : α → σ → Prop} {a : α} {s : σ} (h : Safe E Q (.done a) s) : Q a s :=
  h s (E.rely_refl s)

/-- A weaker postcondition. -/
theorem mono {Op : Type} {Ret : Op → Type} {σ α : Type} {E : Setting Op Ret σ}
    {Q Q' : α → σ → Prop} (hQ : ∀ a s, Q a s → Q' a s) {p : Prog Op Ret α} {s : σ}
    (h : Safe E Q p s) : Safe E Q' p s := by
  induction p generalizing s with
  | done a => exact fun s' hs' => hQ a s' (h s' hs')
  | step op next ih =>
    intro s' hs' r t he
    obtain ⟨hg, hnext⟩ := h s' hs' r t he
    exact ⟨hg, ih r hnext⟩

theorem pure {Op : Type} {Ret : Op → Type} {σ α : Type} {E : Setting Op Ret σ}
    {Q : α → σ → Prop} {a : α} {s : σ} (h : ∀ s', E.rely s s' → Q a s') :
    Safe E Q (Pure.pure a) s := h

/-- One program after another. -/
theorem bind {Op : Type} {Ret : Op → Type} {σ α β : Type} {E : Setting Op Ret σ}
    {Q : β → σ → Prop} {p : Prog Op Ret α} {f : α → Prog Op Ret β} {s : σ}
    (h : Safe E (fun a t => Safe E Q (f a) t) p s) : Safe E Q (p >>= f) s := by
  induction p generalizing s with
  | done a => exact h s (E.rely_refl s)
  | step op next ih =>
    intro s' hs' r t he
    obtain ⟨hg, hnext⟩ := h s' hs' r t he
    exact ⟨hg, ih r hnext⟩

/-- An operation before the rest of a program. -/
theorem perform_bind {Op : Type} {Ret : Op → Type} {σ β : Type} {E : Setting Op Ret σ}
    {Q : β → σ → Prop} {op : Op} {f : Ret op → Prog Op Ret β} {s : σ}
    (h : ∀ s', E.rely s s' → ∀ r t, E.exec op s' = some (r, t) →
      E.guar op s' t ∧ Safe E Q (f r) t) : Safe E Q (Prog.perform op >>= f) s := h

/-- A loop over a list keeps an invariant of the elements that remain, the
accumulator and the state. -/
theorem foldlM {Op : Type} {Ret : Op → Type} {σ β γ : Type} {E : Setting Op Ret σ}
    (I : List β → γ → σ → Prop)
    (hstable : ∀ bs acc s s', I bs acc s → E.rely s s' → I bs acc s')
    {f : γ → β → Prog Op Ret γ}
    (hbody : ∀ b bs acc s, I (b :: bs) acc s → Safe E (fun acc' t => I bs acc' t) (f acc b) s)
    {bs : List β} {acc : γ} {s : σ} (h : I bs acc s) :
    Safe E (fun acc' t => I [] acc' t) (bs.foldlM f acc) s := by
  induction bs generalizing acc s with
  | nil => exact fun s' hs' => hstable [] acc s s' h hs'
  | cons b bs ih =>
    rw [List.foldlM_cons]
    apply bind
    exact (hbody b bs acc s h).mono (fun acc' t ht => ih ht)

end Safe
/-- No operation that is allowed ends the program, whatever the environment does
within the rely relation, and the end state has the postcondition. -/
def Unstuck {Op : Type} {Ret : Op → Type} {σ α : Type} (E : Setting Op Ret σ)
    (allowed : Op → σ → Prop) (Q : α → σ → Prop) : Prog Op Ret α → σ → Prop
  | .done a, s => ∀ s', E.rely s s' → Q a s'
  | .step op next, s => ∀ s', E.rely s s' → allowed op s' →
      ∃ r t, E.exec op s' = some (r, t) ∧ Unstuck E allowed Q (next r) t

namespace Unstuck

theorem interfere {Op : Type} {Ret : Op → Type} {σ α : Type} {E : Setting Op Ret σ}
    {allowed : Op → σ → Prop} {Q : α → σ → Prop} {p : Prog Op Ret α} {s t : σ}
    (h : Unstuck E allowed Q p s) (hr : E.rely s t) : Unstuck E allowed Q p t := by
  cases p with
  | done a => exact fun s' hs' => h s' (E.rely_trans _ _ _ hr hs')
  | step op next => exact fun s' hs' => h s' (E.rely_trans _ _ _ hr hs')

/-- An allowed next operation does not end the program. -/
theorem advance {Op : Type} {Ret : Op → Type} {σ α : Type} {E : Setting Op Ret σ}
    {allowed : Op → σ → Prop} {Q : α → σ → Prop} {op : Op} {next : Ret op → Prog Op Ret α}
    {s : σ} (h : Unstuck E allowed Q (.step op next) s) (hop : allowed op s) :
    ∃ r t, E.exec op s = some (r, t) ∧ Unstuck E allowed Q (next r) t :=
  h s (E.rely_refl s) hop

theorem mono {Op : Type} {Ret : Op → Type} {σ α : Type} {E : Setting Op Ret σ}
    {allowed : Op → σ → Prop} {Q Q' : α → σ → Prop} (hQ : ∀ a s, Q a s → Q' a s)
    {p : Prog Op Ret α} {s : σ} (h : Unstuck E allowed Q p s) : Unstuck E allowed Q' p s := by
  induction p generalizing s with
  | done a => exact fun s' hs' => hQ a s' (h s' hs')
  | step op next ih =>
    intro s' hs' hop
    obtain ⟨r, t, he, hnext⟩ := h s' hs' hop
    exact ⟨r, t, he, ih r hnext⟩

theorem pure {Op : Type} {Ret : Op → Type} {σ α : Type} {E : Setting Op Ret σ}
    {allowed : Op → σ → Prop} {Q : α → σ → Prop} {a : α} {s : σ}
    (h : ∀ s', E.rely s s' → Q a s') : Unstuck E allowed Q (Pure.pure a) s := h

theorem bind {Op : Type} {Ret : Op → Type} {σ α β : Type} {E : Setting Op Ret σ}
    {allowed : Op → σ → Prop} {Q : β → σ → Prop} {p : Prog Op Ret α} {f : α → Prog Op Ret β}
    {s : σ} (h : Unstuck E allowed (fun a t => Unstuck E allowed Q (f a) t) p s) :
    Unstuck E allowed Q (p >>= f) s := by
  induction p generalizing s with
  | done a => exact h s (E.rely_refl s)
  | step op next ih =>
    intro s' hs' hop
    obtain ⟨r, t, he, hnext⟩ := h s' hs' hop
    exact ⟨r, t, he, ih r hnext⟩

/-- An operation before the rest of a program. -/
theorem perform_bind {Op : Type} {Ret : Op → Type} {σ β : Type} {E : Setting Op Ret σ}
    {allowed : Op → σ → Prop} {Q : β → σ → Prop} {op : Op} {f : Ret op → Prog Op Ret β} {s : σ}
    (h : ∀ s', E.rely s s' → allowed op s' →
      ∃ r t, E.exec op s' = some (r, t) ∧ Unstuck E allowed Q (f r) t) :
    Unstuck E allowed Q (Prog.perform op >>= f) s := h

/-- A loop over a list keeps an invariant, as in `Safe.foldlM`. -/
theorem foldlM {Op : Type} {Ret : Op → Type} {σ β γ : Type} {E : Setting Op Ret σ}
    {allowed : Op → σ → Prop} (I : List β → γ → σ → Prop)
    (hstable : ∀ bs acc s s', I bs acc s → E.rely s s' → I bs acc s')
    {f : γ → β → Prog Op Ret γ}
    (hbody : ∀ b bs acc s, I (b :: bs) acc s →
      Unstuck E allowed (fun acc' t => I bs acc' t) (f acc b) s)
    {bs : List β} {acc : γ} {s : σ} (h : I bs acc s) :
    Unstuck E allowed (fun acc' t => I [] acc' t) (bs.foldlM f acc) s := by
  induction bs generalizing acc s with
  | nil => exact fun s' hs' => hstable [] acc s s' h hs'
  | cons b bs ih =>
    rw [List.foldlM_cons]
    apply bind
    exact (hbody b bs acc s h).mono (fun acc' t ht => ih ht)

end Unstuck
end Neolaas.AtomicProgram
