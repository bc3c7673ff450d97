import Neolaas.LastMaximum
import Neolaas.PeerId

/-!
# Rendezvous hashing

The owner of a key is the node of the highest score, and the last of several
such nodes in the base58 order that `new` and `rebuild` establish. `Score`
stands for `RendezvousHasher::score`, a hash of the key and the node's base58
text by std's `DefaultHasher`, whose function std leaves open. Every result
holds for each such function, ties included.
-/
namespace Neolaas
open LastMaximum PeerId

/-- The score of a key on a node. Higher score wins ownership. -/
abbrev Score (P : Type) : Type := String → P → UInt64

/-- Rendezvous consistent hasher. -/
structure RendezvousHasher (P : Type) where
  nodes : List P
  deriving DecidableEq

namespace RendezvousHasher

/-- `nodes.sort_by(|a, b| a.to_base58().cmp(&b.to_base58()))`, a stable sort. -/
def sortNodes {P : Type} [PeerId P] (nodes : List P) : List P :=
  nodes.insertionSort (fun a b => toBase58 a ≤ toBase58 b)

/-- Create a new hasher with the given nodes. -/
def new {P : Type} [PeerId P] (nodes : List P) : RendezvousHasher P := ⟨sortNodes nodes⟩

/-- The node with the highest score, `none` without nodes. -/
def lookup {P : Type} (score : Score P) (self : RendezvousHasher P) (key : String) : Option P :=
  if self.nodes.isEmpty then none
  else maxByKey (fun node => (score key node).toNat) self.nodes

/-- Check if a key is owned by the local node. -/
def isLocal {P : Type} [DecidableEq P] [PeerId P] (score : Score P) (self : RendezvousHasher P)
    (key : String) (localPeer : P) : Bool :=
  decide (self.lookup score key = some localPeer)

/-- Rebuild with a new set of nodes. -/
def rebuild {P : Type} [PeerId P] (_self : RendezvousHasher P) (nodes : List P) :
    RendezvousHasher P := ⟨sortNodes nodes⟩

def nodeCount {P : Type} (self : RendezvousHasher P) : ℕ := self.nodes.length

@[simp] theorem rebuild_eq_new {P : Type} [PeerId P] (h : RendezvousHasher P) (nodes : List P) :
    h.rebuild nodes = new nodes := rfl

theorem sortNodes_perm {P : Type} [PeerId P] (nodes : List P) : (sortNodes nodes).Perm nodes :=
  List.perm_insertionSort _ nodes

@[simp] theorem mem_sortNodes {P : Type} [PeerId P] (nodes : List P) (p : P) :
    p ∈ sortNodes nodes ↔ p ∈ nodes := (sortNodes_perm nodes).mem_iff

theorem sortNodes_sorted {P : Type} [PeerId P] (nodes : List P) :
    (sortNodes nodes).Pairwise (fun a b => toBase58 a ≤ toBase58 b) := by
  have : Std.Total (fun a b : P => toBase58 a ≤ toBase58 b) := ⟨fun a b => le_total _ _⟩
  have : IsTrans P (fun a b => toBase58 a ≤ toBase58 b) := ⟨fun a b c => le_trans⟩
  exact List.pairwise_insertionSort _ nodes

@[simp] theorem sortNodes_eq_nil {P : Type} [PeerId P] (nodes : List P) :
    sortNodes nodes = [] ↔ nodes = [] := by
  rw [← List.length_eq_zero_iff, ← List.length_eq_zero_iff, (sortNodes_perm nodes).length_eq]

@[simp] theorem nodeCount_new {P : Type} [PeerId P] (nodes : List P) :
    (new nodes).nodeCount = nodes.length := (sortNodes_perm nodes).length_eq

theorem lookup_eq_maxByKey {P : Type} (score : Score P) (h : RendezvousHasher P) (key : String) :
    h.lookup score key = maxByKey (fun node => (score key node).toNat) h.nodes := by
  unfold lookup
  split_ifs with he
  · rw [List.isEmpty_iff.mp he, maxByKey_nil]
  · rfl

theorem lookup_new_eq_none {P : Type} [PeerId P] (score : Score P) (nodes : List P)
    (key : String) : (new nodes).lookup score key = none ↔ nodes = [] := by
  rw [lookup_eq_maxByKey, maxByKey_eq_none]
  exact sortNodes_eq_nil nodes

/-- What a lookup maximizes: the score first, the base58 text among equal scores. -/
def rank {P : Type} [PeerId P] (score : Score P) (key : String) (p : P) : ℕ ×ₗ String :=
  toLex ((score key p).toNat, toBase58 p)

theorem rank_injective {P : Type} [PeerId P]
    (hinj : Function.Injective (toBase58 : P → String)) (score : Score P) (key : String) :
    Function.Injective (rank score key) := by
  intro p q h
  exact hinj (congrArg Prod.snd (toLex.injective h))

/-- The looked-up owner is the winner among the listed nodes, whatever their
order and multiplicity. -/
theorem lookup_new_wins {P : Type} [PeerId P] (score : Score P) (nodes : List P)
    (key : String) {p : P} (h : (new nodes).lookup score key = some p) :
    Wins (rank score key) {q | q ∈ nodes} p := by
  rw [lookup_eq_maxByKey] at h
  have hw := maxByKey_wins _ toBase58 (sortNodes_sorted nodes) h
  have hset : {q | q ∈ sortNodes nodes} = {q | q ∈ nodes} := Set.ext (mem_sortNodes nodes)
  rwa [hset] at hw

theorem lookup_new_iff {P : Type} [PeerId P]
    (hinj : Function.Injective (toBase58 : P → String)) (score : Score P) (nodes : List P)
    (key : String) (p : P) :
    (new nodes).lookup score key = some p ↔ Wins (rank score key) {q | q ∈ nodes} p := by
  refine ⟨lookup_new_wins score nodes key, fun hp => ?_⟩
  cases he : (new nodes).lookup score key with
  | none =>
    rw [lookup_new_eq_none] at he
    have hm := hp.mem
    rw [he] at hm
    exact absurd hm List.not_mem_nil
  | some q =>
    rw [(lookup_new_wins score nodes key he).unique (rank_injective hinj score key) hp]

/-- Lookups depend on the set of listed nodes only. -/
theorem lookup_new_congr {P : Type} [PeerId P]
    (hinj : Function.Injective (toBase58 : P → String)) (score : Score P) {xs ys : List P}
    (hset : ∀ p, p ∈ xs ↔ p ∈ ys) (key : String) :
    (new xs).lookup score key = (new ys).lookup score key := by
  have hs : {q | q ∈ xs} = {q | q ∈ ys} := Set.ext hset
  ext p
  rw [lookup_new_iff hinj, lookup_new_iff hinj, hs]

theorem exists_lookup_new {P : Type} [PeerId P] (score : Score P) {nodes : List P}
    (hne : nodes ≠ []) (key : String) : ∃ p ∈ nodes, (new nodes).lookup score key = some p := by
  cases he : (new nodes).lookup score key with
  | none => exact absurd ((lookup_new_eq_none score nodes key).mp he) hne
  | some p => exact ⟨p, (lookup_new_wins score nodes key he).mem, rfl⟩

/-- A hasher made from the listing `nodes`, by `new` or by `rebuild` of any hasher. -/
def BuiltFrom {P : Type} [PeerId P] (h : RendezvousHasher P) (nodes : List P) : Prop :=
  h = new nodes ∨ ∃ earlier : RendezvousHasher P, h = earlier.rebuild nodes

theorem BuiltFrom.eq_new {P : Type} [PeerId P] {h : RendezvousHasher P} {nodes : List P}
    (hb : h.BuiltFrom nodes) : h = new nodes := by
  rcases hb with rfl | ⟨earlier, rfl⟩
  · rfl
  · exact rebuild_eq_new earlier nodes

/-- Two listings of one peer set give the same owner to every key, and exactly
one listed peer considers the key its own. -/
theorem ownership_agreement {P : Type} [DecidableEq P] [PeerId P]
    (hinj : Function.Injective (toBase58 : P → String)) (score : Score P) (xs ys : List P)
    (hset : ∀ p, p ∈ xs ↔ p ∈ ys) (earlier : RendezvousHasher P) (key : String) :
    (new xs).lookup score key = (new ys).lookup score key ∧
    (new xs).lookup score key = (earlier.rebuild ys).lookup score key ∧
    (xs ≠ [] → ∃! p, p ∈ xs ∧ (new xs).isLocal score key p = true) ∧
    (∀ p q, (new xs).isLocal score key p = true →
      (earlier.rebuild ys).isLocal score key q = true → p = q) := by
  have heq := lookup_new_congr hinj score hset key
  refine ⟨heq, heq, ?_, ?_⟩
  · intro hne
    obtain ⟨p, hp, hlookup⟩ := exists_lookup_new score hne key
    refine ⟨p, ⟨hp, decide_eq_true hlookup⟩, ?_⟩
    rintro q ⟨-, hq⟩
    exact Option.some.inj ((of_decide_eq_true hq).symm.trans hlookup)
  · intro p q hp hq
    have hq' : (new ys).lookup score key = some q := of_decide_eq_true hq
    exact Option.some.inj ((of_decide_eq_true hp).symm.trans (heq.trans hq'))

/-- Three listed peers of one constant score, listed twice and in another order. -/
theorem ownership_agreement_tied :
    let a := peerOf "12D3KooWA"
    let b := peerOf "12D3KooWB"
    let score : Score Base58Text := fun _ _ => 7
    (new [b, a, b]).lookup score "m" = (new [a, b]).lookup score "m" ∧
    ∃! p, p ∈ [b, a, b] ∧ (new [b, a, b]).isLocal score "m" p = true := by
  have h := ownership_agreement (P := Base58Text) toBase58_injective (fun _ _ => 7)
    [peerOf "12D3KooWB", peerOf "12D3KooWA", peerOf "12D3KooWB"]
    [peerOf "12D3KooWA", peerOf "12D3KooWB"] (by simp) (new []) "m"
  exact ⟨h.1, h.2.2.1 (by simp)⟩

/-- A hasher built from some listing of the peer set `A`. -/
def BuiltOver {P : Type} [DecidableEq P] [PeerId P] (h : RendezvousHasher P) (A : Finset P) :
    Prop :=
  ∃ nodes : List P, nodes.toFinset = A ∧ h.BuiltFrom nodes

theorem BuiltOver.lookup_iff {P : Type} [DecidableEq P] [PeerId P]
    (hinj : Function.Injective (toBase58 : P → String)) (score : Score P)
    {h : RendezvousHasher P} {A : Finset P} (hb : h.BuiltOver A) (key : String) (p : P) :
    h.lookup score key = some p ↔ Wins (rank score key) (A : Set P) p := by
  obtain ⟨nodes, rfl, hn⟩ := hb
  rw [hn.eq_new, lookup_new_iff hinj]
  simp

theorem BuiltOver.exists_lookup {P : Type} [DecidableEq P] [PeerId P] (score : Score P)
    {h : RendezvousHasher P} {A : Finset P} (hb : h.BuiltOver A) (hA : A.Nonempty)
    (key : String) : ∃ p ∈ A, h.lookup score key = some p := by
  obtain ⟨nodes, rfl, hn⟩ := hb
  have hne : nodes ≠ [] := by
    rintro rfl
    simp at hA
  obtain ⟨p, hp, hl⟩ := exists_lookup_new score hne key
  exact ⟨p, List.mem_toFinset.mpr hp, by rw [hn.eq_new, hl]⟩

/-- Only keys of added or removed peers move: the owner is a member, survives the
removal of any other peers, and gives way to a newcomer only. -/
theorem minimal_disruption {P : Type} [DecidableEq P] [PeerId P]
    (hinj : Function.Injective (toBase58 : P → String)) (score : Score P) (key : String)
    (A : Finset P) (hA : A.Nonempty) (h : RendezvousHasher P) (hb : h.BuiltOver A) :
    ∃ owner ∈ A, h.lookup score key = some owner ∧
      (∀ B ⊆ A, owner ∈ B → ∀ h', BuiltOver h' B → h'.lookup score key = some owner) ∧
      (∀ p h', BuiltOver h' (insert p A) →
        h'.lookup score key = some p ∨ h'.lookup score key = some owner) := by
  obtain ⟨owner, hmem, hlookup⟩ := hb.exists_lookup score hA key
  have hwins := (hb.lookup_iff hinj score key owner).mp hlookup
  refine ⟨owner, hmem, hlookup, ?_, ?_⟩
  · intro B hBA hB h' hb'
    exact (hb'.lookup_iff hinj score key owner).mpr
      (hwins.subset (Finset.coe_subset.mpr hBA) hB)
  · intro p h' hb'
    obtain ⟨q, -, hq⟩ := hb'.exists_lookup score (Finset.insert_nonempty p A) key
    have hw := (hb'.lookup_iff hinj score key q).mp hq
    rw [Finset.coe_insert] at hw
    rcases hwins.of_insert (rank_injective hinj score key) hw with rfl | rfl
    · exact Or.inl hq
    · exact Or.inr hq

/-- With tied scores the owner of three peers survives the loss of another one. -/
theorem minimal_disruption_tied :
    let a := peerOf "12D3KooWA"
    let b := peerOf "12D3KooWB"
    let c := peerOf "12D3KooWC"
    let score : Score Base58Text := fun _ _ => 7
    ∃ owner ∈ ({a, b, c} : Finset Base58Text), (new [c, a, b]).lookup score "m" = some owner ∧
      ∀ B ⊆ ({a, b, c} : Finset Base58Text), owner ∈ B →
        ∀ h', BuiltOver h' B → h'.lookup score "m" = some owner := by
  intro a b c score
  obtain ⟨owner, hmem, hlookup, hremove, -⟩ :=
    minimal_disruption (P := Base58Text) toBase58_injective score "m" {a, b, c} (by simp)
      (new [c, a, b]) ⟨[c, a, b], by decide, Or.inl rfl⟩
  exact ⟨owner, hmem, hlookup, hremove⟩

end RendezvousHasher
end Neolaas
