import Neolaas.DiscoveryBatches

/-!
# A history of registrations, read and followed

A node learns the registrations from a snapshot of the store and the events that come
after it. Where the two take a record differently, what the node knows depends on when
it has joined.
-/
namespace Neolaas
open ChangeLog PeerId

namespace Etcd

/-- A change of a name under a start. -/
def under (start : String) (c : Change String String) : Change String String :=
  ⟨start ++ c.key, c.value⟩

/-- The store after a history. -/
def stored (etcd : Etcd) (log : List (Change String String)) : Etcd := log.foldl apply etcd

/-- The changes of a history that a watch delivers. The deletion of a key that the store
does not have is no event. -/
def delivered (etcd : Etcd) : List (Change String String) → List (Change String String)
  | [] => []
  | c :: log =>
    if c.value = none ∧ etcd[c.key]? = none then delivered (etcd.apply c) log
    else c :: delivered (etcd.apply c) log

/-- What the store has in the end has been there or has been delivered. -/
theorem stored_cases {etcd : Etcd} {log : List (Change String String)} {key value : String}
    (h : (stored etcd log)[key]? = some value) :
    etcd[key]? = some value ∨ ⟨key, some value⟩ ∈ delivered etcd log := by
  induction log generalizing etcd with
  | nil => exact Or.inl h
  | cons c log ih =>
    have hlater : ⟨key, some value⟩ ∈ delivered (etcd.apply c) log →
        ⟨key, some value⟩ ∈ delivered etcd (c :: log) := by
      intro hmem
      unfold delivered
      split_ifs
      · exact hmem
      · exact List.mem_cons_of_mem c hmem
    obtain hget | hmem := ih h
    · rw [getElem?_apply] at hget
      by_cases hkey : key = c.key
      · obtain rfl := hkey
        rw [Change.apply_key] at hget
        refine Or.inr ?_
        have hc : c = ⟨c.key, some value⟩ := by rw [← hget]
        unfold delivered
        rw [if_neg (by simp [hget]), ← hc]
        exact List.mem_cons_self
      · rw [Change.apply_of_ne _ c hkey] at hget
        exact Or.inl hget
    · exact Or.inr (hlater hmem)

end Etcd

namespace Outcome

theorem forEach_append {σ β : Type} (step : β → σ → Outcome σ) (bs bs' : List β) (s : σ) :
    forEach step (bs ++ bs') s =
      match forEach step bs s with
      | .ok s => forEach step bs' s
      | failed => failed := by
  induction bs generalizing s with
  | nil => rfl
  | cons b bs ih =>
    simp only [List.cons_append, forEach]
    cases step b s with
    | ok t => exact ih t
    | error t => rfl
    | panicked => rfl

end Outcome

namespace DiscoveryPhases

/-- Converge on a snapshot and process the responses of the watch that follows it. -/
def follow {P A : Type} [SerdeJson] [DecidableEq P] [PeerId P] [Multiaddr A]
    (iter : Finset P → List P) (batches : List (List (Change String String)))
    (kvs : List KeyValue) (self : DiscoveryPhases P A) : Outcome (DiscoveryPhases P A) :=
  match converge iter kvs self with
  | .ok self => Outcome.forEach
      (fun batch => processWatchEvent iter (some ⟨false, batch.map Etcd.event⟩)) batches self
  | failed => failed

/-- How the responses cut the events does not matter. -/
theorem forEach_processWatchEvent {P A : Type} [SerdeJson] [DecidableEq P] [PeerId P]
    [Multiaddr A] (iter : Finset P → List P) (batches : List (List (Change String String)))
    (self : DiscoveryPhases P A) :
    Outcome.forEach (fun batch => processWatchEvent iter (some ⟨false, batch.map Etcd.event⟩))
      batches self = Outcome.forEach (processEvent iter) (batches.flatten.map Etcd.event) self := by
  induction batches generalizing self with
  | nil => rfl
  | cons batch batches ih =>
    rw [List.flatten_cons, List.map_append, Outcome.forEach_append]
    simp only [Outcome.forEach, processWatchEvent, if_neg Bool.false_ne_true]
    cases Outcome.forEach (processEvent iter) (batch.map Etcd.event) self with
    | ok next => exact ih next
    | error next => rfl
    | panicked => rfl

/-- A record of another peer under the cluster's prefix, with a value that decodes. -/
def Recorded {P A : Type} [SerdeJson] [DecidableEq P] [PeerId P] [Multiaddr A]
    (self : DiscoveryPhases P A) (etcd : Etcd) (p : P) : Prop :=
  ∃ name value addr, etcd[peersPrefix self.clusterId ++ name]? = some value ∧
    self.decodePeer (peersPrefix self.clusterId ++ name) value = some (p, addr)

/-- What the events of a history have said last about a peer: `some true` for a
registration, `some false` for its end. -/
def lastSaid {P A : Type} [SerdeJson] [DecidableEq P] [PeerId P] [Multiaddr A]
    (self : DiscoveryPhases P A) (log : List (Change String String)) (p : P) : Option Bool :=
  (lastOf (log.filterMap self.peerChange) p).map Option.isSome

theorem decodePeer_ne_local {P A : Type} [SerdeJson] [DecidableEq P] [PeerId P] [Multiaddr A]
    {self : DiscoveryPhases P A} {key value : String} {found : P × A}
    (h : self.decodePeer key value = some found) : found.1 ≠ self.localPeerId := by
  unfold decodePeer at h
  obtain ⟨peerId, -, hrest⟩ := Option.bind_eq_some_iff.mp h
  split_ifs at hrest with hlocal
  obtain ⟨addr, -, hpair⟩ := Option.bind_eq_some_iff.mp hrest
  obtain rfl := Option.some.inj hpair
  exact hlocal

/-- The pairs of a range read name the recorded peers. -/
theorem exists_names_iff {P A : Type} [SerdeJson] [DecidableEq P] [PeerId P] [Multiaddr A]
    (self : DiscoveryPhases P A) (etcd : Etcd) (p : P) :
    (∃ kv ∈ etcd.getPrefix (peersPrefix self.clusterId), self.Names kv p) ↔
      self.Recorded etcd p := by
  constructor
  · rintro ⟨kv, hkv, key, value, addr, hkey, hvalue, hdecoded⟩
    obtain ⟨name, value', hget, rfl⟩ := Etcd.mem_getPrefix.mp hkv
    rw [KeyValue.keyStr_ofText] at hkey
    rw [KeyValue.valueStr_ofText] at hvalue
    obtain rfl := Option.some.inj hkey
    obtain rfl := Option.some.inj hvalue
    exact ⟨name, value', addr, hget, hdecoded⟩
  · rintro ⟨name, value, addr, hget, hdecoded⟩
    exact ⟨_, Etcd.mem_getPrefix.mpr ⟨name, value, hget, rfl⟩, _, value, addr,
      KeyValue.keyStr_ofText _ _, KeyValue.valueStr_ofText _ _, hdecoded⟩

/-- The peers known after convergence: those before it, and the recorded ones. -/
theorem converge_known {P A : Type} [SerdeJson] [DecidableEq P] [PeerId P] [Multiaddr A]
    {iter : Finset P → List P} {etcd : Etcd} {self next : DiscoveryPhases P A}
    (h : converge iter (etcd.getPrefix (peersPrefix self.clusterId)) self = .ok next) :
    self.SameNode next ∧
      ∀ p, p ∈ next.knownPeers ↔ p ∈ self.knownPeers ∨ self.Recorded etcd p := by
  unfold converge at h
  cases hloop : Outcome.forEach convergeKv (etcd.getPrefix (peersPrefix self.clusterId)) self with
  | error failed => simp [hloop] at h
  | panicked => simp [hloop] at h
  | ok done =>
    simp only [hloop] at h
    obtain rfl := Outcome.ok.inj h
    obtain ⟨hnode, hknown⟩ := forEach_convergeKv_ok hloop
    refine ⟨hnode, fun p => ?_⟩
    rw [← exists_names_iff]
    exact hknown p

/-- The peers known after the events of a history. -/
theorem forEach_processEvent_known {P A : Type} [SerdeJson] [DecidableEq P] [PeerId P]
    [Multiaddr A] {iter : Finset P → List P} {log : List (Change String String)}
    {self next : DiscoveryPhases P A}
    (h : Outcome.forEach (processEvent iter) (log.map Etcd.event) self = .ok next) :
    next.knownView = replay self.knownView (log.filterMap self.peerChange) := by
  induction log generalizing self with
  | nil =>
    obtain rfl := Outcome.ok.inj h
    rfl
  | cons c log ih =>
    simp only [List.map_cons, Outcome.forEach] at h
    cases hc : processEvent iter (Etcd.event c) self with
    | error failed => simp [hc] at h
    | panicked => simp [hc] at h
    | ok mid =>
      simp only [hc] at h
      obtain ⟨hnode, hview⟩ := processEvent_ok hc
      have hchange : mid.peerChange = self.peerChange := funext hnode.peerChange
      rw [ih h, hchange, hview, ← replay_append]
      congr 1
      cases hp : self.peerChange c <;> simp [hp]

/-- A peer is known when the events have last said so, or have said nothing of a peer
that has been known. -/
theorem mem_knownPeers_followed {P A : Type} [SerdeJson] [DecidableEq P] [PeerId P]
    [Multiaddr A] {iter : Finset P → List P} {log : List (Change String String)}
    {self next : DiscoveryPhases P A}
    (h : Outcome.forEach (processEvent iter) (log.map Etcd.event) self = .ok next) (p : P) :
    p ∈ next.knownPeers ↔
      self.lastSaid log p = some true ∨ self.lastSaid log p = none ∧ p ∈ self.knownPeers := by
  have hview := congrFun (forEach_processEvent_known h) p
  rw [replay_eq_lastOf] at hview
  have hmem : p ∈ next.knownPeers ↔ next.knownView p = some () := by simp [knownView]
  have hmem' : p ∈ self.knownPeers ↔ self.knownView p = some () := by simp [knownView]
  rw [hmem, hmem', hview]
  unfold lastSaid
  cases lastOf (log.filterMap self.peerChange) p with
  | none => simp
  | some value => cases value <;> simp

/-- A run of a loop that follows `stop` ends well when nothing stops it. -/
theorem isOk_of_follows {σ β : Type} {I : σ → Prop} {stop : β → Option Stop} {bs : List β}
    {out : Outcome σ} (h : Outcome.Follows I (bs.findSome? stop) out) :
    (∃ next, out = .ok next) ↔ ∀ b ∈ bs, stop b = none := by
  rw [← List.findSome?_eq_none_iff]
  cases hstop : bs.findSome? stop with
  | none =>
    rw [hstop] at h
    cases out with
    | ok next => exact iff_of_true ⟨next, rfl⟩ rfl
    | error next => exact h.elim
    | panicked => exact h.elim
  | some stopped =>
    rw [hstop] at h
    refine iff_of_false ?_ (by simp)
    rintro ⟨next, rfl⟩
    cases stopped <;> exact h.elim

theorem follow_isOk_iff {P A : Type} [SerdeJson] [DecidableEq P] [PeerId P] [Multiaddr A]
    (iter : Finset P → List P) (batches : List (List (Change String String)))
    (kvs : List KeyValue) (self : DiscoveryPhases P A) :
    (∃ next, follow iter batches kvs self = .ok next) ↔ (∀ kv ∈ kvs, self.kvStop kv = none) ∧
      ∀ c ∈ batches.flatten, self.eventStop (Etcd.event c) = none := by
  have hread := converge_follows iter kvs self
  rw [← isOk_of_follows hread]
  unfold follow
  cases hconverge : converge iter kvs self with
  | error failed => simp
  | panicked => simp
  | ok mid =>
    have hkeeps : self.Keeps mid := by
      rw [hconverge] at hread
      cases hstop : kvs.findSome? self.kvStop with
      | none =>
        rw [hstop] at hread
        exact hread
      | some stopped =>
        rw [hstop] at hread
        cases stopped <;> exact hread.elim
    have hevents : Outcome.Follows self.Keeps
        ((batches.flatten.map Etcd.event).findSome? self.eventStop)
        (Outcome.forEach (processEvent iter) (batches.flatten.map Etcd.event) mid) := by
      refine Outcome.forEach_follows ?_ (batches.flatten.map Etcd.event) mid hkeeps
      intro event next hnext
      rw [← hnext.eventStop event]
      exact (processEvent_follows iter event next).mono (fun after h => hnext.trans h)
    simp only [forEach_processWatchEvent, isOk_of_follows hevents, List.forall_mem_map]
    simp

theorem follow_known {P A : Type} [SerdeJson] [DecidableEq P] [PeerId P] [Multiaddr A]
    {iter : Finset P → List P} {batches : List (List (Change String String))} {etcd : Etcd}
    {self next : DiscoveryPhases P A}
    (h : follow iter batches (etcd.getPrefix (peersPrefix self.clusterId)) self = .ok next)
    (p : P) : p ∈ next.knownPeers ↔ self.lastSaid batches.flatten p = some true ∨
      self.lastSaid batches.flatten p = none ∧ (p ∈ self.knownPeers ∨ self.Recorded etcd p) := by
  unfold follow at h
  cases hconverge : converge iter (etcd.getPrefix (peersPrefix self.clusterId)) self with
  | error failed => simp [hconverge] at h
  | panicked => simp [hconverge] at h
  | ok mid =>
    simp only [hconverge, forEach_processWatchEvent] at h
    obtain ⟨hnode, hknown⟩ := converge_known hconverge
    have hsaid : mid.lastSaid batches.flatten p = self.lastSaid batches.flatten p := by
      unfold lastSaid
      rw [show mid.peerChange = self.peerChange from funext hnode.peerChange]
    rw [mem_knownPeers_followed h p, hsaid, hknown]

/-- The store after a history of the cluster's names. -/
def storeAfter {P A : Type} (self : DiscoveryPhases P A) (h : List (Change String String)) : Etcd :=
  Etcd.stored ∅ (h.map (Etcd.under (peersPrefix self.clusterId)))

/-- The changes after `h₁` that a watch of the cluster's names delivers. -/
def watched {P A : Type} (self : DiscoveryPhases P A) (h₁ h₂ : List (Change String String)) :
    List (Change String String) :=
  Etcd.delivered (self.storeAfter h₁) (h₂.map (Etcd.under (peersPrefix self.clusterId)))

/-- A node that reads the store after `h₁` and follows the events of `h₂` knows in the
end the peers that it would read from the store. -/
def SnapshotAgrees {P A : Type} [SerdeJson] [DecidableEq P] [PeerId P] [Multiaddr A]
    (iter : Finset P → List P) (h₁ h₂ : List (Change String String))
    (self : DiscoveryPhases P A) : Prop :=
  ∀ batches : List (List (Change String String)), batches.flatten = self.watched h₁ h₂ →
    ∃ followed read,
      follow iter batches ((self.storeAfter h₁).getPrefix (peersPrefix self.clusterId)) self =
        .ok followed ∧
      converge iter ((self.storeAfter (h₁ ++ h₂)).getPrefix (peersPrefix self.clusterId)) self =
        .ok read ∧
      followed.knownPeers = read.knownPeers

/-- A history whose records are the same read and followed: no debug line fails, the
node's own key is not deleted, and what the events have last said of any other peer is
what the store says of it. -/
structure TakenAlike {P A : Type} [SerdeJson] [DecidableEq P] [PeerId P] [Multiaddr A]
    (h₁ h₂ : List (Change String String)) (phases : DiscoveryPhases P A) : Prop where
  linesRead : ∀ kv ∈ (phases.storeAfter h₁).getPrefix (peersPrefix phases.clusterId),
    phases.kvStop kv = none
  linesFollowed : ∀ c ∈ phases.watched h₁ h₂, phases.eventStop (Etcd.event c) = none
  linesAfter : ∀ kv ∈ (phases.storeAfter (h₁ ++ h₂)).getPrefix (peersPrefix phases.clusterId),
    phases.kvStop kv = none
  own : ∀ c ∈ phases.watched h₁ h₂, c.value = none →
    phases.peerOfKey c.key ≠ some phases.localPeerId
  kept : ∀ p, phases.Recorded (phases.storeAfter (h₁ ++ h₂)) p →
    phases.lastSaid (phases.watched h₁ h₂) p ≠ some false
  gone : ∀ p, p ≠ phases.localPeerId → ¬phases.Recorded (phases.storeAfter (h₁ ++ h₂)) p →
    phases.lastSaid (phases.watched h₁ h₂) p ≠ some true ∧
      (phases.lastSaid (phases.watched h₁ h₂) p = none → ¬phases.Recorded (phases.storeAfter h₁) p)

/-- Of the node itself events say at most that its registration has ended. -/
theorem lastSaid_local {P A : Type} [SerdeJson] [DecidableEq P] [PeerId P] [Multiaddr A]
    (self : DiscoveryPhases P A) (log : List (Change String String)) :
    self.lastSaid log self.localPeerId ≠ some true ∧
      (self.lastSaid log self.localPeerId = none ↔
        ∀ c ∈ log, c.value = none → self.peerOfKey c.key ≠ some self.localPeerId) := by
  have hchange : ∀ c : Change String String, ∀ change, self.peerChange c = some change →
      change.key = self.localPeerId → c.value = none ∧ change.value = none ∧
        self.peerOfKey c.key = some self.localPeerId := by
    rintro ⟨key, value⟩ change h hkey
    unfold peerChange at h
    cases value with
    | some value =>
      obtain ⟨found, hfound, rfl⟩ := Option.map_eq_some_iff.mp h
      exact absurd hkey (decodePeer_ne_local hfound)
    | none =>
      obtain ⟨peerId, hpeer, rfl⟩ := Option.map_eq_some_iff.mp h
      obtain rfl : peerId = self.localPeerId := hkey
      exact ⟨rfl, rfl, hpeer⟩
  constructor
  · intro h
    obtain ⟨value, hlast, hvalue⟩ := Option.map_eq_some_iff.mp h
    obtain ⟨c, -, hc⟩ := List.mem_filterMap.mp (lastOf_mem hlast)
    obtain ⟨-, hnone, -⟩ := hchange c _ hc rfl
    simp only at hnone
    rw [hnone] at hvalue
    cases hvalue
  · unfold lastSaid
    rw [Option.map_eq_none_iff, lastOf_eq_none_iff]
    constructor
    · intro hnot c hc hvalue hpeer
      apply hnot
      refine ⟨⟨self.localPeerId, none⟩, List.mem_filterMap.mpr ⟨c, hc, ?_⟩, rfl⟩
      unfold peerChange
      rw [hvalue]
      simp [hpeer]
    · rintro hno ⟨change, hmem, hkey⟩
      obtain ⟨c, hc, hchanged⟩ := List.mem_filterMap.mp hmem
      obtain ⟨hvalue, -, hpeer⟩ := hchange c change hchanged hkey
      exact hno c hc hvalue hpeer

/-- A peer that the store has in the end, and of which no event has said anything, has
been there from the start. -/
theorem recorded_before {P A : Type} [SerdeJson] [DecidableEq P] [PeerId P] [Multiaddr A]
    {self : DiscoveryPhases P A} {h₁ h₂ : List (Change String String)} {p : P}
    (h : self.Recorded (self.storeAfter (h₁ ++ h₂)) p)
    (hsilent : self.lastSaid (self.watched h₁ h₂) p = none) :
    self.Recorded (self.storeAfter h₁) p := by
  obtain ⟨name, value, addr, hget, hdecoded⟩ := h
  have hstore : self.storeAfter (h₁ ++ h₂) = Etcd.stored (self.storeAfter h₁)
      (h₂.map (Etcd.under (peersPrefix self.clusterId))) := by
    unfold storeAfter Etcd.stored
    rw [List.map_append, List.foldl_append]
  rw [hstore] at hget
  obtain hbefore | hmem := Etcd.stored_cases hget
  · exact ⟨name, value, addr, hbefore, hdecoded⟩
  · unfold lastSaid at hsilent
    rw [Option.map_eq_none_iff, lastOf_eq_none_iff] at hsilent
    refine absurd ⟨⟨p, some ()⟩, List.mem_filterMap.mpr ⟨_, hmem, ?_⟩, rfl⟩ hsilent
    unfold peerChange
    simp [hdecoded]

/-- What the node knows does not depend on when it has joined exactly for the histories
whose records are taken alike. -/
theorem snapshot_agrees_iff {P A : Type} [SerdeJson] [DecidableEq P] [PeerId P] [Multiaddr A]
    (iter : Finset P → List P) (clusterId : String) (localPeerId : P) (localAddr : A)
    (logDebug : Bool) (h₁ h₂ : List (Change String String)) :
    SnapshotAgrees iter h₁ h₂ (new clusterId localPeerId localAddr logDebug) ↔
      TakenAlike h₁ h₂ (new clusterId localPeerId localAddr logDebug : DiscoveryPhases P A) := by
  let self : DiscoveryPhases P A := new clusterId localPeerId localAddr logDebug
  have hself : ∀ p, p ∈ self.knownPeers ↔ p = self.localPeerId := fun p => Finset.mem_singleton
  obtain ⟨hneverTrue, hown⟩ := self.lastSaid_local (self.watched h₁ h₂)
  have hread := converge_follows iter
    ((self.storeAfter (h₁ ++ h₂)).getPrefix (peersPrefix self.clusterId)) self
  constructor
  · intro hagrees
    obtain ⟨followed, read, hfollow, hconverge, heq⟩ :=
      hagrees [self.watched h₁ h₂] (List.append_nil _)
    have hlines := (follow_isOk_iff iter _ _ self).mp ⟨followed, hfollow⟩
    have hlinesAfter := (isOk_of_follows hread).mp ⟨read, hconverge⟩
    have hfollowed := follow_known hfollow
    simp only [List.flatten_cons, List.flatten_nil, List.append_nil] at hlines hfollowed
    have hknown : ∀ p, (self.lastSaid (self.watched h₁ h₂) p = some true ∨
        self.lastSaid (self.watched h₁ h₂) p = none ∧
          (p = self.localPeerId ∨ self.Recorded (self.storeAfter h₁) p)) ↔
        p = self.localPeerId ∨ self.Recorded (self.storeAfter (h₁ ++ h₂)) p := by
      intro p
      rw [← hself p, ← hfollowed p, heq]
      exact (converge_known hconverge).2 p
    refine ⟨hlines.1, hlines.2, hlinesAfter, ?_, ?_, ?_⟩
    · apply hown.mp
      obtain htrue | hnone := (hknown self.localPeerId).mpr (Or.inl rfl)
      · exact absurd htrue hneverTrue
      · exact hnone.1
    · intro p hrecorded hfalse
      obtain htrue | hnone := (hknown p).mpr (Or.inr hrecorded)
      · rw [htrue] at hfalse
        cases hfalse
      · rw [hnone.1] at hfalse
        cases hfalse
    · intro p hp hnot
      have hout : ¬(p = self.localPeerId ∨ self.Recorded (self.storeAfter (h₁ ++ h₂)) p) :=
        fun h => h.elim hp hnot
      rw [← hknown p, not_or] at hout
      exact ⟨hout.1, fun hnone hbefore => hout.2 ⟨hnone, Or.inr hbefore⟩⟩
  · intro hcondition batches hbatches
    obtain ⟨followed, hfollow⟩ := (follow_isOk_iff iter batches
      ((self.storeAfter h₁).getPrefix (peersPrefix self.clusterId)) self).mpr
      ⟨hcondition.linesRead, by rw [hbatches]; exact hcondition.linesFollowed⟩
    obtain ⟨read, hconverge⟩ := (isOk_of_follows hread).mpr hcondition.linesAfter
    refine ⟨followed, read, hfollow, hconverge, ?_⟩
    ext p
    rw [follow_known hfollow p, hbatches, (converge_known hconverge).2 p, hself]
    by_cases hp : p = self.localPeerId
    · have hnone := hown.mpr hcondition.own
      rw [hp, hnone]
      simp
    · by_cases hrecorded : self.Recorded (self.storeAfter (h₁ ++ h₂)) p
      · refine iff_of_true ?_ (Or.inr hrecorded)
        cases hsaid : self.lastSaid (self.watched h₁ h₂) p with
        | none => exact Or.inr ⟨rfl, Or.inr (recorded_before hrecorded hsaid)⟩
        | some said =>
          cases said with
          | true => exact Or.inl rfl
          | false => exact absurd hsaid (hcondition.kept p hrecorded)
      · obtain ⟨hnotTrue, hnotBefore⟩ := hcondition.gone p hp hrecorded
        refine iff_of_false ?_ (fun h => h.elim hp hrecorded)
        rintro (htrue | ⟨hnone, hlocal | hbefore⟩)
        · exact hnotTrue htrue
        · exact hp hlocal
        · exact hnotBefore hnone hbefore

/-- A valid record is overwritten by one that does not decode, and only the node that
has followed still knows the peer. -/
theorem not_snapshot_agrees : ¬∀ [SerdeJson] (iter : Finset Base58Text → List Base58Text)
    (clusterId : String) (localPeerId : Base58Text) (localAddr : Ip4Text) (logDebug : Bool)
    (h₁ h₂ : List (Change String String)),
    SnapshotAgrees iter h₁ h₂ (new clusterId localPeerId localAddr logDebug) := by
  intro hclaim
  let _ : SerdeJson := SerdeJson.knowing [otherMetadata.toJson]
  let a := peerOf "12D3KooWAAAAAAAAAAAAAAAAAAAAAAAAAAAAAAAAAAAAAAAAAAAA"
  let b := peerOf "12D3KooWBBBBBBBBBBBBBBBBBBBBBBBBBBBBBBBBBBBBBBBBBBBB"
  let self : DiscoveryPhases Base58Text Ip4Text := new "lab" a ⟨"/ip4/10.0.0.1/tcp/5000"⟩ false
  let h₁ : List (Change String String) := [⟨toBase58 b, some otherMetadata.toJson.text⟩]
  let h₂ : List (Change String String) := [⟨toBase58 b, some "stale"⟩]
  obtain ⟨followed, read, hfollow, hconverge, heq⟩ := hclaim (fun _ => [a]) "lab" a
    ⟨"/ip4/10.0.0.1/tcp/5000"⟩ false h₁ h₂ [self.watched h₁ h₂] (List.append_nil _)
  let kvs₁ := (self.storeAfter h₁).getPrefix (peersPrefix "lab")
  let kvs₂ := (self.storeAfter (h₁ ++ h₂)).getPrefix (peersPrefix "lab")
  have hfollow' : self.follow (fun _ => [a]) [self.watched h₁ h₂] kvs₁ = .ok followed := hfollow
  have hconverge' : self.converge (fun _ => [a]) kvs₂ = .ok read := hconverge
  have hdiffer : (self.follow (fun _ => [a]) [self.watched h₁ h₂] kvs₁).left.map
        (fun phases => decide (b ∈ phases.knownPeers)) = some true ∧
      (self.converge (fun _ => [a]) kvs₂).left.map
        (fun phases => decide (b ∈ phases.knownPeers)) = some false := by
    decide +kernel
  rw [hfollow', hconverge'] at hdiffer
  simp only [Outcome.left, Option.map_some, heq] at hdiffer
  cases hdiffer.1.symm.trans hdiffer.2

end DiscoveryPhases
end Neolaas
