import Mathlib

/-!
# Asking actors over a network that loses and delays messages

An ask carries its number, and the reply to it comes back under that number. Its
message is handled once or never, at any time after it was sent, so that an asker
that has stopped waiting does not know whether it was. What actors have replied is a
replay of the messages that they have handled.
-/
namespace Neolaas.ActorAsks

/-- A message that waits for an actor or has been handled, with who asks. `since` counts
the messages that had been handled when it was sent. -/
structure Ask (P W M : Type*) where
  id : ℕ
  asker : W
  target : P
  message : M
  since : ℕ

/-- The actors, the messages under way to them, and what has been handled in order with
its replies. -/
structure Asks (P W σ M R : Type*) where
  actors : P → σ
  nextId : ℕ
  inFlight : List (Ask P W M)
  handled : List (Ask P W M × R)

variable {P W σ M R : Type*}

/-- The state of the actor of `p` after these messages. -/
def stateAfter [DecidableEq P] (handle : σ → M → σ × R) (init : P → σ)
    (p : P) (handled : List (Ask P W M × R)) : σ :=
  handled.foldl (fun s h => if h.1.target = p then (handle s h.1.message).1 else s) (init p)

namespace Asks

/-- No message has been sent. -/
def start (init : P → σ) : Asks P W σ M R where
  actors := init
  nextId := 0
  inFlight := []
  handled := []

/-- The next ask. -/
def ask (asker : W) (target : P) (message : M) (s : Asks P W σ M R) : Ask P W M :=
  ⟨s.nextId, asker, target, message, s.handled.length⟩

def send (asker : W) (target : P) (message : M) (s : Asks P W σ M R) : Asks P W σ M R :=
  { s with nextId := s.nextId + 1, inFlight := s.inFlight ++ [s.ask asker target message] }

/-- An actor handles the message with this number. -/
def deliver [DecidableEq P] (handle : σ → M → σ × R) (id : ℕ) (s : Asks P W σ M R) :
    Option (Asks P W σ M R) :=
  (s.inFlight.find? (fun a => a.id = id)).map (fun a =>
    { s with
      actors := Function.update s.actors a.target (handle (s.actors a.target) a.message).1
      inFlight := s.inFlight.eraseP (fun b => b.id = id)
      handled := s.handled ++ [(a, (handle (s.actors a.target) a.message).2)] })

/-- The reply that comes back under this number, with its ask. -/
def answer (id : ℕ) (s : Asks P W σ M R) : Option (Ask P W M × R) :=
  s.handled.find? (fun h => h.1.id = id)

/-- All asks that have been sent. -/
def sent (s : Asks P W σ M R) : List (Ask P W M) := s.inFlight ++ s.handled.map Prod.fst

/-- Every number is that of one ask, and the actors and their replies are those of a
replay of what has been handled. -/
structure Sound [DecidableEq P] (handle : σ → M → σ × R) (init : P → σ)
    (s : Asks P W σ M R) : Prop where
  nodup : (s.sent.map Ask.id).Nodup
  numbered : ∀ a ∈ s.sent, a.id < s.nextId
  early : ∀ a ∈ s.inFlight, a.since ≤ s.handled.length
  actors : ∀ p, s.actors p = stateAfter handle init p s.handled
  replays : ∀ before a reply after, s.handled = before ++ (a, reply) :: after →
    a.since ≤ before.length ∧
      reply = (handle (stateAfter handle init a.target before) a.message).2

theorem sound_start [DecidableEq P] (handle : σ → M → σ × R) (init : P → σ) :
    (start init : Asks P W σ M R).Sound handle init := by
  refine ⟨List.nodup_nil, ?_, ?_, fun p => rfl, ?_⟩
  · intro a ha
    cases ha
  · intro a ha
    cases ha
  · intro before a reply after h
    exact absurd h.symm (by simp [start])

theorem mem_sent_send (asker : W) (target : P) (message : M) (s : Asks P W σ M R)
    (a : Ask P W M) : a ∈ (s.send asker target message).sent ↔
      a ∈ s.sent ∨ a = s.ask asker target message := by
  simp only [sent, send, List.mem_append, List.mem_singleton]
  tauto

/-- Sending numbers a new ask. -/
theorem Sound.send [DecidableEq P] {handle : σ → M → σ × R} {init : P → σ}
    {s : Asks P W σ M R} (hs : s.Sound handle init) (asker : W) (target : P) (message : M) :
    (s.send asker target message).Sound handle init := by
  have hperm : (s.send asker target message).sent.Perm
      (s.ask asker target message :: s.sent) := by
    show ((s.inFlight ++ [s.ask asker target message]) ++ s.handled.map Prod.fst).Perm _
    rw [List.append_assoc]
    exact List.perm_middle
  constructor
  · refine (hperm.map Ask.id).nodup_iff.mpr (List.nodup_cons.mpr ⟨?_, hs.nodup⟩)
    intro hmem
    obtain ⟨a, ha, hid⟩ := List.mem_map.mp hmem
    have hlt := hs.numbered a ha
    have hnext : a.id = s.nextId := hid
    omega
  · intro a ha
    show a.id < s.nextId + 1
    obtain ha | rfl := (mem_sent_send asker target message s a).mp ha
    · exact Nat.lt_succ_of_lt (hs.numbered a ha)
    · exact Nat.lt_succ_self s.nextId
  · intro a ha
    obtain ha | ha := List.mem_append.mp ha
    · exact hs.early a ha
    · rw [List.mem_singleton.mp ha]
      exact le_refl s.handled.length
  · exact hs.actors
  · exact hs.replays

/-- What a delivery does. -/
theorem deliver_cases [DecidableEq P] {handle : σ → M → σ × R} {id : ℕ}
    {s t : Asks P W σ M R} (h : s.deliver handle id = some t) : ∃ before a after,
      a.id = id ∧ s.inFlight = before ++ a :: after ∧ t = { s with
        actors := Function.update s.actors a.target (handle (s.actors a.target) a.message).1
        inFlight := before ++ after
        handled := s.handled ++ [(a, (handle (s.actors a.target) a.message).2)] } := by
  obtain ⟨a, hfind, rfl⟩ := Option.map_eq_some_iff.mp h
  obtain ⟨hid, before, after, hsplit, hbefore⟩ := List.find?_eq_some_iff_append.mp hfind
  have herase : s.inFlight.eraseP (fun b => b.id = id) = before ++ after := by
    have hrest : (a :: after).eraseP (fun b => b.id = id) = after := List.eraseP_cons_of_pos hid
    rw [hsplit, List.eraseP_append_right _ (fun b hb => by simpa using hbefore b hb), hrest]
  refine ⟨before, a, after, by simpa using hid, hsplit, ?_⟩
  rw [herase]

/-- A delivery moves an ask from those under way to those handled. -/
theorem sent_deliver [DecidableEq P] {handle : σ → M → σ × R} {id : ℕ} {s t : Asks P W σ M R}
    (h : s.deliver handle id = some t) : t.sent.Perm s.sent := by
  obtain ⟨before, a, after, -, hsplit, rfl⟩ := deliver_cases h
  have hmoved : (before ++ after ++ [a]).Perm (before ++ a :: after) := by
    rw [List.append_assoc]
    exact (List.perm_append_singleton a after).append_left before
  show (before ++ after ++ (s.handled ++ [(a, _)]).map Prod.fst).Perm
    (s.inFlight ++ s.handled.map Prod.fst)
  rw [hsplit, List.map_append]
  have hback : (before ++ after ++ (s.handled.map Prod.fst ++ [a])).Perm
      (before ++ after ++ [a] ++ s.handled.map Prod.fst) := by
    rw [List.append_assoc (before ++ after)]
    exact List.perm_append_comm.append_left _
  exact hback.trans (hmoved.append_right _)

theorem stateAfter_append [DecidableEq P] (handle : σ → M → σ × R) (init : P → σ) (p : P)
    (handled : List (Ask P W M × R)) (a : Ask P W M) (reply : R) :
    stateAfter handle init p (handled ++ [(a, reply)]) =
      if a.target = p then (handle (stateAfter handle init p handled) a.message).1
      else stateAfter handle init p handled := by
  rw [stateAfter, List.foldl_append]
  rfl

/-- A delivery keeps every number with one ask and replays one more message. -/
theorem Sound.deliver [DecidableEq P] {handle : σ → M → σ × R} {init : P → σ} {id : ℕ}
    {s t : Asks P W σ M R} (hs : s.Sound handle init) (h : s.deliver handle id = some t) :
    t.Sound handle init := by
  have hperm := sent_deliver h
  obtain ⟨before, a, after, hid, hsplit, rfl⟩ := deliver_cases h
  have hstill : ∀ b ∈ before ++ after, b ∈ s.inFlight := by
    intro b hb
    rw [hsplit]
    obtain hb | hb := List.mem_append.mp hb
    · exact List.mem_append_left _ hb
    · exact List.mem_append_right _ (List.mem_cons_of_mem _ hb)
  have ha : a ∈ s.inFlight := by
    rw [hsplit]
    exact List.mem_append_right _ List.mem_cons_self
  constructor
  · exact (hperm.map Ask.id).nodup_iff.mpr hs.nodup
  · intro b hb
    exact hs.numbered b (hperm.mem_iff.mp hb)
  · intro b hb
    have hearly := hs.early b (hstill b hb)
    show b.since ≤ (s.handled ++ [(a, _)]).length
    rw [List.length_append]
    omega
  · intro p
    show Function.update s.actors a.target _ p = stateAfter handle init p (s.handled ++ [(a, _)])
    rw [stateAfter_append]
    by_cases hp : a.target = p
    · subst hp
      rw [if_pos rfl, Function.update_self, hs.actors]
    · rw [if_neg hp, Function.update_of_ne (Ne.symm hp), hs.actors]
  · intro earlier b reply later heq
    have heq : s.handled ++ [(a, (handle (s.actors a.target) a.message).2)] =
        earlier ++ (b, reply) :: later := heq
    obtain rfl | ⟨later', last, rfl⟩ := List.eq_nil_or_concat' later
    · obtain ⟨rfl, hlast⟩ := List.append_inj' heq rfl
      obtain ⟨rfl, rfl⟩ := Prod.mk.inj (List.singleton_inj.mp hlast)
      refine ⟨hs.early a ha, ?_⟩
      rw [hs.actors]
    · rw [← List.cons_append, ← List.append_assoc] at heq
      obtain ⟨hinit, -⟩ := List.append_inj' heq rfl
      exact hs.replays earlier b reply later' hinit

/-- Asks with one number are one ask. -/
theorem Sound.ext_id [DecidableEq P] {handle : σ → M → σ × R} {init : P → σ}
    {s : Asks P W σ M R} (hs : s.Sound handle init) {a b : Ask P W M} (ha : a ∈ s.sent)
    (hb : b ∈ s.sent) (hid : a.id = b.id) : a = b :=
  List.inj_on_of_nodup_map hs.nodup ha hb hid

theorem mem_sent_of_handled {s : Asks P W σ M R} {a : Ask P W M} {reply : R}
    (h : (a, reply) ∈ s.handled) : a ∈ s.sent :=
  List.mem_append_right _ (List.mem_map_of_mem h)

/-- What comes back under the number of an ask is a reply to it. -/
theorem Sound.handled_of_answer [DecidableEq P] {handle : σ → M → σ × R} {init : P → σ}
    {s : Asks P W σ M R} (hs : s.Sound handle init) {a b : Ask P W M} {reply : R}
    (ha : a ∈ s.sent) (h : s.answer a.id = some (b, reply)) :
    b = a ∧ (a, reply) ∈ s.handled := by
  have hb : (b, reply) ∈ s.handled := List.mem_of_find?_eq_some h
  have hid : b.id = a.id := by simpa using List.find?_some h
  have hsame : b = a := hs.ext_id (mem_sent_of_handled hb) ha hid
  exact ⟨hsame, hsame ▸ hb⟩

/-- A reply tells the state of the actor as it was at a moment since the ask was sent. -/
theorem Sound.reply_of_handled [DecidableEq P] {handle : σ → M → σ × R} {init : P → σ}
    {s : Asks P W σ M R} (hs : s.Sound handle init) {a : Ask P W M} {reply : R}
    (h : (a, reply) ∈ s.handled) : ∃ before, before <+: s.handled ∧ a.since ≤ before.length ∧
      reply = (handle (stateAfter handle init a.target before) a.message).2 := by
  obtain ⟨before, after, hsplit⟩ := List.append_of_mem h
  obtain ⟨hsince, hreply⟩ := hs.replays before a reply after hsplit
  exact ⟨before, ⟨_, hsplit.symm⟩, hsince, hreply⟩

end Asks
end Neolaas.ActorAsks
