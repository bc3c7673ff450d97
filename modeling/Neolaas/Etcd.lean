import Neolaas.ChangeLog

/-!
# etcd as its clients see it

A key-value store of byte strings with range reads and watches over a prefix of
the keys. The stored keys and values of the modelled systems are text; what a
client receives are bytes, which it decodes.
-/
namespace Neolaas
open ChangeLog

/-- Content of the store. -/
abbrev Etcd : Type := Std.ExtTreeMap String String

/-- A pair of key and value as it arrives at a client. -/
structure KeyValue where
  key : ByteArray
  value : ByteArray
  deriving DecidableEq

namespace KeyValue

/-- The key as text, `none` when it is not UTF-8. -/
def keyStr (kv : KeyValue) : Option String := String.fromUTF8? kv.key

/-- The value as text, `none` when it is not UTF-8. -/
def valueStr (kv : KeyValue) : Option String := String.fromUTF8? kv.value

def ofText (key value : String) : KeyValue := ⟨key.toUTF8, value.toUTF8⟩

theorem fromUTF8?_toUTF8 (s : String) : String.fromUTF8? s.toUTF8 = some s := by
  unfold String.fromUTF8?
  by_cases h : s.toUTF8.IsValidUTF8
  · rw [dif_pos h]
    rfl
  · exact absurd s.isValidUTF8 h

@[simp] theorem keyStr_ofText (key value : String) : (ofText key value).keyStr = some key :=
  fromUTF8?_toUTF8 key

@[simp] theorem valueStr_ofText (key value : String) :
    (ofText key value).valueStr = some value := fromUTF8?_toUTF8 value

end KeyValue

inductive EventType where
  | put
  | delete
  deriving DecidableEq

/-- An event of a watch. -/
structure WatchEvent where
  eventType : EventType
  kv : Option KeyValue
  deriving DecidableEq

/-- Rust's `s.strip_prefix(start)`. -/
def stripPrefix (start s : String) : Option String :=
  if start.toList.isPrefixOf s.toList then
    some (String.ofList (s.toList.drop start.toList.length))
  else none

@[simp] theorem stripPrefix_append (start s : String) :
    stripPrefix start (start ++ s) = some s := by
  unfold stripPrefix
  simp [String.toList_append]

theorem stripPrefix_eq_some {start s t : String} :
    stripPrefix start s = some t ↔ s = start ++ t := by
  constructor
  · intro h
    unfold stripPrefix at h
    split_ifs at h with hp
    obtain ⟨rest, hrest⟩ := List.isPrefixOf_iff_prefix.mp hp
    have ht := Option.some.inj h
    rw [← hrest, List.drop_left] at ht
    rw [← String.toList_inj, String.toList_append, ← ht, String.toList_ofList, hrest]
  · intro h
    rw [h, stripPrefix_append]

theorem append_left_injective (start : String) : Function.Injective (start ++ ·) := by
  intro s t h
  have hs := congrArg (stripPrefix start) h
  simpa using hs

namespace Etcd

/-- A range read of all keys with the given start, in the order of the keys. -/
def getPrefix (etcd : Etcd) (start : String) : List KeyValue :=
  (etcd.toList.filter (fun kv => (stripPrefix start kv.1).isSome)).map
    (fun kv => KeyValue.ofText kv.1 kv.2)

/-- A committed write. -/
def apply (etcd : Etcd) (c : Change String String) : Etcd :=
  match c.value with
  | some value => etcd.insert c.key value
  | none => etcd.erase c.key

theorem getElem?_apply (etcd : Etcd) (c : Change String String) (key : String) :
    (etcd.apply c)[key]? = c.apply (fun k => etcd[k]?) key := by
  obtain ⟨k, v⟩ := c
  unfold apply Change.apply
  by_cases h : k = key
  · rw [h]
    cases v <;> simp
  · have h' : key ≠ k := fun he => h he.symm
    rw [Function.update_of_ne h']
    cases v <;> simp [Std.ExtTreeMap.getElem?_insert, Std.ExtTreeMap.getElem?_erase, h]

/-- The event that a watch delivers for a committed write. -/
def event (c : Change String String) : WatchEvent :=
  match c.value with
  | some value => ⟨.put, some (KeyValue.ofText c.key value)⟩
  | none => ⟨.delete, some (KeyValue.ofText c.key "")⟩

theorem mem_getPrefix {etcd : Etcd} {start : String} {kv : KeyValue} :
    kv ∈ etcd.getPrefix start ↔
      ∃ name value, etcd[start ++ name]? = some value ∧
        kv = KeyValue.ofText (start ++ name) value := by
  unfold getPrefix
  constructor
  · intro h
    obtain ⟨⟨key, value⟩, hmem, rfl⟩ := List.mem_map.mp h
    obtain ⟨hin, hsome⟩ := List.mem_filter.mp hmem
    obtain ⟨name, hname⟩ := Option.isSome_iff_exists.mp hsome
    obtain rfl := stripPrefix_eq_some.mp hname
    exact ⟨name, value, Std.ExtTreeMap.mem_toList_iff_getElem?_eq_some.mp hin, rfl⟩
  · intro h
    obtain ⟨name, value, hget, rfl⟩ := h
    refine List.mem_map.mpr ⟨(start ++ name, value), List.mem_filter.mpr ⟨?_, ?_⟩, rfl⟩
    · exact Std.ExtTreeMap.mem_toList_iff_getElem?_eq_some.mpr hget
    · simp

end Etcd
end Neolaas
