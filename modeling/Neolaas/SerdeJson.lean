import Mathlib

/-!
# JSON values and the conventions of derived serde structs

Texts are parsed and printed by serde_json, which enters as the class
`SerdeJson`. On the values in between, a derived struct is read field by field
from an object, in any order and ignoring unknown members, or from an array by
position. A repeated field is an error, an absent one is left to the field's
own default.
-/
namespace Neolaas

/-- The number forms that serde_json keeps apart. A float keeps its literal. -/
inductive Number where
  | posInt (n : ℕ)
  | negInt (n : ℕ)
  | float (literal : String)
  deriving DecidableEq, Repr

def Number.text : Number → String
  | posInt n => n.repr
  | negInt n => "-" ++ n.repr
  | float literal => literal

inductive Json where
  | null
  | bool (b : Bool)
  | number (n : Number)
  | string (s : String)
  | array (items : List Json)
  | object (members : List (String × Json))

/-- The text layer of serde_json. `errorText` is what the error of a rejected
text displays. -/
class SerdeJson where
  parse : String → Option Json
  print : Json → String
  errorText : String → String

namespace Json

/-- A character as it stands inside a JSON string. -/
def escapeChar (c : Char) : String :=
  if c = '"' then "\\\"" else if c = '\\' then "\\\\" else if c = '\n' then "\\n"
  else if c = '\r' then "\\r" else if c = '\t' then "\\t" else if c.toNat = 8 then "\\b"
  else if c.toNat = 12 then "\\f" else if c.toNat < 32 then
    "\\u00" ++ String.ofList [Nat.digitChar (c.toNat / 16), Nat.digitChar (c.toNat % 16)]
  else c.toString

def quote (s : String) : String := "\"" ++ String.join (s.toList.map escapeChar) ++ "\""

mutual

/-- The compact text of a value, as `serde_json::to_string` writes it. -/
def text : Json → String
  | null => "null"
  | bool b => if b then "true" else "false"
  | number n => n.text
  | string s => quote s
  | array items => "[" ++ ",".intercalate (textItems items) ++ "]"
  | object members => "\x7b" ++ ",".intercalate (textMembers members) ++ "\x7d"

def textItems : List Json → List String
  | [] => []
  | item :: items => item.text :: textItems items

def textMembers : List (String × Json) → List String
  | [] => []
  | (name, value) :: members => (quote name ++ ":" ++ value.text) :: textMembers members

end

end Json

/-- The text layer that parses the compact texts of the listed values only. -/
@[reducible] def SerdeJson.knowing (values : List Json) : SerdeJson where
  parse text := values.find? (fun j => j.text = text)
  print := Json.text
  errorText _ := "expected value at line 1 column 1"

theorem SerdeJson.parse_knowing (j : Json) (rest : List Json) :
    (knowing (j :: rest)).parse ((knowing (j :: rest)).print j) = some j :=
  List.find?_cons_of_pos (decide_eq_true rfl)

namespace Json

/-- The one value of a member, `none` when the member is repeated. -/
def member (members : List (String × Json)) (name : String) : Option (Option Json) :=
  match members.filter (fun m => m.1 = name) with
  | [] => some none
  | [m] => some (some m.2)
  | _ :: _ :: _ => none

/-- The values of a struct's fields, each present or absent. -/
def slots (fields : List String) : Json → Option (List (Option Json))
  | object members => fields.mapM (member members)
  | array items =>
    if items.length ≤ fields.length then
      some (items.map some ++ List.replicate (fields.length - items.length) none)
    else none
  | _ => none

def asString : Json → Option String
  | string s => some s
  | _ => none

/-- An optional string: `null` reads as `None`. -/
def asOptionString : Json → Option (Option String)
  | null => some none
  | string s => some (some s)
  | _ => none

def asU32 : Json → Option ℕ
  | number (Number.posInt n) => if n < 2 ^ 32 then some n else none
  | _ => none

/-- A map of strings. A repeated key keeps its last value. -/
def asStringMap : Json → Option (Std.ExtTreeMap String String)
  | object members => do
    let pairs ← members.mapM (fun m => m.2.asString.map (fun s => (m.1, s)))
    pure (pairs.foldl (fun labels kv => labels.insert kv.1 kv.2) ∅)
  | _ => none

/-- A field without default. -/
def required {α : Type} (read : Json → Option α) : Option Json → Option α
  | none => none
  | some j => read j

/-- A field with `#[serde(default)]`. -/
def defaulted {α : Type} (fallback : α) (read : Json → Option α) : Option Json → Option α
  | none => some fallback
  | some j => read j

/-- How a map of strings is written. -/
def ofStringMap (labels : Std.ExtTreeMap String String) : Json :=
  object (labels.toList.map (fun kv => (kv.1, string kv.2)))

/-- Inserting a list of pairs with distinct keys stores each of them. -/
theorem foldl_insert_getElem? (pairs : List (String × String))
    (hd : pairs.Pairwise (fun a b => a.1 ≠ b.1)) (m : Std.ExtTreeMap String String) (k : String) :
    (∀ v, (k, v) ∈ pairs →
      (pairs.foldl (fun labels kv => labels.insert kv.1 kv.2) m)[k]? = some v) ∧
    ((∀ v, (k, v) ∉ pairs) →
      (pairs.foldl (fun labels kv => labels.insert kv.1 kv.2) m)[k]? = m[k]?) := by
  induction pairs generalizing m with
  | nil => simp
  | cons kv pairs ih =>
    obtain ⟨hhead, htail⟩ := List.pairwise_cons.mp hd
    obtain ⟨hin, hout⟩ := ih htail (m.insert kv.1 kv.2)
    simp only [List.foldl_cons, List.mem_cons]
    refine ⟨?_, ?_⟩
    · rintro v (rfl | hv)
      · have hnot : ∀ w, (k, w) ∉ pairs := fun w hw => hhead (k, w) hw rfl
        rw [hout hnot, Std.ExtTreeMap.getElem?_insert_self]
      · exact hin v hv
    · intro hnot
      have hne : kv.1 ≠ k := by
        rintro rfl
        exact hnot kv.2 (Or.inl rfl)
      rw [hout (fun v hv => hnot v (Or.inr hv)), Std.ExtTreeMap.getElem?_insert]
      simp [hne]

/-- A map of strings is read back as written. -/
@[simp] theorem asStringMap_ofStringMap (labels : Std.ExtTreeMap String String) :
    (ofStringMap labels).asStringMap = some labels := by
  have hmap : (labels.toList.map (fun kv => (kv.1, string kv.2))).mapM
      (fun m => m.2.asString.map (fun s => (m.1, s))) = some labels.toList := by
    induction labels.toList with
    | nil => rfl
    | cons kv pairs ih =>
      rw [List.map_cons, List.mapM_cons, ih]
      rfl
  have hd : labels.toList.Pairwise (fun a b => a.1 ≠ b.1) := by
    have h := Std.ExtTreeMap.distinct_keys_toList (t := labels)
    exact h.imp (fun hab he => hab (by simp [he]))
  simp only [ofStringMap, asStringMap, hmap, Option.bind_eq_bind, Option.bind_some,
    Option.pure_def, Option.some.injEq]
  apply Std.ExtTreeMap.ext_getElem?
  intro k
  obtain ⟨hin, hout⟩ := foldl_insert_getElem? labels.toList hd ∅ k
  cases hk : labels[k]? with
  | some v => exact hin v (Std.ExtTreeMap.mem_toList_iff_getElem?_eq_some.mpr hk)
  | none =>
    rw [hout, Std.ExtTreeMap.getElem?_empty]
    intro v hv
    rw [Std.ExtTreeMap.mem_toList_iff_getElem?_eq_some.mp hv] at hk
    cases hk

end Json
end Neolaas
