import Neolaas.MachineLifecycle
import Neolaas.OperatorCrds

/-!
# The operator's machine specifications as the server reads them

Encoder and decoder are separate structs of two crates. What they share are the
names of four members; the others the server skips.
-/
namespace Neolaas
open Operator (AdminState)

/-- The four members that the server reads, present or left out. -/
theorem slots_toJson (s : Operator.MachineSpec) :
    s.toJson.slots ["adminState", "cluster", "reservedFor", "labels"] =
      some [some (.string s.adminState.name), some (.string s.cluster),
        s.reservedFor.map Json.string,
        if s.labels.isEmpty then none else some (Json.ofStringMap s.labels)] := by
  unfold Operator.MachineSpec.toJson Operator.optionalMember Operator.labelsMember
  cases s.reservedFor <;> by_cases hl : s.labels.isEmpty = true <;>
    simp [Json.slots, Json.member, hl]

/-- Decoding keeps the members: an omitted reservation is none, omitted labels
are empty. -/
theorem ofJson_toJson (s : Operator.MachineSpec) :
    MachineSpec.ofJson s.toJson = some {
      adminState := s.adminState.name, cluster := s.cluster
      reservedFor := s.reservedFor, labels := s.labels } := by
  have hreserved : Json.defaulted none Json.asOptionString (s.reservedFor.map Json.string) =
      some s.reservedFor := by
    cases s.reservedFor <;> rfl
  have hlabels : Json.defaulted ∅ Json.asStringMap
      (if s.labels.isEmpty then none else some (Json.ofStringMap s.labels)) = some s.labels := by
    by_cases hl : s.labels.isEmpty = true
    · rw [if_pos hl, Std.ExtTreeMap.isEmpty_iff.mp hl]
      rfl
    · rw [if_neg hl]
      exact Json.asStringMap_ofStringMap s.labels
  unfold MachineSpec.ofJson
  rw [slots_toJson]
  simp only [Json.required, Json.asString, hreserved, hlabels, Option.bind_eq_bind,
    Option.bind_some, Option.pure_def]

/-- The server's admission rule is the operator's `is_bookable`. -/
theorem bookable_iff_isBookable (a : AdminState) (spec : MachineSpec)
    (h : spec.adminState = a.name) : Acting.bookable spec ↔ a.isBookable = true := by
  unfold Acting.bookable
  rw [h]
  cases a <;> simp [AdminState.name, AdminState.isBookable]

/-- A provision of an idle machine succeeds exactly when its spec is bookable. -/
theorem provision_of_idle (now : ℤ) (b : String) (config : ProvisionConfig) (self : Acting)
    (h : self.actor.state = .idle) :
    (self.handleProvisionMachine now b config).1.success = true ↔
      Acting.bookable self.actor.spec := by
  have hinit : self.initializeActor now = self :=
    Acting.initializeActor_of_ne now self (by simp [h])
  obtain ⟨-, hb, heq⟩ | ⟨hnot, error, heq⟩ :=
    Acting.handleProvisionMachine_cases now b config self
  · simp [heq, hb]
  · rw [hinit] at hnot
    have hb : ¬Acting.bookable self.actor.spec := fun hb => hnot ⟨h, hb⟩
    simp [heq, hb]

/-- What the operator writes, the server reads with the same admin state, cluster,
reservation and labels, and an idle machine of that spec can be booked exactly
when the operator holds its admin state to be bookable. -/
theorem operator_spec_read_back [SerdeJson] (s : Operator.MachineSpec)
    (htext : SerdeJson.parse (SerdeJson.print s.toJson) = some s.toJson) :
    ∃ spec, MachineSpec.fromStr (SerdeJson.print s.toJson) = some spec ∧
      spec.adminState = s.adminState.name ∧ spec.cluster = s.cluster ∧
      spec.reservedFor = s.reservedFor ∧ spec.labels = s.labels ∧
      ∀ (now : ℤ) (b : String) (config : ProvisionConfig) (self : Acting),
        self.actor.spec = spec → self.actor.state = .idle →
          ((self.handleProvisionMachine now b config).1.success = true ↔
            s.adminState.isBookable = true) := by
  refine ⟨⟨s.adminState.name, s.cluster, s.reservedFor, s.labels⟩, ?_, rfl, rfl, rfl, rfl, ?_⟩
  · unfold MachineSpec.fromStr
    rw [htext, Option.bind_some]
    exact ofJson_toJson s
  · intro now b config self hspec hidle
    rw [provision_of_idle now b config self hidle]
    exact bookable_iff_isBookable s.adminState _ (by rw [hspec])

/-- The first machine of the example inventory. -/
def dellR640 : Operator.MachineSpec where
  interfaces :=
    [⟨⟨#v[0x00, 0xde, 0x11, 0x64, 0x00, 0x01]⟩, ⟨"tor-a1", "Ethernet1/1"⟩, true⟩,
      ⟨⟨#v[0x00, 0xde, 0x11, 0x64, 0x00, 0x02]⟩, ⟨"tor-a1", "Ethernet1/2"⟩, false⟩]
  bmc := ⟨.v4 #v[10, 1, 1, 101], .idrac, "bmc-creds-default", false⟩
  adminState := .available
  cluster := "production"
  reservedFor := none
  labels := Std.ExtTreeMap.ofList [("vendor", "dell"), ("model", "r640"), ("rack", "rack-a")]

/-- The example machine is read back, available to bookings and unreserved. -/
theorem operator_spec_read_back_dellR640 :
    let _ : SerdeJson := SerdeJson.knowing [dellR640.toJson]
    ∃ spec, MachineSpec.fromStr (SerdeJson.print dellR640.toJson) = some spec ∧
      spec.adminState = "available" ∧ spec.cluster = "production" ∧ spec.reservedFor = none := by
  intro _
  obtain ⟨spec, hparse, hadmin, hcluster, hreserved, -, -⟩ :=
    operator_spec_read_back dellR640 (SerdeJson.parse_knowing dellR640.toJson [])
  exact ⟨spec, hparse, hadmin, hcluster, hreserved⟩

end Neolaas
