import Neolaas.SerdeJson

/-!
# The operator's custom resources

Static configuration of machines, switches and VLANs, with the JSON that the
derived `Serialize` implementations produce: camel case names, fields in
declaration order, optional fields and empty label maps left out.
-/
namespace Neolaas.Operator

/-- A MAC address of six bytes. -/
structure MacAddr6 where
  bytes : Vector UInt8 6
  deriving DecidableEq

/-- Two upper-case hexadecimal digits. -/
def hexByte (b : UInt8) : String :=
  String.ofList [(Nat.digitChar (b.toNat / 16)).toUpper, (Nat.digitChar (b.toNat % 16)).toUpper]

/-- `Display for MacAddr6`: six bytes between colons. -/
def MacAddr6.display (mac : MacAddr6) : String :=
  ":".intercalate (mac.bytes.toList.map hexByte)

/-- std's `IpAddr`. -/
inductive IpAddr where
  | v4 (octets : Vector UInt8 4)
  | v6 (segments : Vector UInt16 8)
  deriving DecidableEq

def displayV4 (octets : List ℕ) : String := ".".intercalate (octets.map Nat.repr)

/-- IPv6 segments in lower-case hexadecimal between colons. -/
def displaySegments (segments : List ℕ) : String :=
  ":".intercalate (segments.map (fun s => String.ofList (Nat.toDigits 16 s)))

/-- Start and length of the first longest run of zero segments. -/
def longestZeroes (segments : List ℕ) : ℕ × ℕ :=
  let scan := segments.zipIdx.foldl (fun (longest, current) (segment, i) =>
    if segment = 0 then
      let current := if current.2 = 0 then (i, 1) else (current.1, current.2 + 1)
      (if longest.2 < current.2 then current else longest, current)
    else (longest, (0, 0))) ((0, 0), (0, 0))
  scan.1

/-- `Display for IpAddr`: dotted quad, or the compressed IPv6 form. -/
def IpAddr.display : IpAddr → String
  | v4 octets => displayV4 (octets.toList.map UInt8.toNat)
  | v6 segments =>
    let segments := segments.toList.map UInt16.toNat
    match segments with
    | [0, 0, 0, 0, 0, 65535, a, b] =>
      "::ffff:" ++ displayV4 [a / 256, a % 256, b / 256, b % 256]
    | _ =>
      let (start, length) := longestZeroes segments
      if 1 < length then
        displaySegments (segments.take start) ++ "::" ++
          displaySegments (segments.drop (start + length))
      else displaySegments segments

/-- A member that `skip_serializing_if` leaves out when there is nothing to write. -/
def optionalMember (name : String) : Option Json → List (String × Json)
  | none => []
  | some j => [(name, j)]

/-- Labels as a member, left out when empty. -/
def labelsMember (labels : Std.ExtTreeMap String String) : List (String × Json) :=
  if labels.isEmpty then [] else [("labels", Json.ofStringMap labels)]

/-- Reference to a specific port on a switch. -/
structure SwitchPortRef where
  switch : String
  port : String

def SwitchPortRef.toJson (r : SwitchPortRef) : Json :=
  .object [("switch", .string r.switch), ("port", .string r.port)]

/-- A physical network interface and its hardwired switch port connection. -/
structure NetworkInterface where
  mac : MacAddr6
  switchPort : SwitchPortRef
  pxe : Bool

def NetworkInterface.toJson (i : NetworkInterface) : Json :=
  .object [("mac", .string i.mac.display), ("switchPort", i.switchPort.toJson),
    ("pxe", .bool i.pxe)]

inductive BmcProtocol where
  | redfish
  | ipmi
  | ilo
  | idrac
  deriving DecidableEq

/-- `serde(rename_all = "lowercase")`. -/
def BmcProtocol.name : BmcProtocol → String
  | redfish => "redfish"
  | ipmi => "ipmi"
  | ilo => "ilo"
  | idrac => "idrac"

/-- BMC configuration for out-of-band management. -/
structure BmcConfig where
  address : IpAddr
  protocol : BmcProtocol
  credentialsSecret : String
  inBand : Bool

def BmcConfig.toJson (b : BmcConfig) : Json :=
  .object [("address", .string b.address.display), ("protocol", .string b.protocol.name),
    ("credentialsSecret", .string b.credentialsSecret), ("inBand", .bool b.inBand)]

/-- Administrative state for the machine. -/
inductive AdminState where
  | available
  | maintenance
  | reserved
  | decommissioned
  deriving DecidableEq

/-- `serde(rename_all = "lowercase")`. -/
def AdminState.name : AdminState → String
  | available => "available"
  | maintenance => "maintenance"
  | reserved => "reserved"
  | decommissioned => "decommissioned"

def AdminState.isBookable : AdminState → Bool
  | available | reserved => true
  | maintenance | decommissioned => false

/-- The operator's machine specification. -/
structure MachineSpec where
  interfaces : List NetworkInterface
  bmc : BmcConfig
  adminState : AdminState
  cluster : String
  reservedFor : Option String
  labels : Std.ExtTreeMap String String

def MachineSpec.toJson (s : MachineSpec) : Json :=
  .object ([("interfaces", .array (s.interfaces.map NetworkInterface.toJson)),
      ("bmc", s.bmc.toJson), ("adminState", .string s.adminState.name),
      ("cluster", .string s.cluster)] ++
    optionalMember "reservedFor" (s.reservedFor.map .string) ++ labelsMember s.labels)

inductive SwitchBackend where
  | nxos
  | iosxe
  | ios
  | eos
  | junos
  | ssh
  deriving DecidableEq

/-- `serde(rename_all = "lowercase")`. -/
def SwitchBackend.name : SwitchBackend → String
  | nxos => "nxos"
  | iosxe => "iosxe"
  | ios => "ios"
  | eos => "eos"
  | junos => "junos"
  | ssh => "ssh"

/-- A network switch in the lab. -/
structure SwitchSpec where
  managementIp : IpAddr
  backend : SwitchBackend
  credentialsSecret : String
  port : Option UInt16
  labels : Std.ExtTreeMap String String

def SwitchSpec.toJson (s : SwitchSpec) : Json :=
  .object ([("managementIp", .string s.managementIp.display),
      ("backend", .string s.backend.name), ("credentialsSecret", .string s.credentialsSecret)] ++
    optionalMember "port" (s.port.map (fun p => .number (.posInt p.toNat))) ++
    labelsMember s.labels)

/-- VLAN ID (1-4094). -/
structure VlanId where
  id : UInt16
  valid : ¬(id = 0 ∨ 4094 < id)

/-- `VlanId::new`, which rejects what is out of range. -/
def VlanId.new (id : UInt16) : Except String VlanId :=
  if h : id = 0 ∨ 4094 < id then .error "VLAN ID must be between 1 and 4094" else .ok ⟨id, h⟩

inductive VlanAdminState where
  | available
  | reserved
  | disabled
  deriving DecidableEq

/-- `serde(rename_all = "lowercase")`. -/
def VlanAdminState.name : VlanAdminState → String
  | available => "available"
  | reserved => "reserved"
  | disabled => "disabled"

/-- An allocatable VLAN in the lab. -/
structure VlanSpec where
  vlanId : VlanId
  isPublic : Bool
  subnet : Option String
  gateway : Option String
  adminState : VlanAdminState
  labels : Std.ExtTreeMap String String

def VlanSpec.toJson (s : VlanSpec) : Json :=
  .object ([("vlanId", .number (.posInt s.vlanId.id.toNat)), ("public", .bool s.isPublic)] ++
    optionalMember "subnet" (s.subnet.map .string) ++
    optionalMember "gateway" (s.gateway.map .string) ++
    [("adminState", .string s.adminState.name)] ++ labelsMember s.labels)

end Neolaas.Operator
