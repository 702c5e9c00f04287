import HostInventory.Json
import HostInventory.Network.Address
import HostInventory.SystemRoot

/-! The network interfaces of a host: addresses grouped by interface, and the first address of
each kind outside the loopback. -/
namespace HostInventory.Network

structure Entry where
  interface : String
  loopback : Bool
  address : Address
  netmask : Option Address
  deriving DecidableEq

structure Interface where
  name : String
  hardwareAddress : Option String
  ipv4 : List String
  ipv6 : List String
  ipv4Network : Option String
  ipv6Network : Option String
  loopback : Bool
  deriving DecidableEq

structure Report where
  ipv4 : Option String
  ipv6 : Option String
  hardwareAddress : Option String
  interfaces : List Interface
  deriving DecidableEq

def Entry.network? (e : Entry) : Option String := e.netmask.bind e.address.networkText?

namespace Interface

/-- An interface without addresses, as its first entry shows it. -/
def opened (hardwareAddress : String → Option String) (e : Entry) : Interface :=
  ⟨e.interface, hardwareAddress e.interface, [], [], none, none, e.loopback⟩

/-- Adds an address. The first one of a family decides that family's network. -/
def add (i : Interface) (e : Entry) : Interface :=
  match e.address with
  | .v4 _ =>
    let network := if i.ipv4.isEmpty then e.network? else i.ipv4Network
    ⟨i.name, i.hardwareAddress, i.ipv4 ++ [e.address.text], i.ipv6, network, i.ipv6Network,
      i.loopback⟩
  | .v6 _ =>
    let network := if i.ipv6.isEmpty then e.network? else i.ipv6Network
    ⟨i.name, i.hardwareAddress, i.ipv4, i.ipv6 ++ [e.address.text], i.ipv4Network, network,
      i.loopback⟩

def fieldNames : List String :=
  ["name", "macaddress", "ipv4", "ipv6", "ipv4-network", "ipv6-network"]

def optionalField (name : String) (value : Option String) : List (String × Json) :=
  match value with
  | none => []
  | some text => [(name, .text text)]

/-- The loopback mark is not written. -/
def toJson (i : Interface) : Json :=
  .ofFields ([("name", .text i.name), ("ipv4", .ofTexts i.ipv4), ("ipv6", .ofTexts i.ipv6)] ++
    optionalField "macaddress" i.hardwareAddress ++ optionalField "ipv4-network" i.ipv4Network ++
    optionalField "ipv6-network" i.ipv6Network)

def ofJson? (value : Json) : Option Interface :=
  match value.fieldValues? fieldNames with
  | some [name, hardwareAddress, ipv4, ipv6, ipv4Network, ipv6Network] => do
    let name ← Json.required? Json.text? name
    let hardwareAddress ← Json.optional? Json.text? hardwareAddress
    let ipv4 ← Json.required? Json.texts? ipv4
    let ipv6 ← Json.required? Json.texts? ipv6
    let ipv4Network ← Json.optional? Json.text? ipv4Network
    let ipv6Network ← Json.optional? Json.text? ipv6Network
    some ⟨name, hardwareAddress, ipv4, ipv6, ipv4Network, ipv6Network, false⟩
  | _ => none

end Interface

/-- Adds an address to the interface of its name, which is opened at the end if it is new. -/
def place (hardwareAddress : String → Option String) (e : Entry) : List Interface → List Interface
  | [] => [(Interface.opened hardwareAddress e).add e]
  | i :: rest =>
    if i.name = e.interface then i.add e :: rest else i :: place hardwareAddress e rest

def group (hardwareAddress : String → Option String) (entries : List Entry) : List Interface :=
  entries.foldl (fun interfaces e => place hardwareAddress e interfaces) []

namespace Report

def ofInterfaces (interfaces : List Interface) : Report :=
  let external := interfaces.filter fun i => !i.loopback
  { ipv4 := external.findSome? fun i => i.ipv4.head?
    ipv6 := external.findSome? fun i => i.ipv6.head?
    hardwareAddress := external.findSome? fun i => i.hardwareAddress
    interfaces := interfaces }

def ofEntries (hardwareAddress : String → Option String) (entries : List Entry) : Report :=
  ofInterfaces (group hardwareAddress entries)

def fieldNames : List String := ["ipaddress", "ipaddressv6", "macaddress", "interfaces"]

def toJson (r : Report) : Json :=
  .ofFields ([("interfaces", .list (r.interfaces.map Interface.toJson))] ++
    Interface.optionalField "ipaddress" r.ipv4 ++ Interface.optionalField "ipaddressv6" r.ipv6 ++
    Interface.optionalField "macaddress" r.hardwareAddress)

def interfaces? : Json → Option (List Interface)
  | .list items => items.mapM Interface.ofJson?
  | _ => none

def ofJson? (value : Json) : Option Report :=
  match value.fieldValues? fieldNames with
  | some [ipv4, ipv6, hardwareAddress, interfaces] => do
    let ipv4 ← Json.optional? Json.text? ipv4
    let ipv6 ← Json.optional? Json.text? ipv6
    let hardwareAddress ← Json.optional? Json.text? hardwareAddress
    let interfaces ← Json.required? interfaces? interfaces
    some ⟨ipv4, ipv6, hardwareAddress, interfaces⟩
  | _ => none

end Report

def hardwareReading (h : Host) (r : SystemRoot) (interface : String) : Except Failure String :=
  h.readText ((r.networkDirectory.join interface).join "address")

/-- An empty or all-zero hardware address counts as none. -/
def hardwareAddress? (h : Host) (r : SystemRoot) (interface : String) : Option String :=
  match hardwareReading h r interface with
  | .ok text => if text = "" ∨ text = "00:00:00:00:00:00" then none else some text
  | .error _ => none

end HostInventory.Network
