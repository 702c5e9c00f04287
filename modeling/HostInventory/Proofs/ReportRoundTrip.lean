import HostInventory.Network.Report
import HostInventory.Proofs.MapEntries

/-! Network reports as structured values. A report is written as an object of the fields that it has
and read back up to the loopback marks, which are not written. A value that is read may have its
fields in any order, others among them, and null for one that is missing; written again it has none
of this left. -/
namespace HostInventory

namespace Json

inductive IsPart (part : Json) : Json → Prop
  | self : IsPart part part
  | item {items : List Json} {value : Json} : value ∈ items → IsPart part value →
      IsPart part (.list items)
  | field {fields : List (String × Json)} {name : String} {value : Json} :
      (name, value) ∈ fields → IsPart part value → IsPart part (.object fields)

/-- An object of the fields that have a value and of no others, in ascending order. -/
def IsRecord (value : Json) (layout : List (String × Option Json)) : Prop :=
  ∃ m : OrderedMap String Json, value = .ofMap m ∧
    ∀ name, m.get? name = (OrderedMap.lookup name layout).join

def filled (layout : List (String × Option Json)) : List (String × Json) :=
  layout.flatMap fun e => e.2.toList.map fun value => (e.1, value)

/-- The value of a field. One that is null counts as missing. -/
def present? (name : String) (fields : List (String × Json)) : Option Json :=
  match OrderedMap.lookup name fields with
  | some .null => none
  | value => value

section Records

variable {part value : Json} {layout : List (String × Option Json)}

theorem foldl_insert_filled (m : OrderedMap String Json) (layout : List (String × Option Json)) :
    (filled layout).foldl (fun m e => m.insert e.1 e.2) m =
      layout.foldl (fun m e => m.insert? e.1 e.2) m := by
  induction layout generalizing m with
  | nil => rfl
  | cons e rest ih =>
    rw [filled, List.flatMap_cons, List.foldl_append, List.foldl_cons, ← ih]
    cases e.2 <;> rfl

theorem isRecord_ofFields (distinct : (layout.map Prod.fst).Nodup) :
    (ofFields (filled layout)).IsRecord layout := by
  refine ⟨.ofList (filled layout), rfl, fun name => ?_⟩
  rw [OrderedMap.ofList, foldl_insert_filled, OrderedMap.get?_foldl_insert? distinct,
    OrderedMap.get?_empty, Option.or_none]

theorem IsRecord.decode_eq {α : Type} {decode : Json → Option α}
    {read : (String → Option Json) → Option α}
    (decodes : ∀ fields, decode (.object fields) = read fun name => OrderedMap.lookup name fields)
    (h : value.IsRecord layout) :
    decode value = read fun name => (OrderedMap.lookup name layout).join := by
  obtain ⟨m, rfl, fields⟩ := h
  rw [← funext fields]
  exact decodes m.entries

theorem IsRecord.not_isPart (h : value.IsRecord layout) (other : ∀ fields, part ≠ .object fields)
    (none : ∀ e ∈ layout, ∀ field ∈ e.2, ¬IsPart part field) :
    ¬IsPart part value := by
  obtain ⟨m, rfl, fields⟩ := h
  intro inside
  generalize whole : ofMap m = value at inside
  cases inside with
  | self => exact other m.entries whole.symm
  | item => cases whole
  | @field _ name field mem inside =>
    obtain rfl := Json.object.inj whole
    have found := fields name
    rw [OrderedMap.get?_eq_some_iff.2 mem, eq_comm, Option.join_eq_some_iff] at found
    exact none _ (OrderedMap.mem_of_lookup found) field rfl inside

end Records

section Reading

variable {α : Type} {read : Json → Option α} {name : String} {fields : List (String × Json)}

theorem optional?_present? : optional? read (present? name fields) =
    optional? read (OrderedMap.lookup name fields) := by
  rw [present?]
  cases OrderedMap.lookup name fields with
  | none => rfl
  | some value => cases value <;> rfl

theorem required?_present? (none : read .null = none) :
    required? read (present? name fields) =
      required? read (OrderedMap.lookup name fields) := by
  rw [present?]
  cases OrderedMap.lookup name fields with
  | none => rfl
  | some value => cases value <;> simp [required?, none]

theorem optional?_text (value : Option String) :
    optional? text? (value.map .text) = some value := by
  cases value <;> rfl

theorem texts?_ofTexts (texts : List String) : texts? (ofTexts texts) = some texts := by
  have each : text? ∘ text = pure := rfl
  rw [ofTexts, texts?, List.mapM_map, each, List.mapM_pure, List.map_id']
  rfl

theorem not_isPart_null_text (text : String) : ¬IsPart .null (.text text) := by
  intro inside
  cases inside

theorem not_isPart_null_ofTexts (texts : List String) : ¬IsPart .null (ofTexts texts) := by
  intro inside
  cases inside with
  | item mem inside =>
    obtain ⟨text, -, rfl⟩ := List.mem_map.1 mem
    exact not_isPart_null_text text inside

end Reading

end Json

namespace Network

open Json

theorem Interface.optionalField_eq (name : String) (value : Option String) :
    optionalField name value = (value.map Json.text).toList.map fun value => (name, value) := by
  cases value <;> rfl

namespace Interface

def unmarked (i : Interface) : Interface := { i with loopback := false }

def layout (i : Interface) : List (String × Option Json) := [
  ("name", some (.text i.name)),
  ("ipv4", some (.ofTexts i.ipv4)),
  ("ipv6", some (.ofTexts i.ipv6)),
  ("macaddress", i.hardwareAddress.map .text),
  ("ipv4-network", i.ipv4Network.map .text),
  ("ipv6-network", i.ipv6Network.map .text)]

def read (value : String → Option Json) : Option Interface := do
  let name ← required? text? (value "name")
  let hardwareAddress ← optional? text? (value "macaddress")
  let ipv4 ← required? texts? (value "ipv4")
  let ipv6 ← required? texts? (value "ipv6")
  let ipv4Network ← optional? text? (value "ipv4-network")
  let ipv6Network ← optional? text? (value "ipv6-network")
  some ⟨name, hardwareAddress, ipv4, ipv6, ipv4Network, ipv6Network, false⟩

variable {i : Interface} {value : Json} {fields fields' : List (String × Json)}

theorem isRecord_toJson (i : Interface) : i.toJson.IsRecord i.layout := by
  have written : i.toJson = .ofFields (filled i.layout) := by
    simp [toJson, layout, filled, optionalField_eq]
  rw [written]
  exact isRecord_ofFields (by simp [layout])

theorem ofJson?_object (fields : List (String × Json)) :
    ofJson? (.object fields) = read fun name => OrderedMap.lookup name fields :=
  rfl

theorem read_present? (fields : List (String × Json)) :
    (read fun name => present? name fields) = ofJson? (.object fields) := by
  simp only [ofJson?_object, read, optional?_present?,
    required?_present? (rfl : text? .null = none), required?_present? (rfl : texts? .null = none)]

theorem ofJson?_toJson (i : Interface) : ofJson? i.toJson = some i.unmarked := by
  rw [i.isRecord_toJson.decode_eq ofJson?_object]
  simp [read, layout, OrderedMap.lookup, required?, text?, optional?_text, texts?_ofTexts, unmarked]

theorem unmarked_of_ofJson? (found : ofJson? value = some i) : i.unmarked = i := by
  rw [ofJson?] at found
  split at found
  · simp only [bind, Option.bind_eq_some_iff] at found
    obtain ⟨_, _, _, _, _, _, _, _, _, _, _, _, whole⟩ := found
    cases whole
    rfl
  · cases found

theorem not_isPart_null_toJson (i : Interface) : ¬IsPart .null i.toJson := by
  apply i.isRecord_toJson.not_isPart (fun _ => by simp)
  simp [layout, not_isPart_null_text, not_isPart_null_ofTexts]

theorem ofJson?_congr
    (same : ∀ name ∈ fieldNames, present? name fields = present? name fields') :
    ofJson? (.object fields) = ofJson? (.object fields') := by
  simp only [fieldNames, List.forall_mem_cons] at same
  obtain ⟨name, hardwareAddress, ipv4, ipv6, ipv4Network, ipv6Network, -⟩ := same
  simp only [← read_present?, read, name, hardwareAddress, ipv4, ipv6, ipv4Network, ipv6Network]

end Interface

namespace Report

def unmarked (r : Report) : Report :=
  { r with interfaces := r.interfaces.map Interface.unmarked }

def layout (r : Report) : List (String × Option Json) := [
  ("interfaces", some (.list (r.interfaces.map Interface.toJson))),
  ("ipaddress", r.ipv4.map .text),
  ("ipaddressv6", r.ipv6.map .text),
  ("macaddress", r.hardwareAddress.map .text)]

def read (value : String → Option Json) : Option Report := do
  let ipv4 ← optional? text? (value "ipaddress")
  let ipv6 ← optional? text? (value "ipaddressv6")
  let hardwareAddress ← optional? text? (value "macaddress")
  let interfaces ← required? interfaces? (value "interfaces")
  some ⟨ipv4, ipv6, hardwareAddress, interfaces⟩

/-- What is written for a report: the fields that have a value, in the report and in each of its
interfaces, and no null. -/
structure IsNormal (value : Json) (r : Report) : Prop where
  record : value.IsRecord r.layout
  interfaces : ∀ i ∈ r.interfaces, i.toJson.IsRecord i.layout
  noNull : ¬IsPart .null value

variable {r : Report} {value : Json} {fields fields' : List (String × Json)}

theorem isRecord_toJson (r : Report) : r.toJson.IsRecord r.layout := by
  have written : r.toJson = .ofFields (filled r.layout) := by
    simp [toJson, layout, filled, Interface.optionalField_eq]
  rw [written]
  exact isRecord_ofFields (by simp [layout])

theorem ofJson?_object (fields : List (String × Json)) :
    ofJson? (.object fields) = read fun name => OrderedMap.lookup name fields :=
  rfl

theorem read_present? (fields : List (String × Json)) :
    (read fun name => present? name fields) = ofJson? (.object fields) := by
  simp only [ofJson?_object, read, optional?_present?,
    required?_present? (rfl : interfaces? .null = none)]

theorem interfaces?_map_toJson (interfaces : List Interface) :
    interfaces? (.list (interfaces.map Interface.toJson)) =
      some (interfaces.map Interface.unmarked) := by
  have each : Interface.ofJson? ∘ Interface.toJson = fun i => pure i.unmarked :=
    funext Interface.ofJson?_toJson
  rw [interfaces?, List.mapM_map, each, List.mapM_pure]
  rfl

theorem ofJson?_toJson (r : Report) : ofJson? r.toJson = some r.unmarked := by
  rw [r.isRecord_toJson.decode_eq ofJson?_object]
  simp [read, layout, OrderedMap.lookup, required?, optional?_text, interfaces?_map_toJson,
    unmarked]

theorem toJson_unmarked (r : Report) : r.unmarked.toJson = r.toJson := by
  have each : r.unmarked.interfaces.map Interface.toJson = r.interfaces.map Interface.toJson := by
    rw [unmarked, List.map_map]
    rfl
  rw [toJson, each]
  rfl

theorem unmarked_of_mapM {items : List Json} {interfaces : List Interface}
    (found : items.mapM Interface.ofJson? = some interfaces) :
    interfaces.map Interface.unmarked = interfaces := by
  induction items generalizing interfaces with
  | nil =>
    cases found
    rfl
  | cons item rest ih =>
    simp only [List.mapM_cons, bind, Option.bind_eq_some_iff] at found
    obtain ⟨i, first, others, more, whole⟩ := found
    cases whole
    rw [List.map_cons, Interface.unmarked_of_ofJson? first, ih more]

theorem unmarked_of_ofJson? (found : ofJson? value = some r) : r.unmarked = r := by
  rw [ofJson?] at found
  split at found
  · simp only [bind, Option.bind_eq_some_iff] at found
    obtain ⟨_, _, _, _, _, _, interfaces, read, whole⟩ := found
    cases whole
    obtain ⟨items, -, read⟩ := Option.bind_eq_some_iff.1 read
    cases items with
    | list items => rw [unmarked, unmarked_of_mapM read]
    | _ => cases read
  · cases found

theorem isNormal_toJson (r : Report) : IsNormal r.toJson r := by
  refine ⟨r.isRecord_toJson, fun i _ => i.isRecord_toJson, ?_⟩
  have interfaces : ¬IsPart .null (.list (r.interfaces.map Interface.toJson)) := by
    intro inside
    cases inside with
    | item mem inside =>
      obtain ⟨i, -, rfl⟩ := List.mem_map.1 mem
      exact i.not_isPart_null_toJson inside
  apply r.isRecord_toJson.not_isPart (fun _ => by simp)
  simp [layout, not_isPart_null_text, interfaces]

theorem ofJson?_congr
    (same : ∀ name ∈ fieldNames, present? name fields = present? name fields') :
    ofJson? (.object fields) = ofJson? (.object fields') := by
  simp only [fieldNames, List.forall_mem_cons] at same
  obtain ⟨ipv4, ipv6, hardwareAddress, interfaces, -⟩ := same
  simp only [← read_present?, read, ipv4, ipv6, hardwareAddress, interfaces]

/-- A report is read back without its loopback marks and with all else, and then written as before.
Any value that is read as a report is written in normal form, which is read as the same report, so
writing what was read changes nothing the second time. What a value has besides the fields that are
known, in which order it has them, and null in place of a missing one make no difference, in the
report or in an interface. -/
theorem toJson_roundTrip :
    (∀ r : Report, ofJson? r.toJson = some r.unmarked ∧ r.unmarked.toJson = r.toJson) ∧
    (∀ value r, ofJson? value = some r → IsNormal r.toJson r ∧ ofJson? r.toJson = some r) ∧
    (∀ value written, (ofJson? value).map toJson = some written →
      (ofJson? written).map toJson = some written) ∧
    (∀ fields fields', (∀ name ∈ fieldNames, present? name fields = present? name fields') →
      ofJson? (.object fields) = ofJson? (.object fields')) ∧
    ∀ fields fields', (∀ name ∈ Interface.fieldNames, present? name fields = present? name fields') →
      Interface.ofJson? (.object fields) = Interface.ofJson? (.object fields') := by
  have again {value : Json} {r : Report} (found : ofJson? value = some r) :
      ofJson? r.toJson = some r := by
    rw [ofJson?_toJson, unmarked_of_ofJson? found]
  refine ⟨fun r => ⟨r.ofJson?_toJson, r.toJson_unmarked⟩,
    fun value r found => ⟨r.isNormal_toJson, again found⟩, fun value written read => ?_,
    fun _ _ => ofJson?_congr, fun _ _ => Interface.ofJson?_congr⟩
  obtain ⟨r, found, rfl⟩ := Option.map_eq_some_iff.1 read
  rw [again found, Option.map_some]

def strayValue : Json := .object [
  ("zone", .null),
  ("macaddress", .null),
  ("interfaces", .list [.object [
    ("loopback", .bool true), ("ipv6", .list []), ("name", .text "en0"),
    ("ipv4-network", .text "10.0.0.0/8"), ("ipv4", .list [.text "10.0.0.7"])]]),
  ("ipaddress", .text "10.0.0.7")]

theorem toJson_strayValue :
    let r : Report := ⟨some "10.0.0.7", none, none,
      [⟨"en0", none, ["10.0.0.7"], [], some "10.0.0.0/8", none, false⟩]⟩
    ofJson? strayValue = some r ∧ ¬IsPart .null r.toJson ∧ ofJson? r.toJson = some r ∧
    (ofJson? r.toJson).map toJson = some r.toJson := by
  intro r
  have found : ofJson? strayValue = some r := rfl
  obtain ⟨-, normal, stable, -⟩ := toJson_roundTrip
  obtain ⟨form, same⟩ := normal strayValue r found
  exact ⟨found, form.noNull, same, stable strayValue r.toJson (by rw [found]; rfl)⟩

end Report

end Network

end HostInventory
