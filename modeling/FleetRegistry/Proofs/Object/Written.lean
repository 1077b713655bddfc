import FleetRegistry.Object.Basic
import FleetRegistry.Proofs.Json.Fields
import FleetRegistry.Proofs.Time.Instant

/-!
Objects in writing. Reading what an object is written as gives the object, with the instants of its
metadata in whole seconds. The laws of the records name their fields' laws in the order in which the
fields are read.
-/
namespace FleetRegistry

open Json

/-! ## Clusters -/

theorem ServerEndpoint.readsBack : ReadsBack toJson ofJson? id where
  notNull _ := nofun
  read _ := by
    refine read_then rfl <| read_then (readsBack_text.required rfl) <|
      read_then (readsBack_text.required rfl) <| ?_
    rfl

theorem ApiEndpoints.readsBack : ReadsBack toJson ofJson? id where
  notNull _ := nofun
  read _ := by
    refine read_then rfl <| read_then (ServerEndpoint.readsBack.list.optional rfl) <|
      read_then (readsBack_text.optional rfl) <| ?_
    simp

theorem CredentialsReference.readsBack : ReadsBack toJson ofJson? id where
  notNull _ := nofun
  read _ := by
    refine read_then rfl <| read_then (readsBack_text.optional rfl) <|
      read_then (readsBack_text.required rfl) <| read_then (readsBack_text.optional rfl) <| ?_
    simp

theorem AuthInfo.readsBack : ReadsBack toJson ofJson? id where
  notNull _ := nofun
  read _ := by
    refine read_then rfl <| read_then (CredentialsReference.readsBack.optional rfl) <|
      read_then (CredentialsReference.readsBack.optional rfl) <| ?_
    simp

theorem CloudProvider.readsBack : ReadsBack toJson ofJson? id where
  notNull _ := nofun
  read _ := by
    refine read_then rfl <| read_then (readsBack_text.required rfl) <| ?_
    rfl

theorem ClusterSpec.readsBack : ReadsBack toJson ofJson? id where
  notNull _ := nofun
  read _ := by
    refine read_then rfl <| read_then (ApiEndpoints.readsBack.optional rfl) <|
      read_then (AuthInfo.readsBack.optional rfl) <|
      read_then (CloudProvider.readsBack.optional rfl) <| ?_
    simp

theorem ClusterCondition.readsBack : ReadsBack toJson ofJson? id where
  notNull _ := nofun
  read _ := by
    refine read_then rfl <| read_then (readsBack_text.required rfl) <|
      read_then (readsBack_text.required rfl) <| read_then (readsBack_text.optional rfl) <|
      read_then (readsBack_text.optional rfl) <| read_then (readsBack_text.optional rfl) <|
      read_then (readsBack_text.optional rfl) <| ?_
    simp

theorem ClusterStatus.readsBack : ReadsBack toJson ofJson? id where
  notNull _ := nofun
  read _ := by
    refine read_then rfl <| read_then (ClusterCondition.readsBack.list.optional rfl) <|
      read_then (readsBack_texts.optional rfl) <| read_then (readsBack_text.optional rfl) <| ?_
    simp

/-! ## Records of federated services -/

theorem PortStatus.readsBack : ReadsBack toJson ofJson? id where
  notNull _ := nofun
  read _ := by
    refine read_then rfl <| read_then (readsBack_text.optional rfl) <|
      read_then (readsBack_int32.defaulted 0 rfl) <| read_then (readsBack_text.defaulted "" rfl) <|
      ?_
    simp

theorem LoadBalancerIngress.readsBack : ReadsBack toJson ofJson? id where
  notNull _ := nofun
  read _ := by
    refine read_then rfl <| read_then (readsBack_text.optional rfl) <|
      read_then (readsBack_text.optional rfl) <| read_then (readsBack_text.optional rfl) <|
      read_then (PortStatus.readsBack.list.optional rfl) <| ?_
    simp

theorem LoadBalancerStatus.readsBack : ReadsBack toJson ofJson? id where
  notNull _ := nofun
  read _ := by
    refine read_then rfl <| read_then (LoadBalancerIngress.readsBack.list.optional rfl) <| ?_
    simp

theorem ClusterDns.readsBack : ReadsBack toJson ofJson? id where
  notNull _ := nofun
  read _ := by
    refine read_then rfl <| read_then (readsBack_text.required rfl) <|
      read_then (readsBack_texts.optional rfl) <| read_then (readsBack_text.optional rfl) <|
      read_then (LoadBalancerStatus.readsBack.optional rfl) <| ?_
    simp

theorem DnsRecordSpec.readsBack : ReadsBack toJson ofJson? id where
  notNull _ := nofun
  read _ := by
    refine read_then rfl <| read_then (readsBack_text.required rfl) <|
      read_then (readsBack_text.optional rfl) <| read_then (readsBack_int64.optional rfl) <| ?_
    simp

theorem DnsRecordStatus.readsBack : ReadsBack toJson ofJson? id where
  notNull _ := nofun
  read _ := by
    refine read_then rfl <| read_then (ClusterDns.readsBack.list.optional rfl) <| ?_
    simp

/-! ## Metadata -/

theorem Instant.readsBack : ReadsBack toJson ofJson? wholeSecond where
  notNull _ := nofun
  read instant := by rw [toJson, ofJson?, text?, Option.bind_some, parse?_text]

namespace FieldSet

theorem value_ofJson_ne_null {value : Json} (notNull : value ≠ .null) :
    (ofJson value).value ≠ .null := mt canonical_eq_null.1 notNull

theorem ofJson_value (fields : FieldSet) : ofJson fields.value = fields := by
  obtain ⟨value, canonical⟩ := fields
  simp [ofJson, canonical]

def isGiven (fields : FieldSet) : Bool := !fields.value.isNull

theorem isGiven_iff {fields : FieldSet} : fields.isGiven = true ↔ fields.value ≠ .null := by
  rw [isGiven]
  cases fields.value <;> simp [isNull]

theorem filter_isGiven {set : Option FieldSet} :
    set.filter isGiven = set ↔ ∀ fields ∈ set, fields.value ≠ .null := by
  cases set with
  | none => simp
  | some fields =>
    cases given : fields.isGiven with
    | true => simp [Option.filter, given, isGiven_iff.1 given]
    | false => simpa [Option.filter, given] using mt isGiven_iff.2 (by simp [given])

theorem optional {name : String} {fields : List (String × Option Json)} {set : Option FieldSet}
    (listed : valuesUnder name fields = [set.map FieldSet.value]) :
    optionalField (some ∘ ofJson) name (presentMembers fields) = some (set.filter isGiven) := by
  rw [optionalField, find?_presentMembers listed]
  cases set with
  | none => rfl
  | some set =>
    have back := set.ofJson_value
    rw [Option.map_some, Option.filter_some, isGiven]
    generalize set.value = value at back ⊢
    cases value <;> simp [isNull, back]

end FieldSet

theorem OwnerReference.readsBack : ReadsBack toJson ofJson? id where
  notNull _ := nofun
  read _ := by
    refine read_then rfl <| read_then (readsBack_text.defaulted "" rfl) <|
      read_then (readsBack_bool.optional rfl) <| read_then (readsBack_bool.optional rfl) <|
      read_then (readsBack_text.defaulted "" rfl) <| read_then (readsBack_text.defaulted "" rfl) <|
      read_then (readsBack_text.defaulted "" rfl) <| ?_
    simp

namespace ManagedFields

def wholeSeconds (f : ManagedFields) : ManagedFields :=
  { f with time := f.time.map Instant.wholeSecond }

/-- What is read back: no fraction of a second, and no set of fields where it is null. -/
def asRead (f : ManagedFields) : ManagedFields :=
  { f with
    fieldsV1 := f.fieldsV1.filter FieldSet.isGiven
    time := f.time.map Instant.wholeSecond }

theorem readsBack : ReadsBack toJson ofJson? asRead where
  notNull _ := nofun
  read _ := by
    refine read_then rfl <| read_then (readsBack_text.optional rfl) <|
      read_then (readsBack_text.optional rfl) <| read_then (FieldSet.optional rfl) <|
      read_then (readsBack_text.optional rfl) <| read_then (readsBack_text.optional rfl) <|
      read_then (readsBack_text.optional rfl) <| read_then (Instant.readsBack.optional rfl) <| ?_
    simp [asRead]

structure Lasts (f : ManagedFields) : Prop where
  given : ∀ set ∈ f.fieldsV1, set.value ≠ .null
  whole : ∀ instant ∈ f.time, instant.nanos.val = 0

theorem asRead_eq_wholeSeconds {f : ManagedFields} :
    f.asRead = f.wholeSeconds ↔ ∀ set ∈ f.fieldsV1, set.value ≠ .null := by
  obtain ⟨_, _, set, _, _, _, _⟩ := f
  cases set <;> simp [asRead, wholeSeconds, FieldSet.isGiven_iff]

theorem asRead_eq_self {f : ManagedFields} : f.asRead = f ↔ f.Lasts := by
  have parts : f.asRead = f ↔ f.fieldsV1.filter FieldSet.isGiven = f.fieldsV1
      ∧ f.time.map Instant.wholeSecond = f.time := by
    obtain ⟨_, _, _, _, _, _, _⟩ := f
    simp [asRead]
  rw [parts, Instant.map_wholeSecond, FieldSet.filter_isGiven]
  exact ⟨fun ⟨given, whole⟩ => ⟨given, whole⟩, fun lasts => ⟨lasts.given, lasts.whole⟩⟩

theorem map_asRead {managed : Option (List ManagedFields)} :
    managed.map (List.map asRead) = managed ↔ ∀ f ∈ managed.getD [], f.Lasts := by
  cases managed with
  | none => simp
  | some fs =>
    have each : fs.map asRead = fs ↔ ∀ f ∈ fs, f.asRead = f := by
      conv => lhs; rhs; rw [← List.map_id fs]
      exact List.map_inj_left
    simp [each, asRead_eq_self]

theorem gives_given : Gives ofJson? fun f => ∀ set ∈ f.fieldsV1, set.value ≠ .null := by
  intro value f read
  unfold ofJson? at read
  iterate 3 obtain ⟨_, -, read⟩ := Option.bind_eq_some_iff.1 read
  obtain ⟨set, there, read⟩ := Option.bind_eq_some_iff.1 read
  iterate 4 obtain ⟨_, -, read⟩ := Option.bind_eq_some_iff.1 read
  cases read
  rintro fields rfl
  obtain ⟨written, notNull, given⟩ := optionalField_eq_some there
  cases given
  exact FieldSet.value_ofJson_ne_null notNull

end ManagedFields

namespace ObjectMeta

variable {m : ObjectMeta}

def instants (m : ObjectMeta) : List Instant :=
  m.creationTimestamp.toList ++ m.deletionTimestamp.toList
    ++ (m.managedFields.getD []).filterMap ManagedFields.time

def fieldSets (m : ObjectMeta) : List FieldSet :=
  (m.managedFields.getD []).filterMap ManagedFields.fieldsV1

def wholeSeconds (m : ObjectMeta) : ObjectMeta :=
  { m with
    creationTimestamp := m.creationTimestamp.map Instant.wholeSecond
    deletionTimestamp := m.deletionTimestamp.map Instant.wholeSecond
    managedFields := m.managedFields.map (List.map ManagedFields.wholeSeconds) }

def asRead (m : ObjectMeta) : ObjectMeta :=
  { m with
    creationTimestamp := m.creationTimestamp.map Instant.wholeSecond
    deletionTimestamp := m.deletionTimestamp.map Instant.wholeSecond
    managedFields := m.managedFields.map (List.map ManagedFields.asRead) }

theorem readsBack : ReadsBack toJson ofJson? asRead where
  notNull _ := nofun
  read _ := by
    refine read_then rfl <| read_then (readsBack_stringMap.optional rfl) <|
      read_then (Instant.readsBack.optional rfl) <| read_then (readsBack_int64.optional rfl) <|
      read_then (Instant.readsBack.optional rfl) <| read_then (readsBack_texts.optional rfl) <|
      read_then (readsBack_text.optional rfl) <| read_then (readsBack_int64.optional rfl) <|
      read_then (readsBack_stringMap.optional rfl) <|
      read_then (ManagedFields.readsBack.list.optional rfl) <|
      read_then (readsBack_text.optional rfl) <| read_then (readsBack_text.optional rfl) <|
      read_then (OwnerReference.readsBack.list.optional rfl) <|
      read_then (readsBack_text.optional rfl) <| read_then (readsBack_text.optional rfl) <|
      read_then (readsBack_text.optional rfl) <| ?_
    simp [asRead]

theorem asRead_eq_wholeSeconds (given : ∀ set ∈ m.fieldSets, set.value ≠ .null) :
    m.asRead = m.wholeSeconds := by
  have each : ∀ f ∈ m.managedFields.getD [], f.asRead = f.wholeSeconds := fun f mem =>
    ManagedFields.asRead_eq_wholeSeconds.2 fun set there =>
      given set (List.mem_filterMap.2 ⟨f, mem, there⟩)
  have managed : m.managedFields.map (List.map ManagedFields.asRead)
      = m.managedFields.map (List.map ManagedFields.wholeSeconds) := by
    cases eq : m.managedFields with
    | none => rfl
    | some fs => exact congrArg some (List.map_congr_left (by simpa [eq] using each))
  rw [asRead, wholeSeconds, managed]

theorem asRead_eq_self :
    m.asRead = m ↔ (∀ instant ∈ m.instants, instant.nanos.val = 0)
      ∧ ∀ set ∈ m.fieldSets, set.value ≠ .null := by
  have parts : m.asRead = m
      ↔ m.creationTimestamp.map Instant.wholeSecond = m.creationTimestamp
      ∧ m.deletionTimestamp.map Instant.wholeSecond = m.deletionTimestamp
      ∧ m.managedFields.map (List.map ManagedFields.asRead) = m.managedFields := by
    obtain ⟨⟩ := m
    simp [asRead]
  have lasts : (∀ f ∈ m.managedFields.getD [], f.Lasts)
      ↔ (∀ f ∈ m.managedFields.getD [], ∀ instant ∈ f.time, instant.nanos.val = 0)
      ∧ ∀ f ∈ m.managedFields.getD [], ∀ set ∈ f.fieldsV1, set.value ≠ .null :=
    ⟨fun all => ⟨fun f mem => (all f mem).whole, fun f mem => (all f mem).given⟩,
      fun ⟨whole, given⟩ f mem => ⟨given f mem, whole f mem⟩⟩
  rw [parts, Instant.map_wholeSecond, Instant.map_wholeSecond, ManagedFields.map_asRead, lasts]
  simp only [instants, fieldSets, List.forall_mem_append, Option.mem_toList, List.mem_filterMap,
    forall_exists_index, and_imp, Option.mem_def, and_assoc]
  grind

theorem gives_given : Gives ofJson? fun m => ∀ set ∈ m.fieldSets, set.value ≠ .null := by
  intro value m read
  unfold ofJson? at read
  iterate 9 obtain ⟨_, -, read⟩ := Option.bind_eq_some_iff.1 read
  obtain ⟨managed, there, read⟩ := Option.bind_eq_some_iff.1 read
  iterate 6 obtain ⟨_, -, read⟩ := Option.bind_eq_some_iff.1 read
  cases read
  intro set mem
  obtain ⟨f, listed, there'⟩ := List.mem_filterMap.1 mem
  cases managed with
  | none => cases listed
  | some fs =>
    obtain ⟨written, -, items⟩ := optionalField_eq_some there
    exact ManagedFields.gives_given.list items f listed set there'

end ObjectMeta

/-! ## Objects -/

namespace Kind

theorem spec_readsBack (k : Kind) : ReadsBack k.specToJson k.specOfJson? id :=
  match k with
  | cluster => ClusterSpec.readsBack
  | dnsRecord => DnsRecordSpec.readsBack

theorem status_readsBack (k : Kind) : ReadsBack k.statusToJson k.statusOfJson? id :=
  match k with
  | cluster => ClusterStatus.readsBack
  | dnsRecord => DnsRecordStatus.readsBack

end Kind

namespace Object

variable {k : Kind}

def wholeSeconds (o : Object k) : Object k := o.mapMeta ObjectMeta.wholeSeconds

/-- What is read back: no fractions of seconds, and no sets of fields that are null. -/
def asRead (o : Object k) : Object k := o.mapMeta ObjectMeta.asRead

theorem readsBack : ReadsBack toJson (ofJson? k) asRead where
  notNull _ := nofun
  read _ := by
    refine read_then rfl <| read_then (ObjectMeta.readsBack.required rfl) <|
      read_then (k.spec_readsBack.required rfl) <| read_then (k.status_readsBack.optional rfl) ?_
    simp [asRead, mapMeta]

theorem asRead_eq_self {o : Object k} :
    o.asRead = o ↔ (∀ instant ∈ o.metadata.instants, instant.nanos.val = 0)
      ∧ ∀ set ∈ o.metadata.fieldSets, set.value ≠ .null := by
  rw [← ObjectMeta.asRead_eq_self]
  obtain ⟨metadata, _, _⟩ := o
  simp [asRead, mapMeta]

theorem gives_given :
    Gives (ofJson? k) fun o => ∀ set ∈ o.metadata.fieldSets, set.value ≠ .null := by
  intro value o read
  unfold ofJson? at read
  obtain ⟨members, -, read⟩ := Option.bind_eq_some_iff.1 read
  obtain ⟨metadata, there, read⟩ := Option.bind_eq_some_iff.1 read
  iterate 2 obtain ⟨_, -, read⟩ := Option.bind_eq_some_iff.1 read
  cases read
  obtain ⟨written, -, there⟩ := Option.bind_eq_some_iff.1 there
  exact ObjectMeta.gives_given there

theorem toJson_wholeSeconds (o : Object k) : o.wholeSeconds.toJson = o.toJson := by
  have fields (f : ManagedFields) : f.wholeSeconds.toJson = f.toJson := by
    simp only [ManagedFields.toJson, ManagedFields.wholeSeconds, Option.map_map]
    rfl
  have written : o.metadata.wholeSeconds.toJson = o.metadata.toJson := by
    simp only [ObjectMeta.toJson, ObjectMeta.wholeSeconds, Option.map_map, Function.comp_def,
      List.map_map, fields]
    rfl
  simp only [toJson, wholeSeconds, mapMeta, written]

/-- An object reads back as it was written exactly if its instants are whole seconds and no set of
fields is null; every other object reads back without these. Whatever an object can be read from,
the object reads back but for the fractions of its instants, and is written in the same way
again. -/
theorem reads_as_written (k : Kind) :
    (∀ o : Object k, ofJson? k o.toJson = some o.asRead
      ∧ (ofJson? k o.toJson = some o ↔ (∀ instant ∈ o.metadata.instants, instant.nanos.val = 0)
        ∧ ∀ set ∈ o.metadata.fieldSets, set.value ≠ .null))
    ∧ ∀ (value : Json) (o : Object k), ofJson? k value = some o →
      ofJson? k o.toJson = some o.wholeSeconds ∧ o.wholeSeconds.toJson = o.toJson := by
  refine ⟨fun o => ⟨readsBack.read o, ?_⟩, fun value o read => ⟨?_, o.toJson_wholeSeconds⟩⟩
  · rw [readsBack.read o, Option.some.injEq, asRead_eq_self]
  · have same := ObjectMeta.asRead_eq_wholeSeconds (gives_given read)
    rw [readsBack.read o, asRead, mapMeta, same, wholeSeconds, mapMeta]

def nginx (created : Instant) : Object .dnsRecord where
  metadata := {
    creationTimestamp := some created
    labels := some .empty
    name := some "nginx"
    ns := some "web" }
  spec := { federationName := "galactic" }
  status := none

/-- A record that is written with a fraction of a second, and with its spec as a list, reads back
without the fraction. -/
theorem reads_as_written_fraction :
    let half : Instant := { seconds := 60, nanos := ⟨500000000, by decide⟩ }
    let value : Json := .obj [
      ("metadata", .obj [
        ("name", .str "nginx"), ("namespace", .str "web"), ("labels", .obj []),
        ("creationTimestamp", .str "1970-01-01T00:01:00.5Z[Etc/UTC]")]),
      ("spec", .arr [.str "galactic", .null, .null]),
      ("status", .null)]
    ofJson? .dnsRecord (nginx half.wholeSecond).toJson = some (nginx half.wholeSecond)
    ∧ ofJson? .dnsRecord value = some (nginx half)
    ∧ ofJson? .dnsRecord (nginx half).toJson = some (nginx half.wholeSecond) := by
  intro half value
  have whole : ∀ instant ∈ (nginx half.wholeSecond).metadata.instants, instant.nanos.val = 0 := by
    decide
  have read : ofJson? .dnsRecord value = some (nginx half) := by decide +kernel
  exact ⟨((reads_as_written .dnsRecord).1 _).2.2 ⟨whole, nofun⟩, read,
    ((reads_as_written .dnsRecord).2 value _ read).1⟩

def managedBy (fields : Option FieldSet) : Object .cluster where
  metadata := {
    name := some "a"
    managedFields := some [{ manager := some "m", fieldsV1 := fields }] }
  spec := {}
  status := none

/-- A set of fields that is null is written, but it is not read back. -/
theorem null_set_is_lost :
    let o := managedBy (some ⟨.null, rfl⟩)
    (∀ instant ∈ o.metadata.instants, instant.nanos.val = 0)
      ∧ ofJson? .cluster o.toJson = some (managedBy none)
      ∧ ofJson? .cluster o.toJson ≠ some o := by
  intro o
  have read : ofJson? .cluster o.toJson = some (managedBy none) := by decide +kernel
  have other : managedBy none ≠ o := by decide +kernel
  refine ⟨by decide, read, fun same => other ?_⟩
  exact Option.some.inj (read.symm.trans same)

end Object

end FleetRegistry
