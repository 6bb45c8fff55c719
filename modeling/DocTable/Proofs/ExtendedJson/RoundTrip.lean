import DocTable.Proofs.ExtendedJson.Scalar
import DocTable.Proofs.Json.Distinct
import DocTable.Proofs.Value

/-!
# Values as extended JSON: reading is the inverse of writing

* `Value.relaxed` — what JSON does not keep of a value: apart from its scalars, the names that a
  document repeats.
* `Document.IsWrapperShaped` — a document that would be taken for a scalar.
* `namesDistinct_toJson` — what is written repeats no name in an object.
* `ofJson_toJson` — any other value is read back, save for what JSON does not keep of it.
-/

set_option autoImplicit false

namespace DocTable

/-! ## What is written -/

theorem Scalar.namesDistinct_toJson (s : Scalar) : s.toJson.NamesDistinct := by
  have hsingle : ∀ {name : String} {content : Json}, content.NamesDistinct →
      (Json.single name content).NamesDistinct := fun hcontent =>
    ⟨List.nodup_singleton _, hcontent, trivial⟩
  cases s with
  | null | bool | int32 | int64 | string => trivial
  | double x =>
    rw [toJson]
    split
    · rename_i j hj
      unfold Json.real? at hj
      split at hj
      · cases hj
        trivial
      · cases hj
    · exact hsingle trivial
  | decimal | code | symbol | objectId => exact hsingle trivial
  | binary =>
    have hnames : ["base64", "subType"].Nodup := by decide
    exact hsingle ⟨hnames, trivial, trivial, trivial⟩
  | dateTime millis =>
    apply hsingle
    split
    · trivial
    · exact hsingle trivial
  | timestamp =>
    have hnames : ["t", "i"].Nodup := by decide
    exact hsingle ⟨hnames, trivial, trivial, trivial⟩

namespace Value

mutual

/-- **No value is written as an object that repeats a name.** -/
theorem namesDistinct_toJson : (v : Value) → v.toJson.NamesDistinct
  | .scalar s => s.namesDistinct_toJson
  | .array items => itemNamesDistinct_toJson items
  | .document fields => Json.namesDistinct_objectOf (memberNamesDistinct_toJson fields)

theorem itemNamesDistinct_toJson : (items : List Value) →
    Json.ItemNamesDistinct (itemsToJson items)
  | [] => trivial
  | v :: items => ⟨namesDistinct_toJson v, itemNamesDistinct_toJson items⟩

theorem memberNamesDistinct_toJson : (fields : List (String × Value)) →
    Json.MemberNamesDistinct (fieldsToJson fields)
  | [] => trivial
  | (_, v) :: fields => ⟨namesDistinct_toJson v, memberNamesDistinct_toJson fields⟩

end

mutual

/-- The value that comes back from JSON. -/
def relaxed : Value → Value
  | .scalar s => .scalar s.relaxed
  | .array items => .array (relaxedItems items)
  | .document fields => .document (mergeNames (relaxedFields fields))

/-- The items of an array that come back from JSON. -/
def relaxedItems : List Value → List Value
  | [] => []
  | v :: items => relaxed v :: relaxedItems items

/-- The fields that come back from JSON before names are merged. -/
def relaxedFields : List (String × Value) → List (String × Value)
  | [] => []
  | (name, v) :: fields => (name, relaxed v) :: relaxedFields fields

end

theorem relaxedFields_eq_map (fields : List (String × Value)) :
    relaxedFields fields = fields.map fun field => (field.1, field.2.relaxed) := by
  induction fields with
  | nil => rfl
  | cons field fields ih => rw [relaxedFields, ih, List.map_cons]

theorem fieldsToJson_eq_map (fields : List (String × Value)) :
    fieldsToJson fields = fields.map fun field => (field.1, field.2.toJson) := by
  induction fields with
  | nil => rfl
  | cons field fields ih => rw [fieldsToJson, ih, List.map_cons]

/-- Merging the names of a document commutes with writing and with relaxing it. -/
theorem toJson_document (fields : List (String × Value)) :
    (document fields).toJson =
      .object ((mergeNames fields).map fun field => (field.1, field.2.toJson)) := by
  rw [toJson, Json.objectOf, Json.members_eq_mergeNames, fieldsToJson_eq_map, mergeNames_map]

theorem relaxed_document (fields : List (String × Value)) :
    (document fields).relaxed =
      .document ((mergeNames fields).map fun field => (field.1, field.2.relaxed)) := by
  rw [relaxed, relaxedFields_eq_map, mergeNames_map]

end Value

/-! ## Documents that look like scalars -/

/-- Merged, the document has one field, and the name of that field announces a scalar. -/
def Document.IsWrapperShaped (doc : Document) : Prop :=
  ∃ name ∈ Wrapper.Name.all, (mergeNames doc).map (·.1) = [name.text]

instance (doc : Document) : Decidable doc.IsWrapperShaped :=
  inferInstanceAs (Decidable (∃ name ∈ Wrapper.Name.all, _))

namespace Wrapper

theorem Name.ofText?_eq_some {text : String} {name : Name} (h : ofText? text = some name) :
    name ∈ all ∧ name.text = text :=
  ⟨List.mem_of_find?_eq_some h, by simpa using List.find?_some h⟩

theorem read_eq_none {members : Json.Members}
    (h : ¬ ∃ name ∈ Name.all, members.map (·.1) = [name.text]) : read members = .ok none := by
  match members with
  | [] => rfl
  | [(name, content)] =>
    rw [read]
    cases hname : Name.ofText? name with
    | none => rfl
    | some wrapper =>
      obtain ⟨hmem, htext⟩ := Name.ofText?_eq_some hname
      exact absurd ⟨wrapper, hmem, by rw [htext]; rfl⟩ h
  | _ :: _ :: _ => rfl

end Wrapper

namespace Value

/-! ## Members -/

theorem itemsOfJsonAt_items {depth : Nat} {items : List Value}
    (h : ∀ v ∈ items, ofJsonAt depth v.toJson = .ok v.relaxed) :
    itemsOfJsonAt depth (itemsToJson items) = .ok (relaxedItems items) := by
  induction items with
  | nil => rfl
  | cons v items ih =>
    obtain ⟨hv, hitems⟩ := List.forall_mem_cons.1 h
    rw [itemsToJson, itemsOfJsonAt, hv, Steps.ok_bind, ih hitems, Steps.ok_bind, relaxedItems]

theorem fieldsOfJsonAt_fields {depth : Nat} {fields : List (String × Value)}
    (h : ∀ field ∈ fields, ofJsonAt depth field.2.toJson = .ok field.2.relaxed) :
    fieldsOfJsonAt depth (fields.map fun field => (field.1, field.2.toJson)) =
      .ok (fields.map fun field => (field.1, field.2.relaxed)) := by
  induction fields with
  | nil => rfl
  | cons field fields ih =>
    obtain ⟨hfield, hfields⟩ := List.forall_mem_cons.1 h
    rw [List.map_cons, fieldsOfJsonAt, hfield, Steps.ok_bind, ih hfields, Steps.ok_bind,
      List.map_cons]

/-! ## The round trip -/

/-- A value below `depth` containers is read back if it nests no deeper than is left. -/
theorem ofJsonAt_toJson (v : Value) : ∀ {depth : Nat}, depth + v.depth ≤ maxDepth →
    (∀ doc ∈ v.documents, ¬ doc.IsWrapperShaped) →
    (∀ d ∈ v.decimals, Decimal128.read d.text = .ok d) →
    ofJsonAt depth v.toJson = .ok v.relaxed := by
  induction v using Value.induction with
  | scalar s =>
    intro depth _ _ hdecimal
    rw [toJson, relaxed]
    refine Scalar.ofJsonAt_toJson s ?_
    rintro d rfl
    exact hdecimal d (mem_decimals_self d)
  | array items ih =>
    intro depth hdepth hwrapper hdecimal
    rw [Value.depth] at hdepth
    rw [toJson, ofJsonAt, if_neg (by omega), itemsOfJsonAt_items, Steps.map_ok, relaxed]
    intro v hv
    have hparts := parts_subset_of_item hv
    have hle := depth_le_depthItems hv
    exact ih v hv (by omega) (fun doc hdoc => hwrapper doc (documents_subset hparts hdoc))
      fun d hd => hdecimal d (decimals_subset hparts hd)
  | document fields ih =>
    intro depth hdepth hwrapper hdecimal
    rw [Value.depth] at hdepth
    have hread : Wrapper.read ((mergeNames fields).map fun field => (field.1, field.2.toJson))
        = .ok none := by
      refine Wrapper.read_eq_none ?_
      rw [List.map_map]
      exact hwrapper fields (mem_documents_self fields)
    rw [toJson_document, relaxed_document, ofJsonAt, hread, Steps.ok_bind]
    show (if maxDepth ≤ depth then _ else _) = _
    rw [if_neg (by omega), fieldsOfJsonAt_fields, Steps.map_ok]
    intro field hmerged
    have hfield := mem_of_mem_mergeNames hmerged
    have hparts := parts_subset_of_field hfield
    have hle := depth_le_depthFields hfield
    exact ih field hfield (by omega)
      (fun doc hdoc => hwrapper doc (documents_subset hparts hdoc))
      fun d hd => hdecimal d (decimals_subset hparts hd)

/-- **The round trip through extended JSON.**  A value in which no document looks like a scalar is
read back as its relaxed form, provided that each of its decimals is read back from its own text.
Dates are written as text in the years 1970 to 9999 and as numbers outside them. -/
theorem ofJson_toJson (v : Value) (hdepth : v.depth ≤ 100)
    (hwrapper : ∀ doc ∈ v.documents, ¬ doc.IsWrapperShaped)
    (hdecimal : ∀ d ∈ v.decimals, Decimal128.read d.text = .ok d) :
    ofJson v.toJson = .ok v.relaxed ∧
      ∀ millis : Int64, (scalar (.dateTime millis)).toJson =
        .single "$date"
          (if 1970 ≤ (Instant.date millis.toInt).year ∧
              (Instant.date millis.toInt).year ≤ 9999 then
            .string (Instant.text millis.toInt)
          else .single "$numberLong" (.string (intText millis.toInt))) := by
  refine ⟨ofJsonAt_toJson v ?_ hwrapper hdecimal, Scalar.toJson_dateTime⟩
  rw [Nat.zero_add]
  exact hdepth

/-- A repeated name, a small number of 64 bits, dates on both sides of 1970, a NaN with a payload, a
decimal and an old binary; a wrapper name among other names is a name like any other. -/
theorem ofJson_toJson_mixed :
    ofJson (toJson (.document [("a", .scalar (.int64 7)),
        ("$date", .array [.scalar (.dateTime 0), .scalar (.dateTime (-1)),
          .scalar (.double ⟨0xfff8000000000001⟩),
          .scalar (.decimal ⟨0x30400000000000000000000000000001⟩)]),
        ("a", .scalar (.binary 2 [0xff]))])) =
      .ok (.document [("a", .scalar (.binary 2 [0xff])),
        ("$date", .array [.scalar (.dateTime 0), .scalar (.dateTime (-1)),
          .scalar (.double .nan),
          .scalar (.decimal ⟨0x30400000000000000000000000000001⟩)])]) := by
  refine (ofJson_toJson _ (by decide) (by decide) fun d hd => ?_).1
  cases List.mem_singleton.1 hd
  rfl

end Value

end DocTable
