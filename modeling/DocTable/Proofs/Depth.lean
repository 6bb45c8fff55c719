import DocTable.Proofs.ExtendedJson.RoundTrip
import DocTable.Proofs.Wire.Decoding

/-!
# The nesting limit

The two readers and the writer count the containers around a value each in its own way: the reader
of the wire before it goes into one, the reader of JSON and the writer as they enter it. All of them
stop at the same level.

* `Json.depth` — the levels of a JSON value. A wrapper is a scalar, so it is no level, and neither is
  anything in it.
* `Value.depth_of_ofJsonAt`, `Value.exists_of_ofJsonAt` — the reader of JSON counts these levels, and
  stops for no other reason than too many of them where all wrappers can be read.
* `Value.wellWrapped_of_ofJsonAt`, `Document.exists_ofJson_iff` — and what it gives comes from such
  JSON only.
* `Wire.Form.length_bytes_ofValue_le` — the keys of array elements aside, writing what was read takes
  no more bytes than were read.
* `nesting_limit_shared` — what either reader gives can be written, and is then read back.
-/

set_option autoImplicit false

namespace DocTable

/-! ## Levels of a JSON value -/

namespace Json

/-- The only member of the object has a name that announces a scalar. -/
def IsWrapper (members : Members) : Prop :=
  ∃ name ∈ Wrapper.Name.all, members.map (·.1) = [name.text]

instance (members : Members) : Decidable (IsWrapper members) :=
  inferInstanceAs (Decidable (∃ name ∈ Wrapper.Name.all, _))

mutual

/-- The number of arrays and objects on the deepest path into a value, itself included; wrappers and
what they hold are not counted. -/
def depth : Json → Nat
  | .null => 0
  | .bool _ => 0
  | .number _ => 0
  | .string _ => 0
  | .array items => depthItems items + 1
  | .object members => if IsWrapper members then 0 else depthMembers members + 1

/-- The greatest depth among the items of an array. -/
def depthItems : List Json → Nat
  | [] => 0
  | j :: items => max (depth j) (depthItems items)

/-- The greatest depth among the members of an object. -/
def depthMembers : Members → Nat
  | [] => 0
  | (_, j) :: members => max (depth j) (depthMembers members)

end

mutual

/-- Every wrapper in a value holds what its name announces. What a wrapper holds is its content, and
no further wrapper is looked for there. -/
def WellWrapped : Json → Prop
  | .null => True
  | .bool _ => True
  | .number _ => True
  | .string _ => True
  | .array items => ItemsWellWrapped items
  | .object members =>
    if IsWrapper members then ∃ s, Wrapper.read members = .ok (some s)
    else MembersWellWrapped members

/-- Every wrapper in the items of an array holds what its name announces. -/
def ItemsWellWrapped : List Json → Prop
  | [] => True
  | j :: items => WellWrapped j ∧ ItemsWellWrapped items

/-- Every wrapper in the members of an object holds what its name announces. -/
def MembersWellWrapped : Members → Prop
  | [] => True
  | (_, j) :: members => WellWrapped j ∧ MembersWellWrapped members

end

end Json

namespace Wrapper

/-- Only a wrapper is read as a scalar. -/
theorem isWrapper_of_read {members : Json.Members} {s : Scalar}
    (h : read members = .ok (some s)) : Json.IsWrapper members := by
  by_contra hplain
  rw [read_eq_none hplain] at h
  cases h

/-- A wrapper is read as a scalar or not at all. -/
theorem not_isWrapper_of_read {members : Json.Members} (h : read members = .ok none) :
    ¬ Json.IsWrapper members := by
  rintro ⟨name, -, hnames⟩
  obtain ⟨⟨_, content⟩, rfl, rfl⟩ := List.map_eq_singleton_iff.1 hnames
  rw [read, Name.ofText?_text] at h
  obtain ⟨found, -, h⟩ := Steps.bind_eq_ok.1 h
  cases found <;> cases h

end Wrapper

/-! ## Reading JSON -/

namespace Value

mutual

/-- **What is read** from JSON below `depth` containers has the levels of the JSON, and they are no
more than are left. -/
theorem depth_of_ofJsonAt : ∀ (j : Json) {depth : Nat} (_ : depth ≤ maxDepth) {v : Value},
    ofJsonAt depth j = .ok v → v.depth = j.depth ∧ depth + j.depth ≤ maxDepth
  | .null, depth, hd, v, h | .bool _, depth, hd, v, h | .number _, depth, hd, v, h
  | .string _, depth, hd, v, h => by
    rw [ofJsonAt] at h
    cases h
    exact ⟨rfl, hd⟩
  | .array items, depth, hd, v, h => by
    rw [ofJsonAt] at h
    split at h
    · cases h
    · rename_i hroom
      obtain ⟨vs, hvs, rfl⟩ := Steps.map_eq_ok.1 h
      obtain ⟨hsame, hle⟩ := depth_of_itemsOfJsonAt items (by omega) hvs
      rw [Value.depth, Json.depth, hsame]
      exact ⟨rfl, by omega⟩
  | .object members, depth, hd, v, h => by
    rw [ofJsonAt] at h
    obtain ⟨found, hread, h⟩ := Steps.bind_eq_ok.1 h
    rw [Json.depth]
    cases found with
    | some s =>
      cases h
      rw [if_pos (Wrapper.isWrapper_of_read hread)]
      exact ⟨rfl, hd⟩
    | none =>
      rw [if_neg (Wrapper.not_isWrapper_of_read hread)]
      simp only at h
      split at h
      · cases h
      · rename_i hroom
        obtain ⟨fields, hfields, rfl⟩ := Steps.map_eq_ok.1 h
        obtain ⟨hsame, hle⟩ := depth_of_fieldsOfJsonAt members (by omega) hfields
        rw [Value.depth, hsame]
        exact ⟨rfl, by omega⟩

theorem depth_of_itemsOfJsonAt : ∀ (items : List Json) {depth : Nat} (_ : depth ≤ maxDepth)
    {vs : List Value}, itemsOfJsonAt depth items = .ok vs →
      depthItems vs = Json.depthItems items ∧ depth + Json.depthItems items ≤ maxDepth
  | [], depth, hd, vs, h => by
    cases h
    exact ⟨rfl, hd⟩
  | j :: items, depth, hd, vs, h => by
    rw [itemsOfJsonAt] at h
    obtain ⟨v, hv, h⟩ := Steps.bind_eq_ok.1 h
    obtain ⟨rest, hrest, h⟩ := Steps.bind_eq_ok.1 h
    cases h
    obtain ⟨hsame, hle⟩ := depth_of_ofJsonAt j hd hv
    obtain ⟨hsames, hles⟩ := depth_of_itemsOfJsonAt items hd hrest
    rw [depthItems, Json.depthItems, hsame, hsames]
    exact ⟨rfl, by omega⟩

theorem depth_of_fieldsOfJsonAt : ∀ (members : Json.Members) {depth : Nat}
    (_ : depth ≤ maxDepth) {fields : List (String × Value)},
    fieldsOfJsonAt depth members = .ok fields →
      depthFields fields = Json.depthMembers members ∧ depth + Json.depthMembers members ≤ maxDepth
  | [], depth, hd, fields, h => by
    cases h
    exact ⟨rfl, hd⟩
  | (name, j) :: members, depth, hd, fields, h => by
    rw [fieldsOfJsonAt] at h
    obtain ⟨v, hv, h⟩ := Steps.bind_eq_ok.1 h
    obtain ⟨rest, hrest, h⟩ := Steps.bind_eq_ok.1 h
    cases h
    obtain ⟨hsame, hle⟩ := depth_of_ofJsonAt j hd hv
    obtain ⟨hsames, hles⟩ := depth_of_fieldsOfJsonAt members hd hrest
    rw [depthFields, Json.depthMembers, hsame, hsames]
    exact ⟨rfl, by omega⟩

end

mutual

/-- **Nothing else is refused**: JSON whose wrappers can be read is read if it nests no deeper than
is left. -/
theorem exists_of_ofJsonAt : ∀ (j : Json) (depth : Nat), j.WellWrapped →
    depth + j.depth ≤ maxDepth → ∃ v, ofJsonAt depth j = .ok v
  | .null, _, _, _ | .bool _, _, _, _ | .number _, _, _, _ | .string _, _, _, _ => by
    rw [ofJsonAt]
    exact ⟨_, rfl⟩
  | .array items, depth, hwell, hle => by
    rw [Json.depth] at hle
    rw [Json.WellWrapped] at hwell
    obtain ⟨vs, hvs⟩ := exists_of_itemsOfJsonAt items (depth + 1) hwell (by omega)
    rw [ofJsonAt, if_neg (by omega), hvs]
    exact ⟨_, rfl⟩
  | .object members, depth, hwell, hle => by
    rw [Json.depth] at hle
    rw [Json.WellWrapped] at hwell
    by_cases hwrapper : Json.IsWrapper members
    · rw [if_pos hwrapper] at hwell
      obtain ⟨s, hs⟩ := hwell
      rw [ofJsonAt, hs, Steps.ok_bind]
      exact ⟨_, rfl⟩
    · rw [if_neg hwrapper] at hwell hle
      obtain ⟨fields, hfields⟩ := exists_of_fieldsOfJsonAt members (depth + 1) hwell
        (by omega)
      rw [ofJsonAt, Wrapper.read_eq_none hwrapper, Steps.ok_bind]
      simp only
      rw [if_neg (by omega), hfields]
      exact ⟨_, rfl⟩

theorem exists_of_itemsOfJsonAt : ∀ (items : List Json) (depth : Nat),
    Json.ItemsWellWrapped items → depth + Json.depthItems items ≤ maxDepth →
      ∃ vs, itemsOfJsonAt depth items = .ok vs
  | [], _, _, _ => ⟨[], rfl⟩
  | j :: items, depth, hwell, hle => by
    rw [Json.depthItems] at hle
    obtain ⟨v, hv⟩ := exists_of_ofJsonAt j depth hwell.1 (by omega)
    obtain ⟨vs, hvs⟩ := exists_of_itemsOfJsonAt items depth hwell.2 (by omega)
    rw [itemsOfJsonAt, hv, Steps.ok_bind, hvs]
    exact ⟨_, rfl⟩

theorem exists_of_fieldsOfJsonAt : ∀ (members : Json.Members) (depth : Nat),
    Json.MembersWellWrapped members → depth + Json.depthMembers members ≤ maxDepth →
      ∃ fields, fieldsOfJsonAt depth members = .ok fields
  | [], _, _, _ => ⟨[], rfl⟩
  | (name, j) :: members, depth, hwell, hle => by
    rw [Json.depthMembers] at hle
    obtain ⟨v, hv⟩ := exists_of_ofJsonAt j depth hwell.1 (by omega)
    obtain ⟨fields, hfields⟩ := exists_of_fieldsOfJsonAt members depth hwell.2 (by omega)
    rw [fieldsOfJsonAt, hv, Steps.ok_bind, hfields]
    exact ⟨_, rfl⟩

end

mutual

/-- **What is read** from JSON has wrappers that can be read. -/
theorem wellWrapped_of_ofJsonAt : ∀ (j : Json) {depth : Nat} {v : Value},
    ofJsonAt depth j = .ok v → j.WellWrapped
  | .null, _, _, _ | .bool _, _, _, _ | .number _, _, _, _ | .string _, _, _, _ => trivial
  | .array items, depth, v, h => by
    rw [ofJsonAt] at h
    split at h
    · cases h
    · obtain ⟨vs, hvs, -⟩ := Steps.map_eq_ok.1 h
      exact wellWrapped_of_itemsOfJsonAt items hvs
  | .object members, depth, v, h => by
    rw [ofJsonAt] at h
    obtain ⟨found, hread, h⟩ := Steps.bind_eq_ok.1 h
    rw [Json.WellWrapped]
    cases found with
    | some s =>
      rw [if_pos (Wrapper.isWrapper_of_read hread)]
      exact ⟨s, hread⟩
    | none =>
      rw [if_neg (Wrapper.not_isWrapper_of_read hread)]
      simp only at h
      split at h
      · cases h
      · obtain ⟨fields, hfields, -⟩ := Steps.map_eq_ok.1 h
        exact wellWrapped_of_fieldsOfJsonAt members hfields

theorem wellWrapped_of_itemsOfJsonAt : ∀ (items : List Json) {depth : Nat} {vs : List Value},
    itemsOfJsonAt depth items = .ok vs → Json.ItemsWellWrapped items
  | [], _, _, _ => trivial
  | j :: items, depth, vs, h => by
    rw [itemsOfJsonAt] at h
    obtain ⟨v, hv, h⟩ := Steps.bind_eq_ok.1 h
    obtain ⟨rest, hrest, -⟩ := Steps.bind_eq_ok.1 h
    exact ⟨wellWrapped_of_ofJsonAt j hv, wellWrapped_of_itemsOfJsonAt items hrest⟩

theorem wellWrapped_of_fieldsOfJsonAt : ∀ (members : Json.Members) {depth : Nat}
    {fields : List (String × Value)},
    fieldsOfJsonAt depth members = .ok fields → Json.MembersWellWrapped members
  | [], _, _, _ => trivial
  | (name, j) :: members, depth, fields, h => by
    rw [fieldsOfJsonAt] at h
    obtain ⟨v, hv, h⟩ := Steps.bind_eq_ok.1 h
    obtain ⟨rest, hrest, -⟩ := Steps.bind_eq_ok.1 h
    exact ⟨wellWrapped_of_ofJsonAt j hv, wellWrapped_of_fieldsOfJsonAt members hrest⟩

end

end Value

/-! ## Writing again what was read -/

namespace Wire.Form

mutual

/-- The names in a value are among the names and keys of its form. -/
theorem allFit_of_namesFit : ∀ f : Form, f.NamesFit → AllFit f.value.fieldNames
  | scalar _, _ => allFit_nil
  | array items, h => by
    rw [value, Value.fieldNames]
    exact (allFit_of_fieldNamesFit items h).2
  | document fields, h => by
    rw [value, Value.fieldNames]
    exact (allFit_of_fieldNamesFit fields h).1

theorem allFit_of_fieldNamesFit : ∀ fields : List (String × Form), FieldNamesFit fields →
    AllFit (Value.fieldNamesOfFields (fieldValues fields)) ∧
      AllFit (Value.fieldNamesOfItems ((fieldValues fields).map (·.2)))
  | [], _ => ⟨allFit_nil, allFit_nil⟩
  | (name, f) :: fields, h => by
    obtain ⟨hname, hf, hfields⟩ := h
    obtain ⟨hnames, hitems⟩ := allFit_of_fieldNamesFit fields hfields
    have hvalue := allFit_of_namesFit f hf
    rw [fieldValues, Value.fieldNamesOfFields, List.map_cons, Value.fieldNamesOfItems]
    exact ⟨allFit_cons.2 ⟨hname, allFit_append.2 ⟨hvalue, hnames⟩⟩,
      allFit_append.2 ⟨hvalue, hitems⟩⟩

end

theorem length_bytes_natText_le (index : Nat) (h : index < 2 ^ 31) :
    (Utf8.bytes (natText index)).length ≤ 10 := by
  rw [Utf8.bytes, natText, String.toList_ofList,
    Utf8.encode_ascii fun c hc => (decimalDigits_ascii index c hc).2, List.length_map,
    length_decimalDigits_le_iff (by decide)]
  omega

theorem length_le_elementBytes : ∀ items : List (String × Form),
    items.length ≤ (elementBytes items).length
  | [] => Nat.le_refl _
  | (key, f) :: items => by
    have hitems := length_le_elementBytes items
    rw [elementBytes, List.length_append, List.length_append, length_headerBytes, List.length_cons]
    omega

mutual

/-- An index takes at most ten digits where an element takes at least two bytes. -/
theorem length_bytes_ofValue_le : ∀ f : Form, f.bytes.length < 2 ^ 31 →
    (ofValue f.value).bytes.length ≤ 6 * f.bytes.length
  | scalar s, _ => by
    rw [value, ofValue, bytes]
    omega
  | array items, h => by
    rw [bytes, length_containerBytes] at h
    have hlength := length_le_elementBytes items
    have hitems := length_elementBytes_ofItems_le items 0 (by omega) (by omega)
    rw [value, ofValue, bytes, bytes, length_containerBytes, length_containerBytes]
    omega
  | document fields, h => by
    rw [bytes, length_containerBytes] at h
    have hfields := length_elementBytes_ofFields_le fields (by omega)
    rw [value, ofValue, bytes, bytes, length_containerBytes, length_containerBytes]
    omega

theorem length_elementBytes_ofItems_le : ∀ (items : List (String × Form)) (index : Nat),
    index + items.length < 2 ^ 31 → (elementBytes items).length < 2 ^ 31 →
      (elementBytes (ofItems index ((fieldValues items).map (·.2)))).length ≤
        6 * (elementBytes items).length
  | [], _, _, _ => Nat.zero_le _
  | (key, f) :: items, index, hindex, h => by
    rw [elementBytes, List.length_append, List.length_append, length_headerBytes] at h
    rw [List.length_cons] at hindex
    have hf := length_bytes_ofValue_le f (by omega)
    have hitems := length_elementBytes_ofItems_le items (index + 1) (by omega) (by omega)
    have hkey := length_bytes_natText_le index (by omega)
    rw [fieldValues, List.map_cons, ofItems, elementBytes, elementBytes]
    simp only [List.length_append, length_headerBytes]
    omega

theorem length_elementBytes_ofFields_le : ∀ fields : List (String × Form),
    (elementBytes fields).length < 2 ^ 31 →
      (elementBytes (ofFields (fieldValues fields))).length ≤ 6 * (elementBytes fields).length
  | [], _ => Nat.zero_le _
  | (name, f) :: fields, h => by
    rw [elementBytes, List.length_append, List.length_append, length_headerBytes] at h
    have hf := length_bytes_ofValue_le f (by omega)
    have hfields := length_elementBytes_ofFields_le fields (by omega)
    rw [fieldValues, ofFields, elementBytes, elementBytes]
    simp only [List.length_append, length_headerBytes]
    omega

end

end Wire.Form

namespace Document

open Wire

/-- A document within the limit is written if its names can be, and read back. -/
theorem exists_encode {doc : Document} (hdepth : doc.depth ≤ maxDepth)
    (hfit : AllFit (Value.document doc).fieldNames) :
    ∃ bytes, encode doc = .ok bytes ∧ bytes.length = doc.layout.length ∧
      (bytes.length < 2 ^ 31 → decode bytes = .ok doc) := by
  have hencode := encode_eq_ok_iff.2 ⟨hdepth, hfit, rfl⟩
  exact ⟨_, hencode, rfl, decode_of_encode hencode⟩

/-- The levels of what is read from an object are those of its members, and its own. -/
theorem depth_of_ofJson {members : Json.Members} {doc : Document}
    (h : ofJson (.object members) = .ok doc) :
    doc.depth = Json.depthMembers members + 1 ∧ doc.depth ≤ maxDepth := by
  obtain ⟨hsame, hle⟩ := Value.depth_of_fieldsOfJsonAt members (by decide) h
  rw [depth, Value.depth, hsame]
  exact ⟨rfl, by omega⟩

/-- **An object is a document** exactly if its wrappers can be read and it nests to 100 levels. -/
theorem exists_ofJson_iff {members : Json.Members} :
    (∃ doc, ofJson (.object members) = .ok doc) ↔
      Json.MembersWellWrapped members ∧ Json.depthMembers members + 1 ≤ 100 := by
  constructor
  · rintro ⟨doc, hdoc⟩
    obtain ⟨hsame, hle⟩ := depth_of_ofJson hdoc
    rw [maxDepth] at hle
    exact ⟨Value.wellWrapped_of_fieldsOfJsonAt members hdoc, by omega⟩
  · rintro ⟨hwell, hle⟩
    exact Value.exists_of_fieldsOfJsonAt members 1 hwell (by rw [maxDepth]; omega)

theorem depth_le_of_parse {text : String} {doc : Document} (h : parse text = .ok doc) :
    doc.depth ≤ maxDepth := by
  unfold parse at h
  split at h
  · rename_i j _
    cases j with
    | object members => exact (depth_of_ofJson h).2
    | null | bool | number | string | array => cases h
  · cases h

/-- **One nesting limit.**  JSON whose wrappers can be read is refused exactly where it nests deeper
than 100 levels, and what is read else has as many levels as the JSON. So whatever either reader
gives can be written and read back, unless its layout reaches `2 ^ 31` bytes or a name that came from
JSON holds U+0000. -/
theorem nesting_limit_shared :
    (∀ members : Json.Members, Json.MembersWellWrapped members →
      ((∃ error, ofJson (.object members) = .error error) ↔ 100 < Json.depthMembers members + 1) ∧
      (Json.depthMembers members + 1 ≤ 100 →
        ∃ doc, ofJson (.object members) = .ok doc ∧ doc.depth = Json.depthMembers members + 1)) ∧
    (∀ (text : String) (doc : Document), parse text = .ok doc →
      doc.depth ≤ 100 ∧
      ((∀ name ∈ (Value.document doc).fieldNames, '\x00' ∉ name.toList) →
        ∃ bytes, encode doc = .ok bytes ∧ (bytes.length < 2 ^ 31 → decode bytes = .ok doc))) ∧
    ∀ (bytes : Bytes) (doc : Document), decode bytes = .ok doc →
      doc.depth ≤ 100 ∧
      ∃ again, encode doc = .ok again ∧ (again.length < 2 ^ 31 → decode again = .ok doc) ∧
        again.length ≤ 6 * bytes.length := by
  refine ⟨fun members hwell => ?_, fun text doc hparse => ?_, fun bytes doc hdecode => ?_⟩
  · have hread : Json.depthMembers members + 1 ≤ 100 →
        ∃ doc, ofJson (.object members) = .ok doc ∧ doc.depth = Json.depthMembers members + 1 := by
      intro hle
      obtain ⟨doc, hdoc⟩ := Value.exists_of_fieldsOfJsonAt members 1 hwell
        (by rw [maxDepth]; omega)
      exact ⟨doc, hdoc, (depth_of_ofJson hdoc).1⟩
    refine ⟨⟨?_, ?_⟩, hread⟩
    · rintro ⟨error, herror⟩
      by_contra hle
      obtain ⟨doc, hdoc, -⟩ := hread (by omega)
      rw [hdoc] at herror
      cases herror
    · intro hdeep
      cases hdoc : ofJson (.object members) with
      | error error => exact ⟨error, rfl⟩
      | ok doc =>
        obtain ⟨hsame, hle⟩ := depth_of_ofJson hdoc
        rw [maxDepth] at hle
        omega
  · have hdepth := depth_le_of_parse hparse
    refine ⟨hdepth, fun hnames => ?_⟩
    have hfit : AllFit (Value.document doc).fieldNames := fun name hname =>
      nameFits_iff.2 fun hzero => hnames name hname (Utf8.zero_mem_bytes_iff.1 hzero)
    obtain ⟨bytes, hencode, -, hdecode⟩ := exists_encode hdepth hfit
    exact ⟨bytes, hencode, hdecode⟩
  · obtain ⟨hlt, hdepth, form, hform, rfl⟩ := decode_eq_ok_iff.1 hdecode
    have hfit := Form.allFit_of_namesFit form hform.namesFit
    rw [hform.value_eq] at hfit
    obtain ⟨again, hencode, hlength, hagain⟩ := exists_encode hdepth hfit
    refine ⟨hdepth, again, hencode, hagain, ?_⟩
    rw [hlength, layout, ← hform.value_eq]
    exact Form.length_bytes_ofValue_le form hlt

/-- A wrapper name at the top or among other names makes no wrapper, and what a wrapper holds is no
level. An array that was read with a foreign key is written with an index. -/
theorem nesting_limit_shared_mixed :
    (∃ doc, ofJson (.object [("$code", .array
        [.object [("$timestamp", .object [("t", .ofUInt32 1), ("i", .ofUInt32 2), ("u", .array [])])],
          .object [("$date", .null), ("b", .array [])]])]) = .ok doc ∧ doc.depth = 4) ∧
    (∃ bytes, encode [("a", .array [.array []])] = .ok bytes ∧
      decode bytes = .ok [("a", .array [.array []])]) ∧
    ∃ again, encode [("a", .array [.scalar (.bool true)])] = .ok again ∧ again.length ≤ 6 * 17 ∧
      decode again = .ok [("a", .array [.scalar (.bool true)])] := by
  obtain ⟨hjson, hparse, hdecode⟩ := nesting_limit_shared
  refine ⟨(hjson _ ?_).2 (by decide), ?_, ?_⟩
  · exact ⟨⟨⟨_, rfl⟩, ⟨trivial, trivial, trivial⟩, trivial⟩, trivial⟩
  · obtain ⟨-, hwritten⟩ := hparse "\x7b\"a\":[[]]\x7d" [("a", .array [.array []])] (by cbv)
    obtain ⟨bytes, hencode, hagain⟩ := hwritten (by decide)
    refine ⟨bytes, hencode, hagain ?_⟩
    rw [← Except.ok.inj hencode]
    decide
  · obtain ⟨-, again, hencode, hagain, hlength⟩ := hdecode
      [17, 0, 0, 0, 4, 97, 0, 9, 0, 0, 0, 8, 120, 0, 1, 0, 0] _ rfl
    exact ⟨again, hencode, hlength, hagain (by rw [← Except.ok.inj hencode]; decide)⟩

end Document

end DocTable
