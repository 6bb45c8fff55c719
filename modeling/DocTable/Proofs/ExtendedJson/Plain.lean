import DocTable.Proofs.Depth
import DocTable.Proofs.Json.Distinct

/-!
# Plain JSON: writing is the inverse of reading

Plain JSON holds no wrapper, and no integer beyond the signed ones of 64 bits.

* `Json.plainValue` — the value of plain JSON, told by its shape alone: every object is a document,
  and every number keeps its kind.
* `ofJsonAt_of_isPlain` — plain JSON is read as this value, by induction on the JSON.
* `toJson_plainValue` — and the value is written as the JSON that it is of, with its members in the
  same order.
* `plain_passes_through` — both together.
-/

set_option autoImplicit false

namespace DocTable.Json

/-! ## Plain JSON and its value -/

/-- An integer has no more than 64 bits, its sign included. -/
def Number.IsSigned : Number → Prop
  | integer n _ => n < 2 ^ 63
  | real _ _ => True

mutual

/-- No object in a value is a wrapper, and no integer goes beyond the signed ones of 64 bits. -/
def IsPlain : Json → Prop
  | .null => True
  | .bool _ => True
  | .number n => n.IsSigned
  | .string _ => True
  | .array items => ItemsPlain items
  | .object members => ¬ IsWrapper members ∧ MembersPlain members

/-- All items of an array are plain. -/
def ItemsPlain : List Json → Prop
  | [] => True
  | j :: items => IsPlain j ∧ ItemsPlain items

/-- The values of all members of an object are plain. -/
def MembersPlain : Members → Prop
  | [] => True
  | (_, j) :: members => IsPlain j ∧ MembersPlain members

end

/-- An integer has 32 bits where these are enough, else 64; what is no integer is a double. -/
def Number.plainScalar : Number → Scalar
  | integer n _ =>
    if -(2 ^ 31) ≤ n ∧ n < 2 ^ 31 then .int32 (Int32.ofInt n) else .int64 (Int64.ofInt n)
  | real x _ => .double x

mutual

/-- The value of plain JSON. An object is a document with a field for each of its members, whatever
their names are. -/
def plainValue : Json → Value
  | .null => .null
  | .bool b => .scalar (.bool b)
  | .number n => .scalar n.plainScalar
  | .string s => .scalar (.string s)
  | .array items => .array (plainItems items)
  | .object members => .document (plainFields members)

/-- The values of the items of an array. -/
def plainItems : List Json → List Value
  | [] => []
  | j :: items => plainValue j :: plainItems items

/-- The fields of an object, one for each member. -/
def plainFields : Members → Document
  | [] => []
  | (name, j) :: members => (name, plainValue j) :: plainFields members

end

/-! ## Numbers -/

theorem ofNumber_of_isSigned {n : Number} (h : n.IsSigned) :
    Value.ofNumber n = n.plainScalar := by
  cases n with
  | real x finite => rfl
  | integer n inRange =>
    rw [Number.IsSigned] at h
    rw [Value.ofNumber, Number.plainScalar]
    by_cases hfits : -(2 ^ 31) ≤ n ∧ n < 2 ^ 31
    · rw [if_pos hfits, if_pos ⟨by omega, by omega⟩]
    · rw [if_neg hfits, if_neg (by omega), if_pos (by omega)]

/-- A number keeps its value and its kind. -/
theorem toJson_plainScalar {n : Number} (h : n.IsSigned) : n.plainScalar.toJson = .number n := by
  cases n with
  | real x finite =>
    simp only [Number.plainScalar, Scalar.toJson, real?, finite, dite_true]
  | integer n inRange =>
    rw [Number.IsSigned] at h
    have hleast : -(2 ^ 63) ≤ n := by
      have := inRange.1
      omega
    rw [Number.plainScalar]
    split
    · rename_i hfits
      have hn : (Int32.ofInt n).toInt = n := Int32.toInt_ofInt_of_le hfits.1 hfits.2
      simp only [Scalar.toJson, ofInt32, ofInt, hn]
    · have hn : (Int64.ofInt n).toInt = n := Int64.toInt_ofInt_of_le hleast h
      simp only [Scalar.toJson, ofInt64, ofInt, hn]

/-! ## Reading -/

mutual

/-- **Plain JSON is read** as its value wherever it nests no deeper than is left. -/
theorem ofJsonAt_of_isPlain : ∀ (j : Json) {depth : Nat}, j.IsPlain →
    depth + j.depth ≤ maxDepth → Value.ofJsonAt depth j = .ok j.plainValue
  | .null, _, _, _ | .bool _, _, _, _ | .string _, _, _, _ => by
    rw [Value.ofJsonAt, plainValue]
  | .number n, depth, hplain, _ => by
    rw [Value.ofJsonAt, ofNumber_of_isSigned hplain, plainValue]
  | .array items, depth, hplain, hle => by
    rw [Json.depth] at hle
    have hitems := itemsOfJsonAt_of_itemsPlain items hplain
      (by omega : depth + 1 + depthItems items ≤ maxDepth)
    rw [Value.ofJsonAt, if_neg (by omega), hitems, Steps.map_ok, plainValue]
  | .object members, depth, hplain, hle => by
    obtain ⟨hwrapper, hmembers⟩ := hplain
    rw [Json.depth, if_neg hwrapper] at hle
    have hfields := fieldsOfJsonAt_of_membersPlain members hmembers
      (by omega : depth + 1 + depthMembers members ≤ maxDepth)
    rw [Value.ofJsonAt, Wrapper.read_eq_none hwrapper, Steps.ok_bind]
    simp only
    rw [if_neg (by omega), hfields, Steps.map_ok, plainValue]

theorem itemsOfJsonAt_of_itemsPlain : ∀ (items : List Json) {depth : Nat}, ItemsPlain items →
    depth + depthItems items ≤ maxDepth →
      Value.itemsOfJsonAt depth items = .ok (plainItems items)
  | [], _, _, _ => rfl
  | j :: items, depth, hplain, hle => by
    rw [depthItems] at hle
    have hj := ofJsonAt_of_isPlain j hplain.1 (by omega : depth + j.depth ≤ maxDepth)
    have hitems := itemsOfJsonAt_of_itemsPlain items hplain.2
      (by omega : depth + depthItems items ≤ maxDepth)
    rw [Value.itemsOfJsonAt, hj, Steps.ok_bind, hitems, Steps.ok_bind, plainItems]

theorem fieldsOfJsonAt_of_membersPlain : ∀ (members : Members) {depth : Nat},
    MembersPlain members → depth + depthMembers members ≤ maxDepth →
      Value.fieldsOfJsonAt depth members = .ok (plainFields members)
  | [], _, _, _ => rfl
  | (name, j) :: members, depth, hplain, hle => by
    rw [depthMembers] at hle
    have hj := ofJsonAt_of_isPlain j hplain.1 (by omega : depth + j.depth ≤ maxDepth)
    have hmembers := fieldsOfJsonAt_of_membersPlain members hplain.2
      (by omega : depth + depthMembers members ≤ maxDepth)
    rw [Value.fieldsOfJsonAt, hj, Steps.ok_bind, hmembers, Steps.ok_bind, plainFields]

end

/-! ## Writing -/

mutual

/-- **The value is written** as the JSON that it is of. The members of an object were written in
order, so that they come back in this order; none is merged, as no name is repeated. -/
theorem toJson_plainValue : ∀ j : Json, j.NamesDistinct → j.IsPlain → j.plainValue.toJson = j
  | .null, _, _ | .bool _, _, _ | .string _, _, _ => by
    rw [plainValue, Value.toJson, Scalar.toJson]
  | .number n, _, hplain => by
    rw [plainValue, Value.toJson, toJson_plainScalar hplain]
  | .array items, hdistinct, hplain => by
    rw [plainValue, Value.toJson, itemsToJson_plainItems items hdistinct hplain]
  | .object members, hdistinct, hplain => by
    obtain ⟨hnames, hmembers⟩ := hdistinct
    rw [plainValue, Value.toJson, fieldsToJson_plainFields members hmembers hplain.2, objectOf,
      members_eq_mergeNames, mergeNames_of_nodup hnames]

theorem itemsToJson_plainItems : ∀ items : List Json, ItemNamesDistinct items →
    ItemsPlain items → Value.itemsToJson (plainItems items) = items
  | [], _, _ => rfl
  | j :: items, hdistinct, hplain => by
    rw [plainItems, Value.itemsToJson, toJson_plainValue j hdistinct.1 hplain.1,
      itemsToJson_plainItems items hdistinct.2 hplain.2]

theorem fieldsToJson_plainFields : ∀ members : Members, MemberNamesDistinct members →
    MembersPlain members → Value.fieldsToJson (plainFields members) = members
  | [], _, _ => rfl
  | (name, j) :: members, hdistinct, hplain => by
    rw [plainFields, Value.fieldsToJson, toJson_plainValue j hdistinct.1 hplain.1,
      fieldsToJson_plainFields members hdistinct.2 hplain.2]

end

/-- **Plain JSON passes through unchanged.**  Down to 100 arrays and objects in one another it is
read, and what is read is written as the same JSON: its members in their order, and each number as
the integer or the double that it was. Every object is read as a document, also one in which the name
of a wrapper stands among others. The names of an object are distinct in all JSON that is read from a
text. -/
theorem plain_passes_through :
    (∀ j : Json, j.NamesDistinct → j.IsPlain → j.depth ≤ 100 →
      Value.ofJson j = .ok j.plainValue ∧ j.plainValue.toJson = j) ∧
    ∀ (text : String) (j : Json), read text = .ok j → j.NamesDistinct := by
  constructor
  · intro j hdistinct hplain hdepth
    refine ⟨ofJsonAt_of_isPlain j hplain ?_, toJson_plainValue j hdistinct hplain⟩
    rw [Nat.zero_add]
    exact hdepth
  · intro text j hread
    exact namesDistinct_of_read hread

/-- The name of a wrapper among others, integers on both sides of 32 bits and at the ends of 64, a
negative zero and a double without a fraction; and a text that repeats a name. -/
theorem plain_passes_through_mixed :
    ∃ j : Json,
      j = .object [("$oid", .string "x"), ("n", .array [ofInt 2147483647 (by decide),
          ofInt 2147483648 (by decide), ofInt (-9223372036854775808) (by decide),
          ofInt 9223372036854775807 (by decide), .number (.real ⟨0x8000000000000000⟩ rfl),
          .number (.real ⟨0x3ff0000000000000⟩ rfl)]),
        ("$date", .object [("a", .null), ("$code", .array [])])] ∧
      j.NamesDistinct ∧ j.IsPlain ∧ j.depth ≤ 100 ∧
      Value.ofJson j = .ok (.document [("$oid", .scalar (.string "x")),
        ("n", .array [.scalar (.int32 2147483647), .scalar (.int64 2147483648),
          .scalar (.int64 (-9223372036854775808)), .scalar (.int64 9223372036854775807),
          .scalar (.double ⟨0x8000000000000000⟩), .scalar (.double ⟨0x3ff0000000000000⟩)]),
        ("$date", .document [("a", .null), ("$code", .array [])])]) ∧
      j.plainValue.toJson = j ∧
      read "\x7b\"a\":null,\"b\":[],\"a\":[]\x7d" =
        .ok (.object [("a", .array []), ("b", .array [])]) ∧
      NamesDistinct (.object [("a", .array []), ("b", .array [])]) := by
  obtain ⟨hpasses, hread⟩ := plain_passes_through
  obtain ⟨j, hj⟩ : ∃ j : Json,
      j = .object [("$oid", .string "x"), ("n", .array [ofInt 2147483647 (by decide),
          ofInt 2147483648 (by decide), ofInt (-9223372036854775808) (by decide),
          ofInt 9223372036854775807 (by decide), .number (.real ⟨0x8000000000000000⟩ rfl),
          .number (.real ⟨0x3ff0000000000000⟩ rfl)]),
        ("$date", .object [("a", .null), ("$code", .array [])])] := ⟨_, rfl⟩
  have hdistinct : j.NamesDistinct := by
    rw [hj]
    exact ⟨by decide, by simp [MemberNamesDistinct, NamesDistinct, ItemNamesDistinct, ofInt]⟩
  have hplain : j.IsPlain := by
    rw [hj]
    refine ⟨by decide, ?_⟩
    simp only [MembersPlain, IsPlain, ItemsPlain, ofInt, Number.IsSigned]
    decide
  have hdepth : j.depth ≤ 100 := by
    rw [hj]
    decide
  obtain ⟨hvalue, hjson⟩ := hpasses j hdistinct hplain hdepth
  have htext : read "\x7b\"a\":null,\"b\":[],\"a\":[]\x7d" =
      .ok (.object [("a", .array []), ("b", .array [])]) := by cbv
  refine ⟨j, hj, hdistinct, hplain, hdepth, ?_, hjson, htext, hread _ _ htext⟩
  rw [hvalue, hj]
  rfl

end DocTable.Json
