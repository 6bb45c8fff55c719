import DocTable.ExtendedJson.Basic
import DocTable.Proofs.Instant
import DocTable.Proofs.Text.ByteText
import Mathlib.Algebra.Group.Int.Defs

/-!
# Scalars as extended JSON: reading is the inverse of writing

* `Scalar.relaxed` — what JSON does not keep of a scalar: the width of a small number and the
  payload of what is not a number.
* `Scalar.ofJsonAt_toJson` — apart from this, a scalar is read back as it was.
* `Scalar.toJson_dateTime` — which dates are written as text.
-/

set_option autoImplicit false

namespace DocTable

/-- The scalar that comes back from JSON. -/
def Scalar.relaxed : Scalar → Scalar
  | .int64 n =>
    if -(2 ^ 31) ≤ n.toInt ∧ n.toInt < 2 ^ 31 then .int32 (Int32.ofInt n.toInt) else .int64 n
  | .double x => .double (if x.isNaN then .nan else x)
  | s => s

/-! ## Wrappers -/

namespace Wrapper

@[simp] theorem Name.ofText?_text (name : Name) : Name.ofText? name.text = some name := by
  cases name <;> rfl

theorem read_single {name : Name} {content : Json} {s : Scalar}
    (h : scalar? name content = .ok (some s)) : read [(name.text, content)] = .ok (some s) := by
  rw [read, Name.ofText?_text]
  show (scalar? name content >>= fun found => _) = _
  rw [h, Steps.ok_bind]

theorem scalar?_objectId {text : String} {id : ObjectId} (h : ObjectId.read text = .ok id) :
    scalar? .objectId (.string text) = .ok (some (.objectId id)) := by
  simp only [scalar?, Json.string?, h]

theorem scalar?_decimal {text : String} {d : Decimal128} (h : Decimal128.read text = .ok d) :
    scalar? .numberDecimal (.string text) = .ok (some (.decimal d)) := by
  simp only [scalar?, Json.string?, h]

end Wrapper

theorem Value.ofJsonAt_single {depth : Nat} {content : Json} {s : Scalar} (name : Wrapper.Name)
    (h : Wrapper.scalar? name content = .ok (some s)) :
    ofJsonAt depth (.single name.text content) = .ok (.scalar s) := by
  rw [Json.single, ofJsonAt, Wrapper.read_single h, Steps.ok_bind]

/-! ## Doubles that are not finite -/

namespace Binary64

theorem eq_infinity {x : Binary64} (hnumber : ¬ x.isNaN = true) (hfinite : ¬ x.isFinite = true) :
    x = infinity x.negative := by
  simp only [isNaN, isFinite, decide_eq_true_eq] at hnumber hfinite
  have hmagnitude : x.magnitude = infinityMagnitude := by omega
  rw [infinity, ← hmagnitude, ofMagnitude_magnitude]

theorem not_isFinite_of_isNaN {x : Binary64} (h : x.isNaN = true) : ¬ x.isFinite = true := by
  simp only [isNaN, isFinite, decide_eq_true_eq] at h ⊢
  omega

/-- What is no finite double is written by name, and read by it. -/
theorem read?_cellText {x : Binary64} (hfinite : ¬ x.isFinite = true) :
    read? x.cellText = some (if x.isNaN then .nan else x) := by
  rw [cellText]
  split
  · rfl
  · rename_i hnumber
    have hx := eq_infinity hnumber hfinite
    cases hsign : x.negative with
    | false =>
      rw [hsign] at hx
      rw [hx]
      rfl
    | true =>
      rw [hsign] at hx
      rw [hx]
      rfl

end Binary64

/-! ## Each kind of scalar -/

namespace Scalar

variable {depth : Nat}

theorem ofNumber_int32 (n : Int32) :
    Value.ofNumber (.integer n.toInt (Json.inRange_of_int32 n)) = .int32 n := by
  have hleast := n.le_toInt
  have hgreatest := n.toInt_lt
  rw [Value.ofNumber, if_pos ⟨by omega, by omega⟩, Int32.ofInt_toInt]

theorem ofNumber_int64 (n : Int64) :
    Value.ofNumber (.integer n.toInt (Json.inRange_of_int64 n)) = (int64 n).relaxed := by
  have hgreatest := n.toInt_lt
  rw [Value.ofNumber, relaxed]
  by_cases hfits : -(2 ^ 31) ≤ n.toInt ∧ n.toInt < 2 ^ 31
  · rw [if_pos hfits, if_pos ⟨by omega, by omega⟩]
  · rw [if_neg hfits, if_neg (by omega), if_pos (by omega), Int64.ofInt_toInt]

theorem ofJsonAt_double (x : Binary64) :
    Value.ofJsonAt depth (double x).toJson = .ok (.scalar (double x).relaxed) := by
  rw [toJson, Json.real?, relaxed]
  split
  · rename_i j hj
    obtain ⟨hfinite, hj⟩ := Option.dite_none_right_eq_some.1 hj
    cases hj
    rw [if_neg fun h => Binary64.not_isFinite_of_isNaN h hfinite]
    rfl
  · rename_i hnone
    have hfinite : ¬ x.isFinite = true := by
      intro h
      rw [dif_pos h] at hnone
      cases hnone
    refine Value.ofJsonAt_single .numberDouble ?_
    show Except.ok ((Binary64.read? x.cellText).map double) = _
    rw [Binary64.read?_cellText hfinite]
    rfl

theorem binary?_toJson (subtype : UInt8) (bytes : Bytes) :
    Wrapper.binary? (.object [("base64", .string (String.ofList (Base64.encode bytes))),
      ("subType", .string (Hex.byteText subtype))]) = some (binary subtype bytes) := by
  show ((Base64.decode? (String.ofList (Base64.encode bytes)).toList).bind fun bytes =>
    (((IntegerRange.unsigned 8).read 16 (Hex.byteText subtype).toList).toOption).bind fun tag =>
      some (binary (UInt8.ofNat tag.toNat) bytes)) = _
  rw [String.toList_ofList, Base64.decode?_encode, Hex.read_byteText]
  show some (binary (UInt8.ofNat subtype.toNat) bytes) = _
  rw [UInt8.ofNat_toNat]

theorem word?_ofUInt32 {name : String} {content : Json} {n : UInt32}
    (h : content.get? name = some (.ofUInt32 n)) : Wrapper.word? name content = some n := by
  have hlt := n.toNat_lt
  have hinteger : (Json.ofUInt32 n).integer? = some (n.toNat : Int) := rfl
  have hrange : 0 ≤ (n.toNat : Int) ∧ (n.toNat : Int) < 0x100000000 := by omega
  rw [Wrapper.word?, h, Option.bind_eq_bind, Option.bind_some, hinteger, Option.bind_eq_bind,
    Option.bind_some, if_pos hrange, Int.toNat_natCast, UInt32.ofNat_toNat]

/-- The content of a date: its text if its year is from 1970 to 9999, else its milliseconds. -/
theorem toJson_dateTime (millis : Int64) :
    (dateTime millis).toJson =
      .single "$date"
        (if 1970 ≤ (Instant.date millis.toInt).year ∧ (Instant.date millis.toInt).year ≤ 9999 then
          .string (Instant.text millis.toInt)
        else .single "$numberLong" (.string (intText millis.toInt))) := by
  simp only [toJson, Instant.hasPlainDate_iff]

theorem millis?_toJson (millis : Int64) :
    Wrapper.millis?
      (if Instant.hasPlainDate millis.toInt then .string (Instant.text millis.toInt)
      else .single "$numberLong" (.string (intText millis.toInt))) = some millis.toInt := by
  split
  · rename_i hplain
    obtain ⟨hfirst, hlast⟩ := Instant.hasPlainDate_iff.1 hplain
    exact Instant.read?_text (Int.le_trans (by decide) hfirst) hlast
  · have hleast := millis.le_toInt
    have hgreatest := millis.toInt_lt
    show (IntegerRange.signed 64).decimal? (intText millis.toInt) = _
    refine IntegerRange.decimal?_intText ?_ ?_
    · simp only [IntegerRange.signed]
      omega
    · simp only [IntegerRange.signed]
      omega

/-- **A scalar is read back**, save for what JSON does not keep of it. -/
theorem ofJsonAt_toJson (s : Scalar)
    (hdecimal : ∀ d, s = .decimal d → Decimal128.read d.text = .ok d) :
    Value.ofJsonAt depth s.toJson = .ok (.scalar s.relaxed) := by
  cases s with
  | null => rfl
  | bool b => rfl
  | int32 n => exact congrArg (fun s => Except.ok (Value.scalar s)) (ofNumber_int32 n)
  | int64 n => exact congrArg (fun s => Except.ok (Value.scalar s)) (ofNumber_int64 n)
  | double x => exact ofJsonAt_double x
  | decimal d =>
    exact Value.ofJsonAt_single .numberDecimal (Wrapper.scalar?_decimal (hdecimal d rfl))
  | string s => rfl
  | code s => exact Value.ofJsonAt_single .code rfl
  | symbol s => exact Value.ofJsonAt_single .symbol rfl
  | objectId id =>
    exact Value.ofJsonAt_single .objectId (Wrapper.scalar?_objectId (ObjectId.read_text id))
  | binary subtype bytes =>
    exact Value.ofJsonAt_single .binary (congrArg Except.ok (binary?_toJson subtype bytes))
  | dateTime millis =>
    refine Value.ofJsonAt_single .date ?_
    show Except.ok ((Wrapper.millis? _).map _) = _
    rw [millis?_toJson, Option.map_some, Function.comp_apply, Int64.ofInt_toInt]
    rfl
  | timestamp seconds increment =>
    refine Value.ofJsonAt_single .timestamp ?_
    show Except.ok (Wrapper.timestamp? _) = _
    rw [Wrapper.timestamp?, word?_ofUInt32 rfl, word?_ofUInt32 rfl]
    rfl

end Scalar

end DocTable
