import DocTable.Proofs.Bytes
import DocTable.Proofs.Text.Utf8
import DocTable.Wire.Document

/-!
# Scalar values on the wire

The value of a scalar is told by its bytes and its bytes by its value.

* `valueSize_scalarBytes`, `value_scalarBytes` — the bytes of a scalar, whatever stands behind
  them, are measured and read as that scalar.
* `scalarBytes_of_value` — a value that is read and is no container is a scalar, and the bytes it
  was read from are the scalar's own.

The size of a value is found from a length in front of it, read without regard to what follows;
both directions need that length to be below `2 ^ 31`, which `int32At_little` and
`little_of_int32At` keep track of.
-/

set_option autoImplicit false

namespace DocTable.Wire

/-! ## Lengths -/

/-- **A length is read as what is left of it in four bytes**, with a sign. -/
theorem int32At_little_bmod (n offset : Nat) (rest : Bytes) :
    int32At offset (little 4 n ++ rest) = .ok ((n : Int).bmod (2 ^ 32)) := by
  have hread : ofLittle (little 4 n) = n % 2 ^ 32 := ofLittle_little 4 n
  unfold int32At littleAt?
  rw [List.take_left' (length_little 4 n)]
  simp only [length_little, if_true, hread]
  refine congrArg Except.ok ?_
  rw [Int.bmod]
  split <;> split <;> omega

theorem int32At_little {n : Nat} (hn : n < 2 ^ 31) (offset : Nat) (rest : Bytes) :
    int32At offset (little 4 n ++ rest) = .ok (n : Int) := by
  rw [int32At_little_bmod, Int.bmod, if_pos (by omega)]
  refine congrArg Except.ok ?_
  omega

theorem int32At_eq_error_iff {offset : Nat} {bytes : Bytes} {error : Error} :
    int32At offset bytes = .error error ↔
      bytes.length < 4 ∧ error = .malformed (some offset) (.truncated 4) := by
  unfold int32At littleAt?
  simp only [List.length_take]
  by_cases hlength : bytes.length < 4
  · rw [if_neg (by omega)]
    simp [hlength, eq_comm]
  · rw [if_pos (by omega)]
    simp [hlength]

/-- A length that is read and is not negative is what stands there. -/
theorem little_of_int32At {offset : Nat} {bytes : Bytes} {n : Nat}
    (h : int32At offset bytes = .ok (n : Int)) : n < 2 ^ 31 ∧ bytes.take 4 = little 4 n := by
  unfold int32At littleAt? at h
  simp only at h
  split at h
  · rename_i value hvalue
    split at hvalue
    · rename_i hlen
      cases hvalue
      have hlt : ofLittle (bytes.take 4) < 2 ^ 32 := by
        have := ofLittle_lt (bytes.take 4)
        rwa [hlen] at this
      have hlittle := little_ofLittle (bytes.take 4)
      rw [hlen] at hlittle
      split at h
      · rename_i hsmall
        have hn : ofLittle (bytes.take 4) = n := by
          have := Except.ok.inj h
          omega
        rw [hn] at hlittle hsmall
        exact ⟨by omega, hlittle.symm⟩
      · have := Except.ok.inj h
        omega
    · cases hvalue
  · cases h

/-! ## From the scalar to its bytes and back -/

theorem length_stringBytes (text : String) :
    (stringBytes text).length = 4 + ((Utf8.bytes text).length + 1) := by
  simp [stringBytes]

theorem length_binaryBytes (subtype : UInt8) (content : Bytes) :
    (binaryBytes subtype content).length =
      5 + (if subtype = oldBinary then content.length + 4 else content.length) := by
  unfold binaryBytes
  split <;> simp <;> omega

theorem stringLength_ok {text : String} (h : (stringBytes text).length < 2 ^ 31) (offset : Nat)
    (rest : Bytes) :
    int32At offset (stringBytes text ++ rest) =
      .ok (((Utf8.bytes text).length + 1 : Nat) : Int) := by
  rw [length_stringBytes] at h
  rw [stringBytes, List.append_assoc, List.append_assoc]
  exact int32At_little (by omega) offset _

/-- The bytes of a scalar tell their own number, whatever follows them. -/
theorem valueSize_scalarBytes {s : Scalar} (h : (scalarBytes s).length < 2 ^ 31) (offset : Nat)
    (rest : Bytes) :
    valueSize s.kind offset (scalarBytes s ++ rest) = .ok (scalarBytes s).length := by
  cases s with
  | null | bool | int32 | int64 | double | decimal | dateTime | timestamp => rfl
  | objectId id => simp only [Scalar.kind, valueSize, scalarBytes, id.length_bytes]
  | string text | code text | symbol text =>
    simp only [Scalar.kind, valueSize, scalarBytes] at h ⊢
    rw [stringLength_ok h, length_stringBytes, Steps.ok_bind, if_neg (by omega),
      Int.toNat_natCast]
  | binary subtype content =>
    simp only [Scalar.kind, valueSize, scalarBytes] at h ⊢
    rw [length_binaryBytes] at h ⊢
    have hlen : int32At offset (binaryBytes subtype content ++ rest) =
        .ok ((if subtype = oldBinary then content.length + 4 else content.length : Nat) : Int) := by
      unfold binaryBytes
      split at h <;> rename_i hs <;> simp only [hs, if_true, if_false, List.append_assoc] <;>
        exact int32At_little (by omega) offset _
    rw [hlen, Steps.ok_bind, if_neg (by omega), Int.toNat_natCast]

theorem payload_eq (kind : Kind) (name : String) (offset : Nat) (bytes rest : Bytes) :
    Element.payload ⟨kind, name, offset, bytes.length, bytes ++ rest⟩ = bytes := by
  simp [Element.payload]

theorem stringValue_stringBytes (offset : Nat) (text : String) :
    stringValue offset (stringBytes text) = .ok text := by
  have hbody : (stringBytes text).drop 4 = Utf8.bytes text ++ [0] := by
    rw [stringBytes, List.append_assoc, List.drop_left' (length_little _ _)]
  unfold stringValue
  simp only [hbody, List.getLast?_concat, List.dropLast_concat, ne_eq, not_true, if_false,
    Utf8.decode_bytes]

theorem binaryValue_binaryBytes {subtype : UInt8} {content : Bytes}
    (h : (binaryBytes subtype content).length < 2 ^ 31) (offset : Nat) :
    binaryValue offset (binaryBytes subtype content) = .ok (.binary subtype content) := by
  rw [length_binaryBytes] at h
  unfold binaryValue binaryBytes
  split at h
  · rename_i hs
    simp only [hs, if_true]
    rw [List.drop_left' (length_little _ _)]
    simp only [if_true]
    rw [int32At_little (by omega), Steps.ok_bind, if_neg (by simp; omega),
      List.drop_left' (length_little _ _)]
  · rename_i hs
    simp only [hs, if_false]
    rw [List.drop_left' (length_little _ _)]
    simp only [hs, if_false]

/-! ### Numbers -/

theorem int32_ofNat_toNat (n : Int32) : Int32.ofNat n.toUInt32.toNat = n := by
  show Int32.ofUInt32 (UInt32.ofNat n.toUInt32.toNat) = n
  rw [UInt32.ofNat_toNat]

theorem toNat_int32_ofNat (n : Nat) : (Int32.ofNat n).toUInt32.toNat = n % 2 ^ 32 :=
  UInt32.toNat_ofNat

theorem int64_ofNat_toNat (n : Int64) : Int64.ofNat n.toUInt64.toNat = n := by
  show Int64.ofUInt64 (UInt64.ofNat n.toUInt64.toNat) = n
  rw [UInt64.ofNat_toNat]

theorem toNat_int64_ofNat (n : Nat) : (Int64.ofNat n).toUInt64.toNat = n % 2 ^ 64 :=
  UInt64.toNat_ofNat

theorem ofBytes_bytes (d : Decimal128) : Decimal128.ofBytes d.bytes = d := by
  have hlt : d.bits.toNat < 256 ^ 16 := d.bits.isLt
  unfold Decimal128.ofBytes Decimal128.bytes
  rw [ofLittle_little, Nat.mod_eq_of_lt hlt, BitVec.ofNat_toNat, BitVec.setWidth_eq]

theorem bytes_ofBytes {bytes : Bytes} (h : bytes.length = 16) :
    (Decimal128.ofBytes bytes).bytes = bytes := by
  have hlt := ofLittle_lt bytes
  rw [h] at hlt
  unfold Decimal128.ofBytes Decimal128.bytes
  rw [BitVec.toNat_ofNat, Nat.mod_eq_of_lt (show ofLittle bytes < 2 ^ 128 from hlt), ← h,
    little_ofLittle]

theorem objectId_ofNat (id : ObjectId) : ObjectId.ofNat (ofLittle id.bytes) = id := by
  obtain ⟨bytes, hlen⟩ := id
  simp only [ObjectId.ofNat, ObjectId.mk.injEq]
  rw [← hlen, little_ofLittle]

theorem timestamp_number (seconds increment : UInt32) :
    UInt32.ofNat ((seconds.toNat * 0x100000000 + increment.toNat) / 0x100000000) = seconds ∧
      UInt32.ofNat (seconds.toNat * 0x100000000 + increment.toNat) = increment := by
  have hs := seconds.toNat_lt
  have hi := increment.toNat_lt
  constructor <;> apply UInt32.toNat_inj.1 <;> rw [UInt32.toNat_ofNat'] <;> omega

/-- The number of an element whose value is a field of `width` bytes. -/
theorem number_little {width n : Nat} (h : n < 256 ^ width) (kind : Kind) (name : String)
    (offset : Nat) (rest : Bytes) :
    Element.number ⟨kind, name, offset, (little width n).length, little width n ++ rest⟩ = n := by
  rw [Element.number, payload_eq, ofLittle_little, Nat.mod_eq_of_lt h]

/-- **The bytes of a scalar are read as that scalar**, whatever follows them. -/
theorem value_scalarBytes {s : Scalar} (h : (scalarBytes s).length < 2 ^ 31)
    (fieldsAt : Nat → Bytes → Except Error Document) (name : String) (offset : Nat) (rest : Bytes) :
    Element.value fieldsAt ⟨s.kind, name, offset, (scalarBytes s).length, scalarBytes s ++ rest⟩ =
      .ok (.scalar s) := by
  have hpayload := payload_eq s.kind name offset (scalarBytes s) rest
  cases s with
  | null => rfl
  | bool b =>
    simp only [Element.value, Scalar.kind, scalarBytes] at hpayload ⊢
    rw [hpayload]
    cases b <;> rfl
  | int32 n =>
    simp only [Element.value, Scalar.kind, scalarBytes]
    rw [number_little n.toUInt32.toNat_lt, int32_ofNat_toNat]
  | int64 n =>
    simp only [Element.value, Scalar.kind, scalarBytes]
    rw [number_little n.toUInt64.toNat_lt, int64_ofNat_toNat]
  | dateTime millis =>
    simp only [Element.value, Scalar.kind, scalarBytes]
    rw [number_little millis.toUInt64.toNat_lt, int64_ofNat_toNat]
  | double x =>
    simp only [Element.value, Scalar.kind, scalarBytes]
    rw [number_little x.bits.toNat_lt, UInt64.ofNat_toNat]
  | decimal d =>
    simp only [Element.value, Scalar.kind, scalarBytes] at hpayload ⊢
    rw [hpayload, ofBytes_bytes]
  | objectId id =>
    simp only [Element.value, Element.number, Scalar.kind, scalarBytes] at hpayload ⊢
    rw [hpayload, objectId_ofNat]
  | timestamp seconds increment =>
    have hs := seconds.toNat_lt
    have hi := increment.toNat_lt
    simp only [Element.value, Scalar.kind, scalarBytes]
    rw [number_little (by omega), (timestamp_number seconds increment).1,
      (timestamp_number seconds increment).2]
  | string text | code text | symbol text =>
    simp only [Element.value, Scalar.kind, scalarBytes] at hpayload ⊢
    rw [hpayload, stringValue_stringBytes]
    rfl
  | binary subtype content =>
    simp only [Element.value, Scalar.kind, scalarBytes] at hpayload ⊢
    rw [hpayload, binaryValue_binaryBytes h]
    rfl

/-! ## From the bytes to the scalar -/

/-- What `Wire.elementAt` makes sure of about the value of an element: its size is the one that
its kind asks for, and the buffer holds that many bytes of it. -/
structure Element.Measured (e : Element) : Prop where
  size_eq : valueSize e.kind e.offset e.bytes = .ok e.size
  size_le : e.size ≤ e.bytes.length

theorem Element.Measured.length_payload {e : Element} (h : e.Measured) :
    e.payload.length = e.size := by
  rw [Element.payload, List.length_take, Nat.min_eq_left h.size_le]

/-- A value of `width` bytes is written back from its number. -/
theorem Element.Measured.little_number {e : Element} {width : Nat} (h : e.Measured)
    (hsize : e.size = width) : little width e.number = e.payload := by
  rw [Element.number, ← hsize, ← h.length_payload, little_ofLittle]

theorem Element.Measured.number_lt {e : Element} {width : Nat} (h : e.Measured)
    (hsize : e.size = width) : e.number < 256 ^ width := by
  have := ofLittle_lt e.payload
  rwa [h.length_payload, hsize] at this

/-- The same with the number reduced as it is when it is stored. -/
theorem Element.Measured.little_number_mod {e : Element} {width : Nat} (h : e.Measured)
    (hsize : e.size = width) : little width (e.number % 256 ^ width) = e.payload := by
  rw [Nat.mod_eq_of_lt (h.number_lt hsize), h.little_number hsize]

theorem stringBytes_of_stringValue {offset n : Nat} {payload : Bytes} {text : String}
    (hn : payload.length = 4 + n) (hlen : payload.take 4 = little 4 n)
    (h : stringValue offset payload = .ok text) : payload = stringBytes text := by
  unfold stringValue at h
  simp only at h
  split at h
  · cases h
  · rename_i hlast
    have hlast : (payload.drop 4).getLast? = some 0 := not_ne_iff.1 hlast
    split at h
    · rename_i text' htext
      cases h
      have hbytes := Utf8.bytes_of_decode htext
      have hbody : payload.drop 4 = Utf8.bytes text ++ [0] := by
        rw [hbytes, List.dropLast_append_getLast? 0 hlast]
      have hn' : n = (Utf8.bytes text).length + 1 := by
        have := congrArg List.length hbody
        rw [List.length_drop, List.length_append, List.length_singleton] at this
        omega
      rw [stringBytes, List.append_assoc, ← hn', ← hlen, ← hbody, List.take_append_drop]
    · cases h

theorem binaryBytes_of_binaryValue {offset n : Nat} {payload : Bytes} {s : Scalar}
    (hn : payload.length = 5 + n) (hlen : payload.take 4 = little 4 n)
    (h : binaryValue offset payload = .ok s) :
    ∃ subtype content, s = .binary subtype content ∧ payload = binaryBytes subtype content := by
  unfold binaryValue at h
  split at h
  · cases h
  · rename_i subtype content hdrop
    have hpayload : payload = little 4 n ++ subtype :: content := by
      rw [← hlen, ← hdrop, List.take_append_drop]
    have hcontent : content.length = n := by
      have := congrArg List.length hdrop
      rw [List.length_drop, List.length_cons] at this
      omega
    split at h
    · rename_i hold
      obtain ⟨inner, hinner, h⟩ := Steps.bind_eq_ok.1 h
      split at h
      · cases h
      · rename_i hfits
        cases h
        obtain ⟨k, rfl⟩ : ∃ k : Nat, inner = k := ⟨inner.toNat, by omega⟩
        have hk := (little_of_int32At hinner).2
        have hrest : (content.drop 4).length = k := by rw [List.length_drop]; omega
        refine ⟨subtype, content.drop 4, rfl, ?_⟩
        rw [binaryBytes, if_pos hold, hrest, ← hk, List.take_append_drop, hpayload]
        congr 2
        omega
    · rename_i hnew
      cases h
      exact ⟨subtype, content, rfl, by rw [binaryBytes, if_neg hnew, hcontent, hpayload]⟩

theorem boolValue_eq_ok {offset : Nat} {payload : Bytes} {s : Scalar}
    (h : boolValue offset payload = .ok s) :
    ∃ b, s = .bool b ∧ payload = scalarBytes (.bool b) := by
  unfold boolValue at h
  split at h
  · cases h; exact ⟨false, rfl, rfl⟩
  · cases h; exact ⟨true, rfl, rfl⟩
  · cases h
  · cases h

/-- A length that was read and checked to be at least `least`, and the size computed from it. -/
theorem length_of_size {offset size extra : Nat} {least : Int} {bytes : Bytes}
    {fault : Int → Error} (hleast : 0 ≤ least)
    (h : (do
      let length ← int32At offset bytes
      if length < least then .error (fault length) else .ok (extra + length.toNat)) = .ok size) :
    ∃ n : Nat, size = extra + n ∧ int32At offset bytes = .ok (n : Int) := by
  obtain ⟨length, hlength, hrest⟩ := Steps.bind_eq_ok.1 h
  split at hrest
  · cases hrest
  · refine ⟨length.toNat, (Except.ok.inj hrest).symm, ?_⟩
    rw [hlength, Int.toNat_of_nonneg (by omega)]

/-- A size that is computed from a length is no smaller than the least length makes it. -/
theorem least_le_of_size {offset size extra : Nat} {least : Int} {bytes : Bytes} {fault : Int → Error}
    (h : (do
      let length ← int32At offset bytes
      if length < least then .error (fault length) else .ok (extra + length.toNat)) = .ok size) :
    extra + least.toNat ≤ size := by
  obtain ⟨length, -, hrest⟩ := Steps.bind_eq_ok.1 h
  split at hrest
  · cases hrest
  · cases hrest
    omega

theorem take_payload {e : Element} {n : Nat} (hsize : 4 ≤ e.size)
    (hlen : int32At e.offset e.bytes = .ok (n : Int)) : e.payload.take 4 = little 4 n := by
  rw [Element.payload, List.take_take, Nat.min_eq_left hsize]
  exact (little_of_int32At hlen).2

/-- **A value that is read and is no container is a scalar, written in the bytes it was read
from.** -/
theorem scalarBytes_of_value {e : Element} (he : e.Measured) (harray : e.kind ≠ .array)
    (hdocument : e.kind ≠ .document) {fieldsAt : Nat → Bytes → Except Error Document} {v : Value}
    (h : e.value fieldsAt = .ok v) :
    ∃ s, v = .scalar s ∧ s.kind = e.kind ∧ e.payload = scalarBytes s := by
  have hsize := he.size_eq
  unfold Element.value at h
  cases hkind : e.kind <;> simp only [hkind] at h hsize
  case array => exact absurd hkind harray
  case document => exact absurd hkind hdocument
  case null =>
    cases h
    have hnil : e.payload = [] := by
      have := Except.ok.inj hsize
      rw [← List.length_eq_zero_iff, he.length_payload, ← this]
    exact ⟨.null, rfl, rfl, hnil⟩
  case bool =>
    obtain ⟨s, hs, rfl⟩ := Steps.map_eq_ok.1 h
    obtain ⟨b, rfl, hb⟩ := boolValue_eq_ok hs
    exact ⟨.bool b, rfl, rfl, hb⟩
  case int32 =>
    cases h
    have hw := (Except.ok.inj hsize).symm
    refine ⟨_, rfl, rfl, ?_⟩
    rw [scalarBytes, toNat_int32_ofNat]
    exact (he.little_number_mod hw).symm
  case int64 =>
    cases h
    have hw := (Except.ok.inj hsize).symm
    refine ⟨_, rfl, rfl, ?_⟩
    rw [scalarBytes, toNat_int64_ofNat]
    exact (he.little_number_mod hw).symm
  case dateTime =>
    cases h
    have hw := (Except.ok.inj hsize).symm
    refine ⟨_, rfl, rfl, ?_⟩
    rw [scalarBytes, toNat_int64_ofNat]
    exact (he.little_number_mod hw).symm
  case double =>
    cases h
    have hw := (Except.ok.inj hsize).symm
    refine ⟨_, rfl, rfl, ?_⟩
    rw [scalarBytes, UInt64.toNat_ofNat']
    exact (he.little_number_mod hw).symm
  case decimal =>
    cases h
    have hw := (Except.ok.inj hsize).symm
    refine ⟨_, rfl, rfl, ?_⟩
    rw [scalarBytes, bytes_ofBytes (he.length_payload.trans hw)]
  case objectId =>
    cases h
    have hw := (Except.ok.inj hsize).symm
    exact ⟨_, rfl, rfl, (he.little_number hw).symm⟩
  case timestamp =>
    cases h
    have hw := (Except.ok.inj hsize).symm
    have hlt := he.number_lt hw
    refine ⟨_, rfl, rfl, ?_⟩
    rw [scalarBytes, ← he.little_number hw, UInt32.toNat_ofNat', UInt32.toNat_ofNat']
    congr 1
    omega
  case string | code | symbol =>
    obtain ⟨text, htext, rfl⟩ := Steps.map_eq_ok.1 h
    obtain ⟨n, hn, hlen⟩ := length_of_size (by decide) hsize
    refine ⟨_, rfl, rfl, ?_⟩
    exact stringBytes_of_stringValue (he.length_payload.trans hn)
      (take_payload (by omega) hlen) htext
  case binary =>
    obtain ⟨s, hs, rfl⟩ := Steps.map_eq_ok.1 h
    obtain ⟨n, hn, hlen⟩ := length_of_size (by decide) hsize
    obtain ⟨subtype, content, rfl, hbytes⟩ := binaryBytes_of_binaryValue
      (he.length_payload.trans hn) (take_payload (by omega) hlen) hs
    exact ⟨_, rfl, rfl, hbytes⟩

end DocTable.Wire
