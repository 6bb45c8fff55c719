import DocTable.Proofs.Text.Integer
import DocTable.Proofs.Text.Utf8
import DocTable.ObjectId
import DocTable.Text.Base64

/-!
# Bytes as text: reading is the inverse of writing

* `Base64.decode?_encode` — any bytes are read back from their characters in base 64.
* `Hex.read_byteText` — a byte is read back from its two digits.
* `ObjectId.read_text` — an identifier is read back from its digits.
-/

set_option autoImplicit false

namespace DocTable

namespace Base64

theorem sextet?_sextetChar_all :
    ∀ n, n < 64 → sextet? (sextetChar n) = some n ∧ sextetChar n ≠ '=' := by
  decide

@[simp] theorem sextet?_sextetChar {n : Nat} (h : n < 64) : sextet? (sextetChar n) = some n :=
  (sextet?_sextetChar_all n h).1

@[simp] theorem sextetChar_ne_padding {n : Nat} (h : n < 64) : sextetChar n ≠ '=' :=
  (sextet?_sextetChar_all n h).2

theorem ofNat_eq {n : Nat} {b : UInt8} (h : n = b.toNat) : UInt8.ofNat n = b := by
  rw [h, UInt8.ofNat_toNat]

/-- **Any bytes are read back.** -/
theorem decode?_encode : ∀ bytes : Bytes, decode? (encode bytes) = some bytes
  | [] => rfl
  | [a] => by
    have ha := a.toNat_lt
    rw [encode, decode?, if_pos rfl, if_pos rfl, decodePadded?,
      sextet?_sextetChar (by omega), sextet?_sextetChar (by omega)]
    show (if a.toNat % 4 * 16 % 16 = 0 then _ else _) = _
    rw [if_pos (by omega), ofNat_eq (show _ = a.toNat by omega)]
  | [a, b] => by
    have ha := a.toNat_lt
    have hb := b.toNat_lt
    rw [encode, decode?, if_pos rfl, if_pos rfl, decodePadded?,
      sextet?_sextetChar (by omega), sextet?_sextetChar (by omega)]
    show (if sextetChar (b.toNat % 16 * 4) = '=' then _ else _) = _
    rw [if_neg (sextetChar_ne_padding (by omega)), sextet?_sextetChar (by omega)]
    show (if b.toNat % 16 * 4 % 4 = 0 then _ else _) = _
    rw [if_pos (by omega), ofNat_eq (show _ = a.toNat by omega),
      ofNat_eq (show _ = b.toNat by omega)]
  | a :: b :: c :: bytes => by
    have ha := a.toNat_lt
    have hb := b.toNat_lt
    have hc := c.toNat_lt
    rw [encode, decode?, if_neg (sextetChar_ne_padding (by omega)),
      sextet?_sextetChar (by omega), sextet?_sextetChar (by omega),
      sextet?_sextetChar (by omega), sextet?_sextetChar (by omega), decode?_encode bytes]
    show some (_ :: _ :: _ :: bytes) = _
    rw [ofNat_eq (show _ = a.toNat by omega), ofNat_eq (show _ = b.toNat by omega),
      ofNat_eq (show _ = c.toNat by omega)]

end Base64

namespace Hex

theorem digitIn?_sixteen {n : Nat} (h : n < 16) : digitIn? 16 (digitChar n) = some n :=
  digitIn?_digitChar (by decide) h

/-- **A byte is read back from its two digits.** -/
theorem read_byteText (b : UInt8) :
    (IntegerRange.unsigned 8).read 16 (byteText b).toList = .ok (b.toNat : Int) := by
  have hb := b.toNat_lt
  have hhigh := digitIn?_sixteen (show b.toNat / 16 < 16 by omega)
  have hlow := digitIn?_sixteen (show b.toNat % 16 < 16 by omega)
  have hvalue : digitsValue 16 (byteDigits b) = b.toNat := by
    simp only [digitsValue, byteDigits, List.foldl_cons, List.foldl_nil, hhigh, hlow,
      Option.getD_some]
    omega
  rw [byteText, String.toList_ofList, IntegerRange.read_eq_ok (by decide) (by simp [byteDigits]),
    hvalue]
  · intro c hc
    simp only [byteDigits, List.mem_cons, List.not_mem_nil, or_false] at hc
    rcases hc with rfl | rfl
    · rw [hhigh]
      rfl
    · rw [hlow]
      rfl
  · rw [hvalue]
    show (b.toNat : Int) ≤ 255
    omega

end Hex

namespace ObjectId

/-! ## Identifiers -/

/-- The two digits of a byte as they stand in a text. -/
def digitBytes (b : UInt8) : Bytes :=
  (Hex.byteDigits b).map fun c => UInt8.ofNat c.toNat

theorem bytes_text (bytes : Bytes) :
    Utf8.bytes (Hex.text bytes) = bytes.flatMap digitBytes := by
  have hascii : ∀ c ∈ bytes.flatMap Hex.byteDigits, c.toNat < 128 := by
    intro c hc
    obtain ⟨b, -, hc⟩ := List.mem_flatMap.1 hc
    have hb := b.toNat_lt
    simp only [Hex.byteDigits, List.mem_cons, List.not_mem_nil, or_false] at hc
    rcases hc with rfl | rfl
    · exact (digitChar_ascii_all _ (by omega)).2
    · exact (digitChar_ascii_all _ (by omega)).2
  rw [Utf8.bytes, Hex.text, String.toList_ofList, Utf8.encode_ascii hascii, List.map_flatMap]
  rfl

theorem digit?_digitChar_all :
    ∀ n, n < 16 → digit? (UInt8.ofNat (digitChar n).toNat) = some n := by
  decide

theorem digitAt_digitChar {n : Nat} (place : Nat) (h : n < 16) :
    readPairs.digitAt place (UInt8.ofNat (digitChar n).toNat) = .ok n := by
  rw [readPairs.digitAt, digit?_digitChar_all n h]

theorem readPairs_digitBytes (place : Nat) (bytes : Bytes) :
    readPairs place (bytes.flatMap digitBytes) = .ok bytes := by
  induction bytes generalizing place with
  | nil => rfl
  | cons b bytes ih =>
    have hb := b.toNat_lt
    rw [List.flatMap_cons]
    show readPairs place (_ :: _ :: bytes.flatMap digitBytes) = .ok (b :: bytes)
    rw [readPairs, digitAt_digitChar _ (by omega), digitAt_digitChar _ (by omega), ih]
    show Except.ok (_ :: bytes) = .ok (b :: bytes)
    rw [Base64.ofNat_eq (show _ = b.toNat by omega)]

theorem length_digitBytes (bytes : Bytes) :
    (bytes.flatMap digitBytes).length = 2 * bytes.length := by
  induction bytes with
  | nil => rfl
  | cons b bytes ih =>
    rw [List.flatMap_cons, List.length_append, ih, List.length_cons]
    show 2 + _ = _
    omega

/-- **An identifier is read back from its digits.** -/
theorem read_text (id : ObjectId) : read id.text = .ok id := by
  have hlength : (id.bytes.flatMap digitBytes).length = 24 := by
    rw [length_digitBytes, id.length_bytes]
  rw [read, text, bytes_text]
  rw [hlength, if_neg (by decide), if_neg (by decide), readPairs_digitBytes, Steps.ok_bind,
    ofBytes?, dif_pos id.length_bytes]

end ObjectId

end DocTable
