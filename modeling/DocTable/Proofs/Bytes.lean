import DocTable.Bytes
import Mathlib.Algebra.Group.Nat.Defs

/-!
# Little-endian fields: reading is the inverse of writing

* `ofLittle_little` — reading back a written field gives the number modulo the field's range.
* `little_ofLittle` — every byte string is the field of the number it denotes.
-/

set_option autoImplicit false

namespace DocTable

theorem ofLittle_little (width n : Nat) : ofLittle (little width n) = n % 256 ^ width := by
  induction width generalizing n with
  | zero => simp [little, ofLittle, Nat.mod_one]
  | succ width ih =>
    have hb : (UInt8.ofNat n).toNat = n % 256 := UInt8.toNat_ofNat'
    rw [little, ofLittle, ih, hb, Nat.pow_succ', Nat.mod_mul]

theorem ofLittle_append (xs ys : Bytes) :
    ofLittle (xs ++ ys) = ofLittle xs + 256 ^ xs.length * ofLittle ys := by
  induction xs with
  | nil => simp [ofLittle]
  | cons x xs ih =>
    rw [List.cons_append, ofLittle, ofLittle, ih, List.length_cons, Nat.pow_succ', Nat.mul_add,
      Nat.mul_assoc, Nat.add_assoc]

theorem ofLittle_lt (bs : Bytes) : ofLittle bs < 256 ^ bs.length := by
  induction bs with
  | nil => simp [ofLittle]
  | cons b bs ih =>
    have := b.toNat_lt
    simp only [ofLittle, List.length_cons, Nat.pow_succ]
    omega

theorem little_ofLittle (bs : Bytes) : little bs.length (ofLittle bs) = bs := by
  induction bs with
  | nil => rfl
  | cons b bs ih =>
    have hb := b.toNat_lt
    have hdiv : (b.toNat + 256 * ofLittle bs) / 256 = ofLittle bs := by omega
    have hmod : UInt8.ofNat (b.toNat + 256 * ofLittle bs) = b := by
      apply UInt8.toNat_inj.1
      rw [UInt8.toNat_ofNat']
      omega
    simp only [List.length_cons, little, ofLittle, hdiv, hmod, ih]

end DocTable
