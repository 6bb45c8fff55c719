import DocTable.Proofs.Steps
import DocTable.Text.Utf8

/-!
# UTF-8: reading is the inverse of writing

* `decode_bytes` — the bytes of a text are read back as that text.
* `bytes_of_decode` — bytes that are read as a text are the bytes of that text, so no text has a
  second spelling.
* `decode_eq_ok_iff` — the two together.
* `lt_of_decode_eq_error` — what cannot be read starts before the end of the bytes.
* `zero_mem_bytes_iff` — a byte is zero only where the text has the character U+0000.

The reader tries one, two, three and four bytes in turn.  That it never stops too early rests on
`lead_lt`: the first byte of a character tells how many bytes the character has.
-/

set_option autoImplicit false

namespace DocTable.Utf8

/-! ## One character -/

theorem utf8EncodeChar_of_charOf? {code : Nat} {bs : Bytes} {c : Char}
    (h : charOf? code bs = some c) : String.utf8EncodeChar c = bs := by
  unfold charOf? at h
  simp only [Option.ite_none_right_eq_some, Option.some.injEq] at h
  obtain ⟨henc, rfl⟩ := h
  exact henc

theorem charOf?_toNat (c : Char) : charOf? c.toNat (String.utf8EncodeChar c) = some c := by
  simp [charOf?, Char.ofNat_toNat]

/-- The first byte of a character bounds the number of bytes that follow it. -/
theorem lead_lt {c : Char} {a : UInt8} {bs : Bytes} (h : String.utf8EncodeChar c = a :: bs) :
    (bs.length < 1 → a.toNat < 128) ∧ (bs.length < 2 → a.toNat < 224) ∧
      (bs.length < 3 → a.toNat < 240) := by
  simp only [String.utf8EncodeChar] at h
  split at h
  · simp only [List.cons.injEq] at h
    obtain ⟨rfl, rfl⟩ := h
    simp only [UInt8.toNat_ofNat', List.length_nil]
    omega
  split at h
  · simp only [List.cons.injEq] at h
    obtain ⟨rfl, rfl⟩ := h
    simp only [UInt8.toNat_ofNat', List.length_cons, List.length_nil]
    omega
  split at h
  · simp only [List.cons.injEq] at h
    obtain ⟨rfl, rfl⟩ := h
    simp only [UInt8.toNat_ofNat', List.length_cons, List.length_nil]
    omega
  · simp only [List.cons.injEq] at h
    obtain ⟨rfl, rfl⟩ := h
    simp only [List.length_cons, List.length_nil]
    omega

theorem char1?_eq_none {a : UInt8} (h : 128 ≤ a.toNat) : char1? a = none := by
  rw [Option.eq_none_iff_forall_ne_some]
  intro c hc
  have := (lead_lt (utf8EncodeChar_of_charOf? hc)).1 (by simp)
  omega

theorem char2?_eq_none {a b : UInt8} (h : 224 ≤ a.toNat) : char2? a b = none := by
  rw [Option.eq_none_iff_forall_ne_some]
  intro c hc
  have := (lead_lt (utf8EncodeChar_of_charOf? hc)).2.1 (by simp)
  omega

theorem char3?_eq_none {a b d : UInt8} (h : 240 ≤ a.toNat) : char3? a b d = none := by
  rw [Option.eq_none_iff_forall_ne_some]
  intro c hc
  have := (lead_lt (utf8EncodeChar_of_charOf? hc)).2.2 (by simp)
  omega

/-- The bytes of a character, with the first byte's class and the number that the bytes carry. -/
theorem utf8EncodeChar_cases (c : Char) :
    (∃ a, String.utf8EncodeChar c = [a] ∧ a.toNat = c.toNat) ∨
    (∃ a b, String.utf8EncodeChar c = [a, b] ∧ 128 ≤ a.toNat ∧
      a.toNat % 32 * 64 + b.toNat % 64 = c.toNat) ∨
    (∃ a b d, String.utf8EncodeChar c = [a, b, d] ∧ 224 ≤ a.toNat ∧
      (a.toNat % 16 * 64 + b.toNat % 64) * 64 + d.toNat % 64 = c.toNat) ∨
    (∃ a b d e, String.utf8EncodeChar c = [a, b, d, e] ∧ 240 ≤ a.toNat ∧
      ((a.toNat % 8 * 64 + b.toNat % 64) * 64 + d.toNat % 64) * 64 + e.toNat % 64 = c.toNat) := by
  have hmax : c.toNat < 0x110000 := by
    rcases c.valid with h | ⟨_, h⟩
    · exact Nat.lt_trans h (by decide)
    · exact h
  simp only [String.utf8EncodeChar, show c.val.toNat = c.toNat from rfl]
  split
  · refine Or.inl ⟨_, rfl, ?_⟩
    simp only [UInt8.toNat_ofNat']
    omega
  split
  · refine Or.inr (Or.inl ⟨_, _, rfl, ?_⟩)
    simp only [UInt8.toNat_ofNat']
    omega
  split
  · refine Or.inr (Or.inr (Or.inl ⟨_, _, _, rfl, ?_⟩))
    simp only [UInt8.toNat_ofNat']
    omega
  · refine Or.inr (Or.inr (Or.inr ⟨_, _, _, _, rfl, ?_⟩))
    simp only [UInt8.toNat_ofNat']
    omega

/-- The reader takes exactly one character when the bytes of one are in front. -/
theorem decodeFrom_utf8EncodeChar (offset : Nat) (c : Char) (bs : Bytes) :
    decodeFrom offset (String.utf8EncodeChar c ++ bs) =
      (c :: ·) <$> decodeFrom (offset + (String.utf8EncodeChar c).length) bs := by
  have hread := charOf?_toNat c
  obtain ⟨a, henc, hval⟩ | ⟨a, b, henc, ha, hval⟩ | ⟨a, b, d, henc, ha, hval⟩ |
    ⟨a, b, d, e, henc, ha, hval⟩ := utf8EncodeChar_cases c <;> rw [henc] at hread ⊢
  · have hc : char1? a = some c := by rw [char1?, hval, hread]
    rw [List.singleton_append, decodeFrom.eq_def]
    simp only [hc, List.length_singleton]
  · have hc : char2? a b = some c := by rw [char2?, hval, hread]
    rw [List.cons_append, List.singleton_append, decodeFrom.eq_def]
    simp only [char1?_eq_none ha, hc]
    rfl
  · have hc : char3? a b d = some c := by rw [char3?, hval, hread]
    rw [List.cons_append, List.cons_append, List.singleton_append, decodeFrom.eq_def]
    simp only [char1?_eq_none (show 128 ≤ a.toNat by omega), char2?_eq_none ha, hc]
    rfl
  · have hc : char4? a b d e = some c := by rw [char4?, hval, hread]
    rw [List.cons_append, List.cons_append, List.cons_append, List.singleton_append,
      decodeFrom.eq_def]
    simp only [char1?_eq_none (show 128 ≤ a.toNat by omega),
      char2?_eq_none (show 224 ≤ a.toNat by omega), char3?_eq_none ha, hc]
    rfl

/-! ## Whole texts -/

theorem decodeFrom_encode (offset : Nat) (text : List Char) :
    decodeFrom offset (encode text) = .ok text := by
  induction text generalizing offset with
  | nil => rfl
  | cons c text ih =>
    rw [encode, List.flatMap_cons, decodeFrom_utf8EncodeChar]
    show (c :: ·) <$> decodeFrom _ (encode text) = _
    rw [ih]
    rfl

theorem encode_cons (c : Char) (text : List Char) :
    encode (c :: text) = String.utf8EncodeChar c ++ encode text := by
  simp [encode]

theorem encode_cons_of_map {c : Char} {x : Except Nat (List Char)} {lead bs : Bytes}
    {text : List Char} (hc : String.utf8EncodeChar c = lead) (h : (c :: ·) <$> x = .ok text)
    (ih : ∀ {rest}, x = .ok rest → encode rest = bs) : encode text = lead ++ bs := by
  obtain ⟨rest, hrest, rfl⟩ := Steps.map_eq_ok.1 h
  rw [encode_cons, hc, ih hrest]

theorem encode_of_decodeFrom {offset : Nat} {bs : Bytes} {text : List Char}
    (h : decodeFrom offset bs = .ok text) : encode text = bs := by
  fun_induction decodeFrom offset bs generalizing text with
  | case1 => cases h; rfl
  | case2 _ _ _ _ hc ih => exact encode_cons_of_map (utf8EncodeChar_of_charOf? hc) h ih
  | case4 _ _ _ _ _ _ hc ih => exact encode_cons_of_map (utf8EncodeChar_of_charOf? hc) h ih
  | case6 _ _ _ _ _ _ _ _ hc ih => exact encode_cons_of_map (utf8EncodeChar_of_charOf? hc) h ih
  | case8 _ _ _ _ _ _ _ _ _ _ hc ih => exact encode_cons_of_map (utf8EncodeChar_of_charOf? hc) h ih
  | case3 | case5 | case7 | case9 => cases h

@[simp] theorem decode_bytes (text : String) : decode (bytes text) = .ok text := by
  rw [decode, bytes, decodeFrom_encode]
  exact congrArg Except.ok String.ofList_toList

theorem bytes_of_decode {bs : Bytes} {text : String} (h : decode bs = .ok text) :
    bytes text = bs := by
  obtain ⟨chars, hchars, rfl⟩ := Steps.map_eq_ok.1 h
  rw [bytes, String.toList_ofList]
  exact encode_of_decodeFrom hchars

/-- **Reading accepts exactly the bytes of a text.** -/
theorem decode_eq_ok_iff {bs : Bytes} {text : String} : decode bs = .ok text ↔ bs = bytes text :=
  ⟨fun h => (bytes_of_decode h).symm, fun h => h ▸ decode_bytes text⟩

/-! ## Refusals -/

theorem lt_of_decodeFrom_eq_error {offset valid : Nat} {bs : Bytes}
    (h : decodeFrom offset bs = .error valid) : valid < offset + bs.length := by
  fun_induction decodeFrom offset bs generalizing valid with
  | case1 => cases h
  | case2 _ _ _ _ _ ih | case4 _ _ _ _ _ _ _ ih | case6 _ _ _ _ _ _ _ _ _ ih
  | case8 _ _ _ _ _ _ _ _ _ _ _ ih =>
    have hvalid := ih (Steps.map_eq_error.1 h)
    simp only [List.length_cons]
    omega
  | case3 | case5 | case7 | case9 =>
    cases h
    simp

theorem lt_of_decode_eq_error {valid : Nat} {bs : Bytes} (h : decode bs = .error valid) :
    valid < bs.length := by
  have hvalid := lt_of_decodeFrom_eq_error (Steps.map_eq_error.1 h)
  rwa [Nat.zero_add] at hvalid

/-! ## Where a byte is zero -/

theorem zero_mem_utf8EncodeChar_iff {c : Char} :
    (0 : UInt8) ∈ String.utf8EncodeChar c ↔ c = '\x00' := by
  have hzero : ∀ n : Nat, (0 : UInt8) = UInt8.ofNat n ↔ n % 256 = 0 := by
    intro n
    rw [← UInt8.toNat_inj, UInt8.toNat_ofNat']
    exact eq_comm
  have hnul : c = '\x00' ↔ c.val.toNat = 0 := by
    rw [← Char.toNat_inj]
    rfl
  simp only [hnul, String.utf8EncodeChar]
  split
  · simp only [List.mem_singleton, hzero]
    omega
  -- every byte of a longer character has its high bit set
  split
  · simp only [List.mem_cons, List.not_mem_nil, or_false, hzero]
    omega
  split
  · simp only [List.mem_cons, List.not_mem_nil, or_false, hzero]
    omega
  · simp only [List.mem_cons, List.not_mem_nil, or_false, hzero]
    omega

/-- Only the character U+0000 is written with a byte that is zero. -/
theorem zero_mem_bytes_iff {text : String} : (0 : UInt8) ∈ bytes text ↔ '\x00' ∈ text.toList := by
  simp only [bytes, encode, List.mem_flatMap, zero_mem_utf8EncodeChar_iff, exists_eq_right]

/-! ## Texts of one byte a character -/

theorem encode_ascii {text : List Char} (h : ∀ c ∈ text, c.toNat < 128) :
    encode text = text.map fun c => UInt8.ofNat c.toNat := by
  induction text with
  | nil => rfl
  | cons c text ih =>
    have hc : c.val.toNat ≤ 0x7f := Nat.le_of_lt_succ (h c List.mem_cons_self)
    rw [encode_cons, ih fun d hd => h d (List.mem_cons_of_mem c hd), List.map_cons]
    simp only [String.utf8EncodeChar, hc, if_true]
    rfl

end DocTable.Utf8
