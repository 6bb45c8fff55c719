import DocTable.Proofs.Json.Grammar
import DocTable.Proofs.Steps
import DocTable.Proofs.Text.Integer

/-!
# Numbers and strings are read by their grammar

Each reader takes a part of the grammar from the front of a text. What it gives is written there, and
what is written there it gives. A number is told from what stands behind it only if it cannot go on
with it.

* `Ends` — what a number cannot go on with.
* `readNumber_eq_ok`, `numeralText_of_readNumber` — numbers, both ways.
* `numeralText_unique` — a number is written as one numeral only.
* `readString_eq_ok`, `stringText_of_readString` — strings, both ways.
* `StringText.unique` — a string is written in one way only.
-/

set_option autoImplicit false

namespace DocTable.Json

/-! ## Blanks -/

theorem Blanks.trans {text middle rest : List Char} (h : Blanks text middle)
    (h' : Blanks middle rest) : Blanks text rest := by
  induction h with
  | none => exact h'
  | cons hc _ ih => exact .cons hc (ih h')

theorem blanks_skipBlanks (text : List Char) : Blanks text (skipBlanks text) := by
  induction text with
  | nil => exact .none
  | cons c text ih =>
    unfold skipBlanks
    cases hc : isBlank c with
    | true =>
      rw [List.dropWhile_cons_of_pos hc]
      exact .cons hc ih
    | false =>
      rw [List.dropWhile_cons_of_neg (by simp [hc])]
      exact .none

theorem skipBlanks_cons {c : Char} (hc : isBlank c = false) (text : List Char) :
    skipBlanks (c :: text) = c :: text :=
  List.dropWhile_cons_of_neg (by simp [hc])

/-- However many blanks there are, the reader goes to where they end. -/
theorem Blanks.skipBlanks_eq {text rest : List Char} (h : Blanks text rest) :
    skipBlanks text = skipBlanks rest := by
  induction h with
  | none => rfl
  | cons hc _ ih => exact (List.dropWhile_cons_of_pos hc).trans ih

theorem Blanks.skipBlanks_cons_eq {c : Char} {text rest : List Char} (h : Blanks text (c :: rest))
    (hc : isBlank c = false) : skipBlanks text = c :: rest :=
  h.skipBlanks_eq.trans (skipBlanks_cons hc rest)

/-! ## Numbers -/

/-- What stands behind a number: nothing that the number could go on with. -/
def Ends (text : List Char) : Prop :=
  ∀ c ∈ text.head?, c.isDigit = false ∧ c ≠ '.' ∧ c ≠ 'e' ∧ c ≠ 'E'

theorem ends_nil : Ends [] := nofun

theorem ends_cons {c : Char} {text : List Char}
    (h : c.isDigit = false ∧ c ≠ '.' ∧ c ≠ 'e' ∧ c ≠ 'E') : Ends (c :: text) := by
  rintro _ ⟨⟩
  exact h

theorem ends_of_isBlank {c : Char} (h : isBlank c = true) (text : List Char) : Ends (c :: text) := by
  apply ends_cons
  simp only [isBlank, Bool.or_eq_true, decide_eq_true_eq] at h
  rcases h with ((rfl | rfl) | rfl) | rfl <;> decide

theorem Blanks.ends {text rest : List Char} (h : Blanks text rest) (hrest : Ends rest) :
    Ends text := by
  cases h with
  | none => exact hrest
  | cons hc _ => exact ends_of_isBlank hc _

theorem readDigits_eq_ok {digits rest : List Char} (h : IsDigits digits)
    (hrest : ∀ c ∈ rest.head?, c.isDigit = false) :
    readDigits (digits ++ rest) = .ok (digits, rest) := by
  obtain ⟨hne, hdigits⟩ := h
  cases digits with
  | nil => exact absurd rfl hne
  | cons c digits =>
    obtain ⟨hc, hdigits⟩ := List.forall_mem_cons.1 hdigits
    obtain ⟨htake, hdrop⟩ := takeWhile_dropWhile_digits hdigits hrest
    rw [List.cons_append, readDigits, if_pos hc, htake, hdrop]

theorem isDigits_of_readDigits {text digits rest : List Char}
    (h : readDigits text = .ok (digits, rest)) : IsDigits digits ∧ text = digits ++ rest := by
  unfold readDigits at h
  split at h
  · cases h
  · rename_i c text
    split at h
    · rename_i hc
      cases h
      refine ⟨⟨List.cons_ne_nil _ _, ?_⟩, ?_⟩
      · exact List.forall_mem_cons.2 ⟨hc, List.all_eq_true.1 List.all_takeWhile⟩
      · rw [List.cons_append, List.takeWhile_append_dropWhile]
    · cases h

theorem readWhole_eq_ok {whole rest : List Char} (h : IsWhole whole)
    (hrest : ∀ c ∈ rest.head?, c.isDigit = false) :
    readWhole (whole ++ rest) = .ok (whole, rest) := by
  obtain ⟨hdigits, hzero⟩ := h
  unfold readWhole
  split
  · rename_i text heq
    obtain rfl : whole = ['0'] := by
      cases whole with
      | nil => exact absurd rfl hdigits.1
      | cons c whole => exact hzero (congrArg some (List.cons.inj heq).1)
    obtain rfl : rest = text := (List.cons.inj heq).2
    rw [if_neg]
    cases rest with
    | nil => decide
    | cons c rest => simp [hrest c rfl]
  · exact readDigits_eq_ok hdigits hrest

theorem isWhole_of_readWhole {text whole rest : List Char}
    (h : readWhole text = .ok (whole, rest)) : IsWhole whole ∧ text = whole ++ rest := by
  unfold readWhole at h
  split at h
  · split at h
    · cases h
    · cases h
      exact ⟨⟨⟨List.cons_ne_nil _ _, List.forall_mem_singleton.2 rfl⟩, fun _ => rfl⟩, rfl⟩
  · rename_i hzero
    obtain ⟨hdigits, rfl⟩ := isDigits_of_readDigits h
    refine ⟨⟨hdigits, fun hhead => ?_⟩, rfl⟩
    obtain ⟨tail, rfl⟩ := List.head?_eq_some_iff.1 hhead
    exact absurd rfl (hzero (tail ++ rest))

theorem readFraction_eq_ok {fraction : Option (List Char)} {text rest : List Char}
    (h : FractionText fraction text) (hrest : ∀ c ∈ rest.head?, c.isDigit = false ∧ c ≠ '.') :
    readFraction (text ++ rest) = .ok (fraction, rest) := by
  cases h with
  | none =>
    unfold readFraction
    split
    · rename_i heq
      rw [List.nil_append] at heq
      exact absurd rfl (hrest '.' (by rw [heq]; rfl)).2
    · rfl
  | some h =>
    rw [List.cons_append, readFraction, readDigits_eq_ok h fun c hc => (hrest c hc).1]
    rfl

theorem fractionText_of_readFraction {text rest : List Char} {fraction : Option (List Char)}
    (h : readFraction text = .ok (fraction, rest)) :
    ∃ front, FractionText fraction front ∧ text = front ++ rest := by
  unfold readFraction at h
  split at h
  · obtain ⟨⟨digits, tail⟩, hdigits, h⟩ := Steps.bind_eq_ok.1 h
    cases h
    obtain ⟨hvalid, rfl⟩ := isDigits_of_readDigits hdigits
    exact ⟨_, .some hvalid, rfl⟩
  · cases h
    exact ⟨[], .none, rfl⟩

/-- Digits are not mistaken for a sign. -/
theorem head_of_isDigits {digits : List Char} (h : IsDigits digits) (rest : List Char) :
    ∃ c tail, digits ++ rest = c :: tail ∧ c.isDigit = true := by
  obtain ⟨hne, hdigits⟩ := h
  cases digits with
  | nil => exact absurd rfl hne
  | cons c digits => exact ⟨c, digits ++ rest, rfl, hdigits c List.mem_cons_self⟩

theorem readExponent_plain {letter c : Char} {text : List Char} (hletter : letter = 'e' ∨ letter = 'E')
    (hc : c ≠ '-' ∧ c ≠ '+') :
    readExponent (letter :: c :: text) = readDigits (c :: text) >>= fun read =>
      .ok (some (digitsValue 10 read.1 : Int), read.2) := by
  unfold readExponent
  refine (if_pos hletter).trans ?_
  split
  rename_i heq
  split at heq
  · rename_i hminus
    exact absurd (List.cons.inj hminus).1 hc.1
  · rename_i hplus
    exact absurd (List.cons.inj hplus).1 hc.2
  · cases heq
    rfl

theorem readExponent_eq_ok {exponent : Option Int} {text rest : List Char}
    (h : ExponentText exponent text) (hrest : Ends rest) :
    readExponent (text ++ rest) = .ok (exponent, rest) := by
  have hdigit : ∀ c ∈ rest.head?, c.isDigit = false := fun c hc => (hrest c hc).1
  cases h with
  | none =>
    cases rest with
    | nil => rfl
    | cons c rest =>
      obtain ⟨-, -, he, hE⟩ := hrest c rfl
      unfold readExponent
      exact if_neg (by simp [he, hE])
  | plain hletter h =>
    have hread := readDigits_eq_ok h hdigit
    obtain ⟨c, tail, htail, hc⟩ := head_of_isDigits h rest
    rw [htail] at hread
    rw [List.cons_append, htail, readExponent_plain hletter (not_sign_of_isDigit hc), hread]
    rfl
  | @plus letter digits hletter h =>
    refine (if_pos hletter).trans ?_
    show (readDigits (digits ++ rest) >>= fun read =>
      Except.ok (some (digitsValue 10 read.1 : Int), read.2)) = _
    rw [readDigits_eq_ok h hdigit]
    rfl
  | @minus letter digits hletter h =>
    refine (if_pos hletter).trans ?_
    show (readDigits (digits ++ rest) >>= fun read =>
      Except.ok (some (-(digitsValue 10 read.1 : Int)), read.2)) = _
    rw [readDigits_eq_ok h hdigit]
    rfl

theorem exponentText_of_readExponent {text rest : List Char} {exponent : Option Int}
    (h : readExponent text = .ok (exponent, rest)) :
    ∃ front, ExponentText exponent front ∧ text = front ++ rest := by
  unfold readExponent at h
  split at h
  · split at h
    · rename_i hletter
      split at h
      rename_i hsign
      obtain ⟨⟨digits, tail⟩, hdigits, h⟩ := Steps.bind_eq_ok.1 h
      obtain ⟨hvalid, htext⟩ := isDigits_of_readDigits hdigits
      cases h
      split at hsign
      · cases hsign
        exact ⟨_, .minus hletter hvalid, by rw [htext]; rfl⟩
      · cases hsign
        exact ⟨_, .plus hletter hvalid, by rw [htext]; rfl⟩
      · cases hsign
        exact ⟨_, .plain hletter hvalid, by rw [htext]; rfl⟩
    · cases h
      exact ⟨[], .none, rfl⟩
  · cases h
    exact ⟨[], .none, rfl⟩

/-- What may stand behind the whole digits: a point, the letter of an exponent, or the end. -/
theorem head_of_fractionText {fraction : Option (List Char)} {exponent : Option Int}
    {fractionText exponentText rest : List Char} (hfraction : FractionText fraction fractionText)
    (hexponent : ExponentText exponent exponentText) (hrest : Ends rest) :
    (∀ c ∈ (exponentText ++ rest).head?, c.isDigit = false ∧ c ≠ '.') ∧
      ∀ c ∈ (fractionText ++ (exponentText ++ rest)).head?, c.isDigit = false := by
  have hletter : ∀ letter : Char, letter = 'e' ∨ letter = 'E' →
      letter.isDigit = false ∧ letter ≠ '.' := by
    rintro letter (rfl | rfl) <;> decide
  have hback : ∀ c ∈ (exponentText ++ rest).head?, c.isDigit = false ∧ c ≠ '.' := by
    cases hexponent with
    | none => exact fun c hc => ⟨(hrest c hc).1, (hrest c hc).2.1⟩
    | plain h => rintro _ ⟨⟩; exact hletter _ h
    | plus h => rintro _ ⟨⟩; exact hletter _ h
    | minus h => rintro _ ⟨⟩; exact hletter _ h
  refine ⟨hback, ?_⟩
  cases hfraction with
  | none => exact fun c hc => (hback c hc).1
  | some => rintro _ ⟨⟩; rfl

theorem readNumber_unsigned {c : Char} {text : List Char} (hc : c ≠ '-') :
    readNumber (c :: text) = (do
      let (whole, text) ← readWhole (c :: text)
      let (fraction, text) ← readFraction text
      let (exponent, text) ← readExponent text
      match Numeral.value? ⟨false, whole, fraction, exponent⟩ with
      | some n => .ok (n, text)
      | none => .error .malformed) := by
  unfold readNumber
  split
  rename_i hsign
  split at hsign
  · rename_i hminus
    exact absurd (List.cons.inj hminus).1 hc
  · cases hsign
    rfl

/-- **A number that has a value is read**, whatever it cannot go on with behind it. -/
theorem readNumber_eq_ok {numeral : Numeral} {n : Number} {text rest : List Char}
    (h : NumeralText numeral text) (hvalue : numeral.value? = some n) (hrest : Ends rest) :
    readNumber (text ++ rest) = .ok (n, rest) := by
  obtain @⟨negative, whole, fractionText, exponentText, fraction, exponent, hwhole, hfraction,
    hexponent⟩ := h
  obtain ⟨hbehindFraction, hbehindWhole⟩ := head_of_fractionText hfraction hexponent hrest
  have hread := readWhole_eq_ok hwhole hbehindWhole
  have hread' := readFraction_eq_ok hfraction hbehindFraction
  have hread'' := readExponent_eq_ok hexponent hrest
  simp only [List.append_assoc]
  cases negative with
  | true =>
    show (readWhole (whole ++ (fractionText ++ (exponentText ++ rest))) >>= fun read =>
      readFraction read.2 >>= fun read' => readExponent read'.2 >>= fun read'' =>
        match Numeral.value? ⟨true, read.1, read'.1, read''.1⟩ with
        | some n => Except.ok (n, read''.2)
        | none => .error .malformed) = _
    simp only [hread, hread', hread'', Steps.ok_bind, hvalue]
  | false =>
    obtain ⟨c, tail, htail, hc⟩ :=
      head_of_isDigits hwhole.1 (fractionText ++ (exponentText ++ rest))
    rw [htail] at hread
    rw [if_neg Bool.false_ne_true, List.nil_append, htail,
      readNumber_unsigned (not_sign_of_isDigit hc).1]
    simp only [hread, hread', hread'', Steps.ok_bind, hvalue]

/-- **What is read as a number** is written as one, and has this value. -/
theorem numeralText_of_readNumber {text rest : List Char} {n : Number}
    (h : readNumber text = .ok (n, rest)) :
    ∃ numeral front, NumeralText numeral front ∧ numeral.value? = some n ∧ text = front ++ rest := by
  unfold readNumber at h
  split at h
  rename_i negative unsigned hsign
  obtain ⟨⟨whole, behindWhole⟩, hwhole, hread⟩ := Steps.bind_eq_ok.1 h
  obtain ⟨⟨fraction, behindFraction⟩, hfraction, hread'⟩ := Steps.bind_eq_ok.1 hread
  obtain ⟨⟨exponent, behindExponent⟩, hexponent, hread''⟩ := Steps.bind_eq_ok.1 hread'
  obtain ⟨hvalid, rfl⟩ := isWhole_of_readWhole hwhole
  obtain ⟨fractionText, hfractionText, rfl⟩ := fractionText_of_readFraction hfraction
  obtain ⟨exponentText, hexponentText, rfl⟩ := exponentText_of_readExponent hexponent
  simp only at hread''
  split at hread''
  · rename_i hvalue
    cases hread''
    refine ⟨_, _, .mk hvalid hfractionText hexponentText, hvalue, ?_⟩
    split at hsign <;> · cases hsign; simp
  · cases hread''

/-- A number starts with a sign or a digit. -/
theorem NumeralText.head {numeral : Numeral} {text : List Char} (h : NumeralText numeral text) :
    ∃ c tail, text = c :: tail ∧ (c = '-' ∨ c.isDigit = true) := by
  obtain @⟨negative, whole, fractionText, exponentText, fraction, exponent, hwhole, -, -⟩ := h
  cases negative with
  | true => exact ⟨_, _, rfl, .inl rfl⟩
  | false =>
    obtain ⟨c, tail, htail, hc⟩ := head_of_isDigits hwhole.1 (fractionText ++ exponentText)
    exact ⟨c, tail, htail, .inr hc⟩

/-- **A number is written as one numeral only**, since it goes on as far as it can. -/
theorem numeralText_unique {numeral other : Numeral} {text front rest rest' : List Char}
    (h : NumeralText numeral text) (h' : NumeralText other front) (hrest : Ends rest)
    (hrest' : Ends rest') (heq : text ++ rest = front ++ rest') :
    numeral = other ∧ rest = rest' := by
  obtain @⟨negative, whole, fractionText, exponentText, fraction, exponent, hwhole, hfraction,
    hexponent⟩ := h
  obtain @⟨negative', whole', fractionText', exponentText', fraction', exponent', hwhole',
    hfraction', hexponent'⟩ := h'
  obtain ⟨hbehindFraction, hbehindWhole⟩ := head_of_fractionText hfraction hexponent hrest
  obtain ⟨hbehindFraction', hbehindWhole'⟩ := head_of_fractionText hfraction' hexponent' hrest'
  obtain ⟨rfl, hunsigned⟩ : negative = negative' ∧
      whole ++ (fractionText ++ (exponentText ++ rest)) =
        whole' ++ (fractionText' ++ (exponentText' ++ rest')) := by
    simp only [List.append_assoc] at heq
    obtain ⟨c, tail, htail, hc⟩ :=
      head_of_isDigits hwhole.1 (fractionText ++ (exponentText ++ rest))
    obtain ⟨c', tail', htail', hc'⟩ :=
      head_of_isDigits hwhole'.1 (fractionText' ++ (exponentText' ++ rest'))
    rw [htail, htail'] at heq ⊢
    cases negative <;> cases negative'
    · exact ⟨rfl, heq⟩
    · exact absurd (List.cons.inj heq).1 (not_sign_of_isDigit hc).1
    · exact absurd (List.cons.inj heq).1.symm (not_sign_of_isDigit hc').1
    · exact ⟨rfl, (List.cons.inj heq).2⟩
  have hread := readWhole_eq_ok hwhole hbehindWhole
  rw [hunsigned, readWhole_eq_ok hwhole' hbehindWhole'] at hread
  obtain ⟨rfl, hfractions⟩ := Prod.mk.inj (Except.ok.inj hread)
  have hread' := readFraction_eq_ok hfraction hbehindFraction
  rw [← hfractions, readFraction_eq_ok hfraction' hbehindFraction'] at hread'
  obtain ⟨rfl, hexponents⟩ := Prod.mk.inj (Except.ok.inj hread')
  have hread'' := readExponent_eq_ok hexponent hrest
  rw [← hexponents, readExponent_eq_ok hexponent' hrest'] at hread''
  obtain ⟨rfl, rfl⟩ := Prod.mk.inj (Except.ok.inj hread'')
  exact ⟨rfl, rfl⟩

/-! ## Strings -/

theorem UnitText.readUnit_eq {n : Nat} {text rest : List Char} (h : UnitText n text rest) :
    readUnit text = .ok (n, rest) := by
  obtain ⟨ha, hb, hc, hd⟩ := h
  simp only [readUnit, ha, hb, hc, hd]

theorem unitText_of_readUnit {n : Nat} {text rest : List Char} (h : readUnit text = .ok (n, rest)) :
    UnitText n text rest := by
  unfold readUnit at h
  split at h
  · split at h
    · rename_i ha hb hc hd
      cases h
      exact .mk ha hb hc hd
    · cases h
  · split at h <;> cases h

variable {pieces : List Piece} {text rest : List Char}

/-- A unit that is a character of its own. -/
theorem charsOf?_unit {n : Nat} (hlow : ¬ IsLow n) (hhigh : ¬ IsHigh n) (pieces : List Piece) :
    charsOf? (.unit n :: pieces) = (charsOf? pieces).map (Char.ofNat n :: ·) := by
  rw [charsOf?.eq_def]
  simp only [if_neg hlow, if_neg hhigh]

theorem not_isLow_of_isHigh {n : Nat} (h : IsHigh n) : ¬ IsLow n := by
  unfold IsHigh IsLow at *
  omega

/-- Two units that are the halves of a character. -/
theorem charsOf?_pair {n low : Nat} (hhigh : IsHigh n) (hlow : IsLow low) (pieces : List Piece) :
    charsOf? (.unit n :: .unit low :: pieces) =
      (charsOf? pieces).map
        (Char.ofNat ((n - 0xD800) * 1024 + (low - 0xDC00) + 0x10000) :: ·) := by
  rw [charsOf?, if_neg (not_isLow_of_isHigh hhigh), if_pos hhigh, if_pos hlow]

theorem readEscape_unit {n : Nat} {middle : List Char} (h : readUnit text = .ok (n, middle)) :
    readEscape ('u' :: text) =
      if IsLow n then .error .malformed
      else if IsHigh n then readLowSurrogate n middle
      else .ok (Char.ofNat n, middle) := by
  show (readUnit text >>= fun read =>
    if IsLow read.1 then Except.error Fault.malformed
    else if IsHigh read.1 then readLowSurrogate read.1 read.2
    else .ok (Char.ofNat read.1, read.2)) = _
  rw [h, Steps.ok_bind]

theorem readLowSurrogate_unit {low : Nat} {middle : List Char}
    (h : readUnit text = .ok (low, middle)) (high : Nat) :
    readLowSurrogate high ('\\' :: 'u' :: text) =
      if IsLow low then
        .ok (Char.ofNat ((high - 0xD800) * 1024 + (low - 0xDC00) + 0x10000), middle)
      else .error .malformed := by
  show (readUnit text >>= fun read =>
    if IsLow read.1 then
      Except.ok (Char.ofNat ((high - 0xD800) * 1024 + (read.1 - 0xDC00) + 0x10000), read.2)
    else .error Fault.malformed) = _
  rw [h, Steps.ok_bind]

/-- What is read behind the first half of a character is written there as the second one. -/
theorem unitText_of_readLowSurrogate {high : Nat} {c : Char} {middle : List Char}
    (h : readLowSurrogate high text = .ok (c, middle)) :
    ∃ low front, text = '\\' :: 'u' :: front ∧ UnitText low front middle ∧ IsLow low ∧
      c = Char.ofNat ((high - 0xD800) * 1024 + (low - 0xDC00) + 0x10000) := by
  unfold readLowSurrogate at h
  split at h
  · cases h
  · cases h
  · obtain ⟨⟨low, behind⟩, hunit, hread⟩ := Steps.bind_eq_ok.1 h
    simp only at hread
    split at hread
    · rename_i hlow
      obtain ⟨rfl, rfl⟩ := Prod.mk.inj (Except.ok.inj hread)
      exact ⟨low, _, rfl, unitText_of_readUnit hunit, hlow, rfl⟩
    · cases hread
  · cases h

/-- What is read behind a backslash and a `u` is written there, as one unit or as two halves. -/
theorem stringText_of_readEscape_unit {c : Char} {middle chars : List Char}
    (h : readEscape ('u' :: text) = .ok (c, middle)) (hpieces : StringText pieces middle rest)
    (hchars : charsOf? pieces = some chars) :
    ∃ more, StringText more ('\\' :: 'u' :: text) rest ∧ charsOf? more = some (c :: chars) := by
  obtain ⟨⟨n, behind⟩, hunit, -⟩ := Steps.bind_eq_ok.1 h
  rw [readEscape_unit hunit] at h
  have hfirst := unitText_of_readUnit hunit
  split at h
  · cases h
  · rename_i hlow
    split at h
    · rename_i hhigh
      obtain ⟨low, front, rfl, hsecond, hsecondLow, hc⟩ := unitText_of_readLowSurrogate h
      refine ⟨_, .unit hfirst (.unit hsecond hpieces), ?_⟩
      rw [charsOf?_pair hhigh hsecondLow, hchars, Option.map_some, hc]
    · rename_i hhigh
      cases h
      refine ⟨_, .unit hfirst hpieces, ?_⟩
      rw [charsOf?_unit hlow hhigh, hchars, Option.map_some]

/-- The letters behind a backslash are read as what they stand for. -/
theorem readEscape_of_mem {letter c : Char} (h : (letter, c) ∈ escapes) (text : List Char) :
    readEscape (letter :: text) = .ok (c, text) := by
  simp only [escapes, List.mem_cons, Prod.mk.injEq, List.not_mem_nil, or_false] at h
  rcases h with ⟨rfl, rfl⟩ | ⟨rfl, rfl⟩ | ⟨rfl, rfl⟩ | ⟨rfl, rfl⟩ | ⟨rfl, rfl⟩ | ⟨rfl, rfl⟩ |
    ⟨rfl, rfl⟩ | ⟨rfl, rfl⟩ <;> rfl

theorem mem_escapes_of_readEscape {letter c : Char} {middle : List Char} (hletter : letter ≠ 'u')
    (h : readEscape (letter :: text) = .ok (c, middle)) :
    (letter, c) ∈ escapes ∧ middle = text := by
  unfold readEscape at h
  split at h
  case h_1 heq => cases heq
  case h_10 heq => exact absurd (List.cons.inj heq).1 hletter
  case h_11 => cases h
  all_goals
    rename_i heq
    obtain ⟨rfl, rfl⟩ := List.cons.inj heq
    cases h
    exact ⟨by simp [escapes], rfl⟩

/-- **What is read behind a backslash** is written there. -/
theorem stringText_of_readEscape {c : Char} {middle chars : List Char}
    (h : readEscape text = .ok (c, middle)) (hpieces : StringText pieces middle rest)
    (hchars : charsOf? pieces = some chars) :
    ∃ more, StringText more ('\\' :: text) rest ∧ charsOf? more = some (c :: chars) := by
  cases text with
  | nil => cases h
  | cons letter text =>
    by_cases hletter : letter = 'u'
    · subst hletter
      exact stringText_of_readEscape_unit h hpieces hchars
    · obtain ⟨hmem, rfl⟩ := mem_escapes_of_readEscape hletter h
      refine ⟨_, .escaped hmem hpieces, ?_⟩
      rw [charsOf?, hchars, Option.map_some]

/-- **What is read as a string is written as one.** -/
theorem stringText_of_readChars {fuel : Nat} {chars : List Char}
    (h : readChars fuel text = .ok (chars, rest)) :
    ∃ pieces, StringText pieces text rest ∧ charsOf? pieces = some chars := by
  induction fuel generalizing text chars with
  | zero => cases h
  | succ fuel ih =>
    cases text with
    | nil => cases h
    | cons c text =>
      rw [readChars] at h
      split at h
      · rename_i hquote
        cases h
        subst hquote
        exact ⟨[], .done, rfl⟩
      · rename_i hquote
        split at h
        · rename_i hslash
          subst hslash
          obtain ⟨⟨x, middle⟩, hescape, h⟩ := Steps.bind_eq_ok.1 h
          obtain ⟨⟨xs, last⟩, hrest, h⟩ := Steps.bind_eq_ok.1 h
          cases h
          obtain ⟨pieces, hpieces, hchars⟩ := ih hrest
          exact stringText_of_readEscape hescape hpieces hchars
        · rename_i hslash
          split at h
          · cases h
          · rename_i hcontrol
            obtain ⟨⟨xs, last⟩, hrest, h⟩ := Steps.bind_eq_ok.1 h
            cases h
            obtain ⟨pieces, hpieces, hchars⟩ := ih hrest
            refine ⟨_, .plain hquote hslash (Nat.le_of_not_lt hcontrol) hpieces, ?_⟩
            rw [charsOf?, hchars, Option.map_some]

theorem readEscape_pair {n low : Nat} {middle behind : List Char} (h : UnitText n text middle)
    (hhigh : IsHigh n) (h' : UnitText low behind rest) (hlow : IsLow low)
    (hmiddle : middle = '\\' :: 'u' :: behind) :
    readEscape ('u' :: text) =
      .ok (Char.ofNat ((n - 0xD800) * 1024 + (low - 0xDC00) + 0x10000), rest) := by
  rw [readEscape_unit h.readUnit_eq, if_neg (not_isLow_of_isHigh hhigh), if_pos hhigh, hmiddle,
    readLowSurrogate_unit h'.readUnit_eq, if_pos hlow]

theorem readChars_plain {c : Char} (hquote : c ≠ '"') (hslash : c ≠ '\\') (hcontrol : 32 ≤ c.toNat)
    (fuel : Nat) (text : List Char) :
    readChars (fuel + 1) (c :: text) =
      readChars fuel text >>= fun read => .ok (c :: read.1, read.2) := by
  rw [readChars, if_neg hquote, if_neg hslash, if_neg (Nat.not_lt_of_le hcontrol)]

theorem readChars_escape {c : Char} {middle : List Char} (h : readEscape text = .ok (c, middle))
    (fuel : Nat) :
    readChars (fuel + 1) ('\\' :: text) =
      readChars fuel middle >>= fun read => .ok (c :: read.1, read.2) := by
  rw [readChars, if_neg (by decide), if_pos rfl, h]
  rfl

/-- **A string that has characters is read**, by as many steps as there are pieces and one more. -/
theorem readChars_eq_ok {chars : List Char} (h : StringText pieces text rest)
    (hchars : charsOf? pieces = some chars) {fuel : Nat} (hfuel : pieces.length ≤ fuel) :
    readChars (fuel + 1) text = .ok (chars, rest) := by
  -- The halves of a character are two pieces of the grammar, and one character of the reader.
  fun_induction charsOf? pieces generalizing chars text fuel with
  | case1 =>
    cases hchars
    cases h
    rfl
  | case2 c pieces ih =>
    obtain ⟨cs, hcs, rfl⟩ := Option.map_eq_some_iff.1 hchars
    obtain ⟨fuel, rfl⟩ := Nat.exists_eq_add_one.2 (Nat.zero_lt_of_lt hfuel)
    have hlength : pieces.length ≤ fuel := Nat.le_of_succ_le_succ hfuel
    cases h with
    | plain hquote hslash hcontrol h =>
      rw [readChars_plain hquote hslash hcontrol, ih h hcs hlength]
      rfl
    | escaped hmem h =>
      rw [readChars_escape (readEscape_of_mem hmem _), ih h hcs hlength]
      rfl
  | case4 n _ hhigh low pieces hlow ih =>
    obtain ⟨cs, hcs, rfl⟩ := Option.map_eq_some_iff.1 hchars
    obtain ⟨fuel, rfl⟩ := Nat.exists_eq_add_one.2 (Nat.zero_lt_of_lt hfuel)
    have hlength : pieces.length ≤ fuel := by simp at hfuel; omega
    cases h with
    | unit hfirst h =>
      cases h with
      | unit hsecond h =>
        rw [readChars_escape (readEscape_pair hfirst hhigh hsecond hlow rfl), ih h hcs hlength]
        rfl
  | case7 n pieces hlow hhigh ih =>
    obtain ⟨cs, hcs, rfl⟩ := Option.map_eq_some_iff.1 hchars
    obtain ⟨fuel, rfl⟩ := Nat.exists_eq_add_one.2 (Nat.zero_lt_of_lt hfuel)
    have hlength : pieces.length ≤ fuel := Nat.le_of_succ_le_succ hfuel
    cases h with
    | unit hfirst h =>
      have hescape := readEscape_unit hfirst.readUnit_eq
      rw [if_neg hlow, if_neg hhigh] at hescape
      rw [readChars_escape hescape, ih h hcs hlength]
      rfl
  | case3 | case5 | case6 => cases hchars

/-- There are no more pieces than letters. -/
theorem StringText.length_lt (h : StringText pieces text rest) :
    pieces.length + rest.length < text.length := by
  induction h with
  | done => simp
  | plain _ _ _ _ ih => simp only [List.length_cons]; omega
  | escaped _ _ ih => simp only [List.length_cons]; omega
  | unit hunit _ ih =>
    cases hunit
    simp only [List.length_cons] at ih ⊢
    omega

/-- **A string that has characters is read.** -/
theorem readString_eq_ok {chars : List Char} (h : StringText pieces text rest)
    (hchars : charsOf? pieces = some chars) : readString text = .ok (String.ofList chars, rest) := by
  have hlength := h.length_lt
  unfold readString
  rw [readChars_eq_ok h hchars (by omega)]
  rfl

theorem stringText_of_readString {s : String} (h : readString text = .ok (s, rest)) :
    ∃ pieces chars, StringText pieces text rest ∧ charsOf? pieces = some chars ∧
      s = String.ofList chars := by
  obtain ⟨⟨chars, last⟩, hread, h⟩ := Steps.bind_eq_ok.1 h
  cases h
  obtain ⟨pieces, hpieces, hchars⟩ := stringText_of_readChars hread
  exact ⟨pieces, chars, hpieces, hchars, rfl⟩

theorem UnitText.unique {n m : Nat} {rest' : List Char} (h : UnitText n text rest)
    (h' : UnitText m text rest') : n = m ∧ rest = rest' := by
  have hread := h.readUnit_eq
  rw [h'.readUnit_eq] at hread
  obtain ⟨rfl, rfl⟩ := Prod.mk.inj (Except.ok.inj hread)
  exact ⟨rfl, rfl⟩

theorem escapes_unique {letter c d : Char} (h : (letter, c) ∈ escapes) (h' : (letter, d) ∈ escapes) :
    c = d := by
  have hread := readEscape_of_mem h []
  rw [readEscape_of_mem h' []] at hread
  exact (Prod.mk.inj (Except.ok.inj hread)).1.symm

/-- **A string is written in one way only.** -/
theorem StringText.unique {others : List Piece} {rest' : List Char} (h : StringText pieces text rest)
    (h' : StringText others text rest') : pieces = others ∧ rest = rest' := by
  have hu : ∀ {c : Char}, ('u', c) ∉ escapes := by simp [escapes]
  induction h generalizing others with
  | done =>
    cases h' with
    | done => exact ⟨rfl, rfl⟩
    | plain hquote => exact absurd rfl hquote
  | plain hquote hslash _ _ ih =>
    cases h' with
    | done => exact absurd rfl hquote
    | plain _ _ _ h' =>
      obtain ⟨rfl, rfl⟩ := ih h'
      exact ⟨rfl, rfl⟩
    | escaped | unit => exact absurd rfl hslash
  | escaped hmem _ ih =>
    cases h' with
    | plain _ hslash => exact absurd rfl hslash
    | escaped hmem' h' =>
      obtain ⟨rfl, rfl⟩ := ih h'
      obtain rfl := escapes_unique hmem hmem'
      exact ⟨rfl, rfl⟩
    | unit => exact absurd hmem hu
  | unit hunit _ ih =>
    cases h' with
    | plain _ hslash => exact absurd rfl hslash
    | escaped hmem' => exact absurd hmem' hu
    | unit hunit' h' =>
      obtain ⟨rfl, rfl⟩ := hunit.unique hunit'
      obtain ⟨rfl, rfl⟩ := ih h'
      exact ⟨rfl, rfl⟩

end DocTable.Json
