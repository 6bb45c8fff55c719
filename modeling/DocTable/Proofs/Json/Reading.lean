import DocTable.Proofs.Json.Tokens

/-!
# JSON is read by its grammar

What a reader of values gives is written in front of the rest, and what is written in no more levels
than the reader has, and has a value, it gives.

* `Reader.Sound` — what is read is written, in no more than so many levels; a lemma for each reader.
* `readValue_of_valueText` — what is written in so many levels is read as its value.
* `read_eq_ok_iff` — **a text is read exactly if it is JSON** that goes no deeper than 127 levels and
  has a value; `exists_read_eq_error_iff` — what is refused.
-/

set_option autoImplicit false

namespace DocTable.Json

/-! ## Blanks in front -/

theorem ElementText.of_blanks {w : Written} {text front rest : List Char} (h : Blanks text front)
    (h' : ElementText w front rest) : ElementText w text rest := by
  cases h' with
  | mk hfront hvalue hback => exact .mk (h.trans hfront) hvalue hback

theorem ItemsText.of_blanks {items : List Written} {text front rest : List Char}
    (h : Blanks text front) (h' : ItemsText items front rest) : ItemsText items text rest := by
  cases h' with
  | last hitem => exact .last (hitem.of_blanks h)
  | more hitem hitems => exact .more (hitem.of_blanks h) hitems

theorem MemberText.of_blanks {member : List Piece × Written} {text front rest : List Char}
    (h : Blanks text front) (h' : MemberText member front rest) : MemberText member text rest := by
  cases h' with
  | mk hfront hname hmiddle hvalue => exact .mk (h.trans hfront) hname hmiddle hvalue

theorem MembersText.of_blanks {members : List (List Piece × Written)} {text front rest : List Char}
    (h : Blanks text front) (h' : MembersText members front rest) : MembersText members text rest := by
  cases h' with
  | last hmember => exact .last (hmember.of_blanks h)
  | more hmember hmembers => exact .more (hmember.of_blanks h) hmembers

/-- Blanks behind a member are blanks behind its value. -/
theorem MemberText.behind {member : List Piece × Written} {text back rest : List Char}
    (h : MemberText member text back) (h' : Blanks back rest) : MemberText member text rest := by
  cases h with
  | mk hfront hname hmiddle hvalue =>
    cases hvalue with
    | mk hblanks hw hback => exact .mk hfront hname hmiddle (.mk hblanks hw (hback.trans h'))

/-- What is left behind blanks stands behind them. -/
theorem blanks_of_skipBlanks {text rest : List Char} (h : skipBlanks text = rest) :
    Blanks text rest :=
  h ▸ blanks_skipBlanks text

/-! ## What is read is written -/

/-- What is read is written behind blanks, in no more than so many levels, and has this value. -/
def Reader.Sound (levels : Nat) (item : Reader Json) : Prop :=
  ∀ (text : List Char) (v : Json) (rest : List Char), item text = .ok (v, rest) →
    ∃ w front, Blanks text front ∧ ValueText w front rest ∧ w.levels ≤ levels ∧
      w.value? Numeral.value? = some v

section

variable {levels : Nat} {item : Reader Json} {text rest : List Char}

theorem itemsText_of_readItems (hitem : item.Sound levels) {fuel : Nat} {vs : List Json}
    (h : readItems item fuel text = .ok (vs, rest)) :
    ∃ items, ItemsText items text rest ∧ Written.levelsOfItems items ≤ levels ∧
      Written.itemValues? Numeral.value? items = some vs := by
  induction fuel generalizing text vs with
  | zero => cases h
  | succ fuel ih =>
    obtain ⟨⟨v, behind⟩, hread, h⟩ := Steps.bind_eq_ok.1 h
    obtain ⟨w, front, hfront, hw, hlevels, hvalue⟩ := hitem _ _ _ hread
    have helement : ∀ {c : Char} {others : List Char}, skipBlanks behind = c :: others →
        ElementText w text (c :: others) := fun hskip =>
      .mk hfront hw (blanks_of_skipBlanks hskip)
    simp only at h
    split at h
    · cases h
    · rename_i hskip
      cases h
      refine ⟨[w], .last (helement hskip), Nat.max_le.2 ⟨hlevels, Nat.zero_le _⟩, ?_⟩
      simp only [Written.itemValues?, hvalue, Option.bind_eq_bind, Option.bind_some]
    · rename_i hskip
      split at h
      · cases h
      · obtain ⟨⟨others, last⟩, hrest, h⟩ := Steps.bind_eq_ok.1 h
        cases h
        obtain ⟨items, hitems, hlevels', hvalues⟩ := ih hrest
        refine ⟨w :: items, .more (helement hskip) (hitems.of_blanks (blanks_skipBlanks _)),
          Nat.max_le.2 ⟨hlevels, hlevels'⟩, ?_⟩
        simp only [Written.itemValues?, hvalue, hvalues, Option.bind_eq_bind, Option.bind_some]
    · cases h

theorem memberText_of_readMember (hitem : item.Sound levels) {member : String × Json}
    (h : readMember item text = .ok (member, rest)) :
    ∃ name w chars, MemberText (name, w) text rest ∧ w.levels ≤ levels ∧
      charsOf? name = some chars ∧ w.value? Numeral.value? = some member.2 ∧
      member.1 = String.ofList chars := by
  unfold readMember at h
  split at h
  · cases h
  · obtain ⟨⟨s, behind⟩, hname, h⟩ := Steps.bind_eq_ok.1 h
    obtain ⟨name, chars, hpieces, hchars, rfl⟩ := stringText_of_readString hname
    simp only at h
    split at h
    · cases h
    · rename_i hskip
      obtain ⟨⟨v, last⟩, hread, h⟩ := Steps.bind_eq_ok.1 h
      cases h
      obtain ⟨w, front, hfront, hw, hlevels, hvalue⟩ := hitem _ _ _ hread
      exact ⟨name, w, chars,
        .mk .none hpieces (blanks_of_skipBlanks hskip) (.mk hfront hw .none),
        hlevels, hchars, hvalue, rfl⟩
    · cases h
  · cases h

theorem membersText_of_readMembers (hitem : item.Sound levels) {fuel : Nat} {list : Members}
    (h : readMembers item fuel text = .ok (list, rest)) :
    ∃ members, MembersText members text rest ∧ Written.levelsOfMembers members ≤ levels ∧
      Written.memberValues? Numeral.value? members = some list := by
  induction fuel generalizing text list with
  | zero => cases h
  | succ fuel ih =>
    obtain ⟨⟨member, behind⟩, hread, h⟩ := Steps.bind_eq_ok.1 h
    obtain ⟨name, w, chars, hmember, hlevels, hchars, hvalue, hname⟩ :=
      memberText_of_readMember hitem hread
    have hpair : (String.ofList chars, member.2) = member := Prod.ext hname.symm rfl
    simp only at h
    split at h
    · cases h
    · rename_i hskip
      cases h
      refine ⟨[(name, w)], .last (hmember.behind (blanks_of_skipBlanks hskip)),
        Nat.max_le.2 ⟨hlevels, Nat.zero_le _⟩, ?_⟩
      simp only [Written.memberValues?, hchars, hvalue, hpair, Option.bind_eq_bind,
        Option.bind_some]
    · rename_i hskip
      obtain ⟨⟨others, last⟩, hrest, h⟩ := Steps.bind_eq_ok.1 h
      cases h
      obtain ⟨members, hmembers, hlevels', hvalues⟩ := ih hrest
      refine ⟨(name, w) :: members, .more (hmember.behind (blanks_of_skipBlanks hskip))
        (hmembers.of_blanks (blanks_skipBlanks _)), Nat.max_le.2 ⟨hlevels, hlevels'⟩, ?_⟩
      simp only [Written.memberValues?, hchars, hvalue, hvalues, hpair, Option.bind_eq_bind,
        Option.bind_some]
    · cases h

theorem valueText_of_readArray (hitem : item.Sound levels) {v : Json}
    (h : readArray item text = .ok (v, rest)) :
    ∃ w, ValueText w ('[' :: text) rest ∧ w.levels ≤ levels + 1 ∧
      w.value? Numeral.value? = some v := by
  unfold readArray at h
  split at h
  · cases h
  · rename_i hskip
    cases h
    exact ⟨_, .emptyArray (blanks_of_skipBlanks hskip), Nat.le_add_left _ _, rfl⟩
  · obtain ⟨⟨vs, last⟩, hread, h⟩ := Steps.bind_eq_ok.1 h
    cases h
    obtain ⟨items, hitems, hlevels, hvalues⟩ := itemsText_of_readItems hitem hread
    refine ⟨_, .array (hitems.of_blanks (blanks_skipBlanks _)), Nat.succ_le_succ hlevels, ?_⟩
    rw [Written.value?, hvalues, Option.map_some]

theorem valueText_of_readObject (hitem : item.Sound levels) {v : Json}
    (h : readObject item text = .ok (v, rest)) :
    ∃ w, ValueText w ('{' :: text) rest ∧ w.levels ≤ levels + 1 ∧
      w.value? Numeral.value? = some v := by
  unfold readObject at h
  split at h
  · cases h
  · rename_i hskip
    cases h
    exact ⟨_, .emptyObject (blanks_of_skipBlanks hskip), Nat.le_add_left _ _, rfl⟩
  · obtain ⟨⟨list, last⟩, hread, h⟩ := Steps.bind_eq_ok.1 h
    cases h
    obtain ⟨members, hmembers, hlevels, hvalues⟩ := membersText_of_readMembers hitem hread
    refine ⟨_, .object (hmembers.of_blanks (blanks_skipBlanks _)), Nat.succ_le_succ hlevels, ?_⟩
    rw [Written.value?, hvalues, Option.map_some]

theorem readWord_eq_ok_iff {word : List Char} {out : Unit} :
    readWord word text = .ok (out, rest) ↔ text = word ++ rest := by
  induction word generalizing text with
  | nil => simp [readWord, eq_comm]
  | cons c word ih =>
    cases text with
    | nil => simp [readWord]
    | cons d text =>
      rw [readWord]
      by_cases hd : d = c
      · rw [if_pos hd, ih, hd, List.cons_append, List.cons_inj_right]
      · rw [if_neg hd, List.cons_append]
        simp [hd]

end

/-- A reader that may go into arrays and objects with `levels` of them left, if at all. -/
theorem readWith_sound {levels : Nat} {item? : Option (Reader Json)}
    (h : ∀ item ∈ item?, ∃ k, levels = k + 1 ∧ item.Sound k) : (readWith item?).Sound levels := by
  intro text v rest hread
  unfold readWith at hread
  split at hread
  · cases hread
  · rename_i c behind hskip
    suffices hwritten : ∃ w, ValueText w (c :: behind) rest ∧ w.levels ≤ levels ∧
        w.value? Numeral.value? = some v by
      obtain ⟨w, hw, hlevels, hvalue⟩ := hwritten
      exact ⟨w, _, blanks_of_skipBlanks hskip, hw, hlevels, hvalue⟩
    simp only at hread
    split at hread
    case h_1 =>
      obtain ⟨⟨word, last⟩, hword, hread⟩ := Steps.bind_eq_ok.1 hread
      cases hread
      obtain rfl := readWord_eq_ok_iff.1 hword
      exact ⟨_, .null, Nat.zero_le _, rfl⟩
    case h_2 =>
      obtain ⟨⟨word, last⟩, hword, hread⟩ := Steps.bind_eq_ok.1 hread
      cases hread
      obtain rfl := readWord_eq_ok_iff.1 hword
      exact ⟨_, .isTrue, Nat.zero_le _, rfl⟩
    case h_3 =>
      obtain ⟨⟨word, last⟩, hword, hread⟩ := Steps.bind_eq_ok.1 hread
      cases hread
      obtain rfl := readWord_eq_ok_iff.1 hword
      exact ⟨_, .isFalse, Nat.zero_le _, rfl⟩
    case h_4 =>
      obtain ⟨⟨s, last⟩, hstring, hread⟩ := Steps.bind_eq_ok.1 hread
      cases hread
      obtain ⟨pieces, chars, hpieces, hchars, rfl⟩ := stringText_of_readString hstring
      refine ⟨_, .string hpieces, Nat.zero_le _, ?_⟩
      rw [Written.value?, hchars, Option.map_some]
    case h_5 =>
      cases item? with
      | none => cases hread
      | some item =>
        obtain ⟨k, rfl, hitem⟩ := h item rfl
        exact valueText_of_readArray hitem hread
    case h_6 =>
      cases item? with
      | none => cases hread
      | some item =>
        obtain ⟨k, rfl, hitem⟩ := h item rfl
        exact valueText_of_readObject hitem hread
    case h_7 =>
      split at hread
      · obtain ⟨⟨n, last⟩, hnumber, hread⟩ := Steps.bind_eq_ok.1 hread
        cases hread
        obtain ⟨numeral, front, hnumeral, hvalue, htext⟩ := numeralText_of_readNumber hnumber
        refine ⟨_, .number hnumeral htext.symm, Nat.zero_le _, ?_⟩
        rw [Written.value?, hvalue, Option.map_some]
      · cases hread

/-- **What is read with so many levels** is written in no more of them. -/
theorem readValue_sound (levels : Nat) : (readValue levels).Sound levels := by
  induction levels with
  | zero => exact readWith_sound nofun
  | succ levels ih =>
    apply readWith_sound
    rintro item ⟨⟩
    exact ⟨levels, rfl, ih⟩

/-! ## What is written is read -/

/-- The letter that a number starts with is its own. -/
theorem ne_of_starts {c d : Char} (h : c = '-' ∨ c.isDigit = true)
    (hd : d ≠ '-' ∧ d.isDigit = false) : c ≠ d := by
  rintro rfl
  rcases h with rfl | h
  · exact hd.1 rfl
  · rw [hd.2] at h
    cases h

theorem not_blank_of_starts {c : Char} (h : c = '-' ∨ c.isDigit = true) : isBlank c = false := by
  simp only [isBlank, Bool.or_eq_false_iff, decide_eq_false_iff_not]
  exact ⟨⟨⟨ne_of_starts h (by decide), ne_of_starts h (by decide)⟩,
    ne_of_starts h (by decide)⟩, ne_of_starts h (by decide)⟩

/-- A value starts with a letter of its own: no blank, and nothing that closes. -/
theorem ValueText.head {w : Written} {text rest : List Char} (h : ValueText w text rest) :
    ∃ c tail, text = c :: tail ∧ isBlank c = false ∧ c ≠ ']' := by
  cases h with
  | number hnumeral htext =>
    obtain ⟨c, tail, rfl, hc⟩ := hnumeral.head
    exact ⟨c, tail ++ rest, htext.symm, not_blank_of_starts hc, ne_of_starts hc (by decide)⟩
  | _ => exact ⟨_, _, rfl, rfl, by decide⟩

theorem ElementText.skip {w : Written} {text rest : List Char} (h : ElementText w text rest) :
    ∃ c tail, skipBlanks text = c :: tail ∧ c ≠ ']' ∧ ElementText w (c :: tail) rest := by
  cases h with
  | mk hfront hw hback =>
    obtain ⟨c, tail, rfl, hblank, hc⟩ := hw.head
    exact ⟨c, tail, hfront.skipBlanks_cons_eq hblank, hc, .mk .none hw hback⟩

theorem ItemsText.skip {items : List Written} {text rest : List Char}
    (h : ItemsText items text rest) :
    ∃ c tail, skipBlanks text = c :: tail ∧ c ≠ ']' ∧ ItemsText items (c :: tail) rest := by
  cases h with
  | last hitem =>
    obtain ⟨c, tail, hskip, hc, hitem⟩ := hitem.skip
    exact ⟨c, tail, hskip, hc, .last hitem⟩
  | more hitem hitems =>
    obtain ⟨c, tail, hskip, hc, hitem⟩ := hitem.skip
    exact ⟨c, tail, hskip, hc, .more hitem hitems⟩

theorem MemberText.skip {member : List Piece × Written} {text rest : List Char}
    (h : MemberText member text rest) :
    ∃ tail, skipBlanks text = '"' :: tail ∧ MemberText member ('"' :: tail) rest := by
  cases h with
  | mk hfront hname hmiddle hvalue =>
    exact ⟨_, hfront.skipBlanks_cons_eq rfl, .mk .none hname hmiddle hvalue⟩

theorem MembersText.skip {members : List (List Piece × Written)} {text rest : List Char}
    (h : MembersText members text rest) :
    ∃ tail, skipBlanks text = '"' :: tail ∧ MembersText members ('"' :: tail) rest := by
  cases h with
  | last hmember =>
    obtain ⟨tail, hskip, hmember⟩ := hmember.skip
    exact ⟨tail, hskip, .last hmember⟩
  | more hmember hmembers =>
    obtain ⟨tail, hskip, hmember⟩ := hmember.skip
    exact ⟨tail, hskip, .more hmember hmembers⟩

/-! ### Lengths -/

theorem Blanks.length_le {text rest : List Char} (h : Blanks text rest) :
    rest.length ≤ text.length := by
  induction h with
  | none => exact Nat.le_refl _
  | cons _ _ ih => exact Nat.le_succ_of_le ih

mutual

/-- A value takes some of the text. -/
theorem ValueText.length_lt : (w : Written) → ∀ {text rest : List Char}, ValueText w text rest →
    rest.length < text.length
  | .null, _, _, h => by cases h; simp only [List.length_cons]; omega
  | .bool _, _, _, h => by cases h <;> (simp only [List.length_cons]; omega)
  | .number _, _, _, h => by
    cases h with
    | number hnumeral htext =>
      obtain ⟨c, tail, rfl, -⟩ := hnumeral.head
      rw [← htext, List.cons_append, List.length_cons, List.length_append]
      omega
  | .string _, _, _, h => by
    cases h with
    | string h =>
      have := h.length_lt
      rw [List.length_cons]
      omega
  | .array items, _, _, h => by
    cases h with
    | emptyArray h =>
      have := h.length_le
      rw [List.length_cons] at *
      omega
    | array h =>
      have := ItemsText.length_le items h
      rw [List.length_cons]
      omega
  | .object members, _, _, h => by
    cases h with
    | emptyObject h =>
      have := h.length_le
      rw [List.length_cons] at *
      omega
    | object h =>
      have := MembersText.length_le members h
      rw [List.length_cons]
      omega

/-- There are no more items than letters. -/
theorem ItemsText.length_le : (items : List Written) → ∀ {text rest : List Char},
    ItemsText items text rest → items.length + rest.length ≤ text.length
  | w :: items, _, _, h => by
    cases h with
    | last h =>
      cases h with
      | mk hfront hw hback =>
        have := hfront.length_le
        have := ValueText.length_lt w hw
        have := hback.length_le
        simp only [List.length_cons, List.length_nil] at *
        omega
    | more h hitems =>
      cases h with
      | mk hfront hw hback =>
        have := hfront.length_le
        have := ValueText.length_lt w hw
        have := hback.length_le
        have := ItemsText.length_le items hitems
        simp only [List.length_cons] at *
        omega

/-- There are no more members than letters. -/
theorem MembersText.length_le : (members : List (List Piece × Written)) →
    ∀ {text rest : List Char}, MembersText members text rest →
      members.length + rest.length ≤ text.length
  | (name, w) :: members, _, _, h => by
    have hmember : ∀ {text rest : List Char}, MemberText (name, w) text rest →
        rest.length < text.length := by
      rintro _ _ ⟨hfront, hname, hmiddle, ⟨hblanks, hw, hback⟩⟩
      have := hfront.length_le
      have := hname.length_lt
      have := hmiddle.length_le
      have := hblanks.length_le
      have := ValueText.length_lt w hw
      have := hback.length_le
      simp only [List.length_cons] at *
      omega
    cases h with
    | last h =>
      have := hmember h
      simp only [List.length_cons, List.length_nil] at *
      omega
    | more h hmembers =>
      have := hmember h
      have := MembersText.length_le members hmembers
      simp only [List.length_cons] at *
      omega

end

/-! ### Readers, one step each -/

section

variable {item : Reader Json} {text behind others tail rest : List Char} {c : Char} {v : Json}

theorem readItems_last (hitem : item text = .ok (v, behind))
    (hskip : skipBlanks behind = ']' :: rest) (fuel : Nat) :
    readItems item (fuel + 1) text = .ok ([v], rest) := by
  rw [readItems, hitem, Steps.ok_bind]
  simp only [hskip]

theorem readItems_more (hitem : item text = .ok (v, behind))
    (hskip : skipBlanks behind = ',' :: others) (hothers : skipBlanks others = c :: tail)
    (hc : c ≠ ']') {fuel : Nat} {vs : List Json}
    (hrest : readItems item fuel (c :: tail) = .ok (vs, rest)) :
    readItems item (fuel + 1) text = .ok (v :: vs, rest) := by
  rw [readItems, hitem, Steps.ok_bind]
  simp only [hskip, hothers]
  split
  · rename_i heq
    exact absurd (List.cons.inj heq).1 hc
  · rw [hrest]
    rfl

theorem readMember_eq_ok {name : String} {middle back : List Char}
    (hname : readString text = .ok (name, middle)) (hskip : skipBlanks middle = ':' :: back)
    (hitem : item back = .ok (v, rest)) :
    readMember item ('"' :: text) = .ok ((name, v), rest) := by
  rw [readMember, hname, Steps.ok_bind]
  simp only [hskip, hitem, Steps.ok_bind]

theorem readMembers_last {member : String × Json}
    (hmember : readMember item text = .ok (member, behind))
    (hskip : skipBlanks behind = '}' :: rest) (fuel : Nat) :
    readMembers item (fuel + 1) text = .ok ([member], rest) := by
  rw [readMembers, hmember, Steps.ok_bind]
  simp only [hskip]

theorem readMembers_more {member : String × Json}
    (hmember : readMember item text = .ok (member, behind))
    (hskip : skipBlanks behind = ',' :: others) {fuel : Nat} {list : Members}
    (hrest : readMembers item fuel (skipBlanks others) = .ok (list, rest)) :
    readMembers item (fuel + 1) text = .ok (member :: list, rest) := by
  rw [readMembers, hmember, Steps.ok_bind]
  simp only [hskip, hrest, Steps.ok_bind]

theorem readArray_empty (hskip : skipBlanks text = ']' :: rest) :
    readArray item text = .ok (.array [], rest) := by
  unfold readArray
  rw [hskip]
  rfl

theorem readArray_items (hskip : skipBlanks text = c :: tail) (hc : c ≠ ']') {vs : List Json}
    (hread : readItems item (tail.length + 2) (c :: tail) = .ok (vs, rest)) :
    readArray item text = .ok (.array vs, rest) := by
  unfold readArray
  rw [hskip]
  split
  · rename_i heq
    cases heq
  · rename_i heq
    exact absurd (List.cons.inj heq).1 hc
  · rw [List.length_cons, hread]
    rfl

theorem readObject_empty (hskip : skipBlanks text = '}' :: rest) :
    readObject item text = .ok (.object [], rest) := by
  unfold readObject
  rw [hskip]
  rfl

theorem readObject_members (hskip : skipBlanks text = '"' :: tail) {list : Members}
    (hread : readMembers item (tail.length + 2) ('"' :: tail) = .ok (list, rest)) :
    readObject item text = .ok (objectOf list, rest) := by
  unfold readObject
  rw [hskip]
  show (readMembers item (tail.length + 2) ('"' :: tail) >>= fun read =>
    Except.ok (objectOf read.1, read.2)) = _
  rw [hread]
  rfl

variable {item? : Option (Reader Json)}

theorem readWith_number (h : c = '-' ∨ c.isDigit = true) {n : Number}
    (hread : readNumber (c :: text) = .ok (n, rest)) :
    readWith item? (c :: text) = .ok (.number n, rest) := by
  unfold readWith
  rw [skipBlanks_cons (not_blank_of_starts h)]
  simp only
  split
  case h_7 =>
    rw [if_pos h, hread]
    rfl
  all_goals exact absurd rfl (ne_of_starts h (by decide))

end

/-- Blanks in front of a value do not matter. -/
theorem readValue_of_blanks {text front : List Char} (h : Blanks text front) (levels : Nat) :
    readValue levels text = readValue levels front := by
  have hwith : ∀ item? : Option (Reader Json), readWith item? text = readWith item? front :=
    fun item? => by
      unfold readWith
      rw [h.skipBlanks_eq]
  cases levels with
  | zero => exact hwith none
  | succ levels => exact hwith (some (readValue levels))

/-! ### Values -/

/-- With any number of levels, a value is read by one reader for the letters it may start with. -/
theorem readValue_eq_readWith (levels : Nat) : ∃ item?, readValue levels = readWith item? := by
  cases levels with
  | zero => exact ⟨none, rfl⟩
  | succ levels => exact ⟨some (readValue levels), rfl⟩

mutual

/-- **What is written in so many levels and has a value is read as it.** -/
theorem readValue_of_valueText : (w : Written) →
    ∀ {levels : Nat} {text rest : List Char} {v : Json}, ValueText w text rest →
      w.levels ≤ levels → w.value? Numeral.value? = some v → Ends rest →
      readValue levels text = .ok (v, rest)
  | .null, levels, _, _, _, h, _, hvalue, _ => by
    obtain ⟨item?, hread⟩ := readValue_eq_readWith levels
    cases hvalue
    cases h
    rw [hread]
    rfl
  | .bool _, levels, _, _, _, h, _, hvalue, _ => by
    obtain ⟨item?, hread⟩ := readValue_eq_readWith levels
    cases hvalue
    cases h <;> (rw [hread]; rfl)
  | .number numeral, levels, _, _, _, h, _, hvalue, hrest => by
    obtain ⟨item?, hread⟩ := readValue_eq_readWith levels
    obtain ⟨n, hn, rfl⟩ := Option.map_eq_some_iff.1 hvalue
    cases h with
    | number hnumeral htext =>
      have hnumber := readNumber_eq_ok hnumeral hn hrest
      obtain ⟨c, tail, rfl, hc⟩ := hnumeral.head
      rw [hread, ← htext]
      exact readWith_number hc hnumber
  | .string pieces, levels, _, _, _, h, _, hvalue, _ => by
    obtain ⟨item?, hread⟩ := readValue_eq_readWith levels
    obtain ⟨chars, hchars, rfl⟩ := Option.map_eq_some_iff.1 hvalue
    cases h with
    | @string _ text _ hpieces =>
      rw [hread]
      show (readString text >>= fun read => Except.ok (Json.string read.1, read.2)) = _
      rw [readString_eq_ok hpieces hchars]
      rfl
  | .array items, levels, _, _, _, h, hlevels, hvalue, _ => by
    obtain ⟨k, rfl⟩ := Nat.exists_eq_add_one.2 (Nat.zero_lt_of_lt hlevels)
    obtain ⟨vs, hvs, rfl⟩ := Option.map_eq_some_iff.1 hvalue
    show readWith (some (readValue k)) _ = _
    cases h with
    | emptyArray hblanks =>
      cases hvs
      exact readArray_empty (hblanks.skipBlanks_cons_eq rfl)
    | array hitems =>
      obtain ⟨c, tail, hskip, hc, hitems⟩ := hitems.skip
      have hlength := ItemsText.length_le items hitems
      exact readArray_items hskip hc (readItems_of_itemsText items hitems
        (Nat.le_of_succ_le_succ hlevels) hvs (by simp only [List.length_cons] at hlength; omega))
  | .object members, levels, _, _, _, h, hlevels, hvalue, _ => by
    obtain ⟨k, rfl⟩ := Nat.exists_eq_add_one.2 (Nat.zero_lt_of_lt hlevels)
    obtain ⟨list, hlist, rfl⟩ := Option.map_eq_some_iff.1 hvalue
    show readWith (some (readValue k)) _ = _
    cases h with
    | emptyObject hblanks =>
      cases hlist
      exact readObject_empty (hblanks.skipBlanks_cons_eq rfl)
    | object hmembers =>
      obtain ⟨tail, hskip, hmembers⟩ := hmembers.skip
      have hlength := MembersText.length_le members hmembers
      exact readObject_members hskip (readMembers_of_membersText members hmembers
        (Nat.le_of_succ_le_succ hlevels) hlist (by simp only [List.length_cons] at hlength; omega))

/-- The items of an array, by as many steps as there are items. -/
theorem readItems_of_itemsText : (items : List Written) →
    ∀ {levels fuel : Nat} {text rest : List Char} {vs : List Json}, ItemsText items text rest →
      Written.levelsOfItems items ≤ levels → Written.itemValues? Numeral.value? items = some vs →
      items.length ≤ fuel → readItems (readValue levels) fuel text = .ok (vs, rest)
  | w :: items, levels, fuel, text, rest, vs, h, hlevels, hvalues, hfuel => by
    obtain ⟨fuel, rfl⟩ := Nat.exists_eq_add_one.2 (Nat.zero_lt_of_lt hfuel)
    obtain ⟨v, hvalue, hvalues⟩ := Option.bind_eq_some_iff.1 hvalues
    obtain ⟨others, hothers, hvalues⟩ := Option.bind_eq_some_iff.1 hvalues
    cases hvalues
    obtain ⟨hw, hitems⟩ := Nat.max_le.1 hlevels
    have hread : ∀ {c : Char} {behind : List Char}, ElementText w text (c :: behind) →
        isBlank c = false → c.isDigit = false ∧ c ≠ '.' ∧ c ≠ 'e' ∧ c ≠ 'E' →
        ∃ back, readValue levels text = .ok (v, back) ∧ skipBlanks back = c :: behind := by
      rintro c behind ⟨hfront, htext, hback⟩ hblank hends
      refine ⟨_, ?_, hback.skipBlanks_cons_eq hblank⟩
      rw [readValue_of_blanks hfront]
      exact readValue_of_valueText w htext hw hvalue (hback.ends (ends_cons hends))
    cases h with
    | last helement =>
      obtain ⟨back, hitem, hskip⟩ := hread helement rfl (by decide)
      cases hothers
      exact readItems_last hitem hskip fuel
    | more helement hrest =>
      obtain ⟨back, hitem, hskip⟩ := hread helement rfl (by decide)
      obtain ⟨c, tail, hothersSkip, hc, hrest⟩ := hrest.skip
      exact readItems_more hitem hskip hothersSkip hc
        (readItems_of_itemsText items hrest hitems hothers (Nat.le_of_succ_le_succ hfuel))

/-- The members of an object, by as many steps as there are members. -/
theorem readMembers_of_membersText : (members : List (List Piece × Written)) →
    ∀ {levels fuel : Nat} {tail rest : List Char} {list : Members},
      MembersText members ('"' :: tail) rest → Written.levelsOfMembers members ≤ levels →
      Written.memberValues? Numeral.value? members = some list → members.length ≤ fuel →
      readMembers (readValue levels) fuel ('"' :: tail) = .ok (list, rest)
  | (name, w) :: members, levels, fuel, tail, rest, list, h, hlevels, hvalues, hfuel => by
    obtain ⟨fuel, rfl⟩ := Nat.exists_eq_add_one.2 (Nat.zero_lt_of_lt hfuel)
    obtain ⟨chars, hchars, hvalues⟩ := Option.bind_eq_some_iff.1 hvalues
    obtain ⟨v, hvalue, hvalues⟩ := Option.bind_eq_some_iff.1 hvalues
    obtain ⟨others, hothers, hvalues⟩ := Option.bind_eq_some_iff.1 hvalues
    cases hvalues
    obtain ⟨hw, hmembers⟩ := Nat.max_le.1 hlevels
    have hread : ∀ {c : Char} {behind : List Char},
        MemberText (name, w) ('"' :: tail) (c :: behind) → isBlank c = false →
        c.isDigit = false ∧ c ≠ '.' ∧ c ≠ 'e' ∧ c ≠ 'E' →
        ∃ back, skipBlanks back = c :: behind ∧
          readMember (readValue levels) ('"' :: tail) = .ok ((String.ofList chars, v), back) := by
      rintro c behind ⟨hquote, hname, hmiddle, ⟨hfront, htext, hback⟩⟩ hblank hends
      refine ⟨_, hback.skipBlanks_cons_eq hblank, ?_⟩
      have hquote := hquote.skipBlanks_cons_eq rfl
      rw [skipBlanks_cons rfl] at hquote
      obtain rfl := (List.cons.inj hquote).2
      apply readMember_eq_ok (readString_eq_ok hname hchars) (hmiddle.skipBlanks_cons_eq rfl)
      rw [readValue_of_blanks hfront]
      exact readValue_of_valueText w htext hw hvalue (hback.ends (ends_cons hends))
    cases h with
    | last hmember =>
      obtain ⟨back, hskip, hmember⟩ := hread hmember rfl (by decide)
      cases hothers
      exact readMembers_last hmember hskip fuel
    | more hmember hrest =>
      obtain ⟨back, hskip, hmember⟩ := hread hmember rfl (by decide)
      obtain ⟨tail, hothersSkip, hrest⟩ := hrest.skip
      apply readMembers_more hmember hskip
      rw [hothersSkip]
      exact readMembers_of_membersText members hrest hmembers hothers
        (Nat.le_of_succ_le_succ hfuel)

end

/-! ## Texts -/

/-- **A text is read exactly if it is JSON** that goes no deeper than 127 levels and has a value. -/
theorem read_eq_ok_iff {text : String} {j : Json} :
    read text = .ok j ↔
      ∃ w, TextOf w text ∧ w.levels ≤ 127 ∧ w.value? Numeral.value? = some j := by
  constructor
  · intro h
    obtain ⟨⟨v, rest⟩, hread, h⟩ := Steps.bind_eq_ok.1 h
    simp only at h
    split at h
    · rename_i hskip
      cases h
      obtain ⟨w, front, hfront, hw, hlevels, hvalue⟩ := readValue_sound _ _ _ _ hread
      exact ⟨w, .mk hfront hw (blanks_of_skipBlanks hskip), hlevels, hvalue⟩
    · cases h
  · rintro ⟨w, ⟨hfront, hw, hback⟩, hlevels, hvalue⟩
    have hskip := hback.skipBlanks_eq
    have hvalueRead := readValue_of_valueText w hw hlevels hvalue (hback.ends ends_nil)
    rw [← readValue_of_blanks hfront] at hvalueRead
    unfold read
    rw [show maxNesting = 127 from rfl, hvalueRead, Steps.ok_bind]
    simp only [hskip]
    rfl

/-- **A text is refused exactly if** it is no JSON, or JSON that goes too deep, or JSON that holds a
number or a string without a value. -/
theorem exists_read_eq_error_iff {text : String} :
    (∃ fault, read text = .error fault) ↔
      ∀ w, TextOf w text → 127 < w.levels ∨ (∃ numeral ∈ w.numerals, numeral.value? = none) ∨
        ∃ pieces ∈ w.strings, charsOf? pieces = none := by
  constructor
  · rintro ⟨fault, herror⟩ w hw
    by_contra hnot
    rw [← w.value?_eq_none_iff Numeral.value?, not_or, Nat.not_lt] at hnot
    obtain ⟨hlevels, hvalue⟩ := hnot
    obtain ⟨j, hj⟩ := Option.ne_none_iff_exists'.1 hvalue
    rw [read_eq_ok_iff.2 ⟨w, hw, hlevels, hj⟩] at herror
    cases herror
  · intro h
    cases hread : read text with
    | error fault => exact ⟨fault, rfl⟩
    | ok j =>
      obtain ⟨w, hw, hlevels, hvalue⟩ := read_eq_ok_iff.1 hread
      rcases h w hw with hdeep | hnone
      · omega
      · rw [← w.value?_eq_none_iff Numeral.value?, hvalue] at hnone
        cases hnone

end DocTable.Json
