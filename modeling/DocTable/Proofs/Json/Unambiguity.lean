import DocTable.Proofs.Json.Reading

/-!
# JSON is written in one way

The grammar takes a text apart in one way only: what stands in front tells which part it is, and the
parts that may go on stop where something else stands.

* `Closes` — what stands behind a value: no blank, and nothing that a number goes on with.
* `valueText_unique` — two values in front of one text are the same.
* `textOf_unique` — **a text is written in one way only**, so that one way tells whether it is refused.
-/

set_option autoImplicit false

namespace DocTable.Json

/-- What stands behind a value and its blanks. -/
structure Closes (text : List Char) : Prop where
  ends : Ends text
  solid : skipBlanks text = text

theorem closes_nil : Closes [] := ⟨ends_nil, rfl⟩

theorem closes_cons {c : Char} (hblank : isBlank c = false)
    (hends : c.isDigit = false ∧ c ≠ '.' ∧ c ≠ 'e' ∧ c ≠ 'E') (text : List Char) :
    Closes (c :: text) :=
  ⟨ends_cons hends, skipBlanks_cons hblank text⟩

theorem closes_comma (text : List Char) : Closes (',' :: text) := closes_cons rfl (by decide) text

theorem closes_bracket (text : List Char) : Closes (']' :: text) := closes_cons rfl (by decide) text

theorem closes_brace (text : List Char) : Closes ('}' :: text) := closes_cons rfl (by decide) text

theorem Blanks.unique {text rest rest' : List Char} (h : Blanks text rest) (h' : Blanks text rest')
    (hrest : skipBlanks rest = rest) (hrest' : skipBlanks rest' = rest') : rest = rest' := by
  rw [← hrest, ← h.skipBlanks_eq, h'.skipBlanks_eq, hrest']

/-- What is written as a number starts like one. -/
theorem NumeralText.starts {numeral : Numeral} {front rest text : List Char} {c : Char}
    (h : NumeralText numeral front) (htext : front ++ rest = c :: text) :
    c = '-' ∨ c.isDigit = true := by
  obtain ⟨d, tail, rfl, hd⟩ := h.head
  rwa [← (List.cons.inj htext).1]

/-- No array with items is empty. -/
theorem ItemsText.not_blanks {items : List Written} {text rest behind : List Char}
    (h : ItemsText items text rest) : ¬ Blanks text (']' :: behind) := by
  intro hblanks
  obtain ⟨c, tail, hskip, hc, -⟩ := h.skip
  rw [hblanks.skipBlanks_cons_eq rfl] at hskip
  exact hc (List.cons.inj hskip).1.symm

/-- No object with members is empty. -/
theorem MembersText.not_blanks {members : List (List Piece × Written)} {text rest behind : List Char}
    (h : MembersText members text rest) : ¬ Blanks text ('}' :: behind) := by
  intro hblanks
  obtain ⟨tail, hskip, -⟩ := h.skip
  rw [hblanks.skipBlanks_cons_eq rfl] at hskip
  exact absurd (List.cons.inj hskip).1 (by decide)

/-- Wherever this value is written, it is the only one, if nothing goes on with it. -/
def Written.Unambiguous (w : Written) : Prop :=
  ∀ ⦃w' : Written⦄ ⦃text rest rest' : List Char⦄, ValueText w text rest →
    ValueText w' text rest' → Ends rest → Ends rest' → w = w' ∧ rest = rest'

namespace Written.Unambiguous

variable {w w' : Written} {text rest rest' : List Char}

theorem elementText (hw : w.Unambiguous) (h : ElementText w text rest)
    (h' : ElementText w' text rest') (hrest : Closes rest) (hrest' : Closes rest') :
    w = w' ∧ rest = rest' := by
  obtain ⟨hfront, hvalue, hback⟩ := h
  obtain ⟨hfront', hvalue', hback'⟩ := h'
  obtain ⟨c, tail, rfl, hblank, -⟩ := hvalue.head
  obtain ⟨c', tail', rfl, hblank', -⟩ := hvalue'.head
  have hsame := hfront.unique hfront' (skipBlanks_cons hblank _) (skipBlanks_cons hblank' _)
  rw [← hsame] at hvalue'
  obtain ⟨rfl, rfl⟩ := hw hvalue hvalue' (hback.ends hrest.ends) (hback'.ends hrest'.ends)
  exact ⟨rfl, hback.unique hback' hrest.solid hrest'.solid⟩

theorem memberText (hw : w.Unambiguous) {name : List Piece} {member : List Piece × Written}
    (h : MemberText (name, w) text rest) (h' : MemberText member text rest') (hrest : Closes rest)
    (hrest' : Closes rest') : (name, w) = member ∧ rest = rest' := by
  obtain ⟨hfront, hname, hmiddle, hvalue⟩ := h
  obtain ⟨hfront', hname', hmiddle', hvalue'⟩ := h'
  obtain rfl := (List.cons.inj
    (hfront.unique hfront' (skipBlanks_cons rfl _) (skipBlanks_cons rfl _))).2
  obtain ⟨rfl, rfl⟩ := hname.unique hname'
  obtain rfl := (List.cons.inj
    (hmiddle.unique hmiddle' (skipBlanks_cons rfl _) (skipBlanks_cons rfl _))).2
  obtain ⟨rfl, rfl⟩ := hw.elementText hvalue hvalue' hrest hrest'
  exact ⟨rfl, rfl⟩

end Written.Unambiguous

mutual

/-- **A value is written in one way only**, and ends where nothing can go on. -/
theorem valueText_unique : (w : Written) → w.Unambiguous
  | .null, _, _, _, _, h, h', _, _ => by
    cases h
    cases h' with
    | null => exact ⟨rfl, rfl⟩
    | number hnumeral htext => exact absurd (hnumeral.starts htext) (by decide)
  | .bool _, _, _, _, _, h, h', _, _ => by
    cases h with
    | isTrue =>
      cases h' with
      | isTrue => exact ⟨rfl, rfl⟩
      | number hnumeral htext => exact absurd (hnumeral.starts htext) (by decide)
    | isFalse =>
      cases h' with
      | isFalse => exact ⟨rfl, rfl⟩
      | number hnumeral htext => exact absurd (hnumeral.starts htext) (by decide)
  | .number _, _, _, _, _, h, h', hrest, hrest' => by
    cases h with
    | number hnumeral htext =>
      cases h' with
      | number hnumeral' htext' =>
        obtain ⟨rfl, rfl⟩ :=
          numeralText_unique hnumeral hnumeral' hrest hrest' (htext.trans htext'.symm)
        exact ⟨rfl, rfl⟩
      | _ => exact absurd (hnumeral.starts htext) (by decide)
  | .string _, _, _, _, _, h, h', _, _ => by
    cases h with
    | string hpieces =>
      cases h' with
      | string hpieces' =>
        obtain ⟨rfl, rfl⟩ := hpieces.unique hpieces'
        exact ⟨rfl, rfl⟩
      | number hnumeral htext => exact absurd (hnumeral.starts htext) (by decide)
  | .array items, _, _, _, _, h, h', _, _ => by
    cases h with
    | emptyArray hblanks =>
      cases h' with
      | emptyArray hblanks' =>
        exact ⟨rfl, (List.cons.inj (hblanks.unique hblanks' (closes_bracket _).solid
          (closes_bracket _).solid)).2⟩
      | array hitems => exact absurd hblanks hitems.not_blanks
      | number hnumeral htext => exact absurd (hnumeral.starts htext) (by decide)
    | array hitems =>
      cases h' with
      | emptyArray hblanks => exact absurd hblanks hitems.not_blanks
      | array hitems' =>
        obtain ⟨rfl, rfl⟩ := itemsText_unique items hitems hitems'
        exact ⟨rfl, rfl⟩
      | number hnumeral htext => exact absurd (hnumeral.starts htext) (by decide)
  | .object members, _, _, _, _, h, h', _, _ => by
    cases h with
    | emptyObject hblanks =>
      cases h' with
      | emptyObject hblanks' =>
        exact ⟨rfl, (List.cons.inj (hblanks.unique hblanks' (closes_brace _).solid
          (closes_brace _).solid)).2⟩
      | object hmembers => exact absurd hblanks hmembers.not_blanks
      | number hnumeral htext => exact absurd (hnumeral.starts htext) (by decide)
    | object hmembers =>
      cases h' with
      | emptyObject hblanks => exact absurd hblanks hmembers.not_blanks
      | object hmembers' =>
        obtain ⟨rfl, rfl⟩ := membersText_unique members hmembers hmembers'
        exact ⟨rfl, rfl⟩
      | number hnumeral htext => exact absurd (hnumeral.starts htext) (by decide)

/-- The items of an array and its closing bracket. -/
theorem itemsText_unique : (items : List Written) → ∀ {items' : List Written}
    {text rest rest' : List Char}, ItemsText items text rest → ItemsText items' text rest' →
      items = items' ∧ rest = rest'
  | w :: items, _, _, _, _, h, h' => by
    have hw := valueText_unique w
    cases h with
    | last hitem =>
      cases h' with
      | last hitem' =>
        obtain ⟨rfl, hrest⟩ := hw.elementText hitem hitem' (closes_bracket _) (closes_bracket _)
        exact ⟨rfl, (List.cons.inj hrest).2⟩
      | more hitem' =>
        obtain ⟨-, hrest⟩ := hw.elementText hitem hitem' (closes_bracket _) (closes_comma _)
        exact absurd (List.cons.inj hrest).1 (by decide)
    | more hitem hitems =>
      cases h' with
      | last hitem' =>
        obtain ⟨-, hrest⟩ := hw.elementText hitem hitem' (closes_comma _) (closes_bracket _)
        exact absurd (List.cons.inj hrest).1 (by decide)
      | more hitem' hitems' =>
        obtain ⟨rfl, hrest⟩ := hw.elementText hitem hitem' (closes_comma _) (closes_comma _)
        obtain rfl := (List.cons.inj hrest).2
        obtain ⟨rfl, rfl⟩ := itemsText_unique items hitems hitems'
        exact ⟨rfl, rfl⟩

/-- The members of an object and its closing brace. -/
theorem membersText_unique : (members : List (List Piece × Written)) →
    ∀ {members' : List (List Piece × Written)} {text rest rest' : List Char},
      MembersText members text rest → MembersText members' text rest' →
      members = members' ∧ rest = rest'
  | (name, w) :: members, _, _, _, _, h, h' => by
    have hw := valueText_unique w
    cases h with
    | last hfirst =>
      cases h' with
      | last hfirst' =>
        obtain ⟨rfl, hrest⟩ := hw.memberText hfirst hfirst' (closes_brace _) (closes_brace _)
        exact ⟨rfl, (List.cons.inj hrest).2⟩
      | more hfirst' =>
        obtain ⟨-, hrest⟩ := hw.memberText hfirst hfirst' (closes_brace _) (closes_comma _)
        exact absurd (List.cons.inj hrest).1 (by decide)
    | more hfirst hmembers =>
      cases h' with
      | last hfirst' =>
        obtain ⟨-, hrest⟩ := hw.memberText hfirst hfirst' (closes_comma _) (closes_brace _)
        exact absurd (List.cons.inj hrest).1 (by decide)
      | more hfirst' hmembers' =>
        obtain ⟨rfl, hrest⟩ := hw.memberText hfirst hfirst' (closes_comma _) (closes_comma _)
        obtain rfl := (List.cons.inj hrest).2
        obtain ⟨rfl, rfl⟩ := membersText_unique members hmembers hmembers'
        exact ⟨rfl, rfl⟩

end

/-- **A text is written in one way only.** -/
theorem textOf_unique {w w' : Written} {text : String} (h : TextOf w text) (h' : TextOf w' text) :
    w = w' :=
  ((valueText_unique w).elementText h h' closes_nil closes_nil).1

/-- One way in which a text is JSON is enough to know that it is refused. -/
theorem read_eq_error_of_textOf {w : Written} {text : String} (h : TextOf w text)
    (hw : 127 < w.levels ∨ w.value? Numeral.value? = none) : ∃ fault, read text = .error fault := by
  rw [exists_read_eq_error_iff]
  intro w' h'
  rwa [← textOf_unique h h', ← w.value?_eq_none_iff]

/-! ## Arrays in one another -/

/-- So many arrays in one another and one more around them, the innermost one empty. -/
def nest : Nat → Written
  | 0 => .array []
  | depth + 1 => .array [nest depth]

theorem levels_nest (depth : Nat) : (nest depth).levels = depth + 1 := by
  induction depth with
  | zero => rfl
  | succ depth ih => simp only [nest, Written.levels, Written.levelsOfItems, ih, Nat.max_zero]

/-- The text of `nest`. -/
def brackets (depth : Nat) : List Char :=
  List.replicate (depth + 1) '[' ++ List.replicate (depth + 1) ']'

theorem brackets_succ_append (depth : Nat) (rest : List Char) :
    brackets (depth + 1) ++ rest = '[' :: (brackets depth ++ ']' :: rest) := by
  have hclosing : List.replicate (depth + 1 + 1) ']' = List.replicate (depth + 1) ']' ++ [']'] :=
    List.replicate_succ'
  rw [brackets, brackets, List.replicate_succ, hclosing]
  simp only [List.cons_append, List.append_assoc, List.nil_append]

theorem valueText_brackets (depth : Nat) (rest : List Char) :
    ValueText (nest depth) (brackets depth ++ rest) rest := by
  induction depth generalizing rest with
  | zero => exact .emptyArray .none
  | succ depth ih =>
    rw [brackets_succ_append]
    exact .array (.last (.mk .none (ih _) .none))

theorem textOf_brackets (depth : Nat) : TextOf (nest depth) (String.ofList (brackets depth)) := by
  have hvalue := valueText_brackets depth []
  rw [List.append_nil] at hvalue
  exact textOf_ofList (.mk .none hvalue .none)

end DocTable.Json
