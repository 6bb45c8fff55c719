import DocTable.Proofs.Json.Members
import DocTable.Proofs.Json.Reading

/-!
# Names that occur once

The members of an object are kept as a list, and a list could repeat a name. No object that is read
does so.

* `Json.NamesDistinct` — the members of every object in a value have names of their own.
* `Json.namesDistinct_of_value?` — whatever is written stands for such a value.
* `Json.namesDistinct_of_read` — so every text is read as one.
-/

set_option autoImplicit false

namespace DocTable.Json

mutual

/-- The members of every object in a value have names of their own. -/
def NamesDistinct : Json → Prop
  | .null => True
  | .bool _ => True
  | .number _ => True
  | .string _ => True
  | .array items => ItemNamesDistinct items
  | .object members => (members.map (·.1)).Nodup ∧ MemberNamesDistinct members

/-- The same for all items of an array. -/
def ItemNamesDistinct : List Json → Prop
  | [] => True
  | j :: items => NamesDistinct j ∧ ItemNamesDistinct items

/-- The same for the values of all members of an object. -/
def MemberNamesDistinct : Members → Prop
  | [] => True
  | (_, j) :: members => NamesDistinct j ∧ MemberNamesDistinct members

end

theorem memberNamesDistinct_iff {members : Members} :
    MemberNamesDistinct members ↔ ∀ member ∈ members, member.2.NamesDistinct := by
  induction members with
  | nil => simp [MemberNamesDistinct]
  | cons member members ih => rw [MemberNamesDistinct, ih, List.forall_mem_cons]

/-- An object has each of its names once, however often they are written. -/
theorem namesDistinct_objectOf {list : Members} (h : MemberNamesDistinct list) :
    (objectOf list).NamesDistinct := by
  rw [objectOf, members_eq_mergeNames, NamesDistinct, memberNamesDistinct_iff]
  refine ⟨nodup_mergeNames list, fun member hmember => ?_⟩
  exact memberNamesDistinct_iff.1 h member (mem_of_mem_mergeNames hmember)

/-! ## What is written -/

section

variable {number? : Numeral → Option Number}

mutual

/-- **What is written has no object that repeats a name**, whatever its numbers stand for. -/
theorem namesDistinct_of_value? : (w : Written) → ∀ {j : Json}, w.value? number? = some j →
    j.NamesDistinct
  | .null, _, h => by cases h; trivial
  | .bool _, _, h => by cases h; trivial
  | .number _, _, h => by
    obtain ⟨n, -, rfl⟩ := Option.map_eq_some_iff.1 h
    trivial
  | .string _, _, h => by
    obtain ⟨chars, -, rfl⟩ := Option.map_eq_some_iff.1 h
    trivial
  | .array items, _, h => by
    obtain ⟨vs, hvs, rfl⟩ := Option.map_eq_some_iff.1 h
    exact namesDistinct_of_itemValues? items hvs
  | .object members, _, h => by
    obtain ⟨list, hlist, rfl⟩ := Option.map_eq_some_iff.1 h
    exact namesDistinct_objectOf (namesDistinct_of_memberValues? members hlist)

theorem namesDistinct_of_itemValues? : (items : List Written) → ∀ {vs : List Json},
    Written.itemValues? number? items = some vs → ItemNamesDistinct vs
  | [], _, h => by cases h; trivial
  | w :: items, _, h => by
    obtain ⟨v, hv, h⟩ := Option.bind_eq_some_iff.1 h
    obtain ⟨vs, hvs, h⟩ := Option.bind_eq_some_iff.1 h
    cases h
    exact ⟨namesDistinct_of_value? w hv, namesDistinct_of_itemValues? items hvs⟩

theorem namesDistinct_of_memberValues? : (members : List (List Piece × Written)) →
    ∀ {list : Members}, Written.memberValues? number? members = some list →
      MemberNamesDistinct list
  | [], _, h => by cases h; trivial
  | (_, w) :: members, _, h => by
    obtain ⟨chars, -, h⟩ := Option.bind_eq_some_iff.1 h
    obtain ⟨v, hv, h⟩ := Option.bind_eq_some_iff.1 h
    obtain ⟨list, hlist, h⟩ := Option.bind_eq_some_iff.1 h
    cases h
    exact ⟨namesDistinct_of_value? w hv, namesDistinct_of_memberValues? members hlist⟩

end

end

/-- **No text is read as an object that repeats a name.** -/
theorem namesDistinct_of_read {text : String} {j : Json} (h : read text = .ok j) :
    j.NamesDistinct := by
  obtain ⟨w, -, -, hvalue⟩ := read_eq_ok_iff.1 h
  exact namesDistinct_of_value? w hvalue

end DocTable.Json
