import DocTable.ExtendedJson.Basic
import DocTable.Proofs.Steps

/-!
# Why JSON is refused

A text is refused because it is not JSON, or because the JSON in it is not that of a document.

* `Error.IsPlaceless` — a malformed document, with no offset to name.
* `Value.isPlaceless_of_ofJsonAt` — every error of a JSON value is of this kind, by induction on the
  value.
* `Document.error_of_parse` — the two kinds of errors of a text.
-/

set_option autoImplicit false

namespace DocTable

/-- The error is that of a malformed document and names no offset. -/
def Error.IsPlaceless (error : Error) : Prop :=
  ∃ fault, error = .malformed none fault

variable {error : Error}

namespace Wrapper

theorem isPlaceless_of_scalar? {name : Name} {content : Json}
    (h : scalar? name content = .error error) : error.IsPlaceless := by
  unfold scalar? at h
  split at h <;> (try split at h) <;> (try split at h) <;> cases h
  · exact ⟨_, rfl⟩
  · exact ⟨_, rfl⟩

theorem isPlaceless_of_read {members : Json.Members} (h : read members = .error error) :
    error.IsPlaceless := by
  unfold read at h
  split at h
  · split at h
    · cases h
    · rcases Steps.bind_eq_error.1 h with hscalar | ⟨found, -, hfound⟩
      · exact isPlaceless_of_scalar? hscalar
      · cases found with
        | some s => cases hfound
        | none =>
          cases hfound
          exact ⟨_, rfl⟩
  · cases h

end Wrapper

namespace Value

mutual

theorem isPlaceless_of_ofJsonAt {depth : Nat} {j : Json} (h : ofJsonAt depth j = .error error) :
    error.IsPlaceless := by
  cases j with
  | null | bool | number | string =>
    rw [ofJsonAt] at h
    cases h
  | array items =>
    rw [ofJsonAt] at h
    split at h
    · cases h
      exact ⟨_, rfl⟩
    · exact isPlaceless_of_itemsOfJsonAt (Steps.map_eq_error.1 h)
  | object members =>
    rw [ofJsonAt] at h
    rcases Steps.bind_eq_error.1 h with hread | ⟨found, -, hfound⟩
    · exact Wrapper.isPlaceless_of_read hread
    · cases found with
      | some s => cases hfound
      | none =>
        simp only at hfound
        split at hfound
        · cases hfound
          exact ⟨_, rfl⟩
        · exact isPlaceless_of_fieldsOfJsonAt (Steps.map_eq_error.1 hfound)

theorem isPlaceless_of_itemsOfJsonAt {depth : Nat} {items : List Json}
    (h : itemsOfJsonAt depth items = .error error) : error.IsPlaceless := by
  cases items with
  | nil => cases h
  | cons j items =>
    rw [itemsOfJsonAt] at h
    rcases Steps.bind_eq_error.1 h with hj | ⟨v, -, h⟩
    · exact isPlaceless_of_ofJsonAt hj
    · rcases Steps.bind_eq_error.1 h with hitems | ⟨vs, -, hdone⟩
      · exact isPlaceless_of_itemsOfJsonAt hitems
      · cases hdone

theorem isPlaceless_of_fieldsOfJsonAt {depth : Nat} {members : List (String × Json)}
    (h : fieldsOfJsonAt depth members = .error error) : error.IsPlaceless := by
  cases members with
  | nil => cases h
  | cons member members =>
    obtain ⟨name, j⟩ := member
    rw [fieldsOfJsonAt] at h
    rcases Steps.bind_eq_error.1 h with hj | ⟨v, -, h⟩
    · exact isPlaceless_of_ofJsonAt hj
    · rcases Steps.bind_eq_error.1 h with hfields | ⟨fields, -, hdone⟩
      · exact isPlaceless_of_fieldsOfJsonAt hfields
      · cases hdone

end

end Value

namespace Document

theorem isPlaceless_of_ofJson {j : Json} (h : ofJson j = .error error) : error.IsPlaceless := by
  unfold ofJson at h
  split at h
  · exact Value.isPlaceless_of_fieldsOfJsonAt h
  · cases h
    exact ⟨_, rfl⟩

/-- A text is not JSON, or its JSON is not that of a document. -/
theorem error_of_parse {text : String} (h : parse text = .error error) :
    (∃ fault, error = .json fault) ∨ error.IsPlaceless := by
  unfold parse at h
  split at h
  · exact .inr (isPlaceless_of_ofJson h)
  · cases h
    exact .inl ⟨_, rfl⟩

end Document

end DocTable
