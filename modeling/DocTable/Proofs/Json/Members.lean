import DocTable.Json.Basic
import Mathlib.Data.List.Induction
import Mathlib.Data.List.Nodup

/-!
# Repeated names

* `eraseDups_concat`, `nodup_eraseDups` — names in the order in which they first occur: what one
  more name adds to them, and that none is there twice.
* `mergeNames` — a list of named things with each name once.
* `names_mergeNames`, `lookup_mergeNames` — a name stays where it is first and has what it has
  last.
* `Json.members_eq_mergeNames` — this is what becomes of the members of an object.
* `mergeNames_map` — it makes no difference whether names are merged before or after a conversion.
* `nodup_mergeNames`, `mergeNames_of_nodup` — no name is left twice, and where none was, nothing is
  merged.
-/

set_option autoImplicit false

namespace DocTable

variable {α β : Type}

/-! ## Names in the order in which they first occur -/

section

variable [DecidableEq α]

theorem eraseDups_concat (items : List α) (a : α) :
    (items ++ [a]).eraseDups =
      if a ∈ items.eraseDups then items.eraseDups else items.eraseDups ++ [a] := by
  rw [List.eraseDups_append]
  split
  · rename_i h
    rw [List.mem_eraseDups] at h
    simp [List.removeAll, h]
  · rename_i h
    rw [List.mem_eraseDups] at h
    simp [List.removeAll, h, List.eraseDups_cons]

theorem nodup_eraseDups (items : List α) : items.eraseDups.Nodup := by
  induction items using List.reverseRecOn with
  | nil => exact List.nodup_nil
  | append_singleton items a ih =>
    rw [eraseDups_concat]
    split
    · exact ih
    · rename_i h
      rw [← List.concat_eq_append]
      exact ih.concat h

theorem eraseDups_filter (p : α → Bool) (items : List α) :
    (items.filter p).eraseDups = items.eraseDups.filter p := by
  induction items using List.reverseRecOn with
  | nil => rfl
  | append_singleton items a ih =>
    rw [List.filter_append, eraseDups_concat]
    by_cases hp : p a = true
    · have hmem : a ∈ items.eraseDups.filter p ↔ a ∈ items.eraseDups := by
        rw [List.mem_filter, and_iff_left hp]
      rw [List.filter_cons_of_pos hp, List.filter_nil, eraseDups_concat, ih]
      simp only [hmem]
      split
      · rfl
      · rw [List.filter_append, List.filter_cons_of_pos hp, List.filter_nil]
    · rw [List.filter_cons_of_neg hp, List.filter_nil, List.append_nil, ih]
      split
      · rfl
      · rw [List.filter_append, List.filter_cons_of_neg hp, List.filter_nil, List.append_nil]

end

/-! ## Merging -/

/-- The list with each name once: where it is first, and with what it has last. -/
def mergeNames : List (String × α) → List (String × α)
  | [] => []
  | (name, a) :: fields =>
    (name, ((mergeNames fields).lookup name).getD a) ::
      (mergeNames fields).filter fun field => field.1 != name

/-- The names of a merged list are those of the list in the order of their first occurrence. -/
theorem names_mergeNames (fields : List (String × α)) :
    (mergeNames fields).map (·.1) = (fields.map (·.1)).eraseDups := by
  induction fields with
  | nil => rfl
  | cons field fields ih =>
    obtain ⟨key, a⟩ := field
    rw [mergeNames, List.map_cons, List.map_cons, List.eraseDups_cons, eraseDups_filter, ← ih,
      List.filter_map]
    rfl

theorem mem_of_lookup {fields : List (String × α)} {name : String} {a : α}
    (h : fields.lookup name = some a) : (name, a) ∈ fields := by
  obtain ⟨before, after, rfl, -⟩ := List.lookup_eq_some_iff.1 h
  exact List.mem_append_right before List.mem_cons_self

theorem mem_of_mem_mergeNames {fields : List (String × α)} {field : String × α}
    (h : field ∈ mergeNames fields) : field ∈ fields := by
  induction fields with
  | nil => cases h
  | cons head fields ih =>
    obtain ⟨key, a⟩ := head
    rcases List.mem_cons.1 h with rfl | hrest
    · cases hlookup : (mergeNames fields).lookup key with
      | none => exact List.mem_cons_self
      | some last =>
        rw [hlookup] at ih
        exact List.mem_cons_of_mem _ (ih (mem_of_lookup hlookup))
    · exact List.mem_cons_of_mem _ (ih (List.mem_filter.1 hrest).1)

theorem lookup_map (f : α → β) (fields : List (String × α)) (name : String) :
    (fields.map fun field => (field.1, f field.2)).lookup name = (fields.lookup name).map f := by
  induction fields with
  | nil => rfl
  | cons field fields ih =>
    obtain ⟨key, a⟩ := field
    rw [List.map_cons, List.lookup_cons, List.lookup_cons, ih]
    cases name == key <;> rfl

theorem mergeNames_map (f : α → β) (fields : List (String × α)) :
    mergeNames (fields.map fun field => (field.1, f field.2)) =
      (mergeNames fields).map fun field => (field.1, f field.2) := by
  induction fields with
  | nil => rfl
  | cons field fields ih =>
    obtain ⟨key, a⟩ := field
    rw [List.map_cons, mergeNames, ih, lookup_map, mergeNames, List.map_cons, List.filter_map,
      Option.getD_map]
    rfl

theorem nodup_mergeNames (fields : List (String × α)) :
    ((mergeNames fields).map (·.1)).Nodup := by
  rw [names_mergeNames]
  exact nodup_eraseDups _

theorem mergeNames_of_nodup {fields : List (String × α)} (h : (fields.map (·.1)).Nodup) :
    mergeNames fields = fields := by
  induction fields with
  | nil => rfl
  | cons field fields ih =>
    obtain ⟨key, a⟩ := field
    rw [List.map_cons, List.nodup_cons] at h
    obtain ⟨hkey, hfields⟩ := h
    have hother : ∀ other ∈ fields, other.1 ≠ key := by
      intro other hother hname
      exact hkey (List.mem_map.2 ⟨other, hother, hname⟩)
    have hlookup : fields.lookup key = none :=
      List.lookup_eq_none_iff.2 fun other h => by simpa using (hother other h).symm
    have hfilter : (fields.filter fun other => other.1 != key) = fields :=
      List.filter_eq_self.2 fun other h => by simpa using hother other h
    rw [mergeNames, ih hfields, hlookup, hfilter, Option.getD_none]

namespace Json

/-! ## Members of an object -/

theorem lookup_insert_self (name : String) (value : Json) (members : Members) :
    (insert name value members).lookup name = some value := by
  induction members with
  | nil => simp [insert]
  | cons member members ih =>
    obtain ⟨key, old⟩ := member
    rw [insert]
    split
    · rename_i hkey
      rw [hkey, List.lookup_cons, beq_self_eq_true]
    · rename_i hkey
      rw [List.lookup_cons, beq_false_of_ne (Ne.symm hkey)]
      exact ih

theorem lookup_insert_ne {name other : String} (h : other ≠ name) (value : Json)
    (members : Members) : (insert name value members).lookup other = members.lookup other := by
  induction members with
  | nil => simp [insert, h]
  | cons member members ih =>
    obtain ⟨key, old⟩ := member
    rw [insert]
    split
    · rename_i hkey
      rw [List.lookup_cons, List.lookup_cons, hkey, beq_false_of_ne h]
    · rw [List.lookup_cons, List.lookup_cons, ih]

theorem filter_insert_self (name : String) (value : Json) (members : Members) :
    ((insert name value members).filter fun member => member.1 != name) =
      members.filter fun member => member.1 != name := by
  induction members with
  | nil => simp [insert]
  | cons member members ih =>
    obtain ⟨key, old⟩ := member
    rw [insert]
    split
    · rename_i hkey
      rw [List.filter_cons_of_neg (by simpa using hkey),
        List.filter_cons_of_neg (by simpa using hkey)]
    · rename_i hkey
      rw [List.filter_cons_of_pos (by simpa using hkey),
        List.filter_cons_of_pos (by simpa using hkey), ih]

theorem filter_insert_ne {name other : String} (h : other ≠ name) (value : Json)
    (members : Members) :
    ((insert name value members).filter fun member => member.1 != other) =
      insert name value (members.filter fun member => member.1 != other) := by
  induction members with
  | nil => simp [insert, Ne.symm h]
  | cons member members ih =>
    obtain ⟨key, old⟩ := member
    by_cases hkey : key = name
    · rw [insert, if_pos hkey, List.filter_cons_of_pos (by simpa [hkey] using Ne.symm h),
        List.filter_cons_of_pos (by simpa [hkey] using Ne.symm h), insert, if_pos hkey]
    · rw [insert, if_neg hkey]
      by_cases hother : key = other
      · rw [List.filter_cons_of_neg (by simpa using hother),
          List.filter_cons_of_neg (by simpa using hother), ih]
      · rw [List.filter_cons_of_pos (by simpa using hother),
          List.filter_cons_of_pos (by simpa using hother), insert, if_neg hkey, ih]

/-- One more member is put into the merged list as into an object. -/
theorem mergeNames_concat (list : Members) (name : String) (value : Json) :
    mergeNames (list ++ [(name, value)]) = insert name value (mergeNames list) := by
  induction list with
  | nil => rfl
  | cons member list ih =>
    obtain ⟨key, old⟩ := member
    rw [List.cons_append, mergeNames, ih, mergeNames, insert]
    by_cases hkey : key = name
    · rw [if_pos hkey, hkey, lookup_insert_self, filter_insert_self, Option.getD_some]
    · rw [if_neg hkey, lookup_insert_ne hkey, filter_insert_ne hkey]

/-- **The members of an object** are those it is written with, each name once. -/
theorem members_eq_mergeNames (list : Members) : members list = mergeNames list := by
  suffices h : ∀ before, list.foldl (fun done member => insert member.1 member.2 done)
      (mergeNames before) = mergeNames (before ++ list) from h []
  induction list with
  | nil =>
    intro before
    rw [List.append_nil]
    rfl
  | cons member list ih =>
    intro before
    rw [List.append_cons, ← ih, mergeNames_concat]
    rfl

end Json

end DocTable
