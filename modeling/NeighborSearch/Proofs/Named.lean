import Mathlib.Data.List.Nodup
import NeighborSearch.Named

/-!
# Looking up named entries

What stands under a name after the entries were changed, selected or put together, and when a name
stands for nothing.
-/

namespace NeighborSearch.Named

variable {α β : Type}

theorem lookup_map (f : String → α → β) (entries : List (String × α)) (name : String) :
    (entries.map fun (other, value) => (other, f other value)).lookup name
      = (entries.lookup name).map (f name) := by
  induction entries with
  | nil => rfl
  | cons entry rest ih =>
    obtain ⟨other, value⟩ := entry
    rw [List.map_cons, List.lookup_cons, List.lookup_cons, ih]
    by_cases h : name = other
    · rw [h, beq_self_eq_true, Option.map_some]
    · rw [beq_eq_false_iff_ne.2 h]

/-- Entries with other names may be left out. -/
theorem lookup_filter (keep : String → Bool) {name : String} (h : keep name = true)
    (entries : List (String × α)) :
    (entries.filter fun entry => keep entry.1).lookup name = entries.lookup name := by
  induction entries with
  | nil => rfl
  | cons entry rest ih =>
    obtain ⟨other, value⟩ := entry
    by_cases hother : name = other
    · subst hother
      rw [List.filter_cons, if_pos h, List.lookup_cons_self, List.lookup_cons_self]
    · rw [List.lookup_cons, beq_eq_false_iff_ne.2 hother, List.filter_cons]
      split
      · rw [List.lookup_cons, beq_eq_false_iff_ne.2 hother, ih]
      · exact ih

/-- A name stands for nothing where no entry has it. -/
theorem lookup_eq_none {entries : List (String × α)} {name : String} :
    entries.lookup name = none ↔ name ∉ entries.map Prod.fst := by
  rw [List.lookup_eq_none_iff, List.mem_map, not_exists]
  refine forall_congr' fun entry => ?_
  rw [not_and, bne_iff_ne, ne_comm, ne_eq]

/-- The only entry of a name is replaced where it stands. -/
theorem put_append {entries : List (String × α)} {name : String} (h : entries.lookup name = none)
    {old new : α} {others : List (String × α)} :
    put (entries ++ (name, old) :: others) name new = entries ++ (name, new) :: others := by
  induction entries with
  | nil => rw [List.nil_append, put, if_pos rfl, List.nil_append]
  | cons entry rest ih =>
    obtain ⟨other, value⟩ := entry
    have hother : name ≠ other := by
      rintro rfl
      rw [List.lookup_cons_self] at h
      cases h
    rw [List.lookup_cons, beq_eq_false_iff_ne.2 hother] at h
    rw [List.cons_append, put, if_neg (Ne.symm hother), ih h, List.cons_append]

/-! ## Entries that may be absent -/

/-- The entries that are present. -/
def present (entries : List (String × Option α)) : List (String × α) :=
  entries.filterMap fun (name, value) => value.map fun v => (name, v)

theorem names_present_sublist (entries : List (String × Option α)) :
    ((present entries).map Prod.fst).Sublist (entries.map Prod.fst) := by
  induction entries with
  | nil => exact .slnil
  | cons entry rest ih =>
    obtain ⟨name, _ | value⟩ := entry
    · exact .cons name ih
    · exact .cons_cons name ih

/-- Where every name stands once, a name stands for its value or for nothing. -/
theorem lookup_present {entries : List (String × Option α)} (h : (entries.map Prod.fst).Nodup)
    (name : String) : (present entries).lookup name = (entries.lookup name).join := by
  induction entries with
  | nil => rfl
  | cons entry rest ih =>
    obtain ⟨hfresh, hrest⟩ := List.nodup_cons.1 h
    obtain ⟨other, value⟩ := entry
    by_cases hother : name = other
    · subst hother
      rw [List.lookup_cons_self, Option.join_some]
      cases value with
      | some v => exact List.lookup_cons_self
      | none =>
        have habsent : name ∉ (present rest).map Prod.fst :=
          fun hmem => hfresh ((names_present_sublist rest).subset hmem)
        exact lookup_eq_none.2 habsent
    · rw [List.lookup_cons, beq_eq_false_iff_ne.2 hother, ← ih hrest]
      cases value with
      | none => rfl
      | some v =>
        have hcons : present ((other, some v) :: rest) = (other, v) :: present rest := rfl
        rw [hcons, List.lookup_cons, beq_eq_false_iff_ne.2 hother]

end NeighborSearch.Named
