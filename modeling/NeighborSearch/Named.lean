/-!
# Named entries

Lists of named entries in which each name stands at most once: the files of a directory, the values
of a table.
-/

namespace NeighborSearch.Named

/-- Puts an entry in place of the entry of that name, or at the end. -/
def put {α : Type} (entries : List (String × α)) (name : String) (value : α) : List (String × α) :=
  match entries with
  | [] => [(name, value)]
  | entry :: rest =>
    if entry.1 = name then (name, value) :: rest else entry :: put rest name value

/-- Under the name that was put stands the new value, and under every other name what stood there
before. -/
theorem lookup_put {α : Type} (entries : List (String × α)) (name other : String) (value : α) :
    (put entries name value).lookup other
      = if other = name then some value else entries.lookup other := by
  induction entries with
  | nil =>
    by_cases h : other = name
    · simp [put, h]
    · simp [put, List.lookup_cons, h, beq_eq_false_iff_ne.2 h]
  | cons entry rest ih =>
    obtain ⟨k, v⟩ := entry
    by_cases hk : k = name
    · subst hk
      by_cases h : other = k
      · simp [put, h]
      · simp [put, List.lookup_cons, h, beq_eq_false_iff_ne.2 h]
    · by_cases h : other = k
      · subst h
        simp [put, hk]
      · simp [put, List.lookup_cons, hk, beq_eq_false_iff_ne.2 h, ih]

end NeighborSearch.Named
