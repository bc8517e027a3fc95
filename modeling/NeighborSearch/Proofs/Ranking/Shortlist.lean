import NeighborSearch.Ranking.Shortlist

/-!
# What a shortlist holds

The invariant of a scan is `Shortlist.HoldsBest`: a candidate that was offered and is not on the
list was left out because the list is full of better ones. Each offer keeps it, and it determines
the list: it is the front of all candidates in their order (`HoldsBest.toList_eq`).
-/

namespace NeighborSearch

/-! ## The order of candidates -/

namespace Candidate

variable {a b c : Candidate}

theorem compare_self (a : Candidate) : a.compare a = .eq :=
  Std.ReflCmp.compare_self

theorem eq_of_compare_eq (h : a.compare b = .eq) : a = b :=
  Std.LawfulEqCmp.eq_of_compare h

theorem compare_lt_trans (hab : a.compare b = .lt) (hbc : b.compare c = .lt) :
    a.compare c = .lt :=
  Std.TransCmp.lt_trans hab hbc

theorem not_compare_lt_of_lt (h : a.compare b = .lt) : ¬b.compare a = .lt :=
  Std.OrientedCmp.not_lt_of_lt h

/-- Of two different candidates, the one that does not come before the other comes after it. -/
theorem compare_lt_of_not_lt (hne : a ≠ b) (h : ¬a.compare b = .lt) : b.compare a = .lt := by
  cases hab : a.compare b with
  | lt => exact absurd hab h
  | eq => exact absurd (eq_of_compare_eq hab) hne
  | gt => exact Std.OrientedCmp.gt_iff_lt.1 hab

/-- A candidate that is not after another is that one or comes before it. -/
theorem compare_lt_of_isLE (hne : a ≠ b) (h : (a.compare b).isLE) : a.compare b = .lt := by
  cases hab : a.compare b with
  | lt => rfl
  | eq => exact absurd (eq_of_compare_eq hab) hne
  | gt =>
    rw [hab] at h
    cases h

theorem isLE_or_isLE (a b : Candidate) :
    (a.compare b).isLE = true ∨ (b.compare a).isLE = true := by
  by_cases hab : a.compare b = .lt
  · left
    rw [hab]
    rfl
  · right
    by_cases hne : a = b
    · rw [hne, compare_self]
      rfl
    · rw [compare_lt_of_not_lt hne hab]
      rfl

end Candidate

namespace Shortlist

variable {limit : Nat} {seen : List Candidate} {list : Shortlist} {c worst : Candidate}

/-! ## Membership and size -/

theorem mem_insert_iff {d : Candidate} : d ∈ list.insert c ↔ d = c ∨ d ∈ list := by
  rw [Std.TreeSet.mem_insert]
  constructor
  · rintro (h | h)
    · exact .inl (Candidate.eq_of_compare_eq h).symm
    · exact .inr h
  · rintro (rfl | h)
    · exact .inl (Candidate.compare_self d)
    · exact .inr h

theorem mem_erase_iff {d : Candidate} : d ∈ list.erase c ↔ d ≠ c ∧ d ∈ list := by
  rw [Std.TreeSet.mem_erase]
  constructor
  · rintro ⟨h, hd⟩
    refine ⟨?_, hd⟩
    rintro rfl
    exact h (Candidate.compare_self d)
  · rintro ⟨h, hd⟩
    exact ⟨fun heq => h (Candidate.eq_of_compare_eq heq).symm, hd⟩

theorem size_insert_of_not_mem (h : c ∉ list) : (list.insert c).size = list.size + 1 := by
  rw [Std.TreeSet.size_insert, if_neg]
  rw [Std.TreeSet.contains_iff_mem]
  exact h

theorem size_erase_of_mem (h : c ∈ list) : (list.erase c).size = list.size - 1 := by
  rw [Std.TreeSet.size_erase, if_pos]
  rw [Std.TreeSet.contains_iff_mem]
  exact h

theorem size_pos_of_mem (h : c ∈ list) : 0 < list.size := by
  rw [← Std.TreeSet.length_toList]
  exact List.length_pos_of_mem (Std.TreeSet.mem_toList.2 h)

/-- The worst candidate on a list comes after all others on it. -/
theorem compare_worst (h : list.max? = some worst) :
    worst ∈ list ∧ ∀ d ∈ list, d ≠ worst → d.compare worst = .lt := by
  obtain ⟨hmem, hall⟩ := Std.TreeSet.max?_eq_some_iff_mem_and_forall.1 h
  exact ⟨hmem, fun d hd hne => Candidate.compare_lt_of_isLE hne (hall d hd)⟩

/-! ## The invariant of a scan -/

/-- A list holds the best of the candidates that were seen: only these are on it, no more than the
limit, and one that is missing comes after all on a full list. -/
structure HoldsBest (limit : Nat) (seen : List Candidate) (list : Shortlist) : Prop where
  size_le : list.size ≤ limit
  mem_seen : ∀ c ∈ list, c ∈ seen
  left_out : ∀ c ∈ seen, c ∉ list → list.size = limit ∧ ∀ d ∈ list, d.compare c = .lt

theorem holdsBest_empty (limit : Nat) : HoldsBest limit [] ∅ where
  size_le := Nat.zero_le limit
  mem_seen := fun _ hc => absurd hc Std.TreeSet.not_mem_emptyc
  left_out := fun _ hc => absurd hc List.not_mem_nil

namespace HoldsBest

/-- While there is room, every candidate is on the list. -/
theorem insert (h : HoldsBest limit seen list) (hnew : c ∉ seen) (hroom : list.size < limit) :
    HoldsBest limit (seen ++ [c]) (list.insert c) := by
  have hc : c ∉ list := fun hmem => hnew (h.mem_seen c hmem)
  refine ⟨?_, ?_, ?_⟩
  · rw [size_insert_of_not_mem hc]
    exact hroom
  · intro d hd
    rw [mem_insert_iff] at hd
    rw [List.mem_append, List.mem_singleton]
    rcases hd with rfl | hd
    · exact .inr rfl
    · exact .inl (h.mem_seen d hd)
  · intro d hd hout
    rw [mem_insert_iff, not_or] at hout
    rw [List.mem_append, List.mem_singleton] at hd
    rcases hd with hd | rfl
    · have hfull := (h.left_out d hd hout.2).1
      omega
    · exact absurd rfl hout.1

/-- A candidate that is better than the worst one takes its place. -/
theorem replace (h : HoldsBest limit seen list) (hnew : c ∉ seen) (hfull : list.size = limit)
    (hworst : list.max? = some worst) (hbefore : c.compare worst = .lt) :
    HoldsBest limit (seen ++ [c]) ((list.erase worst).insert c) := by
  have hc : c ∉ list := fun hmem => hnew (h.mem_seen c hmem)
  obtain ⟨hmem, hothers⟩ := compare_worst hworst
  have hpos := size_pos_of_mem hmem
  have hsize : ((list.erase worst).insert c).size = limit := by
    have hgone : c ∉ list.erase worst := fun hin => hc (mem_erase_iff.1 hin).2
    rw [size_insert_of_not_mem hgone, size_erase_of_mem hmem]
    omega
  refine ⟨Nat.le_of_eq hsize, ?_, ?_⟩
  · intro d hd
    rw [mem_insert_iff, mem_erase_iff] at hd
    rw [List.mem_append, List.mem_singleton]
    rcases hd with rfl | ⟨-, hd⟩
    · exact .inr rfl
    · exact .inl (h.mem_seen d hd)
  · intro x hx hout
    refine ⟨hsize, ?_⟩
    rw [mem_insert_iff, mem_erase_iff, not_or, not_and] at hout
    obtain ⟨hxc, hxout⟩ := hout
    have hxseen : x ∈ seen := by
      rw [List.mem_append, List.mem_singleton] at hx
      exact hx.resolve_right hxc
    -- the candidate that is missing now is the worst one or was missing before
    have hafter : ∀ d : Candidate, d.compare worst = .lt → d.compare x = .lt := by
      intro d hd
      by_cases hxw : x = worst
      · rw [hxw]
        exact hd
      · have hworstx := (h.left_out x hxseen (hxout hxw)).2 worst hmem
        exact Candidate.compare_lt_trans hd hworstx
    intro d hd
    rw [mem_insert_iff, mem_erase_iff] at hd
    rcases hd with rfl | ⟨hdw, hd⟩
    · exact hafter d hbefore
    · exact hafter d (hothers d hd hdw)

/-- A candidate that is not better than any on a full list stays away. -/
theorem keep (h : HoldsBest limit seen list) (hnew : c ∉ seen) (hfull : list.size = limit)
    (hworse : ∀ d ∈ list, d.compare c = .lt) : HoldsBest limit (seen ++ [c]) list := by
  refine ⟨h.size_le, ?_, ?_⟩
  · intro d hd
    exact List.mem_append_left _ (h.mem_seen d hd)
  · intro x hx hout
    rw [List.mem_append, List.mem_singleton] at hx
    rcases hx with hx | rfl
    · exact h.left_out x hx hout
    · exact ⟨hfull, hworse⟩

/-- An offer keeps the best of what has been seen. -/
theorem offer (h : HoldsBest limit seen list) (hnew : c ∉ seen) :
    HoldsBest limit (seen ++ [c]) (list.offer limit c) := by
  have hc : c ∉ list := fun hmem => hnew (h.mem_seen c hmem)
  unfold Shortlist.offer
  by_cases hroom : list.size < limit
  · rw [if_pos hroom]
    exact h.insert hnew hroom
  · have hfull : list.size = limit := by
      have := h.size_le
      omega
    rw [if_neg hroom]
    cases hworst : list.max? with
    | none =>
      -- nothing is on the list, so the limit is zero
      refine h.keep hnew hfull ?_
      intro d hd
      rw [Std.TreeSet.max?_eq_none_iff, Std.TreeSet.isEmpty_eq_size_eq_zero, beq_iff_eq] at hworst
      have := size_pos_of_mem hd
      omega
    | some worst =>
      obtain ⟨hmem, hothers⟩ := compare_worst hworst
      dsimp only
      by_cases hbefore : c.before worst = true
      · rw [if_pos hbefore]
        exact h.replace hnew hfull hworst (beq_iff_eq.1 hbefore)
      · rw [if_neg hbefore]
        refine h.keep hnew hfull ?_
        have hworstc : worst.compare c = .lt := by
          refine Candidate.compare_lt_of_not_lt ?_ fun hlt => hbefore (beq_iff_eq.2 hlt)
          rintro rfl
          exact hc hmem
        intro d hd
        by_cases hdw : d = worst
        · rw [hdw]
          exact hworstc
        · exact Candidate.compare_lt_trans (hothers d hd hdw) hworstc

end HoldsBest

/-! ## The list after a scan -/

/-- Candidates in their order are different. -/
theorem nodup_of_ordered {l : List Candidate} (h : l.Pairwise fun a b => a.compare b = .lt) :
    l.Nodup := by
  refine h.imp ?_
  rintro a b hab rfl
  rw [Candidate.compare_self] at hab
  cases hab

/-- A list that holds the best of the candidates seen is the front of them all in their order. -/
theorem HoldsBest.toList_eq {sorted : List Candidate} (h : HoldsBest limit seen list)
    (hperm : sorted.Perm seen) (hsorted : sorted.Pairwise fun a b => a.compare b = .lt) :
    list.toList = sorted.take limit := by
  have hnodup : sorted.Nodup := nodup_of_ordered hsorted
  let others := sorted.filter fun c => !list.contains c
  have hothers : ∀ c, c ∈ others ↔ c ∈ seen ∧ c ∉ list := by
    intro c
    simp only [others, List.mem_filter, hperm.mem_iff, Bool.not_eq_true',
      Std.TreeSet.mem_iff_contains, Bool.not_eq_true]
  -- the list followed by what was left out is all of it, in order
  have hordered : (list.toList ++ others).Pairwise fun a b => a.compare b = .lt := by
    refine List.pairwise_append.2 ⟨Std.TreeSet.ordered_toList, hsorted.filter _, ?_⟩
    intro a ha b hb
    obtain ⟨hseen, hout⟩ := (hothers b).1 hb
    exact (h.left_out b hseen hout).2 a (Std.TreeSet.mem_toList.1 ha)
  have hmem : ∀ a, a ∈ list.toList ++ others ↔ a ∈ sorted := by
    intro a
    rw [List.mem_append, Std.TreeSet.mem_toList, hothers, hperm.mem_iff]
    constructor
    · rintro (ha | ha)
      · exact h.mem_seen a ha
      · exact ha.1
    · intro ha
      by_cases hin : a ∈ list
      · exact .inl hin
      · exact .inr ⟨ha, hin⟩
  have hall : list.toList ++ others = sorted := by
    refine List.Perm.eq_of_pairwise ?_ hordered hsorted ?_
    · intro a b _ _ hab hba
      exact absurd hba (Candidate.not_compare_lt_of_lt hab)
    · exact (List.perm_ext_iff_of_nodup (nodup_of_ordered hordered) hnodup).2 hmem
  have hlength : list.toList.length = list.size := Std.TreeSet.length_toList
  rw [← hall]
  cases hrest : others with
  | nil =>
    rw [List.append_nil, List.take_of_length_le]
    rw [hlength]
    exact h.size_le
  | cons x rest =>
    obtain ⟨hseen, hout⟩ := (hothers x).1 (hrest ▸ List.mem_cons_self)
    rw [List.take_left']
    rw [hlength]
    exact (h.left_out x hseen hout).1

end Shortlist

end NeighborSearch
