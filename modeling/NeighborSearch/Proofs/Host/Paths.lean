import NeighborSearch.Proofs.Host.Tree
import NeighborSearch.Proofs.Outcome

/-!
# Where paths lead

A path is checked as a text and then followed piece by piece. Where it leads depends only on which
directories there are, and a path that leads somewhere still does when there are more of them.
-/

namespace NeighborSearch.Machine

/-! ## Pieces -/

/-- The pieces of a path that are not empty. -/
def segments (path : String) : List String :=
  (Path.pieces path).filter (· ≠ "")

/-- Follows pieces from a directory up to the last one. -/
def walk (root : Node) (start pieces : List String) (slashed : Bool) :
    Except FileError Location := do
  let directory ← pieces.dropLast.foldlM (enter root) start
  match pieces.getLast? with
  | none => return ⟨directory, none, slashed⟩
  | some last =>
    if last = "." ∨ last = ".." then return ⟨← enter root directory last, none, slashed⟩
    return ⟨directory, some last, slashed⟩

/-- Whether a text is the text of a path. -/
structure IsPath (path : String) : Prop where
  nul : '\x00' ∉ path.toList
  length : path.utf8ByteSize ≤ longestPath
  nonempty : path ≠ ""

/-- The directory that a path starts from. -/
def origin (start : List String) (path : String) : List String :=
  if Path.isAbsolute path then [] else start

def isSlashed (path : String) : Bool :=
  path.toList.getLast? == some '/'

/-- A path leads where its pieces do. -/
theorem locate_eq_walk {path : String} (h : IsPath path) (root : Node) (start : List String) :
    locate root start path
      = walk root (origin start path) (segments path) (isSlashed path) := by
  rw [locate, if_neg (fun hnul => h.nul (List.contains_iff_mem.1 hnul)),
    if_neg (Nat.not_lt.2 h.length), if_neg h.nonempty]
  rfl

theorem isPath_of_locate {root : Node} {start : List String} {path : String} {place : Location}
    (h : locate root start path = .ok place) : IsPath path := by
  rw [locate] at h
  by_cases hnul : path.toList.contains '\x00' = true
  · rw [if_pos hnul] at h
    cases h
  rw [if_neg hnul] at h
  by_cases hlength : longestPath < path.utf8ByteSize
  · rw [if_pos hlength] at h
    cases h
  rw [if_neg hlength] at h
  by_cases hempty : path = ""
  · rw [if_pos hempty] at h
    cases h
  exact ⟨fun h => hnul (List.contains_iff_mem.2 h), Nat.not_lt.1 hlength, hempty⟩

theorem locate_eq_ok_iff {root : Node} {start : List String} {path : String} {place : Location} :
    locate root start path = .ok place
      ↔ IsPath path
        ∧ walk root (origin start path) (segments path) (isSlashed path) = .ok place := by
  constructor
  · intro h
    have hpath := isPath_of_locate h
    rw [locate_eq_walk hpath] at h
    exact ⟨hpath, h⟩
  · rintro ⟨hpath, h⟩
    rw [locate_eq_walk hpath, h]

/-! ## Following pieces -/

section

variable {root root' : Node} {directory found : List String} {piece : String}

/-- What a step can do: stay, go up, or go down into a directory that is there. -/
theorem enter_cases (h : enter root directory piece = .ok found) :
    ((piece = "" ∨ piece = ".") ∧ found = directory)
    ∨ (piece = ".." ∧ found = directory.dropLast)
    ∨ (checkName piece = .ok () ∧ root.IsDirectoryAt (directory ++ [piece])
      ∧ found = directory ++ [piece]) := by
  unfold enter at h
  split at h
  · next hstay => exact .inl ⟨hstay, (Except.ok.inj h).symm⟩
  · split at h
    · next hup => exact .inr (.inl ⟨hup, (Except.ok.inj h).symm⟩)
    · obtain ⟨⟨⟩, hname, h⟩ := bind_eq_ok_iff.1 h
      split at h
      · cases h
      · cases h
      · next entries hfound =>
        exact .inr (.inr ⟨hname, ⟨entries, hfound⟩, (Except.ok.inj h).symm⟩)

/-- A name that no dots are leads into the directory under it. -/
theorem enter_name (hempty : piece ≠ "") (hdot : piece ≠ ".") (hup : piece ≠ "..")
    (hname : checkName piece = .ok ()) (h : root.IsDirectoryAt (directory ++ [piece])) :
    enter root directory piece = .ok (directory ++ [piece]) := by
  obtain ⟨entries, hfound⟩ := h
  have hstay : ¬(piece = "" ∨ piece = ".") := fun h => h.elim hempty hdot
  rw [enter, if_neg hstay, if_neg hup, hname, ok_bind, hfound]
  rfl

/-- Steps stay within the directories that are there. -/
theorem isDirectoryAt_enter (hdirectory : root.IsDirectoryAt directory)
    (h : enter root directory piece = .ok found) : root.IsDirectoryAt found := by
  obtain ⟨_, rfl⟩ | ⟨_, rfl⟩ | ⟨_, hfound, rfl⟩ := enter_cases h
  · exact hdirectory
  · by_cases hroot : directory = []
    · rw [hroot] at hdirectory ⊢
      exact hdirectory
    · rw [← List.dropLast_append_getLast hroot] at hdirectory
      exact hdirectory.of_append
  · exact hfound

/-- A tree that has all directories of another one. -/
def Covers (root root' : Node) : Prop :=
  ∀ way, root.IsDirectoryAt way → root'.IsDirectoryAt way

theorem enter_of_covers (hcovers : Covers root root') (h : enter root directory piece = .ok found) :
    enter root' directory piece = .ok found := by
  by_cases hstay : piece = "" ∨ piece = "."
  · rw [enter, if_pos hstay] at h ⊢
    exact h
  · by_cases hup : piece = ".."
    · rw [enter, if_neg hstay, if_pos hup] at h ⊢
      exact h
    · obtain ⟨h', _⟩ | ⟨h', _⟩ | ⟨hname, hfound, rfl⟩ := enter_cases h
      · exact absurd h' hstay
      · exact absurd h' hup
      · obtain ⟨hempty, hdot⟩ := not_or.1 hstay
        exact enter_name hempty hdot hup hname (hcovers _ hfound)

theorem isDirectoryAt_foldlM {pieces : List String} (hdirectory : root.IsDirectoryAt directory)
    (h : pieces.foldlM (enter root) directory = .ok found) : root.IsDirectoryAt found := by
  induction pieces generalizing directory with
  | nil =>
    obtain rfl : directory = found := Except.ok.inj h
    exact hdirectory
  | cons piece pieces ih =>
    rw [List.foldlM_cons] at h
    obtain ⟨next, hnext, h⟩ := bind_eq_ok_iff.1 h
    exact ih (isDirectoryAt_enter hdirectory hnext) h

theorem foldlM_of_covers (hcovers : Covers root root') {pieces : List String}
    (h : pieces.foldlM (enter root) directory = .ok found) :
    pieces.foldlM (enter root') directory = .ok found := by
  induction pieces generalizing directory with
  | nil => exact h
  | cons piece pieces ih =>
    rw [List.foldlM_cons] at h ⊢
    obtain ⟨next, hnext, h⟩ := bind_eq_ok_iff.1 h
    rw [enter_of_covers hcovers hnext]
    exact ih h

variable {pieces : List String} {slashed : Bool} {place : Location}

/-- The last name that a path ends with stands in a directory that is there. -/
theorem isDirectoryAt_walk (hdirectory : root.IsDirectoryAt directory)
    (h : walk root directory pieces slashed = .ok place) : root.IsDirectoryAt place.directory := by
  obtain ⟨next, hnext, h⟩ := bind_eq_ok_iff.1 h
  have hfound := isDirectoryAt_foldlM hdirectory hnext
  split at h
  · obtain rfl := Except.ok.inj h
    exact hfound
  · split at h
    · obtain ⟨last, hlast, h⟩ := bind_eq_ok_iff.1 h
      obtain rfl := Except.ok.inj h
      exact isDirectoryAt_enter hfound hlast
    · obtain rfl := Except.ok.inj h
      exact hfound

theorem walk_of_covers (hcovers : Covers root root')
    (h : walk root directory pieces slashed = .ok place) :
    walk root' directory pieces slashed = .ok place := by
  obtain ⟨next, hnext, h⟩ := bind_eq_ok_iff.1 h
  rw [walk, foldlM_of_covers hcovers hnext, ok_bind]
  split at h
  · exact h
  · next last _ =>
    split at h
    · next hdots =>
      obtain ⟨found, hfound, h⟩ := bind_eq_ok_iff.1 h
      simp only [if_pos hdots, enter_of_covers hcovers hfound, ok_bind]
      exact h
    · next hdots =>
      simp only [if_neg hdots]
      exact h

end

end NeighborSearch.Machine
