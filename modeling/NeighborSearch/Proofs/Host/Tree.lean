import NeighborSearch.Host.Machine
import NeighborSearch.Proofs.Named

/-!
# Trees of files

What stands at the end of a way down after a node was put into a tree: the new node where it was
put, and every directory where it was before, as long as the new node takes no directory's place.
-/

namespace NeighborSearch.Node

/-- A directory stands at the end of a way down. -/
def IsDirectoryAt (root : Node) (way : List String) : Prop :=
  ∃ entries, root.find? way = some (.directory entries)

variable {root : Node}

theorem not_isDirectoryAt_of_find? {way : List String} (h : root.find? way = none) :
    ¬root.IsDirectoryAt way := by
  rintro ⟨entries, hfound⟩
  rw [h] at hfound
  cases hfound

/-- A way that goes on leads through directories only. -/
theorem directory_of_find?_cons {name : String} {way : List String} {node : Node}
    (h : root.find? (name :: way) = some node) :
    ∃ entries next, root = .directory entries ∧ entries.lookup name = some next
      ∧ next.find? way = some node := by
  match root with
  | .file _ => cases h
  | .directory entries =>
    rw [find?] at h
    split at h
    · cases h
    · next next hnext => exact ⟨entries, next, rfl, hnext, h⟩

theorem find?_cons {entries : List (String × Node)} {name : String} {next : Node}
    (h : entries.lookup name = some next) (way : List String) :
    (directory entries).find? (name :: way) = next.find? way := by
  rw [find?, h]

theorem put_cons {entries : List (String × Node)} {step : String} {next : Node}
    (h : entries.lookup step = some next) {names : List String} (hnames : names ≠ []) (new : Node) :
    (directory entries).put (step :: names) new
      = .directory (Named.put entries step (next.put names new)) := by
  obtain ⟨name, more, rfl⟩ := List.exists_cons_of_ne_nil hnames
  simp only [put, h]

/-- Putting a node below a directory leaves it one, and changes nothing under other names. -/
theorem put_directory (entries : List (String × Node)) (name : String) (names : List String)
    (new : Node) :
    ∃ changed, (directory entries).put (name :: names) new = .directory changed
      ∧ ∀ other ≠ name, changed.lookup other = entries.lookup other := by
  have hother : ∀ node other, other ≠ name →
      (Named.put entries name node).lookup other = entries.lookup other := by
    intro node other h
    rw [Named.lookup_put, if_neg h]
  simp only [put]
  split
  · exact ⟨_, rfl, hother _⟩
  · exact ⟨_, rfl, fun _ _ => rfl⟩
  · exact ⟨_, rfl, hother _⟩

/-- The directories on a way are there. -/
theorem IsDirectoryAt.of_append {way more : List String} (h : root.IsDirectoryAt (way ++ more)) :
    root.IsDirectoryAt way := by
  induction way generalizing root with
  | nil =>
    obtain ⟨entries, h⟩ := h
    match more with
    | [] => exact ⟨entries, h⟩
    | name :: more =>
      obtain ⟨entries, _, rfl, _⟩ := directory_of_find?_cons h
      exact ⟨entries, by rw [find?]⟩
  | cons name way ih =>
    obtain ⟨inner, h⟩ := h
    obtain ⟨entries, next, rfl, hnext, h⟩ := directory_of_find?_cons h
    obtain ⟨found, hfound⟩ := ih ⟨inner, h⟩
    exact ⟨found, by rw [find?_cons hnext, hfound]⟩

/-- Where a node is put there it is, if its directory is there. -/
theorem find?_put {way : List String} (h : root.IsDirectoryAt way) (name : String) (new : Node) :
    (root.put (way ++ [name]) new).find? (way ++ [name]) = some new := by
  induction way generalizing root with
  | nil =>
    obtain ⟨entries, h⟩ := h
    obtain rfl : root = .directory entries := by
      rw [find?] at h
      exact Option.some.inj h
    rw [List.nil_append, put, find?, Named.lookup_put, if_pos rfl]
    dsimp only
    rw [find?]
  | cons step way ih =>
    obtain ⟨inner, h⟩ := h
    obtain ⟨entries, next, rfl, hnext, h⟩ := directory_of_find?_cons h
    have hnames : way ++ [name] ≠ [] :=
      List.append_ne_nil_of_right_ne_nil way (List.cons_ne_nil name [])
    rw [List.cons_append, put_cons hnext hnames, find?_cons (by rw [Named.lookup_put, if_pos rfl]),
      ih ⟨inner, h⟩]

/-- Directories stay where they are when a node is put where there is none. -/
theorem IsDirectoryAt.put {names way : List String} (hnames : ¬root.IsDirectoryAt names)
    (h : root.IsDirectoryAt way) (new : Node) : (root.put names new).IsDirectoryAt way := by
  obtain ⟨inner, h⟩ := h
  induction names generalizing root way with
  | nil =>
    match way with
    | [] => exact absurd ⟨inner, h⟩ hnames
    | step :: way =>
      obtain ⟨entries, _, rfl, _⟩ := directory_of_find?_cons h
      exact absurd ⟨entries, by rw [find?]⟩ hnames
  | cons name names ih =>
    match root with
    | .file content => exact ⟨inner, h⟩
    | .directory entries =>
      match way with
      | [] =>
        obtain ⟨changed, hput, _⟩ := put_directory entries name names new
        exact ⟨changed, by rw [hput, find?]⟩
      | step :: way =>
        obtain ⟨_, next, heq, hnext, h⟩ := directory_of_find?_cons h
        obtain rfl := Node.directory.inj heq
        by_cases hstep : step = name
        · subst hstep
          match names with
          | [] =>
            -- the new node would take the place of a directory on the way
            have hbelow : (directory entries).IsDirectoryAt ([step] ++ way) :=
              ⟨inner, (find?_cons hnext way).trans h⟩
            exact absurd hbelow.of_append hnames
          | name :: names =>
            have hnot : ¬next.IsDirectoryAt (name :: names) := by
              rintro ⟨found, hfound⟩
              exact hnames ⟨found, (find?_cons hnext _).trans hfound⟩
            obtain ⟨found, hfound⟩ := ih hnot h
            rw [put_cons hnext (List.cons_ne_nil name names)]
            refine ⟨found, ?_⟩
            rw [find?_cons (by rw [Named.lookup_put, if_pos rfl]), hfound]
        · obtain ⟨changed, hput, hothers⟩ := put_directory entries name names new
          refine ⟨inner, ?_⟩
          rw [hput, find?_cons ((hothers step hstep).trans hnext), h]

/-- Files stay where they are when a node is put where nothing stands. -/
theorem find?_put_of_file {names way : List String} {content : ByteArray}
    (hnames : root.find? names = none) (h : root.find? way = some (.file content)) (new : Node) :
    (root.put names new).find? way = some (.file content) := by
  induction names generalizing root way with
  | nil => cases hnames
  | cons name names ih =>
    match root with
    | .file _ => exact h
    | .directory entries =>
      match way with
      | [] => cases h
      | step :: way =>
        obtain ⟨_, next, heq, hnext, h⟩ := directory_of_find?_cons h
        obtain rfl := Node.directory.inj heq
        by_cases hstep : step = name
        · subst hstep
          rw [find?_cons hnext] at hnames
          match names with
          | [] => cases hnames
          | name :: names =>
            rw [put_cons hnext (List.cons_ne_nil name names),
              find?_cons (by rw [Named.lookup_put, if_pos rfl]), ih hnames h]
        · obtain ⟨changed, hput, hothers⟩ := put_directory entries name names new
          rw [hput, find?_cons ((hothers step hstep).trans hnext), h]

/-! ## New directories -/

/-- Two files of one content, or two directories. -/
def Alike : Node → Node → Prop
  | .file content, .file content' => content = content'
  | .directory _, .directory _ => True
  | _, _ => False

theorem Alike.refl (node : Node) : Alike node node := by
  cases node
  · exact rfl
  · exact trivial

/-- A new directory is all that is new: anything else was there before. -/
theorem find?_put_directory {names way : List String} {node : Node}
    (h : (root.put names (.directory [])).find? way = some node) :
    (way = names ∧ node = .directory []) ∨ ∃ old, root.find? way = some old ∧ Alike old node := by
  induction names generalizing root way with
  | nil =>
    rw [put] at h
    match way with
    | [] =>
      rw [find?] at h
      exact .inl ⟨rfl, (Option.some.inj h).symm⟩
    | step :: way => cases h
  | cons name names ih =>
    match root with
    | .file content => exact .inr ⟨node, h, .refl node⟩
    | .directory entries =>
      obtain ⟨changed, hput, hothers⟩ := put_directory entries name names (.directory [])
      match way with
      | [] =>
        rw [hput, find?] at h
        obtain rfl := Option.some.inj h
        exact .inr ⟨.directory entries, by rw [find?], trivial⟩
      | step :: way =>
        by_cases hstep : step = name
        · subst hstep
          match names with
          | [] =>
            rw [put, find?_cons (by rw [Named.lookup_put, if_pos rfl])] at h
            -- nothing stands below the new directory
            match way with
            | [] =>
              rw [find?] at h
              exact .inl ⟨rfl, (Option.some.inj h).symm⟩
            | next :: way => cases h
          | next :: names =>
            cases hnext : entries.lookup step with
            | none =>
              simp only [put, hnext] at h
              exact .inr ⟨node, h, .refl node⟩
            | some inner =>
              rw [put_cons hnext (List.cons_ne_nil next names),
                find?_cons (by rw [Named.lookup_put, if_pos rfl])] at h
              obtain ⟨hway, hnode⟩ | ⟨old, hold, halike⟩ := ih h
              · exact .inl ⟨by rw [hway], hnode⟩
              · exact .inr ⟨old, (find?_cons hnext way).trans hold, halike⟩
        · have hentry := hothers step hstep
          rw [hput, find?, hentry] at h
          exact .inr ⟨node, h, .refl node⟩

/-- After a directory is made there are no new files. -/
theorem find?_of_put_directory {names way : List String} {content : ByteArray}
    (h : (root.put names (.directory [])).find? way = some (.file content)) :
    root.find? way = some (.file content) := by
  obtain ⟨_, hnode⟩ | ⟨old, hold, halike⟩ := find?_put_directory h
  · cases hnode
  · cases old with
    | file content' =>
      obtain rfl : content' = content := halike
      exact hold
    | directory entries => cases halike

/-- After a directory is made it is the only new one. -/
theorem IsDirectoryAt.of_put_directory {names way : List String}
    (h : (root.put names (.directory [])).IsDirectoryAt way) :
    way = names ∨ root.IsDirectoryAt way := by
  obtain ⟨entries, hfound⟩ := h
  obtain ⟨hway, _⟩ | ⟨old, hold, halike⟩ := find?_put_directory hfound
  · exact .inl hway
  · cases old with
    | file content => cases halike
    | directory olds => exact .inr ⟨olds, hold⟩

end NeighborSearch.Node
