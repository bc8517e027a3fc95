import NeighborSearch.Host.Machine
import NeighborSearch.Proofs.Searcher.Stages

/-!
# Where an index is loaded from

An external file may hold content, name a file, or do both, and three functions look at it: one
tells whether it is empty, one describes it, one opens it. `ExternalFile.source?` says once which
of the two counts, and each of the three functions is compared with it. Whatever the source, what
is loaded depends on nothing but its bytes.
-/

namespace NeighborSearch

/-! ## The source of an external file -/

namespace ExternalFile

variable {file : ExternalFile}

/-- What an external file stands for: its content, if there is any byte of it, and otherwise the
file that it names. -/
def source? (file : ExternalFile) : Option IndexSource :=
  match file.content with
  | some content => if content.size ≠ 0 then some (.buffer content) else file.name.map .file
  | none => file.name.map .file

theorem source?_of_content {content : ByteArray} (h : file.content = some content)
    (hsize : content.size ≠ 0) : file.source? = some (.buffer content) := by
  rw [source?, h]
  exact if_pos hsize

theorem source?_of_no_content (h : ∀ content ∈ file.content, content.size = 0) :
    file.source? = file.name.map .file := by
  unfold source?
  cases hcontent : file.content with
  | none => rfl
  | some content => exact if_neg (not_not_intro (h content hcontent))

theorem usableContent?_of_content {content : ByteArray} (h : file.content = some content)
    (hsize : content.size ≠ 0) : file.usableContent? = some content := by
  rw [usableContent?, h]
  exact Option.filter_some_pos (decide_eq_true hsize)

theorem usableContent?_of_no_content (h : ∀ content ∈ file.content, content.size = 0) :
    file.usableContent? = none := by
  rw [usableContent?, Option.filter_eq_none_iff]
  intro content hcontent
  rw [h content hcontent]
  decide

/-- Either there is a byte of content, or there is none. -/
theorem content_cases (file : ExternalFile) :
    (∃ content, file.content = some content ∧ content.size ≠ 0)
      ∨ ∀ content ∈ file.content, content.size = 0 := by
  cases h : file.content with
  | none => exact .inr nofun
  | some content =>
    by_cases hsize : content.size = 0
    · right
      rintro _ ⟨⟩
      exact hsize
    · exact .inl ⟨content, rfl, hsize⟩

/-- A file is empty if it stands for nothing, or for a file without a name. -/
theorem isEmpty_iff :
    file.isEmpty = true ↔ file.source? = none ∨ file.source? = some (.file "") := by
  rcases file.content_cases with ⟨content, hcontent, hsize⟩ | hnone
  · have hfilled : (file.content.any fun content => content.size ≠ 0) = true := by
      rw [hcontent]
      exact decide_eq_true hsize
    rw [source?_of_content hcontent hsize]
    unfold isEmpty
    rw [hfilled]
    simp
  · have hempty : (file.content.any fun content => content.size ≠ 0) = false := by
      rw [Option.any_eq_false]
      intro content hcontent
      rw [hnone content hcontent]
      decide
    rw [source?_of_no_content hnone]
    unfold isEmpty
    rw [hempty]
    cases file.name with
    | none => simp
    | some path => simp

end ExternalFile

namespace IndexSource

variable {file : ExternalFile}

/-- A file is described by its name. -/
theorem describe_file (path : String) : describe (.file path) = path := rfl

/-- A buffer has no name, and is described by the number of its bytes. -/
theorem describe_buffer (bytes : ByteArray) :
    describe (.buffer bytes) = "<in-memory buffer, " ++ toString bytes.size ++ " bytes>" := rfl

/-- An external file is described as what it stands for. -/
theorem describe_external (file : ExternalFile) :
    describe (.external file)
      = match file.source? with
        | some source => describe source
        | none => "<unset>" := by
  rcases file.content_cases with ⟨content, hcontent, hsize⟩ | hnone
  · rw [ExternalFile.source?_of_content hcontent hsize, describe,
      ExternalFile.usableContent?_of_content hcontent hsize]
    rfl
  · rw [ExternalFile.source?_of_no_content hnone, describe,
      ExternalFile.usableContent?_of_no_content hnone]
    cases file.name <;> rfl

/-- Opening an external file is opening what it stands for, and nothing else is opened. -/
theorem openBytes_external {m : Type → Type} [Monad m] [Host m] (file : ExternalFile) :
    (openBytes (.external file) : ExceptT SearchError m IndexBytes)
      = match file.source? with
        | some source => source.openBytes
        | none => throw Index.Fault.noSource.toError := by
  rcases file.content_cases with ⟨content, hcontent, hsize⟩ | hnone
  · rw [ExternalFile.source?_of_content hcontent hsize, openBytes,
      ExternalFile.usableContent?_of_content hcontent hsize]
    rfl
  · rw [ExternalFile.source?_of_no_content hnone, openBytes,
      ExternalFile.usableContent?_of_no_content hnone]
    cases file.name <;> rfl

/-! ## Loading -/

section Load

variable {σ : Type} [Host (StateM σ)] {world after : σ} {bytes : ByteArray} {path : String}

/-- The index of opened bytes. -/
theorem outcome_load_of_openBytes {source : IndexSource} {opened : IndexBytes}
    (h : outcome source.openBytes world = (.ok opened, after)) :
    outcome source.load world = (Index.Store.ofBytes opened.bytes, after) := by
  rw [load, outcome_bind_of_ok h, outcome_ofExcept]

/-- No byte is lost when an empty file is not mapped. -/
theorem bytes_of_opened (bytes : ByteArray) :
    (if bytes.size = 0 then IndexBytes.held .empty else .mapped bytes).bytes = bytes := by
  by_cases hsize : bytes.size = 0
  · rw [if_pos hsize]
    exact (ByteArray.size_eq_zero_iff.1 hsize).symm
  · rw [if_neg hsize]
    rfl

theorem outcome_load_file (h : (Host.mapFile path : StateM σ _).run world = (.ok bytes, after)) :
    outcome (load (.file path)) world = (Index.Store.ofBytes bytes, after) := by
  have hopen : outcome (openBytes (.file path)) world
      = (.ok (if bytes.size = 0 then .held .empty else .mapped bytes), after) := by
    rw [openBytes, Searcher.outcome_openPath, h]
  rw [outcome_load_of_openBytes hopen, bytes_of_opened]

theorem outcome_load_buffer (bytes : ByteArray) (world : σ) :
    outcome (load (.buffer bytes)) world = (Index.Store.ofBytes bytes, world) := by
  have hopen : outcome (openBytes (.buffer bytes)) world = (.ok (.held bytes), world) := rfl
  exact outcome_load_of_openBytes hopen

theorem outcome_load_content (name : Option String) (hsize : bytes.size ≠ 0) (world : σ) :
    outcome (load (.external ⟨name, some bytes⟩)) world = (Index.Store.ofBytes bytes, world) := by
  have hopen : outcome (openBytes (.external ⟨name, some bytes⟩)) world
      = (.ok (.held bytes), world) := by
    rw [openBytes_external, ExternalFile.source?_of_content rfl hsize]
    rfl
  exact outcome_load_of_openBytes hopen

/-- An external file that is empty cannot be opened, as long as no file can be opened without a
name. -/
theorem openBytes_of_isEmpty
    (hnameless : ∀ world : σ, ∃ failure,
      ((Host.mapFile "" : StateM σ _).run world).1 = .error failure)
    (h : file.isEmpty = true) (world : σ) :
    ∃ error, (outcome (openBytes (.external file)) world).1 = .error error := by
  rw [openBytes_external]
  rcases ExternalFile.isEmpty_iff.1 h with hsource | hsource
  · rw [hsource]
    exact ⟨_, rfl⟩
  · obtain ⟨failure, hfailure⟩ := hnameless world
    rw [hsource]
    dsimp only
    rw [openBytes, Searcher.outcome_openPath, hfailure]
    exact ⟨_, rfl⟩

end Load

/-- An external file that is not empty gives its content, or the file of its name is opened. -/
theorem openBytes_of_not_isEmpty {m : Type → Type} [Monad m] [Host m]
    (h : file.isEmpty = false) :
    (∃ content, file.content = some content
      ∧ (openBytes (.external file) : ExceptT SearchError m IndexBytes) = pure (.held content))
    ∨ ∃ path, path ≠ "" ∧ file.name = some path
      ∧ (openBytes (.external file) : ExceptT SearchError m IndexBytes)
        = openBytes (.file path) := by
  rw [openBytes_external]
  rcases file.content_cases with ⟨content, hcontent, hsize⟩ | hnone
  · left
    rw [ExternalFile.source?_of_content hcontent hsize]
    exact ⟨content, hcontent, rfl⟩
  · right
    have hsource := ExternalFile.source?_of_no_content hnone
    have hused : ¬(file.source? = none ∨ file.source? = some (.file "")) := by
      rw [← ExternalFile.isEmpty_iff, h]
      exact Bool.false_ne_true
    rw [hsource] at hused ⊢
    cases hname : file.name with
    | none =>
      rw [hname] at hused
      exact absurd (.inl rfl) hused
    | some path =>
      refine ⟨path, ?_, rfl, rfl⟩
      rintro rfl
      rw [hname] at hused
      exact hused (.inr rfl)

/-- What is loaded depends on the bytes alone: a file, a buffer and an external file with the same
bytes come to the same store or the same error. An external file has one source. Content wins if
there is any byte of it, and then no file is looked at; otherwise the name counts, if there is one.
The source is the one that is described and the one that is opened: a file is described by its name,
and content, as every buffer, by the number of its bytes. A file that is empty cannot be opened, and
opening any other one gives its content or opens the file that it names. -/
theorem load_eq_ofBytes {σ : Type} [Host (StateM σ)]
    (hnameless : ∀ world : σ, ∃ failure,
      ((Host.mapFile "" : StateM σ _).run world).1 = .error failure) :
    (∀ (bytes : ByteArray) (path : String) (world after : σ),
      (Host.mapFile path : StateM σ _).run world = (.ok bytes, after) →
        outcome (load (.file path)) world = (Index.Store.ofBytes bytes, after)
        ∧ outcome (load (.buffer bytes)) world = (Index.Store.ofBytes bytes, world)
        ∧ ∀ name, bytes.size ≠ 0 →
            outcome (load (.external ⟨name, some bytes⟩)) world
              = (Index.Store.ofBytes bytes, world))
    ∧ (∀ path, describe (.file path) = path)
    ∧ (∀ bytes, describe (.buffer bytes)
        = "<in-memory buffer, " ++ toString bytes.size ++ " bytes>")
    ∧ ∀ file : ExternalFile,
      (∀ content, file.content = some content → content.size ≠ 0 →
        describe (.external file)
          = "<in-memory buffer, " ++ toString content.size ++ " bytes>"
        ∧ (openBytes (.external file) : ExceptT SearchError (StateM σ) IndexBytes)
          = pure (.held content))
      ∧ ((∀ content ∈ file.content, content.size = 0) → ∀ path, file.name = some path →
        describe (.external file) = path
        ∧ (openBytes (.external file) : ExceptT SearchError (StateM σ) IndexBytes)
          = openBytes (.file path))
      ∧ ((∀ content ∈ file.content, content.size = 0) → file.name = none →
        describe (.external file) = "<unset>"
        ∧ (openBytes (.external file) : ExceptT SearchError (StateM σ) IndexBytes)
          = throw Index.Fault.noSource.toError)
      ∧ (file.isEmpty = true →
        ∀ world : σ, ∃ error, (outcome (openBytes (.external file)) world).1 = .error error)
      ∧ (file.isEmpty = false →
        (∃ content, file.content = some content
          ∧ (openBytes (.external file) : ExceptT SearchError (StateM σ) IndexBytes)
            = pure (.held content))
        ∨ ∃ path, path ≠ "" ∧ file.name = some path
          ∧ (openBytes (.external file) : ExceptT SearchError (StateM σ) IndexBytes)
            = openBytes (.file path)) := by
  refine ⟨?_, describe_file, describe_buffer, fun file =>
    ⟨?_, ?_, ?_, openBytes_of_isEmpty hnameless, openBytes_of_not_isEmpty⟩⟩
  · intro bytes path world after hfile
    exact ⟨outcome_load_file hfile, outcome_load_buffer bytes world,
      fun name hsize => outcome_load_content name hsize world⟩
  · intro content hcontent hsize
    rw [describe_external, openBytes_external, ExternalFile.source?_of_content hcontent hsize]
    exact ⟨describe_buffer content, rfl⟩
  · intro hnone path hname
    rw [describe_external, openBytes_external, ExternalFile.source?_of_no_content hnone, hname]
    exact ⟨describe_file path, rfl⟩
  · intro hnone hname
    rw [describe_external, openBytes_external, ExternalFile.source?_of_no_content hnone, hname]
    exact ⟨rfl, rfl⟩

/-- A machine with one file, in which there is no byte. -/
def machineWithEmptyFile : Machine where
  root := .directory [("empty", .file .empty)]
  workingDirectory := []

/-- No machine has a file without a name. The empty file is refused as the empty buffer is, and an
external file with an empty name and empty content cannot be opened. One with a name and empty
content is described by its name. -/
theorem load_machineWithEmptyFile :
    (∀ machine : Machine, ∃ failure,
      ((Host.mapFile "" : StateM Machine _).run machine).1 = .error failure)
    ∧ (Host.mapFile "empty" : StateM Machine _).run machineWithEmptyFile
      = (.ok .empty, machineWithEmptyFile)
    ∧ outcome (load (.file "empty")) machineWithEmptyFile
      = (.error Index.Fault.headerMissing.toError, machineWithEmptyFile)
    ∧ outcome (load (.buffer .empty)) machineWithEmptyFile
      = (.error Index.Fault.headerMissing.toError, machineWithEmptyFile)
    ∧ (∃ error, (outcome (openBytes (.external ⟨some "", some .empty⟩))
        machineWithEmptyFile).1 = .error error)
    ∧ describe (.external ⟨some "empty", some .empty⟩) = "empty" := by
  have hnameless : ∀ machine : Machine, ∃ failure,
      ((Host.mapFile "" : StateM Machine _).run machine).1 = .error failure :=
    fun _ => ⟨.missing, rfl⟩
  have hfile : (Host.mapFile "empty" : StateM Machine _).run machineWithEmptyFile
      = (.ok .empty, machineWithEmptyFile) := rfl
  obtain ⟨hload, -, -, hexternal⟩ := load_eq_ofBytes hnameless
  obtain ⟨hloaded, hheld, _⟩ := hload .empty "empty" _ _ hfile
  obtain ⟨_, _, _, hempty, _⟩ := hexternal ⟨some "", some .empty⟩
  obtain ⟨_, hnamed, _⟩ := hexternal ⟨some "empty", some .empty⟩
  have hunused : ∀ content ∈ some ByteArray.empty, content.size = 0 := by
    rintro _ ⟨⟩
    rfl
  exact ⟨hnameless, hfile, hloaded, hheld, hempty rfl machineWithEmptyFile,
    (hnamed hunused "empty" rfl).1⟩

end IndexSource

end NeighborSearch
