import HeaderDigest.Catalog
import Mathlib.Data.List.Nodup

/-!
# What becomes of each input

Each input of a catalog becomes one of its headers or is skipped. Only an input that can be read
takes its name, so what becomes of one depends on the readable ones before it. The names that a
catalog has taken are at all times those of its headers, and those of the inputs that it could read.
-/

namespace HeaderDigest.Catalog

/-- A path that a catalog reads, or a header that is added to it from a path. -/
inductive Input
  | file (path : Path)
  | header (added : Header) (path : Path)

def Input.path : Input → Path
  | file path => path
  | header _ path => path

inductive Fate
  | kept (header : Header)
  | skipped (reason : Skipped)

namespace Fate

def header? : Fate → Option Header
  | kept header => some header
  | skipped _ => none

def reason? : Fate → Option Skipped
  | kept _ => none
  | skipped reason => some reason

end Fate

variable {read : Path → Except Fault ByteArray} {includePrivate : Bool}

/-- The header that an input gives: that of a file is read from its text, if there is one. -/
inductive Gives (read : Path → Except Fault ByteArray) (includePrivate : Bool) : Input → Header → Prop
  | file {path : Path} {contents : ByteArray} {text : String} (hRead : read path = .ok contents)
      (hText : String.fromUTF8? contents = some text) :
      Gives read includePrivate (.file path)
        (Header.read text.toList (Path.fileName path) path includePrivate)
  | header (added : Header) (path : Path) : Gives read includePrivate (.header added path) added

/-- A name is taken by the inputs that give a header of this name. -/
def Taken (read : Path → Except Fault ByteArray) (includePrivate : Bool) (inputs : List Input)
    (name : Text) : Prop :=
  ∃ input ∈ inputs, ∃ header, Gives read includePrivate input header ∧ header.filename = name

/-- What becomes of an input behind others. -/
inductive Becomes (read : Path → Except Fault ByteArray) (includePrivate : Bool)
    (earlier : List Input) : Input → Fate → Prop
  | kept {input : Input} {header : Header} (hGives : Gives read includePrivate input header)
      (hFree : ¬Taken read includePrivate earlier header.filename) :
      Becomes read includePrivate earlier input (.kept header)
  | duplicate {input : Input} {header : Header} (hGives : Gives read includePrivate input header)
      (hTaken : Taken read includePrivate earlier header.filename) :
      Becomes read includePrivate earlier input (.skipped (.duplicate input.path header.filename))
  | unreadable {path : Path} {fault : Fault} (hRead : read path = .error fault) :
      Becomes read includePrivate earlier (.file path)
        (.skipped (.unreadable path (.unreadable path fault)))
  | undecodable {path : Path} {contents : ByteArray} (hRead : read path = .ok contents)
      (hText : String.fromUTF8? contents = none) :
      Becomes read includePrivate earlier (.file path)
        (.skipped (.unreadable path (.undecodable path)))

/-- What becomes of each of the inputs, in their order. -/
inductive History (read : Path → Except Fault ByteArray) (includePrivate : Bool) :
    List Input → List Fate → Prop
  | nil : History read includePrivate [] []
  | snoc {earlier : List Input} {fates : List Fate} {input : Input} {fate : Fate}
      (h : History read includePrivate earlier fates)
      (hFate : Becomes read includePrivate earlier input fate) :
      History read includePrivate (earlier ++ [input]) (fates ++ [fate])

section Inputs

variable {inputs : List Input} {input : Input} {fates : List Fate} {header other : Header}

theorem Gives.unique (h : Gives read includePrivate input header)
    (hOther : Gives read includePrivate input other) : other = header := by
  cases h with
  | header => cases hOther; rfl
  | file hRead hText =>
    cases hOther with
    | file hReadOther hTextOther =>
      cases Except.ok.inj (hRead.symm.trans hReadOther)
      cases Option.some.inj (hText.symm.trans hTextOther)
      rfl

theorem taken_concat (name : Text) :
    Taken read includePrivate (inputs ++ [input]) name ↔
      Taken read includePrivate inputs name ∨
        ∃ header, Gives read includePrivate input header ∧ header.filename = name := by
  simp only [Taken, List.mem_append, List.mem_singleton, or_and_right, exists_or, exists_eq_left]

theorem History.length_eq (h : History read includePrivate inputs fates) :
    fates.length = inputs.length := by
  induction h with
  | nil => rfl
  | snoc _ _ ih => rw [List.length_append, List.length_append, ih]; rfl

/-- An input that is kept is kept as the header that it gives. -/
theorem History.exists_gives (h : History read includePrivate inputs fates)
    (hKept : .kept header ∈ fates) : ∃ input ∈ inputs, Gives read includePrivate input header := by
  induction h with
  | nil => cases hKept
  | snoc _ hFate ih =>
    obtain hKept | hKept := List.mem_append.mp hKept
    · obtain ⟨input, hInput, hGives⟩ := ih hKept
      exact ⟨input, List.mem_append_left _ hInput, hGives⟩
    · cases List.mem_singleton.mp hKept
      cases hFate with
      | kept hGives => exact ⟨_, List.mem_append_right _ (List.mem_singleton_self _), hGives⟩

end Inputs

variable {catalog : Catalog} {inputs : List Input} {input : Input} {fates : List Fate}
  {header : Header} {reason : Skipped}

theorem add_of_mem (h : header.filename ∈ catalog.filenames) (path : Path) :
    catalog.add header path =
      (false, { catalog with skipped := catalog.skipped ++ [.duplicate path header.filename] }) := by
  simp [add, takeName, h]

theorem add_of_notMem (h : header.filename ∉ catalog.filenames) (path : Path) :
    catalog.add header path =
      (true, { catalog with
        headers := catalog.headers ++ [header]
        filenames := header.filename :: catalog.filenames }) := by
  simp [add, takeName, h]

/-- The catalog holds what became of the inputs, and the names that these have taken. -/
structure Accounts (read : Path → Except Fault ByteArray) (includePrivate : Bool) (catalog : Catalog)
    (inputs : List Input) (fates : List Fate) : Prop where
  history : History read includePrivate inputs fates
  headers : catalog.headers = fates.filterMap Fate.header?
  skipped : catalog.skipped = fates.filterMap Fate.reason?
  nodup : (catalog.headers.map Header.filename).Nodup
  mem_filenames : ∀ name, name ∈ catalog.filenames ↔ name ∈ catalog.headers.map Header.filename
  taken : ∀ name, name ∈ catalog.filenames ↔ Taken read includePrivate inputs name

namespace Accounts

theorem empty : Accounts read includePrivate {} [] [] where
  history := .nil
  headers := rfl
  skipped := rfl
  nodup := List.nodup_nil
  mem_filenames _ := Iff.rfl
  taken name := by simp [Taken]

/-- An input is kept whose name is free. -/
theorem keep (h : Accounts read includePrivate catalog inputs fates)
    (hGives : Gives read includePrivate input header) (hFree : header.filename ∉ catalog.filenames) :
    Accounts read includePrivate
      { catalog with
        headers := catalog.headers ++ [header]
        filenames := header.filename :: catalog.filenames }
      (inputs ++ [input]) (fates ++ [.kept header]) where
  history := h.history.snoc (.kept hGives fun hTaken => hFree ((h.taken _).mpr hTaken))
  headers := by rw [List.filterMap_append, h.headers]; rfl
  skipped := by rw [List.filterMap_append, h.skipped]; exact (List.append_nil _).symm
  nodup := by
    rw [List.map_append, List.map_singleton, ← List.concat_eq_append]
    exact h.nodup.concat fun hMem => hFree ((h.mem_filenames _).mpr hMem)
  mem_filenames name := by
    rw [List.map_append, List.mem_append, List.mem_cons, h.mem_filenames, List.map_singleton,
      List.mem_singleton, or_comm]
  taken name := by
    rw [taken_concat, List.mem_cons, h.taken, or_comm]
    refine or_congr_right ⟨fun hName => ⟨header, hGives, hName.symm⟩, ?_⟩
    rintro ⟨other, hOther, rfl⟩
    exact congrArg Header.filename (hGives.unique hOther)

/-- An input that takes no new name is skipped. -/
theorem skip (h : Accounts read includePrivate catalog inputs fates)
    (hFate : Becomes read includePrivate inputs input (.skipped reason))
    (hNames : ∀ header, Gives read includePrivate input header → header.filename ∈ catalog.filenames) :
    Accounts read includePrivate { catalog with skipped := catalog.skipped ++ [reason] }
      (inputs ++ [input]) (fates ++ [.skipped reason]) where
  history := h.history.snoc hFate
  headers := by rw [List.filterMap_append, h.headers]; exact (List.append_nil _).symm
  skipped := by rw [List.filterMap_append, h.skipped]; rfl
  nodup := h.nodup
  mem_filenames := h.mem_filenames
  taken name := by
    rw [taken_concat, ← h.taken]
    refine ⟨Or.inl, ?_⟩
    rintro (hMem | ⟨header, hGives, rfl⟩)
    · exact hMem
    · exact hNames header hGives

theorem add (h : Accounts read includePrivate catalog inputs fates)
    (hGives : Gives read includePrivate input header) :
    ∃ fate, Accounts read includePrivate (catalog.add header input.path).2 (inputs ++ [input])
      (fates ++ [fate]) := by
  by_cases hMem : header.filename ∈ catalog.filenames
  · rw [add_of_mem hMem]
    refine ⟨_, h.skip (.duplicate hGives ((h.taken _).mp hMem)) fun other hOther => ?_⟩
    exact hGives.unique hOther ▸ hMem
  · rw [add_of_notMem hMem]
    exact ⟨_, h.keep hGives hMem⟩

end Accounts

/-- One input of a run. -/
def take (read : Path → Except Fault ByteArray) (includePrivate : Bool) (catalog : Catalog) :
    Input → Catalog
  | .file path => catalog.addFile ⟨path, read path⟩ includePrivate
  | .header added path => (catalog.add added path).2

theorem addFile_of_error {path : Path} {fault : Fault} (h : read path = .error fault) :
    catalog.addFile ⟨path, read path⟩ includePrivate =
      { catalog with skipped := catalog.skipped ++ [.unreadable path (.unreadable path fault)] } := by
  rw [h]
  rfl

theorem addFile_of_fromUTF8?_eq_none {path : Path} {contents : ByteArray}
    (h : read path = .ok contents) (hText : String.fromUTF8? contents = none) :
    catalog.addFile ⟨path, read path⟩ includePrivate =
      { catalog with skipped := catalog.skipped ++ [.unreadable path (.undecodable path)] } := by
  simp only [addFile, SourceFile.header, h, decode, hText]
  rfl

theorem addFile_of_fromUTF8?_eq_some {path : Path} {contents : ByteArray} {text : String}
    (h : read path = .ok contents) (hText : String.fromUTF8? contents = some text) :
    catalog.addFile ⟨path, read path⟩ includePrivate =
      (catalog.add (Header.read text.toList (Path.fileName path) path includePrivate) path).2 := by
  simp only [addFile, SourceFile.header, h, decode, hText]
  rfl

namespace Accounts

/-- The step: whatever the next input is, the catalog accounts for it as well. -/
theorem take (h : Accounts read includePrivate catalog inputs fates) (input : Input) :
    ∃ fate, Accounts read includePrivate (catalog.take read includePrivate input) (inputs ++ [input])
      (fates ++ [fate]) := by
  cases input with
  | header added path => exact h.add (.header added path)
  | file path =>
    rw [Catalog.take]
    cases hRead : read path with
    | error fault =>
      rw [← hRead, addFile_of_error hRead]
      refine ⟨_, h.skip (.unreadable hRead) fun header hGives => ?_⟩
      cases hGives with
      | file hOk => cases hRead.symm.trans hOk
    | ok contents =>
      rw [← hRead]
      cases hText : String.fromUTF8? contents with
      | none =>
        rw [addFile_of_fromUTF8?_eq_none hRead hText]
        refine ⟨_, h.skip (.undecodable hRead hText) fun header hGives => ?_⟩
        cases hGives with
        | file hOk hSome =>
          cases Except.ok.inj (hRead.symm.trans hOk)
          cases hText.symm.trans hSome
      | some text =>
        rw [addFile_of_fromUTF8?_eq_some hRead hText]
        exact h.add (.file hRead hText)

/-- The run: what holds of the inputs so far goes on to hold. -/
theorem foldl (h : Accounts read includePrivate catalog inputs fates) (next : List Input) :
    ∃ later, Accounts read includePrivate (next.foldl (Catalog.take read includePrivate) catalog)
      (inputs ++ next) (fates ++ later) := by
  induction next generalizing catalog inputs fates with
  | nil => exact ⟨[], by simpa using h⟩
  | cons input next ih =>
    obtain ⟨fate, hTake⟩ := h.take input
    obtain ⟨later, hLater⟩ := ih hTake
    rw [List.append_assoc, List.append_assoc] at hLater
    exact ⟨fate :: later, hLater⟩

theorem build (read : Path → Except Fault ByteArray) (includePrivate : Bool) (paths : List Path) :
    ∃ fates, Accounts read includePrivate
      (Catalog.build (paths.map fun path => ⟨path, read path⟩) includePrivate)
      (paths.map Input.file) fates := by
  have hEmpty : Accounts read includePrivate {} [] [] := empty
  obtain ⟨fates, h⟩ := hEmpty.foldl (paths.map Input.file)
  rw [List.foldl_map] at h
  rw [Catalog.build, List.foldl_map]
  exact ⟨fates, h⟩

end Accounts

theorem nodup_filenames_build (includePrivate : Bool) (paths : List Path) :
    ((Catalog.build (paths.map fun path => ⟨path, read path⟩) includePrivate).headers.map
      Header.filename).Nodup := by
  obtain ⟨_, h⟩ := Accounts.build read includePrivate paths
  exact h.nodup

/-- A header is read from the text of a file that can be read. -/
theorem exists_gives_of_mem_build {paths : List Path}
    (h : header ∈ (Catalog.build (paths.map fun path => ⟨path, read path⟩) includePrivate).headers) :
    ∃ path ∈ paths, Gives read includePrivate (.file path) header := by
  obtain ⟨fates, hBuild⟩ := Accounts.build read includePrivate paths
  rw [hBuild.headers] at h
  obtain ⟨fate, hFate, hHeader⟩ := List.mem_filterMap.mp h
  cases fate with
  | skipped => cases hHeader
  | kept kept =>
    cases hHeader
    obtain ⟨input, hInput, hGives⟩ := hBuild.history.exists_gives hFate
    obtain ⟨path, hPath, rfl⟩ := List.mem_map.mp hInput
    exact ⟨path, hPath, hGives⟩

end HeaderDigest.Catalog
