import HeaderDigest.Proofs.Catalog
import HeaderDigest.Proofs.CommandLine.Inputs
import HeaderDigest.Proofs.CommandLine.PageName

/-!
# The pages of a run

A run with an output directory leaves there, under each path that it writes to, the last page that
it writes to this path. So a page is lost exactly if a later header has a page of the same name.
-/

namespace HeaderDigest.Run

open Text

variable {tree after : Tree} {origin : List Text} {plan : Plan} {directory : Path}

/-- The files that a run reads. -/
def sources (tree : Tree) (origin : List Text) (plan : Plan) : List SourceFile :=
  (Listing.collect ((Listing.findAll (Tree.files origin) plan.inputs).run tree).1.1).map fun path =>
    ⟨path, tree.read origin path⟩

def catalog (tree : Tree) (origin : List Text) (plan : Plan) : Catalog :=
  Catalog.build (sources tree origin plan) plan.includePrivate

theorem run_mapM_read (tree : Tree) (origin : List Text) (paths : List Path) :
    (paths.mapM fun path => do return SourceFile.mk path (← (Tree.files origin).read path) :
        StateM Tree (List SourceFile)).run tree =
      (paths.map fun path => ⟨path, tree.read origin path⟩, tree) := by
  induction paths with
  | nil => rfl
  | cons path paths ih =>
    rw [List.mapM_cons, run_bind_tree, run_bind_tree]
    exact congrArg (fun later : List SourceFile × Tree =>
      (SourceFile.mk path (tree.read origin path) :: later.1, later.2)) ih

/-- A run that succeeds has written the pages of its catalog. -/
theorem exists_run_writePages (hOutput : plan.output? = some directory)
    (hSuccess : ((onFiles (Tree.files origin) plan).run tree).1.failure? = none) :
    ∃ made events, (writePages (Tree.files origin)
      (pagesIn plan.format directory (catalog tree origin plan).headers)).run made =
        ((events, none), ((onFiles (Tree.files origin) plan).run tree).2) := by
  generalize hRun : (onFiles (Tree.files origin) plan).run tree = ran at hSuccess ⊢
  rw [onFiles, (leavesFiles_findAll origin plan.inputs).run_bind] at hRun
  unfold catalog sources
  generalize ((Listing.findAll (Tree.files origin) plan.inputs).run tree).1 = listed at hRun ⊢
  obtain ⟨listings, failure?⟩ := listed
  cases failure? with
  | some failure =>
    cases hRun
    cases hSuccess
  | none =>
    simp only [hOutput] at hRun ⊢
    rw [run_bind_tree, run_mapM_read, run_bind_tree] at hRun
    simp only at hRun
    generalize ((Tree.files origin).makeDirectories directory).run tree = made at hRun
    obtain ⟨isMade, made⟩ := made
    cases isMade with
    | false =>
      cases hRun
      cases hSuccess
    | true =>
      simp only [if_true] at hRun
      rw [run_bind_tree] at hRun
      subst hRun
      exact ⟨made, _, Prod.ext (Prod.ext rfl hSuccess) rfl⟩

theorem run_write (path : Path) (page : Text) (tree : Tree) :
    ((Tree.files origin).write path page).run tree =
      match tree.write origin path (String.ofList page).toUTF8 with
      | some written => (true, written)
      | none => (false, tree) := by
  change (match tree.write origin path (String.ofList page).toUTF8 with
    | some written => (do set written; return true : StateM Tree Bool)
    | none => return false).run tree = _
  cases tree.write origin path (String.ofList page).toUTF8 <;> rfl

theorem exists_write_of_run_writePages {path : Path} {page : Text} {rest : List (Path × Text)}
    {events : List Event}
    (h : (writePages (Tree.files origin) ((path, page) :: rest)).run tree = ((events, none), after)) :
    ∃ written later, tree.write origin path (String.ofList page).toUTF8 = some written ∧
      (writePages (Tree.files origin) rest).run written = ((later, none), after) := by
  rw [writePages, run_bind_tree, run_write] at h
  cases hWrite : tree.write origin path (String.ofList page).toUTF8 with
  | none =>
    rw [hWrite] at h
    cases h
  | some written =>
    simp only [hWrite, if_true] at h
    rw [run_bind_tree] at h
    obtain ⟨hPair, rfl⟩ := Prod.mk.inj h
    exact ⟨written, _, rfl, Prod.ext (Prod.ext rfl (Prod.mk.inj hPair).2) rfl⟩

variable {headers : List Header} {format : Format}

/-- Writing pages leaves a file alone whose name is that of none of them. -/
theorem read_writePages_of_ne {name : Text} {kept : ByteArray} {events : List Event}
    (hPlain : ∀ header ∈ headers, '/' ∉ header.filename) (hName : Tree.IsPlainName name)
    (hNe : ∀ header ∈ headers, name ≠ pageName format header.filename)
    (h : (writePages (Tree.files origin) (pagesIn format directory headers)).run tree =
      ((events, none), after))
    (hRead : tree.read origin (Path.join directory name) = .ok kept) :
    after.read origin (Path.join directory name) = .ok kept := by
  induction headers generalizing tree events with
  | nil =>
    cases h
    exact hRead
  | cons header headers ih =>
    obtain ⟨written, later, hWrite, hLater⟩ := exists_write_of_run_writePages h
    refine ih (List.forall_mem_of_forall_mem_cons hPlain) (List.forall_mem_of_forall_mem_cons hNe) hLater ?_
    exact Tree.read_write_of_ne (isPlainName_pageName format (hPlain header List.mem_cons_self)) hName
      (hNe header List.mem_cons_self) hWrite hRead

/-- A page is read as it was written if no later page has its name. -/
theorem read_writePages {before behind : List Header} {header : Header} {events : List Event}
    (hPlain : ∀ other ∈ before ++ header :: behind, '/' ∉ other.filename)
    (hLast : ∀ later ∈ behind, pageName format header.filename ≠ pageName format later.filename)
    (h : (writePages (Tree.files origin) (pagesIn format directory (before ++ header :: behind))).run tree =
      ((events, none), after)) :
    after.read origin (Path.join directory (pageName format header.filename)) =
      .ok (String.ofList (format.page header)).toUTF8 := by
  induction before generalizing tree events with
  | nil =>
    obtain ⟨written, later, hWrite, hLater⟩ := exists_write_of_run_writePages h
    obtain ⟨hHeader, hBehind⟩ := List.forall_mem_cons.mp hPlain
    exact read_writePages_of_ne hBehind (isPlainName_pageName format hHeader) hLast hLater
      (Tree.read_write hWrite)
  | cons first before ih =>
    obtain ⟨written, later, -, hLater⟩ := exists_write_of_run_writePages h
    exact ih (List.forall_mem_cons.mp hPlain).2 hLater

theorem noSlash_of_mem_catalog (hClosed : tree.IsClosed) {header : Header}
    (h : header ∈ (catalog tree origin plan).headers) : '/' ∉ header.filename := by
  obtain ⟨path, -, hGives⟩ := Catalog.exists_gives_of_mem_build h
  cases hGives with
  | file hRead =>
    obtain ⟨name, hName⟩ := hClosed.exists_fileName? hRead
    change '/' ∉ Path.fileName path
    rw [Path.fileName, hName, Option.getD_some]
    exact Path.not_mem_of_fileName? hName

/-- Where the page of a header is written. -/
def pagePath (plan : Plan) (directory : Path) (header : Header) : Path :=
  Path.join directory (pageName plan.format header.filename)

theorem pagePath_eq_iff {a b : Header} (ha : '/' ∉ a.filename) (hb : '/' ∉ b.filename) :
    pagePath plan directory a = pagePath plan directory b ↔
      pageName plan.format a.filename = pageName plan.format b.filename :=
  ⟨Path.join_injective directory (isPlainName_pageName plan.format ha).noSlash
    (isPlainName_pageName plan.format hb).noSlash, congrArg (Path.join directory)⟩

theorem nodup_pagePaths_iff (hClosed : tree.IsClosed) (directory : Path) :
    ((catalog tree origin plan).headers.map (pagePath plan directory)).Nodup ↔
      Apart ((catalog tree origin plan).headers.map Header.filename) := by
  have hNames : ((catalog tree origin plan).headers.map Header.filename).Nodup :=
    Catalog.nodup_filenames_build plan.includePrivate _
  refine Iff.trans ?_ (nodup_pageNames_iff plan.format hNames)
  rw [List.map_map]
  have hPlain {header : Header} (h : header ∈ (catalog tree origin plan).headers) : '/' ∉ header.filename :=
    noSlash_of_mem_catalog hClosed h
  constructor
  · intro hNodup
    refine List.Nodup.map_on ?_ hNodup.of_map
    intro a ha b hb hName
    exact List.inj_on_of_nodup_map hNodup ha hb ((pagePath_eq_iff (hPlain ha) (hPlain hb)).mpr hName)
  · intro hNodup
    refine List.Nodup.map_on ?_ hNodup.of_map
    intro a ha b hb hPath
    exact List.inj_on_of_nodup_map hNodup ha hb ((pagePath_eq_iff (hPlain ha) (hPlain hb)).mp hPath)

/-- After a run that succeeds each path that it wrote to holds the last of the pages for it. No two
pages have the same path, so that each of them is kept, exactly if no file without `.h` at its end is
there together with the file of this name with `.h`. -/
theorem onFiles_pages (hClosed : tree.IsClosed) (hOutput : plan.output? = some directory)
    (hSuccess : ((onFiles (Tree.files origin) plan).run tree).1.failure? = none) :
    let after := ((onFiles (Tree.files origin) plan).run tree).2
    let headers := (catalog tree origin plan).headers
    (∀ before header behind, headers = before ++ header :: behind →
      (∀ later ∈ behind, pagePath plan directory header ≠ pagePath plan directory later) →
        after.read origin (pagePath plan directory header) =
          .ok (String.ofList (plan.format.page header)).toUTF8) ∧
      ((headers.map (pagePath plan directory)).Nodup ↔ Apart (headers.map Header.filename)) ∧
      (Apart (headers.map Header.filename) → ∀ header ∈ headers,
        after.read origin (pagePath plan directory header) =
          .ok (String.ofList (plan.format.page header)).toUTF8) := by
  intro after headers
  obtain ⟨made, events, hWritten⟩ := exists_run_writePages hOutput hSuccess
  have hLast (before : List Header) (header : Header) (behind : List Header)
      (hHeaders : headers = before ++ header :: behind)
      (hPaths : ∀ later ∈ behind, pagePath plan directory header ≠ pagePath plan directory later) :
      after.read origin (pagePath plan directory header) =
        .ok (String.ofList (plan.format.page header)).toUTF8 := by
    have hPlain : ∀ other ∈ before ++ header :: behind, '/' ∉ other.filename := by
      rw [← hHeaders]
      exact fun other => noSlash_of_mem_catalog hClosed
    rw [show (catalog tree origin plan).headers = _ from hHeaders] at hWritten
    refine read_writePages hPlain (fun later hLater hName => hPaths later hLater ?_) hWritten
    exact congrArg (Path.join directory) hName
  have hNodup : (headers.map (pagePath plan directory)).Nodup ↔ Apart (headers.map Header.filename) :=
    nodup_pagePaths_iff hClosed directory
  refine ⟨hLast, hNodup, ?_⟩
  intro hApart header hHeader
  obtain ⟨before, behind, hHeaders⟩ := List.append_of_mem hHeader
  refine hLast before header behind hHeaders fun later hLater => ?_
  have hDistinct := hNodup.mpr hApart
  rw [hHeaders, List.map_append, List.map_cons] at hDistinct
  have hBehind := (List.nodup_cons.mp (List.Nodup.of_append_right hDistinct)).1
  exact fun hSame => hBehind (hSame ▸ List.mem_map_of_mem hLater)

/-- Empty files next to each other. -/
def emptyFiles (names : List Text) : Tree := ⟨names.map fun name => ([name], .file ByteArray.empty)⟩

def digestInto (directory : Path) (names : List Text) : Plan where
  includePrivate := false
  format := .json
  output? := some directory
  inputs := names

theorem isClosed_emptyFiles (names : List Text) : (emptyFiles names).IsClosed := by
  apply Tree.isClosed_of_entries
  intro entry hEntry
  obtain ⟨name, -, rfl⟩ := List.mem_map.mp hEntry
  rfl

theorem onFiles_pages_two :
    let names := ["a.h".toList, "b.h".toList]
    let plan := digestInto "out".toList names
    let ran := (onFiles (Tree.files []) plan).run (emptyFiles names)
    let headers := (catalog (emptyFiles names) [] plan).headers
    (emptyFiles names).IsClosed ∧ plan.output? = some "out".toList ∧ ran.1.failure? = none ∧
      Apart (headers.map Header.filename) ∧
      ∀ header ∈ headers, ran.2.read [] (pagePath plan "out".toList header) =
        .ok (String.ofList (plan.format.page header)).toUTF8 := by
  intro names plan ran headers
  have hClosed := isClosed_emptyFiles names
  have hOutput : plan.output? = some "out".toList := rfl
  have hSuccess : ran.1.failure? = none := by decide +kernel
  have hFilenames : headers.map Header.filename = names := by decide +kernel
  have hApart : Apart (headers.map Header.filename) := by
    rw [hFilenames]
    unfold Apart
    decide
  obtain ⟨-, -, hPages⟩ := onFiles_pages hClosed hOutput hSuccess
  exact ⟨hClosed, hOutput, hSuccess, hApart, hPages hApart⟩

/-- The page of `a.h` is lost where that of `a` is written. -/
theorem not_forall_pages :
    ¬∀ (tree : Tree) (origin : List Text) (plan : Plan) (directory : Path),
      tree.IsClosed → plan.output? = some directory →
        ((onFiles (Tree.files origin) plan).run tree).1.failure? = none →
          ∀ header ∈ (catalog tree origin plan).headers,
            ((onFiles (Tree.files origin) plan).run tree).2.read origin (pagePath plan directory header) =
              .ok (String.ofList (plan.format.page header)).toUTF8 := by
  intro h
  let names := ["a.h".toList, "a".toList]
  let plan := digestInto "out".toList names
  have hSuccess : ((onFiles (Tree.files []) plan).run (emptyFiles names)).1.failure? = none := by
    decide +kernel
  have hHeaders : (catalog (emptyFiles names) [] plan).headers =
      [⟨"a.h".toList, "a.h".toList, [], [], [], []⟩, ⟨"a".toList, "a".toList, [], [], [], []⟩] := by
    decide +kernel
  have hPages := h (emptyFiles names) [] plan "out".toList (isClosed_emptyFiles names) rfl hSuccess
  rw [hHeaders] at hPages
  have hFirst := hPages _ List.mem_cons_self
  have hSecond := hPages _ (List.mem_cons_of_mem _ List.mem_cons_self)
  -- both are read from the same path
  have hSame := Except.ok.inj (hFirst.symm.trans hSecond)
  have hPage := String.ofList_injective (String.toByteArray_inj.mp hSame)
  exact absurd hPage (by decide +kernel)

end HeaderDigest.Run
