import HeaderDigest.CommandLine.Inputs
import HeaderDigest.Proofs.Distinct
import HeaderDigest.Proofs.Files.Path
import HeaderDigest.Proofs.Files.Pattern
import Mathlib.Data.List.Forall2

/-!
# The files of a run

The arguments of a run stand for files in a fixed order: that of the arguments, and that of the paths within
one argument. No file comes twice, more arguments only add files behind those of the first, and the order in which
the system lists directories and matches does not matter.
-/

namespace HeaderDigest

variable {files other : Files Id}

namespace Listing

/-- What was found, in whatever order. -/
inductive Reordered : Listing → Listing → Prop
  | file : Reordered .file .file
  | directory {headers others : List Path} : headers.Perm others → Reordered (.directory headers) (.directory others)
  | pattern {files others : List Path} : files.Perm others → Reordered (.pattern files) (.pattern others)

def unsorted : Listing → List Path
  | file => []
  | directory headers => headers
  | pattern files => files

/-- Whether no path was found twice. -/
def Apart (listing : Listing) : Prop := (listing.unsorted.map Path.components).Nodup

instance (listing : Listing) : Decidable listing.Apart :=
  inferInstanceAs (Decidable (listing.unsorted.map Path.components).Nodup)

variable {listing again : Listing}

theorem Reordered.perm (h : listing.Reordered again) : listing.unsorted.Perm again.unsorted := by
  cases h with
  | file => exact .refl _
  | directory hPerm => exact hPerm
  | pattern hPerm => exact hPerm

/-- A pattern that matches nothing is a path itself, like a file; what else was found is sorted. -/
theorem Reordered.paths_cases (h : listing.Reordered again) (argument : Path) :
    listing.paths argument = again.paths argument ∨
      listing.paths argument = Path.sort listing.unsorted ∧ again.paths argument = Path.sort again.unsorted := by
  cases h with
  | file => exact Or.inl rfl
  | directory hPerm => exact Or.inr ⟨rfl, rfl⟩
  | @pattern files others hPerm =>
    cases files with
    | nil =>
      rw [hPerm.nil_eq]
      exact Or.inl rfl
    | cons file files =>
      cases others with
      | nil => exact absurd hPerm.eq_nil (List.cons_ne_nil file files)
      | cons other others => exact Or.inr ⟨rfl, rfl⟩

theorem Reordered.map_components_paths (h : listing.Reordered again) (argument : Path) :
    (listing.paths argument).map Path.components = (again.paths argument).map Path.components := by
  obtain hSame | ⟨hPaths, hAgain⟩ := h.paths_cases argument
  · rw [hSame]
  · rw [hPaths, hAgain, Path.map_components_sort h.perm]

theorem Reordered.paths_eq (h : listing.Reordered again) (hApart : listing.Apart) (argument : Path) :
    listing.paths argument = again.paths argument := by
  obtain hSame | ⟨hPaths, hAgain⟩ := h.paths_cases argument
  · exact hSame
  · rw [hPaths, hAgain, Path.sort_eq_of_perm h.perm hApart]

theorem run_find (files : Files Id) (argument : Path) :
    (find files argument).run =
      if (files.isFile argument).run then .ok .file
      else if (files.isDirectory argument).run then
        (files.entries? argument).run.elim (.error (.unlistable argument)) fun names =>
          .ok (.directory (((names.filter Path.isHeaderName).map (Path.join argument)).filter fun path =>
            (files.isFile path).run))
      else (Pattern.files? files argument).run.elim (.error (.badPattern argument)) fun matched =>
        .ok (.pattern matched) := by
  rw [find, Id.run_bind]
  cases (files.isFile argument).run with
  | true => rfl
  | false =>
    simp only [Bool.false_eq_true, if_false, Id.run_bind]
    cases (files.isDirectory argument).run with
    | true =>
      simp only [if_true, Id.run_bind]
      cases (files.entries? argument).run with
      | none => rfl
      | some names => simp only [Id.run_bind, run_filterM, Id.run_pure, Option.elim_some]
    | false =>
      simp only [Bool.false_eq_true, if_false, Id.run_bind]
      cases (Pattern.files? files argument).run <;> rfl

theorem exists_run_find (h : SameFiles files other) {argument : Path}
    (hFind : (find files argument).run = .ok listing) :
    ∃ again, (find other argument).run = .ok again ∧ listing.Reordered again := by
  rw [run_find] at hFind ⊢
  simp only [h.isFile, h.isDirectory] at hFind
  split
  · rename_i hFile
    rw [if_pos hFile] at hFind
    exact ⟨.file, rfl, Except.ok.inj hFind ▸ .file⟩
  rename_i hFile
  rw [if_neg hFile] at hFind
  split
  · rename_i hDirectory
    rw [if_pos hDirectory] at hFind
    cases hNames : (files.entries? argument).run with
    | none =>
      rw [hNames] at hFind
      cases hFind
    | some names =>
      obtain ⟨others, hOthers, hPerm⟩ := exists_perm_of_rel (h.entries? argument) hNames
      rw [hNames] at hFind
      rw [hOthers]
      exact ⟨_, rfl, Except.ok.inj hFind ▸ .directory (((hPerm.filter _).map _).filter _)⟩
  · rename_i hDirectory
    rw [if_neg hDirectory] at hFind
    cases hMatched : (Pattern.files? files argument).run with
    | none =>
      rw [hMatched] at hFind
      cases hFind
    | some matched =>
      obtain ⟨others, hOthers, hPerm⟩ := exists_perm_of_rel (Pattern.perm_files? h argument) hMatched
      rw [hMatched] at hFind
      rw [hOthers]
      exact ⟨_, rfl, Except.ok.inj hFind ▸ .pattern hPerm⟩

/-- What was found for each argument, in whatever order. -/
def AllReordered (found again : List (Path × Listing)) : Prop :=
  List.Forall₂ (fun entry other => entry.1 = other.1 ∧ entry.2.Reordered other.2) found again

theorem run_findAll_cons (files : Files Id) (argument : Path) (rest : List Path) :
    (findAll files (argument :: rest)).run =
      match (find files argument).run with
      | .error failure => ([], some failure)
      | .ok listing => ((argument, listing) :: (findAll files rest).run.1, (findAll files rest).run.2) := by
  rw [findAll, Id.run_bind]
  cases (find files argument).run <;> rfl

variable {ps qs : List Path} {found found' again : List (Path × Listing)}

theorem exists_of_run_findAll_cons {argument : Path}
    (h : (findAll files (argument :: ps)).run = (found, none)) :
    ∃ listing rest, found = (argument, listing) :: rest ∧ (find files argument).run = .ok listing ∧
      (findAll files ps).run = (rest, none) := by
  rw [run_findAll_cons] at h
  split at h
  · cases h
  · rename_i listing hListing
    obtain ⟨rfl, hRest⟩ := Prod.mk.inj h
    exact ⟨listing, _, rfl, hListing, Prod.ext rfl hRest⟩

theorem run_findAll_append (h : (findAll files ps).run = (found, none)) (qs : List Path) :
    (findAll files (ps ++ qs)).run = (found ++ (findAll files qs).run.1, (findAll files qs).run.2) := by
  induction ps generalizing found with
  | nil =>
    cases h
    rfl
  | cons argument ps ih =>
    obtain ⟨listing, rest, rfl, hListing, hRest⟩ := exists_of_run_findAll_cons h
    rw [List.cons_append, run_findAll_cons, hListing, ih hRest]
    rfl

theorem exists_run_findAll (h : SameFiles files other) (hFound : (findAll files ps).run = (found, none)) :
    ∃ again, (findAll other ps).run = (again, none) ∧ AllReordered found again := by
  induction ps generalizing found with
  | nil =>
    cases hFound
    exact ⟨[], rfl, .nil⟩
  | cons argument ps ih =>
    obtain ⟨listing, rest, rfl, hListing, hRest⟩ := exists_of_run_findAll_cons hFound
    obtain ⟨listing', hListing', hReordered⟩ := exists_run_find h hListing
    obtain ⟨rest', hRest', hAll⟩ := ih hRest
    refine ⟨(argument, listing') :: rest', ?_, .cons ⟨rfl, hReordered⟩ hAll⟩
    rw [run_findAll_cons, hListing', hRest']

theorem Reordered.refl : (listing : Listing) → listing.Reordered listing
  | .file => .file
  | .directory _ => .directory (.refl _)
  | .pattern _ => .pattern (.refl _)

theorem AllReordered.refl (found : List (Path × Listing)) : AllReordered found found :=
  List.forall₂_same.mpr fun entry _ => ⟨rfl, Reordered.refl entry.2⟩

theorem Reordered.trans {a b c : Listing} (h : a.Reordered b) (h' : b.Reordered c) : a.Reordered c := by
  cases h with
  | file => exact h'
  | directory hPerm =>
    cases h' with
    | directory hPerm' => exact .directory (hPerm.trans hPerm')
  | pattern hPerm =>
    cases h' with
    | pattern hPerm' => exact .pattern (hPerm.trans hPerm')

theorem AllReordered.trans {a b c : List (Path × Listing)} (h : AllReordered a b) (h' : AllReordered b c) :
    AllReordered a c := by
  induction h generalizing c with
  | nil => exact h'
  | cons hEntry _ ih =>
    cases h' with
    | cons hEntry' hRest' =>
      exact .cons ⟨hEntry.1.trans hEntry'.1, hEntry.2.trans hEntry'.2⟩ (ih hRest')

theorem collect_eq_firstOfEach (found : List (Path × Listing)) :
    collect found = firstOfEach Path.components (found.flatMap fun entry => entry.2.paths entry.1) := rfl

/-- The files are the same, however the system lists them. -/
theorem AllReordered.map_components_collect (h : AllReordered found again) :
    (collect found).map Path.components = (collect again).map Path.components := by
  rw [collect_eq_firstOfEach, collect_eq_firstOfEach, map_firstOfEach, map_firstOfEach]
  congr 1
  induction h with
  | nil => rfl
  | cons hEntry _ ih =>
    obtain ⟨hArgument, hListing⟩ := hEntry
    rw [List.flatMap_cons, List.flatMap_cons, List.map_append, List.map_append, ih, hListing.map_components_paths,
      hArgument]

theorem AllReordered.collect_eq (h : AllReordered found again) (hApart : ∀ entry ∈ found, entry.2.Apart) :
    collect found = collect again := by
  rw [collect_eq_firstOfEach, collect_eq_firstOfEach]
  congr 1
  induction h with
  | nil => rfl
  | cons hEntry _ ih =>
    obtain ⟨hArgument, hListing⟩ := hEntry
    obtain ⟨hFirst, hRest⟩ := List.forall_mem_cons.mp hApart
    rw [List.flatMap_cons, List.flatMap_cons, ih hRest, hListing.paths_eq hFirst, hArgument]

theorem nodup_map_components_collect (found : List (Path × Listing)) : ((collect found).map Path.components).Nodup :=
  nodup_map_firstOfEach _ _

theorem collect_append (found found' : List (Path × Listing)) :
    collect (found ++ found') = collect found ++ (collect found').filter fun path =>
      !((collect found).map Path.components).contains (Path.components path) := by
  rw [collect_eq_firstOfEach, List.flatMap_append, firstOfEach_append]
  rfl

/-- No path comes twice among the files of a run, and more arguments only add, behind the files of the first ones,
those that are not among them. The files do not depend on the order in which directories and matches are listed: in
another order they are the same paths, and written alike unless a directory or a pattern has one path twice. -/
theorem collect_findAll (hFound : (findAll files ps).run = (found, none))
    (hFound' : (findAll files qs).run = (found', none)) :
    ((collect found).map Path.components).Nodup ∧
      ((findAll files (ps ++ qs)).run = (found ++ found', none) ∧
        collect (found ++ found') = collect found ++ (collect found').filter fun path =>
          !((collect found).map Path.components).contains (Path.components path)) ∧
      ∀ other, SameFiles files other → ∃ again, (findAll other ps).run = (again, none) ∧
        ∀ listed, AllReordered again listed →
          (collect listed).map Path.components = (collect found).map Path.components ∧
            ((∀ entry ∈ found, entry.2.Apart) → collect listed = collect found) := by
  refine ⟨nodup_map_components_collect found, ⟨?_, collect_append found found'⟩, ?_⟩
  · rw [run_findAll_append hFound, hFound']
  · intro other hSame
    obtain ⟨again, hAgain, hReordered⟩ := exists_run_findAll hSame hFound
    refine ⟨again, hAgain, fun listed hListed => ?_⟩
    have hAll := hReordered.trans hListed
    exact ⟨hAll.map_components_collect.symm, fun hApart => (hAll.collect_eq hApart).symm⟩

/-- A file `main.h`, and a directory `inc` with some files in it. -/
def incFiles (names : List Text) : Files Id where
  read _ := pure (.error .notFound)
  isFile path := pure (path == "main.h".toList || names.any fun name => path == "inc/".toList ++ name)
  isDirectory path := pure (path == "inc".toList)
  entries? path := pure (if path = "inc".toList then some names else none)
  directoriesFrom path := pure [path]
  makeDirectories _ := pure false
  write _ _ := pure false

theorem sameFiles_incFiles {names others : List Text} (h : names.Perm others) :
    SameFiles (incFiles names) (incFiles others) where
  isFile path := congrArg (fun found => pure (path == "main.h".toList || found)) h.any_eq
  isDirectory _ := rfl
  entries? path := by
    simp only [incFiles, Id.run_pure]
    split
    · exact .some h
    · exact .none
  directoriesFrom path := .refl [path]

/-- The names in `inc`, in an order that is not that of the paths. -/
def incNames : List Text := ["b.h".toList, "a.h".toList]

def incPaths : List Path := ["inc/b.h".toList, "inc/a.h".toList]

theorem sort_incPaths : Path.sort incPaths = ["inc/a.h".toList, "inc/b.h".toList] := by
  have hReversed : Path.sort incPaths = Path.sort incPaths.reverse :=
    Path.sort_eq_of_perm (List.reverse_perm incPaths).symm (by decide)
  exact hReversed.trans (List.mergeSort_of_pairwise (by decide))

theorem collect_findAll_inc :
    let found := [("main.h".toList, file), ("inc".toList, directory incPaths)]
    let found' := [("inc/*.h".toList, pattern incPaths), ("new.h".toList, pattern [])]
    (findAll (incFiles incNames) ["main.h".toList, "inc".toList]).run = (found, none) ∧
      (findAll (incFiles incNames) ["inc/*.h".toList, "new.h".toList]).run = (found', none) ∧
      collect (found ++ found') = ["main.h".toList, "inc/a.h".toList, "inc/b.h".toList, "new.h".toList] ∧
      SameFiles (incFiles incNames) (incFiles incNames.reverse) ∧
      ∃ again, (findAll (incFiles incNames.reverse) ["main.h".toList, "inc".toList]).run = (again, none) ∧
        collect again = ["main.h".toList, "inc/a.h".toList, "inc/b.h".toList] := by
  intro found found'
  have hFound : (findAll (incFiles incNames) ["main.h".toList, "inc".toList]).run = (found, none) := by decide
  have hFound' : (findAll (incFiles incNames) ["inc/*.h".toList, "new.h".toList]).run = (found', none) := by decide
  have hSame : SameFiles (incFiles incNames) (incFiles incNames.reverse) :=
    sameFiles_incFiles (List.reverse_perm incNames).symm
  have hCollect : collect found = ["main.h".toList, "inc/a.h".toList, "inc/b.h".toList] := by
    change firstOfEach Path.components ("main.h".toList :: (Path.sort incPaths ++ [])) = _
    rw [sort_incPaths]
    decide
  have hCollect' : collect found' = ["inc/a.h".toList, "inc/b.h".toList, "new.h".toList] := by
    change firstOfEach Path.components (Path.sort incPaths ++ ["new.h".toList]) = _
    rw [sort_incPaths]
    decide
  obtain ⟨-, ⟨-, hAppend⟩, hOther⟩ := collect_findAll hFound hFound'
  obtain ⟨again, hAgain, hListed⟩ := hOther _ hSame
  refine ⟨hFound, hFound', ?_, hSame, again, hAgain, ?_⟩
  · rw [hAppend, hCollect, hCollect']
    decide
  · rw [(hListed again (AllReordered.refl again)).2 (by decide), hCollect]

end Listing

end HeaderDigest
