import HeaderDigest.Files.Pattern
import Mathlib.Data.List.Perm.Basic

/-!
# Matches in any order

In a file system that does not change, looking for the files of a pattern asks for names in directories, and a
system may list them in any order. The order of the matches follows from it; which files match does not.
-/

namespace HeaderDigest

open Text

/-- The same files, and the same directories with the same names in them, in any order. -/
structure SameFiles (files other : Files Id) : Prop where
  isFile : ∀ path, files.isFile path = other.isFile path
  isDirectory : ∀ path, files.isDirectory path = other.isDirectory path
  entries? : ∀ path, Option.Rel List.Perm (files.entries? path).run (other.entries? path).run
  directoriesFrom : ∀ path, (files.directoriesFrom path).run.Perm (other.directoriesFrom path).run

theorem run_filterM {α : Type} (p : α → Id Bool) (items : List α) :
    (items.filterM p).run = items.filter fun item => (p item).run := by
  have hAux (kept : List α) :
      (items.filterAuxM p kept).run = (items.filter fun item => (p item).run).reverse ++ kept := by
    induction items generalizing kept with
    | nil => rfl
    | cons item items ih =>
      rw [List.filterAuxM, Id.run_bind, ih]
      cases hItem : (p item).run with
      | true => simp [hItem]
      | false => simp [hItem]
  rw [List.filterM, Id.run_bind, hAux, List.append_nil, Id.run_pure, List.reverse_reverse]

variable {files other : Files Id}

/-- What is made of the names in a directory, in whatever order they come. -/
theorem perm_elim {names? other? : Option (List Text)} (h : Option.Rel List.Perm names? other?)
    {f g : List Text → List Path} (hf : ∀ names others, names.Perm others → (f names).Perm (g others)) :
    (names?.elim [] f).Perm (other?.elim [] g) := by
  cases h with
  | some hNames => exact hf _ _ hNames
  | none => exact .refl _

theorem exists_perm_of_rel {α : Type} {items? other? : Option (List α)} (h : Option.Rel List.Perm items? other?)
    {items : List α} (hItems : items? = some items) : ∃ others, other? = some others ∧ items.Perm others := by
  subst hItems
  cases h with
  | some hPerm => exact ⟨_, rfl, hPerm⟩

namespace Pattern

/-- Whether there is something of a name in a directory. -/
def isThere (files : Files Id) (path : Path) (name : Text) : Bool :=
  if name = ['.'] || name = ['.', '.'] then (files.isDirectory path).run
  else (files.isFile (Path.child path name)).run || (files.isDirectory (Path.child path name)).run

section Run

variable (files : Files Id) (pieces : List Piece) (rest : List Component) (path : Path)

theorem run_find_directories :
    (find files (.directories :: .name pieces :: rest) path).run =
      (files.directoriesFrom path).run.flatMap fun directory => (files.entries? directory).run.elim [] fun names =>
        (names.filter (matchesName pieces)).flatMap fun name => (find files rest (Path.child directory name)).run := by
  rw [find]
  simp only [Id.run_bind, List.idRun_mapM, Id.run_pure, List.flatten_flatten, List.map_map, List.flatMap_def]
  congr 2
  funext directory
  rw [Function.comp_apply]
  cases (files.entries? directory).run <;> rfl

variable {pieces}

theorem run_find_literal {name : Text} (h : literal? pieces = some name) :
    (find files (.name pieces :: rest) path).run =
      if isThere files path name then (find files rest (Path.child path name)).run else [] := by
  rw [find, h, isThere]
  simp only
  split <;> simp only [Id.run_bind, Id.run_pure, apply_ite Id.run]

theorem run_find_name (h : literal? pieces = none) :
    (find files (.name pieces :: rest) path).run =
      (files.entries? path).run.elim [] fun names =>
        ((names.filter (matchesName pieces)).flatMap fun name => (find files rest (Path.child path name)).run) ++
          ((if pieces.head? = some (.letter '.') then [['.'], ['.', '.']] else []).filter
            (matchesName pieces)).flatMap fun name => (find files rest (Path.join path name)).run := by
  rw [find, h]
  simp only [Id.run_bind]
  cases (files.entries? path).run with
  | none => rfl
  | some names => simp only [Id.run_bind, List.idRun_mapM, Id.run_pure, List.flatMap_def, Option.elim_some]

end Run

/-- A pattern matches the same paths, in whatever order the directories list their names. -/
theorem perm_find (h : SameFiles files other) (components : List Component) (path : Path) :
    (find files components path).run.Perm (find other components path).run := by
  have hLiteral {pieces : List Piece} {name : Text} (rest : List Component) (path : Path)
      (hName : literal? pieces = some name)
      (ih : (find files rest (Path.child path name)).run.Perm (find other rest (Path.child path name)).run) :
      (find files (.name pieces :: rest) path).run.Perm (find other (.name pieces :: rest) path).run := by
    have hThere : isThere files path name = isThere other path name := by
      rw [isThere, isThere, h.isDirectory, h.isFile, h.isDirectory]
    rw [run_find_literal files rest path hName, run_find_literal other rest path hName, hThere]
    split
    · exact ih
    · exact .refl _
  induction components, path using find.induct files with
  | case1 path => exact .refl _
  | case2 path => exact .refl _
  | case3 rest path ih =>
    rw [find, find]
    exact ih
  | case4 pieces rest path ih =>
    rw [run_find_directories, run_find_directories]
    refine (h.directoriesFrom path).flatMap fun directory _ => perm_elim (h.entries? directory) fun _ _ hNames => ?_
    exact (hNames.filter _).flatMap fun name _ => ih directory name
  | case5 pieces rest path name hName next hDots ih => exact hLiteral rest path hName ih
  | case6 pieces rest path name hName next hDots ih => exact hLiteral rest path hName ih
  | case7 pieces rest path hName ihChild ihJoin =>
    rw [run_find_name files rest path hName, run_find_name other rest path hName]
    refine perm_elim (h.entries? path) fun _ _ hNames => List.Perm.append ?_ ?_
    · exact (hNames.filter _).flatMap fun name _ => ihChild name
    · exact List.Perm.flatMap_left _ fun name _ => ihJoin name

theorem perm_files? (h : SameFiles files other) (pattern : Text) :
    Option.Rel List.Perm (files? files pattern).run (files? other pattern).run := by
  unfold files?
  cases read? pattern with
  | none => exact .none
  | some components =>
    simp only
    split
    · exact .some (.refl _)
    · simp only [Id.run_bind, run_filterM, Id.run_pure, h.isFile]
      exact .some ((perm_find h _ _).filter _)

end Pattern

end HeaderDigest
