import HeaderDigest.CommandLine.Inputs
import HeaderDigest.Files.Tree

/-!
# Looking for the files of a run

To find out what its arguments stand for, a run only looks at the files. They are left as they are.
-/

namespace HeaderDigest

theorem run_bind_tree {α β : Type} (action : StateM Tree α) (next : α → StateM Tree β) (tree : Tree) :
    (action >>= next).run tree = (next (action.run tree).1).run (action.run tree).2 := rfl

/-- An action that leaves a tree of files as it is. -/
def LeavesFiles {α : Type} (action : StateM Tree α) : Prop := ∀ tree, (action.run tree).2 = tree

namespace LeavesFiles

variable {α β : Type} {origin : List Text}

theorem pure (a : α) : LeavesFiles (pure a) := fun _ => rfl

theorem bind {action : StateM Tree α} {next : α → StateM Tree β} (h : LeavesFiles action)
    (hNext : ∀ a, LeavesFiles (next a)) : LeavesFiles (action >>= next) := by
  intro tree
  exact (hNext _ _).trans (h tree)

/-- What comes after such an action goes on with the same files. -/
theorem run_bind {action : StateM Tree α} (h : LeavesFiles action) (next : α → StateM Tree β)
    (tree : Tree) : (action >>= next).run tree = (next (action.run tree).1).run tree := by
  rw [run_bind_tree, h tree]

theorem mapM {f : α → StateM Tree β} (h : ∀ a, LeavesFiles (f a)) (items : List α) :
    LeavesFiles (items.mapM f) := by
  induction items with
  | nil => exact pure []
  | cons item items ih =>
    rw [List.mapM_cons]
    exact (h item).bind fun _ => ih.bind fun _ => pure _

theorem filterM {p : α → StateM Tree Bool} (h : ∀ a, LeavesFiles (p a)) (items : List α) :
    LeavesFiles (items.filterM p) := by
  have hAux (kept : List α) : LeavesFiles (items.filterAuxM p kept) := by
    induction items generalizing kept with
    | nil => exact pure kept
    | cons item items ih => exact (h item).bind fun _ => ih _
  exact (hAux []).bind fun _ => pure _

theorem isFile (path : Path) : LeavesFiles ((Tree.files origin).isFile path) := fun _ => rfl

theorem isDirectory (path : Path) : LeavesFiles ((Tree.files origin).isDirectory path) := fun _ => rfl

theorem entries? (path : Path) : LeavesFiles ((Tree.files origin).entries? path) := fun _ => rfl

theorem directoriesFrom (path : Path) : LeavesFiles ((Tree.files origin).directoriesFrom path) :=
  fun _ => rfl

end LeavesFiles

variable (origin : List Text)

theorem leavesFiles_patternFind (components : List Pattern.Component) (path : Path) :
    LeavesFiles (Pattern.find (Tree.files origin) components path) := by
  fun_induction Pattern.find (Tree.files origin) components path with
  | case1 path => exact .pure [path]
  | case2 path => exact .pure []
  | case3 path rest ih => exact ih
  | case4 pieces rest path ih =>
    refine (LeavesFiles.directoriesFrom path).bind fun directories => ?_
    refine (LeavesFiles.mapM (fun directory => ?_) directories).bind fun found => .pure _
    exact (LeavesFiles.entries? directory).bind fun names => .mapM (fun name => ih directory name) _
  | case5 pieces rest path name hLiteral next isThere hDots ih =>
    refine (LeavesFiles.isDirectory path).bind fun found => ?_
    cases found with
    | true => exact ih
    | false => exact .pure []
  | case6 pieces rest path name hLiteral next isThere hDots ih =>
    refine (LeavesFiles.isFile next).bind fun asFile => (LeavesFiles.isDirectory next).bind fun asDirectory =>
      (LeavesFiles.pure _).bind fun found => ?_
    cases found with
    | true => exact ih
    | false => exact .pure []
  | case7 pieces rest path hLiteral ihChild ihJoin =>
    refine (LeavesFiles.entries? path).bind fun names? => ?_
    cases names? with
    | none => exact .pure []
    | some names =>
      refine (LeavesFiles.mapM (fun name => ihChild name) _).bind fun met => ?_
      exact (LeavesFiles.mapM (fun name => ihJoin name) _).bind fun special => .pure _

theorem leavesFiles_patternFiles? (pattern : Text) :
    LeavesFiles (Pattern.files? (Tree.files origin) pattern) := by
  unfold Pattern.files?
  split
  · exact .pure none
  · split
    · exact .pure (some [])
    · refine (leavesFiles_patternFind origin _ _).bind fun paths => ?_
      exact (LeavesFiles.filterM LeavesFiles.isFile paths).bind fun found => .pure (some found)

theorem leavesFiles_find (argument : Path) :
    LeavesFiles (Listing.find (Tree.files origin) argument) := by
  unfold Listing.find
  refine (LeavesFiles.isFile argument).bind fun asFile => ?_
  cases asFile with
  | true => exact .pure _
  | false =>
    refine (LeavesFiles.isDirectory argument).bind fun asDirectory => ?_
    cases asDirectory with
    | false =>
      refine (leavesFiles_patternFiles? origin argument).bind fun matched? => ?_
      cases matched? <;> exact .pure _
    | true =>
      refine (LeavesFiles.entries? argument).bind fun names? => ?_
      cases names? with
      | none => exact .pure _
      | some names => exact (LeavesFiles.filterM LeavesFiles.isFile _).bind fun headers => .pure _

/-- Finding out what the arguments of a run are leaves the files as they are. -/
theorem leavesFiles_findAll (arguments : List Path) :
    LeavesFiles (Listing.findAll (Tree.files origin) arguments) := by
  induction arguments with
  | nil => exact .pure ([], none)
  | cons argument rest ih =>
    refine (leavesFiles_find origin argument).bind fun found => ?_
    cases found with
    | error failure => exact .pure _
    | ok listing => exact ih.bind fun listings => .pure _

end HeaderDigest
