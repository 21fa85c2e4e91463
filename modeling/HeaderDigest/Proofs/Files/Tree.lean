import HeaderDigest.Files.Tree
import HeaderDigest.Proofs.Files.Path

/-!
# Reading what was written

A file that is written is read as it was written, and a file of another name in the same directory
is read as before.
-/

namespace HeaderDigest.Tree

variable {tree after : Tree} {origin : List Text}

theorem lookup_filter_ne {place other : List Text} (h : other ≠ place)
    (entries : List (List Text × Entry)) :
    (entries.filter fun entry => entry.1 != place).lookup other = entries.lookup other := by
  induction entries with
  | nil => rfl
  | cons entry entries ih =>
    obtain ⟨key, value⟩ := entry
    by_cases hKey : key = place
    · subst hKey
      rw [List.filter_cons_of_neg (by simp), ih, List.lookup_cons, beq_eq_false_iff_ne.mpr h]
    · rw [List.filter_cons_of_pos (by simpa using hKey), List.lookup_cons, List.lookup_cons, ih]

theorem entry?_put_self {place : List Text} (hPlace : place ≠ []) (entry : Entry) :
    Tree.entry? (tree.put place entry) place = some entry := by
  rw [Tree.entry?, if_neg (by simpa using hPlace), put, List.lookup_cons_self]

theorem entry?_put_of_ne {place other : List Text} (h : other ≠ place) (entry : Entry) :
    Tree.entry? (tree.put place entry) other = tree.entry? other := by
  rw [Tree.entry?, Tree.entry?, put, List.lookup_cons, beq_eq_false_iff_ne.mpr h]
  simp only [lookup_filter_ne h]

theorem ne_of_entry?_eq_directory {place other : List Text} (hFree : tree.entry? place ≠ some .directory)
    (h : tree.entry? other = some .directory) : other ≠ place := by
  rintro rfl
  exact hFree h

/-- A name of its own in the directory where it stands. -/
structure IsPlainName (name : Text) : Prop where
  noSlash : '/' ∉ name
  ne_nil : name ≠ []
  ne_dot : name ≠ ['.']
  ne_dots : name ≠ ['.', '.']

/-- Where a piece leads from a place. -/
def step? (place : List Text) (piece : Text) : Option (List Text) :=
  if piece.isEmpty || piece = ['.'] then some place
  else if piece = ['.', '.'] then some place.dropLast
  else if 255 < byteLength piece then none
  else some (place ++ [piece])

/-- A walk goes on from a directory only. -/
theorem walk_cons_eq_ok_iff {place pieces final : List Text} {piece : Text} :
    tree.walk place (piece :: pieces) = .ok final ↔
      tree.entry? place = some .directory ∧
        ∃ next, step? place piece = some next ∧ tree.walk next pieces = .ok final := by
  rw [walk, step?]
  cases tree.entry? place with
  | none => simp
  | some entry =>
    cases entry with
    | file contents => simp
    | directory =>
      simp only [true_and]
      split
      · simp
      · split
        · simp
        · split <;> simp

theorem walk_append_eq_ok_iff {place xs ys final : List Text} :
    tree.walk place (xs ++ ys) = .ok final ↔
      ∃ middle, tree.walk place xs = .ok middle ∧ tree.walk middle ys = .ok final := by
  induction xs generalizing place with
  | nil => simp [walk]
  | cons piece xs ih =>
    rw [List.cons_append, walk_cons_eq_ok_iff]
    simp only [walk_cons_eq_ok_iff, ih]
    constructor
    · rintro ⟨hDirectory, next, hStep, middle, hMiddle, hFinal⟩
      exact ⟨middle, ⟨hDirectory, next, hStep, hMiddle⟩, hFinal⟩
    · rintro ⟨middle, ⟨hDirectory, next, hStep, hMiddle⟩, hFinal⟩
      exact ⟨hDirectory, next, hStep, middle, hMiddle, hFinal⟩

/-- A walk passes directories only, so what is put where none is does not change it. -/
theorem walk_put {place start pieces final : List Text} (hFree : tree.entry? place ≠ some .directory)
    (entry : Entry) (h : tree.walk start pieces = .ok final) :
    (tree.put place entry).walk start pieces = .ok final := by
  induction pieces generalizing start with
  | nil => exact h
  | cons piece pieces ih =>
    obtain ⟨hDirectory, next, hStep, hRest⟩ := walk_cons_eq_ok_iff.mp h
    refine walk_cons_eq_ok_iff.mpr ⟨?_, next, hStep, ih hRest⟩
    rw [entry?_put_of_ne (ne_of_entry?_eq_directory hFree hDirectory), hDirectory]

theorem walk_plainName {place final : List Text} {name : Text} (hName : IsPlainName name)
    (h : tree.walk place [name] = .ok final) : final = place ++ [name] := by
  obtain ⟨-, next, hStep, hFinal⟩ := walk_cons_eq_ok_iff.mp h
  rw [step?, if_neg (by simp [hName.ne_nil, hName.ne_dot]), if_neg hName.ne_dots] at hStep
  split at hStep
  · cases hStep
  · exact (Except.ok.inj hFinal).symm.trans (Option.some.inj hStep).symm

theorem locate_eq_ok {path : Path} {place : List Text} (h : tree.locate origin path = .ok place) :
    tree.walk (if Path.isAbsolute path then [] else origin) (Path.pieces path) = .ok place := by
  unfold locate at h
  split at h
  · cases h
  · split at h
    · cases h
    · split at h
      · cases h
      · exact h

theorem locate_put {path : Path} {place final : List Text} (hFree : tree.entry? place ≠ some .directory)
    (entry : Entry) (h : tree.locate origin path = .ok final) :
    (tree.put place entry).locate origin path = .ok final := by
  have hWalk := walk_put hFree entry (locate_eq_ok h)
  unfold locate at h ⊢
  split at h
  · cases h
  · rename_i hNul
    rw [if_neg hNul]
    split at h
    · cases h
    · rename_i hEmpty
      rw [if_neg hEmpty]
      split at h
      · cases h
      · rename_i hLength
        rw [if_neg hLength]
        exact hWalk

/-- The place of a directory to which names are joined. -/
theorem locate_join {directory : Path} {name : Text} {place : List Text} (hName : IsPlainName name)
    (h : tree.locate origin (Path.join directory name) = .ok place) :
    ∃ base, tree.walk (if Path.isAbsolute directory then [] else origin)
        (Path.piecesBefore directory) = .ok base ∧ place = base ++ [name] := by
  have hWalk := locate_eq_ok h
  rw [Path.pieces_join directory hName.noSlash, Path.isAbsolute_join directory hName.noSlash] at hWalk
  obtain ⟨base, hBase, hPlace⟩ := walk_append_eq_ok_iff.mp hWalk
  exact ⟨base, hBase, walk_plainName hName hPlace⟩

theorem read_file_iff {path : Path} {contents : ByteArray} :
    tree.read origin path = .ok contents ↔
      ∃ place, tree.locate origin path = .ok place ∧ tree.entry? place = some (.file contents) := by
  unfold read
  constructor
  · intro h
    split at h
    · cases h
    · rename_i place hPlace
      split at h
      · cases h
      · cases h
      · rename_i contents' hEntry
        cases h
        exact ⟨place, hPlace, hEntry⟩
  · rintro ⟨place, hPlace, hEntry⟩
    rw [hPlace]
    simp only [hEntry]

theorem write_eq_some {path : Path} {contents : ByteArray}
    (h : tree.write origin path contents = some after) :
    ∃ place, tree.locate origin path = .ok place ∧ tree.entry? place ≠ some .directory ∧
      after = tree.put place (.file contents) := by
  unfold write at h
  split at h
  · cases h
  · rename_i place hPlace
    split at h
    · cases h
    · rename_i hFree
      exact ⟨place, hPlace, hFree, (Option.some.inj h).symm⟩

theorem read_write {path : Path} {contents : ByteArray}
    (h : tree.write origin path contents = some after) : after.read origin path = .ok contents := by
  obtain ⟨place, hPlace, hFree, rfl⟩ := write_eq_some h
  have hNe : place ≠ [] := by
    rintro rfl
    exact hFree rfl
  exact read_file_iff.mpr ⟨place, locate_put hFree _ hPlace, entry?_put_self hNe _⟩

/-- Writing a file leaves another file of its directory as it is. -/
theorem read_write_of_ne {directory : Path} {name other : Text} {contents kept : ByteArray}
    (hName : IsPlainName name) (hOther : IsPlainName other) (hNe : other ≠ name)
    (h : tree.write origin (Path.join directory name) contents = some after)
    (hRead : tree.read origin (Path.join directory other) = .ok kept) :
    after.read origin (Path.join directory other) = .ok kept := by
  obtain ⟨place, hPlace, hFree, rfl⟩ := write_eq_some h
  obtain ⟨place', hPlace', hEntry⟩ := read_file_iff.mp hRead
  obtain ⟨base, hBase, rfl⟩ := locate_join hName hPlace
  obtain ⟨base', hBase', rfl⟩ := locate_join hOther hPlace'
  obtain rfl := Except.ok.inj (hBase.symm.trans hBase')
  have hPlaces : base ++ [other] ≠ base ++ [name] := by simpa using hNe
  refine read_file_iff.mpr ⟨base ++ [other], locate_put hFree _ hPlace', ?_⟩
  rw [entry?_put_of_ne hPlaces, hEntry]

/-- Whatever is in a tree is in a directory. -/
def IsClosed (tree : Tree) : Prop :=
  ∀ place name, (tree.entry? (place ++ [name])).isSome = true → tree.entry? place = some .directory

theorem isClosed_of_entries
    (h : ∀ entry ∈ tree.entries, tree.entry? entry.1.dropLast = some .directory) : tree.IsClosed := by
  intro place name hSome
  rw [Tree.entry?, if_neg (by simp)] at hSome
  obtain ⟨entry, hEntry⟩ := Option.isSome_iff_exists.mp hSome
  obtain ⟨before, behind, hEntries, -⟩ := List.lookup_eq_some_iff.mp hEntry
  have hParent := h (place ++ [name], entry) (by rw [hEntries]; simp)
  rwa [List.dropLast_concat] at hParent

theorem IsClosed.dropLast (hClosed : tree.IsClosed) {place : List Text}
    (h : tree.entry? place = some .directory) : tree.entry? place.dropLast = some .directory := by
  obtain rfl | ⟨front, name, rfl⟩ := List.eq_nil_or_concat place
  · exact h
  · rw [List.concat_eq_append] at h ⊢
    rw [List.dropLast_concat]
    exact hClosed front name (by rw [h]; rfl)

/-- A piece that is no name leads to a directory, and any other is a name. -/
theorem IsClosed.step (hClosed : tree.IsClosed) {place next : List Text} {piece : Text}
    (hDirectory : tree.entry? place = some .directory) (h : step? place piece = some next) :
    Path.componentOf? piece = some (.name piece) ∨ tree.entry? next = some .directory := by
  unfold step? at h
  split at h
  · exact Or.inr (Option.some.inj h ▸ hDirectory)
  · rename_i hSame
    split at h
    · exact Or.inr (Option.some.inj h ▸ hClosed.dropLast hDirectory)
    · rename_i hParent
      exact Or.inl (by rw [Path.componentOf?, if_neg hSame, if_neg hParent])

/-- A walk that does not end behind a name ends in a directory. -/
theorem IsClosed.walk (hClosed : tree.IsClosed) {place pieces final : List Text} (hPieces : pieces ≠ [])
    (h : tree.walk place pieces = .ok final) :
    (∃ name, (pieces.filterMap Path.componentOf?).getLast? = some (.name name)) ∨
      tree.entry? final = some .directory := by
  induction pieces generalizing place with
  | nil => exact absurd rfl hPieces
  | cons piece pieces ih =>
    obtain ⟨hDirectory, next, hStep, hRest⟩ := walk_cons_eq_ok_iff.mp h
    cases pieces with
    | nil =>
      obtain rfl := Except.ok.inj hRest
      refine (hClosed.step hDirectory hStep).imp_left fun hName => ⟨piece, ?_⟩
      rw [List.filterMap_cons_some hName]
      rfl
    | cons other pieces =>
      refine (ih (List.cons_ne_nil other pieces) hRest).imp_left ?_
      rintro ⟨name, hName⟩
      refine ⟨name, ?_⟩
      rw [List.filterMap_cons]
      split
      · exact hName
      · rw [List.getLast?_cons, hName]
        rfl

theorem IsClosed.exists_fileName? (hClosed : tree.IsClosed) {path : Path} {contents : ByteArray}
    (h : tree.read origin path = .ok contents) : ∃ name, Path.fileName? path = some name := by
  obtain ⟨place, hPlace, hEntry⟩ := read_file_iff.mp h
  obtain ⟨piece, more, hPieces⟩ := Path.exists_pieces_eq_cons path
  have hNe : Path.pieces path ≠ [] := hPieces ▸ List.cons_ne_nil piece more
  obtain ⟨name, hName⟩ | hDirectory := hClosed.walk hNe (locate_eq_ok hPlace)
  · exact ⟨name, Path.fileName?_of_getLast? hName⟩
  · rw [hDirectory] at hEntry
    cases hEntry

end HeaderDigest.Tree
