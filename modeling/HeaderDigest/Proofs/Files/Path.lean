import HeaderDigest.Files.Path
import Mathlib.Data.List.Nodup

/-!
# The pieces of a path

A name that is joined to a directory is the last piece of the path, and the pieces before it are
those of the directory. What a path names last holds no slash. Paths are sorted by their components, so the order
in which they are found leaves no trace.
-/

namespace HeaderDigest.Path

open Text

theorem exists_pieces_eq_cons (path : Path) : ∃ piece more, pieces path = piece :: more := by
  cases path with
  | nil => exact ⟨[], [], rfl⟩
  | cons c path =>
    rw [pieces]
    split
    · exact ⟨[], pieces path, rfl⟩
    · split
      · exact ⟨_, _, rfl⟩
      · exact ⟨_, _, rfl⟩

theorem pieces_cons {c : Char} (hc : c ≠ '/') {path piece : Text} {more : List Text}
    (h : pieces path = piece :: more) : pieces (c :: path) = (c :: piece) :: more := by
  rw [pieces, if_neg hc, h]

theorem pieces_append_slash (u v : Text) : pieces (u ++ '/' :: v) = pieces u ++ pieces v := by
  induction u with
  | nil => rfl
  | cons c u ih =>
    obtain ⟨piece, more, hPieces⟩ := exists_pieces_eq_cons u
    rw [hPieces] at ih
    by_cases hc : c = '/'
    · subst hc
      rw [List.cons_append, pieces, if_pos rfl, ih, pieces, if_pos rfl, hPieces]
      rfl
    · rw [List.cons_append, pieces_cons hc ih, pieces_cons hc hPieces]
      rfl

theorem pieces_of_not_mem {s : Text} (h : '/' ∉ s) : pieces s = [s] := by
  induction s with
  | nil => rfl
  | cons c s ih =>
    rw [List.mem_cons, not_or] at h
    exact pieces_cons (Ne.symm h.1) (ih h.2)

theorem not_mem_of_mem_pieces {path piece : Text} (h : piece ∈ pieces path) : '/' ∉ piece := by
  induction path generalizing piece with
  | nil =>
    rw [List.mem_singleton.mp h]
    exact List.not_mem_nil
  | cons c path ih =>
    by_cases hc : c = '/'
    · subst hc
      obtain rfl | h := List.mem_cons.mp h
      · exact List.not_mem_nil
      · exact ih h
    · obtain ⟨first, more, hPieces⟩ := exists_pieces_eq_cons path
      rw [pieces_cons hc hPieces] at h
      rw [hPieces] at ih
      obtain rfl | h := List.mem_cons.mp h
      · rw [List.mem_cons, not_or]
        exact ⟨Ne.symm hc, ih List.mem_cons_self⟩
      · exact ih (List.mem_cons_of_mem first h)

/-- The pieces in front of a name that is joined to a directory. -/
def piecesBefore (directory : Path) : List Text :=
  if directory.isEmpty then []
  else if endsWith ['/'] directory then (pieces directory).dropLast
  else pieces directory

theorem isAbsolute_cons (c : Char) (path : Path) : isAbsolute (c :: path) = ('/' == c) := by
  rw [isAbsolute, startsWith, List.isPrefixOf_cons_cons, List.isPrefixOf_nil_left, Bool.and_true]

theorem isAbsolute_of_not_mem {name : Text} (h : '/' ∉ name) : isAbsolute name = false := by
  cases name with
  | nil => rfl
  | cons c name =>
    rw [List.mem_cons, not_or] at h
    rw [isAbsolute_cons]
    exact beq_eq_false_iff_ne.mpr h.1

/-- A name is joined to no directory, or behind the slash that ends one, or behind a slash. -/
theorem join_cases (directory : Path) {name : Text} (h : '/' ∉ name) :
    (directory = [] ∧ join directory name = name) ∨
      (∃ front, directory = front ++ ['/'] ∧ join directory name = front ++ '/' :: name) ∨
      (directory ≠ [] ∧ endsWith ['/'] directory = false ∧
        join directory name = directory ++ '/' :: name) := by
  unfold join
  rw [isAbsolute_of_not_mem h, Bool.false_or]
  cases directory with
  | nil => exact Or.inl ⟨rfl, rfl⟩
  | cons c directory =>
    right
    rw [if_neg (by simp)]
    by_cases hSlash : endsWith ['/'] (c :: directory) = true
    · rw [if_pos hSlash]
      obtain ⟨front, hFront⟩ := List.isSuffixOf_iff_suffix.mp hSlash
      exact Or.inl ⟨front, hFront.symm, by rw [← hFront, List.append_assoc]; rfl⟩
    · rw [if_neg hSlash]
      exact Or.inr ⟨List.cons_ne_nil c directory, Bool.eq_false_iff.mpr hSlash, rfl⟩

theorem pieces_join (directory : Path) {name : Text} (h : '/' ∉ name) :
    pieces (join directory name) = piecesBefore directory ++ [name] := by
  obtain ⟨rfl, hJoin⟩ | ⟨front, rfl, hJoin⟩ | ⟨hNe, hSlash, hJoin⟩ := join_cases directory h
  · rw [hJoin, pieces_of_not_mem h]
    rfl
  · have hEnds : endsWith ['/'] (front ++ ['/']) = true :=
      List.isSuffixOf_iff_suffix.mpr (List.suffix_append front ['/'])
    have hBefore : piecesBefore (front ++ ['/']) = pieces front := by
      rw [piecesBefore, if_neg (by simp), if_pos hEnds, pieces_append_slash]
      exact List.dropLast_concat
    rw [hJoin, hBefore, pieces_append_slash, pieces_of_not_mem h]
  · have hBefore : piecesBefore directory = pieces directory := by
      rw [piecesBefore, if_neg (by simpa using hNe), if_neg (by simp [hSlash])]
    rw [hJoin, hBefore, pieces_append_slash, pieces_of_not_mem h]

theorem join_injective (directory : Path) {a b : Text} (ha : '/' ∉ a) (hb : '/' ∉ b)
    (h : join directory a = join directory b) : a = b := by
  have hPieces := congrArg pieces h
  rw [pieces_join directory ha, pieces_join directory hb] at hPieces
  simpa using hPieces

theorem isAbsolute_join (directory : Path) {name : Text} (h : '/' ∉ name) :
    isAbsolute (join directory name) = isAbsolute directory := by
  obtain ⟨rfl, hJoin⟩ | ⟨front, rfl, hJoin⟩ | ⟨hNe, -, hJoin⟩ := join_cases directory h
  · rw [hJoin]
    exact isAbsolute_of_not_mem h
  · rw [hJoin]
    cases front with
    | nil => rfl
    | cons c front => rw [List.cons_append, List.cons_append, isAbsolute_cons, isAbsolute_cons]
  · rw [hJoin]
    cases directory with
    | nil => exact absurd rfl hNe
    | cons c directory => rw [List.cons_append, isAbsolute_cons, isAbsolute_cons]

theorem fileName?_of_getLast? {path name : Text}
    (h : ((pieces path).filterMap componentOf?).getLast? = some (.name name)) :
    fileName? path = some name := by
  rw [fileName?, components, List.getLast?_append, h]
  rfl

theorem not_mem_of_fileName? {path name : Text} (h : fileName? path = some name) : '/' ∉ name := by
  unfold fileName? at h
  split at h
  · rename_i name' hLast
    cases h
    have hMem : Component.name name ∈ components path := List.mem_of_getLast? hLast
    rw [components] at hMem
    obtain hLeading | hPiece := List.mem_append.mp hMem
    · split at hLeading
      · simp at hLeading
      · split at hLeading <;> simp at hLeading
    · obtain ⟨piece, hPiece, hComponent⟩ := List.mem_filterMap.mp hPiece
      unfold componentOf? at hComponent
      split at hComponent
      · cases hComponent
      · split at hComponent
        · cases hComponent
        · cases hComponent
          exact not_mem_of_mem_pieces hPiece
  · cases h

theorem Component.orderKey_injective : Function.Injective Component.orderKey := by
  intro a b h
  cases a with
  | name letters =>
    cases b with
    | name letters' =>
      have hLetters : letters.map Char.toNat = letters'.map Char.toNat := (List.cons.inj h).2
      rw [List.map_injective_iff.mpr (fun _ _ => Char.toNat_inj.mp) hLetters]
    | _ => simp [orderKey] at h
  | _ => cases b <;> simp_all [orderKey]

/-- Whether a path does not come behind another one. -/
def IsLE (a b : List Component) : Prop :=
  (compare (a.map Component.orderKey) (b.map Component.orderKey)).isLE = true

theorem IsLE.antisymm {a b : List Component} (h : IsLE a b) (h' : IsLE b a) : a = b :=
  List.map_injective_iff.mpr Component.orderKey_injective
    (Std.LawfulEqOrd.eq_of_compare (Std.OrientedCmp.isLE_antisymm h h'))

theorem sort_perm (paths : List Path) : (sort paths).Perm paths := List.mergeSort_perm paths _

theorem pairwise_sort (paths : List Path) : (sort paths).Pairwise fun a b => IsLE (components a) (components b) := by
  apply List.pairwise_mergeSort
  · intro a b c hab hbc
    exact Std.TransCmp.isLE_trans hab hbc
  · intro a b
    rw [Bool.or_eq_true]
    by_cases h : (compare (orderKey a) (orderKey b)).isLE = true
    · exact Or.inl h
    · have hLt := Std.OrientedCmp.lt_of_not_isLE h
      exact Or.inr (Ordering.isLE_of_eq_lt hLt)

variable {xs ys : List Path}

theorem map_components_sort (h : xs.Perm ys) : (sort xs).map components = (sort ys).map components := by
  have hPerm := (((sort_perm xs).trans h).trans (sort_perm ys).symm).map components
  exact hPerm.eq_of_pairwise (fun _ _ _ _ => IsLE.antisymm) (List.pairwise_map.mpr (pairwise_sort xs))
    (List.pairwise_map.mpr (pairwise_sort ys))

theorem sort_eq_of_perm (h : xs.Perm ys) (hApart : (xs.map components).Nodup) : sort xs = sort ys := by
  have hPerm := ((sort_perm xs).trans h).trans (sort_perm ys).symm
  refine hPerm.eq_of_pairwise ?_ (pairwise_sort xs) (pairwise_sort ys)
  intro a b ha hb hab hba
  have hMem : b ∈ xs := h.mem_iff.mpr ((sort_perm ys).mem_iff.mp hb)
  exact List.inj_on_of_nodup_map hApart ((sort_perm xs).mem_iff.mp ha) hMem (hab.antisymm hba)

end HeaderDigest.Path
