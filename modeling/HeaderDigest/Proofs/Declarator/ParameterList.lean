import HeaderDigest.Proofs.Declarator.Nesting
import Mathlib.Data.List.Forall2

/-!
# Lists of pieces

A text is one piece of a parameter list when cutting the list cuts nowhere in it, whatever
follows. Texts joined by commas are cut apart again, and cutting any list loses nothing but blanks and
a comma at the end.
-/

namespace HeaderDigest

open Text

/-- Whether cutting a list cuts nowhere in this text. -/
def IsPiece (s : Text) : Prop :=
  ∀ rest, piecesFrom {} (s ++ rest) = (piecesFrom {} rest).modifyHead (s ++ ·)

theorem IsPiece.of_uncut {s : Text} (h : Uncut {} s) (hClosed : Nesting.through {} s = {}) : IsPiece s := by
  intro rest
  rw [piecesFrom_append_of_uncut h, hClosed]

theorem IsPiece.of_plain {s : Text} (h : ∀ c ∈ s, isListBracket c = false ∧ c ≠ ',') : IsPiece s := by
  apply IsPiece.of_uncut
  · exact Uncut.of_not_mem {} fun hComma => (h ',' hComma).2 rfl
  · exact Nesting.through_eq_self {} fun c hc => (h c hc).1

theorem IsPiece.of_blank {s : Text} (h : ∀ c ∈ s, isBlank c = true) : IsPiece s :=
  .of_uncut (.of_not_mem {} (not_mem_of_blank h (by decide))) (Nesting.through_of_blank {} h)

theorem IsPiece.append {s t : Text} (hs : IsPiece s) (ht : IsPiece t) : IsPiece (s ++ t) := by
  intro rest
  rw [List.append_assoc, hs, ht, List.modifyHead_modifyHead]
  congr 1
  funext piece
  exact (List.append_assoc s t piece).symm

/-- Inside parentheses no comma cuts. -/
theorem IsPiece.bracketed {s : Text} (hs : Balanced '(' ')' s)
    (h : ∀ c ∈ s, isListBracket c = true → c = '(' ∨ c = ')') : IsPiece ('(' :: s ++ [')']) := by
  have hNe : '(' ≠ ')' := by decide
  apply IsPiece.of_uncut
  · have hInside : Uncut (Nesting.feed {} '(') s := by
      rintro u v rfl
      have hTotal := balance_eq_zero hNe hs
      have hEnding := (hs.enclosed hNe).endings (',' :: v) (List.suffix_append u _)
      rw [balance_append] at hTotal
      rw [Bool.eq_false_iff, Ne, Nesting.isTop_iff, Nesting.through_eq]
      intro hTop
      have hParens : (1 : Int) + balance '(' ')' u = 0 := congrArg Nesting.parens hTop
      omega
    rw [List.cons_append, uncut_cons_iff, uncut_append_iff]
    exact ⟨by decide, hInside, .of_not_mem _ (by decide)⟩
  · have hOther : ∀ c ∈ ['[', ']', '<', '>'], c ∉ '(' :: s ++ [')'] := by
      have hBracket : ∀ c ∈ ['[', ']', '<', '>'], isListBracket c = true ∧ c ≠ '(' ∧ c ≠ ')' := by decide
      intro c hc hMem
      obtain ⟨hList, hOpening, hClosing⟩ := hBracket c hc
      simp only [List.cons_append, List.mem_cons, List.mem_append, List.not_mem_nil, or_false, hOpening,
        hClosing, false_or] at hMem
      exact (h c hMem hList).elim hOpening hClosing
    rw [Nesting.through_eq, balance_eq_zero hNe hs.bracketed,
      balance_eq_zero (by decide) (.of_not_mem (hOther '[' (by decide)) (hOther ']' (by decide))),
      balance_eq_zero (by decide) (.of_not_mem (hOther '<' (by decide)) (hOther '>' (by decide)))]
    rfl

/-- Pieces with commas between them. -/
def joinList (pieces : List Text) : Text := List.intercalate [','] pieces

theorem joinList_singleton (piece : Text) : joinList [piece] = piece := by
  simp [joinList, List.intercalate]

theorem joinList_cons_cons (piece next : Text) (more : List Text) :
    joinList (piece :: next :: more) = piece ++ ',' :: joinList (next :: more) := by
  simp [joinList, List.intercalate]

theorem joinList_append_cons (u piece : Text) (more : List Text) :
    joinList ((u ++ piece) :: more) = u ++ joinList (piece :: more) := by
  cases more with
  | nil => rw [joinList_singleton, joinList_singleton]
  | cons next more => rw [joinList_cons_cons, joinList_cons_cons, List.append_assoc]

theorem joinList_concat {pieces : List Text} (hNe : pieces ≠ []) (last : Text) :
    joinList (pieces ++ [last]) = joinList pieces ++ ',' :: last := by
  obtain ⟨piece, more, rfl⟩ := List.exists_cons_of_ne_nil hNe
  induction more generalizing piece with
  | nil => rw [List.singleton_append, joinList_cons_cons, joinList_singleton, joinList_singleton]
  | cons next more ih =>
    rw [List.cons_append, List.cons_append, joinList_cons_cons, joinList_cons_cons, List.append_assoc,
      List.cons_append, ← ih next (List.cons_ne_nil next more), List.cons_append]

theorem piecesFrom_joinList {piece : Text} {more : List Text} (h : ∀ p ∈ piece :: more, IsPiece p) :
    piecesFrom {} (joinList (piece :: more)) = piece :: more := by
  obtain ⟨hPiece, hMore⟩ := List.forall_mem_cons.mp h
  induction more generalizing piece with
  | nil =>
    have hPieces := hPiece []
    rw [List.append_nil] at hPieces
    rw [joinList_singleton, hPieces]
    simp [piecesFrom]
  | cons next more ih =>
    have hNext := List.forall_mem_cons.mp hMore
    have hCut (s : Text) : piecesFrom {} (',' :: s) = [] :: piecesFrom {} s := rfl
    rw [joinList_cons_cons, hPiece, hCut, ih hMore hNext.1 hNext.2]
    simp

/-- A blank piece does not count at the end of a list. -/
theorem splitTopLevel_of_concat {list last : Text} {init : List Text}
    (h : piecesFrom {} list = init ++ [last]) :
    splitTopLevel list = init.map trim ++ if trim last = [] then [] else [trim last] := by
  rw [splitTopLevel, h, List.map_append, List.map_singleton, List.getLast?_concat, List.dropLast_concat]
  by_cases hLast : trim last = [] <;> simp [hLast]

/-- The parts of a list that is cut are those of what stands behind the cut, and the pieces before it. -/
theorem splitTopLevel_of_append {list rest : Text} {front : List Text}
    (h : piecesFrom {} list = front ++ piecesFrom {} rest) :
    splitTopLevel list = front.map trim ++ splitTopLevel rest := by
  obtain hNil | ⟨init, last, hRest⟩ := List.eq_nil_or_concat' (piecesFrom {} rest)
  · exact absurd hNil (piecesFrom_ne_nil {} rest)
  · rw [hRest, ← List.append_assoc] at h
    rw [splitTopLevel_of_concat h, splitTopLevel_of_concat hRest, List.map_append, List.append_assoc]

theorem splitTopLevel_joinList {pieces : List Text} (h : ∀ piece ∈ pieces, IsPiece piece ∧ trim piece ≠ []) :
    splitTopLevel (joinList pieces) = pieces.map trim := by
  obtain rfl | ⟨init, last, rfl⟩ := List.eq_nil_or_concat' pieces
  · rfl
  · have hLast := (h last (by simp)).2
    have hPieces : piecesFrom {} (joinList (init ++ [last])) = init ++ [last] := by
      cases init with
      | nil => exact piecesFrom_joinList fun p hp => (h p hp).1
      | cons piece more => exact piecesFrom_joinList fun p hp => (h p hp).1
    rw [splitTopLevel_of_concat hPieces, if_neg hLast, List.map_append, List.map_singleton]

theorem joinList_piecesFrom (nesting : Nesting) (s : Text) : joinList (piecesFrom nesting s) = s := by
  induction s generalizing nesting with
  | nil => exact joinList_singleton []
  | cons c s ih =>
    cases hFirst : (c = ',' && nesting.isTop) with
    | true =>
      obtain ⟨hComma, -⟩ := Bool.and_eq_true_iff.mp hFirst
      obtain ⟨piece, more, hPieces⟩ := List.exists_cons_of_ne_nil (piecesFrom_ne_nil nesting s)
      have hRest := ih nesting
      rw [hPieces] at hRest
      rw [piecesFrom, if_pos hFirst, hPieces, joinList_cons_cons, hRest, of_decide_eq_true hComma]
      rfl
    | false =>
      obtain ⟨piece, more, hPieces⟩ := List.exists_cons_of_ne_nil (piecesFrom_ne_nil (nesting.feed c) s)
      have hRest := ih (nesting.feed c)
      rw [hPieces] at hRest
      rw [piecesFrom_cons hFirst, hPieces, List.modifyHead_cons]
      exact (joinList_append_cons [c] piece more).trans (congrArg (c :: ·) hRest)

theorem mem_joinList {pieces : List Text} {piece : Text} {c : Char} (h : piece ∈ pieces) (hc : c ∈ piece) :
    c ∈ joinList pieces := by
  induction pieces with
  | nil => cases h
  | cons first more ih =>
    cases more with
    | nil => rwa [joinList_singleton, ← List.mem_singleton.mp h]
    | cons next more =>
      rw [joinList_cons_cons, List.mem_append, List.mem_cons]
      obtain rfl | h := List.mem_cons.mp h
      · exact Or.inl hc
      · exact Or.inr (Or.inr (ih h))

/-- The characters of a parameter stand in the list. -/
theorem mem_of_mem_splitTopLevel {list piece : Text} {c : Char} (h : piece ∈ splitTopLevel list) (hc : c ∈ piece) :
    c ∈ list := by
  have hPiece : piece ∈ (piecesFrom {} list).map trim := by
    unfold splitTopLevel at h
    simp only at h
    split at h
    · exact (List.dropLast_sublist _).subset h
    · exact h
  obtain ⟨padded, hPadded, rfl⟩ := List.mem_map.mp hPiece
  have hMem := mem_joinList hPadded (mem_of_mem_trim hc)
  rwa [joinList_piecesFrom] at hMem

theorem filter_joinList_map_trim (pieces : List Text) :
    (joinList (pieces.map trim)).filter (!isBlank ·) = (joinList pieces).filter (!isBlank ·) := by
  induction pieces with
  | nil => rfl
  | cons piece more ih =>
    cases more with
    | nil => rw [List.map_singleton, joinList_singleton, joinList_singleton, filter_trim]
    | cons next more =>
      rw [List.map_cons, List.map_cons, joinList_cons_cons, joinList_cons_cons, List.filter_append,
        List.filter_append, filter_trim, List.filter_cons, List.filter_cons, ← List.map_cons, ih]

/-- A list is cut at a comma with nothing but blanks behind it; `front` stands before the comma. -/
structure EndsInCut (list front : Text) : Prop where
  text : ∃ blanks, (∀ c ∈ blanks, isBlank c = true) ∧ list = front ++ ',' :: blanks
  top : Nesting.through {} front = {}

theorem filter_splitTopLevel_of_endsInCut {list front : Text} (h : EndsInCut list front) :
    (joinList (splitTopLevel list)).filter (!isBlank ·) = front.filter (!isBlank ·) := by
  obtain ⟨blanks, hBlanks, rfl⟩ := h.text
  have hPieces : piecesFrom {} (front ++ ',' :: blanks) = piecesFrom {} front ++ [blanks] := by
    rw [piecesFrom_append_comma h.top, piecesFrom_of_uncut (.of_not_mem {} (not_mem_of_blank hBlanks (by decide)))]
  rw [splitTopLevel_of_concat hPieces, if_pos (trim_eq_nil_iff.mpr hBlanks), List.append_nil,
    filter_joinList_map_trim, joinList_piecesFrom]

theorem filter_splitTopLevel_of_not_endsInCut {list : Text} (h : ∀ front, ¬EndsInCut list front) :
    (joinList (splitTopLevel list)).filter (!isBlank ·) = list.filter (!isBlank ·) := by
  obtain hUncut | ⟨u, v, rfl, hTop, hUncut⟩ := uncut_or_exists_last_cut {} list
  · have hPieces : piecesFrom {} list = [] ++ [list] := piecesFrom_of_uncut hUncut
    rw [splitTopLevel_of_concat hPieces, List.map_nil, List.nil_append, ← filter_trim list]
    split
    · rename_i hBlank
      rw [hBlank]
      rfl
    · rw [joinList_singleton]
  · have hPieces : piecesFrom {} (u ++ ',' :: v) = piecesFrom {} u ++ [v] := by
      rw [piecesFrom_append_comma hTop, piecesFrom_of_uncut hUncut]
    have hSaid : trim v ≠ [] := fun hBlank => h u ⟨⟨v, trim_eq_nil_iff.mp hBlank, rfl⟩, hTop⟩
    have hAll : (piecesFrom {} u).map trim ++ [trim v] = (piecesFrom {} u ++ [v]).map trim := by simp
    rw [splitTopLevel_of_concat hPieces, if_neg hSaid, hAll, filter_joinList_map_trim,
      joinList_concat (piecesFrom_ne_nil {} u), joinList_piecesFrom]

/-- A piece with blanks around it. -/
def IsPadded (piece padded : Text) : Prop :=
  ∃ u v, (∀ c ∈ u, isBlank c = true) ∧ (∀ c ∈ v, isBlank c = true) ∧ padded = u ++ piece ++ v

theorem IsPadded.trim_eq {piece padded : Text} (h : IsPadded piece padded) : trim padded = trim piece := by
  obtain ⟨u, v, hu, hv, rfl⟩ := h
  exact trim_append_of_blank piece hu hv

theorem IsPadded.isPiece {piece padded : Text} (h : IsPadded piece padded) (hPiece : IsPiece piece) :
    IsPiece padded := by
  obtain ⟨u, v, hu, hv, rfl⟩ := h
  exact ((IsPiece.of_blank hu).append hPiece).append (.of_blank hv)

theorem splitTopLevel_eq_nil_iff {list : Text} : splitTopLevel list = [] ↔ ∀ c ∈ list, isBlank c = true := by
  obtain hUncut | ⟨u, v, rfl, hTop, hUncut⟩ := uncut_or_exists_last_cut {} list
  · have hPieces : piecesFrom {} list = [] ++ [list] := piecesFrom_of_uncut hUncut
    rw [splitTopLevel_of_concat hPieces, ← trim_eq_nil_iff]
    simp
  · rw [splitTopLevel_of_append (piecesFrom_append_comma hTop v)]
    refine iff_of_false (by simp [piecesFrom_ne_nil]) fun h => ?_
    exact absurd (h ',' (by simp)) (by decide)

/-- Cutting a list loses nothing but blanks and a comma at its end, and it undoes joining: pieces that
close what they open, with no comma outside brackets, come back trimmed. -/
theorem splitTopLevel_lossless :
    (∀ list : Text,
      (∀ front, EndsInCut list front →
        (joinList (splitTopLevel list)).filter (!isBlank ·) = front.filter (!isBlank ·)) ∧
      ((∀ front, ¬EndsInCut list front) →
        (joinList (splitTopLevel list)).filter (!isBlank ·) = list.filter (!isBlank ·))) ∧
    ∀ pieces padded : List Text,
      (∀ piece ∈ pieces, trim piece ≠ [] ∧ Nesting.through {} piece = {} ∧ Uncut {} piece) →
        List.Forall₂ IsPadded pieces padded → splitTopLevel (joinList padded) = pieces.map trim := by
  refine ⟨fun list => ⟨fun front => filter_splitTopLevel_of_endsInCut,
    filter_splitTopLevel_of_not_endsInCut⟩, ?_⟩
  intro pieces padded hPieces hPadded
  have hAll : (∀ piece ∈ padded, IsPiece piece ∧ trim piece ≠ []) ∧ padded.map trim = pieces.map trim := by
    induction hPadded with
    | nil => exact ⟨by simp, rfl⟩
    | @cons piece next pieces padded hFirst _ ih =>
      obtain ⟨⟨hSaid, hClosed, hUncut⟩, hRest⟩ := List.forall_mem_cons.mp hPieces
      obtain ⟨hMembers, hTrimmed⟩ := ih hRest
      refine ⟨List.forall_mem_cons.mpr ⟨⟨hFirst.isPiece (.of_uncut hUncut hClosed), ?_⟩, hMembers⟩, ?_⟩
      · rwa [hFirst.trim_eq]
      · rw [List.map_cons, List.map_cons, hFirst.trim_eq, hTrimmed]
  rw [splitTopLevel_joinList hAll.1, hAll.2]

theorem splitTopLevel_lossless_callback :
    EndsInCut "int (*f)(a, b),, \t".toList "int (*f)(a, b),".toList ∧
      (joinList (splitTopLevel "int (*f)(a, b),, \t".toList)).filter (!isBlank ·) = "int(*f)(a,b),".toList ∧
      List.Forall₂ IsPadded ["int (*f)(a, b)".toList, "Map<K, V[2]> m".toList]
        ["\tint (*f)(a, b) ".toList, "Map<K, V[2]> m  ".toList] ∧
      splitTopLevel "\tint (*f)(a, b) ,Map<K, V[2]> m  ".toList =
        ["int (*f)(a, b)".toList, "Map<K, V[2]> m".toList] := by
  have hEnds : EndsInCut "int (*f)(a, b),, \t".toList "int (*f)(a, b),".toList :=
    ⟨⟨[' ', '\t'], by decide, rfl⟩, by decide⟩
  have hPadded : List.Forall₂ IsPadded ["int (*f)(a, b)".toList, "Map<K, V[2]> m".toList]
      ["\tint (*f)(a, b) ".toList, "Map<K, V[2]> m  ".toList] :=
    .cons ⟨['\t'], [' '], by decide, by decide, rfl⟩ (.cons ⟨[], [' ', ' '], by decide, by decide, rfl⟩ .nil)
  refine ⟨hEnds, (splitTopLevel_lossless.1 _).1 _ hEnds, hPadded, ?_⟩
  exact (splitTopLevel_lossless.2 _ _ (by decide) hPadded).trans (by decide)

def joinPieces (pieces : List Text) : Text := List.intercalate [',', ' '] pieces

theorem joinPieces_singleton (piece : Text) : joinPieces [piece] = piece := by
  simp [joinPieces, List.intercalate]

theorem joinPieces_cons_cons (piece next : Text) (more : List Text) :
    joinPieces (piece :: next :: more) = piece ++ ',' :: ' ' :: joinPieces (next :: more) := by
  simp [joinPieces, List.intercalate]

theorem suffix_joinPieces (pieces : List Text) (piece : Text) : piece <:+ joinPieces (pieces ++ [piece]) := by
  induction pieces with
  | nil => exact ⟨[], (joinPieces_singleton piece).symm⟩
  | cons first more ih =>
    obtain ⟨next, rest, hRest⟩ := List.exists_cons_of_ne_nil (List.append_ne_nil_of_right_ne_nil more
      (List.cons_ne_nil piece []))
    rw [List.cons_append, hRest, joinPieces_cons_cons, ← hRest]
    exact (ih.trans (List.suffix_append [',', ' '] _)).trans (List.suffix_append first _)

theorem joinPieces_eq_joinList (piece : Text) (more : List Text) :
    joinPieces (piece :: more) = joinList (piece :: more.map (' ' :: ·)) := by
  induction more generalizing piece with
  | nil => rw [joinPieces_singleton, List.map_nil, joinList_singleton]
  | cons next more ih =>
    have hNext : joinList ((' ' :: next) :: more.map (' ' :: ·)) = ' ' :: joinList (next :: more.map (' ' :: ·)) :=
      joinList_append_cons [' '] next _
    rw [joinPieces_cons_cons, ih, List.map_cons, joinList_cons_cons, hNext]

theorem splitTopLevel_joinPieces {pieces : List Text}
    (h : ∀ piece ∈ pieces, IsPiece piece ∧ Trimmed piece ∧ piece ≠ []) :
    splitTopLevel (joinPieces pieces) = pieces := by
  cases pieces with
  | nil => rfl
  | cons piece more =>
    obtain ⟨hFirst, hMore⟩ := List.forall_mem_cons.mp h
    have hSpaced : ∀ next ∈ more, IsPiece (' ' :: next) ∧ trim (' ' :: next) = next := by
      intro next hNext
      obtain ⟨hPiece, hTrimmed, -⟩ := hMore next hNext
      exact ⟨(IsPiece.of_blank (s := [' ']) (by decide)).append hPiece, trim_space_cons hTrimmed⟩
    rw [joinPieces_eq_joinList, splitTopLevel_joinList, List.map_cons, trim_eq_self hFirst.2.1, List.map_map]
    · congr 1
      exact (List.map_congr_left fun next hNext => (hSpaced next hNext).2).trans (List.map_id more)
    · rw [List.forall_mem_cons, List.forall_mem_map]
      refine ⟨⟨hFirst.1, ?_⟩, fun next hNext => ⟨(hSpaced next hNext).1, ?_⟩⟩
      · rw [trim_eq_self hFirst.2.1]
        exact hFirst.2.2
      · rw [(hSpaced next hNext).2]
        exact (hMore next hNext).2.2

end HeaderDigest
