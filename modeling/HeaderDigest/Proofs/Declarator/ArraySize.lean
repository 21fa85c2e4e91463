import HeaderDigest.Proofs.Declarator.ParameterList

/-!
# Array sizes in a parameter list

The size of an array stands in square brackets, and no comma in it cuts the list. But the angle
brackets in it count like those of a template, so `1 << 4` and `p->n` leave some open or closed for the
rest of the list. Another size leaves the other parts alone just when it has the same surplus of angle
brackets, or nothing comes behind.
-/

namespace HeaderDigest

open Text

/-- The parts that come behind the one in which a text begins at `nesting`. -/
def partsBehind (nesting : Nesting) : Text → List Text
  | [] => []
  | c :: rest =>
    if c = ',' && nesting.isTop then splitTopLevel rest else partsBehind (nesting.feed c) rest

variable {nesting nesting' : Nesting} {u v rest : Text}

theorem partsBehind_of_uncut (h : Uncut nesting rest) : partsBehind nesting rest = [] := by
  induction rest generalizing nesting with
  | nil => rfl
  | cons c rest ih =>
    obtain ⟨hFirst, hRest⟩ := uncut_cons_iff.mp h
    rw [partsBehind, hFirst]
    exact ih hRest

theorem partsBehind_append_comma (h : Uncut nesting u) (hTop : nesting.through u = {}) (v : Text) :
    partsBehind nesting (u ++ ',' :: v) = splitTopLevel v := by
  induction u generalizing nesting with
  | nil =>
    obtain rfl : nesting = {} := hTop
    rfl
  | cons c u ih =>
    obtain ⟨hFirst, hRest⟩ := uncut_cons_iff.mp h
    rw [List.cons_append, partsBehind, hFirst]
    exact ih hRest hTop

/-- What follows a text leaves the parts before its last one alone. -/
theorem exists_splitTopLevel_append {s last : Text} {init : List Text}
    (h : piecesFrom {} s = init ++ [last]) (hSaid : ∃ c ∈ last, isBlank c = false) (rest : Text) :
    ∃ more, splitTopLevel (s ++ rest) =
      init.map trim ++ trim (last ++ more) :: partsBehind (Nesting.through {} s) rest := by
  have hTrim (more : Text) : trim (last ++ more) ≠ [] := by
    obtain ⟨c, hc, hBlank⟩ := hSaid
    intro hNil
    rw [trim_eq_nil_iff.mp hNil c (List.mem_append_left more hc)] at hBlank
    cases hBlank
  have hPieces := piecesFrom_append h rest
  obtain hUncut | ⟨u, v, rfl, hUncut, hTop⟩ := uncut_or_exists_first_cut (Nesting.through {} s) rest
  · rw [piecesFrom_of_uncut hUncut, List.modifyHead_cons] at hPieces
    exact ⟨rest, by rw [splitTopLevel_of_concat hPieces, if_neg (hTrim rest), partsBehind_of_uncut hUncut]⟩
  · rw [piecesFrom_append_comma hTop, piecesFrom_of_uncut hUncut] at hPieces
    have hCut : piecesFrom {} (s ++ (u ++ ',' :: v)) = (init ++ [last ++ u]) ++ piecesFrom {} v := by
      rw [hPieces, List.append_assoc]
      rfl
    refine ⟨u, ?_⟩
    rw [splitTopLevel_of_append hCut, partsBehind_append_comma hUncut hTop, List.map_append, List.append_assoc]
    rfl

/-- No comma with something behind it cuts. -/
def NothingBehind (nesting : Nesting) (rest : Text) : Prop :=
  ∀ u v, rest = u ++ ',' :: v → nesting.through u = {} → ∀ c ∈ v, isBlank c = true

theorem partsBehind_eq_nil_iff : partsBehind nesting rest = [] ↔ NothingBehind nesting rest := by
  obtain hUncut | ⟨u, v, rfl, hUncut, hTop⟩ := uncut_or_exists_first_cut nesting rest
  · refine iff_of_true (partsBehind_of_uncut hUncut) fun u v hText hTop => ?_
    exact absurd (Nesting.isTop_iff.mpr hTop) (Bool.eq_false_iff.mp (hUncut u v hText))
  · rw [partsBehind_append_comma hUncut hTop, splitTopLevel_eq_nil_iff]
    refine ⟨fun hBlank u' v' hText hTop' => ?_, fun h => h u v rfl hTop⟩
    obtain ⟨rfl, rfl⟩ | ⟨w, rfl, rfl⟩ | ⟨w, rfl, rfl⟩ := append_cons_eq_append_cons hText
    · exact hBlank
    · exact fun c hc => hBlank c (by simp [hc])
    · exact absurd (Nesting.isTop_iff.mpr hTop') (Bool.eq_false_iff.mp (hUncut u' w rfl))

/-- How much of a list its parts hold. -/
theorem length_filter_splitTopLevel (list : Text) :
    ((joinList (splitTopLevel list)).filter (!isBlank ·)).length ≤ (list.filter (!isBlank ·)).length ∧
      (list.filter (!isBlank ·)).length ≤ ((joinList (splitTopLevel list)).filter (!isBlank ·)).length + 1 := by
  by_cases h : ∃ front, EndsInCut list front
  · obtain ⟨front, hEnds⟩ := h
    rw [filter_splitTopLevel_of_endsInCut hEnds]
    obtain ⟨⟨blanks, hBlanks, rfl⟩, -⟩ := hEnds
    have hNil : blanks.filter (!isBlank ·) = [] := by
      rw [List.filter_eq_nil_iff]
      intro c hc
      simp [hBlanks c hc]
    rw [List.filter_append, List.filter_cons, hNil, List.length_append]
    simp [show isBlank ',' = false from rfl]
  · rw [filter_splitTopLevel_of_not_endsInCut fun front hEnds => h ⟨front, hEnds⟩]
    omega

/-- If two cuts leave the same parts, then nothing stands between them. -/
theorem eq_of_splitTopLevel_append_eq (hTop : nesting.through u = {})
    (hTop' : nesting'.through (u ++ ',' :: v) = {})
    (h : splitTopLevel (v ++ ',' :: rest) = splitTopLevel rest) : nesting = nesting' := by
  have hBlank : ∀ c ∈ v, isBlank c = true := by
    have hMore := (length_filter_splitTopLevel (v ++ ',' :: rest)).2
    have hLess := (length_filter_splitTopLevel rest).1
    rw [h, List.filter_append, List.filter_cons, if_pos (by decide), List.length_append, List.length_cons] at hMore
    have hNone : (v.filter (!isBlank ·)).length = 0 := by omega
    simpa using hNone
  have hSame : nesting.through (u ++ ',' :: v) = {} := by
    have hComma : Nesting.through {} (',' :: v) = Nesting.through {} v := rfl
    rw [Nesting.through_append, hTop, hComma, Nesting.through_of_blank {} hBlank]
  exact Nesting.through_inj (hSame.trans hTop'.symm)

/-- Where a text begins at different nestings, it has the same parts behind only if it has none. -/
theorem partsBehind_eq_iff : partsBehind nesting rest = partsBehind nesting' rest ↔
    nesting = nesting' ∨ (NothingBehind nesting rest ∧ NothingBehind nesting' rest) := by
  rw [← partsBehind_eq_nil_iff, ← partsBehind_eq_nil_iff]
  constructor
  · intro h
    obtain hUncut | ⟨u, v, hText, hUncut, hTop⟩ := uncut_or_exists_first_cut nesting rest
    · exact Or.inr ⟨partsBehind_of_uncut hUncut, h ▸ partsBehind_of_uncut hUncut⟩
    obtain hUncut' | ⟨u', v', hText', hUncut', hTop'⟩ := uncut_or_exists_first_cut nesting' rest
    · exact Or.inr ⟨h ▸ partsBehind_of_uncut hUncut', partsBehind_of_uncut hUncut'⟩
    left
    have hParts : splitTopLevel v = splitTopLevel v' := by
      have hFirst := partsBehind_append_comma hUncut hTop v
      have hSecond := partsBehind_append_comma hUncut' hTop' v'
      rw [← hText] at hFirst
      rw [← hText'] at hSecond
      exact hFirst.symm.trans (h.trans hSecond)
    obtain ⟨rfl, -⟩ | ⟨w, rfl, rfl⟩ | ⟨w, rfl, rfl⟩ := append_cons_eq_append_cons (hText.symm.trans hText')
    · exact Nesting.through_inj (hTop.trans hTop'.symm)
    · exact eq_of_splitTopLevel_append_eq hTop hTop' hParts
    · exact (eq_of_splitTopLevel_append_eq hTop' hTop hParts.symm).symm
  · rintro (rfl | ⟨hNil, hNil'⟩)
    · rfl
    · rw [hNil, hNil']

/-- A list in which a parameter has an array size, between what stands before it and behind it. -/
def sizedList (front size rest : Text) : Text := front ++ '[' :: size ++ ']' :: rest

/-- The number of the part that a text ends in. -/
def partNumber (front : Text) : Nat := (piecesFrom {} front).length - 1

/-- What is open behind the size. -/
def openBehindSize (front size : Text) : Nesting := Nesting.through {} (front ++ '[' :: size ++ [']'])

/-- A size that stands in one part of the list: it closes the round and square brackets that it opens,
and no comma in it cuts. -/
structure IsSizeBehind (front size : Text) : Prop where
  parens : balance '(' ')' size = 0
  squares : balance '[' ']' size = 0
  uncut : Uncut (Nesting.through {} (front ++ ['['])) size

/-- Without brackets and commas, but for angle brackets, anything is a size anywhere. -/
theorem IsSizeBehind.of_plain {size : Text} (h : ∀ c ∈ ['(', ')', '[', ']', ','], c ∉ size) (front : Text) :
    IsSizeBehind front size where
  parens := balance_eq_zero (by decide) (.of_not_mem (h _ (by decide)) (h _ (by decide)))
  squares := balance_eq_zero (by decide) (.of_not_mem (h _ (by decide)) (h _ (by decide)))
  uncut := .of_not_mem _ (h _ (by decide))

/-- Two lists of parts that differ in the part `i` at most. -/
structure SameBut (i : Nat) (parts parts' : List Text) : Prop where
  length : parts.length = parts'.length
  others : ∀ j, j ≠ i → parts[j]? = parts'[j]?

theorem sameBut_append_cons_iff {init more more' : List Text} {part part' : Text} :
    SameBut init.length (init ++ part :: more) (init ++ part' :: more') ↔ more = more' := by
  constructor
  · rintro ⟨-, hOthers⟩
    apply List.ext_getElem?
    intro j
    have hBehind := hOthers (init.length + (j + 1)) (by omega)
    rwa [List.getElem?_append_right (by omega), List.getElem?_append_right (by omega),
      Nat.add_sub_cancel_left, List.getElem?_cons_succ, List.getElem?_cons_succ] at hBehind
  · rintro rfl
    refine ⟨by simp, fun j hj => ?_⟩
    obtain hLess | hMore := Nat.lt_or_gt_of_ne hj
    · rw [List.getElem?_append_left hLess, List.getElem?_append_left hLess]
    · obtain ⟨k, rfl⟩ := Nat.exists_eq_add_of_lt hMore
      rw [List.getElem?_append_right (by omega), List.getElem?_append_right (by omega), Nat.add_assoc,
        Nat.add_sub_cancel_left, List.getElem?_cons_succ, List.getElem?_cons_succ]

section

variable {front size size' : Text}

theorem IsSizeBehind.piecesFrom_append {init : List Text} {last : Text} (h : IsSizeBehind front size)
    (hFront : piecesFrom {} front = init ++ [last]) :
    piecesFrom {} (front ++ '[' :: size ++ [']']) = init ++ [last ++ '[' :: size ++ [']']] := by
  have hUncut : Uncut (Nesting.through {} front) ('[' :: size ++ [']']) := by
    have hOpen := h.uncut
    rw [Nesting.through_append] at hOpen
    rw [uncut_append_iff, uncut_cons_iff]
    exact ⟨⟨by simp, hOpen⟩, .of_not_mem _ (by decide)⟩
  rw [List.append_assoc, HeaderDigest.piecesFrom_append hFront, piecesFrom_of_uncut hUncut, List.modifyHead_cons,
    List.append_assoc]

/-- The parts of a list with a size. -/
theorem IsSizeBehind.exists_splitTopLevel (h : IsSizeBehind front size) (rest : Text) {init : List Text}
    {last : Text} (hFront : piecesFrom {} front = init ++ [last]) :
    ∃ u v, splitTopLevel (sizedList front size rest) =
      init.map trim ++ (u ++ '[' :: size ++ ']' :: v) :: partsBehind (openBehindSize front size) rest := by
  obtain ⟨more, hParts⟩ := exists_splitTopLevel_append (h.piecesFrom_append hFront) ⟨'[', by simp, rfl⟩ rest
  have hText : last ++ '[' :: size ++ [']'] ++ more = last ++ '[' :: (size ++ ']' :: more) := by simp
  have hPart : trim (last ++ '[' :: size ++ [']'] ++ more) =
      trimStart last ++ '[' :: size ++ ']' :: trimEnd more := by
    rw [hText, trim_append_cons rfl, trimEnd_append_cons rfl, List.append_assoc, List.cons_append]
  refine ⟨trimStart last, trimEnd more, ?_⟩
  rw [← hPart, openBehindSize, ← hParts, sizedList]
  simp

/-- Two sizes leave the same brackets open just when they have the same surplus of angle brackets. -/
theorem openBehindSize_eq_iff (h : IsSizeBehind front size) (h' : IsSizeBehind front size') :
    openBehindSize front size = openBehindSize front size' ↔ balance '<' '>' size = balance '<' '>' size' := by
  have hBalance (opening closing : Char) (s : Text) : balance opening closing (front ++ '[' :: s ++ [']']) =
      balance opening closing front + balance opening closing ['['] + balance opening closing s +
        balance opening closing [']'] := by
    rw [balance_append, balance_append, balance_cons]
    omega
  rw [openBehindSize, openBehindSize, Nesting.through_eq, Nesting.through_eq, Nesting.mk.injEq]
  simp only [hBalance, h.parens, h'.parens, h.squares, h'.squares, true_and]
  omega

/-- Another size leaves the number of parts and the other parts of a list as they are just when it has
the same surplus of angle brackets, or no comma behind either size cuts anything off. -/
theorem splitTopLevel_resized (h : IsSizeBehind front size) (h' : IsSizeBehind front size') (rest : Text) :
    (∃ u v, (splitTopLevel (sizedList front size rest))[partNumber front]? =
      some (u ++ '[' :: size ++ ']' :: v)) ∧
    (SameBut (partNumber front) (splitTopLevel (sizedList front size rest))
        (splitTopLevel (sizedList front size' rest)) ↔
      balance '<' '>' size = balance '<' '>' size' ∨
        (NothingBehind (openBehindSize front size) rest ∧ NothingBehind (openBehindSize front size') rest)) := by
  obtain hNil | ⟨init, last, hFront⟩ := List.eq_nil_or_concat' (piecesFrom {} front)
  · exact absurd hNil (piecesFrom_ne_nil {} front)
  have hNumber : partNumber front = (init.map trim).length := by
    rw [partNumber, hFront, List.length_append, List.length_singleton, Nat.add_sub_cancel, List.length_map]
  obtain ⟨u, v, hParts⟩ := h.exists_splitTopLevel rest hFront
  obtain ⟨u', v', hParts'⟩ := h'.exists_splitTopLevel rest hFront
  rw [hParts, hParts', hNumber]
  refine ⟨⟨u, v, by rw [List.getElem?_append_right (Nat.le_refl _), Nat.sub_self, List.getElem?_cons_zero]⟩, ?_⟩
  rw [sameBut_append_cons_iff, partsBehind_eq_iff, openBehindSize_eq_iff h h']

end

/-- Two sizes with one `<` more than `>`. -/
theorem splitTopLevel_resized_shift :
    IsSizeBehind "Map<K, V> m, int a".toList "p->n << 1".toList ∧
      IsSizeBehind "Map<K, V> m, int a".toList "max(x, y) < 8".toList ∧
      SameBut 1 ["Map<K, V> m".toList, "int a[p->n << 1], B<C, D>> b".toList, "int c".toList]
        ["Map<K, V> m".toList, "int a[max(x, y) < 8], B<C, D>> b".toList, "int c".toList] := by
  have hShift : IsSizeBehind "Map<K, V> m, int a".toList "p->n << 1".toList := .of_plain (by decide) _
  have hCall : IsSizeBehind "Map<K, V> m, int a".toList "max(x, y) < 8".toList :=
    ⟨by decide, by decide, by decide⟩
  exact ⟨hShift, hCall,
    (splitTopLevel_resized hShift hCall ", B<C, D>> b, int c".toList).2.mpr (Or.inl (by decide))⟩

/-- The size `1 << 4` takes the next parameter into its own part. -/
theorem not_forall_splitTopLevel_resized :
    ¬∀ front size size' rest : Text, (∀ c ∈ ['(', ')', '[', ']', ','], c ∉ size) →
      (∀ c ∈ ['(', ')', '[', ']', ','], c ∉ size') → SameBut (partNumber front)
        (splitTopLevel (sizedList front size rest)) (splitTopLevel (sizedList front size' rest)) := by
  intro h
  have hLength := (h "int a".toList "2".toList "1 << 4".toList ", int b".toList (by decide) (by decide)).length
  exact absurd hLength (by decide)

end HeaderDigest
