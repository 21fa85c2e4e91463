import HeaderDigest.Proofs.DataType.Record
import HeaderDigest.Proofs.Text.WordBounds

/-!
# Tags

A tag is the word behind one of the keywords `struct`, `enum` and `union`. A text names the tags
that stand anywhere in it, whatever they stand there for, and the search for the word behind a
keyword gives the first one.
-/

namespace HeaderDigest

open Text

/-- Whether a text begins with a keyword, blanks and a whole word, the tag. -/
def BeginsTag (keyword tag s : Text) : Prop :=
  ∃ b blanks rest, isBlank b = true ∧ (∀ c ∈ blanks, isBlank c = true) ∧ IsWordRun tag ∧
    startsWord rest = false ∧ s = keyword ++ b :: (blanks ++ (tag ++ rest))

/-- Whether a keyword begins a word between two texts, with a tag behind it. -/
structure TagAt (keyword tag before behind : Text) : Prop where
  beginsWord : endsWord before = false
  beginsTag : BeginsTag keyword tag behind

def NamesTag (keyword tag s : Text) : Prop :=
  ∃ before behind, TagAt keyword tag before behind ∧ s = before ++ behind

/-- Whether a tag is the first of its keyword. -/
def FirstTag (keyword tag s : Text) : Prop :=
  ∃ before behind, TagAt keyword tag before behind ∧ s = before ++ behind ∧
    ∀ before' behind' tag', TagAt keyword tag' before' behind' → s = before' ++ behind' →
      before.length ≤ before'.length

variable {keyword tag s : Text}

theorem FirstTag.namesTag (h : FirstTag keyword tag s) : NamesTag keyword tag s := by
  obtain ⟨before, behind, hTag, hText, -⟩ := h
  exact ⟨before, behind, hTag, hText⟩

theorem IsWordRun.isBlank (h : IsWordRun tag) {c : Char} (hc : c ∈ tag) : isBlank c = false :=
  isBlank_eq_false_of_isWordChar (h.2 c hc)

theorem IsWordRun.startsBlank_append (h : IsWordRun tag) (s : Text) : startsBlank (tag ++ s) = false := by
  obtain ⟨c, rest, rfl⟩ := List.exists_cons_of_ne_nil h.1
  exact h.isBlank List.mem_cons_self

theorem IsWordRun.endsBlank (h : IsWordRun tag) : endsBlank tag = false := by
  rw [Text.endsBlank, List.getLast?_eq_some_getLast h.1, Option.any_some]
  exact h.isBlank (List.getLast_mem h.1)

theorem IsWordRun.takeWhile_append (h : IsWordRun tag) {rest : Text} (hRest : startsWord rest = false) :
    (trimStart (tag ++ rest)).takeWhile isWordChar = tag := by
  rw [trimStart_eq_self (h.startsBlank_append rest), takeWhile_append_of_bounds hRest,
    List.takeWhile_eq_self_iff.mpr h.2]

theorem IsWordRun.nonEmpty? (h : IsWordRun tag) : nonEmpty? tag = some tag := by
  rw [HeaderDigest.nonEmpty?, if_neg]
  exact fun hNil => h.1 (List.isEmpty_iff.mp hNil)

theorem wordAfter?_eq_some_iff : wordAfter? keyword s = some tag ↔ BeginsTag keyword tag s := by
  constructor
  · intro h
    unfold wordAfter? at h
    split at h
    · rename_i c rest hDrop
      split at h
      · rename_i hBlank
        obtain ⟨hNe, rfl⟩ := nonEmpty?_eq_some h
        obtain ⟨blanks, hBlanks, hRest⟩ := exists_eq_append_trimStart rest
        refine ⟨c, blanks, (trimStart rest).dropWhile isWordChar, hBlank, hBlanks, isWordRun_takeWhile hNe,
          startsWord_dropWhile _, ?_⟩
        rw [List.takeWhile_append_dropWhile, ← hRest, ← eq_append_of_dropPrefix? hDrop]
      · cases h
    · cases h
  · rintro ⟨b, blanks, rest, hBlank, hBlanks, hTag, hRest, rfl⟩
    simp only [wordAfter?, dropPrefix?_append, if_pos hBlank]
    rw [trimStart_append_of_blank _ hBlanks, hTag.takeWhile_append hRest, hTag.nonEmpty?]

theorem findWordAfter?_cons (keyword : Text) (afterWord : Bool) (c : Char) (s : Text) :
    findWordAfter? keyword afterWord (c :: s) =
      (if afterWord then none else wordAfter? keyword (c :: s)).or
        (findWordAfter? keyword (isWordChar c) s) := by
  rw [findWordAfter?]
  split
  · rename_i hFound
    rw [hFound, Option.some_or]
  · rename_i hNone
    rw [hNone, Option.none_or]

/-- No tag begins where the search finds none. -/
theorem not_tagAt_of_wordAfter? {u : Text} (h : (if endsWord u then none else wordAfter? keyword s) = none) :
    ¬TagAt keyword tag u s := by
  rintro ⟨hWord, hTag⟩
  rw [hWord, if_neg Bool.false_ne_true, wordAfter?_eq_some_iff.mpr hTag] at h
  cases h

/-- `u` is what stands before the text. -/
theorem findWordAfter?_eq_none_iff_behind (u s : Text) :
    findWordAfter? keyword (endsWord u) s = none ↔
      ∀ before behind tag, TagAt keyword tag (u ++ before) behind → s ≠ before ++ behind := by
  induction s generalizing u with
  | nil =>
    refine ⟨fun _ before behind tag hTag hText => ?_, fun _ => rfl⟩
    obtain ⟨b, blanks, rest, -, -, -, -, rfl⟩ := hTag.beginsTag
    simp at hText
  | cons c s ih =>
    rw [findWordAfter?_cons, Option.or_eq_none_iff, ← endsWord_concat u c, ih (u ++ [c])]
    constructor
    · rintro ⟨hHere, hLater⟩ before behind tag hTag hText
      cases before with
      | nil =>
        rw [List.nil_append] at hText
        rw [List.append_nil, ← hText] at hTag
        exact not_tagAt_of_wordAfter? hHere hTag
      | cons d before =>
        obtain ⟨rfl, hRest⟩ := List.cons.inj hText
        rw [← List.singleton_append, ← List.append_assoc] at hTag
        exact hLater before behind tag hTag hRest
    · intro h
      constructor
      · split
        · rfl
        · rename_i hOutside
          rw [Option.eq_none_iff_forall_ne_some]
          intro tag hFound
          refine h [] (c :: s) tag ⟨?_, wordAfter?_eq_some_iff.mp hFound⟩ rfl
          rw [List.append_nil]
          exact Bool.eq_false_iff.mpr hOutside
      · rintro before behind tag hTag rfl
        rw [List.append_assoc] at hTag
        exact h (c :: before) behind tag hTag rfl

theorem exists_of_findWordAfter? {u s : Text} (h : findWordAfter? keyword (endsWord u) s = some tag) :
    ∃ before behind, TagAt keyword tag (u ++ before) behind ∧ s = before ++ behind ∧
      ∀ before' behind' tag', TagAt keyword tag' (u ++ before') behind' → s = before' ++ behind' →
        before.length ≤ before'.length := by
  induction s generalizing u with
  | nil => cases h
  | cons c s ih =>
    rw [findWordAfter?_cons, Option.or_eq_some_iff] at h
    obtain hHere | ⟨hHere, hLater⟩ := h
    · split at hHere
      · cases hHere
      · rename_i hOutside
        refine ⟨[], c :: s, ⟨?_, wordAfter?_eq_some_iff.mp hHere⟩, rfl, fun _ _ _ _ _ => Nat.zero_le _⟩
        rw [List.append_nil]
        exact Bool.eq_false_iff.mpr hOutside
    · rw [← endsWord_concat u c] at hLater
      obtain ⟨before, behind, hTag, rfl, hFirst⟩ := ih hLater
      rw [List.append_assoc] at hTag
      refine ⟨c :: before, behind, hTag, rfl, fun before' behind' tag' hTag' hText => ?_⟩
      cases before' with
      | nil =>
        rw [List.nil_append] at hText
        rw [List.append_nil, ← hText] at hTag'
        exact absurd hTag' (not_tagAt_of_wordAfter? hHere)
      | cons d before' =>
        obtain ⟨rfl, hRest⟩ := List.cons.inj hText
        rw [← List.singleton_append, ← List.append_assoc] at hTag'
        exact Nat.succ_le_succ (hFirst before' behind' tag' hTag' hRest)

theorem findWordAfter?_eq_none_iff :
    findWordAfter? keyword false s = none ↔ ∀ tag, ¬NamesTag keyword tag s := by
  have h := @findWordAfter?_eq_none_iff_behind keyword [] s
  constructor
  · rintro hNone tag ⟨before, behind, hTag, hText⟩
    exact h.mp hNone before behind tag hTag hText
  · intro hNone
    exact h.mpr fun before behind tag hTag hText => hNone tag ⟨before, behind, hTag, hText⟩

theorem FirstTag.eq {tag' : Text} (h : FirstTag keyword tag s) (h' : FirstTag keyword tag' s) :
    tag = tag' := by
  obtain ⟨before, behind, hTag, hText, hFirst⟩ := h
  obtain ⟨before', behind', hTag', hText', hFirst'⟩ := h'
  have hLength : before.length = before'.length :=
    Nat.le_antisymm (hFirst _ _ _ hTag' hText') (hFirst' _ _ _ hTag hText)
  obtain ⟨rfl, rfl⟩ := List.append_inj (hText.symm.trans hText') hLength
  exact Option.some.inj ((wordAfter?_eq_some_iff.mpr hTag.beginsTag).symm.trans
    (wordAfter?_eq_some_iff.mpr hTag'.beginsTag))

theorem findWordAfter?_eq_some_iff :
    findWordAfter? keyword false s = some tag ↔ FirstTag keyword tag s := by
  have hFirst {tag : Text} (h : findWordAfter? keyword false s = some tag) : FirstTag keyword tag s :=
    exists_of_findWordAfter? (u := []) h
  refine ⟨hFirst, fun h => ?_⟩
  cases hFound : findWordAfter? keyword false s with
  | none => exact absurd h.namesTag (findWordAfter?_eq_none_iff.mp hFound tag)
  | some tag' => rw [(hFirst hFound).eq h]

/-- The tag that one of the first rules takes from a seed line, whatever the declaration says. -/
def tagIn? (s : Text) : Option (TypeKind × Text) :=
  [TypeKind.struct, .enum, .union].findSome? fun kind =>
    (findWordAfter? kind.keyword false s).map fun tag => (kind, tag)

theorem tagIn?_eq_none_iff :
    tagIn? s = none ↔ ∀ kind ≠ TypeKind.typedef, ∀ tag, ¬NamesTag kind.keyword tag s := by
  rw [tagIn?, List.findSome?_eq_none_iff]
  simp only [Option.map_eq_none_iff, findWordAfter?_eq_none_iff]
  refine forall_congr' fun kind => ?_
  cases kind <;> simp

theorem firstTag_of_tagIn? {kind : TypeKind} (h : tagIn? s = some (kind, tag)) :
    kind ≠ .typedef ∧ FirstTag kind.keyword tag s := by
  obtain ⟨kind', hMem, hFound⟩ := List.exists_of_findSome?_eq_some h
  obtain ⟨tag', hTag, hPair⟩ := Option.map_eq_some_iff.mp hFound
  cases hPair
  refine ⟨?_, findWordAfter?_eq_some_iff.mp hTag⟩
  rintro rfl
  exact absurd hMem (by decide)

end HeaderDigest
