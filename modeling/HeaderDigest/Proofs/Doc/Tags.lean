import HeaderDigest.Doc.Reader
import HeaderDigest.Proofs.Text.Parts
import HeaderDigest.Proofs.Text.Spacing

/-!
# Splitting prose at its tags

Prose whose words are known is split word by word. A group is a tag with the words that belong to
it; prose that is made of groups is split into these, of which each but the last keeps the space
behind it.
-/

namespace HeaderDigest

open Text

namespace Doc

def isTagStart : Text → Bool
  | '@' :: c :: _ => isNameStart c
  | _ => false

/-- A word that says no more than itself: it begins no tag and does not close the block. -/
structure IsProseWord (w : Text) : Prop where
  word : IsWord w
  noTag : isTagStart w = false
  noCloser : hasPart ['*', '/'] w = false

instance (w : Text) : Decidable (IsProseWord w) :=
  decidable_of_iff (IsWord w ∧ isTagStart w = false ∧ hasPart ['*', '/'] w = false)
    ⟨fun ⟨word, noTag, noCloser⟩ => ⟨word, noTag, noCloser⟩,
      fun ⟨word, noTag, noCloser⟩ => ⟨word, noTag, noCloser⟩⟩

/-- A tag and its words. The tag is without its `@`. -/
structure IsGroup (name : Text) (ws : List Text) : Prop where
  word : IsWord name
  nameStart : ∀ c ∈ name.head?, isNameStart c = true
  words : ∀ w ∈ ws, IsProseWord w

/-- The groups as they stand behind their `@` in prose. -/
def groupTexts : List (Text × List Text) → List Text
  | [] => []
  | [group] => [joinWords (group.1 :: group.2)]
  | group :: next :: more => (joinWords (group.1 :: group.2) ++ [' ']) :: groupTexts (next :: more)

def groupProse (groups : List (Text × List Text)) : Text :=
  joinWords (groups.map fun group => '@' :: joinWords (group.1 :: group.2))

def startsName (s : Text) : Bool := s.head?.any isNameStart

theorem splitTags_cons (fresh : Bool) (c : Char) (s : Text) :
    splitTags fresh (c :: s) =
      if fresh && c = '@' && startsName s then
        ([], (splitTags (isBlank c) s).1 :: (splitTags (isBlank c) s).2)
      else (c :: (splitTags (isBlank c) s).1, (splitTags (isBlank c) s).2) := by
  cases s <;> rfl

theorem splitTags_space (s : Text) :
    splitTags false (' ' :: s) = (' ' :: (splitTags true s).1, (splitTags true s).2) :=
  splitTags_cons false ' ' s

/-- A word is passed over as a whole, unless a tag begins with it. -/
theorem splitTags_word {w tail : Text} {fresh : Bool} (hWord : IsWord w)
    (hTag : fresh = true → isTagStart w = false) (hTail : ∀ c ∈ tail.head?, isBlank c = true) :
    splitTags fresh (w ++ tail) = (w ++ (splitTags false tail).1, (splitTags false tail).2) := by
  obtain ⟨hNe, hBlank⟩ := hWord
  induction w generalizing fresh with
  | nil => exact absurd rfl hNe
  | cons c w ih =>
    have hc : isBlank c = false := hBlank c List.mem_cons_self
    have hNoTag : (fresh && c = '@' && startsName (w ++ tail)) = false := by
      rw [Bool.eq_false_iff]
      intro h
      simp only [Bool.and_eq_true, decide_eq_true_eq] at h
      obtain ⟨⟨hFresh, rfl⟩, hStart⟩ := h
      cases w with
      | cons d w => exact absurd (hStart.symm.trans (hTag hFresh)) (by decide)
      | nil =>
        cases tail with
        | nil => cases hStart
        | cons d tail =>
          have hWordChar := isWordChar_of_isNameStart d hStart
          rw [isWordChar_eq_false_of_isBlank d (hTail d rfl)] at hWordChar
          cases hWordChar
    rw [List.cons_append, splitTags_cons, hNoTag, hc]
    cases w with
    | nil => rfl
    | cons d w =>
      have hInside : false = true → isTagStart (d :: w) = false := fun h => by cases h
      rw [ih hInside (List.cons_ne_nil d w) fun e he => hBlank e (List.mem_cons_of_mem c he)]
      rfl

theorem splitTags_words {ws : List Text} {tail : Text} (hNe : ws ≠ []) (h : ∀ w ∈ ws, IsProseWord w)
    (hTail : ∀ c ∈ tail.head?, isBlank c = true) :
    splitTags true (joinWords ws ++ tail) =
      (joinWords ws ++ (splitTags false tail).1, (splitTags false tail).2) := by
  induction ws with
  | nil => exact absurd rfl hNe
  | cons w ws ih =>
    have hw := h w List.mem_cons_self
    cases ws with
    | nil =>
      rw [joinWords_singleton]
      exact splitTags_word hw.word (fun _ => hw.noTag) hTail
    | cons v ws =>
      have hRest := ih (List.cons_ne_nil v ws) fun u hu => h u (List.mem_cons_of_mem w hu)
      rw [joinWords_cons_cons, List.append_assoc, List.cons_append,
        splitTags_word hw.word (fun _ => hw.noTag) (by rintro c ⟨⟩; rfl), splitTags_space, hRest]
      simp

theorem splitTags_group {name tail : Text} {ws : List Text} (h : IsGroup name ws)
    (hTail : ∀ c ∈ tail.head?, isBlank c = true) :
    splitTags true ('@' :: joinWords (name :: ws) ++ tail) =
      ([], (joinWords (name :: ws) ++ (splitTags false tail).1) :: (splitTags false tail).2) := by
  have hName : splitTags false (joinWords (name :: ws) ++ tail) =
      (joinWords (name :: ws) ++ (splitTags false tail).1, (splitTags false tail).2) := by
    cases ws with
    | nil =>
      rw [joinWords_singleton]
      exact splitTags_word h.word (by simp) hTail
    | cons v ws =>
      rw [joinWords_cons_cons, List.append_assoc, List.cons_append,
        splitTags_word h.word (by simp) (by rintro c ⟨⟩; rfl), splitTags_space,
        splitTags_words (List.cons_ne_nil v ws) h.words hTail]
      simp
  obtain ⟨c, rest, hCons⟩ := List.exists_cons_of_ne_nil h.word.1
  have hStart : isNameStart c = true := h.nameStart c (by rw [hCons]; rfl)
  have hText : ∃ more, joinWords (name :: ws) ++ tail = c :: more := by
    rw [hCons]
    cases ws with
    | nil => exact ⟨rest ++ tail, by rw [joinWords_singleton]; rfl⟩
    | cons v ws => exact ⟨_, by rw [joinWords_cons_cons]; rfl⟩
  obtain ⟨more, hMore⟩ := hText
  have hAt : isBlank '@' = false := by decide
  have hTag : startsName (joinWords (name :: ws) ++ tail) = true := by
    rw [hMore]
    exact hStart
  rw [List.cons_append, splitTags_cons, hAt, hName, hTag]
  rfl

theorem splitTags_groupProse {groups : List (Text × List Text)}
    (h : ∀ group ∈ groups, IsGroup group.1 group.2) :
    splitTags true (groupProse groups) = ([], groupTexts groups) := by
  induction groups with
  | nil => rfl
  | cons group more ih =>
    have hGroup := h group List.mem_cons_self
    cases more with
    | nil =>
      have hSplit := splitTags_group hGroup (fun c (hc : c ∈ ([] : Text).head?) => by cases hc)
      rw [List.append_nil] at hSplit
      have hEnd : splitTags false [] = ([], []) := rfl
      rw [groupProse, List.map_singleton, joinWords_singleton, hSplit, hEnd, List.append_nil]
      rfl
    | cons next more =>
      have hRest := ih fun g hg => h g (List.mem_cons_of_mem group hg)
      have hProse : groupProse (group :: next :: more) =
          '@' :: joinWords (group.1 :: group.2) ++ ' ' :: groupProse (next :: more) := by
        rw [groupProse, List.map_cons, List.map_cons, joinWords_cons_cons]
        rfl
      rw [hProse, splitTags_group hGroup (by rintro c ⟨⟩; rfl), splitTags_space, hRest]
      rfl

end Doc

end HeaderDigest
