import HeaderDigest.Proofs.Prototype.Attribute
import HeaderDigest.Proofs.Text.Brackets
import HeaderDigest.Proofs.Text.Spacing

/-!
# Where a prototype is cut

The parameter list of a prototype stands between the last parenthesis of its body and the partner
of this one, and what stands before them is the head. Blanks in a body are single spaces, and none
stands at its beginning.
-/

namespace HeaderDigest

open Text

theorem splitSignature?_eq_some_iff (body head list : Text) :
    splitSignature? body = some (head, list) ↔
      ∃ before inner, body = before ++ '(' :: inner ++ [')'] ∧ Enclosed '(' ')' inner ∧
        head = trimEnd before ∧ list = trim inner := by
  have hNe : ')' ≠ '(' := by decide
  unfold splitSignature?
  constructor
  · intro h
    split at h
    · rename_i back hBack
      obtain ⟨⟨inner, before⟩, hSplit, hParts⟩ := Option.map_eq_some_iff.mp h
      obtain ⟨hText, hCloses⟩ := (splitPartner?_eq_some_iff hNe 0 back inner before).mp hSplit
      obtain ⟨rfl, rfl⟩ := Prod.mk.inj hParts
      refine ⟨before.reverse, inner.reverse, ?_, ?_, rfl, rfl⟩
      · rw [← List.reverse_reverse body, hBack, hText]
        simp
      · rwa [← closes_reverse_iff (Ne.symm hNe), List.reverse_reverse]
    · cases h
  · rintro ⟨before, inner, rfl, hEnclosed, rfl, rfl⟩
    have hReverse : (before ++ '(' :: inner ++ [')']).reverse =
        ')' :: (inner.reverse ++ '(' :: before.reverse) := by simp
    have hSplit := (splitPartner?_eq_some_iff hNe 0 _ inner.reverse before.reverse).mpr
      ⟨rfl, (closes_reverse_iff (Ne.symm hNe) inner).mpr hEnclosed⟩
    rw [hReverse]
    simp only [hSplit, Option.map_some, List.reverse_reverse]

theorem beforeAttributeTail?_isPrefix {s before : Text} (h : beforeAttributeTail? s = some before) :
    before <+: s := by
  obtain ⟨tail, rfl, -, -⟩ := beforeAttributeTail?_eq_some_iff.mp h
  exact List.prefix_append before tail

theorem declarationBody?_isPrefix {declaration body : Text} (h : declarationBody? declaration = some body) :
    body <+: normalize declaration := by
  obtain ⟨text, hText, rfl⟩ := Option.map_eq_some_iff.mp h
  have hSemicolon : text <+: normalize declaration := by
    obtain ⟨back, hBack, rfl⟩ := Option.map_eq_some_iff.mp hText
    rw [← List.reverse_suffix, List.reverse_reverse]
    exact ⟨_, (eq_append_of_dropPrefix? hBack).symm⟩
  refine List.IsPrefix.trans ?_ ((trimEnd_isPrefix text).trans hSemicolon)
  unfold withoutAttributeTail
  split
  · rename_i before hBefore
    exact (trimEnd_isPrefix before).trans (beforeAttributeTail?_isPrefix hBefore)
  · exact List.prefix_refl _

/-- A body is normal from its beginning on. -/
theorem singleSpaced_declarationBody? {declaration body : Text}
    (h : declarationBody? declaration = some body) :
    SingleSpaced body ∧ startsBlank body = false := by
  obtain ⟨hSpaced, hTrimmed⟩ := singleSpaced_normalize declaration
  obtain ⟨rest, hRest⟩ := declarationBody?_isPrefix h
  rw [← hRest] at hSpaced hTrimmed
  exact ⟨hSpaced.of_append_left, startsBlank_left hTrimmed.1⟩

/-- A body ends in a list: between the parentheses around `inner` stand as many opening as closing ones,
and no ending of it opens more than it closes. -/
structure EndsInList (body before inner : Text) : Prop where
  text : body = before ++ '(' :: inner ++ [')']
  count_eq : inner.count '(' = inner.count ')'
  endings : ∀ ending, ending <:+ inner → ending.count '(' ≤ ending.count ')'

/-- The closing parenthesis behind a text has its partner in it: what stands between the two is
balanced. -/
def HasPartner (front : Text) : Prop :=
  ∃ before inner, front = before ++ '(' :: inner ∧ Balanced '(' ')' inner

theorem endsInList_iff {body before inner : Text} :
    EndsInList body before inner ↔ body = before ++ '(' :: inner ++ [')'] ∧ Enclosed '(' ')' inner := by
  rw [enclosed_iff_count (by decide)]
  exact ⟨fun ⟨hText, hCount, hEndings⟩ => ⟨hText, hCount, hEndings⟩,
    fun ⟨hText, hCount, hEndings⟩ => ⟨hText, hCount, hEndings⟩⟩

/-- A list does not begin inside of another one that ends at the same place. -/
theorem EndsInList.ne_append {body body' before before' inner inner' : Text} (h : EndsInList body before inner)
    (h' : EndsInList body' before' inner') (front : Text) : inner ≠ front ++ '(' :: inner' := by
  rintro rfl
  -- The ending that begins with the inner list's parenthesis opens one more than it closes.
  have hOpens := h.endings ('(' :: inner') (List.suffix_append front _)
  rw [List.count_cons_self, List.count_cons_of_ne (by decide), h'.count_eq] at hOpens
  omega

theorem EndsInList.eq {body before before' inner inner' : Text} (h : EndsInList body before inner)
    (h' : EndsInList body before' inner') : before = before' ∧ inner = inner' := by
  have hText : before ++ '(' :: inner = before' ++ '(' :: inner' :=
    List.append_cancel_right (h.text.symm.trans h'.text)
  obtain hEq | ⟨front, -, hInner⟩ | ⟨front, -, hInner⟩ := append_cons_eq_append_cons hText
  · exact hEq
  · exact absurd hInner (h.ne_append h' front)
  · exact absurd hInner (h'.ne_append h front)

theorem exists_endsInList_iff (body : Text) :
    (∃ before inner, EndsInList body before inner) ↔ body.getLast? = some ')' ∧ HasPartner body.dropLast := by
  constructor
  · rintro ⟨before, inner, h⟩
    obtain ⟨rfl, hEnclosed⟩ := endsInList_iff.mp h
    refine ⟨List.getLast?_concat, before, inner, List.dropLast_concat, hEnclosed.balanced (by decide)⟩
  · rintro ⟨hLast, before, inner, hFront, hBalanced⟩
    obtain ⟨front, rfl⟩ := List.getLast?_eq_some_iff.mp hLast
    rw [List.dropLast_concat] at hFront
    exact ⟨before, inner, endsInList_iff.mpr ⟨by rw [hFront], hBalanced.enclosed (by decide)⟩⟩

/-- A body is cut at the partner of the parenthesis at its end, wherever that is, and only there. -/
theorem splitSignature?_partner (body : Text) :
    (∀ head list, splitSignature? body = some (head, list) ↔
      ∃ before inner, EndsInList body before inner ∧ head = trimEnd before ∧ list = trim inner) ∧
    (∀ before inner before' inner', EndsInList body before inner → EndsInList body before' inner' →
      before = before' ∧ inner = inner') ∧
    (splitSignature? body = none ↔ body.getLast? ≠ some ')' ∨ ¬HasPartner body.dropLast) := by
  have hSome (head list : Text) : splitSignature? body = some (head, list) ↔
      ∃ before inner, EndsInList body before inner ∧ head = trimEnd before ∧ list = trim inner := by
    simp only [splitSignature?_eq_some_iff, endsInList_iff, and_assoc]
  refine ⟨hSome, fun before inner before' inner' h h' => h.eq h', ?_⟩
  rw [← not_and_or, ← exists_endsInList_iff, Option.eq_none_iff_forall_ne_some]
  constructor
  · rintro hNone ⟨before, inner, h⟩
    exact hNone _ ((hSome _ _).mpr ⟨before, inner, h, rfl, rfl⟩)
  · rintro hNone ⟨head, list⟩ hSplit
    obtain ⟨before, inner, h, -, -⟩ := (hSome head list).mp hSplit
    exact hNone ⟨before, inner, h⟩

example : splitSignature? "void f(int n, void (*done)())".toList =
    some ("void f".toList, "int n, void (*done)()".toList) := by decide

end HeaderDigest
