import HeaderDigest.Proofs.Text.Blanks
import HeaderDigest.Source.InlineComment

/-!
# Comments and the ends of a line

Blanks at the ends of a line stand outside its comments or within the last one. So comments can be
taken out of a line before it is trimmed or after.
-/

namespace HeaderDigest

open Text

theorem withoutBlocks_inside (c d : Char) (rest : Text) :
    withoutBlocks true (c :: d :: rest) =
      if c = '*' && d = '/' then withoutBlocks false rest else withoutBlocks true (d :: rest) := by
  rw [withoutBlocks]
  rfl

theorem withoutBlocks_outside (c d : Char) (rest : Text) :
    withoutBlocks false (c :: d :: rest) =
      if c = '/' && d = '*' && closesBlock rest then withoutBlocks true rest
      else c :: withoutBlocks false (d :: rest) := by
  rw [withoutBlocks]
  rfl

theorem withoutBlocks_cons {c : Char} (hc : c ≠ '/') (s : Text) :
    withoutBlocks false (c :: s) = c :: withoutBlocks false s := by
  cases s with
  | nil => rfl
  | cons d s => simp [withoutBlocks_outside, hc]

theorem withoutBlocks_append_left {u : Text} (hu : '/' ∉ u) (s : Text) :
    withoutBlocks false (u ++ s) = u ++ withoutBlocks false s := by
  induction u with
  | nil => rfl
  | cons c u ih =>
    obtain ⟨hc, hRest⟩ := List.ne_and_not_mem_of_not_mem_cons hu
    rw [List.cons_append, withoutBlocks_cons (Ne.symm hc), ih hRest, List.cons_append]

theorem withoutBlocks_of_blank {v : Text} (hv : ∀ c ∈ v, isBlank c = true) (inside : Bool) :
    withoutBlocks inside v = if inside then [] else v := by
  induction v with
  | nil => cases inside <;> rfl
  | cons c v ih =>
    obtain ⟨hc, hRest⟩ := List.forall_mem_cons.mp hv
    cases inside with
    | false =>
      rw [withoutBlocks_cons (ne_of_isBlank hc (by decide)), ih hRest]
      rfl
    | true =>
      cases v with
      | nil => rfl
      | cons d v =>
        have hStar : c ≠ '*' := ne_of_isBlank hc (by decide)
        rw [withoutBlocks_inside, ih hRest]
        simp [hStar]

theorem closesBlock_append_of_blank {v : Text} (hv : ∀ c ∈ v, isBlank c = true) (s : Text) :
    closesBlock (s ++ v) = closesBlock s := by
  have hCloser : ∀ c ∈ ['*', '/'], isBlank c = false := by decide
  induction s with
  | cons c s ih =>
    have hStarts := startsWith_append_of_blank hCloser hv (c :: s)
    rw [List.cons_append] at hStarts
    rw [List.cons_append, closesBlock, closesBlock, hStarts, ih]
  | nil =>
    change closesBlock v = false
    induction v with
    | nil => rfl
    | cons b v ih =>
      have hStarts : startsWith ['*', '/'] (b :: v) = false := startsWith_append_of_blank hCloser hv []
      rw [closesBlock, hStarts, ih (List.forall_mem_cons.mp hv).2]
      simp

theorem withoutBlocks_append_right {v : Text} (hv : ∀ c ∈ v, isBlank c = true) (inside : Bool)
    (s : Text) : ∃ w, (∀ c ∈ w, isBlank c = true) ∧
      withoutBlocks inside (s ++ v) = withoutBlocks inside s ++ w := by
  have hEnd (inside : Bool) : ∀ c ∈ withoutBlocks inside v, isBlank c = true := by
    rw [withoutBlocks_of_blank hv]
    cases inside with
    | true => simp
    | false => exact hv
  -- A single character neither opens nor closes a block together with a blank behind it.
  have hSingle (c : Char) (inside : Bool) :
      withoutBlocks inside (c :: v) = withoutBlocks inside [c] ++ withoutBlocks inside v := by
    cases v with
    | nil => cases inside <;> rfl
    | cons b v =>
      have hSlash : b ≠ '/' := ne_of_isBlank (hv b List.mem_cons_self) (by decide)
      have hStar : b ≠ '*' := ne_of_isBlank (hv b List.mem_cons_self) (by decide)
      cases inside with
      | true => simp [hSlash, withoutBlocks]
      | false => simp [hStar, withoutBlocks]
  induction inside, s using withoutBlocks.induct with
  | case1 inside => exact ⟨_, hEnd inside, by cases inside <;> rfl⟩
  | case2 c => exact ⟨_, hEnd true, hSingle c true⟩
  | case3 inside c hOutside =>
    rw [Bool.not_eq_true] at hOutside
    subst hOutside
    exact ⟨_, hEnd false, hSingle c false⟩
  | case4 c d rest hClose ih =>
    obtain ⟨w, hw, hText⟩ := ih
    refine ⟨w, hw, ?_⟩
    rw [List.cons_append, List.cons_append, withoutBlocks_inside, withoutBlocks_inside, if_pos hClose,
      if_pos hClose, hText]
  | case5 c d rest hClose ih =>
    obtain ⟨w, hw, hText⟩ := ih
    refine ⟨w, hw, ?_⟩
    rw [List.cons_append, List.cons_append, withoutBlocks_inside, withoutBlocks_inside, if_neg hClose,
      if_neg hClose, ← List.cons_append, hText]
  | case6 inside c d rest hOutside hOpen ih =>
    rw [Bool.not_eq_true] at hOutside
    subst hOutside
    obtain ⟨w, hw, hText⟩ := ih
    refine ⟨w, hw, ?_⟩
    rw [List.cons_append, List.cons_append, withoutBlocks_outside, withoutBlocks_outside,
      closesBlock_append_of_blank hv, if_pos hOpen, if_pos hOpen, hText]
  | case7 inside c d rest hOutside hOpen ih =>
    rw [Bool.not_eq_true] at hOutside
    subst hOutside
    obtain ⟨w, hw, hText⟩ := ih
    refine ⟨w, hw, ?_⟩
    rw [List.cons_append, List.cons_append, withoutBlocks_outside, withoutBlocks_outside,
      closesBlock_append_of_blank hv, if_neg hOpen, if_neg hOpen, ← List.cons_append, hText,
      List.cons_append]

theorem closesBlock_append {s : Text} (hs : '\n' ∉ s) (rest : Text) :
    closesBlock (s ++ '*' :: '/' :: rest) = true := by
  induction s with
  | nil => rfl
  | cons c s ih =>
    obtain ⟨hc, hRest⟩ := List.ne_and_not_mem_of_not_mem_cons hs
    rw [List.cons_append, closesBlock, if_neg (Ne.symm hc), ih hRest, ite_self]

theorem withoutBlocks_inside_append {s : Text} (hs : hasPart ['*', '/'] s = false) (rest : Text) :
    withoutBlocks true (s ++ '*' :: '/' :: rest) = withoutBlocks false rest := by
  induction s with
  | nil => rfl
  | cons c s ih =>
    rw [hasPart, Bool.or_eq_false_iff] at hs
    cases s with
    | nil =>
      have hNext := ih hs.2
      rw [List.nil_append] at hNext
      rw [List.cons_append, List.nil_append, withoutBlocks_inside]
      simpa using hNext
    | cons d s =>
      have hNot : (c = '*' && d = '/') = false := by
        have hStarts := hs.1
        rw [Bool.eq_false_iff] at hStarts ⊢
        intro h
        obtain ⟨rfl, rfl⟩ : c = '*' ∧ d = '/' := by simpa using h
        exact hStarts rfl
      have hNext := ih hs.2
      rw [List.cons_append] at hNext
      rw [List.cons_append, List.cons_append, withoutBlocks_inside, hNot, if_neg Bool.false_ne_true, hNext]

/-- A block that closes where it first can is taken out. -/
theorem withoutBlocks_block {s : Text} (hFeed : '\n' ∉ s) (hCloser : hasPart ['*', '/'] s = false)
    (rest : Text) :
    withoutBlocks false ('/' :: '*' :: (s ++ '*' :: '/' :: rest)) = withoutBlocks false rest := by
  rw [withoutBlocks_outside, closesBlock_append hFeed, withoutBlocks_inside_append hCloser]
  rfl

theorem hasPart_of_closesBlock {s : Text} (h : closesBlock s = true) : hasPart ['*', '/'] s = true := by
  induction s with
  | nil => cases h
  | cons c s ih =>
    rw [closesBlock] at h
    rw [hasPart, Bool.or_eq_true]
    split at h
    · rename_i hStarts
      exact Or.inl hStarts
    · split at h
      · cases h
      · exact Or.inr (ih h)

theorem beforeLineComment_append_left {u : Text} (hu : '/' ∉ u) (s : Text) :
    beforeLineComment (u ++ s) = u ++ beforeLineComment s := by
  induction u with
  | nil => rfl
  | cons c u ih =>
    obtain ⟨hc, hRest⟩ := List.ne_and_not_mem_of_not_mem_cons hu
    rw [List.cons_append, beforeLineComment, startsWith, List.isPrefixOf_cons_cons, beq_false_of_ne hc,
      ih hRest]
    rfl

theorem beforeLineComment_append_right {v : Text} (hv : ∀ c ∈ v, isBlank c = true) (s : Text) :
    ∃ w, (∀ c ∈ w, isBlank c = true) ∧
      beforeLineComment (s ++ v) = beforeLineComment s ++ w := by
  induction s with
  | nil =>
    have hAll := beforeLineComment_append_left (not_mem_of_blank hv (by decide)) []
    rw [List.append_nil] at hAll
    exact ⟨v, hv, by rw [List.nil_append, hAll]; simp [beforeLineComment]⟩
  | cons c s ih =>
    have hSlashes : ∀ c ∈ ['/', '/'], isBlank c = false := by decide
    have hStarts := startsWith_append_of_blank hSlashes hv (c :: s)
    rw [List.cons_append] at hStarts
    rw [List.cons_append, beforeLineComment, beforeLineComment, hStarts]
    split
    · exact ⟨[], by simp, rfl⟩
    · obtain ⟨w, hw, hText⟩ := ih
      exact ⟨w, hw, by rw [hText, List.cons_append]⟩

/-- Comments behind a text without slashes are its own. -/
theorem withoutComments_append {u : Text} (hu : '/' ∉ u) (s : Text) :
    withoutComments (u ++ s) = u ++ withoutComments s := by
  rw [withoutComments, withoutBlocks_append_left hu, beforeLineComment_append_left hu, withoutComments]

theorem withoutComments_of_not_mem {line : Text} (h : '/' ∉ line) : withoutComments line = line := by
  have hLine := withoutComments_append h []
  have hNil : withoutComments [] = [] := rfl
  rwa [hNil, List.append_nil] at hLine

theorem trim_withoutComments (line : Text) :
    trim (withoutComments (trim line)) = trim (withoutComments line) := by
  obtain ⟨u, v, hu, hv, -, hLine⟩ := exists_eq_append_trim line
  obtain ⟨w, hw, hBlocks⟩ := withoutBlocks_append_right hv false (trim line)
  obtain ⟨x, hx, hComment⟩ := beforeLineComment_append_right hw (withoutBlocks false (trim line))
  have hText : withoutComments line = u ++ withoutComments (trim line) ++ x := by
    calc withoutComments line
      _ = withoutComments (u ++ (trim line ++ v)) := by rw [← List.append_assoc, ← hLine]
      _ = u ++ withoutComments (trim line ++ v) := withoutComments_append (not_mem_of_blank hu (by decide)) _
      _ = u ++ withoutComments (trim line) ++ x := by
        rw [withoutComments, hBlocks, hComment, withoutComments, List.append_assoc]
  rw [hText, trim_append_of_blank _ hu hx]

theorem trim_withoutComments_congr {line line' : Text} (h : trim line = trim line') :
    trim (withoutComments line) = trim (withoutComments line') := by
  rw [← trim_withoutComments line, h, trim_withoutComments]

/-- Blanks at the ends of a line change nothing in the characters of its code. -/
theorem contains_code_congr {line line' : Text} (h : trim line = trim line') {c : Char}
    (hc : isBlank c = false) :
    (withoutComments line).contains c = (withoutComments line').contains c := by
  rw [← contains_trim hc, trim_withoutComments_congr h, contains_trim hc]

theorem balance_code_congr {line line' : Text} (h : trim line = trim line') {opening closing : Char}
    (hOpening : isBlank opening = false) (hClosing : isBlank closing = false) (hNe : opening ≠ closing) :
    balance opening closing (withoutComments line) = balance opening closing (withoutComments line') := by
  rw [← balance_trim hOpening hClosing hNe, trim_withoutComments_congr h,
    balance_trim hOpening hClosing hNe]

theorem contains_code_of_blank {line : Text} (h : trim line = []) {c : Char} (hc : isBlank c = false) :
    (withoutComments line).contains c = false := by
  have hNil : trim line = trim [] := h
  exact contains_code_congr hNil hc

theorem balance_code_of_blank {line : Text} (h : trim line = []) {opening closing : Char}
    (hOpening : isBlank opening = false) (hClosing : isBlank closing = false) (hNe : opening ≠ closing) :
    balance opening closing (withoutComments line) = 0 := by
  have hNil : trim line = trim [] := h
  exact balance_code_congr hNil hOpening hClosing hNe

/-- No comment opens in a text. -/
structure IsCommentless (s : Text) : Prop where
  noBlock : hasPart ['/', '*'] s = false
  noLine : hasPart ['/', '/'] s = false

instance (s : Text) : Decidable (IsCommentless s) :=
  decidable_of_iff (hasPart ['/', '*'] s = false ∧ hasPart ['/', '/'] s = false)
    ⟨fun h => ⟨h.1, h.2⟩, fun h => ⟨h.noBlock, h.noLine⟩⟩

theorem withoutBlocks_append_of_noBlock {u v : Text} (hu : hasPart ['/', '*'] u = false)
    (hv : v.head? ≠ some '*') : withoutBlocks false (u ++ v) = u ++ withoutBlocks false v := by
  induction u with
  | nil => rfl
  | cons c u ih =>
    rw [hasPart, Bool.or_eq_false_iff] at hu
    have hRest := ih hu.2
    cases hText : u ++ v with
    | nil =>
      obtain ⟨rfl, rfl⟩ := List.append_eq_nil_iff.mp hText
      rfl
    | cons d rest =>
      have hOpen : (c = '/' && d = '*') = false := by
        rw [Bool.eq_false_iff]
        intro h
        obtain ⟨rfl, rfl⟩ : c = '/' ∧ d = '*' := by simpa using h
        cases u with
        | nil => exact hv (congrArg List.head? hText)
        | cons e u =>
          cases List.cons.inj hText |>.1
          exact Bool.false_ne_true (hu.1.symm.trans rfl)
      rw [List.cons_append, hText, withoutBlocks_outside, hOpen, Bool.false_and, if_neg Bool.false_ne_true,
        ← hText, hRest, List.cons_append]

theorem beforeLineComment_append_of_noLine {u v : Text} (hu : hasPart ['/', '/'] u = false)
    (hSlash : u.getLast? ≠ some '/' ∨ v.head? ≠ some '/') :
    beforeLineComment (u ++ v) = u ++ beforeLineComment v := by
  induction u with
  | nil => rfl
  | cons c u ih =>
    rw [hasPart, Bool.or_eq_false_iff] at hu
    have hStarts : startsWith ['/', '/'] (c :: (u ++ v)) = false := by
      rw [Bool.eq_false_iff]
      intro h
      cases u with
      | nil =>
        obtain ⟨rest, hRest⟩ := List.isPrefixOf_iff_prefix.mp h
        obtain ⟨rfl, hTail⟩ := List.cons.inj hRest
        exact hSlash.elim (fun hLast => hLast rfl) fun hHead => hHead (congrArg List.head? hTail.symm)
      | cons d u =>
        have hNot := hu.1
        rw [startsWith, List.cons_append, List.isPrefixOf_cons_cons, List.isPrefixOf_cons_cons] at h
        rw [startsWith, List.isPrefixOf_cons_cons, List.isPrefixOf_cons_cons] at hNot
        exact Bool.false_ne_true (hNot.symm.trans h)
    have hRest : u.getLast? ≠ some '/' ∨ v.head? ≠ some '/' := by
      cases u with
      | nil => exact Or.inl (by simp)
      | cons d u => rwa [List.getLast?_cons_of_ne_nil (List.cons_ne_nil d u)] at hSlash
    rw [List.cons_append, beforeLineComment, hStarts, if_neg Bool.false_ne_true, ih hu.2 hRest,
      List.cons_append]

/-- A comment up to the end of the line may say anything, blocks included. -/
theorem withoutComments_line (s : Text) : withoutComments ('/' :: '/' :: ' ' :: s) = [] := by
  have hBlocks : withoutBlocks false (['/', '/'] ++ ' ' :: s) = ['/', '/'] ++ withoutBlocks false (' ' :: s) :=
    withoutBlocks_append_of_noBlock (by decide) fun h => absurd (Option.some.inj h) (by decide)
  exact congrArg beforeLineComment hBlocks

/-- A character that no delimiter has in it keeps the code before it apart from a comment behind it. -/
theorem withoutComments_append_cons {u : Text} (hu : IsCommentless u) {c : Char} (hStar : c ≠ '*')
    (hSlash : c ≠ '/') (s : Text) : withoutComments (u ++ c :: s) = u ++ c :: withoutComments s := by
  have hHead (s : Text) (d : Char) (hc : c ≠ d) : (c :: s).head? ≠ some d := fun h => hc (Option.some.inj h)
  have hStarts (s : Text) : startsWith ['/', '/'] (c :: s) = false := by
    rw [startsWith, List.isPrefixOf_cons_cons, beq_false_of_ne (Ne.symm hSlash), Bool.false_and]
  rw [withoutComments, withoutBlocks_append_of_noBlock hu.noBlock (hHead s '*' hStar), withoutBlocks_cons hSlash,
    beforeLineComment_append_of_noLine hu.noLine (Or.inr (hHead _ '/' hSlash)), beforeLineComment, hStarts,
    if_neg Bool.false_ne_true, withoutComments]

theorem withoutComments_of_isCommentless {u : Text} (hu : IsCommentless u) : withoutComments u = u := by
  have hBlocks := withoutBlocks_append_of_noBlock (v := []) hu.noBlock (by decide)
  have hLine := beforeLineComment_append_of_noLine (v := []) hu.noLine (Or.inr (by decide))
  rw [List.append_nil] at hBlocks hLine
  rw [withoutComments, hBlocks, withoutBlocks, List.append_nil, hLine, beforeLineComment, List.append_nil]

theorem isCommentless_append_cons_iff {u v : Text} {c : Char} (hStar : c ≠ '*') (hSlash : c ≠ '/') :
    IsCommentless (u ++ c :: v) ↔ IsCommentless u ∧ IsCommentless v := by
  have hPart (d : Char) (hd : c ≠ d) :
      hasPart ['/', d] (u ++ c :: v) = false ↔ hasPart ['/', d] u = false ∧ hasPart ['/', d] v = false := by
    rw [hasPart_append_cons (by simp [hSlash, hd]), Bool.or_eq_false_iff]
  constructor
  · rintro ⟨hBlock, hLine⟩
    obtain ⟨hBlock, hBlock'⟩ := (hPart '*' hStar).mp hBlock
    obtain ⟨hLine, hLine'⟩ := (hPart '/' hSlash).mp hLine
    exact ⟨⟨hBlock, hLine⟩, ⟨hBlock', hLine'⟩⟩
  · rintro ⟨hu, hv⟩
    exact ⟨(hPart '*' hStar).mpr ⟨hu.noBlock, hv.noBlock⟩, (hPart '/' hSlash).mpr ⟨hu.noLine, hv.noLine⟩⟩

theorem IsCommentless.of_not_mem {s : Text} (h : '/' ∉ s) : IsCommentless s :=
  ⟨hasPart_eq_false_of_not_mem List.mem_cons_self h, hasPart_eq_false_of_not_mem List.mem_cons_self h⟩

/-- Taking comments out adds nothing. -/
theorem mem_of_mem_withoutComments {line : Text} {c : Char} (h : c ∈ withoutComments line) : c ∈ line := by
  have hBlocks (inside : Bool) (s : Text) (h : c ∈ withoutBlocks inside s) : c ∈ s := by
    induction inside, s using withoutBlocks.induct with
    | case1 inside => simp [withoutBlocks] at h
    | case2 d => cases h
    | case3 inside d hInside => simpa [withoutBlocks, hInside] using h
    | case4 d e rest hCloses ih =>
      rw [withoutBlocks_inside, if_pos hCloses] at h
      exact List.mem_cons_of_mem d (List.mem_cons_of_mem e (ih h))
    | case5 d e rest hCloses ih =>
      rw [withoutBlocks_inside, if_neg hCloses] at h
      exact List.mem_cons_of_mem d (ih h)
    | case6 inside d e rest hInside hOpens ih =>
      rw [Bool.eq_false_iff.mpr hInside, withoutBlocks_outside, if_pos hOpens] at h
      exact List.mem_cons_of_mem d (List.mem_cons_of_mem e (ih h))
    | case7 inside d e rest hInside hOpens ih =>
      rw [Bool.eq_false_iff.mpr hInside, withoutBlocks_outside, if_neg hOpens] at h
      exact List.mem_cons.mpr ((List.mem_cons.mp h).imp_right ih)
  have hLine (s : Text) (h : c ∈ beforeLineComment s) : c ∈ s := by
    induction s with
    | nil => exact h
    | cons d s ih =>
      rw [beforeLineComment] at h
      split at h
      · cases h
      · exact List.mem_cons.mpr ((List.mem_cons.mp h).imp_right ih)
  exact hBlocks false line (hLine _ h)

theorem IsCommentless.of_mem_joinWords {ws : List Text} (h : IsCommentless (joinWords ws)) :
    ∀ w ∈ ws, IsCommentless w := by
  induction ws with
  | nil => simp
  | cons w ws ih =>
    cases ws with
    | nil =>
      rw [joinWords_singleton] at h
      simpa using h
    | cons v ws =>
      rw [joinWords_cons_cons] at h
      obtain ⟨hWord, hRest⟩ := (isCommentless_append_cons_iff (by decide) (by decide)).mp h
      exact List.forall_mem_cons.mpr ⟨hWord, ih hRest⟩

end HeaderDigest
