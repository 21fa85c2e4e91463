import HeaderDigest.Proofs.Doc.Continued
import HeaderDigest.Proofs.Source.Cursor

/-!
# What stands behind a closer

A block ends with the line of its first closer, and the whole of this line belongs to it. What stands
behind the closer is read like prose in front of it, and the closer itself with it, unless there is
nothing but blanks. The one exception is an opener that is its own closer, where a second closer may
follow.
-/

namespace HeaderDigest

open Text

/-- A text at its first closer: the lines before that of the closer, and what stands before and
behind it on its own line. -/
structure CutAtCloser (s lead front behind : Text) : Prop where
  text : s = lead ++ (front ++ '*' :: '/' :: behind)
  ends : EndsLine lead
  line : '\n' ∉ front ++ behind
  first : ¬HasCloser (lead ++ (front ++ ['*']))

theorem exists_first_closer {line : Text} (h : HasCloser line) :
    ∃ front behind, line = front ++ '*' :: '/' :: behind ∧ ¬HasCloser (front ++ ['*']) := by
  induction line with
  | nil => exact absurd (List.infix_nil.mp h) (by decide)
  | cons c line ih =>
    by_cases hHere : ['*', '/'] <+: c :: line
    · obtain ⟨behind, hBehind⟩ := hHere
      exact ⟨[], behind, hBehind.symm, fun hCloser => absurd hCloser.length_le (by decide)⟩
    · obtain ⟨front, behind, rfl, hFirst⟩ := ih ((List.infix_cons_iff.mp h).resolve_left hHere)
      refine ⟨c :: front, behind, rfl, fun hCloser => ?_⟩
      obtain hStart | hLater := List.infix_cons_iff.mp hCloser
      · exact hHere (hStart.trans (by simp [List.prefix_append_right_inj]))
      · exact hFirst hLater

theorem exists_cutAtCloser {before : List Text} {last : Text} (hBefore : ∀ l ∈ before, ¬HasCloser l)
    (hFeed : '\n' ∉ last) (hLast : HasCloser last) :
    ∃ lead front behind, CutAtCloser (joinLines (before ++ [last])) lead front behind := by
  induction before with
  | nil =>
    obtain ⟨front, behind, rfl, hFirst⟩ := exists_first_closer hLast
    exact ⟨[], front, behind, joinLines_singleton _, Or.inl rfl, fun h => hFeed (by simp_all), hFirst⟩
  | cons l before ih =>
    obtain ⟨hl, hRest⟩ := List.forall_mem_cons.mp hBefore
    obtain ⟨lead, front, behind, hCut⟩ := ih hRest
    have hJoin : joinLines (l :: before ++ [last]) = l ++ '\n' :: joinLines (before ++ [last]) := by
      cases before <;> exact joinLines_cons_cons _ _ _
    refine ⟨l ++ '\n' :: lead, front, behind, ?_, Or.inr ?_, hCut.line, ?_⟩
    · rw [hJoin, hCut.text, List.append_assoc]
      rfl
    · obtain rfl | hEnd := hCut.ends
      · exact List.getLast?_concat
      · rw [List.getLast?_append, List.getLast?_cons, hEnd]
        rfl
    · rw [List.append_assoc, List.cons_append, HasCloser, infix_append_cons_iff (by decide)]
      exact not_or.mpr ⟨hl, hCut.first⟩

/-- The text of a block has a first closer, and the block ends with the line of it. -/
theorem Block.IsNext.exists_cutAtCloser {all : List Text} {position : Nat} {block : Block}
    (h : block.IsNext all position) (hFeed : ∀ line ∈ all, '\n' ∉ line) :
    ∃ lead front behind, CutAtCloser block.text lead front behind := by
  obtain ⟨stop, hBlock, hText⟩ := h.exists_delimits
  obtain ⟨last, hLast, hCloses⟩ := hBlock.closes
  obtain ⟨length, rfl⟩ := Nat.exists_eq_add_of_le hBlock.start_le
  have hLines : (all.drop block.startLine).take (length + 1) =
      (all.drop block.startLine).take length ++ [last] := by
    rw [List.take_add_one, List.getElem?_drop, Option.mem_def.mp hLast]
    rfl
  rw [hText, Block.ofLines, show block.startLine + length + 1 - block.startLine = length + 1 by omega, hLines]
  refine HeaderDigest.exists_cutAtCloser (fun l hl => ?_) (hFeed last (List.mem_of_getElem? hLast)) hCloses
  obtain ⟨i, hi⟩ := List.mem_iff_getElem?.mp hl
  rw [List.getElem?_take, List.getElem?_drop] at hi
  split at hi
  · rename_i hLt
    exact hBlock.first (block.startLine + i) (Nat.le_add_right _ _) (by omega) l hi
  · cases hi

namespace Doc

/-- What is left of a line between its delimiters when the star in front is gone. -/
def withoutStar (inner : Text) : Text := withoutPrefix ['*'] (trimStart inner)

theorem words_proseLine (line : Text) : words (proseLine line) =
    words (withoutStar (withoutSuffix ['*', '/'] (withoutPrefix ['/', '*', '*'] (trim line)))) :=
  words_trim _

theorem trim_closing (front behind : Text) :
    trim (front ++ '*' :: '/' :: behind) = trimStart front ++ '*' :: '/' :: trimEnd behind := by
  have hEnd (f : Text) : trimEnd (f ++ '*' :: '/' :: behind) = f ++ '*' :: '/' :: trimEnd behind := by
    have h := trimEnd_append_cons (c := '/') (by decide) (f ++ ['*']) behind
    rwa [List.append_assoc, List.append_assoc] at h
  obtain ⟨u, hu, hFront⟩ := exists_eq_append_trimStart front
  have hStart : trimStart (front ++ '*' :: '/' :: behind) = trimStart front ++ '*' :: '/' :: behind := by
    rw [hFront, List.append_assoc, trimStart_append_of_blank _ hu, trimStart_append_of_blank _ hu,
      trimStart_eq_self (startsBlank_trimStart front)]
    apply trimStart_eq_self
    cases hText : trimStart front with
    | nil => rfl
    | cons c t =>
      have hc := startsBlank_trimStart front
      rwa [hText] at hc
  rw [trim, hStart, hEnd]

theorem withoutPrefix_opener (f b : Text) : withoutPrefix ['/', '*', '*'] (f ++ '*' :: '/' :: b) =
    withoutPrefix ['/', '*', '*'] (f ++ ['*']) ++ '/' :: b := by
  have hSplit : f ++ '*' :: '/' :: b = (f ++ ['*']) ++ '/' :: b := by simp
  by_cases h : ['/', '*', '*'] <+: f ++ ['*']
  · obtain ⟨rest, hRest⟩ := h
    rw [hSplit, ← hRest, List.append_assoc, withoutPrefix_append, withoutPrefix_append]
  · rw [withoutPrefix_eq_self h, hSplit]
    apply withoutPrefix_eq_self
    intro hLonger
    cases f with
    | nil => exact absurd (List.cons_prefix_cons.mp hLonger).1 (by decide)
    | cons c f =>
      obtain ⟨hc, hStars⟩ := List.cons_prefix_cons.mp hLonger
      exact h (List.cons_prefix_cons.mpr ⟨hc, prefix_of_prefix_append_cons (by decide) hStars⟩)

/-- Only behind `/*` does the opener take the star of the closer. -/
theorem withoutPrefix_opener_star (f : Text) :
    (f = ['/', '*'] ∧ withoutPrefix ['/', '*', '*'] (f ++ ['*']) = []) ∨
      (f ≠ ['/', '*'] ∧ ∃ inner, withoutPrefix ['/', '*', '*'] (f ++ ['*']) = inner ++ ['*']) := by
  by_cases hOverlap : f = ['/', '*']
  · subst hOverlap
    exact Or.inl ⟨rfl, by decide⟩
  · refine Or.inr ⟨hOverlap, ?_⟩
    by_cases h : ['/', '*', '*'] <+: f ++ ['*']
    · obtain ⟨rest, hRest⟩ := h
      rw [← hRest, withoutPrefix_append]
      rcases List.eq_nil_or_concat rest with rfl | ⟨inner, e, rfl⟩
      · exact absurd (List.append_cancel_right (hRest.symm : f ++ ['*'] = ['/', '*'] ++ ['*'])) hOverlap
      · rw [List.concat_eq_append, ← List.append_assoc] at hRest
        exact ⟨inner, by rw [List.concat_eq_append, (List.append_inj' hRest rfl).2]⟩
    · exact ⟨f, withoutPrefix_eq_self h⟩

theorem withoutSuffix_closer {b : Text} (hNe : b ≠ []) (s : Text) :
    withoutSuffix ['*', '/'] (s ++ '/' :: b) = s ++ '/' :: withoutSuffix ['*', '/'] b := by
  by_cases h : ['*', '/'] <:+ b
  · obtain ⟨stem, rfl⟩ := h
    rw [withoutSuffix_append, ← List.cons_append, ← List.append_assoc, withoutSuffix_append]
  · rw [withoutSuffix_eq_self h]
    apply withoutSuffix_eq_self
    intro hLonger
    have hBehind : b <:+ s ++ '/' :: b := (List.suffix_cons _ _).trans (List.suffix_append _ _)
    obtain hSuffix | hSuffix := List.suffix_or_suffix_of_suffix hLonger hBehind
    · exact h hSuffix
    · obtain rfl | hSlash := List.suffix_cons_iff.mp hSuffix
      · exact h List.suffix_rfl
      · obtain rfl | hNil := List.suffix_cons_iff.mp hSlash
        · have hEqual := List.suffix_of_suffix_length_le hLonger (List.suffix_append s ['/', '/']) (by decide)
          exact absurd hEqual (by decide)
        · exact hNe (List.suffix_nil.mp hNil)

/-- The star of a closer is taken for decoration where nothing but blanks stands before it. -/
theorem exists_withoutStar_append (inner rest : Text) :
    ∃ star, (star = [] ∨ star = ['*']) ∧
      withoutStar (inner ++ '*' :: rest) = withoutStar inner ++ (star ++ rest) := by
  obtain ⟨u, hu, hInner⟩ := exists_eq_append_trimStart inner
  cases hStart : trimStart inner with
  | nil =>
    have hStar : trimStart ('*' :: rest) = '*' :: rest := trimStart_eq_self rfl
    rw [hStart, List.append_nil] at hInner
    refine ⟨[], Or.inl rfl, ?_⟩
    rw [withoutStar, withoutStar, hStart, hInner, trimStart_append_of_blank _ hu, hStar]
    exact withoutPrefix_append ['*'] rest
  | cons c t =>
    refine ⟨['*'], Or.inr rfl, ?_⟩
    rw [withoutStar, withoutStar, trimStart_append_of_ne_nil (by rw [hStart]; exact List.cons_ne_nil c t), hStart]
    by_cases hc : c = '*'
    · subst hc
      exact (withoutPrefix_append ['*'] (t ++ '*' :: rest)).trans
        (congrArg (· ++ '*' :: rest) (withoutPrefix_append ['*'] t).symm)
    · have hNot (s : Text) : ¬['*'] <+: c :: s := fun h => hc (List.cons_prefix_cons.mp h).1.symm
      rw [withoutPrefix_eq_self (hNot t), List.cons_append, withoutPrefix_eq_self (hNot _)]
      rfl

/-- Whether what stands behind a closer is no prose: there is nothing but blanks, or the closer has
its star from the opener and a second closer follows. -/
def IsUnread (front behind : Text) : Prop :=
  trim behind = [] ∨ (trimStart front = ['/', '*'] ∧ trim behind = ['*', '/'])

instance (front behind : Text) : Decidable (IsUnread front behind) := inferInstanceAs (Decidable (_ ∨ _))

/-- What stands behind a closer without blanks and a second closer at its end. -/
def trailing (behind : Text) : Text := withoutSuffix ['*', '/'] (trimEnd behind)

theorem trailing_blank_iff {behind : Text} (hNe : trimEnd behind ≠ []) :
    (∀ c ∈ trailing behind, isBlank c = true) ↔ trim behind = ['*', '/'] := by
  have hTrim := trim_trimEnd behind
  constructor
  · intro hBlank
    obtain ⟨stem, hStem, hTrailing⟩ | ⟨-, hTrailing⟩ := withoutSuffix_cases ['*', '/'] (trimEnd behind)
    · rw [trailing, hTrailing] at hBlank
      have hCloser := trim_append_of_blank (v := []) ['*', '/'] hBlank (by simp)
      rw [← hTrim, hStem, ← List.append_nil (stem ++ ['*', '/']), hCloser]
      decide
    · rw [trailing, hTrailing, ← trimEnd_eq_nil_iff] at hBlank
      rw [trimEnd_eq_self (endsBlank_trimEnd behind)] at hBlank
      exact absurd hBlank hNe
  · intro hCloser
    obtain ⟨u, v, hu, hv, hStart, hBehind⟩ := exists_eq_append_trim behind
    have hEnd : trimEnd behind = u ++ ['*', '/'] := by
      rw [hBehind, hCloser, trimEnd_append_of_blank _ hv]
      apply trimEnd_eq_self
      simp [endsBlank]
      decide
    rw [trailing, hEnd, withoutSuffix_append]
    exact hu

/-- The prose of the line of a closer is the prose without what stands behind it, and then, if there is
more than blanks, what is left of the closer and what stands behind it. -/
theorem words_proseLine_closing (front behind : Text) :
    ∃ prose rest, words (proseLine (front ++ ['*', '/'])) = words prose ∧
      words (proseLine (front ++ '*' :: '/' :: behind)) = words (prose ++ rest) ∧ trailing behind <:+ rest ∧
      ((∀ c ∈ rest, isBlank c = true) ↔ IsUnread front behind) ∧ NamesApart prose rest := by
  have hWhole := words_proseLine (front ++ '*' :: '/' :: behind)
  have hCut := words_proseLine (front ++ '*' :: '/' :: [])
  rw [trim_closing, withoutPrefix_opener] at hWhole hCut
  have hBlank : trim behind = [] ↔ trimEnd behind = [] := trim_eq_nil_iff.trans trimEnd_eq_nil_iff.symm
  by_cases hEnd : trimEnd behind = []
  · have hTrailing : trailing behind = [] := by
      rw [trailing, hEnd]
      rfl
    rw [hEnd] at hWhole
    refine ⟨_, [], hCut, by rw [hWhole, List.append_nil]; rfl, hTrailing ▸ List.nil_suffix, ?_, Or.inl rfl⟩
    exact iff_of_true (fun c hc => absurd hc List.not_mem_nil) (Or.inl (hBlank.mpr hEnd))
  · have hTrim : trim behind ≠ [] := mt hBlank.mp hEnd
    rw [withoutSuffix_closer hEnd] at hWhole
    obtain ⟨hOverlap, hInner⟩ | ⟨hOverlap, inner, hInner⟩ := withoutPrefix_opener_star (trimStart front)
    · rw [hInner] at hWhole hCut
      refine ⟨['/'], trailing behind, hCut, hWhole, List.suffix_rfl, ?_, Or.inr rfl⟩
      rw [trailing_blank_iff hEnd, IsUnread, or_iff_right hTrim, and_iff_right hOverlap]
    · have hCloser : inner ++ ['*'] ++ '/' :: trimEnd [] = inner ++ ['*', '/'] := by simp [trimEnd]
      obtain ⟨star, hStar, hAppend⟩ := exists_withoutStar_append inner ('/' :: trailing behind)
      rw [hInner, hCloser, withoutSuffix_append] at hCut
      rw [hInner, List.append_assoc] at hWhole
      refine ⟨withoutStar inner, star ++ '/' :: trailing behind, hCut, ?_, ?_, iff_of_false ?_ ?_, ?_⟩
      · rw [hWhole]
        exact congrArg words hAppend
      · exact (List.suffix_cons _ _).trans (List.suffix_append _ _)
      · intro hAll
        exact absurd (hAll '/' (by simp)) (by decide)
      · exact not_or.mpr ⟨hTrim, fun h => hOverlap h.1⟩
      · obtain rfl | rfl := hStar <;> exact Or.inl rfl

theorem blockWords_append_line {lead l : Text} (hLead : EndsLine lead) (hl : '\n' ∉ l) :
    blockWords (lead ++ l) = blockWords lead ++ words (proseLine l) := by
  have hLine : blockWords (joinLines [l]) = _ := blockWords_joinLines (List.forall_mem_singleton.mpr hl)
  rw [joinLines_singleton, List.flatMap_singleton] at hLine
  rw [← hLine, blockWords, blockWords, blockWords, lines_append l hLead, List.flatMap_append]

theorem suffix_words_append {v : Text} (h : v = [] ∨ startsBlank v = true) (u : Text) :
    words v <:+ words (u ++ v) := by
  cases v with
  | nil => exact List.nil_suffix
  | cons c v =>
    have hc : isBlank c = true := h.resolve_left (List.cons_ne_nil c v)
    rw [Respaced.words_blank_cons hc, words, words, runs_append_cons_of_neg (by simp [hc])]
    exact List.suffix_append _ _

theorem trailing_eq_nil_or {behind : Text} (h : startsBlank behind = true) :
    trailing behind = [] ∨ startsBlank (trailing behind) = true := by
  obtain ⟨v, -, hBehind⟩ := exists_eq_trimEnd_append behind
  obtain ⟨w, hw⟩ : trailing behind <+: trimEnd behind := by
    obtain ⟨stem, hStem, hTrailing⟩ | ⟨-, hTrailing⟩ := withoutSuffix_cases ['*', '/'] (trimEnd behind)
    · exact ⟨_, by rw [trailing, hTrailing, ← hStem]⟩
    · exact ⟨[], by rw [trailing, hTrailing, List.append_nil]⟩
  refine or_iff_not_imp_left.mpr fun hNe => ?_
  rw [hBehind, ← hw, List.append_assoc, startsBlank_append _ hNe] at h
  exact h

/-- A block cut at its first closer has the words of some prose, and the whole block has those of the
prose with what is read from behind the closer. -/
theorem blockWords_of_cut {s lead front behind : Text} (h : CutAtCloser s lead front behind) :
    ∃ prose rest, blockWords (lead ++ (front ++ ['*', '/'])) = words prose ∧
      blockWords s = words (prose ++ rest) ∧ trailing behind <:+ rest ∧
      ((∀ c ∈ rest, isBlank c = true) ↔ IsUnread front behind) ∧ NamesApart prose rest := by
  obtain ⟨prose, rest, hCut, hWhole, hTrailing, hUnread, hApart⟩ := words_proseLine_closing front behind
  have hFeed := h.line
  rw [List.mem_append, not_or] at hFeed
  have hLead (u : Text) : words (joinWords (blockWords lead) ++ ' ' :: u) = blockWords lead ++ words u := by
    rw [words, runs_append_cons_of_neg (by decide)]
    exact congrArg (· ++ words u) (words_joinWords fun w hw => isWord_of_mem_blockWords hw)
  refine ⟨joinWords (blockWords lead) ++ ' ' :: prose, rest, ?_, ?_, hTrailing, hUnread, ?_⟩
  · rw [blockWords_append_line h.ends (by simp [hFeed.1]), hCut, hLead]
  · rw [h.text, blockWords_append_line h.ends (by simp [hFeed]), hWhole, List.append_assoc,
      List.cons_append, hLead]
  · have hPrefixed := hApart.append_left (joinWords (blockWords lead) ++ [' '])
    rwa [List.append_assoc] at hPrefixed

/-- A block has a first closer. Cutting it there leaves its words as they are exactly if what stands
behind is unread, and then the same is read. Anything else behind the closer is read with the block:
words set off from the closer are the last words of the block, and where the last words before the
closer are told, what is told changes. -/
theorem read_closed (cursor : Cursor) {block : Block} (hFeed : ∀ line ∈ cursor.lines, '\n' ∉ line)
    (hBlock : cursor.nextBlock.1 = some block) :
    (∃ lead front behind, CutAtCloser block.text lead front behind) ∧
      ∀ lead front behind, CutAtCloser block.text lead front behind →
        let cut := lead ++ (front ++ ['*', '/'])
        (blockWords block.text = blockWords cut ↔ IsUnread front behind) ∧
          (IsUnread front behind → Doc.read block.text = Doc.read cut) ∧
          (startsBlank behind = true → words (trailing behind) <:+ blockWords block.text) ∧
          (TellsEnd (namedTags (blockWords cut)) →
            (Doc.read block.text = Doc.read cut ↔ IsUnread front behind)) := by
  have hNext := ((cursor.sound_move .next).of_answer hBlock).1
  refine ⟨hNext.exists_cutAtCloser hFeed, fun lead front behind hCut => ?_⟩
  intro cut
  obtain ⟨prose, rest, hCutWords, hWords, ⟨closer, hTrailing⟩, hUnread, hApart⟩ := blockWords_of_cut hCut
  have hIff : blockWords block.text = blockWords cut ↔ IsUnread front behind := by
    rw [hCutWords, hWords, words_append_eq_iff, hUnread]
  have hSame (h : IsUnread front behind) : Doc.read block.text = Doc.read cut := by
    rw [read_eq_ofWords, read_eq_ofWords, hIff.mpr h]
  refine ⟨hIff, hSame, fun hBlank => ?_, fun hTells => ⟨fun hRead => ?_, hSame⟩⟩
  · rw [hWords, ← hTrailing, ← List.append_assoc]
    exact suffix_words_append (trailing_eq_nil_or hBlank) _
  · by_contra hOther
    rw [hCutWords] at hTells
    rw [read_eq_ofWords, read_eq_ofWords, hWords, hCutWords] at hRead
    exact ofWords_append_ne hApart (mt hUnread.mp hOther) hTells hRead

def trailedLines : List Text := ["/** @brief Adds. */ int add(int a);".toList, "/**/ */".toList]

def trailedBlock : Block := ⟨"/** @brief Adds. */ int add(int a);".toList, 0, 1⟩

def twiceClosedBlock : Block := ⟨"/**/ */".toList, 1, 2⟩

theorem cutAtCloser_trailedBlock :
    CutAtCloser trailedBlock.text [] "/** @brief Adds. ".toList " int add(int a);".toList :=
  ⟨rfl, Or.inl rfl, by decide, mt hasPart_iff.mpr (by decide)⟩

theorem cutAtCloser_twiceClosedBlock : CutAtCloser twiceClosedBlock.text [] "/*".toList " */".toList :=
  ⟨rfl, Or.inl rfl, by decide, mt hasPart_iff.mpr (by decide)⟩

theorem read_closed_trailedLines :
    (∀ line ∈ trailedLines, '\n' ∉ line) ∧
      (Cursor.atLine trailedLines 0).nextBlock.1 = some trailedBlock ∧
      (Cursor.atLine trailedLines 1).nextBlock.1 = some twiceClosedBlock ∧
      ["int".toList, "add(int".toList, "a);".toList] <:+ blockWords trailedBlock.text ∧
      Doc.read trailedBlock.text ≠ Doc.read "/** @brief Adds. */".toList ∧
      Doc.read twiceClosedBlock.text = Doc.read "/**/".toList := by
  have hFeed : ∀ line ∈ trailedLines, '\n' ∉ line := by decide
  have hTrailed : (Cursor.atLine trailedLines 0).nextBlock.1 = some trailedBlock := by decide
  have hTwice : (Cursor.atLine trailedLines 1).nextBlock.1 = some twiceClosedBlock := by decide
  obtain ⟨-, -, hLast, hRead⟩ :=
    (read_closed (Cursor.atLine trailedLines 0) hFeed hTrailed).2 _ _ _ cutAtCloser_trailedBlock
  obtain ⟨-, hUnread, -, -⟩ :=
    (read_closed (Cursor.atLine trailedLines 1) hFeed hTwice).2 _ _ _ cutAtCloser_twiceClosedBlock
  have hTells : TellsEnd ([] ++ [("brief".toList, ["Adds.".toList])]) := TellsEnd.brief rfl
  exact ⟨hFeed, hTrailed, hTwice, hLast (by decide), fun h => absurd ((hRead hTells).mp h) (by decide),
    hUnread (by decide)⟩

theorem not_forall_read_closed :
    ¬∀ (cursor : Cursor) (block : Block), (∀ line ∈ cursor.lines, '\n' ∉ line) →
      cursor.nextBlock.1 = some block →
      ∀ lead front behind, CutAtCloser block.text lead front behind →
        Doc.read block.text = Doc.read (lead ++ (front ++ ['*', '/'])) := by
  intro h
  exact absurd (h (Cursor.atLine trailedLines 0) trailedBlock (by decide) (by decide) _ _ _
    cutAtCloser_trailedBlock) (by decide)

end Doc

end HeaderDigest
