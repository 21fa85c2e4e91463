import HeaderDigest.Proofs.Declaration.Reindented
import HeaderDigest.Proofs.Doc.Words
import HeaderDigest.Source.Block

/-!
# Delimiters and decoration

Of a line of a block, an opener at its beginning, a closer at its end and one star behind the opener
are no prose. A line that holds no more than these says nothing, wherever it stands in the block, and
a line that holds anything else, be it a second star, is prose.
-/

namespace HeaderDigest

open Text

namespace Doc

/-- Blanks at the ends aside, an opener, at most one star among blanks, and a closer. Both delimiters
may be missing. -/
def IsBare (line : Text) : Prop :=
  ∃ opener inner closer, (opener = [] ∨ opener = ['/', '*', '*']) ∧ (closer = [] ∨ closer = ['*', '/']) ∧
    (trim inner = [] ∨ trim inner = ['*']) ∧ trim line = opener ++ inner ++ closer

/-- The bare lines that have no blanks but at their ends, without these. -/
def bareRuns : List Text :=
  [[], "*".toList, "*/".toList, "**/".toList, "/**".toList, "/***".toList, "/***/".toList, "/****/".toList]

theorem trim_withoutStar_eq_nil_iff (s : Text) :
    trim (withoutPrefix ['*'] (trimStart s)) = [] ↔ trim s = [] ∨ trim s = ['*'] := by
  rw [← trim_trimStart s]
  have hStart := startsBlank_trimStart s
  cases hText : trimStart s with
  | nil => exact ⟨fun _ => Or.inl rfl, fun _ => rfl⟩
  | cons c t =>
    rw [hText] at hStart
    have hc : isBlank c = false := hStart
    rw [trim_cons hc]
    by_cases hStar : c = '*'
    · subst hStar
      have hRest : withoutPrefix ['*'] ('*' :: t) = t := withoutPrefix_append ['*'] t
      rw [hRest, trim_eq_nil_iff, ← trimEnd_eq_nil_iff]
      simp
    · have hRest : withoutPrefix ['*'] (c :: t) = c :: t :=
        withoutPrefix_eq_self fun h => hStar (List.cons_prefix_cons.mp h).1.symm
      rw [hRest, trim_cons hc]
      simp [hStar]

theorem IsBare.of_proseLine {line : Text} (h : proseLine line = []) : IsBare line := by
  obtain ⟨opener, hOpener, hBegin⟩ : ∃ opener, (opener = [] ∨ opener = ['/', '*', '*']) ∧
      trim line = opener ++ withoutPrefix ['/', '*', '*'] (trim line) := by
    by_cases hPrefix : ['/', '*', '*'] <+: trim line
    · obtain ⟨rest, hRest⟩ := hPrefix
      exact ⟨_, Or.inr rfl, by rw [← hRest, withoutPrefix_append]⟩
    · exact ⟨_, Or.inl rfl, by rw [withoutPrefix_eq_self hPrefix, List.nil_append]⟩
  obtain ⟨closer, hCloser, hEnd⟩ : ∃ closer, (closer = [] ∨ closer = ['*', '/']) ∧
      withoutPrefix ['/', '*', '*'] (trim line) =
        withoutSuffix ['*', '/'] (withoutPrefix ['/', '*', '*'] (trim line)) ++ closer := by
    obtain ⟨stem, hStem, hWithout⟩ | ⟨-, hWithout⟩ :=
      withoutSuffix_cases ['*', '/'] (withoutPrefix ['/', '*', '*'] (trim line))
    · exact ⟨_, Or.inr rfl, by rw [hWithout, ← hStem]⟩
    · exact ⟨_, Or.inl rfl, by rw [hWithout, List.append_nil]⟩
  exact ⟨opener, _, closer, hOpener, hCloser, (trim_withoutStar_eq_nil_iff _).mp h,
    by rw [List.append_assoc, ← hEnd, ← hBegin]⟩

theorem IsBare.proseLine_eq {line : Text} (h : IsBare line) : proseLine line = [] := by
  obtain ⟨opener, inner, closer, hOpener, hCloser, hInner, hLine⟩ := h
  have hSlash : '/' ∉ inner := by
    rw [← mem_trim (by decide)]
    obtain h | h := hInner <;> rw [h] <;> decide
  have hBegin : withoutPrefix ['/', '*', '*'] (trim line) = inner ++ closer := by
    rw [hLine, List.append_assoc]
    obtain rfl | rfl := hOpener
    · apply withoutPrefix_eq_self
      intro hPrefix
      cases inner with
      | nil => obtain rfl | rfl := hCloser <;> revert hPrefix <;> decide
      | cons c inner => exact hSlash ((List.cons_prefix_cons.mp hPrefix).1 ▸ List.mem_cons_self)
    · exact withoutPrefix_append _ _
  have hEnd : withoutSuffix ['*', '/'] (inner ++ closer) = inner := by
    obtain rfl | rfl := hCloser
    · rw [List.append_nil]
      exact withoutSuffix_eq_self fun hSuffix => hSlash (hSuffix.subset (by decide))
    · exact withoutSuffix_append _ _
  rw [proseLine, trim_withoutStar_eq_nil_iff, hBegin, hEnd]
  exact hInner

theorem proseLine_eq_nil_iff {line : Text} : proseLine line = [] ↔ IsBare line :=
  ⟨.of_proseLine, IsBare.proseLine_eq⟩

theorem isBare_iff_mem_bareRuns {line : Text} (h : ∀ c ∈ trim line, isBlank c = false) :
    IsBare line ↔ trim line ∈ bareRuns := by
  constructor
  · rintro ⟨opener, inner, closer, hOpener, hCloser, hInner, hLine⟩
    have hSelf : trim inner = inner := by
      cases inner with
      | nil => rfl
      | cons c t =>
        refine trim_eq_self (IsWord.trimmed ⟨List.cons_ne_nil c t, fun d hd => h d ?_⟩)
        rw [hLine]
        exact List.mem_append_left closer (List.mem_append_right opener hd)
    rw [hSelf] at hInner
    rw [hLine]
    obtain rfl | rfl := hOpener <;> obtain rfl | rfl := hInner <;> obtain rfl | rfl := hCloser <;> decide
  · intro hMem
    rw [← proseLine_eq_nil_iff]
    have hTrim : proseLine line = proseLine (trim line) := by rw [proseLine, proseLine, trim_trim]
    rw [hTrim]
    generalize trim line = s at hMem
    revert s
    decide

theorem words_eq_nil_iff {s : Text} : words s = [] ↔ trim s = [] := by
  rw [← words_trim]
  cases hTrim : trim s with
  | nil => exact iff_of_true rfl rfl
  | cons c t =>
    have hStart := (trimmed_trim s).1
    rw [hTrim] at hStart
    rw [words_cons_of_written hStart]
    exact iff_of_false (List.cons_ne_nil _ _) (List.cons_ne_nil _ _)

theorem words_proseLine_eq_nil_iff {line : Text} : words (proseLine line) = [] ↔ IsBare line := by
  have hTrim : trim (proseLine line) = proseLine line := trim_trim _
  rw [words_eq_nil_iff, hTrim, proseLine_eq_nil_iff]

theorem blockWords_eq_nil_iff (raw : Text) : blockWords raw = [] ↔ ∀ line ∈ lines raw, IsBare line := by
  simp only [blockWords, List.flatMap_eq_nil_iff, words_proseLine_eq_nil_iff]

theorem blockWords_joinLines {ls : List Text} (h : ∀ l ∈ ls, '\n' ∉ l) :
    blockWords (joinLines ls) = ls.flatMap fun line => words (proseLine line) := by
  refine (reindented_lines_joinLines h).flatMap_eq (fun line => ?_) rfl
  rw [proseLine, proseLine, trim_trim]

theorem blockWords_insert {before after : List Text} {line : Text}
    (hLines : ∀ l ∈ before ++ after, '\n' ∉ l) (hLine : '\n' ∉ line) :
    blockWords (joinLines (before ++ line :: after)) =
      (before.flatMap fun l => words (proseLine l)) ++
        (words (proseLine line) ++ after.flatMap fun l => words (proseLine l)) := by
  obtain ⟨hBefore, hAfter⟩ := List.forall_mem_append.mp hLines
  have hAll : ∀ l ∈ before ++ line :: after, '\n' ∉ l :=
    List.forall_mem_append.mpr ⟨hBefore, List.forall_mem_cons.mpr ⟨hLine, hAfter⟩⟩
  rw [blockWords_joinLines hAll, List.flatMap_append, List.flatMap_cons]

def SaysNothing (doc : Doc) : Prop := doc.description = [] ∧ doc.brief = [] ∧ doc.tags = []

instance (doc : Doc) : Decidable doc.SaysNothing := inferInstanceAs (Decidable (_ ∧ _))

/-- Without a tag, all that is said is the description. -/
theorem description_of_tags_eq_nil {raw : Text} (h : (Doc.read raw).tags = []) :
    (Doc.read raw).description = joinWords (blockWords raw) := by
  rw [read_eq_ofWords] at h ⊢
  have hNoTags : (splitWords (blockWords raw)).2 = [] := List.map_eq_nil_iff.mp (List.map_eq_nil_iff.mp h)
  have hAll := (isSplit_splitWords (blockWords raw)).all
  rw [hNoTags, List.flatMap_nil, List.append_nil] at hAll
  exact congrArg joinWords hAll.symm

theorem saysNothing_read_iff (raw : Text) : (Doc.read raw).SaysNothing ↔ blockWords raw = [] := by
  constructor
  · rintro ⟨hDescription, -, hTags⟩
    rw [description_of_tags_eq_nil hTags] at hDescription
    have hWords := words_joinWords fun w (hw : w ∈ blockWords raw) => isWord_of_mem_blockWords hw
    rw [hDescription] at hWords
    exact hWords.symm
  · intro hWords
    rw [read_eq_ofWords, hWords]
    exact ⟨rfl, rfl, rfl⟩

/-- A line that may be put into any block without a change is bare: between an opener and a closer
alone, any other line says something. -/
theorem read_insert_iff {line : Text} (hLine : '\n' ∉ line) :
    (∀ before after : List Text, (∀ l ∈ before ++ after, '\n' ∉ l) →
      Doc.read (joinLines (before ++ line :: after)) = Doc.read (joinLines (before ++ after))) ↔
      IsBare line := by
  rw [← words_proseLine_eq_nil_iff]
  constructor
  · intro hSame
    have hNothing : (Doc.read (joinLines (["/**".toList] ++ line :: [" */".toList]))).SaysNothing := by
      rw [hSame _ _ (by decide)]
      decide
    rw [saysNothing_read_iff, blockWords_insert (by decide) hLine, List.append_eq_nil_iff] at hNothing
    exact (List.append_eq_nil_iff.mp hNothing.2).1
  · intro hWords before after hLines
    rw [read_eq_ofWords, read_eq_ofWords, blockWords_insert hLines hLine, hWords, List.nil_append,
      blockWords_joinLines hLines, List.flatMap_append]

/-- A block says nothing if all of its lines are bare, and only then. The bare lines are also those
that may be put anywhere into any block. Of runs without blanks only eight make a bare line, so one
star more than these is prose. -/
theorem read_bare (raw line : Text) :
    ((Doc.read raw).SaysNothing ↔ ∀ l ∈ lines raw, IsBare l) ∧
      ('\n' ∉ line →
        ((∀ before after : List Text, (∀ l ∈ before ++ after, '\n' ∉ l) →
          Doc.read (joinLines (before ++ line :: after)) = Doc.read (joinLines (before ++ after))) ↔
          IsBare line)) ∧
      ((∀ c ∈ trim line, isBlank c = false) → (IsBare line ↔ trim line ∈ bareRuns)) := by
  refine ⟨?_, read_insert_iff, isBare_iff_mem_bareRuns⟩
  rw [saysNothing_read_iff, blockWords_eq_nil_iff]

def sumBlockLines : List Text := ["/** @brief Adds two numbers.".toList, " * @return The sum. */".toList]

theorem read_bare_sumBlockLines :
    (∀ c ∈ trim " *\t".toList, isBlank c = false) ∧ '\n' ∉ " *\t".toList ∧ IsBare " *\t".toList ∧
      Doc.read (joinLines (sumBlockLines.take 1 ++ " *\t".toList :: sumBlockLines.drop 1)) =
        Doc.read (joinLines sumBlockLines) := by
  have hWritten : ∀ c ∈ trim " *\t".toList, isBlank c = false := by decide
  obtain ⟨-, hInsert, hRuns⟩ := read_bare [] " *\t".toList
  have hBare : IsBare " *\t".toList := (hRuns hWritten).mpr (by decide)
  exact ⟨hWritten, by decide, hBare, (hInsert (by decide)).mpr hBare _ _ (by decide)⟩

/-- An opener whose second star belongs to the closer leaves a slash, and of two stars one is left. -/
theorem not_forall_saysNothing :
    (¬∀ text : Text, ∀ block ∈ Block.list (lines text),
      (∀ c ∈ block.text, c = '/' ∨ c = '*' ∨ isBlank c = true) → (Doc.read block.text).SaysNothing) ∧
      ¬∀ line : Text, (∀ c ∈ line, c = '*' ∨ isBlank c = true) → ∀ before after : List Text,
        Doc.read (joinLines (before ++ line :: after)) = Doc.read (joinLines (before ++ after)) := by
  constructor
  · intro h
    exact absurd (h "/**/".toList ⟨"/**/".toList, 0, 1⟩ (by decide) (by decide)) (by decide)
  · intro h
    exact absurd (h " **".toList (by decide) ["/**".toList] [" */".toList]) (by decide)

end Doc

end HeaderDigest
