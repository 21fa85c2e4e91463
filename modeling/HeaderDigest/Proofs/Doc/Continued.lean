import HeaderDigest.Proofs.Doc.Decoration
import HeaderDigest.Proofs.Text.WordBounds

/-!
# Prose that goes on

Prose that goes on behind its end, without a name that runs over into what follows, has the tags that
it had and those of what follows, and its last tag takes what comes before these along. So where the
last words of the prose are told at all, be it in the description, in a brief or in a note, nothing but
blanks can follow without a change to what is told.
-/

namespace HeaderDigest

open Text

namespace Text

variable {s u v : Text}

/-- Only blanks can stand behind a text without a change to its words. -/
theorem words_append_eq_iff (u v : Text) : words (u ++ v) = words u ↔ ∀ c ∈ v, isBlank c = true := by
  constructor
  · intro h
    have hWritten := congrArg List.flatten h
    rw [words, words, flatten_runs, flatten_runs, List.filter_append, List.append_right_eq_self,
      List.filter_eq_nil_iff] at hWritten
    simpa using hWritten
  · exact fun h => runs_append_right_of_neg (fun c hc => by simp [h c hc]) u

theorem normalize_inj : normalize u = normalize v ↔ words u = words v := by
  refine ⟨fun h => ?_, fun h => congrArg joinWords h⟩
  have hWords := congrArg words h
  rwa [normalize, normalize, words_joinWords fun w hw => isWord_of_mem_words hw,
    words_joinWords fun w hw => isWord_of_mem_words hw] at hWords

/-- Whether no name that ends a text, and no `@` there, goes on in the one behind it. -/
def NamesApart (u v : Text) : Prop := startsWord v = false ∨ u.getLast? = some '/'

theorem NamesApart.of_suffix (h : NamesApart u v) (hs : s <:+ u) (hNe : s ≠ []) : NamesApart s v := by
  obtain ⟨front, rfl⟩ := hs
  rwa [NamesApart, List.getLast?_append, List.getLast?_eq_some_getLast hNe, Option.some_or,
    ← List.getLast?_eq_some_getLast hNe] at h

theorem NamesApart.append_left (h : NamesApart u v) (s : Text) : NamesApart (s ++ u) v := by
  refine h.imp_right fun hEnd => ?_
  rw [List.getLast?_append, hEnd, Option.some_or]

theorem NamesApart.takeWhile_append (h : NamesApart u v) (hNe : u ≠ []) :
    (u ++ v).takeWhile isWordChar = u.takeWhile isWordChar := by
  obtain hStart | hEnd := h
  · exact takeWhile_append_of_bounds hStart u
  · refine takeWhile_append_of_endsWord hNe ?_ v
    rw [endsWord, hEnd]
    decide

theorem NamesApart.dropWhile_append (h : NamesApart u v) (hNe : u ≠ []) :
    (u ++ v).dropWhile isWordChar = u.dropWhile isWordChar ++ v := by
  have hWhole := List.takeWhile_append_dropWhile (p := isWordChar) (l := u ++ v)
  have hFirst := List.takeWhile_append_dropWhile (p := isWordChar) (l := u)
  rw [h.takeWhile_append hNe] at hWhole
  apply List.append_cancel_left
  rw [hWhole, ← List.append_assoc, hFirst]

end Text

namespace Doc

/-- The pieces of a text and those of what follows it, of which the first belongs to the last piece. -/
def joinSplit (before : Text) : List Text → Text → List Text → Text × List Text
  | [], next, more => (before ++ next, more)
  | piece :: pieces, next, more =>
    let (piece', pieces') := joinSplit piece pieces next more
    (before, piece' :: pieces')

theorem joinSplit_concat (before : Text) (pieces : List Text) (last next : Text) :
    joinSplit before (pieces ++ [last]) next [] = (before, pieces ++ [last ++ next]) := by
  induction pieces generalizing before with
  | nil => rfl
  | cons piece pieces ih => rw [List.cons_append, joinSplit, ih]; rfl

theorem length_joinSplit (before : Text) (pieces : List Text) (next : Text) (more : List Text) :
    (joinSplit before pieces next more).2.length = pieces.length + more.length := by
  induction pieces generalizing before with
  | nil => exact (Nat.zero_add _).symm
  | cons piece pieces ih =>
    rw [joinSplit, List.length_cons, List.length_cons, ih]
    omega

theorem joinSplit_cons (c : Char) (before : Text) (pieces : List Text) (next : Text) (more : List Text) :
    joinSplit (c :: before) pieces next more =
      (c :: (joinSplit before pieces next more).1, (joinSplit before pieces next more).2) := by
  cases pieces <;> rfl

theorem fst_splitTags (fresh : Bool) {v : Text} (h : (splitTags fresh v).2 = []) : (splitTags fresh v).1 = v := by
  induction v generalizing fresh with
  | nil => rfl
  | cons c v ih =>
    rw [splitTags_cons] at h ⊢
    split at h
    · cases h
    · rename_i hTag
      rw [if_neg hTag]
      exact congrArg (c :: ·) (ih _ h)

theorem startsName_eq_false {v : Text} (h : startsWord v = false) : startsName v = false := by
  cases v with
  | nil => rfl
  | cons d v =>
    rw [Bool.eq_false_iff]
    intro hName
    exact Bool.eq_false_iff.mp h (isWordChar_of_isNameStart d hName)

/-- No tag begins with an `@` at the end and a name behind it. -/
theorem startsTag_append {c : Char} {s v : Text} (h : NamesApart (c :: s) v) (fresh : Bool) :
    (fresh && c = '@' && startsName (s ++ v)) = (fresh && c = '@' && startsName s) := by
  cases s with
  | cons d s => rfl
  | nil =>
    obtain hStart | hEnd := h
    · rw [List.nil_append, startsName_eq_false hStart]
      rfl
    · obtain rfl : c = '/' := Option.some.inj hEnd
      simp

theorem exists_splitTags_append {s v : Text} (h : s ≠ [] → NamesApart s v) (fresh : Bool) :
    ∃ next more, (more = [] → next = v) ∧
      splitTags fresh (s ++ v) = joinSplit (splitTags fresh s).1 (splitTags fresh s).2 next more := by
  induction s generalizing fresh with
  | nil => exact ⟨_, _, fst_splitTags fresh, rfl⟩
  | cons c s ih =>
    have hApart := h (List.cons_ne_nil c s)
    obtain ⟨next, more, hNext, hSplit⟩ :=
      ih (hApart.of_suffix (List.suffix_cons c s)) (isBlank c)
    refine ⟨next, more, hNext, ?_⟩
    rw [List.cons_append, splitTags_cons, splitTags_cons, startsTag_append hApart, hSplit]
    split
    · rfl
    · exact (joinSplit_cons c _ _ next more).symm

/-- Where no tag is added, all that follows belongs to the last piece. -/
theorem splitTags_append_of_length {s v : Text} {fresh : Bool} (h : NamesApart s v)
    (hLength : (splitTags fresh (s ++ v)).2.length = (splitTags fresh s).2.length) :
    splitTags fresh (s ++ v) = joinSplit (splitTags fresh s).1 (splitTags fresh s).2 v [] := by
  obtain ⟨next, more, hNext, hSplit⟩ := exists_splitTags_append (fun _ => h) fresh
  rw [hSplit, length_joinSplit] at hLength
  obtain rfl : more = [] := List.length_eq_zero_iff.mp (by omega)
  rw [hSplit, hNext rfl]

/-- The last piece is the end of the text, and it begins with a name. -/
theorem suffix_of_splitTags {s last : Text} {pieces : List Text} {fresh : Bool}
    (h : (splitTags fresh s).2 = pieces ++ [last]) : last <:+ s ∧ last ≠ [] := by
  induction s generalizing pieces fresh with
  | nil =>
    have hNil : [] = pieces ++ [last] := h
    cases pieces <;> cases hNil
  | cons c s ih =>
    rw [splitTags_cons] at h
    split at h
    · rename_i hTag
      cases pieces with
      | nil =>
        obtain ⟨hLast, hNone⟩ := List.cons.inj h
        rw [fst_splitTags _ hNone] at hLast
        subst hLast
        refine ⟨List.suffix_cons c s, ?_⟩
        rintro rfl
        simp [startsName] at hTag
      | cons piece pieces =>
        obtain ⟨hSuffix, hNe⟩ := ih (List.cons.inj h).2
        exact ⟨hSuffix.trans (List.suffix_cons c s), hNe⟩
    · obtain ⟨hSuffix, hNe⟩ := ih h
      exact ⟨hSuffix.trans (List.suffix_cons c s), hNe⟩

theorem readTag_append_apart {last v : Text} (h : NamesApart last v) (hNe : last ≠ []) :
    readTag (last ++ v) = (last.takeWhile isWordChar, words (last.dropWhile isWordChar ++ v)) := by
  rw [readTag, h.takeWhile_append hNe, h.dropWhile_append hNe]

/-- The name that a text begins with, blanks aside, and what follows it. -/
def noteFrom? (named : Text) : Option (Text × Text) :=
  if ((trimStart named).takeWhile isWordChar).isEmpty then none
  else some ((trimStart named).takeWhile isWordChar, normalize ((trimStart named).dropWhile isWordChar))

theorem note?_unclosed {s : Text} (h : ']' ∉ s) : note? ('[' :: s) = none := by
  have hContains : s.contains ']' = false := by simpa using h
  simp only [note?, hContains, Bool.false_eq_true, if_false]
  rfl

theorem note?_closed {direction : Text} (h : ']' ∉ direction) (named : Text) :
    note? ('[' :: (direction ++ ']' :: named)) = noteFrom? named := by
  have hContains : (direction ++ ']' :: named).contains ']' = true := by simp
  have hDrop : (direction ++ ']' :: named).dropWhile (· != ']') = ']' :: named := by
    rw [List.dropWhile_append_of_pos fun c hc => by simpa using ne_of_mem_of_not_mem hc h]
    exact List.dropWhile_cons_of_neg (by simp)
  simp only [note?, hContains, if_true, hDrop]
  rfl

theorem note?_of_ne {c : Char} (hc : c ≠ '[') (s : Text) : note? (c :: s) = noteFrom? (c :: s) := by
  unfold note? noteFrom?
  split
  · rename_i heq
    exact absurd (List.cons.inj heq).1 hc
  · rfl

theorem noteFrom?_append {s v name text : Text} (h : s ≠ [] → NamesApart s v)
    (hNote : noteFrom? s = some (name, text)) :
    ∃ rest, text = normalize rest ∧ noteFrom? (s ++ v) = some (name, normalize (rest ++ v)) := by
  rw [noteFrom?] at hNote
  split at hNote
  · cases hNote
  rename_i hName
  obtain ⟨rfl, rfl⟩ := Prod.mk.inj (Option.some.inj hNote)
  have hSuffix : trimStart s <:+ s := List.dropWhile_suffix isBlank
  have hStart : trimStart s ≠ [] := by
    intro hNil
    rw [hNil] at hName
    exact hName rfl
  have hNe : s ≠ [] := by
    rintro rfl
    exact hStart rfl
  have hApart : NamesApart (trimStart s) v := (h hNe).of_suffix hSuffix hStart
  refine ⟨_, rfl, ?_⟩
  rw [noteFrom?, trimStart_append_of_ne_nil hStart, hApart.takeWhile_append hStart,
    hApart.dropWhile_append hStart, if_neg hName]

theorem note?_append {s v name text : Text} (h : NamesApart s v) (hNote : note? s = some (name, text)) :
    ∃ rest, text = normalize rest ∧ note? (s ++ v) = some (name, normalize (rest ++ v)) := by
  cases s with
  | nil => cases hNote
  | cons c s =>
    by_cases hBracket : c = '['
    · subst hBracket
      by_cases hCloses : ']' ∈ s
      · obtain ⟨direction, named, rfl, hDirection⟩ := List.eq_append_cons_of_mem hCloses
        rw [note?_closed hDirection] at hNote
        rw [List.cons_append, List.append_assoc, List.cons_append, note?_closed hDirection]
        have hSuffix : named <:+ direction ++ ']' :: named :=
          (List.suffix_cons ']' named).trans (List.suffix_append direction _)
        exact noteFrom?_append (h.of_suffix (hSuffix.trans (List.suffix_cons '[' _))) hNote
      · rw [note?_unclosed hCloses] at hNote
        cases hNote
    · rw [note?_of_ne hBracket] at hNote
      rw [List.cons_append, note?_of_ne hBracket]
      exact noteFrom?_append (fun _ => h) hNote

theorem noteOfWords?_append {s v name text : Text} (h : s ≠ [] → NamesApart s v)
    (hNote : noteOfWords? (words s) = some (name, text)) :
    ∃ rest, text = normalize rest ∧ noteOfWords? (words (s ++ v)) = some (name, normalize (rest ++ v)) := by
  have hStart : trimStart s ≠ [] := by
    intro hNil
    rw [← words_trimStart, hNil] at hNote
    cases hNote
  have hNe : s ≠ [] := by
    rintro rfl
    exact hStart rfl
  have hSuffix : trimStart s <:+ s := List.dropWhile_suffix isBlank
  have hWritten := startsBlank_trimStart s
  rw [← words_trimStart, ← note?_eq_noteOfWords? hWritten] at hNote
  obtain ⟨rest, hText, hMore⟩ := note?_append ((h hNe).of_suffix hSuffix hStart) hNote
  refine ⟨rest, hText, ?_⟩
  rw [← words_trimStart, trimStart_append_of_ne_nil hStart, ← note?_eq_noteOfWords?, hMore]
  rwa [startsBlank_append _ hStart]

/-- The tags among words, each with the words of its body. -/
def namedTags (ws : List Text) : List (Text × List Text) :=
  (splitWords ws).2.map fun tag => (tag.name, tag.body)

/-- Whether the words at the end of a block are told: they belong to the description, to the first
brief that says something, or to a note. -/
inductive TellsEnd : List (Text × List Text) → Prop
  | description : TellsEnd []
  | brief {tags : List (Text × List Text)} {body : List Text} : firstBrief tags = [] →
      TellsEnd (tags ++ [("brief".toList, body)])
  | note {tags : List (Text × List Text)} {name : Text} {body : List Text} :
      name = "param".toList ∨ name = "member".toList → (noteOfWords? body).isSome →
      TellsEnd (tags ++ [(name, body)])

theorem TellsEnd.of_concat {tags : List (Text × List Text)} {name : Text} {body : List Text}
    (h : TellsEnd (tags ++ [(name, body)])) :
    (name = "brief".toList ∧ firstBrief tags = []) ∨
      ((name = "param".toList ∨ name = "member".toList) ∧ (noteOfWords? body).isSome) := by
  generalize hAll : tags ++ [(name, body)] = all at h
  cases h with
  | description => simp at hAll
  | brief hFirst =>
    obtain ⟨rfl, hLast⟩ := List.append_inj' hAll rfl
    cases hLast
    exact Or.inl ⟨rfl, hFirst⟩
  | note hName hNote =>
    obtain ⟨rfl, hLast⟩ := List.append_inj' hAll rfl
    cases hLast
    exact Or.inr ⟨hName, hNote⟩

theorem bodiesOf_concat (name : Text) (tags : List (Text × List Text)) (body : List Text) :
    bodiesOf name (tags ++ [(name, body)]) = bodiesOf name tags ++ [body] := by
  rw [bodiesOf, bodiesOf, List.filter_append, List.map_append, List.filter_cons_of_pos (by simp)]
  rfl

theorem firstBrief_concat {tags : List (Text × List Text)} (h : firstBrief tags = []) (body : List Text) :
    firstBrief (tags ++ [("brief".toList, body)]) = body := by
  rw [firstBrief, bodiesOf_concat, List.find?_append]
  rw [firstBrief] at h
  cases hFind : (bodiesOf "brief".toList tags).find? fun body => !body.isEmpty with
  | none => cases body <;> rfl
  | some found =>
    rw [hFind] at h
    have hNe := List.find?_some hFind
    rw [show found = [] from h] at hNe
    cases hNe

/-- The note of the last tag is in its place. -/
theorem get_putAll_concat {name key text : Text} {body : List Text} (tags : List (Text × List Text))
    (h : noteOfWords? body = some (key, text)) :
    (putAll [] (notesOf name (tags ++ [(name, body)]))).get key = text := by
  rw [get_putAll, notesOf, bodiesOf_concat, List.filterMap_append, List.filterMap_cons_some h,
    List.reverse_append]
  simp

/-- What is told changes where the last tag tells its words and these go on. -/
theorem ofWords_ne_of_last {ws ws' : List Text} {tags : List (Text × List Text)} {name d v : Text}
    (h : d ≠ [] → NamesApart d v) (hGrows : ∀ u, words (u ++ v) ≠ words u)
    (hTags : namedTags ws = tags ++ [(name, words d)])
    (hTags' : namedTags ws' = tags ++ [(name, words (d ++ v))])
    (hTells : TellsEnd (namedTags ws)) : ofWords ws' ≠ ofWords ws := by
  intro hSame
  rw [hTags] at hTells
  obtain ⟨rfl, hFirst⟩ | ⟨hName, hNote⟩ := hTells.of_concat
  · have hBrief : joinWords (firstBrief (namedTags ws')) = joinWords (firstBrief (namedTags ws)) :=
      congrArg Doc.brief hSame
    rw [hTags, hTags', firstBrief_concat hFirst, firstBrief_concat hFirst] at hBrief
    exact hGrows d (normalize_inj.mp hBrief)
  · obtain ⟨⟨key, text⟩, hText⟩ := Option.isSome_iff_exists.mp hNote
    obtain ⟨rest, rfl, hText'⟩ := noteOfWords?_append h hText
    have hNotes : putAll [] (notesOf name (namedTags ws')) = putAll [] (notesOf name (namedTags ws)) := by
      obtain rfl | rfl := hName
      · exact congrArg Doc.params hSame
      · exact congrArg Doc.members hSame
    have hGet := congrArg (Notes.get · key) hNotes
    simp only [hTags, hTags', get_putAll_concat tags hText, get_putAll_concat tags hText'] at hGet
    exact hGrows rest (normalize_inj.mp hGet)

/-- Nothing but blanks can follow prose that tells its last words without a change to what is told. -/
theorem ofWords_append_ne {s v : Text} (h : NamesApart s v) (hWritten : ¬∀ c ∈ v, isBlank c = true)
    (hTells : TellsEnd (namedTags (words s))) : ofWords (words (s ++ v)) ≠ ofWords (words s) := by
  have hGrows (u : Text) : words (u ++ v) ≠ words u := mt (words_append_eq_iff u v).mp hWritten
  obtain ⟨hBefore, hTags⟩ := splitTags_eq_splitWords s
  obtain ⟨hBefore', hTags'⟩ := splitTags_eq_splitWords (s ++ v)
  intro hSame
  have hLength : (splitTags true (s ++ v)).2.length = (splitTags true s).2.length := by
    have hNames := congrArg List.length (congrArg Doc.tags hSame)
    simpa [ofWords, ← hTags, ← hTags'] using hNames
  have hSplit := splitTags_append_of_length h hLength
  rcases List.eq_nil_or_concat (splitTags true s).2 with hNone | ⟨pieces, last, hLast⟩
  · have hDescription : joinWords (splitWords (words (s ++ v))).1 = joinWords (splitWords (words s)).1 :=
      congrArg Doc.description hSame
    rw [← hBefore, ← hBefore', hSplit, hNone] at hDescription
    exact hGrows _ (normalize_inj.mp hDescription)
  · rw [List.concat_eq_append] at hLast
    obtain ⟨hSuffix, hNe⟩ := suffix_of_splitTags hLast
    have hApart := h.of_suffix hSuffix hNe
    rw [hSplit, hLast, joinSplit_concat, List.map_append, List.map_singleton,
      readTag_append_apart hApart hNe] at hTags'
    rw [hLast, List.map_append, List.map_singleton, readTag] at hTags
    exact ofWords_ne_of_last (hApart.of_suffix (List.dropWhile_suffix isWordChar)) hGrows hTags.symm
      hTags'.symm hTells hSame

end Doc

end HeaderDigest
