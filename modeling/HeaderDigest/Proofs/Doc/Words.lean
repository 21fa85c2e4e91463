import HeaderDigest.Proofs.Doc.Tags
import HeaderDigest.Proofs.Text.Blanks
import HeaderDigest.Proofs.Text.Respaced

/-!
# Reading a documentation block word by word

Of the lines of a block, once the delimiters and the star in front are gone, only the words count.
A word that begins a tag takes the words up to the next tag along, so every word of the block belongs
to the description or to one tag, and all that is read from the block is read from these.
-/

namespace HeaderDigest

open Text

namespace Text

/-- Puts a word in front of others, unless there is nothing in it. -/
def consWord (w : Text) (ws : List Text) : List Text := if w.isEmpty then ws else w :: ws

def isWritten (c : Char) : Bool := !isBlank c

theorem words_eq_consWord (s : Text) :
    words s = consWord (s.takeWhile isWritten) (words (s.dropWhile isWritten)) := by
  cases s with
  | nil => rfl
  | cons c s =>
    cases hc : isWritten c with
    | false =>
      rw [List.takeWhile_cons_of_neg (by simp [hc]), List.dropWhile_cons_of_neg (by simp [hc])]
      rfl
    | true =>
      rw [List.takeWhile_cons_of_pos hc, List.dropWhile_cons_of_pos hc]
      exact runs_cons_of_pos hc s

theorem words_trimStart (s : Text) : words (trimStart s) = words s := by
  obtain ⟨u, hu, hs⟩ := exists_eq_append_trimStart s
  have hWords : words (u ++ trimStart s) = words (trimStart s) :=
    runs_append_left_of_neg (fun c hc => by simp [hu c hc]) _
  rw [← hWords, ← hs]

/-- A beginning of word characters is taken off the first word alone. -/
theorem words_dropWhile_isWordChar (s : Text) :
    words (s.dropWhile isWordChar) =
      consWord ((s.takeWhile isWritten).dropWhile isWordChar) (words (s.dropWhile isWritten)) := by
  induction s with
  | nil => rfl
  | cons c s ih =>
    cases hWord : isWordChar c with
    | true =>
      have hc : isWritten c = true := by simp [isWritten, isBlank_eq_false_of_isWordChar hWord]
      rw [List.takeWhile_cons_of_pos hc, List.dropWhile_cons_of_pos hc, List.dropWhile_cons_of_pos hWord,
        List.dropWhile_cons_of_pos hWord, ih]
    | false =>
      have hStop : ¬isWordChar c = true := by simp [hWord]
      rw [List.dropWhile_cons_of_neg hStop, words_eq_consWord (c :: s)]
      cases hc : isWritten c with
      | true => rw [List.takeWhile_cons_of_pos hc, List.dropWhile_cons_of_neg hStop]
      | false =>
        rw [List.takeWhile_cons_of_neg (by simp [hc])]
        rfl

/-- The word characters at the beginning of a text are those of its first word. -/
theorem takeWhile_isWordChar_takeWhile (s : Text) :
    (s.takeWhile isWritten).takeWhile isWordChar = s.takeWhile isWordChar := by
  induction s with
  | nil => rfl
  | cons c s ih =>
    cases hBlank : isBlank c with
    | true =>
      have hc : isWritten c = false := by simp [isWritten, hBlank]
      have hWord := isWordChar_eq_false_of_isBlank c hBlank
      rw [List.takeWhile_cons_of_neg (by simp [hc]), List.takeWhile_cons_of_neg (by simp [hWord])]
      rfl
    | false =>
      have hc : isWritten c = true := by simp [isWritten, hBlank]
      rw [List.takeWhile_cons_of_pos hc]
      cases hWord : isWordChar c with
      | true => rw [List.takeWhile_cons_of_pos hWord, List.takeWhile_cons_of_pos hWord, ih]
      | false =>
        have hStop : ¬isWordChar c = true := by simp [hWord]
        rw [List.takeWhile_cons_of_neg hStop, List.takeWhile_cons_of_neg hStop]

end Text

namespace Doc

/-- The words of a block in their order. -/
def blockWords (raw : Text) : List Text := (lines raw).flatMap fun line => words (proseLine line)

theorem isWord_of_mem_blockWords {raw w : Text} (h : w ∈ blockWords raw) : IsWord w := by
  obtain ⟨line, -, hLine⟩ := List.mem_flatMap.mp h
  exact isWord_of_mem_words hLine

theorem words_prose (raw : Text) : words (prose raw) = blockWords raw := by
  rw [prose, words_joinWords_eq_flatMap, blockWords]
  induction lines raw with
  | nil => rfl
  | cons line more ih =>
    rw [List.map_cons, List.flatMap_cons, ← ih]
    by_cases hEmpty : proseLine line = []
    · rw [List.filter_cons_of_neg (by simp [hEmpty]), hEmpty]
      rfl
    · rw [List.filter_cons_of_pos (by simpa using hEmpty), List.flatMap_cons]

/-- A word that begins a tag, and the words up to the next one. -/
structure WordTag where
  word : Text
  words : List Text

namespace WordTag

def name (tag : WordTag) : Text := (tag.word.drop 1).takeWhile isWordChar

/-- What is left of the word behind the name, and the words that follow. -/
def body (tag : WordTag) : List Text := consWord ((tag.word.drop 1).dropWhile isWordChar) tag.words

end WordTag

/-- The words before the first tag, and the tags. -/
def splitWords : List Text → List Text × List WordTag
  | [] => ([], [])
  | w :: ws =>
    let (before, tags) := splitWords ws
    if isTagStart w then ([], ⟨w, before⟩ :: tags) else (w :: before, tags)

/-- A cut of words at those that begin a tag. -/
structure IsSplit (ws before : List Text) (tags : List WordTag) : Prop where
  all : ws = before ++ tags.flatMap fun tag => tag.word :: tag.words
  before : ∀ w ∈ before, isTagStart w = false
  begins : ∀ tag ∈ tags, isTagStart tag.word = true
  words : ∀ tag ∈ tags, ∀ w ∈ tag.words, isTagStart w = false

theorem splitWords_cons_of_tag {w : Text} (h : isTagStart w = true) (ws : List Text) :
    splitWords (w :: ws) = ([], ⟨w, (splitWords ws).1⟩ :: (splitWords ws).2) := if_pos h

theorem splitWords_cons_of_not_tag {w : Text} (h : isTagStart w = false) (ws : List Text) :
    splitWords (w :: ws) = (w :: (splitWords ws).1, (splitWords ws).2) := if_neg (by simp [h])

theorem isSplit_splitWords (ws : List Text) : IsSplit ws (splitWords ws).1 (splitWords ws).2 := by
  induction ws with
  | nil => exact ⟨rfl, by simp [splitWords], by simp [splitWords], by simp [splitWords]⟩
  | cons w ws ih =>
    obtain ⟨hAll, hBefore, hBegins, hWords⟩ := ih
    cases hTag : isTagStart w with
    | true =>
      rw [splitWords_cons_of_tag hTag]
      refine ⟨?_, fun v hv => absurd hv List.not_mem_nil, List.forall_mem_cons.mpr ⟨hTag, hBegins⟩,
        List.forall_mem_cons.mpr ⟨hBefore, hWords⟩⟩
      rw [List.flatMap_cons, List.nil_append, List.cons_append, ← hAll]
    | false =>
      rw [splitWords_cons_of_not_tag hTag]
      refine ⟨?_, List.forall_mem_cons.mpr ⟨hTag, hBefore⟩, hBegins, hWords⟩
      rw [List.cons_append, ← hAll]

/-- What may stand behind a whole word. -/
def StopsWord (s : Text) : Prop := ∀ c ∈ s.head?, isBlank c = true

theorem stopsWord_dropWhile (s : Text) : StopsWord (s.dropWhile isWritten) := by
  intro c hc
  have hStop := List.head?_dropWhile_not isWritten s
  rw [Option.mem_def.mp hc] at hStop
  simpa [isWritten] using hStop

/-- Behind a word, its first word is the word itself. -/
theorem span_word_append {w tail : Text} (h : ∀ c ∈ w, isBlank c = false) (hTail : StopsWord tail) :
    (w ++ tail).takeWhile isWritten = w ∧ (w ++ tail).dropWhile isWritten = tail := by
  have hWritten : ∀ c ∈ w, isWritten c = true := fun c hc => by simp [isWritten, h c hc]
  rw [List.takeWhile_append_of_pos hWritten, List.dropWhile_append_of_pos hWritten]
  cases tail with
  | nil => exact ⟨List.append_nil w, rfl⟩
  | cons c tail =>
    have hStop : ¬isWritten c = true := by simp [isWritten, hTail c rfl]
    rw [List.takeWhile_cons_of_neg hStop, List.dropWhile_cons_of_neg hStop, List.append_nil]
    exact ⟨rfl, rfl⟩

theorem words_word_append {w tail : Text} (h : IsWord w) (hTail : StopsWord tail) :
    words (w ++ tail) = w :: words tail := by
  obtain ⟨hTake, hDrop⟩ := span_word_append h.2 hTail
  rw [words_eq_consWord, hTake, hDrop, consWord, if_neg (by simp [h.1])]

theorem splitTags_of_stopsWord {s : Text} (h : StopsWord s) (fresh : Bool) :
    splitTags fresh s = splitTags true s ∧ StopsWord (splitTags true s).1 := by
  cases s with
  | nil => exact ⟨rfl, h⟩
  | cons c s =>
    have hc := h c rfl
    have hAt : c ≠ '@' := by
      rintro rfl
      cases hc
    have hSplit (fresh : Bool) : splitTags fresh (c :: s) =
        (c :: (splitTags (isBlank c) s).1, (splitTags (isBlank c) s).2) := by
      rw [splitTags_cons, if_neg (by simp [hAt])]
    rw [hSplit, hSplit]
    exact ⟨rfl, h⟩

/-- The name of a tag that stands in a text, and the words of its body. -/
def readTag (tag : Text) : Text × List Text :=
  (tag.takeWhile isWordChar, words (tag.dropWhile isWordChar))

theorem readTag_append {w tail : Text} (h : ∀ c ∈ w, isBlank c = false) (hTail : StopsWord tail) :
    readTag (w ++ tail) = (w.takeWhile isWordChar, consWord (w.dropWhile isWordChar) (words tail)) := by
  obtain ⟨hTake, hDrop⟩ := span_word_append h hTail
  rw [readTag, words_dropWhile_isWordChar, ← takeWhile_isWordChar_takeWhile, hTake, hDrop]

theorem exists_of_isTagStart {w : Text} (h : isTagStart w = true) :
    ∃ c rest, w = '@' :: c :: rest ∧ isNameStart c = true := by
  unfold isTagStart at h
  split at h
  · exact ⟨_, _, rfl, h⟩
  · cases h

/-- Splitting a text at its tags splits its words. The induction goes from one word to the next. -/
theorem splitTags_eq_splitWords (s : Text) :
    words (splitTags true s).1 = (splitWords (words s)).1 ∧
      (splitTags true s).2.map readTag = (splitWords (words s)).2.map fun tag => (tag.name, tag.body) := by
  induction hLength : s.length using Nat.strongRecOn generalizing s with
  | ind n ih =>
    subst hLength
    cases s with
    | nil => exact ⟨rfl, rfl⟩
    | cons c s =>
      cases hBlank : isBlank c with
      | true =>
        have hAt : c ≠ '@' := by
          rintro rfl
          cases hBlank
        obtain ⟨hBefore, hTags⟩ := ih s.length (by simp) s rfl
        rw [splitTags_cons, if_neg (by simp [hAt]), hBlank, Respaced.words_blank_cons hBlank,
          Respaced.words_blank_cons hBlank]
        exact ⟨hBefore, hTags⟩
      | false =>
        obtain ⟨w, hw⟩ : ∃ w, w = c :: s.takeWhile isWritten := ⟨_, rfl⟩
        have hWord : IsWord w := by
          refine ⟨hw ▸ List.cons_ne_nil _ _, hw ▸ List.forall_mem_cons.mpr ⟨hBlank, fun d hd => ?_⟩⟩
          simpa [isWritten] using List.mem_takeWhile_imp hd
        have hTail := stopsWord_dropWhile s
        have hText : c :: s = w ++ s.dropWhile isWritten := by
          rw [hw, List.cons_append, List.takeWhile_append_dropWhile]
        obtain ⟨hFresh, hStops⟩ := splitTags_of_stopsWord hTail false
        have hShorter := (List.dropWhile_sublist (p := isWritten) (l := s)).length_le
        obtain ⟨hBefore, hTags⟩ :=
          ih (s.dropWhile isWritten).length (Nat.lt_succ_of_le hShorter) (s.dropWhile isWritten) rfl
        rw [hText, words_word_append hWord hTail]
        cases hTag : isTagStart w with
        | false =>
          rw [splitTags_word hWord (fun _ => hTag) hTail, hFresh, splitWords_cons_of_not_tag hTag]
          exact ⟨(words_word_append hWord hStops).trans (congrArg (w :: ·) hBefore), hTags⟩
        | true =>
          obtain ⟨d, rest, rfl, hStart⟩ := exists_of_isTagStart hTag
          have hName : IsWord (d :: rest) :=
            ⟨List.cons_ne_nil d rest, fun e he => hWord.2 e (List.mem_cons_of_mem _ he)⟩
          rw [List.cons_append, splitTags_cons, if_pos (by simp [startsName, hStart]),
            show isBlank '@' = false from by decide, splitTags_word hName (by simp) hTail, hFresh,
            splitWords_cons_of_tag hTag]
          refine ⟨rfl, ?_⟩
          rw [List.map_cons, List.map_cons, hTags, readTag_append hName.2 hStops, hBefore]
          rfl

/-- The words behind the first closing bracket. -/
def behindBracket? : List Text → Option (List Text)
  | [] => none
  | w :: ws =>
    if w.contains ']' then some (consWord ((w.dropWhile (· != ']')).drop 1) ws) else behindBracket? ws

/-- A body without the bracketed direction in front, which may go over several words. -/
def withoutDirection (body : List Text) : List Text :=
  match body with
  | ('[' :: w) :: ws => (behindBracket? (w :: ws)).getD body
  | _ => body

/-- The name that the first word begins with, and what is left of the body, with single spaces. -/
def namedWords? : List Text → Option (Text × Text)
  | [] => none
  | w :: ws =>
    if (w.takeWhile isWordChar).isEmpty then none
    else some (w.takeWhile isWordChar, joinWords (consWord (w.dropWhile isWordChar) ws))

def noteOfWords? (body : List Text) : Option (Text × Text) := namedWords? (withoutDirection body)

theorem behindBracket?_consWord (w : Text) (ws : List Text) :
    behindBracket? (consWord w ws) = behindBracket? (w :: ws) := by
  cases w with
  | nil => rfl
  | cons c w => rfl

theorem words_cons_of_written {c : Char} (h : isBlank c = false) (s : Text) :
    words (c :: s) = (c :: s.takeWhile isWritten) :: words (s.dropWhile isWritten) :=
  runs_cons_of_pos (by simp [h]) s

/-- The text behind the first closing bracket has the words behind it. -/
theorem behindBracket?_words (s : Text) :
    behindBracket? (words s) =
      if s.contains ']' then some (words ((s.dropWhile (· != ']')).drop 1)) else none := by
  induction s with
  | nil => rfl
  | cons c s ih =>
    by_cases hBracket : c = ']'
    · subst hBracket
      rw [words_cons_of_written (by decide), behindBracket?, if_pos (by simp), if_pos (by simp),
        List.dropWhile_cons_of_neg (by simp), List.dropWhile_cons_of_neg (by simp)]
      exact congrArg some (words_eq_consWord s).symm
    · have hContains (w : Text) : (c :: w).contains ']' = w.contains ']' := by
        simp [Ne.symm hBracket]
      have hDrop (w : Text) : (c :: w).dropWhile (· != ']') = w.dropWhile (· != ']') :=
        List.dropWhile_cons_of_pos (by simpa using hBracket)
      rw [hContains, hDrop, ← ih]
      cases hBlank : isBlank c with
      | true => rw [Respaced.words_blank_cons hBlank]
      | false =>
        rw [words_cons_of_written hBlank, words_eq_consWord s, behindBracket?_consWord, behindBracket?,
          behindBracket?, hContains, hDrop]

/-- The text from a name on, and the words from a name on, give the same note. -/
theorem namedWords?_words (s : Text) :
    namedWords? (words s) =
      if ((trimStart s).takeWhile isWordChar).isEmpty then none
      else some ((trimStart s).takeWhile isWordChar, normalize ((trimStart s).dropWhile isWordChar)) := by
  rw [← words_trimStart s]
  have hStart := startsBlank_trimStart s
  cases hText : trimStart s with
  | nil => rfl
  | cons c t =>
    have hBlank : isBlank c = false := by simpa [hText, startsBlank] using hStart
    have hWritten : isWritten c = true := by simp [isWritten, hBlank]
    have hWord : (c :: t).takeWhile isWritten = c :: t.takeWhile isWritten :=
      List.takeWhile_cons_of_pos hWritten
    have hRest : (c :: t).dropWhile isWritten = t.dropWhile isWritten := List.dropWhile_cons_of_pos hWritten
    rw [Text.normalize, words_dropWhile_isWordChar, ← takeWhile_isWordChar_takeWhile, hWord, hRest,
      words_cons_of_written hBlank]
    rfl

theorem withoutDirection_of_ne {c : Char} (hc : c ≠ '[') (w : Text) (ws : List Text) :
    withoutDirection ((c :: w) :: ws) = (c :: w) :: ws := by
  unfold withoutDirection
  split
  · rename_i heq
    exact absurd (List.cons.inj (List.cons.inj heq).1).1 hc
  · rfl

theorem note?_eq_noteOfWords? {s : Text} (h : startsBlank s = false) :
    note? s = noteOfWords? (words s) := by
  cases s with
  | nil => rfl
  | cons c s =>
    have hBlank : isBlank c = false := h
    rw [noteOfWords?, words_cons_of_written hBlank]
    by_cases hBracket : c = '['
    · subst hBracket
      have hBehind := behindBracket?_words s
      rw [words_eq_consWord, behindBracket?_consWord] at hBehind
      rw [withoutDirection, hBehind]
      cases hCloses : s.contains ']' with
      | true =>
        rw [if_pos rfl, Option.getD_some, namedWords?_words, note?]
        simp only [hCloses, if_true]
      | false =>
        rw [if_neg Bool.false_ne_true, Option.getD_none, note?]
        simp only [hCloses, Bool.false_eq_true, if_false]
        rfl
    · rw [withoutDirection_of_ne hBracket, ← words_cons_of_written hBlank, namedWords?_words, note?]
      exact fun rest heq => hBracket (List.cons.inj heq).1

theorem note?_trim (body : Text) : note? (trim body) = noteOfWords? (words body) := by
  rw [← words_trim body]
  exact note?_eq_noteOfWords? (trimmed_trim body).1

/-- The bodies of all tags of one name. -/
def bodiesOf (name : Text) (tags : List (Text × List Text)) : List (List Text) :=
  (tags.filter fun tag => tag.1 == name).map Prod.snd

def notesOf (name : Text) (tags : List (Text × List Text)) : List (Text × Text) :=
  (bodiesOf name tags).filterMap noteOfWords?

def firstBrief (tags : List (Text × List Text)) : List Text :=
  ((bodiesOf "brief".toList tags).find? fun body => !body.isEmpty).getD []

/-- Notes to which others are added in turn. -/
def putAll (notes : Notes) (more : List (Text × Text)) : Notes :=
  more.foldl (fun notes note => notes.put note.1 note.2) notes

/-- A later note on a name takes the place of an earlier one. -/
theorem get_putAll (notes : Notes) (more : List (Text × Text)) (name : Text) :
    (putAll notes more).get name = (more.reverse.lookup name).getD (notes.get name) := by
  induction more generalizing notes with
  | nil => rfl
  | cons note more ih =>
    have hFirst : (putAll notes (note :: more)).get name =
        (putAll (notes.put note.1 note.2) more).get name := rfl
    rw [hFirst, ih, List.reverse_cons, List.lookup_append, Notes.get_put]
    cases more.reverse.lookup name with
    | some found => rfl
    | none =>
      rw [Option.none_or, Option.getD_none, List.lookup_cons]
      by_cases hName : name = note.1
      · rw [if_pos hName, beq_iff_eq.mpr hName]
        rfl
      · rw [if_neg hName, beq_eq_false_iff_ne.mpr hName]
        rfl

/-- What words say as a documentation block. -/
def ofWords (ws : List Text) : Doc :=
  let tags := (splitWords ws).2.map fun tag => (tag.name, tag.body)
  { brief := joinWords (firstBrief tags)
    description := joinWords (splitWords ws).1
    params := putAll [] (notesOf "param".toList tags)
    members := putAll [] (notesOf "member".toList tags)
    tags := tags.map Prod.fst }

theorem bodiesOf_cons (name : Text) (tag : Text × List Text) (tags : List (Text × List Text)) :
    bodiesOf name (tag :: tags) =
      if tag.1 = name then tag.2 :: bodiesOf name tags else bodiesOf name tags := by
  by_cases h : tag.1 = name
  · rw [if_pos h, bodiesOf, List.filter_cons_of_pos (by simpa using h)]
    rfl
  · rw [if_neg h, bodiesOf, List.filter_cons_of_neg (by simpa using h)]
    rfl

/-- The note that a tag is for a name of tags, if it is one. -/
def noteIn (name : Text) (tag : Text × List Text) : List (Text × Text) :=
  if tag.1 = name then (noteOfWords? tag.2).toList else []

theorem notesOf_cons (name : Text) (tag : Text × List Text) (tags : List (Text × List Text)) :
    notesOf name (tag :: tags) = noteIn name tag ++ notesOf name tags := by
  rw [notesOf, bodiesOf_cons, noteIn]
  split
  · rw [List.filterMap_cons]
    cases noteOfWords? tag.2 with
    | none => rfl
    | some note => rfl
  · rfl

theorem putAll_append (notes : Notes) (more others : List (Text × Text)) :
    putAll notes (more ++ others) = putAll (putAll notes more) others := List.foldl_append

/-- A tag leaves its name, and its words go to the one field that is its own, if there is one. -/
theorem addTag_eq (doc : Doc) (name body : Text) :
    doc.addTag name body =
      { brief :=
          if name = "brief".toList then (if doc.brief = [] then normalize body else doc.brief)
          else doc.brief
        description := doc.description
        params := putAll doc.params (noteIn "param".toList (name, words body))
        members := putAll doc.members (noteIn "member".toList (name, words body))
        tags := doc.tags ++ [name] } := by
  have hNote (notes : Notes) (key : Text) (hName : name = key) :
      putAll notes (noteIn key (name, words body)) = putAll notes (note? (trim body)).toList := by
    rw [noteIn, if_pos hName, note?_trim]
  have hOther (notes : Notes) (key : Text) (hName : name ≠ key) :
      putAll notes (noteIn key (name, words body)) = notes := by
    rw [noteIn, if_neg hName]
    rfl
  unfold addTag
  by_cases hBrief : name = "brief".toList
  · have hParam : name ≠ "param".toList := by rw [hBrief]; decide
    have hMember : name ≠ "member".toList := by rw [hBrief]; decide
    simp only [hOther _ _ hParam, hOther _ _ hMember, if_pos hBrief]
    cases doc.brief with
    | nil => rfl
    | cons c brief => rfl
  · by_cases hParam : name = "param".toList
    · have hMember : name ≠ "member".toList := by rw [hParam]; decide
      simp only [hOther _ _ hMember, hNote _ _ hParam, if_neg hBrief, if_pos hParam]
      cases note? (trim body) with
      | none => rfl
      | some note => rfl
    · by_cases hMember : name = "member".toList
      · simp only [hOther _ _ hParam, hNote _ _ hMember, if_neg hBrief, if_neg hParam, if_pos hMember]
        cases note? (trim body) with
        | none => rfl
        | some note => rfl
      · simp only [hOther _ _ hParam, hOther _ _ hMember, if_neg hBrief, if_neg hParam, if_neg hMember]

theorem normalize_eq_nil_iff (s : Text) : normalize s = [] ↔ words s = [] := by
  constructor
  · intro h
    have hWords := words_joinWords fun w (hw : w ∈ words s) => isWord_of_mem_words hw
    rw [show joinWords (words s) = [] from h] at hWords
    exact hWords.symm
  · intro h
    rw [Text.normalize, h]
    rfl

theorem firstBrief_cons (name : Text) (body : List Text) (tags : List (Text × List Text)) :
    firstBrief ((name, body) :: tags) =
      if name = "brief".toList then (if body = [] then firstBrief tags else body) else firstBrief tags := by
  rw [firstBrief, bodiesOf_cons]
  by_cases hName : name = "brief".toList
  · simp only [if_pos hName]
    cases body with
    | nil => rfl
    | cons w ws => rfl
  · simp only [if_neg hName]
    rfl

/-- The brief after all tags, from the brief after the first of them. -/
theorem brief_addTag (brief name body : Text) (tags : List (Text × List Text)) :
    (let next := if name = "brief".toList then (if brief = [] then normalize body else brief) else brief
      if next = [] then joinWords (firstBrief tags) else next) =
      if brief = [] then joinWords (firstBrief ((name, words body) :: tags)) else brief := by
  rw [firstBrief_cons]
  by_cases hBrief : brief = []
  · by_cases hName : name = "brief".toList
    · simp only [if_pos hName, if_pos hBrief, normalize_eq_nil_iff]
      split <;> rfl
    · simp only [if_neg hName, if_pos hBrief]
  · simp only [if_neg hBrief, ite_self]

/-- What comes of the tags of a text. A brief that says nothing leaves the place to a later one. -/
theorem foldl_addTag (doc : Doc) (tagged : List Text) :
    tagged.foldl (fun doc tag => doc.addTag (tag.takeWhile isWordChar) (tag.dropWhile isWordChar)) doc =
      { brief := if doc.brief = [] then joinWords (firstBrief (tagged.map readTag)) else doc.brief
        description := doc.description
        params := putAll doc.params (notesOf "param".toList (tagged.map readTag))
        members := putAll doc.members (notesOf "member".toList (tagged.map readTag))
        tags := doc.tags ++ (tagged.map readTag).map Prod.fst } := by
  induction tagged generalizing doc with
  | nil =>
    cases doc
    simp [putAll, notesOf, bodiesOf, firstBrief, joinWords]
  | cons tag tagged ih =>
    rw [List.foldl_cons, ih, addTag_eq, List.map_cons, notesOf_cons, notesOf_cons, putAll_append,
      putAll_append, List.map_cons, List.append_assoc]
    congr 1
    exact brief_addTag doc.brief _ _ _

theorem read_eq_ofWords (raw : Text) : Doc.read raw = ofWords (blockWords raw) := by
  obtain ⟨hBefore, hTags⟩ := splitTags_eq_splitWords (prose raw)
  rw [words_prose] at hBefore hTags
  rw [read, ofWords, ← hTags, ← hBefore]
  exact foldl_addTag _ _

end Doc

end HeaderDigest
