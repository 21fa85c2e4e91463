import HeaderDigest.Proofs.Declarator.Identifier
import HeaderDigest.Proofs.Doc.Tags
import HeaderDigest.Proofs.Text.Lines
import HeaderDigest.Source.Block

/-!
# Comments as they are written

The comment of a function has a line for its brief and a line for each parameter that it speaks
of, between a line that opens and a line that closes. Its block ends where it closes, and what it
says is read from it.
-/

namespace HeaderDigest

open Text

abbrev Note := Text × List Text

structure CComment where
  brief : List Text
  notes : List Note
  brief_ne_nil : brief ≠ []
  brief_words : ∀ word ∈ brief, Doc.IsProseWord word
  notes_names : ∀ note ∈ notes, isIdentifier note.1 = true
  notes_words : ∀ note ∈ notes, ∀ word ∈ note.2, Doc.IsProseWord word

def tagLine (name text : Text) : Text := [' ', '*', ' ', '@'] ++ name ++ ' ' :: text

def noteLine (note : Note) : Text := tagLine "param".toList (note.1 ++ ' ' :: joinWords note.2)

namespace CComment

variable (comment : CComment)

def innerLines : List Text :=
  tagLine "brief".toList (joinWords comment.brief) :: comment.notes.map noteLine

def lines : List Text := "/**".toList :: comment.innerLines ++ [" */".toList]

def groups : List (Text × List Text) :=
  ("brief".toList, comment.brief) :: comment.notes.map fun note => ("param".toList, note.1 :: note.2)

def about (name : Text) : Text := joinWords ((comment.notes.lookup name).getD [])

def doc : Doc where
  brief := joinWords comment.brief
  params := comment.notes.foldl (fun params note => params.put note.1 (joinWords note.2)) []
  tags := "brief".toList :: comment.notes.map fun _ => "param".toList

end CComment

/-- A line that shows `prose` behind its star. -/
structure IsStarLine (line prose : Text) : Prop where
  proseLine : Doc.proseLine line = prose
  noCloser : hasPart ['*', '/'] line = false
  isLine : IsLine line

theorem not_mem_starLine {prose tail : Text} {c : Char} (hSpaced : SingleSpaced prose)
    (hTail : ∀ d ∈ tail, d = ' ') (hBlank : isBlank c = true) (hc : c ≠ ' ') :
    c ∉ [' ', '*', ' '] ++ prose ++ tail := by
  intro hMem
  rw [List.mem_append, List.mem_append] at hMem
  rcases hMem with (hMem | hMem) | hMem
  · have key : ∀ d ∈ [' ', '*', ' '], d = '*' ∨ d = ' ' := by decide
    rcases key c hMem with rfl | rfl
    · cases hBlank
    · exact hc rfl
  · exact hc (hSpaced.eq_space hMem hBlank)
  · exact hc (hTail c hMem)

theorem isStarLine {prose tail : Text} (hSpaced : SingleSpaced prose) (hTrimmed : Trimmed prose)
    (hNe : prose ≠ []) (hCloser : hasPart ['*', '/'] prose = false) (hTail : ∀ c ∈ tail, c = ' ') :
    IsStarLine ([' ', '*', ' '] ++ prose ++ tail) prose where
  proseLine := by
    have hSpace : ' ' ∉ ['*', '/'] := by decide
    have hBlank : ∀ c ∈ tail, isBlank c = true := fun c hc => hTail c hc ▸ rfl
    have hStarred : Trimmed (['*', ' '] ++ prose) := ⟨rfl, (endsBlank_append _ hNe).trans hTrimmed.2⟩
    have hTrim : trim ([' ', '*', ' '] ++ prose ++ tail) = ['*', ' '] ++ prose := by
      have h := trim_append_of_blank (u := [' ']) (['*', ' '] ++ prose) (by decide) hBlank
      rw [trim_eq_self hStarred] at h
      exact h
    have hPrefix : withoutPrefix ['/', '*', '*'] (['*', ' '] ++ prose) = ['*', ' '] ++ prose := rfl
    have hSuffix : withoutSuffix ['*', '/'] (['*', ' '] ++ prose) = ['*', ' '] ++ prose := by
      rw [withoutSuffix, dropSuffix?_eq_none]
      · rfl
      · intro h
        have hPart := hasPart_append_cons hSpace ['*'] prose
        rw [hCloser] at hPart
        exact absurd ((hasPart_iff.mpr h.isInfix).symm.trans hPart) (by decide)
    rw [Doc.proseLine, hTrim, hPrefix, hSuffix, trimStart_eq_self hStarred.1]
    exact trim_space_cons hTrimmed
  noCloser := by
    have hSpace : ' ' ∉ ['*', '/'] := by decide
    have hText : hasPart ['*', '/'] (prose ++ tail) = false := by
      cases tail with
      | nil => rw [List.append_nil, hCloser]
      | cons c tail =>
        have hRest : '*' ∉ tail := fun h => absurd (hTail '*' (List.mem_cons_of_mem c h)) (by decide)
        rw [hTail c List.mem_cons_self, hasPart_append_cons hSpace, hCloser,
          hasPart_eq_false_of_not_mem List.mem_cons_self hRest]
        rfl
    have hLine : [' ', '*', ' '] ++ prose ++ tail = [' ', '*'] ++ ' ' :: (prose ++ tail) := by simp
    rw [hLine, hasPart_append_cons hSpace, hText]
    rfl
  isLine := by
    constructor
    · exact not_mem_starLine hSpaced hTail (by decide) (by decide)
    · intro hLast
      exact not_mem_starLine hSpaced hTail (by decide) (by decide) (List.mem_of_getLast? hLast)

theorem hasPart_joinWords {part : Text} {ws : List Text} (hSpace : ' ' ∉ part) (hNe : part ≠ [])
    (h : ∀ w ∈ ws, hasPart part w = false) : hasPart part (joinWords ws) = false := by
  induction ws with
  | nil =>
    rw [Bool.eq_false_iff]
    intro hPart
    exact hNe (List.infix_nil.mp (hasPart_iff.mp hPart))
  | cons w ws ih =>
    have hRest := ih fun v hv => h v (List.mem_cons_of_mem w hv)
    have hWord := h w List.mem_cons_self
    cases ws with
    | nil => rwa [joinWords_singleton]
    | cons v ws => rw [joinWords_cons_cons, hasPart_append_cons hSpace, hWord, hRest, Bool.or_self]

theorem isStarLine_group {name : Text} {ws : List Text} (h : Doc.IsGroup name ws)
    (hCloser : hasPart ['*', '/'] name = false) (tail : Text) (hTail : ∀ c ∈ tail, c = ' ') :
    IsStarLine ([' ', '*', ' '] ++ '@' :: joinWords (name :: ws) ++ tail) ('@' :: joinWords (name :: ws)) := by
  have hText : '@' :: joinWords (name :: ws) = joinWords (('@' :: name) :: ws) := by
    cases ws with
    | nil => rw [joinWords_singleton, joinWords_singleton]
    | cons v ws => rw [joinWords_cons_cons, joinWords_cons_cons, List.cons_append]
  have hAt : IsWord ('@' :: name) := by
    refine ⟨List.cons_ne_nil _ _, ?_⟩
    rw [List.forall_mem_cons]
    constructor
    · decide
    · exact h.word.2
  have hWords : ∀ w ∈ ('@' :: name) :: ws, IsWord w ∧ hasPart ['*', '/'] w = false := by
    rw [List.forall_mem_cons]
    constructor
    · refine ⟨hAt, ?_⟩
      rw [hasPart, hCloser]
      rfl
    · intro w hw
      exact ⟨(h.words w hw).word, (h.words w hw).noCloser⟩
  obtain ⟨hSpaced, hTrimmed, hNe⟩ := singleSpaced_joinWords fun w hw => (hWords w hw).1
  rw [hText]
  exact isStarLine hSpaced hTrimmed (hNe (List.cons_ne_nil _ _))
    (hasPart_joinWords (by decide) (by decide) fun w hw => (hWords w hw).2) hTail

namespace CComment

variable (comment : CComment)

theorem isGroup_brief : Doc.IsGroup "brief".toList comment.brief where
  word := by decide
  nameStart := by
    intro c hc
    obtain rfl : 'b' = c := Option.some.inj hc
    decide
  words := comment.brief_words

theorem isProseWord_of_isIdentifier {name : Text} (h : isIdentifier name = true) :
    Doc.IsProseWord name where
  word := isWord_of_isIdentifier h
  noTag := by
    obtain ⟨c, rest, rfl, hStart, -⟩ := exists_eq_cons_of_isIdentifier h
    have hAt : c ≠ '@' := by
      rintro rfl
      cases hStart
    unfold Doc.isTagStart
    split
    · rename_i heq
      exact absurd (List.cons.inj heq).1 hAt
    · rfl
  noCloser := by
    apply hasPart_eq_false_of_not_mem List.mem_cons_self
    intro hMem
    exact absurd (isNameChar_of_mem h _ hMem) (by decide)

theorem isGroup_note {note : Note} (h : note ∈ comment.notes) :
    Doc.IsGroup "param".toList (note.1 :: note.2) where
  word := by decide
  nameStart := by
    intro c hc
    obtain rfl : 'p' = c := Option.some.inj hc
    decide
  words := by
    rw [List.forall_mem_cons]
    constructor
    · exact isProseWord_of_isIdentifier (comment.notes_names note h)
    · exact comment.notes_words note h

theorem isStarLine_brief :
    IsStarLine (tagLine "brief".toList (joinWords comment.brief))
      ('@' :: joinWords ("brief".toList :: comment.brief)) := by
  obtain ⟨word, more, hBrief⟩ := List.exists_cons_of_ne_nil comment.brief_ne_nil
  have hLine : tagLine "brief".toList (joinWords comment.brief) =
      [' ', '*', ' '] ++ '@' :: joinWords ("brief".toList :: comment.brief) ++ [] := by
    rw [hBrief, joinWords_cons_cons, List.append_nil]
    rfl
  rw [hLine]
  exact isStarLine_group comment.isGroup_brief (by decide) [] (by simp)

theorem isStarLine_noteLine {note : Note} (h : note ∈ comment.notes) :
    IsStarLine (noteLine note) ('@' :: joinWords ("param".toList :: note.1 :: note.2)) := by
  have hLine : ∃ tail, (∀ c ∈ tail, c = ' ') ∧ noteLine note =
      [' ', '*', ' '] ++ '@' :: joinWords ("param".toList :: note.1 :: note.2) ++ tail := by
    rw [noteLine]
    cases note.2 with
    | nil =>
      refine ⟨[' '], by decide, ?_⟩
      rw [joinWords_cons_cons, joinWords_singleton]
      simp [tagLine, joinWords]
    | cons word more =>
      refine ⟨[], by decide, ?_⟩
      rw [joinWords_cons_cons, joinWords_cons_cons]
      simp [tagLine]
  obtain ⟨tail, hTail, hText⟩ := hLine
  rw [hText]
  exact isStarLine_group (comment.isGroup_note h) (by decide) tail hTail

theorem map_proseLine_innerLines :
    comment.innerLines.map Doc.proseLine =
      comment.groups.map fun group => '@' :: joinWords (group.1 :: group.2) := by
  have hNotes : (comment.notes.map noteLine).map Doc.proseLine =
      (comment.notes.map fun note => ("param".toList, note.1 :: note.2)).map
        fun group => '@' :: joinWords (group.1 :: group.2) := by
    rw [List.map_map, List.map_map]
    apply List.map_congr_left
    intro note hNote
    rw [Function.comp_apply, (comment.isStarLine_noteLine hNote).proseLine]
    rfl
  rw [innerLines, groups, List.map_cons, List.map_cons, comment.isStarLine_brief.proseLine, hNotes]

theorem innerLine : ∀ line ∈ comment.innerLines, hasPart ['*', '/'] line = false ∧ IsLine line := by
  rw [innerLines, List.forall_mem_cons]
  constructor
  · exact ⟨comment.isStarLine_brief.noCloser, comment.isStarLine_brief.isLine⟩
  · intro line hLine
    obtain ⟨note, hNote, rfl⟩ := List.mem_map.mp hLine
    exact ⟨(comment.isStarLine_noteLine hNote).noCloser, (comment.isStarLine_noteLine hNote).isLine⟩

theorem isLine_lines : ∀ line ∈ comment.lines, IsLine line := by
  have hOpening : IsLine "/**".toList := ⟨by decide, by decide⟩
  have hClosing : IsLine " */".toList := ⟨by decide, by decide⟩
  rw [lines, List.forall_mem_append]
  constructor
  · exact List.forall_mem_cons.mpr ⟨hOpening, fun line hLine => (comment.innerLine line hLine).2⟩
  · exact List.forall_mem_singleton.mpr hClosing

theorem linesToCloser?_append_of_none {ls : List Text} (h : ∀ line ∈ ls, hasPart ['*', '/'] line = false)
    (rest : List Text) :
    linesToCloser? (ls ++ rest) = (linesToCloser? rest).map (· + ls.length) := by
  induction ls with
  | nil => simp
  | cons line ls ih =>
    rw [List.cons_append, linesToCloser?, h line List.mem_cons_self,
      ih fun l hl => h l (List.mem_cons_of_mem line hl)]
    simp only [Bool.false_eq_true, if_false, Option.map_map]
    rfl

theorem blockLength?_lines (rest : List Text) :
    blockLength? (comment.lines ++ rest) = some comment.lines.length := by
  have hCloser : linesToCloser? (comment.innerLines ++ " */".toList :: rest) =
      some (1 + comment.innerLines.length) := by
    rw [linesToCloser?_append_of_none fun line hLine => (comment.innerLine line hLine).1]
    rfl
  have hText : comment.lines ++ rest =
      "/**".toList :: (comment.innerLines ++ " */".toList :: rest) := by
    simp [lines]
  have hOpens : opensBlock "/**".toList = true := by decide
  have hSelf : closesItself "/**".toList = false := by decide
  rw [hText, blockLength?, hOpens, hSelf, hCloser]
  simp [lines]
  omega

theorem prose_lines : Doc.prose (joinLines comment.lines) = Doc.groupProse comment.groups := by
  have hLines : Text.lines (joinLines comment.lines) = comment.lines := by
    rw [lines, lines_joinLines_append]
    · rfl
    · exact fun line hLine => comment.isLine_lines line (List.mem_append_left _ hLine)
  have hFirst : Doc.proseLine "/**".toList = [] := by decide
  have hLast : Doc.proseLine " */".toList = [] := by decide
  have hProse : comment.lines.map Doc.proseLine =
      [] :: comment.groups.map (fun group => '@' :: joinWords (group.1 :: group.2)) ++ [[]] := by
    rw [lines, List.map_append, List.map_cons, hFirst, map_proseLine_innerLines, List.map_singleton, hLast]
  have hFilter : (comment.groups.map fun group => '@' :: joinWords (group.1 :: group.2)).filter
      (fun line => !line.isEmpty) =
        comment.groups.map fun group => '@' :: joinWords (group.1 :: group.2) := by
    rw [List.filter_eq_self]
    intro line hLine
    obtain ⟨group, -, rfl⟩ := List.mem_map.mp hLine
    rfl
  rw [Doc.prose, hLines, hProse, List.filter_append, List.filter_cons_of_neg (by decide), hFilter,
    List.filter_cons_of_neg (by decide), List.filter_nil, List.append_nil, Doc.groupProse]

/-- Takes in one group, as the reader of a block does. -/
def addGroup (doc : Doc) (tag : Text) : Doc :=
  doc.addTag (tag.takeWhile isWordChar) (tag.dropWhile isWordChar)

theorem addGroup_eq {name : Text} (hName : ∀ c ∈ name, isWordChar c = true) (doc : Doc) (s : Text) :
    addGroup doc (name ++ ' ' :: s) = doc.addTag name (' ' :: s) := by
  have hSpace : isWordChar ' ' = false := by decide
  have hTake : name.takeWhile isWordChar = name := List.takeWhile_eq_self_iff.mpr hName
  have hDrop : name.dropWhile isWordChar = [] := List.dropWhile_eq_nil_iff.mpr hName
  rw [addGroup, takeWhile_append_cons_of_neg hSpace, dropWhile_append_cons_of_neg hSpace, hTake, hDrop,
    List.nil_append]

theorem addGroup_brief {ws : List Text} {doc : Doc} {tail : Text} (hNe : ws ≠ [])
    (h : ∀ w ∈ ws, IsWord w) (hDoc : doc.brief = []) (hTail : ∀ c ∈ tail, isBlank c = true) :
    addGroup doc (joinWords ("brief".toList :: ws) ++ tail) =
      { doc with brief := joinWords ws, tags := doc.tags ++ ["brief".toList] } := by
  have hNormal : Text.normalize (' ' :: (joinWords ws ++ tail)) = joinWords ws := by
    have hWords : words (' ' :: (joinWords ws ++ tail)) = words (joinWords ws) := by
      rw [words, runs_cons_of_neg (by decide), runs_append_right_of_neg fun c hc => by simp [hTail c hc]]
      rfl
    rw [Text.normalize, hWords, words_joinWords h]
  obtain ⟨w, more, rfl⟩ := List.exists_cons_of_ne_nil hNe
  rw [joinWords_cons_cons, List.append_assoc, List.cons_append, addGroup_eq (by decide), Doc.addTag]
  simp only [hDoc, hNormal, List.isEmpty_nil, if_true]

theorem takeWhile_joinWords {name : Text} {ws : List Text} (hName : ∀ c ∈ name, isWordChar c = true)
    (h : ∀ w ∈ ws, IsWord w) :
    (joinWords (name :: ws)).takeWhile isWordChar = name ∧
      Text.normalize ((joinWords (name :: ws)).dropWhile isWordChar) = joinWords ws := by
  have hTake : name.takeWhile isWordChar = name := List.takeWhile_eq_self_iff.mpr hName
  have hDrop : name.dropWhile isWordChar = [] := List.dropWhile_eq_nil_iff.mpr hName
  cases ws with
  | nil =>
    rw [joinWords_singleton, hTake, hDrop]
    exact ⟨rfl, rfl⟩
  | cons w ws =>
    have hSpace : isWordChar ' ' = false := by decide
    rw [joinWords_cons_cons, takeWhile_append_cons_of_neg hSpace, dropWhile_append_cons_of_neg hSpace,
      hTake, hDrop, List.nil_append, Text.normalize, words, runs_cons_of_neg (by decide)]
    exact ⟨rfl, congrArg joinWords (words_joinWords h)⟩

theorem note?_joinWords {name : Text} {ws : List Text} (hName : isIdentifier name = true)
    (h : ∀ w ∈ ws, IsWord w) : Doc.note? (joinWords (name :: ws)) = some (name, joinWords ws) := by
  obtain ⟨c, rest, hCons, hStart, -⟩ := exists_eq_cons_of_isIdentifier hName
  have hWord : ∀ d ∈ name, isWordChar d = true := fun d hd =>
    isWordChar_of_isNameChar (isNameChar_of_mem hName d hd)
  have hNe : name.isEmpty = false := by simp [hCons]
  obtain ⟨hTake, hDrop⟩ := takeWhile_joinWords hWord h
  have hText : ∃ more, joinWords (name :: ws) = c :: more := by
    rw [hCons]
    cases ws with
    | nil => exact ⟨rest, joinWords_singleton _⟩
    | cons w ws => exact ⟨_, by rw [joinWords_cons_cons]; rfl⟩
  obtain ⟨more, hMore⟩ := hText
  have hBracket : c ≠ '[' := by
    rintro rfl
    cases hStart
  have hTrim : trimStart (joinWords (name :: ws)) = joinWords (name :: ws) := by
    apply trimStart_eq_self
    exact startsBlank_of_isNameStart ⟨c, more, hMore, hStart⟩
  unfold Doc.note?
  split
  · rename_i heq
    rw [hMore] at heq
    exact absurd (List.cons.inj heq).1 hBracket
  · simp only [hTrim, hTake, hDrop, hNe, Bool.false_eq_true, if_false]

theorem addGroup_param {name tail : Text} {ws : List Text} (hName : isIdentifier name = true)
    (h : ∀ w ∈ ws, IsWord w) (doc : Doc) (hTail : ∀ c ∈ tail, isBlank c = true) :
    addGroup doc (joinWords ("param".toList :: name :: ws) ++ tail) =
      { doc with params := doc.params.put name (joinWords ws), tags := doc.tags ++ ["param".toList] } := by
  have hTrim : trim (' ' :: (joinWords (name :: ws) ++ tail)) = joinWords (name :: ws) := by
    have hWords : ∀ w ∈ name :: ws, IsWord w :=
      List.forall_mem_cons.mpr ⟨isWord_of_isIdentifier hName, h⟩
    have hTrimmed := trim_append_of_blank (u := [' ']) (joinWords (name :: ws)) (by decide) hTail
    rwa [trim_eq_self (singleSpaced_joinWords hWords).2.1] at hTrimmed
  rw [joinWords_cons_cons, List.append_assoc, List.cons_append, addGroup_eq (by decide), Doc.addTag]
  simp only [hTrim, note?_joinWords hName h]
  rfl

theorem foldl_addGroup_notes {notes : List Note} (hNames : ∀ note ∈ notes, isIdentifier note.1 = true)
    (hWords : ∀ note ∈ notes, ∀ word ∈ note.2, IsWord word) (doc : Doc) :
    (Doc.groupTexts (notes.map fun note => ("param".toList, note.1 :: note.2))).foldl addGroup doc =
      { doc with
        params := notes.foldl (fun params note => params.put note.1 (joinWords note.2)) doc.params
        tags := doc.tags ++ notes.map fun _ => "param".toList } := by
  induction notes generalizing doc with
  | nil => simp [Doc.groupTexts]
  | cons note notes ih =>
    have hStep (tail : Text) (hTail : ∀ c ∈ tail, isBlank c = true) :=
      addGroup_param (hNames note List.mem_cons_self) (hWords note List.mem_cons_self) doc hTail
    have hRest := ih (fun n hn => hNames n (List.mem_cons_of_mem note hn))
      (fun n hn => hWords n (List.mem_cons_of_mem note hn))
    cases notes with
    | nil =>
      have h := hStep [] (by simp)
      rw [List.append_nil] at h
      simp only [List.map_cons, List.map_nil, Doc.groupTexts, List.foldl_cons, List.foldl_nil, h]
    | cons next notes =>
      have h := hStep [' '] (by decide)
      simp only [List.map_cons, Doc.groupTexts, List.foldl_cons] at hRest ⊢
      rw [h, hRest]
      simp

theorem read_lines : Doc.read (joinLines comment.lines) = comment.doc := by
  have hSplit : Doc.splitTags true (Doc.groupProse comment.groups) = ([], Doc.groupTexts comment.groups) := by
    apply Doc.splitTags_groupProse
    rw [groups, List.forall_mem_cons]
    constructor
    · exact comment.isGroup_brief
    · intro group hGroup
      obtain ⟨note, hNote, rfl⟩ := List.mem_map.mp hGroup
      exact comment.isGroup_note hNote
  have hBrief (tail : Text) (hTail : ∀ c ∈ tail, isBlank c = true) :
      addGroup {} (joinWords ("brief".toList :: comment.brief) ++ tail) =
        { brief := joinWords comment.brief, tags := ["brief".toList] } :=
    addGroup_brief comment.brief_ne_nil (fun w hw => (comment.brief_words w hw).word) rfl hTail
  have hNotes := foldl_addGroup_notes comment.notes_names
    (fun note hNote word hWord => (comment.notes_words note hNote word hWord).word)
    { brief := joinWords comment.brief, tags := ["brief".toList] }
  rw [Doc.read, comment.prose_lines, hSplit]
  change (Doc.groupTexts comment.groups).foldl addGroup {} = comment.doc
  rw [groups, doc]
  cases hCases : comment.notes with
  | nil =>
    have h := hBrief [] (by simp)
    rw [List.append_nil] at h
    exact h
  | cons note notes =>
    rw [hCases, List.map_cons] at hNotes
    rw [List.map_cons, Doc.groupTexts, List.foldl_cons, hBrief [' '] (by decide), hNotes]
    rfl

theorem get_foldl_put {notes : List Note} (h : (notes.map Prod.fst).Nodup) (params : Notes) (name : Text) :
    (notes.foldl (fun params note => params.put note.1 (joinWords note.2)) params).get name =
      match notes.lookup name with
      | some ws => joinWords ws
      | none => params.get name := by
  induction notes generalizing params with
  | nil => rfl
  | cons note notes ih =>
    obtain ⟨hNew, hRest⟩ := List.nodup_cons.mp h
    rw [List.foldl_cons, ih hRest, List.lookup_cons]
    by_cases hName : name = note.1
    · have hLookup : notes.lookup name = none := by
        rw [List.lookup_eq_none_iff]
        intro other hOther
        simp only [bne_iff_ne]
        rintro rfl
        exact hNew (hName ▸ List.mem_map_of_mem hOther)
      rw [hLookup, Notes.get_put, if_pos hName, beq_iff_eq.mpr hName]
    · rw [Notes.get_put, if_neg hName, beq_eq_false_iff_ne.mpr hName]

theorem param_doc (h : (comment.notes.map Prod.fst).Nodup) (name : Text) :
    comment.doc.param name = comment.about name := by
  rw [Doc.param, doc, get_foldl_put h, about]
  cases comment.notes.lookup name <;> rfl

theorem isFileDoc_doc : comment.doc.isFileDoc = false := by
  rw [Doc.isFileDoc, Doc.hasTag, doc, Bool.eq_false_iff]
  intro h
  obtain h | h := List.mem_cons.mp (List.contains_iff_mem.mp h)
  · exact absurd h (by decide)
  · obtain ⟨note, -, hNote⟩ := List.mem_map.mp h
    exact absurd hNote (by decide)

end CComment

end HeaderDigest
