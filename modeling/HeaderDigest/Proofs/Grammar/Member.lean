import HeaderDigest.DataType.Member
import HeaderDigest.Declaration.Span
import HeaderDigest.Proofs.Declarator.Identifier
import HeaderDigest.Proofs.Declarator.Reading
import HeaderDigest.Proofs.Source.InlineComment
import HeaderDigest.Proofs.Text.Spacing

/-!
# Members as they are written

A member of a struct is written on one line: the words of its type, stars and a name, sizes in
square brackets, a semicolon, and perhaps a remark behind it. The remark is a comment and may hold
anything that does not end it. Such a line leaves the braces as they are, and the member is read
from it.
-/

namespace HeaderDigest

open Text

inductive RemarkStyle
  | block
  | behind
  | line

structure Remark where
  style : RemarkStyle
  /-- The number of spaces before it. -/
  gap : Nat
  text : Text
  noLineFeed : '\n' ∉ text
  noCloser : hasPart ['*', '/'] text = false

namespace Remark

variable (remark : Remark)

def comment : Text :=
  match remark.style with
  | .block => ['/', '*'] ++ ' ' :: remark.text ++ [' '] ++ ['*', '/']
  | .behind => ['/', '*'] ++ ['*', '<'] ++ ' ' :: remark.text ++ [' '] ++ ['*', '/']
  | .line => ['/', '/'] ++ ' ' :: remark.text

def written : Text := List.replicate remark.gap ' ' ++ remark.comment

theorem noCloser_spaced (opener : Text) (hOpener : hasPart ['*', '/'] opener = false) :
    hasPart ['*', '/'] (opener ++ ' ' :: remark.text ++ [' ']) = false := by
  have hSpace : ' ' ∉ ['*', '/'] := by decide
  rw [hasPart_append_cons hSpace, hasPart_append_cons hSpace, hOpener, remark.noCloser]
  rfl

theorem withoutComments_comment : withoutComments remark.comment = [] := by
  have hBlock (opener : Text) (hFeed : '\n' ∉ opener) (hOpener : hasPart ['*', '/'] opener = false) :
      withoutComments ('/' :: '*' :: (opener ++ ' ' :: remark.text ++ [' '] ++ ['*', '/'])) = [] := by
    have hInner : '\n' ∉ opener ++ ' ' :: remark.text ++ [' '] := by
      simp [hFeed, remark.noLineFeed]
    rw [withoutComments, withoutBlocks_block hInner (remark.noCloser_spaced opener hOpener)]
    rfl
  unfold comment
  cases remark.style with
  | block => exact hBlock [] (by decide) (by decide)
  | behind => exact hBlock ['*', '<'] (by decide) (by decide)
  | line => exact withoutComments_line remark.text

theorem withoutComments_written : withoutComments remark.written = List.replicate remark.gap ' ' := by
  have hSlash : '/' ∉ List.replicate remark.gap ' ' := by
    intro h
    exact absurd (List.eq_of_mem_replicate h) (by decide)
  rw [written, withoutComments_append hSlash, remark.withoutComments_comment, List.append_nil]

theorem noLineFeed_written : '\n' ∉ remark.written := by
  have hFeed := remark.noLineFeed
  unfold written comment
  cases remark.style <;> simp [hFeed]

end Remark

/-- A declarator is cut at its last blank. -/
theorem Member.read?_append_cons (u : Text) {b : Char} (hb : isBlank b = true) {v : Text}
    (hv : ∀ c ∈ v, isBlank c = false) (doc : Doc) : Member.read? (u ++ b :: v) doc =
      some ⟨trim u, withoutSizes false v, doc.member (withoutSizes false v)⟩ := by
  have hSplit : splitEnding (fun c => !isBlank c) (u ++ b :: v) = (u ++ [b], v) :=
    splitEnding_append_cons u (by rw [hb]; rfl) fun c hc => by rw [hv c hc]; rfl
  have hNe : (u ++ [b]).isEmpty = false := by simp
  simp only [Member.read?, hSplit, hNe, Bool.false_eq_true, if_false, List.dropLast_concat]

/-- What begins like a name is no remark and no brace. -/
theorem isMemberless_of_isNameStart {c : Char} (h : isNameStart c = true) (rest : Text) :
    isMemberless (c :: rest) = false := by
  have hNoName : ∀ d ∈ ['/', '*', '}', '{'], isNameStart d = false := by decide
  have hStarts (d : Char) (hd : d ∈ ['/', '*', '}', '{']) : (d == c) = false := by
    apply beq_false_of_ne
    rintro rfl
    rw [hNoName d hd] at h
    cases h
  have hOpening : (c == '{') = false := by rw [Bool.beq_comm]; exact hStarts '{' (by decide)
  simp only [isMemberless, startsWith, List.isPrefixOf_cons_cons, hStarts '/' (by decide),
    hStarts '*' (by decide), hStarts '}' (by decide), Bool.false_and, Bool.or_false, List.isEmpty_cons,
    List.cons_beq_cons, hOpening]

/-- What can stand in a size. -/
def isSizeChar (c : Char) : Bool := !isBlank c && !(['[', ']', '{', '}', ';', '/'].contains c)

def sizeText (size : Text) : Text := '[' :: size ++ [']']

structure CMember where
  words : List Text
  stars : Nat
  name : Text
  sizes : List Text
  remark : Option Remark
  words_ne_nil : words ≠ []
  words_identifiers : ∀ word ∈ words, isIdentifier word = true
  isIdentifier_name : isIdentifier name = true
  sizes_chars : ∀ size ∈ sizes, ∀ c ∈ size, isSizeChar c = true

namespace CMember

variable (member : CMember)

def type : Text := joinWords member.words

/-- The name as a record shows it: with its stars and without its sizes. -/
def starredName : Text := List.replicate member.stars '*' ++ member.name

def declarator : Text := member.starredName ++ member.sizes.flatMap sizeText

def code : Text := member.type ++ ' ' :: member.declarator

def line : Text := member.code ++ [';'] ++ member.remark.elim [] Remark.written

def read (doc : Doc) : Member := ⟨member.type, member.starredName, doc.member member.starredName⟩

theorem isWord_words : ∀ word ∈ member.words, IsWord word :=
  fun word hWord => isWord_of_isIdentifier (member.words_identifiers word hWord)

theorem mem_starredName {c : Char} (h : c ∈ member.starredName) : isNameChar c = true ∨ c = '*' := by
  rw [starredName, List.mem_append] at h
  obtain h | h := h
  · exact Or.inr (List.eq_of_mem_replicate h)
  · exact Or.inl (isNameChar_of_mem member.isIdentifier_name c h)

theorem mem_declarator {c : Char} (h : c ∈ member.declarator) :
    isNameChar c = true ∨ c = '*' ∨ c = '[' ∨ c = ']' ∨ isSizeChar c = true := by
  rw [declarator, List.mem_append, List.mem_flatMap] at h
  obtain h | ⟨size, hSize, h⟩ := h
  · exact (member.mem_starredName h).imp_right Or.inl
  · rw [sizeText, List.mem_append, List.mem_cons, List.mem_singleton] at h
    rcases h with (rfl | h) | rfl
    · simp
    · simp [member.sizes_chars size hSize c h]
    · simp

theorem isBlank_declarator : ∀ c ∈ member.declarator, isBlank c = false := by
  intro c hc
  rcases member.mem_declarator hc with h | rfl | rfl | rfl | h
  · exact isBlank_of_isNameChar h
  · decide
  · decide
  · decide
  · rw [isSizeChar, Bool.and_eq_true, Bool.not_eq_true'] at h
    exact h.1

/-- Neither a brace nor a semicolon nor a slash stands in the code of a member. -/
theorem not_mem_code {c : Char} (hc : c ∈ ['{', '}', ';', '/', '\n']) : c ∉ member.code := by
  have hOther : isNameChar c = false ∧ c ≠ ' ' ∧ c ≠ '*' ∧ c ≠ '[' ∧ c ≠ ']' ∧
      isSizeChar c = false := by
    revert c
    decide
  obtain ⟨hName, hSpace, hStar, hOpening, hClosing, hSize⟩ := hOther
  intro hMem
  rw [code, List.mem_append, List.mem_cons] at hMem
  rcases hMem with hMem | hMem | hMem
  · rcases mem_joinWords hMem with h | ⟨word, hWord, h⟩
    · exact hSpace h
    · have := isNameChar_of_mem (member.words_identifiers word hWord) c h
      simp [hName] at this
  · exact hSpace hMem
  · have := member.mem_declarator hMem
    simp [hName, hStar, hOpening, hClosing, hSize] at this

theorem exists_code_eq_cons : ∃ c rest, member.code = c :: rest ∧ isNameStart c = true := by
  obtain ⟨c, rest, hWords, hStart⟩ := exists_joinWords_eq_cons member.words_ne_nil member.words_identifiers
  refine ⟨c, rest ++ ' ' :: member.declarator, ?_, hStart⟩
  rw [code, type, hWords, List.cons_append]

theorem declarator_ne_nil : member.declarator ≠ [] := by
  obtain ⟨c, rest, hName, -⟩ := exists_eq_cons_of_isIdentifier member.isIdentifier_name
  simp [declarator, starredName, hName]

theorem trimmed_code : Trimmed member.code := by
  obtain ⟨c, rest, hCode, hStart⟩ := member.exists_code_eq_cons
  constructor
  · exact startsBlank_of_isNameStart ⟨c, rest, hCode, hStart⟩
  · have hLast := member.isBlank_declarator _ (List.getLast_mem member.declarator_ne_nil)
    rw [code, ← List.singleton_append, ← List.append_assoc, endsBlank_append _ member.declarator_ne_nil,
      endsBlank, List.getLast?_eq_some_getLast member.declarator_ne_nil]
    exact hLast

theorem withoutSizes_append {u : Text} (hu : '[' ∉ u) (s : Text) :
    withoutSizes false (u ++ s) = u ++ withoutSizes false s := by
  induction u with
  | nil => rfl
  | cons c u ih =>
    obtain ⟨hc, hRest⟩ := List.ne_and_not_mem_of_not_mem_cons hu
    rw [List.cons_append, withoutSizes, ih hRest]
    simp [Ne.symm hc]

theorem withoutSizes_inside_append {u : Text} (hu : ']' ∉ u) (s : Text) :
    withoutSizes true (u ++ ']' :: s) = withoutSizes false s := by
  induction u with
  | nil => rfl
  | cons c u ih =>
    obtain ⟨hc, hRest⟩ := List.ne_and_not_mem_of_not_mem_cons hu
    have hOpen : (c != ']') = true := bne_iff_ne.mpr (Ne.symm hc)
    rw [List.cons_append, withoutSizes, if_pos rfl, hOpen, ih hRest]

theorem withoutSizes_sizes {sizes : List Text} (h : ∀ size ∈ sizes, ']' ∉ size) :
    withoutSizes false (sizes.flatMap sizeText) = [] := by
  induction sizes with
  | nil => rfl
  | cons size more ih =>
    obtain ⟨hSize, hMore⟩ := List.forall_mem_cons.mp h
    have hText : (size :: more).flatMap sizeText = '[' :: (size ++ ']' :: more.flatMap sizeText) := by
      simp [sizeText]
    rw [hText, withoutSizes, if_neg Bool.false_ne_true, if_pos (by simp), withoutSizes_inside_append hSize,
      ih hMore]

theorem withoutSizes_declarator : withoutSizes false member.declarator = member.starredName := by
  have hName : '[' ∉ member.starredName := by
    intro h
    rcases member.mem_starredName h with h | h <;> exact absurd h (by decide)
  have hSizes : ∀ size ∈ member.sizes, ']' ∉ size := by
    intro size hSize h
    exact absurd (member.sizes_chars size hSize ']' h) (by decide)
  rw [declarator, withoutSizes_append hName, withoutSizes_sizes hSizes, List.append_nil]

theorem read?_code (doc : Doc) : Member.read? member.code doc = some (member.read doc) := by
  obtain ⟨-, hTrimmed, -⟩ := singleSpaced_joinWords member.isWord_words
  rw [code, Member.read?_append_cons member.type (by decide) member.isBlank_declarator,
    member.withoutSizes_declarator, type, trim_eq_self hTrimmed]
  rfl

theorem trim_withoutComments_line : trim (withoutComments member.line) = member.code ++ [';'] := by
  obtain ⟨c, rest, hCode, hStart⟩ := member.exists_code_eq_cons
  have hSlash : '/' ∉ member.code ++ [';'] := by
    have := member.not_mem_code (c := '/') (by decide)
    simp [this]
  have hTrimmed : Trimmed (member.code ++ [';']) := by
    constructor
    · exact startsBlank_of_isNameStart ⟨c, rest ++ [';'], by rw [hCode, List.cons_append], hStart⟩
    · rw [endsBlank, List.getLast?_concat]
      rfl
  have hRemark : ∀ c ∈ withoutComments (member.remark.elim [] Remark.written), isBlank c = true := by
    cases member.remark with
    | none => exact fun c hc => by cases hc
    | some remark =>
      intro c hc
      rw [Option.elim_some, remark.withoutComments_written] at hc
      rw [List.eq_of_mem_replicate hc]
      decide
  have hBehind := trim_append_blank (member.code ++ [';']) hRemark
  rw [line, withoutComments_append hSlash]
  exact hBehind.trans (trim_eq_self hTrimmed)

theorem contains_line : (withoutComments member.line).contains ';' = true := by
  rw [← contains_trim (by decide), member.trim_withoutComments_line]
  simp

theorem balance_code : balance '{' '}' (member.code ++ [';']) = 0 := by
  have hOpening := member.not_mem_code (c := '{') (by decide)
  have hClosing := member.not_mem_code (c := '}') (by decide)
  apply balance_eq_zero (by decide)
  apply Balanced.of_not_mem
  · simp [hOpening]
  · simp [hClosing]

theorem balance_line : balance '{' '}' (withoutComments member.line) = 0 := by
  rw [← balance_trim (by decide) (by decide) (by decide), member.trim_withoutComments_line,
    member.balance_code]

theorem isMemberless_code : isMemberless (member.code ++ [';']) = false := by
  obtain ⟨c, rest, hCode, hStart⟩ := member.exists_code_eq_cons
  rw [hCode]
  exact isMemberless_of_isNameStart hStart (rest ++ [';'])

theorem noLineFeed_line : '\n' ∉ member.line := by
  have hCode := member.not_mem_code (c := '\n') (by decide)
  rw [line, List.mem_append, List.mem_append]
  rintro ((h | h) | h)
  · exact hCode h
  · cases h with | tail _ h => cases h
  · cases hRemark : member.remark with
    | none => rw [hRemark] at h; cases h
    | some remark => rw [hRemark] at h; exact remark.noLineFeed_written h

/-- A span goes on behind a member, as long as the brace before it is open. -/
theorem typeLength?_line {depth : Int} (hDepth : 0 < depth) (rest : List Text) :
    typeLength? true depth (member.line :: rest) = (typeLength? true depth rest).map (· + 1) := by
  have hOpen : ¬depth ≤ 0 := Int.not_le.mpr hDepth
  simp only [typeLength?, member.contains_line, member.balance_line, Bool.true_or, Int.add_zero,
    Bool.not_true, Bool.false_or, Bool.true_and, decide_eq_true_eq, if_neg hOpen]

theorem readBody_line {depth : Int} (hDepth : 0 < depth) (doc : Doc) (rest : List Text) :
    readBody doc depth (member.line :: rest) = member.read doc :: readBody doc depth rest := by
  have hOpen : ¬depth ≤ 0 := Int.not_le.mpr hDepth
  have hSemicolon : (member.code ++ [';']).contains ';' = true := by simp
  have hTake : trim ((member.code ++ [';']).takeWhile (· != ';')) = member.code := by
    have hAll : ∀ c ∈ member.code, (c != ';') = true := by
      intro c hc
      rw [bne_iff_ne]
      rintro rfl
      exact member.not_mem_code (by decide) hc
    rw [takeWhile_append_cons_of_neg (by decide), List.takeWhile_eq_self_iff.mpr hAll]
    exact trim_eq_self member.trimmed_code
  simp only [readBody, member.trim_withoutComments_line, member.balance_code, Int.add_zero,
    if_neg hOpen, member.isMemberless_code, Bool.false_eq_true, if_false, hSemicolon, if_true, hTake,
    member.read?_code, Option.toList_some, List.singleton_append]

end CMember

end HeaderDigest
