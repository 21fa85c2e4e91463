import HeaderDigest.Declaration.Span
import HeaderDigest.Proofs.Prototype.Reading
import HeaderDigest.Proofs.Source.InlineComment
import HeaderDigest.Proofs.Text.Reindented

/-!
# Prototypes over several lines

A prototype may be broken at its spaces, and each of its lines may end in a comment that says
anything, parentheses and semicolons included. Its span ends on the last of these lines, and what
is read from it is what is read from the prototype on one line.
-/

namespace HeaderDigest

open Text

/-- A comment behind the code of a line. -/
inductive Aside
  | block (said : Text) (noLineFeed : '\n' ∉ said) (noCloser : hasPart ['*', '/'] said = false)
  | line (said : Text) (noLineFeed : '\n' ∉ said)

def Aside.text : Aside → Text
  | block said _ _ => ['/', '*'] ++ ' ' :: said ++ [' '] ++ ['*', '/']
  | line said _ => ['/', '/'] ++ ' ' :: said

theorem Aside.withoutComments_text (aside : Aside) : withoutComments aside.text = [] := by
  cases aside with
  | block said noLineFeed noCloser =>
    have hSpace : ' ' ∉ ['*', '/'] := by decide
    have hFeed : '\n' ∉ ' ' :: said ++ [' '] := by simp [noLineFeed]
    have hCloser : hasPart ['*', '/'] (' ' :: said ++ [' ']) = false := by
      rw [hasPart_append_cons hSpace, ← List.nil_append (' ' :: said), hasPart_append_cons hSpace, noCloser]
      rfl
    exact congrArg beforeLineComment (withoutBlocks_block hFeed hCloser [])
  | line said _ => exact withoutComments_line said

/-- A line with a piece of code, indented, and perhaps a comment behind it. -/
structure WrappedLine where
  indent : Text
  code : Text
  aside : Option Aside
  indent_blank : ∀ c ∈ indent, isBlank c = true

namespace WrappedLine

def text (line : WrappedLine) : Text :=
  line.indent ++ line.code ++ line.aside.elim [] fun aside => ' ' :: aside.text

variable {line : WrappedLine}

theorem trim_withoutComments_text (h : IsCommentless line.code) :
    trim (withoutComments line.text) = trim line.code := by
  have hSlash : '/' ∉ line.indent := not_mem_of_blank line.indent_blank (by decide)
  rw [text, List.append_assoc, withoutComments_append hSlash]
  cases line.aside with
  | none =>
    have hBehind := trim_append_of_blank (v := []) line.code line.indent_blank (by simp)
    rw [List.append_nil] at hBehind
    rw [Option.elim_none, List.append_nil, withoutComments_of_isCommentless h, hBehind]
  | some aside =>
    have hBehind := trim_append_of_blank (v := [' ']) line.code line.indent_blank (by decide)
    rw [Option.elim_some, withoutComments_append_cons h (by decide) (by decide),
      aside.withoutComments_text, ← List.append_assoc, hBehind]

theorem words_withoutComments_text (h : IsCommentless line.code) :
    words (withoutComments line.text) = words line.code := by
  rw [← words_trim, trim_withoutComments_text h, words_trim]

theorem contains_withoutComments_text (h : IsCommentless line.code) :
    (withoutComments line.text).contains ';' = line.code.contains ';' := by
  rw [← contains_trim (by decide), trim_withoutComments_text h, contains_trim (by decide)]

theorem balance_withoutComments_text (h : IsCommentless line.code) :
    balance '(' ')' (withoutComments line.text) = balance '(' ')' line.code := by
  rw [← balance_trim (by decide) (by decide) (by decide), trim_withoutComments_text h,
    balance_trim (by decide) (by decide) (by decide)]

end WrappedLine

/-- What the lines hold, on one line. -/
def unwrapped (ls : List WrappedLine) : Text := joinWords (ls.map WrappedLine.code)

theorem isCommentless_of_mem {ls : List WrappedLine} (h : IsCommentless (unwrapped ls)) :
    ∀ line ∈ ls, IsCommentless line.code :=
  fun line hLine => h.of_mem_joinWords line.code (List.mem_map_of_mem hLine)

theorem functionLength?_wrapped {ls : List WrappedLine} {front : Text} {depth : Int}
    (hText : unwrapped ls = front ++ [';']) (hFront : ';' ∉ front) (hCode : IsCommentless (unwrapped ls))
    (hDepth : depth + balance '(' ')' (unwrapped ls) ≤ 0) (after : List Text) :
    functionLength? depth (ls.map WrappedLine.text ++ after) = some ls.length := by
  induction ls generalizing front depth with
  | nil => cases front <;> cases hText
  | cons line ls ih =>
    have hLine : IsCommentless line.code := isCommentless_of_mem hCode line List.mem_cons_self
    rw [List.map_cons, List.cons_append, functionLength?]
    simp only [WrappedLine.contains_withoutComments_text hLine, WrappedLine.balance_withoutComments_text hLine]
    cases ls with
    | nil =>
      have hWhole : unwrapped [line] = line.code := joinWords_singleton line.code
      rw [hWhole] at hText hDepth
      simp [hText ▸ hDepth, hText]
    | cons next ls =>
      have hWhole : unwrapped (line :: next :: ls) = line.code ++ ' ' :: unwrapped (next :: ls) :=
        joinWords_cons_cons _ _ _
      rw [hWhole] at hText hCode hDepth
      -- The final semicolon stands on one of the lines behind this one.
      obtain ⟨more, rfl, hRest⟩ := exists_of_append_cons_eq_concat (by decide) hText
      have hNot : line.code.contains ';' = false := by
        rw [Bool.eq_false_iff, Ne, List.contains_iff_mem]
        exact fun h => hFront (List.mem_append_left _ h)
      have hBalance : depth + balance '(' ')' line.code + balance '(' ')' (unwrapped (next :: ls)) ≤ 0 := by
        rw [balance_append, balance_cons, balance_other (by decide) (by decide)] at hDepth
        omega
      have hCodeRest := ((isCommentless_append_cons_iff (by decide) (by decide)).mp hCode).2
      have hNext := ih hRest (fun h => hFront (by simp [h])) hCodeRest hBalance
      rw [hNot, Bool.false_and, if_neg Bool.false_ne_true, hNext]
      rfl

theorem normalize_wrapped {ls : List WrappedLine} (hCode : IsCommentless (unwrapped ls)) :
    normalize (joinLines ((ls.map WrappedLine.text).map withoutComments)) = normalize (unwrapped ls) := by
  have hWords : (ls.map (withoutComments ∘ WrappedLine.text)).flatMap words =
      (ls.map WrappedLine.code).flatMap words := by
    rw [List.flatMap_map, List.flatMap_map]
    exact congrArg List.flatten (List.map_congr_left fun line hLine =>
      WrappedLine.words_withoutComments_text (isCommentless_of_mem hCode line hLine))
  rw [Text.normalize, words_joinLines, List.map_map, hWords, ← words_joinWords_eq_flatMap]
  rfl

/-- A prototype whose only semicolon is at its end, with balanced parentheses and no comment. -/
structure IsPlainPrototype (prototype : Text) : Prop where
  semicolon : ∃ front, ';' ∉ front ∧ prototype = front ++ [';']
  balanced : balance '(' ')' prototype = 0
  commentless : IsCommentless prototype

theorem Span.functionAt?_wrapped {ls : List WrappedLine} (h : IsPlainPrototype (unwrapped ls))
    (hLength : ls.length ≤ spanLimit) (before after : List Text) :
    Span.functionAt? (before ++ ls.map WrappedLine.text ++ after) before.length =
      some ⟨before.length, before.length + ls.length,
        joinLines ((ls.map WrappedLine.text).map withoutComments), true⟩ := by
  obtain ⟨front, hFront, hText⟩ := h.semicolon
  have hTake : (ls.map WrappedLine.text ++ after).take spanLimit =
      ls.map WrappedLine.text ++ after.take (spanLimit - ls.length) := by
    rw [List.take_append, List.length_map, List.take_of_length_le (by rwa [List.length_map])]
  have hSpan : functionLength? 0 ((ls.map WrappedLine.text ++ after).take spanLimit) = some ls.length := by
    rw [hTake]
    exact functionLength?_wrapped hText hFront h.commentless (by rw [h.balanced]; decide) _
  have hLines : (ls.map WrappedLine.text ++ after).take ls.length = ls.map WrappedLine.text :=
    List.take_left' (List.length_map _)
  rw [functionAt?, List.append_assoc, List.drop_left, function?, hSpan, Option.map_some, hLines]

/-- The span of a prototype over several lines ends on the last of them, and reading it gives what
reading the prototype on one line gives. -/
theorem Function.read_wrapped {prototype : Text} {ls : List WrappedLine} (h : IsPlainPrototype prototype)
    (hWrapped : unwrapped ls = prototype) (hLength : ls.length ≤ spanLimit) (before after : List Text) :
    ∃ span, Span.functionAt? (before ++ ls.map WrappedLine.text ++ after) before.length = some span ∧
      span.start = before.length ∧ span.stop = before.length + ls.length ∧
      ∀ doc file line includePrivate, Function.read span.text doc file line includePrivate =
        Function.read prototype doc file line includePrivate := by
  subst hWrapped
  refine ⟨_, Span.functionAt?_wrapped h hLength before after, rfl, rfl, ?_⟩
  exact Function.read_congr (normalize_wrapped h.commentless)

/-- `int sum(int left, int (*right)(int));` on three lines. -/
def wrappedSum : List WrappedLine :=
  [⟨[], "int sum(int left,".toList, some (.block "not the end ); //".toList (by decide) (by decide)),
      by decide⟩,
    ⟨"\t ".toList, "int".toList, some (.line "/* nor this */ );".toList (by decide)), by decide⟩,
    ⟨"        ".toList, "(*right)(int));".toList, some (.line "*/ ((".toList (by decide)), by decide⟩]

theorem Function.read_wrappedSum :
    IsPlainPrototype "int sum(int left, int (*right)(int));".toList ∧
      unwrapped wrappedSum = "int sum(int left, int (*right)(int));".toList ∧
      ∃ span, Span.functionAt? ["int sum(int left, /* not the end ); // */".toList,
          "\t int // /* nor this */ );".toList, "        (*right)(int)); // */ ((".toList, "\x7d".toList] 0 =
            some span ∧
        span.stop = 3 ∧
        Function.read span.text {} "a.h".toList 1 false =
          .ok ⟨"sum".toList, "int".toList, [⟨"int".toList, "left".toList, []⟩,
            ⟨"int (*right)(int)".toList, [], []⟩], [], [], "a.h".toList, 1⟩ := by
  have h : IsPlainPrototype "int sum(int left, int (*right)(int));".toList :=
    ⟨⟨"int sum(int left, int (*right)(int))".toList, by decide, rfl⟩, by decide, by decide⟩
  have hWrapped : unwrapped wrappedSum = "int sum(int left, int (*right)(int));".toList := by decide
  obtain ⟨span, hSpan, -, hStop, hRead⟩ :=
    Function.read_wrapped h hWrapped (by decide) [] ["\x7d".toList]
  refine ⟨h, hWrapped, span, hSpan, hStop, ?_⟩
  rw [hRead]
  decide

end HeaderDigest
