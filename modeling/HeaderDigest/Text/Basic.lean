import HeaderDigest.Text.Blank
import HeaderDigest.Text.WordCharacter

/-!
# Text

A text is a list of characters. This module holds what is done with any text: trimming, cutting
it into lines, words and other runs, joining the pieces again, and taking a known beginning or
end off it.
-/

namespace HeaderDigest

abbrev Text := List Char

namespace Text

/-- A statement about the characters of a text is decided by walking the text. It goes before any
instance that would try every character there is. -/
instance (priority := 2000) decidableForallMem (s : Text) (p : Char → Prop) [DecidablePred p] :
    Decidable (∀ c ∈ s, p c) := List.decidableBAll p s

def trimStart (s : Text) : Text := s.dropWhile isBlank

def trimEnd (s : Text) : Text := (s.reverse.dropWhile isBlank).reverse

def trim (s : Text) : Text := trimEnd (trimStart s)

/-- Splits off the longest ending whose characters all satisfy `p`. -/
def splitEnding (p : Char → Bool) (s : Text) : Text × Text :=
  ((s.reverse.dropWhile p).reverse, (s.reverse.takeWhile p).reverse)

def startsWith (beginning s : Text) : Bool := beginning.isPrefixOf s

def endsWith (ending s : Text) : Bool := ending.isSuffixOf s

def dropPrefix? : Text → Text → Option Text
  | [], s => some s
  | _ :: _, [] => none
  | p :: beginning, c :: s => if p = c then dropPrefix? beginning s else none

def dropSuffix? (ending s : Text) : Option Text :=
  (dropPrefix? ending.reverse s.reverse).map List.reverse

def withoutPrefix (beginning s : Text) : Text := (dropPrefix? beginning s).getD s

def withoutSuffix (ending s : Text) : Text := (dropSuffix? ending s).getD s

def hasPart (part : Text) : Text → Bool
  | [] => part.isEmpty
  | c :: rest => startsWith part (c :: rest) || hasPart part rest

/-- The lines of a text. A line feed ends a line and takes one carriage return before it along;
what follows the last line feed is a line if it is not empty. -/
def lines : Text → List Text
  | [] => []
  | '\n' :: rest => [] :: lines rest
  | '\r' :: '\n' :: rest => [] :: lines rest
  | c :: rest =>
    match lines rest with
    | line :: more => (c :: line) :: more
    | [] => [[c]]

def joinLines (ls : List Text) : Text := List.intercalate ['\n'] ls

def runs (p : Char → Bool) : Text → List Text
  | [] => []
  | c :: rest =>
    if p c then
      match rest with
      | [] => [[c]]
      | d :: _ =>
        if p d then
          match runs p rest with
          | run :: more => (c :: run) :: more
          | [] => [[c]]
        else [c] :: runs p rest
    else runs p rest

def words (s : Text) : List Text := runs (fun c => !isBlank c) s

def joinWords (ws : List Text) : Text := List.intercalate [' '] ws

def normalize (s : Text) : Text := joinWords (words s)

/-- A letter of the ASCII alphabet or an underscore, then word characters of any alphabet. -/
def isWordName (s : Text) : Bool :=
  match s with
  | c :: rest => isNameStart c && rest.all isWordChar
  | [] => false

def replaceChar (c : Char) (image : Text) (s : Text) : Text :=
  s.flatMap fun d => if d = c then image else [d]

theorem dropPrefix?_append (beginning s : Text) : dropPrefix? beginning (beginning ++ s) = some s := by
  induction beginning with
  | nil => rfl
  | cons p beginning ih => simpa [dropPrefix?] using ih

theorem eq_append_of_dropPrefix? {beginning s rest : Text} (h : dropPrefix? beginning s = some rest) :
    s = beginning ++ rest := by
  induction beginning generalizing s with
  | nil => simpa [dropPrefix?] using h
  | cons p beginning ih =>
    cases s with
    | nil => simp [dropPrefix?] at h
    | cons c s =>
      by_cases hp : p = c
      · subst hp
        simp only [dropPrefix?, if_pos] at h
        rw [ih h, List.cons_append]
      · simp [dropPrefix?, hp] at h

theorem dropPrefix?_eq_some_iff (beginning s rest : Text) :
    dropPrefix? beginning s = some rest ↔ s = beginning ++ rest :=
  ⟨eq_append_of_dropPrefix?, fun h => h ▸ dropPrefix?_append beginning rest⟩

theorem fst_append_snd_splitEnding (p : Char → Bool) (s : Text) :
    (splitEnding p s).1 ++ (splitEnding p s).2 = s := by
  rw [splitEnding, ← List.reverse_append, List.takeWhile_append_dropWhile, List.reverse_reverse]

theorem lines_line_feed (s : Text) : lines ('\n' :: s) = [] :: lines s := by
  simp [lines]

end Text

end HeaderDigest
