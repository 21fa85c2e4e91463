import HeaderDigest.Declaration.Span
import HeaderDigest.Proofs.Text.Brackets
import Mathlib.Data.Nat.Find

/-!
# The line that ends a declaration

A function declaration ends on the first line whose code holds a semicolon while the code so far has
no more opening parentheses than closing ones. If the file or the limit of a span comes first, there
is no such line, and no span. For a type declaration braces are counted, and they count only once one
has been opened; without an end it is cut off.
-/

namespace HeaderDigest

open Text

structure FirstWith (P : Nat → Prop) (n : Nat) : Prop where
  holds : P n
  before : ∀ j < n, ¬P j

variable {P : Nat → Prop}

theorem firstWith_zero : FirstWith P 0 ↔ P 0 :=
  ⟨FirstWith.holds, fun h => ⟨h, fun j hj => absurd hj (Nat.not_lt_zero j)⟩⟩

theorem firstWith_succ {n : Nat} : FirstWith P (n + 1) ↔ ¬P 0 ∧ FirstWith (fun j => P (j + 1)) n := by
  constructor
  · rintro ⟨hHolds, hBefore⟩
    obtain ⟨hFirst, hRest⟩ := Nat.forall_lt_succ_left.mp hBefore
    exact ⟨hFirst, hHolds, hRest⟩
  · rintro ⟨hFirst, hHolds, hRest⟩
    exact ⟨hHolds, Nat.forall_lt_succ_left.mpr ⟨hFirst, hRest⟩⟩

theorem firstWith_add {start n : Nat} (h : ∀ j < start, ¬P j) :
    FirstWith P (start + n) ↔ FirstWith (fun j => P (start + j)) n := by
  constructor
  · rintro ⟨hHolds, hBefore⟩
    exact ⟨hHolds, fun j hj => hBefore (start + j) (Nat.add_lt_add_left hj start)⟩
  · rintro ⟨hHolds, hBefore⟩
    refine ⟨hHolds, fun j hj => ?_⟩
    obtain hStart | hStart := Nat.lt_or_ge j start
    · exact h j hStart
    · obtain ⟨i, rfl⟩ := Nat.exists_eq_add_of_le hStart
      exact hBefore i (Nat.lt_of_add_lt_add_left hj)

theorem exists_firstWith (h : ∃ n, P n) : ∃ n, FirstWith P n := by
  classical
  exact ⟨Nat.find h, Nat.find_spec h, fun _ hj => Nat.find_min h hj⟩

/-- One line of a search that counts the lines through the first with a property. -/
theorem search_eq_some_iff {here : Bool} {later : Option Nat} (hHere : here = true ↔ P 0)
    (hLater : ∀ n, later = some n ↔ ∃ m, n = m + 1 ∧ FirstWith (fun j => P (j + 1)) m) (n : Nat) :
    (if here then some 1 else later.map (· + 1)) = some n ↔ ∃ m, n = m + 1 ∧ FirstWith P m := by
  by_cases hFound : P 0
  · rw [if_pos (hHere.mpr hFound)]
    constructor
    · rintro ⟨⟩
      exact ⟨0, rfl, firstWith_zero.mpr hFound⟩
    · rintro ⟨m, rfl, hFirst⟩
      cases m with
      | zero => rfl
      | succ m => exact absurd hFound (firstWith_succ.mp hFirst).1
  · rw [if_neg (mt hHere.mp hFound), Option.map_eq_some_iff]
    constructor
    · rintro ⟨l, hRest, rfl⟩
      obtain ⟨m, rfl, hFirst⟩ := (hLater l).mp hRest
      exact ⟨m + 1, rfl, firstWith_succ.mpr ⟨hFound, hFirst⟩⟩
    · rintro ⟨m, rfl, hFirst⟩
      cases m with
      | zero => exact absurd (firstWith_zero.mp hFirst) hFound
      | succ m => exact ⟨m + 1, (hLater _).mpr ⟨m, rfl, (firstWith_succ.mp hFirst).2⟩, rfl⟩

/-- The code of the first `n` lines. -/
def codeOfFirst (n : Nat) (ls : List Text) : Text := (ls.take n).flatMap withoutComments

theorem codeOfFirst_cons (n : Nat) (line : Text) (rest : List Text) :
    codeOfFirst (n + 1) (line :: rest) = withoutComments line ++ codeOfFirst n rest := rfl

/-- The code of line `n` holds a semicolon. -/
def HasSemicolonAt (ls : List Text) (n : Nat) : Prop := ∃ line ∈ ls[n]?, ';' ∈ withoutComments line

theorem hasSemicolonAt_zero (line : Text) (rest : List Text) :
    HasSemicolonAt (line :: rest) 0 ↔ (withoutComments line).contains ';' = true := by
  simp [HasSemicolonAt]

theorem hasSemicolonAt_succ (line : Text) (rest : List Text) (n : Nat) :
    HasSemicolonAt (line :: rest) (n + 1) ↔ HasSemicolonAt rest n := Iff.rfl

theorem functionLength?_eq_some_iff {depth : Int} {ls : List Text} {n : Nat} :
    functionLength? depth ls = some n ↔ ∃ m, n = m + 1 ∧ FirstWith
      (fun m => HasSemicolonAt ls m ∧ depth + balance '(' ')' (codeOfFirst (m + 1) ls) ≤ 0) m := by
  induction ls generalizing depth n with
  | nil =>
    refine ⟨fun h => (by cases h), ?_⟩
    rintro ⟨m, -, ⟨⟨line, hLine, -⟩, -⟩, -⟩
    cases hLine
  | cons line rest ih =>
    rw [functionLength?]
    refine search_eq_some_iff ?_ (fun n => ?_) n
    · rw [hasSemicolonAt_zero, codeOfFirst_cons, Bool.and_eq_true, decide_eq_true_eq]
      simp [codeOfFirst]
    · rw [ih]
      simp only [hasSemicolonAt_succ, codeOfFirst_cons, balance_append, Int.add_assoc]

/-- A type declaration can end on line `m`: a semicolon stands there, and no brace has been opened, or
as many have been closed. -/
def CanEndType (opened : Bool) (depth : Int) (ls : List Text) (m : Nat) : Prop :=
  HasSemicolonAt ls m ∧ ((opened || (codeOfFirst (m + 1) ls).contains '{') = false ∨
    depth + balance '{' '}' (codeOfFirst (m + 1) ls) ≤ 0)

theorem typeLength?_eq_some_iff {opened : Bool} {depth : Int} {ls : List Text} {n : Nat} :
    typeLength? opened depth ls = some n ↔ ∃ m, n = m + 1 ∧ FirstWith (CanEndType opened depth ls) m := by
  induction ls generalizing opened depth n with
  | nil =>
    refine ⟨fun h => (by cases h), ?_⟩
    rintro ⟨m, -, ⟨⟨line, hLine, -⟩, -⟩, -⟩
    cases hLine
  | cons line rest ih =>
    rw [typeLength?]
    refine search_eq_some_iff ?_ (fun n => ?_) n
    · rw [CanEndType, hasSemicolonAt_zero, codeOfFirst_cons, Bool.and_eq_true, Bool.or_eq_true,
        decide_eq_true_eq, Bool.not_eq_true']
      simp [codeOfFirst]
    · rw [ih]
      unfold CanEndType
      have hContains (m : Nat) : (withoutComments line ++ codeOfFirst m rest).contains '{' =
          ((withoutComments line).contains '{' || (codeOfFirst m rest).contains '{') := by simp
      simp only [hasSemicolonAt_succ, codeOfFirst_cons, balance_append, Int.add_assoc, hContains, Bool.or_assoc]

theorem typeLength?_eq_none_iff {opened : Bool} {depth : Int} {ls : List Text} :
    typeLength? opened depth ls = none ↔ ∀ m, ¬CanEndType opened depth ls m := by
  rw [Option.eq_none_iff_forall_ne_some]
  constructor
  · intro hNone m hEnds
    obtain ⟨first, hFirst⟩ := exists_firstWith ⟨m, hEnds⟩
    exact hNone _ (typeLength?_eq_some_iff.mpr ⟨first, rfl, hFirst⟩)
  · intro hEndless n hLength
    obtain ⟨m, -, hFirst⟩ := typeLength?_eq_some_iff.mp hLength
    exact hEndless m hFirst.holds

/-- The code of each line from `seed` through `k`. -/
def codeLines (lines : List Text) (seed k : Nat) : List Text :=
  ((lines.drop seed).take (k + 1 - seed)).map withoutComments

/-- A function declaration from line `seed` on can end on line `k`: a semicolon stands there, and the
code up to there has no more opening parentheses than closing ones. -/
structure EndsFunction (lines : List Text) (seed k : Nat) : Prop where
  seed_le : seed ≤ k
  within : k < min lines.length (seed + spanLimit)
  semicolon : HasSemicolonAt lines k
  closed : (codeLines lines seed k).flatten.count '(' ≤ (codeLines lines seed k).flatten.count ')'

/-- A line with a semicolon stands in the file. -/
theorem HasSemicolonAt.lt_length {lines : List Text} {n : Nat} (h : HasSemicolonAt lines n) :
    n < lines.length := by
  obtain ⟨line, hLine, -⟩ := h
  exact (List.getElem?_eq_some_iff.mp hLine).1

/-- A line of the window from `seed` on is a line of the file, as far as the window goes. -/
theorem hasSemicolonAt_window (lines : List Text) (seed m : Nat) :
    HasSemicolonAt ((lines.drop seed).take spanLimit) m ↔ m < spanLimit ∧ HasSemicolonAt lines (seed + m) := by
  by_cases hm : m < spanLimit
  · rw [HasSemicolonAt, List.getElem?_take_of_lt hm, List.getElem?_drop, and_iff_right hm, HasSemicolonAt]
  · refine iff_of_false ?_ fun h => hm h.1
    intro h
    have hLength := h.lt_length
    rw [List.length_take] at hLength
    omega

theorem codeOfFirst_window (lines : List Text) (seed : Nat) {m : Nat} (hm : m < spanLimit) :
    codeOfFirst (m + 1) ((lines.drop seed).take spanLimit) = (codeLines lines seed (seed + m)).flatten := by
  rw [codeOfFirst, List.take_take, Nat.min_eq_left hm, codeLines, Nat.add_assoc, Nat.add_sub_cancel_left,
    List.flatMap_def]

theorem endsFunction_add_iff (lines : List Text) (seed m : Nat) :
    EndsFunction lines seed (seed + m) ↔ HasSemicolonAt ((lines.drop seed).take spanLimit) m ∧
      0 + balance '(' ')' (codeOfFirst (m + 1) ((lines.drop seed).take spanLimit)) ≤ 0 := by
  rw [hasSemicolonAt_window]
  constructor
  · rintro ⟨-, hWithin, hSemicolon, hClosed⟩
    have hm : m < spanLimit := by omega
    rw [codeOfFirst_window lines seed hm, balance_eq_count (by decide)]
    exact ⟨⟨hm, hSemicolon⟩, by omega⟩
  · rintro ⟨⟨hm, hSemicolon⟩, hClosed⟩
    rw [codeOfFirst_window lines seed hm, balance_eq_count (by decide)] at hClosed
    have hLength := hSemicolon.lt_length
    exact ⟨Nat.le_add_right seed m, by omega, hSemicolon, by omega⟩

theorem Span.functionAt?_eq_some_iff {lines : List Text} {seed : Nat} {span : Span} :
    Span.functionAt? lines seed = some span ↔ ∃ k, FirstWith (EndsFunction lines seed) k ∧
      span = ⟨seed, k + 1, joinLines (codeLines lines seed k), true⟩ := by
  have hFirst (m : Nat) : FirstWith (EndsFunction lines seed) (seed + m) ↔ FirstWith
      (fun m => HasSemicolonAt ((lines.drop seed).take spanLimit) m ∧
        0 + balance '(' ')' (codeOfFirst (m + 1) ((lines.drop seed).take spanLimit)) ≤ 0) m := by
    rw [firstWith_add fun j hj h => absurd h.seed_le (Nat.not_le_of_lt hj)]
    simp only [endsFunction_add_iff]
  have hText (m : Nat) : ((lines.drop seed).take (m + 1)).map withoutComments =
      codeLines lines seed (seed + m) := by
    rw [codeLines, Nat.add_assoc, Nat.add_sub_cancel_left]
  rw [functionAt?, function?, Option.map_eq_some_iff]
  constructor
  · rintro ⟨n, hLength, rfl⟩
    obtain ⟨m, rfl, hEnds⟩ := functionLength?_eq_some_iff.mp hLength
    exact ⟨seed + m, (hFirst m).mpr hEnds, by rw [hText, Nat.add_assoc]⟩
  · rintro ⟨k, hEnds, rfl⟩
    obtain ⟨m, rfl⟩ := Nat.exists_eq_add_of_le hEnds.holds.seed_le
    exact ⟨m + 1, functionLength?_eq_some_iff.mpr ⟨m, rfl, (hFirst m).mp hEnds⟩, by rw [hText, Nat.add_assoc]⟩

/-- A function declaration has a span just when some line can end it, and then the first such line
does. -/
theorem Span.functionAt?_first (lines : List Text) (seed : Nat) :
    (∀ span, Span.functionAt? lines seed = some span ↔ ∃ k, FirstWith (EndsFunction lines seed) k ∧
      span = ⟨seed, k + 1, joinLines (codeLines lines seed k), true⟩) ∧
    (Span.functionAt? lines seed = none ↔ ∀ k, ¬EndsFunction lines seed k) := by
  refine ⟨fun span => Span.functionAt?_eq_some_iff, ?_⟩
  rw [Option.eq_none_iff_forall_ne_some]
  constructor
  · intro hNone k hEnds
    obtain ⟨first, hFirst⟩ := exists_firstWith ⟨k, hEnds⟩
    exact hNone _ (Span.functionAt?_eq_some_iff.mpr ⟨first, hFirst, rfl⟩)
  · intro hEndless span hSpan
    obtain ⟨k, hFirst, -⟩ := Span.functionAt?_eq_some_iff.mp hSpan
    exact hEndless k hFirst.holds

/-- Brackets and semicolons in comments do not count, and a line may close more than was opened. -/
example : Span.functionAt? ["int f(int a, /* ); */".toList, "      int b)); // ;".toList] 0 =
    some ⟨0, 2, "int f(int a, \n      int b)); ".toList, true⟩ := by decide

/-- A type declaration from line `seed` on can end on line `k`: a semicolon stands there, and the code
up to there opens no brace at all, or no more braces than it closes. -/
structure EndsType (lines : List Text) (seed k : Nat) : Prop where
  seed_le : seed ≤ k
  within : k < min lines.length (seed + spanLimit)
  semicolon : HasSemicolonAt lines k
  closed : (∀ code ∈ codeLines lines seed k, '{' ∉ code) ∨
    (codeLines lines seed k).flatten.count '{' ≤ (codeLines lines seed k).flatten.count '}'

theorem endsType_add_iff (lines : List Text) (seed m : Nat) :
    EndsType lines seed (seed + m) ↔ CanEndType false 0 ((lines.drop seed).take spanLimit) m := by
  have hUnopened (ls : List Text) : (false || ls.flatten.contains '{') = false ↔ ∀ code ∈ ls, '{' ∉ code := by
    simp
  rw [CanEndType, hasSemicolonAt_window]
  constructor
  · rintro ⟨-, hWithin, hSemicolon, hClosed⟩
    have hm : m < spanLimit := by omega
    rw [codeOfFirst_window lines seed hm, hUnopened, balance_eq_count (by decide)]
    exact ⟨⟨hm, hSemicolon⟩, hClosed.imp_right fun hCount => by omega⟩
  · rintro ⟨⟨hm, hSemicolon⟩, hClosed⟩
    rw [codeOfFirst_window lines seed hm, hUnopened, balance_eq_count (by decide)] at hClosed
    have hLength := hSemicolon.lt_length
    exact ⟨Nat.le_add_right seed m, by omega, hSemicolon, hClosed.imp_right fun hCount => by omega⟩

/-- The span of a type declaration stops behind the first line that can end it, and if there is none,
at the end of the file or at the limit. Its lines are kept as they are written. -/
theorem Span.dataTypeAt_first (lines : List Text) (seed : Nat) :
    (∃ k, FirstWith (EndsType lines seed) k ∧
      Span.dataTypeAt lines seed = ⟨seed, k + 1, joinLines ((lines.drop seed).take (k + 1 - seed)), true⟩) ∨
    ((∀ k, ¬EndsType lines seed k) ∧
      Span.dataTypeAt lines seed = ⟨seed, min lines.length (seed + spanLimit),
        joinLines ((lines.drop seed).take (min lines.length (seed + spanLimit) - seed)), false⟩) := by
  have hStart : ∀ j < seed, ¬EndsType lines seed j := fun j hj h => absurd h.seed_le (Nat.not_le_of_lt hj)
  unfold Span.dataTypeAt Span.dataType
  cases hLength : typeLength? false 0 ((lines.drop seed).take spanLimit) with
  | some n =>
    obtain ⟨m, rfl, hFirst⟩ := typeLength?_eq_some_iff.mp hLength
    have hEnds : FirstWith (EndsType lines seed) (seed + m) := by
      rw [firstWith_add hStart]
      simpa only [endsType_add_iff] using hFirst
    have hWithin := hEnds.holds.within
    have hStop : min (seed + (m + 1)) lines.length = seed + m + 1 := by omega
    refine Or.inl ⟨seed + m, hEnds, ?_⟩
    simp only [hStop, Nat.add_assoc, Nat.add_sub_cancel_left]
  | none =>
    have hEndless := typeLength?_eq_none_iff.mp hLength
    have hStop : min (seed + ((lines.drop seed).take spanLimit).length) lines.length =
        min lines.length (seed + spanLimit) := by
      rw [List.length_take, List.length_drop]
      omega
    have hTaken : (lines.drop seed).take spanLimit =
        (lines.drop seed).take (min lines.length (seed + spanLimit) - seed) := by
      rw [List.take_eq_take_min, List.length_drop]
      congr 1
      omega
    refine Or.inr ⟨?_, ?_⟩
    · intro k hEnds
      obtain ⟨m, rfl⟩ := Nat.exists_eq_add_of_le hEnds.seed_le
      exact hEndless m ((endsType_add_iff lines seed m).mp hEnds)
    · simp only [hStop]
      rw [← hTaken]

/-- A brace in a comment neither opens nor closes. -/
example : Span.dataTypeAt ["struct box \x7b // \x7d;".toList, "  int w; /* \x7d */".toList, "\x7d;".toList] 0 =
    ⟨0, 3, "struct box \x7b // \x7d;\n  int w; /* \x7d */\n\x7d;".toList, true⟩ := by decide

end HeaderDigest
