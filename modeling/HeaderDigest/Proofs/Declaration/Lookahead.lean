import HeaderDigest.Proofs.Declaration.Line
import HeaderDigest.Proofs.Declaration.Reindented

/-!
# Where the lookahead finds a seed

A line that nothing before it skips is judged by itself: it stops the lookahead, is its seed, or is
passed by. Lines are skipped behind a plain comment or a directive that its own line leaves open,
through the line that ends it. So the seed is the first line that a declaration can begin on, among
those that are not skipped.
-/

namespace HeaderDigest

open Text

/-- What a line leaves open for the lines behind it: a comment that opens no block and has no closer
behind its opener, or a directive that goes on. -/
def Pending.LeftBy (line : Text) : Pending → Prop
  | .nothing => False
  | .comment => startsWith ['/', '*'] (trim line) = true ∧ opensBlock line = false ∧
      hasPart ['*', '/'] ((trim line).drop 2) = false
  | .directive => startsWith ['#'] (trim line) = true ∧ endsWith ['\\'] (trim line) = true

/-- Whether what is open ends with a line. -/
def Pending.EndedBy (line : Text) : Pending → Prop
  | .nothing => True
  | .comment => hasPart ['*', '/'] line = true
  | .directive => endsWith ['\\'] (trim line) = false

/-- A line is skipped if a line before it that is not skipped leaves something open, and nothing
between the two ends it. -/
def IsSkipped (lines : List Text) (start i : Nat) : Prop :=
  ∃ pending : Pending, ∃ j, ∃ _ : j < i, start ≤ j ∧ ¬IsSkipped lines start j ∧
    (∃ line, lines[j]? = some line ∧ pending.LeftBy line) ∧
      ∀ k line, j < k → k < i → lines[k]? = some line → ¬pending.EndedBy line
termination_by i

/-- Whether a declaration of this kind can begin on a line. -/
def SeedKind.BeginsOn (line : Text) (kind : SeedKind) : Prop :=
  isPassedOver (trim line) = false ∧
    match kind with
    | .dataType => isTypeSeed line = true
    | .function => isTypeSeed line = false ∧ looksLikeFunctionStart line = true

/-- The first line of the window that is not skipped and has a declaration begin on it, if no line
before it that is not skipped opens a block. -/
structure Seed.IsFirst (lines : List Text) (start : Nat) (seed : Seed) : Prop where
  start_le : start ≤ seed.line
  line_lt : seed.line < start + lookaheadLines
  not_skipped : ¬IsSkipped lines start seed.line
  begins : ∃ line, lines[seed.line]? = some line ∧ seed.kind.BeginsOn line
  first : ∀ j line, start ≤ j → j < seed.line → lines[j]? = some line → ¬IsSkipped lines start j →
    opensBlock line = false ∧ ∀ kind : SeedKind, ¬kind.BeginsOn line

theorem startsWith_of_opensBlock {line : Text} (h : opensBlock line = true) :
    startsWith ['/', '*'] (trim line) = true := by
  rw [← opensBlock_trim, opensBlock, trimStart_trim] at h
  have hBlock := List.isPrefixOf_iff_prefix.mp (Bool.and_eq_true_iff.mp h).1
  have hOpener : ['/', '*'] <+: ['/', '*', '*'] := by decide
  exact List.isPrefixOf_iff_prefix.mpr (hOpener.trans hBlock)

theorem role_eq_stop_iff (line : Text) : LineRole.of (trim line) = .stop ↔ opensBlock line = true := by
  unfold LineRole.of
  rw [opensBlock_trim]
  constructor
  · intro h
    by_contra hOpens
    rw [if_neg hOpens] at h
    repeat' split at h
    all_goals cases h
  · exact fun h => if_pos h

theorem role_eq_pass_iff (line : Text) (pending : Pending) (h : pending ≠ .nothing) :
    LineRole.of (trim line) = .pass pending ↔ pending.LeftBy line := by
  have hHash : startsWith ['#'] (trim line) = true → startsWith ['/', '*'] (trim line) = false := by
    cases trim line with
    | nil => exact fun h => by cases h
    | cons c rest =>
      intro hStart
      obtain ⟨rfl, -⟩ := List.cons_prefix_cons.mp (List.isPrefixOf_iff_prefix.mp hStart)
      rfl
  have hOpens : opensBlock line = true → startsWith ['/', '*'] (trim line) = true := startsWith_of_opensBlock
  unfold LineRole.of
  rw [opensBlock_trim]
  cases pending with
  | nothing => exact absurd rfl h
  | comment =>
    simp only [Pending.LeftBy]
    grind
  | directive =>
    simp only [Pending.LeftBy]
    grind

theorem role_eq_seed_iff (line : Text) (kind : SeedKind) :
    LineRole.of (trim line) = .seed kind ↔ kind.BeginsOn line := by
  have hOpens : opensBlock line = true → startsWith ['/', '*'] (trim line) = true := startsWith_of_opensBlock
  unfold LineRole.of SeedKind.BeginsOn isPassedOver
  rw [opensBlock_trim, isTypeSeed_trim, looksLikeFunctionStart_trim]
  cases kind <;> grind

theorem role_eq_pass_iff_not (line : Text) :
    (∃ left, LineRole.of (trim line) = .pass left) ↔
      opensBlock line = false ∧ ∀ kind : SeedKind, ¬kind.BeginsOn line := by
  rw [← Bool.not_eq_true, ← role_eq_stop_iff]
  simp only [← role_eq_seed_iff]
  cases LineRole.of (trim line) <;> simp

def Pending.next (pending : Pending) (line : Text) : Pending :=
  match pending with
  | .comment => if hasPart ['*', '/'] (trim line) then .nothing else .comment
  | .directive => if endsWith ['\\'] (trim line) then .directive else .nothing
  | .nothing =>
    match LineRole.of (trim line) with
    | .pass pending => pending
    | _ => .nothing

def Pending.behind (ls : List Text) : Pending := ls.foldl Pending.next .nothing

theorem Pending.next_nothing_iff (line : Text) (pending : Pending) (h : pending ≠ .nothing) :
    Pending.nothing.next line = pending ↔ pending.LeftBy line := by
  rw [← role_eq_pass_iff line pending h, Pending.next]
  cases LineRole.of (trim line) <;> simp [h.symm]

theorem Pending.next_eq (line : Text) {pending : Pending} (h : pending ≠ .nothing) :
    (pending.EndedBy line → pending.next line = .nothing) ∧
      (¬pending.EndedBy line → pending.next line = pending) := by
  have hCloser : hasPart ['*', '/'] (trim line) = hasPart ['*', '/'] line :=
    hasPart_trim (by decide) (by decide) line
  cases pending <;> simp_all [Pending.next, Pending.EndedBy]

/-- What is left open before a line and not ended yet. -/
def Pending.Reaches (lines : List Text) (start i : Nat) (pending : Pending) : Prop :=
  ∃ j, j < i ∧ start ≤ j ∧ ¬IsSkipped lines start j ∧
    (∃ line, lines[j]? = some line ∧ pending.LeftBy line) ∧
      ∀ k line, j < k → k < i → lines[k]? = some line → ¬pending.EndedBy line

variable {lines : List Text} {start : Nat}

theorem isSkipped_iff (i : Nat) :
    IsSkipped lines start i ↔ ∃ pending : Pending, pending.Reaches lines start i := by
  rw [IsSkipped]
  simp only [exists_prop, Pending.Reaches]

theorem Pending.reaches_succ_iff {i : Nat} {line : Text} (hStart : start ≤ i) (hLine : lines[i]? = some line)
    (pending : Pending) :
    pending.Reaches lines start (i + 1) ↔
      (pending.Reaches lines start i ∧ ¬pending.EndedBy line) ∨
        (¬IsSkipped lines start i ∧ pending.LeftBy line) := by
  constructor
  · rintro ⟨j, hj, hjStart, hSkipped, ⟨opener, hOpener, hLeft⟩, hOpen⟩
    obtain hj | rfl := Nat.lt_succ_iff_lt_or_eq.mp hj
    · refine Or.inl ⟨⟨j, hj, hjStart, hSkipped, ⟨opener, hOpener, hLeft⟩, ?_⟩, ?_⟩
      · exact fun k l hjk hk => hOpen k l hjk (Nat.lt_succ_of_lt hk)
      · exact hOpen i line hj (Nat.lt_succ_self i) hLine
    · rw [hLine, Option.some_inj] at hOpener
      exact Or.inr ⟨hSkipped, hOpener ▸ hLeft⟩
  · rintro (⟨⟨j, hj, hjStart, hSkipped, hLeft, hOpen⟩, hEnded⟩ | ⟨hSkipped, hLeft⟩)
    · refine ⟨j, Nat.lt_succ_of_lt hj, hjStart, hSkipped, hLeft, ?_⟩
      intro k l hjk hk hl
      obtain hk | rfl := Nat.lt_succ_iff_lt_or_eq.mp hk
      · exact hOpen k l hjk hk hl
      · rw [hLine, Option.some_inj] at hl
        exact hl ▸ hEnded
    · exact ⟨i, Nat.lt_succ_self i, hStart, hSkipped, ⟨line, hLine, hLeft⟩, by omega⟩

/-- One thing at most is open before a line, and it is what the search has pending there. -/
theorem Pending.reaches_iff {n : Nat} (hn : n ≤ (lines.drop start).length) (pending : Pending) :
    pending.Reaches lines start (start + n) ↔
      pending ≠ .nothing ∧ Pending.behind ((lines.drop start).take n) = pending := by
  induction n generalizing pending with
  | zero =>
    constructor
    · rintro ⟨j, hj, hjStart, -⟩
      omega
    · rintro ⟨hNe, rfl⟩
      exact absurd rfl hNe
  | succ n ih =>
    obtain ⟨line, hLine⟩ : ∃ line, (lines.drop start)[n]? = some line :=
      ⟨_, List.getElem?_eq_getElem hn⟩
    have ih := ih (Nat.le_of_succ_le hn)
    have hSkipped : IsSkipped lines start (start + n) ↔
        Pending.behind ((lines.drop start).take n) ≠ .nothing := by
      simp only [isSkipped_iff, ih]
      exact ⟨fun ⟨_, hNe, hEq⟩ => hEq ▸ hNe, fun hNe => ⟨_, hNe, rfl⟩⟩
    have hBehind : Pending.behind ((lines.drop start).take (n + 1)) =
        (Pending.behind ((lines.drop start).take n)).next line := by
      rw [Pending.behind, List.take_add_one, hLine, Option.toList_some, List.foldl_append]
      rfl
    rw [← Nat.add_assoc, reaches_succ_iff (Nat.le_add_right start n) (by rwa [List.getElem?_drop] at hLine),
      ih, hSkipped, hBehind]
    generalize Pending.behind ((lines.drop start).take n) = before
    by_cases hBefore : before = .nothing
    · subst hBefore
      by_cases hPending : pending = .nothing
      · subst hPending
        simp [LeftBy]
      · simp [hPending, Ne.symm hPending, next_nothing_iff line pending hPending]
    · obtain ⟨hEnded, hOpen⟩ := next_eq line hBefore
      constructor
      · rintro (⟨⟨hNe, rfl⟩, hNot⟩ | ⟨hNothing, -⟩)
        · exact ⟨hNe, hOpen hNot⟩
        · exact absurd hBefore hNothing
      · rintro ⟨hNe, rfl⟩
        have hNot : ¬before.EndedBy line := fun h => hNe (hEnded h)
        rw [hOpen hNot]
        exact Or.inl ⟨⟨hBefore, rfl⟩, hNot⟩

theorem isSkipped_add_iff {n : Nat} (hn : n ≤ (lines.drop start).length) :
    IsSkipped lines start (start + n) ↔ Pending.behind ((lines.drop start).take n) ≠ .nothing := by
  simp only [isSkipped_iff, Pending.reaches_iff hn]
  exact ⟨fun ⟨_, hNe, hEq⟩ => hEq ▸ hNe, fun hNe => ⟨_, hNe, rfl⟩⟩

/-- The line `n` is the seed of a search that begins with something pending: nothing is pending before
it, and each line before it that has nothing pending before it is passed by. -/
structure SeedKind.IsFoundAt (pending : Pending) (ls : List Text) (n : Nat) (kind : SeedKind) : Prop where
  role : ∃ line, ls[n]? = some line ∧ LineRole.of (trim line) = .seed kind
  nothing_pending : (ls.take n).foldl Pending.next pending = .nothing
  passed : ∀ m line, m < n → ls[m]? = some line → (ls.take m).foldl Pending.next pending = .nothing →
    ∃ left, LineRole.of (trim line) = .pass left

theorem SeedKind.isFoundAt_cons_iff {pending : Pending} {line : Text}
    (h : pending = .nothing → ∃ left, LineRole.of (trim line) = .pass left) (rest : List Text) (n : Nat)
    (kind : SeedKind) :
    kind.IsFoundAt pending (line :: rest) n ↔
      ∃ m, n = m + 1 ∧ kind.IsFoundAt (pending.next line) rest m := by
  constructor
  · rintro ⟨⟨l, hl, hRole⟩, hNothing, hPassed⟩
    cases n with
    | zero =>
      obtain ⟨left, hLeft⟩ := h hNothing
      cases hl
      rw [hRole] at hLeft
      cases hLeft
    | succ m =>
      refine ⟨m, rfl, ⟨l, hl, hRole⟩, hNothing, ?_⟩
      exact fun k l hk hl hPending => hPassed (k + 1) l (Nat.succ_lt_succ hk) hl hPending
  · rintro ⟨m, rfl, hRole, hNothing, hPassed⟩
    refine ⟨hRole, hNothing, ?_⟩
    intro k l hk hl hPending
    cases k with
    | zero =>
      cases hl
      exact h hPending
    | succ k => exact hPassed k l (Nat.lt_of_succ_lt_succ hk) hl hPending

/-- A line that is not passed by is the seed or ends the search. -/
theorem SeedKind.isFoundAt_cons_iff_of_not_pass {line : Text}
    (h : ∀ left, LineRole.of (trim line) ≠ .pass left) (rest : List Text) (n : Nat) (kind : SeedKind) :
    kind.IsFoundAt .nothing (line :: rest) n ↔ n = 0 ∧ LineRole.of (trim line) = .seed kind := by
  constructor
  · rintro ⟨⟨l, hl, hRole⟩, -, hPassed⟩
    cases n with
    | zero =>
      cases hl
      exact ⟨rfl, hRole⟩
    | succ m =>
      obtain ⟨left, hLeft⟩ := hPassed 0 line (Nat.succ_pos m) rfl rfl
      exact absurd hLeft (h left)
  · rintro ⟨rfl, hRole⟩
    exact ⟨⟨line, rfl, hRole⟩, rfl, fun m l hm => absurd hm (Nat.not_lt_zero m)⟩

theorem Seed.search_eq_some_iff (position : Nat) (pending : Pending) (ls : List Text) (seed : Seed) :
    Seed.search position pending ls = some seed ↔
      ∃ n, seed.line = position + n ∧ seed.kind.IsFoundAt pending ls n := by
  induction ls generalizing position pending with
  | nil =>
    rw [Seed.search_nil]
    constructor
    · exact nofun
    · rintro ⟨n, -, ⟨line, hLine, -⟩, -⟩
      cases hLine
  | cons line rest ih =>
    have hPass (hRole : pending = .nothing → ∃ left, LineRole.of (trim line) = .pass left) :
        Seed.search (position + 1) (pending.next line) rest = some seed ↔
          ∃ n, seed.line = position + n ∧ seed.kind.IsFoundAt pending (line :: rest) n := by
      simp only [ih, SeedKind.isFoundAt_cons_iff hRole]
      constructor
      · rintro ⟨n, hLine, hFound⟩
        exact ⟨n + 1, by omega, n, rfl, hFound⟩
      · rintro ⟨n, hLine, m, rfl, hFound⟩
        exact ⟨m, by omega, hFound⟩
    cases pending with
    | comment => exact hPass nofun
    | directive => exact hPass nofun
    | nothing =>
      rw [Seed.search]
      cases hRole : LineRole.of (trim line) with
      | pass left =>
        have hNext : Pending.nothing.next line = left := by rw [Pending.next, hRole]
        rw [← hPass fun _ => ⟨left, hRole⟩, hNext]
      | stop =>
        have hNot : ∀ left, LineRole.of (trim line) ≠ .pass left := by simp [hRole]
        simp [SeedKind.isFoundAt_cons_iff_of_not_pass hNot, hRole]
      | seed kind =>
        have hNot : ∀ left, LineRole.of (trim line) ≠ .pass left := by simp [hRole]
        simp only [SeedKind.isFoundAt_cons_iff_of_not_pass hNot, hRole, LineRole.seed.injEq, Option.some_inj]
        constructor
        · rintro rfl
          exact ⟨0, rfl, rfl, rfl⟩
        · rintro ⟨n, hLine, rfl, rfl⟩
          exact congrArg (Seed.mk seed.kind) hLine.symm

theorem getElem?_window (lines : List Text) (start n : Nat) :
    ((lines.drop start).take lookaheadLines)[n]? = if n < lookaheadLines then lines[start + n]? else none := by
  rw [List.getElem?_take, List.getElem?_drop]

theorem Seed.locate_eq_some_iff (lines : List Text) (start : Nat) (seed : Seed) :
    Seed.locate lines start = some seed ↔ seed.IsFirst lines start := by
  -- Inside the window, nothing is pending before a line exactly if the line is not skipped.
  have hPending {n : Nat} {line : Text} (hn : n < lookaheadLines) (hLine : lines[start + n]? = some line) :
      Pending.behind (((lines.drop start).take lookaheadLines).take n) = .nothing ↔
        ¬IsSkipped lines start (start + n) := by
    have hLength : n ≤ (lines.drop start).length := by
      have := (List.getElem?_eq_some_iff.mp hLine).1
      rw [List.length_drop]
      omega
    rw [List.take_take, Nat.min_eq_left hn.le, isSkipped_add_iff hLength, not_not]
  rw [Seed.locate, Seed.search_eq_some_iff]
  constructor
  · rintro ⟨n, hSeed, ⟨line, hLine, hRole⟩, hNothing, hPassed⟩
    rw [getElem?_window] at hLine
    obtain ⟨hn, hLine⟩ := Option.ite_none_right_eq_some.mp hLine
    refine ⟨by omega, by omega, ?_, ⟨line, hSeed ▸ hLine, (role_eq_seed_iff line _).mp hRole⟩, ?_⟩
    · rw [hSeed]
      exact (hPending hn hLine).mp hNothing
    · intro j l hStart hj hl hSkipped
      obtain ⟨m, rfl⟩ := Nat.exists_eq_add_of_le hStart
      have hm : m < lookaheadLines := by omega
      apply (role_eq_pass_iff_not l).mp
      refine hPassed m l (by omega) ?_ ((hPending hm hl).mpr hSkipped)
      rw [getElem?_window, if_pos hm, hl]
  · rintro ⟨hStart, hWindow, hSkipped, ⟨line, hLine, hBegins⟩, hFirst⟩
    obtain ⟨n, hSeed⟩ := Nat.exists_eq_add_of_le hStart
    rw [hSeed] at hLine hSkipped hWindow
    have hn : n < lookaheadLines := by omega
    refine ⟨n, hSeed, ⟨line, ?_, (role_eq_seed_iff line _).mpr hBegins⟩, (hPending hn hLine).mpr hSkipped, ?_⟩
    · rw [getElem?_window, if_pos hn, hLine]
    · intro m l hm hl hNothing
      rw [getElem?_window] at hl
      obtain ⟨hWithin, hl⟩ := Option.ite_none_right_eq_some.mp hl
      apply (role_eq_pass_iff_not l).mpr
      exact hFirst (start + m) l (Nat.le_add_right start m) (by omega) hl ((hPending hWithin hl).mp hNothing)

/-- The lookahead finds exactly the first seed that is not skipped. It is a line of the file, and no
line outside the window has a part in it. -/
theorem Seed.locate_isFirst (lines : List Text) (start : Nat) :
    (∀ seed, Seed.locate lines start = some seed ↔ seed.IsFirst lines start) ∧
      ((∀ seed : Seed, ¬seed.IsFirst lines start) → Seed.locate lines start = none) ∧
      (∀ seed, Seed.locate lines start = some seed → seed.line < lines.length) ∧
      ∀ others : List Text, (∀ i, start ≤ i → i < start + lookaheadLines → others[i]? = lines[i]?) →
        Seed.locate others start = Seed.locate lines start := by
  refine ⟨Seed.locate_eq_some_iff lines start, ?_, ?_, ?_⟩
  · intro h
    rw [Option.eq_none_iff_forall_ne_some]
    exact fun seed hSeed => h seed ((Seed.locate_eq_some_iff lines start seed).mp hSeed)
  · intro seed hSeed
    obtain ⟨line, hLine, -⟩ := ((Seed.locate_eq_some_iff lines start seed).mp hSeed).begins
    exact (List.getElem?_eq_some_iff.mp hLine).1
  · intro others hOthers
    have hWindow : (others.drop start).take lookaheadLines = (lines.drop start).take lookaheadLines := by
      apply List.ext_getElem?
      intro n
      rw [getElem?_window, getElem?_window]
      split
      · exact hOthers (start + n) (by omega) (by omega)
      · rfl
    rw [Seed.locate, hWindow, Seed.locate]

/-- What a plain comment hides is no seed. -/
example : Seed.locate ["/* not".toList, "int hidden(void);".toList, "*/".toList, "int seen(void);".toList] 0 =
    some ⟨.function, 3⟩ := by decide

end HeaderDigest
