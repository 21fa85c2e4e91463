import HeaderDigest.Proofs.Source.Remarked

/-!
# Comments in one reading

Comments can also be taken out of a line in one reading from the left, which keeps apart what stands
outside a comment and what stands in one. Taking out the blocks first and cutting at `//` then leaves the
same code, with one exception: the second stroke of the `//` at which the reading stops may open a block,
as in `//* ... */`. With this block gone the first stroke stands alone, and what follows is kept.
-/

namespace HeaderDigest

open Text

/-- What follows the first `*/` that comes before the next line break. -/
def behindCloser? : Text → Option Text
  | [] => none
  | c :: rest =>
    match dropPrefix? ['*', '/'] (c :: rest) with
    | some after => some after
    | none => if c = '\n' then none else behindCloser? rest

/-- What follows the block that a text begins with, if it begins with one. -/
def behindBlock? (s : Text) : Option Text := (dropPrefix? ['/', '*'] s).bind behindCloser?

/-- What can be said between the delimiters of a block. -/
structure FitsBlock (said : Text) : Prop where
  noLineFeed : '\n' ∉ said
  noCloser : hasPart ['*', '/'] said = false

theorem behindCloser?_append {said : Text} (h : FitsBlock said) (after : Text) :
    behindCloser? (said ++ '*' :: '/' :: after) = some after := by
  obtain ⟨hFeed, hCloser⟩ := h
  induction said with
  | nil => rfl
  | cons c said ih =>
    rw [hasPart, Bool.or_eq_false_iff] at hCloser
    obtain ⟨hc, hFeed⟩ := List.ne_and_not_mem_of_not_mem_cons hFeed
    have hNone : dropPrefix? ['*', '/'] (c :: (said ++ '*' :: '/' :: after)) = none := by
      rw [Option.eq_none_iff_forall_ne_some]
      intro rest hDrop
      obtain ⟨rfl, hRest⟩ := List.cons.inj (eq_append_of_dropPrefix? hDrop)
      -- A star behind which a stroke comes is the last one or belongs to a closer in what is said.
      cases said with
      | nil => exact absurd (List.cons.inj hRest).1 (by decide)
      | cons d said =>
        obtain ⟨rfl, -⟩ := List.cons.inj hRest
        exact Bool.false_ne_true (hCloser.1.symm.trans rfl)
    rw [List.cons_append, behindCloser?, hNone]
    simp only [if_neg (Ne.symm hc)]
    exact ih hFeed hCloser.2

theorem exists_of_behindCloser? {s after : Text} (h : behindCloser? s = some after) :
    ∃ said, FitsBlock said ∧ s = said ++ '*' :: '/' :: after := by
  induction s with
  | nil => cases h
  | cons c rest ih =>
    rw [behindCloser?] at h
    split at h
    · rename_i behind hDrop
      obtain rfl := Option.some.inj h
      have hText : c :: rest = ['*', '/'] ++ behind := eq_append_of_dropPrefix? hDrop
      exact ⟨[], ⟨by simp, rfl⟩, hText⟩
    · rename_i hDrop
      split at h
      · cases h
      · rename_i hc
        obtain ⟨said, ⟨hFeed, hCloser⟩, rfl⟩ := ih h
        refine ⟨c :: said, ⟨by simp [Ne.symm hc, hFeed], ?_⟩, rfl⟩
        rw [hasPart, hCloser, Bool.or_false, Bool.eq_false_iff]
        intro hStarts
        obtain ⟨more, hMore⟩ := List.isPrefixOf_iff_prefix.mp hStarts
        rw [← List.cons_append, ← hMore, List.append_assoc, dropPrefix?_append] at hDrop
        cases hDrop

theorem behindBlock?_eq_some_iff {s after : Text} :
    behindBlock? s = some after ↔ ∃ said, FitsBlock said ∧ s = blockComment said ++ after := by
  rw [behindBlock?, Option.bind_eq_some_iff]
  constructor
  · rintro ⟨rest, hOpen, hClose⟩
    obtain ⟨said, hSaid, rfl⟩ := exists_of_behindCloser? hClose
    refine ⟨said, hSaid, ?_⟩
    rw [eq_append_of_dropPrefix? hOpen]
    simp [blockComment]
  · rintro ⟨said, hSaid, rfl⟩
    refine ⟨said ++ '*' :: '/' :: after, ?_, behindCloser?_append hSaid after⟩
    rw [dropPrefix?_eq_some_iff]
    simp [blockComment]

theorem length_lt_of_behindBlock? {s after : Text} (h : behindBlock? s = some after) :
    after.length < s.length := by
  obtain ⟨said, -, rfl⟩ := behindBlock?_eq_some_iff.mp h
  simp only [blockComment, List.length_append, List.length_cons]
  omega

/-- What one reading of a line gives. -/
structure Scan where
  code : Text
  /-- What follows the `//` at which the reading stops, if it does not go on to the end. -/
  behind? : Option Text
deriving Repr, DecidableEq

/-- Stops at `//`, passes over a block, and keeps any other character as code. -/
def Scan.read (line : Text) : Scan :=
  match line with
  | [] => ⟨[], none⟩
  | c :: rest =>
    match dropPrefix? ['/', '/'] (c :: rest) with
    | some behind => ⟨[], some behind⟩
    | none =>
      match _ : behindBlock? (c :: rest) with
      | some after => read after
      | none => ⟨c :: (read rest).code, (read rest).behind?⟩
termination_by line.length
decreasing_by
  · exact length_lt_of_behindBlock? ‹_›
  · exact Nat.lt_succ_self rest.length

theorem Scan.read_nil : Scan.read [] = ⟨[], none⟩ := by rw [Scan.read]

theorem Scan.read_lineComment (said : Text) : Scan.read (lineComment said) = ⟨[], some said⟩ := by
  rw [lineComment, Scan.read]
  rfl

theorem Scan.read_of_behindBlock? {s after : Text} (h : behindBlock? s = some after) :
    Scan.read s = Scan.read after := by
  obtain ⟨said, -, rfl⟩ := behindBlock?_eq_some_iff.mp h
  rw [blockComment, List.cons_append] at h ⊢
  rw [Scan.read]
  split
  · rename_i hLine
    cases hLine
  · split
    · rename_i hBlock
      rw [Option.some.inj (hBlock.symm.trans h)]
    · rename_i hBlock
      cases hBlock.symm.trans h

theorem Scan.read_cons {c : Char} {rest : Text} (hLine : dropPrefix? ['/', '/'] (c :: rest) = none)
    (hBlock : behindBlock? (c :: rest) = none) :
    Scan.read (c :: rest) = ⟨c :: (Scan.read rest).code, (Scan.read rest).behind?⟩ := by
  rw [Scan.read]
  split
  · rename_i h
    cases h.symm.trans hLine
  · split
    · rename_i h
      cases h.symm.trans hBlock
    · rfl

example : (Scan.read "int a; /* b */ c // d".toList).code = "int a;  c ".toList := by cbv

theorem exists_behindCloser? {s : Text} (h : closesBlock s = true) : ∃ after, behindCloser? s = some after := by
  induction s with
  | nil => cases h
  | cons c rest ih =>
    rw [closesBlock] at h
    rw [behindCloser?]
    cases hDrop : dropPrefix? ['*', '/'] (c :: rest) with
    | some after => exact ⟨after, rfl⟩
    | none =>
      split at h
      · rename_i hStarts
        obtain ⟨after, hText⟩ := List.isPrefixOf_iff_prefix.mp hStarts
        rw [← hText, dropPrefix?_append] at hDrop
        cases hDrop
      · split at h
        · cases h
        · rename_i hc
          simp only [if_neg hc]
          exact ih h

theorem withoutBlocks_of_behindBlock? {s after : Text} (h : behindBlock? s = some after) :
    withoutBlocks false s = withoutBlocks false after := by
  obtain ⟨said, hSaid, rfl⟩ := behindBlock?_eq_some_iff.mp h
  exact withoutBlocks_blockComment hSaid.noLineFeed hSaid.noCloser after

theorem withoutBlocks_of_behindBlock?_eq_none {c : Char} {rest : Text}
    (h : behindBlock? (c :: rest) = none) :
    withoutBlocks false (c :: rest) = c :: withoutBlocks false rest := by
  cases rest with
  | nil => rfl
  | cons d rest =>
    rw [withoutBlocks_outside, if_neg]
    intro hOpens
    simp only [Bool.and_eq_true, decide_eq_true_eq] at hOpens
    obtain ⟨⟨rfl, rfl⟩, hCloses⟩ := hOpens
    obtain ⟨after, hAfter⟩ := exists_behindCloser? hCloses
    cases h.symm.trans hAfter

/-- Taking blocks out brings no stroke to the front. -/
theorem head?_withoutBlocks {s : Text} (h : s.head? ≠ some '/') : (withoutBlocks false s).head? = s.head? := by
  cases s with
  | nil => rfl
  | cons c s =>
    have hc : c ≠ '/' := fun hc => h (congrArg some hc)
    rw [withoutBlocks_cons hc, List.head?_cons, List.head?_cons]

theorem beforeLineComment_slash_cons {s : Text} (h : s.head? ≠ some '/') :
    beforeLineComment ('/' :: s) = '/' :: beforeLineComment s := by
  rw [beforeLineComment, if_neg]
  intro hStarts
  obtain ⟨rest, hRest⟩ := List.isPrefixOf_iff_prefix.mp hStarts
  exact h (congrArg List.head? (List.cons.inj hRest).2.symm)

theorem beforeLineComment_cons_withoutBlocks {c : Char} {rest : Text}
    (h : dropPrefix? ['/', '/'] (c :: rest) = none) :
    beforeLineComment (c :: withoutBlocks false rest) = c :: beforeLineComment (withoutBlocks false rest) := by
  by_cases hc : c = '/'
  · subst hc
    have hRest : rest.head? ≠ some '/' := by
      intro hHead
      obtain ⟨more, rfl⟩ := List.head?_eq_some_iff.mp hHead
      cases h
    exact beforeLineComment_slash_cons (head?_withoutBlocks hRest ▸ hRest)
  · exact beforeLineComment_append_left (u := [c]) (by simpa using Ne.symm hc) _

/-- The two strokes at which the reading stops are the only ones that the blocks can part. -/
theorem withoutComments_eq_code_append (line : Text) :
    withoutComments line = (Scan.read line).code ++ (Scan.read line).behind?.elim []
      fun behind => beforeLineComment ('/' :: withoutBlocks false ('/' :: behind)) := by
  induction line using Scan.read.induct with
  | case1 =>
    rw [Scan.read_nil]
    rfl
  | case2 c rest behind hLine =>
    have hText : c :: rest = lineComment behind := eq_append_of_dropPrefix? hLine
    rw [hText, Scan.read_lineComment, withoutComments, lineComment, withoutBlocks_outside]
    rfl
  | case3 c rest hLine after hBlock ih =>
    rw [Scan.read_of_behindBlock? hBlock, ← ih, withoutComments, withoutBlocks_of_behindBlock? hBlock,
      withoutComments]
  | case4 c rest hLine hBlock ih =>
    rw [withoutComments] at ih
    rw [Scan.read_cons hLine hBlock, withoutComments, withoutBlocks_of_behindBlock?_eq_none hBlock,
      beforeLineComment_cons_withoutBlocks hLine, ih]
    rfl

theorem Scan.lineComment_isSuffix {line behind : Text} (h : (Scan.read line).behind? = some behind) :
    lineComment behind <:+ line := by
  induction line using Scan.read.induct with
  | case1 =>
    rw [Scan.read_nil] at h
    cases h
  | case2 c rest said hLine =>
    have hText : c :: rest = lineComment said := eq_append_of_dropPrefix? hLine
    rw [hText, Scan.read_lineComment] at h
    obtain rfl := Option.some.inj h
    exact hText ▸ List.suffix_rfl
  | case3 c rest hLine after hBlock ih =>
    rw [Scan.read_of_behindBlock? hBlock] at h
    obtain ⟨said, -, hText⟩ := behindBlock?_eq_some_iff.mp hBlock
    exact hText ▸ (ih h).trans (List.suffix_append (blockComment said) after)
  | case4 c rest hLine hBlock ih =>
    rw [Scan.read_cons hLine hBlock] at h
    exact (ih h).trans (List.suffix_cons c rest)

theorem withoutComments_eq_code {line : Text} (h : hasPart ['/', '/', '*'] line = false) :
    withoutComments line = (Scan.read line).code := by
  rw [withoutComments_eq_code_append]
  cases hBehind : (Scan.read line).behind? with
  | none => exact List.append_nil _
  | some behind =>
    have hStar : behind.head? ≠ some '*' := by
      intro hHead
      obtain ⟨said, rfl⟩ := List.head?_eq_some_iff.mp hHead
      have hPrefix : ['/', '/', '*'] <+: lineComment ('*' :: said) := ⟨said, rfl⟩
      have hPart := hasPart_iff.mpr (hPrefix.isInfix.trans (Scan.lineComment_isSuffix hBehind).isInfix)
      exact Bool.false_ne_true (h.symm.trans hPart)
    have hStroke : withoutBlocks false ('/' :: behind) = '/' :: withoutBlocks false behind :=
      withoutBlocks_append_of_noBlock (u := ['/']) (by decide) hStar
    rw [Option.elim_some, hStroke]
    exact List.append_nil _

/-- A text is a run of blocks with `after` behind it. -/
inductive BehindBlocks (after : Text) : Text → Prop
  | here : BehindBlocks after after
  | block {said rest : Text} : FitsBlock said → BehindBlocks after rest →
      BehindBlocks after (blockComment said ++ rest)

theorem BehindBlocks.withoutBlocks_eq {s after : Text} (h : BehindBlocks after s) :
    withoutBlocks false s = withoutBlocks false after := by
  induction h with
  | here => rfl
  | block hSaid _ ih => rw [withoutBlocks_blockComment hSaid.noLineFeed hSaid.noCloser, ih]

theorem head?_withoutBlocks_or (s : Text) :
    (withoutBlocks false s).head? = some '/' ∨ ∃ after, BehindBlocks after s ∧ after.head? ≠ some '/' := by
  -- Blocks may follow one another at once, so the induction is on what is left behind each.
  induction s using (measure List.length).wf.induction with
  | h s ih =>
    cases hBlock : behindBlock? s with
    | some after =>
      obtain ⟨said, hSaid, hText⟩ := behindBlock?_eq_some_iff.mp hBlock
      rw [withoutBlocks_of_behindBlock? hBlock]
      refine (ih after (length_lt_of_behindBlock? hBlock)).imp_right ?_
      rintro ⟨last, hLast, hHead⟩
      exact ⟨last, hText ▸ hLast.block hSaid, hHead⟩
    | none =>
      cases s with
      | nil => exact Or.inr ⟨[], .here, by simp⟩
      | cons c rest =>
        rw [withoutBlocks_of_behindBlock?_eq_none hBlock]
        by_cases hc : c = '/'
        · exact Or.inl (congrArg some hc)
        · exact Or.inr ⟨c :: rest, .here, fun hHead => hc (Option.some.inj hHead)⟩

/-- Of the `//` at which the reading stops the blocks leave one stroke: the second opens a block, and
`after`, what stands behind this block and those that follow it at once, does not begin with a stroke. -/
structure LeavesStroke (line after : Text) : Prop where
  exists_behind : ∃ behind ∈ (Scan.read line).behind?, BehindBlocks after ('/' :: behind)
  noStroke : after.head? ≠ some '/'

theorem LeavesStroke.withoutComments_eq {line after : Text} (h : LeavesStroke line after) :
    withoutComments line = (Scan.read line).code ++ '/' :: withoutComments after := by
  obtain ⟨⟨behind, hBehind, hBlocks⟩, hStroke⟩ := h
  rw [withoutComments_eq_code_append, hBehind, Option.elim_some, hBlocks.withoutBlocks_eq,
    beforeLineComment_slash_cons (head?_withoutBlocks hStroke ▸ hStroke), withoutComments]

/-- Taking out the blocks first leaves what one reading leaves, or a stroke more and the code behind it. -/
theorem withoutComments_scan (line : Text) :
    (withoutComments line = (Scan.read line).code ↔ ¬∃ after, LeavesStroke line after) ∧
      ∀ after, LeavesStroke line after →
        withoutComments line = (Scan.read line).code ++ '/' :: withoutComments after := by
  refine ⟨⟨?_, ?_⟩, fun after h => h.withoutComments_eq⟩
  · rintro hCode ⟨after, hLeaves⟩
    rw [hLeaves.withoutComments_eq] at hCode
    simp at hCode
  · intro hNone
    rw [withoutComments_eq_code_append]
    cases hBehind : (Scan.read line).behind? with
    | none => exact List.append_nil _
    | some behind =>
      obtain hHead | ⟨after, hBlocks, hStroke⟩ := head?_withoutBlocks_or ('/' :: behind)
      · obtain ⟨rest, hRest⟩ := List.head?_eq_some_iff.mp hHead
        rw [Option.elim_some, hRest]
        exact List.append_nil _
      · exact absurd ⟨after, ⟨behind, hBehind, hBlocks⟩, hStroke⟩ hNone

/-- A comment up to the end of the line whose text begins with a star is not taken out. -/
theorem not_forall_withoutComments_scan : ¬∀ line, withoutComments line = (Scan.read line).code := by
  intro h
  have hCode := h (lineComment "* note */ b".toList)
  rw [Scan.read_lineComment] at hCode
  exact absurd hCode (by decide)

end HeaderDigest
