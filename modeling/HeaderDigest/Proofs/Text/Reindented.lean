import HeaderDigest.Proofs.Text.Blanks
import HeaderDigest.Proofs.Text.Lines
import HeaderDigest.Proofs.Text.Words

/-!
# Lines with other blanks at their ends

Two lists of lines are reindented when their lines differ only in the blanks at the ends, and one
list may go on with blank lines. Cutting a text into lines and joining lines leads to such lists.
-/

namespace HeaderDigest.Text

inductive Reindented : List Text → List Text → Prop
  | nil : Reindented [] []
  | cons {line line' : Text} {ls ms : List Text} : trim line = trim line' → Reindented ls ms →
      Reindented (line :: ls) (line' :: ms)
  | left {line : Text} {ls : List Text} : trim line = [] → Reindented ls [] →
      Reindented (line :: ls) []
  | right {line : Text} {ms : List Text} : trim line = [] → Reindented [] ms →
      Reindented [] (line :: ms)

namespace Reindented

variable {ls ms ns : List Text}

theorem refl (ls : List Text) : Reindented ls ls := by
  induction ls with
  | nil => exact nil
  | cons line ls ih => exact cons rfl ih

theorem symm (h : Reindented ls ms) : Reindented ms ls := by
  induction h with
  | nil => exact nil
  | cons hLine _ ih => exact cons hLine.symm ih
  | left hLine _ ih => exact right hLine ih
  | right hLine _ ih => exact left hLine ih

theorem trans (h : Reindented ls ms) (h' : Reindented ms ns) : Reindented ls ns := by
  induction h generalizing ns with
  | nil => exact h'
  | cons hLine _ ih =>
    cases h' with
    | cons hLine' hRest => exact cons (hLine.trans hLine') (ih hRest)
    | left hLine' hRest => exact left (hLine.trans hLine') (ih hRest)
  | left hLine hLines ih =>
    cases h' with
    | nil => exact left hLine hLines
    | right hLine' hRest => exact cons (hLine.trans hLine'.symm) (ih hRest)
  | right hLine _ ih =>
    cases h' with
    | cons hLine' hRest => exact right (hLine'.symm.trans hLine) (ih hRest)
    | left _ hRest => exact ih hRest

theorem of_map_trim (h : ls.map trim = ms.map trim) : Reindented ls ms := by
  induction ls generalizing ms with
  | nil =>
    rw [List.map_nil, eq_comm, List.map_eq_nil_iff] at h
    exact h ▸ nil
  | cons line ls ih =>
    cases ms with
    | nil => cases h
    | cons line' ms =>
      obtain ⟨hLine, hRest⟩ := List.cons.inj h
      exact cons hLine (ih hRest)

theorem drop (h : Reindented ls ms) (n : Nat) : Reindented (ls.drop n) (ms.drop n) := by
  induction h generalizing n with
  | nil => exact refl _
  | cons hLine hLines ih =>
    cases n with
    | zero => exact cons hLine hLines
    | succ n => exact ih n
  | left hLine hLines ih =>
    cases n with
    | zero => exact left hLine hLines
    | succ n =>
      rw [List.drop_succ_cons, List.drop_nil]
      have hRest := ih n
      rwa [List.drop_nil] at hRest
  | right hLine hLines ih =>
    cases n with
    | zero => exact right hLine hLines
    | succ n =>
      rw [List.drop_succ_cons, List.drop_nil]
      have hRest := ih n
      rwa [List.drop_nil] at hRest

theorem take (h : Reindented ls ms) (n : Nat) : Reindented (ls.take n) (ms.take n) := by
  induction h generalizing n with
  | nil => exact refl _
  | cons hLine _ ih =>
    cases n with
    | zero => exact nil
    | succ n => exact cons hLine (ih n)
  | left hLine _ ih =>
    cases n with
    | zero => exact nil
    | succ n =>
      have hRest := ih n
      rw [List.take_nil] at hRest
      exact left hLine hRest
  | right hLine _ ih =>
    cases n with
    | zero => exact nil
    | succ n =>
      have hRest := ih n
      rw [List.take_nil] at hRest
      exact right hLine hRest

theorem drop_of_length_le (h : Reindented ls ms) {n : Nat} (hn : ls.length ≤ n) :
    Reindented (ms.drop n) [] := by
  have hDrop := (h.drop n).symm
  rwa [List.drop_eq_nil_of_le hn] at hDrop

/-- Taking `n` lines of each takes the same number, or leaves only blank lines in both. -/
theorem drop_min (h : Reindented ls ms) (n : Nat) :
    min n ls.length = min n ms.length ∨
      Reindented (ls.drop (min n ls.length)) [] ∧ Reindented (ms.drop (min n ms.length)) [] := by
  by_cases hLs : ls.length ≤ min n ms.length
  · refine Or.inr ⟨?_, h.drop_of_length_le hLs⟩
    rw [List.drop_eq_nil_of_le (by omega)]
    exact nil
  · by_cases hMs : ms.length ≤ min n ls.length
    · refine Or.inr ⟨h.symm.drop_of_length_le hMs, ?_⟩
      rw [List.drop_eq_nil_of_le (by omega)]
      exact nil
    · exact Or.inl (by omega)

theorem map {f : Text → Text} (hf : ∀ line line', trim line = trim line' → trim (f line) = trim (f line'))
    (hNil : f [] = []) (h : Reindented ls ms) : Reindented (ls.map f) (ms.map f) := by
  have hBlank {line : Text} (hLine : trim line = []) : trim (f line) = [] := by
    rw [hf line [] hLine, hNil]
    rfl
  induction h with
  | nil => exact nil
  | cons hLine _ ih => exact cons (hf _ _ hLine) ih
  | left hLine _ ih => exact left (hBlank hLine) ih
  | right hLine _ ih => exact right (hBlank hLine) ih

theorem trim_headD (h : Reindented ls ms) : trim (ls.headD []) = trim (ms.headD []) := by
  cases h with
  | nil => rfl
  | cons hLine _ => exact hLine
  | left hLine _ => exact hLine
  | right hLine _ => exact hLine.symm

/-- What is collected from the trimmed lines, when an empty line gives nothing. -/
theorem flatMap_eq {α : Type} {f : Text → List α} (hf : ∀ line, f line = f (trim line))
    (hNil : f [] = []) (h : Reindented ls ms) : ls.flatMap f = ms.flatMap f := by
  induction h with
  | nil => rfl
  | cons hLine _ ih => rw [List.flatMap_cons, List.flatMap_cons, hf, hLine, ← hf, ih]
  | left hLine _ ih => rw [List.flatMap_cons, hf, hLine, hNil, ih, List.nil_append]
  | right hLine _ ih => rw [List.flatMap_cons, hf, hLine, hNil, ← ih, List.nil_append]

end Reindented

theorem joinLines_cons_cons (l m : Text) (ls : List Text) :
    joinLines (l :: m :: ls) = l ++ '\n' :: joinLines (m :: ls) := by
  simp [joinLines, List.intercalate]

theorem joinLines_singleton (l : Text) : joinLines [l] = l := by simp [joinLines, List.intercalate]

theorem words_joinLines (ls : List Text) : words (joinLines ls) = ls.flatMap words := by
  induction ls with
  | nil => rfl
  | cons l ls ih =>
    cases ls with
    | nil => rw [joinLines_singleton, List.flatMap_singleton]
    | cons m ls =>
      rw [joinLines_cons_cons, words, runs_append_cons_of_neg (by decide), List.flatMap_cons]
      exact congrArg (runs _ l ++ ·) ih

theorem filter_joinLines {p : Char → Bool} (hp : p '\n' = false) (ls : List Text) :
    (joinLines ls).filter p = ls.flatMap fun l => l.filter p := by
  induction ls with
  | nil => rfl
  | cons l ls ih =>
    cases ls with
    | nil => rw [joinLines_singleton, List.flatMap_singleton]
    | cons m ls =>
      rw [joinLines_cons_cons, List.filter_append, List.filter_cons_of_neg (by simp [hp]), ih]
      rfl

theorem not_mem_of_mem_lines {s l : Text} (h : l ∈ lines s) : '\n' ∉ l := by
  induction s using lines.induct generalizing l with
  | case1 => cases h
  | case2 rest ih =>
    rw [lines_line_feed] at h
    obtain rfl | h := List.mem_cons.mp h
    · exact List.not_mem_nil
    · exact ih h
  | case3 rest ih =>
    rw [lines] at h
    obtain rfl | h := List.mem_cons.mp h
    · exact List.not_mem_nil
    · exact ih h
  | case4 c rest hc hr line more hl ih =>
    rw [lines_cons hc (fun t h => hr t h) hl] at h
    obtain rfl | h := List.mem_cons.mp h
    · have hLine := ih (hl ▸ List.mem_cons_self)
      exact List.not_mem_cons_of_ne_of_not_mem (Ne.symm hc) hLine
    · exact ih (hl ▸ List.mem_cons_of_mem line h)
  | case5 c rest hc hr hl ih =>
    rw [lines.eq_4 c rest hc (fun t h => hr t h), hl] at h
    obtain rfl := List.mem_singleton.mp h
    exact List.not_mem_cons_of_ne_of_not_mem (Ne.symm hc) List.not_mem_nil

theorem mem_of_mem_lines {s l : Text} (h : l ∈ lines s) {c : Char} (hc : c ∈ l) : c ∈ s := by
  induction s using lines.induct generalizing l with
  | case1 => cases h
  | case2 rest ih =>
    rw [lines_line_feed] at h
    obtain rfl | h := List.mem_cons.mp h
    · cases hc
    · exact List.mem_cons_of_mem _ (ih h hc)
  | case3 rest ih =>
    rw [lines] at h
    obtain rfl | h := List.mem_cons.mp h
    · cases hc
    · exact List.mem_cons_of_mem _ (List.mem_cons_of_mem _ (ih h hc))
  | case4 d rest hd hr line more hl ih =>
    rw [lines_cons hd (fun t h => hr t h) hl] at h
    obtain rfl | h := List.mem_cons.mp h
    · obtain rfl | hc := List.mem_cons.mp hc
      · exact List.mem_cons_self
      · exact List.mem_cons_of_mem d (ih (hl ▸ List.mem_cons_self) hc)
    · exact List.mem_cons_of_mem d (ih (hl ▸ List.mem_cons_of_mem line h) hc)
  | case5 d rest hd hr hl ih =>
    rw [lines.eq_4 d rest hd (fun t h => hr t h), hl] at h
    obtain rfl := List.mem_singleton.mp h
    obtain rfl := List.mem_singleton.mp hc
    exact List.mem_cons_self

theorem lines_of_not_mem {l : Text} (hl : '\n' ∉ l) : lines l = if l = [] then [] else [l] := by
  induction l with
  | nil => rfl
  | cons c l ih =>
    obtain ⟨hc, hRest⟩ := List.ne_and_not_mem_of_not_mem_cons hl
    have hFeed (t : Text) : c = '\r' → l ≠ '\n' :: t := by
      rintro - rfl
      exact hRest List.mem_cons_self
    rw [lines.eq_4 c l (Ne.symm hc) (fun t => hFeed t), ih hRest]
    cases l <;> rfl

theorem lines_carriage_return {l : Text} (hl : '\n' ∉ l) (rest : Text) :
    lines (l ++ '\r' :: '\n' :: rest) = l :: lines rest := by
  induction l with
  | nil => rfl
  | cons c l ih =>
    obtain ⟨hc, hRest⟩ := List.ne_and_not_mem_of_not_mem_cons hl
    rw [List.cons_append]
    refine lines_cons (Ne.symm hc) ?_ (ih hRest)
    intro t _ ht
    cases l with
    | nil => cases ht
    | cons d l =>
      cases ht
      exact hRest List.mem_cons_self

/-- A line feed ends the first line, which may lose a carriage return to it. -/
theorem exists_lines_append {l : Text} (hl : '\n' ∉ l) (rest : Text) :
    ∃ l', lines (l ++ '\n' :: rest) = l' :: lines rest ∧ trim l' = trim l := by
  by_cases hReturn : l.getLast? = some '\r'
  · obtain ⟨front, rfl⟩ := List.getLast?_eq_some_iff.mp hReturn
    refine ⟨front, ?_, ?_⟩
    · rw [List.append_assoc]
      exact lines_carriage_return (fun h => hl (List.mem_append_left _ h)) rest
    · exact (trim_append_blank front (by decide)).symm
  · exact ⟨l, lines_line ⟨hl, hReturn⟩ rest, rfl⟩

theorem reindented_lines_of_not_mem {l : Text} (hl : '\n' ∉ l) : Reindented (lines l) [l] := by
  rw [lines_of_not_mem hl]
  split
  · rename_i hNil
    exact hNil ▸ .right rfl .nil
  · exact .refl [l]

/-- Lines that are joined come apart as they were, trailing carriage returns and an empty line at
the end aside. -/
theorem reindented_lines_joinLines {ls : List Text} (h : ∀ l ∈ ls, '\n' ∉ l) :
    Reindented (lines (joinLines ls)) ls := by
  induction ls with
  | nil => exact .nil
  | cons l ls ih =>
    obtain ⟨hl, hRest⟩ := List.forall_mem_cons.mp h
    cases ls with
    | nil =>
      rw [joinLines_singleton]
      exact reindented_lines_of_not_mem hl
    | cons m ls =>
      obtain ⟨l', hLines, hTrim⟩ := exists_lines_append hl (joinLines (m :: ls))
      rw [joinLines_cons_cons, hLines]
      exact .cons hTrim (ih hRest)

/-- Blanks at the end of joined lines are the ends of a line and the blank lines behind it. -/
theorem reindented_lines_trimEnd_joinLines {ls : List Text} (h : ∀ l ∈ ls, '\n' ∉ l) :
    Reindented (lines (trimEnd (joinLines ls))) ls := by
  have hSingle {l : Text} (hl : '\n' ∉ l) : Reindented (lines (trimEnd l)) [trimEnd l] := by
    apply reindented_lines_of_not_mem
    intro hMem
    obtain ⟨v, -, hv⟩ := exists_eq_trimEnd_append l
    rw [hv] at hl
    exact hl (List.mem_append_left v hMem)
  induction ls with
  | nil => exact .nil
  | cons l ls ih =>
    obtain ⟨hl, hRest⟩ := List.forall_mem_cons.mp h
    cases ls with
    | nil =>
      rw [joinLines_singleton]
      exact (hSingle hl).trans (.cons (trim_trimEnd l) .nil)
    | cons m ls =>
      have hMore := ih hRest
      rw [joinLines_cons_cons, trimEnd_append]
      have hFeed : trimEnd ('\n' :: joinLines (m :: ls)) =
          if trimEnd (joinLines (m :: ls)) = [] then [] else '\n' :: trimEnd (joinLines (m :: ls)) :=
        trimEnd_append ['\n'] (joinLines (m :: ls))
      rw [hFeed]
      by_cases hBlank : trimEnd (joinLines (m :: ls)) = []
      · rw [hBlank] at hMore
        rw [if_pos hBlank, if_pos rfl]
        exact (hSingle hl).trans (.cons (trim_trimEnd l) hMore)
      · obtain ⟨l', hLines, hTrim⟩ := exists_lines_append hl (trimEnd (joinLines (m :: ls)))
        rw [if_neg hBlank, if_neg (List.cons_ne_nil _ _), hLines]
        exact .cons hTrim hMore

/-- Trimming joined lines that begin with one that is not blank leaves each line in its place. -/
theorem reindented_lines_trim_joinLines {l : Text} {ls : List Text} (hBlank : trim l ≠ [])
    (h : ∀ m ∈ l :: ls, '\n' ∉ m) : Reindented (lines (trim (joinLines (l :: ls)))) (l :: ls) := by
  obtain ⟨u, hu, hl⟩ := exists_eq_append_trimStart l
  have hStart : trimStart (joinLines (l :: ls)) = joinLines (trimStart l :: ls) := by
    have hJoin : joinLines (l :: ls) = u ++ joinLines (trimStart l :: ls) := by
      cases ls with
      | nil => rw [joinLines_singleton, joinLines_singleton, ← hl]
      | cons m ls => rw [joinLines_cons_cons, joinLines_cons_cons, ← List.append_assoc, ← hl]
    rw [hJoin, trimStart_append_of_blank _ hu]
    apply trimStart_eq_self
    have hHead := startsBlank_trimStart l
    cases hTrim : trimStart l with
    | nil => exact absurd (by rw [trim, hTrim]; rfl) hBlank
    | cons c t =>
      rw [hTrim] at hHead
      cases ls <;> exact hHead
  rw [trim, hStart]
  refine (reindented_lines_trimEnd_joinLines ?_).trans (.cons (trim_trimStart l) (.refl ls))
  obtain ⟨hl', hRest⟩ := List.forall_mem_cons.mp h
  refine List.forall_mem_cons.mpr ⟨?_, hRest⟩
  intro hMem
  rw [hl] at hl'
  exact hl' (List.mem_append_right u hMem)

theorem reindented_lines_splitOn (s : Text) : Reindented (lines s) (s.splitOn '\n') := by
  induction hLength : s.length using Nat.strongRecOn generalizing s with
  | ind n ih =>
    by_cases hFeed : '\n' ∈ s
    · obtain ⟨l, rest, rfl, hl⟩ := List.eq_append_cons_of_mem hFeed
      obtain ⟨l', hLines, hTrim⟩ := exists_lines_append hl rest
      have hShorter : rest.length < n := by
        rw [← hLength, List.length_append, List.length_cons]
        omega
      rw [hLines, List.splitOn_append_cons_self_of_not_mem hl]
      exact .cons hTrim (ih _ hShorter rest rfl)
    · rw [List.splitOn_eq_singleton hFeed]
      exact reindented_lines_of_not_mem hFeed

theorem flatMap_words_lines (s : Text) : (lines s).flatMap words = words s := by
  have hJoined : joinLines (s.splitOn '\n') = s := List.intercalate_splitOn '\n'
  rw [(reindented_lines_splitOn s).flatMap_eq (fun line => (words_trim line).symm) rfl, ← words_joinLines,
    hJoined]

end HeaderDigest.Text
