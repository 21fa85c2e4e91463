import HeaderDigest.Proofs.Header.Assembly
import HeaderDigest.Proofs.Prototype.Reading
import HeaderDigest.Proofs.Survey.Position

/-!
# Leaving private functions out

A private function that is not to be read is refused, so the pass does not go on behind it but
behind its block, and reads the lines of the function again. As long as nothing is found there,
the header is the one with private functions, without these.
-/

namespace HeaderDigest

open Text

def Outcome.hide : Outcome → Outcome
  | .function span record =>
    if isPrivateName record.name then .refused span.start span .hidden else .function span record
  | outcome => outcome

def Visit.isPrivate (met : Visit) : Bool :=
  match met.outcome with
  | .function _ record => isPrivateName record.name
  | _ => false

namespace Finding

def isPrivate (finding : Finding) : Bool := finding.visit?.any Visit.isPrivate

/-- Whether a finding gives a header nothing. -/
def isSilent (finding : Finding) : Bool :=
  finding.function?.isNone && finding.dataType?.isNone && finding.fileDoc?.isNone

def startLine : Finding → Nat
  | unterminated line => line
  | visit met => met.block.startLine

/-- The line after a block, or after an opener that has no closer. -/
def nextLine : Finding → Nat
  | unterminated line => line + 1
  | visit met => met.block.nextLine

end Finding

/-- A block that opens behind the block of a private function and before the end of the function
closes there, and gives a header nothing when private functions are refused. -/
def PrivateLinesSilent (file : Text) (all : List Text) : Prop :=
  ∀ hidden ∈ (survey file true all).filterMap Finding.visit?, hidden.isPrivate = true →
    ∀ finding ∈ survey file false all, hidden.block.nextLine ≤ finding.startLine →
      finding.startLine < hidden.next → finding.isSilent = true ∧ finding.nextLine ≤ hidden.next

instance (file : Text) (all : List Text) : Decidable (PrivateLinesSilent file all) :=
  inferInstanceAs (Decidable (∀ hidden ∈ _, _ → ∀ finding ∈ _, _ → _ → _ ∧ _))

variable {file : Text} {all : List Text}

theorem Outcome.declared_hide (doc : Doc) (seed : Seed) :
    Outcome.declared file false all doc seed = (Outcome.declared file true all doc seed).hide := by
  obtain ⟨kind, line⟩ := seed
  unfold Outcome.declared
  cases kind with
  | dataType =>
    simp only
    split <;> rfl
  | function =>
    simp only
    cases hSpan : Span.functionAt? all line with
    | none => rfl
    | some span =>
      have hStart : span.start = line := (Span.functionAt?_eq_some hSpan).1
      simp only [Function.read_hiding]
      cases Function.read span.text doc file (line + 1) true with
      | error refusal => rfl
      | ok record =>
        simp only [Outcome.hide, hStart]
        cases isPrivateName record.name <;> rfl

theorem Outcome.behind_hide (doc : Doc) (start : Nat) :
    Outcome.behind file false all doc start = (Outcome.behind file true all doc start).hide := by
  unfold Outcome.behind
  split
  · rfl
  · split
    · rfl
    · exact Outcome.declared_hide doc _

theorem visitAt_hide (position length : Nat) :
    visitAt file false all position length =
      { visitAt file true all position length with
        outcome := (visitAt file true all position length).outcome.hide } := by
  refine Visit.ext rfl rfl ?_
  rw [outcome_visitAt, outcome_visitAt, Outcome.behind_hide]
  rfl

theorem visitAt_of_not_private {position length : Nat}
    (h : (visitAt file true all position length).isPrivate = false) :
    visitAt file false all position length = visitAt file true all position length := by
  rw [visitAt_hide]
  refine Visit.ext rfl rfl ?_
  change (visitAt file true all position length).outcome.hide = _
  unfold Visit.isPrivate at h
  split at h
  · rename_i span record hOutcome
    rw [hOutcome, Outcome.hide, if_neg (by simp [h])]
  · rename_i hOutcome
    unfold Outcome.hide
    split
    · rename_i span record hFunction
      exact absurd hFunction (hOutcome span record)
    · rfl

theorem visitAt_of_private {position length : Nat}
    (h : (visitAt file true all position length).isPrivate = true) :
    (Finding.visit (visitAt file false all position length)).isSilent = true ∧
      (visitAt file false all position length).next = position + length := by
  rw [visitAt_hide]
  unfold Visit.isPrivate at h
  split at h
  · rename_i span record hOutcome
    rw [hOutcome, Outcome.hide, if_pos h]
    exact ⟨rfl, rfl⟩
  · cases h

theorem next_of_isSilent {met : Visit} (h : (Finding.visit met).isSilent = true) :
    met.next = met.block.nextLine := by
  obtain ⟨block, doc, outcome⟩ := met
  cases outcome with
  | function span record => cases h
  | dataType span record => cases h
  | _ => rfl

/-- Where only silent findings begin, the pass goes from the first line behind the last. -/
theorem surveyAt_of_silent {stop : Nat} (position : Nat) (hPosition : position ≤ stop)
    (h : ∀ finding ∈ surveyAt file false all position, position ≤ finding.startLine →
      finding.startLine < stop → finding.isSilent = true ∧ finding.nextLine ≤ stop) :
    ∃ passed, surveyAt file false all position = passed ++ surveyAt file false all stop ∧
      ∀ finding ∈ passed, finding.isSilent = true := by
  induction position using surveyAt_induction file false all with
  | done position hDone =>
    refine ⟨[], ?_, by simp⟩
    rw [surveyAt_of_length_le hDone, surveyAt_of_length_le (Nat.le_trans hDone hPosition)]
    rfl
  | pass position hLine hNone ih =>
    obtain rfl | hBefore := Nat.eq_or_lt_of_le hPosition
    · exact ⟨[], rfl, by simp⟩
    · rw [surveyAt_of_none hLine hNone] at h ⊢
      obtain ⟨passed, hPassed, hSilent⟩ := ih hBefore fun finding hFinding hStart =>
        h finding (List.mem_append_right _ hFinding) (by omega)
      refine ⟨(if opensBlock all[position] then [.unterminated position] else []) ++ passed, ?_, ?_⟩
      · rw [hPassed, List.append_assoc]
      · rw [List.forall_mem_append]
        constructor
        · split
          · exact List.forall_mem_singleton.mpr rfl
          · exact List.forall_mem_nil _
        · exact hSilent
  | visit position length hBlock ih =>
    obtain rfl | hBefore := Nat.eq_or_lt_of_le hPosition
    · exact ⟨[], rfl, by simp⟩
    · have hBounds := next_visitAt_bounds file false hBlock
      rw [surveyAt_of_block hBlock] at h ⊢
      obtain ⟨hMet, hStop⟩ := h _ List.mem_cons_self (Nat.le_refl position) hBefore
      have hNext := next_of_isSilent hMet
      obtain ⟨passed, hPassed, hSilent⟩ := ih (hNext ▸ hStop) fun finding hFinding hStart =>
        h finding (List.mem_cons_of_mem _ hFinding) (by omega)
      refine ⟨.visit (visitAt file false all position length) :: passed, ?_, ?_⟩
      · rw [hPassed, List.cons_append]
      · exact List.forall_mem_cons.mpr ⟨hMet, hSilent⟩

/-- The findings that give a header something are those that do when private functions are read,
without these functions. -/
theorem filter_surveyAt_hide (position : Nat)
    (h : ∀ hidden ∈ (surveyAt file true all position).filterMap Finding.visit?,
      hidden.isPrivate = true → ∀ finding ∈ surveyAt file false all position,
        hidden.block.nextLine ≤ finding.startLine → finding.startLine < hidden.next →
          finding.isSilent = true ∧ finding.nextLine ≤ hidden.next) :
    (surveyAt file false all position).filter (!·.isSilent) =
      ((surveyAt file true all position).filter (!·.isPrivate)).filter (!·.isSilent) := by
  induction position using surveyAt_induction file true all with
  | done position hDone =>
    rw [surveyAt_of_length_le hDone, surveyAt_of_length_le hDone]
    rfl
  | pass position hLine hNone ih =>
    rw [surveyAt_of_none hLine hNone, surveyAt_of_none hLine hNone] at h
    rw [surveyAt_of_none hLine hNone, surveyAt_of_none hLine hNone]
    have hRest := ih fun hidden hHidden hPrivate finding hFinding =>
      h hidden (by rw [List.filterMap_append]; exact List.mem_append_right _ hHidden) hPrivate
        finding (List.mem_append_right _ hFinding)
    rw [List.filter_append, List.filter_append, List.filter_append, hRest]
    split <;> rfl
  | visit position length hBlock ih =>
    rw [surveyAt_of_block hBlock, surveyAt_of_block hBlock] at h
    rw [surveyAt_of_block hBlock, surveyAt_of_block hBlock]
    cases hPrivate : (visitAt file true all position length).isPrivate with
    | false =>
      rw [visitAt_of_not_private hPrivate] at h ⊢
      have hRest := ih fun hidden hHidden hPrivate finding hFinding =>
        h hidden (List.mem_cons_of_mem _ hHidden) hPrivate finding
          (List.mem_cons_of_mem _ hFinding)
      have hKept : (Finding.visit (visitAt file true all position length)).isPrivate = false := hPrivate
      rw [List.filter_cons, hRest, List.filter_cons_of_pos (by simp [hKept]), List.filter_cons]
    | true =>
      obtain ⟨hMet, hNext⟩ := visitAt_of_private hPrivate
      have hBounds := next_visitAt_bounds file true hBlock
      obtain ⟨passed, hPassed, hSilent⟩ := surveyAt_of_silent (position + length) hBounds.1
        fun finding hFinding => h _ List.mem_cons_self hPrivate finding
          (List.mem_cons_of_mem _ (hNext.symm ▸ hFinding))
      rw [hNext, hPassed] at h ⊢
      have hRest := ih fun hidden hHidden hPrivate finding hFinding =>
        h hidden (List.mem_cons_of_mem _ hHidden) hPrivate finding
          (List.mem_cons_of_mem _ (List.mem_append_right _ hFinding))
      have hNone : passed.filter (!·.isSilent) = [] := by
        rw [List.filter_eq_nil_iff]
        intro finding hFinding
        simp [hSilent finding hFinding]
      have hLeftOut : (Finding.visit (visitAt file true all position length)).isPrivate = true := hPrivate
      rw [List.filter_cons_of_neg (by simp [hMet]), List.filter_append, hNone, List.nil_append, hRest,
        List.filter_cons_of_neg (by simp [hLeftOut])]

theorem filterMap_filter_of_none {α : Type} {read : Finding → Option α} {leaveOut : Finding → Bool}
    (h : ∀ finding, leaveOut finding = true → read finding = none) (findings : List Finding) :
    (findings.filter (!leaveOut ·)).filterMap read = findings.filterMap read := by
  rw [List.filterMap_filter]
  congr 1
  funext finding
  cases hLeaveOut : leaveOut finding with
  | false => rfl
  | true => exact (h finding hLeaveOut).symm

theorem Finding.eq_none_of_isSilent {finding : Finding} (h : finding.isSilent = true) :
    finding.function? = none ∧ finding.dataType? = none ∧ finding.fileDoc? = none := by
  simp only [isSilent, Bool.and_eq_true, Option.isNone_iff_eq_none] at h
  exact ⟨h.1.1, h.1.2, h.2⟩

theorem Finding.eq_none_of_isPrivate {finding : Finding} (h : finding.isPrivate = true) :
    finding.dataType? = none ∧ finding.fileDoc? = none := by
  cases finding with
  | unterminated line => cases h
  | visit met =>
    obtain ⟨block, doc, outcome⟩ := met
    cases outcome with
    | function span record => exact ⟨rfl, rfl⟩
    | _ => cases h

theorem filterMap_function?_filter_isPrivate (findings : List Finding) :
    (findings.filter (!·.isPrivate)).filterMap Finding.function? =
      (findings.filterMap Finding.function?).filter fun record => !isPrivateName record.name := by
  rw [List.filterMap_filter, List.filter_filterMap]
  congr 1
  funext finding
  cases finding with
  | unterminated line => rfl
  | visit met =>
    obtain ⟨block, doc, outcome⟩ := met
    cases outcome with
    | function span record =>
      change (if (!isPrivateName record.name) = true then some record else none) =
        Option.filter _ (some record)
      rw [Option.filter_some]
    | _ => rfl

/-- What is read from the findings when private functions are refused is what is read from the
other findings when they are not. -/
theorem filterMap_survey_hide {α : Type} {read : Finding → Option α} (h : PrivateLinesSilent file all)
    (hRead : ∀ finding, finding.isSilent = true → read finding = none) :
    (survey file false all).filterMap read =
      ((survey file true all).filter (!·.isPrivate)).filterMap read := by
  have hSurvey := filter_surveyAt_hide 0 h
  rw [← survey_eq_surveyAt, ← survey_eq_surveyAt] at hSurvey
  rw [← filterMap_filter_of_none hRead, hSurvey, filterMap_filter_of_none hRead]

/-- Reading without private functions takes these out of the header and changes nothing else. -/
theorem Header.read_visible {text filename : Text} (path : Text)
    (h : PrivateLinesSilent filename (lines text)) :
    Header.read text filename path false =
      { Header.read text filename path true with
        functions := (Header.read text filename path true).functions.filter fun record =>
          !isPrivateName record.name } := by
  have hFunctions := filterMap_survey_hide h fun _ hSilent => (Finding.eq_none_of_isSilent hSilent).1
  rw [filterMap_function?_filter_isPrivate] at hFunctions
  have hDataTypes := filterMap_survey_hide h fun _ hSilent => (Finding.eq_none_of_isSilent hSilent).2.1
  rw [filterMap_filter_of_none fun _ hPrivate => (Finding.eq_none_of_isPrivate hPrivate).1] at hDataTypes
  have hFileDocs := filterMap_survey_hide h fun _ hSilent => (Finding.eq_none_of_isSilent hSilent).2.2
  rw [filterMap_filter_of_none fun _ hPrivate => (Finding.eq_none_of_isPrivate hPrivate).2] at hFileDocs
  have hFileDoc := congrArg List.head? hFileDocs
  rw [List.head?_filterMap, List.head?_filterMap] at hFileDoc
  rw [Header.read, Header.ofSurvey, hFunctions, hDataTypes, hFileDoc, Header.read, Header.ofSurvey]
  simp only [Header.assemble, Header.mk.injEq, true_and, and_true]
  exact collected_filter Function.name (!isPrivateName ·) _

def remarkedText : Text :=
  "/** Sums. */\nint _sum(int a,\n/** unused */\nint b);\n/** Adds. */\nint add(int a);\n".toList

theorem Header.read_visible_remarkedText :
    PrivateLinesSilent "sums.h".toList (lines remarkedText) ∧
      Header.read remarkedText "sums.h".toList "inc/sums.h".toList false =
        { Header.read remarkedText "sums.h".toList "inc/sums.h".toList true with
          functions := (Header.read remarkedText "sums.h".toList "inc/sums.h".toList
            true).functions.filter fun record => !isPrivateName record.name } := by
  have hSilent : PrivateLinesSilent "sums.h".toList (lines remarkedText) := by decide
  exact ⟨hSilent, Header.read_visible "inc/sums.h".toList hSilent⟩

/-- A block inside a private function documents the function behind it. -/
def documentedInsideText : Text :=
  "/** @brief P */\nvoid _hidden(int a,\n/** inner */\nint b);\nint visible(void);\n".toList

theorem Header.not_forall_read_visible :
    ¬∀ text filename path : Text, Header.read text filename path false =
      { Header.read text filename path true with
        functions := (Header.read text filename path true).functions.filter fun record =>
          !isPrivateName record.name } := by
  intro h
  have hFunctions := congrArg Header.functions (h documentedInsideText "a.h".toList "a.h".toList)
  have hRead (includePrivate : Bool) : (Header.read documentedInsideText "a.h".toList "a.h".toList
      includePrivate).functions = collected Function.name
        ((survey "a.h".toList includePrivate (lines documentedInsideText)).filterMap
          Finding.function?) := rfl
  simp only [hRead] at hFunctions
  rw [← collected_filter Function.name (!isPrivateName ·)] at hFunctions
  have hShown := congrArg (List.find? (Function.name · == "visible".toList)) hFunctions
  rw [find?_collected, find?_collected] at hShown
  exact absurd hShown (by decide)

end HeaderDigest
