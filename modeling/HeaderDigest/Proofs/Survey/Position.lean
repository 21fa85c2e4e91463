import HeaderDigest.Header.Survey
import HeaderDigest.Proofs.Survey.Extent

/-!
# A survey by positions

The survey is a recursion over the lines that are left. Here it is read as a pass over all lines
of a file from a position on, which goes from one position to a later one: behind a visit, or to
the next line where no block opens. What holds of a visit is said of its place among all lines.
-/

namespace HeaderDigest

open Text

variable {file : Text} {includePrivate : Bool} {all : List Text}

/-- What is read from a seed among the lines of a file. -/
def Outcome.declared (file : Text) (includePrivate : Bool) (all : List Text) (doc : Doc)
    (seed : Seed) : Outcome :=
  match seed.kind with
  | .function =>
    match Span.functionAt? all seed.line with
    | none => .endlessFunction seed.line
    | some span =>
      match Function.read span.text doc file (seed.line + 1) includePrivate with
      | .ok record => .function span record
      | .error refusal => .refused seed.line span refusal
  | .dataType =>
    let span := Span.dataTypeAt all seed.line
    match DataType.read? ((all.drop seed.line).headD []) span.text doc file (seed.line + 1) with
    | some record => .dataType span record
    | none => .unknownType span

/-- What becomes of a block that ends before the line `start`. -/
def Outcome.behind (file : Text) (includePrivate : Bool) (all : List Text) (doc : Doc)
    (start : Nat) : Outcome :=
  if doc.isFileDoc then .fileDoc
  else
    match Seed.locate all start with
    | none => .noDeclaration
    | some seed => .declared file includePrivate all doc seed

def visitAt (file : Text) (includePrivate : Bool) (all : List Text) (position length : Nat) : Visit :=
  Visit.ofBlock file includePrivate position length (all.drop position)

theorem Outcome.ofSeed_drop {doc : Doc} {start : Nat} {seed : Seed}
    (h : Seed.locate all start = some seed) :
    Outcome.ofSeed file includePrivate doc start (all.drop start) seed =
      Outcome.declared file includePrivate all doc seed := by
  obtain ⟨hStart, hLine, -⟩ := Seed.locate_eq_some h
  have hDrop : (all.drop start).drop (seed.line - start) = all.drop seed.line := by
    rw [List.drop_drop]
    congr 1
    omega
  unfold Outcome.ofSeed Outcome.declared
  simp only [hDrop, Span.dataType_drop hLine]
  rfl

theorem outcome_visitAt (file : Text) (includePrivate : Bool) (all : List Text)
    (position length : Nat) :
    (visitAt file includePrivate all position length).outcome =
      Outcome.behind file includePrivate all
        (visitAt file includePrivate all position length).doc (position + length) := by
  simp only [visitAt, Visit.ofBlock, Outcome.behind, List.drop_drop]
  split
  · rfl
  · change (match Seed.locate all (position + length) with | none => _ | some seed => _) = _
    cases h : Seed.locate all (position + length) with
    | none => rfl
    | some seed => exact Outcome.ofSeed_drop h

theorem nextLine_visitAt (position length : Nat) :
    (visitAt file includePrivate all position length).block.nextLine = position + length := rfl

theorem Outcome.behind_eq_declared {doc : Doc} {start : Nat} {outcome : Outcome}
    (h : Outcome.behind file includePrivate all doc start = outcome) (hFileDoc : outcome ≠ .fileDoc)
    (hDeclaration : outcome ≠ .noDeclaration) :
    doc.isFileDoc = false ∧ ∃ seed, Seed.locate all start = some seed ∧
      Outcome.declared file includePrivate all doc seed = outcome := by
  unfold Outcome.behind at h
  split at h
  · exact absurd h.symm hFileDoc
  · rename_i hDoc
    refine ⟨Bool.eq_false_iff.mpr hDoc, ?_⟩
    split at h
    · exact absurd h.symm hDeclaration
    · rename_i seed hSeed
      exact ⟨seed, hSeed, h⟩

theorem Outcome.behind_eq_function {doc : Doc} {start : Nat} {span : Span} {record : Function}
    (h : Outcome.behind file includePrivate all doc start = .function span record) :
    doc.isFileDoc = false ∧ ∃ line, Seed.locate all start = some ⟨.function, line⟩ ∧
      Span.functionAt? all line = some span ∧
      Function.read span.text doc file (line + 1) includePrivate = .ok record := by
  obtain ⟨hDoc, ⟨kind, line⟩, hSeed, hDeclared⟩ := Outcome.behind_eq_declared h (by simp) (by simp)
  refine ⟨hDoc, line, ?_⟩
  unfold Outcome.declared at hDeclared
  cases kind with
  | dataType =>
    simp only at hDeclared
    split at hDeclared <;> cases hDeclared
  | function =>
    simp only at hDeclared
    split at hDeclared
    · cases hDeclared
    · rename_i span' hSpan
      split at hDeclared
      · rename_i record' hRecord
        cases hDeclared
        exact ⟨hSeed, hSpan, hRecord⟩
      · cases hDeclared

theorem Outcome.behind_eq_dataType {doc : Doc} {start : Nat} {span : Span} {record : DataType}
    (h : Outcome.behind file includePrivate all doc start = .dataType span record) :
    doc.isFileDoc = false ∧ ∃ line, Seed.locate all start = some ⟨.dataType, line⟩ ∧
      Span.dataTypeAt all line = span ∧
      DataType.read? ((all.drop line).headD []) span.text doc file (line + 1) = some record := by
  obtain ⟨hDoc, ⟨kind, line⟩, hSeed, hDeclared⟩ := Outcome.behind_eq_declared h (by simp) (by simp)
  refine ⟨hDoc, line, ?_⟩
  unfold Outcome.declared at hDeclared
  cases kind with
  | function =>
    simp only at hDeclared
    split at hDeclared
    · cases hDeclared
    · split at hDeclared <;> cases hDeclared
  | dataType =>
    simp only at hDeclared
    split at hDeclared
    · rename_i record' hRecord
      cases hDeclared
      exact ⟨hSeed, rfl, hRecord⟩
    · cases hDeclared

theorem Finding.function?_eq_some {finding : Finding} {record : Function}
    (h : finding.function? = some record) :
    ∃ met span, finding = .visit met ∧ met.outcome = .function span record := by
  cases finding with
  | unterminated line => cases h
  | visit met =>
    cases hOutcome : met.outcome with
    | function span record' =>
      rw [Finding.function?, Finding.visit?, Option.map_some, hOutcome] at h
      exact ⟨met, span, rfl, Option.some.inj h ▸ hOutcome⟩
    | _ => simp [Finding.function?, Finding.visit?, hOutcome] at h

theorem Finding.dataType?_eq_some {finding : Finding} {record : DataType}
    (h : finding.dataType? = some record) :
    ∃ met span, finding = .visit met ∧ met.outcome = .dataType span record := by
  cases finding with
  | unterminated line => cases h
  | visit met =>
    cases hOutcome : met.outcome with
    | dataType span record' =>
      rw [Finding.dataType?, Finding.visit?, Option.map_some, hOutcome] at h
      exact ⟨met, span, rfl, Option.some.inj h ▸ hOutcome⟩
    | _ => simp [Finding.dataType?, Finding.visit?, hOutcome] at h

theorem next_visitAt_bounds (file : Text) (includePrivate : Bool) {position length : Nat}
    (h : blockLength? (all.drop position) = some length) :
    position + length ≤ (visitAt file includePrivate all position length).next ∧
      (visitAt file includePrivate all position length).next ≤ all.length := by
  have hBlock := blockLength?_bounds h
  rw [List.length_drop] at hBlock
  have hOutcome := outcome_visitAt file includePrivate all position length
  unfold Visit.next
  split
  · rename_i span record hFunction
    obtain ⟨-, line, hSeed, hSpan, -⟩ := Outcome.behind_eq_function (hOutcome ▸ hFunction)
    obtain ⟨hStart, -⟩ := Seed.locate_eq_some hSeed
    obtain ⟨-, hStop, hLength⟩ := Span.functionAt?_eq_some hSpan
    exact ⟨by simp only at hStart; omega, hLength⟩
  · rename_i span record hDataType
    obtain ⟨-, line, hSeed, hSpan, -⟩ := Outcome.behind_eq_dataType (hOutcome ▸ hDataType)
    obtain ⟨hStart, hLine, -⟩ := Seed.locate_eq_some hSeed
    obtain ⟨-, hStop, hLength⟩ := Span.dataTypeAt_bounds hLine
    subst hSpan
    exact ⟨by simp only at hStart hStop; omega, hLength⟩
  · rw [nextLine_visitAt]
    omega

def surveyAt (file : Text) (includePrivate : Bool) (all : List Text) (position : Nat) : List Finding :=
  surveyFrom file includePrivate position 0 (all.drop position)

theorem survey_eq_surveyAt : survey file includePrivate all = surveyAt file includePrivate all 0 := rfl

theorem surveyFrom_passed (position passed : Nat) (ls : List Text) :
    surveyFrom file includePrivate position passed ls =
      surveyFrom file includePrivate (position + passed) 0 (ls.drop passed) := by
  induction ls generalizing position passed with
  | nil => simp [surveyFrom]
  | cons line rest ih =>
    cases passed with
    | zero => rfl
    | succ passed =>
      rw [surveyFrom, ih, List.drop_succ_cons]
      congr 1
      omega

theorem surveyFrom_of_block {position length : Nat} {ls : List Text} (h : blockLength? ls = some length)
    (hNext : position < (Visit.ofBlock file includePrivate position length ls).next) :
    surveyFrom file includePrivate position 0 ls =
      .visit (Visit.ofBlock file includePrivate position length ls) ::
        surveyFrom file includePrivate (Visit.ofBlock file includePrivate position length ls).next 0
          (ls.drop ((Visit.ofBlock file includePrivate position length ls).next - position)) := by
  cases ls with
  | nil => cases h
  | cons line rest =>
    have hPosition : position + 1 + ((Visit.ofBlock file includePrivate position length
        (line :: rest)).next - (position + 1)) =
        (Visit.ofBlock file includePrivate position length (line :: rest)).next := by
      omega
    have hDrop : (Visit.ofBlock file includePrivate position length (line :: rest)).next - position =
        (Visit.ofBlock file includePrivate position length (line :: rest)).next - (position + 1) + 1 := by
      omega
    rw [surveyFrom, h]
    simp only
    rw [surveyFrom_passed, hPosition, hDrop, List.drop_succ_cons]

theorem surveyFrom_of_none {position : Nat} {line : Text} {rest : List Text}
    (h : blockLength? (line :: rest) = none) :
    surveyFrom file includePrivate position 0 (line :: rest) =
      (if opensBlock line then [.unterminated position] else []) ++
        surveyFrom file includePrivate (position + 1) 0 rest := by
  rw [surveyFrom, h]
  simp only
  split <;> rfl

theorem surveyAt_of_length_le {position : Nat} (h : all.length ≤ position) :
    surveyAt file includePrivate all position = [] := by
  rw [surveyAt, List.drop_eq_nil_of_le h, surveyFrom]

theorem surveyAt_of_block {position length : Nat}
    (h : blockLength? (all.drop position) = some length) :
    surveyAt file includePrivate all position =
      .visit (visitAt file includePrivate all position length) ::
        surveyAt file includePrivate all (visitAt file includePrivate all position length).next := by
  have hBounds := next_visitAt_bounds file includePrivate h
  have hLength := (blockLength?_bounds h).1
  have hNext : position < (visitAt file includePrivate all position length).next := by omega
  rw [surveyAt, surveyFrom_of_block h hNext, List.drop_drop]
  congr 3
  exact Nat.add_sub_cancel' (Nat.le_of_lt hNext)

theorem surveyAt_of_none {position : Nat} (hPosition : position < all.length)
    (h : blockLength? (all.drop position) = none) :
    surveyAt file includePrivate all position =
      (if opensBlock all[position] then [.unterminated position] else []) ++
        surveyAt file includePrivate all (position + 1) := by
  unfold surveyAt
  rw [List.drop_eq_getElem_cons hPosition] at h ⊢
  exact surveyFrom_of_none h

/-- What holds behind the last line, and at each position if it holds where the pass goes from
there, holds at every position. -/
theorem surveyAt_induction {motive : Nat → Prop} (file : Text) (includePrivate : Bool)
    (all : List Text) (done : ∀ position, all.length ≤ position → motive position)
    (pass : ∀ position, position < all.length → blockLength? (all.drop position) = none →
      motive (position + 1) → motive position)
    (visit : ∀ position length, blockLength? (all.drop position) = some length →
      motive (visitAt file includePrivate all position length).next → motive position)
    (position : Nat) : motive position := by
  by_cases hPosition : all.length ≤ position
  · exact done position hPosition
  · cases h : blockLength? (all.drop position) with
    | none =>
      exact pass position (by omega) h
        (surveyAt_induction file includePrivate all done pass visit (position + 1))
    | some length =>
      have hBounds := next_visitAt_bounds file includePrivate h
      have hLength := (blockLength?_bounds h).1
      exact visit position length h (surveyAt_induction file includePrivate all done pass visit _)
termination_by all.length - position

theorem mem_surveyAt {position : Nat} {met : Visit}
    (h : Finding.visit met ∈ surveyAt file includePrivate all position) :
    ∃ start length, position ≤ start ∧ blockLength? (all.drop start) = some length ∧
      met = visitAt file includePrivate all start length := by
  induction position using surveyAt_induction file includePrivate all with
  | done position hDone =>
    rw [surveyAt_of_length_le hDone] at h
    cases h
  | pass position hLine hNone ih =>
    rw [surveyAt_of_none hLine hNone] at h
    obtain h | h := List.mem_append.mp h
    · split at h <;> simp at h
    · obtain ⟨start, length, hStart, hRest⟩ := ih h
      exact ⟨start, length, by omega, hRest⟩
  | visit position length hBlock ih =>
    rw [surveyAt_of_block hBlock] at h
    obtain h | h := List.mem_cons.mp h
    · exact ⟨position, length, Nat.le_refl _, hBlock, Finding.visit.inj h⟩
    · have hBounds := next_visitAt_bounds file includePrivate hBlock
      obtain ⟨start, length', hStart, hRest⟩ := ih h
      exact ⟨start, length', by omega, hRest⟩

/-- Each block opens where the pass went on after the visits before it, or later. -/
theorem pairwise_surveyAt (position : Nat) :
    ((surveyAt file includePrivate all position).filterMap Finding.visit?).Pairwise
      fun a b => a.next ≤ b.block.startLine := by
  induction position using surveyAt_induction file includePrivate all with
  | done position hDone =>
    rw [surveyAt_of_length_le hDone]
    exact List.Pairwise.nil
  | pass position hLine hNone ih =>
    rw [surveyAt_of_none hLine hNone, List.filterMap_append]
    split <;> exact ih
  | visit position length hBlock ih =>
    rw [surveyAt_of_block hBlock]
    refine List.pairwise_cons.mpr ⟨?_, ih⟩
    intro later hLater
    obtain ⟨finding, hFinding, hVisit⟩ := List.mem_filterMap.mp hLater
    cases finding with
    | unterminated line => cases hVisit
    | visit met =>
      cases hVisit
      obtain ⟨start, length', hStart, -, rfl⟩ := mem_surveyAt hFinding
      exact hStart

end HeaderDigest
