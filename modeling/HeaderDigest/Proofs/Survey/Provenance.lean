import HeaderDigest.Proofs.Declaration.Line
import HeaderDigest.Proofs.Header.Assembly
import HeaderDigest.Proofs.Prototype.Reading
import HeaderDigest.Proofs.Survey.Position
import HeaderDigest.Source.Cursor

/-!
# Where the records of a header come from

Each record of a header has a block that documents it and a declaration behind the block. In the
order of the file a declaration ends before the next block opens, so no line serves two records.
-/

namespace HeaderDigest

open Text

inductive Entity
  | function (record : Function)
  | dataType (record : DataType)
deriving DecidableEq

namespace Entity

def line : Entity → Nat
  | function record => record.line
  | dataType record => record.line

def brief : Entity → Text
  | function record => record.brief
  | dataType record => record.brief

def description : Entity → Text
  | function record => record.description
  | dataType record => record.description

def function? : Entity → Option Function
  | function record => some record
  | dataType _ => none

def dataType? : Entity → Option DataType
  | function _ => none
  | dataType record => some record

theorem function?_eq_some {entity : Entity} {record : Function} (h : entity.function? = some record) :
    entity = function record := by
  cases entity with
  | function other => exact congrArg function (Option.some.inj h)
  | dataType other => cases h

theorem dataType?_eq_some {entity : Entity} {record : DataType} (h : entity.dataType? = some record) :
    entity = dataType record := by
  cases entity with
  | function other => cases h
  | dataType other => exact congrArg dataType (Option.some.inj h)

end Entity

/-- A record with the block and the lines that it comes from. -/
structure Origin where
  block : Block
  span : Span
  entity : Entity

/-- The seed line and the lines of the declaration, as the kind of a record wants them. -/
def Origin.DeclaredIn (all : List Text) (origin : Origin) : Prop :=
  ∃ seedLine, all[origin.entity.line - 1]? = some seedLine ∧
    match origin.entity with
    | .function record =>
      looksLikeFunctionStart seedLine = true ∧ isTypeSeed seedLine = false ∧
        Span.functionAt? all (record.line - 1) = some origin.span
    | .dataType record =>
      isTypeSeed seedLine = true ∧ Span.dataTypeAt all (record.line - 1) = origin.span ∧
        record.definition =
          trim (joinLines ((all.drop (record.line - 1)).take (origin.span.stop - (record.line - 1))))

/-- A block that the survey visits, and behind it a declaration from which the record was read. -/
structure Origin.Sound (file : Text) (includePrivate : Bool) (all : List Text)
    (origin : Origin) : Prop where
  visited : ∃ met, Finding.visit met ∈ survey file includePrivate all ∧ met.block = origin.block
  met_by_cursor : ∃ cursor : Cursor, cursor.lines = all ∧ cursor.nextBlock.1 = some origin.block
  block_lines : origin.block.startLine < origin.block.nextLine
  not_fileDoc : (Doc.read origin.block.text).isFileDoc = false
  brief_eq : origin.entity.brief = (Doc.read origin.block.text).brief
  description_eq : origin.entity.description = (Doc.read origin.block.text).description
  line_pos : 1 ≤ origin.entity.line
  line_le : origin.entity.line ≤ all.length
  block_before : origin.block.nextLine ≤ origin.entity.line - 1
  span_start : origin.span.start = origin.entity.line - 1
  span_lines : origin.entity.line - 1 < origin.span.stop
  span_stop_le : origin.span.stop ≤ all.length
  declared : origin.DeclaredIn all

def Origin.Before (a b : Origin) : Prop := a.span.stop ≤ b.block.startLine

variable {file : Text} {includePrivate : Bool} {all : List Text}

def Visit.origin? (met : Visit) : Option Origin :=
  match met.outcome with
  | .function span record => some ⟨met.block, span, .function record⟩
  | .dataType span record => some ⟨met.block, span, .dataType record⟩
  | _ => none

theorem Visit.origin?_eq_some {met : Visit} {origin : Origin} (h : met.origin? = some origin) :
    origin.block = met.block ∧ origin.span.stop = met.next := by
  obtain ⟨block, doc, outcome⟩ := met
  cases outcome <;> cases h <;> exact ⟨rfl, rfl⟩

theorem nextBlock_atLine {position length : Nat} (h : blockLength? (all.drop position) = some length) :
    (Cursor.atLine all position).nextBlock.1 =
      some (visitAt file includePrivate all position length).block := by
  have hBounds := blockLength?_bounds h
  rw [List.length_drop] at hBounds
  have hPosition : (Cursor.atLine all position).position = position := by
    simp only [Cursor.atLine]
    omega
  have hAhead : (Cursor.atLine all position).ahead = all.drop position := by
    rw [Cursor.ahead, hPosition]
    rfl
  have hFirst : Block.first? position (all.drop position) =
      some (visitAt file includePrivate all position length).block := by
    cases hDrop : all.drop position with
    | nil => rw [hDrop] at h; cases h
    | cons line rest =>
      rw [hDrop] at h
      rw [Block.first?, h]
      simp only [visitAt, Visit.ofBlock, hDrop]
  rw [Cursor.nextBlock, hPosition, hAhead, hFirst]

theorem DataType.read?_eq_some {seedLine declaration : Text} {doc : Doc} {line : Nat}
    {record : DataType} (h : DataType.read? seedLine declaration doc file line = some record) :
    record.brief = doc.brief ∧ record.description = doc.description ∧ record.line = line ∧
      record.definition = trim declaration := by
  obtain ⟨⟨kind, name⟩, -, rfl⟩ := Option.map_eq_some_iff.mp h
  exact ⟨rfl, rfl, rfl, rfl⟩

theorem Origin.sound_of_seed {origin : Origin} {met : Visit} {seed : Seed}
    (hMet : Finding.visit met ∈ survey file includePrivate all) (hBlock : origin.block = met.block)
    (hDoc : met.doc.isFileDoc = false) (hBrief : origin.entity.brief = met.doc.brief)
    (hDescription : origin.entity.description = met.doc.description)
    (hSeed : Seed.locate all met.block.nextLine = some seed)
    (hLine : origin.entity.line = seed.line + 1)
    (hSpan : origin.span.start = seed.line ∧ seed.line < origin.span.stop ∧
      origin.span.stop ≤ all.length)
    (hDeclared : origin.DeclaredIn all) : origin.Sound file includePrivate all := by
  obtain ⟨position, length, -, hLength, rfl⟩ := mem_surveyAt hMet
  obtain ⟨hAfter, hInside, -⟩ := Seed.locate_eq_some hSeed
  obtain ⟨hStart, hStop, hStopLe⟩ := hSpan
  have hCursor : (Cursor.atLine all position).nextBlock.1 =
      some (visitAt file includePrivate all position length).block := nextBlock_atLine hLength
  have hPositive := (blockLength?_bounds hLength).1
  have hNumber : origin.entity.line - 1 = seed.line := by omega
  exact {
    visited := ⟨_, hMet, hBlock.symm⟩
    met_by_cursor := ⟨Cursor.atLine all position, rfl, hBlock ▸ hCursor⟩
    block_lines := by
      rw [hBlock]
      exact Nat.lt_add_of_pos_right hPositive
    not_fileDoc := hBlock ▸ hDoc
    brief_eq := hBlock ▸ hBrief
    description_eq := hBlock ▸ hDescription
    line_pos := by omega
    line_le := by omega
    block_before := by
      rw [hBlock, hNumber]
      exact hAfter
    span_start := hNumber.symm ▸ hStart
    span_lines := by omega
    span_stop_le := hStopLe
    declared := hDeclared }

theorem sound_of_origin? {met : Visit} {origin : Origin}
    (hMet : Finding.visit met ∈ survey file includePrivate all) (h : met.origin? = some origin) :
    origin.Sound file includePrivate all := by
  obtain ⟨position, length, -, hBlock, hVisit⟩ := mem_surveyAt hMet
  have hOutcome : met.outcome = Outcome.behind file includePrivate all met.doc met.block.nextLine := by
    rw [hVisit]
    exact outcome_visitAt file includePrivate all position length
  unfold Visit.origin? at h
  split at h
  · rename_i span record hFunction
    cases h
    obtain ⟨hDoc, line, hSeed, hSpan, hRead⟩ := Outcome.behind_eq_function (hOutcome ▸ hFunction)
    obtain ⟨-, -, seedLine, hSeedLine, hRole⟩ := Seed.locate_eq_some hSeed
    obtain ⟨head, list, parts, -, -, rfl⟩ := Function.exists_hasParts_of_read hRead
    obtain ⟨hStarts, hNoType⟩ := looksLikeFunctionStart_of_role hRole
    rw [looksLikeFunctionStart_trim] at hStarts
    rw [isTypeSeed_trim] at hNoType
    exact Origin.sound_of_seed hMet rfl hDoc rfl rfl hSeed rfl (Span.functionAt?_eq_some hSpan)
      ⟨seedLine, hSeedLine, hStarts, hNoType, hSpan⟩
  · rename_i span record hDataType
    cases h
    obtain ⟨hDoc, line, hSeed, hSpan, hRead⟩ := Outcome.behind_eq_dataType (hOutcome ▸ hDataType)
    obtain ⟨-, hLine, seedLine, hSeedLine, hRole⟩ := Seed.locate_eq_some hSeed
    obtain ⟨hBrief, hDescription, hRecordLine, hDefinition⟩ := DataType.read?_eq_some hRead
    have hType := isTypeSeed_of_role hRole
    rw [isTypeSeed_trim] at hType
    rw [← hSpan, Span.text_dataTypeAt all line hLine, hSpan] at hDefinition
    have hNumber : record.line - 1 = line := by omega
    have hDeclared : Origin.DeclaredIn all ⟨met.block, span, .dataType record⟩ := by
      unfold Origin.DeclaredIn
      simp only [Entity.line, hNumber]
      exact ⟨seedLine, hSeedLine, hType, hSpan, hDefinition⟩
    exact Origin.sound_of_seed hMet rfl hDoc hBrief hDescription hSeed hRecordLine
      (hSpan ▸ Span.dataTypeAt_bounds hLine) hDeclared
  · cases h

/-- The origins of all records that a survey reads, in the order of the file. -/
def origins (file : Text) (includePrivate : Bool) (all : List Text) : List Origin :=
  ((survey file includePrivate all).filterMap Finding.visit?).filterMap Visit.origin?

theorem sound_of_mem_origins {origin : Origin} (h : origin ∈ origins file includePrivate all) :
    origin.Sound file includePrivate all := by
  obtain ⟨met, hMet, hOrigin⟩ := List.mem_filterMap.mp h
  obtain ⟨finding, hFinding, hVisit⟩ := List.mem_filterMap.mp hMet
  cases finding with
  | unterminated line => cases hVisit
  | visit met' =>
    cases hVisit
    exact sound_of_origin? hFinding hOrigin

theorem pairwise_origins : (origins file includePrivate all).Pairwise Origin.Before := by
  apply List.Pairwise.filterMap Visit.origin? ?_ (pairwise_surveyAt 0)
  intro a b hBefore originA hA originB hB
  rw [Origin.Before, (Visit.origin?_eq_some hA).2, (Visit.origin?_eq_some hB).1]
  exact hBefore

theorem Finding.function?_eq_bind_origin? (finding : Finding) :
    finding.function? = (finding.visit?.bind Visit.origin?).bind fun origin => origin.entity.function? := by
  cases finding with
  | unterminated line => rfl
  | visit met =>
    obtain ⟨block, doc, outcome⟩ := met
    cases outcome <;> rfl

theorem Finding.dataType?_eq_bind_origin? (finding : Finding) :
    finding.dataType? = (finding.visit?.bind Visit.origin?).bind fun origin => origin.entity.dataType? := by
  cases finding with
  | unterminated line => rfl
  | visit met =>
    obtain ⟨block, doc, outcome⟩ := met
    cases outcome <;> rfl

theorem filterMap_origins {α : Type} {project : Entity → Option α} {read : Finding → Option α}
    (h : ∀ finding, read finding =
      (finding.visit?.bind Visit.origin?).bind fun origin => project origin.entity) :
    (origins file includePrivate all).filterMap (fun origin => project origin.entity) =
      (survey file includePrivate all).filterMap read := by
  rw [origins, List.filterMap_filterMap, List.filterMap_filterMap]
  congr 1
  funext finding
  rw [h]
  cases finding.visit? <;> rfl

theorem Origin.Before.line_lt {a b : Origin} (h : a.Before b) (ha : a.Sound file includePrivate all)
    (hb : b.Sound file includePrivate all) :
    a.entity.line < b.entity.line ∧ a.block.nextLine ≤ b.block.startLine := by
  have := ha.span_lines
  have := ha.block_before
  have := hb.block_lines
  have := hb.block_before
  unfold Origin.Before at h
  omega

def Header.holds (header : Header) : Entity → Bool
  | .function record => decide (record ∈ header.functions)
  | .dataType record => decide (record ∈ header.dataTypes)

theorem pairwise_line_origins :
    (origins file includePrivate all).Pairwise fun a b =>
      a.entity.line < b.entity.line ∧ a.block.nextLine ≤ b.block.startLine :=
  pairwise_origins.imp_of_mem fun ha hb h =>
    h.line_lt (sound_of_mem_origins ha) (sound_of_mem_origins hb)

theorem nodup_filterMap_origins {α : Type} {project : Entity → Option α}
    (h : ∀ a b record, project a = some record → project b = some record → a = b) :
    ((origins file includePrivate all).filterMap fun origin => project origin.entity).Nodup := by
  apply List.Pairwise.filterMap _ ?_ pairwise_line_origins
  rintro a b ⟨hLine, -⟩ record hA _ hB rfl
  have hEntity := h a.entity b.entity record hA hB
  exact absurd (congrArg Entity.line hEntity) (Nat.ne_of_lt hLine)

/-- The origins of the records that were collected are one for each of these. -/
theorem filterMap_filter_origins_perm {α : Type} (name : α → Text) {project : Entity → Option α}
    {read : Finding → Option α} {keep : Entity → Bool}
    (hRead : ∀ finding, read finding =
      (finding.visit?.bind Visit.origin?).bind fun origin => project origin.entity)
    (hProject : ∀ a b record, project a = some record → project b = some record → a = b)
    (hKeep : ∀ entity record, project entity = some record → (keep entity = true ↔
      record ∈ collected name ((survey file includePrivate all).filterMap read))) :
    (((origins file includePrivate all).filter fun origin => keep origin.entity).filterMap
      fun origin => project origin.entity).Perm
        (collected name ((survey file includePrivate all).filterMap read)) := by
  have hNodup : (((origins file includePrivate all).filter fun origin => keep origin.entity).filterMap
      fun origin => project origin.entity).Nodup :=
    List.Pairwise.sublist (List.Sublist.filterMap _ List.filter_sublist) (nodup_filterMap_origins hProject)
  refine (List.perm_ext_iff_of_nodup hNodup (ascending_collected name _).nodup).mpr ?_
  intro record
  rw [List.mem_filterMap]
  constructor
  · rintro ⟨origin, hOrigin, hRecord⟩
    exact (hKeep origin.entity record hRecord).mp (List.mem_filter.mp hOrigin).2
  · intro hRecord
    have hMem := mem_of_mem_collected hRecord
    rw [← filterMap_origins hRead] at hMem
    obtain ⟨origin, hOrigin, hEntity⟩ := List.mem_filterMap.mp hMem
    have hKept := (hKeep origin.entity record hEntity).mpr hRecord
    exact ⟨origin, List.mem_filter.mpr ⟨hOrigin, hKept⟩, hEntity⟩

/-- Each record of a header has its own block and its own declaration, and in the order of the
file these alternate. -/
theorem Header.exists_origins (text filename path : Text) (includePrivate : Bool) :
    ∃ origins : List Origin,
      (∀ origin ∈ origins, origin.Sound filename includePrivate (lines text)) ∧
      origins.Pairwise Origin.Before ∧
      (origins.Pairwise fun a b =>
        a.entity.line < b.entity.line ∧ a.block.nextLine ≤ b.block.startLine) ∧
      (origins.filterMap fun origin => origin.entity.function?).Perm
        (Header.read text filename path includePrivate).functions ∧
      (origins.filterMap fun origin => origin.entity.dataType?).Perm
        (Header.read text filename path includePrivate).dataTypes := by
  let header := Header.read text filename path includePrivate
  let all := origins filename includePrivate (lines text)
  let kept := all.filter fun origin => header.holds origin.entity
  have hSublist : kept.Sublist all := List.filter_sublist
  refine ⟨kept, ?_, pairwise_origins.sublist hSublist, pairwise_line_origins.sublist hSublist, ?_, ?_⟩
  · intro origin hOrigin
    exact sound_of_mem_origins (hSublist.subset hOrigin)
  · apply filterMap_filter_origins_perm Function.name Finding.function?_eq_bind_origin?
    · intro a b record hA hB
      rw [Entity.function?_eq_some hA, Entity.function?_eq_some hB]
    · intro entity record hRecord
      rw [Entity.function?_eq_some hRecord]
      exact decide_eq_true_iff
  · apply filterMap_filter_origins_perm DataType.name Finding.dataType?_eq_bind_origin?
    · intro a b record hA hB
      rw [Entity.dataType?_eq_some hA, Entity.dataType?_eq_some hB]
    · intro entity record hRecord
      rw [Entity.dataType?_eq_some hRecord]
      exact decide_eq_true_iff

end HeaderDigest
