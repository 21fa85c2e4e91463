import HeaderDigest.Page.Markdown
import HeaderDigest.Proofs.Header.Record
import HeaderDigest.Proofs.Survey.Provenance
import Mathlib.Data.List.Nodup

/-!
# The links of a page

The index of a Markdown page names each record and links to the anchor of its section. An anchor
holds its name in lower case, so a link leads to every section whose name is the same but for the
case of letters, and to one section only where no two records of one kind have such names.
-/

namespace HeaderDigest

open Text

theorem eq_of_ofNat_eq {n : Nat} {c : Char} (hc : 0 < c.toNat) (h : Char.ofNat n = c) : n = c.toNat := by
  by_cases hValid : n.isValidChar
  · have hChar : Char.ofNat n = Char.ofNatAux n hValid := dif_pos hValid
    rw [← h, hChar]
    rfl
  · have hZero : (Char.ofNat n).toNat = 0 := congrArg Char.toNat (dif_neg hValid)
    rw [← h, hZero] at hc
    exact absurd hc (Nat.lt_irrefl 0)

/-- Casing makes no bracket of another character. -/
theorem not_mem_lowercaseChar {c : Char} (hc : c ≠ ')') : ')' ∉ lowercaseChar c := by
  have hAscii : ∀ n < 128, n ≠ 41 → (Char.ofNat n).toLower ≠ ')' := by decide +kernel
  have hRuns : ∀ run ∈ lowercaseRuns, 41 < run.2.2.2 := by decide +kernel
  have hNumber : c.toNat ≠ 41 := fun h => hc (by rw [← Char.ofNat_toNat c, h])
  unfold lowercaseChar
  split
  · rename_i hSmall
    have hLower := hAscii c.toNat hSmall hNumber
    rw [Char.ofNat_toNat] at hLower
    exact fun hMem => hLower (List.mem_singleton.mp hMem).symm
  · split
    · decide
    · dsimp only
      split
      · rename_i first _ _ image hRun
        intro hMem
        have hImage : 41 < image := hRuns _ (List.mem_of_find?_eq_some hRun)
        have hChar := eq_of_ofNat_eq (by decide) (List.mem_singleton.mp hMem).symm
        have hBracket : (')' : Char).toNat = 41 := rfl
        omega
      · exact fun hMem => hc (List.mem_singleton.mp hMem).symm

theorem not_mem_lowercase {s : Text} (h : ')' ∉ s) : ')' ∉ lowercase s := by
  have hAfter (before : Text) : ')' ∉ lowercaseAfter before s := by
    induction s generalizing before with
    | nil => exact List.not_mem_nil
    | cons c s ih =>
      obtain ⟨hc, hs⟩ := List.ne_and_not_mem_of_not_mem_cons h
      rw [lowercaseAfter, List.mem_append, not_or]
      refine ⟨?_, ih hs (c :: before)⟩
      split
      · split <;> decide
      · exact not_mem_lowercaseChar hc.symm
  exact hAfter []

namespace Entity

def name : Entity → Text
  | function record => record.name
  | dataType record => record.name

def anchor : Entity → Text
  | function record => Markdown.functionAnchor record.name
  | dataType record => Markdown.typeAnchor record.name

def link : Entity → Text
  | function record => Markdown.functionLink record
  | dataType record => Markdown.typeLink record

def lines : Entity → List Text
  | function record => Markdown.functionSection record
  | dataType record => Markdown.typeSection record

end Entity

def Header.entities (header : Header) : List Entity :=
  header.functions.map Entity.function ++ header.dataTypes.map Entity.dataType

namespace Markdown

/-- What stands before the first `c` and what stands behind it. -/
def cutAt? (c : Char) (s : Text) : Option (Text × Text) :=
  match s.dropWhile (· != c) with
  | [] => none
  | _ :: rest => some (s.takeWhile (· != c), rest)

/-- The name and the target of a link in an index. -/
def readLink? (line : Text) : Option (Text × Text) := do
  let line ← dropPrefix? "* [".toList line
  let (name, line) ← cutAt? ']' line
  let line ← dropPrefix? "(#".toList line
  let (target, _) ← cutAt? ')' line
  return (name, target)

def readAnchor? (line : Text) : Option Text := do
  let line ← dropPrefix? "<a id=\"".toList line
  dropSuffix? "\"></a>".toList line

def links (header : Header) : List (Text × Text) := (index header).filterMap readLink?

def sections (header : Header) : List (List Text) :=
  header.functions.map functionSection ++ header.dataTypes.map typeSection

/-- The anchor on the first line of a section. -/
def sectionAnchor? (lines : List Text) : Option Text := lines.head?.bind readAnchor?

def anchors (header : Header) : List Text := (sections header).filterMap sectionAnchor?

/-- The sections to which a link can lead. -/
def sectionsAt (header : Header) (target : Text) : List (List Text) :=
  (sections header).filter fun lines => sectionAnchor? lines == some target

structure LinksResolve (header : Header) : Prop where
  distinct : (anchors header).Nodup
  resolve : ∀ entity ∈ header.entities,
    (entity.name, entity.anchor) ∈ links header ∧ sectionsAt header entity.anchor = [entity.lines]

/-- No two functions have names that are the same in lower case, and no two types. -/
structure NamesApart (header : Header) : Prop where
  functions : (header.functions.map fun record => lowercase record.name).Nodup
  dataTypes : (header.dataTypes.map fun record => lowercase record.name).Nodup

theorem cutAt?_append {c : Char} {u : Text} (h : c ∉ u) (v : Text) :
    cutAt? c (u ++ c :: v) = some (u, v) := by
  have hFront : ∀ d ∈ u, (d != c) = true := fun d hd => bne_iff_ne.mpr fun hc => h (hc ▸ hd)
  have hTake : (u ++ c :: v).takeWhile (· != c) = u := by
    rw [List.takeWhile_append_of_pos hFront, List.takeWhile_cons_of_neg (by simp), List.append_nil]
  have hDrop : (u ++ c :: v).dropWhile (· != c) = c :: v := by
    rw [List.dropWhile_append_of_pos hFront, List.dropWhile_cons_of_neg (by simp)]
  rw [cutAt?, hTake, hDrop]

theorem readLink?_eq {name anchor : Text} (hName : ']' ∉ name) (hAnchor : ')' ∉ anchor) (rest : Text) :
    readLink? ("* [".toList ++ (name ++ ']' :: ("(#".toList ++ (anchor ++ ')' :: rest)))) =
      some (name, anchor) := by
  simp only [readLink?, dropPrefix?_append, cutAt?_append hName, cutAt?_append hAnchor,
    Option.bind_eq_bind, Option.bind_some]
  rfl

theorem readAnchor?_anchorLine (anchor : Text) : readAnchor? (anchorLine anchor) = some anchor := by
  have hFront : dropPrefix? "<a id=\"".toList (anchorLine anchor) = some (anchor ++ "\"></a>".toList) :=
    (dropPrefix?_eq_some_iff _ _ _).mpr (List.append_assoc _ _ _)
  simp only [readAnchor?, hFront, Option.bind_eq_bind, Option.bind_some]
  exact dropSuffix?_append anchor _

end Markdown

/-- A name that holds no bracket closes none in a link. -/
structure Entity.Linkable (entity : Entity) : Prop where
  name : ']' ∉ entity.name
  anchor : ')' ∉ entity.anchor

namespace Markdown

theorem readLink?_link {entity : Entity} (h : entity.Linkable) :
    readLink? entity.link = some (entity.name, entity.anchor) := by
  cases entity with
  | function record =>
    rw [← readLink?_eq h.name h.anchor []]
    change readLink? ("* [".toList ++ record.name ++ "](#".toList ++ functionAnchor record.name ++ [')']) = _
    simp [Entity.name, Entity.anchor]
  | dataType record =>
    rw [← readLink?_eq h.name h.anchor (" (".toList ++ record.kind.keyword ++ [')'])]
    change readLink? ("* [".toList ++ record.name ++ "](#".toList ++ typeAnchor record.name ++
      ") (".toList ++ record.kind.keyword ++ [')']) = _
    simp [Entity.name, Entity.anchor]

theorem sectionAnchor?_lines (entity : Entity) : sectionAnchor? entity.lines = some entity.anchor := by
  cases entity with
  | function record => exact readAnchor?_anchorLine _
  | dataType record => exact readAnchor?_anchorLine _

theorem sections_eq (header : Header) : sections header = header.entities.map Entity.lines := by
  rw [Header.entities, List.map_append, List.map_map, List.map_map]
  rfl

theorem anchors_eq (header : Header) : anchors header = header.entities.map Entity.anchor := by
  rw [anchors, sections_eq, List.filterMap_map]
  have hAnchor : sectionAnchor? ∘ Entity.lines = fun entity => some entity.anchor :=
    funext sectionAnchor?_lines
  rw [hAnchor, List.filterMap_eq_map']

theorem sectionsAt_eq (header : Header) (target : Text) : sectionsAt header target =
    (header.entities.filter fun entity => entity.anchor == target).map Entity.lines := by
  rw [sectionsAt, sections_eq, List.filter_map]
  congr 2
  funext entity
  rw [Function.comp_apply, sectionAnchor?_lines]
  rfl

theorem index_eq (header : Header) : index header =
    if header.entities = [] then []
    else "## Index\n".toList :: (header.entities.map Entity.link ++ [[]]) := by
  have hLinks : header.entities.map Entity.link =
      header.functions.map functionLink ++ header.dataTypes.map typeLink := by
    rw [Header.entities, List.map_append, List.map_map, List.map_map]
    rfl
  have hEmpty : header.isEmpty = true ↔ header.entities = [] := by
    rw [Header.isEmpty, Header.entities, Bool.and_eq_true, List.isEmpty_iff, List.isEmpty_iff,
      List.append_eq_nil_iff, List.map_eq_nil_iff, List.map_eq_nil_iff]
  rw [index, hLinks]
  exact if_congr hEmpty rfl rfl

theorem links_eq {header : Header} (h : ∀ entity ∈ header.entities, entity.Linkable) :
    links header = header.entities.map fun entity => (entity.name, entity.anchor) := by
  rw [links, index_eq]
  split
  · rename_i hNil
    rw [hNil]
    rfl
  · have hTitle : readLink? "## Index\n".toList = none := by decide
    have hEnd : readLink? [] = none := rfl
    rw [List.filterMap_cons_none hTitle, List.filterMap_append, List.filterMap_map,
      List.filterMap_cons_none hEnd, List.filterMap_nil, List.append_nil]
    rw [← List.filterMap_eq_map']
    exact List.filterMap_congr fun entity hEntity => readLink?_link (h entity hEntity)

theorem functionAnchor_inj (a b : Text) : functionAnchor a = functionAnchor b ↔ lowercase a = lowercase b :=
  List.append_right_inj _

theorem typeAnchor_inj (a b : Text) : typeAnchor a = typeAnchor b ↔ lowercase a = lowercase b :=
  List.append_right_inj _

theorem functionAnchor_ne_typeAnchor (a b : Text) : functionAnchor a ≠ typeAnchor b := by
  intro h
  exact absurd (List.cons.inj h).1 (by decide)

theorem nodup_map_of_iff {α : Type} {f g : α → Text} (h : ∀ a b, f a = f b ↔ g a = g b)
    (items : List α) : (items.map f).Nodup ↔ (items.map g).Nodup := by
  rw [List.nodup_iff_pairwise_ne, List.nodup_iff_pairwise_ne, List.pairwise_map, List.pairwise_map]
  exact ⟨List.Pairwise.imp fun hNe => mt (h _ _).mpr hNe, List.Pairwise.imp fun hNe => mt (h _ _).mp hNe⟩

/-- The anchors of a page are distinct when no names of one kind are the same in lower case. -/
theorem nodup_anchors_iff (header : Header) : (anchors header).Nodup ↔ NamesApart header := by
  have hFunctions : (header.functions.map (Entity.anchor ∘ Entity.function)).Nodup ↔
      (header.functions.map fun record => lowercase record.name).Nodup :=
    nodup_map_of_iff (fun a b => functionAnchor_inj a.name b.name) _
  have hTypes : (header.dataTypes.map (Entity.anchor ∘ Entity.dataType)).Nodup ↔
      (header.dataTypes.map fun record => lowercase record.name).Nodup :=
    nodup_map_of_iff (fun a b => typeAnchor_inj a.name b.name) _
  rw [anchors_eq, Header.entities, List.map_append, List.map_map, List.map_map, List.nodup_append,
    hFunctions, hTypes]
  constructor
  · rintro ⟨hApartFunctions, hApartTypes, -⟩
    exact ⟨hApartFunctions, hApartTypes⟩
  · rintro ⟨hApartFunctions, hApartTypes⟩
    refine ⟨hApartFunctions, hApartTypes, ?_⟩
    intro anchor hFunction other hType
    obtain ⟨a, -, rfl⟩ := List.mem_map.mp hFunction
    obtain ⟨b, -, rfl⟩ := List.mem_map.mp hType
    exact functionAnchor_ne_typeAnchor a.name b.name

theorem filter_eq_singleton {α : Type} {f : α → Text} {items : List α} (h : (items.map f).Nodup)
    {item : α} (hItem : item ∈ items) : (items.filter fun other => f other == f item) = [item] := by
  induction items with
  | nil => cases hItem
  | cons first items ih =>
    obtain ⟨hFirst, hRest⟩ := List.nodup_cons.mp h
    obtain rfl | hItem := List.mem_cons.mp hItem
    · rw [List.filter_cons_of_pos (by simp)]
      congr 1
      apply List.filter_eq_nil_iff.mpr
      intro other hOther hName
      exact hFirst (List.mem_map.mpr ⟨other, hOther, beq_iff_eq.mp hName⟩)
    · rw [List.filter_cons_of_neg, ih hRest hItem]
      exact fun hName => hFirst (List.mem_map.mpr ⟨item, hItem, (beq_iff_eq.mp hName).symm⟩)

theorem linksResolve_iff {header : Header} (h : ∀ entity ∈ header.entities, entity.Linkable) :
    LinksResolve header ↔ NamesApart header := by
  rw [← nodup_anchors_iff]
  refine ⟨LinksResolve.distinct, fun hApart => ⟨hApart, fun entity hEntity => ⟨?_, ?_⟩⟩⟩
  · rw [links_eq h]
    exact List.mem_map_of_mem hEntity
  · rw [anchors_eq] at hApart
    rw [sectionsAt_eq, filter_eq_singleton hApart hEntity]
    rfl

end Markdown

open Markdown

theorem linkable_of_isWordRun {entity : Entity} (h : IsWordRun entity.name) : entity.Linkable where
  name hMem := absurd (h.2 _ hMem) (by decide)
  anchor := by
    have hName : ')' ∉ lowercase entity.name :=
      not_mem_lowercase fun hMem => absurd (h.2 _ hMem) (by decide)
    have hAnchor {kind : Text} (hKind : ')' ∉ kind) : ')' ∉ kind ++ lowercase entity.name :=
      fun hMem => (List.mem_append.mp hMem).elim hKind hName
    cases entity with
    | function record => exact @hAnchor "api-".toList (by decide)
    | dataType record => exact @hAnchor "type-".toList (by decide)

theorem linkable_of_mem_read {text filename path : Text} {includePrivate : Bool} :
    ∀ entity ∈ (Header.read text filename path includePrivate).entities, entity.Linkable := by
  intro entity hEntity
  apply linkable_of_isWordRun
  obtain hFunction | hType := List.mem_append.mp hEntity
  · obtain ⟨record, hRecord, rfl⟩ := List.mem_map.mp hFunction
    have hName := (Header.wellFormed_of_mem_functions hRecord).identifier
    obtain ⟨first, rest, hCons, -, -⟩ := exists_eq_cons_of_isIdentifier hName
    exact ⟨fun hNil => List.cons_ne_nil first rest (hCons.symm.trans hNil),
      fun c hc => isWordChar_of_isNameChar (isNameChar_of_mem hName c hc)⟩
  · obtain ⟨record, hRecord, rfl⟩ := List.mem_map.mp hType
    exact (Header.wellFormed_of_mem_dataTypes hRecord).name

/-- The index of the page of a header links to each record under its name, and an anchor stands over
each record's section. A link leads to the sections of all records that have its anchor: to exactly
that of its own record, on the whole page, when and only when no two functions and no two types have
names that are the same in lower case. -/
theorem Markdown.linksResolve_read_iff (text filename path : Text) (includePrivate : Bool) :
    let header := Header.read text filename path includePrivate
    links header = header.entities.map (fun entity => (entity.name, entity.anchor)) ∧
      anchors header = header.entities.map Entity.anchor ∧
      (∀ target, sectionsAt header target =
        (header.entities.filter fun entity => entity.anchor == target).map Entity.lines) ∧
      (LinksResolve header ↔ NamesApart header) :=
  ⟨links_eq linkable_of_mem_read, anchors_eq _, sectionsAt_eq _, linksResolve_iff linkable_of_mem_read⟩

/-- Two functions whose names differ in the case of a letter. -/
def openText : Text := "/** @brief A. */\nint open(void);\n/** @brief B. */\nint Open(void);\n".toList

def openFunction : Function := ⟨"open".toList, "int".toList, [], "A.".toList, [], "a.h".toList, 2⟩

def capitalOpenFunction : Function := ⟨"Open".toList, "int".toList, [], "B.".toList, [], "a.h".toList, 4⟩

theorem Markdown.not_forall_linksResolve :
    ¬∀ (text filename path : Text) (includePrivate : Bool),
      LinksResolve (Header.read text filename path includePrivate) := by
  intro h
  have hSurvey : (survey "a.h".toList false (lines openText)).filterMap Finding.function? =
      [openFunction, capitalOpenFunction] := by decide
  have hMem (record : Function) (hFound : [openFunction, capitalOpenFunction].find?
      (Function.name · == record.name) = some record) :
      record ∈ (Header.read openText "a.h".toList "a.h".toList false).functions :=
    (mem_collected_iff Function.name _ record).mpr (hSurvey ▸ hFound)
  have hApart := ((linksResolve_iff linkable_of_mem_read).mp
    (h openText "a.h".toList "a.h".toList false)).functions
  have hSame := List.inj_on_of_nodup_map hApart (hMem openFunction (by decide))
    (hMem capitalOpenFunction (by decide)) (by decide)
  exact absurd hSame (by decide)

end HeaderDigest
