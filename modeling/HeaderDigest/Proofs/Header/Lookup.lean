import HeaderDigest.Proofs.Header.Assembly
import HeaderDigest.Proofs.Text.Bytes

/-!
# One record for each name

A header that is assembled from any records has one of them for each name, the first, and looking
up the name finds it. The order in which records with different names are given does not matter.
-/

namespace HeaderDigest

open Text

variable {α : Type} {name : α → Text}

/-- Of each name in a list the first record is kept, in the byte order of the names. -/
structure KeepsFirst (name : α → Text) (items kept : List α) : Prop where
  ascending : kept.Pairwise fun a b => bytes (name a) < bytes (name b)
  names : ∀ key, key ∈ kept.map name ↔ key ∈ items.map name
  first : ∀ item ∈ kept, ∃ before behind, items = before ++ item :: behind ∧
    ∀ other ∈ before, name other ≠ name item

theorem Ascending.bytes {xs : List α} (h : Ascending name xs) :
    xs.Pairwise fun a b => bytes (name a) < bytes (name b) := List.Pairwise.imp bytes_lt_bytes h

theorem exists_mem_collected {items : List α} {item : α} (h : item ∈ items) :
    ∃ kept ∈ collected name items, name kept = name item := by
  have hFound : (items.find? (name · == name item)).isSome = true :=
    List.find?_isSome.mpr ⟨item, h, beq_self_eq_true _⟩
  obtain ⟨kept, hKept⟩ := Option.isSome_iff_exists.mp hFound
  have hName : name kept = name item := by simpa using List.find?_some hKept
  refine ⟨kept, ?_, hName⟩
  rw [mem_collected_iff, hName]
  exact hKept

theorem keepsFirst_collected (name : α → Text) (items : List α) :
    KeepsFirst name items (collected name items) where
  ascending := (ascending_collected name items).bytes
  names key := by
    rw [List.mem_map, List.mem_map]
    constructor
    · rintro ⟨item, hItem, hKey⟩
      exact ⟨item, mem_of_mem_collected hItem, hKey⟩
    · rintro ⟨item, hItem, rfl⟩
      exact exists_mem_collected hItem
  first item hItem := by
    obtain ⟨-, before, behind, hItems, hBefore⟩ :=
      List.find?_eq_some_iff_append.mp ((mem_collected_iff name items item).mp hItem)
    exact ⟨before, behind, hItems, fun other hOther => by simpa using hBefore other hOther⟩

theorem collected_collected (name : α → Text) (items : List α) :
    collected name (collected name items) = collected name items := by
  apply Ascending.ext (ascending_collected name _) (ascending_collected name _)
  intro item
  rw [mem_collected_iff, mem_collected_iff, find?_collected]

theorem mem_collected_of_nodup {items : List α} (h : (items.map name).Nodup) (item : α) :
    item ∈ collected name items ↔ item ∈ items := by
  rw [collected, firstOfEach_of_pairwise (List.pairwise_map.mp h)]
  exact (sortByName_perm name items).mem_iff

theorem collected_perm {xs ys : List α} (hPerm : xs.Perm ys) (h : (ys.map name).Nodup) :
    collected name xs = collected name ys := by
  have hNames : (xs.map name).Nodup := (hPerm.map name).nodup_iff.mpr h
  apply Ascending.ext (ascending_collected name _) (ascending_collected name _)
  intro item
  rw [mem_collected_of_nodup hNames, mem_collected_of_nodup h, hPerm.mem_iff]

/-- What is assembled holds the first record of each name, under which it is found. Assembling the
same again changes nothing, and neither does another order of records with different names. -/
theorem Header.keepsFirst_assemble (filename path brief description : Text)
    (functions : List Function) (dataTypes : List DataType) :
    let header := Header.assemble filename path brief description functions dataTypes
    KeepsFirst Function.name functions header.functions ∧
      KeepsFirst DataType.name dataTypes header.dataTypes ∧
      (∀ name, header.function? name = functions.find? fun record => record.name == name) ∧
      (∀ name, header.dataType? name = dataTypes.find? fun record => record.name == name) ∧
      Header.assemble filename path brief description header.functions header.dataTypes = header ∧
      ∀ functions' dataTypes', functions'.Perm functions → dataTypes'.Perm dataTypes →
        (functions.map Function.name).Nodup → (dataTypes.map DataType.name).Nodup →
          Header.assemble filename path brief description functions' dataTypes' = header := by
  intro header
  have hFunctions : header.functions = collected Function.name functions := rfl
  have hDataTypes : header.dataTypes = collected DataType.name dataTypes := rfl
  refine ⟨keepsFirst_collected Function.name functions, keepsFirst_collected DataType.name dataTypes,
    find?_collected Function.name functions, find?_collected DataType.name dataTypes, ?_, ?_⟩
  · rw [hFunctions, hDataTypes]
    change Header.mk _ _ _ _ (collected _ (collected _ _)) (collected _ (collected _ _)) = header
    rw [collected_collected, collected_collected]
    rfl
  · intro functions' dataTypes' hFunctionsPerm hDataTypesPerm hFunctionNames hDataTypeNames
    change Header.mk _ _ _ _ (collected _ functions') (collected _ dataTypes') = header
    rw [collected_perm hFunctionsPerm hFunctionNames, collected_perm hDataTypesPerm hDataTypeNames]
    rfl

def zetaFunction : Function := ⟨"zeta".toList, "int".toList, [], [], [], "a.h".toList, 2⟩

def alphaFunction : Function := ⟨"Alpha".toList, "int".toList, [], [], [], "a.h".toList, 4⟩

theorem Header.assemble_swapped :
    [alphaFunction, zetaFunction].Perm [zetaFunction, alphaFunction] ∧
      ([zetaFunction, alphaFunction].map Function.name).Nodup ∧
      Header.assemble [] [] [] [] [alphaFunction, zetaFunction] [] =
        Header.assemble [] [] [] [] [zetaFunction, alphaFunction] [] := by
  have hPerm : [alphaFunction, zetaFunction].Perm [zetaFunction, alphaFunction] :=
    List.Perm.swap zetaFunction alphaFunction []
  have hNames : ([zetaFunction, alphaFunction].map Function.name).Nodup := by decide
  obtain ⟨-, -, -, -, -, hOrder⟩ :=
    Header.keepsFirst_assemble [] [] [] [] [zetaFunction, alphaFunction] []
  exact ⟨hPerm, hNames, hOrder _ _ hPerm (List.Perm.refl []) hNames List.nodup_nil⟩

end HeaderDigest
