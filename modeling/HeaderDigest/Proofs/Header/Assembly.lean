import HeaderDigest.Header.Basic
import HeaderDigest.Proofs.Distinct

/-!
# The records of a header

A header keeps of all records the first of each name, in ascending order of names. Such a list is
determined by what looking up a name in the records gives, so two ways of collecting records are
compared by looking up names.
-/

namespace HeaderDigest

open Text

variable {α : Type}

def Ascending (name : α → Text) (items : List α) : Prop :=
  items.Pairwise fun a b => compare (name a) (name b) = .lt

theorem pairwise_sortByName (name : α → Text) (items : List α) :
    (sortByName name items).Pairwise fun a b => (compare (name a) (name b)).isLE = true := by
  apply List.pairwise_mergeSort
  · intro a b c hab hbc
    exact Std.TransCmp.isLE_trans hab hbc
  · intro a b
    rw [Bool.or_eq_true]
    by_cases h : (compare (name a) (name b)).isLE = true
    · exact Or.inl h
    · have hLt := Std.OrientedCmp.lt_of_not_isLE h
      exact Or.inr (Ordering.isLE_of_eq_lt hLt)

theorem sortByName_perm (name : α → Text) (items : List α) :
    (sortByName name items).Perm items := List.mergeSort_perm items _

/-- The first record of each name, by name. -/
def collected (name : α → Text) (items : List α) : List α := sortByName name (firstOfEach name items)

theorem collected_nil (name : α → Text) : collected name [] = [] := by
  simp [collected, sortByName, firstOfEach]

theorem collected_singleton (name : α → Text) (item : α) : collected name [item] = [item] := by
  simp [collected, sortByName, firstOfEach]

theorem mem_collected_iff (name : α → Text) (items : List α) (item : α) :
    item ∈ collected name items ↔ items.find? (name · == name item) = some item :=
  (sortByName_perm name _).mem_iff.trans (mem_firstOfEach_iff name items item)

theorem mem_of_mem_collected {name : α → Text} {items : List α} {item : α}
    (h : item ∈ collected name items) : item ∈ items :=
  List.mem_of_find?_eq_some ((mem_collected_iff name items item).mp h)

theorem ascending_collected (name : α → Text) (items : List α) :
    Ascending name (collected name items) := by
  have hNames : (collected name items).Pairwise fun a b => name a ≠ name b :=
    (sortByName_perm name _).symm.pairwise (pairwise_firstOfEach name items) fun h => Ne.symm h
  refine List.Pairwise.imp₂ ?_ (pairwise_sortByName name _) hNames
  intro a b hLe hNe
  refine (Ordering.isLE_iff_eq_lt_or_eq_eq.mp hLe).resolve_right ?_
  intro hEq
  exact hNe (Std.LawfulEqOrd.eq_of_compare hEq)

theorem Ascending.nodup {name : α → Text} {xs : List α} (h : Ascending name xs) : xs.Nodup := by
  refine List.Pairwise.imp ?_ h
  rintro a b hab rfl
  exact Std.OrientedCmp.not_lt_of_lt hab hab

theorem Ascending.ext {name : α → Text} {xs ys : List α} (hx : Ascending name xs)
    (hy : Ascending name ys) (h : ∀ item, item ∈ xs ↔ item ∈ ys) : xs = ys := by
  refine List.Perm.eq_of_pairwise ?_ hx hy ((List.perm_ext_iff_of_nodup hx.nodup hy.nodup).mpr h)
  intro a b _ _ hab hba
  exact absurd hba (Std.OrientedCmp.not_lt_of_lt hab)

/-- Looking up a name in the kept records gives the first record of that name. -/
theorem find?_collected (name : α → Text) (items : List α) (key : Text) :
    (collected name items).find? (name · == key) = items.find? (name · == key) := by
  cases h : items.find? (name · == key) with
  | none =>
    rw [List.find?_eq_none] at h ⊢
    intro item hItem
    exact h item (mem_of_mem_collected hItem)
  | some found =>
    have hKey : name found = key := by simpa using List.find?_some h
    have hFound : found ∈ collected name items := by
      rw [mem_collected_iff, hKey, h]
    cases hFind : (collected name items).find? (name · == key) with
    | none => exact absurd (beq_iff_eq.mpr hKey) (List.find?_eq_none.mp hFind found hFound)
    | some other =>
      have hOther := (mem_collected_iff name items other).mp (List.mem_of_find?_eq_some hFind)
      have hOtherKey : name other = key := by simpa using List.find?_some hFind
      rw [hOtherKey, h] at hOther
      exact hOther.symm

theorem collected_map (name : α → Text) (items : List α) (f : α → α)
    (hf : ∀ item, name (f item) = name item) :
    (collected name items).map f = collected name (items.map f) := by
  have hComp (key : Text) : ((name · == key) ∘ f) = (name · == key) := by
    funext item
    simp only [Function.comp_apply, hf]
  have hAscending : Ascending name ((collected name items).map f) := by
    refine List.pairwise_map.mpr ((ascending_collected name items).imp ?_)
    intro a b hab
    rwa [hf, hf]
  apply Ascending.ext hAscending (ascending_collected name _)
  intro item
  rw [mem_collected_iff, List.find?_map, hComp, Option.map_eq_some_iff, List.mem_map]
  constructor
  · rintro ⟨kept, hKept, rfl⟩
    rw [mem_collected_iff] at hKept
    exact ⟨kept, by rwa [hf], rfl⟩
  · rintro ⟨kept, hKept, rfl⟩
    rw [hf] at hKept
    exact ⟨kept, (mem_collected_iff name items kept).mpr hKept, rfl⟩

theorem collected_filter (name : α → Text) (p : Text → Bool) (items : List α) :
    collected name (items.filter fun item => p (name item)) =
      (collected name items).filter fun item => p (name item) := by
  apply Ascending.ext (ascending_collected name _) ((ascending_collected name items).filter _)
  intro item
  rw [mem_collected_iff, List.mem_filter, mem_collected_iff, List.find?_filter]
  simp only [Bool.decide_and, Bool.decide_eq_true]
  by_cases h : p (name item) = true
  · have hKeep : (fun other => p (name other) && name other == name item) =
        fun other => name other == name item := by
      funext other
      by_cases hName : name other = name item
      · simp [hName, h]
      · simp [hName]
    rw [hKeep]
    exact (and_iff_left h).symm
  · constructor
    · intro hFind
      have hItem := List.find?_some hFind
      rw [Bool.and_eq_true] at hItem
      exact absurd hItem.1 h
    · rintro ⟨-, hItem⟩
      exact absurd hItem h

end HeaderDigest
