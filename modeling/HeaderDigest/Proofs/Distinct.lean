import HeaderDigest.Distinct

/-!
# What is kept of a list

Of a list the first item of each key is kept, in the order of the list. What is kept of two lists together is what
is kept of the first and, behind it, what is kept of the second under keys that the first does not have.
-/

namespace HeaderDigest

variable {α κ : Type} [BEq κ] {key : α → κ}

/-- Only the keys decide what is kept. -/
theorem map_firstOfEach (key : α → κ) (items : List α) :
    (firstOfEach key items).map key = firstOfEach id (items.map key) := by
  induction items with
  | nil => rfl
  | cons first rest ih =>
    rw [firstOfEach, List.map_cons, List.map_cons, firstOfEach, ← ih, List.filter_map]
    rfl

variable [LawfulBEq κ]

theorem mem_firstOfEach_iff (key : α → κ) (items : List α) (item : α) :
    item ∈ firstOfEach key items ↔ items.find? (key · == key item) = some item := by
  induction items with
  | nil => simp [firstOfEach]
  | cons first rest ih =>
    simp only [firstOfEach, List.mem_cons, List.mem_filter, ih, List.find?_cons]
    by_cases h : key first = key item
    · simp [h, eq_comm]
    · have hNe : item ≠ first := fun e => h (congrArg key e.symm)
      have hBeq : (key first == key item) = false := beq_eq_false_iff_ne.mpr h
      simp [hBeq, hNe, Ne.symm h]

theorem pairwise_firstOfEach (key : α → κ) (items : List α) :
    (firstOfEach key items).Pairwise fun a b => key a ≠ key b := by
  induction items with
  | nil => exact List.Pairwise.nil
  | cons first rest ih =>
    refine List.pairwise_cons.mpr ⟨?_, ih.filter _⟩
    intro other hOther
    have h := (List.mem_filter.mp hOther).2
    exact Ne.symm (by simpa using h)

theorem nodup_map_firstOfEach (key : α → κ) (items : List α) : ((firstOfEach key items).map key).Nodup :=
  List.pairwise_map.mpr (pairwise_firstOfEach key items)

theorem firstOfEach_of_pairwise {items : List α} (h : items.Pairwise fun a b => key a ≠ key b) :
    firstOfEach key items = items := by
  induction items with
  | nil => rfl
  | cons first rest ih =>
    obtain ⟨hFirst, hRest⟩ := List.pairwise_cons.mp h
    rw [firstOfEach, ih hRest, List.filter_eq_self.mpr]
    intro other hOther
    simpa using Ne.symm (hFirst other hOther)

/-- No key is lost. -/
theorem mem_map_firstOfEach_iff {items : List α} {k : κ} :
    k ∈ (firstOfEach key items).map key ↔ k ∈ items.map key := by
  simp only [List.mem_map]
  constructor
  · rintro ⟨item, hItem, rfl⟩
    exact ⟨item, mem_of_mem_firstOfEach key hItem, rfl⟩
  · rintro ⟨item, hItem, rfl⟩
    have hSome := (List.find?_isSome (p := (key · == key item))).mpr ⟨item, hItem, beq_self_eq_true (key item)⟩
    obtain ⟨first, hFirst⟩ := Option.isSome_iff_exists.mp hSome
    have hKey : key first = key item := by simpa using List.find?_some hFirst
    exact ⟨first, (mem_firstOfEach_iff key items first).mpr (by rw [hKey, hFirst]), hKey⟩

theorem firstOfEach_append (key : α → κ) (xs ys : List α) :
    firstOfEach key (xs ++ ys) =
      firstOfEach key xs ++
        (firstOfEach key ys).filter fun item => !((firstOfEach key xs).map key).contains (key item) := by
  have hKeys (item : α) : ((firstOfEach key xs).map key).contains (key item) = (xs.map key).contains (key item) := by
    rw [Bool.eq_iff_iff, List.contains_iff_mem, List.contains_iff_mem, mem_map_firstOfEach_iff]
  simp only [hKeys]
  clear hKeys
  induction xs with
  | nil =>
    rw [List.nil_append, firstOfEach, List.nil_append]
    exact (List.filter_eq_self.mpr fun _ _ => rfl).symm
  | cons x xs ih =>
    rw [List.cons_append, firstOfEach, firstOfEach, ih, List.filter_append, List.filter_filter, List.cons_append]
    congr 2
    refine List.filter_congr fun item _ => ?_
    rw [List.map_cons, List.contains_cons, Bool.not_or]
    rfl

end HeaderDigest
