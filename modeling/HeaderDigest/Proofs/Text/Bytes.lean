import HeaderDigest.Text.Basic

/-!
# The bytes of a text

Texts are ordered by their characters. Their bytes in UTF-8 are ordered in the same way, since a
character with a greater number is encoded by a greater run of bytes, whatever follows it.
-/

namespace HeaderDigest.Text

/-- The bytes of a text in UTF-8. -/
def bytes (s : Text) : List UInt8 := (String.ofList s).toUTF8.data.toList

theorem bytes_nil : bytes [] = [] := rfl

theorem bytes_cons (c : Char) (s : Text) : bytes (c :: s) = String.utf8EncodeChar c ++ bytes s := by
  simp only [bytes, String.toUTF8_eq_toByteArray, String.toByteArray_ofList, List.utf8Encode,
    List.data_toByteArray, List.flatMap_cons]

/-- Of two runs of bytes the first bytes decide, or if they are equal what follows them. -/
theorem ofNat_cons_lt_cons {m n : Nat} {u v : List UInt8} (hn : n < 256) (hmn : m ≤ n)
    (h : m = n → u < v) : UInt8.ofNat m :: u < UInt8.ofNat n :: v := by
  rw [List.cons_lt_cons_iff]
  obtain hLt | rfl := Nat.lt_or_eq_of_le hmn
  · left
    rw [UInt8.lt_iff_toNat_lt, UInt8.toNat_ofNat', UInt8.toNat_ofNat']
    omega
  · exact Or.inr ⟨rfl, h rfl⟩

theorem utf8EncodeChar_append_lt {c d : Char} (h : c.toNat < d.toNat) (u v : List UInt8) :
    String.utf8EncodeChar c ++ u < String.utf8EncodeChar d ++ v := by
  have hRange : d.toNat < 0x110000 := by
    have := d.valid
    simp only [UInt32.isValidChar, Nat.isValidChar, Char.toNat_val] at this
    omega
  simp only [String.utf8EncodeChar, Char.toNat_val]
  -- one case for each number of bytes that `c` takes, and in it one for each that `d` takes
  split
  · split
    · exact ofNat_cons_lt_cons (by omega) (by omega) (by omega)
    · split
      · exact ofNat_cons_lt_cons (by omega) (by omega) (by omega)
      · split <;> exact ofNat_cons_lt_cons (by omega) (by omega) (by omega)
  · split
    · split
      · omega
      · split
        · refine ofNat_cons_lt_cons (by omega) (by omega) fun hLead => ?_
          exact ofNat_cons_lt_cons (by omega) (by omega) (by omega)
        · split <;> exact ofNat_cons_lt_cons (by omega) (by omega) (by omega)
    · split
      · split
        · omega
        · split
          · omega
          · split
            · refine ofNat_cons_lt_cons (by omega) (by omega) fun hLead => ?_
              refine ofNat_cons_lt_cons (by omega) (by omega) fun hSecond => ?_
              exact ofNat_cons_lt_cons (by omega) (by omega) (by omega)
            · exact ofNat_cons_lt_cons (by omega) (by omega) (by omega)
      · split
        · omega
        · split
          · omega
          · split
            · omega
            · refine ofNat_cons_lt_cons (by omega) (by omega) fun hLead => ?_
              refine ofNat_cons_lt_cons (by omega) (by omega) fun hSecond => ?_
              refine ofNat_cons_lt_cons (by omega) (by omega) fun hThird => ?_
              exact ofNat_cons_lt_cons (by omega) (by omega) (by omega)

theorem utf8EncodeChar_lt_append (c : Char) (u : List UInt8) : [] < String.utf8EncodeChar c ++ u := by
  obtain ⟨b, more, hBytes⟩ := List.exists_cons_of_ne_nil (String.utf8EncodeChar_ne_nil (c := c))
  rw [hBytes, List.cons_append]
  exact List.nil_lt_cons b (more ++ u)

theorem bytes_lt_bytes {s t : Text} (h : compare s t = .lt) : bytes s < bytes t := by
  induction s generalizing t with
  | nil =>
    cases t with
    | nil => cases h
    | cons d t =>
      rw [bytes_nil, bytes_cons]
      exact utf8EncodeChar_lt_append d (bytes t)
  | cons c s ih =>
    cases t with
    | nil => cases h
    | cons d t =>
      rw [List.compare_cons_cons, Ordering.then_eq_lt] at h
      rw [bytes_cons, bytes_cons]
      obtain hLt | ⟨hEq, hRest⟩ := h
      · have hChar : c < d := compareOfLessAndEq_eq_lt.mp hLt
        exact utf8EncodeChar_append_lt (UInt32.lt_iff_toNat_lt.mp hChar) (bytes s) (bytes t)
      · obtain rfl := Std.LawfulEqOrd.eq_of_compare hEq
        exact List.append_left_lt (ih hRest)

end HeaderDigest.Text
