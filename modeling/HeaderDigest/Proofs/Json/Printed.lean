import HeaderDigest.Json.Printer
import HeaderDigest.Proofs.Json.Quoted
import Mathlib.Data.List.TakeDrop

/-!
# Printed values

A printed value is read back as it was. Its length bounds the steps that this takes, and behind
it stands what ends a value in a printed text: a comma, a line break or nothing.
-/

namespace HeaderDigest.Json

open Text

/-- Values as they are printed: texts and keys are escaped, and numbers count. -/
inductive Written : Json → Prop
  | null : Written .null
  | bool (value : Bool) : Written (.bool value)
  | number (n : Nat) : Written (.number (Nat.toDigits 10 n))
  | string (s : Text) : Written (.string (escape s))
  | array {items : List Json} : (∀ item ∈ items, Written item) → Written (.array items)
  | object {fields : List (Text × Json)} : (∀ field ∈ fields, ∃ key, field.1 = escape key) →
      (∀ field ∈ fields, Written field.2) → Written (.object fields)

def EndsValue (rest : Text) : Prop := ∀ c ∈ rest.head?, c = ',' ∨ c = '\n'

structure ReadsBack (json : Json) : Prop where
  starts : ∀ level, ∃ c s, print level json = c :: s ∧ isSpace c = false ∧ c ≠ ']'
  reads : ∀ level fuel rest, EndsValue rest → 2 * (print level json).length ≤ fuel →
    readValue? fuel (print level json ++ rest) = some (json, rest)

theorem skipSpace_cons {c : Char} (h : isSpace c = false) (s : Text) : skipSpace (c :: s) = c :: s :=
  List.dropWhile_cons_of_neg (by simp [h])

theorem skipSpace_newLine (level : Nat) (s : Text) : skipSpace (newLine level ++ s) = skipSpace s := by
  apply List.dropWhile_append_of_pos
  intro c hc
  obtain rfl | hc := List.mem_cons.mp hc
  · rfl
  · rw [(List.mem_replicate.mp hc).2]
    rfl

theorem ReadsBack.skipSpace_print {json : Json} (h : json.ReadsBack) (level : Nat) (rest : Text) :
    skipSpace (print level json ++ rest) = print level json ++ rest := by
  obtain ⟨c, s, hPrint, hSpace, -⟩ := h.starts level
  rw [hPrint]
  exact skipSpace_cons hSpace (s ++ rest)

theorem endsValue_newLine (level : Nat) (s : Text) : EndsValue (newLine level ++ s) := by
  rintro c ⟨⟩
  exact Or.inr rfl

/-- A number is written with a zero in front only if it is zero. -/
theorem eq_nil_of_toDigits {n : Nat} {more : List Char} (h : Nat.toDigits 10 n = '0' :: more) :
    more = [] := by
  induction n using Nat.strongRecOn generalizing more with
  | ind n ih =>
    rw [Nat.toDigits_eq_if (by decide)] at h
    split at h
    · exact (List.cons.inj h).2.symm
    · rename_i hTen
      cases hDigits : Nat.toDigits 10 (n / 10) with
      | nil => exact absurd hDigits Nat.toDigits_ne_nil
      | cons d digits =>
        rw [hDigits] at h
        obtain rfl : d = '0' := (List.cons.inj h).1
        obtain rfl : digits = [] := ih (n / 10) (by omega) hDigits
        have hZero := Nat.ofDigitChars_ten_toDigits (n := n / 10)
        rw [hDigits] at hZero
        have : n / 10 = 0 := hZero.symm
        omega

theorem readDigits?_toDigits (n : Nat) {rest : Text} (h : EndsValue rest) :
    readDigits? (Nat.toDigits 10 n ++ rest) = some (Nat.toDigits 10 n, rest) := by
  have hDigits : ∀ c ∈ Nat.toDigits 10 n, c.isDigit = true := fun c hc =>
    Nat.isDigit_of_mem_toDigits (by decide) (by decide) hc
  have hRest : rest.takeWhile Char.isDigit = [] ∧ rest.dropWhile Char.isDigit = rest := by
    cases rest with
    | nil => exact ⟨rfl, rfl⟩
    | cons c rest =>
      have hc : ¬c.isDigit = true := by
        obtain rfl | rfl := h c rfl <;> decide
      exact ⟨List.takeWhile_cons_of_neg hc, List.dropWhile_cons_of_neg hc⟩
  rw [readDigits?, List.span_eq_takeWhile_dropWhile, List.takeWhile_append_of_pos hDigits,
    List.dropWhile_append_of_pos hDigits, hRest.1, hRest.2, List.append_nil]
  exact if_neg fun hEmpty => Nat.toDigits_ne_nil (List.isEmpty_iff.mp hEmpty)

theorem readNumber?_toDigits (n : Nat) {rest : Text} (h : EndsValue rest) :
    readNumber? (Nat.toDigits 10 n ++ rest) = some (Nat.toDigits 10 n, rest) := by
  have hWhole : readWhole? (Nat.toDigits 10 n ++ rest) = some (Nat.toDigits 10 n, rest) := by
    rw [readWhole?, readDigits?_toDigits n h]
    split
    · rename_i hZero
      exact absurd (eq_nil_of_toDigits (congrArg Prod.fst (Option.some.inj hZero))) (List.cons_ne_nil _ _)
    · rfl
  have hFraction : readFraction? rest = some ([], rest) := by
    unfold readFraction?
    split
    · obtain hPoint | hPoint := h '.' rfl <;> cases hPoint
    · rfl
  have hExponent : readExponent? rest = some ([], rest) := by
    cases rest with
    | nil => rfl
    | cons c rest =>
      have hc : ¬(c = 'e' || c = 'E') = true := by
        obtain rfl | rfl := h c rfl <;> decide
      exact if_neg hc
  have hSign : ∀ s, Nat.toDigits 10 n ++ rest ≠ '-' :: s := by
    intro s hMinus
    cases hDigits : Nat.toDigits 10 n with
    | nil => exact Nat.toDigits_ne_nil hDigits
    | cons d digits =>
      have hd : d.isDigit = true :=
        Nat.isDigit_of_mem_toDigits (by decide) (by decide) (hDigits ▸ List.mem_cons_self)
      rw [hDigits] at hMinus
      rw [(List.cons.inj hMinus).1] at hd
      cases hd
  rw [readNumber?]
  · simp only [hWhole, hFraction, hExponent, Option.bind_eq_bind, Option.bind_some, List.nil_append,
      List.append_nil]
    rfl
  · exact hSign

theorem readValue?_array {inner : Text} (fuel level : Nat) (h : inner.head? ≠ some ']')
    (hSpace : skipSpace inner = inner) :
    readValue? (fuel + 1) ('[' :: newLine level ++ inner) =
      (readItems? fuel inner).map fun (items, after) => (.array items, after) := by
  rw [List.cons_append, readValue?, skipSpace_newLine, hSpace]
  split
  · exact absurd rfl h
  · rfl

/-- The items of a list that is not empty, each behind a line break. -/
theorem readItems?_print {item : Json} {items : List Json} (h : ∀ other ∈ item :: items, other.ReadsBack)
    (inner outer fuel : Nat) (rest : Text)
    (hFuel : 2 * (print inner item ++ printItems inner items).length + 1 ≤ fuel) :
    readItems? fuel (print inner item ++ (printItems inner items ++ (newLine outer ++ ']' :: rest))) =
      some (item :: items, rest) := by
  induction items generalizing item fuel with
  | nil =>
    cases fuel with
    | zero => omega
    | succ fuel =>
      rw [List.length_append] at hFuel
      have hItem := (h item List.mem_cons_self).reads inner fuel (newLine outer ++ ']' :: rest)
        (endsValue_newLine outer _) (by omega)
      rw [printItems, List.nil_append, readItems?, hItem]
      simp only [skipSpace_newLine]
      rfl
  | cons next items ih =>
    cases fuel with
    | zero => omega
    | succ fuel =>
      rw [printItems] at hFuel
      simp only [List.length_append, List.length_cons] at hFuel
      have hItem := (h item List.mem_cons_self).reads inner fuel
        (printItems inner (next :: items) ++ (newLine outer ++ ']' :: rest))
        (by rintro c ⟨⟩; exact Or.inl rfl) (by omega)
      have hNext := (h next (by simp)).skipSpace_print inner
        (printItems inner items ++ (newLine outer ++ ']' :: rest))
      have hItems := ih (fun other hOther => h other (List.mem_cons_of_mem item hOther)) fuel
        (by rw [List.length_append]; omega)
      rw [readItems?, hItem]
      simp only [printItems, List.cons_append, List.append_assoc]
      rw [skipSpace_cons rfl]
      simp only [skipSpace_newLine, hNext, hItems, Option.map_some]

theorem readValue?_object (fuel level : Nat) (inner : Text) :
    readValue? (fuel + 1) ('{' :: newLine level ++ '"' :: inner) =
      (readFields? fuel ('"' :: inner)).map fun (fields, after) => (.object fields, after) := by
  rw [List.cons_append, readValue?, skipSpace_newLine, skipSpace_cons rfl]
  rfl

/-- What is read from the text behind a field. -/
def readBehindField? (fuel : Nat) (key : Text) (value : Json) : Text → Option (List (Text × Json) × Text)
  | '}' :: after => some ([(key, value)], after)
  | ',' :: more =>
    (readFields? fuel (skipSpace more)).map fun (fields, after) => ((key, value) :: fields, after)
  | _ => none

/-- One field: its key, and its value as far as `tail`. -/
theorem readFields?_field {key : Text} {value : Json} (h : value.ReadsBack) {level fuel : Nat}
    {tail : Text} (hTail : EndsValue tail) (hFuel : 2 * (print level value).length ≤ fuel) :
    readFields? (fuel + 1) (quoted (escape key) ++ ([':', ' '] ++ (print level value ++ tail))) =
      readBehindField? fuel (escape key) value (skipSpace tail) := by
  have hKey : quoted (escape key) ++ ([':', ' '] ++ (print level value ++ tail)) =
      '"' :: (escape key ++ '"' :: ':' :: ' ' :: (print level value ++ tail)) := by
    simp [quoted]
  have hSpace : skipSpace (' ' :: (print level value ++ tail)) = print level value ++ tail := by
    have hDrop : skipSpace (' ' :: (print level value ++ tail)) = skipSpace (print level value ++ tail) :=
      List.dropWhile_cons_of_pos (by decide)
    rw [hDrop, h.skipSpace_print level tail]
  rw [hKey, readFields?, readString?_escape]
  simp only
  rw [skipSpace_cons rfl]
  simp only [hSpace, h.reads level fuel tail hTail hFuel]
  rfl

theorem readFields?_print {field : Text × Json} {fields : List (Text × Json)}
    (hKeys : ∀ other ∈ field :: fields, ∃ key, other.1 = escape key)
    (h : ∀ other ∈ field :: fields, other.2.ReadsBack) (inner outer fuel : Nat) (rest : Text)
    (hFuel : 2 * (print inner field.2 ++ printFields inner fields).length + 1 ≤ fuel) :
    readFields? fuel (quoted field.1 ++ ([':', ' '] ++ (print inner field.2 ++
        (printFields inner fields ++ (newLine outer ++ '}' :: rest))))) =
      some (field :: fields, rest) := by
  induction fields generalizing field fuel with
  | nil =>
    obtain ⟨key, hKey⟩ := hKeys field List.mem_cons_self
    cases fuel with
    | zero => omega
    | succ fuel =>
      rw [List.length_append] at hFuel
      rw [printFields, List.nil_append, hKey,
        readFields?_field (h field List.mem_cons_self) (endsValue_newLine outer _) (by omega)]
      simp only [skipSpace_newLine]
      rw [← hKey]
      rfl
  | cons next fields ih =>
    obtain ⟨key, hKey⟩ := hKeys field List.mem_cons_self
    cases fuel with
    | zero => omega
    | succ fuel =>
      rw [printFields] at hFuel
      simp only [List.length_append, List.length_cons] at hFuel
      have hFields := ih (fun other hOther => hKeys other (List.mem_cons_of_mem field hOther))
        (fun other hOther => h other (List.mem_cons_of_mem field hOther)) fuel
        (by rw [List.length_append]; omega)
      rw [hKey, readFields?_field (h field List.mem_cons_self) (by rintro c ⟨⟩; exact Or.inl rfl) (by omega)]
      simp only [printFields, List.cons_append, List.append_assoc]
      rw [skipSpace_cons rfl]
      have hQuote (s : Text) : skipSpace (quoted next.1 ++ s) = quoted next.1 ++ s := skipSpace_cons rfl _
      simp only [readBehindField?, skipSpace_newLine, hQuote]
      simp only [List.cons_append, List.nil_append] at hFields ⊢
      rw [hFields, ← hKey]
      rfl

theorem exists_toDigits_eq_cons (n : Nat) :
    ∃ d digits, Nat.toDigits 10 n = d :: digits ∧ d.isDigit = true := by
  obtain ⟨d, digits, hDigits⟩ := List.exists_cons_of_ne_nil (Nat.toDigits_ne_nil (n := n) (b := 10))
  exact ⟨d, digits, hDigits,
    Nat.isDigit_of_mem_toDigits (by decide) (by decide) (hDigits ▸ List.mem_cons_self)⟩

theorem readValue?_digit {d : Char} (hd : d.isDigit = true) (fuel : Nat) (s : Text) :
    readValue? (fuel + 1) (d :: s) =
      (readNumber? (d :: s)).map fun (written, after) => (.number written, after) := by
  have hNe {c : Char} (hc : c.isDigit = false) (rest : Text) : d :: s = c :: rest → False := by
    intro h
    rw [(List.cons.inj h).1, hc] at hd
    cases hd
  rw [readValue?]
  all_goals exact hNe (by decide)

/-- A value that is printed on one line, whatever its level. -/
theorem readsBack_of_print {json : Json} {c : Char} {s : Text} (hPrint : ∀ level, print level json = c :: s)
    (hSpace : isSpace c = false) (hBracket : c ≠ ']')
    (hRead : ∀ fuel rest, EndsValue rest → readValue? (fuel + 1) (c :: s ++ rest) = some (json, rest)) :
    json.ReadsBack where
  starts level := ⟨c, s, hPrint level, hSpace, hBracket⟩
  reads level fuel rest hRest hFuel := by
    rw [hPrint, List.length_cons] at hFuel
    cases fuel with
    | zero => omega
    | succ fuel =>
      rw [hPrint]
      exact hRead fuel rest hRest

theorem readsBack_number (n : Nat) : ReadsBack (.number (Nat.toDigits 10 n)) := by
  obtain ⟨d, digits, hDigits, hd⟩ := exists_toDigits_eq_cons n
  refine readsBack_of_print (fun level => hDigits) ?_ ?_ ?_
  · rw [Bool.eq_false_iff]
    intro hSpace
    simp only [isSpace, Bool.or_eq_true, beq_iff_eq] at hSpace
    rcases hSpace with ((rfl | rfl) | rfl) | rfl <;> cases hd
  · rintro rfl
    cases hd
  · intro fuel rest hRest
    have hRead := readNumber?_toDigits n hRest
    rw [hDigits] at hRead
    rw [List.cons_append, readValue?_digit hd, ← List.cons_append, hRead, hDigits]
    rfl

theorem readsBack_string (s : Text) : ReadsBack (.string (escape s)) := by
  refine readsBack_of_print (c := '"') (s := escape s ++ ['"']) (fun level => rfl) rfl (by decide) ?_
  intro fuel rest _
  have hText : '"' :: (escape s ++ ['"']) ++ rest = '"' :: (escape s ++ '"' :: rest) := by simp
  rw [hText, readValue?, readString?_escape]
  rfl

theorem readsBack_array {items : List Json} (h : ∀ item ∈ items, item.ReadsBack) :
    ReadsBack (.array items) where
  starts level := by
    cases items with
    | nil => exact ⟨'[', [']'], rfl, rfl, by decide⟩
    | cons item items => exact ⟨'[', _, rfl, rfl, by decide⟩
  reads level fuel rest _ hFuel := by
    cases items with
    | nil =>
      cases fuel with
      | zero => simp [print] at hFuel
      | succ fuel => rfl
    | cons item items =>
      rw [print] at hFuel ⊢
      simp only [List.length_append, List.length_cons] at hFuel
      cases fuel with
      | zero => omega
      | succ fuel =>
        have hItem := h item List.mem_cons_self
        have hItems := readItems?_print h (level + 1) level fuel rest
          (by rw [List.length_append]; omega)
        have hHead (tail : Text) : (print (level + 1) item ++ tail).head? ≠ some ']' := by
          obtain ⟨c, s, hPrint, -, hc⟩ := hItem.starts (level + 1)
          rw [hPrint]
          exact fun hBracket => hc (Option.some.inj hBracket)
        have hArray := readValue?_array fuel (level + 1) (hHead _) (hItem.skipSpace_print (level + 1)
          (printItems (level + 1) items ++ (newLine level ++ ']' :: rest)))
        rw [hItems] at hArray
        simpa using hArray

theorem readsBack_object {fields : List (Text × Json)} (hKeys : ∀ field ∈ fields, ∃ key, field.1 = escape key)
    (h : ∀ field ∈ fields, field.2.ReadsBack) : ReadsBack (.object fields) where
  starts level := by
    cases fields with
    | nil => exact ⟨'{', ['}'], rfl, rfl, by decide⟩
    | cons field fields => exact ⟨'{', _, rfl, rfl, by decide⟩
  reads level fuel rest _ hFuel := by
    cases fields with
    | nil =>
      cases fuel with
      | zero => simp [print] at hFuel
      | succ fuel => rfl
    | cons field fields =>
      rw [print] at hFuel ⊢
      simp only [List.length_append, List.length_cons] at hFuel
      cases fuel with
      | zero => omega
      | succ fuel =>
        have hFields := readFields?_print hKeys h (level + 1) level fuel rest
          (by rw [List.length_append]; omega)
        have hObject := readValue?_object fuel (level + 1) (field.1 ++ '"' :: ([':', ' '] ++
          (print (level + 1) field.2 ++ (printFields (level + 1) fields ++ (newLine level ++ '}' :: rest)))))
        have hQuoted (s : Text) : '"' :: (field.1 ++ '"' :: s) = quoted field.1 ++ s := by simp [quoted]
        rw [hQuoted, hFields] at hObject
        simpa using hObject

theorem Written.readsBack {json : Json} (h : Written json) : json.ReadsBack := by
  induction h with
  | null => exact readsBack_of_print (fun level => rfl) rfl (by decide) fun fuel rest _ => rfl
  | bool value =>
    cases value <;> exact readsBack_of_print (fun level => rfl) rfl (by decide) fun fuel rest _ => rfl
  | number n => exact readsBack_number n
  | string s => exact readsBack_string s
  | array _ ih => exact readsBack_array ih
  | object hKeys _ ih => exact readsBack_object hKeys ih

/-- A value on lines of its own is the only one that can be read there. -/
theorem Written.read?_print {json : Json} (h : Written json) :
    Json.read? (print 0 json ++ ['\n']) = some json := by
  have hSpace := h.readsBack.skipSpace_print 0 ['\n']
  have hRead := h.readsBack.reads 0 (2 * (print 0 json ++ ['\n']).length + 2) ['\n']
    (by rintro c ⟨⟩; exact Or.inr rfl) (by rw [List.length_append]; omega)
  rw [Json.read?, hSpace, hRead]
  rfl

end HeaderDigest.Json
