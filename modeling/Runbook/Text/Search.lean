/-!
Searching and cutting texts as lists of characters.
-/
namespace Runbook.Text

/-- The first text occurs somewhere in the second. -/
def occursIn (needle : List Char) : List Char → Bool
  | [] => needle.isEmpty
  | c :: rest => needle.isPrefixOf (c :: rest) || occursIn needle rest

/-- What stands before and after the first occurrence of a separator. -/
def cutAt? (separator : List Char) : List Char → Option (List Char × List Char)
  | [] => if separator.isEmpty then some ([], []) else none
  | c :: rest =>
    if separator.isPrefixOf (c :: rest) then some ([], (c :: rest).drop separator.length)
    else (cutAt? separator rest).map fun (before, after) => (c :: before, after)

/-- The parts between the occurrences of one character. -/
def splitOnChar (separator : Char) : List Char → List (List Char)
  | [] => [[]]
  | c :: rest =>
    match splitOnChar separator rest with
    | [] => [[c]]
    | part :: parts => if c = separator then [] :: part :: parts else (c :: part) :: parts

theorem splitOnChar_ne_nil (separator : Char) (cs : List Char) : splitOnChar separator cs ≠ [] := by
  cases cs with
  | nil => simp [splitOnChar]
  | cons c rest =>
    simp only [splitOnChar]
    split
    · simp
    · split <;> simp

theorem occursIn_iff {needle cs : List Char} :
    occursIn needle cs = true ↔ ∃ before after, cs = before ++ needle ++ after := by
  induction cs with
  | nil => cases needle <;> simp [occursIn]
  | cons c rest ih =>
    simp only [occursIn, Bool.or_eq_true, List.isPrefixOf_iff_prefix, ih]
    constructor
    · rintro (⟨after, h⟩ | ⟨before, after, h⟩)
      · exact ⟨[], after, by simpa using h.symm⟩
      · exact ⟨c :: before, after, by simp [h]⟩
    · rintro ⟨before, after, h⟩
      cases before with
      | nil => exact .inl ⟨after, by simpa using h.symm⟩
      | cons b before =>
        simp only [List.cons_append, List.cons.injEq] at h
        exact .inr ⟨before, after, by simpa using h.2⟩

theorem eq_of_cutAt? {separator cs before after : List Char}
    (h : cutAt? separator cs = some (before, after)) : cs = before ++ separator ++ after := by
  induction cs generalizing before after with
  | nil =>
    cases separator <;> simp_all [cutAt?]
  | cons c rest ih =>
    simp only [cutAt?] at h
    split at h
    · rename_i hp
      obtain ⟨tail, ht⟩ := List.isPrefixOf_iff_prefix.1 hp
      simp only [Option.some.injEq, Prod.mk.injEq] at h
      obtain ⟨rfl, rfl⟩ := h
      simp [← ht]
    · simp only [Option.map_eq_some_iff] at h
      obtain ⟨⟨b, a⟩, hr, he⟩ := h
      simp only [Prod.mk.injEq] at he
      obtain ⟨rfl, rfl⟩ := he
      simp [ih hr]

/-- No part holds the separator. -/
theorem not_mem_of_mem_splitOnChar {separator : Char} {cs part : List Char}
    (h : part ∈ splitOnChar separator cs) : separator ∉ part := by
  induction cs generalizing part with
  | nil => simp_all [splitOnChar]
  | cons c rest ih =>
    simp only [splitOnChar] at h
    split at h
    · rename_i hn
      exact absurd hn (splitOnChar_ne_nil separator rest)
    · rename_i first parts hs
      rw [hs] at ih
      split at h
      · rcases List.mem_cons.1 h with rfl | h
        · simp
        · exact ih h
      · rename_i hc
        rcases List.mem_cons.1 h with rfl | h
        · simp only [List.mem_cons, not_or]
          exact ⟨fun he => hc he.symm, ih (by simp)⟩
        · exact ih (List.mem_cons_of_mem _ h)

/-- The parts with the separator between them are the text. -/
theorem intercalate_splitOnChar (separator : Char) (cs : List Char) :
    [separator].intercalate (splitOnChar separator cs) = cs := by
  induction cs with
  | nil => rfl
  | cons c rest ih =>
    simp only [splitOnChar]
    split
    · rename_i hn
      exact absurd hn (splitOnChar_ne_nil separator rest)
    · rename_i part parts hs
      rw [hs] at ih
      split
      · rename_i hc
        rw [← ih, hc]
        rfl
      · rw [← ih]
        cases parts <;> rfl

end Runbook.Text
