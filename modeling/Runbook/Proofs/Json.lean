import Runbook.Proofs.Outcome

/-!
What JSON can express. The keys of its dictionaries are texts, each of which stands once. Such a value is
given back by a JSON column as it is, and whatever a column gives back is such a value; and so is whatever
is read from a JSON text.
-/
namespace Runbook

namespace Dict

variable {d e : Dict} {k : Key} {v : Value} {p : Key × Value}

theorem find?_eq_none : find? d k = none ↔ ∀ p ∈ d, p.1.same k = false := by
  induction d with
  | nil => simp [find?]
  | cons q rest ih =>
    obtain ⟨k', w⟩ := q
    by_cases same : k'.same k = true <;> simp [find?, same, ih]

theorem mem_of_find? (found : find? d k = some v) : ∃ k', (k', v) ∈ d := by
  induction d with
  | nil => cases found
  | cons q rest ih =>
    obtain ⟨k', w⟩ := q
    unfold find? at found
    split at found
    · cases found
      exact ⟨k', .head _⟩
    · obtain ⟨k', later⟩ := ih found
      exact ⟨k', .tail _ later⟩

theorem mem_put (there : p ∈ put d k v) : p.2 = v ∨ p ∈ d := by
  induction d with
  | nil => exact .inl (by rw [List.mem_singleton.1 there])
  | cons e rest ih =>
    obtain ⟨k', v'⟩ := e
    unfold put at there
    split at there
    · rcases List.mem_cons.1 there with rfl | later
      · exact .inl rfl
      · exact .inr (.tail _ later)
    · rcases List.mem_cons.1 there with rfl | later
      · exact .inr (.head _)
      · exact (ih later).imp_right (.tail _)

/-- A new key goes to the end, and an old one keeps its place. -/
theorem keys_put (d : Dict) (k : Key) (v : Value) :
    (put d k v).map (·.1) = if (find? d k).isSome then d.map (·.1) else d.map (·.1) ++ [k] := by
  induction d with
  | nil => rfl
  | cons q rest ih =>
    obtain ⟨k', w⟩ := q
    by_cases same : k'.same k = true
    · simp [put, find?, same]
    · by_cases later : (find? rest k).isSome = true <;> simp_all [put, find?]

theorem put_of_find?_none (new : find? d k = none) (v : Value) : put d k v = d ++ [(k, v)] := by
  induction d with
  | nil => rfl
  | cons q rest ih =>
    obtain ⟨k', w⟩ := q
    unfold find? at new
    split at new
    · cases new
    · rename_i other
      rw [put, if_neg other, ih new, List.cons_append]

/-- What holds of all values that are written holds of all values of a dictionary. -/
theorem forall_merge {p : Value → Prop} (old : ∀ q ∈ d, p q.2) (new : ∀ q ∈ e, p q.2) :
    ∀ q ∈ merge d e, p q.2 := by
  induction e generalizing d with
  | nil => exact old
  | cons q rest ih =>
    refine ih (fun r there => ?_) fun r later => new r (.tail _ later)
    rcases mem_put there with same | before
    · exact same ▸ new q (.head _)
    · exact old r before

/-- No two entries have the same key. -/
def Distinct (d : Dict) : Prop := (d.map (·.1)).Pairwise fun a b => a.same b = false

/-- All keys are texts. -/
def Named (d : Dict) : Prop := ∀ p ∈ d, ∃ s, p.1 = .text s

theorem Distinct.put (distinct : Distinct d) (k : Key) (v : Value) : Distinct (put d k v) := by
  unfold Distinct
  rw [keys_put]
  split
  · exact distinct
  · rename_i new
    have new : find? d k = none := by simpa using new
    refine List.pairwise_append.2 ⟨distinct, List.pairwise_singleton _ _, fun a there b last => ?_⟩
    obtain ⟨p, listed, rfl⟩ := List.mem_map.1 there
    rw [List.mem_singleton.1 last]
    exact find?_eq_none.1 new p listed

theorem Distinct.merge (distinct : Distinct d) (e : Dict) : Distinct (merge d e) := by
  induction e generalizing d with
  | nil => exact distinct
  | cons q rest ih => exact ih (distinct.put q.1 q.2)

theorem distinct_nil : Distinct [] := .nil

theorem named_iff : Named d ↔ ∀ k ∈ d.map (·.1), ∃ s, k = .text s := by
  unfold Named
  rw [List.forall_mem_map]

theorem Named.put (named : Named d) (s : String) (v : Value) : Named (put d (.text s) v) := by
  rw [named_iff] at named ⊢
  rw [keys_put]
  split
  · exact named
  · exact List.forall_mem_append.2 ⟨named, by simp⟩

theorem Named.merge (named : Named d) (new : Named e) : Named (merge d e) := by
  induction e generalizing d with
  | nil => exact named
  | cons q rest ih =>
    obtain ⟨s, key⟩ := new q (.head _)
    have first : Named (Dict.put d q.1 q.2) := key ▸ named.put s q.2
    exact ih first fun p later => new p (.tail _ later)

/-- Entries whose keys are distinct are written one behind the other. -/
theorem merge_eq_append (distinct : Distinct (d ++ e)) : merge d e = d ++ e := by
  induction e generalizing d with
  | nil => exact (List.append_nil d).symm
  | cons q rest ih =>
    have new : find? d q.1 = none := by
      unfold Distinct at distinct
      rw [List.map_append, List.pairwise_append] at distinct
      exact find?_eq_none.2 fun p there => distinct.2.2 p.1 (List.mem_map_of_mem there) q.1 (.head _)
    change merge (Dict.put d q.1 q.2) rest = _
    rw [put_of_find?_none new, ih (by rwa [List.append_assoc]), List.append_assoc, List.singleton_append]

theorem ofPairs_eq_self (distinct : Distinct d) : ofPairs d = d := merge_eq_append (d := []) distinct

end Dict

open Dict (Named Distinct)

namespace Value

/-- A value that JSON can express. -/
inductive IsJson : Value → Prop where
  | null : IsJson .null
  | bool (b : Bool) : IsJson (.bool b)
  | int (n : Int) : IsJson (.int n)
  | float (x : Float) : IsJson (.float x)
  | text (s : String) : IsJson (.text s)
  | list {items : List Value} (each : ∀ v ∈ items, IsJson v) : IsJson (.list items)
  | dict {d : Dict} (named : Named d) (distinct : Distinct d) (each : ∀ p ∈ d, IsJson p.2) :
      IsJson (.dict d)

end Value

/-- A dictionary of values that JSON can express, under any keys. -/
structure Dict.Proper (d : Dict) : Prop where
  distinct : Distinct d
  each : ∀ p ∈ d, p.2.IsJson

namespace Dict.Proper

variable {d e : Dict} {k : Key} {v : Value} {name : String}

theorem nil : Proper [] := ⟨distinct_nil, fun _ no => absurd no List.not_mem_nil⟩

theorem put (proper : Proper d) (k : Key) (json : v.IsJson) : Proper (put d k v) where
  distinct := proper.distinct.put k v
  each p there := by
    rcases mem_put there with same | old
    · exact same ▸ json
    · exact proper.each p old

theorem set (proper : Proper d) (name : String) (json : v.IsJson) : Proper (set d name v) := proper.put _ json

theorem ofPairs (each : ∀ p ∈ e, p.2.IsJson) : Proper (ofPairs e) where
  distinct := distinct_nil.merge e
  each := forall_merge (fun _ no => absurd no List.not_mem_nil) each

theorem find? (proper : Proper d) (found : find? d k = some v) : v.IsJson := by
  obtain ⟨k', there⟩ := mem_of_find? found
  exact proper.each _ there

theorem get? (proper : Proper d) (found : get? d name = some v) : v.IsJson := Proper.find? proper found

theorem getD (proper : Proper d) (name : String) : (getD d name).IsJson := by
  unfold Dict.getD
  cases found : Dict.get? d name with
  | none => exact .null
  | some v => exact proper.get? found

theorem json (proper : Proper d) (named : Named d) : (Value.dict d).IsJson :=
  .dict named proper.distinct proper.each

end Dict.Proper

namespace Value

variable {v w : Value}

theorem isJson_dict {d : Dict} : (Value.dict d).IsJson ↔ Named d ∧ Dict.Proper d := by
  constructor
  · rintro (_ | _ | _ | _ | _ | _ | ⟨named, distinct, each⟩)
    exact ⟨named, distinct, each⟩
  · rintro ⟨named, proper⟩
    exact proper.json named

theorem IsJson.proper {d : Dict} (json : (Value.dict d).IsJson) : Dict.Proper d := (isJson_dict.1 json).2

theorem isJson_list {items : List Value} : (Value.list items).IsJson ↔ ∀ v ∈ items, v.IsJson := by
  constructor
  · rintro (_ | _ | _ | _ | _ | each)
    exact each
  · exact .list

theorem IsJson.orElse (json : v.IsJson) (other : w.IsJson) : (v.orElse w).IsJson := by
  unfold Value.orElse
  split
  · exact json
  · exact other

theorem isJson_texts (ss : List String) : (texts ss).IsJson := by
  refine .list fun v there => ?_
  obtain ⟨s, -, rfl⟩ := List.mem_map.1 there
  exact .text s

/-- A record whose fields differ. -/
theorem isJson_record {fields : List (String × Value)} (names : (fields.map (·.1)).Nodup)
    (each : ∀ f ∈ fields, f.2.IsJson) : (record fields).IsJson := by
  refine .dict (fun p there => ?_) ?_ fun p there => ?_
  · obtain ⟨f, -, rfl⟩ := List.mem_map.1 there
    exact ⟨f.1, rfl⟩
  · unfold Distinct
    rw [List.map_map]
    refine List.pairwise_map.2 ((List.pairwise_map.1 names).imp fun {f g} other => ?_)
    simpa [Key.same] using other
  · obtain ⟨f, listed, rfl⟩ := List.mem_map.1 there
    exact each f listed

/-! JSON columns. -/

theorem storedItems_eq_map (items : List Value) : storedItems items = items.map stored := by
  induction items with
  | nil => rfl
  | cons v rest ih => rw [storedItems, ih, List.map_cons]

theorem storedEntries_eq_map (entries : Dict) :
    storedEntries entries = entries.map fun p => (.text p.1.jsonText, p.2.stored) := by
  induction entries with
  | nil => rfl
  | cons p rest ih => rw [storedEntries, ih, List.map_cons]

/-- A JSON column gives back what JSON can express. -/
theorem IsJson.stored (json : v.IsJson) : v.stored = v := by
  induction json with
  | list _ ih =>
    rw [Value.stored, storedItems_eq_map]
    exact congrArg Value.list ((List.map_congr_left ih).trans (List.map_id _))
  | @dict d named distinct _ ih =>
    have same : storedEntries d = d := by
      rw [storedEntries_eq_map]
      refine (List.map_congr_left fun p there => ?_).trans (List.map_id _)
      obtain ⟨s, key⟩ := named p there
      have spelled : Key.text p.1.jsonText = p.1 := by rw [key]; rfl
      rw [spelled, ih p there]
      rfl
    rw [Value.stored, same, Dict.ofPairs_eq_self distinct]
  | _ => rfl

mutual

/-- Whatever a JSON column gives back can be expressed in JSON. -/
theorem isJson_stored : (v : Value) → v.stored.IsJson
  | .null => .null
  | .bool b => .bool b
  | .int n => .int n
  | .float x => .float x
  | .text s => .text s
  | .list items => .list (isJson_storedItems items)
  | .dict entries =>
    have named : Named (storedEntries entries) := fun p there => by
      rw [storedEntries_eq_map] at there
      obtain ⟨q, -, rfl⟩ := List.mem_map.1 there
      exact ⟨_, rfl⟩
    (Dict.Proper.ofPairs (isJson_storedEntries entries)).json
      (Named.merge (fun _ no => absurd no List.not_mem_nil) named)

theorem isJson_storedItems : (items : List Value) → ∀ v ∈ storedItems items, v.IsJson
  | [] => fun _ no => absurd no List.not_mem_nil
  | v :: rest => List.forall_mem_cons.2 ⟨isJson_stored v, isJson_storedItems rest⟩

theorem isJson_storedEntries : (entries : List (Key × Value)) → ∀ p ∈ storedEntries entries, p.2.IsJson
  | [] => fun _ no => absurd no List.not_mem_nil
  | (_, v) :: rest => List.forall_mem_cons.2 ⟨isJson_stored v, isJson_storedEntries rest⟩

end

theorem stored_eq_self_iff : v.stored = v ↔ v.IsJson :=
  ⟨fun same => same ▸ isJson_stored v, IsJson.stored⟩

end Value

/-! Texts that hold JSON. -/

namespace Json

theorem isJson_of_readWord? {cs rest : List Char} {v : Value} (found : readWord? cs = some (v, rest)) :
    v.IsJson := by
  obtain ⟨⟨word, w⟩, listed, same⟩ := Option.map_eq_some_iff.1 found
  obtain ⟨rfl, -⟩ := Prod.mk.inj same
  have known := List.mem_of_find?_eq_some listed
  simp only [words, List.mem_cons, Prod.mk.injEq, List.not_mem_nil, or_false] at known
  rcases known with ⟨-, rfl⟩ | ⟨-, rfl⟩ | ⟨-, rfl⟩ | ⟨-, rfl⟩ | ⟨-, rfl⟩ | ⟨-, rfl⟩
  · exact .null
  · exact .bool _
  · exact .bool _
  · exact .float _
  · exact .float _
  · exact .float _

theorem isJson_of_readNumber? {cs rest : List Char} {v : Value} (found : readNumber? cs = some (v, rest)) :
    v.IsJson := by
  unfold readNumber? at found
  dsimp only at found
  repeat' split at found
  all_goals cases found
  all_goals first | exact .int _ | exact .float _

/-- What is read off the front of a text is JSON: by induction on the depth, for values, items and entries at
once. -/
theorem isJson_of_reads (fuel : Nat) :
    (∀ cs v rest, readValue fuel cs = .ok (v, rest) → v.IsJson) ∧
    (∀ cs vs rest, readItems fuel cs = .ok (vs, rest) → ∀ v ∈ vs, v.IsJson) ∧
    ∀ cs es rest, readEntries fuel cs = .ok (es, rest) → Named es ∧ ∀ p ∈ es, p.2.IsJson := by
  induction fuel with
  | zero =>
    refine ⟨fun cs v rest read => ?_, fun cs vs rest read => ?_, fun cs es rest read => ?_⟩
    · rw [readValue] at read; cases read
    · rw [readItems] at read; cases read
    · rw [readEntries] at read; cases read
  | succ fuel ih =>
    obtain ⟨values, items, entries⟩ := ih
    refine ⟨fun cs v rest read => ?_, fun cs vs rest read => ?_, fun cs es rest read => ?_⟩
    · unfold readValue at read
      split at read
      · obtain ⟨⟨text, tail⟩, -, read⟩ := bind_eq_ok read
        cases read
        exact .text _
      · split at read
        · cases read
          exact .list fun _ no => absurd no List.not_mem_nil
        · obtain ⟨⟨vs, tail⟩, inner, read⟩ := bind_eq_ok read
          cases read
          exact .list (items _ _ _ inner)
      · split at read
        · cases read
          exact .dict (fun _ no => absurd no List.not_mem_nil) Dict.distinct_nil
            fun _ no => absurd no List.not_mem_nil
        · obtain ⟨⟨es, tail⟩, inner, read⟩ := bind_eq_ok read
          cases read
          obtain ⟨named, each⟩ := entries _ _ _ inner
          exact (Dict.Proper.ofPairs each).json
            (Named.merge (fun _ no => absurd no List.not_mem_nil) named)
      · split at read
        · rename_i known
          cases read
          rcases Option.or_eq_some_iff.1 known with word | ⟨-, number⟩
          · exact isJson_of_readWord? word
          · exact isJson_of_readNumber? number
        · cases read
    · unfold readItems at read
      obtain ⟨⟨first, tail⟩, here, read⟩ := bind_eq_ok read
      have json := values _ _ _ here
      dsimp only at read
      split at read
      · cases read
        exact List.forall_mem_singleton.2 json
      · obtain ⟨⟨others, tail⟩, later, read⟩ := bind_eq_ok read
        cases read
        exact List.forall_mem_cons.2 ⟨json, items _ _ _ later⟩
      · cases read
    · unfold readEntries at read
      split at read
      · obtain ⟨⟨name, tail⟩, -, read⟩ := bind_eq_ok read
        dsimp only at read
        split at read
        · obtain ⟨⟨v, tail⟩, here, read⟩ := bind_eq_ok read
          have json := values _ _ _ here
          dsimp only at read
          split at read
          · cases read
            exact ⟨fun p there => ⟨_, congrArg Prod.fst (List.mem_singleton.1 there)⟩,
              List.forall_mem_singleton.2 json⟩
          · obtain ⟨⟨others, tail⟩, later, read⟩ := bind_eq_ok read
            cases read
            obtain ⟨named, each⟩ := entries _ _ _ later
            exact ⟨List.forall_mem_cons.2 ⟨⟨_, rfl⟩, named⟩, List.forall_mem_cons.2 ⟨json, each⟩⟩
          · cases read
        · cases read
      · cases read

/-- What is read from a text can be expressed in JSON. -/
theorem isJson_of_read {s : String} {v : Value} (holds : read s = .ok v) : v.IsJson := by
  unfold read at holds
  dsimp only at holds
  split at holds
  · cases holds
  · obtain ⟨⟨w, rest⟩, front, holds⟩ := bind_eq_ok holds
    split at holds
    · cases holds
      exact (isJson_of_reads _).1 _ _ _ front
    · cases holds

end Json

end Runbook
