/-!
# Insertion-ordered maps

A map that remembers the order in which its keys first arrived. Writing a key that is present keeps
its place; erasing it and writing it again moves it to the end. No key occurs twice, and the type
says so, so every lemma below holds of every map.
-/

namespace EdgeMapper

private def writeEntry {κ α : Type} [DecidableEq κ] (key : κ) (value : α) :
    List (κ × α) → List (κ × α)
  | [] => [(key, value)]
  | entry :: rest =>
    if entry.1 = key then (key, value) :: rest else entry :: writeEntry key value rest

private theorem keys_writeEntry {κ α : Type} [DecidableEq κ] (key : κ) (value : α)
    (entries : List (κ × α)) :
    (writeEntry key value entries).map Prod.fst =
      if key ∈ entries.map Prod.fst then entries.map Prod.fst
      else entries.map Prod.fst ++ [key] := by
  induction entries with
  | nil => simp [writeEntry]
  | cons entry rest ih =>
    by_cases h : entry.1 = key
    · simp [writeEntry, h]
    · have h' : key ≠ entry.1 := fun e => h e.symm
      by_cases hm : key ∈ rest.map Prod.fst
      · rw [if_pos hm] at ih
        rw [if_pos (by simpa [h'] using hm)]
        simpa [writeEntry, h] using ih
      · rw [if_neg hm] at ih
        rw [if_neg (by simpa [h'] using hm)]
        simpa [writeEntry, h] using ih

private theorem nodup_writeEntry {κ α : Type} [DecidableEq κ] (key : κ) (value : α)
    {entries : List (κ × α)} (h : (entries.map Prod.fst).Nodup) :
    ((writeEntry key value entries).map Prod.fst).Nodup := by
  rw [keys_writeEntry]
  split
  · exact h
  · rename_i hm
    rw [List.nodup_append]
    refine ⟨h, by simp, ?_⟩
    intro a ha b hb hab
    simp only [List.mem_singleton] at hb
    exact hm (hb ▸ hab ▸ ha)

/-- A finite map with its entries in order of first arrival. -/
structure OrderedMap (κ α : Type) where
  entries : List (κ × α)
  nodup_keys : (entries.map Prod.fst).Nodup

namespace OrderedMap

variable {κ α β : Type}

theorem ext {m n : OrderedMap κ α} (h : m.entries = n.entries) : m = n := by
  cases m
  cases n
  simp_all

instance [DecidableEq κ] [DecidableEq α] : DecidableEq (OrderedMap κ α) := fun m n =>
  decidable_of_iff (m.entries = n.entries) ⟨ext, fun h => h ▸ rfl⟩

def empty : OrderedMap κ α := ⟨[], by simp⟩

instance : EmptyCollection (OrderedMap κ α) := ⟨empty⟩

instance : Inhabited (OrderedMap κ α) := ⟨empty⟩

def keys (m : OrderedMap κ α) : List κ := m.entries.map Prod.fst

def isEmpty (m : OrderedMap κ α) : Bool := m.entries.isEmpty

def size (m : OrderedMap κ α) : Nat := m.entries.length

@[simp] theorem entries_empty : (∅ : OrderedMap κ α).entries = [] := rfl

@[simp] theorem keys_empty : (∅ : OrderedMap κ α).keys = [] := rfl

variable [DecidableEq κ]

def get? (m : OrderedMap κ α) (key : κ) : Option α :=
  (m.entries.find? (fun entry => entry.1 = key)).map Prod.snd

def contains (m : OrderedMap κ α) (key : κ) : Bool := m.keys.contains key

def insert (m : OrderedMap κ α) (key : κ) (value : α) : OrderedMap κ α :=
  ⟨writeEntry key value m.entries, nodup_writeEntry key value m.nodup_keys⟩

def erase (m : OrderedMap κ α) (key : κ) : OrderedMap κ α :=
  ⟨m.entries.filter (fun entry => entry.1 ≠ key),
    (List.filter_sublist.map Prod.fst).nodup m.nodup_keys⟩

def modify (m : OrderedMap κ α) (key : κ) (f : α → α) : OrderedMap κ α :=
  ⟨m.entries.map (fun entry => if entry.1 = key then (entry.1, f entry.2) else entry), by
    have h : (m.entries.map (fun entry => if entry.1 = key then (entry.1, f entry.2) else entry)).map
        Prod.fst = m.entries.map Prod.fst := by
      rw [List.map_map]
      apply List.map_congr_left
      intro entry _
      simp only [Function.comp_apply]
      split <;> rfl
    rw [h]
    exact m.nodup_keys⟩

/-- The entries written one after another: of a repeated key the first place and the last value. -/
def ofList (entries : List (κ × α)) : OrderedMap κ α :=
  entries.foldl (fun m entry => m.insert entry.1 entry.2) ∅

@[simp] theorem get?_empty (key : κ) : (∅ : OrderedMap κ α).get? key = none := rfl

theorem keys_insert (m : OrderedMap κ α) (key : κ) (value : α) :
    (m.insert key value).keys = if key ∈ m.keys then m.keys else m.keys ++ [key] :=
  keys_writeEntry key value m.entries

theorem get?_insert (m : OrderedMap κ α) (key other : κ) (value : α) :
    (m.insert key value).get? other = if other = key then some value else m.get? other := by
  obtain ⟨entries, nodup⟩ := m
  simp only [get?, insert]
  clear nodup
  induction entries with
  | nil => by_cases h : key = other <;> simp [writeEntry, h, eq_comm]
  | cons entry rest ih =>
    by_cases h : entry.1 = key
    · by_cases ho : other = key
      · simp [writeEntry, h, ho]
      · have ho' : ¬ key = other := fun e => ho e.symm
        simp [writeEntry, h, ho, ho']
    · by_cases ho : entry.1 = other
      · have : ¬ other = key := fun e => h (ho.trans e)
        simp [writeEntry, ho, this]
      · simp only [writeEntry, if_neg h, List.find?_cons, ho, decide_false]
        exact ih

theorem keys_erase (m : OrderedMap κ α) (key : κ) :
    (m.erase key).keys = m.keys.filter (fun k => k ≠ key) := by
  simp only [keys, erase, List.filter_map, Function.comp_def]

theorem get?_erase (m : OrderedMap κ α) (key other : κ) :
    (m.erase key).get? other = if other = key then none else m.get? other := by
  obtain ⟨entries, nodup⟩ := m
  simp only [get?, erase]
  clear nodup
  induction entries with
  | nil => simp
  | cons entry rest ih =>
    by_cases h : entry.1 = key
    · by_cases ho : other = key
      · simp only [List.filter_cons, h, ho, ne_eq, not_true_eq_false, decide_false,
          Bool.false_eq_true, if_false, if_true] at ih ⊢
        exact ih
      · have ho' : ¬ key = other := fun e => ho e.symm
        simp only [List.filter_cons, h, ho, ne_eq, not_true_eq_false, decide_false,
          Bool.false_eq_true, if_false, List.find?_cons, ho'] at ih ⊢
        exact ih
    · by_cases ho : entry.1 = other
      · have : ¬ other = key := fun e => h (ho.trans e)
        simp [ho, this]
      · simp only [List.filter_cons, h, ne_eq, not_false_eq_true, decide_true, if_true,
          List.find?_cons, ho, decide_false]
        exact ih

theorem get?_modify (m : OrderedMap κ α) (key other : κ) (f : α → α) :
    (m.modify key f).get? other = if other = key then (m.get? key).map f else m.get? other := by
  obtain ⟨entries, nodup⟩ := m
  simp only [get?, modify]
  clear nodup
  induction entries with
  | nil => simp
  | cons entry rest ih =>
    by_cases h : entry.1 = key
    · by_cases ho : other = key
      · simp [h, ho]
      · have ho' : ¬ key = other := fun e => ho e.symm
        simpa [h, ho, ho'] using ih
    · by_cases ho : entry.1 = other
      · have : ¬ other = key := fun e => h (ho.trans e)
        simp [ho, this]
      · simpa [h, ho] using ih

theorem entries_insert_of_not_mem {m : OrderedMap κ α} {key : κ} (h : key ∉ m.keys) (value : α) :
    (m.insert key value).entries = m.entries ++ [(key, value)] := by
  obtain ⟨entries, nodup⟩ := m
  simp only [keys, insert] at h ⊢
  clear nodup
  induction entries with
  | nil => rfl
  | cons entry rest ih =>
    simp only [List.map_cons, List.mem_cons, not_or] at h
    rw [writeEntry, if_neg (fun e => h.1 e.symm), ih h.2, List.cons_append]

theorem get?_of_mem {m : OrderedMap κ α} {key : κ} {value : α} (h : (key, value) ∈ m.entries) :
    m.get? key = some value := by
  obtain ⟨entries, nodup⟩ := m
  simp only [get?] at h ⊢
  induction entries with
  | nil => simp at h
  | cons entry rest ih =>
    rw [List.map_cons, List.nodup_cons] at nodup
    by_cases hentry : entry.1 = key
    · rcases List.mem_cons.mp h with rfl | hrest
      · simp
      · exact absurd (hentry ▸ List.mem_map_of_mem hrest) nodup.1
    · rcases List.mem_cons.mp h with rfl | hrest
      · exact absurd rfl hentry
      · rw [List.find?_cons_of_neg (by simpa using hentry)]
        exact ih nodup.2 hrest

theorem exists_get?_of_mem_keys {m : OrderedMap κ α} {key : κ} (h : key ∈ m.keys) :
    ∃ value, (key, value) ∈ m.entries ∧ m.get? key = some value := by
  obtain ⟨entry, hentry, rfl⟩ := List.mem_map.mp h
  exact ⟨entry.2, hentry, get?_of_mem hentry⟩

theorem get?_eq_none {m : OrderedMap κ α} {key : κ} (h : key ∉ m.keys) : m.get? key = none := by
  simp only [get?, Option.map_eq_none_iff, List.find?_eq_none, decide_eq_true_eq]
  intro entry hentry hkey
  exact h (hkey ▸ List.mem_map_of_mem hentry)

theorem entries_ofList {entries : List (κ × α)} (h : (entries.map Prod.fst).Nodup) :
    (ofList entries).entries = entries := by
  have hfold (m : OrderedMap κ α) (hm : (m.keys ++ entries.map Prod.fst).Nodup) :
      (entries.foldl (fun m entry => m.insert entry.1 entry.2) m).entries =
        m.entries ++ entries := by
    clear h
    induction entries generalizing m with
    | nil => simp
    | cons entry rest ih =>
      have hnew : entry.1 ∉ m.keys := by
        intro hmem
        rw [List.nodup_append] at hm
        exact hm.2.2 _ hmem _ (by simp) rfl
      have hkeys : (m.insert entry.1 entry.2).keys = m.keys ++ [entry.1] := by
        rw [keys_insert, if_neg hnew]
      rw [List.foldl_cons, ih, entries_insert_of_not_mem hnew]
      · simp
      · simpa [hkeys] using hm
  rw [ofList, hfold ∅ (by simpa using h), entries_empty, List.nil_append]

theorem contains_iff (m : OrderedMap κ α) (key : κ) : m.contains key = true ↔ key ∈ m.keys := by
  simp [contains]

end OrderedMap

end EdgeMapper
