import EdgeMapper.PropertyLedger
/-!
# The overlay of a ledger

The pending updates and the removals lie over what the server holds. Whatever is written or removed, in
whatever order, every key outside the overlay keeps the value that the server holds for it, and the
overlay itself says what the server has yet to be told.
-/

namespace EdgeMapper

abbrev Held := String → Option Value

namespace PropertyLedger

/-- The value at a key is the one that the server holds; a key that it does not hold counts as null. -/
def AgreesAt (l : PropertyLedger) (held : Held) (key : String) : Prop :=
  l.read key = (held key).getD .null

def Agrees (l : PropertyLedger) (held : Held) : Prop := ∀ key, l.AgreesAt held key

/-- The overlay does not contradict itself or the current properties. -/
structure Coherent (l : PropertyLedger) : Prop where
  nodup : l.removed.Nodup
  disjoint : ∀ key ∈ l.removed, key ∉ l.pending.keys
  pending : ∀ key ∈ l.pending.keys, l.current.get? key = l.pending.get? key
  removed : ∀ key ∈ l.removed, l.current.get? key = none

/-- A coherent ledger that the server agrees with wherever the overlay says nothing. -/
structure Synced (l : PropertyLedger) (held : Held) : Prop where
  coherent : l.Coherent
  outside : ∀ key, key ∉ l.pending.keys → key ∉ l.removed → l.AgreesAt held key

def Clean (l : PropertyLedger) : Prop := l.pending = ∅ ∧ l.removed = []

section

variable {l : PropertyLedger} {held : Held} {key : String}

theorem Coherent.read_eq (h : l.Coherent) (key : String) :
    l.read key = (l.current.get? key).getD .null := by
  by_cases hkey : key ∈ l.pending.keys
  · obtain ⟨value, _, hvalue⟩ := OrderedMap.exists_get?_of_mem_keys hkey
    rw [read, h.pending key hkey, hvalue, Option.some_or]
  · rw [read, OrderedMap.get?_eq_none hkey, Option.none_or]

theorem Coherent.read_of_mem_pending (h : l.Coherent) (hkey : key ∈ l.pending.keys) :
    l.read key = (l.pending.get? key).getD .null := by
  rw [h.read_eq, h.pending key hkey]

theorem Coherent.read_of_mem_removed (h : l.Coherent) (hkey : key ∈ l.removed) :
    l.read key = .null := by
  rw [h.read_eq, h.removed key hkey]
  rfl

theorem coherent_of_clean (h : l.Clean) : l.Coherent := by
  obtain ⟨hpending, hremoved⟩ := h
  refine ⟨?_, ?_, ?_, ?_⟩
  · simp [hremoved]
  · simp [hremoved]
  · simp [hpending]
  · simp [hremoved]

theorem synced_of_agrees (h : l.Coherent) (hagrees : l.Agrees held) : l.Synced held :=
  ⟨h, fun key _ _ => hagrees key⟩

theorem clean_of_not_isDirty (h : l.isDirty = false) : l.Clean := by
  simp only [isDirty, Bool.or_eq_false_iff, Bool.not_eq_false', OrderedMap.isEmpty] at h
  refine ⟨OrderedMap.ext ?_, List.isEmpty_iff.mp h.2⟩
  rw [List.isEmpty_iff.mp h.1, OrderedMap.entries_empty]

theorem Synced.agrees_of_clean (h : l.Synced held) (hclean : l.Clean) : l.Agrees held := by
  intro key
  apply h.outside key
  · simp [hclean.1]
  · simp [hclean.2]

/-! ## Writing -/

theorem Coherent.set (h : l.Coherent) (key : String) (value : Value) :
    (l.set key value).Coherent := by
  have hkeys : ∀ k, k ∈ (l.pending.insert key value).keys ↔ k = key ∨ k ∈ l.pending.keys := by
    intro k
    rw [OrderedMap.keys_insert]
    split
    · next hmem =>
        refine ⟨.inr, fun hk => hk.elim ?_ id⟩
        rintro rfl
        exact hmem
    · simp [or_comm]
  refine ⟨h.nodup.erase key, ?_, ?_, ?_⟩
  · intro k hk hpending
    rw [PropertyLedger.set, h.nodup.mem_erase_iff] at hk
    rcases (hkeys k).mp hpending with rfl | hpending
    · exact hk.1 rfl
    · exact h.disjoint k hk.2 hpending
  · intro k hk
    simp only [PropertyLedger.set, OrderedMap.get?_insert]
    split
    · rfl
    · next hne => exact h.pending k (((hkeys k).mp hk).resolve_left hne)
  · intro k hk
    rw [PropertyLedger.set, h.nodup.mem_erase_iff] at hk
    simp only [PropertyLedger.set, OrderedMap.get?_insert, if_neg hk.1]
    exact h.removed k hk.2

theorem mem_removed_remove {k : String} :
    k ∈ (l.remove key).removed ↔ k = key ∨ k ∈ l.removed := by
  unfold PropertyLedger.remove
  simp only
  split
  · next hmem =>
      refine ⟨.inr, fun hk => hk.elim ?_ id⟩
      rintro rfl
      simpa using hmem
  · simp [or_comm]

theorem mem_keys_erase {m : OrderedMap String Value} {k : String} :
    k ∈ (m.erase key).keys ↔ k ≠ key ∧ k ∈ m.keys := by
  simp [OrderedMap.keys_erase, and_comm]

theorem mem_changedKeys_write {k : String} {value : Value} :
    k ∈ (l.write key value).changedKeys ↔ k = key ∨ k ∈ l.changedKeys := by
  simp only [changedKeys, List.mem_append]
  rw [PropertyLedger.write]
  split
  · rw [mem_removed_remove]
    simp only [PropertyLedger.remove, mem_keys_erase]
    by_cases hkey : k = key
    · simp [hkey]
    · simp [hkey]
  · simp only [PropertyLedger.set, OrderedMap.keys_insert]
    by_cases hkey : k = key
    · subst hkey
      split <;> simp [*]
    · rw [List.mem_erase_of_ne hkey]
      split <;> simp [hkey]

theorem modified_write (l : PropertyLedger) (key : String) (value : Value) :
    (l.write key value).modified = true := by
  unfold PropertyLedger.write
  split
  · rfl
  · rfl

theorem Coherent.remove (h : l.Coherent) (key : String) : (l.remove key).Coherent := by
  refine ⟨?_, ?_, ?_, ?_⟩
  · simp only [PropertyLedger.remove]
    split
    · exact h.nodup
    · next hmem =>
        rw [List.nodup_append]
        refine ⟨h.nodup, by simp, ?_⟩
        intro a ha b hb hab
        obtain rfl := List.mem_singleton.mp hb
        exact hmem (by simpa [hab] using ha)
  · intro k hk hpending
    have hpending := mem_keys_erase.mp hpending
    rcases mem_removed_remove.mp hk with rfl | hk
    · exact hpending.1 rfl
    · exact h.disjoint k hk hpending.2
  · intro k hk
    obtain ⟨hne, hk⟩ := mem_keys_erase.mp hk
    simp only [PropertyLedger.remove, OrderedMap.get?_erase, if_neg hne]
    exact h.pending k hk
  · intro k hk
    simp only [PropertyLedger.remove, OrderedMap.get?_erase]
    split
    · rfl
    · next hne => exact h.removed k ((mem_removed_remove.mp hk).resolve_left hne)

theorem Coherent.write (h : l.Coherent) (key : String) (value : Value) :
    (l.write key value).Coherent := by
  unfold PropertyLedger.write
  split
  · exact h.remove key
  · exact h.set key value

theorem read_write_of_outside (h : l.Coherent) {value : Value} {k : String}
    (hpending : k ∉ (l.write key value).pending.keys) (hremoved : k ∉ (l.write key value).removed) :
    k ∉ l.pending.keys ∧ k ∉ l.removed ∧ (l.write key value).read k = l.read k := by
  rw [(h.write key value).read_eq, h.read_eq]
  unfold PropertyLedger.write at hpending hremoved ⊢
  split at hpending
  · next hnull =>
      rw [if_pos hnull] at hremoved ⊢
      rw [mem_removed_remove, not_or] at hremoved
      refine ⟨fun hk => hpending (mem_keys_erase.mpr ⟨hremoved.1, hk⟩), hremoved.2, ?_⟩
      simp only [PropertyLedger.remove, OrderedMap.get?_erase, if_neg hremoved.1]
  · next hvalue =>
      rw [if_neg hvalue] at hremoved ⊢
      simp only [PropertyLedger.set] at hpending hremoved ⊢
      have hne : k ≠ key := by
        rintro rfl
        apply hpending
        rw [OrderedMap.keys_insert]
        split
        · assumption
        · simp
      refine ⟨fun hk => hpending ?_, fun hk => hremoved ((List.mem_erase_of_ne hne).mpr hk), ?_⟩
      · rw [OrderedMap.keys_insert]
        split
        · exact hk
        · exact List.mem_append_left _ hk
      · rw [OrderedMap.get?_insert, if_neg hne]

theorem Synced.write (h : l.Synced held) (key : String) (value : Value) :
    (l.write key value).Synced held := by
  refine ⟨h.coherent.write key value, ?_⟩
  intro k hpending hremoved
  obtain ⟨hp, hr, hread⟩ := read_write_of_outside h.coherent hpending hremoved
  rw [AgreesAt, hread]
  exact h.outside k hp hr

theorem Synced.markModified (h : l.Synced held) : l.markModified.Synced held :=
  ⟨⟨h.coherent.nodup, h.coherent.disjoint, h.coherent.pending, h.coherent.removed⟩, h.outside⟩

theorem clean_commit (l : PropertyLedger) : l.commit.Clean := ⟨rfl, rfl⟩

theorem Coherent.read_commit (h : l.Coherent) (key : String) : l.commit.read key = l.read key := by
  rw [(coherent_of_clean (clean_commit l)).read_eq, h.read_eq]
  rfl

end

end PropertyLedger

end EdgeMapper
