import EdgeMapper.Proofs.Overlay
import EdgeMapper.Subscriptions
import Mathlib.Data.List.DropRight
import Mathlib.Data.List.Induction
import Mathlib.Data.List.Nodup
/-!
# A ledger and its history

A ledger remembers of its history what the server has yet to be told: for every key the last write
since the last commit, and nothing else. The main statement reads all parts of a ledger off the steps
that led to it. The order of the keys is that of the earliest write that was not taken back: a removal
is taken back by setting the key, and setting it by a removal.
-/

namespace EdgeMapper

/-- The value under a key after it has been written, with null for a removal. -/
def shown : Value → Option Value
  | .null => none
  | value => some value

theorem shown_of_ne_null {value : Value} (h : value ≠ .null) : shown value = some value := by
  cases value with
  | null => exact absurd rfl h
  | _ => rfl

theorem getLast?_filterMap_append {α β : Type} (f : α → Option β) (xs : List α) (a : α) :
    ((xs ++ [a]).filterMap f).getLast? = (f a).or (xs.filterMap f).getLast? := by
  rw [List.filterMap_append]
  cases ha : f a with
  | none => simp [ha]
  | some b => simp [ha]

namespace PropertyLedger

theorem get?_current_write {l : PropertyLedger} {key k : String} {value : Value} :
    (l.write k value).current.get? key = if key = k then shown value else l.current.get? key := by
  rw [PropertyLedger.write]
  split
  · next hnull =>
      rw [hnull]
      exact OrderedMap.get?_erase _ _ _
  · next hvalue =>
      rw [shown_of_ne_null hvalue]
      exact OrderedMap.get?_insert _ _ _ _

/-! ## Histories -/

inductive Step where
  | write (key : String) (value : Value)
  | markModified
  | commit
  deriving DecidableEq

def Step.run (l : PropertyLedger) : Step → PropertyLedger
  | write key value => l.write key value
  | markModified => l.markModified
  | commit => l.commit

def Step.written? : Step → Option (String × Value)
  | write key value => some (key, value)
  | _ => none

def run (l : PropertyLedger) (steps : List Step) : PropertyLedger := steps.foldl Step.run l

def untilCommit (steps : List Step) : List Step := steps.rdropWhile (· ≠ .commit)

def sinceCommit (steps : List Step) : List Step := steps.rtakeWhile (· ≠ .commit)

def writes (steps : List Step) : List (String × Value) := steps.filterMap Step.written?

/-- What is written last under a key. -/
def lastValue (key : String) (ws : List (String × Value)) : Option Value :=
  (ws.filterMap fun w => if w.1 = key then some w.2 else none).getLast?

/-- The keys of the writes of one kind, in order, without those after which the key is written in the
other way. -/
def standing (kind : Value → Bool) : List (String × Value) → List String
  | [] => []
  | (key, value) :: rest =>
    if kind value = true ∧ ∀ w ∈ rest, w.1 = key → kind w.2 = true then key :: standing kind rest
    else standing kind rest

def removes (value : Value) : Bool := value = .null

def sets (value : Value) : Bool := value ≠ .null

/-- The ledger says what was last written under each key since it was committed as `base`. -/
structure Tells (l base : PropertyLedger) (since : List Step) : Prop where
  unwritten : ∀ key, lastValue key (writes since) = none →
    key ∉ l.pending.keys ∧ key ∉ l.removed ∧ l.current.get? key = base.current.get? key
  set : ∀ key value, lastValue key (writes since) = some value → value ≠ .null →
    l.current.get? key = some value ∧ l.pending.get? key = some value ∧ key ∉ l.removed
  removed : ∀ key, lastValue key (writes since) = some .null →
    key ∉ l.current.keys ∧ key ∉ l.pending.keys ∧ l.removed.count key = 1
  read : ∀ key, l.read key = (l.current.get? key).getD .null
  dirty : l.isDirty = true ↔ ∃ key value, Step.write key value ∈ since
  modified : l.modified = true ↔ (∃ key value, Step.write key value ∈ since) ∨ .markModified ∈ since
  removals : l.removed = firstOccurrences (standing removes (writes since))
  settings : l.pending.keys = firstOccurrences (standing sets (writes since))

section

variable {l base : PropertyLedger} {key k : String} {value : Value} {ws : List (String × Value)}
  {kind : Value → Bool} {since steps : List Step}

/-! ## Lists of writes -/

theorem lastValue_append_singleton :
    lastValue key (ws ++ [(k, value)]) = if key = k then some value else lastValue key ws := by
  rw [lastValue, getLast?_filterMap_append]
  by_cases hkey : k = key
  · simp [hkey]
  · simp [hkey, Ne.symm hkey, lastValue]

theorem standing_append_singleton (kind : Value → Bool) (ws : List (String × Value)) (k : String)
    (value : Value) :
    standing kind (ws ++ [(k, value)]) =
      if kind value then standing kind ws ++ [k] else (standing kind ws).filter (· ≠ k) := by
  induction ws with
  | nil => cases h : kind value <;> simp [standing, h]
  | cons w rest ih =>
      obtain ⟨key, first⟩ := w
      rw [List.cons_append, standing, ih, standing]
      simp only [List.forall_mem_append, List.forall_mem_singleton]
      by_cases hvalue : kind value = true
      · simp only [hvalue, implies_true, and_true, if_true]
        split
        · rfl
        · rfl
      · -- the last write takes back the earlier ones under its key, and no others
        simp only [if_neg hvalue]
        by_cases hkey : k = key
        · subst hkey
          rw [if_neg fun h => hvalue (h.2.2 rfl)]
          split
          · rw [List.filter_cons_of_neg (by simp)]
          · rfl
        · simp only [hkey, false_implies, and_true]
          split
          · rw [List.filter_cons_of_pos (by simpa using Ne.symm hkey)]
          · rfl

theorem mem_standing_iff :
    key ∈ standing kind ws ↔ ∃ value, lastValue key ws = some value ∧ kind value = true := by
  induction ws using List.reverseRecOn with
  | nil => simp [standing, lastValue]
  | append_singleton ws w ih =>
      obtain ⟨k, value⟩ := w
      rw [standing_append_singleton, lastValue_append_singleton]
      by_cases hkey : key = k
      · subst hkey
        cases hvalue : kind value with
        | true => simp [hvalue]
        | false => simp [hvalue]
      · cases hvalue : kind value with
        | true => simp [hkey, ih]
        | false => simp [hkey, ih]

theorem firstOccurrences_standing_append (kind : Value → Bool) (ws : List (String × Value))
    (k : String) (value : Value) :
    firstOccurrences (standing kind (ws ++ [(k, value)])) =
      if kind value then
        if k ∈ firstOccurrences (standing kind ws) then firstOccurrences (standing kind ws)
        else firstOccurrences (standing kind ws) ++ [k]
      else (firstOccurrences (standing kind ws)).filter (· ≠ k) := by
  rw [standing_append_singleton]
  split
  · simp only [firstOccurrences_append_singleton, mem_firstOccurrences]
  · exact firstOccurrences_filter _ _

theorem exists_lastValue_iff :
    (∃ value, lastValue key ws = some value) ↔ ∃ value, (key, value) ∈ ws := by
  induction ws using List.reverseRecOn with
  | nil => simp [lastValue]
  | append_singleton ws w ih =>
      obtain ⟨k, value⟩ := w
      rw [lastValue_append_singleton]
      by_cases hkey : key = k
      · simp [hkey]
      · simp [hkey, ih]

theorem mem_writes_iff : (key, value) ∈ writes since ↔ Step.write key value ∈ since := by
  rw [writes, List.mem_filterMap]
  constructor
  · rintro ⟨step, hstep, hwritten⟩
    cases step with
    | write k v =>
        obtain ⟨rfl, rfl⟩ := Prod.mk.inj (Option.some.inj hwritten)
        exact hstep
    | markModified => cases hwritten
    | commit => cases hwritten
  · exact fun h => ⟨_, h, rfl⟩

/-! ## Steps -/

theorem removed_write (h : l.Coherent) (key : String) (value : Value) :
    (l.write key value).removed =
      if removes value then if key ∈ l.removed then l.removed else l.removed ++ [key]
      else l.removed.filter (· ≠ key) := by
  rw [PropertyLedger.write]
  by_cases hnull : value = .null
  · simp [hnull, removes, PropertyLedger.remove]
  · have herase : l.removed.erase key = l.removed.filter (· ≠ key) := by
      rw [h.nodup.erase_eq_filter]
      exact List.filter_congr fun k _ => by by_cases hk : k = key <;> simp [hk]
    simpa [hnull, removes, PropertyLedger.set] using herase

theorem keys_pending_write (l : PropertyLedger) (key : String) (value : Value) :
    (l.write key value).pending.keys =
      if sets value then if key ∈ l.pending.keys then l.pending.keys else l.pending.keys ++ [key]
      else l.pending.keys.filter (· ≠ key) := by
  rw [PropertyLedger.write]
  by_cases hnull : value = .null
  · simp [hnull, sets, PropertyLedger.remove, OrderedMap.keys_erase]
  · simp [hnull, sets, PropertyLedger.set, OrderedMap.keys_insert]

/-- What every step but a commit adds to. -/
structure Follows (l base : PropertyLedger) (since : List Step) : Prop where
  coherent : l.Coherent
  current : ∀ key, l.current.get? key =
    (lastValue key (writes since)).elim (base.current.get? key) shown
  modified : l.modified = true ↔ since ≠ []
  removals : l.removed = firstOccurrences (standing removes (writes since))
  settings : l.pending.keys = firstOccurrences (standing sets (writes since))

theorem follows_of_clean (h : l.Clean) (hmodified : l.modified = false) : l.Follows l [] where
  coherent := coherent_of_clean h
  current _ := rfl
  modified := by simp [hmodified]
  removals := h.2
  settings := by rw [h.1]; rfl

theorem Follows.write (h : l.Follows base since) (key : String) (value : Value) :
    (l.write key value).Follows base (since ++ [.write key value]) := by
  have hwrites : writes (since ++ [.write key value]) = writes since ++ [(key, value)] := by
    simp [writes, Step.written?]
  constructor
  · exact h.coherent.write key value
  · intro other
    rw [get?_current_write, hwrites, lastValue_append_singleton, h.current]
    split
    · rfl
    · rfl
  · simp [modified_write]
  · rw [hwrites, firstOccurrences_standing_append, removed_write h.coherent, h.removals]
  · rw [hwrites, firstOccurrences_standing_append, keys_pending_write, h.settings]

theorem Follows.markModified (h : l.Follows base since) :
    l.markModified.Follows base (since ++ [.markModified]) := by
  have hwrites : writes (since ++ [.markModified]) = writes since := by
    simp [writes, Step.written?]
  exact
    { coherent := ⟨h.coherent.nodup, h.coherent.disjoint, h.coherent.pending, h.coherent.removed⟩
      current := hwrites ▸ h.current
      modified := by simp [PropertyLedger.markModified]
      removals := hwrites ▸ h.removals
      settings := hwrites ▸ h.settings }

theorem run_append_singleton (l : PropertyLedger) (steps : List Step) (step : Step) :
    l.run (steps ++ [step]) = step.run (l.run steps) := by
  rw [run, List.foldl_append]
  rfl

theorem follows_run (hclean : l.Clean) (hmodified : l.modified = false) (steps : List Step) :
    (l.run steps).Follows (l.run (untilCommit steps)) (sinceCommit steps) := by
  -- on the steps from the last one back: a commit starts anew, and any other step goes on with what came before
  induction steps using List.reverseRecOn with
  | nil => exact follows_of_clean hclean hmodified
  | append_singleton steps step ih =>
      rw [run_append_singleton, untilCommit, sinceCommit]
      cases step with
      | write key value =>
          rw [List.rdropWhile_concat_pos _ _ _ (by simp), List.rtakeWhile_concat_pos _ _ _ (by simp)]
          exact ih.write key value
      | markModified =>
          rw [List.rdropWhile_concat_pos _ _ _ (by simp), List.rtakeWhile_concat_pos _ _ _ (by simp)]
          exact ih.markModified
      | commit =>
          rw [List.rdropWhile_concat_neg _ _ _ (by simp), List.rtakeWhile_concat_neg _ _ _ (by simp),
            run_append_singleton]
          exact follows_of_clean (clean_commit _) rfl

/-! ## Reading a ledger -/

theorem Follows.mem_pending_iff (h : l.Follows base since) :
    key ∈ l.pending.keys ↔ ∃ value, lastValue key (writes since) = some value ∧ value ≠ .null := by
  rw [h.settings, mem_firstOccurrences, mem_standing_iff]
  simp [sets]

theorem Follows.mem_removed_iff (h : l.Follows base since) :
    key ∈ l.removed ↔ lastValue key (writes since) = some .null := by
  rw [h.removals, mem_firstOccurrences, mem_standing_iff]
  simp [removes]

theorem isDirty_iff : l.isDirty = true ↔ ∃ key, key ∈ l.changedKeys := by
  rw [← List.isEmpty_eq_false_iff_exists_mem, List.isEmpty_eq_false_iff, changedKeys, ne_eq,
    List.append_eq_nil_iff, OrderedMap.keys, List.map_eq_nil_iff, not_and_or]
  simp [isDirty, OrderedMap.isEmpty]

theorem Follows.isDirty_iff (h : l.Follows base since) :
    l.isDirty = true ↔ ∃ key value, Step.write key value ∈ since := by
  rw [PropertyLedger.isDirty_iff]
  refine exists_congr fun key => ?_
  simp only [← mem_writes_iff]
  rw [changedKeys, List.mem_append, h.mem_pending_iff, h.mem_removed_iff, ← exists_lastValue_iff]
  constructor
  · rintro (⟨value, hlast, _⟩ | hlast)
    · exact ⟨value, hlast⟩
    · exact ⟨.null, hlast⟩
  · rintro ⟨value, hlast⟩
    by_cases hnull : value = .null
    · exact .inr (hnull ▸ hlast)
    · exact .inl ⟨value, hlast, hnull⟩

theorem Follows.tells (h : l.Follows base since) (hcommit : .commit ∉ since) :
    l.Tells base since where
  unwritten key hlast := by
    refine ⟨fun hkey => ?_, fun hkey => ?_, ?_⟩
    · obtain ⟨value, hvalue, _⟩ := h.mem_pending_iff.mp hkey
      rw [hlast] at hvalue
      cases hvalue
    · rw [h.mem_removed_iff, hlast] at hkey
      cases hkey
    · rw [h.current, hlast]
      rfl
  set key value hlast hvalue := by
    have hcurrent : l.current.get? key = some value := by
      rw [h.current, hlast]
      exact shown_of_ne_null hvalue
    refine ⟨hcurrent, ?_, fun hkey => ?_⟩
    · rw [← h.coherent.pending key (h.mem_pending_iff.mpr ⟨value, hlast, hvalue⟩)]
      exact hcurrent
    · rw [h.mem_removed_iff, hlast] at hkey
      exact hvalue (Option.some.inj hkey)
  removed key hlast := by
    have hremoved := h.mem_removed_iff.mpr hlast
    refine ⟨fun hkey => ?_, fun hkey => h.coherent.disjoint key hremoved hkey,
      List.count_eq_one_of_mem h.coherent.nodup hremoved⟩
    obtain ⟨value, _, hvalue⟩ := OrderedMap.exists_get?_of_mem_keys hkey
    rw [h.coherent.removed key hremoved] at hvalue
    cases hvalue
  read := h.coherent.read_eq
  dirty := h.isDirty_iff
  modified := by
    rw [h.modified]
    constructor
    · intro hsince
      obtain ⟨step, hstep⟩ := List.exists_mem_of_ne_nil since hsince
      cases step with
      | write key value => exact .inl ⟨key, value, hstep⟩
      | markModified => exact .inr hstep
      | commit => exact absurd hstep hcommit
    · rintro (⟨key, value, hstep⟩ | hstep)
      · exact List.ne_nil_of_mem hstep
      · exact List.ne_nil_of_mem hstep
  removals := h.removals
  settings := h.settings

end

/-- Whatever was written to a ledger, marked and committed, it tells for every key the last write since
the last commit, with the properties of that commit where there was none. -/
theorem last_write_wins (properties : OrderedMap String Value) (steps : List Step) :
    let l := ofProperties properties
    (l.run steps).Tells (l.run (untilCommit steps)) (sinceCommit steps) := by
  intro l
  refine (follows_run ⟨rfl, rfl⟩ rfl steps).tells fun hcommit => ?_
  simpa using List.mem_rtakeWhile_imp hcommit

end PropertyLedger

end EdgeMapper
