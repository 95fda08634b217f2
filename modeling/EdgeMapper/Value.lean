import EdgeMapper.Number.Binary64
/-!
# Values

What a graph server sends and accepts: null, booleans, whole and double-precision numbers, texts,
lists, maps and structural records. A few more kinds of value can turn up in input and have to be
told apart from these; they are never property values.

The main statement is that equality of values is decidable.
-/

namespace EdgeMapper

inductive Value where
  | null
  | bool (b : Bool)
  | int (i : Int)
  | float (x : Binary64)
  | text (s : String)
  | list (items : List Value)
  | map (entries : List (Value × Value))
  | record (signature : Nat) (fields : List Value)
  | tuple (items : List Value)
  | set (items : List Value)
  | bytes (content : List UInt8)
  /-- A value of yet another kind, known only by its text. -/
  | foreign (text : String)
  deriving Repr

namespace Value

mutual

private def same : Value → Value → Bool
  | .null, .null => true
  | .bool a, .bool b => a = b
  | .int a, .int b => a = b
  | .float a, .float b => a = b
  | .text a, .text b => a = b
  | .list a, .list b => sameItems a b
  | .map a, .map b => sameEntries a b
  | .record s a, .record t b => s = t && sameItems a b
  | .tuple a, .tuple b => sameItems a b
  | .set a, .set b => sameItems a b
  | .bytes a, .bytes b => a = b
  | .foreign a, .foreign b => a = b
  | _, _ => false

private def sameItems : List Value → List Value → Bool
  | [], [] => true
  | a :: as, b :: bs => same a b && sameItems as bs
  | _, _ => false

private def sameEntries : List (Value × Value) → List (Value × Value) → Bool
  | [], [] => true
  | (k, v) :: as, (l, w) :: bs => same k l && same v w && sameEntries as bs
  | _, _ => false

end

mutual

private theorem same_iff : ∀ a b : Value, same a b = true ↔ a = b
  | .null, b => by cases b <;> simp [same]
  | .bool _, b => by cases b <;> simp [same]
  | .int _, b => by cases b <;> simp [same]
  | .float _, b => by cases b <;> simp [same]
  | .text _, b => by cases b <;> simp [same]
  | .list as, b => by
    cases b <;> simp [same]
    exact sameItems_iff as _
  | .map as, b => by
    cases b <;> simp [same]
    exact sameEntries_iff as _
  | .record _ as, b => by
    cases b <;> simp [same]
    exact fun _ => sameItems_iff as _
  | .tuple as, b => by
    cases b <;> simp [same]
    exact sameItems_iff as _
  | .set as, b => by
    cases b <;> simp [same]
    exact sameItems_iff as _
  | .bytes _, b => by cases b <;> simp [same]
  | .foreign _, b => by cases b <;> simp [same]

private theorem sameItems_iff : ∀ as bs : List Value, sameItems as bs = true ↔ as = bs
  | [], bs => by cases bs <;> simp [sameItems]
  | a :: as, bs => by
    cases bs with
    | nil => simp [sameItems]
    | cons b bs => simp [sameItems, same_iff a b, sameItems_iff as bs]

private theorem sameEntries_iff :
    ∀ as bs : List (Value × Value), sameEntries as bs = true ↔ as = bs
  | [], bs => by cases bs <;> simp [sameEntries]
  | (k, v) :: as, bs => by
    cases bs with
    | nil => simp [sameEntries]
    | cons b bs =>
      obtain ⟨l, w⟩ := b
      simp [sameEntries, same_iff k l, same_iff v w, sameEntries_iff as bs]

end

instance : DecidableEq Value := fun a b => decidable_of_iff (same a b = true) (same_iff a b)

instance : Inhabited Value := ⟨.null⟩

mutual

/-- Is the value a property value? Lists and maps are searched to every depth, and the keys of maps
have to be texts; a record counts as it is, whatever its fields hold. -/
def isProperty : Value → Bool
  | .list items => areProperties items
  | .map entries => areEntries entries
  | .tuple _ => false
  | .set _ => false
  | .bytes _ => false
  | .foreign _ => false
  | _ => true

private def areProperties : List Value → Bool
  | [] => true
  | item :: rest => isProperty item && areProperties rest

private def areEntries : List (Value × Value) → Bool
  | [] => true
  | (.text _, value) :: rest => isProperty value && areEntries rest
  | _ :: _ => false

end

theorem isProperty_list_iff {items : List Value} :
    (list items).isProperty = true ↔ ∀ item ∈ items, item.isProperty = true := by
  rw [isProperty]
  induction items with
  | nil => simp [areProperties]
  | cons item rest ih => rw [areProperties, Bool.and_eq_true, ih, List.forall_mem_cons]

theorem isProperty_map_iff {entries : List (Value × Value)} :
    (map entries).isProperty = true ↔
      ∀ entry ∈ entries, (∃ key, entry.1 = .text key) ∧ entry.2.isProperty = true := by
  rw [isProperty]
  induction entries with
  | nil => simp [areEntries]
  | cons entry rest ih =>
    obtain ⟨key, value⟩ := entry
    rw [List.forall_mem_cons, ← ih]
    cases key with
    | text s => simp [areEntries]
    | _ => simp [areEntries]

def maxId : Int := 0xFFFFFFFFFFFFFFFF

/-- The value as an id: a whole number, and not a boolean, that fits sixty-four bits. -/
def toId? : Value → Option Int
  | .int i => if 0 ≤ i ∧ i ≤ maxId then some i else none
  | _ => none

theorem toId?_eq_some_iff {v : Value} {i : Int} :
    v.toId? = some i ↔ v = .int i ∧ 0 ≤ i ∧ i ≤ maxId := by
  cases v with
  | int j =>
    rw [toId?, Value.int.injEq]
    split
    · next hbounds =>
      rw [Option.some.injEq]
      exact ⟨fun h => ⟨h, h ▸ hbounds⟩, fun h => h.1⟩
    · next hbounds => exact ⟨nofun, fun h => absurd (h.1 ▸ h.2) hbounds⟩
  | _ => exact ⟨nofun, fun h => nomatch h.1⟩

end Value

end EdgeMapper
