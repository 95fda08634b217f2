import EdgeMapper.Session
/-!
# What can be decoded

A server sends entities as records. Decoding takes such a value apart by itself, one check after another,
and what is made from its parts goes through the lenient readers that all input goes through. Here the
shape of a record is said without any of these checks: a value can be decoded exactly if it has this shape;
the lenient readers then find nothing to refuse and nothing to change. Every other value leaves everything
as it was and fails in one way, unless a number in it is too long to be written.
-/

namespace EdgeMapper

namespace Value

/-- The first value is found in the second at some depth, through lists and maps alone: no record is
opened. -/
inductive Inside (u : Value) : Value → Prop where
  | self : Inside u u
  | item {items : List Value} {item : Value} (h : item ∈ items) (hrest : Inside u item) :
    Inside u (.list items)
  | value {entries : List (Value × Value)} {entry : Value × Value} (h : entry ∈ entries)
    (hrest : Inside u entry.2) : Inside u (.map entries)

inductive Permitted : Value → Prop where
  | null : Permitted .null
  | bool (b : Bool) : Permitted (.bool b)
  | int (i : Int) : Permitted (.int i)
  | float (x : Binary64) : Permitted (.float x)
  | text (s : String) : Permitted (.text s)
  | record (signature : Nat) (fields : List Value) : Permitted (.record signature fields)
  | list (items : List Value) : Permitted (.list items)
  | map {entries : List (Value × Value)} (h : ∀ entry ∈ entries, ∃ key, entry.1 = .text key) :
    Permitted (.map entries)

/-- The value is a map of property values. In a map with these entries they keep their order, and no key
is lost unless one is repeated. -/
structure Lists (v : Value) (entries : List (String × Value)) (properties : OrderedMap String Value) :
    Prop where
  map : v = .map (entries.map fun entry => (.text entry.1, entry.2))
  permitted : ∀ u, Inside u v → u.Permitted
  contents : properties = .ofList entries
  ordered : (entries.map Prod.fst).Nodup → properties.entries = entries

end Value

def EdgeRecord.Encodes (r : EdgeRecord) (value : Value) : Prop :=
  ∃ properties rest,
    value = .record 82
      (.int r.id :: .int r.start :: .int r.finish :: .text r.label :: properties :: rest) ∧
    (∀ i ∈ [r.id, r.start, r.finish], 0 ≤ i ∧ i ≤ Value.maxId) ∧
    ∃ entries, properties.Lists entries r.properties

def NodeRecord.Encodes (r : NodeRecord) (value : Value) : Prop :=
  ∃ properties rest,
    value = .record 78 (.int r.id :: .list (r.labels.map .text) :: properties :: rest) ∧
    (0 ≤ r.id ∧ r.id ≤ Value.maxId) ∧ ∃ entries, properties.Lists entries r.properties

/-- The edge is what the record says, and nothing has been attached to it or changed in it yet. -/
structure Edge.Decoded (e : Edge) (r : EdgeRecord) (value : Value) : Prop where
  id : e.id = some r.id
  start : e.start = ⟨r.start, none⟩
  finish : e.finish = ⟨r.finish, none⟩
  label : e.label = r.label
  direction : e.direction = .forward
  ledger : e.ledger = { current := r.properties, pending := ∅, removed := [], modified := false }
  /-- From the same fields lenient reading makes the same edge. -/
  lenient : ∀ id start finish label properties rest,
    value = .record 82 (id :: start :: finish :: label :: properties :: rest) →
    id.readId = .ok r.id ∧
      Edge.ofIds e.created e.updated (some start) (some finish) (some label) none (some properties) =
        .ok { e with id := none }

structure Node.Decoded (n : Node) (r : NodeRecord) (value : Value) : Prop where
  id : n.id = some r.id
  labels : n.labels = r.labels
  ledger : n.ledger = { current := r.properties, pending := ∅, removed := [], modified := false }
  lenient : ∀ id labels properties rest, value = .record 78 (id :: labels :: properties :: rest) →
    Node.ofInput n.created (some id) (some labels) (some properties) = .ok n

/-- What comes of decoding a value: with the right contents it is accepted, and then holds them;
otherwise nothing has changed, and it is said to be no record if what is shown of it can be written. -/
structure Decoding {ρ : Type} (Encodes : ρ → Value → Prop) (Shows : Value → Option Value → Prop)
    (Holds : ρ → Session → Prop) (value : Value) (s : Session)
    (outcome : Except Failure Unit × Session) : Prop where
  accepted : outcome.1 = .ok () ↔ ∃ r, Encodes r value
  holds : ∀ r, Encodes r value → Holds r outcome.2
  rejected : outcome.1 ≠ .ok () →
    ∃ fault, Shows value fault.shown? ∧ outcome = (.error (Failure.badRecord fault).told, s)
  /-- Only a number that is too long can keep the failure from being told. -/
  named : Literal.isWritable value = true → outcome.1 ≠ .error .overlong

/-! ## Property values -/

namespace Value

variable {u v : Value}

theorem Permitted.of_isProperty (h : v.isProperty = true) : v.Permitted := by
  cases v with
  | null => exact .null
  | bool b => exact .bool b
  | int i => exact .int i
  | float x => exact .float x
  | text s => exact .text s
  | record signature fields => exact .record signature fields
  | list items => exact .list items
  | map entries => exact .map fun entry hentry => (isProperty_map_iff.mp h entry hentry).1
  | tuple items => cases h
  | set items => cases h
  | bytes content => cases h
  | foreign text => cases h

theorem Inside.isProperty (hinside : Inside u v) (h : v.isProperty = true) : u.isProperty = true := by
  induction hinside with
  | self => exact h
  | item hitem _ ih => exact ih (isProperty_list_iff.mp h _ hitem)
  | value hentry _ ih => exact ih (isProperty_map_iff.mp h _ hentry).2

theorem sizeOf_item_lt {items : List Value} {item : Value} (h : item ∈ items) :
    sizeOf item < sizeOf (list items) :=
  Nat.lt_of_lt_of_le (List.sizeOf_lt_of_mem h) (by simp)

theorem sizeOf_value_lt {entries : List (Value × Value)} {entry : Value × Value}
    (h : entry ∈ entries) : sizeOf entry.2 < sizeOf (map entries) :=
  calc sizeOf entry.2 < sizeOf entry := by cases entry; simp only [Prod.mk.sizeOf_spec]; omega
    _ < sizeOf entries := List.sizeOf_lt_of_mem h
    _ ≤ sizeOf (map entries) := by simp

theorem isProperty_of_inside : ∀ v : Value, (∀ u, Inside u v → u.Permitted) → v.isProperty = true
  | .list items, h =>
      isProperty_list_iff.mpr fun item hitem =>
        isProperty_of_inside item fun u hu => h u (.item hitem hu)
  | .map entries, h =>
      isProperty_map_iff.mpr fun entry hentry =>
        have hkey : ∃ key, entry.1 = .text key := by
          cases h _ .self with
          | map hkeys => exact hkeys entry hentry
        ⟨hkey, isProperty_of_inside entry.2 fun u hu => h u (.value hentry hu)⟩
  | .null, _ => rfl
  | .bool _, _ => rfl
  | .int _, _ => rfl
  | .float _, _ => rfl
  | .text _, _ => rfl
  | .record _ _, _ => rfl
  | .tuple _, h => nomatch h _ .self
  | .set _, h => nomatch h _ .self
  | .bytes _, h => nomatch h _ .self
  | .foreign _, h => nomatch h _ .self
termination_by v => sizeOf v
decreasing_by
  · exact sizeOf_item_lt hitem
  · exact sizeOf_value_lt hentry

theorem isProperty_iff_inside : v.isProperty = true ↔ ∀ u, Inside u v → u.Permitted :=
  ⟨fun h _ hinside => .of_isProperty (hinside.isProperty h), isProperty_of_inside v⟩

theorem exists_texts {entries : List (Value × Value)}
    (h : ∀ entry ∈ entries, ∃ key, entry.1 = .text key) :
    ∃ named : List (String × Value), entries = named.map fun entry => (.text entry.1, entry.2) := by
  induction entries with
  | nil => exact ⟨[], rfl⟩
  | cons entry rest ih =>
      obtain ⟨⟨key, hkey⟩, hrest⟩ := List.forall_mem_cons.mp h
      obtain ⟨named, rfl⟩ := ih hrest
      exact ⟨(key, entry.2) :: named, by rw [List.map_cons, ← hkey]⟩

theorem properties?_eq_some_iff {properties : OrderedMap String Value} :
    v.properties? = some properties ↔ ∃ entries, v.Lists entries properties := by
  constructor
  · intro h
    rw [properties?] at h
    split at h
    · next hproperty =>
        cases v with
        | map entries =>
            obtain ⟨named, rfl⟩ := exists_texts fun entry hentry =>
              (isProperty_map_iff.mp hproperty entry hentry).1
            rw [readMap_texts] at h
            obtain rfl := Option.some.inj h
            exact ⟨named, rfl, isProperty_iff_inside.mp hproperty, rfl, OrderedMap.entries_ofList⟩
        | _ => cases h
    · cases h
  · rintro ⟨entries, rfl, hpermitted, rfl, _⟩
    rw [properties?, if_pos (isProperty_iff_inside.mpr hpermitted), readMap_texts]
    rfl

end Value

/-! ## Records -/

theorem EdgeRecord.ofValue_eq_ok_iff_encodes {value : Value} {r : EdgeRecord} :
    EdgeRecord.ofValue value = .ok r ↔ r.Encodes value := by
  simp only [EdgeRecord.ofValue_eq_ok_iff, Value.properties?_eq_some_iff]
  rfl

theorem NodeRecord.ofValue_eq_ok_iff_encodes {value : Value} {r : NodeRecord} :
    NodeRecord.ofValue value = .ok r ↔ r.Encodes value := by
  simp only [NodeRecord.ofValue_eq_ok_iff, Value.properties?_eq_some_iff]
  rfl

theorem Edge.decoded_ofRecord {value : Value} {r : EdgeRecord} (h : r.Encodes value)
    (created updated : Instant) : (Edge.ofRecord created updated r).Decoded r value where
  id := rfl
  start := rfl
  finish := rfl
  label := rfl
  direction := rfl
  ledger := rfl
  lenient id start finish label properties rest hvalue := by
    obtain ⟨_, _, hencoded, hrange, entries, hmap, _, hcontents, _⟩ := h
    simp only [List.forall_mem_cons] at hrange
    obtain ⟨hid, hstart, hfinish, _⟩ := hrange
    cases hvalue.symm.trans hencoded
    subst hmap
    refine ⟨Value.readId_int hid, ?_⟩
    rw [Edge.ofIds_of_kinds _ _ _ _ hstart hfinish, ← hcontents]
    rfl

theorem Node.decoded_ofRecord {value : Value} {r : NodeRecord} (h : r.Encodes value)
    (created : Instant) : (Node.ofRecord created r).Decoded r value where
  id := rfl
  labels := rfl
  ledger := rfl
  lenient id labels properties rest hvalue := by
    obtain ⟨_, _, hencoded, hrange, entries, hmap, _, hcontents, _⟩ := h
    cases hvalue.symm.trans hencoded
    subst hmap
    simp only [Node.ofInput, Value.readProperties, Reading.withDefault, Value.readMap_texts,
      Value.readOptional, Value.readId_int hrange, Value.readTexts_list, ← hcontents]
    rfl

theorem decoding_of_iff {ρ : Type} {decode : Value → Except RecordFault ρ}
    {Encodes : ρ → Value → Prop} {Shows : Value → Option Value → Prop} {Holds : ρ → Session → Prop}
    {value : Value} {s : Session} {outcome : Except Failure Unit × Session}
    (hdecode : ∀ r, decode value = .ok r ↔ Encodes r value)
    (hok : ∀ r, decode value = .ok r → outcome.1 = .ok () ∧ Holds r outcome.2)
    (herror : ∀ fault, decode value = .error fault →
      outcome = (.error (Failure.badRecord fault).told, s))
    (hshows : ∀ fault, decode value = .error fault → Shows value fault.shown?)
    (hwritable : ∀ shown, Shows value shown → Literal.isWritable value = true →
      shown.all Literal.isWritable = true) :
    Decoding Encodes Shows Holds value s outcome := by
  cases hvalue : decode value with
  | ok r =>
      obtain ⟨haccepted, hholds⟩ := hok r hvalue
      refine ⟨⟨fun _ => ⟨r, (hdecode r).mp hvalue⟩, fun _ => haccepted⟩, fun other hother => ?_,
        fun h => absurd haccepted h, fun _ => haccepted ▸ nofun⟩
      obtain rfl := Except.ok.inj (hvalue.symm.trans ((hdecode other).mpr hother))
      exact hholds
  | error fault =>
      obtain rfl := herror fault hvalue
      have hnone (r : ρ) : ¬ Encodes r value := fun h => by cases hvalue.symm.trans ((hdecode r).mpr h)
      refine ⟨⟨nofun, fun ⟨r, hr⟩ => absurd hr (hnone r)⟩, fun r hr => absurd hr (hnone r),
        fun _ => ⟨fault, hshows fault hvalue, rfl⟩, fun h => ?_⟩
      have hfault : (Failure.badRecord fault).isWritable = true := hwritable _ (hshows fault hvalue) h
      rw [Failure.told_of_writable hfault]
      nofun

/-- A value can be decoded exactly if it is a record of the right shape. What is decoded has the contents
of the record and no changes, and the lenient readers agree with it. Any other value changes nothing and is
said to be no record, by the first of its parts that is not as it should be, unless that part is too long to
be written. -/
theorem records_decode_iff_well_formed (name : String) (value : Value) (s : Session) :
    Decoding EdgeRecord.Encodes EdgeRecord.Shows (fun r s' => ∃ e clock, e.Decoded r value ∧
        s' = { s with workspace := { s.workspace with clock := clock }.putEdge name e })
      value s (SessionTask.decodeEdge name value s) ∧
    Decoding NodeRecord.Encodes NodeRecord.Shows (fun r s' => ∃ n clock, n.Decoded r value ∧
        s' = { s with
          workspace := { s.workspace with clock := clock, nodes := s.workspace.nodes ++ [n] },
          nodeNames := s.nodeNames.insert name ⟨s.workspace.nodes.length⟩ })
      value s (SessionTask.decodeNode name value s) := by
  constructor
  · refine decoding_of_iff (fun _ => EdgeRecord.ofValue_eq_ok_iff_encodes) (fun r hr => ?_)
      (fun fault hfault => ?_) (fun _ => EdgeRecord.shows_of_ofValue) fun _ => EdgeRecord.Shows.isWritable
    · simp only [SessionTask.decodeEdge, hr]
      exact ⟨rfl, _, _, Edge.decoded_ofRecord (EdgeRecord.ofValue_eq_ok_iff_encodes.mp hr) _ _, rfl⟩
    · simp only [SessionTask.decodeEdge, hfault]
      rfl
  · refine decoding_of_iff (fun _ => NodeRecord.ofValue_eq_ok_iff_encodes) (fun r hr => ?_)
      (fun fault hfault => ?_) (fun _ => NodeRecord.shows_of_ofValue) fun _ => NodeRecord.Shows.isWritable
    · simp only [SessionTask.decodeNode, hr]
      exact ⟨rfl, _, _, Node.decoded_ofRecord (NodeRecord.ofValue_eq_ok_iff_encodes.mp hr) _, rfl⟩
    · simp only [SessionTask.decodeNode, hfault]
      rfl

/-- A number that is too long to be written is no record, but the failure does not say so. -/
theorem overlong_number_decoded_without_a_reason :
    ∃ s : Session,
      (¬ ∃ r : EdgeRecord, r.Encodes (.int Numeral.tooLong)) ∧
      SessionTask.decodeEdge "knows" (.int Numeral.tooLong) s = (.error .overlong, s) ∧
      (¬ ∃ r : NodeRecord, r.Encodes (.int Numeral.tooLong)) ∧
      SessionTask.decodeNode "knows" (.int Numeral.tooLong) s = (.error .overlong, s) := by
  have htold (kind : RecordKind) :
      (Failure.badRecord (.notRecord kind (.int Numeral.tooLong))).told = .overlong :=
    Failure.told_of_not_writable Numeral.isShort_tooLong
  refine ⟨{}, ?_, ?_, ?_, ?_⟩
  · rintro ⟨_, _, _, hvalue, _⟩
    cases hvalue
  · simp only [SessionTask.decodeEdge, EdgeRecord.ofValue, htold]
    rfl
  · rintro ⟨_, _, _, hvalue, _⟩
    cases hvalue
  · simp only [SessionTask.decodeNode, NodeRecord.ofValue, htold]
    rfl

end EdgeMapper
