import EdgeMapper.Failure
/-!
# Records

The structural records in which a server sends nodes and relationships. Decoding accepts exactly the
well-formed ones and says of any other value what is wrong with it first. Fields beyond the known
ones are ignored.
-/

namespace EdgeMapper

structure NodeRecord where
  id : Int
  labels : List String
  properties : OrderedMap String Value
  deriving DecidableEq

structure EdgeRecord where
  id : Int
  start : Int
  finish : Int
  label : String
  properties : OrderedMap String Value
  deriving DecidableEq

namespace NodeRecord

def signature : Nat := 78

private def texts? : List Value → Option (List String)
  | [] => some []
  | .text s :: rest => (texts? rest).map (s :: ·)
  | _ :: _ => none

/-- A list of texts, and no other sequence. -/
def labels? : Value → Option (List String)
  | .list items => texts? items
  | _ => none

private def ofFields (id labels properties : Value) : Except RecordFault NodeRecord :=
  match id.toId? with
  | none => .error (.badNodeId id)
  | some i =>
    match labels? labels with
    | none => .error (.badLabels labels)
    | some ls =>
      match properties.properties? with
      | none => .error (.badProperties .node properties)
      | some ps => .ok ⟨i, ls, ps⟩

def ofValue (value : Value) : Except RecordFault NodeRecord :=
  match value with
  | .record tag fields =>
    if tag = signature then
      match fields with
      | id :: labels :: properties :: _ => ofFields id labels properties
      | _ => .error (.tooShort .node 3 fields.length)
    else .error (.notRecord .node value)
  | _ => .error (.notRecord .node value)

private theorem texts?_eq_some_iff {items : List Value} {texts : List String} :
    texts? items = some texts ↔ items = texts.map .text := by
  induction items generalizing texts with
  | nil =>
    rw [texts?, Option.some.injEq]
    exact ⟨fun h => h ▸ rfl, fun h => (List.map_eq_nil_iff.mp h.symm).symm⟩
  | cons item rest ih =>
    cases item with
    | text s =>
      rw [texts?, Option.map_eq_some_iff]
      constructor
      · rintro ⟨more, hmore, rfl⟩
        rw [ih.mp hmore]
        rfl
      · intro h
        cases texts with
        | nil => cases h
        | cons t more =>
          obtain ⟨htext, hmore⟩ := List.cons.inj h
          exact ⟨more, ih.mpr hmore, by rw [Value.text.inj htext]⟩
    | _ => exact ⟨nofun, fun h => by cases texts <;> cases h⟩

private theorem labels?_eq_some_iff {value : Value} {labels : List String} :
    labels? value = some labels ↔ value = .list (labels.map .text) := by
  cases value with
  | list items => rw [labels?, texts?_eq_some_iff, Value.list.injEq]
  | _ => exact ⟨nofun, nofun⟩

private theorem ofFields_eq_ok_iff {id labels properties : Value} {r : NodeRecord} :
    ofFields id labels properties = .ok r ↔
      id.toId? = some r.id ∧ labels? labels = some r.labels ∧
        properties.properties? = some r.properties := by
  unfold ofFields
  cases id.toId? with
  | none => exact ⟨nofun, nofun⟩
  | some i =>
    cases labels? labels with
    | none => exact ⟨nofun, nofun⟩
    | some ls =>
      cases properties.properties? with
      | none => exact ⟨nofun, nofun⟩
      | some ps =>
        obtain ⟨j, ms, qs⟩ := r
        simp

/-- A record that can be decoded has the known fields, each of its kind, and such a record can. -/
theorem ofValue_eq_ok_iff {value : Value} {r : NodeRecord} :
    ofValue value = .ok r ↔ ∃ properties rest,
      value = .record signature (.int r.id :: .list (r.labels.map .text) :: properties :: rest) ∧
      (0 ≤ r.id ∧ r.id ≤ Value.maxId) ∧ properties.properties? = some r.properties := by
  constructor
  · intro h
    unfold ofValue at h
    split at h
    · split at h
      · next htag =>
          split at h
          · obtain ⟨hid, hlabels, hproperties⟩ := ofFields_eq_ok_iff.mp h
            obtain ⟨rfl, hrange⟩ := Value.toId?_eq_some_iff.mp hid
            obtain rfl := labels?_eq_some_iff.mp hlabels
            exact ⟨_, _, by rw [htag], hrange, hproperties⟩
          · cases h
      · cases h
    · cases h
  · rintro ⟨properties, rest, rfl, hrange, hproperties⟩
    exact ofFields_eq_ok_iff.mpr ⟨Value.toId?_eq_some_iff.mpr ⟨rfl, hrange⟩,
      labels?_eq_some_iff.mpr rfl, hproperties⟩

/-- What is shown of a value that is no record of a node: the first of its parts that is not as it should
be, and the whole value if it is another thing altogether. -/
inductive Shows : Value → Option Value → Prop where
  | whole {value : Value} (h : ∀ fields, value ≠ .record signature fields) : Shows value (some value)
  | nothing {fields : List Value} (h : fields.length < 3) : Shows (.record signature fields) none
  | id {id labels properties : Value} {rest : List Value} (h : id.toId? = none) :
    Shows (.record signature (id :: labels :: properties :: rest)) (some id)
  | labels {id labels properties : Value} {rest : List Value} (hid : id.toId? ≠ none)
    (h : labels? labels = none) :
    Shows (.record signature (id :: labels :: properties :: rest)) (some labels)
  | properties {id labels properties : Value} {rest : List Value} (hid : id.toId? ≠ none)
    (hlabels : labels? labels ≠ none) (h : properties.properties? = none) :
    Shows (.record signature (id :: labels :: properties :: rest)) (some properties)

private theorem shows_of_ofFields {id labels properties : Value} {fault : RecordFault}
    (h : ofFields id labels properties = .error fault) (rest : List Value) :
    Shows (.record signature (id :: labels :: properties :: rest)) fault.shown? := by
  unfold ofFields at h
  split at h
  · next hid =>
      cases h
      exact .id hid
  · next i hid =>
      have hsome : id.toId? ≠ none := by simp [hid]
      split at h
      · next hlabels =>
          cases h
          exact .labels hsome hlabels
      · next texts hlabels =>
          split at h
          · next hproperties =>
              cases h
              exact .properties hsome (by simp [hlabels]) hproperties
          · cases h

theorem shows_of_ofValue {value : Value} {fault : RecordFault} (h : ofValue value = .error fault) :
    Shows value fault.shown? := by
  unfold ofValue at h
  split at h
  · next tag fields =>
      split at h
      · next htag =>
          subst htag
          split at h
          · exact shows_of_ofFields h _
          · next hfew =>
              cases h
              match fields with
              | [] => exact .nothing (by simp)
              | [_] => exact .nothing (by simp)
              | [_, _] => exact .nothing (by simp)
              | _ :: _ :: _ :: _ => exact absurd rfl (hfew _ _ _ _)
      · next htag =>
          cases h
          exact .whole fun _ hrecord => htag (Value.record.inj hrecord).1
  · next hother =>
      cases h
      exact .whole fun _ => hother _ _

theorem Shows.isWritable {value : Value} {shown : Option Value} (h : Shows value shown)
    (hvalue : Literal.isWritable value = true) : shown.all Literal.isWritable = true := by
  cases h with
  | whole _ => exact hvalue
  | nothing _ => rfl
  | id _ => exact Literal.isWritable_record_iff.mp hvalue _ (by simp)
  | labels _ _ => exact Literal.isWritable_record_iff.mp hvalue _ (by simp)
  | properties _ _ _ => exact Literal.isWritable_record_iff.mp hvalue _ (by simp)

end NodeRecord

namespace EdgeRecord

def signature : Nat := 82

private def ofFields (id start finish label properties : Value) : Except RecordFault EdgeRecord :=
  match id.toId?, start.toId?, finish.toId? with
  | some i, some s, some f =>
    match label with
    | .text l =>
      match properties.properties? with
      | some ps => .ok ⟨i, s, f, l, ps⟩
      | none => .error (.badProperties .relationship properties)
    | _ => .error (.badLabel label)
  | _, _, _ => .error (.badIds [id, start, finish])

def ofValue (value : Value) : Except RecordFault EdgeRecord :=
  match value with
  | .record tag fields =>
    if tag = signature then
      match fields with
      | id :: start :: finish :: label :: properties :: _ =>
        ofFields id start finish label properties
      | _ => .error (.tooShort .relationship 5 fields.length)
    else .error (.notRecord .relationship value)
  | _ => .error (.notRecord .relationship value)

private theorem ofFields_eq_ok_iff {id start finish label properties : Value} {r : EdgeRecord} :
    ofFields id start finish label properties = .ok r ↔
      id.toId? = some r.id ∧ start.toId? = some r.start ∧ finish.toId? = some r.finish ∧
        label = .text r.label ∧ properties.properties? = some r.properties := by
  unfold ofFields
  cases id.toId? with
  | none => exact ⟨nofun, nofun⟩
  | some i =>
    cases start.toId? with
    | none => exact ⟨nofun, nofun⟩
    | some s =>
      cases finish.toId? with
      | none => exact ⟨nofun, nofun⟩
      | some f =>
        cases label with
        | text l =>
          cases properties.properties? with
          | none => exact ⟨nofun, nofun⟩
          | some ps =>
            obtain ⟨j, t, g, m, qs⟩ := r
            simp
        | _ => exact ⟨nofun, nofun⟩

theorem ofValue_eq_ok_iff {value : Value} {r : EdgeRecord} :
    ofValue value = .ok r ↔ ∃ properties rest,
      value = .record signature
        (.int r.id :: .int r.start :: .int r.finish :: .text r.label :: properties :: rest) ∧
      (∀ i ∈ [r.id, r.start, r.finish], 0 ≤ i ∧ i ≤ Value.maxId) ∧
      properties.properties? = some r.properties := by
  simp only [List.forall_mem_cons, List.not_mem_nil, false_implies, implies_true, and_true]
  constructor
  · intro h
    unfold ofValue at h
    split at h
    · split at h
      · next htag =>
          split at h
          · obtain ⟨hid, hstart, hfinish, rfl, hproperties⟩ := ofFields_eq_ok_iff.mp h
            obtain ⟨rfl, hidRange⟩ := Value.toId?_eq_some_iff.mp hid
            obtain ⟨rfl, hstartRange⟩ := Value.toId?_eq_some_iff.mp hstart
            obtain ⟨rfl, hfinishRange⟩ := Value.toId?_eq_some_iff.mp hfinish
            exact ⟨_, _, by rw [htag], ⟨hidRange, hstartRange, hfinishRange⟩, hproperties⟩
          · cases h
      · cases h
    · cases h
  · rintro ⟨properties, rest, rfl, ⟨hid, hstart, hfinish⟩, hproperties⟩
    exact ofFields_eq_ok_iff.mpr ⟨Value.toId?_eq_some_iff.mpr ⟨rfl, hid⟩,
      Value.toId?_eq_some_iff.mpr ⟨rfl, hstart⟩, Value.toId?_eq_some_iff.mpr ⟨rfl, hfinish⟩, rfl,
      hproperties⟩

/-- What is shown of a value that is no record of a relationship. Of the ids none is shown without the
others. -/
inductive Shows : Value → Option Value → Prop where
  | whole {value : Value} (h : ∀ fields, value ≠ .record signature fields) : Shows value (some value)
  | nothing {fields : List Value} (h : fields.length < 5) : Shows (.record signature fields) none
  | ids {id start finish label properties : Value} {rest : List Value}
    (h : ∃ v ∈ [id, start, finish], v.toId? = none) :
    Shows (.record signature (id :: start :: finish :: label :: properties :: rest))
      (some (.list [id, start, finish]))
  | label {id start finish label properties : Value} {rest : List Value}
    (hids : ∀ v ∈ [id, start, finish], v.toId? ≠ none) (h : ∀ text, label ≠ .text text) :
    Shows (.record signature (id :: start :: finish :: label :: properties :: rest)) (some label)
  | properties {id start finish properties : Value} {label : String} {rest : List Value}
    (hids : ∀ v ∈ [id, start, finish], v.toId? ≠ none) (h : properties.properties? = none) :
    Shows (.record signature (id :: start :: finish :: .text label :: properties :: rest))
      (some properties)

private theorem shows_of_ofFields {id start finish label properties : Value} {fault : RecordFault}
    (h : ofFields id start finish label properties = .error fault) (rest : List Value) :
    Shows (.record signature (id :: start :: finish :: label :: properties :: rest)) fault.shown? := by
  unfold ofFields at h
  split at h
  · next i s f hid hstart hfinish =>
      have hids : ∀ v ∈ [id, start, finish], v.toId? ≠ none := by simp [hid, hstart, hfinish]
      split at h
      · split at h
        · cases h
        · next hproperties =>
            cases h
            exact .properties hids hproperties
      · next hlabel =>
          cases h
          exact .label hids hlabel
  · next hnone =>
      cases h
      refine .ids (Classical.byContradiction fun hall => ?_)
      have hsome : ∀ v ∈ [id, start, finish], ∃ i, v.toId? = some i := fun v hv =>
        Option.ne_none_iff_exists'.mp fun hv' => hall ⟨v, hv, hv'⟩
      simp only [List.forall_mem_cons] at hsome
      obtain ⟨⟨i, hid⟩, ⟨s, hstart⟩, ⟨f, hfinish⟩, _⟩ := hsome
      exact hnone i s f hid hstart hfinish

theorem shows_of_ofValue {value : Value} {fault : RecordFault} (h : ofValue value = .error fault) :
    Shows value fault.shown? := by
  unfold ofValue at h
  split at h
  · next tag fields =>
      split at h
      · next htag =>
          subst htag
          split at h
          · exact shows_of_ofFields h _
          · next hfew =>
              cases h
              match fields with
              | [] => exact .nothing (by simp)
              | [_] => exact .nothing (by simp)
              | [_, _] => exact .nothing (by simp)
              | [_, _, _] => exact .nothing (by simp)
              | [_, _, _, _] => exact .nothing (by simp)
              | _ :: _ :: _ :: _ :: _ :: _ => exact absurd rfl (hfew _ _ _ _ _ _)
      · next htag =>
          cases h
          exact .whole fun _ hrecord => htag (Value.record.inj hrecord).1
  · next hother =>
      cases h
      exact .whole fun _ => hother _ _

theorem Shows.isWritable {value : Value} {shown : Option Value} (h : Shows value shown)
    (hvalue : Literal.isWritable value = true) : shown.all Literal.isWritable = true := by
  cases h with
  | whole _ => exact hvalue
  | nothing _ => rfl
  | ids _ =>
      refine Literal.isWritable_list_iff.mpr fun v hv => Literal.isWritable_record_iff.mp hvalue v ?_
      exact List.mem_of_mem_take (i := 3) hv
  | label _ _ => exact Literal.isWritable_record_iff.mp hvalue _ (by simp)
  | properties _ _ => exact Literal.isWritable_record_iff.mp hvalue _ (by simp)

end EdgeRecord

end EdgeMapper
