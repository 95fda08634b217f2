import EdgeMapper.Edge
/-!
# The same edge, later

Whatever is done to an edge, it stays the edge between the same two nodes; an id that it has got is
kept, and so is a node that was attached to an endpoint. An id that was checked lies within sixty-four
bits. The lemmas say so for every operation on one edge.
-/

namespace EdgeMapper

namespace Edge

/-- The edge as it can have become later. -/
structure Continues (e e' : Edge) : Prop where
  id : ∀ i, e.id = some i → e'.id = some i
  start : e.start.Later e'.start
  finish : e.finish.Later e'.finish

def IdInRange (e : Edge) : Prop := ∀ i, e.id = some i → 0 ≤ i ∧ i ≤ Value.maxId

inductive Built : Edge → Int → Int → Prop where
  | ofIds {created updated : Instant} {from_ to_ : Value} {start finish : Int}
    {label direction properties : Option Value} {e : Edge} (hstart : from_.readId = .ok start)
    (hfinish : to_.readId = .ok finish)
    (h : Edge.ofIds created updated (some from_) (some to_) label direction properties = .ok e) :
    Built e start finish
  | between {created updated : Instant} {from_ to_ : NodeRef × Node} {start finish : Int}
    {label direction properties : Option Value} {e : Edge} (hstart : from_.2.id = some start)
    (hfinish : to_.2.id = some finish)
    (h : Edge.between created updated from_ to_ label direction properties = .ok e) :
    Built e start finish
  | decoded {created updated : Instant} {value : Value} {record : EdgeRecord}
    (h : EdgeRecord.ofValue value = .ok record) :
    Built (Edge.ofRecord created updated record) record.start record.finish

/-- What can be done to an edge by hand. -/
inductive Operation where
  /-- An id is assigned directly, whatever it is. -/
  | assign (id : Option Int)
  | adopt (value : Value)
  | resolve (start finish : Option (NodeRef × Node))
  | write (now : Instant) (key : String) (value : Value)
  | relabel (now : Instant) (label : String)
  | turn (direction : Cypher.Direction)
  | markModified
  | commit

def attempt (e : Edge) : Except Failure Edge → Edge × Option Failure
  | .ok e' => (e', none)
  | .error failure => (e, some failure)

def Operation.run (e : Edge) : Operation → Edge × Option Failure
  | assign id => e.attempt (e.assignId id)
  | adopt value => e.attempt (e.adoptId value)
  | resolve start finish => e.resolve start finish
  | write now key value => (e.write now key value, none)
  | relabel now label => (e.relabel now label, none)
  | turn direction => (e.turn direction, none)
  | markModified => (e.markModified, none)
  | commit => (e.commit, none)

variable {e e' e'' : Edge}

theorem Continues.refl (e : Edge) : e.Continues e := ⟨fun _ h => h, .refl e.start, .refl e.finish⟩

theorem Continues.trans (h : e.Continues e') (h' : e'.Continues e'') : e.Continues e'' :=
  ⟨fun i hi => h'.id i (h.id i hi), h.start.trans h'.start, h.finish.trans h'.finish⟩

theorem continues_of_eq (hid : e'.id = e.id) (hstart : e'.start = e.start)
    (hfinish : e'.finish = e.finish) : e.Continues e' := by
  refine ⟨fun i hi => hid.trans hi, ?_, ?_⟩
  · rw [hstart]
    exact .refl e.start
  · rw [hfinish]
    exact .refl e.finish

theorem continues_resolve (e : Edge) (start finish : Option (NodeRef × Node)) :
    e.Continues (e.resolve start finish).1 := by
  obtain ⟨s, f, hresolved, hstart, hfinish⟩ := e.resolve_later start finish
  rw [hresolved]
  exact ⟨fun _ h => h, hstart, hfinish⟩

/-! ## Ids -/

theorem assignId_cases {id : Option Int} (h : e.assignId id = .ok e') :
    e' = { e with id := id } ∧ ∀ i, e.id = some i → id = some i := by
  unfold assignId at h
  split at h
  · next hnone =>
      refine ⟨(Except.ok.inj h).symm, ?_⟩
      rw [hnone]
      exact nofun
  · next current hcurrent =>
      split at h
      · next hsame =>
          obtain rfl := Except.ok.inj h
          rw [hsame, ← hcurrent]
          exact ⟨rfl, fun _ hi => hi⟩
      · cases h

theorem continues_assignId {id : Option Int} (h : e.assignId id = .ok e') : e.Continues e' := by
  obtain ⟨rfl, hkept⟩ := assignId_cases h
  exact ⟨hkept, .refl e.start, .refl e.finish⟩

theorem adoptId_eq_ok {value : Value} (h : e.adoptId value = .ok e') :
    ∃ i, value.toId? = some i ∧ e.assignId (some i) = .ok e' := by
  unfold adoptId at h
  split at h
  · next i hi => exact ⟨i, hi, h⟩
  · cases h

theorem id_in_range_of_ofValue {value : Value} {record : EdgeRecord}
    (h : EdgeRecord.ofValue value = .ok record) : 0 ≤ record.id ∧ record.id ≤ Value.maxId := by
  obtain ⟨_, _, _, hrange, _⟩ := EdgeRecord.ofValue_eq_ok_iff.mp h
  exact hrange record.id List.mem_cons_self

theorem idInRange_of_assignId {i : Int} (hrange : 0 ≤ i ∧ i ≤ Value.maxId)
    (h : e.assignId (some i) = .ok e') : e'.IdInRange := by
  obtain ⟨rfl, _⟩ := assignId_cases h
  intro j hj
  obtain rfl := Option.some.inj hj
  exact hrange

theorem Built.endpoints {start finish : Int} (h : e.Built start finish) :
    e.start.id = start ∧ e.finish.id = finish := by
  cases h with
  | ofIds hstart hfinish h =>
      obtain ⟨_, hs, hf⟩ := Edge.ofIds_eq_ok h
      exact ⟨Except.ok.inj (hs.symm.trans hstart), Except.ok.inj (hf.symm.trans hfinish)⟩
  | between hstart hfinish h =>
      obtain ⟨_, ⟨hs, _⟩, hf, _⟩ := Edge.between_eq_ok h
      exact ⟨Option.some.inj (hs.symm.trans hstart), Option.some.inj (hf.symm.trans hfinish)⟩
  | decoded h => exact ⟨rfl, rfl⟩

theorem Built.idInRange {start finish : Int} (h : e.Built start finish) : e.IdInRange := by
  cases h with
  | ofIds _ _ h =>
      rw [IdInRange, (Edge.ofIds_eq_ok h).1]
      exact nofun
  | between _ _ h =>
      rw [IdInRange, (Edge.between_eq_ok h).1]
      exact nofun
  | decoded h =>
      intro i hi
      obtain rfl := Option.some.inj hi
      exact id_in_range_of_ofValue h

/-! ## Operations -/

theorem continues_run (e : Edge) (op : Operation) : e.Continues (op.run e).1 := by
  cases op with
  | assign id =>
      rw [Operation.run]
      cases hassigned : e.assignId id with
      | ok e' => exact continues_assignId hassigned
      | error failure => exact .refl e
  | adopt value =>
      rw [Operation.run]
      cases hadopted : e.adoptId value with
      | ok e' =>
          obtain ⟨i, _, hassigned⟩ := adoptId_eq_ok hadopted
          exact continues_assignId hassigned
      | error failure => exact .refl e
  | resolve start finish => exact e.continues_resolve start finish
  | write now key value => exact continues_of_eq rfl rfl rfl
  | relabel now label => exact continues_of_eq rfl rfl rfl
  | turn direction => exact continues_of_eq rfl rfl rfl
  | markModified => exact continues_of_eq rfl rfl rfl
  | commit => exact continues_of_eq rfl rfl rfl

theorem idInRange_run (h : e.IdInRange) {op : Operation} (hop : ∀ id, op ≠ .assign id) :
    (op.run e).1.IdInRange := by
  cases op with
  | assign id => exact absurd rfl (hop id)
  | adopt value =>
      rw [Operation.run]
      cases hadopted : e.adoptId value with
      | ok e' =>
          obtain ⟨i, hi, hassigned⟩ := adoptId_eq_ok hadopted
          exact idInRange_of_assignId (Value.toId?_eq_some_iff.mp hi).2 hassigned
      | error failure => exact h
  | resolve start finish =>
      obtain ⟨s, f, hresolved, _⟩ := e.resolve_later start finish
      rw [Operation.run, hresolved]
      exact h
  | write now key value => exact h
  | relabel now label => exact h
  | turn direction => exact h
  | markModified => exact h
  | commit => exact h

/-- An edge that has an id refuses every other one, and stays as it was. -/
theorem run_assign_other {i : Int} (hid : e.id = some i) {id : Option Int} (hne : id ≠ some i) :
    (Operation.assign id).run e = (e, some (Failure.idAssigned i id).told) := by
  rw [Operation.run, assignId_other hid hne]
  rfl

theorem run_adopt_other {i j : Int} (hid : e.id = some i) (hrange : 0 ≤ j ∧ j ≤ Value.maxId)
    (hne : j ≠ i) :
    (Operation.adopt (.int j)).run e = (e, some (Failure.idAssigned i (some j)).told) := by
  rw [Operation.run, adoptId, Value.toId?_eq_some_iff.mpr ⟨rfl, hrange⟩]
  exact run_assign_other hid fun h => hne (Option.some.inj h)

theorem run_adopt_invalid (e : Edge) {value : Value}
    (h : ∀ j, value = .int j → ¬ (0 ≤ j ∧ j ≤ Value.maxId)) :
    (Operation.adopt value).run e = (e, some (Failure.refused (.notAnId value)).told) := by
  rw [Operation.run, adoptId]
  split
  · next j hj =>
      obtain ⟨hvalue, hrange⟩ := Value.toId?_eq_some_iff.mp hj
      exact absurd hrange (h j hvalue)
  · rfl

end Edge

end EdgeMapper
