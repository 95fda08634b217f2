import EdgeMapper.Cypher.Pattern
import EdgeMapper.Node
/-!
# Edges

A directed, labelled relationship between two nodes. Its endpoint ids never change; the id of the
edge itself is given once, by the server, and then stays; its properties are kept in a ledger, so
that the changes can be written back. The direction only says how the edge is written out, not which
endpoint is which.
-/

namespace EdgeMapper

open Cypher (Direction)

structure NodeRef where
  index : Nat
  deriving DecidableEq, Repr

/-- One end of an edge: the id of a node and, once it has been fetched, the node. -/
structure Endpoint where
  id : Int
  node : Option NodeRef := none
  deriving DecidableEq

namespace Endpoint

/-- The same end of an edge at a later time: a node that was fetched stays, or is fetched again. -/
structure Later (s t : Endpoint) : Prop where
  id : t.id = s.id
  node : s.node ≠ none → t.node ≠ none

theorem Later.refl (s : Endpoint) : s.Later s := ⟨rfl, fun h => h⟩

theorem Later.trans {s t u : Endpoint} (h : s.Later t) (h' : t.Later u) : s.Later u :=
  ⟨h'.id.trans h.id, fun hs => h'.node (h.node hs)⟩

def attach (s : Endpoint) : Option (NodeRef × Node) → Endpoint
  | none => s
  | some (ref, _) => { s with node := some ref }

theorem later_attach (s : Endpoint) (node : Option (NodeRef × Node)) : s.Later (s.attach node) := by
  cases node with
  | none => exact .refl s
  | some p => exact ⟨rfl, fun _ => nofun⟩

/-- There is no node, or it has the id of the endpoint. -/
def Takes (s : Endpoint) (node : Option (NodeRef × Node)) : Prop :=
  ∀ p, node = some p → p.2.id = some s.id

theorem takes_or_differs (s : Endpoint) (node : Option (NodeRef × Node)) :
    s.Takes node ∨ ∃ p, node = some p ∧ p.2.id ≠ some s.id := by
  cases node with
  | none => exact .inl nofun
  | some p =>
      by_cases hid : p.2.id = some s.id
      · refine .inl fun q hq => ?_
        rw [← Option.some.inj hq]
        exact hid
      · exact .inr ⟨p, rfl, hid⟩

end Endpoint

structure Edge where
  id : Option Int := none
  start : Endpoint
  finish : Endpoint
  label : String
  direction : Direction := .forward
  ledger : PropertyLedger := {}
  created : Instant
  updated : Instant
  deriving DecidableEq

namespace Edge

def ofRecord (created updated : Instant) (r : EdgeRecord) : Edge :=
  { id := some r.id, start := { id := r.start }, finish := { id := r.finish }, label := r.label,
    ledger := .ofProperties r.properties, created := created, updated := updated }

private def readDirection (value : Value) : Reading Direction :=
  match value.readText with
  | .ok "forward" => .ok .forward
  | .ok "reverse" => .ok .reverse
  | _ => Reading.reject .notMember

/-- The properties of a new edge: anything vacant means none, and anything that can be taken for a map
will do. -/
private def readProperties (value : Option Value) : Except Failure (OrderedMap String Value) :=
  match value with
  | none => .ok ∅
  | some v =>
    if v.isVacant then .ok ∅
    else
      match v.toMap with
      | .ok m => (Reading.field "properties" m.readMap).mapError .invalid
      | .error fault => .error (.badEntries fault)

private def ofEndpoints (created updated : Instant) (start finish : Endpoint)
    (label direction properties : Option Value) : Except Failure Edge :=
  match readProperties properties with
  | .error failure => .error failure
  | .ok ps =>
    ((Reading.both (Reading.required "label" Value.readText label)
      (Reading.withDefault "direction" .forward readDirection direction)).map fun (l, d) =>
        { start := start, finish := finish, label := l, direction := d,
          ledger := .ofProperties ps, created := created, updated := updated }).mapError .invalid

private def readEndpoint (id : Option Value) : Except Failure Endpoint :=
  ((Reading.required "id" Value.readId id).map fun i => { id := i }).mapError .invalid

def ofIds (created updated : Instant) (start finish label direction properties : Option Value) :
    Except Failure Edge :=
  match readEndpoint start with
  | .error failure => .error failure
  | .ok s =>
    match readEndpoint finish with
    | .error failure => .error failure
    | .ok f => ofEndpoints created updated s f label direction properties

private def endpointOf (ref : NodeRef) (node : Node) : Except Failure Endpoint :=
  match node.id with
  | none => .error (.missingId .endpoint)
  | some i => (readEndpoint (some (.int i))).map fun e => { e with node := some ref }

def between (created updated : Instant) (start finish : NodeRef × Node)
    (label direction properties : Option Value) : Except Failure Edge :=
  match endpointOf start.1 start.2 with
  | .error failure => .error failure
  | .ok s =>
    match endpointOf finish.1 finish.2 with
    | .error failure => .error failure
    | .ok f => ofEndpoints created updated s f label direction properties

private theorem ofEndpoints_eq_ok {created updated : Instant} {start finish : Endpoint}
    {label direction properties : Option Value} {e : Edge}
    (h : ofEndpoints created updated start finish label direction properties = .ok e) :
    e.id = none ∧ e.start = start ∧ e.finish = finish ∧ e.created = created ∧
      e.updated = updated := by
  unfold ofEndpoints at h
  split at h
  · cases h
  · rcases hread : Reading.both (Reading.required "label" Value.readText label)
      (Reading.withDefault "direction" .forward readDirection direction) with issues | ⟨l, d⟩
    · rw [hread] at h
      cases h
    · rw [hread] at h
      obtain rfl := Except.ok.inj h
      exact ⟨rfl, rfl, rfl, rfl, rfl⟩

private theorem readEndpoint_eq_ok {value : Value} {s : Endpoint}
    (h : readEndpoint (some value) = .ok s) : Value.readId value = .ok s.id ∧ s.node = none := by
  cases hread : Value.readId value with
  | error issues =>
      simp only [readEndpoint, Reading.required, Reading.field, Reading.within, hread] at h
      cases h
  | ok i =>
      simp only [readEndpoint, Reading.required, Reading.field, Reading.within, hread] at h
      obtain rfl := Except.ok.inj h
      exact ⟨rfl, rfl⟩

theorem ofIds_eq_ok {created updated : Instant} {start finish : Value}
    {label direction properties : Option Value} {e : Edge}
    (h : ofIds created updated (some start) (some finish) label direction properties = .ok e) :
    e.id = none ∧ Value.readId start = .ok e.start.id ∧ Value.readId finish = .ok e.finish.id := by
  unfold ofIds at h
  split at h
  · cases h
  · next s hs =>
      split at h
      · cases h
      · next f hf =>
          obtain ⟨hid, rfl, rfl, _⟩ := ofEndpoints_eq_ok h
          exact ⟨hid, (readEndpoint_eq_ok hs).1, (readEndpoint_eq_ok hf).1⟩

theorem times_ofIds {created updated : Instant} {start finish label direction properties : Option Value}
    {e : Edge} (h : ofIds created updated start finish label direction properties = .ok e) :
    e.created = created ∧ e.updated = updated := by
  unfold ofIds at h
  split at h
  · cases h
  · split at h
    · cases h
    · obtain ⟨_, _, _, htimes⟩ := ofEndpoints_eq_ok h
      exact htimes

private theorem readProperties_texts (entries : List (String × Value)) :
    readProperties (some (.map (entries.map fun entry => (.text entry.1, entry.2)))) =
      .ok (.ofList entries) := by
  cases entries with
  | nil => rfl
  | cons entry rest =>
      have hvacant : (Value.map ((entry :: rest).map fun entry => (.text entry.1, entry.2))).isVacant =
          false := rfl
      have hmap (es : List (Value × Value)) : (Value.map es).toMap = .ok (.map es) := rfl
      simp only [readProperties, hvacant, hmap, Value.readMap_texts]
      rfl

theorem ofIds_of_kinds (created updated : Instant) {start finish : Int} (label : String)
    (entries : List (String × Value)) (hstart : 0 ≤ start ∧ start ≤ Value.maxId)
    (hfinish : 0 ≤ finish ∧ finish ≤ Value.maxId) :
    ofIds created updated (some (.int start)) (some (.int finish)) (some (.text label)) none
        (some (.map (entries.map fun entry => (.text entry.1, entry.2)))) =
      .ok { start := { id := start }, finish := { id := finish }, label := label,
            ledger := .ofProperties (.ofList entries), created := created, updated := updated } := by
  have hendpoint {i : Int} (hi : 0 ≤ i ∧ i ≤ Value.maxId) :
      readEndpoint (some (.int i)) = .ok { id := i } := by
    simp only [readEndpoint, Reading.required, Value.readId_int hi]
    rfl
  simp only [ofIds, hendpoint hstart, hendpoint hfinish, ofEndpoints, readProperties_texts]
  rfl

private theorem endpointOf_eq_ok {ref : NodeRef} {node : Node} {s : Endpoint}
    (h : endpointOf ref node = .ok s) : node.id = some s.id ∧ s.node = some ref := by
  unfold endpointOf at h
  split at h
  · cases h
  · next i hi =>
      cases hread : readEndpoint (some (.int i)) with
      | error failure =>
          rw [hread] at h
          cases h
      | ok t =>
          rw [hread] at h
          obtain rfl := Except.ok.inj h
          have hid := (readEndpoint_eq_ok hread).1
          simp only [Value.readId, Value.readBounded, Value.readWhole] at hid
          split at hid
          · cases hid
          · split at hid
            · cases hid
            · exact ⟨by rw [hi, Except.ok.inj hid], rfl⟩

theorem between_eq_ok {created updated : Instant} {start finish : NodeRef × Node}
    {label direction properties : Option Value} {e : Edge}
    (h : between created updated start finish label direction properties = .ok e) :
    e.id = none ∧ (start.2.id = some e.start.id ∧ e.start.node = some start.1) ∧
      finish.2.id = some e.finish.id ∧ e.finish.node = some finish.1 := by
  unfold between at h
  split at h
  · cases h
  · next s hs =>
      split at h
      · cases h
      · next f hf =>
          obtain ⟨hid, rfl, rfl, _⟩ := ofEndpoints_eq_ok h
          exact ⟨hid, endpointOf_eq_ok hs, endpointOf_eq_ok hf⟩

theorem times_between {created updated : Instant} {start finish : NodeRef × Node}
    {label direction properties : Option Value} {e : Edge}
    (h : between created updated start finish label direction properties = .ok e) :
    e.created = created ∧ e.updated = updated := by
  unfold between at h
  split at h
  · cases h
  · split at h
    · cases h
    · obtain ⟨_, _, _, htimes⟩ := ofEndpoints_eq_ok h
      exact htimes

/-- Gives the edge an id. One that has an id keeps it: only that very id may be assigned again. -/
def assignId (e : Edge) (id : Option Int) : Except Failure Edge :=
  match e.id with
  | none => .ok { e with id := id }
  | some current =>
    if id = some current then .ok e else .error (Failure.idAssigned current id).told

theorem assignId_own {e : Edge} {i : Int} (h : e.id = none ∨ e.id = some i) :
    e.assignId (some i) = .ok { e with id := some i } := by
  unfold assignId
  rcases h with hnone | hsame
  · rw [hnone]
  · rw [hsame]
    simp only [if_true, ← hsame]

theorem assignId_other {e : Edge} {i : Int} {id : Option Int} (h : e.id = some i)
    (hother : id ≠ some i) : e.assignId id = .error (Failure.idAssigned i id).told := by
  rw [assignId, h]
  exact if_neg hother

def adoptId (e : Edge) (value : Value) : Except Failure Edge :=
  match value.toId? with
  | some id => e.assignId (some id)
  | none => .error (Failure.refused (.notAnId value)).told

private def resolveStart (e : Edge) (ref : NodeRef) (node : Node) : Except Failure Edge :=
  if node.id = some e.start.id then .ok { e with start := { e.start with node := some ref } }
  else .error (Failure.refused (.wrongStart node.id e.start.id)).told

private def resolveFinish (e : Edge) (ref : NodeRef) (node : Node) : Except Failure Edge :=
  if node.id = some e.finish.id then .ok { e with finish := { e.finish with node := some ref } }
  else .error (Failure.refused (.wrongFinish node.id e.finish.id)).told

/-- Attaches fetched nodes to the endpoints, the start first. A node with another id is refused, and
what was attached before it stays attached. -/
def resolve (e : Edge) (start finish : Option (NodeRef × Node)) : Edge × Option Failure :=
  let first := match start with
    | some (ref, node) => e.resolveStart ref node
    | none => .ok e
  match first with
  | .error failure => (e, some failure)
  | .ok e =>
    match finish with
    | none => (e, none)
    | some (ref, node) =>
      match e.resolveFinish ref node with
      | .ok e => (e, none)
      | .error failure => (e, some failure)

section

variable {e : Edge} {start finish : Option (NodeRef × Node)} {p : NodeRef × Node}

private theorem resolve_start (hstart : e.start.Takes start) :
    e.resolve start finish = { e with start := e.start.attach start }.resolve none finish := by
  cases start with
  | none => rfl
  | some p => simp [resolve, resolveStart, hstart p rfl, Endpoint.attach]

theorem resolve_of_takes (hstart : e.start.Takes start) (hfinish : e.finish.Takes finish) :
    e.resolve start finish =
      ({ e with start := e.start.attach start, finish := e.finish.attach finish }, none) := by
  rw [resolve_start hstart]
  cases finish with
  | none => rfl
  | some p => simp [resolve, resolveFinish, hfinish p rfl, Endpoint.attach]

theorem resolve_of_wrong_start (finish : Option (NodeRef × Node)) (h : p.2.id ≠ some e.start.id) :
    e.resolve (some p) finish = (e, some (Failure.refused (.wrongStart p.2.id e.start.id)).told) := by
  simp [resolve, resolveStart, h]

theorem resolve_of_wrong_finish (hstart : e.start.Takes start) (h : p.2.id ≠ some e.finish.id) :
    e.resolve start (some p) =
      ({ e with start := e.start.attach start },
        some (Failure.refused (.wrongFinish p.2.id e.finish.id)).told) := by
  rw [resolve_start hstart]
  simp [resolve, resolveFinish, h]

end

theorem resolve_later (e : Edge) (start finish : Option (NodeRef × Node)) :
    ∃ s f, (e.resolve start finish).1 = { e with start := s, finish := f } ∧
      e.start.Later s ∧ e.finish.Later f := by
  have hsame := Endpoint.Later.refl e.finish
  rcases e.start.takes_or_differs start with hstart | ⟨p, rfl, hother⟩
  · have hlater := e.start.later_attach start
    rcases e.finish.takes_or_differs finish with hfinish | ⟨p, rfl, hother⟩
    · rw [resolve_of_takes hstart hfinish]
      exact ⟨_, _, rfl, hlater, e.finish.later_attach finish⟩
    · rw [resolve_of_wrong_finish hstart hother]
      exact ⟨_, e.finish, rfl, hlater, hsame⟩
  · rw [resolve_of_wrong_start finish hother]
    exact ⟨e.start, e.finish, rfl, .refl e.start, hsame⟩

theorem resolve_fst (e : Edge) (start finish : Option (NodeRef × Node)) :
    ∃ s f, (e.resolve start finish).1 = { e with start := s, finish := f } := by
  obtain ⟨s, f, hresolved, _⟩ := e.resolve_later start finish
  exact ⟨s, f, hresolved⟩

def write (e : Edge) (now : Instant) (key : String) (value : Value) : Edge :=
  { e with ledger := e.ledger.write key value, updated := now }

/-- A new label counts as a change, although no update can write it. -/
def relabel (e : Edge) (now : Instant) (label : String) : Edge :=
  { e with label := label, ledger := e.ledger.markModified, updated := now }

def turn (e : Edge) (direction : Direction) : Edge := { e with direction := direction }

def markModified (e : Edge) : Edge := { e with ledger := e.ledger.markModified }

def commit (e : Edge) : Edge := { e with ledger := e.ledger.commit }

def isDirty (e : Edge) : Bool := e.ledger.isDirty

end Edge

end EdgeMapper
