import EdgeMapper.Edge
/-!
# Attaching nodes to an edge

The nodes that were fetched for an edge are attached one after the other, and each is looked at only when
its turn has come. So a wrong node at the start is refused before anything is changed; but when the node
at the finish is the wrong one, the start has been attached by then, and stays so. The main statement says
for every edge and all nodes what the edge is afterwards, and exactly when a refusal has left it as it was.
-/

namespace EdgeMapper

/-- The node that is refused, if there is one: the finish is looked at only if nothing is wrong with the
start. -/
inductive Edge.Refuses (e : Edge) (start finish : Option (NodeRef × Node)) : Failure → Prop where
  | start {ref : NodeRef} {node : Node} (hgiven : start = some (ref, node))
    (hother : node.id ≠ some e.start.id) :
    Refuses e start finish (Failure.refused (.wrongStart node.id e.start.id)).told
  | finish {ref : NodeRef} {node : Node} (hstart : e.start.Takes start)
    (hgiven : finish = some (ref, node)) (hother : node.id ≠ some e.finish.id) :
    Refuses e start finish (Failure.refused (.wrongFinish node.id e.finish.id)).told

/-- What comes of attaching these nodes to the edge: the edge afterwards, and the failure if there is
one. -/
structure Edge.Resolution (e : Edge) (start finish : Option (NodeRef × Node)) (e' : Edge)
    (failure : Option Failure) : Prop where
  accepted : failure = none ↔ e.start.Takes start ∧ e.finish.Takes finish
  refused : ∀ f, failure = some f ↔ e.Refuses start finish f
  attached : failure = none →
    e' = { e with start := e.start.attach start, finish := e.finish.attach finish }
  unchanged : failure ≠ none → (e' = e ↔ e.start.Takes start → e.start.attach start = e.start)
  changed : failure ≠ none → e' ≠ e → e' = { e with start := e.start.attach start }

namespace Edge

variable {e : Edge} {start finish : Option (NodeRef × Node)} {f : Failure}

theorem Refuses.not_accepted (h : e.Refuses start finish f) :
    ¬ (e.start.Takes start ∧ e.finish.Takes finish) := by
  rintro ⟨hstart, hfinish⟩
  cases h with
  | start hgiven hother => exact hother (hstart _ hgiven)
  | finish _ hgiven hother => exact hother (hfinish _ hgiven)

theorem Refuses.unique {g : Failure} (h : e.Refuses start finish f) (h' : e.Refuses start finish g) :
    f = g := by
  cases h with
  | start hgiven hother =>
      cases h' with
      | start hgiven' _ =>
          obtain ⟨_, rfl⟩ := Prod.mk.inj (Option.some.inj (hgiven.symm.trans hgiven'))
          rfl
      | finish hstart _ _ => exact absurd (hstart _ hgiven) hother
  | finish hstart hgiven _ =>
      cases h' with
      | start hgiven' hother' => exact absurd (hstart _ hgiven') hother'
      | finish _ hgiven' _ =>
          obtain ⟨_, rfl⟩ := Prod.mk.inj (Option.some.inj (hgiven.symm.trans hgiven'))
          rfl

theorem resolution_refused {s : Endpoint} (h : e.Refuses start finish f)
    (hs : s = e.start ∧ ¬ e.start.Takes start ∨ s = e.start.attach start ∧ e.start.Takes start) :
    e.Resolution start finish { e with start := s } (some f) where
  accepted := ⟨nofun, fun haccepted => absurd haccepted h.not_accepted⟩
  refused g := ⟨fun hg => Option.some.inj hg ▸ h, fun hg => congrArg some (h.unique hg)⟩
  attached := nofun
  unchanged _ := by
    have hsame : { e with start := s } = e ↔ s = e.start :=
      ⟨congrArg Edge.start, fun hs => by rw [hs]⟩
    rw [hsame]
    rcases hs with ⟨rfl, hwrong⟩ | ⟨rfl, htakes⟩
    · exact ⟨fun _ htakes => absurd htakes hwrong, fun _ => rfl⟩
    · exact ⟨fun hsame _ => hsame, fun hsame => hsame htakes⟩
  changed _ hchanged := by
    rcases hs with ⟨rfl, _⟩ | ⟨rfl, _⟩
    · exact absurd rfl hchanged
    · rfl

theorem resolution_accepted (hstart : e.start.Takes start) (hfinish : e.finish.Takes finish) :
    e.Resolution start finish
      { e with start := e.start.attach start, finish := e.finish.attach finish } none where
  accepted := ⟨fun _ => ⟨hstart, hfinish⟩, fun _ => rfl⟩
  refused _ := ⟨nofun, fun h => absurd ⟨hstart, hfinish⟩ h.not_accepted⟩
  attached _ := rfl
  unchanged h := absurd rfl h
  changed h := absurd rfl h

end Edge

/-- Nodes are attached to an edge when all that are given belong to it. Otherwise the call is refused, and
the edge is as it was, except that a new start stays attached if only the finish was wrong. -/
theorem refusals_keep_an_attached_start (e : Edge) (start finish : Option (NodeRef × Node)) :
    e.Resolution start finish (e.resolve start finish).1 (e.resolve start finish).2 := by
  rcases e.start.takes_or_differs start with hstart | ⟨p, rfl, hother⟩
  · rcases e.finish.takes_or_differs finish with hfinish | ⟨p, rfl, hother⟩
    · rw [Edge.resolve_of_takes hstart hfinish]
      exact Edge.resolution_accepted hstart hfinish
    · rw [Edge.resolve_of_wrong_finish hstart hother]
      exact Edge.resolution_refused (.finish hstart rfl hother) (.inr ⟨rfl, hstart⟩)
  · rw [Edge.resolve_of_wrong_start finish hother]
    exact Edge.resolution_refused (s := e.start) (.start rfl hother)
      (.inl ⟨rfl, fun htakes => hother (htakes p rfl)⟩)

/-- The finish is the wrong node, and the start has been attached although the call is refused. -/
theorem start_attached_by_a_refused_call :
    ∃ (e : Edge) (first other : Node), first.id = some e.start.id ∧ other.id ≠ some e.finish.id ∧
      (e.resolve (some (⟨0⟩, first)) (some (⟨1⟩, other))).2 =
        some (.refused (.wrongFinish other.id e.finish.id)) ∧
      e.start.node = none ∧
      (e.resolve (some (⟨0⟩, first)) (some (⟨1⟩, other))).1.start.node = some ⟨0⟩ := by
  let e : Edge :=
    { start := ⟨1, none⟩, finish := ⟨2, none⟩, label := "KNOWS", created := ⟨0⟩, updated := ⟨0⟩ }
  exact ⟨e, { id := some 1, created := ⟨0⟩ }, { id := some 3, created := ⟨0⟩ }, rfl, by decide,
    by decide +kernel, rfl, rfl⟩

end EdgeMapper
