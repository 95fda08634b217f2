import EdgeMapper.Proofs.ListenerEdits
import EdgeMapper.Proofs.Locality
import EdgeMapper.Proofs.Reporting
/-!
# Creating one edge

A call that creates an edge refuses a taken alias before it sends anything; otherwise it sends one
statement, and the first row of the answer decides the rest. The main statement says for every answer
whether the call succeeds, how it fails if it does not, and what the edge is then. Listeners hear of
the edge only when it has been created.
-/

namespace EdgeMapper

open Cypher (Statement)

/-- The listeners edit no edge. They may change subscriptions. -/
def Behaviour.HandsOff (behaviour : Behaviour) : Prop :=
  ∀ w l event, ∀ a ∈ (behaviour w l event).actions, ∀ name, ¬ a.Edits name

/-- What comes of a call that is to create the edge of this name, and what the edge is then. -/
inductive Creation (writer : Writer) (name : String) (w w' : Workspace) (e : Edge) :
    Except Failure String → Edge → Prop where
  | nameTaken (htaken : writer.binding ∈ Statement.endpointNames) (hsame : w' = w) :
    Creation writer name w w' e (.error (.refused (.nameTaken writer.binding))) e
  | lost {s : Statement} (hs : Statement.create e writer.options = .ok s)
    (hsent : w'.received = w.received ++ [s])
    (hanswer : w.connection.upcoming.head? = some .lost) :
    Creation writer name w w' e (.error .connectionLost) e
  | noRow {s : Statement} (hs : Statement.create e writer.options = .ok s)
    (hsent : w'.received = w.received ++ [s])
    (hanswer : w.connection.upcoming.head?.getD (.rows []) = .rows []) :
    Creation writer name w w' e (.error (.badAnswer .nothingCreated)) e
  | answered {s : Statement} {row : Row} {tried : Except Failure Unit} {e' : Edge}
    (hs : Statement.create e writer.options = .ok s) (hsent : w'.received = w.received ++ [s])
    (hanswer : w.connection.Answers row)
    (htried : Tried row (.single writer.binding) w' e tried e') :
    Creation writer name w w' e (tried.map fun _ => name) e'

section

variable {writer : Writer} {behaviour : Behaviour} {w w' : Workspace} {name : String} {e e' : Edge}
  {row : Row} {tried : Except Failure Unit} {result : Except Failure String}

/-! ## Compiling and asking -/

theorem create_cases (e : Edge) (o : Cypher.Options) :
    (o.binding ∈ Statement.endpointNames ∧
      Statement.create e o = .error (.refused (.nameTaken o.binding))) ∨
    (o.binding ∉ Statement.endpointNames ∧ ∃ s, Statement.create e o = .ok s) := by
  unfold Statement.create
  by_cases htaken : o.binding ∈ Statement.endpointNames
  · rw [if_pos (List.contains_iff_mem.mpr htaken)]
    exact .inl ⟨htaken, rfl⟩
  · rw [if_neg fun h => htaken (List.contains_iff_mem.mp h)]
    exact .inr ⟨htaken, _, rfl⟩

def Writer.confirming (writer : Writer) (behaviour : Behaviour) (name : String) (row : Row) :
    Task String := do
  applyCreated name row writer.binding "fromNode" "toNode"
  let e ← Task.edge name
  info ("Created relationship " ++ Literal.ofId e.id ++ " (" ++ e.label ++ ")")
  Task.announce behaviour .created [(name, [])]
  pure name

theorem Writer.create_apply (he : w.edge? name = some e) :
    writer.create behaviour name w = match Statement.create e writer.options with
      | .error failure => (.error failure, w)
      | .ok s =>
        match w.connection.answer .nothingCreated with
        | .error failure => (.error failure, w.sent s (Statement.remarks .create e s))
        | .ok row =>
          writer.confirming behaviour name row (w.sent s (Statement.remarks .create e s)) := by
  rw [create, Task.bind_of_ok (Task.edge_of_some he)]
  exact exchange_apply (Statement.create e writer.options) (Statement.remarks .create e)
    .nothingCreated (writer.confirming behaviour name) w

/-! ## Listeners that edit nothing -/

theorem kept_unedited (h : behaviour.HandsOff) (u : Workspace) :
    Workspace.Kept behaviour fun v => u.SameGraph v ∧ v.connection = u.connection := by
  refine ⟨fun _ _ _ ⟨hgraph, hconnection⟩ => ⟨⟨hgraph.clock, hgraph.nodes, hgraph.edges⟩, hconnection⟩,
    fun _ _ ⟨hgraph, hconnection⟩ => ⟨⟨hgraph.clock, hgraph.nodes, hgraph.edges⟩, hconnection⟩, ?_⟩
  intro w l event a ha v v' ⟨hgraph, hconnection⟩ hperform
  have hsame (subscriptions : Subscriptions) : u.SameGraph { v with subscriptions := subscriptions } :=
    ⟨hgraph.clock, hgraph.nodes, hgraph.edges⟩
  cases a with
  | subscribe m topic => obtain rfl := Option.some.inj hperform; exact ⟨hsame _, hconnection⟩
  | unsubscribe m => obtain rfl := Option.some.inj hperform; exact ⟨hsame _, hconnection⟩
  | clear => obtain rfl := Option.some.inj hperform; exact ⟨hsame _, hconnection⟩
  | write edge key value => exact absurd rfl (h w l event _ ha edge)
  | relabel edge label => exact absurd rfl (h w l event _ ha edge)

theorem announce_unedited (hsteady : behaviour.Steady) (hhandsOff : behaviour.HandsOff)
    (type : EventType) {items : List (String × List String)}
    (hknown : ∀ item ∈ items, ∃ e, w.edge? item.1 = some e) :
    ∃ w', Task.announce behaviour type items w = (.ok (), w') ∧ w.SameGraph w' ∧
      w'.connection = w.connection := by
  have hkept := Task.announce_kept (kept_unedited hhandsOff w) type items (w := w) ⟨.refl w, rfl⟩
  have hends (other f) (hf : w.edge? other = some f) : w.HasEnds other f := ⟨f, hf, rfl, rfl, rfl⟩
  obtain ⟨events, w', hrun, _⟩ := announce_emits hsteady type hknown hends
  rw [hrun] at hkept
  exact ⟨w', hrun, hkept⟩

theorem announcing_unedited (hsteady : behaviour.Steady) (hhandsOff : behaviour.HandsOff)
    {message : Edge → String} (he : w.edge? name = some e)
    (h : (Task.edge name >>= fun e => Writer.info (message e) >>= fun _ =>
      Task.announce behaviour .created [(name, [])] >>= fun _ => pure name) w = (result, w')) :
    result = .ok name ∧ w.SameGraph w' ∧ w'.connection = w.connection := by
  rw [Task.bind_of_ok (Task.edge_of_some he), Task.bind_of_ok (Writer.info_apply _ w),
    Task.map_apply] at h
  let v : Workspace := w.note [⟨.info, .writer, message e⟩]
  have hknown : ∀ item ∈ [(name, ([] : List String))], ∃ e, v.edge? item.1 = some e := by
    simpa using ⟨e, he⟩
  obtain ⟨u, hrun, hgraph, hconnection⟩ := announce_unedited hsteady hhandsOff .created hknown
  rw [hrun] at h
  obtain ⟨rfl, rfl⟩ := Prod.mk.inj h
  exact ⟨rfl, ⟨hgraph.clock, hgraph.nodes, hgraph.edges⟩, hconnection⟩

/-! ## The call -/

theorem confirming_of_applied (hsteady : behaviour.Steady) (hhandsOff : behaviour.HandsOff)
    (he : w.edge? name = some e)
    (h : Writer.applyCreated name row writer.binding "fromNode" "toNode" w = (tried, w')) :
    ∃ v, writer.confirming behaviour name row w = (tried.map fun _ => name, v) ∧ w'.SameGraph v ∧
      v.connection = w'.connection := by
  cases tried with
  | error failure =>
      refine ⟨w', ?_, .refl w', rfl⟩
      rw [Writer.confirming, Task.bind_apply, h]
      rfl
  | ok _ =>
      obtain ⟨e', hstored, _⟩ := applyCreated_tried (.single writer.binding) he h
      have he' : w'.edge? name = some e' := (hstored name).trans (if_pos rfl)
      rcases hrun : (Task.edge name >>= fun e =>
        Writer.info ("Created relationship " ++ Literal.ofId e.id ++ " (" ++ e.label ++ ")") >>= fun _ =>
        Task.announce behaviour .created [(name, [])] >>= fun _ => pure name) w' with ⟨last, v⟩
      obtain ⟨rfl, hgraph, hconnection⟩ := announcing_unedited hsteady hhandsOff he' hrun
      exact ⟨v, (Task.bind_of_ok h).trans hrun, hgraph, hconnection⟩

theorem Creation.failure (h : Creation writer name w w' e result e') {failure : Failure}
    (hresult : result = .error failure) : failure ≠ .cancelled := by
  cases h with
  | nameTaken => obtain rfl := Except.error.inj hresult; nofun
  | lost => obtain rfl := Except.error.inj hresult; nofun
  | noRow => obtain rfl := Except.error.inj hresult; nofun
  | answered _ _ _ htried => exact htried.failure (Cypher.map_eq_error_iff.mp hresult)

end

end EdgeMapper
