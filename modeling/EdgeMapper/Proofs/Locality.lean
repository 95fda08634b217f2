import EdgeMapper.Proofs.Commands
/-!
# What bringing an edge up to date depends on

An edge is brought up to date with a row by looking at the clock, the nodes and the edges, and at nothing
else; so it does not matter which statements, events or messages came in between. It changes no other edge,
loses no node, and takes no node away from an endpoint that it was attached to.
-/

namespace EdgeMapper

open Cypher (Batch.relName Batch.startName Batch.finishName)

/-- The clock, the nodes and the edges are the same. -/
structure Workspace.SameGraph (w v : Workspace) : Prop where
  clock : v.clock = w.clock
  nodes : v.nodes = w.nodes
  edges : v.edges = w.edges

/-- What the task answers, and what the graph is then, is decided by the graph. -/
def Task.Local {α : Type} (t : Task α) : Prop :=
  ∀ w v : Workspace, w.SameGraph v → (t v).1 = (t w).1 ∧ (t w).2.SameGraph (t v).2

/-- A node is attached to this endpoint of the edge, and has the id of the endpoint. -/
def Workspace.Attached (w : Workspace) (name : String) (side : Edge → Endpoint) : Prop :=
  ∃ e ref n, w.edge? name = some e ∧ (side e).node = some ref ∧ w.node? ref = some n ∧
    n.id = some (side e).id

def Workspace.KeepsNodes (w w' : Workspace) : Prop :=
  ∀ ref n, w.node? ref = some n → w'.node? ref = some n

structure Workspace.KeepsAttached (w w' : Workspace) : Prop where
  start : ∀ name, w.Attached name Edge.start → w'.Attached name Edge.start
  finish : ∀ name, w.Attached name Edge.finish → w'.Attached name Edge.finish

def Endpoint.Resolves (w : Workspace) (s t : Endpoint) : Prop :=
  t = s ∨ ∃ ref n, t = { s with node := some ref } ∧ w.node? ref = some n ∧ n.id = some s.id

namespace Workspace

variable {u v w : Workspace}

theorem SameGraph.refl (w : Workspace) : w.SameGraph w := ⟨rfl, rfl, rfl⟩

theorem SameGraph.symm (h : w.SameGraph v) : v.SameGraph w :=
  ⟨h.clock.symm, h.nodes.symm, h.edges.symm⟩

theorem SameGraph.trans (h : w.SameGraph v) (h' : v.SameGraph u) : w.SameGraph u :=
  ⟨h'.clock.trans h.clock, h'.nodes.trans h.nodes, h'.edges.trans h.edges⟩

theorem SameGraph.edge?_eq (h : w.SameGraph v) (name : String) : v.edge? name = w.edge? name := by
  rw [edge?, h.edges, edge?]

theorem SameGraph.putEdge (h : w.SameGraph v) (name : String) (e : Edge) :
    (w.putEdge name e).SameGraph (v.putEdge name e) :=
  ⟨h.clock, h.nodes, congrArg (·.insert name e) h.edges⟩

theorem SameGraph.takeIn (h : w.SameGraph v) (r : Option NodeRecord) :
    (v.takeIn r).1 = (w.takeIn r).1 ∧ (w.takeIn r).2.SameGraph (v.takeIn r).2 := by
  cases r with
  | none => exact ⟨rfl, h⟩
  | some record =>
      refine ⟨?_, ?_, ?_, h.edges⟩
      · simp only [Workspace.takeIn, tick, addNode, h.clock, h.nodes]
      · simp only [Workspace.takeIn, tick, addNode, h.clock]
      · simp only [Workspace.takeIn, tick, addNode, h.clock, h.nodes]

theorem KeepsNodes.trans (h : u.KeepsNodes v) (h' : v.KeepsNodes w) : u.KeepsNodes w :=
  fun ref n hn => h' ref n (h ref n hn)

theorem keepsNodes_takeIn (w : Workspace) (r : Option NodeRecord) : w.KeepsNodes (w.takeIn r).2 :=
  fun _ _ => node?_takeIn

theorem KeepsAttached.refl (w : Workspace) : w.KeepsAttached w := ⟨fun _ h => h, fun _ h => h⟩

theorem KeepsAttached.trans (h : u.KeepsAttached v) (h' : v.KeepsAttached w) : u.KeepsAttached w :=
  ⟨fun name hname => h'.start name (h.start name hname),
    fun name hname => h'.finish name (h.finish name hname)⟩

end Workspace

/-! ## Locality -/

namespace Task

variable {α β : Type}

theorem local_bind {x : Task α} {f : α → Task β} (hx : x.Local) (hf : ∀ a, (f a).Local) :
    (x >>= f).Local := by
  intro w v h
  obtain ⟨hresult, hgraph⟩ := hx w v h
  rw [bind_apply, bind_apply]
  generalize x w = p, x v = q at hresult hgraph ⊢
  obtain ⟨r, w₁⟩ := p
  obtain ⟨r', v₁⟩ := q
  obtain rfl : r' = r := hresult
  cases r' with
  | ok a => exact hf a w₁ v₁ hgraph
  | error failure => exact ⟨rfl, hgraph⟩

theorem local_ofExcept (r : Except Failure α) : (ofExcept r).Local := fun w v h => by
  rw [ofExcept_apply, ofExcept_apply]
  exact ⟨rfl, h⟩

theorem local_edge (name : String) : (edge name).Local := fun w v h => by
  rw [edge_apply, edge_apply, h.edge?_eq]
  exact ⟨rfl, h⟩

theorem local_putEdge (name : String) (e : Edge) : (putEdge name e).Local := fun _ _ h =>
  ⟨rfl, h.putEdge name e⟩

end Task

namespace Writer

variable {w w' : Workspace} {name : String} {row : Row} {columns : Columns} {e e' : Edge}
  {result : Except Failure Unit}

theorem local_fetched (row : Row) (column : String) : (fetched row column).Local := fun w v h => by
  rw [fetched_apply, fetched_apply]
  cases nodeRecord row column with
  | error fault => exact ⟨rfl, h⟩
  | ok r => exact ⟨congrArg Except.ok (h.takeIn r).1, (h.takeIn r).2⟩

theorem local_applyCreated (name : String) (row : Row) (column startColumn finishColumn : String) :
    (applyCreated name row column startColumn finishColumn).Local :=
  applyCreated_of_steps @Task.Local Task.local_bind Task.local_ofExcept (Task.local_edge name)
    (Task.local_putEdge name) (local_fetched row)

/-! ## Other edges, and nodes -/

theorem applyCreated_edge?_of_ne (row : Row) (column startColumn finishColumn : String) {other : String}
    (hother : other ≠ name) :
    (applyCreated name row column startColumn finishColumn).Leads
      fun w w' => w'.edge? other = w.edge? other := by
  have hcoarse : Workspace.Coarse fun w w' => w'.edge? other = w.edge? other :=
    Workspace.coarse_of_part fun _ _ _ _ _ => rfl
  refine applyCreated_of_steps (@fun _ t => t.Leads _) (Task.leads_bind hcoarse)
    (Task.leads_ofExcept hcoarse) (Task.leads_edge hcoarse name) (fun e w => ?_)
    (leads_fetched hcoarse row)
  rw [Task.putEdge_apply, Workspace.edge?_putEdge, if_neg hother]

theorem keepsNodes_applyCreated (name : String) (row : Row)
    (column startColumn finishColumn : String) :
    (applyCreated name row column startColumn finishColumn).Leads Workspace.KeepsNodes := by
  refine applyCreated_of_steps (@fun _ t => t.Leads _)
    (Task.leads_bind_of_trans fun _ _ _ h h' => h.trans h') (fun r w => ?_) (fun w => ?_)
    (fun e w _ _ hn => hn) fun column w => ?_
  · rw [Task.ofExcept_apply]
    exact fun _ _ hn => hn
  · rw [Task.edge_apply]
    exact fun _ _ hn => hn
  · rw [fetched_apply]
    cases nodeRecord row column with
    | error fault => exact fun _ _ hn => hn
    | ok r => exact w.keepsNodes_takeIn r

/-! ## Attached nodes -/

theorem resolves_attach {r : Option NodeRecord} {node : Option (NodeRef × Node)} {s : Endpoint}
    (h : w.TakenIn r node) (hat : ∀ record, r = some record → record.id = s.id) :
    s.Resolves w (s.attach node) := by
  cases h with
  | nothing => exact .inl rfl
  | @node record ref now hnode =>
      exact .inr ⟨ref, _, rfl, hnode, congrArg some (hat record rfl)⟩

end Writer

section

variable {w w' : Workspace} {name : String} {row : Row} {columns : Columns} {e e' : Edge}
  {result : Except Failure Unit}

theorem Tried.resolves (h : Tried row columns w e result e') :
    e.start.Resolves w e'.start ∧ e.finish.Resolves w e'.finish := by
  cases h with
  | confirmed h hs hf =>
      exact ⟨Writer.resolves_attach hs h.atStart, Writer.resolves_attach hf h.atFinish⟩
  | rejected h =>
      cases h with
      | finish _ _ _ hat _ hs => exact ⟨Writer.resolves_attach hs hat, .inl rfl⟩
      | _ => exact ⟨.inl rfl, .inl rfl⟩

theorem attached_of_resolves {side : Edge → Endpoint} (h : w.Attached name side)
    (he : w.edge? name = some e) (he' : w'.edge? name = some e') (hnodes : w.KeepsNodes w')
    (hresolves : (side e).Resolves w' (side e')) : w'.Attached name side := by
  obtain ⟨f, ref, n, hf, href, hn, hid⟩ := h
  obtain rfl := Option.some.inj (he.symm.trans hf)
  rcases hresolves with hsame | ⟨ref', n', hs, hn', hid'⟩
  · exact ⟨e', ref, n, he', by rw [hsame, href], hnodes ref n hn, by rw [hsame, hid]⟩
  · exact ⟨e', ref', n', he', by rw [hs], hn', by rw [hs, hid']⟩

theorem attached_of_same {side : Edge → Endpoint} (h : w.Attached name side)
    (hsame : w'.edge? name = w.edge? name) (hnodes : w.KeepsNodes w') : w'.Attached name side := by
  obtain ⟨e, ref, n, he, href, hn, hid⟩ := h
  exact ⟨e, ref, n, hsame.trans he, href, hnodes ref n hn, hid⟩

theorem attached_of_takenIn {side : Edge → Endpoint} {record : NodeRecord}
    {node : Option (NodeRef × Node)} {s : Endpoint} (he' : w'.edge? name = some e')
    (h : w'.TakenIn (some record) node) (hat : record.id = s.id) (hside : side e' = s.attach node) :
    w'.Attached name side := by
  cases h with
  | @node _ ref now hnode =>
      refine ⟨e', ref, _, he', by rw [hside]; rfl, hnode, ?_⟩
      rw [hside]
      exact congrArg some hat

theorem Writer.Applied.keepsAttached (h : Applied name row columns w w' result)
    (hnodes : w.KeepsNodes w') : w.KeepsAttached w' := by
  cases h with
  | unknown hsame =>
      rw [hsame]
      exact .refl w
  | @tried e e' _ he hstored _ h =>
      have he' : w'.edge? name = some e' := (hstored name).trans (if_pos rfl)
      have hother (other) (hne : other ≠ name) : w'.edge? other = w.edge? other :=
        (hstored other).trans (if_neg hne)
      constructor
      · intro other hattached
        by_cases hname : other = name
        · subst hname
          exact attached_of_resolves hattached he he' hnodes h.resolves.1
        · exact attached_of_same hattached (hother other hname) hnodes
      · intro other hattached
        by_cases hname : other = name
        · subst hname
          exact attached_of_resolves hattached he he' hnodes h.resolves.2
        · exact attached_of_same hattached (hother other hname) hnodes

theorem Writer.keepsAttached_applyCreated (name : String) (row : Row)
    (column startColumn finishColumn : String) :
    (applyCreated name row column startColumn finishColumn).Leads Workspace.KeepsAttached := fun w =>
  (applyCreated_applied rfl).keepsAttached (keepsNodes_applyCreated name row _ _ _ w)

/-- The row confirms the edge, the edge has been brought up to date with it, and the nodes that the row
holds for its endpoints are attached. -/
structure FullyApplied (row : Row) (columns : Columns) (name : String) (w w' : Workspace) : Prop where
  confirmed : Confirmed row columns.edge name w w'
  start : ∀ node, Writer.nodeRecord row columns.start = .ok (some node) → w'.Attached name Edge.start
  finish : ∀ node, Writer.nodeRecord row columns.finish = .ok (some node) →
    w'.Attached name Edge.finish

theorem Writer.Applied.fullyApplied (h : Applied name row columns w w' (.ok ())) :
    FullyApplied row columns name w w' := by
  have hconfirmed := h.confirmed_edge rfl
  cases h with
  | @tried e e' _ he hstored _ h =>
      have he' : w'.edge? name = some e' := (hstored name).trans (if_pos rfl)
      cases h with
      | confirmed h hs hf =>
          refine ⟨hconfirmed, fun node hnode => ?_, fun node hnode => ?_⟩
          · obtain rfl := Except.ok.inj (h.fromStart.symm.trans hnode)
            exact attached_of_takenIn he' hs (h.atStart node rfl) rfl
          · obtain rfl := Except.ok.inj (h.fromFinish.symm.trans hnode)
            exact attached_of_takenIn he' hf (h.atFinish node rfl) rfl

theorem FullyApplied.later {v u : Workspace} (h : FullyApplied row columns name w v)
    (hadvances : v.Advances u) (hattached : v.KeepsAttached u) :
    FullyApplied row columns name w u where
  confirmed := h.confirmed.later hadvances
  start node hnode := hattached.start name (h.start node hnode)
  finish node hnode := hattached.finish name (h.finish node hnode)

theorem FullyApplied.of_sameGraph {v u : Workspace} (h : FullyApplied row columns name v u)
    (hgraph : w.SameGraph v) (hgraph' : u.SameGraph w') : FullyApplied row columns name w w' := by
  have hattached (side : Edge → Endpoint) (hside : u.Attached name side) : w'.Attached name side :=
    attached_of_same hside (hgraph'.edge?_eq name) fun ref n hn => by
      rw [Workspace.node?, hgraph'.nodes]
      exact hn
  obtain ⟨⟨record, e, e', hrecord, he, he', hconfirmed⟩, hstart, hfinish⟩ := h
  rw [hgraph.edge?_eq] at he
  rw [← hgraph'.edge?_eq] at he'
  exact ⟨⟨record, e, e', hrecord, he, he', hconfirmed⟩, fun node hnode => hattached _ (hstart node hnode),
    fun node hnode => hattached _ (hfinish node hnode)⟩

theorem FullyApplied.earlier {v u : Workspace} (h : FullyApplied row columns name v u)
    (he : w.edge? name = some e) (hadvances : w.Advances v) : FullyApplied row columns name w u where
  confirmed := h.confirmed.earlier he hadvances
  start := h.start
  finish := h.finish

end

end EdgeMapper
