import EdgeMapper.Proofs.Calls
import EdgeMapper.Proofs.Continuity
/-!
# Commands

The calls of a writer have one shape. First a call prepares: it compiles a statement, sends it, checks
the answer and brings its edges up to date. Only then does it announce anything. What a writer can make
of an edge while it prepares is little: it confirms the id, attaches nodes and commits.
-/

namespace EdgeMapper

open Cypher (Statement Batch.numbered Batch.relName Batch.startName Batch.finishName)

inductive Command where
  | create (writer : Writer) (name : String)
  | createMany (names : List String)
  | update (writer : Writer) (name : String)
  | updateMany (names : List String)
  | delete (writer : Writer) (name : String)
  | deleteMany (names : List String)

namespace Command

open Writer

def run (behaviour : Behaviour) : Command → Task Unit
  | create writer name => do let _ ← writer.create behaviour name
  | createMany names => do let _ ← Writer.createMany behaviour names
  | update writer name => do let _ ← writer.update behaviour name
  | updateMany names => do let _ ← Writer.updateMany behaviour names
  | delete writer name => writer.delete behaviour name
  | deleteMany names => Writer.deleteMany behaviour names

def type : Command → EventType
  | create _ _ => .created
  | createMany _ => .created
  | update _ _ => .updated
  | updateMany _ => .updated
  | delete _ _ => .deleted
  | deleteMany _ => .deleted

/-- Commits the edges that were written, with a message, and answers what is to be announced. -/
def conclude (written : List (String × Edge)) (message : String) :
    Task (List (String × List String)) := do
  written.forM fun (name, e) => Task.putEdge name e.commit
  info message
  pure (announcements written)

/-- All that a call does before it announces anything. -/
def prepare : Command → Task (List (String × List String))
  | create writer name => do
    let row ← writer.request name
    applyCreated name row writer.binding "fromNode" "toNode"
    let e ← Task.edge name
    info ("Created relationship " ++ Literal.ofId e.id ++ " (" ++ e.label ++ ")")
    pure [(name, [])]
  | createMany names => do
    let row ← requestMany names
    applyAllCreated row (Batch.numbered names)
    info ("Created " ++ toString names.length ++ " relationships")
    pure (names.map fun name => (name, []))
  | update writer name => do
    let e ← Task.edge name
    if e.isDirty then
      let s ← compile .update e writer.options
      let row ← firstRow (.nothingUpdated e.id) (← Task.send s)
      let _ ← Task.ofExcept (returned row writer.binding)
      conclude [(name, e)] ("Updated relationship " ++ Literal.ofId e.id)
    else
      Task.note (if e.ledger.modified then [unwritable e] else [])
      pure []
  | updateMany names => do
    let edges ← names.mapM fun name => do pure (name, ← Task.edge name)
    let dirty := edges.filter (·.2.isDirty)
    if dirty.isEmpty then pure []
    else
      let s ← compileBatch .update (dirty.map Prod.snd) true
      let row ← firstRow (.nothingUpdatedInBatch (dirty.map (·.2.id))) (← Task.send s)
      Task.ofExcept (checkReturned row ((Batch.numbered dirty).map Prod.fst))
      conclude dirty ("Updated " ++ toString dirty.length ++ " relationships")
  | delete writer name => do
    let e ← Task.edge name
    let s ← compile .delete e writer.options
    let _ ← Task.send s
    info ("Deleted relationship " ++ Literal.ofId e.id)
    pure [(name, [])]
  | deleteMany names => do
    let edges ← names.mapM Task.edge
    let s ← compileBatch .delete edges true
    let _ ← Task.send s
    info ("Deleted " ++ toString names.length ++ " relationships")
    pure (names.map fun name => (name, []))

theorem run_eq (behaviour : Behaviour) (c : Command) :
    c.run behaviour = c.prepare >>= Task.announce behaviour c.type := by
  cases c with
  | create writer name =>
      simp only [run, prepare, type, create_eq, bind_assoc, pure_bind, bind_pure_unit]
  | createMany names =>
      simp only [run, prepare, type, createMany_eq, bind_assoc, pure_bind, bind_pure_unit]
  | update writer name =>
      simp only [run, prepare, type, Writer.update, bind_assoc]
      congr 1
      funext e
      split
      · simp only [conclude, bind_assoc, pure_bind, bind_pure_unit]
        rfl
      · simp only [bind_assoc, pure_bind]
        rfl
  | updateMany names =>
      simp only [run, prepare, type, Writer.updateMany, bind_assoc]
      congr 1
      funext edges
      split
      · rfl
      · simp only [conclude, bind_assoc, pure_bind, bind_pure_unit]
        rfl
  | delete writer name => simp only [run, prepare, type, Writer.delete, bind_assoc, pure_bind]
  | deleteMany names => simp only [run, prepare, type, Writer.deleteMany, bind_assoc, pure_bind]

end Command

/-! ## What a writer makes of an edge -/

/-- What a writer can make of an edge: it confirms its id, attaches its nodes and commits it. -/
structure Edge.Advances (e e' : Edge) : Prop extends e.Continues e' where
  idInRange : e.IdInRange → e'.IdInRange
  label : e'.label = e.label
  ledger : e'.ledger = e.ledger ∨ e'.ledger = e.ledger.commit

def Workspace.Advances (w w' : Workspace) : Prop :=
  ∀ name e, w.edge? name = some e → ∃ e', w'.edge? name = some e' ∧ e.Advances e'

/-- The row holds the record of the edge, and the edge was brought up to date with it. -/
structure Confirmed (row : Row) (column name : String) (w w' : Workspace) : Prop where
  confirmed : ∃ record e e', Writer.returned row column = .ok record ∧ w.edge? name = some e ∧
    w'.edge? name = some e' ∧ e'.id = some record.id ∧ e.Advances e' ∧ e'.ledger = e.ledger.commit

section

variable {e e' e'' : Edge} {w w' v u : Workspace} {name : String}

theorem Edge.Advances.refl (e : Edge) : e.Advances e := ⟨.refl e, fun h => h, rfl, .inl rfl⟩

theorem Edge.Advances.trans (h : e.Advances e') (h' : e'.Advances e'') : e.Advances e'' := by
  refine ⟨h.toContinues.trans h'.toContinues, fun he => h'.idInRange (h.idInRange he),
    h'.label.trans h.label, ?_⟩
  rcases h'.ledger with hsame | hcommitted
  · rw [hsame]
    exact h.ledger
  · -- committing twice is committing once
    right
    rw [hcommitted]
    rcases h.ledger with hsame | hcommitted
    · rw [hsame]
    · rw [hcommitted]
      rfl

theorem Edge.advances_commit (e : Edge) : e.Advances e.commit :=
  ⟨Edge.continues_of_eq rfl rfl rfl, fun h => h, rfl, .inr rfl⟩

theorem Workspace.coarse_advances : Coarse Workspace.Advances where
  trans u v w huv hvw name e he := by
    obtain ⟨e', he', hadvances⟩ := huv name e he
    obtain ⟨e'', he'', hadvances'⟩ := hvw name e' he'
    exact ⟨e'', he'', hadvances.trans hadvances'⟩
  aside _ _ _ _ _ _ e he := ⟨e, he, .refl e⟩

open Workspace (coarse_advances)

theorem Workspace.advances_of_edges (h : w'.edges = w.edges) : w.Advances w' := by
  intro name e he
  exact ⟨e, by rw [Workspace.edge?, h]; exact he, .refl e⟩

theorem Workspace.Stored.advances (h : w.Stored name e' w') (he : w.edge? name = some e)
    (hadvances : e.Advances e') : w.Advances w' := by
  intro other f hf
  rw [h other]
  by_cases hname : other = name
  · subst hname
    obtain rfl := Option.some.inj (he.symm.trans hf)
    rw [if_pos rfl]
    exact ⟨e', rfl, hadvances⟩
  · rw [if_neg hname]
    exact ⟨f, hf, .refl f⟩

theorem advances_commitAll {written : List (String × Edge)}
    (hfound : ∀ p ∈ written, w.edge? p.1 = some p.2) (hedges : w'.edges = commitAll written w.edges) :
    w.Advances w' := by
  intro name e he
  rw [Workspace.edge?, hedges]
  by_cases hname : name ∈ written.map Prod.fst
  · obtain ⟨p, hp, rfl⟩ := List.mem_map.mp hname
    obtain rfl := Option.some.inj (he.symm.trans (hfound p hp))
    exact ⟨p.2.commit, get?_commitAll hfound hp w.edges, p.2.advances_commit⟩
  · exact ⟨e, (get?_commitAll_of_not_mem hname w.edges).trans he, .refl e⟩

/-! ## Creating -/

namespace Writer

variable {column startColumn finishColumn : String} {row : Row}

theorem returned_in_range {record : EdgeRecord} (h : returned row column = .ok record) :
    0 ≤ record.id ∧ record.id ≤ Value.maxId := by
  unfold returned at h
  split at h
  · cases h
  · split at h
    · next hvalue =>
        obtain rfl := Except.ok.inj h
        exact Edge.id_in_range_of_ofValue hvalue
    · cases h

theorem advances_identified {columns : Columns} {record : EdgeRecord} {s f : Endpoint}
    {l : PropertyLedger} (h : Identifies row columns e record) (hs : e.start.Later s)
    (hf : e.finish.Later f) (hl : l = e.ledger ∨ l = e.ledger.commit) :
    e.Advances { e with id := some record.id, start := s, finish := f, ledger := l } := by
  refine ⟨⟨fun i hi => ?_, hs, hf⟩, fun _ i hi => ?_, rfl, hl⟩
  · rcases h.free with hnone | hsame
    · cases hnone.symm.trans hi
    · exact hsame.symm.trans hi
  · obtain rfl := Option.some.inj hi
    exact returned_in_range h.found

theorem advances_rejected {columns : Columns} {failure : Failure}
    (h : Rejects row columns w e failure e') : e.Advances e' := by
  cases h with
  | record => exact .refl e
  | id => exact .refl e
  | startRecord h => exact advances_identified h (.refl _) (.refl _) (.inl rfl)
  | finishRecord h => exact advances_identified h (.refl _) (.refl _) (.inl rfl)
  | start h => exact advances_identified h (.refl _) (.refl _) (.inl rfl)
  | finish h => exact advances_identified h (Endpoint.later_attach _ _) (.refl _) (.inl rfl)

theorem advances_tried {columns : Columns} {result : Except Failure Unit}
    (h : Tried row columns w e result e') : e.Advances e' := by
  cases h with
  | confirmed h =>
      exact advances_identified h.toIdentifies (Endpoint.later_attach _ _)
        (Endpoint.later_attach _ _) (.inr rfl)
  | rejected h => exact advances_rejected h

theorem Applied.advances {columns : Columns} {result : Except Failure Unit}
    (h : Applied name row columns w w' result) : w.Advances w' := by
  cases h with
  | unknown hsame =>
      rw [hsame]
      exact coarse_advances.refl w
  | tried he hstored _ h => exact hstored.advances he (advances_tried h)

theorem Applied.failure {columns : Columns} {result : Except Failure Unit}
    (h : Applied name row columns w w' result) {failure : Failure}
    (hresult : result = .error failure) : failure ≠ .cancelled := by
  cases h with
  | unknown _ hfailure => exact Except.error.inj hresult ▸ hfailure
  | tried _ _ _ h => exact h.failure hresult

theorem Applied.confirmed_edge {columns : Columns} {result : Except Failure Unit}
    (h : Applied name row columns w w' result) (hok : result = .ok ()) :
    Confirmed row columns.edge name w w' := by
  cases h with
  | unknown => cases hok
  | tried he hstored _ h =>
      have hadvances := advances_tried h
      have he' := hstored name
      rw [if_pos rfl] at he'
      cases h with
      | @confirmed record start finish s f h =>
          exact ⟨record, _, _, h.found, he, he', rfl, hadvances, rfl⟩
      | rejected => cases hok

theorem leads_applyCreated : (applyCreated name row column startColumn finishColumn).Leads
    Workspace.Advances := fun _ => (applyCreated_applied rfl).advances

theorem applyAllCreated_failure {items : List (Nat × String)} {failure : Failure}
    (h : applyAllCreated row items w = (.error failure, w')) : failure ≠ .cancelled := by
  induction items generalizing w with
  | nil => cases h
  | cons item rest ih =>
      rcases Task.bind_cases h with ⟨_, v, _, hrest⟩ | ⟨_, happly, hfailure⟩
      · exact ih hrest
      · obtain rfl := Except.error.inj hfailure
        exact (applyCreated_applied happly).failure rfl

theorem leads_applyAllCreated (row : Row) (items : List (Nat × String)) :
    (applyAllCreated row items).Leads Workspace.Advances := by
  induction items with
  | nil => exact Task.leads_pure coarse_advances ()
  | cons item rest ih => exact Task.leads_bind coarse_advances leads_applyCreated fun _ => ih

end Writer

theorem Confirmed.later {row : Row} {column : String} (h : Confirmed row column name w v)
    (hadvances : v.Advances u) : Confirmed row column name w u := by
  obtain ⟨record, e, e', hrecord, he, he', hid, hearlier, hledger⟩ := h
  obtain ⟨e'', he'', hlater⟩ := hadvances name e' he'
  refine ⟨record, e, e'', hrecord, he, he'', hlater.id _ hid, hearlier.trans hlater, ?_⟩
  rcases hlater.ledger with hsame | hcommitted
  · rw [hsame, hledger]
  · rw [hcommitted, hledger]
    rfl

theorem Confirmed.earlier {row : Row} {column : String} (h : Confirmed row column name v u)
    (he : w.edge? name = some e) (hadvances : w.Advances v) : Confirmed row column name w u := by
  obtain ⟨record, f, f', hrecord, hf, hf', hid, hlater, hledger⟩ := h
  obtain ⟨e', he', hearlier⟩ := hadvances name e he
  obtain rfl := Option.some.inj (hf.symm.trans he')
  refine ⟨record, e, f', hrecord, he, hf', hid, hearlier.trans hlater, ?_⟩
  rw [hledger]
  rcases hearlier.ledger with hsame | hcommitted
  · rw [hsame]
  · rw [hcommitted]
    rfl

namespace Writer

theorem applyAllCreated_confirmed {row : Row} {items : List (Nat × String)}
    (hexists : ∀ item ∈ items, ∃ e, w.edge? item.2 = some e)
    (h : applyAllCreated row items w = (.ok (), w')) :
    ∀ item ∈ items, Confirmed row (Batch.relName item.1) item.2 w w' := by
  induction items generalizing w with
  | nil => exact fun _ hitem => absurd hitem (by simp)
  | cons item rest ih =>
      obtain ⟨i, name⟩ := item
      rcases Task.bind_cases h with ⟨_, v, happly, hrest⟩ | ⟨failure, _, herror⟩
      · have happlied := applyCreated_applied happly
        have hlater := (leads_applyAllCreated row rest).of_run hrest
        rw [List.forall_mem_cons] at hexists ⊢
        refine ⟨(happlied.confirmed_edge rfl).later hlater, fun other hother => ?_⟩
        have hfound : ∀ item ∈ rest, ∃ e, v.edge? item.2 = some e := by
          intro item hitem
          obtain ⟨e, he⟩ := hexists.2 item hitem
          obtain ⟨e', he', _⟩ := happlied.advances item.2 e he
          exact ⟨e', he'⟩
        obtain ⟨e, he⟩ := hexists.2 other hother
        exact (ih hfound hrest other hother).earlier he happlied.advances
      · cases herror

end Writer

end

end EdgeMapper
