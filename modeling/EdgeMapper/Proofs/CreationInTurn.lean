import EdgeMapper.Proofs.Creation
/-!
# Creating edges at once and one by one

A call that creates several edges gets one row for all of them, with numbered columns. What it makes of the
edges is what single calls would make of them, one after another, if each were answered by the columns of
its own position alone. It stops where the first of these calls fails, and fails as that one does; the
edges before that position have been brought up to date by then, and stay so.
-/

namespace EdgeMapper

open Cypher (Statement Batch.relName Batch.startName Batch.finishName Batch.numbered Batch.Clash)

def OrderedMap.insert? {κ α : Type} [DecidableEq κ] (m : OrderedMap κ α) (key : κ) :
    Option α → OrderedMap κ α
  | some value => m.insert key value
  | none => m

def Columns.numbered (i : Nat) : Columns := ⟨Batch.relName i, Batch.startName i, Batch.finishName i⟩

/-- The row with nothing but these columns, under other names. A column that is absent stays absent. -/
def Columns.rename (columns targets : Columns) (row : Row) : Row :=
  (((∅ : Row).insert? targets.edge (row.get? columns.edge)).insert? targets.start
    (row.get? columns.start)).insert? targets.finish (row.get? columns.finish)

def Failure.inColumn (column : String) : Failure → Failure
  | .badAnswer (.noColumn _) => .badAnswer (.noColumn column)
  | .badAnswer (.notARelationship _ cause) => .badAnswer (.notARelationship column cause)
  | failure => failure

namespace Writer

/-- Creates one edge, and is answered by the columns of this position in the row. -/
def createAt (writer : Writer) (behaviour : Behaviour) (row : Row) (i : Nat) (name : String) :
    Task String := do
  let answer := (Columns.numbered i).rename (.single writer.binding) row
  modify fun w => { w with connection := { w.connection with upcoming := [.rows [answer]] } }
  writer.create behaviour name

def createInTurn (writer : Writer) (behaviour : Behaviour) (row : Row) :
    List (Nat × String) → Task (List String)
  | [] => pure []
  | (i, name) :: rest => do
    let created ← writer.createAt behaviour row i name
    let more ← createInTurn writer behaviour row rest
    pure (created :: more)

end Writer

/-- What comes of creating the edges at these positions of the row: what comes of creating them in
turn. -/
inductive CreatedInTurn (writer : Writer) (behaviour : Behaviour) (row : Row)
    (items : List (Nat × String)) (w w' : Workspace) : Except Failure (List String) → Prop where
  | all {v : Workspace}
    (hrun : writer.createInTurn behaviour row items w = (.ok (items.map Prod.snd), v))
    (hgraph : v.SameGraph w')
    (happlied : ∀ item ∈ items, FullyApplied row (.numbered item.1) item.2 w w')
    (hothers : ∀ other, other ∉ items.map Prod.snd → w'.edge? other = w.edge? other) :
    CreatedInTurn writer behaviour row items w w' (.ok (items.map Prod.snd))
  | stopped {before after : List (Nat × String)} {i : Nat} {name : String} {v v' : Workspace}
    {failure : Failure} (hitems : items = before ++ (i, name) :: after)
    (hrun : writer.createInTurn behaviour row before w = (.ok (before.map Prod.snd), v))
    (hfails : writer.createAt behaviour row i name v = (.error failure, v')) (hgraph : v'.SameGraph w')
    (happlied : ∀ item ∈ before, FullyApplied row (.numbered item.1) item.2 w w')
    (hothers : ∀ other, other ∉ before.map Prod.snd → other ≠ name → w'.edge? other = w.edge? other)
    (hunheard : w'.audible = w.audible) :
    CreatedInTurn writer behaviour row items w w' (.error (failure.inColumn (Batch.relName i)))

/-! ## Renamed columns -/

theorem Failure.inColumn_told (column : String) (failure : Failure) :
    failure.told.inColumn column = (failure.inColumn column).told := by
  have hwritable : (failure.inColumn column).isWritable = failure.isWritable := by
    unfold inColumn
    split
    · rfl
    · rfl
    · rfl
  unfold told
  rw [hwritable]
  split
  · rfl
  · rfl

theorem Failure.inColumn_told_of_eq {column : String} {failure : Failure}
    (h : failure.inColumn column = failure) : failure.told.inColumn column = failure.told := by
  rw [inColumn_told, h]

theorem OrderedMap.get?_insert? {κ α : Type} [DecidableEq κ] (m : OrderedMap κ α) (key other : κ)
    (value : Option α) :
    (m.insert? key value).get? other = if other = key then value.or (m.get? other) else m.get? other := by
  cases value with
  | none => simp [insert?]
  | some a => simp [insert?, OrderedMap.get?_insert]

section

variable {writer : Writer} {behaviour : Behaviour} {w w' u v : Workspace} {name : String} {e : Edge}
  {row : Row} {columns targets : Columns} {tried : Except Failure Unit}

structure Columns.Distinct (columns : Columns) : Prop where
  edge_start : columns.edge ≠ columns.start
  edge_finish : columns.edge ≠ columns.finish
  start_finish : columns.start ≠ columns.finish

theorem Columns.get?_rename (columns : Columns) (h : targets.Distinct) (row : Row) :
    (columns.rename targets row).get? targets.edge = row.get? columns.edge ∧
    (columns.rename targets row).get? targets.start = row.get? columns.start ∧
    (columns.rename targets row).get? targets.finish = row.get? columns.finish := by
  obtain ⟨hes, hef, hsf⟩ := h
  simp [rename, OrderedMap.get?_insert?, hes, hef, hsf, hes.symm, hef.symm, hsf.symm]

theorem Columns.distinct_single {binding : String} (h : binding ∉ Statement.endpointNames) :
    (Columns.single binding).Distinct := by
  have hfree : binding ≠ "fromNode" ∧ binding ≠ "toNode" := by
    simpa [Statement.endpointNames] using h
  have hends : "fromNode" ≠ "toNode" := by decide
  exact ⟨hfree.1, hfree.2, hends⟩

namespace Writer

theorem fetched_congr {row' : Row} {column column' : String} (h : row'.get? column' = row.get? column) :
    fetched row' column' = fetched row column := by
  rw [fetched, fetched, h]

theorem applyCreated_rename (columns : Columns) (h : targets.Distinct) (row : Row)
    (he : w.edge? name = some e) :
    applyCreated name row columns.edge columns.start columns.finish w =
      ((applyCreated name (columns.rename targets row) targets.edge targets.start targets.finish
          w).1.mapError (·.inColumn columns.edge),
        (applyCreated name (columns.rename targets row) targets.edge targets.start targets.finish
          w).2) := by
  obtain ⟨hedge, hstart, hfinish⟩ := Columns.get?_rename columns h row
  cases hvalue : row.get? columns.edge with
  | none =>
      rw [hvalue] at hedge
      simp only [applyCreated, returned, hvalue, hedge]
      rfl
  | some value =>
      rw [hvalue] at hedge
      cases hrecord : EdgeRecord.ofValue value with
      | error fault =>
          simp only [applyCreated, returned, hvalue, hedge, hrecord]
          exact Prod.ext (congrArg Except.error (Failure.inColumn_told columns.edge
            (.badAnswer (.notARelationship targets.edge fault))).symm) rfl
      | ok record =>
          have hfound : returned row columns.edge = .ok record := by
            simp only [returned, hvalue, hrecord]
          have hfound' : returned (columns.rename targets row) targets.edge = .ok record := by
            simp only [returned, hedge, hrecord]
          -- only the record is read under the name of its column, and that is behind both runs
          have hsame : applyCreated name (columns.rename targets row) targets.edge targets.start
              targets.finish = applyCreated name row columns.edge columns.start columns.finish := by
            unfold applyCreated
            rw [hfound, hfound', fetched_congr hstart, fetched_congr hfinish]
          rw [hsame]
          rcases hrun : applyCreated name row columns.edge columns.start columns.finish w with
            ⟨tried, w'⟩
          obtain ⟨_, _, _, htried⟩ := applyCreated_tried columns he hrun
          cases htried with
          | confirmed => rfl
          | rejected hrejects =>
              cases hrejects with
              | record hnone => cases hnone.symm.trans hfound
              | _ =>
                  refine Prod.ext ?_ rfl
                  exact congrArg Except.error (Failure.inColumn_told_of_eq rfl).symm

/-! ## One position -/

theorem createAt_answered (behaviour : Behaviour) (row : Row) (i : Nat)
    (hbinding : writer.binding ∉ Statement.endpointNames) (he : v.edge? name = some e) :
    ∃ u, v.SameGraph u ∧ writer.createAt behaviour row i name v =
      writer.confirming behaviour name ((Columns.numbered i).rename (.single writer.binding) row) u := by
  rcases create_cases e writer.options with ⟨htaken, _⟩ | ⟨_, s, hs⟩
  · exact absurd htaken hbinding
  let answer : Row := (Columns.numbered i).rename (.single writer.binding) row
  let asked : Workspace := { v with connection := { v.connection with upcoming := [.rows [answer]] } }
  have hcreate : writer.create behaviour name asked = _ := create_apply he
  rw [hs] at hcreate
  exact ⟨asked.sent s (Statement.remarks .create e s), ⟨rfl, rfl, rfl⟩, hcreate⟩

theorem createAt_agrees (hsteady : behaviour.Steady) (hhandsOff : behaviour.HandsOff)
    (hbinding : writer.binding ∉ Statement.endpointNames) {i : Nat} (he : w.edge? name = some e)
    (hgraph : w.SameGraph v)
    (h : applyCreated name row (Batch.relName i) (Batch.startName i) (Batch.finishName i) w =
      (tried, w')) :
    ∃ (r : Except Failure Unit) (v' : Workspace),
      writer.createAt behaviour row i name v = (r.map fun _ => name, v') ∧
      tried = r.mapError (·.inColumn (Batch.relName i)) ∧ w'.SameGraph v' := by
  let answer : Row := (Columns.numbered i).rename (.single writer.binding) row
  obtain ⟨u, hu, hcreate⟩ :=
    createAt_answered behaviour row i hbinding ((hgraph.edge?_eq name).trans he)
  have hwu : w.SameGraph u := hgraph.trans hu
  obtain ⟨hresult, hsame⟩ :=
    local_applyCreated name answer writer.binding "fromNode" "toNode" w u hwu
  have hrenamed := h.symm.trans
    (applyCreated_rename (.numbered i) (Columns.distinct_single hbinding) row he)
  obtain ⟨hmapped, hw'⟩ := Prod.mk.inj hrenamed
  rcases hrun : applyCreated name answer writer.binding "fromNode" "toNode" u with ⟨r, u'⟩
  rw [hrun] at hresult hsame
  obtain ⟨v', hconfirming, hlast, _⟩ :=
    confirming_of_applied hsteady hhandsOff ((hwu.edge?_eq name).trans he) hrun
  refine ⟨r, v', hcreate.trans hconfirming, ?_, ?_⟩
  · rw [hmapped]
    exact congrArg (Except.mapError (·.inColumn (Batch.relName i))) hresult.symm
  · rw [hw']
    exact hsame.trans hlast

/-! ## All positions -/

theorem applyAllCreated_cases {items : List (Nat × String)}
    (h : applyAllCreated row items w = (tried, w')) :
    tried = .ok () ∨ ∃ before after i name failure v, items = before ++ (i, name) :: after ∧
      tried = .error failure ∧ applyAllCreated row before w = (.ok (), v) ∧
      applyCreated name row (Batch.relName i) (Batch.startName i) (Batch.finishName i) v =
        (.error failure, w') := by
  induction items generalizing w with
  | nil => exact .inl (Prod.mk.inj h).1.symm
  | cons item rest ih =>
      obtain ⟨i, name⟩ := item
      rcases Task.bind_cases h with ⟨_, v, happly, hrest⟩ | ⟨failure, happly, rfl⟩
      · rcases ih hrest with hok | ⟨before, after, j, other, failure, u, rfl, hfailure, hbefore, hlast⟩
        · exact .inl hok
        · refine .inr ⟨(i, name) :: before, after, j, other, failure, u, rfl, hfailure, ?_, hlast⟩
          rw [applyAllCreated, Task.bind_of_ok happly]
          exact hbefore
      · exact .inr ⟨[], rest, i, name, failure, w, rfl, rfl, rfl, happly⟩

theorem known_of_advances {items : List (Nat × String)}
    (hknown : ∀ item ∈ items, ∃ e, w.edge? item.2 = some e) (hadvances : w.Advances v) :
    ∀ item ∈ items, ∃ e, v.edge? item.2 = some e := by
  intro item hitem
  obtain ⟨e, he⟩ := hknown item hitem
  obtain ⟨e', he', _⟩ := hadvances item.2 e he
  exact ⟨e', he'⟩

/-- Single calls, one after another, do to the graph what is done at these positions of the batch. -/
theorem createInTurn_agrees (hsteady : behaviour.Steady) (hhandsOff : behaviour.HandsOff)
    (hbinding : writer.binding ∉ Statement.endpointNames) {items : List (Nat × String)}
    (hknown : ∀ item ∈ items, ∃ e, w.edge? item.2 = some e) (hgraph : w.SameGraph v)
    (h : applyAllCreated row items w = (.ok (), w')) :
    ∃ v', writer.createInTurn behaviour row items v = (.ok (items.map Prod.snd), v') ∧
      w'.SameGraph v' := by
  -- both runs go on from the same graph, though the single calls send and announce in between
  induction items generalizing w v with
  | nil =>
      obtain ⟨_, rfl⟩ := Prod.mk.inj h
      exact ⟨v, rfl, hgraph⟩
  | cons item rest ih =>
      obtain ⟨i, name⟩ := item
      obtain ⟨⟨e, he⟩, hrestKnown⟩ := List.forall_mem_cons.mp hknown
      rcases Task.bind_cases h with ⟨_, u, happly, hrest⟩ | ⟨_, _, hfailure⟩
      · obtain ⟨r, u', hcreate, hr, hsame⟩ :=
          createAt_agrees hsteady hhandsOff hbinding he hgraph happly
        cases r with
        | error failure => cases hr
        | ok _ =>
            have hadvances := (applyCreated_applied happly).advances
            obtain ⟨v', hrun, hlast⟩ := ih (known_of_advances hrestKnown hadvances) hsame hrest
            refine ⟨v', ?_, hlast⟩
            rw [createInTurn, Task.bind_of_ok hcreate, Task.map_apply, hrun]
            rfl
      · cases hfailure

theorem applyAllCreated_edge?_of_not_mem (row : Row) {items : List (Nat × String)} {other : String}
    (hother : other ∉ items.map Prod.snd) :
    (applyAllCreated row items).Leads fun w w' => w'.edge? other = w.edge? other := by
  have hcoarse : Workspace.Coarse fun w w' => w'.edge? other = w.edge? other :=
    Workspace.coarse_of_part fun _ _ _ _ _ => rfl
  induction items with
  | nil => exact Task.leads_pure hcoarse ()
  | cons item rest ih =>
      rw [List.map_cons, List.mem_cons, not_or] at hother
      exact Task.leads_bind hcoarse (applyCreated_edge?_of_ne row _ _ _ hother.1) fun _ => ih hother.2

theorem keepsAttached_applyAllCreated (row : Row) (items : List (Nat × String)) :
    (applyAllCreated row items).Leads Workspace.KeepsAttached := by
  induction items with
  | nil => exact fun w => .refl w
  | cons item rest ih =>
      exact Task.leads_bind_of_trans (fun _ _ _ h h' => h.trans h')
        (keepsAttached_applyCreated item.2 row _ _ _) fun _ => ih

theorem applyAllCreated_fullyApplied {items : List (Nat × String)}
    (hknown : ∀ item ∈ items, ∃ e, w.edge? item.2 = some e)
    (h : applyAllCreated row items w = (.ok (), w')) :
    ∀ item ∈ items, FullyApplied row (.numbered item.1) item.2 w w' := by
  induction items generalizing w with
  | nil => exact fun _ hitem => absurd hitem List.not_mem_nil
  | cons item rest ih =>
      rw [List.forall_mem_cons] at hknown ⊢
      rcases Task.bind_cases h with ⟨_, v, happly, hrest⟩ | ⟨_, _, hfailure⟩
      · have happlied := applyCreated_applied happly
        have hadvances := (leads_applyAllCreated row rest).of_run hrest
        have hattached := (keepsAttached_applyAllCreated row rest).of_run hrest
        refine ⟨happlied.fullyApplied.later hadvances hattached, fun other hother => ?_⟩
        obtain ⟨e, he⟩ := hknown.2 other hother
        exact (ih (known_of_advances hknown.2 happlied.advances) hrest other hother).earlier he
          happlied.advances
      · cases hfailure

theorem createdInTurn_all (hsteady : behaviour.Steady) (hhandsOff : behaviour.HandsOff)
    (hbinding : writer.binding ∉ Statement.endpointNames) {items : List (Nat × String)}
    (hknown : ∀ item ∈ items, ∃ e, v.edge? item.2 = some e) (hgraph : w.SameGraph v)
    (happly : applyAllCreated row items v = (.ok (), u)) (hlast : u.SameGraph w') :
    CreatedInTurn writer behaviour row items w w' (.ok (items.map Prod.snd)) := by
  obtain ⟨v', hrun, hsame⟩ := createInTurn_agrees hsteady hhandsOff hbinding hknown hgraph.symm happly
  refine .all hrun (hsame.symm.trans hlast) (fun item hitem => ?_) fun other hother => ?_
  · exact (applyAllCreated_fullyApplied hknown happly item hitem).of_sameGraph hgraph hlast
  · have hothers := (applyAllCreated_edge?_of_not_mem row hother).of_run happly
    rw [hlast.edge?_eq, hothers, hgraph.edge?_eq]

theorem createdInTurn_stopped (hsteady : behaviour.Steady) (hhandsOff : behaviour.HandsOff)
    (hbinding : writer.binding ∉ Statement.endpointNames) {items : List (Nat × String)}
    (hknown : ∀ item ∈ items, ∃ e, v.edge? item.2 = some e) (hgraph : w.SameGraph v)
    (haudible : v.audible = w.audible) {failure : Failure}
    (happly : applyAllCreated row items v = (.error failure, w')) :
    CreatedInTurn writer behaviour row items w w' (.error failure) := by
  rcases applyAllCreated_cases happly with
    hok | ⟨before, after, i, name, found, u, rfl, hfailure, hbefore, hlast⟩
  · cases hok
  obtain rfl := Except.error.inj hfailure
  rw [List.forall_mem_append, List.forall_mem_cons] at hknown
  obtain ⟨hknownBefore, ⟨e, he⟩, _⟩ := hknown
  have hadvances := (leads_applyAllCreated row before).of_run hbefore
  obtain ⟨e', he', _⟩ := hadvances name e he
  obtain ⟨t, hrun, hsame⟩ :=
    createInTurn_agrees hsteady hhandsOff hbinding hknownBefore hgraph.symm hbefore
  obtain ⟨r, t', hcreate, hr, hstop⟩ := createAt_agrees hsteady hhandsOff hbinding he' hsame hlast
  cases r with
  | ok _ => cases hr
  | error first =>
      obtain rfl := Except.error.inj hr
      -- the failing position may be about an edge that was created before it, and does not undo that
      refine .stopped rfl hrun hcreate hstop.symm (fun item hitem => ?_) (fun other hother hne => ?_) ?_
      · have hattached := (keepsAttached_applyCreated name row _ _ _).of_run hlast
        exact ((applyAllCreated_fullyApplied hknownBefore hbefore item hitem).later
          (applyCreated_applied hlast).advances hattached).of_sameGraph hgraph (.refl w')
      · have hearlier := (applyAllCreated_edge?_of_not_mem row hother).of_run hbefore
        have hlater := (applyCreated_edge?_of_ne row _ _ _ hne).of_run hlast
        rw [hlater, hearlier, hgraph.edge?_eq]
      · exact (Task.Leads.of_run (silent_applyAllCreated row _) happly).trans haudible

/-! ## The call -/

variable {edges : List (String × Edge)}

theorem createMany_of_unrequested {result : Except Failure (List String)} {failure : Failure}
    (hrequest : requestMany (edges.map Prod.fst) w = (.error failure, v))
    (h : createMany behaviour (edges.map Prod.fst) w = (result, w')) :
    result = .error failure ∧ w' = v := by
  rw [createMany_eq, Task.bind_apply, hrequest] at h
  obtain ⟨rfl, rfl⟩ := Prod.mk.inj h
  exact ⟨rfl, rfl⟩

theorem createMany_eq_ok {names created : List String}
    (h : createMany behaviour names w = (.ok created, w')) : created = names := by
  rw [createMany_eq] at h
  obtain ⟨_, _, _, hrequested⟩ := Task.bind_eq_ok h
  obtain ⟨_, _, _, happlied⟩ := Task.bind_eq_ok hrequested
  obtain ⟨_, _, _, hnoted⟩ := Task.bind_eq_ok happlied
  obtain ⟨_, _, _, hannounced⟩ := Task.bind_eq_ok hnoted
  exact (Except.ok.inj (Prod.mk.inj hannounced).1).symm

theorem createMany_of_requested (hsteady : behaviour.Steady) (hhandsOff : behaviour.HandsOff)
    (hbinding : writer.binding ∉ Statement.endpointNames) {names : List String}
    {result : Except Failure (List String)} (hknown : ∀ name ∈ names, ∃ e, w.edge? name = some e)
    (hgraph : w.SameGraph v) (haudible : v.audible = w.audible) (hrequest : requestMany names w = (.ok row, v))
    (h : createMany behaviour names w = (result, w')) :
    CreatedInTurn writer behaviour row (Batch.numbered names) w w' result := by
  have hsnd : (Batch.numbered names).map Prod.snd = names := Cypher.Batch.map_snd_numbered names
  have hitems : ∀ item ∈ Batch.numbered names, ∃ e, v.edge? item.2 = some e := fun item hitem => by
    rw [hgraph.edge?_eq]
    exact hknown item.2 (hsnd ▸ List.mem_map_of_mem hitem)
  rw [createMany_eq, Task.bind_of_ok hrequest] at h
  rcases Task.bind_cases h with ⟨_, u, happly, hrest⟩ | ⟨_, happly, rfl⟩
  · have hadvances := (leads_applyAllCreated row (Batch.numbered names)).of_run happly
    rw [Task.bind_of_ok (info_apply _ u)] at hrest
    let noted := u.note [⟨.info, .writer, "Created " ++ toString names.length ++ " relationships"⟩]
    have hannounced : ∀ item ∈ names.map fun name => (name, ([] : List String)),
        ∃ e, noted.edge? item.1 = some e := by
      rw [List.forall_mem_map]
      intro name hname
      obtain ⟨item, hitem, rfl⟩ := List.mem_map.mp (hsnd.symm ▸ hname)
      exact known_of_advances hitems hadvances item hitem
    obtain ⟨t, hrun, hunedited, _⟩ := announce_unedited hsteady hhandsOff .created hannounced
    rw [Task.map_apply, hrun] at hrest
    obtain ⟨rfl, rfl⟩ := Prod.mk.inj hrest
    have hall := createdInTurn_all hsteady hhandsOff hbinding hitems hgraph happly
      ⟨hunedited.clock, hunedited.nodes, hunedited.edges⟩
    rw [hsnd] at hall
    exact hall
  · exact createdInTurn_stopped hsteady hhandsOff hbinding hitems hgraph haudible happly

end Writer

end

/-- A call that creates several edges, with listeners that neither edit nor cancel, makes of them what
single calls would make of them in turn, each with the columns of its position: all of them, or those
before the first that fails, and then the call fails in the same way and no listener hears of it. A call
that succeeds answers the edges in their order. Without an edge, with two parameters of one name, or
without a row no edge is changed. -/
theorem batches_create_in_turn {behaviour : Behaviour} (hsteady : behaviour.Steady)
    (hhandsOff : behaviour.HandsOff) {writer : Writer}
    (hbinding : writer.binding ∉ Statement.endpointNames) {edges : List (String × Edge)}
    {w w' : Workspace} {result : Except Failure (List String)}
    (hfound : ∀ p ∈ edges, w.edge? p.1 = some p.2)
    (h : Writer.createMany behaviour (edges.map Prod.fst) w = (result, w')) :
    (∀ created, result = .ok created → created = edges.map Prod.fst) ∧
    (edges ≠ [] → (∀ i k j l, ¬ Batch.Clash (·.ledger.current) (edges.map Prod.snd) i k j l) →
      ∀ row, w.connection.Answers row →
        CreatedInTurn writer behaviour row (Batch.numbered (edges.map Prod.fst)) w w' result) ∧
    (edges = [] ∨ (∃ i k j l, Batch.Clash (·.ledger.current) (edges.map Prod.snd) i k j l) ∨
      (∀ row, ¬ w.connection.Answers row) →
        (∃ failure, result = .error failure) ∧ w.SameGraph w' ∧ w'.audible = w.audible) := by
  have hrequest := Writer.requestMany_apply hfound
  refine ⟨?_, ?_, ?_⟩
  · rintro created rfl
    exact Writer.createMany_eq_ok h
  · intro hne hclash row hrow
    obtain ⟨s, hs⟩ : ∃ s, Cypher.Batch.create (edges.map Prod.snd) true = .ok s :=
      (Cypher.Batch.exists_create_iff (by simpa using hne)).mpr hclash
    rw [hs] at hrequest
    simp only [Connection.answer_eq_ok_iff.mpr hrow] at hrequest
    have hgraph : w.SameGraph (w.sent s (Cypher.Batch.remarks .create (edges.map Prod.snd))) :=
      ⟨rfl, rfl, rfl⟩
    exact Writer.createMany_of_requested hsteady hhandsOff hbinding (known_of_found hfound) hgraph rfl
      hrequest h
  · intro hnone
    cases hcreate : Cypher.Batch.create (edges.map Prod.snd) true with
    | error failure =>
        rw [hcreate] at hrequest
        obtain ⟨rfl, rfl⟩ := Writer.createMany_of_unrequested hrequest h
        exact ⟨⟨failure, rfl⟩, .refl _, rfl⟩
    | ok s =>
        rw [hcreate] at hrequest
        cases hanswer : w.connection.answer .nothingCreatedInBatch with
        | error failure =>
            simp only [hanswer] at hrequest
            obtain ⟨rfl, rfl⟩ := Writer.createMany_of_unrequested hrequest h
            exact ⟨⟨failure, rfl⟩, ⟨rfl, rfl, rfl⟩, rfl⟩
        | ok row =>
            rcases hnone with rfl | ⟨i, k, j, l, hclash⟩ | hunanswered
            · cases hcreate
            · have hne : edges.map Prod.snd ≠ [] := by
                intro hempty
                rw [hempty] at hcreate
                cases hcreate
              exact absurd hclash ((Cypher.Batch.exists_create_iff hne).mp ⟨s, hcreate⟩ i k j l)
            · exact absurd (Connection.answer_eq_ok_iff.mp hanswer) (hunanswered row)

/-- An edge that comes twice has the first of its ids when its turn comes again, and cannot take the
other; the edge in between has been created. -/
theorem batches_create_in_turn_with_an_edge_twice :
    ∃ (behaviour : Behaviour) (writer : Writer) (row : Row) (w w' : Workspace) (e f : Edge),
      behaviour.Steady ∧ behaviour.HandsOff ∧ writer.binding ∉ Statement.endpointNames ∧
      w.edge? "knows" = some e ∧ w.edge? "likes" = some f ∧ e.id = none ∧
      Writer.createMany behaviour ["knows", "likes", "knows"] w =
        (.error (.idAssigned 7 (some 9)), w') ∧
      CreatedInTurn writer behaviour row (Batch.numbered ["knows", "likes", "knows"]) w w'
        (.error (.idAssigned 7 (some 9))) ∧
      w'.edge? "knows" = some { e with id := some 7, ledger := e.ledger.commit } ∧
      w'.edge? "likes" = some { f with id := some 8, ledger := f.ledger.commit } := by
  let behaviour : Behaviour := fun _ l _ => ⟨[.unsubscribe l], .failed⟩
  let e : Edge :=
    { start := ⟨1, none⟩, finish := ⟨2, none⟩, label := "KNOWS",
      ledger := PropertyLedger.set {} "since" (.int 1), created := ⟨0⟩, updated := ⟨0⟩ }
  let f : Edge := { e with label := "LIKES" }
  let record (id : Int) : Value := .record 82 [.int id, .int 1, .int 2, .text "KNOWS", .map []]
  let row : Row := .ofList [("rel1", record 7), ("rel2", record 8), ("rel3", record 9)]
  let w : Workspace :=
    { edges := .ofList [("knows", e), ("likes", f)], connection := { upcoming := [.rows [row]] } }
  let w' : Workspace := (Writer.createMany behaviour ["knows", "likes", "knows"] w).2
  have hsteady : behaviour.Steady := fun _ _ _ => nofun
  have hhandsOff : behaviour.HandsOff := by
    intro _ l _ a ha name
    obtain rfl := List.mem_singleton.mp ha
    exact not_false
  have hbinding : ({} : Writer).binding ∉ Statement.endpointNames := by decide
  have hcall : Writer.createMany behaviour ["knows", "likes", "knows"] w =
      (.error (.idAssigned 7 (some 9)), w') := Prod.ext (by decide +kernel) rfl
  have hfound : ∀ p ∈ [("knows", e), ("likes", f), ("knows", e)], w.edge? p.1 = some p.2 := by
    decide +kernel
  have hturn := (batches_create_in_turn hsteady hhandsOff hbinding hfound hcall).2.1 (by simp)
    (fun _ _ _ _ => Cypher.Batch.Clash.not_of_length_le_ten (by decide)) row ⟨[], rfl⟩
  exact ⟨behaviour, {}, row, w, w', e, f, hsteady, hhandsOff, hbinding, by decide +kernel,
    by decide +kernel, rfl, hcall, hturn, by decide +kernel, by decide +kernel⟩

end EdgeMapper
