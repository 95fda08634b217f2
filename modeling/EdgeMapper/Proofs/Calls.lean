import EdgeMapper.Proofs.AllOrNothing
import EdgeMapper.Proofs.Confirmation
/-!
# What calls do to an edge

A call ends with announcements, and before them it has done to each edge all that it is going to do: an
update has committed the edges that it wrote, a call that creates edges has committed those that were
confirmed, and a call that deletes has changed nothing. The main statements say so for each kind of
call; whatever no listener can break then also holds when the call has ended.
-/

namespace EdgeMapper

open Cypher (Statement Batch.numbered Batch.relName Batch.startName Batch.finishName)

/-! ## What a call leaves to the listeners -/

/-- All that happened after the workspace was of this kind is that something was announced. -/
def Announced (behaviour : Behaviour) (P : Workspace → Prop) (w : Workspace) : Prop :=
  ∃ v type items, P v ∧ (Task.announce behaviour type items v).2 = w

section

variable {behaviour : Behaviour} {P : Workspace → Prop} {w : Workspace}

theorem announced_self (h : P w) : Announced behaviour P w := ⟨w, .updated, [], h, rfl⟩

theorem announced_announce (h : P w) (type : EventType) (items : List (String × List String)) :
    Announced behaviour P (Task.announce behaviour type items w).2 :=
  ⟨w, type, items, h, rfl⟩

theorem announced_bind {α β : Type} {x : Task α} {f : α → Task β} (hx : P (x w).2)
    (hf : ∀ a v, x w = (.ok a, v) → Announced behaviour P (f a v).2) :
    Announced behaviour P ((x >>= f) w).2 := by
  rw [Task.bind_apply]
  cases hrun : x w with
  | mk r v =>
      rw [hrun] at hx
      cases r with
      | error failure => exact announced_self hx
      | ok a => exact hf a v hrun

theorem Announced.imp {Q : Workspace → Prop} (h : Announced behaviour P w) (hQ : ∀ v, P v → Q v) :
    Announced behaviour Q w := by
  obtain ⟨v, type, items, hv, hlast⟩ := h
  exact ⟨v, type, items, hQ v hv, hlast⟩

theorem Announced.kept (h : Announced behaviour P w) (hkept : Workspace.Kept behaviour P) : P w := by
  obtain ⟨v, type, items, hv, rfl⟩ := h
  exact Task.announce_kept hkept type items hv

end

/-! ## Updating -/

inductive UpdateCall (behaviour : Behaviour) (w w' : Workspace) : List String → Bool → Prop where
  | update {binding name : String} {result : Except Failure Bool}
    (h : (Writer.ofBinding binding).update behaviour name w = (result, w')) :
    UpdateCall behaviour w w' [name] (accepted result)
  | updateMany {names : List String} {result : Except Failure Nat}
    (h : Writer.updateMany behaviour names w = (result, w')) :
    UpdateCall behaviour w w' names (accepted result)

/-- The edge of this name is the given one, committed exactly if `p` holds. -/
structure Workspace.CommittedIf (w : Workspace) (name : String) (e : Edge) (p : Prop) : Prop where
  committed : p → w.edge? name = some e.commit
  same : ¬ p → w.edge? name = some e

section

variable {α : Type} {behaviour : Behaviour} {w w' : Workspace} {name : String} {e : Edge}

theorem Workspace.committedIf_of_edges {p : Prop} (hp : ¬ p) (hsame : w'.edges = w.edges)
    (he : w.edge? name = some e) : w'.CommittedIf name e p := by
  refine ⟨fun h => absurd h hp, fun _ => ?_⟩
  rw [Workspace.edge?, hsame]
  exact he

theorem AllOrNothing.announced {written : List (String × Edge)} {compiled : Except Failure Statement}
    {ready : Prop} {result : Except Failure α}
    (h : AllOrNothing behaviour written compiled ready w w' result)
    (hfound : ∀ p ∈ written, w.edge? p.1 = some p.2) (he : w.edge? name = some e) :
    Announced behaviour (·.CommittedIf name e (accepted result = true ∧ (name, e) ∈ written)) w' := by
  by_cases haccepted : accepted result = true
  · obtain ⟨v, hannounced, hv⟩ := h.all haccepted
    refine ⟨v, .updated, _, ⟨fun hwritten => ?_, fun hunwritten => ?_⟩, hannounced⟩
    · rw [hv]
      exact get?_commitAll hfound hwritten.2 w.edges
    · rw [hv]
      refine (get?_commitAll_of_not_mem ?_ w.edges).trans he
      intro hname
      obtain ⟨p, hp, rfl⟩ := List.mem_map.mp hname
      apply hunwritten
      rw [Option.some.inj (he.symm.trans (hfound p hp))]
      exact ⟨haccepted, hp⟩
  · cases result with
    | ok a => exact absurd rfl haccepted
    | error failure =>
        have hsame := h.nothing failure rfl fun hcancelled => haccepted (by rw [hcancelled]; rfl)
        refine announced_self (Workspace.committedIf_of_edges (fun h => haccepted h.1) ?_ he)
        rw [hsame]

theorem UpdateCall.outcome {names : List String} {success : Bool}
    (h : UpdateCall behaviour w w' names success) :
    (success = false ∧ w'.edges = w.edges) ∨
    ∃ edges : List (String × Edge), edges.map Prod.fst = names ∧
      (∀ p ∈ edges, w.edge? p.1 = some p.2) ∧
      (edges.filter (·.2.isDirty) = [] ∧ w'.edges = w.edges ∨
        ∃ (α : Type) (result : Except Failure α) (compiled : Except Failure Statement) (ready : Prop),
          accepted result = success ∧
          AllOrNothing behaviour (edges.filter (·.2.isDirty)) compiled ready w w' result) := by
  cases h with
  | @update binding name result h =>
      rcases Writer.update_cases h with ⟨hrejected, rfl⟩ | ⟨e, he, ⟨hclean, rfl, hsame⟩ | ⟨hdirty, _⟩⟩
      · exact .inl ⟨hrejected, rfl⟩
      · refine .inr ⟨[(name, e)], rfl, by simpa using he, .inl ⟨by simp [hclean], ?_⟩⟩
        rw [hsame]
      · refine .inr ⟨[(name, e)], rfl, by simpa using he, .inr ?_⟩
        have hfilter : [(name, e)].filter (·.2.isDirty) = [(name, e)] := by simp [hdirty]
        rw [hfilter]
        exact ⟨_, _, _, _, rfl, Writer.update_allOrNothing binding he hdirty h⟩
  | @updateMany names result h =>
      rcases Writer.updateMany_cases h with
        ⟨hrejected, rfl⟩ | ⟨edges, rfl, hfound, ⟨hnone, _, rfl⟩ | ⟨dirty, rfl, hne, _⟩⟩
      · exact .inl ⟨hrejected, rfl⟩
      · exact .inr ⟨edges, rfl, hfound, .inl ⟨hnone, rfl⟩⟩
      · exact .inr ⟨edges, rfl, hfound,
          .inr ⟨_, _, _, _, rfl, Writer.updateMany_allOrNothing hfound rfl hne h⟩⟩

theorem mem_dirty_iff {edges : List (String × Edge)} (hfound : ∀ p ∈ edges, w.edge? p.1 = some p.2)
    (he : w.edge? name = some e) :
    (name, e) ∈ edges.filter (·.2.isDirty) ↔ name ∈ edges.map Prod.fst ∧ e.isDirty = true := by
  rw [List.mem_filter]
  refine and_congr_left fun _ => ⟨fun hmem => List.mem_map_of_mem hmem, fun hname => ?_⟩
  obtain ⟨p, hp, rfl⟩ := List.mem_map.mp hname
  rw [Option.some.inj (he.symm.trans (hfound p hp))]
  exact hp

theorem UpdateCall.announced {names : List String} {success : Bool}
    (h : UpdateCall behaviour w w' names success) (he : w.edge? name = some e) :
    Announced behaviour
      (·.CommittedIf name e (success = true ∧ name ∈ names ∧ e.isDirty = true)) w' := by
  rcases h.outcome with ⟨rfl, hsame⟩ | ⟨edges, rfl, hfound, houtcome⟩
  · exact announced_self (Workspace.committedIf_of_edges (by simp) hsame he)
  · rw [← mem_dirty_iff hfound he]
    rcases houtcome with ⟨hnone, hsame⟩ | ⟨α, result, compiled, ready, rfl, hlaw⟩
    · exact announced_self (Workspace.committedIf_of_edges (by simp [hnone]) hsame he)
    · exact hlaw.announced (fun p hp => hfound p (List.mem_of_mem_filter hp)) he

end

/-! ## Creating and deleting -/

/-- The edge of this name has the label of the given one, and also its ledger unless `p` holds. -/
def Workspace.Resembles (w : Workspace) (name : String) (e : Edge) (p : Prop) : Prop :=
  ∃ e', w.edge? name = some e' ∧ e'.label = e.label ∧ (¬ p → e'.ledger = e.ledger)

section

variable {w w' : Workspace} {name other : String} {e f g : Edge} {p q : Prop}

theorem Workspace.resembles_self (he : w.edge? name = some e) : w.Resembles name e False :=
  ⟨e, he, rfl, fun _ => rfl⟩

theorem Workspace.Resembles.imp (h : w.Resembles name e p) (hpq : p → q) : w.Resembles name e q := by
  obtain ⟨e', he', hlabel, hledger⟩ := h
  exact ⟨e', he', hlabel, fun hq => hledger fun hp => hq (hpq hp)⟩

theorem Workspace.Resembles.of_edges (h : w.Resembles name e p) (hsame : w'.edges = w.edges) :
    w'.Resembles name e p := by
  obtain ⟨e', he', hsimilar⟩ := h
  exact ⟨e', by rw [Workspace.edge?, hsame]; exact he', hsimilar⟩

theorem Workspace.Resembles.stored (h : w.Resembles name e p) (hf : w.edge? other = some f)
    (hstored : w.Stored other g w') (hlabel : g.label = f.label) (hledger : ¬ q → g.ledger = f.ledger) :
    w'.Resembles name e (p ∨ q ∧ other = name) := by
  obtain ⟨e', he', hsame, hkept⟩ := h
  by_cases hname : name = other
  · subst hname
    obtain rfl := Option.some.inj (he'.symm.trans hf)
    refine ⟨g, by rw [hstored, if_pos rfl], hlabel.trans hsame, fun hp => ?_⟩
    rw [not_or] at hp
    rw [hledger fun hq => hp.2 ⟨hq, rfl⟩, hkept hp.1]
  · refine ⟨e', by rw [hstored, if_neg hname]; exact he', hsame, fun hp => ?_⟩
    exact hkept fun hp' => hp (.inl hp')

end

def Task.Quiet {α : Type} (t : Task α) : Prop := ∀ w, (t w).2.edges = w.edges

theorem Workspace.coarse_edges : Coarse fun w w' => w'.edges = w.edges :=
  coarse_of_part fun _ _ _ _ _ => rfl

open Workspace (coarse_edges)

theorem Edge.assignId_eq_ok {e e' : Edge} {id : Option Int} (h : e.assignId id = .ok e') :
    e'.label = e.label ∧ e'.ledger = e.ledger := by
  unfold Edge.assignId at h
  split at h
  · obtain rfl := Except.ok.inj h
    exact ⟨rfl, rfl⟩
  · split at h
    · obtain rfl := Except.ok.inj h
      exact ⟨rfl, rfl⟩
    · cases h

namespace Writer

/-- The names of the edges that are brought up to date before something is wrong with the row. -/
def confirmed (row : Row) : List (Nat × String) → Workspace → List String
  | [], _ => []
  | (i, name) :: rest, w =>
    match applyCreated name row (Batch.relName i) (Batch.startName i) (Batch.finishName i) w with
    | (.ok (), v) => name :: confirmed row rest v
    | (.error _, _) => []

def request (writer : Writer) (name : String) : Task Row := do
  let e ← Task.edge name
  let s ← compile .create e writer.options
  firstRow .nothingCreated (← Task.send s)

def requestMany (names : List String) : Task Row := do
  let edges ← names.mapM Task.edge
  let s ← compileBatch .create edges true
  firstRow .nothingCreatedInBatch (← Task.send s)

def createdNames (names : List String) (w : Workspace) : List String :=
  match requestMany names w with
  | (.ok row, v) => confirmed row (Batch.numbered names) v
  | (.error _, _) => []

theorem create_eq (writer : Writer) (behaviour : Behaviour) (name : String) :
    writer.create behaviour name = (do
      let row ← writer.request name
      applyCreated name row writer.binding "fromNode" "toNode"
      let e ← Task.edge name
      info ("Created relationship " ++ Literal.ofId e.id ++ " (" ++ e.label ++ ")")
      Task.announce behaviour .created [(name, [])]
      pure name) := by
  simp only [create, request, bind_assoc]

theorem createMany_eq (behaviour : Behaviour) (names : List String) :
    createMany behaviour names = (do
      let row ← requestMany names
      applyAllCreated row (Batch.numbered names)
      info ("Created " ++ toString names.length ++ " relationships")
      Task.announce behaviour .created (names.map fun name => (name, []))
      pure names) := by
  simp only [createMany, requestMany, bind_assoc]

section

variable {w w' : Workspace} {name other column startColumn finishColumn : String} {row : Row}
  {e f : Edge} {p : Prop}

section

variable {R : Workspace → Workspace → Prop} (h : Workspace.Coarse R)

include h

theorem leads_fetched (row : Row) (column : String) : (fetched row column).Leads R := by
  intro w
  rw [fetched_apply]
  cases nodeRecord row column with
  | error fault => exact h.refl w
  | ok r =>
      cases r with
      | none => exact h.refl w
      | some record =>
          let node := Node.ofRecord w.tick.1 record
          exact h.aside w w.clock.read.2 (w.nodes ++ [node]) w.connection w.log

theorem leads_firstRow (fault : AnswerFault) (rows : List Row) : (firstRow fault rows).Leads R := by
  intro w
  rw [firstRow_apply]
  exact h.refl w

theorem leads_compile (operation : Operation) (e : Edge) (o : Cypher.Options) :
    (compile operation e o).Leads R :=
  Task.leads_bind h (Task.leads_ofExcept h _) fun s =>
    Task.leads_bind h (Task.leads_note h _) fun _ => Task.leads_pure h s

theorem leads_compileBatch (operation : Operation) (edges : List Edge) (withReturn : Bool) :
    (compileBatch operation edges withReturn).Leads R :=
  Task.leads_bind h (Task.leads_ofExcept h _) fun s =>
    Task.leads_bind h (Task.leads_note h _) fun _ => Task.leads_pure h s

theorem leads_request (writer : Writer) (name : String) : (writer.request name).Leads R := by
  refine Task.leads_bind h (Task.leads_edge h name) fun e => ?_
  refine Task.leads_bind h (leads_compile h .create e _) fun s => ?_
  exact Task.leads_bind h (Task.leads_send h s) (leads_firstRow h _)

theorem leads_requestMany (names : List String) : (requestMany names).Leads R := by
  refine Task.leads_bind h (Task.leads_mapM h (Task.leads_edge h) names) fun edges => ?_
  refine Task.leads_bind h (leads_compileBatch h .create edges true) fun s => ?_
  exact Task.leads_bind h (Task.leads_send h s) (leads_firstRow h _)

end

/-- What holds of the steps, and of every sequence of tasks of which it holds, holds of all that is done
to bring an edge up to date. -/
theorem applyCreated_of_steps (P : ∀ {α : Type}, Task α → Prop)
    (hbind : ∀ {α β : Type} {x : Task α} {f : α → Task β}, P x → (∀ a, P (f a)) → P (x >>= f))
    (hofExcept : ∀ {α : Type} (r : Except Failure α), P (Task.ofExcept r)) (hedge : P (Task.edge name))
    (hput : ∀ e, P (Task.putEdge name e)) (hfetched : ∀ column, P (fetched row column)) :
    P (applyCreated name row column startColumn finishColumn) := by
  refine hbind (hofExcept _) fun record => hbind hedge fun e => hbind (hofExcept _) fun identified => ?_
  refine hbind (hput identified) fun _ => ?_
  refine hbind (hfetched startColumn) fun start => hbind (hfetched finishColumn) fun finish => ?_
  refine hbind (hput _) fun _ => ?_
  split
  · exact hofExcept (.error _)
  · exact hput _

theorem exists_of_request {writer : Writer} (h : writer.request name w = (.ok row, w')) :
    ∃ e, w.edge? name = some e := by
  rcases Task.bind_cases h with ⟨e, v, hedge, _⟩ | ⟨failure, _, herror⟩
  · exact ⟨e, (Task.edge_eq_ok hedge).1⟩
  · cases herror

/-- What can come of bringing an edge up to date with a row. -/
inductive Applied (name : String) (row : Row) (columns : Columns) (w w' : Workspace) :
    Except Failure Unit → Prop where
  | unknown (hsame : w' = w) {failure : Failure} (hfailure : failure ≠ .cancelled) :
    Applied name row columns w w' (.error failure)
  | tried {e e' : Edge} {result : Except Failure Unit} (he : w.edge? name = some e)
    (hstored : w.Stored name e' w') (hconnection : w'.connection = w.connection)
    (h : Tried row columns w' e result e') : Applied name row columns w w' result

theorem applyCreated_applied {result : Except Failure Unit}
    (h : applyCreated name row column startColumn finishColumn w = (result, w')) :
    Applied name row ⟨column, startColumn, finishColumn⟩ w w' result := by
  cases he : w.edge? name with
  | some e =>
      obtain ⟨e', hstored, hconnection, htried⟩ :=
        applyCreated_tried ⟨column, startColumn, finishColumn⟩ he h
      exact .tried he hstored hconnection htried
  | none =>
      rcases Task.ofExcept_bind_cases h with ⟨record, _, h₁⟩ | ⟨_, hfailure, rfl, rfl⟩
      · rcases Task.edge_bind_cases h₁ with ⟨e, hfound, _⟩ | ⟨rfl, rfl⟩
        · cases he.symm.trans hfound
        · exact .unknown rfl nofun
      · exact .unknown rfl (returned_failure hfailure)

theorem Applied.connection {result : Except Failure Unit} (h : Applied name row columns w w' result) :
    w'.connection = w.connection := by
  cases h with
  | unknown hsame => rw [hsame]
  | tried _ _ hconnection => exact hconnection

theorem applyAllCreated_connection (row : Row) (items : List (Nat × String)) (w : Workspace) :
    (applyAllCreated row items w).2.connection = w.connection := by
  induction items generalizing w with
  | nil => rfl
  | cons item rest ih =>
      cases hrun : applyAllCreated row (item :: rest) w with
      | mk result w' =>
          rcases Task.bind_cases hrun with ⟨_, v, happly, hrest⟩ | ⟨failure, happly, _⟩
          · have hrest' := ih v
            rw [hrest] at hrest'
            exact hrest'.trans (applyCreated_applied happly).connection
          · exact (applyCreated_applied happly).connection

theorem applyCreated_resembles {result : Except Failure Unit}
    (h : applyCreated other row column startColumn finishColumn w = (result, w'))
    (hw : w.Resembles name e p) : w'.Resembles name e (p ∨ result = .ok () ∧ other = name) := by
  cases applyCreated_applied h with
  | unknown hsame =>
      subst hsame
      exact hw.imp .inl
  | @tried f f' _ hf hstored _ htried =>
      obtain ⟨hlabel, hledger⟩ := htried.same
      exact hw.stored hf hstored hlabel hledger

theorem applyAllCreated_resembles {items : List (Nat × String)} {result : Except Failure Unit}
    (h : applyAllCreated row items w = (result, w')) (hw : w.Resembles name e p) :
    w'.Resembles name e (p ∨ name ∈ confirmed row items w) := by
  induction items generalizing w p with
  | nil =>
      obtain ⟨_, rfl⟩ := Prod.mk.inj h
      exact hw.imp .inl
  | cons item rest ih =>
      obtain ⟨i, other⟩ := item
      rw [confirmed]
      rcases Task.bind_cases h with ⟨_, v, happly, hrest⟩ | ⟨failure, happly, rfl⟩
      · have hv := ih hrest (applyCreated_resembles happly hw)
        rw [happly]
        refine hv.imp ?_
        rintro ((hp | ⟨_, rfl⟩) | hmem)
        · exact .inl hp
        · exact .inr (List.mem_cons_self ..)
        · exact .inr (List.mem_cons_of_mem _ hmem)
      · exact (applyCreated_resembles happly hw).imp fun hor => .inl (hor.resolve_right (by simp))

end

end Writer

section

variable {behaviour : Behaviour} {w w' : Workspace} {name : String} {e : Edge}

theorem announced_created {message : Edge → String} {result : Except Failure String}
    (he : w.edge? name = some e)
    (h : (Task.edge name >>= fun e => Writer.info (message e) >>= fun _ =>
      Task.announce behaviour .created [(name, [])] >>= fun _ => pure name) w = (result, w')) :
    accepted result = true ∧ Announced behaviour (·.edges = w.edges) w' := by
  rw [Task.bind_of_ok (Task.edge_of_some he), Task.bind_of_ok (Writer.info_apply _ w),
    Task.map_apply] at h
  obtain ⟨rfl, hw'⟩ := Prod.mk.inj h
  refine ⟨?_, w.note _, .created, _, rfl, hw'⟩
  rw [accepted_map]
  exact Task.announce_accepted (by simpa using ⟨e, he⟩) rfl

end

/-- A call that creates edges, and the names of those that it creates. -/
inductive CreateCall (behaviour : Behaviour) (w w' : Workspace) : List String → Prop where
  | create {writer : Writer} {name : String} {result : Except Failure String}
    (h : writer.create behaviour name w = (result, w')) :
    CreateCall behaviour w w' (if accepted result then [name] else [])
  | createMany {names : List String} {result : Except Failure (List String)}
    (h : Writer.createMany behaviour names w = (result, w')) :
    CreateCall behaviour w w' (Writer.createdNames names w)

inductive DeleteCall (behaviour : Behaviour) (w w' : Workspace) : Prop where
  | delete {writer : Writer} {name : String} {result : Except Failure Unit}
    (h : writer.delete behaviour name w = (result, w'))
  | deleteMany {names : List String} {result : Except Failure Unit}
    (h : Writer.deleteMany behaviour names w = (result, w'))

section

variable {behaviour : Behaviour} {w w' : Workspace} {name : String} {e : Edge}

theorem announced_quiet {α β : Type} {P : Workspace → Prop} {x : Task α} {f : α → Task β}
    (hx : x.Quiet) (hP : ∀ v, v.edges = w.edges → P v)
    (hf : ∀ a v, v.edges = w.edges → Announced behaviour P (f a v).2) :
    Announced behaviour P ((x >>= f) w).2 := by
  refine announced_bind (hP _ (hx w)) fun a v hrun => hf a v ?_
  have hx := hx w
  rw [hrun] at hx
  exact hx

theorem DeleteCall.announced (h : DeleteCall behaviour w w') :
    Announced behaviour (·.edges = w.edges) w' := by
  cases h with
  | @delete writer name result h =>
      rw [show w' = (writer.delete behaviour name w).2 by rw [h]]
      refine announced_quiet (Task.leads_edge coarse_edges name) (fun _ h => h) fun e v hv => ?_
      refine announced_quiet (Writer.leads_compile coarse_edges .delete e _) (fun _ h => h.trans hv)
        fun s u hu => ?_
      refine announced_quiet (Task.leads_send coarse_edges s) (fun _ h => h.trans (hu.trans hv))
        fun _ t ht => ?_
      exact announced_announce (ht.trans (hu.trans hv)) .deleted _
  | @deleteMany names result h =>
      rw [show w' = (Writer.deleteMany behaviour names w).2 by rw [h]]
      refine announced_quiet (Task.leads_mapM coarse_edges (Task.leads_edge coarse_edges) names)
        (fun _ h => h) fun es v hv => ?_
      refine announced_quiet (Writer.leads_compileBatch coarse_edges .delete es _)
        (fun _ h => h.trans hv) fun s u hu => ?_
      refine announced_quiet (Task.leads_send coarse_edges s) (fun _ h => h.trans (hu.trans hv))
        fun _ t ht => ?_
      exact announced_announce (ht.trans (hu.trans hv)) .deleted _

theorem CreateCall.announced {created : List String} (h : CreateCall behaviour w w' created)
    (he : w.edge? name = some e) :
    Announced behaviour (·.Resembles name e (name ∈ created)) w' := by
  have hself := Workspace.resembles_self he
  cases h with
  | @create writer other result h =>
      rw [Writer.create_eq] at h
      have hquiet := Writer.leads_request coarse_edges writer other w
      -- asking changes no edge, the row changes this one alone, and listeners come last
      rcases Task.bind_cases h with ⟨row, v, hrow, h₁⟩ | ⟨failure, hfailure, rfl⟩
      · obtain ⟨f, hf⟩ := Writer.exists_of_request hrow
        rw [hrow] at hquiet
        rcases Task.bind_cases h₁ with ⟨_, u, happlied, h₂⟩ | ⟨failure, hfailure, rfl⟩
        · have hu := Writer.applyCreated_resembles happlied (hself.of_edges hquiet)
          obtain ⟨g, hg, _⟩ := Writer.applyCreated_resembles happlied
            ((Workspace.resembles_self hf).of_edges hquiet)
          obtain ⟨haccepted, hw'⟩ := announced_created hg h₂
          rw [if_pos haccepted]
          refine hw'.imp fun t ht => (hu.of_edges ht).imp ?_
          rintro (hfalse | ⟨_, rfl⟩)
          · exact hfalse.elim
          · exact List.mem_singleton_self _
        · have hw' := Writer.applyCreated_resembles hfailure (hself.of_edges hquiet)
          exact announced_self (hw'.imp (by simp))
      · rw [hfailure] at hquiet
        exact announced_self ((hself.of_edges hquiet).imp False.elim)
  | @createMany names result h =>
      rw [show w' = (Writer.createMany behaviour names w).2 by rw [h], Writer.createMany_eq]
      have hquiet := Writer.leads_requestMany coarse_edges names w
      refine announced_bind ((hself.of_edges hquiet).imp False.elim) fun row v hrow => ?_
      rw [hrow] at hquiet
      have hcreated : Writer.createdNames names w = Writer.confirmed row (Batch.numbered names) v := by
        rw [Writer.createdNames, hrow]
      rw [hcreated]
      have happlied {r u} (hrun : Writer.applyAllCreated row (Batch.numbered names) v = (r, u)) :
          u.Resembles name e (name ∈ Writer.confirmed row (Batch.numbered names) v) :=
        (Writer.applyAllCreated_resembles hrun (hself.of_edges hquiet)).imp (by simp)
      refine announced_bind (happlied rfl) fun _ u hrun => ?_
      rw [Task.bind_of_ok (Writer.info_apply _ u), Task.map_apply]
      exact announced_announce (happlied hrun) .created _

end

end EdgeMapper
