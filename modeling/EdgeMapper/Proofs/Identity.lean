import EdgeMapper.Proofs.Preparations
import Mathlib.Logic.Relation
/-!
# Identity

An edge is edited, resolved, written by calls and announced, while nodes change around it and
connections answer as they like. Through all of this it stays the edge between the nodes between which
it was built: every step continues it, and so does every run of steps. Whatever tries to give it
another id fails and changes nothing.
-/

namespace EdgeMapper

/-- One thing that happens while the edge of this name is in use; its id is assigned by hand only where
that is allowed. -/
inductive LifeStep (name : String) (byHand : Bool) : Workspace → Workspace → Prop where
  | operate {w : Workspace} {e : Edge} {op : Edge.Operation} (he : w.edge? name = some e)
    (hop : ∀ id, op = .assign id → byHand = true) :
    LifeStep name byHand w (w.putEdge name (op.run e).1)
  | node {w : Workspace} (ref : NodeRef) (f : Node → Node) :
    LifeStep name byHand w (w.modifyNode ref f)
  | call {w w' : Workspace} {c : Command} {behaviour : Behaviour} {result : Except Failure Unit}
    (h : c.run behaviour w = (result, w')) : LifeStep name byHand w w'
  | emit {w w' : Workspace} {behaviour : Behaviour} {event : Event} {result : Except Failure Nat}
    (h : Task.emit behaviour event w = (result, w')) : LifeStep name byHand w w'
  | elsewhere {w w' : Workspace} (hsame : w'.edge? name = w.edge? name) : LifeStep name byHand w w'

def Life (name : String) (byHand : Bool) : Workspace → Workspace → Prop :=
  Relation.ReflTransGen (LifeStep name byHand)

def Workspace.GoesOn (w : Workspace) (name : String) (byHand : Bool) (e : Edge) : Prop :=
  ∃ e', w.edge? name = some e' ∧ e.Continues e' ∧ (byHand = false → e.IdInRange → e'.IdInRange)

/-- Nothing gives the edge of this name another id: every attempt fails and leaves it as it was. -/
structure Workspace.Fixed (w : Workspace) (name : String) (e : Edge) (i : Int) : Prop where
  assign : ∀ id, id ≠ some i →
    (Edge.Operation.assign id).run e = (e, some (Failure.idAssigned i id).told)
  adopt : ∀ j, 0 ≤ j ∧ j ≤ Value.maxId → j ≠ i →
    (Edge.Operation.adopt (.int j)).run e = (e, some (Failure.idAssigned i (some j)).told)
  confirm : ∀ row column startColumn finishColumn record,
    Writer.returned row column = .ok record → record.id ≠ i →
    Writer.applyCreated name row column startColumn finishColumn w =
      (.error (Failure.idAssigned i (some record.id)).told, w)
  /-- A call that creates edges does not succeed with another record for this one. -/
  create : ∀ (c : Command) behaviour row column record, c.type = .created →
    (column, name) ∈ c.columns → w.connection.Answers row → Writer.returned row column = .ok record →
    record.id ≠ i → accepted (c.run behaviour w).1 = false

section

variable {name : String} {byHand : Bool} {e : Edge} {w v w' : Workspace}

theorem Workspace.goesOn_self (he : w.edge? name = some e) : w.GoesOn name byHand e :=
  ⟨e, he, .refl e, fun _ h => h⟩

theorem Workspace.GoesOn.of_continues {e' : Edge} (hcontinues : e.Continues e')
    (hrange : byHand = false → e.IdInRange → e'.IdInRange) (h : w.GoesOn name byHand e') :
    w.GoesOn name byHand e := by
  obtain ⟨e'', he'', hcontinues', hrange'⟩ := h
  exact ⟨e'', he'', hcontinues.trans hcontinues', fun hby h => hrange' hby (hrange hby h)⟩

def Workspace.HasEnds (w : Workspace) (name : String) (e : Edge) : Prop :=
  ∃ e', w.edge? name = some e' ∧ e'.id = e.id ∧ e'.start = e.start ∧ e'.finish = e.finish

theorem kept_hasEnds (behaviour : Behaviour) (name : String) (e : Edge) :
    Workspace.Kept behaviour (·.HasEnds name e) := by
  refine ⟨fun _ _ _ h => h, fun _ _ h => h, ?_⟩
  intro _ _ _ a _ v v' hv hperform
  obtain ⟨e', he', hid, hstart, hfinish⟩ := hv
  obtain ⟨e'', he'', hedited⟩ := Workspace.perform_edge? hperform he'
  obtain ⟨hid', hstart', hfinish'⟩ := hedited.ends_eq
  exact ⟨e'', he'', hid'.trans hid, hstart'.trans hstart, hfinish'.trans hfinish⟩

theorem Workspace.HasEnds.goesOn (h : w.HasEnds name e) : w.GoesOn name byHand e := by
  obtain ⟨e', he', hid, hstart, hfinish⟩ := h
  refine ⟨e', he', Edge.continues_of_eq hid hstart hfinish, fun _ hrange i hi => ?_⟩
  exact hrange i (hid.symm.trans hi)

theorem Workspace.Advances.goesOn (h : w.Advances w') (he : w.edge? name = some e) :
    w'.GoesOn name byHand e := by
  obtain ⟨e', he', hadvances⟩ := h name e he
  exact ⟨e', he', hadvances.toContinues, fun _ => hadvances.idInRange⟩

/-! ## Steps -/

/-- A call brings its edges up to date and then lets the listeners edit them. -/
theorem goesOn_call {c : Command} {behaviour : Behaviour} {result : Except Failure Unit}
    (h : c.run behaviour w = (result, w')) (he : w.edge? name = some e) :
    w'.GoesOn name byHand e := by
  rcases Command.run_cases h with ⟨failure, _, hprepare⟩ | ⟨items, v, hprepare, hannounce⟩
  · exact (Command.prepare_outcome hprepare).advances.goesOn he
  · have hprepared : v.GoesOn name byHand e := (Command.prepare_outcome hprepare).advances.goesOn he
    obtain ⟨e', he', hcontinues, hrange⟩ := hprepared
    have hends := Task.announce_kept (kept_hasEnds behaviour name e') c.type items
      ⟨e', he', rfl, rfl, rfl⟩
    rw [hannounce] at hends
    exact hends.goesOn.of_continues hcontinues hrange

theorem LifeStep.goesOn (h : LifeStep name byHand w w') (he : w.edge? name = some e) :
    w'.GoesOn name byHand e := by
  cases h with
  | @operate f op hf hop =>
      obtain rfl := Option.some.inj (he.symm.trans hf)
      refine ⟨(op.run e).1, by rw [Workspace.edge?_putEdge, if_pos rfl], e.continues_run op, ?_⟩
      -- of all operations only an assignment by hand could leave the range
      intro hby hrange
      refine Edge.idInRange_run hrange fun id hassign => ?_
      rw [hop id hassign] at hby
      cases hby
  | node ref f => exact Workspace.goesOn_self he
  | call h => exact goesOn_call h he
  | @emit _ behaviour event result h =>
      have hends := Task.emit_kept (kept_hasEnds behaviour name e) event ⟨e, he, rfl, rfl, rfl⟩
      rw [h] at hends
      exact hends.goesOn
  | elsewhere hsame => exact Workspace.goesOn_self (hsame.trans he)

theorem Life.goesOn (h : Life name byHand w w') (he : w.edge? name = some e) :
    w'.GoesOn name byHand e := by
  induction h with
  | refl => exact Workspace.goesOn_self he
  | tail _ hstep ih =>
      obtain ⟨e', he', hcontinues, hrange⟩ := ih
      exact (hstep.goesOn he').of_continues hcontinues hrange

/-! ## Attempts to change an id -/

theorem applyCreated_other {row : Row} {column : String} (startColumn finishColumn : String)
    {record : EdgeRecord} {i : Int} (he : w.edge? name = some e) (hid : e.id = some i)
    (hrecord : Writer.returned row column = .ok record) (hne : record.id ≠ i) :
    Writer.applyCreated name row column startColumn finishColumn w =
      (.error (Failure.idAssigned i (some record.id)).told, w) := by
  have hrefused : e.assignId (some record.id) = .error (Failure.idAssigned i (some record.id)).told :=
    Edge.assignId_other hid fun h => hne (Option.some.inj h)
  rw [Writer.applyCreated, hrecord, Task.bind_of_ok (Task.ofExcept_apply _ w),
    Task.bind_of_ok (Task.edge_of_some he), hrefused]
  rfl

theorem create_other {c : Command} {behaviour : Behaviour} {row : Row} {column : String}
    {record : EdgeRecord} {i : Int} (he : w.edge? name = some e) (hid : e.id = some i)
    (htype : c.type = .created) (hcolumn : (column, name) ∈ c.columns)
    (hanswer : w.connection.Answers row) (hrecord : Writer.returned row column = .ok record)
    (hne : record.id ≠ i) : accepted (c.run behaviour w).1 = false := by
  rw [Bool.eq_false_iff]
  intro haccepted
  obtain ⟨items, v, _, hprepared, _⟩ := Command.prepared_of_accepted rfl haccepted
  cases hprepared with
  | @created other _ hother _ hconfirmed =>
      obtain ⟨confirmed, f, f', hconfirmed, hf, _, hf'id, hadvances, _⟩ :=
        hconfirmed (column, name) hcolumn
      obtain rfl := Option.some.inj (he.symm.trans hf)
      obtain rfl := Connection.answers_unique hanswer hother
      obtain rfl := Except.ok.inj (hrecord.symm.trans hconfirmed)
      exact hne (Option.some.inj (hf'id.symm.trans (hadvances.id i hid)))
  | idle hupdated => rw [htype] at hupdated; cases hupdated
  | updated hupdated => rw [htype] at hupdated; cases hupdated
  | deleted hdeleted => rw [htype] at hdeleted; cases hdeleted

theorem Workspace.fixed_of_id {i : Int} (he : w.edge? name = some e) (hid : e.id = some i) :
    w.Fixed name e i where
  assign _ hne := Edge.run_assign_other hid hne
  adopt _ hrange hne := Edge.run_adopt_other hid hrange hne
  confirm _ _ startColumn finishColumn _ hrecord hne :=
    applyCreated_other startColumn finishColumn he hid hrecord hne
  create _ _ _ _ _ htype hcolumn hanswer hrecord hne :=
    create_other he hid htype hcolumn hanswer hrecord hne

end

/-- An edge that was built between two nodes is followed through any run, at any moment of it. From
there on its id is never changed or taken away, however it is tried; its endpoints are the nodes it was
built between; and what is resolved stays resolved. Unless an id was assigned by hand, it lies within
unsigned sixty-four bits. -/
theorem identity_is_stable {first : Edge} {start finish : Int} (hbuilt : first.Built start finish)
    {name : String} {byHand : Bool} {w v w' : Workspace} (hfirst : w.edge? name = some first)
    (hbefore : Life name byHand w v) (hafter : Life name byHand v w') :
    ∃ e e', v.edge? name = some e ∧ w'.edge? name = some e' ∧
      (∀ i, e.id = some i → e'.id = some i ∧ w'.Fixed name e' i) ∧
      (e'.start.id = start ∧ e'.finish.id = finish) ∧
      (e.start.node ≠ none → e'.start.node ≠ none) ∧
      (e.finish.node ≠ none → e'.finish.node ≠ none) ∧
      (byHand = false → ∀ i, e'.id = some i → 0 ≤ i ∧ i ≤ Value.maxId) ∧
      ∀ value, (∀ i, value = .int i → ¬ (0 ≤ i ∧ i ≤ Value.maxId)) →
        (Edge.Operation.adopt value).run e' = (e', some (Failure.refused (.notAnId value)).told) := by
  obtain ⟨e, he, hcontinues, hrange⟩ := hbefore.goesOn hfirst
  obtain ⟨e', he', hcontinues', hrange'⟩ := hafter.goesOn he
  obtain ⟨hstart, hfinish⟩ := hbuilt.endpoints
  have hwhole := hcontinues.trans hcontinues'
  refine ⟨e, e', he, he', fun i hi => ?_, ⟨?_, ?_⟩, hcontinues'.start.node, hcontinues'.finish.node,
    fun hby => ?_, fun value => e'.run_adopt_invalid⟩
  · have hid := hcontinues'.id i hi
    exact ⟨hid, Workspace.fixed_of_id he' hid⟩
  · exact hwhole.start.id.trans hstart
  · exact hwhole.finish.id.trans hfinish
  · exact hrange' hby (hrange hby hbuilt.idInRange)

/-- An edge gets its id and its start; then the node there gets another id, and a call that creates the
edge is answered with another record. -/
theorem identity_is_stable_after_a_wrong_answer :
    ∃ (first e e' : Edge) (w v w' : Workspace), first.Built 1 2 ∧ w.edge? "knows" = some first ∧
      first.id = none ∧ Life "knows" false w v ∧ Life "knows" false v w' ∧
      v.edge? "knows" = some e ∧ e.id = some 7 ∧ e.start.node = some ⟨0⟩ ∧
      w'.edge? "knows" = some e' ∧ e'.id = some 7 ∧ w'.Fixed "knows" e' 7 ∧
      (e'.start.id = 1 ∧ e'.finish.id = 2) ∧ e'.start.node ≠ none := by
  let first : Edge :=
    { start := ⟨1, none⟩, finish := ⟨2, none⟩, label := "KNOWS", ledger := .ofProperties ∅,
      created := ⟨0⟩, updated := ⟨0⟩ }
  let node : Node := { id := some 1, created := ⟨0⟩ }
  let answer : Row := .ofList [("rel", .record 82 [.int 8, .int 1, .int 2, .text "KNOWS", .map []])]
  let w : Workspace :=
    { nodes := [node], edges := .ofList [("knows", first)],
      connection := { upcoming := [.rows [answer]] } }
  let identified : Edge := (Edge.Operation.run first (.adopt (.int 7))).1
  let e : Edge := (Edge.Operation.run identified (.resolve (some (⟨0⟩, node)) none)).1
  let v : Workspace := (w.putEdge "knows" identified).putEdge "knows" e
  let u : Workspace := v.modifyNode ⟨0⟩ (·.assignId (some 9))
  let call : Except Failure Unit × Workspace := (Command.create {} "knows").run (fun _ _ _ => {}) u
  have hread : Edge.ofIds ⟨0⟩ ⟨0⟩ (some (.int 1)) (some (.int 2)) (some (.text "KNOWS")) none none =
      .ok first := rfl
  have hbuilt : first.Built 1 2 := .ofIds rfl rfl hread
  have hfirst : w.edge? "knows" = some first := rfl
  have hadopted : LifeStep "knows" false w (w.putEdge "knows" identified) := .operate hfirst nofun
  have hidentified : (w.putEdge "knows" identified).edge? "knows" = some identified := rfl
  have hresolved : LifeStep "knows" false (w.putEdge "knows" identified) v :=
    .operate hidentified nofun
  have hbefore : Life "knows" false w v := .tail (.single hadopted) hresolved
  have hcall : (Command.create {} "knows").run (fun _ _ _ => {}) u = (call.1, call.2) := rfl
  have hafter : Life "knows" false v call.2 :=
    .tail (.single (.node ⟨0⟩ (·.assignId (some 9)))) (.call hcall)
  have hv : v.edge? "knows" = some e := rfl
  obtain ⟨f, e', hf, he', hid, hends, hstart, _⟩ := identity_is_stable hbuilt hfirst hbefore hafter
  obtain rfl := Option.some.inj (hv.symm.trans hf)
  obtain ⟨hsame, hfixed⟩ := hid 7 rfl
  exact ⟨first, e, e', w, v, call.2, hbuilt, hfirst, rfl, hbefore, hafter, hv, rfl, rfl, he', hsame,
    hfixed, hends, hstart nofun⟩

/-- An id that is too long to be written is refused as any other, but the failure does not say so. -/
theorem overlong_id_refused_without_a_reason :
    ∃ (first e : Edge) (w v : Workspace), first.Built 1 2 ∧ w.edge? "knows" = some first ∧
      Life "knows" false w v ∧ v.edge? "knows" = some e ∧ e.id = some 7 ∧
      some (Numeral.tooLong : Int) ≠ e.id ∧
      (Edge.Operation.assign (some Numeral.tooLong)).run e = (e, some .overlong) := by
  let first : Edge :=
    { start := ⟨1, none⟩, finish := ⟨2, none⟩, label := "KNOWS", ledger := .ofProperties ∅,
      created := ⟨0⟩, updated := ⟨0⟩ }
  let w : Workspace := { edges := .ofList [("knows", first)] }
  let e : Edge := (Edge.Operation.run first (.adopt (.int 7))).1
  have hread : Edge.ofIds ⟨0⟩ ⟨0⟩ (some (.int 1)) (some (.int 2)) (some (.text "KNOWS")) none none =
      .ok first := rfl
  have hfirst : w.edge? "knows" = some first := rfl
  have hadopted : LifeStep "knows" false w (w.putEdge "knows" e) := .operate hfirst nofun
  have hid : e.id = some 7 := rfl
  have hother : some (Numeral.tooLong : Int) ≠ some 7 := fun h =>
    Numeral.ne_tooLong (Numeral.isShort_of_lt (by decide)) (Option.some.inj h).symm
  have hrefused := Edge.run_assign_other hid hother
  have htold : (Failure.idAssigned 7 (some (Numeral.tooLong : Int))).told = .overlong :=
    Failure.told_of_not_writable <| by
      rw [Failure.isWritable, Literal.isWritableId, Option.all_some, Numeral.isShort_tooLong,
        Bool.and_false]
  rw [htold] at hrefused
  exact ⟨first, e, w, w.putEdge "knows" e, .ofIds rfl rfl hread, hfirst, .single hadopted, rfl, hid,
    hid ▸ hother, hrefused⟩

end EdgeMapper
