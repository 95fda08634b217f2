import EdgeMapper.Proofs.Updating
import Mathlib.Logic.Relation
/-!
# Writing back

An edge is edited and updated in any order. The connection may lose an answer or give a wrong one, and
a server that was not heard may have applied the statement or not. Whatever happened, the keys outside
the overlay agree with the server, so the overlay is all that has to be sent again: the next statement
brings every key into agreement, and a call that succeeds leaves nothing to be told.
-/

namespace EdgeMapper

open Cypher (Statement)

def Workspace.Holds (w : Workspace) (name : String) (id : Int) (Q : PropertyLedger → Prop) : Prop :=
  ∃ e, w.edge? name = some e ∧ e.id = some id ∧ Q e.ledger

/-- Nothing is left to be told about the edge, and the server holds what it says. -/
def Workspace.Settled (w : Workspace) (name : String) (id : Int) (remote : Remote) : Prop :=
  w.Holds name id fun l => l.Clean ∧ l.Agrees (remote id)

/-- A call reached a server: what was sent in it was applied, or else the call failed. -/
def Served (w w' : Workspace) (success : Bool) (remote remote' : Remote) : Prop :=
  ∃ sent, w'.received = w.received ++ sent ∧
    (remote' = sent.foldl Remote.apply remote ∨ success = false ∧ remote' = remote)

def Workspace.OtherIds (w : Workspace) (names : List String) (name : String) (id : Int) : Prop :=
  ∀ other ∈ names, other ≠ name → ∀ e, w.edge? other = some e → e.id ≠ some id

section

variable {name : String} {id : Int} {w w' v : Workspace} {remote remote' : Remote}

theorem Workspace.holds_of_edges {Q : PropertyLedger → Prop} (h : w'.edges = w.edges)
    (hw : w.Holds name id Q) : w'.Holds name id Q := by
  obtain ⟨e, he, hid, hQ⟩ := hw
  exact ⟨e, by rw [Workspace.edge?, h]; exact he, hid, hQ⟩

/-! ## Listeners -/

theorem kept_holds {behaviour : Behaviour} {Q : PropertyLedger → Prop}
    (hedit : ∀ w l event, ∀ a ∈ (behaviour w l event).actions, ∀ e e',
      Workspace.Edited name a e e' → Q e.ledger → Q e'.ledger) :
    Workspace.Kept behaviour (·.Holds name id Q) := by
  refine ⟨fun _ _ _ h => h, fun _ _ h => h, ?_⟩
  intro w l event a ha v v' hv hperform
  obtain ⟨e, he, hid, hQ⟩ := hv
  obtain ⟨e', he', hedited⟩ := Workspace.perform_edge? hperform he
  exact ⟨e', he', hedited.ends_eq.1.trans hid, hedit w l event a ha e e' hedited hQ⟩

theorem kept_synced (behaviour : Behaviour) (name : String) (id : Int) (held : Held) :
    Workspace.Kept behaviour (·.Holds name id (·.Synced held)) := by
  apply kept_holds
  intro _ _ _ a _ e e' hedited hsynced
  cases hedited with
  | untouched => exact hsynced
  | write h => exact hsynced.write _ _
  | relabel h => exact hsynced.markModified

/-- The listeners write no property of the edge. -/
def Behaviour.Spares (behaviour : Behaviour) (name : String) : Prop :=
  ∀ w l event key value, .write name key value ∉ (behaviour w l event).actions

theorem kept_settled {behaviour : Behaviour} (h : behaviour.Spares name) (id : Int)
    (remote : Remote) : Workspace.Kept behaviour (·.Settled name id remote) := by
  apply kept_holds
  intro w l event a ha e e' hedited hsettled
  cases hedited with
  | untouched => exact hsettled
  | write hwrite => exact absurd (hwrite ▸ ha) (h w l event _ _)
  | relabel _ => exact hsettled

/-! ## Calls -/

theorem Served.of_nothing {success : Bool} (h : Served w w' success remote remote')
    (hreceived : w'.received = w.received) : remote' = remote := by
  obtain ⟨sent, hsent, hremote⟩ := h
  rw [hreceived] at hsent
  obtain rfl := List.self_eq_append_right.mp hsent
  rcases hremote with rfl | ⟨_, rfl⟩
  · rfl
  · rfl

theorem Served.of_one {success : Bool} {s : Statement} (h : Served w w' success remote remote')
    (hreceived : w'.received = w.received ++ [s]) :
    remote' = remote.apply s ∨ success = false ∧ remote' = remote := by
  obtain ⟨sent, hsent, hremote⟩ := h
  rw [hreceived] at hsent
  obtain rfl := List.append_cancel_left hsent
  exact hremote

theorem Selected.only {names : List String} {written : List (String × Edge)} {success : Bool}
    (h : Selected names w written success) (hothers : w.OtherIds names name id) {e : Edge}
    (he : w.edge? name = some e) :
    ∀ other ∈ written.map Prod.snd, other.id = some id → other = e := by
  intro other hother hid
  obtain ⟨p, hp, rfl⟩ := List.mem_map.mp hother
  obtain ⟨hname, hfound⟩ := h.sound p hp
  by_cases hsame : p.1 = name
  · rw [hsame, he] at hfound
    exact (Option.some.inj hfound).symm
  · exact absurd hid (hothers p.1 hname hsame p.2 hfound)

theorem holds_committed {names : List String} {written : List (String × Edge)} {success : Bool}
    (h : Selected names w written success) (hedges : v.edges = commitAll written w.edges)
    {Q : PropertyLedger → Prop} {e : Edge} (he : w.edge? name = some e) (hid : e.id = some id)
    (hwritten : (name, e) ∈ written → Q e.ledger.commit)
    (hother : (name, e) ∉ written → Q e.ledger) : v.Holds name id Q := by
  by_cases hmem : (name, e) ∈ written
  · refine ⟨e.commit, ?_, hid, hwritten hmem⟩
    rw [Workspace.edge?, hedges]
    exact get?_commitAll (fun p hp => (h.sound p hp).2) hmem _
  · refine ⟨e, ?_, hid, hother hmem⟩
    rw [Workspace.edge?, hedges, get?_commitAll_of_not_mem]
    · exact he
    · intro hname
      obtain ⟨p, hp, rfl⟩ := List.mem_map.mp hname
      have hfound := (h.sound p hp).2
      rw [he] at hfound
      apply hmem
      rw [Option.some.inj hfound]
      exact hp

theorem committed_agrees {l : PropertyLedger} {held : Held} (hcoherent : l.Coherent)
    (h : l.Agrees held) : l.commit.Clean ∧ l.commit.Agrees held := by
  refine ⟨l.clean_commit, fun key => ?_⟩
  rw [PropertyLedger.AgreesAt, hcoherent.read_commit]
  exact h key

variable {behaviour : Behaviour} {names : List String} {success : Bool}

theorem Called.synced (h : Called behaviour names w w' success)
    (hothers : w.OtherIds names name id) (hserved : Served w w' success remote remote')
    (hw : w.Holds name id (·.Synced (remote id))) : w'.Holds name id (·.Synced (remote' id)) := by
  obtain ⟨written, hselected, hupdates⟩ := h
  obtain ⟨e, he, hid, hsynced⟩ := hw
  have honly := hselected.only hothers he
  cases hupdates with
  | idle _ hedges hreceived =>
      rw [hserved.of_nothing hreceived]
      exact Workspace.holds_of_edges hedges ⟨e, he, hid, hsynced⟩
  | refused hedges hreceived =>
      rw [hserved.of_nothing hreceived]
      exact Workspace.holds_of_edges hedges ⟨e, he, hid, hsynced⟩
  | failed s hcarried hedges hreceived =>
      apply Workspace.holds_of_edges hedges
      refine ⟨e, he, hid, ?_⟩
      rcases hserved.of_one hreceived with rfl | ⟨_, rfl⟩
      · exact hcarried.synced hid honly hsynced
      · exact hsynced
  | accepted s v items hcarried hedges hreceived hannounced =>
      subst hannounced
      rw [← received_announce behaviour .updated items v] at hreceived
      obtain rfl := (hserved.of_one hreceived).resolve_right (by simp)
      refine Task.announce_kept (kept_synced behaviour name id _) .updated items ?_
      refine holds_committed hselected hedges he hid ?_ ?_
      · intro hmem
        have hagrees := hcarried.agrees (List.mem_map_of_mem hmem) hid honly hsynced
        obtain ⟨hclean, hcommitted⟩ := committed_agrees hsynced.coherent hagrees
        exact PropertyLedger.synced_of_agrees (PropertyLedger.coherent_of_clean hclean) hcommitted
      · intro _
        exact hcarried.synced hid honly hsynced

theorem Called.settled (h : Called behaviour names w w' true) (hname : name ∈ names)
    (hothers : w.OtherIds names name id) (hserved : Served w w' true remote remote')
    (hw : w.Holds name id (·.Synced (remote id))) :
    ∃ v items, v.Settled name id remote' ∧ (Task.announce behaviour .updated items v).2 = w' := by
  obtain ⟨written, hselected, hupdates⟩ := h
  obtain ⟨e, he, hid, hsynced⟩ := hw
  have honly := hselected.only hothers he
  -- an edge that is not written has nothing to be told
  have hclean (hmem : (name, e) ∉ written) : e.ledger.Clean := by
    apply PropertyLedger.clean_of_not_isDirty
    by_contra hdirty
    exact hmem (hselected.complete rfl name hname e he (eq_true_of_ne_false hdirty))
  cases hupdates with
  | idle hwritten hedges hreceived =>
      refine ⟨w', [], ?_, rfl⟩
      rw [hserved.of_nothing hreceived]
      have hclean := hclean (by simp [hwritten])
      exact Workspace.holds_of_edges hedges
        ⟨e, he, hid, hclean, hsynced.agrees_of_clean hclean⟩
  | accepted s v items hcarried hedges hreceived hannounced =>
      refine ⟨v, items, ?_, hannounced⟩
      subst hannounced
      rw [← received_announce behaviour .updated items v] at hreceived
      obtain rfl := (hserved.of_one hreceived).resolve_right (by simp)
      refine holds_committed hselected hedges he hid ?_ ?_
      · intro hmem
        exact committed_agrees hsynced.coherent
          (hcarried.agrees (List.mem_map_of_mem hmem) hid honly hsynced)
      · intro hmem
        exact ⟨hclean hmem, (hcarried.synced hid honly hsynced).agrees_of_clean (hclean hmem)⟩

/-! ## Runs -/

inductive Call (name : String) (id : Int) (behaviour : Behaviour) (w w' : Workspace) :
    Bool → Prop where
  | update {writer : Writer} {result : Except Failure Bool}
    (h : writer.update behaviour name w = (result, w')) :
    Call name id behaviour w w' (accepted result)
  | updateMany {names : List String} {result : Except Failure Nat} (hname : name ∈ names)
    (hothers : w.OtherIds names name id)
    (h : Writer.updateMany behaviour names w = (result, w')) :
    Call name id behaviour w w' (accepted result)

theorem Call.called (h : Call name id behaviour w w' success) :
    ∃ names, name ∈ names ∧ w.OtherIds names name id ∧ Called behaviour names w w' success := by
  cases h with
  | update h =>
      refine ⟨[name], List.mem_singleton_self name, ?_, Writer.update_called h⟩
      intro other hother hne
      exact absurd (List.mem_singleton.mp hother) hne
  | updateMany hname hothers h => exact ⟨_, hname, hothers, Writer.updateMany_called h⟩

/-- A step in the life of an edge. The listeners of a call may do anything. What one of them finds in
the midst of an announcement is also reached by a call with silent listeners and, after it, by the
edits that were made until then. -/
inductive EdgeStep (name : String) (id : Int) : Workspace × Remote → Workspace × Remote → Prop where
  | write {w w' : Workspace} {remote : Remote} {key : String} {value : Value}
    (h : w.writeProperty name key value = some w') : EdgeStep name id (w, remote) (w', remote)
  | relabel {w w' : Workspace} {remote : Remote} {label : String}
    (h : w.relabel name label = some w') : EdgeStep name id (w, remote) (w', remote)
  | turn {w : Workspace} {remote : Remote} {e : Edge} (he : w.edge? name = some e)
    (direction : Cypher.Direction) :
    EdgeStep name id (w, remote) (w.putEdge name (e.turn direction), remote)
  | resolve {w : Workspace} {remote : Remote} {e : Edge} (he : w.edge? name = some e)
    (start finish : Option (NodeRef × Node)) :
    EdgeStep name id (w, remote) (w.putEdge name (e.resolve start finish).1, remote)
  | call {w w' : Workspace} {remote remote' : Remote} {behaviour : Behaviour} {success : Bool}
    (hcall : Call name id behaviour w w' success)
    (hserved : Served w w' success remote remote') : EdgeStep name id (w, remote) (w', remote')
  | elsewhere {w w' : Workspace} {remote remote' : Remote} (hedge : w'.edge? name = w.edge? name)
    (hremote : remote' id = remote id) : EdgeStep name id (w, remote) (w', remote')

theorem holds_putEdge {Q : PropertyLedger → Prop} {e : Edge} (hid : e.id = some id)
    (hQ : Q e.ledger) : (w.putEdge name e).Holds name id Q :=
  ⟨e, by rw [Workspace.edge?_putEdge, if_pos rfl], hid, hQ⟩

theorem step_synced {p p' : Workspace × Remote} (h : EdgeStep name id p p')
    (hp : p.1.Holds name id (·.Synced (p.2 id))) : p'.1.Holds name id (·.Synced (p'.2 id)) := by
  cases h with
  | write h =>
      obtain ⟨e, he, hid, hsynced⟩ := hp
      obtain ⟨old, hold, rfl⟩ := Option.map_eq_some_iff.mp h
      obtain rfl := Option.some.inj (he.symm.trans hold)
      exact holds_putEdge hid (hsynced.write _ _)
  | relabel h =>
      obtain ⟨e, he, hid, hsynced⟩ := hp
      obtain ⟨old, hold, rfl⟩ := Option.map_eq_some_iff.mp h
      obtain rfl := Option.some.inj (he.symm.trans hold)
      exact holds_putEdge hid hsynced.markModified
  | turn he direction =>
      obtain ⟨old, hold, hid, hsynced⟩ := hp
      obtain rfl := Option.some.inj (he.symm.trans hold)
      exact holds_putEdge hid hsynced
  | resolve he start finish =>
      obtain ⟨old, hold, hid, hsynced⟩ := hp
      obtain rfl := Option.some.inj (he.symm.trans hold)
      obtain ⟨s, f, hresolved⟩ := Edge.resolve_fst _ start finish
      rw [hresolved]
      exact holds_putEdge hid hsynced
  | call hcall hserved =>
      obtain ⟨names, _, hothers, hcalled⟩ := hcall.called
      exact hcalled.synced hothers hserved hp
  | elsewhere hedge hremote =>
      obtain ⟨e, he, hid, hsynced⟩ := hp
      refine ⟨e, hedge.trans he, hid, ?_⟩
      simpa only [hremote] using hsynced

theorem run_synced {p p' : Workspace × Remote} (h : Relation.ReflTransGen (EdgeStep name id) p p')
    (hp : p.1.Holds name id (·.Synced (p.2 id))) : p'.1.Holds name id (·.Synced (p'.2 id)) := by
  induction h with
  | refl => exact hp
  | tail _ hstep ih => exact step_synced hstep ih

end

/-- All that the server may lack about an edge is in its overlay, and sending that makes up for it. -/
structure Recoverable (w : Workspace) (name : String) (id : Int) (remote : Remote) (e : Edge) :
    Prop where
  outside : ∀ key, key ∉ e.ledger.pending.keys → key ∉ e.ledger.removed →
    e.ledger.AgreesAt (remote id) key
  statement : ∀ o : Cypher.Options, o.binding ≠ "" → o.suffix = "" →
    ∃ s, Statement.update e o = .ok s ∧ e.ledger.Agrees (remote.apply s id)
  batch : ∀ edges withReturn s, Cypher.Batch.update edges withReturn = .ok s → e ∈ edges →
    (∀ other ∈ edges, other.id = some id → other = e) → e.ledger.Agrees (remote.apply s id)
  /-- The next call that succeeds leaves nothing to be told when it announces the update, and also in
  the end if no listener writes to the edge. -/
  call : ∀ behaviour w' remote', Call name id behaviour w w' true →
    Served w w' true remote remote' →
    (∃ v items, v.Settled name id remote' ∧ (Task.announce behaviour .updated items v).2 = w') ∧
      (behaviour.Spares name → w'.Settled name id remote')

theorem recoverable_of_synced {w : Workspace} {name : String} {id : Int} {remote : Remote} {e : Edge}
    (he : w.edge? name = some e) (hid : e.id = some id) (hsynced : e.ledger.Synced (remote id)) :
    Recoverable w name id remote e where
  outside := hsynced.outside
  statement := by
    intro o hbinding hsuffix
    have hne : e.id ≠ none := by simp [hid]
    obtain ⟨s, hs⟩ := (Cypher.exists_update_iff hbinding).mpr hne
    refine ⟨s, hs, ?_⟩
    apply (carried_update hsuffix hs).agrees (List.mem_singleton_self e) hid ?_ hsynced
    exact fun other hother _ => List.mem_singleton.mp hother
  batch := by
    intro edges withReturn s hs hmem honly
    exact (carried_batch hs).agrees hmem hid honly hsynced
  call := by
    intro behaviour w' remote' hcall hserved
    obtain ⟨names, hname, hothers, hcalled⟩ := hcall.called
    obtain ⟨v, items, hsettled, rfl⟩ :=
      hcalled.settled hname hothers hserved ⟨e, he, hid, hsynced⟩
    refine ⟨⟨v, items, hsettled, rfl⟩, fun hspares => ?_⟩
    exact Task.announce_kept (kept_settled hspares id remote') .updated items hsettled

/-- From a settled edge on, in every run, everything that the server may lack is in the overlay. -/
theorem write_back_is_loss_free {name : String} {id : Int} {w w' : Workspace}
    {remote remote' : Remote} (hstart : w.Settled name id remote)
    (hrun : Relation.ReflTransGen (EdgeStep name id) (w, remote) (w', remote')) :
    ∃ e, w'.edge? name = some e ∧ e.id = some id ∧ Recoverable w' name id remote' e := by
  obtain ⟨e, he, hid, hclean, hagrees⟩ := hstart
  have hsynced : e.ledger.Synced (remote id) :=
    PropertyLedger.synced_of_agrees (PropertyLedger.coherent_of_clean hclean) hagrees
  obtain ⟨e', he', hid', hsynced'⟩ := run_synced hrun ⟨e, he, hid, hsynced⟩
  exact ⟨e', he', hid', recoverable_of_synced he' hid' hsynced'⟩

/-- A write whose update is applied but never answered. -/
theorem write_back_is_loss_free_unanswered :
    ∃ (w v w' : Workspace) (remote : Remote), w.Settled "knows" 7 remote ∧
      w.writeProperty "knows" "since" (.int 2) = some v ∧
      Writer.update {} (fun _ _ _ => {}) "knows" v = (.error .connectionLost, w') ∧
      ∃ e, w'.edge? "knows" = some e ∧ e.id = some 7 ∧
        Recoverable w' "knows" 7 (w'.received.foldl Remote.apply remote) e := by
  let properties : OrderedMap String Value := .ofList [("since", .int 1)]
  let e : Edge :=
    { id := some 7, start := ⟨1, none⟩, finish := ⟨2, none⟩, label := "KNOWS",
      ledger := .ofProperties properties, created := ⟨0⟩, updated := ⟨0⟩ }
  let w : Workspace :=
    { edges := .ofList [("knows", e)], connection := { upcoming := [.lost] } }
  let remote : Remote := fun _ key => properties.get? key
  have hclean : e.ledger.Clean := ⟨rfl, rfl⟩
  have hstart : w.Settled "knows" 7 remote := by
    refine ⟨e, rfl, rfl, hclean, fun key => ?_⟩
    exact (PropertyLedger.coherent_of_clean hclean).read_eq key
  let v : Workspace := w.tick.2.putEdge "knows" (e.write w.tick.1 "since" (.int 2))
  have hwrite : w.writeProperty "knows" "since" (.int 2) = some v := rfl
  let w' : Workspace := (Writer.update {} (fun _ _ _ => {}) "knows" v).2
  have hupdate : Writer.update {} (fun _ _ _ => {}) "knows" v = (.error .connectionLost, w') := rfl
  have hserved : Served v w' false remote (w'.received.foldl Remote.apply remote) :=
    ⟨w'.received, rfl, .inl rfl⟩
  refine ⟨w, v, w', remote, hstart, hwrite, hupdate, write_back_is_loss_free hstart ?_⟩
  exact .tail (.single (.write hwrite)) (.call (.update hupdate) hserved)

end EdgeMapper
