import EdgeMapper.Proofs.Overlay
import EdgeMapper.Proofs.Preparations
/-!
# Records of other relationships

An update commits the edges that it wrote when the first row of the answer holds a record for each of
them. Whose record that is, it does not ask. So changes are cleared only where a record stands, but an
answer that has put the record of another relationship there is accepted like any other. The main
statement says for every answer which changes are cleared and when that is a mistake.
-/

namespace EdgeMapper

open Cypher (Statement Batch.relName Batch.numbered)
open Writer (returned)

/-- The edges that a call is to update, each with the column in which the answer should hold its
record. -/
def Command.expected (c : Command) (w : Workspace) : List (String × String × Edge) :=
  let edges := c.names.filterMap fun name => (w.edge? name).map (name, ·)
  let dirty := edges.filter (·.2.isDirty)
  match c with
  | update writer _ => dirty.map (writer.binding, ·)
  | updateMany _ => (Batch.numbered dirty).map fun (i, p) => (Batch.relName i, p)
  | _ => []

def OwnRecord (row : Row) (column : String) (e : Edge) : Prop :=
  ∃ record, returned row column = .ok record ∧ e.id = some record.id

/-- The column holds a record, but that of another relationship. -/
def ForeignRecord (row : Row) (column : String) (e : Edge) : Prop :=
  ∃ record, returned row column = .ok record ∧ e.id ≠ some record.id

structure PropertyLedger.Keeps (l l' : PropertyLedger) : Prop where
  changed : ∀ key ∈ l.changedKeys, key ∈ l'.changedKeys
  modified : l.modified = true → l'.modified = true

/-- One of these edges has been committed although the answer does not hold its record. -/
def Mistaken (expected : List (String × String × Edge)) (w v : Workspace) : Prop :=
  ∃ p ∈ expected, v.edge? p.2.1 = some p.2.2.commit ∧
    ¬ ∃ row, w.connection.Answers row ∧ OwnRecord row p.1 p.2.2

inductive Answered (expected : List (String × String × Edge)) (w v : Workspace) :
    Except Failure (List (String × List String)) → Prop where
  | idle (hnone : expected = []) (hedges : v.edges = w.edges) (hreceived : v.received = w.received)
    (items : List (String × List String)) : Answered expected w v (.ok items)
  | refused {failure : Failure} (hedges : v.edges = w.edges)
    (hmissing : v.received ≠ w.received → ∀ row, w.connection.Answers row →
      (∃ fault, failure = (Failure.badAnswer fault).told) ∧ ¬ ∀ p ∈ expected, HoldsRecord row p.1) :
    Answered expected w v (.error failure)
  | committed {row : Row} (hanswer : w.connection.Answers row)
    (hholds : ∀ p ∈ expected, HoldsRecord row p.1)
    (hedges : v.edges = commitAll (expected.map Prod.snd) w.edges)
    (items : List (String × List String)) : Answered expected w v (.ok items)

/-- How the records of the answer decide what comes of a call that updates edges. -/
structure DecidedByRecords (c : Command) (w w' : Workspace) (result : Except Failure Unit) : Prop where
  cleared : ∀ name e e', w.edge? name = some e → w'.edge? name = some e' →
    ¬ e.ledger.Keeps e'.ledger → ∃ row column record, w.connection.Answers row ∧
      (column, name, e) ∈ c.expected w ∧ returned row column = .ok record ∧
      ((∀ p ∈ c.expected w, ¬ ForeignRecord row p.1 p.2.2) → e.id = some record.id)
  /-- An edge is committed by mistake exactly if the call is accepted although the answer holds the
  record of another relationship. -/
  mistaken : Mistaken (c.expected w) w (c.prepare w).2 ↔ accepted result = true ∧
    ∃ row, w.connection.Answers row ∧ ∃ p ∈ c.expected w, ForeignRecord row p.1 p.2.2
  /-- A row that misses a record makes the call fail and clears nothing; any other is accepted. -/
  decided : w'.received ≠ w.received → ∀ row, w.connection.Answers row →
    (accepted result = true ↔ ∀ p ∈ c.expected w, HoldsRecord row p.1) ∧
    (accepted result = false →
      (∃ fault, result = .error (Failure.badAnswer fault).told) ∧ w'.edges = w.edges)

section

variable {behaviour : Behaviour} {w w' v : Workspace} {expected : List (String × String × Edge)}
  {row : Row} {column name : String} {e : Edge}

/-! ## Records -/

theorem own_or_foreign (h : HoldsRecord row column) (e : Edge) :
    OwnRecord row column e ∨ ForeignRecord row column e := by
  obtain ⟨record, hrecord⟩ := Writer.exists_returned_iff.mpr h
  by_cases hid : e.id = some record.id
  · exact .inl ⟨record, hrecord, hid⟩
  · exact .inr ⟨record, hrecord, hid⟩

theorem OwnRecord.not_foreign (h : OwnRecord row column e) : ¬ ForeignRecord row column e := by
  obtain ⟨record, hrecord, hid⟩ := h
  rintro ⟨other, hother, hne⟩
  obtain rfl := Except.ok.inj (hrecord.symm.trans hother)
  exact hne hid

/-! ## Cleared changes -/

theorem PropertyLedger.Keeps.refl (l : PropertyLedger) : l.Keeps l := ⟨fun _ h => h, fun h => h⟩

theorem Edge.commit_ne (h : e.isDirty = true) : e.commit ≠ e := by
  intro hsame
  have hclean : e.commit.isDirty = false := rfl
  rw [hsame, h] at hclean
  cases hclean

theorem kept_changes (behaviour : Behaviour) (name : String) (l : PropertyLedger) :
    Workspace.Kept behaviour fun v => ∃ e, v.edge? name = some e ∧ l.Keeps e.ledger := by
  refine ⟨fun _ _ _ h => h, fun _ _ h => h, ?_⟩
  intro _ _ _ a _ v v' hv hperform
  obtain ⟨e, he, hkeeps⟩ := hv
  obtain ⟨e', he', hedited⟩ := Workspace.perform_edge? hperform he
  refine ⟨e', he', ?_⟩
  cases hedited with
  | untouched => exact hkeeps
  | write =>
      exact ⟨fun key hkey => PropertyLedger.mem_changedKeys_write.mpr (.inr (hkeeps.changed key hkey)),
        fun _ => PropertyLedger.modified_write _ _ _⟩
  | relabel => exact ⟨hkeeps.changed, fun _ => rfl⟩

/-! ## The edges that are expected -/

theorem filterMap_found {edges : List (String × Edge)} (hfound : ∀ p ∈ edges, w.edge? p.1 = some p.2) :
    (edges.map Prod.fst).filterMap (fun name => (w.edge? name).map (name, ·)) = edges := by
  induction edges with
  | nil => rfl
  | cons p rest ih =>
      rw [List.forall_mem_cons] at hfound
      rw [List.map_cons, List.filterMap_cons, hfound.1, ih hfound.2]
      rfl

namespace Command

theorem map_snd_expected_batch (dirty : List (String × Edge)) :
    ((Batch.numbered dirty).map fun (i, p) => (Batch.relName i, p)).map Prod.snd = dirty := by
  rw [List.map_map]
  exact Cypher.Batch.map_snd_numbered dirty

theorem expected_found {c : Command} {p : String × String × Edge} (h : p ∈ c.expected w) :
    w.edge? p.2.1 = some p.2.2 ∧ p.2.2.isDirty = true := by
  have hdirty : p.2 ∈ (c.names.filterMap fun name => (w.edge? name).map (name, ·)).filter
      (·.2.isDirty) := by
    cases c with
    | update writer name =>
        obtain ⟨q, hq, rfl⟩ := List.mem_map.mp h
        exact hq
    | updateMany names =>
        have hmem := List.mem_map_of_mem (f := Prod.snd) h
        rw [expected, map_snd_expected_batch] at hmem
        exact hmem
    | _ => cases h
  obtain ⟨hmem, hisDirty⟩ := List.mem_filter.mp hdirty
  obtain ⟨name, _, hname⟩ := List.mem_filterMap.mp hmem
  obtain ⟨e, he, hp⟩ := Option.map_eq_some_iff.mp hname
  rw [← hp] at hisDirty ⊢
  exact ⟨he, hisDirty⟩

/-! ## Preparing -/

open Writer

theorem answered_written {α : Type} {expected : List (String × String × Edge)}
    {r : Except Failure Statement} {fault : AnswerFault} {check : Row → Except Failure α}
    {result : Except Failure (List (String × List String))}
    (hcheck : ∀ row, (∃ a, check row = .ok a) ↔ ∀ p ∈ expected, HoldsRecord row p.1)
    (hfault : ∀ row failure, check row = .error failure →
      ∃ fault, failure = (Failure.badAnswer fault).told)
    (h : Written (expected.map Prod.snd) r fault check w v result) : Answered expected w v result := by
  cases h with
  | uncompiled _ hsame =>
      refine .refused (congrArg Workspace.edges hsame) fun hsent => ?_
      exact absurd (congrArg Workspace.received hsame) hsent
  | unanswered _ hanswer hedges =>
      refine .refused hedges fun _ row hrow => ?_
      cases hanswer.symm.trans (Connection.answer_eq_ok_iff.mpr hrow)
  | @unchecked _ row failure _ hrow hfailure hedges =>
      refine .refused hedges fun _ other hother => ?_
      obtain rfl := Connection.answers_unique hrow hother
      refine ⟨hfault row failure hfailure, fun hholds => ?_⟩
      obtain ⟨a, ha⟩ := (hcheck row).mpr hholds
      cases ha.symm.trans hfailure
  | @committed _ row a _ hrow ha hedges =>
      exact .committed hrow ((hcheck row).mp ⟨a, ha⟩) hedges _

theorem update_answered {writer : Writer} {name : String}
    {result : Except Failure (List (String × List String))}
    (h : (update writer name).prepare w = (result, v)) :
    Answered ((update writer name).expected w) w v result := by
  rcases Task.edge_bind_cases h with ⟨e, he, h₁⟩ | ⟨rfl, rfl⟩
  swap
  · exact .refused rfl fun hsent => absurd rfl hsent
  cases hdirty : e.isDirty with
  | false =>
      have hexpected : (update writer name).expected w = [] := by simp [expected, names, he, hdirty]
      rw [hexpected]
      rw [if_neg (by simp [hdirty])] at h₁
      obtain ⟨rfl, hnoted⟩ := Prod.mk.inj h₁
      have hedges : v.edges = w.edges := by rw [← hnoted]; rfl
      have hreceived : v.received = w.received := by rw [← hnoted]; rfl
      exact .idle rfl hedges hreceived _
  | true =>
      have hexpected : (update writer name).expected w = [(writer.binding, name, e)] := by
        simp [expected, names, he, hdirty]
      rw [hexpected]
      rw [if_pos hdirty] at h₁
      refine answered_written (fun row => ?_) (fun _ _ => returned_eq_error) (written_apply h₁)
      rw [exists_returned_iff, List.forall_mem_singleton]

theorem updateMany_answered {names : List String}
    {result : Except Failure (List (String × List String))}
    (h : (updateMany names).prepare w = (result, v)) :
    Answered ((updateMany names).expected w) w v result := by
  rcases named_cases names w with ⟨edges, rfl, hfound⟩ | ⟨name, hunknown⟩
  swap
  · rw [prepare, Task.bind_apply, hunknown] at h
    obtain ⟨rfl, rfl⟩ := Prod.mk.inj h
    exact .refused rfl fun hsent => absurd rfl hsent
  have hexpected : (updateMany (edges.map Prod.fst)).expected w =
      (Batch.numbered (edges.filter (·.2.isDirty))).map fun (i, p) => (Batch.relName i, p) := by
    rw [expected, Command.names, filterMap_found hfound]
  rw [hexpected]
  rw [prepare, Task.bind_of_ok (named_apply hfound)] at h
  by_cases hclean : edges.filter (·.2.isDirty) = []
  · rw [hclean] at h ⊢
    obtain ⟨rfl, rfl⟩ := Prod.mk.inj h
    exact .idle rfl rfl rfl _
  · rw [if_neg (by simpa using hclean)] at h
    refine answered_written (fun row => ?_) (fun _ _ => checkReturned_eq_error)
      (by rw [map_snd_expected_batch]; exact written_apply h)
    rw [exists_checkReturned_iff, List.forall_mem_map, List.forall_mem_map]

theorem prepare_answered {c : Command} (htype : c.type = .updated)
    {result : Except Failure (List (String × List String))} (h : c.prepare w = (result, v)) :
    Answered (c.expected w) w v result := by
  cases c with
  | update writer name => exact update_answered h
  | updateMany names => exact updateMany_answered h
  | create writer name => cases htype
  | createMany names => cases htype
  | delete writer name => cases htype
  | deleteMany names => cases htype

end Command

/-! ## Calls -/

theorem Mistaken.unchanged (hexpected : ∀ p ∈ expected, w.edge? p.2.1 = some p.2.2 ∧ p.2.2.isDirty = true)
    (hsame : v.edges = w.edges) : ¬ Mistaken expected w v := by
  rintro ⟨p, hp, hcommitted, _⟩
  obtain ⟨hfound, hdirty⟩ := hexpected p hp
  rw [Workspace.edge?, hsame] at hcommitted
  exact p.2.2.commit_ne hdirty (Option.some.inj (hcommitted.symm.trans hfound))

theorem mistaken_iff_of_committed {row : Row}
    (hexpected : ∀ p ∈ expected, w.edge? p.2.1 = some p.2.2) (hanswer : w.connection.Answers row)
    (hholds : ∀ p ∈ expected, HoldsRecord row p.1)
    (hedges : v.edges = commitAll (expected.map Prod.snd) w.edges) :
    Mistaken expected w v ↔ ∃ p ∈ expected, ForeignRecord row p.1 p.2.2 := by
  constructor
  · rintro ⟨p, hp, _, hother⟩
    refine ⟨p, hp, (own_or_foreign (hholds p hp) p.2.2).resolve_left fun hown => ?_⟩
    exact hother ⟨row, hanswer, hown⟩
  · rintro ⟨p, hp, hforeign⟩
    refine ⟨p, hp, ?_, ?_⟩
    · rw [Workspace.edge?, hedges]
      have hfound : ∀ q ∈ expected.map Prod.snd, w.edge? q.1 = some q.2 :=
        List.forall_mem_map.mpr hexpected
      exact get?_commitAll hfound (List.mem_map_of_mem hp) w.edges
    · rintro ⟨other, hother, hown⟩
      obtain rfl := Connection.answers_unique hanswer hother
      exact hown.not_foreign hforeign

theorem keeps_of_not_expected {type : EventType} {items : List (String × List String)}
    {result : Except Failure Unit} {e' : Edge}
    (hexpected : ∀ p ∈ expected, w.edge? p.2.1 = some p.2.2) (he : w.edge? name = some e)
    (hnone : ∀ column, (column, name, e) ∉ expected)
    (hedges : v.edges = commitAll (expected.map Prod.snd) w.edges)
    (hannounce : Task.announce behaviour type items v = (result, w'))
    (he' : w'.edge? name = some e') : e.ledger.Keeps e'.ledger := by
  have hname : name ∉ (expected.map Prod.snd).map Prod.fst := by
    intro hmem
    obtain ⟨q, hq, rfl⟩ := List.mem_map.mp hmem
    obtain ⟨⟨column, p⟩, hp, rfl⟩ := List.mem_map.mp hq
    obtain rfl := Option.some.inj (he.symm.trans (hexpected _ hp))
    exact hnone column hp
  have hsame : v.edge? name = some e := by
    rw [Workspace.edge?, hedges]
    exact (get?_commitAll_of_not_mem hname w.edges).trans he
  have hkept := Task.announce_kept (kept_changes behaviour name e.ledger) type items
    ⟨e, hsame, .refl e.ledger⟩
  rw [hannounce] at hkept
  obtain ⟨f, hf, hkeeps⟩ := hkept
  obtain rfl := Option.some.inj (he'.symm.trans hf)
  exact hkeeps

section

variable {c : Command} {failure : Failure} {result : Except Failure Unit}
  {items : List (String × List String)}

theorem decidedByRecords_refused (hprepare : c.prepare w = (.error failure, w'))
    (hfailure : failure ≠ .cancelled)
    (hanswered : Answered (c.expected w) w w' (.error failure)) :
    DecidedByRecords c w w' (.error failure) := by
  have hrejected : accepted (.error failure : Except Failure Unit) = false := accepted_error hfailure
  cases hanswered with
  | refused hedges hmissing =>
      constructor
      · intro name e e' he he' hlost
        rw [Workspace.edge?, hedges] at he'
        obtain rfl := Option.some.inj (he.symm.trans he')
        exact absurd (.refl _) hlost
      · rw [hprepare, hrejected]
        have hnone := Mistaken.unchanged (fun p => c.expected_found) hedges
        exact ⟨fun h => absurd h hnone, fun h => Bool.noConfusion h.1⟩
      · intro hsent row hrow
        obtain ⟨⟨fault, rfl⟩, hnotall⟩ := hmissing hsent row hrow
        rw [hrejected]
        exact ⟨⟨Bool.noConfusion, fun hall => absurd hall hnotall⟩, fun _ => ⟨⟨fault, rfl⟩, hedges⟩⟩

theorem decidedByRecords_announced (htype : c.type = .updated) (hprepare : c.prepare w = (.ok items, v))
    (haccepted : accepted result = true)
    (hanswered : Answered (c.expected w) w v (.ok items))
    (hannounce : Task.announce behaviour c.type items v = (result, w')) :
    DecidedByRecords c w w' result := by
  have hexpected (p) (hp : p ∈ c.expected w) : w.edge? p.2.1 = some p.2.2 :=
    (Command.expected_found hp).1
  cases hanswered with
  | idle hnone hedges hreceived =>
      have hsame : v.edges = commitAll ((c.expected w).map Prod.snd) w.edges := by
        rw [hnone]
        exact hedges
      have hsilent := received_announce behaviour .updated items v
      rw [← htype, hannounce] at hsilent
      constructor
      · intro name e e' he he' hlost
        refine absurd (keeps_of_not_expected hexpected he ?_ hsame hannounce he') hlost
        simp [hnone]
      · simp [hnone, Mistaken]
      · intro hsent
        exact absurd (hsilent.trans hreceived) hsent
  | @committed row hanswer hholds hedges =>
      constructor
      · intro name e e' he he' hlost
        by_cases hwritten : ∃ column, (column, name, e) ∈ c.expected w
        · obtain ⟨column, hmem⟩ := hwritten
          obtain ⟨record, hrecord⟩ := Writer.exists_returned_iff.mpr (hholds _ hmem)
          refine ⟨row, column, record, hanswer, hmem, hrecord, fun hnone => ?_⟩
          by_contra hid
          exact hnone _ hmem ⟨record, hrecord, hid⟩
        · have hnone : ∀ column, (column, name, e) ∉ c.expected w := fun column hmem =>
            hwritten ⟨column, hmem⟩
          exact absurd (keeps_of_not_expected hexpected he hnone hedges hannounce he') hlost
      · -- all were committed, so it is a mistake exactly if one of the records is that of another
        rw [hprepare, haccepted, mistaken_iff_of_committed hexpected hanswer hholds hedges]
        refine ⟨fun hforeign => ⟨rfl, row, hanswer, hforeign⟩, ?_⟩
        rintro ⟨_, other, hother, hforeign⟩
        obtain rfl := Connection.answers_unique hanswer hother
        exact hforeign
      · intro _ other hother
        obtain rfl := Connection.answers_unique hanswer hother
        rw [haccepted]
        exact ⟨⟨fun _ => hholds, fun _ => rfl⟩, Bool.noConfusion⟩

end

end

/-- A call that updates edges clears the changes of those for which the answer holds a record, if it
holds one for each of them. It does not notice when these are the records of other relationships. -/
theorem updates_are_decided_by_records {c : Command} (htype : c.type = .updated)
    {behaviour : Behaviour} {w w' : Workspace} {result : Except Failure Unit}
    (h : c.run behaviour w = (result, w')) : DecidedByRecords c w w' result := by
  cases hprepare : c.prepare w with
  | mk prepared v =>
      have houtcome := Command.prepare_outcome hprepare
      have hanswered := Command.prepare_answered htype hprepare
      rw [Command.run_eq, Task.bind_apply, hprepare] at h
      cases prepared with
      | error failure =>
          obtain ⟨rfl, rfl⟩ := Prod.mk.inj h
          exact decidedByRecords_refused hprepare (houtcome.failure failure rfl) hanswered
      | ok items =>
          have haccepted : accepted result = true :=
            Task.announce_accepted (houtcome.prepared items rfl).known h
          exact decidedByRecords_announced htype hprepare haccepted hanswered h

/-- The record of another relationship stands in the column of a single edge. -/
theorem updates_are_decided_by_records_of_another :
    ∃ (c : Command) (w w' : Workspace) (e : Edge) (row : Row), c.type = .updated ∧
      c.run (fun _ _ _ => {}) w = (.ok (), w') ∧ w.edge? "knows" = some e ∧
      DecidedByRecords c w w' (.ok ()) ∧ w.connection.Answers row ∧ ForeignRecord row "rel" e ∧
      Mistaken (c.expected w) w (c.prepare w).2 := by
  let e : Edge :=
    { id := some 7, start := ⟨1, none⟩, finish := ⟨2, none⟩, label := "KNOWS",
      ledger := PropertyLedger.set {} "since" (.int 1), created := ⟨0⟩, updated := ⟨0⟩ }
  let answer : Row := .ofList [("rel", .record 82 [.int 8, .int 1, .int 2, .text "KNOWS", .map []])]
  let w : Workspace :=
    { edges := .ofList [("knows", e)], connection := { upcoming := [.rows [answer]] } }
  let c : Command := .update {} "knows"
  let w' : Workspace := (c.run (fun _ _ _ => {}) w).2
  have hcall : c.run (fun _ _ _ => {}) w = (.ok (), w') := Prod.ext (by decide +kernel) rfl
  have hdecided := updates_are_decided_by_records (c := c) rfl hcall
  have hanswer : w.connection.Answers answer := ⟨[], rfl⟩
  have hforeign : ForeignRecord answer "rel" e := ⟨_, rfl, by decide⟩
  have hexpected : c.expected w = [("rel", "knows", e)] := rfl
  refine ⟨c, w, w', e, answer, rfl, hcall, rfl, hdecided, hanswer, hforeign, ?_⟩
  exact hdecided.mistaken.mpr ⟨rfl, answer, hanswer, _, by rw [hexpected]; exact .head _, hforeign⟩

/-- The records of two edges are swapped: the call is accepted and clears the changes of both. -/
theorem changes_cleared_by_swapped_records :
    ∃ (w w' : Workspace) (first second : Edge) (row : Row),
      (w.edge? "first" = some first ∧ first.isDirty = true) ∧
      (w.edge? "second" = some second ∧ second.isDirty = true) ∧
      w.connection.Answers row ∧ ForeignRecord row "rel1" first ∧ ForeignRecord row "rel2" second ∧
      Writer.updateMany (fun _ _ _ => {}) ["first", "second"] w = (.ok 2, w') ∧
      w'.edge? "first" = some first.commit ∧ w'.edge? "second" = some second.commit := by
  let first : Edge :=
    { id := some 7, start := ⟨1, none⟩, finish := ⟨2, none⟩, label := "KNOWS",
      ledger := PropertyLedger.set {} "since" (.int 1), created := ⟨0⟩, updated := ⟨0⟩ }
  let second : Edge := { first with id := some 8 }
  let answer : Row := .ofList [("rel1", .record 82 [.int 8, .int 1, .int 2, .text "KNOWS", .map []]),
    ("rel2", .record 82 [.int 7, .int 1, .int 2, .text "KNOWS", .map []])]
  let w : Workspace :=
    { edges := .ofList [("first", first), ("second", second)],
      connection := { upcoming := [.rows [answer]] } }
  let w' : Workspace := (Writer.updateMany (fun _ _ _ => {}) ["first", "second"] w).2
  have hcall : Writer.updateMany (fun _ _ _ => {}) ["first", "second"] w = (.ok 2, w') :=
    Prod.ext (by decide +kernel) rfl
  have hfirst : w'.edge? "first" = some first.commit := by decide +kernel
  have hsecond : w'.edge? "second" = some second.commit := by decide +kernel
  exact ⟨w, w', first, second, answer, ⟨rfl, rfl⟩, ⟨rfl, rfl⟩, ⟨[], rfl⟩, ⟨_, rfl, by decide⟩,
    ⟨_, rfl, by decide⟩, hcall, hfirst, hsecond⟩

end EdgeMapper
