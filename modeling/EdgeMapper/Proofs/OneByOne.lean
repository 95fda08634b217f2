import EdgeMapper.Proofs.AllOrNothing
import EdgeMapper.Proofs.Cypher.Effect
/-!
# One by one or at once

Updating a list of edges with one statement does what updating them one after another does. The single
statement first sets everything and then removes everything, all edges are committed before the first
event, and clean edges shift the positions; but relationships with different ids do not get into each
other's way, and listeners that only listen cannot tell.
-/

namespace EdgeMapper

open Cypher (Statement Batch.relName Batch.numbered Batch.Clash Batch.exists_update_iff
  Batch.sound_numbered_iff Batch.map_fst_numbered Batch.map_snd_numbered filter_flatMap_owner)

/-! ## What reaches the server -/

section

variable {remote other : Remote} {ws more : List RemoteWrite} {id : Int}
  {loads : List (Int × PropertyLedger)}

theorem foldl_put_congr (h : remote id = other id) :
    ws.foldl Remote.put remote id = ws.foldl Remote.put other id := by
  induction ws generalizing remote other with
  | nil => exact h
  | cons w rest ih =>
      apply ih
      funext key
      rw [Remote.put, Remote.put, h]

theorem foldl_put_filter (remote : Remote) (ws : List RemoteWrite) (id : Int) :
    ws.foldl Remote.put remote id = (ws.filter (·.id = id)).foldl Remote.put remote id := by
  induction ws generalizing remote with
  | nil => rfl
  | cons w rest ih =>
      by_cases hid : w.id = id
      · rw [List.filter_cons_of_pos (by simpa using hid), List.foldl_cons, List.foldl_cons, ih]
      · rw [List.filter_cons_of_neg (by simpa using hid), List.foldl_cons, ← ih]
        apply foldl_put_congr
        funext key
        rw [Remote.put, if_neg fun h => hid h.1.symm]

theorem foldl_put_eq_of_filter (h : ∀ id, ws.filter (·.id = id) = more.filter (·.id = id)) :
    ws.foldl Remote.put remote = more.foldl Remote.put remote := by
  funext id
  rw [foldl_put_filter, h id, ← foldl_put_filter]

theorem id_of_mem_settings (load : Int × PropertyLedger) : ∀ w ∈ settings load, w.id = load.1 := by
  intro w hw
  obtain ⟨key, _, rfl⟩ := List.mem_map.mp hw
  rfl

theorem id_of_mem_deletions (load : Int × PropertyLedger) : ∀ w ∈ deletions load, w.id = load.1 := by
  intro w hw
  obtain ⟨key, _, rfl⟩ := List.mem_map.mp hw
  rfl

/-- All settings before all deletions, or relationship by relationship. -/
theorem foldl_put_reordered (hdistinct : (loads.map Prod.fst).Nodup) (remote : Remote) :
    (loads.flatMap settings ++ loads.flatMap deletions).foldl Remote.put remote =
      (loads.flatMap fun load => settings load ++ deletions load).foldl Remote.put remote := by
  have hboth (load : Int × PropertyLedger) : ∀ w ∈ settings load ++ deletions load, w.id = load.1 := by
    intro w hw
    rcases List.mem_append.mp hw with hw | hw
    · exact id_of_mem_settings load w hw
    · exact id_of_mem_deletions load w hw
  apply foldl_put_eq_of_filter
  intro id
  rw [List.filter_append]
  by_cases hid : ∃ load ∈ loads, load.1 = id
  · obtain ⟨load, hload, rfl⟩ := hid
    rw [filter_flatMap_owner id_of_mem_settings hdistinct hload,
      filter_flatMap_owner id_of_mem_deletions hdistinct hload,
      filter_flatMap_owner hboth hdistinct hload]
  · have hnone {f : Int × PropertyLedger → List RemoteWrite}
        (hf : ∀ load, ∀ w ∈ f load, w.id = load.1) : (loads.flatMap f).filter (·.id = id) = [] := by
      rw [List.filter_eq_nil_iff]
      intro w hw hwid
      obtain ⟨load, hload, hw⟩ := List.mem_flatMap.mp hw
      exact hid ⟨load, hload, (hf load w hw).symm.trans (by simpa using hwid)⟩
    rw [hnone id_of_mem_settings, hnone id_of_mem_deletions, hnone hboth]
    rfl

theorem foldl_apply_single {edges : List Edge} {statements : List Statement} {o : Cypher.Options}
    (ho : o.suffix = "")
    (hstatements : List.Forall₂ (fun e s => Statement.update e o = .ok s) edges statements)
    (hloads : loads.map (fun load => (some load.1, load.2)) = edges.map fun e => (e.id, e.ledger))
    (remote : Remote) :
    statements.foldl Remote.apply remote =
      (loads.flatMap fun load => settings load ++ deletions load).foldl Remote.put remote := by
  induction hstatements generalizing loads remote with
  | nil =>
      obtain rfl := List.map_eq_nil_iff.mp hloads
      rfl
  | @cons e s edges statements hs _ ih =>
      obtain ⟨⟨i, l⟩, rest, rfl, hhead, hrest⟩ := List.map_eq_cons_iff.mp hloads
      obtain ⟨hi, rfl⟩ := Prod.mk.inj hhead
      obtain ⟨id, hid, hwrites⟩ := writes_update ho hs
      obtain rfl := Option.some.inj (hi.trans hid)
      rw [List.foldl_cons, hwrites.apply_eq, ih hrest, List.flatMap_cons]
      exact List.foldl_append.symm

theorem apply_batch_eq {edges : List Edge} {s : Statement} {statements : List Statement}
    {o : Cypher.Options} {withReturn : Bool} (ho : o.suffix = "")
    (hdistinct : (edges.map (·.id)).Nodup)
    (hbatch : Cypher.Batch.update edges withReturn = .ok s)
    (hstatements : List.Forall₂ (fun e s => Statement.update e o = .ok s) edges statements)
    (remote : Remote) : remote.apply s = statements.foldl Remote.apply remote := by
  obtain ⟨loads, hloads, hwrites⟩ := writes_batch hbatch
  have hids : (loads.map fun load => some load.1) = edges.map (·.id) := by
    have hfirst := congrArg (List.map Prod.fst) hloads
    rwa [List.map_map, List.map_map] at hfirst
  have hnodup : (loads.map Prod.fst).Nodup := by
    have hsome : (loads.map fun load => some load.1) = (loads.map Prod.fst).map some := by
      rw [List.map_map]
      rfl
    rw [← hids, hsome] at hdistinct
    exact hdistinct.of_map
  rw [hwrites.apply_eq, foldl_put_reordered hnodup, foldl_apply_single ho hstatements hloads]

end

/-! ## Listeners that only listen -/

/-- The listeners edit nothing, leave all subscriptions as they are and cancel nothing. They may fail. -/
def Behaviour.Passive (behaviour : Behaviour) : Prop :=
  ∀ w l event, (behaviour w l event).actions = [] ∧ (behaviour w l event).ending ≠ .cancelled

def Workspace.echo (w : Workspace) (event : Event) : List (ListenerId × Event) :=
  (w.subscriptions.audience event).map fun l => (l, event)

def updateEvent (e : Edge) : Event := Event.ofEdge .updated e e.ledger.changedKeys

section

variable {behaviour : Behaviour} {w v u : Workspace} {written more : List (String × Edge)}

theorem deliver_passive (hpassive : behaviour.Passive) (event : Event) (ls : List ListenerId)
    (w : Workspace) : ∃ count entries, w.deliver behaviour event ls =
      (.ok count, { w with
        heard := w.heard ++ ls.map fun l => (l, event)
        log := w.log ++ entries }) := by
  induction ls generalizing w with
  | nil => exact ⟨0, [], by simp [Workspace.deliver]⟩
  | cons l rest ih =>
      obtain ⟨hactions, hending⟩ := hpassive w l event
      rw [Workspace.deliver, hactions]
      cases hreaction : (behaviour w l event).ending with
      | returned =>
          obtain ⟨count, entries, hrest⟩ := ih (w.hear l event)
          refine ⟨count + 1, entries, ?_⟩
          simp only [Workspace.performAll, hrest]
          simp [Workspace.hear]
      | failed =>
          obtain ⟨count, entries, hrest⟩ := ih ((w.hear l event).note [Workspace.failureEntry event])
          refine ⟨count, Workspace.failureEntry event :: entries, ?_⟩
          simp only [Workspace.performAll, hrest]
          simp [Workspace.hear, Workspace.note]
      | cancelled => exact absurd hreaction hending

/-- These edges have been committed and announced, and that is all, apart from the connection and the
log. -/
structure Workspace.Wrote (w : Workspace) (written : List (String × Edge)) (v : Workspace) : Prop where
  clock : v.clock = w.clock
  nodes : v.nodes = w.nodes
  subscriptions : v.subscriptions = w.subscriptions
  edges : v.edges = commitAll written w.edges
  heard : v.heard = w.heard ++ written.flatMap fun p => w.echo (updateEvent p.2)

theorem Workspace.wrote_self (w : Workspace) : w.Wrote [] w :=
  ⟨rfl, rfl, rfl, rfl, (List.append_nil _).symm⟩

theorem Workspace.Wrote.of_note (h : w.Wrote written v) (entries : List LogEntry) :
    w.Wrote written (v.note entries) :=
  ⟨h.clock, h.nodes, h.subscriptions, h.edges, h.heard⟩

theorem Workspace.Wrote.trans (h : w.Wrote written v) (hmore : v.Wrote more u) :
    w.Wrote (written ++ more) u where
  clock := hmore.clock.trans h.clock
  nodes := hmore.nodes.trans h.nodes
  subscriptions := hmore.subscriptions.trans h.subscriptions
  edges := by rw [hmore.edges, h.edges, commitAll, commitAll, commitAll, List.foldl_append]
  heard := by
    have hecho (event : Event) : v.echo event = w.echo event := by
      rw [Workspace.echo, h.subscriptions, Workspace.echo]
    simp only [hmore.heard, h.heard, hecho, List.flatMap_append, List.append_assoc]

theorem Workspace.Wrote.edge?_of_not_mem (h : w.Wrote written v) {name : String}
    (hname : name ∉ written.map Prod.fst) : v.edge? name = w.edge? name := by
  rw [Workspace.edge?, h.edges]
  exact get?_commitAll_of_not_mem hname w.edges

theorem announce_passive (hpassive : behaviour.Passive)
    (hstored : ∀ p ∈ written, v.edge? p.1 = some p.2.commit) :
    ∃ entries, Task.announce behaviour .updated (Writer.announcements written) v =
      (.ok (), { v with
        heard := v.heard ++ written.flatMap fun p => v.echo (updateEvent p.2)
        log := v.log ++ entries }) := by
  induction written generalizing v with
  | nil => exact ⟨[], by simp [Writer.announcements, Task.announce]; rfl⟩
  | cons p rest ih =>
      obtain ⟨count, first, hfirst⟩ :=
        deliver_passive hpassive (updateEvent p.2) (v.subscriptions.audience (updateEvent p.2)) v
      obtain ⟨entries, hrest⟩ := @ih
        { v with heard := v.heard ++ v.echo (updateEvent p.2), log := v.log ++ first }
        fun q hq => hstored q (by simp [hq])
      refine ⟨first ++ entries, ?_⟩
      change (Task.edge p.1 >>= fun e =>
        Task.emit behaviour (Event.ofEdge .updated e p.2.ledger.changedKeys) >>= fun _ =>
        Task.announce behaviour .updated (Writer.announcements rest)) v = _
      have hemit : Task.emit behaviour (Event.ofEdge .updated p.2.commit p.2.ledger.changedKeys) v =
          (.ok count,
            { v with heard := v.heard ++ v.echo (updateEvent p.2), log := v.log ++ first }) :=
        hfirst
      rw [Task.bind_of_ok (Task.edge_of_some (hstored p (by simp))), Task.bind_of_ok hemit, hrest]
      simp [Workspace.echo]

namespace Writer

theorem writing_passive {α β : Type} (hpassive : behaviour.Passive)
    (hfound : ∀ p ∈ written, w.edge? p.1 = some p.2) (s : Statement)
    (entries : Statement → List LogEntry) {reply : Except Failure α} (hreply : ∃ a, reply = .ok a)
    (message : String) (b : β) :
    ∃ v, writing behaviour written (.ok s) entries reply message b w = (.ok b, v) ∧ w.Wrote written v ∧
      v.connection = (w.connection.send s).1 := by
  obtain ⟨a, rfl⟩ := hreply
  have hstored : ∀ p ∈ written, (committed written message (w.sent s (entries s))).edge? p.1 =
      some p.2.commit := fun p hp => get?_commitAll hfound hp w.edges
  obtain ⟨more, hannounce⟩ := announce_passive hpassive hstored
  refine ⟨_, Task.bind_of_ok hannounce, ⟨rfl, rfl, rfl, rfl, rfl⟩, rfl⟩

variable {binding name : String} {e : Edge}

/-! ## One by one -/

theorem update_passive (hpassive : behaviour.Passive) (he : w.edge? name = some e)
    (hdirty : e.isDirty = true) (hready : UpdateReady w (ofBinding binding).binding e) :
    ∃ v s, (ofBinding binding).update behaviour name w = (.ok true, v) ∧ w.Wrote [(name, e)] v ∧
      Statement.update e (ofBinding binding).options = .ok s ∧
      v.connection = (w.connection.send s).1 := by
  obtain ⟨s, hs⟩ := (Cypher.exists_update_iff (o := (ofBinding binding).options)
    (binding_ofBinding binding)).mpr hready.id
  obtain ⟨row, hrow, hrecord⟩ := hready.answered
  have hfound : ∀ p ∈ [(name, e)], w.edge? p.1 = some p.2 := by simpa using he
  have hreply : ∃ a, (w.connection.answer (.nothingUpdated e.id)).bind
      (fun row => returned row (ofBinding binding).binding) = .ok a :=
    exists_reply_iff.mpr ⟨row, hrow, exists_returned_iff.mpr hrecord⟩
  obtain ⟨v, hv, hwrote, hconnection⟩ := writing_passive hpassive hfound s
    (Statement.remarks .update e) hreply ("Updated relationship " ++ Literal.ofId e.id) true
  refine ⟨v, s, ?_, hwrote, hs, hconnection⟩
  rw [update_dirty _ _ he hdirty, hs, hv]

theorem mapM_update_passive (hpassive : behaviour.Passive) {edges : List (String × Edge)}
    (hnames : (edges.map Prod.fst).Nodup) (hfound : ∀ p ∈ edges, w.edge? p.1 = some p.2)
    (hids : ∀ p ∈ edges.filter (·.2.isDirty), p.2.id ≠ none) {answers later : List Answer}
    (hupcoming : w.connection.upcoming = answers ++ later)
    (hanswers : List.Forall₂ (fun answer _ => ∃ row rows, answer = .rows (row :: rows) ∧
      HoldsRecord row (ofBinding binding).binding) answers (edges.filter (·.2.isDirty))) :
    ∃ v statements, (edges.map Prod.fst).mapM ((ofBinding binding).update behaviour) w =
        (.ok (edges.map (·.2.isDirty)), v) ∧ w.Wrote (edges.filter (·.2.isDirty)) v ∧
      v.received = w.received ++ statements ∧
      List.Forall₂ (fun e s => Statement.update e (ofBinding binding).options = .ok s)
        ((edges.filter (·.2.isDirty)).map Prod.snd) statements := by
  -- the workspace and the answers vary: a dirty edge takes one of them, a clean one leaves it to the next
  induction edges generalizing w answers with
  | nil => exact ⟨w, [], rfl, w.wrote_self, (List.append_nil _).symm, .nil⟩
  | cons p rest ih =>
      rw [List.map_cons, List.nodup_cons] at hnames
      have hp := hfound p (by simp)
      have hrest (q) (hq : q ∈ rest) : w.edge? q.1 = some q.2 := hfound q (by simp [hq])
      cases hdirty : p.2.isDirty with
      | false =>
          rw [List.filter_cons_of_neg (by simp [hdirty])] at hids hanswers ⊢
          have hclean := update_clean (ofBinding binding) behaviour hp hdirty
          have hnothing : w.Wrote [] (w.note (if p.2.ledger.modified then [unwritable p.2] else [])) :=
            w.wrote_self.of_note _
          obtain ⟨v, statements, hv, hwrote, hreceived, hstatements⟩ :=
            ih hnames.2 (fun q hq => hrest q hq) hids (w := w.note _) hupcoming hanswers
          refine ⟨v, statements, ?_, hnothing.trans hwrote, hreceived, hstatements⟩
          rw [List.map_cons, List.mapM_cons, Task.bind_of_ok hclean, Task.bind_of_ok hv, List.map_cons,
            hdirty]
          rfl
      | true =>
          rw [List.filter_cons_of_pos (by simpa using hdirty)] at hids hanswers ⊢
          obtain ⟨_, answers', ⟨row, rows, rfl, hrecord⟩, hanswers', rfl⟩ :=
            List.forall₂_cons_right_iff.mp hanswers
          have hready : UpdateReady w (ofBinding binding).binding p.2 :=
            ⟨hids p (by simp), row, ⟨rows, by rw [hupcoming]; rfl⟩, hrecord⟩
          obtain ⟨u, s, hu, hwrote, hs, hconnection⟩ := update_passive hpassive hp hdirty hready
          have hothers (q) (hq : q ∈ rest) : u.edge? q.1 = some q.2 := by
            rw [hwrote.edge?_of_not_mem]
            · exact hrest q hq
            · rintro hmem
              rw [List.map_singleton, List.mem_singleton] at hmem
              exact hnames.1 (hmem ▸ List.mem_map_of_mem hq)
          have hnext : u.connection.upcoming = answers' ++ later := by
            rw [hconnection, Connection.send, hupcoming]
            rfl
          have hsent : u.received = w.received ++ [s] := by
            rw [Workspace.received, hconnection]
            exact received_send s w
          obtain ⟨v, statements, hv, hmore, hreceived, hstatements⟩ :=
            ih hnames.2 hothers (fun q hq => hids q (by simp [hq])) hnext hanswers'
          refine ⟨v, s :: statements, ?_, hwrote.trans hmore, ?_, .cons hs hstatements⟩
          · rw [List.map_cons, List.mapM_cons, Task.bind_of_ok hu, Task.bind_of_ok hv, List.map_cons,
              hdirty]
            rfl
          · rw [hreceived, hsent, List.append_assoc, List.singleton_append]

/-! ## At once -/

theorem updateMany_passive (hpassive : behaviour.Passive) {edges dirty : List (String × Edge)}
    (hfound : ∀ p ∈ edges, w.edge? p.1 = some p.2) (hdirty : edges.filter (·.2.isDirty) = dirty)
    (hne : dirty ≠ []) (hready : BatchReady w (dirty.map Prod.snd)) :
    ∃ v s, updateMany behaviour (edges.map Prod.fst) w = (.ok dirty.length, v) ∧ w.Wrote dirty v ∧
      Cypher.Batch.update (dirty.map Prod.snd) true = .ok s ∧
      v.connection = (w.connection.send s).1 := by
  obtain ⟨s, hs⟩ := (Batch.exists_update_iff (by simpa using hne)).mpr
    (Batch.sound_numbered_iff.mpr ⟨hready.ids, hready.names⟩)
  obtain ⟨row, hrow, hrecords⟩ := hready.answered
  rw [List.length_map, ← Batch.map_fst_numbered] at hrecords
  have hreply : ∃ a, (w.connection.answer (.nothingUpdatedInBatch (dirty.map (·.2.id)))).bind
      (fun row => checkReturned row ((Batch.numbered dirty).map Prod.fst)) = .ok a :=
    exists_reply_iff.mpr ⟨row, hrow, exists_checkReturned_iff.mpr hrecords⟩
  have hwritten (p) (hp : p ∈ dirty) : w.edge? p.1 = some p.2 := by
    rw [← hdirty] at hp
    exact hfound p (List.mem_of_mem_filter hp)
  obtain ⟨v, hv, hwrote, hconnection⟩ := writing_passive hpassive hwritten s
    (fun _ => Cypher.Batch.remarks .update (dirty.map Prod.snd)) hreply
    ("Updated " ++ toString dirty.length ++ " relationships") dirty.length
  refine ⟨v, s, ?_, hwrote, hs, hconnection⟩
  rw [updateMany_apply behaviour hfound hdirty hne, hs, hv]

end Writer

end

/-! ## Agreement -/

namespace Connection

/-- The next answer has a first row that holds these values in the columns of their positions. -/
def AnswersAtOnce (c : Connection) (records : List Value) : Prop :=
  ∃ row, c.Answers row ∧ ∀ i record, (i, record) ∈ Batch.numbered records →
    row.get? (Batch.relName i) = some record

/-- The next answers have first rows that hold these values, one after another, in this column. -/
def AnswersOneByOne (c : Connection) (column : String) (records : List Value) : Prop :=
  ∃ answers later, c.upcoming = answers ++ later ∧ List.Forall₂ (fun answer record =>
    ∃ row rows, answer = .rows (row :: rows) ∧ row.get? column = some record) answers records

end Connection

/-- Two calls of which the one did at once and the other one by one what was to be done: writing the
dirty edges. -/
structure Agreement (w : Workspace) (dirty : List (String × Edge)) (atOnce oneByOne : Connection)
    (count : Nat) (written : List Bool) (v u : Workspace) : Prop where
  counted : count = dirty.length ∧ written.count true = count
  same : u = { v with connection := u.connection, log := u.log }
  committed : v.edges = commitAll dirty w.edges
  heard : v.heard = w.heard ++ dirty.flatMap fun p => w.echo (updateEvent p.2)
  sent : ∃ batch single, v.received = atOnce.received ++ batch ∧
    u.received = oneByOne.received ++ single ∧ batch.length ≤ 1 ∧ single.length = dirty.length ∧
    ∀ remote : Remote, batch.foldl Remote.apply remote = single.foldl Remote.apply remote

theorem Workspace.Wrote.agree {w₁ w₂ v u : Workspace} {dirty : List (String × Edge)} {c : Connection}
    (hw : w₂ = { w₁ with connection := c }) (hv : w₁.Wrote dirty v) (hu : w₂.Wrote dirty u) :
    u = { v with connection := u.connection, log := u.log } := by
  subst hw
  have hclock := hu.clock.trans hv.clock.symm
  have hnodes := hu.nodes.trans hv.nodes.symm
  have hsubscriptions := hu.subscriptions.trans hv.subscriptions.symm
  have hedges := hu.edges.trans hv.edges.symm
  have hheard := hu.heard.trans hv.heard.symm
  cases u
  cases v
  simp only at hclock hnodes hsubscriptions hedges hheard
  rw [hclock, hnodes, hsubscriptions, hedges, hheard]

theorem count_true_map (edges : List (String × Edge)) :
    (edges.map (·.2.isDirty)).count true = (edges.filter (·.2.isDirty)).length := by
  induction edges with
  | nil => rfl
  | cons p rest ih =>
      rw [List.map_cons, List.count_cons, ih, List.filter_cons]
      cases p.2.isDirty with
      | false => rfl
      | true => rfl

theorem forall₂_answers {α : Type} {R : Answer → Value → Prop} {P : Answer → Prop}
    {answers : List Answer} {records : List Value} (h : List.Forall₂ R answers records)
    {items : List α} (hlength : records.length = items.length)
    (hP : ∀ answer, ∀ record ∈ records, R answer record → P answer) :
    List.Forall₂ (fun answer _ => P answer) answers items := by
  induction h generalizing items with
  | nil =>
      obtain rfl := List.length_eq_zero_iff.mp hlength.symm
      exact .nil
  | cons hR _ ih =>
      obtain ⟨item, rest, rfl⟩ := List.exists_cons_of_length_pos (by rw [← hlength]; simp)
      refine .cons (hP _ _ (by simp) hR) (ih (by simpa using hlength) ?_)
      exact fun answer record hrecord => hP answer record (by simp [hrecord])

theorem batchReady_of_records {w : Workspace} {dirty : List (String × Edge)} {records : List Value}
    {c : Connection} (hids : ∀ p ∈ dirty, p.2.id ≠ none)
    (hclash : ∀ i k j l, ¬ Batch.Clash (·.ledger.pending) (dirty.map Prod.snd) i k j l)
    (hlength : records.length = dirty.length)
    (hrecords : ∀ value ∈ records, ∃ record, EdgeRecord.ofValue value = .ok record)
    (hanswers : c.AnswersAtOnce records) :
    BatchReady { w with connection := c } (dirty.map Prod.snd) where
  ids := List.forall_mem_map.mpr hids
  names := hclash
  answered := by
    obtain ⟨row, hrow, hcolumns⟩ := hanswers
    refine ⟨row, hrow, fun i hi => ?_⟩
    rw [List.length_map, ← hlength, ← Batch.map_fst_numbered] at hi
    obtain ⟨⟨_, value⟩, hvalue, rfl⟩ := List.mem_map.mp hi
    have hmem : value ∈ records := by
      rw [← Batch.map_snd_numbered records]
      exact List.mem_map_of_mem hvalue
    obtain ⟨record, hrecord⟩ := hrecords value hmem
    exact ⟨value, record, hcolumns _ value hvalue, hrecord⟩

/-- With listeners that only listen, updating edges at once and updating them one by one agree: the
edges end up the same, the same is heard in the same order, as many edges are counted, and the server
holds the same. -/
theorem updates_at_once_and_one_by_one_agree {behaviour : Behaviour} (hpassive : behaviour.Passive)
    (binding : String) {w : Workspace} {edges dirty : List (String × Edge)}
    (hnames : (edges.map Prod.fst).Nodup) (hfound : ∀ p ∈ edges, w.edge? p.1 = some p.2)
    (hdirty : edges.filter (·.2.isDirty) = dirty) (hids : ∀ p ∈ dirty, p.2.id ≠ none)
    (hdistinct : (dirty.map (·.2.id)).Nodup)
    (hclash : ∀ i k j l, ¬ Batch.Clash (·.ledger.pending) (dirty.map Prod.snd) i k j l)
    {records : List Value} (hlength : records.length = dirty.length)
    (hrecords : ∀ value ∈ records, ∃ record, EdgeRecord.ofValue value = .ok record)
    {atOnce oneByOne : Connection} (hatOnce : dirty ≠ [] → atOnce.AnswersAtOnce records)
    (honeByOne : oneByOne.AnswersOneByOne (Writer.ofBinding binding).binding records) :
    ∃ count written v u,
      Writer.updateMany behaviour (edges.map Prod.fst) { w with connection := atOnce } =
        (.ok count, v) ∧
      (edges.map Prod.fst).mapM ((Writer.ofBinding binding).update behaviour)
        { w with connection := oneByOne } = (.ok written, u) ∧
      Agreement w dirty atOnce oneByOne count written v u := by
  obtain ⟨answers, later, hupcoming, hanswers⟩ := honeByOne
  have hholds : List.Forall₂ (fun answer _ => ∃ row rows, answer = .rows (row :: rows) ∧
      HoldsRecord row (Writer.ofBinding binding).binding) answers dirty := by
    refine forall₂_answers hanswers hlength ?_
    rintro answer value hvalue ⟨row, rows, hrows, hcolumn⟩
    obtain ⟨record, hrecord⟩ := hrecords value hvalue
    exact ⟨row, rows, hrows, value, record, hcolumn, hrecord⟩
  subst hdirty
  obtain ⟨u, single, hu, hwrote, hsent, hsingle⟩ := Writer.mapM_update_passive
    (w := { w with connection := oneByOne }) hpassive hnames hfound hids hupcoming hholds
  -- with nothing to write the batch is not sent, though an empty batch would be refused
  by_cases hnone : edges.filter (·.2.isDirty) = []
  · have hidle : Writer.updateMany behaviour (edges.map Prod.fst) { w with connection := atOnce } =
        (.ok 0, { w with connection := atOnce }) := Writer.updateMany_clean behaviour hfound hnone
    refine ⟨0, _, _, u, hidle, hu, ?_⟩
    rw [hnone] at hwrote hsingle ⊢
    cases hsingle
    exact
      { counted := ⟨rfl, by rw [count_true_map, hnone]; rfl⟩
        same := Workspace.Wrote.agree rfl (Workspace.wrote_self { w with connection := atOnce }) hwrote
        committed := rfl
        heard := (List.append_nil _).symm
        sent := ⟨[], [], (List.append_nil _).symm, hsent, by simp, rfl, fun _ => rfl⟩ }
  · have hready : BatchReady { w with connection := atOnce }
        ((edges.filter (·.2.isDirty)).map Prod.snd) :=
      batchReady_of_records hids hclash hlength hrecords (hatOnce hnone)
    obtain ⟨v, s, hv, hwrote', hs, hconnection⟩ := Writer.updateMany_passive
      (w := { w with connection := atOnce }) hpassive hfound rfl hnone hready
    refine ⟨_, _, v, u, hv, hu, ?_⟩
    exact
      { counted := ⟨rfl, count_true_map edges⟩
        same := Workspace.Wrote.agree rfl hwrote' hwrote
        committed := hwrote'.edges
        heard := hwrote'.heard
        sent := by
          have hcount : single.length = (edges.filter (·.2.isDirty)).length := by
            rw [← hsingle.length_eq, List.length_map]
          refine ⟨[s], single, ?_, hsent, by simp, hcount, fun remote => ?_⟩
          · rw [Workspace.received, hconnection]
            exact received_send s { w with connection := atOnce }
          · rw [List.foldl_cons, List.foldl_nil]
            refine apply_batch_eq rfl ?_ hs hsingle remote
            rwa [List.map_map] }

/-- Two dirty edges with a clean one between them, and a listener to everything. -/
theorem updates_agree_around_a_clean_edge :
    ∃ (w : Workspace) (edges dirty : List (String × Edge)) (atOnce oneByOne : Connection)
      (written : List Bool) (v u : Workspace),
      edges.length = 3 ∧ edges.filter (·.2.isDirty) = dirty ∧ dirty.length = 2 ∧
      Writer.updateMany (fun _ _ _ => {}) ["a", "b", "c"] { w with connection := atOnce } =
        (.ok 2, v) ∧
      ["a", "b", "c"].mapM (({} : Writer).update fun _ _ _ => {}) { w with connection := oneByOne } =
        (.ok written, u) ∧
      written.count true = 2 ∧ v.heard.length = 2 ∧
      Agreement w dirty atOnce oneByOne 2 written v u := by
  let clean (id : Int) : Edge :=
    { id := some id, start := ⟨1, none⟩, finish := ⟨2, none⟩, label := "KNOWS", created := ⟨0⟩,
      updated := ⟨0⟩ }
  let first : Edge := (clean 7).write ⟨1⟩ "since" (.int 1)
  let last : Edge := (clean 9).write ⟨2⟩ "until" .null
  let record (id : Int) : Value := .record 82 [.int id, .int 1, .int 2, .text "KNOWS", .map []]
  let edges : List (String × Edge) := [("a", first), ("b", clean 8), ("c", last)]
  let dirty : List (String × Edge) := [("a", first), ("c", last)]
  let records : List Value := [record 7, record 9]
  let w : Workspace :=
    { edges := .ofList edges, subscriptions := { everything := [⟨0⟩] } }
  let row : Row := .ofList [(Batch.relName 1, record 7), (Batch.relName 2, record 9)]
  let atOnce : Connection := { upcoming := [.rows [row]] }
  let oneByOne : Connection :=
    { upcoming := [.rows [.ofList [("rel", record 7)]], .rows [.ofList [("rel", record 9)]]] }
  have hpassive : Behaviour.Passive fun _ _ _ => {} := fun _ _ _ => ⟨rfl, nofun⟩
  have hfound : ∀ p ∈ edges, w.edge? p.1 = some p.2 := by
    simp only [edges, List.forall_mem_cons]
    exact ⟨rfl, rfl, rfl, by simp⟩
  have hids : ∀ p ∈ dirty, p.2.id ≠ none := by decide
  have hclash : ∀ i k j l, ¬ Batch.Clash (·.ledger.pending) (dirty.map Prod.snd) i k j l :=
    fun _ _ _ _ => Cypher.Batch.Clash.not_of_length_le_ten (by decide)
  have hrecords : ∀ value ∈ records, ∃ record, EdgeRecord.ofValue value = .ok record := by
    simp only [records, List.forall_mem_cons]
    exact ⟨⟨_, rfl⟩, ⟨_, rfl⟩, by simp⟩
  have hcolumns : ∀ p ∈ Batch.numbered records, row.get? (Batch.relName p.1) = some p.2 := by
    decide +kernel
  have hatOnce : atOnce.AnswersAtOnce records :=
    ⟨row, ⟨[], rfl⟩, fun i value hvalue => hcolumns (i, value) hvalue⟩
  have honeByOne : oneByOne.AnswersOneByOne "rel" records :=
    ⟨_, [], (List.append_nil _).symm, .cons ⟨_, [], rfl, rfl⟩ (.cons ⟨_, [], rfl, rfl⟩ .nil)⟩
  obtain ⟨count, written, v, u, hv, hu, hagree⟩ := updates_at_once_and_one_by_one_agree hpassive ""
    (by decide) hfound rfl hids (by decide) hclash rfl hrecords (fun _ => hatOnce) honeByOne
  obtain rfl : count = 2 := hagree.counted.1
  exact ⟨w, edges, dirty, atOnce, oneByOne, written, v, u, rfl, rfl, rfl, hv, hu, hagree.counted.2,
    congrArg List.length hagree.heard, hagree⟩

end EdgeMapper
