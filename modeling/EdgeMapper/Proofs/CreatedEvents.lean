import EdgeMapper.Proofs.Cypher.ReadBack
import EdgeMapper.Proofs.ListenerEdits
import EdgeMapper.Proofs.Reporting
/-!
# What events say about created edges

One statement creates all edges of a call, and then one event after another is made of the edges as
they are when their turns come. Listeners cannot touch the endpoints, so these are always those that the
statement matched; but the label of an event is the written one only if no listener of an earlier event
has given its edge another.
-/

namespace EdgeMapper

open Cypher (Statement Batch.numbered described Description)

/-- The event tells of the relationship that a create statement describes, with a newer label if there
is one. -/
structure Event.Describes (event : Event) (d : Description) (newer : Option String) : Prop where
  type : event.type = .created
  start : d.start = some event.start
  finish : d.finish = some event.finish
  label : event.label = newer.getD d.label

/-- Some edges have been created by one statement, with these clauses, and these events were emitted about
them; `v` is how the call found everything when it turned to the listeners. -/
structure CreatedTogether (behaviour : Behaviour) (names : List String) (w v w' : Workspace)
    (s : Statement) (cs : List Cypher.Clause) (events : List Event) : Prop where
  sent : w'.received = w.received ++ [s]
  read : Cypher.read s.text = some cs
  prepared : (Command.createMany names).prepare w = (.ok (names.map fun name => (name, [])), v)
  emits : Emits behaviour v events w'
  heard : ∀ l, behaviour.Keeps l → l ∈ w.subscriptions.listeners .everything →
    ∃ calls, w'.heard = w.heard ++ calls ∧
      calls.filter (·.1 = l) = events.map fun event => (l, event)
  counts : (described s.parameters cs).length = names.length ∧ events.length = names.length
  /-- The listeners of earlier events may have given an edge another label. -/
  describes : ∀ (i : Nat) (name : String) (event : Event) (d : Description), names[i]? = some name →
    events[i]? = some event → (described s.parameters cs)[i]? = some d → event.Describes d
      (lastLabel name (Task.deeds behaviour .created
        ((names.take i).map fun name => (name, [])) v))

section

variable {behaviour : Behaviour} {w w' v : Workspace} {names : List String} {name : String}
  {e e' : Edge}

/-! ## The statement -/

theorem Writer.requestMany_sent {row : Row}
    (h : Writer.requestMany names w = (.ok row, v)) :
    ∃ (edges : List (String × Edge)) (s : Statement), edges.map Prod.fst = names ∧
      (∀ p ∈ edges, w.edge? p.1 = some p.2) ∧
      Cypher.Batch.create (edges.map Prod.snd) true = .ok s ∧ v.received = w.received ++ [s] := by
  rcases edges_cases names w with ⟨edges, rfl, hfound, _⟩ | ⟨name, hunknown⟩
  swap
  · rw [requestMany, Task.bind_apply, hunknown] at h
    cases h
  rw [requestMany_apply hfound] at h
  cases hs : Cypher.Batch.create (edges.map Prod.snd) true with
  | error failure =>
      rw [hs] at h
      cases h
  | ok s =>
      rw [hs] at h
      obtain ⟨_, rfl⟩ := Prod.mk.inj h
      exact ⟨edges, s, rfl, hfound, hs, w.received_sent s _⟩

theorem Command.createMany_sent {items : List (String × List String)}
    (h : (createMany names).prepare w = (.ok items, v)) :
    ∃ (edges : List (String × Edge)) (s : Statement), edges.map Prod.fst = names ∧
      (∀ p ∈ edges, w.edge? p.1 = some p.2) ∧
      Cypher.Batch.create (edges.map Prod.snd) true = .ok s ∧ v.received = w.received ++ [s] ∧
      items = names.map fun name => (name, []) := by
  rcases Task.bind_cases h with ⟨row, u, hrequest, h₁⟩ | ⟨failure, _, hfailure⟩
  swap
  · cases hfailure
  rcases Task.bind_cases h₁ with ⟨_, t, happly, h₂⟩ | ⟨failure, _, hfailure⟩
  swap
  · cases hfailure
  obtain ⟨hitems, rfl⟩ := Prod.mk.inj h₂
  obtain ⟨edges, s, hnames, hfound, hs, hreceived⟩ := Writer.requestMany_sent hrequest
  have hconnection := Writer.applyAllCreated_connection row (Batch.numbered names) u
  rw [happly] at hconnection
  refine ⟨edges, s, hnames, hfound, hs, ?_, (Except.ok.inj hitems).symm⟩
  rw [← hreceived]
  exact congrArg Connection.received hconnection

theorem created_of_prepared {items : List (String × List String)}
    (h : Command.Prepared (.createMany names) w v items) (hname : name ∈ names)
    (he : w.edge? name = some e) :
    ∃ e', v.edge? name = some e' ∧ e.Advances e' ∧ e'.ledger = e.ledger.commit := by
  cases h with
  | created _ _ hnames hconfirmed =>
      have hmem : name ∈ (Command.createMany names).columns.map Prod.snd := hnames ▸ hname
      obtain ⟨p, hp, rfl⟩ := List.mem_map.mp hmem
      obtain ⟨_, f, e', _, hf, he', _, hadvances, hledger⟩ := hconfirmed p hp
      obtain rfl := Option.some.inj (he.symm.trans hf)
      exact ⟨e', he', hadvances, hledger⟩
  | idle htype => cases htype
  | updated htype => cases htype
  | deleted htype => cases htype

/-! ## The events -/

theorem emits_of_announce {type : EventType} {items : List (String × List String)}
    (h : Task.announce behaviour type items w = (.ok (), w')) :
    ∃ events, Emits behaviour w events w' ∧ events.length = items.length ∧
      ∀ i item event, items[i]? = some item → events[i]? = some event →
        ∃ e, (Task.announce behaviour type (items.take i) w).2.edge? item.1 = some e ∧
          event = Event.ofEdge type e item.2 := by
  -- the workspace varies, for what is announced first changes what the rest finds
  induction items generalizing w with
  | nil =>
      obtain ⟨_, rfl⟩ := Prod.mk.inj h
      exact ⟨[], .nil w, rfl, fun i _ _ hitem => by simp at hitem⟩
  | cons item rest ih =>
      rcases Task.edge_bind_cases h with ⟨e, he, h₁⟩ | ⟨hunknown, _⟩
      swap
      · cases hunknown
      rcases Task.bind_cases h₁ with ⟨count, v, hemit, hrest⟩ | ⟨failure, _, hfailure⟩
      swap
      · cases hfailure
      obtain ⟨events, hemits, hlength, hevents⟩ := ih hrest
      refine ⟨_, .cons hemit hemits, by simp [hlength], fun i other event hitem hevent => ?_⟩
      cases i with
      | zero =>
          obtain rfl := Option.some.inj hitem
          obtain rfl := Option.some.inj hevent
          exact ⟨e, he, rfl⟩
      | succ i =>
          obtain ⟨e', he', hof⟩ := hevents i other event hitem hevent
          refine ⟨e', ?_, hof⟩
          rw [List.take_succ_cons, Task.announce, Task.bind_of_ok (Task.edge_of_some he),
            Task.bind_of_ok hemit]
          exact he'

theorem describes_announced {earlier : List (String × List String)} {now : Edge}
    (he' : v.edge? name = some e') (hadvances : e.Advances e') (hledger : e'.ledger = e.ledger.commit)
    (hnow : (Task.announce behaviour .created earlier v).2.edge? name = some now) :
    (Event.ofEdge .created now []).Describes (Description.ofEdge e)
      (lastLabel name (Task.deeds behaviour .created earlier v)) := by
  obtain ⟨f, hf, _, hstart, hfinish⟩ :=
    Task.announce_kept (kept_hasEnds behaviour name e') .created earlier ⟨e', he', rfl, rfl, rfl⟩
  obtain rfl := Option.some.inj (hnow.symm.trans hf)
  obtain ⟨g, hg, _, _, hlabel⟩ := records_announced .created earlier he' hledger rfl
  obtain rfl := Option.some.inj (hnow.symm.trans hg)
  refine ⟨rfl, ?_, ?_, ?_⟩
  · have hid : now.start.id = e.start.id := by rw [hstart, hadvances.start.id]
    exact congrArg some hid.symm
  · have hid : now.finish.id = e.finish.id := by rw [hfinish, hadvances.finish.id]
    exact congrArg some hid.symm
  · rw [hadvances.label] at hlabel
    exact hlabel

end

/-- When several edges have been created by one statement, the event of each says of it what the
statement does, except that it has the label which listeners have given the edge meanwhile. -/
theorem created_events_describe_the_statement {behaviour : Behaviour} {names : List String}
    {w w' : Workspace} (h : (Command.createMany names).run behaviour w = (.ok (), w')) :
    ∃ v s cs events, CreatedTogether behaviour names w v w' s cs events := by
  rcases Command.run_cases h with ⟨failure, hfailure, _⟩ | ⟨items, v, hprepare, hannounce⟩
  · cases hfailure
  obtain ⟨edges, s, rfl, hfound, hs, hsent, rfl⟩ := Command.createMany_sent hprepare
  have hsilent := (Command.createMany (edges.map Prod.fst)).silent_prepare w
  rw [hprepare] at hsilent
  obtain ⟨hheard, hsubscriptions⟩ := Prod.mk.inj hsilent
  have hprepared := (Command.prepare_outcome hprepare).prepared _ rfl
  have hreads := Cypher.readsAsCreate hs
  obtain ⟨events, hemits, hlength, hevents⟩ := emits_of_announce hannounce
  have hreceived := received_announce behaviour (Command.createMany (edges.map Prod.fst)).type
    ((edges.map Prod.fst).map fun name => (name, [])) v
  rw [hannounce] at hreceived
  refine ⟨v, s, _, events,
    { sent := hreceived.trans hsent
      read := hreads.read
      prepared := hprepare
      emits := hemits
      heard := fun l hkeeps hl => hheard ▸ hemits.heard_by hkeeps (hsubscriptions ▸ hl)
      counts := ⟨by simp [hreads.edges], by simpa using hlength⟩
      describes := fun i name event d hname hevent hd => ?_ }⟩
  -- the statement, the events and the names have the same edge at this position
  rw [List.getElem?_map] at hname
  obtain ⟨p, hp, rfl⟩ := Option.map_eq_some_iff.mp hname
  rw [hreads.edges, List.getElem?_map, List.getElem?_map, hp] at hd
  obtain rfl := Option.some.inj hd
  have hitem : ((edges.map Prod.fst).map fun name => (name, ([] : List String)))[i]? =
      some (p.1, []) := by
    rw [List.getElem?_map, List.getElem?_map, hp]
    rfl
  obtain ⟨now, hnow, rfl⟩ := hevents i _ event hitem hevent
  have hmem : p ∈ edges := List.mem_of_getElem? hp
  obtain ⟨e', he', hadvances, hledger⟩ :=
    created_of_prepared hprepared (List.mem_map_of_mem hmem) (hfound p hmem)
  rw [← List.map_take] at hnow
  exact describes_announced he' hadvances hledger hnow

theorem created_events_describe_the_statement_while_relabelled :
    ∃ (behaviour : Behaviour) (w v w' : Workspace) (s : Statement) (cs : List Cypher.Clause)
      (events : List Event),
      (Command.createMany ["first", "second", "third"]).run behaviour w = (.ok (), w') ∧
      CreatedTogether behaviour ["first", "second", "third"] w v w' s cs events ∧
      (∃ calls, w'.heard = w.heard ++ calls ∧
        calls.filter (·.1 = ⟨0⟩) = events.map fun event => (⟨0⟩, event)) ∧
      w'.heard.map (·.2.label) = ["KNOWS", "KNOWS", "LIKES"] := by
  let behaviour : Behaviour := fun _ _ _ =>
    ⟨[.relabel "third" "HATES", .relabel "third" "LIKES", .relabel "first" "LIKES"], .failed⟩
  let e : Edge :=
    { start := ⟨1, none⟩, finish := ⟨2, none⟩, label := "KNOWS", created := ⟨0⟩, updated := ⟨0⟩ }
  let record (id : Int) : Value := .record 82 [.int id, .int 1, .int 2, .text "KNOWS", .map []]
  let answer : Row := .ofList [("rel1", record 7), ("rel2", record 8), ("rel3", record 9)]
  let w : Workspace :=
    { edges := .ofList [("first", e), ("second", e), ("third", e)],
      subscriptions := Subscriptions.subscribe {} ⟨0⟩ .everything,
      connection := { upcoming := [.rows [answer]] } }
  let c : Command := .createMany ["first", "second", "third"]
  have hok : (c.run behaviour w).1 = .ok () := by decide +kernel
  have hlabels : (c.run behaviour w).2.heard.map (·.2.label) = ["KNOWS", "KNOWS", "LIKES"] := by
    decide +kernel
  have hkeeps : behaviour.Keeps ⟨0⟩ := fun _ _ _ => ⟨by simp [behaviour], by simp [behaviour]⟩
  cases hcall : c.run behaviour w with
  | mk result w' =>
      rw [hcall] at hok hlabels
      obtain rfl : result = .ok () := hok
      obtain ⟨v, s, cs, events, htogether⟩ := created_events_describe_the_statement hcall
      have hheard := htogether.heard ⟨0⟩ hkeeps (List.mem_singleton_self _)
      exact ⟨behaviour, w, v, w', s, cs, events, hcall, htogether, hheard, hlabels⟩

/-- A listener of the first event relabels the second edge, whose event then tells of a label that was
never written. -/
theorem created_event_tells_unwritten_label :
    ∃ (behaviour : Behaviour) (w w' : Workspace) (s : Statement) (cs : List Cypher.Clause)
      (first second : Event),
      Writer.createMany behaviour ["first", "second"] w = (.ok ["first", "second"], w') ∧
      w'.received = [s] ∧ Cypher.read s.text = some cs ∧
      (described s.parameters cs).map (·.label) = ["KNOWS", "KNOWS"] ∧
      w'.heard = [(⟨0⟩, first), (⟨0⟩, second)] ∧
      (first.type = .created ∧ first.id = some 7 ∧ first.label = "KNOWS") ∧
      second.type = .created ∧ second.id = some 8 ∧ second.label = "LIKES" := by
  let behaviour : Behaviour := fun _ _ event =>
    if event.id = some 7 then ⟨[.relabel "second" "LIKES"], .returned⟩ else {}
  let e : Edge :=
    { start := ⟨1, none⟩, finish := ⟨2, none⟩, label := "KNOWS", created := ⟨0⟩, updated := ⟨0⟩ }
  let record (id : Int) : Value := .record 82 [.int id, .int 1, .int 2, .text "KNOWS", .map []]
  let w : Workspace :=
    { edges := .ofList [("first", e), ("second", e)],
      subscriptions := Subscriptions.subscribe {} ⟨0⟩ .everything,
      connection := { upcoming := [.rows [.ofList [("rel1", record 7), ("rel2", record 8)]]] } }
  let event (id : Int) (label : String) : Event :=
    { type := .created, id := some id, start := 1, finish := 2, label := label }
  let w' : Workspace := (Writer.createMany behaviour ["first", "second"] w).2
  have hcall : Writer.createMany behaviour ["first", "second"] w = (.ok ["first", "second"], w') :=
    Prod.ext (by decide +kernel) rfl
  have hheard : w'.heard = [(⟨0⟩, event 7 "KNOWS"), (⟨0⟩, event 8 "LIKES")] := by decide +kernel
  obtain ⟨s, hs⟩ : ∃ s, Cypher.Batch.create [e, e] true = .ok s := ⟨_, rfl⟩
  have hreads := Cypher.readsAsCreate hs
  have hsent : w'.received = [s] := by
    rw [← List.singleton_inj.mpr (Except.ok.inj hs)]
    rfl
  exact ⟨behaviour, w, w', s, _, event 7 "KNOWS", event 8 "LIKES", hcall, hsent, hreads.read,
    by rw [hreads.edges]; rfl, hheard, ⟨rfl, rfl, rfl⟩, rfl, rfl, rfl⟩

end EdgeMapper
