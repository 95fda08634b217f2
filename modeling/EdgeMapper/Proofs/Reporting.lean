import EdgeMapper.Proofs.Hearing
import EdgeMapper.Proofs.Identity
import Mathlib.Data.List.Forall2
/-!
# What events report

A call emits an event for every edge that it wrote, in the order of the edges, and for no other; if it
fails it emits none. The keys of an event are those that the statement carried, whatever listeners have
written to the edge since, and its ids are those of the edge.
-/

namespace EdgeMapper

open Cypher (Statement)

/-- These events are emitted, one after another, and nothing else happens. -/
inductive Emits (behaviour : Behaviour) : Workspace → List Event → Workspace → Prop where
  | nil (w : Workspace) : Emits behaviour w [] w
  | cons {w v w' : Workspace} {event : Event} {events : List Event} {count : Nat}
    (h : Task.emit behaviour event w = (.ok count, v)) (hrest : Emits behaviour v events w') :
    Emits behaviour w (event :: events) w'

def Workspace.BuiltBetween (w : Workspace) (name : String) (start finish : Int) : Prop :=
  ∃ (first : Edge) (w₀ : Workspace), first.Built start finish ∧ w₀.edge? name = some first ∧
    Life name true w₀ w

/-- The event tells that this happened to the edge of this name, and which keys are concerned. -/
structure Event.Tells (event : Event) (w : Workspace) (name : String) (type : EventType)
    (id : Option Int) (keys : List String) : Prop where
  type : event.type = type
  id : event.id = id
  keys : event.keys = keys
  ends : ∃ e, w.edge? name = some e ∧ event.start = e.start.id ∧ event.finish = e.finish.id
  built : ∀ start finish, w.BuiltBetween name start finish →
    event.start = start ∧ event.finish = finish

/-- The events that a call reports: one for each edge that was created, or was dirty and has been
updated, or was deleted. -/
inductive Reports (c : Command) (w w' : Workspace) (events : List Event) : Prop where
  | created {row : Row} (htype : c.type = .created) (hanswer : w.connection.Answers row)
    (hnames : c.columns.map Prod.snd = c.names)
    (hevents : List.Forall₂ (fun p event => ∃ record, Writer.returned row p.1 = .ok record ∧
      event.Tells w p.2 .created (some record.id) []) c.columns events)
  | updated {edges : List (String × Edge)} (htype : c.type = .updated)
    (hnames : edges.map Prod.fst = c.names) (hfound : ∀ p ∈ edges, w.edge? p.1 = some p.2)
    (hevents : List.Forall₂ (fun p event => event.Tells w p.1 .updated p.2.id
      p.2.ledger.changedKeys) (edges.filter (·.2.isDirty)) events)
    (hsent : events = [] ∧ w'.received = w.received ∨ ∃ s, w'.received = w.received ++ [s] ∧
      ChangesKeys s (events.map fun event => (event.id, event.keys)))
  | deleted (htype : c.type = .deleted)
    (hevents : List.Forall₂ (fun name event => ∃ e, w.edge? name = some e ∧
      event.Tells w name .deleted e.id []) c.names events)

def Behaviour.Keeps (behaviour : Behaviour) (l : ListenerId) : Prop :=
  ∀ w m event, .unsubscribe l ∉ (behaviour w m event).actions ∧ .clear ∉ (behaviour w m event).actions

section

variable {behaviour : Behaviour} {w w' v : Workspace} {name : String} {e : Edge} {events : List Event}

theorem Workspace.BuiltBetween.endpoints {start finish : Int} (h : w.BuiltBetween name start finish)
    (he : w.edge? name = some e) : e.start.id = start ∧ e.finish.id = finish := by
  obtain ⟨first, w₀, hbuilt, hfirst, hlife⟩ := h
  obtain ⟨e', he', hcontinues, _⟩ := hlife.goesOn hfirst
  obtain rfl := Option.some.inj (he.symm.trans he')
  obtain ⟨hstart, hfinish⟩ := hbuilt.endpoints
  exact ⟨hcontinues.start.id.trans hstart, hcontinues.finish.id.trans hfinish⟩

/-! ## Announcing -/

structure Event.Of (event : Event) (type : EventType) (e : Edge) (keys : List String) : Prop where
  type : event.type = type
  id : event.id = e.id
  keys : event.keys = keys
  start : event.start = e.start.id
  finish : event.finish = e.finish.id

theorem Event.Of.tells {event : Event} {type : EventType} {e' : Edge} {keys : List String}
    (h : event.Of type e' keys) (he : w.edge? name = some e) (hcontinues : e.Continues e') :
    event.Tells w name type e'.id keys where
  type := h.type
  id := h.id
  keys := h.keys
  ends := ⟨e, he, h.start.trans hcontinues.start.id, h.finish.trans hcontinues.finish.id⟩
  built start finish hbuilt := by
    obtain ⟨hstart, hfinish⟩ := hbuilt.endpoints he
    exact ⟨(h.start.trans hcontinues.start.id).trans hstart,
      (h.finish.trans hcontinues.finish.id).trans hfinish⟩

/-- Listeners that do not cancel let an announcement run to its end, and can change neither the ids nor
the endpoints that it tells. -/
theorem announce_emits (hsteady : behaviour.Steady) (type : EventType)
    {items : List (String × List String)} {w₀ : Workspace}
    (hexists : ∀ item ∈ items, ∃ e, w₀.edge? item.1 = some e)
    (hends : ∀ name e, w₀.edge? name = some e → w.HasEnds name e) :
    ∃ events w', Task.announce behaviour type items w = (.ok (), w') ∧
      Emits behaviour w events w' ∧
      List.Forall₂ (fun item event => ∃ e, w₀.edge? item.1 = some e ∧ event.Of type e item.2)
        items events := by
  -- the workspace varies, but no listener changes the ends of an edge that there was in the first one
  induction items generalizing w with
  | nil => exact ⟨[], w, rfl, .nil w, .nil⟩
  | cons item rest ih =>
      obtain ⟨name, keys⟩ := item
      rw [List.forall_mem_cons] at hexists
      obtain ⟨⟨e, he⟩, hexists⟩ := hexists
      obtain ⟨now, hnow, hid, hstart, hfinish⟩ := hends name e he
      obtain ⟨count, v, hemit, _⟩ := Task.emit_steady hsteady (Event.ofEdge type now keys) w
      have hkept (other f) (hf : w₀.edge? other = some f) : v.HasEnds other f := by
        have h := Task.emit_kept (kept_hasEnds behaviour other f) (Event.ofEdge type now keys)
          (hends other f hf)
        rw [hemit] at h
        exact h
      obtain ⟨events, w', hannounce, hemits, hevents⟩ := ih hexists hkept
      refine ⟨Event.ofEdge type now keys :: events, w', ?_, .cons hemit hemits, .cons ?_ hevents⟩
      · rw [Task.announce, Task.bind_of_ok (Task.edge_of_some hnow), Task.bind_of_ok hemit]
        exact hannounce
      · refine ⟨e, he, rfl, hid, rfl, ?_, ?_⟩
        · exact congrArg Endpoint.id hstart
        · exact congrArg Endpoint.id hfinish

/-! ## The events of a call -/

theorem reports_of_prepared {c : Command} {items : List (String × List String)}
    (hprepared : Command.Prepared c w v items)
    (hreceived : c.type = .updated → w'.received = v.received)
    (hevents : List.Forall₂ (fun item event => ∃ e, v.edge? item.1 = some e ∧
      event.Of c.type e item.2) items events) : Reports c w w' events := by
  cases hprepared with
  | @created row htype hanswer hnames hconfirmed =>
      rw [← hnames, List.map_map, List.forall₂_map_left_iff] at hevents
      refine .created htype hanswer hnames ?_
      refine (List.forall₂_and_left _ _ |>.mpr ⟨hconfirmed, hevents⟩).imp ?_
      rintro p event ⟨⟨record, e, e', hrecord, he, he', hid, hadvances, _⟩, f, hf, hof⟩
      obtain rfl := Option.some.inj (he'.symm.trans hf)
      rw [htype] at hof
      refine ⟨record, hrecord, ?_⟩
      rw [← hid]
      exact hof.tells he hadvances.toContinues
  | @idle edges htype hnames hfound hclean hedges hsame =>
      cases hevents
      refine .updated htype hnames hfound ?_ (.inl ⟨rfl, (hreceived htype).trans hsame⟩)
      rw [hclean]
      exact .nil
  | @updated edges dirty s htype hnames hfound hdirty hedges hsent _ hkeys =>
      rw [Writer.announcements, List.forall₂_map_left_iff] at hevents
      have hcommitted := Command.committed_of_written hfound hdirty hedges
      -- committing clears the keys that the events tell of, so these are read off the edges as they were
      have htold : List.Forall₂ (fun p event => event.Tells w p.1 .updated p.2.id
          p.2.ledger.changedKeys) dirty events := by
        refine (List.forall₂_and_left _ _ |>.mpr ⟨hcommitted, hevents⟩).imp ?_
        rintro p event ⟨⟨he, he'⟩, f, hf, hof⟩
        obtain rfl := Option.some.inj (he'.symm.trans hf)
        rw [htype] at hof
        exact hof.tells he p.2.advances_commit.toContinues
      refine .updated htype hnames hfound (hdirty ▸ htold) (.inr ⟨s, ?_, ?_⟩)
      · rw [hreceived htype, hsent]
      · have hsame : dirty.map (fun p => (p.2.id, p.2.ledger.changedKeys)) =
            events.map fun event => (event.id, event.keys) := by
          rw [← List.forall₂_eq_eq_eq, List.forall₂_map_left_iff, List.forall₂_map_right_iff]
          exact htold.imp fun p event htells => by rw [htells.id, htells.keys]
        rw [← hsame]
        exact hkeys
  | deleted htype hknown hedges =>
      rw [List.forall₂_map_left_iff] at hevents
      refine .deleted htype (hevents.imp ?_)
      rintro name event ⟨e, he, hof⟩
      rw [Workspace.edge?, hedges] at he
      rw [htype] at hof
      exact ⟨e, he, hof.tells he (.refl e)⟩

/-! ## Hearing everything -/

theorem kept_everything {l : ListenerId} (hkeeps : behaviour.Keeps l) :
    Workspace.Kept behaviour fun w => l ∈ w.subscriptions.listeners .everything := by
  refine ⟨fun _ _ _ h => h, fun _ _ h => h, ?_⟩
  intro u m event a ha v v' hv hperform
  obtain ⟨hunsubscribe, hclear⟩ := hkeeps u m event
  rw [replays_subscriptions.perform v v' a hperform, mem_listeners_act]
  refine .inr ⟨⟨?_, ?_⟩, hv⟩
  · rintro rfl
    exact hunsubscribe ha
  · rintro rfl
    exact hclear ha

theorem filter_calls {l : ListenerId} {ls : List ListenerId} (hnodup : ls.Nodup) (hl : l ∈ ls)
    (event : Event) : (ls.map fun m => (m, event)).filter (·.1 = l) = [(l, event)] := by
  have hone : ls.filter (· = l) = [l] := by
    rw [List.filter_eq, List.count_eq_one_of_mem hnodup hl]
    rfl
  rw [List.filter_map]
  simp only [Function.comp_def, hone, List.map_cons, List.map_nil]

theorem Emits.heard_by (h : Emits behaviour w events w') {l : ListenerId}
    (hkeeps : behaviour.Keeps l) (hl : l ∈ w.subscriptions.listeners .everything) :
    ∃ calls, w'.heard = w.heard ++ calls ∧
      calls.filter (·.1 = l) = events.map fun event => (l, event) := by
  induction h with
  | nil w => exact ⟨[], by simp, rfl⟩
  | @cons w v w' event events count hemit _ ih =>
      have hkept := Task.emit_kept (kept_everything hkeeps) event hl
      rw [hemit] at hkept
      obtain ⟨calls, hcalls, hfilter⟩ := ih hkept
      have hcalled : l ∈ w.subscriptions.audience event := mem_audience.mpr ⟨.everything, trivial, hl⟩
      have hnodup : (w.subscriptions.audience event).Nodup := nodup_firstOccurrences _
      let called := (w.subscriptions.audience event).map fun m => (m, event)
      refine ⟨called ++ calls, ?_, ?_⟩
      · calc w'.heard = v.heard ++ calls := hcalls
          _ = w.heard ++ (called ++ calls) := by
              rw [Task.emit_heard hemit, List.append_assoc]
      · calc (called ++ calls).filter (·.1 = l)
            = called.filter (·.1 = l) ++ calls.filter (·.1 = l) := List.filter_append ..
          _ = [(l, event)] ++ events.map (fun event => (l, event)) := by
              rw [filter_calls hnodup hcalled, hfilter]

end

/-- A call with listeners that do not cancel either fails before any listener could have had a part in
it, or prepares without them, and then emits the events that report what it did and no others. So a
listener to everything hears just these. -/
theorem calls_report_what_took_effect {behaviour : Behaviour} (hsteady : behaviour.Steady)
    (c : Command) {w w' : Workspace} {result : Except Failure Unit}
    (h : c.run behaviour w = (result, w')) :
    (∀ failure, result = .error failure →
      (∀ other, c.run other w = (.error failure, w')) ∧ w'.heard = w.heard ∧
        w'.subscriptions = w.subscriptions) ∧
    (result = .ok () → ∃ v items events,
      ((∀ other, c.run other w = Task.announce other c.type items v) ∧ v.heard = w.heard ∧
        v.subscriptions = w.subscriptions) ∧
      Emits behaviour v events w' ∧ Reports c w w' events ∧
      ∀ l, behaviour.Keeps l → l ∈ w.subscriptions.listeners .everything →
        ∃ calls, w'.heard = w.heard ++ calls ∧
          calls.filter (·.1 = l) = events.map fun event => (l, event)) := by
  have hsilent := c.silent_prepare w
  rcases Command.run_cases h with ⟨failure, rfl, hprepare⟩ | ⟨items, v, hprepare, hannounce⟩
  · rw [hprepare] at hsilent
    obtain ⟨hheard, hsubscriptions⟩ := Prod.mk.inj hsilent
    refine ⟨fun _ hfailure => ⟨fun other => ?_, hheard, hsubscriptions⟩, nofun⟩
    rw [Command.run_eq, Task.bind_apply, hprepare, Except.error.inj hfailure]
  · rw [hprepare] at hsilent
    obtain ⟨hheard, hsubscriptions⟩ := Prod.mk.inj hsilent
    have hprepared := (Command.prepare_outcome hprepare).prepared items rfl
    obtain ⟨events, u, hrun, hemits, hevents⟩ := announce_emits hsteady c.type
      hprepared.known fun _ e he => ⟨e, he, rfl, rfl, rfl⟩
    obtain ⟨rfl, rfl⟩ := Prod.mk.inj (hannounce.symm.trans hrun)
    refine ⟨nofun, fun _ => ⟨v, items, events, ⟨fun other => ?_, hheard, hsubscriptions⟩, hemits,
      ?_, ?_⟩⟩
    · rw [Command.run_eq, Task.bind_of_ok hprepare]
    · refine reports_of_prepared hprepared (fun htype => ?_) hevents
      rw [htype] at hannounce
      have hreceived := received_announce behaviour .updated items v
      rw [hannounce] at hreceived
      exact hreceived
    · intro l hkeeps hl
      rw [← hheard]
      exact hemits.heard_by hkeeps (hsubscriptions ▸ hl)

/-- While two of three edges are updated, a listener edits the second of them at every event. -/
theorem calls_report_what_took_effect_while_edited :
    ∃ (behaviour : Behaviour) (w v w' : Workspace) (event : Int → Event), behaviour.Steady ∧
      (Command.updateMany ["first", "clean", "second"]).run behaviour w = (.ok (), w') ∧
      Emits behaviour v [event 7, event 8] w' ∧
      Reports (.updateMany ["first", "clean", "second"]) w w' [event 7, event 8] ∧
      (∀ id, (event id).id = some id ∧ (event id).keys = ["since"]) ∧
      (w'.edge? "second").map (·.ledger.changedKeys) = some ["name"] := by
  let behaviour : Behaviour := fun _ _ _ => ⟨[.write "second" "name" (.text "b")], .returned⟩
  let clean : Edge :=
    { id := some 9, start := ⟨1, none⟩, finish := ⟨2, none⟩, label := "KNOWS", created := ⟨0⟩,
      updated := ⟨0⟩ }
  let first : Edge := { clean with id := some 7, ledger := clean.ledger.set "since" (.int 1) }
  let answer : Row := .ofList [("rel1", .record 82 [.int 7, .int 1, .int 2, .text "KNOWS", .map []]),
    ("rel2", .record 82 [.int 8, .int 1, .int 2, .text "KNOWS", .map []])]
  let w : Workspace :=
    { edges := .ofList [("first", first), ("clean", clean), ("second", { first with id := some 8 })],
      subscriptions := Subscriptions.subscribe {} ⟨0⟩ .everything,
      connection := { upcoming := [.rows [answer]] } }
  let event (id : Int) : Event :=
    { type := .updated, id := some id, start := 1, finish := 2, label := "KNOWS", keys := ["since"] }
  let w' : Workspace := ((Command.updateMany ["first", "clean", "second"]).run behaviour w).2
  have hcall : (Command.updateMany ["first", "clean", "second"]).run behaviour w = (.ok (), w') :=
    Prod.ext (by decide +kernel) rfl
  have hsteady : behaviour.Steady := fun _ _ _ => nofun
  have hkeeps : behaviour.Keeps ⟨0⟩ := fun _ _ _ => ⟨by simp [behaviour], by simp [behaviour]⟩
  obtain ⟨v, items, events, _, hemits, hreports, hhears⟩ :=
    (calls_report_what_took_effect hsteady _ hcall).2 rfl
  obtain ⟨calls, hcalls, hfilter⟩ := hhears ⟨0⟩ hkeeps (List.mem_singleton_self _)
  have hheard : w'.heard = [(⟨0⟩, event 7), (⟨0⟩, event 8)] := by decide +kernel
  obtain rfl : calls = [(⟨0⟩, event 7), (⟨0⟩, event 8)] := hcalls.symm.trans hheard
  obtain rfl : events = [event 7, event 8] := by
    have hpaired : [event 7, event 8].map (fun event => ((⟨0⟩ : ListenerId), event)) =
        events.map fun event => (⟨0⟩, event) := hfilter
    exact (List.map_injective_iff.mpr (fun _ _ h => (Prod.mk.inj h).2) hpaired).symm
  have hedited : (w'.edge? "second").map (·.ledger.changedKeys) = some ["name"] := by decide +kernel
  exact ⟨behaviour, w, v, w', event, hsteady, hcall, hemits, hreports, fun _ => ⟨rfl, rfl⟩, hedited⟩

end EdgeMapper
