import EdgeMapper.Proofs.Identity
import EdgeMapper.Proofs.LastWrites
import EdgeMapper.Proofs.Listening
import Mathlib.Data.List.Induction
/-!
# Edits of listeners

All edges that a call writes are committed before the first listener is called. So whatever listeners
write to an edge while the call announces its events is recorded on top of an empty overlay: it is
pending when the call has ended, together with nothing else, and the next update carries it.
-/

namespace EdgeMapper

open Cypher (Statement)

def Action.Edits (name : String) : Action → Prop
  | write edge _ _ => edge = name
  | relabel edge _ => edge = name
  | _ => False

def Action.written? (name key : String) : Action → Option Value
  | write edge k value => if edge = name ∧ k = key then some value else none
  | _ => none

def Action.label? (name : String) : Action → Option String
  | relabel edge label => if edge = name then some label else none
  | _ => none

def PropertyLedger.play (name : String) (l : PropertyLedger) : Action → PropertyLedger
  | .write edge key value => if edge = name then l.write key value else l
  | .relabel edge _ => if edge = name then l.markModified else l
  | _ => l

def lastWritten (name key : String) (edits : List Action) : Option Value :=
  (edits.filterMap (·.written? name key)).getLast?

def lastLabel (name : String) (edits : List Action) : Option String :=
  (edits.filterMap (·.label? name)).getLast?

/-- The ledger has these properties with these edits on top, and it owes the server just these. -/
structure PropertyLedger.Records (l : PropertyLedger) (properties : OrderedMap String Value)
    (name : String) (edits : List Action) : Prop where
  played : l = edits.foldl (PropertyLedger.play name) (.ofProperties properties)
  changed : ∀ key, key ∈ l.changedKeys ↔ ∃ value, .write name key value ∈ edits
  current : ∀ key, l.current.get? key =
    (lastWritten name key edits).elim (properties.get? key) shown
  modified : l.modified = true ↔ ∃ a ∈ edits, a.Edits name

/-- The call is to write this edge. -/
structure Command.Writes (c : Command) (w : Workspace) (name : String) (e : Edge) : Prop where
  type : c.type ≠ .deleted
  named : name ∈ c.names
  found : w.edge? name = some e
  dirty : c.type = .updated → e.isDirty = true

section

variable {name key : String} {l : PropertyLedger}

/-! ## Playing edits -/

theorem replays_edge {σ : Type} {part : Edge → σ} (effect : σ → Action → σ) (name : String)
    (hwrite : ∀ e now key value,
      part (e.write now key value) = effect (part e) (.write name key value))
    (hrelabel : ∀ e now label, part (e.relabel now label) = effect (part e) (.relabel name label))
    (hother : ∀ s a, ¬ a.Edits name → effect s a = s) :
    Replays (fun w => (w.edge? name).map part) fun o a => o.map (effect · a) := by
  refine ⟨fun _ _ _ => rfl, fun _ _ => rfl, ?_⟩
  intro w w' a h
  have hunedited (v : Workspace) (hv : v.edge? name = w.edge? name) (ha : ¬ a.Edits name) :
      (v.edge? name).map part = ((w.edge? name).map part).map (effect · a) := by
    rw [hv]
    cases w.edge? name with
    | none => rfl
    | some e => exact congrArg some (hother (part e) a ha).symm
  cases a with
  | subscribe l topic => obtain rfl := Option.some.inj h; exact hunedited _ rfl nofun
  | unsubscribe l => obtain rfl := Option.some.inj h; exact hunedited _ rfl nofun
  | clear => obtain rfl := Option.some.inj h; exact hunedited _ rfl nofun
  | write edge key value =>
      obtain ⟨e, he, rfl⟩ := Option.map_eq_some_iff.mp h
      by_cases hname : edge = name
      · subst hname
        simp only [Workspace.edge?_putEdge, if_true, he, Option.map_some, hwrite]
      · refine hunedited _ ?_ hname
        rw [Workspace.edge?_putEdge, if_neg (Ne.symm hname)]
        rfl
  | relabel edge label =>
      obtain ⟨e, he, rfl⟩ := Option.map_eq_some_iff.mp h
      by_cases hname : edge = name
      · subst hname
        simp only [Workspace.edge?_putEdge, if_true, he, Option.map_some, hrelabel]
      · refine hunedited _ ?_ hname
        rw [Workspace.edge?_putEdge, if_neg (Ne.symm hname)]
        rfl

theorem play_of_not_edits {a : Action} (h : ¬ a.Edits name) : l.play name a = l := by
  cases a with
  | write edge key value => exact if_neg h
  | relabel edge label => exact if_neg h
  | _ => rfl

theorem replays_ledger (name : String) :
    Replays (fun w => (w.edge? name).map (·.ledger)) fun o a =>
      o.map (PropertyLedger.play name · a) := by
  refine replays_edge (PropertyLedger.play name) name (fun e now key value => ?_)
    (fun e now label => ?_) fun _ _ => play_of_not_edits
  · exact (if_pos rfl).symm
  · exact (if_pos rfl).symm

theorem replays_label (name : String) :
    Replays (fun w => (w.edge? name).map (·.label)) fun o a =>
      o.map fun label => (a.label? name).getD label := by
  refine replays_edge (fun label a => (a.label? name).getD label) name
    (fun e now key value => rfl) (fun e now label => ?_) fun label a ha => ?_
  · simp [Action.label?, Edge.relabel]
  · cases a with
    | relabel edge label => simp [Action.label?, show edge ≠ name from ha]
    | _ => rfl

theorem foldl_label (edits : List Action) (label : String) :
    edits.foldl (fun label a => (Action.label? name a).getD label) label =
      (lastLabel name edits).getD label := by
  induction edits using List.reverseRecOn with
  | nil => rfl
  | append_singleton edits a ih =>
      rw [List.foldl_append, ih, lastLabel, lastLabel, getLast?_filterMap_append]
      cases ha : a.label? name with
      | none => simp [ha]
      | some last => simp [ha]

theorem modified_play (a : Action) :
    (l.play name a).modified = true ↔ a.Edits name ∨ l.modified = true := by
  cases a with
  | write edge key value =>
      rw [PropertyLedger.play, Action.Edits]
      by_cases hname : edge = name
      · rw [if_pos hname]
        simp [hname, PropertyLedger.modified_write]
      · simp [hname]
  | relabel edge label =>
      rw [PropertyLedger.play, Action.Edits]
      by_cases hname : edge = name
      · simp [hname, PropertyLedger.markModified]
      · simp [hname]
  | _ => simp [PropertyLedger.play, Action.Edits]

theorem mem_changedKeys_play (a : Action) :
    key ∈ (l.play name a).changedKeys ↔
      (∃ value, a = .write name key value) ∨ key ∈ l.changedKeys := by
  cases a with
  | write edge k value =>
      rw [PropertyLedger.play]
      by_cases hname : edge = name
      · rw [if_pos hname, PropertyLedger.mem_changedKeys_write]
        simp [hname, eq_comm]
      · simp [hname]
  | relabel edge label =>
      rw [PropertyLedger.play]
      split <;> simp [PropertyLedger.markModified, PropertyLedger.changedKeys]
  | _ => simp [PropertyLedger.play]

theorem get?_current_play (a : Action) :
    (l.play name a).current.get? key = (a.written? name key).elim (l.current.get? key) shown := by
  cases a with
  | write edge k value =>
      rw [PropertyLedger.play, Action.written?]
      by_cases hname : edge = name
      · rw [if_pos hname, PropertyLedger.get?_current_write]
        by_cases hkey : k = key
        · rw [if_pos hkey.symm, if_pos ⟨hname, hkey⟩]
          rfl
        · rw [if_neg (Ne.symm hkey), if_neg fun h => hkey h.2]
          rfl
      · rw [if_neg hname, if_neg fun h => hname h.1]
        rfl
  | relabel edge label =>
      rw [PropertyLedger.play]
      split <;> rfl
  | _ => rfl

theorem foldl_play_append (edits : List Action) (a : Action) (l : PropertyLedger) :
    (edits ++ [a]).foldl (PropertyLedger.play name) l =
      (edits.foldl (PropertyLedger.play name) l).play name a := by
  rw [List.foldl_append, List.foldl_cons, List.foldl_nil]

theorem records_played (properties : OrderedMap String Value) (name : String) (edits : List Action) :
    (edits.foldl (PropertyLedger.play name) (.ofProperties properties)).Records properties name
      edits := by
  induction edits using List.reverseRecOn with
  | nil =>
      refine ⟨rfl, fun key => ?_, fun key => rfl, ?_⟩
      · simp [PropertyLedger.ofProperties, PropertyLedger.changedKeys]
      · simp [PropertyLedger.ofProperties]
  | append_singleton edits a ih =>
      rw [foldl_play_append]
      refine ⟨(foldl_play_append edits a _).symm, fun key => ?_, fun key => ?_, ?_⟩
      · rw [mem_changedKeys_play, ih.changed]
        simp only [List.mem_append, List.mem_singleton, exists_or, or_comm, eq_comm]
      · rw [get?_current_play, ih.current, lastWritten, lastWritten, getLast?_filterMap_append]
        cases a.written? name key <;> rfl
      · rw [modified_play, ih.modified]
        simp [or_comm, or_and_right, exists_or]

end

section

variable {c : Command} {w v w' : Workspace} {name : String} {e : Edge}
  {items : List (String × List String)} {behaviour : Behaviour} {result : Except Failure Unit}

/-! ## Calls -/

theorem committed_of_prepared (h : Command.Prepared c w v items) (hwrites : c.Writes w name e) :
    ∃ e', v.edge? name = some e' ∧ e'.ledger = .ofProperties e.ledger.current ∧
      e'.label = e.label ∧ e'.id ≠ none := by
  cases h with
  | created htype _ hnames hconfirmed =>
      have hname := hwrites.named
      rw [← hnames] at hname
      obtain ⟨p, hp, rfl⟩ := List.mem_map.mp hname
      obtain ⟨record, f, e', _, hf, he', hid, hadvances, hledger⟩ := hconfirmed p hp
      obtain rfl := Option.some.inj (hwrites.found.symm.trans hf)
      exact ⟨e', he', hledger, hadvances.label, by rw [hid]; nofun⟩
  | idle htype hnames hfound hclean =>
      have hmem := (mem_dirty_iff hfound hwrites.found).mpr
        ⟨hnames ▸ hwrites.named, hwrites.dirty htype⟩
      rw [hclean] at hmem
      cases hmem
  | updated htype hnames hfound hdirty hedges _ _ hkeys =>
      have hmem := (mem_dirty_iff hfound hwrites.found).mpr
        ⟨hnames ▸ hwrites.named, hwrites.dirty htype⟩
      rw [hdirty] at hmem
      have hcommitted := Command.committed_of_written hfound hdirty hedges (name, e) hmem
      exact ⟨e.commit, hcommitted.2, rfl, rfl, hkeys.id_ne_none _ (List.mem_map_of_mem hmem)⟩
  | deleted htype => exact absurd htype hwrites.type

/-- An update that is accepted carries the overlay of every dirty edge that it names. -/
theorem accepted_update_carries (htype : c.type = .updated) (hname : name ∈ c.names)
    (h : c.run behaviour w = (result, w')) (haccepted : accepted result = true)
    (he : w.edge? name = some e) (hdirty : e.isDirty = true) :
    ∃ s edges, w'.received = w.received ++ [s] ∧ e ∈ edges ∧ Carried edges s := by
  obtain ⟨items, v, _, hprepared, hannounce⟩ := Command.prepared_of_accepted h haccepted
  have hreceived := received_announce behaviour .updated items v
  rw [← htype, hannounce] at hreceived
  cases hprepared with
  | created hcreated => rw [htype] at hcreated; cases hcreated
  | idle _ hnames hfound hclean =>
      have hmem := (mem_dirty_iff hfound he).mpr ⟨hnames ▸ hname, hdirty⟩
      rw [hclean] at hmem
      cases hmem
  | @updated edges dirty s _ hnames hfound hwritten _ hsent hcarried =>
      have hmem := (mem_dirty_iff hfound he).mpr ⟨hnames ▸ hname, hdirty⟩
      rw [hwritten] at hmem
      exact ⟨s, dirty.map Prod.snd, hreceived.trans hsent, List.mem_map_of_mem hmem, hcarried⟩
  | deleted hdeleted => rw [htype] at hdeleted; cases hdeleted

theorem records_announced (type : EventType) (items : List (String × List String))
    {properties : OrderedMap String Value} (he : v.edge? name = some e)
    (hledger : e.ledger = .ofProperties properties)
    (h : Task.announce behaviour type items v = (result, w')) :
    ∃ e', w'.edge? name = some e' ∧ e'.id = e.id ∧
      e'.ledger.Records properties name (Task.deeds behaviour type items v) ∧
      e'.label = (lastLabel name (Task.deeds behaviour type items v)).getD e.label := by
  have hends := Task.announce_kept (kept_hasEnds behaviour name e) type items ⟨e, he, rfl, rfl, rfl⟩
  have hledgers := (replays_ledger name).announce behaviour type items v
  have hlabels := (replays_label name).announce behaviour type items v
  rw [h] at hends hledgers hlabels
  obtain ⟨e', he', hid, _⟩ := hends
  simp only [he, he', Option.map_some] at hledgers hlabels
  -- the edge exists all the time, so the options can be left out
  rw [List.foldl_hom some (fun _ _ => rfl)] at hledgers hlabels
  refine ⟨e', he', hid, ?_, ?_⟩
  · rw [Option.some.inj hledgers, hledger]
    exact records_played properties name _
  · rw [Option.some.inj hlabels, foldl_label]

end

/-- When a call that creates or updates edges was accepted, each edge that it wrote owes the server
what listeners have written to it meanwhile, in the order in which they did, and nothing else. The next
update carries it. -/
theorem listener_edits_are_kept {behaviour : Behaviour} {c : Command} {w w' : Workspace}
    {result : Except Failure Unit} (h : c.run behaviour w = (result, w'))
    (haccepted : accepted result = true) :
    ∃ v items, (∀ other, c.run other w = Task.announce other c.type items v) ∧
      ∀ name e, c.Writes w name e → ∃ e', w'.edge? name = some e' ∧
        e'.ledger.Records e.ledger.current name (Task.deeds behaviour c.type items v) ∧
        e'.label = (lastLabel name (Task.deeds behaviour c.type items v)).getD e.label ∧
        (∀ o : Cypher.Options, o.binding ≠ "" → o.suffix = "" →
          ∃ s, Statement.update e' o = .ok s ∧ Carried [e'] s) ∧
        ∀ (next : Command) other answer w'', next.type = .updated → name ∈ next.names →
          next.run other w' = (answer, w'') → accepted answer = true → e'.isDirty = true →
          ∃ s edges, w''.received = w'.received ++ [s] ∧ e' ∈ edges ∧ Carried edges s := by
  obtain ⟨items, v, hprepare, hprepared, hannounce⟩ := Command.prepared_of_accepted h haccepted
  refine ⟨v, items, fun other => ?_, fun name e hwrites => ?_⟩
  · rw [Command.run_eq, Task.bind_of_ok hprepare]
  · obtain ⟨now, hnow, hledger, hlabel, hid⟩ := committed_of_prepared hprepared hwrites
    obtain ⟨e', he', hsame, hrecords, hlast⟩ := records_announced c.type items hnow hledger hannounce
    refine ⟨e', he', hrecords, hlabel ▸ hlast, fun o hbinding hsuffix => ?_, ?_⟩
    · obtain ⟨s, hs⟩ := (Cypher.exists_update_iff hbinding).mpr (hsame ▸ hid)
      exact ⟨s, hs, carried_update hsuffix hs⟩
    · intro next other answer w'' htype hname hnext hanswer hdirty
      exact accepted_update_carries htype hname hnext hanswer he' hdirty

/-- While two edges are created, a listener edits the second one before its event comes, and cancels
when it does come. -/
theorem listener_edits_are_kept_when_cancelled :
    ∃ (behaviour : Behaviour) (w v w' : Workspace) (items : List (String × List String)) (e e' : Edge),
      (Command.createMany ["first", "second"]).run behaviour w = (.error .cancelled, w') ∧
      w.edge? "second" = some e ∧ w'.edge? "second" = some e' ∧
      e'.ledger.Records e.ledger.current "second" (Task.deeds behaviour .created items v) ∧
      e'.ledger.changedKeys = ["name", "since"] ∧ e'.label = "LIKES" := by
  let behaviour : Behaviour := fun _ _ event =>
    if event.id = some 7 then
      ⟨[.write "second" "name" (.text "b"), .write "second" "since" .null, .relabel "second" "LIKES"],
        .returned⟩
    else ⟨[], .cancelled⟩
  let e : Edge :=
    { start := ⟨1, none⟩, finish := ⟨2, none⟩, label := "KNOWS",
      ledger := PropertyLedger.set {} "since" (.int 1), created := ⟨0⟩, updated := ⟨0⟩ }
  let answer : Row := .ofList [("rel1", .record 82 [.int 7, .int 1, .int 2, .text "KNOWS", .map []]),
    ("rel2", .record 82 [.int 8, .int 1, .int 2, .text "KNOWS", .map []])]
  let w : Workspace :=
    { edges := .ofList [("first", e), ("second", e)],
      subscriptions := Subscriptions.subscribe {} ⟨0⟩ .everything,
      connection := { upcoming := [.rows [answer]] } }
  have hcancelled : ((Command.createMany ["first", "second"]).run behaviour w).1 =
      .error .cancelled := by
    decide +kernel
  have hnow : (((Command.createMany ["first", "second"]).run behaviour w).2.edge? "second").map
      (fun e => (e.ledger.changedKeys, e.label)) = some (["name", "since"], "LIKES") := by
    decide +kernel
  have hwrites : (Command.createMany ["first", "second"]).Writes w "second" e :=
    ⟨nofun, by simp [Command.names], rfl, nofun⟩
  cases hcall : (Command.createMany ["first", "second"]).run behaviour w with
  | mk result w' =>
      rw [hcall] at hcancelled hnow
      obtain rfl : result = .error .cancelled := hcancelled
      obtain ⟨v, items, _, hkept⟩ := listener_edits_are_kept hcall rfl
      obtain ⟨e', he', hrecords, _⟩ := hkept "second" e hwrites
      simp only [he', Option.map_some] at hnow
      obtain ⟨hkeys, hlabel⟩ := Prod.mk.inj (Option.some.inj hnow)
      exact ⟨behaviour, w, v, w', items, e, e', hcall, rfl, he', hrecords, hkeys, hlabel⟩

end EdgeMapper
