import EdgeMapper.Proofs.Cypher.ReadBack
import EdgeMapper.Proofs.Overlay
/-!
# The effect of an update statement

What becomes of the properties that a server holds when it applies a statement. Every place that is set
gets the value that is bound to its key and suffix, and every place that is removed is deleted. A
statement carries the overlays of its edges, so applying it brings the server into agreement with them;
and it touches no other relationship.
-/

namespace EdgeMapper

open Cypher

abbrev Remote := Int → Held

/-- A property that is stored, or deleted when there is no value. -/
structure RemoteWrite where
  id : Int
  key : String
  value : Option Value

def Remote.put (remote : Remote) (w : RemoteWrite) : Remote := fun id key =>
  if id = w.id ∧ key = w.key then w.value else remote id key

namespace Cypher

def Name.suffix : Name → String
  | .word text => String.ofList (text.toList.drop 3)
  | .quoted _ => ""

def edgeId? (cs : List Clause) (v : Name) : Option Int :=
  ((matched cs).find? fun m => m.1 = v).map Prod.snd

def writes (parameters : OrderedMap String Value) (cs : List Clause) : List RemoteWrite :=
  (assigned cs).filterMap (fun a => (edgeId? cs a.place.owner).map fun id =>
      { id := id, key := a.place.key,
        value := parameters.get? (a.place.key ++ a.place.owner.suffix) })
    ++ (removed cs).filterMap fun p => (edgeId? cs p.owner).map fun id =>
      { id := id, key := p.key, value := none }

end Cypher

/-- A server that cannot read a statement does nothing. -/
def Remote.apply (remote : Remote) (s : Statement) : Remote :=
  match read s.text with
  | some cs => (writes s.parameters cs).foldl Remote.put remote
  | none => remote

theorem foldl_put_eq {remote : Remote} {ws : List RemoteWrite} {id : Int} {key : String}
    {value : Option Value}
    (h : ∀ w ∈ ws, w.id = id → w.key = key → w.value = value)
    (hsome : remote id key = value ∨ ∃ w ∈ ws, w.id = id ∧ w.key = key) :
    ws.foldl Remote.put remote id key = value := by
  induction ws generalizing remote with
  | nil => simpa using hsome
  | cons w ws ih =>
      rw [List.foldl_cons]
      apply ih (fun v hv => h v (by simp [hv]))
      by_cases hw : id = w.id ∧ key = w.key
      · left
        rw [Remote.put, if_pos hw]
        exact h w (by simp) hw.1.symm hw.2.symm
      · rw [Remote.put, if_neg hw]
        rcases hsome with hvalue | ⟨v, hv, hid, hkey⟩
        · exact .inl hvalue
        · rcases List.mem_cons.mp hv with rfl | hv
          · exact absurd ⟨hid.symm, hkey.symm⟩ hw
          · exact .inr ⟨v, hv, hid, hkey⟩

def Writes (s : Statement) (ws : List RemoteWrite) : Prop :=
  ∃ cs, read s.text = some cs ∧ writes s.parameters cs = ws

theorem Writes.apply_eq {s : Statement} {ws : List RemoteWrite} (h : Writes s ws) (remote : Remote) :
    remote.apply s = ws.foldl Remote.put remote := by
  obtain ⟨cs, hread, rfl⟩ := h
  rw [Remote.apply, hread]

def settings (load : Int × PropertyLedger) : List RemoteWrite :=
  load.2.pending.keys.map fun key => ⟨load.1, key, load.2.pending.get? key⟩

def deletions (load : Int × PropertyLedger) : List RemoteWrite :=
  load.2.removed.map fun key => ⟨load.1, key, none⟩

/-- The statement writes the overlays of these relationships and nothing else. -/
def Carries (s : Statement) (loads : List (Int × PropertyLedger)) : Prop :=
  ∃ cs, read s.text = some cs ∧ ∀ w, w ∈ writes s.parameters cs ↔
    ∃ load ∈ loads, w.id = load.1 ∧
      (w.key ∈ load.2.pending.keys ∧ w.value = load.2.pending.get? w.key ∨
        w.key ∈ load.2.removed ∧ w.value = none)

theorem carries_of_writes {s : Statement} {loads : List (Int × PropertyLedger)}
    (h : Writes s (loads.flatMap settings ++ loads.flatMap deletions)) : Carries s loads := by
  obtain ⟨cs, hread, hwrites⟩ := h
  refine ⟨cs, hread, fun w => ?_⟩
  rw [hwrites, List.mem_append, List.mem_flatMap, List.mem_flatMap, ← exists_or]
  refine exists_congr fun load => ?_
  rw [← and_or_left]
  refine and_congr_right fun _ => ?_
  simp only [settings, deletions, List.mem_map]
  constructor
  · rintro (⟨key, hkey, rfl⟩ | ⟨key, hkey, rfl⟩)
    · exact ⟨rfl, .inl ⟨hkey, rfl⟩⟩
    · exact ⟨rfl, .inr ⟨hkey, rfl⟩⟩
  · rintro ⟨hid, ⟨hkey, hvalue⟩ | ⟨hkey, hvalue⟩⟩
    · exact .inl ⟨w.key, hkey, by rw [← hid, ← hvalue]⟩
    · exact .inr ⟨w.key, hkey, by rw [← hid, ← hvalue]⟩

section

variable {s : Statement} {loads : List (Int × PropertyLedger)} {remote : Remote} {id : Int}

theorem Carries.agrees (h : Carries s loads) {l : PropertyLedger} (hmem : (id, l) ∈ loads)
    (honly : ∀ load ∈ loads, load.1 = id → load.2 = l) (hsynced : l.Synced (remote id)) :
    l.Agrees (remote.apply s id) := by
  obtain ⟨cs, hread, hwrites⟩ := h
  have hcoherent := hsynced.coherent
  -- every write to this relationship comes from its own overlay
  have hown (w) (hw : w ∈ writes s.parameters cs) (hid : w.id = id) :
      w.key ∈ l.pending.keys ∧ w.value = l.pending.get? w.key ∨ w.key ∈ l.removed ∧ w.value = none := by
    obtain ⟨load, hload, heq, hvalue⟩ := (hwrites w).mp hw
    rw [honly load hload (heq.symm.trans hid)] at hvalue
    exact hvalue
  intro key
  rw [PropertyLedger.AgreesAt, Remote.apply, hread]
  by_cases hpending : key ∈ l.pending.keys
  · rw [hcoherent.read_of_mem_pending hpending]
    congr 1
    refine (foldl_put_eq ?_ (.inr ⟨⟨id, key, l.pending.get? key⟩, ?_, rfl, rfl⟩)).symm
    · rintro w hw hid rfl
      rcases hown w hw hid with hvalue | hvalue
      · exact hvalue.2
      · exact absurd hpending (hcoherent.disjoint _ hvalue.1)
    · exact (hwrites _).mpr ⟨(id, l), hmem, rfl, .inl ⟨hpending, rfl⟩⟩
  · by_cases hremoved : key ∈ l.removed
    · have hnone : (writes s.parameters cs).foldl Remote.put remote id key = none := by
        refine foldl_put_eq ?_ (.inr ⟨⟨id, key, none⟩, ?_, rfl, rfl⟩)
        · rintro w hw hid rfl
          rcases hown w hw hid with hvalue | hvalue
          · exact absurd hvalue.1 hpending
          · exact hvalue.2
        · exact (hwrites _).mpr ⟨(id, l), hmem, rfl, .inr ⟨hremoved, rfl⟩⟩
      rw [hcoherent.read_of_mem_removed hremoved]
      simp only [hnone]
      rfl
    · have hsame : (writes s.parameters cs).foldl Remote.put remote id key = remote id key := by
        refine foldl_put_eq ?_ (.inl rfl)
        rintro w hw hid rfl
        rcases hown w hw hid with hvalue | hvalue
        · exact absurd hvalue.1 hpending
        · exact absurd hvalue.1 hremoved
      simp only [hsame]
      exact hsynced.outside key hpending hremoved

theorem Carries.apply_of_ne (h : Carries s loads) (hne : ∀ load ∈ loads, load.1 ≠ id) :
    remote.apply s id = remote id := by
  obtain ⟨cs, hread, hwrites⟩ := h
  funext key
  rw [Remote.apply, hread]
  refine foldl_put_eq ?_ (.inl rfl)
  intro w hw hid _
  obtain ⟨load, hload, heq, _⟩ := (hwrites w).mp hw
  exact absurd (heq.symm.trans hid) (hne load hload)

end

/-- The statement writes the overlays of these edges, all of which have ids. -/
def Carried (edges : List Edge) (s : Statement) : Prop :=
  ∃ loads, Carries s loads ∧
    loads.map (fun load => (some load.1, load.2)) = edges.map fun e => (e.id, e.ledger)

section

variable {s : Statement} {edges : List Edge} {remote : Remote} {id : Int}

theorem mem_loads {loads : List (Int × PropertyLedger)}
    (h : loads.map (fun load => (some load.1, load.2)) = edges.map fun e => (e.id, e.ledger))
    {l : PropertyLedger} : (id, l) ∈ loads ↔ ∃ e ∈ edges, e.id = some id ∧ e.ledger = l := by
  have hload : (id, l) ∈ loads ↔ (some id, l) ∈ loads.map fun load => (some load.1, load.2) := by
    simp
  rw [hload, h]
  simp

theorem Carried.agrees (h : Carried edges s) {e : Edge} (hmem : e ∈ edges) (hid : e.id = some id)
    (honly : ∀ other ∈ edges, other.id = some id → other = e)
    (hsynced : e.ledger.Synced (remote id)) : e.ledger.Agrees (remote.apply s id) := by
  obtain ⟨loads, hcarries, hloads⟩ := h
  refine hcarries.agrees ((mem_loads hloads).mpr ⟨e, hmem, hid, rfl⟩) ?_ hsynced
  rintro ⟨i, l⟩ hload rfl
  obtain ⟨other, hother, hother_id, rfl⟩ := (mem_loads hloads).mp hload
  rw [honly other hother hother_id]

theorem Carried.apply_of_ne (h : Carried edges s) (hne : ∀ e ∈ edges, e.id ≠ some id) :
    remote.apply s id = remote id := by
  obtain ⟨loads, hcarries, hloads⟩ := h
  apply hcarries.apply_of_ne
  rintro ⟨i, l⟩ hload rfl
  obtain ⟨e, he, hid, _⟩ := (mem_loads hloads).mp hload
  exact hne e he hid

/-- Applying a statement never spoils what an edge agrees on, whether the edge is carried or not. -/
theorem Carried.synced (h : Carried edges s) {e : Edge} (hid : e.id = some id)
    (honly : ∀ other ∈ edges, other.id = some id → other = e)
    (hsynced : e.ledger.Synced (remote id)) : e.ledger.Synced (remote.apply s id) := by
  by_cases hmem : e ∈ edges
  · exact PropertyLedger.synced_of_agrees hsynced.coherent (h.agrees hmem hid honly hsynced)
  · have hne : ∀ other ∈ edges, other.id ≠ some id := by
      intro other hother hother_id
      rw [honly other hother hother_id] at hother
      exact hmem hother
    rw [h.apply_of_ne hne]
    exact hsynced

end

/-! ## Statements for one edge -/

theorem matched_single (e : Edge) (o : Options) (id : Int) :
    matched (updateClauses e o id) = [(.quoted o.binding, id)] := by
  rw [matched, flatMap_updateClauses rfl rfl fun _ => rfl]
  simp [Clause.matchedEdges]

theorem assigned_single (e : Edge) (o : Options) (id : Int) :
    assigned (updateClauses e o id) =
      spokenAssignments (.quoted o.binding) e.ledger.pending.keys o.suffix := by
  rw [assigned, flatMap_updateClauses rfl rfl fun _ => rfl]
  simp [Clause.assigned]

theorem removed_single (e : Edge) (o : Options) (id : Int) :
    removed (updateClauses e o id) = places (.quoted o.binding) e.ledger.removed := by
  rw [removed, flatMap_updateClauses rfl rfl fun _ => rfl]
  simp [Clause.removed]

theorem writes_update {e : Edge} {o : Options} {s : Statement} (ho : o.suffix = "")
    (h : Statement.update e o = .ok s) : ∃ id, e.id = some id ∧
      Writes s (settings (id, e.ledger) ++ deletions (id, e.ledger)) := by
  obtain ⟨id, hid, hspells⟩ := spells_update h
  obtain ⟨_, _, _, hs⟩ := update_eq_ok h
  have hparameters : s.parameters.entries = Statement.suffixed e.ledger.pending "" := by
    rw [hs, ← ho, entries_ofList_suffixed]
  have hvalue {key : String} (hkey : key ∈ e.ledger.pending.keys) :
      s.parameters.get? (key ++ "") = e.ledger.pending.get? key := by
    obtain ⟨value, hentry, hget⟩ := OrderedMap.exists_get?_of_mem_keys hkey
    have hmem : (key ++ "", value) ∈ s.parameters.entries := by
      rw [hparameters]
      exact List.mem_map.mpr ⟨(key, value), hentry, rfl⟩
    rw [OrderedMap.get?_of_mem hmem, hget]
  have hedge : edgeId? (updateClauses e o id) (.quoted o.binding) = some id := by
    rw [edgeId?, matched_single]
    simp
  refine ⟨id, hid, updateClauses e o id, hspells.read_eq, ?_⟩
  rw [writes, assigned_single, removed_single, spokenAssignments, places, List.filterMap_map,
    List.filterMap_map, settings, deletions]
  simp only [Function.comp_def, hedge, Option.map_some, Name.suffix, List.filterMap_eq_map']
  congr 1
  exact List.map_congr_left fun key hkey => by rw [hvalue hkey]

theorem carried_update {e : Edge} {o : Options} {s : Statement} (ho : o.suffix = "")
    (h : Statement.update e o = .ok s) : Carried [e] s := by
  obtain ⟨id, hid, hwrites⟩ := writes_update ho h
  exact ⟨[(id, e.ledger)], carries_of_writes (by simpa using hwrites), by simp [hid]⟩

/-! ## Statements for batches -/

theorem suffix_relName (i : Nat) : (Name.word (Batch.relName i)).suffix = toString i := by
  rw [Name.suffix, Batch.relName, String.toList_append]
  exact String.ofList_toList

theorem writes_batch {edges : List Edge} {withReturn : Bool} {s : Statement}
    (h : Batch.update edges withReturn = .ok s) : ∃ loads : List (Int × PropertyLedger),
      loads.map (fun load => (some load.1, load.2)) = edges.map (fun e => (e.id, e.ledger)) ∧
        Writes s (loads.flatMap settings ++ loads.flatMap deletions) := by
  obtain ⟨hne, found, hitems, hids, hparameters, htemplate⟩ := Batch.update_eq_ok h
  have hfound : found ≠ [] := by
    rintro rfl
    exact hne (Batch.numbered_eq_nil hitems.symm)
  have hspells : s.Spells (Batch.updateClauses found withReturn) :=
    Batch.spells_update hfound htemplate
  have hpositions : (found.map Batch.Target.position).Nodup := by
    have hnodup := Batch.nodup_positions edges
    rw [← hitems, List.map_map] at hnodup
    exact hnodup
  have hvalue {t : Batch.Target} (ht : t ∈ found) {key : String}
      (hkey : key ∈ t.edge.ledger.pending.keys) :
      s.parameters.get? (key ++ toString t.position) = t.edge.ledger.pending.get? key := by
    obtain ⟨value, hentry, hget⟩ := OrderedMap.exists_get?_of_mem_keys hkey
    have hmem : (key ++ toString t.position, value) ∈ s.parameters.entries := by
      rw [hparameters, ← hitems]
      exact List.mem_flatMap.mpr ⟨(t.position, t.edge), List.mem_map_of_mem ht,
        List.mem_map.mpr ⟨(key, value), hentry, rfl⟩⟩
    rw [OrderedMap.get?_of_mem hmem, hget]
  have hedge {t : Batch.Target} (ht : t ∈ found) :
      edgeId? (Batch.updateClauses found withReturn) (.word (Batch.relName t.position)) =
        some t.id := by
    -- an edge may come twice, but its variables are different and both have its id
    have howners : ((found.map fun t =>
        (Name.word (Batch.relName t.position), t.id)).map Prod.fst).Nodup := by
      rw [List.map_map]
      exact nodup_owners hpositions
    rw [edgeId?, matched_updateClauses]
    exact OrderedMap.get?_of_mem (m := ⟨_, howners⟩) (List.mem_map_of_mem ht)
  refine ⟨found.map fun t => (t.id, t.edge.ledger), ?_, Batch.updateClauses found withReturn,
    hspells.read_eq, ?_⟩
  · have hedges : edges.map (fun e => (e.id, e.ledger)) =
        (Batch.numbered edges).map fun p => (p.2.id, p.2.ledger) := by
      conv_lhs => rw [← Batch.map_snd_numbered edges]
      rw [List.map_map]
      rfl
    rw [hedges, ← hitems, List.map_map, List.map_map]
    apply List.map_congr_left
    intro t ht
    simp only [Function.comp_apply, hids t ht]
  · rw [writes, assigned_updateClauses, removed_updateClauses, List.filterMap_flatMap,
      List.filterMap_flatMap, List.flatMap_map, List.flatMap_map]
    congr 1
    · refine List.flatMap_congr fun t ht => ?_
      rw [settings, Batch.assignmentsAt, List.filterMap_map]
      simp only [Function.comp_def, hedge ht, Option.map_some, suffix_relName, List.filterMap_eq_map']
      exact List.map_congr_left fun key hkey => by rw [hvalue ht hkey]
    · refine List.flatMap_congr fun t ht => ?_
      rw [deletions, Batch.removalsAt, places, List.filterMap_map]
      simp only [Function.comp_def, hedge ht, Option.map_some, List.filterMap_eq_map']

theorem carried_batch {edges : List Edge} {withReturn : Bool} {s : Statement}
    (h : Batch.update edges withReturn = .ok s) : Carried edges s := by
  obtain ⟨loads, hloads, hwrites⟩ := writes_batch h
  exact ⟨loads, carries_of_writes hwrites, hloads⟩

/-! ## Keys -/

def Cypher.Change.keys (c : Change) : List String := c.assigned.map Prod.fst ++ c.removed

/-- The statement changes these keys of these relationships, one after another. -/
def ChangesKeys (s : Statement) (items : List (Option Int × List String)) : Prop :=
  ∃ cs, read s.text = some cs ∧ (changes s.parameters cs).map (fun c => (c.id, c.keys)) = items

theorem ChangesKeys.id_ne_none {s : Statement} {items : List (Option Int × List String)}
    (h : ChangesKeys s items) : ∀ item ∈ items, item.1 ≠ none := by
  obtain ⟨cs, _, rfl⟩ := h
  intro item hitem
  obtain ⟨c, hc, rfl⟩ := List.mem_map.mp hitem
  obtain ⟨m, _, rfl⟩ := List.mem_map.mp hc
  nofun

theorem changesKeys_update {e : Edge} {o : Options} {s : Statement}
    (h : Statement.update e o = .ok s) : ChangesKeys s [(e.id, e.ledger.changedKeys)] := by
  obtain ⟨id, hid, hspells⟩ := spells_update h
  refine ⟨updateClauses e o id, hspells.read_eq, ?_⟩
  have hassigned : (spokenAssignments (.quoted o.binding) e.ledger.pending.keys o.suffix).filter
      (fun a => a.place.owner = .quoted o.binding) =
        spokenAssignments (.quoted o.binding) e.ledger.pending.keys o.suffix := by
    rw [List.filter_eq_self]
    intro a ha
    obtain ⟨key, _, rfl⟩ := List.mem_map.mp ha
    simp
  have hremoved : (places (.quoted o.binding) e.ledger.removed).filter
      (fun p => p.owner = .quoted o.binding) = places (.quoted o.binding) e.ledger.removed := by
    rw [List.filter_eq_self]
    intro p hp
    obtain ⟨key, _, rfl⟩ := List.mem_map.mp hp
    simp
  rw [changes, matched_single, assigned_single, removed_single]
  simp only [List.map_cons, List.map_nil, hassigned, hremoved, Change.keys, hid]
  simp [spokenAssignments, places, PropertyLedger.changedKeys, Function.comp_def]

theorem changesKeys_batch {edges : List Edge} {withReturn : Bool} {s : Statement}
    (h : Batch.update edges withReturn = .ok s) :
    ChangesKeys s (edges.map fun e => (e.id, e.ledger.changedKeys)) := by
  obtain ⟨cs, hread⟩ := readsAsUpdate h
  refine ⟨cs, hread.read, ?_⟩
  have hedges : edges.map (fun e => (e.id, e.ledger.changedKeys)) =
      (Batch.numbered edges).map fun p => (p.2.id, p.2.ledger.changedKeys) := by
    conv_lhs => rw [← Batch.map_snd_numbered edges]
    rw [List.map_map]
    rfl
  rw [hread.edges, List.map_map, hedges]
  apply List.map_congr_left
  intro p _
  simp only [Function.comp_apply, Change.keys, Change.ofEdge, PropertyLedger.changedKeys,
    OrderedMap.keys, List.map_map]
  rfl

end EdgeMapper
