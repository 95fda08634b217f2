import EdgeMapper.Proofs.Cypher.Batches
/-!
# Reading batches back

What the clauses of a statement say about edges: which ones are created, between which nodes and with
which properties, and which properties of which edges are set and removed. The statement for a batch
says exactly what its edges say, edge by edge.
-/

namespace EdgeMapper.Cypher

open Statement (suffixed)
open Batch (numbered relName startName finishName)

/-! ## What clauses say -/

def Clause.introduced : Clause → List Name
  | node v _ => [v]
  | relationship v _ => [v]
  | relationships v _ => [v]
  | create arrows => arrows.filterMap Arrow.binding
  | _ => []

def Clause.matchedNodes : Clause → List (Name × Int)
  | node v id => [(v, id)]
  | _ => []

def Clause.matchedEdges : Clause → List (Name × Int)
  | relationship v id => [(v, id)]
  | _ => []

def Clause.arrows : Clause → List Arrow
  | create arrows => arrows
  | _ => []

def Clause.assigned : Clause → List Assignment
  | set assignments => assignments
  | _ => []

def Clause.removed : Clause → List Place
  | remove places => places
  | _ => []

def introduced (cs : List Clause) : List Name := cs.flatMap Clause.introduced

def arrows (cs : List Clause) : List Arrow := cs.flatMap Clause.arrows

def assigned (cs : List Clause) : List Assignment := cs.flatMap Clause.assigned

def removed (cs : List Clause) : List Place := cs.flatMap Clause.removed

def matched (cs : List Clause) : List (Name × Int) := cs.flatMap Clause.matchedEdges

def nodeId? (cs : List Clause) (v : Name) : Option Int :=
  ((cs.flatMap Clause.matchedNodes).find? fun n => n.1 = v).map Prod.snd

/-- A relationship as a create statement describes it, with parameters looked up. -/
structure Description where
  start : Option Int
  finish : Option Int
  direction : Direction
  label : String
  properties : List (String × Option Value)

def described (parameters : OrderedMap String Value) (cs : List Clause) : List Description :=
  (arrows cs).map fun a =>
    { start := nodeId? cs a.start, finish := nodeId? cs a.finish, direction := a.direction,
      label := a.label, properties := a.entries.map fun (key, p) => (key, parameters.get? p) }

def Description.ofEdge (e : Edge) : Description :=
  { start := some e.start.id, finish := some e.finish.id, direction := e.direction,
    label := e.label,
    properties := e.ledger.current.entries.map fun (key, value) => (key, some value) }

/-- What an update statement says about one relationship, with parameters looked up. -/
structure Change where
  owner : Name
  id : Option Int
  assigned : List (String × Option Value)
  removed : List String

def changes (parameters : OrderedMap String Value) (cs : List Clause) : List Change :=
  (matched cs).map fun (v, id) =>
    { owner := v, id := some id,
      assigned := ((assigned cs).filter fun a => a.place.owner = v).map fun a =>
        (a.place.key, parameters.get? a.parameter)
      removed := ((removed cs).filter fun p => p.owner = v).map Place.key }

def Change.ofEdge (i : Nat) (e : Edge) : Change :=
  { owner := .word (relName i), id := e.id,
    assigned := e.ledger.pending.entries.map fun (key, value) => (key, some value),
    removed := e.ledger.removed }

/-- The statement creates these edges. -/
structure ReadsAsCreate (edges : List Edge) (s : Statement) (cs : List Clause) : Prop where
  read : read s.text = some cs
  names : introduced cs =
    ((numbered edges).flatMap fun (i, _) => [.word (startName i), .word (finishName i)])
      ++ (numbered edges).map fun (i, _) => .word (relName i)
  distinct : (introduced cs).Nodup
  count : (introduced cs).length = 3 * edges.length
  edges : described s.parameters cs = edges.map Description.ofEdge
  references : references? s.text = some s.parameters.keys

/-- The statement updates these edges. -/
structure ReadsAsUpdate (edges : List Edge) (s : Statement) (cs : List Clause) : Prop where
  read : read s.text = some cs
  edges : changes s.parameters cs = (numbered edges).map fun (i, e) => Change.ofEdge i e
  attached : ∀ place ∈ (assigned cs).map Assignment.place ++ removed cs,
    place.owner ∈ (matched cs).map Prod.fst
  references : references? s.text = some s.parameters.keys

/-! ## Batches that create -/

theorem startName_ne_finishName (i j : Nat) : startName i ≠ finishName j := by
  intro h
  have hlist := congrArg (fun text => text.toList.head?) h
  simp [startName, finishName] at hlist

theorem startName_ne_relName (i j : Nat) : startName i ≠ relName j := by
  intro h
  have hlist := congrArg (fun text => text.toList.head?) h
  simp [startName, relName] at hlist

theorem finishName_ne_relName (i j : Nat) : finishName i ≠ relName j := by
  intro h
  have hlist := congrArg (fun text => text.toList.head?) h
  simp [finishName, relName] at hlist

theorem nodup_names {xs : List (Nat × Edge)} (h : (xs.map Prod.fst).Nodup) :
    ((xs.flatMap fun p => [Name.word (startName p.1), .word (finishName p.1)])
      ++ xs.map fun p => Name.word (relName p.1)).Nodup := by
  have hpositions : xs.Pairwise fun p q => p.1 ≠ q.1 := List.pairwise_map.mp h
  rw [List.nodup_append]
  refine ⟨?_, ?_, ?_⟩
  · rw [List.nodup_flatMap]
    refine ⟨fun p _ => by simp [startName_ne_finishName], hpositions.imp ?_⟩
    intro p q hne v hp hq
    simp only [List.mem_cons, List.not_mem_nil, or_false] at hp hq
    rcases hp with rfl | rfl
    · rcases hq with hq | hq
      · exact hne (Batch.append_toString_injective "fromNode" (Name.word.inj hq))
      · exact startName_ne_finishName _ _ (Name.word.inj hq)
    · rcases hq with hq | hq
      · exact startName_ne_finishName _ _ (Name.word.inj hq).symm
      · exact hne (Batch.append_toString_injective "toNode" (Name.word.inj hq))
  · refine List.pairwise_map.mpr (hpositions.imp ?_)
    intro p q hne hq
    exact hne (Batch.append_toString_injective "rel" (Name.word.inj hq))
  · intro v hv w hw hvw
    obtain ⟨p, _, hp⟩ := List.mem_flatMap.mp hv
    obtain ⟨q, _, rfl⟩ := List.mem_map.mp hw
    simp only [List.mem_cons, List.not_mem_nil, or_false] at hp
    rcases hp with rfl | rfl
    · exact startName_ne_relName _ _ (Name.word.inj hvw)
    · exact finishName_ne_relName _ _ (Name.word.inj hvw)

section Create

variable (edges : List Edge) (withReturn : Bool)

theorem introduced_createClauses :
    introduced (Batch.createClauses edges withReturn) =
      ((numbered edges).flatMap fun (i, _) => [.word (startName i), .word (finishName i)])
        ++ (numbered edges).map fun (i, _) => .word (relName i) := by
  have harrows : ((numbered edges).map fun (i, e) => Batch.drawnAt i e).filterMap Arrow.binding =
      (numbered edges).map fun (i, _) => .word (relName i) := by
    rw [List.filterMap_map, ← List.filterMap_eq_map]
    rfl
  rw [introduced, Batch.flatMap_createClauses fun _ => rfl]
  simp [Clause.introduced, harrows]

theorem arrows_createClauses :
    arrows (Batch.createClauses edges withReturn) =
      (numbered edges).map fun (i, e) => Batch.drawnAt i e := by
  rw [arrows, Batch.flatMap_createClauses fun _ => rfl]
  simp [Clause.arrows]

theorem nodes_createClauses :
    (Batch.createClauses edges withReturn).flatMap Clause.matchedNodes =
      (numbered edges).flatMap fun (i, e) =>
        [(.word (startName i), e.start.id), (.word (finishName i), e.finish.id)] := by
  rw [Batch.flatMap_createClauses fun _ => rfl]
  simp [Clause.matchedNodes]

theorem nodeId?_createClauses {i : Nat} {e : Edge} (h : (i, e) ∈ numbered edges) :
    nodeId? (Batch.createClauses edges withReturn) (.word (startName i)) = some e.start.id ∧
      nodeId? (Batch.createClauses edges withReturn) (.word (finishName i)) =
        some e.finish.id := by
  have hkeys : (((numbered edges).flatMap fun (i, e) =>
      [(Name.word (startName i), e.start.id), (.word (finishName i), e.finish.id)]).map
        Prod.fst).Nodup := by
    rw [List.map_flatMap]
    exact (List.nodup_append.mp (nodup_names (Batch.nodup_positions edges))).1
  rw [nodeId?, nodeId?, nodes_createClauses]
  refine ⟨OrderedMap.get?_of_mem (m := ⟨_, hkeys⟩) ?_, OrderedMap.get?_of_mem (m := ⟨_, hkeys⟩) ?_⟩
  · exact List.mem_flatMap.mpr ⟨(i, e), h, by simp⟩
  · exact List.mem_flatMap.mpr ⟨(i, e), h, by simp⟩

theorem entries_batchCreateClauses :
    entries (Batch.createClauses edges withReturn) =
      (numbered edges).flatMap fun (i, e) =>
        e.ledger.current.keys.map fun key => (key, key ++ toString i) := by
  rw [entries, Batch.flatMap_createClauses fun _ => rfl]
  simp [Clause.entries, List.flatMap_map, Batch.drawnAt]

end Create

theorem readsAsCreate {edges : List Edge} {withReturn : Bool} {s : Statement}
    (h : Batch.create edges withReturn = .ok s) :
    ReadsAsCreate edges s (Batch.createClauses edges withReturn) := by
  have hspells := Batch.spells_create h
  obtain ⟨_, hparameters, _⟩ := Batch.create_eq_ok h
  have hnames := introduced_createClauses edges withReturn
  refine ⟨hspells.read_eq, hnames, ?_, ?_, ?_, ?_⟩
  · rw [hnames]
    exact nodup_names (Batch.nodup_positions edges)
  · have hlength : (numbered edges).length = edges.length := by simp [numbered]
    rw [hnames, List.length_append, List.length_map, List.length_flatMap]
    simp [hlength]
    omega
  · have hedges : edges.map Description.ofEdge =
        (numbered edges).map fun p => Description.ofEdge p.2 := by
      conv_lhs => rw [← Batch.map_snd_numbered edges]
      rw [List.map_map]
      rfl
    rw [described, arrows_createClauses, List.map_map, hedges]
    apply List.map_congr_left
    rintro ⟨i, e⟩ hmem
    obtain ⟨hstart, hfinish⟩ := nodeId?_createClauses edges withReturn hmem
    have hvalues : e.ledger.current.keys.map
        (fun key => (key, s.parameters.get? (key ++ toString i))) =
          e.ledger.current.entries.map fun (key, value) => (key, some value) := by
      apply values_of_suffixed
      intro entry hentry
      rw [hparameters]
      exact List.mem_flatMap.mpr ⟨(i, e), hmem, hentry⟩
    simp only [Function.comp_apply, Batch.drawnAt, Description.ofEdge, hstart, hfinish,
      List.map_map, Description.mk.injEq, true_and]
    exact hvalues
  · rw [references?_text hspells, entries_batchCreateClauses, OrderedMap.keys, hparameters,
      List.map_flatMap, List.map_flatMap]
    congr 2
    funext p
    rw [keys_suffixed, List.map_map]
    rfl

/-! ## Batches that update -/

theorem filter_flatMap_owner {α β γ : Type} [DecidableEq γ] {name : α → γ} {owner : β → γ}
    {f : α → List β} (howner : ∀ x, ∀ b ∈ f x, owner b = name x) {xs : List α}
    (hnodup : (xs.map name).Nodup) {x : α} (hx : x ∈ xs) :
    (xs.flatMap f).filter (fun b => owner b = name x) = f x := by
  have hnone {ys : List α} (h : name x ∉ ys.map name) :
      (ys.flatMap f).filter (fun b => owner b = name x) = [] := by
    rw [List.filter_eq_nil_iff]
    intro b hb
    obtain ⟨y, hy, hb⟩ := List.mem_flatMap.mp hb
    have hne : name y ≠ name x := fun e => h (List.mem_map.mpr ⟨y, hy, e⟩)
    simpa [howner y b hb] using hne
  have hown (y : α) (hy : name y = name x) : (f y).filter (fun b => owner b = name x) = f y := by
    rw [List.filter_eq_self]
    intro b hb
    simp [howner y b hb, hy]
  induction xs with
  | nil => simp at hx
  | cons y ys ih =>
      rw [List.map_cons, List.nodup_cons] at hnodup
      rw [List.flatMap_cons, List.filter_append]
      rcases List.mem_cons.mp hx with rfl | hys
      · rw [hown x rfl, hnone hnodup.1, List.append_nil]
      · have hne : name y ≠ name x := fun e => hnodup.1 (e ▸ List.mem_map_of_mem hys)
        have hother : (f y).filter (fun b => owner b = name x) = [] := by
          rw [List.filter_eq_nil_iff]
          intro b hb
          simpa [howner y b hb] using hne
        rw [hother, ih hnodup.2 hys, List.nil_append]

theorem nodup_owners {found : List Batch.Target}
    (h : (found.map Batch.Target.position).Nodup) :
    (found.map fun t => Name.word (relName t.position)).Nodup := by
  have hpositions := List.pairwise_map.mp h
  refine List.pairwise_map.mpr (hpositions.imp ?_)
  intro t u hne heq
  exact hne (Batch.append_toString_injective "rel" (Name.word.inj heq))

section Update

variable (found : List Batch.Target) (withReturn : Bool)

theorem matched_updateClauses :
    matched (Batch.updateClauses found withReturn) =
      found.map fun t => (.word (relName t.position), t.id) := by
  rw [matched, Batch.flatMap_updateClauses rfl rfl fun _ => rfl, List.map_eq_flatMap]
  simp [Clause.matchedEdges]

theorem assigned_updateClauses :
    assigned (Batch.updateClauses found withReturn) = found.flatMap Batch.assignmentsAt := by
  rw [assigned, Batch.flatMap_updateClauses rfl rfl fun _ => rfl]
  simp [Clause.assigned]

theorem removed_updateClauses :
    removed (Batch.updateClauses found withReturn) = found.flatMap Batch.removalsAt := by
  rw [removed, Batch.flatMap_updateClauses rfl rfl fun _ => rfl]
  simp [Clause.removed]

theorem entries_batchUpdateClauses :
    entries (Batch.updateClauses found withReturn) =
      found.flatMap fun t =>
        t.edge.ledger.pending.keys.map fun key => (key, key ++ toString t.position) := by
  rw [entries, Batch.flatMap_updateClauses rfl rfl fun _ => rfl]
  simp [Clause.entries, Batch.assignmentsAt, List.map_flatMap, Function.comp_def]

theorem filter_assigned {t : Batch.Target} (ht : t ∈ found)
    (h : (found.map Batch.Target.position).Nodup) :
    ((assigned (Batch.updateClauses found withReturn)).filter
      fun a => a.place.owner = .word (relName t.position)) = Batch.assignmentsAt t := by
  rw [assigned_updateClauses]
  refine filter_flatMap_owner (fun u a ha => ?_) (nodup_owners h) ht
  obtain ⟨key, _, rfl⟩ := List.mem_map.mp ha
  rfl

theorem filter_removed {t : Batch.Target} (ht : t ∈ found)
    (h : (found.map Batch.Target.position).Nodup) :
    ((removed (Batch.updateClauses found withReturn)).filter
      fun p => p.owner = .word (relName t.position)) = Batch.removalsAt t := by
  rw [removed_updateClauses]
  refine filter_flatMap_owner (fun u p hp => ?_) (nodup_owners h) ht
  obtain ⟨key, _, rfl⟩ := List.mem_map.mp hp
  rfl

end Update

theorem readsAsUpdate {edges : List Edge} {withReturn : Bool} {s : Statement}
    (h : Batch.update edges withReturn = .ok s) : ∃ cs, ReadsAsUpdate edges s cs := by
  obtain ⟨hne, found, hitems, hids, hparameters, htemplate⟩ := Batch.update_eq_ok h
  have hfound : found ≠ [] := by
    rintro rfl
    exact hne (Batch.numbered_eq_nil hitems.symm)
  have hspells : s.Spells (Batch.updateClauses found withReturn) :=
    Batch.spells_update hfound htemplate
  have hpositions : (found.map Batch.Target.position).Nodup := by
    have hnodup := Batch.nodup_positions edges
    rw [← hitems, List.map_map] at hnodup
    exact hnodup
  refine ⟨Batch.updateClauses found withReturn, hspells.read_eq, ?_, ?_, ?_⟩
  · rw [changes, matched_updateClauses, List.map_map, ← hitems, List.map_map]
    apply List.map_congr_left
    intro t ht
    have hvalues : t.edge.ledger.pending.keys.map
        (fun key => (key, s.parameters.get? (key ++ toString t.position))) =
          t.edge.ledger.pending.entries.map fun (key, value) => (key, some value) := by
      apply values_of_suffixed
      intro entry hentry
      rw [hparameters, ← hitems]
      exact List.mem_flatMap.mpr ⟨(t.position, t.edge), List.mem_map_of_mem ht, hentry⟩
    have hremoved : (Batch.removalsAt t).map Place.key = t.edge.ledger.removed := by
      rw [Batch.removalsAt, places, List.map_map]
      exact List.map_id _
    simp only [Function.comp_apply, filter_assigned found withReturn ht hpositions,
      filter_removed found withReturn ht hpositions, Change.ofEdge, hids t ht, hremoved,
      ← hvalues, Batch.assignmentsAt, List.map_map]
    rfl
  · intro place hplace
    rw [assigned_updateClauses, removed_updateClauses] at hplace
    rw [matched_updateClauses, List.map_map]
    rcases List.mem_append.mp hplace with hplace | hplace
    · obtain ⟨a, ha, rfl⟩ := List.mem_map.mp hplace
      obtain ⟨t, ht, ha⟩ := List.mem_flatMap.mp ha
      obtain ⟨key, _, rfl⟩ := List.mem_map.mp ha
      exact List.mem_map.mpr ⟨t, ht, rfl⟩
    · obtain ⟨t, ht, hp⟩ := List.mem_flatMap.mp hplace
      obtain ⟨key, _, rfl⟩ := List.mem_map.mp hp
      exact List.mem_map.mpr ⟨t, ht, rfl⟩
  · rw [references?_text hspells, entries_batchUpdateClauses, OrderedMap.keys, hparameters,
      ← hitems, List.flatMap_map, List.map_flatMap, List.map_flatMap]
    congr 2
    funext t
    rw [keys_suffixed, List.map_map]
    rfl

/-! ## All batches -/

/-- A statement for a batch says exactly what its edges say. One that creates binds three different
names for each position and describes the edges in their order; one that updates sets and removes, for
each position, what the edge there has recorded; and one that deletes lists the ids in order. -/
theorem batches_read_back (edges : List Edge) (withReturn : Bool) :
    (∀ s, Batch.create edges withReturn = .ok s → ∃ cs, ReadsAsCreate edges s cs) ∧
    (∀ s, Batch.update edges withReturn = .ok s → ∃ cs, ReadsAsUpdate edges s cs) ∧
    (∀ s, Batch.delete edges = .ok s → ∃ ids,
      read s.text = some [.relationships (.word "rel") ids, .delete (.word "rel")] ∧
        edges.map Edge.id = ids.map some) := by
  refine ⟨fun s h => ⟨_, readsAsCreate h⟩, fun s h => readsAsUpdate h, ?_⟩
  intro s h
  obtain ⟨hne, ids, hids, hs⟩ := Batch.delete_eq_ok h
  have hnonempty : ids ≠ [] := by
    rintro rfl
    exact hne (List.map_eq_nil_iff.mp hids)
  exact ⟨ids, (Batch.spells_delete hnonempty (by rw [hs])).read_eq, hids⟩

/-- A batch that holds an edge twice, under keys with marks and digits. -/
theorem batches_read_back_twice :
    ∃ e s t u, Batch.create [e, e] true = .ok s ∧ Batch.update [e, e] true = .ok t ∧
      Batch.delete [e, e] = .ok u ∧ (∃ cs, ReadsAsCreate [e, e] s cs) ∧
      (∃ cs, ReadsAsUpdate [e, e] t cs) ∧
      ∃ ids, read u.text = some [.relationships (.word "rel") ids, .delete (.word "rel")] ∧
        [e, e].map Edge.id = ids.map some := by
  let ledger : PropertyLedger :=
    { current := .ofList [("a\x60", .int 1), ("1\n", .int 2)]
      pending := .ofList [("1\n", .int 2)]
      removed := ["$b"] }
  let e : Edge :=
    { id := some 7, start := ⟨1, none⟩, finish := ⟨2, none⟩, label := "\x60", direction := .reverse,
      created := ⟨0⟩, updated := ⟨0⟩, ledger := ledger }
  have hread := batches_read_back [e, e] true
  exact ⟨e, _, _, _, rfl, rfl, rfl, hread.1 _ rfl, hread.2.1 _ rfl, hread.2.2 _ rfl⟩

end EdgeMapper.Cypher
