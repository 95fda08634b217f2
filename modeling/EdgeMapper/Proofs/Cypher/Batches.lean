import EdgeMapper.Proofs.Cypher.References
/-!
# Clauses of batches

A batch is written edge by edge under numbered names. The names of different positions are different,
a number at the end of a parameter name keeps it from being misread, and the parameters are bound in
the order in which the text refers to them.
-/

namespace EdgeMapper.Cypher.Batch

open Identifier (isPlain)
open Statement (suffixed assignments removals clause)
open Template (Spells)

/-! ## Numbered names -/

theorem append_toString_injective (stem : String) {i j : Nat}
    (h : stem ++ toString i = stem ++ toString j) : i = j := by
  have hlist := congrArg String.toList h
  rw [String.toList_append, String.toList_append] at hlist
  have hdigits : Nat.toDigits 10 i = Nat.toDigits 10 j := by
    have hi : (toString i).toList = Nat.toDigits 10 i := Nat.toList_repr
    have hj : (toString j).toList = Nat.toDigits 10 j := Nat.toList_repr
    rw [← hi, ← hj, List.append_cancel_left hlist]
  have hnumber := congrArg (fun ds => Nat.ofDigitChars 10 ds 0) hdigits
  simpa only [Nat.ofDigitChars_ten_toDigits] using hnumber

theorem isWord_numbered {stem : String} (h : IsWord stem) (i : Nat) : IsWord (stem ++ toString i) :=
  isWord_append h (isWord_natToString i)

theorem isWord_relName (i : Nat) : IsWord (relName i) :=
  isWord_numbered (by decide) i

theorem isWord_startName (i : Nat) : IsWord (startName i) :=
  isWord_numbered (by decide) i

theorem isWord_finishName (i : Nat) : IsWord (finishName i) :=
  isWord_numbered (by decide) i

/-- A name that ends in a digit does not end in a line feed. -/
theorem not_endsInFeed_numbered (key : String) (i : Nat) : ¬ EndsInFeed (key ++ toString i) := by
  rintro ⟨_, hlast⟩
  have hlist : (toString i).toList = Nat.toDigits 10 i := Nat.toList_repr
  have hne : Nat.toDigits 10 i ≠ [] := Nat.toDigits_ne_nil
  rw [String.toList_append, hlist, List.getLast?_append_of_ne_nil _ hne] at hlast
  have hmem := List.mem_of_getLast? hlast
  exact absurd (Nat.isDigit_of_mem_toDigits (by decide) (by decide) hmem) (by decide)

theorem spoken_numbered (key : String) (i : Nat) :
    spoken (key ++ toString i) = key ++ toString i :=
  (spoken_eq_self_iff _).mpr (not_endsInFeed_numbered key i)

theorem spokenEntries_numbered (keys : List String) (i : Nat) :
    spokenEntries keys (toString i) = keys.map fun key => (key, key ++ toString i) := by
  simp only [spokenEntries, spoken_numbered]

theorem map_zipIdx_eq_zip {α : Type} (items : List α) (first : Nat) :
    (items.zipIdx first).map (fun (item, index) => (index + 1, item)) =
      (List.range' (first + 1) items.length).zip items := by
  induction items generalizing first with
  | nil => rfl
  | cons item rest ih =>
      rw [List.zipIdx_cons, List.map_cons, ih, List.length_cons, List.range'_succ, List.zip_cons_cons]

theorem numbered_eq_zip {α : Type} (items : List α) :
    numbered items = (List.range' 1 items.length).zip items :=
  map_zipIdx_eq_zip items 0

theorem map_fst_numbered {α : Type} (items : List α) :
    (numbered items).map Prod.fst = List.range' 1 items.length := by
  rw [numbered_eq_zip, List.map_fst_zip (by simp)]

theorem map_snd_numbered {α : Type} (items : List α) : (numbered items).map Prod.snd = items := by
  rw [numbered_eq_zip, List.map_snd_zip (by simp)]

theorem nodup_positions {α : Type} (items : List α) : ((numbered items).map Prod.fst).Nodup := by
  rw [map_fst_numbered]
  exact List.nodup_range'

theorem numbered_eq_nil {α : Type} {items : List α} (h : numbered items = []) : items = [] := by
  rw [← map_snd_numbered items, h, List.map_nil]

/-! ## Parameters -/

theorem bind_eq_ok {bound parameters : OrderedMap String Value} {entries : List (String × Value)}
    (h : bind bound entries = .ok parameters) : parameters.entries = bound.entries ++ entries := by
  induction entries generalizing bound with
  | nil =>
      obtain rfl := Except.ok.inj h
      rw [List.append_nil]
  | cons entry rest ih =>
      obtain ⟨name, value⟩ := entry
      unfold bind at h
      split at h
      · cases h
      · next hfree =>
          have hnew : name ∉ bound.keys := fun hm => hfree ((bound.contains_iff name).mpr hm)
          rw [ih h, OrderedMap.entries_insert_of_not_mem hnew, List.append_assoc,
            List.singleton_append]

theorem targets_eq_ok {items : List (Nat × Edge)} {bound parameters : OrderedMap String Value}
    {found : List Target} (h : targets items bound = .ok (found, parameters)) :
    found.map (fun t => (t.position, t.edge)) = items ∧
      (∀ t ∈ found, t.edge.id = some t.id) ∧
      parameters.entries = bound.entries ++
        items.flatMap fun (i, e) => suffixed e.ledger.pending (toString i) := by
  induction items generalizing bound found with
  | nil =>
      simp only [targets, Except.ok.injEq, Prod.mk.injEq] at h
      obtain ⟨rfl, rfl⟩ := h
      simp
  | cons item rest ih =>
      obtain ⟨i, e⟩ := item
      unfold targets at h
      split at h
      · cases h
      · next id hid =>
          split at h
          · cases h
          · next extended hbind =>
            obtain ⟨⟨others, final⟩, hrest, hfound⟩ := exists_of_map_eq_ok h
            simp only [Prod.mk.injEq] at hfound
            obtain ⟨rfl, rfl⟩ := hfound
            obtain ⟨hitems, hids, hentries⟩ := ih hrest
            refine ⟨by rw [List.map_cons, hitems], ?_, ?_⟩
            · intro t ht
              rcases List.mem_cons.mp ht with rfl | ht
              · exact hid
              · exact hids t ht
            · rw [hentries, bind_eq_ok hbind, List.flatMap_cons, List.append_assoc]

theorem ids_eq_ok {items : List (Nat × Edge)} {found : List Int} (h : ids items = .ok found) :
    items.map (fun p => p.2.id) = found.map some := by
  induction items generalizing found with
  | nil =>
      obtain rfl := Except.ok.inj h
      rfl
  | cons item rest ih =>
      obtain ⟨i, e⟩ := item
      unfold ids at h
      split at h
      · cases h
      · next id hid =>
        obtain ⟨others, hrest, rfl⟩ := exists_of_map_eq_ok h
        rw [List.map_cons, List.map_cons, ih hrest, hid]

theorem create_eq_ok {edges : List Edge} {withReturn : Bool} {s : Statement}
    (h : create edges withReturn = .ok s) :
    edges ≠ [] ∧
      s.parameters.entries =
        ((numbered edges).flatMap fun (i, e) => suffixed e.ledger.current (toString i)) ∧
      s.template = Template.lines (
        ((numbered edges).flatMap fun (i, e) =>
            [matchNode (startName i) e.start.id, matchNode (finishName i) e.finish.id])
          ++ [.fixed "CREATE " :: Template.join ",\n  "
            ((numbered edges).map fun (i, e) => created i e)]
          ++ if withReturn then
              [.fixed "RETURN " :: Template.join "," ((numbered edges).flatMap fun (i, _) =>
                [[.fixed (relName i)], [.fixed (startName i)], [.fixed (finishName i)]])]
            else []) := by
  unfold create at h
  split at h
  · cases h
  · next hne =>
      refine ⟨by simpa using hne, ?_⟩
      obtain ⟨parameters, hbind, rfl⟩ := exists_of_map_eq_ok h
      exact ⟨bind_eq_ok hbind, rfl⟩

theorem update_eq_ok {edges : List Edge} {withReturn : Bool} {s : Statement}
    (h : update edges withReturn = .ok s) :
    edges ≠ [] ∧ ∃ found : List Target,
      found.map (fun t => (t.position, t.edge)) = numbered edges ∧
      (∀ t ∈ found, t.edge.id = some t.id) ∧
      s.parameters.entries =
        ((numbered edges).flatMap fun (i, e) => suffixed e.ledger.pending (toString i)) ∧
      s.template = Template.lines (
        found.map matchTarget
          ++ clause "SET " (found.flatMap fun t =>
            assignments t.edge [.fixed (relName t.position)] (toString t.position))
          ++ clause "REMOVE " (found.flatMap fun t =>
            removals t.edge [.fixed (relName t.position)])
          ++ if withReturn then
              [.fixed "RETURN " :: Template.join ","
                (found.map fun t => [.fixed (relName t.position)])]
            else []) := by
  unfold update at h
  split at h
  · cases h
  · next hne =>
      refine ⟨by simpa using hne, ?_⟩
      obtain ⟨⟨found, parameters⟩, htargets, rfl⟩ := exists_of_map_eq_ok h
      obtain ⟨hitems, hids, hentries⟩ := targets_eq_ok htargets
      exact ⟨found, hitems, hids, hentries, rfl⟩

theorem delete_eq_ok {edges : List Edge} {s : Statement} (h : delete edges = .ok s) :
    edges ≠ [] ∧ ∃ found : List Int, edges.map Edge.id = found.map some ∧ s = {
      template := [.fixed ("MATCH ()-[rel]->()\nWHERE id(rel) IN ["
        ++ ", ".intercalate (found.map toString) ++ "]\nDELETE rel")] } := by
  unfold delete at h
  split at h
  · cases h
  · next hne =>
      refine ⟨by simpa using hne, ?_⟩
      obtain ⟨found, hfound, rfl⟩ := exists_of_map_eq_ok h
      refine ⟨found, ?_, rfl⟩
      have hids := ids_eq_ok hfound
      rw [← hids, ← map_snd_numbered edges, List.map_map, map_snd_numbered]
      rfl

/-! ## Clauses -/

def drawnAt (i : Nat) (e : Edge) : Arrow :=
  { start := .word (startName i), finish := .word (finishName i),
    binding := some (.word (relName i)), label := e.label,
    entries := e.ledger.current.keys.map fun key => (key, key ++ toString i),
    direction := e.direction }

def createClauses (edges : List Edge) (withReturn : Bool) : List Clause :=
  ((numbered edges).flatMap fun (i, e) =>
      [.node (.word (startName i)) e.start.id, .node (.word (finishName i)) e.finish.id])
    ++ [.create ((numbered edges).map fun (i, e) => drawnAt i e)]
    ++ if withReturn then
        [.returns ((numbered edges).flatMap fun (i, _) =>
          [.word (relName i), .word (startName i), .word (finishName i)])]
      else []

def assignmentsAt (t : Target) : List Assignment :=
  t.edge.ledger.pending.keys.map fun key =>
    ⟨⟨.word (relName t.position), key⟩, key ++ toString t.position⟩

def removalsAt (t : Target) : List Place := places (.word (relName t.position)) t.edge.ledger.removed

def updateClauses (found : List Target) (withReturn : Bool) : List Clause :=
  (found.map fun t => .relationship (.word (relName t.position)) t.id)
    ++ listing .set (found.flatMap assignmentsAt)
    ++ listing .remove (found.flatMap removalsAt)
    ++ if withReturn then [.returns (found.map fun t => .word (relName t.position))] else []

theorem flatMap_createClauses {β : Type} {f : Clause → List β}
    (hreturns : ∀ names, f (.returns names) = []) (edges : List Edge) (withReturn : Bool) :
    (createClauses edges withReturn).flatMap f =
      ((numbered edges).flatMap fun (i, e) =>
        f (.node (.word (startName i)) e.start.id) ++ f (.node (.word (finishName i)) e.finish.id))
        ++ f (.create ((numbered edges).map fun (i, e) => drawnAt i e)) := by
  rw [createClauses, List.flatMap_append, List.flatMap_append, List.flatMap_assoc,
    flatMap_returns hreturns, List.flatMap_singleton, List.append_nil]
  simp only [List.flatMap_cons, List.flatMap_nil, List.append_nil]

theorem flatMap_updateClauses {β : Type} {f : Clause → List β} (hset : f (.set []) = [])
    (hremove : f (.remove []) = []) (hreturns : ∀ names, f (.returns names) = [])
    (found : List Target) (withReturn : Bool) :
    (updateClauses found withReturn).flatMap f =
      (found.flatMap fun t => f (.relationship (.word (relName t.position)) t.id))
        ++ f (.set (found.flatMap assignmentsAt)) ++ f (.remove (found.flatMap removalsAt)) := by
  rw [updateClauses, flatMap_updating hset hremove hreturns, List.flatMap_map]

theorem forall₂_flatMap {α : Type} {write : α → List Template}
    {spelled : α → List (List Lexeme)} {xs : List α}
    (h : ∀ x ∈ xs, List.Forall₂ Spells (write x) (spelled x)) :
    List.Forall₂ Spells (xs.flatMap write) (xs.flatMap spelled) := by
  induction xs with
  | nil => exact .nil
  | cons x xs ih =>
      rw [List.flatMap_cons, List.flatMap_cons]
      exact forall₂_append (h x (by simp)) (ih fun y hy => h y (by simp [hy]))

theorem spells_created (i : Nat) (e : Edge) : Spells (created i e) (drawnAt i e).lexemes := by
  have hbinding : Spells [.fixed (relName i)] (bound (some (.word (relName i)))) :=
    spells_word (isWord_relName i)
  have harrow := spells_relationship (isWord_startName i) (isWord_finishName i) hbinding e.label
    e.ledger.current.keys (toString i) e.direction
  rwa [spokenEntries_numbered] at harrow

theorem spells_matchTarget (t : Target) :
    Spells (matchTarget t)
      (Clause.relationship (.word (relName t.position)) t.id).lexemes := by
  have hname := isWord_relName t.position
  refine ⟨?_, ?_⟩
  · apply readable_fixed
    have hmark := hname.mark_not_mem
    simp only [String.toList_append, List.mem_append, not_or]
    exact ⟨⟨⟨⟨⟨by decide, hmark⟩, by decide⟩, hmark⟩, by decide⟩, mark_not_mem_intToString t.id⟩
  · intro rest hrest
    have hopen (ts : List Token) : lexemes (plain "MATCH ()-[" ++ ts) =
        word "MATCH" :: .sign '(' :: .sign ')' :: .sign '-' :: .sign '[' :: lexemes ts := rfl
    have hwhere (ts : List Token) : lexemes (plain "]->() WHERE id(" ++ ts) =
        .sign ']' :: .sign '-' :: .sign '>' :: .sign '(' :: .sign ')' :: word "WHERE" ::
          word "id" :: .sign '(' :: lexemes ts := rfl
    have hclose (ts : List Token) : lexemes (plain ") = " ++ ts) =
        .sign ')' :: .sign '=' :: lexemes ts := rfl
    simp only [matchTarget, Template.tokens_fixed, Template.tokens_nil, List.append_nil,
      plain_append, List.append_assoc]
    rw [hopen, lexemes_word hname rfl, hwhere, lexemes_word hname rfl, hclose,
      lexemes_int t.id hrest]
    rfl

theorem spells_create {edges : List Edge} {withReturn : Bool} {s : Statement}
    (h : create edges withReturn = .ok s) : s.Spells (createClauses edges withReturn) := by
  obtain ⟨hne, _, htemplate⟩ := create_eq_ok h
  have hnumbered : numbered edges ≠ [] := fun hnil => hne (numbered_eq_nil hnil)
  have hnodes : List.Forall₂ Spells
      ((numbered edges).flatMap fun (i, e) =>
        [matchNode (startName i) e.start.id, matchNode (finishName i) e.finish.id])
      ((numbered edges).flatMap fun (i, e) =>
        [(Clause.node (.word (startName i)) e.start.id).lexemes,
          (Clause.node (.word (finishName i)) e.finish.id).lexemes]) :=
    forall₂_flatMap fun p _ => .cons (spells_matchNode (isWord_startName p.1) p.2.start.id)
      (.cons (spells_matchNode (isWord_finishName p.1) p.2.finish.id) .nil)
  have hcreate : List.Forall₂ Spells ((numbered edges).map fun (i, e) => created i e)
      (((numbered edges).map fun (i, e) => drawnAt i e).map Arrow.lexemes) := by
    rw [List.map_map]
    exact forall₂_spells_map fun p _ => spells_created p.1 p.2
  have hreturned : List.Forall₂ Spells
      ((numbered edges).flatMap fun (i, _) =>
        [[.fixed (relName i)], [.fixed (startName i)], [.fixed (finishName i)]])
      (((numbered edges).flatMap fun (i, _) =>
        [Name.word (relName i), .word (startName i), .word (finishName i)]).map
          fun v => [.name v]) := by
    rw [List.map_flatMap]
    exact forall₂_flatMap fun p _ => .cons (spells_word (isWord_relName p.1))
      (.cons (spells_word (isWord_startName p.1)) (.cons (spells_word (isWord_finishName p.1)) .nil))
  refine Statement.spells_of_lines htemplate
    (forall₂_append (forall₂_append hnodes (.cons (spells_creates hcreate) .nil))
      (forall₂_ite withReturn (spells_returns hreturned))) ?_ ?_
  · simp [createClauses, List.flatMap_def, Function.comp_def]
  · intro c hc
    simp only [createClauses, List.mem_append, List.mem_flatMap, List.mem_singleton] at hc
    rcases hc with (⟨p, _, hc⟩ | rfl) | hc
    · simp only [List.mem_cons, List.not_mem_nil, or_false] at hc
      rcases hc with rfl | rfl
      · exact free_numbered "fromNode" p.1
      · exact free_numbered "toNode" p.1
    · refine ⟨by simpa using hnumbered, ?_⟩
      intro a ha
      obtain ⟨p, _, rfl⟩ := List.mem_map.mp ha
      refine ⟨free_numbered "fromNode" p.1, free_numbered "toNode" p.1, ?_⟩
      intro v hv
      obtain rfl := Option.some.inj hv
      exact free_numbered "rel" p.1
    · split at hc
      · obtain rfl := List.mem_singleton.mp hc
        refine ⟨?_, ?_⟩
        · obtain ⟨p, rest, hcons⟩ := List.exists_cons_of_ne_nil hnumbered
          simp [hcons]
        · intro v hv
          obtain ⟨p, _, hv⟩ := List.mem_flatMap.mp hv
          simp only [List.mem_cons, List.not_mem_nil, or_false] at hv
          rcases hv with rfl | rfl | rfl
          · exact free_numbered "rel" p.1
          · exact free_numbered "fromNode" p.1
          · exact free_numbered "toNode" p.1
      · simp at hc

theorem spells_update {found : List Target} {withReturn : Bool} {s : Statement}
    (hne : found ≠ [])
    (h : s.template = Template.lines (
      found.map matchTarget
        ++ clause "SET " (found.flatMap fun t =>
          assignments t.edge [.fixed (relName t.position)] (toString t.position))
        ++ clause "REMOVE " (found.flatMap fun t =>
          removals t.edge [.fixed (relName t.position)])
        ++ if withReturn then
            [.fixed "RETURN " :: Template.join ","
              (found.map fun t => [.fixed (relName t.position)])]
          else [])) :
    s.Spells (updateClauses found withReturn) := by
  have hbinding (t : Target) : Spells [.fixed (relName t.position)]
      [.name (.word (relName t.position))] := spells_word (isWord_relName t.position)
  have hmatch : List.Forall₂ Spells (found.map matchTarget)
      (found.map fun t => (Clause.relationship (.word (relName t.position)) t.id).lexemes) :=
    forall₂_spells_map fun t _ => spells_matchTarget t
  have hset : List.Forall₂ Spells
      (found.flatMap fun t =>
        assignments t.edge [.fixed (relName t.position)] (toString t.position))
      ((found.flatMap assignmentsAt).map Assignment.lexemes) := by
    rw [List.map_flatMap]
    refine forall₂_flatMap fun t _ => ?_
    have hassignments := forall₂_assignments t.edge (hbinding t) (toString t.position)
    simpa only [assignmentsAt, spokenAssignments, spoken_numbered] using hassignments
  have hremove : List.Forall₂ Spells
      (found.flatMap fun t => removals t.edge [.fixed (relName t.position)])
      ((found.flatMap removalsAt).map Place.lexemes) := by
    rw [List.map_flatMap]
    exact forall₂_flatMap fun t _ => forall₂_removals t.edge (hbinding t)
  have hreturned : List.Forall₂ Spells (found.map fun t => [.fixed (relName t.position)])
      ((found.map fun t => Name.word (relName t.position)).map fun v => [.name v]) := by
    rw [List.map_map]
    exact forall₂_spells_map fun t _ => hbinding t
  -- no variable is a keyword, for it ends in a digit; so the clauses are kept apart
  have hvalidSet : ∀ c ∈ listing .set (found.flatMap assignmentsAt), c.Valid := by
    refine valid_listing fun hset => ⟨hset, ?_⟩
    intro a ha
    obtain ⟨t, _, ha⟩ := List.mem_flatMap.mp ha
    obtain ⟨key, _, rfl⟩ := List.mem_map.mp ha
    exact free_numbered "rel" t.position
  have hvalidRemove : ∀ c ∈ listing .remove (found.flatMap removalsAt), c.Valid := by
    refine valid_listing fun hremove => ⟨hremove, ?_⟩
    intro p hp
    obtain ⟨t, _, hp⟩ := List.mem_flatMap.mp hp
    obtain ⟨key, _, rfl⟩ := List.mem_map.mp hp
    exact free_numbered "rel" t.position
  refine Statement.spells_of_lines h
    (forall₂_append (forall₂_append (forall₂_append hmatch (forall₂_set hset))
      (forall₂_remove hremove)) (forall₂_ite withReturn (spells_returns hreturned))) ?_ ?_
  · simp [updateClauses, List.flatMap_def, Function.comp_def]
  · intro c hc
    simp only [updateClauses, List.mem_append, List.mem_map] at hc
    rcases hc with ((⟨t, _, rfl⟩ | hc) | hc) | hc
    · exact free_numbered "rel" t.position
    · exact hvalidSet c hc
    · exact hvalidRemove c hc
    · split at hc
      · obtain rfl := List.mem_singleton.mp hc
        refine ⟨by simpa using hne, ?_⟩
        intro v hv
        obtain ⟨t, _, rfl⟩ := List.mem_map.mp hv
        exact free_numbered "rel" t.position
      · simp at hc

theorem spells_int (i : Int) : Spells [.fixed (toString i)] (integer i) := by
  refine ⟨readable_fixed (mark_not_mem_intToString i), ?_⟩
  intro rest hrest
  rw [Template.tokens_fixed, Template.tokens_nil, List.append_nil, lexemes_int i hrest]

theorem spells_ints (ids : List Int) :
    Spells [.fixed (", ".intercalate (ids.map toString))] (commas (ids.map integer)) := by
  induction ids with
  | nil => exact ⟨readable_fixed (by decide), fun _ _ => rfl⟩
  | cons i rest ih =>
      cases rest with
      | nil => simpa [commas] using spells_int i
      | cons j rest =>
          have hcomma (ts : List Token) : lexemes (plain ", " ++ ts) = .sign ',' :: lexemes ts := rfl
          rw [List.map_cons, List.map_cons, String.intercalate_cons_cons]
          refine ⟨readable_fixed ?_, ?_⟩
          · simp only [String.toList_append, List.mem_append, not_or]
            exact ⟨⟨mark_not_mem_intToString i, by decide⟩, ih.readable.1⟩
          · intro ts hts
            have hrest := ih.lexemes ts hts
            simp only [Template.tokens_fixed, Template.tokens_nil, List.append_nil, plain_append,
              List.append_assoc, List.map_cons] at hrest ⊢
            rw [lexemes_int i rfl, hcomma, hrest]
            simp [commas]

theorem spells_delete {found : List Int} {s : Statement} (hne : found ≠ [])
    (h : s.template = [.fixed ("MATCH ()-[rel]->()\nWHERE id(rel) IN ["
      ++ ", ".intercalate (found.map toString) ++ "]\nDELETE rel")]) :
    s.Spells [.relationships (.word "rel") found, .delete (.word "rel")] := by
  have hids := spells_ints found
  have hopen (ts : List Token) :
      lexemes (plain "MATCH ()-[rel]->()\nWHERE id(rel) IN [" ++ ts) =
        word "MATCH" :: (Clause.edgePattern (.word "rel") ++ (Clause.condition (.word "rel") ++
          word "IN" :: .sign '[' :: lexemes ts)) := rfl
  have hclose : lexemes (plain "]\nDELETE rel") = [.sign ']', word "DELETE", word "rel"] := rfl
  refine ⟨?_, ?_⟩
  · rw [Statement.text, h, lexemes?_text]
    · have hlexemes := hids.lexemes (plain "]\nDELETE rel") rfl
      simp only [Template.tokens_fixed, Template.tokens_nil, List.append_nil, plain_append,
        List.append_assoc] at hlexemes ⊢
      rw [hopen, hlexemes, hclose]
      simp [Clause.lexemes, Clause.keyword, Clause.body, word]
    · apply readable_fixed
      simp only [String.toList_append, List.mem_append, not_or]
      exact ⟨⟨by decide, hids.readable.1⟩, by decide⟩
  · intro c hc
    simp only [List.mem_cons, List.not_mem_nil, or_false] at hc
    rcases hc with rfl | rfl
    · exact ⟨rfl, hne⟩
    · rfl

end EdgeMapper.Cypher.Batch
