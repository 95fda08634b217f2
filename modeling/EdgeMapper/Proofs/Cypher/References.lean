import EdgeMapper.Proofs.Cypher.Spelling
import Mathlib.Data.List.Nodup
/-!
# Parameter references

Text and parameters of a statement are written from the same keys, but by different code. A reader
takes every reference for the parameter that was meant unless the parameter name is plain and ends in
a line feed: the line feed ends the name that is read.
-/

namespace EdgeMapper.Cypher

open Identifier (isPlain)
open Statement (suffixed)

/-! ## Reading references -/

def Lexeme.reference? : Lexeme → Option String
  | .reference p => some p
  | _ => none

def references (ls : List Lexeme) : List String := ls.filterMap Lexeme.reference?

def references? (text : String) : Option (List String) := (lexemes? text).map references

def Clause.entries : Clause → List (String × String)
  | create arrows => arrows.flatMap Arrow.entries
  | set assignments => assignments.map fun a => (a.place.key, a.parameter)
  | _ => []

def entries (cs : List Clause) : List (String × String) := cs.flatMap Clause.entries

@[simp] theorem references_append (ls ms : List Lexeme) :
    references (ls ++ ms) = references ls ++ references ms := by
  simp [references]

@[simp] theorem references_name (n : Name) (ls : List Lexeme) :
    references (.name n :: ls) = references ls := rfl

@[simp] theorem references_sign (c : Char) (ls : List Lexeme) :
    references (.sign c :: ls) = references ls := rfl

@[simp] theorem references_reference (p : String) (ls : List Lexeme) :
    references (.reference p :: ls) = p :: references ls := rfl

@[simp] theorem references_nil : references [] = [] := rfl

theorem references_commas (items : List (List Lexeme)) :
    references (commas items) = items.flatMap references := by
  induction items with
  | nil => rfl
  | cons item rest ih =>
      cases rest with
      | nil => simp [commas]
      | cons next rest =>
          have hcommas : commas (item :: next :: rest) =
              item ++ .sign ',' :: commas (next :: rest) := by
            simp [commas]
          rw [hcommas, references_append, references_sign, ih]
          rfl

theorem references_integer (i : Int) : references (integer i) = [] := by
  cases i with
  | ofNat n => rfl
  | negSucc n => rfl

theorem references_arrow (a : Arrow) : references a.lexemes = a.entries.map Prod.snd := by
  obtain ⟨start, finish, binding, label, entries, direction⟩ := a
  have hnaming : references (Arrow.naming binding label) = [] := by
    cases binding with
    | none => rfl
    | some v => rfl
  have htail : references (Arrow.tail direction) = [] := by
    cases direction with
    | forward => rfl
    | reverse => rfl
  have hhead : references (Arrow.head direction) = [] := by
    cases direction with
    | forward => rfl
    | reverse => rfl
  have hmap : entries.flatMap (fun e => references (Arrow.entry e)) = entries.map Prod.snd := by
    induction entries with
    | nil => rfl
    | cons e rest ih => rw [List.flatMap_cons, ih]; rfl
  have hentries : references (Arrow.properties entries) = entries.map Prod.snd := by
    unfold Arrow.properties
    split
    · next hempty => simp [List.isEmpty_iff.mp hempty]
    · simp [references_commas, List.flatMap_map, hmap]
  simp [Arrow.lexemes, hnaming, htail, hhead, hentries]

theorem references_clause (c : Clause) : references c.lexemes = c.entries.map Prod.snd := by
  cases c with
  | node v id => simp [Clause.lexemes, Clause.body, Clause.keyword, Clause.condition, word,
      references_integer, Clause.entries]
  | relationship v id => simp [Clause.lexemes, Clause.body, Clause.keyword, Clause.condition,
      Clause.edgePattern, word, references_integer, Clause.entries]
  | relationships v ids => simp [Clause.lexemes, Clause.body, Clause.keyword, Clause.condition,
      Clause.edgePattern, word, references_commas, List.flatMap_map, references_integer,
      Clause.entries]
  | create arrows => simp [Clause.lexemes, Clause.body, Clause.keyword, word, references_commas,
      List.flatMap_map, references_arrow, Clause.entries, List.map_flatMap]
  | set assignments =>
      have hset : references (commas (assignments.map Assignment.lexemes)) =
          assignments.map Assignment.parameter := by
        rw [references_commas, List.flatMap_map]
        induction assignments with
        | nil => rfl
        | cons a rest ih => simpa [Assignment.lexemes, Place.lexemes] using ih
      simp [Clause.lexemes, Clause.body, Clause.keyword, word, hset, Clause.entries]
  | remove places => simp [Clause.lexemes, Clause.body, Clause.keyword, word, references_commas,
      List.flatMap_map, Place.lexemes, Clause.entries]
  | delete v => rfl
  | returns vs => simp [Clause.lexemes, Clause.body, Clause.keyword, word, references_commas,
      List.flatMap_map, Clause.entries]

theorem references?_text {s : Statement} {cs : List Clause} (h : s.Spells cs) :
    references? s.text = some ((entries cs).map Prod.snd) := by
  rw [references?, h.lexemes, Option.map_some, entries, List.map_flatMap]
  congr 1
  clear h
  induction cs with
  | nil => rfl
  | cons c cs ih => rw [List.flatMap_cons, references_append, references_clause, ih]; rfl

/-! ## Spoken names -/

theorem spoken_eq_self_iff (name : String) : spoken name = name ↔ ¬ EndsInFeed name := by
  unfold spoken EndsInFeed
  by_cases hplain : isPlain name.toList = true
  · rw [if_pos hplain]
    by_cases hlast : name.toList.getLast? = some '\n'
    · have hfeed := wordOf_append_feed hlast
      refine ⟨fun heq => ?_, fun h => absurd ⟨hplain, hlast⟩ h⟩
      rw [heq] at hfeed
      have hlength := congrArg List.length hfeed
      simp at hlength
    · exact ⟨fun _ h => hlast h.2, fun _ => wordOf_eq_self hlast⟩
  · rw [if_neg hplain]
    exact ⟨fun _ h => hplain h.1, fun _ => rfl⟩

/-! ## Resolution -/

/-- The references of a statement are its parameters in their order, and the one beside a property
key is bound to the value of that key. -/
structure Statement.Resolves (s : Statement) (properties : OrderedMap String Value) : Prop where
  order : references? s.text = some s.parameters.keys
  distinct : s.parameters.keys.Nodup
  values : ∃ cs, read s.text = some cs ∧
    (entries cs).map (fun (key, p) => (key, s.parameters.get? p)) =
      properties.entries.map fun (key, value) => (key, some value)

theorem keys_suffixed (properties : OrderedMap String Value) (suffix : String) :
    (suffixed properties suffix).map Prod.fst = properties.keys.map (· ++ suffix) := by
  simp [suffixed, OrderedMap.keys, Function.comp_def]

theorem append_left_inj (s t suffix : String) : s ++ suffix = t ++ suffix ↔ s = t := by
  refine ⟨fun h => ?_, fun h => h ▸ rfl⟩
  have hlist := congrArg String.toList h
  rw [String.toList_append, String.toList_append] at hlist
  exact String.toList_inj.mp (List.append_cancel_right hlist)

theorem entries_ofList_suffixed (properties : OrderedMap String Value) (suffix : String) :
    (OrderedMap.ofList (suffixed properties suffix)).entries = suffixed properties suffix := by
  apply OrderedMap.entries_ofList
  rw [keys_suffixed]
  exact List.Nodup.map (fun s t h => (append_left_inj s t suffix).mp h) properties.nodup_keys

/-- Where the entries of a map are bound under a suffix, each key gets back its own value. -/
theorem values_of_suffixed {parameters properties : OrderedMap String Value} {suffix : String}
    (h : ∀ entry ∈ suffixed properties suffix, entry ∈ parameters.entries) :
    properties.keys.map (fun key => (key, parameters.get? (key ++ suffix))) =
      properties.entries.map fun (key, value) => (key, some value) := by
  rw [OrderedMap.keys, List.map_map]
  apply List.map_congr_left
  rintro ⟨key, value⟩ hentry
  have hmem := h (key ++ suffix, value) (List.mem_map.mpr ⟨(key, value), hentry, rfl⟩)
  simp only [Function.comp_apply, OrderedMap.get?_of_mem hmem]

theorem resolves_iff {s : Statement} {cs : List Clause} {properties : OrderedMap String Value}
    {suffix : String} (hs : s.Spells cs) (hentries : entries cs = spokenEntries properties.keys suffix)
    (hparameters : s.parameters.entries = suffixed properties suffix) :
    s.Resolves properties ↔ ∀ key ∈ properties.keys, ¬ EndsInFeed (key ++ suffix) := by
  have hkeys : s.parameters.keys = properties.keys.map (· ++ suffix) := by
    rw [OrderedMap.keys, hparameters, keys_suffixed]
  have hspoken : references? s.text = some (properties.keys.map fun key => spoken (key ++ suffix)) := by
    rw [references?_text hs, hentries, spokenEntries, List.map_map]
    rfl
  constructor
  · intro h key hkey
    have horder := h.order
    rw [hspoken, hkeys, Option.some.injEq] at horder
    exact (spoken_eq_self_iff _).mp (List.map_inj_left.mp horder key hkey)
  · intro h
    have hself : ∀ key ∈ properties.keys, spoken (key ++ suffix) = key ++ suffix :=
      fun key hkey => (spoken_eq_self_iff _).mpr (h key hkey)
    refine ⟨?_, s.parameters.nodup_keys, cs, hs.read_eq, ?_⟩
    · rw [hspoken, hkeys, List.map_congr_left hself]
    · rw [← values_of_suffixed fun entry hentry => hparameters ▸ hentry, hentries, spokenEntries,
        List.map_map]
      apply List.map_congr_left
      intro key hkey
      simp only [Function.comp_apply, hself key hkey]

theorem entries_createClauses (e : Edge) (o : Options) :
    entries (createClauses e o) = spokenEntries e.ledger.current.keys o.suffix := by
  unfold createClauses
  cases o.withReturn with
  | false => simp [entries, Clause.entries, drawn]
  | true => simp [entries, Clause.entries, drawn]

theorem entries_updateClauses (e : Edge) (o : Options) (id : Int) :
    entries (updateClauses e o id) = spokenEntries e.ledger.pending.keys o.suffix := by
  rw [entries, flatMap_updateClauses rfl rfl fun _ => rfl]
  simp [Clause.entries, spokenAssignments, spokenEntries]

/-- References resolve exactly when no parameter name is plain and ends in a line feed. -/
theorem references_resolve_iff (e : Edge) (o : Options) :
    (∀ s, Statement.create e o = .ok s →
      (s.Resolves e.ledger.current ↔
        ∀ key ∈ e.ledger.current.keys, ¬ EndsInFeed (key ++ o.suffix))) ∧
    (∀ s, Statement.update e o = .ok s →
      (s.Resolves e.ledger.pending ↔
        ∀ key ∈ e.ledger.pending.keys, ¬ EndsInFeed (key ++ o.suffix))) := by
  refine ⟨?_, ?_⟩
  · intro s hs
    refine resolves_iff (spells_create hs) (entries_createClauses e o) ?_
    rw [create_eq_ok hs, entries_ofList_suffixed]
  · intro s hs
    obtain ⟨id, _, hspells⟩ := spells_update hs
    obtain ⟨_, _, _, heq⟩ := update_eq_ok hs
    refine resolves_iff hspells (entries_updateClauses e o id) ?_
    rw [heq, entries_ofList_suffixed]

/-- Keys with blanks, signs and digits under a suffix, in two statements that resolve. -/
theorem references_resolve_with_signs :
    ∃ e o s t, Statement.create e o = .ok s ∧ Statement.update e o = .ok t ∧
      e.ledger.current.keys = ["$a b", "1\n", ""] ∧ e.ledger.pending.keys = ["1\n"] ∧
      s.Resolves e.ledger.current ∧ t.Resolves e.ledger.pending := by
  let ledger : PropertyLedger :=
    { current := .ofList [("$a b", .int 1), ("1\n", .int 2), ("", .null)]
      pending := .ofList [("1\n", .int 2)] }
  let e : Edge :=
    { id := some 7, start := ⟨1, none⟩, finish := ⟨2, none⟩, label := "KNOWS", created := ⟨0⟩,
      updated := ⟨0⟩, ledger := ledger }
  let o : Options := { suffix := "_1" }
  have hiff := references_resolve_iff e o
  refine ⟨e, o, _, _, rfl, rfl, by decide +kernel, by decide +kernel, ?_, ?_⟩
  · exact (hiff.1 _ rfl).mpr (by decide +kernel)
  · exact (hiff.2 _ rfl).mpr (by decide +kernel)

/-- The reference beside one key is taken for the parameter of another. -/
theorem reference_taken_for_another :
    ∃ e s, Statement.create e {} = .ok s ∧
      e.ledger.current.entries = [("since\n", .int 1), ("since", .int 2)] ∧
      s.parameters.entries = [("since\n", .int 1), ("since", .int 2)] ∧
      references? s.text = some ["since", "since"] ∧ ¬ s.Resolves e.ledger.current := by
  let e : Edge :=
    { start := ⟨1, none⟩, finish := ⟨2, none⟩, label := "KNOWS", created := ⟨0⟩, updated := ⟨0⟩,
      ledger := .ofProperties (.ofList [("since\n", .int 1), ("since", .int 2)]) }
  have hread {s : Statement} (hs : Statement.create e {} = .ok s) :
      references? s.text = some ["since", "since"] := by
    rw [references?_text (spells_create hs), entries_createClauses]
    decide +kernel
  refine ⟨e, _, rfl, by decide +kernel, by decide +kernel, hread rfl, ?_⟩
  intro h
  have horder := h.order
  rw [hread rfl] at horder
  exact absurd horder (by decide +kernel)

end EdgeMapper.Cypher
