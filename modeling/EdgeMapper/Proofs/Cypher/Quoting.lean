import EdgeMapper.Proofs.Cypher.Phrases
/-!
# Quoting in statements for one edge

A statement for one edge scans to quoted identifiers and fixed text. The identifiers are the alias,
the label, the property keys and those parameter names that are not plain, each at its place; the
fixed text depends on nothing but the shape of the statement. So no name, whatever characters it
holds, can change anything outside its own quotes.
-/

namespace EdgeMapper.Cypher

open Identifier (mark isPlain)
open Template (Readable readable_join follows_nil tokens_join scan_chars)

/-! ## Skeletons -/

def Token.plain? : Token → Option Char
  | .char c => some c
  | .quoted _ => none

def Token.identifier? : Token → Option String
  | .char _ => none
  | .quoted name => some name

/-- The fixed text around the identifiers, which are left out. -/
def skeleton (ts : List Token) : List (Option Char) := ts.map Token.plain?

def identifiers (ts : List Token) : List String := ts.filterMap Token.identifier?

def fixed (text : String) : List (Option Char) := text.toList.map some

def hole : List (Option Char) := [none]

@[simp] theorem fixed_append (s t : String) : fixed (s ++ t) = fixed s ++ fixed t := by
  simp [fixed]

@[simp] theorem skeleton_nil : skeleton [] = [] := rfl

@[simp] theorem skeleton_append (ts us : List Token) :
    skeleton (ts ++ us) = skeleton ts ++ skeleton us := by
  simp [skeleton]

@[simp] theorem skeleton_plain (text : String) : skeleton (plain text) = fixed text := by
  simp [skeleton, plain, fixed, Token.plain?]

@[simp] theorem skeleton_quoted (name : String) (ts : List Token) :
    skeleton (.quoted name :: ts) = hole ++ skeleton ts := rfl

theorem skeleton_intercalate (separator : List Token) (items : List (List Token)) :
    skeleton (separator.intercalate items) =
      (skeleton separator).intercalate (items.map skeleton) := by
  induction items with
  | nil => rfl
  | cons item rest ih =>
      cases rest with
      | nil => simp
      | cons next rest =>
          rw [List.map_cons] at ih
          simp only [List.intercalate_cons_cons, List.map_cons, skeleton_append, ih]

@[simp] theorem identifiers_nil : identifiers [] = [] := rfl

@[simp] theorem identifiers_append (ts us : List Token) :
    identifiers (ts ++ us) = identifiers ts ++ identifiers us := by
  simp [identifiers]

@[simp] theorem identifiers_plain (text : String) : identifiers (plain text) = [] := by
  simp [identifiers, plain, Token.identifier?]

@[simp] theorem identifiers_quoted (name : String) (ts : List Token) :
    identifiers (.quoted name :: ts) = name :: identifiers ts := rfl

theorem identifiers_intercalate {separator : List Token} (h : identifiers separator = [])
    (items : List (List Token)) :
    identifiers (separator.intercalate items) = items.flatMap identifiers := by
  induction items with
  | nil => rfl
  | cons item rest ih =>
      cases rest with
      | nil => simp
      | cons next rest =>
          rw [List.intercalate_cons_cons, identifiers_append, identifiers_append, ih, h]
          simp

/-! ## Shapes -/

/-- A parameter name that is written as it is, and nothing for one that is quoted. -/
def plainReference (name : String) : Option String :=
  if isPlain name.toList then some name else none

def quotedReference (name : String) : List String := if isPlain name.toList then [] else [name]

/-- All that the fixed text of a statement depends on. References stand for the entries of a property
map or the assignments of an update. -/
inductive Shape where
  | create (start finish : Int) (direction : Direction) (named withReturn : Bool)
      (references : List (Option String))
  | update (id : Int) (withReturn : Bool) (references : List (Option String)) (removals : Nat)
  | delete (id : Int)

namespace Shape

def reference : Option String → List (Option Char)
  | some name => fixed ("$" ++ name)
  | none => fixed "$" ++ hole

def entries (references : List (Option String)) : List (Option Char) :=
  if references.isEmpty then []
  else
    fixed "\x7b"
      ++ (fixed ", ").intercalate (references.map fun r => hole ++ fixed ": " ++ reference r)
      ++ fixed "\x7d"

def tail : Direction → String
  | .forward => "-"
  | .reverse => "<-"

def head : Direction → String
  | .forward => "->"
  | .reverse => "-"

def matched (id : Int) : List (List (Option Char)) :=
  [fixed "MATCH ()-[" ++ hole ++ fixed "]->()",
    fixed "WHERE id(" ++ hole ++ fixed (") = " ++ toString id)]

def lines : Shape → List (List (Option Char))
  | create start finish direction named withReturn references =>
    [fixed ("MATCH (fromNode) WHERE id(fromNode) = " ++ toString start),
      fixed ("MATCH (toNode) WHERE id(toNode) = " ++ toString finish),
      fixed ("CREATE (fromNode)" ++ tail direction ++ "[")
        ++ (if named then hole else []) ++ fixed ":" ++ hole ++ entries references
        ++ fixed ("]" ++ head direction ++ "(toNode)")]
      ++ if withReturn then
          [fixed "RETURN " ++ (if named then hole ++ fixed "," else [])
            ++ fixed "fromNode,toNode"]
        else []
  | update id withReturn references removals =>
    matched id
      ++ (if references.isEmpty then []
        else [fixed "SET " ++ (fixed ", ").intercalate (references.map fun r =>
          hole ++ fixed "." ++ hole ++ fixed " = " ++ reference r)])
      ++ (if removals = 0 then []
        else [fixed "REMOVE "
          ++ (fixed ", ").intercalate (List.replicate removals (hole ++ fixed "." ++ hole))])
      ++ if withReturn then [fixed "RETURN " ++ hole] else []
  | delete id => matched id ++ [fixed "DELETE " ++ hole]

def skeleton (s : Shape) : List (Option Char) := (fixed "\n").intercalate s.lines

def ofCreate (e : Edge) (o : Options) : Shape :=
  create e.start.id e.finish.id e.direction (o.binding ≠ "") o.withReturn
    (e.ledger.current.keys.map fun key => plainReference (key ++ o.suffix))

def ofUpdate (e : Edge) (o : Options) (id : Int) : Shape :=
  update id o.withReturn (e.ledger.pending.keys.map fun key => plainReference (key ++ o.suffix))
    e.ledger.removed.length

end Shape

def aliasNames (o : Options) : List String := if o.binding = "" then [] else [o.binding]

def createNames (e : Edge) (o : Options) : List String :=
  aliasNames o
    ++ e.label :: (e.ledger.current.keys.flatMap fun key => key :: quotedReference (key ++ o.suffix))
    ++ if o.withReturn then aliasNames o else []

def updateNames (e : Edge) (o : Options) : List String :=
  [o.binding, o.binding]
    ++ (e.ledger.pending.keys.flatMap fun key =>
      o.binding :: key :: quotedReference (key ++ o.suffix))
    ++ (e.ledger.removed.flatMap fun key => [o.binding, key])
    ++ if o.withReturn then [o.binding] else []

/-- The text scans to its end, and shows exactly this skeleton and these identifiers. -/
def ScansTo (text : String) (shape : Shape) (names : List String) : Prop :=
  ∃ ts, scan text.toList = some ts ∧ skeleton ts = shape.skeleton ∧ identifiers ts = names

theorem scansTo_of_tokens {t : Template} (h : t.Readable) {shape : Shape} {names : List String}
    (hskeleton : skeleton t.tokens = shape.skeleton) (hnames : identifiers t.tokens = names) :
    ScansTo t.text shape names := by
  refine ⟨t.tokens, ?_, hskeleton, hnames⟩
  rw [Template.text, String.toList_ofList]
  exact scan_chars h

/-! ## Phrases -/

theorem skeleton_parameter (name : String) :
    skeleton (parameter name).tokens = Shape.reference (plainReference name) := by
  unfold parameter plainReference
  split
  · simp [Shape.reference]
  · simp [Shape.reference]

theorem identifiers_parameter (name : String) :
    identifiers (parameter name).tokens = quotedReference name := by
  unfold parameter quotedReference
  split
  · simp
  · simp

theorem skeleton_bindingName (binding : String) :
    skeleton (bindingName binding).tokens = if binding ≠ "" then hole else [] := by
  unfold bindingName
  by_cases h : binding = ""
  · simp [h]
  · simp [h]

theorem identifiers_bindingName (o : Options) :
    identifiers (bindingName o.binding).tokens = aliasNames o := by
  unfold bindingName aliasNames
  split
  · simp
  · simp

theorem skeleton_propertyMap (keys : List String) (suffix : String) :
    skeleton (propertyMap keys suffix).tokens =
      Shape.entries (keys.map fun key => plainReference (key ++ suffix)) := by
  unfold propertyMap Shape.entries
  cases keys with
  | nil => rfl
  | cons key rest =>
      have hentry (k : String) : skeleton (Template.tokens (mapEntry suffix k)) =
          hole ++ fixed ": " ++ Shape.reference (plainReference (k ++ suffix)) := by
        simp [mapEntry, skeleton_parameter]
      simp [Template.list, tokens_join, skeleton_intercalate, Function.comp_def, hentry]

theorem identifiers_propertyMap (keys : List String) (suffix : String) :
    identifiers (propertyMap keys suffix).tokens =
      keys.flatMap fun key => key :: quotedReference (key ++ suffix) := by
  unfold propertyMap
  cases keys with
  | nil => rfl
  | cons key rest =>
      have hentry (k : String) : identifiers (Template.tokens (mapEntry suffix k)) =
          k :: quotedReference (k ++ suffix) := by
        simp [mapEntry, identifiers_parameter]
      simp [Template.list, tokens_join, identifiers_intercalate (identifiers_plain ", "),
        List.flatMap_map, hentry]

theorem skeleton_relationship (start finish : String) (binding : Template) (label : String)
    (properties : Template) (direction : Direction) :
    skeleton (relationship start finish binding label properties direction).tokens =
      fixed ("(" ++ start ++ ")" ++ Shape.tail direction ++ "[")
        ++ skeleton binding.tokens ++ fixed ":" ++ hole ++ skeleton properties.tokens
        ++ fixed ("]" ++ Shape.head direction ++ "(" ++ finish ++ ")") := by
  cases direction with
  | forward =>
      have htail : fixed ")-" = fixed ")" ++ fixed "-" := rfl
      have hhead : fixed "]->(" = fixed "]" ++ fixed "->(" := rfl
      simp [relationship, Shape.tail, Shape.head, htail, hhead]
  | reverse =>
      have htail : fixed ")<-" = fixed ")" ++ fixed "<-" := rfl
      have hhead : fixed "]-(" = fixed "]" ++ fixed "-(" := rfl
      simp [relationship, Shape.tail, Shape.head, htail, hhead]

theorem identifiers_relationship (start finish : String) (binding : Template) (label : String)
    (properties : Template) (direction : Direction) :
    identifiers (relationship start finish binding label properties direction).tokens =
      identifiers binding.tokens ++ label :: identifiers properties.tokens := by
  cases direction with
  | forward => simp [relationship]
  | reverse => simp [relationship]

open Statement (assignments removals clause matchEdge)

theorem skeleton_clause (keyword : String) (items : List Template) :
    (clause keyword items).map (fun t => skeleton t.tokens) =
      if items.isEmpty then []
      else [fixed keyword ++ (fixed ", ").intercalate (items.map fun t => skeleton t.tokens)] := by
  unfold clause
  split
  · rfl
  · simp [Template.list, tokens_join, skeleton_intercalate, Function.comp_def]

theorem identifiers_clause (keyword : String) (items : List Template) :
    (clause keyword items).flatMap (fun t => identifiers t.tokens) =
      items.flatMap fun t => identifiers t.tokens := by
  unfold clause
  cases items with
  | nil => rfl
  | cons item rest =>
      simp [Template.list, tokens_join, identifiers_intercalate (identifiers_plain ", "),
        List.flatMap_map]

/-! ## Statements -/

theorem skeleton_lines (ts : List Template) :
    skeleton (Template.lines ts).tokens =
      (fixed "\n").intercalate (ts.map fun t => skeleton t.tokens) := by
  simp [Template.lines, tokens_join, skeleton_intercalate, Function.comp_def]

theorem identifiers_lines (ts : List Template) :
    identifiers (Template.lines ts).tokens = ts.flatMap fun t => identifiers t.tokens := by
  simp [Template.lines, tokens_join, identifiers_intercalate (identifiers_plain "\n"),
    List.flatMap_map]

theorem skeleton_returnedItems (o : Options) :
    skeleton (Template.join "," (returnedItems o)).tokens =
      (if o.binding ≠ "" then hole ++ fixed "," else []) ++ fixed "fromNode,toNode" := by
  have hnames : fixed "fromNode,toNode" = fixed "fromNode" ++ fixed "," ++ fixed "toNode" := rfl
  unfold returnedItems
  by_cases h : o.binding = ""
  · simp [h, tokens_join, hnames]
  · simp [h, tokens_join, hnames, skeleton_bindingName]

theorem identifiers_returnedItems (o : Options) :
    identifiers (Template.join "," (returnedItems o)).tokens = aliasNames o := by
  unfold returnedItems
  by_cases h : o.binding = ""
  · simp [h, tokens_join, aliasNames]
  · simp [h, tokens_join, identifiers_bindingName]

theorem create_scansTo {e : Edge} {o : Options} {s : Statement}
    (h : Statement.create e o = .ok s) :
    ScansTo s.text (.ofCreate e o) (createNames e o) := by
  have hfrom : IsWord "fromNode" := by decide
  have hto : IsWord "toNode" := by decide
  rw [create_eq_ok h]
  apply scansTo_of_tokens
  · apply readable_lines
    intro t ht
    rcases List.mem_append.mp ht with ht | ht
    · simp only [List.mem_cons, List.not_mem_nil, or_false] at ht
      rcases ht with rfl | rfl | rfl
      · exact readable_matchNode hfrom _
      · exact readable_matchNode hto _
      · exact ⟨by decide,
          readable_relationship hfrom hto (readable_bindingName o.binding) _ _ _ _⟩
    · split at ht
      · obtain rfl := List.mem_singleton.mp ht
        exact ⟨by decide, readable_join (by decide) (by decide) (readable_returnedItems o)⟩
      · simp at ht
  · have hstart : fixed "CREATE (fromNode)" = fixed "CREATE " ++ fixed "(fromNode)" := rfl
    have hfinish : fixed "(toNode)" = fixed "(" ++ fixed "toNode" ++ fixed ")" := rfl
    rw [skeleton_lines, Shape.skeleton]
    congr 1
    cases hreturn : o.withReturn with
    | false =>
        simp [matchNode, skeleton_relationship, skeleton_bindingName, skeleton_propertyMap,
          Shape.ofCreate, Shape.lines, hreturn, hstart, hfinish]
    | true =>
        simp [matchNode, skeleton_relationship, skeleton_bindingName, skeleton_propertyMap,
          skeleton_returnedItems, Shape.ofCreate, Shape.lines, hreturn, hstart, hfinish]
  · rw [identifiers_lines, createNames]
    cases hreturn : o.withReturn with
    | false =>
        simp [matchNode, identifiers_relationship, identifiers_bindingName,
          identifiers_propertyMap]
    | true =>
        simp [matchNode, identifiers_relationship, identifiers_bindingName,
          identifiers_propertyMap, identifiers_returnedItems]

theorem skeleton_matchEdge (identifier : String) (id : Int) :
    (matchEdge [.name identifier] id).map (fun t => skeleton t.tokens) = Shape.matched id := by
  simp [matchEdge, Shape.matched]

theorem identifiers_matchEdge (identifier : String) (id : Int) :
    (matchEdge [.name identifier] id).flatMap (fun t => identifiers t.tokens) =
      [identifier, identifier] := by
  simp [matchEdge]

theorem skeleton_assignments (e : Edge) (identifier suffix : String) :
    (assignments e [.name identifier] suffix).map (fun t => skeleton t.tokens) =
      (e.ledger.pending.keys.map fun key => plainReference (key ++ suffix)).map fun r =>
        hole ++ fixed "." ++ hole ++ fixed " = " ++ Shape.reference r := by
  simp [assignments, skeleton_parameter]

theorem identifiers_assignments (e : Edge) (identifier suffix : String) :
    (assignments e [.name identifier] suffix).flatMap (fun t => identifiers t.tokens) =
      e.ledger.pending.keys.flatMap fun key =>
        identifier :: key :: quotedReference (key ++ suffix) := by
  simp [assignments, List.flatMap_map, identifiers_parameter]

theorem skeleton_removals (e : Edge) (identifier : String) :
    (removals e [.name identifier]).map (fun t => skeleton t.tokens) =
      List.replicate e.ledger.removed.length (hole ++ fixed "." ++ hole) := by
  rw [removals, List.map_map, List.eq_replicate_iff]
  refine ⟨by simp, ?_⟩
  intro line hline
  obtain ⟨key, _, rfl⟩ := List.mem_map.mp hline
  simp

theorem identifiers_removals (e : Edge) (identifier : String) :
    (removals e [.name identifier]).flatMap (fun t => identifiers t.tokens) =
      e.ledger.removed.flatMap fun key => [identifier, key] := by
  simp [removals, List.flatMap_map]

theorem update_scansTo {e : Edge} {o : Options} {s : Statement}
    (h : Statement.update e o = .ok s) :
    ∃ id, e.id = some id ∧ ScansTo s.text (.ofUpdate e o id) (updateNames e o) := by
  obtain ⟨id, hid, _, rfl⟩ := update_eq_ok h
  have hname := readable_name o.binding
  refine ⟨id, hid, scansTo_of_tokens ?_ ?_ ?_⟩
  · apply readable_lines
    intro t ht
    simp only [List.mem_append] at ht
    rcases ht with ((ht | ht) | ht) | ht
    · exact readable_matchEdge hname id t ht
    · exact readable_clause (by decide) (readable_assignments e hname o.suffix) t ht
    · exact readable_clause (by decide) (readable_removals e hname) t ht
    · split at ht
      · obtain rfl := List.mem_singleton.mp ht
        exact ⟨by decide, hname⟩
      · simp at ht
  · rw [skeleton_lines, Shape.skeleton]
    congr 1
    have hset : (assignments e [.name o.binding] o.suffix).isEmpty =
        (e.ledger.pending.keys.map fun key => plainReference (key ++ o.suffix)).isEmpty := by
      simp [assignments]
    have hremove : (removals e [.name o.binding]).isEmpty = true ↔ e.ledger.removed.length = 0 := by
      simp [removals]
    simp only [List.map_append, skeleton_matchEdge, skeleton_clause, skeleton_assignments,
      skeleton_removals, Shape.ofUpdate, Shape.lines, hset, hremove]
    cases o.withReturn with
    | false => rfl
    | true => rfl
  · rw [identifiers_lines, updateNames]
    simp only [List.flatMap_append, identifiers_matchEdge, identifiers_clause,
      identifiers_assignments, identifiers_removals]
    split
    · simp
    · simp

theorem delete_scansTo {e : Edge} {o : Options} {s : Statement}
    (h : Statement.delete e o = .ok s) :
    ∃ id, e.id = some id ∧ ScansTo s.text (.delete id) [o.binding, o.binding, o.binding] := by
  obtain ⟨id, hid, _, rfl⟩ := delete_eq_ok h
  have hname := readable_name o.binding
  refine ⟨id, hid, scansTo_of_tokens ?_ ?_ ?_⟩
  · apply readable_lines
    intro t ht
    rcases List.mem_append.mp ht with ht | ht
    · exact readable_matchEdge hname id t ht
    · obtain rfl := List.mem_singleton.mp ht
      exact ⟨by decide, hname⟩
  · rw [skeleton_lines, Shape.skeleton, Shape.lines, List.map_append, skeleton_matchEdge]
    simp
  · rw [identifiers_lines, List.flatMap_append, identifiers_matchEdge]
    simp

/-- No name can escape its quotes. Whatever the alias, the label, the keys and the suffix are, the text
of a statement scans to its end; its identifiers are the alias, the label, the keys and the quoted
parameter names in the order of the template, and the text between them is fixed by the shape. -/
theorem names_stay_quoted (e : Edge) (o : Options) :
    (∀ s, Statement.create e o = .ok s → ScansTo s.text (.ofCreate e o) (createNames e o)) ∧
    (∀ s, Statement.update e o = .ok s →
      ∃ id, e.id = some id ∧ ScansTo s.text (.ofUpdate e o id) (updateNames e o)) ∧
    (∀ s, Statement.delete e o = .ok s →
      ∃ id, e.id = some id ∧ ScansTo s.text (.delete id) [o.binding, o.binding, o.binding]) :=
  ⟨fun _ h => create_scansTo h, fun _ h => update_scansTo h, fun _ h => delete_scansTo h⟩

/-- A label that tries to close its quotes and an alias made of marks, in a statement that compiles. -/
theorem names_stay_quoted_with_marks :
    ∃ e o s, Statement.create e o = .ok s ∧ e.label = "\x60]->() DELETE x //" ∧
      ScansTo s.text (.ofCreate e o)
        ["\x60\x60", "\x60]->() DELETE x //", "a\x60", "a\x60\n", "b", "\x60\x60"] := by
  let e : Edge :=
    { start := ⟨1, none⟩, finish := ⟨2, none⟩, label := "\x60]->() DELETE x //", created := ⟨0⟩,
      updated := ⟨0⟩, ledger := .ofProperties (.ofList [("a\x60", .int 1), ("b", .null)]) }
  let o : Options := { binding := "\x60\x60", suffix := "\n" }
  have hnames : createNames e o =
      ["\x60\x60", "\x60]->() DELETE x //", "a\x60", "a\x60\n", "b", "\x60\x60"] := by
    decide +kernel
  refine ⟨e, o, _, rfl, rfl, ?_⟩
  rw [← hnames]
  exact (names_stay_quoted e o).1 _ rfl

end EdgeMapper.Cypher
