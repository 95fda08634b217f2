import EdgeMapper.Proofs.Cypher.Clause
import Mathlib.Data.List.Forall2
/-!
# Spelling

What the phrases of a statement spell out as lexemes, whatever comes after them. Lines spell one
clause after another, so the text of a statement is read back as its clauses.
-/

namespace EdgeMapper.Cypher

open Identifier (mark isWordPart)
open Template (Readable readable_append readable_join)
open Statement (assignments removals clause matchEdge)

/-- The template can be scanned, and becomes these lexemes unless more word characters follow. -/
structure Template.Spells (t : Template) (ls : List Lexeme) : Prop where
  readable : t.Readable
  lexemes : ∀ rest, stops rest = true → lexemes (t.tokens ++ rest) = ls ++ lexemes rest

open Template (Spells)

theorem spells_nil : Spells [] [] := ⟨trivial, fun _ _ => rfl⟩

theorem spells_word {text : String} (h : IsWord text) : Spells [.fixed text] [word text] := by
  refine ⟨readable_fixed h.mark_not_mem, ?_⟩
  intro rest hrest
  rw [Template.tokens_fixed, Template.tokens_nil, List.append_nil, lexemes_word h hrest]
  rfl

theorem spells_name (name : String) : Spells [.name name] [.name (.quoted name)] :=
  ⟨⟨Template.follows_nil, trivial⟩, fun _ _ => rfl⟩

/-- Separators that lexemes cannot run across, spelled as `sign`. -/
theorem spells_join (separator : String) (sign : List Lexeme) {c : Char} {cs : List Char}
    (hlist : separator.toList = c :: cs) (hc : isWordPart c = false)
    (hmark : mark ∉ separator.toList)
    (hsign : ∀ rest, lexemes (plain separator ++ rest) = sign ++ lexemes rest)
    {ts : List Template} {lss : List (List Lexeme)} (h : List.Forall₂ Spells ts lss) :
    Spells (Template.join separator ts) (sign.intercalate lss) := by
  have hstops (rest : List Token) : stops (plain separator ++ rest) = true := by
    simp [plain, hlist, stops, hc]
  induction h with
  | nil => exact spells_nil
  | cons ht hts ih =>
      cases hts with
      | nil => simpa [Template.join] using ht
      | cons hu hus =>
          refine ⟨readable_append ht.readable ⟨hmark, ih.readable⟩ ?_, ?_⟩
          · exact follows_fixed_append _ hlist (fun hc => hmark (by simp [hlist, hc]))
          · intro rest hrest
            rw [Template.join, Template.tokens_append, Template.tokens_fixed, List.append_assoc,
              List.append_assoc, ht.lexemes _ (hstops _), hsign, ih.lexemes rest hrest,
              List.intercalate_cons_cons]
            · simp
            · simp

theorem spells_list {ts : List Template} {lss : List (List Lexeme)}
    (h : List.Forall₂ Spells ts lss) : Spells (Template.list ts) (commas lss) :=
  spells_join ", " [.sign ','] (c := ',') rfl rfl (by decide) (fun _ => rfl) h

theorem spells_lines {ts : List Template} {lss : List (List Lexeme)}
    (h : List.Forall₂ Spells ts lss) : Spells (Template.lines ts) lss.flatten := by
  have hlines := spells_join "\n" [] (c := '\n') rfl rfl (by decide) (fun _ => rfl) h
  have hflatten : ([] : List Lexeme).intercalate lss = lss.flatten := by
    clear h hlines
    induction lss with
    | nil => rfl
    | cons ls lss ih =>
        cases lss with
        | nil => simp
        | cons ms lss => rw [List.intercalate_cons_cons, ih]; simp
  rwa [hflatten] at hlines

theorem forall₂_spells_map {α : Type} {write : α → Template} {spelled : α → List Lexeme}
    {xs : List α} (h : ∀ x ∈ xs, Spells (write x) (spelled x)) :
    List.Forall₂ Spells (xs.map write) (xs.map spelled) := by
  induction xs with
  | nil => exact .nil
  | cons x xs ih => exact .cons (h x (by simp)) (ih fun y hy => h y (by simp [hy]))

theorem forall₂_append {ts us : List Template} {lss mss : List (List Lexeme)}
    (ht : List.Forall₂ Spells ts lss) (hu : List.Forall₂ Spells us mss) :
    List.Forall₂ Spells (ts ++ us) (lss ++ mss) :=
  List.rel_append ht hu

/-! ## Phrases -/

theorem spells_matchNode {name : String} (h : IsWord name) (id : Int) :
    Spells (matchNode name id) (Clause.node (.word name) id).lexemes := by
  refine ⟨readable_matchNode h id, ?_⟩
  intro rest hrest
  have hopen (ts : List Token) : lexemes (plain "MATCH (" ++ ts) =
      word "MATCH" :: .sign '(' :: lexemes ts := rfl
  have hwhere (ts : List Token) : lexemes (plain ") WHERE id(" ++ ts) =
      .sign ')' :: word "WHERE" :: word "id" :: .sign '(' :: lexemes ts := rfl
  have hclose (ts : List Token) : lexemes (plain ") = " ++ ts) =
      .sign ')' :: .sign '=' :: lexemes ts := rfl
  simp only [matchNode, Template.tokens_fixed, Template.tokens_nil, List.append_nil, plain_append,
    List.append_assoc]
  rw [hopen, lexemes_word h rfl, hwhere, lexemes_word h rfl, hclose, lexemes_int id hrest]
  rfl

theorem spells_mapEntry (suffix key : String) :
    Spells (mapEntry suffix key) (Arrow.entry (key, spoken (key ++ suffix))) := by
  refine ⟨readable_mapEntry suffix key, ?_⟩
  intro rest hrest
  have hcolon (ts : List Token) : lexemes (plain ": " ++ ts) = .sign ':' :: lexemes ts := rfl
  simp only [mapEntry, Template.tokens_name, Template.tokens_fixed, List.cons_append,
    List.append_assoc]
  rw [lexemes_quoted, hcolon, lexemes_parameter _ hrest]
  rfl

def spokenEntries (keys : List String) (suffix : String) : List (String × String) :=
  keys.map fun key => (key, spoken (key ++ suffix))

theorem lexemes_propertyMap (keys : List String) (suffix : String) (rest : List Token) :
    lexemes ((propertyMap keys suffix).tokens ++ (plain "]" ++ rest)) =
      Arrow.properties (spokenEntries keys suffix) ++ .sign ']' :: lexemes rest := by
  have hbracket : lexemes (plain "]" ++ rest) = .sign ']' :: lexemes rest := rfl
  unfold propertyMap
  cases keys with
  | nil => exact hbracket
  | cons key keys =>
      have hopen (ts : List Token) : lexemes (plain "\x7b" ++ ts) = .sign '\x7b' :: lexemes ts := rfl
      have hclose (ts : List Token) : lexemes (plain "\x7d" ++ ts) = .sign '\x7d' :: lexemes ts := rfl
      have hlist := spells_list
        (forall₂_spells_map fun k (_ : k ∈ key :: keys) => spells_mapEntry suffix k)
      have hmap : (key :: keys).map (fun k => Arrow.entry (k, spoken (k ++ suffix))) =
          (spokenEntries (key :: keys) suffix).map Arrow.entry := by
        simp [spokenEntries]
      rw [if_neg (by simp), Template.tokens_fixed, Template.tokens_append, Template.tokens_fixed,
        Template.tokens_nil, List.append_nil, List.append_assoc, List.append_assoc, hopen,
        hlist.lexemes _ rfl, hclose, hbracket, hmap]
      simp [Arrow.properties, spokenEntries]

def bound : Option Name → List Lexeme
  | some v => [.name v]
  | none => []

theorem spells_relationship {start finish : String} (hstart : IsWord start)
    (hfinish : IsWord finish) {binding : Template} {v : Option Name}
    (hbinding : Spells binding (bound v)) (label : String) (keys : List String) (suffix : String)
    (direction : Direction) :
    Spells (relationship start finish binding label (propertyMap keys suffix) direction)
      (Arrow.lexemes ⟨.word start, .word finish, v, label, spokenEntries keys suffix,
        direction⟩) := by
  refine ⟨readable_relationship hstart hfinish hbinding.readable _ _ _ _, ?_⟩
  intro rest _
  have hparen (ts : List Token) : lexemes (plain "(" ++ ts) = .sign '(' :: lexemes ts := rfl
  have hbracket (ts : List Token) : lexemes (plain "[" ++ ts) = .sign '[' :: lexemes ts := rfl
  have hcolon (ts : List Token) : lexemes (plain ":" ++ .quoted label :: ts) =
      .sign ':' :: .name (.quoted label) :: lexemes ts := rfl
  have hclose (ts : List Token) : lexemes (plain ")" ++ ts) = .sign ')' :: lexemes ts := rfl
  have hbody (ts : List Token) : lexemes (plain "[" ++ (binding.tokens ++ (plain ":" ++
      .quoted label :: ((propertyMap keys suffix).tokens ++ (plain "]" ++ ts))))) =
      .sign '[' :: (Arrow.naming v label ++ (Arrow.properties (spokenEntries keys suffix) ++
        .sign ']' :: lexemes ts)) := by
    rw [hbracket, hbinding.lexemes _ rfl, hcolon, lexemes_propertyMap]
    cases v with
    | none => rfl
    | some v => rfl
  cases direction with
  | forward =>
      have htail (ts : List Token) : lexemes (plain ")-" ++ ts) =
          .sign ')' :: .sign '-' :: lexemes ts := rfl
      have hhead (ts : List Token) : lexemes (plain "->(" ++ ts) =
          .sign '-' :: .sign '>' :: .sign '(' :: lexemes ts := rfl
      simp only [relationship, Template.tokens_fixed, Template.tokens_append, Template.tokens_name,
        Template.tokens_nil, List.append_nil, List.nil_append, plain_append, List.append_assoc,
        List.cons_append]
      rw [hparen, lexemes_word hstart rfl, htail, hbody, hhead, lexemes_word hfinish rfl, hclose]
      simp [Arrow.lexemes, Arrow.tail, Arrow.head]
  | reverse =>
      have htail (ts : List Token) : lexemes (plain ")<-" ++ ts) =
          .sign ')' :: .sign '<' :: .sign '-' :: lexemes ts := rfl
      have hhead (ts : List Token) : lexemes (plain "-(" ++ ts) =
          .sign '-' :: .sign '(' :: lexemes ts := rfl
      simp only [relationship, Template.tokens_fixed, Template.tokens_append, Template.tokens_name,
        Template.tokens_nil, List.append_nil, List.nil_append, plain_append, List.append_assoc,
        List.cons_append]
      rw [hparen, lexemes_word hstart rfl, htail, hbody, hhead, lexemes_word hfinish rfl, hclose]
      simp [Arrow.lexemes, Arrow.tail, Arrow.head]

/-- The two lines that find the edge of a statement spell one clause. -/
theorem forall₂_matchEdge (binding : String) (id : Int) :
    ∃ lss, List.Forall₂ Spells (matchEdge [.name binding] id) lss ∧
      lss.flatten = (Clause.relationship (.quoted binding) id).lexemes := by
  have hname := readable_name binding
  refine ⟨[word "MATCH" :: Clause.edgePattern (.quoted binding),
    Clause.condition (.quoted binding) ++ .sign '=' :: integer id], ?_, by simp; rfl⟩
  refine .cons ⟨readable_matchEdge hname id _ (by simp [matchEdge]), ?_⟩
    (.cons ⟨readable_matchEdge hname id _ (by simp [matchEdge]), ?_⟩ .nil)
  · intro rest _
    rfl
  · intro rest hrest
    have hopen (ts : List Token) : lexemes (plain "WHERE id(" ++ .quoted binding :: ts) =
        word "WHERE" :: word "id" :: .sign '(' :: .name (.quoted binding) :: lexemes ts := rfl
    have hclose (ts : List Token) : lexemes (plain ") = " ++ ts) =
        .sign ')' :: .sign '=' :: lexemes ts := rfl
    simp only [Template.tokens_fixed, Template.tokens_name, Template.tokens_nil, List.append_nil,
      List.nil_append, plain_append, List.append_assoc, List.cons_append]
    rw [hopen, hclose, lexemes_int id hrest]
    rfl

def spokenAssignments (v : Name) (keys : List String) (suffix : String) : List Assignment :=
  keys.map fun key => ⟨⟨v, key⟩, spoken (key ++ suffix)⟩

def places (v : Name) (keys : List String) : List Place := keys.map fun key => ⟨v, key⟩

theorem forall₂_assignments (e : Edge) {binding : Template} {v : Name}
    (h : Spells binding [.name v]) (suffix : String) :
    List.Forall₂ Spells (assignments e binding suffix)
      ((spokenAssignments v e.ledger.pending.keys suffix).map Assignment.lexemes) := by
  rw [spokenAssignments, List.map_map]
  apply forall₂_spells_map
  intro key hkey
  refine ⟨readable_assignments e h.readable suffix _ (List.mem_map.mpr ⟨key, hkey, rfl⟩), ?_⟩
  intro rest hrest
  have hdot (ts : List Token) : lexemes (plain "." ++ .quoted key :: ts) =
      .sign '.' :: .name (.quoted key) :: lexemes ts := rfl
  have hequals (ts : List Token) : lexemes (plain " = " ++ ts) = .sign '=' :: lexemes ts := rfl
  simp only [Template.tokens_append, Template.tokens_fixed, Template.tokens_name,
    List.append_assoc, List.cons_append]
  rw [h.lexemes _ rfl, hdot, hequals, lexemes_parameter _ hrest]
  rfl

theorem forall₂_removals (e : Edge) {binding : Template} {v : Name}
    (h : Spells binding [.name v]) :
    List.Forall₂ Spells (removals e binding)
      ((places v e.ledger.removed).map Place.lexemes) := by
  rw [places, List.map_map]
  apply forall₂_spells_map
  intro key hkey
  refine ⟨readable_removals e h.readable _ (List.mem_map.mpr ⟨key, hkey, rfl⟩), ?_⟩
  intro rest _
  have hdot (ts : List Token) : lexemes (plain "." ++ .quoted key :: ts) =
      .sign '.' :: .name (.quoted key) :: lexemes ts := rfl
  simp only [Template.tokens_append, Template.tokens_fixed, Template.tokens_name,
    Template.tokens_nil, List.append_assoc, List.cons_append, List.nil_append]
  rw [h.lexemes _ rfl, hdot]
  rfl

def listing {α : Type} (make : List α → Clause) (items : List α) : List Clause :=
  if items.isEmpty then [] else [make items]

theorem flatMap_listing {α β : Type} (f : Clause → List β) {make : List α → Clause}
    (hnil : f (make []) = []) (items : List α) :
    (listing make items).flatMap f = f (make items) := by
  cases items with
  | nil => exact hnil.symm
  | cons item items => simp [listing]

theorem flatMap_returns {β : Type} {f : Clause → List β} (hreturns : ∀ names, f (.returns names) = [])
    (withReturn : Bool) (names : List Name) :
    (if withReturn then [Clause.returns names] else []).flatMap f = [] := by
  cases withReturn with
  | false => rfl
  | true => rw [if_pos rfl, List.flatMap_singleton, hreturns]

/-- What is read off an update statement comes from its matches, its assignments and its removals. -/
theorem flatMap_updating {β : Type} {f : Clause → List β} (hset : f (.set []) = [])
    (hremove : f (.remove []) = []) (hreturns : ∀ names, f (.returns names) = [])
    (found : List Clause) (as : List Assignment) (ps : List Place) (withReturn : Bool)
    (names : List Name) :
    (found ++ listing .set as ++ listing .remove ps
        ++ if withReturn then [Clause.returns names] else []).flatMap f =
      found.flatMap f ++ f (.set as) ++ f (.remove ps) := by
  rw [List.flatMap_append, List.flatMap_append, List.flatMap_append, flatMap_listing f hset,
    flatMap_listing f hremove, flatMap_returns hreturns, List.append_nil]

theorem forall₂_clause {α : Type} {keyword : String} {make : List α → Clause}
    {write : α → List Lexeme} (hmark : mark ∉ keyword.toList) (l : Lexeme)
    (hkeyword : ∀ rest, lexemes (plain keyword ++ rest) = l :: lexemes rest)
    (hmake : ∀ items, (make items).lexemes = l :: commas (items.map write))
    {ts : List Template} {items : List α} (h : List.Forall₂ Spells ts (items.map write)) :
    List.Forall₂ Spells (clause keyword ts) ((listing make items).map Clause.lexemes) := by
  cases items with
  | nil =>
      cases h
      exact .nil
  | cons item items =>
      cases h with
      | @cons t _ ts _ ht hts =>
          have hlist := spells_list (.cons ht hts)
          refine .cons ⟨⟨hmark, hlist.readable⟩, ?_⟩ .nil
          intro rest hrest
          rw [Template.tokens_fixed, List.append_assoc, hkeyword, hlist.lexemes rest hrest, hmake]
          rfl

theorem forall₂_set {ts : List Template} {items : List Assignment}
    (h : List.Forall₂ Spells ts (items.map Assignment.lexemes)) :
    List.Forall₂ Spells (clause "SET " ts) ((listing .set items).map Clause.lexemes) :=
  forall₂_clause (by decide) (word "SET") (fun _ => rfl) (fun _ => rfl) h

theorem forall₂_remove {ts : List Template} {items : List Place}
    (h : List.Forall₂ Spells ts (items.map Place.lexemes)) :
    List.Forall₂ Spells (clause "REMOVE " ts) ((listing .remove items).map Clause.lexemes) :=
  forall₂_clause (by decide) (word "REMOVE") (fun _ => rfl) (fun _ => rfl) h

theorem spells_returns {ts : List Template} {vs : List Name}
    (h : List.Forall₂ Spells ts (vs.map fun v => [.name v])) :
    Spells (.fixed "RETURN " :: Template.join "," ts) (Clause.returns vs).lexemes := by
  have hjoin := spells_join "," [.sign ','] (c := ',') rfl rfl (by decide) (fun _ => rfl) h
  refine ⟨⟨by decide, hjoin.readable⟩, ?_⟩
  intro rest hrest
  have hreturn (us : List Token) : lexemes (plain "RETURN " ++ us) = word "RETURN" :: lexemes us :=
    rfl
  rw [Template.tokens_fixed, List.append_assoc, hreturn, hjoin.lexemes rest hrest]
  rfl

theorem spells_creates {ts : List Template} {arrows : List Arrow}
    (h : List.Forall₂ Spells ts (arrows.map Arrow.lexemes)) :
    Spells (.fixed "CREATE " :: Template.join ",\n  " ts) (Clause.create arrows).lexemes := by
  have hjoin := spells_join ",\n  " [.sign ','] (c := ',') rfl rfl (by decide) (fun _ => rfl) h
  refine ⟨⟨by decide, hjoin.readable⟩, ?_⟩
  intro rest hrest
  have hcreate (us : List Token) : lexemes (plain "CREATE " ++ us) = word "CREATE" :: lexemes us :=
    rfl
  rw [Template.tokens_fixed, List.append_assoc, hcreate, hjoin.lexemes rest hrest]
  rfl

theorem forall₂_ite (withReturn : Bool) {t : Template} {c : Clause} (h : Spells t c.lexemes) :
    List.Forall₂ Spells (if withReturn then [t] else [])
      ((if withReturn then [c] else []).map Clause.lexemes) := by
  cases withReturn with
  | false => exact .nil
  | true => exact .cons h .nil

/-! ## Statements -/

/-- The text of the statement consists of these clauses. -/
structure Statement.Spells (s : Statement) (cs : List Clause) : Prop where
  lexemes : lexemes? s.text = some (cs.flatMap Clause.lexemes)
  valid : ∀ c ∈ cs, c.Valid

theorem Statement.Spells.read_eq {s : Statement} {cs : List Clause} (h : s.Spells cs) :
    read s.text = some cs := by
  rw [read, h.lexemes, Option.bind_some, readClauses_flatMap h.valid]

theorem Statement.spells_of_lines {s : Statement} {ts : List Template}
    {lss : List (List Lexeme)} {cs : List Clause} (hs : s.template = Template.lines ts)
    (h : List.Forall₂ Template.Spells ts lss) (hcs : lss.flatten = cs.flatMap Clause.lexemes)
    (hvalid : ∀ c ∈ cs, c.Valid) : s.Spells cs := by
  have hlines := spells_lines h
  refine ⟨?_, hvalid⟩
  rw [Statement.text, hs, lexemes?_text hlines.readable]
  have hlexemes := hlines.lexemes [] rfl
  rw [List.append_nil, lexemes_nil, List.append_nil, hcs] at hlexemes
  rw [hlexemes]

theorem valid_listing {α : Type} {make : List α → Clause} {items : List α}
    (h : items ≠ [] → (make items).Valid) : ∀ c ∈ listing make items, c.Valid := by
  intro c hc
  unfold listing at hc
  split at hc
  · simp at hc
  · next hne =>
      obtain rfl := List.mem_singleton.mp hc
      exact h (by simpa using hne)

def aliasOf (o : Options) : Option Name := if o.binding = "" then none else some (.quoted o.binding)

theorem free_aliasOf {o : Options} : ∀ v ∈ aliasOf o, v.Free := by
  intro v hv
  unfold aliasOf at hv
  split at hv
  · cases hv
  · obtain rfl := Option.some.inj hv
    exact free_of_quoted _

def returnedNames (o : Options) : List Name :=
  (aliasOf o).toList ++ [.word "fromNode", .word "toNode"]

def drawn (e : Edge) (o : Options) : Arrow :=
  { start := .word "fromNode", finish := .word "toNode", binding := aliasOf o, label := e.label,
    entries := spokenEntries e.ledger.current.keys o.suffix, direction := e.direction }

def createClauses (e : Edge) (o : Options) : List Clause :=
  [.node (.word "fromNode") e.start.id, .node (.word "toNode") e.finish.id,
    .create [drawn e o]]
    ++ if o.withReturn then [.returns (returnedNames o)] else []

def updateClauses (e : Edge) (o : Options) (id : Int) : List Clause :=
  .relationship (.quoted o.binding) id
    :: (listing .set (spokenAssignments (.quoted o.binding) e.ledger.pending.keys o.suffix)
      ++ listing .remove (places (.quoted o.binding) e.ledger.removed)
      ++ if o.withReturn then [.returns [.quoted o.binding]] else [])

theorem flatMap_updateClauses {β : Type} {f : Clause → List β} (hset : f (.set []) = [])
    (hremove : f (.remove []) = []) (hreturns : ∀ names, f (.returns names) = []) (e : Edge)
    (o : Options) (id : Int) :
    (updateClauses e o id).flatMap f =
      f (.relationship (.quoted o.binding) id)
        ++ f (.set (spokenAssignments (.quoted o.binding) e.ledger.pending.keys o.suffix))
        ++ f (.remove (places (.quoted o.binding) e.ledger.removed)) := by
  have h := flatMap_updating hset hremove hreturns [.relationship (.quoted o.binding) id]
    (spokenAssignments (.quoted o.binding) e.ledger.pending.keys o.suffix)
    (places (.quoted o.binding) e.ledger.removed) o.withReturn [.quoted o.binding]
  rw [List.flatMap_singleton] at h
  exact h

theorem spells_create {e : Edge} {o : Options} {s : Statement}
    (h : Statement.create e o = .ok s) : s.Spells (createClauses e o) := by
  have hfrom : IsWord "fromNode" := by decide
  have hto : IsWord "toNode" := by decide
  have hbinding : Spells (bindingName o.binding) (bound (aliasOf o)) := by
    unfold bindingName aliasOf
    split
    · exact spells_nil
    · exact spells_name o.binding
  have harrow := spells_relationship hfrom hto hbinding e.label e.ledger.current.keys o.suffix
    e.direction
  have hnodes : List.Forall₂ Spells [[.fixed "fromNode"], [.fixed "toNode"]]
      ([Name.word "fromNode", .word "toNode"].map fun v => [.name v]) :=
    .cons (spells_word hfrom) (.cons (spells_word hto) .nil)
  have hreturned : List.Forall₂ Spells (returnedItems o)
      ((returnedNames o).map fun v => [.name v]) := by
    rw [returnedNames, List.map_append]
    refine forall₂_append ?_ hnodes
    unfold bindingName aliasOf
    split
    · exact .nil
    · exact .cons (spells_name o.binding) .nil
  have hcreates : List.Forall₂ Spells _ ([drawn e o].map Arrow.lexemes) := .cons harrow .nil
  have hlines := List.Forall₂.cons (spells_matchNode hfrom e.start.id)
    (.cons (spells_matchNode hto e.finish.id)
      (.cons (spells_creates hcreates)
        (forall₂_ite o.withReturn (spells_returns hreturned))))
  rw [create_eq_ok h]
  refine Statement.spells_of_lines rfl hlines ?_ ?_
  · simp [createClauses, List.flatMap_def]
  · intro c hc
    rcases List.mem_append.mp hc with hc | hc
    · simp only [List.mem_cons, List.not_mem_nil, or_false] at hc
      rcases hc with rfl | rfl | rfl
      · exact rfl
      · exact rfl
      · refine ⟨by simp, ?_⟩
        intro a ha
        obtain rfl := List.mem_singleton.mp ha
        exact ⟨rfl, rfl, free_aliasOf⟩
    · split at hc
      · obtain rfl := List.mem_singleton.mp hc
        refine ⟨by simp [returnedNames], ?_⟩
        intro v hv
        simp only [returnedNames, List.mem_append, Option.mem_toList, List.mem_cons,
          List.not_mem_nil, or_false] at hv
        rcases hv with hv | rfl | rfl
        · exact free_aliasOf v hv
        · rfl
        · rfl
      · simp at hc

theorem valid_set {v : Name} (h : v.Free) {keys : List String} {suffix : String} :
    ∀ c ∈ listing .set (spokenAssignments v keys suffix), c.Valid := by
  refine valid_listing fun hne => ⟨hne, ?_⟩
  intro a ha
  obtain ⟨key, _, rfl⟩ := List.mem_map.mp ha
  exact h

theorem valid_remove {v : Name} (h : v.Free) {keys : List String} :
    ∀ c ∈ listing .remove (places v keys), c.Valid := by
  refine valid_listing fun hne => ⟨hne, ?_⟩
  intro p hp
  obtain ⟨key, _, rfl⟩ := List.mem_map.mp hp
  exact h

theorem spells_update {e : Edge} {o : Options} {s : Statement}
    (h : Statement.update e o = .ok s) :
    ∃ id, e.id = some id ∧ s.Spells (updateClauses e o id) := by
  obtain ⟨id, hid, _, rfl⟩ := update_eq_ok h
  refine ⟨id, hid, ?_⟩
  obtain ⟨lss, hmatch, hflatten⟩ := forall₂_matchEdge o.binding id
  have hname := spells_name o.binding
  have hset := forall₂_set (forall₂_assignments e hname o.suffix)
  have hremove := forall₂_remove (forall₂_removals e hname)
  have hreturned : List.Forall₂ Spells [[.name o.binding]]
      ([Name.quoted o.binding].map fun v => [.name v]) := .cons hname .nil
  have hreturn := forall₂_ite o.withReturn (spells_returns hreturned)
  refine Statement.spells_of_lines rfl
    (forall₂_append (forall₂_append (forall₂_append hmatch hset) hremove) hreturn) ?_ ?_
  · simp [updateClauses, hflatten, List.flatMap_def]
  · intro c hc
    simp only [updateClauses, List.mem_cons, List.mem_append] at hc
    rcases hc with rfl | (hc | hc) | hc
    · exact free_of_quoted _
    · exact valid_set (free_of_quoted _) c hc
    · exact valid_remove (free_of_quoted _) c hc
    · split at hc
      · obtain rfl := List.mem_singleton.mp hc
        exact ⟨by simp, by simp [free_of_quoted]⟩
      · simp at hc

end EdgeMapper.Cypher
