import EdgeMapper.Proofs.Cypher.Lexeme
/-!
# Clauses

A reader for the clauses that statements consist of. Lexemes are divided at the keywords, lists at
their commas, and every part is then read by itself. The main statement is that the reader gets back
every list of valid clauses from their lexemes.
-/

namespace EdgeMapper.Cypher

/-! ## Syntax -/

structure Place where
  owner : Name
  key : String
  deriving DecidableEq, Repr

structure Assignment where
  place : Place
  parameter : String
  deriving DecidableEq, Repr

/-- A relationship as it is drawn in a create clause. -/
structure Arrow where
  start : Name
  finish : Name
  binding : Option Name
  label : String
  entries : List (String × String)
  direction : Direction
  deriving DecidableEq, Repr

inductive Clause where
  | node (v : Name) (id : Int)
  | relationship (v : Name) (id : Int)
  | relationships (v : Name) (ids : List Int)
  | create (arrows : List Arrow)
  | set (assignments : List Assignment)
  | remove (places : List Place)
  | delete (v : Name)
  | returns (vs : List Name)
  deriving DecidableEq, Repr

inductive Keyword where
  | matches
  | create
  | set
  | remove
  | delete
  | returns
  deriving DecidableEq, Repr

def keyword? : Lexeme → Option Keyword
  | .name (.word "MATCH") => some .matches
  | .name (.word "CREATE") => some .create
  | .name (.word "SET") => some .set
  | .name (.word "REMOVE") => some .remove
  | .name (.word "DELETE") => some .delete
  | .name (.word "RETURN") => some .returns
  | _ => none

/-! ## Writing -/

def word (text : String) : Lexeme := .name (.word text)

def commas (items : List (List Lexeme)) : List Lexeme := [Lexeme.sign ','].intercalate items

namespace Arrow

def tail : Direction → List Lexeme
  | .forward => [.sign '-']
  | .reverse => [.sign '<', .sign '-']

def head : Direction → List Lexeme
  | .forward => [.sign '-', .sign '>']
  | .reverse => [.sign '-']

def entry (e : String × String) : List Lexeme :=
  [.name (.quoted e.1), .sign ':', .reference e.2]

def properties (entries : List (String × String)) : List Lexeme :=
  if entries.isEmpty then [] else .sign '\x7b' :: (commas (entries.map entry) ++ [.sign '\x7d'])

def naming (binding : Option Name) (label : String) : List Lexeme :=
  (match binding with
    | some v => [.name v]
    | none => []) ++ [.sign ':', .name (.quoted label)]

def lexemes (a : Arrow) : List Lexeme :=
  .sign '(' :: .name a.start :: .sign ')' :: (tail a.direction ++ .sign '[' ::
    (naming a.binding a.label ++ (properties a.entries ++ .sign ']' ::
      (head a.direction ++ [.sign '(', .name a.finish, .sign ')']))))

end Arrow

def Place.lexemes (p : Place) : List Lexeme := [.name p.owner, .sign '.', .name (.quoted p.key)]

def Assignment.lexemes (a : Assignment) : List Lexeme :=
  a.place.lexemes ++ [.sign '=', .reference a.parameter]

namespace Clause

def condition (v : Name) : List Lexeme :=
  [word "WHERE", word "id", .sign '(', .name v, .sign ')']

def edgePattern (v : Name) : List Lexeme :=
  [.sign '(', .sign ')', .sign '-', .sign '[', .name v, .sign ']', .sign '-', .sign '>',
    .sign '(', .sign ')']

def keyword : Clause → Keyword
  | node _ _ | relationship _ _ | relationships _ _ => .matches
  | create _ => .create
  | set _ => .set
  | remove _ => .remove
  | delete _ => .delete
  | returns _ => .returns

def body : Clause → List Lexeme
  | node v id =>
    [.sign '(', .name v, .sign ')'] ++ (condition v ++ .sign '=' :: integer id)
  | relationship v id => edgePattern v ++ (condition v ++ .sign '=' :: integer id)
  | relationships v ids =>
    edgePattern v ++ (condition v ++ word "IN" :: .sign '[' ::
      (commas (ids.map integer) ++ [.sign ']']))
  | create arrows => commas (arrows.map Arrow.lexemes)
  | set assignments => commas (assignments.map Assignment.lexemes)
  | remove places => commas (places.map Place.lexemes)
  | delete v => [.name v]
  | returns vs => commas (vs.map fun v => [.name v])

def lexemes (c : Clause) : List Lexeme :=
  (match c.keyword with
    | .matches => word "MATCH"
    | .create => word "CREATE"
    | .set => word "SET"
    | .remove => word "REMOVE"
    | .delete => word "DELETE"
    | .returns => word "RETURN") :: c.body

end Clause

/-! ## Reading -/

/-- What stands before the first keyword, and what stands after each. -/
def sections : List Lexeme → List Lexeme × List (Keyword × List Lexeme)
  | [] => ([], [])
  | l :: rest =>
    match keyword? l with
    | some k => ([], (k, (sections rest).1) :: (sections rest).2)
    | none => (l :: (sections rest).1, (sections rest).2)

def braced (inside : Bool) : Lexeme → Bool
  | .sign '\x7b' => true
  | .sign '\x7d' => false
  | _ => inside

/-- The parts between commas; a comma between braces divides nothing. -/
def parts : Bool → List Lexeme → List (List Lexeme)
  | _, [] => [[]]
  | inside, l :: rest =>
    if inside = false ∧ l = .sign ',' then [] :: parts false rest
    else (parts (braced inside l) rest).modifyHead (l :: ·)

def readNatural (text : String) : Option Nat :=
  if text.toList.all Char.isDigit then some (Nat.ofDigitChars 10 text.toList 0) else none

def readInteger : List Lexeme → Option Int
  | [.name (.word text)] => (readNatural text).map Int.ofNat
  | [.sign '-', .name (.word text)] => (readNatural text).map fun n => -Int.ofNat n
  | _ => none

def readIds : List Lexeme → Option (Int ⊕ List Int)
  | .sign '=' :: rest => (readInteger rest).map .inl
  | .name (.word "IN") :: .sign '[' :: rest =>
    if rest.getLast? = some (.sign ']') then ((parts false rest.dropLast).mapM readInteger).map .inr
    else none
  | _ => none

def readCondition (v : Name) : List Lexeme → Option (Int ⊕ List Int)
  | .name (.word "WHERE") :: .name (.word "id") :: .sign '(' :: .name w :: .sign ')' :: rest =>
    if w = v then readIds rest else none
  | _ => none

def readMatch : List Lexeme → Option Clause
  | .sign '(' :: .name v :: .sign ')' :: rest =>
    match readCondition v rest with
    | some (.inl id) => some (.node v id)
    | _ => none
  | .sign '(' :: .sign ')' :: .sign '-' :: .sign '[' :: .name v :: .sign ']' :: .sign '-' ::
      .sign '>' :: .sign '(' :: .sign ')' :: rest =>
    (readCondition v rest).map fun
      | .inl id => .relationship v id
      | .inr ids => .relationships v ids
  | _ => none

def readEntries : List Lexeme → Option (List (String × String))
  | [.name (.quoted key), .sign ':', .reference p, .sign '\x7d'] => some [(key, p)]
  | .name (.quoted key) :: .sign ':' :: .reference p :: .sign ',' :: rest =>
    (readEntries rest).map ((key, p) :: ·)
  | _ => none

def readProperties : List Lexeme → Option (List (String × String))
  | [] => some []
  | .sign '\x7b' :: rest => readEntries rest
  | _ => none

def readBrackets : List Lexeme → Option (Option Name × String × List (String × String))
  | .name v :: .sign ':' :: .name (.quoted label) :: rest =>
    (readProperties rest).map fun entries => (some v, label, entries)
  | .sign ':' :: .name (.quoted label) :: rest =>
    (readProperties rest).map fun entries => (none, label, entries)
  | _ => none

def readFinish : Direction → List Lexeme → Option Name
  | .forward, [.sign ']', .sign '-', .sign '>', .sign '(', .name finish, .sign ')'] => some finish
  | .reverse, [.sign ']', .sign '-', .sign '(', .name finish, .sign ')'] => some finish
  | _, _ => none

def readArrowFrom (start : Name) (direction : Direction) (ls : List Lexeme) : Option Arrow := do
  let (binding, label, entries) ← readBrackets (ls.takeWhile (· ≠ .sign ']'))
  let finish ← readFinish direction (ls.dropWhile (· ≠ .sign ']'))
  pure ⟨start, finish, binding, label, entries, direction⟩

def readArrow : List Lexeme → Option Arrow
  | .sign '(' :: .name start :: .sign ')' :: .sign '-' :: .sign '[' :: rest =>
    readArrowFrom start .forward rest
  | .sign '(' :: .name start :: .sign ')' :: .sign '<' :: .sign '-' :: .sign '[' :: rest =>
    readArrowFrom start .reverse rest
  | _ => none

def readPlace : List Lexeme → Option Place
  | [.name v, .sign '.', .name (.quoted key)] => some ⟨v, key⟩
  | _ => none

def readAssignment : List Lexeme → Option Assignment
  | [.name v, .sign '.', .name (.quoted key), .sign '=', .reference p] => some ⟨⟨v, key⟩, p⟩
  | _ => none

def readVariable : List Lexeme → Option Name
  | [.name v] => some v
  | _ => none

def readClause (k : Keyword) (body : List Lexeme) : Option Clause :=
  match k with
  | .matches => readMatch body
  | .create => ((parts false body).mapM readArrow).map .create
  | .set => ((parts false body).mapM readAssignment).map .set
  | .remove => ((parts false body).mapM readPlace).map .remove
  | .delete => (readVariable body).map .delete
  | .returns => ((parts false body).mapM readVariable).map .returns

def readClauses (ls : List Lexeme) : Option (List Clause) :=
  if (sections ls).1 = [] then (sections ls).2.mapM fun part => readClause part.1 part.2 else none

/-- The clauses of a statement text. -/
def read (text : String) : Option (List Clause) := (lexemes? text).bind readClauses

/-! ## Dividing -/

def free (l : Lexeme) : Bool := (keyword? l).isNone

@[simp] theorem free_sign (c : Char) : free (.sign c) = true := rfl

@[simp] theorem free_reference (p : String) : free (.reference p) = true := rfl

@[simp] theorem free_quoted (name : String) : free (.name (.quoted name)) = true := rfl

theorem sections_append {front : List Lexeme} (h : front.all free = true) (rest : List Lexeme) :
    sections (front ++ rest) = (front ++ (sections rest).1, (sections rest).2) := by
  induction front with
  | nil => rfl
  | cons l front ih =>
      rw [List.all_cons, Bool.and_eq_true] at h
      have hl : keyword? l = none := Option.isNone_iff_eq_none.mp h.1
      rw [List.cons_append, sections, ih h.2, hl]
      rfl

theorem all_commas {p : Lexeme → Bool} (hp : p (.sign ',') = true) (items : List (List Lexeme)) :
    (commas items).all p = items.all (·.all p) := by
  induction items with
  | nil => rfl
  | cons item rest ih =>
      cases rest with
      | nil => simp [commas]
      | cons next rest =>
          have hcommas : commas (item :: next :: rest) =
              item ++ .sign ',' :: commas (next :: rest) := by
            simp [commas]
          rw [hcommas, List.all_append, List.all_cons, ih, hp, Bool.true_and]
          rfl

/-- Lexemes that stay in one part of a list. -/
def Whole (ls : List Lexeme) : Prop :=
  ∀ rest, parts false (ls ++ rest) = (parts false rest).modifyHead (ls ++ ·)

def flat (l : Lexeme) : Bool := l ≠ .sign ',' ∧ l ≠ .sign '\x7b' ∧ l ≠ .sign '\x7d'

theorem whole_nil : Whole [] := by
  intro rest
  exact (congrFun List.modifyHead_id _).symm

theorem whole_append {ls ms : List Lexeme} (hl : Whole ls) (hm : Whole ms) : Whole (ls ++ ms) := by
  intro rest
  rw [List.append_assoc, hl, hm, List.modifyHead_modifyHead]
  congr 1
  funext front
  simp

theorem braced_of_flat {l : Lexeme} (h : flat l = true) (inside : Bool) :
    braced inside l = inside := by
  unfold braced
  split
  · simp [flat] at h
  · simp [flat] at h
  · rfl

theorem whole_of_flat {ls : List Lexeme} (h : ls.all flat = true) : Whole ls := by
  induction ls with
  | nil => exact whole_nil
  | cons l ls ih =>
      rw [List.all_cons, Bool.and_eq_true] at h
      intro rest
      have hl : l ≠ .sign ',' := by
        rintro rfl
        exact absurd h.1 (by decide)
      rw [List.cons_append, parts, if_neg (fun hc => hl hc.2), braced_of_flat h.1, ih h.2,
        List.modifyHead_modifyHead]
      rfl

theorem parts_true_append {ls : List Lexeme} (h : .sign '\x7d' ∉ ls) (rest : List Lexeme) :
    parts true (ls ++ rest) = (parts true rest).modifyHead (ls ++ ·) := by
  induction ls with
  | nil => exact (congrFun List.modifyHead_id _).symm
  | cons l ls ih =>
      have hl : braced true l = true := by
        unfold braced
        split
        · rfl
        · simp at h
        · rfl
      rw [List.cons_append, parts, if_neg (fun hc => absurd hc.1 (by decide)), hl,
        ih (fun hm => h (by simp [hm])), List.modifyHead_modifyHead]
      rfl

theorem whole_braces {ls : List Lexeme} (h : .sign '\x7d' ∉ ls) :
    Whole (.sign '\x7b' :: (ls ++ [.sign '\x7d'])) := by
  intro rest
  have hopen (ms : List Lexeme) :
      parts false (.sign '\x7b' :: ms) = (parts true ms).modifyHead (.sign '\x7b' :: ·) := rfl
  have hclose (ms : List Lexeme) :
      parts true (.sign '\x7d' :: ms) = (parts false ms).modifyHead (.sign '\x7d' :: ·) := rfl
  rw [List.cons_append, hopen, List.append_assoc, parts_true_append h, List.singleton_append,
    hclose, List.modifyHead_modifyHead, List.modifyHead_modifyHead]
  congr 1
  funext front
  simp

theorem parts_commas {items : List (List Lexeme)} (hne : items ≠ [])
    (h : ∀ item ∈ items, Whole item) : parts false (commas items) = items := by
  induction items with
  | nil => exact absurd rfl hne
  | cons item rest ih =>
      have hitem : Whole item := h item (by simp)
      cases rest with
      | nil =>
          have hparts := hitem []
          rw [List.append_nil] at hparts
          simpa [commas, parts] using hparts
      | cons next rest =>
          have hrest := ih (by simp) (fun i hi => h i (by simp [hi]))
          have hcomma (ms : List Lexeme) : parts false (.sign ',' :: ms) = [] :: parts false ms :=
            rfl
          have hcommas : commas (item :: next :: rest) =
              item ++ .sign ',' :: commas (next :: rest) := by
            simp [commas]
          rw [hcommas, hitem, hcomma, hrest]
          simp

theorem mapM_map {α β : Type} {write : α → β} {read : β → Option α} {xs : List α}
    (h : ∀ x ∈ xs, read (write x) = some x) :
    (xs.map write).mapM read = some xs := by
  induction xs with
  | nil => rfl
  | cons x xs ih =>
      rw [List.map_cons, List.mapM_cons, h x (by simp), ih (fun y hy => h y (by simp [hy]))]
      rfl

/-- A list that is written with commas is read back item by item. -/
theorem mapM_parts_commas {α : Type} (write : α → List Lexeme) (read : List Lexeme → Option α)
    {xs : List α} (hne : xs ≠ []) (hwhole : ∀ x ∈ xs, Whole (write x))
    (h : ∀ x ∈ xs, read (write x) = some x) :
    (parts false (commas (xs.map write))).mapM read = some xs := by
  rw [parts_commas (by simpa using hne), mapM_map h]
  intro item hitem
  obtain ⟨x, hx, rfl⟩ := List.mem_map.mp hitem
  exact hwhole x hx

/-! ## Reading back -/

theorem readNatural_toString (n : Nat) : readNatural (toString n) = some n := by
  have hlist : (toString n).toList = Nat.toDigits 10 n := Nat.toList_repr
  have hdigits : (Nat.toDigits 10 n).all Char.isDigit = true := by
    rw [List.all_eq_true]
    exact fun c hc => Nat.isDigit_of_mem_toDigits (by decide) (by decide) hc
  rw [readNatural, hlist, if_pos hdigits, Nat.ofDigitChars_ten_toDigits]

theorem readInteger_integer (i : Int) : readInteger (integer i) = some i := by
  cases i with
  | ofNat n => simp only [integer, readInteger, readNatural_toString, Option.map_some]
  | negSucc n =>
      simp only [integer, readInteger, readNatural_toString, Option.map_some]
      rfl

theorem flat_integer (i : Int) : (integer i).all flat = true := by
  cases i with
  | ofNat n => rfl
  | negSucc n => rfl

theorem readMatch_node (v : Name) (id : Int) :
    readMatch (Clause.node v id).body = some (.node v id) := by
  simp [Clause.body, Clause.condition, word, readMatch, readCondition, readIds,
    readInteger_integer]

theorem readMatch_relationship (v : Name) (id : Int) :
    readMatch (Clause.relationship v id).body = some (.relationship v id) := by
  simp [Clause.body, Clause.edgePattern, Clause.condition, word, readMatch, readCondition,
    readIds, readInteger_integer]

theorem readMatch_relationships (v : Name) {ids : List Int} (h : ids ≠ []) :
    readMatch (Clause.relationships v ids).body = some (.relationships v ids) := by
  have hids := mapM_parts_commas integer readInteger h (fun i _ => whole_of_flat (flat_integer i))
    (fun i _ => readInteger_integer i)
  simp [Clause.body, Clause.edgePattern, Clause.condition, word, readMatch, readCondition,
    readIds, hids]

theorem readEntries_commas {entries : List (String × String)} (h : entries ≠ []) :
    readEntries (commas (entries.map Arrow.entry) ++ [.sign '\x7d']) = some entries := by
  induction entries with
  | nil => exact absurd rfl h
  | cons e rest ih =>
      cases rest with
      | nil => rfl
      | cons next rest =>
          have hcommas : commas ((e :: next :: rest).map Arrow.entry) ++ [.sign '\x7d'] =
              Arrow.entry e ++ .sign ',' ::
                (commas ((next :: rest).map Arrow.entry) ++ [.sign '\x7d']) := by
            simp [commas]
          have hread (ls : List Lexeme) : readEntries (Arrow.entry e ++ .sign ',' :: ls) =
              (readEntries ls).map (e :: ·) := rfl
          rw [hcommas, hread, ih (by simp), Option.map_some]

theorem readProperties_properties (entries : List (String × String)) :
    readProperties (Arrow.properties entries) = some entries := by
  cases entries with
  | nil => rfl
  | cons e rest => exact readEntries_commas (by simp)

theorem readBrackets_naming (binding : Option Name) (label : String)
    (entries : List (String × String)) :
    readBrackets (Arrow.naming binding label ++ Arrow.properties entries) =
      some (binding, label, entries) := by
  cases binding with
  | none => simp [Arrow.naming, readBrackets, readProperties_properties]
  | some v => simp [Arrow.naming, readBrackets, readProperties_properties]

theorem all_properties {p : Lexeme → Bool} (hp : ∀ l, l ≠ .sign ']' → p l = true)
    (entries : List (String × String)) : (Arrow.properties entries).all p = true := by
  unfold Arrow.properties
  split
  · rfl
  · simp [all_commas (hp (.sign ',') (by simp)), Arrow.entry, hp]

theorem readArrow_lexemes (a : Arrow) : readArrow a.lexemes = some a := by
  obtain ⟨start, finish, binding, label, entries, direction⟩ := a
  have hinside : ∀ l ∈ Arrow.naming binding label ++ Arrow.properties entries,
      decide (l ≠ .sign ']') = true := by
    rw [← List.all_eq_true, List.all_append, all_properties (by simp), Bool.and_true]
    cases binding with
    | none => rfl
    | some v => rfl
  have hfrom : readArrowFrom start direction (Arrow.naming binding label ++
      (Arrow.properties entries ++ .sign ']' ::
        (Arrow.head direction ++ [.sign '(', .name finish, .sign ')']))) =
      some ⟨start, finish, binding, label, entries, direction⟩ := by
    rw [readArrowFrom, ← List.append_assoc, List.takeWhile_append_of_pos hinside,
      List.dropWhile_append_of_pos hinside]
    have hfinish : readFinish direction (.sign ']' ::
        (Arrow.head direction ++ [.sign '(', .name finish, .sign ')'])) = some finish := by
      cases direction with
      | forward => rfl
      | reverse => rfl
    simp [hfinish, readBrackets_naming]
  rw [← hfrom]
  cases direction with
  | forward => rfl
  | reverse => rfl

theorem whole_arrow (a : Arrow) : Whole a.lexemes := by
  obtain ⟨start, finish, binding, label, entries, direction⟩ := a
  have hproperties : Whole (Arrow.properties entries) := by
    unfold Arrow.properties
    split
    · exact whole_nil
    · apply whole_braces
      have hinside : (commas (entries.map Arrow.entry)).all (· ≠ .sign '\x7d') = true := by
        simp [all_commas, Arrow.entry]
      intro hmem
      simpa using List.all_eq_true.mp hinside _ hmem
  have hbefore : Whole (.sign '(' :: .name start :: .sign ')' :: (Arrow.tail direction ++
      .sign '[' :: Arrow.naming binding label)) := by
    apply whole_of_flat
    cases direction with
    | forward => cases binding with
      | none => rfl
      | some v => rfl
    | reverse => cases binding with
      | none => rfl
      | some v => rfl
  have hafter : Whole (.sign ']' :: (Arrow.head direction ++
      [.sign '(', .name finish, .sign ')'])) := by
    apply whole_of_flat
    cases direction with
    | forward => rfl
    | reverse => rfl
  have hwhole := whole_append hbefore (whole_append hproperties hafter)
  simpa [Arrow.lexemes] using hwhole

/-! ## Valid clauses -/

def Name.Free (n : Name) : Prop := free (.name n) = true

structure Arrow.Valid (a : Arrow) : Prop where
  start : a.start.Free
  finish : a.finish.Free
  binding : ∀ v ∈ a.binding, v.Free

/-- No name is a keyword, and lists are not empty. -/
def Clause.Valid : Clause → Prop
  | node v _ => v.Free
  | relationship v _ => v.Free
  | relationships v ids => v.Free ∧ ids ≠ []
  | create arrows => arrows ≠ [] ∧ ∀ a ∈ arrows, a.Valid
  | set assignments => assignments ≠ [] ∧ ∀ a ∈ assignments, a.place.owner.Free
  | remove places => places ≠ [] ∧ ∀ p ∈ places, p.owner.Free
  | delete v => v.Free
  | returns vs => vs ≠ [] ∧ ∀ v ∈ vs, v.Free

theorem free_of_quoted (name : String) : (Name.quoted name).Free := rfl

theorem free_of_digit {text : String} (h : ∃ c ∈ text.toList, c.isDigit = true) :
    (Name.word text).Free := by
  obtain ⟨c, hc, hdigit⟩ := h
  have hne (keyword : String) (hk : keyword.toList.all (fun d => !d.isDigit) = true) :
      text ≠ keyword := by
    rintro rfl
    have := List.all_eq_true.mp hk c hc
    simp [hdigit] at this
  unfold Name.Free free keyword?
  split
  all_goals first
    | rfl
    | (next heq =>
        simp only [Lexeme.name.injEq, Name.word.injEq] at heq
        exact absurd heq (hne _ (by decide)))

theorem exists_isDigit_toString (n : Nat) : ∃ c ∈ (toString n).toList, c.isDigit = true := by
  have hlist : (toString n).toList = Nat.toDigits 10 n := Nat.toList_repr
  rw [hlist]
  obtain ⟨c, rest, hcons⟩ := List.exists_cons_of_ne_nil (Nat.toDigits_ne_nil (n := n) (b := 10))
  have hc : c ∈ Nat.toDigits 10 n := by simp [hcons]
  exact ⟨c, hc, Nat.isDigit_of_mem_toDigits (by decide) (by decide) hc⟩

theorem free_numbered (stem : String) (n : Nat) : (Name.word (stem ++ toString n)).Free := by
  obtain ⟨c, hc, hdigit⟩ := exists_isDigit_toString n
  exact free_of_digit ⟨c, by rw [String.toList_append]; exact List.mem_append_right _ hc, hdigit⟩

theorem all_free_integer (i : Int) : (integer i).all free = true := by
  cases i with
  | ofNat n =>
      have hn : free (.name (.word (toString n))) = true := free_of_digit (exists_isDigit_toString n)
      simp only [integer, List.all_cons, List.all_nil, hn, Bool.and_true]
  | negSucc n =>
      have hn : free (.name (.word (toString (n + 1)))) = true :=
        free_of_digit (exists_isDigit_toString (n + 1))
      simp only [integer, List.all_cons, List.all_nil, hn, free_sign, Bool.and_true]

theorem all_free_commas {α : Type} {write : α → List Lexeme} {xs : List α}
    (h : ∀ x ∈ xs, (write x).all free = true) : (commas (xs.map write)).all free = true := by
  rw [all_commas rfl, List.all_map, List.all_eq_true]
  exact h

theorem all_free_arrow {a : Arrow} (h : a.Valid) : a.lexemes.all free = true := by
  obtain ⟨start, finish, binding, label, entries, direction⟩ := a
  have hstart : free (.name start) = true := h.start
  have hfinish : free (.name finish) = true := h.finish
  have hnaming : (Arrow.naming binding label).all free = true := by
    cases binding with
    | none => rfl
    | some v =>
        have hv : free (.name v) = true := h.binding v rfl
        simp [Arrow.naming, hv]
  have hentries : (commas (entries.map Arrow.entry)).all free = true :=
    all_free_commas fun _ _ => rfl
  have hproperties : (Arrow.properties entries).all free = true := by
    unfold Arrow.properties
    split
    · rfl
    · simp only [List.all_cons, List.all_append, List.all_nil, free_sign, hentries, Bool.and_true]
  have htail : (Arrow.tail direction).all free = true := by
    cases direction with
    | forward => rfl
    | reverse => rfl
  have hhead : (Arrow.head direction).all free = true := by
    cases direction with
    | forward => rfl
    | reverse => rfl
  simp only [Arrow.lexemes, List.all_cons, List.all_append, List.all_nil, free_sign, hstart,
    hfinish, hnaming, hproperties, htail, hhead, Bool.and_true]

theorem all_free_condition {v : Name} (h : v.Free) : (Clause.condition v).all free = true := by
  have hv : free (.name v) = true := h
  simp only [Clause.condition, List.all_cons, List.all_nil, hv, free_sign, Bool.and_true]
  rfl

theorem all_free_edgePattern {v : Name} (h : v.Free) :
    (Clause.edgePattern v).all free = true := by
  have hv : free (.name v) = true := h
  simp only [Clause.edgePattern, List.all_cons, List.all_nil, hv, free_sign, Bool.and_true]

theorem all_free_body {c : Clause} (h : c.Valid) : c.body.all free = true := by
  cases c with
  | node v id =>
      have hv : free (.name v) = true := h
      simp only [Clause.body, List.all_append, List.all_cons, List.all_nil, hv, free_sign,
        all_free_condition h, all_free_integer, Bool.and_true]
  | relationship v id =>
      simp only [Clause.body, List.all_append, List.all_cons, free_sign, all_free_edgePattern h,
        all_free_condition h, all_free_integer, Bool.and_true]
  | relationships v ids =>
      have hids := all_free_commas (fun i (_ : i ∈ ids) => all_free_integer i)
      have hin : free (word "IN") = true := rfl
      simp only [Clause.body, List.all_append, List.all_cons, List.all_nil, free_sign, hin,
        all_free_edgePattern h.1, all_free_condition h.1, hids, Bool.and_true]
  | create arrows => exact all_free_commas fun a ha => all_free_arrow (h.2 a ha)
  | set assignments =>
      apply all_free_commas
      intro a ha
      have howner : free (.name a.place.owner) = true := h.2 a ha
      simp [Assignment.lexemes, Place.lexemes, howner]
  | remove places =>
      apply all_free_commas
      intro p hp
      have howner : free (.name p.owner) = true := h.2 p hp
      simp [Place.lexemes, howner]
  | delete v =>
      have hv : free (.name v) = true := h
      simp [Clause.body, hv]
  | returns vs =>
      apply all_free_commas
      intro v hv
      have hname : free (.name v) = true := h.2 v hv
      simp [hname]

/-! ## Statements -/

theorem readClause_body {c : Clause} (h : c.Valid) : readClause c.keyword c.body = some c := by
  cases c with
  | node v id => exact readMatch_node v id
  | relationship v id => exact readMatch_relationship v id
  | relationships v ids => exact readMatch_relationships v h.2
  | create arrows =>
      have hread := mapM_parts_commas Arrow.lexemes readArrow h.1 (fun a _ => whole_arrow a)
        (fun a _ => readArrow_lexemes a)
      simp [readClause, Clause.keyword, Clause.body, hread]
  | set assignments =>
      have hread := mapM_parts_commas Assignment.lexemes readAssignment h.1
        (fun _ _ => whole_of_flat rfl) (fun _ _ => rfl)
      simp [readClause, Clause.keyword, Clause.body, hread]
  | remove places =>
      have hread := mapM_parts_commas Place.lexemes readPlace h.1
        (fun _ _ => whole_of_flat rfl) (fun _ _ => rfl)
      simp [readClause, Clause.keyword, Clause.body, hread]
  | delete v => rfl
  | returns vs =>
      have hread := mapM_parts_commas (fun v => [.name v]) readVariable h.1
        (fun _ _ => whole_of_flat rfl) (fun _ _ => rfl)
      simp [readClause, Clause.keyword, Clause.body, hread]

theorem sections_lexemes {c : Clause} (h : c.Valid) (rest : List Lexeme) :
    sections (c.lexemes ++ rest) =
      ([], (c.keyword, c.body ++ (sections rest).1) :: (sections rest).2) := by
  rw [Clause.lexemes, List.cons_append]
  have hrest := sections_append (all_free_body h) rest
  cases c with
  | node v id => rw [sections, hrest]; rfl
  | relationship v id => rw [sections, hrest]; rfl
  | relationships v ids => rw [sections, hrest]; rfl
  | create arrows => rw [sections, hrest]; rfl
  | set assignments => rw [sections, hrest]; rfl
  | remove places => rw [sections, hrest]; rfl
  | delete v => rw [sections, hrest]; rfl
  | returns vs => rw [sections, hrest]; rfl

theorem sections_flatMap {cs : List Clause} (h : ∀ c ∈ cs, c.Valid) :
    sections (cs.flatMap Clause.lexemes) = ([], cs.map fun c => (c.keyword, c.body)) := by
  induction cs with
  | nil => rfl
  | cons c cs ih =>
      rw [List.flatMap_cons, sections_lexemes (h c (by simp)), ih (fun d hd => h d (by simp [hd]))]
      simp

theorem readClauses_flatMap {cs : List Clause} (h : ∀ c ∈ cs, c.Valid) :
    readClauses (cs.flatMap Clause.lexemes) = some cs := by
  rw [readClauses, sections_flatMap h, if_pos rfl]
  exact mapM_map fun c hc => readClause_body (h c hc)

end EdgeMapper.Cypher
