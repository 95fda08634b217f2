import EdgeMapper.Cypher.Batch
import EdgeMapper.Proofs.Cypher.Scan
/-!
# Reading the phrases of a statement

The phrases that statements are put together from are readable whatever names and keys they hold: a
name that is written without quotes holds no marks, and every name that is quoted is followed by fixed
text. The templates of all statements are readable for that reason.
-/

namespace EdgeMapper.Cypher

open Identifier (mark isPlain isWord isWordPart isWordStart)

/-! ## Plain names -/

theorem isWordPart_of_isWordStart {c : Char} (h : isWordStart c = true) : isWordPart c = true := by
  simp only [isWordStart, Bool.or_eq_true] at h
  rcases h with h | h
  · simp [isWordPart, Char.isAlphanum, h]
  · simp [isWordPart, h]

theorem isWordPart_of_mem_isWord {chars : List Char} (h : isWord chars = true) :
    ∀ c ∈ chars, isWordPart c = true := by
  cases chars with
  | nil => simp
  | cons first rest =>
      simp only [isWord, Bool.and_eq_true, List.all_eq_true] at h
      intro c hc
      rcases List.mem_cons.mp hc with rfl | hc
      · exact isWordPart_of_isWordStart h.1
      · exact h.2 c hc

/-- The word that a plain name consists of, without the line feed that may end it. -/
def wordOf (name : String) : String :=
  if name.toList.getLast? = some '\n' then String.ofList name.toList.dropLast else name

/-- A plain name that ends in a line feed: a reader takes the line feed for a blank. -/
def EndsInFeed (name : String) : Prop :=
  isPlain name.toList = true ∧ name.toList.getLast? = some '\n'

instance : DecidablePred EndsInFeed := fun name =>
  inferInstanceAs (Decidable (isPlain name.toList = true ∧ name.toList.getLast? = some '\n'))

theorem isWord_wordOf {name : String} (h : isPlain name.toList = true) : IsWord (wordOf name) := by
  unfold isPlain at h
  unfold wordOf
  split at h
  · next hlast =>
      rw [if_pos hlast]
      refine ⟨?_, ?_⟩
      · intro hnil
        rw [String.toList_ofList] at hnil
        rw [hnil] at h
        exact absurd h (by decide)
      · rw [String.toList_ofList]
        exact isWordPart_of_mem_isWord h
  · next hlast =>
      rw [if_neg hlast]
      refine ⟨?_, isWordPart_of_mem_isWord h⟩
      intro hnil
      rw [hnil] at h
      exact absurd h (by decide)

theorem wordOf_eq_self {name : String} (h : name.toList.getLast? ≠ some '\n') :
    wordOf name = name := by
  rw [wordOf, if_neg h]

theorem wordOf_append_feed {name : String} (h : name.toList.getLast? = some '\n') :
    name.toList = (wordOf name).toList ++ ['\n'] := by
  obtain ⟨front, hfront⟩ := List.getLast?_eq_some_iff.mp h
  rw [wordOf, if_pos h, String.toList_ofList, hfront, List.dropLast_concat]

theorem mark_not_mem_of_isPlain {name : String} (h : isPlain name.toList = true) :
    mark ∉ name.toList := by
  have hword := (isWord_wordOf h).mark_not_mem
  by_cases hlast : name.toList.getLast? = some '\n'
  · rw [wordOf_append_feed hlast, List.mem_append]
    exact fun hmem => hmem.elim hword (by decide)
  · rwa [wordOf_eq_self hlast] at hword

/-! ## Phrases -/

open Template (Readable Follows readable_append readable_join follows_nil)

theorem readable_fixed {text : String} (h : mark ∉ text.toList) : Readable [.fixed text] :=
  ⟨h, trivial⟩

theorem readable_name (identifier : String) : Readable [.name identifier] :=
  ⟨follows_nil, trivial⟩

theorem readable_bindingName (binding : String) : Readable (bindingName binding) := by
  unfold bindingName
  split
  · trivial
  · exact ⟨follows_nil, trivial⟩

theorem readable_parameter (name : String) : Readable (parameter name) := by
  unfold parameter
  split
  · next h =>
      apply readable_fixed
      rw [String.toList_append, List.mem_append]
      exact fun hmem => hmem.elim (by decide) (mark_not_mem_of_isPlain h)
  · exact ⟨by decide, follows_nil, trivial⟩

theorem follows_fixed_append {text : String} {c : Char} {cs : List Char} (t : Template)
    (htext : text.toList = c :: cs) (hc : c ≠ mark) : Follows (.fixed text :: t) := by
  simpa [Follows, Template.chars, Piece.chars, htext] using hc

theorem readable_mapEntry (suffix key : String) : Readable (mapEntry suffix key) :=
  ⟨follows_fixed_append _ rfl (by decide), by decide, readable_parameter _⟩

theorem readable_propertyMap (keys : List String) (suffix : String) :
    Readable (propertyMap keys suffix) := by
  unfold propertyMap
  split
  · trivial
  · refine ⟨by decide, readable_append ?_ (readable_fixed (by decide)) ?_⟩
    · apply readable_join (by decide) (by decide)
      intro t ht
      obtain ⟨key, _, rfl⟩ := List.mem_map.mp ht
      exact readable_mapEntry suffix key
    · exact follows_fixed_append _ rfl (by decide)

theorem follows_propertyMap_append (keys : List String) (suffix : String) {t : Template}
    (h : Follows t) : Follows (propertyMap keys suffix ++ t) := by
  unfold propertyMap
  split
  · exact h
  · exact follows_fixed_append _ rfl (by decide)

theorem readable_relationship {start finish : String} (hstart : IsWord start)
    (hfinish : IsWord finish) {binding : Template} (hbinding : Readable binding) (label : String)
    (keys : List String) (suffix : String) (direction : Direction) :
    Readable (relationship start finish binding label (propertyMap keys suffix) direction) := by
  have hbody : Readable (.fixed "[" :: (binding ++ .fixed ":" :: .name label ::
      (propertyMap keys suffix ++ [.fixed "]"]))) := by
    refine ⟨by decide, readable_append hbinding ⟨by decide, ?_, ?_⟩ ?_⟩
    · exact follows_propertyMap_append keys suffix (follows_fixed_append _ rfl (by decide))
    · exact readable_append (readable_propertyMap keys suffix) (readable_fixed (by decide))
        (follows_fixed_append _ rfl (by decide))
    · exact follows_fixed_append _ rfl (by decide)
  have hs := hstart.mark_not_mem
  have hf := hfinish.mark_not_mem
  cases direction with
  | forward =>
      refine ⟨?_, readable_append hbody (readable_fixed ?_)
        (follows_fixed_append _ (by rw [String.toList_append, String.toList_append]; rfl)
          (by decide))⟩
      · simp only [String.toList_append, List.mem_append, not_or]
        exact ⟨⟨by decide, hs⟩, by decide⟩
      · simp only [String.toList_append, List.mem_append, not_or]
        exact ⟨⟨by decide, hf⟩, by decide⟩
  | reverse =>
      refine ⟨?_, readable_append hbody (readable_fixed ?_)
        (follows_fixed_append _ (by rw [String.toList_append, String.toList_append]; rfl)
          (by decide))⟩
      · simp only [String.toList_append, List.mem_append, not_or]
        exact ⟨⟨by decide, hs⟩, by decide⟩
      · simp only [String.toList_append, List.mem_append, not_or]
        exact ⟨⟨by decide, hf⟩, by decide⟩

theorem readable_matchNode {name : String} (h : IsWord name) (id : Int) :
    Readable (matchNode name id) := by
  apply readable_fixed
  have hname := h.mark_not_mem
  simp only [String.toList_append, List.mem_append, not_or]
  exact ⟨⟨⟨⟨⟨by decide, hname⟩, by decide⟩, hname⟩, by decide⟩, mark_not_mem_intToString id⟩

open Statement (assignments removals clause matchEdge)

theorem readable_matchEdge {binding : Template} (h : Readable binding) (id : Int) :
    ∀ t ∈ matchEdge binding id, Readable t := by
  intro t ht
  simp only [matchEdge, List.mem_cons, List.not_mem_nil, or_false] at ht
  rcases ht with rfl | rfl
  · exact ⟨by decide, readable_append h (readable_fixed (by decide))
      (follows_fixed_append _ rfl (by decide))⟩
  · refine ⟨by decide, readable_append h (readable_fixed ?_)
      (follows_fixed_append _ (by rw [String.toList_append]; rfl) (by decide))⟩
    rw [String.toList_append, List.mem_append]
    exact fun hmem => hmem.elim (by decide) (mark_not_mem_intToString id)

theorem readable_assignments (e : Edge) {binding : Template} (h : Readable binding)
    (suffix : String) : ∀ t ∈ assignments e binding suffix, Readable t := by
  intro t ht
  obtain ⟨key, _, rfl⟩ := List.mem_map.mp ht
  refine readable_append h ⟨by decide, ?_, by decide, readable_parameter _⟩
    (follows_fixed_append _ rfl (by decide))
  exact follows_fixed_append _ rfl (by decide)

theorem readable_removals (e : Edge) {binding : Template} (h : Readable binding) :
    ∀ t ∈ removals e binding, Readable t := by
  intro t ht
  obtain ⟨key, _, rfl⟩ := List.mem_map.mp ht
  exact readable_append h ⟨by decide, follows_nil, trivial⟩ (follows_fixed_append _ rfl (by decide))

theorem readable_clause {keyword : String} (hkeyword : mark ∉ keyword.toList)
    {items : List Template} (h : ∀ t ∈ items, Readable t) :
    ∀ t ∈ clause keyword items, Readable t := by
  intro t ht
  unfold clause at ht
  split at ht
  · simp at ht
  · obtain rfl := List.mem_singleton.mp ht
    exact ⟨hkeyword, readable_join (by decide) (by decide) h⟩

/-! ## Statements -/

theorem readable_lines {ts : List Template} (h : ∀ t ∈ ts, t.Readable) :
    (Template.lines ts).Readable :=
  readable_join (by decide) (by decide) h

def returnedItems (o : Options) : List Template :=
  (if o.binding = "" then [] else [bindingName o.binding])
    ++ [[.fixed "fromNode"], [.fixed "toNode"]]

theorem readable_returnedItems (o : Options) : ∀ t ∈ returnedItems o, Readable t := by
  intro t ht
  rcases List.mem_append.mp ht with ht | ht
  · split at ht
    · simp at ht
    · obtain rfl := List.mem_singleton.mp ht
      exact readable_bindingName o.binding
  · simp only [List.mem_cons, List.not_mem_nil, or_false] at ht
    rcases ht with rfl | rfl
    · exact readable_fixed (by decide)
    · exact readable_fixed (by decide)

theorem exists_of_map_eq_ok {ε α β : Type} {x : Except ε α} {f : α → β} {b : β}
    (h : x.map f = .ok b) : ∃ a, x = .ok a ∧ b = f a := by
  cases x with
  | error failure => cases h
  | ok a => exact ⟨a, rfl, (Except.ok.inj h).symm⟩

theorem map_eq_error_iff {ε α β : Type} {x : Except ε α} {f : α → β} {failure : ε} :
    x.map f = .error failure ↔ x = .error failure := by
  cases x with
  | error other =>
      exact ⟨fun h => congrArg _ (Except.error.inj h), fun h => congrArg _ (Except.error.inj h)⟩
  | ok a => exact ⟨nofun, nofun⟩

theorem create_eq_ok {e : Edge} {o : Options} {s : Statement}
    (h : Statement.create e o = .ok s) :
    s = {
      template := Template.lines (
        [matchNode "fromNode" e.start.id, matchNode "toNode" e.finish.id,
          .fixed "CREATE " :: relationship "fromNode" "toNode" (bindingName o.binding) e.label
            (propertyMap e.ledger.current.keys o.suffix) e.direction]
          ++ if o.withReturn then [.fixed "RETURN " :: Template.join "," (returnedItems o)]
            else [])
      parameters := OrderedMap.ofList (Statement.suffixed e.ledger.current o.suffix) } := by
  unfold Statement.create at h
  split at h
  · cases h
  · exact (Except.ok.inj h).symm

theorem target_eq_ok {operation : Operation} {e : Edge} {o : Options} {id : Int}
    {binding : Template} (h : Statement.target operation e o = .ok (id, binding)) :
    e.id = some id ∧ o.binding ≠ "" ∧ binding = [.name o.binding] := by
  unfold Statement.target at h
  split at h
  · cases h
  · next id' hid =>
      split at h
      · cases h
      · next hbinding =>
          simp only [Except.ok.injEq, Prod.mk.injEq] at h
          exact ⟨by rw [hid, h.1], hbinding, h.2.symm⟩

theorem update_eq_ok {e : Edge} {o : Options} {s : Statement}
    (h : Statement.update e o = .ok s) :
    ∃ id, e.id = some id ∧ o.binding ≠ "" ∧ s = {
      template := Template.lines (
        matchEdge [.name o.binding] id
          ++ clause "SET " (assignments e [.name o.binding] o.suffix)
          ++ clause "REMOVE " (removals e [.name o.binding])
          ++ if o.withReturn then [[.fixed "RETURN ", .name o.binding]] else [])
      parameters := OrderedMap.ofList (Statement.suffixed e.ledger.pending o.suffix) } := by
  obtain ⟨⟨id, binding⟩, htarget, rfl⟩ := exists_of_map_eq_ok h
  obtain ⟨hid, hbinding, rfl⟩ := target_eq_ok htarget
  exact ⟨id, hid, hbinding, rfl⟩

theorem exists_update_iff {e : Edge} {o : Options} (ho : o.binding ≠ "") :
    (∃ s, Statement.update e o = .ok s) ↔ e.id ≠ none := by
  rw [Statement.update, Statement.target]
  cases e.id with
  | none => exact ⟨nofun, fun h => absurd rfl h⟩
  | some id =>
      simp only [if_neg ho]
      exact ⟨fun _ => nofun, fun _ => ⟨_, rfl⟩⟩

theorem delete_eq_ok {e : Edge} {o : Options} {s : Statement}
    (h : Statement.delete e o = .ok s) :
    ∃ id, e.id = some id ∧ o.binding ≠ "" ∧ s = {
      template := Template.lines (
        matchEdge [.name o.binding] id ++ [[.fixed "DELETE ", .name o.binding]]) } := by
  obtain ⟨⟨id, binding⟩, htarget, rfl⟩ := exists_of_map_eq_ok h
  obtain ⟨hid, hbinding, rfl⟩ := target_eq_ok htarget
  exact ⟨id, hid, hbinding, rfl⟩

end EdgeMapper.Cypher
