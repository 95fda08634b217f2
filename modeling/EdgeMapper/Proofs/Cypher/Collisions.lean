import EdgeMapper.Proofs.Cypher.Batches
import Mathlib.Data.List.Induction
import Mathlib.Data.List.Nodup
import Mathlib.Data.List.Pairwise
/-!
# Parameter names that two edges share

A parameter of a batch is named by a key and the position of its edge. Two positions spell the same
name exactly when the later number ends in the earlier one and the digits before that end the key at
the earlier position. A batch is refused at the first name that comes again, and an update also at an
edge without an id, whichever comes first; otherwise no entry is lost.
-/

namespace EdgeMapper.Cypher.Batch

open Statement (suffixed)

/-! ## Numerals -/

theorem toList_toString (i : Nat) : (toString i).toList = Nat.toDigits 10 i := Nat.toList_repr

theorem length_toDigits_le {i j : Nat} (h : i ≤ j) :
    (Nat.toDigits 10 i).length ≤ (Nat.toDigits 10 j).length := by
  have hpos : 0 < (Nat.toDigits 10 j).length := Nat.length_toDigits_pos
  have hj : j < 10 ^ (Nat.toDigits 10 j).length :=
    (Nat.length_toDigits_le_iff (by decide) hpos).mp (Nat.le_refl _)
  exact (Nat.length_toDigits_le_iff (by decide) hpos).mpr (Nat.lt_of_le_of_lt h hj)

/-- Under a smaller and a greater number two keys spell one name exactly when the greater number is
the smaller one after some digits, and these digits end the key under the smaller one. -/
theorem append_toString_eq_iff {i j : Nat} (hlt : i < j) (k l : String) :
    k ++ toString i = l ++ toString j ↔
      ∃ digits : String, digits ≠ "" ∧ (∀ c ∈ digits.toList, c.isDigit = true) ∧
        toString j = digits ++ toString i ∧ k = l ++ digits := by
  constructor
  · intro h
    have hlist := congrArg String.toList h
    simp only [String.toList_append, toList_toString] at hlist
    -- both numerals end the same text, so the shorter one ends the longer one
    obtain ⟨digits, hdigits⟩ : Nat.toDigits 10 i <:+ Nat.toDigits 10 j :=
      List.suffix_of_suffix_length_le ⟨k.toList, hlist⟩ ⟨l.toList, rfl⟩
        (length_toDigits_le (Nat.le_of_lt hlt))
    have hkey : k.toList = l.toList ++ digits := by
      rw [← hdigits, ← List.append_assoc] at hlist
      exact List.append_cancel_right hlist
    refine ⟨String.ofList digits, ?_, ?_, ?_, ?_⟩
    · intro hempty
      have hnil : digits = [] := by simpa using congrArg String.toList hempty
      rw [hnil, List.nil_append] at hdigits
      have hsame : toString i = toString j := by
        rw [← String.toList_inj, toList_toString, toList_toString, hdigits]
      exact Nat.ne_of_lt hlt (append_toString_injective "" (congrArg ("" ++ ·) hsame))
    · intro c hc
      rw [String.toList_ofList] at hc
      apply Nat.isDigit_of_mem_toDigits (b := 10) (n := j) (by decide) (by decide)
      rw [← hdigits]
      exact List.mem_append_left _ hc
    · rw [← String.toList_inj, String.toList_append, toList_toString, toList_toString,
        String.toList_ofList, hdigits]
    · rw [← String.toList_inj, String.toList_append, String.toList_ofList, hkey]
  · rintro ⟨digits, _, _, hnumber, rfl⟩
    rw [hnumber, String.append_assoc]

/-- Up to ten no number from one on ends a greater one. -/
theorem not_suffix_of_le_ten : ∀ j ≤ 10, ∀ i < j, 1 ≤ i →
    ¬ Nat.toDigits 10 i <:+ Nat.toDigits 10 j := by
  decide

/-! ## Clashes -/

def KeyAt (properties : Edge → OrderedMap String Value) (edges : List Edge) (i : Nat)
    (key : String) : Prop :=
  ∃ e, (i, e) ∈ numbered edges ∧ key ∈ (properties e).keys

structure Clash (properties : Edge → OrderedMap String Value) (edges : List Edge) (i : Nat)
    (k : String) (j : Nat) (l : String) : Prop where
  earlier : KeyAt properties edges i k
  later : KeyAt properties edges j l
  lt : i < j
  same : k ++ toString i = l ++ toString j

def parameterNames (properties : Edge → OrderedMap String Value) (items : List (Nat × Edge)) :
    List String :=
  items.flatMap fun (i, e) => (properties e).keys.map (· ++ toString i)

section

variable {properties : Edge → OrderedMap String Value} {edges : List Edge} {i j : Nat}
  {k l : String}

theorem position_bounds {e : Edge} (h : (i, e) ∈ numbered edges) : 1 ≤ i ∧ i ≤ edges.length := by
  have hmem : i ∈ (numbered edges).map Prod.fst := List.mem_map_of_mem h
  rw [map_fst_numbered, List.mem_range'_1] at hmem
  omega

theorem Clash.not_of_length_le_ten (hlength : edges.length ≤ 10) :
    ¬ Clash properties edges i k j l := by
  rintro ⟨⟨e, he, _⟩, ⟨f, hf, _⟩, hlt, hsame⟩
  obtain ⟨digits, _, _, hnumber, _⟩ := (append_toString_eq_iff hlt k l).mp hsame
  have hi := position_bounds he
  have hj := position_bounds hf
  apply not_suffix_of_le_ten j (by omega) i hlt hi.1
  refine ⟨digits.toList, ?_⟩
  rw [← toList_toString i, ← toList_toString j, hnumber, String.toList_append]

theorem Clash.keys_ne (h : Clash properties edges i k j l) : k ≠ l := by
  rintro rfl
  exact Nat.ne_of_lt h.lt (append_toString_injective k h.same)

theorem nodup_suffixedKeys (m : OrderedMap String Value) (suffix : String) :
    (m.keys.map (· ++ suffix)).Nodup :=
  m.nodup_keys.map fun s t h => (append_left_inj s t suffix).mp h

theorem pairwise_numbered (edges : List Edge) : (numbered edges).Pairwise fun p q => p.1 < q.1 := by
  rw [← List.pairwise_map (f := Prod.fst) (R := (· < ·)), map_fst_numbered]
  exact List.pairwise_lt_range'

theorem nodup_parameterNames_iff :
    (parameterNames properties (numbered edges)).Nodup ↔
      ∀ i k j l, ¬ Clash properties edges i k j l := by
  rw [parameterNames, List.nodup_flatMap]
  constructor
  · rintro ⟨_, hdisjoint⟩ i k j l ⟨⟨e, he, hk⟩, ⟨f, hf, hl⟩, hlt, hsame⟩
    have hne : (i, e) ≠ (j, f) := fun heq => Nat.ne_of_lt hlt (congrArg Prod.fst heq)
    have : Std.Symm (Function.onFun List.Disjoint fun p : Nat × Edge =>
      (properties p.2).keys.map (· ++ toString p.1)) := ⟨fun _ _ h => List.disjoint_symm h⟩
    refine hdisjoint.forall he hf hne (List.mem_map_of_mem hk) ?_
    rw [hsame]
    exact List.mem_map_of_mem hl
  · intro hnone
    refine ⟨fun p _ => nodup_suffixedKeys _ _, (pairwise_numbered edges).imp_of_mem ?_⟩
    rintro ⟨i, e⟩ ⟨j, f⟩ he hf hlt name hi hj
    obtain ⟨k, hk, rfl⟩ := List.mem_map.mp hi
    obtain ⟨l, hl, hsame⟩ := List.mem_map.mp hj
    exact hnone i k j l ⟨⟨e, he, hk⟩, ⟨f, hf, hl⟩, hlt, hsame.symm⟩

end

/-! ## The first name that comes again -/

/-- The first of the names that has come before. -/
def FirstRepeat (names : List String) (name : String) : Prop :=
  ∃ before after, names = before ++ name :: after ∧ before.Nodup ∧ name ∈ before

theorem exists_firstRepeat_iff (names : List String) :
    (∃ name, FirstRepeat names name) ↔ ¬ names.Nodup := by
  constructor
  · rintro ⟨name, before, after, rfl, _, hmem⟩ hnodup
    exact (List.nodup_append.mp hnodup).2.2 name hmem name (by simp) rfl
  · intro hrepeat
    induction names using List.reverseRecOn with
    | nil => exact absurd List.nodup_nil hrepeat
    | append_singleton names last ih =>
        by_cases hnodup : names.Nodup
        · refine ⟨last, names, [], rfl, hnodup, ?_⟩
          by_contra hmem
          refine hrepeat (List.nodup_append.mpr ⟨hnodup, by simp, ?_⟩)
          rintro a ha b hb rfl
          exact hmem (List.mem_singleton.mp hb ▸ ha)
        · obtain ⟨name, before, after, rfl, hbefore, hmem⟩ := ih hnodup
          exact ⟨name, before, after ++ [last], by simp, hbefore, hmem⟩

theorem FirstRepeat.unique {names : List String} {s t : String} (hs : FirstRepeat names s)
    (ht : FirstRepeat names t) : s = t := by
  obtain ⟨before, after, rfl, hnodup, hmem⟩ := hs
  obtain ⟨before', after', heq, hnodup', hmem'⟩ := ht
  -- a longer beginning would hold the name that the shorter one is followed by twice
  rcases List.append_eq_append_iff.mp heq with ⟨more, rfl, hmore⟩ | ⟨more, rfl, hmore⟩
  · cases more with
    | nil => exact (List.cons.inj hmore).1
    | cons c more =>
        obtain ⟨rfl, _⟩ := List.cons.inj hmore
        exact absurd rfl ((List.nodup_append.mp hnodup').2.2 s hmem s (by simp))
  · cases more with
    | nil => exact (List.cons.inj hmore).1.symm
    | cons c more =>
        obtain ⟨rfl, _⟩ := List.cons.inj hmore
        exact absurd rfl ((List.nodup_append.mp hnodup).2.2 t hmem' t (by simp))

/-! ## Binding -/

theorem keys_insert_of_not_contains {bound : OrderedMap String Value} {name : String}
    (h : ¬ bound.contains name = true) (value : Value) :
    (bound.insert name value).keys = bound.keys ++ [name] := by
  rw [OrderedMap.keys_insert, if_neg fun hmem => h ((bound.contains_iff name).mpr hmem)]

theorem bind_of_nodup {bound : OrderedMap String Value} {entries : List (String × Value)}
    (h : (bound.keys ++ entries.map Prod.fst).Nodup) :
    ∃ parameters, bind bound entries = .ok parameters := by
  induction entries generalizing bound with
  | nil => exact ⟨bound, rfl⟩
  | cons entry rest ih =>
      obtain ⟨name, value⟩ := entry
      have hfree : ¬ bound.contains name = true := by
        rw [OrderedMap.contains_iff]
        exact fun hmem => (List.nodup_append.mp h).2.2 name hmem name (by simp) rfl
      rw [bind, if_neg hfree]
      apply ih
      rw [keys_insert_of_not_contains hfree]
      simpa using h

theorem bind_of_firstRepeat {bound : OrderedMap String Value} {entries : List (String × Value)}
    {name : String} (h : FirstRepeat (bound.keys ++ entries.map Prod.fst) name) :
    bind bound entries = .error (.refused (.sharedParameter name)) := by
  induction entries generalizing bound with
  | nil =>
      rw [List.map_nil, List.append_nil] at h
      exact absurd bound.nodup_keys ((exists_firstRepeat_iff _).mp ⟨name, h⟩)
  | cons entry rest ih =>
      obtain ⟨first, value⟩ := entry
      by_cases htaken : bound.contains first = true
      · rw [bind, if_pos htaken]
        have hfirst : FirstRepeat (bound.keys ++ first :: rest.map Prod.fst) first :=
          ⟨bound.keys, rest.map Prod.fst, rfl, bound.nodup_keys, (bound.contains_iff first).mp htaken⟩
        rw [hfirst.unique h]
      · rw [bind, if_neg htaken]
        apply ih
        rw [keys_insert_of_not_contains htaken]
        simpa using h

theorem bind_eq_error_iff {bound : OrderedMap String Value} {entries : List (String × Value)}
    {failure : Failure} :
    bind bound entries = .error failure ↔
      ∃ name, FirstRepeat (bound.keys ++ entries.map Prod.fst) name ∧
        failure = .refused (.sharedParameter name) := by
  constructor
  · intro h
    by_cases hnodup : (bound.keys ++ entries.map Prod.fst).Nodup
    · obtain ⟨parameters, hok⟩ := bind_of_nodup hnodup
      rw [hok] at h
      cases h
    · obtain ⟨name, hname⟩ := (exists_firstRepeat_iff _).mpr hnodup
      rw [bind_of_firstRepeat hname] at h
      exact ⟨name, hname, (Except.error.inj h).symm⟩
  · rintro ⟨name, hname, rfl⟩
    exact bind_of_firstRepeat hname

/-! ## Targets -/

structure Sound (items : List (Nat × Edge)) : Prop where
  ids : ∀ p ∈ items, p.2.id ≠ none
  names : (parameterNames (·.ledger.pending) items).Nodup

/-- What is wrong with an item after sound ones: it has no id, or else it asks for a name that is
taken. -/
inductive Fault (before : List (Nat × Edge)) (i : Nat) (e : Edge) : Failure → Prop where
  | missing (hid : e.id = none) : Fault before i e (.missingId (.batch i))
  | shared {name : String} (hid : e.id ≠ none)
    (hname : FirstRepeat (parameterNames (·.ledger.pending) (before ++ [(i, e)])) name) :
    Fault before i e (.refused (.sharedParameter name))

def FirstFault (items : List (Nat × Edge)) (failure : Failure) : Prop :=
  ∃ before i e after, items = before ++ (i, e) :: after ∧ Sound before ∧ Fault before i e failure

theorem parameterNames_append (properties : Edge → OrderedMap String Value)
    (items more : List (Nat × Edge)) :
    parameterNames properties (items ++ more) =
      parameterNames properties items ++ parameterNames properties more := by
  simp [parameterNames]

theorem parameterNames_singleton (properties : Edge → OrderedMap String Value) (i : Nat) (e : Edge) :
    parameterNames properties [(i, e)] = (suffixed (properties e) (toString i)).map Prod.fst := by
  simp [parameterNames, keys_suffixed]

theorem Sound.of_append {items more : List (Nat × Edge)} (h : Sound (items ++ more)) :
    Sound items := by
  refine ⟨fun p hp => h.ids p (List.mem_append_left _ hp), ?_⟩
  have hnames := h.names
  rw [parameterNames_append, List.nodup_append] at hnames
  exact hnames.1

section

variable {before : List (Nat × Edge)} {i : Nat} {e : Edge} {failure : Failure}

theorem Fault.not_sound (h : Fault before i e failure) : ¬ Sound (before ++ [(i, e)]) := by
  intro hsound
  cases h with
  | missing hid => exact hsound.ids (i, e) (by simp) hid
  | shared hid hname => exact (exists_firstRepeat_iff _).mp ⟨_, hname⟩ hsound.names

theorem Fault.unique {other : Failure} (h : Fault before i e failure)
    (hother : Fault before i e other) : failure = other := by
  cases h with
  | missing hid =>
      cases hother with
      | missing _ => rfl
      | shared hne _ => exact absurd hid hne
  | shared hid hname =>
      cases hother with
      | missing hnone => exact absurd hnone hid
      | shared _ hname' => rw [hname.unique hname']

end

theorem FirstFault.not_sound {items : List (Nat × Edge)} {failure : Failure}
    (h : FirstFault items failure) : ¬ Sound items := by
  obtain ⟨before, i, e, after, rfl, _, hfault⟩ := h
  rw [List.append_cons]
  exact fun hsound => hfault.not_sound hsound.of_append

theorem FirstFault.unique {items : List (Nat × Edge)} {failure other : Failure}
    (h : FirstFault items failure) (hother : FirstFault items other) : failure = other := by
  obtain ⟨before, i, e, after, rfl, hbefore, hfault⟩ := h
  obtain ⟨before', j, f, after', heq, hbefore', hfault'⟩ := hother
  -- a longer sound beginning would hold the item that the other one finds wrong
  rcases List.append_eq_append_iff.mp heq with ⟨more, rfl, hmore⟩ | ⟨more, rfl, hmore⟩
  · cases more with
    | nil =>
        obtain ⟨hitem, _⟩ := List.cons.inj hmore
        obtain ⟨rfl, rfl⟩ := Prod.mk.inj hitem
        rw [List.append_nil] at hfault'
        exact hfault.unique hfault'
    | cons c more =>
        obtain ⟨rfl, _⟩ := List.cons.inj hmore
        rw [List.append_cons] at hbefore'
        exact absurd hbefore'.of_append hfault.not_sound
  · cases more with
    | nil =>
        obtain ⟨hitem, _⟩ := List.cons.inj hmore
        obtain ⟨rfl, rfl⟩ := Prod.mk.inj hitem
        rw [List.append_nil] at hfault
        exact hfault.unique hfault'
    | cons c more =>
        obtain ⟨rfl, _⟩ := List.cons.inj hmore
        rw [List.append_cons] at hbefore
        exact absurd hbefore.of_append hfault'.not_sound

theorem targets_cases {before items : List (Nat × Edge)} {bound : OrderedMap String Value}
    (hsound : Sound before) (hbound : bound.keys = parameterNames (·.ledger.pending) before) :
    (∃ found, targets items bound = .ok found ∧ Sound (before ++ items)) ∨
    ∃ failure middle i e after, targets items bound = .error failure ∧
      items = middle ++ (i, e) :: after ∧ Sound (before ++ middle) ∧
      Fault (before ++ middle) i e failure := by
  induction items generalizing before bound with
  | nil => exact .inl ⟨_, rfl, by simpa using hsound⟩
  | cons item rest ih =>
      obtain ⟨i, e⟩ := item
      have hnames : bound.keys ++ (suffixed e.ledger.pending (toString i)).map Prod.fst =
          parameterNames (·.ledger.pending) (before ++ [(i, e)]) := by
        rw [parameterNames_append, parameterNames_singleton, hbound]
      -- the head is wrong unless it has an id and all its names can be bound
      have hhead {failure : Failure} (h : targets ((i, e) :: rest) bound = .error failure)
          (hfault : Fault before i e failure) :
          ∃ failure middle j f after, targets ((i, e) :: rest) bound = .error failure ∧
            (i, e) :: rest = middle ++ (j, f) :: after ∧ Sound (before ++ middle) ∧
            Fault (before ++ middle) j f failure :=
        ⟨failure, [], i, e, rest, h, rfl, by simpa using hsound, by simpa using hfault⟩
      cases hid : e.id with
      | none => exact .inr (hhead (by simp only [targets, hid]) (.missing hid))
      | some id =>
          have hne : e.id ≠ none := by simp [hid]
          cases hbind : bind bound (suffixed e.ledger.pending (toString i)) with
          | error failure =>
              obtain ⟨name, hname, rfl⟩ := bind_eq_error_iff.mp hbind
              rw [hnames] at hname
              exact .inr (hhead (by simp only [targets, hid, hbind]) (.shared hne hname))
          | ok extended =>
              have hextended :
                  extended.keys = parameterNames (·.ledger.pending) (before ++ [(i, e)]) := by
                rw [← hnames, OrderedMap.keys, bind_eq_ok hbind, List.map_append, OrderedMap.keys]
              have hnext : Sound (before ++ [(i, e)]) := by
                refine ⟨?_, hextended ▸ extended.nodup_keys⟩
                intro p hp
                rcases List.mem_append.mp hp with hp | hp
                · exact hsound.ids p hp
                · rw [List.mem_singleton.mp hp]
                  exact hne
              rcases ih hnext hextended with
                ⟨found, hfound, hrest⟩ | ⟨failure, middle, j, f, after, hfailure, rfl, hmiddle, hfault⟩
              · refine .inl ⟨((⟨i, id, e⟩ : Target) :: found.1, found.2), ?_, by simpa using hrest⟩
                simp only [targets, hid, hbind, hfound]
                rfl
              · refine .inr ⟨failure, (i, e) :: middle, j, f, after, ?_, rfl, by simpa using hmiddle,
                  by simpa using hfault⟩
                simp only [targets, hid, hbind, hfailure]
                rfl

theorem targets_outcome (items : List (Nat × Edge)) :
    (∃ found, targets items ∅ = .ok found ∧ Sound items) ∨
      ∃ failure, targets items ∅ = .error failure ∧ FirstFault items failure := by
  have hnil : Sound [] := ⟨by simp, List.nodup_nil⟩
  have hbound : (∅ : OrderedMap String Value).keys = parameterNames (·.ledger.pending) [] := rfl
  rcases targets_cases hnil hbound with
    hfound | ⟨failure, before, i, e, after, hfailure, hitems, hbefore, hfault⟩
  · exact .inl hfound
  · exact .inr ⟨failure, hfailure, before, i, e, after, hitems, hbefore, hfault⟩

/-! ## Statements -/

section

variable {edges : List Edge} {withReturn : Bool}

theorem sound_numbered_iff :
    Sound (numbered edges) ↔
      (∀ e ∈ edges, e.id ≠ none) ∧ ∀ i k j l, ¬ Clash (·.ledger.pending) edges i k j l := by
  have hids : (∀ p ∈ numbered edges, p.2.id ≠ none) ↔ ∀ e ∈ edges, e.id ≠ none := by
    conv_rhs => rw [← map_snd_numbered edges]
    simp only [List.mem_map, forall_exists_index, and_imp, forall_apply_eq_imp_iff₂]
  rw [← hids, ← nodup_parameterNames_iff]
  exact ⟨fun h => ⟨h.ids, h.names⟩, fun h => ⟨h.1, h.2⟩⟩

theorem map_fst_createEntries :
    ((numbered edges).flatMap fun (i, e) => suffixed e.ledger.current (toString i)).map Prod.fst =
      parameterNames (·.ledger.current) (numbered edges) := by
  simp only [parameterNames, List.map_flatMap, keys_suffixed]

theorem create_eq_error_iff (hne : edges ≠ []) {failure : Failure} :
    create edges withReturn = .error failure ↔
      ∃ name, FirstRepeat (parameterNames (·.ledger.current) (numbered edges)) name ∧
        failure = .refused (.sharedParameter name) := by
  have hbind : bind ∅ ((numbered edges).flatMap fun (i, e) =>
      suffixed e.ledger.current (toString i)) = .error failure ↔ _ := bind_eq_error_iff
  rw [map_fst_createEntries, OrderedMap.keys_empty, List.nil_append] at hbind
  rw [← hbind, create, if_neg (by simpa using hne)]
  exact map_eq_error_iff

theorem update_eq_error_iff (hne : edges ≠ []) {failure : Failure} :
    update edges withReturn = .error failure ↔ FirstFault (numbered edges) failure := by
  rw [update, if_neg (by simpa using hne)]
  rcases targets_outcome (numbered edges) with ⟨found, hfound, hsound⟩ | ⟨other, hother, hfault⟩
  · rw [hfound]
    exact ⟨nofun, fun h => absurd hsound h.not_sound⟩
  · rw [hother]
    refine ⟨fun h => ?_, fun h => congrArg _ (hfault.unique h)⟩
    obtain rfl := Except.error.inj h
    exact hfault

theorem exists_update_iff (hne : edges ≠ []) :
    (∃ s, update edges withReturn = .ok s) ↔ Sound (numbered edges) := by
  rw [update, if_neg (by simpa using hne)]
  rcases targets_outcome (numbered edges) with ⟨found, hfound, hsound⟩ | ⟨other, hother, hfault⟩
  · rw [hfound]
    exact ⟨fun _ => hsound, fun _ => ⟨_, rfl⟩⟩
  · rw [hother]
    exact ⟨nofun, fun h => absurd h hfault.not_sound⟩

theorem exists_create_iff (hne : edges ≠ []) :
    (∃ s, create edges withReturn = .ok s) ↔
      ∀ i k j l, ¬ Clash (·.ledger.current) edges i k j l := by
  rw [← nodup_parameterNames_iff]
  cases hcreate : create edges withReturn with
  | ok s =>
      refine ⟨fun _ => ?_, fun _ => ⟨s, rfl⟩⟩
      rw [← map_fst_createEntries, ← (create_eq_ok hcreate).2.1]
      exact s.parameters.nodup_keys
  | error failure =>
      obtain ⟨name, hname, _⟩ := (create_eq_error_iff hne).mp hcreate
      exact ⟨nofun, fun h => absurd h ((exists_firstRepeat_iff _).mp ⟨name, hname⟩)⟩

end

/-- What a clash says about the keys and the positions. -/
structure ClashLaw (properties : Edge → OrderedMap String Value) (edges : List Edge) : Prop where
  digits : ∀ i k j l, Clash properties edges i k j l ↔
    KeyAt properties edges i k ∧ KeyAt properties edges j l ∧ i < j ∧
      ∃ digits : String, digits ≠ "" ∧ (∀ c ∈ digits.toList, c.isDigit = true) ∧
        toString j = digits ++ toString i ∧ k = l ++ digits
  few : edges.length ≤ 10 → ∀ i k j l, ¬ Clash properties edges i k j l
  different : ∀ i k j l, Clash properties edges i k j l → k ≠ l

structure CreateBinds (edges : List Edge) (result : Except Failure Statement) : Prop where
  refused : (∃ name, result = .error (.refused (.sharedParameter name))) ↔
    ∃ i k j l, Clash (·.ledger.current) edges i k j l
  /-- The name that is refused is the first that comes again, and nothing else can go wrong. -/
  failure : ∀ failure, result = .error failure ↔
    ∃ name, FirstRepeat (parameterNames (·.ledger.current) (numbered edges)) name ∧
      failure = .refused (.sharedParameter name)
  complete : (∀ i k j l, ¬ Clash (·.ledger.current) edges i k j l) → ∃ s, result = .ok s ∧
    s.parameters.entries = (numbered edges).flatMap fun (i, e) =>
      e.ledger.current.entries.map fun entry => (entry.1 ++ toString i, entry.2)

structure UpdateBinds (edges : List Edge) (result : Except Failure Statement) : Prop where
  refused : (∃ failure, result = .error failure) ↔
    (∃ e ∈ edges, e.id = none) ∨ ∃ i k j l, Clash (·.ledger.pending) edges i k j l
  failure : ∀ failure, result = .error failure ↔ FirstFault (numbered edges) failure
  complete : (∀ e ∈ edges, e.id ≠ none) → (∀ i k j l, ¬ Clash (·.ledger.pending) edges i k j l) →
    ∃ s, result = .ok s ∧
      s.parameters.entries = (numbered edges).flatMap fun (i, e) =>
        e.ledger.pending.entries.map fun entry => (entry.1 ++ toString i, entry.2)

theorem clashLaw (properties : Edge → OrderedMap String Value) (edges : List Edge) :
    ClashLaw properties edges where
  digits := by
    intro i k j l
    constructor
    · rintro ⟨hk, hl, hlt, hsame⟩
      exact ⟨hk, hl, hlt, (append_toString_eq_iff hlt k l).mp hsame⟩
    · rintro ⟨hk, hl, hlt, hdigits⟩
      exact ⟨hk, hl, hlt, (append_toString_eq_iff hlt k l).mpr hdigits⟩
  few := fun hlength _ _ _ _ => Clash.not_of_length_le_ten hlength
  different := fun _ _ _ _ h => h.keys_ne

section

variable {edges : List Edge} (withReturn : Bool)

theorem createBinds (hne : edges ≠ []) : CreateBinds edges (create edges withReturn) where
  refused := by
    constructor
    · rintro ⟨name, hname⟩
      by_contra hnone
      have hnone : ∀ i k j l, ¬ Clash (·.ledger.current) edges i k j l :=
        fun i k j l h => hnone ⟨i, k, j, l, h⟩
      obtain ⟨s, hs⟩ : ∃ s, create edges withReturn = .ok s := (exists_create_iff hne).mpr hnone
      rw [hs] at hname
      cases hname
    · rintro ⟨i, k, j, l, hclash⟩
      cases hcreate : create edges withReturn with
      | ok s => exact absurd hclash ((exists_create_iff hne).mp ⟨s, hcreate⟩ i k j l)
      | error failure =>
          obtain ⟨name, _, rfl⟩ := (create_eq_error_iff hne).mp hcreate
          exact ⟨name, rfl⟩
  failure := fun _ => create_eq_error_iff hne
  complete := by
    intro hnone
    obtain ⟨s, hs⟩ : ∃ s, create edges withReturn = .ok s := (exists_create_iff hne).mpr hnone
    exact ⟨s, hs, (create_eq_ok hs).2.1⟩

theorem updateBinds (hne : edges ≠ []) : UpdateBinds edges (update edges withReturn) where
  refused := by
    have hsound : (∃ s, update edges withReturn = .ok s) ↔ _ := exists_update_iff hne
    rw [sound_numbered_iff] at hsound
    cases hupdate : update edges withReturn with
    | ok s =>
        obtain ⟨hids, hnone⟩ := hsound.mp ⟨s, hupdate⟩
        refine ⟨nofun, ?_⟩
        rintro (⟨e, he, hid⟩ | ⟨i, k, j, l, hclash⟩)
        · exact absurd hid (hids e he)
        · exact absurd hclash (hnone i k j l)
    | error failure =>
        refine ⟨fun _ => ?_, fun _ => ⟨failure, rfl⟩⟩
        by_contra hall
        simp only [not_or, not_exists, not_and] at hall
        obtain ⟨s, hs⟩ := hsound.mpr ⟨hall.1, hall.2⟩
        rw [hs] at hupdate
        cases hupdate
  failure := fun _ => update_eq_error_iff hne
  complete := by
    intro hids hnone
    obtain ⟨s, hs⟩ := (exists_update_iff hne).mpr (sound_numbered_iff.mpr ⟨hids, hnone⟩)
    obtain ⟨_, _, _, _, hentries, _⟩ := update_eq_ok hs
    exact ⟨s, hs, hentries⟩

end

/-- Two entries of a batch never share a parameter: a batch in which two names clash is refused, and
one without loses no entry. Names clash only across positions whose numbers end alike. -/
theorem shared_names_are_refused (edges : List Edge) (withReturn : Bool) (hne : edges ≠ []) :
    CreateBinds edges (create edges withReturn) ∧ UpdateBinds edges (update edges withReturn) ∧
      ClashLaw (·.ledger.current) edges ∧ ClashLaw (·.ledger.pending) edges :=
  ⟨createBinds withReturn hne, updateBinds withReturn hne, clashLaw _ edges, clashLaw _ edges⟩

/-- The first of eleven edges has the key `a1` and the last the key `a`. -/
theorem shared_names_are_refused_at_eleven :
    ∃ edges : List Edge, edges.length = 11 ∧ edges ≠ [] ∧
      Clash (·.ledger.current) edges 1 "a1" 11 "a" ∧
      CreateBinds edges (create edges true) ∧ UpdateBinds edges (update edges true) ∧
      ClashLaw (·.ledger.current) edges ∧ ClashLaw (·.ledger.pending) edges ∧
      create edges true = .error (.refused (.sharedParameter "a11")) := by
  let e (properties : OrderedMap String Value) : Edge :=
    { id := some 7, start := ⟨1, none⟩, finish := ⟨2, none⟩, label := "NEXT", created := ⟨0⟩,
      updated := ⟨0⟩, ledger := { current := properties, pending := properties } }
  let first : Edge := e (.ofList [("a1", .int 1)])
  let last : Edge := e (.ofList [("a", .int 11)])
  let edges : List Edge := first :: (List.replicate 9 (e ∅) ++ [last])
  have hne : edges ≠ [] := by decide +kernel
  have hclash : Clash (·.ledger.current) edges 1 "a1" 11 "a" :=
    { earlier := ⟨first, by decide +kernel, by decide +kernel⟩
      later := ⟨last, by decide +kernel, by decide +kernel⟩
      lt := by decide
      same := by decide +kernel }
  obtain ⟨hcreate, hupdate, hcurrent, hpending⟩ := shared_names_are_refused edges true hne
  refine ⟨edges, rfl, hne, hclash, hcreate, hupdate, hcurrent, hpending, ?_⟩
  refine (hcreate.failure _).mpr ⟨"a11", ⟨["a11"], [], ?_, ?_, ?_⟩, rfl⟩
  · decide +kernel
  · decide
  · decide

end EdgeMapper.Cypher.Batch
