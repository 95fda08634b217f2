import EdgeMapper.Cypher.Identifier
import Mathlib.Logic.Function.Basic
/-!
# Quoting is a prefix code

A quoted identifier shows by itself where it ends, as long as what comes after it does not begin with
another mark. The main statement says that reading takes the name that was quoted off the front of a text
and leaves the rest, that nothing but quoted names can be read, and that a text is the quotation of one
name followed by one rest at most.
-/

namespace EdgeMapper.Cypher.Identifier

variable {name left text : List Char}

theorem read_quoteChars_append (name : List Char) (h : left.head? ≠ some mark) :
    read (quoteChars name ++ left) = some (name, left) := by
  have hopen : quoteChars name ++ left = mark :: (escape name ++ mark :: left) := by
    simp [quoteChars]
  rw [hopen, read, if_pos rfl]
  exact readOpen_escape name left h

theorem eq_escape_of_readOpen (h : readOpen text = some (name, left)) :
    text = escape name ++ mark :: left ∧ left.head? ≠ some mark := by
  induction text using readOpen.induct generalizing name with
  | case1 => cases h
  | case2 =>
      simp only [readOpen, if_true, Option.some.injEq, Prod.mk.injEq] at h
      obtain ⟨rfl, rfl⟩ := h
      exact ⟨rfl, by simp⟩
  | case3 c hc => simp [readOpen, hc] at h
  | case4 rest ih =>
      simp only [readOpen, if_true, Option.map_eq_some_iff, Prod.exists, Prod.mk.injEq] at h
      obtain ⟨inner, _, hread, rfl, rfl⟩ := h
      obtain ⟨rfl, hleft⟩ := ih hread
      exact ⟨rfl, hleft⟩
  | case5 d rest hd =>
      simp only [readOpen, if_true, if_neg hd, Option.some.injEq, Prod.mk.injEq] at h
      obtain ⟨rfl, rfl⟩ := h
      exact ⟨rfl, fun hmark => hd (Option.some.inj hmark)⟩
  | case6 c d rest hc ih =>
      simp only [readOpen, if_neg hc, Option.map_eq_some_iff, Prod.exists, Prod.mk.injEq] at h
      obtain ⟨inner, _, hread, rfl, rfl⟩ := h
      obtain ⟨htext, hleft⟩ := ih hread
      refine ⟨?_, hleft⟩
      rw [escape, if_neg hc, List.cons_append, htext]

theorem eq_quoteChars_of_read (h : read text = some (name, left)) :
    text = quoteChars name ++ left ∧ left.head? ≠ some mark := by
  cases text with
  | nil => cases h
  | cons c rest =>
      rw [read] at h
      split at h
      · next hc =>
          obtain ⟨hrest, hleft⟩ := eq_escape_of_readOpen h
          refine ⟨?_, hleft⟩
          rw [hc, hrest]
          simp [quoteChars]
      · cases h

theorem quoteChars_append_inj {name₁ name₂ rest₁ rest₂ : List Char} (h₁ : rest₁.head? ≠ some mark)
    (h₂ : rest₂.head? ≠ some mark) (h : quoteChars name₁ ++ rest₁ = quoteChars name₂ ++ rest₂) :
    name₁ = name₂ ∧ rest₁ = rest₂ := by
  have hread := read_quoteChars_append name₁ h₁
  rw [h, read_quoteChars_append name₂ h₂] at hread
  obtain ⟨rfl, rfl⟩ := Prod.mk.inj (Option.some.inj hread)
  exact ⟨rfl, rfl⟩

@[simp] theorem toList_quote (name : String) : (quote name).toList = quoteChars name.toList := by
  rw [quote, String.toList_ofList]

theorem toList_quote_append (name rest : String) :
    (quote name ++ rest).toList = quoteChars name.toList ++ rest.toList := by
  rw [String.toList_append, toList_quote]

theorem quote_append_inj {name₁ name₂ rest₁ rest₂ : String} (h₁ : rest₁.toList.head? ≠ some mark)
    (h₂ : rest₂.toList.head? ≠ some mark) (h : quote name₁ ++ rest₁ = quote name₂ ++ rest₂) :
    name₁ = name₂ ∧ rest₁ = rest₂ := by
  have hchars := congrArg String.toList h
  rw [toList_quote_append, toList_quote_append] at hchars
  obtain ⟨hname, hrest⟩ := quoteChars_append_inj h₁ h₂ hchars
  exact ⟨String.toList_inj.mp hname, String.toList_inj.mp hrest⟩

/-- Before a rest that does not begin with a mark, reading gives back the name that was quoted and leaves
that rest; it reads nothing else. Hence no two names are quoted alike, and none is quoted like the
beginning of another one with its rest. -/
theorem quoting_is_a_prefix_code :
    (∀ name rest : String, rest.toList.head? ≠ some mark →
      read (quote name ++ rest).toList = some (name.toList, rest.toList)) ∧
    (∀ text name rest : String, read text.toList = some (name.toList, rest.toList) →
      text = quote name ++ rest ∧ rest.toList.head? ≠ some mark) ∧
    Function.Injective quote ∧
    ∀ name₁ name₂ rest₁ rest₂ : String, rest₁.toList.head? ≠ some mark →
      rest₂.toList.head? ≠ some mark → quote name₁ ++ rest₁ = quote name₂ ++ rest₂ →
      name₁ = name₂ ∧ rest₁ = rest₂ := by
  refine ⟨fun name rest hrest => ?_, fun text name rest h => ?_, fun name₁ name₂ h => ?_,
    fun _ _ _ _ => quote_append_inj⟩
  · rw [toList_quote_append]
    exact read_quoteChars_append name.toList hrest
  · obtain ⟨htext, hrest⟩ := eq_quoteChars_of_read h
    refine ⟨String.toList_inj.mp ?_, hrest⟩
    rw [htext, toList_quote_append]
  · have hempty : ("" : String).toList.head? ≠ some mark := nofun
    exact (quote_append_inj hempty hempty (congrArg (· ++ "") h)).1

/-- A name that ends in marks, before the end of the text and before another quoted name. -/
theorem quoting_is_a_prefix_code_among_marks :
    (":\x60a\x60" : String).toList.head? ≠ some mark ∧
      quote "a\x60\x60" ++ ":\x60a\x60" = "\x60a\x60\x60\x60\x60\x60:\x60a\x60" ∧
      read (quote "a\x60\x60" ++ ":\x60a\x60").toList =
        some ("a\x60\x60".toList, ":\x60a\x60".toList) := by
  have hrest : (":\x60a\x60" : String).toList.head? ≠ some mark := by decide
  exact ⟨hrest, by decide, quoting_is_a_prefix_code.1 "a\x60\x60" ":\x60a\x60" hrest⟩

end EdgeMapper.Cypher.Identifier
