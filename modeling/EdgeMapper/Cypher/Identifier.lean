/-!
# Quoted identifiers

An identifier of the query language is written between backticks, and a backtick inside it is
written twice, so any text at all can serve as a name. `read` takes one such identifier off the front
of a text.
-/

namespace EdgeMapper.Cypher.Identifier

def mark : Char := '\x60'

def escape : List Char → List Char
  | [] => []
  | c :: rest => if c = mark then mark :: mark :: escape rest else c :: escape rest

def quoteChars (name : List Char) : List Char := mark :: (escape name ++ [mark])

def quote (name : String) : String := String.ofList (quoteChars name.toList)

/-- Reads up to the first mark that no second mark follows: the name, and what is left after it. -/
def readOpen : List Char → Option (List Char × List Char)
  | [] => none
  | [c] => if c = mark then some ([], []) else none
  | c :: d :: rest =>
    if c = mark then
      if d = mark then (readOpen rest).map fun (name, left) => (mark :: name, left)
      else some ([], d :: rest)
    else (readOpen (d :: rest)).map fun (name, left) => (c :: name, left)

def read : List Char → Option (List Char × List Char)
  | [] => none
  | c :: rest => if c = mark then readOpen rest else none

theorem readOpen_escape (name rest : List Char) (h : rest.head? ≠ some mark) :
    readOpen (escape name ++ mark :: rest) = some (name, rest) := by
  induction name with
  | nil =>
      cases rest with
      | nil => simp [escape, readOpen]
      | cons d rest =>
          have hd : d ≠ mark := by simpa using h
          simp [escape, readOpen, hd]
  | cons c name ih =>
      by_cases hc : c = mark
      · simp [escape, readOpen, hc, ih]
      · cases hnext : escape name ++ mark :: rest with
        | nil => simp at hnext
        | cons d more =>
            rw [hnext] at ih
            simp [escape, readOpen, hc, hnext, ih]

theorem length_lt_of_readOpen {text name left : List Char}
    (h : readOpen text = some (name, left)) : left.length < text.length := by
  induction text using readOpen.induct generalizing name with
  | case1 => simp [readOpen] at h
  | case2 =>
      simp only [readOpen, if_true, Option.some.injEq, Prod.mk.injEq] at h
      simp [← h.2]
  | case3 c hc => simp [readOpen, hc] at h
  | case4 rest ih =>
      simp only [readOpen, if_true, Option.map_eq_some_iff, Prod.exists, Prod.mk.injEq] at h
      obtain ⟨inner, _, hread, _, rfl⟩ := h
      have := ih hread
      simp only [List.length_cons]
      omega
  | case5 d rest hd =>
      simp only [readOpen, if_true, if_neg hd, Option.some.injEq, Prod.mk.injEq] at h
      simp [← h.2]
  | case6 c d rest hc ih =>
      simp only [readOpen, if_neg hc, Option.map_eq_some_iff, Prod.exists, Prod.mk.injEq] at h
      obtain ⟨inner, _, hread, _, rfl⟩ := h
      have := ih hread
      simp only [List.length_cons] at this ⊢
      omega

def isWordStart (c : Char) : Bool := c.isAlpha || c = '_'

def isWordPart (c : Char) : Bool := c.isAlphanum || c = '_'

def isWord : List Char → Bool
  | [] => false
  | c :: rest => isWordStart c && rest.all isWordPart

/-- A name that needs no quotes after a parameter sign: a word, or a word and one final line feed. -/
def isPlain (name : List Char) : Bool :=
  isWord (if name.getLast? = some '\n' then name.dropLast else name)

example : quote "a\x60b" = "\x60a\x60\x60b\x60" := by decide

example : isPlain "a_1\n".toList = true ∧ isPlain "1a".toList = false ∧ isPlain [] = false := by
  decide

end EdgeMapper.Cypher.Identifier
