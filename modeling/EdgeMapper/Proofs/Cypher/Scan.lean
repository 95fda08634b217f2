import EdgeMapper.Cypher.Pattern
/-!
# Scanning statement text

A scan reads text from left to right. Outside quotes every character stands for itself; a mark opens
an identifier, which is read to its end and becomes one token. The main statement is that the text of
a readable template scans to the tokens of that template: nothing in a name can end it early.
-/

namespace EdgeMapper.Cypher

open Identifier (mark quoteChars readOpen readOpen_escape length_lt_of_readOpen)

inductive Token where
  | char (c : Char)
  | quoted (name : String)
  deriving DecidableEq, Repr

/-- The tokens of a text, if every identifier that is opened in it is closed. -/
def scan : List Char → Option (List Token)
  | [] => some []
  | c :: rest =>
    if c = mark then
      match _h : readOpen rest with
      | none => none
      | some (name, left) => (scan left).map (.quoted (String.ofList name) :: ·)
    else (scan rest).map (.char c :: ·)
termination_by text => text.length
decreasing_by
  · have := length_lt_of_readOpen _h
    simp only [List.length_cons]
    omega
  · simp

def plain (text : String) : List Token := text.toList.map .char

@[simp] theorem plain_append (s t : String) : plain (s ++ t) = plain s ++ plain t := by
  simp [plain]

theorem scan_append_of_not_mem {chars : List Char} (h : mark ∉ chars) (rest : List Char) :
    scan (chars ++ rest) = (scan rest).map (chars.map .char ++ ·) := by
  induction chars with
  | nil => simp
  | cons c chars ih =>
      have hc : c ≠ mark := fun e => h (by simp [e])
      have hrest : mark ∉ chars := fun hm => h (by simp [hm])
      rw [List.cons_append, scan, if_neg hc, ih hrest, Option.map_map]
      rfl

theorem scan_quoteChars_append (name rest : List Char) (h : rest.head? ≠ some mark) :
    scan (quoteChars name ++ rest) = (scan rest).map (.quoted (String.ofList name) :: ·) := by
  have htext : quoteChars name ++ rest =
      mark :: (Identifier.escape name ++ mark :: rest) := by
    simp [quoteChars]
  rw [htext, scan, if_pos rfl]
  split
  · next hnone => simp [readOpen_escape name rest h] at hnone
  · next found left hsome =>
      rw [readOpen_escape name rest h] at hsome
      simp only [Option.some.injEq, Prod.mk.injEq] at hsome
      rw [hsome.1, hsome.2]

def Piece.tokens : Piece → List Token
  | .fixed text => plain text
  | .name identifier => [.quoted identifier]

namespace Template

def tokens (t : Template) : List Token := t.flatMap Piece.tokens

@[simp] theorem tokens_nil : tokens [] = [] := rfl

@[simp] theorem tokens_fixed (text : String) (t : Template) :
    tokens (.fixed text :: t) = plain text ++ tokens t := rfl

@[simp] theorem tokens_name (identifier : String) (t : Template) :
    tokens (.name identifier :: t) = .quoted identifier :: tokens t := rfl

@[simp] theorem tokens_append (s t : Template) : tokens (s ++ t) = tokens s ++ tokens t := by
  simp [tokens]

/-- The text does not begin with a mark, so it can follow a name. -/
def Follows (t : Template) : Prop := t.chars.head? ≠ some mark

/-- Fixed text holds no marks, and no name begins where another one ends. -/
def Readable : Template → Prop
  | [] => True
  | .fixed text :: rest => mark ∉ text.toList ∧ Readable rest
  | .name _ :: rest => Follows rest ∧ Readable rest

theorem scan_chars {t : Template} (h : t.Readable) : scan t.chars = some t.tokens := by
  induction t with
  | nil => simp [chars, scan]
  | cons piece rest ih =>
      cases piece with
      | fixed text =>
          have hscan := scan_append_of_not_mem h.1 (chars rest)
          rw [ih h.2] at hscan
          simpa [chars, Piece.chars, plain] using hscan
      | name identifier =>
          have hscan := scan_quoteChars_append identifier.toList (chars rest) h.1
          rw [ih h.2] at hscan
          simpa [chars, Piece.chars] using hscan

theorem chars_append (s t : Template) : chars (s ++ t) = chars s ++ chars t := by
  simp [chars]

theorem follows_nil : Follows [] := by
  simp [Follows, chars]

theorem readable_append {s t : Template} (hs : s.Readable) (ht : t.Readable) (h : t.Follows) :
    (s ++ t).Readable := by
  induction s with
  | nil => exact ht
  | cons piece rest ih =>
      cases piece with
      | fixed text => exact ⟨hs.1, ih hs.2⟩
      | name identifier =>
          refine ⟨?_, ih hs.2⟩
          have hrest : (chars rest).head? ≠ some mark := hs.1
          unfold Follows at h
          change (chars (rest ++ t)).head? ≠ some mark
          rw [chars_append, List.head?_append]
          cases hchars : (chars rest).head? with
          | none => simpa using h
          | some c =>
              rw [hchars] at hrest
              simpa using hrest

theorem readable_join {separator : String} (hmark : mark ∉ separator.toList)
    (hne : separator ≠ "") {ts : List Template} (h : ∀ t ∈ ts, t.Readable) :
    (join separator ts).Readable := by
  have hfollows (t : Template) : Follows (.fixed separator :: t) := by
    cases hlist : separator.toList with
    | nil => exact absurd (String.toList_eq_nil_iff.mp hlist) hne
    | cons c rest =>
        have hc : c ≠ mark := fun e => hmark (by simp [hlist, e])
        simpa [Follows, chars, Piece.chars, hlist] using hc
  induction ts with
  | nil => trivial
  | cons t rest ih =>
      have ht : t.Readable := h t (by simp)
      have hrest := ih (fun u hu => h u (by simp [hu]))
      cases rest with
      | nil => exact ht
      | cons u rest => exact readable_append ht ⟨hmark, hrest⟩ (hfollows _)

theorem tokens_join (separator : String) (ts : List Template) :
    tokens (join separator ts) = (plain separator).intercalate (ts.map tokens) := by
  induction ts with
  | nil => rfl
  | cons t rest ih =>
      cases rest with
      | nil => simp [join]
      | cons u rest =>
          rw [join, tokens_append, tokens_fixed, ih]
          · simp
          · simp

end Template

/-! ## Words and numbers -/

def IsWord (text : String) : Prop := text.toList ≠ [] ∧ ∀ c ∈ text.toList, Identifier.isWordPart c

instance : DecidablePred IsWord := fun text =>
  decidable_of_iff (text.toList ≠ [] ∧ text.toList.all Identifier.isWordPart = true) (by
    rw [IsWord, List.all_eq_true])

theorem isWord_append {s t : String} (hs : IsWord s) (ht : IsWord t) : IsWord (s ++ t) := by
  refine ⟨by simp [hs.1], ?_⟩
  intro c hc
  rw [String.toList_append, List.mem_append] at hc
  exact hc.elim (hs.2 c) (ht.2 c)

theorem isWord_natToString (n : Nat) : IsWord (toString n) := by
  have hlist : (toString n).toList = Nat.toDigits 10 n := Nat.toList_repr
  refine ⟨by rw [hlist]; exact Nat.toDigits_ne_nil, ?_⟩
  intro c hc
  rw [hlist] at hc
  have hdigit := Nat.isDigit_of_mem_toDigits (by decide) (by decide) hc
  simp [Identifier.isWordPart, Char.isAlphanum, hdigit]

theorem IsWord.mark_not_mem {text : String} (h : IsWord text) : mark ∉ text.toList := by
  intro hmem
  exact absurd (h.2 mark hmem) (by decide)

theorem mark_not_mem_intToString (i : Int) : mark ∉ (toString i).toList := by
  cases i with
  | ofNat n => exact (isWord_natToString n).mark_not_mem
  | negSucc n =>
      have htext : toString (Int.negSucc n) = "-" ++ toString (n + 1) := rfl
      have hdigits := (isWord_natToString (n + 1)).mark_not_mem
      rw [htext, String.toList_append, List.mem_append]
      exact fun h => h.elim (by decide) hdigits

end EdgeMapper.Cypher
