import EdgeMapper.Proofs.Cypher.Phrases
/-!
# Lexemes

Tokens are grouped into lexemes as the query language does it: a name is a quoted identifier or the
longest run of word characters, and a parameter sign takes the name that follows it at once. Blanks
only separate. The main statements say which lexemes words, numbers and parameters become, whatever
comes after them.
-/

namespace EdgeMapper.Cypher

open Identifier (mark isPlain isWordPart)

inductive Name where
  | word (text : String)
  | quoted (text : String)
  deriving DecidableEq, Repr

inductive Lexeme where
  | name (n : Name)
  | reference (parameter : String)
  | sign (c : Char)
  deriving DecidableEq, Repr

/-- A lexeme that more word characters may still be added to. -/
inductive Pending where
  | nothing
  | word (chars : List Char)
  | reference (chars : List Char)

namespace Pending

def extend (p : Pending) (c : Char) : Pending :=
  match p with
  | nothing => word [c]
  | word chars => word (chars ++ [c])
  | reference chars => reference (chars ++ [c])

/-- What is left when nothing more can be added; a parameter sign without a name stays a sign. -/
def flush : Pending → List Lexeme
  | nothing => []
  | word chars => [.name (.word (String.ofList chars))]
  | reference [] => [.sign '$']
  | reference (c :: chars) => [.reference (String.ofList (c :: chars))]

end Pending

def lexemesFrom : Pending → List Token → List Lexeme
  | p, [] => p.flush
  | .reference [], .quoted name :: rest => .reference name :: lexemesFrom .nothing rest
  | p, .quoted name :: rest => p.flush ++ .name (.quoted name) :: lexemesFrom .nothing rest
  | p, .char c :: rest =>
    if isWordPart c then lexemesFrom (p.extend c) rest
    else if c = '$' then p.flush ++ lexemesFrom (.reference []) rest
    else p.flush ++ ((if c.isWhitespace then [] else [.sign c]) ++ lexemesFrom .nothing rest)

def lexemes (ts : List Token) : List Lexeme := lexemesFrom .nothing ts

def lexemes? (text : String) : Option (List Lexeme) := (scan text.toList).map lexemes

def stops : List Token → Bool
  | .char c :: _ => !isWordPart c
  | _ => true

@[simp] theorem lexemes_nil : lexemes [] = [] := rfl

@[simp] theorem lexemes_quoted (name : String) (rest : List Token) :
    lexemes (.quoted name :: rest) = .name (.quoted name) :: lexemes rest := rfl

theorem lexemesFrom_append_of_isWordPart {chars : List Char} (h : ∀ c ∈ chars, isWordPart c)
    (p : Pending) (rest : List Token) :
    lexemesFrom p (chars.map .char ++ rest) = lexemesFrom (chars.foldl .extend p) rest := by
  induction chars generalizing p with
  | nil => rfl
  | cons c chars ih =>
      have hc := h c (by simp)
      rw [List.map_cons, List.cons_append, lexemesFrom, if_pos hc, List.foldl_cons]
      exact ih (fun d hd => h d (by simp [hd])) _

theorem foldl_extend_word (chars before : List Char) :
    chars.foldl Pending.extend (.word before) = .word (before ++ chars) := by
  induction chars generalizing before with
  | nil => simp
  | cons c chars ih => simp [Pending.extend, ih]

theorem foldl_extend_reference (chars before : List Char) :
    chars.foldl Pending.extend (.reference before) = .reference (before ++ chars) := by
  induction chars generalizing before with
  | nil => simp
  | cons c chars ih => simp [Pending.extend, ih]

theorem lexemesFrom_of_stops {p : Pending} (hp : p ≠ .reference []) {rest : List Token}
    (h : stops rest = true) : lexemesFrom p rest = p.flush ++ lexemes rest := by
  unfold lexemes
  match rest with
  | [] => simp [lexemesFrom, Pending.flush]
  | .quoted name :: rest =>
      rw [lexemesFrom, lexemesFrom]
      · rfl
      · intro hnothing
        cases hnothing
      · exact hp
  | .char c :: rest =>
      have hc : ¬ isWordPart c = true := by simpa [stops] using h
      rw [lexemesFrom, lexemesFrom, if_neg hc, if_neg hc]
      split
      · rfl
      · rfl

theorem lexemes_word {word : String} (hword : IsWord word) {rest : List Token}
    (h : stops rest = true) : lexemes (plain word ++ rest) = .name (.word word) :: lexemes rest := by
  rw [lexemes, plain, lexemesFrom_append_of_isWordPart hword.2]
  cases hlist : word.toList with
  | nil => exact absurd hlist hword.1
  | cons c chars =>
      rw [List.foldl_cons, Pending.extend, foldl_extend_word, lexemesFrom_of_stops (by simp) h,
        Pending.flush, List.singleton_append, List.singleton_append, ← hlist, String.ofList_toList]

theorem lexemes_reference {word : String} (hword : IsWord word) {rest : List Token}
    (h : stops rest = true) :
    lexemes (plain "$" ++ (plain word ++ rest)) = .reference word :: lexemes rest := by
  change lexemesFrom (.reference []) (plain word ++ rest) = _
  rw [plain, lexemesFrom_append_of_isWordPart hword.2, foldl_extend_reference, List.nil_append]
  cases hlist : word.toList with
  | nil => exact absurd hlist hword.1
  | cons c chars =>
      rw [lexemesFrom_of_stops (by simp) h, Pending.flush, ← hlist, String.ofList_toList,
        List.singleton_append]

/-- The name that a reader takes a parameter for. -/
def spoken (name : String) : String := if isPlain name.toList then wordOf name else name

theorem lexemes_parameter (name : String) {rest : List Token} (h : stops rest = true) :
    lexemes ((parameter name).tokens ++ rest) = .reference (spoken name) :: lexemes rest := by
  unfold parameter spoken
  split
  · next hplain =>
      have hword := isWord_wordOf hplain
      by_cases hlast : name.toList.getLast? = some '\n'
      · have hname : plain name = plain (wordOf name) ++ plain "\n" := by
          rw [plain, wordOf_append_feed hlast, List.map_append]
          rfl
        have hblank : lexemes (plain "\n" ++ rest) = lexemes rest := rfl
        rw [Template.tokens_fixed, Template.tokens_nil, List.append_nil, plain_append, hname,
          List.append_assoc, List.append_assoc, lexemes_reference hword rfl, hblank]
      · rw [wordOf_eq_self hlast] at hword ⊢
        rw [Template.tokens_fixed, Template.tokens_nil, List.append_nil, plain_append,
          List.append_assoc, lexemes_reference hword h]
  · rfl

def integer : Int → List Lexeme
  | .ofNat n => [.name (.word (toString n))]
  | .negSucc n => [.sign '-', .name (.word (toString (n + 1)))]

theorem lexemes_int (i : Int) {rest : List Token} (h : stops rest = true) :
    lexemes (plain (toString i) ++ rest) = integer i ++ lexemes rest := by
  cases i with
  | ofNat n => exact lexemes_word (isWord_natToString n) h
  | negSucc n =>
      have htext : toString (Int.negSucc n) = "-" ++ toString (n + 1) := rfl
      have hsign (ts : List Token) : lexemes (plain "-" ++ ts) = .sign '-' :: lexemes ts := rfl
      rw [htext, plain_append, List.append_assoc, hsign, lexemes_word (isWord_natToString _) h]
      rfl

theorem lexemes?_text {t : Template} (h : t.Readable) :
    lexemes? t.text = some (lexemes t.tokens) := by
  rw [lexemes?, Template.text, String.toList_ofList, Template.scan_chars h, Option.map_some]

end EdgeMapper.Cypher
