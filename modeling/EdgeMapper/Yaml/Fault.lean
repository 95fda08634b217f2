/-!
# Faults

What can be wrong with a text.
-/

namespace EdgeMapper.Yaml

inductive Fault where
  | badCharacter
  | badToken
  | badStructure
  | badReference
  /-- A node whose content does not suit its type. -/
  | badNode
  | unreadable
  | tooLarge
  | noDigits
  | unknownWord
  | noTimestamp
  | notAText
  /-- A node whose text is the text of that very node. -/
  | endless
  deriving DecidableEq, Repr

end EdgeMapper.Yaml
