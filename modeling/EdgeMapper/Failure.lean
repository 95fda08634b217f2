import EdgeMapper.Value.Reading
/-!
# Failures

Every way in which an operation can fail, as a cause; the wording is in `message` alone. A failure whose
wording would show a number that is too long to be written is not told: another one takes its place.
-/

namespace EdgeMapper

inductive Operation where
  | create
  | update
  | delete
  deriving DecidableEq, Repr

namespace Operation

def name : Operation → String
  | create => "create"
  | update => "update"
  | delete => "delete"

def ofName? (name : String) : Option Operation := [create, update, delete].find? (·.name = name)

end Operation

inductive RecordKind where
  | node
  | relationship
  deriving DecidableEq, Repr

def RecordKind.noun : RecordKind → String
  | node => "node"
  | relationship => "relationship"

inductive RecordFault where
  | notRecord (kind : RecordKind) (value : Value)
  | tooShort (kind : RecordKind) (needed count : Nat)
  | badIds (ids : List Value)
  | badNodeId (value : Value)
  | badLabel (value : Value)
  | badLabels (value : Value)
  | badProperties (kind : RecordKind) (value : Value)
  deriving DecidableEq

namespace RecordFault

def shown? : RecordFault → Option Value
  | notRecord _ value => some value
  | tooShort _ _ _ => none
  | badIds ids => some (.list ids)
  | badNodeId value => some value
  | badLabel value => some value
  | badLabels value => some value
  | badProperties _ value => some value

def isWritable (fault : RecordFault) : Bool := fault.shown?.all Literal.isWritable

def message : RecordFault → String
  | notRecord kind value => "Not a " ++ kind.noun ++ " structure: " ++ Literal.ofValue value
  | tooShort .node needed count =>
    "Node structure needs " ++ toString needed ++ " fields, got " ++ toString count
  | tooShort .relationship needed count =>
    "Relationship structure needs " ++ toString needed ++ " fields, got " ++ toString count
  | badIds ids => "Invalid relationship ids: " ++ Literal.ofValue (.list ids)
  | badNodeId value => "Invalid node id: " ++ Literal.ofValue value
  | badLabel value => "Invalid relationship label: " ++ Literal.ofValue value
  | badLabels value => "Invalid node labels: " ++ Literal.ofValue value
  | badProperties kind value =>
    "Invalid " ++ kind.noun ++ " properties: " ++ Literal.ofValue value

end RecordFault

inductive MissingId where
  | endpoint
  | single (operation : Operation)
  | batch (position : Nat)
  deriving DecidableEq

def MissingId.message : MissingId → String
  | endpoint => "Nodes must have an id before they can be related"
  | single operation =>
    "Cannot compile " ++ operation.name
      ++ " for a relationship without id. Did you mean to create it?"
  | batch position =>
    "Relationship " ++ toString position
      ++ " in the batch has no id. Did you mean to create it?"

/-- Arguments that an operation does not accept. -/
inductive Refusal where
  | nameTaken (binding : String)
  | noBinding (operation : Operation)
  | unknownOperation (name : String)
  | emptyBatch
  | sharedParameter (name : String)
  | notAnId (value : Value)
  | wrongStart (node : Option Int) (start : Int)
  | wrongFinish (node : Option Int) (finish : Int)
  deriving DecidableEq

def Refusal.message : Refusal → String
  | nameTaken binding => "Alias " ++ Literal.ofText binding ++ " is already bound to an endpoint node"
  | noBinding operation => operation.name ++ " needs a non-empty relationship alias"
  | unknownOperation name => "Unknown operation: " ++ name
  | emptyBatch => "A batch needs at least one relationship"
  | sharedParameter name =>
    "Parameter name " ++ Literal.ofText name ++ " is produced by two edges in this batch"
  | notAnId value =>
    "Relationship id must be an unsigned 64-bit integer: " ++ Literal.ofValue value
  | wrongStart node start =>
    "Node " ++ Literal.ofId node ++ " is not the start node " ++ toString start
  | wrongFinish node finish =>
    "Node " ++ Literal.ofId node ++ " is not the end node " ++ toString finish

def Refusal.isWritable : Refusal → Bool
  | notAnId value => Literal.isWritable value
  | wrongStart node start => Literal.isWritableId node && Numeral.isShort start
  | wrongFinish node finish => Literal.isWritableId node && Numeral.isShort finish
  | _ => true

inductive AnswerFault where
  | nothingCreated
  | nothingCreatedInBatch
  | nothingUpdated (id : Option Int)
  | nothingUpdatedInBatch (ids : List (Option Int))
  | noColumn (column : String)
  | notARelationship (column : String) (cause : RecordFault)
  deriving DecidableEq

def AnswerFault.message : AnswerFault → String
  | nothingCreated => "Create returned no rows; were both endpoints found?"
  | nothingCreatedInBatch => "Batch create returned no rows"
  | nothingUpdated id => "Update matched no relationship with id " ++ Literal.ofId id
  | nothingUpdatedInBatch ids =>
    "Batch update matched none of the relationships ["
      ++ ", ".intercalate (ids.map Literal.ofId) ++ "]"
  | noColumn column => "Result row has no column " ++ Literal.ofText column
  | notARelationship column _ => "Column " ++ Literal.ofText column ++ " is not a relationship"

/-- The ids in a fault stand in the statement that was answered, and so can be written. -/
def AnswerFault.isWritable : AnswerFault → Bool
  | notARelationship _ cause => cause.isWritable
  | _ => true

inductive Failure where
  | missingId (missing : MissingId)
  | idAssigned (current : Int) (attempted : Option Int)
  | badRecord (fault : RecordFault)
  | badAnswer (fault : AnswerFault)
  | refused (refusal : Refusal)
  | connectionLost
  | invalid (issues : List Issue)
  | badEntries (fault : EntryFault)
  | unknownName (name : String)
  | cancelled
  /-- The failure that there was has no text, for a number in it is too long. -/
  | overlong
  deriving DecidableEq

namespace Failure

def message? : Failure → Option String
  | missingId missing => some missing.message
  | idAssigned current attempted =>
    some ("Relationship already has id " ++ toString current ++ ", refusing to reassign "
      ++ Literal.ofId attempted)
  | badRecord fault => some fault.message
  | badAnswer fault => some fault.message
  | refused refusal => some refusal.message
  | connectionLost => some "gone"
  | invalid _ => none
  | badEntries _ => none
  | unknownName _ => none
  | cancelled => none
  | overlong => none

def cause? : Failure → Option Failure
  | badAnswer (.notARelationship _ cause) => some (.badRecord cause)
  | _ => none

def isWritable : Failure → Bool
  | idAssigned current attempted => Numeral.isShort current && Literal.isWritableId attempted
  | badRecord fault => fault.isWritable
  | badAnswer fault => fault.isWritable
  | refused refusal => refusal.isWritable
  | _ => true

/-- What is told of a failure: the failure itself if its wording can be written. -/
def told (failure : Failure) : Failure := if failure.isWritable then failure else overlong

theorem told_of_writable {failure : Failure} (h : failure.isWritable = true) : failure.told = failure :=
  if_pos h

theorem told_of_not_writable {failure : Failure} (h : failure.isWritable = false) :
    failure.told = overlong := by
  rw [told, h]
  rfl

theorem told_ne_cancelled {failure : Failure} (h : failure ≠ cancelled) : failure.told ≠ cancelled := by
  unfold told
  split
  · exact h
  · nofun

end Failure

end EdgeMapper
