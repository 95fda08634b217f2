import EdgeMapper.Workspace
/-!
# Delivering events

An event is delivered to the audience it has when the delivery starts, one listener after another.
While it runs, a listener may edit edges and change subscriptions, its own included, but the audience
of this delivery stays the same. A listener that fails is logged and does not stop the others; one
that cancels ends the delivery.
-/

namespace EdgeMapper

inductive Action where
  | subscribe (l : ListenerId) (topic : Topic)
  | unsubscribe (l : ListenerId)
  | clear
  | write (edge key : String) (value : Value)
  | relabel (edge label : String)

inductive Ending where
  | returned
  | failed
  | cancelled
  deriving DecidableEq, Repr

/-- What one call of a listener amounts to: its actions in order, and how it ends. -/
structure Reaction where
  actions : List Action := []
  ending : Ending := .returned

abbrev Behaviour := Workspace → ListenerId → Event → Reaction

namespace Workspace

def perform (w : Workspace) : Action → Option Workspace
  | .subscribe l topic => some { w with subscriptions := w.subscriptions.subscribe l topic }
  | .unsubscribe l => some { w with subscriptions := w.subscriptions.unsubscribe l }
  | .clear => some { w with subscriptions := .clear }
  | .write edge key value => w.writeProperty edge key value
  | .relabel edge label => w.relabel edge label

/-- Performs actions up to the first that cannot be performed, which makes the listener fail. -/
def performAll (ending : Ending) : List Action → Workspace → Workspace × Ending
  | [], w => (w, ending)
  | action :: rest, w =>
    match w.perform action with
    | some w => performAll ending rest w
    | none => (w, .failed)

def failureEntry (event : Event) : LogEntry :=
  ⟨.error, .subscriptions,
    "Error in listener for " ++ event.type.name ++ " on relationship " ++ Literal.ofId event.id⟩

/-- Calls the listeners in order; the count is of those that returned. -/
def deliver (behaviour : Behaviour) (event : Event) :
    List ListenerId → Workspace → Except Failure Nat × Workspace
  | [], w => (.ok 0, w)
  | l :: rest, w =>
    let reaction := behaviour w l event
    match performAll reaction.ending reaction.actions (w.hear l event) with
    | (w, .cancelled) => (.error .cancelled, w)
    | (w, .failed) => deliver behaviour event rest (w.note [failureEntry event])
    | (w, .returned) =>
      match deliver behaviour event rest w with
      | (.ok count, w) => (.ok (count + 1), w)
      | (.error failure, w) => (.error failure, w)

end Workspace

namespace Task

def emit (behaviour : Behaviour) (event : Event) : Task Nat :=
  fun w => w.deliver behaviour event (w.subscriptions.audience event)

/-- Emits one event for each edge as it is when its turn comes. -/
def announce (behaviour : Behaviour) (type : EventType) : List (String × List String) → Task Unit
  | [] => pure ()
  | (name, keys) :: rest => do
    let e ← edge name
    let _ ← emit behaviour (Event.ofEdge type e keys)
    announce behaviour type rest

end Task

end EdgeMapper
