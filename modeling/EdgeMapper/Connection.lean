import EdgeMapper.Cypher.Statement
/-!
# Connections

The far side of the wire, as far as it can be seen from here: the answers it is going to give, one
for each statement, and the statements it has received. A statement is received also when the answer
is that the connection is gone.
-/

namespace EdgeMapper

abbrev Row := OrderedMap String Value

inductive Answer where
  | rows (rows : List Row)
  | lost

structure Connection where
  upcoming : List Answer := []
  received : List Cypher.Statement := []

namespace Connection

/-- Sends a statement. When no answer is waiting, it is answered by no rows. -/
def send (c : Connection) (s : Cypher.Statement) : Connection × Except Failure (List Row) :=
  let received := c.received ++ [s]
  match c.upcoming with
  | [] => ({ c with received := received }, .ok [])
  | .rows rows :: rest => ({ upcoming := rest, received := received }, .ok rows)
  | .lost :: rest => ({ upcoming := rest, received := received }, .error .connectionLost)

def expect (c : Connection) (a : Answer) : Connection := { c with upcoming := c.upcoming ++ [a] }

end Connection

end EdgeMapper
