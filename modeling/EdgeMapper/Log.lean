/-!
# Log entries

What the library has to say about its own work, by weight and by the part that says it.
-/

namespace EdgeMapper

inductive Weight where
  | debug
  | info
  | warning
  | error
  deriving DecidableEq, Repr

inductive Speaker where
  | statements
  | batches
  | writer
  | subscriptions
  deriving DecidableEq, Repr

structure LogEntry where
  weight : Weight
  speaker : Speaker
  message : String
  deriving DecidableEq, Repr

end EdgeMapper
