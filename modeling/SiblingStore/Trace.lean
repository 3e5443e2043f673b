/-!
# Traces

What the store and its clients tell an operator while they work, in the order in
which it happens.
-/

namespace SiblingStore

inductive Level where
  | debug
  | info
  | warn
  deriving Repr, DecidableEq

def Level.name : Level → String
  | .debug => "DEBUG"
  | .info => "INFO"
  | .warn => "WARN"

structure Event where
  level : Level
  text : String
  deriving Repr, DecidableEq

def Event.line (e : Event) : String := e.level.name ++ " " ++ e.text

end SiblingStore
