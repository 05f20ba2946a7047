/-!
Log records. Operations return the records they give rise to, in order.
-/

namespace Marshal

inductive LogLevel
  | debug
  | warning
  | error
deriving DecidableEq, Repr

structure LogRecord where
  level : LogLevel
  text : String
deriving DecidableEq, Repr

abbrev Log := List LogRecord

namespace Log

def debug (text : String) : Log := [⟨.debug, text⟩]

def warning (text : String) : Log := [⟨.warning, text⟩]

def error (text : String) : Log := [⟨.error, text⟩]

end Log

end Marshal
