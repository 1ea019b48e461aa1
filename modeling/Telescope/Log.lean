/-!
# Log records

What the library has to say while it works is a value: every operation that reports something
returns the records it adds, in order. Writing them anywhere is left to the caller.
-/

namespace Telescope

namespace Log

/-- How urgent a record is. -/
inductive Level
  /-- detail of single steps -/
  | debug
  /-- the course of a run -/
  | info
  /-- something unusual that does not stop the run -/
  | warn
deriving DecidableEq, Repr

/-- One message. -/
structure Record where
  /-- how urgent it is -/
  level : Level
  /-- its text -/
  message : String
deriving DecidableEq, Repr

/-- A record of detail. -/
def debug (message : String) : Record := ⟨.debug, message⟩

/-- A record of the course of a run. -/
def info (message : String) : Record := ⟨.info, message⟩

/-- A record of something unusual. -/
def warn (message : String) : Record := ⟨.warn, message⟩

/-- Who speaks in a record of the run: a worker by its number, or the master. -/
inductive Speaker
  /-- the worker with this number -/
  | worker (number : Nat)
  /-- the one that merges what the workers return -/
  | master
deriving DecidableEq, Repr

/-- The mark in front of a speaker's messages. -/
def Speaker.mark : Speaker → String
  | .worker number => "[worker " ++ toString number ++ "] "
  | .master => "[master] "

/-- A speaker's report on the run. -/
def Speaker.report (speaker : Speaker) (message : String) : Record :=
  info (speaker.mark ++ message)

end Log

end Telescope
