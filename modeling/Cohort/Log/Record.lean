import Cohort.Decimal.Layout

/-!
# Log records

What is logged: a level, the name of the logger, and a message.  The levels
are numbers; five of them have a name.
-/

namespace Cohort.Log

/-- The level of a record; a higher level weighs more. -/
abbrev Level := Int

namespace Level

def debug : Level := 10
def info : Level := 20
def warning : Level := 30
def error : Level := 40
def critical : Level := 50

def name (l : Level) : Except Misuse String :=
  if l = 0 then .ok "NOTSET"
  else if l = debug then .ok "DEBUG"
  else if l = info then .ok "INFO"
  else if l = warning then .ok "WARNING"
  else if l = error then .ok "ERROR"
  else if l = critical then .ok "CRITICAL"
  else (Decimal.Layout.integer l).map ("Level " ++ ·)

end Level

structure Record where
  level : Level
  logger : String
  message : String
  deriving DecidableEq, Repr

def fullName (key : String) : String := "audience." ++ key

def relationalLogger : String := fullName "filters.RelationalFilterBackend"
def searchLogger : String := fullName "filters.SearchFilterBackend"
def simpleLogger : String := fullName "filters.SimpleAdapter"
def storeLogger : String := fullName "stores.PreviewStore"
def serviceLogger : String := fullName "api.AudienceFilterAPI"

end Cohort.Log
