import Cohort.Date.Calendar
import Cohort.Json.Encode
import Cohort.Log.Record
import Cohort.Text.Case

/-!
# The log book

The log book hands out loggers by name and keeps the files they write.  A
logger is set up once, when its name is first asked for: with a folder for
logs it gets a file of its own and a share of the common file for errors.  A
record goes to the handlers of its logger and of every logger whose name is a
dotted beginning of that name.
-/

namespace Cohort.Log

/-- Where records go: a file, for records of at least a level. -/
structure Handler where
  file : String
  level : Level
  deriving DecidableEq, Repr

structure Logger where
  key : String
  level : Level
  handlers : List Handler
  deriving DecidableEq, Repr

namespace Logger

def name (l : Logger) : String := fullName l.key

end Logger

/-- The loggers handed out so far and the contents of the files, both in the order in which they
came. -/
structure Book where
  debug : Bool
  /-- Whether there is a folder for log files. -/
  hasFolder : Bool
  loggers : List Logger := []
  files : List (String × String) := []

def folders : List String := ["filters", "stores"]

def errorFile : String := "error.log"

def debugWords : List String := ["1", "true", "yes"]

def debugRequested (raw : String) : Bool := debugWords.contains (Text.lower raw)

/-- The key of a logger: its name behind its component, if it has one. -/
def keyOf (component : Option String) (name : String) : String :=
  match component with
  | some c => if c.isEmpty then name else c ++ "." ++ name
  | none => name

/-- The file of a logger; two components have a folder of their own. -/
def fileOf (component : Option String) (name : String) : String :=
  let file := Text.lower name ++ ".log"
  match component with
  | some c => if folders.contains c then c ++ "/" ++ file else file
  | none => file

/-- The parts of a file name between slashes, without empty ones and single dots. -/
def fileParts (file : String) : List String :=
  ((file.toList.splitOn '/').map String.ofList).filter fun p => !p.isEmpty && p != "."

def plainFile (file : String) : String := "/".intercalate (fileParts file)

def folderExists (file : String) : Bool :=
  match (fileParts file).dropLast with
  | [] => true
  | [folder] => folders.contains folder
  | _ => false

namespace Book

def level (b : Book) : Level := if b.debug then Level.debug else Level.info

def find? (b : Book) (key : String) : Option Logger := b.loggers.find? (·.key == key)

/-- Makes sure that a file is there. -/
def touch (b : Book) (file : String) : Book :=
  if b.files.any (·.1 == file) then b else { b with files := b.files ++ [(file, "")] }

def append (b : Book) (file text : String) : Book :=
  { b with files := b.files.map fun f => if f.1 == file then (f.1, f.2 ++ text) else f }

def handlersFor (b : Book) (component : Option String) (name : String) : List Handler :=
  if b.hasFolder then
    [⟨plainFile (fileOf component name), 0⟩, ⟨errorFile, Level.error⟩]
  else []

def canOpen (b : Book) (component : Option String) (name : String) : Bool :=
  !b.hasFolder || folderExists (fileOf component name)

/-- Hands out the logger of a name, setting it up if it is new. -/
def logger? (b : Book) (component : Option String) (name : String) : Option (Logger × Book) :=
  let key := keyOf component name
  match b.find? key with
  | some l => some (l, b)
  | none =>
    if b.canOpen component name then
      let l : Logger := ⟨key, b.level, b.handlersFor component name⟩
      some (l, l.handlers.foldl (fun b h => b.touch h.file) { b with loggers := b.loggers ++ [l] })
    else none

/-- What stands before each dot, the shortest first. -/
def beginnings : List Char → List (List Char)
  | [] => []
  | c :: cs =>
    let longer := (beginnings cs).map (c :: ·)
    if c = '.' then [] :: longer else longer

/-- The dotted beginnings of a name, the longest first. -/
def ancestors (name : String) : List String :=
  ((beginnings name.toList).reverse.map String.ofList).filter (!·.isEmpty)

def named? (b : Book) (name : String) : Option Logger := b.loggers.find? (·.name == name)

/-- The handlers of the logger with a full name, if there is one. -/
def handlersOf (b : Book) (name : String) : List Handler :=
  ((b.named? name).map Logger.handlers).getD []

/-- The handlers that a record of a logger reaches: its own, then those of the loggers above. -/
def reached (b : Book) (name : String) : List Handler :=
  (name :: ancestors name).flatMap b.handlersOf

def clockPart (separator : String) (n : Nat) : String := separator ++ Decimal.Layout.padded 2 n

/-- The day number of the first of January 1970. -/
def epochDay : Nat := 719163

def stamp (seconds : Int) : String :=
  let n := (seconds + epochDay * 86400).toNat
  let (year, month, day) := Date.ofDayNumber (n / 86400)
  let t := n % 86400
  Decimal.Layout.padded 4 year ++ clockPart "-" month ++ clockPart "-" day
    ++ clockPart " " (t / 3600) ++ clockPart ":" (t / 60 % 60) ++ clockPart ":" (t % 60)

/-- Where a record was logged. -/
structure Site where
  file : String
  line : Nat

def line (b : Book) (seconds : Int) (site : Site) (levelName : String) (r : Record) : String :=
  stamp seconds ++ " - " ++ r.logger ++ " - " ++ levelName ++ " - "
    ++ (if b.debug then "[" ++ site.file ++ ":" ++ Decimal.Layout.digits site.line ++ "] - "
      else "")
    ++ r.message ++ "\n"

def errorEntry (seconds : Int) (site : Site) (levelName : String) (r : Record) : String :=
  stamp seconds ++ " - " ++ r.logger ++ " - " ++ levelName ++ " - ["
    ++ site.file ++ ":" ++ Decimal.Layout.digits site.line ++ "]\n" ++ r.message ++ "\n\n"

def emit (b : Book) (seconds : Int) (site : Site) (levelName : String) (r : Record) (h : Handler) :
    Book :=
  if r.level < h.level then b
  else b.append h.file
    (if h.level = 0 then b.line seconds site levelName r else errorEntry seconds site levelName r)

/-- Logs a record, unless its level is below that of its logger.  The name of the level is settled
first: without one there is no record. -/
def log (b : Book) (l : Logger) (seconds : Int) (site : Site) (level : Level) (message : String) :
    Except Misuse Book :=
  if level < l.level then .ok b
  else do
    let levelName ← Level.name level
    let r : Record := ⟨level, l.name, message⟩
    return (b.reached l.name).foldl (fun b h => b.emit seconds site levelName r h) b

/-- A message with its context, if there is one. -/
def withContext (message : String) (context : Value) : Except Misuse String :=
  if context.truthy then return message ++ " | Context: " ++ (← Json.encode context)
  else return message

/-- Logs a message with its context, unless the context cannot be written. -/
def logWithContext (b : Book) (l : Logger) (seconds : Int) (site : Site) (level : Level)
    (message : String) (context : Value) : Except Misuse Book := do
  b.log l seconds site level (← withContext message context)

end Book

end Cohort.Log
