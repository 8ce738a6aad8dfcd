import Cohort.Decimal.Reader
import Cohort.Sql.Dialect
import Cohort.Text.Blank
import Cohort.Text.Case

/-!
# Settings

The settings of the service, read from environment variables or chosen for a
kind of database.
-/

namespace Cohort

abbrev Environment := List (String × String)

namespace Environment

def get? (env : Environment) (name : String) : Option String := env.lookup name

def expandHome (env : Environment) (path : String) : String :=
  match path.toList with
  | ['~'] => expanded []
  | '~' :: '/' :: rest => expanded ('/' :: rest)
  | _ => path
where
  expanded (rest : List Char) : String :=
    let home := ((env.get? "HOME").getD "").toList.reverse.dropWhile (· = '/')
    let whole := home.reverse ++ rest
    if whole.isEmpty then "/" else String.ofList whole

end Environment

/-- Why the environment gives no settings. -/
inductive SettingsFault where
  | slotStyle (raw : String)
  | notTruth (name raw : String)
  | notWhole (name raw : String)
  | tooSmall (name : String) (minimum n : Int)

namespace SettingsFault

def message : SettingsFault → Except Misuse String
  | slotStyle raw =>
    return "AUDIENCE_PARAMSTYLE must be one of ('qmark', 'numeric'), got " ++ Text.quoted raw
  | notTruth name raw => return name ++ " must be a boolean, got " ++ Text.quoted raw
  | notWhole name raw => return name ++ " must be an integer, got " ++ Text.quoted raw
  | tooSmall name minimum n =>
    return name ++ " must be >= " ++ (← Decimal.Layout.integer minimum) ++ ", got "
      ++ (← Decimal.Layout.integer n)

end SettingsFault

/-- The settings of the service. -/
structure Settings where
  strict : Bool := true
  slots : Sql.SlotStyle := .question
  maxDepth : Int := 10
  table : String := "audience_contacts"
  databasePath : Option String := none
  deriving DecidableEq, Repr

namespace Settings

def truthyWords : List String := ["1", "true", "yes", "on"]

def falsyWords : List String := ["0", "false", "no", "off"]

/-- The truth value of a variable; an empty one counts as not set. -/
def truth (env : Environment) (name : String) (default : Bool) : Except SettingsFault Bool :=
  match env.get? name with
  | none => .ok default
  | some raw =>
    let word := Text.lower (Text.trim raw)
    if raw.isEmpty then .ok default
    else if truthyWords.contains word then .ok true
    else if falsyWords.contains word then .ok false
    else .error (.notTruth name raw)

/-- The whole number of a variable; an empty one counts as not set. -/
def whole (env : Environment) (name : String) (default minimum : Int) : Except SettingsFault Int :=
  match env.get? name with
  | none => .ok default
  | some raw =>
    if raw.isEmpty then .ok default
    else match Decimal.readInt? raw with
      | none => .error (.notWhole name raw)
      | some n => if n < minimum then .error (.tooSmall name minimum n) else .ok n

def ofEnvironment (env : Environment) : Except SettingsFault Settings := do
  let style := Text.lower (Text.trim ((env.get? "AUDIENCE_PARAMSTYLE").getD "qmark"))
  let some slots := Sql.SlotStyle.ofId? style | throw (.slotStyle style)
  let strict ← truth env "AUDIENCE_STRICT_VALIDATION" true
  let maxDepth ← whole env "AUDIENCE_MAX_DEPTH" 10 1
  let databasePath := match env.get? "AUDIENCE_DB_PATH" with
    | none => none
    | some path => if path.isEmpty then none else some (env.expandHome path)
  return {
    strict, slots, maxDepth, databasePath
    table := (env.get? "AUDIENCE_CONTACTS_TABLE").getD "audience_contacts"
  }

def toEntries (s : Settings) : Entries :=
  [(.text "strict_validation", .bool s.strict), (.text "paramstyle", .text s.slots.id),
   (.text "max_depth", .int s.maxDepth), (.text "contacts_table", .text s.table)] ++
  match s.databasePath with
  | some path => [(.text "db_path", .text path)]
  | none => []

def defaultDatabase : String := "~/.audience/data/audience.db"

def forServer (strict : Value) : Entries :=
  [(.text "strict_validation", strict), (.text "paramstyle", .text "numeric")]

def forLocalFile (env : Environment) (path table : Value) : Entries :=
  [(.text "strict_validation", .bool true), (.text "paramstyle", .text "qmark"),
   (.text "db_path", if path.truthy then path else .text (env.expandHome defaultDatabase)),
   (.text "contacts_table", table)]

end Settings

end Cohort
