import Cohort.Geo.Distance
import Cohort.Preview.Connection
import Cohort.Sql.Compile

/-!
# The preview store

A table of contacts with one column for each column of the catalog.  Clauses
run against it to show a page of the contacts that match, or to count them.
-/

namespace Cohort

structure Store where
  path : String
  catalog : Catalog
  table : String := "audience_contacts"
  /-- The size of the largest page. -/
  maxLimit : Int := 1000

def defaultLimit : Int := 100

/-- A page of contacts. -/
structure Page where
  rows : List Entries
  limit : Int
  offset : Int

/-- The folder of a path: what stands before the last slash, without slashes at its end. -/
def folderOf (path : String) : String :=
  let head := (path.toList.reverse.dropWhile (· ≠ '/'))
  let stripped := head.dropWhile (· = '/')
  String.ofList (if stripped.isEmpty then head.reverse else stripped.reverse)

namespace Shape

def columnType : Shape → String
  | .number | .numberRange | .numberList => "NUMERIC"
  | .truth => "INTEGER"
  | _ => "TEXT"

end Shape

namespace Store

open Cohort.Action

/-- Adds the column of a field, unless a field before it has the same one. -/
def addColumn (columns : List (Value × String)) (f : Field) :
    Except Misuse (List (Value × String)) :=
  if !f.column.isKey then .error .kind
  else if columns.any (·.1.sameKey f.column) then .ok columns
  else .ok (columns ++ [(f.column, f.shape.columnType)])

def columns (s : Store) : Except Misuse (List (Value × String)) :=
  s.catalog.fields.foldlM addColumn []

/-- A name as a quoted identifier; only a text is a name. -/
def identifier : Value → Except Misuse String
  | .text name => .ok (Sql.quoteIdentifier name)
  | v => .error (Sql.unquotable v)

def createTable (s : Store) : Except Misuse String := do
  let lines ← (← s.columns).mapM fun c => do return "    " ++ (← identifier c.1) ++ " " ++ c.2
  return "CREATE TABLE IF NOT EXISTS " ++ Sql.quoteIdentifier s.table
    ++ " (\n    id INTEGER PRIMARY KEY AUTOINCREMENT,\n" ++ ",\n".intercalate lines ++ "\n)"

/-- Executes a statement; a refusal goes on under its own name. -/
def executeOrFail (answers : Answers) (sql : String) (params : Option (List Value)) :
    Action Cursor := do
  match ← execute answers sql params with
  | .ok c => return c
  | .error e => throw (.database e.name)

def prepare (s : Store) (answers : Answers) : Action Unit := do
  let folder := folderOf s.path
  if !folder.isEmpty then call [.makeDirectories folder]
  let sql ← orMisuse s.createTable
  ConnectionUse.run { path := s.path, writer := true } answers do
    discard (executeOrFail answers sql none)
  log .info Log.storeLogger
    ("Preview store ready at " ++ s.path ++ " (table " ++ s.table ++ ")")

/-- A value as it is stored: a point as a text. -/
def stored (v : Value) : Except Misuse Value :=
  match v.get? "lat", v.get? "lng" with
  | some lat, some lng => Geo.encodePoint lat lng
  | _, _ => .ok v

def valueOf (contact name : Value) : Except Misuse Value :=
  match contact, name with
  | .map es, .text key => .ok (Entries.get es key)
  | _, _ => .error .kind

def unknownNames (columns : List (Value × String)) (names : List Value) :
    Except Misuse (List Value) :=
  if names.all Value.isKey then .ok (names.filter fun n => !columns.any (·.1.sameKey n))
  else .error .kind

def insertion (s : Store) (contact : Value) (names : List Value) :
    Except Misuse (String × List Value) := do
  let values ← names.mapM fun n => do stored (← valueOf contact n)
  let quoted ← names.mapM identifier
  return ("INSERT INTO " ++ Sql.quoteIdentifier s.table ++ " (" ++ ", ".intercalate quoted
    ++ ") VALUES (" ++ ", ".intercalate (names.map fun _ => "?") ++ ")", values)

def insert (s : Store) (answers : Answers) (columns : List (Value × String)) (contact : Value) :
    Action Unit := do
  let some names := contact.parts? | throw (.misuse .kind)
  let unknown ← orMisuse (unknownNames columns names)
  if !unknown.isEmpty then throw (.unknownColumns unknown)
  let (sql, params) ← orMisuse (s.insertion contact names)
  discard (executeOrFail answers sql (some params))

def use (s : Store) (writer : Bool) : ConnectionUse where
  path := s.path
  writer := writer
  functions := sqlFunctions

/-- Inserts contacts, all of them or none, and returns their number. -/
def add (s : Store) (answers : Answers) (contacts : Value) : Action Nat :=
  (s.use true).run answers do
    let columns ← orMisuse s.columns
    let some cs := contacts.parts? | throw (.misuse .kind)
    for c in cs do s.insert answers columns c
    return cs.length

/-- A number read from a value, or a default where the value is no number. -/
def numberOr (v : Value) (default : Int) : Except Misuse Int :=
  match v.toInt with
  | .ok n => .ok n
  | .error .range => .error .range
  | .error _ => .ok default

def clampLimit (s : Store) (v : Value) : Except Misuse Int := do
  return max 0 (min (← numberOr v defaultLimit) s.maxLimit)

def clampOffset (v : Value) : Except Misuse Int := do
  return max 0 (← numberOr v 0)

/-- The columns to show, all of them if none is selected. -/
def selection (select : Value) : Except Misuse String :=
  if !select.truthy then .ok "*"
  else match select.parts? with
    | some names => (names.mapM identifier).map (", ".intercalate ·)
    | none => .error .kind

def row (columns : List String) (r : Value) : Except Misuse Entries :=
  match r.parts? with
  | some vs => .ok (Entries.ofPairs ((columns.map Value.text).zip vs))
  | none => .error .kind

/-- Executes a query about a clause; an error of the database is logged and ends the query. -/
def executeQuery (answers : Answers) (what clause sql : String) (params : List Value) :
    Action Cursor := do
  match ← execute answers sql (some params) with
  | .ok c => return c
  | .error e =>
    if e.isError then
      log .error Log.storeLogger
        (what ++ " query failed: " ++ e.text ++ " (where: " ++ clause ++ ")")
      throw (.query what e.text)
    else throw (.database e.name)

def pageQuery (s : Store) (columns clause : String) : String :=
  "SELECT " ++ columns ++ " FROM " ++ Sql.quoteIdentifier s.table ++ " WHERE " ++ clause
    ++ " ORDER BY id LIMIT ? OFFSET ?"

def countQuery (s : Store) (clause : String) : String :=
  "SELECT COUNT(*) FROM " ++ Sql.quoteIdentifier s.table ++ " WHERE " ++ clause

def pageNote (count : Nat) (limit offset : Int) : Except Misuse String :=
  return "Preview returned " ++ Decimal.Layout.digits count ++ " rows (limit="
    ++ (← Decimal.Layout.integer limit) ++ ", offset=" ++ (← Decimal.Layout.integer offset) ++ ")"

/-- Fetches one page of the contacts that a clause selects. -/
def page (s : Store) (answers : Answers) (clause : String) (params limit offset select : Value) :
    Action Page :=
  (s.use false).run answers do
    let limit ← orMisuse (s.clampLimit limit)
    let offset ← orMisuse (clampOffset offset)
    let columns ← orMisuse (selection select)
    let some ps := params.parts? | throw (.misuse .kind)
    let c ← executeQuery answers "Preview" clause (s.pageQuery columns clause)
      (ps ++ [.int limit, .int offset])
    let rows ← orMisuse (c.rows.mapM (row c.columns))
    log .debug Log.storeLogger (← orMisuse (pageNote rows.length limit offset))
    return ⟨rows, limit, offset⟩

def total (s : Store) (answers : Answers) (clause : String) (params : Value) : Action Value :=
  (s.use false).run answers do
    let some ps := params.parts? | throw (.misuse .kind)
    let c ← executeQuery answers "Count" clause (s.countQuery clause) ps
    match c.rows.head?.bind Value.parts? with
    | some (n :: _) => return n
    | _ => return .int 0

end Store

end Cohort
