import Cohort.Catalog.Bundled
import Cohort.Proofs.Preview.Protocol
import Cohort.Proofs.Traversal

/-!
# Inserting contacts

Contacts are inserted one after the other on one connection, up to the first
that cannot be.  Then all of them are rolled back; otherwise they are committed
once.
-/

namespace Cohort

/-! ## Contacts -/

/-- A contact: values under distinct names. -/
structure Contact where
  cells : List (String × Value)
  distinct : (cells.map Prod.fst).Nodup

namespace Contact

def names (c : Contact) : List String := c.cells.map Prod.fst

def toValue (c : Contact) : Value := .map (c.cells.map fun cell => (.text cell.1, cell.2))

/-- Parameters are the values of some cells as they are stored. -/
def AreStored (cells : List (String × Value)) (params : List Value) : Prop :=
  List.Forall₂ (fun cell p => Store.stored cell.2 = .ok p) cells params

theorem parts?_toValue (c : Contact) : c.toValue.parts? = some (c.names.map .text) := by
  simp only [toValue, Value.parts?, names, List.map_map]
  rfl

/-- Under distinct names, every cell is found under its own. -/
theorem get_of_mem {cells : List (String × Value)} (h : (cells.map Prod.fst).Nodup)
    {cell : String × Value} (hcell : cell ∈ cells) :
    Entries.get (cells.map fun cell => (.text cell.1, cell.2)) cell.1 = cell.2 := by
  induction cells with
  | nil => cases hcell
  | cons cell' cells ih =>
    obtain ⟨hfresh, hcells⟩ := List.nodup_cons.mp h
    simp only [Entries.get, List.map_cons, Entries.get?, Value.text?, Option.some.injEq]
    obtain rfl | hmem := List.mem_cons.mp hcell
    · rw [if_pos rfl]
      rfl
    · have hne : cell'.1 ≠ cell.1 := fun heq => hfresh (heq ▸ List.mem_map_of_mem hmem)
      rw [if_neg hne]
      exact ih hcells hmem

/-- A contact that is handed in has the value of each of its cells. -/
theorem valueOf_toValue (c : Contact) {cell : String × Value} (h : cell ∈ c.cells) :
    Store.valueOf c.toValue (.text cell.1) = .ok cell.2 :=
  congrArg Except.ok (get_of_mem c.distinct h)

end Contact

/-! ## What one contact leads to -/

namespace Store

open Cohort.Action

variable {s : Store} {answers : Answers} {n : Nat} {contact : Contact}
  {contacts : List Contact} {before inserts sent : List Call} {f : Failure}

def knownNames (s : Store) : List String := s.catalog.fields.filterMap (·.column.text?)

/-- The names of a contact that are no columns. -/
def strangers (s : Store) (contact : Contact) : List String :=
  contact.names.filter (· ∉ s.knownNames)

/-- The statement that inserts values under some names: one quoted name and one placeholder for
each. -/
def insertText (s : Store) (names : List String) : String :=
  "INSERT INTO " ++ Sql.quoteIdentifier s.table
    ++ " (" ++ ", ".intercalate (names.map Sql.quoteIdentifier)
    ++ ") VALUES (" ++ ", ".intercalate (names.map fun _ => "?") ++ ")"

def insertCall (s : Store) (contact : Contact) (params : List Value) : Call :=
  .execute (s.insertText contact.names) (some params)

/-- What comes of the attempt to insert a contact by a statement with some number: the calls that
are made, and how it ends. -/
inductive Attempt (s : Store) (answers : Answers) (n : Nat) (contact : Contact) :
    List Call → Except Failure Unit → Prop
  | inserted {params : List Value} {cursor : Cursor} :
      s.strangers contact = [] → Contact.AreStored contact.cells params →
      answers.statement n = .ok cursor →
      Attempt s answers n contact [s.insertCall contact params] (.ok ())
  | unknown :
      s.strangers contact ≠ [] →
      Attempt s answers n contact [] (.error (.unknownColumns ((s.strangers contact).map .text)))
  /-- The first value that cannot be stored. -/
  | unstorable {front back : List (String × Value)} {cell : String × Value}
      {params : List Value} {m : Misuse} :
      s.strangers contact = [] → contact.cells = front ++ cell :: back →
      Contact.AreStored front params → stored cell.2 = .error m →
      Attempt s answers n contact [] (.error (.misuse m))
  | refused {params : List Value} {e : DatabaseError} :
      s.strangers contact = [] → Contact.AreStored contact.cells params →
      answers.statement n = .error e →
      Attempt s answers n contact [s.insertCall contact params] (.error (.database e.name))

/-- All of some contacts are inserted, each by one call, by statements numbered from some number
on. -/
inductive Inserted (s : Store) (answers : Answers) : Nat → List Contact → List Call → Prop
  | nil {n : Nat} : Inserted s answers n [] []
  | cons {n : Nat} {contact : Contact} {contacts : List Contact} {insert : Call}
      {inserts : List Call} :
      Attempt s answers n contact [insert] (.ok ()) →
      Inserted s answers (n + 1) contacts inserts →
      Inserted s answers n (contact :: contacts) (insert :: inserts)

/-! ## The columns -/

/-- Whether a text is among the names of some columns. -/
def Names (columns : List (Value × String)) (name : String) : Prop :=
  ∃ c ∈ columns, c.1 = .text name

theorem any_sameKey_iff {columns : List (Value × String)} {name : String} :
    columns.any (·.1.sameKey (.text name)) = true ↔ Names columns name := by
  simp only [List.any_eq_true, Value.sameKey_text_iff, Names]

/-- A column that can be a key is added under its name. -/
theorem addColumn_of_isKey {f : Field} (hf : f.column.isKey = true)
    (columns : List (Value × String)) :
    ∃ columns', addColumn columns f = .ok columns' ∧
      ∀ name, Names columns' name ↔ Names columns name ∨ f.column = .text name := by
  unfold addColumn
  rw [hf, Bool.not_true, if_neg Bool.false_ne_true]
  split
  next hany =>
    refine ⟨columns, rfl, fun name => ⟨.inl, ?_⟩⟩
    rintro (h | h)
    · exact h
    · rw [h] at hany
      exact any_sameKey_iff.mp hany
  next =>
    refine ⟨_, rfl, fun name => ?_⟩
    simp only [Names, List.mem_append, List.mem_singleton, or_and_right, exists_or,
      exists_eq_left]

theorem foldlM_addColumn_of_isKey {fields : List Field} (h : ∀ f ∈ fields, f.column.isKey = true)
    (columns : List (Value × String)) :
    ∃ columns', fields.foldlM addColumn columns = .ok columns' ∧
      ∀ name, Names columns' name ↔
        Names columns name ∨ ∃ f ∈ fields, f.column = .text name := by
  induction fields generalizing columns with
  | nil => exact ⟨columns, rfl, by simp⟩
  | cons f fields ih =>
    obtain ⟨hf, hfields⟩ := List.forall_mem_cons.mp h
    obtain ⟨columns', hadd, hnames⟩ := addColumn_of_isKey hf columns
    obtain ⟨columns'', hfold, hnames'⟩ := ih hfields columns'
    refine ⟨columns'', ?_, fun name => ?_⟩
    · rw [List.foldlM_cons, hadd]
      exact hfold
    · rw [hnames', hnames, List.exists_mem_cons_iff, or_assoc]

/-- One column that cannot be a key is enough to have no columns. -/
theorem foldlM_addColumn_of_not_isKey {fields : List Field} {f : Field} (hf : f ∈ fields)
    (hkey : f.column.isKey = false) (columns : List (Value × String)) :
    fields.foldlM addColumn columns = .error .kind := by
  induction fields generalizing columns with
  | nil => cases hf
  | cons f' fields ih =>
    rw [List.foldlM_cons]
    cases hkey' : f'.column.isKey with
    | false =>
      rw [addColumn, hkey']
      rfl
    | true =>
      obtain ⟨columns', hadd, -⟩ := addColumn_of_isKey hkey' columns
      rw [hadd]
      obtain rfl | hmem := List.mem_cons.mp hf
      · rw [hkey'] at hkey
        cases hkey
      · exact ih hmem columns'

/-- The known names are the columns of the fields that are texts. -/
theorem mem_knownNames_iff {name : String} :
    name ∈ s.knownNames ↔ ∃ f ∈ s.catalog.fields, f.column = .text name := by
  have htext : ∀ v : Value, v.text? = some name ↔ v = .text name := fun v => by
    cases v <;> simp [Value.text?]
  simp only [knownNames, List.mem_filterMap, htext]

/-- A text is found among some columns just if it is a known name. -/
def AreColumns (s : Store) (columns : List (Value × String)) : Prop :=
  ∀ name, columns.any (·.1.sameKey (.text name)) = decide (name ∈ s.knownNames)

/-- The columns are those of the fields. -/
theorem columns_of_isKey (h : ∀ f ∈ s.catalog.fields, f.column.isKey = true) :
    ∃ columns, s.columns = .ok columns ∧ s.AreColumns columns := by
  obtain ⟨columns, hfold, hnames⟩ := foldlM_addColumn_of_isKey h []
  refine ⟨columns, hfold, fun name => ?_⟩
  rw [Bool.eq_iff_iff, any_sameKey_iff, hnames, decide_eq_true_iff, mem_knownNames_iff]
  simp [Names]

/-! ## One contact -/

theorem mapM_stored (contact : Contact) :
    ((contact.names.map Value.text).mapM fun name => do stored (← valueOf contact.toValue name)) =
      contact.cells.mapM fun cell => stored cell.2 := by
  rw [Contact.names, List.map_map, List.mapM_map]
  refine mapM_congr fun cell hcell => ?_
  rw [Function.comp_apply, Function.comp_apply, contact.valueOf_toValue hcell]
  rfl

theorem mapM_identifier (names : List String) :
    (names.map Value.text).mapM identifier = .ok (names.map Sql.quoteIdentifier) := by
  rw [List.mapM_map]
  exact List.mapM_pure

/-- The statement for a contact names its cells, in order, and binds what they store. -/
theorem insertion_eq (s : Store) (contact : Contact) :
    s.insertion contact.toValue (contact.names.map .text) = do
      let params ← contact.cells.mapM fun cell => stored cell.2
      return (s.insertText contact.names, params) := by
  rw [insertion, mapM_stored]
  refine congrArg _ (funext fun params => ?_)
  rw [mapM_identifier, List.map_map]
  rfl

/-- The names of a contact that are no columns, as they are looked for. -/
theorem unknownNames_eq {columns : List (Value × String)} (h : s.AreColumns columns)
    (contact : Contact) :
    unknownNames columns (contact.names.map .text) =
      .ok ((s.strangers contact).map .text) := by
  have hkeys : (contact.names.map Value.text).all Value.isKey = true := by
    rw [List.all_map]
    exact List.all_eq_true.mpr fun _ _ => rfl
  unfold AreColumns at h
  rw [unknownNames, if_pos hkeys, List.filter_map, strangers]
  simp only [Function.comp_def, h, decide_not]

/-- Inserting a contact, in terms of its names and values. -/
theorem insert_eq {columns : List (Value × String)} (h : s.AreColumns columns)
    (answers : Answers) (contact : Contact) :
    s.insert answers columns contact.toValue =
      if (s.strangers contact).isEmpty then do
        let params ← orMisuse (contact.cells.mapM fun cell => stored cell.2)
        discard (executeOrFail answers (s.insertText contact.names) (some params))
      else throw (.unknownColumns ((s.strangers contact).map .text)) := by
  simp only [insert, contact.parts?_toValue, unknownNames_eq h, insertion_eq]
  rw [orMisuse, pure_bind, List.isEmpty_map]
  cases (s.strangers contact).isEmpty with
  | false => rfl
  | true =>
    cases contact.cells.mapM fun cell => stored cell.2 with
    | error m => rfl
    | ok params => rfl

/-- Inserting a contact comes to what is attempted. -/
theorem Attempt.does_insert {columns : List (Value × String)} {calls : List Call}
    {r : Except Failure Unit} (h : s.AreColumns columns)
    (hattempt : Attempt s answers (before.countP Call.isStatement) contact calls r) :
    (s.insert answers columns contact.toValue).Does before calls r := by
  rw [insert_eq h]
  cases hattempt with
  | unknown hunknown =>
    rw [if_neg (mt List.isEmpty_iff.mp hunknown)]
    exact does_throw before _
  | unstorable hknown hsplit hfront hcell =>
    rw [if_pos (List.isEmpty_iff.mpr hknown),
      mapM_eq_error_iff.mpr ⟨_, _, _, _, hsplit, hfront, hcell⟩]
    exact (does_orMisuse before _).bind_error
  | @inserted params _ hknown hstored hanswer =>
    rw [if_pos (List.isEmpty_iff.mpr hknown), mapM_eq_ok_iff.mpr hstored]
    have hexecute := does_executeOrFail answers before (s.insertText contact.names) (some params)
    rw [hanswer] at hexecute
    exact (does_orMisuse before _).bind_silent hexecute.discard
  | @refused params _ hknown hstored hanswer =>
    rw [if_pos (List.isEmpty_iff.mpr hknown), mapM_eq_ok_iff.mpr hstored]
    have hexecute := does_executeOrFail answers before (s.insertText contact.names) (some params)
    rw [hanswer] at hexecute
    exact (does_orMisuse before _).bind_silent hexecute.discard_error

/-- An attempt to insert a contact succeeds or fails, in one of the ways told. -/
theorem attempt_total (s : Store) (answers : Answers) (n : Nat) (contact : Contact) :
    ∃ calls r, Attempt s answers n contact calls r := by
  by_cases hknown : s.strangers contact = []
  · cases hstored : contact.cells.mapM fun cell => stored cell.2 with
    | error m =>
      obtain ⟨front, cell, back, params, hsplit, hfront, hcell⟩ := mapM_eq_error_iff.mp hstored
      exact ⟨_, _, .unstorable hknown hsplit hfront hcell⟩
    | ok params =>
      cases hanswer : answers.statement n with
      | ok cursor => exact ⟨_, _, .inserted hknown (mapM_eq_ok_iff.mp hstored) hanswer⟩
      | error e => exact ⟨_, _, .refused hknown (mapM_eq_ok_iff.mp hstored) hanswer⟩
  · exact ⟨_, _, .unknown hknown⟩

/-! ## A list of contacts -/

/-- What becomes of a list of contacts: all of them are inserted, or there is a first that cannot
be. -/
theorem inserted_or_fails (s : Store) (answers : Answers) (n : Nat) (contacts : List Contact) :
    (∃ inserts, Inserted s answers n contacts inserts) ∨
      ∃ taken contact rest inserts sent f, contacts = taken ++ contact :: rest ∧
        Inserted s answers n taken inserts ∧
        Attempt s answers (n + taken.length) contact sent (.error f) := by
  induction contacts generalizing n with
  | nil => exact .inl ⟨[], .nil⟩
  | cons contact contacts ih =>
    obtain ⟨calls, r, hattempt⟩ := attempt_total s answers n contact
    cases hattempt with
    | inserted hknown hstored hanswer =>
      have hcontact := Attempt.inserted hknown hstored hanswer
      refine (ih (n + 1)).imp (fun ⟨inserts, h⟩ => ⟨_, .cons hcontact h⟩) ?_
      rintro ⟨taken, contact', rest, inserts, sent, f, rfl, htaken, hfails⟩
      refine ⟨contact :: taken, contact', rest, _, sent, f, rfl, .cons hcontact htaken, ?_⟩
      rwa [List.length_cons, Nat.add_comm taken.length, ← Nat.add_assoc]
    | unknown hunknown => exact .inr ⟨[], contact, contacts, [], _, _, rfl, .nil, .unknown hunknown⟩
    | unstorable hknown hsplit hfront hcell =>
      exact .inr ⟨[], contact, contacts, [], _, _, rfl, .nil,
        .unstorable hknown hsplit hfront hcell⟩
    | refused hknown hstored hanswer =>
      exact .inr ⟨[], contact, contacts, [], _, _, rfl, .nil, .refused hknown hstored hanswer⟩

theorem Attempt.countP_append_insert {insert : Call} (before : List Call)
    (h : Attempt s answers n contact [insert] (.ok ())) :
    (before ++ [insert]).countP Call.isStatement = before.countP Call.isStatement + 1 := by
  cases h
  rw [List.countP_append]
  rfl

/-- The loop that inserts contacts. -/
theorem Inserted.does_each {columns : List (Value × String)} (h : s.AreColumns columns)
    (hinserted : Inserted s answers n contacts inserts)
    (hn : before.countP Call.isStatement = n) :
    (each (s.insert answers columns) (contacts.map Contact.toValue)).Does before inserts
      (.ok PUnit.unit) := by
  induction hinserted generalizing before with
  | nil => exact does_pure before _
  | cons hcontact _ ih =>
    subst hn
    exact does_each_cons (hcontact.does_insert h) (ih (hcontact.countP_append_insert before))

/-- The loop up to the first contact that cannot be inserted. -/
theorem Inserted.does_each_of_fails {columns : List (Value × String)} {taken rest : List Contact}
    (h : s.AreColumns columns) (htaken : Inserted s answers n taken inserts)
    (hfails : Attempt s answers (n + taken.length) contact sent (.error f))
    (hn : before.countP Call.isStatement = n) :
    (each (s.insert answers columns) ((taken ++ contact :: rest).map Contact.toValue)).Does before
      (inserts ++ sent) (.error f) := by
  induction htaken generalizing before with
  | nil =>
    subst hn
    exact does_each_cons_error (hfails.does_insert h)
  | @cons n contact' taken insert inserts hcontact _ ih =>
    subst hn
    have hcalls : insert :: inserts ++ sent = [insert] ++ (inserts ++ sent) := rfl
    rw [hcalls]
    refine does_each_cons (hcontact.does_insert h) (ih ?_ (hcontact.countP_append_insert before))
    rwa [Nat.add_assoc, Nat.add_comm 1]

/-! ## The connection -/

theorem countP_append_opened (s : Store) (before : List Call) :
    (before ++ s.opened).countP Call.isStatement = before.countP Call.isStatement := by
  rw [List.countP_append]
  rfl

/-- What comes of adding contacts by statements numbered from some number on: the calls that are
made, and how it ends. -/
inductive Addition (s : Store) (answers : Answers) (n : Nat) (contacts : List Contact) :
    List Call → Except Failure Nat → Prop
  | committed {inserts : List Call} :
      (∀ c ∈ (s.use true).opening, answers.refusal c = none) →
      (∀ f ∈ s.catalog.fields, f.column.isKey = true) →
      Inserted s answers n contacts inserts →
      Addition s answers n contacts (s.opened ++ inserts ++ [.commit, .close])
        (.ok contacts.length)
  /-- The first contact that cannot be inserted. -/
  | rolledBack {taken rest : List Contact} {contact : Contact} {inserts sent : List Call}
      {f : Failure} :
      (∀ c ∈ (s.use true).opening, answers.refusal c = none) →
      (∀ f ∈ s.catalog.fields, f.column.isKey = true) →
      contacts = taken ++ contact :: rest → Inserted s answers n taken inserts →
      Attempt s answers (n + taken.length) contact sent (.error f) →
      Addition s answers n contacts (s.opened ++ (inserts ++ sent) ++ [.rollback, .close])
        (.error f)
  /-- A field whose column cannot be the name of one. -/
  | nameless {f : Field} :
      (∀ c ∈ (s.use true).opening, answers.refusal c = none) →
      f ∈ s.catalog.fields → f.column.isKey = false →
      Addition s answers n contacts (s.opened ++ [.rollback, .close]) (.error (.misuse .kind))
  /-- A call of the setup that the database refuses. -/
  | unready {calls : List Call} {e : DatabaseError} :
      answers.refusal (.connect s.path) = none →
      ConnectionUse.Refused answers e (s.use true).setup calls →
      Addition s answers n contacts (.connect s.path :: calls ++ [.rollback, .close])
        (.error (.database e.name))
  /-- The connection is refused. -/
  | unopened {e : DatabaseError} : answers.refusal (.connect s.path) = some e →
      Addition s answers n contacts [.connect s.path] (.error (.database e.name))

/-- An addition succeeds or fails, in one of the ways told. -/
theorem addition_total (s : Store) (answers : Answers) (n : Nat) (contacts : List Contact) :
    ∃ calls r, Addition s answers n contacts calls r := by
  cases hconnect : answers.refusal (.connect s.path) with
  | some e => exact ⟨_, _, .unopened hconnect⟩
  | none =>
    obtain hset | ⟨e, calls, hrefused⟩ :=
      ConnectionUse.accepted_or_refused answers (s.use true).setup
    · have hopen : ∀ c ∈ (s.use true).opening, answers.refusal c = none :=
        List.forall_mem_cons.mpr ⟨hconnect, hset⟩
      by_cases hkeys : ∀ f ∈ s.catalog.fields, f.column.isKey = true
      · obtain ⟨inserts, h⟩ | ⟨taken, contact, rest, inserts, sent, f, hsplit, htaken, hfails⟩ :=
          inserted_or_fails s answers n contacts
        · exact ⟨_, _, .committed hopen hkeys h⟩
        · exact ⟨_, _, .rolledBack hopen hkeys hsplit htaken hfails⟩
      · simp only [not_forall, Bool.not_eq_true] at hkeys
        obtain ⟨f, hf, hkey⟩ := hkeys
        exact ⟨_, _, .nameless hopen hf hkey⟩
    · exact ⟨_, _, .unready hconnect hrefused⟩

theorem add_toValue (s : Store) (answers : Answers) (contacts : List Contact) :
    s.add answers (.list (contacts.map Contact.toValue)) = (s.use true).run answers (do
      let columns ← orMisuse s.columns
      each (s.insert answers columns) (contacts.map Contact.toValue)
      return contacts.length) := by
  rw [add]
  simp only [Value.parts?, List.length_map]

/-- Adding contacts does what is told of the addition. -/
theorem Addition.does_add {calls : List Call} {r : Except Failure Nat}
    (h : Addition s answers (before.countP Call.isStatement) contacts calls r) :
    (s.add answers (.list (contacts.map Contact.toValue))).Does before calls r := by
  rw [add_toValue]
  cases h with
  | committed hopen hkeys hinserted =>
    obtain ⟨columns, hcolumns, hknown⟩ := columns_of_isKey hkeys
    rw [hcolumns]
    refine ConnectionUse.does_run hopen ((does_orMisuse _ _).bind_silent ?_)
    exact (hinserted.does_each hknown (s.countP_append_opened before)).bind_last (does_pure _ _)
  | rolledBack hopen hkeys hsplit htaken hfails =>
    obtain ⟨columns, hcolumns, hknown⟩ := columns_of_isKey hkeys
    rw [hcolumns, hsplit]
    refine ConnectionUse.does_run hopen ((does_orMisuse _ _).bind_silent ?_)
    exact (htaken.does_each_of_fails hknown hfails (s.countP_append_opened before)).bind_error
  | nameless hopen hf hkey =>
    have hcolumns : s.columns = .error .kind := foldlM_addColumn_of_not_isKey hf hkey []
    rw [hcolumns, ← List.append_nil s.opened]
    exact ConnectionUse.does_run hopen (does_orMisuse _ _).bind_error
  | unready hconnect hrefused => exact hrefused.does_run hconnect
  | unopened hconnect => exact ConnectionUse.does_run_of_refusal hconnect

/-- Adding contacts is all or nothing, and every operation of the store holds to the protocol of
connections. -/
theorem add_all_or_nothing (s : Store) (answers : Answers) :
    (∀ (before : List Call) (contacts : List Contact),
      (∃ calls r, Addition s answers (before.countP Call.isStatement) contacts calls r) ∧
      ∀ calls r, Addition s answers (before.countP Call.isStatement) contacts calls r →
        (s.add answers (.list (contacts.map Contact.toValue))).Does before calls r) ∧
    (∀ contacts, (s.add answers contacts).KeepsProtocol answers true) ∧
    (s.prepare answers).KeepsProtocol answers true ∧
    (∀ clause params limit offset select,
      (s.page answers clause params limit offset select).KeepsProtocol answers false) ∧
    ∀ clause params, (s.total answers clause params).KeepsProtocol answers false :=
  ⟨fun _ contacts => ⟨addition_total s answers _ contacts, fun _ _ h => h.does_add⟩,
    keepsProtocol_add s answers, keepsProtocol_prepare s answers, keepsProtocol_page s answers,
    keepsProtocol_total s answers⟩

/-- A second contact with a column that is not known takes the first one back. -/
theorem add_all_or_nothing_unknown :
    let s : Store := { path := "p.db", catalog := .bundled }
    let answers : Answers := { statement := fun _ => .ok {} }
    let known : Contact := ⟨[("intent.score", .int 5), ("date.days_back", .null)], by decide⟩
    let unknown : Contact := ⟨[("intent.score", .int 6), ("shoe_size", .int 42)], by decide⟩
    let text := "INSERT INTO \"audience_contacts\" " ++
      "(\"intent.score\", \"date.days_back\") VALUES (?, ?)"
    (s.add answers (.list ([known, unknown, known].map Contact.toValue))).Does []
      (s.opened ++ [.execute text (some [.int 5, .null])] ++ [.rollback, .close])
      (.error (.unknownColumns [.text "shoe_size"])) := by
  intro s answers known unknown text
  obtain ⟨h, -⟩ := add_all_or_nothing s answers
  have htext : s.insertText known.names = text := by decide
  have hknown : Attempt s answers 0 known [.execute text (some [.int 5, .null])] (.ok ()) := by
    rw [← htext]
    exact .inserted (by decide) (.cons rfl (.cons rfl .nil)) rfl
  have hunknown : Attempt s answers 1 unknown [] (.error (.unknownColumns [.text "shoe_size"])) :=
    .unknown (by decide)
  have hadded : Addition s answers 0 [known, unknown, known]
      (s.opened ++ ([.execute text (some [.int 5, .null])] ++ []) ++ [.rollback, .close])
      (.error (.unknownColumns [.text "shoe_size"])) :=
    .rolledBack (fun _ _ => rfl) (by decide) rfl (.cons hknown .nil) hunknown
  exact (h [] [known, unknown, known]).2 _ _ hadded

end Store

end Cohort
