import Cohort.Proofs.Log.Files
import Cohort.Proofs.Traversal
import Mathlib.Data.Finset.Card

/-!
# Calls of a log book

A log book is asked for loggers and logs messages by the loggers that it has handed out.  What is
known after some calls (`IsKept`) is kept by each call: there is one logger for each name that was
asked for, set up as its first request told, and the files hold what each record has left in them,
in the order of the calls.  A message whose context cannot be written makes no record.
-/

namespace Cohort.Log

/-- A message with what goes into its record. -/
structure Message where
  seconds : Int
  site : Book.Site
  level : Level
  text : String
  context : Value

/-- What a logger of a name and a level makes of a message: a record beside the name of its level,
unless the level of the message is lower. -/
def Message.record? (m : Message) (logger : String) (level : Level) :
    Except Misuse (Option (String × Record)) := do
  let text ← Book.withContext m.text m.context
  if m.level < level then return none
  return some (← Level.name m.level, ⟨m.level, logger, text⟩)

theorem Message.level_le_of_record? {m : Message} {logger levelName : String} {level : Level}
    {r : Record} (h : m.record? logger level = .ok (some (levelName, r))) : level ≤ r.level := by
  obtain ⟨text, -, h⟩ := exists_of_bind_eq_ok h
  by_cases hbelow : m.level < level
  · rw [if_pos hbelow] at h
    cases h
  · rw [if_neg hbelow] at h
    obtain ⟨name, -, h⟩ := exists_of_bind_eq_ok h
    cases h
    exact Int.not_lt.mp hbelow

/-- What a log book is asked to do. -/
inductive Call where
  /-- To hand out the logger of a name. -/
  | ask (component : Option String) (name : String)
  /-- To log a message by the logger that has been handed out under a full name. -/
  | record (logger : String) (m : Message)

namespace Call

/-- The full name of the logger that is asked for. -/
def asked? : Call → Option String
  | ask component name => some (fullName (keyOf component name))
  | record .. => none

/-- The file for the logger of a full name, if this is the logger that is asked for. -/
def ownFile? (logger : String) : Call → Option String
  | ask component name =>
    if fullName (keyOf component name) = logger then some (fileOf component name) else none
  | record .. => none

/-- What a call of a fresh book is answered with: a request with the logger of the name, a message
with nothing, or with the reason why there is no record of it. -/
def answer (fresh : Book) (named? : String → Option Logger) : Call → Except Misuse (Option Logger)
  | ask component name => .ok (named? (fullName (keyOf component name)))
  | record logger m => (m.record? logger fresh.level).map fun _ => none

/-- What a call of a fresh book leaves in a file, where loggers have files of their own: what the
record of a message leaves, if there is one, and a folder. -/
def landing (fresh : Book) (own? : String → Option String) (file : String) : Call → String
  | ask .. => ""
  | record logger m =>
    match own? logger, m.record? logger fresh.level with
    | some own, .ok (some (levelName, r)) =>
      if fresh.hasFolder then fresh.landing own m.seconds m.site levelName r file else ""
    | _, _ => ""

end Call

def askedNames (calls : List Call) : List String := calls.filterMap Call.asked?

/-- The file of the logger with a full name: the first request for the logger settles it. -/
def ownFile? (calls : List Call) (logger : String) : Option String :=
  calls.findSome? (·.ownFile? logger)

/-- Calls that can be made: names make names of files, and messages are logged by loggers that have
been handed out before. -/
structure ArePossible (calls : List Call) : Prop where
  isName : ∀ component name, .ask component name ∈ calls → IsName name
  handedOut : ∀ before logger m behind, calls = before ++ .record logger m :: behind →
    logger ∈ askedNames before

/-- None of the names that are asked for stands before a dot of another one. -/
def AreFlat (calls : List Call) : Prop :=
  ∀ above ∈ askedNames calls, ∀ below ∈ askedNames calls, ¬ IsDottedBeginning above below

instance (calls : List Call) : Decidable (AreFlat calls) :=
  inferInstanceAs (Decidable (∀ above ∈ askedNames calls, ∀ below ∈ askedNames calls,
    ¬ IsDottedBeginning above below))

namespace Book

/-- Answers a call: with a logger if one is asked for.  A message that makes no record for a misuse
leaves the book as it is. -/
def perform (b : Book) : Call → Option (Except Misuse (Option Logger) × Book)
  | .ask component name => (b.logger? component name).map fun r => (.ok (some r.1), r.2)
  | .record logger m => (b.named? logger).map fun l =>
    match b.logWithContext l m.seconds m.site m.level m.text m.context with
    | .ok b' => (.ok none, b')
    | .error e => (.error e, b)

def run (b : Book) : List Call → Option (List (Except Misuse (Option Logger)) × Book)
  | [] => some ([], b)
  | c :: calls => do
    let (answer, b) ← b.perform c
    let (answers, b) ← b.run calls
    return (answer :: answers, b)

/-! ## Handing out a logger -/

section Requests

variable {b : Book} {component : Option String} {name : String} {l : Logger}

/-- Different keys have different full names. -/
theorem fullName_injective : Function.Injective fullName := fun _ _ h =>
  (String.append_right_inj _).mp h

theorem find?_eq_named? (b : Book) (key : String) : b.find? key = b.named? (fullName key) := by
  rw [find?, named?]
  congr 1
  funext l
  rw [Logger.name, Bool.eq_iff_iff, beq_iff_eq, beq_iff_eq, fullName_injective.eq_iff]

/-- Takes up a new logger and makes sure that its files are there. -/
def enter (b : Book) (l : Logger) : Book :=
  l.handlers.foldl (fun b h => b.touch h.file) { b with loggers := b.loggers ++ [l] }

/-- Making sure that files are there changes nothing else. -/
theorem touched (handlers : List Handler) (b : Book) :
    let b' := handlers.foldl (fun b h => b.touch h.file) b
    (b'.debug = b.debug ∧ b'.hasFolder = b.hasFolder ∧ b'.loggers = b.loggers) ∧
      (∀ file, b'.HasFile file ↔ b.HasFile file ∨ file ∈ handlers.map (·.file)) ∧
      ∀ file, b'.text file = b.text file := by
  induction handlers generalizing b with
  | nil => simp
  | cons h handlers ih =>
    obtain ⟨⟨hdebug, hfolder, hloggers⟩, hfiles, htext⟩ := ih (b.touch h.file)
    have hsame : (b.touch h.file).debug = b.debug ∧ (b.touch h.file).hasFolder = b.hasFolder ∧
        (b.touch h.file).loggers = b.loggers := by
      unfold touch
      split <;> exact ⟨rfl, rfl, rfl⟩
    refine ⟨⟨hdebug.trans hsame.1, hfolder.trans hsame.2.1, hloggers.trans hsame.2.2⟩, ?_, ?_⟩
    · intro file
      rw [List.foldl_cons, hfiles, hasFile_touch_iff, List.map_cons, List.mem_cons, or_assoc]
    · intro file
      rw [List.foldl_cons, htext, text_touch]

/-- A logger that is there is handed out, and the book stays as it is. -/
theorem logger?_of_named (h : b.named? (fullName (keyOf component name)) = some l) :
    b.logger? component name = some (l, b) := by
  rw [logger?, find?_eq_named?, h]

/-- A new logger has the level of the book, and its handlers if there is a folder. -/
theorem logger?_of_new (h : b.named? (fullName (keyOf component name)) = none)
    (hname : IsName name) : ∃ l, b.logger? component name = some (l, b.enter l) ∧
      l.key = keyOf component name ∧ l.level = b.level ∧
      l.handlers = if b.hasFolder then [⟨fileOf component name, 0⟩, ⟨errorFile, Level.error⟩]
        else [] := by
  have hopen : b.canOpen component name = true := by
    rw [canOpen, hname.folderExists_fileOf, Bool.or_true]
  refine ⟨⟨keyOf component name, b.level, b.handlersFor component name⟩, ?_, rfl, rfl, ?_⟩
  · rw [logger?, find?_eq_named?, h]
    dsimp only
    rw [if_pos hopen]
    rfl
  · rw [handlersFor, hname.plainFile_fileOf]

end Requests

/-! ## Logging a message -/

section Messages

variable {b : Book} {logger : String} {l : Logger} {m : Message}

/-- The book with the record of a message, if a logger makes one. -/
def logged (b : Book) (l : Logger) (m : Message) : Book :=
  match m.record? l.name l.level with
  | .ok (some (levelName, r)) => b.emitAll m.seconds m.site levelName r (b.reached l.name)
  | _ => b

/-- Logging changes the texts of files and nothing else. -/
theorem isRewritten_logged (b : Book) (l : Logger) (m : Message) :
    IsRewritten b (b.logged l m) := by
  unfold logged
  split
  case h_1 => exact isRewritten_emitAll ..
  case h_2 => exact .refl b

theorem perform_record (h : b.named? logger = some l) : b.perform (.record logger m) =
    some ((m.record? l.name l.level).map fun _ => none, b.logged l m) := by
  rw [perform, h, Option.map_some, logWithContext, logged, Message.record?]
  cases withContext m.text m.context with
  | error e => rfl
  | ok text =>
    by_cases hbelow : m.level < l.level
    · simp only [log, hbelow, if_true]
      rfl
    · cases hname : Level.name m.level with
      | error e => simp [log, hbelow, hname, bind, Except.bind, Except.map]
      | ok levelName =>
        simp [log, hbelow, hname, bind, Except.bind, Except.map, emitAll, pure, Except.pure]

end Messages

/-! ## What calls keep -/

/-- A logger is set up as the first request for it has told. -/
structure IsSetUp (fresh : Book) (calls : List Call) (l : Logger) : Prop where
  level : l.level = fresh.level
  handlers : ∃ own, ownFile? calls l.name = some own ∧ own ≠ errorFile ∧
    l.handlers = if fresh.hasFolder then [⟨own, 0⟩, ⟨errorFile, Level.error⟩] else []

/-- What is known about a book after the first of some calls, where it was fresh before. -/
structure IsKept (fresh : Book) (calls past : List Call) (b : Book) : Prop where
  debug : b.debug = fresh.debug
  hasFolder : b.hasFolder = fresh.hasFolder
  distinct : (b.loggers.map (·.name)).Nodup
  mem_iff : ∀ n, n ∈ b.loggers.map (·.name) ↔ n ∈ askedNames past
  isSetUp : ∀ l ∈ b.loggers, IsSetUp fresh calls l
  hasFile : ∀ l ∈ b.loggers, ∀ h ∈ l.handlers, b.HasFile h.file
  text : AreFlat calls → ∀ file,
    b.text file = String.join (past.map (·.landing fresh (ownFile? calls) file))

section Keeping

variable {fresh b : Book} {calls past behind : List Call} {component : Option String}
  {name n logger : String} {l : Logger} {m : Message}

theorem askedNames_append (past behind : List Call) :
    askedNames (past ++ behind) = askedNames past ++ askedNames behind := List.filterMap_append

/-- A logger that is not asked for has no file. -/
theorem ownFile?_eq_none (h : n ∉ askedNames calls) : ownFile? calls n = none := by
  rw [ownFile?, List.findSome?_eq_none_iff]
  intro c hc
  cases c with
  | record logger m => rfl
  | ask component name =>
    refine if_neg ?_
    rintro rfl
    exact h (List.mem_filterMap.mpr ⟨_, hc, rfl⟩)

/-- The first request for a logger settles its file. -/
theorem ownFile?_of_new (h : fullName (keyOf component name) ∉ askedNames past) :
    ownFile? (past ++ .ask component name :: behind) (fullName (keyOf component name)) =
      some (fileOf component name) := by
  have hpast : past.findSome? (Call.ownFile? (fullName (keyOf component name))) = none :=
    ownFile?_eq_none h
  rw [ownFile?, List.findSome?_append, hpast, Option.none_or, List.findSome?_cons, Call.ownFile?,
    if_pos rfl]

theorem join_append_singleton (texts : List String) (t : String) :
    String.join (texts ++ [t]) = String.join texts ++ t := by
  rw [String.join, String.join, List.foldl_append]
  rfl

theorem level_nonneg (b : Book) : 0 ≤ b.level := by
  unfold level
  split <;> decide

/-- A fresh book keeps no calls. -/
theorem isKept_fresh (debug hasFolder : Bool) (calls : List Call) :
    IsKept { debug, hasFolder } calls [] { debug, hasFolder } where
  debug := rfl
  hasFolder := rfl
  distinct := List.nodup_nil
  mem_iff _ := Iff.rfl
  isSetUp := nofun
  hasFile := nofun
  text _ _ := rfl

namespace IsKept

variable (kept : IsKept fresh calls past b)

include kept

/-- A kept book has one logger for each name. -/
theorem named?_eq_some_iff : b.named? n = some l ↔ l ∈ b.loggers ∧ l.name = n := by
  constructor
  · intro h
    exact ⟨List.mem_of_find?_eq_some h, by simpa using List.find?_some h⟩
  · rintro ⟨hl, rfl⟩
    have hsome : (b.named? l.name).isSome := List.find?_isSome.mpr ⟨l, hl, beq_self_eq_true _⟩
    obtain ⟨l', hl'⟩ := Option.isSome_iff_exists.mp hsome
    have hname : l'.name = l.name := by simpa using List.find?_some hl'
    rwa [List.inj_on_of_nodup_map kept.distinct (List.mem_of_find?_eq_some hl') hl hname] at hl'

/-- A kept book has no logger that was not asked for. -/
theorem named?_eq_none_iff : b.named? n = none ↔ n ∉ askedNames past := by
  rw [← kept.mem_iff, named?, List.find?_eq_none, List.mem_map, not_exists]
  simp only [beq_iff_eq, not_and]

theorem exists_named? (hn : n ∈ askedNames past) :
    ∃ l ∈ b.loggers, l.name = n ∧ b.named? n = some l := by
  obtain ⟨l, hl, hlname⟩ := List.mem_map.mp ((kept.mem_iff n).mpr hn)
  exact ⟨l, hl, hlname, kept.named?_eq_some_iff.mpr ⟨hl, hlname⟩⟩

theorem level_eq : b.level = fresh.level := by
  rw [level, level, kept.debug]

theorem landing_eq : b.landing = fresh.landing := by
  funext own seconds site levelName r file
  rw [landing, landing, line, line, kept.debug]

/-- Another request for a logger that is there changes nothing. -/
theorem ask_again (hasked : fullName (keyOf component name) ∈ askedNames past) :
    IsKept fresh calls (past ++ [.ask component name]) b :=
  { kept with
    mem_iff n := by
      rw [kept.mem_iff, askedNames_append, List.mem_append]
      refine ⟨.inl, fun h => h.elim id fun hn => ?_⟩
      obtain rfl := List.mem_singleton.mp hn
      exact hasked
    text flat file := by
      rw [kept.text flat file, List.map_append, List.map_singleton, join_append_singleton]
      exact (String.append_empty).symm }

/-- A new logger is set up as its first request tells, and the files stay as they are. -/
theorem ask_new (hnew : fullName (keyOf component name) ∉ askedNames past)
    (hl : l.name = fullName (keyOf component name)) (hsetUp : IsSetUp fresh calls l) :
    IsKept fresh calls (past ++ [.ask component name]) (b.enter l) := by
  obtain ⟨⟨hdebug, hfolder, hloggers⟩, hfiles, htext⟩ :=
    touched l.handlers { b with loggers := b.loggers ++ [l] }
  have hloggers : (b.enter l).loggers = b.loggers ++ [l] := hloggers
  refine ⟨hdebug.trans kept.debug, hfolder.trans kept.hasFolder, ?_, ?_, ?_, ?_, ?_⟩
  · rw [hloggers, List.map_append, List.map_singleton, hl]
    refine kept.distinct.append (List.nodup_singleton _) (List.disjoint_singleton.mpr ?_)
    rwa [kept.mem_iff]
  · intro n
    rw [hloggers, List.map_append, List.mem_append, kept.mem_iff, askedNames_append,
      List.mem_append, List.map_singleton, hl]
    rfl
  · intro l' hl'
    rw [hloggers, List.mem_append, List.mem_singleton] at hl'
    exact hl'.elim (kept.isSetUp l') fun heq => heq ▸ hsetUp
  · intro l' hl' h hh
    rw [hloggers, List.mem_append, List.mem_singleton] at hl'
    refine (hfiles h.file).mpr (hl'.imp (fun hold => kept.hasFile l' hold h hh) ?_)
    rintro rfl
    exact List.mem_map_of_mem hh
  · intro flat file
    rw [List.map_append, List.map_singleton, join_append_singleton, ← kept.text flat file]
    exact (htext file).trans (String.append_empty).symm

/-- A request is answered with the logger of the name. -/
theorem ask (hcalls : calls = past ++ .ask component name :: behind) (hname : IsName name) :
    ∃ l b', b.logger? component name = some (l, b') ∧
      IsKept fresh calls (past ++ [.ask component name]) b' ∧ b.loggers <+: b'.loggers ∧
      b'.named? (fullName (keyOf component name)) = some l := by
  cases hnamed : b.named? (fullName (keyOf component name)) with
  | some l =>
    have hasked : fullName (keyOf component name) ∈ askedNames past := by
      by_contra hnot
      cases hnamed.symm.trans (kept.named?_eq_none_iff.mpr hnot)
    exact ⟨l, b, logger?_of_named hnamed, kept.ask_again hasked, List.prefix_rfl, hnamed⟩
  | none =>
    have hnew := kept.named?_eq_none_iff.mp hnamed
    obtain ⟨l, hl, hkey, hlevel, hhandlers⟩ := logger?_of_new hnamed hname
    have hlname : l.name = fullName (keyOf component name) := congrArg fullName hkey
    have hown : ownFile? calls l.name = some (fileOf component name) := by
      rw [hcalls, hlname, ownFile?_of_new hnew]
    have hsetUp : IsSetUp fresh calls l := by
      refine ⟨hlevel.trans kept.level_eq, _, hown, hname.fileOf_ne_errorFile component, ?_⟩
      rw [hhandlers, kept.hasFolder]
    have kept' := kept.ask_new hnew hlname hsetUp
    have hloggers : (b.enter l).loggers = b.loggers ++ [l] :=
      (touched l.handlers { b with loggers := b.loggers ++ [l] }).1.2.2
    refine ⟨l, b.enter l, hl, kept', hloggers ▸ List.prefix_append _ _, ?_⟩
    rw [kept'.named?_eq_some_iff, hloggers]
    exact ⟨List.mem_append_right _ (List.mem_singleton_self l), hlname⟩

/-- If no name stands before a dot of another one, a record reaches its own logger only. -/
theorem reached_eq (hcalls : calls = past ++ behind) (hl : l ∈ b.loggers) (flat : AreFlat calls) :
    b.reached l.name = l.handlers := by
  have hasked : ∀ l' ∈ b.loggers, l'.name ∈ askedNames calls := fun l' hl' => by
    rw [hcalls, askedNames_append]
    exact List.mem_append_left _ ((kept.mem_iff _).mp (List.mem_map_of_mem hl'))
  refine Book.reached_eq (kept.named?_eq_some_iff.mpr ⟨hl, rfl⟩) fun above habove => ?_
  exact flat _ (hasked above habove) _ (hasked l hl)

/-- A message adds to each file what its call leaves in it, and nothing else. -/
theorem text_logged (hcalls : calls = past ++ .record logger m :: behind) (hl : l ∈ b.loggers)
    (hlname : l.name = logger) (flat : AreFlat calls) (file : String) :
    (b.logged l m).text file =
      b.text file ++ (Call.record logger m).landing fresh (ownFile? calls) file := by
  obtain ⟨hlevel, own, hown, -, hhandlers⟩ := kept.isSetUp l hl
  have hreached := kept.reached_eq hcalls hl flat
  rw [Call.landing, ← hlname, hown, logged, hlevel]
  cases hmade : m.record? l.name fresh.level with
  | error e => exact (String.append_empty).symm
  | ok made =>
    obtain _ | ⟨levelName, r⟩ := made
    · exact (String.append_empty).symm
    dsimp only
    rw [hreached, hhandlers]
    cases hfolder : fresh.hasFolder with
    | false => exact (String.append_empty).symm
    | true =>
      rw [hfolder, if_pos rfl] at hhandlers
      have hfiles := kept.hasFile l hl
      rw [hhandlers] at hfiles
      have hzero : 0 ≤ r.level := (level_nonneg fresh).trans (Message.level_le_of_record? hmade)
      rw [if_pos rfl, if_pos rfl, text_emitAll (hfiles _ List.mem_cons_self)
        (hfiles _ (List.mem_cons_of_mem _ List.mem_cons_self)) hzero, kept.landing_eq]

/-- A message is logged by the logger that has been handed out, and leaves in the files what it has
to leave. -/
theorem record (hcalls : calls = past ++ .record logger m :: behind)
    (hlogger : logger ∈ askedNames past) : ∃ l, b.named? logger = some l ∧ l.name = logger ∧
      l.level = fresh.level ∧ IsKept fresh calls (past ++ [.record logger m]) (b.logged l m) := by
  obtain ⟨l, hl, hlname, hnamed⟩ := kept.exists_named? hlogger
  have hrewritten := isRewritten_logged b l m
  refine ⟨l, hnamed, hlname, (kept.isSetUp l hl).level, hrewritten.debug.trans kept.debug,
    hrewritten.hasFolder.trans kept.hasFolder, ?_, ?_, ?_, ?_, ?_⟩
  · rw [hrewritten.loggers]
    exact kept.distinct
  · intro n
    rw [hrewritten.loggers, kept.mem_iff, askedNames_append]
    exact Iff.of_eq (congrArg (n ∈ ·) (List.append_nil _).symm)
  · rw [hrewritten.loggers]
    exact kept.isSetUp
  · intro l' hl' h hh
    rw [hrewritten.loggers] at hl'
    exact (hrewritten.hasFile _).mpr (kept.hasFile l' hl' h hh)
  · intro flat file
    rw [List.map_append, List.map_singleton, join_append_singleton, ← kept.text flat file]
    exact kept.text_logged hcalls hl hlname flat file

/-- Each call is answered and keeps what is known. -/
theorem perform {c : Call} (possible : ArePossible calls) (hcalls : calls = past ++ c :: behind) :
    ∃ b', b.perform c = some (c.answer fresh b'.named?, b') ∧
      IsKept fresh calls (past ++ [c]) b' ∧ b.loggers <+: b'.loggers := by
  cases c with
  | ask component name =>
    have hmem : .ask component name ∈ calls :=
      hcalls ▸ List.mem_append_right _ List.mem_cons_self
    obtain ⟨l, b', hl, kept', hprefix, hnamed⟩ :=
      kept.ask hcalls (possible.isName component name hmem)
    refine ⟨b', ?_, kept', hprefix⟩
    rw [Book.perform, hl, Call.answer, hnamed]
    rfl
  | record logger m =>
    obtain ⟨l, hl, hlname, hlevel, kept'⟩ :=
      kept.record hcalls (possible.handedOut past logger m behind hcalls)
    refine ⟨b.logged l m, ?_, kept', ?_⟩
    · rw [perform_record hl, Call.answer, hlname, hlevel]
    · rw [(isRewritten_logged b l m).loggers]

end IsKept

/-- A logger that has been handed out stays the one with its name. -/
theorem named?_of_prefix {b' : Book} (h : b.loggers <+: b'.loggers) (hl : b.named? n = some l) :
    b'.named? n = some l := by
  obtain ⟨later, hlater⟩ := h
  have hfind : b.loggers.find? (·.name == n) = some l := hl
  rw [named?, ← hlater, List.find?_append, hfind, Option.some_or]

/-- All calls are answered. -/
theorem IsKept.run (kept : IsKept fresh calls past b) (possible : ArePossible calls)
    (hcalls : calls = past ++ behind) : ∃ b',
      b.run behind = some (behind.map (·.answer fresh b'.named?), b') ∧
      IsKept fresh calls calls b' ∧ b.loggers <+: b'.loggers := by
  induction behind generalizing past b with
  | nil =>
    rw [List.append_nil] at hcalls
    exact ⟨b, rfl, hcalls ▸ kept, List.prefix_rfl⟩
  | cons c behind ih =>
    obtain ⟨b', hperform, kept', hprefix⟩ := kept.perform possible hcalls
    obtain ⟨b'', hrun, kept'', hprefix'⟩ := ih kept' (by rw [hcalls, List.append_assoc]; rfl)
    refine ⟨b'', ?_, kept'', hprefix.trans hprefix'⟩
    have hanswer : c.answer fresh b'.named? = c.answer fresh b''.named? := by
      cases c with
      | record logger m => rfl
      | ask component name =>
        have hn : fullName (keyOf component name) ∈ askedNames (past ++ [.ask component name]) := by
          rw [askedNames_append]
          exact List.mem_append_right _ (List.mem_singleton_self _)
        obtain ⟨l, -, -, hl⟩ := kept'.exists_named? hn
        rw [Call.answer, Call.answer, hl, named?_of_prefix hprefix' hl]
    rw [Book.run, hperform]
    simp only [Option.bind_eq_bind, Option.bind_some, hrun, List.map_cons, hanswer]
    rfl

end Keeping

/-- All calls of a fresh book are answered, and requests by the logger with the name that is asked
for.  There is one logger for each such name, set up as its first request has told: with a file of
its own and a share of the file of all errors, if there is a folder.  If none of the names stands
before a dot of another one, then the files hold, in the order of the calls, one line for each
record of at least the level of the book, in the file of its logger, and one entry for each of them
that is an error, in the file of all errors. -/
theorem run_calls (debug hasFolder : Bool) (calls : List Call) (possible : ArePossible calls) :
    ∃ b : Book, run { debug, hasFolder } calls =
        some (calls.map (·.answer { debug, hasFolder } b.named?), b) ∧
      (∀ name ∈ askedNames calls, ∃ l ∈ b.loggers, l.name = name ∧ b.named? name = some l) ∧
      b.loggers.length = (askedNames calls).toFinset.card ∧
      (∀ l ∈ b.loggers, IsSetUp { debug, hasFolder } calls l ∧
        l.handlers.length = if hasFolder then 2 else 0) ∧
      (AreFlat calls → ∀ file, b.text file =
        String.join (calls.map (·.landing { debug, hasFolder } (ownFile? calls) file))) := by
  obtain ⟨b, hrun, kept, -⟩ :=
    (isKept_fresh debug hasFolder calls).run possible (List.nil_append calls).symm
  refine ⟨b, hrun, fun name hname => kept.exists_named? hname, ?_, fun l hl => ?_, kept.text⟩
  · have hnames : (b.loggers.map (·.name)).toFinset = (askedNames calls).toFinset := by
      ext name
      rw [List.mem_toFinset, List.mem_toFinset, kept.mem_iff]
    rw [← hnames, List.toFinset_card_of_nodup kept.distinct, List.length_map]
  · have hsetUp := kept.isSetUp l hl
    refine ⟨hsetUp, ?_⟩
    obtain ⟨own, -, -, hhandlers⟩ := hsetUp.handlers
    rw [hhandlers]
    cases hasFolder <;> rfl

/-- A message without a context, at the start of time. -/
def plainMessage (level : Level) (text : String) : Message := ⟨0, ⟨"main", 1⟩, level, text, .null⟩

/-- A logger that is asked for in two ways, with an error, a message of too low a level and one
whose context has a key without a name, and a logger with a file of the same name in another folder.
-/
def splitCalls : List Call :=
  [.ask (some "filters") "Flt", .record "audience.filters.Flt" (plainMessage Level.error "lost"),
    .ask none "filters.Flt", .record "audience.filters.Flt" (plainMessage Level.debug "found"),
    .record "audience.filters.Flt" { plainMessage Level.error "unwritten" with
      context := .map [(.tuple [], .null)] },
    .ask (some "api") "Flt"]

theorem arePossible_splitCalls : ArePossible splitCalls where
  isName component name h := by
    have hname : name ∈ ["Flt", "filters.Flt"] := by
      simp only [splitCalls, List.mem_cons, Call.ask.injEq] at h
      aesop
    have hall : ∀ n ∈ ["Flt", "filters.Flt"], n ≠ "" ∧ '/' ∉ n.toList ∧
        Char.ofNat 0 ∉ n.toList ∧ Text.lower n ≠ "error" := by decide +kernel
    obtain ⟨hne, hslash, hnul, herror⟩ := hall name hname
    exact ⟨hne, hslash, hnul, herror⟩
  handedOut before logger m behind h := by
    have hlogger : (∃ front, before = .ask (some "filters") "Flt" :: front) ∧
        logger = "audience.filters.Flt" := by
      simp only [splitCalls, List.cons_eq_append_iff] at h
      aesop
    obtain ⟨⟨front, rfl⟩, rfl⟩ := hlogger
    exact List.mem_cons_self

/-- A logger that is asked for twice, an error, and two messages that leave nothing. -/
theorem run_calls_split : ∃ b answers,
    run { debug := false, hasFolder := true } splitCalls = some (answers, b) ∧
      b.loggers.length = 2 ∧
      b.text "filters/flt.log" = "1970-01-01 00:00:00 - audience.filters.Flt - ERROR - lost\n" ∧
      b.text errorFile =
        "1970-01-01 00:00:00 - audience.filters.Flt - ERROR - [main:1]\nlost\n\n" ∧
      b.text "flt.log" = "" := by
  obtain ⟨b, hrun, -, hlength, -, htext⟩ := run_calls false true splitCalls arePossible_splitCalls
  have flat : AreFlat splitCalls := by decide
  refine ⟨b, _, hrun, hlength.trans (by decide), ?_, ?_, ?_⟩
  · rw [htext flat]
    decide +kernel
  · rw [htext flat]
    decide +kernel
  · rw [htext flat]
    decide +kernel

end Book

end Cohort.Log
