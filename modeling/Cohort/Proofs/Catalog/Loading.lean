import Cohort.Catalog.File
import Cohort.Proofs.Catalog.Building

/-!
# Loading a catalog

The entries of a catalog file may be of any kind.  What is loaded is sound (`Catalog.IsSound`), and
a field is found under its key if that is a text.  Not every file that makes no catalog is turned
down with an error of its own, though: an entry of a kind that is not looked for
(`RawEntry.IsUnfit`) is met by an operation that has no answer for it, and an error may have no
message.
-/

namespace Cohort

/-! ## Sound catalogs -/

/-- A field has operators, each of them once, and choices just if its values come from a closed
set. -/
structure Field.IsSound (f : Field) : Prop where
  operators : f.operators ≠ []
  distinct : f.operators.Nodup
  choices : if f.shape.isClosed then f.choices.getD [] ≠ [] else f.choices = none

/-- The fields are sound and no two of them have the same key. -/
structure Catalog.IsSound (c : Catalog) : Prop where
  fields : ∀ f ∈ c.fields, f.IsSound
  distinct : c.fields.Pairwise fun f g => f.key.sameKey g.key = false

/-! ## Entries of an unfit kind -/

/-- An entry has the parts that are looked for first, with a known category and a known shape. -/
structure IsReadable (es : Entries) (key operators : Value) : Prop where
  key : es.get? "key" = some key
  category : ∃ c : Category, es.get? "category" = some (.text c.id)
  shape : ∃ s : Shape, es.get? "value_type" = some (.text s.id)
  operators : es.get? "operators" = some operators

/-- An entry has choices that cannot be walked through. -/
def HasUnfitChoices (es : Entries) : Prop := es.get "enum_values" ≠ .null ∧
  (es.get "enum_values").parts? = none

/-- A part of a readable entry is of an unfit kind, where a catalog has some fields already. -/
inductive HasUnfitPart (cat : Catalog) (es : Entries) (key operators : Value) : Prop
  /-- The operators cannot be walked through. -/
  | operators (h : operators.parts? = none)
  | choices (h : HasUnfitChoices es)
  /-- The key cannot be a key. -/
  | key (h : key.isKey = false)
  /-- The key is a new one, and one of the operators is unfit. -/
  | operator {ws : List Value} {w : Value} (new : cat.hasKey key = false)
      (parts : operators.parts? = some ws) (mem : w ∈ ws) (h : IsUnfitOperator w)

/-- An entry is of an unfit kind, or a part of it is. -/
inductive RawEntry.IsUnfit (cat : Catalog) (e : RawEntry) : Prop
  | noMap (h : e.parts = none)
  | part {es : Entries} {key operators : Value} (hes : e.parts = some es)
      (readable : IsReadable es key operators) (h : HasUnfitPart cat es key operators)

namespace FieldDraft

variable {shown v : Value} {es : Entries} {name : String}

theorem require_of_none (h : es.get? name = none) :
    require shown es name = .error (.missing name shown) := by
  rw [require, h]

theorem require_of_some (h : es.get? name = some v) : require shown es name = .ok v := by
  rw [require, h]

theorem parts_of_none (h : v.parts? = none) : parts v = .error (.misuse .kind) := by
  rw [parts, h]

theorem parts_of_some {ws : List Value} (h : v.parts? = some ws) : parts v = .ok ws := by
  rw [parts, h]

end FieldDraft

open FieldDraft

section Draft

variable {key operators : Value} {es : Entries}

/-- An entry is readable or fails a check. -/
theorem readable_or_error (shown : Value) (es : Entries) :
    (∃ key operators, IsReadable es key operators) ∨
      ∃ e, ofParts shown es = .error e ∧ ∀ m, e ≠ .misuse m := by
  unfold ofParts
  cases hkey : es.get? "key" with
  | none => exact .inr ⟨.missing "key" shown, by rw [require_of_none hkey]; rfl, nofun⟩
  | some key =>
  rw [require_of_some hkey]
  cases hcategory : es.get? "category" with
  | none => exact .inr ⟨.missing "category" shown, by rw [require_of_none hcategory]; rfl, nofun⟩
  | some rawCategory =>
  rw [require_of_some hcategory]
  simp only [bind, Except.bind]
  cases hc : Category.ofValue? rawCategory with
  | none => exact .inr ⟨.notCategory key rawCategory, rfl, nofun⟩
  | some c =>
  obtain rfl := (Category.isPartialInv_ofValue? _ _).mp hc
  cases hshape : es.get? "value_type" with
  | none => exact .inr ⟨.missing "value_type" shown, by rw [require_of_none hshape], nofun⟩
  | some rawShape =>
  rw [require_of_some hshape]
  dsimp only
  cases hs : Shape.ofValue? rawShape with
  | none => exact .inr ⟨.notShape key rawShape, rfl, nofun⟩
  | some s =>
  obtain rfl := (Shape.isPartialInv_ofValue? _ _).mp hs
  cases hoperators : es.get? "operators" with
  | none => exact .inr ⟨.missing "operators" shown, by rw [require_of_none hoperators], nofun⟩
  | some operators => exact .inl ⟨key, operators, hkey, ⟨c, hcategory⟩, ⟨s, hshape⟩, hoperators⟩

/-- A readable entry is converted, unless its operators or its choices cannot be walked through. -/
theorem ofParts_of_readable (shown : Value) (readable : IsReadable es key operators) :
    (operators.parts? = none ∨ HasUnfitChoices es) ∧
        ofParts shown es = .error (.misuse .kind) ∨
      ∃ d, ofParts shown es = .ok d ∧ d.key = key ∧ operators.parts? = some d.operators ∧
        ¬ HasUnfitChoices es := by
  obtain ⟨c, hcategory⟩ := readable.category
  obtain ⟨s, hshape⟩ := readable.shape
  unfold ofParts
  rw [require_of_some readable.key, require_of_some hcategory, require_of_some hshape,
    require_of_some readable.operators]
  simp only [bind, Except.bind, Category.ofValue?_id, Shape.ofValue?_id]
  cases hparts : operators.parts? with
  | none => exact .inl ⟨.inl rfl, by rw [parts_of_none hparts]⟩
  | some ws =>
  rw [parts_of_some hparts]
  dsimp only
  split
  case h_1 hnull => exact .inr ⟨_, rfl, rfl, rfl, fun h => h.1 hnull⟩
  case h_2 hnull =>
    cases hchoices : (es.get "enum_values").parts? with
    | none => exact .inl ⟨.inr ⟨hnull, hchoices⟩, by rw [parts_of_none hchoices]; rfl⟩
    | some cs =>
      refine .inr ⟨_, by rw [parts_of_some hchoices]; rfl, rfl, rfl, fun h => ?_⟩
      cases hchoices.symm.trans h.2

/-! ## Adding a field -/

/-- What comes of a step: it meets something of an unfit kind, or it fails a check, or the result is
as it is expected to be. -/
inductive Settles {α : Type} (r : Except CatalogError α) (unfit : Prop) (expected : α → Prop) : Prop
  | misuse (h : unfit) (hr : r = .error (.misuse .kind))
  | error {e : CatalogError} (h : ¬ unfit) (hr : r = .error e) (he : ∀ m, e ≠ .misuse m)
  | ok {a : α} (h : ¬ unfit) (hr : r = .ok a) (ha : expected a)

/-- Checking operators ends in some, all different, or in an error, or cannot be done. -/
theorem settles_checkOperators (d : FieldDraft) :
    Settles d.checkOperators (∃ w ∈ d.operators, IsUnfitOperator w)
      fun ops => ops ≠ [] ∧ ops.Nodup := by
  have h := FieldEntry.checksOperators d
  generalize d.checkOperators = r at h ⊢
  cases h with
  | missing hempty => exact .error (by simp [hempty]) rfl nofun
  | unfit hunfit => exact .misuse hunfit rfl
  | unknown hfit => exact .error hfit rfl nofun
  | repeated hops => exact .error (FieldEntry.not_isUnfitOperator_of_eq_map hops) rfl nofun
  | distinct hops hne hnodup =>
    exact .ok (FieldEntry.not_isUnfitOperator_of_eq_map hops) rfl ⟨hne, hnodup⟩

/-- Checking choices can always be done. -/
theorem settles_checkChoices (d : FieldDraft) : Settles d.checkChoices False
    fun _ => if d.shape.isClosed then d.choices.getD [] ≠ [] else d.choices = none := by
  unfold checkChoices
  cases d.shape.isClosed with
  | true =>
    cases hchoices : d.choices.getD [] with
    | nil => exact .error not_false rfl nofun
    | cons w ws => exact .ok not_false rfl (List.cons_ne_nil w ws)
  | false =>
    cases hchoices : d.choices with
    | none => exact .ok not_false rfl rfl
    | some ws => exact .error not_false rfl nofun

/-- A draft makes a sound field with a new key, unless a check fails or a part is unfit. -/
theorem settles_add (cat : Catalog) (d : FieldDraft) : Settles (cat.add d)
    (d.key.isKey = false ∨ cat.hasKey d.key = false ∧ ∃ w ∈ d.operators, IsUnfitOperator w)
    fun cat' => ∃ f : Field, cat' = { cat with fields := cat.fields ++ [f] } ∧ f.IsSound ∧
      f.key = d.key ∧ cat.hasKey f.key = false := by
  unfold Catalog.add
  cases hkey : d.key.isKey with
  | false => exact .misuse (.inl rfl) rfl
  | true =>
  cases hnew : cat.hasKey d.key with
  | true => exact .error (by simp) rfl nofun
  | false =>
  simp only [Bool.not_true, Bool.false_eq_true, if_false, true_and, Bool.true_eq_false,
    false_or]
  obtain ⟨hunfit, hrun⟩ | ⟨hfit, hrun, he⟩ | @⟨ops, hfit, hrun, hops⟩ := settles_checkOperators d
  · exact .misuse hunfit (by rw [hrun]; rfl)
  · exact .error hfit (by rw [hrun]; rfl) he
  obtain ⟨hunfit, -⟩ | ⟨-, hcheck, he⟩ | ⟨-, hcheck, hchoices⟩ := settles_checkChoices d
  · exact hunfit.elim
  · exact .error hfit (by rw [hrun, hcheck]; rfl) he
  · exact .ok hfit (by rw [hrun, hcheck]; rfl)
      ⟨d.toField ops, rfl, ⟨hops.1, hops.2, hchoices⟩, rfl, hnew⟩

/-! ## One entry -/

/-- The parts that are looked for are what they are. -/
theorem IsReadable.unique {key' operators' : Value} (h : IsReadable es key operators)
    (h' : IsReadable es key' operators') : key' = key ∧ operators' = operators :=
  ⟨Option.some.inj (h'.key.symm.trans h.key),
    Option.some.inj (h'.operators.symm.trans h.operators)⟩

/-- An entry that is converted is unfit if its field cannot be added. -/
theorem isUnfit_iff_of_draft {cat : Catalog} {e : RawEntry} {d : FieldDraft}
    (hes : e.parts = some es) (readable : IsReadable es d.key operators)
    (hparts : operators.parts? = some d.operators) (hchoices : ¬ HasUnfitChoices es) :
    e.IsUnfit cat ↔
      d.key.isKey = false ∨ cat.hasKey d.key = false ∧ ∃ w ∈ d.operators, IsUnfitOperator w := by
  constructor
  · rintro (h | ⟨hes', readable', h⟩)
    · cases h.symm.trans hes
    obtain rfl := Option.some.inj (hes'.symm.trans hes)
    obtain ⟨rfl, rfl⟩ := readable.unique readable'
    cases h with
    | operators h => cases h.symm.trans hparts
    | choices h => exact absurd h hchoices
    | key h => exact .inl h
    | operator new parts mem h =>
      obtain rfl := Option.some.inj (parts.symm.trans hparts)
      exact .inr ⟨new, _, mem, h⟩
  · rintro (hkey | ⟨new, w, mem, h⟩)
    · exact .part hes readable (.key hkey)
    · exact .part hes readable (.operator new hparts mem h)

/-- Adding an entry ends in one more field, which is sound and new, or in an error, or cannot be
done. -/
theorem settles_addEntry (cat : Catalog) (e : RawEntry) : Settles (cat.addEntry e) (e.IsUnfit cat)
    fun cat' => ∃ f : Field, cat' = { cat with fields := cat.fields ++ [f] } ∧ f.IsSound ∧
      cat.hasKey f.key = false := by
  unfold Catalog.addEntry ofEntry
  cases hes : e.parts with
  | none => exact .misuse (.noMap hes) rfl
  | some es =>
  dsimp only
  obtain ⟨key, operators, readable⟩ | ⟨err, hrun, he⟩ := readable_or_error e.shown es
  swap
  · -- A readable entry ends otherwise, so this one is not, and only readable entries are unfit.
    refine .error ?_ (by rw [hrun]; rfl) he
    rintro (h | ⟨hes', readable, -⟩)
    · cases h.symm.trans hes
    obtain rfl := Option.some.inj (hes'.symm.trans hes)
    obtain ⟨-, hrun'⟩ | ⟨d, hrun', -⟩ := ofParts_of_readable e.shown readable
    · exact he _ (Except.error.inj (hrun.symm.trans hrun'))
    · cases hrun.symm.trans hrun'
  obtain ⟨hunfit, hrun⟩ | ⟨d, hrun, rfl, hparts, hchoices⟩ := ofParts_of_readable e.shown readable
  · exact .misuse (.part hes readable (hunfit.elim .operators .choices)) (by rw [hrun]; rfl)
  rw [hrun]
  change Settles (cat.add d) _ _
  rw [isUnfit_iff_of_draft hes readable hparts hchoices]
  obtain ⟨hunfit, hadd⟩ | ⟨hfit, hadd, he⟩ | ⟨hfit, hadd, f, hf, hsound, hkey, hnew⟩ :=
    settles_add cat d
  · exact .misuse hunfit hadd
  · exact .error hfit hadd he
  · exact .ok hfit hadd ⟨f, hf, hsound, hnew⟩

end Draft

/-! ## A list of entries -/

namespace Catalog

open Yaml (Interpretation)

variable {cat cat' : Catalog} {f : Field} {version : Value} {entries : List RawEntry}

theorem IsSound.append (h : cat.IsSound) (hf : f.IsSound) (hnew : cat.hasKey f.key = false) :
    IsSound { cat with fields := cat.fields ++ [f] } where
  fields g hg := by
    obtain hg | hg := List.mem_append.mp hg
    · exact h.fields g hg
    · rwa [List.mem_singleton.mp hg]
  distinct := by
    refine List.pairwise_append.mpr ⟨h.distinct, List.pairwise_singleton _ _, fun g hg f' hf' => ?_⟩
    rw [List.mem_singleton.mp hf']
    exact Bool.eq_false_iff.mpr (List.any_eq_false.mp hnew g hg)

/-- A sound catalog stays sound when an entry is added. -/
theorem IsSound.addEntry (h : cat.IsSound) {e : RawEntry} (hadd : cat.addEntry e = .ok cat') :
    cat'.IsSound := by
  obtain ⟨-, hrun⟩ | ⟨-, hrun, -⟩ | ⟨-, hrun, f, rfl, hf, hnew⟩ := settles_addEntry cat e
  · cases hrun.symm.trans hadd
  · cases hrun.symm.trans hadd
  · obtain rfl := Except.ok.inj (hrun.symm.trans hadd)
    exact h.append hf hnew

/-- Whatever the entries are, a catalog that is built is sound. -/
theorem isSound_of_ofRawEntries (h : ofRawEntries version entries = .ok cat) : cat.IsSound :=
  have start : IsSound { version := version } := ⟨List.forall_mem_nil _, .nil⟩
  foldlM_preserves (fun _ _ _ hcat => hcat.addEntry) start h

/-- An entry is a misuse just if it has something of an unfit kind. -/
theorem addEntry_eq_misuse_iff {e : RawEntry} {m : Misuse} :
    cat.addEntry e = .error (.misuse m) ↔ m = .kind ∧ e.IsUnfit cat := by
  obtain ⟨hunfit, hrun⟩ | ⟨hfit, hrun, he⟩ | ⟨hfit, hrun, -⟩ := settles_addEntry cat e
  · rw [hrun, Except.error.injEq, CatalogError.misuse.injEq, eq_comm, and_iff_left hunfit]
  · rw [hrun, Except.error.injEq]
    exact ⟨fun h => absurd h (he m), fun h => absurd h.2 hfit⟩
  · rw [hrun]
    exact ⟨nofun, fun h => absurd h.2 hfit⟩

/-- No field is found under a key that is no text. -/
theorem find?_of_text?_eq_none {key : Value} (h : key.text? = none) : cat.find? key = none := by
  unfold find?
  split
  case h_1 => cases h
  case h_2 => rfl

/-- In a sound catalog a field is found under its key if that is a text, and only then. -/
theorem IsSound.find?_key_iff (h : cat.IsSound) (hf : f ∈ cat.fields) :
    cat.find? f.key = some f ↔ ∃ s, f.key = .text s := by
  constructor
  · intro hfind
    cases hkey : f.key.text? with
    | none => cases (find?_of_text?_eq_none hkey).symm.trans hfind
    | some s => exact ⟨s, Value.text?_eq_some_iff.mp hkey⟩
  · rintro ⟨s, hs⟩
    obtain ⟨front, back, hsplit⟩ := List.append_of_mem hf
    have hdistinct := h.distinct
    rw [hsplit, List.pairwise_append] at hdistinct
    rw [hs, find?, hsplit, List.find?_eq_some_iff_append]
    refine ⟨by simp [hs, Value.text?], front, back, rfl, fun g hg => ?_⟩
    have hother : g.key.sameKey (.text s) = false :=
      hs ▸ hdistinct.2.2 g hg f List.mem_cons_self
    cases hkey : g.key with
    | text t => simpa [hkey, Value.sameKey, Value.text?] using hother
    | _ => rfl

/-! ## A whole document -/

/-- A document is of an unfit kind, or the first of its entries that is not added is, or what is
wrong with this entry cannot be told. -/
inductive MeetsUnfit (i : Interpretation) : Misuse → Prop
  /-- The document says something, but is no map. -/
  | document (truthy : (i.meaning i.root).truthy = true)
      (noMap : ∀ es, i.meaning i.root ≠ .map es) : MeetsUnfit i .part
  | entry {version : Value} {before behind : List RawEntry} {e : RawEntry} {cat : Catalog}
      (listed : Manifest.ofInterpretation i = .map version (some (before ++ e :: behind)))
      (made : ofRawEntries version before = .ok cat) (h : e.IsUnfit cat) : MeetsUnfit i .kind
  /-- The entry fails a check, and a value that the error tells of cannot be written. -/
  | untold {version : Value} {before behind : List RawEntry} {e : RawEntry} {cat : Catalog}
      {err : CatalogError}
      (listed : Manifest.ofInterpretation i = .map version (some (before ++ e :: behind)))
      (made : ofRawEntries version before = .ok cat) (fails : cat.addEntry e = .error err)
      (h : err.isTold = false) : MeetsUnfit i .value

theorem ofInterpretation_eq_unfit_iff {i : Interpretation} :
    Manifest.ofInterpretation i = .unfit ↔
      (i.meaning i.root).truthy = true ∧ ∀ es, i.meaning i.root ≠ .map es := by
  unfold Manifest.ofInterpretation
  cases htruthy : (i.meaning i.root).truthy with
  | false => simp [htruthy]
  | true =>
    rw [if_neg (by simp [htruthy])]
    split
    case h_1 es hes => simp [hes]
    case h_2 hmap => simpa using hmap

/-- A list of entries fails with the first entry that does. -/
theorem ofRawEntries_eq_error_iff {err : CatalogError} :
    ofRawEntries version entries = .error err ↔ ∃ before e behind cat,
      entries = before ++ e :: behind ∧ ofRawEntries version before = .ok cat ∧
        cat.addEntry e = .error err := by
  rw [ofRawEntries, foldlM_eq_error_iff]
  rfl

/-- A misuse is met in the place of a catalog. -/
def Meets (r : Except CatalogError Catalog) (m : Misuse) : Prop :=
  ∃ err, r = .error err ∧ err.message = .error m

theorem not_meets_of_message {err : CatalogError} {text : String} (h : err.message = .ok text)
    (m : Misuse) : ¬ Meets (.error err) m := by
  rintro ⟨_, ⟨⟩, herror⟩
  cases h.symm.trans herror

theorem meets_misuse_iff {m m' : Misuse} : Meets (.error (.misuse m')) m ↔ m' = m := by
  constructor
  · rintro ⟨_, ⟨⟩, herror⟩
    exact Except.error.inj herror
  · rintro rfl
    exact ⟨_, rfl, rfl⟩

/-- A misuse is met in place of a catalog at the first entry that fails, if it is unfit or its error
cannot be told. -/
theorem meets_ofRawEntries_iff {m : Misuse} :
    Meets (ofRawEntries version entries) m ↔ ∃ before e behind cat,
      entries = before ++ e :: behind ∧ ofRawEntries version before = .ok cat ∧
        (m = .kind ∧ e.IsUnfit cat ∨
          ∃ err, cat.addEntry e = .error err ∧ m = .value ∧ err.isTold = false) := by
  constructor
  · rintro ⟨err, herr, hmessage⟩
    obtain ⟨before, e, behind, cat, hsplit, hmade, hadd⟩ := ofRawEntries_eq_error_iff.mp herr
    refine ⟨before, e, behind, cat, hsplit, hmade, ?_⟩
    obtain rfl | huntold := CatalogError.message_eq_error_iff.mp hmessage
    · exact .inl (addEntry_eq_misuse_iff.mp hadd)
    · exact .inr ⟨err, hadd, huntold⟩
  · rintro ⟨before, e, behind, cat, hsplit, hmade, hunfit | ⟨err, hadd, huntold⟩⟩
    · exact ⟨.misuse m, ofRawEntries_eq_error_iff.mpr
        ⟨before, e, behind, cat, hsplit, hmade, addEntry_eq_misuse_iff.mpr hunfit⟩, rfl⟩
    · exact ⟨err, ofRawEntries_eq_error_iff.mpr ⟨before, e, behind, cat, hsplit, hmade, hadd⟩,
        CatalogError.message_eq_error_iff.mpr (.inr huntold)⟩

/-- A misuse is met in place of a file just if the document, or one of its entries, is unfit for it.
-/
theorem meets_ofManifest_iff {path : String} {i : Interpretation} {m : Misuse} :
    Meets (ofManifest path (.ofInterpretation i)) m ↔ MeetsUnfit i m := by
  constructor
  · intro h
    unfold ofManifest at h
    split at h
    case h_1 => exact absurd h (not_meets_of_message rfl m)
    case h_2 hunfit =>
      obtain rfl := meets_misuse_iff.mp h
      obtain ⟨truthy, noMap⟩ := ofInterpretation_eq_unfit_iff.mp hunfit
      exact .document truthy noMap
    case h_3 version entries hlisted =>
      obtain ⟨before, e, behind, cat, rfl, hmade, hcause⟩ := meets_ofRawEntries_iff.mp h
      obtain ⟨rfl, hunfit⟩ | ⟨err, hadd, rfl, huntold⟩ := hcause
      · exact .entry hlisted hmade hunfit
      · exact .untold hlisted hmade hadd huntold
    case h_4 => exact absurd h (not_meets_of_message rfl m)
  · rintro (⟨truthy, noMap⟩ | ⟨listed, made, hunfit⟩ | ⟨listed, made, fails, huntold⟩)
    · rw [ofInterpretation_eq_unfit_iff.mpr ⟨truthy, noMap⟩]
      exact meets_misuse_iff.mpr rfl
    · rw [listed]
      exact meets_ofRawEntries_iff.mpr ⟨_, _, _, _, rfl, made, .inl ⟨rfl, hunfit⟩⟩
    · rw [listed]
      exact meets_ofRawEntries_iff.mpr ⟨_, _, _, _, rfl, made, .inr ⟨_, fails, rfl, huntold⟩⟩

theorem isSound_of_ofManifest {path : String} {manifest : Manifest}
    (h : ofManifest path manifest = .ok cat) : cat.IsSound := by
  unfold ofManifest at h
  split at h
  case h_3 => exact isSound_of_ofRawEntries h
  all_goals cases h

/-- A file that makes a catalog holds a document. -/
theorem exists_document_of_ofFile {path text : String} (h : ofFile path (some text) = .ok cat) :
    ∃ document, Interpretation.ofText? text = .ok document := by
  cases hread : Interpretation.ofText? text with
  | error e =>
    rw [ofFile, Option.map_some, hread] at h
    cases e <;> cases h
  | ok document => exact ⟨document, rfl⟩

/-- A file with a document makes a sound catalog, or the error tells what is wrong with it, unless
something of an unfit kind is met or the error cannot be told.  Of the fields that are loaded, those
with a text as their key are found under it, and no others. -/
theorem ofFile_outcome (path : String) {text : String} {document : Option Interpretation}
    (h : Interpretation.ofText? text = .ok document) :
    (∀ cat, ofFile path (some text) = .ok cat →
      cat.IsSound ∧ ∀ f ∈ cat.fields, cat.find? f.key = some f ↔ ∃ s, f.key = .text s) ∧
    ∀ m, Meets (ofFile path (some text)) m ↔ ∃ i ∈ document, MeetsUnfit i m := by
  unfold ofFile
  rw [Option.map_some, h]
  cases document with
  | none => exact ⟨nofun, fun m => iff_of_false (not_meets_of_message rfl m) (by simp)⟩
  | some i =>
    refine ⟨fun cat hcat => ?_, fun m => ?_⟩
    · have hsound := isSound_of_ofManifest hcat
      exact ⟨hsound, fun f hf => hsound.find?_key_iff hf⟩
    · exact meets_ofManifest_iff.trans (by simp)

/-- Whether a misuse is the outcome can be decided. -/
instance decidableMisuse {α : Type} (r : Except CatalogError α) (m : Misuse) :
    Decidable (r = .error (.misuse m)) :=
  match r with
  | .error (.misuse m') => decidable_of_iff (m' = m) (by simp)
  | .error (.unreadable _) | .error (.noFieldList _) | .error (.missing _ _)
  | .error (.notCategory _ _) | .error (.notShape _ _) | .error (.duplicateKey _)
  | .error (.noOperators _) | .error (.unknownOperators _ _) | .error (.repeatedOperator _)
  | .error (.noChoices _) | .error (.unexpectedChoices _) | .ok _ => isFalse nofun

/-- Two fields, the first of which has a number as its key. -/
def numberedFile : String :=
  "fields:\n"
    ++ "- {key: 5, category: date, value_type: date, operators: [gt]}\n"
    ++ "- {key: a, category: date, value_type: date, operators: [lt]}\n"

theorem exists_numbered : ∃ cat f g, ofFile "fields.yaml" (some numberedFile) = .ok cat ∧
    cat.fields = [f, g] ∧ f.key.text? = none ∧ g.key.text? = some "a" := by
  have hkeys : (ofFile "fields.yaml" (some numberedFile)).toOption.map
      (·.fields.map (·.key.text?)) = some [none, some "a"] := by decide +kernel
  cases hcat : ofFile "fields.yaml" (some numberedFile) with
  | error e =>
    rw [hcat] at hkeys
    cases hkeys
  | ok cat =>
    rw [hcat] at hkeys
    obtain ⟨f, gs, hfields, hf, hgs⟩ := List.map_eq_cons_iff.mp (Option.some.inj hkeys)
    obtain ⟨g, hs, rfl, hg, hnil⟩ := List.map_eq_cons_iff.mp hgs
    rw [List.map_eq_nil_iff.mp hnil] at hfields
    exact ⟨cat, f, g, rfl, hfields, hf, hg⟩

/-- A field whose key is a number is loaded, and not found. -/
theorem ofFile_outcome_numbered : ∃ cat f g, ofFile "fields.yaml" (some numberedFile) = .ok cat ∧
    cat.IsSound ∧ cat.fields = [f, g] ∧ cat.find? f.key ≠ some f ∧ cat.find? g.key = some g := by
  obtain ⟨cat, f, g, hcat, hfields, hf, hg⟩ := exists_numbered
  obtain ⟨document, hdocument⟩ := exists_document_of_ofFile hcat
  obtain ⟨hsound, hfind⟩ := (ofFile_outcome "fields.yaml" hdocument).1 cat hcat
  refine ⟨cat, f, g, hcat, hsound, hfields, ?_, ?_⟩
  · rw [Ne, hfind f (by simp [hfields])]
    rintro ⟨s, hs⟩
    rw [hs] at hf
    cases hf
  · exact (hfind g (by simp [hfields])).mpr ⟨"a", Value.text?_eq_some_iff.mp hg⟩

/-- A list in the place of the map and a number in the place of an entry are met without an error of
a catalog, and a field with a number as its key is loaded but cannot be found. -/
theorem ofFile_fails_unfit :
    ofFile "fields.yaml" (some "- 1\n") = .error (.misuse .part) ∧
    ofFile "fields.yaml" (some "fields:\n- 5\n") = .error (.misuse .kind) ∧
    ∃ cat, ofFile "fields.yaml" (some numberedFile) = .ok cat ∧
      ∃ f ∈ cat.fields, cat.find? f.key = none := by
  refine ⟨by decide +kernel, by decide +kernel, ?_⟩
  obtain ⟨cat, f, g, hcat, hfields, hf, -⟩ := exists_numbered
  exact ⟨cat, hcat, f, by simp [hfields], find?_of_text?_eq_none hf⟩

end Catalog

end Cohort
