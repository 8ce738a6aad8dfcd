import Cohort.Catalog.Basic
import Cohort.Yaml.Interpretation

/-!
# Catalog files

A catalog may be kept in a file, as a YAML document with a list of fields.  The
values of an entry are read one by one from the nodes of the document, since a node
may stand at several places.
-/

namespace Cohort

open Yaml (Interpretation Meaning NodeId)

def RawEntry.ofNode (i : Interpretation) (n : NodeId) : RawEntry where
  shown := i.value n
  parts := match i.meaning n with
    | .map es => some (es.map fun e => (e.1, i.value e.2))
    | _ => none

def RawEntry.listOf (i : Interpretation) : Meaning → Option (List RawEntry)
  | .list ns => some (ns.map (ofNode i))
  | .pairs ps => some (ps.map fun p => ofValue (.tuple [i.value p.1, i.value p.2]))
  | _ => none

def Manifest.ofInterpretation (i : Interpretation) : Manifest :=
  let root := i.meaning i.root
  if !root.truthy then blank
  else match root with
    | .map es =>
      let node? (name : String) : Option NodeId :=
        (es.find? fun e => e.1.text? = some name).map (·.2)
      map (((node? "version").map i.value).getD .null)
        ((node? "fields").bind fun n => RawEntry.listOf i (i.meaning n))
    | _ => unfit

namespace Catalog

/-- The catalog of the file at a path, from the text of the file; a missing file has none. -/
def ofFile (path : String) (text : Option String) : Except CatalogError Catalog :=
  match text.map Interpretation.ofText? with
  | none => .error (.unreadable path)
  | some (.error .malformed) => .error (.unreadable path)
  | some (.error (.unfit m)) => .error (.misuse m)
  | some (.ok none) => .error (.noFieldList path)
  | some (.ok (some i)) => ofManifest path (.ofInterpretation i)

end Catalog

end Cohort
