/-
This file reads manifests. A manifest is a JSON list of the filter lists that the user knows of,
and says which of them are selected.
-/

import FilterLists.Files.Access
import FilterLists.Json.Reader

namespace FilterLists

open Json

/-- A filter list as the manifest describes it. The name leads to its files. -/
structure FilterList where
  id : String
  name : String
  url : String
  category : String
  isSelected : Bool := false
  description : String := ""
  version : String := ""
  deriving DecidableEq, Repr

namespace FilterList

/-- Reads an entry of a manifest. The last three fields may be missing. -/
def ofJson? (value : Value) : Option FilterList := do
  let [some id, some name, some url, some category, isSelected, description, version] ←
    value.fields? ["id", "name", "url", "category", "isSelected", "description", "version"]
    | none
  some {
    id := ← id.asText?
    name := ← name.asText?
    url := ← url.asText?
    category := ← category.asText?
    isSelected := ← isSelected.elim (some false) Value.asBoolean?
    description := ← description.elim (some "") Value.asText?
    version := ← version.elim (some "") Value.asText? }

end FilterList

namespace Manifest

/-- The entries of the text of a manifest, or nothing if the text is no manifest. -/
def parse? (text : String) : Option (List FilterList) := do
  (← (← Value.parse? text).asItems?).mapM FilterList.ofJson?

/-- The entries of the manifest in a file. -/
def load (path : String) : Job (List FilterList) := do
  Job.ofOption (.badJson path) (parse? (← Files.load path))

/-- The lists that are selected. -/
def selected (lists : List FilterList) : List FilterList :=
  lists.filter FilterList.isSelected

end Manifest

end FilterLists
