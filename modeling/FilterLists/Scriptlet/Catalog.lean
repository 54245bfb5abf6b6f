/-
This file holds the catalog of scriptlets and resolves calls with it. Rules only name a scriptlet
and its arguments; the code is looked up when a bundle is made. The catalog is closed: what is not
in it cannot be called, and arguments reach the page only as string literals.
-/

import FilterLists.Journal
import FilterLists.Json.Quoted
import FilterLists.Scriptlet.Builtin

namespace FilterLists.Scriptlet

/-! ### Catalogs -/

/-- A scriptlet that rules can name. Two names can stand for the same function, which is then
registered under one of them. -/
structure CatalogEntry where
  name : String
  registeredName : String
  template : Template
  deriving DecidableEq, Repr

/-- The scriptlets that rules can name. -/
abbrev Catalog := List CatalogEntry

namespace Catalog

/-- The entry of a name. -/
def entry? (catalog : Catalog) (name : String) : Option CatalogEntry :=
  catalog.find? fun entry => entry.name == name

/-- An entry that is found for a name is in the catalog and has the name. -/
theorem of_entry?_eq_some {catalog : Catalog} {name : String} {entry : CatalogEntry}
    (found : catalog.entry? name = some entry) : entry ∈ catalog ∧ entry.name = name := by
  unfold entry? at found
  exact ⟨List.mem_of_find?_eq_some found, by simpa using List.find?_some found⟩

/-- An entry is found for a name if the catalog has one of that name. -/
theorem isSome_entry?_iff {catalog : Catalog} {name : String} :
    (catalog.entry? name).isSome = true ↔ ∃ entry ∈ catalog, entry.name = name := by
  unfold entry?
  rw [List.find?_isSome]
  exact exists_congr fun entry => and_congr_right fun _ => beq_iff_eq

def contains (catalog : Catalog) (name : String) : Bool :=
  (catalog.entry? name).isSome

/-- The catalog without the entries of some names. -/
def without (catalog : Catalog) (names : List String) : Catalog :=
  catalog.filter fun entry => !names.contains entry.name

/-- An entry that is registered under its own name. -/
def plain (name : String) (template : Template) : CatalogEntry :=
  { name, registeredName := name, template }

/-- The scriptlets that come with the program. -/
def builtin : Catalog :=
  [plain "json-prune" Builtin.jsonPrune,
    plain "set-constant" Builtin.setConstant,
    plain "abort-on-property-read" Builtin.abortOnPropertyRead,
    plain "abort-on-property-write" Builtin.abortOnPropertyWrite,
    plain "abort-current-inline-script" Builtin.abortCurrentInlineScript,
    { name := "addEventListener-defuser"
      registeredName := "prevent-addEventListener"
      template := Builtin.preventAddEventListener },
    plain "prevent-addEventListener" Builtin.preventAddEventListener,
    plain "remove-attr" Builtin.removeAttr,
    plain "set-attr" Builtin.setAttr,
    plain "remove-class" Builtin.removeClass,
    plain "prevent-xhr" Builtin.preventXhr,
    plain "prevent-fetch" Builtin.preventFetch,
    plain "no-setTimeout-if" Builtin.noSetTimeoutIf,
    plain "no-setInterval-if" Builtin.noSetIntervalIf,
    plain "log" Builtin.log]

end Catalog

/-! ### Calls -/

/-- A call of a scriptlet. -/
structure Call where
  name : String
  arguments : List String
  deriving DecidableEq, Repr

/-- The name of a scriptlet that a catalog does not have. -/
structure UnknownScriptlet where
  name : String
  deriving DecidableEq, Repr

namespace UnknownScriptlet

def message (error : UnknownScriptlet) : String :=
  "Unknown scriptlet: " ++ error.name

/-- What is reported when a name is looked up in vain. -/
def entry (error : UnknownScriptlet) : Journal.Entry where
  level := .debug
  target := .catalog
  message := "No catalog entry for scriptlet '" ++ error.name ++ "'"

end UnknownScriptlet

namespace Call

/-- The line of code that calls a registered function. -/
def line (registeredName : String) (arguments : List String) : String :=
  "window.cbScriptlets[" ++ Json.quote registeredName ++ "]("
    ++ String.intercalate ", " (arguments.map Json.quote) ++ ");"

/-- The lines of code of a call, if the catalog has its scriptlet: the function, and the call. -/
def lines? (call : Call) (catalog : Catalog) : Except UnknownScriptlet (List String) :=
  match catalog.entry? call.name with
  | none => .error ⟨call.name⟩
  | some entry =>
    .ok (entry.template.lines entry.registeredName ++ [line entry.registeredName call.arguments])

/-- The code of a call, if the catalog has its scriptlet. -/
def code? (call : Call) (catalog : Catalog) : Except UnknownScriptlet String :=
  (call.lines? catalog).map fun lines => PageCode.join lines ++ "\n"

end Call

end FilterLists.Scriptlet
