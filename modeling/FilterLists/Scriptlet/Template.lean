/-
This file describes the code of scriptlets. A template puts a function under a name into the
registry of the page, where a call can find it; the function may need some constants around it.
The name is not part of the template: it comes from the catalog, so a scriptlet is registered
under the name that its calls use.
-/

import FilterLists.PageCode

namespace FilterLists.Scriptlet

/-- The code of a scriptlet: the parameters and the body of its function, and what is set up
before the function. -/
structure Template where
  setup : List String := []
  parameters : String
  body : List String
  deriving DecidableEq, Repr

namespace Template

/-- The line that opens the registry of the page. -/
def openRegistry : String :=
  "const registry = (window.cbScriptlets = window.cbScriptlets || \x7b\x7d);"

/-- The lines of code that put the function of a template into the registry under a name. -/
def lines (template : Template) (name : String) : List String :=
  PageCode.closure (openRegistry :: template.setup
    ++ PageCode.block
      ("registry['" ++ name ++ "'] = function (" ++ template.parameters ++ ") \x7b")
      template.body "\x7d;")

end Template

end FilterLists.Scriptlet
