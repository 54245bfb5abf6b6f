/-
This file makes bundles: the code of all scriptlets that the rules of a container call, in the
order of the rules. Calls that the catalog does not know are left out and counted.
-/

import FilterLists.Rule.Basic
import FilterLists.Scriptlet.Catalog

namespace FilterLists

/-- The call of a rule, if the rule is for a scriptlet. -/
def Rule.call? (rule : Rule) : Option Scriptlet.Call :=
  match rule.action with
  | .scriptlet name arguments => some { name, arguments }
  | _ => none

namespace Scriptlet

/-- The code of the calls of a container, and how many were resolved and how many left out. -/
structure Bundle where
  code : String
  resolved : Nat
  skipped : Nat
  deriving DecidableEq, Repr

namespace Bundle

/-- What each call of a container comes to, in the order of the rules. -/
def outcomes (catalog : Catalog) (rules : List Rule) : List (Except UnknownScriptlet String) :=
  (rules.filterMap Rule.call?).map fun call => call.code? catalog

/-- The code of a resolved call. -/
def codeOf? : Except UnknownScriptlet String → Option String
  | .ok code => some code
  | .error _ => none

/-- The error of a call that was left out. -/
def errorOf? : Except UnknownScriptlet String → Option UnknownScriptlet
  | .ok _ => none
  | .error error => some error

def ofRules (catalog : Catalog) (rules : List Rule) : Bundle :=
  let codes := (outcomes catalog rules).filterMap codeOf?
  let errors := (outcomes catalog rules).filterMap errorOf?
  { code := String.join codes, resolved := codes.length, skipped := errors.length }

/-- What the making of a bundle reports: each call that was left out. -/
def journal (catalog : Catalog) (rules : List Rule) : List Journal.Entry :=
  ((outcomes catalog rules).filterMap errorOf?).flatMap fun error =>
    [error.entry, {
      level := .warn
      target := .bundle
      message := "Skipping scriptlet rule: " ++ error.message }]

end Bundle

end Scriptlet

end FilterLists
