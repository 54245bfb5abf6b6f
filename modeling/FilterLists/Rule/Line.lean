/-
This file reads the lines of a filter list. A line has one of four shapes, told apart by the
marks in it, of which an earlier one in this list wins:

* `domains##+js(name, arguments)` calls a scriptlet;
* `domains##selector` hides elements;
* `@@pattern$options` makes an exception;
* `pattern$options` blocks loads.

A line of the right shape can still lack what its rule needs -- a name, a selector, a pattern --
and then it stands for no rule.
-/

import FilterLists.Pattern.Translation
import FilterLists.Rule.Options

namespace FilterLists

namespace Rule

/-! ### Scriptlets -/

/-- The scriptlets that are for the player of the video site, and run on its media hosts too. -/
def playerScriptlets : List String :=
  ["json-prune", "set-constant", "abort-on-property-read", "abort-on-property-write",
    "abort-current-inline-script", "addEventListener-defuser", "prevent-addEventListener",
    "remove-attr", "set-attr"]

/-- The pages that scriptlets run on. -/
def scriptletDomains : List String :=
  ["*youtube.com", "*youtube-nocookie.com"]

/-- The pages that scriptlets for the player run on: also those of the media hosts. -/
def playerDomains : List String :=
  ["*youtube.com", "*youtube-nocookie.com", "*googlevideo.com", "*ytimg.com"]

/-- When the scriptlet of a name runs. The domains of the line play no part in it. -/
def scriptletTrigger (name : String) : Trigger :=
  if playerScriptlets.contains name then
    { urlFilter := everyAddress, ifDomain := playerDomains, resourceTypes := [.document, .script] }
  else
    { urlFilter := everyAddress, ifDomain := scriptletDomains }

/-- The mark between the domains of a scriptlet line and its call. -/
def callMarker : List Char := "##+js(".toList

/-- Reads a call, which is what stands after the marker: up to the first closing bracket, a name
and arguments between commas. The name must not be blank. -/
def ofCall? (call : List Char) : Option Rule := do
  let (inside, _) ← Text.cut? [')'] call
  match (Text.splitOn ',' inside).map Text.trim with
  | [] => none
  | [] :: _ => none
  | name :: arguments =>
    some {
      action := .scriptlet (.ofList name) (arguments.map .ofList)
      trigger := scriptletTrigger (.ofList name) }

/-! ### Hidden elements -/

/-- The mark between the domains of an element hiding line and its selector. -/
def hidingMarker : List Char := "##".toList

/-- The rule that hides what a selector finds on the pages of some domains. The selector must not
be blank. -/
def hiding? (domains selector : List Char) : Option Rule :=
  match Text.trim selector with
  | [] => none
  | selector =>
    some {
      action := .hide (.ofList selector)
      trigger := ({ urlFilter := everyAddress } : Trigger).onDomains (.parse ',' domains) }

/-! ### Patterns -/

/-- The pattern and the options of a line, which the first `$` that is not escaped keeps apart.
`previous` is the character before the text. -/
def splitOptionsAfter (previous : Option Char) : List Char → List Char × Option (List Char)
  | [] => ([], none)
  | character :: rest =>
    if character = '$' ∧ previous ≠ some '\\' then ([], some rest)
    else
      let (pattern, options) := splitOptionsAfter (some character) rest
      (character :: pattern, options)

/-- The pattern and the options of a line. A `$` after a backslash belongs to the pattern. -/
def splitOptions (line : List Char) : List Char × Option (List Char) :=
  splitOptionsAfter none line

/-- A pattern as it is meant: the backslash that escapes a `$` is taken away. -/
def unescapeDollars : List Char → List Char
  | '\\' :: '$' :: rest => '$' :: unescapeDollars rest
  | character :: rest => character :: unescapeDollars rest
  | [] => []

/-- The rule that does `action` to the loads of a line of pattern and options. The pattern must
not be empty, for an empty one matches nothing. -/
def network? (action : Action) (line : List Char) : Option Rule :=
  let (pattern, options) := splitOptions line
  let options := match options with
    | some text => LineOptions.parse text
    | none => {}
  match Pattern.print (Pattern.pieces (unescapeDollars pattern)) with
  | [] => none
  | urlFilter => some { action, trigger := options.trigger (.ofList urlFilter) }

/-- The mark in front of an exception. -/
def exceptionMarker : List Char := "@@".toList

/-! ### Lines -/

/-- The rule of a line given as characters. -/
def ofChars? (line : List Char) : Option Rule :=
  match Text.cut? callMarker line with
  | some (_, call) => ofCall? call
  | none =>
    match Text.cut? hidingMarker line with
    | some (domains, selector) => hiding? domains selector
    | none =>
      match exceptionMarker.isPrefixOf? line with
      | some rest => network? .ignorePrevious rest
      | none => network? .block line

/-- The rule that a line stands for, if it stands for one. Blanks around the line have been taken
off before. -/
def ofLine? (line : String) : Option Rule :=
  ofChars? line.toList

end Rule

end FilterLists
