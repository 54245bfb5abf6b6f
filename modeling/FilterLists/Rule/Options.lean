/-
This file reads the options of a filter line. After an unescaped `$` a line lists, between
commas, the pages, the loads and the resource types that it is about; the domains before `##` are
a list of the same kind. Options combine from left to right: resource types add up, marks are
kept, and the last list of domains counts.
-/

import FilterLists.Rule.Basic
import FilterLists.Text.Blank
import FilterLists.Text.Split

namespace FilterLists

/-! ### Domains -/

/-- The pages that a line is for and those that it is not for. -/
structure DomainList where
  included : List String := []
  excluded : List String := []
  deriving DecidableEq, Repr

namespace DomainList

/-- One entry of a list of domains. -/
inductive Entry
  | included (domain : List Char)
  | excluded (domain : List Char)
  deriving DecidableEq, Repr

namespace Entry

def included? : Entry → Option String
  | included domain => some (.ofList domain)
  | excluded _ => none

def excluded? : Entry → Option String
  | included _ => none
  | excluded domain => some (.ofList domain)

/-- The entry that a trimmed token stands for: a leading `~` excludes the domain after it. Tokens
that name no domain stand for none. -/
def ofToken? : List Char → Option Entry
  | [] => none
  | ['~'] => none
  | '~' :: domain => some (excluded domain)
  | domain => some (included domain)

end Entry

/-- The entries of a list of domains. -/
def entries (separator : Char) (text : List Char) : List Entry :=
  (Text.splitOn separator text).filterMap fun token => Entry.ofToken? (Text.trim token)

/-- Both lists of domains, each in the order of the entries. -/
def ofEntries (entries : List Entry) : DomainList where
  included := entries.filterMap Entry.included?
  excluded := entries.filterMap Entry.excluded?

/-- Reads a list of domains. -/
def parse (separator : Char) (text : List Char) : DomainList :=
  ofEntries (entries separator text)

def isEmpty (domains : DomainList) : Bool :=
  domains.included.isEmpty && domains.excluded.isEmpty

end DomainList

/-! ### Parties -/

/-- Marks for loads from the page's own site and from other sites. Both may be set. -/
structure Party where
  first : Bool := false
  third : Bool := false
  deriving DecidableEq, Repr

namespace Party

/-- The marks of both. -/
def union (left right : Party) : Party where
  first := left.first || right.first
  third := left.third || right.third

/-- The restriction that the engine can express: it knows third party loads only. -/
def loadType (party : Party) : Option LoadType :=
  if party.third then some .thirdParty else none

/-- The mark that an option stands for. -/
def ofOption? : String → Option Party
  | "third-party" => some { third := true }
  | "3p" => some { third := true }
  | "~third-party" => some { first := true }
  | "~3p" => some { first := true }
  | "1p" => some { first := true }
  | _ => none

end Party

namespace Trigger

/-- The trigger on the pages of a list of domains, whatever its pages were before. -/
def onDomains (trigger : Trigger) (domains : DomainList) : Trigger :=
  { trigger with ifDomain := domains.included, unlessDomain := domains.excluded }

/-- The trigger with the marks of a party, whatever its marks were before. -/
def onParty (trigger : Trigger) (party : Party) : Trigger :=
  { trigger with loadType := party.loadType, firstParty := party.first }

end Trigger

/-! ### Options -/

/-- One option of a filter line. -/
inductive LineOption
  | domains (domains : DomainList)
  | party (party : Party)
  | resource (resource : ResourceType)
  deriving DecidableEq, Repr

namespace LineOption

/-- The option that a token stands for, if it is a known one. Blanks around a token do not
count. -/
def ofToken? (token : List Char) : Option LineOption :=
  let token := Text.trim token
  match "domain=".toList.isPrefixOf? token with
  | some value => some (domains (.parse '|' value))
  | none =>
    match Party.ofOption? (.ofList token) with
    | some mark => some (party mark)
    | none => (ResourceType.ofOption? (.ofList token)).map resource

end LineOption

/-- What the options of a filter line come to. -/
structure LineOptions where
  domains : Option DomainList := none
  party : Party := {}
  resourceTypes : List ResourceType := []
  deriving DecidableEq, Repr

namespace LineOptions

/-- The options with one more after them: domains replace those before, marks and resource types
are added. -/
def add (options : LineOptions) : LineOption → LineOptions
  | .domains domains => { options with domains := some domains }
  | .party party => { options with party := options.party.union party }
  | .resource resource => { options with resourceTypes := options.resourceTypes ++ [resource] }

/-- The known options of a text, in order. -/
def tokens (text : List Char) : List LineOption :=
  (Text.splitOn ',' text).filterMap LineOption.ofToken?

/-- Reads the options of a filter line. Unknown ones are passed over. -/
def parse (text : List Char) : LineOptions :=
  (tokens text).foldl add {}

/-- The trigger for a URL filter under the options. -/
def trigger (options : LineOptions) (urlFilter : String) : Trigger :=
  let plain : Trigger := { urlFilter, resourceTypes := options.resourceTypes }
  let placed := match options.domains with
    | some domains => plain.onDomains domains
    | none => plain
  placed.onParty options.party

end LineOptions

end FilterLists
