/-
This file defines the rules that the content blocking engine runs. A rule says when it applies,
its trigger, and what it does then, its action. Rules come in three tiers, by what the engine
needs to carry out the action, and each tier goes to its own part of the containers.
-/

namespace FilterLists

/-! ### Actions and tiers -/

/-- What the engine needs in order to carry out an action: blocking loads is standard, exceptions
and hidden elements are advanced, and scriptlets are code that runs in the page. -/
inductive Tier
  | standard
  | advanced
  | scriptlet
  deriving DecidableEq, Repr

namespace Tier

def name : Tier → String
  | standard => "standard"
  | advanced => "advanced"
  | scriptlet => "scriptlet"

end Tier

/-- What a rule does where it applies. -/
inductive Action
  /-- The load is blocked. -/
  | block
  /-- The rules before this one are ignored. -/
  | ignorePrevious
  /-- The elements that a selector finds are hidden. -/
  | hide (selector : String)
  /-- The scriptlet of that name is called with the arguments. -/
  | scriptlet (name : String) (arguments : List String)
  deriving DecidableEq, Repr

namespace Action

def tier : Action → Tier
  | block => .standard
  | ignorePrevious => .advanced
  | hide _ => .advanced
  | scriptlet _ _ => .scriptlet

/-- The name by which the engine knows the kind of an action. -/
def kindName : Action → String
  | block => "block"
  | ignorePrevious => "ignore-previous-rules"
  | hide _ => "css-display-none"
  | scriptlet _ _ => "scriptlet"

end Action

/-! ### Loads -/

/-- A restriction of a rule to loads from one side. The engine knows only one: loads from a site
other than the page's own. -/
inductive LoadType
  | thirdParty
  deriving DecidableEq, Repr

namespace LoadType

def all : List LoadType := [thirdParty]

def name : LoadType → String
  | thirdParty => "third-party"

def ofName? (name : String) : Option LoadType :=
  all.find? (·.name == name)

end LoadType

/-- A kind of resource that a load can be for. -/
inductive ResourceType
  | document
  | script
  | image
  | styleSheet
  | raw
  | media
  | font
  deriving DecidableEq, Repr

namespace ResourceType

def all : List ResourceType := [document, script, image, styleSheet, raw, media, font]

/-- The name by which the engine knows a resource type. -/
def name : ResourceType → String
  | document => "document"
  | script => "script"
  | image => "image"
  | styleSheet => "style-sheet"
  | raw => "raw"
  | media => "media"
  | font => "font"

def ofName? (name : String) : Option ResourceType :=
  all.find? (·.name == name)

/-- The resource type that an option of a filter line names. Filter lists have names of their
own, some types go by two of them, and documents cannot be named. -/
def ofOption? : String → Option ResourceType
  | "script" => some script
  | "image" => some image
  | "stylesheet" => some styleSheet
  | "css" => some styleSheet
  | "xmlhttprequest" => some raw
  | "xhr" => some raw
  | "media" => some media
  | "font" => some font
  | _ => none

end ResourceType

/-! ### Triggers and rules -/

/-- When a rule applies: to loads whose address the URL filter finds, on pages of the domains in
`ifDomain` (of all domains if there are none), but not of those in `unlessDomain`. -/
structure Trigger where
  urlFilter : String
  ifDomain : List String := []
  unlessDomain : List String := []
  loadType : Option LoadType := none
  resourceTypes : List ResourceType := []
  /-- Whether the rule was marked for loads from the page's own site. The engine has no such
  restriction, so the mark is kept here and never written to a container. -/
  firstParty : Bool := false
  deriving DecidableEq, Repr

/-- The URL filter that finds every address. -/
def everyAddress : String := ".*"

/-- A rule of the content blocking engine. -/
structure Rule where
  action : Action
  trigger : Trigger
  deriving DecidableEq, Repr

namespace Rule

def tier (rule : Rule) : Tier :=
  rule.action.tier

/-- The rule as it comes back from a container, where the first party mark is not written. -/
def withoutMark (rule : Rule) : Rule :=
  { rule with trigger := { rule.trigger with firstParty := false } }

end Rule

end FilterLists
