/-
This file shows that a bundle runs just the calls that its rules ask for. The arguments come from
lists that nobody has checked, and they are written into code. An argument could do harm in two
ways: end its literal early, or put a line into the code that looks like a call.

Neither can happen, because a line feed in an argument is escaped as any quote is. So the lines of
a bundle are known: for each rule those of a template, none of which is a call, and then one call.
Each call can be read back, and the arguments read are those of the rule.
-/

import FilterLists.Proofs.Rule.Record
import FilterLists.Proofs.Text.Split
import FilterLists.Scriptlet.Bundle
import Mathlib.Data.List.Basic
import Mathlib.Tactic.MkIffOfInductiveProp

namespace FilterLists.Scriptlet

/-! ### Lines of code -/

/-- Whether a text is on one line. -/
def IsLine (text : String) : Prop :=
  '\n' ∉ text.toList

theorem isLine_ofList {characters : List Char} (absent : '\n' ∉ characters) :
    IsLine (.ofList characters) := by
  unfold IsLine
  rwa [String.toList_ofList]

theorem isLine_append {front back : String} :
    IsLine (front ++ back) ↔ IsLine front ∧ IsLine back := by
  unfold IsLine
  rw [String.toList_append, List.mem_append, not_or]

theorem IsLine.indent {line : String} (isLine : IsLine line) : IsLine (PageCode.indent line) := by
  unfold PageCode.indent
  split
  · exact isLine
  · exact isLine_append.mpr ⟨isLine_ofList (by decide), isLine⟩

theorem isLine_of_mem_block {opening closing line : String} {lines : List String}
    (opens : IsLine opening) (inner : ∀ line ∈ lines, IsLine line) (closes : IsLine closing)
    (member : line ∈ PageCode.block opening lines closing) : IsLine line := by
  obtain rfl | rest := List.mem_cons.mp member
  · exact opens
  · obtain indented | last := List.mem_append.mp rest
    · obtain ⟨within, isWithin, rfl⟩ := List.mem_map.mp indented
      exact (inner within isWithin).indent
    · obtain rfl := List.mem_singleton.mp last
      exact closes

/-- What each line that calls a function starts with. -/
def callOpening : List Char := "window.cbScriptlets[".toList

/-- Whether a line calls a function. -/
def isCall (line : List Char) : Bool :=
  callOpening.isPrefixOf line

/-- A line that is further in is no call, for calls are not indented. -/
theorem isCall_indent (line : String) : isCall (PageCode.indent line).toList = false := by
  unfold PageCode.indent
  split
  · rename_i empty
    rw [String.isEmpty_iff.mp empty]
    rfl
  · rw [String.toList_append]
    rfl

theorem isCall_of_mem_block {opening closing line : String} {lines : List String}
    (opens : isCall opening.toList = false) (closes : isCall closing.toList = false)
    (member : line ∈ PageCode.block opening lines closing) : isCall line.toList = false := by
  obtain rfl | rest := List.mem_cons.mp member
  · exact opens
  · obtain indented | last := List.mem_append.mp rest
    · obtain ⟨within, -, rfl⟩ := List.mem_map.mp indented
      exact isCall_indent within
    · obtain rfl := List.mem_singleton.mp last
      exact closes

/-! ### Templates -/

namespace Template

/-- No template calls what it defines. -/
theorem isCall_of_mem_lines {template : Template} {name line : String}
    (member : line ∈ template.lines name) : isCall line.toList = false :=
  isCall_of_mem_block (by decide) (by decide) member

/-- Whether each line of a template is one line. -/
@[mk_iff isPlain_iff]
structure IsPlain (template : Template) : Prop where
  setup : ∀ line ∈ template.setup, IsLine line
  parameters : IsLine template.parameters
  body : ∀ line ∈ template.body, IsLine line

theorem IsPlain.isLine_of_mem_lines {template : Template} {name line : String}
    (isPlain : template.IsPlain) (nameIsLine : IsLine name)
    (member : line ∈ template.lines name) : IsLine line := by
  refine isLine_of_mem_block (isLine_ofList (by decide)) (fun within isWithin => ?_)
    (isLine_ofList (by decide)) member
  obtain rfl | rfl | rest := List.mem_cons.mp isWithin |>.imp_right List.mem_cons.mp
  · exact isLine_ofList (by decide)
  · exact isLine_ofList (by decide)
  obtain setup | function := List.mem_append.mp rest
  · exact isPlain.setup within setup
  · refine isLine_of_mem_block ?_ isPlain.body (isLine_ofList (by decide)) function
    simp only [isLine_append]
    exact ⟨⟨⟨⟨isLine_ofList (by decide), nameIsLine⟩, isLine_ofList (by decide)⟩,
      isPlain.parameters⟩, isLine_ofList (by decide)⟩

end Template

/-- Whether each line of the code of a catalog is one line. -/
def Catalog.IsPlain (catalog : Catalog) : Prop :=
  ∀ entry ∈ catalog, IsLine entry.registeredName ∧ entry.template.IsPlain

open Builtin in
theorem Catalog.isPlain_builtin : Catalog.builtin.IsPlain := by
  -- Each line is compared as a list of characters: to compute the list from the text takes long.
  simp only [Catalog.IsPlain, Catalog.builtin, Catalog.plain, Template.isPlain_iff, jsonPrune,
    setConstant, abortOnPropertyRead, abortOnPropertyWrite, abortCurrentInlineScript,
    preventAddEventListener, removeAttr, setAttr, removeClass, preventXhr, preventFetch,
    noSetTimeoutIf, noSetIntervalIf, log, List.forall_mem_cons, isLine_append]
  repeat' apply And.intro
  all_goals first | exact List.forall_mem_nil _ | exact isLine_ofList (by decide)

/-! ### Reading calls -/

/-- Reads a string literal, and gives what stands after it. -/
def readLiteral? : List Char → Option (String × List Char)
  | '"' :: rest =>
    match Json.unquote? rest with
    | some (some text, after) => some (text, after)
    | _ => none
  | _ => none

theorem length_of_readLiteral? {text : List Char} {found : String × List Char}
    (read : readLiteral? text = some found) : found.2.length < text.length := by
  unfold readLiteral? at read
  split at read
  · split at read
    · rename_i unquoted
      cases read
      exact Nat.lt_succ_of_lt (Json.length_of_unquote? unquoted)
    · cases read
  · cases read

/-- Reads the arguments of a call that are left, each with the comma before it, up to the end of
the line. -/
def readArguments? (text : List Char) : Option (List String) :=
  match text with
  | [')', ';'] => some []
  | ',' :: ' ' :: rest =>
    match _ : readLiteral? rest with
    | some (argument, after) => (readArguments? after).map (argument :: ·)
    | none => none
  | _ => none
termination_by text.length
decreasing_by
  have shorter : after.length < rest.length := length_of_readLiteral? ‹_›
  simp only [List.length_cons]
  omega

/-- Reads the arguments of a call, up to the end of the line. -/
def readFirstArgument? (text : List Char) : Option (List String) :=
  match text with
  | [')', ';'] => some []
  | _ => do
    let (argument, after) ← readLiteral? text
    (readArguments? after).map (argument :: ·)

/-- Reads a line that calls a function: its registered name, and the arguments. -/
def Call.read? (line : List Char) : Option Call := do
  let text ← callOpening.isPrefixOf? line
  let (name, after) ← readLiteral? text
  let rest ← "](".toList.isPrefixOf? after
  let arguments ← readFirstArgument? rest
  some { name, arguments }

/-! ### Written literals and calls -/

theorem newline_not_mem_quoteChar (character : Char) : '\n' ∉ Json.quoteChar character := by
  unfold Json.quoteChar
  split
  case h_8 =>
    rename_i notNewline _ _
    split
    · rename_i control
      have escaped : ∀ code < 0x20, '\n' ∉
          ['\\', 'u', '0', '0', Json.hexDigit (code / 16), Json.hexDigit (code % 16)] := by
        decide
      exact escaped character.toNat control
    · simpa using Ne.symm notNewline
  all_goals decide

theorem isLine_quote (text : String) : IsLine (Json.quote text) := by
  refine isLine_ofList fun newline => ?_
  simp only [Json.quoteChars, List.mem_append, List.mem_cons, List.mem_flatMap] at newline
  obtain (quote | ⟨character, -, newline⟩) | quote | none := newline
  · cases quote
  · exact newline_not_mem_quoteChar character newline
  · cases quote
  · cases none

theorem readLiteral?_quote (text : String) (rest : List Char) :
    readLiteral? ((Json.quote text).toList ++ rest) = some (text, rest) := by
  have written : (Json.quote text).toList ++ rest =
      '"' :: (text.toList.flatMap Json.quoteChar ++ '"' :: rest) := by
    rw [Json.quote, String.toList_ofList, Json.quoteChars, List.append_assoc]
    rfl
  rw [written, readLiteral?, Json.unquote?_flatMap_quoteChar]

/-- Joined texts are the first one, and each other one behind a separator. -/
theorem toList_intercalate_cons (separator first : String) (rest : List String) :
    (String.intercalate separator (first :: rest)).toList =
      first.toList ++ rest.flatMap fun text => separator.toList ++ text.toList := by
  rw [String.toList_intercalate]
  induction rest generalizing first with
  | nil => rw [List.map_cons, List.map_nil, List.intercalate_singleton, List.flatMap_nil,
      List.append_nil]
  | cons next others inductionHypothesis =>
    rw [List.map_cons, List.map_cons, List.intercalate_cons_cons, ← List.map_cons,
      inductionHypothesis, List.flatMap_cons, List.append_assoc, List.append_assoc]

theorem readArguments?_written (arguments : List String) :
    readArguments? ((arguments.map Json.quote).flatMap (fun text => ", ".toList ++ text.toList)
      ++ [')', ';']) = some arguments := by
  induction arguments with
  | nil => rw [List.map_nil, List.flatMap_nil, List.nil_append, readArguments?]
  | cons argument rest inductionHypothesis =>
    have separator : ", ".toList = [',', ' '] := String.toList_ofList
    rw [List.map_cons, List.flatMap_cons, List.append_assoc, List.append_assoc, separator,
      List.cons_append, List.singleton_append, ← separator, readArguments?]
    split
    · rename_i read
      rw [readLiteral?_quote] at read
      cases read
      rw [inductionHypothesis]
      rfl
    · rename_i read
      rw [readLiteral?_quote] at read
      cases read

theorem readFirstArgument?_written (arguments : List String) :
    readFirstArgument? ((String.intercalate ", " (arguments.map Json.quote)).toList
      ++ [')', ';']) = some arguments := by
  cases arguments with
  | nil => rfl
  | cons first rest =>
    rw [List.map_cons, toList_intercalate_cons, List.append_assoc]
    have opens : ∃ text, (Json.quote first).toList = '"' :: text :=
      ⟨_, by rw [Json.quote, String.toList_ofList, Json.quoteChars]; rfl⟩
    obtain ⟨text, opens⟩ := opens
    have literal := readLiteral?_quote first
      ((rest.map Json.quote).flatMap (fun text => ", ".toList ++ text.toList) ++ [')', ';'])
    rw [opens] at literal ⊢
    rw [List.cons_append] at literal ⊢
    unfold readFirstArgument?
    rw [literal]
    show (readArguments? _).map _ = _
    rw [readArguments?_written]
    rfl

theorem Call.toList_line (registeredName : String) (arguments : List String) :
    (line registeredName arguments).toList = callOpening ++
      ((Json.quote registeredName).toList ++ ("](".toList ++
        ((String.intercalate ", " (arguments.map Json.quote)).toList ++ ");".toList))) := by
  unfold line callOpening
  rw [String.toList_append, String.toList_append, String.toList_append, String.toList_append,
    List.append_assoc, List.append_assoc, List.append_assoc]

theorem isPrefixOf?_append (marker rest : List Char) :
    marker.isPrefixOf? (marker ++ rest) = some rest :=
  List.isPrefixOf?_eq_some_iff_append_eq.mpr rfl

/-- A call that was written is read as the call that was meant. -/
theorem Call.read?_line (registeredName : String) (arguments : List String) :
    read? (line registeredName arguments).toList = some ⟨registeredName, arguments⟩ := by
  have closing : ");".toList = [')', ';'] := String.toList_ofList
  rw [toList_line, closing]
  simp only [read?, isPrefixOf?_append, readLiteral?_quote, readFirstArgument?_written,
    Option.bind_eq_bind, Option.bind_some]

example : Call.line "log" ["\");\nalert(1)"] =
    "window.cbScriptlets[\"log\"](\"\\\");\\nalert(1)\");" := by
  decide +kernel

theorem Call.isLine_line (registeredName : String) (arguments : List String) :
    IsLine (line registeredName arguments) := by
  have written : IsLine (String.intercalate ", " (arguments.map Json.quote)) := by
    cases arguments with
    | nil => simp [IsLine]
    | cons first rest =>
      intro newline
      rw [List.map_cons, toList_intercalate_cons, List.mem_append, List.mem_flatMap] at newline
      obtain inFirst | ⟨literal, isLiteral, inLiteral⟩ := newline
      · exact isLine_quote first inFirst
      · obtain ⟨argument, -, rfl⟩ := List.mem_map.mp isLiteral
        obtain separator | inside := List.mem_append.mp inLiteral
        · rw [String.toList_ofList] at separator
          exact absurd separator (by decide)
        · exact isLine_quote argument inside
  unfold line
  rw [isLine_append, isLine_append, isLine_append, isLine_append]
  refine ⟨⟨⟨⟨?_, isLine_quote registeredName⟩, ?_⟩, written⟩, ?_⟩
  · exact isLine_ofList (by decide)
  · exact isLine_ofList (by decide)
  · exact isLine_ofList (by decide)

theorem Call.isCall_line (registeredName : String) (arguments : List String) :
    isCall (line registeredName arguments).toList = true := by
  rw [toList_line, isCall, List.isPrefixOf_iff_prefix]
  exact List.prefix_append _ _

/-! ### Bundles -/

namespace Bundle

variable {catalog : Catalog} {rules : List Rule}

/-- What a rule calls, if it is for a scriptlet that the catalog has: the entry of the scriptlet,
and the arguments. -/
def resolve? (catalog : Catalog) (rule : Rule) : Option (CatalogEntry × List String) :=
  match rule.action with
  | .scriptlet name arguments => (catalog.entry? name).map fun entry => (entry, arguments)
  | _ => none

/-- What a rule calls is an entry of the catalog that has the name in the rule. -/
theorem of_resolve?_eq_some {rule : Rule} {entry : CatalogEntry} {arguments : List String}
    (resolves : resolve? catalog rule = some (entry, arguments)) :
    entry ∈ catalog ∧ rule.action = .scriptlet entry.name arguments := by
  unfold resolve? at resolves
  split at resolves
  · rename_i name given action
    obtain ⟨found, isFound, same⟩ := Option.map_eq_some_iff.mp resolves
    cases same
    obtain ⟨inCatalog, rfl⟩ := Catalog.of_entry?_eq_some isFound
    exact ⟨inCatalog, action⟩
  · cases resolves

/-- A rule calls something if it names an entry of the catalog. -/
theorem isSome_resolve?_iff {rule : Rule} :
    (resolve? catalog rule).isSome = true ↔
      ∃ entry ∈ catalog, ∃ arguments, rule.action = .scriptlet entry.name arguments := by
  refine ⟨fun isSome => ?_, fun ⟨entry, inCatalog, arguments, action⟩ => ?_⟩
  · obtain ⟨⟨entry, arguments⟩, resolves⟩ := Option.isSome_iff_exists.mp isSome
    obtain ⟨inCatalog, action⟩ := of_resolve?_eq_some resolves
    exact ⟨entry, inCatalog, arguments, action⟩
  · unfold resolve?
    rw [action]
    exact Option.isSome_map.trans (Catalog.isSome_entry?_iff.mpr ⟨entry, inCatalog, rfl⟩)

/-- What rules call, in their order. -/
def resolutions (catalog : Catalog) (rules : List Rule) : List (CatalogEntry × List String) :=
  rules.filterMap (resolve? catalog)

/-- The line that calls the function of an entry. -/
def callLine (resolution : CatalogEntry × List String) : String :=
  Call.line resolution.1.registeredName resolution.2

/-- The lines that define the function of an entry and call it. -/
def codeLines (resolution : CatalogEntry × List String) : List String :=
  resolution.1.template.lines resolution.1.registeredName ++ [callLine resolution]

/-- The lines of code that are calls. -/
def callsOf (code : String) : List (List Char) :=
  (Text.splitOn '\n' code.toList).filter isCall

/-- Whether a bundle defines and calls just what rules ask for, and counts it. -/
structure Runs (catalog : Catalog) (rules : List Rule) (bundle : Bundle) : Prop where
  /-- Line by line, the code is the one of each rule that is resolved. -/
  lines : Text.splitOn '\n' bundle.code.toList =
    ((resolutions catalog rules).flatMap codeLines).map String.toList ++ [[]]
  calls : callsOf bundle.code =
    (resolutions catalog rules).map fun resolution => (callLine resolution).toList
  /-- The calls can be read back from the code. -/
  readable : (callsOf bundle.code).mapM Call.read? =
    some ((resolutions catalog rules).map fun (entry, arguments) =>
      ⟨entry.registeredName, arguments⟩)
  resolved : bundle.resolved = (callsOf bundle.code).length
  total : bundle.resolved + bundle.skipped = rules.countP fun rule => rule.tier = .scriptlet

theorem filterMap_codeOf?_outcomes (catalog : Catalog) (rules : List Rule) :
    (outcomes catalog rules).filterMap codeOf? =
      (resolutions catalog rules).map fun resolution =>
        PageCode.join (codeLines resolution) ++ "\n" := by
  unfold outcomes resolutions
  rw [List.filterMap_map, List.filterMap_filterMap, List.map_filterMap]
  refine congrArg (List.filterMap · rules) (funext fun rule => ?_)
  unfold Rule.call? resolve?
  cases rule.action with
  | scriptlet name arguments =>
    show codeOf? (Call.code? ⟨name, arguments⟩ catalog) = ((catalog.entry? name).map _).map _
    unfold Call.code? Call.lines?
    cases catalog.entry? name <;> rfl
  | _ => rfl

theorem length_codes_add_errors (outcomes : List (Except UnknownScriptlet String)) :
    (outcomes.filterMap codeOf?).length + (outcomes.filterMap errorOf?).length =
      outcomes.length := by
  induction outcomes with
  | nil => rfl
  | cons outcome rest inductionHypothesis =>
    cases outcome with
    | ok code =>
      rw [List.length_cons, ← inductionHypothesis]
      exact Nat.succ_add _ _
    | error error =>
      rw [List.length_cons, ← inductionHypothesis]
      exact Nat.add_succ _ _

theorem length_outcomes (catalog : Catalog) (rules : List Rule) :
    (outcomes catalog rules).length = rules.countP fun rule => rule.tier = .scriptlet := by
  unfold outcomes
  rw [List.length_map, List.length_filterMap_eq_countP]
  refine congrArg (List.countP · rules) (funext fun rule => ?_)
  unfold Rule.call? Rule.tier
  cases rule.action <;> rfl

theorem outcomes_append (catalog : Catalog) (rules others : List Rule) :
    outcomes catalog (rules ++ others) = outcomes catalog rules ++ outcomes catalog others := by
  unfold outcomes
  rw [List.filterMap_append, List.map_append]

/-- Each line of a code that is joined is followed by a line feed. -/
theorem toList_join_append {lines : List String} (nonempty : lines ≠ []) :
    (PageCode.join lines ++ "\n").toList =
      (lines.map String.toList).flatMap fun line => line ++ ['\n'] := by
  obtain ⟨first, rest, rfl⟩ := List.exists_cons_of_ne_nil nonempty
  have lineFeed : "\n".toList = ['\n'] := String.toList_ofList
  have shift : rest.flatMap (fun text => ['\n'] ++ text.toList) ++ ['\n'] =
      '\n' :: (rest.map String.toList).flatMap fun line => line ++ ['\n'] := by
    clear nonempty
    induction rest with
    | nil => rfl
    | cons next others inductionHypothesis =>
      rw [List.flatMap_cons, List.append_assoc, inductionHypothesis, List.map_cons,
        List.flatMap_cons, List.append_assoc, List.append_assoc]
      rfl
  rw [String.toList_append, PageCode.join, toList_intercalate_cons, lineFeed, List.append_assoc,
    shift, List.map_cons, List.flatMap_cons, List.append_assoc]
  rfl

theorem toList_code (catalog : Catalog) (rules : List Rule) :
    (ofRules catalog rules).code.toList =
      (((resolutions catalog rules).flatMap codeLines).map String.toList).flatMap
        fun line => line ++ ['\n'] := by
  have joined : ∀ resolution, (PageCode.join (codeLines resolution) ++ "\n").toList =
      ((codeLines resolution).map String.toList).flatMap fun line => line ++ ['\n'] :=
    fun resolution => toList_join_append (List.append_ne_nil_of_right_ne_nil _ (by simp))
  show (String.join _).toList = _
  rw [filterMap_codeOf?_outcomes, String.toList_join, List.flatMap_map, List.map_flatMap,
    List.flatMap_assoc]
  simp only [joined]

/-- Each line of a bundle's code is a line of a template or a call, so no text is on two lines. -/
theorem isLine_of_mem_codeLines (isPlain : catalog.IsPlain) {line : String}
    (member : line ∈ (resolutions catalog rules).flatMap codeLines) : IsLine line := by
  obtain ⟨⟨entry, arguments⟩, isResolved, inCode⟩ := List.mem_flatMap.mp member
  obtain ⟨rule, -, resolves⟩ := List.mem_filterMap.mp isResolved
  have inCatalog := (of_resolve?_eq_some resolves).1
  obtain inTemplate | isCallLine := List.mem_append.mp inCode
  · exact (isPlain entry inCatalog).2.isLine_of_mem_lines (isPlain entry inCatalog).1 inTemplate
  · obtain rfl := List.mem_singleton.mp isCallLine
    exact Call.isLine_line _ _

theorem filter_isCall_codeLines (resolution : CatalogEntry × List String) :
    (codeLines resolution).filter (fun line => isCall line.toList) = [callLine resolution] := by
  have template : (resolution.1.template.lines resolution.1.registeredName).filter
      (fun line => isCall line.toList) = [] :=
    List.filter_eq_nil_iff.mpr fun line member =>
      Bool.not_eq_true _ ▸ Template.isCall_of_mem_lines member
  have call : isCall (callLine resolution).toList = true := Call.isCall_line _ _
  rw [codeLines, List.filter_append, template, List.nil_append, List.filter_cons, if_pos call,
    List.filter_nil]

theorem runs_ofRules (isPlain : catalog.IsPlain) (rules : List Rule) :
    (ofRules catalog rules).Runs catalog rules := by
  have lines : Text.splitOn '\n' (ofRules catalog rules).code.toList =
      ((resolutions catalog rules).flatMap codeLines).map String.toList ++ [[]] := by
    rw [toList_code]
    refine Text.splitOn_flatMap_append fun line member => ?_
    obtain ⟨text, isText, rfl⟩ := List.mem_map.mp member
    exact isLine_of_mem_codeLines isPlain isText
  have calls : callsOf (ofRules catalog rules).code =
      (resolutions catalog rules).map fun resolution => (callLine resolution).toList := by
    unfold callsOf
    rw [lines, List.filter_append, List.filter_map, List.filter_flatMap]
    simp only [Function.comp_def, filter_isCall_codeLines]
    rw [← List.map_eq_flatMap, List.map_map]
    exact List.append_nil _
  have codes := congrArg List.length (filterMap_codeOf?_outcomes catalog rules)
  rw [List.length_map] at codes
  refine ⟨lines, calls, ?_, ?_, ?_⟩
  · rw [calls]
    exact mapM_map_eq_some (fun _ => Call.read?_line _ _) _
  · rw [calls, List.length_map]
    exact codes
  · exact (length_codes_add_errors _).trans (length_outcomes catalog rules)

/-- Two bundles one after the other. -/
def append (first second : Bundle) : Bundle where
  code := first.code ++ second.code
  resolved := first.resolved + second.resolved
  skipped := first.skipped + second.skipped

theorem ofRules_append (catalog : Catalog) (rules others : List Rule) :
    ofRules catalog (rules ++ others) =
      (ofRules catalog rules).append (ofRules catalog others) := by
  simp only [ofRules, append, outcomes_append, List.filterMap_append, String.join_append,
    List.length_append]

/-- Whatever the arguments of rules say, a bundle made with the built-in catalog runs just the calls
that the rules ask for. So the bundle of two lists is the bundle of the first and then that of the
second. -/
theorem runs_builtin (rules others : List Rule) :
    (ofRules .builtin rules).Runs .builtin rules ∧
      ofRules .builtin (rules ++ others) =
        (ofRules .builtin rules).append (ofRules .builtin others) :=
  ⟨runs_ofRules Catalog.isPlain_builtin rules, ofRules_append .builtin rules others⟩

/-- Rules for a scriptlet that the catalog has, and for one that it does not have. -/
def sampleRules : List Rule :=
  [{ action := .scriptlet "log" ["it\n"], trigger := { urlFilter := ".*" } },
    { action := .scriptlet "nothing" [], trigger := { urlFilter := ".*" } }]

example :
    (ofRules .builtin sampleRules).resolved = 1 ∧ (ofRules .builtin sampleRules).skipped = 1 ∧
      (resolutions .builtin sampleRules).map (fun (entry, arguments) => (entry.name, arguments)) =
        [("log", ["it\n"])] := by
  decide +kernel

end Bundle

end FilterLists.Scriptlet
