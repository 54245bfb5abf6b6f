/-
This file shows how the options of a line come together. Whatever tokens two texts of options hold,
the texts with a comma between them come to what each of them comes to: resource types are put one
after the other, the marks of parties are kept from both, and the domains are those of the second
text if it has a list of domains at all.

That is so because every token is read on its own. A token is of one of five kinds, and what it does
depends on its kind: a list of domains takes the place of the one before, a mark is kept, a resource
type is put at the end, and an unknown token does nothing. So blanks and unknown tokens do not
count, and only two tokens of the same kind can be told by their order.
-/

import FilterLists.Proofs.Rule.Domains
import FilterLists.Proofs.Rule.Dollars
import Mathlib.Data.List.Basic
import Mathlib.Logic.Relation

namespace FilterLists

/-! ### Lists of domains -/

namespace DomainList

variable {separator : Char} {text token domain : List Char}

/-- The domains of two lists, those of the second after those of the first. -/
def append (first second : DomainList) : DomainList where
  included := first.included ++ second.included
  excluded := first.excluded ++ second.excluded

theorem parse_append_cons (separator : Char) (front back : List Char) :
    parse separator (front ++ separator :: back) =
      (parse separator front).append (parse separator back) := by
  simp only [parse, entries, ofEntries, append, Text.splitOn_append_cons, List.filterMap_append]

/-- Whether a token is written in a list, with any blanks around it. -/
def IsWritten (separator : Char) (text token : List Char) : Prop :=
  ∃ piece ∈ Text.splitOn separator text, Text.trim piece = token

theorem Entry.ofToken?_eq_included_iff :
    ofToken? token = some (.included domain) ↔
      (domain ≠ [] ∧ domain.head? ≠ some '~') ∧ token = domain := by
  fun_cases ofToken? token <;> grind [List.head?_eq_some_iff]

theorem Entry.ofToken?_eq_excluded_iff :
    ofToken? token = some (.excluded domain) ↔ domain ≠ [] ∧ token = '~' :: domain := by
  fun_cases ofToken? token <;> grind

theorem Entry.included?_eq_some_iff {entry : Entry} {domain : String} :
    entry.included? = some domain ↔ entry = .included domain.toList := by
  cases entry <;> simp [included?, String.ofList_eq]

theorem Entry.excluded?_eq_some_iff {entry : Entry} {domain : String} :
    entry.excluded? = some domain ↔ entry = .excluded domain.toList := by
  cases entry <;> simp [excluded?, String.ofList_eq]

theorem mem_included_iff {domain : String} :
    domain ∈ (parse separator text).included ↔
      (domain.toList ≠ [] ∧ domain.toList.head? ≠ some '~') ∧
        IsWritten separator text domain.toList := by
  simp only [parse, ofEntries, entries, List.mem_filterMap, Entry.included?_eq_some_iff,
    exists_eq_right, Entry.ofToken?_eq_included_iff, IsWritten]
  tauto

theorem mem_excluded_iff {domain : String} :
    domain ∈ (parse separator text).excluded ↔
      domain.toList ≠ [] ∧ IsWritten separator text ('~' :: domain.toList) := by
  simp only [parse, ofEntries, entries, List.mem_filterMap, Entry.excluded?_eq_some_iff,
    exists_eq_right, Entry.ofToken?_eq_excluded_iff, IsWritten]
  tauto

/-- A domain is included and excluded just if it is written both without and with the mark. -/
theorem disjoint_parse_iff :
    (parse separator text).included.Disjoint (parse separator text).excluded ↔
      ∀ domain, domain ≠ [] → domain.head? ≠ some '~' → IsWritten separator text domain →
        ¬ IsWritten separator text ('~' :: domain) := by
  constructor
  · intro disjoint domain nonempty noMark isWritten isMarked
    refine @disjoint (.ofList domain) ?_ ?_
    · rw [mem_included_iff, String.toList_ofList]
      exact ⟨⟨nonempty, noMark⟩, isWritten⟩
    · rw [mem_excluded_iff, String.toList_ofList]
      exact ⟨nonempty, isMarked⟩
  · intro apart domain isIncluded isExcluded
    obtain ⟨⟨nonempty, noMark⟩, isWritten⟩ := mem_included_iff.mp isIncluded
    exact apart domain.toList nonempty noMark isWritten (mem_excluded_iff.mp isExcluded).2

end DomainList

/-! ### Kinds of tokens -/

theorem Party.ofOption?_eq (name : String) :
    ofOption? name =
      if name ∈ ["third-party", "3p"] then some { third := true }
      else if name ∈ ["~third-party", "~3p", "1p"] then some { first := true }
      else none := by
  unfold ofOption?
  split <;> simp_all

theorem ResourceType.isSome_ofOption?_iff (name : String) :
    (ofOption? name).isSome = true ↔
      name ∈ ["script", "image", "stylesheet", "css", "xmlhttprequest", "xhr", "media",
        "font"] := by
  unfold ofOption?
  split <;> simp_all

namespace LineOption

variable {token before after : List Char}

/-- The kinds of tokens. -/
inductive Kind
  | domains
  | thirdParty
  | firstParty
  | resource
  /-- The token stands for no option. -/
  | unknown
  deriving DecidableEq, Repr

/-- The kind of a token. Blanks around it do not count. -/
def kind (token : List Char) : Kind :=
  let name := String.ofList (Text.trim token)
  if "domain=".toList <+: Text.trim token then .domains
  else if name ∈ ["third-party", "3p"] then .thirdParty
  else if name ∈ ["~third-party", "~3p", "1p"] then .firstParty
  else if name ∈ ["script", "image", "stylesheet", "css", "xmlhttprequest", "xhr", "media", "font"]
    then .resource
  else .unknown

theorem kind_eq_domains_iff :
    kind token = .domains ↔ "domain=".toList <+: Text.trim token := by
  unfold kind
  dsimp only
  split_ifs <;> simp_all

theorem kind_eq_thirdParty_iff :
    kind token = .thirdParty ↔ String.ofList (Text.trim token) ∈ ["third-party", "3p"] := by
  unfold kind
  dsimp only
  split_ifs with isDomains
  · refine iff_of_false (by simp) fun isName => ?_
    simp only [List.mem_cons, List.not_mem_nil, or_false, String.ofList_eq] at isName
    obtain same | same := isName <;>
      exact absurd (same ▸ isDomains) (by decide)
  all_goals simp_all

theorem kind_of_allBlank (allBlank : Text.AllBlank token) : kind token = .unknown := by
  rw [kind, Text.trim_eq_nil_iff.mpr allBlank]
  decide

theorem ofToken?_padded (beforeBlank : Text.AllBlank before) (afterBlank : Text.AllBlank after) :
    ofToken? (before ++ token ++ after) = ofToken? token := by
  unfold ofToken?
  rw [Text.trim_append_right afterBlank, Text.trim_append_left beforeBlank]

end LineOption

/-! ### Options put together -/

namespace LineOptions

open LineOption (Kind kind)

variable {tokens : List (List Char)} {token other : List Char}

/-- The options of two texts. Domains of the second take the place of those of the first. -/
def append (first second : LineOptions) : LineOptions where
  domains := second.domains.or first.domains
  party := first.party.union second.party
  resourceTypes := first.resourceTypes ++ second.resourceTypes

theorem append_empty (options : LineOptions) : options.append {} = options := by
  simp [append, Party.union]

theorem empty_append (options : LineOptions) : append {} options = options := by
  simp [append, Party.union]

theorem append_assoc (first second third : LineOptions) :
    (first.append second).append third = first.append (second.append third) := by
  simp [append, Party.union, Option.or_assoc, Bool.or_assoc]

theorem add_eq_append (options : LineOptions) (option : LineOption) :
    options.add option = options.append (add {} option) := by
  cases option <;> simp [add, append, Party.union]

theorem foldl_add (options : LineOptions) (list : List LineOption) :
    list.foldl add options = options.append (list.foldl add {}) := by
  induction list generalizing options with
  | nil => exact (append_empty options).symm
  | cons option rest inductionHypothesis =>
    rw [List.foldl_cons, List.foldl_cons, inductionHypothesis, inductionHypothesis (add {} option),
      add_eq_append, append_assoc]

/-- What tokens come to. -/
def ofTokens (tokens : List (List Char)) : LineOptions :=
  (tokens.filterMap LineOption.ofToken?).foldl add {}

theorem ofTokens_append (first second : List (List Char)) :
    ofTokens (first ++ second) = (ofTokens first).append (ofTokens second) := by
  rw [ofTokens, List.filterMap_append, List.foldl_append, foldl_add]
  rfl

theorem ofTokens_cons (token : List Char) (rest : List (List Char)) :
    ofTokens (token :: rest) = (ofTokens [token]).append (ofTokens rest) :=
  ofTokens_append [token] rest

theorem ofTokens_singleton (token : List Char) :
    ofTokens [token] = (LineOption.ofToken? token).elim {} (add {}) := by
  unfold ofTokens
  cases read : LineOption.ofToken? token <;> simp [read]

/-- Options between commas come to what the texts on both sides of a comma come to. -/
theorem parse_append_cons (front back : List Char) :
    parse (front ++ ',' :: back) = (parse front).append (parse back) := by
  show ofTokens (Text.splitOn ',' (front ++ ',' :: back)) = _
  rw [Text.splitOn_append_cons, ofTokens_append]
  rfl

/-! ### What the tokens of each kind come to -/

/-- What a token of a kind comes to on its own. -/
inductive Gives (token : List Char) : Kind → LineOptions → Prop
  | domains {value : List Char} : Text.trim token = "domain=".toList ++ value →
    Gives token .domains { domains := some (.parse '|' value) }
  | thirdParty : Gives token .thirdParty { party := { third := true } }
  | firstParty : Gives token .firstParty { party := { first := true } }
  | resource {resource : ResourceType} :
    ResourceType.ofOption? (.ofList (Text.trim token)) = some resource →
    Gives token .resource { resourceTypes := [resource] }
  | unknown : Gives token .unknown {}

theorem gives_ofTokens (token : List Char) : Gives token (kind token) (ofTokens [token]) := by
  rw [ofTokens_singleton, kind, LineOption.ofToken?]
  by_cases isDomains : "domain=".toList <+: Text.trim token
  · obtain ⟨value, parts⟩ := isDomains
    rw [List.isPrefixOf?_eq_some_iff_append_eq.mpr parts, if_pos ⟨value, parts⟩]
    exact .domains parts.symm
  · rw [Text.isPrefixOf?_eq_none_iff.mpr isDomains, if_neg isDomains, Party.ofOption?_eq]
    dsimp only
    split
    · exact .thirdParty
    · split
      · exact .firstParty
      · simp only [← ResourceType.isSome_ofOption?_iff]
        cases found : ResourceType.ofOption? (.ofList (Text.trim token)) with
        | none => exact .unknown
        | some resource => exact .resource found

namespace Gives

variable {kind otherKind : Kind} {options otherOptions : LineOptions}

theorem eq_empty (gives : Gives token .unknown options) : options = {} := by
  cases gives
  rfl

theorem isSome_domains_iff (gives : Gives token kind options) :
    options.domains.isSome = true ↔ kind = .domains := by
  cases gives <;> simp

theorem third_iff (gives : Gives token kind options) :
    options.party.third = true ↔ kind = .thirdParty := by
  cases gives <;> simp

theorem append_comm (gives : Gives token kind options)
    (givesOther : Gives other otherKind otherOptions) (different : kind ≠ otherKind) :
    options.append otherOptions = otherOptions.append options := by
  cases gives <;> cases givesOther <;> first | contradiction | rfl

end Gives

theorem gives_parse (isToken : ',' ∉ token) : Gives token (kind token) (parse token) := by
  have alone : Text.splitOn ',' token = [token] := Text.splitFrom_of_not_mem isToken []
  show Gives token (kind token) (ofTokens (Text.splitOn ',' token))
  rw [alone]
  exact gives_ofTokens token

theorem isSome_domains_ofTokens_iff :
    (ofTokens tokens).domains.isSome = true ↔ ∃ token ∈ tokens, kind token = .domains := by
  induction tokens with
  | nil => simp [ofTokens]
  | cons token rest inductionHypothesis =>
    rw [ofTokens_cons, List.exists_mem_cons_iff, ← inductionHypothesis,
      ← (gives_ofTokens token).isSome_domains_iff]
    simp [append, Option.isSome_or, or_comm]

theorem third_ofTokens_iff :
    (ofTokens tokens).party.third = true ↔ ∃ token ∈ tokens, kind token = .thirdParty := by
  induction tokens with
  | nil => simp [ofTokens]
  | cons token rest inductionHypothesis =>
    rw [ofTokens_cons, List.exists_mem_cons_iff, ← inductionHypothesis,
      ← (gives_ofTokens token).third_iff]
    simp [append, Party.union]

/-! ### Layout -/

/-- Whether tokens become others by a change that does not count. -/
inductive Relaid : List (List Char) → List (List Char) → Prop
  /-- Blanks are put around a token. -/
  | pad {front back : List (List Char)} {token before after : List Char} :
    Text.AllBlank before → Text.AllBlank after →
      Relaid (front ++ token :: back) (front ++ (before ++ token ++ after) :: back)
  /-- A token of blanks is put in. -/
  | blank {front back : List (List Char)} {token : List Char} : Text.AllBlank token →
    Relaid (front ++ back) (front ++ token :: back)
  /-- A token that stands for no option is put in. -/
  | unknown {front back : List (List Char)} {token : List Char} : kind token = .unknown →
    Relaid (front ++ back) (front ++ token :: back)
  /-- Two neighbours of different kinds change places. -/
  | swap {front back : List (List Char)} {token other : List Char} : kind token ≠ kind other →
    Relaid (front ++ token :: other :: back) (front ++ other :: token :: back)

theorem ofTokens_append_cons_of_unknown (isUnknown : kind token = .unknown)
    (front back : List (List Char)) :
    ofTokens (front ++ token :: back) = ofTokens (front ++ back) := by
  have nothing : ofTokens [token] = {} := (isUnknown ▸ gives_ofTokens token).eq_empty
  rw [ofTokens_append, ofTokens_cons, nothing, empty_append, ofTokens_append]

theorem Relaid.ofTokens_eq {tokens changed : List (List Char)} (relaid : Relaid tokens changed) :
    ofTokens tokens = ofTokens changed := by
  cases relaid with
  | @pad front back token before after beforeBlank afterBlank =>
    have same : ofTokens [before ++ token ++ after] = ofTokens [token] := by
      rw [ofTokens_singleton, ofTokens_singleton,
        LineOption.ofToken?_padded beforeBlank afterBlank]
    rw [ofTokens_append, ofTokens_cons, ← same, ← ofTokens_cons, ← ofTokens_append]
  | @blank front back token allBlank =>
    have isUnknown := LineOption.kind_of_allBlank allBlank
    exact (ofTokens_append_cons_of_unknown isUnknown front back).symm
  | @unknown front back token isUnknown =>
    exact (ofTokens_append_cons_of_unknown isUnknown front back).symm
  | @swap front back token other different =>
    have pair : ∀ first second : List Char, ofTokens (front ++ first :: second :: back) =
        (ofTokens front).append
          (((ofTokens [first]).append (ofTokens [second])).append (ofTokens back)) := by
      intro first second
      rw [ofTokens_append, ofTokens_cons, ofTokens_cons second, append_assoc]
    rw [pair, pair, (gives_ofTokens token).append_comm (gives_ofTokens other) different]

/-- However often the layout of options is changed, they come to the same. -/
theorem parse_eq_of_eqvGen {text changed : List Char}
    (relaid : Relation.EqvGen Relaid (Text.splitOn ',' text) (Text.splitOn ',' changed)) :
    parse text = parse changed :=
  (eq_equivalence.comap ofTokens).eqvGen_iff.mp
    (relaid.mono fun _ _ step => step.ofTokens_eq)

/-- Whether there is a list of domains among options, were it an empty one. -/
def HasDomains (text : List Char) : Prop :=
  ∃ token ∈ Text.splitOn ',' text, "domain=".toList <+: Text.trim token

instance (text : List Char) : Decidable (HasDomains text) :=
  List.decidableBEx (fun token => "domain=".toList <+: Text.trim token) _

/-- What two texts of options come to together. -/
def combined (first second : List Char) : LineOptions where
  domains := if HasDomains second then (parse second).domains else (parse first).domains
  party := {
    first := (parse first).party.first || (parse second).party.first
    third := (parse first).party.third || (parse second).party.third }
  resourceTypes := (parse first).resourceTypes ++ (parse second).resourceTypes

theorem isSome_domains_iff {text : List Char} :
    (parse text).domains.isSome = true ↔ HasDomains text := by
  show (ofTokens (Text.splitOn ',' text)).domains.isSome = true ↔ _
  simp only [isSome_domains_ofTokens_iff, LineOption.kind_eq_domains_iff, HasDomains]

theorem loadType_eq_iff {text : List Char} :
    (parse text).party.loadType = some .thirdParty ↔
      ∃ token ∈ Text.splitOn ',' text,
        String.ofList (Text.trim token) ∈ ["third-party", "3p"] := by
  have isThird : (parse text).party.loadType = some .thirdParty ↔
      (parse text).party.third = true := by
    unfold Party.loadType
    split <;> simp [*]
  rw [isThird]
  show (ofTokens (Text.splitOn ',' text)).party.third = true ↔ _
  simp only [third_ofTokens_iff, LineOption.kind_eq_thirdParty_iff]

theorem parse_eq_combined (first second : List Char) :
    parse (first ++ ',' :: second) = combined first second := by
  have domains : (parse second).domains.or (parse first).domains =
      if HasDomains second then (parse second).domains else (parse first).domains := by
    split
    · rename_i hasDomains
      exact Option.or_of_isSome (isSome_domains_iff.mpr hasDomains)
    · rename_i noDomains
      rw [Option.not_isSome_iff_eq_none.mp (mt isSome_domains_iff.mp noDomains), Option.none_or]
  rw [parse_append_cons, append, domains]
  rfl

end LineOptions

/-! ### Lines -/

namespace Rule

variable {pattern : String} {options : List Char}

/-- Whether options can stand behind a pattern as it is. -/
structure TakesOptions (pattern : List Char) : Prop where
  nonempty : pattern ≠ []
  noDollar : '$' ∉ pattern
  noBackslash : pattern.getLast? ≠ some '\\'
  unmarked : IsUnmarked pattern

/-- A line of a pattern and options. -/
def optionLine (pattern : String) (options : List Char) : String :=
  pattern ++ "$" ++ .ofList options

theorem escapeDollars_of_not_mem {pattern : List Char} (noDollar : '$' ∉ pattern) :
    escapeDollars pattern = pattern := by
  induction pattern with
  | nil => rfl
  | cons character rest inductionHypothesis =>
    obtain ⟨other, absent⟩ := List.ne_and_not_mem_of_not_mem_cons noDollar
    rw [escapeDollars_cons (Ne.symm other), inductionHypothesis absent]

theorem TakesOptions.ofLine?_optionLine (takes : TakesOptions pattern.toList)
    (noHiding : ¬ hidingMarker <:+: options) :
    ofLine? (optionLine pattern options) =
      some {
        action := .block
        trigger := (LineOptions.parse options).trigger (Pattern.translate pattern) } := by
  have characters : (optionLine pattern options).toList = pattern.toList ++ '$' :: options := by
    simp [optionLine]
  have parts : splitOptions (pattern.toList ++ '$' :: options) =
      (escapeDollars pattern.toList, some options) := by
    have split := splitOptions_escapeDollars_append takes.noBackslash options
    rwa [escapeDollars_of_not_mem takes.noDollar] at split ⊢
  have nonempty : pattern ≠ "" := fun empty => takes.nonempty (by rw [empty]; rfl)
  rw [ofLine?, characters, (takes.unmarked.append_options noHiding).ofChars?_eq]
  exact network?_escapeDollars .block nonempty parts

/-- Two texts of options, or two lists of domains, come together as their tokens do, and a line with
both texts behind its pattern is about what they come to. Blanks around tokens, tokens that stand
for no option and the order of tokens of different kinds make no difference to the line. -/
theorem options_combine (first second : List Char) :
    (∀ token, ',' ∉ token →
        LineOptions.Gives token (LineOption.kind token) (LineOptions.parse token)) ∧
      LineOptions.parse (first ++ ',' :: second) = .combined first second ∧
      (∀ pattern : String, TakesOptions pattern.toList → ¬ hidingMarker <:+: first →
        ¬ hidingMarker <:+: second →
        let line := optionLine pattern (first ++ ',' :: second)
        let options := LineOptions.combined first second
        ofLine? line = some
            { action := .block
              trigger :=
                { urlFilter := Pattern.translate pattern
                  ifDomain := (options.domains.getD {}).included
                  unlessDomain := (options.domains.getD {}).excluded
                  loadType := options.party.loadType
                  resourceTypes := options.resourceTypes
                  firstParty := options.party.first } } ∧
          (options.party.loadType = some .thirdParty ↔
            ∃ token ∈ Text.splitOn ',' (first ++ ',' :: second),
              String.ofList (Text.trim token) ∈ ["third-party", "3p"]) ∧
          ∀ changed : List Char, ¬ hidingMarker <:+: changed →
            Relation.EqvGen LineOptions.Relaid (Text.splitOn ',' (first ++ ',' :: second))
              (Text.splitOn ',' changed) →
            ofLine? (optionLine pattern changed) = ofLine? line) ∧
      ∀ separator : Char,
        DomainList.parse separator (first ++ separator :: second) =
            (DomainList.parse separator first).append (DomainList.parse separator second) ∧
          ((DomainList.parse separator first).included.Disjoint
              (DomainList.parse separator first).excluded ↔
            ∀ domain, domain ≠ [] → domain.head? ≠ some '~' →
              DomainList.IsWritten separator first domain →
                ¬ DomainList.IsWritten separator first ('~' :: domain)) := by
  refine ⟨fun _ => LineOptions.gives_parse, LineOptions.parse_eq_combined first second, ?_,
    fun separator =>
      ⟨DomainList.parse_append_cons separator first second, DomainList.disjoint_parse_iff⟩⟩
  intro pattern takes noHiding noHidingSecond line options
  have noHidingBoth : ¬ hidingMarker <:+: first ++ ',' :: second := by
    rw [Text.infix_append_cons_iff (by decide) (by decide)]
    exact not_or_intro noHiding noHidingSecond
  have read : ofLine? line =
      some { action := .block, trigger := options.trigger (Pattern.translate pattern) } := by
    rw [takes.ofLine?_optionLine noHidingBoth, LineOptions.parse_eq_combined]
  refine ⟨?_, ?_, ?_⟩
  · rw [read, LineOptions.trigger_eq]
  · show (LineOptions.combined first second).party.loadType = some .thirdParty ↔ _
    rw [← LineOptions.parse_eq_combined, LineOptions.loadType_eq_iff]
  · intro changed noHidingChanged relaid
    rw [takes.ofLine?_optionLine noHidingBoth, takes.ofLine?_optionLine noHidingChanged,
      LineOptions.parse_eq_of_eqvGen relaid]

/-- An empty list of domains takes the place of another, and a mark for the page's own site takes
nothing away. A mark and a resource type can change places, and an unknown token can be put in. -/
theorem options_combine_replaced :
    TakesOptions "/ads.".toList ∧ ¬ hidingMarker <:+: "3p,css,domain=a.com".toList ∧
      ¬ hidingMarker <:+: "domain=, 1p".toList ∧
      ofLine? "/ads.$3p,css,domain=a.com,domain=, 1p" = some
        { action := .block
          trigger :=
            { urlFilter := "/ads\\."
              loadType := some .thirdParty
              resourceTypes := [.styleSheet]
              firstParty := true } } ∧
      ofLine? "/ads.$css,3p,domain=a.com,popup,domain=, 1p" =
        ofLine? "/ads.$3p,css,domain=a.com,domain=, 1p" := by
  have takes : TakesOptions "/ads.".toList :=
    ⟨by decide, by decide, by decide, by decide +kernel, by decide +kernel⟩
  have noHiding : ¬ hidingMarker <:+: "3p,css,domain=a.com".toList := by decide +kernel
  have noHidingSecond : ¬ hidingMarker <:+: "domain=, 1p".toList := by decide +kernel
  have line : optionLine "/ads." ("3p,css,domain=a.com".toList ++ ',' :: "domain=, 1p".toList) =
      "/ads.$3p,css,domain=a.com,domain=, 1p" := by
    decide +kernel
  have tokens : Text.splitOn ',' ("3p,css,domain=a.com".toList ++ ',' :: "domain=, 1p".toList) =
      ["3p".toList, "css".toList, "domain=a.com".toList, "domain=".toList, " 1p".toList] := by
    decide +kernel
  have changedTokens : Text.splitOn ',' "css,3p,domain=a.com,popup,domain=, 1p".toList =
      ["css".toList, "3p".toList, "domain=a.com".toList, "popup".toList, "domain=".toList,
        " 1p".toList] := by
    decide +kernel
  have swapped := @LineOptions.Relaid.swap []
    ["domain=a.com".toList, "domain=".toList, " 1p".toList] "3p".toList "css".toList
    (by decide +kernel)
  have added := @LineOptions.Relaid.unknown ["css".toList, "3p".toList, "domain=a.com".toList]
    ["domain=".toList, " 1p".toList] "popup".toList (by decide +kernel)
  obtain ⟨read, -, unchanged⟩ :=
    (options_combine "3p,css,domain=a.com".toList "domain=, 1p".toList).2.2.1 "/ads." takes
      noHiding noHidingSecond
  rw [line] at read unchanged
  refine ⟨takes, noHiding, noHidingSecond, ?_, ?_⟩
  · rw [read]
    decide +kernel
  · refine unchanged "css,3p,domain=a.com,popup,domain=, 1p".toList (by decide +kernel) ?_
    rw [tokens, changedTokens]
    exact .trans _ _ _ (.rel _ _ swapped) (.rel _ _ added)

end Rule

end FilterLists
