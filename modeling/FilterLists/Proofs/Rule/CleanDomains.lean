/-
This file says which texts a line can give a rule as domains. A page is on a domain only if its host
is named so, and the name of a host is not empty, has no blank at its ends and none of the
characters that keep the domains of a line apart. All domains that a rule is limited to are clean in
this sense.

Of the domains that a rule is kept from, that is true only but for blanks at the start. The blanks
around a token are taken off before its `~` is, so blanks behind the `~` stay. They are all that
can be wrong, and in a line with no blank behind a `~` nothing is.

The domains of a line stand in one list, between separators of one kind. That the other kind does
not stand in it either is seen from where the list was cut out.
-/

import FilterLists.Proofs.Rule.Calls
import FilterLists.Proofs.Rule.Options

namespace FilterLists

/-! ### Clean domains -/

/-- Whether a text is a domain with nothing around it: something stands there, with no blank at its
ends and none of the separators in it. -/
structure IsClean (separators text : List Char) : Prop where
  nonempty : text ≠ []
  trimmed : Text.IsTrimmed text
  unseparated : ∀ separator ∈ separators, separator ∉ text

instance (separators text : List Char) : Decidable (IsClean separators text) :=
  haveI : Decidable (∀ separator ∈ separators, separator ∉ text) :=
    List.decidableBAll (fun separator => separator ∉ text) separators
  decidable_of_iff
    (text ≠ [] ∧ Text.IsTrimmed text ∧ ∀ separator ∈ separators, separator ∉ text)
    ⟨fun ⟨nonempty, trimmed, unseparated⟩ => ⟨nonempty, trimmed, unseparated⟩,
      fun ⟨nonempty, trimmed, unseparated⟩ => ⟨nonempty, trimmed, unseparated⟩⟩

/-- The characters that are not part of a domain in a line for an action: those that keep domains
apart, and those that keep a list of domains apart from other options. -/
def Action.separators : Action → List Char
  | hide _ => [',']
  | _ => [',', '|']

/-! ### Domains of a list -/

namespace DomainList

variable {separators text token line : List Char} {separator : Char} {domain : String}

/-- Whether a list has no other separators in it than its own. -/
def IsPlain (separators : List Char) (separator : Char) (text : List Char) : Prop :=
  ∀ other ∈ separators, other ≠ separator → other ∉ text

theorem IsWritten.isTrimmed (isWritten : IsWritten separator text token) :
    Text.IsTrimmed token := by
  obtain ⟨piece, -, rfl⟩ := isWritten
  exact Text.isTrimmed_trim piece

theorem IsWritten.isInfix (isWritten : IsWritten separator text token) : token <:+: text := by
  obtain ⟨piece, member, rfl⟩ := isWritten
  exact (Text.trim_isInfix piece).trans (Text.isInfix_of_mem_splitOn member)

theorem IsWritten.unseparated (isWritten : IsWritten separator text token)
    (plain : IsPlain separators separator text) : ∀ other ∈ separators, other ∉ token := by
  intro other isSeparator inToken
  by_cases same : other = separator
  · subst same
    obtain ⟨piece, member, rfl⟩ := isWritten
    exact Text.not_mem_of_mem_splitOn member (Text.mem_of_mem_trim inToken)
  · exact plain other isSeparator same (isWritten.isInfix.subset inToken)

theorem isClean_of_mem_included (plain : IsPlain separators separator text)
    (member : domain ∈ (parse separator text).included) :
    IsClean separators domain.toList := by
  obtain ⟨⟨nonempty, -⟩, isWritten⟩ := mem_included_iff.mp member
  exact ⟨nonempty, isWritten.isTrimmed, isWritten.unseparated plain⟩

/-- Whether a text is clean but for blanks at the start, and stands in a line behind a `~`. -/
def IsMarkedIn (line separators text : List Char) : Prop :=
  ∃ blanks domain, text = blanks ++ domain ∧ Text.AllBlank blanks ∧ IsClean separators domain ∧
    '~' :: text <:+: line

theorem isMarkedIn_of_mem_excluded (plain : IsPlain separators separator text)
    (member : domain ∈ (parse separator text).excluded) :
    IsMarkedIn text separators domain.toList := by
  obtain ⟨nonempty, isWritten⟩ := mem_excluded_iff.mp member
  obtain ⟨blanks, after, parts, blanksBlank, afterBlank⟩ :=
    Text.exists_eq_append_trim domain.toList
  have trimmed := isWritten.isTrimmed
  rw [parts, ← List.cons_append] at trimmed
  -- The token ends where the domain does, so it is trimmed at the end.
  obtain rfl := trimmed.eq_nil_of_append afterBlank
  rw [List.append_nil] at parts
  refine ⟨blanks, _, parts, blanksBlank, ⟨?_, Text.isTrimmed_trim _, ?_⟩, isWritten.isInfix⟩
  · intro nothing
    rw [nothing, List.append_nil] at parts
    have token : Text.IsTrimmed (['~'] ++ blanks) := parts ▸ isWritten.isTrimmed
    exact nonempty (parts.trans (token.eq_nil_of_append blanksBlank))
  · intro other isSeparator inTrimmed
    refine isWritten.unseparated plain other isSeparator (List.mem_cons_of_mem _ ?_)
    exact Text.mem_of_mem_trim inTrimmed

/-- If no blank stands behind a `~` in the line, the text is clean as it is. -/
theorem IsMarkedIn.isClean (marked : IsMarkedIn line separators text)
    (noBlank : ∀ blank, Text.isBlank blank = true → ¬ ['~', blank] <:+: line) :
    IsClean separators text := by
  obtain ⟨blanks, domain, rfl, allBlank, isClean, inLine⟩ := marked
  cases blanks with
  | nil => exact isClean
  | cons blank rest =>
    have starts : ['~', blank] <+: '~' :: (blank :: rest ++ domain) := ⟨rest ++ domain, rfl⟩
    exact absurd (starts.isInfix.trans inLine) (noBlank blank (allBlank blank List.mem_cons_self))

theorem IsMarkedIn.of_isInfix (marked : IsMarkedIn token separators text)
    (isInfix : token <:+: line) : IsMarkedIn line separators text := by
  obtain ⟨blanks, domain, parts, allBlank, isClean, inText⟩ := marked
  exact ⟨blanks, domain, parts, allBlank, isClean, inText.trans isInfix⟩

/-- Whether domains are those of a list that stands in a line. -/
inductive StandsIn (separators line : List Char) : DomainList → Prop
  | parse {separator : Char} {text : List Char} : text <:+: line →
    IsPlain separators separator text → StandsIn separators line (parse separator text)

theorem StandsIn.of_isInfix {domains : DomainList} (standsIn : StandsIn separators text domains)
    (isInfix : text <:+: line) : StandsIn separators line domains := by
  cases standsIn with
  | parse inText plain => exact .parse (inText.trans isInfix) plain

end DomainList

/-! ### Domains among options -/

namespace LineOptions

variable {tokens : List (List Char)} {token : List Char} {options : LineOptions}
  {domains : DomainList}

theorem Gives.domains_eq {kind : LineOption.Kind} (gives : Gives token kind options)
    (found : options.domains = some domains) :
    ∃ value, Text.trim token = "domain=".toList ++ value ∧ domains = .parse '|' value := by
  cases gives with
  | @domains value parts =>
    cases found
    exact ⟨value, parts, rfl⟩
  | thirdParty => cases found
  | firstParty => cases found
  | resource => cases found
  | unknown => cases found

theorem exists_token_of_domains (found : (ofTokens tokens).domains = some domains) :
    ∃ token ∈ tokens, ∃ value, Text.trim token = "domain=".toList ++ value ∧
      domains = .parse '|' value := by
  induction tokens with
  | nil => cases found
  | cons token rest inductionHypothesis =>
    rw [ofTokens_cons] at found
    obtain later | ⟨-, first⟩ := Option.or_eq_some_iff.mp found
    · obtain ⟨other, member, value⟩ := inductionHypothesis later
      exact ⟨other, List.mem_cons_of_mem token member, value⟩
    · exact ⟨token, List.mem_cons_self, (gives_ofTokens token).domains_eq first⟩

theorem standsIn_parse (text : List Char) :
    DomainList.StandsIn [',', '|'] text ((parse text).domains.getD {}) := by
  cases found : (parse text).domains with
  | none =>
    have nothing : DomainList.parse '|' [] = {} := rfl
    exact nothing ▸ .parse List.nil_infix fun _ _ _ => List.not_mem_nil
  | some domains =>
    have amongTokens : (ofTokens (Text.splitOn ',' text)).domains = some domains := found
    obtain ⟨token, member, value, parts, rfl⟩ := exists_token_of_domains amongTokens
    have inToken : value <:+: Text.trim token := parts ▸ (List.suffix_append _ value).isInfix
    refine .parse ?_ fun other isSeparator different => ?_
    · exact inToken.trans ((Text.trim_isInfix token).trans (Text.isInfix_of_mem_splitOn member))
    · -- The list is between commas, and bars are its own separators.
      have comma : other = ',' := by simpa [different] using isSeparator
      rw [comma]
      intro inValue
      exact Text.not_mem_of_mem_splitOn member (Text.mem_of_mem_trim (inToken.subset inValue))

end LineOptions

/-! ### Domains of a rule -/

namespace Rule

variable {line options : List Char} {rule : Rule} {action : Action}

/-- Whether the domains of a rule are those of a list that stands in a line. -/
def TakesDomains (rule : Rule) (line : List Char) : Prop :=
  ∃ domains, DomainList.StandsIn rule.action.separators line domains ∧
    rule.trigger.ifDomain = domains.included ∧ rule.trigger.unlessDomain = domains.excluded

theorem isSuffix_of_splitOptionsAfter {previous : Option Char}
    (found : (splitOptionsAfter previous line).2 = some options) : options <:+ line := by
  induction line generalizing previous with
  | nil => cases found
  | cons character rest inductionHypothesis =>
    unfold splitOptionsAfter at found
    split at found
    · cases found
      exact List.suffix_cons character options
    · exact (inductionHypothesis found).trans (List.suffix_cons character rest)

theorem takesDomains_of_network? (separated : action.separators = [',', '|'])
    (accepted : network? action line = some rule) : rule.TakesDomains line := by
  rw [network?_of_splitOptions action (Prod.mk.eta).symm] at accepted
  split at accepted
  · cases accepted
  · cases accepted
    refine ⟨((splitOptions line).2.elim {} LineOptions.parse).domains.getD {}, ?_, ?_⟩
    · rw [separated]
      cases found : (splitOptions line).2 with
      | none => exact (LineOptions.standsIn_parse []).of_isInfix List.nil_infix
      | some options =>
        exact (LineOptions.standsIn_parse options).of_isInfix
          (isSuffix_of_splitOptionsAfter found).isInfix
    · rw [LineOptions.trigger_eq]
      exact ⟨rfl, rfl⟩

/-- A rule takes its domains from the line, or it calls a scriptlet. -/
theorem takesDomains_or_scriptlet (accepted : ofChars? line = some rule) :
    rule.TakesDomains line ∨
      ∃ name arguments, rule.action = .scriptlet name arguments ∧
        rule.trigger = scriptletTrigger name := by
  obtain ⟨shape, hasShape⟩ := exists_hasShape line
  cases hasShape with
  | call isFirst =>
    rw [ofChars?_of_call isFirst] at accepted
    obtain ⟨_, _, _, _, -, -, -, rfl⟩ := ofCall?_eq_some_iff.mp accepted
    exact .inr ⟨_, _, rfl, rfl⟩
  | @hidden domains selector noCall isFirst =>
    rw [ofChars?_of_hidden noCall isFirst, hiding?_eq] at accepted
    split at accepted
    · cases accepted
    · cases accepted
      have inLine : domains <:+: line := by
        rw [isFirst.parts, List.append_assoc]
        exact (List.prefix_append domains _).isInfix
      have plain : DomainList.IsPlain [','] ',' domains :=
        fun other isSeparator different => absurd (List.mem_singleton.mp isSeparator) different
      exact .inl ⟨_, .parse inLine plain, rfl, rfl⟩
  | @exception rest _ noMarker parts =>
    rw [ofChars?_of_exception noMarker parts] at accepted
    obtain ⟨domains, standsIn, pages⟩ := takesDomains_of_network? rfl accepted
    have inLine : rest <:+: line := parts ▸ (List.suffix_append exceptionMarker rest).isInfix
    exact .inl ⟨domains, standsIn.of_isInfix inLine, pages⟩
  | blocked _ noMarker noException =>
    rw [ofChars?_of_blocked noMarker noException] at accepted
    exact .inl (takesDomains_of_network? rfl accepted)

theorem isClean_of_mem_scriptletTrigger {name domain : String}
    (member : domain ∈ (scriptletTrigger name).ifDomain) :
    IsClean [',', '|'] domain.toList := by
  have areClean : (playerDomains ++ scriptletDomains).all fun domain =>
      decide (IsClean [',', '|'] domain.toList) := by
    decide +kernel
  have isOne : domain ∈ playerDomains ++ scriptletDomains := by
    rw [scriptletTrigger_eq] at member
    split at member
    · exact List.mem_append_left _ member
    · exact List.mem_append_right _ member
  exact of_decide_eq_true (List.all_eq_true.mp areClean domain isOne)

/-- Every domain that a rule is limited to is clean. Every domain that it is kept from is clean but
for blanks at the start, which stand behind the `~` in the line; so it is clean if there are no
such blanks. -/
theorem domains_are_clean {line : String} (accepted : ofLine? line = some rule) :
    (∀ domain ∈ rule.trigger.ifDomain, IsClean rule.action.separators domain.toList) ∧
      (∀ domain ∈ rule.trigger.unlessDomain,
        DomainList.IsMarkedIn line.toList rule.action.separators domain.toList) ∧
      ((∀ blank, Text.isBlank blank = true → ¬ ['~', blank] <:+: line.toList) →
        ∀ domain ∈ rule.trigger.unlessDomain,
          IsClean rule.action.separators domain.toList) := by
  obtain ⟨domains, standsIn, included, excluded⟩ | ⟨name, arguments, calls, trigger⟩ :=
    takesDomains_or_scriptlet accepted
  · rw [included, excluded]
    cases standsIn with
    | @parse separator text inLine plain =>
      have marked : ∀ domain ∈ (DomainList.parse separator text).excluded,
          DomainList.IsMarkedIn line.toList rule.action.separators domain.toList :=
        fun _ member => (DomainList.isMarkedIn_of_mem_excluded plain member).of_isInfix inLine
      exact ⟨fun _ => DomainList.isClean_of_mem_included plain, marked,
        fun noBlank domain member => (marked domain member).isClean noBlank⟩
  · have none : rule.trigger.unlessDomain = [] := by rw [trigger, scriptletTrigger_eq]
    rw [none, calls, trigger]
    exact ⟨fun domain => isClean_of_mem_scriptletTrigger, List.forall_mem_nil _,
      fun _ => List.forall_mem_nil _⟩

/-- One line has a domain with a blank behind its `~`, and the other has no such blank. -/
theorem spaced_domains_are_clean :
    (ofLine? "x$css,domain= a.com |~b.org|~ c.net" = some
        { action := .block
          trigger :=
            { urlFilter := "x"
              ifDomain := ["a.com"]
              unlessDomain := ["b.org", " c.net"]
              resourceTypes := [.styleSheet] } } ∧
      IsClean [',', '|'] "a.com".toList ∧
      DomainList.IsMarkedIn "x$css,domain= a.com |~b.org|~ c.net".toList [',', '|']
        " c.net".toList) ∧
    ofLine? "~b.org##.ad" = some
        { action := .hide ".ad", trigger := { urlFilter := ".*", unlessDomain := ["b.org"] } } ∧
      (∀ blank, Text.isBlank blank = true → ¬ ['~', blank] <:+: "~b.org##.ad".toList) ∧
      IsClean [','] "b.org".toList := by
  have listed : ofLine? "x$css,domain= a.com |~b.org|~ c.net" = some
      { action := .block
        trigger :=
          { urlFilter := "x"
            ifDomain := ["a.com"]
            unlessDomain := ["b.org", " c.net"]
            resourceTypes := [.styleSheet] } } := by
    decide +kernel
  have hidden : ofLine? "~b.org##.ad" = some
      { action := .hide ".ad", trigger := { urlFilter := ".*", unlessDomain := ["b.org"] } } := by
    decide +kernel
  have noBlank : ∀ blank, Text.isBlank blank = true →
      ¬ ['~', blank] <:+: "~b.org##.ad".toList := by
    intro blank isBlank occurs
    have character : blank = 'b' := by
      simpa [List.infix_cons_iff] using occurs
    subst character
    exact absurd isBlank (by decide)
  obtain ⟨limited, keptFrom, -⟩ := domains_are_clean listed
  obtain ⟨-, -, clean⟩ := domains_are_clean hidden
  exact ⟨⟨listed, limited "a.com" (by decide), keptFrom " c.net" (by decide)⟩, hidden, noBlank,
    clean noBlank "b.org" (by decide)⟩

/-- A blank behind a `~` becomes part of the domain. -/
theorem spaced_domain_is_not_clean :
    ¬ ∀ rule, ofLine? "~ example.com##.ad" = some rule →
      ∀ domain ∈ rule.trigger.ifDomain ++ rule.trigger.unlessDomain,
        IsClean rule.action.separators domain.toList := by
  intro areClean
  have read : ofLine? "~ example.com##.ad" = some
      { action := .hide ".ad"
        trigger := { urlFilter := ".*", unlessDomain := [" example.com"] } } := by
    decide +kernel
  have isClean := areClean _ read " example.com" (by decide)
  exact absurd isClean.trimmed (by decide +kernel)

end Rule

end FilterLists
