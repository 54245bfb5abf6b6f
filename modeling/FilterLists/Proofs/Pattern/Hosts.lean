/-
This file proves that a rule for a host finds the addresses of that host and of its subdomains and
no others. The pattern is `||host^`, and the danger lies in the many ways in which its regular
expression can start: it may take the scheme or leave it, and take any number of labels.

Two facts rule out the wrong ways. The host has a dot and a scheme has none, so without the scheme
the host would have to begin inside it and run over the colon. And what the expression takes from
the start of the host name on ends at a separator, which no host name contains, so it is the whole
host name.
-/

import FilterLists.Proofs.Pattern.Translation

namespace FilterLists.Pattern

/-- A host name of the given labels. -/
structure IsHostName (labels : List (List Char)) (host : List Char) : Prop where
  nonempty : labels ≠ []
  each : ∀ label ∈ labels, IsLabel label
  joined : host = Text.join ['.'] labels

/-- A scheme without dots, and without the mark after it. -/
inductive IsDotlessScheme : List Char → Prop
  | intro {first : Char} {rest : List Char} :
    first.isLower = true → (∀ character ∈ rest, isSchemeChar character = true ∧ character ≠ '.') →
      IsDotlessScheme (first :: rest)

/-- Whether a text can follow a host name in an address: it is empty, or starts with one of the
characters that end a host name. -/
def FollowsHostName (rest : List Char) : Prop :=
  ∀ character, rest.head? = some character → character ∈ ['/', ':', '?', '#']

/-- Whether a character may stand in a host name. -/
def isHostChar (character : Char) : Bool :=
  isLabelChar character || character == '.'

/-! ### Characters of host names -/

theorem isSeparator_eq_false {character : Char} (isHost : isHostChar character = true) :
    isSeparator character = false := by
  simp only [isHostChar, isLabelChar, Bool.or_eq_true, List.contains_iff_mem, List.mem_cons,
    List.not_mem_nil, or_false, beq_iff_eq] at isHost
  obtain ((lower | digit) | rfl | rfl) | rfl := isHost
  · simp [isSeparator, Char.isAlphanum, Char.isAlpha, lower]
  · simp [isSeparator, Char.isAlphanum, digit]
  all_goals decide

theorem isPrintable_of_isHostChar {character : Char} (isHost : isHostChar character = true) :
    isPrintable character = true := by
  simp only [isHostChar, isLabelChar, Bool.or_eq_true, List.contains_iff_mem, List.mem_cons,
    List.not_mem_nil, or_false, beq_iff_eq, isLower_iff, isDigit_iff] at isHost
  simp only [isPrintable, Bool.and_eq_true, decide_eq_true_eq]
  obtain ((lower | digit) | rfl | rfl) | rfl := isHost
  · omega
  · omega
  all_goals decide

theorem ordinary_of_isHostChar {character : Char} (isHost : isHostChar character = true) :
    character ∉ ['*', '?', '^'] := by
  intro member
  simp only [List.mem_cons, List.not_mem_nil, or_false] at member
  obtain rfl | rfl | rfl := member
  all_goals exact absurd isHost (by decide)

theorem IsLabel.dot_not_mem {label : List Char} (isLabel : IsLabel label) : '.' ∉ label :=
  fun member => absurd (isLabel.2 '.' member) (by decide)

theorem IsLabel.isHostChar {label : List Char} (isLabel : IsLabel label) :
    ∀ character ∈ label, isHostChar character = true := by
  intro character member
  rw [Pattern.isHostChar, isLabel.2 character member, Bool.true_or]

theorem AreLabels.isHostChar {labels : List Char} (areLabels : AreLabels labels) :
    ∀ character ∈ labels, isHostChar character = true := by
  induction areLabels with
  | nil => exact fun _ member => absurd member List.not_mem_nil
  | cons isLabel _ inductionHypothesis =>
    intro character member
    obtain inLabel | inDotted := List.mem_append.mp member
    · exact isLabel.isHostChar character inLabel
    · obtain rfl | inRest := List.mem_cons.mp inDotted
      · decide
      · exact inductionHypothesis character inRest

theorem isHostChar_join {labels : List (List Char)} (each : ∀ label ∈ labels, IsLabel label) :
    ∀ character ∈ Text.join ['.'] labels, isHostChar character = true := by
  fun_induction Text.join ['.'] labels with
  | case1 => exact fun _ member => absurd member List.not_mem_nil
  | case2 label => exact (each label List.mem_cons_self).isHostChar
  | case3 label next rest inductionHypothesis =>
    intro character member
    obtain inFront | inRest := List.mem_append.mp member
    · obtain inLabel | isDot := List.mem_append.mp inFront
      · exact (each label List.mem_cons_self).isHostChar character inLabel
      · rw [List.mem_singleton.mp isDot]
        decide
    · exact inductionHypothesis (fun label member => each label (List.mem_cons_of_mem _ member))
        character inRest

theorem IsHostName.isHostChar {labels : List (List Char)} {host : List Char}
    (isHostName : IsHostName labels host) :
    ∀ character ∈ host, isHostChar character = true := by
  rw [isHostName.joined]
  exact isHostChar_join isHostName.each

/-- A host name of two labels has a dot. -/
theorem IsHostName.dot_mem {labels : List (List Char)} {host : List Char}
    (isHostName : IsHostName labels host) (two : 2 ≤ labels.length) : '.' ∈ host := by
  rw [isHostName.joined]
  match labels, two with
  | label :: next :: rest, _ => simp [Text.join]

/-! ### Taking host names apart -/

/-- What stands before a dot of a host name is a row of labels. -/
theorem areLabels_of_join_eq {labels : List (List Char)} {front back : List Char}
    (each : ∀ label ∈ labels, IsLabel label)
    (same : Text.join ['.'] labels = front ++ '.' :: back) : AreLabels (front ++ ['.']) := by
  fun_induction Text.join ['.'] labels generalizing front with
  | case1 => simp at same
  | case2 label =>
    have member : '.' ∈ label := by simp [same]
    exact absurd member (each label List.mem_cons_self).dot_not_mem
  | case3 label next rest inductionHypothesis =>
    have isLabel : IsLabel label := each label List.mem_cons_self
    rw [List.append_assoc, List.singleton_append] at same
    obtain ⟨others, rfl, others_eq⟩ | ⟨others, label_eq, back_eq⟩ :=
      List.append_eq_append_iff.mp same
    · cases others with
      | nil => simpa using AreLabels.cons isLabel .nil
      | cons dot inner =>
        obtain ⟨rfl, inner_eq⟩ := List.cons.inj others_eq
        rw [List.append_assoc, List.cons_append]
        exact .cons isLabel (inductionHypothesis
          (fun label member => each label (List.mem_cons_of_mem _ member)) inner_eq)
    · cases others with
      | nil =>
        rw [List.append_nil] at label_eq
        exact label_eq ▸ .cons isLabel .nil
      | cons dot inner =>
        obtain ⟨rfl, _⟩ := List.cons.inj back_eq
        exact absurd (by simp [label_eq]) isLabel.dot_not_mem

/-- A row of labels is empty or ends with a dot. -/
theorem AreLabels.eq_nil_or {labels : List Char} (areLabels : AreLabels labels) :
    labels = [] ∨ ∃ front, labels = front ++ ['.'] := by
  induction areLabels with
  | nil => exact .inl rfl
  | @cons label rest _ _ inductionHypothesis =>
    obtain rfl | ⟨front, rfl⟩ := inductionHypothesis
    · exact .inr ⟨label, rfl⟩
    · exact .inr ⟨label ++ '.' :: front, by simp⟩

/-- Where a text stops having host characters is determined by the text. -/
theorem hostChars_unique {first second firstRest secondRest : List Char}
    (same : first ++ firstRest = second ++ secondRest)
    (firstHost : ∀ character ∈ first, isHostChar character = true)
    (secondHost : ∀ character ∈ second, isHostChar character = true)
    (firstEnds : ∀ character, firstRest.head? = some character → isHostChar character = false)
    (secondEnds : ∀ character, secondRest.head? = some character → isHostChar character = false) :
    first = second := by
  have taken : ∀ {text rest : List Char}, (∀ character ∈ text, isHostChar character = true) →
      (∀ character, rest.head? = some character → isHostChar character = false) →
      (text ++ rest).takeWhile isHostChar = text := by
    intro text rest isHost ends
    rw [List.takeWhile_append_of_pos isHost]
    cases rest with
    | nil => simp
    | cons character others => simp [ends character rfl]
  rw [← taken firstHost firstEnds, same, taken secondHost secondEnds]

/-! ### What the pattern of a host covers -/

/-- A text of ordinary characters covers itself, and then the rest of the body goes on. -/
theorem covers_ordinary_append_iff {text body found after : List Char}
    (ordinary : ∀ character ∈ text, character ∉ ['*', '?', '^']) :
    Covers (text ++ body) found after ↔ ∃ rest, found = text ++ rest ∧ Covers body rest after := by
  induction text generalizing found with
  | nil => simp
  | cons character others inductionHypothesis =>
    obtain ⟨isOrdinary, othersOrdinary⟩ := List.forall_mem_cons.mp ordinary
    constructor
    · intro covers
      cases covers with
      | same _ othersCovered =>
        obtain ⟨rest, rfl, bodyCovers⟩ := (inductionHypothesis othersOrdinary).mp othersCovered
        exact ⟨rest, rfl, bodyCovers⟩
      | run | anyChar | separator | ending => exact absurd (by simp) isOrdinary
    · rintro ⟨rest, rfl, covers⟩
      exact .same isOrdinary ((inductionHypothesis othersOrdinary).mpr ⟨rest, rfl, covers⟩)

theorem covers_separator_iff {found after : List Char} :
    Covers ['^'] found after ↔
      (∃ character, isSeparator character = true ∧ found = [character]) ∨
        found = [] ∧ after = [] := by
  constructor
  · intro covers
    cases covers with
    | separator isSeparator covers =>
      cases covers
      exact .inl ⟨_, isSeparator, rfl⟩
    | ending => exact .inr ⟨rfl, rfl⟩
    | same ordinary => exact absurd (by simp) ordinary
  · rintro (⟨character, isSeparator, rfl⟩ | ⟨rfl, rfl⟩)
    · exact .separator isSeparator .done
    · exact .ending .done

theorem coversClosed_host_iff {host found after : List Char}
    (isHost : ∀ character ∈ host, isHostChar character = true) :
    CoversClosed (host ++ ['^']) found after ↔
      ∃ rest, found = host ++ rest ∧ Covers ['^'] rest after := by
  have noBar : Text.dropLast? '|' (host ++ ['^']) = none := by
    unfold Text.dropLast?
    rw [List.getLast?_concat]
    rfl
  unfold CoversClosed
  rw [noBar]
  exact covers_ordinary_append_iff fun character member =>
    ordinary_of_isHostChar (isHost character member)

/-! ### Taking schemes apart -/

theorem append_cons_inj {mark : Char} {first second firstRest secondRest : List Char}
    (firstFree : mark ∉ first) (secondFree : mark ∉ second)
    (same : first ++ mark :: firstRest = second ++ mark :: secondRest) :
    first = second ∧ firstRest = secondRest := by
  induction first generalizing second with
  | nil =>
    cases second with
    | nil => exact ⟨rfl, List.tail_eq_of_cons_eq same⟩
    | cons head tail =>
      obtain ⟨rfl, _⟩ := List.cons.inj same
      exact absurd List.mem_cons_self secondFree
  | cons head tail inductionHypothesis =>
    cases second with
    | nil =>
      obtain ⟨rfl, _⟩ := List.cons.inj same
      exact absurd List.mem_cons_self firstFree
    | cons otherHead otherTail =>
      obtain ⟨rfl, tails⟩ := List.cons.inj same
      obtain ⟨rfl, rests⟩ := inductionHypothesis (List.not_mem_of_not_mem_cons firstFree)
        (List.not_mem_of_not_mem_cons secondFree) tails
      exact ⟨rfl, rests⟩

theorem colon_not_mem_of_schemeChars {first : Char} {rest : List Char}
    (lower : first.isLower = true) (others : ∀ character ∈ rest, isSchemeChar character = true) :
    ':' ∉ first :: rest := by
  intro member
  obtain rfl | inRest := List.mem_cons.mp member
  · exact absurd lower (by decide)
  · exact absurd (others ':' inRest) (by decide)

theorem IsScheme.eq_append {scheme : List Char} (isScheme : IsScheme scheme) :
    ∃ name, scheme = name ++ [':', '/', '/'] ∧ ':' ∉ name := by
  cases isScheme with
  | @intro first rest lower others =>
    exact ⟨first :: rest, rfl, colon_not_mem_of_schemeChars lower others⟩

theorem IsDotlessScheme.colon_not_mem {scheme : List Char} (isScheme : IsDotlessScheme scheme) :
    ':' ∉ scheme := by
  cases isScheme with
  | intro lower others =>
    exact colon_not_mem_of_schemeChars lower fun character member => (others character member).1

theorem IsDotlessScheme.dot_not_mem {scheme : List Char} (isScheme : IsDotlessScheme scheme) :
    '.' ∉ scheme := by
  cases isScheme with
  | intro lower others =>
    intro member
    obtain rfl | inRest := List.mem_cons.mp member
    · exact absurd lower (by decide)
    · exact (others '.' inRest).2 rfl

theorem IsDotlessScheme.isScheme {scheme : List Char} (isScheme : IsDotlessScheme scheme) :
    IsScheme (scheme ++ [':', '/', '/']) := by
  cases isScheme with
  | intro lower others => exact .intro lower fun character member => (others character member).1

/-- A text of host characters with a dot does not start inside a scheme: it would have to end in
the scheme, which has no dot, or to run over the colon. -/
theorem not_startsInScheme {text back scheme rest : List Char}
    (isHost : ∀ character ∈ text, isHostChar character = true) (dot : '.' ∈ text)
    (isScheme : IsDotlessScheme scheme) : text ++ back ≠ scheme ++ ':' :: rest := by
  intro same
  obtain ⟨others, rfl, _⟩ | ⟨others, rfl, rest_eq⟩ := List.append_eq_append_iff.mp same
  · exact isScheme.dot_not_mem (List.mem_append_left _ dot)
  · cases others with
    | nil =>
      rw [List.append_nil] at dot
      exact isScheme.dot_not_mem dot
    | cons character inner =>
      obtain ⟨rfl, _⟩ := List.cons.inj rest_eq
      exact absurd (isHost ':' (by simp)) (by decide)

/-! ### The addresses that a host rule finds -/

theorem FollowsHostName.isHostChar_eq_false {rest : List Char} (follows : FollowsHostName rest)
    {character : Char} (isFirst : rest.head? = some character) : isHostChar character = false := by
  have ends : ['/', ':', '?', '#'].all (fun other => !isHostChar other) = true := by decide
  simpa using List.all_eq_true.mp ends character (follows character isFirst)

theorem FollowsHostName.covers_separator {rest : List Char} (follows : FollowsHostName rest) :
    ∃ ending after, rest = ending ++ after ∧ Covers ['^'] ending after ∧
      ∀ character ∈ ending, isPrintable character = true := by
  cases rest with
  | nil => exact ⟨[], [], rfl, .ending .done, fun _ member => absurd member List.not_mem_nil⟩
  | cons first others =>
    have marks : ['/', ':', '?', '#'].all (fun mark => isSeparator mark && isPrintable mark) =
        true := by decide
    have isMark := List.all_eq_true.mp marks first (follows first rfl)
    obtain ⟨isSeparator, printable⟩ := Bool.and_eq_true_iff.mp isMark
    exact ⟨[first], others, rfl, .separator isSeparator .done, by simpa using printable⟩

/-- Where a separator stands, or nothing, a host name has ended. -/
theorem isHostChar_eq_false_of_covers {ending after : List Char}
    (covers : Covers ['^'] ending after) {character : Char}
    (isFirst : (ending ++ after).head? = some character) : isHostChar character = false := by
  obtain ⟨separator, isSeparator, rfl⟩ | ⟨rfl, rfl⟩ := covers_separator_iff.mp covers
  · obtain rfl : separator = character := Option.some.inj isFirst
    refine Bool.eq_false_iff.mpr fun isHost => ?_
    rw [isSeparator_eq_false isHost] at isSeparator
    contradiction
  · exact absurd isFirst (by simp)

section Addresses

variable {labels otherLabels : List (List Char)} {host other scheme rest : List Char}

/-- The pattern takes the whole scheme, and then the whole host name. -/
theorem eq_or_endsWith_of_matchesAtHost (isHost : IsHostName labels host)
    (two : 2 ≤ labels.length) (isOther : IsHostName otherLabels other)
    (isScheme : IsDotlessScheme scheme) (follows : FollowsHostName rest)
    (isMatch : MatchesAtHost (host ++ ['^'])
      (scheme ++ [':', '/', '/'] ++ other ++ rest)) :
    other = host ∨ ∃ front, other = front ++ '.' :: host := by
  obtain ⟨taken, leading, found, after, same, takes, areLabels, covers⟩ := isMatch
  obtain ⟨ending, rfl, ends⟩ := (coversClosed_host_iff isHost.isHostChar).mp covers
  have leadingHost : ∀ character ∈ leading ++ host, isHostChar character = true := by
    intro character member
    obtain inLeading | inHost := List.mem_append.mp member
    · exact areLabels.isHostChar character inLeading
    · exact isHost.isHostChar character inHost
  obtain rfl | isTaken := takes
  · have aligned : leading ++ host ++ (ending ++ after) =
        scheme ++ ':' :: '/' :: '/' :: (other ++ rest) := by simpa using same.symm
    exact absurd aligned (not_startsInScheme leadingHost
      (List.mem_append_right _ (isHost.dot_mem two)) isScheme)
  · obtain ⟨name, rfl, noColon⟩ := isTaken.eq_append
    simp only [List.append_assoc, List.cons_append, List.nil_append] at same
    obtain ⟨rfl, rest_eq⟩ := append_cons_inj isScheme.colon_not_mem noColon same
    have aligned : leading ++ host ++ (ending ++ after) = other ++ rest := by
      simpa using rest_eq.symm
    have whole : leading ++ host = other :=
      hostChars_unique aligned leadingHost isOther.isHostChar
        (fun _ => isHostChar_eq_false_of_covers ends) fun _ => follows.isHostChar_eq_false
    obtain rfl | ⟨front, rfl⟩ := areLabels.eq_nil_or
    · exact .inl whole.symm
    · exact .inr ⟨front, by simp [← whole]⟩

/-- The labels of a host name before another host name that it ends with. -/
theorem exists_areLabels_of_endsWith (isOther : IsHostName otherLabels other)
    (ends : other = host ∨ ∃ front, other = front ++ '.' :: host) :
    ∃ leading, AreLabels leading ∧ other = leading ++ host := by
  obtain rfl | ⟨front, same⟩ := ends
  · exact ⟨[], .nil, rfl⟩
  · refine ⟨front ++ ['.'], areLabels_of_join_eq isOther.each (isOther.joined ▸ same), ?_⟩
    rw [same, List.append_assoc, List.singleton_append]

theorem finds_of_endsWith (isHost : IsHostName labels host) (isOther : IsHostName otherLabels other)
    (isScheme : IsDotlessScheme scheme) (follows : FollowsHostName rest)
    (ends : other = host ∨ ∃ front, other = front ++ '.' :: host) :
    (regex (hostAnchoredPieces (host ++ ['^']))).Finds
      (scheme ++ [':', '/', '/'] ++ other ++ rest) := by
  obtain ⟨leading, areLabels, rfl⟩ := exists_areLabels_of_endsWith isOther ends
  obtain ⟨ending, after, rfl, covers, endingPrintable⟩ := follows.covers_separator
  have covered : CoversClosed (host ++ ['^']) (host ++ ending) after :=
    (coversClosed_host_iff isHost.isHostChar).mpr ⟨ending, rfl, covers⟩
  have printable : ∀ character ∈ host ++ ending, isPrintable character = true := by
    intro character member
    obtain inHost | inEnding := List.mem_append.mp member
    · exact isPrintable_of_isHostChar (isHost.isHostChar character inHost)
    · exact endingPrintable character inEnding
  have found := finds_hostAnchoredPieces (.inr isScheme.isScheme) areLabels covered printable
  simpa using found

end Addresses

/-- The rule for a host finds an address if the host name of the address is that host or one of
its subdomains, and only then. -/
theorem hostRule_finds_iff {labels otherLabels : List (List Char)}
    {host other scheme rest : String} (isHost : IsHostName labels host.toList)
    (two : 2 ≤ labels.length) (isOther : IsHostName otherLabels other.toList)
    (isScheme : IsDotlessScheme scheme.toList) (follows : FollowsHostName rest.toList) :
    ∃ expression, Regex.read? (translate ("||" ++ host ++ "^")) = some expression ∧
      (expression.Finds (scheme ++ "://" ++ other ++ rest).toList ↔
        other = host ∨ ∃ front, other = front ++ "." ++ host) := by
  obtain ⟨expression, read, sameMeaning⟩ := read?_translate ("||" ++ host ++ "^")
  refine ⟨expression, read, ?_⟩
  have pieces_eq : pieces ("||" ++ host ++ "^").toList =
      hostAnchoredPieces (host.toList ++ ['^']) := by
    simp [pieces]
  have address_eq : (scheme ++ "://" ++ other ++ rest).toList =
      scheme.toList ++ [':', '/', '/'] ++ other.toList ++ rest.toList := by
    simp
  have ends_iff : (other = host ∨ ∃ front, other = front ++ "." ++ host) ↔
      other.toList = host.toList ∨ ∃ front, other.toList = front ++ '.' :: host.toList := by
    refine or_congr String.toList_inj.symm ⟨?_, ?_⟩
    · rintro ⟨front, rfl⟩
      exact ⟨front.toList, by simp⟩
    · rintro ⟨front, same⟩
      exact ⟨.ofList front, String.toList_inj.mp (by simp [same])⟩
  rw [Regex.Finds, sameMeaning, pieces_eq, address_eq, ends_iff]
  constructor
  · intro finds
    exact eq_or_endsWith_of_matchesAtHost isHost two isOther isScheme follows
      (matchesAtHost_of_finds finds)
  · exact finds_of_endsWith isHost isOther isScheme follows

/-- A rule for a host does not find an address whose host name only begins like the host, and the
host itself stands in what follows. -/
theorem not_finds_lookalike :
    IsHostName ["b".toList, "io".toList] "b.io".toList ∧ 2 ≤ ["b".toList, "io".toList].length ∧
      IsHostName ["b".toList, "io".toList, "x".toList] "b.io.x".toList ∧
      IsDotlessScheme "h+2".toList ∧ FollowsHostName "/?.b.io/".toList ∧
      ∃ expression, Regex.read? (translate ("||" ++ "b.io" ++ "^")) = some expression ∧
        ¬expression.Finds ("h+2" ++ "://" ++ "b.io.x" ++ "/?.b.io/").toList := by
  have isHost : IsHostName ["b".toList, "io".toList] "b.io".toList :=
    ⟨by decide, by decide, by decide⟩
  have isOther : IsHostName ["b".toList, "io".toList, "x".toList] "b.io.x".toList :=
    ⟨by decide, by decide, by decide⟩
  have schemeRest : ∀ character ∈ ['+', '2'], isSchemeChar character = true ∧ character ≠ '.' :=
    List.forall_mem_cons.mpr ⟨by decide, List.forall_mem_singleton.mpr (by decide)⟩
  have isScheme : IsDotlessScheme "h+2".toList := @IsDotlessScheme.intro 'h' _ rfl schemeRest
  have follows : FollowsHostName "/?.b.io/".toList := by
    intro character isFirst
    obtain rfl : '/' = character := Option.some.inj isFirst
    decide
  refine ⟨isHost, by decide, isOther, isScheme, follows, ?_⟩
  obtain ⟨expression, read, finds_iff⟩ :=
    hostRule_finds_iff isHost (by decide) isOther isScheme follows
  refine ⟨expression, read, fun finds => ?_⟩
  obtain same | ⟨front, same⟩ := finds_iff.mp finds
  · exact absurd same (by decide)
  · have lasts := congrArg (fun text : String => text.toList.getLast?) same
    simp at lasts

end FilterLists.Pattern
