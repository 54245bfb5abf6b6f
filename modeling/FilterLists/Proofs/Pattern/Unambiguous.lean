/-
This file shows that a pattern can be told from its translation, so that no two patterns give the
same URL filter. What a pattern is made into depends on where its bars are and on whether wildcards
count, and the texts of some pieces start alike: a dot is any character or, before a star, any run
of them, and an anchor may be the start of a host name.

Two facts rule out that this leads to a doubt. A piece knows which characters of the pattern it was
made from, whichever way of reading the pattern made it; so the pattern is read off its pieces. And
no piece starts with a star, nor as the start of a host name goes on behind its anchor; so the first
piece is read off the text, and then the others.

The pieces settle as well when a pattern behind `||` means what it means on its own: just if it has
no bar at its start, which would be an anchor there and is a character here.
-/

import FilterLists.Proofs.Pattern.Translation

namespace FilterLists.Pattern

open Regex (Readable)

/-! ### What pieces are made from -/

/-- The characters of a pattern that a piece was made from. -/
def Piece.source : Piece → List Char
  | literal character | escaped character => [character]
  | anyChar => ['?']
  | anyRun => ['*']
  | separator => ['^']
  | hostStart => ['|', '|']
  | start | stop => ['|']

theorem source_literalPiece (character : Char) : (literalPiece character).source = [character] := by
  unfold literalPiece
  split <;> rfl

theorem source_bodyPiece (character : Char) : (bodyPiece character).source = [character] := by
  obtain rfl | rfl | rfl | ordinary := bodyChar_cases character
  · rfl
  · rfl
  · rfl
  · rw [bodyPiece_eq_literalPiece ordinary, source_literalPiece]

theorem flatMap_source_map {translation : Char → Piece}
    (each : ∀ character, (translation character).source = [character]) (text : List Char) :
    (text.map translation).flatMap Piece.source = text := by
  simp only [List.flatMap_map, each, List.flatMap_singleton']

theorem flatMap_source_closedPieces (body : List Char) :
    (closedPieces body).flatMap Piece.source = body := by
  unfold closedPieces
  split
  · rename_i inner found
    rw [List.flatMap_append, bodyPieces, flatMap_source_map source_bodyPiece]
    exact (Text.eq_append_of_dropLast? found).symm
  · exact flatMap_source_map source_bodyPiece body

/-- The pieces of a pattern were made from the pattern. -/
theorem flatMap_source_pieces (pattern : List Char) :
    (pieces pattern).flatMap Piece.source = pattern := by
  unfold pieces
  split
  · rename_i rest
    rw [hostAnchoredPieces_eq, List.flatMap_cons, flatMap_source_closedPieces]
    rfl
  · split
    · rename_i exact found
      rw [List.flatMap_append, List.flatMap_cons, literalPieces,
        flatMap_source_map source_literalPiece, Text.eq_append_of_dropLast? found]
      rfl
    · rw [List.flatMap_cons, bodyPieces, flatMap_source_map source_bodyPiece]
      rfl
  · exact flatMap_source_closedPieces pattern

/-! ### Reading pieces off a text -/

/-- How the text of the start of a host name goes on behind its anchor. -/
def hostOpening : List Char :=
  ['(', '?', ':', '[', 'a']

/-- The piece that a text starts with. -/
def leading? : List Char → Option Piece
  | [] => none
  | '\\' :: character :: _ => some (.escaped character)
  | '.' :: rest => some (if rest.head? = some '*' then .anyRun else .anyChar)
  | '^' :: rest => some (if hostOpening <+: rest then .hostStart else .start)
  | '(' :: _ => some .separator
  | '$' :: _ => some .stop
  | character :: _ => some (.literal character)

theorem isSpecial_of_literal {character : Char}
    (readable : Readable .branch (Piece.literal character).regex) :
    Regex.isSpecial character = false := by
  cases readable with
  | ofItem readable =>
    cases readable with
    | char plain => exact plain

variable {list first second : List Piece}

theorem head?_print_ne_star (readable : ∀ piece ∈ list, Readable .branch piece.regex) :
    (print list).head? ≠ some '*' := by
  cases list with
  | nil => exact fun isStar => by cases isStar
  | cons piece rest =>
    have first := readable piece List.mem_cons_self
    cases piece with
    | literal character =>
      rintro ⟨⟩
      exact absurd (isSpecial_of_literal first) (by decide)
    | _ => rintro ⟨⟩

theorem not_hostOpening_prefix_print (readable : ∀ piece ∈ list, Readable .branch piece.regex) :
    ¬ hostOpening <+: print list := by
  rintro ⟨rest, starts⟩
  cases list with
  | nil => cases starts
  | cons piece rest =>
    have first := readable piece List.mem_cons_self
    cases piece with
    | literal character =>
      obtain ⟨rfl, -⟩ := List.cons.inj starts
      exact absurd (isSpecial_of_literal first) (by decide)
    | _ => cases starts

theorem leading?_print (readable : ∀ piece ∈ list, Readable .branch piece.regex) :
    leading? (print list) = list.head? := by
  cases list with
  | nil => rfl
  | cons piece rest =>
    obtain ⟨first, others⟩ := List.forall_mem_cons.mp readable
    have printed : print (piece :: rest) = piece.text ++ print rest := List.flatMap_cons
    rw [printed, List.head?_cons]
    cases piece with
    | literal character =>
      have plain := isSpecial_of_literal first
      show leading? (character :: print rest) = _
      unfold leading?
      split <;> simp_all [Regex.isSpecial]
    | anyChar => exact congrArg some (if_neg (head?_print_ne_star others))
    | start => exact congrArg some (if_neg (not_hostOpening_prefix_print others))
    | hostStart => exact congrArg some (if_pos ⟨_, rfl⟩)
    | _ => rfl

/-- Pieces that can be read are known by their text. -/
theorem eq_of_print_eq (readableFirst : ∀ piece ∈ first, Readable .branch piece.regex)
    (readableSecond : ∀ piece ∈ second, Readable .branch piece.regex)
    (same : print first = print second) : first = second := by
  induction first generalizing second with
  | nil =>
    have nothing : second.head? = none := by
      rw [← leading?_print readableSecond, ← same]
      rfl
    exact (List.head?_eq_none_iff.mp nothing).symm
  | cons piece rest inductionHypothesis =>
    have leads : second.head? = some piece := by
      rw [← leading?_print readableSecond, ← same, leading?_print readableFirst]
      rfl
    obtain ⟨others, rfl⟩ := List.head?_eq_some_iff.mp leads
    have sameRest : print rest = print others := List.append_cancel_left same
    rw [inductionHypothesis (List.forall_mem_cons.mp readableFirst).2
      (List.forall_mem_cons.mp readableSecond).2 sameRest]

/-! ### Patterns -/

/-- Two patterns are translated to the same URL filter just if they are the same pattern. -/
theorem translate_inj {first second : String} :
    translate first = translate second ↔ first = second := by
  refine ⟨fun same => ?_, congrArg translate⟩
  have samePieces : pieces first.toList = pieces second.toList :=
    eq_of_print_eq (fun _ => readable_pieces) (fun _ => readable_pieces)
      (String.ofList_injective same)
  have samePattern : first.toList = second.toList := by
    rw [← flatMap_source_pieces first.toList, samePieces, flatMap_source_pieces]
  exact String.toList_injective samePattern

theorem head?_closedPieces_of_bar (rest : List Char) :
    (closedPieces ('|' :: rest)).head? = some .stop ∨
      (closedPieces ('|' :: rest)).head? = some (.escaped '|') := by
  cases rest with
  | nil => exact .inl rfl
  | cons next others =>
    refine .inr ?_
    unfold closedPieces
    split
    · rename_i inner found
      have parts := Text.eq_append_of_dropLast? found
      cases inner with
      | nil => cases parts
      | cons first inner =>
        obtain ⟨rfl, -⟩ := List.cons.inj parts
        rfl
    · rfl

theorem head?_pieces_of_bar (rest : List Char) :
    (pieces ('|' :: rest)).head? = some .start ∨
      (pieces ('|' :: rest)).head? = some .hostStart := by
  unfold pieces
  split
  · exact .inr rfl
  · rename_i parts
    cases parts
    split <;> exact .inl rfl
  · rename_i notBar
    exact absurd rfl (notBar rest)

/-- A pattern is all body just if it starts without an anchor. -/
theorem pieces_eq_closedPieces_iff {pattern : List Char} :
    pieces pattern = closedPieces pattern ↔ pattern.head? ≠ some '|' := by
  constructor
  · intro same isBar
    obtain ⟨rest, rfl⟩ := List.head?_eq_some_iff.mp isBar
    have heads := congrArg List.head? same
    obtain isAnchor | isAnchor := head?_pieces_of_bar rest <;>
      obtain isBody | isBody := head?_closedPieces_of_bar rest <;>
        (rw [isAnchor, isBody] at heads; cases heads)
  · intro noBar
    refine pieces.eq_3 pattern ?_ ?_ <;>
      (rintro rest rfl; exact noBar rfl)

/-- Behind `||`, a pattern is translated as it is on its own, unless it starts with a bar, which
is an anchor on its own. -/
theorem translate_hostAnchored_iff (pattern : String) :
    translate ("||" ++ pattern) =
        "^(?:[a-z][a-z0-9+.-]*://)?(?:[a-z0-9_-]+\\.)*" ++ translate pattern ↔
      pattern.toList.head? ≠ some '|' := by
  have anchored : translate ("||" ++ pattern) =
      .ofList (Piece.hostStart.text ++ print (closedPieces pattern.toList)) := by
    rw [translate, String.toList_append]
    exact congrArg (fun list => String.ofList (print list)) (hostAnchoredPieces_eq pattern.toList)
  have opening : "^(?:[a-z][a-z0-9+.-]*://)?(?:[a-z0-9_-]+\\.)*" =
      .ofList Piece.hostStart.text := by
    decide
  rw [anchored, opening, translate, ← String.ofList_append, ← pieces_eq_closedPieces_iff]
  constructor
  · intro same
    have sameText := List.append_cancel_left (String.ofList_injective same)
    exact eq_of_print_eq (fun _ => readable_pieces) (fun _ => readable_closedPieces) sameText.symm
  · intro same
    rw [same]

end FilterLists.Pattern
