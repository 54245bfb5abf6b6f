/-
This file says how a text can lay out tokens: each token as it is written, one after the other,
with any blanks between them. Laying out loses nothing, for no token is the start of another, and
a token that starts with a blank does not exist.

Numerals are left out. They are the only tokens that do not show where they end, and no record
holds one.
-/

import FilterLists.Json.Printer
import FilterLists.Json.Reader
import FilterLists.Proofs.Json.Literals

namespace FilterLists.Json

namespace Token

/-- Whether a token can be written without regard to what follows it: it is no numeral, and no
string that says nothing. -/
def isPlain : Token → Bool
  | number _ => false
  | string none => false
  | _ => true

/-- How a token is written. -/
def text : Token → List Char
  | openList => ['[']
  | closeList => [']']
  | openObject => ['\x7b']
  | closeObject => ['\x7d']
  | colon => [':']
  | comma => [',']
  | null => "null".toList
  | boolean true => "true".toList
  | boolean false => "false".toList
  | number numeral => numeral.toList
  | string content => printContent content

theorem text_string (content : String) :
    (string (some content)).text = '"' :: (content.toList.flatMap quoteChar ++ ['"']) :=
  rfl

/-- A token that is written is read, whatever follows. -/
theorem next?_text {token : Token} (plain : token.isPlain = true) (rest : List Char) :
    next? (token.text ++ rest) = some (token, rest) := by
  match token, plain with
  | openList, _ | closeList, _ | openObject, _ | closeObject, _ | colon, _ | comma, _ => rfl
  | null, _ | boolean true, _ | boolean false, _ => rfl
  | string (some content), _ =>
    rw [text_string, List.cons_append, List.append_assoc, List.singleton_append, next?,
      unquote?_flatMap_quoteChar]
    rfl

/-- A token that is written does not start with a blank. -/
theorem text_eq_cons {token : Token} (plain : token.isPlain = true) :
    ∃ first others, token.text = first :: others ∧ isSpace first = false := by
  match token, plain with
  | openList, _ | closeList, _ | openObject, _ | closeObject, _ | colon, _ | comma, _ =>
    exact ⟨_, _, rfl, rfl⟩
  | null, _ | boolean true, _ | boolean false, _ => exact ⟨_, _, rfl, rfl⟩
  | string (some content), _ => exact ⟨_, _, text_string content, rfl⟩

end Token

/-! ### Layouts -/

/-- A text in which tokens stand one after the other, with any blanks between them. -/
inductive Layout : List Token → List Char → Prop
  | nil : Layout [] []
  | space {blank : Char} {tokens : List Token} {text : List Char} :
    isSpace blank = true → Layout tokens text → Layout tokens (blank :: text)
  | token {token : Token} {tokens : List Token} {text : List Char} :
    token.isPlain = true → Layout tokens text → Layout (token :: tokens) (token.text ++ text)

namespace Layout

variable {tokens : List Token} {text : List Char}

theorem openList (layout : Layout tokens text) : Layout (.openList :: tokens) ('[' :: text) :=
  .token rfl layout

theorem closeList (layout : Layout tokens text) : Layout (.closeList :: tokens) (']' :: text) :=
  .token rfl layout

theorem openObject (layout : Layout tokens text) :
    Layout (.openObject :: tokens) ('\x7b' :: text) :=
  .token rfl layout

theorem closeObject (layout : Layout tokens text) :
    Layout (.closeObject :: tokens) ('\x7d' :: text) :=
  .token rfl layout

theorem colon (layout : Layout tokens text) : Layout (.colon :: tokens) (':' :: text) :=
  .token rfl layout

theorem comma (layout : Layout tokens text) : Layout (.comma :: tokens) (',' :: text) :=
  .token rfl layout

theorem spaces {blanks : List Char}
    (allSpaces : ∀ blank ∈ blanks, isSpace blank = true) (layout : Layout tokens text) :
    Layout tokens (blanks ++ text) := by
  induction blanks with
  | nil => exact layout
  | cons blank rest inductionHypothesis =>
    obtain ⟨isBlank, restSpaces⟩ := List.forall_mem_cons.mp allSpaces
    exact .space isBlank (inductionHypothesis restSpaces)

end Layout

theorem tokensFrom_space {blank : Char} (isBlank : isSpace blank = true) (done : List Token)
    (rest : List Char) : tokensFrom done (blank :: rest) = tokensFrom done rest := by
  rw [tokensFrom, if_pos isBlank]

theorem tokensFrom_of_next? {first : Char} {others rest : List Char} {token : Token}
    (notSpace : isSpace first = false)
    (read : Token.next? (first :: others) = some (token, rest)) (done : List Token) :
    tokensFrom done (first :: others) = tokensFrom (token :: done) rest := by
  rw [tokensFrom, notSpace, if_neg Bool.false_ne_true]
  split
  · rename_i unread
    rw [read] at unread
    contradiction
  · rename_i found
    rw [read] at found
    obtain ⟨rfl, rfl⟩ := Prod.mk.inj (Option.some.inj found)
    rfl

theorem tokensFrom_text {token : Token} (plain : token.isPlain = true) (done : List Token)
    (rest : List Char) :
    tokensFrom done (token.text ++ rest) = tokensFrom (token :: done) rest := by
  have read := Token.next?_text plain rest
  obtain ⟨first, others, text_eq, notSpace⟩ := Token.text_eq_cons plain
  rw [text_eq, List.cons_append] at read ⊢
  exact tokensFrom_of_next? notSpace read done

theorem tokensFrom_layout {tokens : List Token} {text : List Char} (layout : Layout tokens text)
    (done : List Token) : tokensFrom done text = some (done.reverse ++ tokens) := by
  induction layout generalizing done with
  | nil => simp [tokensFrom]
  | space isBlank _ inductionHypothesis => rw [tokensFrom_space isBlank, inductionHypothesis]
  | token plain _ inductionHypothesis =>
    rw [tokensFrom_text plain, inductionHypothesis, List.reverse_cons, List.append_assoc,
      List.singleton_append]

/-- Tokens that are laid out are the tokens of the text. -/
theorem tokens_of_layout {list : List Token} {text : List Char} (layout : Layout list text) :
    tokens text = some list :=
  tokensFrom_layout layout []

end FilterLists.Json
