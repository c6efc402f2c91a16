import Mathlib.Init

/-!
# The safety guard

`internal/domain/safety.go`: a message that holds one of the keywords as a word is
escalated before the LLM sees it.
-/

namespace NovoApex.Domain
set_option autoImplicit false

/-- `EscalationKeywords`. -/
def escalationKeywords : List String := ["refund", "police", "scam", "angry", "not helpful", "dispute"]

/-- The word characters of `\b`, which are those of ASCII. -/
def wordChar (c : Char) : Bool := c.isAlphanum || c == '_'

/-- A lower-case letter of a keyword matches under `(?i)`: simple case folding adds the long s and the Kelvin sign. -/
def foldsTo (k c : Char) : Bool := c.toLower == k || (k == 's' && c == 'ſ') || (k == 'k' && c == 'K')

/-- `\b` between two positions. -/
def wordBoundary (before after : Option Char) : Bool := before.any wordChar != after.any wordChar

/-- The keyword stands at the front: its last character as the text has it, and the rest of the text. -/
def keywordAt (before : Option Char) : List Char → List Char → Option (Option Char × List Char)
  | [], text => some (before, text)
  | _ :: _, [] => none
  | k :: keyword, c :: text => if foldsTo k c then keywordAt (some c) keyword text else none

/-- `(?i)\bkeyword\b` matches somewhere in the text. -/
def containsKeyword (keyword : List Char) (before : Option Char) (text : List Char) : Bool :=
  let here := wordBoundary before text.head? &&
    (keywordAt before keyword text).any fun found => wordBoundary found.1 found.2.head?
  match text with
  | [] => here
  | c :: rest => here || containsKeyword keyword (some c) rest

/-- `RequiresEscalation`. -/
def requiresEscalation (textContent : String) : Bool :=
  escalationKeywords.any fun keyword => containsKeyword keyword.toList none textContent.toList

end NovoApex.Domain
