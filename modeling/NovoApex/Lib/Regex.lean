import Mathlib.Data.List.Basic

/-!
# Regular expressions with lookaheads

A fragment of the patterns of JavaScript: sets of characters, `.`, the anchors, groups,
`*`, `+` and `{n,}`, and negative lookaheads. `parse` reads the text of a pattern. An
expression leads from a position of the input to others; where it has neither anchors
nor lookaheads, what it reads is a word of its language.
-/

namespace NovoApex.Lib
set_option autoImplicit false

inductive Regex where
  | empty
  /-- A character in one of the ranges. -/
  | set (ranges : List (Char × Char))
  | any
  | start
  | stop
  | seq (a b : Regex)
  | atLeast (n : Nat) (r : Regex)
  | notAhead (r : Regex)
  deriving DecidableEq, Repr

namespace Regex

/-! ## The text of a pattern -/

/-- What has a meaning of its own outside a set. -/
def isSyntax (c : Char) : Bool := "^$\\.*+?()[]|/\x7b\x7d".toList.contains c

/-- The ranges of a set, and what follows it. -/
def ranges : List Char → Option (List (Char × Char) × List Char)
  | ']' :: rest => some ([], rest)
  | '\\' :: c :: rest => if isSyntax c || c == '-' then (ranges rest).map fun more => ((c, c) :: more.1, more.2) else none
  | a :: '-' :: b :: rest =>
    if b = ']' then some ([(a, a), ('-', '-')], rest)
    else if b = '\\' || a == '^' then none
    else (ranges rest).map fun more => ((a, b) :: more.1, more.2)
  | c :: rest => if c = '^' then none else (ranges rest).map fun more => ((c, c) :: more.1, more.2)
  | [] => none

/-- A term under the quantifier that follows it, if one does. -/
def quantified (r : Regex) : List Char → Option (Regex × List Char)
  | '*' :: rest => some (atLeast 0 r, rest)
  | '+' :: rest => some (atLeast 1 r, rest)
  | '\x7b' :: d :: ',' :: '\x7d' :: rest => if d.isDigit then some (atLeast (d.toNat - '0'.toNat) r, rest) else none
  | '\x7b' :: _ => none
  | '?' :: _ => none
  | rest => some (r, rest)

/-- Terms up to the end or to a closing parenthesis. -/
def terms : Nat → List Char → Option (Regex × List Char)
  | 0, _ => none
  | _ + 1, [] => some (empty, [])
  | _ + 1, ')' :: rest => some (empty, ')' :: rest)
  | fuel + 1, text =>
    let atom : Option (Regex × List Char) :=
      match text with
      | '^' :: rest => some (start, rest)
      | '$' :: rest => some (stop, rest)
      | '.' :: rest => quantified any rest
      | '[' :: rest => (ranges rest).bind fun found => quantified (set found.1) found.2
      | '(' :: '?' :: '!' :: rest =>
        (terms fuel rest).bind fun body =>
          match body.2 with
          | ')' :: rest => some (notAhead body.1, rest)
          | _ => none
      | '(' :: rest =>
        (terms fuel rest).bind fun body =>
          match body.2 with
          | ')' :: rest => quantified body.1 rest
          | _ => none
      | '\\' :: c :: rest => if isSyntax c then quantified (set [(c, c)]) rest else none
      | c :: rest => if isSyntax c then none else quantified (set [(c, c)]) rest
      | [] => none
    atom.bind fun first => (terms fuel first.2).map fun more => (seq first.1 more.1, more.2)

/-- The expression between the slashes. -/
def parse (pattern : String) : Option Regex :=
  match pattern.toList with
  | '/' :: rest =>
    match rest.reverse with
    | '/' :: body =>
      (terms (body.length + 1) body.reverse).bind fun parsed => if parsed.2 = [] then some parsed.1 else none
    | _ => none
  | _ => none

/-! ## Matches -/

/-- The character is in one of the ranges. -/
def inRanges (ranges : List (Char × Char)) (c : Char) : Bool := ranges.any fun r => decide (r.1 ≤ c) && decide (c ≤ r.2)

/-- What `.` does not match. -/
def isTerminator (c : Char) : Bool := c == '\n' || c == '\r' || c == '\u2028' || c == '\u2029'

/-- `n` steps of a relation. -/
def Times {A : Type} (R : A → A → Prop) : Nat → A → A → Prop
  | 0, t, u => t = u
  | n + 1, t, u => ∃ m, R t m ∧ Times R n m u

/-- The expression leads from a position of the input `s` to another; a position is what remains of the input there. -/
def Leads (s : List Char) : Regex → List Char → List Char → Prop
  | empty, t, u => t = u
  | set ranges, t, u => ∃ c, t = c :: u ∧ inRanges ranges c = true
  | any, t, u => ∃ c, t = c :: u ∧ isTerminator c = false
  | start, t, u => t = s ∧ t = u
  | stop, t, u => t = [] ∧ t = u
  | seq a b, t, u => ∃ m, Leads s a t m ∧ Leads s b m u
  | atLeast n r, t, u => ∃ k, n ≤ k ∧ Times (Leads s r) k t u
  | notAhead r, t, u => (¬ ∃ m, Leads s r t m) ∧ t = u

/-- There is a match somewhere in the input. -/
def Matches (r : Regex) (s : List Char) : Prop := ∃ t u, t <:+ s ∧ r.Leads s t u

/-! ## Languages -/

/-- Without anchors and lookaheads. -/
def plain : Regex → Bool
  | empty | set _ | any => true
  | seq a b => a.plain && b.plain
  | atLeast _ r => r.plain
  | start | stop | notAhead _ => false

/-- The words of a plain expression. -/
def Lang : Regex → List Char → Prop
  | empty, w => w = []
  | set ranges, w => ∃ c, w = [c] ∧ inRanges ranges c = true
  | any, w => ∃ c, w = [c] ∧ isTerminator c = false
  | seq a b, w => ∃ x y, w = x ++ y ∧ Lang a x ∧ Lang b y
  | atLeast n r, w => ∃ parts : List (List Char), n ≤ parts.length ∧ w = parts.flatten ∧ ∀ p ∈ parts, Lang r p
  | start, _ | stop, _ | notAhead _, _ => False

theorem times_words {R : List Char → List Char → Prop} {L : List Char → Prop} (words : ∀ t u, R t u ↔ ∃ w, t = w ++ u ∧ L w) (n : Nat)
    (t u : List Char) : Times R n t u ↔ ∃ parts : List (List Char), parts.length = n ∧ t = parts.flatten ++ u ∧ ∀ p ∈ parts, L p := by
  induction n generalizing t with
  | zero =>
    constructor
    · rintro rfl
      exact ⟨[], rfl, rfl, fun p mem => absurd mem List.not_mem_nil⟩
    · rintro ⟨parts, length, rfl, -⟩
      obtain rfl := List.length_eq_zero_iff.1 length
      rfl
  | succ n ih =>
    constructor
    · rintro ⟨m, first, more⟩
      obtain ⟨w, rfl, word⟩ := (words t m).1 first
      obtain ⟨parts, length, rfl, all⟩ := (ih m).1 more
      refine ⟨w :: parts, by simp [length], by simp, fun p mem => ?_⟩
      rcases List.mem_cons.1 mem with rfl | later
      · exact word
      · exact all p later
    · rintro ⟨parts, length, rfl, all⟩
      cases parts with
      | nil => simp at length
      | cons w parts =>
        refine ⟨parts.flatten ++ u, (words _ _).2 ⟨w, by simp, all w List.mem_cons_self⟩, ?_⟩
        exact (ih _).2 ⟨parts, by simpa using length, rfl, fun p mem => all p (List.mem_cons_of_mem _ mem)⟩

/-- What a plain expression reads is a word of its language, wherever it starts. -/
theorem leads_iff (s : List Char) {r : Regex} (hr : r.plain = true) (t u : List Char) : r.Leads s t u ↔ ∃ w, t = w ++ u ∧ r.Lang w := by
  induction r generalizing t u with
  | empty =>
    constructor
    · exact fun same => ⟨[], same, rfl⟩
    · rintro ⟨w, rfl, rfl⟩
      rfl
  | set ranges =>
    constructor
    · rintro ⟨c, rfl, among⟩
      exact ⟨[c], rfl, c, rfl, among⟩
    · rintro ⟨w, rfl, c, rfl, among⟩
      exact ⟨c, rfl, among⟩
  | any =>
    constructor
    · rintro ⟨c, rfl, inside⟩
      exact ⟨[c], rfl, c, rfl, inside⟩
    · rintro ⟨w, rfl, c, rfl, inside⟩
      exact ⟨c, rfl, inside⟩
  | seq a b iha ihb =>
    obtain ⟨ha, hb⟩ := Bool.and_eq_true_iff.1 hr
    constructor
    · rintro ⟨m, first, second⟩
      obtain ⟨x, rfl, left⟩ := (iha ha t m).1 first
      obtain ⟨y, rfl, right⟩ := (ihb hb m u).1 second
      exact ⟨x ++ y, by simp, x, y, rfl, left, right⟩
    · rintro ⟨w, rfl, x, y, rfl, left, right⟩
      exact ⟨y ++ u, (iha ha _ _).2 ⟨x, by simp, left⟩, (ihb hb _ _).2 ⟨y, rfl, right⟩⟩
  | atLeast n r ih =>
    have repeated := times_words (ih hr)
    constructor
    · rintro ⟨k, least, run⟩
      obtain ⟨parts, rfl, rfl, all⟩ := (repeated k t u).1 run
      exact ⟨parts.flatten, rfl, parts, least, rfl, all⟩
    · rintro ⟨w, rfl, parts, least, rfl, all⟩
      exact ⟨parts.length, least, (repeated _ _ _).2 ⟨parts, rfl, rfl, all⟩⟩
  | start => cases hr
  | stop => cases hr
  | notAhead r => cases hr

/-- Repeated characters. -/
theorem lang_atLeast_char {r : Regex} {p : Char → Bool} (one : ∀ w, r.Lang w ↔ ∃ c, w = [c] ∧ p c = true) (n : Nat) (w : List Char) :
    (atLeast n r).Lang w ↔ n ≤ w.length ∧ ∀ c ∈ w, p c = true := by
  constructor
  · rintro ⟨parts, least, rfl, all⟩
    have length : parts.flatten.length = parts.length := by
      have ones : ∀ q ∈ parts, q.length = 1 := by
        intro q mem
        obtain ⟨c, rfl, -⟩ := (one q).1 (all q mem)
        rfl
      rw [List.length_flatten, List.map_congr_left ones]
      simp
    refine ⟨by omega, fun c mem => ?_⟩
    obtain ⟨q, hq, hc⟩ := List.mem_flatten.1 mem
    obtain ⟨d, rfl, inside⟩ := (one q).1 (all q hq)
    rw [List.mem_singleton.1 hc]
    exact inside
  · rintro ⟨least, all⟩
    refine ⟨w.map fun c => [c], by simpa using least, ?_, fun q mem => ?_⟩
    · rw [← List.flatMap_def]
      exact (List.flatMap_singleton' w).symm
    · obtain ⟨c, hc, rfl⟩ := List.mem_map.1 mem
      exact (one [c]).2 ⟨c, rfl, all c hc⟩

theorem lang_atLeast_set (n : Nat) (ranges : List (Char × Char)) (w : List Char) :
    (atLeast n (set ranges)).Lang w ↔ n ≤ w.length ∧ ∀ c ∈ w, inRanges ranges c = true :=
  lang_atLeast_char (fun _ => Iff.rfl) n w

theorem lang_atLeast_any (n : Nat) (w : List Char) :
    (atLeast n any).Lang w ↔ n ≤ w.length ∧ ∀ c ∈ w, isTerminator c = false := by
  rw [lang_atLeast_char (p := fun c => !isTerminator c) (fun w => by simp [Lang]) n w]
  simp

/-- One character. -/
theorem lang_set_single (c : Char) (w : List Char) : (set [(c, c)]).Lang w ↔ w = [c] := by
  constructor
  · rintro ⟨d, rfl, among⟩
    have same : d = c := by
      simp only [inRanges, List.any_cons, List.any_nil, Bool.or_false, Bool.and_eq_true, decide_eq_true_eq] at among
      exact Char.le_antisymm among.2 among.1
    rw [same]
  · rintro rfl
    exact ⟨c, rfl, by simp [inRanges]⟩

end Regex

end NovoApex.Lib
