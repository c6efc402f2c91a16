import NovoApex.Handlers.Auth
import NovoApex.Lib.Regex
import Mathlib.Data.List.Chain

/-!
# Which addresses are accepted

`auth_isEmail` is meant to accept what `authEmailPattern` matches. It accepts two things
more: an apostrophe at the end of the local part, and underscores in the domain.
-/

namespace NovoApex.Handlers
set_option autoImplicit false
open Lib

/-- `authEmailPattern`. -/
def authEmailPattern : String :=
  "/^(?!\\.)(?!.*\\.\\.)([A-Za-z0-9_'+\\-\\.]*)[A-Za-z0-9_+-]@([A-Za-z0-9][A-Za-z0-9\\-]*\\.)+[A-Za-z]\x7b2,\x7d$/"

/-- The pattern with an apostrophe before the `@` and underscores after it. -/
def laxEmailPattern : String :=
  "/^(?!\\.)(?!.*\\.\\.)([A-Za-z0-9_'+\\-\\.]*)[A-Za-z0-9_'+-]@([A-Za-z0-9][A-Za-z0-9_\\-]*\\.)+[A-Za-z]\x7b2,\x7d$/"

/-- The text is one that the pattern matches. -/
def MatchesPattern (pattern : String) (s : String) : Prop := ∃ r, Regex.parse pattern = some r ∧ r.Matches s.toList

/-! ## The expressions -/

abbrev Ranges : Type := List (Char × Char)

def letterRanges : Ranges := [('A', 'Z'), ('a', 'z')]

def alnumRanges : Ranges := [('A', 'Z'), ('a', 'z'), ('0', '9')]

def localRanges : Ranges := [('A', 'Z'), ('a', 'z'), ('0', '9'), ('_', '_'), ('\'', '\''), ('+', '+'), ('-', '-'), ('.', '.')]

/-- The text between the first character of a label and the dot that ends it. -/
def labelRegex (inner : Ranges) : Regex :=
  .seq (.set alnumRanges) (.seq (.atLeast 0 (.set inner)) (.seq (.set [('.', '.')]) .empty))

/-- The expression of both patterns. -/
def emailRegex (last inner : Ranges) : Regex :=
  .seq .start (.seq (.notAhead (.seq (.set [('.', '.')]) .empty))
    (.seq (.notAhead (.seq (.atLeast 0 .any) (.seq (.set [('.', '.')]) (.seq (.set [('.', '.')]) .empty))))
      (.seq (.seq (.atLeast 0 (.set localRanges)) .empty) (.seq (.set last) (.seq (.set [('@', '@')]) (.seq (.atLeast 1 (labelRegex inner))
        (.seq (.atLeast 2 (.set letterRanges)) (.seq .stop .empty))))))))

def strictLast : Ranges := [('A', 'Z'), ('a', 'z'), ('0', '9'), ('_', '_'), ('+', '+'), ('-', '-')]

def strictInner : Ranges := [('A', 'Z'), ('a', 'z'), ('0', '9'), ('-', '-')]

def laxLast : Ranges := [('A', 'Z'), ('a', 'z'), ('0', '9'), ('_', '_'), ('\'', '\''), ('+', '+'), ('-', '-')]

def laxInner : Ranges := [('A', 'Z'), ('a', 'z'), ('0', '9'), ('_', '_'), ('-', '-')]

theorem parse_authEmailPattern : Regex.parse authEmailPattern = some (emailRegex strictLast strictInner) := by decide +kernel

theorem parse_laxEmailPattern : Regex.parse laxEmailPattern = some (emailRegex laxLast laxInner) := by decide +kernel

/-! ## Characters -/

section Characters

open Regex

theorem inRanges_cons (a b : Char) (rs : Ranges) (c : Char) :
    inRanges ((a, b) :: rs) c = ((decide (a ≤ c) && decide (c ≤ b)) || inRanges rs c) := rfl

theorem upper_range (c : Char) : (decide ('A' ≤ c) && decide (c ≤ 'Z')) = c.isUpper := by
  have range : c.isUpper = decide (c.val ≥ 'A'.val ∧ c.val ≤ 'Z'.val) := rfl
  rw [Bool.eq_iff_iff, range]
  simp only [Bool.and_eq_true, decide_eq_true_eq, Char.le_def, ge_iff_le]

theorem lower_range (c : Char) : (decide ('a' ≤ c) && decide (c ≤ 'z')) = c.isLower := rfl

theorem digit_range (c : Char) : (decide ('0' ≤ c) && decide (c ≤ '9')) = c.isDigit := rfl

theorem single_range (a c : Char) : (decide (a ≤ c) && decide (c ≤ a)) = (c == a) := by
  rw [Bool.eq_iff_iff]
  simp only [Bool.and_eq_true, decide_eq_true_eq, beq_iff_eq]
  constructor
  · exact fun h => Char.le_antisymm h.2 h.1
  · rintro rfl
    exact ⟨Char.le_refl _, Char.le_refl _⟩

theorem isAlpha_cases (c : Char) : c.isAlpha = (c.isUpper || c.isLower) := rfl

theorem inRanges_letter (c : Char) : inRanges letterRanges c = c.isAlpha := by
  simp only [letterRanges, inRanges_cons, upper_range, lower_range]
  simp [inRanges, isAlpha_cases]

/-- Letters and digits, and some characters more. -/
theorem inRanges_alnum (rs : Ranges) (c : Char) :
    inRanges (('A', 'Z') :: ('a', 'z') :: ('0', '9') :: rs) c = (isASCIIAlphaNumeric c || inRanges rs c) := by
  simp only [inRanges_cons, upper_range, lower_range, digit_range, isASCIIAlphaNumeric, isAlpha_cases, Bool.or_assoc]

theorem inRanges_local (c : Char) : inRanges localRanges c = authEmailLocalRune c := by
  rw [localRanges, inRanges_alnum]
  simp only [inRanges_cons, single_range, authEmailLocalRune, Bool.or_assoc]
  simp [inRanges]

theorem inRanges_laxInner (c : Char) : inRanges laxInner c = (isASCIIAlphaNumeric c || c == '-' || c == '_') := by
  rw [laxInner, inRanges_alnum]
  simp only [inRanges_cons, single_range, Bool.or_assoc]
  simp [inRanges, Bool.or_comm]

theorem inRanges_laxLast (c : Char) : inRanges laxLast c = true ↔ authEmailLocalRune c = true ∧ c ≠ '.' := by
  by_cases dot : c = '.'
  · rw [dot]
    decide
  · have other : (c == '.') = false := by simpa using dot
    have more : inRanges laxLast c = authEmailLocalRune c := by
      rw [laxLast, inRanges_alnum]
      simp only [inRanges_cons, single_range, authEmailLocalRune, Bool.or_assoc, other]
      simp [inRanges]
    simp [more, dot]

theorem inRanges_strictLast (c : Char) : inRanges strictLast c = true ↔ inRanges laxLast c = true ∧ c ≠ '\'' := by
  by_cases quote : c = '\''
  · rw [quote]
    decide
  · have other : (c == '\'') = false := by simpa using quote
    have same : inRanges strictLast c = inRanges laxLast c := by
      simp only [strictLast, laxLast, inRanges_cons, single_range, other, Bool.false_or]
    simp [same, quote]

theorem inRanges_strictInner (c : Char) : inRanges strictInner c = true ↔ inRanges laxInner c = true ∧ c ≠ '_' := by
  by_cases underscore : c = '_'
  · rw [underscore]
    decide
  · have other : (c == '_') = false := by simpa using underscore
    have same : inRanges strictInner c = inRanges laxInner c := by
      simp only [strictInner, laxInner, inRanges_cons, single_range, other, Bool.false_or]
    simp [same, underscore]

/-- No set of the patterns has a line terminator. -/
theorem not_terminator {rs : Ranges} (clean : [('\n'), '\r', '\u2028', '\u2029'].all (fun t => !inRanges rs t) = true) {c : Char}
    (among : inRanges rs c = true) : isTerminator c = false := by
  rw [Bool.eq_false_iff]
  intro terminator
  simp only [isTerminator, Bool.or_eq_true, beq_iff_eq] at terminator
  simp only [List.all_cons, List.all_nil, Bool.and_true, Bool.and_eq_true, Bool.not_eq_true'] at clean
  obtain ⟨n, r, ls, ps⟩ := clean
  rcases terminator with ((rfl | rfl) | rfl) | rfl <;> simp_all

end Characters

/-! ## What the expression matches -/

/-- A label of the domain before the last. -/
def IsLabel (inner : Ranges) (l : List Char) : Prop :=
  ∃ f r, l = f :: r ∧ Regex.inRanges alnumRanges f = true ∧ ∀ d ∈ r, Regex.inRanges inner d = true

/-- Labels, each with its dot. -/
def dotted (labels : List (List Char)) : List Char := labels.flatMap fun l => l ++ ['.']

/-- The local part ends in `c`, the domain in `tld`. -/
structure EmailParts (last inner : Ranges) (front : List Char) (c : Char) (labels : List (List Char)) (tld : List Char) : Prop where
  front : ∀ d ∈ front, Regex.inRanges localRanges d = true
  last : Regex.inRanges last c = true
  some : labels ≠ []
  labels : ∀ l ∈ labels, IsLabel inner l
  long : 2 ≤ tld.length
  letters : ∀ d ∈ tld, Regex.inRanges letterRanges d = true

theorem lang_labelRegex (inner : Ranges) (w : List Char) : (labelRegex inner).Lang w ↔ ∃ l, w = l ++ ['.'] ∧ IsLabel inner l := by
  constructor
  · rintro ⟨x, y, rfl, ⟨f, rfl, first⟩, r, z, rfl, rest, d, e, rfl, dot, rfl⟩
    obtain rfl := (Regex.lang_set_single '.' d).1 dot
    exact ⟨f :: r, rfl, f, r, rfl, first, ((Regex.lang_atLeast_set 0 inner r).1 rest).2⟩
  · rintro ⟨l, rfl, f, r, rfl, first, rest⟩
    exact ⟨[f], r ++ ['.'], rfl, ⟨f, rfl, first⟩, r, ['.'], rfl, (Regex.lang_atLeast_set 0 inner r).2 ⟨Nat.zero_le _, rest⟩, ['.'], [], rfl,
      (Regex.lang_set_single '.' ['.']).2 rfl, rfl⟩

theorem lang_labels (inner : Ranges) (w : List Char) :
    (Regex.atLeast 1 (labelRegex inner)).Lang w ↔ ∃ labels, labels ≠ [] ∧ w = dotted labels ∧ ∀ l ∈ labels, IsLabel inner l := by
  constructor
  · rintro ⟨parts, least, rfl, all⟩
    have cut : ∀ q ∈ parts, q = q.dropLast ++ ['.'] ∧ IsLabel inner q.dropLast := by
      intro q mem
      obtain ⟨l, rfl, label⟩ := (lang_labelRegex inner q).1 (all q mem)
      rw [List.dropLast_concat]
      exact ⟨rfl, label⟩
    refine ⟨parts.map List.dropLast, fun none => ?_, ?_, fun l mem => ?_⟩
    · rw [List.map_eq_nil_iff] at none
      rw [none] at least
      cases least
    · unfold dotted
      rw [List.flatMap_map, List.flatMap_def]
      have same : parts.map (fun q => q) = parts.map fun q => q.dropLast ++ ['.'] := List.map_congr_left fun q mem => (cut q mem).1
      rw [List.map_id'] at same
      exact congrArg List.flatten same
    · obtain ⟨q, hq, rfl⟩ := List.mem_map.1 mem
      exact (cut q hq).2
  · rintro ⟨labels, some', rfl, all⟩
    refine ⟨labels.map fun l => l ++ ['.'], ?_, rfl, fun q mem => ?_⟩
    · rw [List.length_map]
      exact List.length_pos_iff.2 some'
    · obtain ⟨l, hl, rfl⟩ := List.mem_map.1 mem
      exact (lang_labelRegex inner _).2 ⟨l, rfl, all l hl⟩

theorem lang_front (w : List Char) : (Regex.seq (.atLeast 0 (.set localRanges)) .empty).Lang w ↔ ∀ d ∈ w, Regex.inRanges localRanges d = true := by
  constructor
  · rintro ⟨x, y, rfl, front, rfl⟩
    rw [List.append_nil]
    exact ((Regex.lang_atLeast_set 0 localRanges x).1 front).2
  · intro all
    exact ⟨w, [], by simp, (Regex.lang_atLeast_set 0 localRanges w).2 ⟨Nat.zero_le _, all⟩, rfl⟩

/-- The second lookahead looks for this. -/
theorem hasDoubleDot_iff (s : List Char) : hasDoubleDot s = true ↔ ∃ u v, s = u ++ '.' :: '.' :: v := by
  fun_induction hasDoubleDot s with
  | case1 rest => exact ⟨fun _ => ⟨[], rest, rfl⟩, fun _ => rfl⟩
  | case2 c rest other ih =>
    rw [ih]
    constructor
    · rintro ⟨u, v, rfl⟩
      exact ⟨c :: u, v, rfl⟩
    · rintro ⟨u, v, same⟩
      cases u with
      | nil =>
        obtain ⟨rfl, rfl⟩ := List.cons.inj same
        exact (other v rfl rfl).elim
      | cons d u => exact ⟨u, v, (List.cons.inj same).2⟩
  | case3 => simp

theorem hasDoubleDot_chain (s : List Char) : hasDoubleDot s = false ↔ s.IsChain fun a b => ¬ (a = '.' ∧ b = '.') := by
  fun_induction hasDoubleDot s with
  | case1 rest => simp
  | case2 c rest other ih =>
    rw [ih, List.isChain_cons]
    constructor
    · intro chain
      refine ⟨?_, chain⟩
      rintro d head ⟨rfl, rfl⟩
      cases rest with
      | nil => cases head
      | cons e rest =>
        obtain rfl : e = '.' := by simpa using head
        exact other rest rfl rfl
    · exact fun chain => chain.2
  | case3 => simp

/-- The characters of what is matched. -/
theorem EmailParts.clean {last inner : Ranges} {front : List Char} {c : Char} {labels : List (List Char)} {tld : List Char}
    (parts : EmailParts last inner front c labels tld) {P : Char → Prop} (locals : ∀ d, Regex.inRanges localRanges d = true → P d)
    (lasts : ∀ d, Regex.inRanges last d = true → P d) (at' : P '@') (dot : P '.') (alnums : ∀ d, Regex.inRanges alnumRanges d = true → P d)
    (inners : ∀ d, Regex.inRanges inner d = true → P d) (letters : ∀ d, Regex.inRanges letterRanges d = true → P d) :
    ∀ d ∈ front ++ c :: '@' :: (dotted labels ++ tld), P d := by
  intro d mem
  simp only [List.mem_append, List.mem_cons, dotted, List.mem_flatMap, List.not_mem_nil, or_false] at mem
  rcases mem with h | rfl | rfl | ⟨l, hl, h | rfl⟩ | h
  · exact locals d (parts.front d h)
  · exact lasts d parts.last
  · exact at'
  · obtain ⟨f, r, rfl, first, rest⟩ := parts.labels l hl
    rcases List.mem_cons.1 h with rfl | h
    · exact alnums d first
    · exact inners d (rest d h)
  · exact dot
  · exact letters d (parts.letters d h)

/-- Sets without line terminators. -/
def Clean (rs : Ranges) : Bool := ['\n', '\r', '\u2028', '\u2029'].all fun t => !Regex.inRanges rs t

/-- An address that does not start with a dot and has no two dots in a row. -/
theorem emailRegex_matches {last inner : Ranges} (cleanLast : Clean last = true) (cleanInner : Clean inner = true) (s : List Char) :
    (emailRegex last inner).Matches s ↔ ∃ front c labels tld, s = front ++ c :: '@' :: (dotted labels ++ tld) ∧
      EmailParts last inner front c labels tld ∧ s.head? ≠ some '.' ∧ hasDoubleDot s = false := by
  have leads := fun {r : Regex} (plain : r.plain = true) (t u : List Char) => Regex.leads_iff s plain t u
  have ahead : (∃ m, (Regex.seq (.set [('.', '.')]) .empty).Leads s s m) ↔ s.head? = some '.' := by
    constructor
    · rintro ⟨m, first⟩
      obtain ⟨w, same, x, y, rfl, dot, rfl⟩ := (leads rfl s m).1 first
      obtain rfl := (Regex.lang_set_single '.' x).1 dot
      rw [same]
      rfl
    · intro head
      cases s with
      | nil => cases head
      | cons d s =>
        obtain rfl : d = '.' := by simpa using head
        exact ⟨s, (leads rfl _ s).2 ⟨['.'], rfl, ['.'], [], rfl, (Regex.lang_set_single '.' _).2 rfl, rfl⟩⟩
  have doubled : (∀ d ∈ s, Regex.isTerminator d = false) →
      ((∃ m, (Regex.seq (.atLeast 0 .any) (.seq (.set [('.', '.')]) (.seq (.set [('.', '.')]) .empty))).Leads s s m) ↔ hasDoubleDot s = true) := by
    intro clean
    rw [hasDoubleDot_iff]
    constructor
    · rintro ⟨m, run⟩
      obtain ⟨w, same, x, y, rfl, -, d, z, rfl, first, e, o, rfl, second, rfl⟩ := (leads rfl s m).1 run
      obtain rfl := (Regex.lang_set_single '.' d).1 first
      obtain rfl := (Regex.lang_set_single '.' e).1 second
      exact ⟨x, m, by simpa using same⟩
    · rintro ⟨u, v, same⟩
      have before : (Regex.atLeast 0 .any).Lang u :=
        (Regex.lang_atLeast_any 0 u).2 ⟨Nat.zero_le _, fun d mem => clean d (same ▸ List.mem_append_left _ mem)⟩
      have dot : (Regex.set [('.', '.')]).Lang ['.'] := (Regex.lang_set_single '.' _).2 rfl
      exact ⟨v, (leads rfl s v).2 ⟨u ++ ['.', '.'], by simpa using same, u, ['.', '.'], rfl, before, ['.'], ['.'], rfl, dot, ['.'], [], rfl, dot, rfl⟩⟩
  constructor
  · rintro ⟨t, u, -, m, ⟨rfl, rfl⟩, m, ⟨plainStart, rfl⟩, m, ⟨single, rfl⟩, m₁, readFront, m₂, readLast, m₃, readSign, m₄,
      readLabels, m₅, readTld, m₆, ⟨rfl, rfl⟩, rfl⟩
    obtain ⟨front, rfl, hfront⟩ := (leads rfl _ _).1 readFront
    obtain ⟨w, rfl, c, rfl, hlast⟩ := (leads rfl _ _).1 readLast
    obtain ⟨w, rfl, hsign⟩ := (leads rfl _ _).1 readSign
    obtain rfl := (Regex.lang_set_single '@' w).1 hsign
    obtain ⟨w, rfl, hlabels⟩ := (leads rfl _ _).1 readLabels
    obtain ⟨tld, rfl, htld⟩ := (leads rfl _ _).1 readTld
    obtain ⟨labels, some', rfl, all⟩ := (lang_labels inner w).1 hlabels
    obtain ⟨long, letters⟩ := (Regex.lang_atLeast_set 2 letterRanges tld).1 htld
    have parts : EmailParts last inner front c labels tld := ⟨(lang_front front).1 hfront, hlast, some', all, long, letters⟩
    have same : front ++ ([c] ++ (['@'] ++ (dotted labels ++ (tld ++ [])))) = front ++ c :: '@' :: (dotted labels ++ tld) := by simp
    refine ⟨front, c, labels, tld, same, parts, fun head => plainStart (ahead.2 head), ?_⟩
    rw [Bool.eq_false_iff]
    refine fun two => single ((doubled ?_).2 two)
    rw [same]
    exact parts.clean (fun _ => not_terminator rfl) (fun _ => not_terminator cleanLast) rfl rfl (fun _ => not_terminator rfl)
      (fun _ => not_terminator cleanInner) fun _ => not_terminator rfl
  · rintro ⟨front, c, labels, tld, same, parts, head, single⟩
    have clean : ∀ d ∈ s, Regex.isTerminator d = false := by
      rw [same]
      exact parts.clean (fun _ => not_terminator rfl) (fun _ => not_terminator cleanLast) rfl rfl (fun _ => not_terminator rfl)
        (fun _ => not_terminator cleanInner) fun _ => not_terminator rfl
    refine ⟨s, [], List.suffix_refl s, s, ⟨rfl, rfl⟩, s, ⟨fun first => head (ahead.1 first), rfl⟩, s,
      ⟨fun two => absurd ((doubled clean).1 two) (by simp [single]), rfl⟩, c :: '@' :: (dotted labels ++ tld), ?_, '@' :: (dotted labels ++ tld), ?_,
      dotted labels ++ tld, ?_, tld, ?_, [], ?_, [], ⟨rfl, rfl⟩, rfl⟩
    · exact (leads rfl _ _).2 ⟨front, same, (lang_front front).2 parts.front⟩
    · exact (leads rfl _ _).2 ⟨[c], rfl, c, rfl, parts.last⟩
    · exact (leads rfl _ _).2 ⟨['@'], rfl, (Regex.lang_set_single '@' _).2 rfl⟩
    · exact (leads rfl _ _).2 ⟨dotted labels, rfl, (lang_labels inner _).2 ⟨labels, parts.some, rfl, parts.labels⟩⟩
    · exact (leads rfl _ _).2 ⟨tld, by simp, (Regex.lang_atLeast_set 2 letterRanges tld).2 ⟨parts.long, parts.letters⟩⟩

/-! ## What the code checks -/

/-- What `auth_isEmail` asks of the two parts. -/
def emailChecks (before domain : List Char) : Bool :=
  !before.isEmpty && !domain.isEmpty && before.head? != some '.' && !hasDoubleDot before && before.getLast? != some '.' &&
  !before.contains '@' && !before.contains ' ' && before.all authEmailLocalRune &&
  decide (2 ≤ (domain.splitOn '.').length) && (domain.splitOn '.').all authEmailLabel &&
  (domain.splitOn '.').getLast?.any fun tld => decide (2 ≤ tld.length) && tld.all Char.isAlpha

/-- The parts around the last `@`. -/
theorem authIsEmail_split {s : String} {before domain : List Char} (split : s.toList = before ++ '@' :: domain) (after : '@' ∉ domain) :
    authIsEmail s = emailChecks before domain := by
  have passes : ∀ c ∈ domain.reverse, (c != '@') = true := by
    intro c mem
    rw [bne_iff_ne]
    rintro rfl
    exact after (List.mem_reverse.1 mem)
  have reversed : s.toList.reverse = domain.reverse ++ '@' :: before.reverse := by rw [split]; simp
  have taken : s.toList.reverse.takeWhile (· != '@') = domain.reverse := by
    rw [reversed, List.takeWhile_append_of_pos passes]
    simp
  have dropped : s.toList.reverse.dropWhile (· != '@') = '@' :: before.reverse := by
    rw [reversed, List.dropWhile_append_of_pos passes]
    simp
  have some' : s.toList.contains '@' = true := by rw [split]; simp
  unfold authIsEmail emailChecks
  simp only [taken, dropped, some', List.drop_succ_cons, List.drop_zero, List.reverse_reverse, Bool.true_and]

/-- An address has an `@`. -/
theorem authIsEmail_sign {s : String} (accepted : authIsEmail s = true) :
    ∃ before domain, s.toList = before ++ '@' :: domain ∧ '@' ∉ domain := by
  have mem : '@' ∈ s.toList := by
    unfold authIsEmail at accepted
    simp only [Bool.and_eq_true] at accepted
    simpa using accepted.1.1.1.1.1.1.1.1.1.1.1
  obtain ⟨as, bs, same, first⟩ := List.eq_append_cons_of_mem (List.mem_reverse.2 mem)
  refine ⟨bs.reverse, as.reverse, ?_, fun mem' => first (List.mem_reverse.1 mem')⟩
  have back := congrArg List.reverse same
  rw [List.reverse_reverse] at back
  rw [back]
  simp

theorem intercalate_dotted (labels : List (List Char)) (tld : List Char) : ['.'].intercalate (labels ++ [tld]) = dotted labels ++ tld := by
  induction labels with
  | nil => simp [dotted]
  | cons l rest ih =>
    rw [List.cons_append, List.intercalate_cons_of_ne_nil (by simp), ih]
    simp [dotted]

theorem authEmailLabel_iff (l : List Char) : authEmailLabel l = true ↔ IsLabel laxInner l := by
  have inner : ∀ c, (isASCIIAlphaNumeric c || c == '-' || c == '_') = Regex.inRanges laxInner c := fun c => (inRanges_laxInner c).symm
  have first : ∀ c, Regex.inRanges alnumRanges c = isASCIIAlphaNumeric c := by
    intro c
    have none : Regex.inRanges [] c = false := rfl
    rw [alnumRanges, inRanges_alnum, none, Bool.or_false]
  unfold authEmailLabel IsLabel
  simp only [inner, first]
  cases l with
  | nil => simp
  | cons f r =>
    have start : isASCIIAlphaNumeric f = true → Regex.inRanges laxInner f = true := by
      intro h
      rw [inRanges_laxInner, h]
      rfl
    simp only [List.head?_cons, Option.any_some, List.all_cons, Bool.and_eq_true, List.all_eq_true]
    constructor
    · exact fun h => ⟨f, r, rfl, h.1, h.2.2⟩
    · rintro ⟨f', r', same, head, rest⟩
      obtain ⟨rfl, rfl⟩ := List.cons.inj same
      exact ⟨head, start head, rest⟩

/-- A label has neither a dot nor an `@`. -/
theorem IsLabel.free {inner : Ranges} {l : List Char} (label : IsLabel inner l) {d : Char} (alnum : Regex.inRanges alnumRanges d = false)
    (other : Regex.inRanges inner d = false) : d ∉ l := by
  obtain ⟨f, r, rfl, first, rest⟩ := label
  intro mem
  rcases List.mem_cons.1 mem with rfl | later
  · rw [first] at alnum
    cases alnum
  · rw [rest d later] at other
    cases other

theorem letters_free {tld : List Char} (letters : ∀ d ∈ tld, Regex.inRanges letterRanges d = true) {d : Char}
    (other : Regex.inRanges letterRanges d = false) : d ∉ tld := by
  intro mem
  rw [letters d mem] at other
  cases other

/-- The labels of an accepted domain. -/
theorem domain_iff (domain : List Char) : (2 ≤ (domain.splitOn '.').length ∧ (domain.splitOn '.').all authEmailLabel = true ∧
      ((domain.splitOn '.').getLast?.any fun tld => decide (2 ≤ tld.length) && tld.all Char.isAlpha) = true) ↔
    ∃ labels tld, domain = dotted labels ++ tld ∧ labels ≠ [] ∧ (∀ l ∈ labels, IsLabel laxInner l) ∧ 2 ≤ tld.length ∧
      ∀ d ∈ tld, Regex.inRanges letterRanges d = true := by
  constructor
  · rintro ⟨two, all, last⟩
    rcases List.eq_nil_or_concat (domain.splitOn '.') with none | ⟨labels, tld, split⟩
    · exact absurd none (List.splitOn_ne_nil '.' domain)
    · rw [List.concat_eq_append] at split
      rw [split] at two all last
      have whole : ['.'].intercalate (domain.splitOn '.') = domain := List.intercalate_splitOn '.'
      rw [split, intercalate_dotted] at whole
      simp only [List.getLast?_concat, Option.any_some, Bool.and_eq_true, decide_eq_true_eq, List.all_eq_true] at last
      refine ⟨labels, tld, whole.symm, fun none => ?_, fun l mem => ?_, last.1, fun d mem => ?_⟩
      · rw [none] at two
        simp at two
      · exact (authEmailLabel_iff l).1 (List.all_eq_true.1 all l (List.mem_append_left _ mem))
      · rw [inRanges_letter]
        exact last.2 d mem
  · rintro ⟨labels, tld, rfl, some', all, long, letters⟩
    have split : (dotted labels ++ tld).splitOn '.' = labels ++ [tld] := by
      rw [← intercalate_dotted]
      refine List.splitOn_intercalate '.' (fun l mem => ?_) (by simp)
      rcases List.mem_append.1 mem with h | h
      · exact (all l h).free rfl rfl
      · rw [List.mem_singleton.1 h]
        exact letters_free letters rfl
    rw [split]
    refine ⟨?_, ?_, ?_⟩
    · rw [List.length_append, List.length_singleton]
      have := List.length_pos_iff.2 some'
      omega
    · rw [List.all_eq_true]
      intro l mem
      rcases List.mem_append.1 mem with h | h
      · exact (authEmailLabel_iff l).2 (all l h)
      · rw [List.mem_singleton.1 h]
        have alpha : ∀ d ∈ tld, d.isAlpha = true := fun d hd => by rw [← inRanges_letter]; exact letters d hd
        cases tld with
        | nil => cases long
        | cons f r =>
          refine (authEmailLabel_iff _).2 ⟨f, r, rfl, ?_, fun d hd => ?_⟩
          · rw [alnumRanges, inRanges_alnum, isASCIIAlphaNumeric, alpha f List.mem_cons_self]
            rfl
          · rw [inRanges_laxInner, isASCIIAlphaNumeric, alpha d (List.mem_cons_of_mem _ hd)]
            rfl
    · simp only [List.getLast?_concat, Option.any_some, Bool.and_eq_true, decide_eq_true_eq, List.all_eq_true]
      exact ⟨long, fun d hd => by rw [← inRanges_letter]; exact letters d hd⟩

/-- Two dots in a row. -/
abbrev Apart (a b : Char) : Prop := ¬ (a = '.' ∧ b = '.')

theorem chain_of_free {l : List Char} (free : '.' ∉ l) : l.IsChain Apart := by
  rw [← hasDoubleDot_chain, Bool.eq_false_iff]
  intro two
  obtain ⟨u, v, rfl⟩ := (hasDoubleDot_iff l).1 two
  exact free (by simp)

/-- A domain has no two dots in a row and does not start with one. -/
theorem chain_domain {inner : Ranges} (plain : Regex.inRanges inner '.' = false) {labels : List (List Char)} {tld : List Char}
    (all : ∀ l ∈ labels, IsLabel inner l) (letters : ∀ d ∈ tld, Regex.inRanges letterRanges d = true) :
    (dotted labels ++ tld).IsChain Apart ∧ (dotted labels ++ tld).head? ≠ some '.' := by
  induction labels with
  | nil =>
    have free : '.' ∉ tld := letters_free letters rfl
    refine ⟨chain_of_free free, fun head => free ?_⟩
    exact List.mem_of_mem_head? head
  | cons l rest ih =>
    obtain ⟨chain, head⟩ := ih fun l' mem => all l' (List.mem_cons_of_mem _ mem)
    have free : '.' ∉ l := (all l List.mem_cons_self).free rfl plain
    have shape : dotted (l :: rest) ++ tld = l ++ '.' :: (dotted rest ++ tld) := by simp [dotted]
    rw [shape]
    constructor
    · refine List.isChain_append.2 ⟨chain_of_free free, List.isChain_cons.2 ⟨?_, chain⟩, ?_⟩
      · rintro d first ⟨-, rfl⟩
        exact head first
      · rintro d last e - ⟨rfl, -⟩
        exact free (List.mem_of_mem_getLast? last)
    · obtain ⟨f, r, rfl, first, -⟩ := all l List.mem_cons_self
      intro dot
      obtain rfl : f = '.' := by simpa using dot
      cases first

/-- A domain has no `@`. -/
theorem EmailParts.sign_free {last inner : Ranges} (plain : Regex.inRanges inner '@' = false) {front : List Char} {c : Char}
    {labels : List (List Char)} {tld : List Char} (parts : EmailParts last inner front c labels tld) : '@' ∉ dotted labels ++ tld := by
  intro mem
  simp only [dotted, List.mem_append, List.mem_flatMap, List.mem_singleton] at mem
  rcases mem with ⟨l, hl, h | h⟩ | h
  · exact (parts.labels l hl).free rfl plain h
  · cases h
  · exact letters_free parts.letters rfl h

/-- What the code accepts. -/
theorem authIsEmail_iff (s : String) : authIsEmail s = true ↔ ∃ front c labels tld, s.toList = front ++ c :: '@' :: (dotted labels ++ tld) ∧
    EmailParts laxLast laxInner front c labels tld ∧ s.toList.head? ≠ some '.' ∧ hasDoubleDot s.toList = false := by
  constructor
  · intro accepted
    obtain ⟨before, domain, split, after⟩ := authIsEmail_sign accepted
    rw [authIsEmail_split split after] at accepted
    simp only [emailChecks, Bool.and_eq_true, decide_eq_true_eq, bne_iff_ne, Bool.not_eq_true'] at accepted
    obtain ⟨⟨⟨⟨⟨⟨⟨⟨⟨⟨filled, -⟩, head⟩, single⟩, last⟩, -⟩, -⟩, runes⟩, two⟩, labelled⟩, top⟩ := accepted
    obtain ⟨labels, tld, rfl, some', all, long, letters⟩ := (domain_iff domain).1 ⟨two, labelled, top⟩
    rcases List.eq_nil_or_concat before with none | ⟨front, c, rfl⟩
    · rw [none] at filled
      cases filled
    · rw [List.concat_eq_append] at *
      have rune : ∀ d ∈ front ++ [c], authEmailLocalRune d = true := List.all_eq_true.1 runes
      have ends : c ≠ '.' := fun same => last (by simp [same])
      refine ⟨front, c, labels, tld, by simpa using split, ⟨fun d mem => ?_, ?_, some', all, long, letters⟩, ?_, ?_⟩
      · rw [inRanges_local]
        exact rune d (List.mem_append_left _ mem)
      · exact (inRanges_laxLast c).2 ⟨rune c (by simp), ends⟩
      · rw [split, List.head?_append_of_ne_nil _ (by simp)]
        exact head
      · rw [hasDoubleDot_chain] at single ⊢
        rw [split]
        refine List.isChain_append.2 ⟨single, List.isChain_cons.2 ⟨?_, (chain_domain rfl all letters).1⟩, ?_⟩
        · rintro d - ⟨sign, -⟩
          cases sign
        · rintro d - e first ⟨-, rfl⟩
          cases first
  · rintro ⟨front, c, labels, tld, same, parts, head, single⟩
    have after : '@' ∉ dotted labels ++ tld := parts.sign_free rfl
    have split : s.toList = (front ++ [c]) ++ '@' :: (dotted labels ++ tld) := by rw [same]; simp
    obtain ⟨runeLast, ends⟩ := (inRanges_laxLast c).1 parts.last
    have rune : ∀ d ∈ front ++ [c], authEmailLocalRune d = true := by
      intro d mem
      rcases List.mem_append.1 mem with h | h
      · rw [← inRanges_local]
        exact parts.front d h
      · rw [List.mem_singleton.1 h]
        exact runeLast
    have without : ∀ d, authEmailLocalRune d = false → (front ++ [c]).contains d = false := by
      intro d other
      rw [Bool.eq_false_iff]
      intro among
      rw [rune d (by simpa using among)] at other
      cases other
    obtain ⟨two, labelled, top⟩ := (domain_iff _).2 ⟨labels, tld, rfl, parts.some, parts.labels, parts.long, parts.letters⟩
    have filled : (dotted labels ++ tld).isEmpty = false := by
      cases tld with
      | nil => cases parts.long
      | cons d tld => simp
    have chain := (hasDoubleDot_chain _).1 single
    rw [split] at chain head
    have front' : hasDoubleDot (front ++ [c]) = false := (hasDoubleDot_chain _).2 chain.left_of_append
    rw [List.head?_append_of_ne_nil _ (by simp)] at head
    rw [authIsEmail_split split after]
    simp only [emailChecks, Bool.and_eq_true, decide_eq_true_eq, bne_iff_ne, Bool.not_eq_true']
    exact ⟨⟨⟨⟨⟨⟨⟨⟨⟨⟨by simp, filled⟩, head⟩, front'⟩, by simpa using ends⟩, without '@' rfl⟩, without ' ' rfl⟩, List.all_eq_true.2 rune⟩, two⟩,
      labelled⟩, top⟩

/-! ## The difference -/

theorem isLabel_strict (l : List Char) : IsLabel strictInner l ↔ IsLabel laxInner l ∧ '_' ∉ l := by
  constructor
  · rintro ⟨f, r, rfl, first, rest⟩
    refine ⟨⟨f, r, rfl, first, fun d mem => ((inRanges_strictInner d).1 (rest d mem)).1⟩, ?_⟩
    exact IsLabel.free ⟨f, r, rfl, first, rest⟩ rfl rfl
  · rintro ⟨⟨f, r, rfl, first, rest⟩, free⟩
    refine ⟨f, r, rfl, first, fun d mem => (inRanges_strictInner d).2 ⟨rest d mem, ?_⟩⟩
    rintro rfl
    exact free (List.mem_cons_of_mem _ mem)

theorem emailParts_strict {front : List Char} {c : Char} {labels : List (List Char)} {tld : List Char} :
    EmailParts strictLast strictInner front c labels tld ↔
      EmailParts laxLast laxInner front c labels tld ∧ c ≠ '\'' ∧ '_' ∉ dotted labels ++ tld := by
  constructor
  · intro parts
    obtain ⟨last, quote⟩ := (inRanges_strictLast c).1 parts.last
    refine ⟨⟨parts.front, last, parts.some, fun l mem => ((isLabel_strict l).1 (parts.labels l mem)).1, parts.long, parts.letters⟩, quote, ?_⟩
    intro mem
    simp only [dotted, List.mem_append, List.mem_flatMap, List.mem_singleton] at mem
    rcases mem with ⟨l, hl, h | h⟩ | h
    · exact ((isLabel_strict l).1 (parts.labels l hl)).2 h
    · cases h
    · exact letters_free parts.letters rfl h
  · rintro ⟨parts, quote, free⟩
    refine ⟨parts.front, (inRanges_strictLast c).2 ⟨parts.last, quote⟩, parts.some, fun l mem => ?_, parts.long, parts.letters⟩
    refine (isLabel_strict l).2 ⟨parts.labels l mem, fun h => free ?_⟩
    simp only [dotted, List.mem_append, List.mem_flatMap]
    exact .inl ⟨l, mem, .inl h⟩

/-- The text matches the lax pattern, and has an apostrophe right before its `@` or an underscore after it. -/
def Slips (s : String) : Prop :=
  MatchesPattern laxEmailPattern s ∧ ∃ before after, s.toList = before ++ '@' :: after ∧ (before.getLast? = some '\'' ∨ '_' ∈ after)

theorem matchesPattern_iff {pattern : String} {r : Regex} (parsed : Regex.parse pattern = some r) (s : String) :
    MatchesPattern pattern s ↔ r.Matches s.toList := by
  constructor
  · rintro ⟨r', parsed', matched⟩
    obtain rfl := Option.some.inj (parsed.symm.trans parsed')
    exact matched
  · exact fun matched => ⟨r, parsed, matched⟩

/-- The code accepts what the lax pattern matches. -/
theorem authIsEmail_lax (s : String) : authIsEmail s = true ↔ MatchesPattern laxEmailPattern s := by
  rw [authIsEmail_iff, matchesPattern_iff parse_laxEmailPattern, emailRegex_matches rfl rfl]

/-- The pattern matches the same texts but those that slip. -/
theorem strict_iff (s : String) : MatchesPattern authEmailPattern s ↔ MatchesPattern laxEmailPattern s ∧ ¬ Slips s := by
  rw [matchesPattern_iff parse_authEmailPattern, emailRegex_matches rfl rfl]
  constructor
  · rintro ⟨front, c, labels, tld, same, parts, head, single⟩
    obtain ⟨lax, quote, free⟩ := emailParts_strict.1 parts
    refine ⟨(matchesPattern_iff parse_laxEmailPattern s).2 ((emailRegex_matches rfl rfl _).2 ⟨front, c, labels, tld, same, lax, head, single⟩), ?_⟩
    rintro ⟨-, before, after, split, slip⟩
    -- neither part has another `@`, so the two splits are the same
    have rune : '@' ∉ front ++ [c] := by
      intro mem
      rcases List.mem_append.1 mem with h | h
      · exact absurd (parts.front _ h) (by decide)
      · rw [← List.mem_singleton.1 h] at parts
        exact absurd parts.last (by decide)
    have both : (front ++ [c]) ++ '@' :: (dotted labels ++ tld) = before ++ '@' :: after := by
      rw [← split, same]
      simp
    obtain ⟨rfl, -, rfl⟩ := (List.append_cons_inj_of_notMem rune (parts.sign_free rfl)).1 both
    rcases slip with last | underscore
    · exact quote (by simpa using last)
    · exact free underscore
  · rintro ⟨lax, sound⟩
    obtain ⟨front, c, labels, tld, same, parts, head, single⟩ :=
      (emailRegex_matches rfl rfl _).1 ((matchesPattern_iff parse_laxEmailPattern s).1 lax)
    refine ⟨front, c, labels, tld, same, emailParts_strict.2 ⟨parts, fun quote => ?_, fun mem => ?_⟩, head, single⟩
    · exact sound ⟨lax, front ++ [c], dotted labels ++ tld, by rw [same]; simp, .inl (by simp [quote])⟩
    · exact sound ⟨lax, front ++ [c], dotted labels ++ tld, by rw [same]; simp, .inr mem⟩

/-- The code and the pattern agree on exactly the texts that do not slip. -/
theorem authIsEmail_pattern_iff (s : String) : (authIsEmail s = true ↔ MatchesPattern authEmailPattern s) ↔ ¬ Slips s := by
  rw [strict_iff, authIsEmail_lax]
  constructor
  · intro agree slips
    exact (agree.1 slips.1).2 slips
  · exact fun sound => ⟨fun lax => ⟨lax, sound⟩, fun strict => strict.1⟩

/-- A byte string; a byte is read as the character of its code, as the code and the pattern compare them. -/
def byteString (bytes : List UInt8) : String := String.ofList (bytes.map fun b => Char.ofNat b.toNat)

/-! ### Bytes and characters -/

theorem ascii_of_inRanges {rs : Ranges} (low : (rs.all fun r => decide (r.2.toNat < 128)) = true) {d : Char}
    (among : Regex.inRanges rs d = true) : d.toNat < 128 := by
  obtain ⟨r, hr, bounds⟩ := List.any_eq_true.1 among
  simp only [Bool.and_eq_true, decide_eq_true_eq] at bounds
  have small : r.2.toNat < 128 := of_decide_eq_true (List.all_eq_true.1 low r hr)
  have le : d.toNat ≤ r.2.toNat := UInt32.le_iff_toNat_le.1 (Char.le_def.1 bounds.2)
  omega

/-- An accepted text is ASCII. -/
theorem authIsEmail_ascii {s : String} (accepted : authIsEmail s = true) : ∀ c ∈ s.toList, c.toNat < 128 := by
  obtain ⟨front, c, labels, tld, same, parts, -⟩ := (authIsEmail_iff s).1 accepted
  rw [same]
  exact parts.clean (fun _ => ascii_of_inRanges rfl) (fun _ => ascii_of_inRanges rfl) (by decide) (by decide) (fun _ => ascii_of_inRanges rfl)
    (fun _ => ascii_of_inRanges rfl) fun _ => ascii_of_inRanges rfl

theorem utf8_low {c : Char} (ascii : c.toNat < 128) : String.utf8EncodeChar c = [UInt8.ofNat c.toNat] := by
  have small : c.val.toNat ≤ 127 := by
    have : c.val.toNat = c.toNat := rfl
    omega
  unfold String.utf8EncodeChar
  simp only [small, if_true]
  rfl

/-- The encoding of any other character begins with a byte that is not ASCII. -/
theorem utf8_high {c : Char} (wide : 128 ≤ c.toNat) : ∃ b ∈ String.utf8EncodeChar c, 128 ≤ b.toNat := by
  have large : ¬ c.val.toNat ≤ 127 := by
    have : c.val.toNat = c.toNat := rfl
    omega
  unfold String.utf8EncodeChar
  simp only [large, if_false]
  split
  · refine ⟨_, List.mem_cons_self, ?_⟩
    simp
    omega
  · split
    · refine ⟨_, List.mem_cons_self, ?_⟩
      simp
      omega
    · refine ⟨_, List.mem_cons_self, ?_⟩
      simp
      omega

/-- A byte as a character. -/
theorem toNat_ofNat_byte (b : UInt8) : (Char.ofNat b.toNat).toNat = b.toNat := by
  have small : b.toNat < 256 := b.toNat_lt
  have valid : b.toNat.isValidChar := .inl (by omega)
  rw [Char.ofNat, dif_pos valid]
  exact UInt32.toNat_ofNatLT

theorem byteString_ascii {s : String} (ascii : ∀ c ∈ s.toList, c.toNat < 128) :
    byteString (s.toList.flatMap String.utf8EncodeChar) = s := by
  have bytes : s.toList.flatMap String.utf8EncodeChar = s.toList.map fun c => UInt8.ofNat c.toNat := by
    rw [List.flatMap_def, List.map_congr_left fun c mem => utf8_low (ascii c mem), ← List.flatMap_def, ← List.map_eq_flatMap]
  have back : s.toList.map (fun c => Char.ofNat (UInt8.ofNat c.toNat).toNat) = s.toList := by
    have each : ∀ c ∈ s.toList, Char.ofNat (UInt8.ofNat c.toNat).toNat = c := by
      intro c mem
      have small := ascii c mem
      have same : (UInt8.ofNat c.toNat).toNat = c.toNat := UInt8.toNat_ofNat_of_lt' (by simp only [UInt8.size]; omega)
      rw [same, Char.ofNat_toNat]
    rw [List.map_congr_left each, List.map_id']
  rw [byteString, bytes, List.map_map]
  exact (congrArg String.ofList back).trans String.ofList_toList

/-- A text, as the bytes of its UTF-8 encoding, is an address exactly when its characters say so. -/
theorem authIsEmail_utf8 (s : String) : authIsEmail (byteString (s.toList.flatMap String.utf8EncodeChar)) = authIsEmail s := by
  by_cases ascii : ∀ c ∈ s.toList, c.toNat < 128
  · rw [byteString_ascii ascii]
  · have chars : authIsEmail s = false := by
      rw [Bool.eq_false_iff]
      exact fun accepted => ascii (authIsEmail_ascii accepted)
    rw [chars, Bool.eq_false_iff]
    intro accepted
    refine ascii fun c mem => ?_
    by_contra wide
    obtain ⟨b, hb, high⟩ := utf8_high (Nat.not_lt.1 wide)
    have low := authIsEmail_ascii accepted (Char.ofNat b.toNat) (by
      rw [byteString, String.toList_ofList]
      exact List.mem_map_of_mem (List.mem_flatMap.2 ⟨c, mem, hb⟩))
    rw [toNat_ofNat_byte] at low
    omega

/-- On every byte string the code answers as the pattern does, if and only if the string does not slip. -/
theorem auth_isEmail_iff (bytes : List UInt8) :
    (authIsEmail (byteString bytes) = true ↔ MatchesPattern authEmailPattern (byteString bytes)) ↔ ¬ Slips (byteString bytes) :=
  authIsEmail_pattern_iff (byteString bytes)

/-- The code accepts `a'@b.co`; the pattern does not match it. -/
theorem quote_accepted : ¬ ∀ bytes : List UInt8, authIsEmail (byteString bytes) = true ↔ MatchesPattern authEmailPattern (byteString bytes) := by
  intro agree
  have accepted : authIsEmail (byteString [97, 39, 64, 98, 46, 99, 111]) = true := by decide +kernel
  have slips : Slips (byteString [97, 39, 64, 98, 46, 99, 111]) :=
    ⟨(authIsEmail_lax _).1 accepted, ['a', '\''], ['b', '.', 'c', 'o'], by decide +kernel, .inl rfl⟩
  exact (authIsEmail_pattern_iff _).1 (agree _) slips

end NovoApex.Handlers
