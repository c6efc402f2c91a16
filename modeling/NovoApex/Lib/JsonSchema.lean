import Mathlib.Data.List.Forall2
import NovoApex.Lib.Json

/-!
# JSON schemas

A schema is the documents it holds of; the properties of an object that it does not
name are dropped first.

A decoder goes over a value as often as the text names it, in whatever case. `Reads`
says what that comes to: which documents are decoded at all, and the value after a
sequence of them. `reads_slice` and `reads_struct` read a slice place by place and a
struct field by field, each from all that was said of it.
-/

namespace NovoApex.Lib
set_option autoImplicit false

/-- A schema, as what it holds of. -/
abbrev Schema : Type := Json → Bool

namespace Schema

def any : Schema := fun _ => true

def notNull : Schema := fun j => !j.isNull

/-- `"type": "string"`. -/
def string : Schema
  | .string _ => true
  | _ => false

/-- `"type": "boolean"`. -/
def boolean : Schema
  | .bool _ => true
  | _ => false

/-- `"type": "number"`, within bounds. -/
def number (within : ℚ → Bool) : Schema
  | .number _ value => within value
  | _ => false

/-- `"enum"`. -/
def enum (values : List String) : Schema
  | .string s => decide (s ∈ values)
  | _ => false

/-- `"anyOf"` a schema and `"type": "null"`. -/
def nullable (s : Schema) : Schema
  | .null => true
  | j => s j

/-- `"type": "array"` with `"items"` and `"maxItems"`. -/
def array (items : Schema) (maxItems : Option Nat) : Schema
  | .array js => js.all items && maxItems.all fun most => decide (js.length ≤ most)
  | _ => false

/-- `"type": "object"` with its `"properties"`, those in `"required"` and the others. -/
def object (required optional : List (String × Schema)) : Schema
  | .object members =>
    (required.all fun p => (Json.member? p.1 members).any p.2) && optional.all fun p => (Json.member? p.1 members).all p.2
  | _ => false

/-- An object whose members satisfy the schema of the property they name, in whatever case they spell it. -/
def spelled (properties : List (String × Schema)) : Schema
  | .object members => members.all fun m => properties.all fun p => !Json.names p.1 m.1 || p.2 m.2
  | _ => false

@[simp] theorem object_object (required optional : List (String × Schema)) (members : List (String × Json)) :
    object required optional (.object members) = ((required.all fun p => (Json.member? p.1 members).any p.2) &&
      optional.all fun p => (Json.member? p.1 members).all p.2) := rfl

/-! ### Weaker schemas -/

section Mono

variable {s t u : Schema} {look : Option Json}

theorem any_mono (h : ∀ j, s j = true → t j = true) (holds : look.any s = true) : look.any t = true := by
  cases look with
  | none => cases holds
  | some j => exact h j holds

theorem any_of_all (holds : look.any s = true) (holds' : look.all t = true) (h : ∀ j, s j = true → t j = true → u j = true) :
    look.any u = true := by
  cases look with
  | none => cases holds
  | some j => exact h j holds holds'

theorem array_mono {most : Option Nat} (h : ∀ j, s j = true → t j = true) (j : Json) (holds : array s most j = true) :
    array t most j = true := by
  cases j with
  | array js =>
    unfold array at holds ⊢
    rw [Bool.and_eq_true, List.all_eq_true] at holds ⊢
    exact ⟨fun k mem => h k (holds.1 k mem), holds.2⟩
  | _ => cases holds

theorem array_mono₂ {most most' : Option Nat} (h : ∀ j, s j = true → t j = true → u j = true) (j : Json)
    (holds : array s most j = true) (holds' : array t most' j = true) : array u most j = true := by
  cases j with
  | array js =>
    unfold array at holds holds' ⊢
    rw [Bool.and_eq_true, List.all_eq_true] at holds holds' ⊢
    exact ⟨fun k mem => h k (holds.1 k mem) (holds'.1 k mem), holds.2⟩
  | _ => cases holds

/-- A document that is not null satisfies what a nullable schema is made of. -/
theorem strict_of_notNull (j : Json) (holds : nullable s j = true) (some_ : notNull j = true) : s j = true := by
  cases j with
  | null => cases some_
  | _ => exact holds

end Mono

end Schema

/-! ## Values -/

namespace Json

def text : Json → String
  | .string s => s
  | _ => ""

def text? : Json → Option String
  | .string s => some s
  | _ => none

def flag : Json → Bool
  | .bool b => b
  | _ => false

def flag? : Json → Option Bool
  | .bool b => some b
  | _ => none

/-- The binary64 nearest to a number. -/
def float : Json → ℚ
  | .number _ value => (float64 value).getD 0
  | _ => 0

def items {β : Type} (value : Json → β) : Json → List β
  | .array js => js.map value
  | _ => []

def members : Json → List (String × Json)
  | .object ms => ms
  | _ => []

end Json

/-- The number has a nearest binary64. -/
def finite (value : ℚ) : Bool := (float64 value).isSome

/-! ## What is read -/

namespace Json

/-- The values under a name, however it is spelled. -/
def under (name : String) (members : List (String × Json)) : List Json := (members.filter fun m => names name m.1).map Prod.snd

/-- The last value that is not null. -/
def latest (js : List Json) : Json := js.foldl (fun old j => if j.isNull then old else j) .null

/-- The last value. -/
def last (js : List Json) : Json := js.getLast?.getD .null

/-- What was read into the places of a slice, and how many of them it has now. -/
structure Places where
  seen : List (List Json)
  length : Nat

/-- The items go to the places in order. -/
def pour : List (List Json) → List Json → List (List Json)
  | seen, [] => seen
  | [], j :: js => [j] :: pour [] js
  | s :: seen, j :: js => (s ++ [j]) :: pour seen js

def Places.read (p : Places) : Json → Places
  | .array (j :: js) => ⟨pour p.seen (j :: js), (j :: js).length⟩
  | _ => ⟨[], 0⟩

def places (js : List Json) : Places := js.foldl Places.read ⟨[], 0⟩

/-- What was read into each item: the array is the last one, and an item of it lies on those that stood in its place since the last
`null` or empty array. -/
def Places.items (p : Places) : List (List Json) := p.seen.take p.length

/-- What was read into each place behind the items. -/
def Places.kept (p : Places) : List (List Json) := p.seen.drop p.length

theorem under_concat (name : String) (members : List (String × Json)) (m : String × Json) :
    under name (members ++ [m]) = under name members ++ if names name m.1 then [m.2] else [] := by
  unfold under
  rw [List.filter_append, List.map_append]
  by_cases h : names name m.1 = true
  · simp [h]
  · simp [h]

@[simp] theorem latest_concat (js : List Json) (j : Json) : latest (js ++ [j]) = if j.isNull then latest js else j := by
  simp [latest]

@[simp] theorem last_concat (js : List Json) (j : Json) : last (js ++ [j]) = j := by
  simp [last]

@[simp] theorem places_concat (js : List Json) (j : Json) : places (js ++ [j]) = (places js).read j := by
  simp [places]

theorem drop_pour (seen : List (List Json)) (js : List Json) : (pour seen js).drop js.length = seen.drop js.length := by
  induction js generalizing seen with
  | nil => rfl
  | cons j rest ih =>
    cases seen with
    | nil =>
      show (pour [] rest).drop rest.length = _
      rw [ih, List.drop_nil, List.drop_nil]
    | cons s seen => exact ih seen

end Json

section Reads

open Schema
open Json hiding string number array object

/-- A decoder that decodes the documents of a schema, and what it makes of a value that is named several times. -/
structure Reads {α : Type} (decode : Decoder α) (zero : α) (s : Schema) (value : List Json → α) : Prop where
  start : value [] = zero
  next : ∀ js j, (decode j (value js)).toOption = if s j then some (value (js ++ [j])) else none

variable {place : Place}

theorem reads_string : Reads (decodeString place) "" (nullable string) fun js => (latest js).text :=
  ⟨rfl, fun js j => by cases j <;> simp [decodeString, nullable, string, isNull, text, Except.toOption]⟩

theorem reads_bool : Reads (decodeBool place) false (nullable boolean) fun js => (latest js).flag :=
  ⟨rfl, fun js j => by cases j <;> simp [decodeBool, nullable, boolean, isNull, flag, Except.toOption]⟩

theorem reads_float64 : Reads (decodeFloat64 place) 0 (nullable (number finite)) fun js => (latest js).float := by
  refine ⟨rfl, fun js j => ?_⟩
  cases j with
  | number literal value =>
    have now : latest (js ++ [.number literal value]) = .number literal value := latest_concat js _
    rw [now]
    unfold decodeFloat64 nullable number finite float
    simp only
    cases float64 value <;> rfl
  | _ => simp [decodeFloat64, nullable, number, isNull, Except.toOption]

theorem reads_pointer_string : Reads (decodePointer "" (decodeString place)) none (nullable string) fun js => (last js).text? :=
  ⟨rfl, fun js j => by cases j <;> simp [decodePointer, decodeString, nullable, string, text?, Except.map, Except.toOption]⟩

theorem reads_pointer_bool : Reads (decodePointer false (decodeBool place)) none (nullable boolean) fun js => (last js).flag? :=
  ⟨rfl, fun js j => by cases j <;> simp [decodePointer, decodeBool, nullable, boolean, flag?, Except.map, Except.toOption]⟩

/-- What a read came to, by its condition. -/
theorem reads_cases {ε β : Type} {r : Except ε β} {holds : Bool} {v : β} (h : r.toOption = if holds then some v else none) :
    holds = true ∧ r = .ok v ∨ holds = false ∧ ∃ e, r = .error e := by
  cases holds with
  | true =>
    cases r with
    | ok w => exact .inl ⟨rfl, congrArg Except.ok (Option.some.inj h)⟩
    | error e => cases h
  | false =>
    cases r with
    | ok w => cases h
    | error e => exact .inr ⟨rfl, e, rfl⟩

section Items

variable {β : Type} {zero : β} {decode : Decoder β} {s : Schema} {value : List Json → β}

/-- The items of an array are each decoded onto what was read into their place. -/
theorem decodeItems_reads (reads : Reads decode zero s value) (seen : List (List Json)) (js : List Json) :
    (decodeItems zero decode js (seen.map value)).toOption =
      if js.all s then some (((pour seen js).take js.length).map value) else none := by
  induction js generalizing seen with
  | nil => rfl
  | cons j rest ih =>
    -- what stands in the first place, and what is read into the others
    obtain ⟨here, others, old, tail, poured⟩ : ∃ here others, (seen.map value).head?.getD zero = value here ∧
        (seen.map value).tail = others.map value ∧ pour seen (j :: rest) = (here ++ [j]) :: pour others rest := by
      cases seen with
      | nil => exact ⟨[], [], reads.start.symm, rfl, rfl⟩
      | cons s seen => exact ⟨s, seen, rfl, rfl, rfl⟩
    unfold decodeItems
    rw [old, tail, poured, List.all_cons, List.length_cons, List.take_succ_cons, List.map_cons]
    rcases reads_cases (reads.next here j) with ⟨holds, item⟩ | ⟨fails, e, item⟩
    · rw [holds, item]
      rcases reads_cases (ih others) with ⟨holds, items⟩ | ⟨fails, e, items⟩
      · rw [holds]
        show (decodeItems zero decode rest (others.map value) >>= fun items => Except.ok (value (here ++ [j]) :: items)).toOption = _
        rw [items]
        rfl
      · rw [fails]
        show (decodeItems zero decode rest (others.map value) >>= fun items => Except.ok (value (here ++ [j]) :: items)).toOption = _
        rw [items]
        rfl
    · rw [fails, item]
      rfl

/-- What a slice holds. -/
def Slice.of (value : List Json → β) (p : Places) : Slice β := ⟨p.items.map value, p.kept.map value⟩

/-- A slice is read place by place. -/
theorem reads_slice (reads : Reads decode zero s value) :
    Reads (decodeSlice place zero decode) ⟨[], []⟩ (nullable (array s none)) fun js => Slice.of value (places js) := by
  refine ⟨rfl, fun js j => ?_⟩
  rw [places_concat]
  cases j with
  | array items =>
    cases items with
    | nil => rfl
    | cons j rest =>
      have whole : (places js).items.map value ++ (places js).kept.map value = (places js).seen.map value := by
        rw [← List.map_append]
        exact congrArg _ (List.take_append_drop _ _)
      unfold decodeSlice Slice.of
      simp only [whole]
      unfold nullable array
      simp only [Option.all_none, Bool.and_true]
      rcases reads_cases (decodeItems_reads reads (places js).seen (j :: rest)) with ⟨holds, items⟩ | ⟨fails, e, items⟩
      · rw [holds, items, ← List.map_drop, ← drop_pour]
        rfl
      · rw [fails, items]
        rfl
  | _ => rfl

end Items

/-! ### Structs -/

section Struct

variable {α : Type}

/-- A field of a struct whose value is made of what was read into each of its fields. -/
structure Part (v : (String → List Json) → α) (f : String × Decoder α) (p : String × Schema) : Prop where
  name : f.1 = p.1
  next : ∀ look j, (f.2 j (v look)).toOption = if p.2 j then some (v (Function.update look f.1 (look f.1 ++ [j]))) else none

theorem Reads.part {β : Type} {decode : Decoder β} {zero : β} {s : Schema} {value : List Json → β} (reads : Reads decode zero s value)
    {v : (String → List Json) → α} {name : String} {f : Decoder α} {set : (String → List Json) → β → α}
    (split : ∀ look j, f j (v look) = (decode j (value (look name))).map (set look))
    (put : ∀ look js, set look (value js) = v (Function.update look name js)) : Part v (name, f) (name, s) := by
  refine ⟨rfl, fun look j => ?_⟩
  show (f j (v look)).toOption = if s j then some (v (Function.update look name (look name ++ [j]))) else none
  rw [split, ← put]
  rcases reads_cases (reads.next (look name) j) with ⟨holds, read⟩ | ⟨fails, e, read⟩
  · simp only [holds, read, if_true]
    rfl
  · simp only [fails, read, Bool.false_eq_true, if_false]
    rfl

theorem names_fold {f key : String} (h : names f key = true) : key.toList.map foldChar = f.toList.map foldChar := by
  unfold names at h
  rw [Bool.or_eq_true, decide_eq_true_eq, beq_iff_eq] at h
  rcases h with rfl | same
  · rfl
  · exact same

/-- Only the field it names makes something of a member. -/
theorem decodeMember_reads {fields : List (String × Decoder α)} {properties : List (String × Schema)} {v : (String → List Json) → α}
    (apart : ∀ f ∈ fields.map Prod.fst, ∀ g ∈ fields.map Prod.fst, f.toList.map foldChar = g.toList.map foldChar → f = g)
    (unique : (fields.map Prod.fst).Nodup) (congr : ∀ look look', (∀ k ∈ fields.map Prod.fst, look k = look' k) → v look = v look')
    (parts : List.Forall₂ (Part v) fields properties) (members : List (String × Json)) (m : String × Json) :
    (decodeMember fields (.ok (v fun k => under k members)) m).toOption =
      if properties.all fun p => !names p.1 m.1 || p.2 m.2 then some (v fun k => under k (members ++ [m])) else none := by
  have sameNames : fields.map Prod.fst = properties.map Prod.fst := by
    clear apart unique congr
    induction parts with
    | nil => rfl
    | cons part _ ih => exact congrArg₂ List.cons part.name ih
  unfold decodeMember
  cases found : fields.find? fun f => names f.1 m.1 with
  | none =>
    have unnamed : ∀ k ∈ fields.map Prod.fst, names k m.1 = false := by
      intro k mem
      obtain ⟨f, there, rfl⟩ := List.mem_map.1 mem
      exact Bool.eq_false_iff.2 (List.find?_eq_none.1 found f there)
    have fits : (properties.all fun p => !names p.1 m.1 || p.2 m.2) = true := by
      refine List.all_eq_true.2 fun p mem => ?_
      rw [unnamed p.1 (sameNames ▸ List.mem_map_of_mem mem)]
      rfl
    have same : (v fun k => under k (members ++ [m])) = v fun k => under k members := by
      refine congr _ _ fun k mem => ?_
      rw [under_concat, unnamed k mem]
      exact List.append_nil _
    rw [fits, same]
    rfl
  | some f =>
    have mem := List.mem_of_find?_eq_some found
    have named := @List.find?_some _ (fun f : String × Decoder α => names f.1 m.1) _ _ found
    obtain ⟨p, there, part⟩ : ∃ p ∈ properties, Part v f p := by
      clear sameNames apart unique congr found
      induction parts with
      | nil => cases mem
      | cons part _ ih =>
        rcases List.mem_cons.1 mem with rfl | mem
        · exact ⟨_, List.mem_cons_self, part⟩
        · obtain ⟨p, there, part⟩ := ih mem
          exact ⟨p, List.mem_cons_of_mem _ there, part⟩
    have other : ∀ k ∈ fields.map Prod.fst, names k m.1 = true → k = f.1 := by
      intro k mem' named'
      exact apart k mem' f.1 (List.mem_map_of_mem mem) ((names_fold named').symm.trans (names_fold named))
    have fits : (properties.all fun p => !names p.1 m.1 || p.2 m.2) = p.2 m.2 := by
      rw [Bool.eq_iff_iff, List.all_eq_true]
      constructor
      · intro all
        have here := all p there
        rw [← part.name, named] at here
        exact here
      · intro holds q mem'
        by_cases hit : names q.1 m.1 = true
        · have same := other q.1 (sameNames ▸ List.mem_map_of_mem mem') hit
          rw [List.inj_on_of_nodup_map (sameNames ▸ unique) mem' there (same.trans part.name), holds, Bool.or_true]
        · rw [Bool.eq_false_iff.2 hit]
          rfl
    have same : (v fun k => under k (members ++ [m])) =
        v (Function.update (fun k => under k members) f.1 (under f.1 members ++ [m.2])) := by
      refine congr _ _ fun k mem' => ?_
      rw [under_concat]
      by_cases hit : k = f.1
      · rw [hit, named, if_pos rfl, Function.update_self]
      · rw [Function.update_of_ne hit, if_neg fun named' => hit (other k mem' named'), List.append_nil]
    rw [fits, same]
    exact part.next _ _

theorem foldl_error (fields : List (String × Decoder α)) (members : List (String × Json)) (e : String) :
    members.foldl (decodeMember fields) (.error e) = .error e := by
  induction members with
  | nil => rfl
  | cons m rest ih =>
    have stays : decodeMember fields (.error e) m = .error e := by
      unfold decodeMember
      split <;> rfl
    rw [List.foldl_cons, stays, ih]

/-- A struct is read field by field, from the members of all its objects. -/
theorem reads_struct {fields : List (String × Decoder α)} {properties : List (String × Schema)} {v : (String → List Json) → α}
    (apart : ∀ f ∈ fields.map Prod.fst, ∀ g ∈ fields.map Prod.fst, f.toList.map foldChar = g.toList.map foldChar → f = g)
    (unique : (fields.map Prod.fst).Nodup) (congr : ∀ look look', (∀ k ∈ fields.map Prod.fst, look k = look' k) → v look = v look')
    (parts : List.Forall₂ (Part v) fields properties) :
    Reads (decodeStruct place fields) (v fun _ => []) (nullable (spelled properties)) fun js =>
      v fun k => under k (js.flatMap members) := by
  refine ⟨rfl, fun js j => ?_⟩
  rw [List.flatMap_append, List.flatMap_singleton]
  generalize js.flatMap members = old
  cases j with
  | null =>
    show some (v fun k => under k old) = some (v fun k => under k (old ++ []))
    rw [List.append_nil]
  | object ms =>
    show (ms.foldl (decodeMember fields) (.ok (v fun k => under k old))).toOption =
      if ms.all (fun m => properties.all fun p => !names p.1 m.1 || p.2 m.2) then some (v fun k => under k (old ++ ms)) else none
    induction ms generalizing old with
    | nil =>
      rw [List.append_nil]
      rfl
    | cons m rest ih =>
      rw [List.foldl_cons, List.all_cons]
      rcases reads_cases (decodeMember_reads apart unique congr parts old m) with ⟨holds, read⟩ | ⟨fails, e, read⟩
      · rw [holds, read, ih, List.append_assoc, List.singleton_append, Bool.true_and]
      · rw [fails, read, foldl_error]
        rfl
  | _ => rfl

/-- A member that stands under the name itself is one of its spellings. -/
theorem all_of_spelled {properties : List (String × Schema)} {ms : List (String × Json)} (h : spelled properties (.object ms) = true) :
    ∀ p ∈ properties, (member? p.1 ms).all p.2 = true := by
  intro p mem
  cases found : member? p.1 ms with
  | none => rfl
  | some j =>
    unfold member? at found
    obtain ⟨m, hit, rfl⟩ := Option.map_eq_some_iff.1 found
    have named := List.find?_some hit
    rw [decide_eq_true_eq] at named
    have there := List.mem_reverse.1 (List.mem_of_find?_eq_some hit)
    have fits := List.all_eq_true.1 (List.all_eq_true.1 h m there) p mem
    have spells : names p.1 m.1 = true := by
      unfold names
      rw [decide_eq_true named, Bool.true_or]
    rw [spells] at fits
    exact fits

end Struct

end Reads

end NovoApex.Lib
