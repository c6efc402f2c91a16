import NovoApex.Lib.Window
import NovoApex.Workers.Orchestrator
import Mathlib.Data.List.Count

/-!
# The history of a turn

`orchFetchConversationHistory` shows the LLM the newest ten messages of a conversation
since the last settled order, from the last long pause on. It fetches ten of either
direction, which loses nothing. A pause is measured in nanoseconds, in 64 bits:
`orchFetchConversationHistory_iff` says when that finds the pauses it should.

The database and `sort.Slice` leave the order of equal times open; `Ties` stands for
what they choose.
-/

namespace NovoApex.Turns.History
set_option autoImplicit false
open Lib

/-! ## Rows and messages -/

/-- `MessagePart`. -/
structure MessagePart where
  type : String
  text : String
  imageURL : String
  deriving DecidableEq

/-- `ChatMessage`. -/
structure ChatMessage where
  role : String
  parts : List MessagePart
  deriving DecidableEq

/-- `inbound_messages`, with the time in milliseconds. -/
structure InboundText where
  conversationID : Option String
  textContent : Option String
  timestamp : Int
  deriving DecidableEq

/-- `outbound_messages`, with the time in milliseconds. -/
structure OutboundText where
  conversationID : Option String
  textContent : Option String
  templateName : Option String
  createdAt : Int
  deriving DecidableEq

/-- What the history reads beside the orders. -/
structure Records where
  /-- `SELECT customer_id FROM conversations WHERE id = $1`. -/
  customerOf : String → Option String
  inbound : List InboundText
  outbound : List OutboundText

/-- `item`. -/
structure Item where
  role : String
  content : String
  time : Int
  deriving DecidableEq

/-- How equal times are ordered, by the two queries and by `sort.Slice`. -/
structure Ties where
  inbound : Sorting fun a b : InboundText => b.timestamp ≤ a.timestamp
  outbound : Sorting fun a b : OutboundText => b.createdAt ≤ a.createdAt
  history : Sorting fun a b : Item => a.time ≤ b.time

def InboundText.item (m : InboundText) : Item := ⟨"user", m.textContent.getD "", m.timestamp⟩

def OutboundText.item (m : OutboundText) : Item := ⟨"assistant", stripInternalProductIDs (m.textContent.getD ""), m.createdAt⟩

/-! ## The code -/

/-- `LIKE`, with `%` the only wildcard. -/
def like : List Char → List Char → Bool
  | [], text => text.isEmpty
  | '%' :: pattern, text => text.tails.any (like pattern)
  | c :: pattern, d :: text => c == d && like pattern text
  | _ :: _, [] => false

/-- A reply that is not a payment notice: `NOT LIKE` of no text is not true. -/
def OutboundText.isConversational (m : OutboundText) : Bool :=
  match m.textContent with
  | none => false
  | some text =>
    !like "✅ Payment of % received%".toList text.toList && !like "%Tap the link below to pay securely%".toList text.toList &&
      m.templateName.isNone

/-- `'PAID', 'PROCESSING', 'SHIPPED', 'DELIVERED'`. -/
def isSettled : OrderStatus → Bool
  | .paid | .processing | .shipped | .delivered => true
  | _ => false

/-- A settled order of the conversation or of its customer. -/
def settledFor (records : Records) (conversationID : String) (o : Order) : Bool :=
  (decide (o.conversationID = some conversationID) || decide (records.customerOf conversationID = some o.customerID)) && isSettled o.status

/-- A day ago, in microseconds as `now`. -/
def dayAgo (now : Int) : Int := now - orch24hWindow * 1000

/-- `since`: a day ago, or the time of the latest settled order. -/
def since (orders : List Order) (records : Records) (conversationID : String) (now : Int) : Int :=
  match ((orders.filter (settledFor records conversationID)).map fun o => (o.updatedAt : Int)).max? with
  | some latestPaidAt => if latestPaidAt * 1000 > dayAgo now then latestPaidAt * 1000 else dayAgo now
  | none => dayAgo now

/-- `time.Duration(b-a)*time.Millisecond > orchSessionInactivityGap`. -/
def sessionGap (a b : Int) : Bool := decide (Int64.ofInt (b - a) * 1000000 > 2 * 60 * 60 * 1000000000)

/-- `strings.TrimSpace(content) == ""`. -/
def isBlank (content : String) : Bool := (trimSpace content.toList).isEmpty

/-- The messages of some items, less the blank ones. -/
def messagesOf (history : List Item) : List ChatMessage :=
  (history.filter fun h => !isBlank h.content).map fun h => ⟨h.role, [⟨"text", h.content, ""⟩]⟩

/-- `orchFetchConversationHistory`. -/
def orchFetchConversationHistory (ties : Ties) (orders : List Order) (records : Records) (conversationID : String) (now : Int) :
    List ChatMessage :=
  let since := since orders records conversationID now
  let inRows := (ties.inbound.sort (records.inbound.filter fun m =>
    decide (m.conversationID = some conversationID) && decide (m.timestamp * 1000 > since))).take 10
  let outRows := (ties.outbound.sort (records.outbound.filter fun m =>
    decide (m.conversationID = some conversationID) && decide (m.createdAt * 1000 > since) && m.isConversational)).take 10
  let history := ties.history.sort (inRows.map InboundText.item ++ outRows.map OutboundText.item)
  messagesOf (afterLastGap (fun a b => sessionGap a.time b.time) (newest 10 history))

/-! ## The reference -/

/-- Later than a day ago and than every settled order of the conversation or its customer. -/
def InWindow (orders : List Order) (records : Records) (conversationID : String) (now time : Int) : Prop :=
  dayAgo now < time * 1000 ∧ ∀ o ∈ orders, settledFor records conversationID o = true → (o.updatedAt : Int) < time

instance (orders : List Order) (records : Records) (conversationID : String) (now time : Int) :
    Decidable (InWindow orders records conversationID now time) := inferInstanceAs (Decidable (_ ∧ _))

/-- The messages that may be shown. -/
def eligible (orders : List Order) (records : Records) (conversationID : String) (now : Int) : List Item :=
  (records.inbound.filter fun m =>
    decide (m.conversationID = some conversationID) && decide (InWindow orders records conversationID now m.timestamp)).map InboundText.item ++
  (records.outbound.filter fun m =>
    decide (m.conversationID = some conversationID) && decide (InWindow orders records conversationID now m.createdAt) &&
      m.isConversational).map OutboundText.item

/-- More than two hours. -/
def longPause (a b : Int) : Bool := decide (b - a > 2 * 60 * 60 * 1000)

/-- The non-blank messages of the longest stretch without a long pause, at the end of the newest ten. -/
def Reference (items : List Item) (answer : List ChatMessage) : Prop :=
  ∃ all session : List Item, all.Perm items ∧ (all.Pairwise fun a b => a.time ≤ b.time) ∧
    LongestSuffix (Gapless fun a b => longPause a.time b.time) (newest 10 all) session ∧ answer = messagesOf session

/-- The times of the newest ten messages. -/
def recentTimes (items : List Item) : List Int := newest 10 (timeline Item.time items)

/-- A long pause after a message that is not blank is followed or found by the scan. -/
def PausesFound (items : List Item) : Prop :=
  ∀ x ∈ items, isBlank x.content = false → x.time ∈ recentTimes items → GapFrom longPause (recentTimes items) x.time →
    GapFrom sessionGap (recentTimes items) x.time

/-! ## The boundary -/

theorem since_lt {orders : List Order} {records : Records} {conversationID : String} {now time : Int} :
    since orders records conversationID now < time * 1000 ↔ InWindow orders records conversationID now time := by
  unfold since InWindow
  split
  · rename_i latest isLatest
    obtain ⟨mem, above⟩ := List.max?_eq_some_iff.1 isLatest
    obtain ⟨o, settled, rfl⟩ := List.mem_map.1 mem
    rw [List.mem_filter] at settled
    have all : (o.updatedAt : Int) < time ↔
        ∀ o ∈ orders, settledFor records conversationID o = true → (o.updatedAt : Int) < time := by
      constructor
      · intro less other here counts
        have := above _ (List.mem_map_of_mem (List.mem_filter.2 ⟨here, counts⟩))
        omega
      · exact fun less => less o settled.1 settled.2
    rw [← all]
    split <;> omega
  · rename_i nothing
    have nobody := List.map_eq_nil_iff.1 (List.max?_eq_none_iff.1 nothing)
    constructor
    · refine fun less => ⟨less, fun o here counts => ?_⟩
      have := List.mem_filter.2 ⟨here, counts⟩
      rw [nobody] at this
      cases this
    · exact fun within => within.1

/-! ## Pauses -/

theorem sessionGap_self (a : Int) : sessionGap a a = false := by
  unfold sessionGap
  rw [Int.sub_self]
  decide

theorem longPause_self (a : Int) : longPause a a = false := by
  unfold longPause
  rw [Int.sub_self]
  decide

/-- Less than 292 years do not wrap. -/
theorem sessionGap_eq_longPause {a b : Int} (le : a ≤ b) (close : b - a < 9223372036854) : sessionGap a b = longPause a b := by
  have factor : (1000000 : Int64).toInt = 1000000 := by decide
  have bound : (2 * 60 * 60 * 1000000000 : Int64).toInt = 7200000000000 := by decide
  have product : (Int64.ofInt (b - a) * 1000000).toInt = (b - a) * 1000000 := by
    rw [Int64.toInt_mul, factor, Int64.toInt_ofInt_of_le (by omega) (by omega), Int.bmod_eq_of_le (by omega) (by omega)]
  unfold sessionGap longPause
  rw [decide_eq_decide, gt_iff_lt, Int64.lt_iff_toInt_lt, bound, product]
  omega

/-- A pause the scan finds is long: what is short does not wrap. -/
theorem longPause_of_sessionGap {a b : Int} (le : a ≤ b) (found : sessionGap a b = true) : longPause a b = true := by
  by_cases close : b - a < 9223372036854
  · rwa [← sessionGap_eq_longPause le close]
  · unfold longPause
    rw [decide_eq_true_eq]
    omega

theorem gapFrom_long {line : List Int} (sorted : line.Pairwise (· ≤ ·)) {t : Int} (found : GapFrom sessionGap line t) :
    GapFrom longPause line t := by
  obtain ⟨before, a, b, after, rfl, from_t, gap⟩ := found
  have le : a ≤ b := List.rel_of_pairwise_cons (List.pairwise_append.1 sorted).2.1 List.mem_cons_self
  exact ⟨before, a, b, after, rfl, from_t, longPause_of_sessionGap le gap⟩

theorem recentTimes_sorted (items : List Item) : (recentTimes items).Pairwise (· ≤ ·) :=
  (timeline_sorted items).sublist (newest_suffix _ _).sublist

/-! ## The newest ten -/

section Window

variable {ties : Ties} {orders : List Order} {records : Records} {conversationID : String} {now : Int}

/-- The rows of the two queries, before their limits. -/
def inboundRows (orders : List Order) (records : Records) (conversationID : String) (now : Int) : List InboundText :=
  records.inbound.filter fun m =>
    decide (m.conversationID = some conversationID) && decide (InWindow orders records conversationID now m.timestamp)

def outboundRows (orders : List Order) (records : Records) (conversationID : String) (now : Int) : List OutboundText :=
  records.outbound.filter fun m =>
    decide (m.conversationID = some conversationID) && decide (InWindow orders records conversationID now m.createdAt) && m.isConversational

theorem eligible_eq : eligible orders records conversationID now =
    (inboundRows orders records conversationID now).map InboundText.item ++
      (outboundRows orders records conversationID now).map OutboundText.item := rfl

/-- What the function merges. -/
def fetched (ties : Ties) (orders : List Order) (records : Records) (conversationID : String) (now : Int) : List Item :=
  ties.history.sort (((ties.inbound.sort (inboundRows orders records conversationID now)).take 10).map InboundText.item ++
    ((ties.outbound.sort (outboundRows orders records conversationID now)).take 10).map OutboundText.item)

theorem orchFetchConversationHistory_eq : orchFetchConversationHistory ties orders records conversationID now =
    messagesOf (afterLastGap (fun a b => sessionGap a.time b.time) (newest 10 (fetched ties orders records conversationID now))) := by
  unfold orchFetchConversationHistory fetched inboundRows outboundRows
  simp only [gt_iff_lt, since_lt]

/-- Ten of either side are enough. -/
theorem newest_fetched : ∃ all : List Item, all.Perm (eligible orders records conversationID now) ∧
    (all.Pairwise fun a b => a.time ≤ b.time) ∧ newest 10 all = newest 10 (fetched ties orders records conversationID now) := by
  rw [eligible_eq]
  have inboundSorted : ((ties.inbound.sort (inboundRows orders records conversationID now)).map InboundText.item).Pairwise
      fun a b => b.time ≤ a.time := List.pairwise_map.2 (ties.inbound.sorted _)
  have outboundSorted : ((ties.outbound.sort (outboundRows orders records conversationID now)).map OutboundText.item).Pairwise
      fun a b => b.time ≤ a.time := List.pairwise_map.2 (ties.outbound.sorted _)
  apply newest_merge ((ties.inbound.perm _).map _) ((ties.outbound.perm _).map _) inboundSorted outboundSorted
  · rw [← List.map_take, ← List.map_take]
    exact ties.history.perm _
  · exact ties.history.sorted _

theorem mem_eligible {x : Item} (recent : x ∈ newest 10 (fetched ties orders records conversationID now)) :
    x ∈ eligible orders records conversationID now := by
  obtain ⟨all, perm, -, same⟩ := @newest_fetched ties orders records conversationID now
  rw [← same] at recent
  exact perm.mem_iff.1 ((newest_suffix _ _).subset recent)

end Window

/-! ## What is shown -/

section Shown

variable {items all : List Item}

/-- A message of the newest ten that a cut at the last gap leaves, and the blank filter too. -/
def shows (gap : Int → Int → Bool) (items : List Item) (x : Item) : Bool :=
  !isBlank x.content && decide (x.time ∈ afterLastGap gap (recentTimes items))

theorem times_of_newest (perm : all.Perm items) (sorted : all.Pairwise fun a b => a.time ≤ b.time) :
    (newest 10 all).map Item.time = recentTimes items := by
  rw [← newest_map, map_key_eq_timeline perm sorted]
  rfl

theorem newest_sorted (sorted : all.Pairwise fun a b => a.time ≤ b.time) : (newest 10 all).Pairwise fun a b => a.time ≤ b.time :=
  sorted.sublist (newest_suffix _ _).sublist

theorem messages_afterLastGap {gap : Int → Int → Bool} (still : ∀ a, gap a a = false) (perm : all.Perm items)
    (sorted : all.Pairwise fun a b => a.time ≤ b.time) :
    messagesOf (afterLastGap (fun a b => gap a.time b.time) (newest 10 all)) =
      ((newest 10 all).filter (shows gap items)).map fun h => ⟨h.role, [⟨"text", h.content, ""⟩]⟩ := by
  unfold messagesOf
  rw [afterLastGap_filter still (newest_sorted sorted), List.filter_filter, times_of_newest perm sorted]
  rfl

theorem shows_iff {gap : Int → Int → Bool} (still : ∀ a, gap a a = false) {x : Item} :
    shows gap items x = true ↔
      isBlank x.content = false ∧ x.time ∈ recentTimes items ∧ ¬ GapFrom gap (recentTimes items) x.time := by
  unfold shows
  rw [Bool.and_eq_true, Bool.not_eq_true', decide_eq_true_eq, mem_afterLastGap still (recentTimes_sorted items)]

/-- Any arrangement of the messages has one answer, up to the order of equal times. -/
theorem Reference.answer {answer : List ChatMessage} (reference : Reference items answer) :
    ∃ all : List Item, all.Perm items ∧ (all.Pairwise fun a b => a.time ≤ b.time) ∧
      answer = ((newest 10 all).filter (shows longPause items)).map fun h => ⟨h.role, [⟨"text", h.content, ""⟩]⟩ := by
  obtain ⟨all, session, perm, sorted, longest, rfl⟩ := reference
  refine ⟨all, perm, sorted, ?_⟩
  rw [longest.unique (afterLastGap_longest _), messages_afterLastGap longPause_self perm sorted]

theorem shows_of_longPause {x : Item} (here : shows longPause items x = true) : shows sessionGap items x = true := by
  obtain ⟨notBlank, recent, clear⟩ := (shows_iff longPause_self).1 here
  exact (shows_iff sessionGap_self).2 ⟨notBlank, recent, fun found => clear (gapFrom_long (recentTimes_sorted items) found)⟩

/-- If there is a long pause, the messages after it are the same in every arrangement. -/
theorem countP_shows {t : Int} (paused : GapFrom longPause (recentTimes items) t) (perm : all.Perm items)
    (sorted : all.Pairwise fun a b => a.time ≤ b.time) :
    (newest 10 all).countP (shows longPause items) = items.countP (shows longPause items) := by
  have split : all.take (all.length - 10) ++ newest 10 all = all := List.take_append_drop _ _
  have older : (all.take (all.length - 10)).countP (shows longPause items) = 0 := by
    rw [List.countP_eq_zero]
    intro x left here
    obtain ⟨-, -, clear⟩ := (shows_iff longPause_self).1 here
    obtain ⟨before, a, b, after, cut, -, found⟩ := paused
    have onLine : a ∈ recentTimes items := by
      rw [cut]
      exact List.mem_append_right _ List.mem_cons_self
    rw [← times_of_newest perm sorted] at onLine
    obtain ⟨y, recent, rfl⟩ := List.mem_map.1 onLine
    rw [← split] at sorted
    exact clear ⟨before, y.time, b, after, cut, (List.pairwise_append.1 sorted).2.2 x left y recent, found⟩
  rw [← perm.countP_eq, ← split, List.countP_append, older, Nat.zero_add, split]

end Shown

section Answers

variable {ties : Ties} {orders : List Order} {records : Records} {conversationID : String} {now : Int}

/-- The answer is right where the scan finds every pause that matters. -/
theorem reference_of_found (found : PausesFound (eligible orders records conversationID now)) :
    Reference (eligible orders records conversationID now) (orchFetchConversationHistory ties orders records conversationID now) := by
  obtain ⟨all, perm, sorted, same⟩ := @newest_fetched ties orders records conversationID now
  refine ⟨all, afterLastGap (fun a b => longPause a.time b.time) (newest 10 all), perm, sorted, afterLastGap_longest _, ?_⟩
  rw [orchFetchConversationHistory_eq, ← same, messages_afterLastGap sessionGap_self perm sorted,
    messages_afterLastGap longPause_self perm sorted]
  congr 1
  apply List.filter_congr
  intro x recent
  rw [Bool.eq_iff_iff]
  refine ⟨fun here => ?_, shows_of_longPause⟩
  obtain ⟨notBlank, onLine, clear⟩ := (shows_iff sessionGap_self).1 here
  have eligible := perm.mem_iff.1 ((newest_suffix _ _).subset recent)
  exact (shows_iff longPause_self).2 ⟨notBlank, onLine, fun paused => clear (found x eligible notBlank onLine paused)⟩

/-- A message before a pause that the scan does not find is one too many. -/
theorem not_reference {x : Item} (shown : x ∈ newest 10 (fetched ties orders records conversationID now))
    (notBlank : isBlank x.content = false) (paused : GapFrom longPause (recentTimes (eligible orders records conversationID now)) x.time)
    (missed : ¬ GapFrom sessionGap (recentTimes (eligible orders records conversationID now)) x.time) :
    ¬ Reference (eligible orders records conversationID now) (orchFetchConversationHistory ties orders records conversationID now) := by
  intro reference
  obtain ⟨other, otherPerm, otherSorted, answer⟩ := reference.answer
  obtain ⟨all, perm, sorted, same⟩ := @newest_fetched ties orders records conversationID now
  generalize orders_items : eligible orders records conversationID now = items at *
  rw [orchFetchConversationHistory_eq, ← same, messages_afterLastGap sessionGap_self perm sorted] at answer
  have lengths := congrArg List.length answer
  rw [List.length_map, List.length_map, ← List.countP_eq_length_filter, ← List.countP_eq_length_filter,
    countP_shows paused otherPerm otherSorted, ← countP_shows paused perm sorted] at lengths
  rw [← same] at shown
  have fewer : ((newest 10 all).filter (shows sessionGap items)).countP (shows longPause items) <
      ((newest 10 all).filter (shows sessionGap items)).length := by
    rw [List.countP_lt_length_iff]
    have onLine : x.time ∈ recentTimes items := by
      rw [← times_of_newest perm sorted]
      exact List.mem_map_of_mem shown
    refine ⟨x, List.mem_filter.2 ⟨shown, (shows_iff sessionGap_self).2 ⟨notBlank, onLine, missed⟩⟩, ?_⟩
    rw [← Bool.not_eq_true, shows_iff longPause_self]
    exact fun here => here.2.2 paused
  rw [List.countP_filter, ← List.countP_eq_length_filter, lengths] at fewer
  have same_count : (newest 10 all).countP (fun a => shows longPause items a && shows sessionGap items a) =
      (newest 10 all).countP (shows longPause items) := by
    apply List.countP_congr
    intro y _
    rw [Bool.and_eq_true]
    exact ⟨fun both => both.1, fun here => ⟨here, shows_of_longPause here⟩⟩
  omega

/-- Ties that prefer a message. -/
def Ties.favor (i : InboundText) (o : OutboundText) (x : Item) : Ties where
  inbound := (Sorting.favor InboundText.timestamp i).reversed
  outbound := (Sorting.favor OutboundText.createdAt o).reversed
  history := Sorting.favor Item.time x

/-- No order of equal times depends on what else is read. -/
structure Ties.Steady (ties : Ties) : Prop where
  inbound : ties.inbound.Steady
  outbound : ties.outbound.Steady
  history : ties.history.Steady

theorem Ties.steady_favor (i : InboundText) (o : OutboundText) (x : Item) : (Ties.favor i o x).Steady :=
  ⟨Sorting.steady_favor.reversed, Sorting.steady_favor.reversed, Sorting.steady_favor⟩

theorem few_eligible {items : List Item} {x : Item} (onLine : x.time ∈ recentTimes items) :
    items.countP (fun y => decide (x.time < y.time)) < 10 := by
  have few := few_newer (timeline_sorted items) onLine
  unfold timeline at few
  rwa [(Sorting.perm _ _).countP_eq, List.countP_map] at few

/-- A message that may be among the newest ten is, for some ties. -/
theorem favor_fetched {x : Item} (here : x ∈ eligible orders records conversationID now)
    (onLine : x.time ∈ recentTimes (eligible orders records conversationID now)) :
    ∃ ties : Ties, ties.Steady ∧ x ∈ newest 10 (fetched ties orders records conversationID now) := by
  have few := few_eligible onLine
  rw [eligible_eq] at here few
  have enough : ∀ ties : Ties,
      ((((ties.inbound.sort (inboundRows orders records conversationID now)).take 10).map InboundText.item ++
        ((ties.outbound.sort (outboundRows orders records conversationID now)).take 10).map OutboundText.item).countP
          fun y => decide (x.time < y.time)) < 10 := by
    intro ties
    refine lt_of_le_of_lt ?_ few
    rw [List.countP_append, List.countP_append, List.countP_map, List.countP_map, List.countP_map, List.countP_map]
    apply Nat.add_le_add
    · exact (List.take_sublist _ _).countP_le.trans_eq ((ties.inbound.perm _).countP_eq _)
    · exact (List.take_sublist _ _).countP_le.trans_eq ((ties.outbound.perm _).countP_eq _)
  rw [List.countP_append, List.countP_map, List.countP_map] at few
  rcases List.mem_append.1 here with inbound | outbound
  · obtain ⟨m, row, rfl⟩ := List.mem_map.1 inbound
    refine ⟨Ties.favor m ⟨none, none, none, 0⟩ m.item, Ties.steady_favor _ _ _, Sorting.favor_shown (List.mem_append_left _ ?_) (enough _)⟩
    apply List.mem_map_of_mem
    show m ∈ ((Sorting.favor InboundText.timestamp m).reversed.sort _).take 10
    rw [Sorting.take_reversed, List.mem_reverse]
    exact Sorting.favor_shown row (lt_of_le_of_lt (Nat.le_add_right _ _) few)
  · obtain ⟨m, row, rfl⟩ := List.mem_map.1 outbound
    refine ⟨Ties.favor ⟨none, none, 0⟩ m m.item, Ties.steady_favor _ _ _, Sorting.favor_shown (List.mem_append_right _ ?_) (enough _)⟩
    apply List.mem_map_of_mem
    show m ∈ ((Sorting.favor OutboundText.createdAt m).reversed.sort _).take 10
    rw [Sorting.take_reversed, List.mem_reverse]
    exact Sorting.favor_shown row (lt_of_le_of_lt (Nat.le_add_left _ _) few)

/-- The function answers with the reference list, whatever the order of equal times, exactly when the scan finds every long
pause that follows a message it could show. -/
theorem orchFetchConversationHistory_iff (orders : List Order) (records : Records) (conversationID : String) (now : Int) :
    (∀ ties, Reference (eligible orders records conversationID now)
      (orchFetchConversationHistory ties orders records conversationID now)) ↔
      PausesFound (eligible orders records conversationID now) := by
  constructor
  · intro right x here notBlank onLine paused
    by_contra missed
    obtain ⟨ties, -, shown⟩ := favor_fetched here onLine
    exact not_reference shown notBlank paused missed (right ties)
  · exact fun found ties => reference_of_found found

end Answers

/-- Two messages, the second dated three hundred years after the first. -/
def farApart : Records where
  customerOf _ := some "cus1"
  inbound := [⟨some "conv1", some "Do you have the red one?", 1789996400000⟩, ⟨some "conv1", some "Hello", 11257276400000⟩]
  outbound := []

def Ties.stable : Ties := ⟨Sorting.stable _, Sorting.stable _, Sorting.stable _⟩

/-- A pause of three hundred years wraps, and both messages are shown. -/
theorem far_message_shown :
    ¬ Reference (eligible [] farApart "conv1" 1790000000000000)
      (orchFetchConversationHistory Ties.stable [] farApart "conv1" 1790000000000000) := by
  have times : recentTimes (eligible [] farApart "conv1" 1790000000000000) = [1789996400000, 11257276400000] := by decide +kernel
  apply @not_reference _ _ _ _ _ (InboundText.item ⟨some "conv1", some "Do you have the red one?", 1789996400000⟩)
  · decide +kernel
  · decide +kernel
  · rw [times]
    exact ⟨[], 1789996400000, 11257276400000, [], rfl, le_rfl, by decide⟩
  · have kept : (1789996400000 : Int) ∈ afterLastGap sessionGap [1789996400000, 11257276400000] := by decide +kernel
    rw [times]
    exact ((mem_afterLastGap sessionGap_self (by decide)).1 kept).2

section Close

variable {items : List Item}

/-- Among messages of 292 years every pause is found. -/
theorem pausesFound_of_close (close : ∀ x ∈ items, ∀ y ∈ items, y.time - x.time < 9223372036854) : PausesFound items := by
  rintro x - - - ⟨before, a, b, after, cut, older, paused⟩
  have mem : ∀ t ∈ recentTimes items, ∃ y ∈ items, y.time = t := by
    intro t recent
    exact List.mem_map.1 ((Sorting.perm _ _).mem_iff.1 ((newest_suffix _ _).subset recent))
  obtain ⟨y, hy, rfl⟩ := mem a (by rw [cut]; exact List.mem_append_right _ List.mem_cons_self)
  obtain ⟨z, hz, rfl⟩ := mem b (by rw [cut]; exact List.mem_append_right _ (List.mem_cons_of_mem _ List.mem_cons_self))
  have le : y.time ≤ z.time := by
    have sorted := recentTimes_sorted items
    rw [cut] at sorted
    exact List.rel_of_pairwise_cons (List.pairwise_append.1 sorted).2.1 List.mem_cons_self
  exact ⟨before, y.time, z.time, after, cut, older, by rwa [sessionGap_eq_longPause le (close y hy z hz)]⟩

end Close

end NovoApex.Turns.History
