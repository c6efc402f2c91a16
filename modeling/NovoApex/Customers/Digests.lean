import NovoApex.Workers.NewArrivals
import NovoApex.Workers.Retention
import Mathlib.Tactic.Linarith

/-!
# Digests are an interval apart

Rows and stamps of a scan become visible together, and what it publishes is visible by
then. The lock makes the stamps that a scan reads cover every digest there is, so that
two digests of a business are the interval apart, as long as the interval is a duration:
in nanoseconds it has to fit 64 bits, and nobody checks that.
-/

namespace NovoApex.Customers
set_option autoImplicit false
open Lib Program Db Workers

/-- The interval in milliseconds. -/
def intervalMillis (deps : NewArrivalsDeps) : Int := deps.intervalDays.toInt * dayMillis

/-- The interval in nanoseconds fits 64 bits: it is 106751 days or less. -/
def IntervalFits (deps : NewArrivalsDeps) : Prop := deps.intervalDays.toInt ≤ 106751

instance (deps : NewArrivalsDeps) : Decidable (IntervalFits deps) := inferInstanceAs (Decidable (_ ≤ _))

/-- The ids of the businesses that a scan has stamped. -/
def stampedIDs (writes : List DigestWrite) : List String :=
  writes.filterMap fun
    | .row _ => none
    | .notified businessID _ => some businessID

/-- A customer was opted in when the scan read it. -/
def ReadOptedIn (w : NewArrivalsWorld) (tx customerID businessID phone : String) : Prop :=
  ∃ consent ∈ w.consents, consent.scan = tx ∧ consent.customer.id = customerID ∧ consent.customer.businessID = businessID ∧
    consent.customer.phone = phone ∧ consent.customer.marketingOptIn = true

/-- The rows of a scan: one at most for each customer of a business, who was opted in when read. -/
structure RowsRight (w : NewArrivalsWorld) (tx : String) (rows : List TemplateRow) : Prop where
  signed : ∀ r ∈ rows, r.scan = some tx
  optedIn : ∀ r ∈ rows, ReadOptedIn w tx r.customerID r.businessID r.recipientPhone
  once : (rows.map fun r => (r.businessID, r.customerID)).Nodup

/-- What the digests are to be. -/
structure DigestsRight (deps : NewArrivalsDeps) (w : NewArrivalsWorld) : Prop where
  /-- Two committed digests of a business are the interval apart. -/
  apart : ∀ tx other writes writes', tx ≠ other → w.scans.state tx = .committed writes → w.scans.state other = .committed writes' →
    ∀ businessID t t', .notified businessID t ∈ writes → .notified businessID t' ∈ writes' →
      t + intervalMillis deps ≤ t' ∨ t' + intervalMillis deps ≤ t
  /-- A scan stamps with one time. -/
  time : ∀ tx writes, w.scans.state tx = .committed writes → ∀ businessID businessID' t t',
    .notified businessID t ∈ writes → .notified businessID' t' ∈ writes → t = t'
  /-- The rows of a committed scan are there, and belong to a digest that is stamped. -/
  rows : ∀ tx writes, w.scans.state tx = .committed writes →
    RowsRight w tx (rowsOf writes) ∧ ∀ r ∈ rowsOf writes, r ∈ w.outboundMessages.rows ∧ r.businessID ∈ stampedIDs writes
  /-- A scan that has not committed leaves no rows. -/
  noRows : ∀ r ∈ w.outboundMessages.rows, ∀ tx, r.scan = some tx → ∃ writes, w.scans.state tx = .committed writes ∧ r ∈ rowsOf writes
  /-- A scan that has not committed leaves no stamp. -/
  noStamps : ∀ b ∈ w.businesses.rows, ∀ tx, b.notifiedBy = some tx → ∃ writes, w.scans.state tx = .committed writes ∧
    ∃ t, b.lastNewArrivalsNotifiedAt = some t ∧ .notified b.id t ∈ writes
  /-- What is published is the id of a committed row. -/
  published : ∀ id ∈ w.published, ∃ tx writes, w.scans.state tx = .committed writes ∧ id ∈ (rowsOf writes).map TemplateRow.id

/-- The stamp that a business has is not before any of its committed digests. -/
def LastStamp (w : NewArrivalsWorld) : Prop := ∀ tx writes, w.scans.state tx = .committed writes →
  ∀ businessID t, .notified businessID t ∈ writes →
    ∃ b ∈ w.businesses.rows, b.id = businessID ∧ ∃ last, b.lastNewArrivalsNotifiedAt = some last ∧ t ≤ last

/-! ## The interval -/

theorem intervalDays_nonneg (deps : NewArrivalsDeps) : 0 ≤ deps.intervalDays.toInt := by
  unfold NewArrivalsDeps.intervalDays
  split
  · decide
  · exact deps.nonnegative

theorem interval_toInt {deps : NewArrivalsDeps} (fits : IntervalFits deps) :
    deps.interval.toInt = deps.intervalDays.toInt * 86400000000000 := by
  have nonnegative := intervalDays_nonneg deps
  have bound : deps.intervalDays.toInt ≤ 106751 := fits
  have twentyFour : (24 : Int64).toInt = 24 := by decide
  have hours : hour.toInt = 3600000000000 := by decide
  unfold NewArrivalsDeps.interval
  rw [Int64.toInt_mul, Int64.toInt_mul, twentyFour, hours, Int.bmod_eq_of_le (n := deps.intervalDays.toInt * 24) (by omega) (by omega),
    Int.bmod_eq_of_le (by omega) (by omega)]
  omega

/-- A business that is due has waited for the interval. -/
theorem interval_over {deps : NewArrivalsDeps} (fits : IntervalFits deps) {now last : Int} {b : BusinessRow}
    (due : deps.notDue now b = false) (notified : b.lastNotifiedAt = some last) : last + intervalMillis deps ≤ now := by
  have nonnegative := intervalDays_nonneg deps
  unfold NewArrivalsDeps.notDue subTime at due
  rw [notified, Option.any_some, decide_eq_false_iff_not, interval_toInt fits] at due
  unfold intervalMillis dayMillis
  omega

theorem intervalMillis_nonneg (deps : NewArrivalsDeps) : 0 ≤ intervalMillis deps := by
  have nonnegative := intervalDays_nonneg deps
  unfold intervalMillis dayMillis
  omega

/-! ## What a scan knows -/

/-- How far a scan is. -/
inductive DigestStage where
  | begun
  | locked
  /-- These businesses are left, and of the current one, if there is one, these customers; these ids are to be published. -/
  | digesting (now : Int) (left : List BusinessRow) (current : Option (BusinessRow × List CustomerRow)) (ids : List String)
  | committed (ids : List String)

/-- A business as the scan has read it: it stays so, and is due. -/
def StillDue (deps : NewArrivalsDeps) (now : Int) (w : NewArrivalsWorld) (b : BusinessRow) : Prop :=
  ∃ row ∈ w.businesses.rows, row.id = b.id ∧ ∀ last, row.lastNewArrivalsNotifiedAt = some last → last + intervalMillis deps ≤ now

/-- The writes of a scan while it holds the lock. -/
structure Digesting (deps : NewArrivalsDeps) (tx : String) (now : Int) (left : List BusinessRow)
    (current : Option (BusinessRow × List CustomerRow)) (ids : List String) (writes : List DigestWrite) (w : NewArrivalsWorld) :
    Prop where
  holder : w.scans.holder = some tx
  active : w.scans.state tx = .active writes
  rows : RowsRight w tx (rowsOf writes)
  fresh : ((rowsOf writes).map TemplateRow.id).Nodup ∧ ∀ id ∈ (rowsOf writes).map TemplateRow.id, id ∉ w.outboundMessages.rows.map TemplateRow.id
  toPublish : ∀ id ∈ ids, id ∈ (rowsOf writes).map TemplateRow.id
  /-- Every row belongs to a business that is stamped, or to the current one and a customer who is done with. -/
  belongs : ∀ r ∈ rowsOf writes, r.businessID ∈ stampedIDs writes ∨
    ∃ b customers, current = some (b, customers) ∧ r.businessID = b.id ∧ r.customerID ∉ customers.map CustomerRow.id
  stamped : ∀ businessID t, .notified businessID t ∈ writes → t = now ∧ businessID ∉ left.map BusinessRow.id ∧
    (∀ b customers, current = some (b, customers) → businessID ≠ b.id) ∧
    ∃ row ∈ w.businesses.rows, row.id = businessID ∧ ∀ last, row.lastNewArrivalsNotifiedAt = some last → last + intervalMillis deps ≤ now
  untouched : ∀ b ∈ left, ∃ row ∈ w.businesses.rows, row.id = b.id ∧ row.lastNewArrivalsNotifiedAt = b.lastNotifiedAt
  underWay : ∀ b customers, current = some (b, customers) → b.id ∉ left.map BusinessRow.id ∧ StillDue deps now w b ∧
    (customers.map CustomerRow.id).Nodup ∧ ∀ c ∈ customers, ReadOptedIn w tx c.id b.id c.phone

/-- What a scan knows at a stage. -/
def KnowsDigest (deps : NewArrivalsDeps) (tx : String) : DigestStage → NewArrivalsWorld → Prop
  | .begun, w => w.scans.state tx = .active []
  | .locked, w => w.scans.holder = some tx ∧ w.scans.state tx = .active []
  | .digesting now left current ids, w => ∃ writes, Digesting deps tx now left current ids writes w
  | .committed ids, w => ∃ writes, w.scans.state tx = .committed writes ∧ ∀ id ∈ ids, id ∈ (rowsOf writes).map TemplateRow.id

/-- The commit is still to come. -/
def DigestStage.isOpen : DigestStage → Bool
  | .committed _ => false
  | _ => true

/-- What a scan knows, unless its connection was lost before the commit. -/
def DigestStands (deps : NewArrivalsDeps) (tx : String) (stage : DigestStage) (w : NewArrivalsWorld) : Prop :=
  stage.isOpen = true ∧ w.scans.state tx = .rolledBack ∨ KnowsDigest deps tx stage w

/-- A scan relies on the others for what it knows. -/
def digestProtocol (deps : NewArrivalsDeps) : Protocol NewArrivalsName NewArrivalsWorld where
  inv w := DigestsRight deps w ∧ LastStamp w
  rely i s t := match i with
    | .scan tx => ∀ stage, DigestStands deps tx stage s → DigestStands deps tx stage t
    | _ => True
  refl i s := by cases i <;> simp
  trans i s t u first second := by
    cases i with
    | scan tx => exact fun stage known => second stage (first stage known)
    | _ => trivial

/-! ## What leaves a scan alone -/

/-- A step that a scan does not notice. -/
structure Unnoticed (tx : String) (s t : NewArrivalsWorld) : Prop where
  state : t.scans.state tx = s.scans.state tx
  holder : s.scans.holder = some tx → t.scans.holder = some tx
  consents : ∀ consent ∈ s.consents, consent ∈ t.consents
  kept : s.scans.holder = some tx → ∀ b ∈ s.businesses.rows, ∃ b' ∈ t.businesses.rows, b'.id = b.id ∧
    b'.lastNewArrivalsNotifiedAt = b.lastNewArrivalsNotifiedAt
  fresh : s.scans.holder = some tx → ∀ writes, s.scans.state tx = .active writes → ∀ id ∈ (rowsOf writes).map TemplateRow.id,
    id ∉ s.outboundMessages.rows.map TemplateRow.id → id ∉ t.outboundMessages.rows.map TemplateRow.id

theorem ReadOptedIn.mono {s t : NewArrivalsWorld} (consents : ∀ consent ∈ s.consents, consent ∈ t.consents) {tx a b c : String}
    (h : ReadOptedIn s tx a b c) : ReadOptedIn t tx a b c := by
  obtain ⟨consent, mem, read⟩ := h
  exact ⟨consent, consents consent mem, read⟩

theorem RowsRight.mono {s t : NewArrivalsWorld} (consents : ∀ consent ∈ s.consents, consent ∈ t.consents) {tx : String}
    {rows : List TemplateRow} (h : RowsRight s tx rows) : RowsRight t tx rows :=
  ⟨h.signed, fun r mem => (h.optedIn r mem).mono consents, h.once⟩

theorem Unnoticed.digesting {deps : NewArrivalsDeps} {tx : String} {now : Int} {left : List BusinessRow}
    {current : Option (BusinessRow × List CustomerRow)} {ids : List String} {writes : List DigestWrite} {s t : NewArrivalsWorld}
    (h : Unnoticed tx s t) (known : Digesting deps tx now left current ids writes s) :
    Digesting deps tx now left current ids writes t := by
  have kept := h.kept known.holder
  have due : ∀ id, (∃ row ∈ s.businesses.rows, row.id = id ∧ ∀ last, row.lastNewArrivalsNotifiedAt = some last →
      last + intervalMillis deps ≤ now) → ∃ row ∈ t.businesses.rows, row.id = id ∧ ∀ last, row.lastNewArrivalsNotifiedAt = some last →
      last + intervalMillis deps ≤ now := by
    rintro id ⟨row, mem, same, bound⟩
    obtain ⟨row', mem', same', last⟩ := kept row mem
    exact ⟨row', mem', same'.trans same, fun b hb => bound b (last ▸ hb)⟩
  constructor
  · exact h.holder known.holder
  · rw [h.state]
    exact known.active
  · exact known.rows.mono h.consents
  · exact ⟨known.fresh.1, fun id mem => h.fresh known.holder writes known.active id mem (known.fresh.2 id mem)⟩
  · exact known.toPublish
  · exact known.belongs
  · intro businessID time mem
    obtain ⟨same, notLeft, notCurrent, row⟩ := known.stamped businessID time mem
    exact ⟨same, notLeft, notCurrent, due businessID row⟩
  · intro b mem
    obtain ⟨row, hrow, same, last⟩ := known.untouched b mem
    obtain ⟨row', hrow', same', last'⟩ := kept row hrow
    exact ⟨row', hrow', same'.trans same, last'.trans last⟩
  · intro b customers here
    obtain ⟨notLeft, still, nodup, read⟩ := known.underWay b customers here
    exact ⟨notLeft, due b.id still, nodup, fun c mem => (read c mem).mono h.consents⟩

theorem Unnoticed.stands {deps : NewArrivalsDeps} {tx : String} {stage : DigestStage} {s t : NewArrivalsWorld} (h : Unnoticed tx s t)
    (known : DigestStands deps tx stage s) : DigestStands deps tx stage t := by
  rcases known with ⟨isOpen, dead⟩ | known
  · exact .inl ⟨isOpen, h.state.trans dead⟩
  · refine .inr ?_
    cases stage with
    | begun => exact h.state.trans known
    | locked => exact ⟨h.holder known.1, h.state.trans known.2⟩
    | digesting now left current ids =>
      obtain ⟨writes, digesting⟩ := known
      exact ⟨writes, h.digesting digesting⟩
    | committed ids =>
      obtain ⟨writes, committed, own⟩ := known
      exact ⟨writes, h.state.trans committed, own⟩

/-- A step that leaves alone what is committed. -/
structure Unchanged (s t : NewArrivalsWorld) : Prop where
  committed : ∀ tx writes, t.scans.state tx = .committed writes ↔ s.scans.state tx = .committed writes
  published : t.published = s.published
  consents : ∀ consent ∈ s.consents, consent ∈ t.consents
  businesses : ∀ b ∈ s.businesses.rows, ∃ b' ∈ t.businesses.rows, b'.id = b.id ∧
    b'.lastNewArrivalsNotifiedAt = b.lastNewArrivalsNotifiedAt
  stamps : ∀ b' ∈ t.businesses.rows, ∀ tx, b'.notifiedBy = some tx → ∃ b ∈ s.businesses.rows, b.id = b'.id ∧ b.notifiedBy = some tx ∧
    b.lastNewArrivalsNotifiedAt = b'.lastNewArrivalsNotifiedAt
  rows : ∀ r ∈ s.outboundMessages.rows, r ∈ t.outboundMessages.rows
  others : ∀ r ∈ t.outboundMessages.rows, ∀ tx, r.scan = some tx → r ∈ s.outboundMessages.rows

theorem Unchanged.inv {deps : NewArrivalsDeps} {s t : NewArrivalsWorld} (h : Unchanged s t) (inv : (digestProtocol deps).inv s) :
    (digestProtocol deps).inv t := by
  obtain ⟨right, lastStamp⟩ := inv
  refine ⟨?_, fun tx writes committed businessID time mem => ?_⟩
  · constructor
    · intro tx other writes writes' ne first second
      exact right.apart tx other writes writes' ne ((h.committed tx writes).1 first) ((h.committed other writes').1 second)
    · intro tx writes committed
      exact right.time tx writes ((h.committed tx writes).1 committed)
    · intro tx writes committed
      obtain ⟨rows, there⟩ := right.rows tx writes ((h.committed tx writes).1 committed)
      exact ⟨rows.mono h.consents, fun r mem => ⟨h.rows r (there r mem).1, (there r mem).2⟩⟩
    · intro r mem tx signed
      obtain ⟨writes, committed, own⟩ := right.noRows r (h.others r mem tx signed) tx signed
      exact ⟨writes, (h.committed tx writes).2 committed, own⟩
    · intro b' mem tx signed
      obtain ⟨b, hb, same, signed', last⟩ := h.stamps b' mem tx signed
      obtain ⟨writes, committed, time, stamped, own⟩ := right.noStamps b hb tx signed'
      exact ⟨writes, (h.committed tx writes).2 committed, time, last ▸ stamped, same ▸ own⟩
    · intro id mem
      obtain ⟨tx, writes, committed, own⟩ := right.published id (h.published ▸ mem)
      exact ⟨tx, writes, (h.committed tx writes).2 committed, own⟩
  · obtain ⟨b, hb, same, last, stamped, le⟩ := lastStamp tx writes ((h.committed tx writes).1 committed) businessID time mem
    obtain ⟨b', hb', same', last'⟩ := h.businesses b hb
    exact ⟨b', hb', same'.trans same, last, last'.trans stamped, le⟩

/-! ## Statements -/

section Statements

variable {deps : NewArrivalsDeps} {w : NewArrivalsWorld} {tx : String}

/-- A step that only moves transactions which do not commit. -/
theorem unchanged_scans {scans : Transactions DigestWrite}
    (committed : ∀ tx writes, scans.state tx = .committed writes ↔ w.scans.state tx = .committed writes) :
    Unchanged w { w with scans := scans } :=
  ⟨committed, rfl, fun _ mem => mem, fun b mem => ⟨b, mem, rfl, rfl⟩, fun b mem _ signed => ⟨b, mem, rfl, signed, rfl⟩,
    fun _ mem => mem, fun _ mem _ _ => mem⟩

theorem unnoticed_scans {scans : Transactions DigestWrite} (state : scans.state tx = w.scans.state tx)
    (holder : w.scans.holder = some tx → scans.holder = some tx) : Unnoticed tx w { w with scans := scans } :=
  ⟨state, holder, fun _ mem => mem, fun _ b mem => ⟨b, mem, rfl, rfl⟩, fun _ _ _ _ _ absent => absent⟩

/-- A transaction that was not committed and is not. -/
theorem committed_update {state : String → TxState DigestWrite} {new : TxState DigestWrite}
    (before : ∀ writes, state tx ≠ .committed writes) (after : ∀ writes, new ≠ .committed writes) (other : String)
    (writes : List DigestWrite) : Function.update state tx new other = .committed writes ↔ state other = .committed writes := by
  by_cases same : other = tx
  · rw [same, Function.update_self]
    exact ⟨fun h => (after writes h).elim, fun h => (before writes h).elim⟩
  · rw [Function.update_of_ne same]

/-- What the scans and the others see of a step that nobody notices. -/
theorem keeps_unnoticed {t : NewArrivalsWorld} (unchanged : Unchanged w t) (unnoticed : ∀ tx, Unnoticed tx w t)
    (inv : (digestProtocol deps).inv w) :
    (digestProtocol deps).inv t ∧ ∀ tx stage, DigestStands deps tx stage w → DigestStands deps tx stage t :=
  ⟨unchanged.inv inv, fun tx _ known => (unnoticed tx).stands known⟩

theorem not_committed {writes : List DigestWrite} (active : w.scans.state tx = .active writes) (others : List DigestWrite) :
    w.scans.state tx ≠ .committed others := by
  rw [active]
  intro h
  cases h

theorem keeps_rollbackDigest (inv : (digestProtocol deps).inv w) :
    (digestProtocol deps).inv (rollbackDigest tx w) ∧
      ∀ other stage, DigestStands deps other stage w → DigestStands deps other stage (rollbackDigest tx w) := by
  unfold rollbackDigest
  split
  · rename_i writes active
    constructor
    · refine (unchanged_scans ?_).inv inv
      exact committed_update (not_committed active) fun _ h => by cases h
    · intro other stage known
      by_cases own : other = tx
      · subst own
        cases stage with
        | committed ids =>
          rcases known with ⟨ended, -⟩ | ⟨writes', committed, -⟩
          · cases ended
          · exact (not_committed active writes' committed).elim
        | _ => exact .inl ⟨rfl, Function.update_self ..⟩
      · refine (unnoticed_scans ?_ fun holds => ?_).stands known
        · exact Function.update_of_ne own _ _
        · exact Transactions.finish_holder_of_ne _ holds own
  · exact ⟨inv, fun _ _ known => known⟩

/-- A step that writes nothing of a digest; it may read customers. -/
theorem keeps_elsewhere {t : NewArrivalsWorld} (scans : t.scans = w.scans) (published : t.published = w.published)
    (businesses : t.businesses = w.businesses) (messages : t.outboundMessages = w.outboundMessages)
    (grows : ∀ consent ∈ w.consents, consent ∈ t.consents) (inv : (digestProtocol deps).inv w) :
    (digestProtocol deps).inv t ∧ ∀ tx stage, DigestStands deps tx stage w → DigestStands deps tx stage t := by
  obtain ⟨clock, _, audience, _, _, _, consents⟩ := t
  obtain rfl := scans
  obtain rfl := published
  obtain rfl := businesses
  obtain rfl := messages
  apply keeps_unnoticed _ _ inv
  · exact ⟨fun _ _ => Iff.rfl, rfl, grows, fun b mem => ⟨b, mem, rfl, rfl⟩, fun b mem _ signed => ⟨b, mem, rfl, signed, rfl⟩,
      fun _ mem => mem, fun _ mem _ _ => mem⟩
  · exact fun _ => ⟨rfl, fun holds => holds, grows, fun _ b mem => ⟨b, mem, rfl, rfl⟩, fun _ _ _ _ _ absent => absent⟩

/-- A step that only writes the businesses, and no stamp. -/
theorem keeps_businesses {businesses : Table NotifiedBusiness.id}
    (kept : ∀ b ∈ w.businesses.rows, ∃ b' ∈ businesses.rows, b'.id = b.id ∧
      b'.lastNewArrivalsNotifiedAt = b.lastNewArrivalsNotifiedAt)
    (stamps : ∀ b' ∈ businesses.rows, ∀ tx, b'.notifiedBy = some tx → ∃ b ∈ w.businesses.rows, b.id = b'.id ∧ b.notifiedBy = some tx ∧
      b.lastNewArrivalsNotifiedAt = b'.lastNewArrivalsNotifiedAt) (inv : (digestProtocol deps).inv w) :
    (digestProtocol deps).inv { w with businesses := businesses } ∧
      ∀ tx stage, DigestStands deps tx stage w → DigestStands deps tx stage { w with businesses := businesses } :=
  keeps_unnoticed ⟨fun _ _ => Iff.rfl, rfl, fun _ mem => mem, kept, stamps, fun _ mem => mem, fun _ mem _ _ => mem⟩
    (fun _ => ⟨rfl, fun holds => holds, fun _ mem => mem, fun _ => kept, fun _ _ _ _ _ absent => absent⟩) inv

/-- The statements that anybody may issue. -/
def PassiveDigest : NewArrivalsStmt → Prop
  | .begin _ | .lockScanner _ | .insertTemplate .. | .stampNotified .. | .commit _ | .publishOutbound _ => False
  | _ => True

theorem withinDigest_reads {α : Type} (tx : String) (w : NewArrivalsWorld) (f : List DigestWrite → Except ScanErr α) :
    (withinDigest tx w fun writes _ => (f writes, w)).2 = w := by
  unfold withinDigest
  split <;> rfl

/-- A statement that anybody may issue keeps the protocol. -/
theorem keeps_passiveDigest {op : NewArrivalsStmt} (passive : PassiveDigest op) (may : newArrivalsProceeds w op)
    (inv : (digestProtocol deps).inv w) :
    (digestProtocol deps).inv (newArrivalsExec op w).2 ∧
      ∀ tx stage, DigestStands deps tx stage w → DigestStands deps tx stage (newArrivalsExec op w).2 := by
  have unchanged : ∀ {t : NewArrivalsWorld}, t = w → (digestProtocol deps).inv t ∧
      ∀ tx stage, DigestStands deps tx stage w → DigestStands deps tx stage t := by
    rintro t rfl
    exact ⟨inv, fun _ _ known => known⟩
  cases op with
  | begin tx => exact passive.elim
  | lockScanner tx => exact passive.elim
  | insertTemplate tx row => exact passive.elim
  | stampNotified tx businessID time => exact passive.elim
  | commit tx => exact passive.elim
  | publishOutbound id => exact passive.elim
  | businesses tx => exact unchanged (withinDigest_reads tx w _)
  | now => exact unchanged rfl
  | newCategories tx businessID since => exact unchanged (withinDigest_reads tx w _)
  | optedIn tx businessID =>
    simp only [newArrivalsExec, withinDigest]
    split
    · exact keeps_elsewhere rfl rfl rfl rfl (fun _ mem => List.mem_append_left _ mem) inv
    · exact unchanged rfl
  | conversation tx businessID customerPhone => exact unchanged (withinDigest_reads tx w _)
  | rollback tx => exact keeps_rollbackDigest inv
  | tick later => exact keeps_elsewhere rfl rfl rfl rfl (fun _ mem => mem) inv
  | insertBusiness id =>
    simp only [newArrivalsExec]
    split
    · rename_i businesses inserted
      have rows := (Table.insert_eq_some.1 inserted).2
      apply keeps_businesses _ _ inv
      · intro b mem
        exact ⟨b, by rw [rows]; exact List.mem_append_left _ mem, rfl, rfl⟩
      · intro b mem tx signed
        rw [rows, List.mem_append, List.mem_singleton] at mem
        rcases mem with old | rfl
        · exact ⟨b, old, rfl, signed, rfl⟩
        · cases signed
    · exact unchanged rfl
  | setTemplate id templateName =>
    apply keeps_businesses _ _ inv
    · intro b mem
      refine ⟨_, List.mem_map_of_mem mem, ?_⟩
      unfold Table.rewrite
      split <;> exact ⟨rfl, rfl⟩
    · intro b' mem tx signed
      obtain ⟨b, hb, rfl⟩ := List.mem_map.1 mem
      refine ⟨b, hb, ?_⟩
      unfold Table.rewrite at signed ⊢
      split at signed <;> rename_i selected
      · rw [if_pos selected]
        exact ⟨rfl, signed, rfl⟩
      · rw [if_neg selected]
        exact ⟨rfl, signed, rfl⟩
  | insertOutbound row =>
    simp only [newArrivalsExec]
    split
    · rename_i messages inserted
      have rows := (Table.insert_eq_some.1 inserted).2
      apply keeps_unnoticed _ _ inv
      · refine ⟨fun _ _ => Iff.rfl, rfl, fun _ mem => mem, fun b mem => ⟨b, mem, rfl, rfl⟩,
          fun b mem _ signed => ⟨b, mem, rfl, signed, rfl⟩, fun r mem => ?_, fun r mem tx signed => ?_⟩
        · show r ∈ messages.rows
          rw [rows]
          exact List.mem_append_left _ mem
        · change r ∈ messages.rows at mem
          rw [rows, List.mem_append, List.mem_singleton] at mem
          rcases mem with old | rfl
          · exact old
          · cases signed
      · intro tx
        refine ⟨rfl, fun holds => holds, fun _ mem => mem, fun _ b mem => ⟨b, mem, rfl, rfl⟩, fun holds writes active id own absent => ?_⟩
        show id ∉ messages.rows.map TemplateRow.id
        rw [rows, List.map_append, List.mem_append]
        rintro (old | new)
        · exact absent old
        · obtain rfl := List.mem_singleton.1 new
          exact may tx holds writes active own
    · exact unchanged rfl
  | change audience => exact keeps_elsewhere rfl rfl rfl rfl (fun _ mem => mem) inv

end Statements

/-! ## A scan's own statements -/

section Scan

variable {deps : NewArrivalsDeps} {tx : String} {w : NewArrivalsWorld}

/-- What the others rely on, under a step of this scan. -/
theorem others_notice {s t : NewArrivalsWorld} (h : ∀ other, other ≠ tx → Unnoticed other s t) :
    ∀ j, j ≠ NewArrivalsName.scan tx → (digestProtocol deps).rely j s t := by
  intro j ne
  cases j with
  | scan other =>
    intro stage known
    exact (h other fun same => ne (same ▸ rfl)).stands known
  | server n => trivial
  | other n => trivial

/-- One statement of a scan: where its transaction has ended it is an error, and otherwise what it does is known. -/
theorem safe_digest {op : NewArrivalsStmt} {stage : DigestStage} {A : newArrivalsStore.Reply op → NewArrivalsWorld → Prop}
    (known : DigestStands deps tx stage w)
    (dead : ∀ t, t.scans.state tx = .rolledBack → newArrivalsExec op t = (.error .txClosed, t))
    (executed : ∀ t, (digestProtocol deps).inv t → newArrivalsProceeds t op → KnowsDigest deps tx stage t →
      (digestProtocol deps).inv (newArrivalsExec op t).2 ∧
        (∀ j, j ≠ NewArrivalsName.scan tx → (digestProtocol deps).rely j t (newArrivalsExec op t).2) ∧
        Replied A (fun _ => True) (newArrivalsExec op t).1 (newArrivalsExec op t).2) :
    Safe (newArrivalsFlow deps) (digestProtocol deps) (.scan tx) (Replied A fun _ => True) (call (I := newArrivalsStore) op) w := by
  apply Safe.call
  · intro t rely inv may
    rcases rely stage known with ⟨-, ended⟩ | knows
    · simp only [newArrivalsFlow, dead t ended]
      exact ⟨inv, fun j _ => (digestProtocol deps).refl j t, trivial, fun _ => trivial⟩
    · obtain ⟨inv', others, reply⟩ := executed t inv may knows
      exact ⟨inv', others, reply, fun _ => trivial⟩
  · intro t _ _ _
    trivial
  · intro t _ _ _
    trivial

theorem dead_digest {α : Type} {t : NewArrivalsWorld} (dead : t.scans.state tx = .rolledBack)
    {f : (writes : List DigestWrite) → t.scans.state tx = .active writes → Except ScanErr α × NewArrivalsWorld} :
    withinDigest tx t f = (.error .txClosed, t) := by
  apply withinDigest_ended
  intro writes active
  rw [dead] at active
  cases active

theorem safe_beginDigest : Safe (newArrivalsFlow deps) (digestProtocol deps) (.scan tx)
    (Replied (fun _ => DigestStands deps tx .begun) fun _ => True) (call (I := newArrivalsStore) (.begin tx)) w := by
  apply Safe.call
  · intro t _ inv _
    show (digestProtocol deps).inv (newArrivalsExec (.begin tx) t).2 ∧ _
    simp only [newArrivalsFlow, newArrivalsExec]
    split
    · rename_i unused
      refine ⟨(unchanged_scans ?_).inv inv, ?_, .inr (Function.update_self ..), fun _ => trivial⟩
      · refine committed_update (fun _ h => ?_) fun _ h => by cases h
        rw [unused] at h
        cases h
      · exact others_notice fun other ne => unnoticed_scans (Function.update_of_ne ne _ _) fun holds => holds
    · exact ⟨inv, fun j _ => (digestProtocol deps).refl j t, trivial, fun _ => trivial⟩
  · intro t _ _ _
    trivial
  · intro t _ _ _
    trivial

theorem safe_lockDigest (known : DigestStands deps tx .begun w) : Safe (newArrivalsFlow deps) (digestProtocol deps) (.scan tx)
    (Replied (fun _ => DigestStands deps tx .locked) fun _ => True) (call (I := newArrivalsStore) (.lockScanner tx)) w := by
  apply safe_digest known
  · intro t dead
    exact dead_digest dead
  · intro t inv may active
    have free : t.scans.holder = none ∨ t.scans.holder = some tx := may
    have taken : newArrivalsExec (.lockScanner tx) t = (.ok (), { t with scans := t.scans.acquire tx active }) :=
      withinDigest_active active
    rw [taken]
    have unchanged : Unchanged t { t with scans := t.scans.acquire tx active } := unchanged_scans fun _ _ => Iff.rfl
    refine ⟨unchanged.inv inv, others_notice fun other ne => unnoticed_scans rfl fun holds => ?_,
      .inr ⟨rfl, active⟩⟩
    rcases free with none | own
    · rw [none] at holds
      cases holds
    · exact own.symm.trans holds

/-- The rows of the businesses query: one for each business, as in the table. -/
theorem business_rows (w : NewArrivalsWorld) : ((w.businesses.rows.filterMap businessRow).map BusinessRow.id).Nodup ∧
    ∀ b ∈ w.businesses.rows.filterMap businessRow,
      ∃ row ∈ w.businesses.rows, row.id = b.id ∧ row.lastNewArrivalsNotifiedAt = b.lastNotifiedAt := by
  have row : ∀ r b, businessRow r = some b → r.id = b.id ∧ r.lastNewArrivalsNotifiedAt = b.lastNotifiedAt := by
    intro r b h
    obtain ⟨templateName, -, rfl⟩ := Option.map_eq_some_iff.1 h
    exact ⟨rfl, rfl⟩
  constructor
  · exact w.businesses.nodup_filterMap fun r b found => (row r b found).1.symm
  · intro b mem
    obtain ⟨r, hr, found⟩ := List.mem_filterMap.1 mem
    exact ⟨r, hr, row r b found⟩

theorem safe_businesses (known : DigestStands deps tx .locked w) : Safe (newArrivalsFlow deps) (digestProtocol deps) (.scan tx)
    (Replied (fun rows t => (rows.map BusinessRow.id).Nodup ∧ ∀ now, DigestStands deps tx (.digesting now rows none []) t) fun _ => True)
    (call (I := newArrivalsStore) (.businesses tx)) w := by
  apply safe_digest known
  · intro t dead
    exact dead_digest dead
  · intro t inv _ locked
    obtain ⟨holder, active⟩ := locked
    have read : newArrivalsExec (.businesses tx) t = (.ok (t.businesses.rows.filterMap businessRow), t) := withinDigest_active active
    rw [read]
    obtain ⟨nodup, left⟩ := business_rows t
    refine ⟨inv, fun j _ => (digestProtocol deps).refl j t, nodup, fun now => .inr ⟨[], ?_⟩⟩
    constructor
    · exact holder
    · exact active
    · exact ⟨fun r mem => (List.not_mem_nil mem).elim, fun r mem => (List.not_mem_nil mem).elim, List.nodup_nil⟩
    · exact ⟨List.nodup_nil, fun id mem => (List.not_mem_nil mem).elim⟩
    · exact fun id mem => (List.not_mem_nil mem).elim
    · exact fun r mem => (List.not_mem_nil mem).elim
    · exact fun businessID time mem => (List.not_mem_nil mem).elim
    · exact left
    · exact fun b customers h => by cases h

/-- A read that does not matter for the stage. -/
theorem safe_read {op : NewArrivalsStmt} {stage : DigestStage} (passive : PassiveDigest op) (known : DigestStands deps tx stage w) :
    Safe (newArrivalsFlow deps) (digestProtocol deps) (.scan tx) (Replied (fun _ => DigestStands deps tx stage) fun _ => True)
      (call (I := newArrivalsStore) op) w := by
  apply Safe.call
  · intro t rely inv may
    obtain ⟨inv', others⟩ := keeps_passiveDigest passive may inv
    refine ⟨inv', fun j _ => ?_, ?_, fun _ => trivial⟩
    · cases j with
      | scan other => exact others other
      | server n => trivial
      | other n => trivial
    · show Replied _ _ (newArrivalsExec op t).1 (newArrivalsExec op t).2
      cases (newArrivalsExec op t).1 with
      | ok a => exact others tx stage (rely stage known)
      | error e => trivial
  · intro t _ _ _
    trivial
  · intro t _ _ _
    trivial

/-- The customers query: its rows are of customers who are opted in, which stays on record. -/
theorem safe_optedIn {now : Int} {b : BusinessRow} {rest : List BusinessRow} {ids : List String} (fits : IntervalFits deps)
    (nodup : ((b :: rest).map BusinessRow.id).Nodup) (due : deps.notDue now b = false)
    (known : DigestStands deps tx (.digesting now (b :: rest) none ids) w) :
    Safe (newArrivalsFlow deps) (digestProtocol deps) (.scan tx)
      (Replied (fun customers => DigestStands deps tx (.digesting now rest (some (b, customers)) ids)) fun _ => True)
      (call (I := newArrivalsStore) (.optedIn tx b.id)) w := by
  apply safe_digest known
  · intro t dead
    exact dead_digest dead
  · intro t inv may digesting
    obtain ⟨inv', others⟩ := @keeps_passiveDigest deps t (.optedIn tx b.id) trivial may inv
    refine ⟨inv', fun j _ => ?_, ?_⟩
    · cases j with
      | scan other => exact others other
      | server n => trivial
      | other n => trivial
    · obtain ⟨writes, known⟩ := digesting
      have read : newArrivalsExec (.optedIn tx b.id) t = (.ok ((optedIn b.id t).map (customerRow t)),
          { t with consents := t.consents ++ (optedIn b.id t).map (Consent.mk tx) }) := withinDigest_active known.active
      rw [read]
      have grows : ∀ consent ∈ t.consents, consent ∈ t.consents ++ (optedIn b.id t).map (Consent.mk tx) :=
        fun _ mem => List.mem_append_left _ mem
      have apart := (List.nodup_cons.1 nodup).1
      refine .inr ⟨writes, ?_⟩
      constructor
      · exact known.holder
      · exact known.active
      · exact known.rows.mono grows
      · exact known.fresh
      · exact known.toPublish
      · intro r mem
        rcases known.belongs r mem with stamped | ⟨b', customers, here, -⟩
        · exact .inl stamped
        · cases here
      · intro businessID time mem
        obtain ⟨same, notLeft, -, row⟩ := known.stamped businessID time mem
        refine ⟨same, fun later => notLeft (List.mem_cons_of_mem _ later), fun b' customers here => ?_, row⟩
        cases here
        rintro rfl
        exact notLeft List.mem_cons_self
      · intro b' mem
        exact known.untouched b' (List.mem_cons_of_mem _ mem)
      · intro b' customers here
        obtain ⟨rfl, rfl⟩ := Prod.mk.inj (Option.some.inj here)
        obtain ⟨row, hrow, same, last⟩ := known.untouched b List.mem_cons_self
        refine ⟨apart, ⟨row, hrow, same, fun last' h => interval_over fits due (last ▸ h)⟩, ?_, ?_⟩
        · rw [List.map_map]
          exact (List.Nodup.filter _ (List.Nodup.of_map _ t.audience.customers.unique)).map_on
            fun c hc c' hc' h => Table.eq_of_key (List.mem_of_mem_filter hc) (List.mem_of_mem_filter hc') h
        · intro c mem
          obtain ⟨customer, hc, rfl⟩ := List.mem_map.1 mem
          have selected := (List.mem_filter.1 hc).2
          simp only [Bool.and_eq_true, decide_eq_true_eq] at selected
          exact ⟨⟨tx, customer⟩, List.mem_append_right _ (List.mem_map_of_mem hc), rfl, rfl, selected.1, rfl, selected.2⟩

@[simp] theorem rowsOf_append (writes more : List DigestWrite) : rowsOf (writes ++ more) = rowsOf writes ++ rowsOf more :=
  List.filterMap_append

@[simp] theorem stampedIDs_append (writes more : List DigestWrite) :
    stampedIDs (writes ++ more) = stampedIDs writes ++ stampedIDs more := List.filterMap_append

theorem mem_stampedIDs {writes : List DigestWrite} {businessID : String} :
    businessID ∈ stampedIDs writes ↔ ∃ t, .notified businessID t ∈ writes := by
  unfold stampedIDs
  rw [List.mem_filterMap]
  constructor
  · rintro ⟨write, mem, found⟩
    cases write with
    | row r => cases found
    | notified b t =>
      cases found
      exact ⟨t, mem⟩
  · rintro ⟨t, mem⟩
    exact ⟨_, mem, rfl⟩

/-- The row of a customer who is next. -/
theorem Digesting.insert {now : Int} {left : List BusinessRow} {b : BusinessRow} {c : CustomerRow} {rest : List CustomerRow}
    {ids : List String} {writes : List DigestWrite} {t : NewArrivalsWorld} {row : TemplateRow}
    (known : Digesting deps tx now left (some (b, c :: rest)) ids writes t) (business : row.businessID = b.id)
    (customer : row.customerID = c.id) (phone : row.recipientPhone = c.phone) (signed : row.scan = some tx)
    (unused : row.id ∉ t.outboundMessages.rows.map TemplateRow.id) (unwritten : row.id ∉ (rowsOf writes).map TemplateRow.id) :
    Digesting deps tx now left (some (b, rest)) (ids ++ [row.id]) (writes ++ [.row row])
      { t with scans := t.scans.write tx writes (.row row) } := by
  obtain ⟨notLeft, due, nodup, read⟩ := known.underWay b (c :: rest) rfl
  obtain ⟨apart, nodup'⟩ := List.nodup_cons.1 nodup
  have one : rowsOf [.row row] = [row] := rfl
  have none : stampedIDs [.row row] = [] := rfl
  have notified : ∀ businessID time, .notified businessID time ∈ writes ++ [.row row] → .notified businessID time ∈ writes := by
    intro businessID time mem
    rcases List.mem_append.1 mem with old | new
    · exact old
    · cases List.mem_singleton.1 new
  constructor
  · exact known.holder
  · exact Function.update_self ..
  · rw [rowsOf_append, one]
    constructor
    · intro r mem
      rcases List.mem_append.1 mem with old | new
      · exact known.rows.signed r old
      · exact List.mem_singleton.1 new ▸ signed
    · intro r mem
      rcases List.mem_append.1 mem with old | new
      · exact known.rows.optedIn r old
      · obtain rfl := List.mem_singleton.1 new
        rw [business, customer, phone]
        exact read c List.mem_cons_self
    · rw [List.map_append, List.map_singleton, List.nodup_append]
      refine ⟨known.rows.once, List.nodup_singleton _, fun pair old pair' new same => ?_⟩
      obtain rfl := List.mem_singleton.1 new
      obtain ⟨r, hr, rfl⟩ := List.mem_map.1 old
      obtain ⟨sameBusiness, sameCustomer⟩ := Prod.mk.inj same
      rcases known.belongs r hr with stamped | ⟨b', customers, here, -, done⟩
      · obtain ⟨time, mem⟩ := mem_stampedIDs.1 stamped
        exact (known.stamped _ _ mem).2.2.1 b _ rfl (sameBusiness.trans business)
      · cases here
        exact done (by simp [sameCustomer, customer])
  · rw [rowsOf_append, one, List.map_append, List.map_singleton]
    constructor
    · rw [List.nodup_append]
      refine ⟨known.fresh.1, List.nodup_singleton _, fun id old id' new same => ?_⟩
      obtain rfl := List.mem_singleton.1 new
      exact unwritten (same ▸ old)
    · intro id mem
      rcases List.mem_append.1 mem with old | new
      · exact known.fresh.2 id old
      · exact List.mem_singleton.1 new ▸ unused
  · rw [rowsOf_append, one, List.map_append, List.map_singleton]
    intro id mem
    rcases List.mem_append.1 mem with old | new
    · exact List.mem_append_left _ (known.toPublish id old)
    · exact List.mem_append_right _ new
  · rw [rowsOf_append, one, stampedIDs_append, none, List.append_nil]
    intro r mem
    rcases List.mem_append.1 mem with old | new
    · rcases known.belongs r old with stamped | ⟨b', customers, here, same, done⟩
      · exact .inl stamped
      · cases here
        exact .inr ⟨b, rest, rfl, same, fun later => done (List.mem_cons_of_mem _ later)⟩
    · obtain rfl := List.mem_singleton.1 new
      exact .inr ⟨b, rest, rfl, business, by rw [customer]; exact apart⟩
  · intro businessID time mem
    obtain ⟨same, notLeft, notCurrent, row⟩ := known.stamped businessID time (notified businessID time mem)
    refine ⟨same, notLeft, fun b' customers here => ?_, row⟩
    cases here
    exact notCurrent b _ rfl
  · exact known.untouched
  · intro b' customers here
    cases here
    exact ⟨notLeft, due, nodup', fun c' mem => read c' (List.mem_cons_of_mem _ mem)⟩

/-- A customer who is passed over. -/
theorem Digesting.skip {now : Int} {left : List BusinessRow} {b : BusinessRow} {c : CustomerRow} {rest : List CustomerRow}
    {ids : List String} {writes : List DigestWrite} {t : NewArrivalsWorld}
    (known : Digesting deps tx now left (some (b, c :: rest)) ids writes t) :
    Digesting deps tx now left (some (b, rest)) ids writes t := by
  obtain ⟨notLeft, due, nodup, read⟩ := known.underWay b (c :: rest) rfl
  refine ⟨known.holder, known.active, known.rows, known.fresh, known.toPublish, fun r mem => ?_, fun businessID time mem => ?_,
    known.untouched, fun b' customers here => ?_⟩
  · rcases known.belongs r mem with stamped | ⟨b', customers, here, same, done⟩
    · exact .inl stamped
    · cases here
      exact .inr ⟨b, rest, rfl, same, fun later => done (List.mem_cons_of_mem _ later)⟩
  · obtain ⟨same, notLeft, notCurrent, row⟩ := known.stamped businessID time mem
    refine ⟨same, notLeft, fun b' customers here => ?_, row⟩
    cases here
    exact notCurrent b _ rfl
  · cases here
    exact ⟨notLeft, due, (List.nodup_cons.1 nodup).2, fun c' mem => read c' (List.mem_cons_of_mem _ mem)⟩

/-- The stamp of a business that is done with. -/
theorem Digesting.stamp {now : Int} {left : List BusinessRow} {b : BusinessRow} {ids : List String} {writes : List DigestWrite}
    {t : NewArrivalsWorld} (known : Digesting deps tx now left (some (b, [])) ids writes t) :
    Digesting deps tx now left none ids (writes ++ [.notified b.id now])
      { t with scans := t.scans.write tx writes (.notified b.id now) } := by
  obtain ⟨notLeft, due, -, -⟩ := known.underWay b [] rfl
  have none : rowsOf [.notified b.id now] = [] := rfl
  have one : stampedIDs [.notified b.id now] = [b.id] := rfl
  have same : rowsOf (writes ++ [.notified b.id now]) = rowsOf writes := by rw [rowsOf_append, none, List.append_nil]
  constructor
  · exact known.holder
  · exact Function.update_self ..
  · rw [same]
    apply RowsRight.mono _ known.rows
    exact fun _ mem => mem
  · rw [same]
    exact known.fresh
  · rw [same]
    exact known.toPublish
  · rw [same, stampedIDs_append, one]
    intro r mem
    rcases known.belongs r mem with stamped | ⟨b', customers, here, own, -⟩
    · exact .inl (List.mem_append_left _ stamped)
    · cases here
      exact .inl (List.mem_append_right _ (List.mem_singleton.2 own))
  · intro businessID time mem
    rcases List.mem_append.1 mem with old | new
    · obtain ⟨same, notLeft, -, row⟩ := known.stamped businessID time old
      exact ⟨same, notLeft, fun b' customers here => (by cases here), row⟩
    · cases List.mem_singleton.1 new
      exact ⟨rfl, notLeft, fun b' customers here => (by cases here), due⟩
  · exact known.untouched
  · exact fun b' customers here => by cases here

/-- One more write of an open transaction. -/
theorem keeps_write {t : NewArrivalsWorld} {writes : List DigestWrite} (active : t.scans.state tx = .active writes)
    (write : DigestWrite) (inv : (digestProtocol deps).inv t) :
    (digestProtocol deps).inv { t with scans := t.scans.write tx writes write } ∧
      ∀ j, j ≠ NewArrivalsName.scan tx → (digestProtocol deps).rely j t { t with scans := t.scans.write tx writes write } := by
  constructor
  · refine (unchanged_scans ?_).inv inv
    exact committed_update (not_committed active) fun _ h => by cases h
  · exact others_notice fun other ne => unnoticed_scans (Function.update_of_ne ne _ _) fun holds => holds

theorem safe_insertTemplate {now : Int} {left : List BusinessRow} {b : BusinessRow} {c : CustomerRow} {rest : List CustomerRow}
    {ids : List String} {row : TemplateRow} (business : row.businessID = b.id) (customer : row.customerID = c.id)
    (phone : row.recipientPhone = c.phone) (signed : row.scan = some tx)
    (known : DigestStands deps tx (.digesting now left (some (b, c :: rest)) ids) w) :
    Safe (newArrivalsFlow deps) (digestProtocol deps) (.scan tx)
      (Replied (fun _ => DigestStands deps tx (.digesting now left (some (b, rest)) (ids ++ [row.id]))) fun _ => True)
      (call (I := newArrivalsStore) (.insertTemplate tx row)) w := by
  apply safe_digest known
  · intro t dead
    exact dead_digest dead
  · rintro t inv - ⟨writes, digesting⟩
    have inserts : newArrivalsExec (.insertTemplate tx row) t =
        if row.id ∈ t.outboundMessages.rows.map TemplateRow.id ∨ row.id ∈ (rowsOf writes).map TemplateRow.id then
          (.error (.db (.uniqueViolation "outbound_messages_pkey")), t)
        else (.ok (), { t with scans := t.scans.write tx writes (.row { row with scan := some tx }) }) := withinDigest_active digesting.active
    rw [← signed] at inserts
    rw [inserts]
    split
    · exact ⟨inv, fun j _ => (digestProtocol deps).refl j t, trivial⟩
    · rename_i fresh
      rw [not_or] at fresh
      obtain ⟨inv', others⟩ := keeps_write digesting.active (.row row) inv
      exact ⟨inv', others, .inr ⟨_, digesting.insert business customer phone signed fresh.1 fresh.2⟩⟩

theorem safe_stampNotified {now : Int} {left : List BusinessRow} {b : BusinessRow} {ids : List String}
    (known : DigestStands deps tx (.digesting now left (some (b, [])) ids) w) :
    Safe (newArrivalsFlow deps) (digestProtocol deps) (.scan tx)
      (Replied (fun _ => DigestStands deps tx (.digesting now left none ids)) fun _ => True)
      (call (I := newArrivalsStore) (.stampNotified tx b.id now)) w := by
  apply safe_digest known
  · intro t dead
    exact dead_digest dead
  · rintro t inv - ⟨writes, digesting⟩
    have stamps : newArrivalsExec (.stampNotified tx b.id now) t =
        (.ok (), { t with scans := t.scans.write tx writes (.notified b.id now) }) := withinDigest_active digesting.active
    rw [stamps]
    obtain ⟨inv', others⟩ := keeps_write digesting.active (.notified b.id now) inv
    exact ⟨inv', others, .inr ⟨_, digesting.stamp⟩⟩

/-! ## The commit -/

/-- What the commit of a scan makes of a business. -/
def stampedBy (tx : String) (now : Int) (writes : List DigestWrite) (b : NotifiedBusiness) : NotifiedBusiness :=
  if b.id ∈ stampedIDs writes then { b with lastNewArrivalsNotifiedAt := some now, notifiedBy := some tx } else b

theorem stampedBy_id (tx : String) (now : Int) (writes : List DigestWrite) (b : NotifiedBusiness) :
    (stampedBy tx now writes b).id = b.id := by
  unfold stampedBy
  split <;> rfl

/-- A commit adds the rows, stamps the businesses, and nothing else. -/
structure Applied (tx : String) (now : Int) (writes : List DigestWrite) (s t : NewArrivalsWorld) : Prop where
  messages : t.outboundMessages.rows = s.outboundMessages.rows ++ rowsOf writes
  businesses : t.businesses.rows = s.businesses.rows.map (stampedBy tx now writes)
  published : t.published = s.published
  consents : t.consents = s.consents

theorem applyDigest_applied {now : Int} (writes : List DigestWrite) (times : ∀ b t, .notified b t ∈ writes → t = now)
    (s : NewArrivalsWorld) (nodup : ((rowsOf writes).map TemplateRow.id).Nodup)
    (fresh : ∀ id ∈ (rowsOf writes).map TemplateRow.id, id ∉ s.outboundMessages.rows.map TemplateRow.id) :
    Applied tx now writes s (applyDigest tx s writes) := by
  induction writes generalizing s with
  | nil =>
    constructor
    · exact (List.append_nil _).symm
    · exact (List.map_id _).symm
    · rfl
    · rfl
  | cons write rest ih =>
    have times' : ∀ b t, .notified b t ∈ rest → t = now := fun b t mem => times b t (List.mem_cons_of_mem _ mem)
    cases write with
    | row r =>
      have rows : rowsOf (.row r :: rest) = r :: rowsOf rest := rfl
      rw [rows, List.map_cons] at nodup fresh
      obtain ⟨apart, nodup'⟩ := List.nodup_cons.1 nodup
      obtain ⟨messages, inserted⟩ : ∃ messages, s.outboundMessages.insert r = some messages := by
        cases taken : s.outboundMessages.insert r with
        | some messages => exact ⟨messages, rfl⟩
        | none =>
          obtain ⟨u, hu, same⟩ := Table.insert_eq_none.1 taken
          exact (fresh r.id List.mem_cons_self (same ▸ List.mem_map_of_mem hu)).elim
      have inserts : applyDigest tx s (.row r :: rest) = applyDigest tx { s with outboundMessages := messages } rest := by
        show applyDigest tx (DigestWrite.apply tx s (.row r)) rest = _
        simp only [DigestWrite.apply, inserted]
      have after := (Table.insert_eq_some.1 inserted).2
      have applied := ih times' { s with outboundMessages := messages } nodup' (by
        intro id mem
        show id ∉ messages.rows.map TemplateRow.id
        rw [after, List.map_append, List.mem_append]
        rintro (old | new)
        · exact fresh id (List.mem_cons_of_mem _ mem) old
        · exact apart (List.mem_singleton.1 new ▸ mem))
      rw [inserts]
      constructor
      · rw [applied.messages, rows]
        show messages.rows ++ rowsOf rest = _
        rw [after, List.append_assoc, List.singleton_append]
      · exact applied.businesses
      · exact applied.published
      · exact applied.consents
    | notified businessID time =>
      obtain rfl := times businessID time List.mem_cons_self
      have applied := ih times' (DigestWrite.apply tx s (.notified businessID time)) nodup fresh
      constructor
      · exact applied.messages
      · refine applied.businesses.trans ?_
        show (s.businesses.rows.map (Table.rewrite _ _)).map _ = _
        rw [List.map_map]
        refine List.map_congr_left fun b _ => ?_
        have ids : stampedIDs (.notified businessID time :: rest) = businessID :: stampedIDs rest := rfl
        simp only [Function.comp_apply, stampedBy, ids, Table.rewrite, List.mem_cons]
        by_cases same : b.id = businessID
        · by_cases again : b.id ∈ stampedIDs rest
          · simp [same]
          · simp [same]
        · simp [same]
      · exact applied.published
      · exact applied.consents

/-- The state of a transaction after a commit. -/
theorem committed_commit {t : NewArrivalsWorld} {other : String} {writes writes' : List DigestWrite}
    (h : (t.scans.finish tx (.committed writes)).state other = .committed writes') :
    other = tx ∧ writes' = writes ∨ other ≠ tx ∧ t.scans.state other = .committed writes' := by
  rw [Transactions.finish_state] at h
  by_cases same : other = tx
  · rw [same, Function.update_self] at h
    exact .inl ⟨same, (TxState.committed.inj h).symm⟩
  · rw [Function.update_of_ne same] at h
    exact .inr ⟨same, h⟩

/-- The commit of a scan that is done with every business keeps the invariant. -/
theorem commit_inv {now : Int} {ids : List String} {writes : List DigestWrite} {t u : NewArrivalsWorld}
    (known : Digesting deps tx now [] none ids writes t) (inv : (digestProtocol deps).inv t) (applied : Applied tx now writes t u)
    (scans : u.scans = t.scans.finish tx (.committed writes)) : (digestProtocol deps).inv u := by
  obtain ⟨right, lastStamp⟩ := inv
  have own : u.scans.state tx = .committed writes := by
    rw [scans]
    exact Function.update_self ..
  have kept : ∀ other writes', t.scans.state other = .committed writes' → u.scans.state other = .committed writes' := by
    intro other writes' committed
    have ne : other ≠ tx := fun same => not_committed known.active writes' (same ▸ committed)
    rw [scans]
    exact (Function.update_of_ne ne _ _).trans committed
  have cases' : ∀ other writes', u.scans.state other = .committed writes' →
      other = tx ∧ writes' = writes ∨ other ≠ tx ∧ t.scans.state other = .committed writes' := by
    intro other writes' h
    rw [scans] at h
    exact committed_commit h
  -- the stamp that the scan has read covers every digest before its own
  have before : ∀ other writes', t.scans.state other = .committed writes' → ∀ businessID time time',
      .notified businessID time ∈ writes → .notified businessID time' ∈ writes' → time' + intervalMillis deps ≤ time := by
    intro other writes' committed businessID time time' mem mem'
    obtain ⟨rfl, -, -, row, hrow, same, bound⟩ := known.stamped businessID time mem
    obtain ⟨b, hb, same', last, stamp, le⟩ := lastStamp other writes' committed businessID time' mem'
    obtain rfl : row = b := Table.eq_of_key hrow hb (same.trans same'.symm)
    have cooled := bound last stamp
    omega
  have stampedRow : ∀ b ∈ t.businesses.rows, stampedBy tx now writes b ∈ u.businesses.rows := by
    intro b mem
    rw [applied.businesses]
    exact List.mem_map_of_mem mem
  refine ⟨?_, fun other writes' committed businessID time mem => ?_⟩
  · constructor
    · intro first second writes₁ writes₂ ne h₁ h₂ businessID time time' mem mem'
      rcases cases' first writes₁ h₁ with ⟨rfl, rfl⟩ | ⟨-, h₁⟩
      · rcases cases' second writes₂ h₂ with ⟨rfl, -⟩ | ⟨-, h₂⟩
        · exact (ne rfl).elim
        · exact .inr (before second writes₂ h₂ businessID time time' mem mem')
      · rcases cases' second writes₂ h₂ with ⟨rfl, rfl⟩ | ⟨-, h₂⟩
        · exact .inl (before first writes₁ h₁ businessID time' time mem' mem)
        · exact right.apart first second writes₁ writes₂ ne h₁ h₂ businessID time time' mem mem'
    · intro other writes' h businessID businessID' time time' mem mem'
      rcases cases' other writes' h with ⟨-, rfl⟩ | ⟨-, h⟩
      · exact (known.stamped businessID time mem).1.trans (known.stamped businessID' time' mem').1.symm
      · exact right.time other writes' h businessID businessID' time time' mem mem'
    · intro other writes' h
      have grows : ∀ consent ∈ t.consents, consent ∈ u.consents := fun _ mem => applied.consents ▸ mem
      rcases cases' other writes' h with ⟨rfl, rfl⟩ | ⟨-, h⟩
      · refine ⟨known.rows.mono grows, fun r mem => ⟨?_, ?_⟩⟩
        · rw [applied.messages]
          exact List.mem_append_right _ mem
        · rcases known.belongs r mem with stamped | ⟨b, customers, here, -⟩
          · exact stamped
          · cases here
      · obtain ⟨rows, there⟩ := right.rows other writes' h
        refine ⟨rows.mono grows, fun r mem => ⟨?_, (there r mem).2⟩⟩
        rw [applied.messages]
        exact List.mem_append_left _ (there r mem).1
    · intro r mem other signed
      rw [applied.messages] at mem
      rcases List.mem_append.1 mem with old | new
      · obtain ⟨writes', committed, own'⟩ := right.noRows r old other signed
        exact ⟨writes', kept other writes' committed, own'⟩
      · obtain rfl : tx = other := Option.some.inj ((known.rows.signed r new).symm.trans signed)
        exact ⟨writes, own, new⟩
    · intro b' mem other signed
      rw [applied.businesses] at mem
      obtain ⟨b, hb, rfl⟩ := List.mem_map.1 mem
      unfold stampedBy at signed ⊢
      split at signed
      · rename_i stamped
        obtain rfl : tx = other := Option.some.inj signed
        obtain ⟨time, mem⟩ := mem_stampedIDs.1 stamped
        rw [if_pos stamped]
        exact ⟨writes, own, now, rfl, (known.stamped b.id time mem).1 ▸ mem⟩
      · rename_i stamped
        rw [if_neg stamped]
        obtain ⟨writes', committed, rest⟩ := right.noStamps b hb other signed
        exact ⟨writes', kept other writes' committed, rest⟩
    · intro id mem
      rw [applied.published] at mem
      obtain ⟨other, writes', committed, own'⟩ := right.published id mem
      exact ⟨other, writes', kept other writes' committed, own'⟩
  · rcases cases' other writes' committed with ⟨-, rfl⟩ | ⟨-, committed⟩
    · obtain ⟨rfl, -, -, row, hrow, same, -⟩ := known.stamped businessID time mem
      refine ⟨_, stampedRow row hrow, (stampedBy_id ..).trans same, time, ?_, le_rfl⟩
      unfold stampedBy
      rw [if_pos (mem_stampedIDs.2 ⟨time, same ▸ mem⟩)]
    · obtain ⟨b, hb, same, last, stamp, le⟩ := lastStamp other writes' committed businessID time mem
      refine ⟨_, stampedRow b hb, (stampedBy_id ..).trans same, ?_⟩
      unfold stampedBy
      split
      · rename_i stamped
        obtain ⟨time', mem'⟩ := mem_stampedIDs.1 stamped
        have apart := before other writes' committed businessID time' time (same ▸ mem') mem
        have positive := intervalMillis_nonneg deps
        obtain ⟨rfl, -⟩ := known.stamped b.id time' mem'
        exact ⟨time', rfl, by omega⟩
      · exact ⟨last, stamp, le⟩

theorem safe_commitDigest {now : Int} {ids : List String} (known : DigestStands deps tx (.digesting now [] none ids) w) :
    Safe (newArrivalsFlow deps) (digestProtocol deps) (.scan tx) (Replied (fun _ => DigestStands deps tx (.committed ids)) fun _ => True)
      (call (I := newArrivalsStore) (.commit tx)) w := by
  apply safe_digest known
  · intro t dead
    exact dead_digest dead
  · rintro t inv - ⟨writes, digesting⟩
    have commits : newArrivalsExec (.commit tx) t =
        (.ok (), { applyDigest tx t writes with scans := t.scans.finish tx (.committed writes) }) := withinDigest_active digesting.active
    rw [commits]
    have applied := @applyDigest_applied tx now writes (fun b time mem => (digesting.stamped b time mem).1) t digesting.fresh.1
      digesting.fresh.2
    have free : ∀ other, other ≠ tx → t.scans.holder ≠ some other := by
      intro other ne holds
      exact ne (Option.some.inj (holds.symm.trans digesting.holder))
    refine ⟨commit_inv digesting inv ⟨applied.messages, applied.businesses, applied.published, applied.consents⟩ rfl,
      others_notice fun other ne => ?_, .inr ⟨writes, Function.update_self .., digesting.toPublish⟩⟩
    exact ⟨Function.update_of_ne ne _ _, fun holds => (free other ne holds).elim, fun _ mem => applied.consents ▸ mem,
      fun holds => (free other ne holds).elim, fun holds => (free other ne holds).elim⟩

/-- What is published is committed. -/
theorem safe_publish {ids : List String} {id : String} (mem : id ∈ ids) (known : DigestStands deps tx (.committed ids) w) :
    Safe (newArrivalsFlow deps) (digestProtocol deps) (.scan tx) (fun _ => DigestStands deps tx (.committed ids))
      (call (I := newArrivalsStore) (.publishOutbound id)) w := by
  apply Safe.call
  · intro t rely inv _
    have beside : ∀ other, Unnoticed other t { t with published := t.published ++ [id] } := fun _ =>
      ⟨rfl, fun holds => holds, fun _ mem => mem, fun _ b mem => ⟨b, mem, rfl, rfl⟩, fun _ _ _ _ _ absent => absent⟩
    have known' := (beside tx).stands (rely _ known)
    refine ⟨⟨?_, inv.2⟩, others_notice fun other _ => beside other, known', fun _ => known'⟩
    rcases rely _ known with ⟨ended, -⟩ | ⟨writes, committed, own⟩
    · cases ended
    · refine ⟨inv.1.apart, inv.1.time, fun other writes' h => ?_, inv.1.noRows, inv.1.noStamps, fun id' mem' => ?_⟩
      · obtain ⟨rows, there⟩ := inv.1.rows other writes' h
        refine ⟨?_, there⟩
        apply RowsRight.mono _ rows
        exact fun _ mem => mem
      · rcases List.mem_append.1 mem' with old | new
        · exact inv.1.published id' old
        · obtain rfl := List.mem_singleton.1 new
          exact ⟨tx, writes, committed, own id' mem⟩
  · intro t rely _ _
    exact rely _ known
  · intro t _ _ _
    trivial

/-! ## Scans -/

/-- What an error leaves open. -/
abbrev Publishing (stage : List String → DigestStage) (deps : NewArrivalsDeps) (tx : String) :
    Except ScanErr (List String) → NewArrivalsWorld → Prop :=
  Replied (fun ids => DigestStands deps tx (stage ids)) fun _ => True

theorem skip_customer {now : Int} {left : List BusinessRow} {b : BusinessRow} {c : CustomerRow} {rest : List CustomerRow}
    {ids : List String} (known : DigestStands deps tx (.digesting now left (some (b, c :: rest)) ids) w) :
    DigestStands deps tx (.digesting now left (some (b, rest)) (ids ++ [])) w := by
  rw [List.append_nil]
  rcases known with dead | ⟨writes, digesting⟩
  · exact .inl dead
  · exact .inr ⟨writes, digesting.skip⟩

theorem safe_digestCustomer {s : DigestScan} {now : Int} {left : List BusinessRow} {b : BusinessRow} {categories : List String}
    {c : CustomerRow} {rest : List CustomerRow} {ids : List String}
    (known : DigestStands deps s.tx (.digesting now left (some (b, c :: rest)) ids) w) :
    Safe (newArrivalsFlow deps) (digestProtocol deps) (.scan s.tx)
      (Publishing (fun more => .digesting now left (some (b, rest)) (ids ++ more)) deps s.tx) (digestCustomer s b categories c) w := by
  unfold digestCustomer
  split
  · exact skip_customer known
  · refine Safe.bind ((Safe.mapErr_replied (safe_read ?_ known)).mono fun reply t known => ?_)
    · trivial
    cases reply with
    | error e => trivial
    | ok conversation =>
      cases conversation with
      | none => exact skip_customer known
      | some conversationID =>
        refine Safe.bind ((Safe.mapErr_replied (safe_insertTemplate rfl rfl rfl rfl known)).mono fun reply u known => ?_)
        cases reply with
        | error e => trivial
        | ok _ => exact known

theorem safe_digestCustomers {s : DigestScan} {now : Int} {left : List BusinessRow} {b : BusinessRow} {categories : List String}
    {customers : List CustomerRow} {ids : List String}
    (known : DigestStands deps s.tx (.digesting now left (some (b, customers)) ids) w) :
    Safe (newArrivalsFlow deps) (digestProtocol deps) (.scan s.tx)
      (Publishing (fun more => .digesting now left (some (b, [])) (ids ++ more)) deps s.tx) (digestCustomers s b categories customers) w := by
  induction customers generalizing w ids with
  | nil =>
    show DigestStands deps s.tx (.digesting now left (some (b, [])) (ids ++ [])) w
    rw [List.append_nil]
    exact known
  | cons c rest ih =>
    unfold digestCustomers
    refine Safe.bind ((safe_digestCustomer known).mono fun reply t known => ?_)
    cases reply with
    | error e => trivial
    | ok own =>
      refine Safe.bind ((ih known).mono fun reply u known => ?_)
      cases reply with
      | error e => trivial
      | ok more =>
        show DigestStands deps s.tx (.digesting now left (some (b, [])) (ids ++ (own ++ more))) u
        rw [← List.append_assoc]
        exact known

theorem safe_digestBusiness {s : DigestScan} {now : Int} {b : BusinessRow} {rest : List BusinessRow}
    {categories : List (Option String)} {ids : List String} (fits : IntervalFits deps) (nodup : ((b :: rest).map BusinessRow.id).Nodup)
    (due : deps.notDue now b = false) (known : DigestStands deps s.tx (.digesting now (b :: rest) none ids) w) :
    Safe (newArrivalsFlow deps) (digestProtocol deps) (.scan s.tx)
      (Publishing (fun more => .digesting now rest none (ids ++ more)) deps s.tx) (digestBusiness s now b categories) w := by
  unfold digestBusiness
  refine Safe.bind ((Safe.mapErr_replied (safe_optedIn fits nodup due known)).mono fun reply t known => ?_)
  cases reply with
  | error e => trivial
  | ok customers =>
    refine Safe.bind ((safe_digestCustomers known).mono fun reply u known => ?_)
    cases reply with
    | error e => trivial
    | ok own =>
      refine Safe.bind ((Safe.mapErr_replied (safe_stampNotified known)).mono fun reply v known => ?_)
      cases reply with
      | error e => trivial
      | ok _ => exact known

/-- A business that is passed over. -/
theorem skip_business {now : Int} {b : BusinessRow} {rest : List BusinessRow} {ids : List String}
    (known : DigestStands deps tx (.digesting now (b :: rest) none ids) w) : DigestStands deps tx (.digesting now rest none ids) w := by
  rcases known with dead | ⟨writes, digesting⟩
  · exact .inl dead
  · refine .inr ⟨writes, digesting.holder, digesting.active, digesting.rows, digesting.fresh, digesting.toPublish, digesting.belongs,
      fun businessID time mem => ?_, fun b' mem => digesting.untouched b' (List.mem_cons_of_mem _ mem), fun b' customers here => ?_⟩
    · obtain ⟨same, notLeft, notCurrent, row⟩ := digesting.stamped businessID time mem
      exact ⟨same, fun later => notLeft (List.mem_cons_of_mem _ later), notCurrent, row⟩
    · cases here

theorem safe_digestBusinesses {s : DigestScan} {now : Int} {left : List BusinessRow} {ids : List String} (fits : IntervalFits deps)
    (nodup : (left.map BusinessRow.id).Nodup) (known : DigestStands deps s.tx (.digesting now left none ids) w) :
    Safe (newArrivalsFlow deps) (digestProtocol deps) (.scan s.tx)
      (Publishing (fun more => .digesting now [] none (ids ++ more)) deps s.tx) (digestBusinesses deps s now left) w := by
  induction left generalizing w ids with
  | nil =>
    show DigestStands deps s.tx (.digesting now [] none (ids ++ [])) w
    rw [List.append_nil]
    exact known
  | cons b rest ih =>
    have nodup' := (List.nodup_cons.1 nodup).2
    unfold digestBusinesses
    cases due : deps.notDue now b with
    | true => exact ih nodup' (skip_business known)
    | false =>
      refine Safe.bind ((Safe.mapErr_replied (safe_read ?_ known)).mono fun reply t known => ?_)
      · trivial
      cases reply with
      | error e => trivial
      | ok categories =>
        simp only
        split
        · exact ih nodup' (skip_business known)
        · refine Safe.bind ((safe_digestBusiness fits nodup due known).mono fun reply u known => ?_)
          cases reply with
          | error e => trivial
          | ok own =>
            refine Safe.bind ((ih nodup' known).mono fun reply v known => ?_)
            cases reply with
            | error e => trivial
            | ok more =>
              show DigestStands deps s.tx (.digesting now [] none (ids ++ (own ++ more))) v
              rw [← List.append_assoc]
              exact known

theorem safe_digestWithin {s : DigestScan} (fits : IntervalFits deps) (known : DigestStands deps s.tx .begun w) :
    Safe (newArrivalsFlow deps) (digestProtocol deps) (.scan s.tx) (Publishing .committed deps s.tx) (digestWithin deps s) w := by
  unfold digestWithin
  refine Safe.bind ((Safe.mapErr_replied (safe_lockDigest known)).mono fun reply t known => ?_)
  cases reply with
  | error e => trivial
  | ok _ =>
    refine Safe.bind ((Safe.mapErr_replied (safe_businesses known)).mono fun reply t known => ?_)
    cases reply with
    | error e => trivial
    | ok businesses =>
      obtain ⟨nodup, known⟩ := known
      have clock : Safe (newArrivalsFlow deps) (digestProtocol deps) (.scan s.tx)
          (Replied (fun now => DigestStands deps s.tx (.digesting now businesses none [])) fun _ => True)
          (call (I := newArrivalsStore) .now) t := by
        apply Safe.call
        · intro u rely inv _
          exact ⟨inv, fun j _ => (digestProtocol deps).refl j u, rely _ (known u.clock), fun _ => trivial⟩
        · intro u _ _ _
          trivial
        · intro u _ _ _
          trivial
      refine Safe.bind (clock.mono fun reply u known => ?_)
      cases reply with
      | error e => trivial
      | ok now =>
        refine Safe.bind ((safe_digestBusinesses fits nodup known).mono fun reply v known => ?_)
        cases reply with
        | error e => trivial
        | ok toPublish =>
          have known : DigestStands deps s.tx (.digesting now [] none toPublish) v := known
          refine Safe.bind ((Safe.mapErr_replied (safe_commitDigest known)).mono fun reply x known => ?_)
          cases reply with
          | error e => trivial
          | ok _ => exact known

theorem safe_publishAll {publisher : Bool} {ids left : List String} (subset : ∀ id ∈ left, id ∈ ids)
    (known : DigestStands deps tx (.committed ids) w) :
    Safe (newArrivalsFlow deps) (digestProtocol deps) (.scan tx) (fun _ _ => True) (publishAll publisher left) w := by
  induction left generalizing w with
  | nil => trivial
  | cons id rest ih =>
    have subset' : ∀ id ∈ rest, id ∈ ids := fun id mem => subset id (List.mem_cons_of_mem _ mem)
    unfold publishAll
    split
    · exact ih subset' known
    · have one := safe_publish (subset id List.mem_cons_self) known
      refine Safe.bind (Safe.bind (Safe.attempt (one.mono fun reply t known => ?_)))
      exact ih subset' known

/-- One statement that anybody may issue. -/
theorem safe_anybody {i : NewArrivalsName} {op : NewArrivalsStmt} (passive : PassiveDigest op) :
    Safe (newArrivalsFlow deps) (digestProtocol deps) i (fun _ _ => True) (call (I := newArrivalsStore) op) w := by
  refine Safe.of_uses (A := PassiveDigest) (uses_call.2 passive) (fun op t passive inv may => ?_) fun _ => trivial
  obtain ⟨inv', others⟩ := keeps_passiveDigest passive may inv
  refine ⟨inv', fun j _ => ?_⟩
  cases j with
  | scan other => exact others other
  | server n => trivial
  | other n => trivial

theorem safe_sweepNewArrivals {s : DigestScan} {publisher : Bool} (fits : IntervalFits deps) :
    Safe (newArrivalsFlow deps) (digestProtocol deps) (.scan s.tx) (fun _ _ => True) (sweepNewArrivals deps s publisher) w := by
  have back : ∀ {u : NewArrivalsWorld}, Safe (newArrivalsFlow deps) (digestProtocol deps) (.scan s.tx) (fun _ _ => True)
      (call (I := newArrivalsStore) (.rollback s.tx)) u := safe_anybody trivial
  unfold sweepNewArrivals
  refine Safe.bind ((Safe.mapErr_replied safe_beginDigest).mono fun reply t known => ?_)
  cases reply with
  | error e => trivial
  | ok _ =>
    refine Safe.bind (Safe.attempt ((safe_digestWithin fits known).mono fun scanned u known => ?_))
    cases scanned with
    | error e => exact Safe.bind (Safe.bind (Safe.attempt (back.mono fun r v _ => trivial)))
    | ok toPublish =>
      refine Safe.bind ((safe_publishAll (fun _ mem => mem) known).mono fun reply v _ => ?_)
      cases reply with
      | error e => trivial
      | ok _ => exact Safe.bind (Safe.attempt (back.mono fun r v _ => trivial))

end Scan

/-- Nothing of a digest is there yet. -/
structure Unnotified (w : NewArrivalsWorld) : Prop where
  scans : ∀ tx, w.scans.state tx = .unused
  rows : ∀ r ∈ w.outboundMessages.rows, r.scan = none
  stamps : ∀ b ∈ w.businesses.rows, b.notifiedBy = none
  published : w.published = []

theorem Unnotified.inv {deps : NewArrivalsDeps} {w : NewArrivalsWorld} (fresh : Unnotified w) : (digestProtocol deps).inv w := by
  have none : ∀ tx writes, w.scans.state tx ≠ .committed writes := by
    intro tx writes h
    rw [fresh.scans tx] at h
    cases h
  refine ⟨?_, fun tx writes h => (none tx writes h).elim⟩
  constructor
  · exact fun tx _ writes _ _ h => (none tx writes h).elim
  · exact fun tx writes h => (none tx writes h).elim
  · exact fun tx writes h => (none tx writes h).elim
  · intro r mem tx signed
    rw [fresh.rows r mem] at signed
    cases signed
  · intro b mem tx signed
    rw [fresh.stamps b mem] at signed
    cases signed
  · intro id mem
    rw [fresh.published] at mem
    cases mem

/-- In every run of the new-arrivals scanner with an interval that is a duration, the digests of a business are the interval
apart, hold one row at most for a customer, who was opted in when read, are there as a whole or not at all, and are
published only once they are there. -/
theorem digests_right {deps : NewArrivalsDeps} {w : NewArrivalsWorld} {c : Crew newArrivalsStore NewArrivalsName NewArrivalsWorld}
    (fits : IntervalFits deps) (fresh : Unnotified w) (reach : (newArrivalsFlow deps).Reach ⟨w, []⟩ c) : DigestsRight deps c.state := by
  refine (Protocol.invariant (R := newArrivalsFlow deps) (P := digestProtocol deps) ?_ reach fresh.inv fun _ => trivial).1
  intro i p s job _ _
  cases job with
  | scan s publisher => exact safe_sweepNewArrivals fits
  | disconnect n tx => exact safe_anybody trivial
  | tick n later => exact safe_anybody trivial
  | insertBusiness n id => exact safe_anybody trivial
  | setTemplate n id templateName => exact safe_anybody trivial
  | insertOutbound n row => exact safe_anybody trivial
  | change n audience => exact safe_anybody trivial

/-! ## An interval that is no duration -/

/-- `newArrivalsProceeds`, computed. -/
def digestProceedsNow (w : NewArrivalsWorld) : NewArrivalsStmt → Bool
  | .lockScanner tx => w.scans.holder == none || w.scans.holder == some tx
  | .insertOutbound row => w.scans.holder.all fun tx => match w.scans.state tx with
    | .active writes => decide (row.id ∉ (rowsOf writes).map TemplateRow.id)
    | _ => true
  | _ => true

theorem digestProceedsNow_iff (w : NewArrivalsWorld) (op : NewArrivalsStmt) :
    digestProceedsNow w op = true ↔ newArrivalsProceeds w op := by
  unfold digestProceedsNow newArrivalsProceeds
  split
  · simp
  · unfold uninserted
    rw [Option.all_eq_true]
    refine forall_congr' fun tx => forall_congr' fun _ => ?_
    cases state : w.scans.state tx with
    | active writes =>
      constructor
      · rintro fresh writes' h
        obtain rfl := TxState.active.inj h
        exact of_decide_eq_true fresh
      · exact fun fresh => decide_eq_true (fresh writes rfl)
    | unused => simp
    | committed writes => simp
    | rolledBack => simp
  · simp

instance (deps : NewArrivalsDeps) (w : NewArrivalsWorld) (op : NewArrivalsStmt) : Decidable ((newArrivalsFlow deps).allow w op) :=
  decidable_of_iff _ (digestProceedsNow_iff w op)

/-- The interval left at its default. -/
def fortnight : NewArrivalsDeps := ⟨0, by decide⟩

/-- 106752 days: its nanoseconds do not fit. -/
def centuries : NewArrivalsDeps := ⟨106752, by decide⟩

/-- A shop with one product, and a customer who wants to hear of it. -/
def audienceOf (products : Table NewProduct.id) : Audience where
  products := products
  customers := ⟨[⟨"esi", "shop", "233200000003", true⟩], by decide⟩
  profiles := Table.empty
  conversations := ⟨[⟨"conv-esi", "shop", "233200000003", .lead, false⟩], by decide⟩

def firstArrival : Table NewProduct.id := ⟨[⟨"bag", "shop", none, true, 5⟩], by decide⟩

def secondArrival : Table NewProduct.id := ⟨[⟨"bag", "shop", none, true, 5⟩, ⟨"shoe", "shop", none, true, 15 * 86400000⟩], by decide⟩

def opening : NewArrivalsWorld where
  clock := 10
  businesses := ⟨[⟨"shop", some "new_arrivals", none, none⟩], by decide⟩
  audience := audienceOf firstArrival
  outboundMessages := Table.empty
  scans := .empty
  published := []
  consents := []

theorem opening_unnotified : Unnotified opening where
  scans := fun _ => rfl
  rows := fun _ mem => (List.not_mem_nil mem).elim
  stamps := by decide
  published := rfl

/-- A scan whose rows are named after it. -/
def scanOf (tx : String) : DigestScan := ⟨tx, String.toLower, fun customerID => tx ++ "-" ++ customerID⟩

/-- What a scan leaves. -/
def afterScan (deps : NewArrivalsDeps) (tx : String) (w : NewArrivalsWorld) : NewArrivalsWorld :=
  ((sweepNewArrivals deps (scanOf tx) true).run newArrivalsExec w).2

/-- A second product, and fifteen days. -/
def later (w : NewArrivalsWorld) : NewArrivalsWorld :=
  (newArrivalsExec (.tick (15 * 86400000)) (newArrivalsExec (.change (audienceOf secondArrival)) w).2).2

theorem reach_scan {deps : NewArrivalsDeps} {tx : String} {w : NewArrivalsWorld}
    (follows : (newArrivalsFlow deps).Follows (sweepNewArrivals deps (scanOf tx) true) w) :
    (newArrivalsFlow deps).Reach ⟨w, []⟩ ⟨afterScan deps tx w, []⟩ :=
  (newArrivalsFlow deps).reach_job (i := .scan tx) (.scan (scanOf tx) true) follows

theorem reach_later {deps : NewArrivalsDeps} {w : NewArrivalsWorld} : (newArrivalsFlow deps).Reach ⟨w, []⟩ ⟨later w, []⟩ := by
  have arrives := (newArrivalsFlow deps).reach_job (i := .other 0) (p := call (I := newArrivalsStore) (.change (audienceOf secondArrival)))
    (s := w) (.change ..) ⟨trivial, trivial⟩
  have waits := (newArrivalsFlow deps).reach_job (i := .other 0) (p := call (I := newArrivalsStore) (.tick (15 * 86400000)))
    (s := (newArrivalsExec (.change (audienceOf secondArrival)) w).2) (.tick ..) ⟨trivial, trivial⟩
  exact arrives.trans waits

/-- Two scans fifteen days apart, with something new in between. -/
def twice (deps : NewArrivalsDeps) : NewArrivalsWorld := afterScan deps "second" (later (afterScan deps "first" opening))

theorem reach_twice {deps : NewArrivalsDeps} (first : (newArrivalsFlow deps).Follows (sweepNewArrivals deps (scanOf "first") true) opening)
    (second : (newArrivalsFlow deps).Follows (sweepNewArrivals deps (scanOf "second") true) (later (afterScan deps "first" opening))) :
    (newArrivalsFlow deps).Reach ⟨opening, []⟩ ⟨twice deps, []⟩ := by
  have notifies := reach_scan first
  have again := reach_scan second
  exact notifies.trans (reach_later.trans again)

/-- With the default interval both are sent and published. -/
theorem digests_right_fortnightly : (twice fortnight).published = ["first-esi", "second-esi"] ∧
    DigestsRight fortnight (twice fortnight) :=
  ⟨by decide +kernel, digests_right (show IntervalFits fortnight by decide) opening_unnotified
    (reach_twice (by decide +kernel) (by decide +kernel))⟩

/-- With an interval of centuries they are sent as well. -/
theorem centuries_are_over : ¬ ∀ c : Crew newArrivalsStore NewArrivalsName NewArrivalsWorld,
    (newArrivalsFlow centuries).Reach ⟨opening, []⟩ c → DigestsRight centuries c.state := by
  intro whole
  have right := whole _ (reach_twice (by decide +kernel) (by decide +kernel))
  have first : (twice centuries).scans.state "first" =
      .committed [.row ⟨"first-esi", "shop", "conv-esi", "233200000003", "new_arrivals", "esi", some "first"⟩, .notified "shop" 10] := by
    decide +kernel
  have second : (twice centuries).scans.state "second" =
      .committed [.row ⟨"second-esi", "shop", "conv-esi", "233200000003", "new_arrivals", "esi", some "second"⟩,
        .notified "shop" 1296000010] := by
    decide +kernel
  have apart := right.apart "first" "second" _ _ (by decide) first second "shop" 10 1296000010 (by simp) (by simp)
  revert apart
  decide

end NovoApex.Customers
