import NovoApex.Embeddings.Provenance

/-!
# Every vector is current in the end

The endpoints write first and publish a task afterwards, and a worker reads, asks and
writes without looking back. A later change is not lost on an earlier task, as it brings a
task of its own; but a worker that has read before the change may write after the task of
the change has, and then nothing is left to put it right (`overtaken`). In the runs where
no task reads a product between the read and the write of another, every vector is that of
the current document once everything is done (`catalog_embedded`), whatever fails on the
way and is retried: a request has to get its task into the queue once it has written, and
a task runs out of retries only for a row that is gone.

The products and images, their vectors and the tasks are a `Refresh`.
-/

namespace NovoApex.Embeddings
set_option autoImplicit false
open Lib Program Workers

variable {S : Type}

/-! ## The abstract system -/

/-- What is embedded: a product's document, or what an image's URL stands for. -/
def source (w : EmbeddingWorld S) : EmbedTask → Option String
  | .product id => (w.products.find? id).map EmbeddedProduct.document
  | .image id => (w.images.find? id).map EmbeddedImage.url

/-- The vector in the row. -/
def stored (w : EmbeddingWorld S) : EmbedTask → Option (List S)
  | .product id => (w.products.find? id).bind EmbeddedProduct.embedding
  | .image id => (w.images.find? id).bind EmbeddedImage.embedding

/-- The vector of a product is that of its document; an image never changes, and any vector of it will do. -/
def isVector (services : EmbeddingServices S) : EmbedTask → String → List S → Prop
  | .product _, document, vector => vector = services.text document
  | .image _, _, _ => True

/-- The catalog and its tasks, as sources and what is derived from them. -/
def view (w : EmbeddingWorld S) : Refresh EmbedTask String (List S) Nat where
  source := source w
  derived := stored w
  owed task := ∃ i, task ∈ w.owes i
  stage := w.tasks

/-- An image is embedded, or there is none under the id. -/
def Settled (w : EmbeddingWorld S) (id : String) : Prop := ∀ image, w.images.find? id = some image → image.embedding.isSome = true

section

variable (services : EmbeddingServices S)

/-- Vectors are current or about to be. -/
structure EmbedInv (w : EmbeddingWorld S) : Prop where
  kept : Refresh.Kept (isVector services) (view w)
  unused : ∀ k, w.next ≤ k → w.tasks k = .absent
  unread : ∀ k id url, w.tasks k ≠ .read (.image id) url
  drawn : ∀ image ∈ w.images.rows, image.id ∈ w.drawn.map Prod.fst

/-- The task is not there or has read nothing. -/
def Unbegun : Stage EmbedTask String → Prop
  | .absent => True
  | .waiting _ => True
  | _ => False

/-- A task is left alone, or enqueued. -/
def Undisturbed (stage stage' : Stage EmbedTask String) : Prop := stage' = stage ∨ stage = .absent ∧ Unbegun stage'

/-- Nobody else owes in a party's name or touches its task, and an image that is embedded stays so. -/
structure EmbedRely (i : EmbedName) (w w' : EmbeddingWorld S) : Prop where
  owes : w'.owes i = w.owes i
  own : ∀ k, i = .run k → Undisturbed (w.tasks k) (w'.tasks k)
  drawn : w.drawn ⊆ w'.drawn
  settled : ∀ id ∈ w.drawn.map Prod.fst, Settled w id → Settled w' id

theorem Undisturbed.trans {a b c : Stage EmbedTask String} (first : Undisturbed a b) (second : Undisturbed b c) : Undisturbed a c := by
  rcases first with rfl | ⟨rfl, unbegun⟩
  · exact second
  · rcases second with rfl | ⟨-, unbegun'⟩
    · exact .inr ⟨rfl, unbegun⟩
    · exact .inr ⟨rfl, unbegun'⟩

/-- A party that is not there owes nothing, and its task has not begun. -/
structure EmbedIdle (i : EmbedName) (w : EmbeddingWorld S) : Prop where
  owes : w.owes i = []
  own : ∀ k, i = .run k → Unbegun (w.tasks k)

theorem EmbedRely.refl (i : EmbedName) (w : EmbeddingWorld S) : EmbedRely i w w := ⟨rfl, fun _ _ => .inl rfl, fun _ h => h, fun _ _ h => h⟩

theorem EmbedRely.trans {i : EmbedName} {w w' w'' : EmbeddingWorld S} (first : EmbedRely i w w') (second : EmbedRely i w' w'') :
    EmbedRely i w w'' where
  owes := second.owes.trans first.owes
  own k own := (first.own k own).trans (second.own k own)
  drawn _ h := second.drawn (first.drawn h)
  settled id mem h := second.settled id (List.map_subset _ first.drawn mem) (first.settled id mem h)

theorem EmbedIdle.steady {i : EmbedName} {w w' : EmbeddingWorld S} (idle : EmbedIdle i w) (rely : EmbedRely i w w') : EmbedIdle i w' where
  owes := rely.owes.trans idle.owes
  own k own := by
    rcases rely.own k own with same | ⟨-, unbegun⟩
    · rw [same]
      exact idle.own k own
    · exact unbegun

def embedProtocol : Protocol EmbedName (EmbeddingWorld S) where
  inv := EmbedInv services
  rely := EmbedRely
  refl := EmbedRely.refl
  trans _ _ _ _ := EmbedRely.trans
  idle := EmbedIdle
  steady _ _ _ rely idle := idle.steady rely

end

/-! ## The runs -/

/-- A statement of the queue, which is there. -/
def ofQueue : EmbeddingStmt S → Bool
  | .publish _ => true
  | .take _ => true
  | .finish _ => true
  | .retry _ => true
  | .archive _ => true
  | _ => false

/-- A write that a task has to follow. -/
def asks : EmbeddingStmt S → Bool
  | .createProduct _ => true
  | .updateProduct .. => true
  | .insertImages .. => true
  | _ => false

/-- The task has read the product and not written yet. -/
def reading (id : String) : Stage EmbedTask String → Bool
  | .read task _ => decide (task = .product id)
  | _ => false

/-- A product is not read between the read and the write of another task, and a task is given up only for a row that is gone. -/
def serial : EmbeddingWorld S → EmbeddingStmt S → Bool
  | w, .fetchProduct id => (List.range w.next).all fun k => !reading id (w.tasks k)
  | w, .archive k => (w.tasks k).key?.all fun task => (source w task).isNone
  | _, _ => true

/-- The runs of that kind. A request that has written and has not published does not stop, nor does a task that has begun: one that
fails is taken back by the queue. -/
def embeddingCareful (services : EmbeddingServices S) : Roster ((embeddingStore S).signed EmbedName) EmbedName (EmbeddingWorld S) where
  exec := embeddingExec services
  job i p := EmbedJob i p ∧ ∀ n, i ≠ .bulk n
  allow w op := draws w op = true ∧ serial w op.2 = true
  faults _ op := ofQueue op.2 = false
  loses _ op := ofQueue op.2 = false ∧ asks op.2 = false
  stops w op := EmbedIdle op.1 w

theorem careful_within (services : EmbeddingServices S) : (embeddingCareful services).Within (embeddingFlow services) where
  exec := rfl
  job _ _ may := may.1
  allow _ _ may := may.1
  faults _ _ _ := trivial
  loses _ _ _ := trivial
  stops _ _ _ := trivial

section Statements

variable {services : EmbeddingServices S} {w w' : EmbeddingWorld S} {i j : EmbedName} {k : Nat} {id : String}

/-! ## What the statements keep -/

/-- Rows change: each is gone or owed a task, unless it is the same to a task. -/
theorem EmbedInv.change (inv : EmbedInv services w) (tasks : w'.tasks = w.tasks) (next : w'.next = w.next)
    (owes : ∀ i task, task ∈ w.owes i → ∃ j, task ∈ w'.owes j)
    (moved : ∀ task, (source w' task = source w task ∧ stored w' task = stored w task) ∨ source w' task = none ∨ ∃ i, task ∈ w'.owes i)
    (drawn : ∀ image ∈ w'.images.rows, image.id ∈ w'.drawn.map Prod.fst) : EmbedInv services w' where
  kept := inv.kept.change (q := view w') tasks (fun task ⟨i, mem⟩ => owes i task mem) moved
  unused k above := by
    rw [tasks]
    exact inv.unused k (next ▸ above)
  unread k := by
    rw [tasks]
    exact inv.unread k
  drawn := drawn

/-- What a party owes is its own. -/
theorem owes_update {tasks : List EmbedTask} (owes : w'.owes = Function.update w.owes i tasks) (nothing : w.owes i = []) (j : EmbedName)
    (task : EmbedTask) (mem : task ∈ w.owes j) : ∃ j, task ∈ w'.owes j := by
  refine ⟨j, ?_⟩
  have other : j ≠ i := by
    rintro rfl
    rw [nothing] at mem
    cases mem
  rw [owes, Function.update_of_ne other]
  exact mem

/-- A party that writes rows and notes what it owes leaves the others alone. -/
theorem EmbedRely.of_owes {tasks : List EmbedTask} (other : j ≠ i) (owes : w'.owes = Function.update w.owes i tasks)
    (same : w'.tasks = w.tasks) (drawn : w.drawn ⊆ w'.drawn)
    (settled : ∀ id ∈ w.drawn.map Prod.fst, Settled w id → Settled w' id) : EmbedRely j w w' :=
  ⟨by rw [owes, Function.update_of_ne other], fun k _ => .inl (by rw [same]), drawn, settled⟩

/-- A party that moves its own task leaves the others alone. -/
theorem EmbedRely.of_task {stage : Stage EmbedTask String} (other : j ≠ .run k) (tasks : w'.tasks = Function.update w.tasks k stage)
    (owes : w'.owes = w.owes) (drawn : w.drawn ⊆ w'.drawn)
    (settled : ∀ id ∈ w.drawn.map Prod.fst, Settled w id → Settled w' id) : EmbedRely j w w' := by
  refine ⟨by rw [owes], fun k' own => ?_, drawn, settled⟩
  have ne : k' ≠ k := fun same => other (same ▸ own)
  exact .inl (by rw [tasks, Function.update_of_ne ne])

/-- A product that is written is owed a task, and the others are as they were. -/
theorem EmbedInv.writeProduct (inv : EmbedInv services w) (others : ∀ id', id' ≠ id → w'.products.find? id' = w.products.find? id')
    (images : w'.images = w.images) (tasks : w'.tasks = w.tasks) (next : w'.next = w.next) (drawn : w'.drawn = w.drawn)
    (owes : w'.owes = Function.update w.owes i [.product id]) (nothing : w.owes i = []) : EmbedInv services w' := by
  refine inv.change tasks next (owes_update owes nothing) (fun task => ?_) (by rw [images, drawn]; exact inv.drawn)
  cases task with
  | image id' => exact .inl (by simp only [source, stored, images, and_self])
  | product id' =>
    by_cases same : id' = id
    · refine .inr (.inr ⟨i, ?_⟩)
      rw [owes, Function.update_self, same]
      exact List.mem_singleton_self _
    · left
      simp only [source, stored, others id' same, and_self]

theorem EmbedInv.create (inv : EmbedInv services w) {p : EmbeddedProduct S} {products : Table (@EmbeddedProduct.id S)}
    (inserted : w.products.insert p = some products) (products' : w'.products = products) (images : w'.images = w.images)
    (tasks : w'.tasks = w.tasks) (next : w'.next = w.next) (drawn : w'.drawn = w.drawn)
    (owes : w'.owes = Function.update w.owes i [.product p.id]) (nothing : w.owes i = []) : EmbedInv services w' := by
  refine inv.writeProduct (fun id' other => ?_) images tasks next drawn owes nothing
  rw [products', Table.find?_insert_of_ne inserted other]

theorem EmbedInv.update (inv : EmbedInv services w) {sets : List Handlers.SetClause} (products : w'.products = setColumns id sets w.products)
    (images : w'.images = w.images) (tasks : w'.tasks = w.tasks) (next : w'.next = w.next) (drawn : w'.drawn = w.drawn)
    (owes : w'.owes = Function.update w.owes i [.product id]) (nothing : w.owes i = []) : EmbedInv services w' := by
  refine inv.writeProduct (fun id' other => ?_) images tasks next drawn owes nothing
  rw [products, setColumns, Table.find?_update_of_ne _ _ _ other]

/-- Images that are inserted are owed tasks. -/
theorem EmbedInv.insert (inv : EmbedInv services w) {productID : String} {rows : List (String × String × Int)}
    (images : w'.images.rows = w.images.rows ++ rows.map (newImage productID)) (products : w'.products = w.products)
    (tasks : w'.tasks = w.tasks) (next : w'.next = w.next) (drawn : w'.drawn = rows.map (fun row => (row.1, row.2.1)) ++ w.drawn)
    (owes : w'.owes = Function.update w.owes i (rows.map fun row => .image row.1)) (nothing : w.owes i = []) : EmbedInv services w' := by
  refine inv.change tasks next (owes_update owes nothing) (fun task => ?_) fun image mem => ?_
  · cases task with
    | product id => exact .inl (by simp only [source, stored, products, and_self])
    | image id =>
      by_cases new : id ∈ rows.map Prod.fst
      · obtain ⟨row, mem, rfl⟩ := List.mem_map.1 new
        refine .inr (.inr ⟨i, ?_⟩)
        rw [owes, Function.update_self]
        exact List.mem_map.2 ⟨row, mem, rfl⟩
      · left
        have same : w'.images.find? id = w.images.find? id := by
          refine Table.find?_append_of_ne images fun image mem => ?_
          obtain ⟨row, listed, rfl⟩ := List.mem_map.1 mem
          rintro rfl
          exact new (List.mem_map_of_mem listed)
        simp only [source, stored, same, and_self]
  · rw [drawn, List.map_append]
    rw [images] at mem
    rcases List.mem_append.1 mem with old | new
    · exact List.mem_append_right _ (inv.drawn image old)
    · obtain ⟨row, listed, rfl⟩ := List.mem_map.1 new
      refine List.mem_append_left _ ?_
      rw [List.map_map]
      exact List.mem_map.2 ⟨row, listed, rfl⟩

/-- A row that a delete selects is gone, and the others are as they were. -/
theorem delete_moved {R : Type} {key : R → String} (t : Table key) (p : R → Bool) (id : String) :
    (t.delete p).find? id = t.find? id ∨ (t.delete p).find? id = none := by
  rw [Table.find?_delete]
  cases t.find? id with
  | none => exact .inl rfl
  | some r =>
    rw [Option.filter_some]
    split
    · exact .inl rfl
    · exact .inr rfl

/-- Rows are deleted. -/
theorem EmbedInv.delete (inv : EmbedInv services w) {selected : EmbeddedProduct S → Bool} {dropped : EmbeddedImage S → Bool}
    (products : w'.products = w.products.delete selected) (images : w'.images = w.images.delete dropped)
    (tasks : w'.tasks = w.tasks) (next : w'.next = w.next) (drawn : w'.drawn = w.drawn) (owes : w'.owes = w.owes) :
    EmbedInv services w' := by
  refine inv.change tasks next (fun i task mem => ⟨i, by rw [owes]; exact mem⟩) (fun task => ?_) fun image mem => ?_
  · cases task with
    | product id =>
      rcases delete_moved w.products selected id with same | gone
      · exact .inl (by simp only [source, stored, products, same, and_self])
      · exact .inr (.inl (by simp only [source, products, gone, Option.map_none]))
    | image id =>
      rcases delete_moved w.images dropped id with same | gone
      · exact .inl (by simp only [source, stored, images, same, and_self])
      · exact .inr (.inl (by simp only [source, images, gone, Option.map_none]))
  · rw [drawn]
    rw [images] at mem
    exact inv.drawn image (Table.mem_delete.1 mem).1

/-- An embedded image that a delete leaves is still embedded. -/
theorem Settled.delete (h : Settled w id) {dropped : EmbeddedImage S → Bool} (images : w'.images = w.images.delete dropped) : Settled w' id := by
  intro image found
  rw [images, Table.find?_delete] at found
  exact h image (Option.filter_eq_some_iff.1 found).1

/-! ## What the tasks keep -/

/-- A task moves on without reading. -/
theorem EmbedInv.advance (inv : EmbedInv services w) {next : Stage EmbedTask String} (tasks : w'.tasks = Function.update w.tasks k next)
    (used : next = .absent ∨ k < w'.next) (later : w.next ≤ w'.next) (unread : ∀ task v, next ≠ .read task v)
    (sources : ∀ task, source w' task = source w task) (owes : ∀ i task, task ∈ w.owes i → (∃ j, task ∈ w'.owes j) ∨ next = .waiting task)
    (waited : ∀ task, w.tasks k = .waiting task → next = .waiting task ∨ source w task = none ∨
      (view w').Right (isVector services) task ∧ ¬ (view w).BeingRead task)
    (wrote : ∀ task v, w.tasks k = .read task v → next = .waiting task ∨ source w task ≠ some v ∨ (view w').Right (isVector services) task)
    (vectors : ∀ task, stored w' task = stored w task ∨ (view w').Right (isVector services) task ∨
      ∃ v, w.tasks k = .read task v ∧ source w task ≠ some v)
    (images : ∀ image ∈ w'.images.rows, image.id ∈ w.drawn.map Prod.fst) (drawn : w'.drawn = w.drawn) : EmbedInv services w' where
  kept := inv.kept.advance (q := view w') (funext sources) tasks (fun task ⟨i, mem⟩ => owes i task mem) unread waited wrote vectors
  unused k' above := by
    have ne : k' ≠ k ∨ next = .absent := used.symm.imp_left fun below same => absurd above (by omega)
    rw [tasks]
    by_cases same : k' = k
    · rw [same, Function.update_self]
      exact ne.resolve_left fun h => h same
    · rw [Function.update_of_ne same]
      exact inv.unused k' (by omega)
  unread k' id url := by
    rw [tasks]
    by_cases same : k' = k
    · rw [same, Function.update_self]
      exact unread _ _
    · rw [Function.update_of_ne same]
      exact inv.unread k' id url
  drawn := by rw [drawn]; exact images

/-- A task in use has a number below the next. -/
theorem EmbedInv.below (inv : EmbedInv services w) {t : EmbedTask} (there : (w.tasks k).key? = some t) : k < w.next := by
  by_contra above
  rw [inv.unused k (Nat.not_lt.1 above)] at there
  cases there

/-- No task is between its read and its write. -/
theorem EmbedInv.serial_fetch (inv : EmbedInv services w) (h : serial w (.fetchProduct id) = true) : ¬ (view w).BeingRead (.product id) := by
  rintro ⟨k, document, reads⟩
  have below : k < w.next := by
    refine inv.below (t := .product id) ?_
    rw [show w.tasks k = _ from reads]
    rfl
  have free := List.all_eq_true.1 h k (List.mem_range.2 below)
  rw [show w.tasks k = _ from reads] at free
  simp [reading] at free

theorem serial_archive (h : serial w (.archive k) = true) (task : EmbedTask) (there : (w.tasks k).key? = some task) : source w task = none := by
  simpa only [serial, there, Option.all_some, Option.isNone_iff_eq_none] using h

/-- What is owed is enqueued. -/
theorem EmbedInv.publish (inv : EmbedInv services w) (i : EmbedName) (task : EmbedTask) : EmbedInv services { w with
    tasks := Function.update w.tasks w.next (.waiting task)
    next := w.next + 1
    owes := Function.update w.owes i ((w.owes i).erase task) } := by
  have free : w.tasks w.next = .absent := inv.unused _ (Nat.le_refl _)
  refine inv.advance (k := w.next) rfl (.inr (Nat.lt_succ_self _)) (Nat.le_succ _) (fun _ _ absurd_ => by cases absurd_) (fun _ => rfl)
    (fun j other mem => ?_) (fun other waits => ?_) (fun other v reads => ?_) (fun _ => .inl rfl) inv.drawn rfl
  · by_cases same : other = task
    · exact .inr (by rw [same])
    · refine .inl ⟨j, ?_⟩
      by_cases own : j = i
      · subst own
        show other ∈ Function.update w.owes j _ j
        rw [Function.update_self]
        exact (List.mem_erase_of_ne same).2 mem
      · show other ∈ Function.update w.owes i _ j
        rw [Function.update_of_ne own]
        exact mem
  · rw [free] at waits
    cases waits
  · rw [free] at reads
    cases reads

/-- A task is done: it has written, or its image is embedded. -/
theorem EmbedInv.finish (inv : EmbedInv services w) (through : (∃ task, w.tasks k = .done task) ∨ ∃ id, w.tasks k = .waiting (.image id) ∧ Settled w id) :
    EmbedInv services { w with tasks := Function.update w.tasks k .absent } := by
  refine inv.advance rfl (.inl rfl) (Nat.le_refl _) (fun _ _ absurd_ => by cases absurd_) (fun _ => rfl) (fun i task mem => .inl ⟨i, mem⟩)
    (fun task waits => ?_) (fun task v reads => ?_) (fun _ => .inl rfl) inv.drawn rfl
  · rcases through with ⟨_, done⟩ | ⟨id, waiting, settled⟩
    · rw [done] at waits
      cases waits
    · rw [waiting] at waits
      cases waits
      refine .inr (.inr ⟨fun url there => ?_, fun ⟨j, v, reads⟩ => inv.unread j id v reads⟩)
      obtain ⟨image, found, -⟩ := Option.map_eq_some_iff.1 there
      obtain ⟨vector, embedded⟩ := Option.isSome_iff_exists.1 (settled image found)
      refine ⟨vector, ?_, trivial⟩
      show (w.images.find? id).bind EmbeddedImage.embedding = some vector
      rw [found]
      exact embedded
  · rcases through with ⟨_, done⟩ | ⟨id, waiting, -⟩
    · rw [done] at reads
      cases reads
    · rw [waiting] at reads
      cases reads

/-- A task that failed is taken back. -/
theorem EmbedInv.retry (inv : EmbedInv services w) {task : EmbedTask} (there : (w.tasks k).key? = some task) :
    EmbedInv services { w with tasks := Function.update w.tasks k (waits (w.tasks k)) } := by
  have again : waits (w.tasks k) = .waiting task := by
    cases stage : w.tasks k with
    | absent =>
      rw [stage] at there
      cases there
    | waiting _ | read _ _ | done _ =>
      rw [stage] at there
      cases there
      rfl
  rw [again]
  refine inv.advance rfl (.inr (inv.below there)) (Nat.le_refl _) (fun _ _ absurd_ => by cases absurd_) (fun _ => rfl)
    (fun i task mem => .inl ⟨i, mem⟩) (fun other waits => ?_) (fun other v reads => ?_) (fun _ => .inl rfl) inv.drawn rfl
  · rw [waits] at there
    cases there
    exact .inl rfl
  · rw [reads] at there
    cases there
    exact .inl rfl

/-- A task is given up, and its row is gone. -/
theorem EmbedInv.archive (inv : EmbedInv services w) (gone : ∀ task, (w.tasks k).key? = some task → source w task = none) :
    EmbedInv services { w with tasks := Function.update w.tasks k .absent } := by
  refine inv.advance rfl (.inl rfl) (Nat.le_refl _) (fun _ _ absurd_ => by cases absurd_) (fun _ => rfl) (fun i task mem => .inl ⟨i, mem⟩)
    (fun task waits => .inr (.inl (gone task (by rw [waits]; rfl)))) (fun task v reads => .inr (.inl ?_)) (fun _ => .inl rfl) inv.drawn rfl
  rw [gone task (by rw [reads]; rfl)]
  exact fun absurd_ => by cases absurd_

/-- A task reads the document of its product. -/
theorem EmbedInv.fetch (inv : EmbedInv services w) {p : EmbeddedProduct S} (waits : w.tasks k = .waiting (.product id))
    (found : w.products.find? id = some p) (serial : ¬ (view w).BeingRead (.product id)) :
    EmbedInv services { w with tasks := Function.update w.tasks k (.read (.product id) p.document) } where
  kept := by
    refine inv.kept.read (q := view _) rfl rfl rfl rfl waits ?_ serial
    show (w.products.find? id).map EmbeddedProduct.document = _
    rw [found]
    rfl
  unused k' above := by
    have ne : k' ≠ k := by
      rintro rfl
      exact absurd (inv.below (t := .product id) (by rw [waits]; rfl)) (Nat.not_lt.2 above)
    show Function.update w.tasks k _ k' = _
    rw [Function.update_of_ne ne]
    exact inv.unused k' above
  unread k' id' url reads := by
    rcases Refresh.stage_moved (r := view w) (q := view { w with tasks := Function.update w.tasks k (.read (.product id) p.document) })
      rfl reads with ⟨-, new⟩ | ⟨-, before⟩
    · cases new
    · exact inv.unread k' id' url before
  drawn := inv.drawn

theorem find?_setProductVector (id : String) (vector : List S) (products : Table (@EmbeddedProduct.id S)) :
    (setProductVector id vector products).find? id = (products.find? id).map fun p => { p with embedding := some vector } :=
  Table.find?_update_keyed ..

theorem find?_setProductVector_of_ne {id' : String} (vector : List S) (products : Table (@EmbeddedProduct.id S)) (other : id' ≠ id) :
    (setProductVector id vector products).find? id' = products.find? id' := Table.find?_update_of_ne _ _ _ other

theorem find?_setImageVector (id : String) (vector : List S) (images : Table (@EmbeddedImage.id S)) :
    (setImageVector id vector images).find? id = (images.find? id).map fun i => { i with embedding := some vector } :=
  Table.find?_update_keyed ..

theorem find?_setImageVector_of_ne {id' : String} (vector : List S) (images : Table (@EmbeddedImage.id S)) (other : id' ≠ id) :
    (setImageVector id vector images).find? id' = images.find? id' := Table.find?_update_of_ne _ _ _ other

theorem source_setProductVector {vector : List S} (products : w'.products = setProductVector id vector w.products) (images : w'.images = w.images)
    (task : EmbedTask) : source w' task = source w task := by
  cases task with
  | image id => simp only [source, images]
  | product id' =>
    simp only [source, products]
    by_cases same : id' = id
    · rw [same, find?_setProductVector, Option.map_map]
      rfl
    · rw [find?_setProductVector_of_ne _ _ same]

/-- A task writes the vector of the document it has read. -/
theorem EmbedInv.write (inv : EmbedInv services w) {document : String} (reads : w.tasks k = .read (.product id) document) :
    EmbedInv services { w with
      products := setProductVector id (services.text document) w.products
      tasks := Function.update w.tasks k (.done (.product id)) } := by
  have sources : ∀ task, source { w with
      products := setProductVector id (services.text document) w.products
      tasks := Function.update w.tasks k (.done (.product id)) } task = source w task := source_setProductVector rfl rfl
  -- unless the product has changed since
  have made : source w (.product id) = some document → (view { w with
      products := setProductVector id (services.text document) w.products
      tasks := Function.update w.tasks k (.done (.product id)) }).Right (isVector services) (.product id) := by
    intro current v there
    obtain ⟨p, found, -⟩ := Option.map_eq_some_iff.1 current
    refine ⟨services.text document, ?_, ?_⟩
    · show ((setProductVector id (services.text document) w.products).find? id).bind EmbeddedProduct.embedding = _
      rw [find?_setProductVector, found]
      rfl
    · rw [Option.some.inj (current.symm.trans ((sources _).symm.trans there))]
      exact rfl
  refine inv.advance rfl (.inr (inv.below (t := .product id) (by rw [reads]; rfl))) (Nat.le_refl _) (fun _ _ absurd_ => by cases absurd_)
    sources (fun i task mem => .inl ⟨i, mem⟩) (fun task waits => ?_) (fun task v reads' => ?_) (fun task => ?_) inv.drawn rfl
  · rw [reads] at waits
    cases waits
  · rw [reads] at reads'
    cases reads'
    by_cases current : source w (.product id) = some document
    · exact .inr (.inr (made current))
    · exact .inr (.inl current)
  · cases task with
    | image id => exact .inl rfl
    | product id' =>
      by_cases same : id' = id
      · subst same
        by_cases current : source w (.product id') = some document
        · exact .inr (.inl (made current))
        · exact .inr (.inr ⟨document, reads, current⟩)
      · left
        simp only [stored, find?_setProductVector_of_ne _ _ same]

/-- An image gets a vector. -/
theorem EmbedInv.illustrate (inv : EmbedInv services w) (id : String) (vector : List S) :
    EmbedInv services { w with images := setImageVector id vector w.images } where
  kept := by
    have sources : ∀ task, source { w with images := setImageVector id vector w.images } task = source w task := by
      intro task
      cases task with
      | product id => rfl
      | image id' =>
        simp only [source]
        by_cases same : id' = id
        · rw [same, find?_setImageVector, Option.map_map]
          rfl
        · rw [find?_setImageVector_of_ne _ _ same]
    refine inv.kept.improve (q := view _) (funext sources) rfl rfl fun task => ?_
    cases task with
    | product id => exact .inl rfl
    | image id' =>
      by_cases same : id' = id
      · subst same
        refine .inr fun url there => ?_
        obtain ⟨image, found, -⟩ := Option.map_eq_some_iff.1 ((sources (.image id')).symm.trans there)
        refine ⟨vector, ?_, trivial⟩
        show ((setImageVector id' vector w.images).find? id').bind EmbeddedImage.embedding = _
        rw [find?_setImageVector, found]
        rfl
      · left
        show ((setImageVector id vector w.images).find? id').bind EmbeddedImage.embedding = _
        rw [find?_setImageVector_of_ne _ _ same]
        rfl
  unused := inv.unused
  unread := inv.unread
  drawn image mem := by
    rcases mem_setImageVector.1 mem with ⟨old, -⟩ | ⟨old, there, -, rfl⟩
    · exact inv.drawn image old
    · exact inv.drawn old there

theorem settled_illustrate (id : String) (vector : List S) : Settled { w with images := setImageVector id vector w.images } id := by
  intro image found
  obtain ⟨old, -, rfl⟩ := Option.map_eq_some_iff.1 ((find?_setImageVector id vector w.images).symm.trans found)
  rfl

/-- A vector takes none away. -/
theorem Settled.illustrate (h : Settled w id) (id' : String) (vector : List S) :
    Settled { w with images := setImageVector id' vector w.images } id := by
  by_cases same : id = id'
  · rw [same]
    exact settled_illustrate id' vector
  · exact fun image found => h image ((find?_setImageVector_of_ne vector w.images same).symm.trans found)

end Statements

section Safety

variable {services : EmbeddingServices S} {w : EmbeddingWorld S} {i : EmbedName} {k : Nat} {id : String} {α : Type}

/-! ## Programs -/

/-- A program of a party in the runs of this kind. -/
abbrev SafeCareful (services : EmbeddingServices S) (i : EmbedName) (Q : Except String α → EmbeddingWorld S → Prop) :
    Program ((embeddingStore S).signed EmbedName) α → EmbeddingWorld S → Prop :=
  Safe (embeddingCareful services) (embedProtocol services) i Q

/-- One statement of the database or of a service, by what it comes to; `A` of its reply, and `B` where there is none. -/
theorem safe_statement {o : EmbeddingStmt S} {K B : EmbeddingWorld S → Prop} {A : o.Reply → EmbeddingWorld S → Prop}
    (lasting : ∀ s t, EmbedRely i s t → K s → K t) (known : K w) (weaken : ∀ t, K t → B t)
    (executed : ∀ t, K t → EmbedInv services t → draws t (i, o) = true → serial t o = true → ∃ r t', embeddingExec services (i, o) t = (r, t') ∧
      EmbedInv services t' ∧ (∀ j, j ≠ i → EmbedRely j t t') ∧ Replied A B r t' ∧ (asks o = false → B t')) :
    SafeCareful services i (Replied A B) ((call (I := embeddingStore S) o).signed i) w := by
  refine Safe.call_eq (fun t rely inv may => ?_) (fun t rely _ _ => weaken t (lasting w t rely known)) fun t _ _ idle => idle
  obtain ⟨r, t', moved, inv', others, replied, lost⟩ := executed t (lasting w t rely known) inv may.1 may.2
  exact ⟨r, t', moved, inv', others, replied, fun loses => lost loses.2⟩

theorem safe_wrapped {text : String} {A : α → EmbeddingWorld S → Prop} {B : EmbeddingWorld S → Prop} {p : EmbeddingHandler S α}
    (safe : SafeCareful services i (Replied A B) (p.signed i) w) : SafeCareful services i (Replied A B) ((wrapped text p).signed i) w := by
  unfold wrapped
  rw [signed_mapErr]
  exact Safe.mapErr_replied safe

/-- A statement that only reads. -/
theorem safe_look {o : EmbeddingStmt S} {K B : EmbeddingWorld S → Prop} {A : o.Reply → EmbeddingWorld S → Prop}
    (lasting : ∀ s t, EmbedRely i s t → K s → K t) (known : K w) (weaken : ∀ t, K t → B t)
    (same : ∀ t, (embeddingExec services (i, o) t).2 = t)
    (reply : ∀ t, K t → EmbedInv services t → ∀ a, (embeddingExec services (i, o) t).1 = .ok a → A a t) :
    SafeCareful services i (Replied A B) ((call (I := embeddingStore S) o).signed i) w := by
  refine safe_statement lasting known weaken fun t known inv _ _ =>
    ⟨(embeddingExec services (i, o) t).1, t, Prod.ext rfl (same t), inv, fun j _ => EmbedRely.refl j t, ?_, fun _ => weaken t known⟩
  cases answer : (embeddingExec services (i, o) t).1 with
  | ok a => exact reply t known inv a answer
  | error e => exact weaken t known

/-- One statement of the queue. -/
theorem safe_queued {o : EmbeddingStmt S} {K : EmbeddingWorld S → Prop} {Q : Except String o.Reply → EmbeddingWorld S → Prop}
    (queued : ofQueue o = true) (lasting : ∀ s t, EmbedRely i s t → K s → K t) (known : K w)
    (executed : ∀ t, K t → EmbedInv services t → serial t o = true → ∃ r t', embeddingExec services (i, o) t = (r, t') ∧
      EmbedInv services t' ∧ (∀ j, j ≠ i → EmbedRely j t t') ∧ Q r t') :
    SafeCareful services i Q ((call (I := embeddingStore S) o).signed i) w := by
  refine Safe.call_eq (fun t rely inv may => ?_) (fun t _ _ faults => absurd (queued.symm.trans faults) Bool.noConfusion) fun t _ _ idle => idle
  obtain ⟨r, t', moved, inv', others, after⟩ := executed t (lasting w t rely known) inv may.2
  exact ⟨r, t', moved, inv', others, after, fun loses => absurd (queued.symm.trans loses.1) Bool.noConfusion⟩

/-! ### Tasks -/

/-- A run has a task, is at the stage and owes nothing. -/
structure At (k : Nat) (point : Stage EmbedTask String) (w : EmbeddingWorld S) : Prop where
  stage : w.tasks k = point
  owes : w.owes (.run k) = []
  present : point.key?.isSome = true

/-- A run has the task and owes nothing. -/
structure Holding (k : Nat) (task : EmbedTask) (w : EmbeddingWorld S) : Prop where
  there : (w.tasks k).key? = some task
  owes : w.owes (.run k) = []

/-- The task that a run has is left alone. -/
theorem EmbedRely.task {w' : EmbeddingWorld S} (rely : EmbedRely (.run k) w w') (present : (w.tasks k).key?.isSome = true) :
    w'.tasks k = w.tasks k := by
  refine (rely.own k rfl).resolve_right fun absent => ?_
  rw [absent.1] at present
  cases present

theorem At.steady {stage : Stage EmbedTask String} (s t : EmbeddingWorld S) (rely : EmbedRely (.run k) s t) (own : At k stage s) : At k stage t :=
  ⟨(rely.task (by rw [own.stage]; exact own.present)).trans own.stage, rely.owes.trans own.owes, own.present⟩

theorem Holding.steady {task : EmbedTask} (s t : EmbeddingWorld S) (rely : EmbedRely (.run k) s t) (own : Holding k task s) : Holding k task t :=
  ⟨by rw [rely.task (by rw [own.there]; rfl)]; exact own.there, rely.owes.trans own.owes⟩

theorem At.holding {stage : Stage EmbedTask String} {task : EmbedTask} (own : At k stage w) (key : stage.key? = some task) : Holding k task w :=
  ⟨by rw [own.stage]; exact key, own.owes⟩

/-- A task reads its product, which nobody else has read and not yet written. -/
theorem safe_fetch {text : String} (own : At k (.waiting (.product id)) w) : SafeCareful services (.run k)
    (Replied (fun row t => Holding k (.product id) t ∧ ∀ id' name description, row = some (id', name, description) →
      id' = id ∧ At k (.read (.product id) (buildSearchDocument name description)) t) (Holding k (.product id)))
    ((wrapped text (call (I := embeddingStore S) (.fetchProduct id))).signed (.run k)) w := by
  refine safe_wrapped (safe_statement At.steady own (fun t own => own.holding rfl) fun t own inv _ serial => ?_)
  cases found : t.products.find? id with
  | none =>
    refine ⟨.ok none, t, by simp only [embeddingExec, found], inv, fun j _ => EmbedRely.refl j t, ⟨own.holding rfl, ?_⟩, fun _ => own.holding rfl⟩
    exact fun _ _ _ absurd_ => by cases absurd_
  | some p =>
    have read : At k (.read (.product id) p.document) { t with tasks := Function.update t.tasks k (.read (.product id) p.document) } :=
      ⟨Function.update_self .., own.owes, rfl⟩
    refine ⟨.ok (some (p.id, p.name, p.description)), _, ?_, inv.fetch own.stage found (inv.serial_fetch serial),
      fun j other => .of_task other rfl rfl (fun _ h => h) fun _ _ h => h, ⟨read.holding rfl, fun _ _ _ same => ?_⟩, fun _ => read.holding rfl⟩
    · simp only [embeddingExec, found, mark, own.stage, reads, if_true]
    · cases same
      exact ⟨(Table.find?_eq_some.1 found).2, read⟩

/-- The run of a product's task. -/
theorem safe_productTask (own : At k (.waiting (.product id)) w) : SafeCareful services (.run k)
    (Replied (fun _ => At k (.done (.product id))) (Holding k (.product id))) ((embedProduct id).signed (.run k)) w := by
  unfold embedProduct
  refine Safe.bind_signed ((safe_fetch own).mono fun r t known => ?_)
  cases r with
  | error e => exact known
  | ok row =>
    cases row with
    | none => exact known.1
    | some row =>
      obtain ⟨id', name, description⟩ := row
      obtain ⟨rfl, own⟩ := known.2 id' name description rfl
      refine Safe.bind_signed ((safe_wrapped (safe_look (o := .embedText _) (A := fun vector t =>
        vector = services.text (buildSearchDocument name description) ∧ At k (.read (.product id') (buildSearchDocument name description)) t)
        At.steady own (fun t own => own.holding rfl) (fun _ => rfl) fun t own _ vector answer => ?_)).mono fun r t known => ?_)
      · obtain rfl := Except.ok.inj answer
        exact ⟨rfl, own⟩
      · cases r with
        | error e => exact known
        | ok vector =>
          obtain ⟨rfl, own⟩ := known
          refine safe_wrapped (safe_statement At.steady own (fun t own => own.holding rfl) fun t own inv _ _ => ?_)
          cases wrong : dimensionError (services.text (buildSearchDocument name description)) with
          | some e =>
            exact ⟨.error e, t, by simp only [embeddingExec, wrong], inv, fun j _ => EmbedRely.refl j t, own.holding rfl,
              fun _ => own.holding rfl⟩
          | none =>
            have written : At k (.done (.product id')) { t with
                products := setProductVector id' (services.text (buildSearchDocument name description)) t.products
                tasks := Function.update t.tasks k (.done (.product id')) } := ⟨Function.update_self .., own.owes, rfl⟩
            refine ⟨.ok (), _, ?_, inv.write own.stage, fun j other => .of_task other rfl rfl (fun _ h => h) fun _ _ h => h, written,
              fun _ => written.holding rfl⟩
            simp only [embeddingExec, wrong, mark, own.stage, writes, if_true]

/-- A run has a task for an image that there has been. -/
structure Depicting (k : Nat) (id : String) (w : EmbeddingWorld S) : Prop where
  own : At k (.waiting (.image id)) w
  drawn : id ∈ w.drawn.map Prod.fst

theorem Depicting.steady (s t : EmbeddingWorld S) (rely : EmbedRely (.run k) s t) (own : Depicting k id s) : Depicting k id t :=
  ⟨own.own.steady s t rely, List.map_subset _ rely.drawn own.drawn⟩

theorem Depicting.holding (own : Depicting k id w) : Holding k (.image id) w := own.own.holding rfl

/-- The image of the run's task is embedded, or gone. -/
def Depicted (k : Nat) (id : String) (w : EmbeddingWorld S) : Prop := Depicting k id w ∧ Settled w id

theorem Depicted.steady (s t : EmbeddingWorld S) (rely : EmbedRely (.run k) s t) (own : Depicted k id s) : Depicted k id t :=
  ⟨own.1.steady s t rely, rely.settled id own.1.drawn own.2⟩

theorem safe_generate {url : String} {answer : Download} (own : Depicting k id w) : SafeCareful services (.run k)
    (Replied (fun _ => Depicting k id) (Holding k (.image id))) ((generateImageEmbeddingFromURL url answer).signed (.run k)) w := by
  unfold generateImageEmbeddingFromURL
  refine Safe.bind_signed ((safe_wrapped (safe_statement (o := .download url answer) (A := fun _ => Depicting k id) Depicting.steady own
    (fun t own => own.holding) fun t own inv _ _ => ?_)).mono fun r t known => ?_)
  · have downloaded : Depicting k id { t with served := (url, answer) :: t.served } := ⟨⟨own.own.stage, own.own.owes, rfl⟩, own.drawn⟩
    exact ⟨.ok answer, { t with served := (url, answer) :: t.served }, rfl, ⟨inv.kept, inv.unused, inv.unread, inv.drawn⟩,
      fun j _ => ⟨rfl, fun _ _ => .inl rfl, fun _ h => h, fun _ _ h => h⟩, downloaded, fun _ => downloaded.holding⟩
  · cases r with
    | error e => exact known
    | ok got =>
      simp only
      split
      · exact safe_look (o := .embedImage got.part) Depicting.steady known (fun t own => own.holding) (fun _ => rfl) fun t own _ _ _ => own
      · exact Depicting.holding known

/-- The rest of the run of an image's task, from the download on. -/
theorem safe_depict {url : String} {answer : Download} (own : Depicting k id w) : SafeCareful services (.run k)
    (Replied (fun _ => Depicted k id) (Holding k (.image id))) ((embedImageFromURL id url answer).signed (.run k)) w := by
  unfold embedImageFromURL
  refine Safe.bind_signed ((safe_wrapped (safe_generate own)).mono fun r t known => ?_)
  cases r with
  | error e => exact known
  | ok vector =>
    refine safe_wrapped (safe_statement Depicting.steady known (fun t own => own.holding) fun t own inv _ _ => ?_)
    cases wrong : dimensionError vector with
    | some e =>
      exact ⟨.error e, t, by simp only [embeddingExec, wrong], inv, fun j _ => EmbedRely.refl j t, own.holding, fun _ => own.holding⟩
    | none =>
      have written : Depicting k id { t with images := setImageVector id vector t.images } := ⟨⟨own.own.stage, own.own.owes, rfl⟩, own.drawn⟩
      refine ⟨.ok (), _, ?_, inv.illustrate id vector, fun j _ => ⟨rfl, fun _ _ => .inl rfl, fun _ h => h, fun id' _ h => h.illustrate id vector⟩,
        ⟨written, settled_illustrate id vector⟩, fun _ => written.holding⟩
      simp only [embeddingExec, wrong]

/-- The run of an image's task. -/
theorem safe_imageTask (answer : Download) (own : At k (.waiting (.image id)) w) : SafeCareful services (.run k)
    (Replied (fun _ => Depicted k id) (Holding k (.image id))) ((embedProductImageRow id false answer).signed (.run k)) w := by
  unfold embedProductImageRow
  refine Safe.bind_signed ((safe_wrapped (safe_look (o := .fetchImage id) (A := fun row t => Holding k (.image id) t ∧
    ∀ id' url, row = some (id', url) → id' = id ∧ Depicting k id t) At.steady own (fun t own => own.holding rfl) (fun _ => rfl)
      fun t own inv row answer => ⟨own.holding rfl, fun id' url same => ?_⟩)).mono fun r t known => ?_)
  · obtain rfl := Except.ok.inj answer
    obtain ⟨image, found, named⟩ := Option.map_eq_some_iff.1 same
    cases named
    obtain ⟨here, id_⟩ := Table.find?_eq_some.1 (Option.filter_eq_some_iff.1 found).1
    exact ⟨id_, own, id_ ▸ inv.drawn image here⟩
  · cases r with
    | error e => exact known
    | ok row =>
      cases row with
      | none => exact known.1
      | some row =>
        obtain ⟨id', url⟩ := row
        obtain ⟨rfl, own⟩ := known.2 id' url rfl
        simp only [Bool.false_eq_true, if_false]
        have checks : ∀ t : EmbeddingWorld S, (embeddingExec services (.run k, .imageEmbedded id') t).2 = t := by
          intro t
          simp only [embeddingExec]
          split <;> rfl
        refine Safe.bind_signed ((safe_wrapped (safe_look (o := .imageEmbedded id') (A := fun embedded t => Depicting k id' t ∧
          (embedded = true → Settled t id')) Depicting.steady own (fun t own => own.holding) checks
            fun t own _ embedded answer => ⟨own, fun yes image found => ?_⟩)).mono fun r t known => ?_)
        · simp only [embeddingExec, found] at answer
          rw [Except.ok.inj answer]
          exact yes
        · cases r with
          | error e => exact known
          | ok embedded =>
            cases embedded with
            | true => exact ⟨known.1, known.2 rfl⟩
            | false => exact safe_depict known.1

/-- The handler of a task has done its part. -/
def Through (k : Nat) (w : EmbeddingWorld S) : Prop := (∃ task, At k (.done task) w) ∨ ∃ id, Depicted k id w

theorem Through.steady (s t : EmbeddingWorld S) (rely : EmbedRely (.run k) s t) (through : Through k s) : Through k t :=
  through.imp (fun ⟨task, own⟩ => ⟨task, own.steady s t rely⟩) fun ⟨id, own⟩ => ⟨id, own.steady s t rely⟩

theorem dispatch_product (id : String) (answer : Download) : (dispatchTask taskEmbedProduct (some id) answer : EmbeddingHandler S Unit) =
    if id = "" then raise (I := embeddingStore S) "embedding: payload missing productId" else embedProduct id := by
  unfold dispatchTask
  rw [if_neg (by decide), if_pos rfl]

theorem dispatch_image (id : String) (answer : Download) : (dispatchTask taskEmbedProductImage (some id) answer : EmbeddingHandler S Unit) =
    if id = "" then raise (I := embeddingStore S) "embedding: payload missing productImageId" else embedProductImageRow id false answer := by
  unfold dispatchTask
  rw [if_pos rfl]

theorem safe_dispatch {task : EmbedTask} (answer : Download) (own : At k (.waiting task) w) : SafeCareful services (.run k)
    (Replied (fun _ => Through k) (Holding k task)) ((dispatchTask task.message.1 (some task.message.2) answer).signed (.run k)) w := by
  cases task with
  | product id =>
    show SafeCareful services (.run k) _ ((dispatchTask taskEmbedProduct (some id) answer).signed (.run k)) w
    rw [dispatch_product]
    split
    · exact own.holding rfl
    · refine (safe_productTask own).mono fun r t known => ?_
      cases r with
      | error e => exact known
      | ok _ => exact .inl ⟨_, known⟩
  | image id =>
    show SafeCareful services (.run k) _ ((dispatchTask taskEmbedProductImage (some id) answer).signed (.run k)) w
    rw [dispatch_image]
    split
    · exact own.holding rfl
    · refine (safe_imageTask answer own).mono fun r t known => ?_
      cases r with
      | error e => exact known
      | ok _ => exact .inr ⟨id, known⟩

/-- A run whose task has not begun is as good as none. -/
theorem idle_run {stage : Stage EmbedTask String} (own : w.tasks k = stage) (owes : w.owes (.run k) = []) (unbegun : Unbegun stage) :
    EmbedIdle (.run k) w := by
  refine ⟨owes, fun k' named => ?_⟩
  cases named
  rw [own]
  exact unbegun

/-- The queue's last word on a task: it is finished, taken back or given up. -/
theorem safe_settle {o : EmbeddingStmt S} {K : EmbeddingWorld S → Prop} (next : EmbeddingWorld S → Stage EmbedTask String)
    (queued : ofQueue o = true) (lasting : ∀ s t, EmbedRely (.run k) s t → K s → K t) (known : K w)
    (exec : ∀ t, (embeddingExec services (.run k, o) t).2 = { t with tasks := Function.update t.tasks k (next t) })
    (keeps : ∀ t, K t → EmbedInv services t → serial t o = true → EmbedInv services { t with tasks := Function.update t.tasks k (next t) })
    (owes : ∀ t, K t → t.owes (.run k) = []) (unbegun : ∀ t, K t → Unbegun (next t)) :
    SafeCareful services (.run k) (fun _ => EmbedIdle (.run k)) ((call (I := embeddingStore S) o).signed (.run k)) w := by
  refine safe_queued queued lasting known fun t known inv serial =>
    ⟨(embeddingExec services (.run k, o) t).1, { t with tasks := Function.update t.tasks k (next t) }, Prod.ext rfl (exec t),
      keeps t known inv serial,
      fun j other => .of_task other rfl rfl (fun _ h => h) fun _ _ h => h, ?_⟩
  exact idle_run (Function.update_self ..) (owes t known) (unbegun t known)

theorem safe_taskRun (answer : Download) (retried : Bool) (idle : EmbedIdle (.run k) w) :
    SafeCareful services (.run k) (fun _ => EmbedIdle (.run k)) ((embeddingRun k answer retried).signed (.run k)) w := by
  unfold embeddingRun
  refine Safe.bind_signed ((safe_queued (o := .take k) (Q := fun r t => ∃ task, r = .ok task ∧ EmbedIdle (.run k) t ∧
    ∀ named, task = some named → At k (.waiting named) t) rfl (fun s t rely idle => idle.steady rely) idle
      fun t idle inv _ => ⟨_, t, rfl, inv, fun j _ => EmbedRely.refl j t, _, rfl, idle, fun named same => ?_⟩).mono fun r t known => ?_)
  · have unbegun := idle.own k rfl
    refine ⟨?_, idle.owes, rfl⟩
    cases stage : t.tasks k with
    | waiting task =>
      rw [stage] at same
      cases same
      rfl
    | absent =>
      rw [stage] at same
      cases same
    | read task v | done task =>
      rw [stage] at unbegun
      exact unbegun.elim
  · obtain ⟨task, rfl, idle, named⟩ := known
    cases task with
    | none => exact idle
    | some task =>
      refine Safe.bind_signed (Safe.attempt_signed ((safe_dispatch answer (named task rfl)).mono fun r t known => ?_))
      cases r with
      | ok _ =>
        refine safe_settle (o := .finish k) (fun _ => .absent) rfl Through.steady known (fun _ => rfl) (fun t through inv _ => ?_)
          (fun t through => ?_) fun _ _ => trivial
        · rcases through with ⟨task, own⟩ | ⟨id, own, settled⟩
          · exact inv.finish (.inl ⟨task, own.stage⟩)
          · exact inv.finish (.inr ⟨id, own.own.stage, settled⟩)
        · rcases through with ⟨task, own⟩ | ⟨id, own, -⟩
          · exact own.owes
          · exact own.own.owes
      | error e =>
        cases retried with
        | true =>
          refine safe_settle (o := .retry k) (fun t => waits (t.tasks k)) rfl Holding.steady known (fun _ => rfl)
            (fun t own inv _ => inv.retry own.there) (fun t own => own.owes) fun t _ => ?_
          cases t.tasks k <;> trivial
        | false =>
          exact safe_settle (o := .archive k) (fun _ => .absent) rfl Holding.steady known (fun _ => rfl)
            (fun t own inv gone => inv.archive (serial_archive gone)) (fun t own => own.owes) fun _ _ => trivial

/-! ### Requests -/

/-- A request is idle when it owes nothing. -/
theorem idle_vendor {n : Nat} (owes : w.owes (.vendor n) = []) : EmbedIdle (.vendor n) w := ⟨owes, fun k named => by cases named⟩

theorem owes_steady {tasks : List EmbedTask} (s t : EmbeddingWorld S) (rely : EmbedRely i s t) (owes : s.owes i = tasks) : t.owes i = tasks :=
  rely.owes.trans owes

/-- A task that is owed is published. -/
theorem safe_publish {n : Nat} {task : EmbedTask} {tasks : List EmbedTask} (owes : w.owes (.vendor n) = task :: tasks) :
    SafeCareful services (.vendor n) (fun r t => r = .ok () ∧ t.owes (.vendor n) = tasks) ((publishEmbed task).signed (.vendor n)) w := by
  unfold publishEmbed
  refine Safe.bind_signed (Safe.attempt_signed (Q := fun r t => (∃ u, r = .ok u) ∧ t.owes (.vendor n) = tasks)
    (safe_queued rfl owes_steady owes fun t owes inv _ => ⟨.ok (), _, rfl, inv.publish (.vendor n) task, fun j other => ?_, ⟨_, rfl⟩, ?_⟩) |>.mono
      fun r t known => ?_)
  · refine ⟨Function.update_of_ne other _ _, fun k _ => ?_, fun _ h => h, fun _ _ h => h⟩
    by_cases new : k = t.next
    · refine .inr ⟨new ▸ inv.unused _ (Nat.le_refl _), ?_⟩
      show Unbegun (Function.update t.tasks t.next (.waiting task) k)
      rw [new, Function.update_self]
      trivial
    · exact .inl (Function.update_of_ne new _ _)
  · show Function.update t.owes (.vendor n) _ (.vendor n) = tasks
    rw [Function.update_self, owes, List.erase_cons_head]
  · obtain ⟨⟨u, rfl⟩, owes⟩ := known
    exact ⟨rfl, owes⟩

theorem safe_publishEach {n : Nat} {tasks : List EmbedTask} (owes : w.owes (.vendor n) = tasks) :
    SafeCareful services (.vendor n) (fun _ => EmbedIdle (.vendor n)) ((publishEach tasks).signed (.vendor n)) w := by
  induction tasks generalizing w with
  | nil => exact idle_vendor owes
  | cons task rest ih =>
    refine Safe.bind_signed ((safe_publish owes).mono fun r t known => ?_)
    obtain ⟨rfl, owes⟩ := known
    exact ih owes

/-- A write that fails leaves nothing to publish, and one that is executed is answered. -/
theorem safe_asking {n : Nat} {o : EmbeddingStmt S} {A : o.Reply → EmbeddingWorld S → Prop} (idle : EmbedIdle (.vendor n) w)
    (asking : asks o = true)
    (executed : ∀ t, t.owes (.vendor n) = [] → EmbedInv services t → draws t (.vendor n, o) = true →
      ∃ r t', embeddingExec services (.vendor n, o) t = (r, t') ∧ EmbedInv services t' ∧ (∀ j, j ≠ .vendor n → EmbedRely j t t') ∧
        Replied A (EmbedIdle (.vendor n)) r t') :
    SafeCareful services (.vendor n) (Replied A (EmbedIdle (.vendor n))) ((call (I := embeddingStore S) o).signed (.vendor n)) w := by
  refine safe_statement (K := fun t => t.owes (.vendor n) = []) owes_steady idle.owes (fun t owes => idle_vendor owes)
    fun t owes inv draws _ => ?_
  obtain ⟨r, t', moved, inv', others, replied⟩ := executed t owes inv draws
  exact ⟨r, t', moved, inv', others, replied, fun absurd_ => absurd (asking.symm.trans absurd_) Bool.noConfusion⟩

/-- A write that is refused leaves everything as it was. -/
theorem refused {n : Nat} {o : EmbeddingStmt S} {A : o.Reply → EmbeddingWorld S → Prop} {e : String} (owes : w.owes (.vendor n) = [])
    (inv : EmbedInv services w) (refusal : embeddingExec services (.vendor n, o) w = (.error e, w)) :
    ∃ r t, embeddingExec services (.vendor n, o) w = (r, t) ∧ EmbedInv services t ∧ (∀ j, j ≠ .vendor n → EmbedRely j w t) ∧
      Replied A (EmbedIdle (.vendor n)) r t :=
  ⟨.error e, w, refusal, inv, fun j _ => EmbedRely.refl j w, idle_vendor owes⟩

/-- What follows the guard of a request. -/
theorem safe_withOwnProduct {n : Nat} {businessID id : String} {next : EmbeddingHandler S Unit} (idle : EmbedIdle (.vendor n) w)
    (rest : ∀ t, EmbedIdle (.vendor n) t → SafeCareful services (.vendor n) (fun _ => EmbedIdle (.vendor n)) (next.signed (.vendor n)) t) :
    SafeCareful services (.vendor n) (fun _ => EmbedIdle (.vendor n)) ((withOwnProduct businessID id next).signed (.vendor n)) w := by
  refine Safe.bind_signed ((safe_look (o := .findProduct businessID id) (A := fun _ => EmbedIdle (.vendor n))
    (fun s t rely idle => idle.steady rely) idle (fun t idle => idle) (fun _ => rfl) fun t idle _ _ _ => idle).mono fun r t known => ?_)
  cases r with
  | error e => exact known
  | ok found =>
    cases found with
    | true => exact rest t known
    | false => exact known

/-- A request that deletes leaves the others alone. -/
theorem EmbedRely.of_delete {w' : EmbeddingWorld S} {dropped : EmbeddedImage S → Bool} (images : w'.images = w.images.delete dropped)
    (tasks : w'.tasks = w.tasks) (owes : w'.owes = w.owes) (drawn : w'.drawn = w.drawn) (j : EmbedName) : EmbedRely j w w' :=
  ⟨by rw [owes], fun k _ => .inl (by rw [tasks]), by rw [drawn]; exact fun _ h => h, fun _ _ settled => settled.delete images⟩

theorem safe_create {n : Nat} (p : EmbeddedProduct S) (idle : EmbedIdle (.vendor n) w) :
    SafeCareful services (.vendor n) (fun _ => EmbedIdle (.vendor n)) ((productCreate p).signed (.vendor n)) w := by
  refine Safe.bind_signed ((safe_asking (o := .createProduct p) (A := fun _ t => t.owes (.vendor n) = [.product p.id]) idle rfl
    fun t owes inv _ => ?_).mono fun r t known => ?_)
  · cases inserted : t.products.insert { p with embedding := none } with
    | some products =>
      exact ⟨.ok (), { t with
          products := products
          documents := (p.id, p.document) :: t.documents
          owes := Function.update t.owes (.vendor n) [.product p.id] }, by simp only [embeddingExec, inserted],
        inv.create inserted rfl rfl rfl rfl rfl rfl owes, fun j other => .of_owes other rfl rfl (fun _ h => h) fun _ _ h => h,
        Function.update_self ..⟩
    | none =>
      refine refused (e := "duplicate key value violates unique constraint \"products_pkey\"") owes inv ?_
      simp only [embeddingExec, inserted]
  · cases r with
    | error e => exact known
    | ok _ => exact (safe_publish known).mono fun r t known => idle_vendor known.2

theorem safe_update {n : Nat} (businessID id : String) (sets : List Handlers.SetClause) (idle : EmbedIdle (.vendor n) w) :
    SafeCareful services (.vendor n) (fun _ => EmbedIdle (.vendor n)) ((productUpdate businessID id sets).signed (.vendor n)) w := by
  refine safe_withOwnProduct idle fun t idle => ?_
  refine Safe.bind_signed ((safe_asking (o := .updateProduct id sets) (A := fun updated t =>
    t.owes (.vendor n) = if updated then [.product id] else []) idle rfl fun t owes inv _ => ?_).mono fun r t known => ?_)
  · by_cases none_ : sets = []
    · exact refused (e := "syntax error at or near \",\"") owes inv (by simp only [embeddingExec, if_pos none_])
    · cases found : t.products.find? id with
      | none =>
        exact ⟨.ok false, t, by simp only [embeddingExec, if_neg none_, found], inv, fun j _ => EmbedRely.refl j t, owes⟩
      | some p =>
        exact ⟨.ok true, { t with
            products := setColumns id sets t.products
            documents := (id, (p.setAll sets).document) :: t.documents
            owes := Function.update t.owes (.vendor n) [.product id] }, by simp only [embeddingExec, if_neg none_, found],
          inv.update rfl rfl rfl rfl rfl rfl owes, fun j other => .of_owes other rfl rfl (fun _ h => h) fun _ _ h => h,
          Function.update_self ..⟩
  · cases r with
    | error e => exact known
    | ok updated =>
      cases updated with
      | true => exact (safe_publish known).mono fun r t known => idle_vendor known.2
      | false => exact idle_vendor known

theorem safe_delete {n : Nat} (businessID id : String) (idle : EmbedIdle (.vendor n) w) :
    SafeCareful services (.vendor n) (fun _ => EmbedIdle (.vendor n)) ((productDelete businessID id).signed (.vendor n)) w := by
  refine safe_withOwnProduct idle fun t idle => ?_
  refine Safe.mono (safe_statement (A := fun _ => EmbedIdle (.vendor n)) (fun s t rely idle => idle.steady rely) idle (fun t idle => idle)
    fun t idle inv _ _ => ?_) fun r t known => by cases r <;> exact known
  by_cases own : (t.products.find? id).any fun p => decide (p.businessID = businessID)
  · have rely : ∀ j, EmbedRely j t { t with
        products := t.products.delete fun p => decide (p.id = id)
        images := t.images.delete fun i => decide (i.productID = id) } := EmbedRely.of_delete rfl rfl rfl rfl
    exact ⟨.ok (), { t with
        products := t.products.delete fun p => decide (p.id = id)
        images := t.images.delete fun i => decide (i.productID = id) }, by simp only [embeddingExec, if_pos own],
      inv.delete rfl rfl rfl rfl rfl rfl, fun j _ => rely j, idle.steady (rely _), fun _ => idle.steady (rely _)⟩
  · exact ⟨.ok (), t, by simp only [embeddingExec, if_neg own], inv, fun j _ => EmbedRely.refl j t, idle, fun _ => idle⟩

theorem safe_upload {n : Nat} (businessID id : String) (rows : List (String × String × Int)) (idle : EmbedIdle (.vendor n) w) :
    SafeCareful services (.vendor n) (fun _ => EmbedIdle (.vendor n)) ((imageUpload businessID id rows).signed (.vendor n)) w := by
  refine safe_withOwnProduct idle fun t idle => ?_
  refine Safe.bind_signed ((safe_asking (o := .insertImages id rows) (A := fun _ t =>
    t.owes (.vendor n) = rows.map fun row => .image row.1) idle rfl fun t owes inv draws_ => ?_).mono fun r t known => ?_)
  · by_cases there : t.products.rows.any fun p => decide (p.id = id)
    · cases inserted : insertImageRows t.images (rows.map (newImage id)) with
      | some images =>
        have fresh : ∀ row ∈ rows, row.1 ∉ t.drawn.map Prod.fst := by
          simp only [draws, Bool.and_eq_true, List.all_eq_true, decide_eq_true_eq] at draws_
          exact draws_.2
        have rows_ := insertImageRows_rows inserted
        refine ⟨.ok (), { t with
            images := images
            drawn := rows.map (fun row => (row.1, row.2.1)) ++ t.drawn
            owes := Function.update t.owes (.vendor n) (rows.map fun row => .image row.1) },
          by simp only [embeddingExec, if_pos there, inserted], inv.insert rows_ rfl rfl rfl rfl rfl owes,
          fun j other => .of_owes other rfl rfl (List.subset_append_right ..) fun id' old settled image found => settled image ?_,
          Function.update_self ..⟩
        rw [← found]
        refine (Table.find?_append_of_ne rows_ fun image new => ?_).symm
        obtain ⟨row, listed, rfl⟩ := List.mem_map.1 new
        rintro rfl
        exact fresh row listed old
      | none =>
        refine refused (e := "duplicate key value violates unique constraint \"product_images_pkey\"") owes inv ?_
        simp only [embeddingExec, if_pos there, inserted]
    · refine refused (e := "insert or update on table \"product_images\" violates foreign key constraint") owes inv ?_
      simp only [embeddingExec, if_neg there]
  · cases r with
    | error e => exact known
    | ok _ => exact safe_publishEach known

theorem safe_remove {n : Nat} (businessID id imageID : String) (idle : EmbedIdle (.vendor n) w) :
    SafeCareful services (.vendor n) (fun _ => EmbedIdle (.vendor n)) ((imageRemove businessID id imageID).signed (.vendor n)) w := by
  refine safe_withOwnProduct idle fun t idle => ?_
  refine Safe.bind_signed ((safe_look (o := .findImage id imageID) (A := fun _ => EmbedIdle (.vendor n))
    (fun s t rely idle => idle.steady rely) idle (fun t idle => idle) (fun _ => rfl) fun t idle _ _ _ => idle).mono fun r t known => ?_)
  cases r with
  | error e => exact known
  | ok found =>
    cases found with
    | false => exact known
    | true =>
      refine Safe.mono (safe_statement (o := .deleteImage imageID) (A := fun _ => EmbedIdle (.vendor n))
        (fun s t rely idle => idle.steady rely) known (fun t idle => idle) fun t idle inv _ _ => ?_) fun r t known => by cases r <;> exact known
      have same : t.products = t.products.delete fun _ => false := by
        refine Table.ext ?_
        simp [Table.delete]
      have rely : ∀ j, EmbedRely j t { t with images := t.images.delete fun i => decide (i.id = imageID) } :=
        EmbedRely.of_delete rfl rfl rfl rfl
      exact ⟨.ok (), _, rfl, inv.delete same rfl rfl rfl rfl rfl, fun j _ => rely j, idle.steady (rely _), fun _ => idle.steady (rely _)⟩

theorem safe_careful {p : Program ((embeddingStore S).signed EmbedName) Unit} (job : (embeddingCareful services).job i p) (idle : EmbedIdle i w) :
    SafeCareful services i (fun _ => EmbedIdle i) p w := by
  obtain ⟨job, single⟩ := job
  cases job with
  | create n p => exact safe_create p idle
  | update n businessID id sets => exact safe_update businessID id sets idle
  | delete n businessID id => exact safe_delete businessID id idle
  | upload n businessID id rows => exact safe_upload businessID id rows idle
  | remove n businessID id imageID => exact safe_remove businessID id imageID idle
  | run k answer retried => exact safe_taskRun answer retried idle
  | all n businessID => exact absurd rfl (single n)
  | images n productID force answers => exact absurd rfl (single n)

end Safety

/-! ## Runs -/

section Runs

variable {services : EmbeddingServices S} {w : EmbeddingWorld S} {c : Crew ((embeddingStore S).signed EmbedName) EmbedName (EmbeddingWorld S)}

/-- Nothing is in flight and no task is left. -/
def AtRest (c : Crew ((embeddingStore S).signed EmbedName) EmbedName (EmbeddingWorld S)) : Prop :=
  c.threads = [] ∧ ∀ k, c.state.tasks k = .absent

/-- Every product has the vector of its document and every image a vector of what its URL served. -/
def Embedded (services : EmbeddingServices S) (w : EmbeddingWorld S) : Prop :=
  (∀ p ∈ w.products.rows, p.embedding = some (services.text p.document)) ∧
    ∀ image ∈ w.images.rows, ∃ v, image.embedding = some v ∧ ImageVector services w image.url v

/-- In every run in which no task reads a product between the read and the write of another, requests get their tasks into the queue
and tasks are retried until they are done or their row is gone: at rest, the whole catalog is embedded as it is. -/
theorem catalog_embedded (sourced : Sourced services w) (start : EmbedInv services w) (idle : ∀ i, EmbedIdle i w)
    (run : (embeddingCareful services).Reach ⟨w, []⟩ c) (rest : AtRest c) : Embedded services c.state := by
  have holds := Protocol.holds (P := embedProtocol services) Protocol.promise_idle
    (fun _ _ _ job _ idle => safe_careful job idle) run start idle
  have sources := sourced_throughout sourced ((careful_within services).reach run)
  obtain ⟨ended, done⟩ := rest
  have nothing : ∀ task, ¬ (view c.state).owed task := by
    rintro task ⟨i, mem⟩
    rw [(holds.idle i (by rw [ended]; exact List.not_mem_nil)).owes] at mem
    exact absurd mem List.not_mem_nil
  have settled := holds.inv.kept.settled nothing done
  constructor
  · intro p mem
    have found : c.state.products.find? p.id = some p := Table.find?_eq_some.2 ⟨mem, rfl⟩
    obtain ⟨v, had, same⟩ := settled (.product p.id) p.document (congrArg (Option.map EmbeddedProduct.document) found)
    rw [show p.embedding = some v from (congrArg (Option.bind · EmbeddedProduct.embedding) found).symm.trans had]
    exact congrArg some same
  · intro image mem
    have found : c.state.images.find? image.id = some image := Table.find?_eq_some.2 ⟨mem, rfl⟩
    obtain ⟨v, had, -⟩ := settled (.image image.id) image.url (congrArg (Option.map EmbeddedImage.url) found)
    have there : image.embedding = some v := (congrArg (Option.bind · EmbeddedImage.embedding) found).symm.trans had
    exact ⟨v, there, sources.pictures image mem v there⟩

/-! ### The numbers of tasks -/

theorem mark_absent {i : EmbedName} {m : Stage EmbedTask String → Stage EmbedTask String} {tasks : Nat → Stage EmbedTask String} {k : Nat}
    (kept : m .absent = .absent) (absent : tasks k = .absent) : mark i m tasks k = .absent := by
  cases i with
  | run j =>
    simp only [mark, Function.update_apply]
    split
    · next same => rw [← same, absent, kept]
    · exact absent
  | vendor n => exact absent
  | bulk n => exact absent

/-- There are no tasks but those that were published. -/
def Unissued (w : EmbeddingWorld S) : Prop := ∀ k, w.next ≤ k → w.tasks k = .absent

theorem unissued_exec (i : EmbedName) (op : EmbeddingStmt S) (w : EmbeddingWorld S) (start : Unissued w) :
    Unissued (embeddingExec services (i, op) w).2 := by
  cases op with
  | publish task =>
    intro k above
    have ne : k ≠ w.next := Nat.ne_of_gt above
    exact (Function.update_of_ne ne _ _).trans (start k (Nat.le_of_succ_le above))
  | finish j => exact fun k above => mark_absent (i := .run j) (m := fun _ => .absent) rfl (start k above)
  | archive j => exact fun k above => mark_absent (i := .run j) (m := fun _ => .absent) rfl (start k above)
  | retry j => exact fun k above => mark_absent (i := .run j) (m := waits) rfl (start k above)
  | fetchProduct id =>
    simp only [embeddingExec]
    split
    · exact start
    · exact fun k above => mark_absent rfl (start k above)
  | writeProduct id vector =>
    simp only [embeddingExec]
    split
    · exact start
    · exact fun k above => mark_absent rfl (start k above)
  | createProduct p | writeImage id vector | deleteProduct businessID id | imageEmbedded id =>
    simp only [embeddingExec]
    split <;> exact start
  | updateProduct id sets =>
    simp only [embeddingExec]
    split
    · exact start
    · split <;> exact start
  | insertImages productID rows =>
    simp only [embeddingExec]
    split
    · split <;> exact start
    · exact start
  | _ => exact start

theorem unissued_throughout {a : Crew ((embeddingStore S).signed EmbedName) EmbedName (EmbeddingWorld S)}
    (run : (embeddingFlow services).Reach a c) (start : Unissued a.state) : Unissued c.state :=
  Roster.keeps (R := embeddingFlow services) (fun w op _ start => unissued_exec op.1 op.2 w start) run start

end Runs

/-! ## A catalog -/

section Catalog

theorem emptyCatalog_inv : EmbedInv lengths emptyCatalog where
  kept := by
    refine ⟨fun task v there => ?_, fun _ _ _ _ absurd_ => (by cases absurd_), fun _ _ _ _ _ absurd_ => by cases absurd_⟩
    cases task <;> cases there
  unused _ _ := rfl
  unread _ _ _ absurd_ := by cases absurd_
  drawn _ absurd_ := by cases absurd_

theorem emptyCatalog_idle (i : EmbedName) : EmbedIdle i emptyCatalog := ⟨rfl, fun _ _ => trivial⟩

abbrev carefulFlow := embeddingCareful lengths

instance (w : EmbeddingWorld Nat) : DecidablePred (carefulFlow.allow w) :=
  fun op => inferInstanceAs (Decidable (draws w op = true ∧ serial w op.2 = true))

/-- A product and its image, embedded. -/
def shelved : EmbeddingWorld Nat := ((works 1).run carefulFlow.exec ((works 0).run carefulFlow.exec illustrated).2).2

theorem reach_shelved : carefulFlow.Reach ⟨emptyCatalog, []⟩ ⟨shelved, []⟩ := by
  have created := Roster.reach_job (R := carefulFlow) (i := .vendor 1) (p := creates) (s := emptyCatalog)
    ⟨.create 1 sandal, fun _ => EmbedName.noConfusion⟩ (by decide +kernel)
  have uploaded := Roster.reach_job (R := carefulFlow) (i := .vendor 2) (p := uploads) (s := listed)
    ⟨.upload 2 "b-1" "p-1" _, fun _ => EmbedName.noConfusion⟩ (by decide +kernel)
  have embedded := Roster.reach_job (R := carefulFlow) (i := .run 0) (p := works 0) (s := illustrated)
    ⟨.run 0 photo true, fun _ => EmbedName.noConfusion⟩ (by decide +kernel)
  have pictured := Roster.reach_job (R := carefulFlow) (i := .run 1) (p := works 1) (s := ((works 0).run carefulFlow.exec illustrated).2)
    ⟨.run 1 photo true, fun _ => EmbedName.noConfusion⟩ (by decide +kernel)
  exact created.trans (uploaded.trans (embedded.trans pictured))

theorem shelved_rest : AtRest (⟨shelved, []⟩ : Crew ((embeddingStore Nat).signed EmbedName) EmbedName (EmbeddingWorld Nat)) := by
  have two : shelved.next = 2 := by decide +kernel
  refine ⟨rfl, fun k => ?_⟩
  by_cases above : 2 ≤ k
  · exact unissued_throughout ((careful_within lengths).reach reach_shelved) (fun _ _ => rfl) k (two.trans_le above)
  · obtain rfl | rfl : k = 0 ∨ k = 1 := by omega
    · decide +kernel
    · decide +kernel

theorem catalog_embedded_once : ∃ c : Crew ((embeddingStore Nat).signed EmbedName) EmbedName (EmbeddingWorld Nat),
    carefulFlow.Reach ⟨emptyCatalog, []⟩ c ∧ AtRest c ∧ c.state.products.rows.length = 1 ∧ c.state.images.rows.length = 1 ∧
    Embedded lengths c.state :=
  ⟨⟨shelved, []⟩, reach_shelved, shelved_rest, by decide +kernel, by decide +kernel,
    catalog_embedded emptyCatalog_begins.sourced emptyCatalog_inv emptyCatalog_idle reach_shelved shelved_rest⟩

/-! ## A task that is overtaken -/

/-- All runs in which nothing fails and nobody stops. -/
abbrev flawlessFlow : Roster ((embeddingStore Nat).signed EmbedName) EmbedName (EmbeddingWorld Nat) :=
  { embeddingFlow lengths with faults := fun _ _ => False, loses := fun _ _ => False, stops := fun _ _ => False }

instance (w : EmbeddingWorld Nat) : DecidablePred (flawlessFlow.allow w) := fun op => inferInstanceAs (Decidable (draws w op = true))

theorem flawless_within : flawlessFlow.Within catalogFlow := ⟨rfl, fun _ _ may => may, fun _ _ may => may, fun _ _ _ => trivial, fun _ _ _ => trivial,
  fun _ _ _ => trivial⟩

/-- The first task has its vector, and what is left of it. -/
def asked : CatalogProgram × EmbeddingWorld Nat := (works 0).steps flawlessFlow.exec 3 listed

/-- The product gets another name, and the task of the change is through. -/
def passed : EmbeddingWorld Nat := ((works 1).run flawlessFlow.exec (renames.run flawlessFlow.exec asked.2).2).2

/-- The first task writes. -/
def stale : EmbeddingWorld Nat := (asked.1.run flawlessFlow.exec passed).2

theorem reach_stale : flawlessFlow.Reach ⟨emptyCatalog, []⟩ ⟨stale, []⟩ := by
  have leaves : ∀ (post : List (EmbedName × CatalogProgram)) {s i r},
      flawlessFlow.Step ⟨s, [] ++ (i, .ret r) :: post⟩ ⟨s, [] ++ post⟩ := fun post s i r => .drop trivial
  have changing : flawlessFlow.job (.vendor 3) renames := .update 3 "b-1" "p-1" _
  have working : flawlessFlow.job (.run 1) (works 1) := .run 1 photo true
  have created : flawlessFlow.Reach ⟨emptyCatalog, []⟩ ⟨listed, []⟩ :=
    Roster.reach_job (R := flawlessFlow) (i := .vendor 1) (p := creates) (.create 1 sandal) (by decide +kernel)
  have begins : flawlessFlow.Reach ⟨listed, []⟩ ⟨asked.2, [(.run 0, asked.1)]⟩ :=
    .head (.spawn (.run 0 photo true) List.not_mem_nil) (flawlessFlow.reach_steps 3 [] [] (by decide +kernel))
  have changes : flawlessFlow.Reach ⟨asked.2, [(.run 0, asked.1)]⟩ ⟨(renames.run flawlessFlow.exec asked.2).2, [(.run 0, asked.1)]⟩ :=
    .head (.spawn changing (by decide))
      ((flawlessFlow.reach_end [] [(.run 0, asked.1)] (by decide +kernel)).tail (leaves [(.run 0, asked.1)]))
  have passes : flawlessFlow.Reach ⟨(renames.run flawlessFlow.exec asked.2).2, [(.run 0, asked.1)]⟩ ⟨passed, [(.run 0, asked.1)]⟩ :=
    .head (.spawn (i := .run 1) working (by decide))
      ((flawlessFlow.reach_end [] [(.run 0, asked.1)] (by decide +kernel)).tail (leaves [(.run 0, asked.1)]))
  have writes_ : flawlessFlow.Reach ⟨passed, [(.run 0, asked.1)]⟩ ⟨stale, []⟩ :=
    (flawlessFlow.reach_end [] [] (by decide +kernel)).tail (leaves [])
  exact created.trans (begins.trans (changes.trans (passes.trans writes_)))

/-- A task that reads before a change and writes after the task of the change leaves the old vector, and nothing is to come. -/
theorem overtaken : ∃ c, flawlessFlow.Reach ⟨emptyCatalog, []⟩ c ∧ AtRest c ∧ ¬ Embedded lengths c.state := by
  have two : stale.next = 2 := by decide +kernel
  have old : ¬ ∀ p ∈ stale.products.rows, p.embedding.bind List.head? = some p.document.length := by decide +kernel
  refine ⟨⟨stale, []⟩, reach_stale, ⟨rfl, fun k => ?_⟩, fun embedded => ?_⟩
  · by_cases above : 2 ≤ k
    · exact unissued_throughout (flawless_within.reach reach_stale) (fun _ _ => rfl) k (two.trans_le above)
    · obtain rfl | rfl : k = 0 ∨ k = 1 := by omega
      · decide +kernel
      · decide +kernel
  · dsimp only at embedded
    have wide : embeddingDimensions ≠ 0 := by decide
    refine old fun p mem => ?_
    simp only [embedded.1 p mem, lengths, Option.bind_some, List.head?_replicate, if_neg wide]

end Catalog

end NovoApex.Embeddings
