import NovoApex.Lib.Crew
import NovoApex.Workers.Embedding

/-!
# Where the vectors come from

A worker reads a product, asks for the vector of its document and writes it under the
product's id, while the vendor changes the product, deletes it or creates another, other
workers embed it too, and any statement fails. Whatever the interleaving, a vector that a
product carries is that of a document this product had at some moment, and a vector that
an image carries is that of bytes that were served under its own URL
(`vectors_of_their_own`). Which moment that was is another matter (`Embeddings.Coherence`).

An image id is drawn once; everything else is left to the run.
-/

namespace NovoApex.Embeddings
set_option autoImplicit false
open Lib Program Workers

variable {S : Type}

/-- What may run: the write endpoints of the vendors, the tasks and the bulk runs. -/
inductive EmbedJob : EmbedName → Program ((embeddingStore S).signed EmbedName) Unit → Prop where
  | create (n : Nat) (p : EmbeddedProduct S) : EmbedJob (.vendor n) ((productCreate p).signed (.vendor n))
  | update (n : Nat) (businessID id : String) (sets : List Handlers.SetClause) :
      EmbedJob (.vendor n) ((productUpdate businessID id sets).signed (.vendor n))
  | delete (n : Nat) (businessID id : String) : EmbedJob (.vendor n) ((productDelete businessID id).signed (.vendor n))
  | upload (n : Nat) (businessID id : String) (rows : List (String × String × Int)) :
      EmbedJob (.vendor n) ((imageUpload businessID id rows).signed (.vendor n))
  | remove (n : Nat) (businessID id imageID : String) :
      EmbedJob (.vendor n) ((imageRemove businessID id imageID).signed (.vendor n))
  | run (k : Nat) (answer : Download) (retried : Bool) : EmbedJob (.run k) ((embeddingRun k answer retried).signed (.run k))
  | all (n : Nat) (businessID : String) : EmbedJob (.bulk n) ((ignore (embedAllForBusiness businessID)).signed (.bulk n))
  | images (n : Nat) (productID : String) (force : Bool) (answers : String → Download) :
      EmbedJob (.bulk n) ((embedProductImages productID force answers).signed (.bulk n))

/-- The ids of an upload are new. -/
def draws : EmbeddingWorld S → EmbedName × EmbeddingStmt S → Bool
  | w, (_, .insertImages _ rows) =>
    decide (rows.map Prod.fst).Nodup && rows.all fun row => decide (row.1 ∉ w.drawn.map Prod.fst)
  | _, _ => true

/-- All runs in which an image id is drawn once. -/
def embeddingFlow (services : EmbeddingServices S) : Roster ((embeddingStore S).signed EmbedName) EmbedName (EmbeddingWorld S) where
  exec := embeddingExec services
  job := EmbedJob
  allow w op := draws w op = true

/-- The history goes on. -/
structure Grown (w w' : EmbeddingWorld S) : Prop where
  documents : w.documents ⊆ w'.documents
  drawn : w.drawn ⊆ w'.drawn
  served : w.served ⊆ w'.served

theorem Grown.refl (w : EmbeddingWorld S) : Grown w w := ⟨fun _ h => h, fun _ h => h, fun _ h => h⟩

theorem Grown.trans {w w' w'' : EmbeddingWorld S} (first : Grown w w') (second : Grown w' w'') : Grown w w'' :=
  ⟨fun _ h => second.documents (first.documents h), fun _ h => second.drawn (first.drawn h), fun _ h => second.served (first.served h)⟩

section Vectors

variable (services : EmbeddingServices S)

/-- The vector is that of a document that the product has had. -/
def TextVector (w : EmbeddingWorld S) (id : String) (vector : List S) : Prop :=
  ∃ document, (id, document) ∈ w.documents ∧ vector = services.text document

/-- The vector is that of an image that was served under the URL. -/
def ImageVector (w : EmbeddingWorld S) (url : String) (vector : List S) : Prop :=
  ∃ answer, (url, answer) ∈ w.served ∧ answer.status = 200 ∧ vector = services.image answer.part.1 answer.part.2

/-- Every row is in the history, and every vector in a row comes from there. -/
structure Sourced (w : EmbeddingWorld S) : Prop where
  documents : ∀ p ∈ w.products.rows, (p.id, p.document) ∈ w.documents
  urls : ∀ i ∈ w.images.rows, (i.id, i.url) ∈ w.drawn
  once : (w.drawn.map Prod.fst).Nodup
  texts : ∀ p ∈ w.products.rows, ∀ v, p.embedding = some v → TextVector services w p.id v
  pictures : ∀ i ∈ w.images.rows, ∀ v, i.embedding = some v → ImageVector services w i.url v

/-- A vector is written where it belongs. -/
def Proper (w : EmbeddingWorld S) : EmbeddingStmt S → Prop
  | .writeProduct id vector => TextVector services w id vector
  | .writeImage id vector => ∃ url, (id, url) ∈ w.drawn ∧ ImageVector services w url vector
  | _ => True

end Vectors

section Statements

variable {services : EmbeddingServices S} {w w' : EmbeddingWorld S} {i : EmbedName} {id url : String} {vector : List S}

theorem TextVector.grown (h : TextVector services w id vector) (documents : w.documents ⊆ w'.documents) : TextVector services w' id vector := by
  obtain ⟨document, had, same⟩ := h
  exact ⟨document, documents had, same⟩

theorem ImageVector.grown (h : ImageVector services w url vector) (served : w.served ⊆ w'.served) : ImageVector services w' url vector := by
  obtain ⟨answer, got, found, same⟩ := h
  exact ⟨answer, served got, found, same⟩

/-- An update leaves the vector. -/
theorem setAll_embedding (sets : List Handlers.SetClause) (p : EmbeddedProduct S) : (p.setAll sets).embedding = p.embedding := by
  unfold EmbeddedProduct.setAll
  induction sets generalizing p with
  | nil => rfl
  | cons clause rest ih =>
    refine (ih _).trans ?_
    unfold EmbeddedProduct.set
    split
    · split
      · rfl
      · split <;> rfl
    · rfl

theorem insertImageRows_rows {images images' : Table (@EmbeddedImage.id S)} {rows : List (EmbeddedImage S)}
    (inserted : insertImageRows images rows = some images') : images'.rows = images.rows ++ rows := by
  unfold insertImageRows at inserted
  induction rows generalizing images with
  | nil =>
    cases inserted
    simp
  | cons row rest ih =>
    rw [List.foldlM_cons] at inserted
    obtain ⟨next, one, others⟩ := Option.bind_eq_some_iff.1 inserted
    rw [ih others, (Table.insert_eq_some.1 one).2, List.append_assoc]
    rfl

theorem mem_setColumns {products : Table (@EmbeddedProduct.id S)} {sets : List Handlers.SetClause} {p : EmbeddedProduct S} :
    p ∈ (setColumns id sets products).rows ↔
      (p ∈ products.rows ∧ p.id ≠ id) ∨ ∃ old ∈ products.rows, old.id = id ∧ p = old.setAll sets :=
  Table.mem_update_keyed

theorem mem_setProductVector {products : Table (@EmbeddedProduct.id S)} {p : EmbeddedProduct S} :
    p ∈ (setProductVector id vector products).rows ↔
      (p ∈ products.rows ∧ p.id ≠ id) ∨ ∃ old ∈ products.rows, old.id = id ∧ p = { old with embedding := some vector } :=
  Table.mem_update_keyed

theorem mem_setImageVector {images : Table (@EmbeddedImage.id S)} {image : EmbeddedImage S} :
    image ∈ (setImageVector id vector images).rows ↔
      (image ∈ images.rows ∧ image.id ≠ id) ∨ ∃ old ∈ images.rows, old.id = id ∧ image = { old with embedding := some vector } :=
  Table.mem_update_keyed

/-! ## What the statements keep -/

/-- The history only grows. -/
theorem grown_exec (i : EmbedName) (op : EmbeddingStmt S) (w : EmbeddingWorld S) : Grown w (embeddingExec services (i, op) w).2 := by
  cases op with
  | createProduct p =>
    simp only [embeddingExec]
    split
    · exact ⟨List.subset_cons_self .., fun _ h => h, fun _ h => h⟩
    · exact .refl w
  | updateProduct id sets =>
    simp only [embeddingExec]
    split
    · exact .refl w
    · split
      · exact .refl w
      · exact ⟨List.subset_cons_self .., fun _ h => h, fun _ h => h⟩
  | deleteProduct businessID id =>
    simp only [embeddingExec]
    split
    · exact ⟨fun _ h => h, fun _ h => h, fun _ h => h⟩
    · exact .refl w
  | insertImages productID rows =>
    simp only [embeddingExec]
    split
    · split
      · exact ⟨fun _ h => h, List.subset_append_right .., fun _ h => h⟩
      · exact .refl w
    · exact .refl w
  | fetchProduct id =>
    simp only [embeddingExec]
    split
    · exact .refl w
    · exact ⟨fun _ h => h, fun _ h => h, fun _ h => h⟩
  | writeProduct id vector =>
    simp only [embeddingExec]
    split
    · exact .refl w
    · exact ⟨fun _ h => h, fun _ h => h, fun _ h => h⟩
  | imageEmbedded id =>
    simp only [embeddingExec]
    split <;> exact .refl w
  | download url answer => exact ⟨fun _ h => h, fun _ h => h, List.subset_cons_self ..⟩
  | writeImage id vector =>
    simp only [embeddingExec]
    split
    · exact .refl w
    · exact ⟨fun _ h => h, fun _ h => h, fun _ h => h⟩
  | _ => exact ⟨fun _ h => h, fun _ h => h, fun _ h => h⟩

/-- Products change: each is as its history says, and so is its vector. -/
theorem Sourced.products (inv : Sourced services w) (images : w'.images = w.images) (drawn : w'.drawn = w.drawn) (served : w'.served = w.served)
    (rows : ∀ p ∈ w'.products.rows, (p.id, p.document) ∈ w'.documents ∧ ∀ v, p.embedding = some v → TextVector services w' p.id v) :
    Sourced services w' where
  documents p mem := (rows p mem).1
  urls i mem := by
    rw [drawn]
    rw [images] at mem
    exact inv.urls i mem
  once := by rw [drawn]; exact inv.once
  texts p mem := (rows p mem).2
  pictures i mem v there := by
    rw [images] at mem
    exact (inv.pictures i mem v there).grown (by rw [served]; exact fun _ h => h)

/-- Images change: each has the URL that was drawn for it, and so has its vector. -/
theorem Sourced.images (inv : Sourced services w) (products : w'.products = w.products) (documents : w'.documents = w.documents)
    (once : (w'.drawn.map Prod.fst).Nodup)
    (rows : ∀ i ∈ w'.images.rows, (i.id, i.url) ∈ w'.drawn ∧ ∀ v, i.embedding = some v → ImageVector services w' i.url v) :
    Sourced services w' where
  documents p mem := by
    rw [documents]
    rw [products] at mem
    exact inv.documents p mem
  urls i mem := (rows i mem).1
  once := once
  texts p mem v there := by
    rw [products] at mem
    exact (inv.texts p mem v there).grown (by rw [documents]; exact fun _ h => h)
  pictures i mem := (rows i mem).2

/-- Every statement keeps the sources, if what it writes is proper. -/
theorem Sourced.step (inv : Sourced services w) {op : EmbeddingStmt S} (may : draws w (i, op) = true) (proper : Proper services w op) :
    Sourced services (embeddingExec services (i, op) w).2 := by
  cases op with
  | createProduct p =>
    simp only [embeddingExec]
    split
    · rename_i products inserted
      refine inv.products rfl rfl rfl fun q mem => ?_
      rw [show (_ : EmbeddingWorld S).products.rows = w.products.rows ++ [_] from (Table.insert_eq_some.1 inserted).2] at mem
      rcases List.mem_append.1 mem with old | new
      · exact ⟨List.mem_cons_of_mem _ (inv.documents q old), fun v there => (inv.texts q old v there).grown (List.subset_cons_self ..)⟩
      · obtain rfl := List.mem_singleton.1 new
        exact ⟨List.mem_cons_self, fun v there => by cases there⟩
    · exact inv
  | updateProduct id sets =>
    simp only [embeddingExec]
    split
    · exact inv
    · split
      · exact inv
      · rename_i p found
        obtain ⟨here, named⟩ := Table.find?_eq_some.1 found
        refine inv.products rfl rfl rfl fun q mem => ?_
        rcases mem_setColumns.1 mem with ⟨old, -⟩ | ⟨old, there, same, rfl⟩
        · exact ⟨List.mem_cons_of_mem _ (inv.documents q old), fun v there => (inv.texts q old v there).grown (List.subset_cons_self ..)⟩
        · obtain rfl := Table.eq_of_key there here (same.trans named.symm)
          rw [EmbeddedProduct.setAll_id, setAll_embedding]
          refine ⟨?_, fun v had => (inv.texts old there v had).grown (List.subset_cons_self ..)⟩
          rw [same]
          exact List.mem_cons_self
  | deleteProduct businessID id =>
    simp only [embeddingExec]
    split
    · have images : Sourced services { w with images := w.images.delete fun i => decide (i.productID = id) } :=
        inv.images rfl rfl inv.once fun image mem =>
          ⟨inv.urls image (Table.mem_delete.1 mem).1, fun v there => inv.pictures image (Table.mem_delete.1 mem).1 v there⟩
      exact images.products rfl rfl rfl fun p mem =>
        ⟨inv.documents p (Table.mem_delete.1 mem).1, fun v there => inv.texts p (Table.mem_delete.1 mem).1 v there⟩
    · exact inv
  | insertImages productID rows =>
    simp only [embeddingExec]
    split
    · split
      · rename_i images inserted
        simp only [draws, Bool.and_eq_true, decide_eq_true_eq, List.all_eq_true] at may
        obtain ⟨distinct, fresh⟩ := may
        refine inv.images rfl rfl ?_ fun image mem => ?_
        · rw [List.map_append, List.map_map]
          refine List.nodup_append'.2 ⟨distinct, inv.once, fun id new old => ?_⟩
          obtain ⟨row, mem, rfl⟩ := List.mem_map.1 new
          exact fresh row mem old
        · rw [show (_ : EmbeddingWorld S).images.rows = w.images.rows ++ rows.map (newImage productID) from insertImageRows_rows inserted] at mem
          rcases List.mem_append.1 mem with old | new
          · exact ⟨List.mem_append_right _ (inv.urls image old), fun v there => inv.pictures image old v there⟩
          · obtain ⟨row, listed, rfl⟩ := List.mem_map.1 new
            exact ⟨List.mem_append_left _ (List.mem_map.2 ⟨row, listed, rfl⟩), fun v there => by cases there⟩
      · exact inv
    · exact inv
  | deleteImage imageID =>
    exact inv.images rfl rfl inv.once fun image mem =>
      ⟨inv.urls image (Table.mem_delete.1 mem).1, fun v there => inv.pictures image (Table.mem_delete.1 mem).1 v there⟩
  | fetchProduct id =>
    simp only [embeddingExec]
    split
    · exact inv
    · exact inv.products rfl rfl rfl fun p mem => ⟨inv.documents p mem, inv.texts p mem⟩
  | writeProduct id vector =>
    simp only [embeddingExec]
    split
    · exact inv
    · refine inv.products rfl rfl rfl fun p mem => ?_
      rcases mem_setProductVector.1 mem with ⟨old, -⟩ | ⟨old, there, same, rfl⟩
      · exact ⟨inv.documents p old, inv.texts p old⟩
      · refine ⟨inv.documents old there, fun v written => ?_⟩
        obtain rfl := Option.some.inj written
        rw [show EmbeddedProduct.id _ = id from same]
        exact proper
  | imageEmbedded id =>
    simp only [embeddingExec]
    split <;> exact inv
  | download url answer =>
    exact inv.images rfl rfl inv.once fun image mem =>
      ⟨inv.urls image mem, fun v there => (inv.pictures image mem v there).grown (List.subset_cons_self ..)⟩
  | writeImage id vector =>
    simp only [embeddingExec]
    split
    · exact inv
    · obtain ⟨url, drawn, made⟩ := proper
      refine inv.images rfl rfl inv.once fun image mem => ?_
      rcases mem_setImageVector.1 mem with ⟨old, -⟩ | ⟨old, there, same, rfl⟩
      · exact ⟨inv.urls image old, inv.pictures image old⟩
      · refine ⟨inv.urls old there, fun v written => ?_⟩
        obtain rfl := Option.some.inj written
        -- an id has one URL
        have one := List.inj_on_of_nodup_map inv.once (inv.urls old there) drawn same
        rw [show EmbeddedImage.url _ = url from congrArg Prod.snd one]
        exact made
  | _ => exact inv.products rfl rfl rfl fun p mem => ⟨inv.documents p mem, inv.texts p mem⟩

end Statements

section Safety

variable {services : EmbeddingServices S} {w : EmbeddingWorld S} {i : EmbedName} {α : Type}

/-! ## Programs -/

def sourceProtocol (services : EmbeddingServices S) : Protocol EmbedName (EmbeddingWorld S) where
  inv := Sourced services
  rely _ := Grown
  refl _ := Grown.refl
  trans _ _ _ _ := Grown.trans

/-- A program of a party, whatever the others do. -/
abbrev SafeEmbedding (services : EmbeddingServices S) (i : EmbedName) (Q : Except String α → EmbeddingWorld S → Prop) :
    Program ((embeddingStore S).signed EmbedName) α → EmbeddingWorld S → Prop :=
  Safe (embeddingFlow services) (sourceProtocol services) i Q

/-- One statement: it is proper, and its reply says something of the store. -/
theorem safe_proper {o : EmbeddingStmt S} {A : o.Reply → EmbeddingWorld S → Prop}
    (proper : ∀ t, Grown w t → Sourced services t → Proper services t o)
    (reply : ∀ t, Grown w t → Sourced services t → ∀ a, (embeddingExec services (i, o) t).1 = .ok a → A a (embeddingExec services (i, o) t).2) :
    SafeEmbedding services i (Replied A fun _ => True) ((call (I := embeddingStore S) o).signed i) w := by
  intro t rely inv
  refine ⟨fun may => ⟨?_, ?_, ?_, fun _ => trivial⟩, fun _ => trivial, fun _ => trivial⟩
  · exact Sourced.step inv may (proper t rely inv)
  · exact fun _ _ => grown_exec i o t
  · show Replied A (fun _ => True) (embeddingExec services (i, o) t).1 _
    cases answer : (embeddingExec services (i, o) t).1 with
    | ok a => exact reply t rely inv a answer
    | error e => trivial

theorem safe_proper_wrapped {text : String} {o : EmbeddingStmt S} {A : o.Reply → EmbeddingWorld S → Prop}
    (proper : ∀ t, Grown w t → Sourced services t → Proper services t o)
    (reply : ∀ t, Grown w t → Sourced services t → ∀ a, (embeddingExec services (i, o) t).1 = .ok a → A a (embeddingExec services (i, o) t).2) :
    SafeEmbedding services i (Replied A fun _ => True) ((wrapped text (call (I := embeddingStore S) o)).signed i) w := by
  unfold wrapped
  rw [signed_mapErr]
  exact Safe.mapErr_replied (safe_proper proper reply)

/-- Statements that write no vector. -/
theorem safe_plain {p : EmbeddingHandler S α} (uses : p.Uses fun op => ∀ t, Proper services t op) :
    SafeEmbedding services i (fun _ _ => True) (p.signed i) w := by
  have signed : (p.signed i).Uses fun op : EmbedName × EmbeddingStmt S => ∀ t, Proper services t op.2 := Uses.signed (uses.mono fun _ proper => proper)
  exact Safe.of_uses signed (fun op t proper inv may => ⟨Sourced.step inv may (proper t), fun _ _ => grown_exec op.1 op.2 t⟩) fun _ => trivial

/-- What a worker reads of a product is in its history. -/
theorem safe_fetchProduct {text productID : String} : SafeEmbedding services i
    (Replied (fun row t => ∀ id name description, row = some (id, name, description) → (id, buildSearchDocument name description) ∈ t.documents)
      fun _ => True)
    ((wrapped text (call (I := embeddingStore S) (.fetchProduct productID))).signed i) w := by
  refine safe_proper_wrapped (o := .fetchProduct productID) (fun _ _ _ => trivial) fun t _ inv row answer id name description same => ?_
  cases found : t.products.find? productID with
  | none =>
    simp only [embeddingExec, found] at answer
    obtain rfl := Except.ok.inj answer
    cases same
  | some p =>
    simp only [embeddingExec, found] at answer ⊢
    obtain rfl := Except.ok.inj answer
    cases same
    exact inv.documents p (Table.find?_eq_some.1 found).1

/-- The vector that a worker writes is that of the document it has read. -/
theorem safe_embedProduct (productID : String) :
    SafeEmbedding services i (fun _ _ => True) ((embedProduct productID).signed i) w := by
  unfold embedProduct
  refine Safe.bind_signed (safe_fetchProduct.mono fun r t known => ?_)
  cases r with
  | error e => trivial
  | ok row =>
    cases row with
    | none => trivial
    | some row =>
      obtain ⟨id, name, description⟩ := row
      have had := known id name description rfl
      refine Safe.bind_signed ((safe_proper_wrapped (o := .embedText _) (A := fun vector t => TextVector services t id vector)
        (fun _ _ _ => trivial) fun t grown _ vector answer => ?_).mono fun r t known => ?_)
      · obtain rfl := Except.ok.inj answer
        exact ⟨_, grown.documents had, rfl⟩
      · cases r with
        | error e => trivial
        | ok vector =>
          refine (safe_proper_wrapped (o := .writeProduct id vector) (A := fun _ _ => True)
            (fun t grown _ => known.grown grown.documents) fun _ _ _ _ _ => trivial).mono fun _ _ _ => trivial

/-- The vector that a worker writes for an image is that of what its URL served. -/
theorem safe_embedImageFromURL {id url : String} (answer : Download) (drawn : (id, url) ∈ w.drawn) :
    SafeEmbedding services i (fun _ _ => True) ((embedImageFromURL id url answer).signed i) w := by
  have embeds : SafeEmbedding services i (Replied (fun vector t => (id, url) ∈ t.drawn ∧ ImageVector services t url vector) fun _ => True)
      ((generateImageEmbeddingFromURL url answer).signed i) w := by
    unfold generateImageEmbeddingFromURL
    refine Safe.bind_signed ((safe_proper_wrapped (o := .download url answer) (A := fun got t => (id, url) ∈ t.drawn ∧ (url, got) ∈ t.served)
      (fun _ _ _ => trivial) fun t grown _ got same => ?_).mono fun r t known => ?_)
    · obtain rfl := Except.ok.inj same
      exact ⟨grown.drawn drawn, List.mem_cons_self⟩
    · cases r with
      | error e => trivial
      | ok got =>
        obtain ⟨named, served⟩ := known
        simp only
        split
        · rename_i found
          refine safe_proper (o := .embedImage got.part) (fun _ _ _ => trivial) fun u grown _ vector same => ?_
          obtain rfl := Except.ok.inj same
          exact ⟨grown.drawn named, got, grown.served served, found, rfl⟩
        · trivial
  unfold embedImageFromURL
  refine Safe.bind_signed (Safe.mono (Q := Replied (fun vector t => (id, url) ∈ t.drawn ∧ ImageVector services t url vector) fun _ => True)
    ?_ fun r t known => ?_)
  · unfold wrapped
    rw [signed_mapErr]
    exact Safe.mapErr_replied embeds
  · cases r with
    | error e => trivial
    | ok vector =>
      obtain ⟨named, made⟩ := known
      exact (safe_proper_wrapped (o := .writeImage id vector) (A := fun _ _ => True)
        (fun t grown _ => ⟨url, grown.drawn named, made.grown grown.served⟩) fun _ _ _ _ _ => trivial).mono fun _ _ _ => trivial

/-- An image that is found has the URL that was drawn for it. -/
theorem safe_fetchImage {text imageID : String} : SafeEmbedding services i
    (Replied (fun row t => ∀ id url, row = some (id, url) → (id, url) ∈ t.drawn) fun _ => True)
    ((wrapped text (call (I := embeddingStore S) (.fetchImage imageID))).signed i) w := by
  refine safe_proper_wrapped (o := .fetchImage imageID) (fun _ _ _ => trivial) fun t _ inv row answer id url same => ?_
  obtain rfl := Except.ok.inj answer
  obtain ⟨image, found, named⟩ := Option.map_eq_some_iff.1 same
  cases named
  exact inv.urls image (Table.find?_eq_some.1 (Option.filter_eq_some_iff.1 found).1).1

theorem safe_embedProductImageRow (imageID : String) (force : Bool) (answer : Download) :
    SafeEmbedding services i (fun _ _ => True) ((embedProductImageRow imageID force answer).signed i) w := by
  unfold embedProductImageRow
  refine Safe.bind_signed (safe_fetchImage.mono fun r t known => ?_)
  cases r with
  | error e => trivial
  | ok row =>
    cases row with
    | none => trivial
    | some row =>
      obtain ⟨id, url⟩ := row
      have drawn := known id url rfl
      simp only
      split
      · exact safe_embedImageFromURL answer drawn
      · refine Safe.bind_signed ((safe_proper_wrapped (o := .imageEmbedded imageID) (A := fun _ t => (id, url) ∈ t.drawn)
          (fun _ _ _ => trivial) fun t grown _ embedded _ => ?_).mono fun r t known => ?_)
        · exact (grown_exec i (.imageEmbedded imageID) t).drawn (grown.drawn drawn)
        · cases r with
          | error e => trivial
          | ok embedded =>
            cases embedded with
            | true => trivial
            | false => exact safe_embedImageFromURL answer known

theorem safe_dispatchTask (taskType : String) (payload : Option String) (answer : Download) :
    SafeEmbedding services i (fun _ _ => True) ((dispatchTask taskType payload answer).signed i) w := by
  unfold dispatchTask
  split
  · split
    · split
      · trivial
      · exact safe_embedProductImageRow _ false answer
    · trivial
  · split
    · split
      · split
        · trivial
        · exact safe_embedProduct _
      · trivial
    · trivial

theorem safe_embeddingRun (k : Nat) (answer : Download) (retried : Bool) :
    SafeEmbedding services i (fun _ _ => True) ((embeddingRun k answer retried).signed i) w := by
  unfold embeddingRun
  refine Safe.bind_signed ((safe_proper (o := .take k) (A := fun _ _ => True) (fun _ _ _ => trivial) fun _ _ _ _ _ => trivial).mono
    fun r t _ => ?_)
  cases r with
  | error e => trivial
  | ok task =>
    cases task with
    | none => trivial
    | some task =>
      refine Safe.bind_signed (Safe.attempt_signed ((safe_dispatchTask _ _ answer).mono fun r t _ => ?_))
      refine safe_plain ?_
      cases r with
      | ok _ => exact uses_call.2 fun _ => trivial
      | error e => cases retried <;> exact uses_call.2 fun _ => trivial

theorem safe_embedEach (productIDs : List String) (result : BulkEmbedResult) :
    SafeEmbedding services i (fun _ _ => True) ((embedEach result productIDs).signed i) w := by
  induction productIDs generalizing result w with
  | nil => trivial
  | cons pid rest ih =>
    unfold embedEach
    refine Safe.bind_signed (Safe.attempt_signed ((safe_embedProduct pid).mono fun r t _ => ?_))
    cases r with
    | ok _ => exact ih _
    | error e => exact ih _

theorem safe_embedAllForBusiness (businessID : String) :
    SafeEmbedding services i (fun _ _ => True) ((embedAllForBusiness businessID).signed i) w := by
  unfold embedAllForBusiness
  refine Safe.bind_signed ((safe_proper_wrapped (o := .listProducts businessID) (A := fun _ _ => True)
    (fun _ _ _ => trivial) fun _ _ _ _ _ => trivial).mono fun r t _ => ?_)
  cases r with
  | error e => trivial
  | ok ids => exact safe_embedEach ids _

theorem safe_embedImages (force : Bool) (answers : String → Download) (imageIDs : List String) :
    SafeEmbedding services i (fun _ _ => True) ((embedImages force answers imageIDs).signed i) w := by
  induction imageIDs generalizing w with
  | nil => trivial
  | cons imageID rest ih =>
    unfold embedImages
    exact Safe.bind_signed (Safe.attempt_signed ((safe_embedProductImageRow imageID force (answers imageID)).mono fun r t _ => ih))

theorem uses_publishEach (tasks : List EmbedTask) : (publishEach tasks : EmbeddingHandler S Unit).Uses fun op => ∀ t, Proper services t op := by
  induction tasks with
  | nil => trivial
  | cons task rest ih => exact Uses.bind (Uses.bind (uses_call.2 fun _ => trivial).attempt fun _ => trivial) fun _ => ih

theorem uses_withOwnProduct {businessID id : String} {next : EmbeddingHandler S Unit} (uses : next.Uses fun op => ∀ t, Proper services t op) :
    (withOwnProduct businessID id next).Uses fun op => ∀ t, Proper services t op := by
  refine Uses.bind (uses_call.2 fun _ => trivial) fun found => ?_
  cases found with
  | true => exact uses
  | false => trivial

/-- Whatever runs writes what is proper. -/
theorem safe_embedJob {p : Program ((embeddingStore S).signed EmbedName) Unit} (job : EmbedJob i p) :
    SafeEmbedding services i (fun _ _ => True) p w := by
  have publishes : ∀ task, (publishEmbed task : EmbeddingHandler S Unit).Uses fun op => ∀ t, Proper services t op :=
    fun task => Uses.bind (uses_call.2 fun _ => trivial).attempt fun _ => trivial
  cases job with
  | create n p => exact safe_plain (Uses.bind (uses_call.2 fun _ => trivial) fun _ => publishes _)
  | update n businessID id sets =>
    refine safe_plain (uses_withOwnProduct (Uses.bind (uses_call.2 fun _ => trivial) fun updated => ?_))
    cases updated with
    | true => exact publishes _
    | false => trivial
  | delete n businessID id => exact safe_plain (uses_withOwnProduct (uses_call.2 fun _ => trivial))
  | upload n businessID id rows =>
    exact safe_plain (uses_withOwnProduct (Uses.bind (uses_call.2 fun _ => trivial) fun _ => uses_publishEach _))
  | remove n businessID id imageID =>
    refine safe_plain (uses_withOwnProduct (Uses.bind (uses_call.2 fun _ => trivial) fun found => ?_))
    cases found with
    | true => exact uses_call.2 fun _ => trivial
    | false => trivial
  | run k answer retried => exact safe_embeddingRun k answer retried
  | all n businessID =>
    refine Safe.bind_signed ((safe_embedAllForBusiness businessID).mono fun r t _ => ?_)
    cases r <;> trivial
  | images n productID force answers =>
    refine Safe.bind_signed ((safe_proper_wrapped (o := .listImages productID) (A := fun _ _ => True)
      (fun _ _ _ => trivial) fun _ _ _ _ _ => trivial).mono fun r t _ => ?_)
    cases r with
    | error e => trivial
    | ok ids => exact safe_embedImages force answers ids

end Safety

/-! ## Runs -/

section Runs

variable {services : EmbeddingServices S} {w : EmbeddingWorld S} {c : Crew ((embeddingStore S).signed EmbedName) EmbedName (EmbeddingWorld S)}

/-- There is a product with the id and the document. -/
def HasDocument (w : EmbeddingWorld S) (id document : String) : Prop := ∃ p ∈ w.products.rows, p.id = id ∧ p.document = document

/-- The documents of the history are those of the products, and the vectors come from them. -/
structure Begins (services : EmbeddingServices S) (w : EmbeddingWorld S) : Prop where
  sourced : Sourced services w
  documents : ∀ x ∈ w.documents, HasDocument w x.1 x.2

theorem sourced_throughout (start : Sourced services w) (run : (embeddingFlow services).Reach ⟨w, []⟩ c) : Sourced services c.state :=
  Protocol.invariant (R := embeddingFlow services) (P := sourceProtocol services) (fun _ _ _ job _ _ => safe_embedJob job) run start
    fun _ => trivial

/-- A document enters the history when its product has it. -/
theorem documents_exec (i : EmbedName) (op : EmbeddingStmt S) (w : EmbeddingWorld S) {x : String × String}
    (mem : x ∈ (embeddingExec services (i, op) w).2.documents) :
    x ∈ w.documents ∨ HasDocument (embeddingExec services (i, op) w).2 x.1 x.2 := by
  cases op with
  | createProduct p =>
    simp only [embeddingExec] at mem ⊢
    split at mem
    · rename_i products inserted
      rcases List.mem_cons.1 mem with rfl | old
      · refine .inr ⟨{ p with embedding := none }, ?_, rfl, rfl⟩
        show _ ∈ products.rows
        rw [(Table.insert_eq_some.1 inserted).2]
        exact List.mem_append_right _ (List.mem_singleton_self _)
      · exact .inl old
    · exact .inl mem
  | updateProduct id sets =>
    simp only [embeddingExec] at mem ⊢
    split at mem
    · exact .inl mem
    · split at mem
      · exact .inl mem
      · rename_i p found
        rcases List.mem_cons.1 mem with rfl | old
        · obtain ⟨here, named⟩ := Table.find?_eq_some.1 found
          refine .inr ⟨p.setAll sets, ?_, (p.setAll_id sets).trans named, rfl⟩
          rw [if_neg (by assumption)]
          exact mem_setColumns.2 (.inr ⟨p, here, named, rfl⟩)
        · exact .inl old
  | deleteProduct businessID id =>
    simp only [embeddingExec] at mem
    split at mem <;> exact .inl mem
  | insertImages productID rows =>
    simp only [embeddingExec] at mem
    split at mem
    · split at mem <;> exact .inl mem
    · exact .inl mem
  | fetchProduct id =>
    simp only [embeddingExec] at mem
    split at mem <;> exact .inl mem
  | writeProduct id vector =>
    simp only [embeddingExec] at mem
    split at mem <;> exact .inl mem
  | imageEmbedded id =>
    simp only [embeddingExec] at mem
    split at mem <;> exact .inl mem
  | writeImage id vector =>
    simp only [embeddingExec] at mem
    split at mem <;> exact .inl mem
  | _ => exact .inl mem

/-- What is in the history was so at some moment of the run. -/
theorem document_moment {a : Crew ((embeddingStore S).signed EmbedName) EmbedName (EmbeddingWorld S)}
    (start : ∀ x ∈ a.state.documents, HasDocument a.state x.1 x.2) (run : (embeddingFlow services).Reach a c) {x : String × String}
    (mem : x ∈ c.state.documents) :
    ∃ m, (embeddingFlow services).Reach a m ∧ (embeddingFlow services).Reach m c ∧ HasDocument m.state x.1 x.2 := by
  induction run with
  | refl => exact ⟨a, .refl, .refl, start x mem⟩
  | @tail b c before step ih =>
    have earlier : x ∈ b.state.documents ∨ HasDocument c.state x.1 x.2 := by
      rcases step.effect with same | ⟨op, -, moved⟩
      · rw [same] at mem
        exact .inl mem
      · rw [moved] at mem ⊢
        exact documents_exec op.1 op.2 b.state mem
    rcases earlier with old | now
    · obtain ⟨m, first, later, had⟩ := ih old
      exact ⟨m, first, later.tail step, had⟩
    · exact ⟨c, before.tail step, .refl, now⟩

/-- In every run, whatever fails and in every order: the vector of a product is that of a document this product had at some moment of
the run, and the vector of an image is that of bytes that were served under its own URL. -/
theorem vectors_of_their_own (start : Begins services w) (run : (embeddingFlow services).Reach ⟨w, []⟩ c) :
    (∀ p ∈ c.state.products.rows, ∀ v, p.embedding = some v → ∃ m, (embeddingFlow services).Reach ⟨w, []⟩ m ∧
      (embeddingFlow services).Reach m c ∧ ∃ q ∈ m.state.products.rows, q.id = p.id ∧ v = services.text q.document) ∧
    ∀ image ∈ c.state.images.rows, ∀ v, image.embedding = some v → ImageVector services c.state image.url v := by
  have sourced := sourced_throughout start.sourced run
  refine ⟨fun p mem v there => ?_, fun image mem v there => sourced.pictures image mem v there⟩
  obtain ⟨document, had, rfl⟩ := sourced.texts p mem v there
  obtain ⟨m, first, later, q, listed, named, rfl⟩ := document_moment start.documents run had
  exact ⟨m, first, later, q, listed, named, rfl⟩

end Runs

/-! ## A catalog -/

/-- Vectors of the length that the columns have. -/
def lengths : EmbeddingServices Nat where
  text document := List.replicate embeddingDimensions document.length
  image mimeType data := List.replicate embeddingDimensions (mimeType.length + data.length)

def emptyCatalog : EmbeddingWorld Nat where
  products := Table.empty
  images := Table.empty
  tasks _ := .absent
  next := 0
  owes _ := []
  documents := []
  drawn := []
  served := []

theorem emptyCatalog_begins : Begins lengths emptyCatalog :=
  ⟨⟨fun _ absurd_ => (by cases absurd_), fun _ absurd_ => (by cases absurd_), List.nodup_nil, fun _ absurd_ => (by cases absurd_),
    fun _ absurd_ => (by cases absurd_)⟩, fun _ absurd_ => by cases absurd_⟩

def sandal : EmbeddedProduct Nat := ⟨"p-1", "b-1", "Sandal", some " brown leather ", none⟩

/-- A photo without a content type. -/
def photo : Download := ⟨200, "", [255, 216, 255]⟩

abbrev catalogFlow := embeddingFlow lengths

abbrev CatalogProgram := Program ((embeddingStore Nat).signed EmbedName) Unit

def creates : CatalogProgram := (productCreate sandal).signed (.vendor 1)

def uploads : CatalogProgram := (imageUpload "b-1" "p-1" [("i-1", "https://cdn/1.jpg", 0)]).signed (.vendor 2)

def renames : CatalogProgram := (productUpdate "b-1" "p-1" [⟨"name", .text "Boot"⟩]).signed (.vendor 3)

def works (k : Nat) : CatalogProgram := (embeddingRun k photo true).signed (.run k)

def listed : EmbeddingWorld Nat := (creates.run catalogFlow.exec emptyCatalog).2

def illustrated : EmbeddingWorld Nat := (uploads.run catalogFlow.exec listed).2

/-- The product and its image are embedded, and then the product gets another name. -/
def renamed : EmbeddingWorld Nat :=
  (renames.run catalogFlow.exec ((works 1).run catalogFlow.exec ((works 0).run catalogFlow.exec illustrated).2).2).2

instance (w : EmbeddingWorld Nat) : DecidablePred (catalogFlow.allow w) := fun op => inferInstanceAs (Decidable (draws w op = true))

theorem reach_renamed : catalogFlow.Reach ⟨emptyCatalog, []⟩ ⟨renamed, []⟩ := by
  have created := Roster.reach_job (R := catalogFlow) (i := .vendor 1) (p := creates) (s := emptyCatalog) (.create 1 sandal)
    (by decide +kernel)
  have uploaded := Roster.reach_job (R := catalogFlow) (i := .vendor 2) (p := uploads) (s := listed) (.upload 2 "b-1" "p-1" _)
    (by decide +kernel)
  have embedded := Roster.reach_job (R := catalogFlow) (i := .run 0) (p := works 0) (s := illustrated) (.run 0 photo true)
    (by decide +kernel)
  have pictured := Roster.reach_job (R := catalogFlow) (i := .run 1) (p := works 1)
    (s := ((works 0).run catalogFlow.exec illustrated).2) (.run 1 photo true) (by decide +kernel)
  have changed := Roster.reach_job (R := catalogFlow) (i := .vendor 3) (p := renames)
    (s := ((works 1).run catalogFlow.exec ((works 0).run catalogFlow.exec illustrated).2).2) (.update 3 "b-1" "p-1" _) (by decide +kernel)
  exact created.trans (uploaded.trans (embedded.trans (pictured.trans changed)))

/-- The sandal, now a boot, still carries the vector of the sandal. -/
theorem vectors_of_their_own_renamed : ∃ c : Crew ((embeddingStore Nat).signed EmbedName) EmbedName (EmbeddingWorld Nat),
    c.state.products.rows.map EmbeddedProduct.document = ["Boot. brown leather"] ∧
    (c.state.products.rows.map fun p => p.embedding.bind List.head?) = [some "Sandal. brown leather".length] ∧
    ∀ p ∈ c.state.products.rows, ∀ v, p.embedding = some v → ∃ m : Crew ((embeddingStore Nat).signed EmbedName) EmbedName (EmbeddingWorld Nat),
      ∃ q ∈ m.state.products.rows, q.id = p.id ∧ v = lengths.text q.document := by
  have vectors := (vectors_of_their_own emptyCatalog_begins reach_renamed).1
  refine ⟨⟨renamed, []⟩, by decide +kernel, by decide +kernel, fun p mem v there => ?_⟩
  obtain ⟨m, -, -, moment⟩ := vectors p mem v there
  exact ⟨m, moment⟩

end NovoApex.Embeddings
