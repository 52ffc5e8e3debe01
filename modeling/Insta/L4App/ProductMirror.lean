import Insta.Core.Mirror
import Insta.L4App.System

/-!
# The local catalogue of Stripe's products

Products are created, edited and deleted at Stripe; each change generates a
`product.created`, `.updated` or `.deleted` event. Events are delivered in
any order, each any number of times, at any time after the change.

An event carries the product's id only as far as the handler reads it:
`SyncStripeProductService` retrieves the product anew. So the handler is the
receiver of `Core.Mirror` (`catalogue_step`), with one row per product as the
invariant that makes `find_or_initialize_by` and `find_by` see the copy as a
map.

* `products_mirrored`: once every event has been delivered, the catalogue is
  in sync with Stripe iff of no product of the account the last delivery was
  a `product.deleted`; so it is if no product was created under an id that an
  earlier event was about.
* `reused_id_lost`: Stripe lets the caller choose a product's id. A product is
  deleted and created again, and the `product.deleted` comes last: the
  handler destroys the row without asking Stripe.
-/
namespace Insta.Web

open Insta.Core Insta.Store Insta.Store.App Insta.Model Insta.Service

/-! ## The system -/

/-- Stripe's product `p`. -/
def product? (a : Stripe) (p : String) : Option StripeProduct := a.products.find? (·.id == p)

def putProduct (a : Stripe) (k : StripeProduct) : Stripe :=
  { a with products := k :: a.products.filter fun x => x.id != k.id }

def removeProduct (a : Stripe) (p : String) : Stripe :=
  { a with products := a.products.filter fun x => x.id != p }

/-- The world, the events in the order of the changes, each with whether it
has been delivered, and all deliveries, the last one first. -/
structure Catalogue where
  world : World
  log : List (Event × Bool)
  delivered : List Event

inductive CatalogueLabel
  | create (k : StripeProduct)
  | edit (k : StripeProduct)
  | delete (p : String)
  | deliver (i : Nat)

/-- The account changed to `a`, and the event was generated. -/
def Catalogue.change (s : Catalogue) (a : Stripe) (type : EventType) (p : String) : Catalogue :=
  { s with world := { s.world with stripe := a }, log := s.log ++ [(⟨type, { id := p }⟩, false)] }

def catalogueNext (lib : Lib) (s : Catalogue) : CatalogueLabel → Option Catalogue
  | .create k =>
    if k.prices ≠ [] ∧ product? s.world.stripe k.id = none then
      some (s.change (putProduct s.world.stripe k) .productCreated k.id)
    else none
  | .edit k =>
    if k.prices ≠ [] ∧ (product? s.world.stripe k.id).isSome then
      some (s.change (putProduct s.world.stripe k) .productUpdated k.id)
    else none
  | .delete p =>
    if (product? s.world.stripe p).isSome then
      some (s.change (removeProduct s.world.stripe p) .productDeleted p)
    else none
  | .deliver i => s.log[i]?.map fun e =>
    ⟨serve lib s.world ⟨none, .webhooksStripe (some e.1), []⟩, s.log.set i (e.1, true), e.1 :: s.delivered⟩

/-- One row for each product of the account and no others, with Stripe's name,
description and active flag. -/
structure InSync (w : World) : Prop where
  once : ∀ a ∈ w.db.products.rows, ∀ b ∈ w.db.products.rows, ∀ p,
    a.stripeProductId = some p → b.stripeProductId = some p → a = b
  exists_iff : ∀ p, (∃ r ∈ w.db.products.rows, r.stripeProductId = some p) ↔ ∃ k, product? w.stripe p = some k
  columns : ∀ r ∈ w.db.products.rows, ∀ p k, r.stripeProductId = some p → product? w.stripe p = some k →
    r.name = some k.name ∧ r.description = k.description ∧ r.active = some k.active

structure CatalogueStart (s : Catalogue) : Prop where
  sync : InSync s.world
  priced : ∀ k ∈ s.world.stripe.products, k.prices ≠ []
  log : s.log = []
  delivered : s.delivered = []

def catalogue (lib : Lib) : LTS Catalogue CatalogueLabel := LTS.ofFn CatalogueStart (catalogueNext lib)

/-- The last delivery about `p` was a `product.deleted`. -/
def Catalogue.droppedLast (s : Catalogue) (p : String) : Bool :=
  (s.delivered.find? (·.object.id == p)).any (·.type == .productDeleted)

/-- The events in the order of the changes. -/
def Catalogue.events (s : Catalogue) : List Event := s.log.map Prod.fst

/-- No product was created under an id that an earlier event was about. -/
def Catalogue.NoReuse (s : Catalogue) : Prop :=
  s.events.Pairwise fun a b => b.type = .productCreated → a.object.id ≠ b.object.id

instance (s : Catalogue) : Decidable s.NoReuse := inferInstanceAs (Decidable (List.Pairwise _ _))

/-! ## Stripe's products -/

theorem product?_put (a : Stripe) (k : StripeProduct) (p : String) :
    product? (putProduct a k) p = if p = k.id then some k else product? a p := by
  unfold product? putProduct
  rw [List.find?_cons]
  by_cases hp : p = k.id
  · simp [hp]
  · rw [if_neg hp, beq_eq_false_iff_ne.2 (Ne.symm hp), List.find?_filter]
    dsimp only
    congr 1
    funext x
    by_cases hx : x.id = p <;> simp [hx, hp]

theorem product?_remove (a : Stripe) (p q : String) :
    product? (removeProduct a p) q = if q = p then none else product? a q := by
  unfold product? removeProduct
  rw [List.find?_filter]
  by_cases hq : q = p
  · simp [hq]
  · rw [if_neg hq]
    congr 1
    funext x
    by_cases hx : x.id = q <;> simp [hx, hq]

/-! ## The handler -/

/-- The rows of product `p`. -/
def rowsOf (t : Table ProductRow) (p : String) : List ProductRow :=
  t.rows.filter fun x => x.stripeProductId == some p

theorem mem_rowsOf {t : Table ProductRow} {p : String} {r : ProductRow} :
    r ∈ rowsOf t p ↔ r ∈ t.rows ∧ r.stripeProductId = some p := by
  simp [rowsOf]

theorem productOf_eq_head (db : Db) (p : String) : productOf db p = (rowsOf db.products p).head? :=
  Table.first_eq_head

/-- What of a product is mirrored. -/
abbrev ProductView := Option String × Option String × Option Bool

def viewRow (r : ProductRow) : ProductView := (r.name, r.description, r.active)

def viewProduct (k : StripeProduct) : ProductView := (some k.name, k.description, some k.active)

section Save

variable {w : World} {k : StripeProduct}

/-- Saving leaves one row of the product, with Stripe's columns, and the
other products' rows as they were. -/
theorem saveProduct_rows (price : Price) (hone : (rowsOf w.db.products k.id).length ≤ 1) :
    ∃ t r, (saveProduct (productOf w.db k.id) k price).run w =
        (.ok (), { w with db := { w.db with products := t } }) ∧
      rowsOf t k.id = [assignProduct k price r] ∧ ∀ q, q ≠ k.id → rowsOf t q = rowsOf w.db.products q := by
  rw [productOf_eq_head]
  rcases hrows : rowsOf w.db.products k.id with _ | ⟨r, _ | ⟨r', rest⟩⟩
  · obtain ⟨t, ht, hw⟩ := saveProduct_new k price w
    refine ⟨t, withId w.db.products.nextId (newProduct k.id), hw, ?_, fun q hq => ?_⟩
    · unfold rowsOf at hrows ⊢
      rw [Table.rows_insert ht, List.filter_append, hrows]
      simp [withId, assignProduct, newProduct]
    · exact Table.filter_insert ht (beq_eq_false_iff_ne.2 fun he => hq (Option.some.inj he).symm)
  · obtain ⟨t, ht, hw⟩ := saveProduct_found r k price w
    obtain ⟨hr, hrp⟩ := mem_rowsOf.1 (hrows ▸ List.mem_singleton_self r)
    refine ⟨t, r, hw, ?_, fun q hq => ?_⟩
    · unfold rowsOf at hrows ⊢
      rw [Table.filter_modify_of_same ht fun _ _ _ => rfl, hrows]
      exact congrArg (fun x => [x]) ((if_pos rfl).trans (congrArg (withId r.id) (patchProduct_loaded k price r)))
    · refine Table.filter_modify ht fun x hx hid => ?_
      rw [w.db.products.eq_of_rowId hx hr hid]
      have hother : (r.stripeProductId == some q) = false :=
        beq_eq_false_iff_ne.2 fun he => hq (Option.some.inj (he.symm.trans hrp))
      exact ⟨hother, hother⟩
  · rw [hrows] at hone
    simp at hone

end Save

section Notice

variable {w : World} {p : String} {k : StripeProduct}

theorem productRetrieve_of_some (hs : w.script = []) (hk : product? w.stripe p = some k) :
    (productRetrieve p).run w = (.ok k, w) := by
  unfold productRetrieve
  rw [Act.bind_of_ok (external_of_nil hs), Act.run_get_bind]
  unfold product? at hk
  rw [hk]
  rfl

theorem priceList_of_nil (hs : w.script = []) (k : StripeProduct) : (priceList k).run w = (.ok k.prices, w) := by
  unfold priceList
  rw [Act.bind_of_ok (external_of_nil hs)]
  rfl

/-- A notice about a product that is there stores it. -/
theorem syncProduct_of_some {price : Price} {prices : List Price} (hs : w.script = [])
    (hk : product? w.stripe p = some k) (hprices : k.prices = price :: prices) :
    (syncProductFromStripe p).run w = (saveProduct (productOf w.db k.id) k price).run w := by
  have himage : (downloadImage k).run w = (.ok (), w) := by
    unfold downloadImage
    split
    · rfl
    · exact external_of_nil hs
  unfold syncProductFromStripe
  rw [Act.bind_of_ok (productRetrieve_of_some hs hk), Act.bind_of_ok (priceList_of_nil hs k),
    Act.run_get_bind, hprices]
  exact Act.bind_of_ok himage

/-- One about a product without a price reads `unit_amount` of `nil`. -/
theorem syncProduct_of_no_price (hs : w.script = []) (hk : product? w.stripe p = some k) (hprices : k.prices = []) :
    (syncProductFromStripe p).run w = (.error .noMethodError, w) := by
  unfold syncProductFromStripe
  rw [Act.bind_of_ok (productRetrieve_of_some hs hk), Act.bind_of_ok (priceList_of_nil hs k),
    Act.run_get_bind, hprices]
  rfl

/-- One about a product that is gone raises. -/
theorem syncProduct_of_none (hs : w.script = []) (hk : product? w.stripe p = none) :
    (syncProductFromStripe p).run w = (.error (.fault .invalidRequest), w) := by
  have hget : (productRetrieve p).run w = (.error (.fault .invalidRequest), w) := by
    unfold productRetrieve
    rw [Act.bind_of_ok (external_of_nil hs), Act.run_get_bind]
    unfold product? at hk
    rw [hk]
    rfl
  unfold syncProductFromStripe
  rw [Act.bind_of_error hget]

end Notice

theorem webhooksStripe_of_product (lib : Lib) {e : Event} (h : EventType.ofProduct e.type = true) (w : World) :
    (webhooksStripe lib (some e)).run w = (handleProduct e).run w := by
  rw [← run_bind_pure (handleProduct e)]
  obtain ⟨type, object⟩ := e
  cases type <;> first | rfl | cases h

/-! ## The catalogue as a mirror -/

def mirroredSource (a : Stripe) (p : String) : Option ProductView := (product? a p).map viewProduct

def mirroredCopy (db : Db) (p : String) : Option ProductView := (productOf db p).map viewRow

def noticeOf (e : Event) : Mirror.Notice String := ⟨e.object.id, e.type == .productDeleted⟩

def Catalogue.mirror (s : Catalogue) : Mirror.State String ProductView where
  source := mirroredSource s.world.stripe
  copy := mirroredCopy s.world.db
  log := s.log.map fun e => (noticeOf e.1, e.2)
  arrived := s.delivered.map noticeOf

theorem droppedLast_mirror (s : Catalogue) (p : String) : s.mirror.droppedLast p = s.droppedLast p := by
  simp only [Mirror.State.droppedLast, Catalogue.mirror, Catalogue.droppedLast, List.find?_map, Option.any_map]
  rfl

/-- At most one row per product. -/
def OneProductRow (db : Db) : Prop := ∀ p, (rowsOf db.products p).length ≤ 1

/-- A handler that leaves the rows `l` of `p` and the others' alone. -/
theorem mirroredCopy_of_rows (db : Db) {db' : Db} {p : String} {l : List ProductRow} (h : rowsOf db'.products p = l)
    (hother : ∀ q, q ≠ p → rowsOf db'.products q = rowsOf db.products q) :
    mirroredCopy db' = Function.update (mirroredCopy db) p (l.head?.map viewRow) := by
  funext q
  unfold mirroredCopy
  by_cases hq : q = p
  · rw [hq, Function.update_self, productOf_eq_head, h]
  · rw [Function.update_of_ne hq, productOf_eq_head, productOf_eq_head, hother q hq]

theorem oneProductRow_of_rows {db db' : Db} {p : String} {l : List ProductRow} (hone : OneProductRow db)
    (h : rowsOf db'.products p = l) (hl : l.length ≤ 1)
    (hother : ∀ q, q ≠ p → rowsOf db'.products q = rowsOf db.products q) : OneProductRow db' := by
  intro q
  by_cases hq : q = p
  · rw [hq, h]
    exact hl
  · rw [hother q hq]
    exact hone q

/-- `Product.find_by(...)&.destroy` takes the only row. -/
theorem dropProduct_rows {db : Db} (hone : OneProductRow db) (p : String) :
    rowsOf (dropProduct db p).products p = [] ∧
      ∀ q, q ≠ p → rowsOf (dropProduct db p).products q = rowsOf db.products q := by
  unfold dropProduct
  rw [productOf_eq_head]
  rcases hrows : rowsOf db.products p with _ | ⟨r, _ | ⟨r', rest⟩⟩
  · exact ⟨hrows, fun _ _ => rfl⟩
  · obtain ⟨hr, hrp⟩ := mem_rowsOf.1 (hrows ▸ List.mem_singleton_self r)
    refine ⟨List.eq_nil_iff_forall_not_mem.2 fun x hx => ?_, fun q hq => ?_⟩
    · obtain ⟨hx, hxp⟩ := mem_rowsOf.1 hx
      obtain ⟨hx, hne⟩ := Table.mem_delete.1 hx
      have hxr : x ∈ rowsOf db.products p := mem_rowsOf.2 ⟨hx, hxp⟩
      rw [hrows, List.mem_singleton] at hxr
      rw [hxr] at hne
      simp at hne
    · refine Table.filter_delete fun x hx hid => ?_
      rw [db.products.eq_of_rowId hx hr (beq_iff_eq.1 hid)]
      exact beq_eq_false_iff_ne.2 fun he => hq (Option.some.inj (he.symm.trans hrp))
  · have := hone p
    rw [hrows] at this
    simp at this

theorem dropProduct_receives {db : Db} (hone : OneProductRow db) (source : String → Option ProductView) (p : String) :
    OneProductRow (dropProduct db p) ∧
    mirroredCopy (dropProduct db p) = Mirror.receive source (mirroredCopy db) ⟨p, true⟩ := by
  obtain ⟨hgone, hother⟩ := dropProduct_rows hone p
  refine ⟨oneProductRow_of_rows hone hgone (by simp) hother, ?_⟩
  rw [mirroredCopy_of_rows db hgone hother]
  simp [Mirror.receive]

theorem syncProduct_receives {w : World} (hs : w.script = []) (hone : OneProductRow w.db)
    (hpriced : ∀ k ∈ w.stripe.products, k.prices ≠ []) (p : String) :
    ((syncProductFromStripe p).run w).2.stripe = w.stripe ∧
    OneProductRow ((syncProductFromStripe p).run w).2.db ∧
    mirroredCopy ((syncProductFromStripe p).run w).2.db =
      Mirror.receive (mirroredSource w.stripe) (mirroredCopy w.db) ⟨p, false⟩ := by
  cases hk : product? w.stripe p with
  | none =>
    rw [syncProduct_of_none hs hk]
    refine ⟨rfl, hone, ?_⟩
    simp [Mirror.receive, mirroredSource, hk]
  | some k =>
    obtain ⟨hmem, hid⟩ : k ∈ w.stripe.products ∧ k.id = p :=
      ⟨List.mem_of_find?_eq_some hk, by simpa using List.find?_some hk⟩
    rcases hprices : k.prices with _ | ⟨price, prices⟩
    · exact absurd hprices (hpriced k hmem)
    · rw [syncProduct_of_some hs hk hprices]
      obtain ⟨t, r, hw, hr, hother⟩ := saveProduct_rows (k := k) price (hone k.id)
      rw [hw]
      refine ⟨rfl, oneProductRow_of_rows hone hr le_rfl hother, ?_⟩
      rw [mirroredCopy_of_rows w.db hr hother, hid]
      simp [Mirror.receive, mirroredSource, hk, viewRow, viewProduct, assignProduct]

/-- A delivery is the receipt of a notice. -/
theorem deliver_receives (lib : Lib) {w : World} {e : Event} (he : EventType.ofProduct e.type = true)
    (hone : OneProductRow w.db) (hpriced : ∀ k ∈ w.stripe.products, k.prices ≠ []) :
    (serve lib w ⟨none, .webhooksStripe (some e), []⟩).stripe = w.stripe ∧
    OneProductRow (serve lib w ⟨none, .webhooksStripe (some e), []⟩).db ∧
    mirroredCopy (serve lib w ⟨none, .webhooksStripe (some e), []⟩).db =
      Mirror.receive (mirroredSource w.stripe) (mirroredCopy w.db) (noticeOf e) := by
  have hrun : serve lib w ⟨none, .webhooksStripe (some e), []⟩ =
    ((handleProduct e).run { w with script := [] }).2 := congrArg Prod.snd (webhooksStripe_of_product lib he _)
  rw [hrun]
  obtain ⟨type, object⟩ := e
  have hsynced := syncProduct_receives (w := { w with script := [] }) rfl hone hpriced object.id
  cases type with
  | productCreated => exact hsynced
  | productUpdated => exact hsynced
  | productDeleted => exact ⟨rfl, dropProduct_receives hone _ object.id⟩
  | _ => cases he

theorem mirroredSource_put (a : Stripe) (k : StripeProduct) :
    mirroredSource (putProduct a k) = Function.update (mirroredSource a) k.id (some (viewProduct k)) := by
  funext p
  unfold mirroredSource
  rw [product?_put]
  by_cases hp : p = k.id
  · rw [if_pos hp, hp, Function.update_self]
    rfl
  · rw [if_neg hp, Function.update_of_ne hp]

theorem mirroredSource_remove (a : Stripe) (p : String) :
    mirroredSource (removeProduct a p) = Function.update (mirroredSource a) p none := by
  funext q
  unfold mirroredSource
  rw [product?_remove]
  by_cases hq : q = p
  · rw [if_pos hq, hq, Function.update_self]
    rfl
  · rw [if_neg hq, Function.update_of_ne hq]

/-! ## Runs -/

structure CatalogueInv (s : Catalogue) : Prop where
  one : OneProductRow s.world.db
  priced : ∀ k ∈ s.world.stripe.products, k.prices ≠ []
  events : ∀ e ∈ s.log, EventType.ofProduct e.1.type = true
  tracked : Mirror.Tracked s.mirror
  final : s.NoReuse → Mirror.Final s.mirror

theorem priced_put {a : Stripe} {k : StripeProduct} (h : ∀ x ∈ a.products, x.prices ≠ []) (hk : k.prices ≠ []) :
    ∀ x ∈ (putProduct a k).products, x.prices ≠ [] := by
  intro x hx
  rcases List.mem_cons.1 hx with rfl | hx
  · exact hk
  · exact h x (List.mem_filter.1 hx).1

theorem events_change (s : Catalogue) (a : Stripe) (type : EventType) (p : String) :
    (s.change a type p).events = s.events ++ [⟨type, { id := p }⟩] := by
  simp [Catalogue.events, Catalogue.change]

/-- A change of the account keeps the invariant if it is a step of the
mirror. -/
theorem CatalogueInv.change {s : Catalogue} {a : Stripe} {type : EventType} {p : String} (h : CatalogueInv s)
    (hpriced : ∀ k ∈ a.products, k.prices ≠ []) (htype : EventType.ofProduct type = true)
    (hstep : Mirror.Step s.mirror (s.change a type p).mirror)
    (hfinal : Mirror.Final s.mirror → (type = .productCreated → ∀ e ∈ s.events, e.object.id ≠ p) →
      Mirror.Final (s.change a type p).mirror) : CatalogueInv (s.change a type p) where
  one := h.one
  priced := hpriced
  events e he := by
    rcases List.mem_append.1 he with he | he
    · exact h.events e he
    · rw [List.mem_singleton.1 he]
      exact htype
  tracked := h.tracked.step hstep
  final hreuse := by
    rw [Catalogue.NoReuse, events_change, List.pairwise_append] at hreuse
    obtain ⟨hold, -, hnew⟩ := hreuse
    exact hfinal (h.final hold) fun hcreated e he => hnew e he _ (List.mem_singleton_self _) hcreated

theorem log_change (s : Catalogue) (a : Stripe) (type : EventType) (p : String) :
    (s.change a type p).mirror.log = s.mirror.log ++ [(⟨p, type == .productDeleted⟩, false)] := by
  simp [Catalogue.mirror, Catalogue.change, noticeOf]

theorem events_deliver {s : Catalogue} {i : Nat} {e : Event} {d : Bool} (he : s.log[i]? = some (e, d)) (w : World)
    (es : List Event) : Catalogue.events ⟨w, s.log.set i (e, true), es⟩ = s.events := by
  have hfst : (s.log.map Prod.fst)[i]? = some e := by rw [List.getElem?_map, he]; rfl
  obtain ⟨hi, rfl⟩ := List.getElem?_eq_some_iff.1 hfst
  exact List.map_set.trans (List.set_getElem_self hi)

theorem CatalogueInv.step {lib : Lib} {s s' : Catalogue} {l : CatalogueLabel} (h : CatalogueInv s)
    (hs : catalogueNext lib s l = some s') : CatalogueInv s' := by
  cases l with
  | create k =>
    simp only [catalogueNext, Option.ite_none_right_eq_some, Option.some.injEq] at hs
    obtain ⟨⟨hprices, -⟩, rfl⟩ := hs
    refine h.change (priced_put h.priced hprices) rfl
      (.write k.id (viewProduct k) (mirroredSource_put ..) rfl (log_change ..) rfl) fun hfinal hnew => ?_
    refine hfinal.write (.inr fun e he => ?_) (mirroredSource_put ..) (log_change ..)
    obtain ⟨e', he', rfl⟩ := List.mem_map.1 he
    exact hnew rfl e'.1 (List.mem_map_of_mem he')
  | edit k =>
    simp only [catalogueNext, Option.ite_none_right_eq_some, Option.some.injEq] at hs
    obtain ⟨⟨hprices, hsome⟩, rfl⟩ := hs
    refine h.change (priced_put h.priced hprices) rfl
      (.write k.id (viewProduct k) (mirroredSource_put ..) rfl (log_change ..) rfl) fun hfinal _ => ?_
    refine hfinal.write (.inl fun hn => ?_) (mirroredSource_put ..) (log_change ..)
    rw [Option.map_eq_none_iff.1 hn] at hsome
    cases hsome
  | delete p =>
    simp only [catalogueNext, Option.ite_none_right_eq_some, Option.some.injEq] at hs
    obtain ⟨-, rfl⟩ := hs
    refine h.change (fun k hk => h.priced k (List.mem_filter.1 hk).1) rfl
      (.remove p (mirroredSource_remove ..) rfl (log_change ..) rfl) fun hfinal _ => ?_
    exact hfinal.remove (mirroredSource_remove ..) (log_change ..)
  | deliver i =>
    obtain ⟨⟨e, d⟩, he, rfl⟩ := Option.map_eq_some_iff.1 hs
    have hof := h.events _ (List.mem_of_getElem? he)
    obtain ⟨hstripe, hone, hcopy⟩ := deliver_receives lib hof h.one h.priced
    have hn : s.mirror.log[i]? = some (noticeOf e, d) := by simp [Catalogue.mirror, he]
    have hsource : mirroredSource (serve lib s.world ⟨none, .webhooksStripe (some e), []⟩).stripe = s.mirror.source :=
      congrArg mirroredSource hstripe
    have hlog : (s.log.set i (e, true)).map (fun x => (noticeOf x.1, x.2)) = s.mirror.log.set i (noticeOf e, true) :=
      List.map_set
    refine ⟨hone, fun k hk => h.priced k (hstripe ▸ hk), fun x hx => ?_,
      h.tracked.step (.arrive hn hsource hcopy hlog rfl), fun hreuse => (h.final ?_).arrive hn hsource hlog⟩
    · rcases List.mem_or_eq_of_mem_set hx with hx | rfl
      · exact h.events x hx
      · exact hof
    · rwa [Catalogue.NoReuse, events_deliver he] at hreuse

/-! ## Being in sync -/

/-- A row of the product is the row. -/
theorem OneProductRow.productOf {db : Db} (h : OneProductRow db) {r : ProductRow} (hr : r ∈ db.products.rows)
    {p : String}
    (hp : r.stripeProductId = some p) : productOf db p = some r := by
  have hmem : r ∈ rowsOf db.products p := mem_rowsOf.2 ⟨hr, hp⟩
  have hone := h p
  rw [productOf_eq_head]
  rcases hrows : rowsOf db.products p with _ | ⟨a, _ | ⟨b, rest⟩⟩ <;> rw [hrows] at hmem hone
  · cases hmem
  · rw [List.mem_singleton.1 hmem]
    rfl
  · simp at hone

theorem oneProductRow_of_once {t : Table ProductRow} {p : String}
    (h : ∀ a ∈ t.rows, ∀ b ∈ t.rows, a.stripeProductId = some p → b.stripeProductId = some p → a = b) :
    (rowsOf t p).length ≤ 1 := by
  rcases hrows : rowsOf t p with _ | ⟨a, _ | ⟨b, rest⟩⟩
  · simp
  · simp
  · -- two rows of the list have different keys
    have ha : a ∈ rowsOf t p := by rw [hrows]; exact List.mem_cons_self
    have hb : b ∈ rowsOf t p := by rw [hrows]; exact List.mem_cons_of_mem _ List.mem_cons_self
    have hsorted : (rowsOf t p).Pairwise fun x y => rowId x < rowId y := t.sorted.filter _
    rw [hrows] at hsorted
    have hlt := (List.pairwise_cons.1 hsorted).1 b List.mem_cons_self
    obtain ⟨ha, hap⟩ := mem_rowsOf.1 ha
    obtain ⟨hb, hbp⟩ := mem_rowsOf.1 hb
    rw [h a ha b hb hap hbp] at hlt
    exact absurd hlt (Nat.lt_irrefl _)

theorem inSync_iff (w : World) : InSync w ↔ OneProductRow w.db ∧ mirroredCopy w.db = mirroredSource w.stripe := by
  constructor
  · intro h
    have hone : OneProductRow w.db := fun p => oneProductRow_of_once fun a ha b hb => h.once a ha b hb p
    refine ⟨hone, funext fun p => ?_⟩
    unfold mirroredCopy mirroredSource
    cases hk : product? w.stripe p with
    | none =>
      cases hr : productOf w.db p with
      | none => rfl
      | some r =>
        obtain ⟨k, hk'⟩ := (h.exists_iff p).1 ⟨r, productOf_mem hr⟩
        cases hk.symm.trans hk'
    | some k =>
      obtain ⟨r, hr, hp⟩ := (h.exists_iff p).2 ⟨k, hk⟩
      obtain ⟨hname, hdesc, hactive⟩ := h.columns r hr p k hp hk
      rw [hone.productOf hr hp]
      simp [viewRow, viewProduct, hname, hdesc, hactive]
  · rintro ⟨hone, hsame⟩
    have hview : ∀ p, (productOf w.db p).map viewRow = (product? w.stripe p).map viewProduct := congrFun hsame
    refine ⟨fun a ha b hb p hpa hpb => ?_, fun p => ⟨?_, ?_⟩, fun r hr p k hp hk => ?_⟩
    · exact Option.some.inj ((hone.productOf ha hpa).symm.trans (hone.productOf hb hpb))
    · rintro ⟨r, hr, hp⟩
      have h := hview p
      rw [hone.productOf hr hp] at h
      obtain ⟨k, hk, -⟩ := Option.map_eq_some_iff.1 h.symm
      exact ⟨k, hk⟩
    · rintro ⟨k, hk⟩
      have h := hview p
      rw [hk] at h
      obtain ⟨r, hr, -⟩ := Option.map_eq_some_iff.1 h
      exact ⟨r, productOf_mem hr⟩
    · have h := hview p
      rw [hone.productOf hr hp, hk] at h
      simpa [viewRow, viewProduct] using h

theorem catalogue_inv (lib : Lib) : (catalogue lib).Inductive CatalogueInv where
  init s h := by
    obtain ⟨hone, hsame⟩ := (inSync_iff s.world).1 h.sync
    refine ⟨hone, h.priced, fun e he => ?_, Mirror.tracked_of_same hsame ?_, fun _ p d hp => ?_⟩
    · rw [h.log] at he
      cases he
    · simp [Catalogue.mirror, h.delivered]
    · simp [Catalogue.mirror, h.log] at hp
  step _ _ _ h hs := h.step hs

/-- With every event delivered, the catalogue shows Stripe's products iff no
product of the account was dropped by the last delivery about it; none is if
no id is used again. -/
theorem products_mirrored (lib : Lib) (s : Catalogue) (h : (catalogue lib).Reachable s)
    (hall : ∀ e ∈ s.log, e.2 = true) :
    (InSync s.world ↔ ∀ p k, product? s.world.stripe p = some k → s.droppedLast p = false) ∧
    (s.NoReuse → InSync s.world) := by
  have hinv := (catalogue_inv lib).reachable s h
  have hallNotices : ∀ e ∈ s.mirror.log, e.2 = true := by
    intro e he
    obtain ⟨e', he', rfl⟩ := List.mem_map.1 he
    exact hall e' he'
  have hsync : InSync s.world ↔ s.mirror.copy = s.mirror.source := (inSync_iff s.world).trans (and_iff_right hinv.one)
  refine ⟨?_, fun hreuse => hsync.2 (hinv.tracked.settled (hinv.final hreuse) hallNotices)⟩
  rw [hsync, hinv.tracked.settled_iff hallNotices]
  refine forall_congr' fun p => ?_
  rw [droppedLast_mirror]
  constructor
  · exact fun hlast k hk => hlast (by simp [Catalogue.mirror, mirroredSource, hk])
  · intro hlast hsome
    obtain ⟨x, hx⟩ := Option.ne_none_iff_exists'.1 hsome
    obtain ⟨k, hk, -⟩ := Option.map_eq_some_iff.1 hx
    exact hlast k hk

/-! ## Late and repeated events -/

def plan (id name : String) : StripeProduct where
  id := id
  name := name
  description := none
  active := true
  prices := [⟨"price_1", some 500, "usd"⟩]

/-- The empty account, with no event yet. -/
def emptyCatalogue : Catalogue := ⟨{}, [], []⟩

theorem emptyCatalogue_start : CatalogueStart emptyCatalogue := by
  refine ⟨(inSync_iff _).2 ⟨fun _ => Nat.zero_le _, rfl⟩, fun k hk => ?_, rfl, rfl⟩
  cases hk

def catalogueAfter (ls : List CatalogueLabel) : Option Catalogue :=
  ls.foldlM (catalogueNext plainLib) emptyCatalogue

theorem catalogueAfter_reachable {ls : List CatalogueLabel} {s : Catalogue} (h : catalogueAfter ls = some s) :
    (catalogue plainLib).Reachable s :=
  ⟨_, ls, emptyCatalogue_start, LTS.ofFn_run_iff.2 h⟩

/-- Two products; the edit of the first arrives before its creation, and
both again after its deletion. -/
def lateEvents : List CatalogueLabel :=
  [.create (plan "prod_1" "basic"), .edit (plan "prod_1" "Basic"), .deliver 1, .create (plan "prod_2" "Plus"),
   .deliver 0, .delete "prod_1", .deliver 3, .deliver 0, .deliver 2, .deliver 1]

theorem late_events_mirrored :
    ∃ s, catalogueAfter lateEvents = some s ∧ (catalogue plainLib).Reachable s ∧ (∀ e ∈ s.log, e.2 = true) ∧
      s.NoReuse ∧ s.world.db.products.rows.map ProductRow.name = [some "Plus"] ∧ InSync s.world := by
  have hsome : (catalogueAfter lateEvents).isSome = true := by decide
  obtain ⟨s, hs⟩ := Option.isSome_iff_exists.1 hsome
  have hlog : ((catalogueAfter lateEvents).map fun s => s.log.all (·.2)) = some true := by decide
  have hids : ((catalogueAfter lateEvents).map fun s => decide s.NoReuse) = some true := by decide
  have hrows : ((catalogueAfter lateEvents).map fun s => s.world.db.products.rows.map ProductRow.name) =
      some [some "Plus"] := by decide
  rw [hs] at hlog hids hrows
  have hall : ∀ e ∈ s.log, e.2 = true := by simpa using hlog
  have hreuse : s.NoReuse := of_decide_eq_true (Option.some.inj hids)
  have hreach := catalogueAfter_reachable hs
  exact ⟨s, hs, hreach, hall, hreuse, Option.some.inj hrows, (products_mirrored plainLib s hreach hall).2 hreuse⟩

/-! ## An id that is used again -/

/-- `gold` is deleted and created again; its deletion is delivered last. -/
def reusedId : List CatalogueLabel :=
  [.create (plan "gold" "Gold"), .deliver 0, .delete "gold", .create (plan "gold" "Gold"), .deliver 2, .deliver 1]

/-- The product is there, its row is not. -/
theorem reused_id_lost :
    ∃ s, catalogueAfter reusedId = some s ∧ (catalogue plainLib).Reachable s ∧ (∀ e ∈ s.log, e.2 = true) ∧
      product? s.world.stripe "gold" = some (plan "gold" "Gold") ∧ s.world.db.products.rows = [] ∧
      ¬ InSync s.world := by
  have hsome : (catalogueAfter reusedId).isSome = true := by decide
  obtain ⟨s, hs⟩ := Option.isSome_iff_exists.1 hsome
  have hlog : ((catalogueAfter reusedId).map fun s => s.log.all (·.2)) = some true := by decide
  have hgold : ((catalogueAfter reusedId).map fun s => product? s.world.stripe "gold") =
      some (some (plan "gold" "Gold")) := by decide
  have hrows : ((catalogueAfter reusedId).map fun s => s.world.db.products.rows) = some [] := by decide
  rw [hs] at hlog hgold hrows
  have hall : ∀ e ∈ s.log, e.2 = true := by simpa using hlog
  have hempty : s.world.db.products.rows = [] := Option.some.inj hrows
  refine ⟨s, hs, catalogueAfter_reachable hs, hall, Option.some.inj hgold, hempty, fun hsync => ?_⟩
  obtain ⟨r, hr, -⟩ := (hsync.exists_iff "gold").2 ⟨_, Option.some.inj hgold⟩
  rw [hempty] at hr
  cases hr

end Insta.Web
