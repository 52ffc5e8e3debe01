import Insta.Core.FindOrCreate
import Insta.L4App.System

/-!
# Overlapping deliveries about one Stripe object

Both sync services look a row up with `find_or_initialize_by` and save it
later, after more calls and for products after the download of an image. No
unique index and no validation stands behind the lookup. The two steps are
an instance of `FindOrCreate` (`product_serial`, `subscription_serial`:
without overlap they are the services).

* `one_row_per_object`: at most one row for the product, and for the
  subscription, in every run in which no delivery's lookup comes up empty
  while another is between its empty lookup and its save.
* `overlapping_deliveries_duplicate`: two deliveries that both look before
  either saves leave two rows.
-/
namespace Insta.Concurrency

open Insta.Core Insta.Store Insta.Store.App Insta.Model Insta.Service Insta.Web

/-! ## Products -/

/-- A delivery about the product `p`: what its calls to Stripe return, and
whether the image can be downloaded. -/
structure ProductDelivery (p : String) where
  product : StripeProduct
  price : Price
  imageLoads : Bool
  about : product.id = p

/-- mirrors app/services/sync_stripe_product_service.rb:15-29 -/
def productSync (p : String) : FindOrCreate World (ProductDelivery p) (Option ProductRow) where
  look w d := some (productOf w.db d.product.id)
  save w d found :=
    if d.product.images.isEmpty || d.imageLoads then ((saveProduct found d.product d.price).run w).2 else w
  fresh found := found.isNone

/-- The rows of product `p`. -/
def productRows (p : String) (w : World) : Nat := w.db.products.rows.countP fun x => x.stripeProductId == some p

theorem product_serial {p : String} {w : World} {d : ProductDelivery p} {rest : List Price}
    (hs : w.script = []) (hp : (productRetrieve p).run w = (.ok d.product, w))
    (hprices : d.product.prices = d.price :: rest) (himage : d.imageLoads = true) :
    [0, 0].foldlM (fire (productSync p).step) ⟨w, [.start d]⟩ =
      some ⟨((syncProductFromStripe p).run w).2, [.done]⟩ := by
  have hlist : (priceList d.product).run w = (.ok (d.price :: rest), w) := by
    unfold priceList
    rw [Act.bind_of_ok (external_of_nil hs), hprices]
    rfl
  have himg : (downloadImage d.product).run w = (.ok (), w) := by
    unfold downloadImage
    split
    · rfl
    · exact external_of_nil hs
  have hservice : (syncProductFromStripe p).run w =
      (saveProduct (productOf w.db d.product.id) d.product d.price).run w := by
    unfold syncProductFromStripe
    rw [Act.bind_of_ok hp, Act.bind_of_ok hlist, Act.run_get_bind]
    dsimp only
    rw [Act.bind_of_ok himg]
  rw [hservice]
  simp [fire, FindOrCreate.step, productSync, himage]

theorem productRows_save (p : String) (w : World) (d : ProductDelivery p) (found : Option ProductRow) :
    productRows p ((productSync p).save w d found) ≤ productRows p w + (found.isNone).toNat := by
  simp only [productSync]
  split
  · cases found with
    | none =>
      obtain ⟨t, ht, hrun⟩ := saveProduct_new d.product d.price w
      rw [hrun]
      exact Table.countP_insert_le _ ht
    | some r =>
      obtain ⟨t, ht, hrun⟩ := saveProduct_found r d.product d.price w
      rw [hrun]
      -- the update leaves the Stripe id alone
      exact Nat.le_of_eq (Table.countP_modify ht fun _ => rfl)
  · exact Nat.le_add_right _ _

theorem productSync_lawful (p : String) :
    (productSync p).Lawful (productRows p) (fun _ => True) (fun _ => True) where
  look_fresh := by
    intro w d l _ hl hf
    cases hl
    have hnone := Option.isNone_iff_eq_none.1 hf
    rw [d.about] at hnone
    exact List.countP_eq_zero.2 fun x hx => by simp [Table.first_eq_none_iff.1 hnone x hx]
  look_ok := fun _ _ _ _ _ => trivial
  save_keeps := fun _ _ _ _ _ => trivial
  save_found := by
    intro w d l _ _ hf
    have h := productRows_save p w d l
    rw [show l.isNone = false from hf] at h
    exact h
  save_new := by
    intro w d l _ _ hf
    have h := productRows_save p w d l
    rw [show l.isNone = true from hf] at h
    exact h

/-! ## Subscriptions -/

/-- The subscription: its id, its customer and its product at Stripe, with
the user and the product row these stand for. -/
structure SubObject where
  id : String
  customer : String
  product : String
  user : Nat
  productRow : Nat

/-- An event of that subscription on that product, with any status. -/
structure SubDelivery (s : SubObject) where
  object : StripeObject
  id : object.id = s.id
  customer : object.customer = s.customer
  product : object.items.bind List.head? = some s.product

/-- mirrors app/services/stripe_subscription_service.rb:9-35 -/
def subscriptionSync (s : SubObject) :
    FindOrCreate World (SubDelivery s) ((UserRow × ProductRow) × Option SubscriptionRow) where
  look w d := (eventTarget w d.object).map fun t => (t, subscriptionOf w.db t.1 t.2 d.object)
  save w d l := ((saveSubscription l.2 l.1.1 l.1.2 d.object).run w).2
  fresh l := l.2.isNone

/-- The rows of the subscription. -/
def subscriptionRows (s : SubObject) (w : World) : Nat :=
  w.db.subscriptions.rows.countP fun r => r.stripeSubscriptionId == some s.id

/-- The subscription's rows are those of its user and its product. -/
structure OnePlan (s : SubObject) (w : World) : Prop where
  user : ∀ x, userOf w s.customer = some x → x.id = s.user
  product : ∀ x, productOf w.db s.product = some x → x.id = s.productRow
  rows : ∀ r ∈ w.db.subscriptions.rows, r.stripeSubscriptionId = some s.id →
    r.userId = s.user ∧ r.productId = s.productRow

/-- What the lookup of an event loads. -/
structure Loaded (s : SubObject) (l : (UserRow × ProductRow) × Option SubscriptionRow) : Prop where
  user : l.1.1.id = s.user
  product : l.1.2.id = s.productRow
  row : ∀ r, l.2 = some r → r.productId = s.productRow

theorem subscription_serial {s : SubObject} {w : World} {d : SubDelivery s} {user : UserRow}
    {product : ProductRow} (h : eventTarget w d.object = some (user, product)) :
    [0, 0].foldlM (fire (subscriptionSync s).step) ⟨w, [.start d]⟩ =
      some ⟨((syncSubscriptionFromStripe d.object).run w).2, [.done]⟩ := by
  rw [syncSubscription_eq h]
  simp [fire, FindOrCreate.step, subscriptionSync, h]

theorem eventTarget_of_plan {s : SubObject} {w : World} {d : SubDelivery s} {user : UserRow}
    {product : ProductRow} (hI : OnePlan s w) (h : eventTarget w d.object = some (user, product)) :
    user.id = s.user ∧ product.id = s.productRow := by
  obtain ⟨p, ps, hu, hi, hx⟩ := eventTarget_eq_some_iff.1 h
  have hitems := d.product
  rw [hi] at hitems
  cases hitems
  exact ⟨hI.user _ (d.customer ▸ hu), hI.product _ hx⟩

/-- A save of what was loaded: user and product of every row are kept, and
an update adds no row. -/
theorem subscriptionSync_save {s : SubObject} {w : World} (d : SubDelivery s)
    {l : (UserRow × ProductRow) × Option SubscriptionRow} (hI : OnePlan s w) (hl : Loaded s l) :
    OnePlan s ((subscriptionSync s).save w d l) ∧
    subscriptionRows s ((subscriptionSync s).save w d l) ≤ subscriptionRows s w + l.2.isNone.toNat := by
  obtain ⟨⟨user, product⟩, found⟩ := l
  have huser : user.id = s.user := hl.user
  have hproduct : product.id = s.productRow := hl.product
  -- the other tables are left alone
  have hplan : ∀ t : Table SubscriptionRow, (∀ r ∈ t.rows, r.stripeSubscriptionId = some s.id →
      r.userId = s.user ∧ r.productId = s.productRow) → OnePlan s (setSubscriptions w t) :=
    fun t ht => ⟨hI.user, hI.product, ht⟩
  simp only [subscriptionSync]
  cases found with
  | none =>
    rcases saveSubscription_new user product d.object w with hrun | ⟨t, ht, hrun⟩
    · rw [hrun]
      exact ⟨hI, Nat.le_add_right _ _⟩
    · rw [hrun]
      refine ⟨hplan t fun r hr hs => ?_, ?_⟩
      · rcases (Table.mem_insert ht).1 hr with hr | rfl
        · exact hI.rows r hr hs
        · exact ⟨huser, hproduct⟩
      · exact Table.countP_insert_le _ ht
  | some f =>
    have hf : f.productId = product.id := (hl.row f rfl).trans hproduct.symm
    obtain ⟨t, ht, hrun⟩ := saveSubscription_found f user product d.object w
    rw [hrun]
    refine ⟨hplan t fun r hr hs => ?_, ?_⟩
    · rcases (Table.mem_modify ht).1 hr with ⟨hr, -⟩ | ⟨x, hx, -, rfl⟩
      · exact hI.rows r hr hs
      · have hx' := hI.rows x hx hs
        refine ⟨hx'.1, ?_⟩
        show dirty f.productId product.id x.productId = s.productRow
        unfold dirty
        rw [if_pos hf.symm]
        exact hx'.2
    · exact Nat.le_of_eq (Table.countP_modify ht fun _ => rfl)

theorem subscriptionSync_lawful (s : SubObject) :
    (subscriptionSync s).Lawful (subscriptionRows s) (OnePlan s) (Loaded s) where
  look_fresh := by
    intro w d l hI hl hf
    obtain ⟨⟨user, product⟩, ht, rfl⟩ := Option.map_eq_some_iff.1 hl
    obtain ⟨huser, hproduct⟩ := eventTarget_of_plan hI ht
    have hnone := Table.first_eq_none_iff.1 (Option.isNone_iff_eq_none.1 hf)
    refine List.countP_eq_zero.2 fun r hr hs => ?_
    have hs : r.stripeSubscriptionId = some s.id := by simpa using hs
    obtain ⟨hu, hp⟩ := hI.rows r hr hs
    have hkey := hnone r hr
    simp [subscriptionKey, hu, hp, hs, huser, hproduct, d.id] at hkey
  look_ok := by
    intro w d l hI hl
    obtain ⟨⟨user, product⟩, ht, rfl⟩ := Option.map_eq_some_iff.1 hl
    obtain ⟨huser, hproduct⟩ := eventTarget_of_plan hI ht
    refine ⟨huser, hproduct, fun r hr => ?_⟩
    have hkey := (Table.mem_of_first hr).2
    simp only [subscriptionKey, Bool.and_eq_true, beq_iff_eq] at hkey
    exact hkey.2.trans hproduct
  save_keeps := fun w d l hI hl => (subscriptionSync_save d hI hl).1
  save_found := by
    intro w d l hI hl hf
    have h := (subscriptionSync_save d hI hl).2
    rw [show l.2.isNone = false from hf] at h
    exact h
  save_new := by
    intro w d l hI hl hf
    have h := (subscriptionSync_save d hI hl).2
    rw [show l.2.isNone = true from hf] at h
    exact h

/-! ## One row -/

/-- Deliveries about one product. -/
def productSystem (p : String) : LTS (Sys World (Finder (ProductDelivery p) (Option ProductRow))) Nat :=
  (productSync p).system (productRows p) fun _ => True

/-- Deliveries about one subscription on one product. -/
def subscriptionSystem (s : SubObject) :
    LTS (Sys World (Finder (SubDelivery s) ((UserRow × ProductRow) × Option SubscriptionRow))) Nat :=
  (subscriptionSync s).system (subscriptionRows s) (OnePlan s)

/-- At most one row for the Stripe object, whatever number of deliveries
overlap in whatever way, as long as empty lookups exclude each other. -/
theorem one_row_per_object (p : String) (s : SubObject) :
    (∀ w, ((productSystem p).guard (productSync p).Exclusive).Reachable w → productRows p w.shared ≤ 1) ∧
    ∀ w, ((subscriptionSystem s).guard (subscriptionSync s).Exclusive).Reachable w →
      subscriptionRows s w.shared ≤ 1 := by
  constructor
  · intro w h
    exact FindOrCreate.at_most_one (productSync_lawful p) h
  · intro w h
    exact FindOrCreate.at_most_one (subscriptionSync_lawful s) h

/-! ## Two deliveries -/

def tenPosts : ProductDelivery "prod_10" :=
  ⟨⟨"prod_10", "#10 Posts", none, true, [], []⟩, ⟨"price_10", some 1000, "usd"⟩, true, rfl⟩

def productsAfter (is : List Nat) : Sys World (Finder (ProductDelivery "prod_10") (Option ProductRow)) :=
  (is.foldlM (fire (productSync "prod_10").step) ⟨shop, [.start tenPosts, .start tenPosts]⟩).getD ⟨shop, []⟩

theorem products_start : FindOrCreate.Start (productRows "prod_10") (fun _ => True) (productsAfter []) := by
  refine ⟨trivial, by decide, fun t ht => ⟨tenPosts, ?_⟩⟩
  rcases List.mem_cons.1 ht with rfl | ht
  · rfl
  · exact List.mem_singleton.1 ht

def aliceSub : SubObject := ⟨"sub_1", "cus_1", "prod_2", 1, 1⟩

def aliceActive : SubDelivery aliceSub :=
  ⟨{ id := "sub_1", customer := "cus_1", items := some ["prod_2"], status := "active" }, rfl, rfl, rfl⟩

def subscriptionsAfter (is : List Nat) :
    Sys World (Finder (SubDelivery aliceSub) ((UserRow × ProductRow) × Option SubscriptionRow)) :=
  (is.foldlM (fire (subscriptionSync aliceSub).step) ⟨shop, [.start aliceActive, .start aliceActive]⟩).getD
    ⟨shop, []⟩

theorem subscriptions_start :
    FindOrCreate.Start (subscriptionRows aliceSub) (OnePlan aliceSub) (subscriptionsAfter []) := by
  have huser : userOf shop "cus_1" = some aliceRow := by decide
  have hproduct : productOf shop.db "prod_2" = some (planRow 1 "prod_2" "#2 Posts") := by decide
  refine ⟨⟨fun x hx => ?_, fun x hx => ?_, fun r hr => ?_⟩, by decide, fun t ht => ⟨aliceActive, ?_⟩⟩
  · cases huser.symm.trans hx; rfl
  · cases hproduct.symm.trans hx; rfl
  · cases hr
  · rcases List.mem_cons.1 ht with rfl | ht
    · rfl
    · exact List.mem_singleton.1 ht

/-- One after the other, the second delivery finds the row of the first. -/
theorem serial_deliveries_one_row :
    (((productSystem "prod_10").guard (productSync "prod_10").Exclusive).Reachable (productsAfter [0, 0, 1, 1]) ∧
      productRows "prod_10" (productsAfter [0, 0, 1, 1]).shared ≤ 1) ∧
    ((subscriptionSystem aliceSub).guard (subscriptionSync aliceSub).Exclusive).Reachable
        (subscriptionsAfter [0, 0, 1, 1]) ∧
      subscriptionRows aliceSub (subscriptionsAfter [0, 0, 1, 1]).shared ≤ 1 := by
  have hp : ((productSystem "prod_10").guard (productSync "prod_10").Exclusive).Reachable
      (productsAfter [0, 0, 1, 1]) :=
    ⟨productsAfter [], [0, 0, 1, 1], products_start,
      .cons ⟨rfl, fun _ _ _ _ _ => rfl⟩ (.cons ⟨rfl, fun _ _ h => by cases h⟩
      (.cons ⟨rfl, fun _ _ _ _ _ => rfl⟩ (.cons ⟨rfl, fun _ _ h => by cases h⟩ (.nil _))))⟩
  have hs : ((subscriptionSystem aliceSub).guard (subscriptionSync aliceSub).Exclusive).Reachable
      (subscriptionsAfter [0, 0, 1, 1]) :=
    ⟨subscriptionsAfter [], [0, 0, 1, 1], subscriptions_start,
      .cons ⟨rfl, fun _ _ _ _ _ => rfl⟩ (.cons ⟨rfl, fun _ _ h => by cases h⟩
      (.cons ⟨rfl, fun _ _ _ _ _ => rfl⟩ (.cons ⟨rfl, fun _ _ h => by cases h⟩ (.nil _))))⟩
  have hone := one_row_per_object "prod_10" aliceSub
  exact ⟨⟨hp, hone.1 _ hp⟩, hs, hone.2 _ hs⟩

/-- Both look, then both save. -/
theorem overlapping_deliveries_duplicate :
    ((productSystem "prod_10").Reachable (productsAfter [0, 1, 0, 1]) ∧
      ¬ productRows "prod_10" (productsAfter [0, 1, 0, 1]).shared ≤ 1) ∧
    (subscriptionSystem aliceSub).Reachable (subscriptionsAfter [0, 1, 0, 1]) ∧
      ¬ subscriptionRows aliceSub (subscriptionsAfter [0, 1, 0, 1]).shared ≤ 1 :=
  ⟨⟨⟨productsAfter [], [0, 1, 0, 1], products_start, LTS.ofFn_run_iff.2 rfl⟩, by decide⟩,
    ⟨subscriptionsAfter [], [0, 1, 0, 1], subscriptions_start, LTS.ofFn_run_iff.2 rfl⟩, by decide⟩

end Insta.Concurrency
