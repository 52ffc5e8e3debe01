import Insta.L3Service.Customer

/-!
# `SyncStripeProductService` and `StripeSubscriptionService`

Both services look a row up, assign the columns from what Stripe sent, and
save. The lookup and the save are separate definitions, so that deliveries
can be interleaved between them; `syncProductFromStripe` and
`syncSubscriptionFromStripe` are the serial composition.

`UPDATE` writes the columns that differ from the loaded record (`dirty`).

* `syncSubscription_of_target`: a subscription event with a known user and a
  known product does to the subscriptions table what `upsertSubscription`
  does, and nothing else.
* `syncSubscription_of_no_target`: any other leaves the state alone.
* `rows_upsertSubscription`: the row that is overwritten or appended.
* `redelivery_harmless`: an event that is delivered twice does what it does
  once, and that is at most to write one subscription of the customer's user.
-/
namespace Insta.Service

open Insta.Core Insta.Store Insta.Store.App Insta.Model

/-- The column after an `UPDATE` of a record loaded as `old`: `new` when it
was assigned a different value, else what the row holds by then. -/
def dirty {α : Type} [DecidableEq α] (old new cur : α) : α := if new = old then cur else new

@[simp] theorem dirty_loaded {α : Type} [DecidableEq α] (old new : α) : dirty old new old = new := by
  unfold dirty; split <;> simp_all

/-! ## Products -/

/-- A record before its attributes are assigned. -/
def newProduct (stripeProductId : String) : ProductRow where
  id := 0
  stripeProductId := some stripeProductId
  name := none
  description := none
  price := none
  currency := none
  active := none
  stripePriceId := none
  image := none

/-- `Product.find_by(stripe_product_id: p)`. -/
def productOf (db : Db) (p : String) : Option ProductRow :=
  db.products.first fun x => x.stripeProductId == some p

/-- The record with the columns assigned from Stripe. The price column is an
integer: `unit_amount.to_f / 100.0` loses its cents.
mirrors app/services/sync_stripe_product_service.rb:16-27 -/
def assignProduct (p : StripeProduct) (price : Price) (r : ProductRow) : ProductRow :=
  { r with
    name := some p.name
    description := p.description
    price := some ((price.unitAmount.getD 0).tdiv 100)
    currency := some price.currency
    active := some p.active
    stripePriceId := some price.id
    image := if p.images.isEmpty then r.image else p.images.head? }

def patchProduct (old new cur : ProductRow) : ProductRow :=
  { cur with
    name := dirty old.name new.name cur.name
    description := dirty old.description new.description cur.description
    price := dirty old.price new.price cur.price
    currency := dirty old.currency new.currency cur.currency
    active := dirty old.active new.active cur.active
    stripePriceId := dirty old.stripePriceId new.stripePriceId cur.stripePriceId
    image := dirty old.image new.image cur.image }

/-- `product.save!` of the record found, or of a new one. -/
def saveProduct (found : Option ProductRow) (p : StripeProduct) (price : Price) : App Unit := do
  let w ← Act.get
  match (match found with
    | none => w.db.products.insert (assignProduct p price (newProduct p.id))
    | some r => w.db.products.modify r.id (patchProduct r (assignProduct p price r))) with
  | none => Act.raise .recordNotUnique
  | some t => Act.modify fun w => { w with db := { w.db with products := t } }

/-- `URI.open` of the first image, if there is one. -/
def downloadImage (p : StripeProduct) : App Unit :=
  if p.images.isEmpty then pure () else external

/-- mirrors app/services/sync_stripe_product_service.rb:8-30 -/
def syncProductFromStripe (id : String) : App Unit := do
  let p ← productRetrieve id
  let prices ← priceList p
  let w ← Act.get
  match prices with
  | [] => Act.raise .noMethodError
  | price :: _ => do
    downloadImage p
    saveProduct (productOf w.db p.id) p price

/-! ## Subscriptions -/

/-- `user.subscriptions.find_or_initialize_by(...)` before the assignments. -/
def newSubscription (user : UserRow) (product : ProductRow) (o : StripeObject) : SubscriptionRow where
  id := 0
  userId := user.id
  stripeSubscriptionId := some o.id
  productId := product.id
  stripeCustomerId := none
  status := none
  active := none
  productName := none
  stripeProductId := none
  stripePriceId := none
  username := none

/-- The lookup of `find_or_initialize_by`: this user, this subscription, this
product.
mirrors app/services/stripe_subscription_service.rb:17-18 -/
def subscriptionKey (user product : Nat) (s : String) (r : SubscriptionRow) : Bool :=
  r.userId == user && r.stripeSubscriptionId == some s && r.productId == product

def subscriptionOf (db : Db) (user : UserRow) (product : ProductRow) (o : StripeObject) :
    Option SubscriptionRow :=
  db.subscriptions.first (subscriptionKey user.id product.id o.id)

/-- mirrors app/services/stripe_subscription_service.rb:19-28 -/
def assignSubscription (user : UserRow) (product : ProductRow) (o : StripeObject) (r : SubscriptionRow) :
    SubscriptionRow :=
  { r with
    productName := product.name
    productId := product.id
    stripeProductId := product.stripeProductId
    stripePriceId := product.stripePriceId
    username := user.username
    stripeCustomerId := user.stripeCustomerId
    status := some o.status
    active := some (o.status == "active") }

def patchSubscription (old new cur : SubscriptionRow) : SubscriptionRow :=
  { cur with
    productId := dirty old.productId new.productId cur.productId
    stripeCustomerId := dirty old.stripeCustomerId new.stripeCustomerId cur.stripeCustomerId
    status := dirty old.status new.status cur.status
    active := dirty old.active new.active cur.active
    productName := dirty old.productName new.productName cur.productName
    stripeProductId := dirty old.stripeProductId new.stripeProductId cur.stripeProductId
    stripePriceId := dirty old.stripePriceId new.stripePriceId cur.stripePriceId
    username := dirty old.username new.username cur.username }

/-- `subscription_record.save!`. A new record needs its product row
(`RecordInvalid`, which the service rescues) and its user row (a foreign
key); an existing one keeps both.
mirrors app/services/stripe_subscription_service.rb:31-35 -/
def saveSubscription (found : Option SubscriptionRow) (user : UserRow) (product : ProductRow)
    (o : StripeObject) : App Unit := do
  let w ← Act.get
  match found with
  | some r =>
    match w.db.subscriptions.modify r.id (patchSubscription r (assignSubscription user product o r)) with
    | none => Act.raise .recordNotUnique
    | some t => Act.modify fun w => { w with db := { w.db with subscriptions := t } }
  | none =>
    if (w.db.products.find product.id).isNone then pure ()
    else if (w.db.users.find user.id).isNone then Act.raise .invalidForeignKey
    else
      match w.db.subscriptions.insert (assignSubscription user product o (newSubscription user product o)) with
      | none => Act.raise .recordNotUnique
      | some t => Act.modify fun w => { w with db := { w.db with subscriptions := t } }

/-- mirrors app/services/stripe_subscription_service.rb:8-36 -/
def syncSubscriptionFromStripe (o : StripeObject) : App Unit := do
  let w ← Act.get
  match userOf w o.customer with
  | none => pure ()
  | some user =>
    match o.items with
    | none => Act.raise .noMethodError
    | some [] => Act.raise .noMethodError
    | some (p :: _) =>
      match productOf w.db p with
      | none => pure ()
      | some product => saveSubscription (subscriptionOf w.db user product o) user product o

/-! ## What a subscription event does -/

/-- The subscriptions table after the service saved the event `o`. -/
def upsertSubscription (t : Table SubscriptionRow) (user : UserRow) (product : ProductRow)
    (o : StripeObject) : Option (Table SubscriptionRow) :=
  match t.first (subscriptionKey user.id product.id o.id) with
  | some r => t.modify r.id (patchSubscription r (assignSubscription user product o r))
  | none => t.insert (assignSubscription user product o (newSubscription user product o))

/-- The event's user and product, when the service knows both. -/
def eventTarget (w : World) (o : StripeObject) : Option (UserRow × ProductRow) :=
  match userOf w o.customer, o.items with
  | some user, some (p :: _) => (productOf w.db p).map fun product => (user, product)
  | _, _ => none

def setSubscriptions (w : World) (t : Table SubscriptionRow) : World :=
  { w with db := { w.db with subscriptions := t } }

theorem patchSubscription_loaded (user : UserRow) (product : ProductRow) (o : StripeObject)
    (r : SubscriptionRow) :
    patchSubscription r (assignSubscription user product o r) r = assignSubscription user product o r := by
  simp [patchSubscription, assignSubscription]

theorem patchProduct_loaded (p : StripeProduct) (price : Price) (r : ProductRow) :
    patchProduct r (assignProduct p price r) r = assignProduct p price r := by
  simp [patchProduct, assignProduct]

theorem modify_subscriptions (t : Table SubscriptionRow) (i : Nat) (f : SubscriptionRow → SubscriptionRow) :
    ∃ t', t.modify i f = some t' :=
  Table.modify_eq_some_of fun _ _ _ _ _ _ => rfl

theorem productOf_mem {db : Db} {p : String} {x : ProductRow} (h : productOf db p = some x) :
    x ∈ db.products.rows ∧ x.stripeProductId = some p := by
  obtain ⟨hm, hp⟩ := Table.mem_of_first h
  exact ⟨hm, by simpa using hp⟩

/-! ### The save step on its own -/

theorem saveProduct_found (r : ProductRow) (p : StripeProduct) (price : Price) (w : World) :
    ∃ t, w.db.products.modify r.id (patchProduct r (assignProduct p price r)) = some t ∧
      (saveProduct (some r) p price).run w = (.ok (), { w with db := { w.db with products := t } }) := by
  obtain ⟨t, ht⟩ : ∃ t, w.db.products.modify r.id (patchProduct r (assignProduct p price r)) = some t :=
    Table.modify_eq_some_of fun _ _ _ _ _ _ => rfl
  refine ⟨t, ht, ?_⟩
  unfold saveProduct
  rw [Act.run_get_bind]
  dsimp only
  rw [ht]
  rfl

theorem saveProduct_new (p : StripeProduct) (price : Price) (w : World) :
    ∃ t, w.db.products.insert (assignProduct p price (newProduct p.id)) = some t ∧
      (saveProduct none p price).run w = (.ok (), { w with db := { w.db with products := t } }) := by
  obtain ⟨t, ht⟩ := insert_of_no_index (fun _ _ => rfl) w.db.products (assignProduct p price (newProduct p.id))
  refine ⟨t, ht, ?_⟩
  unfold saveProduct
  rw [Act.run_get_bind]
  dsimp only
  rw [ht]
  rfl

theorem saveSubscription_found (r : SubscriptionRow) (user : UserRow) (product : ProductRow) (o : StripeObject)
    (w : World) : ∃ t,
      w.db.subscriptions.modify r.id (patchSubscription r (assignSubscription user product o r)) = some t ∧
      ((saveSubscription (some r) user product o).run w).2 = setSubscriptions w t := by
  obtain ⟨t, ht⟩ := modify_subscriptions w.db.subscriptions r.id
    (patchSubscription r (assignSubscription user product o r))
  refine ⟨t, ht, ?_⟩
  unfold saveSubscription
  rw [Act.run_get_bind]
  dsimp only
  rw [ht]
  rfl

/-- A new record is stored unless its user or product is gone. -/
theorem saveSubscription_new (user : UserRow) (product : ProductRow) (o : StripeObject) (w : World) :
    ((saveSubscription none user product o).run w).2 = w ∨ ∃ t,
      w.db.subscriptions.insert (assignSubscription user product o (newSubscription user product o)) = some t ∧
      ((saveSubscription none user product o).run w).2 = setSubscriptions w t := by
  unfold saveSubscription
  rw [Act.run_get_bind]
  dsimp only
  split
  · exact .inl rfl
  · split
    · exact .inl rfl
    · split
      · exact .inl rfl
      · rename_i t ht
        exact .inr ⟨t, ht, rfl⟩

theorem upsertSubscription_isSome (t : Table SubscriptionRow) (user : UserRow) (product : ProductRow)
    (o : StripeObject) : ∃ t', upsertSubscription t user product o = some t' := by
  unfold upsertSubscription
  split
  · exact modify_subscriptions ..
  · exact insert_of_no_index (fun _ _ => rfl) ..

/-- The rows after the upsert: the first row with the key is overwritten, or
a new row is appended. -/
theorem rows_upsertSubscription {t t' : Table SubscriptionRow} {user : UserRow} {product : ProductRow}
    {o : StripeObject} (h : upsertSubscription t user product o = some t') :
    (∃ r, t.first (subscriptionKey user.id product.id o.id) = some r ∧
      t'.rows = t.rows.map fun x => if x.id = r.id then assignSubscription user product o x else x) ∨
    t.first (subscriptionKey user.id product.id o.id) = none ∧
      t'.rows = t.rows ++
        [{ assignSubscription user product o (newSubscription user product o) with id := t.nextId }] := by
  unfold upsertSubscription at h
  split at h
  · rename_i r hr
    left
    refine ⟨r, hr, (Table.rows_modify h).trans (List.map_congr_left fun x hx => ?_)⟩
    by_cases hid : x.id = r.id
    · have hxr : x = r := t.eq_of_rowId hx (Table.mem_of_first hr).1 hid
      subst hxr
      rw [if_pos (show rowId x = x.id from rfl), if_pos rfl, patchSubscription_loaded]
      rfl
    · rw [if_neg (show ¬ rowId x = r.id from hid), if_neg hid]
  · rename_i hn
    exact .inr ⟨hn, Table.rows_insert h⟩

/-- The event is for the user of its customer and the product of its first item. -/
theorem eventTarget_eq_some_iff {w : World} {o : StripeObject} {user : UserRow} {product : ProductRow} :
    eventTarget w o = some (user, product) ↔ ∃ p ps, userOf w o.customer = some user ∧
      o.items = some (p :: ps) ∧ productOf w.db p = some product := by
  constructor
  · intro h
    unfold eventTarget at h
    split at h
    · rename_i u p ps hu hi
      obtain ⟨x, hx, he⟩ := Option.map_eq_some_iff.1 h
      cases he
      exact ⟨p, ps, hu, hi, hx⟩
    · cases h
  · rintro ⟨p, ps, hu, hi, hx⟩
    simp only [eventTarget, hu, hi, hx, Option.map_some]

/-- With user and product known, the service is the lookup and the save. -/
theorem syncSubscription_eq {w : World} {o : StripeObject} {user : UserRow} {product : ProductRow}
    (h : eventTarget w o = some (user, product)) : (syncSubscriptionFromStripe o).run w =
      (saveSubscription (subscriptionOf w.db user product o) user product o).run w := by
  obtain ⟨p, ps, hu, hi, hx⟩ := eventTarget_eq_some_iff.1 h
  unfold syncSubscriptionFromStripe
  rw [Act.run_get_bind, hu, hi]
  simp only [hx]

theorem eventTarget_mem {w : World} {o : StripeObject} {user : UserRow} {product : ProductRow}
    (h : eventTarget w o = some (user, product)) : user ∈ w.db.users.rows ∧ product ∈ w.db.products.rows := by
  obtain ⟨p, ps, hu, -, hx⟩ := eventTarget_eq_some_iff.1 h
  exact ⟨(mem_of_userOf hu).1, (productOf_mem hx).1⟩

/-- A delivered subscription event upserts its row when the user and the
product are known. -/
theorem syncSubscription_of_target {w : World} {o : StripeObject} {user : UserRow} {product : ProductRow}
    (h : eventTarget w o = some (user, product)) :
    ∃ t, upsertSubscription w.db.subscriptions user product o = some t ∧
      (syncSubscriptionFromStripe o).run w = (.ok (), setSubscriptions w t) := by
  obtain ⟨t, ht⟩ := upsertSubscription_isSome w.db.subscriptions user product o
  obtain ⟨huser, hprod⟩ := eventTarget_mem h
  refine ⟨t, ht, ?_⟩
  rw [syncSubscription_eq h]
  unfold saveSubscription subscriptionOf
  unfold upsertSubscription at ht
  rw [Act.run_get_bind]
  split at ht
  · rename_i r hr
    simp only [ht]
    rfl
  · simp only [show w.db.products.find product.id = some product from Table.find_of_mem hprod,
      show w.db.users.find user.id = some user from Table.find_of_mem huser, ht]
    rfl

/-- Without a known user and product the event changes nothing. -/
theorem syncSubscription_of_no_target {w : World} {o : StripeObject} (h : eventTarget w o = none) :
    ((syncSubscriptionFromStripe o).run w).2 = w := by
  unfold syncSubscriptionFromStripe
  rw [Act.run_get_bind]
  unfold eventTarget at h
  split
  · rfl
  · rename_i user hu
    split
    · rfl
    · rfl
    · rename_i p ps hi
      rw [hu, hi] at h
      simp only [Option.map_eq_none_iff] at h
      rw [h]
      rfl

/-- Such an event is an error when the user is known and it has no item. -/
theorem syncSubscription_of_no_target_ok_iff {w : World} {o : StripeObject} (h : eventTarget w o = none) :
    ((syncSubscriptionFromStripe o).run w).1 = .ok () ↔
      userOf w o.customer = none ∨ ∃ p ps, o.items = some (p :: ps) := by
  unfold syncSubscriptionFromStripe
  rw [Act.run_get_bind]
  unfold eventTarget at h
  cases hu : userOf w o.customer with
  | none => simp
  | some user =>
    rcases hi : o.items with _ | _ | ⟨p, ps⟩
    · simp
    · simp
    · rw [hu, hi] at h
      simp only [Option.map_eq_none_iff] at h
      simp [h]

/-! ## Redelivery -/

/-- An object with at least one item. -/
def itemised (o : StripeObject) (p : String) (ps : List String) : StripeObject := { o with items := some (p :: ps) }

/-- One row of `user` was overwritten, or one was added; the others are as
they were. -/
def OneRowWritten (user : Nat) (rows rows' : List SubscriptionRow) : Prop :=
  (∃ r ∈ rows, ∃ r', r.userId = user ∧ r'.userId = user ∧ r'.id = r.id ∧
    rows' = rows.map fun x => if x.id = r.id then r' else x) ∨
  ∃ r', r'.userId = user ∧ (∀ x ∈ rows, x.id ≠ r'.id) ∧ rows' = rows ++ [r']

section Redelivery

variable {t t' : Table SubscriptionRow} {user : UserRow} {product : ProductRow} {o : StripeObject}

/-- What the service assigns is part of what it looks a row up by, and keeps
the row findable. -/
theorem subscriptionKey_assign {r : SubscriptionRow} (h : subscriptionKey user.id product.id o.id r = true) :
    subscriptionKey user.id product.id o.id (assignSubscription user product o r) = true := by
  simp only [subscriptionKey, Bool.and_eq_true, beq_iff_eq] at h ⊢
  exact ⟨h.1, rfl⟩

theorem oneRowWritten_of_upsert (h : upsertSubscription t user product o = some t') :
    OneRowWritten user.id t.rows t'.rows := by
  rcases rows_upsertSubscription h with ⟨r, hr, hrows⟩ | ⟨-, hrows⟩
  · obtain ⟨hrm, hkey⟩ := Table.mem_of_first hr
    simp only [subscriptionKey, Bool.and_eq_true, beq_iff_eq] at hkey
    refine .inl ⟨r, hrm, assignSubscription user product o r, hkey.1.1, hkey.1.1, rfl, ?_⟩
    rw [hrows]
    refine List.map_congr_left fun x hx => ?_
    by_cases hid : x.id = r.id
    · rw [if_pos hid, if_pos hid, t.eq_of_rowId hx hrm hid]
    · rw [if_neg hid, if_neg hid]
  · exact .inr ⟨_, rfl, fun x hx => (t.below x hx).ne, hrows⟩

/-- The lookup of a second run finds the row the first one wrote. -/
theorem first_upsertSubscription (h : upsertSubscription t user product o = some t') :
    ∃ r, t'.first (subscriptionKey user.id product.id o.id) = some r ∧ assignSubscription user product o r = r := by
  rcases rows_upsertSubscription h with ⟨r, hr, hrows⟩ | ⟨hn, hrows⟩
  · obtain ⟨hrm, hkey, hleast⟩ := Table.first_eq_some_iff.1 hr
    refine ⟨assignSubscription user product o r, Table.first_eq_some_iff.2 ⟨?_, subscriptionKey_assign hkey, ?_⟩, rfl⟩
    · rw [hrows]
      exact List.mem_map.2 ⟨r, hrm, if_pos rfl⟩
    · intro x hx hxkey
      rw [hrows] at hx
      obtain ⟨y, hy, rfl⟩ := List.mem_map.1 hx
      by_cases hid : y.id = r.id
      · rw [if_pos hid]
        exact hid.ge
      · rw [if_neg hid] at hxkey ⊢
        exact hleast y hy hxkey
  · refine ⟨{ assignSubscription user product o (newSubscription user product o) with id := t.nextId },
      Table.first_eq_some_iff.2 ⟨?_, ?_, fun x hx hxkey => ?_⟩, rfl⟩
    · rw [hrows]
      simp
    · simp [subscriptionKey, assignSubscription, newSubscription]
    · rw [hrows] at hx
      rcases List.mem_append.1 hx with hx | hx
      · cases hxkey.symm.trans (Table.first_eq_none_iff.1 hn x hx)
      · rw [List.mem_singleton.1 hx]

/-- So there is nothing left to assign. -/
theorem upsertSubscription_again (h : upsertSubscription t user product o = some t') :
    upsertSubscription t' user product o = some t' := by
  obtain ⟨r, hr, hsame⟩ := first_upsertSubscription h
  obtain ⟨t'', ht⟩ := modify_subscriptions t' r.id (patchSubscription r (assignSubscription user product o r))
  unfold upsertSubscription
  rw [hr]
  dsimp only
  rw [ht, Table.eq_of_modify_self ht fun x hx hid => ?_]
  rw [t'.eq_of_rowId hx (Table.mem_of_first hr).1 hid, patchSubscription_loaded, hsame]
  rfl

end Redelivery

theorem redelivery_harmless (w : World) (o : StripeObject) (p : String) (ps : List String) :
    ∃ w₁, (syncSubscriptionFromStripe (itemised o p ps)).run w = (.ok (), w₁) ∧
      (syncSubscriptionFromStripe (itemised o p ps)).run w₁ = (.ok (), w₁) ∧
      (w₁ = w ∨ ∃ user t, userOf w o.customer = some user ∧ w₁ = setSubscriptions w t ∧
        OneRowWritten user.id w.db.subscriptions.rows t.rows) := by
  cases ht : eventTarget w (itemised o p ps) with
  | none =>
    have hrun : (syncSubscriptionFromStripe (itemised o p ps)).run w = (.ok (), w) :=
      Prod.ext ((syncSubscription_of_no_target_ok_iff ht).2 (.inr ⟨p, ps, rfl⟩)) (syncSubscription_of_no_target ht)
    exact ⟨w, hrun, hrun, .inl rfl⟩
  | some target =>
    obtain ⟨user, product⟩ := target
    obtain ⟨t, hup, hrun⟩ := syncSubscription_of_target ht
    -- neither lookup reads the table that was written
    have htarget : eventTarget (setSubscriptions w t) (itemised o p ps) = some (user, product) := ht
    obtain ⟨t', hup', hrun'⟩ := syncSubscription_of_target htarget
    have hsame : t' = t := Option.some.inj (hup'.symm.trans (upsertSubscription_again hup))
    rw [hsame] at hrun'
    obtain ⟨_, _, huser, -, -⟩ := eventTarget_eq_some_iff.1 ht
    exact ⟨_, hrun, hrun', .inr ⟨user, t, huser, rfl, oneRowWritten_of_upsert hup⟩⟩

end Insta.Service
