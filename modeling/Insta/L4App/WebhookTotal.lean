import Insta.L4App.Effects
import Insta.L4App.ProductMirror

/-!
# Which events the webhook handler gets through

Ten event types reach three services and two `destroy`s. No call to Stripe
and no download fails here (`script` is empty): what is left to go wrong is
what the handler reads without a check.

`webhook_total_iff`: for an event of the documented shape (`Shaped`) the
handler returns, and every subscription row it writes carries the id of a
Stripe subscription, exactly when the event is `Deliverable`.

* A customer is imported unless it is gone from Stripe or another user has
  its name; the indexes on the users table refuse nothing else.
* A user is destroyed unless they have a second profile.
* A product is stored unless it is gone from Stripe or has no price.
* An invoice has no `items`, which is noticed only when its customer is a
  user.
-/
namespace Insta.Web

open Insta.Core Insta.Store Insta.Store.App Insta.Model Insta.Service

/-- The object of an event, as Stripe documents it: a subscription has an
item, an invoice has no `items`. -/
def Shaped (w : World) (e : Event) : Prop :=
  match e.type with
  | .subscriptionCreated | .subscriptionUpdated | .subscriptionDeleted =>
    (∃ k ∈ w.stripe.subscriptions, k.id = e.object.id) ∧ ∃ p ps, e.object.items = some (p :: ps)
  | .invoicePaymentSucceeded => e.object.items = none
  | _ => True

/-- The handler returned, and the subscription rows that were not there
before carry the id of a Stripe subscription. -/
def Handled (w : World) (run : Except Raise Unit × World) : Prop :=
  run.1 = .ok () ∧ ∀ s ∈ run.2.db.subscriptions.rows,
    s ∈ w.db.subscriptions.rows ∨ ∃ k ∈ w.stripe.subscriptions, s.stripeSubscriptionId = some k.id

/-- No user but the one linked to `k` has its name. -/
def NameFree (w : World) (k : Customer) : Prop :=
  k.name = none ∨ ∀ x ∈ w.db.users.rows, x.username = k.name → userOf w k.id = some x

def Deliverable (w : World) (e : Event) : Prop :=
  match e.type with
  | .customerCreated | .customerUpdated => ∃ k, Known w k ∧ k.id = e.object.id ∧ NameFree w k
  | .customerDeleted => ∀ v, userOf w e.object.id = some v →
    ∀ a ∈ w.db.profiles.rows, ∀ b ∈ w.db.profiles.rows, a.userId = v.id → b.userId = v.id → a = b
  | .productCreated | .productUpdated => ∃ k, product? w.stripe e.object.id = some k ∧ k.prices ≠ []
  | .invoicePaymentSucceeded => userOf w e.object.customer = none
  | _ => True

/-! ## The subscription rows an event writes -/

/-- The rows were there before, or an event about a subscription stored them
under the id of its object. -/
def WrittenFor (db : Db) (e : Event) (db' : Db) : Prop :=
  ∀ s ∈ db'.subscriptions.rows,
    s ∈ db.subscriptions.rows ∨ EventType.syncs e.type = true ∧ s.stripeSubscriptionId = some e.object.id

section Written

variable {db : Db} {e : Event}

theorem mem_upsert_id {t t' : Table SubscriptionRow} {user : UserRow} {product : ProductRow} {o : StripeObject}
    (h : upsertSubscription t user product o = some t') {s : SubscriptionRow} (hs : s ∈ t'.rows) :
    s ∈ t.rows ∨ s.stripeSubscriptionId = some o.id := by
  rcases rows_upsertSubscription h with ⟨r, hr, hrows⟩ | ⟨-, hrows⟩
  · rw [hrows] at hs
    obtain ⟨x, hx, rfl⟩ := List.mem_map.1 hs
    by_cases hid : x.id = r.id
    · obtain ⟨hrm, hkey⟩ := Table.mem_of_first hr
      simp only [subscriptionKey, Bool.and_eq_true, beq_iff_eq] at hkey
      rw [if_pos hid, t.eq_of_rowId hx hrm hid]
      exact .inr hkey.1.2
    · rw [if_neg hid]
      exact .inl hx
  · rw [hrows] at hs
    exact (List.mem_append.1 hs).imp_right fun h => by rw [List.mem_singleton.1 h]; rfl

theorem ContentWrite.writtenFor {w₀ : World} {db₁ db₂ : Db}
    (h : ContentWrite w₀ none (.webhooksStripe (some e)) db₁ db₂) (hI : WrittenFor db e db₁) :
    WrittenFor db e db₂ := by
  cases h with
  | subscribed hq hs _ _ ht =>
    cases hq
    exact fun s hs' => (mem_upsert_id ht hs').elim (hI s) fun hid => .inr ⟨hs, hid⟩
  | productDropped _ => exact fun s hs => hI s (Table.mem_delete.1 hs).1
  | cancelled hme _ _ _ => cases hme
  | liked hme _ => cases hme
  | _ => exact hI

theorem Effect.writtenFor {lib : Lib} {w₀ w w' : World} (h : Effect lib w₀ none (.webhooksStripe (some e)) w w')
    (hI : WrittenFor db e w.db) : WrittenFor db e w'.db := by
  rcases h.db_cases with ⟨t, hdb⟩ | ⟨r, -, -, -, hdb⟩ | hw
  · rw [hdb]
    exact hI
  · rw [hdb]
    intro s hs
    have hs' : s ∈ (destroyUserCascade w.db r.id).subscriptions.rows := hs
    rw [(destroyUserCascade_spec w.db r.id).subscriptions] at hs'
    exact hI s (Table.mem_delete.1 hs').1
  · exact hw.writtenFor hI

theorem webhooksStripe_writtenFor (lib : Lib) (w : World) (e : Event) :
    WrittenFor w.db e ((webhooksStripe lib (some e)).run w).2.db :=
  serve_keeps (I := fun x => WrittenFor w.db e x.db) (c := ⟨none, .webhooksStripe (some e), w.script⟩)
    (fun _ _ h => h.writtenFor) fun _ hs => .inl hs

end Written

/-- The rows written for a subscription carry its id, so the handler has to
return, and that is all. -/
theorem handled_iff (lib : Lib) (w : World) {e : Event}
    (hid : EventType.syncs e.type = true → ∃ k ∈ w.stripe.subscriptions, k.id = e.object.id) :
    Handled w ((webhooksStripe lib (some e)).run w) ↔ ((webhooksStripe lib (some e)).run w).1 = .ok () := by
  refine ⟨And.left, fun hok => ⟨hok, fun s hs => ?_⟩⟩
  refine (webhooksStripe_writtenFor lib w e s hs).imp_right fun ⟨hsync, hs⟩ => ?_
  obtain ⟨k, hk, hkid⟩ := hid hsync
  exact ⟨k, hk, hs.trans (congrArg some hkid.symm)⟩

/-! ## When the handlers return -/

section Handlers

variable {lib : Lib} {w : World}

theorem saveImport_ok_iff (hs : w.script = []) {k : Customer} (hk : Known w k) :
    ((saveImport lib (userOf w k.id) k).run w).1 = .ok () ↔ NameFree w k := by
  unfold NameFree
  cases hu : userOf w k.id with
  | some r =>
    have hr := mem_of_userOf hu
    have hfree := modify_importOver_iff lib (k := k) hr.1
    have hname : (k.name = none ∨ ∀ x ∈ w.db.users.rows, x.username = k.name → some r = some x) ↔
        (k.name = none ∨ ∀ x ∈ w.db.users.rows, x.id ≠ r.id → x.username ≠ k.name) := by
      refine or_congr_right (forall₂_congr fun x hx => ?_)
      constructor
      · exact fun h hid hname => hid (by rw [Option.some.inj (h hname)])
      · intro h hname
        by_contra hne
        exact h (fun hid => hne (congrArg some (w.db.users.eq_of_rowId hr.1 hx hid.symm))) hname
    rw [hname, ← hfree, saveImport_over hs hk hr.2]
    cases w.db.users.modify r.id (writtenColumns r (importOver lib w.db.users r k)).apply <;> simp
  | none =>
    have hfree : (∃ t, w.db.users.insert (importRow lib w k) = some t) ↔ _ := insert_importRow_iff
    have hname : (k.name = none ∨ ∀ x ∈ w.db.users.rows, x.username = k.name → none = some x) ↔
        (k.name = none ∨ ∀ x ∈ w.db.users.rows, x.username ≠ k.name) :=
      or_congr_right (forall₂_congr fun x _ => by simp)
    rw [hname, ← hfree]
    cases ht : w.db.users.insert (importRow lib w k) with
    | none => rw [saveImport_refused ht]; simp
    | some t =>
      obtain ⟨x, k', w', hrun, -⟩ := saveImport_new lib hs hk ht
      rw [hrun]
      simp

theorem getCustomer_ok_iff (hs : w.script = []) (c : String) :
    ((getCustomerFromStripe lib c).run w).1 = .ok () ↔ ∃ k, Known w k ∧ k.id = c ∧ NameFree w k := by
  by_cases hc : ∃ k, k.id = c ∧ Known w k
  · obtain ⟨k, rfl, hk⟩ := hc
    rw [getCustomer_of_known lib hs hk, saveImport_ok_iff hs hk]
    refine ⟨fun h => ⟨k, hk, rfl, h⟩, ?_⟩
    rintro ⟨k', hk', hid, h⟩
    rwa [← hk'.eq hk hid]
  · obtain ⟨e, he⟩ := getCustomer_of_unknown lib hs fun k hid hk => hc ⟨k, hid, hk⟩
    rw [he]
    simp only [reduceCtorEq, false_iff]
    rintro ⟨k, hk, hid, -⟩
    exact hc ⟨k, hid, hk⟩

theorem customerDeleted_ok_iff (hs : w.script = []) (o : StripeObject) :
    ((handleCustomer lib ⟨.customerDeleted, o⟩).run w).1 = .ok () ↔ Deliverable w ⟨.customerDeleted, o⟩ := by
  unfold handleCustomer Deliverable
  rw [Act.run_get_bind]
  cases hu : userOf w o.id with
  | none => simp
  | some v =>
    rw [destroyUser_ok_iff hs, referred_cascade_iff]
    simp

theorem syncProduct_ok_iff (hs : w.script = []) (p : String) :
    ((syncProductFromStripe p).run w).1 = .ok () ↔ ∃ k, product? w.stripe p = some k ∧ k.prices ≠ [] := by
  cases hk : product? w.stripe p with
  | none => rw [syncProduct_of_none hs hk]; simp
  | some k =>
    cases hprices : k.prices with
    | nil => rw [syncProduct_of_no_price hs hk hprices]; simp [hprices]
    | cons price prices =>
      rw [syncProduct_of_some hs hk hprices]
      have hsaved : ((saveProduct (productOf w.db k.id) k price).run w).1 = .ok () := by
        cases productOf w.db k.id with
        | none => obtain ⟨t, -, hrun⟩ := saveProduct_new k price w; rw [hrun]
        | some r => obtain ⟨t, -, hrun⟩ := saveProduct_found r k price w; rw [hrun]
      simp [hsaved, hprices]

theorem syncSubscription_ok_of_items {o : StripeObject} {p : String} {ps : List String}
    (hitems : o.items = some (p :: ps)) : ((syncSubscriptionFromStripe o).run w).1 = .ok () := by
  cases ht : eventTarget w o with
  | none => exact (syncSubscription_of_no_target_ok_iff ht).2 (.inr ⟨p, ps, hitems⟩)
  | some target =>
    obtain ⟨t, -, hrun⟩ := syncSubscription_of_target ht
    rw [hrun]

/-- An invoice stores nothing, whether the service notices or not. -/
theorem invoice_handled_iff {o : StripeObject} (hitems : o.items = none) :
    Handled w ((syncSubscriptionFromStripe o).run w) ↔ userOf w o.customer = none := by
  have hno : eventTarget w o = none := by
    refine Option.eq_none_iff_forall_ne_some.2 fun t ht => ?_
    obtain ⟨p, ps, -, hi, -⟩ := eventTarget_eq_some_iff.1 ht
    cases hitems.symm.trans hi
  have hok := syncSubscription_of_no_target_ok_iff hno
  simp only [hitems, reduceCtorEq, exists_false, or_false] at hok
  unfold Handled
  rw [hok, syncSubscription_of_no_target hno]
  exact and_iff_left fun s hs => .inl hs

end Handlers

theorem webhook_total_iff (lib : Lib) (w : World) (e : Event) (hs : w.script = []) (hshape : Shaped w e) :
    Handled w ((webhooksStripe lib (some e)).run w) ↔ Deliverable w e := by
  obtain ⟨type, o⟩ := e
  have hhandled := fun h => handled_iff lib w (e := ⟨type, o⟩) h
  cases type with
  | customerCreated | customerUpdated =>
    rw [hhandled (by simp [EventType.syncs]), webhooksStripe_of_imports lib rfl]
    exact getCustomer_ok_iff hs o.id
  | customerDeleted =>
    rw [hhandled (by simp [EventType.syncs]), webhooksStripe_of_customer lib (.inr (.inr rfl))]
    exact customerDeleted_ok_iff hs o
  | productCreated | productUpdated =>
    rw [hhandled (by simp [EventType.syncs]), webhooksStripe_of_product lib rfl]
    exact syncProduct_ok_iff hs o.id
  | productDeleted =>
    rw [hhandled (by simp [EventType.syncs]), webhooksStripe_of_product lib rfl]
    exact iff_of_true rfl trivial
  | subscriptionCreated | subscriptionUpdated =>
    obtain ⟨hid, p, ps, hitems⟩ := hshape
    rw [hhandled fun _ => hid, webhooksStripe_of_syncs lib rfl]
    exact iff_of_true (syncSubscription_ok_of_items hitems) trivial
  | subscriptionDeleted =>
    rw [hhandled (by simp [EventType.syncs]), webhooksStripe_of_subscriptionDeleted lib rfl]
    exact iff_of_true rfl trivial
  | invoicePaymentSucceeded =>
    rw [webhooksStripe_of_syncs lib rfl]
    exact invoice_handled_iff hshape
  | other =>
    rw [hhandled (by simp [EventType.syncs])]
    exact iff_of_true rfl trivial

/-! ## Alice subscribes and is billed -/

def aliceOnTwo : StripeSubscription := ⟨"sub_1", "cus_1", "active", "prod_2"⟩

def billed : World := { shop with stripe := { shop.stripe with subscriptions := [aliceOnTwo] } }

/-- The subscription is stored. -/
theorem subscription_handled :
    Shaped billed ⟨.subscriptionCreated, aliceOnTwo.snapshot⟩ ∧
    Handled billed ((webhooksStripe plainLib (some ⟨.subscriptionCreated, aliceOnTwo.snapshot⟩)).run billed) ∧
    (((webhooksStripe plainLib (some ⟨.subscriptionCreated, aliceOnTwo.snapshot⟩)).run billed).2.db.subscriptions.rows.map
      SubscriptionRow.stripeSubscriptionId) = [some "sub_1"] := by
  have hshape : Shaped billed ⟨.subscriptionCreated, aliceOnTwo.snapshot⟩ :=
    ⟨⟨aliceOnTwo, List.mem_singleton_self _, rfl⟩, "prod_2", [], rfl⟩
  exact ⟨hshape, (webhook_total_iff plainLib billed _ rfl hshape).2 trivial, by decide⟩

/-- The invoice for it raises, and so does a product that has no price
yet. -/
theorem invoice_raises :
    Shaped billed (invoicePaid "in_1" "cus_1") ∧
    ((webhooksStripe plainLib (some (invoicePaid "in_1" "cus_1"))).run billed).1 = .error .noMethodError ∧
    ((webhooksStripe plainLib (some ⟨.productCreated, { id := "prod_9" }⟩)).run
      { billed with stripe := putProduct billed.stripe ⟨"prod_9", "#9 Posts", none, true, [], []⟩ }).1 =
      .error .noMethodError :=
  ⟨rfl, by decide, by decide⟩

end Insta.Web
