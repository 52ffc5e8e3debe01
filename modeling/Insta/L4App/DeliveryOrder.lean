import Insta.Core.KeyedLog
import Insta.L4App.System

/-!
# The order in which subscription events arrive

Events of one user's subscriptions, each with the snapshot taken when Stripe
generated it, are delivered in some order. What a row of the user says about
access is its subscription, its product and whether it is active; on that
part the service is the upsert of `KeyedLog` (`entries_upsert`,
`entries_deliverEvents`), so the general result about orders applies.

`delivery_order_iff`: every order leads to the same active subscriptions and
the same current product, hence the same permissions, iff events about one
subscription and product that disagree find that pair active in a row they
do not overwrite, and the rows that some order makes the first active one
are all of one product.
-/
namespace Insta.Web

open Insta.Core Insta.Store Insta.Store.App Insta.Model Insta.Service

/-- `customer.subscription.created` or `.updated`, with its snapshot. -/
structure SubEvent where
  type : EventType
  sub : StripeSubscription
  stored : type = .subscriptionCreated ∨ type = .subscriptionUpdated

def deliverEvent (lib : Lib) (w : World) (e : SubEvent) : World :=
  serve lib w ⟨none, .webhooksStripe (some ⟨e.type, e.sub.snapshot⟩), []⟩

def deliverEvents (lib : Lib) (w : World) (es : List SubEvent) : World := es.foldl (deliverEvent lib) w

/-- The same active pairs of subscription and product, the same product of
`current_subscription`, and so the same permissions. -/
structure SameEntitlement (u : Nat) (db₁ db₂ : Db) : Prop where
  pairs : ∀ s p, (∃ r ∈ db₁.subscriptions.rows,
      r.userId = u ∧ r.stripeSubscriptionId = s ∧ r.productId = p ∧ r.active = some true) ↔
    ∃ r ∈ db₂.subscriptions.rows,
      r.userId = u ∧ r.stripeSubscriptionId = s ∧ r.productId = p ∧ r.active = some true
  current : (currentSubscription db₁ u).map SubscriptionRow.productId =
    (currentSubscription db₂ u).map SubscriptionRow.productId
  permission : ∀ x : UserRow, x.id = u → ∀ v s, allowed db₁ (some x) v s = allowed db₂ (some x) v s

/-! ## Rows as flags -/

/-- Subscription and product: the part of the service's key that varies. -/
abbrev PairKey := Option String × Nat

def entry (r : SubscriptionRow) : PairKey × Bool :=
  ((r.stripeSubscriptionId, r.productId), r.active == some true)

/-- The rows of user `u`, in key order. -/
def entries (rows : List SubscriptionRow) (u : Nat) : List (PairKey × Bool) :=
  (rows.filter fun r => r.userId == u).map entry

/-- What an event sets, if its product is known. -/
def eventEntry (db : Db) (e : SubEvent) : Option (PairKey × Bool) :=
  (productOf db e.sub.product).map fun p => ((some e.sub.id, p.id), e.sub.status == "active")

theorem entries_cons_self {r : SubscriptionRow} {u : Nat} (h : r.userId = u) (rows : List SubscriptionRow) :
    entries (r :: rows) u = entry r :: entries rows u := by
  simp [entries, h]

theorem entries_cons_of_ne {r : SubscriptionRow} {u : Nat} (h : r.userId ≠ u) (rows : List SubscriptionRow) :
    entries (r :: rows) u = entries rows u := by
  simp [entries, h]

theorem mem_entries {rows : List SubscriptionRow} {u : Nat} {k : PairKey} {b : Bool} :
    (k, b) ∈ entries rows u ↔ ∃ r ∈ rows, r.userId = u ∧
      (r.stripeSubscriptionId, r.productId) = k ∧ (r.active == some true) = b := by
  simp [entries, entry, and_assoc]

/-- The current subscription leads the entries. -/
theorem leader_entries (db : Db) (u : Nat) :
    KeyedLog.leader (entries db.subscriptions.rows u) =
      (currentSubscription db u).map fun r => (r.stripeSubscriptionId, r.productId) := by
  have hp : (fun r : SubscriptionRow => decide ((r.userId == u) = true ∧ (Prod.snd ∘ entry) r = true)) =
      fun r => r.userId == u && r.active == some true := by
    funext r
    rw [Bool.eq_iff_iff]
    simp [entry]
  unfold KeyedLog.leader entries currentSubscription Table.first
  rw [List.find?_map, List.find?_filter, Option.map_map, hp]
  rfl

theorem current_product (db : Db) (u : Nat) :
    (currentSubscription db u).map SubscriptionRow.productId =
      (KeyedLog.leader (entries db.subscriptions.rows u)).map Prod.snd := by
  rw [leader_entries, Option.map_map]
  rfl

/-! ## The service is an upsert -/

theorem entry_key {user : UserRow} {product : ProductRow} {o : StripeObject} {r : SubscriptionRow}
    (h : r.userId = user.id) :
    (entry r).1 = (some o.id, product.id) ↔ subscriptionKey user.id product.id o.id r = true := by
  simp [entry, subscriptionKey, h]

/-- Overwriting the first row with the key. -/
theorem entries_overwrite {rows : List SubscriptionRow} {user : UserRow} {product : ProductRow}
    {o : StripeObject} {r : SubscriptionRow} (hids : rows.Pairwise fun a b => a.id < b.id)
    (hr : rows.find? (subscriptionKey user.id product.id o.id) = some r) :
    entries (rows.map fun x => if x.id = r.id then assignSubscription user product o x else x) user.id =
      KeyedLog.upsert (entries rows user.id) ((some o.id, product.id), o.status == "active") := by
  induction rows with
  | nil => cases hr
  | cons x xs ih =>
    obtain ⟨hx, hxs⟩ := List.pairwise_cons.1 hids
    rw [List.find?_cons] at hr
    rw [List.map_cons]
    cases hkey : subscriptionKey user.id product.id o.id x with
    | true =>
      rw [hkey] at hr
      obtain rfl : x = r := Option.some.inj hr
      have hk := hkey
      simp only [subscriptionKey, Bool.and_eq_true, beq_iff_eq] at hk
      -- the rows behind it have other ids
      have hrest : xs.map (fun y => if y.id = x.id then assignSubscription user product o y else y) = xs := by
        conv_rhs => rw [← List.map_id xs]
        exact List.map_congr_left fun y hy => if_neg (Nat.ne_of_gt (hx y hy))
      rw [if_pos rfl, hrest, entries_cons_self hk.1.1,
        entries_cons_self (r := assignSubscription user product o x) hk.1.1]
      have hmatch : (entry x).1 = (some o.id, product.id) := (entry_key hk.1.1).2 hkey
      simp only [KeyedLog.upsert, if_pos hmatch]
      simp [entry, assignSubscription, hk.1.2]
    | false =>
      rw [hkey] at hr
      have hne : x.id ≠ r.id := Nat.ne_of_lt (hx r (List.mem_of_find?_eq_some hr))
      rw [if_neg hne]
      by_cases hu : x.userId = user.id
      · have hmiss : (entry x).1 ≠ (some o.id, product.id) := by
          rw [ne_eq, entry_key hu, hkey]
          exact Bool.false_ne_true
        rw [entries_cons_self hu, entries_cons_self hu, ih hxs hr]
        simp only [KeyedLog.upsert, if_neg hmiss]
      · rw [entries_cons_of_ne hu, entries_cons_of_ne hu]
        exact ih hxs hr

theorem entries_upsert {t t' : Table SubscriptionRow} {user : UserRow} {product : ProductRow}
    {o : StripeObject} (h : upsertSubscription t user product o = some t') :
    entries t'.rows user.id =
      KeyedLog.upsert (entries t.rows user.id) ((some o.id, product.id), o.status == "active") := by
  rcases rows_upsertSubscription h with ⟨r, hr, hrows⟩ | ⟨hn, hrows⟩
  · rw [hrows]
    exact entries_overwrite t.sorted hr
  · rw [hrows]
    have hnew : ∀ x ∈ entries t.rows user.id, x.1 ≠ (some o.id, product.id) := by
      intro x hx he
      obtain ⟨r, hr, rfl⟩ := List.mem_map.1 hx
      obtain ⟨hr, hu⟩ := List.mem_filter.1 hr
      have hkey := Table.first_eq_none_iff.1 hn r hr
      rw [(entry_key (by simpa using hu)).1 he] at hkey
      cases hkey
    rw [KeyedLog.upsert_of_new hnew]
    simp [entries, entry, assignSubscription, newSubscription]

/-! ## Runs -/

section Deliveries

variable (lib : Lib) {w : World} {c : String} {user : UserRow}

/-- The event's user and product. -/
theorem storedFor_subEvent (hu : userOf w c = some user) {e : SubEvent} (hc : e.sub.customer = c) :
    storedFor w e.type e.sub = (productOf w.db e.sub.product).map fun p => (user, p) := by
  have hs : EventType.syncs e.type = true := by rcases e.stored with h | h <;> rw [h] <;> rfl
  unfold storedFor eventTarget
  rw [if_pos hs]
  simp only [StripeSubscription.snapshot, hc, hu]

/-- A delivery touches the subscriptions only, and there it is an upsert. -/
theorem deliverEvent_entries (hu : userOf w c = some user) {e : SubEvent} (hc : e.sub.customer = c) :
    ∃ t, (deliverEvent lib w e).db = { w.db with subscriptions := t } ∧
      entries t.rows user.id = (eventEntry w.db e).elim (entries w.db.subscriptions.rows user.id)
        (KeyedLog.upsert (entries w.db.subscriptions.rows user.id)) := by
  have hstored := storedFor_subEvent hu hc
  unfold eventEntry
  cases hp : productOf w.db e.sub.product with
  | none =>
    rw [hp] at hstored
    have hsub : EventType.ofSubscription e.type = true := by rcases e.stored with h | h <;> rw [h] <;> rfl
    exact ⟨w.db.subscriptions, serve_not_stored lib hsub hstored, rfl⟩
  | some p =>
    rw [hp] at hstored
    obtain ⟨t, ht, hdb⟩ := serve_stored lib hstored
    exact ⟨t, hdb, entries_upsert ht⟩

theorem deliverEvents_entries (hu : userOf w c = some user) (es : List SubEvent)
    (hes : ∀ e ∈ es, e.sub.customer = c) :
    ∃ t, (deliverEvents lib w es).db = { w.db with subscriptions := t } ∧
      entries t.rows user.id =
        KeyedLog.replay (entries w.db.subscriptions.rows user.id) (es.filterMap (eventEntry w.db)) := by
  induction es generalizing w with
  | nil => exact ⟨w.db.subscriptions, rfl, rfl⟩
  | cons e es ih =>
    obtain ⟨t₁, hdb₁, hent₁⟩ := deliverEvent_entries lib hu (hes e List.mem_cons_self)
    have hu₁ : userOf (deliverEvent lib w e) c = some user := by
      unfold userOf findUserBy at hu ⊢
      rw [hdb₁]
      exact hu
    have hevent : eventEntry (deliverEvent lib w e).db = eventEntry w.db := by
      funext x
      unfold eventEntry productOf
      rw [hdb₁]
    obtain ⟨t, hdb, hent⟩ := ih hu₁ fun x hx => hes x (List.mem_cons_of_mem _ hx)
    refine ⟨t, hdb.trans (by rw [hdb₁]), hent.trans ?_⟩
    have hrows : (deliverEvent lib w e).db.subscriptions = t₁ := by rw [hdb₁]
    rw [hevent, hrows, hent₁]
    cases he : eventEntry w.db e with
    | none => rw [List.filterMap_cons_none he]; rfl
    | some x => rw [List.filterMap_cons_some he]; rfl

end Deliveries

theorem sameEntitlement_iff {db db₁ db₂ : Db} {u : Nat} {t₁ t₂ : Table SubscriptionRow}
    (h₁ : db₁ = { db with subscriptions := t₁ }) (h₂ : db₂ = { db with subscriptions := t₂ }) :
    SameEntitlement u db₁ db₂ ↔
      (∀ k, (k, true) ∈ entries t₁.rows u ↔ (k, true) ∈ entries t₂.rows u) ∧
      (KeyedLog.leader (entries t₁.rows u)).map Prod.snd = (KeyedLog.leader (entries t₂.rows u)).map Prod.snd := by
  subst h₁ h₂
  have hpair : ∀ (t : Table SubscriptionRow) s p, ((s, p), true) ∈ entries t.rows u ↔ ∃ r ∈ t.rows,
      r.userId = u ∧ r.stripeSubscriptionId = s ∧ r.productId = p ∧ r.active = some true := by
    intro t s p
    rw [mem_entries]
    simp [and_assoc]
  constructor
  · intro h
    refine ⟨fun ⟨s, p⟩ => by rw [hpair, hpair]; exact h.pairs s p, ?_⟩
    have hc := h.current
    rwa [current_product, current_product] at hc
  · rintro ⟨hp, hl⟩
    have hcurrent : (currentSubscription { db with subscriptions := t₁ } u).map SubscriptionRow.productId =
        (currentSubscription { db with subscriptions := t₂ } u).map SubscriptionRow.productId := by
      rw [current_product, current_product]
      exact hl
    refine ⟨fun s p => ?_, hcurrent, ?_⟩
    · have := hp (s, p)
      rwa [hpair, hpair] at this
    · rintro x rfl v s
      refine allowed_congr ?_ ?_ hcurrent v s <;> rfl

/-- Every order of delivery leads to the same entitlement iff events that
disagree about a subscription and product do not decide whether the pair is
active, and the rows that can come first are of one product. -/
theorem delivery_order_iff (lib : Lib) (w : World) {c : String} {user : UserRow} (hu : userOf w c = some user)
    (es : List SubEvent) (hes : ∀ e ∈ es, e.sub.customer = c) :
    (∀ es₁ es₂ : List SubEvent, es₁.Perm es → es₂.Perm es →
      SameEntitlement user.id (deliverEvents lib w es₁).db (deliverEvents lib w es₂).db) ↔
    KeyedLog.Settled (entries w.db.subscriptions.rows user.id) (es.filterMap (eventEntry w.db)) ∧
    ∀ k ∈ KeyedLog.leaders (entries w.db.subscriptions.rows user.id) (es.filterMap (eventEntry w.db)),
    ∀ k' ∈ KeyedLog.leaders (entries w.db.subscriptions.rows user.id) (es.filterMap (eventEntry w.db)),
      k.2 = k'.2 := by
  rw [← KeyedLog.order_free_iff Prod.snd]
  have hrun : ∀ es' : List SubEvent, es'.Perm es → ∃ t,
      (deliverEvents lib w es').db = { w.db with subscriptions := t } ∧ entries t.rows user.id =
        KeyedLog.replay (entries w.db.subscriptions.rows user.id) (es'.filterMap (eventEntry w.db)) :=
    fun es' hp => deliverEvents_entries lib hu es' fun e he => hes e (hp.subset he)
  constructor
  · intro h l₁ l₂ hl₁ hl₂
    obtain ⟨es₁, hp₁, rfl⟩ := KeyedLog.exists_perm_filterMap hl₁.symm es rfl
    obtain ⟨es₂, hp₂, rfl⟩ := KeyedLog.exists_perm_filterMap hl₂.symm es rfl
    obtain ⟨t₁, hdb₁, hent₁⟩ := hrun es₁ hp₁
    obtain ⟨t₂, hdb₂, hent₂⟩ := hrun es₂ hp₂
    rw [← hent₁, ← hent₂]
    exact (sameEntitlement_iff hdb₁ hdb₂).1 (h es₁ es₂ hp₁ hp₂)
  · intro h es₁ es₂ hp₁ hp₂
    obtain ⟨t₁, hdb₁, hent₁⟩ := hrun es₁ hp₁
    obtain ⟨t₂, hdb₂, hent₂⟩ := hrun es₂ hp₂
    refine (sameEntitlement_iff hdb₁ hdb₂).2 ?_
    rw [hent₁, hent₂]
    exact h _ _ (hp₁.filterMap _) (hp₂.filterMap _)

/-! ## Two events -/

/-- An event of alice's subscription `sub_1` to the plan `prod_2`. -/
def aliceEvent (status : String) : SubEvent :=
  ⟨.subscriptionUpdated, ⟨"sub_1", "cus_1", status, "prod_2"⟩, .inr rfl⟩

/-- A second subscription to the same plan. -/
def secondSubscription : SubEvent := ⟨.subscriptionCreated, ⟨"sub_2", "cus_1", "active", "prod_2"⟩, .inl rfl⟩

/-- The two orders store the rows in two orders; the product is the same. -/
theorem one_plan_order_free :
    userOf shop "cus_1" = some aliceRow ∧
    (deliverEvents plainLib shop [aliceEvent "active", secondSubscription]).db ≠
      (deliverEvents plainLib shop [secondSubscription, aliceEvent "active"]).db ∧
    ∀ es₁ es₂ : List SubEvent, es₁.Perm [aliceEvent "active", secondSubscription] →
      es₂.Perm [aliceEvent "active", secondSubscription] →
      SameEntitlement 1 (deliverEvents plainLib shop es₁).db (deliverEvents plainLib shop es₂).db := by
  have hu : userOf shop "cus_1" = some aliceRow := by decide
  refine ⟨hu, by decide, (delivery_order_iff plainLib shop hu _ ?_).2 ⟨by decide, by decide⟩⟩
  intro e he
  rcases List.mem_cons.1 he with rfl | he
  · rfl
  · rw [List.mem_singleton.1 he]
    rfl

/-- The subscription goes active and past due: the event that arrives last
decides. -/
theorem last_event_decides :
    userOf shop "cus_1" = some aliceRow ∧
    ¬ SameEntitlement 1 (deliverEvents plainLib shop [aliceEvent "active", aliceEvent "past_due"]).db
      (deliverEvents plainLib shop [aliceEvent "past_due", aliceEvent "active"]).db := by
  refine ⟨by decide, fun h => ?_⟩
  exact absurd h.current (by decide)

end Insta.Web
