import Insta.L4App.System

/-!
# One row for every Stripe subscription

Serial runs of subscription webhooks, product webhooks and cancellations by
users. The service looks a row up by user, subscription and product, so the
product, which Stripe may change, is part of the key.

`one_row_iff`: along a run the rows have distinct subscription ids and show
the product of the last event exactly when every subscription event finds
the rows of its subscription under its own user and product.
`plan_change_adds_row`: an update to another plan does not.
-/
namespace Insta.Web

open Insta.Core Insta.Store Insta.Store.App Insta.Model Insta.Service

/-! ## The system -/

/-- The world, and the subscription events delivered so far, newest first
(ghost). -/
structure Books where
  world : World
  delivered : List StripeSubscription := []

inductive RowsLabel
  | subscription (type : EventType) (k : StripeSubscription)
  | invoice (id customer : String)
  | product (type : EventType) (p : String) (script : List (Option Fault))
  | cancel (actor : Option Nat) (s : String) (script : List (Option Fault))
  | account (a : Stripe)

def rowsStep (lib : Lib) (b : Books) : RowsLabel → Option Books
  | .subscription type k =>
    if EventType.ofSubscription type then
      some ⟨serve lib b.world ⟨none, .webhooksStripe (some ⟨type, k.snapshot⟩), []⟩, k :: b.delivered⟩
    else none
  | .invoice id customer =>
    some { b with world := serve lib b.world ⟨none, .webhooksStripe (some (invoicePaid id customer)), []⟩ }
  | .product type p script =>
    if EventType.ofProduct type then
      some { b with world := serve lib b.world ⟨none, .webhooksStripe (some ⟨type, { id := p }⟩), script⟩ }
    else none
  | .cancel actor s script => some { b with world := serve lib b.world ⟨actor, .subscriptionsDestroy s, script⟩ }
  | .account a => some { b with world := { b.world with stripe := a } }

/-- The Stripe id of the product a row belongs to. -/
def rowProduct (db : Db) (r : SubscriptionRow) : Option String :=
  (db.products.find r.productId).bind ProductRow.stripeProductId

/-- No two rows share a subscription, and each shows the product of the
last event of its subscription. -/
structure OneRow (db : Db) (delivered : List StripeSubscription) : Prop where
  unique : ∀ r ∈ db.subscriptions.rows, ∀ r' ∈ db.subscriptions.rows, ∀ s,
    r.stripeSubscriptionId = some s → r'.stripeSubscriptionId = some s → r = r'
  product : ∀ r ∈ db.subscriptions.rows, ∀ k,
    (delivered.find? fun k => r.stripeSubscriptionId == some k.id) = some k →
      rowProduct db r = some k.product

/-- Distinct subscriptions, and no event delivered yet. -/
def RowsStart (b : Books) : Prop := b.delivered = [] ∧ OneRow b.world.db []

def rowsSystem (lib : Lib) : LTS Books RowsLabel := LTS.ofFn RowsStart (rowsStep lib)

/-- The rows of the event's subscription are those of its user and product;
where the event is not stored they show its product already. -/
def FindsRow (b : Books) : RowsLabel → Prop
  | .subscription type k => ∀ r ∈ b.world.db.subscriptions.rows, r.stripeSubscriptionId = some k.id →
    match storedFor b.world type k with
    | some (user, product) => r.userId = user.id ∧ r.productId = product.id
    | none => rowProduct b.world.db r = some k.product
  | _ => True

/-! ## Steps that do not deliver a subscription -/

/-- Every row was there, with its subscription and its product. -/
def sameLinks : Frame World where
  rel w w' := ∀ r' ∈ w'.db.subscriptions.rows, ∃ r ∈ w.db.subscriptions.rows, r.id = r'.id ∧
    r.stripeSubscriptionId = r'.stripeSubscriptionId ∧
    ∀ p, rowProduct w.db r = some p → rowProduct w'.db r' = some p
  refl w := fun r hr => ⟨r, hr, rfl, rfl, fun _ h => h⟩
  trans := by
    intro a b c hab hbc r'' hr''
    obtain ⟨r', hr', hid', hs', hp'⟩ := hbc r'' hr''
    obtain ⟨r, hr, hid, hs, hp⟩ := hab r' hr'
    exact ⟨r, hr, hid.trans hid', hs.trans hs', fun p h => hp' p (hp p h)⟩

theorem OneRow.of_sameLinks {w w' : World} {ds : List StripeSubscription} (h : OneRow w.db ds)
    (hw : sameLinks.rel w w') : OneRow w'.db ds := by
  constructor
  · intro r₁ hr₁ r₂ hr₂ s hs₁ hs₂
    obtain ⟨x₁, hx₁, hid₁, hl₁, -⟩ := hw r₁ hr₁
    obtain ⟨x₂, hx₂, hid₂, hl₂, -⟩ := hw r₂ hr₂
    have hx := h.unique x₁ hx₁ x₂ hx₂ s (hl₁.trans hs₁) (hl₂.trans hs₂)
    refine w'.db.subscriptions.eq_of_rowId hr₁ hr₂ ?_
    exact hid₁.symm.trans ((congrArg SubscriptionRow.id hx).trans hid₂)
  · intro r hr k hk
    obtain ⟨x, hx, -, hl, hp⟩ := hw r hr
    exact hp _ (h.product x hx k (by rw [hl]; exact hk))

theorem sameLinks_of_db {w w' : World} (h : w'.db = w.db) : sameLinks.rel w w' := by
  have hr := sameLinks.refl w
  unfold sameLinks at hr ⊢
  dsimp only at hr ⊢
  rw [h]
  exact hr

theorem stripeOnly.sameLinks {α : Type} {x : App α} {w : World} (h : stripeOnly.Holds x w) :
    sameLinks.Holds x w := by
  obtain ⟨st, sc, hw⟩ := h
  exact sameLinks_of_db (by rw [hw])

/-- A new products table in which every product kept its key and Stripe id. -/
theorem sameLinks_products {w : World} {t : Table ProductRow}
    (h : ∀ i x, w.db.products.find i = some x → ∃ x', t.find i = some x' ∧
      x'.stripeProductId = x.stripeProductId) :
    sameLinks.rel w { w with db := { w.db with products := t } } := by
  intro r hr
  refine ⟨r, hr, rfl, rfl, fun p hp => ?_⟩
  obtain ⟨x, hx, hxp⟩ := Option.bind_eq_some_iff.1 hp
  obtain ⟨x', hx', he⟩ := h _ _ hx
  exact Option.bind_eq_some_iff.2 ⟨x', hx', he.trans hxp⟩

theorem saveProduct_sameLinks (found : Option ProductRow) (p : StripeProduct) (price : Price) (w : World) :
    sameLinks.Holds (saveProduct found p price) w := by
  refine .get_bind ?_
  split
  · exact .raise _ _
  · rename_i t ht
    refine sameLinks_products fun i x hx => ?_
    cases found with
    | none => exact ⟨x, Table.find_insert_of_some ht hx, rfl⟩
    | some r =>
      dsimp only at ht
      by_cases hi : i = r.id
      · have hx' := Table.find_eq_some_iff.1 hx
        refine ⟨_, Table.find_eq_some_iff.2 ⟨(Table.mem_modify ht).2 (.inr ⟨x, hx'.1, hx'.2.trans hi, rfl⟩), ?_⟩, rfl⟩
        exact (Row.rowId_withId _ _).trans hi.symm
      · exact ⟨x, (Table.find_modify_of_ne ht hi).trans hx, rfl⟩

theorem syncProduct_sameLinks (p : String) (w : World) : sameLinks.Holds (syncProductFromStripe p) w := by
  refine (stripeOnly.sameLinks (productRetrieve_stripeOnly _ w)).bind fun p w₁ _ => ?_
  refine (stripeOnly.sameLinks (priceList_stripeOnly _ w₁)).bind fun prices w₂ _ => .get_bind ?_
  split
  · exact .raise _ _
  · refine Frame.Holds.bind ?_ fun _ w₃ _ => saveProduct_sameLinks _ p _ w₃
    exact .ite (fun _ => .pure _ _) fun _ => stripeOnly.sameLinks (external_stripeOnly w₂)

/-- A product goes with its rows. -/
theorem dropProduct_sameLinks (w : World) (p : String) :
    sameLinks.rel w { w with db := dropProduct w.db p } := by
  unfold dropProduct
  split
  · exact sameLinks.refl w
  · rename_i x _
    intro r hr
    obtain ⟨hr, hne⟩ := Table.mem_delete.1 hr
    refine ⟨r, hr, rfl, rfl, fun q hq => ?_⟩
    obtain ⟨y, hy, hyq⟩ := Option.bind_eq_some_iff.1 hq
    have hyi : y.id = r.productId := (Table.find_eq_some_iff.1 hy).2
    refine Option.bind_eq_some_iff.2 ⟨y, Table.find_delete_of_some hy ?_, hyq⟩
    rw [hyi]
    exact hne

theorem webhooksStripe_product_sameLinks (lib : Lib) {type : EventType} (h : EventType.ofProduct type = true)
    (p : String) (w : World) : sameLinks.Holds (webhooksStripe lib (some ⟨type, { id := p }⟩)) w := by
  refine Frame.Holds.bind ?_ fun _ w₁ _ => Frame.Holds.bind ?_ fun _ w₂ _ => ?_
  · cases type <;> first | exact .pure _ _ | cases h
  · cases type <;> first | exact syncProduct_sameLinks p w₁ | exact dropProduct_sameLinks w₁ p | cases h
  · cases type <;> first | exact .pure _ _ | cases h

theorem cancelRow_sameLinks (i : Nat) (w : World) : sameLinks.Holds (cancelRow i) w := by
  refine .get_bind ?_
  split
  · exact .raise _ _
  · rename_i t ht
    intro r' hr'
    rcases (Table.mem_modify ht).1 hr' with ⟨hr, -⟩ | ⟨r, hr, hid, rfl⟩
    · exact ⟨r', hr, rfl, rfl, fun _ h => h⟩
    · exact ⟨r, hr, hid, rfl, fun _ h => h⟩

theorem subscriptionsDestroy_sameLinks (actor : Option Nat) (s : String) (w : World) :
    sameLinks.Holds (subscriptionsDestroy actor s) w := by
  refine holds_authenticate fun me _ _ => .get_bind ?_
  split
  · exact .pure _ _
  · rename_i r _
    exact (stripeOnly.sameLinks (subscriptionCancel_stripeOnly s w)).bind fun _ w₁ _ => cancelRow_sameLinks r.id w₁

/-! ## The delivery of a subscription event -/

theorem serve_invoice (lib : Lib) (w : World) (id customer : String) :
    (serve lib w ⟨none, .webhooksStripe (some (invoicePaid id customer)), []⟩).db = w.db := by
  have hno : eventTarget { w with script := [] } (invoicePaid id customer).object = none := by
    refine Option.eq_none_iff_forall_ne_some.2 fun t ht => ?_
    obtain ⟨p, ps, -, hi, -⟩ := eventTarget_eq_some_iff.1 ht
    cases hi
  show ((webhooksStripe lib (some (invoicePaid id customer))).run { w with script := [] }).2.db = w.db
  rw [webhooksStripe_of_syncs lib (e := invoicePaid id customer) rfl, syncSubscription_of_no_target hno]

/-- The last event of a subscription other than the delivered one is the
same. -/
theorem find_delivered_of_ne {k : StripeSubscription} {ds : List StripeSubscription} {o : Option String}
    (h : o ≠ some k.id) :
    ((k :: ds).find? fun k => o == some k.id) = ds.find? fun k => o == some k.id := by
  simp [h]

theorem find_delivered_self {k : StripeSubscription} {ds : List StripeSubscription} {o : Option String}
    (h : o = some k.id) : ((k :: ds).find? fun k => o == some k.id) = some k := by
  simp [h]

/-- One more delivered event: the row of its subscription has to show its
product. -/
theorem oneRow_delivered_iff {db : Db} {ds : List StripeSubscription} (h : OneRow db ds)
    (k : StripeSubscription) : OneRow db (k :: ds) ↔ ∀ r ∈ db.subscriptions.rows,
      r.stripeSubscriptionId = some k.id → rowProduct db r = some k.product := by
  constructor
  · intro h' r hr hs
    exact h'.product r hr k (find_delivered_self hs)
  · intro hall
    refine ⟨h.unique, fun r hr k' hk' => ?_⟩
    by_cases hs : r.stripeSubscriptionId = some k.id
    · cases (find_delivered_self hs).symm.trans hk'
      exact hall r hr hs
    · rw [find_delivered_of_ne hs] at hk'
      exact h.product r hr k' hk'

/-- A row appended for an event has to be the first of its subscription. -/
theorem oneRow_append_iff {db : Db} {t : Table SubscriptionRow} {x : SubscriptionRow}
    {ds : List StripeSubscription} {k : StripeSubscription} (h : OneRow db ds)
    (hrows : t.rows = db.subscriptions.rows ++ [x]) (hid : x.id = db.subscriptions.nextId)
    (hs : x.stripeSubscriptionId = some k.id) (hp : rowProduct db x = some k.product) :
    OneRow { db with subscriptions := t } (k :: ds) ↔
      ∀ r ∈ db.subscriptions.rows, r.stripeSubscriptionId ≠ some k.id := by
  have hmem : ∀ r, r ∈ t.rows ↔ r ∈ db.subscriptions.rows ∨ r = x := by
    intro r
    rw [hrows, List.mem_append, List.mem_singleton]
  constructor
  · intro h' r hr hrs
    have heq : r = x := h'.unique r ((hmem r).2 (.inl hr)) x ((hmem x).2 (.inr rfl)) k.id hrs hs
    have hlt : r.id < db.subscriptions.nextId := db.subscriptions.below r hr
    rw [heq, hid] at hlt
    exact absurd hlt (Nat.lt_irrefl _)
  · intro hnot
    constructor
    · intro r₁ hr₁ r₂ hr₂ s hs₁ hs₂
      rcases (hmem r₁).1 hr₁ with hr₁ | rfl <;> rcases (hmem r₂).1 hr₂ with hr₂ | rfl
      · exact h.unique r₁ hr₁ r₂ hr₂ s hs₁ hs₂
      · cases hs.symm.trans hs₂
        exact absurd hs₁ (hnot r₁ hr₁)
      · cases hs.symm.trans hs₁
        exact absurd hs₂ (hnot r₂ hr₂)
      · rfl
    · intro r hr k' hk'
      rcases (hmem r).1 hr with hr | rfl
      · rw [find_delivered_of_ne (hnot r hr)] at hk'
        exact h.product r hr k' hk'
      · cases (find_delivered_self hs).symm.trans hk'
        exact hp

/-- Overwriting the row of the event's user and product keeps its product. -/
theorem sameLinks_overwrite {w w' : World} {t : Table SubscriptionRow} {user : UserRow} {product : ProductRow}
    {o : StripeObject} {r₀ : SubscriptionRow} (hr₀ : r₀ ∈ w.db.subscriptions.rows)
    (hp : r₀.productId = product.id)
    (hrows : t.rows = w.db.subscriptions.rows.map fun x =>
      if x.id = r₀.id then assignSubscription user product o x else x)
    (hdb : w'.db = { w.db with subscriptions := t }) : sameLinks.rel w w' := by
  intro r' hr'
  rw [hdb] at hr' ⊢
  dsimp only at hr'
  rw [hrows] at hr'
  obtain ⟨x, hx, rfl⟩ := List.mem_map.1 hr'
  refine ⟨x, hx, ?_⟩
  split
  · rename_i hid
    obtain rfl : x = r₀ := w.db.subscriptions.eq_of_rowId hx hr₀ hid
    refine ⟨rfl, rfl, fun q hq => ?_⟩
    unfold rowProduct at hq ⊢
    rw [hp] at hq
    exact hq
  · exact ⟨rfl, rfl, fun _ h => h⟩

/-- An event that is stored has to find the row of its subscription, if
there is one. -/
theorem oneRow_stored {w w' : World} {ds : List StripeSubscription} {k : StripeSubscription} {user : UserRow}
    {product : ProductRow} {t : Table SubscriptionRow} (h : OneRow w.db ds)
    (hprod : product ∈ w.db.products.rows) (hpid : product.stripeProductId = some k.product)
    (ht : upsertSubscription w.db.subscriptions user product k.snapshot = some t)
    (hdb : w'.db = { w.db with subscriptions := t }) :
    OneRow w'.db (k :: ds) ↔ ∀ r ∈ w.db.subscriptions.rows,
      r.stripeSubscriptionId = some k.id → r.userId = user.id ∧ r.productId = product.id := by
  have hshows : ∀ r : SubscriptionRow, r.productId = product.id → rowProduct w.db r = some k.product := by
    intro r hr
    unfold rowProduct
    rw [hr, show w.db.products.find product.id = some product from Table.find_of_mem hprod]
    exact hpid
  rcases rows_upsertSubscription ht with ⟨r₀, hr₀, hrows⟩ | ⟨hn, hrows⟩
  · obtain ⟨hmem₀, hkey⟩ := Table.mem_of_first hr₀
    simp only [subscriptionKey, Bool.and_eq_true, beq_iff_eq] at hkey
    obtain ⟨⟨huser₀, hs₀⟩, hprod₀⟩ := hkey
    -- the overwritten row is the only one of its subscription
    have honly : ∀ r ∈ w.db.subscriptions.rows, r.stripeSubscriptionId = some k.id → r = r₀ :=
      fun r hr hs => h.unique r hr r₀ hmem₀ k.id hs hs₀
    have hlinks := sameLinks_overwrite hmem₀ hprod₀ hrows hdb
    refine iff_of_true ((oneRow_delivered_iff (h.of_sameLinks hlinks) k).2 fun r hr hs => ?_) fun r hr hs => ?_
    · obtain ⟨x, hx, -, hxs, hxp⟩ := hlinks r hr
      refine hxp _ (hshows x ?_)
      rw [honly x hx (hxs.trans hs), hprod₀]
    · rw [honly r hr hs]
      exact ⟨huser₀, hprod₀⟩
  · have hnone := Table.first_eq_none_iff.1 hn
    rw [hdb, oneRow_append_iff h hrows rfl rfl (hshows _ rfl)]
    refine forall₂_congr fun r hr => ⟨fun hne hs => absurd hs hne, fun hkey hs => ?_⟩
    obtain ⟨hu, hp⟩ := hkey hs
    have hfalse := hnone r hr
    simp [subscriptionKey, hu, hp, hs, StripeSubscription.snapshot] at hfalse

/-! ## Runs -/

/-- One step keeps one row per subscription iff its event finds the row. -/
theorem oneRow_step_iff (lib : Lib) {b b' : Books} {l : RowsLabel} (h : OneRow b.world.db b.delivered)
    (hs : rowsStep lib b l = some b') : OneRow b'.world.db b'.delivered ↔ FindsRow b l := by
  cases l with
  | subscription type k =>
    simp only [rowsStep] at hs
    split at hs
    · rename_i hsub
      cases hs
      dsimp only [FindsRow]
      cases hst : storedFor b.world type k with
      | none =>
        rw [serve_not_stored lib hsub hst]
        exact oneRow_delivered_iff h k
      | some target =>
        obtain ⟨user, product⟩ := target
        obtain ⟨-, -, hprod, hpid⟩ := storedFor_some hst
        obtain ⟨t, ht, hdb⟩ := serve_stored lib hst
        exact oneRow_stored h hprod hpid ht hdb
    · cases hs
  | invoice id customer =>
    cases hs
    exact iff_of_true (h.of_sameLinks (sameLinks_of_db (serve_invoice lib b.world id customer))) trivial
  | product type p script =>
    simp only [rowsStep] at hs
    split at hs
    · rename_i hprod
      cases hs
      refine iff_of_true (h.of_sameLinks ?_) trivial
      exact webhooksStripe_product_sameLinks lib hprod p { b.world with script := script }
    · cases hs
  | cancel actor s script =>
    cases hs
    refine iff_of_true (h.of_sameLinks ?_) trivial
    exact subscriptionsDestroy_sameLinks actor s { b.world with script := script }
  | account a =>
    cases hs
    exact iff_of_true h trivial

/-- A run keeps one row per subscription, with the product of the last
event, iff every subscription event of the run finds the rows of its
subscription under its user and product. -/
theorem one_row_iff (lib : Lib) {b₀ : Books} (h₀ : RowsStart b₀) (ls : List RowsLabel) (b : Books) :
    (∀ a l a', (rowsSystem lib).StepOf b₀ ls b a l a' → OneRow a'.world.db a'.delivered) ↔
    (∀ a l a', (rowsSystem lib).StepOf b₀ ls b a l a' → FindsRow a l) :=
  LTS.run_keeps_iff (P := fun a : Books => OneRow a.world.db a.delivered)
    (fun _ _ _ h hs => oneRow_step_iff lib h hs) (by rw [h₀.1]; exact h₀.2) b

/-! ## A change of plan -/

/-- Subscription `sub_1` of alice, on the product `p`. -/
def aliceOn (p : String) : StripeSubscription := ⟨"sub_1", "cus_1", "active", p⟩

/-- The shop after the deliveries `ls`. -/
def booksAfter (ls : List RowsLabel) : Books := (ls.foldlM (rowsStep plainLib) ⟨shop, []⟩).getD ⟨shop, []⟩

def subscribes : List RowsLabel := [.subscription .subscriptionCreated (aliceOn "prod_2")]
def changesPlan : List RowsLabel := subscribes ++ [.subscription .subscriptionUpdated (aliceOn "prod_5")]

theorem shop_rowsStart : RowsStart ⟨shop, []⟩ := by
  refine ⟨rfl, ⟨fun r hr => ?_, fun r hr => ?_⟩⟩ <;> cases hr

/-- The second event finds the row of the first. -/
def lapses : List RowsLabel :=
  subscribes ++ [.subscription .subscriptionUpdated { aliceOn "prod_2" with status := "past_due" }]

theorem lapse_keeps_one_row : RowsStart ⟨shop, []⟩ ∧
    (rowsSystem plainLib).Run ⟨shop, []⟩ lapses (booksAfter lapses) ∧
    (booksAfter lapses).world.db.subscriptions.rows.map SubscriptionRow.status = [some "past_due"] ∧
    ∀ a l a', (rowsSystem plainLib).StepOf ⟨shop, []⟩ lapses (booksAfter lapses) a l a' →
      OneRow a'.world.db a'.delivered := by
  refine ⟨shop_rowsStart, .cons rfl (.cons rfl (.nil _)), by decide,
    (one_row_iff plainLib shop_rowsStart _ _).2 fun a l a' h => ?_⟩
  rcases h.of_cons with ⟨rfl, rfl⟩ | ⟨b₁, h₁, h⟩
  · exact fun r hr => by cases hr
  cases h₁
  rcases h.of_cons with ⟨rfl, rfl⟩ | ⟨b₂, -, l₁, l₂, hls, -⟩
  · intro r hr _
    rw [List.mem_singleton.1 hr]
    exact ⟨rfl, rfl⟩
  · simp at hls

/-- The subscription moves from one known plan to the other: the event adds
a second row. -/
theorem plan_change_adds_row : RowsStart ⟨shop, []⟩ ∧
    (rowsSystem plainLib).Run ⟨shop, []⟩ changesPlan (booksAfter changesPlan) ∧
    ¬ OneRow (booksAfter changesPlan).world.db (booksAfter changesPlan).delivered := by
  refine ⟨shop_rowsStart, .cons rfl (.cons rfl (.nil _)), fun h => ?_⟩
  exact absurd h.unique (by decide)

end Insta.Web
