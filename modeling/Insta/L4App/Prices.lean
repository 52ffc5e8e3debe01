import Insta.L4App.ProductMirror

/-!
# The price shown and the price charged

`SyncStripeProductService` stores the first price of a product twice over:
its id, which `subscriptions#create` passes to the checkout, and its amount,
which the plans page shows. The amount goes through `unit_amount / 100` into
an integer column.

Products and prices may change at Stripe in any way between two deliveries,
so each delivery comes with the account it reads (`PriceLabel`). A price
keeps its amount: `amount` gives it, in cents, by the price's id.

* `prices_step`: a delivery keeps the two in agreement exactly when the
  amount it stores, if any, is in whole dollars.
* `prices_agree_iff`: so does a run of deliveries, when every one does.
-/
namespace Insta.Web

open Insta.Core Insta.Store Insta.Store.App Insta.Model Insta.Service

/-! ## The two readers of a product row -/

/-- What `$<%= product.price %>` shows.
mirrors app/views/subscriptions/index.html.erb:25 -/
def displayedPrice (r : ProductRow) : Option Int := r.price

/-- The price the checkout session of product `p` is opened with.
mirrors app/controllers/subscriptions_controller.rb:9-18 -/
def checkoutPrice (db : Db) (p : String) : Option String := (productOf db p).bind ProductRow.stripePriceId

/-- For every row of the page: what it shows, in cents, is the amount of the
price it is checked out with. -/
def PricesAgree (amount : String → Nat) (db : Db) : Prop :=
  ∀ r ∈ db.products.rows, ∃ p c n, r.stripeProductId = some p ∧ checkoutPrice db p = some c ∧
    displayedPrice r = some n ∧ n * 100 = amount c

/-! ## Deliveries -/

/-- Every price of the account has its amount. -/
def Priced (amount : String → Nat) (a : Stripe) : Prop :=
  ∀ k ∈ a.products, ∀ c ∈ k.prices, c.unitAmount = some (amount c.id : Int)

instance (amount : String → Nat) (a : Stripe) : Decidable (Priced amount a) :=
  inferInstanceAs (Decidable (∀ k ∈ a.products, ∀ c ∈ k.prices, c.unitAmount = some (amount c.id : Int)))

/-- The delivery of a product event, the account at that time, and which of
the calls fail. -/
structure PriceLabel where
  type : EventType
  product : String
  account : Stripe
  script : List (Option Fault) := []

def PriceLabel.world (w : World) (l : PriceLabel) : World := { w with stripe := l.account, script := l.script }

def priceStep (lib : Lib) (amount : String → Nat) (w : World) (l : PriceLabel) : Option World :=
  if EventType.ofProduct l.type = true ∧ Priced amount l.account then
    some ((webhooksStripe lib (some ⟨l.type, { id := l.product }⟩)).run (l.world w)).2
  else none

def NoProducts (w : World) : Prop := w.db.products.rows = []

def priceSystem (lib : Lib) (amount : String → Nat) : LTS World PriceLabel :=
  LTS.ofFn NoProducts (priceStep lib amount)

/-- The next `n` external calls succeed. -/
def callsPass (script : List (Option Fault)) (n : Nat) : Bool := (script.take n).all Option.isNone

/-- What a sync stores: the product and its first price. It makes two calls,
and a third for the first image. -/
def storedPrice (a : Stripe) (p : String) (script : List (Option Fault)) : Option (StripeProduct × Price) :=
  match product? a p with
  | none => none
  | some k =>
    match k.prices with
    | [] => none
    | c :: _ => if callsPass script (if k.images.isEmpty then 2 else 3) then some (k, c) else none

/-- The amount that is stored, if any, is in whole dollars. -/
def WholeDollars (amount : String → Nat) (l : PriceLabel) : Prop :=
  l.type ≠ .productDeleted → ∀ k c, storedPrice l.account l.product l.script = some (k, c) → 100 ∣ amount c.id

/-! ## What a delivery does to the rows -/

theorem callsPass_succ (script : List (Option Fault)) (n : Nat) :
    callsPass script (n + 1) = (callsPass script 1 && callsPass script.tail n) := by
  cases script <;> simp [callsPass]

theorem callsPass_sync (script : List (Option Fault)) (k : StripeProduct) :
    callsPass script (if k.images.isEmpty then 2 else 3) =
      (callsPass script 1 && (callsPass script.tail 1 && (k.images.isEmpty || callsPass script.tail.tail 1))) := by
  cases k.images.isEmpty with
  | true => simpa using callsPass_succ script 1
  | false => simpa using (callsPass_succ script 2).trans (congrArg _ (callsPass_succ script.tail 1))

section Sync

variable {w : World} {p : String}

/-- The state after an external call. -/
def afterCall (w : World) : World := { w with script := w.script.tail }

theorem external_cases (w : World) :
    (callsPass w.script 1 = false ∧ ∃ e, external.run w = (.error e, afterCall w)) ∨
    (callsPass w.script 1 = true ∧ external.run w = (.ok (), afterCall w)) := by
  rcases hs : w.script with _ | ⟨_ | f, rest⟩
  · have hsame : afterCall w = w := by unfold afterCall; rw [hs]; show _ = w; rw [List.tail_nil, ← hs]
    rw [external_of_nil hs, hsame]
    exact .inr ⟨rfl, rfl⟩
  · unfold afterCall
    rw [external_of_none hs, hs]
    exact .inr ⟨rfl, rfl⟩
  · unfold afterCall
    rw [external_of_fault hs, hs]
    exact .inl ⟨rfl, _, rfl⟩

theorem productRetrieve_cases (w : World) (p : String) :
    ((∀ k, product? w.stripe p = some k → callsPass w.script 1 = false) ∧
      ∃ e, (productRetrieve p).run w = (.error e, afterCall w)) ∨
    ∃ k, product? w.stripe p = some k ∧ callsPass w.script 1 = true ∧
      (productRetrieve p).run w = (.ok k, afterCall w) := by
  unfold productRetrieve
  rcases external_cases w with ⟨hfail, e, hcall⟩ | ⟨hpass, hcall⟩
  · rw [Act.bind_of_error hcall]
    exact .inl ⟨fun _ _ => hfail, e, rfl⟩
  · rw [Act.bind_of_ok hcall, Act.run_get_bind, show (afterCall w).stripe.products.find? (·.id == p) =
      product? w.stripe p from rfl]
    cases product? w.stripe p with
    | none => exact .inl ⟨fun _ => nofun, _, rfl⟩
    | some k => exact .inr ⟨k, rfl, hpass, rfl⟩

theorem priceList_cases (w : World) (k : StripeProduct) :
    (callsPass w.script 1 = false ∧ ∃ e, (priceList k).run w = (.error e, afterCall w)) ∨
    (callsPass w.script 1 = true ∧ (priceList k).run w = (.ok k.prices, afterCall w)) := by
  unfold priceList
  rcases external_cases w with ⟨hfail, e, hcall⟩ | ⟨hpass, hcall⟩
  · exact .inl ⟨hfail, e, Act.bind_of_error hcall⟩
  · exact .inr ⟨hpass, Act.bind_of_ok hcall⟩

theorem downloadImage_cases (w : World) (k : StripeProduct) :
    ((k.images.isEmpty || callsPass w.script 1) = false ∧ ∃ e, (downloadImage k).run w = (.error e, afterCall w)) ∨
    ((k.images.isEmpty || callsPass w.script 1) = true ∧
      ∃ sc, (downloadImage k).run w = (.ok (), { w with script := sc })) := by
  unfold downloadImage
  cases k.images.isEmpty with
  | true => exact .inr ⟨rfl, w.script, rfl⟩
  | false =>
    rcases external_cases w with ⟨hfail, hcall⟩ | ⟨hpass, hcall⟩
    · exact .inl ⟨hfail, hcall⟩
    · exact .inr ⟨hpass, w.script.tail, hcall⟩

theorem storedPrice_eq {k : StripeProduct} {c : Price} {cs : List Price} {a : Stripe} {script : List (Option Fault)}
    (hk : product? a p = some k) (hprices : k.prices = c :: cs) : storedPrice a p script =
      if callsPass script (if k.images.isEmpty then 2 else 3) then some (k, c) else none := by
  unfold storedPrice
  rw [hk]
  dsimp only
  rw [hprices]

theorem storedPrice_eq_none {a : Stripe} {script : List (Option Fault)}
    (h : ∀ k, product? a p = some k → callsPass script (if k.images.isEmpty then 2 else 3) = false) :
    storedPrice a p script = none := by
  unfold storedPrice
  split
  · rfl
  · rename_i k hk
    split
    · rfl
    · rw [h k hk]
      rfl

/-- A sync whose calls pass saves the product with its first price; any other
leaves the database alone. -/
theorem syncProduct_cases (w : World) (p : String) :
    (storedPrice w.stripe p w.script = none ∧ ((syncProductFromStripe p).run w).2.db = w.db) ∨
    ∃ k c sc, storedPrice w.stripe p w.script = some (k, c) ∧
      (syncProductFromStripe p).run w = (saveProduct (productOf w.db k.id) k c).run { w with script := sc } := by
  unfold syncProductFromStripe
  rcases productRetrieve_cases w p with ⟨hno, e, hget⟩ | ⟨k, hk, h₁, hget⟩
  · rw [Act.bind_of_error hget]
    exact .inl ⟨storedPrice_eq_none fun k hk => by rw [callsPass_sync, hno k hk]; rfl, rfl⟩
  rw [Act.bind_of_ok hget]
  rcases priceList_cases (afterCall w) k with ⟨h₂, e, hlist⟩ | ⟨h₂, hlist⟩
  · rw [Act.bind_of_error hlist]
    have h₂ : callsPass w.script.tail 1 = false := h₂
    exact .inl ⟨storedPrice_eq_none fun k _ => by rw [callsPass_sync, h₁, h₂]; rfl, rfl⟩
  rw [Act.bind_of_ok hlist, Act.run_get_bind]
  cases hprices : k.prices with
  | nil =>
    refine .inl ⟨?_, rfl⟩
    unfold storedPrice
    simp [hk, hprices]
  | cons c cs =>
    have h₂ : callsPass w.script.tail 1 = true := h₂
    rw [storedPrice_eq hk hprices, callsPass_sync, h₁, h₂, Bool.true_and, Bool.true_and]
    dsimp only
    rcases downloadImage_cases (afterCall (afterCall w)) k with ⟨h₃, e, himage⟩ | ⟨h₃, sc, himage⟩
    · rw [Act.bind_of_error himage, show (k.images.isEmpty || callsPass w.script.tail.tail 1) = false from h₃]
      exact .inl ⟨rfl, rfl⟩
    · rw [Act.bind_of_ok himage, show (k.images.isEmpty || callsPass w.script.tail.tail 1) = true from h₃]
      exact .inr ⟨k, c, sc, rfl, rfl⟩

theorem storedPrice_mem {k : StripeProduct} {c : Price} {a : Stripe} {script : List (Option Fault)}
    (h : storedPrice a p script = some (k, c)) : k ∈ a.products ∧ c ∈ k.prices := by
  unfold storedPrice at h
  split at h
  · cases h
  · rename_i k' hk
    split at h
    · cases h
    · rename_i c' cs hprices
      rw [Option.ite_none_right_eq_some] at h
      cases h.2
      exact ⟨List.mem_of_find?_eq_some hk, by rw [hprices]; simp⟩

end Sync

/-! ## Agreement, product by product -/

/-- Rows of one product, of which the checkout takes the first. -/
def RowsAgree (amount : String → Nat) (l : List ProductRow) : Prop :=
  ∀ r ∈ l, ∃ c n, l.head?.bind ProductRow.stripePriceId = some c ∧ displayedPrice r = some n ∧ n * 100 = amount c

/-- What every state reached has: one row per product, and no row of
none. -/
structure PlansInv (db : Db) : Prop where
  one : OneProductRow db
  named : ∀ r ∈ db.products.rows, ∃ p, r.stripeProductId = some p

section Rows

variable {amount : String → Nat} {db db' : Db}

theorem pricesAgree_iff (hnamed : ∀ r ∈ db.products.rows, ∃ p, r.stripeProductId = some p) :
    PricesAgree amount db ↔ ∀ p, RowsAgree amount (rowsOf db.products p) := by
  have hcheckout : ∀ p, checkoutPrice db p = (rowsOf db.products p).head?.bind ProductRow.stripePriceId := fun p => by
    unfold checkoutPrice
    rw [productOf_eq_head]
  constructor
  · intro h p r hr
    obtain ⟨hr, hrp⟩ := mem_rowsOf.1 hr
    obtain ⟨p', c, n, hrp', hc, hn, heq⟩ := h r hr
    cases hrp.symm.trans hrp'
    exact ⟨c, n, (hcheckout p).symm.trans hc, hn, heq⟩
  · intro h r hr
    obtain ⟨p, hp⟩ := hnamed r hr
    obtain ⟨c, n, hc, hn, heq⟩ := h p r (mem_rowsOf.2 ⟨hr, hp⟩)
    exact ⟨p, c, n, hp, (hcheckout p).trans hc, hn, heq⟩

/-- Where the rows of `p` become `l` and the others stay, `l` decides. -/
theorem rowsAgree_update {p : String} {l : List ProductRow} (h : ∀ q, RowsAgree amount (rowsOf db.products q))
    (hp : rowsOf db'.products p = l) (hother : ∀ q, q ≠ p → rowsOf db'.products q = rowsOf db.products q) :
    (∀ q, RowsAgree amount (rowsOf db'.products q)) ↔ RowsAgree amount l := by
  constructor
  · exact fun h' => hp ▸ h' p
  · intro hl q
    by_cases hq : q = p
    · rw [hq, hp]
      exact hl
    · rw [hother q hq]
      exact h q

/-- The row a sync writes agrees when the amount has no cents to lose. -/
theorem rowsAgree_assigned {k : StripeProduct} {c : Price} {r : ProductRow}
    (hc : c.unitAmount = some (amount c.id : Int)) : RowsAgree amount [assignProduct k c r] ↔ 100 ∣ amount c.id := by
  have hprice : displayedPrice (assignProduct k c r) = some ((amount c.id / 100 : Nat) : Int) := by
    unfold displayedPrice assignProduct
    rw [hc]
    rfl
  constructor
  · intro h
    obtain ⟨c', n, hc', hn, heq⟩ := h _ (List.mem_singleton_self _)
    cases hc'
    cases hprice.symm.trans hn
    omega
  · rintro ⟨d, hd⟩ x hx
    rw [List.mem_singleton.1 hx]
    refine ⟨c.id, _, rfl, hprice, ?_⟩
    omega

theorem saveProduct_named (found : Option ProductRow) (k : StripeProduct) (c : Price) {w : World}
    (h : ∀ r ∈ w.db.products.rows, ∃ p, r.stripeProductId = some p) :
    ∀ r ∈ ((saveProduct found k c).run w).2.db.products.rows, ∃ p, r.stripeProductId = some p := by
  cases found with
  | none =>
    obtain ⟨t, ht, hrun⟩ := saveProduct_new k c w
    rw [hrun]
    intro r hr
    rcases (Table.mem_insert ht).1 hr with hr | rfl
    · exact h r hr
    · exact ⟨k.id, rfl⟩
  | some x =>
    obtain ⟨t, ht, hrun⟩ := saveProduct_found x k c w
    rw [hrun]
    intro r hr
    rcases (Table.mem_modify ht).1 hr with ⟨hr, -⟩ | ⟨y, hy, -, rfl⟩
    · exact h r hr
    · exact h y hy

end Rows

/-! ## Runs -/

section Step

variable {lib : Lib} {amount : String → Nat} {w w' : World}

theorem prices_sync (hinv : PlansInv w.db) (hpriced : Priced amount w.stripe) (p : String) :
    PlansInv ((syncProductFromStripe p).run w).2.db ∧ (PricesAgree amount w.db →
      (PricesAgree amount ((syncProductFromStripe p).run w).2.db ↔
        ∀ k c, storedPrice w.stripe p w.script = some (k, c) → 100 ∣ amount c.id)) := by
  rcases syncProduct_cases w p with ⟨hno, hdb⟩ | ⟨k, c, sc, hst, hrun⟩
  · rw [hdb, hno]
    exact ⟨hinv, fun h => iff_of_true h nofun⟩
  · obtain ⟨hk, hc⟩ := storedPrice_mem hst
    obtain ⟨t, r, hsave, hrows, hother⟩ := saveProduct_rows (w := { w with script := sc }) c (hinv.one k.id)
    have hnamed := saveProduct_named (productOf w.db k.id) k c (w := { w with script := sc }) hinv.named
    rw [hrun, hst]
    rw [hsave] at hnamed ⊢
    refine ⟨⟨oneProductRow_of_rows hinv.one hrows le_rfl hother, hnamed⟩, fun h => ?_⟩
    rw [pricesAgree_iff hnamed, rowsAgree_update ((pricesAgree_iff hinv.named).1 h) hrows hother,
      rowsAgree_assigned (hpriced k hk c hc)]
    exact ⟨fun hd k' c' he => by cases he; exact hd, fun h => h k c rfl⟩

theorem prices_drop (amount : String → Nat) (hinv : PlansInv w.db) (p : String) :
    PlansInv (dropProduct w.db p) ∧ (PricesAgree amount w.db → PricesAgree amount (dropProduct w.db p)) := by
  obtain ⟨hgone, hother⟩ := dropProduct_rows hinv.one p
  have hnamed : ∀ r ∈ (dropProduct w.db p).products.rows, ∃ q, r.stripeProductId = some q := by
    unfold dropProduct
    split
    · exact hinv.named
    · exact fun r hr => hinv.named r (Table.mem_delete.1 hr).1
  refine ⟨⟨oneProductRow_of_rows hinv.one hgone (by simp) hother, hnamed⟩, fun h => ?_⟩
  rw [pricesAgree_iff hnamed, rowsAgree_update ((pricesAgree_iff hinv.named).1 h) hgone hother]
  exact fun r hr => by cases hr

/-- One delivery: the invariant stays, and the agreement exactly when no
cents are lost. -/
theorem prices_step {l : PriceLabel} (hinv : PlansInv w.db) (hs : priceStep lib amount w l = some w') :
    PlansInv w'.db ∧ (PricesAgree amount w.db → (PricesAgree amount w'.db ↔ WholeDollars amount l)) := by
  obtain ⟨type, p, account, script⟩ := l
  unfold priceStep at hs
  split at hs
  · rename_i hok
    cases hs
    rw [webhooksStripe_of_product lib hok.1]
    have hsync := prices_sync (w := PriceLabel.world w ⟨type, p, account, script⟩) hinv hok.2 p
    cases type with
    | productCreated => exact ⟨hsync.1, fun h => (hsync.2 h).trans ⟨fun h' _ => h', fun h' => h' (by simp)⟩⟩
    | productUpdated => exact ⟨hsync.1, fun h => (hsync.2 h).trans ⟨fun h' _ => h', fun h' => h' (by simp)⟩⟩
    | productDeleted =>
      obtain ⟨hinv', hkeeps⟩ := prices_drop amount hinv p
      exact ⟨hinv', fun h => iff_of_true (hkeeps h) fun hne => absurd rfl hne⟩
    | _ => cases hok.1
  · cases hs

end Step

/-- A run of deliveries keeps the price shown and the price charged in
agreement iff every amount that is stored is in whole dollars. -/
theorem prices_agree_iff (lib : Lib) (amount : String → Nat) {w₀ : World} (h₀ : NoProducts w₀) (ls : List PriceLabel)
    (w : World) :
    (∀ a l b, (priceSystem lib amount).StepOf w₀ ls w a l b → PricesAgree amount b.db) ↔
    (∀ a l b, (priceSystem lib amount).StepOf w₀ ls w a l b → WholeDollars amount l) := by
  have hempty : ∀ r, r ∉ w₀.db.products.rows := fun r hr => by rw [h₀] at hr; cases hr
  refine LTS.run_keeps_iff_of_invariant (I := fun a : World => PlansInv a.db) (P := fun a => PricesAgree amount a.db)
    (G := fun _ l => WholeDollars amount l) (fun _ _ _ hI hs => (prices_step hI hs).1)
    (fun _ _ _ hI hP hs => (prices_step hI hs).2 hP) ⟨fun p => ?_, fun r hr => absurd hr (hempty r)⟩
    (fun r hr => absurd hr (hempty r)) w
  unfold rowsOf
  rw [show w₀.db.products.rows = [] from h₀]
  simp

/-! ## Two plans -/

def catalogueOf (cents : Nat) : Stripe where
  products := [⟨"prod_1", "#5 Posts", none, true, [], [⟨"price_1", some cents, "usd"⟩]⟩]

/-- The creation of a plan for `cents` a month. -/
def planCreated (cents : Nat) : PriceLabel :=
  { type := .productCreated, product := "prod_1", account := catalogueOf cents }

def afterPlan (cents : Nat) : World := (priceStep plainLib (fun _ => cents) {} (planCreated cents)).getD {}

/-- A plan for $20.00. -/
theorem twenty_dollars :
    NoProducts {} ∧ (priceSystem plainLib fun _ => 2000).Run {} [planCreated 2000] (afterPlan 2000) ∧
    ∀ a l b, (priceSystem plainLib fun _ => 2000).StepOf {} [planCreated 2000] (afterPlan 2000) a l b →
      PricesAgree (fun _ => 2000) b.db := by
  have h₀ : NoProducts {} := rfl
  refine ⟨h₀, .cons rfl (.nil _), (prices_agree_iff plainLib _ h₀ _ _).2 fun a l b h => ?_⟩
  rcases h.of_cons with ⟨-, rfl⟩ | ⟨s, -, l₁, l₂, hls, -⟩
  · exact fun _ k c _ => show 100 ∣ 2000 by decide
  · simp at hls

/-- A plan for $19.99 is shown as $19. -/
theorem nineteen_ninety_nine :
    NoProducts {} ∧ (priceSystem plainLib fun _ => 1999).Run {} [planCreated 1999] (afterPlan 1999) ∧
    (afterPlan 1999).db.products.rows.map displayedPrice = [some 19] ∧
    checkoutPrice (afterPlan 1999).db "prod_1" = some "price_1" ∧
    ¬ PricesAgree (fun _ => 1999) (afterPlan 1999).db := by
  have hshown : (afterPlan 1999).db.products.rows.map displayedPrice = [some 19] := by decide
  refine ⟨rfl, .cons rfl (.nil _), hshown, by decide, fun h => ?_⟩
  obtain ⟨r, hr, hprice⟩ : ∃ r ∈ (afterPlan 1999).db.products.rows, displayedPrice r = some 19 :=
    List.mem_map.1 (by rw [hshown]; simp)
  obtain ⟨p, c, n, -, -, hn, heq⟩ := h r hr
  cases hprice.symm.trans hn
  exact absurd (show (19 : Int) * 100 = (1999 : Nat) from heq) (by decide)

end Insta.Web
