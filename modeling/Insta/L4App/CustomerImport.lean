import Insta.L4App.System

/-!
# Repeated imports of one customer

Events about one Stripe customer are delivered one after the other, and
between them its name and email are edited in Stripe. Each delivery looks
the user up by the customer's id, which the user's own `after_create`
callback may have replaced in the delivery before.

`import_links_once_iff`: exactly one user stands for the customer afterwards,
with what Stripe held at the last delivery and at no cost of another
customer, iff exactly one user was linked to it beforehand and no other user
has the last name. A customer that no user is linked to is never imported
without a second customer (`deliverAbout_links`).
-/
namespace Insta.Web

open Insta.Core Insta.Store Insta.Store.App Insta.Model Insta.Service

/-- A delivery of `customer.created` or `customer.updated`, with the name
and the email Stripe holds by then. -/
structure Delivery where
  type : EventType
  name : Option String
  email : Option String
  imports : EventType.imports type = true

/-- The customer `c` has the name and email of `d`. -/
def editCustomer (w : World) (c : String) (d : Delivery) : World :=
  match w.stripe.customers.find? (·.id == c) with
  | none => w
  | some k => { w with stripe := w.stripe.setCustomer k d.email d.name }

def deliverAbout (lib : Lib) (c : String) (w : World) (d : Delivery) : World :=
  serve lib (editCustomer w c d) ⟨none, .webhooksStripe (some ⟨d.type, { id := c }⟩), []⟩

/-- The deliveries `ds`, one after the other. -/
def deliverAll (lib : Lib) (c : String) (w : World) (ds : List Delivery) : World :=
  ds.foldl (deliverAbout lib c) w

/-- Exactly one user stands for `c`: it has the link and the values of `d`,
every other row was there before, and no customer was added. -/
def StandsFor (w w' : World) (c : String) (d : Delivery) : Prop :=
  ∃ r ∈ w'.db.users.rows, r.stripeCustomerId = some c ∧ r.username = d.name ∧ r.email = d.email ∧
    (∀ x ∈ w'.db.users.rows, x.stripeCustomerId = some c → x = r) ∧
    (∀ x ∈ w'.db.users.rows, x ≠ r → ∃ y ∈ w.db.users.rows, y.id = x.id) ∧
    w'.stripe.customers.length = w.stripe.customers.length

/-! ## Edits in Stripe -/

theorem length_setCustomer (a : Stripe) (k : Customer) (email name : Option String) :
    (a.setCustomer k email name).customers.length = a.customers.length := by
  unfold Stripe.setCustomer
  split
  · rfl
  · exact List.length_map _

/-- The state in which the handler runs for `d`. -/
def beforeHandler (w : World) (c : String) (d : Delivery) : World :=
  { editCustomer w c d with script := [] }

theorem deliverAbout_eq (lib : Lib) (c : String) (w : World) (d : Delivery) :
    deliverAbout lib c w d = ((getCustomerFromStripe lib c).run (beforeHandler w c d)).2 :=
  congrArg Prod.snd (webhooksStripe_of_imports lib (e := ⟨d.type, { id := c }⟩) d.imports _)

@[simp] theorem beforeHandler_db (w : World) (c : String) (d : Delivery) :
    (beforeHandler w c d).db = w.db := by
  unfold beforeHandler editCustomer; split <;> rfl

@[simp] theorem beforeHandler_length (w : World) (c : String) (d : Delivery) :
    (beforeHandler w c d).stripe.customers.length = w.stripe.customers.length := by
  unfold beforeHandler editCustomer
  split
  · rfl
  · exact length_setCustomer _ _ _ _

theorem known_beforeHandler {w : World} {k : Customer} (hk : Known w k) (d : Delivery) :
    Known (beforeHandler w k.id d) { k with name := d.name, email := d.email } := by
  have h := known_setCustomer hk d.email d.name
  unfold beforeHandler editCustomer
  rw [hk.found]
  exact ⟨h.found, h.live⟩

/-! ## Who is linked -/

/-- The users linked to `c`. -/
def linkedIds (users : Table UserRow) (c : String) : List Nat :=
  (users.rows.filter fun r => r.stripeCustomerId == some c).map UserRow.id

theorem mem_linkedIds {users : Table UserRow} {c : String} {i : Nat} :
    i ∈ linkedIds users c ↔ ∃ r ∈ users.rows, r.stripeCustomerId = some c ∧ r.id = i := by
  simp [linkedIds, and_assoc]

/-- Overwriting a row keeps its link. -/
theorem linkedIds_over {lib : Lib} {users t : Table UserRow} {r : UserRow} {k : Customer} (c : String)
    (hr : r ∈ users.rows)
    (ht : users.modify r.id (writtenColumns r (importOver lib users r k)).apply = some t) :
    linkedIds t c = linkedIds users c := by
  have hsame : ∀ x ∈ users.rows, ∀ y, y = (if rowId x = r.id then
      withId r.id ((writtenColumns r (importOver lib users r k)).apply x) else x) →
      y.id = x.id ∧ y.stripeCustomerId = x.stripeCustomerId := by
    intro x hx y hy
    split at hy
    · rename_i hid
      obtain rfl : x = r := users.eq_of_rowId hx hr hid
      rw [hy]
      exact ⟨rfl, (importOver_written lib users x k).2.2⟩
    · rw [hy]; exact ⟨rfl, rfl⟩
  unfold linkedIds
  rw [Table.rows_modify ht, List.filter_map, List.map_map]
  have hfilter : users.rows.filter ((fun r : UserRow => r.stripeCustomerId == some c) ∘ fun x =>
      if rowId x = r.id then withId r.id ((writtenColumns r (importOver lib users r k)).apply x) else x) =
      users.rows.filter fun r => r.stripeCustomerId == some c :=
    List.filter_congr fun x hx => by simp only [Function.comp]; rw [(hsame x hx _ rfl).2]
  rw [hfilter]
  exact List.map_congr_left fun x hx => (hsame x (List.mem_filter.1 hx).1 _ rfl).1

/-- A delivery adds a customer, or leaves both the number of customers and
the links alone. -/
theorem deliverAbout_links (lib : Lib) (c : String) (w : World) (d : Delivery) :
    w.stripe.customers.length < (deliverAbout lib c w d).stripe.customers.length ∨
    (deliverAbout lib c w d).stripe.customers.length = w.stripe.customers.length ∧
      linkedIds (deliverAbout lib c w d).db.users c = linkedIds w.db.users c := by
  rw [deliverAbout_eq]
  rcases getCustomer_cases lib (w := beforeHandler w c d) rfl c with
    h | ⟨k, r, t, -, -, hu, ht, h⟩ | ⟨k, t, x, k', -, -, -, -, h⟩
  · rw [h]; exact .inr ⟨by simp, by simp⟩
  · rw [h]
    rw [beforeHandler_db] at ht
    have hr : r ∈ w.db.users.rows := by simpa using (mem_of_userOf hu).1
    exact .inr ⟨by simp, linkedIds_over c hr ht⟩
  · left
    rw [h.customers]
    simp

theorem deliverAll_links (lib : Lib) (c : String) (w : World) (ds : List Delivery) :
    w.stripe.customers.length < (deliverAll lib c w ds).stripe.customers.length ∨
    (deliverAll lib c w ds).stripe.customers.length = w.stripe.customers.length ∧
      linkedIds (deliverAll lib c w ds).db.users c = linkedIds w.db.users c := by
  induction ds generalizing w with
  | nil => exact .inr ⟨rfl, rfl⟩
  | cons d ds ih =>
    have hrun : deliverAll lib c w (d :: ds) = deliverAll lib c (deliverAbout lib c w d) ds := rfl
    rw [hrun]
    rcases deliverAbout_links lib c w d with h | ⟨hlen, hl⟩ <;>
      rcases ih (deliverAbout lib c w d) with h' | ⟨hlen', hl'⟩
    · exact .inl (h.trans h')
    · exact .inl (hlen' ▸ h)
    · exact .inl (hlen ▸ h')
    · exact .inr ⟨hlen'.trans hlen, hl'.trans hl⟩

/-! ## Deliveries to the one linked user -/

/-- The user `i`, and only it, is linked to `c`; everything else is as it
was in `w₀`. -/
structure Tracks (w₀ : World) (c : String) (i : Nat) (w : World) : Prop where
  known : ∃ k, Known w k ∧ k.id = c
  links : linkedIds w.db.users c = [i]
  others : ∀ x, x.id ≠ i → (x ∈ w.db.users.rows ↔ x ∈ w₀.db.users.rows)
  customers : w.stripe.customers.length = w₀.stripe.customers.length

theorem Tracks.userOf {w₀ w : World} {c : String} {i : Nat} (h : Tracks w₀ c i w) :
    ∃ r, userOf w c = some r ∧ r ∈ w.db.users.rows ∧ r.stripeCustomerId = some c ∧ r.id = i := by
  obtain ⟨x, hx, hlink, -⟩ := mem_linkedIds.1 (h.links ▸ List.mem_singleton.2 rfl : i ∈ linkedIds w.db.users c)
  cases hu : Service.userOf w c with
  | none => exact absurd hlink (userOf_eq_none_iff.1 hu x hx)
  | some r =>
    have hr := mem_of_userOf hu
    refine ⟨r, rfl, hr.1, hr.2, List.mem_singleton.1 ?_⟩
    rw [← h.links]
    exact mem_linkedIds.2 ⟨r, hr.1, hr.2, rfl⟩

/-- The row a delivery leaves: what Stripe holds, unless another user has
that name. -/
theorem Tracks.deliver (lib : Lib) {w₀ w : World} {c : String} {i : Nat} (h : Tracks w₀ c i w) (d : Delivery) :
    Tracks w₀ c i (deliverAbout lib c w d) ∧
    ((d.name = none ∨ ∀ x ∈ w₀.db.users.rows, x.id ≠ i → x.username ≠ d.name) →
      ∃ r ∈ (deliverAbout lib c w d).db.users.rows, r.id = i ∧ r.username = d.name ∧ r.email = d.email) := by
  obtain ⟨r, hu, hr, hlink, rfl⟩ := h.userOf
  obtain ⟨k, hk, rfl⟩ := h.known
  have hk' := known_beforeHandler hk d
  have hu' : Service.userOf (beforeHandler w k.id d) k.id = some r := by
    unfold Service.userOf findUserBy at hu ⊢
    rwa [beforeHandler_db]
  have hget := getCustomer_of_known lib rfl hk'
  have hrun := deliverAbout_eq lib k.id w d
  dsimp only at hget
  rw [hget, hu', saveImport_over rfl hk' hlink, beforeHandler_db] at hrun
  have hiff := modify_importOver_iff lib (k := { k with name := d.name, email := d.email }) hr
  cases ht : w.db.users.modify r.id
      (writtenColumns r (importOver lib w.db.users r { k with name := d.name, email := d.email })).apply with
  | none =>
    rw [ht] at hrun hiff
    rw [hrun]
    refine ⟨⟨⟨_, hk', rfl⟩, by simpa using h.links, by simpa using h.others, by simpa using h.customers⟩, ?_⟩
    -- an index refused the name, so another user has it
    intro hfree
    obtain ⟨t, ht'⟩ := hiff.2 (hfree.imp_right fun hx x hxw hid => hx x ((h.others x hid).1 hxw) hid)
    cases ht'
  | some t =>
    rw [ht] at hrun
    rw [hrun]
    have hw := importOver_written lib w.db.users r { k with name := d.name, email := d.email }
    refine ⟨⟨⟨_, ⟨hk'.found, hk'.live⟩, rfl⟩, (linkedIds_over k.id hr ht).trans h.links, fun x hid => ?_,
      by simpa using h.customers⟩, fun _ => ⟨_, (mem_saved hr ht).2 (.inr rfl), rfl, hw.1, hw.2.1⟩⟩
    rw [← h.others x hid, setUsers_users, mem_saved hr ht]
    constructor
    · rintro (⟨hx, -⟩ | rfl)
      · exact hx
      · exact absurd rfl hid
    · intro hx
      exact .inl ⟨hx, hid⟩

theorem Tracks.deliverAll (lib : Lib) {w₀ w : World} {c : String} {i : Nat} (ds : List Delivery)
    (h : Tracks w₀ c i w) : Tracks w₀ c i (deliverAll lib c w ds) := by
  induction ds generalizing w with
  | nil => exact h
  | cons d ds ih => exact ih (h.deliver lib d).1

theorem tracks_of_links {w : World} {k : Customer} {i : Nat} (hk : Known w k)
    (h : linkedIds w.db.users k.id = [i]) : Tracks w k.id i w :=
  ⟨⟨k, hk, rfl⟩, h, fun _ _ => Iff.rfl, rfl⟩

/-! ## The import -/

/-- One linked user is one entry of `linkedIds`. -/
theorem linkedIds_singleton_iff {users : Table UserRow} {c : String} : (∃ i, linkedIds users c = [i]) ↔
    ∃ r ∈ users.rows, r.stripeCustomerId = some c ∧ ∀ x ∈ users.rows, x.stripeCustomerId = some c → x = r := by
  constructor
  · rintro ⟨i, hi⟩
    obtain ⟨r, hr, hlink, rfl⟩ := mem_linkedIds.1 (hi ▸ List.mem_singleton.2 rfl : i ∈ linkedIds users c)
    refine ⟨r, hr, hlink, fun x hx hxl => users.eq_of_rowId hx hr ?_⟩
    exact List.mem_singleton.1 (hi ▸ mem_linkedIds.2 ⟨x, hx, hxl, rfl⟩)
  · rintro ⟨r, hr, hlink, honly⟩
    have hnodup : (linkedIds users c).Nodup :=
      users.nodup_rowId.sublist (List.filter_sublist.map UserRow.id)
    refine ⟨r.id, List.perm_singleton.1 ?_⟩
    refine (List.perm_ext_iff_of_nodup hnodup (List.nodup_singleton _)).2 fun j => ?_
    rw [mem_linkedIds, List.mem_singleton]
    constructor
    · rintro ⟨x, hx, hxl, rfl⟩
      rw [honly x hx hxl]
    · rintro rfl
      exact ⟨r, hr, hlink, rfl⟩

theorem standsFor_of_tracks {w w' : World} {c : String} {i : Nat} {d : Delivery} {r : UserRow}
    (h : Tracks w c i w') (hr : r ∈ w'.db.users.rows) (hid : r.id = i) (hname : r.username = d.name)
    (hemail : r.email = d.email) : StandsFor w w' c d := by
  obtain ⟨x, hx, hlink, honly⟩ := linkedIds_singleton_iff.1 ⟨i, h.links⟩
  obtain rfl : x = r := by
    refine w'.db.users.eq_of_rowId hx hr (Eq.trans ?_ hid.symm)
    exact List.mem_singleton.1 (h.links ▸ mem_linkedIds.2 ⟨x, hx, hlink, rfl⟩)
  refine ⟨x, hx, hlink, hname, hemail, honly, fun y hy hne => ?_, h.customers⟩
  have hyi : y.id ≠ i := fun he => hne (w'.db.users.eq_of_rowId hy hx (he.trans hid.symm))
  exact ⟨y, (h.others y hyi).1 hy, rfl⟩

/-- After any deliveries about `k`, with any edits between them, exactly one
user stands for it iff one was linked to it at the start and no other user
has the name of the last delivery. -/
theorem import_links_once_iff (lib : Lib) (w : World) (k : Customer) (hk : Known w k) (ds : List Delivery)
    (d : Delivery) :
    StandsFor w (deliverAll lib k.id w (ds ++ [d])) k.id d ↔
      ∃ r ∈ w.db.users.rows, r.stripeCustomerId = some k.id ∧
        (∀ x ∈ w.db.users.rows, x.stripeCustomerId = some k.id → x = r) ∧
        (d.name = none ∨ ∀ x ∈ w.db.users.rows, x ≠ r → x.username ≠ d.name) := by
  constructor
  · rintro ⟨r', hr', hlink', hname', -, honly', -, hlen⟩
    have hlinks : linkedIds (deliverAll lib k.id w (ds ++ [d])).db.users k.id = linkedIds w.db.users k.id := by
      rcases deliverAll_links lib k.id w (ds ++ [d]) with hlt | ⟨-, h⟩
      · omega
      · exact h
    obtain ⟨i, hi'⟩ := linkedIds_singleton_iff.2 ⟨r', hr', hlink', honly'⟩
    have hi := hlinks.symm.trans hi'
    obtain ⟨r, hr, hlink, honly⟩ := linkedIds_singleton_iff.1 ⟨i, hi⟩
    have hT := (tracks_of_links hk hi).deliverAll lib (ds ++ [d])
    refine ⟨r, hr, hlink, honly, or_iff_not_imp_left.2 fun hnone x hx hne he => ?_⟩
    -- the other row of that name would stand beside the linked one
    have hri : r.id = i := List.mem_singleton.1 (hi ▸ mem_linkedIds.2 ⟨r, hr, hlink, rfl⟩)
    have hri' : r'.id = i := List.mem_singleton.1 (hi' ▸ mem_linkedIds.2 ⟨r', hr', hlink', rfl⟩)
    have hxi : x.id ≠ i := fun h => hne (w.db.users.eq_of_rowId hx hr (h.trans hri.symm))
    have hfree := Table.clash_false _ ((hT.others x hxi).2 hx) hr' (fun h => hxi (h.trans hri'))
    obtain ⟨n, hn⟩ := Option.ne_none_iff_exists'.1 hnone
    have hsame : sameKey x.username r'.username = true := sameKey_iff.2 ⟨n, he.trans hn, hname'.trans hn⟩
    simp [clash, hsame] at hfree
  · rintro ⟨r, hr, hlink, honly, hfree⟩
    obtain ⟨i, hi⟩ := linkedIds_singleton_iff.2 ⟨r, hr, hlink, honly⟩
    have hri : r.id = i := List.mem_singleton.1 (hi ▸ mem_linkedIds.2 ⟨r, hr, hlink, rfl⟩)
    have hrun : deliverAll lib k.id w (ds ++ [d]) = deliverAbout lib k.id (deliverAll lib k.id w ds) d :=
      List.foldl_concat ..
    obtain ⟨hT, hlast⟩ := ((tracks_of_links hk hi).deliverAll lib ds).deliver lib d
    obtain ⟨r', hr', hid, hname, hemail⟩ := hlast (hfree.imp_right fun h x hx hxi =>
      h x hx fun he => hxi (he ▸ hri))
    rw [hrun]
    exact standsFor_of_tracks hT hr' hid hname hemail

/-- `customer.updated` after the name was edited in Stripe. -/
def renamed : Delivery := ⟨.customerUpdated, some "alice2", some "alice@example.com", rfl⟩

theorem linked_user_follows_rename : Known shop ⟨"cus_1", some "alice", some "alice@example.com", false⟩ ∧
    StandsFor shop (deliverAll plainLib "cus_1" shop ([] ++ [renamed])) "cus_1" renamed := by
  have hk : Known shop ⟨"cus_1", some "alice", some "alice@example.com", false⟩ := ⟨rfl, rfl⟩
  refine ⟨hk, (import_links_once_iff plainLib shop _ hk [] renamed).2 ⟨aliceRow, by decide, rfl, ?_, ?_⟩⟩
  · intro x hx _
    exact List.mem_singleton.1 hx
  · exact .inr fun x hx hne => absurd (List.mem_singleton.1 hx) hne

/-- A customer created in Stripe, its name and email in no local row: one
delivery of its `customer.created` creates a second customer. -/
theorem import_creates_second_customer :
    Known (oneCustomer (some "bob")) ⟨"cus_1", some "bob", some "bob@example.com", false⟩ ∧
    (∀ r ∈ (oneCustomer (some "bob")).db.users.rows,
      r.username ≠ some "bob" ∧ r.email ≠ some "bob@example.com") ∧
    ¬ StandsFor (oneCustomer (some "bob"))
      (deliverAll plainLib "cus_1" (oneCustomer (some "bob"))
        [⟨.customerCreated, some "bob", some "bob@example.com", rfl⟩])
      "cus_1" ⟨.customerCreated, some "bob", some "bob@example.com", rfl⟩ := by
  refine ⟨⟨rfl, rfl⟩, by decide, ?_⟩
  rintro ⟨r, -, -, -, -, -, -, hlen⟩
  exact absurd hlen (by decide)

end Insta.Web
