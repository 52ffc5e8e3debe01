import Insta.L4App.AccountMoves

/-!
# A user and their Stripe customer agree

Nothing but the callbacks of `User` and the customer webhooks keeps the row
of a user and the customer at Stripe alike.

* `Mirrored`: each id is held by one user, and the users show what Stripe
  has, those apart whose customer was edited there (`stale`).
* `accounts_agree`: in every run every user shows what Stripe has for their
  customer, unless that customer was edited at Stripe and the event about it
  has not been delivered since.

The requests may set the id of an existing user, but not to one that
somebody else holds, and a new user gets theirs from `create_stripe_customer`
(`NamesOnce`); `takes_over_customer` shows what happens otherwise.
-/
namespace Insta.Web

open Insta.Core Insta.Store Insta.Store.App Insta.Model Insta.Service

/-! ## Agreement -/

/-- Who holds `c` shows what Stripe has for `c`. -/
def HoldersShow (w : World) (c : String) : Prop := ∀ r ∈ w.db.users.rows, r.stripeCustomerId = some c → Shows w r

/-- Each id is held once, and the holders of those outside `stale` agree. -/
structure Mirrored (stale : Set String) (w : World) : Prop where
  links : UniqueLinks w.db
  agrees : ∀ c, c ∉ stale → HoldersShow w c

theorem Move.agrees {stale : Set String} {w w' : World} (h : Move w w') (hu : UniqueLinks w'.db)
    (ha : ∀ c, c ∉ stale → HoldersShow w c) : ∀ c, c ∉ stale → HoldersShow w' c := by
  intro c hc r hr hrc c' k hc' hk
  obtain rfl : c = c' := Option.some.inj (hrc.symm.trans hc')
  cases h with
  | less hrows hcust => exact ha c hc r (hrows r hr) hrc c k hrc (hcust c k ⟨r, hr, hrc⟩ hk)
  | @write y hmem hrows hy hcust =>
    -- the written row agrees, and no other row holds its id
    rcases hrows r hr with rfl | hold
    · exact hy c k hrc hk
    · by_cases hyc : y.stripeCustomerId = some c
      · rw [hu r hr y hmem c hrc hyc]
        exact hy c k hyc hk
      · exact ha c hc r hold hrc c k hrc (hcust c k ⟨r, hr, hrc⟩ hyc hk)

/-- A request sets the id of an existing user, to one that nobody else
holds. -/
def NamesOnce (w : World) : Label → Prop
  | .call call => ∀ c, call.req.names c → ∃ x, call.req.target w call.actor = some x ∧
    ∀ y ∈ w.db.users.rows, y.stripeCustomerId = some c → y = x
  | _ => True

theorem Mirrored.serve {lib : Lib} {stale : Set String} {w : World} {call : Call} (h : Mirrored stale w)
    (honce : NamesOnce w (.call call)) : Mirrored stale (serve lib w call) := by
  have hfree : ∀ c, call.req.names c → ∀ x ∈ w.db.users.rows, x.stripeCustomerId = some c →
      call.req.target { w with script := call.script } call.actor = some x := by
    intro c hc x hx hxc
    obtain ⟨y, hy, hone⟩ := honce c hc
    rw [hone x hx hxc]
    exact hy
  have hrun := handle_moves lib call.actor call.req { w with script := call.script } fun c hc => by
    obtain ⟨x, hx, -⟩ := honce c hc
    exact ⟨x, hx⟩
  have hkeep : ∀ w', (moves lib { w with script := call.script } call.actor call.req).rel
      { w with script := call.script } w' → Mirrored stale w' := by
    intro w' hw'
    induction hw' with
    | refl => exact ⟨h.links, h.agrees⟩
    | tail _ hs ih =>
      have hlinks : ∀ a b, (effects lib { w with script := call.script } call.actor call.req).rel a b →
          UniqueLinks a.db → UniqueLinks b.db := by
        intro a b hab hu
        induction hab with
        | refl => exact hu
        | tail _ he ih => exact he.uniqueLinks ih hfree
      exact ⟨hlinks _ _ hs.1 ih.links, hs.2.agrees (hlinks _ _ hs.1 ih.links) ih.agrees⟩
  exact hkeep _ hrun

/-! ## Events -/

/-- The call is a delivered event about customer `c` that went through. -/
def Delivers (lib : Lib) (w : World) (call : Call) (c : String) : Prop :=
  ∃ e, call.req = .webhooksStripe (some e) ∧ EventType.imports e.type = true ∧ e.object.id = c ∧
    ((handle lib call.actor call.req).run { w with script := call.script }).1 = .ok ()

/-- A saved row that was pushed agrees with its customer. -/
theorem shows_pushed {w : World} {y : UserRow} {k : Customer} {t : Table UserRow} {sc : List (Option Fault)}
    (hk : y.stripeCustomerId.bind (customer? w) = some k) :
    Shows { w.setUsers t with stripe := w.stripe.setCustomer k y.email y.username, script := sc } y := by
  obtain ⟨c, hc, hk⟩ := Option.bind_eq_some_iff.1 hk
  intro c' k' hc' hk'
  obtain rfl : c = c' := Option.some.inj (hc.symm.trans hc')
  have hafter : customer? { w.setUsers t with
      stripe := w.stripe.setCustomer k y.email y.username, script := sc } c = _ := customer?_setCustomer hk _ _ c
  rw [hafter, if_pos rfl] at hk'
  cases hk'
  exact ⟨rfl, rfl⟩

/-- After the event the holder of `c`, if there is one, agrees. -/
theorem getCustomer_holdersShow {lib : Lib} {w w' : World} {c : String} (hu : UniqueLinks w.db)
    (h : (getCustomerFromStripe lib c).run w = (.ok (), w')) : HoldersShow w' c := by
  unfold getCustomerFromStripe at h
  obtain ⟨k, w₁, hx, h⟩ := Act.bind_ok h
  obtain ⟨hk, rfl, sc, rfl⟩ := customerRetrieve_ok hx
  rw [Act.run_get_bind] at h
  intro r hr hrc
  cases hfound : userOf { w with script := sc } k.id with
  | some x =>
    obtain ⟨hmem, hlink⟩ := mem_of_userOf hfound
    rw [hfound] at h
    unfold saveImport at h
    rw [Act.run_get_bind] at h
    obtain ⟨sc', ⟨e, t, hs⟩ | ⟨t, k', ht, hk', hs⟩⟩ := saveUpdate_pushed x
      (importOver lib w.db.users x k) { w with script := sc }
    · rw [Act.atomically_of_error hs] at h
      cases h
    · rw [Act.atomically_of_ok hs] at h
      cases h
      rcases (mem_saved hmem ht).1 hr with ⟨hr, hne⟩ | rfl
      · exact absurd (congrArg UserRow.id (hu r hr x hmem k.id hrc hlink)) hne
      · exact shows_pushed hk'
  | none =>
    -- nobody held the id before, so who holds it now is the imported row
    have hmove := @getCustomer_move lib k.id w
    have hrun : (getCustomerFromStripe lib k.id).run w = (.ok (), w') := by
      unfold getCustomerFromStripe
      rw [Act.bind_of_ok hx, Act.run_get_bind]
      exact h
    rw [hrun] at hmove
    have hno := userOf_eq_none_iff.1 hfound
    cases hmove with
    | less hrows _ => exact absurd hrc (hno r (hrows r hr))
    | write _ hrows hy _ =>
      rcases hrows r hr with rfl | hold
      · exact hy
      · exact absurd hrc (hno r hold)

theorem Delivers.holdersShow {lib : Lib} {w : World} {call : Call} {c : String} (h : Delivers lib w call c)
    (hu : UniqueLinks w.db) : HoldersShow (serve lib w call) c := by
  obtain ⟨e, hq, himp, rfl, hok⟩ := h
  unfold serve
  rw [hq] at hok ⊢
  have hrun := webhooksStripe_of_imports lib himp { w with script := call.script }
  change ((webhooksStripe lib (some e)).run { w with script := call.script }).1 = _ at hok
  change HoldersShow ((webhooksStripe lib (some e)).run { w with script := call.script }).2 _
  rw [hrun] at hok ⊢
  exact getCustomer_holdersShow (w := { w with script := call.script }) hu (Prod.ext hok rfl)

/-! ## Runs -/

/-- The customers that were edited at Stripe, until an event about them is
delivered. -/
def staleAfter (lib : Lib) (w : World) (stale : Set String) : Label → Set String
  | .account s => stale ∪ { c | customer? { w with stripe := s } c ≠ customer? w c }
  | .call call => { c | c ∈ stale ∧ ¬ Delivers lib w call c }
  | .tick _ => stale

/-- The application, with a record of the customers edited at Stripe. -/
def tracked (lib : Lib) : LTS (World × Set String) Label where
  init s := Fresh s.1
  step s l s' := (system lib).step s.1 l s'.1 ∧ s'.2 = staleAfter lib s.1 s.2 l

theorem Mirrored.step {lib : Lib} {w w' : World} {stale : Set String} {l : Label} (h : Mirrored stale w)
    (honce : NamesOnce w l) (hs : (system lib).step w l w') : Mirrored (staleAfter lib w stale l) w' := by
  rw [system_step.1 hs]
  cases l with
  | call call =>
    have hserved := @Mirrored.serve lib _ _ _ h honce
    refine ⟨hserved.links, fun c hc => ?_⟩
    by_cases hstale : c ∈ stale
    · have hdel : Delivers lib w call c := by
        by_contra hno
        exact hc ⟨hstale, hno⟩
      exact hdel.holdersShow h.links
    · exact hserved.agrees c hstale
  | tick n => exact ⟨h.links, h.agrees⟩
  | account s =>
    refine ⟨h.links, fun c hc r hr hrc c' k hc' hk => ?_⟩
    obtain rfl : c = c' := Option.some.inj (hrc.symm.trans hc')
    have hsame : customer? { w with stripe := s } c = customer? w c := by
      by_contra hne
      exact hc (.inr hne)
    exact h.agrees c (fun hstale => hc (.inl hstale)) r hr hrc c k hrc (hsame ▸ hk)

/-- A user shows what Stripe has for their customer, unless the customer was
edited at Stripe and the event about it has not been delivered. -/
theorem accounts_agree (lib : Lib) (w₀ w : World) (stale₀ stale : Set String) (ls : List Label)
    (h₀ : Mirrored stale₀ w₀)
    (h : ((tracked lib).guard fun s l => NamesOnce s.1 l).Run (w₀, stale₀) ls (w, stale)) :
    ∀ r ∈ w.db.users.rows, ∀ c k, r.stripeCustomerId = some c → c ∉ stale → customer? w c = some k →
      k.email = r.email ∧ k.name = r.username := by
  have hmirrored : Mirrored stale w := by
    refine h.keeps (I := fun s => Mirrored s.2 s.1) (fun a l b hI hs => ?_) h₀
    obtain ⟨⟨hstep, hstale⟩, honce⟩ := hs
    rw [hstale]
    exact hI.step honce hstep
  intro r hr c k hrc hc hk
  exact hmirrored.agrees c hc r hr hrc c k hrc hk

/-- The customer of Alice is renamed at Stripe. -/
def renamedAtStripe : Stripe :=
  { customers := [{ id := "cus_1", name := some "alicia", email := some "alice@example.com" }] }

def renameEvent : Call := ⟨none, .webhooksStripe (some ⟨.customerUpdated, { id := "cus_1" }⟩), []⟩

theorem shop_mirrored : Mirrored ∅ shop := by
  refine ⟨shop_uniqueLinks, fun c _ r hr hrc c' k hc' hk => ?_⟩
  rw [List.mem_singleton.1 hr] at hc' ⊢
  cases hc'
  cases hk
  exact ⟨rfl, rfl⟩

/-- The new name reaches the row with the event. -/
theorem renamed_account_agrees : ∃ w stale,
    ((tracked plainLib).guard fun s l => NamesOnce s.1 l).Run (shop, ∅)
      [.account renamedAtStripe, .call renameEvent] (w, stale) ∧ "cus_1" ∉ stale ∧
    w.db.users.rows.map UserRow.username = [some "alicia"] ∧
    ∀ r ∈ w.db.users.rows, ∀ c k, r.stripeCustomerId = some c → c ∉ stale → customer? w c = some k →
      k.email = r.email ∧ k.name = r.username := by
  obtain ⟨w₁, hw₁⟩ : ∃ w₁, w₁ = next plainLib shop (.account renamedAtStripe) := ⟨_, rfl⟩
  obtain ⟨stale₁, hstale₁⟩ : ∃ s, s = staleAfter plainLib shop ∅ (.account renamedAtStripe) := ⟨_, rfl⟩
  have hedit : ((tracked plainLib).guard fun s l => NamesOnce s.1 l).step (shop, ∅) (.account renamedAtStripe)
      (w₁, stale₁) := ⟨⟨system_step.2 hw₁, hstale₁⟩, trivial⟩
  have hevent : ((tracked plainLib).guard fun s l => NamesOnce s.1 l).step (w₁, stale₁) (.call renameEvent)
      (next plainLib w₁ (.call renameEvent), staleAfter plainLib w₁ stale₁ (.call renameEvent)) :=
    ⟨⟨system_step.2 rfl, rfl⟩, fun c hc => by obtain ⟨p, hp, -⟩ := hc; cases hp⟩
  have hrun := LTS.Run.cons hedit (.cons hevent (.nil _))
  subst hw₁
  refine ⟨_, _, hrun, fun hc => hc.2 ⟨_, rfl, rfl, rfl, rfl⟩, by decide, ?_⟩
  exact accounts_agree plainLib shop _ ∅ _ _ shop_mirrored hrun

end Insta.Web
