import Insta.L4App.UserWrites

/-!
# Whose Stripe customer is whose

`users.stripe_customer_id` decides to whom a subscription event goes
(`userOf`). It is written by `create_stripe_customer`, by the import of a
customer, and by `:stripe_customer_id` in the three lists of permitted
parameters; no index and no validation keeps it unique.

* `LinkSource`: where the id in a written row comes from, for every effect.
* `UniqueLinks.step`: the ids stay unique when no request names an id that a
  row other than its own holds.
* `customer_links`: in every run in which no request names an id its own row
  does not hold, and every customer imported as a new user is valid, the ids
  stay unique, and a user found for `c` held `c` from the start or is the one
  for whom `create_stripe_customer` created `c`.
* `takes_over_customer`: a user names the id of another one.
-/
namespace Insta.Web

open Insta.Core Insta.Store Insta.Store.App Insta.Model Insta.Service

/-! ## Parameters -/

/-- The permitted parameters of a request on a user. -/
def Request.userParams : Request → Option UserParams
  | .signUp p | .accountUpdate _ p | .usersCreate p _ | .usersUpdate _ p => some p
  | _ => none

/-- The user they are assigned to, if it is not a new one. -/
def Request.target (w : World) (actor : Option Nat) : Request → Option UserRow
  | .accountUpdate .. => currentUser w actor
  | .usersUpdate id _ => friendlyFind UserRow.slug w.db.users id
  | _ => none

/-- The parameters assign `stripe_customer_id`. -/
def Request.names (q : Request) (c : String) : Prop :=
  ∃ p, q.userParams = some p ∧ p.stripeCustomerId = some (some c)

theorem mem_of_target {w : World} {actor : Option Nat} {q : Request} {r : UserRow} (h : q.target w actor = some r) :
    r ∈ w.db.users.rows := by
  cases q with
  | accountUpdate pw p =>
    obtain ⟨i, -, hi⟩ := Option.bind_eq_some_iff.1 h
    exact (Table.mem_of_find hi).1
  | usersUpdate id p => exact mem_of_friendlyFind h
  | _ => cases h

/-! ## Where a link comes from -/

/-- `c` is the id of the customer that `create_stripe_customer` creates for
the user `u`, whose row is inserted in state `w`. -/
def CreatedFor (lib : Lib) (w : World) (u : Nat) (c : String) : Prop :=
  u = w.db.users.nextId ∧ ∃ r t, w.db.users.insert r = some t ∧
    c = (newCustomer lib (w.setUsers t) r.email r.username).id

/-- Nobody held such an id, at Stripe or in a row. -/
theorem CreatedFor.fresh {lib : Lib} {w : World} {u : Nat} {c : String} (h : CreatedFor lib w u c) :
    c ∉ knownIds w := by
  obtain ⟨-, r, t, ht, rfl⟩ := h
  intro hc
  refine lib.freshId_fresh (knownIds (w.setUsers t)) ?_
  rcases List.mem_append.1 hc with hc | hc
  · exact List.mem_append_left _ hc
  · obtain ⟨x, hx, hxc⟩ := List.mem_filterMap.1 hc
    exact List.mem_append_right _ (List.mem_filterMap.2 ⟨x, (Table.mem_insert ht).2 (.inl hx), hxc⟩)

theorem mem_knownIds {w : World} {x : UserRow} {c : String} (hx : x ∈ w.db.users.rows)
    (hc : x.stripeCustomerId = some c) : c ∈ knownIds w :=
  List.mem_append_right _ (List.mem_filterMap.2 ⟨x, hx, hc⟩)

/-- How the written row `y` comes to hold `c`. -/
inductive LinkSource (lib : Lib) (w₀ : World) (actor : Option Nat) (q : Request) (w : World) (y : UserRow)
    (c : String) : Prop
  | kept {x : UserRow} (hx : x ∈ w.db.users.rows) (hid : x.id = y.id) (hc : x.stripeCustomerId = some c)
  | named (hw : w.db = w₀.db) (hc : q.names c) (ht : ∀ x, q.target w₀ actor = some x → x.id = y.id)
  | created (hw : w.db = w₀.db) (hc : CreatedFor lib w₀ y.id c)
  | imported {e : Event} {k : Customer} (hw : w.db = w₀.db) (hq : q = .webhooksStripe (some e))
    (he : EventType.imports e.type = true) (hk : Known w₀ k) (hid : k.id = e.object.id) (hc : k.id = c)
    (hnone : userOf w₀ k.id = none) (hv : importValid lib w₀.db.users k = false)

section LinkSource

variable {lib : Lib} {w₀ w : World} {actor : Option Nat} {q : Request} {c : String}

theorem updated_stripeCustomerId (lib : Lib) (users : Table UserRow) (r : UserRow) (p : UserPatch) :
    (updated lib users r p).stripeCustomerId = p.stripeCustomerId.getD r.stripeCustomerId := rfl

/-- The attributes from the parameters `P` leave the id or set the one that
`P` names. -/
theorem FromParams.link {P : UserParams} {p : UserPatch} {o : Option String} (hp : FromParams lib P p)
    (h : p.stripeCustomerId.getD o = some c) : o = some c ∨ P.stripeCustomerId = some (some c) := by
  obtain ⟨role, -, rfl⟩ := hp
  obtain ⟨digest, hpatch⟩ := patch_eq lib P role
  simp only [hpatch] at h
  cases hs : P.stripeCustomerId with
  | none => rw [hs] at h; exact .inl h
  | some s => rw [hs] at h; exact .inr (congrArg some h)

theorem NewUser.link {m : UserRow} {a : PasswordAttrs} {t : Table UserRow} {c' : String}
    (hnew : NewUser lib w₀ m a q) (hw : w.db = w₀.db) (ht : w.db.users.insert (insertedRow w m) = some t)
    (hv : validUser lib t (some (insertedRow w m).id) (updated lib t (insertedRow w m) (linkPatch c')) a = false)
    (hc : m.stripeCustomerId = some c) : LinkSource lib w₀ actor q w (insertedRow w m) c := by
  have hparams : ∀ {P : UserParams} {p : UserPatch}, FromParams lib P p →
      m = beforeValidation lib w₀.db.users none (p.apply newUser) → P.stripeCustomerId = some (some c) := by
    rintro P p hp rfl
    exact (hp.link hc).resolve_left fun h => by cases h
  cases hnew with
  | signedUp hp hm _ => exact .named hw ⟨_, rfl, hparams hp hm⟩ fun x hx => by cases hx
  | added hp hm _ => exact .named hw ⟨_, rfl, hparams hp hm⟩ fun x hx => by cases hx
  | imported he hk hid hnone hm ha =>
    subst ha
    rw [← hw] at hm
    subst hm
    refine .imported hw rfl he hk hid (Option.some.inj hc) hnone ?_
    rw [← hw, ← validUser_link lib c' ht]
    exact hv

theorem Assigned.link {r : UserRow} {p : UserPatch} (hby : Assigned lib w₀ actor r p q) (hr : r ∈ w.db.users.rows)
    (hw : w.db = w₀.db ∨ SecretsOnly p) {y : UserRow} (hid : r.id = y.id)
    (hc : p.stripeCustomerId.getD r.stripeCustomerId = some c) : LinkSource lib w₀ actor q w y c := by
  have hsecrets : SecretsOnly p → LinkSource lib w₀ actor q w y c := by
    intro hp
    rw [hp.stripeCustomerId] at hc
    exact .kept hr hid hc
  -- attributes from the parameters are assigned to the target of the request
  have hparams : ∀ {P P' : UserParams}, FromParams lib P' p → P'.stripeCustomerId = P.stripeCustomerId →
      q.userParams = some P → q.target w₀ actor = some r → LinkSource lib w₀ actor q w y c := by
    intro P P' hp hsame hq ht
    rcases hw with hw | hw
    · rcases hp.link hc with h | h
      · exact .kept hr hid h
      · exact .named hw ⟨P, hq, hsame ▸ h⟩ fun x hx => by rw [← Option.some.inj (ht.symm.trans hx)]; exact hid
    · exact hsecrets hw
  cases hby with
  | @account pw P hme hp =>
    refine hparams (P := P) hp ?_ rfl hme
    unfold dropBlankPassword
    split <;> rfl
  | byId hr' hp => exact hparams hp rfl rfl hr'
  | deviseReset hp => exact hsecrets hp
  | reset hp => exact hsecrets hp

theorem RowWrite.link {y : UserRow} (h : RowWrite lib w₀ actor q w y) (hc : y.stripeCustomerId = some c) :
    LinkSource lib w₀ actor q w y c := by
  cases h with
  | unlinked hnew hw ht hv => exact hnew.link hw ht hv hc
  | @linked m a t c' hnew hw ht hfresh hv =>
    rw [written_stripeCustomerId] at hc
    cases hc
    refine .created hw.1 ⟨congrArg (fun db => db.users.nextId) hw.1, insertedRow w m, t, hw.1 ▸ ht, ?_⟩
    rw [hfresh]
    unfold newCustomer knownIds
    simp only [setUsers_stripe, setUsers_users, hw.2]
  | updated hr hby hw hv =>
    rw [written_stripeCustomerId, updated_stripeCustomerId] at hc
    exact hby.link hr hw rfl hc
  | digested hr =>
    rw [written_stripeCustomerId] at hc
    exact .kept hr rfl hc
  | overwritten hq he hk hid hr hw =>
    rw [written_stripeCustomerId] at hc
    obtain ⟨hmem, -⟩ := mem_of_userOf hr
    rw [← hw] at hmem
    exact .kept hmem rfl hc
  | issued hr hv =>
    rw [written_stripeCustomerId, updated_stripeCustomerId] at hc
    exact .kept hr rfl hc

end LinkSource

/-! ## Unique ids -/

def UniqueLinks (db : Db) : Prop :=
  ∀ a ∈ db.users.rows, ∀ b ∈ db.users.rows, ∀ c, a.stripeCustomerId = some c → b.stripeCustomerId = some c → a = b

/-- Of the rows that hold an id the request names, there is only the one it
is assigned to. -/
def NamesFree (w : World) : Label → Prop
  | .call call => ∀ c, call.req.names c → ∀ x ∈ w.db.users.rows, x.stripeCustomerId = some c →
    call.req.target w call.actor = some x
  | _ => True

/-- The request names no id that the row it is assigned to does not hold, and
a customer that it imports as a new user is valid. -/
def NamesOwn (lib : Lib) (w : World) : Label → Prop
  | .call call =>
    (∀ c, call.req.names c → ∃ x, call.req.target w call.actor = some x ∧ x.stripeCustomerId = some c) ∧
    ∀ e k, call.req = .webhooksStripe (some e) → EventType.imports e.type = true → Known w k → k.id = e.object.id →
      userOf w k.id = none → importValid lib w.db.users k = true
  | _ => True

/-- Somebody else's row does not hold what a written row holds. -/
theorem LinkSource.unique {lib : Lib} {w₀ w : World} {actor : Option Nat} {q : Request} {y b : UserRow} {c : String}
    (h : LinkSource lib w₀ actor q w y c) (hu : UniqueLinks w.db)
    (hfree : ∀ c, q.names c → ∀ x ∈ w₀.db.users.rows, x.stripeCustomerId = some c → q.target w₀ actor = some x)
    (hb : b ∈ w.db.users.rows) (hc : b.stripeCustomerId = some c) : b.id = y.id := by
  cases h with
  | kept hx hid hx' => rw [hu b hb _ hx c hc hx', hid]
  | named hw hn ht => exact ht b (hfree c hn b (hw ▸ hb) hc)
  | created hw hn => exact absurd (mem_knownIds (hw ▸ hb) hc) hn.fresh
  | imported hw _ _ _ _ hk hnone _ =>
    rw [hk] at hnone
    exact absurd hc (userOf_eq_none_iff.1 hnone b (hw ▸ hb))

theorem Effect.uniqueLinks {lib : Lib} {w₀ w w' : World} {actor : Option Nat} {q : Request}
    (he : Effect lib w₀ actor q w w') (hu : UniqueLinks w.db)
    (hfree : ∀ c, q.names c → ∀ x ∈ w₀.db.users.rows, x.stripeCustomerId = some c → q.target w₀ actor = some x) :
    UniqueLinks w'.db := by
  rcases he.rows with hrows | ⟨y, hy, hrows⟩
  · exact fun a ha b hb => hu a (hrows a ha) b (hrows b hb)
  · have hunique := hrows.unique (S := fun a b => ∃ c, a.stripeCustomerId = some c ∧ b.stripeCustomerId = some c)
      (fun ⟨c, ha, hb⟩ => ⟨c, hb, ha⟩) (fun a ha b hb ⟨c, hac, hbc⟩ => hu a ha b hb c hac hbc)
      (fun b hb hne ⟨c, hbc, hyc⟩ => hne ((hy.link hyc).unique hu hfree hb hbc))
    exact fun a ha b hb c hac hbc => hunique a ha b hb ⟨c, hac, hbc⟩

/-! ## Attribution -/

def Linked (db : Db) (u : Nat) (c : String) : Prop :=
  ∃ r ∈ db.users.rows, r.id = u ∧ r.stripeCustomerId = some c

/-- A call that links a user to `c` created `c` for them. -/
theorem linked_serve {lib : Lib} {w : World} {call : Call} (hown : NamesOwn lib w (.call call)) {u : Nat}
    {c : String} (h : Linked (serve lib w call).db u c) : Linked w.db u c ∨ CreatedFor lib w u c := by
  refine serve_keeps (I := fun x => ∀ u, Linked x.db u c → Linked w.db u c ∨ CreatedFor lib w u c)
    (fun a b he hI u hu => ?_) (fun u hu => .inl hu) u h
  obtain ⟨r, hr, rfl, hc⟩ := hu
  rcases he.rows with hrows | ⟨y, hy, hrows⟩
  · exact hI _ ⟨r, hrows r hr, rfl, hc⟩
  · rcases hrows r hr with rfl | ⟨hr, -⟩
    · cases hy.link hc with
      | kept hx hid hx' => exact hI _ ⟨_, hx, hid, hx'⟩
      | named hw hn ht =>
        obtain ⟨x, hx, hxc⟩ := hown.1 c hn
        exact .inl ⟨x, mem_of_target hx, ht x hx, hxc⟩
      | created hw hn => exact .inr hn
      | imported hw hq himp hk hid _ hnone hv =>
        have hvalid := hown.2 _ _ hq himp ⟨hk.found, hk.live⟩ hid hnone
        cases hv.symm.trans hvalid
    · exact hI _ ⟨r, hr, rfl, hc⟩

/-! ## Runs -/

theorem UniqueLinks.step {lib : Lib} {a b : World} {l : Label} (hu : UniqueLinks a.db) (hfree : NamesFree a l)
    (hs : (system lib).step a l b) : UniqueLinks b.db := by
  refine step_keeps hs (fun c hc _ _ he hu => ?_) hu
  subst hc
  exact he.uniqueLinks hu hfree

/-- The only row that holds the id of the target is the target. -/
theorem NamesOwn.free {lib : Lib} {w : World} {l : Label} (hown : NamesOwn lib w l) (hu : UniqueLinks w.db) :
    NamesFree w l := by
  cases l with
  | call call =>
    intro c hc x hx hxc
    obtain ⟨y, hy, hyc⟩ := hown.1 c hc
    rw [hy, hu y (mem_of_target hy) x hx c hyc hxc]
  | tick n => trivial
  | account s => trivial

theorem customer_links (lib : Lib) (w₀ w : World) (ls : List Label) (h₀ : UniqueLinks w₀.db)
    (h : ((system lib).guard (NamesOwn lib)).Run w₀ ls w) :
    UniqueLinks w.db ∧ ∀ c r, userOf w c = some r → Linked w₀.db r.id c ∨
      ∃ a call b, ((system lib).guard (NamesOwn lib)).StepOf w₀ ls w a (.call call) b ∧
        ¬ Linked a.db r.id c ∧ Linked b.db r.id c ∧ CreatedFor lib a r.id c := by
  refine ⟨?_, fun c r hr => or_iff_not_imp_left.2 fun hn => ?_⟩
  · refine h.keeps (I := fun x => UniqueLinks x.db) (fun a l b hu hs => ?_) h₀
    exact hu.step (hs.2.free hu) hs.1
  · obtain ⟨hm, hc⟩ := mem_of_userOf hr
    obtain ⟨a, l, b, hstep, hna, hb⟩ := h.exists_step (P := fun x => Linked x.db r.id c) hn ⟨r, hm, rfl, hc⟩
    obtain ⟨hs, hown⟩ := hstep.step
    rcases step_cases hs with ⟨call, rfl, rfl⟩ | hdb
    · exact ⟨a, call, _, hstep, hna, hb, (linked_serve hown hb).resolve_left hna⟩
    · rw [hdb] at hb
      exact absurd hb hna

/-! ## Two users -/

/-- A second user signs up, and sets the customer id of the account. -/
def secondSignUp : Call :=
  ⟨none, .signUp
    { username := some (some "mallory"), email := some (some "mallory@example.com"),
      password := some "password", passwordConfirmation := some "password" }, []⟩

def setsCustomer (c : String) : Call := ⟨some 2, .accountUpdate "password" { stripeCustomerId := some (some c) }, []⟩

def secondUser (c : String) : List Label := [.tick 10, .call secondSignUp, .call (setsCustomer c)]

def afterSignUp : World := next plainLib (next plainLib shop (.tick 10)) (.call secondSignUp)

/-- The id that the sign-up stored. -/
def secondId : String := "cus_xxxxxxxxxxx"

theorem shop_uniqueLinks : UniqueLinks shop.db := by
  intro a ha b hb _ _ _
  rw [List.mem_singleton.1 ha, List.mem_singleton.1 hb]

theorem second_user_keeps_links :
    UniqueLinks shop.db ∧
    ((system plainLib).guard (NamesOwn plainLib)).Run shop (secondUser secondId)
      (next plainLib afterSignUp (.call (setsCustomer secondId))) ∧
    (userOf (next plainLib afterSignUp (.call (setsCustomer secondId))) secondId).map UserRow.id = some 2 ∧
    UniqueLinks (next plainLib afterSignUp (.call (setsCustomer secondId))).db := by
  have htarget : ((setsCustomer secondId).req.target afterSignUp (some 2)).map UserRow.stripeCustomerId =
      some (some secondId) := by decide
  have hrun : ((system plainLib).guard (NamesOwn plainLib)).Run shop (secondUser secondId)
      (next plainLib afterSignUp (.call (setsCustomer secondId))) := by
    refine .cons ⟨system_step.2 rfl, trivial⟩ (.cons ⟨system_step.2 rfl, ⟨?_, ?_⟩⟩
      (.cons ⟨system_step.2 rfl, ⟨?_, ?_⟩⟩ (.nil _)))
    · rintro c ⟨p, hp, hc⟩
      cases hp
      cases hc
    · intro e k he
      cases he
    · rintro c ⟨p, hp, hc⟩
      cases hp
      cases hc
      exact Option.map_eq_some_iff.1 htarget
    · intro e k he
      cases he
  exact ⟨shop_uniqueLinks, hrun, by decide, (customer_links plainLib _ _ _ shop_uniqueLinks hrun).1⟩

/-- The second user takes the first one's customer: events about it now go to
the second. -/
theorem takes_over_customer :
    UniqueLinks shop.db ∧ (userOf shop "cus_1").map UserRow.id = some 1 ∧
    (system plainLib).Run shop (secondUser "cus_1") (next plainLib afterSignUp (.call (setsCustomer "cus_1"))) ∧
    (userOf (next plainLib afterSignUp (.call (setsCustomer "cus_1"))) "cus_1").map UserRow.id = some 2 ∧
    ¬ UniqueLinks (next plainLib afterSignUp (.call (setsCustomer "cus_1"))).db := by
  refine ⟨shop_uniqueLinks, by decide, LTS.ofFn_run_iff.2 rfl, by decide, fun hu => ?_⟩
  have hids : (next plainLib afterSignUp (.call (setsCustomer "cus_1"))).db.users.rows.map
      (fun r => (r.id, r.stripeCustomerId)) = [(1, some "cus_1"), (2, some "cus_1")] := by decide
  generalize next plainLib afterSignUp (.call (setsCustomer "cus_1")) = w at hids hu
  have hmem : ∀ i, (i, some "cus_1") ∈ w.db.users.rows.map (fun r => (r.id, r.stripeCustomerId)) →
      ∃ r ∈ w.db.users.rows, r.id = i ∧ r.stripeCustomerId = some "cus_1" := by
    intro i hi
    obtain ⟨r, hr, he⟩ := List.mem_map.1 hi
    exact ⟨r, hr, congrArg Prod.fst he, congrArg Prod.snd he⟩
  obtain ⟨a, ha, ha1, hac⟩ := hmem 1 (by rw [hids]; decide)
  obtain ⟨b, hb, hb2, hbc⟩ := hmem 2 (by rw [hids]; decide)
  have hab := hu a ha b hb "cus_1" hac hbc
  rw [hab] at ha1
  omega

end Insta.Web
