import Insta.L4App.System

/-!
# The posting policy

What `Ability` is meant to say about posts, in terms of the rows alone:

* `MayPost`: an admin may post, and so may a user whose active subscription
  with the lowest id is for a plan that has room for one more post;
* `Owns`: a post is edited by its owner; an admin may delete it as well.

`posting_policy`: `authorize!` decides exactly that. Of the foreign keys it
takes the one from a subscription to its product: without the product the
name of the plan cannot be read.
-/
namespace Insta.Web

open Insta.Core Insta.Store Insta.Store.App Insta.Model Insta.Service

/-- `s` is the active subscription of `u` with the lowest id. -/
structure CurrentlyOn (db : Db) (u : Nat) (s : SubscriptionRow) : Prop where
  mem : s ∈ db.subscriptions.rows
  user : s.userId = u
  active : s.active = some true
  least : ∀ x ∈ db.subscriptions.rows, x.userId = u → x.active = some true → s.id ≤ x.id

/-- The plan named `name` lets a user who has `count` posts add one. -/
def PlanAllows (name : Option String) (count : Nat) : Prop :=
  name = some "#Infinite Posts" ∨
  ∃ k, (k = 2 ∨ k = 5 ∨ k = 10) ∧ name = some ("#" ++ toString k ++ " Posts") ∧ count < k

def AsAdmin (u : Option UserRow) : Prop := ∃ me, u = some me ∧ me.role = .admin

def MayPost (db : Db) (u : Option UserRow) : Prop :=
  AsAdmin u ∨ ∃ me s p, u = some me ∧ CurrentlyOn db me.id s ∧ p ∈ db.products.rows ∧ p.id = s.productId ∧
    PlanAllows p.name (db.posts.rows.countP fun x => x.userId == me.id)

def Owns (u : Option UserRow) (p : PostRow) : Prop := ∃ me, u = some me ∧ p.userId = me.id

/-! ## The plan of a user -/

theorem currentSubscription_eq_some_iff {db : Db} {u : Nat} {s : SubscriptionRow} :
    currentSubscription db u = some s ↔ CurrentlyOn db u s := by
  unfold currentSubscription
  simp only [Table.first_eq_some_iff, Bool.and_eq_true, beq_iff_eq, and_imp]
  exact ⟨fun ⟨hm, ⟨hu, ha⟩, hl⟩ => ⟨hm, hu, ha, hl⟩, fun h => ⟨h.mem, ⟨h.user, h.active⟩, h.least⟩⟩

theorem planOf_room_iff (name : Option String) (count : Nat) :
    (planOf name).room count = true ↔ PlanAllows name count := by
  have hupTo : ∀ k, (Plan.upTo k).room count = true ↔ count < k := fun k => by simp [Plan.room]
  constructor
  · intro h
    unfold planOf at h
    split at h
    · exact .inl ‹_›
    · split at h
      · exact .inr ⟨10, by simp, ‹_›, (hupTo 10).1 h⟩
      · split at h
        · exact .inr ⟨5, by simp, ‹_›, (hupTo 5).1 h⟩
        · split at h
          · exact .inr ⟨2, by simp, ‹_›, (hupTo 2).1 h⟩
          · cases h
  · rintro (rfl | ⟨k, hk, rfl, h⟩)
    · rfl
    · have hplan : planOf (some ("#" ++ toString k ++ " Posts")) = .upTo k := by
        rcases hk with rfl | rfl | rfl <;> decide
      rw [hplan]
      exact (hupTo k).2 h

/-- The rules of a user who is no admin: the base rules and those of a plan,
which has room exactly when the policy says so. -/
theorem ability_of_not_admin {db : Db} (hlink : ∀ s ∈ db.subscriptions.rows, db.products.Has s.productId)
    {u : Option UserRow} (hu : ¬ AsAdmin u) : ∃ plan count,
      ability db u = .ok (baseRules u ++ planRules plan count) ∧ (plan.room count = true ↔ MayPost db u) := by
  cases u with
  | none => exact ⟨.unknown, 0, rfl, by simp [Plan.room, MayPost, AsAdmin]⟩
  | some me =>
    have hrole : me.role ≠ .admin := fun h => hu ⟨me, rfl, h⟩
    unfold ability subscriptionRules
    simp only [if_neg hrole]
    cases hs : currentSubscription db me.id with
    | none =>
      refine ⟨.unknown, 0, by simp [planRules], iff_of_false (by simp [Plan.room]) ?_⟩
      rintro (hadmin | ⟨_, s, _, he, hon, -⟩)
      · exact hu hadmin
      · cases he
        cases hs.symm.trans (currentSubscription_eq_some_iff.2 hon)
    | some s =>
      obtain ⟨p, hp, hid⟩ := hlink s (currentSubscription_eq_some_iff.1 hs).mem
      have hplan : currentPlan db s = .ok (planOf p.name) := by
        unfold currentPlan
        rw [show db.products.find s.productId = some p from Table.find_eq_some_iff.2 ⟨hp, hid⟩]
      refine ⟨planOf p.name, postsCount db me.id, by simp only [hplan], ?_⟩
      rw [planOf_room_iff]
      constructor
      · exact fun h => .inr ⟨me, s, p, rfl, currentSubscription_eq_some_iff.1 hs, hp, hid, h⟩
      · rintro (hadmin | ⟨_, s', p', he, hon, hp', hid', h⟩)
        · exact absurd hadmin hu
        · cases he
          cases hs.symm.trans (currentSubscription_eq_some_iff.2 hon)
          rw [db.products.eq_of_rowId hp' hp (hid'.trans hid.symm)] at h
          exact h

/-! ## `authorize!` -/

theorem authorize_congr {w : World} {u : Option UserRow} {v v' : Verb} {s s' : Subject}
    (h : allowed w.db u v s = allowed w.db u v' s') : (authorize u v s).run w = (authorize u v' s').run w := by
  unfold authorize
  rw [Act.run_get_bind, Act.run_get_bind, h]

theorem authorize_fst_iff {w : World} {u : Option UserRow} {v : Verb} {s : Subject} :
    ((authorize u v s).run w).1 = .ok () ↔ allowed w.db u v s = .ok true := by
  rw [← authorize_ok_iff]
  exact ⟨fun h => Prod.ext h (authorize_snd u v s w), fun h => by rw [h]⟩

theorem posting_policy (w : World) (hlink : ∀ s ∈ w.db.subscriptions.rows, w.db.products.Has s.productId)
    (u : Option UserRow) (p : PostRow) :
    ((authorize u .new (.class_ .post)).run w = (authorize u .create (.class_ .post)).run w ∧
      (((authorize u .create (.class_ .post)).run w).1 = .ok () ↔ MayPost w.db u)) ∧
    ((authorize u .edit (.post p)).run w = (authorize u .update (.post p)).run w ∧
      (((authorize u .update (.post p)).run w).1 = .ok () ↔ Owns u p)) ∧
    (((authorize u .destroy (.post p)).run w).1 = .ok () ↔ Owns u p ∨ AsAdmin u) := by
  have howns : ∀ me : UserRow, (me.id == p.userId) = true ↔ Owns (some me) p := fun me =>
    ⟨fun h => ⟨me, rfl, (beq_iff_eq.1 h).symm⟩, fun ⟨_, he, h⟩ => by cases he; exact beq_iff_eq.2 h.symm⟩
  simp only [authorize_fst_iff]
  by_cases hu : AsAdmin u
  · obtain ⟨me, rfl, hrole⟩ := hu
    have hadmin : AsAdmin (some me) := ⟨me, rfl, hrole⟩
    have hrules : ∀ v s, allowed w.db (some me) v s = can (adminRules me) v s := fun v s => by
      simp [allowed, ability, hrole]
    refine ⟨⟨authorize_congr ?_, ?_⟩, ⟨authorize_congr ?_, ?_⟩, ?_⟩
    · rw [hrules, hrules]
      rfl
    · rw [hrules]
      exact iff_of_true rfl (.inl hadmin)
    · rw [hrules, hrules, can_admin_edit_post (.inl rfl), can_admin_edit_post (.inr rfl)]
    · rw [hrules, can_admin_edit_post (.inr rfl), Except.ok.injEq, howns]
    · rw [hrules, can_admin_destroy_post]
      exact iff_of_true rfl (.inr hadmin)
  · obtain ⟨plan, count, hability, hroom⟩ := ability_of_not_admin hlink hu
    have hrules : ∀ v s, allowed w.db u v s = can (baseRules u ++ planRules plan count) v s := fun v s => by
      simp [allowed, hability]
    have hany : u.any (·.id == p.userId) = true ↔ Owns u p := by
      cases u with
      | none => simp [Owns]
      | some me => exact howns me
    refine ⟨⟨authorize_congr ?_, ?_⟩, ⟨authorize_congr ?_, ?_⟩, ?_⟩
    · rw [hrules, hrules, can_create_planRules (.inl rfl), can_create_planRules (.inr rfl)]
    · rw [hrules, can_create_planRules (.inr rfl), Except.ok.injEq, hroom]
    · rw [hrules, hrules, can_change_post (.inl rfl), can_change_post (.inr (.inl rfl))]
    · rw [hrules, can_change_post (.inr (.inl rfl)), Except.ok.injEq, hany]
    · rw [hrules, can_change_post (.inr (.inr rfl)), Except.ok.injEq, hany, or_iff_left hu]

/-! ## Alice on a plan for two posts -/

def onTwoPosts : World :=
  ((syncSubscriptionFromStripe ⟨"sub_1", "cus_1", some ["prod_2"], "active"⟩).run shop).2

theorem alice_may_post :
    (∀ s ∈ onTwoPosts.db.subscriptions.rows, onTwoPosts.db.products.Has s.productId) ∧
    MayPost onTwoPosts.db (some aliceRow) ∧ Owns (some aliceRow) firstPost ∧
    ((authorize (some bobRow) .destroy (.post firstPost)).run onTwoPosts).1 ≠ .ok () := by
  have hlink : ∀ s ∈ onTwoPosts.db.subscriptions.rows, onTwoPosts.db.products.Has s.productId := by
    simp only [Table.has_iff_find]
    decide
  have halice := posting_policy onTwoPosts hlink (some aliceRow) firstPost
  refine ⟨hlink, halice.1.2.1 (by decide), halice.2.1.2.1 (by decide), ?_⟩
  rw [ne_eq, (posting_policy onTwoPosts hlink (some bobRow) firstPost).2.2]
  rintro (⟨me, he, hid⟩ | ⟨me, he, hrole⟩) <;> cases he
  · cases hid
  · cases hrole

end Insta.Web
