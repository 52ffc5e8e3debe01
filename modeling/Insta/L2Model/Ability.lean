import Insta.L2Model.Content

/-!
# `Ability`: who may do what

`app/models/ability.rb` as the list of rules it declares, and the part of
CanCan that reads them: later rules are tried first, `:manage` covers every
action, `:read`, `:create` and `:update` cover their aliases, and a rule's
block is asked about records only (a class passes).

`allowed_create_iff`: a non-admin may create posts exactly when the plan of the
current subscription leaves room for one more.
-/
namespace Insta.Model

open Insta.Core Insta.Store

/-- Action names, with the two CanCan names that cover several. -/
inductive Verb
  | index | show_ | new | create | edit | update | destroy | userIndex | deleteAvtar
  | read | manage
  deriving DecidableEq, Repr

/-- The rule `v` is relevant for the action `asked`: CanCan's default
aliases. -/
def Verb.covers : Verb → Verb → Bool
  | .manage, _ => true
  | .read, .index | .read, .show_ => true
  | .create, .new => true
  | .update, .edit => true
  | v, asked => v == asked

inductive Kind
  | user | profile | post
  deriving DecidableEq, Repr

/-- What `authorize!` is asked about: a class or a record of it. -/
inductive Subject
  | class_ (k : Kind)
  | user (r : UserRow)
  | profile (r : ProfileRow)
  | post (r : PostRow)
  deriving DecidableEq, Repr

def Subject.kind : Subject → Kind
  | .class_ k => k
  | .user _ => .user
  | .profile _ => .profile
  | .post _ => .post

/-- `can verbs, Kind [do |record| ... end]`. -/
structure Rule where
  verbs : List Verb
  kind : Kind
  block : Option (Subject → Except Raise Bool) := none

def Rule.relevant (r : Rule) (v : Verb) (s : Subject) : Bool :=
  r.kind == s.kind && r.verbs.any (·.covers v)

/-- A block is not asked about a class. -/
def Rule.holds (r : Rule) (s : Subject) : Except Raise Bool :=
  match r.block, s with
  | none, _ => .ok true
  | some _, .class_ _ => .ok true
  | some b, s => b s

/-- The first relevant rule that holds decides; every rule here is a `can`. -/
def detect (v : Verb) (s : Subject) : List Rule → Except Raise Bool
  | [] => .ok false
  | r :: rs =>
    if r.relevant v s then
      match r.holds s with
      | .error e => .error e
      | .ok true => .ok true
      | .ok false => detect v s rs
    else detect v s rs

def can (rules : List Rule) (v : Verb) (s : Subject) : Except Raise Bool := detect v s rules.reverse

/-- `record.user == user`; a guest is no record's user. -/
def ownedBy (u : Option UserRow) : Subject → Except Raise Bool
  | .profile r => .ok (u.any (·.id == r.userId))
  | .post r => .ok (u.any (·.id == r.userId))
  | _ => .error .noMethodError

/-- mirrors app/models/ability.rb:10-23 -/
def adminRules (u : UserRow) : List Rule :=
  [ { verbs := [.read], kind := .user },
    { verbs := [.destroy], kind := .user },
    { verbs := [.userIndex], kind := .user },
    { verbs := [.new], kind := .user },
    { verbs := [.edit], kind := .user },
    { verbs := [.manage], kind := .profile, block := some (ownedBy (some u)) },
    { verbs := [.destroy], kind := .post },
    { verbs := [.manage], kind := .post, block := some (ownedBy (some u)) } ]

/-- The rules every non-admin has. The first block calls `user` on a user.
mirrors app/models/ability.rb:26-40 -/
def baseRules (u : Option UserRow) : List Rule :=
  [ { verbs := [.destroy], kind := .user, block := some fun _ => .error .noMethodError },
    { verbs := [.manage], kind := .profile, block := some (ownedBy u) },
    { verbs := [.read], kind := .post },
    { verbs := [.edit, .update, .destroy], kind := .post, block := some (ownedBy u) } ]

/-- How many posts a plan allows; `none` when it has no bound. A name the
`case` does not list gives no permission at all.
mirrors app/models/ability.rb:45-54 -/
inductive Plan
  | unlimited
  | upTo (n : Nat)
  | unknown
  deriving DecidableEq, Repr

def planOf (name : Option String) : Plan :=
  if name = some "#Infinite Posts" then .unlimited
  else if name = some "#10 Posts" then .upTo 10
  else if name = some "#5 Posts" then .upTo 5
  else if name = some "#2 Posts" then .upTo 2
  else .unknown

/-- The rule the plan adds for a user with `count` posts. -/
def planRules (plan : Plan) (count : Nat) : List Rule :=
  match plan with
  | .unlimited => [{ verbs := [.create], kind := .post }]
  | .upTo n => if count < n then [{ verbs := [.new, .create], kind := .post }] else []
  | .unknown => []

/-- `user_subscription.product.name`; a subscription without its product
row raises. -/
def currentPlan (db : Db) (s : SubscriptionRow) : Except Raise Plan :=
  match db.products.find s.productId with
  | none => .error .noMethodError
  | some p => .ok (planOf p.name)

/-- mirrors app/models/ability.rb:42-54 -/
def subscriptionRules (db : Db) (u : UserRow) : Except Raise (List Rule) :=
  match currentSubscription db u.id with
  | none => .ok []
  | some s =>
    match currentPlan db s with
    | .error e => .error e
    | .ok plan => .ok (planRules plan (postsCount db u.id))

/-- `Ability.new(user)`; a guest has no subscriptions.
mirrors app/models/ability.rb:6-56 -/
def ability (db : Db) : Option UserRow → Except Raise (List Rule)
  | none => .ok (baseRules none)
  | some u =>
    if u.role = .admin then .ok (adminRules u)
    else
      match subscriptionRules db u with
      | .error e => .error e
      | .ok rules => .ok (baseRules (some u) ++ rules)

/-- `can?` of the current user. -/
def allowed (db : Db) (u : Option UserRow) (v : Verb) (s : Subject) : Except Raise Bool :=
  match ability db u with
  | .error e => .error e
  | .ok rules => can rules v s

/-- `authorize!`. -/
def authorize (u : Option UserRow) (v : Verb) (s : Subject) : App Unit := do
  let w ← Act.get
  match allowed w.db u v s with
  | .ok true => pure ()
  | .ok false => Act.raise .accessDenied
  | .error e => Act.raise e

theorem authorize_snd (u : Option UserRow) (v : Verb) (s : Subject) (w : World) :
    ((authorize u v s).run w).2 = w := by
  unfold authorize; rw [Act.run_get_bind]; split <;> rfl

theorem authorize_ok_iff {u : Option UserRow} {v : Verb} {s : Subject} {w : World} :
    (authorize u v s).run w = (.ok (), w) ↔ allowed w.db u v s = .ok true := by
  unfold authorize
  rw [Act.run_get_bind]
  split <;> simp_all

/-! ## The posting permission -/

/-- The plan leaves room for one more post. -/
def Plan.room : Plan → Nat → Bool
  | .unlimited, _ => true
  | .upTo n, count => count < n
  | .unknown, _ => false

/-- Of the rules a non-admin has, only the plan's own lets a post be
created. -/
theorem can_create_planRules {v : Verb} (hv : v = .new ∨ v = .create) (u : Option UserRow) (plan : Plan)
    (count : Nat) :
    can (baseRules u ++ planRules plan count) v (.class_ .post) = .ok (plan.room count) := by
  cases plan with
  | unlimited => rcases hv with rfl | rfl <;> rfl
  | unknown => rcases hv with rfl | rfl <;> rfl
  | upTo n =>
    by_cases h : count < n
    · simp only [planRules, Plan.room, h, decide_true]
      rcases hv with rfl | rfl <;> rfl
    · simp only [planRules, Plan.room, h, decide_false]
      rcases hv with rfl | rfl <;> rfl

theorem allowed_create_iff {db : Db} {u : UserRow} (hu : u.role ≠ .admin) :
    allowed db (some u) .create (.class_ .post) = .ok true ↔ ∃ s plan,
      currentSubscription db u.id = some s ∧ currentPlan db s = .ok plan ∧
      plan.room (postsCount db u.id) = true := by
  unfold allowed ability
  simp only [if_neg hu]
  unfold subscriptionRules
  cases hs : currentSubscription db u.id with
  | none =>
    have hbase : can (baseRules (some u)) .create (.class_ .post) = .ok false := rfl
    simp [hbase]
  | some s =>
    cases hp : currentPlan db s with
    | error e => simp [hp]
    | ok plan => simp [hp, can_create_planRules (.inr rfl)]

/-! ## Who may change a post -/

/-- The subscription adds nothing but a posting permission. -/
theorem subscriptionRules_ok {db : Db} {u : UserRow} {rules : List Rule}
    (h : subscriptionRules db u = .ok rules) : ∃ plan count, rules = planRules plan count := by
  unfold subscriptionRules at h
  split at h
  · cases h
    exact ⟨.unknown, 0, rfl⟩
  · split at h
    · cases h
    · cases h
      exact ⟨_, _, rfl⟩

theorem subscriptionRules_error {db : Db} {u : UserRow} {e : Raise} (h : subscriptionRules db u = .error e) :
    e = .noMethodError := by
  unfold subscriptionRules currentPlan at h
  split at h
  · cases h
  · cases hp : db.products.find _ with
    | none => rw [hp] at h; cases h; rfl
    | some p => rw [hp] at h; cases h

/-- Changing a post is for its owner, whatever the plan. -/
theorem can_change_post {v : Verb} (hv : v = .edit ∨ v = .update ∨ v = .destroy) (u : Option UserRow) (r : PostRow)
    (plan : Plan) (count : Nat) :
    can (baseRules u ++ planRules plan count) v (.post r) = .ok (u.any (·.id == r.userId)) := by
  have hplan : can (baseRules u ++ planRules plan count) v (.post r) = can (baseRules u) v (.post r) := by
    cases plan with
    | unlimited => rcases hv with rfl | rfl | rfl <;> rfl
    | unknown => simp [planRules]
    | upTo n =>
      by_cases h : count < n
      · simp only [planRules, if_pos h]
        rcases hv with rfl | rfl | rfl <;> rfl
      · simp [planRules, h]
  rw [hplan]
  rcases hv with rfl | rfl | rfl <;> cases h : u.any (·.id == r.userId) <;>
    simp [can, baseRules, detect, Rule.relevant, Rule.holds, Verb.covers, Subject.kind, ownedBy, h]

/-- An admin edits no one else's. -/
theorem can_admin_edit_post {v : Verb} (hv : v = .edit ∨ v = .update) (u : UserRow) (r : PostRow) :
    can (adminRules u) v (.post r) = .ok (u.id == r.userId) := by
  rcases hv with rfl | rfl <;> cases h : u.id == r.userId <;>
    simp [can, adminRules, detect, Rule.relevant, Rule.holds, Verb.covers, Subject.kind, ownedBy, h]

/-- But destroys any. -/
theorem can_admin_destroy_post (u : UserRow) (r : PostRow) : can (adminRules u) .destroy (.post r) = .ok true := by
  cases h : u.id == r.userId <;>
    simp [can, adminRules, detect, Rule.relevant, Rule.holds, Verb.covers, Subject.kind, ownedBy, h]

/-- The rules a permission comes from. -/
theorem allowed_cases {db : Db} {u : UserRow} {v : Verb} {s : Subject}
    (h : allowed db (some u) v s = .ok true) :
    (u.role = .admin ∧ can (adminRules u) v s = .ok true) ∨
    ∃ plan count, can (baseRules (some u) ++ planRules plan count) v s = .ok true := by
  unfold allowed ability at h
  by_cases hadmin : u.role = .admin
  · simp only [if_pos hadmin] at h
    exact .inl ⟨hadmin, h⟩
  · simp only [if_neg hadmin] at h
    cases hsub : subscriptionRules db u with
    | error e => rw [hsub] at h; cases h
    | ok rules =>
      obtain ⟨plan, count, rfl⟩ := subscriptionRules_ok hsub
      rw [hsub] at h
      exact .inr ⟨plan, count, h⟩

theorem owner_of_allowed_update {db : Db} {u : UserRow} {r : PostRow}
    (h : allowed db (some u) .update (.post r) = .ok true) : r.userId = u.id := by
  rcases allowed_cases h with ⟨-, hcan⟩ | ⟨plan, count, hcan⟩
  · rw [can_admin_edit_post (.inr rfl)] at hcan
    exact (beq_iff_eq.1 (Except.ok.inj hcan)).symm
  · rw [can_change_post (.inr (.inl rfl))] at hcan
    exact (beq_iff_eq.1 (Except.ok.inj hcan)).symm

theorem owner_or_admin_of_allowed_destroy {db : Db} {u : UserRow} {r : PostRow}
    (h : allowed db (some u) .destroy (.post r) = .ok true) : r.userId = u.id ∨ u.role = .admin := by
  rcases allowed_cases h with ⟨hadmin, -⟩ | ⟨plan, count, hcan⟩
  · exact .inr hadmin
  · rw [can_change_post (.inr (.inr rfl))] at hcan
    exact .inl (beq_iff_eq.1 (Except.ok.inj hcan)).symm

/-- Of the subscriptions only the current one's product counts. -/
theorem allowed_congr {db db' : Db} {u : UserRow} (hproducts : db'.products = db.products)
    (hposts : db'.posts = db.posts)
    (hcurrent : (currentSubscription db' u.id).map SubscriptionRow.productId =
      (currentSubscription db u.id).map SubscriptionRow.productId) (v : Verb) (s : Subject) :
    allowed db' (some u) v s = allowed db (some u) v s := by
  have hrules : subscriptionRules db' u = subscriptionRules db u := by
    unfold subscriptionRules
    have hplan : ∀ r' r, r'.productId = r.productId → currentPlan db' r' = currentPlan db r := by
      intro r' r h
      unfold currentPlan
      rw [h, hproducts]
    have hcount : postsCount db' u.id = postsCount db u.id := by unfold postsCount; rw [hposts]
    cases hc : currentSubscription db u.id with
    | none =>
      rw [hc] at hcurrent
      rw [Option.map_eq_none_iff.1 hcurrent]
    | some r =>
      rw [hc] at hcurrent
      obtain ⟨r', hc', hr'⟩ := Option.map_eq_some_iff.1 hcurrent
      simp only [hc', hplan r' r hr', hcount]
  unfold allowed ability
  simp only [hrules]

end Insta.Model
