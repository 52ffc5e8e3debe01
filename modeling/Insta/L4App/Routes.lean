import Insta.Core.Router
import Insta.L4App.System

/-!
# The routes

config/routes.rb with the routes `devise_for :users` draws, in their order.
The mounted engines (Sidekiq, Letter Opener, Active Storage) have paths of
their own and are left out.

Devise's routes come before `/users/:id`, so some words are taken where a
user's slug stands in the path: the page of a user called `sign_in` is the
sign-in form, and deleting the user `sign_out` signs the admin out. `new` is
taken for posts and tags.

* `route_round_trip`: the path of a route with an id leads to that action
  with that id, and with the format it was written with, exactly when the
  id is none of the words `shadowedIds` lists for the action. Ids and formats
  are plain ones, of letters, digits, `-` and `_`: in any other the path is
  escaped, and a dot begins a format.
-/
namespace Insta.Web

open Insta.Core Insta.Core.Router

inductive Method
  | get | post | put | patch | delete
  deriving DecidableEq, Repr

/-- `controller#action`. -/
inductive Action
  | passwordsEdit | passwordsUpdate
  | webhooksStripe
  | discourseSsoSso
  | subscriptionsIndex | subscriptionsCreate | subscriptionsDestroy
  | sessionsNew | sessionsCreate | sessionsDestroy
  | devisePasswordsNew | devisePasswordsEdit | devisePasswordsUpdate | devisePasswordsCreate
  | registrationsCancel | registrationsNew | registrationsEdit | registrationsUpdate | registrationsDestroy
  | registrationsCreate
  | usersIndex | usersUserIndex | usersNew | usersDashboard | usersShow | usersCreate | usersEdit | usersUpdate
  | usersDestroy | usersSettings
  | profilesNew | profilesShow | profilesCreate | profilesEdit | profilesUpdate | profilesDestroy
  | profilesDeleteAvtar
  | postsNew | postsShow | postsCreate | postsEdit | postsUpdate | postsDestroy
  | tagsIndex | tagsNew | tagsShow | tagsCreate | tagsEdit | tagsUpdate | tagsDestroy
  | likesCreate | likesDestroy
  deriving DecidableEq, Repr

abbrev RouteTo := Route Method Action

/-- mirrors config/routes.rb:6-17 -/
def firstRoutes : List RouteTo :=
  [ ⟨.get, [.lit "passwords", .lit "edit"], .passwordsEdit⟩,
    ⟨.get, [.lit "passwords", .lit "update"], .passwordsUpdate⟩,
    ⟨.post, [.lit "webhooks", .lit "stripe"], .webhooksStripe⟩,
    ⟨.get, [.lit "discourse", .lit "sso"], .discourseSsoSso⟩,
    ⟨.get, [.lit "subscriptions"], .subscriptionsIndex⟩,
    ⟨.post, [.lit "subscriptions", .param], .subscriptionsCreate⟩,
    ⟨.delete, [.lit "subscriptions", .param], .subscriptionsDestroy⟩ ]

/-- `devise_for :users` with the modules of the model and
`config.sign_out_via = :delete`.
mirrors config/routes.rb:24, app/models/user.rb:5, config/initializers/devise.rb:269 -/
def deviseRoutes : List RouteTo :=
  [ ⟨.get, [.lit "users", .lit "sign_in"], .sessionsNew⟩,
    ⟨.post, [.lit "users", .lit "sign_in"], .sessionsCreate⟩,
    ⟨.delete, [.lit "users", .lit "sign_out"], .sessionsDestroy⟩,
    ⟨.get, [.lit "users", .lit "password", .lit "new"], .devisePasswordsNew⟩,
    ⟨.get, [.lit "users", .lit "password", .lit "edit"], .devisePasswordsEdit⟩,
    ⟨.patch, [.lit "users", .lit "password"], .devisePasswordsUpdate⟩,
    ⟨.put, [.lit "users", .lit "password"], .devisePasswordsUpdate⟩,
    ⟨.post, [.lit "users", .lit "password"], .devisePasswordsCreate⟩,
    ⟨.get, [.lit "users", .lit "cancel"], .registrationsCancel⟩,
    ⟨.get, [.lit "users", .lit "sign_up"], .registrationsNew⟩,
    ⟨.get, [.lit "users", .lit "edit"], .registrationsEdit⟩,
    ⟨.patch, [.lit "users"], .registrationsUpdate⟩,
    ⟨.put, [.lit "users"], .registrationsUpdate⟩,
    ⟨.delete, [.lit "users"], .registrationsDestroy⟩,
    ⟨.post, [.lit "users"], .registrationsCreate⟩ ]

/-- mirrors config/routes.rb:26-40 -/
def userRoutes : List RouteTo :=
  [ ⟨.get, [.lit "passwords", .param, .lit "edit"], .passwordsEdit⟩,
    ⟨.patch, [.lit "passwords", .param], .passwordsUpdate⟩,
    ⟨.put, [.lit "passwords", .param], .passwordsUpdate⟩,
    ⟨.get, [], .usersIndex⟩,
    ⟨.get, [.lit "user_index"], .usersUserIndex⟩,
    ⟨.get, [.lit "user", .lit "new"], .usersNew⟩,
    ⟨.get, [.lit "dashboard"], .usersDashboard⟩,
    ⟨.get, [.lit "users", .param], .usersShow⟩,
    ⟨.post, [.lit "user"], .usersCreate⟩,
    ⟨.get, [.lit "users", .param, .lit "edit"], .usersEdit⟩,
    ⟨.patch, [.lit "users", .param], .usersUpdate⟩,
    ⟨.delete, [.lit "users", .param], .usersDestroy⟩,
    ⟨.get, [.lit "dashboard", .lit "settings"], .usersSettings⟩ ]

/-- mirrors config/routes.rb:46-75 -/
def dashboardRoutes : List RouteTo :=
  [ ⟨.get, [.lit "dashboard", .lit "profile", .lit "new"], .profilesNew⟩,
    ⟨.get, [.lit "dashboard", .lit "profile"], .profilesShow⟩,
    ⟨.post, [.lit "dashboard", .lit "profile"], .profilesCreate⟩,
    ⟨.get, [.lit "dashboard", .lit "profile", .lit "edit"], .profilesEdit⟩,
    ⟨.patch, [.lit "dashboard", .lit "profile"], .profilesUpdate⟩,
    ⟨.delete, [.lit "dashboard", .lit "profile"], .profilesDestroy⟩,
    ⟨.delete, [.lit "dashboard", .lit "profile", .lit "avtar"], .profilesDeleteAvtar⟩,
    ⟨.get, [.lit "dashboard", .lit "posts", .lit "new"], .postsNew⟩,
    ⟨.get, [.lit "dashboard", .lit "posts", .param], .postsShow⟩,
    ⟨.post, [.lit "dashboard", .lit "posts"], .postsCreate⟩,
    ⟨.get, [.lit "dashboard", .lit "posts", .param, .lit "edit"], .postsEdit⟩,
    ⟨.patch, [.lit "dashboard", .lit "posts", .param], .postsUpdate⟩,
    ⟨.delete, [.lit "dashboard", .lit "posts", .param], .postsDestroy⟩,
    ⟨.get, [.lit "dashboard", .lit "tags"], .tagsIndex⟩,
    ⟨.get, [.lit "dashboard", .lit "tags", .lit "new"], .tagsNew⟩,
    ⟨.get, [.lit "dashboard", .lit "tags", .param], .tagsShow⟩,
    ⟨.post, [.lit "dashboard", .lit "tags"], .tagsCreate⟩,
    ⟨.get, [.lit "dashboard", .lit "tags", .param, .lit "edit"], .tagsEdit⟩,
    ⟨.patch, [.lit "dashboard", .lit "tags", .param], .tagsUpdate⟩,
    ⟨.delete, [.lit "dashboard", .lit "tags", .param], .tagsDestroy⟩,
    ⟨.post, [.lit "dashboard", .lit "likes"], .likesCreate⟩,
    ⟨.delete, [.lit "dashboard", .lit "likes", .param], .likesDestroy⟩ ]

def routes : List RouteTo := firstRoutes ++ deviseRoutes ++ userRoutes ++ dashboardRoutes

/-- The words an earlier route has in the place of the action's id. -/
def shadowedIds : Action → List String
  | .usersShow => ["sign_in", "cancel", "sign_up", "edit"]
  | .usersEdit => ["password"]
  | .usersUpdate => ["password"]
  | .usersDestroy => ["sign_out"]
  | .postsShow => ["new"]
  | .tagsShow => ["new"]
  | _ => []

/-- What the table is checked for, route by route. -/
def checkedRoute (r : RouteTo) : Bool :=
  decide (Clear (before routes r) r) && decide (arity r.pattern ≤ 1) &&
    (literals r.pattern).all (fun s => decide (Plain s)) &&
    shadows (before routes r) r == shadowedIds r.endpoint

theorem checkedRoute_routes : routes.all checkedRoute = true := by decide +kernel

/-- The path of a route leads to its action, or to that of an earlier
route. -/
theorem route_cases {r : RouteTo} {args : List String} {format : Option String} (hr : r ∈ routes)
    (hargs : args.length = arity r.pattern) (hplain : ∀ x ∈ args, Plain x) (hformat : ∀ f, format = some f → Plain f)
    (hroot : r.pattern = [] → format = none) :
    ((∀ x ∈ args, x ∉ shadowedIds r.endpoint) ∧
      recognise routes r.verb (url (fill r.pattern args) format) = some ⟨r.endpoint, args, format⟩) ∨
    (¬ (∀ x ∈ args, x ∉ shadowedIds r.endpoint) ∧
      ∃ hit, hit.endpoint ≠ r.endpoint ∧ recognise routes r.verb (url (fill r.pattern args) format) = some hit) := by
  have hchecked := List.all_eq_true.1 checkedRoute_routes r hr
  simp only [checkedRoute, Bool.and_eq_true, decide_eq_true_eq, List.all_eq_true, beq_iff_eq] at hchecked
  obtain ⟨⟨⟨hclear, harity⟩, hlits⟩, hwords⟩ := hchecked
  rw [← hwords]
  exact recognise_url_cases hr hclear hlits harity hargs hplain hformat hroot

theorem route_round_trip (r : RouteTo) (args : List String) (format : Option String) (hr : r ∈ routes)
    (hargs : args.length = arity r.pattern) (hplain : ∀ x ∈ args, Plain x) (hformat : ∀ f, format = some f → Plain f)
    (hroot : r.pattern = [] → format = none) :
    recognise routes r.verb (url (fill r.pattern args) format) = some ⟨r.endpoint, args, format⟩ ↔
      ∀ x ∈ args, x ∉ shadowedIds r.endpoint := by
  rcases route_cases hr hargs hplain hformat hroot with ⟨hfree, hhit⟩ | ⟨htaken, hit, hne, hhit⟩
  · exact ⟨fun _ => hfree, fun _ => hhit⟩
  · refine ⟨fun h => ?_, fun h => absurd h htaken⟩
    rw [hhit] at h
    cases h
    exact absurd rfl hne

/-- The user `sign_out` cannot be deleted by a link. -/
theorem sign_out_not_routed : recognise routes .delete "/users/sign_out" ≠ some ⟨.usersDestroy, ["sign_out"], none⟩ ∧
    recognise routes .delete "/users/bob" = some ⟨.usersDestroy, ["bob"], none⟩ := by
  have hroute : (⟨.delete, [.lit "users", .param], .usersDestroy⟩ : RouteTo) ∈ routes := by decide
  have hiff := fun x (hx : Plain x) => route_round_trip _ [x] none hroute rfl (by simpa using hx) (by simp) (by simp)
  exact ⟨mt (hiff "sign_out" (by decide)).1 (by decide), (hiff "bob" (by decide)).2 (by decide)⟩

end Insta.Web
