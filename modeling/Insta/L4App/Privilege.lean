import Insta.L4App.PasswordReset

/-!
# Who becomes an admin

Four requests take a `role` parameter: sign-up and account update (Devise
permits it, the sign-up form only hides it), `users#create` and
`users#update` (left out of the `authorize_user` filter). None of them looks
at who asks.

* `admins_granted`: in a run in which only admins send the admin role, every
  admin was one at the start or was made one by an admin.
* `sign_up_makes_admin`: without that condition a guest signs up as admin.
-/
namespace Insta.Web

open Insta.Core Insta.Store Insta.Store.App Insta.Model Insta.Service

def IsAdmin (w : World) (u : Nat) : Prop := ∃ r, w.db.users.find u = some r ∧ r.role = .admin

/-- Every admin at the end of the run was one at its start, or got the role
in a request of a user who was admin when making it. -/
def AdminsGranted (lib : Lib) (w₀ : World) (ls : List Label) (w : World) : Prop :=
  ∀ u, IsAdmin w u → IsAdmin w₀ u ∨ ∃ a c b v, (system lib).StepOf w₀ ls w a (.call c) b ∧
    ¬ IsAdmin a u ∧ IsAdmin b u ∧ c.actor = some v ∧ IsAdmin a v

/-- The admin role is sent by admins only. -/
def RoleGuard (w : World) : Label → Prop
  | .call c => c.req.namesAdmin → ∃ v, c.actor = some v ∧ IsAdmin w v
  | _ => True

/-- A write of a request that does not name the role makes nobody admin. -/
theorem isAdmin_of_write {grant : Prop} {w w' : World} (hg : ¬ grant) (h : UserWrite grant w w') {u : Nat}
    (hu : IsAdmin w' u) : IsAdmin w u := by
  obtain ⟨x, hx, hrole⟩ := hu
  have kept : ∀ {y : UserRow}, y ∈ w.db.users.rows → y.id = u → y.role = .admin → IsAdmin w u :=
    fun hy hid hr => ⟨_, Table.find_eq_some_iff.2 ⟨hy, hid⟩, hr⟩
  cases h with
  | same hu => exact ⟨x, hu ▸ hx, hrole⟩
  | consumed v hu => exact ⟨x, hu ▸ hx, hrole⟩
  | destroyed p hu =>
    rw [hu] at hx
    obtain ⟨hm, hid⟩ := Table.mem_of_find hx
    exact kept (Table.mem_delete.1 hm).1 hid hrole
  | added m hu hl htok hm =>
    obtain ⟨hmem, hid⟩ := Table.mem_of_find hx
    rcases (Table.mem_insert hu).1 hmem with hmem | rfl
    · exact kept hmem hid hrole
    · exact absurd (hm hrole) hg
  | saved r m hr hu hl htok hm =>
    obtain ⟨hmem, hid⟩ := Table.mem_of_find hx
    rcases (mem_saved hr hu).1 hmem with ⟨hmem, -⟩ | rfl
    · exact kept hmem hid hrole
    · rcases hm ((written_role r m).symm.trans hrole) with hadm | hgr
      · exact kept hr hid hadm
      · exact absurd hgr hg
  | issued r m t hr hu hl htok hsent hm =>
    obtain ⟨hmem, hid⟩ := Table.mem_of_find hx
    rcases (mem_saved hr hu).1 hmem with ⟨hmem, -⟩ | rfl
    · exact kept hmem hid hrole
    · exact kept hr hid (hm.symm.trans ((written_role r m).symm.trans hrole))

theorem isAdmin_of_writes {grant : Prop} {w w' : World} (hg : ¬ grant) (h : (userWrites grant).rel w w')
    {u : Nat} (hu : IsAdmin w' u) : IsAdmin w u := by
  induction h with
  | refl => exact hu
  | tail _ hs ih => exact ih (isAdmin_of_write hg hs hu)

/-- A step that makes an admin is a call that names the role. -/
theorem namesAdmin_of_step {lib : Lib} {w : World} {l : Label} {u : Nat} (h₀ : ¬ IsAdmin w u)
    (h : IsAdmin (next lib w l) u) : ∃ c, l = .call c ∧ c.req.namesAdmin := by
  cases l with
  | tick n => exact absurd h h₀
  | account s => exact absurd h h₀
  | call c =>
    refine ⟨c, rfl, ?_⟩
    by_contra hn
    exact h₀ (isAdmin_of_writes hn (handle_userWrites lib c.actor c.req { w with script := c.script }) h)

theorem admins_granted (lib : Lib) {w₀ w : World} {ls : List Label}
    (h : ((system lib).guard RoleGuard).Run w₀ ls w) : AdminsGranted lib w₀ ls w := by
  intro u hu
  by_cases h₀ : IsAdmin w₀ u
  · exact .inl h₀
  · right
    obtain ⟨a, l, b, ⟨l₁, l₂, hls, hr₁, ⟨hst, hguard⟩, hr₂⟩, ha, hb⟩ :=
      h.exists_step (P := fun w => IsAdmin w u) h₀ hu
    have hb' := hb
    rw [system_step.1 hst] at hb'
    obtain ⟨c, rfl, hc⟩ := namesAdmin_of_step ha hb'
    obtain ⟨v, hv, hadm⟩ := hguard hc
    exact ⟨a, c, b, v, ⟨l₁, l₂, hls, hr₁.of_guard, hst, hr₂.of_guard⟩, ha, hb, hv, hadm⟩

/-! ## A sign-up with the role, and an admin's own grant -/

/-- The admin creates a second one. -/
def grantByAdmin : Call :=
  ⟨some 1, .usersCreate
    { username := some (some "bob"), email := some (some "bob@example.com"), role := .key .admin }
    inviteToken, []⟩

/-- The admin makes user 2 admin, and the run keeps the guarantee. -/
theorem admin_grants_admin :
    IsAdmin (next plainLib adminOnly (.call grantByAdmin)) 2 ∧
    AdminsGranted plainLib adminOnly [.call grantByAdmin] (next plainLib adminOnly (.call grantByAdmin)) := by
  refine ⟨?_, admins_granted plainLib (.cons ⟨system_step.2 rfl, fun _ => ?_⟩ (.nil _))⟩
  · have hrole : ((next plainLib adminOnly (.call grantByAdmin)).db.users.find 2).map UserRow.role =
        some .admin := by decide
    obtain ⟨r, hr, hadm⟩ := Option.map_eq_some_iff.1 hrole
    exact ⟨r, hr, hadm⟩
  · exact ⟨1, rfl, adminRow, rfl, rfl⟩

/-- A guest's sign-up with the role Devise permits. -/
def signUpAsAdmin : Call :=
  ⟨none, .signUp
    { username := some (some "mallory"), email := some (some "mallory@example.com"),
      password := some "password", passwordConfirmation := some "password", role := .key .admin }, []⟩

/-- From an empty database a guest becomes admin. -/
theorem sign_up_makes_admin :
    (system plainLib).Run {} [.call signUpAsAdmin] (next plainLib {} (.call signUpAsAdmin)) ∧
    ¬ AdminsGranted plainLib {} [.call signUpAsAdmin] (next plainLib {} (.call signUpAsAdmin)) := by
  refine ⟨.cons (system_step.2 rfl) (.nil _), fun h => ?_⟩
  have hrole : ((next plainLib {} (.call signUpAsAdmin)).db.users.find 1).map UserRow.role =
      some .admin := by decide
  obtain ⟨r, hr, hadm⟩ := Option.map_eq_some_iff.1 hrole
  rcases h 1 ⟨r, hr, hadm⟩ with ⟨x, hx, -⟩ | ⟨a, c, b, v, ⟨l₁, l₂, hls, -, -, -⟩, -, -, hv, -⟩
  · cases hx
  · have hc : Label.call c ∈ [Label.call signUpAsAdmin] := by rw [hls]; simp
    cases List.mem_singleton.1 hc
    cases hv

end Insta.Web
