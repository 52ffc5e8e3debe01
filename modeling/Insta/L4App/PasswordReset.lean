import Insta.L4App.UserWrites

/-!
# Password resets

Tokens are issued by `generate_reset_password_token!` (`users#create` by an
admin), stored as they are, and redeemed at `passwords#update`, which looks
the row up by the submitted value and asks nothing else. Devise's own
endpoints keep digests of other tokens in the same column.

**Invariant.** `ResetInv`: a stored token of the issued form (20 characters;
a Devise digest has 64) is the last thing the reset record has about its
user.

**Results.**
* `passwordsUpdate_safe`: a reset is safe when the row the token selects
  holds a token of the issued form that passes the expiry test of
  `passwords#edit`; for a single-valued token parameter only then.
* `null_token_resets_password`: the action makes neither test. A null token
  selects a user who was never sent one.
-/
namespace Insta.Web

open Insta.Core Insta.Store Insta.Store.App Insta.Model Insta.Service

/-! ## The reset record -/

/-- `t` was issued to `u` at `at_`, and since then neither was another token
issued to `u` nor a reset of `u` recorded. -/
def Outstanding (log : List ResetEvent) (u : Nat) (t : String) (at_ : Nat) : Prop :=
  ∃ newer older, log = newer ++ .issued u t at_ :: older ∧ ∀ e ∈ newer, e.user ≠ u

theorem Outstanding.cons {log : List ResetEvent} {u at_ : Nat} {t : String} {e : ResetEvent}
    (h : Outstanding log u t at_) (he : e.user ≠ u) : Outstanding (e :: log) u t at_ := by
  obtain ⟨newer, older, rfl, hn⟩ := h
  exact ⟨e :: newer, older, rfl, List.forall_mem_cons.2 ⟨he, hn⟩⟩

theorem Outstanding.mem {log : List ResetEvent} {u at_ : Nat} {t : String}
    (h : Outstanding log u t at_) : .issued u t at_ ∈ log := by
  obtain ⟨newer, older, rfl, -⟩ := h
  simp

structure ResetInv (users : Table UserRow) (log : List ResetEvent) : Prop where
  logged : ∀ r ∈ users.rows, ∀ t, r.resetPasswordToken = some t → t.length = 20 →
    ∃ at_, r.resetPasswordSentAt = some at_ ∧ Outstanding log r.id t at_
  hex : ∀ u t at_, .issued u t at_ ∈ log → t.length = 20

theorem resetInv_write {grant : Prop} {w w' : World} (h : UserWrite grant w w')
    (hi : ResetInv w.db.users w.resets) : ResetInv w'.db.users w'.resets := by
  cases h with
  | same hu hl => rw [hu, hl]; exact hi
  | destroyed p hu hl =>
    rw [hu, hl]
    exact ⟨fun r hr => hi.logged r (Table.mem_delete.1 hr).1, hi.hex⟩
  | added m hu hl htok =>
    rw [hl]
    refine ⟨fun r hr t ht hlen => ?_, hi.hex⟩
    rcases (Table.mem_insert hu).1 hr with hr | rfl
    · exact hi.logged r hr t ht hlen
    · cases htok.symm.trans ht
  | saved r m hr hu hl htok =>
    rw [hl]
    refine ⟨fun x hx t ht hlen => ?_, hi.hex⟩
    rcases (mem_saved hr hu).1 hx with ⟨hx, -⟩ | rfl
    · exact hi.logged x hx t ht hlen
    · rcases written_token r m with hn | ⟨hm, hs⟩
      · cases hn.symm.trans ht
      · rcases htok with ⟨hmr, hsr⟩ | hdig
        · rw [hs, hsr]
          exact hi.logged r hr t (hmr ▸ hm ▸ ht) hlen
        · have := hdig t (hm ▸ ht)
          omega
  | issued r m tok hr hu hl htok hsent =>
    rw [hl]
    refine ⟨fun x hx t ht hlen => ?_, fun u t at_ hmem => ?_⟩
    · rcases (mem_saved hr hu).1 hx with ⟨hx, hne⟩ | rfl
      · obtain ⟨at_, hs, ho⟩ := hi.logged x hx t ht hlen
        exact ⟨at_, hs, ho.cons (Ne.symm hne)⟩
      · rcases written_token r m with hn | ⟨hm, hs⟩
        · cases hn.symm.trans ht
        · have htt : t = tok.1 := Option.some_inj.1 (ht.symm.trans (hm.trans htok))
          exact ⟨w.now, hs.trans hsent, [], w.resets, by rw [htt]; rfl, by simp⟩
    · rcases List.mem_cons.1 hmem with he | hmem
      · cases he; exact tok.2
      · exact hi.hex u t at_ hmem
  | consumed u hu hl hnone =>
    rw [hu, hl]
    refine ⟨fun x hx t ht hlen => ?_, fun v t at_ hmem => ?_⟩
    · obtain ⟨at_, hs, ho⟩ := hi.logged x hx t ht hlen
      refine ⟨at_, hs, ho.cons fun he => ?_⟩
      cases (hnone x hx he.symm).symm.trans ht
    · rcases List.mem_cons.1 hmem with he | hmem
      · cases he
      · exact hi.hex v t at_ hmem

theorem resetInv_inductive (lib : Lib) :
    (system lib).Inductive fun w => ResetInv w.db.users w.resets where
  init w hw := by
    refine ⟨fun r hr t ht => ?_, fun u t at_ hmem => ?_⟩
    · cases (hw.1 r hr).symm.trans ht
    · rw [hw.2] at hmem; cases hmem
  step w l w' hw hs := by
    rw [system_step.1 hs]
    exact next_keeps (fun _ _ _ => resetInv_write) lib w l hw

/-! ## Whose password a reset request changes -/

/-- Every user but `i` is as before. -/
def othersKept (i : Nat) : Frame World where
  rel w w' := ∀ u, u ≠ i → w'.db.users.find u = w.db.users.find u
  refl _ _ _ := rfl
  trans h₁ h₂ u hu := (h₂ u hu).trans (h₁ u hu)

theorem update_othersKept (lib : Lib) (r : UserRow) (p : UserPatch) (a : PasswordAttrs) (w : World) :
    (othersKept r.id).Holds (update lib r p a) w := by
  unfold Frame.Holds
  rcases update_cases lib r p a w with ⟨-, hu⟩ | ⟨-, st, sc, ⟨e, hu⟩ | ⟨t, -, ht, hu⟩⟩
  · rw [hu]; exact fun _ _ => rfl
  · rw [hu]; exact fun _ _ => rfl
  · rw [hu]; exact fun u hne => Table.find_modify_of_ne ht hne

theorem resetFor_othersKept (lib : Lib) (r : UserRow) (p : ResetParams) (w : World) :
    (othersKept r.id).Holds (resetFor lib r p) w := by
  unfold resetFor
  dsimp only
  split
  · exact .raise _ w
  · refine (update_othersKept lib r _ _ w).bind fun ok w₁ _ => .ite (fun _ => ?_) fun _ => .pure _ w₁
    refine Frame.Holds.bind ?_ fun _ w₂ _ => Frame.Holds.bind (holds_of_snd rfl) fun r' w₃ h₃ => ?_
    · intro u _
      show ((if _ then _ else _ : World).db.users.find u) = _
      split <;> rfl
    · obtain ⟨rfl, rfl⟩ := reload_ok h₃
      refine holds_ignore ?_
      have hid : ((w₃.db.users.find r.id).getD r).id = r.id := by
        cases hf : w₃.db.users.find r.id with
        | none => rfl
        | some x => exact (Table.mem_of_find hf).2
      have := update_othersKept lib ((w₃.db.users.find r.id).getD r)
        { resetPasswordToken := some none, resetPasswordSentAt := some none } p.attrs w₃
      rwa [hid] at this

/-- The stored password of `u` differs. -/
def PasswordChanged (w w' : World) (u : Nat) : Prop :=
  ∃ r r', w.db.users.find u = some r ∧ w'.db.users.find u = some r' ∧
    r'.encryptedPassword ≠ r.encryptedPassword

/-- A request to `passwords#update`, from any session. -/
def resetCall (actor : Option Nat) (params : Option ResetParams) (script : List (Option Fault)) : Call :=
  ⟨actor, .passwordsUpdate params, script⟩

/-- Only the row the token selects can get a new password. -/
theorem selected_of_passwordChanged {lib : Lib} {w : World} {actor : Option Nat}
    {params : Option ResetParams} {script : List (Option Fault)} {u : Nat}
    (h : PasswordChanged w (serve lib w (resetCall actor params script)) u) :
    ∃ p r, params = some p ∧ userOfToken w p.token = some r ∧ r.id = u := by
  obtain ⟨x, x', hx, hx', hne⟩ := h
  -- a request that leaves the row of `u` as it is changes no password
  have hmoved : (serve lib w (resetCall actor params script)).db.users.find u ≠ w.db.users.find u := by
    intro hsame
    rw [hx', hx] at hsame
    cases hsame
    exact hne rfl
  cases params with
  | none => exact absurd rfl hmoved
  | some p =>
    have hs : serve lib w (resetCall actor (some p) script) =
        ((passwordsUpdate lib (some p)).run { w with script := script }).2 := rfl
    rw [hs] at hmoved
    cases hr : userOfToken w p.token with
    | none =>
      rw [passwordsUpdate_of_no_user lib (w := { w with script := script }) hr] at hmoved
      exact absurd rfl hmoved
    | some r =>
      refine ⟨p, r, rfl, hr, ?_⟩
      by_contra hu
      rw [passwordsUpdate_of_user lib (w := { w with script := script }) hr] at hmoved
      exact hmoved (resetFor_othersKept lib r p { w with script := script } u (Ne.symm hu))

/-! ## Safety -/

/-- Whoever's password the request changes, it carried a token that is
outstanding for that user and not expired. -/
def ResetSafe (lib : Lib) (w : World) (actor : Option Nat) (params : Option ResetParams)
    (script : List (Option Fault)) : Prop :=
  ∀ u, PasswordChanged w (serve lib w (resetCall actor params script)) u →
    ∃ p r t at_, params = some p ∧ some t ∈ p.token.values ∧ Outstanding w.resets u t at_ ∧
      w.db.users.find u = some r ∧ resetPasswordTokenExpired r w.now = false ∧ w.now ≤ at_ + twoHours

/-- The row holds a token of the issued form that is not expired. -/
def FreshToken (w : World) (r : UserRow) : Prop :=
  (∃ t, r.resetPasswordToken = some t ∧ t.length = 20) ∧ resetPasswordTokenExpired r w.now = false

theorem userOfToken_mem {w : World} {t : TokenParam} {r : UserRow} (h : userOfToken w t = some r) :
    w.db.users.find r.id = some r ∧ r.resetPasswordToken ∈ t.values := by
  obtain ⟨hm, hc⟩ := Table.mem_of_newest h
  exact ⟨Table.find_of_mem hm, by simpa using hc⟩

theorem sentAt_of_not_expired {r : UserRow} {now : Nat} (h : resetPasswordTokenExpired r now = false) :
    ∃ at_, r.resetPasswordSentAt = some at_ ∧ now ≤ at_ + twoHours := by
  unfold resetPasswordTokenExpired at h
  split at h
  · cases h
  · rename_i t ht
    exact ⟨t, ht, Nat.not_lt.1 (of_decide_eq_false h)⟩

/-- The one value a parameter that is no array accepts. -/
theorem values_single {t : TokenParam} (h : ∀ l, t ≠ .list l) : ∃ v, t.values = [v] := by
  cases t with
  | absent => exact ⟨none, rfl⟩
  | null => exact ⟨none, rfl⟩
  | text s => exact ⟨some s, rfl⟩
  | list l => exact absurd rfl (h l)

/-- In every reachable state a reset request is safe if the row its token
selects passes the two tests, and, unless the token parameter is an array,
only if it does. -/
theorem passwordsUpdate_safe (lib : Lib) (w : World) (hw : (system lib).Reachable w)
    (actor : Option Nat) (params : Option ResetParams) (script : List (Option Fault)) :
    ((∀ p r, params = some p → userOfToken w p.token = some r → FreshToken w r) →
      ResetSafe lib w actor params script) ∧
    (∀ p r, params = some p → (∀ l, p.token ≠ .list l) → userOfToken w p.token = some r →
      PasswordChanged w (serve lib w (resetCall actor params script)) r.id →
      ResetSafe lib w actor params script → FreshToken w r) := by
  have hinv := (resetInv_inductive lib).reachable w hw
  constructor
  · intro hfresh u hu
    obtain ⟨p, r, hp, hr, rfl⟩ := selected_of_passwordChanged hu
    obtain ⟨hfind, hval⟩ := userOfToken_mem hr
    obtain ⟨⟨t, ht, hlen⟩, hexp⟩ := hfresh p r hp hr
    obtain ⟨at_, hs, ho⟩ := hinv.logged r (Table.mem_of_find hfind).1 t ht hlen
    obtain ⟨at', hs', hnow⟩ := sentAt_of_not_expired hexp
    cases hs.symm.trans hs'
    exact ⟨p, r, t, at_, hp, ht ▸ hval, ho, hfind, hexp, hnow⟩
  · rintro p r rfl hsingle hr hchg hsafe
    obtain ⟨hfind, hval⟩ := userOfToken_mem hr
    obtain ⟨q, r', t, at_, hq, htq, ho, hfind', hexp, -⟩ := hsafe r.id hchg
    cases hq
    cases hfind.symm.trans hfind'
    obtain ⟨v, hv⟩ := values_single hsingle
    rw [hv, List.mem_singleton] at hval htq
    exact ⟨⟨t, hval.trans htq.symm, hinv.hex r.id t at_ ho.mem⟩, hexp⟩

/-! ## An invited user and one without a token -/

/-- The admin has created user 2, who was sent `inviteToken`. -/
def invited : World :=
  next plainLib adminOnly (.call ⟨some 1, .usersCreate
    { username := some (some "bob"), email := some (some "bob@example.com") } inviteToken, []⟩)

def inviteReset : ResetParams :=
  { token := .text inviteToken.1, password := some "new-password",
    passwordConfirmation := some "new-password" }

/-- The invited user sets a password with the token, and safely so. -/
theorem invited_user_resets_safely :
    (system plainLib).Reachable invited ∧
    PasswordChanged invited (serve plainLib invited (resetCall none (some inviteReset) [])) 2 ∧
    ResetSafe plainLib invited none (some inviteReset) [] := by
  have hreach : (system plainLib).Reachable invited :=
    ⟨adminOnly, _, adminOnly_fresh, .cons (system_step.2 rfl) (.nil _)⟩
  refine ⟨hreach, ?_, (passwordsUpdate_safe plainLib invited hreach none (some inviteReset) []).1 ?_⟩
  · have hold : (invited.db.users.find 2).map UserRow.encryptedPassword = some "" := by decide
    have hnew : ((serve plainLib invited (resetCall none (some inviteReset) [])).db.users.find 2).map
        UserRow.encryptedPassword = some "new-password" := by decide
    obtain ⟨r, hr, ho⟩ := Option.map_eq_some_iff.1 hold
    obtain ⟨r', hr', hn⟩ := Option.map_eq_some_iff.1 hnew
    exact ⟨r, r', hr, hr', by rw [ho, hn]; decide⟩
  · intro p r hp hr
    cases hp
    have hall : (userOfToken invited inviteReset.token).all (fun r =>
      r.resetPasswordToken == some inviteToken.1 && !resetPasswordTokenExpired r invited.now) = true := by
      decide
    rw [hr] at hall
    simp only [Option.all_some, Bool.and_eq_true, beq_iff_eq, Bool.not_eq_true'] at hall
    exact ⟨⟨_, hall.1, inviteToken.2⟩, hall.2⟩

/-- A null token and a new password. -/
def nullReset : ResetParams :=
  { token := .null, password := some "taken-over", passwordConfirmation := some "taken-over" }

/-- Nobody was sent a token, and a request with a null token sets the
admin's password. -/
theorem null_token_resets_password :
    (system plainLib).Reachable adminOnly ∧ ¬ ResetSafe plainLib adminOnly none (some nullReset) [] := by
  refine ⟨⟨adminOnly, [], adminOnly_fresh, .nil _⟩, fun hsafe => ?_⟩
  have hpw : (((serve plainLib adminOnly (resetCall none (some nullReset) [])).db.users.find 1).map
      UserRow.encryptedPassword) = some "taken-over" := by decide
  obtain ⟨r', hr', hnew⟩ := Option.map_eq_some_iff.1 hpw
  obtain ⟨p, -, t, -, hp, ht, -⟩ := hsafe 1 ⟨adminRow, r', rfl, hr', by rw [hnew]; decide⟩
  cases hp
  simp [nullReset, TokenParam.values] at ht

end Insta.Web
