import Insta.Core.Lts
import Insta.L4App.DiscourseSso

/-!
# Who Discourse logs in

The single sign-on as a protocol between Discourse, the application and any
number of browsers, in any order of their steps. Discourse gives out nonces
in signed payloads (`ask`); a browser comes to the application with whatever
payload and signature it likes, in whatever session it has (`visit`); and it
comes back to Discourse with whatever query it likes (`arrive`). Both sides
sign with one key, so what one of them signed can be shown to the other.

Discourse is not part of the repository. What it takes is a parameter
(`Discourse`) with what DiscourseConnect documents: it checks the signature,
reads nonce and user from the signed answer, and takes only a nonce it gave
out and is waiting for; a nonce that was used is struck off (`ssoNext`). That
no nonce is used twice is this rule of Discourse's.

The signature is treated symbolically: a browser has the signature of a
payload only if one of the two sides signed that payload before
(`Unforged`).

* `sso_redirect`: the application reveals no other signature than that of
  `ssoData`.
* `SsoInv`: all that is ever signed carries a nonce Discourse gave out.
* `sso_agreement`: whatever Discourse takes by its rules, it logs a browser
  in as the user in whose session the application answered a payload with
  that very nonce, with that user's fields, and once for each nonce. A
  payload of Discourse's own shown back to it logs nobody in.
-/
namespace Insta.Web

open Insta.Core Insta.Core.FormUrl

/-! ## What the application signs -/

/-- The fields the action signs, when it gets that far. -/
def ssoData (env : SsoEnv) (config : SsoConfig) (ssoPayload sig : Option Bytes) :
    Option SsoUser → Option (List (Bytes × Bytes))
  | none => none
  | some me =>
    if env.isBlank config.discourseUrl = .ok false ∧ env.isBlank config.secret = .ok false ∧
        env.isBlank ssoPayload = .ok false ∧ env.isBlank sig = .ok false ∧
        validSignature env (ssoPayload.getD []) (sig.getD []) (config.secret.getD []) = true then
      some (userData (extractNonce (ssoPayload.getD [])) me)
    else none

/-- A redirect carries those fields with their signature, or leads to the
login page of Discourse. -/
theorem sso_redirect {env : SsoEnv} {config : SsoConfig} {site : Site} {ssoPayload sig : Option Bytes}
    {me : Option SsoUser} {location : Bytes}
    (h : sso env config site ssoPayload sig me = .ok (.redirect location)) :
    (∃ data, ssoData env config ssoPayload sig me = some data ∧
      env.redirectTo site (sessionLogin (config.discourseUrl.getD []) ++
        ssoQuery (generateSsoResponse env data (config.secret.getD []))) = .ok (.redirect location)) ∨
    env.redirectTo site (config.discourseUrl.getD [] ++ ascii "/login") = .ok (.redirect location) := by
  cases me with
  | none => cases h
  | some me =>
    obtain ⟨noUrl, hurl, h⟩ := exists_of_bind_ok h
    cases noUrl with
    | true => cases h
    | false =>
      obtain ⟨noSecret, hsecret, h⟩ := exists_of_bind_ok h
      cases noSecret with
      | true => cases h
      | false =>
        obtain ⟨missing, hmissing, h⟩ := exists_of_bind_ok h
        cases missing with
        | true => exact .inr h
        | false =>
          obtain ⟨noPayload, hpayload, hmissing⟩ := exists_of_bind_ok hmissing
          cases noPayload with
          | true => cases hmissing
          | false =>
            have hsig : env.isBlank sig = .ok false := hmissing
            by_cases hv : validSignature env (ssoPayload.getD []) (sig.getD []) (config.secret.getD []) = true
            · refine .inl ⟨_, if_pos ⟨hurl, hsecret, hpayload, hsig, hv⟩, ?_⟩
              simpa [hv] using h
            · simp [hv] at h
              cases h

/-! ## What a signed payload says -/

theorem userData_keys (nonce : Option Bytes) (me : SsoUser) : ((userData nonce me).map Prod.fst).Nodup := by
  show ([ascii "nonce", ascii "external_id", ascii "email", ascii "username", ascii "admin",
    ascii "moderator"] : List Bytes).Nodup
  decide

/-- The payload of an answer. -/
def answerPayload (nonce : Option Bytes) (me : SsoUser) : Bytes := Base64.encode (toQuery (userData nonce me))

theorem fields_answerPayload (nonce : Option Bytes) (me : SsoUser) :
    (fields (Base64.decode (answerPayload nonce me))).Perm (userData nonce me) := by
  unfold answerPayload
  rw [Base64.decode_encode]
  exact fields_toQuery (List.cons_ne_nil _ _)

/-- An answer shown to the application as a request has the nonce it was
given for. -/
theorem extractNonce_answerPayload (nonce : Option Bytes) (me : SsoUser) :
    extractNonce (answerPayload nonce me) = some (nonce.getD []) := by
  obtain ⟨l, hperm, hquery⟩ := toQuery_eq_joined (userData nonce me)
  have hne : l ≠ [] := by
    rintro rfl
    exact absurd hperm.symm.eq_nil (List.cons_ne_nil _ _)
  unfold extractNonce answerPayload
  rw [Base64.decode_encode, hquery, parse_joined hne]
  refine firstValue_of_mem ((hperm.map Prod.fst).nodup_iff.2 (userData_keys nonce me)) (hperm.mem_iff.2 ?_)
  exact List.mem_cons_self

/-- What Discourse finds in an answer. -/
theorem lookup_answerPayload {nonce : Option Bytes} {me : SsoUser} {k v : Bytes} (h : (k, v) ∈ userData nonce me) :
    (fields (Base64.decode (answerPayload nonce me))).lookup k = some v := by
  have hperm := fields_answerPayload nonce me
  exact lookup_of_mem ((hperm.map Prod.fst).nodup_iff.2 (userData_keys nonce me)) (hperm.mem_iff.2 h)

/-- Discourse's own payload names no user. -/
theorem lookup_discoursePayload (nonce returnUrl : Bytes) :
    (fields (Base64.decode (discoursePayload nonce returnUrl))).lookup (ascii "external_id") = none := by
  have hnonce : (ascii "external_id" == ascii "nonce") = false := by decide
  have hurl : (ascii "external_id" == ascii "return_sso_url") = false := by decide
  unfold discoursePayload
  rw [Base64.decode_encode, fields_joined (List.cons_ne_nil _ _), List.lookup_cons, hnonce, List.lookup_cons, hurl]
  rfl

/-! ## The protocol -/

/-- A login at Discourse: the nonce and the user the answer named. -/
structure Login where
  nonce : Bytes
  externalId : Bytes
  answer : List (Bytes × Bytes)
deriving DecidableEq

/-- `issued` are the nonces Discourse gave out, `waiting` those not used yet;
`signed` the payloads whose signatures somebody has. -/
structure SsoState where
  issued : List Bytes := []
  waiting : List Bytes := []
  signed : List Bytes := []
  logins : List Login := []
deriving DecidableEq

inductive SsoStep
  | ask (nonce returnUrl : Bytes)
  | visit (me : Option SsoUser) (ssoPayload sig : Option Bytes)
  | arrive (query : Bytes)

section Protocol

/-- What Discourse takes for a login, and its rules. -/
structure Discourse (env : SsoEnv) (secret : Bytes) where
  accepts : SsoState → Bytes → Option Login
  /-- It checks the signature and reads what was signed. -/
  verified : ∀ s query login, accepts s query = some login → readAnswer env secret query = some login.answer
  nonce_read : ∀ s query login, accepts s query = some login →
    login.answer.lookup (ascii "nonce") = some login.nonce
  user_read : ∀ s query login, accepts s query = some login →
    login.answer.lookup (ascii "external_id") = some login.externalId
  /-- It takes no nonce that it does not wait for. -/
  expected : ∀ s query login, accepts s query = some login → login.nonce ∈ s.waiting

variable {env : SsoEnv} {secret : Bytes} (D : Discourse env secret) (url : Bytes)

def ssoNext (s : SsoState) : SsoStep → Option SsoState
  | .ask nonce returnUrl =>
    if nonce ∈ s.issued then none
    else some { s with
      issued := nonce :: s.issued
      waiting := nonce :: s.waiting
      signed := discoursePayload nonce returnUrl :: s.signed }
  | .visit me ssoPayload sig =>
    match ssoData env ⟨some url, some secret⟩ ssoPayload sig me with
    | none => some s
    | some data => some { s with signed := Base64.encode (toQuery data) :: s.signed }
  | .arrive query =>
    match D.accepts s query with
    | none => some s
    | some login => some { s with waiting := s.waiting.erase login.nonce, logins := login :: s.logins }

/-- A payload that comes with its signature was signed before. -/
def Unforged (env : SsoEnv) (secret : Bytes) (s : SsoState) : SsoStep → Prop
  | .ask _ _ => True
  | .visit _ ssoPayload sig => ∀ p, ssoPayload = some p → sig = some (env.hexdigest secret p) → p ∈ s.signed
  | .arrive query => ∀ p, (fields query).lookup (ascii "sso") = some p →
    (fields query).lookup (ascii "sig") = some (env.hexdigest secret p) → p ∈ s.signed

def ssoSystem : LTS SsoState SsoStep :=
  (LTS.ofFn (· = {}) (ssoNext D url)).guard (Unforged env secret)

variable {D url} {s s' : SsoState}

/-- A visit that was answered: it brought a signed payload. -/
theorem ssoData_some {ssoPayload sig : Option Bytes} {me : Option SsoUser} {data : List (Bytes × Bytes)}
    (h : ssoData env ⟨some url, some secret⟩ ssoPayload sig me = some data) :
    ∃ u p, me = some u ∧ ssoPayload = some p ∧ sig = some (env.hexdigest secret p) ∧
      data = userData (extractNonce p) u := by
  cases me with
  | none => cases h
  | some u =>
    unfold ssoData at h
    dsimp only at h
    split at h
    · rename_i hc
      obtain ⟨-, -, hp, hg, hv⟩ := hc
      cases ssoPayload with
      | none => cases hp
      | some p =>
        cases sig with
        | none => cases hg
        | some g =>
          have hsig : env.hexdigest secret p = g := beq_iff_eq.1 hv
          exact ⟨u, p, rfl, rfl, by rw [hsig], (Option.some.inj h).symm⟩
    · cases h

/-- What a step signs, and whom it logs in. -/
theorem ssoSystem_cases {l : SsoStep} (h : (ssoSystem D url).step s l s') :
    (∃ nonce returnUrl, l = .ask nonce returnUrl ∧ nonce ∉ s.issued ∧ s' = { s with
      issued := nonce :: s.issued, waiting := nonce :: s.waiting
      signed := discoursePayload nonce returnUrl :: s.signed }) ∨
    s' = s ∨
    (∃ me p, l = .visit (some me) (some p) (some (env.hexdigest secret p)) ∧ p ∈ s.signed ∧
      s' = { s with signed := answerPayload (extractNonce p) me :: s.signed }) ∨
    ∃ query login p, l = .arrive query ∧ p ∈ s.signed ∧ login.answer = fields (Base64.decode p) ∧
      login.answer.lookup (ascii "nonce") = some login.nonce ∧
      login.answer.lookup (ascii "external_id") = some login.externalId ∧ login.nonce ∈ s.waiting ∧
      s' = { s with waiting := s.waiting.erase login.nonce, logins := login :: s.logins } := by
  obtain ⟨hnext, hguard⟩ := h
  change ssoNext D url s l = some s' at hnext
  cases l with
  | ask nonce returnUrl =>
    simp only [ssoNext] at hnext
    split at hnext
    · cases hnext
    · rename_i hfresh
      exact .inl ⟨nonce, returnUrl, rfl, hfresh, (Option.some.inj hnext).symm⟩
  | visit me ssoPayload sig =>
    simp only [ssoNext] at hnext
    split at hnext
    · exact .inr (.inl (Option.some.inj hnext).symm)
    · rename_i data hdata
      obtain ⟨u, p, rfl, rfl, rfl, rfl⟩ := ssoData_some hdata
      exact .inr (.inr (.inl ⟨u, p, rfl, hguard p rfl rfl, (Option.some.inj hnext).symm⟩))
  | arrive query =>
    simp only [ssoNext] at hnext
    split at hnext
    · exact .inr (.inl (Option.some.inj hnext).symm)
    · rename_i login hlogin
      have hanswer := D.verified s query login hlogin
      unfold readAnswer at hanswer
      simp only [Option.bind_eq_bind, Option.bind_eq_some_iff] at hanswer
      obtain ⟨p, hp, g, hg, hanswer⟩ := hanswer
      split at hanswer
      · rename_i hsig
        exact .inr (.inr (.inr ⟨query, login, p, rfl, hguard p hp (hsig ▸ hg), (Option.some.inj hanswer).symm,
          D.nonce_read s query login hlogin, D.user_read s query login hlogin, D.expected s query login hlogin,
          (Option.some.inj hnext).symm⟩))
      · cases hanswer

/-! ## Safety -/

/-- The nonces of the logins and those waiting are distinct and were given
out, and so was the nonce of all that is signed. -/
structure SsoInv (s : SsoState) : Prop where
  once : (s.logins.map Login.nonce ++ s.waiting).Nodup
  given : ∀ n ∈ s.logins.map Login.nonce ++ s.waiting, n ∈ s.issued
  signed : ∀ p ∈ s.signed, ∃ n ∈ s.issued, extractNonce p = some n

theorem SsoInv.init : SsoInv {} := ⟨List.nodup_nil, by simp, by simp⟩

theorem SsoInv.asked (h : SsoInv s) {nonce : Bytes} (returnUrl : Bytes) (hfresh : nonce ∉ s.issued) :
    SsoInv { s with
      issued := nonce :: s.issued, waiting := nonce :: s.waiting
      signed := discoursePayload nonce returnUrl :: s.signed } where
  once := List.perm_middle.nodup_iff.2 (List.nodup_cons.2 ⟨fun hn => hfresh (h.given nonce hn), h.once⟩)
  given n hn := by
    rcases List.mem_cons.1 (List.perm_middle.mem_iff.1 hn) with rfl | hn
    · exact List.mem_cons_self
    · exact List.mem_cons_of_mem _ (h.given n hn)
  signed p hp := by
    rcases List.mem_cons.1 hp with rfl | hp
    · exact ⟨nonce, List.mem_cons_self, extractNonce_discoursePayload nonce returnUrl⟩
    · obtain ⟨n, hn, hx⟩ := h.signed p hp
      exact ⟨n, List.mem_cons_of_mem _ hn, hx⟩

/-- Whatever payload the application answers, its answer has the same
nonce. -/
theorem SsoInv.answered (h : SsoInv s) {p : Bytes} (hp : p ∈ s.signed) (me : SsoUser) :
    SsoInv { s with signed := answerPayload (extractNonce p) me :: s.signed } where
  once := h.once
  given := h.given
  signed q hq := by
    rcases List.mem_cons.1 hq with rfl | hq
    · obtain ⟨n, hn, hx⟩ := h.signed p hp
      exact ⟨n, hn, by rw [extractNonce_answerPayload, hx, Option.getD_some]⟩
    · exact h.signed q hq

theorem SsoInv.loggedIn (h : SsoInv s) {login : Login} (hwait : login.nonce ∈ s.waiting) :
    SsoInv { s with waiting := s.waiting.erase login.nonce, logins := login :: s.logins } := by
  have hperm : (login.nonce :: s.logins.map Login.nonce ++ s.waiting.erase login.nonce).Perm
      (s.logins.map Login.nonce ++ s.waiting) :=
    List.perm_middle.symm.trans (List.Perm.append_left _ (List.perm_cons_erase hwait).symm)
  exact ⟨hperm.nodup_iff.2 h.once, fun n hn => h.given n (hperm.mem_iff.1 hn), h.signed⟩

theorem SsoInv.step (h : SsoInv s) {l : SsoStep} (hs : (ssoSystem D url).step s l s') : SsoInv s' := by
  rcases ssoSystem_cases hs with ⟨nonce, returnUrl, -, hfresh, rfl⟩ | rfl | ⟨me, p, -, hp, rfl⟩ |
    ⟨query, login, p, -, -, -, -, -, hwait, rfl⟩
  · exact h.asked returnUrl hfresh
  · exact h
  · exact h.answered hp me
  · exact h.loggedIn hwait

theorem SsoInv.run {ls : List SsoStep} (h : (ssoSystem D url).Run {} ls s) : SsoInv s :=
  h.keeps (fun _ _ _ hI hs => hI.step hs) .init

/-- A payload that names a user was signed in a visit. -/
theorem signed_visit {ls : List SsoStep} {p : Bytes} (h : (ssoSystem D url).Run {} ls s) (hp : p ∈ s.signed)
    (hid : (fields (Base64.decode p)).lookup (ascii "external_id") ≠ none) :
    ∃ a me q b, (ssoSystem D url).StepOf {} ls s a
      (.visit (some me) (some q) (some (env.hexdigest secret q))) b ∧ q ∈ a.signed ∧
      p = answerPayload (extractNonce q) me := by
  obtain ⟨a, l, b, hstep, hna, hb⟩ := h.exists_step (P := fun s => p ∈ s.signed) (by simp) hp
  rcases ssoSystem_cases hstep.step with ⟨nonce, returnUrl, rfl, -, rfl⟩ | rfl | ⟨me, q, rfl, hq, rfl⟩ |
    ⟨query, login, q, rfl, -, -, -, -, -, rfl⟩
  · rcases List.mem_cons.1 hb with rfl | hb
    · exact absurd (lookup_discoursePayload nonce returnUrl) hid
    · exact absurd hb hna
  · exact absurd hb hna
  · rcases List.mem_cons.1 hb with rfl | hb
    · exact ⟨a, me, q, _, hstep, hq, rfl⟩
    · exact absurd hb hna
  · exact absurd hb hna

/-- The answer Discourse took, with the nonce and the user it found there. -/
theorem login_answered {ls : List SsoStep} (h : (ssoSystem D url).Run {} ls s) {login : Login}
    (hlogin : login ∈ s.logins) :
    ∃ a me q b, (ssoSystem D url).StepOf {} ls s a
      (.visit (some me) (some q) (some (env.hexdigest secret q))) b ∧ extractNonce q = some login.nonce ∧
      login.externalId = ascii (toString me.id) ∧ login.answer.Perm (userData (some login.nonce) me) := by
  obtain ⟨a, l, b, ⟨l₁, l₂, rfl, hrun, hst, hrest⟩, hna, hb⟩ :=
    h.exists_step (P := fun s => login ∈ s.logins) (by simp) hlogin
  rcases ssoSystem_cases hst with ⟨nonce, returnUrl, -, -, rfl⟩ | rfl | ⟨me, q, -, -, rfl⟩ |
    ⟨query, login', p, rfl, hp, hanswer, hnonce, hid, -, rfl⟩
  · exact absurd hb hna
  · exact absurd hb hna
  · exact absurd hb hna
  · obtain rfl : login = login' := (List.mem_cons.1 hb).resolve_right hna
    rw [hanswer] at hnonce hid
    obtain ⟨a', me, q, b', hvisit, hq, rfl⟩ := signed_visit hrun hp (by rw [hid]; exact Option.some_ne_none _)
    -- the payload it brought was signed, so it has a nonce, and the answer has the same
    obtain ⟨m₁, m₂, hm, hrun', hst', hrest'⟩ := hvisit
    obtain ⟨n, -, hn⟩ := (SsoInv.run hrun').signed q hq
    have hvisit := LTS.StepOf.extend ⟨m₁, m₂, hm, hrun', hst', hrest'⟩ (.cons hst hrest)
    rw [hn] at hnonce hid hanswer
    have hsame : login.nonce = n := by
      have h := @lookup_answerPayload (some n) me (ascii "nonce") n (by simp [userData])
      exact Option.some.inj (hnonce.symm.trans h)
    have huser : login.externalId = ascii (toString me.id) := by
      have h := @lookup_answerPayload (some n) me (ascii "external_id") (ascii (toString me.id))
        (by simp [userData])
      exact Option.some.inj (hid.symm.trans h)
    refine ⟨a', me, q, b', hvisit, hn.trans (congrArg some hsame.symm), huser, ?_⟩
    rw [hanswer, hsame]
    exact fields_answerPayload (some n) me

/-- Discourse logs in whom the application answered for: each login is that
of a user in whose session the application was shown a payload with the
login's nonce, with the fields of that user; the nonce is one Discourse gave
out, and no nonce is used twice. -/
theorem sso_agreement (env : SsoEnv) (url secret : Bytes) (D : Discourse env secret) (ls : List SsoStep)
    (s : SsoState) (h : (ssoSystem D url).Run {} ls s) :
    (s.logins.map Login.nonce).Nodup ∧ ∀ login ∈ s.logins, login.nonce ∈ s.issued ∧
      ∃ a me q b, (ssoSystem D url).StepOf {} ls s a
        (.visit (some me) (some q) (some (env.hexdigest secret q))) b ∧ extractNonce q = some login.nonce ∧
        login.externalId = ascii (toString me.id) ∧ login.answer.Perm (userData (some login.nonce) me) := by
  have hinv := SsoInv.run h
  refine ⟨(List.nodup_append.1 hinv.once).1, fun login hlogin => ⟨?_, login_answered h hlogin⟩⟩
  exact hinv.given _ (List.mem_append_left _ (List.mem_map_of_mem hlogin))

/-! ## A run without an intruder -/

/-- Discourse takes every answer its rules allow. -/
def obliging (env : SsoEnv) (secret : Bytes) (s : SsoState) (query : Bytes) : Option Login := do
  let answer ← readAnswer env secret query
  let nonce ← answer.lookup (ascii "nonce")
  let externalId ← answer.lookup (ascii "external_id")
  if nonce ∈ s.waiting then some ⟨nonce, externalId, answer⟩ else none

theorem obliging_some {query : Bytes} {login : Login} (h : obliging env secret s query = some login) :
    readAnswer env secret query = some login.answer ∧ login.answer.lookup (ascii "nonce") = some login.nonce ∧
      login.answer.lookup (ascii "external_id") = some login.externalId ∧ login.nonce ∈ s.waiting := by
  unfold obliging at h
  simp only [Option.bind_eq_bind, Option.bind_eq_some_iff] at h
  obtain ⟨answer, hanswer, nonce, hnonce, externalId, hid, h⟩ := h
  split at h
  · rename_i hwait
    cases h
    exact ⟨hanswer, hnonce, hid, hwait⟩
  · cases h

def obligingDiscourse (env : SsoEnv) (secret : Bytes) : Discourse env secret where
  accepts := obliging env secret
  verified _ _ _ h := (obliging_some h).1
  nonce_read _ _ _ h := (obliging_some h).2.1
  user_read _ _ _ h := (obliging_some h).2.2.1
  expected _ _ _ h := (obliging_some h).2.2.2

/-- Discourse asks, `me` is sent to the application and comes back with its
answer. -/
def honestSteps (env : SsoEnv) (secret nonce returnUrl : Bytes) (me : SsoUser) : List SsoStep :=
  [.ask nonce returnUrl,
    .visit (some me) (some (discoursePayload nonce returnUrl))
      (some (env.hexdigest secret (discoursePayload nonce returnUrl))),
    .arrive (ssoQuery (generateSsoResponse env (userData (some nonce) me) secret))]

theorem obliging_answer {nonce : Bytes} (me : SsoUser) (hwait : nonce ∈ s.waiting) :
    obliging env secret s (ssoQuery (generateSsoResponse env (userData (some nonce) me) secret)) =
      some ⟨nonce, ascii (toString me.id), fields (toQuery (userData (some nonce) me))⟩ := by
  have hread := readAnswer_generated env (userData (some nonce) me) secret
  have hfields : ∀ {k v}, (k, v) ∈ userData (some nonce) me →
      (fields (toQuery (userData (some nonce) me))).lookup k = some v := by
    intro k v hkv
    have h := lookup_answerPayload hkv
    unfold answerPayload at h
    rwa [Base64.decode_encode] at h
  unfold obliging
  rw [hread]
  simp only [Option.bind_eq_bind, Option.bind_some]
  rw [hfields (v := nonce) (by simp [userData]), Option.bind_some,
    hfields (v := ascii (toString me.id)) (by simp [userData]), Option.bind_some, if_pos hwait]

theorem honest_login (hurl : env.blank url = some false) (hsecret : env.blank secret = some false)
    (nonce returnUrl : Bytes) (me : SsoUser) :
    ∃ s, (ssoSystem (obligingDiscourse env secret) url).Run {} (honestSteps env secret nonce returnUrl me) s ∧
      s.logins.map Login.externalId = [ascii (toString me.id)] := by
  have hdata : ssoData env ⟨some url, some secret⟩ (some (discoursePayload nonce returnUrl))
      (some (env.hexdigest secret (discoursePayload nonce returnUrl))) (some me) =
      some (userData (some nonce) me) := by
    unfold ssoData
    dsimp only
    rw [if_pos ⟨(isBlank_eq_false_iff env).2 hurl, (isBlank_eq_false_iff env).2 hsecret,
      isBlank_discoursePayload env nonce returnUrl, isBlank_hexdigest env secret _, beq_self_eq_true _⟩]
    rw [Option.getD_some, extractNonce_discoursePayload]
  have hquery : ∀ p, (fields (ssoQuery (generateSsoResponse env (userData (some nonce) me) secret))).lookup
      (ascii "sso") = some p → p = answerPayload (some nonce) me := by
    intro p hp
    unfold generateSsoResponse at hp
    rw [ssoQuery_eq_joined fun b hb => unreserved_of_mem_hexdigest env hb, fields_joined (List.cons_ne_nil _ _),
      List.lookup_cons, beq_self_eq_true] at hp
    exact (Option.some.inj hp).symm
  have hask : (ssoSystem (obligingDiscourse env secret) url).step {} (.ask nonce returnUrl)
      { issued := [nonce], waiting := [nonce], signed := [discoursePayload nonce returnUrl] } := ⟨rfl, trivial⟩
  have hvisit : (ssoSystem (obligingDiscourse env secret) url).step
      { issued := [nonce], waiting := [nonce], signed := [discoursePayload nonce returnUrl] }
      (.visit (some me) (some (discoursePayload nonce returnUrl))
        (some (env.hexdigest secret (discoursePayload nonce returnUrl))))
      { issued := [nonce], waiting := [nonce]
        signed := [answerPayload (some nonce) me, discoursePayload nonce returnUrl] } := by
    refine ⟨?_, fun p hp _ => ?_⟩
    · show ssoNext (obligingDiscourse env secret) url _ _ = _
      simp only [ssoNext, hdata]
      rfl
    · cases hp
      exact List.mem_cons_self
  have harrive : (ssoSystem (obligingDiscourse env secret) url).step
      { issued := [nonce], waiting := [nonce]
        signed := [answerPayload (some nonce) me, discoursePayload nonce returnUrl] }
      (.arrive (ssoQuery (generateSsoResponse env (userData (some nonce) me) secret)))
      { issued := [nonce], waiting := [nonce].erase nonce
        signed := [answerPayload (some nonce) me, discoursePayload nonce returnUrl]
        logins := [⟨nonce, ascii (toString me.id), fields (toQuery (userData (some nonce) me))⟩] } := by
    refine ⟨?_, fun p hp _ => ?_⟩
    · show ssoNext (obligingDiscourse env secret) url _ _ = _
      simp only [ssoNext, obligingDiscourse]
      rw [obliging_answer me List.mem_cons_self]
    · rw [hquery p hp]
      exact List.mem_cons_self
  exact ⟨_, .cons hask (.cons hvisit (.cons harrive (.nil _))), rfl⟩

end Protocol

/-- The user with an ampersand in the name is logged in as themself. -/
theorem forger_logged_in : ∃ s, (ssoSystem (obligingDiscourse plainEnv (ascii "k")) (ascii "u")).Run {}
      (honestSteps plainEnv (ascii "k") (ascii "n") [] forger) s ∧
    s.logins.map Login.externalId = [ascii "7"] ∧
    (s.logins.map Login.nonce).Nodup ∧ ∀ login ∈ s.logins, login.nonce ∈ s.issued ∧
      ∃ a me q b, (ssoSystem (obligingDiscourse plainEnv (ascii "k")) (ascii "u")).StepOf {}
          (honestSteps plainEnv (ascii "k") (ascii "n") [] forger) s a
        (.visit (some me) (some q) (some (plainEnv.hexdigest (ascii "k") q))) b ∧ extractNonce q = some login.nonce ∧
        login.externalId = ascii (toString me.id) ∧ login.answer.Perm (userData (some login.nonce) me) := by
  obtain ⟨s, hrun, hids⟩ := @honest_login plainEnv (ascii "k") (ascii "u") (by decide)
    (by decide) (ascii "n") [] forger
  exact ⟨s, hrun, hids, sso_agreement plainEnv (ascii "u") (ascii "k") _ _ s hrun⟩

end Insta.Web
