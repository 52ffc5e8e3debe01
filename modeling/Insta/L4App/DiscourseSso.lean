import Insta.Core.Base64
import Insta.Core.FormUrl
import Mathlib.Data.List.TakeWhile

/-!
# Discourse single sign-on

`DiscourseSsoController#sso`: Discourse sends a signed payload with a nonce,
the application answers with a redirect whose signed payload names the
signed-in user. Texts are byte strings; the HMAC, `String#blank?` and
`URI(…).host` are parameters of `SsoEnv`, with what is used of them.

* `sso_answer`: with both settings present, the application accepts what
  Discourse sends and redirects to an answer that Discourse verifies and
  reads as the six fields of the user, whatever bytes are in them.
* `redirectTo_append`: a query does not decide whether a redirect is made.
* `sso_round_trip_iff`: so the sign-on succeeds exactly when Discourse runs
  under the host name of the application: `redirect_to` raises for another
  host, since `load_defaults 7.1` sets `raise_on_open_redirects`.
-/
namespace Insta.Web

open Insta.Core Insta.Core.FormUrl

/-! ## The action -/

structure SsoEnv where
  /-- The SHA-256 HMAC of a message under a key. -/
  digest : Bytes → Bytes → Bytes
  digest_ne_nil : ∀ key message, digest key message ≠ []
  /-- `String#blank?`; `none` when its regexp raises, on bytes that are no
  text. -/
  blank : Bytes → Option Bool
  blank_of_visible : ∀ s, s ≠ [] → (∀ b ∈ s, visible b = true) → blank s = some false
  /-- `URI(url).host`; the outer `none` is a URI that does not parse. -/
  uriHost : Bytes → Option (Option Bytes)
  uriHost_query : ∀ u x h, (∀ b ∈ h, unreserved b = true) →
    uriHost (u ++ ascii "?" ++ (ascii "sso=" ++ escape x ++ ascii "&sig=" ++ h)) = uriHost (u ++ ascii "?")

/-- `DISCOURSE_URL` and `DISCOURSE_SSO_SECRET`. -/
structure SsoConfig where
  discourseUrl : Option Bytes
  secret : Option Bytes

/-- What the request says about the application's own address. -/
structure Site where
  protocol : Bytes
  host : Bytes
  hostWithPort : Bytes

/-- The columns of `current_user` that the action reads. -/
structure SsoUser where
  id : Nat
  email : Option Bytes
  username : Option Bytes
  admin : Bool

inductive SsoError
  | argument
  | unsafeRedirect
deriving DecidableEq

inductive SsoResponse
  | signIn
  | plain (status : Nat) (body : String)
  | redirect (location : Bytes)
deriving DecidableEq

def hexLower (n : Nat) : UInt8 := if n < 10 then .ofNat (n + 48) else .ofNat (n + 87)

def SsoEnv.hexdigest (env : SsoEnv) (key message : Bytes) : Bytes :=
  (env.digest key message).flatMap fun b => [hexLower (b.toNat / 16), hexLower (b.toNat % 16)]

def SsoEnv.isBlank (env : SsoEnv) : Option Bytes → Except SsoError Bool
  | none => return true
  | some s =>
    match env.blank s with
    | some b => return b
    | none => throw .argument

def slash : UInt8 := 47

def letter (b : UInt8) : Bool := 65 ≤ b.toNat && b.toNat ≤ 90 || 97 ≤ b.toNat && b.toNat ≤ 122

def schemeByte (b : UInt8) : Bool :=
  letter b || 48 ≤ b.toNat && b.toNat ≤ 57 || b == 43 || b == 45 || b == 46

def hasScheme : Bytes → Bool
  | [] => false
  | b :: rest => letter b && (rest.dropWhile schemeByte).head? == some 58

/-- A location that `redirect_to` takes as it is: a scheme or two slashes,
and no line break. -/
def absolute (s : Bytes) : Bool := (hasScheme s || s.take 2 == ascii "//") && !s.contains 10

/-- NUL, LF and CR, which `redirect_to` deletes from the location. -/
def deletedByte (b : UInt8) : Bool := b == 0 || b == 10 || b == 13

def Site.locationOf (site : Site) (target : Bytes) : Bytes :=
  (if absolute target then target else site.protocol ++ site.hostWithPort ++ target).filter fun b => !deletedByte b

def headerSafe (s : Bytes) : Bool := s.all fun b => !(b.toNat ≤ 8 || 10 ≤ b.toNat && b.toNat ≤ 31)

/-- `_url_host_allowed?` -/
def SsoEnv.hostAllowed (env : SsoEnv) (site : Site) (location : Bytes) : Bool :=
  match env.uriHost location with
  | some (some host) => host == site.host
  | some none => location.take 1 == ascii "/" && location.take 2 != ascii "//"
  | none => false

/-- Whether `redirect_to` without `allow_other_host` makes the redirect. -/
def SsoEnv.redirects (env : SsoEnv) (site : Site) (target : Bytes) : Bool :=
  headerSafe (site.locationOf target) && env.hostAllowed site (site.locationOf target)

def SsoEnv.redirectTo (env : SsoEnv) (site : Site) (target : Bytes) : Except SsoError SsoResponse :=
  if env.redirects site target then return .redirect (site.locationOf target) else throw .unsafeRedirect

/-- mirrors app/controllers/discourse_sso_controller.rb:59-62 -/
def validSignature (env : SsoEnv) (ssoPayload sig secret : Bytes) : Bool :=
  env.hexdigest secret ssoPayload == sig

/-- mirrors app/controllers/discourse_sso_controller.rb:65-68 -/
def extractNonce (ssoPayload : Bytes) : Option Bytes :=
  firstValue (ascii "nonce") (parse (Base64.decode ssoPayload))

/-- `user_data` with the values that `to_query` writes: those of `nil` are
empty. -/
def userData (nonce : Option Bytes) (me : SsoUser) : List (Bytes × Bytes) :=
  let admin := if me.admin then ascii "true" else ascii "false"
  [(ascii "nonce", nonce.getD []), (ascii "external_id", ascii (toString me.id)),
    (ascii "email", me.email.getD []), (ascii "username", me.username.getD []),
    (ascii "admin", admin), (ascii "moderator", admin)]

/-- mirrors app/controllers/discourse_sso_controller.rb:71-76 -/
def generateSsoResponse (env : SsoEnv) (data : List (Bytes × Bytes)) (secret : Bytes) : Bytes × Bytes :=
  let encoded := Base64.encode (toQuery data)
  (escape encoded, env.hexdigest secret encoded)

def sessionLogin (url : Bytes) : Bytes := url ++ ascii "/session/sso_login" ++ ascii "?"

def ssoQuery (response : Bytes × Bytes) : Bytes :=
  ascii "sso=" ++ response.1 ++ ascii "&sig=" ++ response.2

/-- mirrors app/controllers/discourse_sso_controller.rb:6-54; the filter
`authenticate_user!` runs first, so the action's own test for a missing user
is never met. -/
def sso (env : SsoEnv) (config : SsoConfig) (site : Site) (ssoPayload sig : Option Bytes) :
    Option SsoUser → Except SsoError SsoResponse
  | none => return .signIn
  | some me => do
    if ← env.isBlank config.discourseUrl then
      return .plain 500 "Server misconfiguration: Missing Discourse URL"
    if ← env.isBlank config.secret then
      return .plain 500 "Server misconfiguration: Missing SSO secret"
    let url := config.discourseUrl.getD []
    let secret := config.secret.getD []
    if ← (env.isBlank ssoPayload <||> env.isBlank sig) then
      env.redirectTo site (url ++ ascii "/login")
    else if validSignature env (ssoPayload.getD []) (sig.getD []) secret then
      let response := generateSsoResponse env (userData (extractNonce (ssoPayload.getD [])) me) secret
      env.redirectTo site (sessionLogin url ++ ssoQuery response)
    else
      return .plain 401 "Invalid SSO request"

/-! ## The other side -/

/-- The payload Discourse sends. -/
def discoursePayload (nonce returnUrl : Bytes) : Bytes :=
  Base64.encode (joined [(ascii "nonce", nonce), (ascii "return_sso_url", returnUrl)])

/-- What Discourse reads from the query it is redirected to, if it verifies. -/
def readAnswer (env : SsoEnv) (secret query : Bytes) : Option (List (Bytes × Bytes)) := do
  let payload ← (fields query).lookup (ascii "sso")
  let sig ← (fields query).lookup (ascii "sig")
  if sig = env.hexdigest secret payload then some (fields (Base64.decode payload)) else none

/-- Discourse at `url` asks who is signed in and reads the six fields. -/
def RoundTrip (env : SsoEnv) (site : Site) (url secret nonce returnUrl : Bytes) (me : SsoUser) : Prop :=
  let payload := discoursePayload nonce returnUrl
  ∃ query answer,
    sso env ⟨some url, some secret⟩ site (some payload) (some (env.hexdigest secret payload)) (some me) =
      .ok (.redirect (site.locationOf (sessionLogin url) ++ query)) ∧
    readAnswer env secret query = some answer ∧
    answer.Perm
      [(ascii "nonce", nonce), (ascii "external_id", ascii (toString me.id)),
        (ascii "email", me.email.getD []), (ascii "username", me.username.getD []),
        (ascii "admin", ascii (if me.admin then "true" else "false")),
        (ascii "moderator", ascii (if me.admin then "true" else "false"))]

/-! ## The answer -/

theorem unreserved_hexLower : ∀ n < 16, unreserved (hexLower n) = true := by decide

variable (env : SsoEnv)

theorem unreserved_of_mem_hexdigest {key message : Bytes} {b : UInt8} (h : b ∈ env.hexdigest key message) :
    unreserved b = true := by
  obtain ⟨a, -, hb⟩ := List.mem_flatMap.1 h
  have ha := a.toNat_lt
  simp only [List.mem_cons, List.not_mem_nil, or_false] at hb
  obtain rfl | rfl := hb
  · exact unreserved_hexLower _ (by omega)
  · exact unreserved_hexLower _ (by omega)

theorem hexdigest_ne_nil (key message : Bytes) : env.hexdigest key message ≠ [] := by
  obtain ⟨b, rest, h⟩ := List.exists_cons_of_ne_nil (env.digest_ne_nil key message)
  simp [SsoEnv.hexdigest, h]

theorem isBlank_eq_false_iff {s : Bytes} : env.isBlank (some s) = .ok false ↔ env.blank s = some false := by
  simp only [SsoEnv.isBlank]
  cases env.blank s with
  | none => exact ⟨nofun, nofun⟩
  | some b => cases b with
    | true => exact ⟨nofun, nofun⟩
    | false => exact ⟨fun _ => rfl, fun _ => rfl⟩

theorem isBlank_hexdigest (key message : Bytes) :
    env.isBlank (some (env.hexdigest key message)) = .ok false :=
  (isBlank_eq_false_iff env).2 <| env.blank_of_visible _ (hexdigest_ne_nil env key message)
    fun _ hb => visible_of_unreserved (unreserved_of_mem_hexdigest env hb)

theorem isBlank_discoursePayload (nonce returnUrl : Bytes) :
    env.isBlank (some (discoursePayload nonce returnUrl)) = .ok false := by
  refine (isBlank_eq_false_iff env).2 (env.blank_of_visible _ ?_ fun b hb => ?_)
  · exact Base64.encode_ne_nil (by simp [joined, pair, List.intercalate_cons_cons])
  · simpa [visible] using Base64.encode_visible _ b hb

theorem extractNonce_discoursePayload (nonce returnUrl : Bytes) :
    extractNonce (discoursePayload nonce returnUrl) = some nonce := by
  unfold extractNonce discoursePayload
  rw [Base64.decode_encode, parse_joined (List.cons_ne_nil _ _)]
  simp [firstValue]

theorem ssoQuery_eq_joined {x h : Bytes} (hh : ∀ b ∈ h, unreserved b = true) :
    ssoQuery (escape x, h) = joined [(ascii "sso", x), (ascii "sig", h)] := by
  have hsso : ascii "sso=" = escape (ascii "sso") ++ [equals] := by decide
  have hsig : ascii "&sig=" = [amp] ++ escape (ascii "sig") ++ [equals] := by decide
  simp [ssoQuery, joined, pair, List.intercalate_cons_cons, hsso, hsig, escape_of_unreserved hh]

theorem readAnswer_generated (data : List (Bytes × Bytes)) (secret : Bytes) :
    readAnswer env secret (ssoQuery (generateSsoResponse env data secret)) = some (fields (toQuery data)) := by
  unfold generateSsoResponse readAnswer
  rw [ssoQuery_eq_joined fun b hb => unreserved_of_mem_hexdigest env hb, fields_joined (List.cons_ne_nil _ _)]
  have hne : (ascii "sig" == ascii "sso") = false := by decide
  simp [List.lookup_cons, hne, Base64.decode_encode]

theorem sso_answer {url secret : Bytes} (hurl : env.blank url = some false)
    (hsecret : env.blank secret = some false) (site : Site) (nonce returnUrl : Bytes) (me : SsoUser) :
    sso env ⟨some url, some secret⟩ site (some (discoursePayload nonce returnUrl))
        (some (env.hexdigest secret (discoursePayload nonce returnUrl))) (some me) =
      env.redirectTo site
        (sessionLogin url ++ ssoQuery (generateSsoResponse env (userData (some nonce) me) secret)) := by
  simp [sso, (isBlank_eq_false_iff env).2 hurl, (isBlank_eq_false_iff env).2 hsecret, isBlank_discoursePayload,
    isBlank_hexdigest, validSignature, extractNonce_discoursePayload, bind, Except.bind, orM, toBool]

/-! ## The redirect -/

theorem head?_dropWhile_append {α : Type*} {p : α → Bool} {l : List α} {a : α} (ha : a ∈ l) (hp : p a = false)
    (m : List α) : ((l ++ m).dropWhile p).head? = (l.dropWhile p).head? := by
  have hne : l.dropWhile p ≠ [] := by
    rw [Ne, List.dropWhile_eq_nil_iff]
    exact fun h => absurd (h a ha) (by rw [hp]; exact Bool.false_ne_true)
  rw [List.dropWhile_append, if_neg (by simpa using hne), List.head?_append_of_ne_nil _ hne]

theorem hasScheme_append {s : Bytes} (h : slash ∈ s) (q : Bytes) : hasScheme (s ++ q) = hasScheme s := by
  cases s with
  | nil => cases h
  | cons b rest =>
    show (letter b && ((rest ++ q).dropWhile schemeByte).head? == some 58) = _
    obtain rfl | hrest := List.mem_cons.1 h
    · rfl
    · rw [head?_dropWhile_append hrest (by decide)]
      rfl

theorem absolute_append {s q : Bytes} (hs : slash ∈ s) (hlen : 2 ≤ s.length) (hq : 10 ∉ q) :
    absolute (s ++ q) = absolute s := by
  unfold absolute
  rw [hasScheme_append hs, List.take_append_of_le_length hlen]
  simp [hq]

variable {env} (site : Site) (url : Bytes)

theorem slash_mem_sessionLogin : slash ∈ sessionLogin url := by
  have h : slash ∈ ascii "/session/sso_login" := by decide
  simp [sessionLogin, h]

theorem filter_visible {q : Bytes} (hq : ∀ b ∈ q, visible b = true) : q.filter (fun b => !deletedByte b) = q := by
  refine List.filter_eq_self.2 fun b hb => ?_
  have hv := hq b hb
  rw [Bool.not_eq_true']
  by_contra hd
  simp only [deletedByte, Bool.or_eq_true, beq_iff_eq, Bool.not_eq_false] at hd
  rcases hd with (rfl | rfl) | rfl <;> cases hv

theorem locationOf_append {q : Bytes} (hq : ∀ b ∈ q, visible b = true) :
    site.locationOf (sessionLogin url ++ q) = site.locationOf (sessionLogin url) ++ q := by
  have hlen : 2 ≤ (sessionLogin url).length := by simp [sessionLogin, ascii]
  have hline : 10 ∉ q := fun h => absurd (hq 10 h) (by decide)
  unfold Site.locationOf
  rw [absolute_append (slash_mem_sessionLogin url) hlen hline]
  split
  · rw [List.filter_append, filter_visible hq]
  · rw [← List.append_assoc _ _ q, List.filter_append, filter_visible hq]

theorem headerSafe_append {s q : Bytes} (hq : ∀ b ∈ q, visible b = true) :
    headerSafe (s ++ q) = headerSafe s := by
  have h : (q.all fun b => !(b.toNat ≤ 8 || 10 ≤ b.toNat && b.toNat ≤ 31)) = true := by
    rw [List.all_eq_true]
    intro b hb
    have hv := hq b hb
    simp only [visible, Bool.and_eq_true, decide_eq_true_eq] at hv
    simp
    omega
  unfold headerSafe
  rw [List.all_append, h, Bool.and_true]

/-- A location to Discourse's endpoint ends in a question mark. -/
theorem locationOf_sessionLogin :
    ∃ u, site.locationOf (sessionLogin url) = u ++ ascii "?" ∧ 2 ≤ (site.locationOf (sessionLogin url)).length := by
  have hpath : (ascii "/session/sso_login").filter (fun b => !deletedByte b) = ascii "/session/sso_login" := by decide
  have hmark : (ascii "?").filter (fun b => !deletedByte b) = ascii "?" := by decide
  have hends : ∀ u : Bytes, (u ++ sessionLogin url).filter (fun b => !deletedByte b) =
      ((u ++ url).filter (fun b => !deletedByte b) ++ ascii "/session/sso_login") ++ ascii "?" := by
    intro u
    rw [sessionLogin, List.filter_append, List.filter_append, List.filter_append, List.filter_append, hpath, hmark]
    simp only [List.append_assoc]
  have hlen : ∀ u : Bytes, 2 ≤ ((u ++ ascii "/session/sso_login") ++ ascii "?").length := by
    intro u
    simp [ascii]
  unfold Site.locationOf
  split
  · have h := hends []
    rw [List.nil_append] at h
    exact ⟨_, h, h ▸ hlen _⟩
  · exact ⟨_, hends _, hends _ ▸ hlen _⟩

theorem visible_of_mem_ssoQuery {x h : Bytes} (hh : ∀ b ∈ h, unreserved b = true) :
    ∀ b ∈ ssoQuery (escape x, h), visible b = true := by
  have hsso : (ascii "sso=").all visible = true := by decide
  have hsig : (ascii "&sig=").all visible = true := by decide
  intro b hb
  simp only [ssoQuery, List.mem_append] at hb
  obtain ((hb | hb) | hb) | hb := hb
  · exact List.all_eq_true.1 hsso b hb
  · exact visible_of_mem_escape hb
  · exact List.all_eq_true.1 hsig b hb
  · exact visible_of_unreserved (hh b hb)

theorem redirectTo_append {x h : Bytes} (hh : ∀ b ∈ h, unreserved b = true) :
    env.redirectTo site (sessionLogin url ++ ssoQuery (escape x, h)) =
      if env.redirects site (sessionLogin url) then
        .ok (.redirect (site.locationOf (sessionLogin url) ++ ssoQuery (escape x, h)))
      else .error .unsafeRedirect := by
  have hq := visible_of_mem_ssoQuery (x := x) hh
  obtain ⟨u, hu, hlen⟩ := locationOf_sessionLogin site url
  have hhost : env.hostAllowed site (site.locationOf (sessionLogin url) ++ ssoQuery (escape x, h)) =
      env.hostAllowed site (site.locationOf (sessionLogin url)) := by
    unfold SsoEnv.hostAllowed
    rw [List.take_append_of_le_length hlen, List.take_append_of_le_length (by omega), hu]
    unfold ssoQuery
    rw [env.uriHost_query u x h hh]
  unfold SsoEnv.redirectTo SsoEnv.redirects
  rw [locationOf_append site url hq, headerSafe_append hq, hhost]
  rfl

theorem exists_of_bind_ok {ε α β : Type} {x : Except ε α} {f : α → Except ε β} {b : β}
    (h : (x >>= f) = .ok b) : ∃ a, x = .ok a ∧ f a = .ok b := by
  cases x with
  | error e => cases h
  | ok a => exact ⟨a, rfl, h⟩

theorem blank_of_redirect {secret : Bytes} {payload sig : Option Bytes} {me : SsoUser} {location : Bytes}
    (h : sso env ⟨some url, some secret⟩ site payload sig (some me) = .ok (.redirect location)) :
    env.blank url = some false ∧ env.blank secret = some false := by
  obtain ⟨noUrl, hurl, h⟩ := exists_of_bind_ok h
  cases noUrl with
  | true => cases h
  | false =>
    obtain ⟨noSecret, hsecret, h⟩ := exists_of_bind_ok h
    cases noSecret with
    | true => cases h
    | false => exact ⟨(isBlank_eq_false_iff env).1 hurl, (isBlank_eq_false_iff env).1 hsecret⟩

theorem sso_round_trip_iff (env : SsoEnv) (site : Site) (url secret nonce returnUrl : Bytes) (me : SsoUser) :
    RoundTrip env site url secret nonce returnUrl me ↔
      env.blank url = some false ∧ env.blank secret = some false ∧
        env.redirects site (sessionLogin url) = true := by
  constructor
  · rintro ⟨query, answer, hsso, -, -⟩
    obtain ⟨hurl, hsecret⟩ := blank_of_redirect site url hsso
    refine ⟨hurl, hsecret, ?_⟩
    rw [sso_answer env hurl hsecret, generateSsoResponse,
      redirectTo_append site url fun b hb => unreserved_of_mem_hexdigest env hb] at hsso
    split at hsso
    · assumption
    · cases hsso
  · rintro ⟨hurl, hsecret, hredirects⟩
    have hsso := sso_answer env hurl hsecret site nonce returnUrl me
    rw [generateSsoResponse, redirectTo_append site url fun b hb => unreserved_of_mem_hexdigest env hb,
      if_pos hredirects] at hsso
    refine ⟨_, _, hsso, readAnswer_generated env (userData (some nonce) me) secret, ?_⟩
    refine (fields_toQuery (List.cons_ne_nil _ _)).trans (List.Perm.of_eq ?_)
    cases me.admin <;> rfl

/-! ## One host and two -/

/-- The part between the two slashes of a scheme and the next slash. -/
def plainHost (u : Bytes) : Option Bytes :=
  match (u.takeWhile (· != 63)).dropWhile (· != slash) with
  | _ :: _ :: rest => some (rest.takeWhile (· != slash))
  | _ => none

theorem takeWhile_question (u q : Bytes) :
    (u ++ ascii "?" ++ q).takeWhile (· != 63) = u.takeWhile (· != 63) := by
  induction u with
  | nil => rfl
  | cons b u ih => simp only [List.cons_append, List.takeWhile_cons, ih]

/-- A digest that is another one for each message; whitespace is blank. -/
def plainEnv : SsoEnv where
  digest key message := 0 :: (key ++ message)
  digest_ne_nil _ _ := List.cons_ne_nil _ _
  blank s := some (s.all fun b => !visible b)
  blank_of_visible := by
    intro s hs h
    obtain ⟨b, rest, rfl⟩ := List.exists_cons_of_ne_nil hs
    simp [h b List.mem_cons_self]
  uriHost u := some (plainHost u)
  uriHost_query := by
    intro u x h _
    have hcut := takeWhile_question u []
    rw [List.append_nil] at hcut
    simp only [plainHost, takeWhile_question, hcut]

def portal : Site where
  protocol := ascii "https://"
  host := ascii "insta.example"
  hostWithPort := ascii "insta.example"

/-- A username that would forge two fields if it were not escaped. -/
def forger : SsoUser := ⟨7, some (ascii "x@y.z"), some (ascii "a&admin=true;b"), false⟩

theorem same_host_round_trip :
    RoundTrip plainEnv portal (ascii "https://insta.example/forum") (ascii "k") (ascii "n%") [] forger :=
  (sso_round_trip_iff plainEnv portal (ascii "https://insta.example/forum") (ascii "k") (ascii "n%") [] forger).2
    (by decide)

theorem other_host_raises :
    sso plainEnv ⟨some (ascii "https://forum.example"), some (ascii "k")⟩ portal
        (some (discoursePayload (ascii "n%") []))
        (some (plainEnv.hexdigest (ascii "k") (discoursePayload (ascii "n%") []))) (some forger) =
      .error .unsafeRedirect ∧
    ¬ RoundTrip plainEnv portal (ascii "https://forum.example") (ascii "k") (ascii "n%") [] forger := by
  have hraised : sso plainEnv ⟨some (ascii "https://forum.example"), some (ascii "k")⟩ portal
      (some (discoursePayload (ascii "n%") []))
      (some (plainEnv.hexdigest (ascii "k") (discoursePayload (ascii "n%") []))) (some forger) =
        .error .unsafeRedirect := by decide +kernel
  refine ⟨hraised, ?_⟩
  rintro ⟨query, answer, hsso, -, -⟩
  rw [hraised] at hsso
  cases hsso

end Insta.Web
