import SimplyTransport.DateTime

/-!
# Access tokens

A token is decoded with the clock of the moment, and the renewal check of the site cookie decodes
it twice. A token that expires between the two readings passes the first and raises at the second,
and only then does a page fail for its cookie. Decoding is outside of the repository; times are of
UTC.
-/

namespace SimplyTransport.Auth

structure NotAuthorizedException where
  detail : String
  deriving DecidableEq

structure Token where
  sub : String
  exp : DateTime
  deriving DecidableEq

/-- `Token.decode` with the secret and the algorithm of the site: `verified` has the tokens that
are well formed and rightly signed, and of these an expired one raises. -/
structure TokenDecoder where
  verified : String → Option Token
  decode : String → DateTime → Except NotAuthorizedException Token
  decode_eq_ok : ∀ encoded now token,
    decode encoded now = .ok token ↔ verified encoded = some token ∧ now < token.exp

def anonymousSubject : String := "anonymous"

def accessTokenRefreshPath : String := "/access-token"

def unauthorized : NotAuthorizedException := ⟨"Missing or invalid access token"⟩

section Decoding

variable (decoder : TokenDecoder)

def decodeAccessToken (encodedToken : String) (now : DateTime) :
    Except NotAuthorizedException Token :=
  match decoder.decode encodedToken now with
  | .error _ => .error unauthorized
  | .ok token => if token.sub ≠ anonymousSubject then .error unauthorized else .ok token

def accessTokenIsValid (encodedToken : Option String) (now : DateTime) : Bool :=
  match encodedToken with
  | none => false
  | some encoded =>
    if encoded = "" then false
    else
      match decodeAccessToken decoder encoded now with
      | .error _ => false
      | .ok _ => true

/-- The readings of the clock in one call: at either decode, and for the time that remains. -/
structure Readings where
  validated : DateTime
  decoded : DateTime
  measured : DateTime
  validated_le : validated ≤ decoded
  decoded_le : decoded ≤ measured

structure TokenTtl where
  seconds : ℕ
  pos : 0 < seconds

variable (ttl : TokenTtl) (r : Readings)

def inSecondHalf (token : Token) (now : DateTime) : Prop :=
  2 * token.exp.sub now ≤ ttl.seconds * 1000000

instance (token : Token) (now : DateTime) : Decidable (inSecondHalf ttl token now) :=
  inferInstanceAs (Decidable (_ ≤ _))

def accessCookieNeedsRenewal (encodedToken : Option String) :
    Except NotAuthorizedException Bool := do
  if ¬ accessTokenIsValid decoder encodedToken r.validated then
    return true
  -- a valid token is not missing
  let token ← decodeAccessToken decoder (encodedToken.getD "") r.decoded
  return inSecondHalf ttl token r.measured

structure Scope where
  type : String
  path : Option String
  accessCookie : Option String

structure Forwarded where
  encodedToken : Option String
  refreshOpenPage : Bool
  deriving DecidableEq

def Forwarded.setsCookie (f : Forwarded) (contentType : String) : Bool :=
  f.encodedToken.isSome && ("text/html".toList.isPrefixOf contentType.toList || f.refreshOpenPage)

/-- `SiteAccessCookieMiddleware`, where `issued` is what `issue_access_token` returns. -/
def siteAccessCookieMiddleware (issued : String) (scope : Scope) :
    Except NotAuthorizedException Forwarded := do
  if scope.type ≠ "http" then
    return ⟨none, false⟩
  let refreshOpenPage : Bool := scope.path = some accessTokenRefreshPath
  if refreshOpenPage then
    return ⟨some issued, true⟩
  if ¬ (← accessCookieNeedsRenewal decoder ttl r scope.accessCookie) then
    return ⟨none, false⟩
  return ⟨some issued, false⟩

end Decoding

section Cookies

variable (decoder : TokenDecoder) (ttl : TokenTtl) (r : Readings) (cookie : Option String)

structure Fresh (encoded : String) (token : Token) (now : DateTime) : Prop where
  verified : decoder.verified encoded = some token
  unexpired : now < token.exp
  anonymous : token.sub = anonymousSubject
  firstHalf : ¬ inSecondHalf ttl token now

/-- The check returns, pages are forwarded, and only a fresh cookie is kept. -/
structure NeverRejects : Prop where
  returns : ∃ renew, accessCookieNeedsRenewal decoder ttl r cookie = .ok renew
  forwards : ∀ issued scope, scope.accessCookie = cookie →
    ∃ forwarded, siteAccessCookieMiddleware decoder ttl r issued scope = .ok forwarded
  kept : accessCookieNeedsRenewal decoder ttl r cookie = .ok false →
    ∃ encoded token, cookie = some encoded ∧ Fresh decoder ttl encoded token r.measured

/-- The cookie is a token of the anonymous subject that expires between the two decodes. -/
def ExpiresBetweenDecodes : Prop :=
  ∃ encoded token, cookie = some encoded ∧ encoded ≠ "" ∧
    decoder.verified encoded = some token ∧ token.sub = anonymousSubject ∧
    r.validated < token.exp ∧ token.exp ≤ r.decoded

end Cookies

section Checks

variable {decoder : TokenDecoder} {ttl : TokenTtl} {r : Readings} {cookie : Option String}

theorem decodeAccessToken_eq_ok {encoded : String} {now : DateTime} {token : Token} :
    decodeAccessToken decoder encoded now = .ok token ↔
      decoder.verified encoded = some token ∧ now < token.exp ∧ token.sub = anonymousSubject := by
  unfold decodeAccessToken
  cases hdecode : decoder.decode encoded now with
  | error e =>
      refine iff_of_false (fun h => by cases h) (fun h => ?_)
      rw [(decoder.decode_eq_ok encoded now token).2 ⟨h.1, h.2.1⟩] at hdecode
      cases hdecode
  | ok decoded =>
      obtain ⟨hverified, hexp⟩ := (decoder.decode_eq_ok encoded now decoded).1 hdecode
      by_cases hsub : decoded.sub = anonymousSubject
      · simp only [hsub, ne_eq, not_true_eq_false, if_false, Except.ok.injEq, hverified,
          Option.some.injEq]
        constructor
        · rintro rfl
          exact ⟨rfl, hexp, hsub⟩
        · exact fun h => h.1
      · simp only [hsub, ne_eq, not_false_eq_true, if_true, hverified, Option.some.injEq]
        refine iff_of_false (fun h => by cases h) ?_
        rintro ⟨rfl, -, h⟩
        exact hsub h

theorem decodeAccessToken_error {encoded : String} {now : DateTime} {e : NotAuthorizedException}
    (h : decodeAccessToken decoder encoded now = .error e) : e = unauthorized := by
  unfold decodeAccessToken at h
  cases hdecode : decoder.decode encoded now with
  | error e' =>
      rw [hdecode] at h
      exact (Except.error.inj h).symm
  | ok token =>
      rw [hdecode] at h
      dsimp only at h
      split_ifs at h
      exact (Except.error.inj h).symm

theorem decodeAccessToken_expired {encoded : String} {now : DateTime} {token : Token}
    (hverified : decoder.verified encoded = some token) (hexp : token.exp ≤ now) :
    decodeAccessToken decoder encoded now = .error unauthorized := by
  cases hdecode : decodeAccessToken decoder encoded now with
  | error e => rw [decodeAccessToken_error hdecode]
  | ok token' =>
      obtain ⟨hverified', hexp', -⟩ := decodeAccessToken_eq_ok.1 hdecode
      obtain rfl := Option.some.inj (hverified.symm.trans hverified')
      exact absurd hexp' (not_lt.2 hexp)

theorem accessTokenIsValid_iff {now : DateTime} : accessTokenIsValid decoder cookie now = true ↔
    ∃ encoded token, cookie = some encoded ∧ encoded ≠ "" ∧
      decodeAccessToken decoder encoded now = .ok token := by
  cases cookie with
  | none => simp [accessTokenIsValid]
  | some encoded =>
      by_cases hempty : encoded = ""
      · simp [accessTokenIsValid, hempty]
      · cases hdecode : decodeAccessToken decoder encoded now with
        | error e => simp [accessTokenIsValid, hempty, hdecode]
        | ok token => simp [accessTokenIsValid, hempty, hdecode]

theorem needsRenewal_of_invalid (h : accessTokenIsValid decoder cookie r.validated = false) :
    accessCookieNeedsRenewal decoder ttl r cookie = .ok true := by
  rw [accessCookieNeedsRenewal, h]
  rfl

/-- A cookie that passes the check is decoded again, and raises where it has expired by then. -/
theorem needsRenewal_of_valid {encoded : String} {token : Token} (hempty : encoded ≠ "")
    (hdecode : decodeAccessToken decoder encoded r.validated = .ok token) :
    accessCookieNeedsRenewal decoder ttl r (some encoded) =
      if r.decoded < token.exp then .ok (decide (inSecondHalf ttl token r.measured))
      else .error unauthorized := by
  have hvalid := accessTokenIsValid_iff.2 ⟨encoded, token, rfl, hempty, hdecode⟩
  obtain ⟨hverified, -, hsub⟩ := decodeAccessToken_eq_ok.1 hdecode
  rw [accessCookieNeedsRenewal, if_neg (not_not.2 hvalid), Option.getD_some]
  by_cases hexp : r.decoded < token.exp
  · rw [if_pos hexp, decodeAccessToken_eq_ok.2 ⟨hverified, hexp, hsub⟩]
    rfl
  · rw [if_neg hexp, decodeAccessToken_expired hverified (not_lt.1 hexp)]
    rfl

/-- How the renewal check ends: it returns for a cookie that is not valid and for one that is still
valid at the second decode, and raises otherwise. -/
theorem needsRenewal_cases (decoder : TokenDecoder) (ttl : TokenTtl) (r : Readings)
    (cookie : Option String) :
    accessCookieNeedsRenewal decoder ttl r cookie = .ok true ∨
      (∃ encoded token, cookie = some encoded ∧ decoder.verified encoded = some token ∧
        token.sub = anonymousSubject ∧ r.decoded < token.exp ∧
        accessCookieNeedsRenewal decoder ttl r cookie =
          .ok (decide (inSecondHalf ttl token r.measured))) ∨
      ExpiresBetweenDecodes decoder r cookie ∧
        accessCookieNeedsRenewal decoder ttl r cookie = .error unauthorized := by
  cases hvalid : accessTokenIsValid decoder cookie r.validated with
  | false => exact Or.inl (needsRenewal_of_invalid hvalid)
  | true =>
      obtain ⟨encoded, token, rfl, hempty, hdecode⟩ := accessTokenIsValid_iff.1 hvalid
      obtain ⟨hverified, hlater, hsub⟩ := decodeAccessToken_eq_ok.1 hdecode
      have hrenewal : accessCookieNeedsRenewal decoder ttl r (some encoded) = _ :=
        needsRenewal_of_valid hempty hdecode
      by_cases hexp : r.decoded < token.exp
      · rw [if_pos hexp] at hrenewal
        exact Or.inr (Or.inl ⟨encoded, token, rfl, hverified, hsub, hexp, hrenewal⟩)
      · rw [if_neg hexp] at hrenewal
        refine Or.inr (Or.inr ⟨?_, hrenewal⟩)
        exact ⟨encoded, token, rfl, hempty, hverified, hsub, hlater, not_lt.1 hexp⟩

theorem needsRenewal_expired (h : ExpiresBetweenDecodes decoder r cookie) :
    accessCookieNeedsRenewal decoder ttl r cookie = .error unauthorized := by
  obtain ⟨encoded, token, rfl, hempty, hverified, hsub, hlater, hexp⟩ := h
  rw [needsRenewal_of_valid hempty (decodeAccessToken_eq_ok.2 ⟨hverified, hlater, hsub⟩),
    if_neg (not_lt.2 hexp)]

/-- The middleware forwards where the check returns. -/
theorem middleware_forwards {renew : Bool}
    (h : accessCookieNeedsRenewal decoder ttl r cookie = .ok renew) (issued : String)
    {scope : Scope} (hcookie : scope.accessCookie = cookie) :
    ∃ forwarded, siteAccessCookieMiddleware decoder ttl r issued scope = .ok forwarded := by
  unfold siteAccessCookieMiddleware
  rw [hcookie, h]
  by_cases htype : scope.type = "http"
  · by_cases hpath : scope.path = some accessTokenRefreshPath
    · simp [htype, hpath, pure, Except.pure]
    · cases renew <;> simp [htype, hpath, pure, Except.pure, bind, Except.bind]
  · simp [htype, pure, Except.pure]

/-- A token with more than half of its lifetime left has not expired. -/
theorem unexpired_of_firstHalf {token : Token} {now : DateTime}
    (h : ¬ inSecondHalf ttl token now) : now < token.exp := by
  have hpos := ttl.pos
  rw [inSecondHalf, DateTime.sub] at h
  rw [DateTime.lt_iff]
  omega

end Checks

/-- The check never rejects a page exactly where the cookie does not expire between the two times
at which it is decoded. -/
theorem cookie_check_never_rejects_iff (decoder : TokenDecoder) (ttl : TokenTtl) (r : Readings)
    (cookie : Option String) :
    NeverRejects decoder ttl r cookie ↔ ¬ ExpiresBetweenDecodes decoder r cookie := by
  constructor
  · intro hnever hexpires
    obtain ⟨renew, hrenew⟩ := hnever.returns
    rw [needsRenewal_expired hexpires] at hrenew
    cases hrenew
  · intro hexpires
    rcases needsRenewal_cases decoder ttl r cookie with
      hrenew | ⟨encoded, token, rfl, hverified, hsub, -, hrenew⟩ | ⟨h, -⟩
    · refine ⟨⟨true, hrenew⟩, fun issued _ => middleware_forwards hrenew issued, fun hkept => ?_⟩
      rw [hrenew] at hkept
      cases hkept
    · refine ⟨⟨_, hrenew⟩, fun issued _ => middleware_forwards hrenew issued, fun hkept => ?_⟩
      rw [hrenew] at hkept
      have hhalf := of_decide_eq_false (Except.ok.inj hkept)
      exact ⟨encoded, token, rfl, hverified, unexpired_of_firstHalf hhalf, hsub, hhalf⟩
    · exact absurd h hexpires

section Expiry

def lastSecondToken : Token := ⟨anonymousSubject, ⟨3600000000⟩⟩

def lastSecondVerified (encoded : String) : Option Token :=
  if encoded = "header.payload.signature" then some lastSecondToken else none

def lastSecondDecode (encoded : String) (now : DateTime) :
    Except NotAuthorizedException Token :=
  match lastSecondVerified encoded with
  | none => .error ⟨"Invalid token"⟩
  | some token => if now < token.exp then .ok token else .error ⟨"Invalid token"⟩

theorem lastSecondDecode_eq_ok (encoded : String) (now : DateTime) (token : Token) :
    lastSecondDecode encoded now = .ok token ↔
      lastSecondVerified encoded = some token ∧ now < token.exp := by
  unfold lastSecondDecode
  cases lastSecondVerified encoded with
  | none => simp
  | some token' =>
      by_cases hexp : now < token'.exp
      · simp only [hexp, if_true, Except.ok.injEq, Option.some.injEq, iff_self_and]
        rintro rfl
        exact hexp
      · simp only [hexp, if_false, reduceCtorEq, Option.some.injEq, false_iff, not_and]
        rintro rfl
        exact hexp

def lastSecondDecoder : TokenDecoder :=
  ⟨lastSecondVerified, lastSecondDecode, lastSecondDecode_eq_ok⟩

theorem hour_pos : 0 < 3600 := by decide

def hourTtl : TokenTtl := ⟨3600, hour_pos⟩

theorem lastSecond_le : (⟨3599999999⟩ : DateTime) ≤ ⟨3600000000⟩ := by decide

theorem hour_le : (⟨3600000000⟩ : DateTime) ≤ ⟨3600000000⟩ := le_rfl

def lastSecondReadings : Readings :=
  ⟨⟨3599999999⟩, ⟨3600000000⟩, ⟨3600000000⟩, lastSecond_le, hour_le⟩

/-- The cookie is valid when it is checked and raises when it is decoded again. -/
theorem expiring_cookie_rejects_page :
    ¬ ∀ (decoder : TokenDecoder) (ttl : TokenTtl) (r : Readings) (cookie : Option String),
      NeverRejects decoder ttl r cookie := by
  intro hall
  obtain ⟨forwarded, hforwarded⟩ :=
    (hall lastSecondDecoder hourTtl lastSecondReadings (some "header.payload.signature")).forwards
      "issued" ⟨"http", some "/", some "header.payload.signature"⟩ rfl
  have hraises : siteAccessCookieMiddleware lastSecondDecoder hourTtl lastSecondReadings "issued"
      ⟨"http", some "/", some "header.payload.signature"⟩ = .error unauthorized := by decide
  rw [hraises] at hforwarded
  cases hforwarded

end Expiry

end SimplyTransport.Auth
