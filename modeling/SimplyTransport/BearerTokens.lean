import SimplyTransport.AccessTokens

/-!
# Bearer tokens and the site cookie

The API takes a bearer token or the site cookie, and throttles what another function calls a bearer
request. A request that is accepted by its bearer token is throttled and gets no cookie, one that is
accepted by its cookie is not and gets a fresh one. An empty header is taken for none.
-/

namespace SimplyTransport.Auth

inductive AuthSource
  | bearer
  | cookie
  deriving DecidableEq

structure Connection where
  authorization : Option String
  accessCookie : Option String

def partition (separator : Char) (text : List Char) : List Char × List Char :=
  (text.takeWhile (fun c => c ≠ separator), (text.dropWhile (fun c => c ≠ separator)).drop 1)

section Requests

variable (lower : Char → List Char)

def lowerText (text : List Char) : List Char := text.flatMap lower

def requestHasBearerToken (connection : Connection) : Bool :=
  "bearer ".toList.isPrefixOf (lowerText lower (connection.authorization.getD "").toList)

def credentialsFromConnection (connection : Connection) :
    Except NotAuthorizedException (AuthSource × String) :=
  let authorization := connection.authorization.getD ""
  if authorization ≠ "" then
    let (scheme, value) := partition ' ' authorization.toList
    if lowerText lower scheme = "bearer".toList ∧ value ≠ [] then .ok (.bearer, String.ofList value)
    else .error unauthorized
  else
    let cookie := connection.accessCookie.getD ""
    if cookie ≠ "" then .ok (.cookie, cookie) else .error unauthorized

/-- What `ApiTokenMiddleware` hands on: the user and the token in the scope, and the token that
`_send_with_access_cookie` appends to the response. -/
structure Authenticated where
  source : AuthSource
  user : String
  auth : Token
  freshCookie : Option String
  deriving DecidableEq

def apiTokenMiddleware (decoder : TokenDecoder) (now : DateTime) (issued : String)
    (connection : Connection) : Except NotAuthorizedException Authenticated := do
  let (source, encoded) ← credentialsFromConnection lower connection
  let token ← decodeAccessToken decoder encoded now
  return {
    source
    user := anonymousSubject
    auth := token
    freshCookie := if source = .cookie then some issued else none }

/-- A request of the protected routes: an accepted one goes on to the rate limit, which counts it
where `check_throttle_handler` holds. -/
structure Accepted extends Authenticated where
  spendsBearerBudget : Bool
  deriving DecidableEq

def protectedRequest (decoder : TokenDecoder) (now : DateTime) (issued : String)
    (connection : Connection) : Except NotAuthorizedException Accepted := do
  let authenticated ← apiTokenMiddleware lower decoder now issued connection
  return ⟨authenticated, requestHasBearerToken lower connection⟩

end Requests

section Headers

variable {lower : Char → List Char} {connection : Connection}

theorem partition_eq {separator : Char} {text scheme value : List Char}
    (h : partition separator text = (scheme, value)) (hvalue : value ≠ []) :
    text = scheme ++ separator :: value := by
  obtain ⟨rfl, rfl⟩ := Prod.mk.inj h
  have htext := List.takeWhile_append_dropWhile (p := fun c => decide (c ≠ separator)) (l := text)
  cases hrest : text.dropWhile (fun c => decide (c ≠ separator)) with
  | nil =>
      rw [hrest] at hvalue
      exact absurd rfl hvalue
  | cons c rest =>
      have hc : c = separator := by
        have h := List.head?_dropWhile_not (fun c => decide (c ≠ separator)) text
        rw [hrest] at h
        simpa using h
      rw [hrest, hc] at htext
      rw [List.drop_one, List.tail_cons]
      exact htext.symm

/-- How the credentials are found. -/
theorem credentials_cases (lower : Char → List Char) (connection : Connection) :
    (∃ scheme value, credentialsFromConnection lower connection =
        .ok (.bearer, String.ofList value) ∧
      (connection.authorization.getD "").toList = scheme ++ ' ' :: value ∧
      lowerText lower scheme = "bearer".toList) ∨
    (∃ cookie, credentialsFromConnection lower connection = .ok (.cookie, cookie) ∧
      connection.authorization.getD "" = "") ∨
    credentialsFromConnection lower connection = .error unauthorized := by
  unfold credentialsFromConnection
  by_cases hheader : connection.authorization.getD "" = ""
  · rw [if_neg (not_not.2 hheader)]
    by_cases hcookie : connection.accessCookie.getD "" = ""
    · rw [if_neg (not_not.2 hcookie)]
      exact Or.inr (Or.inr rfl)
    · rw [if_pos hcookie]
      exact Or.inr (Or.inl ⟨_, rfl, hheader⟩)
  · rw [if_pos hheader]
    cases hpart : partition ' ' (connection.authorization.getD "").toList with
    | mk scheme value =>
        by_cases hbearer : lowerText lower scheme = "bearer".toList ∧ value ≠ []
        · refine Or.inl ⟨scheme, value, if_pos hbearer, ?_, hbearer.1⟩
          exact partition_eq hpart hbearer.2
        · exact Or.inr (Or.inr (if_neg hbearer))

theorem requestHasBearerToken_of_scheme (hspace : lower ' ' = [' ']) {scheme value : List Char}
    (hheader : (connection.authorization.getD "").toList = scheme ++ ' ' :: value)
    (hscheme : lowerText lower scheme = "bearer".toList) :
    requestHasBearerToken lower connection = true := by
  have hlower : lowerText lower (scheme ++ ' ' :: value) =
      "bearer ".toList ++ lowerText lower value := by
    rw [lowerText, List.flatMap_append, List.flatMap_cons, hspace]
    rw [lowerText] at hscheme
    rw [hscheme]
    rfl
  rw [requestHasBearerToken, hheader, hlower, List.isPrefixOf_iff_prefix]
  exact List.prefix_append _ _

theorem requestHasBearerToken_of_empty (h : connection.authorization.getD "" = "") :
    requestHasBearerToken lower connection = false := by
  rw [requestHasBearerToken, h]
  rfl

variable {decoder : TokenDecoder} {now : DateTime} {issued : String}

theorem protectedRequest_eq_ok {accepted : Accepted} :
    protectedRequest lower decoder now issued connection = .ok accepted ↔
      ∃ source value token, credentialsFromConnection lower connection = .ok (source, value) ∧
        decodeAccessToken decoder value now = .ok token ∧
        accepted = ⟨⟨source, anonymousSubject, token, if source = .cookie then some issued else none⟩,
          requestHasBearerToken lower connection⟩ := by
  unfold protectedRequest apiTokenMiddleware
  constructor
  · intro h
    obtain ⟨authenticated, h, hok⟩ := bind_eq_ok.1 h
    obtain ⟨⟨source, value⟩, hcredentials, h⟩ := bind_eq_ok.1 h
    obtain ⟨token, htoken, h⟩ := bind_eq_ok.1 h
    obtain rfl := Except.ok.inj h
    exact ⟨source, value, token, hcredentials, htoken, (Except.ok.inj hok).symm⟩
  · rintro ⟨source, value, token, hcredentials, htoken, rfl⟩
    rw [hcredentials]
    dsimp only [bind, Except.bind]
    rw [htoken]
    rfl

end Headers

section Budget

variable (lower : Char → List Char) (decoder : TokenDecoder) (now : DateTime) (issued : String)
variable (connection : Connection)

/-- Authentication and throttling agree on what a bearer request is. -/
structure BearerCoincides : Prop where
  bearer : ∀ value, credentialsFromConnection lower connection = .ok (.bearer, value) →
    requestHasBearerToken lower connection = true ∧
      ∀ accepted, protectedRequest lower decoder now issued connection = .ok accepted →
        accepted.spendsBearerBudget = true ∧ accepted.freshCookie = none
  cookie : ∀ value, credentialsFromConnection lower connection = .ok (.cookie, value) →
    requestHasBearerToken lower connection = false ∧
      ∀ accepted, protectedRequest lower decoder now issued connection = .ok accepted →
        accepted.spendsBearerBudget = false ∧ accepted.freshCookie = some issued
  rejected : ∀ e, credentialsFromConnection lower connection = .error e →
    protectedRequest lower decoder now issued connection = .error e
  accepted_iff : (∃ accepted, protectedRequest lower decoder now issued connection = .ok accepted) ↔
    ∃ source value token, credentialsFromConnection lower connection = .ok (source, value) ∧
      decodeAccessToken decoder value now = .ok token
  noCookieBesideHeader : ∀ accepted,
    protectedRequest lower decoder now issued connection = .ok accepted →
      accepted.source = .cookie → connection.authorization.getD "" = ""

end Budget

/-- The bearer requests that are accepted are those that are throttled and get no cookie; the other
accepted requests have no header, or an empty one. -/
theorem bearer_coincides (lower : Char → List Char) (hspace : lower ' ' = [' '])
    (decoder : TokenDecoder) (now : DateTime) (issued : String) (connection : Connection) :
    BearerCoincides lower decoder now issued connection := by
  have hbearer : ∀ value, credentialsFromConnection lower connection = .ok (.bearer, value) →
      requestHasBearerToken lower connection = true := by
    intro value hvalue
    rcases credentials_cases lower connection with
      ⟨scheme, value, -, hheader, hscheme⟩ | ⟨cookie, h, -⟩ | h
    · exact requestHasBearerToken_of_scheme hspace hheader hscheme
    · rw [h] at hvalue
      cases hvalue
    · rw [h] at hvalue
      cases hvalue
  have hempty : ∀ value, credentialsFromConnection lower connection = .ok (.cookie, value) →
      connection.authorization.getD "" = "" := by
    intro value hvalue
    rcases credentials_cases lower connection with ⟨scheme, value, h, -, -⟩ | ⟨cookie, -, h⟩ | h
    · rw [h] at hvalue
      cases hvalue
    · exact h
    · rw [h] at hvalue
      cases hvalue
  constructor
  · intro value hvalue
    refine ⟨hbearer value hvalue, fun accepted haccepted => ?_⟩
    obtain ⟨source, value', token, hcredentials, -, rfl⟩ := protectedRequest_eq_ok.1 haccepted
    obtain ⟨rfl, -⟩ := Prod.mk.inj (Except.ok.inj (hvalue.symm.trans hcredentials))
    exact ⟨hbearer value hvalue, rfl⟩
  · intro value hvalue
    have hnone : requestHasBearerToken lower connection = false :=
      requestHasBearerToken_of_empty (hempty value hvalue)
    refine ⟨hnone, fun accepted haccepted => ?_⟩
    obtain ⟨source, value', token, hcredentials, -, rfl⟩ := protectedRequest_eq_ok.1 haccepted
    obtain ⟨rfl, -⟩ := Prod.mk.inj (Except.ok.inj (hvalue.symm.trans hcredentials))
    exact ⟨hnone, rfl⟩
  · intro e he
    rw [protectedRequest, apiTokenMiddleware, he]
    rfl
  · constructor
    · rintro ⟨accepted, haccepted⟩
      obtain ⟨source, value, token, hcredentials, htoken, -⟩ := protectedRequest_eq_ok.1 haccepted
      exact ⟨source, value, token, hcredentials, htoken⟩
    · rintro ⟨source, value, token, hcredentials, htoken⟩
      exact ⟨_, protectedRequest_eq_ok.2 ⟨source, value, token, hcredentials, htoken, rfl⟩⟩
  · intro accepted haccepted hcookie
    obtain ⟨source, value, token, hcredentials, -, rfl⟩ := protectedRequest_eq_ok.1 haccepted
    obtain rfl : source = .cookie := hcookie
    exact hempty value hcredentials

section Samples

def asciiLower (c : Char) : List Char := [c.toLower]

theorem bearer_coincides_sample : BearerCoincides asciiLower lastSecondDecoder ⟨0⟩ "issued"
    ⟨some "BEARER header.payload.signature", none⟩ :=
  bearer_coincides asciiLower rfl lastSecondDecoder ⟨0⟩ "issued"
    ⟨some "BEARER header.payload.signature", none⟩

/-- Beside an empty header the cookie is accepted; credentials of either source that do not decode
are rejected before they are throttled or get a cookie. -/
theorem empty_header_leaves_cookie :
    (¬ ∀ (decoder : TokenDecoder) (now : DateTime) (issued : String) (connection : Connection)
      (accepted : Accepted),
        protectedRequest asciiLower decoder now issued connection = .ok accepted →
          accepted.source = .cookie → connection.authorization = none) ∧
    (¬ ∀ (decoder : TokenDecoder) (now : DateTime) (issued : String) (connection : Connection)
      (value : String), credentialsFromConnection asciiLower connection = .ok (.cookie, value) →
        ∃ accepted, protectedRequest asciiLower decoder now issued connection = .ok accepted ∧
          accepted.freshCookie = some issued) ∧
    ¬ ∀ (decoder : TokenDecoder) (now : DateTime) (issued : String) (connection : Connection)
      (value : String), credentialsFromConnection asciiLower connection = .ok (.bearer, value) →
        ∃ accepted, protectedRequest asciiLower decoder now issued connection = .ok accepted ∧
          accepted.spendsBearerBudget = true := by
  refine ⟨fun hall => ?_, fun hall => ?_, fun hall => ?_⟩
  · have hnone := hall lastSecondDecoder ⟨0⟩ "issued" ⟨some "", some "header.payload.signature"⟩
      ⟨⟨.cookie, "anonymous", lastSecondToken, some "issued"⟩, false⟩ (by decide) rfl
    cases hnone
  · obtain ⟨accepted, haccepted, -⟩ :=
      hall lastSecondDecoder ⟨0⟩ "issued" ⟨none, some "forged"⟩ "forged" (by decide)
    cases haccepted
  · obtain ⟨accepted, haccepted, -⟩ :=
      hall lastSecondDecoder ⟨0⟩ "issued" ⟨some "Bearer forged", none⟩ "forged" (by decide)
    cases haccepted

end Samples

end SimplyTransport.Auth
