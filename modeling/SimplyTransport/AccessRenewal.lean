import SimplyTransport.AccessCookies
import SimplyTransport.Transition
import SimplyTransport.VehicleAge
import Mathlib.Data.Rat.Floor

/-!
# Renewing the access cookie of open pages

The tabs of a browser share its cookies. A page that has loaded sets a timer from the renewal cookie
and asks for another access cookie when it fires, and again whether that succeeds or fails; API calls
and other pages get fresh cookies as well, and answers overtake each other. While answers and timers
are prompt compared to half of the lifetime of a token, and not too many renewals fail in a row,
every call of an open page is authorised.
-/

namespace SimplyTransport.Auth

open JsonText (writeInt)
open Transition

def wholeSeconds (t : DateTime) : DateTime := ⟨t.micros / 1000000 * 1000000⟩

structure TokenEncoder (decoder : TokenDecoder) where
  encode : Token → String
  verified_encode : ∀ exp, decoder.verified (encode ⟨anonymousSubject, exp⟩) =
    some ⟨anonymousSubject, wholeSeconds exp⟩
  encode_chars : ∀ exp, (encode ⟨anonymousSubject, exp⟩).toList.all isCookieChar = true
  encode_ne : ∀ exp, encode ⟨anonymousSubject, exp⟩ ≠ ""

structure Site where
  settings : AppSettings
  decoder : TokenDecoder
  encoder : TokenEncoder decoder
  lower : Char → List Char

def Site.issueAccessToken (site : Site) (now : DateTime) : String :=
  site.encoder.encode ⟨anonymousSubject, now.addSeconds site.settings.ttl.seconds⟩

/-- The clock of the browser is ahead by `skew` microseconds. -/
structure Browser where
  reader : NumberReader
  limit : ℕ
  skew : ℤ

section Timers

def toInt32 (delay : ℤ) : ℤ := (delay + 2 ^ 31) % 2 ^ 32 - 2 ^ 31

def setTimeout (now : DateTime) (delay : ℚ) : DateTime :=
  now.addMicros (max (toInt32 ⌊delay⌋) 0 * 1000)

/-- The script of a page: it has ended, waits for its timer, or for the answer to its request.
`failed` counts the requests that failed since the last answer. -/
inductive PageTimer
  | stopped
  | waiting (due : DateTime) (failed : ℕ)
  | fetching (failed : ℕ)

def scheduleAccessRenewal (browser : Browser) (now : DateTime) (jar : List StoredCookie)
    (failed : ℕ) : PageTimer :=
  match renewAtSeconds browser.reader (documentCookie now jar) with
  | some (some renewAt) =>
      let delay := max (renewAt * 1000 - epochMillis (now.addMicros browser.skew)) 1000
      .waiting (setTimeout now delay) failed
  | _ => .stopped

end Timers

section Protocol

inductive Origin
  | page (id : ℕ) (path : String)
  | part (path contentType : String)
  | renewal (id : ℕ)
  | api
  deriving DecidableEq

def Origin.id : Origin → Option ℕ
  | .page id _ => some id
  | .renewal id => some id
  | _ => none

/-- On its way, with the token that the response will set, or with the headers that set it. -/
inductive Stage
  | requested
  | handling (token : Option String)
  | answered (headers : List (List Char))

structure Exchange where
  origin : Origin
  sent : DateTime
  cookie : Option String
  stage : Stage

structure State where
  now : DateTime
  jar : List StoredCookie
  pages : ℕ → Option PageTimer
  inFlight : List Exchange
  rejectedCalls : ℕ

inductive Event
  | tick (micros : ℕ)
  | openPage (id : ℕ) (path : String)
  | load (path contentType : String)
  | callApi (id : ℕ)
  | timerFires (id : ℕ)
  | handle (k : ℕ) (r : Readings)
  | answer (k : ℕ)
  | arrive (k : ℕ)
  | fail (k : ℕ)
  | close (id : ℕ)
  | otherCookie (c : StoredCookie)

def htmlContentType : String := "text/html; charset=utf-8"

variable (site : Site) (browser : Browser) (s : State)

def State.accessCookie : Option String :=
  (sentCookie s.now s.jar site.settings.apiTokenCookieName).map String.ofList

def State.send (origin : Origin) : State :=
  { s with inFlight := s.inFlight ++ [⟨origin, s.now, s.accessCookie site, .requested⟩] }

def State.setPage (id : ℕ) (timer : PageTimer) : State :=
  { s with pages := Function.update s.pages id (some timer) }

def State.setStage (k : ℕ) (x : Exchange) (stage : Stage) : State :=
  { s with inFlight := s.inFlight.set k { x with stage } }

def State.remove (k : ℕ) : State := { s with inFlight := s.inFlight.eraseIdx k }

/-- The routes of the site, behind `SiteAccessCookieMiddleware`. -/
def viewToken (r : Readings) (path contentType : String) (cookie : Option String) :
    Except NotAuthorizedException (Option String) := do
  let issued := site.issueAccessToken s.now
  let forwarded ← siteAccessCookieMiddleware site.decoder site.settings.ttl r issued
    ⟨"http", some path, cookie⟩
  return if forwarded.setsCookie contentType then forwarded.encodedToken else none

/-- The routes of the API, behind `ApiTokenMiddleware`; the calls of a page have no header. -/
def apiToken (cookie : Option String) : Except NotAuthorizedException (Option String) := do
  let accepted ← protectedRequest site.lower site.decoder s.now (site.issueAccessToken s.now)
    ⟨none, cookie⟩
  return accepted.freshCookie

def exchangeToken (r : Readings) (x : Exchange) : Except NotAuthorizedException (Option String) :=
  match x.origin with
  | .page _ path => viewToken site s r path htmlContentType x.cookie
  | .part path contentType => viewToken site s r path contentType x.cookie
  | .renewal _ => viewToken site s r accessTokenRefreshPath htmlContentType x.cookie
  | .api => apiToken site s x.cookie

def State.handle (k : ℕ) (r : Readings) (x : Exchange) : State :=
  match exchangeToken site s r x with
  | .ok token => s.setStage k x (.handling token)
  | .error _ =>
      { s.remove k with rejectedCalls := s.rejectedCalls + if x.origin = .api then 1 else 0 }

def responseHeaders (token : Option String) : List (List Char) :=
  match token with
  | none => []
  | some encoded => appendSetCookie site.settings encoded.toList s.now

def State.settle (origin : Origin) (failed : ℕ → ℕ) : State :=
  match origin with
  | .renewal id =>
      match s.pages id with
      | some (.fetching n) =>
          s.setPage id (scheduleAccessRenewal browser s.now s.jar (failed n))
      | _ => s
  | _ => s

def State.arrive (k : ℕ) (x : Exchange) (headers : List (List Char)) : State :=
  let received := { s.remove k with
    jar := headers.foldl (receiveSetCookie browser.limit s.now) s.jar }
  match x.origin with
  | .page id _ => received.setPage id (scheduleAccessRenewal browser s.now received.jar 0)
  | origin => received.settle browser origin (fun _ => 0)

def next : Event → Option State
  | .tick micros => some { s with now := s.now.addMicros micros }
  | .openPage id path =>
      if s.pages id = none ∧ (∀ x ∈ s.inFlight, x.origin.id ≠ some id) ∧
          path ≠ accessTokenRefreshPath then
        some (s.send site (.page id path))
      else none
  | .load path contentType => some (s.send site (.part path contentType))
  | .callApi id =>
      match s.pages id with
      | some _ => some (s.send site .api)
      | none => none
  | .timerFires id =>
      match s.pages id with
      | some (.waiting due failed) =>
          if due ≤ s.now then some ((s.send site (.renewal id)).setPage id (.fetching failed))
          else none
      | _ => none
  | .handle k r =>
      match s.inFlight[k]? with
      | some x =>
          match x.stage with
          | .requested =>
              if x.sent ≤ r.validated ∧ r.measured ≤ s.now then some (s.handle site k r x)
              else none
          | _ => none
      | none => none
  | .answer k =>
      match s.inFlight[k]? with
      | some x =>
          match x.stage with
          | .handling token => some (s.setStage k x (.answered (responseHeaders site s token)))
          | _ => none
      | none => none
  | .arrive k =>
      match s.inFlight[k]? with
      | some x =>
          match x.stage with
          | .answered headers => some (s.arrive browser k x headers)
          | _ => none
      | none => none
  | .fail k =>
      match s.inFlight[k]? with
      | some x => some ((s.remove k).settle browser x.origin (fun n => n + 1))
      | none => none
  | .close id => some { s with pages := Function.update s.pages id none }
  | .otherCookie c =>
      if c.name ≠ site.settings.apiTokenCookieName ∧ c.name ≠ renewAtCookieName then
        some { s with jar := storeCookie s.now s.jar c }
      else none

end Protocol

section Enabled

variable {site : Site} {browser : Browser} {s t : State} {id k : ℕ}

theorem next_openPage {path : String} (h : next site browser s (.openPage id path) = some t) :
    t = s.send site (.page id path) := by
  obtain ⟨-, hstate⟩ := Option.ite_none_right_eq_some.1 h
  exact (Option.some.inj hstate).symm

theorem next_callApi (h : next site browser s (.callApi id) = some t) :
    (∃ timer, s.pages id = some timer) ∧ t = s.send site .api := by
  simp only [next] at h
  split at h
  · rename_i timer hid
    exact ⟨⟨timer, hid⟩, (Option.some.inj h).symm⟩
  · cases h

theorem next_timerFires (h : next site browser s (.timerFires id) = some t) :
    ∃ due failed, s.pages id = some (.waiting due failed) ∧
      t = (s.send site (.renewal id)).setPage id (.fetching failed) := by
  simp only [next] at h
  split at h
  · rename_i due failed hid
    obtain ⟨-, hstate⟩ := Option.ite_none_right_eq_some.1 h
    exact ⟨due, failed, hid, (Option.some.inj hstate).symm⟩
  · cases h

theorem next_handle {r : Readings} (h : next site browser s (.handle k r) = some t) :
    ∃ x, s.inFlight[k]? = some x ∧ x.stage = .requested ∧ x.sent ≤ r.validated ∧
      t = s.handle site k r x := by
  simp only [next] at h
  split at h
  · rename_i x hx
    split at h
    · rename_i hstage
      obtain ⟨⟨hsent, -⟩, hstate⟩ := Option.ite_none_right_eq_some.1 h
      exact ⟨x, hx, hstage, hsent, (Option.some.inj hstate).symm⟩
    · cases h
  · cases h

theorem next_answer (h : next site browser s (.answer k) = some t) :
    ∃ x token, s.inFlight[k]? = some x ∧ x.stage = .handling token ∧
      t = s.setStage k x (.answered (responseHeaders site s token)) := by
  simp only [next] at h
  split at h
  · rename_i x hx
    split at h
    · rename_i token hstage
      exact ⟨x, token, hx, hstage, (Option.some.inj h).symm⟩
    · cases h
  · cases h

theorem next_arrive (h : next site browser s (.arrive k) = some t) :
    ∃ x headers, s.inFlight[k]? = some x ∧ x.stage = .answered headers ∧
      t = s.arrive browser k x headers := by
  simp only [next] at h
  split at h
  · rename_i x hx
    split at h
    · rename_i headers hstage
      exact ⟨x, headers, hx, hstage, (Option.some.inj h).symm⟩
    · cases h
  · cases h

theorem next_fail (h : next site browser s (.fail k) = some t) :
    ∃ x, s.inFlight[k]? = some x ∧ t = (s.remove k).settle browser x.origin (fun n => n + 1) := by
  simp only [next] at h
  split at h
  · rename_i x hx
    exact ⟨x, hx, (Option.some.inj h).symm⟩
  · cases h

theorem next_otherCookie {c : StoredCookie} (h : next site browser s (.otherCookie c) = some t) :
    (c.name ≠ site.settings.apiTokenCookieName ∧ c.name ≠ renewAtCookieName) ∧
      t = { s with jar := storeCookie s.now s.jar c } := by
  obtain ⟨hname, hstate⟩ := Option.ite_none_right_eq_some.1 h
  exact ⟨hname, (Option.some.inj hstate).symm⟩

end Enabled

section Promptness

/-- Every exchange is over within `latency` and every timer fires within `lateness` microseconds;
no more than `failures` renewals of a page fail in a row. -/
structure Timing where
  latency : ℕ
  lateness : ℕ
  failures : ℕ

def horizon : ℤ := (719163 * 86400 + 2 ^ 34) * 1000000

def InTime (site : Site) (now : DateTime) : Prop :=
  719163 * dayMicros ≤ now.micros ∧ now.micros + site.settings.ttl.seconds * 1000000 ≤ horizon

variable (site : Site) (timing : Timing)

/-- What a run of a prompt network, of prompt timers and of few failures does not exceed. -/
def Prompt (s : State) : Event → Prop
  | .tick micros =>
      (∀ x ∈ s.inFlight, s.now.micros + micros ≤ x.sent.micros + timing.latency) ∧
      (∀ id due failed, s.pages id = some (.waiting due failed) →
        s.now.micros + micros ≤ due.micros + timing.lateness) ∧
      InTime site (s.now.addMicros micros)
  | .fail k => ∀ x, s.inFlight[k]? = some x → ∀ id, x.origin = .renewal id →
      ∀ failed, s.pages id = some (.fetching failed) → failed < timing.failures
  | _ => True

/-- What a renewal that fails costs: its answer is late, and the next one waits for a second. -/
def Timing.attempt : ℤ := 1000000 + timing.lateness + timing.latency

def Timing.allowance (failed : ℕ) : ℤ := (timing.failures - failed : ℕ) * timing.attempt

def Timing.reserve : ℤ := timing.allowance 0 + timing.lateness + 2 * timing.latency

/-- Half of the lifetime covers the reserve, an answer on its way, and how much the clock of the
browser is behind. -/
structure Fits (browser : Browser) : Prop where
  half : 2 * (timing.reserve + timing.latency + max (-browser.skew) 0 + 1001000) ≤
    site.settings.ttl.seconds * 1000000
  kept : site.settings.ttl.seconds ≤ browser.limit

theorem Timing.allowance_nonneg (failed : ℕ) : 0 ≤ timing.allowance failed := by
  unfold allowance attempt
  positivity

theorem Timing.allowance_le (failed : ℕ) : timing.allowance failed ≤ timing.allowance 0 := by
  unfold allowance
  apply mul_le_mul_of_nonneg_right
  · omega
  · unfold attempt
    omega

/-- A failure uses up one attempt. -/
theorem Timing.allowance_succ {failed : ℕ} (h : failed < timing.failures) :
    timing.allowance failed = timing.allowance (failed + 1) + timing.attempt := by
  obtain ⟨rest, hrest⟩ := Nat.exists_eq_add_of_lt h
  have hfailed : timing.failures - failed = rest + 1 := by omega
  have hnext : timing.failures - (failed + 1) = rest := by omega
  rw [allowance, allowance, hfailed, hnext]
  push_cast
  ring

end Promptness

section Tokens

variable {site : Site} {i : DateTime}

theorem verified_issueAccessToken (site : Site) (i : DateTime) :
    site.decoder.verified (site.issueAccessToken i) =
      some ⟨anonymousSubject, wholeSeconds (i.addSeconds site.settings.ttl.seconds)⟩ :=
  site.encoder.verified_encode _

theorem wholeSeconds_le (t : DateTime) : (wholeSeconds t).micros ≤ t.micros := by
  change t.micros / 1000000 * 1000000 ≤ t.micros
  omega

theorem lt_wholeSeconds (t : DateTime) : t.micros < (wholeSeconds t).micros + 1000000 := by
  change t.micros < t.micros / 1000000 * 1000000 + 1000000
  omega

end Tokens

section Cookies

variable (site : Site) (browser : Browser) (timing : Timing)

def epochMicros : ℤ := 719163 * dayMicros

/-- The browser has the two cookies of a response until `expiry`. The token is good until `exp`, and
the time of its renewal leaves the reserve before that. -/
structure Keeps (now : DateTime) (jar : List StoredCookie) (encoded : String) (renew : ℤ)
    (expiry exp : DateTime) : Prop where
  sent : ∀ later, now ≤ later → sentCookie later jar site.settings.apiTokenCookieName =
    if later < expiry then some encoded.toList else none
  read : ∀ later, now ≤ later → renewAtSeconds browser.reader (documentCookie later jar) =
    if later < expiry then some (some (renew : ℚ)) else none
  verified : site.decoder.verified encoded = some ⟨anonymousSubject, exp⟩
  ne_empty : encoded ≠ ""
  exp_le : exp ≤ expiry
  renew_le : renew * 1000000 + epochMicros ≤
    now.micros + (site.settings.ttl.seconds / 2 : ℕ) * 1000000
  reserve : renew * 1000000 + epochMicros + max (-browser.skew) 0 + 1000 + timing.reserve <
    exp.micros

def Until (now : DateTime) (jar : List StoredCookie) (exp : DateTime) : Prop :=
  ∃ encoded renew expiry, Keeps site browser timing now jar encoded renew expiry exp

def NoCookie (now : DateTime) (jar : List StoredCookie) : Prop :=
  ∀ later, now ≤ later → sentCookie later jar site.settings.apiTokenCookieName = none

variable {site browser timing} {now later : DateTime} {jar : List StoredCookie}

theorem Keeps.mono {encoded : String} {renew : ℤ} {expiry exp : DateTime} (hlater : now ≤ later)
    (h : Keeps site browser timing now jar encoded renew expiry exp) :
    Keeps site browser timing later jar encoded renew expiry exp where
  sent t ht := h.sent t (hlater.trans ht)
  read t ht := h.read t (hlater.trans ht)
  verified := h.verified
  ne_empty := h.ne_empty
  exp_le := h.exp_le
  renew_le := by
    have := h.renew_le
    rw [DateTime.le_iff] at hlater
    omega
  reserve := h.reserve

theorem Until.mono {exp : DateTime} (hlater : now ≤ later)
    (h : Until site browser timing now jar exp) : Until site browser timing later jar exp := by
  obtain ⟨encoded, renew, expiry, hkeeps⟩ := h
  exact ⟨encoded, renew, expiry, hkeeps.mono hlater⟩

theorem NoCookie.mono (hlater : now ≤ later) (h : NoCookie site now jar) :
    NoCookie site later jar := fun t ht => h t (hlater.trans ht)

theorem Until.other {exp : DateTime} {c : StoredCookie}
    (hapi : c.name ≠ site.settings.apiTokenCookieName) (hrenew : c.name ≠ renewAtCookieName)
    (h : Until site browser timing now jar exp) :
    Until site browser timing now (storeCookie now jar c) exp := by
  obtain ⟨encoded, renew, expiry, hkeeps⟩ := h
  refine ⟨encoded, renew, expiry, ?_⟩
  exact {
    hkeeps with
    sent := fun t ht => by rw [sentCookie_storeCookie_of_ne ht hapi, hkeeps.sent t ht]
    read := fun t ht => by
      rw [renewAtSeconds_storeCookie_of_ne browser.reader ht hrenew, hkeeps.read t ht] }

theorem NoCookie.other {c : StoredCookie} (hapi : c.name ≠ site.settings.apiTokenCookieName)
    (h : NoCookie site now jar) : NoCookie site now (storeCookie now jar c) := by
  intro t ht
  rw [sentCookie_storeCookie_of_ne ht hapi, h t ht]

/-- `renewAt` is in the middle of the life of a token that is issued at the time. -/
theorem renewAt_bounds {written : DateTime} (h : InTime site written) :
    renewAt site.settings written * 1000000 + epochMicros ≤
        written.micros + (site.settings.ttl.seconds / 2 : ℕ) * 1000000 ∧
      (renewAt site.settings written).natAbs ≤ 2 ^ 53 := by
  obtain ⟨hepoch, hhorizon⟩ := h
  rw [renewAt, timestampSeconds, Int.tdiv_eq_ediv_of_nonneg (by omega)]
  unfold horizon at hhorizon
  unfold epochMicros
  unfold dayMicros at *
  constructor <;> omega

/-- The cookies of a response that was not late are kept with the reserve. -/
theorem keeps_received (hfits : Fits site timing browser) {issued written arrived : DateTime}
    (jar : List StoredCookie) (hissued : issued ≤ written) (hwritten : written ≤ arrived)
    (hlatency : arrived.micros ≤ issued.micros + timing.latency) (htime : InTime site issued)
    (harrived : InTime site arrived) :
    ∃ exp, Until site browser timing arrived
        ((appendSetCookie site.settings (site.issueAccessToken issued).toList written).foldl
          (receiveSetCookie browser.limit arrived) jar) exp ∧
      arrived.micros + site.settings.ttl.seconds * 1000000 <
        exp.micros + timing.latency + 1000000 := by
  have hchars : (site.issueAccessToken issued).toList.all isCookieChar = true :=
    site.encoder.encode_chars _
  have htimeWritten : InTime site written := by
    unfold InTime at *
    rw [DateTime.le_iff] at hissued hwritten
    omega
  obtain ⟨hrenew, hexact⟩ := renewAt_bounds htimeWritten
  have hread : ∀ later, arrived ≤ later → CookiesReadBack site.settings browser.reader
      browser.limit (site.issueAccessToken issued).toList written arrived later _ :=
    fun later hlater => response_read_back site.settings browser.reader browser.limit jar _ hchars
      written arrived later hexact hlater
  have hlife : min site.settings.ttl.seconds browser.limit = site.settings.ttl.seconds :=
    Nat.min_eq_left hfits.kept
  have hlate : (wholeSeconds (issued.addSeconds site.settings.ttl.seconds)).micros ≤
      issued.micros + site.settings.ttl.seconds * 1000000 := wholeSeconds_le _
  have hearly : issued.micros + site.settings.ttl.seconds * 1000000 <
      (wholeSeconds (issued.addSeconds site.settings.ttl.seconds)).micros + 1000000 :=
    lt_wholeSeconds _
  have hhalf := hfits.half
  rw [DateTime.le_iff] at hissued hwritten
  refine ⟨wholeSeconds (issued.addSeconds site.settings.ttl.seconds),
    ⟨site.issueAccessToken issued, renewAt site.settings written,
      arrived.addSeconds site.settings.ttl.seconds, ?_⟩, by omega⟩
  constructor
  · intro later hlater
    rw [(hread later hlater).sent, hlife]
  · intro later hlater
    rw [(hread later hlater).read, hlife]
  · exact verified_issueAccessToken site issued
  · exact site.encoder.encode_ne _
  · rw [DateTime.le_iff]
    change _ ≤ arrived.micros + site.settings.ttl.seconds * 1000000
    omega
  · omega
  · omega

/-- A page that has the cookies waits for a timer that leaves the reserve. -/
theorem schedule_of_keeps {encoded : String} {renew : ℤ} {expiry exp : DateTime}
    (h : Keeps site browser timing now jar encoded renew expiry exp) (hlive : now < exp)
    (failed : ℕ) : ∃ due, scheduleAccessRenewal browser now jar failed = .waiting due failed ∧
      now ≤ due ∧ due.micros ≤ max (renew * 1000000 + epochMicros + max (-browser.skew) 0 + 1000)
        (now.micros + 1000000) := by
  have hread : renewAtSeconds browser.reader (documentCookie now jar) = some (some (renew : ℚ)) := by
    rw [h.read now le_rfl, if_pos (hlive.trans_le h.exp_le)]
  have hdelay : ⌊max ((renew : ℚ) * 1000 - epochMillis (now.addMicros browser.skew)) 1000⌋ =
      max (renew * 1000 - epochMillis (now.addMicros browser.skew)) 1000 := by
    rw [← Int.floor_intCast (R := ℚ) (max (renew * 1000 - epochMillis (now.addMicros browser.skew)) 1000)]
    push_cast
    rfl
  refine ⟨_, by rw [scheduleAccessRenewal, hread], ?_, ?_⟩
  · rw [DateTime.le_iff]
    change now.micros ≤ now.micros + _
    omega
  · change now.micros + _ ≤ _
    rw [hdelay, toInt32]
    have hclock : now.micros + browser.skew - epochMicros <
        epochMillis (now.addMicros browser.skew) * 1000 + 1000 := by
      change now.micros + browser.skew - 719163 * dayMicros <
        (now.micros + browser.skew - 719163 * dayMicros) / 1000 * 1000 + 1000
      omega
    omega

end Cookies

section Invariant

variable (site : Site) (browser : Browser) (timing : Timing)

def longestDelay : ℤ :=
  (site.settings.ttl.seconds / 2 : ℕ) * 1000000 + max (-browser.skew) 0 + 1000

variable (U : DateTime → Prop) (now : DateTime)

/-- A page that waits leaves the reserve at the end of its token, for which `U` holds, and one that
has a request under way what is left of it. -/
def TimerKept (fetches : DateTime → Prop) : PageTimer → Prop
  | .stopped => False
  | .waiting due failed =>
      failed ≤ timing.failures ∧ now.micros ≤ due.micros + timing.lateness ∧
      due.micros ≤ now.micros + longestDelay site browser ∧
      ∃ exp, U exp ∧ due.micros + timing.allowance failed + timing.lateness + 2 * timing.latency <
        exp.micros
  | .fetching failed =>
      failed ≤ timing.failures ∧ ∃ sent, fetches sent ∧
      ∃ exp, U exp ∧ sent.micros + timing.allowance failed + 2 * timing.latency < exp.micros

def Covered (sent : DateTime) : Origin → Prop
  | .page _ _ => ∃ exp, U exp ∧
      2 * sent.micros + site.settings.ttl.seconds * 1000000 < 2 * exp.micros
  | .renewal _ => False
  | _ => True

def RequestKept (sent : DateTime) (cookie : Option String) : Origin → Prop
  | .page _ _ => ∀ encoded token, cookie = some encoded →
      site.decoder.verified encoded = some token → ∃ exp, U exp ∧
        (token.exp ≤ exp ∨ sent.micros + site.settings.ttl.seconds * 1000000 <
          exp.micros + timing.latency + 1000000)
  | .api => ∃ encoded exp, cookie = some encoded ∧ encoded ≠ "" ∧
      site.decoder.verified encoded = some ⟨anonymousSubject, exp⟩ ∧
      sent.micros + timing.latency < exp.micros
  | _ => True

def StageKept (origin : Origin) (sent : DateTime) (cookie : Option String) : Stage → Prop
  | .requested => RequestKept site timing U sent cookie origin
  | .handling none => Covered site U sent origin
  | .handling (some token) => ∃ issued, InTime site issued ∧ sent ≤ issued ∧ issued ≤ now ∧
      token = site.issueAccessToken issued
  | .answered headers => headers = [] ∧ Covered site U sent origin ∨
      ∃ issued written, InTime site issued ∧ sent ≤ issued ∧ issued ≤ written ∧ written ≤ now ∧
        headers = appendSetCookie site.settings (site.issueAccessToken issued).toList written

structure ExchangeKept (x : Exchange) : Prop where
  sent_le : x.sent ≤ now
  prompt : now.micros ≤ x.sent.micros + timing.latency
  stage : StageKept site timing U now x.origin x.sent x.cookie x.stage

def State.Fetches (s : State) (id : ℕ) (sent : DateTime) : Prop :=
  ∃ x ∈ s.inFlight, x.origin = .renewal id ∧ x.sent = sent

structure Renewable (s : State) : Prop where
  inTime : InTime site s.now
  jar : NoCookie site s.now s.jar ∨ ∃ exp, Until site browser timing s.now s.jar exp
  pages : ∀ id timer, s.pages id = some timer →
    TimerKept site browser timing (Until site browser timing s.now s.jar) s.now (s.Fetches id) timer
  exchanges : ∀ x ∈ s.inFlight,
    ExchangeKept site timing (Until site browser timing s.now s.jar) s.now x
  accepted : s.rejectedCalls = 0

def Improves (V : DateTime → Prop) : Prop :=
  (∀ exp, U exp → V exp) ∨ ∃ exp, V exp ∧
    now.micros + site.settings.ttl.seconds * 1000000 < exp.micros + timing.latency + 1000000

variable {site browser timing U now} {V : DateTime → Prop} {now' : DateTime}

theorem TimerKept.mono (hfits : Fits site timing browser) {F F' : DateTime → Prop}
    {timer : PageTimer} (himproves : Improves site timing U now' V) (hnow : now ≤ now')
    (hprompt : ∀ due failed, timer = .waiting due failed →
      now'.micros ≤ due.micros + timing.lateness)
    (hfetches : ∀ sent, F sent → F' sent ∧ sent ≤ now')
    (h : TimerKept site browser timing U now F timer) :
    TimerKept site browser timing V now' F' timer := by
  have hhalf := hfits.half
  have hreserve : timing.reserve = timing.allowance 0 + timing.lateness + 2 * timing.latency := rfl
  rw [DateTime.le_iff] at hnow
  cases timer with
  | stopped => exact h
  | waiting due failed =>
      obtain ⟨hfailed, -, hdue, exp, hexp, hleft⟩ := h
      have hallowance := timing.allowance_le failed
      unfold longestDelay at hdue
      refine ⟨hfailed, hprompt due failed rfl, ?_, ?_⟩
      · unfold longestDelay
        omega
      · rcases himproves with hsame | ⟨exp', hexp', hnew⟩
        · exact ⟨exp, hsame exp hexp, hleft⟩
        · exact ⟨exp', hexp', by omega⟩
  | fetching failed =>
      obtain ⟨hfailed, sent, hsent, exp, hexp, hleft⟩ := h
      have hallowance := timing.allowance_le failed
      obtain ⟨hsent', hle⟩ := hfetches sent hsent
      rw [DateTime.le_iff] at hle
      refine ⟨hfailed, sent, hsent', ?_⟩
      rcases himproves with hsame | ⟨exp', hexp', hnew⟩
      · exact ⟨exp, hsame exp hexp, hleft⟩
      · exact ⟨exp', hexp', by omega⟩

theorem Covered.mono (hfits : Fits site timing browser) {sent : DateTime} {origin : Origin}
    (himproves : Improves site timing U now V) (hsent : sent ≤ now)
    (h : Covered site U sent origin) : Covered site V sent origin := by
  have hhalf := hfits.half
  have hreserve : timing.reserve = timing.allowance 0 + timing.lateness + 2 * timing.latency := rfl
  have hallowance := timing.allowance_nonneg 0
  rw [DateTime.le_iff] at hsent
  cases origin with
  | page id path =>
      obtain ⟨exp, hexp, hleft⟩ := h
      rcases himproves with hsame | ⟨exp', hexp', hnew⟩
      · exact ⟨exp, hsame exp hexp, hleft⟩
      · exact ⟨exp', hexp', by omega⟩
  | part path contentType => trivial
  | renewal id => exact h
  | api => trivial

theorem RequestKept.mono {sent : DateTime} {cookie : Option String} {origin : Origin}
    (himproves : Improves site timing U now V) (hsent : sent ≤ now)
    (h : RequestKept site timing U sent cookie origin) :
    RequestKept site timing V sent cookie origin := by
  rw [DateTime.le_iff] at hsent
  cases origin with
  | page id path =>
      intro encoded token hcookie hverified
      obtain ⟨exp, hexp, hleft⟩ := h encoded token hcookie hverified
      rcases himproves with hsame | ⟨exp', hexp', hnew⟩
      · exact ⟨exp, hsame exp hexp, hleft⟩
      · exact ⟨exp', hexp', Or.inr (by omega)⟩
  | part path contentType => trivial
  | renewal id => trivial
  | api => exact h

theorem ExchangeKept.mono (hfits : Fits site timing browser) {x : Exchange}
    (himproves : Improves site timing U now' V) (hnow : now ≤ now')
    (hprompt : now'.micros ≤ x.sent.micros + timing.latency)
    (h : ExchangeKept site timing U now x) : ExchangeKept site timing V now' x := by
  have hsent := h.sent_le.trans hnow
  refine ⟨hsent, hprompt, ?_⟩
  have hstage := h.stage
  cases hx : x.stage with
  | requested =>
      rw [hx] at hstage
      exact RequestKept.mono himproves hsent hstage
  | handling token =>
      rw [hx] at hstage
      cases token with
      | none => exact Covered.mono hfits himproves hsent hstage
      | some encoded =>
          obtain ⟨issued, htime, hissued, hle, rfl⟩ := hstage
          exact ⟨issued, htime, hissued, hle.trans hnow, rfl⟩
  | answered headers =>
      rw [hx] at hstage
      rcases hstage with ⟨hnone, hcovered⟩ | ⟨issued, written, htime, hissued, hle, hle', rfl⟩
      · exact Or.inl ⟨hnone, Covered.mono hfits himproves hsent hcovered⟩
      · exact Or.inr ⟨issued, written, htime, hissued, hle, hle'.trans hnow, rfl⟩

end Invariant

section Steps

variable {site : Site} {browser : Browser} {timing : Timing} {s : State}

theorem Improves.refl (U : DateTime → Prop) (now : DateTime) : Improves site timing U now U :=
  Or.inl (fun _ h => h)

/-- Time passes, and cookies of responses or of other names come in. -/
theorem Renewable.advance (hfits : Fits site timing browser) (h : Renewable site browser timing s)
    {now : DateTime} {jar : List StoredCookie} (hnow : s.now ≤ now) (htime : InTime site now)
    (hjar : NoCookie site now jar ∨ ∃ exp, Until site browser timing now jar exp)
    (himproves : Improves site timing (Until site browser timing s.now s.jar) now
      (Until site browser timing now jar))
    (hexchanges : ∀ x ∈ s.inFlight, now.micros ≤ x.sent.micros + timing.latency)
    (hpages : ∀ id due failed, s.pages id = some (.waiting due failed) →
      now.micros ≤ due.micros + timing.lateness) :
    Renewable site browser timing { s with now, jar } where
  inTime := htime
  jar := hjar
  pages id timer hid := by
    apply (h.pages id timer hid).mono hfits himproves hnow
    · rintro due failed rfl
      exact hpages id due failed hid
    · rintro sent ⟨x, hx, horigin, rfl⟩
      exact ⟨⟨x, hx, horigin, rfl⟩, (h.exchanges x hx).sent_le.trans hnow⟩
  exchanges x hx := (h.exchanges x hx).mono hfits himproves hnow (hexchanges x hx)
  accepted := h.accepted

theorem Renewable.waiting_le (h : Renewable site browser timing s) {id : ℕ} {due : DateTime}
    {failed : ℕ} (hid : s.pages id = some (.waiting due failed)) :
    s.now.micros ≤ due.micros + timing.lateness := (h.pages id _ hid).2.1

/-- Cookies come in at the time of a state. -/
theorem Renewable.receive (hfits : Fits site timing browser) (h : Renewable site browser timing s)
    {jar : List StoredCookie}
    (hjar : NoCookie site s.now jar ∨ ∃ exp, Until site browser timing s.now jar exp)
    (himproves : Improves site timing (Until site browser timing s.now s.jar) s.now
      (Until site browser timing s.now jar)) :
    Renewable site browser timing { s with jar } :=
  h.advance hfits le_rfl h.inTime hjar himproves (fun x hx => (h.exchanges x hx).prompt)
    (fun _ _ _ hid => h.waiting_le hid)

theorem Renewable.send (hfits : Fits site timing browser) (h : Renewable site browser timing s)
    {origin : Origin} (hrequest : RequestKept site timing (Until site browser timing s.now s.jar)
      s.now (s.accessCookie site) origin) : Renewable site browser timing (s.send site origin) where
  inTime := h.inTime
  jar := h.jar
  pages id timer hid := by
    apply (h.pages id timer hid).mono hfits (Improves.refl _ _) le_rfl
    · rintro due failed rfl
      exact h.waiting_le hid
    · rintro sent ⟨x, hx, horigin, rfl⟩
      exact ⟨⟨x, List.mem_append_left _ hx, horigin, rfl⟩, (h.exchanges x hx).sent_le⟩
  exchanges x hx := by
    rcases List.mem_append.1 hx with hx | hx
    · exact h.exchanges x hx
    · obtain rfl := List.mem_singleton.1 hx
      refine ⟨le_rfl, ?_, hrequest⟩
      change s.now.micros ≤ s.now.micros + timing.latency
      omega
  accepted := h.accepted

theorem Renewable.setPage (h : Renewable site browser timing s) {id : ℕ} {timer : PageTimer}
    (htimer : TimerKept site browser timing (Until site browser timing s.now s.jar) s.now
      (s.Fetches id) timer) : Renewable site browser timing (s.setPage id timer) where
  inTime := h.inTime
  jar := h.jar
  pages id' timer' hid := by
    change Function.update s.pages id (some timer) id' = some timer' at hid
    by_cases heq : id' = id
    · subst heq
      rw [Function.update_self] at hid
      obtain rfl := Option.some.inj hid
      exact htimer
    · rw [Function.update_of_ne heq] at hid
      exact h.pages id' timer' hid
  exchanges := h.exchanges
  accepted := h.accepted

theorem Renewable.close (h : Renewable site browser timing s) (id : ℕ) :
    Renewable site browser timing { s with pages := Function.update s.pages id none } where
  inTime := h.inTime
  jar := h.jar
  pages id' timer hid := by
    change Function.update s.pages id none id' = some timer at hid
    by_cases heq : id' = id
    · subst heq
      rw [Function.update_self] at hid
      cases hid
    · rw [Function.update_of_ne heq] at hid
      exact h.pages id' timer hid
  exchanges := h.exchanges
  accepted := h.accepted

theorem Renewable.setStage (hfits : Fits site timing browser) (h : Renewable site browser timing s)
    {k : ℕ} {x : Exchange} (hx : s.inFlight[k]? = some x) {stage : Stage}
    (hstage : StageKept site timing (Until site browser timing s.now s.jar) s.now x.origin x.sent
      x.cookie stage) : Renewable site browser timing (s.setStage k x stage) where
  inTime := h.inTime
  jar := h.jar
  pages id timer hid := by
    apply (h.pages id timer hid).mono hfits (Improves.refl _ _) le_rfl
    · rintro due failed rfl
      exact h.waiting_le hid
    · rintro sent ⟨y, hy, horigin, rfl⟩
      refine ⟨?_, (h.exchanges y hy).sent_le⟩
      obtain ⟨j, hj⟩ := List.mem_iff_getElem?.1 hy
      by_cases hjk : k = j
      · subst hjk
        obtain rfl := Option.some.inj (hx.symm.trans hj)
        have hlt := (List.getElem?_eq_some_iff.1 hx).1
        exact ⟨_, List.mem_set hlt _, horigin, rfl⟩
      · refine ⟨y, List.mem_iff_getElem?.2 ⟨j, ?_⟩, horigin, rfl⟩
        rw [State.setStage, List.getElem?_set_ne hjk]
        exact hj
  exchanges y hy := by
    rcases List.mem_or_eq_of_mem_set hy with hy | rfl
    · exact h.exchanges y hy
    · have hkept := h.exchanges x (List.mem_of_getElem? hx)
      exact ⟨hkept.sent_le, hkept.prompt, hstage⟩
  accepted := h.accepted

/-- An exchange is over that no page waits for. -/
theorem Renewable.remove (h : Renewable site browser timing s) {k : ℕ} {x : Exchange}
    (hx : s.inFlight[k]? = some x)
    (hidle : ∀ id failed, x.origin = .renewal id → s.pages id ≠ some (.fetching failed)) :
    Renewable site browser timing (s.remove k) where
  inTime := h.inTime
  jar := h.jar
  pages id timer hid := by
    have hkept := h.pages id timer hid
    cases timer with
    | stopped => exact hkept
    | waiting due failed => exact hkept
    | fetching failed =>
        obtain ⟨hfailed, sent, ⟨y, hy, horigin, hsent⟩, hleft⟩ := hkept
        refine ⟨hfailed, sent, ⟨y, ?_, horigin, hsent⟩, hleft⟩
        obtain ⟨j, hj⟩ := List.mem_iff_getElem?.1 hy
        rw [State.remove, List.mem_eraseIdx_iff_getElem?]
        refine ⟨j, ?_, hj⟩
        rintro rfl
        obtain rfl := Option.some.inj (hx.symm.trans hj)
        exact hidle id failed horigin hid
  exchanges y hy := h.exchanges y (List.mem_of_mem_eraseIdx hy)
  accepted := h.accepted

/-- The script of a page finds its timer where the token leaves the reserve from the next second
on. -/
theorem timerKept_schedule (hfits : Fits site timing browser) {exp : DateTime}
    (hexp : Until site browser timing s.now s.jar exp) {failed : ℕ}
    (hfailed : failed ≤ timing.failures)
    (hleft : s.now.micros + 1000000 + timing.allowance failed + timing.lateness +
      2 * timing.latency < exp.micros) (fetches : DateTime → Prop) :
    TimerKept site browser timing (Until site browser timing s.now s.jar) s.now fetches
      (scheduleAccessRenewal browser s.now s.jar failed) := by
  obtain ⟨encoded, renew, expiry, hkeeps⟩ := hexp
  have hnonneg := timing.allowance_nonneg failed
  have hallowance := timing.allowance_le failed
  have hreserve : timing.reserve = timing.allowance 0 + timing.lateness + 2 * timing.latency := rfl
  have hhalf := hfits.half
  have hlive : s.now < exp := by
    rw [DateTime.lt_iff]
    omega
  obtain ⟨due, hdue, hle, hbound⟩ := schedule_of_keeps hkeeps hlive failed
  have hrenew := hkeeps.renew_le
  have hkept := hkeeps.reserve
  rw [DateTime.le_iff] at hle
  rw [hdue]
  refine ⟨hfailed, by omega, ?_, exp, ⟨encoded, renew, expiry, hkeeps⟩, by omega⟩
  unfold longestDelay
  have := timing.allowance_nonneg 0
  omega

theorem schedule_ne_fetching (browser : Browser) (now : DateTime) (jar : List StoredCookie)
    (failed n : ℕ) : scheduleAccessRenewal browser now jar failed ≠ .fetching n := by
  unfold scheduleAccessRenewal
  split <;> exact fun h => by cases h

theorem settle_cases (browser : Browser) (s : State) (origin : Origin) (failed : ℕ → ℕ) :
    (s.settle browser origin failed = s ∧
      ∀ id n, origin = .renewal id → s.pages id ≠ some (.fetching n)) ∨
    ∃ id n, origin = .renewal id ∧ s.pages id = some (.fetching n) ∧
      s.settle browser origin failed =
        s.setPage id (scheduleAccessRenewal browser s.now s.jar (failed n)) := by
  unfold State.settle
  split
  · rename_i id
    split
    · rename_i n hpage
      exact Or.inr ⟨id, n, rfl, hpage, rfl⟩
    · rename_i hpage
      refine Or.inl ⟨rfl, ?_⟩
      rintro id' n hid hfetching
      obtain rfl := Origin.renewal.inj hid
      exact hpage n hfetching
  · rename_i hne
    exact Or.inl ⟨rfl, fun id n hid => absurd hid (hne id)⟩

/-- The request of an exchange is over, and the page that waits for it goes on. -/
theorem Renewable.settle (h : Renewable site browser timing s) {k : ℕ} {x : Exchange}
    (hx : s.inFlight[k]? = some x) {failed : ℕ → ℕ}
    (htimer : ∀ id n, x.origin = .renewal id → s.pages id = some (.fetching n) →
      TimerKept site browser timing (Until site browser timing s.now s.jar) s.now (s.Fetches id)
        (scheduleAccessRenewal browser s.now s.jar (failed n))) :
    Renewable site browser timing ((s.remove k).settle browser x.origin failed) := by
  rcases settle_cases browser (s.remove k) x.origin failed with
    ⟨hsettle, hidle⟩ | ⟨id, n, horigin, hpage, hsettle⟩
  · rw [hsettle]
    exact h.remove hx hidle
  · rw [hsettle]
    apply (h.setPage (htimer id n horigin hpage)).remove hx
    intro id' m hid' hfetching
    rw [horigin] at hid'
    obtain rfl := Origin.renewal.inj hid'
    change Function.update s.pages id _ id = _ at hfetching
    rw [Function.update_self] at hfetching
    exact schedule_ne_fetching browser s.now s.jar (failed n) m (Option.some.inj hfetching)

end Steps

section Middleware

variable {site : Site} {s : State} {r : Readings}

theorem siteMiddleware_refresh (decoder : TokenDecoder) (ttl : TokenTtl) (r : Readings)
    (issued : String) (cookie : Option String) :
    siteAccessCookieMiddleware decoder ttl r issued ⟨"http", some accessTokenRefreshPath, cookie⟩ =
      .ok ⟨some issued, true⟩ := by
  simp [siteAccessCookieMiddleware, pure, Except.pure]

theorem siteMiddleware_page (decoder : TokenDecoder) (ttl : TokenTtl) (r : Readings)
    (issued : String) {path : String} (hpath : path ≠ accessTokenRefreshPath)
    (cookie : Option String) :
    siteAccessCookieMiddleware decoder ttl r issued ⟨"http", some path, cookie⟩ =
      (accessCookieNeedsRenewal decoder ttl r cookie).bind
        (fun renew => .ok ⟨if renew then some issued else none, false⟩) := by
  cases hrenew : accessCookieNeedsRenewal decoder ttl r cookie with
  | error e => simp [siteAccessCookieMiddleware, hpath, hrenew, bind, Except.bind]
  | ok renew =>
      cases renew <;> simp [siteAccessCookieMiddleware, hpath, hrenew, bind, Except.bind, pure,
        Except.pure]

/-- A renewal is always answered with a fresh cookie. -/
theorem viewToken_refresh (site : Site) (s : State) (r : Readings) (cookie : Option String) :
    viewToken site s r accessTokenRefreshPath htmlContentType cookie =
      .ok (some (site.issueAccessToken s.now)) := by
  rw [viewToken, siteMiddleware_refresh]
  rfl

/-- What a page gets: a fresh cookie, or none because its own was kept. -/
theorem viewToken_cases {path contentType : String} {cookie token : Option String}
    (h : viewToken site s r path contentType cookie = .ok token) :
    token = some (site.issueAccessToken s.now) ∨
      token = none ∧ ("text/html".toList.isPrefixOf contentType.toList = true →
        accessCookieNeedsRenewal site.decoder site.settings.ttl r cookie = .ok false) := by
  unfold viewToken at h
  obtain ⟨forwarded, hforwarded, htoken⟩ := bind_eq_ok.1 h
  obtain rfl := Except.ok.inj htoken
  by_cases hpath : path = accessTokenRefreshPath
  · subst hpath
    rw [siteMiddleware_refresh] at hforwarded
    obtain rfl := Except.ok.inj hforwarded
    apply Or.inl
    rw [Forwarded.setsCookie, Option.isSome_some, Bool.or_true, Bool.true_and, if_pos rfl]
  · rw [siteMiddleware_page _ _ _ _ hpath] at hforwarded
    obtain ⟨renew, hrenew, hok⟩ := bind_eq_ok.1 hforwarded
    obtain rfl := Except.ok.inj hok
    cases renew with
    | false => exact Or.inr ⟨rfl, fun _ => hrenew⟩
    | true =>
        by_cases hhtml : "text/html".toList.isPrefixOf contentType.toList = true
        · apply Or.inl
          rw [Forwarded.setsCookie, hhtml]
          rfl
        · apply Or.inr
          refine ⟨?_, fun h => absurd h hhtml⟩
          rw [Forwarded.setsCookie, Bool.eq_false_iff.2 hhtml]
          rfl

/-- A call with a cookie that has not expired is accepted and gets a fresh cookie. -/
theorem apiToken_of_valid {encoded : String} {exp : DateTime} (hempty : encoded ≠ "")
    (hverified : site.decoder.verified encoded = some ⟨anonymousSubject, exp⟩) (hexp : s.now < exp) :
    apiToken site s (some encoded) = .ok (some (site.issueAccessToken s.now)) := by
  have hcredentials : credentialsFromConnection site.lower ⟨none, some encoded⟩ =
      .ok (.cookie, encoded) := by
    simp [credentialsFromConnection, hempty]
  have haccepted : protectedRequest site.lower site.decoder s.now (site.issueAccessToken s.now)
      ⟨none, some encoded⟩ = _ :=
    protectedRequest_eq_ok.2 ⟨.cookie, encoded, ⟨anonymousSubject, exp⟩, hcredentials,
      decodeAccessToken_eq_ok.2 ⟨hverified, hexp, rfl⟩, rfl⟩
  rw [apiToken, haccepted]
  rfl

end Middleware

section Safety

variable {site : Site} {browser : Browser} {timing : Timing} {s t : State}

/-- An open page has a token that is good for longer than an answer takes. -/
theorem Renewable.authorised (h : Renewable site browser timing s) {id : ℕ} {timer : PageTimer}
    (hid : s.pages id = some timer) : ∃ exp, Until site browser timing s.now s.jar exp ∧
      s.now.micros + timing.latency < exp.micros := by
  have hkept := h.pages id timer hid
  have hnonneg := timing.allowance_nonneg
  cases timer with
  | stopped => exact hkept.elim
  | waiting due failed =>
      obtain ⟨-, hprompt, -, exp, hexp, hleft⟩ := hkept
      have := hnonneg failed
      exact ⟨exp, hexp, by omega⟩
  | fetching failed =>
      obtain ⟨-, sent, ⟨x, hx, -, rfl⟩, exp, hexp, hleft⟩ := hkept
      have hprompt := (h.exchanges x hx).prompt
      have := hnonneg failed
      exact ⟨exp, hexp, by omega⟩

/-- The cookie that a request carries is the one that is kept. -/
theorem accessCookie_of_keeps {encoded : String} {renew : ℤ} {expiry exp : DateTime}
    (h : Keeps site browser timing s.now s.jar encoded renew expiry exp) (hlive : s.now < expiry) :
    s.accessCookie site = some encoded := by
  rw [State.accessCookie, h.sent s.now le_rfl, if_pos hlive, Option.map_some, String.ofList_toList]

theorem renewable_tick (hfits : Fits site timing browser) (h : Renewable site browser timing s)
    {micros : ℕ} (hprompt : Prompt site timing s (.tick micros)) :
    Renewable site browser timing { s with now := s.now.addMicros micros } := by
  obtain ⟨hexchanges, hpages, htime⟩ := hprompt
  have hnow : s.now ≤ s.now.addMicros micros := DateTime.le_addMicros _ _
  refine h.advance hfits hnow htime ?_ (Or.inl (fun exp hexp => hexp.mono hnow)) hexchanges hpages
  rcases h.jar with hnone | ⟨exp, hexp⟩
  · exact Or.inl (hnone.mono hnow)
  · exact Or.inr ⟨exp, hexp.mono hnow⟩

theorem requestKept_page (h : Renewable site browser timing s) (id : ℕ) (path : String) :
    RequestKept site timing (Until site browser timing s.now s.jar) s.now (s.accessCookie site)
      (.page id path) := by
  intro encoded token hcookie hverified
  rcases h.jar with hnone | ⟨exp, kept, renew, expiry, hkeeps⟩
  · rw [State.accessCookie, hnone s.now le_rfl] at hcookie
    cases hcookie
  · by_cases hlive : s.now < expiry
    · rw [accessCookie_of_keeps hkeeps hlive] at hcookie
      obtain rfl := Option.some.inj hcookie
      obtain rfl := Option.some.inj (hverified.symm.trans hkeeps.verified)
      exact ⟨exp, ⟨kept, renew, expiry, hkeeps⟩, Or.inl le_rfl⟩
    · rw [State.accessCookie, hkeeps.sent s.now le_rfl, if_neg hlive] at hcookie
      cases hcookie

theorem requestKept_api (h : Renewable site browser timing s) {id : ℕ} {timer : PageTimer}
    (hid : s.pages id = some timer) :
    RequestKept site timing (Until site browser timing s.now s.jar) s.now (s.accessCookie site)
      .api := by
  obtain ⟨exp, ⟨encoded, renew, expiry, hkeeps⟩, hleft⟩ := h.authorised hid
  have hlive : s.now < expiry := by
    have hexp := hkeeps.exp_le
    rw [DateTime.le_iff] at hexp
    rw [DateTime.lt_iff]
    omega
  exact ⟨encoded, exp, accessCookie_of_keeps hkeeps hlive, hkeeps.ne_empty, hkeeps.verified, hleft⟩

theorem renewable_timer (hfits : Fits site timing browser) (h : Renewable site browser timing s)
    {id failed : ℕ} {due : DateTime} (hid : s.pages id = some (.waiting due failed)) :
    Renewable site browser timing ((s.send site (.renewal id)).setPage id (.fetching failed)) := by
  obtain ⟨hfailed, hprompt, -, exp, hexp, hleft⟩ := h.pages id _ hid
  have hsend : Renewable site browser timing (s.send site (.renewal id)) := h.send hfits trivial
  apply hsend.setPage
  refine ⟨hfailed, s.now, ⟨_, List.mem_append_right _ (List.mem_singleton.2 rfl), rfl, rfl⟩, exp,
    hexp, ?_⟩
  omega

/-- The answer to a page without a cookie: its own token was kept, and what the browser has now is
as good. -/
theorem covered_of_kept (hfits : Fits site timing browser) (h : Renewable site browser timing s)
    {x : Exchange} (hx : x ∈ s.inFlight) (hstage : x.stage = .requested) {id : ℕ} {path : String}
    (horigin : x.origin = .page id path) {r : Readings} (hsent : x.sent ≤ r.validated)
    (hkept : accessCookieNeedsRenewal site.decoder site.settings.ttl r x.cookie = .ok false) :
    Covered site (Until site browser timing s.now s.jar) x.sent x.origin := by
  have hrequest := (h.exchanges x hx).stage
  rw [hstage, horigin] at hrequest
  rw [horigin]
  rcases needsRenewal_cases site.decoder site.settings.ttl r x.cookie with
    hrenew | ⟨encoded, token, hcookie, hverified, -, -, hrenew⟩ | ⟨-, herror⟩
  · rw [hkept] at hrenew
    cases hrenew
  · have hhalf := of_decide_eq_false (Except.ok.inj (hrenew.symm.trans hkept))
    rw [inSecondHalf, DateTime.sub] at hhalf
    obtain ⟨exp, hexp, hleft⟩ := hrequest encoded token hcookie hverified
    have hmeasured := hsent.trans (r.validated_le.trans r.decoded_le)
    have hreserve : timing.reserve = timing.allowance 0 + timing.lateness + 2 * timing.latency := rfl
    have hnonneg := timing.allowance_nonneg 0
    have hfit := hfits.half
    rw [DateTime.le_iff] at hmeasured
    refine ⟨exp, hexp, ?_⟩
    rcases hleft with hle | hleft
    · rw [DateTime.le_iff] at hle
      omega
    · omega
  · rw [hkept] at herror
    cases herror

theorem renewable_handle (hfits : Fits site timing browser) (h : Renewable site browser timing s)
    {k : ℕ} {r : Readings} {x : Exchange} (hx : s.inFlight[k]? = some x)
    (hstage : x.stage = .requested) (hsent : x.sent ≤ r.validated) :
    Renewable site browser timing (s.handle site k r x) := by
  have hmem := List.mem_of_getElem? hx
  have hkept := h.exchanges x hmem
  have hissued : StageKept site timing (Until site browser timing s.now s.jar) s.now x.origin x.sent
      x.cookie (.handling (some (site.issueAccessToken s.now))) :=
    ⟨s.now, h.inTime, hkept.sent_le, le_rfl, rfl⟩
  -- the view routes reject a page only for its cookie, which no call and no renewal is
  have hview : ∀ path contentType, exchangeToken site s r x =
        viewToken site s r path contentType x.cookie →
      x.origin ≠ .api → (∀ id, x.origin ≠ .renewal id) →
      (∀ id path', x.origin = .page id path' →
        "text/html".toList.isPrefixOf contentType.toList = true) →
      Renewable site browser timing (s.handle site k r x) := by
    intro path contentType hexchange hapi hrenewal hhtml
    unfold State.handle
    rw [hexchange]
    cases htoken : viewToken site s r path contentType x.cookie with
    | error e =>
        have hremoved := h.remove hx (fun id _ horigin => absurd horigin (hrenewal id))
        dsimp only
        rw [if_neg hapi, Nat.add_zero]
        exact hremoved
    | ok token =>
        apply h.setStage hfits hx
        rcases viewToken_cases htoken with rfl | ⟨rfl, hneeds⟩
        · exact hissued
        · change Covered _ _ _ _
          cases horigin : x.origin with
          | page id path' =>
              rw [← horigin]
              exact covered_of_kept hfits h hmem hstage horigin hsent (hneeds (hhtml id path' horigin))
          | part path' contentType' => trivial
          | renewal id => exact absurd horigin (hrenewal id)
          | api => trivial
  cases horigin : x.origin with
  | page id path =>
      apply hview path htmlContentType
      · rw [exchangeToken, horigin]
      · rw [horigin]
        exact fun hne => by cases hne
      · rw [horigin]
        exact fun _ hne => by cases hne
      · exact fun _ _ _ => by decide
  | part path contentType =>
      apply hview path contentType
      · rw [exchangeToken, horigin]
      · rw [horigin]
        exact fun hne => by cases hne
      · rw [horigin]
        exact fun _ hne => by cases hne
      · rw [horigin]
        exact fun _ _ hne => by cases hne
  | renewal id =>
      have hexchange : exchangeToken site s r x = .ok (some (site.issueAccessToken s.now)) := by
        rw [exchangeToken, horigin]
        exact viewToken_refresh site s r x.cookie
      rw [State.handle, hexchange]
      exact h.setStage hfits hx hissued
  | api =>
      have hrequest := hkept.stage
      rw [hstage, horigin] at hrequest
      obtain ⟨encoded, exp, hcookie, hempty, hverified, hleft⟩ := hrequest
      have hlive : s.now < exp := by
        rw [DateTime.lt_iff]
        have := hkept.prompt
        omega
      have hexchange : exchangeToken site s r x = .ok (some (site.issueAccessToken s.now)) := by
        rw [exchangeToken, horigin]
        dsimp only
        rw [hcookie]
        exact apiToken_of_valid hempty hverified hlive
      rw [State.handle, hexchange]
      exact h.setStage hfits hx hissued

theorem renewable_answer (hfits : Fits site timing browser) (h : Renewable site browser timing s)
    {k : ℕ} {x : Exchange} (hx : s.inFlight[k]? = some x) {token : Option String}
    (hstage : x.stage = .handling token) :
    Renewable site browser timing
      (s.setStage k x (.answered (responseHeaders site s token))) := by
  have hkept := (h.exchanges x (List.mem_of_getElem? hx)).stage
  rw [hstage] at hkept
  apply h.setStage hfits hx
  cases token with
  | none => exact Or.inl ⟨rfl, hkept⟩
  | some encoded =>
      obtain ⟨issued, htime, hsent, hle, rfl⟩ := hkept
      exact Or.inr ⟨issued, s.now, htime, hsent, hle, le_rfl, rfl⟩

/-- The cookies of an answer are stored before the page of the answer goes on. -/
theorem renewable_arrive_of (hfits : Fits site timing browser) {k : ℕ} {x : Exchange}
    {headers : List (List Char)} {jar : List StoredCookie}
    (hjar : headers.foldl (receiveSetCookie browser.limit s.now) s.jar = jar)
    (h : Renewable site browser timing { s with jar }) (hx : s.inFlight[k]? = some x)
    (hscript : x.origin.id.isSome = true → ∃ exp, Until site browser timing s.now jar exp ∧
      s.now.micros + 1000000 + timing.allowance 0 + timing.lateness + 2 * timing.latency <
        exp.micros) : Renewable site browser timing (s.arrive browser k x headers) := by
  have hschedule : ∀ id, x.origin.id = some id →
      TimerKept site browser timing (Until site browser timing s.now jar) s.now
        (({ s with jar } : State).Fetches id) (scheduleAccessRenewal browser s.now jar 0) := by
    intro id hid
    obtain ⟨exp, hexp, hleft⟩ := hscript (by rw [hid]; rfl)
    exact timerKept_schedule (s := { s with jar }) hfits hexp (Nat.zero_le _) hleft _
  have hsettle : ∀ origin, x.origin = origin → (∀ id path, origin ≠ .page id path) →
      Renewable site browser timing
        ((({ s with jar } : State).remove k).settle browser origin (fun _ => 0)) := by
    rintro origin rfl -
    exact h.settle hx (fun id n horigin _ => hschedule id (by rw [horigin]; rfl))
  unfold State.arrive
  rw [hjar]
  cases horigin : x.origin with
  | page id path =>
      apply (h.setPage (hschedule id (by rw [horigin]; rfl))).remove hx
      intro id' n hid'
      rw [horigin] at hid'
      cases hid'
  | part path contentType => exact hsettle _ horigin (fun _ _ hne => by cases hne)
  | renewal id => exact hsettle _ horigin (fun _ _ hne => by cases hne)
  | api => exact hsettle _ horigin (fun _ _ hne => by cases hne)

theorem renewable_arrive (hfits : Fits site timing browser) (h : Renewable site browser timing s)
    {k : ℕ} {x : Exchange} (hx : s.inFlight[k]? = some x) {headers : List (List Char)}
    (hstage : x.stage = .answered headers) :
    Renewable site browser timing (s.arrive browser k x headers) := by
  have hexchange := h.exchanges x (List.mem_of_getElem? hx)
  have hprompt := hexchange.prompt
  have hkept := hexchange.stage
  have hhalf := hfits.half
  have hreserve : timing.reserve = timing.allowance 0 + timing.lateness + 2 * timing.latency := rfl
  have hnonneg := timing.allowance_nonneg 0
  rw [hstage] at hkept
  rcases hkept with ⟨rfl, hcovered⟩ | ⟨issued, written, htime, hsent, hwritten, hle, rfl⟩
  · apply renewable_arrive_of hfits rfl h hx
    intro hid
    cases horigin : x.origin with
    | page id path =>
        rw [horigin] at hcovered
        obtain ⟨exp, hexp, hleft⟩ := hcovered
        exact ⟨exp, hexp, by omega⟩
    | renewal id =>
        rw [horigin] at hcovered
        exact hcovered.elim
    | part path contentType =>
        rw [horigin] at hid
        cases hid
    | api =>
        rw [horigin] at hid
        cases hid
  · rw [DateTime.le_iff] at hsent
    obtain ⟨exp, hexp, hfresh⟩ := keeps_received hfits s.jar hwritten hle (by omega) htime h.inTime
    apply renewable_arrive_of hfits rfl _ hx
    · intro _
      exact ⟨exp, hexp, by omega⟩
    · exact h.receive hfits (Or.inr ⟨exp, hexp⟩) (Or.inr ⟨exp, hexp, hfresh⟩)

/-- After a renewal that failed there is time for the next. -/
theorem renewable_fail (hfits : Fits site timing browser) (h : Renewable site browser timing s)
    {k : ℕ} {x : Exchange} (hx : s.inFlight[k]? = some x)
    (hprompt : Prompt site timing s (.fail k)) :
    Renewable site browser timing ((s.remove k).settle browser x.origin (fun n => n + 1)) := by
  apply h.settle hx
  intro id n horigin hpage
  have hlt := hprompt x hx id horigin n hpage
  obtain ⟨-, sent, ⟨y, hy, -, rfl⟩, exp, hexp, hleft⟩ := h.pages id _ hpage
  have hlate := (h.exchanges y hy).prompt
  have hattempt := timing.allowance_succ hlt
  have hcost : timing.attempt = 1000000 + timing.lateness + timing.latency := rfl
  have hfailed : n + 1 ≤ timing.failures := hlt
  exact timerKept_schedule hfits hexp hfailed (by omega) _

theorem renewable_otherCookie (hfits : Fits site timing browser)
    (h : Renewable site browser timing s) {c : StoredCookie}
    (hapi : c.name ≠ site.settings.apiTokenCookieName) (hrenew : c.name ≠ renewAtCookieName) :
    Renewable site browser timing { s with jar := storeCookie s.now s.jar c } := by
  apply h.receive hfits
  · rcases h.jar with hnone | ⟨exp, hexp⟩
    · exact Or.inl (hnone.other hapi)
    · exact Or.inr ⟨exp, hexp.other hapi hrenew⟩
  · exact Or.inl (fun exp hexp => hexp.other hapi hrenew)

/-- Every prompt event keeps the tokens of the open pages. -/
theorem renewable_next (hfits : Fits site timing browser) (h : Renewable site browser timing s)
    {e : Event} (hprompt : Prompt site timing s e) (hnext : next site browser s e = some t) :
    Renewable site browser timing t := by
  cases e with
  | tick micros =>
      obtain rfl := Option.some.inj hnext
      exact renewable_tick hfits h hprompt
  | openPage id path =>
      obtain rfl := next_openPage hnext
      exact h.send hfits (requestKept_page h id path)
  | load path contentType =>
      obtain rfl := Option.some.inj hnext
      exact h.send hfits trivial
  | callApi id =>
      obtain ⟨⟨timer, hid⟩, rfl⟩ := next_callApi hnext
      exact h.send hfits (requestKept_api h hid)
  | timerFires id =>
      obtain ⟨due, failed, hid, rfl⟩ := next_timerFires hnext
      exact renewable_timer hfits h hid
  | handle k r =>
      obtain ⟨x, hx, hstage, hsent, rfl⟩ := next_handle hnext
      exact renewable_handle hfits h hx hstage hsent
  | answer k =>
      obtain ⟨x, token, hx, hstage, rfl⟩ := next_answer hnext
      exact renewable_answer hfits h hx hstage
  | arrive k =>
      obtain ⟨x, headers, hx, hstage, rfl⟩ := next_arrive hnext
      exact renewable_arrive hfits h hx hstage
  | fail k =>
      obtain ⟨x, hx, rfl⟩ := next_fail hnext
      exact renewable_fail hfits h hx hprompt
  | close id =>
      obtain rfl := Option.some.inj hnext
      exact h.close id
  | otherCookie c =>
      obtain ⟨⟨hapi, hrenew⟩, rfl⟩ := next_otherCookie hnext
      exact renewable_otherCookie hfits h hapi hrenew

end Safety

section Runs

def State.start (now : DateTime) (jar : List StoredCookie) : State :=
  ⟨now, jar, fun _ => none, [], 0⟩

/-- The calls that pages made were accepted, and an open page goes on renewing a cookie that any
call of it can be authorised with until it is answered. -/
structure PagesAuthorised (site : Site) (timing : Timing) (s : State) : Prop where
  accepted : s.rejectedCalls = 0
  renewing : ∀ id, s.pages id ≠ some .stopped
  authorised : ∀ id timer, s.pages id = some timer → ∃ encoded token,
    s.accessCookie site = some encoded ∧ ∀ t, s.now ≤ t → t.micros ≤ s.now.micros + timing.latency →
      decodeAccessToken site.decoder encoded t = .ok token

theorem renewable_start {site : Site} {browser : Browser} {timing : Timing} {start : DateTime}
    (hstart : InTime site start) {jar : List StoredCookie}
    (hjar : ∀ c ∈ jar, c.name ≠ site.settings.apiTokenCookieName) :
    Renewable site browser timing (State.start start jar) where
  inTime := hstart
  jar := by
    apply Or.inl
    intro t _
    rw [sentCookie, Option.map_eq_none_iff, List.find?_eq_none]
    intro c hc hfound
    rw [Bool.and_eq_true, decide_eq_true_eq] at hfound
    exact hjar c hc hfound.2
  pages _ _ hid := by cases hid
  exchanges _ hx := absurd hx List.not_mem_nil
  accepted := rfl

/-- In every prompt run the calls of open pages are authorised, in whatever order the pages, the
calls and the answers come. -/
theorem open_pages_authorised (site : Site) (browser : Browser) (timing : Timing)
    (hfits : Fits site timing browser) (start : DateTime) (hstart : InTime site start)
    (jar : List StoredCookie) (hjar : ∀ c ∈ jar, c.name ≠ site.settings.apiTokenCookieName)
    (s : State) (hrun : RunWhile (next site browser) (Prompt site timing) (State.start start jar) s) :
    PagesAuthorised site timing s := by
  have hkept : Renewable site browser timing s :=
    hrun.invariant (renewable_start hstart hjar)
      (fun _ _ _ h hprompt hnext => renewable_next hfits h hprompt hnext)
  refine ⟨hkept.accepted, fun id hid => hkept.pages id _ hid, fun id timer hid => ?_⟩
  obtain ⟨exp, ⟨encoded, renew, expiry, hkeeps⟩, hleft⟩ := hkept.authorised hid
  have hexp := hkeeps.exp_le
  rw [DateTime.le_iff] at hexp
  have hlive : s.now < expiry := by
    rw [DateTime.lt_iff]
    omega
  refine ⟨encoded, ⟨anonymousSubject, exp⟩, accessCookie_of_keeps hkeeps hlive, fun t _ hlate => ?_⟩
  apply decodeAccessToken_eq_ok.2
  refine ⟨hkeeps.verified, ?_, rfl⟩
  rw [DateTime.lt_iff]
  change t.micros < exp.micros
  omega

end Runs

section OnePage

variable {site : Site} {browser : Browser} {timing : Timing} {s t : State} {id : ℕ}

structure OnlyPage (id : ℕ) (s : State) : Prop where
  pages : ∀ other, other ≠ id → s.pages other = none
  inFlight : ∀ x ∈ s.inFlight, ∀ other, x.origin.id = some other → other = id

instance : DecidablePred (InTime site) := fun _ => inferInstanceAs (Decidable (_ ∧ _))

def promptEvent (site : Site) (timing : Timing) (id : ℕ) (s : State) : Event → Bool
  | .tick micros =>
      s.inFlight.all (fun x => s.now.micros + micros ≤ x.sent.micros + timing.latency) &&
        (match s.pages id with
          | some (.waiting due _) => decide (s.now.micros + micros ≤ due.micros + timing.lateness)
          | _ => true) &&
        decide (InTime site (s.now.addMicros micros))
  | .fail _ =>
      match s.pages id with
      | some (.fetching failed) => decide (failed < timing.failures)
      | _ => true
  | .openPage other _ => decide (other = id)
  | _ => true

theorem OnlyPage.eq_of_open (h : OnlyPage id s) {other : ℕ} {timer : PageTimer}
    (hother : s.pages other = some timer) : other = id := by
  by_contra hne
  rw [h.pages other hne] at hother
  cases hother

theorem prompt_of_promptEvent (h : OnlyPage id s) {e : Event}
    (he : promptEvent site timing id s e = true) : Prompt site timing s e := by
  cases e with
  | tick micros =>
      rw [promptEvent, Bool.and_eq_true, Bool.and_eq_true, List.all_eq_true] at he
      obtain ⟨⟨hlatency, hlateness⟩, htime⟩ := he
      refine ⟨fun x hx => of_decide_eq_true (hlatency x hx), fun other due failed hother => ?_,
        of_decide_eq_true htime⟩
      obtain rfl := h.eq_of_open hother
      rw [hother] at hlateness
      exact of_decide_eq_true hlateness
  | fail k =>
      intro x _ other _ failed hother
      obtain rfl := h.eq_of_open hother
      rw [promptEvent, hother] at he
      exact of_decide_eq_true he
  | _ => trivial

theorem OnlyPage.of_inFlight (h : OnlyPage id s) {inFlight : List Exchange}
    (hfrom : ∀ x ∈ inFlight, ∃ y ∈ s.inFlight, x.origin = y.origin) :
    OnlyPage id { s with inFlight } := by
  refine ⟨h.pages, fun x hx other hother => ?_⟩
  obtain ⟨y, hy, horigin⟩ := hfrom x hx
  exact h.inFlight y hy other (horigin ▸ hother)

theorem OnlyPage.send (h : OnlyPage id s) (site : Site) (origin : Origin)
    (horigin : ∀ other, origin.id = some other → other = id) :
    OnlyPage id (s.send site origin) := by
  refine ⟨h.pages, fun x hx => ?_⟩
  rcases List.mem_append.1 hx with hx | hx
  · exact h.inFlight x hx
  · rw [List.mem_singleton.1 hx]
    exact horigin

theorem OnlyPage.setPage (h : OnlyPage id s) (timer : PageTimer) :
    OnlyPage id (s.setPage id timer) :=
  ⟨fun other hother => (Function.update_of_ne hother _ _).trans (h.pages other hother), h.inFlight⟩

theorem OnlyPage.remove (h : OnlyPage id s) (k : ℕ) : OnlyPage id (s.remove k) :=
  h.of_inFlight fun x hx => ⟨x, List.mem_of_mem_eraseIdx hx, rfl⟩

theorem OnlyPage.setStage (h : OnlyPage id s) {k : ℕ} {x : Exchange}
    (hx : s.inFlight[k]? = some x) (stage : Stage) : OnlyPage id (s.setStage k x stage) := by
  apply h.of_inFlight
  intro y hy
  rcases List.mem_or_eq_of_mem_set hy with hy | rfl
  · exact ⟨y, hy, rfl⟩
  · exact ⟨x, List.mem_of_getElem? hx, rfl⟩

theorem OnlyPage.settle (h : OnlyPage id s) (origin : Origin) (failed : ℕ → ℕ) :
    OnlyPage id (s.settle browser origin failed) := by
  unfold State.settle
  split
  · split
    · rename_i hother
      obtain rfl := h.eq_of_open hother
      exact h.setPage _
    · exact h
  · exact h

theorem OnlyPage.arrive (h : OnlyPage id s) {k : ℕ} {x : Exchange} (hx : s.inFlight[k]? = some x)
    (headers : List (List Char)) : OnlyPage id (s.arrive browser k x headers) := by
  have horigin := h.inFlight x (List.mem_of_getElem? hx)
  have hreceived : ∀ jar, OnlyPage id { s.remove k with jar } := fun jar =>
    ⟨(h.remove k).pages, (h.remove k).inFlight⟩
  unfold State.arrive
  cases hpage : x.origin with
  | page other path =>
      rw [hpage] at horigin
      obtain rfl := horigin other rfl
      exact (hreceived _).setPage _
  | part path contentType => exact (hreceived _).settle _ _
  | renewal other => exact (hreceived _).settle _ _
  | api => exact (hreceived _).settle _ _

theorem OnlyPage.handle (h : OnlyPage id s) {k : ℕ} {x : Exchange} (hx : s.inFlight[k]? = some x)
    (r : Readings) : OnlyPage id (s.handle site k r x) := by
  unfold State.handle
  split
  · exact h.setStage hx _
  · exact ⟨(h.remove k).pages, (h.remove k).inFlight⟩

theorem OnlyPage.close (h : OnlyPage id s) (other : ℕ) :
    OnlyPage id { s with pages := Function.update s.pages other none } := by
  refine ⟨fun page hpage => ?_, h.inFlight⟩
  by_cases heq : page = other
  · subst heq
    exact Function.update_self _ _ _
  · exact (Function.update_of_ne heq _ _).trans (h.pages page hpage)

/-- Only an event that opens another page changes it. -/
theorem OnlyPage.next (h : OnlyPage id s) {e : Event} (he : promptEvent site timing id s e = true)
    (hnext : next site browser s e = some t) : OnlyPage id t := by
  cases e with
  | tick micros =>
      obtain rfl := Option.some.inj hnext
      exact ⟨h.pages, h.inFlight⟩
  | openPage other path =>
      obtain rfl := next_openPage hnext
      obtain rfl : other = id := of_decide_eq_true he
      exact h.send _ _ (fun _ horigin => (Option.some.inj horigin).symm)
  | load path contentType =>
      obtain rfl := Option.some.inj hnext
      exact h.send _ _ (fun _ hother => by cases hother)
  | callApi other =>
      obtain ⟨-, rfl⟩ := next_callApi hnext
      exact h.send _ _ (fun _ hother => by cases hother)
  | timerFires other =>
      obtain ⟨due, failed, hother, rfl⟩ := next_timerFires hnext
      obtain rfl := h.eq_of_open hother
      have hsent := h.send site (.renewal other) (fun _ horigin => (Option.some.inj horigin).symm)
      exact hsent.setPage _
  | handle k r =>
      obtain ⟨x, hx, -, -, rfl⟩ := next_handle hnext
      exact h.handle hx r
  | answer k =>
      obtain ⟨x, token, hx, -, rfl⟩ := next_answer hnext
      exact h.setStage hx _
  | arrive k =>
      obtain ⟨x, headers, hx, -, rfl⟩ := next_arrive hnext
      exact h.arrive hx _
  | fail k =>
      obtain ⟨x, hx, rfl⟩ := next_fail hnext
      exact (h.remove k).settle _ _
  | close other =>
      obtain rfl := Option.some.inj hnext
      exact h.close other
  | otherCookie c =>
      obtain ⟨-, rfl⟩ := next_otherCookie hnext
      exact ⟨h.pages, h.inFlight⟩

end OnePage

section Samples

def secondsEncode (token : Token) : String := String.ofList (writeInt (token.exp.micros / 1000000))

def secondsVerified (encoded : String) : Option Token :=
  (maxAge encoded.toList).map (fun n => ⟨anonymousSubject, ⟨n * 1000000⟩⟩)

def secondsDecode (encoded : String) (now : DateTime) : Except NotAuthorizedException Token :=
  match secondsVerified encoded with
  | none => .error ⟨"Invalid token"⟩
  | some token => if now < token.exp then .ok token else .error ⟨"Invalid token"⟩

theorem secondsDecode_eq_ok (encoded : String) (now : DateTime) (token : Token) :
    secondsDecode encoded now = .ok token ↔ secondsVerified encoded = some token ∧ now < token.exp := by
  unfold secondsDecode
  cases secondsVerified encoded with
  | none => simp
  | some token' =>
      by_cases hexp : now < token'.exp
      · simp only [hexp, if_true, Except.ok.injEq, Option.some.injEq, iff_self_and]
        rintro rfl
        exact hexp
      · simp only [hexp, if_false, reduceCtorEq, Option.some.injEq, false_iff, not_and]
        rintro rfl
        exact hexp

def secondsDecoder : TokenDecoder := ⟨secondsVerified, secondsDecode, secondsDecode_eq_ok⟩

theorem secondsVerified_encode (exp : DateTime) :
    secondsDecoder.verified (secondsEncode ⟨anonymousSubject, exp⟩) =
      some ⟨anonymousSubject, wholeSeconds exp⟩ := by
  change (maxAge (secondsEncode _).toList).map _ = _
  rw [secondsEncode, String.toList_ofList, maxAge_writeInt]
  rfl

theorem secondsEncode_chars (exp : DateTime) :
    (secondsEncode ⟨anonymousSubject, exp⟩).toList.all isCookieChar = true := by
  rw [secondsEncode, String.toList_ofList]
  exact isCookieChar_writeInt _

theorem secondsEncode_ne (exp : DateTime) : secondsEncode ⟨anonymousSubject, exp⟩ ≠ "" := by
  intro h
  have hread := secondsVerified_encode exp
  rw [h] at hread
  cases hread

def secondsEncoder : TokenEncoder secondsDecoder :=
  ⟨secondsEncode, secondsVerified_encode, secondsEncode_chars, secondsEncode_ne⟩

def sampleSite : Site := ⟨defaultSettings, secondsDecoder, secondsEncoder, asciiLower⟩

def sampleBrowser : Browser := ⟨integerReader, 34560000, -2000000⟩

def sampleTiming : Timing := ⟨10000000, 60000000, 2⟩

def readingsAt (now : DateTime) : Readings := ⟨now, now, now, le_refl now, le_refl now⟩

/-- A page is loaded and calls the API. Its timer fires half a minute late, its renewal fails, and it
renews again. -/
def sampleEvents : List Event :=
  [.openPage 0 "/maps", .tick 1000000, .handle 0 (readingsAt ⟨63900000001000000⟩), .answer 0,
    .tick 2000000, .arrive 0, .callApi 0, .tick 1000000,
    .handle 0 (readingsAt ⟨63900000004000000⟩), .answer 0, .arrive 0, .tick 1829000000,
    .timerFires 0, .tick 5000000, .fail 0, .tick 2000000, .timerFires 0,
    .handle 0 (readingsAt ⟨63900001840000000⟩), .answer 0, .arrive 0, .callApi 0]

def sampleStart : State := State.start ⟨63900000000000000⟩ [themeCookie]

def sampleNext (s : State) (e : Event) : Option State :=
  if promptEvent sampleSite sampleTiming 0 s e then next sampleSite sampleBrowser s e else none

theorem sample_executes : (exec sampleNext sampleStart sampleEvents).isSome := by
  decide +kernel

theorem sample_runs : RunWhile (next sampleSite sampleBrowser) (Prompt sampleSite sampleTiming)
    sampleStart ((exec sampleNext sampleStart sampleEvents).get sample_executes) := by
  have hstart : OnlyPage 0 sampleStart := ⟨fun _ _ => rfl, fun _ hx => absurd hx List.not_mem_nil⟩
  refine (run_of_exec (exec_get sampleEvents sample_executes)).runWhile hstart ?_
  intro s e t hs hnext
  obtain ⟨hprompt, hstate⟩ := Option.ite_none_right_eq_some.1 hnext
  exact ⟨prompt_of_promptEvent hs hprompt, hstate, hs.next hprompt hstate⟩

theorem sample_fits : Fits sampleSite sampleTiming sampleBrowser := ⟨by decide, by decide⟩

theorem open_pages_authorised_sample : PagesAuthorised sampleSite sampleTiming
    ((exec sampleNext sampleStart sampleEvents).get sample_executes) := by
  apply open_pages_authorised sampleSite sampleBrowser sampleTiming sample_fits
    ⟨63900000000000000⟩ (by unfold InTime; decide) [themeCookie]
  · intro c hc
    obtain rfl := List.mem_singleton.1 hc
    decide
  · exact sample_runs

end Samples

end SimplyTransport.Auth
