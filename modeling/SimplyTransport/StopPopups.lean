import SimplyTransport.Escaping
import SimplyTransport.RealtimeScheduleContracts
import SimplyTransport.Traversal

/-!
# The popups of the maps

The browser builds the HTML of the popups and tooltips from strings of the API. Every value that is
put into one goes through `escapeHtml` or `encodeURIComponent`, is a number or an emoji, or is the
direction of the API: the characters that open a tag or close an attribute are those of the
builders' own literals.
-/

namespace SimplyTransport.StopMapPopup

open Escaping

/-- A JavaScript string: its UTF-16 code units, in any order. -/
abbrev JsString := List UInt16

def charUnits (c : Char) : JsString :=
  if c.toNat < 0x10000 then [c.toNat.toUInt16]
  else [(0xD800 + (c.toNat - 0x10000) / 0x400).toUInt16,
    (0xDC00 + (c.toNat - 0x10000) % 0x400).toUInt16]

def js (literal : String) : JsString := literal.toList.flatMap charUnits

def unit (c : Char) : UInt16 := c.toNat.toUInt16

/-- What a property of an object can be where the code expects a string. -/
inductive Field
  | undefined
  | null
  | string (text : JsString)
  deriving DecidableEq

def Field.toString : Field → JsString
  | .undefined => js "undefined"
  | .null => js "null"
  | .string text => text

def Field.or (value : Field) (fallback : JsString) : JsString :=
  match value with
  | .string text => if text = [] then fallback else text
  | _ => fallback

def replacements : List (UInt16 × JsString) :=
  [(unit '&', js "&amp;"), (unit '<', js "&lt;"), (unit '>', js "&gt;"), (unit '"', js "&quot;")]

def replaceSpecials (text : JsString) : JsString :=
  replaceAll (unit '"') (js "&quot;") (replaceAll (unit '>') (js "&gt;")
    (replaceAll (unit '<') (js "&lt;") (replaceAll (unit '&') (js "&amp;") text)))

def escapeHtml : Field → JsString
  | .undefined => []
  | .null => []
  | .string text => replaceSpecials text

def IsRaw (c : UInt16) : Prop := c = unit '<' ∨ c = unit '>' ∨ c = unit '"'

instance (c : UInt16) : Decidable (IsRaw c) := by
  unfold IsRaw
  infer_instance

def isTrimmed (c : UInt16) : Bool :=
  c ∈ [0x9, 0xA, 0xB, 0xC, 0xD, 0x20, 0xA0, 0x1680, 0x2028, 0x2029, 0x202F, 0x205F, 0x3000, 0xFEFF] ∨
    (0x2000 ≤ c ∧ c ≤ 0x200A)

def trim (text : JsString) : JsString :=
  ((text.dropWhile isTrimmed).reverse.dropWhile isTrimmed).reverse

inductive UriError
  | uriMalformed
  deriving DecidableEq

/-- The code points of a string, or the error of a lone surrogate. -/
def codePoints : JsString → Except UriError (List ℕ)
  | [] => .ok []
  | [c] => if 0xD800 ≤ c ∧ c ≤ 0xDFFF then .error .uriMalformed else .ok [c.toNat]
  | c :: next :: rest =>
      if 0xDC00 ≤ c ∧ c ≤ 0xDFFF then .error .uriMalformed
      else if 0xD800 ≤ c ∧ c ≤ 0xDBFF then
        if 0xDC00 ≤ next ∧ next ≤ 0xDFFF then do
          let points ← codePoints rest
          return (0x10000 + (c.toNat - 0xD800) * 0x400 + (next.toNat - 0xDC00)) :: points
        else .error .uriMalformed
      else do
        let points ← codePoints (next :: rest)
        return c.toNat :: points

def utf8 (point : ℕ) : List ℕ :=
  if point < 0x80 then [point]
  else if point < 0x800 then [0xC0 + point / 0x40, 0x80 + point % 0x40]
  else if point < 0x10000 then
    [0xE0 + point / 0x1000, 0x80 + point / 0x40 % 0x40, 0x80 + point % 0x40]
  else
    [0xF0 + point / 0x40000, 0x80 + point / 0x1000 % 0x40, 0x80 + point / 0x40 % 0x40,
      0x80 + point % 0x40]

def hexDigits : List Char := "0123456789ABCDEF".toList

def hexDigit (n : ℕ) : UInt16 := unit (hexDigits.getD n '0')

def percentByte (byte : ℕ) : JsString := [unit '%', hexDigit (byte / 16), hexDigit (byte % 16)]

def uriUnreserved : List Char :=
  "ABCDEFGHIJKLMNOPQRSTUVWXYZabcdefghijklmnopqrstuvwxyz0123456789-_.!~*'()".toList

def encodePoint (point : ℕ) : JsString :=
  if point ∈ uriUnreserved.map Char.toNat then [point.toUInt16]
  else (utf8 point).flatMap percentByte

def encodeURIComponent (text : JsString) : Except UriError JsString := do
  let points ← codePoints text
  return points.flatMap encodePoint

/-- The HTML of a builder, with the values told apart from the builder's literals. -/
abbrev Html := List (Piece UInt16)

def lit (literal : String) : Html := [.own (js literal)]

def put (text : JsString) : Html := [.value text]

def featureBoolToEmoji : Option Bool → JsString
  | some true => js "✅"
  | some false => js "❌"
  | none => js "—"

structure Route where
  routeId : Field
  shortName : Field
  longName : Field

structure StopFeatures where
  wheelchairAccessible : Option Bool
  shelterActive : Option Bool
  rtpiActive : Option Bool

structure DetailStop where
  id : Field
  code : Field
  name : Field

structure Detail where
  stop : DetailStop
  routes : Option (List Route)
  stopFeatures : Option StopFeatures
  streetViewUrl : Field

def directionText : ApiContracts.Direction → JsString
  | .outbound => js "OUTBOUND"
  | .inbound => js "INBOUND"

def stopTitle (code name : Field) : JsString :=
  trim (code.or [] ++ js " - " ++ name.toString)

def routeLink (dir : JsString) (r : Route) : Html :=
  lit "<a href=\"/realtime/route/" ++ put (escapeHtml r.routeId) ++ lit "/" ++ put dir ++
    lit "\">" ++ put (escapeHtml r.shortName) ++ lit "</a> — " ++ put (escapeHtml r.longName)

def buildPopupHtmlFromDetailed (detail : Detail)
    (directionForRouteLinks : Option ApiContracts.Direction) : Html :=
  let stop := detail.stop
  let title := stopTitle stop.code stop.name
  let routes := detail.routes.getD []
  let dir := (directionForRouteLinks.map directionText).getD (js "OUTBOUND")
  let routesHtml := List.intercalate (lit "<br>") (routes.map (routeLink dir))
  let featuresHtml : Html := match detail.stopFeatures with
    | some sf =>
        lit "<p class=\"map-popup-block map-popup-muted\">Wheelchair accessible: " ++
          put (featureBoolToEmoji sf.wheelchairAccessible) ++ lit "<br>" ++
          lit "Bus shelter: " ++ put (featureBoolToEmoji sf.shelterActive) ++ lit "<br>" ++
          lit "Realtime display: " ++ put (featureBoolToEmoji sf.rtpiActive) ++ lit "</p>"
    | none => []
  let streetUrl := detail.streetViewUrl.or []
  let streetBlock : Html :=
    if streetUrl ≠ [] then
      lit "<p class=\"map-popup-block\"><a class=\"map-popup-link\" href=\"" ++
        put (escapeHtml (.string streetUrl)) ++
        lit "\" target=\"_blank\" rel=\"noopener noreferrer\">Street view</a></p>"
    else []
  lit "<div class=\"map-popup-inner\">" ++
    lit "<h4 class=\"map-popup-title\"><a href=\"/realtime/stop/" ++ put (escapeHtml stop.id) ++
    lit "\">" ++ put (escapeHtml (.string title)) ++ lit "</a></h4>" ++
    streetBlock ++ featuresHtml ++
    lit "<p class=\"map-popup-block map-popup-routes-head\"><strong>" ++
    put (js (toString routes.length)) ++ lit " Routes</strong></p>" ++
    lit "<p class=\"map-popup-routes\">" ++ routesHtml ++ lit "</p>" ++ lit "</div>"

structure MapStop where
  stopId : Field
  code : Field
  name : Field

def buildLoadingPopupHtml (stop : MapStop) : Html :=
  let title := stopTitle stop.code stop.name
  lit "<div class=\"map-popup-inner\">" ++
    lit "<h4 class=\"map-popup-title\"><a href=\"/realtime/stop/" ++ put (escapeHtml stop.stopId) ++
    lit "\">" ++ put (escapeHtml (.string title)) ++ lit "</a></h4>" ++
    lit "<p class=\"map-popup-muted\">Loading routes…</p>" ++ lit "</div>"

def buildErrorPopupHtml (stop : MapStop) : Html :=
  let title := stopTitle stop.code stop.name
  lit "<div class=\"map-popup-inner\">" ++
    lit "<h4 class=\"map-popup-title\"><a href=\"/realtime/stop/" ++ put (escapeHtml stop.stopId) ++
    lit "\">" ++ put (escapeHtml (.string title)) ++ lit "</a></h4>" ++
    lit "<p class=\"map-popup-muted\">Could not load stop details.</p>" ++ lit "</div>"

def buildStopTooltipHtml (stop : MapStop) : Html :=
  let title := stopTitle stop.code stop.name
  lit "<div class=\"map-stop-tooltip-inner\">" ++ put (escapeHtml (.string title)) ++ lit "</div>"

structure VehicleProps where
  routeShortName : Field
  routeId : Field
  agencyName : Field
  mapDirection : Field
  timeOfUpdate : Field

/-- What the browser brings: the milliseconds of a date string, the text of an instant in its
locale, and the clock. -/
structure Browser where
  dateTime : JsString → Option ℤ
  toLocaleString : ℤ → JsString
  now : ℤ

def formatRelativeFromIso (browser : Browser) (iso : JsString) : JsString :=
  if iso = [] then []
  else match browser.dateTime iso with
    | none => []
    | some t =>
        let mins := (browser.now - t) / 60000
        if mins < 1 then js "Less than a minute ago"
        else if mins = 1 then js "1 min ago"
        else js (toString mins) ++ js " mins ago"

def buildVehiclePopupHtml (browser : Browser) (props : VehicleProps) : Except UriError Html := do
  let routeLabel := props.routeShortName.or (props.routeId.or [])
  let agency := props.agencyName.or []
  let dir := match props.mapDirection with
    | .string text => text
    | _ => js "OUTBOUND"
  let route ← encodeURIComponent props.routeId.toString
  let direction ← encodeURIComponent dir
  let routeHref := lit "/realtime/route/" ++ put route ++ lit "/" ++ put direction
  let joined := List.intercalate (js " - ") ([routeLabel, agency].filter (fun t => t ≠ []))
  let titleText := if joined = [] then js "Vehicle" else joined
  let titleInner : Html :=
    if props.routeId.or [] ≠ [] then
      lit "<a class=\"map-popup-link map-popup-vehicle-head-link\" href=\"" ++ routeHref ++
        lit "\">" ++ put (escapeHtml (.string titleText)) ++ lit "</a>"
    else put (escapeHtml (.string titleText))
  let iso := props.timeOfUpdate.or []
  let lastUpdatedLine : Html :=
    if iso ≠ [] then
      let localText := match browser.dateTime iso with
        | some t => browser.toLocaleString t
        | none => iso
      let rel := formatRelativeFromIso browser iso
      lit "<p class=\"map-popup-block map-popup-muted\">Last updated: " ++
        put (escapeHtml (.string localText)) ++ lit "<br>" ++ put (escapeHtml (.string rel)) ++
        lit "</p>"
    else []
  return lit "<div class=\"map-popup-inner map-popup-inner--vehicle\">" ++
    lit "<h4 class=\"map-popup-vehicle-head\">" ++ titleInner ++ lit "</h4>" ++
    lastUpdatedLine ++ lit "</div>"

section Escape

theorem not_raw_of_all {text : JsString} (h : text.all (fun c => ¬ IsRaw c) = true) :
    ∀ c ∈ text, ¬ IsRaw c := by
  intro c hc
  exact of_decide_eq_true (List.all_eq_true.1 h c hc)

theorem replacements_readable : Readable replacements where
  starts := by decide
  prefix_free := by decide

theorem escapeHtml_eq_encode (text : JsString) :
    escapeHtml (.string text) = encode replacements text := by
  have hlater : replacements.Pairwise (fun earlier later => later.1 ∉ earlier.2) := by decide
  exact replaceEach_eq_encode hlater text

theorem decode_escapeHtml (text : JsString) :
    decode replacements (escapeHtml (.string text)) = text := by
  rw [escapeHtml_eq_encode]
  exact decode_encode replacements_readable text

theorem escapeHtml_injective :
    Function.Injective (fun text : JsString => escapeHtml (.string text)) :=
  Function.LeftInverse.injective decode_escapeHtml

theorem escapeHtml_not_raw (value : Field) : ∀ c ∈ escapeHtml value, ¬ IsRaw c := by
  intro c hc hraw
  cases value with
  | undefined => exact absurd hc List.not_mem_nil
  | null => exact absurd hc List.not_mem_nil
  | string text =>
      rw [escapeHtml_eq_encode] at hc
      rcases hraw with rfl | rfl | rfl
      · exact not_mem_encode (by decide) (by decide) text hc
      · exact not_mem_encode (by decide) (by decide) text hc
      · exact not_mem_encode (by decide) (by decide) text hc

end Escape

section Components

theorem percentByte_not_raw (byte : ℕ) : ∀ c ∈ percentByte byte, ¬ IsRaw c := by
  have hdigit : ∀ n, ¬ IsRaw (hexDigit n) := by
    intro n
    by_cases hn : n < 16
    · have h : ∀ n < 16, ¬ IsRaw (hexDigit n) := by decide
      exact h n hn
    · have hzero : hexDigit n = unit '0' := by
        have hlength : hexDigits.length ≤ n := not_lt.1 hn
        rw [hexDigit, List.getD_eq_getElem?_getD, List.getElem?_eq_none hlength]
        rfl
      rw [hzero]
      decide
  intro c hc
  simp only [percentByte, List.mem_cons, List.not_mem_nil, or_false] at hc
  rcases hc with rfl | rfl | rfl
  · decide
  · exact hdigit _
  · exact hdigit _

theorem encodePoint_not_raw (point : ℕ) : ∀ c ∈ encodePoint point, ¬ IsRaw c := by
  intro c hc
  unfold encodePoint at hc
  by_cases hpoint : point ∈ uriUnreserved.map Char.toNat
  · rw [if_pos hpoint, List.mem_singleton] at hc
    have hall : ∀ n ∈ uriUnreserved.map Char.toNat, ¬ IsRaw n.toUInt16 := by decide
    rw [hc]
    exact hall point hpoint
  · rw [if_neg hpoint] at hc
    obtain ⟨byte, -, hbyte⟩ := List.mem_flatMap.1 hc
    exact percentByte_not_raw byte c hbyte

theorem toNat_toUInt16 {n : ℕ} (h : n < 0x10000) : n.toUInt16.toNat = n :=
  UInt16.toNat_ofNat_of_lt h

theorem codePoints_cons {c : UInt16} (hc : c < 0xD800 ∨ 0xDFFF < c) {rest : JsString}
    {points : List ℕ} (h : codePoints rest = .ok points) :
    codePoints (c :: rest) = .ok (c.toNat :: points) := by
  have hlone : ¬ (0xD800 ≤ c ∧ c ≤ 0xDFFF) := by
    simp only [UInt16.lt_iff_toNat_lt, UInt16.le_iff_toNat_le] at hc ⊢
    omega
  have hlow : ¬ (0xDC00 ≤ c ∧ c ≤ 0xDFFF) := by
    simp only [UInt16.lt_iff_toNat_lt, UInt16.le_iff_toNat_le, UInt16.reduceToNat] at hc ⊢
    omega
  have hhigh : ¬ (0xD800 ≤ c ∧ c ≤ 0xDBFF) := by
    simp only [UInt16.lt_iff_toNat_lt, UInt16.le_iff_toNat_le, UInt16.reduceToNat] at hc ⊢
    omega
  cases rest with
  | nil =>
      obtain rfl := Except.ok.inj h
      rw [codePoints, if_neg hlone]
  | cons next rest =>
      rw [codePoints, if_neg hlow, if_neg hhigh, h]
      rfl

theorem codePoints_pair {high low : UInt16} (hhigh : 0xD800 ≤ high ∧ high ≤ 0xDBFF)
    (hlow : 0xDC00 ≤ low ∧ low ≤ 0xDFFF) {rest : JsString} {points : List ℕ}
    (h : codePoints rest = .ok points) :
    codePoints (high :: low :: rest) =
      .ok ((0x10000 + (high.toNat - 0xD800) * 0x400 + (low.toNat - 0xDC00)) :: points) := by
  have hnot : ¬ (0xDC00 ≤ high ∧ high ≤ 0xDFFF) := by
    simp only [UInt16.le_iff_toNat_le, UInt16.reduceToNat] at hhigh ⊢
    omega
  rw [codePoints, if_neg hnot, if_pos hhigh, if_pos hlow, h]
  rfl

/-- A text of characters has no lone surrogate. -/
theorem codePoints_js (literal : String) :
    codePoints (js literal) = .ok (literal.toList.map Char.toNat) := by
  unfold js
  induction literal.toList with
  | nil => rfl
  | cons c rest ih =>
      rw [List.flatMap_cons, List.map_cons]
      have hvalid : c.toNat < 0xD800 ∨ (0xDFFF < c.toNat ∧ c.toNat < 0x110000) := c.valid
      by_cases hc : c.toNat < 0x10000
      · have hunit : c.toNat.toUInt16.toNat = c.toNat := toNat_toUInt16 hc
        rw [charUnits, if_pos hc, List.singleton_append]
        have hplain : c.toNat.toUInt16 < 0xD800 ∨ 0xDFFF < c.toNat.toUInt16 := by
          simp only [UInt16.lt_iff_toNat_lt, hunit, UInt16.reduceToNat]
          omega
        rw [codePoints_cons hplain ih, hunit]
      · rw [charUnits, if_neg hc]
        have hhigh : (0xD800 + (c.toNat - 0x10000) / 0x400).toUInt16.toNat =
            0xD800 + (c.toNat - 0x10000) / 0x400 := toNat_toUInt16 (by omega)
        have hlow : (0xDC00 + (c.toNat - 0x10000) % 0x400).toUInt16.toNat =
            0xDC00 + (c.toNat - 0x10000) % 0x400 := toNat_toUInt16 (by omega)
        have hhighRange : 0xD800 ≤ (0xD800 + (c.toNat - 0x10000) / 0x400).toUInt16 ∧
            (0xD800 + (c.toNat - 0x10000) / 0x400).toUInt16 ≤ 0xDBFF := by
          simp only [UInt16.le_iff_toNat_le, hhigh, UInt16.reduceToNat]
          omega
        have hlowRange : 0xDC00 ≤ (0xDC00 + (c.toNat - 0x10000) % 0x400).toUInt16 ∧
            (0xDC00 + (c.toNat - 0x10000) % 0x400).toUInt16 ≤ 0xDFFF := by
          simp only [UInt16.le_iff_toNat_le, hlow, UInt16.reduceToNat]
          omega
        have hpair := codePoints_pair hhighRange hlowRange ih
        rw [hhigh, hlow] at hpair
        have hpoint : 0x10000 + (0xD800 + (c.toNat - 0x10000) / 0x400 - 0xD800) * 0x400 +
            (0xDC00 + (c.toNat - 0x10000) % 0x400 - 0xDC00) = c.toNat := by omega
        rw [hpoint] at hpair
        exact hpair

theorem encodeURIComponent_not_raw {text component : JsString}
    (h : encodeURIComponent text = .ok component) : ∀ c ∈ component, ¬ IsRaw c := by
  unfold encodeURIComponent at h
  cases hpoints : codePoints text with
  | error e =>
      rw [hpoints] at h
      cases h
  | ok points =>
      rw [hpoints] at h
      obtain rfl := Except.ok.inj h
      intro c hc
      obtain ⟨point, -, hpoint⟩ := List.mem_flatMap.1 hc
      exact encodePoint_not_raw point c hpoint

theorem repr_not_raw (n : ℕ) : ∀ c ∈ js n.repr, ¬ IsRaw c := by
  intro c hc
  obtain ⟨d, hd, hunits⟩ := List.mem_flatMap.1 hc
  have hdigit : d.isDigit = true := by
    rw [Nat.toList_repr] at hd
    exact Nat.isDigit_of_mem_toDigits (by decide) (by decide) hd
  have hrange : 48 ≤ d.toNat ∧ d.toNat < 58 := by
    simp only [Char.isDigit, Bool.and_eq_true, decide_eq_true_eq, UInt32.le_iff_toNat_le] at hdigit
    exact ⟨hdigit.1, Nat.lt_succ_of_le hdigit.2⟩
  have hsmall : d.toNat < 0x10000 := by omega
  rw [charUnits, if_pos hsmall, List.mem_singleton] at hunits
  have hall : ∀ n < 58, 48 ≤ n → ¬ IsRaw n.toUInt16 := by decide
  rw [hunits]
  exact hall d.toNat hrange.2 hrange.1

end Components

section Builders

@[simp] theorem cleanOf_lit (literal : String) : CleanOf IsRaw (lit literal) := by
  simp [lit]

theorem cleanOf_put {text : JsString} (h : ∀ c ∈ text, ¬ IsRaw c) : CleanOf IsRaw (put text) := by
  simpa [put] using h

@[simp] theorem cleanOf_escapeHtml (value : Field) : CleanOf IsRaw (put (escapeHtml value)) :=
  cleanOf_put (escapeHtml_not_raw value)

@[simp] theorem cleanOf_emoji (value : Option Bool) :
    CleanOf IsRaw (put (featureBoolToEmoji value)) := by
  apply cleanOf_put
  apply not_raw_of_all
  rcases value with _ | _ | _ <;> decide

@[simp] theorem cleanOf_repr (n : ℕ) : CleanOf IsRaw (put (js n.repr)) :=
  cleanOf_put (repr_not_raw n)

theorem cleanOf_routeLink {dir : JsString} (hdir : ∀ c ∈ dir, ¬ IsRaw c) (r : Route) :
    CleanOf IsRaw (routeLink dir r) := by
  have hput := cleanOf_put hdir
  simp [routeLink, hput]

theorem direction_not_raw (direction : Option ApiContracts.Direction) :
    ∀ c ∈ (direction.map directionText).getD (js "OUTBOUND"), ¬ IsRaw c := by
  apply not_raw_of_all
  rcases direction with _ | _ | _ <;> decide

theorem cleanOf_popup (detail : Detail) (direction : Option ApiContracts.Direction) :
    CleanOf IsRaw (buildPopupHtmlFromDetailed detail direction) := by
  have hroutes : CleanOf IsRaw (List.intercalate (lit "<br>") ((detail.routes.getD []).map
      (routeLink ((direction.map directionText).getD (js "OUTBOUND"))))) := by
    apply cleanOf_intercalate (cleanOf_lit _)
    intro item hitem
    obtain ⟨r, -, rfl⟩ := List.mem_map.1 hitem
    exact cleanOf_routeLink (direction_not_raw direction) r
  unfold buildPopupHtmlFromDetailed
  cases detail.stopFeatures <;> by_cases hstreet : detail.streetViewUrl.or [] = [] <;>
    simp [hstreet, hroutes]

theorem cleanOf_loadingPopup (stop : MapStop) : CleanOf IsRaw (buildLoadingPopupHtml stop) := by
  simp [buildLoadingPopupHtml]

theorem cleanOf_errorPopup (stop : MapStop) : CleanOf IsRaw (buildErrorPopupHtml stop) := by
  simp [buildErrorPopupHtml]

theorem cleanOf_stopTooltip (stop : MapStop) : CleanOf IsRaw (buildStopTooltipHtml stop) := by
  simp [buildStopTooltipHtml]

theorem cleanOf_vehiclePopup {browser : Browser} {props : VehicleProps} {html : Html}
    (h : buildVehiclePopupHtml browser props = .ok html) : CleanOf IsRaw html := by
  obtain ⟨route, hroute, h⟩ := bind_eq_ok.1 h
  obtain ⟨direction, hdirection, h⟩ := bind_eq_ok.1 h
  have hrouteHref := cleanOf_put (encodeURIComponent_not_raw hroute)
  have hdirectionHref := cleanOf_put (encodeURIComponent_not_raw hdirection)
  obtain rfl := Except.ok.inj h
  by_cases hlink : props.routeId.or [] = [] <;> by_cases hiso : props.timeOfUpdate.or [] = [] <;>
    simp [hlink, hiso, hrouteHref, hdirectionHref]

end Builders

/-- A builder of vehicles returns: the API's strings are texts. -/
theorem buildVehiclePopupHtml_returns (browser : Browser) (props : VehicleProps)
    {route direction : String} (hroute : props.routeId.toString = js route)
    (hdirection : props.mapDirection = .string (js direction)) :
    ∃ html, buildVehiclePopupHtml browser props = .ok html := by
  have hcomponent : ∀ text : String, encodeURIComponent (js text) =
      .ok ((text.toList.map Char.toNat).flatMap encodePoint) := by
    intro text
    rw [encodeURIComponent, codePoints_js]
    rfl
  unfold buildVehiclePopupHtml
  rw [hroute, hdirection]
  simp only [hcomponent]
  exact ⟨_, rfl⟩

/-- The characters that open or close a tag or an attribute are in the builder's literals: no value
has one, so those of the whole text are those of the literals. -/
structure OwnMarkup (html : Html) : Prop where
  clean : CleanOf IsRaw html
  raw_eq : (render html).filter IsRaw = (ownParts html).filter IsRaw

theorem ownMarkup_of_clean {html : Html} (h : CleanOf IsRaw html) : OwnMarkup html :=
  ⟨h, filter_render h⟩

/-- Escaping is the one pass, leaves no raw character and can be undone, and the markup of every
popup is that of its builder. -/
theorem popup_markup_own :
    (∀ text : JsString, escapeHtml (.string text) = encode replacements text ∧
      (∀ c ∈ escapeHtml (.string text), ¬ IsRaw c) ∧
      decode replacements (escapeHtml (.string text)) = text) ∧
    Function.Injective (fun text : JsString => escapeHtml (.string text)) ∧
    (∀ detail direction, OwnMarkup (buildPopupHtmlFromDetailed detail direction)) ∧
    (∀ stop, OwnMarkup (buildLoadingPopupHtml stop) ∧ OwnMarkup (buildErrorPopupHtml stop) ∧
      OwnMarkup (buildStopTooltipHtml stop)) ∧
    (∀ browser props html, buildVehiclePopupHtml browser props = .ok html → OwnMarkup html) := by
  refine ⟨?_, escapeHtml_injective, ?_, ?_, ?_⟩
  · intro text
    exact ⟨escapeHtml_eq_encode text, escapeHtml_not_raw _, decode_escapeHtml text⟩
  · intro detail direction
    exact ownMarkup_of_clean (cleanOf_popup detail direction)
  · intro stop
    exact ⟨ownMarkup_of_clean (cleanOf_loadingPopup stop),
      ownMarkup_of_clean (cleanOf_errorPopup stop), ownMarkup_of_clean (cleanOf_stopTooltip stop)⟩
  · intro browser props html h
    exact ownMarkup_of_clean (cleanOf_vehiclePopup h)

theorem popup_markup_own_route_46A :
    ∃ html, buildVehiclePopupHtml ⟨fun _ => some 0, fun _ => js "1 Jan 1970 \"UTC\"", 60000⟩
        ⟨.string (js "46A<b>"), .string (js "46/A"), .null, .string (js "INBOUND"),
          .string (js "1970")⟩ = .ok html ∧ OwnMarkup html := by
  obtain ⟨html, h⟩ := buildVehiclePopupHtml_returns
    ⟨fun _ => some 0, fun _ => js "1 Jan 1970 \"UTC\"", 60000⟩
    ⟨.string (js "46A<b>"), .string (js "46/A"), .null, .string (js "INBOUND"),
      .string (js "1970")⟩ rfl rfl
  exact ⟨html, h, popup_markup_own.2.2.2.2 _ _ _ h⟩

end SimplyTransport.StopMapPopup
