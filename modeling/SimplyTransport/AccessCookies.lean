import SimplyTransport.BearerTokens
import SimplyTransport.JsonText
import SimplyTransport.SeparatedText
import Mathlib.Data.List.TakeWhile
import Mathlib.Data.Rat.Defs

/-!
# The cookies of the site

A response writes the access cookie, hidden from scripts, and beside it the time at which an open
page should ask for another one. The browser stores the two by the parsing rules of cookies, and the
script of a page reads the time back from `document.cookie`. Of the attributes of a cookie the
lifetime and `HttpOnly` are stored: path, `SameSite` and `Secure` do not tell the requests of the
site apart.
-/

namespace SimplyTransport.Auth

open JsonText (writeInt)
open SeparatedText

def renewAtCookieName : List Char := "st_access_renew_at".toList

def isCookieChar (c : Char) : Bool := c ≠ ';' && c ≠ '=' && c ≠ ' ' && c ≠ '\t'

structure AppSettings where
  ttl : TokenTtl
  apiTokenCookieName : List Char
  environment : String
  name_chars : apiTokenCookieName.all isCookieChar = true
  name_ne : apiTokenCookieName ≠ renewAtCookieName

/-- `int(now.timestamp())`, in the years in which a double has the microseconds of a timestamp. -/
def timestampSeconds (now : DateTime) : ℤ := (now.micros - 719163 * dayMicros).tdiv 1000000

section Headers

variable (settings : AppSettings)

def cookieAttributes (httponly : Bool) : List (List Char) :=
  let parts := ["Path=/".toList, "SameSite=Lax".toList,
    "Max-Age=".toList ++ writeInt settings.ttl.seconds]
  let parts := if httponly then "HttpOnly".toList :: parts else parts
  if settings.environment = "PROD" then parts ++ ["Secure".toList] else parts

def headerValue (name value : List Char) (httponly : Bool) : List Char :=
  "; ".toList.intercalate ((name ++ '=' :: value) :: cookieAttributes settings httponly)

def cookieHeaderValue (encodedToken : List Char) : List Char :=
  headerValue settings settings.apiTokenCookieName encodedToken true

def renewAt (now : DateTime) : ℤ := timestampSeconds now + (settings.ttl.seconds / 2 : ℕ)

def renewAtCookieHeaderValue (now : DateTime) : List Char :=
  headerValue settings renewAtCookieName (writeInt (renewAt settings now)) false

def appendSetCookie (encodedToken : List Char) (now : DateTime) : List (List Char) :=
  [cookieHeaderValue settings encodedToken, renewAtCookieHeaderValue settings now]

end Headers

structure StoredCookie where
  name : List Char
  value : List Char
  expiry : Option DateTime
  httpOnly : Bool
  name_clean : ';' ∉ name ∧ '=' ∉ name
  value_clean : ';' ∉ value

section Parser

def isBlank (c : Char) : Bool := c = ' ' || c = '\t'

def trim (text : List Char) : List Char :=
  ((text.dropWhile isBlank).reverse.dropWhile isBlank).reverse

theorem mem_of_mem_trim {c : Char} {text : List Char} (h : c ∈ trim text) : c ∈ text := by
  have hrest := (List.dropWhile_sublist isBlank).subset (List.mem_reverse.1 h)
  exact (List.dropWhile_sublist isBlank).subset (List.mem_reverse.1 hrest)

def digitsValue (digits : List Char) : Option ℤ :=
  if digits.all Char.isDigit then some (Nat.ofDigitChars 10 digits 0 : ℤ) else none

/-- The seconds of `Max-Age`, where the value starts with a digit or a minus and goes on in
digits. -/
def maxAge (value : List Char) : Option ℤ :=
  match value with
  | [] => none
  | '-' :: digits => (digitsValue digits).map (fun seconds => -seconds)
  | c :: digits => digitsValue (c :: digits)

structure Attributes where
  maxAge : Option ℤ
  httpOnly : Bool

/-- The last of several attributes of one name counts. -/
def readAttribute (attributes : Attributes) (av : List Char) : Attributes :=
  let name := (trim (partition '=' av).1).map Char.toLower
  if name = "max-age".toList then
    { attributes with maxAge := (maxAge (trim (partition '=' av).2)).or attributes.maxAge }
  else if name = "httponly".toList then { attributes with httpOnly := true }
  else attributes

theorem not_mem_partition_fst (separator : Char) (text : List Char) :
    separator ∉ (partition separator text).1 := by
  intro h
  simpa using List.mem_takeWhile_imp h

theorem partition_fst_subset {c separator : Char} {text : List Char}
    (h : c ∈ (partition separator text).1) : c ∈ text :=
  List.takeWhile_subset _ h

theorem partition_snd_subset {c separator : Char} {text : List Char}
    (h : c ∈ (partition separator text).2) : c ∈ text :=
  (List.dropWhile_sublist _).subset (List.mem_of_mem_drop h)

theorem name_clean_of_pair (header : List Char) :
    ';' ∉ trim (partition '=' (partition ';' header).1).1 ∧
      '=' ∉ trim (partition '=' (partition ';' header).1).1 := by
  constructor
  · intro h
    exact not_mem_partition_fst ';' header (partition_fst_subset (mem_of_mem_trim h))
  · intro h
    exact not_mem_partition_fst '=' _ (mem_of_mem_trim h)

theorem value_clean_of_pair (header : List Char) :
    ';' ∉ trim (partition '=' (partition ';' header).1).2 := by
  intro h
  exact not_mem_partition_fst ';' header (partition_snd_subset (mem_of_mem_trim h))

/-- A browser keeps no cookie for longer than `limit` seconds. -/
def parseSetCookie (limit : ℕ) (now : DateTime) (header : List Char) : Option StoredCookie :=
  if '=' ∉ (partition ';' header).1 then none
  else
    let attributes := (split [';'] (partition ';' header).2).foldl readAttribute ⟨none, false⟩
    some {
      name := trim (partition '=' (partition ';' header).1).1
      value := trim (partition '=' (partition ';' header).1).2
      expiry := attributes.maxAge.map (fun seconds => now.addSeconds (min seconds limit))
      httpOnly := attributes.httpOnly
      name_clean := name_clean_of_pair header
      value_clean := value_clean_of_pair header }

end Parser

section Jar

def StoredCookie.live (now : DateTime) (c : StoredCookie) : Bool :=
  c.expiry.all (fun expiry => now < expiry)

/-- A cookie takes the place of the one of its name. Expired cookies are evicted. -/
def storeCookie (now : DateTime) (jar : List StoredCookie) (c : StoredCookie) :
    List StoredCookie :=
  let kept := jar.filter (StoredCookie.live now)
  if kept.any (fun old => old.name = c.name) then
    kept.map (fun old => if old.name = c.name then c else old)
  else kept ++ [c]

def receiveSetCookie (limit : ℕ) (now : DateTime) (jar : List StoredCookie) (header : List Char) :
    List StoredCookie :=
  match parseSetCookie limit now header with
  | none => jar
  | some c => storeCookie now jar c

variable (now : DateTime) (jar : List StoredCookie)

def sentCookie (name : List Char) : Option (List Char) :=
  (jar.find? (fun c => c.live now && c.name = name)).map StoredCookie.value

def StoredCookie.visible (c : StoredCookie) : Bool := c.live now && !c.httpOnly

def StoredCookie.text (c : StoredCookie) : List Char := c.name ++ '=' :: c.value

def documentCookie : List Char :=
  "; ".toList.intercalate ((jar.filter (StoredCookie.visible now)).map StoredCookie.text)

/-- `Number(text)`, where `none` stands for `NaN`. Digits are read exactly where a double has their
value. -/
structure NumberReader where
  number : List Char → Option ℚ
  number_int : ∀ n : ℤ, n.natAbs ≤ 2 ^ 53 → number (writeInt n) = some (n : ℚ)

def renewAtSeconds (reader : NumberReader) (documentCookie : List Char) : Option (Option ℚ) :=
  let parts := if documentCookie ≠ [] then split "; ".toList documentCookie else []
  (parts.find? (fun part => (renewAtCookieName ++ ['=']).isPrefixOf part)).map
    (fun part => reader.number (part.drop (renewAtCookieName.length + 1)))

end Jar

section Parsing

theorem isCookieChar_iff {c : Char} : isCookieChar c = true ↔
    c ≠ ';' ∧ c ≠ '=' ∧ isBlank c = false := by
  simp [isCookieChar, isBlank, and_assoc]

theorem dropWhile_blank_eq_self {text : List Char} (h : ∀ c ∈ text, isBlank c = false) :
    text.dropWhile isBlank = text := by
  cases text with
  | nil => rfl
  | cons c rest => rw [List.dropWhile_cons_of_neg (by rw [h c List.mem_cons_self]; decide)]

theorem trim_eq_self {text : List Char} (h : ∀ c ∈ text, isBlank c = false) : trim text = text := by
  rw [trim, dropWhile_blank_eq_self h, dropWhile_blank_eq_self (fun c hc => h c (List.mem_reverse.1 hc)),
    List.reverse_reverse]

theorem partition_append {separator : Char} {before : List Char} (h : separator ∉ before)
    (rest : List Char) : partition separator (before ++ separator :: rest) = (before, rest) := by
  have hbefore : ∀ c ∈ before, decide (c ≠ separator) = true := by
    intro c hc
    apply decide_eq_true
    rintro rfl
    exact h hc
  unfold partition
  rw [List.takeWhile_append_of_pos hbefore, List.dropWhile_append_of_pos hbefore,
    List.takeWhile_cons_of_neg (by simp), List.dropWhile_cons_of_neg (by simp), List.append_nil]
  rfl

theorem writeInt_natCast (n : ℕ) : writeInt n = Nat.toDigits 10 n := by
  rw [writeInt, if_neg (by omega), Int.natAbs_natCast]

theorem digitsValue_toDigits (n : ℕ) : digitsValue (Nat.toDigits 10 n) = some (n : ℤ) := by
  have hall : (Nat.toDigits 10 n).all Char.isDigit = true :=
    List.all_eq_true.2 (JsonText.isDigit_toDigits n)
  rw [digitsValue, if_pos hall, Nat.ofDigitChars_ten_toDigits]

theorem maxAge_of_isDigit {c : Char} {digits : List Char} (h : c.isDigit = true) :
    maxAge (c :: digits) = digitsValue (c :: digits) := by
  have hminus : c ≠ '-' := by
    rintro rfl
    exact absurd h (by decide)
  unfold maxAge
  split
  · rename_i hnil
    cases hnil
  · rename_i hcons
    exact absurd (List.cons.inj hcons).1 hminus
  · rename_i hcons
    rw [hcons]

theorem maxAge_writeInt (n : ℤ) : maxAge (writeInt n) = some n := by
  unfold writeInt
  split_ifs with hneg
  · rw [maxAge, digitsValue_toDigits, Option.map_some]
    congr 1
    omega
  · obtain ⟨c, digits, hdigits, hc⟩ := JsonText.toDigits_cons n.natAbs
    rw [hdigits, maxAge_of_isDigit hc, ← hdigits, digitsValue_toDigits]
    congr 1
    omega

/-- After the pair, the attributes of a header have a blank each. -/
theorem split_attributes {attributes : List (List Char)} (h : ∀ av ∈ attributes, ';' ∉ av)
    (hne : attributes ≠ []) :
    split [';'] (' ' :: "; ".toList.intercalate attributes) =
      attributes.map (fun av => ' ' :: av) := by
  have hjoin : ' ' :: "; ".toList.intercalate attributes =
      [';'].intercalate (attributes.map (fun av => ' ' :: av)) := by
    induction attributes with
    | nil => exact absurd rfl hne
    | cons av rest ih =>
        cases rest with
        | nil => rfl
        | cons next rest =>
            have hrest := ih (fun a ha => h a (List.mem_cons_of_mem _ ha)) (List.cons_ne_nil _ _)
            rw [List.map_cons] at hrest
            rw [List.map_cons, List.map_cons, List.intercalate_cons_cons,
              List.intercalate_cons_cons, ← hrest]
            simp
  rw [hjoin]
  apply split_intercalate
  · intro part hpart
    obtain ⟨av, hav, rfl⟩ := List.mem_map.1 hpart
    simp [h av hav]
  · simpa using hne

variable {settings : AppSettings}

theorem cookieAttributes_clean (settings : AppSettings) (httponly : Bool) :
    ∀ av ∈ cookieAttributes settings httponly, ';' ∉ av := by
  have hmaxAge : ';' ∉ "Max-Age=".toList ++ writeInt settings.ttl.seconds := by
    rw [writeInt_natCast, List.mem_append, not_or]
    refine ⟨by decide, fun h => ?_⟩
    have hdigit := JsonText.isDigit_toDigits _ _ h
    exact absurd hdigit (by decide)
  have hparts : ∀ av ∈ ["HttpOnly".toList, "Path=/".toList, "SameSite=Lax".toList,
      "Max-Age=".toList ++ writeInt settings.ttl.seconds, "Secure".toList], ';' ∉ av := by
    intro av hav
    simp only [List.mem_cons, List.not_mem_nil, or_false] at hav
    rcases hav with rfl | rfl | rfl | rfl | rfl
    · decide
    · decide
    · decide
    · exact hmaxAge
    · decide
  intro av hav
  apply hparts av
  unfold cookieAttributes at hav
  split_ifs at hav <;> simp at hav ⊢ <;> tauto

theorem cookieAttributes_ne_nil (settings : AppSettings) (httponly : Bool) :
    cookieAttributes settings httponly ≠ [] := by
  unfold cookieAttributes
  split_ifs <;> exact List.cons_ne_nil _ _

theorem isBlank_of_isDigit {c : Char} (h : c.isDigit = true) : isBlank c = false := by
  cases hblank : isBlank c with
  | false => rfl
  | true =>
      rw [isBlank, Bool.or_eq_true, decide_eq_true_eq, decide_eq_true_eq] at hblank
      rcases hblank with rfl | rfl
      · exact absurd h (by decide)
      · exact absurd h (by decide)

theorem trim_writeInt (n : ℕ) : trim (writeInt n) = writeInt n := by
  rw [writeInt_natCast]
  exact trim_eq_self (fun c hc => isBlank_of_isDigit (JsonText.isDigit_toDigits n c hc))

theorem readAttribute_of_maxAge {av : List Char} (attributes : Attributes)
    (h : (trim (partition '=' av).1).map Char.toLower = "max-age".toList) :
    readAttribute attributes av =
      { attributes with maxAge := (maxAge (trim (partition '=' av).2)).or attributes.maxAge } :=
  if_pos h

theorem readAttribute_maxAge (attributes : Attributes) (n : ℕ) :
    readAttribute attributes (' ' :: ("Max-Age=".toList ++ writeInt n)) =
      { attributes with maxAge := some (n : ℤ) } := by
  have hbefore : '=' ∉ " Max-Age".toList := by decide
  have htext : ' ' :: ("Max-Age=".toList ++ writeInt n) =
      " Max-Age".toList ++ '=' :: writeInt n := by simp
  have hpart : partition '=' (' ' :: ("Max-Age=".toList ++ writeInt n)) =
      (" Max-Age".toList, writeInt n) := by rw [htext, partition_append hbefore]
  have hname : (trim (partition '=' (' ' :: ("Max-Age=".toList ++ writeInt n))).1).map
      Char.toLower = "max-age".toList := by
    have hlower : (trim " Max-Age".toList).map Char.toLower = "max-age".toList := by decide
    rw [hpart]
    exact hlower
  rw [readAttribute_of_maxAge attributes hname, hpart, trim_writeInt, maxAge_writeInt,
    Option.some_or]

theorem foldl_maxAge (before : List (List Char)) {after : List (List Char)}
    (hafter : ∀ av ∈ after, ∀ a, readAttribute a (' ' :: av) = a) (n : ℕ) (a : Attributes) :
    ((before ++ ("Max-Age=".toList ++ writeInt n) :: after).map (fun av => ' ' :: av)).foldl
        readAttribute a =
      { (before.map (fun av => ' ' :: av)).foldl readAttribute a with maxAge := some (n : ℤ) } := by
  have hrest : ∀ a, (after.map (fun av => ' ' :: av)).foldl readAttribute a = a := by
    intro a
    induction after with
    | nil => rfl
    | cons av after ih =>
        rw [List.map_cons, List.foldl_cons, hafter av List.mem_cons_self]
        exact ih (fun av' hav' => hafter av' (List.mem_cons_of_mem _ hav'))
  rw [List.map_append, List.foldl_append, List.map_cons, List.foldl_cons, readAttribute_maxAge,
    hrest]

theorem foldl_cookieAttributes (settings : AppSettings) (httponly : Bool) :
    ((cookieAttributes settings httponly).map (fun av => ' ' :: av)).foldl readAttribute
      ⟨none, false⟩ = ⟨some (settings.ttl.seconds : ℤ), httponly⟩ := by
  have hsecure : ∀ av ∈ ["Secure".toList], ∀ a, readAttribute a (' ' :: av) = a := by
    intro av hav a
    obtain rfl := List.mem_singleton.1 hav
    rfl
  have hnone : ∀ av ∈ ([] : List (List Char)), ∀ a, readAttribute a (' ' :: av) = a :=
    fun av hav => absurd hav List.not_mem_nil
  unfold cookieAttributes
  by_cases hprod : settings.environment = "PROD"
  · cases httponly with
    | true =>
        rw [if_pos hprod]
        exact foldl_maxAge ["HttpOnly".toList, "Path=/".toList, "SameSite=Lax".toList] hsecure _ _
    | false =>
        rw [if_pos hprod]
        exact foldl_maxAge ["Path=/".toList, "SameSite=Lax".toList] hsecure _ _
  · cases httponly with
    | true =>
        rw [if_neg hprod]
        exact foldl_maxAge ["HttpOnly".toList, "Path=/".toList, "SameSite=Lax".toList] hnone _ _
    | false =>
        rw [if_neg hprod]
        exact foldl_maxAge ["Path=/".toList, "SameSite=Lax".toList] hnone _ _

/-- What a browser keeps of a header of the site. -/
theorem parseSetCookie_headerValue (settings : AppSettings) (limit : ℕ) (now : DateTime)
    {name value : List Char} (hname : name.all isCookieChar = true)
    (hvalue : value.all isCookieChar = true) (httponly : Bool) :
    ∃ c, parseSetCookie limit now (headerValue settings name value httponly) = some c ∧
      c.name = name ∧ c.value = value ∧ c.httpOnly = httponly ∧
      c.expiry = some (now.addSeconds (min settings.ttl.seconds limit : ℕ)) := by
  have hclean : ∀ text, text.all isCookieChar = true →
      ';' ∉ text ∧ '=' ∉ text ∧ trim text = text := by
    intro text htext
    rw [List.all_eq_true] at htext
    refine ⟨fun h => ?_, fun h => ?_, ?_⟩
    · exact absurd (htext _ h) (by decide)
    · exact absurd (htext _ h) (by decide)
    · exact trim_eq_self (fun c hc => (isCookieChar_iff.1 (htext c hc)).2.2)
  obtain ⟨hsemi, heq, htrim⟩ := hclean name hname
  obtain ⟨hsemi', heq', htrim'⟩ := hclean value hvalue
  obtain ⟨av, rest, hav⟩ := List.exists_cons_of_ne_nil (cookieAttributes_ne_nil settings httponly)
  have hpair : partition ';' (headerValue settings name value httponly) =
      (name ++ '=' :: value, ' ' :: "; ".toList.intercalate (cookieAttributes settings httponly)) := by
    have hnot : ';' ∉ name ++ '=' :: value := by simp [hsemi, hsemi']
    rw [headerValue, hav, List.intercalate_cons_cons, ← hav, List.append_assoc]
    exact partition_append hnot _
  have hmem : '=' ∈ name ++ '=' :: value := by simp
  have hattributes : (split [';'] (' ' :: "; ".toList.intercalate
      (cookieAttributes settings httponly))).foldl readAttribute ⟨none, false⟩ =
        ⟨some (settings.ttl.seconds : ℤ), httponly⟩ := by
    rw [split_attributes (cookieAttributes_clean settings httponly)
      (cookieAttributes_ne_nil settings httponly), foldl_cookieAttributes]
  refine ⟨_, if_neg ?_, ?_, ?_, ?_, ?_⟩
  · rw [hpair]
    exact not_not.2 hmem
  · dsimp only
    rw [hpair, partition_append heq, htrim]
  · dsimp only
    rw [hpair, partition_append heq, htrim']
  · dsimp only
    rw [hpair, hattributes]
  · dsimp only
    rw [hpair, hattributes, Option.map_some, Nat.cast_min]

end Parsing

section Reading

variable {now later : DateTime} {jar : List StoredCookie} {c : StoredCookie}

theorem live_of_le (h : now ≤ later) (hlive : c.live later = true) : c.live now = true := by
  unfold StoredCookie.live at *
  cases hexpiry : c.expiry with
  | none => rfl
  | some expiry =>
      rw [hexpiry] at hlive
      exact decide_eq_true (h.trans_lt (of_decide_eq_true hlive))

/-- A lookup among the live cookies does not see what storing a cookie of another name does. -/
theorem find_storeCookie_of_ne (p : StoredCookie → Bool) (hlive : ∀ old, p old = true →
      old.live now = true) (hname : ∀ old, p old = true → old.name ≠ c.name) (hc : p c = false) :
    (storeCookie now jar c).find? p = jar.find? p := by
  have hkept : (jar.filter (StoredCookie.live now)).find? p = jar.find? p := by
    rw [List.find?_filter]
    congr 1
    funext old
    cases hp : p old with
    | false => simp
    | true => simp [hlive old hp]
  have hmap : ∀ kept : List StoredCookie,
      (kept.map (fun old => if old.name = c.name then c else old)).find? p = kept.find? p := by
    intro kept
    induction kept with
    | nil => rfl
    | cons old kept ih =>
        rw [List.map_cons, List.find?_cons, List.find?_cons, ih]
        by_cases hold : old.name = c.name
        · have hp : p old = false := by
            cases hp : p old with
            | false => rfl
            | true => exact absurd hold (hname old hp)
          rw [if_pos hold, hc, hp]
        · rw [if_neg hold]
  unfold storeCookie
  dsimp only
  split_ifs
  · rw [hmap, hkept]
  · rw [List.find?_append, hkept]
    simp [hc]

/-- Of the name of a cookie that is stored, it is the only one. -/
theorem eq_of_mem_storeCookie {old : StoredCookie} (h : old ∈ storeCookie now jar c)
    (hname : old.name = c.name) : old = c := by
  unfold storeCookie at h
  dsimp only at h
  split_ifs at h with hany
  · obtain ⟨kept, -, rfl⟩ := List.mem_map.1 h
    by_cases hkept : kept.name = c.name
    · rw [if_pos hkept]
    · rw [if_neg hkept] at hname
      exact absurd hname hkept
  · rcases List.mem_append.1 h with hmem | hmem
    · exact absurd (List.any_eq_true.2 ⟨old, hmem, decide_eq_true hname⟩) hany
    · exact List.mem_singleton.1 hmem

theorem mem_of_mem_storeCookie {old : StoredCookie} (h : old ∈ storeCookie now jar c)
    (hname : old.name ≠ c.name) : old ∈ jar := by
  unfold storeCookie at h
  dsimp only at h
  split_ifs at h with hany
  · obtain ⟨kept, hkept, rfl⟩ := List.mem_map.1 h
    by_cases hreplaced : kept.name = c.name
    · rw [if_pos hreplaced] at hname
      exact absurd rfl hname
    · rw [if_neg hreplaced]
      exact (List.mem_filter.1 hkept).1
  · rcases List.mem_append.1 h with hmem | hmem
    · exact (List.mem_filter.1 hmem).1
    · rw [List.mem_singleton.1 hmem] at hname
      exact absurd rfl hname

theorem mem_storeCookie (now : DateTime) (jar : List StoredCookie) (c : StoredCookie) :
    c ∈ storeCookie now jar c := by
  unfold storeCookie
  dsimp only
  split_ifs with hany
  · obtain ⟨old, hold, hname⟩ := List.any_eq_true.1 hany
    exact List.mem_map.2 ⟨old, hold, if_pos (of_decide_eq_true hname)⟩
  · exact List.mem_append_right _ (List.mem_singleton.2 rfl)

theorem find_storeCookie_self (p : StoredCookie → Bool) (hname : ∀ old, p old = true →
      old.name = c.name) : (storeCookie now jar c).find? p = if p c then some c else none := by
  by_cases hc : p c = true
  · rw [if_pos hc]
    cases hfind : (storeCookie now jar c).find? p with
    | none => exact absurd hc (List.find?_eq_none.1 hfind c (mem_storeCookie now jar c))
    | some old =>
        have hold := hname old (List.find?_some hfind)
        rw [eq_of_mem_storeCookie (List.mem_of_find?_eq_some hfind) hold]
  · rw [if_neg hc, List.find?_eq_none]
    intro old hold hp
    have heq := eq_of_mem_storeCookie hold (hname old hp)
    subst heq
    exact hc hp

theorem sentCookie_storeCookie_of_ne (hlater : now ≤ later) {name : List Char}
    (hname : c.name ≠ name) :
    sentCookie later (storeCookie now jar c) name = sentCookie later jar name := by
  rw [sentCookie, find_storeCookie_of_ne, sentCookie]
  · intro old hold
    rw [Bool.and_eq_true] at hold
    exact live_of_le hlater hold.1
  · intro old hold
    rw [Bool.and_eq_true, decide_eq_true_eq] at hold
    rw [hold.2]
    exact hname.symm
  · simp [hname]

theorem sentCookie_storeCookie_self (later : DateTime) (jar : List StoredCookie)
    (c : StoredCookie) : sentCookie later (storeCookie now jar c) c.name =
      if c.live later then some c.value else none := by
  rw [sentCookie, find_storeCookie_self]
  · cases hlive : c.live later <;> simp
  · intro old hold
    rw [Bool.and_eq_true, decide_eq_true_eq] at hold
    exact hold.2

theorem text_start {name : List Char} (hname : '=' ∉ name) (c : StoredCookie) :
    (name ++ ['=']).isPrefixOf c.text = decide (c.name = name) := by
  rw [Bool.eq_iff_iff, List.isPrefixOf_iff_prefix, decide_eq_true_iff]
  constructor
  · rintro ⟨rest, hrest⟩
    have h := congrArg (partition '=') hrest
    rw [List.append_assoc, List.singleton_append, partition_append hname, StoredCookie.text,
      partition_append c.name_clean.2] at h
    exact (Prod.mk.inj h).1.symm
  · rintro rfl
    exact ⟨c.value, by rw [StoredCookie.text, List.append_assoc, List.singleton_append]⟩

theorem renewAtCookieName_chars : renewAtCookieName.all isCookieChar = true := by decide

theorem renewAtCookieName_clean : '=' ∉ renewAtCookieName := by decide

/-- The script reads the first visible cookie of the name, whatever else is in `document.cookie`. -/
theorem renewAtSeconds_documentCookie (reader : NumberReader) (now : DateTime)
    (jar : List StoredCookie) : renewAtSeconds reader (documentCookie now jar) =
      (jar.find? (fun c => c.visible now && c.name = renewAtCookieName)).map
        (fun c => reader.number c.value) := by
  have hparts : (if documentCookie now jar ≠ [] then split "; ".toList (documentCookie now jar)
      else []) = (jar.filter (StoredCookie.visible now)).map StoredCookie.text := by
    cases hvisible : jar.filter (StoredCookie.visible now) with
    | nil =>
        rw [documentCookie, hvisible]
        rfl
    | cons c rest =>
        have hne : documentCookie now jar ≠ [] := by
          intro h
          have hmem : '=' ∈ documentCookie now jar := by
            rw [documentCookie, hvisible, List.map_cons]
            cases rest with
            | nil => simp [StoredCookie.text]
            | cons next rest =>
                rw [List.map_cons, List.intercalate_cons_cons]
                simp [StoredCookie.text]
          rw [h] at hmem
          exact absurd hmem List.not_mem_nil
        rw [if_pos hne, documentCookie, ← hvisible]
        change split [';', ' '] ([';', ' '].intercalate _) = _
        apply split_intercalate
        · intro text htext
          obtain ⟨old, -, rfl⟩ := List.mem_map.1 htext
          simp [StoredCookie.text, old.name_clean.1, old.value_clean]
        · simp [hvisible]
  have hdrop : ∀ c : StoredCookie, c.name = renewAtCookieName →
      c.text.drop (renewAtCookieName.length + 1) = c.value := by
    rintro c hc
    rw [StoredCookie.text, hc, ← List.drop_drop, List.drop_left]
    rfl
  rw [renewAtSeconds, hparts, List.find?_map, List.find?_filter, Option.map_map]
  have hfind : (fun c : StoredCookie => decide (c.visible now = true ∧
      ((fun part => (renewAtCookieName ++ ['=']).isPrefixOf part) ∘ StoredCookie.text) c = true)) =
        (fun c : StoredCookie => c.visible now && c.name = renewAtCookieName) := by
    funext c
    rw [Function.comp_apply, text_start renewAtCookieName_clean, Bool.decide_and,
      Bool.decide_eq_true, Bool.decide_eq_true]
  rw [hfind]
  cases hc : jar.find? (fun c => c.visible now && c.name = renewAtCookieName) with
  | none => rfl
  | some c =>
      have hname := List.find?_some hc
      rw [Bool.and_eq_true, decide_eq_true_eq] at hname
      rw [Option.map_some, Option.map_some, Function.comp_apply, hdrop c hname.2]

theorem renewAtSeconds_storeCookie_of_ne (reader : NumberReader)
    (hlater : now ≤ later) (hname : c.name ≠ renewAtCookieName) :
    renewAtSeconds reader (documentCookie later (storeCookie now jar c)) =
      renewAtSeconds reader (documentCookie later jar) := by
  rw [renewAtSeconds_documentCookie, renewAtSeconds_documentCookie, find_storeCookie_of_ne]
  · intro old hold
    rw [StoredCookie.visible, Bool.and_eq_true, Bool.and_eq_true] at hold
    exact live_of_le hlater hold.1.1
  · intro old hold
    rw [Bool.and_eq_true, decide_eq_true_eq] at hold
    rw [hold.2]
    exact hname.symm
  · simp [hname]

theorem renewAtSeconds_storeCookie (reader : NumberReader) (later : DateTime)
    (jar : List StoredCookie) (hname : c.name = renewAtCookieName) :
    renewAtSeconds reader (documentCookie later (storeCookie now jar c)) =
      if c.visible later then some (reader.number c.value) else none := by
  rw [renewAtSeconds_documentCookie, find_storeCookie_self]
  · cases hvisible : c.visible later <;> simp [hname]
  · intro old hold
    rw [Bool.and_eq_true, decide_eq_true_eq] at hold
    rw [hold.2, hname]

end Reading

section RoundTrip

variable (settings : AppSettings) (reader : NumberReader) (limit : ℕ)

/-- What a browser has of the two cookies of a response, from their arrival on: both or none of
them, the token in its requests and the time in its scripts. -/
structure CookiesReadBack (encodedToken : List Char) (written arrived later : DateTime)
    (after : List StoredCookie) : Prop where
  sent : sentCookie later after settings.apiTokenCookieName =
    if later < arrived.addSeconds (min settings.ttl.seconds limit : ℕ) then some encodedToken
    else none
  read : renewAtSeconds reader (documentCookie later after) =
    if later < arrived.addSeconds (min settings.ttl.seconds limit : ℕ) then
      some (some (renewAt settings written : ℚ))
    else none
  hidden : ∀ c ∈ after, c.visible later = true → c.name ≠ settings.apiTokenCookieName

variable {settings reader limit} {encodedToken : List Char} {written arrived later : DateTime}

theorem isCookieChar_writeInt (n : ℤ) : (writeInt n).all isCookieChar = true := by
  have hdigits : ∀ m : ℕ, (Nat.toDigits 10 m).all isCookieChar = true := by
    intro m
    rw [List.all_eq_true]
    intro c hc
    have hdigit := JsonText.isDigit_toDigits m c hc
    rw [isCookieChar_iff]
    refine ⟨?_, ?_, isBlank_of_isDigit hdigit⟩
    · rintro rfl
      exact absurd hdigit (by decide)
    · rintro rfl
      exact absurd hdigit (by decide)
  unfold writeInt
  split_ifs
  · rw [List.all_cons, hdigits]
    decide
  · exact hdigits _

/-- The two cookies of a response arrive one after the other. -/
theorem foldl_appendSetCookie (settings : AppSettings) (limit : ℕ) (jar : List StoredCookie)
    (written arrived : DateTime) (htoken : encodedToken.all isCookieChar = true) :
    ∃ access renew : StoredCookie,
      (appendSetCookie settings encodedToken written).foldl (receiveSetCookie limit arrived) jar =
        storeCookie arrived (storeCookie arrived jar access) renew ∧
      (access.name = settings.apiTokenCookieName ∧ access.value = encodedToken ∧
        access.httpOnly = true ∧
        access.expiry = some (arrived.addSeconds (min settings.ttl.seconds limit : ℕ))) ∧
      renew.name = renewAtCookieName ∧ renew.value = writeInt (renewAt settings written) ∧
        renew.httpOnly = false ∧
        renew.expiry = some (arrived.addSeconds (min settings.ttl.seconds limit : ℕ)) := by
  obtain ⟨access, haccess, hname, hvalue, hhttp, hexpiry⟩ :=
    parseSetCookie_headerValue settings limit arrived settings.name_chars htoken true
  obtain ⟨renew, hrenew, hname', hvalue', hhttp', hexpiry'⟩ :=
    parseSetCookie_headerValue settings limit arrived renewAtCookieName_chars
      (isCookieChar_writeInt (renewAt settings written)) false
  refine ⟨access, renew, ?_, ⟨hname, hvalue, hhttp, hexpiry⟩, hname', hvalue', hhttp', hexpiry'⟩
  rw [appendSetCookie, List.foldl_cons, List.foldl_cons, List.foldl_nil, receiveSetCookie,
    receiveSetCookie, cookieHeaderValue, renewAtCookieHeaderValue, haccess, hrenew]

theorem live_eq {c : StoredCookie} {expiry : DateTime} (h : c.expiry = some expiry)
    (later : DateTime) : c.live later = decide (later < expiry) := by
  rw [StoredCookie.live, h]
  rfl

/-- The cookies of a response are what the requests and the scripts of the browser read, until both
expire together. -/
theorem response_read_back (settings : AppSettings) (reader : NumberReader) (limit : ℕ)
    (jar : List StoredCookie) (encodedToken : List Char)
    (htoken : encodedToken.all isCookieChar = true) (written arrived later : DateTime)
    (hwritten : (renewAt settings written).natAbs ≤ 2 ^ 53) (hlater : arrived ≤ later) :
    CookiesReadBack settings reader limit encodedToken written arrived later
      ((appendSetCookie settings encodedToken written).foldl (receiveSetCookie limit arrived)
        jar) := by
  obtain ⟨access, renew, hafter, ⟨hname, hvalue, hhttp, hexpiry⟩, hname', hvalue', hhttp', hexpiry'⟩ :=
    foldl_appendSetCookie settings limit jar written arrived htoken
  rw [hafter]
  have hne : renew.name ≠ access.name := by
    rw [hname, hname']
    exact settings.name_ne.symm
  constructor
  · rw [← hname, sentCookie_storeCookie_of_ne hlater hne, sentCookie_storeCookie_self,
      live_eq hexpiry, hvalue]
    simp only [decide_eq_true_eq]
  · rw [renewAtSeconds_storeCookie reader later _ hname', StoredCookie.visible, live_eq hexpiry',
      hhttp', hvalue', reader.number_int _ hwritten]
    simp only [Bool.not_false, Bool.and_true, decide_eq_true_eq]
  · intro c hc hvisible hnamed
    rw [StoredCookie.visible, Bool.and_eq_true, Bool.not_eq_true'] at hvisible
    have hother : c.name ≠ renew.name := by
      rw [hnamed, ← hname]
      exact hne.symm
    have haccess : c = access := by
      have hstored : c ∈ storeCookie arrived jar access := mem_of_mem_storeCookie hc hother
      exact eq_of_mem_storeCookie hstored (hnamed.trans hname.symm)
    rw [haccess, hhttp] at hvisible
    cases hvisible.2

/-- What reaches the cookies of a browser: a response of the site, with its token and the time at
which it was written, or a cookie of another name. -/
inductive Arrival
  | response (encodedToken : List Char) (written : DateTime)
  | other (c : StoredCookie)

def receive (settings : AppSettings) (limit : ℕ) (jar : List StoredCookie)
    (arrival : DateTime × Arrival) : List StoredCookie :=
  match arrival.2 with
  | .response encodedToken written =>
      (appendSetCookie settings encodedToken written).foldl (receiveSetCookie limit arrival.1) jar
  | .other c => storeCookie arrival.1 jar c

def Arrival.Sound (settings : AppSettings) : Arrival → Prop
  | .response encodedToken written => encodedToken.all isCookieChar = true ∧
      (renewAt settings written).natAbs ≤ 2 ^ 53
  | .other c => c.name ≠ settings.apiTokenCookieName ∧ c.name ≠ renewAtCookieName

def lastResponse (arrivals : List (DateTime × Arrival)) :
    Option (DateTime × List Char × DateTime) :=
  arrivals.foldl (fun last arrival =>
    match arrival.2 with
    | .response encodedToken written => some (arrival.1, encodedToken, written)
    | .other _ => last) none

/-- Requests and scripts read one response, until its cookies expire; scripts do not see its token. -/
structure ReadsResponse (settings : AppSettings) (reader : NumberReader) (limit : ℕ)
    (later : DateTime) (jar : List StoredCookie)
    (response : Option (DateTime × List Char × DateTime)) : Prop where
  sent : sentCookie later jar settings.apiTokenCookieName =
    response.bind (fun r =>
      if later < r.1.addSeconds (min settings.ttl.seconds limit : ℕ) then some r.2.1 else none)
  read : renewAtSeconds reader (documentCookie later jar) =
    response.bind (fun r =>
      if later < r.1.addSeconds (min settings.ttl.seconds limit : ℕ) then
        some (some (renewAt settings r.2.2 : ℚ))
      else none)
  hidden : ∀ c ∈ jar, c.visible later = true → c.name ≠ settings.apiTokenCookieName

/-- Whatever responses and other cookies have come in, the requests of the browser carry the token
of the last response, and its scripts read the time of that response and of no other. -/
theorem last_response_read (settings : AppSettings) (reader : NumberReader) (limit : ℕ)
    (jar : List StoredCookie)
    (hjar : ∀ c ∈ jar, c.name ≠ settings.apiTokenCookieName ∧ c.name ≠ renewAtCookieName)
    (arrivals : List (DateTime × Arrival)) (hsound : ∀ a ∈ arrivals, a.2.Sound settings)
    (later : DateTime) (hlater : ∀ a ∈ arrivals, a.1 ≤ later) :
    ReadsResponse settings reader limit later (arrivals.foldl (receive settings limit) jar)
      (lastResponse arrivals) := by
  induction arrivals using List.reverseRecOn with
  | nil =>
      constructor
      · rw [List.foldl_nil, sentCookie, lastResponse, List.foldl_nil, Option.bind_none,
          Option.map_eq_none_iff, List.find?_eq_none]
        intro c hc hfound
        rw [Bool.and_eq_true, decide_eq_true_eq] at hfound
        exact (hjar c hc).1 hfound.2
      · rw [List.foldl_nil, renewAtSeconds_documentCookie, lastResponse, List.foldl_nil,
          Option.bind_none, Option.map_eq_none_iff, List.find?_eq_none]
        intro c hc hfound
        rw [Bool.and_eq_true, decide_eq_true_eq] at hfound
        exact (hjar c hc).2 hfound.2
      · exact fun c hc _ => (hjar c hc).1
  | append_singleton arrivals last ih =>
      have hih := ih (fun a ha => hsound a (List.mem_append_left _ ha))
        (fun a ha => hlater a (List.mem_append_left _ ha))
      have hmem : last ∈ arrivals ++ [last] := List.mem_append_right _ (List.mem_singleton.2 rfl)
      have hlast := hsound last hmem
      have hle := hlater last hmem
      obtain ⟨arrived, arrival⟩ := last
      rw [lastResponse, List.foldl_append, List.foldl_append, List.foldl_cons, List.foldl_nil,
        List.foldl_cons, List.foldl_nil]
      cases arrival with
      | response encodedToken written =>
          have hread := response_read_back settings reader limit
            (arrivals.foldl (receive settings limit) jar) encodedToken hlast.1 written arrived later
            hlast.2 hle
          exact ⟨hread.sent, hread.read, hread.hidden⟩
      | other c =>
          constructor
          · change sentCookie later (storeCookie arrived _ c) _ = _
            rw [sentCookie_storeCookie_of_ne hle hlast.1]
            exact hih.sent
          · change renewAtSeconds reader (documentCookie later (storeCookie arrived _ c)) = _
            rw [renewAtSeconds_storeCookie_of_ne reader hle hlast.2]
            exact hih.read
          · intro old hold hvisible
            by_cases hname : old.name = c.name
            · rw [hname]
              exact hlast.1
            · exact hih.hidden old (mem_of_mem_storeCookie hold hname) hvisible

end RoundTrip

section Samples

def integerNumber (text : List Char) : Option ℚ :=
  if text = [] then some 0 else (maxAge text).map (fun n : ℤ => (n : ℚ))

theorem integerNumber_int (n : ℤ) (_ : n.natAbs ≤ 2 ^ 53) :
    integerNumber (writeInt n) = some (n : ℚ) := by
  have hne : writeInt n ≠ [] := by
    intro h
    have hread := maxAge_writeInt n
    rw [h] at hread
    cases hread
  rw [integerNumber, if_neg hne, maxAge_writeInt, Option.map_some]

def integerReader : NumberReader := ⟨integerNumber, integerNumber_int⟩

theorem access_name_chars : "st_access_token".toList.all isCookieChar = true := by decide

theorem access_name_ne : "st_access_token".toList ≠ renewAtCookieName := by decide

def defaultSettings : AppSettings :=
  ⟨hourTtl, "st_access_token".toList, "DEV", access_name_chars, access_name_ne⟩

theorem theme_clean : ';' ∉ "theme".toList ∧ '=' ∉ "theme".toList := by decide

theorem dark_clean : ';' ∉ "dark".toList := by decide

def themeCookie : StoredCookie :=
  ⟨"theme".toList, "dark".toList, none, false, theme_clean, dark_clean⟩

theorem themeCookie_names : themeCookie.name ≠ defaultSettings.apiTokenCookieName ∧
    themeCookie.name ≠ renewAtCookieName := by decide

def sampleArrivals : List (DateTime × Arrival) :=
  [(⟨63900000000500000⟩, .response "header.payload.first".toList ⟨63900000000000000⟩),
    (⟨63900000000700000⟩, .other themeCookie),
    (⟨63900000600000000⟩, .response "header.payload.second".toList ⟨63900000599000000⟩)]

theorem last_response_read_sample : ReadsResponse defaultSettings integerReader 34560000
    ⟨63900001200000000⟩ (sampleArrivals.foldl (receive defaultSettings 34560000) [themeCookie])
    (lastResponse sampleArrivals) := by
  apply last_response_read defaultSettings integerReader 34560000 [themeCookie]
  · intro c hc
    rw [List.mem_singleton.1 hc]
    exact themeCookie_names
  · intro a ha
    simp only [sampleArrivals, List.mem_cons, List.not_mem_nil, or_false] at ha
    rcases ha with rfl | rfl | rfl
    · exact ⟨by decide, by decide⟩
    · exact themeCookie_names
    · exact ⟨by decide, by decide⟩
  · decide

end Samples

end SimplyTransport.Auth
