import SimplyTransport.DelayRecording
import SimplyTransport.RedisKeyspace
import SimplyTransport.ResponseCache

/-!
# Cache busts and the other keys of the database

The patterns that the commands delete, and the keys of locks, rate limits and recorded delays,
which are in the same database. Flushing removes them all. Every other pattern looks for a text
that ends in a colon, and the fixed parts of these keys have none of these texts.
-/

namespace SimplyTransport
open Glob CacheKeys DeleteKeys Transition

namespace CacheKeys

def allKeys : String := "*"

def realtimeStopDeleteAllKeyTemplate : String := "*realtime:stop:*"

def realtimeStopTableDeleteAllKeyTemplate : String := "*realtime:stop:table:*"

def realtimeTripDeleteAllKeyTemplate : String := "*realtime:trip:*"

def statisticsDeleteAllKeyTemplate : String := "*stats:*"

end CacheKeys

inductive Bust
  | importgtfs
  | importrealtime
  | seedrealtimefromfile
  | importrealtimevehicles
  | generatestatistics
  | flushredis
  deriving DecidableEq

namespace Bust

def patterns : Bust → List String
  | importgtfs => deletedPatterns
  | importrealtime =>
    [realtimeStopDeleteAllKeyTemplate, realtimeStopTableDeleteAllKeyTemplate,
      realtimeTripDeleteAllKeyTemplate]
  | seedrealtimefromfile =>
    [realtimeStopDeleteAllKeyTemplate, realtimeStopTableDeleteAllKeyTemplate,
      realtimeTripDeleteAllKeyTemplate]
  | importrealtimevehicles => [stopMapDeleteAllKeyTemplate, routeMapDeleteAllKeyTemplate]
  | generatestatistics => [statisticsDeleteAllKeyTemplate]
  | flushredis => [allKeys]

def literals : Bust → List String
  | importgtfs =>
    ["stop_map:", "stop_map_nearby:", "route_map:", "schedule:", "static_map:agency:route:",
      "static_map:stop:", "stop_detailed:", "realtime:route:"]
  | importrealtime => ["realtime:stop:", "realtime:stop:table:", "realtime:trip:"]
  | seedrealtimefromfile => ["realtime:stop:", "realtime:stop:table:", "realtime:trip:"]
  | importrealtimevehicles => ["stop_map:", "route_map:"]
  | generatestatistics => ["stats:"]
  | flushredis => [""]

theorem patterns_eq {b : Bust} (hb : b ≠ flushredis) :
    b.patterns = b.literals.map (fun literal => "*" ++ literal ++ "*") := by
  cases b with
  | flushredis => exact absurd rfl hb
  | _ => rfl

/-- None of the texts that the patterns look for occurs. -/
def Clear (b : Bust) (text : String) : Prop :=
  ∀ literal ∈ b.literals, ¬ literal.toList <:+: text.toList

instance (b : Bust) (text : String) : Decidable (b.Clear text) :=
  inferInstanceAs (Decidable (∀ literal ∈ b.literals, _))

end Bust

/-- A suffix of a lock's key: a constant, or the name of the locked function. -/
structure LockName where
  text : String
  no_colon : ':' ∉ text.toList

def cliLockGtfsStaticImport : LockName := ⟨"gtfs_static_import", by decide⟩

def cliLockKey (name : String) (lock : LockName) : String := name ++ ":cli:" ++ lock.text

def concurrencyKey (name : String) (lock : LockName) : String :=
  name ++ ":concurrency:" ++ lock.text

def redisStoreNamespace (name version store : String) : String :=
  if store = "response_cache" then name ++ ":" ++ store ++ ":v" ++ version
  else name ++ ":" ++ store

def rateLimitKey (name version key : String) : String :=
  makeKey (redisStoreNamespace name version "rate_limit") key

section Clear

variable {b : Bust}

def cuts : List String := ["i:", "rency:", "t:", "g:"]

/-- The text ends in a letter and a colon, does not begin with a colon, and no fixed part of the
other keys ends within it. -/
structure Apart (literal : List Char) : Prop where
  last : literal.getLast? = some ':'
  letter : ∃ c, literal.dropLast.getLast? = some c ∧ c.isAlpha = true
  head : literal.head? ≠ some ':'
  star : wildcard ∉ literal
  cut : ∀ cut ∈ cuts, ¬ cut.toList <:+: literal ∧ ¬ literal <:+: cut.toList.tail

theorem apart_literals (hb : b ≠ .flushredis) {literal : String} (h : literal ∈ b.literals) :
    Apart literal.toList := by
  have hletter : (literal.toList.dropLast.getLast?).any (fun c => c.isAlpha) = true := by
    revert literal
    cases b <;> first | exact absurd rfl hb | decide
  rw [Option.any_eq_true] at hletter
  refine ⟨?_, hletter, ?_, ?_, ?_⟩
  all_goals
    clear hletter
    revert literal
    cases b <;> first | exact absurd rfl hb | decide

variable {literal before after : List Char}

theorem Apart.infix_of_colon (h : Apart literal) (hoccurs : literal <:+: ':' :: after) :
    literal <:+: after := by
  refine infix_of_infix_cons h.head ?_ hoccurs
  rintro rfl
  cases h.last

/-- A fixed part that is a word and a colon separates what is before it from what is after. -/
theorem Apart.infix_cases (h : Apart literal) {cut : String} (hcut : cut ∈ cuts)
    {word : List Char} (hword : ':' ∉ word ++ cut.toList.dropLast)
    (hoccurs : literal <:+: before ++ word ++ (cut.toList ++ after)) :
    literal <:+: before ∨ literal <:+: cut.toList.tail ++ after := by
  refine (infix_before_or_after (h.cut cut hcut).1 hoccurs).imp_left (fun hbefore => ?_)
  rw [List.append_assoc] at hbefore
  exact infix_of_infix_append h.last hword hbefore

theorem Apart.not_infix_nil (h : Apart literal) : ¬ literal <:+: [] :=
  not_infix_of_not_mem h.last List.not_mem_nil

theorem Apart.not_infix_lock (h : Apart literal) {cut : String} (hcut : cut ∈ cuts)
    (lock : LockName) : ¬ literal <:+: cut.toList.tail ++ lock.text.toList :=
  fun hlock => (h.cut cut hcut).2 (infix_of_infix_append h.last lock.no_colon hlock)

variable {name : String}

/-- The key of a lock is clear where the application's name is. -/
theorem clear_cliLockKey (hb : b ≠ .flushredis) (lock : LockName) (h : b.Clear (name ++ ":")) :
    b.Clear (cliLockKey name lock) := by
  intro literal hliteral hoccurs
  have hapart := apart_literals hb hliteral
  have hkey : (cliLockKey name lock).toList =
      (name ++ ":").toList ++ "cl".toList ++ ("i:".toList ++ lock.text.toList) := by
    simp only [cliLockKey, String.toList_append, List.append_assoc]
    rfl
  rw [hkey] at hoccurs
  rcases hapart.infix_cases (by decide) (by decide) hoccurs with hname | hlock
  · exact h literal hliteral hname
  · exact hapart.not_infix_lock (by decide) lock hlock

theorem clear_concurrencyKey (hb : b ≠ .flushredis) (lock : LockName)
    (h : b.Clear (name ++ ":")) : b.Clear (concurrencyKey name lock) := by
  intro literal hliteral hoccurs
  have hapart := apart_literals hb hliteral
  have hkey : (concurrencyKey name lock).toList =
      (name ++ ":").toList ++ "concur".toList ++ ("rency:".toList ++ lock.text.toList) := by
    simp only [concurrencyKey, String.toList_append, List.append_assoc]
    rfl
  rw [hkey] at hoccurs
  rcases hapart.infix_cases (by decide) (by decide) hoccurs with hname | hlock
  · exact h literal hliteral hname
  · exact hapart.not_infix_lock (by decide) lock hlock

theorem clear_rateLimitKey (hb : b ≠ .flushredis) (version : String) {key : String}
    (h : b.Clear (name ++ ":")) (hkey : b.Clear key) :
    b.Clear (rateLimitKey name version key) := by
  intro literal hliteral hoccurs
  have hapart := apart_literals hb hliteral
  have htext : (rateLimitKey name version key).toList =
      (name ++ ":").toList ++ "rate_limi".toList ++ ("t:".toList ++ key.toList) := by
    rw [rateLimitKey, makeKey, redisStoreNamespace, if_neg (by decide)]
    simp only [String.toList_append, List.append_assoc]
    rfl
  rw [htext] at hoccurs
  rcases hapart.infix_cases (by decide) (by decide) hoccurs with hname | hrest
  · exact h literal hliteral hname
  · exact hkey literal hliteral (hapart.infix_of_colon hrest)

section RecordingKey
open DelayRecording

theorem not_isAlpha_of_isDigit {c : Char} (h : c.isDigit = true) : c.isAlpha = false := by
  have hhi : c.toNat ≤ 57 := UInt32.le_iff_toNat_le.1 (of_decide_eq_true (Bool.and_eq_true_iff.1 h).2)
  rw [Bool.eq_false_iff]
  intro halpha
  rcases Bool.or_eq_true_iff.1 halpha with hupper | hlower
  · have hlo : 65 ≤ c.toNat := UInt32.le_iff_toNat_le.1 (of_decide_eq_true hupper).1
    omega
  · have hlo : 97 ≤ c.toNat :=
      UInt32.le_iff_toNat_le.1 (of_decide_eq_true (Bool.and_eq_true_iff.1 hlower).1)
    omega

theorem eq_of_mem_pushn {k : ℕ} {c d : Char} (h : c ∈ ("".pushn d k).toList) : c = d := by
  induction k with
  | zero => exact absurd h List.not_mem_nil
  | succ k ih =>
      rw [String.pushn_eq_repeat_push, Nat.repeat, String.toList_push,
        ← String.pushn_eq_repeat_push] at h
      rcases List.mem_append.1 h with h | h
      · exact ih h
      · exact List.mem_singleton.1 h

theorem not_isAlpha_padded {width n : ℕ} {c : Char} (h : c ∈ (padded width n).toList) :
    c.isAlpha = false := by
  rw [padded, String.toList_append] at h
  rcases List.mem_append.1 h with h | h
  · rw [eq_of_mem_pushn h]
    decide
  · have hdigits : c ∈ Nat.toDigits 10 n := by simpa using h
    exact not_isAlpha_of_isDigit (Nat.isDigit_of_mem_toDigits (by decide) (by decide) hdigits)

theorem not_isAlpha_formatTime (t : Time) {c : Char} (h : c ∈ (formatTime t).toList) :
    c.isAlpha = false := by
  have hcolon : c ∈ ":".toList → c.isAlpha = false := by
    intro hc
    rw [show c = ':' from List.mem_singleton.1 hc]
    rfl
  have hdot : c ∈ ".".toList → c.isAlpha = false := by
    intro hc
    rw [show c = '.' from List.mem_singleton.1 hc]
    rfl
  simp only [formatTime, String.toList_append, List.mem_append] at h
  rcases h with ((((h | h) | h) | h) | h) | h
  · exact not_isAlpha_padded h
  · exact hcolon h
  · exact not_isAlpha_padded h
  · exact hcolon h
  · exact not_isAlpha_padded h
  · split_ifs at h
    · exact absurd h List.not_mem_nil
    · rw [String.toList_append] at h
      rcases List.mem_append.1 h with h | h
      · exact hdot h
      · exact not_isAlpha_padded h

/-- The texts occur in a recording key where they occur in its route code and stop. -/
theorem clear_delayRecordingCacheKey (hb : b ≠ .flushredis) {routeCode stopId : String}
    (scheduledTime : Time) (h : b.Clear (routeCode ++ ":" ++ stopId ++ ":")) :
    b.Clear (delayRecordingCacheKey routeCode stopId scheduledTime) := by
  intro literal hliteral hoccurs
  have hapart := apart_literals hb hliteral
  have hkey : (delayRecordingCacheKey routeCode stopId scheduledTime).toList =
      [] ++ "delays_recordin".toList ++ ("g:".toList ++
        ((routeCode ++ ":" ++ stopId ++ ":").toList ++ (formatTime scheduledTime).toList)) := by
    unfold delayRecordingCacheKey
    generalize formatTime scheduledTime = time
    simp only [String.toList_append, List.append_assoc]
    rfl
  rw [hkey] at hoccurs
  rcases hapart.infix_cases (by decide) (by decide) hoccurs with hnil | hrest
  · exact hapart.not_infix_nil hnil
  · obtain ⟨c, hletter, halpha⟩ := hapart.letter
    have htime : c ∉ (formatTime scheduledTime).toList := by
      intro hc
      rw [not_isAlpha_formatTime scheduledTime hc] at halpha
      exact Bool.false_ne_true halpha
    refine h literal hliteral (infix_of_infix_append_dropLast hletter htime ?_
      (hapart.infix_of_colon hrest))
    rw [String.toList_append, List.getLast?_append]
    rintro hcolon
    obtain rfl := Option.some.inj hcolon
    exact absurd halpha (by decide)

end RecordingKey

end Clear

/-- The keys in which a bust may not look have in `db'` what they have in `db`. -/
structure Bust.Keeps {ν : Type} (b : Bust) (db db' : Redis ν) : Prop where
  other : ∀ key, b.Clear key → db'.get key = db.get key
  cliLock : ∀ name, b.Clear (name ++ ":") → ∀ lock,
    db'.get (cliLockKey name lock) = db.get (cliLockKey name lock)
  concurrency : ∀ name, b.Clear (name ++ ":") → ∀ lock,
    db'.get (concurrencyKey name lock) = db.get (concurrencyKey name lock)
  rateLimit : ∀ name, b.Clear (name ++ ":") → ∀ version key, b.Clear key →
    db'.get (rateLimitKey name version key) = db.get (rateLimitKey name version key)
  recording : ∀ routeCode stopId, b.Clear (routeCode ++ ":" ++ stopId ++ ":") → ∀ scheduledTime,
    db'.get (DelayRecording.delayRecordingCacheKey routeCode stopId scheduledTime) =
      db.get (DelayRecording.delayRecordingCacheKey routeCode stopId scheduledTime)

variable {ν : Type}

theorem start_spares {b : Bust} (hb : b ≠ .flushredis) (db : Redis ν) {key : String}
    (h : b.Clear key) : ∀ a ∈ (start b.patterns db).tasks, a.Spares key := by
  intro a ha
  obtain ⟨pattern, hpattern, rfl⟩ := List.mem_map.1 ha
  rw [Bust.patterns_eq hb] at hpattern
  obtain ⟨literal, hliteral, rfl⟩ := List.mem_map.1 hpattern
  refine Bool.eq_false_iff.2 (fun hmatch => h literal hliteral ?_)
  exact (globMatches_contains (apart_literals hb hliteral).star rfl).1 hmatch

/-- In every run of a command's bust the locks, and the other keys that are clear, have what the
other clients alone make of them; a flush leaves no key. -/
theorem busts_keep_locks (db : Redis ν) :
    (∀ b, b ≠ Bust.flushredis → ∀ (events : List (Event ν)) (t : State ν),
      exec next (start b.patterns db) events = some t →
      b.Keeps (db.writes (events.filterMap Event.write?)) t.redis) ∧
    ∃ t : State ν, exec next (start Bust.flushredis.patterns db) [.keys 0, .delete 0] = some t ∧
      ∀ key, t.redis.get key = none := by
  constructor
  · intro b hb events t hrun
    have hclear : ∀ key, b.Clear key →
        t.redis.get key = (db.writes (events.filterMap Event.write?)).get key :=
      fun key hkey => exec_spares (start_spares hb db hkey) hrun
    exact {
      other := hclear
      cliLock := fun name hname lock => hclear _ (clear_cliLockKey hb lock hname)
      concurrency := fun name hname lock => hclear _ (clear_concurrencyKey hb lock hname)
      rateLimit := fun name hname version key hkey =>
        hclear _ (clear_rateLimitKey hb version hname hkey)
      recording := fun routeCode stopId hcall scheduledTime =>
        hclear _ (clear_delayRecordingCacheKey hb scheduledTime hcall) }
  · refine ⟨_, rfl, fun key => ?_⟩
    dsimp only
    split_ifs with hempty
    · have hkeys : db.keys "*" = [] := List.isEmpty_iff.1 hempty
      rw [Redis.keys_all] at hkeys
      exact Redis.get_eq_none (fun hmem => List.not_mem_nil (hkeys ▸ hmem))
    · exact Redis.get_delete_all db key

section Sample

def redisWith (key : String) : Redis String := ⟨[(key, "held")], List.nodup_singleton key⟩

/-- A realtime import busts its pages while the static import holds its lock. -/
theorem busts_keep_locks_importrealtime : ∃ t : State String,
    exec next (start Bust.importrealtime.patterns
        (redisWith "SimplyTransport:cli:gtfs_static_import"))
      [.keys 0, .keys 1, .write "schedule:1:MONDAY" (some "page"), .delete 1, .delete 0, .keys 2,
        .delete 2] = some t ∧
    t.redis.get (cliLockKey "SimplyTransport" cliLockGtfsStaticImport) = some "held" := by
  have hkeeps := (busts_keep_locks (redisWith "SimplyTransport:cli:gtfs_static_import")).1
    .importrealtime (by decide) [.keys 0, .keys 1, .write "schedule:1:MONDAY" (some "page"),
      .delete 1, .delete 0, .keys 2, .delete 2] _ rfl
  refine ⟨_, rfl, ?_⟩
  rw [hkeeps.cliLock "SimplyTransport" (by decide)]
  decide

/-- A flush removes the lock of a running import. Two more busts, of a name and of a route that
end in a text that they look for. -/
theorem flush_removes_held_lock :
    (∃ t : State String, exec next
        (start Bust.flushredis.patterns (redisWith "SimplyTransport:cli:gtfs_static_import"))
        [.keys 0, .delete 0] = some t ∧
      t.redis.get (cliLockKey "SimplyTransport" cliLockGtfsStaticImport) = none) ∧
    (∃ t : State String, exec next
        (start Bust.generatestatistics.patterns (redisWith "stats:cli:gtfs_static_import"))
        [.keys 0, .delete 0] = some t ∧
      t.redis.get (cliLockKey "stats" cliLockGtfsStaticImport) = none) ∧
    ∃ t : State String, exec next
        (start Bust.generatestatistics.patterns
          (redisWith "delays_recording:stats:8220DB000002:00:00:00"))
        [.keys 0, .delete 0] = some t ∧
      t.redis.get (DelayRecording.delayRecordingCacheKey "stats" "8220DB000002" ⟨0, by decide⟩) =
        none :=
  ⟨⟨_, rfl, by decide⟩, ⟨_, rfl, by decide⟩, _, rfl, by decide⟩

end Sample

end SimplyTransport
