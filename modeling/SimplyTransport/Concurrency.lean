import SimplyTransport.Lease
import SimplyTransport.Transition

/-!
# The Redis leases behind `concurrency`

The mutex is a string key written by `SET NX PX` and removed by compare-and-delete, the
semaphore a sorted set whose scores are the instants at which the leases end. Every command
and every script is one atomic step on the key. The wrapper of a decorated function is
followed statement by statement, so that steps of other calls, ticks of the clock and the
end of a lease may fall between any two of them.
-/

namespace SimplyTransport.Concurrency
open Lease Transition

variable {τ : Type}

/-- The reply of `TIME` on a server whose clock counts microseconds. -/
def redisTime (clock : ℕ) : ℕ × ℕ := (clock / 1000000, clock % 1000000)

def luaNowMs (t : ℕ × ℕ) : ℕ := t.1 * 1000 + t.2 / 1000

def nowMs (clock : ℕ) : ℕ := clock / 1000

theorem luaNowMs_redisTime (clock : ℕ) : luaNowMs (redisTime clock) = nowMs clock := by
  unfold luaNowMs redisTime nowMs
  omega

theorem nowMs_mono {c c' : ℕ} (h : c ≤ c') : nowMs c ≤ nowMs c' := Nat.div_le_div_right h

/-- A string key is found up to its deadline; past it the server answers as if it were absent. -/
def visible (now : ℕ) : Option (Entry τ) → Option (Entry τ)
  | none => none
  | some e => if now ≤ e.expiry then some e else none

def acquireMutex (now ttlMs : ℕ) (token : τ) (key : Option (Entry τ)) :
    Option τ × Option (Entry τ) :=
  match visible now key with
  | none => (some token, some ⟨token, now + ttlMs⟩)
  | some e => (none, some e)

/-- The server may drop a string key by itself once its deadline is reached. -/
def evict (now : ℕ) : Option (Entry τ) → Option (Entry τ)
  | none => none
  | some e => if e.expiry ≤ now then none else some e

theorem visible_cases (now : ℕ) (key : Option (Entry τ)) :
    (visible now key = none ∧ ∀ e ∈ key, e.expiry < now) ∨
      ∃ e, visible now key = some e ∧ key = some e ∧ now ≤ e.expiry := by
  cases key with
  | none => exact Or.inl ⟨rfl, by simp⟩
  | some e =>
      by_cases h : now ≤ e.expiry
      · exact Or.inr ⟨e, by simp [visible, h], rfl, h⟩
      · exact Or.inl ⟨by simp [visible, h], by simpa using h⟩

theorem evict_sublist (now : ℕ) (key : Option (Entry τ)) :
    (evict now key).toList.Sublist key.toList := by
  cases key with
  | none => simp [evict]
  | some e => by_cases h : e.expiry ≤ now <;> simp [evict, h]

theorem live_evict (now : ℕ) (key : Option (Entry τ)) :
    live now (evict now key).toList = live now key.toList := by
  cases key with
  | none => rfl
  | some e => by_cases h : e.expiry ≤ now <;> simp [evict, h, live]

theorem acquireMutex_cases (now ttlMs : ℕ) (token : τ) (key : Option (Entry τ)) :
    (visible now key = none ∧
      acquireMutex now ttlMs token key = (some token, some ⟨token, now + ttlMs⟩)) ∨
    ∃ e, key = some e ∧ visible now key = some e ∧
      acquireMutex now ttlMs token key = (none, key) := by
  unfold acquireMutex
  rcases visible_cases now key with ⟨hv, _⟩ | ⟨e, hv, hkey, _⟩
  · exact Or.inl ⟨hv, by rw [hv]⟩
  · exact Or.inr ⟨e, hkey, hv, by rw [hv, hkey]⟩

/-- The mutex is granted only over an expired lease, and then as the table grants it. -/
theorem acquireMutex_spec (now ttlMs : ℕ) (token : τ) (key : Option (Entry τ)) :
    ((acquireMutex now ttlMs token key).1 = some token ∧
      grant 1 now ttlMs token key.toList =
        some (acquireMutex now ttlMs token key).2.toList) ∨
    ((acquireMutex now ttlMs token key).1 = none ∧
      (acquireMutex now ttlMs token key).2 = key) := by
  rcases acquireMutex_cases now ttlMs token key with ⟨hv, heq⟩ | ⟨e, _, _, heq⟩
  · have hlive : live now key.toList = [] := by
      rw [List.eq_nil_iff_forall_not_mem]
      intro e he
      rw [mem_live] at he
      have hkey : key = some e := by simpa using he.1
      have hle : now ≤ e.expiry := by omega
      simp [hkey, visible, hle] at hv
    rw [heq]
    exact Or.inl ⟨rfl, by simp [grant, hlive]⟩
  · rw [heq]
    exact Or.inr ⟨rfl, rfl⟩

variable [DecidableEq τ]

/-- `_MUTEX_RELEASE_LUA`: delete the key if it still holds the caller's token. -/
def releaseMutex (now : ℕ) (token : τ) (key : Option (Entry τ)) : Option (Entry τ) :=
  match visible now key with
  | none => none
  | some e => if e.token = token then none else some e

def zremrangebyscore (now : ℕ) (z : List (Entry τ)) : List (Entry τ) :=
  z.filter (fun e => now < e.expiry)

def zadd (token : τ) (score : ℕ) (z : List (Entry τ)) : List (Entry τ) :=
  z.filter (fun e => e.token ≠ token) ++ [⟨token, score⟩]

def zrem (token : τ) (z : List (Entry τ)) : List (Entry τ) := z.filter (fun e => e.token ≠ token)

def semaphoreAcquireLua (clock limit ttlMs : ℕ) (token : τ) (z : List (Entry τ)) :
    Bool × List (Entry τ) :=
  let now := luaNowMs (redisTime clock)
  let kept := zremrangebyscore now z
  if kept.length < limit then (true, zadd token (now + ttlMs) kept) else (false, kept)

def acquireSemaphore (clock limit ttlMs : ℕ) (token : τ) (z : List (Entry τ)) :
    Option τ × List (Entry τ) :=
  let r := semaphoreAcquireLua clock limit ttlMs token z
  (if r.1 then some token else none, r.2)

/-- What the server stores under the key of a decorated function: a string when the limit is
one, a sorted set otherwise. All calls on a key pass the same limit. -/
structure Key (τ : Type) where
  mutex : Option (Entry τ)
  semaphore : List (Entry τ)

def Key.leases (limit : ℕ) (k : Key τ) : List (Entry τ) :=
  if limit = 1 then k.mutex.toList else k.semaphore

def acquire (limit ttlSeconds clock : ℕ) (token : τ) (k : Key τ) : Option τ × Key τ :=
  let ttlMs := ttlSeconds * 1000
  if limit = 1 then
    let r := acquireMutex (nowMs clock) ttlMs token k.mutex
    (r.1, { k with mutex := r.2 })
  else
    let r := acquireSemaphore clock limit ttlMs token k.semaphore
    (r.1, { k with semaphore := r.2 })

def release (limit clock : ℕ) (token : τ) (k : Key τ) : Key τ :=
  if limit = 1 then { k with mutex := releaseMutex (nowMs clock) token k.mutex }
  else { k with semaphore := zrem token k.semaphore }

theorem zadd_of_new (token : τ) (score : ℕ) (z : List (Entry τ))
    (hz : ∀ e ∈ z, e.token ≠ token) : zadd token score z = z ++ [⟨token, score⟩] := by
  unfold zadd
  rw [List.filter_eq_self.2]
  intro e he
  simpa using hz e he

theorem acquireSemaphore_spec (clock limit ttlMs : ℕ) (token : τ) (z : List (Entry τ))
    (hz : ∀ e ∈ z, e.token ≠ token) :
    ((acquireSemaphore clock limit ttlMs token z).1 = some token ∧
      grant limit (nowMs clock) ttlMs token z =
        some (acquireSemaphore clock limit ttlMs token z).2) ∨
    ((acquireSemaphore clock limit ttlMs token z).1 = none ∧
      (acquireSemaphore clock limit ttlMs token z).2 = live (nowMs clock) z) := by
  have hkept : zremrangebyscore (nowMs clock) z = live (nowMs clock) z := rfl
  have hadd := zadd_of_new token (nowMs clock + ttlMs) (live (nowMs clock) z)
    (fun e he => hz e (mem_live.1 he).1)
  unfold acquireSemaphore semaphoreAcquireLua
  simp only [luaNowMs_redisTime, hkept]
  by_cases hlt : (live (nowMs clock) z).length < limit
  · exact Or.inl (by simp [hlt, grant, hadd])
  · exact Or.inr (by simp [hlt])

/-- Either the token is granted as the lease table grants it, or nothing that is live changes. -/
theorem acquire_spec (limit ttlSeconds clock : ℕ) (token : τ) (k : Key τ)
    (hk : ∀ e ∈ k.leases limit, e.token ≠ token) :
    ((acquire limit ttlSeconds clock token k).1 = some token ∧
      grant limit (nowMs clock) (ttlSeconds * 1000) token (k.leases limit) =
        some ((acquire limit ttlSeconds clock token k).2.leases limit)) ∨
    ((acquire limit ttlSeconds clock token k).1 = none ∧
      ((acquire limit ttlSeconds clock token k).2.leases limit).Sublist (k.leases limit) ∧
      live (nowMs clock) ((acquire limit ttlSeconds clock token k).2.leases limit) =
        live (nowMs clock) (k.leases limit)) := by
  by_cases hl : limit = 1
  · subst hl
    simp only [acquire, Key.leases, if_true]
    rcases acquireMutex_spec (nowMs clock) (ttlSeconds * 1000) token k.mutex with h | h
    · exact Or.inl h
    · refine Or.inr ⟨h.1, ?_, ?_⟩ <;> simp [h.2]
  · simp only [acquire, Key.leases, if_neg hl] at hk ⊢
    rcases acquireSemaphore_spec clock limit (ttlSeconds * 1000) token k.semaphore hk with h | h
    · exact Or.inl h
    · refine Or.inr ⟨h.1, ?_, ?_⟩
      · rw [h.2]; exact live_sublist _ _
      · rw [h.2]; exact live_live le_rfl _

theorem releaseMutex_self (now : ℕ) (e : Entry τ) : releaseMutex now e.token (some e) = none := by
  unfold releaseMutex
  by_cases h : now ≤ e.expiry <;> simp [visible, h]

theorem releaseMutex_of_ne {now : ℕ} {token : τ} {e : Entry τ} (hle : now ≤ e.expiry)
    (hne : e.token ≠ token) : releaseMutex now token (some e) = some e := by
  simp [releaseMutex, visible, hle, hne]

/-- Compare-and-delete leaves the key as it is or deletes it. -/
theorem releaseMutex_eq_some {now : ℕ} {token : τ} {key : Option (Entry τ)} {e : Entry τ}
    (h : releaseMutex now token key = some e) : key = some e ∧ e.token ≠ token := by
  unfold releaseMutex at h
  rcases visible_cases now key with ⟨hv, _⟩ | ⟨f, hv, hkey, _⟩
  · simp [hv] at h
  · rw [hv] at h
    by_cases hf : f.token = token
    · simp [hf] at h
    · obtain rfl : f = e := by simpa [hf] using h
      exact ⟨hkey, hf⟩

theorem releaseMutex_sublist (now : ℕ) (token : τ) (key : Option (Entry τ)) :
    (releaseMutex now token key).toList.Sublist key.toList := by
  unfold releaseMutex
  rcases visible_cases now key with ⟨hv, _⟩ | ⟨e, hv, hkey, _⟩
  · simp [hv]
  · rw [hv, hkey]
    by_cases he : e.token = token <;> simp [he]

theorem live_releaseMutex (now : ℕ) (token : τ) (key : Option (Entry τ)) :
    live now (releaseMutex now token key).toList = live now (revoke token key.toList) := by
  unfold releaseMutex
  rcases visible_cases now key with ⟨hv, hdead⟩ | ⟨e, hv, hkey, _⟩
  · rw [hv, live_revoke]
    cases key with
    | none => rfl
    | some e =>
        have hlt : ¬ now < e.expiry := by have := hdead e rfl; omega
        simp [live, revoke, hlt]
  · rw [hv, hkey]
    by_cases he : e.token = token <;> simp [he, revoke]

/-- A release takes out the caller's token and nothing else that is live. -/
theorem release_spec (limit clock : ℕ) (token : τ) (k : Key τ) :
    ((release limit clock token k).leases limit).Sublist (k.leases limit) ∧
      live (nowMs clock) ((release limit clock token k).leases limit) =
        live (nowMs clock) (revoke token (k.leases limit)) := by
  by_cases hl : limit = 1
  · simp only [release, Key.leases, if_pos hl]
    exact ⟨releaseMutex_sublist _ _ _, live_releaseMutex _ _ _⟩
  · simp only [release, Key.leases, if_neg hl]
    exact ⟨List.filter_sublist, rfl⟩

end SimplyTransport.Concurrency
