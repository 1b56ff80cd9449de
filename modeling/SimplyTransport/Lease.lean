import Mathlib.Combinatorics.Enumerative.DoubleCounting
import Mathlib.Data.List.Nodup
import Mathlib.Tactic.Common

/-!
# Tables of leases that expire

A lease is a token together with the instant from which it no longer counts. `grant` admits a
new token while fewer than `limit` leases are live and forgets the others, `revoke` takes one
token out. `Sound` is the invariant of such a table: at most `limit` live leases, no token
twice. Granting a new token, revoking one and letting time pass all keep it, and it bounds
every family of parties that hold live leases under different tokens.
-/

namespace Lease

structure Entry (τ : Type*) where
  token : τ
  expiry : ℕ
  deriving DecidableEq

variable {τ : Type*} {limit now now' ttl : ℕ} {l l' : List (Entry τ)} {e : Entry τ} {tok : τ}

def live (now : ℕ) (l : List (Entry τ)) : List (Entry τ) := l.filter (fun e => now < e.expiry)

def grant (limit now ttl : ℕ) (tok : τ) (l : List (Entry τ)) : Option (List (Entry τ)) :=
  if (live now l).length < limit then some (live now l ++ [⟨tok, now + ttl⟩]) else none

def revoke [DecidableEq τ] (tok : τ) (l : List (Entry τ)) : List (Entry τ) :=
  l.filter (fun e => e.token ≠ tok)

@[simp] theorem mem_live : e ∈ live now l ↔ e ∈ l ∧ now < e.expiry := by simp [live]

@[simp] theorem mem_revoke [DecidableEq τ] : e ∈ revoke tok l ↔ e ∈ l ∧ e.token ≠ tok := by
  simp [revoke]

theorem live_sublist (now : ℕ) (l : List (Entry τ)) : (live now l).Sublist l :=
  List.filter_sublist

/-- What is live later was live before. -/
theorem live_live (h : now ≤ now') (l : List (Entry τ)) : live now' (live now l) = live now' l := by
  unfold live
  rw [List.filter_filter]
  apply List.filter_congr
  intro e _
  simp only [Bool.and_eq_decide, decide_eq_true_eq, decide_eq_decide]
  omega

theorem live_append (now : ℕ) (l l' : List (Entry τ)) :
    live now (l ++ l') = live now l ++ live now l' := List.filter_append ..

theorem live_revoke [DecidableEq τ] (now : ℕ) (tok : τ) (l : List (Entry τ)) :
    live now (revoke tok l) = revoke tok (live now l) := by
  unfold live revoke
  rw [List.filter_filter, List.filter_filter]
  simp only [Bool.and_comm]

structure Sound (limit now : ℕ) (l : List (Entry τ)) : Prop where
  bound : (live now l).length ≤ limit
  nodup : (l.map Entry.token).Nodup

theorem sound_nil (limit now : ℕ) : Sound limit now ([] : List (Entry τ)) :=
  ⟨by simp [live], by simp⟩

theorem Sound.mono (h : Sound limit now l) (hn : now ≤ now') : Sound limit now' l := by
  refine ⟨?_, h.nodup⟩
  rw [← live_live hn l]
  exact ((live_sublist now' _).length_le).trans h.bound

/-- Dropping leases keeps the invariant. -/
theorem Sound.sublist (h : Sound limit now l) (hs : l'.Sublist l) : Sound limit now l' :=
  ⟨((hs.filter _).length_le).trans h.bound, h.nodup.sublist (hs.map _)⟩

theorem Sound.grant (h : Sound limit now l) (ht : ∀ e ∈ l, e.token ≠ tok)
    (hg : grant limit now ttl tok l = some l') : Sound limit now l' := by
  unfold Lease.grant at hg
  split_ifs at hg with hlt
  obtain rfl := Option.some.inj hg
  constructor
  · rw [live_append, live_live le_rfl]
    have hone : (live now [(⟨tok, now + ttl⟩ : Entry τ)]).length ≤ 1 := List.length_filter_le ..
    rw [List.length_append]
    omega
  · rw [List.map_append, List.nodup_append]
    refine ⟨(h.nodup.sublist ((live_sublist now l).map _)), by simp, ?_⟩
    intro a ha b hb hab
    obtain ⟨e, he, rfl⟩ := List.mem_map.1 ha
    obtain rfl : b = tok := by simpa using hb
    exact ht e (mem_live.1 he).1 hab

theorem mem_of_grant (hg : grant limit now ttl tok l = some l') :
    e ∈ l' ↔ e ∈ live now l ∨ e = ⟨tok, now + ttl⟩ := by
  unfold grant at hg
  split_ifs at hg
  obtain rfl := Option.some.inj hg
  simp

/-- Parties that hold live leases under pairwise different tokens are at most `limit`. -/
theorem Sound.card_le {ι : Type*} (h : Sound limit now l) (holders : Finset ι)
    (holds : ι → Entry τ → Prop) (hl : ∀ i ∈ holders, ∃ e ∈ live now l, holds i e)
    (hinj : ∀ i j e f, holds i e → holds j f → e.token = f.token → i = j) :
    holders.card ≤ limit := by
  classical
  calc
    holders.card ≤ ((live now l).map Entry.token).toFinset.card := by
      apply Finset.card_le_card_of_forall_subsingleton
        (fun i tok => ∃ e, holds i e ∧ e.token = tok)
      · intro i hi
        obtain ⟨e, he, hie⟩ := hl i hi
        exact ⟨e.token, List.mem_toFinset.2 (List.mem_map_of_mem he), e, hie, rfl⟩
      · rintro tok _ i ⟨_, e, he, rfl⟩ j ⟨_, f, hf, hef⟩
        exact hinj i j e f he hf hef.symm
    _ ≤ (live now l).length := by
      simpa using List.toFinset_card_le ((live now l).map Entry.token)
    _ ≤ limit := h.bound

end Lease
