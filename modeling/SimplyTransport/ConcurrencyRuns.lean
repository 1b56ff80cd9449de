import SimplyTransport.Concurrency

/-!
# Runs of calls wrapped by `concurrency`

Every call walks through the statements of the wrapper: it sends its acquire command and gets
the reply, returns `None` or enters the body, leaves the body by a value, an exception or a
Redis error, and attempts its release in the `finally` block. Commands may fail with or
without having reached the server. The invariant ties the tokens of the calls to the leases on
the server; it survives every order of these steps with clock ticks and ends of leases.
-/

namespace SimplyTransport.Concurrency
open Lease Transition

variable {τ ν ξ : Type} {limit ttlSeconds : ℕ}

inductive BodyEnd (ν ξ : Type)
  | value (v : ν)
  | exception (x : ξ)
  | redisError

inductive Outcome (ν ξ : Type)
  | returned (v : Option ν)
  | raised (x : ξ)
  | abort

/-- A `RedisError` that leaves the body is replaced by `click.Abort`; the rest passes through. -/
def outcomeOf : BodyEnd ν ξ → Outcome ν ξ
  | .value v => .returned (some v)
  | .exception x => .raised x
  | .redisError => .abort

inductive Pc (ν ξ : Type)
  | idle
  | replied
  | body
  | exiting (o : Outcome ν ξ)
  | finished (o : Outcome ν ξ)

def Pc.isIdle : Pc ν ξ → Bool
  | .idle => true
  | _ => false

/-- One wrapped call. `token` is the token it received, with the end of the lease taken under
it; the other fields record what the call has done so far. -/
structure Call (τ ν ξ : Type) where
  pc : Pc ν ξ
  token : Option (Entry τ)
  acquireFailed : Bool
  bodyRan : Bool
  bodyEnd : Option (BodyEnd ν ξ)
  releases : List τ

structure State (τ ν ξ : Type) where
  clock : ℕ
  key : Key τ
  issued : List τ
  calls : ℕ → Call τ ν ξ

inductive Event (τ ν ξ : Type)
  | tick (micros : ℕ)
  | evict
  | acquire (c : ℕ) (token : τ)
  | acquireFails (c : ℕ) (token : τ) (applied : Bool)
  | proceed (c : ℕ)
  | bodyEnds (c : ℕ) (r : BodyEnd ν ξ)
  | release (c : ℕ) (failed applied : Bool)

def State.setCall (s : State τ ν ξ) (c : ℕ) (k : Call τ ν ξ) : State τ ν ξ :=
  { s with calls := Function.update s.calls c k }

def State.setKey (s : State τ ν ξ) (k : Key τ) : State τ ν ξ := { s with key := k }

def State.issue (s : State τ ν ξ) (token : τ) : State τ ν ξ :=
  { s with issued := token :: s.issued }

def initial (clock : ℕ) : State τ ν ξ where
  clock := clock
  key := ⟨none, []⟩
  issued := []
  calls _ := ⟨.idle, none, false, false, none, []⟩

/-- One step of one call or of the environment. `uuid4` tokens are never issued twice. -/
def next [DecidableEq τ] (limit ttlSeconds : ℕ) (s : State τ ν ξ) :
    Event τ ν ξ → Option (State τ ν ξ)
  | .tick n => some { s with clock := s.clock + n }
  | .evict => some (s.setKey { s.key with mutex := evict (nowMs s.clock) s.key.mutex })
  | .acquire c token =>
    if (s.calls c).pc.isIdle ∧ token ∉ s.issued then
      let r := acquire limit ttlSeconds s.clock token s.key
      some (((s.issue token).setKey r.2).setCall c
        { s.calls c with
          pc := .replied
          token := r.1.map (fun t => ⟨t, nowMs s.clock + ttlSeconds * 1000⟩) })
    else none
  | .acquireFails c token applied =>
    -- The server may have executed the command although its reply never arrived.
    if (s.calls c).pc.isIdle ∧ token ∉ s.issued then
      let key := if applied then (acquire limit ttlSeconds s.clock token s.key).2 else s.key
      some (((s.issue token).setKey key).setCall c
        { s.calls c with pc := .finished .abort, acquireFailed := true })
    else none
  | .proceed c =>
    match (s.calls c).pc, (s.calls c).token with
    | .replied, none => some (s.setCall c { s.calls c with pc := .finished (.returned none) })
    | .replied, some _ => some (s.setCall c { s.calls c with pc := .body, bodyRan := true })
    | _, _ => none
  | .bodyEnds c r =>
    match (s.calls c).pc with
    | .body => some (s.setCall c
        { s.calls c with pc := .exiting (outcomeOf r), bodyEnd := some r })
    | _ => none
  | .release c failed applied =>
    match (s.calls c).pc, (s.calls c).token with
    | .exiting o, some e =>
      -- A Redis error of the release is logged; the pending outcome stays.
      let key := if failed && !applied then s.key else release limit s.clock e.token s.key
      some ((s.setKey key).setCall c
        { s.calls c with pc := .finished o, releases := (s.calls c).releases ++ [e.token] })
    | _, _ => none

def Call.Ok (k : Call τ ν ξ) : Prop :=
  match k.pc with
  | .idle => k.token = none ∧ k.acquireFailed = false ∧ k.bodyRan = false ∧ k.releases = []
  | .replied => k.acquireFailed = false ∧ k.bodyRan = false ∧ k.releases = []
  | .body => k.token.isSome ∧ k.bodyRan = true ∧ k.releases = []
  | .exiting o => k.token.isSome ∧ k.bodyRan = true ∧ k.releases = [] ∧
      ∃ r, k.bodyEnd = some r ∧ o = outcomeOf r
  | .finished o =>
      (∃ e, k.token = some e ∧ k.bodyRan = true ∧ k.releases = [e.token] ∧
        ∃ r, k.bodyEnd = some r ∧ o = outcomeOf r) ∨
      (k.token = none ∧ k.bodyRan = false ∧ k.releases = [] ∧
        o = if k.acquireFailed then .abort else .returned none)

def Call.inBody (k : Call τ ν ξ) : Prop :=
  match k.pc with
  | .body => True
  | _ => False

theorem Call.Ok.releases_of_inBody {k : Call τ ν ξ} (h : k.Ok) (hb : k.inBody) :
    k.releases = [] := by
  cases hpc : k.pc with
  | body => simp only [Call.Ok, hpc] at h; exact h.2.2
  | _ => simp only [Call.inBody, hpc] at hb

theorem Call.Ok.of_isIdle {k : Call τ ν ξ} (h : k.Ok) (hi : k.pc.isIdle) :
    k.token = none ∧ k.acquireFailed = false ∧ k.bodyRan = false ∧ k.releases = [] := by
  cases hpc : k.pc with
  | idle => simpa only [Call.Ok, hpc] using h
  | _ => simp only [hpc, Pc.isIdle, Bool.false_eq_true] at hi

/-- Leases of calls that have not attempted their release stay on the server while they live. -/
structure Inv (limit : ℕ) (s : State τ ν ξ) : Prop where
  sound : Sound limit (nowMs s.clock) (s.key.leases limit)
  leases_issued : ∀ e ∈ s.key.leases limit, e.token ∈ s.issued
  tokens_issued : ∀ c e, (s.calls c).token = some e → e.token ∈ s.issued
  tokens_distinct : ∀ c d e f, (s.calls c).token = some e → (s.calls d).token = some f →
    e.token = f.token → c = d
  held : ∀ c e, (s.calls c).token = some e → (s.calls c).releases = [] →
    nowMs s.clock < e.expiry → e ∈ s.key.leases limit
  calls_ok : ∀ c, (s.calls c).Ok

theorem inv_initial (clock : ℕ) : Inv limit (initial clock : State τ ν ξ) := by
  have hleases : (initial clock : State τ ν ξ).key.leases limit = [] := by
    simp [initial, Key.leases]
  constructor
  · rw [hleases]; exact sound_nil _ _
  · rw [hleases]; simp
  · intro c e h; cases h
  · intro c d e f h; cases h
  · intro c e h; cases h
  · intro c; exact ⟨rfl, rfl, rfl, rfl⟩

variable {s s' : State τ ν ξ}

theorem Inv.tick (h : Inv limit s) (n : ℕ) : Inv limit { s with clock := s.clock + n } := by
  have hn : nowMs s.clock ≤ nowMs (s.clock + n) := nowMs_mono (Nat.le_add_right _ _)
  refine ⟨h.sound.mono hn, h.leases_issued, h.tokens_issued, h.tokens_distinct, ?_, h.calls_ok⟩
  intro c e he hr hlive
  exact h.held c e he hr (hn.trans_lt hlive)

/-- A change of the key that keeps all live leases keeps the invariant. -/
theorem Inv.setKey (h : Inv limit s) {k : Key τ}
    (hsub : (k.leases limit).Sublist (s.key.leases limit))
    (hlive : live (nowMs s.clock) (k.leases limit) =
      live (nowMs s.clock) (s.key.leases limit)) : Inv limit (s.setKey k) := by
  refine ⟨h.sound.sublist hsub, fun e he => h.leases_issued e (hsub.subset he), h.tokens_issued,
    h.tokens_distinct, ?_, h.calls_ok⟩
  intro c e he hr hl
  have hm : e ∈ live (nowMs s.clock) (k.leases limit) := by
    rw [hlive]
    exact mem_live.2 ⟨h.held c e he hr hl, hl⟩
  exact (mem_live.1 hm).1

theorem Inv.evict (h : Inv limit s) :
    Inv limit (s.setKey { s.key with mutex := evict (nowMs s.clock) s.key.mutex }) := by
  by_cases hl : limit = 1
  · apply h.setKey <;> simp only [Key.leases, if_pos hl]
    · exact evict_sublist _ _
    · exact live_evict _ _
  · apply h.setKey <;> simp only [Key.leases, if_neg hl]
    exact List.Sublist.refl _

theorem Inv.issue (h : Inv limit s) (token : τ) : Inv limit (s.issue token) :=
  ⟨h.sound, fun e he => List.mem_cons_of_mem _ (h.leases_issued e he),
    fun c e he => List.mem_cons_of_mem _ (h.tokens_issued c e he), h.tokens_distinct, h.held,
    h.calls_ok⟩

theorem setCall_calls (s : State τ ν ξ) (c d : ℕ) (k : Call τ ν ξ) :
    (s.setCall c k).calls d = if d = c then k else s.calls d := by
  simp [State.setCall, Function.update_apply]

/-- Moving a call on, with its token and its releases as they were, keeps the invariant. -/
theorem Inv.setCall (h : Inv limit s) {c : ℕ} {k : Call τ ν ξ}
    (ht : k.token = (s.calls c).token) (hr : k.releases = [] → (s.calls c).releases = [])
    (hk : k.Ok) : Inv limit (s.setCall c k) := by
  have htok : ∀ d, ((s.setCall c k).calls d).token = (s.calls d).token := by
    intro d
    rw [setCall_calls]
    split_ifs with hd
    · rw [hd, ht]
    · rfl
  refine ⟨h.sound, h.leases_issued, ?_, ?_, ?_, ?_⟩
  · intro d e he
    exact h.tokens_issued d e (htok d ▸ he)
  · intro d d' e f he hf hef
    exact h.tokens_distinct d d' e f (htok d ▸ he) (htok d' ▸ hf) hef
  · intro d e he hrel hl
    rw [htok] at he
    apply h.held d e he ?_ hl
    rw [setCall_calls] at hrel
    split_ifs at hrel with hd
    · rw [hd]; exact hr hrel
    · exact hrel
  · intro d
    rw [setCall_calls]
    split_ifs
    · exact hk
    · exact h.calls_ok d

/-- A lease granted under a new token, with the call that asked for it: the call has the token,
or the reply was lost and it has none. -/
theorem Inv.grant (h : Inv limit s) {c : ℕ} {token : τ} {k : Key τ} {call : Call τ ν ξ} {ttl : ℕ}
    (hnew : token ∉ s.issued)
    (hg : grant limit (nowMs s.clock) ttl token (s.key.leases limit) = some (k.leases limit))
    (hcall : call.token = none ∨ call.token = some ⟨token, nowMs s.clock + ttl⟩)
    (hk : call.Ok) : Inv limit (((s.issue token).setKey k).setCall c call) := by
  have hne : ∀ e ∈ s.key.leases limit, e.token ≠ token := by
    rintro e he rfl
    exact hnew (h.leases_issued e he)
  have hmem := fun e => mem_of_grant (e := e) hg
  have htok : ∀ d e, ((((s.issue token).setKey k).setCall c call).calls d).token = some e →
      (d = c ∧ e = ⟨token, nowMs s.clock + ttl⟩) ∨ (d ≠ c ∧ (s.calls d).token = some e) := by
    intro d e he
    rw [setCall_calls] at he
    split_ifs at he with hd
    · rcases hcall with hcall | hcall <;> rw [hcall] at he
      · cases he
      · exact Or.inl ⟨hd, (Option.some.inj he).symm⟩
    · exact Or.inr ⟨hd, he⟩
  refine ⟨h.sound.grant hne hg, ?_, ?_, ?_, ?_, ?_⟩
  · intro e he
    rcases (hmem e).1 he with he | rfl
    · exact List.mem_cons_of_mem _ (h.leases_issued e (mem_live.1 he).1)
    · exact List.mem_cons_self
  · intro d e he
    rcases htok d e he with ⟨_, rfl⟩ | ⟨_, he⟩
    · exact List.mem_cons_self
    · exact List.mem_cons_of_mem _ (h.tokens_issued d e he)
  · intro d d' e f he hf hef
    rcases htok d e he with ⟨hd, rfl⟩ | ⟨_, he'⟩ <;>
      rcases htok d' f hf with ⟨hd', rfl⟩ | ⟨_, hf'⟩
    · exact hd.trans hd'.symm
    · exact absurd (h.tokens_issued d' f hf') (hef ▸ hnew)
    · exact absurd (h.tokens_issued d e he') (hef ▸ hnew)
    · exact h.tokens_distinct d d' e f he' hf' hef
  · intro d e he hrel hl
    apply (hmem e).2
    rcases htok d e he with ⟨_, rfl⟩ | ⟨hd, he⟩
    · exact Or.inr rfl
    · rw [setCall_calls, if_neg hd] at hrel
      exact Or.inl (mem_live.2 ⟨h.held d e he hrel hl, hl⟩)
  · intro d
    rw [setCall_calls]
    split_ifs
    · exact hk
    · exact h.calls_ok d

def State.LeaseLives (s : State τ ν ξ) (c : ℕ) : Prop :=
  ∃ e, (s.calls c).token = some e ∧ nowMs s.clock < e.expiry

theorem Inv.running_le (h : Inv limit s) (cs : Finset ℕ)
    (hcs : ∀ c ∈ cs, (s.calls c).inBody ∧ s.LeaseLives c) : cs.card ≤ limit := by
  apply h.sound.card_le cs (fun c e => (s.calls c).token = some e)
  · intro c hc
    obtain ⟨hbody, e, he, hlive⟩ := hcs c hc
    have hrel := (h.calls_ok c).releases_of_inBody hbody
    exact ⟨e, mem_live.2 ⟨h.held c e he hrel hlive, hlive⟩, he⟩
  · exact h.tokens_distinct

variable [DecidableEq τ]

/-- The release attempted by a call, which may fail to reach the server. -/
theorem Inv.release (h : Inv limit s) {c : ℕ} {e : Entry τ} {call : Call τ ν ξ} {k : Key τ}
    (he : (s.calls c).token = some e)
    (hkey : k = s.key ∨ k = release limit s.clock e.token s.key)
    (htok : call.token = some e) (hrel : call.releases ≠ []) (hk : call.Ok) :
    Inv limit ((s.setKey k).setCall c call) := by
  obtain ⟨hsub, hlive⟩ : (k.leases limit).Sublist (s.key.leases limit) ∧
      ∀ f ∈ s.key.leases limit, nowMs s.clock < f.expiry → f.token ≠ e.token →
        f ∈ k.leases limit := by
    rcases hkey with rfl | rfl
    · exact ⟨List.Sublist.refl _, fun f hf _ _ => hf⟩
    · obtain ⟨hs, hl⟩ := release_spec limit s.clock e.token s.key
      refine ⟨hs, fun f hf hlt hne => ?_⟩
      have hm : f ∈ live (nowMs s.clock) (revoke e.token (s.key.leases limit)) := by
        rw [mem_live, mem_revoke]
        exact ⟨⟨hf, hne⟩, hlt⟩
      rw [← hl] at hm
      exact (mem_live.1 hm).1
  have htoken : ∀ d, (((s.setKey k).setCall c call).calls d).token = (s.calls d).token := by
    intro d
    rw [setCall_calls]
    split_ifs with hd
    · rw [hd, he, htok]
    · rfl
  refine ⟨h.sound.sublist hsub, fun f hf => h.leases_issued f (hsub.subset hf), ?_, ?_, ?_, ?_⟩
  · intro d f hf
    exact h.tokens_issued d f (htoken d ▸ hf)
  · intro d d' f g hf hg hfg
    exact h.tokens_distinct d d' f g (htoken d ▸ hf) (htoken d' ▸ hg) hfg
  · intro d f hf hr hl
    rw [htoken] at hf
    rw [setCall_calls] at hr
    split_ifs at hr with hd
    · exact absurd hr hrel
    · apply hlive f (h.held d f hf hr hl) hl
      intro hfe
      exact hd (h.tokens_distinct d c f e hf he hfe)
  · intro d
    rw [setCall_calls]
    split_ifs
    · exact hk
    · exact h.calls_ok d

theorem inv_acquire (ttlSeconds : ℕ) (h : Inv limit s) {c : ℕ} {token : τ} (hnew : token ∉ s.issued)
    (call : Option τ → Call τ ν ξ)
    (htok : ∀ o, (call o).token = none ∨
      (call o).token = o.map (fun t => ⟨t, nowMs s.clock + ttlSeconds * 1000⟩))
    (hrel : (s.calls c).releases = []) (hc : (s.calls c).token = none)
    (hk : ∀ o, (call o).Ok) :
    Inv limit (((s.issue token).setKey (acquire limit ttlSeconds s.clock token s.key).2).setCall c
      (call (acquire limit ttlSeconds s.clock token s.key).1)) := by
  have hne : ∀ e ∈ s.key.leases limit, e.token ≠ token := by
    rintro e he rfl
    exact hnew (h.leases_issued e he)
  rcases acquire_spec limit ttlSeconds s.clock token s.key hne with ⟨hr, hg⟩ | ⟨hr, hsub, hlive⟩
  · apply h.grant hnew hg _ (hk _)
    simpa only [hr, Option.map_some] using htok (some token)
  · apply ((h.issue token).setKey hsub hlive).setCall _ (fun _ => hrel) (hk _)
    rw [hr]
    change (call none).token = (s.calls c).token
    rcases htok none with ht | ht <;> rw [ht, hc]
    rfl

theorem acquire_cases {c : ℕ} {token : τ}
    (he : next limit ttlSeconds s (.acquire c token) = some s') :
    (s.calls c).pc.isIdle ∧ token ∉ s.issued ∧
      s' = ((s.issue token).setKey (acquire limit ttlSeconds s.clock token s.key).2).setCall c
        { s.calls c with
          pc := .replied
          token := (acquire limit ttlSeconds s.clock token s.key).1.map
            (fun t => ⟨t, nowMs s.clock + ttlSeconds * 1000⟩) } := by
  simp only [next] at he
  split_ifs at he with hg
  exact ⟨hg.1, hg.2, (Option.some.inj he).symm⟩

theorem acquireFails_cases {c : ℕ} {token : τ} {applied : Bool}
    (he : next limit ttlSeconds s (.acquireFails c token applied) = some s') :
    (s.calls c).pc.isIdle ∧ token ∉ s.issued ∧
      s' = ((s.issue token).setKey
        (if applied then (acquire limit ttlSeconds s.clock token s.key).2 else s.key)).setCall c
        { s.calls c with pc := .finished .abort, acquireFailed := true } := by
  simp only [next] at he
  split at he
  case isTrue hg => exact ⟨hg.1, hg.2, (Option.some.inj he).symm⟩
  case isFalse => cases he

theorem proceed_cases {c : ℕ} (he : next limit ttlSeconds s (.proceed c) = some s') :
    (s.calls c).pc = .replied ∧
      (((s.calls c).token = none ∧
        s' = s.setCall c { s.calls c with pc := .finished (.returned none) }) ∨
      ((s.calls c).token.isSome ∧
        s' = s.setCall c { s.calls c with pc := .body, bodyRan := true })) := by
  simp only [next] at he
  split at he
  · next hpc ht => exact ⟨hpc, Or.inl ⟨ht, (Option.some.inj he).symm⟩⟩
  · next hpc ht => exact ⟨hpc, Or.inr ⟨by rw [ht]; rfl, (Option.some.inj he).symm⟩⟩
  · cases he

theorem bodyEnds_cases {c : ℕ} {r : BodyEnd ν ξ}
    (he : next limit ttlSeconds s (.bodyEnds c r) = some s') :
    (s.calls c).pc = .body ∧
      s' = s.setCall c { s.calls c with pc := .exiting (outcomeOf r), bodyEnd := some r } := by
  simp only [next] at he
  split at he
  · next hpc => exact ⟨hpc, (Option.some.inj he).symm⟩
  · cases he

theorem release_cases {c : ℕ} {failed applied : Bool}
    (he : next limit ttlSeconds s (.release c failed applied) = some s') :
    ∃ o e k, (s.calls c).pc = .exiting o ∧ (s.calls c).token = some e ∧
      (k = s.key ∨ k = release limit s.clock e.token s.key) ∧
      s' = (s.setKey k).setCall c
        { s.calls c with pc := .finished o, releases := (s.calls c).releases ++ [e.token] } := by
  simp only [next] at he
  split at he
  · next o e hpc ht =>
    refine ⟨o, e, _, hpc, ht, ?_, (Option.some.inj he).symm⟩
    split_ifs
    · exact Or.inl rfl
    · exact Or.inr rfl
  · cases he

/-- Every step of every call and of the environment keeps the invariant. -/
theorem inv_next (h : Inv limit s) {ev : Event τ ν ξ}
    (he : next limit ttlSeconds s ev = some s') : Inv limit s' := by
  cases ev with
  | tick n =>
      obtain rfl := Option.some.inj he
      exact h.tick n
  | evict =>
      obtain rfl := Option.some.inj he
      exact h.evict
  | acquire c token =>
      obtain ⟨hidle, hnew, rfl⟩ := acquire_cases he
      obtain ⟨ht, haf, hb, hr⟩ := (h.calls_ok c).of_isIdle hidle
      exact inv_acquire ttlSeconds h hnew (fun o => { s.calls c with
        pc := .replied
        token := o.map (fun t => ⟨t, nowMs s.clock + ttlSeconds * 1000⟩) })
        (fun _ => Or.inr rfl) hr ht (fun _ => ⟨haf, hb, hr⟩)
  | acquireFails c token applied =>
      obtain ⟨hidle, hnew, rfl⟩ := acquireFails_cases he
      obtain ⟨ht, haf, hb, hr⟩ := (h.calls_ok c).of_isIdle hidle
      have hk : Call.Ok { s.calls c with pc := .finished .abort, acquireFailed := true } :=
        Or.inr ⟨ht, hb, hr, rfl⟩
      cases applied with
      | true =>
          rw [if_pos rfl]
          exact inv_acquire ttlSeconds h hnew
            (fun _ => { s.calls c with pc := .finished .abort, acquireFailed := true })
            (fun _ => Or.inl ht) hr ht (fun _ => hk)
      | false =>
          exact ((h.issue token).setKey (List.Sublist.refl _) rfl).setCall rfl (fun _ => hr) hk
  | proceed c =>
      have hok := h.calls_ok c
      obtain ⟨hpc, ⟨ht, rfl⟩ | ⟨ht, rfl⟩⟩ := proceed_cases he <;>
        simp only [Call.Ok, hpc] at hok <;> obtain ⟨haf, hb, hr⟩ := hok
      · exact h.setCall rfl (fun _ => hr) (Or.inr ⟨ht, hb, hr, by simp [haf]⟩)
      · exact h.setCall rfl (fun _ => hr) ⟨ht, rfl, hr⟩
  | bodyEnds c r =>
      have hok := h.calls_ok c
      obtain ⟨hpc, rfl⟩ := bodyEnds_cases he
      simp only [Call.Ok, hpc] at hok
      obtain ⟨ht, hb, hr⟩ := hok
      exact h.setCall rfl (fun _ => hr) ⟨ht, hb, hr, r, rfl, rfl⟩
  | release c failed applied =>
      have hok := h.calls_ok c
      obtain ⟨o, e, k, hpc, ht, hkey, rfl⟩ := release_cases he
      simp only [Call.Ok, hpc] at hok
      obtain ⟨_, hb, hr, hend⟩ := hok
      exact h.release ht hkey ht (by simp) (Or.inl ⟨e, ht, hb, by simp [hr], hend⟩)

theorem inv_of_run {clock : ℕ} (hr : Run (next limit ttlSeconds) (initial clock) s) :
    Inv limit s :=
  Run.invariant hr (inv_initial clock) (fun _ _ _ h he => inv_next h he)

/-- The decorator refuses a limit below one; otherwise its calls take the steps of `next`. -/
def concurrency (limit ttlSeconds : ℕ) :
    Except String (State τ ν ξ → Event τ ν ξ → Option (State τ ν ξ)) :=
  if limit < 1 then .error "limit must be >= 1" else .ok (next limit ttlSeconds)

/-- A release leaves every lease of another token that is still running. -/
theorem release_keeps (c : ℕ) (failed applied : Bool)
    (he : next limit ttlSeconds s (.release c failed applied) = some s') (e : Entry τ)
    (hm : e ∈ s.key.leases limit) (hlive : nowMs s.clock < e.expiry)
    (hne : ∀ own, (s.calls c).token = some own → e.token ≠ own.token) :
    e ∈ s'.key.leases limit := by
  obtain ⟨o, own, k, _, ht, rfl | rfl, rfl⟩ := release_cases he
  · exact hm
  · obtain ⟨_, hl⟩ := release_spec limit s.clock own.token s.key
    have hlv : e ∈ live (nowMs s.clock) (revoke own.token (s.key.leases limit)) := by
      rw [mem_live, mem_revoke]
      exact ⟨⟨hm, hne own ht⟩, hlive⟩
    rw [← hl] at hlv
    exact (mem_live.1 hlv).1

/-- At every moment at most `limit` bodies run under a live lease; no release removes a live
lease of another token; a call runs its body exactly if it received a token, and otherwise
returns `None` unless its own acquire command failed; and a call that received a token ends,
in whichever way its body ended, after exactly one attempt to release that token. -/
theorem concurrency_safe {clock : ℕ} {step : State τ ν ξ → Event τ ν ξ → Option (State τ ν ξ)}
    (hstep : concurrency limit ttlSeconds = .ok step) (hr : Run step (initial clock) s) :
    (∀ cs : Finset ℕ, (∀ c ∈ cs, (s.calls c).inBody ∧ s.LeaseLives c) → cs.card ≤ limit) ∧
    (∀ c failed applied s', step s (.release c failed applied) = some s' →
      ∀ e ∈ s.key.leases limit, nowMs s.clock < e.expiry →
      (∀ own, (s.calls c).token = some own → e.token ≠ own.token) → e ∈ s'.key.leases limit) ∧
    (∀ c, (s.calls c).bodyRan = true → (s.calls c).token.isSome) ∧
    (∀ c o, (s.calls c).pc = .finished o →
      ((s.calls c).bodyRan = true ↔ (s.calls c).token.isSome) ∧
      ((s.calls c).token = none → (s.calls c).acquireFailed = false → o = .returned none)) ∧
    (∀ c o e, (s.calls c).pc = .finished o → (s.calls c).token = some e →
      (s.calls c).releases = [e.token] ∧
      ∃ r, (s.calls c).bodyEnd = some r ∧ o = outcomeOf r) := by
  unfold concurrency at hstep
  split_ifs at hstep
  obtain rfl := Except.ok.inj hstep
  have h := inv_of_run hr
  refine ⟨h.running_le, fun c failed applied s' he e hm hl hne =>
    release_keeps c failed applied he e hm hl hne, ?_, ?_, ?_⟩
  · intro c hb
    have hok := h.calls_ok c
    cases hpc : (s.calls c).pc with
    | finished o =>
        simp only [Call.Ok, hpc] at hok
        rcases hok with ⟨e, ht, _⟩ | ⟨_, hnb, _⟩
        · simp [ht]
        · simp [hnb] at hb
    | _ => simp_all [Call.Ok]
  · intro c o hpc
    have hok := h.calls_ok c
    simp only [Call.Ok, hpc] at hok
    rcases hok with ⟨e, ht, hb, _⟩ | ⟨ht, hb, _, ho⟩
    · exact ⟨by simp [ht, hb], by simp [ht]⟩
    · refine ⟨by simp [ht, hb], fun _ hf => ?_⟩
      simpa [hf] using ho
  · intro c o e hpc ht
    have hok := h.calls_ok c
    simp only [Call.Ok, hpc] at hok
    rcases hok with ⟨e', ht', _, hr, hend⟩ | ⟨ht', _⟩
    · obtain rfl := Option.some.inj (ht.symm.trans ht')
      exact ⟨hr, hend⟩
    · simp [ht] at ht'

/-- Call `0` outlives its lease of one second, call `1` takes over, then call `0` releases. -/
def takeover : List (Event ℕ ℕ ℕ) :=
  [.acquire 0 10, .proceed 0, .tick 2000000, .acquire 1 11, .proceed 1,
    .bodyEnds 0 (.value 7), .release 0 false false]

def takeoverEnd : State ℕ ℕ ℕ := (exec (next 1 1) (initial 0) takeover).get rfl

theorem concurrency_safe_takeover :
    takeoverEnd.key.leases 1 = [⟨11, 3000⟩] ∧ (takeoverEnd.calls 0).releases = [10] ∧
      (∀ cs : Finset ℕ, (∀ c ∈ cs, (takeoverEnd.calls c).inBody ∧ takeoverEnd.LeaseLives c) →
        cs.card ≤ 1) :=
  ⟨rfl, rfl, (concurrency_safe rfl (run_of_exec (exec_get _ rfl))).1⟩

end SimplyTransport.Concurrency
