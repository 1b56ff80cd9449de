import SimplyTransport.Glob
import SimplyTransport.Transition

/-!
# Deletion by patterns in a shared database

A task looks up the keys that match its pattern and then deletes them. The tasks of one call run
concurrently, and other clients write keys in between. A key that no pattern matches has the
value that the other clients give it.
-/

namespace SimplyTransport
open Glob Transition

structure Redis (ν : Type) where
  entries : List (String × ν)
  nodup : (entries.map Prod.fst).Nodup

namespace Redis

variable {ν : Type}

def get (db : Redis ν) (key : String) : Option ν :=
  (db.entries.find? (fun e => e.1 = key)).map Prod.snd

def keys (db : Redis ν) (pattern : String) : List String :=
  (db.entries.map Prod.fst).filter (globMatches pattern)

def delete (db : Redis ν) (keys : List String) : Redis ν where
  entries := db.entries.filter (fun e => e.1 ∉ keys)
  nodup := db.nodup.sublist (List.filter_sublist.map Prod.fst)

def set (db : Redis ν) (key : String) (value : ν) : Redis ν where
  entries := (key, value) :: (db.delete [key]).entries
  nodup := by
    rw [List.map_cons, List.nodup_cons]
    refine ⟨fun h => ?_, (db.delete [key]).nodup⟩
    obtain ⟨e, he, hkey⟩ := List.mem_map.1 h
    have hnot := (List.mem_filter.1 he).2
    simp only [hkey, List.mem_singleton, not_true, decide_false, Bool.false_eq_true] at hnot

def write (db : Redis ν) (key : String) (value : Option ν) : Redis ν :=
  match value with
  | none => db.delete [key]
  | some v => db.set key v

def writes (db : Redis ν) (ws : List (String × Option ν)) : Redis ν :=
  ws.foldl (fun db w => db.write w.1 w.2) db

theorem get_delete (db : Redis ν) (ks : List String) (key : String) :
    (db.delete ks).get key = if key ∈ ks then none else db.get key := by
  rw [get, delete, List.find?_filter]
  split_ifs with h
  · rw [List.find?_eq_none.2, Option.map_none]
    rintro e _ he
    simp only [decide_eq_true_eq] at he
    exact he.1 (he.2 ▸ h)
  · rw [get]
    congr 2
    funext e
    by_cases he : e.1 = key
    · simp only [he, h, not_false_eq_true, decide_true, and_self]
    · simp only [he, decide_false, Bool.false_eq_true, and_false]

theorem get_write (db : Redis ν) (key key' : String) (value : Option ν) :
    (db.write key value).get key' = if key' = key then value else db.get key' := by
  cases value with
  | none =>
      rw [write, get_delete]
      simp only [List.mem_singleton]
  | some v =>
      have hget : (db.set key v).get key' =
          if key = key' then some v else (db.delete [key]).get key' := by
        rw [get, set, List.find?_cons]
        split_ifs with h
        · simp only [h, decide_true, Option.map_some]
        · simp only [h, decide_false, get]
      rw [write, hget, get_delete]
      simp only [List.mem_singleton, eq_comm (a := key)]
      split_ifs <;> rfl

theorem mem_keys {db : Redis ν} {pattern key : String} (h : key ∈ db.keys pattern) :
    globMatches pattern key = true := (List.mem_filter.1 h).2

theorem get_eq_none {db : Redis ν} {key : String} (h : key ∉ db.entries.map Prod.fst) :
    db.get key = none := by
  rw [get, List.find?_eq_none.2, Option.map_none]
  intro e he hkey
  rw [decide_eq_true_eq] at hkey
  exact h (hkey ▸ List.mem_map_of_mem he)

theorem keys_all (db : Redis ν) : db.keys "*" = db.entries.map Prod.fst :=
  List.filter_eq_self.2 (fun key _ => glob_all key.toList)

theorem get_delete_all (db : Redis ν) (key : String) : (db.delete (db.keys "*")).get key = none := by
  rw [get_delete, keys_all]
  split_ifs with h
  · rfl
  · exact get_eq_none h

end Redis

namespace DeleteKeys

/-- One `delete_keys_by_pattern`: it has yet to look its keys up, or to delete what it found. -/
inductive Task
  | ready (pattern : String)
  | found (keys : List String)
  | done

structure State (ν : Type) where
  redis : Redis ν
  tasks : List Task

inductive Event (ν : Type)
  | keys (task : ℕ)
  | delete (task : ℕ)
  | write (key : String) (value : Option ν)

variable {ν : Type}

def start (patterns : List String) (db : Redis ν) : State ν := ⟨db, patterns.map .ready⟩

def next (s : State ν) : Event ν → Option (State ν)
  | .keys i =>
    match s.tasks[i]? with
    | some (.ready pattern) =>
      some { s with tasks := s.tasks.set i (.found (s.redis.keys pattern)) }
    | _ => none
  | .delete i =>
    match s.tasks[i]? with
    | some (.found keys) => some {
        redis := if keys.isEmpty then s.redis else s.redis.delete keys
        tasks := s.tasks.set i .done }
    | _ => none
  | .write key value => some { s with redis := s.redis.write key value }

def Event.write? : Event ν → Option (String × Option ν)
  | .write key value => some (key, value)
  | _ => none

def Task.Spares (key : String) : Task → Prop
  | .ready pattern => globMatches pattern key = false
  | .found keys => key ∉ keys
  | .done => True

variable {s t : State ν} {e : Event ν} {key : String}

theorem spares_set {tasks : List Task} {i : ℕ} {task : Task} (h : ∀ a ∈ tasks, a.Spares key)
    (htask : task.Spares key) : ∀ a ∈ tasks.set i task, a.Spares key := by
  intro a ha
  rcases List.mem_or_eq_of_mem_set ha with ha | rfl
  · exact h a ha
  · exact htask

/-- A step changes a spared key only where another client writes it, and it stays spared. -/
theorem next_spares (hs : ∀ a ∈ s.tasks, a.Spares key) (he : next s e = some t) :
    (∀ a ∈ t.tasks, a.Spares key) ∧
      t.redis.get key = (s.redis.writes e.write?.toList).get key := by
  cases e with
  | keys i =>
      simp only [next] at he
      split at he
      next pattern hi =>
        obtain rfl := Option.some.inj he
        have hpattern := hs _ (List.mem_of_getElem? hi)
        refine ⟨spares_set hs (fun hmem => ?_), rfl⟩
        exact Bool.false_ne_true (hpattern.symm.trans (Redis.mem_keys hmem))
      · cases he
  | delete i =>
      simp only [next] at he
      split at he
      next keys hi =>
        obtain rfl := Option.some.inj he
        have hnot : key ∉ keys := hs _ (List.mem_of_getElem? hi)
        refine ⟨spares_set hs trivial, ?_⟩
        dsimp only
        split_ifs
        · rfl
        · rw [Redis.get_delete, if_neg hnot]
          rfl
      · cases he
  | write key' value =>
      obtain rfl := Option.some.inj he
      exact ⟨hs, rfl⟩

theorem get_writes_congr {db db' : Redis ν} (ws : List (String × Option ν))
    (h : db.get key = db'.get key) : (db.writes ws).get key = (db'.writes ws).get key := by
  induction ws generalizing db db' with
  | nil => exact h
  | cons w ws ih =>
      apply ih
      rw [Redis.get_write, Redis.get_write, h]

/-- In every run a spared key has the value that the other clients alone give it. -/
theorem exec_spares {events : List (Event ν)} (hs : ∀ a ∈ s.tasks, a.Spares key)
    (h : exec next s events = some t) :
    t.redis.get key = (s.redis.writes (events.filterMap Event.write?)).get key := by
  induction events generalizing s with
  | nil =>
      obtain rfl := Option.some.inj h
      rfl
  | cons e events ih =>
      rw [exec_cons] at h
      obtain ⟨u, hu, ht⟩ := Option.bind_eq_some_iff.1 h
      obtain ⟨hspares, hget⟩ := next_spares hs hu
      rw [ih hspares ht, get_writes_congr _ hget, List.filterMap_cons]
      cases e.write? with
      | none => rfl
      | some w => rfl

end DeleteKeys

end SimplyTransport
