/-
The connection that the operations of one Redis store share: each clones the cached connection or
opens one and caches it, sends its command, and empties the cache when the command fails. An
operation is the await it waits at; the operations of a store go on in any order, any of them may be
dropped at an await. Seen through the connection alone, both stores are clients of a shared slot.
-/
import WorldInfra.Lib.SharedHandle
import WorldInfra.Idempotency.Basic
import WorldInfra.Refresh.Basic

namespace WorldInfra.Redis

open WorldInfra.Lib WorldInfra.Rust

/-- `redis::RedisError`: its text and `is_connection_dropped`. -/
structure Failure where
  text : Str
  isConnectionDropped : Bool
  deriving DecidableEq, Repr

/-- What comes out of `tokio::time::timeout` around a call to Redis. -/
inductive Timed (α : Type) where
  | elapsed
  | ready (result : Except Failure α)

/-- What an operation sees at the await it waits at: it is started or granted the lock it waits for,
the attempt to connect ends, the reply to its command comes, or its caller drops it. -/
inductive Wake (α : Type) where
  | granted
  | connected (result : Timed Unit)
  | replied (result : Timed α)
  | dropped

/-- The cached connection; connections are numbered in the order they are opened. -/
structure Cache where
  conn : Option Nat
  opened : Nat
  deriving DecidableEq, Repr

/-- A store's cache with its operations, `Op` being the awaits of one operation. -/
structure Connections (Op : Type) where
  cache : Cache
  operations : Nat → Op

namespace Connections

variable {α Op : Type} (resume : Cache → Op → Wake α → Cache × Op)

/-- Operation `i` goes on from its await. -/
def step (s : Connections Op) (i : Nat) (w : Wake α) : Connections Op :=
  { cache := (resume s.cache (s.operations i) w).1,
    operations := Function.update s.operations i (resume s.cache (s.operations i) w).2 }

def run (s : Connections Op) (l : List (Nat × Wake α)) : Connections Op :=
  l.foldl (fun s e => s.step resume e.1 e.2) s

@[simp] theorem run_nil (s : Connections Op) : s.run resume [] = s := rfl

@[simp] theorem run_cons (s : Connections Op) (e : Nat × Wake α) (l : List (Nat × Wake α)) :
    s.run resume (e :: l) = (s.step resume e.1 e.2).run resume l := rfl

theorem run_append (s : Connections Op) (l m : List (Nat × Wake α)) :
    s.run resume (l ++ m) = (s.run resume l).run resume m := List.foldl_append

theorem step_operations_ne (s : Connections Op) {i j : Nat} (w : Wake α) (h : j ≠ i) :
    (s.step resume i w).operations j = s.operations j := Function.update_of_ne h _ _

theorem step_operations_self (s : Connections Op) (i : Nat) (w : Wake α) :
    (s.step resume i w).operations i = (resume s.cache (s.operations i) w).2 := Function.update_self i _ _

/-! ## The shared slot -/

variable (phase : Op → SharedHandle.Phase)

/-- The store as clients of a slot, where `phase` says what an operation has of a connection. -/
def view (s : Connections Op) : SharedHandle Nat where
  slot := s.cache.conn
  made := s.cache.opened
  phase i := phase (s.operations i)

/-- The actions of a client that an operation's step amounts to. -/
def Follows : Prop :=
  ∀ (s : Connections Op) (i : Nat) (w : Wake α),
    ∃ as : List SharedHandle.Action, (s.step resume i w).view phase = (s.view phase).run (as.map (i, ·))

variable {resume phase}

theorem view_step (s : Connections Op) (i : Nat) (w : Wake α) :
    (s.step resume i w).view phase = ⟨(resume s.cache (s.operations i) w).1.conn,
      (resume s.cache (s.operations i) w).1.opened,
      Function.update (s.view phase).phase i (phase (resume s.cache (s.operations i) w).2)⟩ := by
  simp only [step, view]
  congr 1
  funext j
  by_cases hj : j = i
  · rw [hj, Function.update_self, Function.update_self]
  · rw [Function.update_of_ne hj, Function.update_of_ne hj]

/-- It is enough to look at one operation and the cache. -/
theorem follows_of (actions : Op → Wake α → List SharedHandle.Action)
    (h : ∀ (i : Nat) (op : Op) (w : Wake α) (cache : Cache) (s : SharedHandle Nat), s.slot = cache.conn →
      s.made = cache.opened → s.phase i = phase op →
      s.run ((actions op w).map (i, ·)) = ⟨(resume cache op w).1.conn, (resume cache op w).1.opened,
        Function.update s.phase i (phase (resume cache op w).2)⟩) :
    Follows resume phase := by
  intro s i w
  refine ⟨actions (s.operations i) w, ?_⟩
  rw [view_step, h i (s.operations i) w s.cache (s.view phase) rfl rfl rfl]

theorem Follows.exists_run (hf : Follows resume phase) : ∀ (s : Connections Op) (l : List (Nat × Wake α)),
    ∃ as, (s.run resume l).view phase = (s.view phase).run as
  | _, [] => ⟨[], rfl⟩
  | s, e :: l => by
    obtain ⟨as, has⟩ := hf s e.1 e.2
    obtain ⟨bs, hbs⟩ := hf.exists_run (s.step resume e.1 e.2) l
    refine ⟨as.map (e.1, ·) ++ bs, ?_⟩
    rw [run_cons, hbs, has]
    exact (List.foldl_append ..).symm

theorem Follows.sound (hf : Follows resume phase) {s : Connections Op} (l : List (Nat × Wake α))
    (hs : (s.view phase).Sound) : ((s.run resume l).view phase).Sound := by
  obtain ⟨as, has⟩ := hf.exists_run s l
  rw [has]
  exact hs.run as

theorem Follows.retired_run (hf : Follows resume phase) {s : Connections Op} {conn : Nat} (l : List (Nat × Wake α))
    (hr : (s.view phase).Retired conn) : ((s.run resume l).view phase).Retired conn := by
  obtain ⟨as, has⟩ := hf.exists_run s l
  rw [has]
  exact hr.run as

/-- A retired connection stays out of the cache, and nobody new comes to use it. -/
theorem Follows.retired (hf : Follows resume phase) {s : Connections Op} {conn : Nat} (l : List (Nat × Wake α))
    (hr : (s.view phase).Retired conn) :
    (s.run resume l).cache.conn ≠ some conn ∧
      ∀ j, phase ((s.run resume l).operations j) = .holding conn → phase (s.operations j) = .holding conn := by
  refine ⟨(hf.retired_run l hr).slot, fun j hj => ?_⟩
  obtain ⟨as, has⟩ := hf.exists_run s l
  refine hr.holding_run as (d := j) ?_
  rw [← has]
  exact hj

end Connections

end WorldInfra.Redis
