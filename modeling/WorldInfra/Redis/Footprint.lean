/-
The keys a command touches: every command on one key stays within any set that holds the key, and
so does what is composed of such commands, in a script or in a transaction.
-/
import WorldInfra.Lib.Footprint
import WorldInfra.Redis.Keyspace

namespace WorldInfra.Redis

open WorldInfra.Lib WorldInfra.Rust

/-- What follows a command, by its result: after an error the rest is left out. -/
def andThen {α β : Type} (f : α → Command β) (now : Int) : Except RedisError α → Db → Except RedisError β × Db
  | .ok a => f a now
  | .error e => fun db => (.error e, db)

/-- The result of a transaction, from its first command's and the rest's. -/
def firstError (r rs : Except RedisError Unit) : Except RedisError Unit :=
  match r with
  | .ok () => rs
  | .error e => .error e

/-- A command that at every time stays within a set of keys. -/
def Confined {α : Type} (ks : Set Bytes) (x : Command α) : Prop := ∀ now, Within ks (x now)

namespace Confined

variable {α β : Type} {ks : Set Bytes} {key : Bytes}

theorem pure (a : α) : Confined ks (pure a) := fun _ => .pure _

theorem fail (e : RedisError) : Confined ks (fail e : Command α) := fun _ => .pure _

theorem bind {x : Command α} {f : α → Command β} (hx : Confined ks x) (hf : ∀ a, Confined ks (f a)) :
    Confined ks (x >>= f) := by
  intro now
  have hnext : ∀ r, Within ks (andThen f now r) := by
    intro r
    cases r with
    | ok a => exact hf a now
    | error e => exact .pure _
  have hbind : (x >>= f) now = fun db => andThen f now (x now db).1 (x now db).2 := by
    funext db
    rw [bind_apply]
    rcases x now db with ⟨e | a, db'⟩ <;> rfl
  rw [hbind]
  exact (hx now).bind hnext

theorem discard {x : Command α} (hx : Confined ks x) : Confined ks (discard x) := hx.bind fun _ => .pure _

theorem transaction : ∀ {cs : List (Command Unit)}, (∀ c ∈ cs, Confined ks c) → Confined ks (transaction cs)
  | [], _ => .pure ()
  | c :: cs, h => by
    intro now
    have hrest := transaction fun c' hc' => h c' (List.mem_cons_of_mem _ hc')
    have hfirst := h c (List.mem_cons_self ..)
    exact (hfirst now).bind fun r => (hrest now).map (firstError r)

theorem lookup (hk : key ∈ ks) : Confined ks (lookup key) := by
  intro now
  apply Within.read
  intro m n h
  rw [live_congr (h key hk)]

theorem store (hk : key ∈ ks) (e : Stored) : Confined ks (store key e) := fun _ => .insert hk e _

theorem exists' (hk : key ∈ ks) : Confined ks (exists' key) := (lookup hk).bind fun _ => .pure _

theorem del (hk : key ∈ ks) : Confined ks (del key) := by
  intro now
  apply Within.remove hk
  intro m n h
  rw [live_congr (h key hk)]

theorem hget (hk : key ∈ ks) (field : Bytes) : Confined ks (hget key field) := by
  refine (lookup hk).bind fun e => ?_
  rcases e with _ | ⟨s | fields, t⟩
  · exact .pure _
  · exact .fail _
  · exact .pure _

theorem hgetall (hk : key ∈ ks) : Confined ks (hgetall key) := by
  refine (lookup hk).bind fun e => ?_
  rcases e with _ | ⟨s | fields, t⟩
  · exact .pure _
  · exact .fail _
  · exact .pure _

theorem hset (hk : key ∈ ks) (fields : List (Bytes × Bytes)) : Confined ks (hset key fields) := by
  refine (lookup hk).bind fun e => ?_
  rcases e with _ | ⟨s | old, t⟩
  · exact .store hk _
  · exact .fail _
  · exact .store hk _

theorem pexpire (hk : key ∈ ks) (millis : Nat) : Confined ks (pexpire key millis) := by
  intro now
  unfold Redis.pexpire
  rcases deadline now millis with e | t
  · exact fail e now
  · refine Confined.bind (lookup hk) (fun e => ?_) now
    cases e with
    | none => exact .pure _
    | some e => exact (store hk _).bind fun _ => .pure _

theorem expire (hk : key ∈ ks) (secs : Nat) : Confined ks (expire key secs) := pexpire hk _

theorem luaNumber (n : Nat) : Confined ks (luaNumber n) := by
  unfold Redis.luaNumber
  split
  · exact .pure _
  · exact .fail _

end Confined

end WorldInfra.Redis
