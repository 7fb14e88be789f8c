/-
world-test-lite: guards that set environment variables and restore them when they are dropped. Whenever no guard of
a variable is alive, the variable has the value it had before the first; a value that is no text is lost.
-/
import WorldInfra.Lib.Machine
import WorldInfra.Lib.UndoLog
import WorldInfra.Rust.Text

namespace WorldInfra.TestLite

open WorldInfra.Lib WorldInfra.Rust

/-! ## The process environment -/

/-- A name `env::set_var` and `env::remove_var` take; they panic on others. -/
structure VarName where
  text : Str
  valid : text ≠ [] ∧ '=' ∉ text ∧ '\x00' ∉ text
  deriving DecidableEq

/-- A value `env::set_var` takes; it panics on others. -/
structure VarText where
  text : Str
  valid : '\x00' ∉ text
  deriving DecidableEq

/-- `OsString`: a text, or bytes that are none. -/
inductive OsString where
  | unicode (value : VarText)
  | other (bytes : List UInt8)
  deriving DecidableEq

abbrev Environment : Type := VarName → Option OsString

namespace Environment

/-- `env::var(key).ok()`. -/
def var (env : Environment) (key : VarName) : Option VarText :=
  match env key with
  | some (.unicode value) => some value
  | _ => none

def setVar (env : Environment) (key : VarName) (value : VarText) : Environment :=
  Function.update env key (some (.unicode value))

def removeVar (env : Environment) (key : VarName) : Environment := Function.update env key none

end Environment

/-! ## Guards -/

structure EnvVarGuard where
  key : VarName
  previous : Option VarText

structure EnvVarGuards where
  guards : List EnvVarGuard

namespace EnvVarGuard

def set (key : VarName) (value : VarText) (env : Environment) : EnvVarGuard × Environment :=
  (⟨key, env.var key⟩, env.setVar key value)

def remove (key : VarName) (env : Environment) : EnvVarGuard × Environment := (⟨key, env.var key⟩, env.removeVar key)

def setOptional (key : VarName) (value : Option VarText) (env : Environment) : EnvVarGuard × Environment :=
  match value with
  | some value => set key value env
  | none => remove key env

/-- The closure of `set_many` over its items. -/
def setEach : List (VarName × Option VarText) → Environment → List EnvVarGuard × Environment
  | [], env => ([], env)
  | item :: items, env =>
    let first := setOptional item.1 item.2 env
    let rest := setEach items first.2
    (first.1 :: rest.1, rest.2)

def setMany (items : List (VarName × Option VarText)) (env : Environment) : EnvVarGuards × Environment :=
  let made := setEach items env
  (⟨made.1⟩, made.2)

/-- `Drop::drop`. -/
def drop (self : EnvVarGuard) (env : Environment) : Environment :=
  match self.previous with
  | some previous => env.setVar self.key previous
  | none => env.removeVar self.key

end EnvVarGuard

/-- `Drop::drop`: the guards are popped, and each is dropped. -/
def EnvVarGuards.drop (self : EnvVarGuards) (env : Environment) : Environment :=
  self.guards.reverse.foldl (fun env guard => guard.drop env) env

/-! ## Guards as notes -/

/-- What is left of a value that is read as a text and written again. -/
def legible : Option OsString → Option OsString
  | some (.unicode value) => some (.unicode value)
  | _ => none

theorem legible_eq_var (env : Environment) (key : VarName) : legible (env key) = (env.var key).map .unicode := by
  unfold legible Environment.var
  split <;> rfl

@[simp] theorem legible_map (value : Option VarText) : legible (value.map .unicode) = value.map .unicode := by
  cases value <;> rfl

/-- What a guard writes back. -/
def EnvVarGuard.note (self : EnvVarGuard) : VarName × Option OsString := (self.key, self.previous.map .unicode)

def EnvVarGuards.notes (self : EnvVarGuards) : List (VarName × Option OsString) := self.guards.map EnvVarGuard.note

/-- What an item writes. -/
def itemWrite (item : VarName × Option VarText) : VarName × Option OsString := (item.1, item.2.map .unicode)

theorem EnvVarGuard.drop_eq (self : EnvVarGuard) (env : Environment) :
    self.drop env = Function.update env self.note.1 self.note.2 := by
  unfold drop note
  cases self.previous <;> rfl

theorem EnvVarGuards.drop_eq (self : EnvVarGuards) (env : Environment) : self.drop env = undo self.notes env := by
  rw [drop, List.foldl_reverse, notes, undo, List.foldr_map]
  simp only [EnvVarGuard.drop_eq]

theorem EnvVarGuard.setOptional_eq (key : VarName) (value : Option VarText) (env : Environment) :
    (setOptional key value env).1.note = (key, legible (env key)) ∧
      (setOptional key value env).2 = Function.update env key (value.map .unicode) := by
  rw [legible_eq_var]
  cases value <;> exact ⟨rfl, rfl⟩

theorem EnvVarGuard.setEach_eq (items : List (VarName × Option VarText)) (env : Environment) :
    ((setEach items env).1.map note, (setEach items env).2) = writeAll legible (items.map itemWrite) env := by
  induction items generalizing env with
  | nil => rfl
  | cons item items ih =>
    obtain ⟨hnote, henv⟩ := setOptional_eq item.1 item.2 env
    rw [List.map_cons, writeAll, setEach]
    simp only [List.map_cons, itemWrite]
    rw [← henv, ← ih, hnote]

theorem EnvVarGuard.notes_setMany (items : List (VarName × Option VarText)) (env : Environment) :
    (setMany items env).1.notes = (writeAll legible (items.map itemWrite) env).1 :=
  congrArg Prod.fst (setEach_eq items env)

theorem EnvVarGuard.env_setMany (items : List (VarName × Option VarText)) (env : Environment) :
    (setMany items env).2 = (writeAll legible (items.map itemWrite) env).2 :=
  congrArg Prod.snd (setEach_eq items env)

theorem map_fst_itemWrite (items : List (VarName × Option VarText)) :
    (items.map itemWrite).map Prod.fst = items.map Prod.fst := by
  rw [List.map_map]
  rfl

/-- What the last item of a variable says, if there is one. -/
def lastItem (key : VarName) (items : List (VarName × Option VarText)) : Option (Option OsString) :=
  lastWritten (writtenTo key) (items.map itemWrite)

/-- Between its creation and its end a collection of guards may see any changes: dropping it gives its variables what
could be read of them before, and leaves the others alone. -/
theorem drop_setMany (items : List (VarName × Option VarText)) (env after : Environment) (key : VarName) :
    (EnvVarGuard.setMany items env).1.drop after key =
      if key ∈ items.map Prod.fst then legible (env key) else after key := by
  rw [EnvVarGuards.drop_eq, EnvVarGuard.notes_setMany, ← map_fst_itemWrite]
  split
  · next h => exact undo_writeAll h after
  · next h => exact undo_writeAll_of_notMem h after

/-! ## Runs -/

/-- The environment of a process and the collections of guards alive in it, the innermost first. -/
structure Process where
  env : Environment
  live : List EnvVarGuards

inductive Event where
  | guard (items : List (VarName × Option VarText))
  | write (key : VarName) (value : Option OsString)
  | dropInnermost

/-- A process whose scopes end in the reverse order of their beginnings. -/
def process : Machine Process Event Unit where
  step s
    | .guard items => ((), ⟨(EnvVarGuard.setMany items s.env).2, (EnvVarGuard.setMany items s.env).1 :: s.live⟩)
    | .write key value => ((), ⟨Function.update s.env key value, s.live⟩)
    | .dropInnermost => ((), match s.live with
      | [] => s
      | innermost :: live => ⟨innermost.drop s.env, live⟩)

/-- Some guard of the variable is alive. -/
def Process.Guards (s : Process) (key : VarName) : Prop :=
  ∃ guards ∈ s.live, ∃ guard ∈ guards.guards, guard.key = key

/-- The variable is written directly only while a guard of it is alive. -/
def WritesGuarded (key : VarName) : Process → List Event → Prop
  | _, [] => True
  | s, e :: run => (∀ value, e = .write key value → s.Guards key) ∧ WritesGuarded key (process.step s e).2 run

/-- Some guard of the variable is made. -/
def Event.makesGuard (key : VarName) : Event → Bool
  | .guard items => decide (key ∈ items.map Prod.fst)
  | _ => false

/-- The notes of all guards alive, the oldest first. -/
def liveNotes : List EnvVarGuards → List (VarName × Option OsString)
  | [] => []
  | innermost :: live => liveNotes live ++ innermost.notes

/-- The environment once all guards alive are dropped. -/
def Process.settled (s : Process) : Environment := undo (liveNotes s.live) s.env

theorem mem_liveNotes {live : List EnvVarGuards} {note : VarName × Option OsString} :
    note ∈ liveNotes live ↔ ∃ guards ∈ live, ∃ guard ∈ guards.guards, guard.note = note := by
  induction live with
  | nil => simp [liveNotes]
  | cons innermost live ih =>
    rw [liveNotes, List.mem_append, ih, EnvVarGuards.notes, List.mem_map]
    simp only [List.mem_cons, exists_eq_or_imp]
    exact or_comm

theorem Process.guards_iff {s : Process} {key : VarName} : s.Guards key ↔ key ∈ (liveNotes s.live).map Prod.fst := by
  simp only [List.mem_map, mem_liveNotes]
  constructor
  · rintro ⟨guards, hguards, guard, hguard, rfl⟩
    exact ⟨guard.note, ⟨guards, hguards, guard, hguard, rfl⟩, rfl⟩
  · rintro ⟨note, ⟨guards, hguards, guard, hguard, rfl⟩, rfl⟩
    exact ⟨guards, hguards, guard, hguard, rfl⟩

theorem Process.settled_of_not_guards {s : Process} {key : VarName} (h : ¬ s.Guards key) : s.settled key = s.env key :=
  undo_of_notMem (fun hmem => h (guards_iff.2 hmem)) s.env

/-- What a guard brings back is a text. -/
theorem Process.legible_settled {s : Process} {key : VarName} (h : s.Guards key) :
    legible (s.settled key) = s.settled key := by
  have hnote := undo_mem_log (guards_iff.1 h) s.env
  obtain ⟨guards, -, guard, -, heq⟩ := mem_liveNotes.1 hnote
  have hvalue : s.settled key = guard.previous.map .unicode := (congrArg Prod.snd heq).symm
  rw [hvalue, legible_map]

/-- A step moves what a variable settles at only by making a guard of it. -/
theorem settled_step {s : Process} {e : Event} {key : VarName} (h : ∀ value, e = .write key value → s.Guards key) :
    (process.step s e).2.settled key = if e.makesGuard key then legible (s.settled key) else s.settled key := by
  cases e with
  | guard items =>
    have hsettled : (process.step s (.guard items)).2.settled key = undo (liveNotes s.live)
        ((EnvVarGuard.setMany items s.env).1.drop (EnvVarGuard.setMany items s.env).2) key := by
      rw [EnvVarGuards.drop_eq, ← undo_append]
      rfl
    rw [hsettled, Event.makesGuard]
    have hdrop := drop_setMany items s.env (EnvVarGuard.setMany items s.env).2 key
    by_cases hkey : key ∈ items.map Prod.fst
    · rw [if_pos hkey] at hdrop
      rw [if_pos (decide_eq_true hkey)]
      by_cases hlive : s.Guards key
      · -- an older guard decides
        rw [s.legible_settled hlive]
        exact undo_of_mem (Process.guards_iff.1 hlive) _ _
      · rw [s.settled_of_not_guards hlive, undo_of_notMem (fun hmem => hlive (Process.guards_iff.2 hmem)), hdrop]
    · rw [if_neg hkey, EnvVarGuard.env_setMany, writeAll_apply_of_notMem (by rwa [map_fst_itemWrite])] at hdrop
      rw [if_neg (by simpa using hkey)]
      rw [EnvVarGuard.env_setMany]
      exact undo_congr _ hdrop
  | write key' value =>
    show undo (liveNotes s.live) (Function.update s.env key' value) key = s.settled key
    by_cases hkey : key = key'
    · subst hkey
      exact undo_of_mem (Process.guards_iff.1 (h value rfl)) _ _
    · exact undo_congr _ (Function.update_of_ne hkey value s.env)
  | dropInnermost =>
    show (process.step s .dropInnermost).2.settled key = s.settled key
    obtain ⟨env, live⟩ := s
    cases live with
    | nil => rfl
    | cons innermost live =>
      show undo (liveNotes live) (innermost.drop env) key = undo (liveNotes live ++ innermost.notes) env key
      rw [EnvVarGuards.drop_eq, undo_append]

theorem legible_legible (value : Option OsString) : legible (legible value) = legible value := by
  obtain _ | _ | _ := value <;> rfl

theorem settled_exec {key : VarName} {run : List Event} {s : Process} (h : WritesGuarded key s run) :
    (process.exec s run).settled key =
      if run.any (Event.makesGuard key) then legible (s.settled key) else s.settled key := by
  induction run generalizing s with
  | nil => rfl
  | cons e run ih =>
    rw [Machine.exec_cons, ih h.2, settled_step h.1, List.any_cons]
    cases e.makesGuard key with
    | true => simp [legible_legible]
    | false => simp

/-- A collection of guards shows the last value asked for each variable and, dropped, brings back what could be read
of each before it, whatever happened in between. In every run of a process whose scopes are nested and that writes a
variable directly only while a guard of it is alive: whenever no guard of it is alive, the variable has the value
from the start of the run, or none if that was no text and some guard was made. -/
theorem guards_restore (env : Environment) (key : VarName) :
    (∀ items, (EnvVarGuard.setMany items env).2 key = (lastItem key items).getD (env key)) ∧
    (∀ items after, (EnvVarGuard.setMany items env).1.drop after key =
      if key ∈ items.map Prod.fst then legible (env key) else after key) ∧
    ∀ run, WritesGuarded key ⟨env, []⟩ run → ¬ (process.exec ⟨env, []⟩ run).Guards key →
      (process.exec ⟨env, []⟩ run).env key = if run.any (Event.makesGuard key) then legible (env key) else env key := by
  refine ⟨fun items => ?_, fun items after => drop_setMany items env after key, fun run hwrites hnone => ?_⟩
  · rw [EnvVarGuard.env_setMany]
    exact writeAll_apply
  · rw [← Process.settled_of_not_guards hnone, settled_exec hwrites]
    rfl

end WorldInfra.TestLite
