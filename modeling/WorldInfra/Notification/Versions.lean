/-
Delivery versions over whole runs: users set flags, deduplicated events recur, and the product
applies the reopen effects. The version counts the reopenings, so a row stamped with it is current
until the next one and stale from then on.
-/
import WorldInfra.Lib.Machine
import WorldInfra.Notification.Lifecycle

namespace WorldInfra.Notification

open WorldInfra.Lib WorldInfra.Rust

/-- An item, by its flags and its delivery version. -/
@[ext] structure Item where
  read : Bool
  dismissed : Bool
  done : Bool
  expired : Bool
  version : DeliveryVersion
  deriving DecidableEq

namespace Item

def state (self : Item) : NotificationItemState := .fromFlags self.read self.dismissed self.done self.expired

def flagged (self : Item) : Bool := self.read || self.dismissed || self.done || self.expired

/-- The reopen effects, applied. -/
def apply (self : Item) (effects : NotificationReopenEffects) : Item where
  read := self.read && !effects.clearRead
  dismissed := self.dismissed && !effects.clearDismissed
  done := self.done && !effects.clearDone
  expired := self.expired && !effects.clearExpired
  version := effects.nextDeliveryVersion

end Item

inductive Flag where
  | read
  | dismissed
  | done
  | expired
  deriving DecidableEq, Repr

def Item.set (self : Item) (flag : Flag) (value : Bool) : Item :=
  match flag with
  | .read => { self with read := value }
  | .dismissed => { self with dismissed := value }
  | .done => { self with done := value }
  | .expired => { self with expired := value }

/-- What happens to an item: a user sets or takes back a flag, or its event recurs with a dedupe key. -/
inductive Event where
  | set (flag : Flag) (value : Bool)
  | recur
  deriving DecidableEq, Repr

/-- The decision of a recurrence. -/
abbrev Answer := Option (Except NotificationError RecurrenceDecision)

def Item.recur (self : Item) : Answer × Item :=
  match recurrenceDecision true (some self.state) self.version with
  | .error e => (some (.error e), self)
  | .ok decision => (some (.ok decision), (decision.reopenEffects.map self.apply).getD self)

def lifecycle : Machine Item Event Answer where
  step item event :=
    match event with
    | .set flag value => (none, item.set flag value)
    | .recur => item.recur

/-- The answer that reopens. -/
def reopens : Answer → Bool
  | some (.ok (.reopen _)) => true
  | _ => false

/-- The recurrences of a run that reopened the item. -/
def reopenings (events : List (Event × Answer)) : Nat := events.countP fun e => reopens e.2

/-! ## One step -/

theorem recurrenceDecision_item (item : Item) : recurrenceDecision true (some item.state) item.version =
    if item.flagged then item.version.next.map .reopen else .ok .updateOpenRow := by
  unfold recurrenceDecision
  simp only [Item.state, NotificationItemState.shouldReopen_fromFlags]
  rfl

theorem recur_unflagged {item : Item} (h : item.flagged = false) : item.recur = (some (.ok .updateOpenRow), item) := by
  unfold Item.recur
  rw [recurrenceDecision_item, h]
  rfl

theorem recur_last {item : Item} (h : item.flagged = true) (hlast : item.version.value.toInt = 2 ^ 31 - 1) :
    item.recur = (some (.error .invalidDeliveryVersion), item) := by
  unfold Item.recur
  rw [recurrenceDecision_item, if_pos h, DeliveryVersion.next_error hlast]
  rfl

theorem recur_reopens {item : Item} (h : item.flagged = true) (hlast : item.version.value.toInt < 2 ^ 31 - 1) :
    ∃ next, item.recur = (some (.ok (.reopen next)), ⟨false, false, false, false, next⟩) ∧
      next.value.toInt = item.version.value.toInt + 1 := by
  obtain ⟨next, hnext, hval⟩ := DeliveryVersion.next_ok hlast
  refine ⟨next, ?_, hval⟩
  unfold Item.recur
  rw [recurrenceDecision_item, if_pos h, hnext]
  simp [Except.map, RecurrenceDecision.reopenEffects, NotificationReopenEffects.fromNextDeliveryVersion, Item.apply]

theorem set_version (item : Item) (flag : Flag) (value : Bool) : (item.set flag value).version = item.version := by
  cases flag <;> rfl

/-- The item is reopened: the recurrence finds a flag set, below the last version. -/
def Reopening (item : Item) (event : Event) : Prop :=
  event = .recur ∧ item.flagged = true ∧ item.version.value.toInt < 2 ^ 31 - 1

theorem step_reopening {item : Item} {event : Event} (h : Reopening item event) :
    reopens (lifecycle.step item event).1 = true ∧
    (lifecycle.step item event).2.version.value.toInt = item.version.value.toInt + 1 ∧
    (lifecycle.step item event).2.flagged = false ∧
    lifecycle.step (lifecycle.step item event).2 .recur =
      (some (.ok .updateOpenRow), (lifecycle.step item event).2) := by
  obtain ⟨rfl, hflag, hlt⟩ := h
  obtain ⟨next, hrecur, hval⟩ := recur_reopens hflag hlt
  show reopens item.recur.1 = true ∧ item.recur.2.version.value.toInt = _ ∧ item.recur.2.flagged = false ∧
    item.recur.2.recur = (_, item.recur.2)
  rw [hrecur]
  exact ⟨rfl, hval, rfl, recur_unflagged rfl⟩

theorem step_other {item : Item} {event : Event} (h : ¬ Reopening item event) :
    reopens (lifecycle.step item event).1 = false ∧ (lifecycle.step item event).2.version = item.version := by
  cases event with
  | set flag value => exact ⟨rfl, set_version item flag value⟩
  | recur =>
    show reopens item.recur.1 = false ∧ item.recur.2.version = item.version
    cases hflag : item.flagged with
    | false =>
      rw [recur_unflagged hflag]
      exact ⟨rfl, rfl⟩
    | true =>
      have hle := item.version.toInt_le
      have hmax : item.version.value.toInt = 2 ^ 31 - 1 := by
        by_contra hne
        exact h ⟨rfl, hflag, by omega⟩
      rw [recur_last hflag hmax]
      exact ⟨rfl, rfl⟩

/-- A step moves the version by one if it reopens, and not otherwise. -/
theorem step_version (item : Item) (event : Event) :
    (lifecycle.step item event).2.version.value.toInt =
      item.version.value.toInt + if reopens (lifecycle.step item event).1 then 1 else 0 := by
  by_cases h : Reopening item event
  · obtain ⟨hreopens, hversion, -⟩ := step_reopening h
    rw [hversion, if_pos hreopens]
  · obtain ⟨hreopens, hversion⟩ := step_other h
    rw [hversion, hreopens]
    exact (Int.add_zero _).symm

/-! ## Runs -/

/-- The version after a run: where it began, and one more for every reopening. -/
theorem exec_version : ∀ (item : Item) (events : List Event),
    (lifecycle.exec item events).version.value.toInt =
      item.version.value.toInt + reopenings (lifecycle.trace item events)
  | item, [] => by
    show item.version.value.toInt = _ + ((0 : Nat) : Int)
    omega
  | item, event :: events => by
    have hstep := step_version item event
    have hrun := exec_version (lifecycle.step item event).2 events
    rw [Machine.exec_cons, hrun, hstep, Machine.trace_cons, reopenings, reopenings, List.countP_cons]
    split
    · push_cast
      omega
    · push_cast
      omega

/-- A row stamped with the version of an item, and the item after a run. -/
theorem classify_exec (item : Item) (events : List Event) :
    classifyDeliveryVersion item.version (lifecycle.exec item events).version =
      if reopenings (lifecycle.trace item events) = 0 then .current else .stale := by
  have hversion := exec_version item events
  split
  · rename_i h
    rw [h] at hversion
    have heq : (lifecycle.exec item events).version = item.version :=
      DeliveryVersion.ext (Int32.toInt_inj.1 (by omega))
    rw [heq, classify_eq]
  · exact classify_lt (by omega)

/-- Over every run from every item: the version counts the reopenings and so never falls; a step
raises it exactly when it is a recurrence that finds a flag set below the last version, after which
another recurrence only updates the open row; at the last version such a recurrence is an error and
changes nothing; and a row stamped along the way is current until the next reopening and stale ever
after. -/
theorem deliveryVersions_coherent (item : Item) (events : List Event) :
    (lifecycle.exec item events).version.value.toInt =
      item.version.value.toInt + reopenings (lifecycle.trace item events) ∧
    ∀ before later, events = before ++ later →
      let reached := lifecycle.exec item before
      let last := lifecycle.exec item events
      reached.version.value.toInt ≤ last.version.value.toInt ∧
      (classifyDeliveryVersion reached.version last.version =
        if reopenings (lifecycle.trace reached later) = 0 then .current else .stale) ∧
      ∀ event rest, later = event :: rest →
        let answer := (lifecycle.step reached event).1
        let after := (lifecycle.step reached event).2
        (event = .recur ∧ reached.flagged = true ∧ reached.version.value.toInt < 2 ^ 31 - 1 →
          reopens answer = true ∧ after.version.value.toInt = reached.version.value.toInt + 1 ∧
          after.flagged = false ∧ lifecycle.step after .recur = (some (.ok .updateOpenRow), after)) ∧
        (¬ (event = .recur ∧ reached.flagged = true ∧ reached.version.value.toInt < 2 ^ 31 - 1) →
          reopens answer = false ∧ after.version = reached.version) ∧
        (event = .recur ∧ reached.flagged = true ∧ reached.version.value.toInt = 2 ^ 31 - 1 →
          answer = some (.error .invalidDeliveryVersion) ∧ after = reached) := by
  refine ⟨exec_version item events, ?_⟩
  rintro before later rfl
  intro reached last
  have hlast : last = lifecycle.exec reached later := Machine.exec_append ..
  refine ⟨?_, ?_, ?_⟩
  · rw [hlast, exec_version reached later]
    omega
  · rw [hlast, classify_exec]
  · rintro event rest -
    refine ⟨step_reopening, step_other, ?_⟩
    rintro ⟨rfl, hflag, hmax⟩
    show reached.recur.1 = _ ∧ reached.recur.2 = reached
    rw [recur_last hflag hmax]
    exact ⟨rfl, rfl⟩

/-- A read item reopens with the next version, and the recurrence after it updates the open row. -/
theorem deliveryVersions_coherent_readTwice :
    let item : Item := ⟨false, false, false, false, ⟨2, by decide⟩⟩
    let events := [.set .read true, .recur, .recur]
    lifecycle.outputs item events = [none, some (.ok (.reopen ⟨3, by decide⟩)), some (.ok .updateOpenRow)] ∧
      classifyDeliveryVersion item.version (lifecycle.exec item events).version = .stale := by
  intro item events
  obtain ⟨-, hruns⟩ := deliveryVersions_coherent item events
  refine ⟨rfl, ?_⟩
  exact (hruns [] events rfl).2.1

end WorldInfra.Notification
