/-
notification-core and notification-lifecycle-core: delivery versions, the state of a notification
item, and what a recurrence of a deduplicated event does to it.
-/
import WorldInfra.Rust.Text

namespace WorldInfra.Notification

open WorldInfra.Rust

inductive NotificationError where
  | empty (field : Str)
  | tooLong (field : Str) (len max : Nat)
  | invalidCharacter (field : Str) (ch : Char)
  | unknownChannel (channel : Str)
  | invalidDeliveryVersion
  | invalidAttempt
  deriving DecidableEq, Repr

/-! ## Delivery versions -/

/-- `DeliveryVersion`: a positive `i32`. -/
@[ext] structure DeliveryVersion where
  value : Int32
  pos : 0 < value.toInt
  deriving DecidableEq

namespace DeliveryVersion

def new (value : Int32) : Except NotificationError DeliveryVersion :=
  if h : value.toInt ≤ 0 then .error .invalidDeliveryVersion else .ok ⟨value, Int.lt_of_not_ge h⟩

def asI32 (self : DeliveryVersion) : Int32 := self.value

/-- `i32::checked_add(1)`. -/
def checkedSucc (value : Int32) : Option Int32 := if value = Int32.maxValue then none else some (value + 1)

def next (self : DeliveryVersion) : Except NotificationError DeliveryVersion :=
  match checkedSucc self.value with
  | none => .error .invalidDeliveryVersion
  | some next => new next

theorem toInt_le (v : DeliveryVersion) : v.value.toInt ≤ 2 ^ 31 - 1 := Int.le_of_lt_add_one v.value.toInt_lt

theorem eq_max_iff (v : DeliveryVersion) : v.value = Int32.maxValue ↔ v.value.toInt = 2 ^ 31 - 1 := by
  constructor
  · rintro h
    rw [h]; rfl
  · intro h
    exact Int32.toInt_inj.1 (h.trans Int32.toInt_maxValue.symm)

/-- Every version but the last has a next one. -/
theorem next_ok {v : DeliveryVersion} (h : v.value.toInt < 2 ^ 31 - 1) :
    ∃ w, v.next = .ok w ∧ w.value.toInt = v.value.toInt + 1 := by
  have hpos := v.pos
  have hne : v.value ≠ Int32.maxValue := by
    rw [Ne, eq_max_iff]
    omega
  have hval : (v.value + 1).toInt = v.value.toInt + 1 := by
    rw [Int32.toInt_add, show (1 : Int32).toInt = 1 from rfl, Int.bmod_eq_of_le]
    · omega
    · omega
  have hnot : ¬ (v.value + 1).toInt ≤ 0 := by omega
  refine ⟨⟨v.value + 1, Int.lt_of_not_ge hnot⟩, ?_, hval⟩
  rw [next, checkedSucc, if_neg hne]
  exact dif_neg hnot

theorem next_error {v : DeliveryVersion} (h : v.value.toInt = 2 ^ 31 - 1) :
    v.next = .error .invalidDeliveryVersion := by
  rw [next, checkedSucc, if_pos ((eq_max_iff v).2 h)]

end DeliveryVersion

/-! ## Items -/

inductive NotificationItemState where
  | open
  | unread
  | read
  | dismissed
  | done
  | expired
  deriving DecidableEq, Repr

namespace NotificationItemState

def fromFlags (read dismissed done expired : Bool) : NotificationItemState :=
  if expired then .expired
  else if done then .done
  else if dismissed then .dismissed
  else if read then .read
  else .unread

def shouldReopenOnRecurrence : NotificationItemState → Bool
  | .read | .dismissed | .done | .expired => true
  | .open | .unread => false

/-- Whichever flag takes precedence, one that is set reopens. -/
theorem shouldReopen_fromFlags (read dismissed done expired : Bool) :
    (fromFlags read dismissed done expired).shouldReopenOnRecurrence = (read || dismissed || done || expired) := by
  cases read <;> cases dismissed <;> cases done <;> cases expired <;> rfl

end NotificationItemState

/-! ## Recurrence -/

structure NotificationReopenEffects where
  nextDeliveryVersion : DeliveryVersion
  clearRead : Bool
  clearDismissed : Bool
  clearDone : Bool
  clearExpired : Bool
  clearBroadcastState : Bool
  deriving DecidableEq

namespace NotificationReopenEffects

def fromNextDeliveryVersion (nextDeliveryVersion : DeliveryVersion) : NotificationReopenEffects where
  nextDeliveryVersion := nextDeliveryVersion
  clearRead := true
  clearDismissed := true
  clearDone := true
  clearExpired := true
  clearBroadcastState := true

def new (currentDeliveryVersion : DeliveryVersion) : Except NotificationError NotificationReopenEffects :=
  currentDeliveryVersion.next.map fromNextDeliveryVersion

end NotificationReopenEffects

inductive RecurrenceDecision where
  | updateOpenRow
  | reopen (nextDeliveryVersion : DeliveryVersion)
  | createNew
  deriving DecidableEq

def RecurrenceDecision.reopenEffects : RecurrenceDecision → Option NotificationReopenEffects
  | .reopen nextDeliveryVersion => some (.fromNextDeliveryVersion nextDeliveryVersion)
  | .updateOpenRow | .createNew => none

def recurrenceDecision (hasDedupeKey : Bool) (currentState : Option NotificationItemState)
    (currentDeliveryVersion : DeliveryVersion) : Except NotificationError RecurrenceDecision :=
  match currentState with
  | none => .ok .createNew
  | some state =>
    if !hasDedupeKey then .ok .createNew
    else if state.shouldReopenOnRecurrence then currentDeliveryVersion.next.map .reopen
    else .ok .updateOpenRow

inductive DeliveryVersionStatus where
  | current
  | stale
  | future
  deriving DecidableEq, Repr

def classifyDeliveryVersion (rowVersion itemVersion : DeliveryVersion) : DeliveryVersionStatus :=
  match compare rowVersion.asI32.toInt itemVersion.asI32.toInt with
  | .lt => .stale
  | .eq => .current
  | .gt => .future

theorem classify_eq (v : DeliveryVersion) : classifyDeliveryVersion v v = .current := by
  unfold classifyDeliveryVersion
  rw [compare_eq_iff_eq.2 rfl]

theorem classify_lt {v w : DeliveryVersion} (h : v.value.toInt < w.value.toInt) :
    classifyDeliveryVersion v w = .stale := by
  unfold classifyDeliveryVersion DeliveryVersion.asI32
  rw [compare_lt_iff_lt.2 h]

end WorldInfra.Notification
