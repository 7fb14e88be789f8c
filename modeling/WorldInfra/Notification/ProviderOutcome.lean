/-
notification-core: failures of a provider, by class, retry hint and sanitized code, and what they become as outcomes of
a provider and of a delivery. A worker's report counts every attempt once, under the class it failed with; the outcome
keeps the class and the hint and nothing else.
-/
import WorldInfra.Delivery.RunReport
import WorldInfra.Notification.Lifecycle
import WorldInfra.Rust.Token

namespace WorldInfra.Notification

open WorldInfra.Rust WorldInfra.Delivery

def maxProviderFailureCodeLen : Nat := 128

def isFailureCodeChar (ch : Char) : Bool := ch.isLower || ch.isDigit || ch == '_'

structure ProviderFailureCode where
  value : Str
  valid : Str.IsToken maxProviderFailureCodeLen isFailureCodeChar value

def ProviderFailureCode.validate : Str → Except NotificationError Str :=
  Str.validateToken (.invalidCharacter "provider_failure_code".toList) (.empty "provider_failure_code".toList)
    (.tooLong "provider_failure_code".toList · maxProviderFailureCodeLen) maxProviderFailureCodeLen isFailureCodeChar

def ProviderFailureCode.new (value : Str) : Except NotificationError ProviderFailureCode :=
  match h : ProviderFailureCode.validate value with
  | .ok value => .ok ⟨value, (Str.validateToken_eq_ok.1 h).2.2⟩
  | .error e => .error e

inductive ProviderFailureClass where
  | retryable
  | permanent
  | ambiguousAfterSideEffect
  deriving DecidableEq, Repr

/-- `ProviderFailure`: its fields are private, and only a retryable failure is built with a hint. -/
structure ProviderFailure where
  class' : ProviderFailureClass
  retryAfter : Option Duration
  code : Option ProviderFailureCode
  hinted : retryAfter ≠ none → class' = .retryable

inductive NotificationProviderOutcome where
  | accepted
  | retryableFailure (retryAfter : Option Duration)
  | permanentFailure
  | ambiguousAfterSideEffect
  deriving DecidableEq

namespace ProviderFailure

def retryable : ProviderFailure := ⟨.retryable, none, none, fun _ => rfl⟩

/-- `ProviderFailure::retryable_after`. -/
def retryableAfter (retryAfter : Duration) : ProviderFailure := ⟨.retryable, some retryAfter, none, fun _ => rfl⟩

def permanent : ProviderFailure := ⟨.permanent, none, none, fun h => absurd rfl h⟩

def ambiguousAfterSideEffect : ProviderFailure := ⟨.ambiguousAfterSideEffect, none, none, fun h => absurd rfl h⟩

def withCode (self : ProviderFailure) (code : Str) : Except NotificationError ProviderFailure :=
  (ProviderFailureCode.new code).map fun code => { self with code := some code }

def asProviderOutcome (self : ProviderFailure) : NotificationProviderOutcome :=
  match self.class' with
  | .retryable => .retryableFailure self.retryAfter
  | .permanent => .permanentFailure
  | .ambiguousAfterSideEffect => .ambiguousAfterSideEffect

end ProviderFailure

def NotificationProviderOutcome.asDeliveryOutcome : NotificationProviderOutcome → DeliveryAttemptOutcome
  | .accepted => .delivered
  | .retryableFailure retryAfter => .retryableFailure retryAfter
  | .permanentFailure => .permanentFailure
  | .ambiguousAfterSideEffect => .ambiguousAfterSideEffect

/-! ## Outcomes -/

/-- What a provider answers: nothing is wrong, or a failure. -/
def providerOutcome : Option ProviderFailure → NotificationProviderOutcome
  | none => .accepted
  | some failure => failure.asProviderOutcome

/-- The report of a run over the answers of a provider. -/
def reportAnswers (report : DeliveryRunReport) (answers : List (Option ProviderFailure)) : DeliveryRunReport :=
  (answers.map fun answer => (providerOutcome answer).asDeliveryOutcome).foldl .record report

/-- The counter an answer goes to. -/
def answerKind : Option ProviderFailure → OutcomeKind
  | none => .delivered
  | some failure =>
    match failure.class' with
    | .retryable => .retryable
    | .permanent => .permanent
    | .ambiguousAfterSideEffect => .ambiguous

theorem kind_asDeliveryOutcome (answer : Option ProviderFailure) :
    (providerOutcome answer).asDeliveryOutcome.kind = answerKind answer := by
  cases answer with
  | none => rfl
  | some failure =>
    obtain ⟨class', retryAfter, code, hinted⟩ := failure
    cases class' <;> rfl

/-- Only a retryable failure has a hint to lose, and its outcome keeps it. -/
theorem asProviderOutcome_eq_iff {f g : ProviderFailure} :
    f.asProviderOutcome = g.asProviderOutcome ↔ f.class' = g.class' ∧ f.retryAfter = g.retryAfter := by
  have hnone : ∀ h : ProviderFailure, h.class' ≠ .retryable → h.retryAfter = none := by
    intro h hclass
    by_contra hsome
    exact hclass (h.hinted hsome)
  have hf := hnone f
  have hg := hnone g
  unfold ProviderFailure.asProviderOutcome
  cases hcf : f.class' <;> cases hcg : g.class' <;> simp_all

theorem asDeliveryOutcome_injective : Function.Injective NotificationProviderOutcome.asDeliveryOutcome := by
  intro a b h
  cases a <;> cases b <;> simp_all [NotificationProviderOutcome.asDeliveryOutcome]

theorem countP_kind (answers : List (Option ProviderFailure)) (kind : OutcomeKind) :
    (answers.map fun answer => (providerOutcome answer).asDeliveryOutcome).countP
        (fun outcome => decide (outcome.kind = kind)) =
      answers.countP fun answer => decide (answerKind answer = kind) := by
  rw [List.countP_map]
  apply List.countP_congr
  intro answer _
  rw [Function.comp_apply, kind_asDeliveryOutcome]

theorem countP_kinds (answers : List (Option ProviderFailure)) :
    answers.countP (fun answer => decide (answerKind answer = .delivered)) +
      answers.countP (fun answer => decide (answerKind answer = .retryable)) +
      answers.countP (fun answer => decide (answerKind answer = .permanent)) +
      answers.countP (fun answer => decide (answerKind answer = .ambiguous)) = answers.length := by
  induction answers with
  | nil => rfl
  | cons answer answers ih =>
    simp only [List.countP_cons, List.length_cons, ← ih]
    cases answerKind answer <;> simp <;> omega

/-- A worker that reports the answers of a provider: every counter holds what it held and the answers of its kind, cut
at its width, the claims are left alone, and the order makes no difference. Where nothing is cut, no answer is lost or
counted twice. The outcomes of two failures are the same exactly if their classes and hints are. -/
theorem provider_answers_reported (report : DeliveryRunReport) (answers : List (Option ProviderFailure)) :
    (reportAnswers report answers).claimed = report.claimed ∧
    (∀ kind, ((reportAnswers report answers).counter kind).toNat = min ((report.counter kind).toNat +
      answers.countP fun answer => decide (answerKind answer = kind)) (2 ^ 32 - 1)) ∧
    (answers.length < 2 ^ 32 →
      (reportAnswers {} answers).delivered.toNat + (reportAnswers {} answers).retryableFailed.toNat +
        (reportAnswers {} answers).permanentlyFailed.toNat +
        (reportAnswers {} answers).ambiguousAfterSideEffect.toNat = answers.length) ∧
    (∀ answers', answers.Perm answers' → reportAnswers report answers = reportAnswers report answers') ∧
    ∀ f g : ProviderFailure, f.asProviderOutcome.asDeliveryOutcome = g.asProviderOutcome.asDeliveryOutcome ↔
      f.class' = g.class' ∧ f.retryAfter = g.retryAfter := by
  have hcounter (report : DeliveryRunReport) (kind : OutcomeKind) :
      ((reportAnswers report answers).counter kind).toNat = min ((report.counter kind).toNat +
        answers.countP fun answer => decide (answerKind answer = kind)) (2 ^ 32 - 1) := by
    rw [reportAnswers, DeliveryRunReport.counter_foldl, countP_kind]
  refine ⟨DeliveryRunReport.claimed_foldl _ _, hcounter report, ?_, ?_, ?_⟩
  · intro hlen
    have hzero : ∀ kind, (({} : DeliveryRunReport).counter kind).toNat = 0 := by
      intro kind
      cases kind <;> rfl
    have hdelivered := hcounter {} .delivered
    have hretryable := hcounter {} .retryable
    have hpermanent := hcounter {} .permanent
    have hambiguous := hcounter {} .ambiguous
    rw [hzero] at hdelivered hretryable hpermanent hambiguous
    -- every answer has one kind, and no count reaches the width
    have hsum := countP_kinds answers
    simp only [DeliveryRunReport.counter] at hdelivered hretryable hpermanent hambiguous
    omega
  · intro answers' hperm
    exact DeliveryRunReport.foldl_perm report (hperm.map _)
  · intro f g
    rw [asDeliveryOutcome_injective.eq_iff, asProviderOutcome_eq_iff]

end WorldInfra.Notification
