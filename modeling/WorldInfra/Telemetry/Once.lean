/-
world-telemetry: initializing and shutting down telemetry in a process with any number of one-time
initializers, each under its lock, and of guards that callers keep and drop. Installing the global
subscriber can work once for the whole process; what the subscriber and OpenTelemetry libraries answer
otherwise is an input of each call.
-/
import WorldInfra.Lib.Machine
import WorldInfra.Rust.Text

namespace WorldInfra.Telemetry

open WorldInfra.Lib WorldInfra.Rust

inductive ExporterProtocol where
  | httpProtobuf
  | grpcTonic
  deriving DecidableEq, Repr

inductive FailureMode where
  | strict
  | bestEffort
  deriving DecidableEq, Repr

inductive TelemetryError where
  | subscriber (error : Str)
  | exporter (error : Str)
  | featureDisabled (feature : Str)
  deriving DecidableEq, Repr

structure TelemetryShutdownError where
  message : Str
  deriving DecidableEq, Repr

/-- The features the crate is built with. -/
structure Features where
  subscriber : Bool
  opentelemetry : Bool
  otlpHttp : Bool
  otlpGrpcTonic : Bool
  deriving DecidableEq, Repr

/-- What of a `TelemetryConfig` decides how telemetry is initialized; names, filter, version and
timeout are handed on to the libraries. -/
structure InitConfig where
  otlpEndpoint : Option Str
  exporterProtocol : ExporterProtocol
  failureMode : FailureMode
  deriving DecidableEq, Repr

/-- What the libraries answer during one initialization: to the exporter's builder, and to the two
attempts to install a subscriber, where none is installed. -/
structure Libraries where
  exporter : Except Str Unit
  tryInit : Except Str Unit
  tryInitLocal : Except Str Unit

/-- Whether the process has its global subscriber, and the number of tracer providers built. -/
structure Process where
  subscriber : Bool
  providers : Nat
  deriving DecidableEq, Repr

/-- `TelemetryGuard`, its provider by number. -/
structure TelemetryGuard where
  provider : Option Nat
  deriving DecidableEq, Repr

inductive TelemetryOnceState where
  | empty
  | active (guard : TelemetryGuard)
  | shutdown
  deriving DecidableEq, Repr

/-! ## Initializing -/

section

variable (features : Features) (alreadySet : Str)

/-- `try_init` of a subscriber: refused with `alreadySet` once there is a global one. -/
def tryInit (process : Process) (result : Except Str Unit) : Except TelemetryError Unit × Process :=
  if process.subscriber then (.error (.subscriber alreadySet), process)
  else
    match result with
    | .error error => (.error (.subscriber error), process)
    | .ok () => (.ok (), { process with subscriber := true })

/-- `build_http_exporter` and `build_grpc_exporter`. -/
def buildExporter (protocol : ExporterProtocol) (result : Except Str Unit) : Except TelemetryError Unit :=
  match protocol with
  | .httpProtobuf =>
    if features.otlpHttp then result.mapError .exporter else .error (.featureDisabled "otlp-http".toList)
  | .grpcTonic =>
    if features.otlpGrpcTonic then result.mapError .exporter else .error (.featureDisabled "otlp-grpc-tonic".toList)

def initOtelSubscriber (process : Process) (config : InitConfig) (libraries : Libraries) :
    Except TelemetryError TelemetryGuard × Process :=
  match buildExporter features config.exporterProtocol libraries.exporter with
  | .error error => (.error error, process)
  | .ok () =>
    let provider := process.providers
    match tryInit alreadySet { process with providers := process.providers + 1 } libraries.tryInit with
    | (.error error, process) => (.error error, process)
    | (.ok (), process) => (.ok ⟨some provider⟩, process)

/-- `init_local_subscriber_with_filter`, with the guard its callers return. -/
def initLocalSubscriber (process : Process) (result : Except Str Unit) :
    Except TelemetryError TelemetryGuard × Process :=
  match tryInit alreadySet process result with
  | (.error error, process) => (.error error, process)
  | (.ok (), process) => (.ok ⟨none⟩, process)

def initTelemetryInner (process : Process) (config : InitConfig) (libraries : Libraries) :
    Except TelemetryError TelemetryGuard × Process :=
  match config.otlpEndpoint with
  | some _ =>
    if features.opentelemetry then
      if features.otlpHttp || features.otlpGrpcTonic then
        initOtelSubscriber features alreadySet process config libraries
      else (.error (.featureDisabled "otlp-http or otlp-grpc-tonic".toList), process)
    else (.error (.featureDisabled "opentelemetry".toList), process)
  | none => initLocalSubscriber alreadySet process libraries.tryInit

def initTelemetry (process : Process) (config : InitConfig) (libraries : Libraries) :
    Except TelemetryError TelemetryGuard × Process :=
  if features.subscriber then
    match initTelemetryInner features alreadySet process config libraries with
    | (.ok guard, process) => (.ok guard, process)
    | (.error error, process) =>
      if config.failureMode = .bestEffort then initLocalSubscriber alreadySet process libraries.tryInitLocal
      else (.error error, process)
  else (.error (.featureDisabled "subscriber".toList), process)

end

/-! ## The process -/

/-- A process with its initializers and the guards that `init_telemetry` has returned, by their numbers, as
long as they are not dropped; `shutDown` records the calls that shut down a provider, in order. -/
structure World where
  process : Process
  once : Nat → TelemetryOnceState
  guards : List (Option TelemetryGuard)
  shutDown : List Nat

/-- A fresh process: all initializers are empty. -/
def World.fresh : World := ⟨⟨false, 0⟩, fun _ => .empty, [], []⟩

inductive Call where
  | init (i : Nat) (config : InitConfig) (libraries : Libraries)
  /-- The provider's answers to the shutdown and to the drop of the guard behind it. -/
  | shutdown (i : Nat) (result dropped : Except Str Unit)
  /-- The initializer goes out of scope, and its guard with it. -/
  | drop (i : Nat) (result : Except Str Unit)
  | initTelemetry (config : InitConfig) (libraries : Libraries)
  | shutdownGuard (g : Nat) (result : Except Str Unit)
  | dropGuard (g : Nat) (result : Except Str Unit)
  /-- Something else in the process installs a subscriber. -/
  | installElsewhere

inductive Answer where
  | init (result : Except TelemetryError Bool)
  | initTelemetry (result : Except TelemetryError Nat)
  | shutdown (result : Except TelemetryShutdownError Unit)
  | done
  deriving DecidableEq

section

variable (features : Features) (alreadySet : Str)

/-- `TelemetryGuard::shutdown`: takes the provider and shuts it down, with the given result. -/
def TelemetryGuard.shutdown (guard : TelemetryGuard) (shutDown : List Nat) (result : Except Str Unit) :
    Except TelemetryShutdownError Unit × TelemetryGuard × List Nat :=
  match guard.provider with
  | some provider => (result.mapError .mk, { guard with provider := none }, shutDown ++ [provider])
  | none => (.ok (), guard, shutDown)

/-- `Drop` for `TelemetryGuard`: one more shutdown, whose error is only printed. -/
def TelemetryGuard.drop (guard : TelemetryGuard) (shutDown : List Nat) (result : Except Str Unit) : List Nat :=
  (guard.shutdown shutDown result).2.2

/-- `TelemetryOnce::init`. -/
def World.init (w : World) (i : Nat) (config : InitConfig) (libraries : Libraries) :
    Except TelemetryError Bool × World :=
  match w.once i with
  | .empty =>
    match initTelemetry features alreadySet w.process config libraries with
    | (.error error, process) => (.error error, { w with process := process })
    | (.ok guard, process) =>
      (.ok true, { w with process := process, once := Function.update w.once i (.active guard) })
  | _ => (.ok false, w)

/-- `TelemetryOnce::shutdown`. -/
def World.shutdown (w : World) (i : Nat) (result dropped : Except Str Unit) :
    Except TelemetryShutdownError Unit × World :=
  let once := Function.update w.once i .shutdown
  match w.once i with
  | .active guard =>
    let (answer, guard, shutDown) := guard.shutdown w.shutDown result
    -- the guard goes out of scope, whatever the answer
    (answer, { w with once := once, shutDown := guard.drop shutDown dropped })
  | _ => (.ok (), { w with once := once })

/-- The end of a `TelemetryOnce`; nobody calls it afterwards. -/
def World.drop (w : World) (i : Nat) (result : Except Str Unit) : World :=
  let once := Function.update w.once i .shutdown
  match w.once i with
  | .active guard => { w with once := once, shutDown := guard.drop w.shutDown result }
  | _ => { w with once := once }

/-- `init_telemetry` by a caller that keeps the guard. -/
def World.initTelemetry (w : World) (config : InitConfig) (libraries : Libraries) : Except TelemetryError Nat × World :=
  match Telemetry.initTelemetry features alreadySet w.process config libraries with
  | (.error error, process) => (.error error, { w with process := process })
  | (.ok guard, process) => (.ok w.guards.length, { w with process := process, guards := w.guards ++ [some guard] })

def World.shutdownGuard (w : World) (g : Nat) (result : Except Str Unit) : Except TelemetryShutdownError Unit × World :=
  match w.guards[g]? with
  | some (some guard) =>
    let (answer, guard, shutDown) := guard.shutdown w.shutDown result
    (answer, { w with guards := w.guards.set g (some guard), shutDown := shutDown })
  | _ => (.ok (), w)

def World.dropGuard (w : World) (g : Nat) (result : Except Str Unit) : World :=
  match w.guards[g]? with
  | some (some guard) => { w with guards := w.guards.set g none, shutDown := guard.drop w.shutDown result }
  | _ => w

def world : Machine World Call Answer where
  step w call :=
    match call with
    | .init i config libraries =>
      let r := w.init features alreadySet i config libraries
      (.init r.1, r.2)
    | .shutdown i result dropped =>
      let r := w.shutdown i result dropped
      (.shutdown r.1, r.2)
    | .drop i result => (.done, w.drop i result)
    | .initTelemetry config libraries =>
      let r := w.initTelemetry features alreadySet config libraries
      (.initTelemetry r.1, r.2)
    | .shutdownGuard g result =>
      let r := w.shutdownGuard g result
      (.shutdown r.1, r.2)
    | .dropGuard g result => (.done, w.dropGuard g result)
    | .installElsewhere => (.done, { w with process := { w.process with subscriber := true } })

end

/-! ## What initializing can do -/

variable (features : Features) (alreadySet : Str)

/-- An attempt either installs the subscriber where there was none, or changes nothing. -/
theorem tryInit_cases (process : Process) (result : Except Str Unit) :
    (∃ error, tryInit alreadySet process result = (.error error, process)) ∨
      process.subscriber = false ∧ tryInit alreadySet process result =
        (.ok (), { process with subscriber := true }) := by
  unfold tryInit
  split
  · exact .inl ⟨_, rfl⟩
  · rename_i h
    cases result with
    | error error => exact .inl ⟨_, rfl⟩
    | ok _ => exact .inr ⟨Bool.not_eq_true _ ▸ h, rfl⟩

/-- From one process to the next: providers are only added; success installs the subscriber where there
was none, its guard holding no provider or a new one; failure installs none. -/
def Initializes (before : Process) (result : Except TelemetryError TelemetryGuard) (after : Process) : Prop :=
  before.providers ≤ after.providers ∧
    match result with
    | .ok guard => before.subscriber = false ∧ after.subscriber = true ∧
        ∀ p, guard.provider = some p → before.providers ≤ p ∧ p < after.providers
    | .error _ => after.subscriber = before.subscriber

theorem initLocalSubscriber_initializes (process : Process) (result : Except Str Unit) :
    Initializes process (initLocalSubscriber alreadySet process result).1
      (initLocalSubscriber alreadySet process result).2 := by
  unfold initLocalSubscriber
  rcases tryInit_cases alreadySet process result with ⟨error, h⟩ | ⟨hs, h⟩
  · rw [h]
    exact ⟨Nat.le_refl _, rfl⟩
  · rw [h]
    exact ⟨Nat.le_refl _, hs, rfl, by simp⟩

theorem initOtelSubscriber_initializes (process : Process) (config : InitConfig) (libraries : Libraries) :
    Initializes process (initOtelSubscriber features alreadySet process config libraries).1
      (initOtelSubscriber features alreadySet process config libraries).2 := by
  unfold initOtelSubscriber
  split
  · exact ⟨Nat.le_refl _, rfl⟩
  · simp only
    rcases tryInit_cases alreadySet { process with providers := process.providers + 1 }
      libraries.tryInit with ⟨error, h⟩ | ⟨hs, h⟩
    · rw [h]
      exact ⟨Nat.le_succ _, rfl⟩
    · rw [h]
      refine ⟨Nat.le_succ _, hs, rfl, fun p hp => ?_⟩
      cases hp
      exact ⟨Nat.le_refl _, Nat.lt_succ_self _⟩

theorem initTelemetryInner_initializes (process : Process) (config : InitConfig) (libraries : Libraries) :
    Initializes process (initTelemetryInner features alreadySet process config libraries).1
      (initTelemetryInner features alreadySet process config libraries).2 := by
  unfold initTelemetryInner
  split
  · split
    · split
      · exact initOtelSubscriber_initializes features alreadySet process config libraries
      · exact ⟨Nat.le_refl _, rfl⟩
    · exact ⟨Nat.le_refl _, rfl⟩
  · exact initLocalSubscriber_initializes alreadySet process libraries.tryInit

theorem initTelemetry_initializes (process : Process) (config : InitConfig) (libraries : Libraries) :
    Initializes process (initTelemetry features alreadySet process config libraries).1
      (initTelemetry features alreadySet process config libraries).2 := by
  unfold initTelemetry
  split
  · have hinner := initTelemetryInner_initializes features alreadySet process config libraries
    generalize initTelemetryInner features alreadySet process config libraries = r at hinner ⊢
    obtain ⟨result, process'⟩ := r
    cases result with
    | ok guard => exact hinner
    | error error =>
      obtain ⟨hproviders, hsubscriber⟩ := hinner
      simp only at hproviders hsubscriber ⊢
      split
      · -- the second attempt, in the process the first left
        obtain ⟨hle, hlocal⟩ := initLocalSubscriber_initializes alreadySet process' libraries.tryInitLocal
        refine ⟨hproviders.trans hle, ?_⟩
        generalize initLocalSubscriber alreadySet process' libraries.tryInitLocal = r at hlocal ⊢
        obtain ⟨result, process''⟩ := r
        cases result with
        | ok guard =>
          obtain ⟨h1, h2, h3⟩ := hlocal
          exact ⟨hsubscriber ▸ h1, h2, fun p hp => ⟨hproviders.trans (h3 p hp).1, (h3 p hp).2⟩⟩
        | error error => exact Eq.trans hlocal hsubscriber
      · exact ⟨hproviders, hsubscriber⟩
  · exact ⟨Nat.le_refl _, rfl⟩

/-! ## Guards -/

/-- Where a guard is kept: in an initializer, or by a caller of `init_telemetry`. -/
inductive Place where
  | once (i : Nat)
  | owned (g : Nat)
  deriving DecidableEq

def World.guardAt (w : World) : Place → Option TelemetryGuard
  | .once i =>
    match w.once i with
    | .active guard => some guard
    | _ => none
  | .owned g => w.guards[g]?.join

/-- What is shut down with a guard. -/
def providersOf (guard : Option TelemetryGuard) : List Nat := (guard.bind TelemetryGuard.provider).toList

theorem providersOf_nodup (guard : Option TelemetryGuard) : (providersOf guard).Nodup := by
  unfold providersOf
  cases guard.bind TelemetryGuard.provider with
  | none => exact List.nodup_nil
  | some provider => exact List.nodup_singleton provider

theorem TelemetryGuard.shutdown_eq (guard : TelemetryGuard) (shutDown : List Nat) (result : Except Str Unit) :
    (guard.shutdown shutDown result).2 = (⟨none⟩, shutDown ++ providersOf (some guard)) := by
  obtain ⟨_ | provider⟩ := guard
  · exact congrArg (Prod.mk _) (List.append_nil shutDown).symm
  · rfl

theorem TelemetryGuard.drop_eq (guard : TelemetryGuard) (shutDown : List Nat) (result : Except Str Unit) :
    guard.drop shutDown result = shutDown ++ providersOf (some guard) :=
  congrArg Prod.snd (guard.shutdown_eq shutDown result)

/-- From one process to the next: no initialization, and at most the guard of one place is changed, its
provider then being taken from it and shut down. -/
structure Releases (place : Place) (w w' : World) : Prop where
  process : w'.process = w.process
  other : ∀ q, q ≠ place → w'.guardAt q = w.guardAt q
  emptied : ∀ guard, w'.guardAt place = some guard → guard.provider = none ∧ w.guardAt place ≠ none
  shutDown : w'.shutDown = w.shutDown ++ providersOf (w.guardAt place)

theorem guardAt_update_once (w : World) (process : Process) (i : Nat) (state : TelemetryOnceState) (shutDown : List Nat)
    (q : Place) (hq : q ≠ .once i) :
    (World.mk process (Function.update w.once i state) w.guards shutDown).guardAt q = w.guardAt q := by
  cases q with
  | once j =>
    have hne : j ≠ i := fun hji => hq (congrArg Place.once hji)
    simp only [World.guardAt, Function.update_of_ne hne]
  | owned g => rfl

theorem guardAt_shutdown {w : World} {i : Nat} (h : w.once i = .shutdown) : w.guardAt (.once i) = none := by
  simp only [World.guardAt, h]

theorem drop_eq (w : World) (i : Nat) (result : Except Str Unit) : w.drop i result =
    ⟨w.process, Function.update w.once i .shutdown, w.guards, w.shutDown ++ providersOf (w.guardAt (.once i))⟩ := by
  unfold World.drop
  cases hi : w.once i with
  | active guard =>
    have hguard : w.guardAt (.once i) = some guard := by simp only [World.guardAt, hi]
    simp only [guard.drop_eq, hguard]
  | empty =>
    have hnone : w.guardAt (.once i) = none := by simp only [World.guardAt, hi]
    rw [hnone]
    exact congrArg (World.mk _ _ _) (List.append_nil _).symm
  | shutdown =>
    rw [guardAt_shutdown hi]
    exact congrArg (World.mk _ _ _) (List.append_nil _).symm

theorem drop_releases (w : World) (i : Nat) (result : Except Str Unit) : Releases (.once i) w (w.drop i result) := by
  rw [drop_eq]
  refine ⟨rfl, guardAt_update_once w w.process i .shutdown _, fun guard hguard => ?_, rfl⟩
  rw [guardAt_shutdown (Function.update_self ..)] at hguard
  cases hguard

/-- The guard is shut down once: when it goes out of scope its provider is gone. -/
theorem shutdown_eq_drop (w : World) (i : Nat) (result dropped : Except Str Unit) :
    (w.shutdown i result dropped).2 = w.drop i result := by
  unfold World.shutdown World.drop
  cases w.once i with
  | active guard =>
    simp only [guard.shutdown_eq, guard.drop_eq, TelemetryGuard.drop_eq ⟨none⟩]
    exact congrArg (World.mk _ _ _) (List.append_nil _)
  | empty => rfl
  | shutdown => rfl

theorem guardAt_set (w : World) (g : Nat) (guard : Option TelemetryGuard) (shutDown : List Nat) (q : Place)
    (hq : q ≠ .owned g) :
    ({ w with guards := w.guards.set g guard, shutDown := shutDown } : World).guardAt q = w.guardAt q := by
  cases q with
  | once i => rfl
  | owned j =>
    have hne : g ≠ j := fun hgj => hq (congrArg Place.owned hgj.symm)
    simp only [World.guardAt, List.getElem?_set_ne hne]

theorem shutdownGuard_releases (w : World) (g : Nat) (result : Except Str Unit) :
    Releases (.owned g) w (w.shutdownGuard g result).2 := by
  unfold World.shutdownGuard
  split
  · next guard hg =>
    have hbefore : w.guardAt (.owned g) = some guard := by simp only [World.guardAt, hg, Option.join_some]
    have hlt : g < w.guards.length := (List.getElem?_eq_some_iff.1 hg).1
    simp only [guard.shutdown_eq]
    refine ⟨rfl, guardAt_set w g _ _, fun guard' hguard' => ?_, by rw [hbefore]⟩
    simp only [World.guardAt, List.getElem?_set_self hlt, Option.join_some, Option.some.injEq] at hguard'
    rw [← hguard', hbefore]
    exact ⟨rfl, Option.some_ne_none guard⟩
  · next hnone =>
    have hbefore : w.guardAt (.owned g) = none := by
      simp only [World.guardAt]
      rcases hg : w.guards[g]? with _ | _ | guard
      · rfl
      · rfl
      · exact absurd hg (hnone guard)
    refine ⟨rfl, fun _ _ => rfl, fun guard hguard => ?_, ?_⟩
    · rw [hbefore] at hguard
      cases hguard
    · rw [hbefore]
      exact (List.append_nil _).symm

theorem dropGuard_releases (w : World) (g : Nat) (result : Except Str Unit) :
    Releases (.owned g) w (w.dropGuard g result) := by
  have hshut := shutdownGuard_releases w g result
  unfold World.shutdownGuard at hshut
  unfold World.dropGuard
  split
  · next guard hg =>
    simp only [hg] at hshut
    have hlt : g < w.guards.length := (List.getElem?_eq_some_iff.1 hg).1
    refine ⟨rfl, guardAt_set w g _ _, fun guard' hguard' => ?_, hshut.shutDown⟩
    simp only [World.guardAt, List.getElem?_set_self hlt, Option.join_some] at hguard'
    cases hguard'
  · next hnone =>
    split at hshut
    · next guard hg => exact absurd hg (hnone guard)
    · exact hshut

/-! ## The invariant -/

/-- The event is an initialization that worked. -/
def initialized (e : Call × Answer) : Bool :=
  match e.2 with
  | .init (.ok true) => true
  | .initTelemetry (.ok _) => true
  | _ => false

/-- A process in which `n` initializations have worked. -/
structure Sound (n : Nat) (w : World) : Prop where
  le_one : n ≤ 1
  subscriber : n = 1 → w.process.subscriber = true
  held : ∀ place guard, w.guardAt place = some guard → n = 1
  unique : ∀ place place' guard guard', w.guardAt place = some guard → w.guardAt place' = some guard' → place = place'
  provider : ∀ place guard p, w.guardAt place = some guard → guard.provider = some p →
    p < w.process.providers ∧ p ∉ w.shutDown
  shutDown_lt : ∀ p ∈ w.shutDown, p < w.process.providers
  shutDown_nodup : w.shutDown.Nodup

theorem sound_fresh : Sound 0 .fresh := by
  have hnone (place : Place) (guard : TelemetryGuard) : World.fresh.guardAt place ≠ some guard := by
    cases place <;> nofun
  exact ⟨Nat.zero_le 1, nofun, fun place guard h => absurd h (hnone place guard),
    fun place _ guard _ h => absurd h (hnone place guard), fun place guard _ h => absurd h (hnone place guard), nofun,
    List.nodup_nil⟩

/-- Nothing but the process changes. -/
theorem Sound.of_process {n : Nat} {w : World} (h : Sound n w) {process : Process}
    (hsubscriber : w.process.subscriber = true → process.subscriber = true)
    (hle : w.process.providers ≤ process.providers) : Sound n { w with process := process } := by
  have hguardAt (place : Place) : ({ w with process := process } : World).guardAt place = w.guardAt place := by
    cases place <;> rfl
  refine ⟨h.le_one, fun hn => hsubscriber (h.subscriber hn), fun place guard => ?_, fun place place' guard guard' => ?_,
    fun place guard p => ?_, fun p hp => Nat.lt_of_lt_of_le (h.shutDown_lt p hp) hle, h.shutDown_nodup⟩
  · rw [hguardAt]
    exact h.held place guard
  · rw [hguardAt, hguardAt]
    exact h.unique place place' guard guard'
  · rw [hguardAt]
    intro hguard hp
    obtain ⟨hlt, hmem⟩ := h.provider place guard p hguard hp
    exact ⟨Nat.lt_of_lt_of_le hlt hle, hmem⟩

/-- An initialization that works puts the only guard at a place. -/
theorem Sound.installed {n : Nat} {w w' : World} (h : Sound n w) {place : Place} {guard : TelemetryGuard}
    (hinit : Initializes w.process (.ok guard) w'.process) (hplace : w'.guardAt place = some guard)
    (hother : ∀ q, q ≠ place → w'.guardAt q = w.guardAt q) (hshut : w'.shutDown = w.shutDown) : Sound (n + 1) w' := by
  obtain ⟨hle, hbefore, hafter, hprovider⟩ := hinit
  -- there was no subscriber, so no initialization has worked before
  have hzero : n = 0 := by
    have hle1 := h.le_one
    have hne : n ≠ 1 := fun hn => by rw [h.subscriber hn] at hbefore; cases hbefore
    omega
  have honly : ∀ q guard', w'.guardAt q = some guard' → q = place ∧ guard' = guard := by
    intro q guard' hq
    by_cases heq : q = place
    · rw [heq, hplace] at hq
      exact ⟨heq, (Option.some.inj hq).symm⟩
    · rw [hother q heq] at hq
      have := h.held q guard' hq
      omega
  refine ⟨by omega, fun _ => hafter, fun _ _ _ => by omega, fun q q' g g' hq hq' => ?_, fun q guard' p hq hp => ?_,
    fun p hp => ?_, hshut ▸ h.shutDown_nodup⟩
  · rw [(honly q g hq).1, (honly q' g' hq').1]
  · obtain ⟨-, rfl⟩ := honly q guard' hq
    obtain ⟨hge, hlt⟩ := hprovider p hp
    refine ⟨hlt, fun hmem => ?_⟩
    rw [hshut] at hmem
    have := h.shutDown_lt p hmem
    omega
  · rw [hshut] at hp
    exact Nat.lt_of_lt_of_le (h.shutDown_lt p hp) hle

/-- A provider that is shut down is taken from the only guard there is. -/
theorem Sound.released {n : Nat} {w w' : World} (h : Sound n w) {place : Place} (hw : Releases place w w') :
    Sound n w' := by
  have hheld : ∀ q guard, w'.guardAt q = some guard → w.guardAt q ≠ none := by
    intro q guard hq
    by_cases heq : q = place
    · subst heq
      exact (hw.emptied guard hq).2
    · rw [← hw.other q heq, hq]
      exact Option.some_ne_none guard
  have htaken : ∀ p ∈ providersOf (w.guardAt place), p < w.process.providers ∧ p ∉ w.shutDown := by
    intro p hp
    rw [providersOf, Option.mem_toList, Option.bind_eq_some_iff] at hp
    obtain ⟨guard, hguard, hp⟩ := hp
    exact h.provider place guard p hguard hp
  refine ⟨h.le_one, ?_, fun q guard hq => ?_, fun q q' guard guard' hq hq' => ?_, fun q guard p hq hp => ?_, ?_, ?_⟩
  · rw [hw.process]
    exact h.subscriber
  · obtain ⟨guard', hguard'⟩ := Option.ne_none_iff_exists'.1 (hheld q guard hq)
    exact h.held q guard' hguard'
  · obtain ⟨g, hg⟩ := Option.ne_none_iff_exists'.1 (hheld q guard hq)
    obtain ⟨g', hg'⟩ := Option.ne_none_iff_exists'.1 (hheld q' guard' hq')
    exact h.unique q q' g g' hg hg'
  · have hne : q ≠ place := by
      rintro rfl
      rw [(hw.emptied guard hq).1] at hp
      cases hp
    rw [hw.other q hne] at hq
    obtain ⟨hlt, hmem⟩ := h.provider q guard p hq hp
    rw [hw.process, hw.shutDown, List.mem_append, not_or]
    refine ⟨hlt, hmem, fun htaken => ?_⟩
    -- the guard that is released would be a second one
    rw [providersOf, Option.mem_toList, Option.bind_eq_some_iff] at htaken
    obtain ⟨guard', hguard', -⟩ := htaken
    exact hne (h.unique q place guard guard' hq hguard')
  · rw [hw.process, hw.shutDown, List.forall_mem_append]
    exact ⟨h.shutDown_lt, fun p hp => (htaken p hp).1⟩
  · rw [hw.shutDown, List.nodup_append]
    refine ⟨h.shutDown_nodup, providersOf_nodup _, fun p hp q hq => ?_⟩
    rintro rfl
    exact (htaken p hq).2 hp

theorem Sound.init {n : Nat} {w : World} (h : Sound n w) (i : Nat) (config : InitConfig) (libraries : Libraries) :
    Sound (n + if (w.init features alreadySet i config libraries).1 = .ok true then 1 else 0)
      (w.init features alreadySet i config libraries).2 := by
  unfold World.init
  cases hi : w.once i with
  | active guard => exact h
  | shutdown => exact h
  | empty =>
    have hinit := initTelemetry_initializes features alreadySet w.process config libraries
    simp only
    generalize initTelemetry features alreadySet w.process config libraries = r at hinit ⊢
    obtain ⟨result, process⟩ := r
    cases result with
    | error error => exact h.of_process (fun hset => hinit.2.trans hset) hinit.1
    | ok guard =>
      show Sound (n + 1) { w with process := process, once := Function.update w.once i (.active guard) }
      have hplace : ({ w with process := process, once := Function.update w.once i (.active guard) } : World).guardAt
          (.once i) = some guard := by
        simp only [World.guardAt, Function.update_self]
      exact h.installed hinit hplace (guardAt_update_once w process i _ _) rfl

theorem guardAt_append (w : World) (process : Process) (guard : TelemetryGuard) (q : Place)
    (hq : q ≠ .owned w.guards.length) :
    ({ w with process := process, guards := w.guards ++ [some guard] } : World).guardAt q = w.guardAt q := by
  cases q with
  | once i => rfl
  | owned g =>
    have hne : g ≠ w.guards.length := fun hg => hq (congrArg Place.owned hg)
    simp only [World.guardAt]
    rcases Nat.lt_or_gt_of_ne hne with hlt | hgt
    · rw [List.getElem?_append_left hlt]
    · rw [List.getElem?_eq_none (by rw [List.length_append, List.length_singleton]; omega),
        List.getElem?_eq_none (Nat.le_of_lt hgt)]

theorem Sound.initTelemetry {n : Nat} {w : World} (h : Sound n w) (config : InitConfig) (libraries : Libraries) :
    Sound (n + if (w.initTelemetry features alreadySet config libraries).1.isOk then 1 else 0)
      (w.initTelemetry features alreadySet config libraries).2 := by
  unfold World.initTelemetry
  have hinit := initTelemetry_initializes features alreadySet w.process config libraries
  generalize Telemetry.initTelemetry features alreadySet w.process config libraries = r at hinit ⊢
  obtain ⟨result, process⟩ := r
  cases result with
  | error error => exact h.of_process (fun hset => hinit.2.trans hset) hinit.1
  | ok guard =>
    have hplace : ({ w with process := process, guards := w.guards ++ [some guard] } : World).guardAt
        (.owned w.guards.length) = some guard := by
      simp only [World.guardAt, List.getElem?_concat_length, Option.join_some]
    exact h.installed hinit hplace (guardAt_append w process guard) rfl

theorem Sound.step {n : Nat} {w : World} (h : Sound n w) (call : Call) :
    Sound (n + if initialized (call, ((world features alreadySet).step w call).1) then 1 else 0)
      ((world features alreadySet).step w call).2 := by
  cases call with
  | init i config libraries =>
    have hinit := h.init features alreadySet i config libraries
    rcases hanswer : (w.init features alreadySet i config libraries).1 with error | _ | _
    · simpa [world, initialized, hanswer] using hinit
    · simpa [world, initialized, hanswer] using hinit
    · simpa [world, initialized, hanswer] using hinit
  | initTelemetry config libraries =>
    have hinit := h.initTelemetry features alreadySet config libraries
    cases hanswer : (w.initTelemetry features alreadySet config libraries).1 with
    | error error => simpa [world, initialized, hanswer, Except.isOk, Except.toBool] using hinit
    | ok g => simpa [world, initialized, hanswer, Except.isOk, Except.toBool] using hinit
  | shutdown i result dropped =>
    have hreleased := h.released (drop_releases w i result)
    rw [← shutdown_eq_drop w i result dropped] at hreleased
    simpa [world, initialized] using hreleased
  | drop i result => simpa [world, initialized] using h.released (drop_releases w i result)
  | shutdownGuard g result => simpa [world, initialized] using h.released (shutdownGuard_releases w g result)
  | dropGuard g result => simpa [world, initialized] using h.released (dropGuard_releases w g result)
  | installElsewhere => exact h.of_process (fun _ => rfl) (Nat.le_refl _)

/-! ## Once for the process -/

/-- A shut-down initializer stays so. -/
theorem shutdown_step {w : World} {i : Nat} (h : w.once i = .shutdown) (call : Call) :
    (((world features alreadySet).step w call).2).once i = .shutdown := by
  have hdrop : ∀ j result, (w.drop j result).once i = .shutdown := by
    intro j result
    rw [drop_eq]
    exact (Function.update_apply ..).trans (by rw [h, ite_self])
  cases call with
  | init j config libraries =>
    simp only [world, World.init]
    by_cases hij : i = j
    · subst hij
      rw [h]
      exact h
    · cases w.once j with
      | active guard => exact h
      | shutdown => exact h
      -- another slot may become active
      | empty =>
        simp only
        split
        · exact h
        · exact (Function.update_of_ne hij ..).trans h
  | shutdown j result dropped =>
    show (w.shutdown j result dropped).2.once i = .shutdown
    rw [shutdown_eq_drop]
    exact hdrop j result
  | drop j result => exact hdrop j result
  | initTelemetry config libraries =>
    simp only [world, World.initTelemetry]
    split <;> exact h
  | shutdownGuard g result =>
    simp only [world, World.shutdownGuard]
    split <;> exact h
  | dropGuard g result =>
    simp only [world, World.dropGuard]
    split <;> exact h
  | installElsewhere => exact h

theorem init_of_shutdown {w : World} {i : Nat} (h : w.once i = .shutdown) (config : InitConfig)
    (libraries : Libraries) :
    (world features alreadySet).step w (.init i config libraries) = (.init (.ok false), w) := by
  simp only [world, World.init, h]

/-- A guard gives its provider to the first shutdown only. -/
theorem shutdownGuard_again (w : World) (g : Nat) (result again : Except Str Unit) :
    (w.shutdownGuard g result).2.shutdownGuard g again = (.ok (), (w.shutdownGuard g result).2) ∧
      ((w.shutdownGuard g result).2.dropGuard g again).shutDown = (w.shutdownGuard g result).2.shutDown := by
  have hself := shutdownGuard_releases w g result
  generalize (w.shutdownGuard g result).2 = w' at hself ⊢
  have hnone : providersOf (w'.guardAt (.owned g)) = [] := by
    cases hguard : w'.guardAt (.owned g) with
    | none => rfl
    | some guard => simp only [providersOf, Option.bind_some, (hself.emptied guard hguard).1, Option.toList_none]
  constructor
  · unfold World.shutdownGuard
    split
    · next guard hg =>
      have hguard : w'.guardAt (.owned g) = some guard := by simp only [World.guardAt, hg, Option.join_some]
      obtain ⟨provider⟩ := guard
      obtain rfl : provider = none := (hself.emptied _ hguard).1
      have hset : w'.guards.set g (some ⟨none⟩) = w'.guards := by
        obtain ⟨hlt, hget⟩ := List.getElem?_eq_some_iff.1 hg
        rw [← hget]
        exact List.set_getElem_self hlt
      simp only [TelemetryGuard.shutdown, hset]
    · rfl
  · rw [(dropGuard_releases w' g again).shutDown, hnone, List.append_nil]

/-- In every run of a process: of all initializations by all initializers and callers at most one works; no
tracer provider is shut down twice, by whatever shutdowns and drops, and none while an initializer or a
caller has it in a guard; a guard that has been shut down is not shut down again, also not when it is
dropped; and once an initializer has been shut down, its later initializations do nothing and answer
`Ok(false)`. -/
theorem telemetry_once (features : Features) (alreadySet : Str) (calls : List Call) :
    let w := (world features alreadySet).exec .fresh calls
    ((world features alreadySet).trace .fresh calls).countP initialized ≤ 1 ∧
    w.shutDown.Nodup ∧
    (∀ place guard p, w.guardAt place = some guard → guard.provider = some p → p ∉ w.shutDown) ∧
    (∀ g result again, (w.shutdownGuard g result).2.shutdownGuard g again = (.ok (), (w.shutdownGuard g result).2) ∧
      ((w.shutdownGuard g result).2.dropGuard g again).shutDown = (w.shutdownGuard g result).2.shutDown) ∧
    ∀ i result dropped config libraries l₁ l₂ l₃,
      calls = l₁ ++ .shutdown i result dropped :: l₂ ++ .init i config libraries :: l₃ →
        let w := (world features alreadySet).exec .fresh (l₁ ++ .shutdown i result dropped :: l₂)
        (world features alreadySet).step w (.init i config libraries) = (.init (.ok false), w) := by
  intro w
  have hsound := (world features alreadySet).trace_inv_nil (J := fun es w => Sound (es.countP initialized) w)
    (E := fun _ => True) (fun es w call hJ _ => by
      rw [List.countP_append, List.countP_singleton]
      exact hJ.step features alreadySet call) calls sound_fresh fun _ _ => trivial
  refine ⟨hsound.le_one, hsound.shutDown_nodup,
    fun place guard p hplace hp => (hsound.provider place guard p hplace hp).2,
    fun g result again => shutdownGuard_again w g result again, ?_⟩
  intro i result dropped config libraries l₁ l₂ l₃ _
  have hshut : ((world features alreadySet).exec .fresh (l₁ ++ .shutdown i result dropped :: l₂)).once i =
      .shutdown := by
    rw [Machine.exec_append, Machine.exec_cons]
    refine (world features alreadySet).exec_inv (I := fun w => w.once i = .shutdown)
      (fun w call hw => shutdown_step features alreadySet hw call) l₂ ?_
    show (World.shutdown _ i result dropped).2.once i = .shutdown
    rw [shutdown_eq_drop, drop_eq]
    exact Function.update_self ..
  exact init_of_shutdown features alreadySet hshut config libraries

end WorldInfra.Telemetry
