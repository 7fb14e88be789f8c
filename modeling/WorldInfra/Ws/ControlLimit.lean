/-
auth-ws-core: the control-frame limiter. Its pruned vector shows, at any later time, the accepted
calls that time still reaches, so each decision counts the whole history.
-/
import WorldInfra.Lib.Machine
import WorldInfra.Lib.SlidingWindow
import WorldInfra.Rust.Text
import WorldInfra.Rust.Time

namespace WorldInfra.Ws

open WorldInfra.Lib WorldInfra.Rust

inductive WsAuthError where
  | authenticationRequired
  | frameTooLarge (len max : Nat)
  | binaryAuthFrame
  | malformedAuthFrame
  | invalidMessageType
  | missingToken
  | invalidAuthNonce
  | controlRateLimited
  deriving DecidableEq, Repr

/-- `saturating_duration_since`, in nanoseconds. -/
def saturatingDurationSince {c : Clock} (now earlier : c.Instant) : Nat := now.1 - earlier.1

structure ControlFrameRateLimit (c : Clock) where
  maxFrames : UInt32
  window : Duration
  acceptedAt : List c.Instant

namespace ControlFrameRateLimit

variable {c : Clock}

def new (maxFrames : UInt32) (window : Duration) : ControlFrameRateLimit c := ⟨maxFrames, window, []⟩

def allowAt (self : ControlFrameRateLimit c) (now : c.Instant) : Bool × ControlFrameRateLimit c :=
  if self.maxFrames = 0 ∨ self.window.isZero then (false, self)
  else
    let acceptedAt := self.acceptedAt.filter fun acceptedAt =>
      saturatingDurationSince now acceptedAt < self.window.nanos
    if acceptedAt.length ≥ self.maxFrames.toNat then (false, { self with acceptedAt := acceptedAt })
    else (true, { self with acceptedAt := acceptedAt ++ [now] })

def requireAllowedAt (self : ControlFrameRateLimit c) (now : c.Instant) :
    Except WsAuthError Unit × ControlFrameRateLimit c :=
  let (allowed, self) := self.allowAt now
  (if allowed then .ok () else .error .controlRateLimited, self)

end ControlFrameRateLimit

/-- Calls of `allow_at` on one limiter. -/
def controlLimit (c : Clock) : Machine (ControlFrameRateLimit c) c.Instant Bool where
  step limit now := limit.allowAt now

section

variable {c : Clock}

/-- The accepted calls of a run. -/
def accepted (events : List (c.Instant × Bool)) : List c.Instant := (events.filter Prod.snd).map Prod.fst

theorem accepted_refused (events : List (c.Instant × Bool)) (now : c.Instant) :
    accepted (events ++ [(now, false)]) = accepted events := by
  simp [accepted]

theorem accepted_allowed (events : List (c.Instant × Bool)) (now : c.Instant) :
    accepted (events ++ [(now, true)]) = accepted events ++ [now] := by
  simp [accepted]

theorem mem_of_accepted {events : List (c.Instant × Bool)} {t : c.Instant} (h : t ∈ accepted events) :
    ∃ e ∈ events, e.1 = t := by
  obtain ⟨e, he, rfl⟩ := List.mem_map.1 h
  exact ⟨e, List.mem_of_mem_filter he, rfl⟩

variable {maxFrames : UInt32} {window : Duration}

/-- A decision and the vector it leaves: what the call still reaches, and the call itself if that is
fewer than `max_frames`. -/
theorem allowAt_spec (hmax : maxFrames ≠ 0) (hw : window.isZero = false) (held : List c.Instant) (now : c.Instant) :
    let kept := reaching Subtype.val window.nanos now.1 held
    (ControlFrameRateLimit.mk maxFrames window held).allowAt now =
      if kept.length ≥ maxFrames.toNat then (false, ⟨maxFrames, window, kept⟩)
      else (true, ⟨maxFrames, window, kept ++ [now]⟩) := by
  intro kept
  have hpos : 0 < window.nanos := by
    rw [Duration.isZero, beq_eq_false_iff_ne] at hw
    omega
  have hkept : held.filter (fun acceptedAt => decide (saturatingDurationSince now acceptedAt < window.nanos)) =
      kept := by
    refine List.filter_congr fun a _ => decide_eq_decide.2 ?_
    rw [saturatingDurationSince]
    omega
  have hon : ¬ (maxFrames = 0 ∨ window.isZero = true) := by
    rw [hw]
    rintro (h | h)
    · exact hmax h
    · cases h
  unfold ControlFrameRateLimit.allowAt
  rw [if_neg hon]
  simp only [hkept]

/-- What a limiter is after a run: it holds few calls, any later time reaches the same of them as of
all accepted calls, and these are sparse. -/
structure Reflects (maxFrames : UInt32) (window : Duration) (events : List (c.Instant × Bool))
    (limit : ControlFrameRateLimit c) : Prop where
  config : limit = ⟨maxFrames, window, limit.acceptedAt⟩
  bound : limit.acceptedAt.length ≤ maxFrames.toNat
  seen : ∀ t, (∀ e ∈ events, e.1.1 ≤ t) →
    reaching Subtype.val window.nanos t limit.acceptedAt = reaching Subtype.val window.nanos t (accepted events)
  sparse : Sparse Subtype.val window.nanos maxFrames.toNat (accepted events).reverse

theorem reflects_new :
    Reflects maxFrames window [] (ControlFrameRateLimit.new maxFrames window : ControlFrameRateLimit c) where
  config := rfl
  bound := Nat.zero_le _
  seen _ _ := rfl
  sparse := trivial

/-- One call no earlier than those before it. -/
theorem Reflects.step (hmax : maxFrames ≠ 0) (hw : window.isZero = false) {events : List (c.Instant × Bool)}
    {limit : ControlFrameRateLimit c} (h : Reflects maxFrames window events limit) {now : c.Instant}
    (hnow : ∀ e ∈ events, e.1.1 ≤ now.1) :
    ((limit.allowAt now).1 = true ↔
        (reaching Subtype.val window.nanos now.1 (accepted events)).length < maxFrames.toNat) ∧
      Reflects maxFrames window (events ++ [(now, (limit.allowAt now).1)]) (limit.allowAt now).2 := by
  have hkept := h.seen now.1 hnow
  have hspec := allowAt_spec hmax hw limit.acceptedAt now
  simp only [← h.config, hkept] at hspec
  rw [hspec]
  have hlater : ∀ {t : Nat} {b : Bool}, (∀ e ∈ events ++ [(now, b)], e.1.1 ≤ t) → now.1 ≤ t := fun ht =>
    ht _ (List.mem_append_right _ (List.mem_singleton_self _))
  split
  -- refused: what is remembered was in the window and stays
  · rename_i hfull
    simp only
    refine ⟨?_, rfl, ?_, ?_, ?_⟩
    · constructor
      · rintro ⟨⟩
      · intro hlt
        exact absurd hlt (Nat.not_lt_of_le hfull)
    · rw [← hkept]
      exact le_trans (length_reaching_le _ _) h.bound
    · intro t ht
      rw [accepted_refused, reaching_reaching (hlater ht)]
    · rw [accepted_refused]
      exact h.sparse
  -- allowed: one more is remembered, and there was room for it
  · rename_i hfree
    have hlt := Nat.lt_of_not_le hfree
    simp only
    refine ⟨⟨fun _ => hlt, fun _ => trivial⟩, rfl, ?_, ?_, ?_⟩
    · rw [List.length_append, List.length_singleton]
      exact hlt
    · intro t ht
      rw [accepted_allowed, reaching_append, reaching_append, reaching_reaching (hlater ht)]
    · rw [accepted_allowed, List.reverse_append, List.reverse_singleton, List.singleton_append]
      refine ⟨?_, h.sparse⟩
      rw [length_reaching_reverse]
      exact hlt

/-- A whole run of calls in order. -/
theorem reflects_run (hmax : maxFrames ≠ 0) (hw : window.isZero = false) : ∀ {calls : List c.Instant}
    {events : List (c.Instant × Bool)} {limit : ControlFrameRateLimit c}, Reflects maxFrames window events limit →
      (∀ e ∈ events, ∀ now ∈ calls, e.1.1 ≤ now.1) → calls.Pairwise (fun s t => s.1 ≤ t.1) →
        Reflects maxFrames window (events ++ (controlLimit c).trace limit calls) ((controlLimit c).exec limit calls)
  | [], events, limit, h, _, _ => by rw [Machine.trace_nil, List.append_nil]; exact h
  | now :: calls, events, limit, h, hbefore, hsorted => by
    rw [List.pairwise_cons] at hsorted
    obtain ⟨-, hnext⟩ := h.step hmax hw fun e he => hbefore e he now (List.mem_cons_self ..)
    have hordered : ∀ e ∈ events ++ [(now, (limit.allowAt now).1)], ∀ t ∈ calls, e.1.1 ≤ t.1 := by
      intro e he t ht
      rcases List.mem_append.1 he with he | he
      · exact hbefore e he t (List.mem_cons_of_mem _ ht)
      · rw [List.mem_singleton.1 he]
        exact hsorted.1 t ht
    have hrun := reflects_run hmax hw hnext hordered hsorted.2
    rwa [List.append_assoc] at hrun

/-- Without frames or a window nothing is ever accepted. -/
theorem trace_off (hoff : maxFrames = 0 ∨ window.isZero = true) : ∀ (held : List c.Instant) (calls : List c.Instant),
    ∀ e ∈ (controlLimit c).trace ⟨maxFrames, window, held⟩ calls, e.2 = false
  | _, [] => fun e he => nomatch he
  | held, now :: calls => by
    have hstep : (controlLimit c).step ⟨maxFrames, window, held⟩ now = (false, ⟨maxFrames, window, held⟩) := if_pos hoff
    intro e he
    rw [Machine.trace_cons, hstep] at he
    rcases List.mem_cons.1 he with rfl | he
    · rfl
    · exact trace_off hoff held calls e he

/-- The calls of a trace stand in the order of the run. -/
theorem pairwise_trace {limit : ControlFrameRateLimit c} {calls : List c.Instant}
    (hsorted : calls.Pairwise fun s t => s.1 ≤ t.1) {es fs : List (c.Instant × Bool)} {now : c.Instant} {b : Bool}
    (htrace : (controlLimit c).trace limit calls = es ++ (now, b) :: fs) : ∀ e ∈ es, e.1.1 ≤ now.1 := by
  have hmap := congrArg (List.map Prod.fst) htrace
  rw [Machine.map_fst_trace, List.map_append, List.map_cons] at hmap
  rw [hmap, List.pairwise_append] at hsorted
  intro e he
  exact hsorted.2.2 e.1 (List.mem_map_of_mem he) now (List.mem_cons_self ..)

end

/-- A limiter with frames and a window, called in order of time: any half-open interval as long as
the window holds at most `max_frames` accepted calls, a call is rejected exactly when as many
were accepted in the window that ends with it, and no more are ever held. -/
theorem controlLimit_slidingWindow (c : Clock) (maxFrames : UInt32) (window : Duration) (calls : List c.Instant) :
    ((maxFrames = 0 ∨ window.isZero = true) → ∀ b ∈ (controlLimit c).outputs (.new maxFrames window) calls, b = false) ∧
    (maxFrames ≠ 0 → window.isZero = false → calls.Pairwise (fun s t => s.1 ≤ t.1) →
      (∀ start : ℤ,
        (accepted ((controlLimit c).trace (.new maxFrames window) calls)).countP
            (fun t => start ≤ (t.1 : ℤ) ∧ (t.1 : ℤ) < start + window.nanos) ≤ maxFrames.toNat ∧
        (accepted ((controlLimit c).trace (.new maxFrames window) calls)).countP
            (fun t => start < (t.1 : ℤ) ∧ (t.1 : ℤ) ≤ start + window.nanos) ≤ maxFrames.toNat) ∧
      (∀ es now b fs, (controlLimit c).trace (.new maxFrames window) calls = es ++ (now, b) :: fs →
        (b = false ↔ (accepted es).countP
          (fun t => (now.1 : ℤ) - window.nanos < t.1 ∧ (t.1 : ℤ) ≤ now.1) = maxFrames.toNat)) ∧
      ∀ done later, calls = done ++ later →
        ((controlLimit c).exec (.new maxFrames window) done).acceptedAt.length ≤ maxFrames.toNat) := by
  constructor
  · intro hoff b hb
    obtain ⟨e, he, rfl⟩ := List.mem_map.1 hb
    exact trace_off hoff [] calls e he
  · intro hmax hw hsorted
    -- what the limiter is after the calls so far
    have hreflects : ∀ {done : List c.Instant}, done.Pairwise (fun s t => s.1 ≤ t.1) →
        Reflects maxFrames window ((controlLimit c).trace (.new maxFrames window) done)
          ((controlLimit c).exec (.new maxFrames window) done) := fun hdone =>
      reflects_run hmax hw reflects_new (fun e he => nomatch he) hdone
    refine ⟨fun start => ?_, ?_, ?_⟩
    · have hsparse := (hreflects hsorted).sparse
      constructor
      · rw [← List.countP_reverse]
        refine hsparse.countP_le fun a b ha hb => ?_
        rw [decide_eq_true_eq] at ha hb
        omega
      · rw [← List.countP_reverse]
        refine hsparse.countP_le fun a b ha hb => ?_
        rw [decide_eq_true_eq] at ha hb
        omega
    · intro es now b fs htrace
      have hbefore := pairwise_trace hsorted htrace
      obtain ⟨done, later, rfl, rfl, rfl, -⟩ := Machine.trace_eq_append_cons _ htrace
      have hdone := hreflects (List.pairwise_append.1 hsorted).1
      obtain ⟨hdecision, -⟩ := hdone.step hmax hw hbefore
      have hcount : (accepted ((controlLimit c).trace (.new maxFrames window) done)).countP
          (fun t => (now.1 : ℤ) - window.nanos < t.1 ∧ (t.1 : ℤ) ≤ now.1) =
            (reaching Subtype.val window.nanos now.1
              (accepted ((controlLimit c).trace (.new maxFrames window) done))).length := by
        rw [reaching, ← List.countP_eq_length_filter]
        refine List.countP_congr fun t ht => ?_
        obtain ⟨e, he, rfl⟩ := mem_of_accepted ht
        have := hbefore e he
        rw [decide_eq_true_eq, decide_eq_true_eq]
        omega
      have hfew : (reaching Subtype.val window.nanos now.1
          (accepted ((controlLimit c).trace (.new maxFrames window) done))).length ≤ maxFrames.toNat := by
        rw [← hdone.seen now.1 hbefore]
        exact le_trans (length_reaching_le _ _) hdone.bound
      show (((controlLimit c).exec _ done).allowAt now).1 = false ↔ _
      rw [hcount, ← Bool.not_eq_true, hdecision]
      omega
    · rintro done later rfl
      exact (hreflects (List.pairwise_append.1 hsorted).1).bound

/-- Two frames a second: the third call has to wait until the first is a second old. -/
theorem controlLimit_slidingWindow_burst :
    let calls := [0, 900, 950, 1000, 1001].map fun millis => readingAt (millis * 10 ^ 6)
    let trace := (controlLimit .i64Secs).trace (.new 2 (.fromSecs 1)) calls
    trace.map Prod.snd = [true, true, false, true, false] ∧
      ∀ start : ℤ, (accepted trace).countP (fun t => start ≤ (t.1 : ℤ) ∧ (t.1 : ℤ) < start + 10 ^ 9) ≤ 2 := by
  intro calls trace
  refine ⟨by decide, fun start => ?_⟩
  obtain ⟨hcount, -⟩ := (controlLimit_slidingWindow .i64Secs 2 (.fromSecs 1) calls).2 (by decide) (by decide)
    (by decide)
  exact (hcount start).1

end WorldInfra.Ws
