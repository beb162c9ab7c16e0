import KitiumJobQueue.Foundations.Loops
import KitiumJobQueue.JobChain.Dependencies

/-!
# How often the results are read

The loops of `waitForDependencies` as they are written, without a bound: `Waits` says how a call
ends. It always does, and in one way (`waits_iff_run`), with at most one read for each dependency
and one for each hundred milliseconds of the time for all of them (`reads_le`). What carries the
bound is `Moment.credit`, the reads made and the rounds that are left: a read that finds nothing is
paid for by the sleep after it, and each dependency has one read of its own.
-/

namespace KitiumJobQueue.JobChain

open Effects JavaScript

/-! ## The loops without a bound -/

section

variable (env : Environment) (json : JsonText) (keyPrefix : String) (startTime : ℕ) (timeoutMs : ℚ)

/-- A round of the loop of `waitForDependencyResult`. -/
def pollRound (depKey : String) : Async Thrown Moment (Option (Option Json)) := do
  if (((← Async.read Moment.now) : ℚ) - startTime) < timeoutMs then
    match truthy (← get env depKey) with
    | some raw => ⟨fun m => ((json.parse raw).map (some ∘ some), m)⟩
    | none => do
      sleep env
      pure none
  else pure (some none)

/-- A wait for a parent that begins at `m` ends with `r` at `m'`. -/
def WaitsFor (parentJobId : String) (m : Moment) (r : Except Thrown (Option Json)) (m' : Moment) :
    Prop :=
  Async.Loops (pollRound env json startTime timeoutMs (resultKey keyPrefix parentJobId)) m r m'

/-- The loop of `waitForDependencies` over the dependencies, begun at `m`, ends with `r` at `m'`. -/
inductive Collects : List JobDependency → Results → Moment → Except Thrown Results → Moment → Prop
  | done {results : Results} {m : Moment} : Collects [] results m (.ok results) m
  | found {dep : JobDependency} {rest : List JobDependency} {results : Results} {m m₁ m' : Moment}
      {v : Json} {r : Except Thrown Results}
      (wait : WaitsFor env json keyPrefix startTime timeoutMs dep.parentJobId m (.ok (some v)) m₁)
      (later : Collects rest (Function.update results dep.parentJobId v) m₁ r m') :
      Collects (dep :: rest) results m r m'
  | nothing {dep : JobDependency} {rest : List JobDependency} {results : Results}
      {m m₁ m' : Moment} {r : Except Thrown Results}
      (wait : WaitsFor env json keyPrefix startTime timeoutMs dep.parentJobId m (.ok none) m₁)
      (later : Collects rest results m₁ r m') : Collects (dep :: rest) results m r m'
  | failed {dep : JobDependency} {rest : List JobDependency} {results : Results} {m m' : Moment}
      {e : Thrown}
      (wait : WaitsFor env json keyPrefix startTime timeoutMs dep.parentJobId m (.error e) m') :
      Collects (dep :: rest) results m (.error e) m'

/-- `waitForDependencies`, called at `m₀`, ends with `r` at `m'`. -/
def Waits (jobId : String) (m₀ : Moment) (r : Except Thrown Results) (m' : Moment) : Prop :=
  ∃ deps m, (getJobDependencies env json keyPrefix jobId).run m₀ = (.ok deps, m) ∧
    Collects env json keyPrefix m.now timeoutMs deps (fun _ => none) m r m'

end

/-! ## One wait -/

section

variable {env : Environment} {json : JsonText} {keyPrefix key : String} {startTime : ℕ}
  {timeoutMs : ℚ} {m m' : Moment}

theorem run_pollRound_of_expired (h : Expired startTime timeoutMs m) :
    (pollRound env json startTime timeoutMs key).run m = (.ok (some none), m) := by
  rw [pollRound, Async.run_bind_of_ok (Async.run_read _ _), if_neg (not_lt.mpr h)]
  rfl

theorem run_pollRound_of_rejected {e : Thrown} (h : ¬ Expired startTime timeoutMs m)
    (hpoll : env.polled key m = .error e) :
    (pollRound env json startTime timeoutMs key).run m = (.error e, env.answeredAt key m) := by
  rw [pollRound, Async.run_bind_of_ok (Async.run_read _ _), if_pos (not_le.mp h),
    Async.run_bind_of_error (Prod.ext hpoll rfl)]
  rfl

theorem run_pollRound_of_finds {text : String} (h : ¬ Expired startTime timeoutMs m)
    (hpoll : Finds env key m text) :
    (pollRound env json startTime timeoutMs key).run m =
      ((json.parse text).map (some ∘ some), env.answeredAt key m) := by
  obtain ⟨raw, hraw, htext⟩ := hpoll
  rw [pollRound, Async.run_bind_of_ok (Async.run_read _ _), if_pos (not_le.mp h),
    Async.run_bind_of_ok (Prod.ext hraw rfl), htext]
  rfl

theorem run_pollRound_of_misses (h : ¬ Expired startTime timeoutMs m) (hpoll : Misses env key m) :
    (pollRound env json startTime timeoutMs key).run m =
      (.ok none, env.slept (env.answeredAt key m)) := by
  obtain ⟨raw, hraw, htext⟩ := hpoll
  rw [pollRound, Async.run_bind_of_ok (Async.run_read _ _), if_pos (not_le.mp h),
    Async.run_bind_of_ok (Prod.ext hraw rfl), htext]
  rfl

/-- What a round can do. -/
theorem pollRound_cases (env : Environment) (key : String) (startTime : ℕ) (timeoutMs : ℚ)
    (m : Moment) :
    Expired startTime timeoutMs m ∨
    (¬ Expired startTime timeoutMs m ∧ ∃ e, env.polled key m = .error e) ∨
    (¬ Expired startTime timeoutMs m ∧ ∃ text, Finds env key m text) ∨
    (¬ Expired startTime timeoutMs m ∧ Misses env key m) := by
  by_cases hexp : Expired startTime timeoutMs m
  · exact .inl hexp
  · cases hpoll : env.polled key m with
    | error e => exact .inr (.inl ⟨hexp, e, rfl⟩)
    | ok raw =>
      rcases finds_or_misses hpoll with hfinds | hmisses
      · exact .inr (.inr (.inl ⟨hexp, hfinds⟩))
      · exact .inr (.inr (.inr ⟨hexp, hmisses⟩))

/-! ## What a wait may use up -/

/-- The rounds for which there is time left. -/
def roundsLeft (startTime : ℕ) (timeoutMs : ℚ) (m : Moment) : ℕ :=
  ⌈(timeoutMs - (m.now - startTime)) / 100⌉₊

/-- The reads made, and those that the time left allows. -/
def Moment.credit (startTime : ℕ) (timeoutMs : ℚ) (m : Moment) : ℕ :=
  m.polls.length + roundsLeft startTime timeoutMs m

/-- Time that passes allows no more rounds. -/
theorem roundsLeft_anti (h : m.now ≤ m'.now) :
    roundsLeft startTime timeoutMs m' ≤ roundsLeft startTime timeoutMs m := by
  have hnow : (m.now : ℚ) ≤ m'.now := Nat.cast_le.mpr h
  refine Nat.ceil_mono ?_
  linarith

/-- A sleep is worth a round. -/
theorem roundsLeft_slept (env : Environment) (key : String) (h : ¬ Expired startTime timeoutMs m) :
    roundsLeft startTime timeoutMs (env.slept (env.answeredAt key m)) + 1 ≤
      roundsLeft startTime timeoutMs m := by
  have hnow : m.now + 100 ≤ (env.slept (env.answeredAt key m)).now := by
    simp only [Environment.slept, Environment.answeredAt]
    omega
  have hnow' : (m.now : ℚ) + 100 ≤ (env.slept (env.answeredAt key m)).now := by exact_mod_cast hnow
  have hleft : (timeoutMs - (m.now - startTime)) / 100 ≤ roundsLeft startTime timeoutMs m :=
    Nat.le_ceil _
  have hpos : 0 < roundsLeft startTime timeoutMs m := by
    refine Nat.ceil_pos.mpr ?_
    have hbefore := not_le.mp h
    linarith
  obtain ⟨n, hn⟩ := Nat.exists_eq_succ_of_ne_zero hpos.ne'
  rw [hn] at hleft ⊢
  push_cast at hleft
  refine Nat.succ_le_succ (Nat.ceil_le.mpr ?_)
  linarith

theorem length_polls_answeredAt :
    (env.answeredAt key m).polls.length = m.polls.length + 1 := rfl

theorem length_polls_slept : (env.slept m).polls.length = m.polls.length := rfl

/-- A poll that ends the wait raises the credit by one. -/
theorem credit_answeredAt :
    (env.answeredAt key m).credit startTime timeoutMs ≤ m.credit startTime timeoutMs + 1 := by
  have hleft : roundsLeft startTime timeoutMs (env.answeredAt key m) ≤
      roundsLeft startTime timeoutMs m := by
    refine roundsLeft_anti ?_
    simp only [Environment.answeredAt]
    omega
  unfold Moment.credit
  rw [length_polls_answeredAt]
  omega

/-- A poll that finds nothing is paid for by the sleep after it. -/
theorem credit_slept (h : ¬ Expired startTime timeoutMs m) :
    (env.slept (env.answeredAt key m)).credit startTime timeoutMs ≤
      m.credit startTime timeoutMs := by
  have hleft := roundsLeft_slept env key h
  unfold Moment.credit
  rw [length_polls_slept, length_polls_answeredAt]
  omega

/-- A round that is followed by another is one that misses. -/
theorem slept_of_again {m₁ : Moment}
    (h : (pollRound env json startTime timeoutMs key).run m = (.ok none, m₁)) :
    ¬ Expired startTime timeoutMs m ∧ m₁ = env.slept (env.answeredAt key m) := by
  rcases pollRound_cases env key startTime timeoutMs m with
    hexp | ⟨hexp, e, hpoll⟩ | ⟨hexp, text, hfinds⟩ | ⟨hexp, hmisses⟩
  · rw [run_pollRound_of_expired hexp] at h
    cases h
  · rw [run_pollRound_of_rejected hexp hpoll] at h
    cases h
  · rw [run_pollRound_of_finds hexp hfinds] at h
    cases hparse : json.parse text with
    | error e =>
      rw [hparse] at h
      cases h
    | ok v =>
      rw [hparse] at h
      cases h
  · rw [run_pollRound_of_misses hexp hmisses] at h
    cases h
    exact ⟨hexp, rfl⟩

theorem credit_pollRound (m : Moment) :
    ((pollRound env json startTime timeoutMs key).run m).2.credit startTime timeoutMs ≤
      m.credit startTime timeoutMs + 1 := by
  rcases pollRound_cases env key startTime timeoutMs m with
    hexp | ⟨hexp, e, hpoll⟩ | ⟨hexp, text, hfinds⟩ | ⟨hexp, hmisses⟩
  · rw [run_pollRound_of_expired hexp]
    exact Nat.le_succ _
  · rw [run_pollRound_of_rejected hexp hpoll]
    exact credit_answeredAt
  · rw [run_pollRound_of_finds hexp hfinds]
    exact credit_answeredAt
  · rw [run_pollRound_of_misses hexp hmisses]
    exact (credit_slept hexp).trans (Nat.le_succ _)

/-- **One wait.** It ends, and raises the credit by no more than one. -/
theorem exists_waitsFor (env : Environment) (json : JsonText) (keyPrefix : String) (startTime : ℕ)
    (timeoutMs : ℚ) (parentJobId : String) (m : Moment) :
    ∃ r m', WaitsFor env json keyPrefix startTime timeoutMs parentJobId m r m' := by
  refine Async.exists_loops (roundsLeft startTime timeoutMs) (fun m m₁ h => ?_) m
  obtain ⟨hexp, rfl⟩ := slept_of_again h
  exact roundsLeft_slept env _ hexp

theorem WaitsFor.credit_le {parentJobId : String} {r : Except Thrown (Option Json)}
    (h : WaitsFor env json keyPrefix startTime timeoutMs parentJobId m r m') :
    m'.credit startTime timeoutMs ≤ m.credit startTime timeoutMs + 1 := by
  refine Async.Loops.credit (fun m m₁ hagain => ?_) credit_pollRound h
  obtain ⟨hexp, rfl⟩ := slept_of_again hagain
  exact credit_slept hexp

/-- The clock does not go back. -/
theorem WaitsFor.le {parentJobId : String} {r : Except Thrown (Option Json)}
    (h : WaitsFor env json keyPrefix startTime timeoutMs parentJobId m r m') : m.now ≤ m'.now := by
  have hanswered (key : String) (s : Moment) : s.now ≤ (env.answeredAt key s).now := by
    simp only [Environment.answeredAt]
    omega
  refine Async.Loops.preserves (I := fun s => m.now ≤ s.now) (fun s hs => hs.trans ?_) h le_rfl
  rcases pollRound_cases env (resultKey keyPrefix parentJobId) startTime timeoutMs s with
    hexp | ⟨hexp, e, hpoll⟩ | ⟨hexp, text, hfinds⟩ | ⟨hexp, hmisses⟩
  · rw [run_pollRound_of_expired hexp]
  · rw [run_pollRound_of_rejected hexp hpoll]
    exact hanswered _ s
  · rw [run_pollRound_of_finds hexp hfinds]
    exact hanswered _ s
  · rw [run_pollRound_of_misses hexp hmisses]
    refine (hanswered (resultKey keyPrefix parentJobId) s).trans ?_
    simp only [Environment.slept]
    omega

/-- With one round more the loop does what that round does, and goes on if it is to go on. -/
theorem run_pollRounds_eq (n : ℕ) (m : Moment) :
    (pollRounds env json key startTime timeoutMs (n + 1)).run m =
      match (pollRound env json startTime timeoutMs key).run m with
      | (.ok (some r), m') => (.ok r, m')
      | (.ok none, m') => (pollRounds env json key startTime timeoutMs n).run m'
      | (.error e, m') => (.error e, m') := by
  rcases pollRound_cases env key startTime timeoutMs m with
    hexp | ⟨hexp, e, hpoll⟩ | ⟨hexp, text, hfinds⟩ | ⟨hexp, hmisses⟩
  · rw [run_pollRound_of_expired hexp, run_pollRounds_of_expired hexp]
  · rw [run_pollRound_of_rejected hexp hpoll, run_pollRounds_of_rejected hexp hpoll]
  · rw [run_pollRound_of_finds hexp hfinds, run_pollRounds_of_finds hexp hfinds]
    cases json.parse text with
    | error e => rfl
    | ok v => rfl
  · rw [run_pollRound_of_misses hexp hmisses, run_pollRounds_of_misses hexp hmisses]

/-- The loop for as many rounds as there is time does what the loop without a bound does. -/
theorem run_pollRounds_of_loops {r : Except Thrown (Option Json)} {n : ℕ}
    (h : Async.Loops (pollRound env json startTime timeoutMs key) m r m')
    (hn : Enough startTime timeoutMs n m) :
    (pollRounds env json key startTime timeoutMs n).run m = (r, m') := by
  induction h generalizing n with
  | @leave m m' r h =>
    cases n with
    | zero =>
      rw [run_pollRound_of_expired hn.expired] at h
      cases h
      exact run_pollRounds_of_expired hn.expired 0
    | succ n => rw [run_pollRounds_eq, h]
  | @fail m m' e h =>
    cases n with
    | zero =>
      rw [run_pollRound_of_expired hn.expired] at h
      cases h
    | succ n => rw [run_pollRounds_eq, h]
  | @again m m₁ m' r h _ ih =>
    obtain ⟨hexp, hm₁⟩ := slept_of_again h
    cases n with
    | zero => exact absurd hn.expired hexp
    | succ n =>
      rw [run_pollRounds_eq, h]
      exact ih (hm₁ ▸ hn.slept)

theorem WaitsFor.run {parentJobId : String} {r : Except Thrown (Option Json)}
    (h : WaitsFor env json keyPrefix startTime timeoutMs parentJobId m r m')
    (hstart : startTime ≤ m.now) :
    (waitForDependencyResult env json keyPrefix parentJobId startTime timeoutMs).run m = (r, m') :=
  run_pollRounds_of_loops h (enough_rounds hstart)

/-! ## One wait after another -/

/-- **The loop over the dependencies.** It ends. -/
theorem exists_collects (env : Environment) (json : JsonText) (keyPrefix : String) (startTime : ℕ)
    (timeoutMs : ℚ) (deps : List JobDependency) (results : Results) (m : Moment) :
    ∃ r m', Collects env json keyPrefix startTime timeoutMs deps results m r m' := by
  induction deps generalizing results m with
  | nil => exact ⟨.ok results, m, .done⟩
  | cons dep rest ih =>
    obtain ⟨r, m₁, hwait⟩ :=
      exists_waitsFor env json keyPrefix startTime timeoutMs dep.parentJobId m
    match r, hwait with
    | .error e, hwait => exact ⟨.error e, m₁, .failed hwait⟩
    | .ok none, hwait =>
      obtain ⟨r, m', hlater⟩ := ih results m₁
      exact ⟨r, m', .nothing hwait hlater⟩
    | .ok (some v), hwait =>
      obtain ⟨r, m', hlater⟩ := ih (Function.update results dep.parentJobId v) m₁
      exact ⟨r, m', .found hwait hlater⟩

variable {deps : List JobDependency} {results : Results} {r : Except Thrown Results}

/-- Every dependency has one read of its own. -/
theorem Collects.credit_le
    (h : Collects env json keyPrefix startTime timeoutMs deps results m r m') :
    m'.credit startTime timeoutMs ≤ m.credit startTime timeoutMs + deps.length := by
  induction h with
  | done => exact Nat.le_add_right _ _
  | found wait _ ih =>
    have hwait := wait.credit_le
    rw [List.length_cons]
    omega
  | nothing wait _ ih =>
    have hwait := wait.credit_le
    rw [List.length_cons]
    omega
  | failed wait =>
    have hwait := wait.credit_le
    rw [List.length_cons]
    omega

/-- The loop that is computed is the one that is written. -/
theorem Collects.run (h : Collects env json keyPrefix startTime timeoutMs deps results m r m')
    (hstart : startTime ≤ m.now) :
    (collectResults env json keyPrefix startTime timeoutMs deps results).run m = (r, m') := by
  induction h with
  | done => rfl
  | found wait _ ih =>
    rw [run_collectResults_cons _ (wait.run hstart)]
    exact ih (hstart.trans wait.le)
  | nothing wait _ ih =>
    rw [run_collectResults_cons _ (wait.run hstart)]
    exact ih (hstart.trans wait.le)
  | failed wait =>
    rw [collectResults, Async.run_bind_of_error (wait.run hstart)]

end

/-! ## The call -/

section

variable {env : Environment} {json : JsonText} {keyPrefix jobId : String} {timeoutMs : ℚ}
  {m₀ m' : Moment} {r : Except Thrown Results}

/-- The list that is waited for: what is stored, or nothing where that cannot be read. -/
def awaited (env : Environment) (json : JsonText) (keyPrefix jobId : String) :
    List JobDependency :=
  (listed env json keyPrefix jobId).toOption.getD []

theorem keeps_getJobDependencies (env : Environment) (json : JsonText) (keyPrefix jobId : String) :
    Async.Keeps Moment.polls (getJobDependencies env json keyPrefix jobId) := by
  refine .handle (.bind (.perform (fun _ => rfl) _) fun stored => ?_) fun _ => .pure _
  cases truthy stored with
  | none => exact .pure _
  | some text => exact fun _ => rfl

/-- Reading the list makes no read of a result. -/
theorem run_getJobDependencies (env : Environment) (json : JsonText) (keyPrefix jobId : String)
    (m₀ : Moment) :
    ∃ m, (getJobDependencies env json keyPrefix jobId).run m₀ =
        (.ok (awaited env json keyPrefix jobId), m) ∧ m.polls = m₀.polls := by
  have hkeeps := keeps_getJobDependencies env json keyPrefix jobId m₀
  unfold awaited
  cases hlisted : listed env json keyPrefix jobId with
  | error e =>
    obtain ⟨m, hrun⟩ := run_getJobDependencies_of_error hlisted m₀
    rw [hrun] at hkeeps
    exact ⟨m, hrun, hkeeps⟩
  | ok deps =>
    have hread : (readDependencies env json keyPrefix jobId).run m₀ =
        (.ok deps, ((readDependencies env json keyPrefix jobId).run m₀).2) :=
      Prod.ext ((run_readDependencies m₀).trans hlisted) rfl
    have hrun := Async.run_tryCatch_of_ok (h := fun _ => pure []) hread
    rw [show (getJobDependencies env json keyPrefix jobId).run m₀ = _ from hrun] at hkeeps
    exact ⟨_, hrun, hkeeps⟩

/-- **A call ends in one way, and the computed call in that way.** -/
theorem waits_iff_run :
    Waits env json keyPrefix timeoutMs jobId m₀ r m' ↔
      (waitForDependencies env json keyPrefix jobId timeoutMs).run m₀ = (r, m') := by
  constructor
  · rintro ⟨deps, m, hread, hcollects⟩
    rw [run_waitForDependencies timeoutMs hread]
    exact hcollects.run le_rfl
  · intro hrun
    obtain ⟨m, hread, -⟩ := run_getJobDependencies env json keyPrefix jobId m₀
    obtain ⟨r', m'', hcollects⟩ := exists_collects env json keyPrefix m.now timeoutMs
      (awaited env json keyPrefix jobId) (fun _ => none) m
    have hrun' := (run_waitForDependencies timeoutMs hread).trans (hcollects.run le_rfl)
    obtain ⟨rfl, rfl⟩ := Prod.mk.inj (hrun.symm.trans hrun')
    exact ⟨_, m, hread, hcollects⟩

/-- **Reads.** Whatever the timeline of the results and the fate of the reads, the call ends, and it
reads a result at most once for each dependency and once for each hundred milliseconds. -/
theorem reads_le (env : Environment) (json : JsonText) (keyPrefix jobId : String) (timeoutMs : ℚ)
    (calledAt : ℕ) :
    (∃ r m', Waits env json keyPrefix timeoutMs jobId ⟨calledAt, []⟩ r m') ∧
      ∀ r m', Waits env json keyPrefix timeoutMs jobId ⟨calledAt, []⟩ r m' →
        m'.polls.length ≤ (awaited env json keyPrefix jobId).length + ⌈timeoutMs / 100⌉₊ := by
  obtain ⟨m, hread, hpolls⟩ := run_getJobDependencies env json keyPrefix jobId ⟨calledAt, []⟩
  constructor
  · obtain ⟨r, m', hcollects⟩ := exists_collects env json keyPrefix m.now timeoutMs
      (awaited env json keyPrefix jobId) (fun _ => none) m
    exact ⟨r, m', _, m, hread, hcollects⟩
  · rintro r m' ⟨deps, m₁, hread', hcollects⟩
    obtain ⟨hdeps, rfl⟩ := Prod.mk.inj (hread.symm.trans hread')
    obtain rfl := Except.ok.inj hdeps
    have hcredit := hcollects.credit_le
    have hstart : m.credit m.now timeoutMs = ⌈timeoutMs / 100⌉₊ := by
      simp [Moment.credit, roundsLeft, hpolls]
    rw [hstart] at hcredit
    have hreads : m'.polls.length ≤ m'.credit m.now timeoutMs := Nat.le_add_right _ _
    omega

end

end KitiumJobQueue.JobChain
