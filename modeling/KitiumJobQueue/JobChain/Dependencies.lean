import KitiumJobQueue.Foundations.Effects
import KitiumJobQueue.Foundations.JavaScript
import Mathlib.Data.Rat.Floor
import Mathlib.Tactic.Linarith

/-!
# Waiting for the jobs a job depends on

`JobChainManager.waitForDependencies` over a clock. The stored list is read once, and its errors are
taken for an empty list; after that one parent after the other is polled, every hundred
milliseconds, until its result is there or the time of all of them is up. Nothing looks at
`requiresSuccess`.

`barrier_iff` says of which lists and which times the call is the barrier it should be: it resolves
with every result that is required, or it rejects.
-/

namespace KitiumJobQueue.JobChain

open Effects JavaScript

/-! ## The world of one call -/

/-- A `JobDependency` as it is stored. -/
structure JobDependency where
  parentJobId : String
  requiresSuccess : Bool

/-- A value that appears under a key, and when. -/
structure Appearance where
  time : ℕ
  text : String

/-- What the call meets: the lists and the results of the store, the fate of every read, the way of
a request and of its answer in milliseconds, and by how much a timer is late. -/
structure Environment where
  dependencies : String → Option String
  dependenciesAnswer : Answer Thrown
  dependenciesLatency : ℕ
  results : String → Option Appearance
  answers : ℕ → Answer Thrown
  outward : ℕ → ℕ
  backward : ℕ → ℕ
  lag : ℕ → ℕ

/-- The clock, and what the polls made so far have given, the latest first. -/
structure Moment where
  now : ℕ
  polls : List (Except Thrown (Option String))

/-- `JSON.parse`, on the text of a result and on that of a list of dependencies. -/
structure JsonText where
  parse : String → Except Thrown Json
  parseDependencies : String → Except Thrown (List JobDependency)

/-- A text that is there and not empty. -/
def truthy (text : Option String) : Option String := text.filter (· ≠ "")

/-- What is under a key at a time. -/
def Environment.textAt (env : Environment) (key : String) (time : ℕ) : Option String :=
  (env.results key).bind fun a => if a.time ≤ time then some a.text else none

/-- What a poll begun at `m` gives. -/
def Environment.polled (env : Environment) (key : String) (m : Moment) :
    Except Thrown (Option String) :=
  match env.answers m.polls.length with
  | .answered => .ok (env.textAt key (m.now + env.outward m.polls.length))
  | .rejected e _ => .error e

/-- When the answer to a poll begun at `m` is there. -/
def Environment.answeredAt (env : Environment) (key : String) (m : Moment) : Moment where
  now := m.now + env.outward m.polls.length + env.backward m.polls.length
  polls := env.polled key m :: m.polls

/-- A hundred milliseconds later, or some more. -/
def Environment.slept (env : Environment) (m : Moment) : Moment :=
  { m with now := m.now + 100 + env.lag m.polls.length }

/-! ## The manager -/

section

variable (env : Environment) (json : JsonText) (keyPrefix : String)

/-- `this.redis.get`, on the key of a result. -/
def get (key : String) : Async Thrown Moment (Option String) :=
  ⟨fun m => (env.polled key m, env.answeredAt key m)⟩

/-- `JobChainManager.sleep`, of a hundred milliseconds. -/
def sleep : Async Thrown Moment Unit := .modify env.slept

/-- `this.redis.get`, on the key of a list of dependencies. -/
def getStored (key : String) : Async Thrown Moment (Option String) :=
  perform env.dependenciesAnswer fun m =>
    (env.dependencies key, { m with now := m.now + env.dependenciesLatency })

/-- The key of a job's dependencies. -/
def dependenciesKey (jobId : String) : String := keyPrefix ++ ":job:" ++ jobId ++ ":deps"

/-- The key of a job's result. -/
def resultKey (jobId : String) : String := keyPrefix ++ ":job:" ++ jobId ++ ":result"

/-- The body of the `try` in `getJobDependencies`. -/
def readDependencies (jobId : String) : Async Thrown Moment (List JobDependency) := do
  match truthy (← getStored env (dependenciesKey keyPrefix jobId)) with
  | none => pure []
  | some text => ⟨fun m => (json.parseDependencies text, m)⟩

/-- `JobChainManager.getJobDependencies` -/
def getJobDependencies (jobId : String) : Async Thrown Moment (List JobDependency) :=
  tryCatch (readDependencies env json keyPrefix jobId) fun _ => pure []

/-- The loop of `waitForDependencyResult`, for a number of rounds. -/
def pollRounds (depKey : String) (startTime : ℕ) (timeoutMs : ℚ) :
    ℕ → Async Thrown Moment (Option Json)
  | 0 => pure none
  | rounds + 1 => do
    if (((← Async.read Moment.now) : ℚ) - startTime) < timeoutMs then
      match truthy (← get env depKey) with
      | some raw => ⟨fun m => ((json.parse raw).map some, m)⟩
      | none => do
        sleep env
        pollRounds depKey startTime timeoutMs rounds
    else pure none

/-- As many rounds as there are sleeps before the time is up. -/
def rounds (timeoutMs : ℚ) : ℕ := ⌈timeoutMs / 100⌉₊

/-- `JobChainManager.waitForDependencyResult` -/
def waitForDependencyResult (parentJobId : String) (startTime : ℕ) (timeoutMs : ℚ) :
    Async Thrown Moment (Option Json) :=
  pollRounds env json (resultKey keyPrefix parentJobId) startTime timeoutMs (rounds timeoutMs)

/-- A `Map`, by what it gives for a key. -/
abbrev Results := String → Option Json

/-- The loop of `waitForDependencies` over the dependencies. -/
def collectResults (startTime : ℕ) (timeoutMs : ℚ) :
    List JobDependency → Results → Async Thrown Moment Results
  | [], results => pure results
  | dep :: rest, results => do
    match ← waitForDependencyResult env json keyPrefix dep.parentJobId startTime timeoutMs with
    | some result =>
      collectResults startTime timeoutMs rest (Function.update results dep.parentJobId result)
    | none => collectResults startTime timeoutMs rest results

/-- `JobChainManager.waitForDependencies` -/
def waitForDependencies (jobId : String) (timeoutMs : ℚ) : Async Thrown Moment Results :=
  tryCatch
    (do
      let dependencies ← getJobDependencies env json keyPrefix jobId
      let startTime ← Async.read Moment.now
      collectResults env json keyPrefix startTime timeoutMs dependencies fun _ => none)
    throw

end

/-! ## One poll -/

section

variable {env : Environment} {json : JsonText} {key : String} {startTime : ℕ} {timeoutMs : ℚ}
variable {m m' : Moment} {v : Json}

/-- The time for all results is up. -/
def Expired (startTime : ℕ) (timeoutMs : ℚ) (m : Moment) : Prop :=
  timeoutMs ≤ (m.now : ℚ) - startTime

/-- The result appears before the time is up. -/
def InTime (env : Environment) (key : String) (startTime : ℕ) (timeoutMs : ℚ) : Prop :=
  ∃ a, env.results key = some a ∧ (a.time : ℚ) - startTime ≤ timeoutMs

/-- A poll begun at `m` is answered with a text. -/
def Finds (env : Environment) (key : String) (m : Moment) (text : String) : Prop :=
  ∃ raw, env.polled key m = .ok raw ∧ truthy raw = some text

/-- A poll begun at `m` is answered, and there is nothing. -/
def Misses (env : Environment) (key : String) (m : Moment) : Prop :=
  ∃ raw, env.polled key m = .ok raw ∧ truthy raw = none

/-- What is found is the text of the result, which has appeared by then. -/
theorem Finds.results {text : String} (h : Finds env key m text) :
    ∃ a, env.results key = some a ∧ a.text = text ∧ a.time ≤ (env.answeredAt key m).now := by
  obtain ⟨raw, hraw, htext⟩ := h
  have hraw' : raw = some text := (Option.filter_eq_some_iff.mp htext).1
  subst hraw'
  unfold Environment.polled at hraw
  split at hraw
  · obtain ⟨a, ha, hat⟩ := Option.bind_eq_some_iff.mp (Except.ok.inj hraw)
    obtain ⟨htime, hat⟩ := Option.ite_none_right_eq_some.mp hat
    refine ⟨a, ha, Option.some.inj hat, ?_⟩
    simp only [Environment.answeredAt]
    omega
  · cases hraw

/-- An answered poll finds a text or misses it. -/
theorem finds_or_misses {raw : Option String} (h : env.polled key m = .ok raw) :
    (∃ text, Finds env key m text) ∨ Misses env key m := by
  cases htext : truthy raw with
  | none => exact .inr ⟨raw, h, htext⟩
  | some text => exact .inl ⟨text, raw, h, htext⟩

/-! ## The loop -/

theorem run_pollRounds_of_expired (h : Expired startTime timeoutMs m) (n : ℕ) :
    (pollRounds env json key startTime timeoutMs n).run m = (.ok none, m) := by
  cases n with
  | zero => rfl
  | succ n =>
    rw [pollRounds, Async.run_bind_of_ok (Async.run_read _ _), if_neg (not_lt.mpr h)]
    rfl

theorem run_pollRounds_of_rejected {n : ℕ} {e : Thrown} (h : ¬ Expired startTime timeoutMs m)
    (hpoll : env.polled key m = .error e) :
    (pollRounds env json key startTime timeoutMs (n + 1)).run m =
      (.error e, env.answeredAt key m) := by
  rw [pollRounds, Async.run_bind_of_ok (Async.run_read _ _), if_pos (not_le.mp h),
    Async.run_bind_of_error (Prod.ext hpoll rfl)]
  rfl

theorem run_pollRounds_of_finds {n : ℕ} {text : String} (h : ¬ Expired startTime timeoutMs m)
    (hpoll : Finds env key m text) :
    (pollRounds env json key startTime timeoutMs (n + 1)).run m =
      ((json.parse text).map some, env.answeredAt key m) := by
  obtain ⟨raw, hraw, htext⟩ := hpoll
  rw [pollRounds, Async.run_bind_of_ok (Async.run_read _ _), if_pos (not_le.mp h),
    Async.run_bind_of_ok (Prod.ext hraw rfl), htext]
  rfl

theorem run_pollRounds_of_misses {n : ℕ} (h : ¬ Expired startTime timeoutMs m)
    (hpoll : Misses env key m) :
    (pollRounds env json key startTime timeoutMs (n + 1)).run m =
      (pollRounds env json key startTime timeoutMs n).run (env.slept (env.answeredAt key m)) := by
  obtain ⟨raw, hraw, htext⟩ := hpoll
  rw [pollRounds, Async.run_bind_of_ok (Async.run_read _ _), if_pos (not_le.mp h),
    Async.run_bind_of_ok (Prod.ext hraw rfl), htext]
  rfl

/-- What a round does from which the loop resolves. -/
theorem round_cases {n : ℕ} {r : Option Json}
    (h : (pollRounds env json key startTime timeoutMs (n + 1)).run m = (.ok r, m')) :
    (Expired startTime timeoutMs m ∧ r = none ∧ m' = m) ∨
    (¬ Expired startTime timeoutMs m ∧ ∃ text v, Finds env key m text ∧
      json.parse text = .ok v ∧ r = some v ∧ m' = env.answeredAt key m) ∨
    (¬ Expired startTime timeoutMs m ∧ Misses env key m ∧
      (pollRounds env json key startTime timeoutMs n).run (env.slept (env.answeredAt key m)) =
        (.ok r, m')) := by
  by_cases hexp : Expired startTime timeoutMs m
  · rw [run_pollRounds_of_expired hexp] at h
    cases h
    exact .inl ⟨hexp, rfl, rfl⟩
  cases hpoll : env.polled key m with
  | error e =>
    rw [run_pollRounds_of_rejected hexp hpoll] at h
    cases h
  | ok raw =>
    obtain ⟨text, hfinds⟩ | hmisses := finds_or_misses hpoll
    · rw [run_pollRounds_of_finds hexp hfinds] at h
      cases hparse : json.parse text with
      | error e =>
        rw [hparse] at h
        cases h
      | ok v =>
        rw [hparse] at h
        cases h
        exact .inr (.inl ⟨hexp, text, v, hfinds, hparse, rfl, rfl⟩)
    · rw [run_pollRounds_of_misses hexp hmisses] at h
      exact .inr (.inr ⟨hexp, hmisses, h⟩)

/-- After `n` more rounds the time is up. -/
def Enough (startTime : ℕ) (timeoutMs : ℚ) (n : ℕ) (m : Moment) : Prop :=
  timeoutMs ≤ (m.now : ℚ) - startTime + 100 * n

theorem enough_rounds (h : startTime ≤ m.now) :
    Enough startTime timeoutMs (rounds timeoutMs) m := by
  have hceil : timeoutMs / 100 ≤ (rounds timeoutMs : ℚ) := Nat.le_ceil _
  have hnow : (startTime : ℚ) ≤ m.now := Nat.cast_le.mpr h
  unfold Enough
  linarith

theorem Enough.expired (h : Enough startTime timeoutMs 0 m) : Expired startTime timeoutMs m := by
  simpa [Enough, Expired] using h

/-- A poll and a sleep are worth a round. -/
theorem Enough.slept {n : ℕ} (h : Enough startTime timeoutMs (n + 1) m) :
    Enough startTime timeoutMs n (env.slept (env.answeredAt key m)) := by
  have hnow : m.now + 100 ≤ (env.slept (env.answeredAt key m)).now := by
    simp only [Environment.slept, Environment.answeredAt]
    omega
  have hnow' : (m.now : ℚ) + 100 ≤ (env.slept (env.answeredAt key m)).now := by exact_mod_cast hnow
  unfold Enough at h ⊢
  push_cast at h
  linarith

/-- The rounds are no bound of the loop: with one more it does the same. -/
theorem run_pollRounds_succ (n : ℕ) (m : Moment) (h : Enough startTime timeoutMs n m) :
    (pollRounds env json key startTime timeoutMs (n + 1)).run m =
      (pollRounds env json key startTime timeoutMs n).run m := by
  induction n generalizing m with
  | zero => rw [run_pollRounds_of_expired h.expired, run_pollRounds_of_expired h.expired]
  | succ n ih =>
    by_cases hexp : Expired startTime timeoutMs m
    · rw [run_pollRounds_of_expired hexp, run_pollRounds_of_expired hexp]
    · cases hpoll : env.polled key m with
      | error e => rw [run_pollRounds_of_rejected hexp hpoll, run_pollRounds_of_rejected hexp hpoll]
      | ok raw =>
        obtain ⟨text, hfinds⟩ | hmisses := finds_or_misses hpoll
        · rw [run_pollRounds_of_finds hexp hfinds, run_pollRounds_of_finds hexp hfinds]
        · rw [run_pollRounds_of_misses hexp hmisses, run_pollRounds_of_misses hexp hmisses,
            ih _ h.slept]

/-! ## How a wait ends -/

/-- A wait begun at `m` gets a result that is in time, and ends at `m'`. -/
inductive Served (env : Environment) (json : JsonText) (key : String) (startTime : ℕ)
    (timeoutMs : ℚ) : Moment → Json → Moment → Prop
  | finds {m : Moment} {text : String} {v : Json} (before : ¬ Expired startTime timeoutMs m)
      (poll : Finds env key m text) (parsed : json.parse text = .ok v)
      (inTime : InTime env key startTime timeoutMs) :
      Served env json key startTime timeoutMs m v (env.answeredAt key m)
  | misses {m m' : Moment} {v : Json} (before : ¬ Expired startTime timeoutMs m)
      (poll : Misses env key m)
      (later : Served env json key startTime timeoutMs (env.slept (env.answeredAt key m)) v m') :
      Served env json key startTime timeoutMs m v m'

/-- A wait begun at `m` gets no result in time and no error either. -/
inductive Overdue (env : Environment) (json : JsonText) (key : String) (startTime : ℕ)
    (timeoutMs : ℚ) : Moment → Prop
  | expired {m : Moment} (h : Expired startTime timeoutMs m) :
      Overdue env json key startTime timeoutMs m
  | late {m : Moment} {text : String} {v : Json} (before : ¬ Expired startTime timeoutMs m)
      (poll : Finds env key m text) (parsed : json.parse text = .ok v)
      (late : ¬ InTime env key startTime timeoutMs) : Overdue env json key startTime timeoutMs m
  | misses {m : Moment} (before : ¬ Expired startTime timeoutMs m) (poll : Misses env key m)
      (later : Overdue env json key startTime timeoutMs (env.slept (env.answeredAt key m))) :
      Overdue env json key startTime timeoutMs m

theorem Served.le (h : Served env json key startTime timeoutMs m v m') : m.now ≤ m'.now := by
  induction h with
  | finds =>
    simp only [Environment.answeredAt]
    omega
  | misses _ _ _ ih =>
    simp only [Environment.slept, Environment.answeredAt] at ih
    omega

theorem Served.results (h : Served env json key startTime timeoutMs m v m') :
    ∃ a, env.results key = some a ∧ (a.time : ℚ) - startTime ≤ timeoutMs ∧
      json.parse a.text = .ok v := by
  induction h with
  | finds _ poll parsed inTime =>
    obtain ⟨a, ha, hle⟩ := inTime
    obtain ⟨a', ha', rfl, -⟩ := poll.results
    cases ha.symm.trans ha'
    exact ⟨a, ha, hle, parsed⟩
  | misses _ _ _ ih => exact ih

theorem Served.run (h : Served env json key startTime timeoutMs m v m') {n : ℕ}
    (hn : Enough startTime timeoutMs n m) :
    (pollRounds env json key startTime timeoutMs n).run m = (.ok (some v), m') := by
  induction h generalizing n with
  | finds before poll parsed _ =>
    cases n with
    | zero => exact absurd hn.expired before
    | succ n =>
      rw [run_pollRounds_of_finds before poll, parsed]
      rfl
  | misses before poll _ ih =>
    cases n with
    | zero => exact absurd hn.expired before
    | succ n =>
      rw [run_pollRounds_of_misses before poll]
      exact ih hn.slept

/-- An overdue wait resolves when the time for all others is up as well. -/
theorem Overdue.run (h : Overdue env json key startTime timeoutMs m) {n : ℕ}
    (hn : Enough startTime timeoutMs n m) :
    ∃ r m', (pollRounds env json key startTime timeoutMs n).run m = (.ok r, m') ∧
      Expired startTime timeoutMs m' ∧ ∀ v, r = some v → ¬ InTime env key startTime timeoutMs := by
  induction h generalizing n with
  | expired h => exact ⟨none, _, run_pollRounds_of_expired h n, h, nofun⟩
  | @late m text v before poll parsed late =>
    cases n with
    | zero => exact absurd hn.expired before
    | succ n =>
      refine ⟨some v, env.answeredAt key m, ?_, ?_, fun _ _ => late⟩
      · rw [run_pollRounds_of_finds before poll, parsed]
        rfl
      · obtain ⟨a, ha, -, htime⟩ := poll.results
        by_contra hexp
        refine late ⟨a, ha, ?_⟩
        have htime' : (a.time : ℚ) ≤ (env.answeredAt key m).now := Nat.cast_le.mpr htime
        have hexp' := not_le.mp hexp
        linarith
  | misses before poll _ ih =>
    cases n with
    | zero => exact absurd hn.expired before
    | succ n =>
      rw [run_pollRounds_of_misses before poll]
      exact ih hn.slept

/-- A wait that does not reject is served or overdue. -/
theorem served_or_overdue {n : ℕ} {r : Option Json} (hn : Enough startTime timeoutMs n m)
    (h : (pollRounds env json key startTime timeoutMs n).run m = (.ok r, m')) :
    (∃ v m', Served env json key startTime timeoutMs m v m') ∨
      Overdue env json key startTime timeoutMs m := by
  induction n generalizing m with
  | zero => exact .inr (.expired hn.expired)
  | succ n ih =>
    obtain ⟨hexp, -, -⟩ | ⟨hexp, text, v, hfinds, hparse, -, -⟩ | ⟨hexp, hmisses, h⟩ :=
      round_cases h
    · exact .inr (.expired hexp)
    · by_cases hin : InTime env key startTime timeoutMs
      · exact .inl ⟨v, _, .finds hexp hfinds hparse hin⟩
      · exact .inr (.late hexp hfinds hparse hin)
    · obtain ⟨v, m'', hserved⟩ | hover := ih hn.slept h
      · exact .inl ⟨v, m'', .misses hexp hmisses hserved⟩
      · exact .inr (.misses hexp hmisses hover)

/-- A wait gives nothing but the result. -/
theorem parsed_of_run {n : ℕ} (h : (pollRounds env json key startTime timeoutMs n).run m =
    (.ok (some v), m')) : ∃ a, env.results key = some a ∧ json.parse a.text = .ok v := by
  induction n generalizing m with
  | zero => cases h
  | succ n ih =>
    obtain ⟨-, hnone, -⟩ | ⟨-, text, w, hfinds, hparse, heq, -⟩ | ⟨-, -, h⟩ := round_cases h
    · cases hnone
    · cases heq
      obtain ⟨a, ha, rfl, -⟩ := hfinds.results
      exact ⟨a, ha, hparse⟩
    · exact ih h

/-- Every poll was answered, and every text found could be parsed. -/
def AllRead (json : JsonText) (m : Moment) : Prop :=
  ∀ poll ∈ m.polls, ∃ raw, poll = .ok raw ∧ ∀ text, truthy raw = some text →
    ∃ v, json.parse text = .ok v

theorem AllRead.finds {text : String} (hm : AllRead json m) (hpoll : Finds env key m text)
    (hparse : json.parse text = .ok v) : AllRead json (env.answeredAt key m) := by
  intro poll hmem
  obtain rfl | hmem := List.mem_cons.mp hmem
  · obtain ⟨raw, hraw, htext⟩ := hpoll
    refine ⟨raw, hraw, fun text' htext' => ?_⟩
    cases htext.symm.trans htext'
    exact ⟨v, hparse⟩
  · exact hm poll hmem

theorem AllRead.misses (hm : AllRead json m) (hpoll : Misses env key m) :
    AllRead json (env.slept (env.answeredAt key m)) := by
  intro poll hmem
  obtain rfl | hmem := List.mem_cons.mp hmem
  · obtain ⟨raw, hraw, htext⟩ := hpoll
    refine ⟨raw, hraw, fun text' htext' => ?_⟩
    cases htext.symm.trans htext'
  · exact hm poll hmem

/-- A wait in which something cannot be read rejects. -/
theorem AllRead.pollRounds {n : ℕ} {r : Option Json} (hm : AllRead json m)
    (h : (pollRounds env json key startTime timeoutMs n).run m = (.ok r, m')) :
    AllRead json m' := by
  induction n generalizing m with
  | zero =>
    cases h
    exact hm
  | succ n ih =>
    obtain ⟨-, -, rfl⟩ | ⟨-, text, w, hfinds, hparse, -, rfl⟩ | ⟨-, hmisses, h⟩ := round_cases h
    · exact hm
    · exact hm.finds hfinds hparse
    · exact ih (hm.misses hmisses) h

end

/-! ## One wait after another -/

section

variable {env : Environment} {json : JsonText} {keyPrefix : String} {startTime : ℕ} {timeoutMs : ℚ}
variable {m m' : Moment} {results results' : Results}

theorem run_collectResults_cons (dep : JobDependency) {rest : List JobDependency}
    {r : Option Json}
    (h : (waitForDependencyResult env json keyPrefix dep.parentJobId startTime timeoutMs).run m =
      (.ok r, m')) :
    (collectResults env json keyPrefix startTime timeoutMs (dep :: rest) results).run m =
      (collectResults env json keyPrefix startTime timeoutMs rest
        (r.elim results fun v => Function.update results dep.parentJobId v)).run m' := by
  rw [collectResults, Async.run_bind_of_ok h]
  cases r with
  | none => rfl
  | some v => rfl

/-- When the time is up, the dependencies that are left are passed over. -/
theorem run_collectResults_of_expired (h : Expired startTime timeoutMs m)
    (deps : List JobDependency) :
    (collectResults env json keyPrefix startTime timeoutMs deps results).run m =
      (.ok results, m) := by
  induction deps with
  | nil => rfl
  | cons dep rest ih =>
    rw [run_collectResults_cons dep (run_pollRounds_of_expired h _)]
    exact ih

theorem AllRead.collectResults {deps : List JobDependency} (hm : AllRead json m)
    (h : (collectResults env json keyPrefix startTime timeoutMs deps results).run m =
      (.ok results', m')) : AllRead json m' := by
  induction deps generalizing results m with
  | nil =>
    cases h
    exact hm
  | cons dep rest ih =>
    obtain ⟨r, m'', hwait, -⟩ := Async.run_bind_eq_ok.mp h
    rw [run_collectResults_cons dep hwait] at h
    exact ih (hm.pollRounds hwait) h

/-- The map holds the result of a parent, and that was in time. -/
def Holds (env : Environment) (json : JsonText) (keyPrefix : String) (startTime : ℕ)
    (timeoutMs : ℚ) (results : Results) (parentJobId : String) : Prop :=
  ∃ a v, env.results (resultKey keyPrefix parentJobId) = some a ∧
    (a.time : ℚ) - startTime ≤ timeoutMs ∧ json.parse a.text = .ok v ∧
    results parentJobId = some v

theorem Holds.inTime {p : String} (h : Holds env json keyPrefix startTime timeoutMs results p) :
    InTime env (resultKey keyPrefix p) startTime timeoutMs := by
  obtain ⟨a, v, ha, hle, -, -⟩ := h
  exact ⟨a, ha, hle⟩

theorem holds_update_iff_of_ne {p q : String} {v : Json} (hne : p ≠ q) :
    Holds env json keyPrefix startTime timeoutMs (Function.update results q v) p ↔
      Holds env json keyPrefix startTime timeoutMs results p := by
  simp only [Holds, Function.update_of_ne hne]

/-- A result is the same every time it is read. -/
theorem Holds.update {p q : String} {v : Json}
    (h : Holds env json keyPrefix startTime timeoutMs results p)
    (hv : ∃ a, env.results (resultKey keyPrefix q) = some a ∧ json.parse a.text = .ok v) :
    Holds env json keyPrefix startTime timeoutMs (Function.update results q v) p := by
  by_cases hpq : p = q
  · subst hpq
    obtain ⟨a, w, ha, hle, -, -⟩ := h
    obtain ⟨a', ha', hv'⟩ := hv
    cases ha.symm.trans ha'
    exact ⟨a, v, ha, hle, hv', Function.update_self ..⟩
  · exact (holds_update_iff_of_ne hpq).mpr h

theorem Served.holds {p : String} {v : Json}
    (h : Served env json (resultKey keyPrefix p) startTime timeoutMs m v m') :
    Holds env json keyPrefix startTime timeoutMs (Function.update results p v) p := by
  obtain ⟨a, ha, hle, hv⟩ := h.results
  exact ⟨a, v, ha, hle, hv, Function.update_self ..⟩

/-- From `m` on, with the results of `met` at hand: the first wait that is overdue leaves out no
result that is required. -/
def Punctual (env : Environment) (json : JsonText) (keyPrefix : String) (startTime : ℕ)
    (timeoutMs : ℚ) : (met : List String) → List JobDependency → Moment → Prop
  | _, [], _ => True
  | met, dep :: rest, m =>
    (∀ v m', Served env json (resultKey keyPrefix dep.parentJobId) startTime timeoutMs m v m' →
      Punctual env json keyPrefix startTime timeoutMs (dep.parentJobId :: met) rest m') ∧
    (Overdue env json (resultKey keyPrefix dep.parentJobId) startTime timeoutMs m →
      ∀ d ∈ dep :: rest, d.requiresSuccess = true → d.parentJobId ∈ met)

/-- A result that is late makes no difference to what the map holds in time. -/
theorem holds_update_iff {q : String}
    (hlate : ¬ InTime env (resultKey keyPrefix q) startTime timeoutMs) (v : Json) (p : String) :
    Holds env json keyPrefix startTime timeoutMs (Function.update results q v) p ↔
      Holds env json keyPrefix startTime timeoutMs results p := by
  by_cases hpq : p = q
  · subst hpq
    exact iff_of_false (fun h => hlate h.inTime) fun h => hlate h.inTime
  · exact holds_update_iff_of_ne hpq

/-- An overdue wait is the last one that may change the map. -/
theorem Overdue.collectResults {dep : JobDependency}
    (h : Overdue env json (resultKey keyPrefix dep.parentJobId) startTime timeoutMs m)
    (hstart : startTime ≤ m.now) (rest : List JobDependency) (results : Results) :
    ∃ results' m',
      (collectResults env json keyPrefix startTime timeoutMs (dep :: rest) results).run m =
        (.ok results', m') ∧
      ∀ p, Holds env json keyPrefix startTime timeoutMs results' p ↔
        Holds env json keyPrefix startTime timeoutMs results p := by
  obtain ⟨r, m', hrun, hexp, hlate⟩ := h.run (enough_rounds hstart)
  refine ⟨_, m', (run_collectResults_cons dep hrun).trans
    (run_collectResults_of_expired hexp rest), ?_⟩
  cases r with
  | none => exact fun p => Iff.rfl
  | some v => exact holds_update_iff (hlate v rfl) v

/-- What the map holds stays in it. -/
theorem Holds.collectResults {deps : List JobDependency} {p : String}
    (hp : Holds env json keyPrefix startTime timeoutMs results p)
    (h : (collectResults env json keyPrefix startTime timeoutMs deps results).run m =
      (.ok results', m')) : Holds env json keyPrefix startTime timeoutMs results' p := by
  induction deps generalizing results m with
  | nil =>
    cases h
    exact hp
  | cons dep rest ih =>
    obtain ⟨r, m'', hwait, -⟩ := Async.run_bind_eq_ok.mp h
    rw [run_collectResults_cons dep hwait] at h
    refine ih ?_ h
    cases r with
    | none => exact hp
    | some v => exact hp.update (parsed_of_run hwait)

/-- The waits are punctual exactly if the map holds in the end what is required of it. -/
theorem punctual_iff (deps : List JobDependency) {met : List String} (hstart : startTime ≤ m.now)
    (hmet : ∀ p, Holds env json keyPrefix startTime timeoutMs results p ↔ p ∈ met) :
    Punctual env json keyPrefix startTime timeoutMs met deps m ↔
      ∀ results' m',
        (collectResults env json keyPrefix startTime timeoutMs deps results).run m =
          (.ok results', m') →
        ∀ d ∈ deps, d.requiresSuccess = true →
          Holds env json keyPrefix startTime timeoutMs results' d.parentJobId := by
  induction deps generalizing met results m with
  | nil => simp [Punctual]
  | cons dep rest ih =>
    have hmet' {v : Json} {m'' : Moment}
        (hserved :
          Served env json (resultKey keyPrefix dep.parentJobId) startTime timeoutMs m v m'')
        (p : String) :
        Holds env json keyPrefix startTime timeoutMs
          (Function.update results dep.parentJobId v) p ↔ p ∈ dep.parentJobId :: met := by
      by_cases hpq : p = dep.parentJobId
      · subst hpq
        exact iff_of_true hserved.holds List.mem_cons_self
      · rw [holds_update_iff_of_ne hpq, hmet, List.mem_cons, or_iff_right hpq]
    constructor
    · rintro ⟨hlater, hoverdue⟩ results' m' hrun d hd hreq
      obtain ⟨r, m'', hwait, -⟩ := Async.run_bind_eq_ok.mp hrun
      obtain ⟨v, m₁, hserved⟩ | hover := served_or_overdue (enough_rounds hstart) hwait
      · rw [run_collectResults_cons dep (hserved.run (enough_rounds hstart))] at hrun
        obtain rfl | hd := List.mem_cons.mp hd
        · exact hserved.holds.collectResults hrun
        · exact (ih (hstart.trans hserved.le) (hmet' hserved)).mp (hlater v m₁ hserved)
            results' m' hrun d hd hreq
      · exact ((hmet d.parentJobId).mpr (hoverdue hover d hd hreq)).collectResults hrun
    · intro h
      constructor
      · intro v m₁ hserved
        refine (ih (hstart.trans hserved.le) (hmet' hserved)).mpr fun results' m' hrun d hd => ?_
        refine h results' m' ?_ d (List.mem_cons_of_mem _ hd)
        rw [run_collectResults_cons dep (hserved.run (enough_rounds hstart))]
        exact hrun
      · intro hover d hd hreq
        obtain ⟨results', m', hrun, hholds⟩ := hover.collectResults hstart rest results
        exact (hmet _).mp ((hholds _).mp (h results' m' hrun d hd hreq))

end

/-! ## The barrier -/

section

variable (env : Environment) (json : JsonText) (keyPrefix jobId : String) (timeoutMs : ℚ)

/-- The stored list, if it can be read. -/
def listed : Except Thrown (List JobDependency) :=
  match env.dependenciesAnswer with
  | .answered =>
    match truthy (env.dependencies (dependenciesKey keyPrefix jobId)) with
    | none => .ok []
    | some text => json.parseDependencies text
  | .rejected e _ => .error e

/-- When the waiting starts, for a call made at `calledAt`. -/
def startAt (calledAt : ℕ) : ℕ := calledAt + env.dependenciesLatency

/-- A call made at `calledAt` resolves only if everything it read could be read, and with the
result, in time, of every dependency that requires success. -/
def Barrier (calledAt : ℕ) : Prop :=
  ∀ results m',
    (waitForDependencies env json keyPrefix jobId timeoutMs).run ⟨calledAt, []⟩ =
      (.ok results, m') →
    AllRead json m' ∧ ∃ deps, listed env json keyPrefix jobId = .ok deps ∧
      ∀ d ∈ deps, d.requiresSuccess = true →
        Holds env json keyPrefix (startAt env calledAt) timeoutMs results d.parentJobId

variable {env json keyPrefix jobId timeoutMs}

theorem run_getStored (h : env.dependenciesAnswer = .answered) (key : String) (m : Moment) :
    (getStored env key).run m =
      (.ok (env.dependencies key), { m with now := m.now + env.dependenciesLatency }) := by
  rw [getStored, h, run_perform_answered]

/-- The list is read, or the error that keeps it from being read is thrown. -/
theorem run_readDependencies (m : Moment) :
    ((readDependencies env json keyPrefix jobId).run m).1 = listed env json keyPrefix jobId := by
  unfold readDependencies listed
  cases hanswer : env.dependenciesAnswer with
  | rejected e applied => rw [Async.run_bind, getStored, hanswer, run_perform_rejected]
  | answered =>
    rw [Async.run_bind_of_ok (run_getStored hanswer _ m)]
    cases truthy (env.dependencies (dependenciesKey keyPrefix jobId)) <;> rfl

theorem run_readDependencies_of_ok {deps : List JobDependency}
    (h : listed env json keyPrefix jobId = .ok deps) (calledAt : ℕ) :
    (readDependencies env json keyPrefix jobId).run ⟨calledAt, []⟩ =
      (.ok deps, ⟨startAt env calledAt, []⟩) := by
  refine Prod.ext ((run_readDependencies _).trans h) ?_
  unfold listed at h
  unfold readDependencies
  cases hanswer : env.dependenciesAnswer with
  | rejected e applied => simp [hanswer] at h
  | answered =>
    rw [Async.run_bind_of_ok (run_getStored hanswer _ _)]
    cases truthy (env.dependencies (dependenciesKey keyPrefix jobId)) <;> rfl

/-- A list that can be read is the one that is waited for. -/
theorem run_getJobDependencies_of_ok {deps : List JobDependency}
    (h : listed env json keyPrefix jobId = .ok deps) (calledAt : ℕ) :
    (getJobDependencies env json keyPrefix jobId).run ⟨calledAt, []⟩ =
      (.ok deps, ⟨startAt env calledAt, []⟩) :=
  Async.run_tryCatch_of_ok (run_readDependencies_of_ok h calledAt)

/-- Any other is taken for an empty one. -/
theorem run_getJobDependencies_of_error {e : Thrown}
    (h : listed env json keyPrefix jobId = .error e) (m₀ : Moment) :
    ∃ m, (getJobDependencies env json keyPrefix jobId).run m₀ = (.ok [], m) := by
  have hread := (run_readDependencies m₀).trans h
  cases hrun : (readDependencies env json keyPrefix jobId).run m₀ with
  | mk r m =>
    rw [hrun] at hread
    cases hread
    exact ⟨m, Async.run_tryCatch_of_error hrun⟩

/-- The call does what its loop does, on the list that was read. -/
theorem run_waitForDependencies (timeoutMs : ℚ) {deps : List JobDependency} {m m₀ : Moment}
    (h : (getJobDependencies env json keyPrefix jobId).run m₀ = (.ok deps, m)) :
    (waitForDependencies env json keyPrefix jobId timeoutMs).run m₀ =
      (collectResults env json keyPrefix m.now timeoutMs deps fun _ => none).run m := by
  have hbody := Async.run_bind_of_ok
    (f := fun dependencies => do
      let startTime ← Async.read Moment.now
      collectResults env json keyPrefix startTime timeoutMs dependencies fun _ => none) h
  rw [Async.run_bind_of_ok (Async.run_read _ _)] at hbody
  unfold waitForDependencies
  cases hrun : (collectResults env json keyPrefix m.now timeoutMs deps fun _ => none).run m with
  | mk r m' =>
    cases r with
    | ok results => exact Async.run_tryCatch_of_ok (hbody.trans hrun)
    | error e => exact Async.run_tryCatch_of_error (hbody.trans hrun)

/-- **When `waitForDependencies` is a barrier.** It resolves only with every result that is required
and in time, exactly if the stored list can be read and the first wait that gets neither a result in
time nor an error leaves out no dependency, its own or a later one, that requires success and has a
parent not waited for before. -/
theorem barrier_iff (env : Environment) (json : JsonText) (keyPrefix jobId : String)
    (timeoutMs : ℚ) (calledAt : ℕ) :
    Barrier env json keyPrefix jobId timeoutMs calledAt ↔
      ∃ deps, listed env json keyPrefix jobId = .ok deps ∧
        Punctual env json keyPrefix (startAt env calledAt) timeoutMs [] deps
          ⟨startAt env calledAt, []⟩ := by
  have hnone (p : String) : Holds env json keyPrefix (startAt env calledAt) timeoutMs
      (fun _ => none) p ↔ p ∈ [] := by
    simp [Holds]
  cases hlisted : listed env json keyPrefix jobId with
  | error e =>
    obtain ⟨m, hread⟩ := run_getJobDependencies_of_error hlisted ⟨calledAt, []⟩
    refine iff_of_false (fun h => ?_) nofun
    obtain ⟨-, deps, hdeps, -⟩ := h _ m (run_waitForDependencies timeoutMs hread)
    cases hlisted.symm.trans hdeps
  | ok deps =>
    have hrun := run_waitForDependencies timeoutMs
      (run_getJobDependencies_of_ok hlisted calledAt)
    have hpunctual := punctual_iff deps (m := ⟨startAt env calledAt, []⟩) le_rfl hnone
    constructor
    · intro h
      refine ⟨deps, rfl, hpunctual.mpr fun results' m' hcollect => ?_⟩
      obtain ⟨-, deps', hdeps', hholds⟩ := h results' m' (hrun.trans hcollect)
      cases hlisted.symm.trans hdeps'
      exact hholds
    · rintro ⟨_, hdeps, hwaits⟩ results m' hwait
      cases hdeps
      have hcollect := hrun.symm.trans hwait
      refine ⟨AllRead.collectResults ?_ hcollect, deps, hlisted,
        hpunctual.mp hwaits results m' hcollect⟩
      exact fun _ hmem => absurd hmem List.not_mem_nil

end

/-- A job that requires one parent, whose result never appears. -/
def absentParent : Environment where
  dependencies _ := some "[\x7b\"parentJobId\":\"parent\",\"requiresSuccess\":true\x7d]"
  dependenciesAnswer := .answered
  dependenciesLatency := 2
  results _ := none
  answers _ := .answered
  outward _ := 1
  backward _ := 1
  lag _ := 0

/-- The dependency in that list. -/
def parent : JobDependency where
  parentJobId := "parent"
  requiresSuccess := true

/-- What `JSON.parse` makes of the text of that list. -/
def parentText : JsonText where
  parse _ := .error (.error { message := "Unexpected token", stack := none })
  parseDependencies _ := .ok [parent]

/-- After a poll and a sleep the time is up, and the job may start without its parent. -/
theorem not_barrier_absentParent :
    ¬ Barrier absentParent parentText "job-chains" "child" 100 0 := by
  intro h
  have hrun : (waitForDependencies absentParent parentText "job-chains" "child" 100).run ⟨0, []⟩ =
      (.ok fun _ => none, ⟨104, [.ok none]⟩) := by
    have hround : rounds 100 = 1 := by norm_num [rounds]
    have hearly : ¬ Expired 2 100 ⟨2, []⟩ := by norm_num [Expired]
    have hwait : (waitForDependencyResult absentParent parentText "job-chains" "parent" 2 100).run
        ⟨2, []⟩ = (.ok none, ⟨104, [.ok none]⟩) := by
      rw [waitForDependencyResult, hround, run_pollRounds_of_misses hearly ⟨none, rfl, rfl⟩]
      rfl
    have hlisted : listed absentParent parentText "job-chains" "child" = .ok [parent] := rfl
    rw [run_waitForDependencies 100 (run_getJobDependencies_of_ok hlisted 0)]
    exact run_collectResults_cons parent hwait
  obtain ⟨-, deps, hdeps, hholds⟩ := h _ _ hrun
  cases hdeps
  obtain ⟨a, v, ha, -⟩ := hholds _ List.mem_cons_self rfl
  cases ha

end KitiumJobQueue.JobChain
