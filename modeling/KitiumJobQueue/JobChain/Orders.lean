import KitiumJobQueue.JobChain.Reads
import Mathlib.Data.List.Perm.Basic

/-!
# The order of the dependencies

The dependencies are waited for one after another, and a parent that does not come uses up the time
of those behind it. So the order in which they are stored matters, unless no parent is found even
if it is waited for first, or all are found in every order, or every order meets an error
(`Uniform`). With reads that take no time and sleeps that are exact, and every read answered, this
is: either all results appear by the last poll there is time for, or none (`IsIdeal`, `Timely`).
-/

namespace KitiumJobQueue.JobChain

open Effects JavaScript

/-! ## What the order is not to change -/

section

variable (env : Environment) (json : JsonText) (keyPrefix jobId : String) (timeoutMs : ℚ)
  (calledAt : ℕ)

/-- The map that a call made at `calledAt` returns, if it does not reject. -/
def returned : Option Results :=
  ((waitForDependencies env json keyPrefix jobId timeoutMs).run ⟨calledAt, []⟩).1.toOption

/-- The result of a parent is there at a time. -/
def Present (parentJobId : String) (time : ℕ) : Prop :=
  ∃ a, env.results (resultKey keyPrefix parentJobId) = some a ∧ a.text ≠ "" ∧ a.time ≤ time

/-- Where the stored text stands for the same list in another order, the call returns the same map;
and the parents whose results are there when it starts are in that map. -/
structure OrderFree (deps : List JobDependency) : Prop where
  same : ∀ (json' : JsonText) (deps' : List JobDependency), json'.parse = json.parse →
    listed env json' keyPrefix jobId = .ok deps' → deps'.Perm deps →
    returned env json' keyPrefix jobId timeoutMs calledAt =
      returned env json keyPrefix jobId timeoutMs calledAt
  stored : ∀ results, returned env json keyPrefix jobId timeoutMs calledAt = some results →
    ∀ d ∈ deps, Present env keyPrefix d.parentJobId calledAt →
      (results d.parentJobId).isSome = true

end

/-! ## When it does not -/

section

variable (env : Environment) (json : JsonText) (keyPrefix : String) (startTime : ℕ) (timeoutMs : ℚ)

/-- From `m` on, with the results of `met` at hand, every parent is found: a wait that finds nothing
leaves out no parent that is not at hand. -/
def FindsAll : (met : List String) → List JobDependency → Moment → Prop
  | _, [], _ => True
  | met, dep :: rest, m =>
    (∃ v m', WaitsFor env json keyPrefix startTime timeoutMs dep.parentJobId m (.ok (some v)) m' ∧
      FindsAll (dep.parentJobId :: met) rest m') ∨
    (∃ m', WaitsFor env json keyPrefix startTime timeoutMs dep.parentJobId m (.ok none) m') ∧
      ∀ d ∈ dep :: rest, d.parentJobId ∈ met

/-- From `m` on, a wait meets an error: a read that is rejected, or a text that is no JSON. -/
def Breaks : List JobDependency → Moment → Prop
  | [], _ => False
  | dep :: rest, m =>
    (∃ e m', WaitsFor env json keyPrefix startTime timeoutMs dep.parentJobId m (.error e) m') ∨
      ∃ v m', WaitsFor env json keyPrefix startTime timeoutMs dep.parentJobId m (.ok (some v)) m' ∧
        Breaks rest m'

/-- No parent is found even if it is waited for first, or every order finds them all, or every order
meets an error. -/
def Uniform (deps : List JobDependency) : Prop :=
  (∀ d ∈ deps, ∃ m', WaitsFor env json keyPrefix startTime timeoutMs d.parentJobId
      ⟨startTime, []⟩ (.ok none) m') ∨
  (∀ deps', deps'.Perm deps →
    FindsAll env json keyPrefix startTime timeoutMs [] deps' ⟨startTime, []⟩) ∨
  ∀ deps', deps'.Perm deps → Breaks env json keyPrefix startTime timeoutMs deps' ⟨startTime, []⟩

/-- The result, as it is parsed. -/
def valueOf (parentJobId : String) : Option Json :=
  (env.results (resultKey keyPrefix parentJobId)).bind fun a => (json.parse a.text).toOption

end

section

variable {env : Environment} {json : JsonText} {keyPrefix : String} {startTime : ℕ}
  {timeoutMs : ℚ} {m m' : Moment} {deps : List JobDependency} {results results' : Results}
  {p : String} {v : Json}

/-! ## How the loop ends -/

/-- What is found is the result. -/
theorem WaitsFor.valueOf (h : WaitsFor env json keyPrefix startTime timeoutMs p m (.ok (some v)) m')
    (hstart : startTime ≤ m.now) : valueOf env json keyPrefix p = some v := by
  obtain ⟨a, ha, hparse⟩ := parsed_of_run (h.run hstart)
  simp [JobChain.valueOf, ha, hparse, Except.toOption]

/-- A wait that finds nothing ends when the time is up. -/
theorem WaitsFor.expired (h : WaitsFor env json keyPrefix startTime timeoutMs p m (.ok none) m') :
    Expired startTime timeoutMs m' := by
  refine Async.Loops.rule (P := fun _ => True)
    (Q := fun r m' => r = .ok none → Expired startTime timeoutMs m') (fun m _ => ?_) h trivial rfl
  rcases pollRound_cases env (resultKey keyPrefix p) startTime timeoutMs m with
    hexp | ⟨hexp, e, hpoll⟩ | ⟨hexp, text, hfinds⟩ | ⟨hexp, hmisses⟩
  · rw [run_pollRound_of_expired hexp]
    exact fun _ => hexp
  · rw [run_pollRound_of_rejected hexp hpoll]
    exact fun h => nomatch h
  · rw [run_pollRound_of_finds hexp hfinds]
    cases json.parse text with
    | error e => exact fun h => nomatch h
    | ok v => exact fun h => nomatch h
  · rw [run_pollRound_of_misses hexp hmisses]
    trivial

/-- When the time is up the loop leaves the map as it is. -/
theorem collects_of_expired (h : Expired startTime timeoutMs m) (deps : List JobDependency)
    (results : Results) :
    Collects env json keyPrefix startTime timeoutMs deps results m (.ok results) m := by
  induction deps with
  | nil => exact .done
  | cons dep rest ih => exact .nothing (.leave (run_pollRound_of_expired h)) ih

/-- After a wait that finds nothing the map does not change any more. -/
theorem Collects.of_nothing {dep : JobDependency}
    (h : WaitsFor env json keyPrefix startTime timeoutMs dep.parentJobId m (.ok none) m')
    (rest : List JobDependency) (results : Results) :
    Collects env json keyPrefix startTime timeoutMs (dep :: rest) results m (.ok results) m' :=
  .nothing h (collects_of_expired h.expired rest results)

/-- The loop ends in one way. -/
theorem Collects.unique {r r' : Except Thrown Results} {m'' : Moment}
    (h : Collects env json keyPrefix startTime timeoutMs deps results m r m')
    (h' : Collects env json keyPrefix startTime timeoutMs deps results m r' m'') : r' = r := by
  induction h with
  | done =>
    cases h'
    rfl
  | found wait _ ih =>
    cases h' with
    | found wait' later' =>
      obtain ⟨hv, rfl⟩ := Async.Loops.unique wait wait'
      cases hv
      exact ih later'
    | nothing wait' => cases (Async.Loops.unique wait wait').1
    | failed wait' => cases (Async.Loops.unique wait wait').1
  | nothing wait _ ih =>
    cases h' with
    | found wait' => cases (Async.Loops.unique wait wait').1
    | nothing wait' later' =>
      obtain ⟨-, rfl⟩ := Async.Loops.unique wait wait'
      exact ih later'
    | failed wait' => cases (Async.Loops.unique wait wait').1
  | failed wait =>
    cases h' with
    | found wait' => cases (Async.Loops.unique wait wait').1
    | nothing wait' => cases (Async.Loops.unique wait wait').1
    | failed wait' =>
      cases (Async.Loops.unique wait wait').1
      rfl

/-- What is in the map stays in it. -/
theorem Collects.isSome {r : Except Thrown Results}
    (h : Collects env json keyPrefix startTime timeoutMs deps results m r m')
    (hr : r = .ok results') (hp : (results p).isSome = true) : (results' p).isSome = true := by
  induction h with
  | done =>
    obtain rfl := Except.ok.inj hr
    exact hp
  | @found dep _ results _ _ _ v _ _ _ ih =>
    refine ih hr ?_
    by_cases hdep : p = dep.parentJobId
    · rw [hdep, Function.update_self]
      rfl
    · rwa [Function.update_of_ne hdep]
  | nothing _ _ ih => exact ih hr hp
  | failed => cases hr

/-- The map holds nothing but results of parents on the list. -/
theorem Collects.valueOf {r : Except Thrown Results}
    (h : Collects env json keyPrefix startTime timeoutMs deps results m r m')
    (hr : r = .ok results') (hstart : startTime ≤ m.now)
    (hresults : ∀ {p v}, results p = some v → valueOf env json keyPrefix p = some v)
    (hv : results' p = some v) :
    JobChain.valueOf env json keyPrefix p = some v ∧
      (results p = some v ∨ p ∈ deps.map JobDependency.parentJobId) := by
  induction h with
  | done =>
    obtain rfl := Except.ok.inj hr
    exact ⟨hresults hv, .inl hv⟩
  | @found dep _ results _ _ _ w _ wait _ ih =>
    have hw : JobChain.valueOf env json keyPrefix dep.parentJobId = some w := wait.valueOf hstart
    obtain ⟨hvalue, hmem⟩ := ih hr (hstart.trans wait.le) (fun {q u} hq => by
      by_cases hdep : q = dep.parentJobId
      · subst hdep
        rw [Function.update_self] at hq
        rw [hw, hq]
      · rw [Function.update_of_ne hdep] at hq
        exact hresults hq)
    refine ⟨hvalue, ?_⟩
    by_cases hdep : p = dep.parentJobId
    · exact .inr (by simp [hdep])
    · rw [Function.update_of_ne hdep] at hmem
      exact hmem.imp_right (List.mem_cons_of_mem _)
  | nothing wait _ ih =>
    obtain ⟨hvalue, hmem⟩ := ih hr (hstart.trans wait.le) hresults
    exact ⟨hvalue, hmem.imp_right (List.mem_cons_of_mem _)⟩
  | failed => cases hr

/-- A loop that meets an error rejects, and no other does. -/
theorem breaks_iff (results : Results) :
    Breaks env json keyPrefix startTime timeoutMs deps m ↔
      ∃ e m', Collects env json keyPrefix startTime timeoutMs deps results m (.error e) m' := by
  induction deps generalizing m results with
  | nil => exact iff_of_false id (by rintro ⟨e, m', h⟩; cases h)
  | cons dep rest ih =>
    constructor
    · rintro (⟨e, m', hwait⟩ | ⟨v, m', hwait, hlater⟩)
      · exact ⟨e, m', .failed hwait⟩
      · obtain ⟨e, m'', hcollects⟩ := (ih _).mp hlater
        exact ⟨e, m'', .found hwait hcollects⟩
    · rintro ⟨e, m', h⟩
      cases h with
      | found wait later => exact .inr ⟨_, _, wait, (ih _).mpr ⟨e, m', later⟩⟩
      | nothing wait later =>
        cases (collects_of_expired wait.expired rest results).unique later
      | failed wait => exact .inl ⟨e, m', wait⟩

/-- A loop that finds every parent leaves a map that holds them all, and no other does. -/
theorem findsAll_iff (results : Results) {met : List String}
    (hmet : ∀ p, (results p).isSome = true ↔ p ∈ met) :
    FindsAll env json keyPrefix startTime timeoutMs met deps m ↔
      ∃ results' m',
        Collects env json keyPrefix startTime timeoutMs deps results m (.ok results') m' ∧
        ∀ d ∈ deps, (results' d.parentJobId).isSome = true := by
  induction deps generalizing m met results with
  | nil => exact iff_of_true trivial ⟨results, m, .done, by simp⟩
  | cons dep rest ih =>
    have hmet' (v : Json) (p : String) :
        (Function.update results dep.parentJobId v p).isSome = true ↔
          p ∈ dep.parentJobId :: met := by
      by_cases hp : p = dep.parentJobId
      · subst hp
        simp
      · rw [Function.update_of_ne hp, hmet, List.mem_cons, or_iff_right hp]
    constructor
    · rintro (⟨v, m₁, hwait, hlater⟩ | ⟨⟨m₁, hwait⟩, hall⟩)
      · obtain ⟨results', m', hcollects, hall⟩ := (ih _ (hmet' v)).mp hlater
        refine ⟨results', m', .found hwait hcollects, fun d hd => ?_⟩
        rcases List.mem_cons.mp hd with rfl | hd
        · exact hcollects.isSome rfl ((hmet' v _).mpr List.mem_cons_self)
        · exact hall d hd
      · exact ⟨results, m₁, .of_nothing hwait rest results, fun d hd => (hmet _).mpr (hall d hd)⟩
    · rintro ⟨results', m', h, hall⟩
      cases h with
      | found wait later =>
        exact .inl ⟨_, _, wait, (ih _ (hmet' _)).mpr
          ⟨results', m', later, fun d hd => hall d (List.mem_cons_of_mem _ hd)⟩⟩
      | nothing wait later =>
        obtain rfl := Except.ok.inj ((collects_of_expired wait.expired rest results).unique later)
        exact .inr ⟨⟨_, wait⟩, fun d hd => (hmet _).mp (hall d hd)⟩

/-! ## What a call returns -/

variable {jobId : String} {calledAt : ℕ}

/-- A call returns what its loop leaves. -/
theorem returned_of_collects {r : Except Thrown Results}
    (hlisted : listed env json keyPrefix jobId = .ok deps)
    (h : Collects env json keyPrefix (startAt env calledAt) timeoutMs deps (fun _ => none)
      ⟨startAt env calledAt, []⟩ r m') :
    returned env json keyPrefix jobId timeoutMs calledAt = r.toOption := by
  unfold returned
  rw [run_waitForDependencies timeoutMs (run_getJobDependencies_of_ok hlisted calledAt),
    h.run le_rfl]

/-- What the loop makes of a list, of an empty map. -/
def Leaves (env : Environment) (json : JsonText) (keyPrefix : String) (startTime : ℕ)
    (timeoutMs : ℚ) (deps : List JobDependency) (out : Option Results) : Prop :=
  ∃ r m', Collects env json keyPrefix startTime timeoutMs deps (fun _ => none) ⟨startTime, []⟩ r
    m' ∧ r.toOption = out

theorem leaves_none_iff :
    Leaves env json keyPrefix startTime timeoutMs deps none ↔
      Breaks env json keyPrefix startTime timeoutMs deps ⟨startTime, []⟩ := by
  rw [breaks_iff fun _ => none]
  constructor
  · rintro ⟨r, m', h, hr⟩
    cases r with
    | error e => exact ⟨e, m', h⟩
    | ok results => cases hr
  · rintro ⟨e, m', h⟩
    exact ⟨_, m', h, rfl⟩

theorem leaves_some_iff :
    Leaves env json keyPrefix startTime timeoutMs deps (some results) ↔
      ∃ m', Collects env json keyPrefix startTime timeoutMs deps (fun _ => none) ⟨startTime, []⟩
        (.ok results) m' := by
  constructor
  · rintro ⟨r, m', h, hr⟩
    cases r with
    | error e => cases hr
    | ok results' =>
      obtain rfl := Option.some.inj hr
      exact ⟨m', h⟩
  · rintro ⟨m', h⟩
    exact ⟨_, m', h, rfl⟩

theorem Leaves.unique {out out' : Option Results}
    (h : Leaves env json keyPrefix startTime timeoutMs deps out)
    (h' : Leaves env json keyPrefix startTime timeoutMs deps out') : out' = out := by
  obtain ⟨r, m', h, rfl⟩ := h
  obtain ⟨r', m'', h', rfl⟩ := h'
  rw [h.unique h']

/-- What is left of a parent that is waited for first: an error, an empty map, or its result. -/
theorem leaves_first {dep : JobDependency} {rest : List JobDependency} {out : Option Results}
    (h : Leaves env json keyPrefix startTime timeoutMs (dep :: rest) out) :
    out = none ∨
    (∃ m', WaitsFor env json keyPrefix startTime timeoutMs dep.parentJobId ⟨startTime, []⟩
      (.ok none) m') ∧ out = some (fun _ => none) ∨
    ∃ results, out = some results ∧ (results dep.parentJobId).isSome = true := by
  obtain ⟨r, m', h, rfl⟩ := h
  cases h with
  | @found _ _ _ _ _ _ v _ wait later =>
    cases r with
    | error e => exact .inl rfl
    | ok results =>
      refine .inr (.inr ⟨results, rfl, later.isSome rfl ?_⟩)
      rw [Function.update_self]
      rfl
  | nothing wait later =>
    rw [(collects_of_expired wait.expired rest _).unique later]
    exact .inr (.inl ⟨⟨_, wait⟩, rfl⟩)
  | failed wait => exact .inl rfl

/-- Two maps that hold all parents of a list, and nothing else, are the same. -/
theorem eq_of_findsAll {deps' : List JobDependency} (hperm : deps'.Perm deps)
    (h : Leaves env json keyPrefix startTime timeoutMs deps (some results))
    (h' : Leaves env json keyPrefix startTime timeoutMs deps' (some results'))
    (hall : ∀ d ∈ deps, (results d.parentJobId).isSome = true)
    (hall' : ∀ d ∈ deps', (results' d.parentJobId).isSome = true) : results' = results := by
  obtain ⟨m₁, h⟩ := leaves_some_iff.mp h
  obtain ⟨m₂, h'⟩ := leaves_some_iff.mp h'
  funext p
  have hparents : p ∈ deps'.map JobDependency.parentJobId ↔
      p ∈ deps.map JobDependency.parentJobId := (hperm.map _).mem_iff
  cases hp : results p with
  | some v =>
    obtain ⟨hvalue, hmem⟩ := h.valueOf rfl le_rfl (by simp) hp
    obtain ⟨d, hd, rfl⟩ := List.mem_map.mp (hparents.mpr (hmem.resolve_left (by simp)))
    obtain ⟨v', hv'⟩ := Option.isSome_iff_exists.mp (hall' d hd)
    have hvalue' := (h'.valueOf rfl le_rfl (by simp) hv').1
    rw [hv', ← hvalue, hvalue']
  | none =>
    cases hp' : results' p with
    | none => rfl
    | some v' =>
      have hmem := (h'.valueOf rfl le_rfl (by simp) hp').2.resolve_left (by simp)
      obtain ⟨d, hd, rfl⟩ := List.mem_map.mp (hparents.mp hmem)
      have hsome := hall d hd
      rw [hp] at hsome
      cases hsome

theorem leaves_of_nothing (h : ∀ d ∈ deps, ∃ m', WaitsFor env json keyPrefix startTime timeoutMs
    d.parentJobId ⟨startTime, []⟩ (.ok none) m') :
    Leaves env json keyPrefix startTime timeoutMs deps (some fun _ => none) := by
  cases deps with
  | nil => exact leaves_some_iff.mpr ⟨_, .done⟩
  | cons dep rest =>
    obtain ⟨m', hwait⟩ := h dep List.mem_cons_self
    exact leaves_some_iff.mpr ⟨m', .of_nothing hwait rest _⟩

theorem leaves_of_findsAll
    (h : FindsAll env json keyPrefix startTime timeoutMs [] deps ⟨startTime, []⟩) :
    ∃ results, Leaves env json keyPrefix startTime timeoutMs deps (some results) ∧
      ∀ d ∈ deps, (results d.parentJobId).isSome = true := by
  obtain ⟨results, m', hcollects, hall⟩ := (findsAll_iff (fun _ => none) (by simp)).mp h
  exact ⟨results, leaves_some_iff.mpr ⟨m', hcollects⟩, hall⟩

/-- All orders of a uniform list leave the same. -/
theorem leaves_of_uniform {deps' : List JobDependency} {out out' : Option Results}
    (huniform : Uniform env json keyPrefix startTime timeoutMs deps) (hperm : deps'.Perm deps)
    (h : Leaves env json keyPrefix startTime timeoutMs deps out)
    (h' : Leaves env json keyPrefix startTime timeoutMs deps' out') : out' = out := by
  rcases huniform with hnothing | hall | hbreaks
  · rw [(leaves_of_nothing hnothing).unique h,
      (leaves_of_nothing fun d hd => hnothing d (hperm.mem_iff.mp hd)).unique h']
  · obtain ⟨results, hleaves, hsome⟩ := leaves_of_findsAll (hall deps (.refl _))
    obtain ⟨results', hleaves', hsome'⟩ := leaves_of_findsAll (hall deps' hperm)
    rw [hleaves.unique h, hleaves'.unique h',
      eq_of_findsAll hperm hleaves hleaves' hsome hsome']
  · rw [(leaves_none_iff.mpr (hbreaks deps (.refl _))).unique h,
      (leaves_none_iff.mpr (hbreaks deps' hperm)).unique h']

/-- Any dependency may be the first. -/
theorem exists_first {d : JobDependency} (hd : d ∈ deps) : ∃ rest, (d :: rest).Perm deps := by
  obtain ⟨before, after, rfl⟩ := List.append_of_mem hd
  exact ⟨before ++ after, List.perm_middle.symm⟩

/-- **Only a uniform list.** If all orders leave the same, one of three things is the case: compare
the orders in which one parent or another is waited for first. -/
theorem uniform_of_leaves (out : Option Results)
    (h : ∀ deps', deps'.Perm deps → Leaves env json keyPrefix startTime timeoutMs deps' out) :
    Uniform env json keyPrefix startTime timeoutMs deps := by
  cases out with
  | none => exact .inr (.inr fun deps' hperm => leaves_none_iff.mp (h deps' hperm))
  | some results =>
    by_cases hsome : ∃ d ∈ deps, (results d.parentJobId).isSome = true
    · obtain ⟨d, -, hd⟩ := hsome
      refine .inr (.inl fun deps' hperm => (findsAll_iff (fun _ => none) (by simp)).mpr ?_)
      obtain ⟨m', hcollects⟩ := leaves_some_iff.mp (h deps' hperm)
      refine ⟨results, m', hcollects, fun q hq => ?_⟩
      obtain ⟨rest, hrest⟩ := exists_first (hperm.mem_iff.mp hq)
      rcases leaves_first (h _ hrest) with hnone | ⟨-, hempty⟩ | ⟨results', heq, hq'⟩
      · cases hnone
      · rw [Option.some.inj hempty] at hd
        cases hd
      · rwa [Option.some.inj heq]
    · refine .inl fun d hd => ?_
      obtain ⟨rest, hrest⟩ := exists_first hd
      rcases leaves_first (h _ hrest) with hnone | ⟨hwait, -⟩ | ⟨results', heq, hd'⟩
      · cases hnone
      · exact hwait
      · rw [← Option.some.inj heq] at hd'
        exact absurd ⟨d, hd, hd'⟩ hsome

/-! ## The call -/

/-- The loop does not look at how a list is parsed. -/
theorem collects_congr {json' : JsonText} (hparse : json'.parse = json.parse)
    {r : Except Thrown Results}
    (h : Collects env json' keyPrefix startTime timeoutMs deps results m r m') :
    Collects env json keyPrefix startTime timeoutMs deps results m r m' := by
  have hround (key : String) : pollRound env json' startTime timeoutMs key =
      pollRound env json startTime timeoutMs key := by
    unfold pollRound
    rw [hparse]
  have hwait {p : String} {m m' : Moment} {r : Except Thrown (Option Json)}
      (h : WaitsFor env json' keyPrefix startTime timeoutMs p m r m') :
      WaitsFor env json keyPrefix startTime timeoutMs p m r m' := by
    unfold WaitsFor at h ⊢
    rwa [← hround]
  induction h with
  | done => exact .done
  | found wait _ ih => exact .found (hwait wait) ih
  | nothing wait _ ih => exact .nothing (hwait wait) ih
  | failed wait => exact .failed (hwait wait)

/-- What a call returns is what the loop leaves of the list that is stored. -/
theorem leaves_returned {json' : JsonText} (hparse : json'.parse = json.parse)
    (hlisted : listed env json' keyPrefix jobId = .ok deps) :
    Leaves env json keyPrefix (startAt env calledAt) timeoutMs deps
      (returned env json' keyPrefix jobId timeoutMs calledAt) := by
  obtain ⟨r, m', h⟩ := exists_collects env json' keyPrefix (startAt env calledAt) timeoutMs deps
    (fun _ => none) ⟨startAt env calledAt, []⟩
  rw [returned_of_collects hlisted h]
  exact ⟨r, m', collects_congr hparse h, rfl⟩

/-- Any order of the list may be the one that is stored. -/
theorem exists_listed {deps' : List JobDependency}
    (hlisted : listed env json keyPrefix jobId = .ok deps) (hperm : deps'.Perm deps) :
    ∃ json' : JsonText, json'.parse = json.parse ∧
      listed env json' keyPrefix jobId = .ok deps' := by
  refine ⟨⟨json.parse, fun _ => .ok deps'⟩, rfl, ?_⟩
  unfold listed at hlisted ⊢
  cases hanswer : env.dependenciesAnswer with
  | rejected e applied =>
    rw [hanswer] at hlisted
    cases hlisted
  | answered =>
    rw [hanswer] at hlisted
    cases htext : truthy (env.dependencies (dependenciesKey keyPrefix jobId)) with
    | some text => rfl
    | none =>
      simp only [htext, Except.ok.injEq] at hlisted
      subst hlisted
      rw [hperm.eq_nil]

/-- A parent whose result is there is not passed over by a wait that begins in time. -/
theorem not_nothing_of_present {time : ℕ} (hpresent : Present env keyPrefix p time)
    (htime : time ≤ m.now) (hexp : ¬ Expired startTime timeoutMs m) :
    ¬ WaitsFor env json keyPrefix startTime timeoutMs p m (.ok none) m' := by
  intro h
  obtain ⟨a, ha, htext, hat⟩ := hpresent
  rcases pollRound_cases env (resultKey keyPrefix p) startTime timeoutMs m with
    hexp' | ⟨-, e, hpoll⟩ | ⟨-, text, hfinds⟩ | ⟨-, raw, hraw, hmisses⟩
  · exact hexp hexp'
  · cases ((Async.loops_iff_of_fail (run_pollRound_of_rejected hexp hpoll)).mp h).1
  · have hrun : (pollRound env json startTime timeoutMs (resultKey keyPrefix p)).run m = _ :=
      run_pollRound_of_finds hexp hfinds
    cases hparse : json.parse text with
    | error e =>
      rw [hparse] at hrun
      cases ((Async.loops_iff_of_fail hrun).mp h).1
    | ok v =>
      rw [hparse] at hrun
      cases ((Async.loops_iff_of_leave hrun).mp h).1
  · unfold Environment.polled at hraw
    split at hraw
    · obtain rfl := Except.ok.inj hraw
      have hlater : a.time ≤ m.now + env.outward m.polls.length :=
        (hat.trans htime).trans (Nat.le_add_right _ _)
      simp [Environment.textAt, ha, hlater, truthy, htext] at hmisses
    · cases hraw

/-- Every parent whose result is there when the call starts is found, if the list is uniform. -/
theorem isSome_of_uniform (htimeout : 0 < timeoutMs)
    (huniform : Uniform env json keyPrefix (startAt env calledAt) timeoutMs deps)
    (h : Leaves env json keyPrefix (startAt env calledAt) timeoutMs deps (some results))
    {d : JobDependency} (hd : d ∈ deps) (hpresent : Present env keyPrefix d.parentJobId calledAt) :
    (results d.parentJobId).isSome = true := by
  rcases huniform with hnothing | hall | hbreaks
  · obtain ⟨m', hwait⟩ := hnothing d hd
    refine absurd hwait (not_nothing_of_present hpresent (Nat.le_add_right _ _) ?_)
    simpa [Expired] using htimeout
  · obtain ⟨results', hleaves, hsome⟩ := leaves_of_findsAll (hall deps (.refl _))
    obtain rfl := Option.some.inj (hleaves.unique h)
    exact hsome d hd
  · cases (leaves_none_iff.mpr (hbreaks deps (.refl _))).unique h

/-- **Orders.** The order of the dependencies makes no difference exactly if the list is uniform. -/
theorem orderFree_iff_uniform (hlisted : listed env json keyPrefix jobId = .ok deps)
    (htimeout : 0 < timeoutMs) :
    OrderFree env json keyPrefix jobId timeoutMs calledAt deps ↔
      Uniform env json keyPrefix (startAt env calledAt) timeoutMs deps := by
  have hleaves : Leaves env json keyPrefix (startAt env calledAt) timeoutMs deps
      (returned env json keyPrefix jobId timeoutMs calledAt) := leaves_returned rfl hlisted
  constructor
  · intro h
    refine uniform_of_leaves (returned env json keyPrefix jobId timeoutMs calledAt)
      fun deps' hperm => ?_
    obtain ⟨json', hparse, hlisted'⟩ := exists_listed hlisted hperm
    rw [← h.same json' deps' hparse hlisted' hperm]
    exact leaves_returned hparse hlisted'
  · intro huniform
    refine ⟨fun json' deps' hparse hlisted' hperm => ?_, fun results hreturned d hd hpresent => ?_⟩
    · exact leaves_of_uniform huniform hperm hleaves (leaves_returned hparse hlisted')
    · rw [hreturned] at hleaves
      exact isSome_of_uniform htimeout huniform hleaves hd hpresent

/-! ## An exact clock -/

/-- Every read is answered and takes no time, and no timer is late. -/
structure Environment.IsIdeal (env : Environment) : Prop where
  answered : ∀ n, env.answers n = .answered
  outward : ∀ n, env.outward n = 0
  backward : ∀ n, env.backward n = 0
  lag : ∀ n, env.lag n = 0

/-- The result is there at one of the polls for which there is time. -/
def Timely (env : Environment) (keyPrefix : String) (startTime : ℕ) (timeoutMs : ℚ)
    (parentJobId : String) : Prop :=
  ∃ k : ℕ, (100 * k : ℚ) < timeoutMs ∧ Present env keyPrefix parentJobId (startTime + 100 * k)

/-- It is the time of a poll. -/
def OnBeat (startTime : ℕ) (m : Moment) : Prop := ∃ k, m.now = startTime + 100 * k

theorem not_expired_iff {k : ℕ} (h : m.now = startTime + 100 * k) :
    ¬ Expired startTime timeoutMs m ↔ (100 * k : ℚ) < timeoutMs := by
  unfold Expired
  rw [h, not_le]
  push_cast
  rw [add_sub_cancel_left]

section Ideal

variable (hideal : env.IsIdeal)
include hideal

theorem now_answeredAt (key : String) (m : Moment) : (env.answeredAt key m).now = m.now := by
  simp [Environment.answeredAt, hideal.outward, hideal.backward]

theorem now_slept (key : String) (m : Moment) :
    (env.slept (env.answeredAt key m)).now = m.now + 100 := by
  simp [Environment.slept, now_answeredAt hideal, hideal.lag]

theorem onBeat_slept (key : String) (h : OnBeat startTime m) :
    OnBeat startTime (env.slept (env.answeredAt key m)) := by
  obtain ⟨k, hk⟩ := h
  refine ⟨k + 1, ?_⟩
  rw [now_slept hideal, hk]
  ring

theorem polled_eq (key : String) (m : Moment) : env.polled key m = .ok (env.textAt key m.now) := by
  simp [Environment.polled, hideal.answered, hideal.outward]

/-- A poll finds a result that is there, and no other. -/
theorem exists_finds_iff : (∃ text, Finds env (resultKey keyPrefix p) m text) ↔
    Present env keyPrefix p m.now := by
  unfold Finds Present
  rw [polled_eq hideal]
  constructor
  · rintro ⟨text, raw, hraw, htext⟩
    obtain rfl := Except.ok.inj hraw
    obtain ⟨hat, hne⟩ := Option.filter_eq_some_iff.mp htext
    obtain ⟨a, ha, hat⟩ := Option.bind_eq_some_iff.mp hat
    obtain ⟨htime, hat⟩ := Option.ite_none_right_eq_some.mp hat
    obtain rfl := Option.some.inj hat
    exact ⟨a, ha, by simpa using hne, htime⟩
  · rintro ⟨a, ha, hne, htime⟩
    refine ⟨a.text, _, rfl, ?_⟩
    simp [Environment.textAt, ha, htime, truthy, hne]

/-- What a round does where no read is rejected. -/
theorem ideal_cases (json : JsonText) (p : String) (startTime : ℕ) (timeoutMs : ℚ) (m : Moment) :
    (Expired startTime timeoutMs m ∧
      (pollRound env json startTime timeoutMs (resultKey keyPrefix p)).run m =
        (.ok (some none), m)) ∨
    (¬ Expired startTime timeoutMs m ∧ Present env keyPrefix p m.now ∧ ∃ text,
      Finds env (resultKey keyPrefix p) m text ∧
      (pollRound env json startTime timeoutMs (resultKey keyPrefix p)).run m =
        ((json.parse text).map (some ∘ some), env.answeredAt (resultKey keyPrefix p) m)) ∨
    (¬ Expired startTime timeoutMs m ∧ ¬ Present env keyPrefix p m.now ∧
      (pollRound env json startTime timeoutMs (resultKey keyPrefix p)).run m =
        (.ok none, env.slept (env.answeredAt (resultKey keyPrefix p) m))) := by
  by_cases hpresent : Present env keyPrefix p m.now
  · obtain ⟨text, hfinds⟩ := (exists_finds_iff hideal).mpr hpresent
    by_cases hexp : Expired startTime timeoutMs m
    · exact .inl ⟨hexp, run_pollRound_of_expired hexp⟩
    · exact .inr (.inl ⟨hexp, hpresent, text, hfinds, run_pollRound_of_finds hexp hfinds⟩)
  · rcases pollRound_cases env (resultKey keyPrefix p) startTime timeoutMs m with
      hexp | ⟨-, e, hpoll⟩ | ⟨-, hfinds⟩ | ⟨hexp, hmisses⟩
    · exact .inl ⟨hexp, run_pollRound_of_expired hexp⟩
    · rw [polled_eq hideal] at hpoll
      cases hpoll
    · exact absurd ((exists_finds_iff hideal).mp hfinds) hpresent
    · exact .inr (.inr ⟨hexp, hpresent, run_pollRound_of_misses hexp hmisses⟩)

/-- A wait for a result that is not timely finds nothing. -/
theorem WaitsFor.nothing_of_not_timely {r : Except Thrown (Option Json)}
    (h : WaitsFor env json keyPrefix startTime timeoutMs p m r m') (hbeat : OnBeat startTime m)
    (hlate : ¬ Timely env keyPrefix startTime timeoutMs p) : r = .ok none := by
  refine Async.Loops.rule (P := OnBeat startTime) (Q := fun r _ => r = .ok none)
    (fun m hbeat => ?_) h hbeat
  rcases ideal_cases hideal json p startTime timeoutMs m with
    ⟨-, hrun⟩ | ⟨hexp, hpresent, -⟩ | ⟨-, -, hrun⟩
  · rw [hrun]
    rfl
  · obtain ⟨k, hk⟩ := hbeat
    exact absurd ⟨k, (not_expired_iff hk).mp hexp, hk ▸ hpresent⟩ hlate
  · rw [hrun]
    exact onBeat_slept hideal _ hbeat

/-- A wait for a timely result that begins in time finds it, or finds that it is no JSON, and ends
in time. -/
theorem WaitsFor.found_of_timely {r : Except Thrown (Option Json)}
    (h : WaitsFor env json keyPrefix startTime timeoutMs p m r m') (hbeat : OnBeat startTime m)
    (hexp : ¬ Expired startTime timeoutMs m)
    (htimely : Timely env keyPrefix startTime timeoutMs p) :
    r ≠ .ok none ∧ OnBeat startTime m' ∧ ¬ Expired startTime timeoutMs m' := by
  refine Async.Loops.rule (P := fun m => OnBeat startTime m ∧ ¬ Expired startTime timeoutMs m)
    (Q := fun r m' => r ≠ .ok none ∧ OnBeat startTime m' ∧ ¬ Expired startTime timeoutMs m')
    (fun m hm => ?_) h ⟨hbeat, hexp⟩
  obtain ⟨⟨k, hk⟩, hexp⟩ := hm
  rcases ideal_cases hideal json p startTime timeoutMs m with
    ⟨hexp', -⟩ | ⟨-, hpresent, text, -, hrun⟩ | ⟨-, habsent, hrun⟩
  · exact absurd hexp' hexp
  · rw [hrun]
    have hnow : (env.answeredAt (resultKey keyPrefix p) m).now = startTime + 100 * k := by
      rw [now_answeredAt hideal, hk]
    have hexp' := (not_expired_iff hnow).mpr ((not_expired_iff hk).mp hexp)
    cases json.parse text with
    | error e => exact ⟨nofun, ⟨k, hnow⟩, hexp'⟩
    | ok v => exact ⟨nofun, ⟨k, hnow⟩, hexp'⟩
  · rw [hrun]
    -- the poll at which the result is there comes later
    obtain ⟨k', hk', a, ha, hne, htime⟩ := htimely
    have hlater : k < k' := by
      by_contra hle
      refine habsent ⟨a, ha, hne, ?_⟩
      rw [hk]
      omega
    have hnow : (env.slept (env.answeredAt (resultKey keyPrefix p) m)).now =
        startTime + 100 * (k + 1) := by
      rw [now_slept hideal, hk]
      ring
    refine ⟨⟨k + 1, hnow⟩, (not_expired_iff hnow).mpr (lt_of_le_of_lt ?_ hk')⟩
    have hle : ((k + 1 : ℕ) : ℚ) ≤ k' := Nat.cast_le.mpr hlater
    linarith

/-- A result that is JSON gives no error. -/
theorem WaitsFor.not_error {r : Except Thrown (Option Json)}
    (h : WaitsFor env json keyPrefix startTime timeoutMs p m r m')
    (hvalue : (JobChain.valueOf env json keyPrefix p).isSome = true) : ∃ o, r = .ok o := by
  refine Async.Loops.rule (P := fun _ => True) (Q := fun r _ => ∃ o, r = .ok o) (fun m _ => ?_) h
    trivial
  rcases ideal_cases hideal json p startTime timeoutMs m with
    ⟨-, hrun⟩ | ⟨-, -, text, hfinds, hrun⟩ | ⟨-, -, hrun⟩
  · rw [hrun]
    exact ⟨_, rfl⟩
  · rw [hrun]
    obtain ⟨a, ha, rfl, -⟩ := hfinds.results
    simp only [JobChain.valueOf, ha, Option.bind_some] at hvalue
    cases hparse : json.parse a.text with
    | error e =>
      rw [hparse] at hvalue
      cases hvalue
    | ok v => exact ⟨_, rfl⟩
  · rw [hrun]
    trivial

/-- Where all results are timely, a map that is left holds them all. -/
theorem Collects.isSome_of_timely {r : Except Thrown Results}
    (h : Collects env json keyPrefix startTime timeoutMs deps results m r m')
    (hr : r = .ok results') (hbeat : OnBeat startTime m) (hexp : ¬ Expired startTime timeoutMs m)
    (htimely : ∀ d ∈ deps, Timely env keyPrefix startTime timeoutMs d.parentJobId) :
    ∀ d ∈ deps, (results' d.parentJobId).isSome = true := by
  induction h with
  | done => simp
  | @found dep rest _ _ _ _ v _ wait later ih =>
    obtain ⟨-, hbeat', hexp'⟩ :=
      wait.found_of_timely hideal hbeat hexp (htimely dep List.mem_cons_self)
    intro d hd
    rcases List.mem_cons.mp hd with rfl | hd
    · refine later.isSome hr ?_
      rw [Function.update_self]
      rfl
    · exact ih hr hbeat' hexp' (fun d hd => htimely d (List.mem_cons_of_mem _ hd)) d hd
  | nothing wait _ _ =>
    exact absurd rfl (wait.found_of_timely hideal hbeat hexp (htimely _ List.mem_cons_self)).1
  | failed => cases hr

/-- Where all results are JSON, no order meets an error. -/
theorem not_breaks
    (hvalue : ∀ d ∈ deps, (JobChain.valueOf env json keyPrefix d.parentJobId).isSome = true) :
    ¬ Breaks env json keyPrefix startTime timeoutMs deps m := by
  induction deps generalizing m with
  | nil => exact id
  | cons dep rest ih =>
    rintro (⟨e, m', hwait⟩ | ⟨v, m', -, hlater⟩)
    · obtain ⟨o, ho⟩ := hwait.not_error hideal (hvalue dep List.mem_cons_self)
      cases ho
    · exact ih (fun d hd => hvalue d (List.mem_cons_of_mem _ hd)) hlater

/-- The wait for a parent that is not timely finds nothing, whenever it begins. -/
theorem exists_waitsFor_nothing (hbeat : OnBeat startTime m)
    (hlate : ¬ Timely env keyPrefix startTime timeoutMs p) :
    ∃ m', WaitsFor env json keyPrefix startTime timeoutMs p m (.ok none) m' := by
  obtain ⟨r, m', hwait⟩ := exists_waitsFor env json keyPrefix startTime timeoutMs p m
  obtain rfl := hwait.nothing_of_not_timely hideal hbeat hlate
  exact ⟨m', hwait⟩

/-- Where all results are timely, every order finds them all, or one that is no JSON is met in every
order. -/
theorem uniform_of_timely (htimeout : 0 < timeoutMs)
    (htimely : ∀ d ∈ deps, Timely env keyPrefix startTime timeoutMs d.parentJobId) :
    Uniform env json keyPrefix startTime timeoutMs deps := by
  have hbeat : OnBeat startTime ⟨startTime, []⟩ := ⟨0, rfl⟩
  have hexp : ¬ Expired startTime timeoutMs ⟨startTime, []⟩ := by
    simpa [Expired] using htimeout
  by_cases hvalue : ∀ d ∈ deps, (JobChain.valueOf env json keyPrefix d.parentJobId).isSome = true
  · refine .inr (.inl fun deps' hperm => (findsAll_iff (fun _ => none) (by simp)).mpr ?_)
    obtain ⟨r, m', hcollects⟩ := exists_collects env json keyPrefix startTime timeoutMs deps'
      (fun _ => none) ⟨startTime, []⟩
    cases r with
    | error e =>
      exact absurd ((breaks_iff fun _ => none).mpr ⟨e, m', hcollects⟩)
        (not_breaks hideal fun d hd => hvalue d (hperm.mem_iff.mp hd))
    | ok results =>
      exact ⟨results, m', hcollects, hcollects.isSome_of_timely hideal rfl hbeat hexp
        fun d hd => htimely d (hperm.mem_iff.mp hd)⟩
  · refine .inr (.inr fun deps' hperm => (breaks_iff fun _ => none).mpr ?_)
    obtain ⟨r, m', hcollects⟩ := exists_collects env json keyPrefix startTime timeoutMs deps'
      (fun _ => none) ⟨startTime, []⟩
    cases r with
    | error e => exact ⟨e, m', hcollects⟩
    | ok results =>
      refine absurd (fun d hd => ?_) hvalue
      obtain ⟨v, hv⟩ := Option.isSome_iff_exists.mp (hcollects.isSome_of_timely hideal rfl hbeat
        hexp (fun d hd => htimely d (hperm.mem_iff.mp hd)) d (hperm.mem_iff.mpr hd))
      rw [(hcollects.valueOf rfl le_rfl (by simp) hv).1]
      rfl

/-- A list with a parent that is timely and one that is not is not uniform. -/
theorem not_uniform_of_mixed (htimeout : 0 < timeoutMs) {q p : JobDependency} (hq : q ∈ deps)
    (hlate : ¬ Timely env keyPrefix startTime timeoutMs q.parentJobId) (hp : p ∈ deps)
    (htimely : Timely env keyPrefix startTime timeoutMs p.parentJobId) :
    ¬ Uniform env json keyPrefix startTime timeoutMs deps := by
  have hbeat : OnBeat startTime ⟨startTime, []⟩ := ⟨0, rfl⟩
  have hexp : ¬ Expired startTime timeoutMs ⟨startTime, []⟩ := by
    simpa [Expired] using htimeout
  -- the parent that is not timely, waited for first
  obtain ⟨m', hwait⟩ : ∃ m', WaitsFor env json keyPrefix startTime timeoutMs q.parentJobId
      ⟨startTime, []⟩ (.ok none) m' := exists_waitsFor_nothing hideal hbeat hlate
  obtain ⟨rest, hrest⟩ := exists_first hq
  rintro (hnothing | hall | hbreaks)
  · obtain ⟨m'', hwait'⟩ := hnothing p hp
    exact (hwait'.found_of_timely hideal hbeat hexp htimely).1 rfl
  · rcases hall _ hrest with ⟨v, m'', hwait', -⟩ | ⟨-, hmet⟩
    · cases (Async.Loops.unique hwait hwait').1
    · exact absurd (hmet q List.mem_cons_self) List.not_mem_nil
  · rcases hbreaks _ hrest with ⟨e, m'', hwait'⟩ | ⟨v, m'', hwait', -⟩
    · cases (Async.Loops.unique hwait hwait').1
    · cases (Async.Loops.unique hwait hwait').1

/-- **An exact clock.** A list is uniform exactly if all results are timely or none is. -/
theorem uniform_iff_timely (htimeout : 0 < timeoutMs) :
    Uniform env json keyPrefix startTime timeoutMs deps ↔
      (∀ d ∈ deps, Timely env keyPrefix startTime timeoutMs d.parentJobId) ∨
        ∀ d ∈ deps, ¬ Timely env keyPrefix startTime timeoutMs d.parentJobId := by
  constructor
  · intro huniform
    by_contra hmixed
    push Not at hmixed
    obtain ⟨⟨q, hq, hlate⟩, ⟨p, hp, htimely⟩⟩ := hmixed
    exact not_uniform_of_mixed hideal htimeout hq hlate hp htimely huniform
  · rintro (htimely | hlate)
    · exact uniform_of_timely hideal htimeout htimely
    · exact .inl fun d hd => exists_waitsFor_nothing hideal ⟨0, rfl⟩ (hlate d hd)

end Ideal

/-! ## The result -/

/-- **When the order makes no difference.** Exactly if no parent is found even when it is waited for
first, or all are found in every order, or every order meets an error. With an exact clock and no
rejected read: exactly if all results are there by the last poll, or none is. -/
theorem orderFree_iff (hlisted : listed env json keyPrefix jobId = .ok deps)
    (htimeout : 0 < timeoutMs) :
    (OrderFree env json keyPrefix jobId timeoutMs calledAt deps ↔
        Uniform env json keyPrefix (startAt env calledAt) timeoutMs deps) ∧
      (env.IsIdeal → (OrderFree env json keyPrefix jobId timeoutMs calledAt deps ↔
        (∀ d ∈ deps, Timely env keyPrefix (startAt env calledAt) timeoutMs d.parentJobId) ∨
          ∀ d ∈ deps, ¬ Timely env keyPrefix (startAt env calledAt) timeoutMs d.parentJobId)) :=
  ⟨orderFree_iff_uniform hlisted htimeout, fun hideal =>
    (orderFree_iff_uniform hlisted htimeout).trans (uniform_iff_timely hideal htimeout)⟩

end

/-- Two parents, of which the results of those on the list are there from the beginning. -/
def parents (finished : List String) : Environment where
  dependencies _ := some ("[\x7b\"parentJobId\":\"slow\",\"requiresSuccess\":false\x7d," ++
    "\x7b\"parentJobId\":\"quick\",\"requiresSuccess\":false\x7d]")
  dependenciesAnswer := .answered
  dependenciesLatency := 0
  results key := if key ∈ finished.map (resultKey "job-chains") then some ⟨0, "1"⟩ else none
  answers _ := .answered
  outward _ := 0
  backward _ := 0
  lag _ := 0

/-- The dependencies in that list. -/
def slowThenQuick : List JobDependency := [⟨"slow", false⟩, ⟨"quick", false⟩]

/-- What `JSON.parse` makes of the texts. -/
def parentTexts : JsonText where
  parse _ := .ok (.num 1)
  parseDependencies _ := .ok slowThenQuick

theorem isIdeal_parents (finished : List String) : (parents finished).IsIdeal :=
  ⟨fun _ => rfl, fun _ => rfl, fun _ => rfl, fun _ => rfl⟩

theorem timely_parents {finished : List String} {p : String} (h : p ∈ finished) :
    Timely (parents finished) "job-chains" 0 1000 p := by
  refine ⟨0, by norm_num, ⟨0, "1"⟩, ?_, by decide, le_rfl⟩
  exact if_pos (List.mem_map_of_mem h)

/-- With both results there, the order makes no difference. -/
theorem orderFree_parents :
    OrderFree (parents ["slow", "quick"]) parentTexts "job-chains" "child" 1000 0
      slowThenQuick := by
  refine ((orderFree_iff rfl (by norm_num)).2 (isIdeal_parents _)).mpr (.inl fun d hd => ?_)
  refine timely_parents ?_
  simp only [slowThenQuick, List.mem_cons, List.not_mem_nil, or_false] at hd
  rcases hd with rfl | rfl <;> decide

/-- A result that is there when the call starts is lost behind one that does not come. -/
theorem not_orderFree_slowThenQuick :
    ¬ OrderFree (parents ["quick"]) parentTexts "job-chains" "child" 1000 0 slowThenQuick := by
  intro h
  have huniform := (orderFree_iff_uniform rfl (by norm_num)).mp h
  rcases (uniform_iff_timely (isIdeal_parents _) (by norm_num)).mp huniform with hall | hnone
  · obtain ⟨k, -, a, ha, -⟩ := hall ⟨"slow", false⟩ (by simp [slowThenQuick])
    simp [parents, resultKey] at ha
  · exact hnone ⟨"quick", false⟩ (by simp [slowThenQuick]) (timely_parents (by simp))

end KitiumJobQueue.JobChain
