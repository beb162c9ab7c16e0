import KitiumJobQueue.Bull.Retention
import KitiumJobQueue.Foundations.LastingFacts
import KitiumJobQueue.JobQueue.Deduplication
import KitiumJobQueue.JobQueue.Overlapping
import KitiumJobQueue.JobQueue.Rounds

/-!
# Where jobs and dead letters come from, and where they go

However the methods of a `JobQueue` and its workers overlap, and whichever calls fail: a job of
either queue goes back to an `addJob`, through attempts that have failed and replays of their
envelopes (`Made`, `traced_of_run`), and a dead letter goes only in a replay, which removes it where
an addition to the main queue has come to a job under its id (`undropped_of_run`). That this has
happened is a fact that lasts, and the replay counts on it while others act.
-/

namespace KitiumJobQueue.JobQueue.Overlapping

open Effects JavaScript Bull

section

variable (config : QueueConfig) (q d : Queue) (Called : Call → Prop)

/-- What the attempt ends with, if it reaches its processor and fails there or afterwards. -/
def FailsWith (attempt : Attempt) (error : JsError) : Prop :=
  ∃ processor ∈ attempt.processor, ∃ e, complete config attempt processor = .error e ∧
    error = e.toError attempt.stack

/-- The id, the name and the data of a job that calls may have put into a queue, starting from the
queues `q` and `d`. -/
inductive Made : QueueName → String → String → Json → Prop
  | found {job : Job} (hjob : job ∈ q.jobs) : Made .main job.id job.name job.data
  | foundDead {entry : Job} (hentry : entry ∈ d.jobs) : Made .dlq entry.id entry.name entry.data
  | added {jobName id : String} {data : Json} {options : Option JobOptions} {random : ℚ}
    {metric : Answer Thrown} (hcalled : Called (.addJob jobName data options random metric))
    (hid : ∀ key, (options.getD {}).idempotencyKey.toOption = some key → key ≠ "" → id = key) :
    Made .main id jobName data
  | moved {job : Job} {attempt : Attempt} {isDelayed : Bool} {error : JsError} {id : String}
    (hcalled : Called (.work job.id attempt isDelayed)) (henabled : config.isDlqEnabled)
    (hspent : job.opts.attempts.getD 3 ≤ job.attemptsMade)
    (herror : FailsWith config attempt error) (hne : id ≠ "")
    (hmade : Made .main job.id job.name job.data) :
    Made .dlq id job.name (envelope config job error attempt.timestamp)
  | replayed {limit : ℕ} {id name : String} {data : Json} (hcalled : Called (.replayDLQ limit))
    (henabled : config.isDlqEnabled) (hmade : Made .dlq id name data) : Made .main id name data

/-- The ids that dead letters have been stored under, the queue having been `d` at first. -/
def Stored (d' : Queue) (id : String) : Prop :=
  id ∈ d.ids ∨ ∃ n, d.counter < n ∧ n ≤ d'.counter ∧ id = toString n

/-- Whatever is stored was made, and a dead letter that has gone was offered to the main queue. -/
structure Sound (s : Server) : Prop where
  defaults : s.dlqQueue.defaultJobOptions = dlqJobOptions
  jobs : ∀ job ∈ s.queue.jobs, Made config q d Called .main job.id job.name job.data
  letters : ∀ entry ∈ s.dlqQueue.jobs, Made config q d Called .dlq entry.id entry.name entry.data
  kept : ∀ id, Stored d s.dlqQueue id → id ∈ s.dlqQueue.ids ∨ id ∈ s.offered

/-- An addition to the main queue has come to a job under the id, be it new or found there. -/
def Offered (id : String) (s : Server) : Prop := id ∈ s.offered

/-- While others do likewise, and where the ids `K` have been offered to the main queue, the method
keeps the queues sound, and resolves with what meets `Q` when the ids `G` have been offered, too. -/
abbrev Safely (rule : CleanRule) (K : Set String) {α : Type} (Q : α → Prop) (G : α → Set String)
    (method : Method α) : Prop :=
  Secures (serve rule) (fun w => Sound config q d Called w.server) Offered K Q G method

end

variable {config : QueueConfig} {q d : Queue} {Called : Call → Prop} {rule : CleanRule}
  {K : Set String}

/-! ## Commands -/

/-- What a command does to sound queues, if it is carried out. -/
structure Step (config : QueueConfig) (q d : Queue) (Called : Call → Prop) (s s' : Server) :
    Prop where
  sound : Sound config q d Called s'
  lasts : Lasts Offered s s'

theorem safely_ask {c : Command} {Q : Reply c → Prop} {G : Reply c → Set String}
    (hc : ∀ now s, Sound config q d Called s → Known Offered K s →
      Step config q d Called s (respond rule now c s).2 ∧ Q (respond rule now c s).1 ∧
        Known Offered (G (respond rule now c s).1) (respond rule now c s).2) :
    Safely config q d Called rule K Q G (ask c) := by
  refine .await fun v m s hs hK => ?_
  obtain ⟨hstep, hQ, hG⟩ := hc v.now s hs hK
  rw [serve]
  cases v.answer with
  | answered => exact ⟨⟨hstep.sound, hstep.lasts⟩, fun _ hr => Except.ok.inj hr ▸ ⟨hQ, hG⟩⟩
  | rejected e applied =>
    refine ⟨?_, fun _ hr => by cases hr⟩
    cases applied with
    | false => exact ⟨hs, .refl s⟩
    | true => exact ⟨hstep.sound, hstep.lasts⟩

theorem Step.refl {s : Server} (hs : Sound config q d Called s) : Step config q d Called s s :=
  ⟨hs, .refl s⟩

/-- A command that only reads. -/
theorem safely_read {c : Command} {Q : Reply c → Prop}
    (hreads : ∀ now s, (respond rule now c s).2 = s)
    (hQ : ∀ now s, Sound config q d Called s → Q (respond rule now c s).1) :
    Safely config q d Called rule K Q (fun _ => ∅) (ask c) :=
  safely_ask fun now s hs _ =>
    ⟨(hreads now s).symm ▸ .refl hs, hQ now s hs, fun _ hx => hx.elim⟩

/-! ## Steps of the main queue -/

theorem Sound.withQueue {s : Server} (hs : Sound config q d Called s) {p : Queue}
    (h : s.queue.Retains p) : Step config q d Called s { s with queue := p } where
  sound :=
    { defaults := hs.defaults
      letters := hs.letters
      kept := hs.kept
      jobs := fun job hjob => by
        obtain ⟨job', hjob', hid, hname, hdata⟩ := h.contents job hjob
        rw [← hid, ← hname, ← hdata]
        exact hs.jobs job' hjob' }
  lasts := fun _ => id

/-- A command that changes no more than the main queue, where it adds nothing. -/
theorem safely_change {c : Command} (change : Server → Queue)
    (hchanges : ∀ now s, (respond rule now c s).2 = { s with queue := change s })
    (hretains : ∀ s : Server, s.queue.Retains (change s)) :
    Safely config q d Called rule K (fun _ => True) (fun _ => ∅) (ask c) :=
  safely_ask fun now s hs _ =>
    ⟨hchanges now s ▸ hs.withQueue (hretains s), trivial, fun _ hx => hx.elim⟩

theorem safely_clean :
    Safely config q d Called rule K (fun _ => True) (fun _ => ∅) (ask .clean) := by
  refine safely_change (fun s => s.queue.clean rule 10000 .completed) (fun now s => ?_) fun s => ?_
  · rw [respond]
  · exact Queue.retains_clean s.queue rule 10000 .completed

theorem safely_drain : Safely config q d Called rule K (fun _ => True) (fun _ => ∅) (ask .drain) :=
  safely_change (fun s => s.queue.drain) (fun _ _ => rfl) fun s => Queue.retains_filter s.queue _

theorem safely_promote (jobId : String) :
    Safely config q d Called rule K (fun _ => True) (fun _ => ∅) (ask (.promote jobId)) :=
  safely_change (fun s => (s.queue.promote jobId).getD s.queue) (fun _ _ => rfl)
    fun _ => Queue.retains_getD fun _ => Queue.retains_promote

theorem safely_settle (jobId : String) (completed isDelayed : Bool) :
    Safely config q d Called rule K (fun _ => True) (fun _ => ∅)
      (ask (.settle jobId completed isDelayed)) := by
  refine safely_change (fun s => (if completed then s.queue.complete jobId
    else s.queue.fail jobId isDelayed).getD s.queue) (fun _ _ => rfl) fun s => Queue.retains_getD ?_
  split
  · exact fun _ => Queue.retains_complete
  · exact fun _ => Queue.retains_fail

/-- A worker is given a job of the main queue. -/
theorem safely_start (jobId : String) :
    Safely config q d Called rule K
      (fun job => ∀ j ∈ job, j.id = jobId ∧ Made config q d Called .main j.id j.name j.data)
      (fun _ => ∅) (ask (.start jobId)) := by
  refine safely_ask fun now s hs _ => ⟨?_, fun j hj => ?_, fun _ hx => hx.elim⟩
  · exact hs.withQueue (Queue.retains_getD fun _ => Queue.retains_start)
  · obtain ⟨p, hstart, hj⟩ := Option.bind_eq_some_iff.mp hj
    obtain ⟨hmem, hid⟩ := Queue.getJob_eq_some hj
    exact ⟨hid, (hs.withQueue (Queue.retains_start hstart)).sound.jobs j hmem⟩

/-! ## Additions -/

/-- The job id that the options name. -/
def Names (opts : JobsOptions) (id : String) : Prop :=
  ∀ custom, opts.jobId = .value custom → custom ≠ "" → id = custom

/-- An addition of a job that was made or may be made. -/
theorem safely_add {jobName : String} {data : Json} {opts : JobsOptions}
    (hmade : ∀ id, Names opts id → Made config q d Called .main id jobName data) :
    Safely config q d Called rule K
      (fun job => Made config q d Called .main job.id job.name job.data ∧ Names opts job.id)
      (fun job => {job.id}) (ask (.add jobName data opts)) := by
  refine safely_ask fun now s hs _ => ?_
  have hnames : Names opts (s.queue.add jobName data opts now).1.id :=
    fun _ hjobId hne => Queue.add_id_of_jobId hjobId hne jobName data now
  have hreturned : Made config q d Called .main (s.queue.add jobName data opts now).1.id
      (s.queue.add jobName data opts now).1.name (s.queue.add jobName data opts now).1.data := by
    rcases Queue.add_cases (q := s.queue) jobName data opts now with ⟨hstored, -⟩ | ⟨hname, hdata⟩
    · exact hs.jobs _ hstored
    · rw [hname, hdata]
      exact hmade _ hnames
  refine ⟨⟨⟨hs.defaults, fun job hjob => ?_, hs.letters, fun id hid => ?_⟩, fun id hid => ?_⟩,
    ⟨hreturned, hnames⟩, fun id hid => ?_⟩
  · rcases Queue.mem_jobs_or_returned hjob with hjob | rfl
    · exact hs.jobs job hjob
    · exact hreturned
  · exact (hs.kept id hid).imp_right (List.mem_cons_of_mem _)
  · exact List.mem_cons_of_mem _ hid
  · exact List.mem_cons.mpr (.inl hid)

/-- A dead letter gets a number of its own: its queue takes no ids from outside. -/
theorem add_dlq {p : Queue} (hp : p.defaultJobOptions = dlqJobOptions) (name : String) (data : Json)
    (now : ℕ) :
    let job := p.newJob name data dlqJobOptions now
    p.add name data dlqJobOptions now = (job, { p.put job with counter := p.counter + 1 }) ∧
      job.id = toString (p.counter + 1) := by
  have hcustom : (p.defaultJobOptions.spread dlqJobOptions).customId = none := by
    rw [hp]
    rfl
  have hdup : p.duplicate dlqJobOptions = none := by rw [Queue.duplicate, hcustom, Option.bind_none]
  exact ⟨Queue.add_eq_put hdup, Queue.newJob_id_of_none hcustom name data now⟩

theorem safely_addDlq {jobName : String} {data : Json}
    (hmade : ∀ id, id ≠ "" → Made config q d Called .dlq id jobName data) :
    Safely config q d Called rule K (fun _ => True) (fun _ => ∅) (ask (.addDlq jobName data)) := by
  refine safely_ask fun now s hs _ => ⟨?_, trivial, fun _ hx => hx.elim⟩
  obtain ⟨hadd, hid⟩ := add_dlq hs.defaults jobName data now
  rw [respond, hadd]
  generalize hjob : s.dlqQueue.newJob jobName data dlqJobOptions now = job at hid
  have hcontent : job.name = jobName ∧ job.data = data := by
    rw [← hjob]
    exact ⟨rfl, rfl⟩
  refine ⟨⟨hs.defaults, hs.jobs, fun entry hentry => ?_, fun id hstored => ?_⟩, fun _ => id⟩
  · rcases List.mem_cons.mp hentry with rfl | hentry
    · rw [hcontent.1, hcontent.2]
      exact hmade _ (hid ▸ Queue.toString_ne_empty _)
    · exact hs.letters entry (List.mem_filter.mp hentry).1
  · by_cases hnew : id = job.id
    · exact .inl (Queue.mem_ids_put.mpr (.inl hnew))
    · have hold : Stored d s.dlqQueue id := by
        refine hstored.imp_right fun ⟨n, hlt, hle, hn⟩ => ⟨n, hlt, ?_, hn⟩
        have hle : n ≤ s.dlqQueue.counter + 1 := hle
        have hne : n ≠ s.dlqQueue.counter + 1 := fun heq => hnew (hn.trans (heq ▸ hid.symm))
        omega
      exact (hs.kept id hold).imp_left fun hmem => Queue.mem_ids_put.mpr (.inr ⟨hmem, hnew⟩)

/-- A dead letter is removed only where its id has been offered to the main queue. -/
theorem safely_removeDlqJob {jobId : String} (hoffered : jobId ∈ K) :
    Safely config q d Called rule K (fun _ => True) (fun _ => ∅) (ask (.removeDlqJob jobId)) := by
  refine safely_ask fun now s hs hK => ⟨⟨⟨hs.defaults, hs.jobs, ?_, ?_⟩, fun _ => id⟩, trivial,
    fun _ hx => hx.elim⟩
  · exact fun entry hentry => hs.letters entry (List.mem_filter.mp hentry).1
  · intro id hstored
    by_cases hid : id = jobId
    · exact .inr (hid ▸ hK jobId hoffered)
    · exact (hs.kept id hstored).imp_left fun hmem => Queue.mem_ids_remove.mpr ⟨hmem, hid⟩

/-! ## Methods -/

theorem safely_settleWith {α : Type} (r : Except Thrown α) :
    Safely config q d Called rule K (fun _ => True) (fun _ => ∅) (settleWith r) := by
  cases r with
  | ok a => exact .pure trivial (Set.empty_subset _)
  | error e => exact .throw e

theorem safely_getJob (jobId : String) :
    Safely config q d Called rule K (fun _ => True) (fun _ => ∅) (ask (.getJob jobId)) :=
  safely_read (fun _ _ => rfl) fun _ _ _ => trivial

theorem safely_retryJob (stack : String) (missing : Thrown) (jobId : String) :
    Safely config q d Called rule K (fun _ => True) (fun _ => ∅)
      (retryJob stack missing jobId) := by
  refine .bind (safely_getJob jobId) fun job _ => ?_
  cases job with
  | none => exact .throw _
  | some job =>
    refine .bind (safely_change (fun s => (s.queue.moveToWait job.id).getD s.queue)
      (fun _ _ => rfl) fun _ => Queue.retains_getD fun _ => Queue.retains_moveToWait)
      fun moved _ => ?_
    split
    · exact .pure trivial (Set.empty_subset _)
    · exact .throw _

theorem safely_removeJob (locked : Thrown) (jobId : String) :
    Safely config q d Called rule K (fun _ => True) (fun _ => ∅) (removeJob locked jobId) := by
  refine .bind (safely_getJob jobId) fun job _ => ?_
  cases job with
  | none => exact .pure trivial (Set.empty_subset _)
  | some job =>
    refine .bind (safely_change (fun s => (s.queue.removeUnlocked job.id).getD s.queue)
      (fun _ _ => rfl) fun _ => Queue.retains_getD fun _ => Queue.retains_removeUnlocked)
      fun removed _ => ?_
    split
    · exact .pure trivial (Set.empty_subset _)
    · exact .throw _

/-- What `addJob` resolves with: the id of a job of the main queue, the key being its id if one was
given. -/
def AddedAs (config : QueueConfig) (q d : Queue) (Called : Call → Prop)
    (options : Option JobOptions) (id : String) : Prop :=
  (∃ name data, Made config q d Called .main id name data) ∧
    ∀ key, (options.getD {}).idempotencyKey.toOption = some key → key ≠ "" → id = key

theorem jobId_addJobOptions {options : Option JobOptions} {random : ℚ} {key : String}
    (h : (options.getD {}).idempotencyKey.toOption = some key) (hne : key ≠ "") :
    (addJobOptions config random options).jobId = .value key :=
  (applyJitter_jobId _ _ _).trans (buildJobOptions_jobId_of_key config h hne)

theorem safely_addJob {jobName : String} {data : Json} {options : Option JobOptions} {random : ℚ}
    {metric : Answer Thrown} (hcalled : Called (.addJob jobName data options random metric)) :
    Safely config q d Called rule K (AddedAs config q d Called options) (fun id => {id})
      (addJob config metric random jobName data options) := by
  refine .bind (safely_add fun id hid => .added hcalled fun key hkey hne =>
    hid key (jobId_addJobOptions hkey hne) hne) fun job ⟨hmade, hid⟩ => ?_
  refine .bind (safely_settleWith _) fun _ _ => .pure ⟨⟨_, _, hmade⟩, fun key hkey hne =>
    hid key (jobId_addJobOptions hkey hne) hne⟩ ?_
  exact Set.subset_union_of_subset_left Set.subset_union_right _

/-- The jobs a replay lists are dead letters, and no id of theirs is empty. -/
def Letters (config : QueueConfig) (q d : Queue) (Called : Call → Prop) (jobs : List Job) : Prop :=
  ∀ job ∈ jobs, Made config q d Called .dlq job.id job.name job.data ∧ job.id ≠ ""

theorem ne_empty_of_made (hd : "" ∉ d.ids) {id name : String} {data : Json}
    (h : Made config q d Called .dlq id name data) : id ≠ "" := by
  cases h with
  | foundDead hentry => exact fun hid => hd (Queue.mem_ids.mpr ⟨_, hentry, hid⟩)
  | moved _ _ _ _ hne _ => exact hne

/-- The loop, by induction on the letters that are left: each is removed once it has been added. -/
theorem safely_replayJobs {limit : ℕ} (hcalled : Called (.replayDLQ limit))
    (henabled : config.isDlqEnabled) {jobs : List Job} (hjobs : Letters config q d Called jobs)
    (moved : ℕ) :
    Safely config q d Called rule K (fun _ => True) (fun _ => ∅)
      (replayJobs config jobs moved) := by
  induction jobs generalizing K moved with
  | nil => exact .pure trivial (Set.empty_subset _)
  | cons job jobs ih =>
    obtain ⟨⟨hmade, hne⟩, hrest⟩ := List.forall_mem_cons.mp hjobs
    refine .bind (safely_add fun id hid => ?_) fun added ⟨_, hid⟩ => ?_
    · obtain rfl := hid job.id rfl hne
      exact .replayed hcalled henabled hmade
    · have hsame : added.id = job.id := hid job.id rfl hne
      exact .bind (safely_removeDlqJob (.inr hsame.symm)) fun _ _ => ih hrest _

theorem safely_replayDLQ (hd : "" ∉ d.ids) {limit : ℕ} (hcalled : Called (.replayDLQ limit)) :
    Safely config q d Called rule K (fun _ => True) (fun _ => ∅) (replayDLQ config limit) := by
  unfold replayDLQ
  split
  · next henabled =>
    refine .bind (P := Letters config q d Called) (safely_read (fun _ _ => rfl)
      fun _ s hs job hjob => ?_) fun jobs hjobs => safely_replayJobs hcalled henabled hjobs 0
    have hmade := hs.letters job (Queue.mem_inState.mp ((range_sublist _ _ _).subset hjob)).1
    exact ⟨hmade, ne_empty_of_made hd hmade⟩
  · exact .pure trivial (Set.empty_subset _)

/-! ## Attempts -/

section

variable {job : Job} {attempt : Attempt} {isDelayed : Bool}
  (hcalled : Called (.work job.id attempt isDelayed))
  (hmade : Made config q d Called .main job.id job.name job.data)
include hcalled hmade

theorem safely_moveJobToDLQ {error : JsError} (hspent : job.opts.attempts.getD 3 ≤ job.attemptsMade)
    (herror : FailsWith config attempt error) :
    Safely config q d Called rule K (fun _ => True) (fun _ => ∅)
      (moveJobToDLQ config attempt.timestamp job error) := by
  unfold moveJobToDLQ
  split
  · next henabled =>
    refine .bind (safely_addDlq fun id hne =>
      .moved hcalled henabled hspent herror hne hmade) fun dlqJob _ => ?_
    split
    · exact .handle (safely_read (fun _ _ => rfl) fun _ _ _ => trivial)
        fun _ => .pure trivial (Set.empty_subset _)
    · exact .pure trivial (Set.empty_subset _)
  · exact .pure trivial (Set.empty_subset _)

theorem safely_handleJobFailure {error : JsError} (herror : FailsWith config attempt error) :
    Safely config q d Called rule K (fun _ => True) (fun _ => ∅)
      (handleJobFailure config attempt job error) := by
  refine .bind (P := fun _ => True) (H := fun _ => ∅) ?_ fun _ _ =>
    .bind (safely_settleWith _) fun _ _ => .bind (safely_settleWith _) fun _ _ =>
      safely_settleWith _
  unfold retryOrMove
  dsimp only
  split
  · split
    · next hspent =>
      exact .bind (safely_moveJobToDLQ hcalled hmade hspent herror) fun _ _ => safely_settleWith _
    · exact safely_settleWith _
  · split
    · exact safely_settleWith _
    · exact .pure trivial (Set.empty_subset _)

theorem safely_processJob :
    Safely config q d Called rule K (fun _ => True) (fun _ => ∅)
      (processJob config attempt job) := by
  unfold processJob
  split
  · exact .throw _
  · next processor hprocessor =>
    refine .bind (safely_settleWith _) fun _ _ => .bind (safely_settleWith _) fun _ _ => ?_
    split
    · exact .pure trivial (Set.empty_subset _)
    · next e he =>
      exact .bind (safely_handleJobFailure hcalled hmade ⟨processor, hprocessor, e, he, rfl⟩)
        fun _ _ => .throw _

end

theorem safely_work {jobId : String} {attempt : Attempt} {isDelayed : Bool}
    (hcalled : Called (.work jobId attempt isDelayed)) :
    Safely config q d Called rule K (fun _ => True) (fun _ => ∅)
      (work config attempt isDelayed jobId) := by
  refine .bind (safely_start jobId) fun job hjob => ?_
  cases job with
  | none => exact .pure trivial (Set.empty_subset _)
  | some job =>
    obtain ⟨rfl, hmade⟩ := hjob job rfl
    refine .bind (P := fun _ => True) (H := fun _ => ∅)
      (.handle (.bind (safely_processJob hcalled hmade)
        fun _ _ => .pure trivial (Set.empty_subset _))
        fun _ => .pure trivial (Set.empty_subset _)) fun completed _ => ?_
    exact safely_settle job.id completed isDelayed

/-! ## Calls and runs -/

/-- What is known of the value a call resolves with. -/
def Told (config : QueueConfig) (q d : Queue) (Called : Call → Prop) : Call → Result → Prop
  | .addJob _ _ options _ _, result =>
    ∃ id, result = .jobId id ∧ AddedAs config q d Called options id
  | _, _ => True

/-- The ids that additions to the main queue have come to when a call has resolved. -/
def Result.offers : Result → Set String
  | .jobId id => {id}
  | .moved _ | .done => ∅

theorem safely_done {m : Method Unit}
    (hm : Safely config q d Called rule K (fun _ => True) (fun _ => ∅) m) {call : Call}
    (hcall : Told config q d Called call .done) :
    Safely config q d Called rule K (Told config q d Called call) Result.offers (do
      m
      pure .done) :=
  .bind hm fun _ _ => .pure hcall (Set.empty_subset _)

theorem safely_method (hd : "" ∉ d.ids) {call : Call} (hcalled : Called call) :
    Safely config q d Called rule K (Told config q d Called call) Result.offers
      (call.method config) := by
  cases call with
  | addJob jobName data options random metric =>
    exact .bind (safely_addJob hcalled) fun id hid => .pure ⟨id, rfl, hid⟩ Set.subset_union_right
  | retryJob jobId stack missing => exact safely_done (safely_retryJob stack missing jobId) trivial
  | removeJob jobId locked => exact safely_done (safely_removeJob locked jobId) trivial
  | replayDLQ limit =>
    exact .bind (safely_replayDLQ hd hcalled) fun _ _ => .pure trivial (Set.empty_subset _)
  | clear => exact safely_done safely_clean trivial
  | drain => exact safely_done safely_drain trivial
  | promote jobId => exact safely_done (safely_promote jobId) trivial
  | work jobId attempt isDelayed => exact safely_done (safely_work hcalled) trivial

theorem sound_init (hdefaults : d.defaultJobOptions = dlqJobOptions) {offered : List String} :
    Sound config q d Called ⟨q, d, offered⟩ where
  defaults := hdefaults
  jobs _ hjob := .found hjob
  letters _ hentry := .foundDead hentry
  kept id hid := by
    rcases hid with hid | ⟨n, hlt, hle, -⟩
    · exact .inl hid
    · exact absurd (hlt.trans_le hle) (lt_irrefl d.counter)

section

variable {es : List (PoolEvent Call (Effects.Choice Thrown))} {p : World}
  (hdefaults : d.defaultJobOptions = dlqJobOptions) (hd : "" ∉ d.ids)
include hdefaults hd

theorem secured_of_run (h : (system rule config).runFrom ⟨⟨(), ⟨q, d, []⟩⟩, []⟩ es = some p) :
    Sound config q d (fun call => .spawn call ∈ es) p.server ∧ Lasts Offered ⟨q, d, []⟩ p.server ∧
      ∀ t ∈ p.threads, ∀ result, t.stage = .settled (.ok result) →
        Told config q d (fun call => .spawn call ∈ es) t.label result ∧
          Known Offered result.offers p.server :=
  secures_of_run (P := fun call => .spawn call ∈ es) (fun _ hcalled => safely_method hd hcalled)
    (sound_init hdefaults) (fun _ hcalled => hcalled) h

/-- **Jobs go back to an `addJob`.** However the methods of a `JobQueue` and its workers overlap,
and whichever of their calls fail: a job of the main queue was there at first, was added with its
name and data, or is a dead letter that was replayed under its id; a dead letter wraps a job that
was made so, by a worker whose attempt at it has failed when its attempts were spent. -/
theorem traced_of_run (h : (system rule config).runFrom ⟨⟨(), ⟨q, d, []⟩⟩, []⟩ es = some p) :
    (∀ job ∈ p.server.queue.jobs,
      Made config q d (fun call => .spawn call ∈ es) .main job.id job.name job.data) ∧
    ∀ entry ∈ p.server.dlqQueue.jobs,
      Made config q d (fun call => .spawn call ∈ es) .dlq entry.id entry.name entry.data := by
  have hsound := (secured_of_run hdefaults hd h).1
  exact ⟨hsound.jobs, hsound.letters⟩

/-- **A dead letter goes only once a job has been added under its id.** In every such run, whatever
replays overlap and wherever they are cut short, a dead letter that has been stored is stored still,
or an addition to the main queue has come to a job under its id, be it new or found there. -/
theorem undropped_of_run (h : (system rule config).runFrom ⟨⟨(), ⟨q, d, []⟩⟩, []⟩ es = some p) :
    ∀ id, Stored d p.server.dlqQueue id → id ∈ p.server.dlqQueue.ids ∨ id ∈ p.server.offered :=
  (secured_of_run hdefaults hd h).1.kept

/-- **An id that was returned is that of an addition to the main queue**, and is the idempotency key
of the call, if it had one; the job under it was made, though not always by that call. -/
theorem offered_of_run (h : (system rule config).runFrom ⟨⟨(), ⟨q, d, []⟩⟩, []⟩ es = some p) :
    ∀ t ∈ p.threads, ∀ jobName data options random metric id,
      t.label = .addJob jobName data options random metric →
      t.stage = .settled (.ok (.jobId id)) → id ∈ p.server.offered ∧
        AddedAs config q d (fun call => .spawn call ∈ es) options id := by
  intro t ht jobName data options random metric id hlabel hstage
  obtain ⟨htold, hknown⟩ := (secured_of_run hdefaults hd h).2.2 t ht _ hstage
  rw [hlabel] at htold
  obtain ⟨id', heq, hadded⟩ := htold
  obtain rfl := Result.jobId.inj heq
  exact ⟨hknown id rfl, hadded⟩

end

/-! ## Two replays of one dead letter -/

/-- A main queue with an order that a worker has taken. -/
def takenOrders : Queue where
  jobs := [{ orderJob with state := .active }]
  counter := 7
  defaultJobOptions := {}

/-- An attempt at the order, which is declined. -/
def declined : Attempt where
  processor := some { outcome := .error (.value "declined") }
  answers _ := .answered
  stack := ""
  now := 0
  timestamp := "now"

/-- The order is put back, fails and becomes a dead letter, and two replays find it. The first is
cut short once it has added the job, the second finds the job there and removes the letter. A call
with that key is told the id. -/
def replayingRun : List (PoolEvent Call (Effects.Choice Thrown)) :=
  [.spawn (.retryJob "7" "" (.value "missing")), .exec 0 {}, .resume 0, .exec 0 {}, .resume 0,
    .spawn (.work "7" declined false), .exec 1 {}, .resume 1, .exec 1 {}, .resume 1, .exec 1 {},
    .resume 1, .spawn (.replayDLQ 10), .exec 2 {}, .spawn (.replayDLQ 10), .exec 3 {}, .resume 2,
    .exec 2 { answer := .rejected (.value "closed") true }, .resume 2, .resume 3, .exec 3 {},
    .resume 3, .exec 3 {}, .resume 3,
    .spawn (.addJob "charge" .null (some { idempotencyKey := .value "1" }) 0 .answered),
    .exec 4 {}, .resume 4]

theorem isSome_replayingRun :
    ((system .oldest shopConfig).runFrom ⟨⟨(), ⟨takenOrders, newDlqQueue, []⟩⟩, []⟩
      replayingRun).isSome := by
  decide +kernel

/-- What is stored goes back to the order that was there. -/
theorem traced_of_replayingRun :
    ∃ p, (system .oldest shopConfig).runFrom ⟨⟨(), ⟨takenOrders, newDlqQueue, []⟩⟩, []⟩
        replayingRun = some p ∧
      (∀ job ∈ p.server.queue.jobs,
        Made shopConfig takenOrders newDlqQueue (fun call => .spawn call ∈ replayingRun) .main
          job.id job.name job.data) ∧
      ∀ entry ∈ p.server.dlqQueue.jobs,
        Made shopConfig takenOrders newDlqQueue (fun call => .spawn call ∈ replayingRun) .dlq
          entry.id entry.name entry.data :=
  ⟨_, (Option.some_get isSome_replayingRun).symm,
    traced_of_run rfl List.not_mem_nil (Option.some_get isSome_replayingRun).symm⟩

/-- The dead letter has gone, and a job was added under its id. -/
theorem undropped_of_replayingRun :
    ∃ p, (system .oldest shopConfig).runFrom ⟨⟨(), ⟨takenOrders, newDlqQueue, []⟩⟩, []⟩
        replayingRun = some p ∧
      ∀ id, Stored newDlqQueue p.server.dlqQueue id →
        id ∈ p.server.dlqQueue.ids ∨ id ∈ p.server.offered :=
  ⟨_, (Option.some_get isSome_replayingRun).symm,
    undropped_of_run rfl List.not_mem_nil (Option.some_get isSome_replayingRun).symm⟩

/-- So has what the last call is told. -/
theorem offered_of_replayingRun :
    ∃ p, (system .oldest shopConfig).runFrom ⟨⟨(), ⟨takenOrders, newDlqQueue, []⟩⟩, []⟩
        replayingRun = some p ∧
      ∀ t ∈ p.threads, ∀ jobName data options random metric id,
        t.label = .addJob jobName data options random metric →
        t.stage = .settled (.ok (.jobId id)) → id ∈ p.server.offered ∧
          AddedAs shopConfig takenOrders newDlqQueue (fun call => .spawn call ∈ replayingRun)
            options id :=
  ⟨_, (Option.some_get isSome_replayingRun).symm,
    offered_of_run rfl List.not_mem_nil (Option.some_get isSome_replayingRun).symm⟩

end KitiumJobQueue.JobQueue.Overlapping
